import DurableGraph.Log.Basic
import DurableGraph.Checkpoint.Words
import DurableGraph.Settings.Basic

/-!
# Errors of a store

What can go wrong below a store, and what a client is told of it: exhaustion is a refusal of
its own, everything else a fault of the storage.
-/

namespace DurableGraph

inductive StoreError where
  | device (error : DeviceError)
  | log (error : LogError)
  | checkpoint (error : CheckpointError)
  | tooSmall (blockCount : Nat)
  | rotationFailed (error : LogError)
  | halted
  | settings (error : SettingsError)
  deriving DecidableEq, Repr

namespace StoreError

def message : StoreError → String
  | device error => error.message
  | log error => "log: " ++ error.message
  | checkpoint error => "checkpoint: " ++ error.message
  | tooSmall blockCount =>
    "device of " ++ blockCount.repr ++ " blocks is too small (need at least 10)"
  | rotationFailed error =>
    "log rotation failed, database not recoverable beyond this point: " ++ error.message
  | halted => "store halted after an unrecoverable storage fault"
  | settings error => "config: " ++ error.message

/-- The messages of the errors below this one; an error of the device speaks for itself. -/
def causes : StoreError → List String
  | device error => error.causes
  | log error | rotationFailed error => error.message :: error.causes
  | checkpoint error => error.message :: error.causes
  | settings error => error.message :: error.causes
  | tooSmall _ | halted => []

/-- Whether a region or the device is exhausted, which is no fault. -/
def isNoSpace : StoreError → Bool
  | log (.noSpace _) | checkpoint (.noSpace _) | device (.noSpace ..) => true
  | _ => false

/-- What a client is told. -/
def refusal (error : StoreError) : Refusal :=
  if error.isNoSpace then .noSpace
  else
    match error with
    | halted => .halted
    | other => .storage other.message

theorem refusal_eq_noSpace_iff (error : StoreError) :
    error.refusal = .noSpace ↔ error.isNoSpace = true := by
  unfold refusal
  cases h : error.isNoSpace with
  | true => simp
  | false => cases error <;> simp

end StoreError

end DurableGraph
