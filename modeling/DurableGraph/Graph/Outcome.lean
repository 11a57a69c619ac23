/-!
# Outcomes, refusals and status codes

A request to a graph ends in an `Outcome` or a `Refusal`.  Peers that speak flat codes see
either side as a `StatusCode`; a peer waiting for a checkpoint sees a `CheckpointStatus`.

    StatusCode.ofText? c.text = some c                  (ofText?_text)
    StatusCode.ofText? t = some c → t = c.text          (eq_text_of_ofText?)
-/

namespace DurableGraph

/-- A mutation that was carried out: it changed the graph, or the graph had that shape already. -/
inductive Outcome where
  | success
  | noAction
  deriving DecidableEq, Repr

/-- Why a request was not carried out. -/
inductive Refusal where
  /-- A node or edge that the request needs is absent. -/
  | missing
  | invalid (reason : String)
  | noSpace
  | wrongPartition
  | peerFailed
  /-- An earlier fault has stopped the store for good. -/
  | halted
  | storage (text : String)
  deriving DecidableEq, Repr

/-- The flat code of an answer. -/
inductive StatusCode where
  | success
  | noAction
  | doesNotExist
  | invalid
  | noSpace
  | error
  | wrongPartition
  | partitionFail
  deriving DecidableEq, Repr

/-- What a peer is told about a checkpoint it takes part in. -/
inductive CheckpointStatus where
  | success
  | outOfSpace
  | checkpointDisabled
  | fail
  deriving DecidableEq, Repr

/-! ## Status codes -/

namespace StatusCode

def text : StatusCode → String
  | success => "SUCCESS"
  | noAction => "NO_ACTION"
  | doesNotExist => "DOES_NOT_EXIST"
  | invalid => "INVALID"
  | noSpace => "NO_SPACE"
  | error => "ERROR"
  | wrongPartition => "WRONG_PARTITION"
  | partitionFail => "PARTITION_FAIL"

def all : List StatusCode :=
  [success, noAction, doesNotExist, invalid, noSpace, error, wrongPartition, partitionFail]

/-- The code with the given name. -/
def ofText? (name : String) : Option StatusCode :=
  all.find? fun code => code.text = name

/-- Codes of a completed call, a valid call without effect included. -/
def isOk : StatusCode → Bool
  | success | noAction => true
  | _ => false

@[simp] theorem ofText?_text (code : StatusCode) : ofText? code.text = some code := by
  cases code <;> decide

theorem eq_text_of_ofText? {name : String} {code : StatusCode} (h : ofText? name = some code) :
    name = code.text := by
  have := List.find?_some h
  simp_all

end StatusCode

namespace Outcome

def status : Outcome → StatusCode
  | success => .success
  | noAction => .noAction

def isSuccess (outcome : Outcome) : Bool := outcome = success

end Outcome

/-! ## Refusals -/

namespace Refusal

def status : Refusal → StatusCode
  | missing => .doesNotExist
  | invalid _ => .invalid
  | noSpace => .noSpace
  | wrongPartition => .wrongPartition
  | peerFailed => .partitionFail
  | halted | storage _ => .error

def message : Refusal → String
  | missing => "node or edge does not exist"
  | invalid reason => "invalid request: " ++ reason
  | noSpace => "no space left on device"
  | wrongPartition => "node is owned by another partition"
  | peerFailed => "partition peer failed"
  | halted => "store halted after an unrecoverable storage fault"
  | storage text => "storage error: " ++ text

/-- A refusal that speaks of the store itself, not of the request. -/
def isFault : Refusal → Bool
  | halted | storage _ => true
  | _ => false

/-- No refusal counts as a completed call. -/
theorem isOk_status (refusal : Refusal) : refusal.status.isOk = false := by
  cases refusal <;> rfl

end Refusal

/-- The flat code of either side of an answer. -/
def statusOf : Except Refusal Outcome → StatusCode
  | .ok outcome => outcome.status
  | .error refusal => refusal.status

/-! ## Checkpoint statuses -/

namespace CheckpointStatus

def text : CheckpointStatus → String
  | success => "SUCCESS"
  | outOfSpace => "OUT_OF_SPACE"
  | checkpointDisabled => "CHECKPOINT_DISABLED"
  | fail => "FAIL"

def all : List CheckpointStatus := [success, outOfSpace, checkpointDisabled, fail]

def ofText? (name : String) : Option CheckpointStatus :=
  all.find? fun status => status.text = name

/-- Exhaustion is told apart from every other failure. -/
def ofResult {α : Type} : Except Refusal α → CheckpointStatus
  | .ok _ => success
  | .error .noSpace => outOfSpace
  | .error _ => fail

@[simp] theorem ofText?_text (status : CheckpointStatus) : ofText? status.text = some status := by
  cases status <;> decide

end CheckpointStatus

end DurableGraph
