import DurableGraph.Disk.Image

/-!
# Devices

A device is a handle on an image: the path it was opened by, and its capacity, measured once
at that moment.  What the image holds later is given to each read.

    device.get image n = .ok b → n < device.blockCount ∧ image.block? n = some b.content
-/

namespace DurableGraph

/-- Why a file could not be opened or read. -/
inductive FileFault where
  | absent
  | isDirectory
  | notDirectory
  | nameTooLong
  | zeroByteInName
  /-- The file ends before the bytes asked for. -/
  | shortRead
  | notUtf8
  | other (text : String)
  deriving DecidableEq, Repr

inductive DeviceError where
  | openFailed (path : String) (fault : FileFault)
  | transferFailed (block : Nat) (fault : FileFault)
  | noSpace (block blockCount : Nat)
  deriving DecidableEq, Repr

/-- The blocks from `start` to before `stop`. -/
structure Region where
  start : Nat
  stop : Nat
  deriving DecidableEq, Repr

structure Device where
  path : String
  blockCount : Nat
  deriving DecidableEq, Repr

/-! ## Messages -/

def FileFault.message : FileFault → String
  | absent => "No such file or directory (os error 2)"
  | isDirectory => "Is a directory (os error 21)"
  | notDirectory => "Not a directory (os error 20)"
  | nameTooLong => "File name too long (os error 36)"
  | zeroByteInName => "file name contained an unexpected NUL byte"
  | shortRead => "failed to fill whole buffer"
  | notUtf8 => "stream did not contain valid UTF-8"
  | other text => text

namespace DeviceError

def message : DeviceError → String
  | openFailed path fault => "failed to open device " ++ path ++ ": " ++ fault.message
  | transferFailed block fault => "IO error on block " ++ block.repr ++ ": " ++ fault.message
  | noSpace block blockCount =>
    "block " ++ block.repr ++ " is beyond the end of the device (" ++ blockCount.repr ++ " blocks)"

/-- The messages of the errors below this one. -/
def causes : DeviceError → List String
  | openFailed _ fault | transferFailed _ fault => [fault.message]
  | noSpace .. => []

end DeviceError

namespace Device

/-! ## Algorithm -/

/-- The handle on an image opened by a path, of which only whole blocks count. -/
def ofImage (path : String) (image : Image) : Device := ⟨path, image.blockCount⟩

/-- Block `n` must lie on the device. -/
def check (device : Device) (n : Nat) : Except DeviceError Unit :=
  if n < device.blockCount then .ok () else .error (.noSpace n device.blockCount)

/-- An empty buffer for block `n`. -/
def blank (device : Device) (n : Nat) : Except DeviceError Buffer := do
  device.check n
  .ok ⟨n, .zero⟩

/-- Block `n` as it stands in the image. -/
def get (device : Device) (image : Image) (n : Nat) : Except DeviceError Buffer := do
  device.check n
  match image.block? n with
  | some content => .ok ⟨n, content⟩
  | none => .error (.transferFailed n .shortRead)

/-! ## Lemmas -/

theorem check_eq_ok {device : Device} {n : Nat} (h : n < device.blockCount) :
    device.check n = .ok () := if_pos h

theorem blank_eq_ok {device : Device} {n : Nat} (h : n < device.blockCount) :
    device.blank n = .ok ⟨n, .zero⟩ := by
  simp [blank, check_eq_ok h, bind, Except.bind]

theorem get_eq_ok_iff {device : Device} {image : Image} {n : Nat} {buffer : Buffer} :
    device.get image n = .ok buffer ↔
      n < device.blockCount ∧ buffer.number = n ∧ image.block? n = some buffer.content := by
  obtain ⟨number, content⟩ := buffer
  unfold get check
  by_cases h : n < device.blockCount <;> cases image.block? n <;>
    simp [h, bind, Except.bind, eq_comm]

end Device

end DurableGraph
