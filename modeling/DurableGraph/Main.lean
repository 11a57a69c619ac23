import DurableGraph.CommandLine.Invocation

/-!
# The program

Reads the files that a run needs, lets the run happen, and stores what it wrote.
-/

namespace DurableGraph

/-- The fault that an error of the system stands for. -/
def faultOf : IO.Error → FileFault
  | .noFileOrDirectory .. => .absent
  | .inappropriateType _ 21 _ => .isDirectory
  | .inappropriateType .. => .notDirectory
  | e => .other (toString e)

def readFile (path : String) : IO (Except FileFault Image) := do
  try
    return .ok ⟨← IO.FS.readBinFile path⟩
  catch e =>
    return .error (faultOf e)

/-- How severe a notice is. -/
def severity : Level → Nat
  | .trace => 0
  | .debug => 1
  | .info => 2
  | .warn => 3
  | .error => 4

/-- The least severity that a setting asks to show; what it does not know reads as `warn`. -/
def threshold (logLevel : String) : Nat :=
  match logLevel with
  | "trace" => 0
  | "debug" => 1
  | "info" => 2
  | "error" => 4
  | "off" => 5
  | _ => 3

def fieldText : String × FieldValue → String
  | (name, .number n) => s!"{name}={n}"
  | (name, .flag b) => s!"{name}={b}"
  | (name, .text s) => s!"{name}={s}"

def eventText (event : Event) : String :=
  " ".intercalate (event.notice.level.text :: event.notice.message ::
    event.notice.fields.map fieldText)

/-- Shows what a run leaves, and tells its exit code. -/
def present (result : RunResult) (least : Nat) : IO UInt32 := do
  for event in result.events do
    if least ≤ severity event.notice.level then IO.eprintln (eventText event)
  IO.print result.output
  if let some line := result.error then IO.eprintln line
  return result.code.toUInt32

/-- Lets a run happen on the files of the system. -/
def runHere (run : Invocation) : IO UInt32 := do
  let usual ← readFile defaultConfig
  let path? := run.configPath? (usual matches .ok _)
  let document ←
    match path? with
    | none => pure none
    | some path => pure (some (path, ← readFile path))
  match run.settings document with
  | .error line => present (Invocation.failed line []) 3
  | .ok settings =>
    let file ← readFile settings.device
    let (result, writes) := Invocation.runWith run.command settings file
    if let .ok image := file then
      unless writes.isEmpty do
        IO.FS.writeBinFile settings.device (image.storeAll writes).bytes
    present result (threshold settings.logLevel)

end DurableGraph

def main (args : List String) : IO UInt32 := do
  match DurableGraph.Invocation.parse args with
  | .error halt =>
    if halt = .usage then IO.eprint DurableGraph.usageText
    DurableGraph.present (DurableGraph.Invocation.halted halt) 3
  | .ok run => DurableGraph.runHere run
