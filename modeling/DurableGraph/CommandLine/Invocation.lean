import DurableGraph.CommandLine.Command
import DurableGraph.Disk.Directory
import DurableGraph.Settings.Document
import DurableGraph.Store.Stats

/-!
# Invocations

One run of the program: its options lead to settings, the settings to a store, and the store
carries out one command.  The files are given, as far as they were found, so a run is a
function; `runIn` takes them from a directory.

    options override the settings document; a sub-command's own options override those before it
-/

namespace DurableGraph

/-- What a command line asks for. -/
structure Invocation where
  options : Options
  command : Command
  deriving DecidableEq, Repr

/-- What a run leaves: an exit code, its output, a line of error, and what it reported. -/
structure RunResult where
  code : Nat
  output : String
  error : Option String
  events : List Event

/-- The settings document that is read where none is named. -/
def defaultConfig : String := "hatch.toml"

def versionText : String := "hatch 0.1.0\n"

def usageText : String :=
  "Usage: hatch [--config FILE] [--device FILE] [--format] [--direct-io] COMMAND\n"

def helpText : String :=
  "Durable graph store\n\n" ++ usageText ++ "\n" ++
  "Commands:\n" ++
  "  format                Format the log and checkpoint regions\n" ++
  "  add-node ID           Add a node\n" ++
  "  remove-node ID        Remove a node and every edge touching it\n" ++
  "  node ID               Show a node and its neighbors\n" ++
  "  add-edge A B          Add an undirected edge\n" ++
  "  remove-edge A B       Remove an undirected edge\n" ++
  "  edge A B              Check that an edge exists\n" ++
  "  neighbors ID          List the neighbors of a node\n" ++
  "  shortest-path A B     Number of hops between two nodes\n" ++
  "  checkpoint            Write a checkpoint and start a new log generation\n" ++
  "  inspect [--json]      Show generation, counts and log usage\n"

/-! ## Reading a command line -/

/-- Options given later hold, and flags add up. -/
def Options.override (first later : Options) : Options where
  config := later.config <|> first.config
  device := later.device <|> first.device
  format := first.format || later.format
  directIo := first.directIo || later.directIo

/-- What is known before the name of a sub-command. -/
def Known.program : Known := ⟨true, false, true, 0⟩

namespace Invocation

/-- Behind `help`, at most the name of a sub-command. -/
def readHelp : List String → Halt
  | [] => .help
  | [name] => if name = "help" || (SubCommand.ofName? name).isSome then .help else .usage
  | _ => .usage

def parse (args : List String) : Except Halt Invocation := do
  let (before, rest) ← Arguments.readOptions .program .unset args
  match rest with
  | [] => .error .usage
  | "help" :: names => .error (readHelp names)
  | name :: rest =>
    match SubCommand.ofName? name with
    | none => .error .usage
    | some sub =>
      let after ← Arguments.read (sub.known true) .unset rest
      match sub.command? after.json after.nodes with
      | some command => .ok ⟨before.options.override after.options, command⟩
      | none => .error .usage

/-! ## Running -/

/-- The line of an error with those below it. -/
def errorLine (subject message : String) (causes : List String) : String :=
  "error: " ++ ": ".intercalate (subject :: message :: causes)

def failed (line : String) (events : List Event) : RunResult := ⟨1, "", some line, events⟩

def succeeded (output : String) (events : List Event) : RunResult := ⟨0, output, none, events⟩

/-- The settings document to read, if any: the one that is named, or else the usual one where
it is there. -/
def configPath? (run : Invocation) (usual : Bool) : Option String :=
  run.options.config <|> if usual then some defaultConfig else none

/-- The settings of a run, whose options override the document. -/
def settings (run : Invocation) (document : Option (String × Except FileFault Image)) :
    Except String Settings := do
  let base ←
    match document with
    | none => .ok Settings.standard
    | some (path, file) =>
      (Settings.ofFile path file).mapError fun e =>
        errorLine ("loading " ++ path) e.message e.causes
  let settings : Settings :=
    { base with
      device := run.options.device.getD base.device
      format := base.format || run.options.format || run.command = .format
      directIo := base.directIo || run.options.directIo }
  if settings.device.isEmpty then
    .error
      ("error: no device configured (pass --device or set `device` in " ++ defaultConfig ++ ")")
  else .ok settings

def formattedText (stats : Stats) : String :=
  "formatted " ++ stats.device ++ " (" ++ stats.deviceBlocks.repr ++ " blocks, generation " ++
    stats.generation.repr ++ ")\n"

/-- Carries out a command on an open store, with the buffers that it stores. -/
def execute (store : Store) (events : List Event) : Command → RunResult × List Buffer
  | .format => (succeeded (formattedText store.stats) events, [])
  | .inspect json =>
    (succeeded (if json then store.stats.json ++ "\n" else store.stats.text) events, [])
  | .request request =>
    let step := Store.serve request store
    let events := events ++ request.within step.notices step.result
    match step.result with
    | .ok reply => (succeeded (reply.text ++ "\n") events, step.writes)
    | .error refusal =>
      (failed ("error: " ++ refusal.status.text ++ ": " ++ refusal.message) events, step.writes)

/-- Opens the device and carries out the command, with the buffers that are stored. -/
def runWith (command : Command) (settings : Settings) (file : Except FileFault Image) :
    RunResult × List Buffer :=
  let opening := Store.openFile settings file ()
  let events := opening.notices.map fun notice => ⟨notice, []⟩
  match opening.result with
  | .error e =>
    (failed (errorLine ("opening " ++ settings.device) e.message e.causes) events, opening.writes)
  | .ok store =>
    let (result, writes) := execute store events command
    (result, opening.writes ++ writes)

/-- A run that never comes to a command. -/
def halted : Halt → RunResult
  | .usage => ⟨2, "", none, []⟩
  | .help => succeeded helpText []
  | .version => succeeded versionText []

/-- A run in a directory, and the directory after it. -/
def runIn (dir : Directory) (args : List String) : RunResult × Directory :=
  match parse args with
  | .error halt => (halted halt, dir)
  | .ok run =>
    let path? := run.configPath? (dir.find? defaultConfig).isSome
    match run.settings (path?.map fun path => (path, dir.read path)) with
    | .error line => (failed line [], dir)
    | .ok settings =>
      let (result, writes) := runWith run.command settings (dir.read settings.device)
      (result, dir.storeAll settings.device writes)

end Invocation

end DurableGraph
