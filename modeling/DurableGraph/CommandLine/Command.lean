import DurableGraph.Graph.Request

/-!
# Commands

A sub-command of the command line with its arguments: options, which may stand anywhere, and
the nodes that it asks for.  Behind `--` everything is a node.  Arguments are judged in their
order, so the first one that is wrong, or asks for help, decides.

    Command.parse ["add-node", "1"] = some (.request (.mutation (.addNode 1)))
-/

namespace DurableGraph

inductive Command where
  | format
  | inspect (json : Bool)
  | request (request : Request)
  deriving DecidableEq, Repr

/-! ## Nodes -/

/-- The number written in decimal digits, added on to `value`. -/
def decimal? (value : Nat) : List Char → Option Nat
  | [] => some value
  | c :: rest => if c.isDigit then decimal? (10 * value + (c.toNat - 48)) rest else none

/-- A node as it is written: decimal digits behind an optional plus sign. -/
def nodeId? (text : String) : Option NodeId :=
  let digits :=
    match text.toList with
    | '+' :: rest => rest
    | cs => cs
  if digits.isEmpty then none
  else (decimal? 0 digits).bind fun n => if n < UInt64.size then some n.toUInt64 else none

/-! ## Sub-commands -/

/-- What a sub-command asks for, and what it does. -/
inductive SubCommand where
  | alone (command : Command)
  | inspection
  | ofNode (request : NodeId → Request)
  | ofEnds (request : NodeId → NodeId → Request)

namespace SubCommand

def ofName? : String → Option SubCommand
  | "format" => some (.alone .format)
  | "add-node" => some (.ofNode fun id => .mutation (.addNode id))
  | "remove-node" => some (.ofNode fun id => .mutation (.removeNode id))
  | "node" => some (.ofNode fun id => .query (.node id))
  | "add-edge" => some (.ofEnds fun a b => .mutation (.addEdge a b))
  | "remove-edge" => some (.ofEnds fun a b => .mutation (.removeEdge a b))
  | "edge" => some (.ofEnds fun a b => .query (.edge a b))
  | "neighbors" => some (.ofNode fun id => .query (.neighbors id))
  | "shortest-path" => some (.ofEnds fun a b => .query (.shortestPath a b))
  | "checkpoint" => some (.alone (.request .checkpoint))
  | "inspect" => some .inspection
  | _ => none

/-- The number of nodes that a sub-command asks for. -/
def nodeCount : SubCommand → Nat
  | alone _ | inspection => 0
  | ofNode _ => 1
  | ofEnds _ => 2

/-- The command for as many nodes as the sub-command asks for. -/
def command? (sub : SubCommand) (json : Bool) (nodes : List NodeId) : Option Command :=
  match sub, nodes with
  | alone command, [] => some command
  | inspection, [] => some (.inspect json)
  | ofNode request, [id] => some (.request (request id))
  | ofEnds request, [a, b] => some (.request (request a b))
  | _, _ => none

/-- A sub-command gives a command for its own number of nodes and no other. -/
theorem command?_isSome_iff (sub : SubCommand) (json : Bool) (nodes : List NodeId) :
    (sub.command? json nodes).isSome ↔ nodes.length = sub.nodeCount := by
  cases sub <;> rcases nodes with _ | ⟨a, _ | ⟨b, _ | ⟨c, rest⟩⟩⟩ <;> simp [command?, nodeCount]

end SubCommand

/-! ## Options -/

/-- The options that stand before or after the name of a sub-command. -/
structure Options where
  config : Option String
  device : Option String
  format : Bool
  directIo : Bool
  deriving DecidableEq, Repr

/-- What an argument list holds. -/
structure Arguments where
  options : Options
  json : Bool
  nodes : List NodeId
  deriving DecidableEq, Repr

/-- Why a command line asks for nothing to be run. -/
inductive Halt where
  | usage
  | help
  | version
  deriving DecidableEq, Repr

/-- What is known at some place of the command line: options, and a number of nodes. -/
structure Known where
  globals : Bool
  json : Bool
  version : Bool
  nodeCount : Nat

def Options.unset : Options := ⟨none, none, false, false⟩

def Arguments.unset : Arguments := ⟨.unset, false, []⟩

/-- What is known behind the name of a sub-command. -/
def SubCommand.known (sub : SubCommand) (globals : Bool) : Known where
  globals := globals
  json := sub matches inspection
  version := false
  nodeCount := sub.nodeCount

/-- A single dash is no option. -/
def isOption (arg : String) : Bool := arg.startsWith "-" && arg ≠ "-"

/-- The name of an option, and the value that is joined to it.  Behind one dash only the first
letter counts, since the options of one letter end the reading. -/
def splitOption (arg : String) : String × Option String :=
  match arg.toList with
  | '-' :: '-' :: rest =>
    match rest.span (· ≠ '=') with
    | (name, _ :: value) => (String.ofList ('-' :: '-' :: name), some (String.ofList value))
    | (name, []) => (String.ofList ('-' :: '-' :: name), none)
  | cs => (String.ofList (cs.take 2), none)

namespace Arguments

/-- An option that has a value: not empty, and given once. -/
def setValue (known : Known) (args : Arguments) (name value : String) : Except Halt Arguments :=
  if !known.globals || value.isEmpty then .error .usage
  else
    match name with
    | "--config" =>
      if args.options.config.isSome then .error .usage
      else .ok { args with options.config := some value }
    | "--device" =>
      if args.options.device.isSome then .error .usage
      else .ok { args with options.device := some value }
    | _ => .error .usage

/-- An option without a value, given once. -/
def setFlag (known : Known) (args : Arguments) (name : String) : Except Halt Arguments :=
  match name with
  | "--help" | "-h" => .error .help
  | "--version" | "-V" => .error (if known.version then .version else .usage)
  | "--json" =>
    if !known.json || args.json then .error .usage else .ok { args with json := true }
  | "--format" =>
    if !known.globals || args.options.format then .error .usage
    else .ok { args with options.format := true }
  | "--direct-io" =>
    if !known.globals || args.options.directIo then .error .usage
    else .ok { args with options.directIo := true }
  | _ => .error .usage

/-- One more node, where the sub-command asks for one. -/
def addNode (known : Known) (args : Arguments) (word : String) : Except Halt Arguments :=
  match nodeId? word with
  | some id =>
    if args.nodes.length < known.nodeCount then .ok { args with nodes := args.nodes ++ [id] }
    else .error .usage
  | none => .error .usage

/-- Reads options up to the first word, which is left with what follows it. -/
def readOptions (known : Known) (args : Arguments) :
    List String → Except Halt (Arguments × List String)
  | [] => .ok (args, [])
  | arg :: rest =>
    if !isOption arg || arg = "--" then .ok (args, arg :: rest)
    else
      match splitOption arg with
      | (name, some value) => do readOptions known (← args.setValue known name value) rest
      | (name, none) =>
        if name = "--config" ∨ name = "--device" then
          match rest with
          | value :: rest =>
            if isOption value then .error .usage
            else do readOptions known (← args.setValue known name value) rest
          | [] => .error .usage
        else do readOptions known (← args.setFlag known name) rest

theorem length_readOptions {known : Known} {args args' : Arguments} {list rest : List String}
    (h : readOptions known args list = .ok (args', rest)) : rest.length ≤ list.length := by
  fun_induction readOptions known args list with
  | case1 => simp_all
  | case2 => simp_all
  | case3 | case5 | case7 =>
    rename_i ih
    simp only [bind, Except.bind] at h
    split at h
    · simp at h
    · have := ih _ h; simp only [List.length_cons]; omega
  | case4 => simp at h
  | case6 => simp at h

/-- Reads options and nodes. -/
def read (known : Known) (args : Arguments) (list : List String) : Except Halt Arguments :=
  match _h : readOptions known args list with
  | .error halt => .error halt
  | .ok (args, []) => .ok args
  | .ok (args, word :: rest) =>
    if word = "--" then rest.foldlM (addNode known) args
    else
      match args.addNode known word with
      | .ok args => read known args rest
      | .error halt => .error halt
termination_by list.length
decreasing_by
  have := length_readOptions _h
  simp only [List.length_cons] at this
  omega

end Arguments

/-! ## Commands -/

namespace Command

/-- What a command asks of a graph; the other commands are about the store itself. -/
def graphRequest : Command → Except Refusal Request
  | .request asked => .ok asked
  | .format | .inspect _ => .error (.invalid "not a graph command")

/-- A sub-command that is given alone, without the options of the program. -/
def parse : List String → Option Command
  | [] => none
  | name :: rest => do
    let sub ← SubCommand.ofName? name
    match Arguments.read (sub.known false) .unset rest with
    | .ok args => sub.command? args.json args.nodes
    | .error _ => none

end Command

end DurableGraph
