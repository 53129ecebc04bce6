import Anettrace.Lists.Operations

/-!
# The generated catalogue

What `gen_trace.py` makes of the groups and traces of `trace.yaml`, after `parse_group`: the
variables that the generated C file defines, and the statements of its `init_trace_group`, which put
them on lists. The same trace may stand in several groups. The fields of the variables and the
probes of the BPF programs are left out, and names are lists of characters.
-/

namespace Anettrace.GenTrace

open Library
open Library.Cycles
open Anettrace.Lists

/-- A name, as Python and C have it. -/
abbrev Name := List Char

/-- The children of a group, in their order. A trace is known by its object, which other groups may
have too. -/
inductive Forest (ι : Type) where
  | nil
  | group (name : Name) (children rest : Forest ι)
  | trace (object : ι) (rest : Forest ι)

/-- What is read of a trace: its name, how many rules it has, and its backup. -/
structure YamlTrace (ι : Type) where
  name : Name
  rules : Nat
  backup : Option ι

/-- A variable of the generated file. -/
inductive Definition where
  | group (name : Name)
  | trace (name : Name)
  | traceList (name : Name) (copy : Nat)
  | rule (name : Name) (index : Nat)
  deriving DecidableEq, Repr

/-- A `list_head` of the generated file; `null` is no address. -/
inductive Address where
  | null
  | groupList (name : Name)
  | groupChildren (name : Name)
  | groupTraces (name : Name)
  | traceAll (name : Name)
  | traceRules (name : Name)
  | traceListList (name : Name) (copy : Nat)
  | ruleList (name : Name) (index : Nat)
  | traceList
  deriving DecidableEq, Repr

/-- A statement of `init_trace_group`. -/
inductive Statement where
  | listAddTail (new head : Address)
  | allTraces (index : Nat) (name : Name)
  | backup (name : Name) (value : Option Name)
  deriving DecidableEq, Repr

/-- `define_str` and `init_str`. -/
structure Output where
  defines : List Definition
  init : List Statement

def Output.append (first second : Output) : Output :=
  ⟨first.defines ++ second.defines, first.init ++ second.init⟩

/-- `global_names` and `trace_index`, and the `define_name` and `list_count` of each trace. -/
structure GenState (ι : Type) where
  globalNames : Keyed Name Nat
  traceIndex : Nat
  defineName : ι → Option Name
  listCount : ι → Nat

/-- The state before `gen_group(root, root)`. -/
def GenState.start (ι : Type) : GenState ι :=
  ⟨Keyed.empty, 1, fun _ => none, fun _ => 1⟩

variable {ι : Type} [DecidableEq ι]

/-- `name.replace('-', '_')` -/
def underscored (name : Name) : Name :=
  name.map fun char => if char = '-' then '_' else char

def countName (name : Name) (state : GenState ι) : Name × GenState ι :=
  match state.globalNames name with
  | some count =>
      (name ++ '_' :: Nat.toDigits 10 (count + 1),
        { state with globalNames := state.globalNames.put name (count + 1) })
  | none => (name, { state with globalNames := state.globalNames.put name 0 })

def genTraceName (name : Name) (state : GenState ι) : Name × GenState ι :=
  countName (underscored name) state

def genGroupName (name : Name) (state : GenState ι) : Name × GenState ι :=
  countName (underscored (['g', 'r', 'o', 'u', 'p', '_'] ++ name)) state

def genTraceList (object : ι) (name parent : Name) (state : GenState ι) : GenState ι × Output :=
  let count := state.listCount object + 1
  ({ state with listCount := Function.update state.listCount object count },
    ⟨[.traceList name count], [.listAddTail (.traceListList name count) (.groupTraces parent)]⟩)

def genRules (name : Name) (rules : Nat) : Output :=
  ⟨(List.range rules).map (.rule name),
    (List.range rules).map fun index => .listAddTail (.ruleList name index) (.traceRules name)⟩

def genTraceDefine (name parent : Name) (rules index : Nat) : Output :=
  ⟨[.trace name, .traceList name 1] ++ (genRules name rules).defines,
    (genRules name rules).init ++
      [.listAddTail (.traceListList name 1) (.groupTraces parent), .allTraces index name,
        .listAddTail (.traceAll name) .traceList]⟩

def genTrace (traces : ι → YamlTrace ι) (object : ι) (parent : Name) (state : GenState ι) :
    GenState ι × Output :=
  match state.defineName object with
  | some name => genTraceList object name parent state
  | none =>
      let (name, named) := genTraceName (traces object).name state
      ({ named with
          traceIndex := named.traceIndex + 1
          defineName := Function.update named.defineName object (some name) },
        genTraceDefine name parent (traces object).rules named.traceIndex)

/-- The variable that is the backup of a trace. A backup without a definition is a `KeyError`. -/
def backupName (traces : ι → YamlTrace ι) (state : GenState ι) (object : ι) :
    Option (Option Name) :=
  match (traces object).backup with
  | none => some none
  | some backup => (state.defineName backup).map some

/-- The second loop of `gen_group`. -/
def genBackups (traces : ι → YamlTrace ι) (state : GenState ι) : Forest ι → Option (List Statement)
  | .nil => some []
  | .group _ _ rest => genBackups traces state rest
  | .trace object rest => do
      let name ← state.defineName object
      let value ← backupName traces state object
      let later ← genBackups traces state rest
      some (.backup name value :: later)

def genChildren (traces : ι → YamlTrace ι) (parent : Name) :
    Forest ι → GenState ι → Option (GenState ι × Output)
  | .nil, state => some (state, ⟨[], []⟩)
  | .group name children rest, state => do
      let named := genGroupName name state
      let inner ← genChildren traces named.1 children named.2
      let backups ← genBackups traces inner.1 children
      let later ← genChildren traces parent rest inner.1
      some (later.1,
        Output.append
          ⟨[.group named.1], [.listAddTail (.groupList named.1) (.groupChildren parent)]⟩
          (Output.append (inner.2.append ⟨[], backups⟩) later.2))
  | .trace object rest, state => do
      let own := genTrace traces object parent state
      let later ← genChildren traces parent rest own.1
      some (later.1, own.2.append later.2)

def rootGroup : Name := ['r', 'o', 'o', 't', '_', 'g', 'r', 'o', 'u', 'p']

def genGroup (traces : ι → YamlTrace ι) (root : Forest ι) : Option (GenState ι × Output) := do
  let inner ← genChildren traces rootGroup root (GenState.start ι)
  let backups ← genBackups traces inner.1 root
  some (inner.1, Output.append ⟨[.group rootGroup], []⟩ (inner.2.append ⟨[], backups⟩))

/-! ## The generated program -/

/-- The `list_head`s that the definitions initialise: `LIST_HEAD_INIT`, and `LIST_HEAD(trace_list)`.
The others are zero. -/
def Address.initialised : Address → Bool
  | .null | .traceAll _ | .ruleList _ _ => false
  | _ => true

/-- The memory of the program before `init_trace_group`. -/
def staticLinks : Links Address where
  next place := if place.initialised then place else .null
  prev place := if place.initialised then place else .null

/-- The variables that `init_trace_group` writes. -/
structure Program where
  links : Links Address
  allTraces : Nat → Option Name
  backups : Name → Option Name

/-- The variables before it. -/
def Program.start : Program :=
  ⟨staticLinks, fun _ => none, fun _ => none⟩

def Program.execute (program : Program) : Statement → Program
  | .listAddTail new head => { program with links := listAddTail new head program.links }
  | .allTraces index name =>
      { program with allTraces := Function.update program.allTraces index (some name) }
  | .backup name value => { program with backups := Function.update program.backups name value }

def initTraceGroup (output : Output) : Program :=
  output.init.foldl Program.execute Program.start

end Anettrace.GenTrace
