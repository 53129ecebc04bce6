import Anettrace.Filter.Model

/-!
# The catalogue of traces

The traces of `src/trace.h` and their groups, as `gen_trace.py` writes them from `trace.yaml`, and
the functions of `src/trace.c` that mark them. A trace is known by its name in C, without `trace_`;
another name is that of the kernel function, which several traces may share and the symbol table may
change.
-/

namespace Anettrace.Selection

/-- The bytes of a literal. -/
def literal (text : String) : List UInt8 :=
  text.toUTF8.data.toList

/-- `enum trace_type`. -/
inductive TraceType where
  | function
  | tp
  deriving DecidableEq, Repr

/-- `trace_mode_t`. -/
inductive TraceMode where
  | basic | drop | timeline | diag | sock | monitor | rtt | latency
  deriving DecidableEq, Repr

/-- The place of a mode in `enum trace_mode`. -/
def TraceMode.index : TraceMode → Nat
  | .basic => 0
  | .drop => 1
  | .timeline => 2
  | .diag => 3
  | .sock => 4
  | .monitor => 5
  | .rtt => 6
  | .latency => 7

/-- `TRACE_MODE_BPF_CTX_MASK`. -/
def TraceMode.bpfContext : TraceMode → Bool
  | .diag | .timeline | .latency => true
  | _ => false

/-- `TRACE_MODE_CTX_MASK`. -/
def TraceMode.context : TraceMode → Bool
  | .diag | .timeline => true
  | _ => false

def TraceMode.requiresSkb : TraceMode → Bool
  | .basic | .timeline | .diag | .drop | .rtt | .latency => true
  | _ => false

def TraceMode.requiresSock : TraceMode → Bool
  | .sock => true
  | _ => false

/-- The analyzers that `trace.yaml` names. -/
inductive Analyzer where
  | default | ret | free | drop | clone | reset | nf | iptable | qdisc | rtt
  deriving DecidableEq, Repr

/-- The bits `FUNC_STATUS_*` of `trace_status` at the index of a trace. -/
structure FuncStatus where
  free : Bool := false
  sk : Bool := false
  rx : Bool := false
  matcher : Bool := false
  stack : Bool := false
  ret : Bool := false
  cfree : Bool := false
  tx : Bool := false
  deriving DecidableEq, Repr

/-- `trace_t`. The bits of `status` are fields of their own. `invalid` keeps what the log says of a
trace that is made invalid. -/
structure Trace where
  define : String
  name : List UInt8
  type : TraceType
  cond : Option (List UInt8)
  tp : List UInt8
  skb : UInt8
  sk : UInt8
  analyzer : Analyzer
  backup : Option String
  isBackup : Bool
  probe : Bool
  «def» : Bool
  connectRequired : Bool
  monitor : Nat
  enable : Bool := false
  invalid : List String := []
  ret : Bool := false
  stack : Bool := false
  attachManual : Bool := false
  retOnly : Bool := false
  cfree : Bool := false
  explicit : Bool := false
  symbolAmbiguous : Bool := false
  func : FuncStatus := {}
  deriving DecidableEq, Repr

namespace Trace

def isInvalid (trace : Trace) : Bool :=
  trace.invalid ≠ []

def isUsable (trace : Trace) : Bool :=
  trace.enable && !trace.isInvalid

def isFunc (trace : Trace) : Bool :=
  trace.type = .function

def setEnable (trace : Trace) : Trace :=
  { trace with enable := true }

def setInvalidReason (reason : String) (trace : Trace) : Trace :=
  { trace with invalid := trace.invalid ++ [reason] }

def setRet (trace : Trace) : Trace :=
  { trace with ret := true, func := { trace.func with ret := true } }

/-- `FUNC_STATUS_RX`. -/
def setRx (trace : Trace) : Trace :=
  { trace with func := { trace.func with rx := true } }

/-- `FUNC_STATUS_TX`. -/
def setTx (trace : Trace) : Trace :=
  { trace with func := { trace.func with tx := true } }

/-- `trace_set_stack`, without the flag of the whole program. -/
def setStack (trace : Trace) : Trace :=
  { trace with stack := true, func := { trace.func with stack := true } }

end Trace

/-- The target of `trace_set_target`. -/
inductive Target where
  | enable | stack | matcher | exclude | cfree
  deriving DecidableEq, Repr

def Trace.setTarget (target : Target) (trace : Trace) : Trace :=
  match target with
  | .enable => trace.setEnable
  | .stack => trace.setStack
  | .matcher => { trace with func := { trace.func with matcher := true } }
  | .exclude => trace.setInvalidReason "exclude"
  | .cfree => { trace with cfree := true, func := { trace.func with cfree := true } }

def Trace.setExplicit (target : Target) (trace : Trace) : Trace :=
  if target = .exclude then trace else { trace with explicit := true }

/-- `trace_group_t`, with the traces of `trace_list_t`. -/
inductive TraceGroup where
  | mk (name : List UInt8) (children : List TraceGroup) (traces : List String)
  deriving Repr

mutual

def TraceGroup.search (name : List UInt8) : TraceGroup → Option TraceGroup
  | .mk own children traces =>
      if own = name then some (.mk own children traces) else TraceGroup.searchAll name children

/-- The first group of that name among several and those below them. -/
def TraceGroup.searchAll (name : List UInt8) : List TraceGroup → Option TraceGroup
  | [] => none
  | group :: rest => (group.search name).or (TraceGroup.searchAll name rest)

end

mutual

/-- The traces that `__trace_group_enable` marks. -/
def TraceGroup.members : TraceGroup → List String
  | .mk _ children traces => TraceGroup.membersAll children ++ traces

/-- The members of several groups and of those below them. -/
def TraceGroup.membersAll : List TraceGroup → List String
  | [] => []
  | group :: rest => group.members ++ TraceGroup.membersAll rest

end

/-- What `trace_parse_traces` and its like work on: the groups, the list of all traces, and whether
any trace prints its stack. -/
structure Catalogue where
  root : TraceGroup
  traces : List Trace
  stack : Bool := false
  deriving Repr

namespace Catalogue

def each (catalogue : Catalogue) (mark : Trace → Trace) : Catalogue :=
  { catalogue with traces := catalogue.traces.map mark }

/-- Marks the traces of some names in C. -/
def on (catalogue : Catalogue) (defines : List String) (mark : Trace → Trace) : Catalogue :=
  catalogue.each fun trace => if trace.define ∈ defines then mark trace else trace

def setTarget (catalogue : Catalogue) (target : Target) (chosen : Trace → Bool) : Catalogue :=
  { catalogue.each fun trace => if chosen trace then trace.setTarget target else trace with
    stack := catalogue.stack || (target = .stack && catalogue.traces.any chosen) }

def traceEnable (catalogue : Catalogue) (name : List UInt8) (target : Target) : Option Catalogue :=
  if catalogue.traces.any fun trace => trace.name = name then
    some <| (catalogue.each fun trace =>
      if trace.name = name then trace.setExplicit target else trace).setTarget target
        fun trace => trace.name = name
  else none

def traceGroupEnable (catalogue : Catalogue) (name : List UInt8) (target : Target) :
    Option Catalogue :=
  match catalogue.root.search name with
  | none => catalogue.traceEnable name target
  | some group => some (catalogue.setTarget target fun trace => trace.define ∈ group.members)

/-- The loop of `trace_parse_traces`, which ends at a name that is not found. -/
def parseNames (catalogue : Catalogue) (target : Target) : List (List UInt8) → Catalogue
  | [] => catalogue
  | name :: rest =>
      match catalogue.traceGroupEnable name target with
      | none => catalogue
      | some marked => marked.parseNames target rest

end Catalogue

/-- The pieces that `strtok` finds between commas. -/
def strtok (text : List UInt8) : List (List UInt8) :=
  (text.splitOn 0x2c).filter (· ≠ [])

/-- `trace_parse_traces`; its callers ignore that a name is not found. -/
def Catalogue.traceParseTraces (catalogue : Catalogue) (traces : Option (List UInt8))
    (target : Target) :
    Catalogue :=
  match traces with
  | none => catalogue
  | some text => catalogue.parseNames target (strtok text)

end Anettrace.Selection
