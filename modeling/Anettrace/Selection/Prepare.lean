import Anettrace.Symbols.Search
import Anettrace.Selection.Arguments

/-!
# The preparation of the traces

`trace_prepare` of `src/trace.c`: the chosen traces are looked up in the kernel, those that it does
not have are made invalid, and of several traces for one function only the first valid one stays.
-/

namespace Anettrace.Selection

open Symbols

/-- `sizeof(trace->name)`. -/
def nameSize : Nat := 64

/-- What `trace_resolve_symbol` makes of the result of its searches. -/
def Trace.resolveAs (found : SymStatus × Option (List UInt8)) (manual : Bool) (trace : Trace) :
    Except PrepareError Trace :=
  match found.1 with
  | .ambiguous =>
      if trace.explicit then .error .addressNotAvailable
      else .ok ({ trace with symbolAmbiguous := true }.setInvalidReason "ambiguous symbol")
  | .notExist =>
      if trace.explicit then .error .notFound else .ok (trace.setInvalidReason "not found")
  | .kernel | .module =>
      .ok { trace with name := found.2.getD [], attachManual := trace.attachManual || manual }

/-- `trace_resolve_symbol`: the function of that name, or else that name with a suffix. -/
def traceResolveSymbol (kallsyms : List UInt8) (trace : Trace) : Except PrepareError Trace :=
  let exact := symSearchUnique kallsyms (some trace.name) (some nameSize) false
  if exact.1 = .notExist then
    let pattern := (trace.name ++ [0x2e]).take (nameSize + 1)
    trace.resolveAs (symSearchUnique kallsyms (some pattern) (some nameSize) true) true
  else trace.resolveAs exact false

/-- The body of the loop of `trace_prepare_traces`. -/
def prepareTrace (kernel : Kernel) (trace : Trace) : Except PrepareError Trace :=
  if trace.isInvalid || !trace.enable then .ok trace
  else if !trace.isFunc then
    .ok (if kernel.tracepoint trace.tp then trace else trace.setInvalidReason "tp not found")
  else traceResolveSymbol kernel.kallsyms trace

def traceExecCond (kernel : Kernel) (trace : Trace) : Trace :=
  if trace.cond.all kernel.condition then trace else trace.setInvalidReason "cond"

def tracePrepareStatus (mode : TraceMode) (trace : Trace) : Trace :=
  let freeing := trace.analyzer = .free || trace.analyzer = .drop
  let bySock := (trace.skb = 0 || mode = .sock || mode = .rtt) && trace.sk ≠ 0
  { trace with func := { trace.func with
      free := trace.func.free || freeing
      sk := trace.func.sk || bySock } }

/-- `tracing_ops` and `probe_ops`. -/
inductive TraceOps where
  | tracing
  | probe
  deriving DecidableEq, Repr

/-- The first ops that say `trace_supported`. -/
def chooseOps (kernel : Kernel) (mode : TraceMode) : TraceOps :=
  if mode = .monitor && kernel.trampolines then .tracing else .probe

def probeCheckMonitor (mode : TraceMode) (trace : Trace) : Trace :=
  if mode = .monitor && trace.isFunc && !trace.isInvalid && trace.monitor = 1 then
    trace.setInvalidReason "monitor"
  else trace

/-- The traces of the life of packets, in a mode that follows packets. -/
def enableLife (mode : TraceMode) (catalogue : Catalogue) : Catalogue :=
  if mode.bpfContext then (catalogue.traceGroupEnable (literal "life") .enable).getD catalogue
  else catalogue

def tracePrepareTraces (kernel : Kernel) (ops : TraceOps) (ctx : Context) :
    Except PrepareError Context := do
  refuse (!kernel.tracefs) .notFound
  let tested := (ctx.mark (enableLife ctx.mode)).mark (·.each (traceExecCond kernel))
  let traces ← tested.traces.mapM (prepareTrace kernel)
  let found := tested.mark fun catalogue => { catalogue with traces := traces }
  let settled := found.mark (·.each (tracePrepareStatus ctx.mode))
  return if ops = .probe then settled.mark (·.each (probeCheckMonitor ctx.mode)) else settled

def probeTraceFeatProbe (kernel : Kernel) (trace : Trace) : Trace :=
  if trace.probe && trace.isUsable && !kernel.loads trace.define then trace.setInvalidReason ""
  else trace

/-! ## Backups -/

def Catalogue.find (catalogue : Catalogue) (define : String) : Option Trace :=
  catalogue.traces.find? (·.define = define)

def Catalogue.chain (catalogue : Catalogue) : Nat → String → List String
  | 0, _ => []
  | fuel + 1, define =>
      define :: match (catalogue.find define).bind Trace.backup with
        | none => []
        | some next => catalogue.chain fuel next

/-- The inner loop of `trace_prepare_backup`. -/
def Catalogue.keepFirst (catalogue : Catalogue) (hitted : Bool) : List String → Catalogue
  | [] => catalogue
  | define :: rest =>
      if hitted then (catalogue.on [define] (Trace.setInvalidReason "backup")).keepFirst true rest
      else catalogue.keepFirst ((catalogue.find define).any (!·.isInvalid)) rest

/-- An enabled leader of a chain of backups. -/
def Trace.leads (trace : Trace) : Bool :=
  !trace.isBackup && trace.backup.isSome && trace.enable

/-- The body of the outer loop. -/
def Catalogue.prepareChain (catalogue : Catalogue) (define : String) : Catalogue :=
  if (catalogue.find define).any Trace.leads then
    catalogue.keepFirst false (catalogue.chain catalogue.traces.length define)
  else catalogue

def tracePrepareBackup (catalogue : Catalogue) : Catalogue :=
  (catalogue.traces.map Trace.define).foldl Catalogue.prepareChain catalogue

/-! ## `trace_prepare` -/

/-- `trace_validate_connect_required`, whether it finds all traces. -/
def validateConnectRequired (ctx : Context) : Bool :=
  !ctx.args.connectDiagnostics || ctx.traces.all fun trace =>
    !trace.connectRequired || trace.isUsable

/-- `trace_validate_wakeup_required`, whether it finds all traces. -/
def validateWakeupRequired (ctx : Context) : Bool :=
  !ctx.bpf.wakeupChain ||
    (schedTraces ++ syscallTraces).all fun define => (ctx.catalogue.find define).any Trace.isUsable

/-- What `trace_prepare` ends with: it returns, or shows the traces and exits. -/
inductive Preparation where
  | ready (ops : TraceOps) (ctx : Context)
  | shown (ctx : Context)

def traceFeatProbe (kernel : Kernel) (ops : TraceOps) (catalogue : Catalogue) : Catalogue :=
  if ops = .probe then catalogue.each (probeTraceFeatProbe kernel) else catalogue

/-- `trace_prepare`, in a program that uses BTF. -/
def tracePrepare (kernel : Kernel) (ctx : Context) : Except PrepareError Preparation := do
  refuse (!kernel.btf && !ctx.args.btfPath) .notSupported
  let prepared ← tracePrepareArgs kernel ctx
  let ops := chooseOps kernel prepared.mode
  let found ← tracePrepareTraces kernel ops prepared
  refuse (!kernel.root) .notPermitted
  let probed := found.mark (traceFeatProbe kernel ops)
  let finished := probed.mark tracePrepareBackup
  refuse (!validateConnectRequired finished || !validateWakeupRequired finished) .notSupported
  return if finished.args.showTraces then .shown finished else .ready ops finished

end Anettrace.Selection
