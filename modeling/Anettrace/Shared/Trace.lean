import Anettrace.Shared.Event

/-!
# Traced functions and the arguments of a capture

What user space looks up about a probe, after `src/trace.h`, and the command line settings the
exporter reads.
-/

namespace Anettrace

/-- `trace_t`: the name of the traced function, whether its probe observes a socket
(`trace_using_sk`), its `drop` and `free` analyzers, and the `TRACE_CFREE` bit of its status. -/
structure Trace where
  name : String
  usingSk : Bool
  drop : Bool
  free : Bool
  cfree : Bool
  deriving DecidableEq, Repr

/-- The parts of `trace_ctx` the exporter reads: `getTrace` is `get_trace`, `perfetto` to `uid` are
`bpf_args`, and the others are `args`. -/
structure TraceContext where
  getTrace : UInt16 → Option Trace
  perfetto : Bool
  rxContext : Bool
  uidEnabled : Bool
  pid : UInt32
  uid : UInt32
  traceDetail : Bool
  traceTags : Bool
  connectDiagnostics : Bool

end Anettrace
