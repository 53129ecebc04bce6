import Anettrace.Selection.Catalogue

/-!
# The arguments of a trace

`trace_prepare_args` of `src/trace.c`: the mode of a trace, the traces that the arguments choose,
and the arguments of the BPF programs. Messages and the texts of the drop and reset reasons are left
out.
-/

namespace Anettrace.Selection

open Anettrace.Filter (PktArgs)

/-- `trace_args_t`, what `trace_prepare` looks at. -/
structure TraceArgs where
  ret : Bool := false
  intel : Bool := false
  basic : Bool := false
  traffic : Bool := false
  monitor : Bool := false
  drop : Bool := false
  dropStack : Bool := false
  showTraces : Bool := false
  sock : Bool := false
  netnsCurrent : Bool := false
  force : Bool := false
  latencyShow : Bool := false
  rtt : Bool := false
  rttDetail : Bool := false
  latency : Bool := false
  tracesNoclone : Bool := false
  minLatency : UInt32 := 0
  traces : Option (List UInt8) := none
  tracesStack : Option (List UInt8) := none
  traceMatcher : Option (List UInt8) := none
  traceExclude : Option (List UInt8) := none
  traceFree : Option (List UInt8) := none
  pktLen : Option (List UInt8) := none
  tcpFlags : Option (List UInt8) := none
  perfettoEvents : Bool := false
  captureTrace : Bool := false
  traceDetail : Bool := false
  connectDiagnostics : Bool := false
  count : UInt32 := 0
  btfPath : Bool := false
  deriving DecidableEq, Repr

/-- `bpf_args_t`, what `trace_prepare` looks at or sets. -/
structure BpfArgs where
  pkt : PktArgs := .zero
  pid : UInt32 := 0
  uid : UInt32 := 0
  uidEnabled : Bool := false
  netns : UInt32 := 0
  firstRtt : UInt32 := 0
  lastRtt : UInt32 := 0
  latencyMin : UInt32 := 0
  rateLimit : Int32 := 0
  rateLimitBudget : Int32 := 0
  maxEvent : UInt32 := 0
  traceMode : Option TraceMode := none
  detail : Bool := false
  perfetto : Bool := false
  wakeupChain : Bool := false
  latencySummary : Bool := false
  latencyFree : Bool := false
  matchMode : Bool := false
  dropReason : Bool := false
  hasFilter : Bool := false
  networkSocketFilter : Bool := false

/-- What `trace_prepare` asks of the system. -/
structure Kernel where
  /-- `/sys/kernel/btf/vmlinux` exists. -/
  btf : Bool
  /-- `get_tracing_path` finds a directory. -/
  tracefs : Bool
  /-- The kernel names the reasons of drops. -/
  dropReason : Bool
  /-- The kernel names the reasons of resets. -/
  resetReason : Bool
  /-- The inode of the network namespace. -/
  netns : UInt32
  /-- A shell condition succeeds. -/
  condition : List UInt8 → Bool
  /-- A tracepoint has a directory under `events`. -/
  tracepoint : List UInt8 → Bool
  kallsyms : List UInt8
  /-- The kernel has tracing programs and trampolines. -/
  trampolines : Bool
  /-- The effective user is root. -/
  root : Bool
  /-- The program of a trace passes the verifier on its own. -/
  loads : String → Bool

/-- `trace_ctx`, with the catalogue. -/
structure Context where
  args : TraceArgs
  bpf : BpfArgs
  mode : TraceMode
  catalogue : Catalogue
  dropReason : Bool := false
  resetReason : Bool := false
  detail : Bool := false
  skipLast : Bool := false

abbrev Context.traces (ctx : Context) : List Trace :=
  ctx.catalogue.traces

def Context.mark (ctx : Context) (change : Catalogue → Catalogue) : Context :=
  { ctx with catalogue := change ctx.catalogue }

/-- The errors of `trace_prepare`. -/
inductive PrepareError where
  /-- `-1` and `-EINVAL`, where an argument is not accepted. -/
  | invalid
  | notSupported
  | notFound
  | addressNotAvailable
  | notPermitted
  deriving DecidableEq, Repr

/-! ## Names -/

def perfettoRxTraces : List String :=
  ["napi_gro_receive_entry", "__netif_receive_skb_core", "dev_gro_receive", "enqueue_to_backlog",
    "netif_receive_generic_xdp", "xdp_do_generic_redirect", "ip_rcv", "ip_rcv_core",
      "ip_rcv_finish",
    "ip_local_deliver", "ip_local_deliver_finish", "ipv6_rcv", "ip6_rcv_core", "ip6_rcv_finish",
    "ip6_input", "ip6_input_finish", "tcp_v4_rcv", "tcp_v6_rcv", "tcp_v4_do_rcv", "tcp_v6_do_rcv",
    "tcp_rcv_established", "tcp_recvmsg", "tcp_rcv_state_process", "tcp_queue_rcv",
    "tcp_data_queue_ofo", "tcp_filter", "tcp_child_process", "udp_rcv",
      "__udp4_lib_rcv", "udpv6_rcv",
    "__udp6_lib_rcv", "udp_unicast_rcv_skb", "udp6_unicast_rcv_skb", "udp_queue_rcv_skb",
    "udpv6_queue_rcv_skb", "__udp_queue_rcv_skb", "__udp_enqueue_schedule_skb", "udp_recvmsg",
    "udpv6_recvmsg", "skb_consume_udp", "skb_copy_datagram_iter", "skb_copy_and_csum_datagram_msg",
    "icmp_rcv", "icmp_echo", "icmp_reply", "icmpv6_rcv", "icmpv6_echo_reply", "ping_rcv",
    "__ping_queue_rcv_skb", "ping_queue_rcv_skb", "ping_lookup"]

def perfettoTxTraces : List String :=
  ["tcp_sendmsg", "tcp_sendmsg_locked", "tcp_skb_entail", "skb_entail", "__tcp_transmit_skb",
    "udp_sendmsg", "udpv6_sendmsg", "udp_send_skb", "udp_v6_send_skb", "__ip_queue_xmit",
    "__ip_local_out", "ip_output", "ip_finish_output", "ip_finish_output_gso", "ip_finish_output2",
    "ip6_local_out", "ip6_output", "ip6_finish_output", "__dev_queue_xmit", "ip6_finish_output2",
    "ip6_send_skb", "qdisc_enqueue", "qdisc_dequeue", "dev_hard_start_xmit"]

/-- The traces whose returns `trace_prepare_pesudo` asks for. -/
def perfettoRetTraces : List String :=
  ["sk_alloc", "tcp_sendmsg", "tcp_recvmsg", "udp_sendmsg", "udpv6_sendmsg", "udp_recvmsg",
    "udpv6_recvmsg"]

/-- The traces that a compact Perfetto capture enables. -/
def perfettoCompactTraces : List UInt8 :=
  literal <| "network_sys_enter,network_sys_exit," ++
    "sk_alloc,inet_sock_set_state,tcp_sendmsg,tcp_recvmsg,tcp_close,tcp_v4_destroy_sock," ++
    "udp_destroy_sock,udpv6_destroy_sock,skb_consume_udp,skb_copy_datagram_iter," ++
    "skb_copy_and_csum_datagram_msg," ++
    "consume_skb,kfree_skb,__kfree_skb,kfree_skb_partial,skb_attempt_defer_free," ++
    "__tcp_transmit_skb,udp_sendmsg,udpv6_sendmsg," ++
    "ip_output,ip6_output,tcp_v4_rcv,tcp_v6_rcv," ++
    "udp_rcv,udpv6_rcv,udp_recvmsg,udpv6_recvmsg,icmp_rcv,icmpv6_rcv"

def perfettoDetailedTraces : List UInt8 :=
  literal "all"

def connectDiagnosticTraces : List UInt8 :=
  literal <| "connect_sys_enter,connect_sys_exit,inet_stream_connect," ++
    "sk_alloc,inet_sock_set_state,tcp_close,__tcp_transmit_skb," ++
    "tcp_v4_rcv,tcp_v6_rcv,connect_tcp_retransmit," ++
    "tcp_ack_update_rtt,kfree_skb"

/-! ## The parts of `trace_prepare_args` -/

def traceHasPktFilter (pkt : PktArgs) : Bool :=
  pkt.daddr != 0 || pkt.addr != 0 || pkt.saddr != 0 || pkt.saddrV6[0]? != some 0 ||
    pkt.daddrV6[0]? != some 0 ||
    pkt.addrV6[0]? != some 0 || pkt.sport != 0 || pkt.dport != 0 || pkt.port != 0 ||
      pkt.l3Proto != 0 ||
    pkt.l4Proto != 0

/-- The traces of a capture whose user names none. -/
def TraceArgs.preset (args : TraceArgs) : List UInt8 :=
  if args.connectDiagnostics then connectDiagnosticTraces
  else if args.traceDetail then perfettoDetailedTraces else perfettoCompactTraces

/-- The directions of a capture, and the returns that it needs. -/
def markCapture (catalogue : Catalogue) : Catalogue :=
  ((catalogue.on perfettoRetTraces Trace.setRet).on perfettoRxTraces Trace.setRx).on
    perfettoTxTraces
    Trace.setTx

/-- What `trace_prepare_pesudo` does for a capture. -/
def prepareCapture (ctx : Context) : Context :=
  if ctx.args.perfettoEvents || ctx.args.captureTrace then
    { ctx.mark markCapture with
      bpf := { ctx.bpf with perfetto := true, detail := true }
      args := { ctx.args with traces := some (ctx.args.traces.getD ctx.args.preset) } }
  else ctx

def tracePreparePesudo (ctx : Context) : Context :=
  let captured := prepareCapture ctx
  { captured with args := { captured.args with
    traces := if captured.args.rttDetail then some (literal "tcp_ack_update_rtt")
      else captured.args.traces
    sock := captured.args.sock || captured.args.rttDetail
    rtt := captured.args.rtt && !captured.args.rttDetail
    latency := captured.args.latency || captured.bpf.latencySummary } }

/-- The modes of `trace_prepare_args` that exclude each other. -/
def TraceArgs.modes (args : TraceArgs) : Nat :=
  args.basic.toNat + args.intel.toNat + args.drop.toNat + args.sock.toNat + args.rtt.toNat +
    args.latency.toNat

/-- The steps `ASSIGN_MODE`, each of which overrides those before it. -/
def assignMode (args : TraceArgs) (mode : TraceMode) : TraceMode :=
  let mode := if args.basic then .basic else mode
  let mode := if args.intel then .diag else mode
  let mode := if args.sock then .sock else mode
  let mode := if args.monitor then .monitor else mode
  let mode := if args.drop then .drop else mode
  let mode := if args.rtt then .rtt else mode
  if args.latency then .latency else mode

/-- Whether the mode chooses its traces itself. -/
def TraceArgs.fixTrace (args : TraceArgs) : Bool :=
  args.drop || args.rtt

def traceEnableDefault (catalogue : Catalogue) : Catalogue :=
  catalogue.each fun trace => if trace.def then trace.setEnable else trace

/-- The choice of traces in `trace_prepare_args`. -/
def chooseTraces (ctx : Context) : Except PrepareError Context :=
  match ctx.args.traces with
  | none => .ok (if ctx.args.fixTrace then ctx else ctx.mark traceEnableDefault)
  | some traces =>
      if traces = literal "?" then .ok { ctx with args := { ctx.args with showTraces := true } }
      else if ctx.args.fixTrace then .error .invalid
      else .ok (ctx.mark (·.traceParseTraces (some traces) .enable))

/-- A step of `trace_enable_perfetto_output`: if one of some traces is enabled, others are too. -/
structure Dependency where
  any : List String
  enables : List String
  deriving DecidableEq, Repr

/-- The traces on the way of a received packet. -/
def receiveTraces : List String :=
  ["tcp_v4_do_rcv", "tcp_v6_do_rcv", "tcp_rcv_established", "tcp_rcv_state_process",
    "tcp_queue_rcv",
    "tcp_data_queue_ofo", "sock_def_readable", "skb_copy_datagram_iter"]

def datagramTraces : List String :=
  ["udp_unicast_rcv_skb", "udp6_unicast_rcv_skb", "udp_queue_rcv_skb", "udpv6_queue_rcv_skb",
    "__udp_queue_rcv_skb", "__udp_enqueue_schedule_skb", "sock_def_readable", "skb_consume_udp",
    "skb_copy_datagram_iter", "skb_copy_and_csum_datagram_msg"]

/-- The conditions of `trace_enable_perfetto_output`, in their order. -/
def outputDependencies : List Dependency :=
  [⟨["__tcp_transmit_skb"], ["ip_output", "ip6_output", "tcp_skb_entail", "skb_entail"]⟩,
    ⟨["udp_sendmsg"], ["udp_send_skb"]⟩,
    ⟨["udpv6_sendmsg"], ["udp_v6_send_skb"]⟩,
    ⟨["udp_send_skb"], ["ip_output"]⟩,
    ⟨["udp_v6_send_skb"], ["ip6_output"]⟩,
    ⟨["icmp_rcv"], ["ip_output"]⟩,
    ⟨["icmpv6_rcv"], ["ip6_output"]⟩,
    ⟨["tcp_v4_rcv", "tcp_v6_rcv", "tcp_recvmsg"], receiveTraces⟩,
    ⟨["udp_rcv", "udpv6_rcv", "udp_recvmsg", "udpv6_recvmsg"], datagramTraces⟩]

/-- Whether a trace with one of some names is enabled. -/
def Catalogue.anyEnabled (catalogue : Catalogue) (defines : List String) : Bool :=
  catalogue.traces.any fun trace => trace.define ∈ defines && trace.enable

/-- One condition. -/
def Catalogue.require (catalogue : Catalogue) (dependency : Dependency) : Catalogue :=
  if catalogue.anyEnabled dependency.any then catalogue.on dependency.enables Trace.setEnable
  else catalogue

/-- The traces of the scheduler. -/
def schedTraces : List String :=
  ["network_sched_waking", "network_sched_wakeup", "network_sched_switch"]

/-- The traces of system calls. -/
def syscallTraces : List String :=
  ["network_sys_enter", "network_sys_exit"]

/-- What `trace_enable_perfetto_output` does for the chain of wakeups. -/
def markScheduled (wakeupChain : Bool) (catalogue : Catalogue) : Catalogue :=
  if wakeupChain then catalogue.on (schedTraces ++ syscallTraces) Trace.setEnable
  else catalogue.on schedTraces (Trace.setInvalidReason "wakeup-chain disabled")

/-- What `trace_enable_perfetto_output` does for a capture. -/
def enableOutput (catalogue : Catalogue) : Catalogue :=
  outputDependencies.foldl Catalogue.require <|
    catalogue.on (["sk_alloc", "inet_sock_set_state"] ++ syscallTraces) Trace.setEnable

def traceEnablePerfettoOutput (ctx : Context) : Context :=
  ctx.mark fun catalogue =>
    let scheduled := markScheduled ctx.bpf.wakeupChain catalogue
    if !ctx.bpf.perfetto || ctx.args.connectDiagnostics then scheduled else enableOutput scheduled

def traceAllSetRet (catalogue : Catalogue) : Catalogue :=
  catalogue.each fun trace => if trace.isFunc then trace.setRet else trace

def Trace.prepareMonitor (trace : Trace) : Trace :=
  if trace.monitor = 0 then trace.setInvalidReason "monitor"
  else if trace.isFunc && trace.monitor = 1 then { trace with retOnly := true }.setRet
  else trace

def traceSkbClone (args : TraceArgs) (catalogue : Catalogue) : Catalogue :=
  if args.tracesNoclone then catalogue else catalogue.on ["skb_clone"] Trace.setRet

def traceDropStack (args : TraceArgs) (catalogue : Catalogue) : Catalogue :=
  if args.dropStack then catalogue.setTarget .stack fun trace =>
    trace.define = "kfree_skb" else catalogue

/-- The first `switch` of `trace_prepare_mode`. -/
def markMode (args : TraceArgs) (mode : TraceMode) (catalogue : Catalogue) : Catalogue :=
  match mode with
  | .diag => traceSkbClone args (traceAllSetRet catalogue)
  | .timeline => traceSkbClone args catalogue
  | .latency => catalogue.on ["skb_clone"] (Trace.setInvalidReason "latency")
  | .drop => (traceDropStack args catalogue).on ["kfree_skb"] Trace.setEnable
  | .basic | .sock => catalogue
  | .monitor => catalogue.each Trace.prepareMonitor
  | .rtt => catalogue.on ["tcp_ack_update_rtt"] Trace.setEnable

def tracePrepareMode (ctx : Context) : Except PrepareError Context :=
  let prepared := ctx.mark (markMode ctx.args ctx.mode)
  if !ctx.args.ret then .ok prepared
  else
    match ctx.mode with
    | .basic => .error .invalid
    | .timeline => .ok (prepared.mark traceAllSetRet)
    | _ => .ok prepared

/-- A trace without what the mode needs. -/
def Trace.unfit (mode : TraceMode) (trace : Trace) : Bool :=
  (mode.requiresSkb && trace.skb = 0) || (mode.requiresSock && trace.sk = 0)

def traceCheckSockSkb (ctx : Context) : Context :=
  if ctx.bpf.perfetto then ctx
  else
    ctx.mark (·.each fun trace =>
      if trace.unfit ctx.mode then trace.setInvalidReason "sock or sk mode" else trace)

/-- `trace_check_force`, whether it refuses to go on. -/
def traceCheckForce (ctx : Context) : Bool :=
  let args := ctx.args
  let bpf := ctx.bpf
  !(args.drop || args.force || args.monitor || args.showTraces || args.rtt) &&
    !(traceHasPktFilter bpf.pkt || bpf.pid ≠ 0 || bpf.uidEnabled || bpf.firstRtt ≠ 0 ||
      bpf.lastRtt ≠ 0 || (args.traces.any (· ≠ literal "all")) || args.count ≠ 0)

/-! ## Packet lengths and flags -/

def isSpace (byte : UInt8) : Bool :=
  byte = 0x20 || (0x09 ≤ byte && byte ≤ 0x0d)

def isDigit (byte : UInt8) : Bool :=
  0x30 ≤ byte && byte ≤ 0x39

/-- `%u` of `sscanf`: blanks, perhaps a sign, and digits, whose value is cut off as `strtoul` and a
store of 32 bits cut it off. -/
def scanUnsigned (text : List UInt8) : Option (UInt32 × List UInt8) :=
  let signed := text.dropWhile isSpace
  let (negative, unsigned) :=
    match signed with
    | 0x2d :: rest => (true, rest)
    | 0x2b :: rest => (false, rest)
    | _ => (false, signed)
  let digits := unsigned.takeWhile isDigit
  if digits = [] then none
  else
    let value := digits.foldl (fun value digit => 10 * value + (digit.toNat - 0x30)) (0 : Nat)
    let value := if 2 ^ 64 ≤ value then 2 ^ 64 - 1 else if negative then 2 ^ 64 - value else value
    some (UInt32.ofNat value, unsigned.dropWhile isDigit)

/-- Whether `%s` of `sscanf` finds nothing. -/
def scanEnds (text : List UInt8) : Bool :=
  text.dropWhile isSpace = []

/-- The two forms of `--pkt-len`. -/
def parsePktLen (text : List UInt8) : Option (UInt32 × UInt32) := do
  let (first, rest) ← scanUnsigned text
  if scanEnds rest then return (first, first)
  match rest with
  | 0x2d :: bound =>
      let (second, rest) ← scanUnsigned bound
      if scanEnds rest then return (first, second) else none
  | _ => none

/-- `parse_tcp_flasg`, the letters from those for the bits of `TCP_FLAGS_*`. -/
def parseTcpFlasg (text : List UInt8) : Option UInt8 :=
  text.foldlM (fun flags byte =>
    match byte with
    | 0x53 => some (flags ||| 0x02)
    | 0x41 => some (flags ||| 0x10)
    | 0x50 => some (flags ||| 0x08)
    | 0x52 => some (flags ||| 0x04)
    | 0x46 => some (flags ||| 0x01)
    | _ => none) 0

/-- Goes to `err` on a condition. -/
def refuse (condition : Bool) (error : PrepareError) : Except PrepareError Unit :=
  if condition then .error error else .ok ()

def readOption {α : Type} (given : Option (Option α)) (value : α) : Except PrepareError α :=
  match given with
  | none => .ok value
  | some none => .error .invalid
  | some (some read) => .ok read

/-- `--pkt-len` and `--tcp-flags`. -/
def preparePacket (args : TraceArgs) (pkt : PktArgs) : Except PrepareError PktArgs := do
  let lengths ← readOption (args.pktLen.map parsePktLen) (pkt.pktLen1, pkt.pktLen2)
  let flags ← readOption (args.tcpFlags.map parseTcpFlasg) pkt.tcpFlags
  return { pkt with pktLen1 := lengths.1, pktLen2 := lengths.2, tcpFlags := flags }

/-! ## `trace_prepare_args` -/

/-- What a preset chooses is optional, what the user names is not. -/
def Context.forgetExplicit (explicitTraces : Bool) (ctx : Context) : Context :=
  if explicitTraces then ctx else ctx.mark (·.each fun trace => { trace with explicit := false })

/-- Up to where the mode, the first traces, and those that print their stacks are chosen. -/
def prepareChoice (ctx : Context) : Except PrepareError Context := do
  let prepared := tracePreparePesudo ctx
  refuse (prepared.args.modes > 1) .invalid
  let chosen ← chooseTraces { prepared with mode := assignMode prepared.args prepared.mode }
  return (chosen.forgetExplicit ctx.args.traces.isSome).mark
    (·.traceParseTraces ctx.args.tracesStack .stack)

/-- `drop_reason_support` and `reset_reason_support`. -/
def Context.setReasons (kernel : Kernel) (ctx : Context) : Context :=
  { ctx with
    bpf := { ctx.bpf with dropReason := ctx.bpf.dropReason || kernel.dropReason }
    dropReason := ctx.dropReason || kernel.dropReason
    resetReason := ctx.resetReason || kernel.resetReason }

/-- `__rate_limit`, `network_socket_filter` and `has_filter`. -/
def Context.setFilters (ctx : Context) : Context :=
  { ctx with bpf := { ctx.bpf with
    rateLimitBudget := ctx.bpf.rateLimit
    networkSocketFilter := traceHasPktFilter ctx.bpf.pkt || ctx.bpf.netns ≠ 0
    hasFilter := traceHasPktFilter ctx.bpf.pkt || ctx.bpf.pid ≠ 0 || ctx.bpf.uidEnabled } }

/-- The tests of the filters. -/
def prepareFilters (kernel : Kernel) (ctx : Context) : Except PrepareError Context := do
  refuse (!kernel.tracefs) .invalid
  refuse (ctx.bpf.rateLimit ≠ 0 && ctx.mode.bpfContext) .invalid
  let filtered := ctx.setFilters
  refuse (ctx.bpf.perfetto && !filtered.bpf.hasFilter && !ctx.args.force) .invalid
  refuse (ctx.bpf.perfetto && ctx.bpf.uidEnabled && ctx.bpf.uid = 0 && ctx.bpf.pid = 0 &&
    !traceHasPktFilter ctx.bpf.pkt && !ctx.args.force) .invalid
  return filtered.setReasons kernel

def Context.setMatchMode (ctx : Context) : Context :=
  { ctx with
    bpf := { ctx.bpf with matchMode := ctx.bpf.matchMode || ctx.args.traceMatcher.isSome } }

/-- From the traces that others need to those that the user marks. -/
def prepareMarks (ctx : Context) : Except PrepareError Context := do
  let excluded :=
    (traceEnablePerfettoOutput ctx).mark (·.traceParseTraces ctx.args.traceExclude .exclude)
  refuse (ctx.args.traceMatcher.isSome && !ctx.mode.bpfContext) .invalid
  refuse (ctx.args.traceFree.isSome && !ctx.mode.bpfContext) .invalid
  let matched := excluded.mark (·.traceParseTraces ctx.args.traceMatcher .matcher)
  return (matched.mark (·.traceParseTraces ctx.args.traceFree .cfree)).setMatchMode

def Context.setMinLatency (ctx : Context) : Context :=
  if ctx.args.minLatency = 0 then ctx
  else { ctx with
    args := { ctx.args with latencyShow := true }
    bpf := { ctx.bpf with latencyMin := ctx.args.minLatency } }

/-- `first_rtt` and `last_rtt`, in microseconds, and the monitor that they need. -/
def Context.setRtt (ctx : Context) : Context :=
  if ctx.bpf.firstRtt = 0 && ctx.bpf.lastRtt = 0 then ctx
  else { ctx.mark (·.on ["tcp_ack_update_rtt"] fun trace => { trace with monitor := 2 }) with
    bpf := { ctx.bpf with firstRtt := ctx.bpf.firstRtt * 1000, lastRtt := ctx.bpf.lastRtt * 1000 } }

/-- The last fields of `bpf_args`, with the packet filter. -/
def Context.setBpf (kernel : Kernel) (pkt : PktArgs) (ctx : Context) : Context :=
  { ctx with
    bpf := { ctx.bpf with
      pkt := pkt
      netns := if ctx.args.netnsCurrent then kernel.netns else ctx.bpf.netns
      traceMode := some ctx.mode
      maxEvent := if ctx.args.traffic then 0 else ctx.args.count }
    detail := ctx.bpf.detail
    skipLast := !ctx.bpf.latencyFree }

/-- From the latencies to the end. -/
def prepareMode (kernel : Kernel) (ctx : Context) : Except PrepareError Context := do
  refuse (ctx.args.latencyShow && !ctx.mode.context) .invalid
  refuse (ctx.args.minLatency ≠ 0 && !ctx.mode.bpfContext) .invalid
  let prepared ← tracePrepareMode ctx.setMinLatency.setRtt
  let checked := if ctx.args.fixTrace then prepared else traceCheckSockSkb prepared
  let pkt ← preparePacket ctx.args ctx.bpf.pkt
  let finished := checked.setBpf kernel pkt
  refuse (traceCheckForce finished) .invalid
  return finished

def tracePrepareArgs (kernel : Kernel) (ctx : Context) : Except PrepareError Context := do
  let chosen ← prepareChoice ctx
  let filtered ← prepareFilters kernel chosen
  let marked ← prepareMarks filtered
  prepareMode kernel marked

end Anettrace.Selection
