import Mathlib.Data.UInt
import Anettrace.Library.Keyed
import Anettrace.Selection.Prepare

/-!
# Analysis contexts

The packet analysis of `src/analysis.c` in the modes that collect the life of a packet. An analysis
context stands for a packet and its clones; each clone has a fake context, found by the address of
its `sk_buff`. A fake context is referenced by the hash table and by every entry that waits for its
return event, and a context by every fake context that is referenced itself. The callback of the
polling thread raises and drops both counts.
-/

namespace Anettrace.Analysis

open Library
open Selection (Analyzer Preparation TraceMode TraceOps)

def tinyMask : Nat := 1 <<< 16

def ctxMask : Nat := (1 <<< TraceMode.diag.index) ||| (1 <<< TraceMode.timeline.index)

/-- `TRACE_MODE_ALL_MASK`: every mode. -/
def allMask : Nat := 0xff

def modeHasContext (mode : TraceMode) : Bool := (1 <<< mode.index) &&& ctxMask != 0

def analyzerMode : Analyzer → Nat
  | .ret | .free | .clone => ctxMask ||| tinyMask
  | .drop | .reset => allMask ||| tinyMask
  | .default | .nf | .iptable | .qdisc | .rtt => allMask

/-- What stays as it is while events are polled. `traces` is `all_traces`. -/
structure Config where
  mode : TraceMode
  ops : TraceOps
  noclone : Bool
  traces : List Selection.Trace
  deriving DecidableEq, Repr

def Config.getTrace (config : Config) (func : Nat) : Option Selection.Trace := config.traces[func]?

/-- What the preparation of a capture leaves for its analysis. -/
def Config.ofPreparation : Preparation → Option Config
  | .ready ops ctx =>
      some { mode := ctx.mode, ops := ops, noclone := ctx.args.tracesNoclone, traces := ctx.traces }
  | _ => none

/-! ## The state of the analysis -/

/-- An entry event. The last three say whether `malloc` has memory for the entry, a context and a
fake context. -/
structure EntryEvent where
  func : Nat
  key : UInt64
  tid : UInt32
  tiny : Bool
  entryMemory : Bool
  ctxMemory : Bool
  fakeMemory : Bool
  deriving DecidableEq, Repr

/-- `retevent_t`, and whether `malloc` has memory for a fake context. -/
structure RetEvent where
  func : Nat
  tid : UInt32
  val : UInt64
  fakeMemory : Bool
  deriving DecidableEq, Repr

/-- `fake_analy_ctx_t` -/
structure FakeAnalyCtx where
  ctx : Nat
  key : UInt64
  refs : UInt16
  deriving DecidableEq, Repr

/-- `analy_ctx_t`: contexts and fake contexts are named by the order of their allocation. -/
structure AnalyCtx where
  entries : List EntryEvent
  fakes : List Nat
  refs : UInt16
  deriving DecidableEq, Repr

/-- An entry on one of the lists `cpus`, whose return is pending. -/
structure PendingEntry where
  func : Nat
  tid : UInt32
  ctx : Nat
  fakeCtx : Nat
  deriving DecidableEq, Repr

/-- What must not happen: a reference that is put when there is none, a counter that wraps, a node
that is unlinked when it is not in the hash, the use of what was freed, the end of an entry that
waits for its return, and the use of a trace that there is not. -/
inductive Fault where
  | putTwice
  | wrapped
  | unlinkedTwice
  | usedFreed
  | freedPending
  | noTrace
  deriving DecidableEq, Repr

/-- A call of `analy_ctx_output`, with the entries that the context has then. Whether it prints
them, which `--intel-quiet` and `--min-latency` decide, is left out. -/
structure CtxOutput where
  ctx : Nat
  entries : List EntryEvent
  deriving DecidableEq, Repr

/-- The state of the polling thread. The chains of the hash keep what was added last in front, and
so do the lists of pending entries; an entry of another chain never matches, and one list does for
all of them. `faults` records what must not happen. -/
structure State where
  ctxs : Keyed Nat AnalyCtx
  fakes : Keyed Nat FakeAnalyCtx
  hash : List Nat
  pending : List PendingEntry
  nextCtx : Nat
  nextFake : Nat
  ctxCount : UInt32
  outputs : List CtxOutput
  faults : List Fault

/-- The state before the first event. -/
def State.start : State :=
  { ctxs := Keyed.empty
    fakes := Keyed.empty
    hash := []
    pending := []
    nextCtx := 0
    nextFake := 0
    ctxCount := 0
    outputs := []
    faults := [] }

def State.fault (state : State) (fault : Fault) : State :=
  { state with faults := state.faults ++ [fault] }

def State.faultIf (state : State) (test : Prop) [Decidable test] (fault : Fault) : State :=
  if test then state.fault fault else state

def getAnalyCtx (state : State) (c : Nat) : State :=
  match state.ctxs c with
  | none => state.fault .usedFreed
  | some ctx =>
      { state with ctxs := state.ctxs.put c { ctx with refs := ctx.refs + 1 } }.faultIf
        (ctx.refs = 0xffff) .wrapped

def putAnalyCtx (state : State) (c : Nat) : State :=
  match state.ctxs c with
  | none => state.fault .usedFreed
  | some ctx =>
      { state with ctxs := state.ctxs.put c { ctx with refs := ctx.refs - 1 } }.faultIf
        (ctx.refs = 0) .putTwice

def getFakeAnalyCtx (state : State) (f : Nat) : State :=
  match state.fakes f with
  | none => state.fault .usedFreed
  | some fake =>
      let state := if fake.refs = 0 then getAnalyCtx state fake.ctx else state
      { state with fakes := state.fakes.put f { fake with refs := fake.refs + 1 } }.faultIf
        (fake.refs = 0xffff) .wrapped

def putFakeAnalyCtx (state : State) (f : Nat) : State :=
  match state.fakes f with
  | none => state.fault .usedFreed
  | some fake =>
      let state := { state with
        fakes := state.fakes.put f { fake with refs := fake.refs - 1 } }.faultIf
          (fake.refs = 0) .putTwice
      -- `refs <= 0` of an unsigned counter
      if fake.refs - 1 = 0 then putAnalyCtx state fake.ctx else state

/-- `hlist_del`: a node that was unlinked before has the poison in its links. -/
def hlistDel (state : State) (f : Nat) : State :=
  { state with hash := state.hash.erase f }.faultIf (f ∉ state.hash) .unlinkedTwice

/-- `analy_fake_ctx_find` -/
def State.find (state : State) (key : UInt64) : Option Nat :=
  state.hash.find? fun f => (state.fakes f).any fun fake => fake.key == key

/-- A new fake context, on the list of its context and in the hash. -/
def State.withFake (state : State) (key : UInt64) (c : Nat) (ctx : AnalyCtx) : State :=
  { state with
    ctxs := state.ctxs.put c { ctx with fakes := ctx.fakes ++ [state.nextFake] }
    fakes := state.fakes.put state.nextFake { ctx := c, key, refs := 0 }
    hash := state.nextFake :: state.hash
    nextFake := state.nextFake + 1 }

def analyFakeCtxAlloc (state : State) (key : UInt64) (c : Nat) : State :=
  match state.ctxs c with
  | none => state.fault .usedFreed
  | some ctx => getFakeAnalyCtx (state.withFake key c ctx) state.nextFake

/-- A new context. -/
def State.withCtx (state : State) : State :=
  { state with
    ctxs := state.ctxs.put state.nextCtx { entries := [], fakes := [], refs := 0 }
    nextCtx := state.nextCtx + 1
    ctxCount := state.ctxCount + 1 }

/-- What `analy_fake_ctx_fetch` does for a key that is not in the hash, where there is memory. It
counts the context last; nothing reads the count in between. -/
def analyCtxAlloc (state : State) (key : UInt64) : State :=
  analyFakeCtxAlloc (state.withCtx.faultIf (state.ctxCount = 0xffffffff) .wrapped) key state.nextCtx

def analyFakeCtxFetch (state : State) (event : EntryEvent) : Option (State × Nat) :=
  match state.find event.key with
  | some f => some (state, f)
  | none =>
      if event.ctxMemory && event.fakeMemory then
        some (analyCtxAlloc state event.key, state.nextFake)
      else none

/-- The call of `analy_ctx_output`, and `analy_ctx_free` at its end: an entry that waits for its
return is taken from its list before it is freed. -/
def analyCtxOutput (state : State) (c : Nat) (ctx : AnalyCtx) : State :=
  let state' := { state with
    ctxs := state.ctxs.remove c
    fakes := ctx.fakes.foldl Keyed.remove state.fakes
    pending := state.pending.filter fun entry => entry.ctx ≠ c
    ctxCount := state.ctxCount - 1
    outputs := state.outputs ++ [{ ctx := c, entries := ctx.entries : CtxOutput }] }
  state'.faultIf (∃ entry ∈ state.pending, entry.ctx = c) .freedPending

def checkPending (state : State) (c : Nat) : State :=
  match state.ctxs c with
  | none => state.fault .usedFreed
  | some ctx => if ctx.refs = 0 then analyCtxOutput state c ctx else state

/-! ## The analyzers -/

def tryRunEntry (config : Config) (modes : Nat) (event : EntryEvent) : Bool :=
  let mode := 1 <<< config.mode.index ||| (if event.tiny then tinyMask else 0)
  modes &&& mode == mode

def probeModes : Nat := ctxMask ||| tinyMask

/-- Whether `probe_analy_entry` puts the entry of an event on the list of pending entries. -/
def mounts (config : Config) (trace : Selection.Trace) (event : EntryEvent) : Bool :=
  config.ops = .probe && tryRunEntry config probeModes event && trace.ret

/-- The entry handler of `trace_ctx.ops->analyzer`; that of the tracing programs does nothing. -/
def runGlobalEntry (config : Config) (state : State) (trace : Selection.Trace)
    (event : EntryEvent) (c f : Nat) :
    State :=
  if mounts config trace event then
    getFakeAnalyCtx { state with
      pending := { func := event.func, tid := event.tid, ctx := c, fakeCtx := f } :: state.pending }
        f
  else state

/-- Whether the analyzer of a trace puts the reference of the hash: `free` does, and `drop` where
there is a context. The others only set rules and messages. -/
def analyzerFrees (config : Config) (trace : Selection.Trace) (event : EntryEvent) : Bool :=
  tryRunEntry config (analyzerMode trace.analyzer) event &&
    (trace.analyzer = .free || (trace.analyzer = .drop && modeHasContext config.mode))

/-- The reference of the hash put, and the fake context unlinked. -/
def release (state : State) (f : Nat) : State :=
  hlistDel (putFakeAnalyCtx state f) f

/-- `probe_analy_exit`: the entry the return belongs to, if it is found. -/
def State.found (state : State) (event : RetEvent) : Option PendingEntry :=
  state.pending.find? fun entry => entry.func == event.func && entry.tid == event.tid

def cloneExit (config : Config) (state : State) (entry : PendingEntry) (event : RetEvent) : State :=
  if config.noclone || event.val = 0 || !event.fakeMemory then state
  else analyFakeCtxAlloc state event.val entry.ctx

/-- Whether the return of a trace runs `analyzer_clone_exit`; other analyzers leave the
references. -/
def clones (config : Config) (trace : Selection.Trace) : Bool :=
  trace.analyzer = .clone && analyzerMode trace.analyzer &&& (1 <<< config.mode.index) != 0

def handleRet (config : Config) (state : State) (event : RetEvent) : State :=
  match config.ops, state.found event with
  | .probe, some entry =>
      let state := putFakeAnalyCtx { state with pending := state.pending.erase entry } entry.fakeCtx
      match config.getTrace event.func with
      | none => state.fault .noTrace
      | some trace =>
          let state := if clones config trace then cloneExit config state entry event else state
          checkPending state entry.ctx
  | _, _ => state

def addEntry (state : State) (event : EntryEvent) (c : Nat) : State :=
  match state.ctxs c with
  | none => state.fault .usedFreed
  | some ctx =>
      { state with ctxs := state.ctxs.put c { ctx with entries := ctx.entries ++ [event] } }

/-- The part of `ctx_async_poll_cb` for an entry whose context was fetched. -/
def handleEntry (config : Config) (state : State) (event : EntryEvent) (f : Nat) : State :=
  match state.fakes f with
  | none => state.fault .usedFreed
  | some fake =>
      match config.getTrace event.func with
      | none => checkPending (putFakeAnalyCtx state f) fake.ctx
      | some trace =>
          let state := runGlobalEntry config state trace event fake.ctx f
          let state := if analyzerFrees config trace event then release state f else state
          let state := if trace.cfree then release state f else state
          checkPending (addEntry state event fake.ctx) fake.ctx

/-- An event of the list the polling thread works through. -/
inductive Event where
  | entry (event : EntryEvent)
  | ret (event : RetEvent)
  deriving DecidableEq, Repr

def ctxAsyncPollCb (config : Config) (state : State) : Event → State
  | .ret event => handleRet config state event
  | .entry event =>
      if event.entryMemory then
        match analyFakeCtxFetch state event with
        | none => state
        | some (state, f) => handleEntry config state event f
      else state

end Anettrace.Analysis
