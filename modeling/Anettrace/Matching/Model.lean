import Anettrace.Library.Keyed
import Anettrace.Library.Run
import Anettrace.Selection.Catalogue

/-!
# Matched packets

The part of `src/progs/core.c` that follows packets in the modes with a context: `m_matched`
remembers the packets whose first function was accepted, up to the function that frees them, and in
latency mode when they were seen. The filter and what an event says of its packet are left out; a
call of a traced function tells whether the filter accepts it, and whether it is refused even so.
The probes run one after the other.
-/

namespace Anettrace.Matching

open Anettrace.Selection (FuncStatus)
open Library Library.Run

/-- `match_val_t`. -/
structure MatchVal where
  func1 : UInt16 := 0
  func2 : UInt16 := 0
  ts1 : UInt32 := 0
  ts2 : UInt32 := 0
  deriving DecidableEq, Repr

def MatchVal.matched (val : MatchVal) : Bool :=
  val.func1 != 0 || val.func2 != 0

/-- The fields of `bpf_args_t` that decide which packets are followed. -/
structure MatchArgs where
  ready : Bool := true
  maxEvent : UInt32 := 0
  matchMode : Bool := false
  hasFilter : Bool := false
  /-- `TRACE_MODE_LATENCY_MASK` is set, and not only another mode with a context. -/
  latency : Bool := false
  tinyOutput : Bool := false
  funcStats : Bool := false
  latencyMin : UInt32 := 0
  latencySummary : Bool := false
  latencyFree : Bool := false
  traceStatus : UInt16 → FuncStatus

def funcIsFree (status : FuncStatus) : Bool :=
  status.free || status.cfree

/-- A call of a traced function. -/
structure Visit where
  skb : UInt64
  func : UInt16
  /-- `bpf_ktime_get_ns`, as a packet is first or last seen. -/
  now : UInt64
  /-- `bpf_ktime_get_ns` as `pre_handle_latency` reads it again, where the matcher is entered
  again. -/
  again : UInt64 := now
  /-- `check_rate_limit` refuses it. -/
  limited : Bool := false
  /-- The filter of `handle_entry` accepts it. -/
  accepted : Bool := true
  /-- It is refused, whether its packet is followed or not: by the code of the trace before
  `handle_entry`, or in a capture by `filter_by_netns` or `perfetto_handle_owner`. -/
  refused : Bool := false
  deriving DecidableEq, Repr

/-- `bpf_ktime_get_ns() / 1000`, stored in 32 bits. -/
def Visit.micros (visit : Visit) : UInt32 :=
  (visit.now / 1000).toUInt32

/-- The second reading, stored in the same way. -/
def Visit.microsAgain (visit : Visit) : UInt32 :=
  (visit.again / 1000).toUInt32

/-- An event that is sent. -/
structure MatchedEvent where
  visit : Visit
  tiny : Bool := false
  latency : UInt32 := 0
  latencyFunc1 : UInt16 := 0
  latencyFunc2 : UInt16 := 0
  deriving DecidableEq, Repr

/-- `m_matched`, `m_stats`, `event_count`, and the events that were sent. -/
structure MatchState where
  matched : Keyed UInt64 MatchVal := .empty
  stats : UInt32 → UInt64 := fun _ => 0
  eventCount : UInt64 := 0
  events : List MatchedEvent := []

namespace MatchState

def send (state : MatchState) (event : MatchedEvent) : MatchState :=
  { state with events := state.events ++ [event] }

def count (state : MatchState) : MatchState :=
  { state with eventCount := state.eventCount + 1 }

def freeMapCtx (state : MatchState) (skb : UInt64) : MatchState :=
  { state with matched := state.matched.remove skb }

def consumeMapCtx (state : MatchState) (skb : UInt64) : MatchState :=
  (state.freeMapCtx skb).count

/-- A store to the entry of a packet. -/
def putMatch (state : MatchState) (skb : UInt64) (val : MatchVal) : MatchState :=
  { state with matched := state.matched.put skb val }

def initCtxMatch (state : MatchState) (visit : Visit) (ts : Bool) : MatchState :=
  state.putMatch visit.skb { func1 := visit.func, ts1 := if ts then visit.micros else 0 }

def updateStatsKey (state : MatchState) (key : UInt32) : MatchState :=
  if key < 512 then
    { state with
      stats := fun other => if other = key then state.stats other + 1 else state.stats other }
  else state

end MatchState

/-- The loop of `update_stats_log`, from a bucket on. -/
def statsBucketFrom (val : UInt32) : Nat → UInt32 → UInt32 → UInt32
  | 0, key, _ => key
  | rest + 1, key, tmp => if val < tmp then key else statsBucketFrom val rest (key + 1) (tmp <<< 1)

/-- The bucket that `update_stats_log` finds, of `LAST_STATS_BUCKET` and those before it. -/
def statsBucket (val : UInt32) : UInt32 :=
  statsBucketFrom val 16 0 2

def MatchState.updateStatsLog (state : MatchState) (val : UInt32) : MatchState :=
  state.updateStatsKey (statsBucket val)

/-- What `pre_handle_entry` returns: `-1`, `1`, or `0` with `match_val` and `no_event`. -/
inductive Pre where
  | skip
  | done
  | go (matchVal : MatchVal) (noEvent : Bool)
  deriving DecidableEq, Repr

def preTinyOutput (args : MatchArgs) (state : MatchState) (visit : Visit) : MatchState × Pre :=
  let sent := state.send { visit := visit, tiny := true }
  (if funcIsFree (args.traceStatus visit.func) then sent.consumeMapCtx visit.skb else sent, .done)

/-- What `pre_handle_latency` stores in the entry of a packet. -/
def MatchVal.revisit (args : MatchArgs) (visit : Visit) (val : MatchVal) : MatchVal :=
  let status := args.traceStatus visit.func
  let val :=
    if args.latencyFree || !funcIsFree status || status.cfree then
      { val with ts2 := visit.micros, func2 := visit.func }
    else val
  if status.matcher && val.func1 = visit.func then { val with ts1 := visit.microsAgain } else val

def preHandleLatency (args : MatchArgs) (state : MatchState) (visit : Visit)
    (matchVal : Option MatchVal) :
    MatchState × Pre :=
  let isFree := funcIsFree (args.traceStatus visit.func)
  match matchVal with
  | some val =>
      let val := val.revisit args visit
      let stored := state.putMatch visit.skb val
      if isFree then
        let delta := val.ts2 - val.ts1
        if val.func2 = 0 || delta < args.latencyMin then (stored.freeMapCtx visit.skb, .done)
        else if args.latencySummary then ((stored.updateStatsLog delta).consumeMapCtx visit.skb,
          .done)
        else (stored, .go val false)
      else (stored, .done)
  | none =>
      if isFree then (state, .done)
      else if !args.hasFilter then (state.initCtxMatch visit true, .done)
      else (state, .go {} true)

/-- The lookup of the packet in `pre_handle_entry`. -/
def preLookup (args : MatchArgs) (state : MatchState) (visit : Visit) : MatchState × Pre :=
  let status := args.traceStatus visit.func
  if visit.skb = 0 then (state, .go {} false)
  else
    let matchVal := state.matched visit.skb
    if matchVal.isNone && ((args.matchMode && !status.matcher) || funcIsFree status) then
      (state, .skip)
    else if matchVal.isSome && args.tinyOutput then preTinyOutput args state visit
    else if args.latency then preHandleLatency args state visit matchVal
    else (state, .go (matchVal.getD {}) false)

def preFuncStats (args : MatchArgs) (visit : Visit) (looked : MatchState × Pre) :
    MatchState × Pre :=
  if args.funcStats then
    match looked.2 with
    | .skip => looked
    | .done => (looked.1.updateStatsKey visit.func.toUInt32, .done)
    | .go val _ =>
        if !args.hasFilter then ((looked.1.updateStatsKey visit.func.toUInt32).count, .done)
        else (looked.1, .go val true)
  else looked

/-- A visit that `pre_handle_entry` looks at. -/
def heeds (args : MatchArgs) (state : MatchState) (visit : Visit) : Bool :=
  args.ready && !visit.limited && (args.maxEvent = 0 || state.eventCount < args.maxEvent.toUInt64)

def preHandleEntry (args : MatchArgs) (state : MatchState) (visit : Visit) : MatchState × Pre :=
  if heeds args state visit then preFuncStats args visit (preLookup args state visit)
    else (state, .skip)

/-- What the program of a trace goes on with: `-1`, `1` or `0`. -/
inductive Verdict where
  | rejected
  | quiet
  | sent
  deriving DecidableEq, Repr

/-- `handle_entry`, with the code of the trace before it. A packet that is followed is not filtered,
but can be refused. -/
def handleEntry (visit : Visit) (matchVal : MatchVal) (noEvent : Bool) : Verdict :=
  let filter := !(visit.skb ≠ 0 && matchVal.matched)
  if visit.refused || (filter && !visit.accepted) then .rejected
  else if noEvent then .quiet else .sent

/-- The event of `handle_entry`, with `try_set_latency`. -/
def eventOf (args : MatchArgs) (visit : Visit) (val : MatchVal) : MatchedEvent :=
  if val.func1 = 0 || !args.latency then { visit := visit }
  else
    { visit := visit
      latency := val.ts2 - val.ts1
      latencyFunc1 := val.func1
      latencyFunc2 := val.func2 }

def handleEntryFinish (args : MatchArgs) (state : MatchState) (visit : Visit) (val : MatchVal) :
    MatchState :=
  let finished :=
    if visit.skb ≠ 0 then
      if funcIsFree (args.traceStatus visit.func) then
        if val.matched then state.consumeMapCtx visit.skb else state
      else if !val.matched then state.initCtxMatch visit args.latency else state
    else state.count
  if args.funcStats then finished.updateStatsKey visit.func.toUInt32 else finished

/-- The program of a trace. -/
def visitStep (args : MatchArgs) (state : MatchState) (visit : Visit) : MatchState :=
  match preHandleEntry args state visit with
  | (state, .skip) | (state, .done) => state
  | (state, .go val noEvent) =>
      match handleEntry visit val noEvent with
      | .rejected => state
      | .quiet => handleEntryFinish args state visit val
      | .sent => handleEntryFinish args (state.send (eventOf args visit val)) visit val

/-- What happens to the map: a probe runs, or an entry is evicted. -/
inductive MatchStep where
  | visit (visit : Visit)
  | evict (skb : UInt64)
  deriving DecidableEq, Repr

def matchStep (args : MatchArgs) (state : MatchState) : MatchStep → MatchState
  | .visit visit => visitStep args state visit
  | .evict skb => state.freeMapCtx skb

end Anettrace.Matching
