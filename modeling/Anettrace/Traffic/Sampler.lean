import Mathlib.Order.Defs.LinearOrder
import Anettrace.Library.Run
import Anettrace.Traffic.Calls

/-!
# Samples of traffic

The sampler of `src/traffic.c`, for one of the two maps it shows: it walks the map, keeps one row
for each key, and takes for each row the bytes since the row of that key in the sample before. The
kernel goes on while the map is walked: a walk can meet a key twice, or not at all, and an entry
that was evicted can be there again. `first_seen_ns` tells the entries of one key apart.
-/

namespace Anettrace.Traffic

open Library

/-- `struct traffic_row` and `struct traffic_process_row`. -/
structure TrafficRow (κ : Type*) where
  key : κ
  value : TrafficCounters
  deriving DecidableEq, Repr

variable {κ : Type*}

/-- What `bpf_map_get_next_key` returns: a key, `ENOENT`, or another error. -/
inductive NextKey (κ : Type*) where
  | key (key : κ)
  | noEntry
  | failed
  deriving DecidableEq, Repr

/-- A turn of the loop over a map: what looking up the key returns, and what comes next. -/
structure WalkTurn (κ : Type*) where
  value : Option TrafficCounters
  next : NextKey κ
  deriving DecidableEq, Repr

/-- The loop of `traffic_collect_flow_sample` and `traffic_collect_process_sample`: the rows, and
whether the sample is incomplete. There are no more turns than attempts. -/
def collectTurns (capacity : Nat) (key : κ) (rows : List (TrafficRow κ)) :
    List (WalkTurn κ) → List (TrafficRow κ) × Bool
  | [] => (rows, true)
  | turn :: turns =>
      let rows := rows ++ (turn.value.map fun value => ⟨key, value⟩).toList
      match turn.next with
      | .noEntry => (rows, turn.value.isNone)
      | .failed => (rows, true)
      | .key next =>
          if rows.length = capacity then (rows, true)
          else
            let (rows, incomplete) := collectTurns capacity next rows turns
            (rows, turn.value.isNone || incomplete)

def collectRows (capacity : Nat) (first : NextKey κ) (turns : List (WalkTurn κ)) :
    List (TrafficRow κ) × Bool :=
  match first with
  | .noEntry => ([], false)
  | .failed => ([], true)
  | .key key => collectTurns capacity key [] (turns.take (capacity * 2))

/-- `qsort` by `memcmp` of the keys: rows of one key may come in any order. -/
structure KeySort (κ : Type*) [LinearOrder κ] where
  sort : List (TrafficRow κ) → List (TrafficRow κ)
  perm : ∀ rows, (sort rows).Perm rows
  sorted : ∀ rows, (sort rows).Pairwise fun first second => first.key ≤ second.key

/-- A turn of the loop of `traffic_unique_flows` and `traffic_unique_processes`; the rows are kept
last first. -/
def keepRow [DecidableEq κ] (replaces : TrafficCounters → TrafficCounters → Bool)
    (kept : List (TrafficRow κ)) (row : TrafficRow κ) : List (TrafficRow κ) :=
  match kept with
  | [] => [row]
  | last :: rest =>
      if last.key = row.key then
        if replaces row.value last.value then row :: rest else last :: rest
      else row :: last :: rest

/-- The test of `traffic_unique_flows` for a second row of a key. -/
def flowReplaces (value old : TrafficCounters) : Bool :=
  value.firstSeenNs > old.firstSeenNs ||
    (value.firstSeenNs = old.firstSeenNs && value.lastSeenNs ≥ old.lastSeenNs)

def processReplaces (value old : TrafficCounters) : Bool :=
  value.lastSeenNs ≥ old.lastSeenNs

/-- What the sampling of a map is made of. -/
structure TrafficSampler (κ : Type*) [LinearOrder κ] where
  capacity : Nat
  replaces : TrafficCounters → TrafficCounters → Bool
  qsort : KeySort κ

variable [LinearOrder κ]

def flowSampler (qsort : KeySort κ) : TrafficSampler κ :=
  ⟨16384, flowReplaces, qsort⟩

def processSampler (qsort : KeySort κ) : TrafficSampler κ :=
  ⟨4096, processReplaces, qsort⟩

def TrafficSampler.unique (sampler : TrafficSampler κ) (rows : List (TrafficRow κ)) :
    List (TrafficRow κ) :=
  ((sampler.qsort.sort rows).foldl (keepRow sampler.replaces) []).reverse

/-- `traffic_sample_deltas`: the bytes received and sent, and whether the sample has a gap. -/
structure TrafficDeltas where
  rx : UInt64
  tx : UInt64
  incomplete : Bool
  deriving DecidableEq, Repr

def trafficSampleDeltas (value : TrafficCounters) (previous : Option TrafficCounters)
    (sinceNs : UInt64) : TrafficDeltas :=
  let unmatched : TrafficDeltas :=
    if value.firstSeenNs ≠ 0 ∧ value.firstSeenNs ≥ sinceNs then
      ⟨value.rxBytes, value.txBytes, false⟩
    else ⟨0, 0, true⟩
  match previous with
  | none => unmatched
  | some previous =>
      if value.firstSeenNs = previous.firstSeenNs then
        if value.rxBytes < previous.rxBytes ∨ value.txBytes < previous.txBytes then ⟨0, 0, true⟩
        else ⟨value.rxBytes - previous.rxBytes, value.txBytes - previous.txBytes, false⟩
      else unmatched

/-- A row that is shown, with its deltas. -/
structure TrafficShown (κ : Type*) where
  row : TrafficRow κ
  deltas : TrafficDeltas
  deriving DecidableEq, Repr

def displayCounters (previous : List (TrafficRow κ)) (sinceNs : UInt64) (row : TrafficRow κ) :
    TrafficShown κ :=
  ⟨row, trafficSampleDeltas row.value
    ((previous.find? fun other => other.key = row.key).map TrafficRow.value) sinceNs⟩

/-- A frame: the rows that were kept, and those that were shown. -/
structure TrafficFrame (κ : Type*) where
  rows : List (TrafficRow κ)
  shown : List (TrafficShown κ)
  deriving DecidableEq, Repr

/-- The part of `struct traffic_session` that samples one map, with the frames so far and every row
that was read. -/
structure TrafficSession (κ : Type*) where
  previous : List (TrafficRow κ)
  lastReportNs : UInt64
  frames : List (TrafficFrame κ)
  reads : List (TrafficRow κ)
  deriving DecidableEq, Repr

def TrafficSession.start (startNs : UInt64) : TrafficSession κ :=
  ⟨[], startNs, [], []⟩

/-- What the clock and the walk of the map return to `traffic_tick`. -/
structure TrafficTick (κ : Type*) where
  nowNs : UInt64
  first : NextKey κ
  turns : List (WalkTurn κ)
  deriving DecidableEq, Repr

/-- The clock failed, or went back. -/
def TrafficSession.skips (session : TrafficSession κ) (tick : TrafficTick κ) : Bool :=
  tick.nowNs = 0 || tick.nowNs < session.lastReportNs

def TrafficSampler.reads (sampler : TrafficSampler κ) (tick : TrafficTick κ) :
    List (TrafficRow κ) :=
  (collectRows sampler.capacity tick.first tick.turns).1

/-- `traffic_sample_display` for one map: rows that were never added to are not shown, and every row
is kept for the next sample. -/
def TrafficSampler.frame (sampler : TrafficSampler κ) (session : TrafficSession κ)
    (tick : TrafficTick κ) : TrafficFrame κ :=
  let rows := sampler.unique (sampler.reads tick)
  ⟨rows, (rows.filter fun row => row.value.lastSeenNs ≠ 0).map
    (displayCounters session.previous session.lastReportNs)⟩

def TrafficSampler.tick (sampler : TrafficSampler κ) (session : TrafficSession κ)
    (tick : TrafficTick κ) : TrafficSession κ :=
  if session.skips tick then session
  else
    let frame := sampler.frame session tick
    { previous := frame.rows
      lastReportNs := tick.nowNs
      frames := session.frames ++ [frame]
      reads := session.reads ++ sampler.reads tick }

def TrafficSampler.after (sampler : TrafficSampler κ) (startNs : UInt64)
    (ticks : List (TrafficTick κ)) : TrafficSession κ :=
  Run.run sampler.tick (.start startNs) ticks

end Anettrace.Traffic
