import Mathlib.Algebra.Order.Ring.Int
import Mathlib.Tactic.Common
import Anettrace.Shared.Event

/-!
# The quarantine of unowned RX records

Model of `src/rx_context.h`. Records whose socket is not known yet wait in a list sorted by time,
and direct socket evidence of the same packet releases them. The list is kept in link order, and
`tail` is the pointer the code keeps to its last node. Nodes carry the address `malloc` gave them,
so that following `tail` means what it means in C.

Every operation returns what it does with records, in order: `Effect.pass` and `Effect.replay` call
the emit callback, and `Effect.drop` discards a record and counts it.
-/

namespace Anettrace.RxContext

/-- The macros of `rx_context.h` and the sizes one build gives its structures. -/
structure Limits where
  maxEvents : Nat
  maxBytes : Nat
  windowNs : Nat
  ownerSlots : Nat
  detailSize : Nat
  maxEvents_pos : 0 < maxEvents
  /-- `sizeof(state->owners)` leaves room under `RX_CONTEXT_MAX_BYTES`. -/
  owners_fit : ownerSlots * 48 ≤ maxBytes

/-- The values of the header, with `sizeof(detail_event_t)` of a 64-bit build. -/
def Limits.default : Limits where
  maxEvents := 4096
  maxBytes := 8 * 1024 * 1024
  windowNs := 1000000000
  ownerSlots := 4096
  detailSize := 232
  maxEvents_pos := by decide
  owners_fit := by decide

/-- `sizeof(state->owners)`. -/
def Limits.ownersSize (limits : Limits) : Nat :=
  limits.ownerSlots * 48

/-- `struct rx_context_pending`, with the address of the allocation. -/
structure Pending where
  addr : Nat
  cpu : Int
  sample : Sample
  deriving DecidableEq

def Pending.ts (entry : Pending) : UInt64 :=
  entry.sample.detail.ts

/-- `sizeof(*entry) + size - sizeof(*detail)`; the links and the header of an entry take 16
bytes. -/
def allocation (limits : Limits) (sample : Sample) : Nat :=
  16 + limits.detailSize + sample.size.toNat - limits.detailSize

/-- `struct rx_context_owner`. -/
structure Owner where
  key : UInt64
  timestamp : UInt64
  socketKey : UInt64
  generation : UInt32
  socketGeneration : UInt32
  tid : UInt32
  tgid : UInt32
  uid : UInt32
  deriving DecidableEq

/-- A slot that `memset` cleared. -/
def Owner.zero : Owner :=
  ⟨0, 0, 0, 0, 0, 0, 0, 0⟩

/-- The counter that accounts for a discarded record. -/
inductive Cause where
  | expired | capacityDropped | unresolved
  deriving DecidableEq, Repr

/-- What becomes of a record. -/
inductive Effect where
  /-- `emit(data, cpu, size)`. -/
  | pass (cpu : Int) (sample : Sample)
  /-- `rx_context_apply(&entry->detail, owner)` and `emit(&entry->detail, cpu, size)`. -/
  | replay (cpu : Int) (sample : Sample) (owner : Owner)
  /-- The record is discarded and the counter of `cause` is incremented. -/
  | drop (cause : Cause) (cpu : Int) (sample : Sample)
  deriving DecidableEq

/-- `struct rx_context`. `queue` lists the nodes from `head` on, `fault` records a dereference of a
null `head`, and `allocated` numbers the allocations. -/
structure State where
  queue : List Pending
  tail : Option Pending
  owners : Nat → Owner
  count : Nat
  bytes : Nat
  watermark : UInt64
  replayed : UInt64
  expired : UInt64
  capacityDropped : UInt64
  unresolved : UInt64
  allocated : Nat
  fault : Bool

/-- The zeroed `struct rx_context`. -/
def State.init : State :=
  ⟨[], none, fun _ => Owner.zero, 0, 0, 0, 0, 0, 0, 0, 0, false⟩

/-- `rx_context_remove`: unlink the node between `kept` and `rest`. -/
def remove (limits : Limits) (state : State) (kept : List Pending) (entry : Pending)
    (rest : List Pending) : State :=
  { state with
    queue := kept ++ rest
    count := state.count - 1
    bytes := state.bytes - allocation limits entry.sample
    tail := if (kept ++ rest).isEmpty then none else state.tail }

def State.bump (state : State) : Cause → State
  | .expired => { state with expired := state.expired + 1 }
  | .capacityDropped => { state with capacityDropped := state.capacityDropped + 1 }
  | .unresolved => { state with unresolved := state.unresolved + 1 }

/-- The loop shape of expiry, eviction and finish: while the condition holds, remove the node at
`head` and count it. The nodes are those from `head` on. -/
def dropLoop (limits : Limits) (cause : Cause) (condition : State → Pending → Bool) :
    List Pending → State → State × List Effect
  | [], state => (state, [])
  | entry :: rest, state =>
      if condition state entry then
        let next := dropLoop limits cause condition rest
          ((remove limits state [] entry rest).bump cause)
        (next.1, .drop cause entry.cpu entry.sample :: next.2)
      else (state, [])

/-- A record of time `ts` is older than the window allows. -/
def stale (limits : Limits) (watermark ts : UInt64) : Bool :=
  watermark ≥ ts && (watermark - ts).toNat > limits.windowNs

/-- `rx_context_expire`. -/
def expire (limits : Limits) (state : State) (timestamp : UInt64) : State × List Effect :=
  let state := if timestamp > state.watermark then { state with watermark := timestamp } else state
  dropLoop limits .expired (fun state entry => stale limits state.watermark entry.ts)
    state.queue state

/-- `rx_context_apply`. -/
def apply (detail : DetailEvent) (owner : Owner) : DetailEvent :=
  { detail with
    ownerPending := 0
    ownerEvidence := 2
    ownerValid := 1
    ownerSocketKey := owner.socketKey
    ownerSocketGeneration := owner.socketGeneration
    ownerTid := owner.tid
    ownerTgid := owner.tgid
    ownerUid := owner.uid }

/-- `rx_context_matches`. -/
def matchesOwner (limits : Limits) (detail : DetailEvent) (owner : Owner) : Bool :=
  owner.key == detail.key && owner.generation == detail.keyGeneration &&
    owner.timestamp ≥ detail.ts && (owner.timestamp - detail.ts).toNat ≤ limits.windowNs

/-- The release loop of `rx_context_feed`, at the link between `kept` and the rest of the list. -/
def releaseLoop (limits : Limits) (evidence : Owner) :
    List Pending → List Pending → State → State × List Effect
  | _, [], state => (state, [])
  | kept, entry :: rest, state =>
      if matchesOwner limits entry.sample.detail evidence then
        let state := { state with replayed := state.replayed + 1 }
        let state := remove limits state kept entry rest
        let next := releaseLoop limits evidence kept rest state
        (next.1, .replay entry.cpu entry.sample evidence :: next.2)
      else releaseLoop limits evidence (kept ++ [entry]) rest { state with tail := some entry }

/-- The condition of the capacity eviction loop. -/
def overCapacity (limits : Limits) (state : State) (size : Nat) : Bool :=
  state.count ≥ limits.maxEvents || state.bytes + size + limits.ownersSize > limits.maxBytes

/-- The capacity eviction loop of `rx_context_feed`. The condition does not test `head`, so running
out of nodes while it holds is a dereference of null. -/
def evict (limits : Limits) (state : State) (size : Nat) : State × List Effect :=
  let next := dropLoop limits .capacityDropped (fun state _ => overCapacity limits state size)
    state.queue state
  ({ next.1 with
      fault := next.1.fault || (next.1.queue.isEmpty && overCapacity limits next.1 size) },
    next.2)

def linkAfter (tail entry : Pending) : List Pending → List Pending
  | [] => []
  | node :: rest =>
      if node.addr = tail.addr then [node, entry] else node :: linkAfter tail entry rest

/-- The link search of the insertion: `entry` goes before the first node with a later time. -/
def insertSorted (entry : Pending) : List Pending → List Pending
  | [] => [entry]
  | node :: rest =>
      if node.ts ≤ entry.ts then node :: insertSorted entry rest else entry :: node :: rest

/-- The insertion at the end of `rx_context_feed`. -/
def insert (limits : Limits) (state : State) (entry : Pending) : State :=
  let state :=
    match state.tail with
    | none => { state with queue := [entry], tail := some entry }
    | some tail =>
        if tail.ts ≤ entry.ts then
          { state with queue := linkAfter tail entry state.queue, tail := some entry }
        else { state with queue := insertSorted entry state.queue }
  { state with
    count := state.count + 1
    bytes := state.bytes + allocation limits entry.sample }

/-- The slot of a packet instance: `((key >> 4) ^ key_generation) % RX_CONTEXT_OWNER_SLOTS`. -/
def slotOf (limits : Limits) (detail : DetailEvent) : Nat :=
  ((detail.key >>> 4) ^^^ detail.keyGeneration.toUInt64).toNat % limits.ownerSlots

/-- The evidence a direct socket record gives. -/
def evidenceOf (detail : DetailEvent) : Owner where
  key := detail.key
  generation := detail.keyGeneration
  timestamp := detail.ts
  socketKey := detail.ownerSocketKey
  socketGeneration := detail.ownerSocketGeneration
  tid := detail.ownerTid
  tgid := detail.ownerTgid
  uid := detail.ownerUid

/-- A record that proves its socket: `owner_evidence` 1 and a complete owner. -/
def isDirect (detail : DetailEvent) : Bool :=
  detail.ownerEvidence == 1 && detail.ownerValid != 0 && detail.ownerSocketKey != 0 &&
    detail.ownerSocketGeneration != 0

/-- A record of a packet instance received: RX, with a key and a generation. -/
def isInstance (detail : DetailEvent) : Bool :=
  detail.direction == .rx && detail.key != 0 && detail.keyGeneration != 0

/-- The branch of `rx_context_feed` for a received record that is not pending. -/
def feedOwned (limits : Limits) (state : State) (cpu : Int) (sample : Sample) :
    State × List Effect :=
  let detail := sample.detail
  if isDirect detail then
    let slot := slotOf limits detail
    let owner := state.owners slot
    let evidence := evidenceOf detail
    -- An older record of the same instance does not replace newer evidence.
    let state :=
      if owner.key ≠ evidence.key ∨ owner.generation ≠ evidence.generation ∨
          owner.timestamp ≤ evidence.timestamp then
        { state with owners := Function.update state.owners slot evidence }
      else state
    let next := releaseLoop limits evidence [] state.queue { state with tail := none }
    (next.1, next.2 ++ [.pass cpu sample])
  else (state, [.pass cpu sample])

/-- The branch of `rx_context_feed` for a received record that is pending. `memory` says whether
`malloc` succeeds. -/
def feedPending (limits : Limits) (state : State) (cpu : Int) (sample : Sample) (memory : Bool) :
    State × List Effect :=
  let detail := sample.detail
  let owner := state.owners (slotOf limits detail)
  if (state.watermark - detail.ts).toNat > limits.windowNs then
    (state.bump .expired, [.drop .expired cpu sample])
  else if allocation limits sample + limits.ownersSize > limits.maxBytes ∨ !memory then
    (state.bump .capacityDropped, [.drop .capacityDropped cpu sample])
  else
    let entry : Pending := ⟨state.allocated, cpu, sample⟩
    let state := { state with allocated := state.allocated + 1 }
    if matchesOwner limits detail owner then
      ({ state with replayed := state.replayed + 1 }, [.replay cpu sample owner])
    else
      let next := evict limits state (allocation limits sample)
      (insert limits next.1 entry, next.2)

/-- `rx_context_feed`. -/
def feed (limits : Limits) (state : State) (cpu : Int) (sample : Sample) (memory : Bool) :
    State × List Effect :=
  if sample.size.toNat < limits.detailSize then (state, [])
  else
    let detail := sample.detail
    let first := expire limits state detail.ts
    let next :=
      if !isInstance detail then
        if detail.ownerPending ≠ 0 then
          (first.1.bump .unresolved, [.drop .unresolved cpu sample])
        else (first.1, [.pass cpu sample])
      else if detail.ownerPending = 0 then feedOwned limits first.1 cpu sample
      else feedPending limits first.1 cpu sample memory
    (next.1, first.2 ++ next.2)

/-- `rx_context_finish`. -/
def finish (limits : Limits) (state : State) : State × List Effect :=
  let next := dropLoop limits .unresolved (fun _ _ => true) state.queue state
  ({ next.1 with owners := fun _ => Owner.zero }, next.2)

/-- The calls a user of the quarantine makes. -/
inductive Call where
  | feed (cpu : Int) (sample : Sample) (memory : Bool)
  | expire (timestamp : UInt64)
  | finish
  deriving DecidableEq

def step (limits : Limits) (state : State) : Call → State × List Effect
  | .feed cpu sample memory => feed limits state cpu sample memory
  | .expire timestamp => expire limits state timestamp
  | .finish => finish limits state

/-- The record the emit callback receives for an effect. -/
def Effect.emitted : Effect → Option (Int × Sample)
  | .pass cpu sample => some (cpu, sample)
  | .replay cpu sample owner => some (cpu, { sample with detail := apply sample.detail owner })
  | .drop .. => none

end Anettrace.RxContext
