import Mathlib.Data.Vector.Basic
import Mathlib.Logic.Function.Basic

/-!
# Traffic history

`src/traffic_history.c`. A history keeps one record for every key it was given, up to its capacity.
An index with linear probing leads from a key to its record. A record has the totals of its key over
all generations of the kernel entry, and a ring with the samples of the last frames. The rates of a
row are left out, and its idle time is kept in nanoseconds.
-/

namespace Anettrace.TrafficHistory

/-- `TRAFFIC_HISTORY_SAMPLES` -/
abbrev historySamples : Nat :=
  60

/-- `TRAFFIC_HISTORY_KEY_BYTES` -/
def historyKeyBytes : Nat :=
  128

/-- The first `key_size` bytes of a key. -/
abbrev Key (keySize : Nat) :=
  List.Vector UInt8 keySize

/-- `struct traffic_display_row`, as far as the history reads it. -/
structure DisplayRow where
  rxBytes : UInt64
  txBytes : UInt64
  rxDelta : UInt64
  txDelta : UInt64
  firstSeenNs : UInt64
  lastSeenNs : UInt64
  idleNs : UInt64
  sampleValid : Bool
  archived : Bool
  deriving DecidableEq, Repr

/-- `struct traffic_history_sample`. -/
structure Sample where
  rxBytes : UInt64
  txBytes : UInt64
  available : Bool
  deriving DecidableEq, Repr

/-- A zeroed sample. -/
def Sample.unavailable : Sample :=
  ⟨0, 0, false⟩

/-- `struct traffic_history_frame`. -/
structure Frame where
  sequence : Nat
  elapsedNs : UInt64
  timestamp : List Char
  deriving DecidableEq, Repr

/-- `struct traffic_history_record`. -/
structure Record (keySize : Nat) where
  key : Key keySize
  row : DisplayRow
  samples : Fin historySamples → Sample
  bornSequence : Nat
  rxBase : UInt64
  txBase : UInt64
  rxCounter : UInt64
  txCounter : UInt64
  generation : UInt64

/-- `struct traffic_history`. The records in use are a list, and an entry of the index is the place
of a record plus one. The sequence counts sampling intervals of a second or more and does not
wrap. -/
structure History (keySize : Nat) where
  records : List (Record keySize)
  index : List Nat
  capacity : Nat
  sequence : Nat
  frames : Fin historySamples → Frame
  full : Bool

/-! ## Opening -/

/-- The doubling of the index size. -/
def growIndex : Nat → Nat → Nat → Nat
  | 0, _, size => size
  | rounds + 1, bound, size => if size < bound then growIndex rounds bound (size * 2) else size

/-- `traffic_history_open`, when memory suffices. -/
def trafficHistoryOpen (capacity keySize : Nat) : Option (History keySize) :=
  if capacity = 0 ∨ capacity > 16384 ∨ keySize = 0 ∨ keySize > historyKeyBytes then none
  else
    some
      { records := []
        index := List.replicate (growIndex (capacity * 2) (capacity * 2) 1) 0
        capacity := capacity
        sequence := 0
        frames := fun _ => ⟨0, 0, []⟩
        full := false }

variable {keySize : Nat}

/-! ## Frames -/

/-- The slot of the frame that a sequence number starts. -/
def frameSlot (sequence : Nat) : Fin historySamples :=
  ⟨sequence % historySamples, Nat.mod_lt _ (by decide)⟩

/-- What a new frame does to a record. -/
def Record.begin (record : Record keySize) (slot : Fin historySamples) (nowNs : UInt64) :
    Record keySize :=
  { record with
    samples := Function.update record.samples slot Sample.unavailable
    row :=
      { record.row with
        archived := true
        idleNs := if nowNs > record.row.lastSeenNs then nowNs - record.row.lastSeenNs else 0 } }

def trafficHistoryBegin (history : History keySize) (timestamp : List Char)
    (nowNs elapsedNs : UInt64) :
    History keySize :=
  let slot := frameSlot history.sequence
  { history with
    sequence := history.sequence + 1
    frames :=
      Function.update history.frames slot ⟨history.sequence + 1, elapsedNs, timestamp.take 19⟩
    records := history.records.map fun record => record.begin slot nowNs }

/-! ## Updates -/

/-- The slot of the current frame. Before the first frame the subtraction wraps. -/
def sampleSlot (sequence : Nat) : Fin historySamples :=
  if sequence = 0 then frameSlot (2 ^ 64 - 1) else frameSlot (sequence - 1)

/-- A snapshot of a generation that has been replaced. -/
def Record.stale (record : Record keySize) (row : DisplayRow) : Bool :=
  record.generation != 0 && row.firstSeenNs < record.generation

/-- The record before the counters of a row are taken in: a new generation counts from zero, on top
of the totals so far. -/
def Record.rebase (record : Record keySize) (row : DisplayRow) : Record keySize :=
  if record.generation ≠ 0 ∧ record.generation ≠ row.firstSeenNs then
    { record with
      rxBase := record.row.rxBytes
      txBase := record.row.txBytes
      rxCounter := 0
      txCounter := 0 }
  else record

/-- The sample of a row counts unless a counter of the row has gone back. -/
def Record.valid (record : Record keySize) (row : DisplayRow) : Bool :=
  if row.rxBytes < record.rxCounter ∨ row.txBytes < record.txCounter then false else row.sampleValid

/-- The counters of a row are taken in. -/
def Record.count (record : Record keySize) (row : DisplayRow) (sample : Fin historySamples) :
    Record keySize :=
  let valid := record.valid row
  let rxCounter := if row.rxBytes > record.rxCounter then row.rxBytes else record.rxCounter
  let txCounter := if row.txBytes > record.txCounter then row.txBytes else record.txCounter
  { record with
    rxCounter := rxCounter
    txCounter := txCounter
    generation := row.firstSeenNs
    row :=
      { row with
        rxBytes := record.rxBase + rxCounter
        txBytes := record.txBase + txCounter
        archived := false
        sampleValid := valid }
    samples := Function.update record.samples sample ⟨row.rxDelta, row.txDelta, valid⟩ }

/-- What an update does to the record of its key. -/
def Record.update (record : Record keySize) (row : DisplayRow) (sample : Fin historySamples) :
    Record keySize :=
  if record.stale row then
    { record with row := { record.row with archived := false, sampleValid := false } }
  else (record.rebase row).count row sample

/-- A zeroed record with its key. -/
def Record.fresh (key : Key keySize) (sequence : Nat) : Record keySize :=
  { key := key
    row := ⟨0, 0, 0, 0, 0, 0, 0, false, false⟩
    samples := fun _ => Sample.unavailable
    bornSequence := sequence
    rxBase := 0
    txBase := 0
    rxCounter := 0
    txCounter := 0
    generation := 0 }

def keyHash (key : Key keySize) : UInt64 :=
  key.toList.foldl (fun hash byte => (hash ^^^ byte.toUInt64) * 1099511628211) 14695981039346656037

/-- The slot at which the search for a key starts. -/
def History.homeSlot (history : History keySize) (key : Key keySize) : Nat :=
  (keyHash key).toNat &&& (history.index.length - 1)

/-- The loop over the index, up to the slot of the key or an empty one. -/
def History.probe (history : History keySize) (key : Key keySize) : Nat → Nat → Option Nat
  | 0, _ => none
  | rounds + 1, slot =>
      match history.index[slot]? with
      | some (place + 1) =>
          if history.records[place]?.map Record.key = some key then some slot
          else history.probe key rounds ((slot + 1) &&& (history.index.length - 1))
      | _ => some slot

/-- `traffic_history_update`. A result has the new history and the place of the record, or no record
if the history is full; a search that does not end has no result. -/
def trafficHistoryUpdate (history : History keySize) (key : Key keySize) (row : DisplayRow) :
    Option (History keySize × Option Nat) :=
  let sample := sampleSlot history.sequence
  match history.probe key history.index.length (history.homeSlot key) with
  | none => none
  | some slot =>
      match history.index[slot]? with
      | some (place + 1) =>
          some
            ({ history with
                records := history.records.modify place fun record => record.update row sample },
              some place)
      | _ =>
          if history.records.length = history.capacity then
            some ({ history with full := true }, none)
          else
            some
              ({ history with
                  records :=
                    history.records ++ [(Record.fresh key history.sequence).update row sample]
                  index := history.index.set slot (history.records.length + 1) },
                some history.records.length)

/-! ## Runs -/

/-- What a history is told. -/
inductive Input (keySize : Nat) where
  | begin (timestamp : List Char) (nowNs elapsedNs : UInt64)
  | update (key : Key keySize) (row : DisplayRow)

/-- One call of the history. -/
def step (history : History keySize) : Input keySize → Option (History keySize)
  | .begin timestamp nowNs elapsedNs => some (trafficHistoryBegin history timestamp nowNs elapsedNs)
  | .update key row => (trafficHistoryUpdate history key row).map Prod.fst

/-- The history after a list of inputs. -/
def run (history : History keySize) (inputs : List (Input keySize)) : Option (History keySize) :=
  inputs.foldlM step history

end Anettrace.TrafficHistory
