import Anettrace.Library.BackInsertion
import Anettrace.Library.Numbers
import Anettrace.Library.Table

/-!
# The list of the polling thread

`do_async_poll` of `src/analysis.c` copies each record that arrives and inserts it into a list by
its time, and the polling thread takes the list as a whole. The time of every record is read where
`event_t` has it. A return record is shorter: it has its own time in front, and where the time of an
event would be there is what follows the record in memory.
-/

namespace Anettrace.Analysis

open Library

/-- `offsetof(event_t, pkt.ts)`, which is also where `tiny_event_t` has its time. -/
def eventTsOffset : Nat := 24

/-- `offsetof(retevent_t, ts)`; the structure is packed and has 24 bytes. -/
def retTsOffset : Nat := 8

def funcTypeRet : Nat := 1

/-- `data_list_t`: the memory from `data` on, and how many records arrived before. -/
structure DataList where
  arrival : Nat
  data : Nat → UInt8

def DataList.numberAt (record : DataList) (width offset : Nat) : Nat :=
  ofLittleEndian ((List.range width).map fun place => record.data (offset + place))

def DataList.pktTs (record : DataList) : Nat :=
  record.numberAt 8 eventTsOffset

def DataList.ownTs (record : DataList) : Nat :=
  if record.numberAt 2 0 = funcTypeRet then record.numberAt 8 retTsOffset
  else record.numberAt 8 eventTsOffset

def analyDlistAdd (list : List DataList) (record : DataList) : List DataList :=
  insertBack DataList.pktTs list record

def arrived (records : List (Nat → UInt8)) : List DataList :=
  records.zipIdx.map fun entry => ⟨entry.2, entry.1⟩

/-- What the polling thread drains after the records arrived in this order. -/
def drained (records : List (Nat → UInt8)) : List DataList :=
  (arrived records).foldl analyDlistAdd []

def InTimeOrder (records : List (Nat → UInt8)) (list : List DataList) : Prop :=
  list.Perm (arrived records) ∧ list.Pairwise fun first second =>
    first.ownTs < second.ownTs ∨ (first.ownTs = second.ownTs ∧ first.arrival < second.arrival)

theorem mem_arrived {records : List (Nat → UInt8)} {record : DataList} :
    record ∈ arrived records ↔ records[record.arrival]? = some record.data := by
  unfold arrived
  rw [List.mem_map]
  constructor
  · rintro ⟨⟨data, place⟩, hmem, rfl⟩
    exact List.mem_zipIdx_iff_getElem?.mp hmem
  · intro h
    exact ⟨(record.data, record.arrival), List.mem_zipIdx_iff_getElem?.mpr h, rfl⟩

section

variable (records : List (Nat → UInt8))

theorem arrived_concat (data : Nat → UInt8) :
    arrived (records ++ [data]) = arrived records ++ [⟨records.length, data⟩] := by
  unfold arrived
  rw [List.zipIdx_append, List.map_append]
  simp

theorem arrived_order :
    (arrived records).Pairwise fun first second => first.arrival < second.arrival := by
  unfold arrived
  rw [List.pairwise_map]
  have hplaces : (records.zipIdx.map Prod.snd).Pairwise (· < ·) := by
    rw [List.zipIdx_map_snd]
    exact List.pairwise_lt_range'
  exact List.pairwise_map.mp hplaces

theorem drained_perm : (drained records).Perm (arrived records) :=
  foldl_insertBack_perm DataList.pktTs (arrived records) []

theorem drained_order :
    (drained records).Pairwise (BackOrder DataList.pktTs DataList.arrival) :=
  foldl_insertBack_order List.Pairwise.nil (arrived_order records) fun _ h =>
    (List.not_mem_nil h).elim

end

theorem mem_drained {records : List (Nat → UInt8)} {record : DataList} :
    record ∈ drained records ↔ records[record.arrival]? = some record.data :=
  (drained_perm records).mem_iff.trans mem_arrived

theorem drained_in_time_order {records : List (Nat → UInt8)}
    (h : ∀ i j, i < j → ∀ first second, records[i]? = some first → records[j]? = some second →
      ((DataList.mk i first).ownTs ≤ (DataList.mk j second).ownTs ↔
        (DataList.mk i first).pktTs < (DataList.mk j second).pktTs)) :
    InTimeOrder records (drained records) := by
  refine ⟨drained_perm records, List.Pairwise.imp_of_mem ?_ (drained_order records)⟩
  rintro ⟨i, first⟩ ⟨j, second⟩ hfirst hsecond hkey
  have hfirst := mem_drained.mp hfirst
  have hsecond := mem_drained.mp hsecond
  rcases Nat.lt_trichotomy i j with hlt | rfl | hgt
  · have hless : (DataList.mk i first).pktTs < (DataList.mk j second).pktTs :=
      hkey.resolve_right fun hor => Nat.lt_asymm hlt hor.2
    rcases lt_or_eq_of_le ((h i j hlt first second hfirst hsecond).mpr hless) with hown | hown
    · exact .inl hown
    · exact .inr ⟨hown, hlt⟩
  · rcases hkey with hless | ⟨-, hless⟩
    · obtain rfl : first = second := Option.some.inj (hfirst.symm.trans hsecond)
      exact absurd hless (lt_irrefl _)
    · exact absurd hless (lt_irrefl _)
  · have hle : ¬(DataList.mk j second).pktTs < (DataList.mk i first).pktTs := by
      refine not_lt.mpr ?_
      rcases hkey with hless | ⟨heq, -⟩
      · exact le_of_lt hless
      · exact le_of_eq heq
    exact .inl (not_le.mp (mt (h j i hgt second first hsecond hfirst).mp hle))

theorem drained_events {records : List (Nat → UInt8)}
    (hevents : ∀ data ∈ records, (DataList.mk 0 data).numberAt 2 0 ≠ funcTypeRet)
    (htimes : (records.map fun data => (DataList.mk 0 data).ownTs).Nodup) :
    InTimeOrder records (drained records) := by
  refine drained_in_time_order fun i j hlt first second hfirst hsecond => ?_
  have hown : ∀ place data, data ∈ records → (DataList.mk place data).ownTs =
      (DataList.mk place data).pktTs :=
    fun place data hmem => if_neg (hevents data hmem)
  have hne : (DataList.mk i first).ownTs ≠ (DataList.mk j second).ownTs := fun heq =>
    Nat.ne_of_lt hlt (Table.nodup_places htimes hfirst hsecond heq)
  rw [← hown i first (List.mem_of_getElem? hfirst), ← hown j second (List.mem_of_getElem? hsecond)]
  exact ⟨fun hle => lt_of_le_of_ne hle hne, le_of_lt⟩

/-- The drained list is in the order of the times exactly when, of any two records, the one that
arrived first has no later time if and only if it has a smaller number where an event has its time.
Of two event records this says that their times differ; a return record must happen to be followed
by a number that stands to the others as its time does. -/
theorem drained_in_time_order_iff (records : List (Nat → UInt8)) :
    InTimeOrder records (drained records) ↔
      ∀ i j, i < j → ∀ first second, records[i]? = some first → records[j]? = some second →
        ((DataList.mk i first).ownTs ≤ (DataList.mk j second).ownTs ↔
          (DataList.mk i first).pktTs < (DataList.mk j second).pktTs) := by
  refine ⟨?_, drained_in_time_order⟩
  -- both orders order the pair, and in the same way
  rintro ⟨-, hown⟩ i j hlt first second hfirst hsecond
  have hne : DataList.mk i first ≠ DataList.mk j second := fun heq =>
    Nat.ne_of_lt hlt (congrArg DataList.arrival heq)
  rcases pairwise_cases (hown.and (drained_order records)) (mem_drained.mpr hfirst)
      (mem_drained.mpr hsecond) hne with ⟨htime, hkey⟩ | ⟨htime, hkey⟩
  · refine iff_of_true ?_ ?_
    · rcases htime with h | h
      · exact le_of_lt h
      · exact le_of_eq h.1
    · rcases hkey with h | h
      · exact h
      · exact absurd h.2 (Nat.lt_asymm hlt)
  · refine iff_of_false (not_le.mpr ?_) (not_lt.mpr ?_)
    · rcases htime with h | h
      · exact h
      · exact absurd h.2 (Nat.lt_asymm hlt)
    · rcases hkey with h | h
      · exact le_of_lt h
      · exact le_of_eq h.1

def entryRecord (place : Nat) : UInt8 :=
  [0, 0, 5, 0, 0, 0, 0, 0, 0, 0x10, 0, 0, 0, 0, 0, 0, 0, 0, 0, 0, 0, 0, 0, 0, 100].getD place 0

/-- Its return record of time 200, with nothing but zeros behind it. -/
def returnRecord (place : Nat) : UInt8 :=
  [1, 0, 5, 0, 7, 0, 0, 0, 200].getD place 0

/-- A return is handled before its entry. -/
theorem return_before_entry :
    ¬InTimeOrder [entryRecord, returnRecord] (drained [entryRecord, returnRecord]) := by
  have hdrained : drained [entryRecord, returnRecord] = [⟨1, returnRecord⟩, ⟨0, entryRecord⟩] := by
    show (if DataList.pktTs ⟨0, entryRecord⟩ < DataList.pktTs ⟨1, returnRecord⟩ then
      [DataList.mk 1 returnRecord, ⟨0, entryRecord⟩]
        else [⟨0, entryRecord⟩, ⟨1, returnRecord⟩]).reverse = _
    rw [if_neg (by decide)]
    rfl
  rw [hdrained]
  rintro ⟨-, htimes⟩
  have hpair := (List.pairwise_cons.mp htimes).1 ⟨0, entryRecord⟩ List.mem_cons_self
  exact absurd hpair (by decide)

end Anettrace.Analysis
