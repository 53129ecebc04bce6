import Anettrace.Library.Probing
import Anettrace.Library.Table
import Anettrace.TrafficHistory.Model

/-!
# Integrity of the record table

The index is a table with linear probing whose cells hold the keys of the records. In every history
that can be reached it has room left, and no empty slot lies between the home of a key and its slot:
a search ends, at the one record of its key if there is one.
-/

namespace Anettrace.TrafficHistory

open Library.Probing (Reachable)

variable {keySize : Nat} {history history' : History keySize} {key : Key keySize}

/-! ## The index as cells -/

/-- The key that an entry of the index leads to. -/
def entryKey (records : List (Record keySize)) : Nat → Option (Key keySize)
  | 0 => none
  | place + 1 => records[place]?.map Record.key

/-- The index, with the keys its entries lead to. -/
def History.cells (history : History keySize) : List (Option (Key keySize)) :=
  history.index.map (entryKey history.records)

@[simp] theorem cells_length : history.cells.length = history.index.length :=
  List.length_map _

theorem cells_getElem? (slot : Nat) :
    history.cells[slot]? = history.index[slot]?.map (entryKey history.records) :=
  List.getElem?_map

theorem cells_congr (hindex : history'.index = history.index)
    (hkeys : history'.records.map Record.key = history.records.map Record.key) :
    history'.cells = history.cells := by
  unfold History.cells
  rw [hindex]
  refine List.map_congr_left fun entry _ => ?_
  cases entry with
  | zero => rfl
  | succ place =>
      have hplace := congrArg (·[place]?) hkeys
      simpa [entryKey] using hplace

/-- What holds in every history that can be reached. -/
structure Sound (history : History keySize) : Prop where
  size : ∃ bits, history.index.length = 2 ^ bits
  room : history.capacity * 2 ≤ history.index.length
  positive : 0 < history.capacity
  within : history.records.length ≤ history.capacity
  entries : ∀ entry ∈ history.index, entry ≤ history.records.length
  used : history.index.countP (0 < ·) = history.records.length
  distinct : (history.records.map Record.key).Nodup
  indexed : ∀ record ∈ history.records, some record.key ∈ history.cells
  reachable : Reachable history.homeSlot history.cells

namespace Sound

section

variable (h : Sound history)
include h

theorem homeSlot_lt (key : Key keySize) :
    history.homeSlot key < history.index.length := by
  obtain ⟨bits, hbits⟩ := h.size
  unfold History.homeSlot
  rw [hbits, Nat.and_two_pow_sub_one_eq_mod]
  exact Nat.mod_lt _ (Nat.two_pow_pos bits)

theorem next_slot (slot : Nat) :
    (slot + 1) &&& (history.index.length - 1) = (slot + 1) % history.index.length := by
  obtain ⟨bits, hbits⟩ := h.size
  rw [hbits, Nat.and_two_pow_sub_one_eq_mod]

/-- The loop is the search of the cells. -/
theorem probe_eq (rounds slot : Nat) :
    history.probe key rounds slot = Library.Probing.probe history.cells key rounds slot := by
  induction rounds generalizing slot with
  | zero => rfl
  | succ rounds ih =>
      rw [History.probe, Library.Probing.probe, cells_getElem?]
      cases hentry : history.index[slot]? with
      | none => rfl
      | some entry =>
          cases entry with
          | zero => rfl
          | succ place =>
              have hlt : place < history.records.length := h.entries _ (List.mem_of_getElem? hentry)
              rw [h.next_slot, ih, cells_length]
              simp [entryKey, List.getElem?_eq_getElem hlt]

/-- Some slot is empty. -/
theorem has_empty : none ∈ history.cells := by
  have hless : history.index.countP (0 < ·) < history.index.length := by
    have := h.used
    have := h.within
    have := h.room
    have := h.positive
    omega
  obtain ⟨entry, hmem, hzero⟩ : ∃ entry ∈ history.index, ¬ 0 < entry := by
    by_contra hnone
    push Not at hnone
    exact Nat.ne_of_lt hless (List.countP_eq_length.mpr fun entry hmem => by
      simpa using hnone entry hmem)
  obtain rfl : entry = 0 := Nat.eq_zero_of_not_pos hzero
  exact List.mem_map.mpr ⟨0, hmem, rfl⟩

theorem probe_ends (key : Key keySize) :
    ∃ slot, history.probe key history.index.length (history.homeSlot key) = some slot := by
  have hlt : history.homeSlot key < history.cells.length := cells_length ▸ h.homeSlot_lt key
  rw [h.probe_eq, ← cells_length]
  exact Library.Probing.probe_total hlt h.has_empty

theorem mem_cells_iff :
    some key ∈ history.cells ↔ ∃ record ∈ history.records, record.key = key := by
  constructor
  · intro hmem
    obtain ⟨entry, -, hentry⟩ := List.mem_map.mp hmem
    cases entry with
    | zero => cases hentry
    | succ place =>
        obtain ⟨record, hrecord, hkey⟩ := Option.map_eq_some_iff.mp hentry
        exact ⟨record, List.mem_of_getElem? hrecord, hkey⟩
  · rintro ⟨record, hmem, rfl⟩
    exact h.indexed record hmem

/-- A change of the records that keeps their keys. -/
theorem congr (hindex : history'.index = history.index)
    (hcapacity : history'.capacity = history.capacity)
    (hkeys : history'.records.map Record.key = history.records.map Record.key) :
    Sound history' := by
  have hcells := cells_congr hindex hkeys
  have hlength : history'.records.length = history.records.length := by
    simpa using congrArg List.length hkeys
  have hhome : history'.homeSlot = history.homeSlot := by
    unfold History.homeSlot
    rw [hindex]
  refine
    { size := hindex ▸ h.size
      room := by rw [hindex, hcapacity]; exact h.room
      positive := hcapacity ▸ h.positive
      within := by rw [hlength, hcapacity]; exact h.within
      entries := by rw [hindex, hlength]; exact h.entries
      used := by rw [hindex, hlength]; exact h.used
      distinct := hkeys ▸ h.distinct
      indexed := ?_
      reachable := by rw [hhome, hcells]; exact h.reachable }
  intro record hmem
  have hkey : record.key ∈ history.records.map Record.key := hkeys ▸ List.mem_map_of_mem hmem
  obtain ⟨old, hold, hsame⟩ := List.mem_map.mp hkey
  rw [hcells, ← hsame]
  exact h.indexed old hold

end

end Sound

/-! ## One input -/

@[simp] theorem Record.update_key (record : Record keySize) (row : DisplayRow)
    (sample : Fin historySamples) : (record.update row sample).key = record.key := by
  unfold Record.update Record.count Record.rebase
  split
  · rfl
  · split
    · rfl
    · rfl

theorem entryKey_append {records : List (Record keySize)} (record : Record keySize) {entry : Nat}
    (h : entry ≤ records.length) : entryKey (records ++ [record]) entry =
    entryKey records entry := by
  cases entry with
  | zero => rfl
  | succ place =>
      show (records ++ [record])[place]?.map Record.key = records[place]?.map Record.key
      rw [List.getElem?_append_left h]

/-- The three outcomes of an update: the record of the key changes, the history is full, or the key
gets a record. -/
inductive Outcome (history : History keySize) (key : Key keySize) (row : DisplayRow) :
    History keySize → Option Nat → Prop
  | found (place : Nat) (record : Record keySize) (hrecord : history.records[place]? = some record)
      (hkey : record.key = key) :
      Outcome history key row
        { history with
          records := history.records.set place (record.update row (sampleSlot history.sequence)) }
        (some place)
  | full (hnew : ∀ record ∈ history.records, record.key ≠ key)
      (hfull : history.records.length = history.capacity) :
      Outcome history key row { history with full := true } none
  | inserted (slot : Nat) (hnew : ∀ record ∈ history.records, record.key ≠ key)
      (hroom : history.records.length < history.capacity)
      (hslot : Library.Probing.probe history.cells key history.index.length (history.homeSlot key) =
        some slot) :
      Outcome history key row
        { history with
          records := history.records ++
            [(Record.fresh key history.sequence).update row (sampleSlot history.sequence)]
          index := history.index.set slot (history.records.length + 1) }
        (some history.records.length)

/-- An update ends with one of the three outcomes. -/
theorem update_outcome (h : Sound history) (key : Key keySize) (row : DisplayRow) :
    ∃ result place, trafficHistoryUpdate history key row = some (result, place) ∧
      Outcome history key row result place := by
  obtain ⟨slot, hslot⟩ := h.probe_ends key
  have hprobe := hslot
  rw [h.probe_eq] at hprobe
  have hhome : history.homeSlot key < history.cells.length := cells_length ▸ h.homeSlot_lt key
  have hlt : slot < history.index.length := cells_length ▸ Library.Probing.probe_lt hhome hprobe
  unfold trafficHistoryUpdate
  rw [hslot]
  dsimp only
  have hentry : history.index[slot]? = some history.index[slot] := List.getElem?_eq_getElem hlt
  by_cases hstored : some key ∈ history.cells
  · have hcell := Library.Probing.probe_stored h.reachable hhome hstored hprobe
    rw [cells_getElem?, hentry] at hcell
    rw [hentry]
    cases hvalue : history.index[slot] with
    | zero =>
        rw [hvalue] at hcell
        cases hcell
    | succ place =>
        rw [hvalue] at hcell
        obtain ⟨record, hrecord, hkey⟩ := Option.map_eq_some_iff.mp (Option.some.inj hcell)
        refine ⟨_, _, rfl, ?_⟩
        rw [List.modify_eq_set_getElem?, hrecord]
        exact Outcome.found place record hrecord hkey
  · have hcell := Library.Probing.probe_fresh hhome hstored hprobe
    rw [cells_getElem?, hentry] at hcell
    have hnew : ∀ record ∈ history.records, record.key ≠ key := fun record hmem heq =>
      hstored (h.mem_cells_iff.mpr ⟨record, hmem, heq⟩)
    rw [hentry]
    cases hvalue : history.index[slot] with
    | zero =>
        dsimp only
        by_cases hfull : history.records.length = history.capacity
        · rw [if_pos hfull]
          exact ⟨_, _, rfl, Outcome.full hnew hfull⟩
        · rw [if_neg hfull]
          exact ⟨_, _, rfl, Outcome.inserted slot hnew (Nat.lt_of_le_of_ne h.within hfull) hprobe⟩
    | succ place =>
        have hle : place < history.records.length := by
          have := h.entries _ (List.getElem_mem hlt)
          omega
        rw [hvalue] at hcell
        simp [entryKey, List.getElem?_eq_getElem hle] at hcell

theorem Outcome.key_of_place {row : DisplayRow} {place : Option Nat} {i : Nat}
    (h : Outcome history key row history' place) (hplace : place = some i) :
    ∃ record, history'.records[i]? = some record ∧ record.key = key := by
  cases h with
  | found j record hrecord hkey =>
      cases hplace
      have hlt := (List.getElem?_eq_some_iff.mp hrecord).1
      exact ⟨_, List.getElem?_set_self hlt, by rw [Record.update_key, hkey]⟩
  | full => cases hplace
  | inserted slot =>
      cases hplace
      exact ⟨_, List.getElem?_concat_length, Record.update_key _ _ _⟩

theorem Outcome.keys_prefix {row : DisplayRow} {place : Option Nat}
    (h : Outcome history key row history' place) :
    history.records.map Record.key <+: history'.records.map Record.key := by
  cases h with
  | found j record hrecord hkey =>
      rw [Library.Table.map_set Record.key hrecord (Record.update_key _ _ _)]
  | full => exact List.prefix_refl _
  | inserted slot =>
      rw [List.map_append]
      exact List.prefix_append _ _

theorem cells_inserted {record : Record keySize} {slot : Nat} (h : Sound history)
    (hkey : record.key = key) :
    (History.cells
      { history with
        records := history.records ++ [record]
        index := history.index.set slot (history.records.length + 1) }) =
      history.cells.set slot (some key) := by
  have hnew : entryKey (history.records ++ [record]) (history.records.length + 1) = some key := by
    show (history.records ++ [record])[history.records.length]?.map Record.key = some key
    rw [List.getElem?_concat_length, ← hkey]
    rfl
  unfold History.cells
  rw [List.map_set, hnew]
  congr 1
  exact List.map_congr_left fun entry hmem => entryKey_append record (h.entries entry hmem)

/-- A new record keeps the table sound. -/
theorem Sound.inserted {record : Record keySize} {slot : Nat} (h : Sound history)
    (hkey : record.key = key) (hnew : ∀ record ∈ history.records, record.key ≠ key)
    (hroom : history.records.length < history.capacity)
    (hslot : Library.Probing.probe history.cells key history.index.length (history.homeSlot key) =
      some slot) :
    Sound
      { history with
        records := history.records ++ [record]
        index := history.index.set slot (history.records.length + 1) } := by
  have hhome : history.homeSlot key < history.cells.length := cells_length ▸ h.homeSlot_lt key
  have hlt : slot < history.index.length := cells_length ▸ Library.Probing.probe_lt hhome hslot
  have hfresh : some key ∉ history.cells := fun hmem => by
    obtain ⟨old, hold, heq⟩ := h.mem_cells_iff.mp hmem
    exact hnew old hold heq
  have hcells := @cells_inserted _ _ _ record slot h hkey
  have hzero : history.index[slot] = 0 := by
    have hcell := Library.Probing.probe_fresh hhome hfresh hslot
    rw [cells_getElem?, List.getElem?_eq_getElem hlt] at hcell
    cases hvalue : history.index[slot] with
    | zero => rfl
    | succ place =>
        have hle : place < history.records.length := by
          have := h.entries _ (List.getElem_mem hlt)
          omega
        rw [hvalue] at hcell
        simp [entryKey, List.getElem?_eq_getElem hle] at hcell
  have hreachable := Library.Probing.reachable_insert h.reachable hhome hfresh hslot
  refine
    { size := by simpa using h.size
      room := by simpa using h.room
      positive := h.positive
      within := by simpa [Nat.succ_le_iff] using hroom
      entries := ?_
      used := ?_
      distinct := ?_
      indexed := ?_
      reachable := ?_ }
  · intro entry hmem
    rw [List.length_append, List.length_singleton]
    rcases List.mem_or_eq_of_mem_set hmem with hold | rfl
    · exact Nat.le_succ_of_le (h.entries entry hold)
    · exact Nat.le_refl _
  · have hused := h.used
    rw [List.countP_set hlt, hzero, List.length_append, List.length_singleton]
    simp [hused]
  · rw [List.map_append, List.nodup_append]
    refine ⟨h.distinct, List.nodup_singleton _, ?_⟩
    rintro _ hold _ hsingle rfl
    obtain ⟨old, hmem, heq⟩ := List.mem_map.mp hold
    rw [List.mem_singleton.mp hsingle, hkey] at heq
    exact hnew old hmem heq
  · intro stored hmem
    rw [hcells]
    rcases List.mem_append.mp hmem with hold | hsingle
    · have hcell := h.indexed stored hold
      rw [List.mem_iff_getElem?] at hcell ⊢
      obtain ⟨other, hother⟩ := hcell
      refine ⟨other, ?_⟩
      rw [List.getElem?_set_ne, hother]
      rintro rfl
      rw [cells_getElem?, List.getElem?_eq_getElem hlt, hzero] at hother
      cases hother
    · rw [List.mem_singleton.mp hsingle, hkey]
      exact List.mem_set (cells_length ▸ hlt) _
  · rw [hcells]
    unfold History.homeSlot
    rw [List.length_set]
    exact hreachable

/-- An update keeps the table sound, whatever its outcome. -/
theorem Sound.outcome {row : DisplayRow} {place : Option Nat} (h : Sound history)
    (houtcome : Outcome history key row history' place) : Sound history' := by
  cases houtcome with
  | found j record hrecord hkey =>
      exact h.congr rfl rfl (Library.Table.map_set Record.key hrecord (Record.update_key _ _ _))
  | full => exact h.congr rfl rfl rfl
  | inserted slot hnew hroom hslot => exact h.inserted (Record.update_key _ _ _) hnew hroom hslot

/-- A frame keeps the table sound. -/
theorem Sound.begin (h : Sound history) (timestamp : List Char) (nowNs elapsedNs : UInt64) :
    Sound (trafficHistoryBegin history timestamp nowNs elapsedNs) := by
  refine h.congr rfl rfl ?_
  show (history.records.map _).map Record.key = history.records.map Record.key
  rw [List.map_map]
  rfl

end Anettrace.TrafficHistory
