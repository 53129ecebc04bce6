import Anettrace.TrafficHistory.Ledger
import Mathlib.Algebra.BigOperators.Group.Finset.Basic
import Mathlib.Order.Lattice

/-!
# Cumulative totals

The totals of a record are sums over the generations of its kernel entry: each generation
contributes the largest counter that was accepted for it. A row is accepted unless a later
generation has been seen before.
-/

namespace Anettrace.TrafficHistory

variable {capacity keySize : Nat} {opened history : History keySize} {key : Key keySize}
  {inputs : List (Input keySize)} {record : Record keySize} {row : DisplayRow}
  {seen rows : List DisplayRow}

/-! ## The two directions -/

/-- The directions of traffic. -/
inductive Direction where
  | rx
  | tx

namespace Direction

/-- The bytes of a row. -/
def bytes : Direction → DisplayRow → UInt64
  | rx => DisplayRow.rxBytes
  | tx => DisplayRow.txBytes

/-- The bytes of the generations before. -/
def base : Direction → Record keySize → UInt64
  | rx => Record.rxBase
  | tx => Record.txBase

/-- The last counter of the generation. -/
def counter : Direction → Record keySize → UInt64
  | rx => Record.rxCounter
  | tx => Record.txCounter

end Direction

variable (direction : Direction)

theorem count_base (sample : Fin historySamples) :
    direction.base (record.count row sample) = direction.base record := by
  cases direction with
  | rx => rfl
  | tx => rfl

theorem count_counter (sample : Fin historySamples) :
    direction.counter (record.count row sample) =
      if direction.bytes row > direction.counter record then direction.bytes row
      else direction.counter record := by
  cases direction with
  | rx => rfl
  | tx => rfl

theorem count_bytes (sample : Fin historySamples) :
    direction.bytes (record.count row sample).row =
      direction.base (record.count row sample) + direction.counter (record.count row sample) := by
  cases direction with
  | rx => rfl
  | tx => rfl

/-- A new generation counts from zero on top of the totals so far. -/
theorem rebase_new (h : record.generation ≠ 0 ∧ record.generation ≠ row.firstSeenNs) :
    direction.base (record.rebase row) = direction.bytes record.row ∧
      direction.counter (record.rebase row) = 0 := by
  unfold Record.rebase
  rw [if_pos h]
  cases direction with
  | rx => exact ⟨rfl, rfl⟩
  | tx => exact ⟨rfl, rfl⟩

theorem rebase_same (h : ¬ (record.generation ≠ 0 ∧ record.generation ≠ row.firstSeenNs)) :
    record.rebase row = record :=
  if_neg h

/-! ## Sums over generations -/

/-- No accepted row has a later generation. -/
def accepts (seen : List DisplayRow) (row : DisplayRow) : Bool :=
  seen.all fun earlier => earlier.firstSeenNs ≤ row.firstSeenNs

/-- The rows that are accepted. -/
def acceptedRows (rows : List DisplayRow) : List DisplayRow :=
  rows.foldl (fun seen row => if accepts seen row then seen ++ [row] else seen) []

/-- The generations of some rows. -/
def generations (seen : List DisplayRow) : Finset UInt64 :=
  (seen.map DisplayRow.firstSeenNs).toFinset

/-- The largest counter of a generation. -/
def largest (direction : Direction) (seen : List DisplayRow) (generation : UInt64) : Nat :=
  ((seen.filter fun row => row.firstSeenNs = generation).map fun row =>
    (direction.bytes row).toNat).foldl max 0

/-- The sum of the largest accepted counters. -/
def total (direction : Direction) (rows : List DisplayRow) : Nat :=
  ∑ generation ∈ generations (acceptedRows rows), largest direction (acceptedRows rows) generation

/-- The sum over all generations but one. -/
def others (direction : Direction) (seen : List DisplayRow) (generation : UInt64) : Nat :=
  ∑ other ∈ (generations seen).erase generation, largest direction seen other

theorem acceptedRows_concat :
    acceptedRows (rows ++ [row]) =
      if accepts (acceptedRows rows) row then acceptedRows rows ++ [row] else acceptedRows rows :=
  List.foldl_concat _ _ _ _

theorem generations_concat : generations (seen ++ [row]) =
    insert row.firstSeenNs (generations seen) := by
  ext generation
  simp [generations]

theorem largest_concat (generation : UInt64) :
    largest direction (seen ++ [row]) generation =
      if row.firstSeenNs = generation then
        max (largest direction seen generation) (direction.bytes row).toNat
      else largest direction seen generation := by
  unfold largest
  by_cases h : row.firstSeenNs = generation
  · simp [h, List.filter_append]
  · simp [h, List.filter_append]

/-- A generation without rows has no bytes. -/
theorem largest_of_not_mem {generation : UInt64} (h : generation ∉ generations seen) :
    largest direction seen generation = 0 := by
  have hnone : seen.filter (fun row => row.firstSeenNs = generation) = [] := by
    refine List.filter_eq_nil_iff.mpr fun row hmem heq => h ?_
    rw [generations, List.mem_toFinset]
    exact List.mem_map.mpr ⟨row, hmem, by simpa using heq⟩
  rw [largest, hnone]
  rfl

theorem sum_split (generation : UInt64) :
    ∑ other ∈ generations seen, largest direction seen other =
      others direction seen generation + largest direction seen generation := by
  by_cases hmem : generation ∈ generations seen
  · exact (Finset.sum_erase_add _ _ hmem).symm
  · rw [others, Finset.erase_eq_of_notMem hmem, largest_of_not_mem direction hmem, Nat.add_zero]

/-- The other generations of a row stay. -/
theorem others_concat :
    others direction (seen ++ [row]) row.firstSeenNs = others direction seen row.firstSeenNs := by
  unfold others
  rw [generations_concat, Finset.erase_insert_eq_erase]
  refine Finset.sum_congr rfl fun other hmem => ?_
  rw [largest_concat, if_neg (Finset.ne_of_mem_erase hmem).symm]

/-- One more row does not make the sum smaller. -/
theorem total_le_concat : total direction rows ≤ total direction (rows ++ [row]) := by
  unfold total
  rw [acceptedRows_concat]
  split
  · rw [sum_split direction row.firstSeenNs, sum_split direction row.firstSeenNs, others_concat,
      largest_concat, if_pos rfl]
    exact Nat.add_le_add_left (Nat.le_max_left _ _) _
  · exact Nat.le_refl _

/-! ## The totals of a record -/

/-- The totals of a record after some accepted rows. -/
structure Counted (seen : List DisplayRow) (record : Record keySize) : Prop where
  positive : ∀ row ∈ seen, row.firstSeenNs ≠ 0
  newest : ∀ row ∈ seen, row.firstSeenNs ≤ record.generation
  generation : record.generation = 0 ∨ record.generation ∈ generations seen
  counter : ∀ direction : Direction,
    (direction.counter record).toNat = largest direction seen record.generation
  base : ∀ direction : Direction, (direction.base record).toNat =
    others direction seen record.generation
  bytes : ∀ direction : Direction, (direction.bytes record.row).toNat =
    ∑ generation ∈ generations seen, largest direction seen generation

theorem Counted.fresh (key : Key keySize) (sequence : Nat) :
    Counted [] (Record.fresh key sequence) := by
  refine ⟨List.forall_mem_nil _, List.forall_mem_nil _, Or.inl rfl, fun direction => ?_,
    fun direction => ?_, fun direction => ?_⟩
  all_goals
    cases direction with
    | rx => rfl
    | tx => rfl

theorem Counted.stale_iff (h : Counted seen record) : record.stale row = !accepts seen row := by
  unfold Record.stale accepts
  rw [Bool.eq_iff_iff]
  simp only [Bool.and_eq_true, bne_iff_ne, decide_eq_true_eq, Bool.not_eq_true', List.all_eq_false,
    UInt64.not_le]
  constructor
  · rintro ⟨hsome, hless⟩
    obtain ⟨earlier, hmem, heq⟩ :=
      List.mem_map.mp (List.mem_toFinset.mp (h.generation.resolve_left hsome))
    exact ⟨earlier, hmem, heq ▸ hless⟩
  · rintro ⟨earlier, hmem, hless⟩
    have hlater : row.firstSeenNs < record.generation :=
      UInt64.lt_of_lt_of_le hless (h.newest earlier hmem)
    refine ⟨?_, hlater⟩
    rintro hzero
    rw [hzero] at hlater
    exact absurd hlater UInt64.not_lt_zero

/-- The larger of two counters. -/
theorem toNat_pick (first second : UInt64) :
    (if first > second then first else second).toNat = max second.toNat first.toNat := by
  split
  · rename_i h
    exact (Nat.max_eq_right (Nat.le_of_lt h)).symm
  · rename_i h
    exact (Nat.max_eq_left (Nat.le_of_not_lt h)).symm

/-- A row that is accepted is counted, as long as the sums stay in range. -/
theorem Counted.count (h : Counted seen record) (sample : Fin historySamples)
    (hpositive : row.firstSeenNs ≠ 0) (haccepts : accepts seen row)
    (hrange : ∀ direction : Direction,
      ∑ generation ∈ generations (seen ++ [row]), largest direction (seen ++ [row]) generation <
        2 ^ 64) :
    Counted (seen ++ [row]) ((record.rebase row).count row sample) := by
  have hnewest : ∀ earlier ∈ seen, earlier.firstSeenNs ≤ row.firstSeenNs := fun earlier hmem => by
    simpa using List.all_eq_true.mp haccepts earlier hmem
  have hparts (direction : Direction) :
      (direction.base (record.rebase row)).toNat = others direction seen row.firstSeenNs ∧
        (direction.counter (record.rebase row)).toNat = largest direction seen row.firstSeenNs := by
    by_cases hnew : record.generation ≠ 0 ∧ record.generation ≠ row.firstSeenNs
    · have hmem : row.firstSeenNs ∉ generations seen := fun hmem => by
        obtain ⟨earlier, hearlier, heq⟩ := List.mem_map.mp (List.mem_toFinset.mp hmem)
        obtain ⟨last, hlast, hgeneration⟩ :=
          List.mem_map.mp (List.mem_toFinset.mp (h.generation.resolve_left hnew.1))
        have hle := h.newest earlier hearlier
        rw [heq] at hle
        exact hnew.2 (UInt64.le_antisymm (hgeneration ▸ hnewest last hlast) hle)
      obtain ⟨hbase, hcounter⟩ := rebase_new direction hnew
      rw [hbase, hcounter, h.bytes, sum_split direction row.firstSeenNs,
        largest_of_not_mem direction hmem]
      exact ⟨rfl, rfl⟩
    · rw [rebase_same hnew, h.base, h.counter]
      by_cases hzero : record.generation = 0
      · -- Nothing has been counted yet.
        have hempty : seen = [] := by
          refine List.eq_nil_iff_forall_not_mem.mpr fun earlier hmem => ?_
          have hle := h.newest earlier hmem
          rw [hzero] at hle
          exact h.positive earlier hmem (UInt64.le_zero_iff.mp hle)
        subst hempty
        exact ⟨rfl, rfl⟩
      · have hsame : record.generation = row.firstSeenNs := by
          by_contra hne
          exact hnew ⟨hzero, hne⟩
        rw [hsame]
        exact ⟨rfl, rfl⟩
  have hbase (direction : Direction) :
      (direction.base ((record.rebase row).count row sample)).toNat =
        others direction (seen ++ [row]) row.firstSeenNs := by
    rw [count_base, (hparts direction).1, others_concat]
  have hcounter (direction : Direction) :
      (direction.counter ((record.rebase row).count row sample)).toNat =
        largest direction (seen ++ [row]) row.firstSeenNs := by
    rw [count_counter, toNat_pick, (hparts direction).2, largest_concat, if_pos rfl]
  refine ⟨?_, ?_, Or.inr ?_, hcounter, hbase, fun direction => ?_⟩
  · exact List.forall_mem_append.mpr ⟨h.positive, List.forall_mem_singleton.mpr hpositive⟩
  · exact List.forall_mem_append.mpr ⟨hnewest, List.forall_mem_singleton.mpr (UInt64.le_refl _)⟩
  · rw [generations_concat]
    exact Finset.mem_insert_self _ _
  · have hsum := hrange direction
    rw [sum_split direction row.firstSeenNs, ← hbase direction, ← hcounter direction] at hsum ⊢
    rw [count_bytes, UInt64.toNat_add, Nat.mod_eq_of_lt hsum]

/-- What has been counted depends on the counters and the totals alone. -/
theorem Counted.congr {record' : Record keySize} (h : Counted seen record)
    (hgeneration : record'.generation = record.generation)
    (hsame : ∀ direction : Direction, direction.counter record' = direction.counter record ∧
      direction.base record' = direction.base record ∧
      direction.bytes record'.row = direction.bytes record.row) : Counted seen record' := by
  refine ⟨h.positive, hgeneration ▸ h.newest, hgeneration ▸ h.generation, fun direction => ?_,
    fun direction => ?_, fun direction => ?_⟩
  · rw [(hsame direction).1, hgeneration, h.counter]
  · rw [(hsame direction).2.1, hgeneration, h.base]
  · rw [(hsame direction).2.2, h.bytes]

/-- A stale row changes no totals. -/
theorem Counted.ignore (h : Counted seen record) :
    Counted seen { record with row :=
      { record.row with archived := false, sampleValid := false } } := by
  refine h.congr rfl fun direction => ?_
  cases direction with
  | rx => exact ⟨rfl, rfl, rfl⟩
  | tx => exact ⟨rfl, rfl, rfl⟩

/-- A frame counts nothing. -/
theorem Counted.begin (h : Counted seen record) (slot : Fin historySamples) (nowNs : UInt64) :
    Counted seen (record.begin slot nowNs) := by
  refine h.congr rfl fun direction => ?_
  cases direction with
  | rx => exact ⟨rfl, rfl, rfl⟩
  | tx => exact ⟨rfl, rfl, rfl⟩

/-! ## Runs -/

/-- The rows of the updates of a key. -/
def rowsOf (key : Key keySize) (inputs : List (Input keySize)) : List DisplayRow :=
  inputs.filterMap fun input =>
    match input with
    | .begin _ _ _ => none
    | .update other row => if other = key then some row else none

/-- The rows of two runs. -/
theorem rowsOf_append (before after : List (Input keySize)) :
    rowsOf key (before ++ after) = rowsOf key before ++ rowsOf key after :=
  List.filterMap_append

theorem rowsOf_update_same : rowsOf key (inputs ++ [.update key row]) =
    rowsOf key inputs ++ [row] := by
  rw [rowsOf_append]
  simp [rowsOf]

theorem rowsOf_update_other {other : Key keySize} (hne : other ≠ key) :
    rowsOf key (inputs ++ [.update other row]) = rowsOf key inputs := by
  rw [rowsOf_append]
  simp [rowsOf, hne]

/-- More rows have no fewer bytes. -/
theorem total_le_append (more : List DisplayRow) :
    total direction rows ≤ total direction (rows ++ more) := by
  induction more using List.reverseRecOn with
  | nil => rw [List.append_nil]
  | append_singleton more row ih =>
      rw [← List.append_assoc]
      exact Nat.le_trans ih (total_le_concat direction)

theorem ledger_counted (hpositive : ∀ row ∈ rowsOf key inputs, row.firstSeenNs ≠ 0)
    (hrange : ∀ direction, total direction (rowsOf key inputs) < 2 ^ 64) :
    Counted (acceptedRows (rowsOf key inputs)) ((ledgerOf key inputs).before key) := by
  induction inputs using List.reverseRecOn with
  | nil => exact Counted.fresh key 0
  | append_singleton inputs input ih =>
      cases input with
      | begin timestamp nowNs elapsedNs =>
          have hrows : rowsOf key (inputs ++ [.begin timestamp nowNs elapsedNs]) =
              rowsOf key inputs := by
            rw [rowsOf_append]
            exact List.append_nil _
          rw [hrows] at hpositive hrange ⊢
          have hcounted := ih hpositive hrange
          rw [ledgerOf_concat]
          unfold Ledger.before at hcounted ⊢
          unfold Ledger.step
          dsimp only
          cases hrecord : (ledgerOf key inputs).record with
          | none =>
              rw [hrecord] at hcounted
              refine hcounted.congr rfl fun direction => ?_
              cases direction with
              | rx => exact ⟨rfl, rfl, rfl⟩
              | tx => exact ⟨rfl, rfl, rfl⟩
          | some record =>
              rw [hrecord] at hcounted
              exact hcounted.begin _ nowNs
      | update other row =>
          by_cases hother : other = key
          · subst hother
            rw [rowsOf_update_same] at hpositive hrange ⊢
            obtain ⟨hbefore, hlast⟩ := List.forall_mem_append.mp hpositive
            have hcounted := ih hbefore fun direction =>
              Nat.lt_of_le_of_lt (total_le_concat direction) (hrange direction)
            have hstale : ((ledgerOf other inputs).before other).stale row =
                !accepts (acceptedRows (rowsOf other inputs)) row := hcounted.stale_iff
            rw [ledgerOf_update_same]
            show Counted _ (((ledgerOf other inputs).before other).update row _)
            rw [acceptedRows_concat]
            unfold Record.update
            unfold total at hrange
            simp only [acceptedRows_concat] at hrange
            rw [hstale]
            by_cases haccepts : accepts (acceptedRows (rowsOf other inputs)) row
            · simp only [haccepts, if_true, Bool.not_true, Bool.false_eq_true, if_false] at hrange ⊢
              exact hcounted.count _ (hlast row (List.mem_singleton_self _)) haccepts hrange
            · simp only [haccepts, if_false, Bool.not_false, if_true, Bool.false_eq_true]
              exact hcounted.ignore
          · rw [rowsOf_update_other hother] at hpositive hrange ⊢
            rw [ledgerOf_update_other row hother]
            exact ih hpositive hrange

/-- An accepted row is at least as late as every row so far. -/
theorem exists_accepted {earlier : DisplayRow} (hmem : earlier ∈ rows) :
    ∃ last ∈ acceptedRows rows, earlier.firstSeenNs ≤ last.firstSeenNs := by
  induction rows using List.reverseRecOn with
  | nil => cases hmem
  | append_singleton rows row ih =>
      rw [acceptedRows_concat]
      have hold (h : earlier ∈ rows) : ∃ last ∈ if accepts (acceptedRows rows) row then
          acceptedRows rows ++ [row] else acceptedRows rows, earlier.firstSeenNs ≤
            last.firstSeenNs := by
        obtain ⟨last, hlast, hle⟩ := ih h
        refine ⟨last, ?_, hle⟩
        split
        · exact List.mem_append_left _ hlast
        · exact hlast
      rcases List.mem_append.mp hmem with h | h
      · exact hold h
      · obtain rfl := List.mem_singleton.mp h
        by_cases haccepts : accepts (acceptedRows rows) earlier
        · rw [if_pos haccepts]
          exact ⟨earlier, List.mem_append_right _ (List.mem_singleton_self _), UInt64.le_refl _⟩
        · rw [if_neg haccepts]
          obtain ⟨last, hlast, hless⟩ := List.all_eq_false.mp (Bool.not_eq_true _ ▸ haccepts)
          exact ⟨last, hlast, UInt64.le_of_lt (by simpa using hless)⟩

theorem not_accepts_of_older {earlier : DisplayRow} (hmem : earlier ∈ rows)
    (hless : row.firstSeenNs < earlier.firstSeenNs) : accepts (acceptedRows rows) row = false := by
  obtain ⟨last, hlast, hle⟩ := exists_accepted hmem
  refine List.all_eq_false.mpr ⟨last, hlast, ?_⟩
  simpa using UInt64.lt_of_lt_of_le hless hle

/-- A counter below the largest one of its generation does not change the total. -/
theorem Counted.lower (h : Counted seen record) (sample : Fin historySamples)
    (hlower : (direction.bytes row).toNat < largest direction seen row.firstSeenNs) :
    direction.bytes (record.update row sample).row = direction.bytes record.row := by
  unfold Record.update
  by_cases hstale : record.stale row = true
  · rw [if_pos hstale]
    cases direction with
    | rx => rfl
    | tx => rfl
  · rw [if_neg hstale]
    have hseen : row.firstSeenNs ∈ generations seen := by
      by_contra hnot
      rw [largest_of_not_mem direction hnot] at hlower
      exact Nat.not_lt_zero _ hlower
    -- The row is of the generation that is being counted.
    have hsame : record.generation = row.firstSeenNs := by
      obtain ⟨earlier, hearlier, heq⟩ := List.mem_map.mp (List.mem_toFinset.mp hseen)
      have hle := h.newest earlier hearlier
      rw [heq] at hle
      refine UInt64.le_antisymm ?_ hle
      by_contra hless
      refine hstale (Bool.and_eq_true _ _ ▸ ⟨?_, ?_⟩)
      · refine bne_iff_ne.mpr fun hzero => ?_
        rw [hzero] at hle
        exact h.positive earlier hearlier (heq.trans (UInt64.le_zero_iff.mp hle))
      · exact decide_eq_true (UInt64.not_le.mp hless)
    have hrebase : record.rebase row = record := rebase_same fun hnew => hnew.2 hsame
    have hcounter : direction.counter ((record.rebase row).count row sample) =
        direction.counter record := by
      rw [count_counter, hrebase, if_neg]
      intro hgreater
      have hcount := h.counter direction
      rw [hsame] at hcount
      exact Nat.lt_asymm hlower (hcount ▸ UInt64.lt_iff_toNat_lt.mp hgreater)
    have hbytes := h.bytes direction
    rw [sum_split direction record.generation, ← h.base, ← h.counter] at hbytes
    rw [count_bytes, hcounter, count_base, hrebase, ← UInt64.toNat_inj, UInt64.toNat_add, ← hbytes]
    exact Nat.mod_eq_of_lt (UInt64.toNat_lt _)

/-- The totals of a record are the sums over the generations seen of the largest counters accepted
for them, and they never decrease. A row of an older generation changes nothing but two flags of the
row, and a counter below the largest one of its generation does not change the total of its
direction. -/
theorem cumulative_totals (hopen : trafficHistoryOpen capacity keySize = some opened)
    (hrun : run opened inputs = some history) (hmem : record ∈ history.records)
    (hpositive : ∀ row ∈ rowsOf record.key inputs, 0 < row.firstSeenNs)
    (hrange : ∀ direction, total direction (rowsOf record.key inputs) < 2 ^ 64) :
    (∀ direction, (direction.bytes record.row).toNat = total direction (rowsOf record.key inputs)) ∧
      (∀ before after earlier old, inputs = before ++ after → run opened before = some earlier →
        old ∈ earlier.records → old.key = record.key →
        ∀ direction : Direction, direction.bytes old.row ≤ direction.bytes record.row) ∧
      ∀ row later new, run opened (inputs ++ [.update record.key row]) = some later →
        new ∈ later.records → new.key = record.key →
        ((∃ earlier ∈ rowsOf record.key inputs, row.firstSeenNs < earlier.firstSeenNs) →
          new = { record with row :=
            { record.row with archived := false, sampleValid := false } }) ∧
        ∀ direction : Direction,
          (direction.bytes row).toNat <
            largest direction (acceptedRows (rowsOf record.key inputs)) row.firstSeenNs →
          direction.bytes new.row = direction.bytes record.row := by
  have hnonzero : ∀ row ∈ rowsOf record.key inputs, row.firstSeenNs ≠ 0 := fun row hrow hzero => by
    have hpos := hpositive row hrow
    rw [hzero] at hpos
    exact UInt64.lt_irrefl _ hpos
  have hrecord := (run_kept hopen hrun).2.records record hmem
  have hcounted := ledger_counted hnonzero hrange
  rw [Ledger.before, hrecord, Option.getD_some] at hcounted
  refine ⟨hcounted.bytes, ?_, ?_⟩
  · rintro before after earlier old rfl hbefore hold hkey direction
    have hearlier := (run_kept hopen hbefore).2.records old hold
    rw [hkey] at hearlier
    rw [rowsOf_append] at hnonzero hrange
    have hcountedOld := ledger_counted (List.forall_mem_append.mp hnonzero).1 fun direction =>
      Nat.lt_of_le_of_lt (total_le_append direction _) (hrange direction)
    rw [Ledger.before, hearlier, Option.getD_some] at hcountedOld
    have hnew : (direction.bytes record.row).toNat = total direction _ := hcounted.bytes direction
    have hold : (direction.bytes old.row).toNat = total direction _ := hcountedOld.bytes direction
    rw [UInt64.le_iff_toNat_le, hnew, hold, rowsOf_append]
    exact total_le_append direction _
  · intro row later new hlater hnew hkey
    have hnewRecord := (run_kept hopen hlater).2.records new hnew
    rw [hkey, ledgerOf_update_same] at hnewRecord
    have hupdated : ((ledgerOf record.key inputs).before record.key).update row
        (sampleSlot (ledgerOf record.key inputs).sequence) = new := Option.some.inj hnewRecord
    rw [Ledger.before, hrecord, Option.getD_some] at hupdated
    constructor
    · rintro ⟨earlier, hearlier, hless⟩
      have hstale : record.stale row = true := by
        rw [hcounted.stale_iff, not_accepts_of_older hearlier hless]
        rfl
      rw [← hupdated, Record.update, if_pos hstale]
    · intro direction hlower
      rw [← hupdated]
      exact hcounted.lower direction _ hlower

/-- A row of a generation with a counter. -/
def rowAt (generation counter : UInt64) : DisplayRow :=
  ⟨counter, 0, counter, 0, generation, generation, 0, true, false⟩

/-- Two generations of a key, and a late row of the first one in a frame of its own. -/
theorem older_row_clears_flags :
    ∃ opened : History 1, trafficHistoryOpen 1 1 = some opened ∧
      (run opened [.begin [] 1 1, .update ⟨[7], rfl⟩ (rowAt 1 100), .begin [] 2 1,
          .update ⟨[7], rfl⟩ (rowAt 2 40), .begin [] 3 1]).map
        (fun history => history.records.map fun record =>
          (record.row.archived, record.row.sampleValid)) =
          some [(true, true)] ∧
      (run opened [.begin [] 1 1, .update ⟨[7], rfl⟩ (rowAt 1 100), .begin [] 2 1,
          .update ⟨[7], rfl⟩ (rowAt 2 40), .begin [] 3 1, .update ⟨[7], rfl⟩ (rowAt 1 100)]).map
        (fun history => history.records.map fun record =>
          (record.row.archived, record.row.sampleValid)) =
          some [(false, false)] :=
  ⟨_, rfl, by decide, by decide⟩

/-- Two generations of a key: a lower counter within the first one, and its late row after the
second one began. -/
def twoGenerations : List (Input 1) :=
  [.begin [] 1 1, .update ⟨[7], rfl⟩ (rowAt 1 100), .update ⟨[7], rfl⟩ (rowAt 1 90), .begin [] 2 1,
    .update ⟨[7], rfl⟩ (rowAt 2 40), .begin [] 3 1, .update ⟨[7], rfl⟩ (rowAt 1 300),
    .update ⟨[7], rfl⟩ (rowAt 2 70)]

/-- The total is that of both generations, and one more late row of the first one leaves it. -/
theorem cumulative_totals_two_generations :
    ∃ (opened history : History 1) (record : Record 1), trafficHistoryOpen 1 1 = some opened ∧
      run opened twoGenerations = some history ∧ record ∈ history.records ∧
      record.row.rxBytes.toNat = 170 ∧ record.row.txBytes.toNat = 0 ∧
      ∀ later new, run opened (twoGenerations ++ [.update record.key (rowAt 1 500)]) = some later →
        new ∈ later.records → new.key = record.key →
        new = { record with row :=
          { record.row with archived := false, sampleValid := false } } := by
  have hkeys : ((trafficHistoryOpen 1 1).bind fun opened => run opened twoGenerations).map
      (fun history => history.records.map fun record => record.key.toList) = some [[7]] := by
    decide +kernel
  obtain ⟨history, hboth, hrecords⟩ := Option.map_eq_some_iff.mp hkeys
  obtain ⟨opened, hopen, hrun⟩ := Option.bind_eq_some_iff.mp hboth
  obtain ⟨record, hrecord, hbytesOfKey⟩ := List.map_eq_singleton_iff.mp hrecords
  have hkey : record.key = ⟨[7], rfl⟩ := Subtype.ext hbytesOfKey
  have hmem : record ∈ history.records := hrecord ▸ List.mem_singleton_self record
  have hpositive : ∀ row ∈ rowsOf (⟨[7], rfl⟩ : Key 1) twoGenerations, 0 <
      row.firstSeenNs := by decide
  have hrx : total .rx (rowsOf (⟨[7], rfl⟩ : Key 1) twoGenerations) = 170 := by decide
  have htx : total .tx (rowsOf (⟨[7], rfl⟩ : Key 1) twoGenerations) = 0 := by decide
  obtain ⟨hbytes, -, hlater⟩ :=
    cumulative_totals hopen hrun hmem (hkey ▸ hpositive) fun direction => by
    rw [hkey]
    cases direction with
    | rx => rw [hrx]; omega
    | tx => rw [htx]; omega
  refine ⟨opened, history, record, hopen, hrun, hmem, ?_, ?_, fun later new hrunLater hnew hsame =>
    ?_⟩
  · show (Direction.rx.bytes record.row).toNat = 170
    rw [hbytes, hkey, hrx]
  · show (Direction.tx.bytes record.row).toNat = 0
    rw [hbytes, hkey, htx]
  · refine (hlater (rowAt 1 500) later new hrunLater hnew hsame).1 ⟨rowAt 2 70, ?_, by decide⟩
    rw [hkey]
    decide

end Anettrace.TrafficHistory
