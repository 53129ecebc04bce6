import Anettrace.TrafficHistory.Integrity

/-!
# Runs of a history

From the opened history every list of inputs leads to a sound one, so no search goes on for ever. A
record is found by its key alone: two updates lead to the same record exactly when their keys are
equal.
-/

namespace Anettrace.TrafficHistory

variable {capacity keySize : Nat} {opened history history' : History keySize} {key : Key keySize}
  {inputs more : List (Input keySize)}

/-! ## Every run is sound -/

/-- The index grows to a power of two that holds the bound, if there are rounds enough. -/
theorem growIndex_spec (rounds bound bits : Nat) :
    ∃ more, growIndex rounds bound (2 ^ bits) = 2 ^ more ∧
      (bound ≤ 2 ^ (bits + rounds) → bound ≤ 2 ^ more) := by
  induction rounds generalizing bits with
  | zero => exact ⟨bits, rfl, id⟩
  | succ rounds ih =>
      unfold growIndex
      by_cases hless : 2 ^ bits < bound
      · rw [if_pos hless, ← Nat.pow_succ]
        obtain ⟨more, heq, hle⟩ := ih (bits + 1)
        refine ⟨more, heq, fun hbound => hle ?_⟩
        rwa [Nat.add_right_comm]
      · rw [if_neg hless]
        exact ⟨bits, rfl, fun _ => Nat.le_of_not_lt hless⟩

theorem open_sound (hopen : trafficHistoryOpen capacity keySize = some opened) :
    Sound opened ∧ opened.capacity = capacity ∧ opened.records = [] ∧ opened.sequence = 0 := by
  unfold trafficHistoryOpen at hopen
  split at hopen
  · cases hopen
  · rename_i hvalid
    cases hopen
    obtain ⟨more, hsize, hbound⟩ := growIndex_spec (capacity * 2) (capacity * 2) 0
    have hroom : capacity * 2 ≤ 2 ^ more := hbound (by
      rw [Nat.zero_add]
      exact Nat.le_of_lt Nat.lt_two_pow_self)
    rw [Nat.pow_zero] at hsize
    have hcells :
        History.cells (⟨[], List.replicate (2 ^ more) 0, capacity, 0, fun _ => ⟨0, 0, []⟩, false⟩ :
        History keySize) = List.replicate (2 ^ more) none := by
      simp [History.cells, entryKey]
    rw [hsize]
    refine ⟨?_, rfl, rfl, rfl⟩
    exact
      { size := ⟨more, List.length_replicate⟩
        room := by simpa using hroom
        positive := Nat.pos_of_ne_zero fun hzero => hvalid (Or.inl hzero)
        within := Nat.zero_le _
        entries := fun entry hmem => by simp [(List.mem_replicate.mp hmem).2]
        used := by simp [List.countP_replicate]
        distinct := List.nodup_nil
        indexed := fun record hmem => by cases hmem
        reachable := by
          rw [hcells]
          exact Library.Probing.reachable_replicate _ _ }

theorem step_sound (h : Sound history) (input : Input keySize) :
    ∃ result, step history input = some result ∧ Sound result ∧ result.capacity = history.capacity ∧
      history.records.map Record.key <+: result.records.map Record.key := by
  cases input with
  | begin timestamp nowNs elapsedNs =>
      refine ⟨_, rfl, h.begin timestamp nowNs elapsedNs, rfl, ?_⟩
      show history.records.map Record.key <+: (history.records.map _).map Record.key
      rw [List.map_map]
      exact List.prefix_refl _
  | update key row =>
      obtain ⟨result, place, hupdate, houtcome⟩ := update_outcome h key row
      refine ⟨result, by rw [step, hupdate]; rfl, h.outcome houtcome, ?_, houtcome.keys_prefix⟩
      cases houtcome with
      | found => rfl
      | full => rfl
      | inserted => rfl

theorem run_sound (h : Sound history) (inputs : List (Input keySize)) :
    ∃ result, run history inputs = some result ∧ Sound result ∧ result.capacity = history.capacity ∧
      history.records.map Record.key <+: result.records.map Record.key := by
  induction inputs generalizing history with
  | nil => exact ⟨history, rfl, h, rfl, List.prefix_refl _⟩
  | cons input rest ih =>
      obtain ⟨between, hstep, hbetween, hcapacity, hprefix⟩ := step_sound h input
      obtain ⟨result, hrun, hresult, hsame, hlater⟩ := ih hbetween
      refine ⟨result, ?_, hresult, hsame.trans hcapacity, hprefix.trans hlater⟩
      show (step history input).bind _ = some result
      rw [hstep]
      exact hrun

/-- A run in two parts. -/
theorem run_append : run history (inputs ++ more) = (run history inputs).bind fun between =>
    run between more :=
  List.foldlM_append

/-! ## Places of records -/

theorem Sound.place_unique (h : Sound history) {i j : Nat} {first second : Record keySize}
    (hi : history.records[i]? = some first) (hj : history.records[j]? = some second)
    (hkey : first.key = second.key) : i = j :=
  Library.Table.nodup_places h.distinct hi hj hkey

/-- In every history that can be reached: there are no more records than the capacity allows; the
search of every update ends; an update has no record exactly when its key is new and the history is
full, and then nothing changes but the mark that it is full; and two updates, with any inputs
between them, lead to the same record exactly when their keys are equal. -/
theorem table_integrity (hopen : trafficHistoryOpen capacity keySize = some opened)
    (inputs : List (Input keySize)) :
    ∃ history, run opened inputs = some history ∧ history.records.length ≤ capacity ∧
      ∀ key row, ∃ result place, trafficHistoryUpdate history key row = some (result, place) ∧
        (place = none ↔
          (∀ record ∈ history.records, record.key ≠ key) ∧ history.records.length = capacity) ∧
        (place = none → result = { history with full := true }) ∧
        ∀ more later other otherRow result' place', run result more = some later →
          trafficHistoryUpdate later other otherRow = some (result', place') →
          ∀ i, place = some i → (place' = some i ↔ key = other) := by
  obtain ⟨hopened, hcapacity, -, -⟩ := open_sound hopen
  obtain ⟨history, hrun, hsound, hsame, -⟩ := run_sound hopened inputs
  have hlimit : history.capacity = capacity := hsame.trans hcapacity
  refine ⟨history, hrun, hlimit ▸ hsound.within, fun key row => ?_⟩
  obtain ⟨result, place, hupdate, houtcome⟩ := update_outcome hsound key row
  have hresult := hsound.outcome houtcome
  refine ⟨result, place, hupdate, ?_, ?_, ?_⟩
  · cases houtcome with
    | found i record hrecord hkey =>
        refine iff_of_false nofun fun hnew => ?_
        exact hnew.1 record (List.mem_of_getElem? hrecord) hkey
    | full hnew hfull => exact iff_of_true rfl ⟨hnew, hlimit ▸ hfull⟩
    | inserted slot hnew hroom =>
        refine iff_of_false nofun fun hnew => ?_
        rw [hlimit] at hroom
        exact Nat.ne_of_lt hroom hnew.2
  · cases houtcome with
    | found => exact nofun
    | full => exact fun _ => rfl
    | inserted => exact nofun
  · intro more later other otherRow result' place' hmore hlater i hplace
    obtain ⟨record, hrecord, hkey⟩ := houtcome.key_of_place hplace
    obtain ⟨later', hmore', hlaterSound, -, hprefix⟩ := run_sound hresult more
    rw [hmore] at hmore'
    cases hmore'
    obtain ⟨result'', place'', hupdate', houtcome'⟩ := update_outcome hlaterSound other otherRow
    rw [hlater] at hupdate'
    cases hupdate'
    -- The record of the first update is still at its place after the second one.
    have hkeys : (result'.records.map Record.key)[i]? = some key := by
      have hfirst : (result.records.map Record.key)[i]? = some key := by
        rw [List.getElem?_map, hrecord, ← hkey]
        rfl
      obtain ⟨rest, hrest⟩ := hprefix.trans houtcome'.keys_prefix
      rw [← hrest, List.getElem?_append_left (List.getElem?_eq_some_iff.mp hfirst).1, hfirst]
    obtain ⟨kept, hkept, hkeptKey⟩ := Option.map_eq_some_iff.mp (List.getElem?_map ▸ hkeys)
    constructor
    · intro hplace'
      obtain ⟨found, hfound, hfoundKey⟩ := houtcome'.key_of_place hplace'
      rw [hkept] at hfound
      cases hfound
      exact hkeptKey.symm.trans hfoundKey
    · rintro rfl
      cases hplace' : place' with
      | none =>
          rw [hplace'] at houtcome'
          cases houtcome' with
          | full hnew hfull => exact absurd hkeptKey (hnew kept (List.mem_of_getElem? hkept))
      | some j =>
          obtain ⟨found, hfound, hfoundKey⟩ := houtcome'.key_of_place hplace'
          have hsame := (hlaterSound.outcome houtcome').place_unique hkept hfound
            (hkeptKey.trans hfoundKey.symm)
          rw [hsame]

/-- A row of a first generation, without bytes. -/
def emptyRow : DisplayRow :=
  ⟨0, 0, 0, 0, 1, 1, 0, true, false⟩

/-- A history for one record: a second key finds it full, which leaves the record, and the first key
still leads to it. -/
theorem table_integrity_single :
    ∃ opened history : History 1, trafficHistoryOpen 1 1 = some opened ∧
      run opened [.update ⟨[7], rfl⟩ emptyRow] = some history ∧
      history.records.map Record.key = [⟨[7], rfl⟩] ∧
      trafficHistoryUpdate history ⟨[8], rfl⟩ emptyRow =
        some ({ history with full := true }, none) ∧
      ∃ result place, trafficHistoryUpdate history ⟨[7], rfl⟩ emptyRow =
        some (result, some place) := by
  obtain ⟨history, hrun, -, hupdates⟩ := @table_integrity 1 1 _ rfl [.update ⟨[7], rfl⟩ emptyRow]
  have hkeys : history.records.map Record.key = [⟨[7], rfl⟩] :=
    congrArg (fun history => history.records.map Record.key) (Option.some.inj (hrun.symm.trans rfl))
  obtain ⟨record, hrecord, hkey⟩ := List.map_eq_singleton_iff.mp hkeys
  refine ⟨_, history, rfl, hrun, hkeys, ?_, ?_⟩
  · obtain ⟨result, place, hupdate, hnone, hkept, -⟩ := hupdates ⟨[8], rfl⟩ emptyRow
    have hplace : place = none := by
      refine hnone.mpr ⟨fun other hother => ?_, by rw [hrecord]; rfl⟩
      rw [hrecord, List.mem_singleton] at hother
      rw [hother, hkey]
      exact fun heq => absurd (congrArg List.Vector.toList heq) (by decide)
    rw [hupdate, hkept hplace, hplace]
  · obtain ⟨result, place, hupdate, hnone, -⟩ := hupdates ⟨[7], rfl⟩ emptyRow
    cases hplace : place with
    | none =>
        refine absurd hkey ((hnone.mp hplace).1 record ?_)
        rw [hrecord]
        exact List.mem_singleton_self record
    | some i => exact ⟨result, i, hplace ▸ hupdate⟩

end Anettrace.TrafficHistory
