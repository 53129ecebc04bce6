import Mathlib.Data.List.Basic
import Mathlib.Data.Nat.ModEq
import Mathlib.Tactic.ByContra

/-!
# Linear probing

A table of cells that hold a key or nothing. A key is looked for from its home cell on, cell by cell
and around the end of the table, up to the first cell that holds it or holds nothing. The search
ends if some cell is free, and it finds every key that no free cell separates from its home.
-/

namespace Library.Probing

section Cells

variable {κ : Type*} {cells : List (Option κ)} {start slot : Nat}

def cellAt (cells : List (Option κ)) (start distance : Nat) : Option κ :=
  (cells[(start + distance) % cells.length]?).join

def Taken (cells : List (Option κ)) (key : κ) (start distance : Nat) : Prop :=
  ∃ other, cellAt cells start distance = some other ∧ other ≠ key

theorem cellAt_of_getElem? {value : Option κ} (h : cells[slot]? = some value) :
    cellAt cells slot 0 = value := by
  have hlt : slot < cells.length := (List.getElem?_eq_some_iff.mp h).1
  rw [cellAt, Nat.add_zero, Nat.mod_eq_of_lt hlt, h]
  rfl

theorem cellAt_next (distance : Nat) :
    cellAt cells ((start + 1) % cells.length) distance = cellAt cells start (distance + 1) := by
  unfold cellAt
  rw [Nat.mod_add_mod, Nat.add_assoc, Nat.add_comm 1]

theorem cellAt_set {key : κ} {distance : Nat} (hfree : cells[slot]? = some none)
    (hfull : cellAt cells start distance ≠ none) :
    cellAt (cells.set slot (some key)) start distance = cellAt cells start distance := by
  unfold cellAt at *
  rw [List.length_set, List.getElem?_set_ne]
  rintro rfl
  rw [hfree] at hfull
  exact hfull rfl

/-- No free cell lies between the home of a stored key and its cell. -/
def Reachable (home : κ → Nat) (cells : List (Option κ)) : Prop :=
  ∀ key, some key ∈ cells → ∃ distance, cellAt cells (home key) distance = some key ∧
    ∀ nearer < distance, cellAt cells (home key) nearer ≠ none

theorem reachable_replicate (home : κ → Nat) (size : Nat) :
    Reachable home (List.replicate size (none : Option κ)) := by
  intro key hmem
  cases (List.mem_replicate.mp hmem).2

end Cells

/-! ## The search -/

variable {κ : Type*} [DecidableEq κ] {cells : List (Option κ)} {key : κ} {home : κ → Nat}
  {fuel start slot : Nat}

/-- The first cell from a start on that holds the key or nothing. -/
def probe (cells : List (Option κ)) (key : κ) : Nat → Nat → Option Nat
  | 0, _ => none
  | fuel + 1, slot =>
      match cells[slot]? with
      | some (some other) =>
          if other = key then some slot else probe cells key fuel ((slot + 1) % cells.length)
      | _ => some slot

/-- Where a search ends: the key is there or nothing is, and only other keys are on the way. -/
theorem probe_spec (hstart : start < cells.length) (h : probe cells key fuel start = some slot) :
    ∃ distance, slot = (start + distance) % cells.length ∧
      (cellAt cells start distance = none ∨ cellAt cells start distance = some key) ∧
      ∀ nearer < distance, Taken cells key start nearer := by
  induction fuel generalizing start with
  | zero => cases h
  | succ fuel ih =>
      have hcell : cells[start]? = some cells[start] := List.getElem?_eq_getElem hstart
      rw [probe, hcell] at h
      cases hvalue : cells[start] with
      | none =>
          rw [hvalue] at h hcell
          cases h
          exact ⟨0, (Nat.mod_eq_of_lt hstart).symm, Or.inl (cellAt_of_getElem? hcell),
            fun _ hlt => by cases hlt⟩
      | some other =>
          rw [hvalue] at h hcell
          dsimp only at h
          by_cases heq : other = key
          · rw [if_pos heq] at h
            cases h
            exact ⟨0, (Nat.mod_eq_of_lt hstart).symm, Or.inr (heq ▸ cellAt_of_getElem? hcell),
              fun _ hlt => by cases hlt⟩
          · rw [if_neg heq] at h
            obtain ⟨distance, hslot, hend, hway⟩ := ih (Nat.mod_lt _ (Nat.zero_lt_of_lt hstart)) h
            refine ⟨distance + 1, ?_, ?_, ?_⟩
            · rw [hslot, Nat.mod_add_mod, Nat.add_assoc, Nat.add_comm 1]
            · rwa [cellAt_next] at hend
            · intro nearer hlt
              cases nearer with
              | zero => exact ⟨other, cellAt_of_getElem? hcell, heq⟩
              | succ nearer =>
                  have htaken := hway nearer (Nat.lt_of_succ_lt_succ hlt)
                  rwa [Taken, cellAt_next] at htaken

theorem probe_lt (hstart : start < cells.length) (h : probe cells key fuel start = some slot) :
    slot < cells.length := by
  obtain ⟨distance, rfl, -⟩ := probe_spec hstart h
  exact Nat.mod_lt _ (Nat.zero_lt_of_lt hstart)

/-- A search with a free cell ahead of it ends. -/
theorem probe_ends {distance : Nat} (hstart : start < cells.length) (hfuel : distance < fuel)
    (hfree : cellAt cells start distance = none) :
    ∃ slot, probe cells key fuel start = some slot := by
  induction distance generalizing fuel start with
  | zero =>
      obtain ⟨fuel, rfl⟩ : ∃ n, fuel = n + 1 := Nat.exists_eq_succ_of_ne_zero (Nat.ne_of_gt hfuel)
      have hcell : cells[start]? = some cells[start] := List.getElem?_eq_getElem hstart
      have hvalue : cells[start] = none := (cellAt_of_getElem? hcell).symm.trans hfree
      exact ⟨start, by rw [probe, hcell, hvalue]⟩
  | succ distance ih =>
      obtain ⟨fuel, rfl⟩ : ∃ n, fuel = n + 1 :=
        Nat.exists_eq_succ_of_ne_zero (Nat.ne_of_gt (Nat.zero_lt_of_lt hfuel))
      have hcell : cells[start]? = some cells[start] := List.getElem?_eq_getElem hstart
      rw [probe, hcell]
      cases hvalue : cells[start] with
      | none => exact ⟨start, rfl⟩
      | some other =>
          dsimp only
          by_cases heq : other = key
          · exact ⟨start, if_pos heq⟩
          · rw [if_neg heq]
            rw [← cellAt_next] at hfree
            exact ih (Nat.mod_lt _ (Nat.zero_lt_of_lt hstart)) (Nat.lt_of_succ_lt_succ hfuel) hfree

/-- With a free cell somewhere, as many rounds as there are cells are enough. -/
theorem probe_total (hstart : start < cells.length) (hfree : none ∈ cells) :
    ∃ slot, probe cells key cells.length start = some slot := by
  obtain ⟨free, hlt, hnone⟩ := List.mem_iff_getElem.mp hfree
  have hdistance : (start + (free + cells.length - start) % cells.length) % cells.length =
      free := by
    rw [Nat.add_mod_mod, Nat.add_sub_cancel' (by omega), Nat.add_mod_right, Nat.mod_eq_of_lt hlt]
  have hfree : cellAt cells start ((free + cells.length - start) % cells.length) = none := by
    rw [cellAt, hdistance, List.getElem?_eq_getElem hlt, hnone]
    rfl
  exact probe_ends hstart (Nat.mod_lt _ (Nat.zero_lt_of_lt hstart)) hfree

/-! ## Stored keys -/

theorem probe_stored (hreachable : Reachable home cells) (hhome : home key < cells.length)
    (hstored : some key ∈ cells) (h : probe cells key fuel (home key) = some slot) :
    cells[slot]? = some (some key) := by
  obtain ⟨distance, rfl, hend, hway⟩ := probe_spec hhome h
  obtain ⟨place, hplace, hfull⟩ := hreachable key hstored
  have hlt : (home key + distance) % cells.length < cells.length :=
    Nat.mod_lt _ (Nat.zero_lt_of_lt hhome)
  have hfound : cellAt cells (home key) distance = some key := by
    refine hend.resolve_left fun hnone => ?_
    rcases Nat.lt_trichotomy distance place with hless | rfl | hmore
    · exact hfull distance hless hnone
    · rw [hnone] at hplace
      cases hplace
    · obtain ⟨other, hother, hne⟩ := hway place hmore
      rw [hplace] at hother
      exact hne (Option.some.inj hother).symm
  rw [cellAt, List.getElem?_eq_getElem hlt] at hfound
  rw [List.getElem?_eq_getElem hlt]
  exact congrArg some hfound

/-- A search for a key that is not stored ends at a free cell. -/
theorem probe_fresh (hstart : start < cells.length) (hfresh : some key ∉ cells)
    (h : probe cells key fuel start = some slot) : cells[slot]? = some none := by
  obtain ⟨distance, rfl, hend, -⟩ := probe_spec hstart h
  have hlt : (start + distance) % cells.length < cells.length :=
    Nat.mod_lt _ (Nat.zero_lt_of_lt hstart)
  rw [List.getElem?_eq_getElem hlt]
  rw [cellAt, List.getElem?_eq_getElem hlt] at hend
  refine congrArg some (hend.resolve_right fun hkey => hfresh ?_)
  exact hkey ▸ List.getElem_mem hlt

/-- A key put into the free cell its search ended at can be reached, and so can all others. -/
theorem reachable_insert (hreachable : Reachable home cells) (hhome : home key < cells.length)
    (hfresh : some key ∉ cells) (h : probe cells key fuel (home key) = some slot) :
    Reachable home (cells.set slot (some key)) := by
  have hfree := probe_fresh hhome hfresh h
  intro stored hmem
  rcases List.mem_or_eq_of_mem_set hmem with hold | hnew
  · obtain ⟨distance, hplace, hfull⟩ := hreachable stored hold
    refine ⟨distance, ?_, fun nearer hlt => ?_⟩
    · rw [cellAt_set hfree (by rw [hplace]; exact Option.some_ne_none stored), hplace]
    · rw [cellAt_set hfree (hfull nearer hlt)]
      exact hfull nearer hlt
  · cases hnew
    obtain ⟨distance, rfl, -, hway⟩ := probe_spec hhome h
    have hlt : (home key + distance) % cells.length < cells.length :=
      Nat.mod_lt _ (Nat.zero_lt_of_lt hhome)
    refine ⟨distance, ?_, fun nearer hless => ?_⟩
    · rw [cellAt, List.length_set, List.getElem?_set_self hlt]
      rfl
    · obtain ⟨other, hother, -⟩ := hway nearer hless
      rw [cellAt_set hfree (by rw [hother]; exact Option.some_ne_none other), hother]
      exact Option.some_ne_none other

end Library.Probing
