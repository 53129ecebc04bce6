import Anettrace.Lists.Model

/-!
# Operations on lists

What the functions of `utils/list.h` do to lists, and that they do it: a `list_head` leads through
the entries of its list and back, in both directions, after every sequence of operations in which an
entry that is added is on no list, and an entry that is deleted is on one. `list_add` and
`list_add_tail` put an entry behind or before any place of a list, be it the head or an entry.
-/

namespace Anettrace.Lists

open Library
open Library.Cycles

variable {α : Type*} [DecidableEq α]

/-- A call of one of the functions that change a list. -/
inductive Operation (α : Type*) where
  | init (list : α)
  | add (new head : α)
  | addTail (new head : α)
  | del (entry : α)
  | delInit (entry : α)
  | move (list head : α)
  | moveTail (list head : α)
  | splice (list head : α)
  | spliceTail (list head : α)
  | spliceInit (list head : α)
  deriving DecidableEq, Repr

/-- The call, on the links. -/
def Operation.apply (poison : Poison α) (links : Links α) : Operation α → Links α
  | .init list => initListHead list links
  | .add new head => listAdd new head links
  | .addTail new head => listAddTail new head links
  | .del entry => listDel poison entry links
  | .delInit entry => listDelInit entry links
  | .move list head => listMove list head links
  | .moveTail list head => listMoveTail list head links
  | .splice list head => listSplice list head links
  | .spliceTail list head => listSpliceTail list head links
  | .spliceInit list head => listSpliceInit list head links

/-- The calls, one after the other. -/
def applied (poison : Poison α) (links : Links α) (operations : List (Operation α)) : Links α :=
  operations.foldl (Operation.apply poison) links

/-- The lists of the program: the entries of each head. An entry that is initialised is the head of
an empty list. -/
abbrev Heads (α : Type*) := Keyed α (List α)

/-- A place that is on no list, or the head of an empty one. -/
def Loose (lists : Heads α) (place : α) : Prop :=
  ∀ head entries, lists head = some entries → place ∈ head :: entries → head = place ∧ entries = []

/-- What an operation is for: the lists before it, where it may be used, and those after it. The
place behind `before` is the last of these entries, or the head. -/
inductive Effect : Heads α → Operation α → Heads α → Prop
  | init {lists list} (hlist : Loose lists list) : Effect lists (.init list) (lists.put list [])
  | add {lists new head before after} (hnew : Loose lists new)
      (hhead : (lists.remove new) head = some (before ++ after)) :
      Effect lists (.add new (lastOf head before))
        ((lists.remove new).put head (before ++ new :: after))
  | addTail {lists new head before after} (hnew : Loose lists new)
      (hhead : (lists.remove new) head = some (before ++ after)) :
      Effect lists (.addTail new (firstOf head after))
        ((lists.remove new).put head (before ++ new :: after))
  | del {lists entry head before after} (hhead : lists head = some (before ++ entry :: after)) :
      Effect lists (.del entry) (lists.put head (before ++ after))
  | delInit {lists entry head before after} (hhead : lists head = some (before ++ entry :: after)) :
      Effect lists (.delInit entry) ((lists.put head (before ++ after)).put entry [])
  | delInitAlone {lists entry} (hentry : lists entry = some []) :
      Effect lists (.delInit entry) lists
  | move {lists entry source head before after front behind}
      (hsource : lists source = some (before ++ entry :: after))
      (hhead : (lists.put source (before ++ after)) head = some (front ++ behind)) :
      Effect lists (.move entry (lastOf head front))
        ((lists.put source (before ++ after)).put head (front ++ entry :: behind))
  | moveTail {lists entry source head before after front behind}
      (hsource : lists source = some (before ++ entry :: after))
      (hhead : (lists.put source (before ++ after)) head = some (front ++ behind)) :
      Effect lists (.moveTail entry (firstOf head behind))
        ((lists.put source (before ++ after)).put head (front ++ entry :: behind))
  | splice {lists list entries head before after} (hlist : lists list = some entries)
      (hentries : entries ≠ []) (hhead : (lists.remove list) head = some (before ++ after)) :
      Effect lists (.splice list (lastOf head before))
        ((lists.remove list).put head (before ++ entries ++ after))
  | spliceTail {lists list entries head before after} (hlist : lists list = some entries)
      (hentries : entries ≠ []) (hhead : (lists.remove list) head = some (before ++ after)) :
      Effect lists (.spliceTail list (firstOf head after))
        ((lists.remove list).put head (before ++ entries ++ after))
  | spliceInit {lists list entries head before after} (hlist : lists list = some entries)
      (hentries : entries ≠ []) (hhead : (lists.remove list) head = some (before ++ after)) :
      Effect lists (.spliceInit list (lastOf head before))
        (((lists.remove list).put head (before ++ entries ++ after)).put list [])
  | spliceNothing {lists list operation place} (hlist : lists list = some [])
      (hoperation : operation = .splice list place ∨ operation = .spliceTail list place ∨
        operation = .spliceInit list place) :
      Effect lists operation lists

/-- What a sequence of operations does to the lists. -/
inductive Effects : Heads α → List (Operation α) → Heads α → Prop
  | done (lists : Heads α) : Effects lists [] lists
  | next {lists later final operation operations} (hfirst : Effect lists operation later)
      (hrest : Effects later operations final) : Effects lists (operation :: operations) final

variable {links : Links α} {lists later : Heads α} {place new entry list head : α}
  {entries before after : List α}

theorem Loose.free (h : Loose lists place) : Free (lists.remove place) place := by
  intro head entries hhead hmem
  obtain ⟨hne, hhead⟩ := Keyed.remove_cases hhead
  exact hne (h head entries hhead hmem).1

omit [DecidableEq α] in
/-- A free place is loose. -/
theorem free_loose (h : Free lists place) : Loose lists place :=
  fun head entries hhead hmem => absurd hmem (h head entries hhead)

theorem initListHead_kept (h : Family links lists) (hfree : Free lists place) :
    Family (initListHead place links) (lists.put place []) := by
  refine h.add (initListHead_cycle place links) ?_ ?_
  · intro other hmem
    rw [List.mem_singleton.mp hmem]
    exact hfree
  · intro other hother
    have hne := not_free_ne hfree hother
    exact ⟨Function.update_of_ne hne _ _, Function.update_of_ne hne _ _⟩

section

variable (h : Family links lists) (hfree : Free lists new)
  (hhead : lists head = some (before ++ after))
include h hfree hhead

theorem listAddBetween_kept :
    Family (listAddBetween new (lastOf head before) (firstOf head after) links)
      (lists.put head (before ++ new :: after)) := by
  have hne : ∀ place ∈ head :: (before ++ after), place ≠ new :=
    fun place hmem heq => hfree head _ hhead (heq ▸ hmem)
  have hlast : [new].getLast? = some new := rfl
  have hfill := h.fill hhead (List.IsChain.singleton new) rfl hlast (List.nodup_singleton new)
    (fun place hmem => (List.mem_singleton.mp hmem) ▸ hfree)
  -- the source joins the new entry to the place behind it first
  rw [Links.join_comm (hne _ lastOf_place) (Ne.symm (hne _ firstOf_place))] at hfill
  rw [listAddBetween_eq]
  simpa using hfill

theorem listAdd_kept :
    Family (listAdd new (lastOf head before) links) (lists.put head (before ++ new :: after)) := by
  unfold listAdd
  rw [(h.cycle head _ hhead).gap.1]
  exact listAddBetween_kept h hfree hhead

theorem listAddTail_kept :
    Family (listAddTail new (firstOf head after) links)
      (lists.put head (before ++ new :: after)) := by
  unfold listAddTail
  rw [(h.cycle head _ hhead).gap.2]
  exact listAddBetween_kept h hfree hhead

end

theorem listDelEntry_kept (h : Family links lists)
    (hhead : lists head = some (before ++ entry :: after)) :
    Family (listDelEntry entry links) (lists.put head (before ++ after)) ∧
      Free (lists.put head (before ++ after)) entry := by
  obtain ⟨hprev, hnext⟩ := (h.cycle head _ hhead).around
  have hclose := @Family.close _ _ links lists head before [entry] after h (by simpa using hhead)
  unfold listDelEntry
  rw [hprev, hnext, listDelBetween_eq]
  exact ⟨hclose.1, hclose.2 entry (List.mem_singleton_self entry)⟩

theorem listDelEntry_alone (h : Cycle links entry []) : listDelEntry entry links = links := by
  unfold listDelEntry listDelBetween Links.setPrev Links.setNext
  rw [show links.prev entry = entry from h.prev_head,
    show links.next entry = entry from h.next_head]
  have hprev := Function.update_eq_self entry links.prev
  have hnext := Function.update_eq_self entry links.next
  rw [show links.prev entry = entry from h.prev_head] at hprev
  rw [show links.next entry = entry from h.next_head] at hnext
  rw [hprev, hnext]

theorem poisoned_kept (poison : Poison α) (h : Family links lists) (hfree : Free lists entry) :
    Family ((links.setNext entry poison.next).setPrev entry poison.prev) lists := by
  refine h.congr fun other hother => ?_
  have hne := not_free_ne hfree hother
  exact ⟨Function.update_of_ne hne _ _, Function.update_of_ne hne _ _⟩

theorem listSpliceBetween_kept (h : Family links lists) (hlist : lists list = some entries)
    (hentries : entries ≠ []) (hhead : (lists.remove list) head = some (before ++ after)) :
    Family (listSpliceBetween list (lastOf head before) (firstOf head after) links)
        ((lists.remove list).put head (before ++ entries ++ after)) ∧
      Free ((lists.remove list).put head (before ++ entries ++ after)) list := by
  have hcycle := h.cycle list entries hlist
  obtain ⟨hhead_ne, hhead'⟩ := Keyed.remove_cases hhead
  have hnodup := List.nodup_cons.mp hcycle.nodup
  have hfree := fun place (hmem : place ∈ list :: entries) => h.forget_free hlist hmem
  -- the links among the entries stay, and their ends are joined to the two places
  have hpath : Path links entries := by
    have hsplit := @Cycle.split _ links list [] entries hcycle
    exact (List.isChain_append.mp hsplit.2.1).1
  obtain ⟨first, hfirst⟩ : ∃ first, entries.head? = some first :=
    ⟨_, List.head?_eq_some_head hentries⟩
  obtain ⟨last, hlast⟩ : ∃ last, entries.getLast? = some last :=
    ⟨_, List.getLast?_eq_some_getLast hentries⟩
  have hnext : links.next list = first := by
    rw [hcycle.next_head, firstOf, hfirst]
    rfl
  have hprev : links.prev list = last := by
    rw [hcycle.prev_head, lastOf, hlast]
    rfl
  rw [listSpliceBetween_eq, hnext, hprev]
  refine ⟨(h.forget list).fill hhead hpath hfirst hlast hnodup.2 fun place hmem =>
    hfree place (List.mem_cons_of_mem list hmem), ?_⟩
  intro other others hother hmem
  rcases Keyed.put_cases hother with ⟨rfl, rfl⟩ | ⟨-, hother⟩
  -- the head of the spliced list was on neither list
  · have hout := h.apart list entries other _ hlist hhead' (Ne.symm hhead_ne) List.mem_cons_self
    have hself := hnodup.1
    grind
  · exact hfree list List.mem_cons_self other others hother hmem

theorem listEmpty_iff (h : Cycle links head entries) :
    listEmpty head links = true ↔ entries = [] := by
  unfold listEmpty
  rw [decide_eq_true_iff, h.next_head]
  cases entries with
  | nil => simp
  | cons first rest =>
      have hne : first ≠ head := by
        intro heq
        exact (List.nodup_cons.mp h.nodup).1 (heq ▸ List.mem_cons_self)
      simpa using hne

theorem apply_kept {operation : Operation α} (poison : Poison α) (h : Family links lists)
    (heffect : Effect lists operation later) : Family (operation.apply poison links) later := by
  cases heffect with
  | @init list hlist =>
      have hkept := initListHead_kept (h.forget list) hlist.free
      rwa [Keyed.put_remove] at hkept
  | @add new head before after hnew hhead => exact listAdd_kept (h.forget new) hnew.free hhead
  | @addTail new head before after hnew hhead =>
      exact listAddTail_kept (h.forget new) hnew.free hhead
  | @del entry head before after hhead =>
      obtain ⟨hkept, hfree⟩ := listDelEntry_kept h hhead
      -- the source poisons the entry when no list has it any more
      exact poisoned_kept poison hkept hfree
  | @delInit entry head before after hhead =>
      obtain ⟨hkept, hfree⟩ := listDelEntry_kept h hhead
      exact initListHead_kept hkept hfree
  | @delInitAlone entry hentry =>
      show Family (initListHead entry (listDelEntry entry links)) lists
      rw [listDelEntry_alone (h.cycle entry [] hentry)]
      have hkept := initListHead_kept (h.forget entry) (h.forget_free hentry List.mem_cons_self)
      rwa [Keyed.put_remove, Keyed.put_self hentry] at hkept
  | @move entry source head before after front behind hsource hhead =>
      obtain ⟨hkept, hfree⟩ := listDelEntry_kept h hsource
      exact listAdd_kept hkept hfree hhead
  | @moveTail entry source head before after front behind hsource hhead =>
      obtain ⟨hkept, hfree⟩ := listDelEntry_kept h hsource
      exact listAddTail_kept hkept hfree hhead
  | @splice list entries head before after hlist hentries hhead =>
      have hkept := listSpliceBetween_kept h hlist hentries hhead
      show Family (if listEmpty list links then links else _) _
      rw [if_neg (mt (listEmpty_iff (h.cycle list entries hlist)).mp hentries),
        ((h.forget list).cycle head _ hhead).gap.1]
      exact hkept.1
  | @spliceTail list entries head before after hlist hentries hhead =>
      have hkept := listSpliceBetween_kept h hlist hentries hhead
      show Family (if listEmpty list links then links else _) _
      rw [if_neg (mt (listEmpty_iff (h.cycle list entries hlist)).mp hentries),
        ((h.forget list).cycle head _ hhead).gap.2]
      exact hkept.1
  | @spliceInit list entries head before after hlist hentries hhead =>
      have hkept := listSpliceBetween_kept h hlist hentries hhead
      show Family (if listEmpty list links then links else _) _
      rw [if_neg (mt (listEmpty_iff (h.cycle list entries hlist)).mp hentries),
        ((h.forget list).cycle head _ hhead).gap.1]
      exact initListHead_kept hkept.1 hkept.2
  | @spliceNothing list operation place hlist hoperation =>
      have hempty : listEmpty list links = true := (listEmpty_iff (h.cycle list [] hlist)).mpr rfl
      have hsame : operation.apply poison links = links := by
        rcases hoperation with rfl | rfl | rfl
        · exact if_pos hempty
        · exact if_pos hempty
        · exact if_pos hempty
      rw [hsame]
      exact h

theorem applied_kept {operations : List (Operation α)} (poison : Poison α)
    (heffects : Effects lists operations later) (h : Family links lists) :
    Family (applied poison links operations) later := by
  induction heffects generalizing links with
  | done lists => exact h
  | next hfirst _ ih => exact ih (apply_kept poison h hfirst)

/-! ## What the program sees -/

/-- What the functions that read a list, and the loops over it, find. -/
structure Shows (links : Links α) (head : α) (entries : List α) : Prop where
  forward : ∀ rounds, entries.length ≤ rounds →
    listForEachEntry links head rounds (links.next head) = some entries
  backward : ∀ rounds, entries.length ≤ rounds →
    listForEachEntryReverse links head rounds (links.prev head) = some entries.reverse
  empty : listEmpty head links = true ↔ entries = []
  singular : listIsSingular head links = true ↔ entries.length = 1
  first : ∀ place ∈ entries, listIsFirst place head links = true ↔ entries.head? = some place
  last : ∀ place ∈ entries, listIsLast place head links = true ↔ entries.getLast? = some place

/-- A loop from behind some entries finds the others. -/
theorem listForEachEntry_after (h : Cycle links head (before ++ after)) {rounds : Nat}
    (hrounds : after.length ≤ rounds) :
    listForEachEntry links head rounds (firstOf head after) = some after := by
  induction after generalizing before rounds with
  | nil => cases rounds <;> simp [listForEachEntry]
  | cons first rest ih =>
      obtain ⟨rounds, rfl⟩ : ∃ fewer, rounds = fewer + 1 := ⟨rounds - 1, by grind⟩
      have hne : first ≠ head := by
        intro heq
        exact (List.nodup_cons.mp h.nodup).1 (by simp [heq])
      have hsplit : before ++ first :: rest = (before ++ [first]) ++ rest := by simp
      rw [firstOf_cons, listForEachEntry, if_neg hne, h.around.2,
        ih (hsplit ▸ h) (by simpa using hrounds)]
      rfl

/-- A loop backwards from before some entries finds the others. -/
theorem listForEachEntryReverse_before (h : Cycle links head (before ++ after)) {rounds : Nat}
    (hrounds : before.length ≤ rounds) :
    listForEachEntryReverse links head rounds (lastOf head before) = some before.reverse := by
  induction before using List.reverseRecOn generalizing after rounds with
  | nil => cases rounds <;> simp [listForEachEntryReverse]
  | append_singleton rest last ih =>
      obtain ⟨rounds, rfl⟩ : ∃ fewer, rounds = fewer + 1 := ⟨rounds - 1, by grind⟩
      have hne : last ≠ head := by
        intro heq
        exact (List.nodup_cons.mp h.nodup).1 (by simp [heq])
      rw [List.append_assoc, List.singleton_append] at h
      rw [lastOf_concat, listForEachEntryReverse, if_neg hne, h.around.1,
        ih h (by simpa using hrounds)]
      simp

theorem shows_entries (h : Cycle links head entries) : Shows links head entries := by
  have hnodup := List.nodup_cons.mp h.nodup
  refine ⟨?_, ?_, listEmpty_iff h, ?_, ?_, ?_⟩
  · intro rounds hrounds
    rw [h.next_head]
    exact @listForEachEntry_after _ _ links head [] entries h rounds hrounds
  · intro rounds hrounds
    rw [h.prev_head]
    rw [← List.append_nil entries] at h
    exact listForEachEntryReverse_before h hrounds
  · unfold listIsSingular
    rw [Bool.and_eq_true, Bool.not_eq_true', ← Bool.not_eq_true, listEmpty_iff h,
      decide_eq_true_iff,
      h.next_head, h.prev_head]
    cases entries with
    | nil => simp
    | cons first rest =>
        obtain rfl | ⟨middle, last, rfl⟩ := List.eq_nil_or_concat rest
        · simp [lastOf]
        · -- the two ends of a longer list differ
          have hne : first ≠ last := by
            intro heq
            exact (List.nodup_cons.mp hnodup.2).1 (by simp [heq])
          rw [List.concat_eq_append, firstOf_cons, ← List.cons_append, lastOf_concat]
          simpa using hne
  · intro place hmem
    obtain ⟨front, behind, rfl⟩ := List.append_of_mem hmem
    unfold listIsFirst
    rw [decide_eq_true_iff, h.around.1, lastOf_eq_head (fun hfront => hnodup.1 (by simp [hfront]))]
    cases front with
    | nil => simp
    | cons first rest =>
        have hne : first ≠ place := by
          intro heq
          exact (List.nodup_cons.mp hnodup.2).1 (by simp [heq])
        simpa using hne
  · intro place hmem
    obtain ⟨front, behind, rfl⟩ := List.append_of_mem hmem
    unfold listIsLast
    rw [decide_eq_true_iff, h.around.2,
      firstOf_eq_head (fun hbehind => hnodup.1 (by simp [hbehind]))]
    obtain rfl | ⟨rest, last, rfl⟩ := List.eq_nil_or_concat behind
    · simp
    · have hne : last ≠ place := by
        intro heq
        have hplace := (List.nodup_append.mp hnodup.2).2.1
        exact (List.nodup_cons.mp hplace).1 (by simp [heq])
      rw [List.concat_eq_append, ← List.cons_append, ← List.append_assoc, List.getLast?_concat]
      simpa using hne

/-- After any operations, used as they are meant to be, the links of each list show its entries:
starting from memory without lists, or from lists that are there. -/
theorem operations_shown (poison : Poison α) {operations : List (Operation α)}
    (h : Family links lists) (heffects : Effects lists operations later) :
    ∀ head entries, later head = some entries →
      Shows (applied poison links operations) head entries :=
  fun head entries hhead =>
    shows_entries ((applied_kept poison heffects h).cycle head entries hhead)

/-- A list is initialised, three entries are added, and the first of them is deleted. -/
def smallOperations : List (Operation Nat) :=
  [.init 0, .addTail 1 0, .addTail 2 0, .add 3 0, .del 1]

/-- The lists of `smallOperations`, after some additions to the list of 0. -/
def smallLists : List (Nat × List Nat) → Heads Nat
  | [] => Keyed.empty.put 0 []
  | (new, entries) :: earlier => ((smallLists earlier).remove new).put 0 entries

theorem smallLists_loose {place : Nat} (steps : List (Nat × List Nat)) (hplace : place ≠ 0)
    (h : ∀ step ∈ steps, place ∉ 0 :: step.2) : Loose (smallLists steps) place := by
  refine free_loose ?_
  induction steps with
  | nil => exact (free_empty place).put (by simpa using hplace)
  | cons step earlier ih =>
      have hearlier := ih fun other hmem => h other (List.mem_cons_of_mem step hmem)
      exact (hearlier.remove step.1).put (h step List.mem_cons_self)

theorem operations_shown_small :
    Shows (applied ⟨100, 101⟩ ⟨id, id⟩ smallOperations) 0 [3, 2] := by
  have hinit : Effect Keyed.empty (.init 0) (smallLists []) := .init (free_loose (free_empty 0))
  have hfirst : Effect (smallLists []) (.addTail 1 0) (smallLists [(1, [1])]) :=
    @Effect.addTail _ _ (smallLists []) 1 0 [] [] (smallLists_loose _ (by decide) (by decide)) rfl
  have hsecond : Effect (smallLists [(1, [1])]) (.addTail 2 0)
      (smallLists [(2, [1, 2]), (1, [1])]) :=
    @Effect.addTail _ _ (smallLists [(1, [1])]) 2 0 [1] []
      (smallLists_loose _ (by decide) (by decide)) rfl
  have hthird : Effect (smallLists [(2, [1, 2]), (1, [1])]) (.add 3 0)
      (smallLists [(3, [3, 1, 2]), (2, [1, 2]), (1, [1])]) :=
    @Effect.add _ _ (smallLists [(2, [1, 2]), (1, [1])]) 3 0 [] [1, 2]
      (smallLists_loose _ (by decide) (by decide)) rfl
  have hlast := @Effect.del _ _ (smallLists [(3, [3, 1, 2]), (2, [1, 2]), (1, [1])]) 1 0 [3] [2] rfl
  exact operations_shown ⟨100, 101⟩ (Family.empty _)
    (.next hinit (.next hfirst (.next hsecond (.next hthird (.next hlast (.done _)))))) 0 [3, 2] rfl

end Anettrace.Lists
