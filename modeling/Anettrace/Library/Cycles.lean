import Mathlib.Data.List.Chain
import Mathlib.Data.List.Nodup
import Mathlib.Logic.Function.Basic
import Anettrace.Library.Keyed

/-!
# Circular doubly linked lists

Every place has a successor and a predecessor. A place is the head of a cycle when the successors
lead from it through the entries and back, and the predecessors the other way. Cycles change by
joining two places: the rules say that joining the ends of a gap takes what is in it out, and that
joining the ends of a path into a gap puts it in. A `Family` is a set of cycles without a common
place, and its rules say what becomes of all of them when one or two of them are changed.
-/

namespace Library.Cycles

/-- The successor and the predecessor of every place. -/
structure Links (α : Type*) where
  next : α → α
  prev : α → α

variable {α : Type*}

/-- The second place follows the first one, in both directions. -/
def Joined (links : Links α) (first second : α) : Prop :=
  links.next first = second ∧ links.prev second = first

def Path (links : Links α) (places : List α) : Prop :=
  places.IsChain (Joined links)

def lastOf (head : α) (before : List α) : α :=
  before.getLast?.getD head

/-- The place behind a gap: the first of the entries behind it, or the head. -/
def firstOf (head : α) (after : List α) : α :=
  after.head?.getD head

/-- The cycle from a head through its entries. -/
structure Cycle (links : Links α) (head : α) (entries : List α) : Prop where
  path : Path links (head :: entries ++ [head])
  nodup : (head :: entries).Nodup

section

variable {links : Links α} {head place : α} {entries before after : List α}

@[simp] theorem lastOf_nil : lastOf head [] = head := rfl

@[simp] theorem firstOf_nil : firstOf head [] = head := rfl

@[simp] theorem firstOf_cons : firstOf head (place :: after) = place := rfl

@[simp] theorem lastOf_concat : lastOf head (before ++ [place]) = place := by
  simp [lastOf]

theorem lastOf_mem : lastOf head before = head ∨ lastOf head before ∈ before := by
  obtain rfl | ⟨rest, last, rfl⟩ := List.eq_nil_or_concat before
  · exact .inl rfl
  · right
    rw [List.concat_eq_append, lastOf_concat]
    simp

theorem firstOf_mem : firstOf head after = head ∨ firstOf head after ∈ after := by
  cases after with
  | nil => exact .inl rfl
  | cons first rest => exact .inr List.mem_cons_self

theorem lastOf_eq_head (h : head ∉ before) : lastOf head before = head ↔ before = [] := by
  obtain rfl | ⟨rest, last, rfl⟩ := List.eq_nil_or_concat before
  · simp
  · rw [List.concat_eq_append] at h ⊢
    rw [lastOf_concat]
    have hne : last ≠ head := fun heq => h (by simp [heq])
    simpa using hne

/-- No entries are behind a gap before the head. -/
theorem firstOf_eq_head (h : head ∉ after) : firstOf head after = head ↔ after = [] := by
  cases after with
  | nil => simp
  | cons first rest =>
      have hne : first ≠ head := fun heq => h (by simp [heq])
      simpa using hne

theorem getLast?_head : (head :: before).getLast? = some (lastOf head before) :=
  List.getLast?_cons

theorem head?_head : (after ++ [head]).head? = some (firstOf head after) := by
  cases after <;> rfl

theorem head_split : head :: (before ++ after) ++ [head] =
    (head :: before) ++ (after ++ [head]) := by
  simp

/-- A cycle in two parts. -/
theorem Cycle.split (h : Cycle links head (before ++ after)) :
    Path links (head :: before) ∧ Path links (after ++ [head]) ∧
      Joined links (lastOf head before) (firstOf head after) := by
  obtain ⟨hbefore, hafter, hgap⟩ := List.isChain_append.mp (head_split ▸ h.path)
  exact ⟨hbefore, hafter, hgap _ getLast?_head _ head?_head⟩

theorem Cycle.gap (h : Cycle links head (before ++ after)) :
    links.next (lastOf head before) = firstOf head after ∧
      links.prev (firstOf head after) = lastOf head before :=
  h.split.2.2

theorem Cycle.next_head (h : Cycle links head entries) : links.next head = firstOf head entries :=
  (@Cycle.gap _ links head [] entries h).1

theorem Cycle.prev_head (h : Cycle links head entries) : links.prev head = lastOf head entries := by
  have hgap := @Cycle.gap _ links head entries []
  rw [List.append_nil] at hgap
  exact (hgap h).2

/-- What precedes and follows an entry. -/
theorem Cycle.around (h : Cycle links head (before ++ place :: after)) :
    links.prev place = lastOf head before ∧ links.next place = firstOf head after := by
  have hprev := h.gap.2
  rw [show before ++ place :: after = (before ++ [place]) ++ after by simp] at h
  have hnext := h.gap.1
  rw [lastOf_concat] at hnext
  exact ⟨hprev, hnext⟩

theorem Cycle.congr {changed : Links α} (h : Cycle links head entries)
    (hsame : ∀ place ∈ head :: entries,
      changed.next place = links.next place ∧ changed.prev place = links.prev place) :
    Cycle changed head entries := by
  have hplace : ∀ place ∈ head :: entries ++ [head],
      changed.next place = links.next place ∧ changed.prev place = links.prev place := by
    intro place hmem
    rcases List.mem_append.mp hmem with hmem | hmem
    · exact hsame place hmem
    · exact hsame place (List.mem_singleton.mp hmem ▸ List.mem_cons_self)
  refine ⟨List.IsChain.imp_of_mem_imp ?_ h.path, h.nodup⟩
  rintro first second hfirst hsecond ⟨hnext, hprev⟩
  exact ⟨(hplace first hfirst).1.trans hnext, (hplace second hsecond).2.trans hprev⟩

end

section

variable [DecidableEq α] {links : Links α} {head place first second : α}
  {places entries before middle after : List α}

/-- A place with another successor. -/
def Links.setNext (links : Links α) (place value : α) : Links α :=
  { links with next := Function.update links.next place value }

/-- A place with another predecessor. -/
def Links.setPrev (links : Links α) (place value : α) : Links α :=
  { links with prev := Function.update links.prev place value }

/-- Let the second place follow the first one. -/
def Links.join (links : Links α) (first second : α) : Links α :=
  (links.setPrev second first).setNext first second

theorem Links.join_next_other (h : place ≠ first) :
    (links.join first second).next place = links.next place :=
  Function.update_of_ne h _ _

theorem Links.join_prev_other (h : place ≠ second) :
    (links.join first second).prev place = links.prev place :=
  Function.update_of_ne h _ _

theorem Links.join_joined : Joined (links.join first second) first second :=
  ⟨Function.update_self _ _ _, Function.update_self _ _ _⟩

/-- A path stays one when a place is joined to another one that does not lead on from it. -/
theorem Path.join (h : Path links places) (hfirst : first ∉ places.dropLast)
    (hsecond : second ∉ places.tail) : Path (links.join first second) places := by
  refine List.isChain_iff_forall₂.mpr ?_
  have hpairs := List.isChain_iff_forall₂.mp h
  -- the pair of each place and its follower keeps both of its links
  rw [List.forall₂_iff_zip] at hpairs ⊢
  refine ⟨hpairs.1, fun {one other} hmem => ?_⟩
  obtain ⟨hone, hother⟩ := List.of_mem_zip hmem
  obtain ⟨hnext, hprev⟩ := hpairs.2 hmem
  refine ⟨?_, ?_⟩
  · rw [Links.join_next_other (ne_of_mem_of_not_mem hone hfirst)]
    exact hnext
  · rw [Links.join_prev_other (ne_of_mem_of_not_mem hother hsecond)]
    exact hprev

omit [DecidableEq α] in
/-- The places around a gap are nowhere else. -/
theorem gap_apart (h : (head :: (before ++ after)).Nodup) :
    (lastOf head before ∉ (head :: before).dropLast ∧
      lastOf head before ∉ (after ++ [head]).dropLast) ∧
      firstOf head after ∉ (head :: before).tail ∧ firstOf head after ∉ (after ++ [head]).tail := by
  obtain ⟨hhead, hentries⟩ := List.nodup_cons.mp h
  obtain ⟨hbefore, hafter, hapart⟩ := List.nodup_append.mp hentries
  rw [List.mem_append, not_or] at hhead
  refine ⟨⟨?_, ?_⟩, ?_, ?_⟩
  · obtain rfl | ⟨rest, last, rfl⟩ := List.eq_nil_or_concat before
    · simp
    · rw [List.concat_eq_append] at hbefore hhead ⊢
      rw [lastOf_concat, ← List.cons_append, List.dropLast_concat]
      grind
  · rw [List.dropLast_concat]
    rcases @lastOf_mem _ head before with heq | hmem
    · rw [heq]
      exact hhead.2
    · exact fun hafter => hapart _ hmem _ hafter rfl
  · rw [List.tail_cons]
    rcases @firstOf_mem _ head after with heq | hmem
    · rw [heq]
      exact hhead.1
    · exact fun hbefore => hapart _ hbefore _ hmem rfl
  · cases after with
    | nil => simp
    | cons first rest => grind [firstOf_cons]

omit [DecidableEq α] in
/-- A cycle from its two parts. -/
theorem Cycle.of_split (hbefore : Path links (head :: before))
    (hafter : Path links (after ++ [head]))
    (hgap : Joined links (lastOf head before) (firstOf head after))
    (hnodup : (head :: (before ++ after)).Nodup) : Cycle links head (before ++ after) := by
  refine ⟨?_, hnodup⟩
  rw [head_split]
  refine List.IsChain.append hbefore hafter fun last hlast first hfirst => ?_
  obtain rfl := Option.some.inj (getLast?_head.symm.trans hlast)
  obtain rfl := Option.some.inj (head?_head.symm.trans hfirst)
  exact hgap

/-- Joining the places on both sides of a gap takes out what is in it. -/
theorem Cycle.close (h : Cycle links head (before ++ middle ++ after)) :
    Cycle (links.join (lastOf head before) (firstOf head after)) head (before ++ after) := by
  have hnodup : (head :: (before ++ after)).Nodup := by
    refine h.nodup.sublist (List.Sublist.cons_cons head ?_)
    rw [List.append_assoc]
    exact (List.Sublist.refl before).append (List.sublist_append_right middle after)
  have hbefore : Path links (head :: before) :=
    (@Cycle.split _ links head before (middle ++ after) (by rwa [← List.append_assoc])).1
  obtain ⟨⟨hlast, hlast'⟩, hfirst, hfirst'⟩ := gap_apart hnodup
  exact Cycle.of_split (hbefore.join hlast hfirst) (h.split.2.1.join hlast' hfirst')
    Links.join_joined hnodup

omit [DecidableEq α] in
/-- The ends of a path in a gap are nowhere else. -/
theorem ends_apart (hfirst : middle.head? = some first) (hlast : middle.getLast? = some second)
    (hnodup : (head :: (before ++ middle ++ after)).Nodup) :
    (first ∉ (head :: before).tail ∧ first ∉ middle.tail ∧ first ∉ (after ++ [head]).tail ∧
        first ≠ firstOf head after) ∧
      second ∉ (head :: before).dropLast ∧ second ∉ middle.dropLast ∧
        second ∉ (after ++ [head]).dropLast ∧
        second ≠ lastOf head before := by
  have hmem : first ∈ middle := List.mem_of_head? hfirst
  have hmem' : second ∈ middle := List.mem_of_getLast? hlast
  have hapart : ∀ place ∈ middle, place ≠ head ∧ place ∉ before ∧ place ∉ after := by
    intro place hplace
    grind
  have hmiddle : middle.Nodup := by grind
  have hout : ∀ place ∈ middle, place ∉ head :: before ∧ place ∉ after ++ [head] := by
    intro place hplace
    have h := hapart place hplace
    simp [h]
  refine ⟨⟨?_, ?_, ?_, ?_⟩, ?_, ?_, ?_, ?_⟩
  · exact fun h => (hout first hmem).1 (List.mem_of_mem_tail h)
  · obtain ⟨rest, rfl⟩ := List.head?_eq_some_iff.mp hfirst
    exact (List.nodup_cons.mp hmiddle).1
  · exact fun h => (hout first hmem).2 (List.mem_of_mem_tail h)
  · intro heq
    exact (hout first hmem).2 (heq ▸ List.mem_of_head? head?_head)
  · exact fun h => (hout second hmem').1 (List.dropLast_subset _ h)
  · obtain ⟨rest, rfl⟩ := List.getLast?_eq_some_iff.mp hlast
    rw [List.dropLast_concat]
    exact fun h =>
      (List.nodup_append.mp hmiddle).2.2 second h second (List.mem_singleton_self second) rfl
  · exact fun h => (hout second hmem').2 (List.dropLast_subset _ h)
  · intro heq
    exact (hout second hmem').1 (heq ▸ List.mem_of_getLast? getLast?_head)

/-- Joining the ends of a path to the places around a gap puts the path into it. -/
theorem Cycle.fill (h : Cycle links head (before ++ after)) (hpath : Path links middle)
    (hfirst : middle.head? = some first) (hlast : middle.getLast? = some second)
    (hnodup : (head :: (before ++ middle ++ after)).Nodup) :
    Cycle ((links.join (lastOf head before) first).join second (firstOf head after)) head
      (before ++ middle ++ after) := by
  obtain ⟨⟨hfirst₁, hfirst₂, hfirst₃, hne⟩, hsecond₁, hsecond₂, hsecond₃, hne'⟩ :=
    ends_apart hfirst hlast hnodup
  obtain ⟨hbefore, hafter, -⟩ := h.split
  obtain ⟨⟨hp₁, hp₂⟩, hn₁, hn₂⟩ := gap_apart h.nodup
  obtain ⟨hp, hn⟩ : lastOf head before ∉ middle ∧ firstOf head after ∉ middle := by
    have hlastOf := List.mem_of_getLast? (@getLast?_head _ head before)
    have hfirstOf := List.mem_of_head? (@head?_head _ head after)
    grind
  -- each of the three paths keeps its links in both joins
  have hbefore' := (hbefore.join hp₁ hfirst₁).join hsecond₁ hn₁
  have hmiddle' := (hpath.join (fun h => hp (List.dropLast_subset _ h)) hfirst₂).join hsecond₂
    (fun h => hn (List.mem_of_mem_tail h))
  have hafter' := (hafter.join hp₂ hfirst₃).join hsecond₃ hn₂
  have hjoined : Joined ((links.join (lastOf head before) first).join second (firstOf head after))
      (lastOf head before) first := by
    refine ⟨?_, ?_⟩
    · rw [Links.join_next_other (Ne.symm hne')]
      exact Links.join_joined.1
    · rw [Links.join_prev_other hne]
      exact Links.join_joined.2
  refine Cycle.of_split ?_ hafter' ?_ hnodup
  · rw [← List.cons_append]
    refine List.IsChain.append hbefore' hmiddle' fun last hmem next hmem' => ?_
    obtain rfl := Option.some.inj (getLast?_head.symm.trans hmem)
    obtain rfl := Option.some.inj (hfirst.symm.trans hmem')
    exact hjoined
  · obtain ⟨rest, rfl⟩ := List.getLast?_eq_some_iff.mp hlast
    rw [← List.append_assoc, lastOf_concat]
    exact Links.join_joined

/-- The order of two joins does not matter when they are about different places. -/
theorem Links.join_comm {third fourth : α} (h : first ≠ third) (h' : second ≠ fourth) :
    (links.join first second).join third fourth = (links.join third fourth).join first second := by
  simp only [Links.join, Links.setNext, Links.setPrev, Links.mk.injEq]
  exact ⟨Function.update_comm h _ _ _, Function.update_comm h' _ _ _⟩

end

/-! ## Families -/

section

variable [DecidableEq α] {links changed : Links α} {cycles : Keyed α (List α)}
  {head other place new : α}
  {entries others before middle after : List α}

def Free (cycles : Keyed α (List α)) (place : α) : Prop :=
  ∀ head entries, cycles head = some entries → place ∉ head :: entries

/-- The cycles from some heads, without a common place. -/
structure Family (links : Links α) (cycles : Keyed α (List α)) : Prop where
  cycle : ∀ head entries, cycles head = some entries → Cycle links head entries
  apart : ∀ head entries other others, cycles head = some entries → cycles other = some others →
    head ≠ other → List.Disjoint (head :: entries) (other :: others)

omit [DecidableEq α] in
/-- No places, no cycles. -/
theorem Family.empty (links : Links α) : Family links Keyed.empty := by
  refine ⟨?_, ?_⟩
  · intro head entries h
    cases h
  · intro head entries other others h
    cases h

theorem Family.forget (h : Family links cycles) (head : α) : Family links (cycles.remove head) := by
  refine ⟨?_, ?_⟩
  · intro other entries hother
    exact h.cycle other entries (Keyed.remove_cases hother).2
  · intro first entries second others hfirst hsecond
    exact h.apart first entries second others (Keyed.remove_cases hfirst).2
      (Keyed.remove_cases hsecond).2

theorem Family.forget_free (h : Family links cycles) (hhead : cycles head = some entries)
    (hplace : place ∈ head :: entries) : Free (cycles.remove head) place := by
  intro other others hother hmem
  obtain ⟨hne, hother⟩ := Keyed.remove_cases hother
  exact h.apart head entries other others hhead hother (Ne.symm hne) hplace hmem

omit [DecidableEq α] in
/-- A family stays one when the links of its places stay. -/
theorem Family.congr (h : Family links cycles)
    (hsame : ∀ place, ¬Free cycles place →
      changed.next place = links.next place ∧ changed.prev place = links.prev place) :
    Family changed cycles := by
  refine ⟨fun head entries hhead => ?_, h.apart⟩
  refine (h.cycle head entries hhead).congr fun place hmem => hsame place fun hfree => ?_
  exact hfree head entries hhead hmem

theorem Family.add (h : Family links cycles) (hcycle : Cycle changed head entries)
    (hfree : ∀ place ∈ head :: entries, Free cycles place) (hsame : ∀ place, ¬Free cycles place →
      changed.next place = links.next place ∧ changed.prev place = links.prev place) :
    Family changed (cycles.put head entries) := by
  have hold := h.congr hsame
  refine ⟨?_, ?_⟩
  · exact Keyed.put_forall hcycle fun other others _ hother => hold.cycle other others hother
  · intro first firsts second seconds hfirst hsecond hne
    rcases Keyed.put_cases hfirst with ⟨rfl, rfl⟩ | ⟨-, hfirst'⟩
    · rcases Keyed.put_cases hsecond with ⟨rfl, rfl⟩ | ⟨-, hsecond'⟩
      · exact absurd rfl hne
      · exact fun place hmem => hfree place hmem second seconds hsecond'
    · rcases Keyed.put_cases hsecond with ⟨rfl, rfl⟩ | ⟨-, hsecond'⟩
      · exact fun place hmem hmem' => hfree place hmem' first firsts hfirst' hmem
      · exact hold.apart first firsts second seconds hfirst' hsecond' hne

omit [DecidableEq α] in
/-- A free place is none of a cycle. -/
theorem not_free_ne (hfree : Free cycles place) (hother : ¬Free cycles other) : other ≠ place :=
  fun heq => hother (heq ▸ hfree)

omit [DecidableEq α] in
/-- Without cycles every place is free. -/
theorem free_empty (place : α) : Free Keyed.empty place := by
  intro head entries h
  cases h

theorem Free.put (h : Free cycles place) (hout : place ∉ head :: entries) :
    Free (cycles.put head entries) place := by
  intro other others hother
  rcases Keyed.put_cases hother with ⟨rfl, rfl⟩ | ⟨-, hother⟩
  · exact hout
  · exact h other others hother

theorem Free.remove (h : Free cycles place) (head : α) : Free (cycles.remove head) place :=
  fun other others hother => h other others (Keyed.remove_cases hother).2

theorem same_of_join {first second : α} (hfirst : Free cycles first)
    (hsecond : Free cycles second) :
    ∀ place, ¬Free cycles place →
      (links.join first second).next place = links.next place ∧
        (links.join first second).prev place = links.prev place :=
  fun _ hplace => ⟨Links.join_next_other (not_free_ne hfirst hplace),
    Links.join_prev_other (not_free_ne hsecond hplace)⟩

theorem Cycle.family (h : Cycle links head entries) : Family links (Keyed.empty.put head entries) :=
  (Family.empty links).add h (fun place _ => free_empty place) fun _ _ => ⟨rfl, rfl⟩

omit [DecidableEq α] in
theorem lastOf_place : lastOf head before ∈ head :: (before ++ after) := by
  rcases @lastOf_mem _ head before with heq | hmem
  · rw [heq]
    exact List.mem_cons_self
  · exact List.mem_cons_of_mem head (List.mem_append_left after hmem)

omit [DecidableEq α] in
theorem firstOf_place : firstOf head after ∈ head :: (before ++ after) := by
  rcases @firstOf_mem _ head after with heq | hmem
  · rw [heq]
    exact List.mem_cons_self
  · exact List.mem_cons_of_mem head (List.mem_append_right before hmem)

theorem Family.close (h : Family links cycles)
    (hhead : cycles head = some (before ++ middle ++ after)) :
    Family (links.join (lastOf head before) (firstOf head after))
      (cycles.put head (before ++ after)) ∧
      ∀ place ∈ middle, Free (cycles.put head (before ++ after)) place := by
  have hfree := fun place (hmem : place ∈ head :: (before ++ middle ++ after)) =>
    h.forget_free hhead hmem
  have hsub : ∀ place ∈ head :: (before ++ after), place ∈ head :: (before ++ middle ++ after) := by
    intro place hmem
    grind
  refine ⟨?_, ?_⟩
  · rw [← Keyed.put_remove]
    exact (h.forget head).add (h.cycle head _ hhead).close
      (fun place hmem => hfree place (hsub place hmem))
      (same_of_join (hfree _ (hsub _ lastOf_place)) (hfree _ (hsub _ firstOf_place)))
  · intro place hmem other others hother hplace
    obtain ⟨rfl, rfl⟩ | ⟨hne, hother⟩ := Keyed.put_cases hother
    · have hnodup := (h.cycle other _ hhead).nodup
      grind
    · have hmem' : place ∈ head :: (before ++ middle ++ after) := by grind
      exact hfree place hmem' other others ((cycles.remove_other hne).trans hother) hplace

theorem Family.fill (h : Family links cycles) (hhead : cycles head = some (before ++ after))
    (hpath : Path links middle) {first second : α} (hfirst : middle.head? = some first)
    (hlast : middle.getLast? = some second) (hnodup : middle.Nodup)
    (hfree : ∀ place ∈ middle, Free cycles place) :
    Family ((links.join (lastOf head before) first).join second (firstOf head after))
      (cycles.put head (before ++ middle ++ after)) := by
  have hgone := fun place (hmem : place ∈ head :: (before ++ after)) => h.forget_free hhead hmem
  have hfree' : ∀ place ∈ middle, Free (cycles.remove head) place :=
    fun place hmem => (hfree place hmem).remove head
  have hmem := hfree' first (List.mem_of_head? hfirst)
  have hmem' := hfree' second (List.mem_of_getLast? hlast)
  have hcycle := h.cycle head _ hhead
  have hall : (head :: (before ++ middle ++ after)).Nodup := by
    have hout := fun place (hplace : place ∈ middle) => hfree place hplace head _ hhead
    have hold := hcycle.nodup
    grind
  rw [← Keyed.put_remove]
  refine (h.forget head).add (hcycle.fill hpath hfirst hlast hall) ?_ ?_
  · intro place hplace
    by_cases hmiddle : place ∈ middle
    case pos => exact hfree' place hmiddle
    case neg => exact hgone place (by grind)
  · intro place hplace
    obtain ⟨hnext, hprev⟩ := @same_of_join _ _ links _ _ _ (hgone _ lastOf_place) hmem place hplace
    obtain ⟨hnext', hprev'⟩ := @same_of_join _ _ (links.join (lastOf head before) first) _ _ _ hmem'
      (hgone _ firstOf_place) place hplace
    exact ⟨hnext'.trans hnext, hprev'.trans hprev⟩

end

end Library.Cycles
