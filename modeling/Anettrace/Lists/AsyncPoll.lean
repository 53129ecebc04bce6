import Anettrace.Analysis.AsyncList
import Anettrace.Lists.Operations

/-!
# The list between two threads

`do_async_poll` and `async_poll_thread` of `src/analysis.c`, on the links of their lists. The thread
that receives the records inserts each of them into `async_list`; the polling thread takes the list
over and hands its records to a callback, one after the other. What a thread does while it holds the
lock is one step. A record that was handed over may be freed, even while the loop stands at it, and
its memory is then used for other things, or for the next record.
-/

namespace Anettrace.Lists

open Library
open Library.Cycles
open Anettrace.Analysis (DataList arrived arrived_concat)

variable {α : Type*} [DecidableEq α]

/-- The loop of `analy_dlist_add`, from `pos` on. -/
def analyDlistAddFrom (ts : α → Nat) (data head : α) (links : Links α) : Nat → α → Option (Links α)
  | 0, pos => if pos = head then some (listAdd data head links) else none
  | rounds + 1, pos =>
      if pos = head then some (listAdd data head links)
      else if ts pos < ts data then some (listAdd data pos links)
      else analyDlistAddFrom ts data head links rounds (links.prev pos)

def analyDlistAdd (ts : α → Nat) (data head : α) (links : Links α) (rounds : Nat) :
    Option (Links α) :=
  analyDlistAddFrom ts data head links rounds (links.prev head)

/-- Where the polling thread stands: before a round, before its loop, at the test of the loop, or
behind the callback. -/
inductive Poller (α : Type*) where
  | waits
  | taken
  | tests (pos n : α)
  | called (n : α)
  deriving DecidableEq, Repr

/-- `async_list`, and the `head` of the polling thread. -/
structure AsyncHeads (α : Type*) where
  asyncList : α
  head : α

/-- The memory of the two threads: the links, and the record behind each of them. `inUse` has the
records that were not handed over yet, and `handled` what the callback was given. -/
structure AsyncState (α : Type*) where
  links : Links α
  records : α → DataList
  poller : Poller α
  arrivals : Nat
  inUse : List α
  handled : List DataList

/-- What happens next: a record arrives and gets memory, the polling thread goes on, or memory that
is not in use is written. -/
inductive AsyncAction (α : Type*) where
  | push (dlist : α) (data : Nat → UInt8)
  | poll
  | write (place next prev : α) (record : DataList)

/-- `do_async_poll`, where there is memory. -/
def doAsyncPoll (heads : AsyncHeads α) (state : AsyncState α) (dlist : α) (data : Nat → UInt8) :
    Option (AsyncState α) :=
  let records := Function.update state.records dlist ⟨state.arrivals, data⟩
  (analyDlistAdd (fun place => (records place).pktTs) dlist heads.asyncList
      (initListHead dlist state.links) state.inUse.length).map fun links =>
    { state with
      links
      records
      arrivals := state.arrivals + 1
      inUse := dlist :: state.inUse }

/-- The part of `async_poll_thread` that is locked. -/
def takeOver (heads : AsyncHeads α) (links : Links α) : Links α :=
  listSpliceInit heads.asyncList heads.head (initListHead heads.head links)

/-- The next step of `async_poll_thread`; its loop is `list_for_each_entry_safe`. -/
def asyncPollThread (heads : AsyncHeads α) (state : AsyncState α) : AsyncState α :=
  match state.poller with
  | .waits => { state with links := takeOver heads state.links, poller := .taken }
  | .taken =>
      let pos := state.links.next heads.head
      { state with poller := .tests pos (state.links.next pos) }
  | .tests pos n =>
      if pos = heads.head then { state with poller := .waits }
      else
        { state with
          poller := .called n
          inUse := state.inUse.erase pos
          handled := state.handled ++ [state.records pos] }
  | .called n => { state with poller := .tests n (state.links.next n) }

/-- One step; `none` stands for a loop that does not end within as many rounds as there are
records. -/
def asyncStep (heads : AsyncHeads α) (state : AsyncState α) : AsyncAction α → Option (AsyncState α)
  | .push dlist data => doAsyncPoll heads state dlist data
  | .poll => some (asyncPollThread heads state)
  | .write place next prev record =>
      some { state with
        links := (state.links.setNext place next).setPrev place prev
        records := Function.update state.records place record }

/-- The state before the first record, whatever is in memory: `LIST_HEAD(async_list)`. -/
def AsyncState.start (heads : AsyncHeads α) (links : Links α) (records : α → DataList) :
    AsyncState α where
  links := initListHead heads.asyncList links
  records
  poller := .waits
  arrivals := 0
  inUse := []
  handled := []

/-- Memory that `malloc` may return, or that others may write: it has no record that was not handed
over, and none of the heads. -/
def Available (heads : AsyncHeads α) (state : AsyncState α) (place : α) : Prop :=
  place ∉ state.inUse ∧ place ≠ heads.asyncList ∧ place ≠ heads.head

/-- An action that is possible in a state. -/
def AsyncAction.Possible (heads : AsyncHeads α) (state : AsyncState α) : AsyncAction α → Prop
  | .push dlist _ => Available heads state dlist
  | .poll => True
  | .write place _ _ _ => Available heads state place

/-- Every action of a run is possible in the state that it finds. -/
def AsyncRun (heads : AsyncHeads α) : AsyncState α → List (AsyncAction α) → Prop
  | _, [] => True
  | state, action :: rest =>
      action.Possible heads state ∧
        match asyncStep heads state action with
        | none => True
        | some later => AsyncRun heads later rest

instance (heads : AsyncHeads α) (state : AsyncState α) (place : α) :
    Decidable (Available heads state place) :=
  inferInstanceAs (Decidable (_ ∧ _ ∧ _))

instance (heads : AsyncHeads α) (state : AsyncState α) :
    (action : AsyncAction α) → Decidable (action.Possible heads state)
  | .push dlist _ => inferInstanceAs (Decidable (Available heads state dlist))
  | .poll => isTrue trivial
  | .write place _ _ _ => inferInstanceAs (Decidable (Available heads state place))

/-- A run can be checked action by action. -/
instance AsyncRun.decidable (heads : AsyncHeads α) :
    (state : AsyncState α) → (actions : List (AsyncAction α)) →
    Decidable (AsyncRun heads state actions)
  | _, [] => isTrue trivial
  | state, action :: rest =>
      @instDecidableAnd _ _ inferInstance
        (match asyncStep heads state action with
        | none => isTrue trivial
        | some later => AsyncRun.decidable heads later rest)

/-- The record of an action, as it is in memory. -/
def AsyncAction.pushed : AsyncAction α → Option (Nat → UInt8)
  | .push _ data => some data
  | _ => none

/-- Records that wait at the same time, as the polling thread finds them. -/
def queued (batch : List DataList) : List DataList :=
  batch.foldl Analysis.analyDlistAdd []

/-! ## Insertion -/

variable {links changed : Links α} {heads : AsyncHeads α} {state later : AsyncState α}
  {head data dlist place : α} {entries before after waiting rest : List α}

/-- The loop inserts a record where `insertBack` does. -/
theorem analyDlistAddFrom_eq (ts : α → Nat) (h : Cycle links head (before ++ after)) {rounds : Nat}
    (hrounds : before.length ≤ rounds) :
    ∃ front behind, before = front ++ behind ∧
      analyDlistAddFrom ts data head links rounds (lastOf head before) =
        some (listAdd data (lastOf head front) links) ∧
      insertBack ts before data = front ++ data :: behind := by
  induction before using List.reverseRecOn generalizing after rounds with
  | nil =>
      refine ⟨[], [], rfl, ?_, rfl⟩
      cases rounds <;> simp [analyDlistAddFrom]
  | append_singleton earlier last ih =>
      obtain ⟨rounds, rfl⟩ : ∃ fewer, rounds = fewer + 1 := ⟨rounds - 1, by grind⟩
      have hne : last ≠ head := by
        intro heq
        exact (List.nodup_cons.mp h.nodup).1 (by simp [heq])
      have hinsert : insertBack ts (earlier ++ [last]) data =
          if ts last < ts data then (earlier ++ [last]) ++ [data]
            else insertBack ts earlier data ++ [last] := by
        unfold insertBack
        rw [List.reverse_concat, placeBack]
        split <;> simp
      rw [lastOf_concat, analyDlistAddFrom, if_neg hne, hinsert]
      by_cases hts : ts last < ts data
      case pos =>
        refine ⟨earlier ++ [last], [], by simp, ?_, ?_⟩
        · rw [if_pos hts, lastOf_concat]
        · rw [if_pos hts]
      case neg =>
        -- the loop goes on at the record before, and the last one is behind the new record
        rw [List.append_assoc, List.singleton_append] at h
        obtain ⟨front, behind, rfl, hloop, hback⟩ := ih h (by simpa using hrounds)
        refine ⟨front, behind ++ [last], by simp, ?_, ?_⟩
        · rw [if_neg hts, h.around.1, hloop]
        · rw [if_neg hts, hback]
          simp

/-- A record that is pushed is inserted where `insertBack` inserts it, and other successors stay. -/
theorem analyDlistAdd_kept (ts : α → Nat) (h : Cycle links head waiting)
    (hout : data ∉ head :: waiting) {rounds : Nat} (hrounds : waiting.length ≤ rounds) :
    ∃ later, analyDlistAdd ts data head (initListHead data links) rounds = some later ∧
      Cycle later head (insertBack ts waiting data) ∧
      ∀ place, place ≠ data → place ∉ head :: waiting → later.next place = links.next place := by
  have hfree : Free (Keyed.empty.put head waiting) data := (free_empty data).put hout
  have hinit : Family (initListHead data links) (Keyed.empty.put head waiting) :=
    poisoned_kept ⟨data, data⟩ h.family hfree
  have hcycle := hinit.cycle head waiting (Keyed.put_same _ head waiting)
  obtain ⟨front, behind, rfl, hloop, hback⟩ :=
    @analyDlistAddFrom_eq _ _ _ head data waiting [] ts (by rwa [List.append_nil]) rounds hrounds
  refine ⟨listAdd data (lastOf head front) (initListHead data links), ?_, ?_, ?_⟩
  · unfold analyDlistAdd
    rw [hcycle.prev_head]
    exact hloop
  · have hkept := listAdd_kept hinit hfree (Keyed.put_same _ head (front ++ behind))
    rw [hback]
    exact hkept.cycle head _ (Keyed.put_same _ head _)
  · intro place hne hplace
    have hlast : place ≠ lastOf head front := fun heq => hplace (heq ▸ lastOf_place)
    have hnext : (listAdd data (lastOf head front) (initListHead data links)).next place =
        (initListHead data links).next place := by
      show Function.update (Function.update _ data _) (lastOf head front) _ place = _
      rw [Function.update_of_ne hlast, Function.update_of_ne hne]
      rfl
    rw [hnext]
    exact Function.update_of_ne hne _ _

/-- What the polling thread takes over is all of `async_list`, which is empty then. -/
theorem takeOver_kept (h : Cycle links heads.asyncList waiting)
    (hout : heads.head ∉ heads.asyncList :: waiting) :
    Cycle (takeOver heads links) heads.asyncList [] ∧
      Cycle (takeOver heads links) heads.head waiting := by
  have hne : heads.asyncList ≠ heads.head := fun heq => hout (heq ▸ List.mem_cons_self)
  have hfree : Free (Keyed.empty.put heads.asyncList waiting) heads.head := (free_empty _).put hout
  have hinit := initListHead_kept h.family hfree
  have hlist : ((Keyed.empty.put heads.asyncList waiting).put heads.head []) heads.asyncList =
      some waiting := by
    rw [Keyed.put_other _ hne, Keyed.put_same]
  by_cases hempty : waiting = []
  case pos =>
    subst hempty
    have hkept := apply_kept ⟨heads.head, heads.head⟩ hinit
      (@Effect.spliceNothing _ _ _ _ (.spliceInit heads.asyncList heads.head) heads.head hlist
        (.inr (.inr rfl)))
    exact ⟨hkept.cycle _ _ hlist, hkept.cycle _ _ (Keyed.put_same _ _ _)⟩
  case neg =>
    have hhead :
        (((Keyed.empty.put heads.asyncList waiting).put heads.head []).remove heads.asyncList)
        heads.head = some ([] ++ []) := by
      rw [Keyed.remove_other _ (Ne.symm hne), Keyed.put_same]
      rfl
    have hkept := apply_kept ⟨heads.head, heads.head⟩ hinit (Effect.spliceInit hlist hempty hhead)
    refine ⟨hkept.cycle _ _ (Keyed.put_same _ _ _), hkept.cycle heads.head waiting ?_⟩
    rw [Keyed.put_other _ (Ne.symm hne), Keyed.put_same]
    simp

/-! ## Runs -/

/-- The polling thread goes through the rest of its list. -/
def Stands (heads : AsyncHeads α) (links : Links α) (rest : List α) : Poller α → Prop
  | .waits => rest = []
  | .taken => links.next heads.head = firstOf heads.head rest
  | .tests pos n => pos = firstOf heads.head rest ∧ (rest ≠ [] → n = firstOf heads.head rest.tail)
  | .called n => n = firstOf heads.head rest

/-- What a run has done: the records that arrived are those of the batches that were taken over and
those that wait, and the batches were handed over but for the rest of the last one. -/
structure Polled (heads : AsyncHeads α) (arrivals : List DataList) (state : AsyncState α)
    (waiting rest : List α) (batches : List (List DataList)) (pending : List DataList) : Prop where
  cycle : Cycle state.links heads.asyncList waiting
  chain : (rest ++ [heads.head]).IsChain fun first second => state.links.next first = second
  stands : Stands heads state.links rest state.poller
  apart : (heads.asyncList :: heads.head :: (waiting ++ rest)).Nodup
  inUse : state.inUse.Perm (waiting ++ rest)
  count : state.arrivals = arrivals.length
  taken : arrivals = batches.flatten ++ pending
  waits : waiting.map state.records = queued pending
  handled : state.handled ++ rest.map state.records = (batches.map queued).flatten

section

variable {arrivals : List DataList} {batches : List (List DataList)} {pending : List DataList}

omit [DecidableEq α] in
/-- The polling thread reads the successor of its head, and of what is before it. -/
theorem Stands.congr {poller : Poller α} (h : Stands heads links rest poller)
    (hnext : changed.next heads.head = links.next heads.head) :
    Stands heads changed rest poller := by
  cases poller with
  | taken => exact hnext.trans h
  | waits => exact h
  | tests pos n => exact h
  | called n => exact h

omit [DecidableEq α] in
/-- Each place of a chain leads to the next one. -/
theorem chain_congr (h : (rest ++ [head]).IsChain fun first second => links.next first = second)
    (hnext : ∀ place ∈ rest ++ [head], changed.next place = links.next place) :
    (rest ++ [head]).IsChain fun first second => changed.next first = second := by
  refine List.IsChain.imp_of_mem_imp ?_ h
  intro first second hfirst _ hlinked
  exact (hnext first hfirst).trans hlinked

omit [DecidableEq α] in
/-- The first place of a chain leads to the second one, or to the head. -/
theorem chain_next (h : (rest ++ [head]).IsChain fun first second => links.next first = second)
    (hne : rest ≠ []) : links.next (firstOf head rest) = firstOf head rest.tail := by
  obtain ⟨first, tail, rfl⟩ := List.exists_cons_of_ne_nil hne
  exact (List.isChain_cons.mp h).1 _ head?_head

omit [DecidableEq α] in
/-- Available memory is none of what the threads read. -/
theorem Polled.available (h : Polled heads arrivals state waiting rest batches pending)
    (havailable : Available heads state dlist) :
    dlist ∉ heads.asyncList :: heads.head :: (waiting ++ rest) := by
  obtain ⟨hfree, hlist, hhead⟩ := havailable
  rw [h.inUse.mem_iff] at hfree
  simp only [List.mem_cons, not_or]
  exact ⟨hlist, hhead, hfree⟩

theorem map_update_of_notMem {places : List α} {records : α → DataList} {record : DataList}
    (h : place ∉ places) : places.map (Function.update records place record) =
    places.map records := by
  refine List.map_congr_left fun other hmem => ?_
  exact Function.update_of_ne (ne_of_mem_of_not_mem hmem h) _ _

/-- A record arrives. -/
theorem Polled.push (h : Polled heads arrivals state waiting rest batches pending)
    (havailable : Available heads state dlist) (data : Nat → UInt8) :
    ∃ later waiting', doAsyncPoll heads state dlist data = some later ∧
      Polled heads (arrivals ++ [⟨arrivals.length, data⟩]) later waiting' rest batches
        (pending ++ [⟨arrivals.length, data⟩]) := by
  have hout := h.available havailable
  have hapart := h.apart
  have hwaiting : dlist ∉ heads.asyncList :: waiting := by grind
  have hrounds : waiting.length ≤ state.inUse.length := by
    rw [h.inUse.length_eq, List.length_append]
    omega
  obtain ⟨links, hlinks, hcycle, hnext⟩ := analyDlistAdd_kept
    (fun place => (Function.update state.records dlist ⟨state.arrivals, data⟩ place).pktTs)
    h.cycle hwaiting hrounds
  -- the polling thread reads no link that the insertion writes
  have hsame : ∀ place ∈ rest ++ [heads.head], links.next place = state.links.next place := by
    intro place hmem
    exact hnext place (by grind) (by grind)
  have hperm := (insertBack_perm
    (fun place => (Function.update state.records dlist ⟨state.arrivals, data⟩ place).pktTs)
    waiting dlist).append_right rest
  have hpush : doAsyncPoll heads state dlist data = some
      { state with
        links
        records := Function.update state.records dlist ⟨state.arrivals, data⟩
        arrivals := state.arrivals + 1
        inUse := dlist :: state.inUse } := by
    unfold doAsyncPoll
    dsimp only
    rw [hlinks]
    rfl
  refine ⟨_, insertBack (fun place =>
    (Function.update state.records dlist ⟨state.arrivals, data⟩ place).pktTs)
    waiting dlist, hpush, ?_⟩
  exact
    { cycle := hcycle
      chain := chain_congr h.chain hsame
      stands := h.stands.congr (hsame heads.head (by simp))
      apart := by
        refine (((hperm.cons heads.head).cons heads.asyncList).nodup_iff).mpr ?_
        grind
      inUse := (h.inUse.cons dlist).trans hperm.symm
      count := by simp [h.count]
      taken := by rw [h.taken, List.append_assoc]
      waits := by
        rw [insertBack_map DataList.pktTs, map_update_of_notMem (by grind), h.waits]
        show insertBack DataList.pktTs (queued pending)
          (Function.update state.records dlist ⟨state.arrivals, data⟩ dlist) = _
        rw [Function.update_self, h.count, queued, queued, List.foldl_concat]
        rfl
      handled := by
        rw [map_update_of_notMem (by grind)]
        exact h.handled }

/-- Memory that is not in use is written. -/
theorem Polled.write (h : Polled heads arrivals state waiting rest batches pending)
    (havailable : Available heads state place) (next prev : α) (record : DataList) :
    Polled heads arrivals
      { state with
        links := (state.links.setNext place next).setPrev place prev
        records := Function.update state.records place record } waiting rest batches pending := by
  have hout := h.available havailable
  have hsame : ∀ other ∈ rest ++ [heads.head],
      ((state.links.setNext place next).setPrev place prev).next other =
        state.links.next other := by
    intro other hmem
    have hne : other ≠ place := by grind
    exact Function.update_of_ne hne _ _
  have hfree : Free (Keyed.empty.put heads.asyncList waiting) place :=
    (free_empty place).put (by grind)
  exact
    { cycle := (poisoned_kept ⟨next, prev⟩ h.cycle.family hfree).cycle _ _
        (Keyed.put_same _ _ _)
      chain := chain_congr h.chain hsame
      stands := h.stands.congr (hsame heads.head (by simp))
      apart := h.apart
      inUse := h.inUse
      count := h.count
      taken := h.taken
      waits := by
        rw [map_update_of_notMem (by grind)]
        exact h.waits
      handled := by
        rw [map_update_of_notMem (by grind)]
        exact h.handled }

theorem Polled.poll (h : Polled heads arrivals state waiting rest batches pending) :
    ∃ waiting' rest' batches' pending',
      Polled heads arrivals (asyncPollThread heads state) waiting' rest' batches' pending' := by
  have hapart := h.apart
  have hstands := h.stands
  unfold asyncPollThread
  cases hpoller : state.poller with
  | waits =>
      rw [hpoller] at hstands
      obtain rfl : rest = [] := hstands
      -- what waited is the next batch, all of it still to be handed over
      obtain ⟨hlist, hhead⟩ := takeOver_kept h.cycle (by grind)
      have hchain : (waiting ++ [heads.head]).IsChain fun first second =>
          (takeOver heads state.links).next first = second :=
        List.IsChain.imp (fun _ _ hjoined => hjoined.1) (@Cycle.split _ _ _ [] waiting hhead).2.1
      refine ⟨[], waiting, batches ++ [pending], [], ?_⟩
      exact
        { cycle := hlist
          chain := hchain
          stands := hhead.next_head
          apart := by simpa using hapart
          inUse := by simpa using h.inUse
          count := h.count
          taken := by simpa using h.taken
          waits := rfl
          handled := by
            have hhandled := h.handled
            rw [List.map_nil, List.append_nil] at hhandled
            rw [List.map_append, List.flatten_append, h.waits, hhandled]
            simp }
  | taken =>
      rw [hpoller] at hstands
      have hnext : state.links.next heads.head = firstOf heads.head rest := hstands
      refine ⟨waiting, rest, batches, pending, { h with stands := ⟨hnext, fun hne => ?_⟩ }⟩
      rw [hnext]
      exact chain_next h.chain hne
  | tests pos n =>
      rw [hpoller] at hstands
      obtain ⟨hpos, hn⟩ := hstands
      dsimp only
      cases rest with
      | nil =>
          have hhead : pos = heads.head := hpos
          rw [if_pos hhead]
          exact ⟨waiting, [], batches, pending, { h with stands := rfl }⟩
      | cons first tail =>
          obtain rfl : pos = first := hpos
          have hne : pos ≠ heads.head := by grind
          rw [if_neg hne]
          -- the successor was read before, so the memory of the record is not read again
          refine ⟨waiting, tail, batches, pending, ?_⟩
          exact
            { h with
              chain := (List.isChain_cons.mp h.chain).2
              stands := hn (List.cons_ne_nil pos tail)
              apart := by grind
              inUse := by
                have herase := h.inUse.erase pos
                rwa [List.erase_append_right _ (by grind), List.erase_cons_head] at herase
              handled := by
                have hhandled := h.handled
                rw [List.map_cons] at hhandled
                simpa using hhandled }
  | called n =>
      rw [hpoller] at hstands
      have hn : n = firstOf heads.head rest := hstands
      refine ⟨waiting, rest, batches, pending, { h with stands := ⟨hn, fun hne => ?_⟩ }⟩
      rw [hn]
      exact chain_next h.chain hne

/-- A run from a state that keeps the lists is not stuck, and keeps them. -/
theorem Polled.run {sent : List (Nat → UInt8)} {actions : List (AsyncAction α)}
    (h : Polled heads (arrived sent) state waiting rest batches pending)
    (hrun : AsyncRun heads state actions) :
    ∃ later waiting' rest' batches' pending', actions.foldlM (asyncStep heads) state = some later ∧
      Polled heads (arrived (sent ++ actions.filterMap AsyncAction.pushed)) later waiting'
        rest' batches'
        pending' := by
  induction actions generalizing sent state waiting rest batches pending with
  | nil =>
      refine ⟨state, waiting, rest, batches, pending, rfl, ?_⟩
      rw [List.filterMap_nil, List.append_nil]
      exact h
  | cons action actions ih =>
      obtain ⟨hpossible, hrun⟩ := hrun
      cases action with
      | push dlist data =>
          have hpush := h.push hpossible data
          rw [show (arrived sent).length = sent.length by simp [arrived], ← arrived_concat] at hpush
          obtain ⟨later, waiting', hstep, hlater⟩ := hpush
          have hstep : asyncStep heads state (.push dlist data) = some later := hstep
          have hsent : (AsyncAction.push dlist data :: actions).filterMap AsyncAction.pushed =
              data :: actions.filterMap AsyncAction.pushed := rfl
          rw [hstep] at hrun
          rw [List.foldlM_cons, hstep, hsent, List.append_cons]
          exact ih hlater hrun
      | poll =>
          obtain ⟨waiting', rest', batches', pending', hlater⟩ := h.poll
          exact ih hlater hrun
      | write place next prev record => exact ih (h.write hpossible next prev record) hrun

/-- Before the first record nothing waits. -/
theorem Polled.start (hne : heads.asyncList ≠ heads.head) (links : Links α)
    (records : α → DataList) :
    Polled heads (arrived []) (AsyncState.start heads links records) [] [] [] [] where
  cycle := initListHead_cycle heads.asyncList links
  chain := List.IsChain.singleton heads.head
  stands := rfl
  apart := by simpa using hne
  inUse := List.Perm.refl []
  count := rfl
  taken := rfl
  waits := rfl
  handled := rfl

/-- Whatever the order in which records arrive and the polling thread goes on, and whatever becomes
of the memory of the records that were handed over: no loop over a list goes astray, the records
that arrived are those of the batches that were taken over, in the order of their arrival, and those
that wait; the callback gets the batches one after the other, each of them in the order of its
insertions, and every record of them once, before the polling thread waits again; and `async_list`
has the records that wait. -/
theorem records_handed_over {heads : AsyncHeads α} (hne : heads.asyncList ≠ heads.head)
    (links : Links α) (records : α → DataList) {actions : List (AsyncAction α)}
    (hrun : AsyncRun heads (AsyncState.start heads links records) actions) :
    ∃ (state : AsyncState α) (batches : List (List DataList)) (pending : List
      DataList) (waiting : List α),
      actions.foldlM (asyncStep heads) (AsyncState.start heads links records) = some state ∧
      arrived (actions.filterMap AsyncAction.pushed) = batches.flatten ++ pending ∧
      state.handled <+: (batches.map queued).flatten ∧
      (state.poller = .waits → state.handled = (batches.map queued).flatten) ∧
      Shows state.links heads.asyncList waiting ∧ waiting.map state.records = queued pending := by
  obtain ⟨state, waiting, rest, batches, pending, hstate, hpolled⟩ :=
    (Polled.start hne links records).run hrun
  refine ⟨state, batches, pending, waiting, hstate, hpolled.taken, ?_, ?_,
    shows_entries hpolled.cycle,
    hpolled.waits⟩
  · exact ⟨_, hpolled.handled⟩
  · intro hwaits
    have hstands := hpolled.stands
    rw [hwaits] at hstands
    obtain rfl : rest = [] := hstands
    simpa using hpolled.handled

def timedRecord (ts : UInt8) (place : Nat) : UInt8 :=
  if place = Analysis.eventTsOffset then ts else 0

/-- Two records arrive, the later one first. The polling thread takes them over and hands the first
one over; its memory is used for a third record while the loop stands at it. -/
def smallActions : List (AsyncAction Nat) :=
  [.push 2 (timedRecord 9), .push 3 (timedRecord 4), .poll, .poll, .poll,
    .write 3 7 7 ⟨0, fun _ => 0⟩,
    .push 3 (timedRecord 5), .poll, .poll, .poll, .poll]

theorem records_handed_over_small :
    AsyncRun ⟨0, 1⟩ (AsyncState.start ⟨0, 1⟩ ⟨id, id⟩ fun _ => ⟨0, fun _ => 0⟩) smallActions ∧
      ∃ (state : AsyncState Nat) (batches : List (List DataList)) (pending : List DataList)
          (waiting : List Nat),
        smallActions.foldlM (asyncStep ⟨0, 1⟩)
          (AsyncState.start ⟨0, 1⟩ ⟨id, id⟩ fun _ => ⟨0, fun _ => 0⟩) = some state ∧
        arrived (smallActions.filterMap AsyncAction.pushed) = batches.flatten ++ pending ∧
        state.handled <+: (batches.map queued).flatten ∧
        (state.poller = .waits → state.handled = (batches.map queued).flatten) ∧
        Shows state.links 0 waiting ∧ waiting.map state.records = queued pending := by
  have hrun : AsyncRun ⟨0, 1⟩ (AsyncState.start ⟨0, 1⟩ ⟨id, id⟩ fun _ => ⟨0, fun _ => 0⟩)
      smallActions := by
    decide +kernel
  exact ⟨hrun, records_handed_over (by decide) ⟨id, id⟩ _ hrun⟩

end

end Anettrace.Lists
