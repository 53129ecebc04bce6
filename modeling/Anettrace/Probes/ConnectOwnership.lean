import Anettrace.Probes.Connect

/-!
# Whose entries a probe removes

The entries of an attempt in `m_connect_fd` and `m_connect_socket` are found by a file descriptor
and by the address of a socket, which are used again. As long as an attempt takes a descriptor and a
socket that no other attempt's record names, a probe removes and replaces entries of the attempt it
ends alone; `connect_forget` itself does not look whose entry it removes.
-/

namespace Anettrace.Probes

open Library

/-- What tells attempts apart: the thread that connects, and when it began. -/
structure AttemptId where
  startTs : UInt64
  tid : UInt32
  tgid : UInt32
  deriving DecidableEq, Repr, Inhabited

/-- The attempt a record belongs to. -/
def ConnectPending.attempt (pending : ConnectPending) : AttemptId :=
  ⟨pending.startTs, pending.tid, pending.tgid⟩

/-- A record that one of the maps holds. -/
inductive ConnectMaps.Holds (maps : ConnectMaps) (record : ConnectPending) : Prop
  | pending (thread : UInt64) (h : maps.pending thread = some record)
  | fd (key : ConnectFdKey) (h : maps.fd key = some record)
  | getsockopt (thread : UInt64) (get : ConnectGetsockopt) (h : maps.getsockopt thread = some get)
      (hrecord : get.pending = record)
  | socket (sk : UInt64) (h : maps.socket sk = some record)

/-- Two records name one descriptor or one socket. -/
def ConnectPending.Meets (first second : ConnectPending) : Prop :=
  first.fdKey = second.fdKey ∨ (first.socketKey ≠ 0 ∧ first.socketKey = second.socketKey)

/-- The record that a step stores under a descriptor or a socket. -/
def ConnectStep.takes (args : BpfArgs) (maps : ConnectMaps) : ConnectStep → Option ConnectPending
  | .connectEnter now fd (some remote) =>
      if !connectCurrentMatches args now.current.tid now.current.uid ∨ !now.scratch then none
      else some (connectBegun now fd remote)
  | .inetStreamConnect now sk generation _ =>
      if !args.watchesConnects ∨ sk = 0 ∨ !now.scratch then none
      else
        (maps.pending now.current.pidTgid).map fun pending =>
          { pending with socketKey := sk, socketGeneration := generation }
  | _ => none

def ConnectStep.forgets (args : BpfArgs) (maps : ConnectMaps) : ConnectStep → Option ConnectPending
  | .getsockoptExit now result error =>
      if !args.watchesConnects ∨ !now.scratch ∨ result ≠ 0 then none
      else
        match maps.getsockopt now.current.pidTgid, error with
        | some get, some error =>
            if get.optval ≠ 0 ∧ error ≠ 115 ∧ error ≠ 114 then some get.pending else none
        | _, _ => none
  | .connectExit now result =>
      if !args.watchesConnects ∨ now.scratch ∧ (result = -115 ∨ result = -114) then none
      else maps.pending now.current.pidTgid
  | .tcpClose _ sk _ => if !args.watchesConnects ∨ sk = 0 then none else maps.socket sk
  | _ => none

/-- The maps drop entries by themselves. -/
def ConnectStep.evicts : ConnectStep → Bool
  | .evictPending _ | .evictFd _ | .evictGetsockopt _ | .evictSocket _ => true
  | _ => false

/-- A map keeps the entries of every attempt but one. -/
def KeepsOthers {κ : Type*} (before after : Keyed κ ConnectPending) (ended : Option AttemptId) :
    Prop :=
  ∀ key record, before key = some record → ended ≠ some record.attempt →
    ∃ found, after key = some found ∧ found.attempt = record.attempt

/-- In every step of a probe, the attempts that the step does not end keep their entries. -/
def AttemptsApart (args : BpfArgs) (steps : List ConnectStep) : Prop :=
  ∀ before step later, steps = before ++ step :: later → step.evicts = false →
    let maps := connectMapsAfter args before
    let ended := (step.forgets args maps).map ConnectPending.attempt
    KeepsOthers maps.fd (step.apply args maps).1.fd ended ∧
      KeepsOthers maps.socket (step.apply args maps).1.socket ended

/-- In every step, the descriptor and the socket that the step stores a record under are named by no
record of another attempt. -/
def KeysFresh (args : BpfArgs) (steps : List ConnectStep) : Prop :=
  ∀ before step later, steps = before ++ step :: later →
    ∀ new, step.takes args (connectMapsAfter args before) = some new →
      ∀ record, (connectMapsAfter args before).Holds record → record.Meets new →
        record.attempt = new.attempt

/-! ## What a step changes -/

def EntryStep {κ : Type*} (before after : Keyed κ ConnectPending) (keyOf : ConnectPending → κ)
    (taken : Option ConnectPending) (gone : κ → Prop) : Prop :=
  ∀ key, after key = before key ∨ (∃ new, taken = some new ∧ key = keyOf new ∧
    after key = some new) ∨
    (after key = none ∧ gone key)

/-- What a step can do to the maps: store the record it takes, copy a record for `getsockopt()`,
and remove the entries of the record it forgets. -/
structure ConnectChange (maps after : ConnectMaps) (taken forgotten : Option ConnectPending)
    (evicts : Bool) : Prop where
  pending : ∀ thread record, after.pending thread = some record →
    maps.pending thread = some record ∨ taken = some record
  getsockopt : ∀ thread get, after.getsockopt thread = some get →
    maps.getsockopt thread = some get ∨ maps.Holds get.pending
  fd : EntryStep maps.fd after.fd ConnectPending.fdKey taken fun key =>
    evicts = true ∨ ∃ record, forgotten = some record ∧ key = record.fdKey
  socket : EntryStep maps.socket after.socket ConnectPending.socketKey
    (taken.filter fun record => record.socketKey ≠ 0) fun sk =>
      evicts = true ∨ ∃ record, forgotten = some record ∧ record.socketKey ≠ 0 ∧
        sk = record.socketKey

section ConnectChange

variable {maps : ConnectMaps} {taken forgotten : Option ConnectPending} {evicts : Bool}

theorem EntryStep.refl {κ : Type*} {map : Keyed κ ConnectPending} {keyOf : ConnectPending → κ}
    {gone : κ → Prop} : EntryStep map map keyOf taken gone :=
  fun _ => .inl rfl

theorem ConnectChange.same : ConnectChange maps maps taken forgotten evicts :=
  ⟨fun _ _ h => .inl h, fun _ _ h => .inl h, .refl, .refl⟩

theorem updateElem_entryStep {κ : Type*} [DecidableEq κ] {stores : Bool}
    {map : Keyed κ ConnectPending} {keyOf : ConnectPending → κ} {gone : κ → Prop}
    {new : ConnectPending} {key : κ} (hkey : key = keyOf new) :
    EntryStep map (updateElem stores map key new) keyOf (some new) gone := by
  intro other
  unfold updateElem
  split
  case isFalse => exact .inl rfl
  case isTrue =>
    by_cases hother : other = key
    case neg => exact .inl (map.put_other hother new)
    case pos =>
      subst hother
      exact .inr (.inl ⟨new, rfl, hkey, map.put_same other new⟩)

theorem remove_entryStep {κ : Type*} [DecidableEq κ] {map : Keyed κ ConnectPending}
    {keyOf : ConnectPending → κ} {gone : κ → Prop} {key : κ} (hgone : gone key) :
    EntryStep map (map.remove key) keyOf taken gone := by
  intro other
  by_cases hother : other = key
  case neg => exact .inl (map.remove_other hother)
  case pos =>
    subst hother
    exact .inr (.inr ⟨map.remove_same other, hgone⟩)

theorem updateElem_cases {κ ν : Type*} [DecidableEq κ] {stores : Bool} {map : Keyed κ ν}
    {key other : κ} {value found : ν} (h : updateElem stores map key value other = some found) :
    found = value ∨ map other = some found := by
  unfold updateElem at h
  split at h
  case isTrue => exact (Keyed.put_cases h).imp And.right And.right
  case isFalse => exact .inr h

theorem ConnectChange.forget (pending : ConnectPending) {after : ConnectMaps}
    (hpending : ∀ thread record, after.pending thread = some record →
      maps.pending thread = some record)
    (hgetsockopt : ∀ thread get, after.getsockopt thread = some get →
      maps.getsockopt thread = some get) (hfd : after.fd = (connectForget maps pending).fd)
    (hsocket : after.socket = (connectForget maps pending).socket) :
    ConnectChange maps after taken (some pending) evicts := by
  refine ⟨fun thread record h => .inl (hpending thread record h),
    fun thread get h => .inl (hgetsockopt thread get h), ?_, ?_⟩
  · rw [hfd, show (connectForget maps pending).fd = maps.fd.remove pending.fdKey by
      unfold connectForget; dsimp only; split <;> rfl]
    exact remove_entryStep (.inr ⟨pending, rfl, rfl⟩)
  · rw [hsocket]
    unfold connectForget
    dsimp only
    split
    case isTrue hkey => exact remove_entryStep (.inr ⟨pending, rfl, hkey, rfl⟩)
    case isFalse => exact .refl

end ConnectChange

section Probes

variable (args : BpfArgs) (now : ConnectNow) (maps : ConnectMaps)

theorem getsockoptEnter_change (fd level optname : Int32) (optval : UInt64) :
    ConnectChange maps (getsockoptEnter args now fd level optname optval maps) none none false := by
  unfold getsockoptEnter
  split
  case isTrue => exact .same
  split
  case isTrue => exact .same
  split
  case h_1 => exact .same
  case h_2 pending hfd =>
    split
    case isTrue => exact .same
    case isFalse =>
      -- the copy is of a record that `m_connect_fd` holds
      refine ⟨fun _ _ h => .inl h, fun thread get h => ?_, .refl, .refl⟩
      rcases updateElem_cases h with rfl | hold
      · exact .inr (.fd _ hfd)
      · exact .inl hold

theorem connectEnter_change (fd : Int32) (remote : Option RemoteEndpoint) :
    ConnectChange maps (connectEnter args now fd remote maps).1
      ((ConnectStep.connectEnter now fd remote).takes args maps) none false := by
  unfold connectEnter
  split
  case isTrue => exact .same
  case isFalse hmatch =>
    cases remote with
    | none => exact .same
    | some remote =>
        rw [show (ConnectStep.connectEnter now fd (some remote)).takes args maps =
          some (connectBegun now fd remote) from if_neg hmatch]
        refine ⟨fun thread record h => ?_, fun _ _ h => .inl h, updateElem_entryStep rfl, .refl⟩
        rcases updateElem_cases h with rfl | hold
        · exact .inr rfl
        · exact .inl hold

theorem getsockoptExit_change (result : Int64) (error : Option Int32) :
    ConnectChange maps (getsockoptExit args now result error maps).1 none
      ((ConnectStep.getsockoptExit now result error).forgets args maps) false := by
  -- the record of the call goes in every case
  have hretired (get : ConnectGetsockopt) (thread : UInt64)
      (h : maps.getsockopt.remove now.current.pidTgid thread = some get) :
      maps.getsockopt thread = some get := (Keyed.remove_cases h).2
  unfold getsockoptExit
  split
  case isTrue => exact .same
  case isFalse hwatches =>
    split
    case h_1 => exact .same
    case h_2 get hget =>
      dsimp only
      split
      case h_1 =>
        exact ⟨fun _ _ h => .inl h, fun thread get h => .inl (hretired get thread h), .refl, .refl⟩
      case h_2 error =>
        split
        case isTrue =>
          exact ⟨fun _ _ h => .inl h, fun thread get h =>
            .inl (hretired get thread h), .refl, .refl⟩
        case isFalse hread =>
          simp only [not_or] at hread
          dsimp only
          split
          case isFalse =>
            exact ⟨fun _ _ h => .inl h, fun thread get h => .inl (hretired get thread h), .refl,
              .refl⟩
          case isTrue hended =>
            have hforgets : (ConnectStep.getsockoptExit now result (some error)).forgets args maps =
                some get.pending := by
              unfold ConnectStep.forgets
              dsimp only
              rw [if_neg (by simp [hwatches, hread]), hget]
              exact if_pos ⟨hread.2.2, hended⟩
            rw [hforgets]
            refine ConnectChange.forget get.pending (fun _ _ h => ?_)
              (fun thread get h => ?_) rfl rfl
            · unfold connectForget at h
              dsimp only at h
              split at h <;> exact h
            · unfold connectForget at h
              dsimp only at h
              split at h <;> exact hretired get thread h

theorem connectExit_change (result : Int64) :
    ConnectChange maps (connectExit args now result maps).1 none
      ((ConnectStep.connectExit now result).forgets args maps) false := by
  have hretired (record : ConnectPending) (thread : UInt64)
      (h : maps.pending.remove now.current.pidTgid thread = some record) :
      maps.pending thread = some record := (Keyed.remove_cases h).2
  unfold connectExit
  split
  case isTrue => exact .same
  case isFalse hwatches =>
    split
    case h_1 => exact .same
    case h_2 pending hpending =>
      have hforget : ConnectChange maps
          { connectForget maps pending with
            pending := (connectForget maps pending).pending.remove now.current.pidTgid }
          none (some pending) false := by
        refine ConnectChange.forget pending (fun thread record h => hretired record thread ?_)
          (fun _ _ h => ?_) rfl rfl
        · unfold connectForget at h
          dsimp only at h
          split at h <;> exact h
        · unfold connectForget at h
          dsimp only at h
          split at h <;> exact h
      have hforgets (h : ¬(now.scratch = true ∧ (result = -115 ∨ result = -114))) :
          (ConnectStep.connectExit now result).forgets args maps = some pending :=
        (if_neg (by simp [hwatches, h])).trans hpending
      dsimp only
      split
      case isTrue hscratch =>
        rw [hforgets fun h => by simp [h.1] at hscratch]
        exact hforget
      case isFalse hscratch =>
        dsimp only
        split
        case isTrue =>
          exact ⟨fun thread record h => .inl (hretired record thread h), fun _ _ h => .inl h, .refl,
            .refl⟩
        case isFalse hended =>
          rw [hforgets fun h => hended h.2]
          exact hforget

theorem tcpCloseConnect_change (sk : UInt64) (state : TcpState) :
    ConnectChange maps (tcpCloseConnect args now sk state maps).1 none
      ((ConnectStep.tcpClose now sk state).forgets args maps) false := by
  unfold tcpCloseConnect
  split
  case isTrue => exact .same
  case isFalse hwatches =>
    split
    case h_1 => exact .same
    case h_2 pending hpending =>
      rw [show (ConnectStep.tcpClose now sk state).forgets args maps = some pending from
        (if_neg hwatches).trans hpending]
      refine ConnectChange.forget pending (fun _ _ h => ?_) (fun _ _ h => ?_) rfl rfl
      · unfold connectForget at h
        dsimp only at h
        split at h <;> exact h
      · unfold connectForget at h
        dsimp only at h
        split at h <;> exact h

theorem inetStreamConnect_change (sk : UInt64) (generation : UInt32) (ske : Endpoints) :
    ConnectChange maps (inetStreamConnect args now sk generation ske maps).1
      ((ConnectStep.inetStreamConnect now sk generation ske).takes args maps) none false := by
  unfold inetStreamConnect
  split
  case isTrue => exact .same
  case isFalse hwatches =>
    split
    case h_1 => exact .same
    case h_2 pending hpending =>
      split
      case isTrue => exact .same
      case isFalse hsocket =>
        have htakes : (ConnectStep.inetStreamConnect now sk generation ske).takes args maps =
            some { pending with socketKey := sk, socketGeneration := generation } := by
          unfold ConnectStep.takes
          dsimp only
          rw [if_neg (by simp only [not_or] at hsocket ⊢; exact ⟨hwatches, hsocket⟩), hpending]
          rfl
        have hkey : sk ≠ 0 := fun h => hsocket (.inl h)
        rw [htakes]
        refine ⟨fun thread record h => ?_, fun _ _ h => .inl h, updateElem_entryStep rfl, ?_⟩
        · rcases updateElem_cases h with rfl | hold
          · exact .inr rfl
          · exact .inl hold
        · rw [Option.filter_some, if_pos (by simpa using hkey)]
          exact updateElem_entryStep rfl

theorem ConnectStep.change (step : ConnectStep) :
    ConnectChange maps (step.apply args maps).1 (step.takes args maps) (step.forgets args maps)
      step.evicts := by
  cases step with
  | getsockoptEnter now fd level optname optval =>
      exact getsockoptEnter_change args now maps fd level optname optval
  | connectEnter now fd remote => exact connectEnter_change args now maps fd remote
  | getsockoptExit now result error => exact getsockoptExit_change args now maps result error
  | connectExit now result => exact connectExit_change args now maps result
  | tcpClose now sk state => exact tcpCloseConnect_change args now maps sk state
  | inetStreamConnect now sk generation ske =>
      exact inetStreamConnect_change args now maps sk generation ske
  | evictPending thread =>
      exact ⟨fun _ _ h => .inl (Keyed.remove_cases h).2, fun _ _ h => .inl h, .refl, .refl⟩
  | evictFd key =>
      exact ⟨fun _ _ h => .inl h, fun _ _ h => .inl h, remove_entryStep (.inl rfl), .refl⟩
  | evictGetsockopt thread =>
      exact ⟨fun _ _ h => .inl h, fun _ _ h => .inl (Keyed.remove_cases h).2, .refl, .refl⟩
  | evictSocket sk =>
      exact ⟨fun _ _ h => .inl h, fun _ _ h => .inl h, .refl, remove_entryStep (.inl rfl)⟩

end Probes

/-! ## Runs -/

/-- Entries stand under the keys they name, and records that meet are of one attempt. -/
structure ConnectMaps.Apart (maps : ConnectMaps) : Prop where
  fd : ∀ key record, maps.fd key = some record → record.fdKey = key
  socket : ∀ sk record, maps.socket sk = some record → record.socketKey = sk ∧ sk ≠ 0
  meets : ∀ first second, maps.Holds first → maps.Holds second → first.Meets second →
    first.attempt = second.attempt

theorem ConnectMaps.Apart.init : ConnectMaps.init.Apart where
  fd := fun _ _ h => by cases h
  socket := fun _ _ h => by cases h
  meets := fun _ _ h => by cases h <;> contradiction

section Apart

variable {args : BpfArgs} {maps after : ConnectMaps} {taken forgotten : Option ConnectPending}
  {evicts : Bool}

theorem ConnectPending.Meets.symm {first second : ConnectPending} (h : first.Meets second) :
    second.Meets first := by
  rcases h with hfd | ⟨hnonzero, hsocket⟩
  · exact .inl hfd.symm
  · exact .inr ⟨hsocket ▸ hnonzero, hsocket.symm⟩

theorem EntryStep.some_cases {κ : Type*} {before later : Keyed κ ConnectPending}
    {keyOf : ConnectPending → κ} {gone : κ → Prop} (h : EntryStep before later keyOf taken gone)
    {key : κ} {record : ConnectPending} (hrecord : later key = some record) :
    before key = some record ∨ (taken = some record ∧ key = keyOf record) := by
  obtain hsame | ⟨new, hnew, hkey, hstored⟩ | ⟨hnone, -⟩ := h key
  · exact .inl (hsame ▸ hrecord)
  · obtain rfl : new = record := Option.some.inj (hstored.symm.trans hrecord)
    exact .inr ⟨hnew, hkey⟩
  · rw [hnone] at hrecord
    cases hrecord

/-- A record after a step was there before, or is the one the step takes. -/
theorem ConnectChange.holds (h : ConnectChange maps after taken forgotten evicts)
    {record : ConnectPending} (hrecord : after.Holds record) :
    maps.Holds record ∨ taken = some record := by
  cases hrecord with
  | pending thread hsome => exact (h.pending thread record hsome).imp_left (.pending thread)
  | fd key hsome => exact (h.fd.some_cases hsome).imp (.fd key) And.left
  | getsockopt thread get hsome hof =>
      subst hof
      exact .inl ((h.getsockopt thread get hsome).elim
        (fun hold => .getsockopt thread get hold rfl) id)
  | socket sk hsome =>
      refine (h.socket.some_cases hsome).imp (.socket sk) fun hnew => ?_
      exact (Option.filter_eq_some_iff.mp hnew.1).1

/-- Records stay apart where the step takes a descriptor and a socket of no other attempt. -/
theorem ConnectChange.apart (h : ConnectChange maps after taken forgotten evicts)
    (hapart : maps.Apart)
    (hfresh : ∀ new, taken = some new → ∀ record, maps.Holds record → record.Meets new →
      record.attempt = new.attempt) : after.Apart where
  fd := by
    intro key record hrecord
    exact (h.fd.some_cases hrecord).elim (hapart.fd key record) fun hnew => hnew.2.symm
  socket := by
    intro sk record hrecord
    rcases h.socket.some_cases hrecord with hold | ⟨hnew, rfl⟩
    · exact hapart.socket sk record hold
    · exact ⟨rfl, by simpa using (Option.filter_eq_some_iff.mp hnew).2⟩
  meets := by
    intro first second hfirst hsecond hmeets
    rcases h.holds hfirst, h.holds hsecond with ⟨hold | hnew, hold' | hnew'⟩
    · exact hapart.meets first second hold hold' hmeets
    · exact hfresh second hnew' first hold hmeets
    · exact (hfresh first hnew second hold' hmeets.symm).symm
    · rw [Option.some.inj (hnew.symm.trans hnew')]

theorem EntryStep.keepsOthers {κ : Type*} {before later : Keyed κ ConnectPending}
    {keyOf : ConnectPending → κ} {gone : κ → Prop} (h : EntryStep before later keyOf taken gone)
    {ended : Option AttemptId}
    (htaken : ∀ new, taken = some new → ∀ record, before (keyOf new) = some record →
      record.attempt = new.attempt)
    (hgone : ∀ key record, gone key → before key = some record → ended = some record.attempt) :
    KeepsOthers before later ended := by
  intro key record hrecord hother
  obtain hsame | ⟨new, hnew, rfl, hstored⟩ | ⟨-, hremoved⟩ := h key
  · exact ⟨record, hsame.trans hrecord, rfl⟩
  · exact ⟨new, hstored, (htaken new hnew record hrecord).symm⟩
  · exact absurd (hgone key record hremoved hrecord) hother

theorem ConnectStep.forgets_held {step : ConnectStep} {record : ConnectPending}
    (h : step.forgets args maps = some record) : maps.Holds record := by
  unfold ConnectStep.forgets at h
  split at h
  case h_1 now result error =>
    split at h
    case isTrue => cases h
    case isFalse =>
      split at h
      case h_2 => cases h
      case h_1 get error hget =>
        split at h
        case isTrue => exact .getsockopt _ get hget (Option.some.inj h)
        case isFalse => cases h
  case h_2 =>
    split at h
    case isTrue => cases h
    case isFalse => exact .pending _ h
  case h_3 =>
    split at h
    case isTrue => cases h
    case isFalse => exact .socket _ h
  case h_4 => cases h

end Apart

/-- The condition on a run is one on its beginnings. -/
theorem KeysFresh.before {args : BpfArgs} {steps later : List ConnectStep}
    (h : KeysFresh args (steps ++ later)) : KeysFresh args steps :=
  fun before step rest heq => h before step (rest ++ later) (by rw [heq]; simp)

/-- The invariant of a run whose attempts take fresh descriptors and sockets. -/
theorem connectMaps_apart {args : BpfArgs} {steps : List ConnectStep}
    (hfresh : KeysFresh args steps) : (connectMapsAfter args steps).Apart := by
  revert hfresh
  refine @Run.run_history _ _ (fun maps step => (ConnectStep.apply args maps step).1) .init
    (fun history maps => KeysFresh args history → maps.Apart) ?_ ?_ steps
  · exact fun _ => .init
  · intro history step ih hfresh
    exact (step.change args _).apart (ih hfresh.before) (hfresh history step [] rfl)

/-- The records that the steps of a run store, in their order. -/
def takenAlong (args : BpfArgs) (steps : List ConnectStep) : List ConnectPending :=
  Run.observations (fun maps step => (ConnectStep.apply args maps step).1)
    (fun maps step => (ConnectStep.takes args maps step).toList) .init steps

theorem mem_takenAlong {args : BpfArgs} {steps : List ConnectStep} {record : ConnectPending}
    (h : (connectMapsAfter args steps).Holds record) : record ∈ takenAlong args steps := by
  revert record
  refine @Run.run_history _ _ (fun maps step => (ConnectStep.apply args maps step).1) .init
    (fun history maps => ∀ {record}, maps.Holds record → record ∈ takenAlong args history) ?_ ?_
      steps
  · intro record h
    cases h <;> contradiction
  · intro history step ih record h
    rw [takenAlong, Run.observations_concat, List.mem_append]
    rcases (step.change args _).holds h with hold | hnew
    · exact Or.inl (ih hold)
    · exact Or.inr (Option.mem_toList.mpr hnew)

instance (first second : ConnectPending) : Decidable (first.Meets second) :=
  inferInstanceAs (Decidable (_ ∨ _))

/-- The records of a beginning of a run are the first ones of the run. -/
theorem takenAlong_prefix {args : BpfArgs} {steps later : List ConnectStep} :
    takenAlong args steps <+: takenAlong args (steps ++ later) := by
  induction later using List.reverseRecOn with
  | nil => rw [List.append_nil]
  | append_singleton rest step ih =>
      rw [← List.append_assoc, takenAlong, takenAlong, Run.observations_concat]
      exact ih.trans (List.prefix_append _ _)

theorem keysFresh_of_apart {args : BpfArgs} {steps : List ConnectStep}
    (h : (takenAlong args steps).Pairwise fun first second =>
      first.Meets second → first.attempt = second.attempt) : KeysFresh args steps := by
  rintro before step later rfl new hnew record hheld hmeets
  rw [← List.singleton_append, ← List.append_assoc] at h
  have htaken : takenAlong args (before ++ [step]) <+: takenAlong args
      (before ++ [step] ++ later) :=
    takenAlong_prefix
  have hpair := h.sublist htaken.sublist
  rw [takenAlong, Run.observations_concat, List.pairwise_append] at hpair
  exact hpair.2.2 record (mem_takenAlong hheld) new (Option.mem_toList.mpr hnew) hmeets

/-- Where every attempt takes a descriptor and a socket that no record of another attempt names, a
probe removes and replaces entries of the attempt it ends alone. -/
theorem attempts_apart (args : BpfArgs) (steps : List ConnectStep)
    (hfresh : KeysFresh args steps) : AttemptsApart args steps := by
  intro before step later heq hprobe
  dsimp only
  have hapart := connectMaps_apart (heq ▸ hfresh).before
  have hchange := step.change args (connectMapsAfter args before)
  have htaken := hfresh before step later heq
  constructor
  · refine hchange.fd.keepsOthers (fun new hnew record hrecord => ?_)
      fun key record hgone hrecord => ?_
    · exact htaken new hnew record (.fd _ hrecord) (.inl (hapart.fd _ record hrecord))
    · obtain hevicts | ⟨ended, hended, rfl⟩ := hgone
      · rw [hprobe] at hevicts
        cases hevicts
      · -- the entry under the descriptor of the ended attempt is its own
        rw [hended, hapart.meets record ended (.fd _ hrecord) (ConnectStep.forgets_held hended)
          (.inl (hapart.fd _ record hrecord))]
        rfl
  · refine hchange.socket.keepsOthers (fun new hnew record hrecord => ?_)
      fun sk record hgone hrecord => ?_
    · obtain ⟨hkey, hnonzero⟩ := hapart.socket _ record hrecord
      exact htaken new (Option.filter_eq_some_iff.mp hnew).1 record (.socket _ hrecord)
        (.inr ⟨hkey ▸ hnonzero, hkey⟩)
    · obtain hevicts | ⟨ended, hended, -, rfl⟩ := hgone
      · rw [hprobe] at hevicts
        cases hevicts
      · obtain ⟨hkey, hnonzero⟩ := hapart.socket _ record hrecord
        rw [hended, hapart.meets record ended (.socket _ hrecord)
          (ConnectStep.forgets_held hended) (.inr ⟨hkey ▸ hnonzero, hkey⟩)]
        rfl

/-- A probe of a thread of process 1, with nothing in short supply. -/
def threadNow (tid : UInt32) (ts : UInt64) : ConnectNow :=
  ⟨ts, ⟨tid, 1, 1000, 100, []⟩, true, true, true, true, true⟩

/-- Two threads of a process connect at once without blocking: the first one on descriptor 3 to the
end of socket 100, the second one on descriptor 4 to the end of socket 200. -/
def interleavedAttempts : List ConnectStep :=
  let remote : RemoteEndpoint := ⟨2, 80, [127, 0, 0, 1]⟩
  let ske : Endpoints := ⟨[], 0, 6, 0, 0⟩
  [.connectEnter (threadNow 1 10) 3 (some remote), .connectEnter (threadNow 2 11) 4 (some remote),
    .inetStreamConnect (threadNow 2 12) 200 2 ske, .inetStreamConnect (threadNow 1 13) 100 1 ske,
    .connectExit (threadNow 1 14) (-115), .connectExit (threadNow 2 15) (-115)]

/-- The first socket of the two is closed: its attempt loses its entries, and the second attempt
keeps the ones under its descriptor and its socket. -/
theorem attempts_apart_small :
    let close := ConnectStep.tcpClose (threadNow 1 30) 100 .synSent
    let maps := connectMapsAfter smallArgs interleavedAttempts
    let after := (close.apply smallArgs maps).1
    AttemptsApart smallArgs (interleavedAttempts ++ [close]) ∧
      ∃ ended other, close.forgets smallArgs maps = some ended ∧ other.attempt ≠ ended.attempt ∧
        maps.fd ⟨1, 3⟩ = some ended ∧ maps.fd ⟨1, 4⟩ = some other ∧ maps.socket 200 = some other ∧
        after.fd ⟨1, 3⟩ = none ∧ after.socket 100 = none ∧
        after.fd ⟨1, 4⟩ = some other ∧ after.socket 200 = some other :=
  ⟨attempts_apart smallArgs _ (keysFresh_of_apart (by decide)),
    _, _, rfl, by decide, rfl, rfl, rfl, rfl, rfl, rfl, rfl⟩

/-- A nonblocking `connect()` of the socket 100 on descriptor 3, which is then duplicated and
closed; a second socket gets the descriptor 3, and a second attempt on it is pending. -/
def descriptorReused : List ConnectStep :=
  let remote : RemoteEndpoint := ⟨2, 80, [127, 0, 0, 1]⟩
  let ske : Endpoints := ⟨[], 0, 6, 0, 0⟩
  [.connectEnter (smallNow 10) 3 (some remote), .inetStreamConnect (smallNow 11) 100 1 ske,
    .connectExit (smallNow 12) (-115),
    .connectEnter (smallNow 20) 3 (some remote), .inetStreamConnect (smallNow 21) 200 2 ske,
    .connectExit (smallNow 22) (-115)]

/-- Closing the first socket forgets the first attempt, and removes the entry of the second one. -/
theorem forget_removes_other :
    let close := ConnectStep.tcpClose (smallNow 30) 100 .synSent
    let maps := connectMapsAfter smallArgs descriptorReused
    (∃ forgotten other, close.forgets smallArgs maps = some forgotten ∧
      maps.fd ⟨1, 3⟩ = some other ∧ other.attempt ≠ forgotten.attempt ∧
      maps.socket 200 = some other ∧ (close.apply smallArgs maps).1.fd ⟨1, 3⟩ = none) ∧
    ¬AttemptsApart smallArgs (descriptorReused ++ [close]) := by
  refine ⟨⟨_, _, rfl, rfl, by decide, rfl, rfl⟩, fun h => ?_⟩
  obtain ⟨found, hfound, -⟩ := (h descriptorReused _ [] rfl rfl).1 ⟨1, 3⟩ _ rfl (by decide)
  cases hfound

end Anettrace.Probes
