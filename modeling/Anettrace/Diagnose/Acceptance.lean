import Anettrace.Diagnose.Model

/-!
# Which streams the diagnostics accept

`build_attempts` raises an error for a second start of an attempt and for a socket instance that two
attempts name. The connect probes name the socket of every attempt, so the diagnostics accept a
stream exactly when no two of its attempts share one.
-/

namespace Anettrace.Diagnose

open Library Export Native Probes

/-- The attempts whose start is in a stream. -/
def startedIds (salt : UInt64) (events : List ConnectOutput) : List UInt64 :=
  (events.filter fun event => event.kind = .start).map fun event => event.attemptId salt

/-- The socket instances that a stream associates with attempts whose start came before. -/
def associations (salt : UInt64) (started : List UInt64) :
    List ConnectOutput → List (UInt64 × UInt64)
  | [] => []
  | event :: rest =>
      let attemptId := event.attemptId salt
      match event.kind with
      | .start => associations salt (started ++ [attemptId]) rest
      | .socket =>
          if attemptId ∈ started then
            (socketIdOf salt event, attemptId) :: associations salt started rest
          else associations salt started rest
      | _ => associations salt started rest

/-- No attempt id is started twice. -/
def StartsOnce (salt : UInt64) (events : List ConnectOutput) : Prop :=
  (startedIds salt events).Nodup

def SocketsOnce (salt : UInt64) (events : List ConnectOutput) : Prop :=
  ∀ one ∈ associations salt [] events, ∀ other ∈ associations salt [] events,
    one.1 = other.1 → one.2 = other.2

instance (salt : UInt64) (events : List ConnectOutput) : Decidable (StartsOnce salt events) :=
  inferInstanceAs (Decidable (List.Nodup _))

instance (salt : UInt64) (events : List ConnectOutput) : Decidable (SocketsOnce salt events) :=
  inferInstanceAs (Decidable (∀ one ∈ associations salt [] events, ∀ other ∈ _, _))

/-! ## Records -/

/-- The loop gets to the end of the records. -/
def Accepts (builder : Builder) (records : List EventRecord) : Prop :=
  ∃ after, records.foldlM Builder.observe builder = .ok after

theorem accepts_cons {builder next : Builder} {record : EventRecord} {records : List EventRecord}
    (h : builder.observe record = .ok next) :
    Accepts builder (record :: records) ↔ Accepts next records := by
  unfold Accepts
  rw [List.foldlM_cons, h]
  exact Iff.rfl

theorem accepts_error {builder : Builder} {record : EventRecord} {records : List EventRecord}
    {error : DiagnosticsError} (h : builder.observe record = .error error) :
    ¬Accepts builder (record :: records) := by
  rintro ⟨after, hafter⟩
  rw [List.foldlM_cons, h] at hafter
  cases hafter

/-- The attempts and sockets that a builder knows. -/
structure Tracks (builder : Builder) (started : List UInt64) (bound : List (UInt64 × UInt64)) :
    Prop where
  attempts : ∀ attemptId, builder.knows attemptId = true ↔ attemptId ∈ started
  sockets : ∀ socketId attemptId,
    builder.sockets socketId = some attemptId ↔ (socketId, attemptId) ∈ bound

variable {builder : Builder} {started : List UInt64} {bound : List (UInt64 × UInt64)}

theorem Tracks.init : Tracks .init [] [] where
  attempts := fun _ => by simp [Builder.knows, Builder.init]
  sockets := fun _ _ => by simp [Builder.init]

theorem knows_update (builder : Builder) (attemptId other : UInt64) {change : Attempt → Attempt}
    (hchange : ∀ attempt, (change attempt).attemptId = attempt.attemptId) :
    (builder.update attemptId change).knows other = builder.knows other := by
  unfold Builder.knows Builder.update
  dsimp only
  rw [List.any_map]
  congr 1
  funext attempt
  dsimp only [Function.comp_apply]
  split
  case isTrue => rw [hchange]
  case isFalse => rfl

theorem Tracks.update (h : Tracks builder started bound) (attemptId : UInt64)
    {change : Attempt → Attempt} (hchange : ∀ attempt,
      (change attempt).attemptId = attempt.attemptId) :
    Tracks (builder.update attemptId change) started bound where
  attempts := fun other => by rw [knows_update builder attemptId other hchange, h.attempts]
  sockets := h.sockets

theorem Tracks.start (h : Tracks builder started bound) (attempt : Attempt) :
    Tracks { builder with attempts := builder.attempts ++ [attempt] }
      (started ++ [attempt.attemptId]) bound where
  attempts := by
    intro other
    rw [List.mem_append, List.mem_singleton, ← h.attempts other]
    unfold Builder.knows
    rw [List.any_append, Bool.or_eq_true, List.any_cons, List.any_nil, Bool.or_false,
      decide_eq_true_eq]
    exact or_congr_right eq_comm
  sockets := h.sockets

/-- The association of a socket that no other attempt has. -/
theorem Tracks.bind (h : Tracks builder started bound) {socketId attemptId : UInt64}
    (hfree : ∀ other, (socketId, other) ∈ bound → other = attemptId) {change : Attempt → Attempt}
    (hchange : ∀ attempt, (change attempt).attemptId = attempt.attemptId) :
    Tracks { builder.update attemptId change with
      sockets := builder.sockets.put socketId attemptId } started
      (bound ++ [(socketId, attemptId)]) where
  attempts := (h.update attemptId hchange).attempts
  sockets := by
    intro other found
    rw [List.mem_append, List.mem_singleton, Prod.mk.injEq]
    by_cases hsame : other = socketId
    case neg =>
      show builder.sockets.put socketId attemptId other = some found ↔ _
      rw [builder.sockets.put_other hsame, h.sockets]
      simp [hsame]
    case pos =>
      subst hsame
      show builder.sockets.put other attemptId other = some found ↔ _
      rw [Keyed.put_same]
      constructor
      · rintro ⟨⟩
        exact .inr ⟨rfl, rfl⟩
      · rintro (hold | ⟨-, rfl⟩)
        · rw [hfree found hold]
        · rfl

theorem accepts_socket (h : Tracks builder started bound) {tsNs socketId attemptId : UInt64}
    (hknown : builder.knows attemptId = true) {records : List EventRecord}
    {later : List (UInt64 × UInt64)} {starts : Prop}
    (ih : ∀ {next : Builder}, Tracks next started (bound ++ [(socketId, attemptId)]) →
      (Accepts next records ↔ starts ∧
        ∀ one ∈ later, ∀ other ∈ bound ++ [(socketId, attemptId)] ++ later,
          one.1 = other.1 → one.2 = other.2)) :
    Accepts builder (.socket tsNs attemptId socketId :: records) ↔ starts ∧
      ∀ one ∈ (socketId, attemptId) :: later, ∀ other ∈ bound ++ (socketId, attemptId) :: later,
        one.1 = other.1 → one.2 = other.2 := by
  by_cases hfree : ∀ other, (socketId, other) ∈ bound → other = attemptId
  case neg =>
    obtain ⟨previous, hprevious⟩ := Classical.not_forall.mp hfree
    obtain ⟨hbound, hother⟩ := Classical.not_imp.mp hprevious
    have hobserve : builder.observe (.socket tsNs attemptId socketId) =
        .error (.sharedSocket socketId) := by
      unfold Builder.observe
      dsimp only
      rw [if_neg (by simp [hknown]), (h.sockets socketId previous).mpr hbound]
      exact if_pos (by simpa using hother)
    refine iff_of_false (accepts_error hobserve) fun hall => ?_
    exact hother (hall.2 _ List.mem_cons_self _ (List.mem_append_left _ hbound) rfl).symm
  case pos =>
    have hobserve : ∃ next, builder.observe (.socket tsNs attemptId socketId) = .ok next ∧
        Tracks next started (bound ++ [(socketId, attemptId)]) := by
      unfold Builder.observe
      dsimp only
      rw [if_neg (by simp [hknown]), if_neg]
      · exact ⟨_, rfl, h.bind hfree fun _ => rfl⟩
      · rw [Option.any_eq_true]
        rintro ⟨previous, hprevious, hother⟩
        exact of_decide_eq_true hother (hfree previous ((h.sockets socketId previous).mp hprevious))
    obtain ⟨next, hok, hnext⟩ := hobserve
    refine (accepts_cons hok).trans ((ih hnext).trans (and_congr_right fun _ => ?_))
    rw [List.forall_mem_cons, List.append_assoc, List.singleton_append]
    refine (and_iff_right_of_imp fun hlater other hmem hsame => ?_).symm
    -- the new association agrees with the older ones, itself and the later ones
    rcases List.mem_append.mp hmem with hold | hrest
    · obtain ⟨_, previous⟩ := other
      obtain rfl : socketId = _ := hsame
      exact (hfree previous hold).symm
    · rcases List.mem_cons.mp hrest with rfl | hafter
      · rfl
      · refine (hlater other hafter (socketId, attemptId) ?_ hsame.symm).symm
        exact List.mem_append_right _ List.mem_cons_self

theorem startedIds_start (salt : UInt64) {event : ConnectOutput} (hkind : event.kind = .start)
    (rest : List ConnectOutput) :
    startedIds salt (event :: rest) = event.attemptId salt :: startedIds salt rest := by
  unfold startedIds
  rw [List.filter_cons_of_pos (by simpa using hkind)]
  rfl

theorem startedIds_other (salt : UInt64) {event : ConnectOutput} (hkind : event.kind ≠ .start)
    (rest : List ConnectOutput) : startedIds salt (event :: rest) = startedIds salt rest := by
  unfold startedIds
  rw [List.filter_cons_of_neg (by simpa using hkind)]

/-- An event that neither starts an attempt nor names its socket. -/
theorem accepts_quiet (salt : UInt64) {event : ConnectOutput} {rest : List ConnectOutput}
    (h : Tracks builder started bound) (hstart : event.kind ≠ .start)
    (hsocket : event.kind ≠ .socket) (ih : ∀ {builder : Builder}, Tracks builder started bound →
      (Accepts builder (rest.flatMap (exportConnectEvent salt)) ↔
        (startedIds salt rest).Nodup ∧ (∀ id ∈ startedIds salt rest, id ∉ started) ∧
        ∀ one ∈ associations salt started rest,
          ∀ other ∈ bound ++ associations salt started rest, one.1 = other.1 → one.2 = other.2)) :
    Accepts builder (exportConnectEvent salt event ++ rest.flatMap (exportConnectEvent salt)) ↔
      (startedIds salt (event :: rest)).Nodup ∧
      (∀ id ∈ startedIds salt (event :: rest), id ∉ started) ∧
      ∀ one ∈ associations salt started (event :: rest),
        ∀ other ∈ bound ++ associations salt started (event :: rest),
          one.1 = other.1 → one.2 = other.2 := by
  rw [startedIds_other salt hstart]
  unfold exportConnectEvent associations
  cases hkind : event.kind with
  | start => exact absurd hkind hstart
  | socket => exact absurd hkind hsocket
  | result =>
      refine (accepts_cons rfl).trans (ih ?_)
      exact h.update _ fun _ => rfl
  | soError =>
      refine (accepts_cons rfl).trans (ih ?_)
      exact h.update _ fun _ => rfl
  | cancel =>
      refine (accepts_cons rfl).trans (ih ?_)
      exact h.update _ fun _ => rfl
  | other => exact ih h

/-- A stream is accepted from a builder on: its starts are new, and its associations agree with each
other and with those before. The induction is on the stream, and the builder is the one its
beginning leads to. -/
theorem accepts_iff (salt : UInt64) (events : List ConnectOutput)
    (h : Tracks builder started bound) :
    Accepts builder (events.flatMap (exportConnectEvent salt)) ↔
      (startedIds salt events).Nodup ∧ (∀ id ∈ startedIds salt events, id ∉ started) ∧
      ∀ one ∈ associations salt started events,
        ∀ other ∈ bound ++ associations salt started events, one.1 = other.1 → one.2 = other.2 := by
  induction events generalizing builder started bound with
  | nil => simp [Accepts, startedIds, associations, pure, Except.pure]
  | cons event rest ih =>
      rw [List.flatMap_cons]
      by_cases hstart : event.kind = .start
      case pos =>
        rw [startedIds_start salt hstart,
          show associations salt started (event :: rest) =
            associations salt (started ++ [event.attemptId salt]) rest by
              simp only [associations, hstart]]
        unfold exportConnectEvent
        rw [hstart]
        by_cases hknown : builder.knows (event.attemptId salt) = true
        case pos =>
          refine iff_of_false (accepts_error (if_pos hknown)) fun hall => ?_
          exact hall.2.1 _ List.mem_cons_self ((h.attempts _).mp hknown)
        case neg =>
          have hnew := (not_congr (h.attempts (event.attemptId salt))).mp hknown
          have hobserve : builder.observe (.attemptStart event.ts (event.attemptId salt) event.uid
              event.tid event.tgid event.fd) = .ok { builder with
                attempts := builder.attempts ++ [.started event.ts (event.attemptId salt) event.uid
                  event.tid event.tgid event.fd] } := if_neg hknown
          refine (accepts_cons hobserve).trans ((ih (h.start _)).trans ?_)
          rw [show (Attempt.started event.ts (event.attemptId salt) event.uid event.tid event.tgid
            event.fd).attemptId = event.attemptId salt from rfl]
          rw [List.nodup_cons, List.forall_mem_cons]
          constructor
          · rintro ⟨hnodup, hfresh, hbound⟩
            refine ⟨⟨fun hmem => ?_, hnodup⟩, ⟨hnew, fun id hid hold => ?_⟩, hbound⟩
            · exact hfresh _ hmem (List.mem_append_right _ (List.mem_singleton_self _))
            · exact hfresh id hid (List.mem_append_left _ hold)
          · rintro ⟨⟨hfirst, hnodup⟩, ⟨-, hfresh⟩, hbound⟩
            refine ⟨hnodup, fun id hid hold => ?_, hbound⟩
            rcases List.mem_append.mp hold with hold | hsame
            · exact hfresh id hid hold
            · exact hfirst (List.mem_singleton.mp hsame ▸ hid)
      case neg =>
        by_cases hsocket : event.kind = .socket
        case neg => exact accepts_quiet salt h hstart hsocket ih
        case pos =>
          rw [startedIds_other salt hstart]
          unfold exportConnectEvent
          rw [hsocket]
          by_cases hknown : builder.knows (event.attemptId salt) = true
          case neg =>
            -- the attempt's start was lost, and the record is passed over
            rw [show associations salt started (event :: rest) = associations salt started rest by
              simp only [associations, hsocket]
              exact if_neg ((not_congr (h.attempts _)).mp hknown)]
            have hobserve : builder.observe (.socket event.ts (event.attemptId salt)
                (socketIdOf salt event)) = .ok builder := if_pos (by simpa using hknown)
            exact (accepts_cons hobserve).trans (ih h)
          case pos =>
            rw [show associations salt started (event :: rest) =
              (socketIdOf salt event, event.attemptId salt) :: associations salt started rest by
                simp only [associations, hsocket]
                exact if_pos ((h.attempts _).mp hknown)]
            rw [← and_assoc]
            exact accepts_socket h hknown fun hnext => (ih hnext).trans and_assoc.symm

/-- The diagnostics report on the file of a capture exactly when no attempt id is started twice and
no socket instance is connected by two attempts. -/
theorem analyze_accepts_iff (salt startNs : UInt64) (events : List ConnectOutput)
    (endNs lostEvents : UInt64) (truncated : Bool) (requested : ReportStatus) :
    (∃ report, analyzeRecords (writtenRecords salt startNs events endNs lostEvents truncated)
        requested = .ok report) ↔
      StartsOnce salt events ∧ SocketsOnce salt events := by
  -- the clock and the end of the trace are always accepted
  have hclock : ∃ next, Builder.init.observe (.clockSnapshot startNs) = .ok next ∧
      Tracks next [] [] := by
    refine ⟨_, rfl, ?_⟩
    split
    · exact ⟨Tracks.init.attempts, Tracks.init.sockets⟩
    · exact .init
  obtain ⟨next, hok, htracks⟩ := hclock
  have hloop : Accepts .init (writtenRecords salt startNs events endNs lostEvents truncated) ↔
      Accepts next (events.flatMap (exportConnectEvent salt)) := by
    refine (accepts_cons hok).trans ?_
    unfold Accepts
    rw [show (events.flatMap (exportConnectEvent salt)).append
      [EventRecord.traceEnd endNs lostEvents truncated] =
        events.flatMap (exportConnectEvent salt) ++
          [.traceEnd endNs lostEvents truncated] from rfl, List.foldlM_append]
    cases List.foldlM Builder.observe next (events.flatMap (exportConnectEvent salt)) with
    | error error => exact iff_of_false (fun ⟨_, h⟩ => by cases h) fun ⟨_, h⟩ => by cases h
    | ok builder => exact iff_of_true ⟨_, rfl⟩ ⟨_, rfl⟩
  have hreport : (∃ report, analyzeRecords (writtenRecords salt startNs events endNs lostEvents
      truncated) requested = .ok report) ↔
      Accepts .init (writtenRecords salt startNs events endNs lostEvents truncated) := by
    unfold analyzeRecords Accepts
    cases List.foldlM Builder.observe .init
        (writtenRecords salt startNs events endNs lostEvents truncated) with
    | error error => exact iff_of_false (fun ⟨_, h⟩ => by cases h) fun ⟨_, h⟩ => by cases h
    | ok builder => exact iff_of_true ⟨_, rfl⟩ ⟨_, rfl⟩
  rw [hreport, hloop, accepts_iff salt events htracks]
  simp [StartsOnce, SocketsOnce]

/-- One thread connects one nonblocking socket twice: it polls the attempt by `connect()`. -/
def connectedTwice : List ConnectStep :=
  let remote : RemoteEndpoint := ⟨2, 80, [127, 0, 0, 1]⟩
  let ske : Endpoints := ⟨[], 0, 6, 0, 0⟩
  [.connectEnter (smallNow 10) 3 (some remote), .inetStreamConnect (smallNow 11) 100 1 ske,
    .connectExit (smallNow 12) (-115),
    .connectEnter (smallNow 20) 3 (some remote), .inetStreamConnect (smallNow 21) 100 1 ske,
    .connectExit (smallNow 22) 0]

/-- The diagnostics raise an error for it, with nothing lost. -/
theorem polled_connect_rejected :
    ¬∃ report, analyzeRecords
      (writtenRecords 0 1 (connectOutputs smallArgs connectedTwice) 30 0 false) .valid =
        .ok report := by
  rintro ⟨report, hreport⟩
  have hrejected : (analyzeRecords
      (writtenRecords 0 1 (connectOutputs smallArgs connectedTwice) 30 0 false) .valid).isOk =
        false := by decide +kernel
  rw [hreport] at hrejected
  cases hrejected

end Anettrace.Diagnose
