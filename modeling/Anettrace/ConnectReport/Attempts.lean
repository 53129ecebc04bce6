import Anettrace.ConnectReport.Stream
import Anettrace.Library.Fallible

/-!
# What a record changes in an attempt

A record adds to the evidence of its attempt and leaves its id. The other fields that a
classification reads are set by records of one or two types: `Observed` says which types those are,
and what a record of any other type leaves as it is.
-/

namespace Anettrace.ConnectReport

open Library Fallible

theorem Record.isType_other {record : Record} {name other : String} (h : record.isType name = true)
    (hne : other ≠ name) : record.isType other = false := by
  unfold isType at *
  rw [of_decide_eq_true h]
  simpa using hne.symm

theorem Record.isType_absurd {record : Record} {name : String} {P : Prop}
    (h : record.isType name = true) (hne : record.isType name = false) : P :=
  Bool.noConfusion (h.symm.trans hne)

namespace Attempt

/-- What an attempt keeps when it takes a record. -/
structure Observed (attempt : Attempt) (record : Record) (after : Attempt) : Prop where
  attemptId : after.attemptId = attempt.attemptId
  evidence : attempt.evidence <+: after.evidence
  established : attempt.established = true → after.established = true
  result : record.isType "connect_attempt_end" = false → after.result = attempt.result
  asyncPending : record.isType "connect_attempt_end" = false →
    after.asyncPending = attempt.asyncPending
  returned : record.isType "connect_attempt_end" = true → after.result.isSome = true
  soError : record.isType "connect_so_error" = false → after.soError = attempt.soError
  reset : record.isType "connect_reset" = false → attempt.resetWhileConnecting = true →
    after.resetWhileConnecting = true
  exactDrop : record.isType "connect_drop" = false → attempt.exactDrop = true →
    after.exactDrop = true
  cancelled : record.isType "connect_cancel" = false → attempt.cancelled = true →
    after.cancelled = true

variable {attempt after : Attempt} {record : Record}

/-- Nothing changes. -/
theorem Observed.refl (attempt : Attempt) (hend : record.isType "connect_attempt_end" = false) :
    Observed attempt record attempt where
  attemptId := rfl
  evidence := List.prefix_refl _
  established := id
  result := fun _ => rfl
  asyncPending := fun _ => rfl
  returned := fun h => Record.isType_absurd h hend
  soError := fun _ => rfl
  reset := fun _ => id
  exactDrop := fun _ => id
  cancelled := fun _ => id

theorem Observed.addEvidence (h : Observed attempt record after) (other : Record) (kind : String) :
    Observed attempt record (after.addEvidence other kind) :=
  { h with evidence := h.evidence.trans (List.prefix_append _ _) }

theorem Observed.associate (h : Observed attempt record after) (socketId : String) :
    Observed attempt record (after.associate record socketId) :=
  { h.addEvidence record "connect_socket" with }

theorem observeNetworkContext_eq (h : attempt.observeNetworkContext record = .ok after) :
    ∃ interfaces namespaces marks, after =
      { attempt with
        interfaces := interfaces, networkNamespaces := namespaces, socketMarks := marks } := by
  obtain ⟨namespaces, -, h⟩ := bind_ok.mp h
  obtain ⟨marks, -, h⟩ := bind_ok.mp h
  cases h
  exact ⟨_, namespaces, marks, rfl⟩

theorem observeNetworkContext_observed (hend : record.isType "connect_attempt_end" = false)
    (h : attempt.observeNetworkContext record = .ok after) : Observed attempt record after := by
  obtain ⟨interfaces, namespaces, marks, rfl⟩ := observeNetworkContext_eq h
  exact { Observed.refl attempt hend with }

theorem endIf_eq {ends : Bool} {endOf : Int → Int}
    (h : attempt.endIf record ends endOf = .ok after) :
    ∃ endedNs, after = { attempt with endedNs := endedNs } := by
  unfold endIf at h
  split at h
  case isTrue =>
    cases hts : record.needInt "ts_ns" with
    | error error =>
        rw [hts] at h
        cases h
    | ok tsNs =>
        rw [hts] at h
        cases h
        exact ⟨_, rfl⟩
  case isFalse =>
    cases h
    exact ⟨_, rfl⟩

/-! ## The records of each type -/

/-- What the end of the call says. -/
theorem observeEnd_eq (h : attempt.observeEnd record = .ok after) :
    ∃ result error endedNs, after =
      { attempt with
        result := some result, error := some error, asyncPending := record.flag "async_pending"
        endedNs := endedNs }.addEvidence record "connect_attempt_end" := by
  obtain ⟨result, -, h⟩ := bind_ok.mp h
  obtain ⟨error, -, h⟩ := bind_ok.mp h
  obtain ⟨ended, hended, h⟩ := bind_ok.mp h
  obtain ⟨endedNs, rfl⟩ := endIf_eq hended
  cases h
  exact ⟨result, error, endedNs, rfl⟩

/-- What the error of the socket says. -/
theorem observeSoError_eq (h : attempt.observeSoError record = .ok after) :
    ∃ error endedNs, record.needInt "error" = .ok error ∧
      after = { attempt with soError := some error, endedNs := endedNs }.addEvidence record
        "connect_so_error" := by
  obtain ⟨error, herror, h⟩ := bind_ok.mp h
  obtain ⟨ended, hended, h⟩ := bind_ok.mp h
  obtain ⟨endedNs, rfl⟩ := endIf_eq hended
  cases h
  exact ⟨error, endedNs, herror, rfl⟩

theorem observeReset_eq (h : attempt.observeReset record = .ok after) :
    ∃ endedNs, after = { attempt with
        resetWhileConnecting := attempt.isReset record, endedNs := endedNs }.addEvidence record
      "connect_reset" := by
  obtain ⟨ended, hended, h⟩ := bind_ok.mp h
  obtain ⟨endedNs, rfl⟩ := endIf_eq hended
  cases h
  exact ⟨endedNs, rfl⟩

theorem observeCancel_eq (h : attempt.observeCancel record = .ok after) :
    ∃ endedNs, after = { attempt with
        cancelled := record.flag "exact", endedNs := endedNs }.addEvidence record
      "connect_cancel" := by
  obtain ⟨ended, hended, h⟩ := bind_ok.mp h
  obtain ⟨endedNs, rfl⟩ := endIf_eq hended
  cases h
  exact ⟨endedNs, rfl⟩

section Monotone

variable (hend : record.isType "connect_attempt_end" = false)
include hend

theorem observeState_observed (h : attempt.observeState record = .ok after) :
    Observed attempt record after := by
  obtain ⟨ended, hended, h⟩ := bind_ok.mp h
  obtain ⟨endedNs, rfl⟩ := endIf_eq hended
  cases h
  have hgrown : Observed attempt record
      { attempt with
        state := record.getText "new_state_name" ""
        established := attempt.established || record.getText "new_state_name" "" = "ESTABLISHED"
        endedNs := endedNs } :=
    { Observed.refl attempt hend with
      established := fun h => by rw [h]; rfl }
  have hstate := hgrown.addEvidence record "socket_state"
  split
  case isTrue => exact { hstate with reset := fun _ _ => rfl }
  case isFalse => exact hstate

/-- A retransmission. -/
theorem observeRetransmit_observed (h : attempt.observeRetransmit record = .ok after) :
    Observed attempt record after := by
  obtain ⟨count, -, h⟩ := bind_ok.mp h
  cases h
  exact { (Observed.refl attempt hend).addEvidence record "connect_retransmit" with }

/-- A round trip. -/
theorem observeRtt_observed {name : String} (h : attempt.observeRtt record name = .ok after) :
    Observed attempt record after := by
  obtain ⟨rtt, -, h⟩ := bind_ok.mp h
  cases h
  exact { (Observed.refl attempt hend).addEvidence record "connect_rtt" with }

theorem observeSchedDelay_observed (h : attempt.observeSchedDelay record = .ok after) :
    Observed attempt record after := by
  obtain ⟨delay, -, h⟩ := bind_ok.mp h
  cases h
  exact { (Observed.refl attempt hend).addEvidence record "connect_sched_delay" with }

theorem observeSocketEvent_observed (h : attempt.observeSocketEvent record = .ok after) :
    Observed attempt record after := by
  have hrefl := Observed.refl attempt hend
  unfold observeSocketEvent at h
  dsimp only at h
  generalize record.getText "stage" "" = stage at h
  by_cases hreset : stage ∈ ["tcp_v4_send_reset", "tcp_v6_send_reset", "tcp_send_active_reset"]
  · rw [if_pos hreset] at h
    cases h
    exact hrefl.addEvidence record "connect_local_reset"
  rw [if_neg hreset] at h
  by_cases hretransmit :
      stage ∈ ["connect_tcp_retransmit", "tcp_retransmit_skb", "__tcp_retransmit_skb"]
  · rw [if_pos hretransmit] at h
    cases h
    exact { hrefl.addEvidence record "connect_retransmit" with }
  rw [if_neg hretransmit] at h
  by_cases hrtt : stage = "tcp_ack_update_rtt" ∧ (record.get "first_rtt_us").isSome
  · rw [if_pos hrtt] at h
    exact observeRtt_observed hend h
  rw [if_neg hrtt] at h
  split at h
  · obtain ⟨ended, hended, h⟩ := bind_ok.mp h
    obtain ⟨endedNs, rfl⟩ := endIf_eq hended
    cases h
    exact { hrefl.addEvidence record "connect_cancel" with cancelled := fun _ _ => rfl }
  · cases h
    exact hrefl

theorem observePacket_observed (h : attempt.observePacket record = .ok after) :
    Observed attempt record after := by
  obtain ⟨tcpFlags, -, h⟩ := bind_ok.mp h
  obtain ⟨between, hreset, h⟩ := bind_ok.mp h
  have hbetween : Observed attempt record between := by
    unfold observePacketReset at hreset
    split at hreset
    case isTrue =>
      obtain ⟨ended, hended, hreset⟩ := bind_ok.mp hreset
      obtain ⟨endedNs, rfl⟩ := endIf_eq hended
      cases hreset
      exact { (Observed.refl attempt hend).addEvidence record "connect_reset" with
        reset := fun _ _ => rfl }
    case isFalse =>
      cases hreset
      exact Observed.refl attempt hend
  cases h
  unfold observePacketDrop
  dsimp only
  split
  case isTrue =>
    exact { hbetween.addEvidence record "connect_drop" with exactDrop := fun _ _ => rfl }
  case isFalse => exact hbetween

end Monotone

/-! ## Any record -/

/-- A record, of whatever type. -/
theorem observe_observed (h : attempt.observe record = .ok after) :
    Observed attempt record after := by
  unfold observe at h
  by_cases hend : record.isType "connect_attempt_end" = true
  · rw [if_pos hend] at h
    obtain ⟨result, error, endedNs, rfl⟩ := observeEnd_eq h
    exact ⟨rfl, List.prefix_append _ _, id, Record.isType_absurd hend, Record.isType_absurd hend,
      fun _ => rfl, fun _ => rfl, fun _ => id, fun _ => id, fun _ => id⟩
  rw [if_neg hend] at h
  have hend : record.isType "connect_attempt_end" = false := Bool.eq_false_of_not_eq_true hend
  have hrefl := Observed.refl attempt hend
  by_cases hsoError : record.isType "connect_so_error" = true
  · rw [if_pos hsoError] at h
    obtain ⟨error, endedNs, -, rfl⟩ := observeSoError_eq h
    have hkept := hrefl.addEvidence record "connect_so_error"
    exact { hkept with soError := Record.isType_absurd hsoError }
  rw [if_neg hsoError] at h
  by_cases hstate : record.isType "socket_state" = true
  · rw [if_pos hstate] at h
    exact observeState_observed hend h
  rw [if_neg hstate] at h
  by_cases hreset : record.isType "connect_reset" = true
  · rw [if_pos hreset] at h
    obtain ⟨endedNs, rfl⟩ := observeReset_eq h
    have hkept := hrefl.addEvidence record "connect_reset"
    exact { hkept with reset := Record.isType_absurd hreset }
  rw [if_neg hreset] at h
  by_cases hdrop : record.isType "connect_drop" = true
  · rw [if_pos hdrop] at h
    cases h
    have hkept := hrefl.addEvidence record "connect_drop"
    exact { hkept with exactDrop := Record.isType_absurd hdrop }
  rw [if_neg hdrop] at h
  by_cases hretransmit : record.isType "connect_retransmit" = true
  · rw [if_pos hretransmit] at h
    exact observeRetransmit_observed hend h
  rw [if_neg hretransmit] at h
  by_cases hrtt : record.isType "connect_rtt" = true
  · rw [if_pos hrtt] at h
    exact observeRtt_observed hend h
  rw [if_neg hrtt] at h
  by_cases hdelay : record.isType "connect_sched_delay" = true
  · rw [if_pos hdelay] at h
    exact observeSchedDelay_observed hend h
  rw [if_neg hdelay] at h
  by_cases hcancel : record.isType "connect_cancel" = true
  · rw [if_pos hcancel] at h
    obtain ⟨endedNs, rfl⟩ := observeCancel_eq h
    have hkept := hrefl.addEvidence record "connect_cancel"
    exact { hkept with cancelled := Record.isType_absurd hcancel }
  rw [if_neg hcancel] at h
  by_cases hsocket : record.isType "socket_event" = true
  · rw [if_pos hsocket] at h
    exact observeSocketEvent_observed hend h
  rw [if_neg hsocket] at h
  by_cases hpacket : record.isType "packet_event" = true
  · rw [if_pos hpacket] at h
    exact observePacket_observed hend h
  rw [if_neg hpacket] at h
  cases h
  exact hrefl

/-! ## Fields that a record assigns -/

theorem observe_soError (htype : record.isType "connect_so_error" = true) :
    attempt.observe record = attempt.observeSoError record := by
  have hother {name : String} (hne : name ≠ "connect_so_error") := Record.isType_other htype hne
  simp [observe, htype, hother]

theorem observe_reset (htype : record.isType "connect_reset" = true) :
    attempt.observe record = attempt.observeReset record := by
  have hother {name : String} (hne : name ≠ "connect_reset") := Record.isType_other htype hne
  simp [observe, htype, hother]

theorem observe_drop (htype : record.isType "connect_drop" = true) :
    attempt.observe record = attempt.observeDrop record := by
  have hother {name : String} (hne : name ≠ "connect_drop") := Record.isType_other htype hne
  simp [observe, htype, hother]

theorem observe_cancel (htype : record.isType "connect_cancel" = true) :
    attempt.observe record = attempt.observeCancel record := by
  have hother {name : String} (hne : name ≠ "connect_cancel") := Record.isType_other htype hne
  simp [observe, htype, hother]

/-- The values that records assign, whatever they were before. -/
structure Assigned (attempt : Attempt) (record : Record) (after : Attempt) : Prop where
  soError : record.isType "connect_so_error" = true →
    ∃ error, record.needInt "error" = .ok error ∧ after.soError = some error
  reset : record.isType "connect_reset" = true → after.resetWhileConnecting = attempt.isReset record
  exactDrop : record.isType "connect_drop" = true → after.exactDrop = record.flag "exact"
  cancelled : record.isType "connect_cancel" = true → after.cancelled = record.flag "exact"

theorem assigned_socket (hsocket : record.isType "connect_socket" = true) :
    Assigned attempt record after where
  soError := fun h => Record.isType_absurd h (Record.isType_other hsocket (by decide))
  reset := fun h => Record.isType_absurd h (Record.isType_other hsocket (by decide))
  exactDrop := fun h => Record.isType_absurd h (Record.isType_other hsocket (by decide))
  cancelled := fun h => Record.isType_absurd h (Record.isType_other hsocket (by decide))

theorem observe_assigned (h : attempt.observe record = .ok after) :
    Assigned attempt record after where
  soError := fun htype => by
    rw [observe_soError htype] at h
    obtain ⟨error, endedNs, herror, rfl⟩ := observeSoError_eq h
    exact ⟨error, herror, rfl⟩
  reset := fun htype => by
    rw [observe_reset htype] at h
    obtain ⟨endedNs, rfl⟩ := observeReset_eq h
    rfl
  exactDrop := fun htype => by
    rw [observe_drop htype] at h
    cases h
    rfl
  cancelled := fun htype => by
    rw [observe_cancel htype] at h
    obtain ⟨endedNs, rfl⟩ := observeCancel_eq h
    rfl

end Attempt

/-! ## Steps -/

theorem Attempt.started_new {record : Record} {attemptId : String} {attempt : Attempt}
    (h : Attempt.started record attemptId = .ok attempt) :
    attempt.attemptId = attemptId ∧ attempt.asyncPending = false := by
  obtain ⟨uid, -, h⟩ := bind_ok.mp h
  obtain ⟨tid, -, h⟩ := bind_ok.mp h
  obtain ⟨tgid, -, h⟩ := bind_ok.mp h
  obtain ⟨fd, -, h⟩ := bind_ok.mp h
  obtain ⟨startedNs, -, h⟩ := bind_ok.mp h
  cases h
  exact ⟨rfl, rfl⟩

namespace Builder

theorem find_some {builder : Builder} {attemptId : String} {attempt : Attempt}
    (h : builder.find attemptId = some attempt) : attempt.attemptId = attemptId := by
  have hid := List.find?_some h
  exact of_decide_eq_true hid

theorem find_none {builder : Builder} {attemptId : String} (h : builder.find attemptId = none) :
    ∀ other ∈ builder.attempts, other.attemptId ≠ attemptId := by
  have hall := List.find?_eq_none.mp h
  simpa using hall

theorem observeClock_other (builder : Builder) {record : Record}
    (h : record.isType "clock_snapshot" = false) : builder.observeClock record = .ok builder := by
  unfold observeClock
  rw [h, Bool.false_and]
  exact if_neg Bool.false_ne_true

/-- What a record does to the attempts and sockets of an analysis. -/
inductive Step (builder : Builder) (record : Record) (next : Builder) : Prop
  | other (hstart : ¬record.isType "connect_attempt_start" = true)
      (hnone : builder.recordAttempt record = none)
      (hattempts : next.attempts = builder.attempts) (hsockets : next.sockets = builder.sockets)
  | start (attempt : Attempt) (hstart : record.isType "connect_attempt_start" = true)
      (hid : record.needText "attempt_id" = .ok attempt.attemptId)
      (hfree : builder.find attempt.attemptId = none) (hasync : attempt.asyncPending = false)
      (hattempts : next.attempts = builder.attempts ++ [attempt])
      (hsockets : next.sockets = builder.sockets)
  | take (attempt after : Attempt) (hstart : ¬record.isType "connect_attempt_start" = true)
      (hfound : builder.recordAttempt record = some attempt)
      (hobserved : Attempt.Observed attempt record after)
      (hassigned : Attempt.Assigned attempt record after)
      (hattempts : next.attempts = (builder.store after).attempts)
      (hsockets : next.sockets = builder.sockets)
  | bind (attempt after : Attempt) (socketId : String)
      (hstart : ¬record.isType "connect_attempt_start" = true)
      (hfound : builder.recordAttempt record = some attempt)
      (hobserved : Attempt.Observed attempt record after)
      (hassigned : Attempt.Assigned attempt record after)
      (hsocket : record.isType "connect_socket" = true)
      (hid : record.needText "socket_instance_id" = .ok socketId)
      (hattempts : next.attempts = (builder.store after).attempts)
      (hsockets : next.sockets = builder.sockets.put socketId after.attemptId)

variable {builder next : Builder} {record : Record}

/-- The clock leaves the attempts. -/
theorem observeClock_same (h : builder.observeClock record = .ok next) :
    ∃ startNs, next = { builder with captureStartNs := startNs } := by
  unfold observeClock at h
  split at h
  case isTrue =>
    obtain ⟨startNs, -, h⟩ := bind_ok.mp h
    cases h
    exact ⟨startNs, rfl⟩
  case isFalse =>
    cases h
    exact ⟨_, rfl⟩

theorem observeOf_step {attempt : Attempt} (hstart : ¬record.isType "connect_attempt_start" = true)
    (hfound : builder.recordAttempt record = some attempt)
    (h : builder.observeOf attempt record = .ok next) :
    Step builder record next ∧ next.captureEndNs = builder.captureEndNs := by
  obtain ⟨between, hcontext, h⟩ := bind_ok.mp h
  by_cases hsocket : record.isType "connect_socket" = true
  case pos =>
    rw [if_pos hsocket] at h
    obtain ⟨socketId, hid, h⟩ := bind_ok.mp h
    split at h
    case isTrue => cases h
    case isFalse =>
      cases h
      have hend : record.isType "connect_attempt_end" = false :=
        Record.isType_other hsocket (by decide)
      have hkept := (Attempt.observeNetworkContext_observed hend hcontext).associate socketId
      exact ⟨.bind attempt _ socketId hstart hfound hkept (Attempt.assigned_socket hsocket) hsocket
        hid rfl rfl, rfl⟩
  case neg =>
    rw [if_neg hsocket] at h
    obtain ⟨after, hafter, h⟩ := bind_ok.mp h
    cases h
    obtain ⟨interfaces, namespaces, marks, rfl⟩ := Attempt.observeNetworkContext_eq hcontext
    have hobserved := Attempt.observe_observed hafter
    have hassigned := Attempt.observe_assigned hafter
    exact ⟨.take attempt after hstart hfound { hobserved with } { hassigned with } rfl rfl, rfl⟩

theorem observe_step (h : builder.observe record = .ok next) : Step builder record next ∧
    (record.isType "trace_end" = false → next.captureEndNs = builder.captureEndNs) := by
  obtain ⟨clocked, hclock, h⟩ := bind_ok.mp h
  obtain ⟨startNs, rfl⟩ := observeClock_same hclock
  by_cases hstart : record.isType "connect_attempt_start" = true
  case pos =>
    rw [if_pos hstart] at h
    obtain ⟨attemptId, hid, h⟩ := bind_ok.mp h
    split at h
    case isTrue => cases h
    case isFalse hfree =>
      obtain ⟨attempt, hattempt, h⟩ := bind_ok.mp h
      cases h
      obtain ⟨rfl, hasync⟩ := Attempt.started_new hattempt
      refine ⟨.start attempt hstart hid ?_ hasync rfl rfl, fun _ => rfl⟩
      exact Option.not_isSome_iff_eq_none.mp hfree
  case neg =>
    rw [if_neg hstart] at h
    cases hfound : builder.recordAttempt record with
    | none =>
        have hclocked : Builder.recordAttempt
            { builder with captureStartNs := startNs } record = none := hfound
        simp only [hclocked, observeOther] at h
        split at h
        case isTrue hend =>
          obtain ⟨endNs, -, h⟩ := bind_ok.mp h
          cases h
          exact ⟨.other hstart hfound rfl rfl, Record.isType_absurd hend⟩
        case isFalse =>
          cases h
          exact ⟨.other hstart hfound rfl rfl, fun _ => rfl⟩
    | some attempt =>
        have hclocked : Builder.recordAttempt
            { builder with captureStartNs := startNs } record = some attempt := hfound
        simp only [hclocked] at h
        obtain ⟨hstep, hend⟩ := observeOf_step hstart hclocked h
        refine ⟨?_, fun _ => hend⟩
        cases hstep with
        | other hstart hnone ha hs => exact .other hstart hnone ha hs
        | start attempt hstart hid hfree hasync ha hs =>
            exact .start attempt hstart hid hfree hasync ha hs
        | take attempt after hstart hfound ho has ha hs =>
            exact .take attempt after hstart hfound ho has ha hs
        | bind attempt after socketId hstart hfound ho has hsocket hid ha hs =>
            exact .bind attempt after socketId hstart hfound ho has hsocket hid ha hs

/-- The ids of the attempts stay when one of them changes. -/
theorem store_ids (builder : Builder) (attempt : Attempt) :
    (builder.store attempt).attempts.map Attempt.attemptId =
      builder.attempts.map Attempt.attemptId := by
  unfold store
  rw [List.map_map]
  refine List.map_congr_left fun other _ => ?_
  dsimp only [Function.comp_apply]
  split
  case isTrue hid => exact hid.symm
  case isFalse => rfl

theorem Step.once (h : Step builder record next)
    (honce : (builder.attempts.map Attempt.attemptId).Nodup) :
    (next.attempts.map Attempt.attemptId).Nodup := by
  cases h with
  | other hstart hnone hattempts hsockets =>
      rw [hattempts]
      exact honce
  | start attempt hstart hid hfree hasync hattempts hsockets =>
      rw [hattempts, List.map_append]
      refine List.Nodup.append honce (List.nodup_singleton _) ?_
      intro attemptId hold hnew
      obtain ⟨other, hmem, rfl⟩ := List.mem_map.mp hold
      exact find_none hfree other hmem (List.mem_singleton.mp hnew)
  | take attempt after hstart hfound hobserved hassigned hattempts hsockets =>
      rw [hattempts, store_ids]
      exact honce
  | bind attempt after socketId hstart hfound hobserved hassigned hsocket hid hattempts hsockets =>
      rw [hattempts, store_ids]
      exact honce

end Builder

end Anettrace.ConnectReport
