import Anettrace.Export.SyscallPairing
import Anettrace.Probes.SyscallOrder

/-!
# System calls from the probes to the export

The exporter pairs the records of calls whatever their order, except that a call it gave up must not
end afterwards. The probes send the records of each thread in order; so if the buffers between the
two lose records, and mix those of different threads, but keep the order of each thread, every call
is exported at most once, and with its result if its END record arrived.
-/

namespace Anettrace.Export

open Probes

/-- Records of threads in order are at most one ENTER and one END record for each call. -/
theorem callsOnce_of_inOrder {calls : List SyscallEvent} (h : CallsInOrder calls) :
    CallsOnce calls := by
  have hkeys (finished : Bool) :
      ((calls.filter fun call => call.finished = finished).map SyscallEvent.key).Nodup := by
    refine List.pairwise_map.mpr ((h.sublist List.filter_sublist).imp_of_mem ?_)
    intro first second hfirst hsecond hprecedes hsame
    have hfirst := of_decide_eq_true (List.mem_filter.mp hfirst).2
    have hsecond := of_decide_eq_true (List.mem_filter.mp hsecond).2
    obtain ⟨hthread, hstart⟩ := Prod.mk.inj hsame
    obtain hless | ⟨-, hopen, hended⟩ := hprecedes hthread
    · exact absurd hstart (UInt64.ne_of_lt hless)
    · rw [hfirst] at hopen
      rw [hsecond, hopen] at hended
      cases hended
  refine ⟨?_, ?_⟩
  · simpa [enteredKeys] using hkeys false
  · simpa [endedKeys] using hkeys true

theorem cutShort_later {session : Session} {state : State} {input : Input} {cut : SyscallEvent}
    (h : cut ∈ cutShort session state input) :
    ∃ call, delivered session input = [call] ∧ call.thread = cut.thread ∧
      cut.startTs < call.startTs := by
  unfold cutShort at h
  split at h
  case h_2 => cases h
  case h_1 call size =>
    split at h
    case isTrue => cases h
    case isFalse hpast =>
      split at h
      case h_2 => cases h
      case h_1 slot hslot =>
        obtain ⟨place, hplace, hmem⟩ := Option.bind_eq_some_iff.mp hslot
        unfold cutBy at h
        split at h
        case isFalse => cases h
        case isTrue hcut =>
          simp only [Bool.and_eq_true, Bool.not_eq_true'] at hcut
          obtain ⟨⟨⟨-, henters⟩, hactive⟩, -⟩ := hcut
          obtain rfl := List.mem_singleton.mp h
          refine ⟨call, if_neg hpast, ?_, ?_⟩
          · obtain ⟨found, hfound, hthread⟩ := syscallSlot_some hplace
            rw [hmem] at hfound
            obtain rfl := Option.some.inj hfound
            exact hthread.symm
          · simp only [entersSlot, hactive, Bool.true_and, Bool.and_eq_true, Bool.not_eq_true',
              decide_eq_true_eq, decide_eq_false_iff_not, UInt64.not_le] at henters
            exact henters.2

theorem callsInOrder_of_threads {calls : List SyscallEvent}
    (h : ∀ thread, CallsInOrder (calls.filter fun call => call.thread = thread)) :
    CallsInOrder calls := by
  refine List.pairwise_iff_forall_sublist.mpr fun {first second} hpair hthread => ?_
  have hkept := hpair.filter fun call => decide (call.thread = second.thread)
  simp only [List.filter_cons, hthread, decide_true, if_true, List.filter_nil] at hkept
  exact List.pairwise_iff_forall_sublist.mp (h second.thread) hkept hthread

/-- Where the records of each thread arrive in order, no call is cut short that ends later. -/
theorem keepsEndings_of_inOrder {session : Session} {inputs : List Input}
    (h : CallsInOrder (deliveries session inputs)) : KeepsEndings session inputs := by
  rintro before input after rfl cut hcut ended hended hkey
  obtain ⟨call, hdelivered, hthread, hlater⟩ := cutShort_later hcut
  rw [deliveries_split, hdelivered] at h
  have hafter := List.rel_of_pairwise_cons (List.pairwise_append.mp h).2.1
    (List.mem_of_mem_filter hended)
  obtain ⟨hsame, hstart⟩ := Prod.mk.inj hkey
  obtain hless | ⟨heq, -⟩ := hafter (hthread.trans hsame.symm)
  · rw [hstart] at hless
    exact UInt64.lt_asymm hlater hless
  · rw [heq, hstart] at hlater
    exact UInt64.lt_irrefl _ hlater

/-- Whatever records of calls are lost between the probes and the exporter, and however those of
different threads are mixed, each call is exported at most once, and with its result if its END
record arrives. -/
theorem captured_calls_paired (args : CallArgs) (steps : List CallStep) (session : Session)
    (inputs : List Input) (now eventCount : UInt64) (hclock : EntriesAdvance steps)
    (hthreads : ∀ thread, ((deliveries session inputs).filter fun call =>
      call.thread = thread).Sublist
      ((sentCalls args steps).filter fun call => call.thread = thread)) :
    Paired session.salt (deliveries session inputs)
      (close session (reached session inputs) now eventCount) := by
  have hsent := (call_ledger args steps hclock).order
  have horder : CallsInOrder (deliveries session inputs) :=
    callsInOrder_of_threads fun thread =>
      (hsent.sublist List.filter_sublist).sublist (hthreads thread)
  have honce := callsOnce_of_inOrder horder
  have hrun := run_pairing session honce
  obtain ⟨opened, hexports, hopened⟩ := close_exports session now eventCount hrun
  have hnodup := hexports.keys.nodup_iff.mpr
    ((hrun.pairing.export_once honce hopened).mpr
      ((keepsEndings_iff session honce).mp (keepsEndings_of_inOrder horder)))
  exact ⟨hnodup, fun call hcall => hexports.ending hnodup hcall⟩

/-- The records of two calls of which the first one's ENTER record is lost. -/
def lossyInputs : List Input :=
  (sentCalls sendingArgs twoSends).tail.map fun call => .syscall call 200

/-- What the exporter writes of them. -/
def lossyCapture : List Record :=
  close smallSession (reached smallSession lossyInputs) 50 2

theorem captured_calls_paired_lossy :
    (networkSyscalls lossyCapture).map
        (fun record => (record.startTs, record.incomplete, record.result)) =
      [(10, false, 20), (30, true, 0)] ∧
    Paired smallSession.salt (deliveries smallSession lossyInputs) lossyCapture := by
  have hclock : EntriesAdvance twoSends := by
    simp [EntriesAdvance, twoSends, sendingSteps]
  have hdeliveries : deliveries smallSession lossyInputs =
      (sentCalls sendingArgs twoSends).tail := by
    decide +kernel
  refine ⟨by decide +kernel, ?_⟩
  refine captured_calls_paired sendingArgs twoSends smallSession lossyInputs 50 2 hclock
    fun thread => ?_
  rw [hdeliveries]
  exact (List.tail_sublist _).filter _

end Anettrace.Export
