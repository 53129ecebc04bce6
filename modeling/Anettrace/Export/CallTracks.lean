import Anettrace.Export.Step
import Anettrace.Library.Table

/-!
# The tracks of syscalls

What `handle_network_syscall` keeps of the calls of a thread is a track: the start of its last call,
whether that call is in progress, and the latest start of a call known to have ended. An ENTER
record either starts the next call of its track, and cuts a call in progress short, or is ignored.
An END record ends the call in progress if it is the one that started at the same time.
-/

namespace Anettrace.Export

open Library.Table

/-- `tgid`, `tid` and `start_ts`. -/
abbrev CallKey :=
  (UInt32 × UInt32) × UInt64

def SyscallEvent.thread (call : SyscallEvent) : UInt32 × UInt32 :=
  (call.tgid, call.tid)

/-- The thread of a call and its start. -/
def SyscallEvent.key (call : SyscallEvent) : CallKey :=
  (call.thread, call.startTs)

def enteredKeys (calls : List SyscallEvent) : List CallKey :=
  (calls.filter fun call => !call.finished).map SyscallEvent.key

def endedKeys (calls : List SyscallEvent) : List CallKey :=
  (calls.filter SyscallEvent.finished).map SyscallEvent.key

/-- Every call has at most one ENTER and at most one END record. -/
structure CallsOnce (calls : List SyscallEvent) : Prop where
  entered : (enteredKeys calls).Nodup
  ended : (endedKeys calls).Nodup

/-- The pairing state of a thread. -/
structure CallTrack where
  thread : UInt32 × UInt32
  startTs : UInt64
  completedTs : UInt64
  active : Bool

def CallTrack.key (track : CallTrack) : CallKey :=
  (track.thread, track.startTs)

/-- A thread of which one call was seen, and is neither in progress nor known to have ended. -/
def CallTrack.fresh (call : SyscallEvent) : CallTrack :=
  ⟨call.thread, call.startTs, 0, false⟩

def CallTrack.ended (track : CallTrack) (startTs : UInt64) : CallTrack :=
  { track with
    active := track.active && track.startTs ≠ startTs
    completedTs := if track.completedTs < startTs then startTs else track.completedTs }

def CallTrack.started (track : CallTrack) (startTs : UInt64) : CallTrack :=
  { track with startTs := startTs, active := true }

@[simp] theorem CallTrack.ended_thread (track : CallTrack) (startTs : UInt64) :
    (track.ended startTs).thread = track.thread := rfl

@[simp] theorem CallTrack.started_thread (track : CallTrack) (startTs : UInt64) :
    (track.started startTs).thread = track.thread := rfl

/-- What a record does to the tracks, and the calls it cuts short. -/
inductive Handles (call : SyscallEvent) :
    List CallTrack → List CallTrack → List CallKey → Prop where
  | ended {tracks : List CallTrack} {place : Nat} {track : CallTrack}
      (htrack : tracks[place]? = some track) (hthread : track.thread = call.thread)
      (hcall : call.finished = true) :
      Handles call tracks (tracks.set place (track.ended call.startTs)) []
  | entered {tracks : List CallTrack} {place : Nat} {track : CallTrack} {cuts : List CallKey}
      (htrack : tracks[place]? = some track) (hthread : track.thread = call.thread)
      (hcall : call.finished = false) (hlater : track.completedTs < call.startTs)
      (hcuts : cuts = [] ∨ cuts = [track.key] ∧ track.active = true) :
      Handles call tracks (tracks.set place (track.started call.startTs)) cuts
  | ignored {tracks : List CallTrack} (hcall : call.finished = false) :
      Handles call tracks tracks []
  | untracked {tracks : List CallTrack} (hcall : call.finished = true)
      (hfull : tracks.length = syscallSlots)
      (hnone : ∀ track ∈ tracks, track.thread ≠ call.thread) : Handles call tracks tracks []
  | opened {tracks after : List CallTrack} {cuts : List CallKey}
      (hroom : tracks.length ≠ syscallSlots)
      (hnone : ∀ track ∈ tracks, track.thread ≠ call.thread)
      (h : Handles call (tracks ++ [CallTrack.fresh call]) after cuts) :
      Handles call tracks after cuts

/-! ## The invariant -/

/-- The tracks after `calls`, and the calls that were cut short. -/
structure Pairing (calls : List SyscallEvent) (tracks : List CallTrack) (cuts : List CallKey) :
    Prop where
  /-- A thread has one track. -/
  threads : (tracks.map CallTrack.thread).Nodup
  /-- A call in progress was entered. -/
  entered : ∀ track ∈ tracks, track.active = true → track.key ∈ enteredKeys calls
  /-- A call in progress was neither ended nor cut short. -/
  unended : ∀ track ∈ tracks, track.active = true → track.key ∉ endedKeys calls
  uncut : ∀ track ∈ tracks, track.active = true → track.key ∉ cuts
  /-- The track of a thread knows the calls that ended, if there is one. -/
  completed : ∀ call ∈ calls, call.finished = true →
    (∃ track ∈ tracks, track.thread = call.thread ∧ call.startTs ≤ track.completedTs) ∨
      (tracks.length = syscallSlots ∧ ∀ track ∈ tracks, track.thread ≠ call.thread)
  /-- Only calls that were entered are cut short, each once. -/
  cutEntered : ∀ key ∈ cuts, key ∈ enteredKeys calls
  cutOnce : cuts.Nodup

theorem Pairing.empty : Pairing [] [] [] :=
  ⟨List.nodup_nil, by simp, by simp, by simp, by simp, by simp, List.nodup_nil⟩

theorem enteredKeys_append (first second : List SyscallEvent) :
    enteredKeys (first ++ second) = enteredKeys first ++ enteredKeys second := by
  simp only [enteredKeys, List.filter_append, List.map_append]

theorem endedKeys_append (first second : List SyscallEvent) :
    endedKeys (first ++ second) = endedKeys first ++ endedKeys second := by
  simp only [endedKeys, List.filter_append, List.map_append]

theorem CallsOnce.left {first second : List SyscallEvent} (h : CallsOnce (first ++ second)) :
    CallsOnce first := by
  obtain ⟨hentered, hended⟩ := h
  rw [enteredKeys_append] at hentered
  rw [endedKeys_append] at hended
  exact ⟨hentered.sublist (List.sublist_append_left _ _),
    hended.sublist (List.sublist_append_left _ _)⟩

theorem keys_of_entered {call : SyscallEvent} (hcall : call.finished = false) :
    enteredKeys [call] = [call.key] ∧ endedKeys [call] = [] := by
  simp [enteredKeys, endedKeys, hcall]

theorem keys_of_ended {call : SyscallEvent} (hcall : call.finished = true) :
    enteredKeys [call] = [] ∧ endedKeys [call] = [call.key] := by
  simp [enteredKeys, endedKeys, hcall]

theorem Pairing.place_eq {calls : List SyscallEvent} {tracks : List CallTrack}
    {cuts : List CallKey} (h : Pairing calls tracks cuts) {i j : Nat} {track other : CallTrack}
    (hi : tracks[i]? = some track) (hj : tracks[j]? = some other)
    (hthread : track.thread = other.thread) : i = j :=
  nodup_places h.threads hi hj hthread

theorem threads_set {tracks : List CallTrack} {place : Nat} {track : CallTrack} (new : CallTrack)
    (htrack : tracks[place]? = some track) (hthread : new.thread = track.thread) :
    (tracks.set place new).map CallTrack.thread = tracks.map CallTrack.thread :=
  map_set CallTrack.thread htrack hthread

/-- Ended calls stay known when a track changes and its latest end does not decrease. -/
theorem completed_set {tracks : List CallTrack} {place : Nat} {track : CallTrack} (new : CallTrack)
    (htrack : tracks[place]? = some track) (hthread : new.thread = track.thread)
    (hmono : track.completedTs ≤ new.completedTs) {call : SyscallEvent}
    (h : (∃ track ∈ tracks, track.thread = call.thread ∧ call.startTs ≤ track.completedTs) ∨
      (tracks.length = syscallSlots ∧ ∀ track ∈ tracks, track.thread ≠ call.thread)) :
    (∃ track ∈ tracks.set place new, track.thread = call.thread ∧
        call.startTs ≤ track.completedTs) ∨
      ((tracks.set place new).length = syscallSlots ∧
        ∀ track ∈ tracks.set place new, track.thread ≠ call.thread) := by
  obtain ⟨known, hknown, hsame, hts⟩ | ⟨hfull, hnone⟩ := h
  · refine Or.inl ?_
    obtain ⟨i, hi⟩ := List.mem_iff_getElem?.mp hknown
    by_cases hplace : i = place
    · subst hplace
      obtain rfl : track = known := Option.some.inj (htrack.symm.trans hi)
      exact ⟨new, List.mem_of_getElem? (getElem?_set_same htrack), hthread.trans hsame,
        UInt64.le_trans hts hmono⟩
    · refine ⟨known, List.mem_iff_getElem?.mpr ⟨i, ?_⟩, hsame, hts⟩
      rw [List.getElem?_set_ne (Ne.symm hplace)]
      exact hi
  · refine Or.inr ⟨(List.length_set).trans hfull, fun other hother => ?_⟩
    obtain hold | rfl := mem_set hother
    · exact hnone other hold
    · rw [hthread]
      exact hnone track (List.mem_of_getElem? htrack)

/-! ## Records keep the invariant -/

variable {calls : List SyscallEvent} {tracks after : List CallTrack} {cuts more : List CallKey}
  {call : SyscallEvent} {place : Nat} {track : CallTrack}

/-- A track for a thread that had none. -/
theorem Pairing.open (h : Pairing calls tracks cuts) (hroom : tracks.length ≠ syscallSlots)
    (hnone : ∀ track ∈ tracks, track.thread ≠ call.thread) :
    Pairing calls (tracks ++ [CallTrack.fresh call]) cuts := by
  have hactive {other : CallTrack} (hother : other ∈ tracks ++ [CallTrack.fresh call])
      (hlive : other.active = true) : other ∈ tracks := by
    obtain hold | hnew := List.mem_append.mp hother
    · exact hold
    · rw [List.mem_singleton.mp hnew] at hlive
      cases hlive
  refine ⟨?_, ?_, ?_, ?_, ?_, h.cutEntered, h.cutOnce⟩
  · rw [List.map_append, (List.perm_append_comm).nodup_iff]
    refine List.nodup_cons.mpr ⟨?_, h.threads⟩
    intro hmem
    obtain ⟨other, hother, hthread⟩ := List.mem_map.mp hmem
    exact hnone other hother hthread
  · exact fun other hother hlive => h.entered other (hactive hother hlive) hlive
  · exact fun other hother hlive => h.unended other (hactive hother hlive) hlive
  · exact fun other hother hlive => h.uncut other (hactive hother hlive) hlive
  · intro ended hended hfinished
    obtain ⟨known, hknown, hsame⟩ | ⟨hfull, -⟩ := h.completed ended hended hfinished
    · exact Or.inl ⟨known, List.mem_append_left _ hknown, hsame⟩
    · exact absurd hfull hroom

theorem other_key {i : Nat} {other : CallTrack} (h : Pairing calls tracks cuts)
    (htrack : tracks[place]? = some track) (hthread : track.thread = call.thread)
    (hother : tracks[i]? = some other) (hne : i ≠ place) : other.key ≠ call.key := by
  intro hkey
  have hsame : other.thread = call.thread := congrArg Prod.fst hkey
  exact hne (h.place_eq hother htrack (hsame.trans hthread.symm))

section

variable (h : Pairing calls tracks cuts)
include h

/-- An END record ends its call, if that is in progress, and makes it known. -/
theorem Pairing.end (htrack : tracks[place]? = some track) (hthread : track.thread = call.thread)
    (hcall : call.finished = true) :
    Pairing (calls ++ [call]) (tracks.set place (track.ended call.startTs)) cuts := by
  obtain ⟨hentered, hended⟩ := keys_of_ended hcall
  have hlive {other : CallTrack} (hother : other ∈ tracks.set place (track.ended call.startTs))
      (hactive : other.active = true) :
      ∃ old ∈ tracks, old.active = true ∧ old.key = other.key ∧ other.key ≠ call.key := by
    obtain ⟨i, hi⟩ := List.mem_iff_getElem?.mp hother
    obtain ⟨rfl, rfl⟩ | ⟨hne, hold⟩ := getElem?_set_cases hi
    · simp only [CallTrack.ended, Bool.and_eq_true, decide_eq_true_eq] at hactive
      refine ⟨track, List.mem_of_getElem? htrack, hactive.1, rfl, fun hkey => hactive.2 ?_⟩
      exact congrArg Prod.snd hkey
    · exact ⟨other, List.mem_of_getElem? hold, hactive, rfl,
        other_key h htrack hthread hold hne⟩
  have hmono : track.completedTs ≤ (track.ended call.startTs).completedTs ∧
      call.startTs ≤ (track.ended call.startTs).completedTs := by
    unfold CallTrack.ended
    dsimp only
    split
    case isTrue hlt => exact ⟨UInt64.le_of_lt hlt, UInt64.le_refl _⟩
    case isFalse hge => exact ⟨UInt64.le_refl _, UInt64.not_lt.mp hge⟩
  refine ⟨?_, ?_, ?_, ?_, ?_, ?_, h.cutOnce⟩
  · rw [threads_set _ htrack (track.ended_thread _)]
    exact h.threads
  · intro other hother hactive
    obtain ⟨old, hold, holdActive, hkey, -⟩ := hlive hother hactive
    rw [enteredKeys_append, hentered, List.append_nil, ← hkey]
    exact h.entered old hold holdActive
  · intro other hother hactive
    obtain ⟨old, hold, holdActive, hkey, hne⟩ := hlive hother hactive
    rw [endedKeys_append, hended, List.mem_append, List.mem_singleton, not_or]
    exact ⟨hkey ▸ h.unended old hold holdActive, hne⟩
  · intro other hother hactive
    obtain ⟨old, hold, holdActive, hkey, -⟩ := hlive hother hactive
    exact hkey ▸ h.uncut old hold holdActive
  · intro other hother hfinished
    obtain hold | hnew := List.mem_append.mp hother
    · exact completed_set _ htrack (track.ended_thread _) hmono.1 (h.completed other hold hfinished)
    · rw [List.mem_singleton.mp hnew]
      exact Or.inl ⟨_, List.mem_of_getElem? (getElem?_set_same htrack), hthread, hmono.2⟩
  · intro key hkey
    rw [enteredKeys_append]
    exact List.mem_append_left _ (h.cutEntered key hkey)

/-- An ENTER record that starts a call: the call is new, and no END record of it came before. -/
theorem Pairing.start (honce : CallsOnce (calls ++ [call])) (htrack : tracks[place]? = some track)
    (hthread : track.thread = call.thread) (hcall : call.finished = false)
    (hlater : track.completedTs < call.startTs)
    (hcuts : more = [] ∨ more = [track.key] ∧ track.active = true) :
    Pairing (calls ++ [call]) (tracks.set place (track.started call.startTs)) (cuts ++ more) := by
  obtain ⟨hentered, hended⟩ := keys_of_entered hcall
  have hmem := List.mem_of_getElem? htrack
  have hkey : (track.started call.startTs).key = call.key := by
    simp only [CallTrack.key, CallTrack.started, SyscallEvent.key, hthread]
  have hnew : call.key ∉ enteredKeys calls := by
    have hnodup := honce.entered
    rw [enteredKeys_append, hentered, (List.perm_append_singleton _ _).nodup_iff] at hnodup
    exact (List.nodup_cons.mp hnodup).1
  have hunended : call.key ∉ endedKeys calls := by
    intro hbefore
    obtain ⟨other, hother, hsame⟩ := List.mem_map.mp hbefore
    obtain ⟨hcalls, hfinished⟩ := List.mem_filter.mp hother
    have hotherThread : other.thread = call.thread := congrArg Prod.fst hsame
    have hotherStart : other.startTs = call.startTs := congrArg Prod.snd hsame
    obtain ⟨known, hknown, hknownThread, hts⟩ | ⟨-, hnone⟩ :=
      h.completed other hcalls hfinished
    · obtain ⟨i, hi⟩ := List.mem_iff_getElem?.mp hknown
      have hplace : i = place :=
        h.place_eq hi htrack (hknownThread.trans (hotherThread.trans hthread.symm))
      subst hplace
      obtain rfl : track = known := Option.some.inj (htrack.symm.trans hi)
      rw [hotherStart] at hts
      exact absurd hlater (UInt64.not_lt.mpr hts)
    · exact hnone track hmem (hthread.trans hotherThread.symm)
  have hmore {key : CallKey} (hin : key ∈ more) : track.active = true ∧ key = track.key := by
    obtain rfl | ⟨rfl, hactive⟩ := hcuts
    · cases hin
    · exact ⟨hactive, List.mem_singleton.mp hin⟩
  have hlive {other : CallTrack} (hother : other ∈ tracks.set place (track.started call.startTs))
      (hactive : other.active = true) : other.key = call.key ∨
        (other ∈ tracks ∧ other.thread ≠ track.thread) := by
    obtain ⟨i, hi⟩ := List.mem_iff_getElem?.mp hother
    obtain ⟨-, rfl⟩ | ⟨hne, hold⟩ := getElem?_set_cases hi
    · exact Or.inl hkey
    · exact Or.inr ⟨List.mem_of_getElem? hold, fun heq => hne (h.place_eq hold htrack heq)⟩
  refine ⟨?_, ?_, ?_, ?_, ?_, ?_, ?_⟩
  · rw [threads_set _ htrack (track.started_thread _)]
    exact h.threads
  · intro other hother hactive
    rw [enteredKeys_append, hentered, List.mem_append, List.mem_singleton]
    obtain heq | ⟨hold, -⟩ := hlive hother hactive
    · exact Or.inr heq
    · exact Or.inl (h.entered other hold hactive)
  · intro other hother hactive
    rw [endedKeys_append, hended, List.append_nil]
    obtain heq | ⟨hold, -⟩ := hlive hother hactive
    · rw [heq]
      exact hunended
    · exact h.unended other hold hactive
  · intro other hother hactive hcut
    obtain heq | ⟨hold, hne⟩ := hlive hother hactive
    · obtain hcut | hcut := List.mem_append.mp hcut
      · exact hnew (heq ▸ h.cutEntered _ hcut)
      · obtain ⟨htrackActive, hsame⟩ := hmore hcut
        have hbefore := h.entered track hmem htrackActive
        rw [← hsame, heq] at hbefore
        exact hnew hbefore
    · obtain hcut | hcut := List.mem_append.mp hcut
      · exact h.uncut other hold hactive hcut
      · exact hne (congrArg Prod.fst (hmore hcut).2)
  · intro other hother hfinished
    obtain hold | hlast := List.mem_append.mp hother
    · exact completed_set _ htrack (track.started_thread _) (UInt64.le_refl _)
        (h.completed other hold hfinished)
    · rw [List.mem_singleton.mp hlast, hcall] at hfinished
      cases hfinished
  · intro key hcut
    rw [enteredKeys_append]
    refine List.mem_append_left _ ?_
    obtain hcut | hcut := List.mem_append.mp hcut
    · exact h.cutEntered key hcut
    · obtain ⟨htrackActive, rfl⟩ := hmore hcut
      exact h.entered track hmem htrackActive
  · obtain rfl | ⟨rfl, hactive⟩ := hcuts
    · rw [List.append_nil]
      exact h.cutOnce
    · rw [(List.perm_append_singleton _ _).nodup_iff]
      exact List.nodup_cons.mpr ⟨h.uncut track hmem hactive, h.cutOnce⟩

/-- An ENTER record that is ignored. -/
theorem Pairing.ignore (hcall : call.finished = false) :
    Pairing (calls ++ [call]) tracks cuts := by
  obtain ⟨-, hended⟩ := keys_of_entered hcall
  have hmono {key : CallKey} (hkey : key ∈ enteredKeys calls) :
      key ∈ enteredKeys (calls ++ [call]) := by
    rw [enteredKeys_append]
    exact List.mem_append_left _ hkey
  refine ⟨h.threads, fun other hother hactive => hmono (h.entered other hother hactive), ?_,
    h.uncut, ?_, fun key hkey => hmono (h.cutEntered key hkey), h.cutOnce⟩
  · rw [endedKeys_append, hended, List.append_nil]
    exact h.unended
  · intro other hother hfinished
    obtain hold | hlast := List.mem_append.mp hother
    · exact h.completed other hold hfinished
    · rw [List.mem_singleton.mp hlast, hcall] at hfinished
      cases hfinished

/-- An END record of a thread without a track, when there is no room for one. -/
theorem Pairing.untracked (hcall : call.finished = true) (hfull : tracks.length = syscallSlots)
    (hnone : ∀ track ∈ tracks, track.thread ≠ call.thread) :
    Pairing (calls ++ [call]) tracks cuts := by
  obtain ⟨hentered, hended⟩ := keys_of_ended hcall
  refine ⟨h.threads, ?_, ?_, h.uncut, ?_, ?_, h.cutOnce⟩
  · rw [enteredKeys_append, hentered, List.append_nil]
    exact h.entered
  · intro other hother hactive
    rw [endedKeys_append, hended, List.mem_append, List.mem_singleton, not_or]
    exact ⟨h.unended other hother hactive,
      fun hkey => hnone other hother (congrArg Prod.fst hkey)⟩
  · intro other hother hfinished
    obtain hold | hlast := List.mem_append.mp hother
    · exact h.completed other hold hfinished
    · rw [List.mem_singleton.mp hlast]
      exact Or.inr ⟨hfull, hnone⟩
  · rw [enteredKeys_append, hentered, List.append_nil]
    exact h.cutEntered

/-- One more record. The induction is over the track that may be opened first. -/
theorem Pairing.handle (honce : CallsOnce (calls ++ [call]))
    (hhandles : Handles call tracks after more) :
    Pairing (calls ++ [call]) after (cuts ++ more) := by
  induction hhandles with
  | ended htrack hthread hcall =>
      rw [List.append_nil]
      exact h.end htrack hthread hcall
  | entered htrack hthread hcall hlater hcuts =>
      exact h.start honce htrack hthread hcall hlater hcuts
  | ignored hcall =>
      rw [List.append_nil]
      exact h.ignore hcall
  | untracked hcall hfull hnone =>
      rw [List.append_nil]
      exact h.untracked hcall hfull hnone
  | opened hroom hnone _ ih => exact ih (h.open hroom hnone)

end

end Anettrace.Export
