import Anettrace.Native.Track

/-!
# Creating tracks

What the track creators do to a native trace. A creator either finds its track or appends it, after
it made sure of the parent. `Creates` collects such additions: each new track has a parent that is
there, and no track with its uuid is of its kind. `Created` is the specification all creators share.
-/

namespace Anettrace.Native

open Anettrace.Export

/-- A trail after tracks were added to another one. -/
inductive Creates (trail : Trail) : Trail → Prop where
  | refl : Creates trail trail
  | add {after : Trail} (h : Creates trail after) (object : UInt64) (descriptor : Descriptor)
      (hparent : descriptor.parent = 0 ∨ ∃ track ∈ after.tracks, track.uuid = descriptor.parent)
      (hnew : ∀ track ∈ after.tracks, track.uuid = descriptor.uuid → track.kind ≠ descriptor.kind) :
      Creates trail (nativeAddTrack after object descriptor).1

/-- Adding tracks writes nothing but descriptors. -/
theorem Creates.out {trail after : Trail} (h : Creates trail after) :
    ∃ packets, after.out = trail.out ++ packets ∧
      ∀ packet ∈ packets, ∃ descriptor, packet.timestampNs = 0 ∧
        packet.body = .descriptor descriptor := by
  induction h with
  | refl => exact ⟨[], (List.append_nil _).symm, by simp⟩
  | @add after _ object descriptor hparent hnew ih =>
      obtain ⟨packets, hout, hpackets⟩ := ih
      refine ⟨packets ++ [⟨!after.sequenceStarted, 0, .descriptor descriptor⟩], ?_, ?_⟩
      · show after.out ++ _ = _
        rw [hout, List.append_assoc]
      · intro packet hpacket
        rcases List.mem_append.mp hpacket with hold | hlast
        · exact hpackets packet hold
        · rw [List.mem_singleton.mp hlast]
          exact ⟨descriptor, rfl, rfl⟩

/-- The outcome of a creator: the track with the given uuid stands at the place it returns, and the
tracks it added are of the given kinds. -/
structure Created (trail : Trail) (result : Trail × Nat) (uuid : UInt64)
    (kinds : List TrackKind) : Prop where
  creates : Creates trail result.1
  place : ∃ track, result.1.tracks[result.2]? = some track ∧ track.uuid = uuid
  kinds : ∀ track ∈ result.1.tracks, track ∈ trail.tracks ∨ track.kind ∈ kinds

theorem Created.mem {trail : Trail} {result : Trail × Nat} {uuid : UInt64} {kinds : List TrackKind}
    (h : Created trail result uuid kinds) : ∃ track ∈ result.1.tracks, track.uuid = uuid := by
  obtain ⟨track, hplace, huuid⟩ := h.place
  exact ⟨track, List.mem_of_getElem? hplace, huuid⟩

theorem created_of_found {trail : Trail} {uuid : UInt64} {kinds : List TrackKind} {place : Nat}
    (h : nativeFindTrack trail uuid = some place) : Created trail (trail, place) uuid kinds := by
  obtain ⟨hlength, huuid, -⟩ := List.findIdx?_eq_some_iff_getElem.mp h
  refine ⟨.refl, ⟨trail.tracks[place], List.getElem?_eq_getElem hlength, ?_⟩, fun _ => Or.inl⟩
  exact of_decide_eq_true huuid

/-- A creator that adds its track, after others it needs. -/
theorem created_of_added {trail prepared : Trail} {descriptor : Descriptor} {kinds : List TrackKind}
    (object : UInt64) (hfind : nativeFindTrack trail descriptor.uuid = none)
    (hprepared : Creates trail prepared)
    (hkinds : ∀ track ∈ prepared.tracks, track ∈ trail.tracks ∨ track.kind ∈ kinds)
    (hkind : descriptor.kind ∉ kinds) (hparent : descriptor.parent = 0 ∨
      ∃ track ∈ prepared.tracks, track.uuid = descriptor.parent) :
    Created trail (nativeAddTrack prepared object descriptor) descriptor.uuid
      (descriptor.kind :: kinds) := by
  refine ⟨hprepared.add object descriptor hparent ?_, ?_, ?_⟩
  · intro track htrack huuid heq
    rcases hkinds track htrack with hold | hadded
    · -- the search saw every track that was there before
      have hother := List.findIdx?_eq_none_iff.mp hfind track hold
      simp [huuid] at hother
    · exact hkind (heq ▸ hadded)
  · exact ⟨_, List.getElem?_concat_length, rfl⟩
  · intro track htrack
    rcases List.mem_append.mp htrack with hold | hlast
    · exact (hkinds track hold).imp_right (List.mem_cons_of_mem _)
    · rw [List.mem_singleton.mp hlast]
      exact Or.inr List.mem_cons_self

/-! ## The creators -/

section

variable (salt : UInt64) (trail : Trail)

theorem nativeProcessTrack_created (tgid : UInt32) (task : List UInt8) :
    Created trail (nativeProcessTrack salt trail tgid task) (processUuid salt tgid) [.process] := by
  unfold nativeProcessTrack
  dsimp only
  split
  case h_1 place hfind => exact created_of_found hfind
  case h_2 hfind =>
    exact created_of_added _ hfind .refl (fun _ => Or.inl) (by simp) (Or.inl rfl)

theorem nativeThreadTrack_created (tgid tid : UInt32) (task : List UInt8) :
    Created trail (nativeThreadTrack salt trail tgid tid task) (threadUuid salt tgid tid)
      [.thread, .process] := by
  have hprocess := nativeProcessTrack_created salt trail tgid task
  unfold nativeThreadTrack
  dsimp only
  split
  case h_1 place hfind => exact created_of_found hfind
  case h_2 hfind =>
    exact created_of_added _ hfind hprocess.creates hprocess.kinds (by simp) (Or.inr hprocess.mem)

theorem nativeSocketTrack_created (socketId : UInt64) (tgid : UInt32) (task : List UInt8) :
    Created trail (nativeSocketTrack salt trail socketId tgid task) (socketUuid salt socketId)
      [.socket, .process] := by
  have hprocess := nativeProcessTrack_created salt trail tgid task
  unfold nativeSocketTrack
  dsimp only
  split
  case h_1 place hfind => exact created_of_found hfind
  case h_2 hfind =>
    -- a socket without a known process has no parent
    by_cases howner : tgid ≠ 0
    · rw [if_pos howner, if_pos howner]
      exact created_of_added _ hfind hprocess.creates hprocess.kinds (by simp) (Or.inr hprocess.mem)
    · rw [if_neg howner, if_neg howner]
      exact created_of_added _ hfind .refl (fun _ => Or.inl) (by simp) (Or.inl rfl)

theorem nativeConnectTrack_created (attemptId : UInt64) (tgid tid : UInt32) (task : List UInt8) :
    Created trail (nativeConnectTrack salt trail attemptId tgid tid task)
      (connectUuid salt attemptId) [.connect, .thread, .process] := by
  have hthread := nativeThreadTrack_created salt trail tgid tid task
  unfold nativeConnectTrack
  dsimp only
  split
  case h_1 place hfind => exact created_of_found hfind
  case h_2 hfind =>
    exact created_of_added _ hfind hthread.creates hthread.kinds (by simp) (Or.inr hthread.mem)

theorem nativeGlobalTrack_created :
    Created trail (nativeGlobalTrack salt trail) (globalUuid salt) [.global] := by
  unfold nativeGlobalTrack
  dsimp only
  split
  case h_1 place hfind => exact created_of_found hfind
  case h_2 hfind =>
    exact created_of_added _ hfind .refl (fun _ => Or.inl) (by simp) (Or.inl rfl)

theorem nativeSocketPacketTrack_created (socketId : UInt64) (ownerTgid : UInt32)
    (direction : Direction) :
    Created trail (nativeSocketPacketTrack salt trail socketId ownerTgid direction)
      (socketPacketsUuid salt socketId direction) [.socketPackets, .socket, .process] := by
  have hsocket := nativeSocketTrack_created salt trail socketId ownerTgid []
  unfold nativeSocketPacketTrack
  dsimp only
  split
  case h_1 place hfind => exact created_of_found hfind
  case h_2 hfind =>
    exact created_of_added _ hfind hsocket.creates hsocket.kinds (by simp) (Or.inr hsocket.mem)

end

end Anettrace.Native
