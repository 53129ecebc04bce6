import Anettrace.Library.Labelled
import Anettrace.Library.Table
import Anettrace.Native.Creators

/-!
# Moves of the native trace

What the exporter may do to a native trace, as an abstract machine: add a track, write a packet on a
track that is there, begin a slice and end one that was begun. The slices of sockets and of connect
attempts follow the flag of their track. A move is labelled with the boundaries of slices it writes.
Which track, which slice and when is left to the exporter; its steps are shown to be moves function
by function.
-/

namespace Anettrace.Native

open Library.Labelled Library.Table

/-- The beginning or the end of a slice, as it is written. -/
structure Mark where
  ts : UInt64
  event : TrackEvent
  deriving DecidableEq, Repr

/-- The boundary of a slice in a packet, if there is one. -/
def Packet.mark (packet : Packet) : Option Mark :=
  match packet.body with
  | .event fields => if fields.type = .instant then none else some ⟨packet.timestampNs, fields⟩
  | _ => none

/-- The boundaries of slices in a trace. -/
def marksOf (out : List Packet) : List Mark :=
  out.filterMap Packet.mark

@[simp] theorem marksOf_append (first second : List Packet) :
    marksOf (first ++ second) = marksOf first ++ marksOf second :=
  List.filterMap_append

def Trail.HasTrack (trail : Trail) (uuid : UInt64) : Prop :=
  ∃ track ∈ trail.tracks, track.uuid = uuid

/-- The beginning of the slice that an event ends. -/
def TrackEvent.opening (fields : TrackEvent) : TrackEvent :=
  { fields with type := .sliceBegin }

/-- A slice was begun, at its time, on a track that is there. -/
structure Trail.BegunAt (trail : Trail) (mark : Mark) : Prop where
  track : trail.HasTrack mark.event.track
  written : mark ∈ marksOf trail.out

def Trail.Begun (trail : Trail) (fields : TrackEvent) : Prop :=
  ∃ ts, trail.BegunAt ⟨ts, fields⟩

/-- Set the `active` flag of the track that a pointer designates. -/
def Trail.setActive (trail : Trail) (place : Nat) (active : Bool) : Trail :=
  { trail with tracks := trail.tracks.modify place fun track => { track with active := active } }

/-- The slices that follow the `active` flag of their track: the lifetime of a socket, which is not
begun twice, and a connect attempt. -/
inductive Lifetime (track : NativeTrack) : Category → UInt64 → Prop where
  | socket (hclosed : track.active = false) : Lifetime track .socket track.object
  | connect (attemptId : UInt64) : Lifetime track .connect attemptId

/-- The moves of the abstract machine. -/
inductive TrailMove : Trail → List Mark → Trail → Prop where
  | add {trail : Trail} (object : UInt64) (descriptor : Descriptor)
      (hparent : descriptor.parent = 0 ∨ trail.HasTrack descriptor.parent)
      (hnew : ∀ track ∈ trail.tracks, track.uuid = descriptor.uuid →
        track.kind ≠ descriptor.kind) :
      TrailMove trail [] (nativeAddTrack trail object descriptor).1
  | snapshot {trail : Trail} (monotonicNs boottimeNs realtimeNs : UInt64) :
      TrailMove trail [] (nativeClockSnapshot trail monotonicNs boottimeNs realtimeNs)
  | packet {trail : Trail} (ts uuid : UInt64) (event : ProtoBuffer)
      (htrack : trail.HasTrack uuid) :
      TrailMove trail [] (nativePacketWrite trail ts uuid event)
  | instant {trail : Trail} (ts : UInt64) {fields : TrackEvent}
      (htrack : trail.HasTrack fields.track) (htype : fields.type = .instant) :
      TrailMove trail [] (nativeEventWrite trail ts fields)
  | slice {trail : Trail} (ts : UInt64) {fields : TrackEvent}
      (htrack : trail.HasTrack fields.track) (htype : fields.type = .sliceBegin)
      (hcategory : fields.category ≠ .socket ∧ fields.category ≠ .connect) :
      TrailMove trail [⟨ts, fields⟩] (nativeEventWrite trail ts fields)
  | sliceEnd {trail : Trail} (ts : UInt64) {fields : TrackEvent}
      (hbegun : trail.Begun fields.opening) (htype : fields.type = .sliceEnd)
      (hcategory : fields.category ≠ .socket ∧ fields.category ≠ .connect) :
      TrailMove trail [⟨ts, fields⟩] (nativeEventWrite trail ts fields)
  | begin {trail : Trail} (ts : UInt64) {place : Nat} {track : NativeTrack} {category : Category}
      {object : UInt64} (htrack : trail.tracks[place]? = some track)
      (hlifetime : Lifetime track category object) :
      TrailMove trail [⟨ts, ⟨.sliceBegin, track.uuid, category, object⟩⟩]
        ((nativeEventWrite trail ts ⟨.sliceBegin, track.uuid, category, object⟩).setActive
          place true)
  | finish {trail : Trail} (ts : UInt64) {place : Nat} {track : NativeTrack} {category : Category}
      {object : UInt64} (htrack : trail.tracks[place]? = some track)
      (hactive : track.active = true)
      (hcategory : (category = .socket ∧ object = track.object) ∨ category = .connect) :
      TrailMove trail [⟨ts, ⟨.sliceEnd, track.uuid, category, object⟩⟩]
        ((nativeEventWrite trail ts ⟨.sliceEnd, track.uuid, category, object⟩).setActive
          place false)

  /-- In tags mode no lifetime of a socket is written, and the flag of its track alone is reset. -/
  | rest {trail : Trail} {place : Nat} {track : NativeTrack}
      (htrack : trail.tracks[place]? = some track) (hkind : track.kind = .socket)
      (hnever : ∀ mark ∈ marksOf trail.out, mark.event.category ≠ .socket) :
      TrailMove trail [] (trail.setActive place false)

abbrev TrailMoves : Trail → List Mark → Trail → Prop :=
  Moves TrailMove

theorem Creates.moves {trail after : Trail} (h : Creates trail after) :
    TrailMoves trail [] after := by
  induction h with
  | refl => exact Moves.refl _
  | add _ object descriptor hparent hnew ih =>
      exact ih.then_silent (Moves.single (.add object descriptor hparent hnew))

theorem Created.hasTrack {trail : Trail} {result : Trail × Nat} {uuid : UInt64}
    {kinds : List TrackKind} (h : Created trail result uuid kinds) : result.1.HasTrack uuid :=
  h.mem

section

variable {trail : Trail} {result : Trail × Nat} {kinds : List TrackKind} {fields : TrackEvent}
  (h : Created trail result fields.track kinds) (ts : UInt64)
include h

theorem Created.instant (htype : fields.type = .instant) :
    TrailMoves trail [] (nativeEventWrite result.1 ts fields) :=
  h.creates.moves.then_silent (Moves.single (.instant ts h.hasTrack htype))

theorem Created.slice (htype : fields.type = .sliceBegin)
    (hcategory : fields.category ≠ .socket ∧ fields.category ≠ .connect) :
    TrailMoves trail [⟨ts, fields⟩] (nativeEventWrite result.1 ts fields) :=
  h.creates.moves.silent_then (Moves.single (.slice ts h.hasTrack htype hcategory))

end

/-! ## What moves write -/

theorem TrailMove.marks {trail after : Trail} {marks : List Mark}
    (h : TrailMove trail marks after) :
    marksOf after.out = marksOf trail.out ++ marks := by
  have hlast (packet : Packet) :
      marksOf (trail.out ++ [packet]) = marksOf trail.out ++ packet.mark.toList := by
    rw [marksOf_append]
    unfold marksOf
    cases hmark : packet.mark <;> simp [hmark]
  cases h with
  | add => exact hlast _
  | snapshot => exact hlast _
  | packet => exact hlast _
  | @instant ts fields htrack htype =>
      refine (hlast _).trans ?_
      show _ ++ (if fields.type = .instant then none else some _).toList = _
      rw [if_pos htype]
      rfl
  | @slice ts fields htrack htype hcategory | @sliceEnd ts fields hbegun htype hcategory =>
      refine (hlast _).trans ?_
      show _ ++ (if fields.type = .instant then none else some _).toList = _
      rw [htype]
      rfl
  | begin => exact hlast _
  | finish => exact hlast _
  | rest => exact (List.append_nil _).symm

theorem TrailMoves.marks {trail after : Trail} {marks : List Mark}
    (h : TrailMoves trail marks after) : marksOf after.out = marksOf trail.out ++ marks := by
  induction h with
  | refl => exact (List.append_nil _).symm
  | tail _ hlast ih => rw [hlast.marks, ih, List.append_assoc]

/-- What stays of a track: all but its flag. -/
def NativeTrack.identity (track : NativeTrack) : UInt64 × UInt64 × TrackKind :=
  (track.uuid, track.object, track.kind)

/-- Setting a flag keeps the identities. -/
theorem setActive_identities (trail : Trail) (place : Nat) (active : Bool) :
    (trail.setActive place active).tracks.map NativeTrack.identity =
      trail.tracks.map NativeTrack.identity := by
  show (trail.tracks.modify place _).map _ = _
  cases htrack : trail.tracks[place]? with
  | none => rw [modify_none htrack]
  | some track =>
      rw [modify_some htrack]
      exact map_set NativeTrack.identity htrack rfl

theorem TrailMove.identities {trail after : Trail} {marks : List Mark}
    (h : TrailMove trail marks after) :
    trail.tracks.map NativeTrack.identity <+: after.tracks.map NativeTrack.identity := by
  cases h with
  | add object descriptor hparent hnew =>
      show _ <+: (trail.tracks ++ [_]).map _
      rw [List.map_append]
      exact List.prefix_append _ _
  | snapshot | packet | instant | slice | sliceEnd => exact List.prefix_refl _
  | begin | finish | rest =>
      exact ⟨[], (List.append_nil _).trans (setActive_identities _ _ _).symm⟩

section

variable {trail after : Trail} {marks : List Mark} (h : TrailMoves trail marks after)
include h

theorem TrailMoves.identities :
    trail.tracks.map NativeTrack.identity <+: after.tracks.map NativeTrack.identity := by
  induction h with
  | refl => exact List.prefix_refl _
  | tail _ hlast ih => exact ih.trans hlast.identities

theorem TrailMoves.hasTrack {uuid : UInt64} (htrack : trail.HasTrack uuid) :
    after.HasTrack uuid := by
  obtain ⟨track, hmem, rfl⟩ := htrack
  have hidentity := h.identities.subset (List.mem_map_of_mem hmem)
  obtain ⟨other, hother, heq⟩ := List.mem_map.mp hidentity
  exact ⟨other, hother, congrArg Prod.fst heq⟩

theorem TrailMoves.begun {mark : Mark} (hbegun : trail.BegunAt mark) :
    after.BegunAt mark := by
  refine ⟨h.hasTrack hbegun.track, ?_⟩
  rw [h.marks]
  exact List.mem_append_left _ hbegun.written

end

theorem TrailMoves.begins {trail after : Trail} {mark : Mark}
    (h : TrailMoves trail [mark] after) (htrack : after.HasTrack mark.event.track) :
    after.BegunAt mark := by
  refine ⟨htrack, ?_⟩
  rw [h.marks]
  exact List.mem_append_right _ (List.mem_singleton_self _)

end Anettrace.Native
