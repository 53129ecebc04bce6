import Anettrace.Native.Moves

/-!
# Descriptors

What moves say about the descriptors of a native trace. A packet refers to a track that was
described before it, whose parent was described before that, and only the first packet on the
sequence clears the incremental state. All of it survives dropping packets, as long as the
descriptors stay.
-/

namespace Anettrace.Native

open Anettrace.Export Library.Labelled

/-- The track that a packet needs: that of an event, or the parent of a track. -/
def Packet.refersTo (packet : Packet) : Option UInt64 :=
  match packet.body with
  | .event fields => some fields.track
  | .packet track _ => some track
  | .descriptor fields => if fields.parent = 0 then none else some fields.parent
  | .clockSnapshot _ _ _ => none

def Packet.describes (packet : Packet) : Option UInt64 :=
  match packet.body with
  | .descriptor fields => some fields.uuid
  | _ => none

def Packet.onSequence (packet : Packet) : Bool :=
  match packet.body with
  | .clockSnapshot _ _ _ => false
  | _ => true

/-- The tracks that are described in a trace, in order. -/
def described (out : List Packet) : List UInt64 :=
  out.filterMap Packet.describes

@[simp] theorem described_append (first second : List Packet) :
    described (first ++ second) = described first ++ described second :=
  List.filterMap_append

/-- Every packet refers to a track that is known when its turn comes. -/
def Introduced : List UInt64 → List Packet → Prop
  | _, [] => True
  | known, packet :: rest =>
      (∀ uuid ∈ packet.refersTo, uuid ∈ known) ∧
        Introduced (known ++ packet.describes.toList) rest

theorem introduced_append (known : List UInt64) (first second : List Packet) :
    Introduced known (first ++ second) ↔
      Introduced known first ∧ Introduced (known ++ described first) second := by
  induction first generalizing known with
  | nil => simp [Introduced, described]
  | cons packet rest ih =>
      have hdescribed : described (packet :: rest) = packet.describes.toList ++ described rest := by
        unfold described
        cases hdescribes : packet.describes <;> simp [hdescribes]
      rw [List.cons_append, Introduced, Introduced, ih, hdescribed, List.append_assoc, and_assoc]

/-- Packets may be dropped that describe no track. -/
theorem Introduced.filter {known : List UInt64} {out : List Packet} (h : Introduced known out)
    {keep : Packet → Bool} (hkeep : ∀ packet ∈ out, packet.describes.isSome → keep packet = true) :
    Introduced known (out.filter keep) := by
  induction out generalizing known with
  | nil => trivial
  | cons packet rest ih =>
      obtain ⟨hpacket, hrest⟩ := h
      have hlater := ih hrest fun other hother => hkeep other (List.mem_cons_of_mem _ hother)
      rw [List.filter_cons]
      cases hkept : keep packet with
      | true => exact ⟨hpacket, hlater⟩
      | false =>
          -- the packet describes nothing, so it adds nothing to what is known
          have hnone : packet.describes = none := by
            cases hdescribes : packet.describes with
            | none => rfl
            | some uuid =>
                have hkeeps := hkeep packet List.mem_cons_self (by rw [hdescribes]; rfl)
                rw [hkept] at hkeeps
                cases hkeeps
          rw [hnone] at hlater
          simpa using hlater

theorem introduced_known {known : List UInt64} {out : List Packet}
    (hknown : ∀ packet ∈ out, ∀ uuid ∈ packet.refersTo, uuid ∈ known) : Introduced known out := by
  induction out generalizing known with
  | nil => trivial
  | cons packet rest ih =>
      exact ⟨hknown packet List.mem_cons_self, ih fun other hother uuid huuid =>
        List.mem_append_left _ (hknown other (List.mem_cons_of_mem _ hother) uuid huuid)⟩

theorem Introduced.mem {out : List Packet} (h : Introduced [] out) {packet : Packet}
    (hpacket : packet ∈ out) {uuid : UInt64} (huuid : packet.refersTo = some uuid) :
    uuid ∈ described out := by
  obtain ⟨before, after, rfl⟩ := List.append_of_mem hpacket
  have hknown := ((introduced_append [] before (packet :: after)).mp h).2.1 uuid huuid
  rw [described_append]
  exact List.mem_append_left _ hknown

/-! ## The sequence -/

/-- The first packet on the sequence describes a track and clears the incremental state, and no
other packet does. -/
structure Sequenced (first : Packet) (out : List Packet) : Prop where
  head : (out.filter Packet.onSequence).head? = some first
  describes : first.describes.isSome
  untimed : first.timestampNs = 0
  cleared : out.filter Packet.cleared = [first]

theorem Sequenced.append {first : Packet} {out : List Packet} (h : Sequenced first out)
    {more : List Packet} (hmore : ∀ packet ∈ more, packet.cleared = false) :
    Sequenced first (out ++ more) := by
  have hhead : out.filter Packet.onSequence ≠ [] := by
    intro hnil
    have hfirst := h.head
    rw [hnil] at hfirst
    cases hfirst
  refine ⟨?_, h.describes, h.untimed, ?_⟩
  · rw [List.filter_append, List.head?_append_of_ne_nil _ hhead, h.head]
  · rw [List.filter_append, h.cleared, List.filter_eq_nil_iff.mpr]
    · rfl
    · intro packet hpacket
      rw [hmore packet hpacket]
      exact Bool.false_ne_true

theorem Sequenced.filter {first : Packet} {out : List Packet} (h : Sequenced first out)
    {keep : Packet → Bool} (hkeep : keep first = true) : Sequenced first (out.filter keep) := by
  obtain ⟨rest, hsequence⟩ := List.head?_eq_some_iff.mp h.head
  refine ⟨?_, h.describes, h.untimed, ?_⟩
  · rw [List.filter_comm, hsequence, List.filter_cons_of_pos hkeep]
    rfl
  · rw [List.filter_comm, h.cleared, List.filter_cons_of_pos hkeep]
    rfl

/-- What holds of the descriptors of a trace. -/
structure Described (trail : Trail) : Prop where
  tracks : described trail.out = trail.tracks.map NativeTrack.uuid
  apart : trail.tracks.Pairwise fun first second =>
    first.uuid = second.uuid → first.kind ≠ second.kind
  untimed : ∀ packet ∈ trail.out, packet.describes.isSome → packet.timestampNs = 0
  introduced : Introduced [] trail.out
  started : trail.sequenceStarted = true → ∃ first, Sequenced first trail.out
  fresh : trail.sequenceStarted = false → trail.tracks = [] ∧
    ∀ packet ∈ trail.out, packet.cleared = false ∧ packet.onSequence = false

theorem Described.init : Described Trail.init where
  tracks := rfl
  apart := List.Pairwise.nil
  untimed := by simp [Trail.init]
  introduced := trivial
  started h := by cases h
  fresh _ := ⟨rfl, by simp [Trail.init]⟩

section

variable {trail : Trail} (h : Described trail)
include h

theorem Described.mem {uuid : UInt64} (htrack : trail.HasTrack uuid) :
    uuid ∈ described trail.out := by
  obtain ⟨track, hmem, rfl⟩ := htrack
  rw [h.tracks]
  exact List.mem_map_of_mem hmem

/-- The boundary of a slice is on a track that is there. -/
theorem Described.hasTrack {mark : Mark} (hmark : mark ∈ marksOf trail.out) :
    trail.HasTrack mark.event.track := by
  obtain ⟨packet, hpacket, hevent⟩ := List.mem_filterMap.mp hmark
  have hrefers : packet.refersTo = some mark.event.track := by
    unfold Packet.mark at hevent
    unfold Packet.refersTo
    split at hevent
    case h_1 fields hbody =>
      split at hevent
      · cases hevent
      · rw [hbody, ← Option.some_inj.mp hevent]
    case h_2 => cases hevent
  have hdescribed := h.introduced.mem hpacket hrefers
  rw [h.tracks] at hdescribed
  exact List.mem_map.mp hdescribed

theorem Described.write (ts : UInt64) {body : Body} {uuid : UInt64} (htrack : trail.HasTrack uuid)
    (hrefers : ∀ cleared, (⟨cleared, ts, body⟩ : Packet).refersTo = some uuid)
    (hdescribes : ∀ cleared, (⟨cleared, ts, body⟩ : Packet).describes = none) :
    Described (trail.writeSequence ts body) := by
  have hstarted : trail.sequenceStarted = true := by
    cases hstart : trail.sequenceStarted with
    | true => rfl
    | false =>
        -- without a descriptor there is no track to write to
        obtain ⟨track, hmem, -⟩ := htrack
        rw [(h.fresh hstart).1] at hmem
        cases hmem
  have hnone : described [(⟨!trail.sequenceStarted, ts, body⟩ : Packet)] = [] := by
    unfold described
    rw [List.filterMap_cons_none (hdescribes _)]
    rfl
  refine ⟨?_, h.apart, fun packet hpacket hsome => ?_, ?_, fun _ =>
    ?_, fun hfresh => by cases hfresh⟩
  · show described (trail.out ++ [_]) = _
    rw [described_append, hnone, List.append_nil]
    exact h.tracks
  · rcases List.mem_append.mp hpacket with hold | hnew
    · exact h.untimed packet hold hsome
    · rw [List.mem_singleton.mp hnew, hdescribes] at hsome
      cases hsome
  · refine (introduced_append [] trail.out _).mpr ⟨h.introduced, introduced_known ?_⟩
    intro packet hpacket other hother
    rw [List.mem_singleton.mp hpacket, hrefers] at hother
    exact Option.some_inj.mp hother ▸ h.mem htrack
  · obtain ⟨first, hfirst⟩ := h.started hstarted
    refine ⟨first, hfirst.append fun packet hpacket => ?_⟩
    rw [List.mem_singleton.mp hpacket, hstarted]
    rfl

theorem Described.add (object : UInt64) {descriptor : Descriptor}
    (hparent : descriptor.parent = 0 ∨ trail.HasTrack descriptor.parent)
    (hnew : ∀ track ∈ trail.tracks, track.uuid = descriptor.uuid → track.kind ≠ descriptor.kind) :
    Described (nativeAddTrack trail object descriptor).1 := by
  refine ⟨?_, ?_, fun packet hpacket hsome => ?_, ?_, fun _ => ?_, fun hfresh => by cases hfresh⟩
  · show described (trail.out ++ [_]) = (trail.tracks ++ [_]).map _
    rw [described_append, List.map_append, h.tracks]
    rfl
  · refine List.pairwise_append.mpr ⟨h.apart, List.pairwise_singleton _ _, ?_⟩
    intro track htrack other hother
    obtain rfl := List.mem_singleton.mp hother
    exact hnew track htrack
  · rcases List.mem_append.mp hpacket with hold | hadded
    · exact h.untimed packet hold hsome
    · rw [List.mem_singleton.mp hadded]
  · refine (introduced_append [] trail.out _).mpr ⟨h.introduced, introduced_known ?_⟩
    intro packet hpacket uuid huuid
    rw [List.mem_singleton.mp hpacket] at huuid
    have hrefers : (if descriptor.parent = 0 then none else some descriptor.parent) =
        some uuid := huuid
    split at hrefers
    case isTrue => cases hrefers
    case isFalse hsome => exact Option.some_inj.mp hrefers ▸ h.mem (hparent.resolve_left hsome)
  · cases hstart : trail.sequenceStarted with
    | true =>
        obtain ⟨first, hfirst⟩ := h.started hstart
        refine ⟨first, hfirst.append fun packet hpacket => ?_⟩
        rw [List.mem_singleton.mp hpacket, hstart]
        rfl
    | false =>
        obtain ⟨-, hquiet⟩ := h.fresh hstart
        -- only clock snapshots stand before the first packet of the sequence
        refine ⟨⟨true, 0, .descriptor descriptor⟩, ?_, rfl, rfl, ?_⟩
        · show ((trail.out ++ [_]).filter _).head? = _
          rw [List.filter_append, List.filter_eq_nil_iff.mpr, hstart]
          · rfl
          · intro packet hpacket
            rw [(hquiet packet hpacket).2]
            exact Bool.false_ne_true
        · show (trail.out ++ [_]).filter _ = _
          rw [List.filter_append, List.filter_eq_nil_iff.mpr, hstart]
          · rfl
          · intro packet hpacket
            rw [(hquiet packet hpacket).1]
            exact Bool.false_ne_true

theorem Described.snapshot (monotonicNs boottimeNs realtimeNs : UInt64) :
    Described (nativeClockSnapshot trail monotonicNs boottimeNs realtimeNs) := by
  refine ⟨?_, h.apart, fun packet hpacket hsome => ?_, ?_, fun hstart => ?_, fun hstart => ?_⟩
  · show described (trail.out ++ [_]) = _
    rw [described_append, h.tracks]
    exact List.append_nil _
  · rcases List.mem_append.mp hpacket with hold | hnew
    · exact h.untimed packet hold hsome
    · rw [List.mem_singleton.mp hnew]
  · refine (introduced_append [] trail.out _).mpr ⟨h.introduced, introduced_known ?_⟩
    intro packet hpacket uuid huuid
    rw [List.mem_singleton.mp hpacket] at huuid
    cases huuid
  · obtain ⟨first, hfirst⟩ := h.started hstart
    refine ⟨first, hfirst.append fun packet hpacket => ?_⟩
    rw [List.mem_singleton.mp hpacket]
  · obtain ⟨hnone, hquiet⟩ := h.fresh hstart
    refine ⟨hnone, fun packet hpacket => ?_⟩
    rcases List.mem_append.mp hpacket with hold | hnew
    · exact hquiet packet hold
    · rw [List.mem_singleton.mp hnew]
      exact ⟨rfl, rfl⟩

/-- Setting a flag changes no descriptor. -/
theorem Described.setActive (place : Nat) (active : Bool) :
    Described (trail.setActive place active) := by
  have hidentities := setActive_identities trail place active
  have huuids : (trail.setActive place active).tracks.map NativeTrack.uuid =
      trail.tracks.map NativeTrack.uuid := by
    have hfirst := congrArg (List.map Prod.fst) hidentities
    rwa [List.map_map, List.map_map] at hfirst
  refine ⟨h.tracks.trans huuids.symm, ?_, h.untimed, h.introduced, h.started, fun hstart => ?_⟩
  · have hpairs (tracks : List NativeTrack) :
        (tracks.map NativeTrack.identity).Pairwise (fun first second =>
            first.1 = second.1 → first.2.2 ≠ second.2.2) ↔
          tracks.Pairwise fun first second =>
            first.uuid = second.uuid → first.kind ≠ second.kind :=
      List.pairwise_map
    rw [← hpairs, hidentities, hpairs]
    exact h.apart
  · obtain ⟨hnone, hquiet⟩ := h.fresh hstart
    refine ⟨?_, hquiet⟩
    show trail.tracks.modify place _ = []
    rw [hnone]
    exact List.modify_nil _ _

end

/-- A move keeps the descriptors in order. -/
theorem TrailMove.described {trail after : Trail} {marks : List Mark} (hdescribed : Described trail)
    (h : TrailMove trail marks after) : Described after := by
  cases h with
  | add object descriptor hparent hnew => exact hdescribed.add object hparent hnew
  | snapshot => exact hdescribed.snapshot _ _ _
  | packet ts uuid event htrack =>
      exact hdescribed.write ts htrack (fun _ => rfl) fun _ => rfl
  | instant ts htrack htype => exact hdescribed.write ts htrack (fun _ => rfl) fun _ => rfl
  | slice ts htrack htype hcategory =>
      exact hdescribed.write ts htrack (fun _ => rfl) fun _ => rfl
  | sliceEnd ts hbegun htype hcategory =>
      obtain ⟨_, hbegun⟩ := hbegun
      exact hdescribed.write ts hbegun.track (fun _ => rfl) fun _ => rfl
  | begin ts htrack hlifetime =>
      exact (hdescribed.write ts ⟨_, List.mem_of_getElem? htrack, rfl⟩ (fun _ => rfl)
        fun _ => rfl).setActive _ _
  | finish ts htrack hactive hcategory =>
      exact (hdescribed.write ts ⟨_, List.mem_of_getElem? htrack, rfl⟩ (fun _ => rfl)
        fun _ => rfl).setActive _ _
  | rest => exact hdescribed.setActive _ _

theorem TrailMoves.described {after : Trail} {marks : List Mark}
    (h : TrailMoves Trail.init marks after) : Described after :=
  h.preserve Described (fun hdescribed hmove => hmove.described hdescribed) Described.init

theorem Described.nodup {trail : Trail} (h : Described trail)
    (hkinds : ∀ first ∈ trail.tracks, ∀ second ∈ trail.tracks, first.uuid = second.uuid →
      first.kind = second.kind) : (described trail.out).Nodup := by
  rw [h.tracks]
  refine List.pairwise_map.mpr (h.apart.imp_of_mem ?_)
  intro first second hfirst hsecond happart huuid
  exact happart huuid (hkinds first hfirst second hsecond huuid)

end Anettrace.Native
