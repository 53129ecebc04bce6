import Anettrace.Capture.Spans
import Mathlib.Data.Nat.Find

/-!
# Slices of a ring trace

Every slice that is ended was begun earlier in the trace. What is retained of a ring trace is
decided packet by packet, so an end keeps its beginning exactly if the slice does not reach into the
window from before it. Whether one does is told by the inputs, the window and the clock at the
close.
-/

namespace Anettrace.Capture

open Anettrace.Native Anettrace.Export Library.Labelled Library.Table

/-! ## Slices -/

/-- The boundary of a slice at a place of a trace. -/
def markAt (out : List Packet) (place : Nat) : Option Mark := out[place]?.bind Packet.mark

/-- The slice that ends at a place began at another: there its beginning was written last before the
end. -/
structure Slice (out : List Packet) (start finish : Nat) (opening ending : Mark) : Prop where
  begun : markAt out start = some opening
  ended : markAt out finish = some ending
  earlier : start < finish
  ends : ending.event.type = .sliceEnd
  same : opening.event = ending.event.opening
  last : ∀ place, start < place → place < finish → ∀ mark, markAt out place = some mark →
    mark.event ≠ ending.event.opening

theorem mem_marksOf {out : List Packet} {mark : Mark} :
    mark ∈ marksOf out ↔ ∃ place, markAt out place = some mark := by
  constructor
  · intro hmem
    obtain ⟨packet, hpacket, hmark⟩ := List.mem_filterMap.mp hmem
    obtain ⟨place, hplace⟩ := List.mem_iff_getElem?.mp hpacket
    exact ⟨place, Option.bind_eq_some_iff.mpr ⟨packet, hplace, hmark⟩⟩
  · rintro ⟨place, hplace⟩
    obtain ⟨packet, hpacket, hmark⟩ := Option.bind_eq_some_iff.mp hplace
    exact List.mem_filterMap.mpr ⟨packet, List.mem_of_getElem? hpacket, hmark⟩

theorem markAt_lt {out : List Packet} {place : Nat} {mark : Mark}
    (h : markAt out place = some mark) :
    place < out.length := by
  obtain ⟨packet, hpacket, -⟩ := Option.bind_eq_some_iff.mp h
  exact (List.getElem?_eq_some_iff.mp hpacket).1

theorem markAt_append {out : List Packet} {place : Nat} {mark : Mark}
    (h : markAt out place = some mark)
    (more : List Packet) : markAt (out ++ more) place = some mark := by
  rw [markAt, List.getElem?_append_left (markAt_lt h)]
  exact h

theorem markAt_concat {out : List Packet} {packet : Packet} {place : Nat} {mark : Mark}
    (h : markAt (out ++ [packet]) place = some mark) :
    markAt out place = some mark ∨ place = out.length ∧ packet.mark = some mark := by
  obtain ⟨found, hfound, hmark⟩ := Option.bind_eq_some_iff.mp h
  rcases getElem?_append_cases hfound with ⟨hplace, rfl⟩ | ⟨-, hold⟩
  · exact Or.inr ⟨hplace, hmark⟩
  · exact Or.inl (Option.bind_eq_some_iff.mpr ⟨found, hold, hmark⟩)

/-- A slice has one beginning. -/
theorem Slice.unique {out : List Packet} {start other finish : Nat} {opening another ending : Mark}
    (h : Slice out start finish opening ending) (hother : Slice out other finish another ending) :
    start = other := by
  rcases Nat.lt_trichotomy start other with hlt | heq | hgt
  · exact absurd hother.same (h.last other hlt hother.earlier another hother.begun)
  · exact heq
  · exact absurd h.same (hother.last start hgt h.earlier opening h.begun)

/-! ## Beginnings -/

theorem TrailMove.packet {before after : Trail} {marks : List Mark}
    (h : TrailMove before marks after) :
    (after.out = before.out ∧ marks = []) ∨
      ∃ packet, after.out = before.out ++ [packet] ∧ packet.mark.toList = marks := by
  cases h with
  | add | snapshot | packet | begin | finish => exact Or.inr ⟨_, rfl, rfl⟩
  | @instant ts fields htrack htype =>
      refine Or.inr ⟨_, rfl, ?_⟩
      show (if fields.type = .instant then none else some _).toList = _
      rw [if_pos htype]
      rfl
  | @slice ts fields htrack htype hcategory | @sliceEnd ts fields hbegun htype hcategory =>
      refine Or.inr ⟨_, rfl, ?_⟩
      show (if fields.type = .instant then none else some _).toList = _
      rw [htype]
      rfl
  | rest => exact Or.inl ⟨rfl, rfl⟩

/-- Every end of a slice has a beginning before it. -/
def EndsBegun (out : List Packet) : Prop :=
  ∀ finish ending, markAt out finish = some ending → ending.event.type = .sliceEnd →
    ∃ start < finish, ∃ opening, markAt out start = some opening ∧ opening.event =
      ending.event.opening

/-- What an end ends was begun, where uuids do not collide. -/
theorem TrailMove.ending_begun {before after : Trail} {ending : Mark} {marks : List Mark}
    (hinit : TrailMoves Trail.init marks before) (hmove : TrailMove before [ending] after)
    (hfree : CollisionFree after) (hends : ending.event.type = .sliceEnd) :
    ∃ opening ∈ marksOf before.out, opening.event = ending.event.opening := by
  have hbefore := hfree.before (Moves.single hmove)
  have hmarks := hmove.marks
  have hall : TrailMoves Trail.init _ after := hinit.trans (Moves.single hmove)
  have hdescribed := hall.described
  cases hmove with
  | slice ts htrack htype hcategory => exact absurd (htype.symm.trans hends) EventType.noConfusion
  | sliceEnd ts hbegun htype hcategory =>
      obtain ⟨_, hbegun⟩ := hbegun
      exact ⟨_, hbegun.written, rfl⟩
  | begin => cases hends
  | @finish ts place track category object htrack hactive hcategory =>
      have hmem := List.mem_of_getElem? htrack
      obtain ⟨opening, hopening, huuid, htype, hkinds⟩ :=
        (moves_level hinit hbefore track.uuid).begun hbefore hmem ⟨track, hmem, rfl, hactive⟩
      refine ⟨opening, hopening, ?_⟩
      -- a lifetime on the track begins as the one that ends here
      have halike := @begins_alike _ hdescribed hfree opening
        ⟨ts, ⟨.sliceEnd, track.uuid, category, object⟩⟩
        (List.mem_filter.mpr ⟨?_, ?_⟩) (List.mem_filter.mpr ⟨?_, ?_⟩) huuid
      · rw [← halike, TrackEvent.opening, ← htype]
      · rw [hmarks]
        exact List.mem_append_left _ hopening
      · unfold isLifetime
        rcases hkinds with ⟨hkind, -⟩ | ⟨hkind, -⟩ <;> rw [hkind]
      · rw [hmarks]
        exact List.mem_append_right _ (List.mem_singleton_self _)
      · rcases hcategory with ⟨rfl, -⟩ | rfl <;> rfl

theorem TrailMove.endsBegun {before after : Trail} {marks written : List Mark}
    (hinit : TrailMoves Trail.init written before) (hmove : TrailMove before marks after)
    (hfree : CollisionFree after) (h : EndsBegun before.out) : EndsBegun after.out := by
  intro finish ending hending hends
  obtain ⟨hout, -⟩ | ⟨packet, hout, hmark⟩ := TrailMove.packet hmove
  · rw [hout] at hending ⊢
    exact h finish ending hending hends
  · rw [hout] at hending ⊢
    obtain hold | ⟨rfl, hnew⟩ := markAt_concat hending
    · obtain ⟨start, hlt, opening, hopening, hsame⟩ := h finish ending hold hends
      exact ⟨start, hlt, opening, markAt_append hopening _, hsame⟩
    · obtain rfl : [ending] = marks := by rw [← hmark, hnew]; rfl
      obtain ⟨opening, hmem, hsame⟩ := TrailMove.ending_begun hinit hmove hfree hends
      obtain ⟨start, hstart⟩ := mem_marksOf.mp hmem
      exact ⟨start, markAt_lt hstart, opening, markAt_append hstart _, hsame⟩

theorem moves_endsBegun {trail : Trail} {marks : List Mark} (h : TrailMoves Trail.init marks trail)
    (hfree : CollisionFree trail) : EndsBegun trail.out := by
  induction h with
  | refl =>
      intro finish ending hending
      cases hending
  | tail hinit hlast ih =>
      exact TrailMove.endsBegun hinit hlast hfree (ih (hfree.before (Moves.single hlast)))

/-- An end whose slice was begun has a last beginning before it. -/
theorem EndsBegun.slice {out : List Packet} (h : EndsBegun out) {finish : Nat} {ending : Mark}
    (hending : markAt out finish = some ending) (hends : ending.event.type = .sliceEnd) :
    ∃ start opening, Slice out start finish opening ending := by
  classical
  obtain ⟨first, hlt, opening, hopening, hsame⟩ := h finish ending hending hends
  let Begins (place : Nat) : Prop :=
    place < finish ∧ ∃ opening, markAt out place = some opening ∧ opening.event =
      ending.event.opening
  have hfirst : Begins first := ⟨hlt, opening, hopening, hsame⟩
  obtain ⟨hearlier, opening, hopening, hsame⟩ := Nat.findGreatest_spec (Nat.le_of_lt hlt) hfirst
  refine ⟨_, opening, hopening, hending, hearlier, hends, hsame,
    fun place hafter hbefore mark hmark heq => ?_⟩
  exact Nat.findGreatest_is_greatest hafter (Nat.le_of_lt hbefore) ⟨hbefore, mark, hmark, heq⟩

/-! ## The file of a ring trace -/

/-- The order of the packets in the file of a ring trace: those without a timestamp are at the
front. -/
def InFileOrder (first second : Packet × Nat) : Prop :=
  if isUntimed first.1 = isUntimed second.1 then first.2 < second.2 else isUntimed first.1 = true

theorem InFileOrder.asymm {first second : Packet × Nat} (h : InFileOrder first second) :
    ¬ InFileOrder second first := by
  unfold InFileOrder at h ⊢
  split at h
  case isTrue heq =>
    rw [if_pos heq.symm]
    exact Nat.lt_asymm h
  case isFalse hne =>
    rw [if_neg (Ne.symm hne)]
    exact fun hsecond => hne (h.trans hsecond.symm)

theorem mem_before_iff {file before after : List (Packet × Nat)} {entry other : Packet × Nat}
    (hfile : file.Pairwise InFileOrder) (hsplit : file = before ++ entry :: after) :
    other ∈ before ↔ other ∈ file ∧ InFileOrder other entry := by
  subst hsplit
  obtain ⟨-, hrest, hcross⟩ := List.pairwise_append.mp hfile
  constructor
  · intro hother
    exact ⟨List.mem_append_left _ hother, hcross other hother entry List.mem_cons_self⟩
  · rintro ⟨hother, horder⟩
    rcases List.mem_append.mp hother with hbefore | hother
    · exact hbefore
    rcases List.mem_cons.mp hother with rfl | hafter
    · exact absurd horder horder.asymm
    · exact absurd horder ((List.pairwise_cons.mp hrest).1 other hafter).asymm

/-- The packets of a trace in the order of their places. -/
theorem zipIdx_pairwise (out : List Packet) (test : Packet → Bool) :
    (out.zipIdx.filter fun packet => test packet.1).Pairwise fun first second =>
      first.2 < second.2 := by
  have hplaces : (out.zipIdx.map Prod.snd).Pairwise (· < ·) := by
    rw [List.zipIdx_map_snd]
    exact List.pairwise_lt_range'
  exact (List.pairwise_map.mp hplaces).filter _

theorem mem_zipIdx_filter {out : List Packet} {test : Packet → Bool} {entry : Packet × Nat} :
    (entry ∈ out.zipIdx.filter fun packet => test packet.1) ↔
      out[entry.2]? = some entry.1 ∧ test entry.1 = true :=
  List.mem_filter.trans (and_congr_left' List.mem_zipIdx_iff_getElem?)

section Ring

variable {session : CaptureSession} {out : List Packet} (hring : session.windowNs ≠ 0)
  (hcomplete : (captureFile session out).ringCapacityTruncated = false)
include hring hcomplete

theorem captureFile_complete :
    (captureFile session out).written = (out.zipIdx.filter fun packet => isUntimed packet.1) ++
      out.zipIdx.filter fun packet => inWindow (finalCutoff session out) packet.1 := by
  obtain ⟨retained, hwritten, -, hretained⟩ := captureFile_ring hring out
  rw [hwritten, hretained hcomplete]

/-- The packets of the file are those without a timestamp and those of the window. -/
theorem mem_captureFile {entry : Packet × Nat} :
    entry ∈ (captureFile session out).written ↔ out[entry.2]? = some entry.1 ∧
      (isUntimed entry.1 = true ∨ inWindow (finalCutoff session out) entry.1 = true) := by
  rw [captureFile_complete hring hcomplete, List.mem_append, mem_zipIdx_filter,
    mem_zipIdx_filter, and_or_left]

theorem captureFile_ordered : (captureFile session out).written.Pairwise InFileOrder := by
  rw [captureFile_complete hring hcomplete]
  have htimed {packet : Packet} (h : inWindow (finalCutoff session out) packet = true) :
      isUntimed packet = false :=
    decide_eq_false (of_decide_eq_true h).1
  refine List.pairwise_append.mpr ⟨?_, ?_, ?_⟩
  · refine (zipIdx_pairwise out isUntimed).imp_of_mem fun hfirst hsecond hlt => ?_
    have hsame := (mem_zipIdx_filter.mp hfirst).2.trans (mem_zipIdx_filter.mp hsecond).2.symm
    rw [InFileOrder, if_pos hsame]
    exact hlt
  · refine (zipIdx_pairwise out (inWindow (finalCutoff session out))).imp_of_mem
      fun hfirst hsecond hlt => ?_
    have hsame :=
      (htimed (mem_zipIdx_filter.mp hfirst).2).trans (htimed (mem_zipIdx_filter.mp hsecond).2).symm
    rw [InFileOrder, if_pos hsame]
    exact hlt
  · intro first hfirst second hsecond
    have huntimed := (mem_zipIdx_filter.mp hfirst).2
    have hlate := htimed (mem_zipIdx_filter.mp hsecond).2
    rw [InFileOrder, if_neg (by rw [huntimed, hlate]; exact Bool.noConfusion)]
    exact huntimed

end Ring

/-! ## Orphans -/

/-- A slice begins outside of a window and ends in it, as the packets of a ring trace are pruned:
one without a timestamp is never dropped, and stands at the front. -/
def Straddles (cutoff : Nat) (span : Nat × Nat) : Prop :=
  span.1 ≠ 0 ∧ (span.2 = 0 ∨ span.1 < cutoff ∧ cutoff ≤ span.2)

instance (cutoff : Nat) (span : Nat × Nat) : Decidable (Straddles cutoff span) :=
  inferInstanceAs (Decidable (_ ∧ _))

/-- The times of the boundaries of a slice. -/
def timesOf (opening ending : Mark) : Nat × Nat :=
  (opening.ts.toNat, ending.ts.toNat)

theorem straddles_iff {cutoff : Nat} {opening ending : Mark} :
    Straddles cutoff (timesOf opening ending) ↔ opening.ts ≠ 0 ∧
      (ending.ts = 0 ∨ opening.ts.toNat < cutoff ∧ cutoff ≤ ending.ts.toNat) := by
  unfold Straddles timesOf
  rw [Ne, toNat_eq_zero, toNat_eq_zero]

/-- Every end in a file has the beginning of its slice before it. -/
def Orphanless (out : List Packet) (file : List (Packet × Nat)) : Prop :=
  ∀ before ended after, file = before ++ ended :: after →
    ∀ ending, ended.1.mark = some ending → ending.event.type = .sliceEnd →
      ∃ begun ∈ before, ∃ opening, Slice out begun.2 ended.2 opening ending

section

variable {packet : Packet} {mark : Mark} (h : packet.mark = some mark)
include h

/-- A boundary is written at the time of its packet. -/
theorem mark_ts :
    mark.ts = packet.timestampNs := by
  unfold Packet.mark at h
  split at h
  case h_1 fields _ =>
    split at h
    case isTrue => cases h
    case isFalse =>
      cases h
      rfl
  case h_2 => cases h

theorem isUntimed_iff :
    isUntimed packet = true ↔ mark.ts = 0 := by
  rw [mark_ts h]
  exact decide_eq_true_iff

theorem inWindow_iff (cutoff : Nat) :
    inWindow cutoff packet = true ↔ mark.ts ≠ 0 ∧ cutoff ≤ mark.ts.toNat := by
  rw [mark_ts h]
  exact decide_eq_true_iff

end

section Ring

variable {session : CaptureSession} {out : List Packet} (hring : session.windowNs ≠ 0)
  (hcomplete : (captureFile session out).ringCapacityTruncated = false)
include hring hcomplete

theorem mem_captureFile_mark {packet : Packet} {place : Nat} (hplace : out[place]? = some packet)
    {mark : Mark} (hmark : packet.mark = some mark) :
    (packet, place) ∈ (captureFile session out).written ↔
      mark.ts = 0 ∨ finalCutoff session out ≤ mark.ts.toNat := by
  rw [mem_captureFile hring hcomplete, isUntimed_iff hmark, inWindow_iff hmark]
  constructor
  · rintro ⟨-, hzero | ⟨-, hlate⟩⟩
    · exact Or.inl hzero
    · exact Or.inr hlate
  · intro hkept
    by_cases hzero : mark.ts = 0
    · exact ⟨hplace, Or.inl hzero⟩
    · exact ⟨hplace, Or.inr ⟨hzero, hkept.resolve_left hzero⟩⟩

/-- The beginning of a slice stands in the file before its end exactly if the slice does not
straddle the cutoff. -/
theorem Slice.kept_iff {start finish : Nat} {opening ending : Mark}
    (h : Slice out start finish opening ending)
    {before after : List (Packet × Nat)} {packet : Packet}
    (hsplit : (captureFile session out).written = before ++ (packet, finish) :: after) :
    (∃ begun ∈ before, begun.2 = start) ↔
      ¬ Straddles (finalCutoff session out) (timesOf opening ending) := by
  have hordered := captureFile_ordered hring hcomplete
  obtain ⟨first, hfirst, hopening⟩ := Option.bind_eq_some_iff.mp h.begun
  obtain ⟨last, hlast, hending⟩ := Option.bind_eq_some_iff.mp h.ended
  have hmem : (packet, finish) ∈ (captureFile session out).written := by
    rw [hsplit]
    exact List.mem_append_right _ List.mem_cons_self
  obtain rfl : last = packet :=
    Option.some.inj (hlast.symm.trans ((mem_captureFile hring hcomplete).mp hmem).1)
  have hkept := (mem_captureFile_mark hring hcomplete hlast hending).mp hmem
  have horder : InFileOrder (first, start) (last, finish) ↔ (opening.ts ≠ 0 → ending.ts ≠ 0) := by
    rw [InFileOrder, Ne, Ne, ← isUntimed_iff hopening, ← isUntimed_iff hending]
    cases isUntimed first <;> cases isUntimed last <;> simp [h.earlier]
  have hbefore : (∃ begun ∈ before, begun.2 = start) ↔ (first, start) ∈ before := by
    constructor
    · rintro ⟨begun, hbegun, rfl⟩
      have hplace :=
        ((mem_captureFile hring hcomplete).mp ((mem_before_iff hordered hsplit).mp hbegun).1).1
      rwa [Option.some.inj (hfirst.symm.trans hplace)]
    · exact fun hbegun => ⟨_, hbegun, rfl⟩
  rw [hbefore, mem_before_iff hordered hsplit,
    mem_captureFile_mark hring hcomplete hfirst hopening, horder, straddles_iff]
  constructor
  · rintro ⟨hkeptOpening, htimed⟩ ⟨hopeningTimed, hzero | ⟨hearly, -⟩⟩
    · exact htimed hopeningTimed hzero
    · exact absurd (hkeptOpening.resolve_left hopeningTimed) (Nat.not_le_of_lt hearly)
  · intro hstraddles
    refine ⟨?_, fun hopeningTimed hzero => hstraddles ⟨hopeningTimed, Or.inl hzero⟩⟩
    by_contra hlost
    rw [not_or, Nat.not_le] at hlost
    exact hstraddles ⟨hlost.1, hkept.imp_right fun hlate => ⟨hlost.2, hlate⟩⟩

/-- The end of a slice that straddles the cutoff is in the file, and an orphan. -/
theorem Slice.orphaned {start finish : Nat} {opening ending : Mark}
    (h : Slice out start finish opening ending)
    (hstraddles : Straddles (finalCutoff session out) (timesOf opening ending)) :
    ¬ Orphanless out (captureFile session out).written := by
  intro horphanless
  obtain ⟨packet, hpacket, hending⟩ := Option.bind_eq_some_iff.mp h.ended
  have hmem : (packet, finish) ∈ (captureFile session out).written := by
    refine (mem_captureFile_mark hring hcomplete hpacket hending).mpr ?_
    exact (straddles_iff.mp hstraddles).2.imp_right And.right
  obtain ⟨before, after, hsplit⟩ := List.append_of_mem hmem
  obtain ⟨begun, hbefore, another, hother⟩ :=
    horphanless before _ after hsplit ending hending h.ends
  exact (h.kept_iff hring hcomplete hsplit).mp ⟨begun, hbefore, hother.unique h⟩ hstraddles

end Ring

/-- A ring trace whose capacity was enough has the beginning of each slice that it has the end of,
exactly if no slice straddles the last cutoff. -/
theorem orphanless_iff {session : CaptureSession} (hring : session.windowNs ≠ 0)
    (inputs : List CaptureInput) (clock : CloseClock) (hfree : CollisionFree
      (captureClose session (captured session inputs) clock)) (hcomplete : (captureFile session
      (captureClose session (captured session inputs) clock).out).ringCapacityTruncated = false) :
    let out := (captureClose session (captured session inputs) clock).out
    Orphanless out (captureFile session out).written ↔
      ∀ start finish opening ending, Slice out start finish opening ending →
        ¬ Straddles (finalCutoff session out) (timesOf opening ending) := by
  intro out
  have hbegun : EndsBegun out := moves_endsBegun (finished_moves session inputs clock) hfree
  constructor
  · intro h start finish opening ending hslice hstraddles
    exact hslice.orphaned hring hcomplete hstraddles h
  · intro h before ended after hsplit ending hending hends
    obtain ⟨packet, finish⟩ := ended
    have hmem : (packet, finish) ∈ (captureFile session out).written := by
      rw [hsplit]
      exact List.mem_append_right _ List.mem_cons_self
    have hmark : markAt out finish = some ending :=
      Option.bind_eq_some_iff.mpr ⟨packet, ((mem_captureFile hring hcomplete).mp hmem).1, hending⟩
    obtain ⟨start, opening, hslice⟩ := hbegun.slice hmark hends
    obtain ⟨begun, hbefore, rfl⟩ := (hslice.kept_iff hring hcomplete hsplit).mpr (h _ _ _ _ hslice)
    exact ⟨begun, hbefore, opening, hslice⟩

/-- A trace, split at one of its boundaries. -/
theorem markAt_split {out : List Packet} {place : Nat} {mark : Mark}
    (h : markAt out place = some mark) :
    ∃ before packet after, out = before ++ packet :: after ∧ before.length = place ∧
      packet.mark = some mark := by
  obtain ⟨packet, hplace, hmark⟩ := Option.bind_eq_some_iff.mp h
  obtain ⟨hlt, rfl⟩ := List.getElem?_eq_some_iff.mp hplace
  refine ⟨out.take place, out[place], out.drop (place + 1), ?_,
    List.length_take_of_le (Nat.le_of_lt hlt), hmark⟩
  rw [List.getElem_cons_drop, List.take_append_drop]

theorem Slice.marks {out : List Packet} {start finish : Nat} {opening ending : Mark}
    (h : Slice out start finish opening ending) : SliceIn (marksOf out) opening ending := by
  obtain ⟨front, last, rest, rfl, rfl, hending⟩ := markAt_split h.ended
  have hbegun : markAt front start = some opening := by
    rw [markAt, ← List.getElem?_append_left h.earlier]
    exact h.begun
  obtain ⟨before, first, between, rfl, rfl, hopening⟩ := markAt_split hbegun
  refine ⟨marksOf before, marksOf between, marksOf rest, ?_, h.ends, h.same, fun mark hmark => ?_⟩
  · unfold marksOf
    rw [List.filterMap_append, List.filterMap_append, List.filterMap_cons_some hopening,
      List.filterMap_cons_some hending]
  · obtain ⟨place, hplace⟩ := mem_marksOf.mp hmark
    have hlt := markAt_lt hplace
    refine h.last (before.length + 1 + place) (by omega) (by simp; omega) mark ?_
    rw [markAt, List.append_assoc, List.getElem?_append_right (by omega)]
    rw [show before.length + 1 + place - before.length = place + 1 by omega, List.cons_append,
      List.getElem?_cons_succ]
    exact markAt_append hplace _

/-- The cutoff of a ring trace, as the exporter tells it before the close. -/
theorem finalCutoff_eq (session : CaptureSession) (inputs : List CaptureInput)
    (clock : CloseClock) :
    finalCutoff session (captureClose session (captured session inputs) clock).out =
      closeLatest session (captured session inputs) clock - session.windowNs.toNat := by
  have hlatest :
      (ringLatest (captureClose session (captured session inputs) clock).out).toNat = _ :=
    (captured_coupled session inputs).latestNs clock
  unfold finalCutoff ringCutoff
  rw [latest_arrivals, hlatest]
  split <;> omega

/-- A ring trace whose capacity was enough has the beginning of each slice that it has the end of,
if no slice that its inputs tell of straddles the cutoff: none begins before the window, which
reaches back from the latest timestamp at the close, and ends in it. -/
theorem orphanless_of_spans {session : CaptureSession} (hring : session.windowNs ≠ 0)
    (inputs : List CaptureInput) (clock : CloseClock)
    (hfree : CollisionFree (captureClose session (captured session inputs) clock))
    (hapart : IdsApart (captureClose session (captured session inputs) clock).out)
    (hcomplete : (captureFile session
      (captureClose session (captured session inputs) clock).out).ringCapacityTruncated = false)
    (hspans : ∀ span ∈ captureSpans session inputs clock,
      ¬ Straddles (closeLatest session (captured session inputs) clock - session.windowNs.toNat)
        span) :
    let out := (captureClose session (captured session inputs) clock).out
    Orphanless out (captureFile session out).written := by
  refine (orphanless_iff hring inputs clock hfree hcomplete).mpr ?_
  intro start finish opening ending hslice
  rw [finalCutoff_eq]
  exact hspans _ (finished_told hfree hapart hslice.marks)

/-- A call that reaches into the window, and attempts before and in it. -/
theorem orphanless_small :
    let session := smallCapture 1000000000
    let out :=
      (captureClose session (captured session [.connect { smallStart with ts := 1000000000 },
        .connect { smallStart with kind := .result, ts := 1500000000 },
        .syscall
          { (default : SyscallEvent) with
            kind := .recvfrom
            startTs := 500000000
            ts := 3000000000
            tid := 3
            tgid := 2
            finished := true } 200,
        .connect { smallStart with ts := 2200000000, attemptKey := 6 },
        .connect { smallStart with kind := .result, ts := 2800000000, attemptKey := 6 }])
        ⟨3000000000, none⟩).out
    Orphanless out (captureFile session out).written := by
  intro session out
  exact @orphanless_of_spans session (by decide) _ ⟨3000000000, none⟩
    ⟨by decide +kernel, by decide +kernel, by decide +kernel⟩
    (by unfold IdsApart; decide +kernel) (by decide +kernel) (by decide +kernel)

/-- A call that blocked for two seconds. -/
def blockedCall : CaptureInput :=
  .syscall
    { (default : SyscallEvent) with
      kind := .recvfrom
      startTs := 1000000000
      ts := 3000000000
      tid := 3
      tgid := 2
      finished := true } 200

/-- The beginning of a call is clipped to the window when the call is written, and the window moves
on: the end of the call is an orphan. -/
theorem clipped_call_orphaned :
    let session := smallCapture 1000000000
    let trail := captureClose session (captured session [blockedCall]) ⟨3500000000, none⟩
    CollisionFree trail ∧ (captureFile session trail.out).ringCapacityTruncated = false ∧
      ¬ Orphanless trail.out (captureFile session trail.out).written := by
  intro session trail
  have hcomplete : (captureFile session trail.out).ringCapacityTruncated =
      false := by decide +kernel
  refine ⟨⟨by decide +kernel, by decide +kernel, by decide +kernel⟩, hcomplete, ?_⟩
  have hslice : Slice trail.out 3 4
      ⟨2000000000, ⟨.sliceBegin, 910825381162666559, .syscall, 14363076710858785380⟩⟩
      ⟨3000000000, ⟨.sliceEnd, 910825381162666559, .syscall, 14363076710858785380⟩⟩ := by
    refine ⟨by decide +kernel, by decide +kernel, by
      decide, rfl, rfl, fun place hafter hbefore => ?_⟩
    omega
  have hcutoff : finalCutoff session trail.out = 2500000000 := by decide +kernel
  refine hslice.orphaned (by decide) hcomplete ?_
  rw [hcutoff]
  decide

end Anettrace.Capture
