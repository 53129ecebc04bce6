import Anettrace.Capture.Moves

/-!
# The close of a capture

What `perfetto_export_close` does, as moves: calls, system calls and flows are ended with their
records, and the lifetimes that are open are closed in the order of their tracks.
-/

namespace Anettrace.Capture

open Anettrace.Export Anettrace.Native Library.Labelled Library.Run Library.Table

/-! ## Tags mode -/

/-- In tags mode no lifetime of a socket is shown. -/
theorem touched_tags {session : Session} (htags : session.traceTags = true) {input : CaptureInput}
    {uuid : UInt64} {marks : NativeTrack → List Mark}
    (h : touched session input = some (uuid, marks))
    (track : NativeTrack) : ∀ mark ∈ marks track, mark.event.category = .connect := by
  intro mark hmark
  cases input with
  | event sample extension cpu realloc =>
      have hnone : touched session (.event sample extension cpu realloc) = none := if_pos htags
      rw [hnone] at h
      cases h
  | connect connect =>
      cases h
      unfold connectMarks at hmark
      dsimp only at hmark
      split at hmark
      · rw [List.mem_singleton.mp hmark]
      · split at hmark
        · rw [List.mem_singleton.mp hmark]
        · cases hmark
  | clock | ret | syscall | handoff | lost | queueLost | markCaptureEnd | tick => cases h

/-- In tags mode a capture writes no boundary of the lifetime of a socket. -/
theorem captured_tags {session : CaptureSession} (htags : session.traceTags = true)
    (inputs : List CaptureInput) :
    ∀ mark ∈ marksOf (captured session inputs).native.out, mark.event.category ≠ .socket := by
  induction inputs using List.reverseRecOn with
  | nil =>
      intro mark hmark
      cases hmark
  | append_singleton history input ih =>
      obtain ⟨lifetimes, hadvances, hturns, -⟩ := (captured_coupled session history).step input
      obtain ⟨marks, hmoves, hlifetimes⟩ := hadvances.moves
      rw [captured_concat]
      show ∀ mark ∈ marksOf (nativeStep session _ _ input).out, _
      rw [hmoves.marks]
      intro mark hmark hcategory
      rcases List.mem_append.mp hmark with hold | hnew
      · exact ih mark hold hcategory
      · have hlifetime : mark ∈ lifetimes := by
          rw [← hlifetimes]
          refine List.mem_filter.mpr ⟨hnew, ?_⟩
          unfold isLifetime
          rw [hcategory]
        unfold Turns at hturns
        cases htouched : touched session.toSession input with
        | none =>
            rw [htouched] at hturns
            rw [hturns] at hlifetime
            cases hlifetime
        | some entry =>
            obtain ⟨uuid, turns⟩ := entry
            rw [htouched] at hturns
            obtain ⟨_, track, _, _, -, -, -, -, -, -, rfl⟩ := hturns
            have hconnect := touched_tags htags htouched track mark hlifetime
            rw [hcategory] at hconnect
            cases hconnect

/-! ## Loops over the tracks -/

theorem track_loop {body : Trail → Nat → Trail} {change : NativeTrack → NativeTrack}
    {marks : NativeTrack → List Mark} (Inv : Trail → Prop)
    (hbody : ∀ (trail : Trail) (place : Nat) (track : NativeTrack), Inv trail →
      trail.tracks[place]? = some track → TrailMoves trail (marks track) (body trail place) ∧
        (body trail place).tracks = trail.tracks.set place (change track) ∧ Inv (body trail place))
    {trail : Trail} (hinv : Inv trail) :
    TrailMoves trail (trail.tracks.flatMap marks)
        ((List.range trail.tracks.length).foldl body trail) ∧
      ((List.range trail.tracks.length).foldl body trail).tracks = trail.tracks.map change ∧
      Inv ((List.range trail.tracks.length).foldl body trail) := by
  -- after `count` turns the first tracks are done
  have hturns (count : Nat) (hcount : count ≤ trail.tracks.length) :
      TrailMoves trail ((trail.tracks.take count).flatMap marks)
          ((List.range count).foldl body trail) ∧
        ((List.range count).foldl body trail).tracks =
          (trail.tracks.take count).map change ++ trail.tracks.drop count ∧
        Inv ((List.range count).foldl body trail) := by
    induction count with
    | zero => exact ⟨Moves.refl _, rfl, hinv⟩
    | succ count ih =>
        obtain ⟨hmoves, htracks, hheld⟩ := ih (by omega)
        have hlt : count < trail.tracks.length := by omega
        have hlength : ((trail.tracks.take count).map change).length = count := by
          rw [List.length_map, List.length_take]
          omega
        have hplace : ((List.range count).foldl body trail).tracks[count]? =
            some trail.tracks[count] := by
          rw [htracks, List.getElem?_append_right (by omega), hlength, Nat.sub_self,
            List.getElem?_drop, Nat.add_zero, List.getElem?_eq_getElem hlt]
        obtain ⟨hstep, hchanged, hkept⟩ := hbody _ count _ hheld hplace
        rw [List.range_succ, List.foldl_append, List.foldl_cons, List.foldl_nil]
        refine ⟨?_, ?_, hkept⟩
        · rw [List.take_succ_eq_append_getElem hlt, List.flatMap_append, List.flatMap_singleton]
          exact hmoves.trans hstep
        · rw [hchanged, htracks, List.set_append_right _ _ (by omega), hlength, Nat.sub_self,
            List.take_succ_eq_append_getElem hlt, List.map_append, List.append_assoc]
          congr 1
          rw [List.drop_eq_getElem_cons hlt]
          rfl
  obtain ⟨hmoves, htracks, hheld⟩ := hturns trail.tracks.length (Nat.le_refl _)
  rw [List.take_length] at hmoves htracks
  rw [List.drop_length, List.append_nil] at htracks
  exact ⟨hmoves, htracks, hheld⟩

def closeSocketMarks (session : Session) (endTs : UInt64) (track : NativeTrack) : List Mark :=
  if track.kind = .socket ∧ session.traceTags = false then closeMarks endTs track else []

def closeAttemptMarks (endTs : UInt64) (track : NativeTrack) : List Mark :=
  if track.kind = .connect ∧ track.active = true then
    [⟨endTs, ⟨.sliceEnd, track.uuid, .connect, track.object⟩⟩]
  else []

def closedTrack (kind : TrackKind) (track : NativeTrack) : NativeTrack :=
  if track.kind = kind then { track with active := false } else track

@[simp] theorem closedTrack_kind (kind : TrackKind) (track : NativeTrack) :
    (closedTrack kind track).kind = track.kind := by
  unfold closedTrack
  split <;> rfl

@[simp] theorem closedTrack_active (kind : TrackKind) (track : NativeTrack) :
    (closedTrack kind track).active = (track.active && decide (track.kind ≠ kind)) := by
  unfold closedTrack
  split <;> simp_all

@[simp] theorem setActive_tracks {trail : Trail} {place : Nat} {track : NativeTrack}
    (h : trail.tracks[place]? = some track) (active : Bool) :
    (trail.setActive place active).tracks =
      trail.tracks.set place { track with active := active } :=
  modify_some h

theorem nativeCloseSocket_tracks {session : Session} {trail : Trail} {place : Nat}
    {track : NativeTrack} (htrack : trail.tracks[place]? = some track) (ts : UInt64) :
    (nativeCloseSocket session trail ts place).tracks =
      trail.tracks.set place { track with active := false } := by
  unfold nativeCloseSocket
  rw [htrack]
  dsimp only
  cases hactive : track.active with
  | false =>
      rw [if_pos (by simp), ← hactive]
      exact (set_same htrack).symm
  | true =>
      have hslice (fields : TrackEvent) :
          (nativeSlice session trail ts fields).tracks = trail.tracks := by
        unfold nativeSlice
        split <;> rfl
      rw [if_neg (by simp), setActive_tracks (by rw [hslice]; exact htrack), hslice]

theorem nativeCloseSocket_rest {session : Session} (htags : session.traceTags = true)
    {trail : Trail} {place : Nat} {track : NativeTrack} (htrack : trail.tracks[place]? = some track)
    (hkind : track.kind = .socket)
    (hnever : ∀ mark ∈ marksOf trail.out, mark.event.category ≠ .socket) (ts : UInt64) :
    TrailMoves trail [] (nativeCloseSocket session trail ts place) := by
  unfold nativeCloseSocket
  rw [htrack]
  dsimp only
  have hslice : nativeSlice session trail ts ⟨.sliceEnd, track.uuid, .socket, track.object⟩ =
      trail :=
    if_pos ⟨htags, rfl⟩
  rw [hslice]
  split
  · exact Moves.refl _
  · exact Moves.single (.rest htrack hkind hnever)

theorem nativeCloseSocketTrack_moves {session : Session} {trail : Trail} (endTs : UInt64)
    {place : Nat} {track : NativeTrack} (htrack : trail.tracks[place]? = some track)
    (hnever : session.traceTags = true →
      ∀ mark ∈ marksOf trail.out, mark.event.category ≠ .socket) :
    TrailMoves trail (closeSocketMarks session endTs track)
        (nativeCloseSocketTrack session endTs trail place) ∧
      (nativeCloseSocketTrack session endTs trail place).tracks =
        trail.tracks.set place (closedTrack .socket track) := by
  by_cases hkind : track.kind = .socket
  case neg =>
    have hskip : nativeCloseSocketTrack session endTs trail place = trail :=
      if_neg (by simp [htrack, hkind])
    have hnone : closeSocketMarks session endTs track = [] := if_neg fun h => hkind h.1
    have hsame : closedTrack .socket track = track := if_neg hkind
    rw [hskip, hnone, hsame, set_same htrack]
    exact ⟨Moves.refl _, rfl⟩
  case pos =>
    have hturn : nativeCloseSocketTrack session endTs trail place =
        nativeCloseSocket session trail endTs place :=
      if_pos (by simp [htrack, hkind])
    have hclosed : closedTrack .socket track = { track with active := false } := if_pos hkind
    rw [hturn, hclosed]
    refine ⟨?_, nativeCloseSocket_tracks htrack endTs⟩
    unfold closeSocketMarks
    by_cases htags : session.traceTags = false
    · rw [if_pos ⟨hkind, htags⟩]
      exact nativeCloseSocket_moves htags htrack endTs
    · have htags' : session.traceTags = true := by simpa using htags
      rw [if_neg (fun h => htags h.2)]
      exact nativeCloseSocket_rest htags' htrack hkind (hnever htags') endTs

/-- The loop over the tracks of sockets. -/
theorem nativeCloseSockets_moves {session : Session} {trail : Trail} (endTs : UInt64)
    (hnever : session.traceTags = true →
      ∀ mark ∈ marksOf trail.out, mark.event.category ≠ .socket) :
    TrailMoves trail (trail.tracks.flatMap (closeSocketMarks session endTs))
        (nativeCloseSockets session trail endTs) ∧
      (nativeCloseSockets session trail endTs).tracks =
        trail.tracks.map (closedTrack .socket) := by
  suffices hbody : _ from
    have hloop := @track_loop (nativeCloseSocketTrack session endTs) (closedTrack .socket)
      (closeSocketMarks session endTs)
      (fun trail => session.traceTags = true →
        ∀ mark ∈ marksOf trail.out, mark.event.category ≠ .socket) hbody trail hnever
    ⟨hloop.1, hloop.2.1⟩
  · intro trail place track hnever htrack
    obtain ⟨hmoves, htracks⟩ := nativeCloseSocketTrack_moves endTs htrack hnever
    refine ⟨hmoves, htracks, fun htags mark hmark => ?_⟩
    -- in tags mode a turn writes no mark
    have hnone : closeSocketMarks session endTs track = [] := if_neg (by simp [htags])
    rw [hmoves.marks, hnone, List.append_nil] at hmark
    exact hnever htags mark hmark

theorem nativeCloseAttempts_moves (session : Session) (trail : Trail) (endTs : UInt64) :
    TrailMoves trail (trail.tracks.flatMap (closeAttemptMarks endTs))
        (nativeCloseAttempts session trail endTs) ∧
      (nativeCloseAttempts session trail endTs).tracks =
        trail.tracks.map (closedTrack .connect) := by
  suffices hbody : _ from
    have hloop := @track_loop (nativeCloseAttempt session endTs) (closedTrack .connect)
      (closeAttemptMarks endTs) (fun _ => True) hbody trail trivial
    ⟨hloop.1, hloop.2.1⟩
  · intro trail place track _ htrack
    unfold nativeCloseAttempt closeAttemptMarks closedTrack
    rw [htrack]
    dsimp only
    by_cases hopen : track.kind = .connect ∧ track.active = true
    case pos =>
      have hslice :
          nativeSlice session trail endTs ⟨.sliceEnd, track.uuid, .connect, track.object⟩ =
          nativeEventWrite trail endTs ⟨.sliceEnd, track.uuid, .connect, track.object⟩ :=
        if_neg (by simp [Category.isSocket])
      rw [if_pos hopen, if_pos hopen.1, if_neg (by simp [hopen]), hslice]
      exact ⟨Moves.single (.finish endTs htrack hopen.2 (Or.inr rfl)),
        setActive_tracks htrack false,
        trivial⟩
    case neg =>
      have hclosed : track.kind ≠ .connect ∨ (!track.active) = true := by
        by_cases hkind : track.kind = .connect
        · exact Or.inr (by simpa using fun hactive => hopen ⟨hkind, hactive⟩)
        · exact Or.inl hkind
      have hsame : (if track.kind = .connect then { track with active := false } else track) =
          track := by
        split
        · rename_i hkind
          have hinactive : track.active = false :=
            Bool.eq_false_iff.mpr fun hactive => hopen ⟨hkind, hactive⟩
          rw [← hinactive]
        · rfl
      rw [if_neg hopen, if_pos hclosed, hsame]
      exact ⟨Moves.refl _, (set_same htrack).symm, trivial⟩

/-! ## The close -/

/-- Moves that begin and end no lifetime set no flag. -/
theorem moves_active {trail next : Trail} {marks : List Mark} (h : TrailMoves trail marks next)
    (hquiet : marks.filter isLifetime = []) :
    ∀ track ∈ next.tracks, track.active = true → track ∈ trail.tracks := by
  induction h with
  | refl => exact fun _ htrack _ => htrack
  | tail _ hlast ih =>
      rw [List.filter_append] at hquiet
      obtain ⟨hbefore, hafter⟩ := List.append_eq_nil_iff.mp hquiet
      have hreset {trail : Trail} {place : Nat} : ∀ track ∈ (trail.setActive place false).tracks,
          track.active = true → track ∈ trail.tracks := by
        intro track htrack hactive
        obtain ⟨other, hother⟩ := List.mem_iff_getElem?.mp htrack
        rw [show (trail.setActive place false).tracks = trail.tracks.modify place _ from rfl,
          List.getElem?_modify] at hother
        split at hother
        · obtain ⟨found, -, rfl⟩ := Option.map_eq_some_iff.mp hother
          cases hactive
        · exact List.mem_iff_getElem?.mpr ⟨other, by simpa using hother⟩
      intro track htrack hactive
      refine ih hbefore track ?_ hactive
      cases hlast with
      | add =>
          rcases List.mem_append.mp htrack with hold | hadded
          · exact hold
          · obtain rfl := List.mem_singleton.mp hadded
            cases hactive
      | snapshot | packet | instant | slice | sliceEnd => exact htrack
      | begin ts hplace hlifetime => cases hlifetime <;> cases hafter
      | finish ts hplace hopen hcategory =>
          -- an end that is quiet is of no socket and of no attempt
          rcases hcategory with ⟨rfl, -⟩ | rfl <;> cases hafter
      | rest => exact hreset track htrack hactive

theorem nativeCloseStart_moves (session : CaptureSession) (trail : Trail) (endTs : UInt64)
    (clock : CloseClock) : TrailMoves trail [] (nativeCloseStart session trail endTs clock) := by
  have hprobes (count : Nat) (start : Trail) : TrailMoves start []
      ((List.range count).foldl
        (fun trail _ => nativeExportMeta session.toSession trail endTs) start) := by
    induction count with
    | zero => exact Moves.refl start
    | succ count ih =>
        rw [List.range_succ, List.foldl_append, List.foldl_cons, List.foldl_nil]
        exact ih.then_silent (nativeExportMeta_moves _ _ _)
  unfold nativeCloseStart
  dsimp only
  cases clock.snapshot with
  | none =>
      split
      · exact (hprobes _ trail).then_silent (nativeExportMeta_moves _ _ _)
      · exact hprobes _ trail
  | some times =>
      have hstart : TrailMoves trail []
          (nativeClockSnapshot trail times.1 times.2.1 times.2.2) := Moves.single (.snapshot _ _ _)
      split
      · exact (hstart.then_silent (hprobes _ _)).then_silent (nativeExportMeta_moves _ _ _)
      · exact hstart.then_silent (hprobes _ _)

/-- The system calls that the close exports, for the latest timestamp before them. -/
def closeCallSpans (session : CaptureSession) (state : State) (endTs : UInt64) (latest : Nat) :
    List (Nat × Nat) :=
  callSpans session latest (closedCalls (closeIos session.toSession state endTs) endTs)

/-- The part of the close on calls and flows, in both halves. -/
theorem nativeCloseTables_mirrors {session : CaptureSession} {state : State} {trail : Trail}
    (h : Tracked session.toSession state trail) (hsound : state.books.Sound) (now : UInt64) :
    let endTs := closeTime state now
    let shown := nativeCloseIos session.toSession state trail endTs
    Mirrors session.toSession
      (ToldBy (closeCallSpans session state endTs (ringLatest shown.out).toNat)) state trail
      (closeTables session.toSession state now) (nativeCloseTables session state trail endTs) := by
  intro endTs shown
  have hios : Mirrors session.toSession
      (ToldBy (closeCallSpans session state endTs (ringLatest shown.out).toNat)) state trail _ _ :=
    nativeCloseIos_mirrors h hsound endTs
  have hcalls := @nativeCloseSyscalls_mirrors session _ _ hios.tracked endTs
  have hflows : Mirrors session.toSession
      (ToldBy (closeCallSpans session state endTs (ringLatest shown.out).toNat)) _ _ _ _ :=
    nativeFinishFlows_mirrors hcalls.tracked (fun _ => true) (fun _ => endTs) .traceEnd true
  exact hios.trans (hcalls.trans hflows)

/-- The trace when the close exports the system calls. -/
def closeShown (session : CaptureSession) (exporter : Exporter) (clock : CloseClock) : Trail :=
  let endTs := closeTime exporter.state clock.now
  let overview := overviewFlush session.toSession exporter.state
    (withTrail exporter.native (nativeCloseStart session exporter.native.toTrail endTs clock))
    endTs true
  nativeCloseIos session.toSession exporter.state overview.toTrail endTs

/-- The times of the slices that the close begins and ends at once. -/
def closeBrief (session : CaptureSession) (exporter : Exporter) (clock : CloseClock) :
    List (Nat × Nat) :=
  closeCallSpans session exporter.state (closeTime exporter.state clock.now)
    (ringLatest (closeShown session exporter clock).out).toNat

/-- The trace when the loops over the tracks start. -/
def closeFound (session : CaptureSession) (exporter : Exporter) (clock : CloseClock) : Trail :=
  let endTs := closeTime exporter.state clock.now
  let overview := overviewFlush session.toSession exporter.state
    (withTrail exporter.native (nativeCloseStart session exporter.native.toTrail endTs clock))
    endTs true
  nativeExportMeta session.toSession
    (nativeExportMeta session.toSession
      (nativeCloseTables session exporter.state overview.toTrail endTs) endTs) endTs

variable {session : CaptureSession} {exporter : Exporter}

/-- The close up to the loops over the tracks, in both halves. -/
theorem Coupled.found (h : Coupled session exporter) (clock : CloseClock) :
    Mirrors session.toSession (ToldBy (closeBrief session exporter clock)) exporter.state
      exporter.native.toTrail (closeTables session.toSession exporter.state clock.now)
      (closeFound session exporter clock) := by
  have hstart := nativeCloseStart_moves session exporter.native.toTrail
    (closeTime exporter.state clock.now) clock
  unfold closeFound closeBrief closeShown
  dsimp only
  generalize nativeCloseStart session exporter.native.toTrail (closeTime exporter.state clock.now)
    clock = started at *
  have hready :=
    @Overview.Ready.moves _ (withTrail exporter.native started) h.ready [] hstart rfl
  obtain ⟨waiting, hdrains⟩ := hready.drains
  obtain ⟨remaining, hflushed⟩ := @Drains.flush session.toSession _ _ _ hdrains exporter.state
    (closeTime exporter.state clock.now) true
  generalize overviewFlush session.toSession exporter.state (withTrail exporter.native started)
    (closeTime exporter.state clock.now) true = overview at *
  have hdrained : TrailMoves exporter.native.toTrail [] overview.toTrail :=
    hstart.then_silent hflushed.moves
  have htables :=
    @nativeCloseTables_mirrors session _ _ (h.tracked.moves hdrained) h.sound clock.now
  have hmeta (trail : Trail) := nativeExportMeta_moves session.toSession trail
    (closeTime exporter.state clock.now)
  exact (h.tracked.quiet hdrained).trans
    (htables.trans (htables.tracked.quiet ((hmeta _).then_silent (hmeta _))))

/-- The lifetimes that the close ends: those of sockets, and then attempts, in the order of
tracks. -/
def lastMarks (session : Session) (endTs : UInt64) (tracks : List NativeTrack) : List Mark :=
  tracks.flatMap (closeSocketMarks session endTs) ++ tracks.flatMap (closeAttemptMarks endTs)

/-- The loops over the tracks, and the metadata after them. -/
structure Ends (session : CaptureSession) (endTs : UInt64) (found next : Trail) : Prop where
  written : TrailMoves found (lastMarks session.toSession endTs found.tracks) next
  closed : ∀ track ∈ next.tracks, track.kind = .socket ∨ track.kind = .connect →
    track.active = false

theorem lastMarks_lifetimes (session : Session) (endTs : UInt64) (tracks : List NativeTrack) :
    ∀ mark ∈ lastMarks session endTs tracks, isLifetime mark = true := by
  intro mark hmark
  rcases List.mem_append.mp hmark with hsocket | hattempt
  · obtain ⟨track, -, hmark⟩ := List.mem_flatMap.mp hsocket
    unfold closeSocketMarks at hmark
    split at hmark
    · exact recordMarks_lifetimes endTs true track mark hmark
    · cases hmark
  · obtain ⟨track, -, hmark⟩ := List.mem_flatMap.mp hattempt
    unfold closeAttemptMarks at hmark
    split at hmark
    · rw [List.mem_singleton.mp hmark]
      rfl
    · cases hmark

theorem nativeCloseTracks_ends {found : Trail} (endTs : UInt64) (hnever : session.traceTags = true →
      ∀ mark ∈ marksOf found.out, mark.event.category ≠ .socket) :
    Ends session endTs found
      (let trail := nativeCloseAttempts session.toSession
        (nativeCloseSockets session.toSession found endTs) endTs
      let trail := if session.windowNs ≠ 0 then
        nativeExportMeta session.toSession trail endTs else trail
      nativeExportMeta session.toSession
        (nativeExportMeta session.toSession trail endTs) endTs) := by
  obtain ⟨hsockets, hsocketTracks⟩ := @nativeCloseSockets_moves session.toSession found endTs hnever
  obtain ⟨hattempts, hattemptTracks⟩ := nativeCloseAttempts_moves session.toSession
    (nativeCloseSockets session.toSession found endTs) endTs
  generalize nativeCloseSockets session.toSession found endTs = between at *
  generalize nativeCloseAttempts session.toSession between endTs = closed at *
  have hmetas : TrailMoves closed []
      (nativeExportMeta session.toSession (nativeExportMeta session.toSession
        (if session.windowNs ≠ 0 then nativeExportMeta session.toSession closed endTs else closed)
        endTs) endTs) := by
    refine Moves.then_silent ?_ ((nativeExportMeta_moves _ _ _).then_silent
      (nativeExportMeta_moves _ _ _))
    split
    · exact nativeExportMeta_moves _ _ _
    · exact Moves.refl closed
  -- the first loop leaves what the second one reads
  have hsame : between.tracks.flatMap (closeAttemptMarks endTs) =
      found.tracks.flatMap (closeAttemptMarks endTs) := by
    rw [hsocketTracks, List.flatMap_map]
    refine congrArg (List.flatMap · found.tracks) (funext fun track => ?_)
    unfold closedTrack closeAttemptMarks
    split
    case isTrue hkind => rw [if_neg (by simp [hkind]), if_neg (by simp [hkind])]
    case isFalse => rfl
  have hloops := hsockets.trans hattempts
  rw [hsame] at hloops
  refine ⟨hloops.then_silent hmetas, fun track htrack hkind => ?_⟩
  -- a flag that is set now was set after both loops, which reset it
  refine Bool.eq_false_iff.mpr fun hactive => ?_
  have hclosed := moves_active hmetas rfl track htrack hactive
  rw [hattemptTracks, hsocketTracks, List.map_map] at hclosed
  obtain ⟨origin, -, rfl⟩ := List.mem_map.mp hclosed
  rw [Function.comp_apply, closedTrack_kind, closedTrack_kind] at hkind
  rw [Function.comp_apply, closedTrack_active, closedTrack_active, closedTrack_kind] at hactive
  rcases hkind with hkind | hkind <;> simp [hkind] at hactive

theorem Coupled.ends (h : Coupled session exporter) (clock : CloseClock)
    (hnever : session.traceTags = true →
      ∀ mark ∈ marksOf exporter.native.out, mark.event.category ≠ .socket) :
    Ends session (closeTime exporter.state clock.now) (closeFound session exporter clock)
      (captureClose session exporter clock) := by
  refine nativeCloseTracks_ends (closeTime exporter.state clock.now) fun htags mark hmark => ?_
  obtain ⟨records, marks, -, hmoves, hmarks, -⟩ := (h.found clock).written
  rw [hmoves.marks] at hmark
  rcases List.mem_append.mp hmark with hold | hnew
  · exact hnever htags mark hold
  · -- the records of calls and flows tell no lifetime
    intro hcategory
    have hmem : mark ∈ marks.filter Mark.isLasting :=
      List.mem_filter.mpr ⟨hnew, by unfold Mark.isLasting; rw [hcategory]⟩
    rw [hmarks, mirroredMarks, if_pos htags] at hmem
    cases hmem

theorem captured_ends (session : CaptureSession) (inputs : List CaptureInput) (clock : CloseClock) :
    Ends session (closeTime (captured session inputs).state clock.now)
      (closeFound session (captured session inputs) clock)
      (captureClose session (captured session inputs) clock) :=
  (captured_coupled session inputs).ends clock fun htags => captured_tags htags inputs

/-! ## The boundaries of a finished trace -/

section Finished

variable (session : CaptureSession) (inputs : List CaptureInput) (clock : CloseClock)

/-- The times of the slices of a capture that are begun and at once ended. -/
def allBrief : List (Nat × Nat) :=
  runBrief session inputs ++ closeBrief session (captured session inputs) clock

/-- A capture and its close, in both halves. -/
theorem finished_advances :
    ∃ lifetimes,
      (marksOf (captured session inputs).native.out).filter isLifetime = lifetimes ∧
      Advances session.toSession (ToldBy (allBrief session inputs clock)) State.init Trail.init
        (lifetimes ++ lastMarks session.toSession
          (closeTime (captured session inputs).state clock.now)
          (closeFound session (captured session inputs) clock).tracks)
        (closeTables session.toSession (captured session inputs).state clock.now)
        (captureClose session (captured session inputs) clock) := by
  obtain ⟨lifetimes, hrun⟩ := captured_moves session inputs
  obtain ⟨early, hearly, hlifetimes⟩ := hrun.moves
  have hfound := mirrors_advances ((captured_coupled session inputs).found clock)
  have hends := tracked_advances hfound.tracked (captured_ends session inputs clock).written
    (List.filter_eq_self.mpr fun mark hmark =>
      isLifetime_lasting mark (lastMarks_lifetimes _ _ _ mark hmark))
    (lastMarks_lifetimes _ _ _)
    (paired_lasting (List.filter_eq_self.mpr fun mark hmark =>
      isLifetime_lasting mark (lastMarks_lifetimes _ _ _ mark hmark))
      (ToldBy (allBrief session inputs clock)))
  have hall := ((hrun.imp fun _ _ => List.mem_append_left _).trans
    (hfound.imp fun _ _ => List.mem_append_right _)).trans hends
  rw [List.append_nil] at hall
  refine ⟨lifetimes, ?_, hall⟩
  rw [hearly.marks, ← hlifetimes]
  rfl

theorem finished_moves :
    TrailMoves Trail.init (marksOf (captureClose session (captured session inputs) clock).out)
      (captureClose session (captured session inputs) clock) := by
  obtain ⟨_, -, hadvances⟩ := finished_advances session inputs clock
  obtain ⟨marks, hmoves, -⟩ := hadvances.moves
  rw [show marksOf (captureClose session (captured session inputs) clock).out = marks from
    hmoves.marks]
  exact hmoves

/-- The slices of flows and calls in the finished trace are those of the JSONL file. -/
theorem finished_mirrored :
    (marksOf (captureClose session (captured session inputs) clock).out).filter isMirrored =
      mirroredMarks session.toSession
        (closeTables session.toSession (captured session inputs).state clock.now).out := by
  obtain ⟨_, -, hadvances⟩ := finished_advances session inputs clock
  obtain ⟨records, marks, hout, hmoves, hmirrored, -, -⟩ := hadvances.written
  rw [hout, hmoves.marks]
  exact hmirrored

theorem finished_lifetimes :
    (marksOf (captureClose session (captured session inputs) clock).out).filter isLifetime =
      (marksOf (captured session inputs).native.out).filter isLifetime ++
        lastMarks session.toSession (closeTime (captured session inputs).state clock.now)
          (closeFound session (captured session inputs) clock).tracks := by
  obtain ⟨_, rfl, hadvances⟩ := finished_advances session inputs clock
  obtain ⟨marks, hmoves, hlifetimes⟩ := hadvances.moves
  rw [hmoves.marks]
  exact hlifetimes

/-- The other slices of the finished trace are each begun and at once ended. -/
theorem finished_brief :
    Paired (ToldBy (allBrief session inputs clock))
      ((marksOf (captureClose session (captured session inputs) clock).out).filter
        Mark.isBrief) := by
  obtain ⟨_, -, hadvances⟩ := finished_advances session inputs clock
  obtain ⟨_, marks, -, hmoves, -, -, hpaired, -⟩ := hadvances.written
  rw [hmoves.marks]
  exact hpaired

/-- A boundary in the finished trace is of a flow, a call, a lifetime, or of a slice that is begun
and at once ended. -/
theorem finished_kinds {mark : Mark}
    (hmark : mark ∈ marksOf (captureClose session (captured session inputs) clock).out) :
    isMirrored mark = true ∨ isLifetime mark = true ∨ mark.isBrief = true := by
  obtain ⟨_, -, hadvances⟩ := finished_advances session inputs clock
  obtain ⟨_, marks, -, hmoves, -, -, -, hlasting⟩ := hadvances.written
  rw [hmoves.marks] at hmark
  cases hbrief : mark.isLasting with
  | true => exact (hlasting mark hmark hbrief).imp_right Or.inl
  | false => exact Or.inr (Or.inr (congrArg not hbrief))

end Finished

end Anettrace.Capture
