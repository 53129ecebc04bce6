import Anettrace.Capture.Close
import Anettrace.Library.Alternation
import Anettrace.Native.Descriptors

/-!
# Lifetimes alternate

The slices of sockets and connect attempts follow the flags of their tracks: every track is a
switch, turned by the boundaries on it. Only the beginning of a connect attempt does not look at the
flag, so an attempt may begin once on each track.
-/

namespace Anettrace.Capture

open Anettrace.Export Anettrace.Native Library.Labelled Library.Alternation Library.Table

/-- The track of a boundary, with `true` for a beginning. -/
def lifetimeTurn (mark : Mark) : UInt64 × Bool :=
  (mark.event.track, mark.event.type = .sliceBegin)

/-- The boundaries of lifetimes in a trace, by track. -/
def lifetimeLog (out : List Packet) : List (UInt64 × Bool) :=
  ((marksOf out).filter isLifetime).map lifetimeTurn

def beginsAttempt (mark : Mark) : Bool :=
  mark.event.category = .connect && mark.event.type = .sliceBegin

/-- The connect attempts that begin in a trace. -/
def attemptsBegun (out : List Packet) : List Mark :=
  (marksOf out).filter beginsAttempt

/-- Track uuids do not collide: tracks of one uuid are of one kind, and the lifetimes on a track are
those it was made for. -/
structure CollisionFree (trail : Trail) : Prop where
  kinds : ∀ first ∈ trail.tracks, ∀ second ∈ trail.tracks, first.uuid = second.uuid →
    first.kind = second.kind
  sockets : ∀ mark ∈ marksOf trail.out, ∀ track ∈ trail.tracks, mark.event.track = track.uuid →
    mark.event.category = .socket → track.kind = .socket ∧ track.object = mark.event.object
  attempts : ∀ mark ∈ marksOf trail.out, ∀ track ∈ trail.tracks, mark.event.track = track.uuid →
    mark.event.category = .connect → track.kind = .connect ∧ track.object = mark.event.object

/-- A trace whose uuids do not collide was reached from such traces only. -/
theorem CollisionFree.before {before after : Trail} (h : CollisionFree after) {marks : List Mark}
    (hmoves : TrailMoves before marks after) : CollisionFree before := by
  have hlater (track : NativeTrack) (htrack : track ∈ before.tracks) :
      ∃ later ∈ after.tracks, later.identity = track.identity :=
    List.mem_map.mp (hmoves.identities.subset (List.mem_map_of_mem htrack))
  have hmark (mark : Mark) (hmem : mark ∈ marksOf before.out) : mark ∈ marksOf after.out := by
    rw [hmoves.marks]
    exact List.mem_append_left _ hmem
  refine ⟨fun first hfirst second hsecond huuid =>
    ?_, fun mark hmem track htrack huuid hcategory => ?_,
    fun mark hmem track htrack huuid hcategory => ?_⟩
  · obtain ⟨laterFirst, hmemFirst, hsameFirst⟩ := hlater first hfirst
    obtain ⟨laterSecond, hmemSecond, hsameSecond⟩ := hlater second hsecond
    obtain ⟨huuidFirst, -, hkindFirst⟩ := Prod.ext_iff.mp hsameFirst |>.imp_right Prod.ext_iff.mp
    obtain ⟨huuidSecond, -, hkindSecond⟩ := Prod.ext_iff.mp hsameSecond |>.imp_right Prod.ext_iff.mp
    have hkinds := h.kinds laterFirst hmemFirst laterSecond hmemSecond
      (huuidFirst.trans (huuid.trans huuidSecond.symm))
    exact hkindFirst.symm.trans (hkinds.trans hkindSecond)
  · obtain ⟨later, hmemLater, hsame⟩ := hlater track htrack
    obtain ⟨hsameUuid, hsameObject, hsameKind⟩ :=
      Prod.ext_iff.mp hsame |>.imp_right Prod.ext_iff.mp
    obtain ⟨hkind, hobject⟩ := h.sockets mark (hmark mark hmem) later hmemLater
      (huuid.trans hsameUuid.symm) hcategory
    exact ⟨hsameKind.symm.trans hkind, hsameObject.symm.trans hobject⟩
  · obtain ⟨later, hmemLater, hsame⟩ := hlater track htrack
    obtain ⟨hsameUuid, hsameObject, hsameKind⟩ :=
      Prod.ext_iff.mp hsame |>.imp_right Prod.ext_iff.mp
    obtain ⟨hkind, hobject⟩ := h.attempts mark (hmark mark hmem) later hmemLater
      (huuid.trans hsameUuid.symm) hcategory
    exact ⟨hsameKind.symm.trans hkind, hsameObject.symm.trans hobject⟩

/-- No attempt begins twice on a track. -/
def AttemptsOnce (out : List Packet) : Prop :=
  ((attemptsBegun out).map fun mark => mark.event.track).Nodup

theorem AttemptsOnce.before {before after : Trail} (h : AttemptsOnce after.out) {marks : List Mark}
    (hmoves : TrailMoves before marks after) : AttemptsOnce before.out := by
  unfold AttemptsOnce attemptsBegun at h ⊢
  rw [hmoves.marks, List.filter_append, List.map_append] at h
  exact (List.nodup_append.mp h).1

/-- The tracks whose flag is set. -/
def Trail.On (trail : Trail) (uuid : UInt64) : Prop :=
  ∃ track ∈ trail.tracks, track.uuid = uuid ∧ track.active = true

/-- A flag is set or reset, where no two tracks share a uuid. -/
theorem on_setActive {trail : Trail} (hnodup : (trail.tracks.map NativeTrack.uuid).Nodup)
    {place : Nat} {track : NativeTrack} (htrack : trail.tracks[place]? = some track) (active : Bool)
    (uuid : UInt64) :
    Trail.On (trail.setActive place active) uuid ↔
      if uuid = track.uuid then active = true else Trail.On trail uuid := by
  have htracks := setActive_tracks htrack active
  have hplace : (trail.setActive place active).tracks[place]? =
      some { track with active := active } := setActive_same htrack active
  -- a track with the uuid stands at the place
  have hunique (other : Nat) (found : NativeTrack) (hfound : trail.tracks[other]? = some found)
      (huuid : found.uuid = track.uuid) : other = place := by
    have hget (i : Nat) (entry : NativeTrack) (hentry : trail.tracks[i]? = some entry) :
        (trail.tracks.map NativeTrack.uuid)[i]? = some entry.uuid := by
      rw [List.getElem?_map, hentry]
      rfl
    have hlength := (List.getElem?_eq_some_iff.mp (hget other found hfound)).1
    refine (List.getElem?_inj hlength hnodup).mp ?_
    rw [hget other found hfound, hget place track htrack, huuid]
  constructor
  · rintro ⟨found, hfound, rfl, hactive⟩
    obtain ⟨other, hother⟩ := List.mem_iff_getElem?.mp hfound
    rw [htracks] at hother
    rcases getElem?_set_cases hother with ⟨rfl, rfl⟩ | ⟨hne, hold⟩
    · rw [if_pos rfl]
      exact hactive
    · rw [if_neg fun huuid => hne (hunique other found hold huuid)]
      exact ⟨found, List.mem_of_getElem? hold, rfl, hactive⟩
  · intro hon
    split at hon
    case isTrue huuid => exact ⟨_, List.mem_of_getElem? hplace, huuid.symm, hon⟩
    case isFalse huuid =>
      obtain ⟨found, hfound, rfl, hactive⟩ := hon
      obtain ⟨other, hother⟩ := List.mem_iff_getElem?.mp hfound
      refine ⟨found, List.mem_iff_getElem?.mpr ⟨other, ?_⟩, rfl, hactive⟩
      have hne : other ≠ place := by
        rintro rfl
        rw [htrack] at hother
        exact huuid (congrArg NativeTrack.uuid (Option.some_inj.mp hother)).symm
      rw [htracks, List.getElem?_set_ne (Ne.symm hne)]
      exact hother

theorem on_iff {trail : Trail} (hnodup : (trail.tracks.map NativeTrack.uuid).Nodup)
    {track : NativeTrack} (htrack : track ∈ trail.tracks) :
    Trail.On trail track.uuid ↔ track.active = true := by
  refine ⟨?_, fun hactive => ⟨track, htrack, rfl, hactive⟩⟩
  rintro ⟨other, hother, huuid, hactive⟩
  rwa [← List.inj_on_of_nodup_map hnodup hother htrack huuid]

/-! ## Moves turn switches -/

theorem lifetimeLog_append (before after : List Packet) {marks : List Mark}
    (h : marksOf after = marksOf before ++ marks) :
    lifetimeLog after = lifetimeLog before ++
      (marks.filter isLifetime).map lifetimeTurn := by
  unfold lifetimeLog
  rw [h, List.filter_append, List.map_append]

/-- The flag of a track is the level that the lifetimes on it lead to. -/
def TrackLevel (trail : Trail) (uuid : UInt64) : Prop :=
  level (turnsOf (lifetimeLog trail.out) uuid) = true ↔ Trail.On trail uuid

/-- A track that is on has a boundary of a lifetime, which is of what the track was made for. -/
theorem TrackLevel.begun {trail : Trail} {track : NativeTrack}
    (h : TrackLevel trail track.uuid) (hfree : CollisionFree trail)
    (htrack : track ∈ trail.tracks)
    (hon : Trail.On trail track.uuid) :
    ∃ mark ∈ marksOf trail.out, mark.event.track = track.uuid ∧ mark.event.type = .sliceBegin ∧
      ((mark.event.category = .socket ∧ track.kind = .socket) ∨
        (mark.event.category = .connect ∧ track.kind = .connect)) := by
  obtain ⟨mark, hmem, hentry⟩ := List.mem_map.mp (mem_of_turnsOf (mem_of_level (h.mpr hon)))
  obtain ⟨hmark, hlifetime⟩ := List.mem_filter.mp hmem
  obtain ⟨huuid, htype⟩ := Prod.ext_iff.mp hentry
  refine ⟨mark, hmark, huuid, of_decide_eq_true htype, ?_⟩
  unfold isLifetime at hlifetime
  split at hlifetime
  case h_1 hcategory =>
    exact Or.inl ⟨hcategory, (hfree.sockets mark hmark track htrack huuid hcategory).1⟩
  case h_2 hcategory =>
    exact Or.inr ⟨hcategory, (hfree.attempts mark hmark track htrack huuid hcategory).1⟩
  case h_3 => cases hlifetime

theorem Described.uuids_nodup {trail : Trail} (h : Described trail) (hfree : CollisionFree trail) :
    (trail.tracks.map NativeTrack.uuid).Nodup := by
  rw [← h.tracks]
  exact h.nodup hfree.kinds

/-- A move sets the flag of its track, if it is a boundary of a lifetime. -/
theorem TrailMove.level {before after : Trail} {marks : List Mark} {uuid : UInt64}
    (h : TrackLevel before uuid) (hmove : TrailMove before marks after)
    (hdescribed : Described before) (hfree : CollisionFree after) : TrackLevel after uuid := by
  have hbefore := hfree.before (Moves.single hmove)
  have hlog := lifetimeLog_append before.out after.out hmove.marks
  have hnodup := Described.uuids_nodup hdescribed hbefore
  have hquiet (hsilent : marks.filter isLifetime = [])
      (hon : Trail.On after uuid ↔ Trail.On before uuid) : TrackLevel after uuid := by
    unfold TrackLevel
    rw [hlog, hsilent, List.map_nil, List.append_nil]
    exact h.trans hon.symm
  -- a boundary on a track sets its flag, and leaves those of other tracks
  have hset {place : Nat} {track : NativeTrack} {entry : Mark} {written : Trail} {active : Bool}
      (hentry : marks.filter isLifetime = [entry]) (htrack : written.tracks[place]? = some track)
      (hwritten : written.tracks = before.tracks)
      (hafter : after = written.setActive place active)
      (hturn : lifetimeTurn entry = (track.uuid, active)) : TrackLevel after uuid := by
    unfold TrackLevel
    rw [hlog, hentry, List.map_singleton, hturn, hafter, on_setActive (hwritten ▸ hnodup) htrack,
      turnsOf_append]
    by_cases hsame : uuid = track.uuid
    · rw [if_pos hsame, ← hsame, turnsOf_same, level_concat]
    · rw [if_neg hsame, turnsOf_other (Ne.symm hsame), List.append_nil]
      unfold Trail.On
      rw [hwritten]
      exact h
  cases hmove with
  | add object descriptor hparent hnew =>
      -- a new track is off
      refine hquiet rfl ⟨?_, ?_⟩
      · rintro ⟨track, htrack, huuid, hactive⟩
        rcases List.mem_append.mp htrack with hold | hadded
        · exact ⟨track, hold, huuid, hactive⟩
        · rw [List.mem_singleton.mp hadded] at hactive
          cases hactive
      · rintro ⟨track, htrack, huuid, hactive⟩
        exact ⟨track, List.mem_append_left _ htrack, huuid, hactive⟩
  | snapshot | packet | instant => exact hquiet rfl Iff.rfl
  | @slice ts fields htrack htype hcategory | @sliceEnd ts fields hbegun htype hcategory =>
      refine hquiet (List.filter_eq_nil_iff.mpr fun mark hmark => ?_) Iff.rfl
      rw [List.mem_singleton.mp hmark]
      unfold isLifetime
      split
      · exact absurd ‹_› hcategory.1
      · exact absurd ‹_› hcategory.2
      · exact Bool.false_ne_true
  | @begin ts place track category object htrack hlifetime =>
      refine @hset place track ⟨ts, ⟨.sliceBegin, track.uuid, category, object⟩⟩
        (nativeEventWrite before ts ⟨.sliceBegin, track.uuid, category, object⟩) true ?_ htrack rfl
        rfl rfl
      cases hlifetime <;> rfl
  | @finish ts place track category object htrack hactive hcategory =>
      refine @hset place track ⟨ts, ⟨.sliceEnd, track.uuid, category, object⟩⟩
        (nativeEventWrite before ts ⟨.sliceEnd, track.uuid, category, object⟩) false ?_ htrack rfl
        rfl rfl
      rcases hcategory with ⟨rfl, -⟩ | rfl <;> rfl
  | @rest place track htrack hkind hnever =>
      have hmem := List.mem_of_getElem? htrack
      refine hquiet rfl ?_
      rw [on_setActive hnodup htrack false]
      split
      case isFalse => exact Iff.rfl
      case isTrue huuid =>
        -- the track was off before, as nothing was written for it
        subst huuid
        refine iff_of_false (by simp) fun hon => ?_
        obtain ⟨mark, hmark, -, -, ⟨hcategory, -⟩ | ⟨-, hconnect⟩⟩ := h.begun hbefore hmem hon
        · exact hnever mark hmark hcategory
        · rw [hkind] at hconnect
          cases hconnect

/-- The flags follow the lifetimes, where uuids do not collide. The induction is on the moves, which
all reach traces without collisions. -/
theorem moves_level {trail : Trail} {marks : List Mark} (h : TrailMoves Trail.init marks trail)
    (hfree : CollisionFree trail) (uuid : UInt64) : TrackLevel trail uuid := by
  induction h with
  | refl => exact iff_of_false Bool.false_ne_true fun ⟨_, h, _⟩ => by cases h
  | tail hinit hlast ih =>
      exact TrailMove.level (ih (hfree.before (Moves.single hlast))) hlast
        (TrailMoves.described hinit) hfree

/-- Where a track is of an attempt, no attempt begins twice. -/
def OnceAt (trail : Trail) (uuid : UInt64) : Prop :=
  (∃ track ∈ trail.tracks, track.uuid = uuid ∧ track.kind = .connect) → AttemptsOnce trail.out

theorem OnceAt.before {before after : Trail} {uuid : UInt64} (h : OnceAt after uuid)
    {marks : List Mark} (hmoves : TrailMoves before marks after) : OnceAt before uuid := by
  rintro ⟨track, htrack, rfl, hkind⟩
  obtain ⟨later, hlater, hsame⟩ :=
    List.mem_map.mp (hmoves.identities.subset (List.mem_map_of_mem htrack))
  obtain ⟨huuid, -, hsameKind⟩ := Prod.ext_iff.mp hsame |>.imp_right Prod.ext_iff.mp
  exact (h ⟨later, hlater, huuid, hsameKind.trans hkind⟩).before hmoves

theorem TrailMove.alternates {before after : Trail} {marks : List Mark} {uuid : UInt64}
    (h : Alternates (turnsOf (lifetimeLog before.out) uuid)) (hlevel : TrackLevel before uuid)
    (hmove : TrailMove before marks after) (hdescribed : Described before)
    (hfree : CollisionFree after) (honce : OnceAt after uuid) :
    Alternates (turnsOf (lifetimeLog after.out) uuid) := by
  have hbefore := hfree.before (Moves.single hmove)
  have hmarks := hmove.marks
  have hlog := lifetimeLog_append before.out after.out hmarks
  have hnodup := Described.uuids_nodup hdescribed hbefore
  have hquiet (hsilent : marks.filter isLifetime = []) :
      Alternates (turnsOf (lifetimeLog after.out) uuid) := by
    rw [hlog, hsilent, List.map_nil, List.append_nil]
    exact h
  have hturn {track : NativeTrack} {entry : Mark} {turn : Bool} (hmem : track ∈ before.tracks)
      (hentry : marks.filter isLifetime = [entry])
      (hturned : lifetimeTurn entry = (track.uuid, turn))
      (hflag : uuid = track.uuid → track.active ≠ turn) :
      Alternates (turnsOf (lifetimeLog after.out) uuid) := by
    rw [hlog, hentry, List.map_singleton, hturned, turnsOf_append]
    by_cases hsame : uuid = track.uuid
    · -- the level is the flag of the track, which the turn changes
      subst hsame
      rw [turnsOf_same, alternates_concat]
      refine ⟨h, fun heq => hflag rfl (Bool.eq_iff_iff.mpr ?_)⟩
      rw [← heq]
      exact ((on_iff hnodup hmem).symm.trans hlevel.symm)
    · rw [turnsOf_other (Ne.symm hsame), List.append_nil]
      exact h
  cases hmove with
  | add | snapshot | packet | instant | rest => exact hquiet rfl
  | @slice ts fields htrack htype hcategory | @sliceEnd ts fields hbegun htype hcategory =>
      refine hquiet (List.filter_eq_nil_iff.mpr fun mark hmark => ?_)
      rw [List.mem_singleton.mp hmark]
      unfold isLifetime
      split
      · exact absurd ‹_› hcategory.1
      · exact absurd ‹_› hcategory.2
      · exact Bool.false_ne_true
  | @begin ts place track category object htrack hlifetime =>
      have hmem := List.mem_of_getElem? htrack
      refine @hturn track ⟨ts, ⟨.sliceBegin, track.uuid, category, object⟩⟩ true hmem ?_ rfl
        fun hsame hactive => ?_
      · cases hlifetime <;> rfl
      subst hsame
      cases hlifetime with
      | socket hclosed =>
          rw [hclosed] at hactive
          cases hactive
      | connect =>
          have hlater := List.mem_of_getElem? (setActive_same htrack true)
          -- a track that is on has begun an attempt before
          obtain ⟨mark, hmark, huuid, htype, ⟨hcategory, hkind⟩ | ⟨hcategory, hkind⟩⟩ :=
            hlevel.begun hbefore hmem ((on_iff hnodup hmem).mpr hactive)
          · have hnew := hfree.attempts ⟨ts, ⟨.sliceBegin, track.uuid, .connect, object⟩⟩
              (by rw [hmarks]; exact List.mem_append_right _ (List.mem_singleton_self _))
              { track with active := true } hlater rfl rfl
            rw [show ({ track with active := true } : NativeTrack).kind = track.kind from rfl,
              hkind] at hnew
            cases hnew.1
          · have hattempts := honce ⟨_, hlater, rfl, hkind⟩
            unfold AttemptsOnce attemptsBegun at hattempts
            rw [hmarks, List.filter_append, List.map_append] at hattempts
            refine (List.nodup_append.mp hattempts).2.2 track.uuid ?_ track.uuid ?_ rfl
            · exact List.mem_map.mpr ⟨mark, List.mem_filter.mpr ⟨hmark, by
                simp [beginsAttempt, hcategory, htype]⟩, huuid⟩
            · exact List.mem_singleton_self _
  | @finish ts place track category object htrack hactive hcategory =>
      refine @hturn track ⟨ts, ⟨.sliceEnd, track.uuid, category, object⟩⟩ false
        (List.mem_of_getElem? htrack) ?_ rfl fun _ hrested => ?_
      · rcases hcategory with ⟨rfl, -⟩ | rfl <;> rfl
      · rw [hactive] at hrested
        cases hrested

/-- The lifetimes on a track alternate if, on the track of an attempt, none begins twice. -/
theorem moves_alternate {trail : Trail} {marks : List Mark} (h : TrailMoves Trail.init marks trail)
    (hfree : CollisionFree trail) {uuid : UInt64} (honce : OnceAt trail uuid) :
    Alternates (turnsOf (lifetimeLog trail.out) uuid) := by
  induction h with
  | refl => exact alternates_nil
  | tail hinit hlast ih =>
      have hlastMoves := Moves.single hlast
      have hbefore := hfree.before hlastMoves
      exact TrailMove.alternates (ih hbefore (honce.before hlastMoves))
        (moves_level hinit hbefore uuid) hlast (TrailMoves.described hinit) hfree honce

/-- In a finished trace every track alternates, and every slice is closed. -/
theorem finished_alternates {session : CaptureSession} {inputs : List CaptureInput}
    {clock : CloseClock}
    (hfree : CollisionFree (captureClose session (captured session inputs) clock))
    (honce : AttemptsOnce (captureClose session (captured session inputs) clock).out)
    (uuid : UInt64) :
    Alternates
        (turnsOf (lifetimeLog (captureClose session (captured session inputs) clock).out) uuid) ∧
      level (turnsOf (lifetimeLog (captureClose session (captured session inputs) clock).out)
        uuid) =
        false := by
  have hmoves := finished_moves session inputs clock
  have hlevel := moves_level hmoves hfree uuid
  refine ⟨moves_alternate hmoves hfree fun _ => honce, Bool.eq_false_iff.mpr fun hhigh => ?_⟩
  -- a track that is on is of a socket or of an attempt, and the close reset those
  obtain ⟨track, htrack, rfl, hactive⟩ := hlevel.mp hhigh
  obtain ⟨_, -, -, -, hcases⟩ := hlevel.begun hfree htrack ⟨track, htrack, rfl, hactive⟩
  have hclosed := (captured_ends session inputs clock).closed track htrack
    (hcases.imp And.right And.right)
  rw [hactive] at hclosed
  cases hclosed

/-! ## Records of sockets -/

/-- What a record says about the lifetime of its socket: that it was created, or that something
happened to it, at last perhaps. -/
inductive SocketTurn where
  | create (startTs ts : UInt64)
  | note (ts : UInt64) (terminal : Bool)
  deriving DecidableEq, Repr

def socketTurn (session : Session) : CaptureInput → Option (UInt64 × SocketTurn)
  | .event sample extension _ _ =>
      let detail := sample.detail
      let socketId := recordSocketId session.salt detail
      match branch session sample with
      | .lifecycle =>
          if createsSocket session detail then
            some (socketId, .create extension.startTs detail.ts)
          else some (socketId, .note detail.ts (extension.newstate = tcpClose))
      | .socket trace => some (socketId, .note detail.ts (socketTraceTerminal trace))
      | _ => none
  | _ => none

def SocketTurn.marks : SocketTurn → NativeTrack → List Mark
  | .create startTs ts => createMarks startTs ts
  | .note ts terminal => recordMarks ts terminal

theorem touched_event (session : Session) (sample : Sample) (extension : SocketExtension)
    (cpu : Int) (realloc : Realloc) :
    touched session (.event sample extension cpu realloc) =
      if session.traceTags then none
      else (socketTurn session (.event sample extension cpu realloc)).map fun entry =>
        (socketUuid session.salt entry.1, entry.2.marks) := by
  unfold touched socketTurn
  dsimp only
  cases branch session sample with
  | lifecycle =>
      dsimp only
      by_cases hcreates : createsSocket session sample.detail = true
      · rw [if_pos hcreates, if_pos hcreates]
        rfl
      · rw [if_neg hcreates, if_neg hcreates]
        rfl
  | ignored | returned | hidden | io | socket | packet => rfl

/-- Boundaries that a record writes are of the lifetime of a socket. -/
theorem SocketTurn.marks_socket (turn : SocketTurn) (track : NativeTrack) :
    ∀ mark ∈ turn.marks track, mark.event.category = .socket := by
  have hclose (ts : UInt64) : ∀ mark ∈ closeMarks ts track, mark.event.category = .socket := by
    intro mark hmark
    unfold closeMarks at hmark
    split at hmark
    · rw [List.mem_singleton.mp hmark]
      rfl
    · cases hmark
  intro mark hmark
  cases turn with
  | create startTs ts =>
      rcases List.mem_append.mp hmark with hold | hnew
      · exact hclose startTs mark hold
      · rw [List.mem_singleton.mp hnew]
        rfl
  | note ts terminal =>
      cases terminal with
      | true => exact hclose ts mark hmark
      | false =>
          have hopen : mark ∈ openMarks ts track := hmark
          unfold openMarks at hopen
          split at hopen
          · cases hopen
          · rw [List.mem_singleton.mp hopen]
            rfl

/-! ## Attempts -/

/-- The connect attempts that the `CONNECT_EVENT_START` records of a run name, in order. -/
def starts (salt : UInt64) (inputs : List CaptureInput) : List UInt64 :=
  inputs.filterMap fun
    | .connect connect => if connect.kind = .start then some (connect.attemptId salt) else none
    | _ => none

theorem attemptsBegun_lifetimes (out : List Packet) :
    attemptsBegun out = ((marksOf out).filter isLifetime).filter beginsAttempt := by
  unfold attemptsBegun
  rw [List.filter_filter]
  refine List.filter_congr fun mark _ => ?_
  unfold beginsAttempt isLifetime
  cases mark.event.category <;> simp

theorem filter_beginsAttempt {marks : List Mark}
    (h : ∀ mark ∈ marks, mark.event.category = .socket ∨ mark.event.type ≠ .sliceBegin) :
    marks.filter beginsAttempt = [] := by
  refine List.filter_eq_nil_iff.mpr fun mark hmark => ?_
  unfold beginsAttempt
  rcases h mark hmark with hcategory | htype
  · simp [hcategory]
  · simp [htype]

theorem step_attempts {session : Session} {input : CaptureInput} {trail next : Trail}
    {lifetimes : List Mark} (h : Turns (touched session input) trail next lifetimes) :
    (lifetimes.filter beginsAttempt).map (fun mark => mark.event.object) =
      starts session.salt [input] := by
  have hnone (marks : List Mark) (hsockets : ∀ mark ∈ marks, mark.event.category = .socket) :
      (marks.filter beginsAttempt).map (fun mark => mark.event.object) = [] := by
    rw [filter_beginsAttempt fun mark hmark => Or.inl (hsockets mark hmark)]
    rfl
  cases input with
  | connect connect =>
      obtain ⟨_, track, _, _, -, -, -, -, -, -, rfl⟩ := h
      unfold connectMarks starts
      by_cases hstart : connect.kind = .start
      · simp [hstart, beginsAttempt]
      · -- any other record ends an attempt, or leaves it
        by_cases hends : connect.terminal ∧ track.active
        · simp [hstart, hends, beginsAttempt]
        · simp [hstart, hends]
  | event sample extension cpu realloc =>
      rw [touched_event] at h
      split at h
      case isTrue =>
        rw [show lifetimes = [] from h]
        rfl
      case isFalse =>
        cases hturn : socketTurn session (.event sample extension cpu realloc) with
        | none =>
            rw [hturn] at h
            rw [show lifetimes = [] from h]
            rfl
        | some entry =>
            rw [hturn] at h
            obtain ⟨_, track, _, _, -, -, -, -, -, -, rfl⟩ := h
            exact hnone _ (entry.2.marks_socket track)
  | clock | ret | syscall | handoff | lost | queueLost | markCaptureEnd | tick =>
      rw [show lifetimes = [] from h]
      rfl

theorem captured_attempts (session : CaptureSession) (inputs : List CaptureInput) :
    (attemptsBegun (captured session inputs).native.out).map (fun mark => mark.event.object) =
      starts session.salt inputs := by
  induction inputs using List.reverseRecOn with
  | nil => rfl
  | append_singleton history input ih =>
      obtain ⟨lifetimes, hadvances, hturns, -⟩ := (captured_coupled session history).step input
      obtain ⟨marks, hmoves, hlifetimes⟩ := hadvances.moves
      have hstep := step_attempts hturns
      rw [captured_concat]
      show (attemptsBegun (nativeStep session _ _ input).out).map _ = _
      have hstarts : starts session.salt (history ++ [input]) =
          starts session.salt history ++ starts session.salt [input] := List.filterMap_append
      rw [attemptsBegun_lifetimes] at ih ⊢
      rw [hmoves.marks, List.filter_append, List.filter_append, List.map_append, ih, hlifetimes,
        hstep, hstarts]

theorem finished_attempts (session : CaptureSession) (inputs : List CaptureInput)
    (clock : CloseClock) :
    (attemptsBegun (captureClose session (captured session inputs) clock).out).map
        (fun mark => mark.event.object) = starts session.salt inputs := by
  have hlast : ∀ mark ∈ lastMarks session.toSession
      (closeTime (captured session inputs).state clock.now)
      (closeFound session (captured session inputs) clock).tracks,
      mark.event.category = .socket ∨ mark.event.type ≠ .sliceBegin := by
    intro mark hmark
    rcases List.mem_append.mp hmark with hsocket | hattempt
    · obtain ⟨track, -, hmark⟩ := List.mem_flatMap.mp hsocket
      unfold closeSocketMarks at hmark
      split at hmark
      · exact Or.inl ((SocketTurn.note _ true).marks_socket track mark hmark)
      · cases hmark
    · obtain ⟨track, -, hmark⟩ := List.mem_flatMap.mp hattempt
      unfold closeAttemptMarks at hmark
      split at hmark
      · rw [List.mem_singleton.mp hmark]
        exact Or.inr EventType.noConfusion
      · cases hmark
  rw [attemptsBegun_lifetimes, finished_lifetimes, List.filter_append, filter_beginsAttempt hlast,
    List.append_nil, ← attemptsBegun_lifetimes, captured_attempts]

/-- Where no attempt starts twice, none begins twice on a track. -/
theorem attemptsOnce_of_starts {session : CaptureSession} {inputs : List CaptureInput}
    {clock : CloseClock}
    (hfree : CollisionFree (captureClose session (captured session inputs) clock))
    (h : (starts session.salt inputs).Nodup) :
    AttemptsOnce (captureClose session (captured session inputs) clock).out := by
  rw [← finished_attempts session inputs clock] at h
  have hdescribed := (finished_moves session inputs clock).described
  refine List.Nodup.map_on (fun first hfirst second hsecond htrack => ?_) (List.Nodup.of_map _ h)
  refine List.inj_on_of_nodup_map h hfirst hsecond ?_
  obtain ⟨hfirstMark, hfirstBegins⟩ := List.mem_filter.mp hfirst
  obtain ⟨hsecondMark, hsecondBegins⟩ := List.mem_filter.mp hsecond
  unfold beginsAttempt at hfirstBegins hsecondBegins
  simp only [Bool.and_eq_true, decide_eq_true_eq] at hfirstBegins hsecondBegins
  -- both attempts are the one that their track was made for
  obtain ⟨track, hmem, huuid⟩ := hdescribed.hasTrack hfirstMark
  obtain ⟨-, hfirstObject⟩ := hfree.attempts first hfirstMark track hmem huuid.symm hfirstBegins.1
  obtain ⟨-, hsecondObject⟩ := hfree.attempts second hsecondMark track hmem
    (htrack.symm.trans huuid.symm) hsecondBegins.1
  exact hfirstObject.symm.trans hsecondObject

end Anettrace.Capture
