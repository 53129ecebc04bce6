import Anettrace.Native.Calls

/-!
# Sockets and connect attempts in the native trace

The native halves of the functions of `src/perfetto_export.c` on socket records, connect diagnostics
and receive handoffs, and the metadata. The lifetime of a socket and a connect attempt are slices
that the `active` flag of their track stands for: a socket is opened by its first record and closed
by a terminal one, and an attempt is opened by its start.
-/

namespace Anettrace.Native

open Anettrace.Export Library.Labelled Library.Table

variable {told : UInt64 → UInt64 → Prop}

/-! ## Sockets -/

/-- The categories that are written `anettrace.socket`. -/
def Category.isSocket : Category → Bool
  | .socket | .allocation | .socketEvent => true
  | _ => false

def nativeSlice (session : Session) (trail : Trail) (ts : UInt64) (fields : TrackEvent) : Trail :=
  if session.traceTags ∧ fields.category.isSocket then trail
  else nativeEventWrite trail ts fields

def nativeCloseSocket (session : Session) (trail : Trail) (ts : UInt64) (place : Nat) : Trail :=
  match trail.tracks[place]? with
  | none => trail
  | some track =>
      if !track.active then trail
      else
        (nativeSlice session trail ts ⟨.sliceEnd, track.uuid, .socket, track.object⟩).setActive
          place false

def nativeOpenSocket (session : Session) (trail : Trail) (ts : UInt64) (place : Nat) : Trail :=
  match trail.tracks[place]? with
  | none => trail
  | some track =>
      if track.active then trail
      else
        (nativeSlice session trail ts ⟨.sliceBegin, track.uuid, .socket, track.object⟩).setActive
          place true

def recordSocketId (salt : UInt64) (detail : DetailEvent) : UInt64 :=
  socketInstanceId salt detail.key detail.keyGeneration

/-- The slice of the allocation of a socket, or its end. -/
def allocationSlice (salt : UInt64) (detail : DetailEvent) (type : EventType) : TrackEvent :=
  ⟨type, threadUuid salt detail.tgid detail.tid, .allocation, recordSocketId salt detail⟩

def nativeExportSocketCreate (session : Session) (trail : Trail) (detail : DetailEvent)
    (startTs : UInt64) : Trail :=
  let salt := session.salt
  let (trail, _) := nativeThreadTrack salt trail detail.tgid detail.tid detail.task
  if session.traceTags then
    let trail := nativeEventWrite trail startTs (allocationSlice salt detail .sliceBegin)
    nativeEventWrite trail detail.ts (allocationSlice salt detail .sliceEnd)
  else
    let (trail, socket) :=
      nativeSocketTrack salt trail (recordSocketId salt detail) detail.tgid detail.task
    let trail := nativeEventWrite trail startTs (allocationSlice salt detail .sliceBegin)
    let trail := nativeSlice session trail detail.ts (allocationSlice salt detail .sliceEnd)
    -- The test before this call is repeated in it.
    let trail := nativeCloseSocket session trail startTs socket
    nativeOpenSocket session trail detail.ts socket

def recordSocketTrack (salt : UInt64) (trail : Trail) (detail : DetailEvent) : Trail × Nat :=
  nativeSocketTrack salt trail (recordSocketId salt detail)
    (if detail.ownerValid ≠ 0 then detail.ownerTgid else 0)
    (if detail.ownerValid ≠ 0 ∧ detail.ownerTgid = detail.tgid then detail.task else [])

/-- What state and event records share: the socket is opened before the record is shown, and closed
after a terminal one. -/
def nativeSocketRecord (session : Session) (trail : Trail) (ts : UInt64) (socket : Nat)
    (terminal : Bool) (fields : TrackEvent) : Trail :=
  let trail := if terminal then trail else nativeOpenSocket session trail ts socket
  let trail := nativeEventWrite trail ts fields
  if terminal then nativeCloseSocket session trail ts socket else trail

def tcpClose : Int := 7

def nativeExportSocketState (session : Session) (trail : Trail) (detail : DetailEvent)
    (newstate : Int) : Trail :=
  if session.traceTags then trail
  else
    let (trail, socket) := recordSocketTrack session.salt trail detail
    let socketId := recordSocketId session.salt detail
    nativeSocketRecord session trail detail.ts socket (newstate = tcpClose)
      ⟨.instant, socketUuid session.salt socketId, .socketState, socketId⟩

def nativeExportSocketEvent (session : Session) (trail : Trail) (detail : DetailEvent)
    (trace : Anettrace.Trace) : Trail :=
  if session.traceTags then trail
  else
    let (trail, _) := nativeThreadTrack session.salt trail detail.tgid detail.tid detail.task
    let (trail, socket) := recordSocketTrack session.salt trail detail
    nativeSocketRecord session trail detail.ts socket (socketTraceTerminal trace)
      ⟨.instant, threadUuid session.salt detail.tgid detail.tid, .socketEvent,
        recordSocketId session.salt detail⟩

/-! ## Connect attempts -/

/-- `enum connect_event_kind`; `other` stands for any other value. -/
inductive ConnectKind where
  | start | socket | result | soError | cancel | other
  deriving DecidableEq, Repr, Inhabited

/-- `connect_event_t`, less what only names and annotations of its event show. -/
structure ConnectEvent where
  kind : ConnectKind
  flags : UInt32
  ts : UInt64
  attemptKey : UInt64
  socketKey : UInt64
  socketGeneration : UInt32
  result : Int64
  tid : UInt32
  tgid : UInt32
  task : List UInt8
  deriving DecidableEq, Repr, Inhabited

def ConnectEvent.attemptId (salt : UInt64) (connect : ConnectEvent) : UInt64 :=
  objectId salt "connect" connect.attemptKey

def ConnectEvent.asyncPending (connect : ConnectEvent) : Bool :=
  connect.flags &&& 1 ≠ 0

def eInProgress : Int64 := 115

def eAlready : Int64 := 114

def ConnectEvent.terminal (connect : ConnectEvent) : Bool :=
  match connect.kind with
  | .result => !connect.asyncPending
  | .soError => connect.result ≠ eInProgress && connect.result ≠ eAlready
  | .cancel => true
  | .start | .socket | .other => false

/-- The end of the slice of a connect attempt, in `native_export_connect_event`. -/
def nativeCloseConnect (session : Session) (trail : Trail) (ts : UInt64) (place : Nat)
    (attemptId : UInt64) : Trail :=
  match trail.tracks[place]? with
  | none => trail
  | some track =>
      if !track.active then trail
      else
        (nativeSlice session trail ts ⟨.sliceEnd, track.uuid, .connect, attemptId⟩).setActive
          place false

def nativeExportConnectEvent (session : Session) (trail : Trail) (connect : ConnectEvent) :
    Trail :=
  let attemptId := connect.attemptId session.salt
  let uuid := connectUuid session.salt attemptId
  let (trail, place) :=
    nativeConnectTrack session.salt trail attemptId connect.tgid connect.tid connect.task
  if connect.kind = .start then
    (nativeEventWrite trail connect.ts ⟨.sliceBegin, uuid, .connect, attemptId⟩).setActive place
      true
  else
    let trail := nativeEventWrite trail connect.ts ⟨.instant, uuid, .connect, attemptId⟩
    if connect.terminal then nativeCloseConnect session trail connect.ts place attemptId else trail

/-! ## Handoffs and metadata -/

/-- `rx_handoff_event_t`, less what only names and annotations of its event show; `ready` tells
whether its kind is `RX_HANDOFF_READY`. -/
structure RxHandoff where
  ready : Bool
  ts : UInt64
  socketKey : UInt64
  tid : UInt32
  tgid : UInt32
  task : List UInt8
  deriving DecidableEq, Repr, Inhabited

/-- The test before `export_rx_handoff` writes anything. -/
def RxHandoff.shown (ready : RxHandoff) : Bool :=
  ready.ready && ready.socketKey ≠ 0

def nativeExportRxHandoff (session : Session) (trail : Trail) (ready : RxHandoff) : Trail :=
  if !ready.shown ∨ session.traceTags then trail
  else
    nativeEventWrite
      (nativeThreadTrack session.salt trail ready.tgid ready.tid ready.task).1 ready.ts
      ⟨.instant, threadUuid session.salt ready.tgid ready.tid, .rxHandoff,
        nativeUuid session.salt "rx-ready" (threadWord ready.tgid ready.tid) ready.ts⟩

/-- `native_export_meta`, and the events of `export_probe_status` and `perfetto_export_close` on the
global track. -/
def nativeExportMeta (session : Session) (trail : Trail) (ts : UInt64) : Trail :=
  nativeEventWrite (nativeGlobalTrack session.salt trail).1 ts
    ⟨.instant, globalUuid session.salt, .metadata, 0⟩

/-! ## What is opened and closed -/

/-- A boundary of the lifetime of the socket of a track. -/
def NativeTrack.lifetime (track : NativeTrack) (ts : UInt64) (type : EventType) : Mark :=
  ⟨ts, ⟨type, track.uuid, .socket, track.object⟩⟩

/-- The boundaries that `native_open_socket` writes. -/
def openMarks (ts : UInt64) (track : NativeTrack) : List Mark :=
  if track.active then [] else [track.lifetime ts .sliceBegin]

/-- The boundaries that `native_close_socket` writes. -/
def closeMarks (ts : UInt64) (track : NativeTrack) : List Mark :=
  if track.active then [track.lifetime ts .sliceEnd] else []

/-- The boundaries of lifetimes at the creation of a socket. -/
def createMarks (startTs ts : UInt64) (track : NativeTrack) : List Mark :=
  closeMarks startTs track ++ [track.lifetime ts .sliceBegin]

/-- The boundaries of lifetimes at any other socket record. -/
def recordMarks (ts : UInt64) (terminal : Bool) (track : NativeTrack) : List Mark :=
  if terminal then closeMarks ts track else openMarks ts track

/-- The boundaries of attempts at a connect record. -/
def connectMarks (salt : UInt64) (connect : ConnectEvent) (track : NativeTrack) : List Mark :=
  let attemptId := connect.attemptId salt
  if connect.kind = .start then [⟨connect.ts, ⟨.sliceBegin, track.uuid, .connect, attemptId⟩⟩]
  else if connect.terminal ∧ track.active then
    [⟨connect.ts, ⟨.sliceEnd, track.uuid, .connect, attemptId⟩⟩]
  else []

/-- A function that makes sure of a track and then begins and ends lasting slices according to its
flag. -/
def Touches (told : UInt64 → UInt64 → Prop) (uuid : UInt64)
    (lifetimes : NativeTrack → List Mark) (trail next : Trail) : Prop :=
  ∃ found track marks, TrailMoves trail [] found ∧ track ∈ found.tracks ∧ track.uuid = uuid ∧
    TrailMoves found marks next ∧ marks.filter Mark.isLasting = lifetimes track ∧
      Paired told (marks.filter Mark.isBrief)

@[simp] theorem setActive_same {trail : Trail} {place : Nat} {track : NativeTrack}
    (h : trail.tracks[place]? = some track) (active : Bool) :
    (trail.setActive place active).tracks[place]? = some { track with active := active } := by
  show (trail.tracks.modify place _)[place]? = _
  rw [List.getElem?_modify_eq, h]
  rfl

section

variable {session : Session} (htags : session.traceTags = false) {trail : Trail} {place : Nat}
  {track : NativeTrack} (htrack : trail.tracks[place]? = some track) (ts : UInt64)
include htags htrack

theorem nativeOpenSocket_moves :
    TrailMoves trail (openMarks ts track) (nativeOpenSocket session trail ts place) := by
  unfold nativeOpenSocket openMarks
  rw [htrack]
  dsimp only
  cases hactive : track.active with
  | true => exact Moves.refl _
  | false =>
      have hslice (fields : TrackEvent) :
          nativeSlice session trail ts fields = nativeEventWrite trail ts fields :=
        if_neg (by simp [htags])
      rw [if_neg Bool.false_ne_true, if_neg Bool.false_ne_true, hslice]
      exact Moves.single (.begin ts htrack (.socket hactive))

theorem nativeCloseSocket_moves :
    TrailMoves trail (closeMarks ts track) (nativeCloseSocket session trail ts place) := by
  unfold nativeCloseSocket closeMarks
  rw [htrack]
  dsimp only
  cases hactive : track.active with
  | false => exact Moves.refl _
  | true =>
      have hslice (fields : TrackEvent) :
          nativeSlice session trail ts fields = nativeEventWrite trail ts fields :=
        if_neg (by simp [htags])
      rw [if_pos rfl, if_neg (by simp), hslice]
      exact Moves.single (.finish ts htrack hactive (Or.inl ⟨rfl, rfl⟩))

end

theorem nativeCloseSocket_track {session : Session} {trail : Trail} {place : Nat}
    {track : NativeTrack} (htrack : trail.tracks[place]? = some track) (ts : UInt64) :
    (nativeCloseSocket session trail ts place).tracks[place]? =
      some { track with active := false } := by
  unfold nativeCloseSocket
  rw [htrack]
  dsimp only
  cases hactive : track.active with
  | false =>
      rw [if_pos (by simp), htrack, ← hactive]
  | true =>
      rw [if_neg (by simp)]
      refine setActive_same ?_ false
      unfold nativeSlice
      split <;> exact htrack

theorem nativeSocketRecord_moves {session : Session} (htags : session.traceTags = false)
    {trail : Trail} {place : Nat} {track : NativeTrack} (htrack : trail.tracks[place]? = some track)
    (ts : UInt64) (terminal : Bool) {fields : TrackEvent} (hfields : trail.HasTrack fields.track)
    (htype : fields.type = .instant) :
    TrailMoves trail (recordMarks ts terminal track)
      (nativeSocketRecord session trail ts place terminal fields) := by
  unfold nativeSocketRecord recordMarks
  cases terminal with
  | true =>
      -- the instant comes first
      have hinstant : TrailMoves trail _ _ := Moves.single (.instant ts hfields htype)
      have hclose : TrailMoves (nativeEventWrite trail ts fields) _ _ :=
        nativeCloseSocket_moves htags
          (show (nativeEventWrite trail ts fields).tracks[place]? = some track from htrack) ts
      exact hinstant.silent_then hclose
  | false =>
      have hopen := nativeOpenSocket_moves htags htrack ts
      have hinstant : TrailMoves _ _ _ := Moves.single (.instant ts (hopen.hasTrack hfields) htype)
      exact hopen.then_silent hinstant

theorem lifetimes_lasting (ts startTs : UInt64) (terminal : Bool) (track : NativeTrack) :
    (recordMarks ts terminal track).filter Mark.isLasting = recordMarks ts terminal track ∧
      (createMarks startTs ts track).filter Mark.isLasting = createMarks startTs ts track := by
  have hopen : (openMarks ts track).filter Mark.isLasting = openMarks ts track := by
    unfold openMarks
    split <;> rfl
  have hclose (at_ : UInt64) :
      (closeMarks at_ track).filter Mark.isLasting = closeMarks at_ track := by
    unfold closeMarks
    split <;> rfl
  refine ⟨?_, ?_⟩
  · unfold recordMarks
    cases terminal with
    | true => exact hclose ts
    | false => exact hopen
  · unfold createMarks
    rw [List.filter_append, hclose]
    rfl

/-! ## Socket records -/

theorem recordSocketTrack_created (salt : UInt64) (trail : Trail) (detail : DetailEvent) :
    Created trail (recordSocketTrack salt trail detail)
      (socketUuid salt (recordSocketId salt detail)) [.socket, .process] :=
  nativeSocketTrack_created salt trail _ _ _

theorem nativeExportSocketState_touches {session : Session} (htags : session.traceTags = false)
    (trail : Trail) (detail : DetailEvent) (newstate : Int) :
    Touches told (socketUuid session.salt (recordSocketId session.salt detail))
      (recordMarks detail.ts (newstate = tcpClose)) trail
      (nativeExportSocketState session trail detail newstate) := by
  have hcreated := recordSocketTrack_created session.salt trail detail
  obtain ⟨track, hplace, huuid⟩ := hcreated.place
  unfold nativeExportSocketState
  rw [if_neg (by simp [htags])]
  have hmoves := @nativeSocketRecord_moves session htags _ _ _ hplace detail.ts
    (newstate = tcpClose) ⟨.instant, socketUuid session.salt (recordSocketId session.salt detail),
      .socketState, recordSocketId session.salt detail⟩ hcreated.hasTrack rfl
  have hlasting := (lifetimes_lasting detail.ts 0 (newstate = tcpClose) track).1
  exact ⟨_, track, _, hcreated.creates.moves, List.mem_of_getElem? hplace, huuid, hmoves, hlasting,
    paired_lasting hlasting told⟩

theorem nativeExportSocketEvent_touches {session : Session} (htags : session.traceTags = false)
    (trail : Trail) (detail : DetailEvent) (trace : Anettrace.Trace) :
    Touches told (socketUuid session.salt (recordSocketId session.salt detail))
      (recordMarks detail.ts (socketTraceTerminal trace)) trail
      (nativeExportSocketEvent session trail detail trace) := by
  have hthread := nativeThreadTrack_created session.salt trail detail.tgid detail.tid detail.task
  have hfound := hthread.creates.moves
  have hfields := hthread.hasTrack
  unfold nativeExportSocketEvent
  rw [if_neg (by simp [htags])]
  dsimp only
  generalize (nativeThreadTrack session.salt trail detail.tgid detail.tid detail.task).1 =
    threaded at *
  have hcreated := recordSocketTrack_created session.salt threaded detail
  obtain ⟨track, hplace, huuid⟩ := hcreated.place
  have hsocket := hcreated.creates.moves
  have hmoves := @nativeSocketRecord_moves session htags _ _ _ hplace detail.ts
    (socketTraceTerminal trace) ⟨.instant, threadUuid session.salt detail.tgid detail.tid,
      .socketEvent, recordSocketId session.salt detail⟩ (hsocket.hasTrack hfields) rfl
  have hlasting := (lifetimes_lasting detail.ts 0 (socketTraceTerminal trace) track).1
  exact ⟨_, track, _, hfound.silent_then hsocket, List.mem_of_getElem? hplace, huuid, hmoves,
    hlasting, paired_lasting hlasting told⟩

theorem allocation_moves {salt : UInt64} {trail : Trail} {detail : DetailEvent}
    (hthread : trail.HasTrack (threadUuid salt detail.tgid detail.tid)) (startTs ts : UInt64) :
    TrailMoves trail
      [⟨startTs, allocationSlice salt detail .sliceBegin⟩,
        ⟨ts, allocationSlice salt detail .sliceEnd⟩]
      (nativeEventWrite (nativeEventWrite trail startTs (allocationSlice salt detail .sliceBegin))
        ts (allocationSlice salt detail .sliceEnd)) := by
  have hcategory : Category.allocation ≠ .socket ∧ Category.allocation ≠ .connect :=
    ⟨Category.noConfusion, Category.noConfusion⟩
  have hslice : TrailMoves trail _ _ := Moves.single
    (@TrailMove.slice trail startTs (allocationSlice salt detail .sliceBegin) hthread rfl hcategory)
  have hend : TrailMoves _ _ _ := Moves.single
    (@TrailMove.sliceEnd _ ts (allocationSlice salt detail .sliceEnd)
      ⟨startTs, hslice.begins (hslice.hasTrack hthread)⟩ rfl hcategory)
  exact hslice.trans hend

theorem allocation_paired (salt : UInt64) (detail : DetailEvent) {startTs : UInt64}
    (htold : told startTs detail.ts) :
    Paired told
      [⟨startTs, allocationSlice salt detail .sliceBegin⟩,
        ⟨detail.ts, allocationSlice salt detail .sliceEnd⟩] :=
  @Paired.pair _ startTs detail.ts (allocationSlice salt detail .sliceEnd) [] htold rfl .nil

theorem nativeExportSocketCreate_passing {session : Session} (htags : session.traceTags = true)
    (trail : Trail) (detail : DetailEvent) {startTs : UInt64} (htold : told startTs detail.ts) :
    Passing told trail (nativeExportSocketCreate session trail detail startTs) := by
  have hthread := nativeThreadTrack_created session.salt trail detail.tgid detail.tid detail.task
  unfold nativeExportSocketCreate
  dsimp only
  rw [if_pos htags]
  have hmoves := hthread.creates.moves.silent_then
    (@allocation_moves session.salt _ detail hthread.hasTrack startTs detail.ts)
  exact ⟨_, hmoves, rfl, allocation_paired session.salt detail htold⟩

/-- The creation of a socket closes its previous lifetime and opens the next. -/
theorem nativeExportSocketCreate_touches {session : Session} (htags : session.traceTags = false)
    (trail : Trail) (detail : DetailEvent) {startTs : UInt64} (htold : told startTs detail.ts) :
    Touches told (socketUuid session.salt (recordSocketId session.salt detail))
      (createMarks startTs detail.ts) trail
      (nativeExportSocketCreate session trail detail startTs) := by
  have hthread := nativeThreadTrack_created session.salt trail detail.tgid detail.tid detail.task
  have hfound := hthread.creates.moves
  have hfields := hthread.hasTrack
  unfold nativeExportSocketCreate
  dsimp only
  rw [if_neg (by simp [htags])]
  generalize (nativeThreadTrack session.salt trail detail.tgid detail.tid detail.task).1 =
    threaded at *
  have hcreated := nativeSocketTrack_created session.salt threaded
    (recordSocketId session.salt detail) detail.tgid detail.task
  obtain ⟨track, hplace, huuid⟩ := hcreated.place
  have hsocket := hcreated.creates.moves
  generalize nativeSocketTrack session.salt threaded (recordSocketId session.salt detail)
    detail.tgid detail.task = found at *
  obtain ⟨found, place⟩ := found
  dsimp only at *
  have hslice : nativeSlice session
      (nativeEventWrite found startTs (allocationSlice session.salt detail .sliceBegin)) detail.ts
      (allocationSlice session.salt detail .sliceEnd) =
      nativeEventWrite
        (nativeEventWrite found startTs (allocationSlice session.salt detail .sliceBegin)) detail.ts
        (allocationSlice session.salt detail .sliceEnd) := if_neg (by simp [htags])
  rw [hslice]
  have hallocation := @allocation_moves session.salt found detail (hsocket.hasTrack hfields) startTs
    detail.ts
  have hwritten : (nativeEventWrite
      (nativeEventWrite found startTs (allocationSlice session.salt detail .sliceBegin)) detail.ts
      (allocationSlice session.salt detail .sliceEnd)).tracks[place]? = some track := hplace
  generalize nativeEventWrite
    (nativeEventWrite found startTs (allocationSlice session.salt detail .sliceBegin)) detail.ts
    (allocationSlice session.salt detail .sliceEnd) = written at *
  have hclose := nativeCloseSocket_moves htags hwritten startTs
  have hclosed := @nativeCloseSocket_track session _ _ _ hwritten startTs
  have hopen := nativeOpenSocket_moves htags hclosed detail.ts
  have hmarks : openMarks detail.ts { track with active := false } =
      [track.lifetime detail.ts .sliceBegin] := if_neg Bool.false_ne_true
  rw [hmarks] at hopen
  refine ⟨found, track, _, hfound.silent_then hsocket, List.mem_of_getElem? hplace, huuid,
    hallocation.trans (hclose.trans hopen), ?_, ?_⟩
  · rw [List.filter_append]
    exact (lifetimes_lasting detail.ts startTs true track).2
  · rw [List.filter_append]
    exact (allocation_paired session.salt detail htold).append
      (paired_lasting (lifetimes_lasting detail.ts startTs true track).2 _)

/-! ## Connect records -/

theorem nativeCloseConnect_moves (session : Session) {trail : Trail} {place : Nat}
    {track : NativeTrack} (htrack : trail.tracks[place]? = some track) (ts attemptId : UInt64) :
    TrailMoves trail
      (if track.active then [⟨ts, ⟨.sliceEnd, track.uuid, .connect, attemptId⟩⟩] else [])
      (nativeCloseConnect session trail ts place attemptId) := by
  unfold nativeCloseConnect
  rw [htrack]
  dsimp only
  cases hactive : track.active with
  | false => exact Moves.refl _
  | true =>
      -- only the slices of sockets are left out in tags mode
      have hslice : nativeSlice session trail ts ⟨.sliceEnd, track.uuid, .connect, attemptId⟩ =
          nativeEventWrite trail ts ⟨.sliceEnd, track.uuid, .connect, attemptId⟩ :=
        if_neg (by simp [Category.isSocket])
      rw [if_pos rfl, if_neg (by simp), hslice]
      exact Moves.single (.finish ts htrack hactive (Or.inr rfl))

theorem nativeExportConnectEvent_touches (session : Session) (trail : Trail)
    (connect : ConnectEvent) :
    Touches told (connectUuid session.salt (connect.attemptId session.salt))
      (connectMarks session.salt connect) trail
      (nativeExportConnectEvent session trail connect) := by
  have hcreated := nativeConnectTrack_created session.salt trail (connect.attemptId session.salt)
    connect.tgid connect.tid connect.task
  obtain ⟨track, hplace, huuid⟩ := hcreated.place
  have hfound := hcreated.creates.moves
  have htrack := hcreated.hasTrack
  unfold nativeExportConnectEvent
  dsimp only
  generalize nativeConnectTrack session.salt trail (connect.attemptId session.salt) connect.tgid
    connect.tid connect.task = found at *
  obtain ⟨found, place⟩ := found
  dsimp only at *
  rw [← huuid] at htrack ⊢
  by_cases hstart : connect.kind = .start
  · rw [if_pos hstart]
    have hbegin : TrailMoves found _ _ := Moves.single
      (.begin connect.ts hplace (.connect (connect.attemptId session.salt)))
    have hlasting : (connectMarks session.salt connect track).filter Mark.isLasting =
        connectMarks session.salt connect track := by
      unfold connectMarks
      rw [if_pos hstart]
      rfl
    have hmarks : connectMarks session.salt connect track =
        [⟨connect.ts, ⟨.sliceBegin, track.uuid, .connect, connect.attemptId session.salt⟩⟩] :=
      if_pos hstart
    rw [← hmarks] at hbegin
    exact ⟨found, track, _, hfound, List.mem_of_getElem? hplace, rfl, hbegin, hlasting,
      paired_lasting hlasting told⟩
  · rw [if_neg hstart]
    have hinstant : TrailMoves found _ _ := Moves.single (@TrailMove.instant _ connect.ts
      ⟨.instant, track.uuid, .connect, connect.attemptId session.salt⟩ htrack rfl)
    have hwritten : (nativeEventWrite found connect.ts
        ⟨.instant, track.uuid, .connect, connect.attemptId session.salt⟩).tracks[place]? =
        some track := hplace
    have hclose := nativeCloseConnect_moves session hwritten connect.ts
      (connect.attemptId session.salt)
    generalize nativeEventWrite found connect.ts
      ⟨.instant, track.uuid, .connect, connect.attemptId session.salt⟩ = written at *
    have hmoves : TrailMoves written (connectMarks session.salt connect track)
        (if connect.terminal then nativeCloseConnect session written connect.ts place
          (connect.attemptId session.salt) else written) := by
      unfold connectMarks
      rw [if_neg hstart]
      cases connect.terminal with
      | false => exact Moves.refl _
      | true => simpa using hclose
    have hlasting : (connectMarks session.salt connect track).filter Mark.isLasting =
        connectMarks session.salt connect track := by
      unfold connectMarks
      rw [if_neg hstart]
      split <;> rfl
    exact ⟨found, track, _, hfound, List.mem_of_getElem? hplace, rfl, hinstant.silent_then hmoves,
      hlasting, paired_lasting hlasting told⟩

/-! ## Handoffs, metadata -/

theorem nativeExportRxHandoff_passing (session : Session) (trail : Trail) (ready : RxHandoff) :
    Passing told trail (nativeExportRxHandoff session trail ready) := by
  unfold nativeExportRxHandoff
  split
  · exact Passing.refl trail
  · have hcreated := nativeThreadTrack_created session.salt trail ready.tgid ready.tid ready.task
    exact Passing.quiet (@Created.instant _ _ _ ⟨.instant,
      threadUuid session.salt ready.tgid ready.tid, .rxHandoff,
      nativeUuid session.salt "rx-ready" (threadWord ready.tgid ready.tid) ready.ts⟩ hcreated
      ready.ts rfl)

theorem nativeExportMeta_moves (session : Session) (trail : Trail) (ts : UInt64) :
    TrailMoves trail [] (nativeExportMeta session trail ts) := by
  have hcreated := nativeGlobalTrack_created session.salt trail
  exact @Created.instant _ _ _ ⟨.instant, globalUuid session.salt, .metadata, 0⟩ hcreated ts rfl

end Anettrace.Native
