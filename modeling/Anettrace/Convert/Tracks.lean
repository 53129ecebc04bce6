import Anettrace.Convert.Exporter
import Anettrace.Library.Run

/-!
# Tracks and slices of the whole converter

What holds of the packets while records are exported. Every packet fits to those before it: a track
is described once, below a track that is described, and an event is on a track that is described and
not before the first clock snapshot. The slices that are open on a track are those that the books of
the exporter know, unless a flow or an attempt has the track.
-/

namespace Anettrace.Convert

open Library Library.Command PerfettoExporter

/-! ## Traces -/

def describedTracks (packets : List Packet) : List Nat :=
  packets.filterMap fun
    | .track _ uuid _ => some uuid
    | .clock _ _ _ | .event _ _ => none

/-- The monotonic times of the clock snapshots. -/
def clockTimes (packets : List Packet) : List Int :=
  packets.filterMap fun
    | .clock _ monotonicNs _ => some monotonicNs
    | .track _ _ _ | .event _ _ => none

def Packet.sequenced : Packet → Bool
  | .clock _ _ _ => false
  | .track _ _ _ | .event _ _ => true

/-- Which track is below which. -/
inductive Under (setup : Setup) : UuidKey → Option UuidKey → Prop where
  | global : Under setup .global none
  | process (tgid : Int) : Under setup (.process tgid) none
  | thread (tgid tid : Int) : Under setup (.thread tgid tid) (some (.process tgid))
  | socket {socket : Int} (howner : setup.evidence.socketOwners socket = none) :
      Under setup (.socket socket) none
  | owned {socket tgid : Int} {task : String}
      (howner : setup.evidence.socketOwners socket = some (tgid, task)) :
      Under setup (.socket socket) (some (.process tgid))
  | packets {socket parent : Int} (way : Way)
      (hhex : setup.python.hex (hexText socket) = some parent) :
      Under setup (.socketPackets socket way) (some (.socket parent))
  | flowProcess (flowId : String) (tgid : Int) : Under setup (.flow flowId) (some (.process tgid))
  | flowSocket (flowId : String) (socket : Int) : Under setup (.flow flowId) (some (.socket socket))
  | connect (attemptId : String) (tgid tid : Int) : Under setup (.connect attemptId)
      (some (.thread tgid tid))
  | calls (tgid tid : Int) : Under setup (.networkSyscalls tgid tid) (some (.thread tgid tid))

/-- The id of a parent. -/
def parentUuid (python : Python) (parent : Option UuidKey) : Nat :=
  (parent.map python.stableUuid).getD 0

def Fits (setup : Setup) (before : List Packet) : Packet → Prop
  | .clock _ monotonicNs _ =>
      (∀ packet ∈ before, packet.sequenced = false) ∧
        ∀ last ∈ (clockTimes before).getLast?, last < monotonicNs
  | .track clears uuid parent =>
      clears = !before.any Packet.sequenced ∧ uuid ∉ describedTracks before ∧
        ∃ key above, Under setup key above ∧ uuid = setup.python.stableUuid key ∧
          parent = parentUuid setup.python above ∧ ∀ key ∈ above, setup.python.stableUuid key ∈
            describedTracks before
  | .event clears event =>
      clears = !before.any Packet.sequenced ∧ event.trackUuid ∈ describedTracks before ∧
        ∃ first ∈ (clockTimes before).head?, first ≤ event.ts

def turnSlice (track : Nat) (slices : Nat) : Packet → Option Nat
  | .event _ event =>
      if event.trackUuid = track then
        match event.type, slices with
        | .sliceBegin, slices => some (slices + 1)
        | .sliceEnd, 0 => none
        | .sliceEnd, slices + 1 => some slices
        | .instant, slices => some slices
      else some slices
  | .clock _ _ _ | .track _ _ _ => some slices

def openSlices (track : Nat) (packets : List Packet) : Option Nat :=
  packets.foldlM (turnSlice track) 0

@[simp] theorem describedTracks_concat (packets : List Packet) (packet : Packet) :
    describedTracks (packets ++ [packet]) = describedTracks packets ++ describedTracks [packet] :=
  List.filterMap_append

@[simp] theorem clockTimes_concat (packets : List Packet) (packet : Packet) :
    clockTimes (packets ++ [packet]) = clockTimes packets ++ clockTimes [packet] :=
  List.filterMap_append

theorem openSlices_concat (track : Nat) (packets : List Packet) (packet : Packet) :
    openSlices track (packets ++ [packet]) =
      (openSlices track packets).bind (turnSlice track · packet) := by
  unfold openSlices
  rw [List.foldlM_append]
  simp

/-! ## What holds between two commands -/

variable (setup : Setup) (records : List JsonRecord) (track : Nat)

def FlowTrack : Prop :=
  ∃ record ∈ records, (record.type = .flowStart ∨ record.type = .flowEnd) ∧
    setup.python.stableUuid (.flow record.flowId) = track

/-- A track that a connect attempt of the file has. -/
def AttemptTrack : Prop :=
  ∃ record ∈ records, record.attemptId ≠ "" ∧
    setup.python.stableUuid (.connect record.attemptId) = track

/-- A map of tracks holds the right ids, and they are described. -/
def Holds {κ : Type} (tracks : Keyed κ Nat) (Names : κ → Nat → Prop) (descriptors : List Nat) :
    Prop :=
  ∀ key uuid, tracks key = some uuid → Names key uuid ∧ uuid ∈ descriptors

/-- The track of a socket. -/
def SocketUuid (socketId : String) (uuid : Nat) : Prop :=
  ∃ socket, setup.python.hex socketId = some socket ∧
    uuid = setup.python.stableUuid (.socket socket)

/-- The packets so far, and what is known of their tracks. -/
structure Tracked (exporter : PerfettoExporter) : Prop where
  accrues : Accrues (Fits setup) exporter.packets
  started : exporter.sequenceStarted = exporter.packets.any Packet.sequenced
  clocks : exporter.clockMonotonicNs = clockTimes exporter.packets
  described : ∀ uuid, uuid ∈ exporter.descriptors ↔ uuid ∈ describedTracks exporter.packets
  processes : Holds exporter.processTracks
    (fun tgid uuid => uuid = setup.python.stableUuid (.process tgid))
    exporter.descriptors
  threads : Holds exporter.threadTracks
    (fun key uuid => uuid = setup.python.stableUuid (.thread key.1 key.2))
    exporter.descriptors
  sockets : Holds exporter.socketTracks (SocketUuid setup) exporter.descriptors
  flows : Holds exporter.flowTracks (fun flowId uuid =>
    uuid = setup.python.stableUuid (.flow flowId))
    exporter.descriptors
  connects : Holds exporter.connectTracks
    (fun attemptId uuid => uuid = setup.python.stableUuid (.connect attemptId)) exporter.descriptors

/-- So many slices are open on the track, or at least so many if an attempt has it. -/
def Sliced (count : Nat) (packets : List Packet) : Prop :=
  ¬ FlowTrack setup records track → ∃ slices : Nat, openSlices track packets = some slices ∧
    count ≤ slices ∧
    (¬ AttemptTrack setup records track → slices = count)

/-- The tracks that were seen, the books, and the slices that are open on the track. -/
structure At (seen : List Nat) (books : Books) (count : Nat) (exporter : PerfettoExporter) :
    Prop where
  tracked : Tracked setup exporter
  seen : ∀ uuid ∈ seen, uuid ∈ exporter.descriptors
  books : exporter.books = books
  sliced : Sliced setup records track count exporter.packets

/-- An event on a track counts for the track. -/
def mark (uuid : Nat) : Nat :=
  if uuid = track then 1 else 0

variable {setup records track} {seen : List Nat} {books : Books} {count : Nat}

/-! ## The primitives -/

theorem Holds.mono {κ : Type} {tracks : Keyed κ Nat} {Names : κ → Nat → Prop}
    {descriptors more : List Nat}
    (h : Holds tracks Names descriptors) (hmore : ∀ uuid ∈ descriptors, uuid ∈ more) :
    Holds tracks Names more :=
  fun key uuid hkey => ⟨(h key uuid hkey).1, hmore uuid (h key uuid hkey).2⟩

theorem Holds.put {κ : Type} [DecidableEq κ] {tracks : Keyed κ Nat} {Names : κ → Nat → Prop}
    {descriptors : List Nat} {key : κ} {uuid : Nat} (h : Holds tracks Names descriptors)
    (hname : Names key uuid)
    (hmem : uuid ∈ descriptors) : Holds (tracks.put key uuid) Names descriptors :=
  Keyed.put_forall ⟨hname, hmem⟩ fun other found _ hfound => h other found hfound

/-- A packet that is not an event leaves the slices alone. -/
theorem Sliced.quiet {packets : List Packet} {packet : Packet}
    (h : Sliced setup records track count packets)
    (hquiet : ∀ slices, turnSlice track slices packet = some slices) :
    Sliced setup records track count (packets ++ [packet]) := by
  intro hflow
  obtain ⟨slices, hopen, hcount⟩ := h hflow
  refine ⟨slices, ?_, hcount⟩
  rw [openSlices_concat, hopen]
  exact hquiet slices

theorem Tracked.sequencePacket {exporter : PerfettoExporter} {packet : Bool → Packet}
    (h : Tracked setup exporter) (hsequenced : ∀ clears, (packet clears).sequenced = true)
    (hclocks : ∀ clears, clockTimes [packet clears] = [])
    (hdescribed : ∀ clears, describedTracks [packet clears] = [])
    (hfits : Fits setup exporter.packets (packet !exporter.packets.any Packet.sequenced)) :
    Tracked setup (exporter.sequencePacket packet) := by
  constructor
  case accrues =>
    show Accrues (Fits setup) (exporter.packets ++ [packet !exporter.sequenceStarted])
    rw [h.started]
    exact h.accrues.concat hfits
  case started =>
    show true = (exporter.packets ++ [packet !exporter.sequenceStarted]).any Packet.sequenced
    simp [hsequenced]
  case clocks =>
    show exporter.clockMonotonicNs = clockTimes
      (exporter.packets ++ [packet !exporter.sequenceStarted])
    rw [clockTimes_concat, hclocks, List.append_nil, h.clocks]
  case described =>
    intro uuid
    show uuid ∈ exporter.descriptors ↔
      uuid ∈ describedTracks (exporter.packets ++ [packet !exporter.sequenceStarted])
    rw [describedTracks_concat, hdescribed, List.append_nil, h.described]
  case processes => exact h.processes
  case threads => exact h.threads
  case sockets => exact h.sockets
  case flows => exact h.flows
  case connects => exact h.connects

/-- A track that was not described is. -/
theorem Tracked.newTrack {exporter : PerfettoExporter} {uuid parent : Nat} {key : UuidKey}
    {above : Option UuidKey} (h : Tracked setup exporter) (hnew : uuid ∉ exporter.descriptors)
    (hunder : Under setup key above) (huuid : uuid = setup.python.stableUuid key)
    (hparent : parent = parentUuid setup.python above)
    (habove : ∀ key ∈ above, setup.python.stableUuid key ∈ exporter.descriptors) :
    Tracked setup ((exporter.sequencePacket fun clears => .track clears uuid parent).addDescriptor
      uuid) := by
  have hmore : ∀ other ∈ exporter.descriptors, other ∈ uuid :: exporter.descriptors :=
    fun _ => List.mem_cons_of_mem uuid
  constructor
  case accrues =>
    show Accrues (Fits setup) (exporter.packets ++
      [Packet.track (!exporter.sequenceStarted) uuid parent])
    refine h.accrues.concat ⟨by rw [h.started], ?_, key, above, hunder, huuid, hparent, ?_⟩
    · exact fun hmem => hnew ((h.described uuid).mpr hmem)
    · exact fun other hother => (h.described _).mp (habove other hother)
  case started =>
    show true = (exporter.packets ++ [Packet.track (!exporter.sequenceStarted) uuid parent]).any
      Packet.sequenced
    simp [Packet.sequenced]
  case clocks =>
    show exporter.clockMonotonicNs =
      clockTimes (exporter.packets ++ [Packet.track (!exporter.sequenceStarted) uuid parent])
    rw [clockTimes_concat, h.clocks]
    exact (List.append_nil _).symm
  case described =>
    intro other
    show other ∈ uuid :: exporter.descriptors ↔
      other ∈ describedTracks (exporter.packets ++
        [Packet.track (!exporter.sequenceStarted) uuid parent])
    rw [describedTracks_concat, List.mem_append, ← h.described, List.mem_cons, or_comm]
    exact or_congr_right List.mem_singleton.symm
  case processes => exact h.processes.mono hmore
  case threads => exact h.threads.mono hmore
  case sockets => exact h.sockets.mono hmore
  case flows => exact h.flows.mono hmore
  case connects => exact h.connects.mono hmore

/-- An event on a track that is described. -/
theorem Tracked.newEvent {exporter : PerfettoExporter} {event : TrackEvent}
    (h : Tracked setup exporter) (htrack : event.trackUuid ∈ exporter.descriptors)
    (htime : ∃ first ∈ exporter.clockMonotonicNs.head?, first ≤ event.ts) :
    Tracked setup (exporter.sequencePacket fun clears => .event clears event) := by
  refine h.sequencePacket (fun _ => rfl) (fun _ => rfl) (fun _ => rfl)
    ⟨rfl, (h.described _).mp htrack, ?_⟩
  rw [← h.clocks]
  exact htime

section

variable {uuid parent : Nat} {key : UuidKey} {above : Option UuidKey}
  (hunder : Under setup key above) (huuid : uuid = setup.python.stableUuid key)
  (hparent : parent = parentUuid setup.python above)
  (habove : ∀ key ∈ above, setup.python.stableUuid key ∈ seen)
include hunder huuid hparent habove

theorem descriptor_at :
    Ensures (At setup records track seen books count) (descriptor uuid parent)
      fun _ => At setup records track (uuid :: seen) books count := by
  refine .get fun exporter h => ?_
  have hcons : ∀ {descriptors : List Nat}, uuid ∈ descriptors →
      (∀ other ∈ seen, other ∈ descriptors) →
      ∀ other ∈ uuid :: seen, other ∈ descriptors := by
    intro descriptors hmem hseen other hother
    obtain rfl | hother := List.mem_cons.mp hother
    · exact hmem
    · exact hseen other hother
  by_cases hmem : uuid ∈ exporter.descriptors
  case pos =>
    rw [if_pos hmem]
    refine .pure fun state hstate => ?_
    rw [hstate]
    exact ⟨h.tracked, hcons hmem h.seen, h.books, h.sliced⟩
  case neg =>
    rw [if_neg hmem]
    refine .via (fun _ => (· = exporter.sequencePacket fun clears => .track clears uuid parent)) ?_
      fun _ => .via (fun _ => At setup records track (uuid :: seen) books count) ?_
      fun _ => .pure fun _ hstate => hstate
    · exact .modify fun state hstate => by rw [hstate]
    · refine .modify fun state hstate => ?_
      rw [hstate]
      have hparents := fun key hkey => h.seen _ (habove key hkey)
      refine ⟨h.tracked.newTrack hmem hunder huuid hparent hparents, ?_, h.books, ?_⟩
      · refine hcons List.mem_cons_self fun other hother =>
          List.mem_cons_of_mem uuid (h.seen other hother)
      · exact h.sliced.quiet fun _ => rfl

theorem newDescriptor_at :
    Ensures (At setup records track seen books count) (newDescriptor uuid parent)
      fun _ => At setup records track (uuid :: seen) books count := by
  refine (descriptor_at hunder huuid hparent habove).bind fun new => ?_
  cases new with
  | true => exact .pure fun _ hstate => hstate
  | false => exact .throw

end

theorem event_at {uuid : Nat} {ts : Option Int} {type : EventType} {flow : EventFlow} {next : Nat}
    (hseen : uuid ∈ seen)
    (hsliced : ∀ packets clears (event : TrackEvent), event.trackUuid = uuid → event.type = type →
      Sliced setup records track count packets →
        Sliced setup records track next (packets ++ [.event clears event])) :
    Ensures (At setup records track seen books count) (event setup ts uuid type flow)
      fun _ => At setup records track seen books next := by
  refine .via (fun ts state => At setup records track seen books count state ∧
    ∃ first ∈ state.clockMonotonicNs.head?, first ≤ ts) ?_ fun ts => .modify fun state hstate => ?_
  · refine .get fun exporter h => .bindFact .lift fun ts _ => ?_
    cases hfirst : exporter.clockMonotonicNs.head? with
    | none => exact .throw
    | some first =>
        dsimp only
        by_cases hlt : ts < first
        case pos =>
          rw [if_pos hlt]
          exact .throw
        case neg =>
          rw [if_neg hlt]
          refine .pure fun state hstate => ?_
          rw [hstate]
          exact ⟨h, first, hfirst, Int.not_lt.mp hlt⟩
  · obtain ⟨h, htime⟩ := hstate
    exact ⟨h.tracked.newEvent (h.seen uuid hseen) htime, h.seen, h.books,
      hsliced _ _ _ rfl rfl h.sliced⟩

section

variable {uuid : Nat} {ts : Option Int} {flow : EventFlow} (hseen : uuid ∈ seen)
include hseen

/-- An event that begins or ends no slice. -/
theorem event_instant :
    Ensures (At setup records track seen books count) (event setup ts uuid .instant flow)
      fun _ => At setup records track seen books count := by
  refine event_at hseen fun packets clears event huuid htype hsliced =>
    hsliced.quiet fun slices => ?_
  unfold turnSlice
  dsimp only
  rw [htype]
  exact ite_self _

theorem event_begin :
    Ensures (At setup records track seen books count) (event setup ts uuid .sliceBegin flow)
      fun _ => At setup records track seen books (count + mark track uuid) := by
  refine event_at hseen fun packets clears event huuid htype hsliced hflow => ?_
  obtain ⟨slices, hopen, hle, hexact⟩ := hsliced hflow
  rw [openSlices_concat, hopen]
  show ∃ slices_1 : Nat, turnSlice track slices (.event clears event) = some slices_1 ∧ _
  unfold turnSlice mark
  dsimp only
  rw [htype, huuid]
  by_cases hsame : uuid = track
  case pos =>
    rw [if_pos hsame, if_pos hsame]
    exact ⟨slices + 1, rfl, by omega, fun hattempt => by have := hexact hattempt; omega⟩
  case neg =>
    rw [if_neg hsame, if_neg hsame]
    exact ⟨slices, rfl, by omega, fun hattempt => by have := hexact hattempt; omega⟩

/-- An event that ends a slice which is open. -/
theorem event_end (hopen : mark track uuid ≤ count) :
    Ensures (At setup records track seen books count) (event setup ts uuid .sliceEnd flow)
      fun _ => At setup records track seen books (count - mark track uuid) := by
  refine event_at hseen fun packets clears event huuid htype hsliced hflow => ?_
  obtain ⟨slices, hslices, hle, hexact⟩ := hsliced hflow
  rw [openSlices_concat, hslices]
  show ∃ slices_1 : Nat, turnSlice track slices (.event clears event) = some slices_1 ∧ _
  unfold turnSlice
  unfold mark at hopen ⊢
  dsimp only
  rw [htype, huuid]
  by_cases hsame : uuid = track
  case pos =>
    rw [if_pos hsame] at hopen ⊢
    rw [if_pos hsame]
    cases slices with
    | zero => omega
    | succ slices =>
        exact ⟨slices, rfl, by omega, fun hattempt => by have := hexact hattempt; omega⟩
  case neg =>
    rw [if_neg hsame, if_neg hsame]
    exact ⟨slices, rfl, by omega, fun hattempt => by have := hexact hattempt; omega⟩

end

theorem event_flow {uuid : Nat} {ts : Option Int} {type : EventType} {flow : EventFlow}
    (hseen : uuid ∈ seen) (hflow : FlowTrack setup records uuid) :
    Ensures (At setup records track seen books count) (event setup ts uuid type flow)
      fun _ => At setup records track seen books count := by
  refine event_at hseen fun packets clears event huuid _ hsliced hnot => ?_
  have hother : event.trackUuid ≠ track := by
    intro hsame
    rw [← hsame, huuid] at hnot
    exact hnot hflow
  exact hsliced.quiet (fun slices => if_neg hother) hnot

end Anettrace.Convert
