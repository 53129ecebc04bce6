import Anettrace.Convert.Balance
import Anettrace.Convert.Evidence

/-!
# Traces that are written

A trace that the converter writes can be read from its beginning: every packet fits to those before
it, and slices end that have begun.
-/

namespace Anettrace.Convert

open Library Library.Command PerfettoExporter

variable {setup : Setup} {records : List JsonRecord} {track : Nat}

/-- There are only clock snapshots. -/
def Clocked (setup : Setup) (records : List JsonRecord) (track : Nat)
    (exporter : PerfettoExporter) : Prop :=
  At setup records track [] {} 0 exporter ∧ ∀ packet ∈ exporter.packets, packet.sequenced = false

theorem clocked_start : Clocked setup records track {} := by
  refine ⟨⟨?_, fun _ => nofun, rfl, fun _ => ⟨0, rfl, Nat.le_refl 0, fun _ => rfl⟩⟩, fun _ => nofun⟩
  constructor
  case accrues => exact accrues_nil
  case started => rfl
  case clocks => rfl
  case described => exact fun uuid => Iff.rfl
  case processes | threads | sockets | flows | connects => exact fun _ _ => nofun

/-- One more clock snapshot. -/
theorem exportClock_clocked (record : JsonRecord) :
    Ensures (Clocked setup records track) (exportClock record) fun _ =>
      Clocked setup records track := by
  refine .get fun exporter hstart => ?_
  obtain ⟨h, hclocks⟩ := hstart
  split
  · exact .throw
  · rename_i hlater
    refine .modify fun state hstate => ?_
    rw [hstate]
    refine ⟨⟨?_, h.seen, h.books, h.sliced.quiet fun _ => rfl⟩, fun packet hmem => ?_⟩
    · constructor
      case accrues =>
        refine h.tracked.accrues.concat ⟨hclocks, fun last hlast => ?_⟩
        rw [← h.tracked.clocks] at hlast
        rw [Option.mem_def.mp hlast, Option.getD_some] at hlater
        exact Int.not_le.mp hlater
      case started =>
        show exporter.sequenceStarted = (exporter.packets ++ [Packet.clock _ _ _]).any
          Packet.sequenced
        rw [List.any_append, ← h.tracked.started]
        simp [Packet.sequenced]
      case clocks =>
        show exporter.clockMonotonicNs ++ [record.monotonicNs] =
          clockTimes (exporter.packets ++ [Packet.clock _ _ _])
        rw [clockTimes_concat, h.tracked.clocks]
        rfl
      case described =>
        intro uuid
        show uuid ∈ exporter.descriptors ↔
          uuid ∈ describedTracks (exporter.packets ++ [Packet.clock _ _ _])
        rw [describedTracks_concat, h.tracked.described]
        exact (List.append_nil _).symm ▸ Iff.rfl
      case processes => exact h.tracked.processes
      case threads => exact h.tracked.threads
      case sockets => exact h.tracked.sockets
      case flows => exact h.tracked.flows
      case connects => exact h.tracked.connects
    · obtain hmem | hmem := List.mem_append.mp hmem
      · exact hclocks packet hmem
      · rw [List.mem_singleton.mp hmem]
        rfl

/-- The last record of the file ends the trace. -/
def Ended (records : List JsonRecord) : Prop :=
  ∃ last ∈ records.getLast?, last.Ends

/-- What holds in the second loop of `serialize`, with the records that are left. -/
def Serializing (setup : Setup) (records : List JsonRecord) (track : Nat) (rest : List JsonRecord)
    (exporter : PerfettoExporter) : Prop :=
  (∃ before, records = before ++ rest) ∧ Steady setup records track exporter ∧
    (rest = [] → Ended records → Sliced setup records track 0 exporter.packets)

theorem exportRecord_serializing (record : JsonRecord) (rest : List JsonRecord) :
    Ensures (Serializing setup records track (record :: rest)) (exportRecord setup record)
      fun _ => Serializing setup records track rest := by
  intro exporter value next hstart hrun
  obtain ⟨⟨before, hbefore⟩, ⟨seen, hbalanced⟩, -⟩ := hstart
  have hrecord : record ∈ records := hbefore ▸ List.mem_append_right before List.mem_cons_self
  refine ⟨⟨before ++ [record], by rw [hbefore, List.append_assoc]; rfl⟩,
    exportRecord_steadies hrecord seen exporter value next hbalanced hrun, fun hrest hended => ?_⟩
  obtain ⟨last, hlast, hends⟩ := hended
  rw [hbefore, hrest, List.getLast?_concat] at hlast
  obtain rfl := Option.some.inj hlast
  exact (exportEnd_done hends exporter value next hbalanced hrun).2

theorem exportRecords_serialized (hrecords : records ≠ []) :
    Ensures (Clocked setup records track) (exportRecords setup records)
      fun _ => Serializing setup records track [] := by
  unfold exportRecords
  dsimp only
  split
  · exact .throw
  · refine (Ensures.forM (fun _ => Clocked setup records track) fun record _ =>
      exportClock_clocked record).bind
      fun _ => ?_
    refine (Ensures.forM (Serializing setup records track) exportRecord_serializing).mono
      (fun exporter h => ?_)
      fun _ _ => id
    refine ⟨⟨[], rfl⟩, ⟨[], {}, h.1, fun _ => nofun, fun _ _ => nofun⟩, fun hnil =>
      absurd hnil hrecords⟩

/-- What `serialize` returns. -/
theorem serialize_steady {python : Python} {traceTags : Bool} {packets : List Packet}
    (h : serialize python traceTags records = .ok packets) :
    ∃ evidence, indexSocketEvidence python records = .ok evidence ∧ ∀ track, ∃ exporter,
      exporter.packets = packets ∧
        Serializing ⟨python, tagsOf traceTags records, evidence⟩ records track [] exporter := by
  obtain ⟨evidence, hindex, h⟩ := Fallible.bind_ok.mp h
  obtain ⟨reached, hrun, h⟩ := Fallible.bind_ok.mp h
  refine ⟨evidence, hindex, fun track => ⟨reached.2, Except.ok.inj h, ?_⟩⟩
  refine exportRecords_serialized ?_ {} reached.1 reached.2 clocked_start hrun
  intro hnil
  rw [hnil] at hrun
  cases hrun

/-- A trace that is written begins with clock snapshots in their order, describes every track once,
below a track that it describes before, and has every event on a track that it describes before, not
before the first snapshot. Only its first packet of the sequence clears the state of a reader. -/
theorem serialize_fits {python : Python} {traceTags : Bool} {packets : List Packet}
    (h : serialize python traceTags records = .ok packets) :
    ∃ evidence, indexSocketEvidence python records = .ok evidence ∧
      Accrues (Fits ⟨python, tagsOf traceTags records, evidence⟩) packets := by
  obtain ⟨evidence, hindex, hsteady⟩ := serialize_steady h
  obtain ⟨exporter, hpackets, -, ⟨seen, books, hsettled⟩, -⟩ := hsteady 0
  exact ⟨evidence, hindex, hpackets ▸ hsettled.holds.tracked.accrues⟩

/-- A process creates a socket, another one sends a packet of its flow and reads from it, and the
trace ends. -/
def tracedRecords : List JsonRecord :=
  { type := .clockSnapshot, monotonicNs := 5 } ::
    { type := .socketCreate, socketId := "a", tgid := 7, tid := 8, startTsNs := some 6,
      tsNs := some 7 } ::
    { type := .socketFlowLink, socketId := "a", flowId := "f", tsNs := some 8 } ::
    { type := .packetEvent, packetId := "c", flowId := "f", way := .tx, tgid := 2, tid := 3,
      tsNs := some 9 } ::
    { type := .rxReadStart, ioId := "d", tgid := 2, tid := 3, tsNs := some 10 } ::
    { type := .traceEnd, tsNs := some 11 } :: []

theorem serialize_fits_traced : ∃ packets evidence, serialize samplePython false tracedRecords =
    .ok packets ∧
    packets.length = 18 ∧ Accrues (Fits ⟨samplePython, false, evidence⟩) packets := by
  cases hrun : serialize samplePython false tracedRecords with
  | error failure =>
      have hok : (serialize samplePython false tracedRecords).isOk = true := by decide +kernel
      rw [hrun] at hok
      cases hok
  | ok packets =>
      have hlength : (serialize samplePython false tracedRecords).map List.length =
          .ok 18 := by decide +kernel
      rw [hrun] at hlength
      obtain ⟨evidence, -, hfits⟩ := serialize_fits hrun
      exact ⟨packets, evidence, rfl, Except.ok.inj hlength, hfits⟩

theorem openSlices_prefix {before packets : List Packet} (hinitial : before <+: packets)
    (h : (openSlices track packets).isSome = true) : (openSlices track before).isSome = true := by
  obtain ⟨after, rfl⟩ := hinitial
  unfold openSlices at h ⊢
  rw [List.foldlM_append] at h
  cases hbefore : before.foldlM (turnSlice track) 0 with
  | none =>
      rw [hbefore] at h
      cases h
  | some slices => rfl

/-- On a track that no flow has, a trace that is written never ends a slice that has not begun; if
its last record ends the trace, no slice is left open on a track that no connect attempt has
either. -/
theorem serialize_slices {python : Python} {traceTags : Bool} {packets : List Packet}
    (h : serialize python traceTags records = .ok packets)
    (hflow : ∀ record ∈ records, record.type = .flowStart ∨ record.type = .flowEnd →
      python.stableUuid (.flow record.flowId) ≠ track) :
    (∀ before, before <+: packets → (openSlices track before).isSome = true) ∧
      (Ended records → (∀ record ∈ records, record.attemptId ≠ "" →
        python.stableUuid (.connect record.attemptId) ≠ track) →
          openSlices track packets = some 0) := by
  obtain ⟨evidence, -, hsteady⟩ := serialize_steady h
  obtain ⟨exporter, hpackets, -, ⟨seen, books, hsettled⟩, hended⟩ := hsteady track
  have hnot : ¬ FlowTrack ⟨python, tagsOf traceTags records, evidence⟩ records track := by
    rintro ⟨record, hrecord, htype, hsame⟩
    exact hflow record hrecord htype hsame
  constructor
  · intro before hinitial
    obtain ⟨slices, hopen, -⟩ := hsettled.holds.sliced hnot
    rw [hpackets] at hopen
    exact openSlices_prefix hinitial (by rw [hopen]; rfl)
  · intro hends hattempt
    obtain ⟨slices, hopen, -, hexact⟩ := hended rfl hends hnot
    rw [hpackets] at hopen
    rw [hopen, hexact]
    rintro ⟨record, hrecord, hid, hsame⟩
    exact hattempt record hrecord hid hsame

theorem serialize_slices_traced : ∃ packets, serialize samplePython false tracedRecords =
    .ok packets ∧
    openSlices 103 packets = some 0 := by
  cases hrun : serialize samplePython false tracedRecords with
  | error failure =>
      have hok : (serialize samplePython false tracedRecords).isOk = true := by decide +kernel
      rw [hrun] at hok
      cases hok
  | ok packets =>
      refine ⟨packets, rfl, (serialize_slices hrun ?_).2 ⟨_, rfl, rfl, by decide⟩ ?_⟩
      · simp [tracedRecords]
      · simp [tracedRecords]

end Anettrace.Convert
