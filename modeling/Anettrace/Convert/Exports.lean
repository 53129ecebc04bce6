import Anettrace.Convert.Tracks

/-!
# What the whole converter keeps

Every command of the exporter keeps what holds of its packets, and its books are the slices that are
open.
-/

namespace Anettrace.Convert

open Anettrace.Native (ConnectKind)
open Library Library.Command PerfettoExporter

variable {setup : Setup} {records : List JsonRecord} {track : Nat} {seen : List Nat}
  {books : Books} {count : Nat}

/-! ## Tracks -/

theorem At.forget {exporter : PerfettoExporter} {more : List Nat}
    (h : At setup records track more books count exporter) (hmore : ∀ uuid ∈ seen, uuid ∈ more) :
    At setup records track seen books count exporter :=
  ⟨h.tracked, fun uuid hmem => h.seen uuid (hmore uuid hmem), h.books, h.sliced⟩

/-- A track that a map holds was seen. -/
theorem At.see {exporter : PerfettoExporter} {uuid : Nat}
    (h : At setup records track seen books count exporter) (hmem : uuid ∈ exporter.descriptors) :
    At setup records track (uuid :: seen) books count exporter := by
  refine ⟨h.tracked, fun other hother => ?_, h.books, h.sliced⟩
  obtain rfl | hother := List.mem_cons.mp hother
  · exact hmem
  · exact h.seen other hother

/-- A track that is known is the right one. -/
theorem cached_at {known : PerfettoExporter → Option Nat} {make : Export Nat} {Named : Nat → Prop}
    (hknown : ∀ exporter uuid, Tracked setup exporter → known exporter = some uuid →
      Named uuid ∧ uuid ∈ exporter.descriptors)
    (hmake : Ensures (At setup records track seen books count) make fun uuid state =>
      Named uuid ∧ At setup records track (uuid :: seen) books count state) :
    Ensures (At setup records track seen books count) (cached known make) fun uuid state =>
      Named uuid ∧ At setup records track (uuid :: seen) books count state := by
  refine .get fun exporter h => ?_
  cases hfound : known exporter with
  | some uuid =>
      obtain ⟨hname, hmem⟩ := hknown exporter uuid h.tracked hfound
      exact .pure fun state hstate => ⟨hname, hstate ▸ h.see hmem⟩
  | none => exact hmake.mono (fun state hstate => hstate ▸ h) fun _ _ => id

theorem processTrack_at (tgid : Int) :
    Ensures (At setup records track seen books count) (processTrack setup tgid) fun uuid state =>
      uuid = setup.python.stableUuid (.process tgid) ∧
        At setup records track (uuid :: seen) books count state := by
  refine cached_at (fun exporter uuid h => h.processes tgid uuid) ?_
  refine (newDescriptor_at (.process tgid) rfl rfl (fun _ => nofun)).bind fun _ => ?_
  refine .bind (.modify fun state h => ?_) fun _ => .pure fun state h => ⟨rfl, h⟩
  exact ⟨{ h.tracked with processes := h.tracked.processes.put rfl (h.seen _ List.mem_cons_self) },
    h.seen, h.books, h.sliced⟩

theorem threadTrack_at (record : JsonRecord) :
    Ensures (At setup records track seen books count) (threadTrack setup record) fun uuid state =>
      uuid = setup.python.stableUuid (.thread record.tgid record.tid) ∧
        At setup records track (uuid :: seen) books count state := by
  refine cached_at (fun exporter uuid h => h.threads _ uuid) ?_
  refine (processTrack_at record.tgid).bindFact fun process hprocess => ?_
  refine (newDescriptor_at (.thread record.tgid record.tid) rfl hprocess ?_).bind fun _ => ?_
  · intro key hkey
    obtain rfl := Option.some.inj hkey
    exact hprocess ▸ List.mem_cons_self
  · refine .bind (.modify fun state h => ?_) fun _ => .pure fun state h => ⟨rfl, h⟩
    have h : At setup records track (setup.python.stableUuid (.thread record.tgid record.tid) ::
        seen) books count
        state := h.forget (List.cons_subset_cons _ (List.subset_cons_self _ _))
    exact ⟨{ h.tracked with threads := h.tracked.threads.put rfl (h.seen _ List.mem_cons_self) },
      h.seen, h.books, h.sliced⟩

/-- The end of a way to make a track: it is described below one that was seen, and remembered. -/
theorem remember_at {uuid parent : Nat} {key : UuidKey} {above : Option UuidKey}
    {Named : Nat → Prop}
    {remember : PerfettoExporter → PerfettoExporter} (hunder : Under setup key above)
    (huuid : uuid = setup.python.stableUuid key) (hparent : parent = parentUuid setup.python above)
    (habove : ∀ key ∈ above, setup.python.stableUuid key ∈ seen) (hname : Named uuid)
    (hremember : ∀ exporter, At setup records track (uuid :: seen) books count exporter →
      At setup records track (uuid :: seen) books count (remember exporter)) :
    Ensures (At setup records track seen books count) (do
      let _ ← descriptor uuid parent
      modify remember
      return uuid) fun uuid state => Named uuid ∧
        At setup records track (uuid :: seen) books count state :=
  (descriptor_at hunder huuid hparent habove).bind fun _ =>
    .bind (.modify hremember) fun _ => .pure fun _ h => ⟨hname, h⟩

theorem uuid_forget {fact : Nat → Prop} {command : Export Nat} {parent : Nat}
    (h : Ensures (At setup records track (parent :: seen) books count) command fun uuid state =>
      fact uuid ∧ At setup records track (uuid :: parent :: seen) books count state) :
    Ensures (At setup records track (parent :: seen) books count) command fun uuid state =>
      fact uuid ∧ At setup records track (uuid :: seen) books count state :=
  h.mono (fun _ => id) fun uuid _ hboth =>
    ⟨hboth.1, hboth.2.forget (List.cons_subset_cons uuid (List.subset_cons_self parent seen))⟩

theorem socketTrack_at (socketId : String) :
    Ensures (At setup records track seen books count) (socketTrack setup socketId) fun uuid state =>
      SocketUuid setup socketId uuid ∧ At setup records track (uuid :: seen) books count state := by
  refine cached_at (fun exporter uuid h => h.sockets socketId uuid) ?_
  refine .bindFact .lift fun socket hsocket => ?_
  have hname : SocketUuid setup socketId (setup.python.stableUuid (.socket socket)) := by
    refine ⟨socket, ?_, rfl⟩
    unfold idValue at hsocket
    split at hsocket
    · obtain rfl := Except.ok.inj hsocket
      assumption
    · cases hsocket
  unfold ownerTrack
  cases howner : setup.evidence.socketOwners socket with
  | none =>
      refine .pureBind (remember_at (.socket howner) rfl rfl (fun _ => nofun) hname
        fun exporter h => ?_)
      exact ⟨{ h.tracked with sockets := h.tracked.sockets.put hname (h.seen _
        List.mem_cons_self) },
        h.seen, h.books, h.sliced⟩
  | some owner =>
      refine (processTrack_at owner.1).bindFact fun parent hparent => uuid_forget ?_
      refine remember_at (.owned howner) rfl hparent (fun key hkey => ?_) hname fun exporter h => ?_
      · obtain rfl := Option.some.inj hkey
        exact hparent ▸ List.mem_cons_self
      · exact ⟨{ h.tracked with sockets := h.tracked.sockets.put hname (h.seen _
          List.mem_cons_self) },
          h.seen, h.books, h.sliced⟩

theorem socketPacketTrack_at (socket : Int) (record : JsonRecord) :
    Ensures (At setup records track seen books count) (socketPacketTrack setup socket record)
      fun uuid state =>
      uuid = setup.python.stableUuid (.socketPackets socket record.way) ∧
        At setup records track (uuid :: seen) books count state := by
  refine (socketTrack_at _).bindFact fun parent hparent => uuid_forget ?_
  obtain ⟨above, hhex, hparent⟩ := hparent
  refine (descriptor_at (.packets record.way hhex) rfl hparent ?_).bind fun _ =>
    .pure fun state h => ⟨rfl, h⟩
  intro key hkey
  obtain rfl := Option.some.inj hkey
  exact hparent ▸ List.mem_cons_self

theorem flowParent_at (record : JsonRecord) :
    Ensures (At setup records track seen books count) (flowParent setup record) fun uuid state =>
      (∃ above, Under setup (.flow record.flowId) (some above) ∧
        uuid = setup.python.stableUuid above) ∧
        At setup records track (uuid :: seen) books count state := by
  have hprocess : Ensures (At setup records track seen books count)
      (processTrack setup (record.ownerTgid.getD record.tgid)) fun uuid state =>
        (∃ above, Under setup (.flow record.flowId) (some above) ∧
          uuid = setup.python.stableUuid above) ∧
          At setup records track (uuid :: seen) books count state :=
    (processTrack_at _).mono (fun _ => id) fun uuid state h => ⟨⟨_, .flowProcess _ _, h.1⟩, h.2⟩
  unfold flowParent
  split
  · exact hprocess
  · refine .bindFact .lift fun socket _ => ?_
    split
    · exact hprocess
    · refine (socketTrack_at _).mono (fun _ => id) fun uuid state h => ⟨?_, h.2⟩
      obtain ⟨⟨socket, -, huuid⟩, -⟩ := h
      exact ⟨_, .flowSocket _ socket, huuid⟩

theorem flowTrack_at (record : JsonRecord) :
    Ensures (At setup records track seen books count) (flowTrack setup record) fun uuid state =>
      uuid = setup.python.stableUuid (.flow record.flowId) ∧
        At setup records track (uuid :: seen) books count state := by
  refine cached_at (fun exporter uuid h => h.flows _ uuid) ?_
  refine (flowParent_at record).bindFact fun parent hparent => uuid_forget ?_
  obtain ⟨above, hunder, hparent⟩ := hparent
  refine remember_at hunder rfl hparent (fun key hkey => ?_) rfl fun exporter h => ?_
  · obtain rfl := Option.some.inj hkey
    exact hparent ▸ List.mem_cons_self
  · exact ⟨{ h.tracked with flows := h.tracked.flows.put rfl (h.seen _ List.mem_cons_self) },
      h.seen, h.books, h.sliced⟩

theorem connectTrack_at (attemptId : String) (record : JsonRecord) :
    Ensures (At setup records track seen books count) (connectTrack setup attemptId record)
      fun uuid state =>
      uuid = setup.python.stableUuid (.connect attemptId) ∧
        At setup records track (uuid :: seen) books count state := by
  refine cached_at (fun exporter uuid h => h.connects _ uuid) ?_
  refine (threadTrack_at record).bindFact fun parent hparent => uuid_forget ?_
  refine remember_at (.connect attemptId record.tgid record.tid) rfl hparent
    (fun key hkey => ?_) rfl
    fun exporter h => ?_
  · obtain rfl := Option.some.inj hkey
    exact hparent ▸ List.mem_cons_self
  · exact ⟨{ h.tracked with connects := h.tracked.connects.put rfl (h.seen _ List.mem_cons_self) },
      h.seen, h.books, h.sliced⟩

/-! ## Records that leave the books alone -/

/-- A command that leaves the books and the open slices alone. -/
def Quiet (setup : Setup) (records : List JsonRecord) (track : Nat) (command : Export Unit) :
    Prop :=
  ∀ seen books count, Ensures (At setup records track seen books count) command
    fun _ => At setup records track seen books count

theorem forget_at (uuid : Nat) {command : Export Unit} {pre : PerfettoExporter → Prop}
    (h : Ensures pre command fun _ => At setup records track (uuid :: seen) books count) :
    Ensures pre command fun _ => At setup records track seen books count :=
  h.mono (fun _ => id) fun _ _ hstate => hstate.forget (List.subset_cons_self uuid seen)

theorem quiet_return : Quiet setup records track (pure ⟨⟩) :=
  fun _ _ _ => .pure fun _ => id

theorem exportPacketIoLink_quiet (record : JsonRecord) :
    Quiet setup records track (exportPacketIoLink setup record) := by
  intro seen books count
  refine .bindFact .lift fun record _ => ?_
  refine (threadTrack_at record).bindFact fun thread _ => ?_
  refine .bindFact .lift fun linked _ => ?_
  exact forget_at _ (event_instant List.mem_cons_self)

theorem exportSocketFlowLink_quiet (record : JsonRecord) :
    Quiet setup records track (exportSocketFlowLink setup record) := by
  intro seen books count
  refine .bindFact .lift fun record _ => ?_
  refine (socketTrack_at record.socketId).bindFact fun socket _ => ?_
  refine .bindFact .lift fun linked _ => ?_
  exact forget_at _ (event_instant List.mem_cons_self)

theorem exportIoComplete_quiet (record : JsonRecord) :
    Quiet setup records track (exportIoComplete setup record) := by
  intro seen books count
  refine .bindFact .lift fun record _ => ?_
  refine (threadTrack_at record).bindFact fun thread _ => ?_
  refine .bindFact .lift fun flowId _ => .bindFact .lift fun linked _ => ?_
  exact forget_at _ (event_instant List.mem_cons_self)

theorem exportRxHandoff_quiet (record : JsonRecord) :
    Quiet setup records track (exportRxHandoff setup record) := by
  intro seen books count
  refine .bindFact .lift fun record _ => ?_
  refine (threadTrack_at record).bindFact fun thread _ => ?_
  refine .bindFact .lift fun linked _ => ?_
  exact forget_at _ (event_instant List.mem_cons_self)

theorem threadPacket_at {record : JsonRecord} {thread : Nat} {linked : List Int}
    (hseen : thread ∈ seen) :
    Ensures (At setup records track seen books count) (threadPacket setup record thread linked)
      fun _ => At setup records track seen books count := by
  refine .bindFact .lift fun packetId _ => .bindFact .lift fun correlation _ => ?_
  exact event_instant hseen

theorem exportPacketEvent_quiet (record : JsonRecord) :
    Quiet setup records track (exportPacketEvent setup record) := by
  intro seen books count
  unfold exportPacketEvent
  split
  · exact quiet_return seen books count
  · refine .bindFact .lift fun _ _ => ?_
    refine (threadTrack_at record).bindFact fun thread _ => forget_at thread ?_
    refine .bindFact .lift fun socket _ => ?_
    cases socket with
    | none => exact threadPacket_at List.mem_cons_self
    | some socket =>
        dsimp only
        split
        · exact threadPacket_at List.mem_cons_self
        · refine .via (fun _ => At setup records track (thread :: seen) books count)
            (.modify fun exporter h => ⟨{ h.tracked with }, h.seen, h.books, h.sliced⟩) fun _ => ?_
          refine .get fun exporter h => ?_
          refine .via (fun _ => At setup records track (thread :: seen) books count)
            ((threadPacket_at List.mem_cons_self).mono (fun state hstate => hstate ▸ h) fun _ _ =>
              id) fun _ => ?_
          refine (socketPacketTrack_at socket record).bindFact fun mirror _ => ?_
          exact forget_at _ (event_instant List.mem_cons_self)

theorem exportConnectSocketState_quiet (record : JsonRecord) :
    Quiet setup records track (exportConnectSocketState setup record) := by
  intro seen books count
  refine .get fun exporter h => .mono ?_ (fun state hstate => hstate ▸ h) fun _ _ => id
  split
  · exact quiet_return seen books count
  · refine (connectTrack_at _ record).bindFact fun connect _ => ?_
    refine .bindFact .lift fun flowId _ => ?_
    exact forget_at _ (event_instant List.mem_cons_self)

theorem exportMetaEvent_quiet (record : JsonRecord) :
    Quiet setup records track (exportMetaEvent setup record) := by
  intro seen books count
  refine (descriptor_at .global rfl rfl (fun _ => nofun)).bind fun _ => ?_
  refine .get fun exporter h => forget_at (setup.python.stableUuid .global) ?_
  exact (event_instant List.mem_cons_self).mono (fun state hstate => hstate ▸ h) fun _ _ => id

section

variable {record : JsonRecord}
  (hflow : FlowTrack setup records (setup.python.stableUuid (.flow record.flowId)))
include hflow

theorem exportFlowStart_quiet :
    Quiet setup records track (exportFlowStart setup record) := by
  intro seen books count
  refine (flowTrack_at record).bindFact fun flow hname => ?_
  refine .bindFact .lift fun flowId _ => ?_
  exact forget_at _ (event_flow List.mem_cons_self (hname ▸ hflow))

theorem exportFlowEnd_quiet :
    Quiet setup records track (exportFlowEnd setup record) := by
  intro seen books count
  refine .get fun exporter h => .mono ?_ (fun state hstate => hstate ▸ h) fun _ _ => id
  refine (flowTrack_at record).bindFact fun flow hname => ?_
  have htrack : FlowTrack setup records flow := hname ▸ hflow
  refine .bindFact .lift fun flowId _ => ?_
  refine .via (fun _ => At setup records track (flow :: seen) books count) ?_ fun _ => ?_
  · exact .runIf (fun _ => event_flow List.mem_cons_self htrack) fun _ _ => id
  · exact forget_at _ (event_flow List.mem_cons_self htrack)

end

theorem slice_at {uuid : Nat} {first last : Option Int} {before after : EventFlow}
    {next : Export Unit} {post : Unit → PerfettoExporter → Prop} (hseen : uuid ∈ seen)
    (hnext : Ensures (At setup records track seen books count) next post) :
    Ensures (At setup records track seen books count) (do
      event setup first uuid .sliceBegin before
      event setup last uuid .sliceEnd after
      next) post := by
  refine (event_begin hseen).bind fun _ => (event_end hseen (Nat.le_add_left _ _)).bind fun _ => ?_
  rw [Nat.add_sub_cancel]
  exact hnext

theorem exportNetworkSyscall_quiet (record : JsonRecord) :
    Quiet setup records track (exportNetworkSyscall setup record) := by
  intro seen books count
  refine .bindFact .lift fun record _ => .bindFact .lift fun start _ =>
    .bindFact .lift fun last _ => ?_
  split
  · exact .throw
  · refine (threadTrack_at record).bindFact fun thread hthread => forget_at thread ?_
    refine (descriptor_at (.calls record.tgid record.tid) rfl hthread ?_).bind fun _ => ?_
    · intro key hkey
      obtain rfl := Option.some.inj hkey
      exact hthread ▸ List.mem_cons_self
    · refine .bindFact .lift fun flowId _ => slice_at List.mem_cons_self ?_
      split
      · exact forget_at _ (quiet_return _ _ _)
      · exact forget_at _ (event_instant List.mem_cons_self)

end Anettrace.Convert
