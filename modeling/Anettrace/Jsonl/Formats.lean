import Anettrace.Jsonl.Fields
import Anettrace.Jsonl.Lines

/-!
# What the formats print

The texts that the formats put between quotes need no escape, the buffers of `json_escape` have
room, and no format prints a key twice.
-/

namespace Anettrace.Jsonl

open Library Export

/-! ## Texts -/

/-- A text that needs no escape. -/
def isUnescaped (text : List Char) : Bool := text.all fun char => decide (Json.Unescaped char)

/-- The test for text that needs no escape. -/
theorem isUnescaped_iff {text : List Char} :
    isUnescaped text = true ↔ ∀ char ∈ text, Json.Unescaped char := by
  simp only [isUnescaped, List.all_eq_true, decide_eq_true_eq]

/-- A constant is sound if it needs no escape. -/
@[simp] theorem sound_constant_iff (text : String) :
    (constant text).Sound ↔ isUnescaped text.toList = true :=
  isUnescaped_iff.symm

/-- Text needs no escape if its parts need none. -/
theorem isUnescaped_append (text other : List Char) :
    isUnescaped (text ++ other) = (isUnescaped text && isUnescaped other) :=
  List.all_append

/-- Hexadecimal digits need no escape. -/
theorem unescaped_digitChar : ∀ digit < 16, Json.Unescaped (Nat.digitChar digit) := by
  decide

theorem isUnescaped_hex4 (code : Nat) : isUnescaped (Json.hex4 code) = true := by
  have hdigit (value : Nat) : decide (Json.Unescaped (Nat.digitChar (value % 16))) = true :=
    decide_eq_true (unescaped_digitChar _ (Nat.mod_lt _ (by decide)))
  simp only [isUnescaped, Json.hex4, List.all_cons, List.all_nil, hdigit, Bool.and_true]

@[simp] theorem sound_hex16 (value : UInt64) : (hex16 value).Sound :=
  isUnescaped_iff.mp (by simp only [isUnescaped_append, isUnescaped_hex4, Bool.and_true])

/-- A 16-bit id is sound. -/
@[simp] theorem sound_hex4 (value : UInt16) : (hex4 value).Sound := by
  have hmark : isUnescaped ['0', 'x'] = true := rfl
  have h : isUnescaped (['0', 'x'] ++ Json.hex4 value.toNat) = true := by
    rw [isUnescaped_append, hmark, isUnescaped_hex4]
    rfl
  exact isUnescaped_iff.mp h

/-- Numbers of 64 bits are sound. -/
@[simp] theorem sound_u64 (value : UInt64) : (u64 value).Sound := trivial

/-- Numbers of 32 bits are sound. -/
@[simp] theorem sound_u32 (value : UInt32) : (u32 value).Sound := trivial

/-- Numbers of 16 bits are sound. -/
@[simp] theorem sound_u16 (value : UInt16) : (u16 value).Sound := trivial

/-- Numbers of 8 bits are sound. -/
@[simp] theorem sound_u8 (value : UInt8) : (u8 value).Sound := trivial

/-- Signed numbers of 64 bits are sound. -/
@[simp] theorem sound_s64 (value : Int64) : (s64 value).Sound := trivial

@[simp] theorem sound_signed (value : Int) : (Field.signed value).Sound := trivial

@[simp] theorem sound_flag (value : Bool) : (Field.flag value).Sound := trivial

/-- The name of a task is cut to an array that has room for its escapes. -/
@[simp] theorem sound_name16 (text : List UInt8) : (name16 text).Sound := by
  change 2 * 16 ≤ 64 + 1
  decide

theorem isUnescaped_decimal (value : Nat) : isUnescaped (decimal value) = true := by
  refine isUnescaped_iff.mpr fun char hchar => ?_
  have hdigit := Nat.isDigit_of_mem_toDigits (by decide) (by decide) hchar
  refine ⟨?_, ?_, decimal_printed hchar⟩
  · rintro rfl
    exact absurd hdigit (by decide)
  · rintro rfl
    exact absurd hdigit (by decide)

theorem isUnescaped_tagText (tag : FlowTag) : isUnescaped (tagText tag) = true := by
  have hkind : isUnescaped ((kindText tag.kind).toList ++ ['-']) = true := by
    cases tag.kind <;> rfl
  have h : isUnescaped (((kindText tag.kind).toList ++ ['-']) ++ decimal tag.index.toNat) =
      true := by
    rw [isUnescaped_append, hkind, isUnescaped_decimal]
    rfl
  rwa [List.append_assoc] at h

@[simp] theorem sound_tagText (tag : FlowTag) : (Field.plain (tagText tag)).Sound :=
  isUnescaped_iff.mp (isUnescaped_tagText tag)

@[simp] theorem sound_flowTag (tag : Option FlowTag) : (flowTag tag).Sound := by
  cases tag with
  | none => exact isUnescaped_iff.mp rfl
  | some tag => exact sound_tagText tag

@[simp] theorem sound_packetTag (tag : PacketTag) : (packetTag tag).Sound := by
  cases tag with
  | icmp => exact isUnescaped_iff.mp rfl
  | icmpv6 => exact isUnescaped_iff.mp rfl
  | flow tag => exact sound_tagText tag

@[simp] theorem isUnescaped_protocolText (protocol : ProtocolName) :
    isUnescaped (protocolText protocol).toList = true := by
  cases protocol <;> rfl

/-- Directions of packets need no escape. -/
@[simp] theorem isUnescaped_directionName (direction : Direction) :
    isUnescaped (directionName direction).toList = true := by
  cases direction <;> rfl

/-- The types of records that start a call need no escape. -/
@[simp] theorem isUnescaped_startType (tx : Bool) : isUnescaped (startType tx).toList = true := by
  cases tx <;> rfl

/-- The types of records that end a call need no escape. -/
@[simp] theorem isUnescaped_endType (tx : Bool) : isUnescaped (endType tx).toList = true := by
  cases tx <;> rfl

@[simp] theorem isUnescaped_callDirection (tx : Bool) :
    isUnescaped (callDirection tx).toList = true := by
  cases tx <;> rfl

@[simp] theorem isUnescaped_resultUnit (batch : Bool) :
    isUnescaped (resultUnit batch).toList = true := by
  cases batch <;> rfl

/-- Kinds of association need no escape. -/
@[simp] theorem isUnescaped_associationText (association : Association) :
    isUnescaped (associationText association).toList = true := by
  cases association <;> rfl

/-- Reasons for the end of a flow need no escape. -/
@[simp] theorem isUnescaped_endReasonText (reason : EndReason) :
    isUnescaped (endReasonText reason).toList = true := by
  cases reason <;> rfl

/-- Kinds of link evidence need no escape. -/
@[simp] theorem isUnescaped_linkEvidenceText (evidence : LinkEvidence) :
    isUnescaped (linkEvidenceText evidence).toList = true := by
  cases evidence <;> rfl

/-- Names of system calls need no escape. -/
@[simp] theorem isUnescaped_syscallName (kind : SyscallKind) :
    isUnescaped (syscallName kind).toList = true := by
  cases kind <;> rfl

/-- Kinds of owner evidence need no escape. -/
@[simp] theorem isUnescaped_ownerEvidence (evidence : UInt8) :
    isUnescaped (ownerEvidence evidence).toList = true := by
  unfold ownerEvidence
  split <;> rfl

/-- Names of TCP states need no escape. -/
@[simp] theorem isUnescaped_tcpStateName (state : Int) :
    isUnescaped (tcpStateName state).toList = true := by
  unfold tcpStateName
  split
  case isTrue => rfl
  case isFalse =>
    cases hname : tcpStateNames[state.toNat]? with
    | none => rfl
    | some name =>
        have hall : tcpStateNames.all (fun name => isUnescaped name.toList) = true := rfl
        exact List.all_eq_true.mp hall name (List.mem_of_getElem? hname)

@[simp] theorem isUnescaped_networkWakeupStatus (status : UInt8) :
    isUnescaped (networkWakeupStatus status).toList = true := by
  unfold networkWakeupStatus
  split_ifs <;> rfl

@[simp] theorem isUnescaped_networkWakingContext (context : UInt8) :
    isUnescaped (networkWakingContext context).toList = true := by
  unfold networkWakingContext
  split_ifs <;> rfl

/-- A name that needs no escape. -/
abbrev NameUnescaped (name : String) : Prop := isUnescaped name.toList = true

/-- The stage of a packet needs no escape if the name of its function needs none. -/
theorem packetStage_unescaped {trace : Trace} (h : NameUnescaped trace.name) (packet : Endpoints)
    (tcpFlags : UInt8) :
    NameUnescaped (packetStage trace packet tcpFlags) := by
  unfold packetStage
  dsimp only
  split_ifs
  all_goals first | rfl | exact h

/-- No stage of the table needs an escape. -/
theorem stageNames_unescaped {entry : String × String} (h : entry ∈ stageNames) :
    NameUnescaped entry.2 := by
  have hall : stageNames.all (fun entry => isUnescaped entry.2.toList) = true := rfl
  exact List.all_eq_true.mp hall entry h

/-- The stage of an event is a constant or the name of its function. -/
theorem eventStage_unescaped {trace : Trace} (h : NameUnescaped trace.name) (context : TraceContext)
    (packet sock : Endpoints) (tcpFlags : UInt8) :
    NameUnescaped (eventStage context trace packet sock tcpFlags) := by
  unfold eventStage
  split
  case isTrue => exact h
  case isFalse =>
    split
    case h_1 entry hentry =>
      have hmem := stageNames_unescaped (List.mem_of_find?_eq_some hentry)
      split_ifs
      all_goals first | rfl | exact hmem
    case h_2 => exact packetStage_unescaped h packet tcpFlags

/-- The name of an event needs no escape if the name of its function needs none. -/
theorem traceEventName_unescaped (context : TraceContext) {trace : Option Trace}
    (h : ∀ function ∈ trace, NameUnescaped function.name) :
    NameUnescaped (traceEventName context trace) := by
  cases trace with
  | none =>
      show NameUnescaped "unknown"
      rfl
  | some function =>
      rw [traceEventName]
      split
      case isTrue => exact h function rfl
      case isFalse =>
        split
        case h_1 entry hentry => exact stageNames_unescaped (List.mem_of_find?_eq_some hentry)
        case h_2 => exact h function rfl

/-- The stage that `pending_io_emit_start` stores needs no escape. -/
theorem ioStage_unescaped {session : Session} {trace : Option Trace}
    (h : ∀ function ∈ trace, NameUnescaped function.name) (flow : Option FlowState) (tx : Bool) :
    NameUnescaped (ioStage session trace flow tx) := by
  have htake {stage : String} (hstage : NameUnescaped stage) :
      NameUnescaped (String.ofList (stage.toList.take 31)) := by
    rw [NameUnescaped, String.toList_ofList, isUnescaped_iff]
    exact fun char hchar => isUnescaped_iff.mp hstage char (List.mem_of_mem_take hchar)
  refine htake ?_
  split_ifs
  · rfl
  · rfl
  · exact traceEventName_unescaped session.toTraceContext h

/-! ## Members -/

/-- Every value of a format is sound. -/
def Sound (members : List Member) : Prop := ∀ member ∈ members, member.2.Sound

/-- A record without members is sound. -/
@[simp] theorem sound_nil : Sound [] := List.forall_mem_nil _

@[simp] theorem sound_cons {member : Member} {members : List Member} :
    Sound (member :: members) ↔ member.2.Sound ∧ Sound members :=
  List.forall_mem_cons

@[simp] theorem sound_append {members more : List Member} :
    Sound (members ++ more) ↔ Sound members ∧ Sound more :=
  List.forall_mem_append

theorem sound_ite {condition : Prop} [Decidable condition] {members more : List Member}
    (h : Sound members) (hmore : Sound more) : Sound (if condition then members else more) := by
  split
  case isTrue => exact h
  case isFalse => exact hmore

theorem clockSnapshot_sound (fields : ClockSnapshot) : Sound (clockSnapshotMembers fields) :=
  sound_append.mpr ⟨by simp +decide, sound_ite (by simp) sound_nil⟩

theorem probeStatus_sound (ts : UInt64) (probe : List UInt8) :
    Sound (probeStatusMembers ts probe) := by
  have hprobe : (Field.escaped probe 64 (64 * 2 + 1)).Sound := by
    change 2 * 64 ≤ 64 * 2 + 1 + 1
    decide
  simp +decide [probeStatusMembers, hprobe]

theorem socketFlowLink_sound (flow : FlowState) (ts : UInt64) :
    Sound (socketFlowLinkMembers flow ts) := by
  simp +decide [socketFlowLinkMembers]

theorem ioStart_sound {fields : IoStart} (hstage : NameUnescaped fields.stage) (text : List UInt8) :
    Sound (ioStartMembers fields text) := by
  simp +decide [ioStartMembers, hstage]

theorem ioEnd_sound {fields : IoEnd} (hstage : NameUnescaped fields.stage) :
    Sound (ioEndMembers fields) := by
  simp +decide [ioEndMembers, hstage]

theorem ioComplete_sound (fields : IoComplete) : Sound (ioCompleteMembers fields) := by
  simp +decide [ioCompleteMembers]

theorem packetIoLink_sound (fields : PacketIoLink) : Sound (packetIoLinkMembers fields) := by
  simp +decide [packetIoLinkMembers]

theorem syscallWakeup_sound (wakeup : Wakeup) : Sound (syscallWakeupMembers wakeup) := by
  refine sound_ite sound_nil (sound_cons.mpr
    ⟨by simp, sound_ite sound_nil (sound_append.mpr ⟨by simp, ?_⟩)⟩)
  refine sound_ite sound_nil (sound_append.mpr ⟨by simp, sound_append.mpr ⟨?_, ?_⟩⟩)
  · exact sound_ite (by simp) sound_nil
  · exact sound_ite (by simp) sound_nil

theorem networkSyscall_sound (fields : NetworkSyscall) : Sound (networkSyscallMembers fields) :=
  sound_append.mpr ⟨by simp +decide, syscallWakeup_sound fields.wakeup⟩

theorem socketCreate_sound (fields : SocketCreate) : Sound (socketCreateMembers fields) := by
  simp +decide [socketCreateMembers]

theorem socketSnapshot_sound (protoL4 : UInt8) (snapshot : SocketSnapshot) :
    Sound (socketSnapshotMembers protoL4 snapshot) :=
  sound_append.mpr ⟨by simp, sound_ite (by simp) sound_nil⟩

theorem socketExtra_sound (fields : SocketEvent) : Sound (socketExtraMembers fields) :=
  sound_ite (by simp) (sound_ite (by simp) sound_nil)

theorem packetPort_sound (fields : PacketEvent) : Sound (packetPortMembers fields) :=
  sound_ite (sound_append.mpr ⟨by simp, sound_ite (by simp) sound_nil⟩) (by simp)

theorem packetHeader_sound (fields : PacketEvent) : Sound (packetHeaderMembers fields) :=
  sound_ite (by simp) (sound_ite (by simp) sound_nil)

theorem packetDrop_sound (drop : Option PacketDrop) :
    Sound ((drop.map packetDropMembers).getD []) := by
  cases drop <;> simp [packetDropMembers]

theorem qdisc_sound (qdisc : Option Qdisc) : Sound ((qdisc.map qdiscMembers).getD []) := by
  cases qdisc with
  | none => exact sound_nil
  | some qdisc =>
      refine sound_append.mpr ⟨by simp, ?_⟩
      cases qdisc.lastUpdate <;> simp

theorem connectAttemptEnd_sound (salt : UInt64) (connect : ConnectRecord) :
    Sound (connectAttemptEndMembers salt connect) := by
  simp +decide [connectAttemptEndMembers]

theorem connectSoError_sound (salt : UInt64) (connect : ConnectRecord) :
    Sound (connectSoErrorMembers salt connect) := by
  simp +decide [connectSoErrorMembers]

theorem connectCancel_sound (salt : UInt64) (connect : ConnectRecord) :
    Sound (connectCancelMembers salt connect) := by
  simp +decide [connectCancelMembers]

theorem lostEvents_sound (ts : UInt64) (cpu : Int) (count : UInt64) :
    Sound (lostEventsMembers ts cpu count) := by
  simp +decide [lostEventsMembers]

theorem rxContext_sound (fields : RxContextRecord) : Sound (rxContextMembers fields) := by
  simp +decide [rxContextMembers]

theorem traceEnd_sound (fields : TraceEnd) : Sound (traceEndMembers fields) := by
  simp +decide [traceEndMembers]

section Addresses

variable {inetNtop : Address → List Char} (hntop : ∀ address, isUnescaped (inetNtop address) = true)
include hntop

/-- An address is sound if `inet_ntop` writes nothing that needs an escape. -/
theorem sound_address (text : Address) : (address inetNtop text).Sound := by
  cases text with
  | none => exact isUnescaped_iff.mp rfl
  | inet bytes => exact isUnescaped_iff.mp (hntop (.inet bytes))
  | inet6 bytes => exact isUnescaped_iff.mp (hntop (.inet6 bytes))

theorem sound_saddr (endpoints : Endpoints) : (saddr inetNtop endpoints).Sound :=
  sound_address hntop _

theorem sound_daddr (endpoints : Endpoints) : (daddr inetNtop endpoints).Sound :=
  sound_address hntop _

theorem flowStart_sound (flow : FlowState) : Sound (flowStartMembers inetNtop flow) := by
  simp +decide [flowStartMembers, sound_address hntop]

theorem flowEnd_sound (flow : FlowState) (endTs : UInt64) (reason : EndReason) (incomplete : Bool) :
    Sound (flowEndMembers inetNtop flow endTs reason incomplete) := by
  simp +decide [flowEndMembers, sound_address hntop]

theorem socketState_sound (fields : SocketState) : Sound (socketStateMembers inetNtop fields) := by
  refine sound_append.mpr ⟨?_, socketSnapshot_sound fields.ske.protoL4 fields.snapshot⟩
  simp +decide [sound_saddr hntop, sound_daddr hntop]

theorem socketEvent_sound {fields : SocketEvent} (hname : NameUnescaped fields.trace.name) :
    Sound (socketEventMembers inetNtop fields) := by
  have hstage := eventStage_unescaped hname fields.context fields.pkt fields.ske fields.tcpFlags
  have hsnapshot := socketSnapshot_sound fields.ske.protoL4 fields.snapshot
  refine sound_append.mpr ⟨?_, sound_append.mpr ⟨hsnapshot, socketExtra_sound fields⟩⟩
  simp +decide [sound_saddr hntop, sound_daddr hntop, hstage]

theorem packetEvent_sound {fields : PacketEvent} (hname : NameUnescaped fields.trace.name) :
    Sound (packetEventMembers inetNtop fields) := by
  have hstage := eventStage_unescaped hname fields.context fields.pkt fields.ske fields.tcpFlags
  refine sound_append.mpr ⟨by simp +decide [sound_saddr hntop, sound_daddr hntop, hstage], ?_⟩
  refine sound_append.mpr ⟨sound_ite (by simp) sound_nil,
    sound_append.mpr ⟨packetPort_sound fields, ?_⟩⟩
  refine sound_append.mpr ⟨sound_ite (by simp +decide) sound_nil, ?_⟩
  refine sound_append.mpr ⟨sound_ite (by simp +decide) sound_nil, ?_⟩
  refine sound_append.mpr ⟨sound_ite (by simp) sound_nil,
    sound_append.mpr ⟨packetHeader_sound fields, ?_⟩⟩
  refine sound_append.mpr ⟨sound_ite (packetDrop_sound fields.drop) sound_nil, ?_⟩
  exact sound_ite (qdisc_sound fields.qdisc) sound_nil

theorem connectAttemptStart_sound (salt : UInt64) (connect : ConnectRecord) :
    Sound (connectAttemptStartMembers inetNtop salt connect) := by
  simp +decide [connectAttemptStartMembers, sound_address hntop]

theorem connectSocket_sound (salt : UInt64) (connect : ConnectRecord) :
    Sound (connectSocketMembers inetNtop salt connect) := by
  simp +decide [connectSocketMembers, sound_address hntop, sound_saddr hntop]

theorem rxHandoff_sound (ready : RxHandoffRecord) : Sound (rxHandoffMembers inetNtop ready) := by
  simp +decide [rxHandoffMembers, sound_saddr hntop, sound_daddr hntop]

/-- Every value of a line is sound, if the names that it takes from the table need no escape. -/
theorem Line.sound {line : Line} (hnames : ∀ name ∈ line.names, NameUnescaped name) :
    Sound (line.members inetNtop) := by
  cases line with
  | clockSnapshot fields => exact clockSnapshot_sound fields
  | probeStatus ts probe => exact probeStatus_sound ts probe
  | socketFlowLink flow ts => exact socketFlowLink_sound flow ts
  | flowStart flow => exact flowStart_sound hntop flow
  | flowEnd flow endTs reason incomplete => exact flowEnd_sound hntop flow endTs reason incomplete
  | ioStart session state protocol pending =>
      exact ioStart_sound (hnames _ List.mem_cons_self) pending.task
  | ioEnd fields => exact ioEnd_sound (hnames _ List.mem_cons_self)
  | ioComplete fields => exact ioComplete_sound fields
  | packetIoLink fields => exact packetIoLink_sound fields
  | networkSyscall fields => exact networkSyscall_sound fields
  | socketCreate fields => exact socketCreate_sound fields
  | socketState fields => exact socketState_sound hntop fields
  | socketEvent fields => exact socketEvent_sound hntop (hnames _ List.mem_cons_self)
  | packetEvent fields => exact packetEvent_sound hntop (hnames _ List.mem_cons_self)
  | connectAttemptStart salt connect => exact connectAttemptStart_sound hntop salt connect
  | connectSocket salt connect => exact connectSocket_sound hntop salt connect
  | connectAttemptEnd salt connect => exact connectAttemptEnd_sound salt connect
  | connectSoError salt connect => exact connectSoError_sound salt connect
  | connectCancel salt connect => exact connectCancel_sound salt connect
  | rxHandoff ready => exact rxHandoff_sound hntop ready
  | lostEvents ts cpu count => exact lostEvents_sound ts cpu count
  | rxContext fields => exact rxContext_sound fields
  | traceEnd fields => exact traceEnd_sound fields

end Addresses

/-! ## Keys -/

/-- Keys that are different and need no escape. -/
def isKeyList (keys : List String) : Bool :=
  decide keys.Nodup && keys.all fun key => isUnescaped key.toList

/-- The keys of a line are different and need no escape. -/
def Keyed (members : List Member) : Prop := isKeyList ("schema" :: members.map Prod.fst) = true

def KeyedIn (members : List Member) (keys : List String) : Prop :=
  (members.map Prod.fst).Sublist keys

/-- Keys that are some of distinct plain keys are distinct and plain. -/
theorem isKeyList_sublist {keys more : List String} (h : keys.Sublist more)
    (hkeys : isKeyList more = true) :
    isKeyList keys = true := by
  obtain ⟨hnodup, hall⟩ := Bool.and_eq_true_iff.mp hkeys
  refine Bool.and_eq_true_iff.mpr ⟨decide_eq_true ((of_decide_eq_true hnodup).sublist h), ?_⟩
  exact List.all_eq_true.mpr fun key hkey => List.all_eq_true.mp hall key (h.subset hkey)

/-- Members under distinct plain keys make a record that can be read. -/
theorem KeyedIn.keyed {members : List Member} {keys : List String} (h : KeyedIn members keys)
    (hkeys : isKeyList ("schema" :: keys) = true) : Keyed members :=
  isKeyList_sublist (h.cons_cons "schema") hkeys

theorem keyedIn_map (members : List Member) : KeyedIn members (members.map Prod.fst) :=
  List.Sublist.refl _

/-- No member needs no key. -/
theorem keyedIn_nil (keys : List String) : KeyedIn [] keys := List.nil_sublist keys

/-- Members under keys may be put together. -/
theorem keyedIn_append {members more : List Member} {keys others : List String}
    (h : KeyedIn members keys)
    (hmore : KeyedIn more others) : KeyedIn (members ++ more) (keys ++ others) := by
  unfold KeyedIn
  rw [List.map_append]
  exact h.append hmore

/-- A choice between members under the same keys. -/
theorem keyedIn_ite {condition : Prop} [Decidable condition] {members more : List Member}
    {keys : List String} (h : KeyedIn members keys) (hmore : KeyedIn more keys) :
    KeyedIn (if condition then members else more) keys := by
  split
  case isTrue => exact h
  case isFalse => exact hmore

theorem clockSnapshot_keyed (fields : ClockSnapshot) : Keyed (clockSnapshotMembers fields) := by
  refine (keyedIn_append (keyedIn_map _) (keyedIn_ite (keyedIn_map _) (keyedIn_nil _))).keyed ?_
  simp only [List.map_cons, List.map_nil]
  decide +kernel

/-- The keys of `export_syscall_wakeup`. -/
def wakeupKeys : List String :=
  "wakeup_status" :: (["run_start_ts_ns", "run_cpu"] ++
    (["waking_ts_ns", "wakeup_ts_ns", "waking_cpu", "waking_context"] ++
      (["waking_preempt_count"] ++
      ["waker_tid", "waker_tgid", "waker_task", "waker_start_time_ns"])))

theorem syscallWakeup_keyed (wakeup : Wakeup) :
    KeyedIn (syscallWakeupMembers wakeup) wakeupKeys := by
  refine keyedIn_ite (keyedIn_nil _) ((?_ : KeyedIn _ _).cons_cons "wakeup_status")
  refine keyedIn_ite (keyedIn_nil _) (keyedIn_append (keyedIn_map _) ?_)
  refine keyedIn_ite (keyedIn_nil _) (keyedIn_append (keyedIn_map _) (keyedIn_append ?_ ?_))
  · exact keyedIn_ite (keyedIn_map _) (keyedIn_nil _)
  · exact keyedIn_ite (keyedIn_map _) (keyedIn_nil _)

theorem networkSyscall_keyed (fields : NetworkSyscall) : Keyed (networkSyscallMembers fields) := by
  refine (keyedIn_append (keyedIn_map _) (syscallWakeup_keyed fields.wakeup)).keyed ?_
  simp only [List.map_cons, List.map_nil]
  decide +kernel

def socketSnapshotKeys : List String :=
  ["state", "wqlen", "rqlen", "state_name", "packets_out", "retrans_out", "snd_una"]

theorem socketSnapshot_keyed (protoL4 : UInt8) (snapshot : SocketSnapshot) :
    KeyedIn (socketSnapshotMembers protoL4 snapshot) socketSnapshotKeys :=
  keyedIn_append (keyedIn_map _) (keyedIn_ite (keyedIn_map _) (keyedIn_nil _))

/-- The keys at the end of `export_socket_event`. -/
def socketExtraKeys : List String := ["reset_reason"] ++ ["first_rtt_us", "last_rtt_us"]

theorem socketExtra_keyed (fields : SocketEvent) :
    KeyedIn (socketExtraMembers fields) socketExtraKeys :=
  keyedIn_ite (List.sublist_append_left _ _)
    (keyedIn_ite (List.sublist_append_right _ _) (keyedIn_nil _))

/-- The keys of a packet's ports or of its ICMP header. -/
def packetPortKeys : List String :=
  ["icmp_type", "icmp_code", "icmp_id", "icmp_seq"] ++ ["sport", "dport"]

theorem packetPort_keyed (fields : PacketEvent) :
    KeyedIn (packetPortMembers fields) packetPortKeys := by
  refine keyedIn_ite ?_ (List.sublist_append_right _ _)
  refine List.Sublist.trans ?_ (List.sublist_append_left _ _)
  exact keyedIn_append (keyedIn_map _) (keyedIn_ite (keyedIn_map _) (keyedIn_nil _))

/-- The keys of the header of a packet's protocol. -/
def packetHeaderKeys : List String :=
  ["tcp_seq", "tcp_ack", "tcp_flags"] ++ ["dns_transaction_id", "dns_transaction_id_hex"]

theorem packetHeader_keyed (fields : PacketEvent) :
    KeyedIn (packetHeaderMembers fields) packetHeaderKeys :=
  keyedIn_ite (List.sublist_append_left _ _)
    (keyedIn_ite (List.sublist_append_right _ _) (keyedIn_nil _))

theorem packetDrop_keyed (drop : Option PacketDrop) :
    KeyedIn ((drop.map packetDropMembers).getD []) ["drop_reason", "drop_location_id"] := by
  cases drop with
  | none => exact keyedIn_nil _
  | some drop => exact keyedIn_map _

/-- The keys of a queueing discipline. -/
def qdiscKeys : List String :=
  ["qdisc_qlen", "netdev_queue_state", "qdisc_flags"] ++ ["qdisc_last_update_jiffies"]

theorem qdisc_keyed (qdisc : Option Qdisc) :
    KeyedIn ((qdisc.map qdiscMembers).getD []) qdiscKeys := by
  cases qdisc with
  | none => exact keyedIn_nil _
  | some qdisc =>
      refine keyedIn_append (keyedIn_map _) ?_
      cases qdisc.lastUpdate with
      | none => exact keyedIn_nil _
      | some lastUpdate => exact keyedIn_map _

variable (inetNtop : Address → List Char)

theorem socketState_keyed (fields : SocketState) : Keyed (socketStateMembers inetNtop fields) := by
  refine (keyedIn_append (keyedIn_map _)
    (socketSnapshot_keyed fields.ske.protoL4 fields.snapshot)).keyed ?_
  simp only [List.map_cons, List.map_nil]
  decide +kernel

theorem socketEvent_keyed (fields : SocketEvent) : Keyed (socketEventMembers inetNtop fields) := by
  have hsnapshot := socketSnapshot_keyed fields.ske.protoL4 fields.snapshot
  have hend := keyedIn_append hsnapshot (socketExtra_keyed fields)
  refine (keyedIn_append (keyedIn_map _) hend).keyed ?_
  simp only [List.map_cons, List.map_nil]
  decide +kernel

theorem packetEvent_keyed (fields : PacketEvent) : Keyed (packetEventMembers inetNtop fields) := by
  have hoptional {condition : Prop} [Decidable condition] {members : List Member}
      {keys : List String}
      (h : KeyedIn members keys) : KeyedIn (if condition then members else []) keys :=
    keyedIn_ite h (keyedIn_nil _)
  refine (keyedIn_append (keyedIn_map _) (keyedIn_append (hoptional (keyedIn_map _))
    (keyedIn_append (packetPort_keyed fields) (keyedIn_append (hoptional (keyedIn_map _))
      (keyedIn_append (hoptional (keyedIn_map _)) (keyedIn_append (hoptional (keyedIn_map _))
        (keyedIn_append (packetHeader_keyed fields)
          (keyedIn_append (hoptional (packetDrop_keyed fields.drop))
          (hoptional (qdisc_keyed fields.qdisc)))))))))).keyed ?_
  simp only [List.map_cons, List.map_nil]
  decide +kernel

/-- The keys of a line are different and need no escape. -/
theorem Line.keyed (line : Line) : Keyed (line.members inetNtop) := by
  cases line with
  | clockSnapshot fields => exact clockSnapshot_keyed fields
  | networkSyscall fields => exact networkSyscall_keyed fields
  | socketState fields => exact socketState_keyed inetNtop fields
  | socketEvent fields => exact socketEvent_keyed inetNtop fields
  | packetEvent fields => exact packetEvent_keyed inetNtop fields
  | _ =>
      -- The other formats have no optional members.
      simp only [Keyed, members, probeStatusMembers, socketFlowLinkMembers, flowStartMembers,
        flowEndMembers,
        ioStartMembers, ioEndMembers, ioCompleteMembers, packetIoLinkMembers, socketCreateMembers,
        connectAttemptStartMembers, connectSocketMembers, connectAttemptEndMembers,
          connectSoErrorMembers,
        connectCancelMembers, rxHandoffMembers, lostEventsMembers, rxContextMembers,
          traceEndMembers, List.map_cons,
        List.map_nil]
      decide +kernel

end Anettrace.Jsonl
