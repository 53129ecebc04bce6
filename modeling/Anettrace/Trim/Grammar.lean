import Anettrace.Trim.Model
import Anettrace.Library.Fallible

/-!
# The traces the trimmer accepts, and what they mean

`IsTrace` is the grammar: a sequence of packets, each a message whose nested messages parse too.
Over it stand the meaning of a packet (its timestamp, its effective clock, its events) and the
trimmed trace, `kept`, which says which packets stay and with which fields. None of this mentions
the buffers and the lists of the program.
-/

namespace Anettrace.Trim

open Library
open Fallible (foldlM_concat_ok)

/-! ## The grammar -/

def WireField.isMessage (field : WireField) (number : Nat) : Bool :=
  field.number = number && field.wire = 2

/-- An ftrace bundle: no compact form, and every event is a message. -/
structure IsBundle (payload : List UInt8) (fields : List WireField) : Prop where
  message : IsMessage payload fields
  compact : ∀ field ∈ fields, field.number ≠ 4
  events : ∀ field ∈ fields, field.isMessage 2 = true → ∃ inner, IsMessage field.payload inner

/-- A trace packet, as its fields. -/
abbrev Packet := List WireField

def Packet.bytes (packet : Packet) : List UInt8 :=
  packet.flatMap WireField.bytes

/-- A packet: no compressed packets or unsupported forms, and its nested messages parse. -/
structure IsPacket (bytes : List UInt8) (packet : Packet) : Prop where
  message : IsMessage bytes packet
  supported : ∀ field ∈ packet, field.number ≠ 50 ∧ field.number ≠ 133
  defaults : ∀ field ∈ packet, field.isMessage 59 = true → ∃ inner, IsMessage field.payload inner
  bundles : ∀ field ∈ packet, field.isMessage 1 = true → ∃ inner, IsBundle field.payload inner

/-- A trace: packets as length-delimited fields of number 1. -/
inductive IsTrace : List UInt8 → List Packet → Prop where
  | nil : IsTrace [] []
  | cons {keyBytes lengthBytes bytes rest : List UInt8} {packet : Packet} {packets : List Packet}
      (hkey : IsVarint keyBytes 10) (hlength : IsVarint lengthBytes bytes.length)
      (hpacket : IsPacket bytes packet) (hrest : IsTrace rest packets) :
      IsTrace (keyBytes ++ lengthBytes ++ bytes ++ rest) (packet :: packets)

/-! ## Meaning -/

def parseFields (message : List UInt8) : List WireField :=
  match forFields (fun fields field => .ok (fields ++ [field])) [] message with
  | .ok fields => fields
  | .error _ => []

def lastVarint (number : Nat) (fields : List WireField) : Option Nat :=
  (fields.reverse.find? fun field => field.number = number && field.wire = 0).map WireField.value

/-- The timestamp of an event of a bundle. -/
def eventTime (event : WireField) : Option Nat :=
  lastVarint 1 (parseFields event.payload)

/-- An event the trimmer removes. -/
def isOldEvent (cutoff : Nat) (field : WireField) : Bool :=
  field.isMessage 2 && (eventTime field).any (· < cutoff)

def bundleKept (cutoff : Nat) (bundle : WireField) : List WireField :=
  (parseFields bundle.payload).filter fun field => !isOldEvent cutoff field

namespace Packet

variable (packet : Packet)

def timestamp : Option Nat :=
  lastVarint 8 packet

/-- The clock the packet names itself; zero names none. -/
def clock : Nat :=
  (lastVarint 58 packet).getD 0

def sequence : Option Nat :=
  lastVarint 10 packet

/-- The packet carries ftrace events. -/
def hasFtrace : Bool :=
  packet.any (·.isMessage 1)

/-- The default clock the packet sets for its sequence: the one its last defaults name. -/
def defaultClock : Option Nat :=
  (packet.reverse.find? (·.isMessage 59)).bind fun field =>
    lastVarint 58 (parseFields field.payload)

def setsDefault (sequence : Nat) : Option Nat :=
  if packet.sequence = some sequence then packet.defaultClock else none

end Packet

def latestDefault (seen : List Packet) (sequence : Nat) : Option Nat :=
  seen.reverse.findSome? fun packet => packet.setsDefault sequence

/-- The clock that a default of zero, or the absence of one, stands for. -/
def orBoottime (clock : Nat) : Nat :=
  if clock = 0 then clockBoottime else clock

def effectiveClock (seen : List Packet) (packet : Packet) : Nat :=
  if packet.clock ≠ 0 then packet.clock
  else
    match packet.sequence with
    | none => clockBoottime
    | some sequence => orBoottime ((latestDefault seen sequence).getD 0)

/-- The two cutoffs. -/
structure Cutoffs where
  boottime : Nat
  monotonic : Nat
  deriving DecidableEq, Repr

/-- A timestamped packet without ftrace events that is too old for its effective clock. -/
def isDropped (cutoffs : Cutoffs) (seen : List Packet) (packet : Packet) : Bool :=
  !packet.hasFtrace && packet.timestamp.any fun timestamp =>
    (effectiveClock seen packet = clockBoottime && timestamp < cutoffs.boottime) ||
      (effectiveClock seen packet = clockMonotonic && timestamp < cutoffs.monotonic)

/-- A field of a packet after trimming: a bundle is written anew with the fields that stay. -/
def trimField (cutoff : Nat) (field : WireField) : WireField :=
  if field.isMessage 1 then
    let payload := (bundleKept cutoff field).flatMap WireField.bytes
    { field with
      bytes := bufferVarint field.key ++ (bufferVarint payload.length ++ payload)
      payload := payload }
  else field

def Packet.trim (cutoffs : Cutoffs) (packet : Packet) : Packet :=
  packet.map (trimField cutoffs.boottime)

/-- The packets that stay, trimmed, given those seen before. -/
def keptFrom (cutoffs : Cutoffs) (seen : List Packet) : List Packet → List Packet
  | [] => []
  | packet :: rest =>
      if isDropped cutoffs (seen ++ [packet]) packet then keptFrom cutoffs (seen ++ [packet]) rest
      else packet.trim cutoffs :: keptFrom cutoffs (seen ++ [packet]) rest

/-- The trimmed trace. -/
def kept (cutoffs : Cutoffs) (packets : List Packet) : List Packet :=
  keptFrom cutoffs [] packets

/-- A packet as the trimmer writes it. -/
def Packet.frame (packet : Packet) : List UInt8 :=
  bufferVarint 10 ++ bufferVarint packet.bytes.length ++ packet.bytes

/-! ## Reading nested messages -/

theorem parseFields_eq {message : List UInt8} {fields : List WireField}
    (h : IsMessage message fields) : parseFields message = fields := by
  have hfold : ∀ start : List WireField,
      fields.foldlM (m := Except Errno) (fun fields field => .ok (fields ++ [field])) start =
        .ok (start ++ fields) := by
    intro start
    induction fields generalizing start message with
    | nil => rw [List.append_nil]; rfl
    | cons field rest ih =>
        have hrest : IsMessage (rest.flatMap WireField.bytes) rest :=
          ⟨rfl, fun other hother => h.2 other (List.mem_cons_of_mem _ hother)⟩
        rw [List.foldlM_cons]
        show rest.foldlM _ (start ++ [field]) = _
        rw [ih hrest, List.append_assoc]
        rfl
  have hloop : forFields (fun fields field => .ok (fields ++ [field])) [] message =
      .ok ([] ++ fields) :=
    for_fields_iff.mpr ⟨fields, h, hfold []⟩
  rw [parseFields, hloop, List.nil_append]

theorem lastVarint_concat (number : Nat) (fields : List WireField) (field : WireField) :
    lastVarint number (fields ++ [field]) =
      if field.number = number ∧ field.wire = 0 then some field.value
      else lastVarint number fields := by
  unfold lastVarint
  rw [List.reverse_append, List.reverse_singleton, List.singleton_append, List.find?_cons]
  by_cases hfield : field.number = number ∧ field.wire = 0
  · simp [hfield]
  · have hfalse : (decide (field.number = number) && decide (field.wire = 0)) = false := by
      simpa using fun hnumber hwire => hfield ⟨hnumber, hwire⟩
    simp only [hfalse, if_neg hfield]

theorem message_varint_iff {message : List UInt8} {number : Nat} {found : Option Nat} :
    messageVarint message number = .ok found ↔
      ∃ fields, IsMessage message fields ∧ found = lastVarint number fields := by
  have hfold : ∀ fields : List WireField,
      fields.foldlM (m := Except Errno) (fun found field => .ok
        (if field.number = number ∧ field.wire = 0 then some field.value else found)) none =
        .ok (lastVarint number fields) := by
    intro fields
    induction fields using List.reverseRecOn with
    | nil => rfl
    | append_singleton fields field ih =>
        refine foldlM_concat_ok.mpr ⟨_, ih, ?_⟩
        rw [lastVarint_concat]
  rw [messageVarint, for_fields_iff]
  constructor
  · rintro ⟨fields, hmessage, hok⟩
    rw [hfold] at hok
    cases hok
    exact ⟨fields, hmessage, rfl⟩
  · rintro ⟨fields, hmessage, rfl⟩
    exact ⟨fields, hmessage, hfold fields⟩

end Anettrace.Trim
