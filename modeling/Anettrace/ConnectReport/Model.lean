import Anettrace.Diagnose.Model

/-!
# The connect report

`tools/connect_diagnostics.py` on records of every kind. A record is a JSON object: its values go
through `int()`, `str()` and `bool()` where the script converts them, and a value that cannot be
converted, or a key that is not there, ends the analysis. An attempt collects what its records say
and the records themselves as evidence; a report classifies it.
-/

namespace Anettrace.ConnectReport

open Diagnose (Outcome Strength ReportStatus pendingErrnos localRejectionErrnos
  networkUnreachableErrnos)

/-! ## JSON values -/

/-- A value of `json.loads`. Numbers that are not integers come with their text and with what
`int()` makes of them; arrays and objects come with their text. -/
inductive Value where
  | null
  | bool (value : Bool)
  | int (value : Int)
  | real (text : String) (truncated : Option Int) (zero : Bool)
  | str (text : String)
  | other (text : String) (empty : Bool)
  deriving DecidableEq, Repr

/-- The zeros of the decimal digits of Unicode: nine more digits follow each of them. -/
def digitZeros : List Nat :=
  [0x30, 0x660, 0x6F0, 0x7C0, 0x966, 0x9E6, 0xA66, 0xAE6, 0xB66, 0xBE6, 0xC66, 0xCE6, 0xD66, 0xDE6,
    0xE50, 0xED0, 0xF20, 0x1040, 0x1090, 0x17E0, 0x1810, 0x1946, 0x19D0, 0x1A80, 0x1A90, 0x1B50,
    0x1BB0, 0x1C40, 0x1C50, 0xA620, 0xA8D0, 0xA900, 0xA9D0, 0xA9F0, 0xAA50, 0xABF0, 0xFF10, 0x104A0,
    0x10D30, 0x11066, 0x110F0, 0x11136, 0x111D0, 0x112F0, 0x11450, 0x114D0, 0x11650, 0x116C0,
    0x11730, 0x118E0, 0x11950, 0x11C50, 0x11D50, 0x11DA0, 0x11F50, 0x16A60, 0x16AC0, 0x16B50,
    0x1D7CE, 0x1D7D8, 0x1D7E2, 0x1D7EC, 0x1D7F6, 0x1E140, 0x1E2F0, 0x1E4F0, 0x1E950, 0x1FBF0]

/-- The value of a decimal digit. -/
def digitOf (char : Char) : Option Nat :=
  (digitZeros.find? fun first => first ≤ char.toNat && char.toNat < first + 10).map fun first =>
    char.toNat - first

/-- `str.isspace()` on one character. -/
def isBlank (char : Char) : Bool :=
  let code := char.toNat
  (9 ≤ code && code ≤ 13) || (28 ≤ code && code ≤ 32) || (0x2000 ≤ code && code ≤ 0x200A) ||
    [0x85, 0xA0, 0x1680, 0x2028, 0x2029, 0x202F, 0x205F, 0x3000].contains code

/-- The digits of `int()` on a string. Single underscores may stand between them. -/
def digitsFrom (value : Nat) (afterDigit : Bool) : List Char → Option Nat
  | [] => if afterDigit then some value else none
  | char :: rest =>
      match digitOf char with
      | some digit => digitsFrom (10 * value + digit) true rest
      | none => if char = '_' && afterDigit then digitsFrom value false rest else none

def intOfString (text : String) : Option Int :=
  let stripped := ((text.toList.dropWhile isBlank).reverse.dropWhile isBlank).reverse
  match stripped with
  | '-' :: digits => (digitsFrom 0 false digits).map fun value => -(value : Int)
  | '+' :: digits => (digitsFrom 0 false digits).map fun value => (value : Int)
  | digits => (digitsFrom 0 false digits).map fun value => (value : Int)

namespace Value

def truthy : Value → Bool
  | null => false
  | bool value => value
  | int value => value != 0
  | real _ _ zero => !zero
  | str text => text != ""
  | other _ empty => !empty

def text : Value → String
  | null => "None"
  | bool value => if value then "True" else "False"
  | int value => toString value
  | real text _ _ => text
  | str text => text
  | other text _ => text

def toInt : Value → Option Int
  | null => none
  | bool value => some (if value then 1 else 0)
  | int value => some value
  | real _ truncated _ => truncated
  | str text => intOfString text
  | other _ _ => none

/-- `value in (None, "", 0)` -/
def blank : Value → Bool
  | null => true
  | bool value => !value
  | int value => value == 0
  | real _ _ zero => zero
  | str text => text == ""
  | other _ _ => false

end Value

/-- A record of the event stream. -/
abbrev Record := List (String × Value)

/-- The exceptions of the analysis. -/
inductive RecordError where
  | key (name : String)
  | notAnInteger (name : String)
  | duplicateAttempt (attemptId : String)
  | sharedSocket (socketId : String)
  deriving DecidableEq, Repr

/-- `set.add` -/
def addOnce {α : Type} [DecidableEq α] (item : α) (items : List α) : List α :=
  if item ∈ items then items else items ++ [item]

namespace Record

def get (record : Record) (name : String) : Option Value :=
  (record.find? fun entry => entry.1 = name).map Prod.snd

def isType (record : Record) (name : String) : Bool := record.get "type" = some (.str name)

def getText (record : Record) (name : String) (default : String) : String :=
  match record.get name with
  | some value => value.text
  | none => default

def flag (record : Record) (name : String) : Bool := (record.get name).any Value.truthy

def convert (name : String) (value : Value) : Except RecordError Int :=
  match value.toInt with
  | some number => .ok number
  | none => .error (.notAnInteger name)

def needInt (record : Record) (name : String) : Except RecordError Int :=
  match record.get name with
  | some value => convert name value
  | none => .error (.key name)

def getInt (record : Record) (name : String) (default : Int) : Except RecordError Int :=
  match record.get name with
  | some value => convert name value
  | none => .ok default

def needText (record : Record) (name : String) : Except RecordError String :=
  match record.get name with
  | some value => .ok value.text
  | none => .error (.key name)

def firstOf (record : Record) : List String → String
  | [] => ""
  | name :: names =>
      match record.get name with
      | some value => if value.truthy then value.text else firstOf record names
      | none => firstOf record names

/-- The numbers of a set and the one of a record, which may be missing or null. -/
def collect (record : Record) (name : String) (items : List Int) : Except RecordError (List Int) :=
  match record.get name with
  | none | some .null => .ok items
  | some value => (convert name value).map fun number => addOnce number items

def attemptKey (record : Record) : String := record.getText "attempt_id" ""

def socketKey (record : Record) : String :=
  record.firstOf ["socket_instance_id", "owner_socket_id", "socket_id"]

end Record

/-! ## Attempts -/

/-- `attempt.endpoint` -/
structure Endpoint where
  localAddr : Value
  localPort : Value
  remoteAddr : Value
  remotePort : Value
  deriving DecidableEq, Repr

/-- The endpoint of a new attempt. -/
def Endpoint.empty : Endpoint := ⟨.str "", .int 0, .str "", .int 0⟩

/-- The loop over the names of one target in `_update_endpoint`. -/
def updateTarget (record : Record) (current : Value) : List String → Value
  | [] => current
  | name :: names =>
      match record.get name with
      | some value => if value.blank then updateTarget record current names else value
      | none => updateTarget record current names

def Endpoint.update (endpoint : Endpoint) (record : Record) : Endpoint where
  localAddr := updateTarget record endpoint.localAddr ["local_addr", "saddr"]
  localPort := updateTarget record endpoint.localPort ["local_port", "sport"]
  remoteAddr := updateTarget record endpoint.remoteAddr ["remote_addr", "daddr"]
  remotePort := updateTarget record endpoint.remotePort ["remote_port", "dport"]

/-- `Attempt`. The three sets are lists without repetition. -/
structure Attempt extends Diagnose.Signs where
  attemptId : String
  uid : Int
  tid : Int
  tgid : Int
  fd : Int
  startedNs : Int
  task : String
  socketInstanceId : Option String
  endedNs : Option Int
  state : String
  endpoint : Endpoint
  evidence : List Record
  retransmissions : Int
  rttSamples : List Int
  schedDelays : List Int
  interfaces : List String
  networkNamespaces : List Int
  socketMarks : List Int
  deriving DecidableEq, Repr

/-- A bit of an integer of unbounded width. -/
def bit (number : Int) (place : Nat) : Bool := number / 2 ^ place % 2 = 1

namespace Attempt

def addEvidence (attempt : Attempt) (record : Record) (evidenceType : String) : Attempt :=
  let evidence := record.filter (fun entry => entry.1 ∉ ["schema", "type", "task"]) ++
    [("type", .str evidenceType)]
  let evidence :=
    if (record.get "ts_ns").isSome then evidence
    else evidence ++ [("ts_ns", .int attempt.startedNs)]
  { attempt with evidence := attempt.evidence ++ [evidence] }

def started (record : Record) (attemptId : String) : Except RecordError Attempt := do
  let uid ← record.needInt "uid"
  let tid ← record.needInt "tid"
  let tgid ← record.needInt "tgid"
  let fd ← record.needInt "fd"
  let startedNs ← record.needInt "ts_ns"
  let attempt : Attempt :=
    { attemptId, uid, tid, tgid, fd, startedNs
      task := record.getText "task" ""
      socketInstanceId := none
      endedNs := none
      result := none
      error := none
      asyncPending := false
      soError := none
      established := false
      state := ""
      resetWhileConnecting := false
      exactDrop := false
      cancelled := false
      endpoint := Endpoint.empty.update record
      evidence := []
      retransmissions := 0
      rttSamples := []
      schedDelays := []
      interfaces := []
      networkNamespaces := []
      socketMarks := [] }
  .ok (attempt.addEvidence record "connect_attempt_start")

def observeNetworkContext (attempt : Attempt) (record : Record) : Except RecordError Attempt := do
  let interface := record.getText "ifname" ""
  let interfaces := if interface = "" then attempt.interfaces
    else addOnce interface attempt.interfaces
  let namespaces ← record.collect "netns" attempt.networkNamespaces
  let marks ← record.collect "mark" attempt.socketMarks
  .ok { attempt with
    interfaces := interfaces
    networkNamespaces := namespaces
    socketMarks := marks }

def associate (attempt : Attempt) (record : Record) (socketId : String) : Attempt :=
  { attempt with
    socketInstanceId := some socketId, endpoint :=
      attempt.endpoint.update record }.addEvidence record
      "connect_socket"

def endIf (attempt : Attempt) (record : Record) (ends : Bool) (endOf : Int → Int) :
    Except RecordError Attempt :=
  if ends then
    (record.needInt "ts_ns").map fun tsNs => { attempt with endedNs := some (endOf tsNs) }
  else .ok attempt

def laterEnd (attempt : Attempt) (tsNs : Int) : Int := max (attempt.endedNs.getD 0) tsNs

def observeEnd (attempt : Attempt) (record : Record) : Except RecordError Attempt := do
  let result ← record.needInt "result"
  let error ← record.getInt "error" 0
  let asyncPending := record.flag "async_pending"
  let attempt ←
    { attempt with result := some result, error := some error, asyncPending := asyncPending }.endIf
      record (!asyncPending) id
  .ok (attempt.addEvidence record "connect_attempt_end")

def observeSoError (attempt : Attempt) (record : Record) : Except RecordError Attempt := do
  let error ← record.needInt "error"
  let attempt ← { attempt with soError := some error }.endIf record (error ∉ pendingErrnos)
    attempt.laterEnd
  .ok (attempt.addEvidence record "connect_so_error")

def observeState (attempt : Attempt) (record : Record) : Except RecordError Attempt := do
  let stateBefore := attempt.state
  let state := record.getText "new_state_name" ""
  let established := attempt.established || state = "ESTABLISHED"
  let attempt ← { attempt with state := state, established := established }.endIf record
    (attempt.asyncPending && established && attempt.soError = some 0) attempt.laterEnd
  let attempt := attempt.addEvidence record "socket_state"
  .ok (if record.flag "tcp_rst" && stateBefore = "SYN_SENT" then
    { attempt with resetWhileConnecting := true } else attempt)

/-- The reset that a `connect_reset` record reports: it is exact and hits a connection that is being
opened. -/
def isReset (attempt : Attempt) (record : Record) : Bool :=
  record.flag "exact" && record.getText "state" attempt.state = "SYN_SENT"

def observeReset (attempt : Attempt) (record : Record) : Except RecordError Attempt := do
  let reset := attempt.isReset record
  let attempt ← { attempt with resetWhileConnecting := reset }.endIf record reset id
  .ok (attempt.addEvidence record "connect_reset")

def observeDrop (attempt : Attempt) (record : Record) : Except RecordError Attempt :=
  .ok ({ attempt with exactDrop := record.flag "exact" }.addEvidence record "connect_drop")

def observeRetransmit (attempt : Attempt) (record : Record) : Except RecordError Attempt := do
  let count ← record.getInt "count" 1
  .ok ({ attempt with retransmissions := attempt.retransmissions + max 1 count }.addEvidence record
    "connect_retransmit")

/-- A `connect_rtt` record, or an event that reports the first round trip, with the key of the
time. -/
def observeRtt (attempt : Attempt) (record : Record) (name : String) :
    Except RecordError Attempt := do
  let rtt ← record.needInt name
  .ok ({ attempt with rttSamples := attempt.rttSamples ++ [rtt] }.addEvidence record "connect_rtt")

def observeSchedDelay (attempt : Attempt) (record : Record) : Except RecordError Attempt := do
  let delay ← record.needInt "delay_ns"
  .ok ({ attempt with schedDelays := attempt.schedDelays ++ [delay] }.addEvidence record
    "connect_sched_delay")

def observeCancel (attempt : Attempt) (record : Record) : Except RecordError Attempt := do
  let cancelled := record.flag "exact"
  let attempt ← { attempt with cancelled := cancelled }.endIf record cancelled id
  .ok (attempt.addEvidence record "connect_cancel")

def observeSocketEvent (attempt : Attempt) (record : Record) : Except RecordError Attempt :=
  let stage := record.getText "stage" ""
  if stage ∈ ["tcp_v4_send_reset", "tcp_v6_send_reset", "tcp_send_active_reset"] then
    .ok (attempt.addEvidence record "connect_local_reset")
  else if stage ∈ ["connect_tcp_retransmit", "tcp_retransmit_skb", "__tcp_retransmit_skb"] then
    .ok ({ attempt with retransmissions := attempt.retransmissions + 1 }.addEvidence record
      "connect_retransmit")
  else if stage = "tcp_ack_update_rtt" ∧ (record.get "first_rtt_us").isSome then
    attempt.observeRtt record "first_rtt_us"
  else if stage ∈ ["tcp_close", "tcp_v4_destroy_sock"] ∧ attempt.asyncPending ∧
      attempt.established = false then do
    let attempt ← { attempt with cancelled := true }.endIf record true id
    .ok (attempt.addEvidence record "connect_cancel")
  else .ok attempt

/-- The reset of a `packet_event`: a received RST for a connection that is being opened. -/
def observePacketReset (attempt : Attempt) (record : Record) (tcpFlags : Int) :
    Except RecordError Attempt :=
  if bit tcpFlags 2 ∧ record.getText "direction" "" = "rx" ∧ attempt.state = "SYN_SENT" then do
    let attempt ← { attempt with resetWhileConnecting := true }.endIf record true id
    .ok (attempt.addEvidence record "connect_reset")
  else .ok attempt

/-- The drop of a `packet_event`: a SYN that the kernel freed before it was sent. -/
def observePacketDrop (attempt : Attempt) (record : Record) (tcpFlags : Int) : Attempt :=
  let isConnectSyn := bit tcpFlags 1 && !bit tcpFlags 4
  if record.flag "dropped" ∧ record.getText "stage" "" = "kfree_skb" ∧ isConnectSyn ∧
      record.getText "direction" "" = "tx" then
    { attempt with exactDrop := true }.addEvidence record "connect_drop"
  else attempt

def observePacket (attempt : Attempt) (record : Record) : Except RecordError Attempt := do
  let tcpFlags ← record.getInt "tcp_flags" 0
  let attempt ← attempt.observePacketReset record tcpFlags
  .ok (attempt.observePacketDrop record tcpFlags)

/-- What a record other than a start and an association changes in its attempt. -/
def observe (attempt : Attempt) (record : Record) : Except RecordError Attempt :=
  if record.isType "connect_attempt_end" then attempt.observeEnd record
  else if record.isType "connect_so_error" then attempt.observeSoError record
  else if record.isType "socket_state" then attempt.observeState record
  else if record.isType "connect_reset" then attempt.observeReset record
  else if record.isType "connect_drop" then attempt.observeDrop record
  else if record.isType "connect_retransmit" then attempt.observeRetransmit record
  else if record.isType "connect_rtt" then attempt.observeRtt record "rtt_us"
  else if record.isType "connect_sched_delay" then attempt.observeSchedDelay record
  else if record.isType "connect_cancel" then attempt.observeCancel record
  else if record.isType "socket_event" then attempt.observeSocketEvent record
  else if record.isType "packet_event" then attempt.observePacket record
  else .ok attempt

def missingEvidence (attempt : Attempt) (outcome : Outcome) (status : ReportStatus) : List String :=
  if outcome ≠ .incompleteOrUnknown then []
  else
    let missing :=
      (if status = .invalid then ["valid_core_event_stream"] else []) ++
      (if attempt.result = none then ["connect_syscall_return"] else []) ++
      (if attempt.socketInstanceId = none then ["socket_association"] else []) ++
      (if attempt.asyncPending then
        (if attempt.established then [] else ["established_socket_state"]) ++
        (if attempt.soError.all (· ∈ pendingErrnos) then ["terminal_so_error"] else [])
      else []) ++
      (if attempt.effectiveError.isSome then ["recognized_errno_mapping"] else [])
    if missing = [] then ["terminal_outcome_evidence"] else missing

/-- `contributing_factors` -/
def factors (attempt : Attempt) (outcome : Outcome) : List String :=
  (if attempt.retransmissions ≠ 0 then ["tcp_retransmission"] else []) ++
  (if attempt.exactDrop && outcome ≠ .kernelDrop then ["connect_syn_drop"] else []) ++
  (if attempt.rttSamples ≠ [] then ["rtt_observed"] else []) ++
  (if attempt.schedDelays ≠ [] then ["scheduler_delay_observed"] else [])

end Attempt

/-- One entry of `android_fwmarks`. -/
structure Fwmark where
  mark : Int
  netId : Int
  explicitlySelected : Bool
  protectedFromVpn : Bool
  deriving DecidableEq, Repr

/-- What a report says of an attempt. The name of its error is left to its number. -/
structure AttemptReport where
  attemptId : String
  socketInstanceId : Option String
  uid : Int
  tid : Int
  tgid : Int
  fd : Int
  startedNs : Int
  endedNs : Int
  durationNs : Int
  outcome : Outcome
  strength : Strength
  errno : Option Int
  endpoint : Endpoint
  interfaces : List String
  networkNamespaceIds : List Int
  androidFwmarks : List Fwmark
  evidence : List Record
  factors : List String
  missingEvidence : List String
  deriving DecidableEq, Repr

def Attempt.report (attempt : Attempt) (status : ReportStatus) (traceEndNs : Int) : AttemptReport :=
  let (outcome, strength) := attempt.classify status
  let endNs := attempt.endedNs.getD traceEndNs
  { attemptId := attempt.attemptId
    socketInstanceId := attempt.socketInstanceId
    uid := attempt.uid
    tid := attempt.tid
    tgid := attempt.tgid
    fd := attempt.fd
    startedNs := attempt.startedNs
    endedNs := endNs
    durationNs := max 0 (endNs - attempt.startedNs)
    outcome := outcome
    strength := strength
    errno := attempt.effectiveError
    endpoint := attempt.endpoint
    interfaces := attempt.interfaces.mergeSort fun first second => first ≤ second
    networkNamespaceIds := attempt.networkNamespaces.mergeSort fun first second => first ≤ second
    androidFwmarks :=
      (attempt.socketMarks.mergeSort fun first second => first ≤ second).map fun mark =>
        ⟨mark, mark % 65536, bit mark 16, bit mark 17⟩
    evidence := attempt.evidence
    factors := attempt.factors outcome
    missingEvidence := attempt.missingEvidence outcome status }

end Anettrace.ConnectReport
