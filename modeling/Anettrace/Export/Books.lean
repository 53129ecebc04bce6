import Anettrace.Export.Step
import Anettrace.Library.Labelled
import Anettrace.Library.Table

/-!
# The books of the exporter

What the exporter is for, as an abstract machine: it keeps an account for every flow and the
protocol calls in progress, and writes records. A move opens, credits or ends an account, begins,
links or ends a call, or exports a syscall. Timestamps, owners, addresses and the searches that
choose a flow are not part of it; `Anettrace.Export.Simulation` shows that every step of the
exporter is a sequence of moves.
-/

namespace Anettrace.Export

open Library.Labelled Library.Table

/-- The totals of a flow. -/
structure Account where
  id : UInt64
  active : Bool
  txBytes : UInt64
  rxBytes : UInt64
  txPackets : UInt64
  rxPackets : UInt64
  deriving DecidableEq

/-- A flow that has seen no traffic. -/
def Account.fresh (id : UInt64) : Account :=
  ⟨id, true, 0, 0, 0, 0⟩

def Account.count (account : Account) : Direction → Account
  | .tx => { account with txPackets := account.txPackets + 1 }
  | .rx => { account with rxPackets := account.rxPackets + 1 }
  | .unknown => account

/-- The bytes of a finished call. -/
def Account.credit (account : Account) (tx : Bool) (bytes : UInt64) : Account :=
  if tx then { account with txBytes := account.txBytes + bytes }
  else { account with rxBytes := account.rxBytes + bytes }

/-- No more traffic. -/
def Account.ended (account : Account) : Account :=
  { account with active := false }

/-- A `flow_end` record reports the totals of an account. -/
structure Account.Reports (account : Account) (record : FlowEnd) : Prop where
  flowId : record.flowId = account.id
  txBytes : record.txBytes = account.txBytes
  rxBytes : record.rxBytes = account.rxBytes
  txPackets : record.txPackets = account.txPackets
  rxPackets : record.rxPackets = account.rxPackets

def FlowState.account (flow : FlowState) : Account :=
  ⟨flow.id, flow.active, flow.txBytes, flow.rxBytes, flow.txPackets, flow.rxPackets⟩

/-- The accounts of the flows, the protocol calls in progress, and the records written. -/
structure Books where
  accounts : List Account
  calls : List PendingIo
  out : List Record

/-- The books before anything happened. -/
def Books.empty : Books :=
  ⟨[], [], []⟩

/-- The identities of all accounts, in the order of their opening. -/
def Books.ids (books : Books) : List UInt64 :=
  books.accounts.map Account.id

def State.books (state : State) : Books :=
  ⟨state.flows.map FlowState.account, state.ios, state.out⟩

/-- What is seen of a move from outside. -/
inductive Label where
  | anchored (flowId : UInt64) (direction : Direction)
  | ended (record : FlowEnd)
  | accepted (ioId : UInt64)
  | exported (record : NetworkSyscall)

/-- A call takes the place of an ended one, or a new place. -/
inductive Placed (calls : List PendingIo) (call : PendingIo) : Nat → List PendingIo → Prop where
  | reused {place : Nat} {old : PendingIo} (hold : calls[place]? = some old)
      (hended : old.active = false) : Placed calls call place (calls.set place call)
  | added : Placed calls call calls.length (calls ++ [call])

/-- The flow a call ends with, and what that does to the accounts. -/
inductive Settles (accounts : List Account) (call : PendingIo) (bytes flowId : UInt64) :
    List Account → Prop where
  | credited {place : Nat} {account : Account} (haccount : accounts[place]? = some account)
      (hactive : account.active = true) (hclear : call.flowAmbiguous = false)
      (hflow : account.id = flowId) :
      Settles accounts call bytes flowId (accounts.set place (account.credit call.tx bytes))
  | unlinked (hflow : flowId = call.flowId)
      (hnone : flowId ≠ 0 →
        ∀ account ∈ accounts, account.active = true → account.id ≠ flowId) :
      Settles accounts call bytes flowId accounts

/-- The two records of the end of a call. -/
structure EndRecords (call : PendingIo) (ioEnd : IoEnd) (complete : IoComplete) : Prop where
  endId : ioEnd.ioId = call.ioId
  completeId : complete.ioId = call.ioId
  tx : complete.tx = call.tx
  flowId : ioEnd.flowId = complete.flowId
  endAssociation : ioEnd.association = { call with flowId := complete.flowId }.association
  completeAssociation :
    complete.association = { call with flowId := complete.flowId }.association

/-- The moves of the abstract machine. -/
inductive Move : Books → List Label → Books → Prop where
  | note {books : Books} (record : SocketFlowLink) :
      Move books [] { books with out := books.out ++ [.socketFlowLink record] }
  | exportCall {books : Books} (record : NetworkSyscall) :
      Move books [.exported record]
        { books with out := books.out ++ [.networkSyscall record] }
  | openFlow {books : Books} (record : FlowStart) :
      Move books []
        { books with
          accounts := books.accounts ++ [Account.fresh record.flowId]
          out := books.out ++ [.flowStart record] }
  | anchor {books : Books} {place : Nat} {account : Account} {direction : Direction}
      (haccount : books.accounts[place]? = some account) :
      Move books [.anchored account.id direction]
        { books with accounts := books.accounts.set place (account.count direction) }
  | endFlow {books : Books} {place : Nat} {account : Account} {record : FlowEnd}
      (haccount : books.accounts[place]? = some account) (hactive : account.active = true)
      (hrecord : account.Reports record) :
      Move books [.ended record]
        { books with
          accounts := books.accounts.set place account.ended
          out := books.out ++ [.flowEnd record] }
  | beginCall {books : Books} {call : PendingIo} {record : IoStart} {place : Nat}
      {calls : List PendingIo} (hplaced : Placed books.calls call place calls)
      (hactive : call.active = true) (hvisible : call.visible = true)
      (hclear : call.flowAmbiguous = false)
      (hknown : call.flowId = 0 ∨ call.flowId ∈ books.ids)
      (hthread : ∀ other ∈ books.calls, other.active = true → other.func = call.func →
        other.tid ≠ call.tid)
      (hsocket : ∀ other ∈ books.calls, other.active = true → other.tid = call.tid →
        other.socketId = call.socketId → other.tx ≠ call.tx)
      (hrecord : record.ioId = call.ioId) :
      Move books [.accepted call.ioId]
        { books with calls := calls, out := books.out ++ [.ioStart record] }
  | link {books : Books} (record : PacketIoLink)
      (hknown : record.flowId ∈ books.ids) :
      Move books []
        { books with
          calls := books.calls.map (linkIo record.ioId record.flowId)
          out := books.out ++ [.packetIoLink record] }
  | strayLink {books : Books} (record : PacketIoLink) (hflow : record.flowId = 0) :
      Move books [] { books with out := books.out ++ [.packetIoLink record] }
  | endCall {books : Books} {place : Nat} {call : PendingIo} {accounts : List Account}
      {ioEnd : IoEnd} {complete : IoComplete} (hcall : books.calls[place]? = some call)
      (hactive : call.active = true)
      (hsettles : Settles books.accounts call complete.bytes complete.flowId accounts)
      (hrecords : EndRecords call ioEnd complete) :
      Move books []
        { accounts := accounts
          calls := books.calls.set place
            { call with flowId := complete.flowId, active := false }
          out := books.out ++ [.ioEnd ioEnd, .ioComplete complete] }

/-! ## Sound books -/

/-- What holds of the calls in progress at all times. -/
structure Books.Sound (books : Books) : Prop where
  /-- The start of a call in progress is recorded. -/
  visible : ∀ call ∈ books.calls, call.active = true → call.visible = true
  /-- A call tied to several flows is tied to none. -/
  clear : ∀ call ∈ books.calls, call.active = true → call.flowAmbiguous = true → call.flowId = 0
  /-- A call is tied to a flow that exists. -/
  known : ∀ call ∈ books.calls, call.active = true →
    call.flowId = 0 ∨ call.flowId ∈ books.ids
  /-- A thread is at most once in a function. -/
  thread : ∀ (i j : Nat) (call other : PendingIo), books.calls[i]? = some call →
    books.calls[j]? = some other → call.active = true → other.active = true →
    call.func = other.func → call.tid = other.tid → i = j
  /-- A thread has at most one call on a socket in each direction. -/
  socket : ∀ (i j : Nat) (call other : PendingIo), books.calls[i]? = some call →
    books.calls[j]? = some other → call.active = true → other.active = true →
    call.tid = other.tid → call.socketId = other.socketId → call.tx = other.tx → i = j

theorem Books.sound_empty : Books.empty.Sound :=
  ⟨by simp [Books.empty], by simp [Books.empty], by simp [Books.empty], by simp [Books.empty],
    by simp [Books.empty]⟩

@[simp] theorem Account.count_id (account : Account) (direction : Direction) :
    (account.count direction).id = account.id := by
  cases direction <;> rfl

@[simp] theorem Account.credit_id (account : Account) (tx : Bool) (bytes : UInt64) :
    (account.credit tx bytes).id = account.id := by
  cases tx <;> rfl

section

variable {accounts after : List Account} {call : PendingIo} {bytes flowId : UInt64}
  (h : Settles accounts call bytes flowId after)
include h

theorem Settles.ids :
    after.map Account.id = accounts.map Account.id := by
  cases h with
  | credited haccount => exact map_set Account.id haccount (Account.credit_id _ _ _)
  | unlinked => rfl

theorem Settles.ambiguous (hclear : call.flowAmbiguous = true → call.flowId = 0)
    (hambiguous : call.flowAmbiguous = true) : flowId = 0 ∧ after = accounts := by
  cases h with
  | credited _ _ hunambiguous => rw [hambiguous] at hunambiguous; cases hunambiguous
  | unlinked hflow => exact ⟨hflow.trans (hclear hambiguous), rfl⟩

end

/-- No move closes or renames an account. -/
theorem Move.ids {before after : Books} {labels : List Label} (h : Move before labels after) :
    before.ids <+: after.ids := by
  cases h with
  | note | exportCall | beginCall | link | strayLink => exact List.prefix_refl _
  | openFlow record =>
      simp only [Books.ids, List.map_append]
      exact List.prefix_append _ _
  | @anchor _ account direction haccount =>
      have hsame := map_set Account.id haccount (account.count_id direction)
      simp only [Books.ids, hsame, List.prefix_refl]
  | @endFlow _ account _ haccount =>
      have hsame := @map_set _ _ _ _ _ account.ended Account.id haccount rfl
      simp only [Books.ids, hsame, List.prefix_refl]
  | endCall hcall hactive hsettles hrecords =>
      simp only [Books.ids, hsettles.ids, List.prefix_refl]

theorem Books.Sound.grow {before after : Books} (h : before.Sound)
    (hcalls : after.calls = before.calls) (hids : before.ids <+: after.ids) : after.Sound := by
  obtain ⟨hvisible, hclear, hknown, hthread, hsocket⟩ := h
  refine ⟨hcalls ▸ hvisible, hcalls ▸ hclear, ?_, hcalls ▸ hthread, hcalls ▸ hsocket⟩
  intro call hcall hactive
  rw [hcalls] at hcall
  exact (hknown call hcall hactive).imp_right fun hmem => hids.subset hmem

/-- A call in progress after a move is the continuation of one in progress before. -/
structure Continues (before after : Books) (old call : PendingIo) : Prop where
  active : old.active = true
  visible : call.visible = old.visible
  func : call.func = old.func
  tid : call.tid = old.tid
  socketId : call.socketId = old.socketId
  tx : call.tx = old.tx
  clear : call.flowAmbiguous = true → call.flowId = 0
  known : call.flowId = 0 ∨ call.flowId ∈ after.ids

/-- Books stay sound when every call in progress continues the call at its place. -/
theorem Books.Sound.continue {before after : Books} (h : before.Sound)
    (hcalls : ∀ (i : Nat) (call : PendingIo), after.calls[i]? = some call → call.active = true →
      ∃ old, before.calls[i]? = some old ∧ Continues before after old call) : after.Sound := by
  refine ⟨?_, ?_, ?_, ?_, ?_⟩
  · intro call hcall hactive
    obtain ⟨i, hi⟩ := List.mem_iff_getElem?.mp hcall
    obtain ⟨old, hold, hcont⟩ := hcalls i call hi hactive
    rw [hcont.visible]
    exact h.visible old (List.mem_of_getElem? hold) hcont.active
  · intro call hcall hactive
    obtain ⟨i, hi⟩ := List.mem_iff_getElem?.mp hcall
    obtain ⟨old, -, hcont⟩ := hcalls i call hi hactive
    exact hcont.clear
  · intro call hcall hactive
    obtain ⟨i, hi⟩ := List.mem_iff_getElem?.mp hcall
    obtain ⟨old, -, hcont⟩ := hcalls i call hi hactive
    exact hcont.known
  · intro i j call other hi hj hcall hother hfunc htid
    obtain ⟨old, hold, hcont⟩ := hcalls i call hi hcall
    obtain ⟨old', hold', hcont'⟩ := hcalls j other hj hother
    rw [hcont.func, hcont'.func] at hfunc
    rw [hcont.tid, hcont'.tid] at htid
    exact h.thread i j old old' hold hold' hcont.active hcont'.active hfunc htid
  · intro i j call other hi hj hcall hother htid hsocket htx
    obtain ⟨old, hold, hcont⟩ := hcalls i call hi hcall
    obtain ⟨old', hold', hcont'⟩ := hcalls j other hj hother
    rw [hcont.tid, hcont'.tid] at htid
    rw [hcont.socketId, hcont'.socketId] at hsocket
    rw [hcont.tx, hcont'.tx] at htx
    exact h.socket i j old old' hold hold' hcont.active hcont'.active htid hsocket htx

theorem Placed.cases {calls after : List PendingIo} {call : PendingIo} {place : Nat}
    (h : Placed calls call place after) {i : Nat} {entry : PendingIo}
    (hentry : after[i]? = some entry) :
    (i = place ∧ entry = call) ∨ (i ≠ place ∧ calls[i]? = some entry) := by
  cases h with
  | reused => exact getElem?_set_cases hentry
  | added =>
      obtain ⟨hi, heq⟩ | ⟨hi, heq⟩ := getElem?_append_cases hentry
      · exact Or.inl ⟨hi, heq⟩
      · exact Or.inr ⟨by omega, heq⟩

theorem link_same (ioId flowId : UInt64) (call : PendingIo) :
    (linkIo ioId flowId call).active = call.active ∧
      (linkIo ioId flowId call).visible = call.visible ∧
      (linkIo ioId flowId call).func = call.func ∧ (linkIo ioId flowId call).tid = call.tid ∧
      (linkIo ioId flowId call).socketId = call.socketId ∧
      (linkIo ioId flowId call).tx = call.tx ∧ (linkIo ioId flowId call).ioId = call.ioId := by
  unfold linkIo
  split <;> simp

/-- A link that finds a call tied to nothing or to several flows leaves it so, or ties it. -/
theorem link_clear {ioId flowId : UInt64} {call : PendingIo}
    (hclear : call.flowAmbiguous = true → call.flowId = 0) :
    (linkIo ioId flowId call).flowAmbiguous = true → (linkIo ioId flowId call).flowId = 0 := by
  unfold linkIo
  split
  case isTrue => exact hclear
  case isFalse =>
    intro hambiguous
    exact if_pos hambiguous

theorem link_known {ioId flowId : UInt64} {call : PendingIo} {ids : List UInt64}
    (hflow : flowId ∈ ids) (hknown : call.flowId = 0 ∨ call.flowId ∈ ids) :
    (linkIo ioId flowId call).flowId = 0 ∨ (linkIo ioId flowId call).flowId ∈ ids := by
  unfold linkIo
  split
  case isTrue => exact hknown
  case isFalse =>
    dsimp only
    split
    case isTrue => exact Or.inl rfl
    case isFalse => exact Or.inr hflow

theorem Move.sound {before after : Books} {labels : List Label} (hsound : before.Sound)
    (h : Move before labels after) : after.Sound := by
  have hids := h.ids
  cases h with
  | note | exportCall | openFlow | anchor | endFlow | strayLink => exact hsound.grow rfl hids
  | beginCall hplaced hactive hvisible hclear hknown hthread hsocket hrecord =>
      refine ⟨?_, ?_, ?_, ?_, ?_⟩
      · intro entry hentry hentryActive
        obtain ⟨i, hi⟩ := List.mem_iff_getElem?.mp hentry
        obtain ⟨-, rfl⟩ | ⟨-, hold⟩ := hplaced.cases hi
        · exact hvisible
        · exact hsound.visible entry (List.mem_of_getElem? hold) hentryActive
      · intro entry hentry hentryActive hambiguous
        obtain ⟨i, hi⟩ := List.mem_iff_getElem?.mp hentry
        obtain ⟨-, rfl⟩ | ⟨-, hold⟩ := hplaced.cases hi
        · rw [hclear] at hambiguous
          cases hambiguous
        · exact hsound.clear entry (List.mem_of_getElem? hold) hentryActive hambiguous
      · intro entry hentry hentryActive
        obtain ⟨i, hi⟩ := List.mem_iff_getElem?.mp hentry
        obtain ⟨-, rfl⟩ | ⟨-, hold⟩ := hplaced.cases hi
        · exact hknown
        · exact hsound.known entry (List.mem_of_getElem? hold) hentryActive
      · intro i j first second hi hj hfirst hsecond hfunc htid
        obtain ⟨rfl, rfl⟩ | ⟨-, hi'⟩ := hplaced.cases hi <;>
          obtain ⟨rfl, rfl⟩ | ⟨-, hj'⟩ := hplaced.cases hj
        · rfl
        · exact absurd htid.symm
            (hthread second (List.mem_of_getElem? hj') hsecond hfunc.symm)
        · exact absurd htid (hthread first (List.mem_of_getElem? hi') hfirst hfunc)
        · exact hsound.thread i j first second hi' hj' hfirst hsecond hfunc htid
      · intro i j first second hi hj hfirst hsecond htid hsock htx
        obtain ⟨rfl, rfl⟩ | ⟨-, hi'⟩ := hplaced.cases hi <;>
          obtain ⟨rfl, rfl⟩ | ⟨-, hj'⟩ := hplaced.cases hj
        · rfl
        · exact absurd htx.symm
            (hsocket second (List.mem_of_getElem? hj') hsecond htid.symm hsock.symm)
        · exact absurd htx (hsocket first (List.mem_of_getElem? hi') hfirst htid hsock)
        · exact hsound.socket i j first second hi' hj' hfirst hsecond htid hsock htx
  | link record hknown =>
      apply hsound.continue
      intro i call hi hactive
      rw [List.getElem?_map] at hi
      obtain ⟨old, hold, rfl⟩ := Option.map_eq_some_iff.mp hi
      obtain ⟨hsame, hvisible, hfunc, htid, hsocketId, htx, -⟩ :=
        link_same record.ioId record.flowId old
      have holdActive := hsame ▸ hactive
      have hmem := List.mem_of_getElem? hold
      exact ⟨old, hold, holdActive, hvisible, hfunc, htid, hsocketId, htx,
        link_clear (hsound.clear old hmem holdActive),
        link_known hknown (hsound.known old hmem holdActive)⟩
  | endCall hcall hactive hsettles hrecords =>
      apply hsound.continue
      intro i call hi hcallActive
      obtain ⟨-, rfl⟩ | ⟨-, hold⟩ := getElem?_set_cases hi
      · cases hcallActive
      · have hmem := List.mem_of_getElem? hold
        exact ⟨call, hold, hcallActive, rfl, rfl, rfl, rfl, rfl,
          hsound.clear call hmem hcallActive,
          (hsound.known call hmem hcallActive).imp_right fun hknown => hids.subset hknown⟩

end Anettrace.Export
