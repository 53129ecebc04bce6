import Anettrace.Convert.Exports

/-!
# The books of the whole converter

Between two records the slices that are open on a track are the lifetimes of sockets, the I/O calls
and the connect attempts of the books that have the track. So no slice is ended that was not begun,
and those that the last record leaves are none.
-/

namespace Anettrace.Convert

open Anettrace.Native (ConnectKind)
open Library Library.Command PerfettoExporter

/-! ## What the books know of a track -/

section Books

variable (setup : Setup) (track : Nat)

/-- The socket has the track. -/
def socketOn (socketId : String) : Bool :=
  (setup.python.hex socketId).map (fun socket => setup.python.stableUuid (.socket socket)) =
    some track

/-- The attempt has the track. -/
def attemptOn (attemptId : String) : Bool :=
  setup.python.stableUuid (.connect attemptId) = track

/-- The I/O call is on the track. -/
def ioOn (entry : IoKey × Nat) : Bool :=
  entry.2 = track

/-- The slices of the books that are on the track. -/
def Books.held (books : Books) : Nat :=
  books.socketLifetimes.countP (socketOn setup track) + books.pendingIo.countP (ioOn track) +
    books.activeConnects.countP (attemptOn setup track)

variable {setup track}

theorem countP_insert {ids : List String} {id : String} (on : String → Bool) (hnew : id ∉ ids) :
    (ids.insert id).countP on = ids.countP on + if on id then 1 else 0 := by
  rw [List.insert_of_not_mem hnew, List.countP_cons]

theorem countP_erase {ids : List String} {id : String} (on : String → Bool) (hmem : id ∈ ids) :
    (ids.erase id).countP on + (if on id then 1 else 0) = ids.countP on := by
  rw [(List.perm_cons_erase hmem).countP_eq on, List.countP_cons]

theorem pendingTrack_cons (key : IoKey) (entry : IoKey × Nat) (rest : List (IoKey × Nat)) :
    pendingTrack key (entry :: rest) = if entry.1 = key then some entry.2
      else pendingTrack key rest := by
  unfold pendingTrack
  by_cases h : entry.1 = key <;> simp [h]

theorem popPending_cons (key : IoKey) (entry : IoKey × Nat) (rest : List (IoKey × Nat)) :
    popPending key (entry :: rest) = if entry.1 = key then rest
      else entry :: popPending key rest := by
  unfold popPending
  by_cases h : entry.1 = key <;> simp [h]

theorem countP_io (entry : IoKey × Nat) (rest : List (IoKey × Nat)) :
    (entry :: rest).countP (ioOn track) = rest.countP (ioOn track) + mark track entry.2 := by
  rw [List.countP_cons]
  simp [ioOn, mark]

theorem countP_putPending (key : IoKey) (uuid : Nat) (pending : List (IoKey × Nat)) :
    (putPending key uuid pending).countP (ioOn track) +
      ((pendingTrack key pending).map (mark track)).getD 0 =
      pending.countP (ioOn track) + mark track uuid := by
  induction pending with
  | nil => simp [putPending, pendingTrack, ioOn, mark]
  | cons entry rest ih =>
      rw [pendingTrack_cons, putPending, countP_io]
      by_cases h : entry.1 = key
      case pos =>
        rw [if_pos h, if_pos h, countP_io, Option.map_some, Option.getD_some]
        dsimp only
        omega
      case neg =>
        rw [if_neg h, if_neg h, countP_io]
        omega

section

variable {key : IoKey} {uuid : Nat} {pending : List (IoKey × Nat)}

theorem countP_popPending (h : pendingTrack key pending = some uuid) :
    (popPending key pending).countP (ioOn track) + mark track uuid =
      pending.countP (ioOn track) := by
  induction pending with
  | nil => cases h
  | cons entry rest ih =>
      rw [pendingTrack_cons] at h
      rw [popPending_cons, countP_io]
      by_cases hkey : entry.1 = key
      case pos =>
        rw [if_pos hkey] at h ⊢
        rw [Option.some.inj h]
      case neg =>
        rw [if_neg hkey] at h ⊢
        have hrest := ih h
        rw [countP_io]
        omega

theorem mem_putPending {entry : IoKey × Nat} (h : entry ∈ putPending key uuid pending) :
    entry = (key, uuid) ∨ entry ∈ pending := by
  induction pending with
  | nil => exact .inl (List.mem_singleton.mp h)
  | cons first rest ih =>
      unfold putPending at h
      split at h
      · exact (List.mem_cons.mp h).imp_right (List.mem_cons_of_mem first)
      · obtain rfl | hmem := List.mem_cons.mp h
        · exact .inr List.mem_cons_self
        · exact (ih hmem).imp_right (List.mem_cons_of_mem first)

theorem mem_of_pendingTrack (h : pendingTrack key pending = some uuid) :
    ∃ entry ∈ pending, entry.2 = uuid := by
  unfold pendingTrack at h
  obtain ⟨entry, hfound, huuid⟩ := Option.map_eq_some_iff.mp h
  exact ⟨entry, List.mem_of_find?_eq_some hfound, huuid⟩

end

theorem mark_socket {socketId : String} {uuid : Nat} (h : SocketUuid setup socketId uuid) :
    (if socketOn setup track socketId = true then 1 else 0) = mark track uuid := by
  obtain ⟨socket, hhex, rfl⟩ := h
  unfold socketOn mark
  rw [hhex]
  simp

theorem mark_attempt {attemptId : String} {uuid : Nat}
    (h : uuid = setup.python.stableUuid (.connect attemptId)) :
    (if attemptOn setup track attemptId = true then 1 else 0) = mark track uuid := by
  subst h
  unfold attemptOn mark
  simp

end Books

/-! ## Between two records -/

variable {setup : Setup} {records : List JsonRecord} {track : Nat} {seen : List Nat}
  {books : Books} {count : Nat}

/-- The attempts that sockets are known to belong to are named by records. -/
def Books.Named (records : List JsonRecord) (books : Books) : Prop :=
  ∀ socketId attemptId, books.connectSockets socketId = some attemptId →
    ∃ record ∈ records, record.attemptId = attemptId

/-- The books are the slices that are open. -/
structure Settled (setup : Setup) (records : List JsonRecord) (track : Nat) (seen : List Nat)
    (books : Books)
    (exporter : PerfettoExporter) : Prop where
  holds : At setup records track seen books (books.held setup track) exporter
  pending : ∀ entry ∈ books.pendingIo, entry.2 ∈ seen
  named : books.Named records

/-- There are books of the slices that are open. -/
def Balanced (setup : Setup) (records : List JsonRecord) (track : Nat) (seen : List Nat)
    (exporter : PerfettoExporter) : Prop :=
  ∃ books, Settled setup records track seen books exporter

theorem balanced_intro {command : Export Unit} {post : Unit → PerfettoExporter → Prop}
    (h : ∀ books : Books, (∀ entry ∈ books.pendingIo, entry.2 ∈ seen) → books.Named records →
      Ensures (At setup records track seen books (books.held setup track)) command post) :
    Ensures (Balanced setup records track seen) command post := by
  intro exporter value next hstart hrun
  obtain ⟨books, hsettled⟩ := hstart
  exact h books hsettled.pending hsettled.named exporter value next hsettled.holds hrun

theorem Quiet.balanced {command : Export Unit} (h : Quiet setup records track command) :
    Ensures (Balanced setup records track seen) command fun _ =>
      Balanced setup records track seen :=
  balanced_intro fun books hpending hnamed =>
    (h seen books _).mono (fun _ => id) fun _ _ hstate => ⟨books, hstate, hpending, hnamed⟩

theorem At.withBooks {exporter : PerfettoExporter} (change : Books → Books)
    (h : At setup records track seen books count exporter) :
    At setup records track seen (change books) count (exporter.withBooks change) :=
  ⟨{ h.tracked with }, h.seen, congrArg change h.books, h.sliced⟩

theorem withBooks_at (change : Books → Books) :
    Ensures (At setup records track seen books count) (modify (withBooks change) : Export Unit)
      fun _ => At setup records track seen (change books) count :=
  .modify fun _ h => h.withBooks change

/-- The books are read, and the next command goes on. -/
theorem read_at {next : PerfettoExporter → Export Unit} {post : Unit → PerfettoExporter → Prop}
    (h : ∀ exporter, exporter.books = books →
      Ensures (At setup records track seen books count) (next exporter) post) :
    Ensures (At setup records track seen books count) (get >>= next) post :=
  .get fun exporter hstart =>
    (h exporter hstart.books).mono (fun _ hstate => hstate ▸ hstart) fun _ _ => id

/-! ## Sockets -/

theorem held_openLifetime {socketId : String} {uuid : Nat} (hname : SocketUuid setup socketId uuid)
    (hnew : socketId ∉ books.socketLifetimes) :
    (books.openLifetime socketId).held setup track = books.held setup track + mark track uuid := by
  unfold Books.held Books.openLifetime
  dsimp only
  rw [countP_insert _ hnew, mark_socket hname]
  omega

theorem held_closeLifetime {socketId : String} {uuid : Nat} (hname : SocketUuid setup socketId uuid)
    (hmem : socketId ∈ books.socketLifetimes) :
    (books.closeLifetime socketId).held setup track + mark track uuid = books.held setup track := by
  have hcount := countP_erase (socketOn setup track) hmem
  rw [mark_socket hname] at hcount
  unfold Books.held Books.closeLifetime
  dsimp only
  omega

/-- The end of a lifetime. -/
theorem closeSocket_at {ts : Option Int} {socketId : String} {socket : Nat} (hseen : socket ∈ seen)
    (hopen : mark track socket ≤ count) :
    Ensures (At setup records track seen books count) (closeSocket setup ts socketId socket)
      fun _ => At setup records track seen (books.closeLifetime socketId)
        (count - mark track socket) := by
  refine .bindFact .lift fun flowId _ => (event_end hseen hopen).bind fun _ => ?_
  exact withBooks_at _

section

variable {record : JsonRecord} {socket : Nat} (hname : SocketUuid setup record.socketId socket)
  (hseen : socket ∈ seen)
include hname hseen

theorem beginLifetime_balanced :
    Ensures (Balanced setup records track seen) (beginLifetime setup record socket)
      fun _ => Balanced setup records track seen := by
  refine balanced_intro fun books hpending hnamed => read_at fun exporter hbooks => ?_
  rw [hbooks]
  split
  · rename_i hnew
    refine .bindFact .lift fun flowId _ => (event_begin hseen).bind fun _ =>
      .modify fun state h => ?_
    refine ⟨books.openLifetime record.socketId, ?_, hpending, hnamed⟩
    rw [held_openLifetime hname hnew.1]
    exact h.withBooks _
  · exact .pure fun state h => ⟨books, h, hpending, hnamed⟩

theorem endLifetime_balanced :
    Ensures (Balanced setup records track seen) (endLifetime setup record socket)
      fun _ => Balanced setup records track seen := by
  unfold endLifetime
  split
  · refine balanced_intro fun books hpending hnamed => read_at fun exporter hbooks => ?_
    rw [hbooks]
    refine .via (fun _ => Balanced setup records track seen)
      (.runIf (fun hmem => ?_) fun _ state h => ?_)
      fun _ => .modify fun state h => ?_
    · have hheld : (books.closeLifetime record.socketId).held setup track + mark track socket =
          books.held setup track := held_closeLifetime hname hmem
      refine (closeSocket_at hseen (by omega)).mono (fun _ => id) fun _ state h => ?_
      refine ⟨books.closeLifetime record.socketId, ?_, hpending, hnamed⟩
      rw [← hheld, Nat.add_sub_cancel] at h
      exact h
    · exact ⟨books, h, hpending, hnamed⟩
    · obtain ⟨books, hsettled⟩ := h
      exact ⟨books.close record.socketId, hsettled.holds.withBooks _, hsettled.pending,
        hsettled.named⟩
  · exact .pure fun _ => id

end

/-- A track that is made between two records. -/
theorem balanced_track {command : Export Nat} {fact : Nat → Prop}
    (h : ∀ books count, Ensures (At setup records track seen books count) command fun uuid state =>
      fact uuid ∧ At setup records track (uuid :: seen) books count state) :
    Ensures (Balanced setup records track seen) command fun uuid state =>
      fact uuid ∧ Balanced setup records track (uuid :: seen) state := by
  intro exporter uuid next hstart hrun
  obtain ⟨books, hsettled⟩ := hstart
  obtain ⟨hfact, hnext⟩ := h books _ exporter uuid next hsettled.holds hrun
  exact ⟨hfact, books, hnext, fun entry hmem =>
    List.mem_cons_of_mem uuid (hsettled.pending entry hmem),
    hsettled.named⟩

theorem balanced_instant {uuid : Nat} {ts : Option Int} {flow : EventFlow} (hseen : uuid ∈ seen) :
    Ensures (Balanced setup records track seen) (event setup ts uuid .instant flow)
      fun _ => Balanced setup records track seen :=
  balanced_intro fun books hpending hnamed =>
    (event_instant hseen).mono (fun _ => id) fun _ _ h => ⟨books, h, hpending, hnamed⟩

/-- Between two records, whatever tracks were seen. -/
def Steady (setup : Setup) (records : List JsonRecord) (track : Nat) (exporter : PerfettoExporter) :
    Prop :=
  ∃ seen, Balanced setup records track seen exporter

/-- A command that is run between two records, and keeps what holds there. -/
def Steadies (setup : Setup) (records : List JsonRecord) (track : Nat) (command : Export Unit) :
    Prop :=
  ∀ seen, Ensures (Balanced setup records track seen) command fun _ => Steady setup records track

theorem Quiet.steadies {command : Export Unit} (h : Quiet setup records track command) :
    Steadies setup records track command :=
  fun seen => h.balanced.mono (fun _ => id) fun _ _ hstate => ⟨seen, hstate⟩

theorem exportSocketState_steadies (record : JsonRecord) :
    Steadies setup records track (exportSocketState setup record) := by
  intro seen
  refine .bindFact .lift fun record _ => ?_
  refine (balanced_track fun _ _ => socketTrack_at record.socketId).bindFact fun socket hname => ?_
  refine (beginLifetime_balanced hname List.mem_cons_self).bind fun _ => ?_
  refine .bindFact .lift fun flowId _ => ?_
  refine (balanced_instant List.mem_cons_self).bind fun _ => ?_
  exact (endLifetime_balanced hname List.mem_cons_self).mono (fun _ => id) fun _ _ h => ⟨_, h⟩

theorem exportSocketEvent_steadies (record : JsonRecord) :
    Steadies setup records track (exportSocketEvent setup record) := by
  intro seen
  refine .bindFact .lift fun record _ => ?_
  refine (balanced_track fun _ _ => socketTrack_at record.socketId).bindFact fun socket hname => ?_
  refine (beginLifetime_balanced hname List.mem_cons_self).bind fun _ => ?_
  refine (balanced_track fun _ _ => threadTrack_at record).bindFact fun thread _ => ?_
  refine .bindFact .lift fun flowId _ => ?_
  refine (balanced_instant List.mem_cons_self).bind fun _ => ?_
  have hseen : socket ∈ thread :: socket :: seen := List.mem_cons_of_mem thread List.mem_cons_self
  exact (endLifetime_balanced hname hseen).mono (fun _ => id) fun _ _ h => ⟨_, h⟩

theorem exportSocketCreate_steadies (record : JsonRecord) :
    Steadies setup records track (exportSocketCreate setup record) := by
  refine fun seen => balanced_intro fun books hpending hnamed => ?_
  refine (threadTrack_at record).bindFact fun thread _ => ?_
  refine .bindFact .lift fun flowId _ => slice_at List.mem_cons_self ?_
  split
  · refine .pure fun state h => ⟨_, books, h, fun entry hmem => ?_, hnamed⟩
    exact List.mem_cons_of_mem thread (hpending entry hmem)
  · refine (socketTrack_at record.socketId).bindFact fun socket hname =>
      read_at fun exporter hbooks => ?_
    rw [hbooks]
    have hseen : ∀ entry ∈ books.pendingIo, entry.2 ∈ socket :: thread :: seen := fun entry hmem =>
      List.mem_cons_of_mem socket (List.mem_cons_of_mem thread (hpending entry hmem))
    by_cases hmem : record.socketId ∈ books.socketLifetimes
    case pos =>
      have hheld : (books.closeLifetime record.socketId).held setup track + mark track socket =
          books.held setup track := held_closeLifetime hname hmem
      have hsame : books.openLifetime record.socketId = books := by
        unfold Books.openLifetime
        rw [List.insert_of_mem hmem]
      refine .via (fun _ => At setup records track (socket :: thread :: seen) books
        (books.held setup track - mark track socket)) ?_ fun _ => ?_
      · exact .runIf (fun _ => event_end List.mem_cons_self (by omega)) fun hnot => absurd hmem hnot
      · refine (event_begin List.mem_cons_self).bind fun _ => ?_
        rw [Nat.sub_add_cancel (by omega)]
        refine (withBooks_at (Books.openLifetime record.socketId)).bind fun _ => ?_
        rw [hsame]
        exact .modify fun state h =>
          ⟨_, _, h.withBooks (Books.reopen record.socketId), hseen, hnamed⟩
    case neg =>
      refine .via (fun _ =>
        At setup records track (socket :: thread :: seen) books (books.held setup track)) ?_
        fun _ => ?_
      · exact .runIf (fun h => absurd h hmem) fun _ _ => id
      · refine (event_begin List.mem_cons_self).bind fun _ => ?_
        rw [← held_openLifetime hname hmem]
        refine (withBooks_at (Books.openLifetime record.socketId)).bind fun _ => ?_
        exact .modify fun state h =>
          ⟨_, _, h.withBooks (Books.reopen record.socketId), hseen, hnamed⟩

/-! ## I/O calls -/

theorem socketIo_at (record : JsonRecord) :
    Ensures (At setup records track seen books count) (socketIo setup record)
      fun _ => At setup records track seen books count := by
  refine .bindFact .lift fun linked _ => ?_
  split
  · refine (socketTrack_at record.socketId).bindFact fun socket _ => ?_
    exact forget_at _ (event_instant List.mem_cons_self)
  · exact .pure fun _ => id

/-- The end of an I/O call of the books, if there is one under the key. -/
theorem endPending_at {key : IoKey} {ts : Option Int}
    (hpending : ∀ entry ∈ books.pendingIo, entry.2 ∈ seen) :
    Ensures (At setup records track seen books (books.held setup track))
      (endPending setup ts (pendingTrack key books.pendingIo))
      fun _ => At setup records track seen books
        (books.held setup track - ((pendingTrack key books.pendingIo).map (mark track)).getD
          0) := by
  cases hold : pendingTrack key books.pendingIo with
  | none => exact .pure fun _ => id
  | some old =>
      obtain ⟨entry, hmem, rfl⟩ := mem_of_pendingTrack hold
      have hpop : (popPending key books.pendingIo).countP (ioOn track) + mark track entry.2 =
          books.pendingIo.countP (ioOn track) := countP_popPending hold
      exact event_end (hpending entry hmem) (by unfold Books.held; omega)

theorem At.steady {exporter : PerfettoExporter}
    (h : At setup records track seen books count exporter)
    (hcount : books.held setup track = count) (hpending : ∀ entry ∈ books.pendingIo, entry.2 ∈ seen)
    (hnamed : books.Named records) : Steady setup records track exporter :=
  ⟨seen, books, hcount ▸ h, hpending, hnamed⟩

theorem exportIoStart_steadies (way : Way) (record : JsonRecord) :
    Steadies setup records track (exportIoStart setup way record) := by
  refine fun seen => balanced_intro fun books hpending hnamed => .bindFact .lift fun record _ => ?_
  refine (threadTrack_at record).bindFact fun thread _ => (socketIo_at record).bind fun _ => ?_
  refine read_at fun exporter hbooks => ?_
  rw [hbooks]
  refine .bindFact .lift fun flowId _ => .bindFact .lift fun linked _ => ?_
  have hseen : ∀ entry ∈ books.pendingIo, entry.2 ∈ thread :: seen :=
    fun entry hmem => List.mem_cons_of_mem thread (hpending entry hmem)
  refine (endPending_at hseen).bind fun _ => (event_begin List.mem_cons_self).bind fun _ => ?_
  refine (withBooks_at _).mono (fun _ => id) fun _ state h =>
    h.steady ?_ (fun entry hmem => ?_) hnamed
  · have hput : (putPending (ioKey way record) thread books.pendingIo).countP (ioOn track) +
        ((pendingTrack (ioKey way record) books.pendingIo).map (mark track)).getD 0 =
          books.pendingIo.countP (ioOn track) + mark track thread := countP_putPending _ _ _
    have hold : ((pendingTrack (ioKey way record) books.pendingIo).map (mark track)).getD 0 ≤
        books.pendingIo.countP (ioOn track) := by
      cases hold : pendingTrack (ioKey way record) books.pendingIo with
      | none => exact Nat.zero_le _
      | some old => exact countP_popPending hold ▸ Nat.le_add_left _ _
    unfold Books.held Books.putIo
    dsimp only
    omega
  · obtain rfl | hold := mem_putPending hmem
    · exact List.mem_cons_self
    · exact hseen entry hold

theorem exportIoEnd_steadies (way : Way) (record : JsonRecord) :
    Steadies setup records track (exportIoEnd setup way record) := by
  refine fun seen => balanced_intro fun books hpending hnamed => .bindFact .lift fun record _ => ?_
  refine read_at fun exporter hbooks => ?_
  rw [hbooks]
  cases hfound : pendingTrack (ioKey way record) books.pendingIo with
  | none => exact .pure fun state h => h.steady rfl hpending hnamed
  | some uuid =>
      obtain ⟨entry, hmem, rfl⟩ := mem_of_pendingTrack hfound
      have hpop : (popPending (ioKey way record) books.pendingIo).countP (ioOn track) +
          mark track entry.2 =
          books.pendingIo.countP (ioOn track) := countP_popPending hfound
      have hheld : (books.popIo (ioKey way record)).held setup track + mark track entry.2 =
          books.held setup track := by
        unfold Books.held Books.popIo
        dsimp only
        omega
      refine (withBooks_at _).bind fun _ => ?_
      refine (event_end (hpending entry hmem) (by omega)).mono (fun _ => id) fun _ state h => ?_
      refine h.steady (by omega)
        (fun other hother => hpending other (List.mem_of_mem_eraseP hother)) hnamed

/-! ## Connect attempts -/

theorem held_addActive {attemptId : String} {uuid : Nat}
    (hname : uuid = setup.python.stableUuid (.connect attemptId))
    (hnew : attemptId ∉ books.activeConnects) :
    (books.addActive attemptId).held setup track = books.held setup track + mark track uuid := by
  unfold Books.held Books.addActive
  dsimp only
  rw [countP_insert _ hnew, mark_attempt hname]
  omega

theorem held_removeActive {attemptId : String} {uuid : Nat}
    (hname : uuid = setup.python.stableUuid (.connect attemptId))
    (hmem : attemptId ∈ books.activeConnects) :
    (books.removeActive attemptId).held setup track + mark track uuid = books.held setup track := by
  have hcount := countP_erase (attemptOn setup track) hmem
  rw [mark_attempt hname] at hcount
  unfold Books.held Books.removeActive
  dsimp only
  omega

/-- An attempt that begins again leaves a slice open that the books do not know. -/
theorem At.fewer {exporter : PerfettoExporter} {uuid : Nat}
    (hattempt : AttemptTrack setup records uuid)
    (h : At setup records track seen books (count + mark track uuid) exporter) :
    At setup records track seen books count exporter := by
  refine ⟨h.tracked, h.seen, h.books, fun hflow => ?_⟩
  obtain ⟨slices, hopen, hle, hexact⟩ := h.sliced hflow
  refine ⟨slices, hopen, Nat.le_of_add_right_le hle, fun hother => ?_⟩
  have hdiffer : uuid ≠ track := by
    intro hsame
    rw [hsame] at hattempt
    exact hother hattempt
  have hmark : mark track uuid = 0 := if_neg hdiffer
  rw [hexact hother, hmark, Nat.add_zero]

/-- The end of an attempt. -/
theorem closeConnect_at {ts : Option Int} {attemptId : String} {connect : Nat}
    (hseen : connect ∈ seen) (hopen : mark track connect ≤ count) :
    Ensures (At setup records track seen books count) (closeConnect setup ts attemptId connect)
      fun _ => At setup records track seen (books.removeActive attemptId)
        (count - mark track connect) := by
  refine .bindFact .lift fun flowId _ => (event_end hseen hopen).bind fun _ => ?_
  exact withBooks_at _

/-- `export_connect_event`, on an attempt that a record names. -/
theorem exportAttempt_steadies (kind : ConnectKind) (record : JsonRecord) {attemptId : String}
    (hid : attemptId ≠ "") (hnames : ∃ record ∈ records, record.attemptId = attemptId) :
    Steadies setup records track (exportAttempt setup kind record attemptId) := by
  refine fun seen => balanced_intro fun books hpending hnamed => ?_
  refine (connectTrack_at attemptId record).bindFact fun connect hname =>
    .bindFact .lift fun flowId _ => ?_
  have hseen : ∀ entry ∈ books.pendingIo, entry.2 ∈ connect :: seen :=
    fun entry hmem => List.mem_cons_of_mem connect (hpending entry hmem)
  split
  · refine (event_begin List.mem_cons_self).bind fun _ => .modify fun state h => ?_
    by_cases hactive : attemptId ∈ books.activeConnects
    case pos =>
      obtain ⟨other, hother, rfl⟩ := hnames
      have hsame : books.addActive other.attemptId = books := by
        unfold Books.addActive
        rw [List.insert_of_mem hactive]
      have hkept :=
        (h.fewer ⟨other, hother, hid, hname.symm⟩).withBooks (Books.addActive other.attemptId)
      rw [hsame] at hkept
      exact hkept.steady rfl hseen hnamed
    case neg =>
      exact (h.withBooks (Books.addActive attemptId)).steady
        (held_addActive hname hactive) hseen hnamed
  · refine .via (fun _ => Balanced setup records track (connect :: seen))
      (.runIf (fun _ => ?_) ?_) fun _ => ?_
    · refine .modify fun state h =>
        ⟨_, h.withBooks (Books.nameSocket record.socketInstanceId attemptId), hseen, ?_⟩
      exact Keyed.put_forall hnames fun other found _ hfound => hnamed other found hfound
    · exact fun _ state h => ⟨books, h, hseen, hnamed⟩
    · refine (balanced_instant List.mem_cons_self).bind fun _ => ?_
      refine balanced_intro fun books hpending hnamed => read_at fun exporter hbooks => ?_
      rw [hbooks]
      refine .runIf (fun hclose => ?_) fun _ state h => h.steady rfl hpending hnamed
      have hheld : (books.removeActive attemptId).held setup track + mark track connect =
          books.held setup track := held_removeActive hname hclose.2
      refine (closeConnect_at List.mem_cons_self (by omega)).mono (fun _ => id) fun _ state h => ?_
      exact h.steady (by omega) hpending hnamed

theorem exportConnectEvent_steadies (kind : ConnectKind) {record : JsonRecord}
    (hrecord : record ∈ records) :
    Steadies setup records track (exportConnectEvent setup kind record) := by
  refine fun seen => balanced_intro fun books hpending hnamed => read_at fun exporter hbooks => ?_
  rw [hbooks]
  split
  · exact .pure fun state h => h.steady rfl hpending hnamed
  · rename_i hid
    have hnames : ∃ other ∈ records, other.attemptId = books.attemptId record := by
      revert hid
      unfold Books.attemptId
      intro hid
      split
      · exact ⟨record, hrecord, rfl⟩
      · rename_i hempty
        rw [if_neg hempty] at hid
        cases hfound : books.connectSockets
            (firstText [record.socketInstanceId, record.socketId, record.ownerSocketId]) with
        | none => exact absurd (by rw [hfound]; rfl) hid
        | some attemptId => exact hnamed _ attemptId hfound
    exact (exportAttempt_steadies kind record hid hnames seen).mono
      (fun _ h => ⟨books, h, hpending, hnamed⟩)
      fun _ _ => id

/-! ## The end of a trace -/

/-- A loop that closes what the books know, in any order. -/
theorem closeAll_at (withIds : List String → Books) {close : String → Export Unit}
    {order all : List String} (hclose : ∀ ids, ∀ name ∈ ids,
      Ensures (At setup records track seen (withIds ids) ((withIds ids).held setup track))
        (close name)
        fun _ => At setup records track seen (withIds (ids.erase name))
          ((withIds (ids.erase name)).held setup track)) (hperm : order.Perm all) :
    Ensures (At setup records track seen (withIds all) ((withIds all).held setup track))
      (order.forM close)
      fun _ => At setup records track seen (withIds []) ((withIds []).held setup track) := by
  have hloop : Ensures (fun exporter => ∃ ids, order.Perm ids ∧
      At setup records track seen (withIds ids) ((withIds ids).held setup track) exporter)
        (order.forM close)
      fun _ exporter => ∃ ids, List.Perm [] ids ∧
        At setup records track seen (withIds ids) ((withIds ids).held setup track) exporter := by
    refine .forM (fun rest exporter => ∃ ids, rest.Perm ids ∧
      At setup records track seen (withIds ids) ((withIds ids).held setup track) exporter)
      fun name rest exporter value next hstart hrun => ?_
    obtain ⟨ids, hids, h⟩ := hstart
    refine ⟨ids.erase name, ?_, hclose ids name (hids.subset List.mem_cons_self) exporter
      value next h hrun⟩
    have herase := hids.erase name
    rwa [List.erase_cons_head] at herase
  refine hloop.mono (fun exporter h => ⟨all, hperm, h⟩) fun _ exporter h => ?_
  obtain ⟨ids, hids, h⟩ := h
  rwa [List.nil_perm.mp hids] at h

/-- What is closed is on the track that is known for it. -/
theorem closeOpen_at {tracks : PerfettoExporter → Keyed String Nat}
    {close : String → Nat → Export Unit} {name : String} {Names : Nat → Prop} {after : Books}
    {left : Nat}
    (hknown : ∀ exporter uuid, Tracked setup exporter → tracks exporter name = some uuid →
      Names uuid ∧ uuid ∈ exporter.descriptors)
    (hclose : ∀ uuid, Names uuid → Ensures (At setup records track (uuid :: seen) books count)
      (close name uuid)
      fun _ => At setup records track (uuid :: seen) after left) :
    Ensures (At setup records track seen books count) (closeOpen tracks close name)
      fun _ => At setup records track seen after left := by
  refine .get fun exporter h => ?_
  cases hfound : tracks exporter name with
  | none => exact .throw
  | some uuid =>
      obtain ⟨hname, hmem⟩ := hknown exporter uuid h.tracked hfound
      exact (forget_at uuid (hclose uuid hname)).mono
        (fun state hstate => hstate ▸ h.see hmem) fun _ _ => id

/-- The loop over the sockets that are open. -/
theorem closeSockets_at {ts : Option Int} {order : List String}
    (hperm : order.Perm books.socketLifetimes) :
    Ensures (At setup records track seen books (books.held setup track))
      (order.forM (closeOpen PerfettoExporter.socketTracks (closeSocket setup ts)))
      fun _ => At setup records track seen { books with socketLifetimes := [] }
        (Books.held setup track { books with socketLifetimes := [] }) := by
  let withIds (ids : List String) : Books := { books with socketLifetimes := ids }
  refine closeAll_at withIds (fun ids name hmem => ?_) hperm
  refine closeOpen_at (fun exporter uuid h => h.sockets name uuid) fun uuid hname => ?_
  have hheld : ((withIds ids).closeLifetime name).held setup track + mark track uuid =
      (withIds ids).held setup track := held_closeLifetime hname hmem
  refine (closeSocket_at List.mem_cons_self (by omega)).mono (fun _ => id) fun _ state h => ?_
  rw [← hheld, Nat.add_sub_cancel] at h
  exact h

/-- The loop over the attempts that are open. -/
theorem closeConnects_at {ts : Option Int} {order : List String}
    (hperm : order.Perm books.activeConnects) :
    Ensures (At setup records track seen books (books.held setup track))
      (order.forM (closeOpen PerfettoExporter.connectTracks (closeConnect setup ts)))
      fun _ => At setup records track seen { books with activeConnects := [] }
        (Books.held setup track { books with activeConnects := [] }) := by
  let withIds (ids : List String) : Books := { books with activeConnects := ids }
  refine closeAll_at withIds (fun ids name hmem => ?_) hperm
  refine closeOpen_at (fun exporter uuid h => h.connects name uuid) fun uuid hname => ?_
  have hheld : ((withIds ids).removeActive name).held setup track + mark track uuid =
      (withIds ids).held setup track := held_removeActive hname hmem
  refine (closeConnect_at List.mem_cons_self (by omega)).mono (fun _ => id) fun _ state h => ?_
  rw [← hheld, Nat.add_sub_cancel] at h
  exact h

/-- The loop over the I/O calls that are open. -/
theorem closeIo_at {ts : Option Int} {entries : List (IoKey × Nat)}
    (hseen : ∀ entry ∈ entries, entry.2 ∈ seen) :
    Ensures (At setup records track seen books (count + entries.countP (ioOn track)))
      (entries.forM fun entry => event setup ts entry.2 .sliceEnd)
      fun _ => At setup records track seen books count := by
  have hloop : Ensures (fun exporter => (∀ entry ∈ entries, entry.2 ∈ seen) ∧
      At setup records track seen books (count + entries.countP (ioOn track)) exporter)
      (entries.forM fun entry => event setup ts entry.2 .sliceEnd)
      fun _ exporter => (∀ entry ∈ ([] : List (IoKey × Nat)), entry.2 ∈ seen) ∧
        At setup records track seen books (count + 0) exporter := by
    refine .forM (fun rest exporter => (∀ entry ∈ rest, entry.2 ∈ seen) ∧
      At setup records track seen books (count + rest.countP (ioOn track)) exporter)
      fun entry rest exporter value next hstart hrun => ?_
    obtain ⟨hrest, h⟩ := hstart
    refine ⟨fun other hmem => hrest other (List.mem_cons_of_mem entry hmem), ?_⟩
    rw [countP_io, ← Nat.add_assoc] at h
    have hnext :=
      event_end (hrest entry List.mem_cons_self) (Nat.le_add_left _ _) exporter value next h hrun
    rwa [Nat.add_sub_cancel] at hnext
  exact hloop.mono (fun exporter h => ⟨hseen, h⟩) fun _ exporter h => h.2

/-- What `serialize` does for `trace_end`. -/
theorem exportTraceEnd_at {record : JsonRecord}
    (hseen : ∀ entry ∈ books.pendingIo, entry.2 ∈ seen) :
    Ensures (At setup records track seen books (books.held setup track))
      (exportTraceEnd setup record)
      fun _ =>
        At setup records track seen
          { books with socketLifetimes := [], pendingIo := [], activeConnects := [] } 0 := by
  refine read_at fun exporter hbooks => ?_
  rw [hbooks]
  refine (closeSockets_at (setup.python.visit_perm _)).bind fun _ => ?_
  have hio : Books.held setup track { books with socketLifetimes := [] } =
      Books.held setup track { books with socketLifetimes := [], pendingIo := [] } +
        books.pendingIo.countP (ioOn track) := by
    unfold Books.held
    simp only [List.countP_nil]
    omega
  rw [hio]
  refine (closeIo_at hseen).bind fun _ => (withBooks_at Books.clearIo).bind fun _ => ?_
  exact closeConnects_at (setup.python.visit_perm _)

/-- Nothing is open on the track. -/
def Done (setup : Setup) (records : List JsonRecord) (track : Nat) (exporter : PerfettoExporter) :
    Prop :=
  Steady setup records track exporter ∧ Sliced setup records track 0 exporter.packets

def JsonRecord.Ends (record : JsonRecord) : Prop :=
  record.type = .traceEnd ∧ truthy record.tsNs ≠ none

theorem exportEnd_done {record : JsonRecord} (hends : record.Ends) :
    Ensures (Balanced setup records track seen) (exportRecord setup record) fun _ =>
      Done setup records track := by
  have hshown : exportRecord setup record = (do
      runIf (truthy record.tsNs ≠ none) (exportTraceEnd setup record)
      exportMetaEvent setup record) := by
    unfold exportRecord exportShown
    rw [hends.1]
    simp [inTags]
  rw [hshown]
  refine balanced_intro fun books hpending hnamed => ?_
  refine .via (fun _ => At setup records track seen
    { books with socketLifetimes := [], pendingIo := [], activeConnects := [] } 0) ?_ fun _ => ?_
  · exact .runIf (fun _ => exportTraceEnd_at hpending) fun hnot => absurd hends.2 hnot
  · refine (exportMetaEvent_quiet record seen _ 0).mono (fun _ => id) fun _ state h => ?_
    refine ⟨h.steady rfl ?_ hnamed, h.sliced⟩
    intro entry hmem
    cases hmem

/-! ## The file -/

theorem quiet_steadies : Steadies setup records track (pure ⟨⟩) :=
  Quiet.steadies quiet_return

theorem Steadies.andThen {first second : Export Unit} (hfirst : Steadies setup records track first)
    (hsecond : Steadies setup records track second) :
    Steadies setup records track (do first; second) := by
  refine fun seen => (hfirst seen).bind fun _ exporter value next hstart hrun => ?_
  obtain ⟨more, hstart⟩ := hstart
  exact hsecond more exporter value next hstart hrun

/-- The body of the second loop of `serialize`. -/
theorem exportRecord_steadies {record : JsonRecord} (hrecord : record ∈ records) :
    Steadies setup records track (exportRecord setup record) := by
  by_cases hends : record.Ends
  case pos => exact fun seen => (exportEnd_done hends).mono (fun _ => id) fun _ _ h => h.1
  case neg =>
    unfold exportRecord
    split
    · exact quiet_steadies
    · unfold exportShown
      split
      case h_1 | h_2 => exact quiet_steadies
      case h_3 => exact exportSocketCreate_steadies record
      case h_4 =>
        exact (exportSocketState_steadies record).andThen
          (exportConnectSocketState_quiet record).steadies
      case h_5 => exact exportSocketEvent_steadies record
      case h_6 => exact (exportPacketEvent_quiet record).steadies
      case h_7 => exact (exportPacketIoLink_quiet record).steadies
      case h_8 => exact (exportSocketFlowLink_quiet record).steadies
      case h_9 => exact (exportIoComplete_quiet record).steadies
      case h_10 => exact (exportRxHandoff_quiet record).steadies
      case h_11 htype => exact (exportFlowStart_quiet ⟨record, hrecord, .inl htype, rfl⟩).steadies
      case h_12 htype => exact (exportFlowEnd_quiet ⟨record, hrecord, .inr htype, rfl⟩).steadies
      case h_13 | h_15 => exact exportIoStart_steadies _ record
      case h_14 | h_16 => exact exportIoEnd_steadies _ record
      case h_17 => exact (exportNetworkSyscall_quiet record).steadies
      case h_18 kind _ => exact exportConnectEvent_steadies kind hrecord
      case h_19 | h_20 | h_21 => exact (exportMetaEvent_quiet record).steadies
      case h_22 htype =>
        refine Steadies.andThen (fun seen => ?_) (exportMetaEvent_quiet record).steadies
        exact .runIf (fun hts => absurd ⟨htype, hts⟩ hends) fun _ _ h => ⟨seen, h⟩

end Anettrace.Convert
