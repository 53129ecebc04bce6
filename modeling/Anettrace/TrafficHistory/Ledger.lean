import Anettrace.Library.Run
import Anettrace.TrafficHistory.Runs

/-!
# What one key has seen

A ledger follows one key through the inputs of a history, as if the key had the history to itself:
it has the record, and all samples that were accepted, with their frames, without a window. The
record of a key in the table is the one of its ledger.
-/

namespace Anettrace.TrafficHistory

open Library.Run (run_concat run_history)

variable {capacity keySize : Nat} {opened history : History keySize} {key : Key keySize}
  {inputs : List (Input keySize)}

/-- What a run has said of a key: its frames, and the samples that were accepted. -/
structure Ledger (keySize : Nat) where
  sequence : Nat
  record : Option (Record keySize)
  accepted : List (Nat × Sample)

/-- The record of the key before an update: a new one the first time. -/
def Ledger.before (ledger : Ledger keySize) (key : Key keySize) : Record keySize :=
  ledger.record.getD (Record.fresh key ledger.sequence)

/-- An update of the key itself. Unless its generation has been replaced, its sample is accepted. -/
def Ledger.update (ledger : Ledger keySize) (key : Key keySize) (row : DisplayRow) :
    Ledger keySize :=
  let record := (ledger.before key).update row (sampleSlot ledger.sequence)
  { ledger with
    record := some record
    accepted :=
      if (ledger.before key).stale row then ledger.accepted
      else ledger.accepted ++
        [(ledger.sequence, ⟨row.rxDelta, row.txDelta, record.row.sampleValid⟩)] }

/-- The ledger after an input. -/
def Ledger.step (key : Key keySize) (ledger : Ledger keySize) : Input keySize → Ledger keySize
  | .begin _ nowNs _ =>
      { ledger with
        sequence := ledger.sequence + 1
        record := ledger.record.map fun record => record.begin (frameSlot ledger.sequence) nowNs }
  | .update other row => if other = key then ledger.update key row else ledger

/-- The ledger of a key after a list of inputs. -/
def ledgerOf (key : Key keySize) (inputs : List (Input keySize)) : Ledger keySize :=
  Library.Run.run (Ledger.step key) ⟨0, none, []⟩ inputs

theorem ledgerOf_concat (input : Input keySize) :
    ledgerOf key (inputs ++ [input]) = (ledgerOf key inputs).step key input :=
  run_concat _ _ inputs input

/-! ## The table and the ledgers -/

/-- What a history has in common with the ledgers of its keys. A key without a record has not been
seen, or it came when the history was full. -/
structure Kept (inputs : List (Input keySize)) (history : History keySize) : Prop where
  sequence : ∀ key, (ledgerOf key inputs).sequence = history.sequence
  records : ∀ record ∈ history.records, (ledgerOf record.key inputs).record = some record
  missing : ∀ key, (∀ record ∈ history.records, record.key ≠ key) →
    (ledgerOf key inputs).record = none ∨ history.records.length = history.capacity

/-- A frame keeps the samples of the ledger. -/
theorem Kept.begin (h : Kept inputs history) (timestamp : List Char) (nowNs elapsedNs : UInt64) :
    Kept (inputs ++ [.begin timestamp nowNs elapsedNs])
      (trafficHistoryBegin history timestamp nowNs elapsedNs) := by
  refine ⟨fun key => ?_, fun record hmem => ?_, fun key hmissing => ?_⟩
  · rw [ledgerOf_concat]
    exact congrArg (· + 1) (h.sequence key)
  · obtain ⟨old, hold, rfl⟩ := List.mem_map.mp hmem
    rw [ledgerOf_concat]
    show (ledgerOf old.key inputs).record.map _ = _
    rw [h.records old hold, h.sequence]
    rfl
  · rw [ledgerOf_concat]
    have hkey : ∀ record ∈ history.records, record.key ≠ key := fun record hmem =>
      hmissing (record.begin (frameSlot history.sequence) nowNs) (List.mem_map_of_mem hmem)
    refine (h.missing key hkey).imp (fun hnone => ?_) fun hfull => ?_
    · show (ledgerOf key inputs).record.map _ = none
      rw [hnone]
      rfl
    · show (history.records.map _).length = history.capacity
      rw [List.length_map, hfull]

theorem ledgerOf_update_same (row : DisplayRow) :
    ledgerOf key (inputs ++ [.update key row]) = (ledgerOf key inputs).update key row := by
  rw [ledgerOf_concat]
  exact if_pos rfl

theorem ledgerOf_update_other {other : Key keySize} (row : DisplayRow) (hne : other ≠ key) :
    ledgerOf key (inputs ++ [.update other row]) = ledgerOf key inputs := by
  rw [ledgerOf_concat]
  exact if_neg hne

theorem ledgerOf_update_sequence {other : Key keySize} (row : DisplayRow) :
    (ledgerOf key (inputs ++ [.update other row])).sequence = (ledgerOf key inputs).sequence := by
  by_cases heq : other = key
  · subst heq
    rw [ledgerOf_update_same]
    rfl
  · rw [ledgerOf_update_other row heq]

/-- An update keeps the samples of the ledger. -/
theorem Kept.update {history' : History keySize} {row : DisplayRow} {place : Option Nat}
    (h : Kept inputs history) (hsound : Sound history)
    (houtcome : Outcome history key row history' place) :
    Kept (inputs ++ [.update key row]) history' := by
  have hsequence (other : Key keySize) :
      (ledgerOf other (inputs ++ [.update key row])).sequence = history.sequence := by
    rw [ledgerOf_update_sequence, h.sequence]
  cases houtcome with
  | found i old hold hkey =>
      have hrecord : (ledgerOf key inputs).record = some old :=
        hkey ▸ h.records old (List.mem_of_getElem? hold)
      refine ⟨hsequence, fun record hmem => ?_, fun other hmissing => ?_⟩
      · obtain ⟨j, hj⟩ := List.mem_iff_getElem?.mp hmem
        rcases Library.Table.getElem?_set_cases hj with ⟨rfl, rfl⟩ | ⟨hne, hj⟩
        · rw [Record.update_key, hkey, ledgerOf_update_same]
          show some ((Ledger.before _ key).update row _) = _
          rw [Ledger.before, hrecord, h.sequence]
          rfl
        · have hother : key ≠ record.key := fun heq =>
            hne (hsound.place_unique hj hold (heq.symm.trans hkey.symm))
          rw [ledgerOf_update_other row hother]
          exact h.records record (List.mem_of_getElem? hj)
      · have hsame := Library.Table.map_set Record.key hold (Record.update_key old row
          (sampleSlot history.sequence))
        have hstill : ∀ record ∈ history.records, record.key ≠ other := by
          intro record hmem heq
          have hkeys : record.key ∈ (history.records.set i
              (old.update row (sampleSlot history.sequence))).map Record.key :=
            hsame ▸ List.mem_map_of_mem hmem
          obtain ⟨changed, hchanged, heq'⟩ := List.mem_map.mp hkeys
          exact hmissing changed hchanged (heq'.trans heq)
        have hne : key ≠ other := hkey ▸ hstill old (List.mem_of_getElem? hold)
        rw [ledgerOf_update_other row hne, List.length_set]
        exact h.missing other hstill
  | full hnew hfull =>
      refine ⟨hsequence, fun record hmem => ?_, fun other _ => Or.inr hfull⟩
      rw [ledgerOf_update_other row (hnew record hmem).symm]
      exact h.records record hmem
  | inserted slot hnew hroom =>
      have hnone : (ledgerOf key inputs).record = none :=
        (h.missing key hnew).resolve_right (Nat.ne_of_lt hroom)
      refine ⟨hsequence, fun record hmem => ?_, fun other hmissing => ?_⟩
      · rcases List.mem_append.mp hmem with hold | hsingle
        · rw [ledgerOf_update_other row (hnew record hold).symm]
          exact h.records record hold
        · rw [List.mem_singleton.mp hsingle, Record.update_key]
          show (ledgerOf key _).record = _
          rw [ledgerOf_update_same]
          show some ((Ledger.before _ key).update row _) = _
          rw [Ledger.before, hnone, h.sequence]
          rfl
      · have hstill : ∀ record ∈ history.records, record.key ≠ other := fun record hmem =>
          hmissing record (List.mem_append_left _ hmem)
        have hne : key ≠ other := fun heq =>
          hmissing _ (List.mem_append_right _ (List.mem_singleton_self _))
            ((Record.update_key _ _ _).trans heq)
        rw [ledgerOf_update_other row hne]
        exact Or.inl ((h.missing other hstill).resolve_right (Nat.ne_of_lt hroom))

/-- In every run the records are those of the ledgers. -/
theorem run_kept (hopen : trafficHistoryOpen capacity keySize = some opened)
    (hrun : run opened inputs = some history) : Sound history ∧ Kept inputs history := by
  obtain ⟨hopened, -, hempty, hzero⟩ := open_sound hopen
  induction inputs using List.reverseRecOn generalizing history with
  | nil =>
      cases hrun
      refine ⟨hopened, fun key => hzero.symm, fun record hmem => ?_, fun key _ => Or.inl rfl⟩
      rw [hempty] at hmem
      cases hmem
  | append_singleton inputs input ih =>
      rw [run_append] at hrun
      obtain ⟨between, hbetween, hlast⟩ := Option.bind_eq_some_iff.mp hrun
      obtain ⟨hsound, hkept⟩ := ih hbetween
      obtain ⟨result, hstep, hresult, -, -⟩ := step_sound hsound input
      have hsame : result = history := by
        have hsingle : run between [input] = step between input := by
          show (step between input).bind some = step between input
          exact Option.bind_fun_some _
        rw [hsingle, hstep] at hlast
        exact Option.some.inj hlast
      subst hsame
      refine ⟨hresult, ?_⟩
      cases input with
      | begin timestamp nowNs elapsedNs =>
          cases hstep
          exact hkept.begin timestamp nowNs elapsedNs
      | update key row =>
          obtain ⟨updated, place, hupdate, houtcome⟩ := update_outcome hsound key row
          rw [step, hupdate] at hstep
          cases hstep
          exact hkept.update hsound houtcome

end Anettrace.TrafficHistory
