import Anettrace.TrafficHistory.Ledger

/-!
# The window of samples

The ring of a record shows the last frames. The slot of a frame has the last sample that was
accepted for the key while the frame was the current one, and nothing if there was none: what older
frames left in the slot is gone, whether or not the key was updated in between.
-/

namespace Anettrace.TrafficHistory

variable {capacity keySize : Nat} {opened history : History keySize} {key : Key keySize}
  {inputs : List (Input keySize)} {record : Record keySize}

/-- The last sample of a frame. -/
def lastIn (frame : Nat) (accepted : List (Nat × Sample)) : Option Sample :=
  (accepted.filter fun entry => entry.1 = frame).getLast?.map Prod.snd

theorem lastIn_concat_same (frame : Nat) (accepted : List (Nat × Sample)) (sample : Sample) :
    lastIn frame (accepted ++ [(frame, sample)]) = some sample := by
  simp [lastIn, List.filter_append]

theorem lastIn_concat_other {frame other : Nat} (h : other ≠ frame) (accepted : List (Nat × Sample))
    (sample : Sample) : lastIn frame (accepted ++ [(other, sample)]) = lastIn frame accepted := by
  simp [lastIn, List.filter_append, h]

theorem lastIn_of_lt {frame : Nat} {accepted : List (Nat × Sample)}
    (h : ∀ entry ∈ accepted, entry.1 < frame) : lastIn frame accepted = none := by
  have hnone : accepted.filter (fun entry => entry.1 = frame) = [] :=
    List.filter_eq_nil_iff.mpr fun entry hmem heq =>
      Nat.ne_of_lt (h entry hmem) (by simpa using heq)
  rw [lastIn, hnone]
  rfl

/-- Two frames of one window have different slots. -/
theorem frameSlot_ne {first second : Nat} (hless : first < second)
    (hnear : second < first + historySamples) :
    frameSlot first ≠ frameSlot second := by
  intro heq
  have hmod : first % 60 = second % 60 := congrArg Fin.val heq
  have hnear : second < first + 60 := hnear
  omega

/-- The slots of the frames in the window are those of the accepted samples. -/
structure Shown (ledger : Ledger keySize) (record : Record keySize) : Prop where
  past : ∀ entry ∈ ledger.accepted, entry.1 ≤ ledger.sequence
  shown : ∀ frame, 0 < frame → frame ≤ ledger.sequence → ledger.sequence < frame + historySamples →
    record.samples (frameSlot (frame - 1)) = (lastIn frame ledger.accepted).getD Sample.unavailable

variable {ledger : Ledger keySize}

/-- A new frame clears the slot that leaves the window. -/
theorem Shown.begin (h : Shown ledger record) (nowNs : UInt64) :
    Shown { ledger with
      sequence := ledger.sequence + 1
      record := ledger.record.map fun record => record.begin (frameSlot ledger.sequence) nowNs }
      (record.begin (frameSlot ledger.sequence) nowNs) := by
  refine ⟨fun entry hmem => Nat.le_succ_of_le (h.past entry hmem), fun frame hpositive hle hnear =>
    ?_⟩
  dsimp only at hle hnear ⊢
  show Function.update record.samples _ _ _ = _
  rcases Nat.lt_or_eq_of_le hle with hless | rfl
  · have hne := frameSlot_ne (show frame - 1 < ledger.sequence by omega) (by omega)
    rw [Function.update_of_ne hne]
    exact h.shown frame hpositive (Nat.le_of_lt_succ hless) (by omega)
  · rw [Nat.add_sub_cancel, Function.update_self,
      lastIn_of_lt fun entry hmem => Nat.lt_succ_of_le (h.past entry hmem)]
    rfl

/-- An update writes the slot of the current frame alone. -/
theorem Record.count_samples (row : DisplayRow) (slot : Fin historySamples) :
    (record.count row slot).samples =
      Function.update record.samples slot
        ⟨row.rxDelta, row.txDelta, (record.count row slot).row.sampleValid⟩ :=
  rfl

/-- A row of another generation leaves the samples. -/
theorem Record.rebase_samples (row : DisplayRow) :
    (record.rebase row).samples = record.samples := by
  unfold Record.rebase
  split
  · rfl
  · rfl

/-- An update shows its sample. -/
theorem Shown.update (h : Shown ledger (ledger.before key)) (row : DisplayRow) :
    Shown (ledger.update key row) ((ledger.update key row).before key) := by
  have hbefore : (ledger.update key row).before key =
      (ledger.before key).update row (sampleSlot ledger.sequence) := rfl
  rw [hbefore]
  by_cases hstale : (ledger.before key).stale row = true
  · have haccepted : (ledger.update key row).accepted = ledger.accepted := if_pos hstale
    have hsamples : ((ledger.before key).update row (sampleSlot ledger.sequence)).samples =
        (ledger.before key).samples := by
      rw [Record.update, if_pos hstale]
    refine ⟨haccepted ▸ h.past, ?_⟩
    rw [haccepted, hsamples]
    exact h.shown
  · have haccepted : (ledger.update key row).accepted = ledger.accepted ++ [(ledger.sequence,
        ⟨row.rxDelta, row.txDelta,
          ((ledger.before key).update row (sampleSlot ledger.sequence)).row.sampleValid⟩)] :=
      if_neg hstale
    have hsamples : ((ledger.before key).update row (sampleSlot ledger.sequence)).samples =
        Function.update (ledger.before key).samples (sampleSlot ledger.sequence)
          ⟨row.rxDelta, row.txDelta,
            ((ledger.before key).update row (sampleSlot ledger.sequence)).row.sampleValid⟩ := by
      rw [Record.update, if_neg hstale, Record.count_samples, Record.rebase_samples]
    refine ⟨?_, fun frame hpositive hle hnear => ?_⟩
    · rw [haccepted]
      exact List.forall_mem_append.mpr ⟨h.past, List.forall_mem_singleton.mpr (Nat.le_refl _)⟩
    · have hle : frame ≤ ledger.sequence := hle
      have hnear : ledger.sequence < frame + historySamples := hnear
      have hslot : sampleSlot ledger.sequence = frameSlot (ledger.sequence - 1) := if_neg (by omega)
      rw [haccepted, hsamples, hslot]
      rcases Nat.lt_or_eq_of_le hle with hless | rfl
      · have hne := frameSlot_ne (show frame - 1 < ledger.sequence - 1 by omega) (by omega)
        rw [Function.update_of_ne hne, lastIn_concat_other (Nat.ne_of_gt hless)]
        exact h.shown frame hpositive hle hnear
      · rw [Function.update_self, lastIn_concat_same]
        rfl

/-- The record of a ledger shows what the ledger holds. -/
theorem ledger_shown (key : Key keySize) (inputs : List (Input keySize)) :
    Shown (ledgerOf key inputs) ((ledgerOf key inputs).before key) := by
  induction inputs using List.reverseRecOn with
  | nil =>
      exact ⟨List.forall_mem_nil _, fun frame hpositive hle =>
        absurd hle (Nat.not_le_of_lt hpositive)⟩
  | append_singleton inputs input ih =>
      rw [ledgerOf_concat]
      cases input with
      | begin timestamp nowNs elapsedNs =>
          have hbegin := ih.begin nowNs
          unfold Ledger.before at hbegin ih ⊢
          unfold Ledger.step
          dsimp only
          cases hrecord : (ledgerOf key inputs).record with
          | none =>
              rw [hrecord] at hbegin
              have hempty : ((Record.fresh key (ledgerOf key inputs).sequence).begin
                  (frameSlot (ledgerOf key inputs).sequence) nowNs).samples =
                    fun _ => Sample.unavailable :=
                Function.update_eq_self _ _
              refine ⟨hbegin.past, fun frame hpositive hle hnear => ?_⟩
              exact (congrFun hempty _).symm.trans (hbegin.shown frame hpositive hle hnear)
          | some record =>
              rw [hrecord] at hbegin
              exact hbegin
      | update other row =>
          unfold Ledger.step
          by_cases hother : other = key
          · subst hother
            dsimp only
            rw [if_pos rfl]
            exact ih.update row
          · dsimp only
            rw [if_neg hother]
            exact ih

/-- In every run the slot of each of the last frames has the last accepted sample of the key in that
frame, and nothing if there is none. -/
theorem window_content (hopen : trafficHistoryOpen capacity keySize = some opened)
    (hrun : run opened inputs = some history) (hmem : record ∈ history.records) {frame : Nat}
    (hpositive : 0 < frame) (hle : frame ≤ history.sequence)
    (hnear : history.sequence < frame + historySamples) :
    record.samples (frameSlot (frame - 1)) =
      (lastIn frame (ledgerOf record.key inputs).accepted).getD Sample.unavailable := by
  obtain ⟨-, hkept⟩ := run_kept hopen hrun
  have hshown := ledger_shown record.key inputs
  rw [Ledger.before, hkept.records record hmem, Option.getD_some] at hshown
  rw [← hkept.sequence record.key] at hle hnear
  exact hshown.shown frame hpositive hle hnear

/-- A sample of the first frame is still shown in the second one. -/
theorem window_content_second :
    ∃ (opened history : History 1) (record : Record 1), trafficHistoryOpen 1 1 = some opened ∧
      run opened [.begin [] 1 1, .update ⟨[7], rfl⟩ ⟨5, 0, 5, 0, 1, 1, 0, true, false⟩,
        .begin [] 2 1] =
        some history ∧
      record ∈ history.records ∧ record.samples (frameSlot 0) = ⟨5, 0, true⟩ := by
  refine ⟨_, _, ((Record.fresh ⟨[7], rfl⟩ 1).update ⟨5, 0, 5, 0, 1, 1, 0, true, false⟩
    (sampleSlot 1)).begin (frameSlot 1) 2, rfl, rfl, List.mem_singleton_self _, ?_⟩
  have hwindow := @window_content 1 1 _ _
    [.begin [] 1 1, .update ⟨[7], rfl⟩ ⟨5, 0, 5, 0, 1, 1, 0, true, false⟩, .begin [] 2 1]
    (((Record.fresh ⟨[7], rfl⟩ 1).update ⟨5, 0, 5, 0, 1, 1, 0, true, false⟩ (sampleSlot 1)).begin
      (frameSlot 1) 2)
    rfl rfl (List.mem_singleton_self _) 1 (by decide) (by decide) (by decide)
  exact hwindow.trans (by decide)

end Anettrace.TrafficHistory
