import Anettrace.TrafficDisplay.Layout

/-!
# The frame of a history

A history that is shown has its record in full, the samples for which there is room, and its footer.
The samples are among those that the history still has of the record.
-/

namespace Anettrace.TrafficDisplay

open Library
open TrafficHistory (historySamples)

variable {R Ref : Type*} {doubles : Doubles R} {width limit : Nat} {prints : List Print}

/-- A sample takes one line, or three. -/
theorem samplePrints_length (perSample : Nat) (time : SampleTime) (sample : TrafficHistory.Sample) :
    (samplePrints doubles perSample time sample).length = if perSample = 1 then 1 else 3 := by
  unfold samplePrints
  dsimp only
  split
  · rfl
  · split <;> rfl

theorem historyFooter_length (width first last count : Nat) :
    (historyFooter width first last count).length = historyFooterLines width := by
  unfold historyFooter historyFooterLines
  split <;> rfl

/-- The calls of a loop are calls in turn. -/
theorem trafficLines_foldl {ι : Type*} (body : ι → List Print) (items : List ι) (frame : Frame) :
    items.foldl (fun frame item => trafficLines frame (body item)) frame =
      trafficLines frame (items.flatMap body) := by
  induction items generalizing frame with
  | nil => rfl
  | cons item items ih => rw [List.foldl_cons, ih, List.flatMap_cons, trafficLines_append]

/-! ## Samples -/

variable {history : History} {record : Record R Ref}

theorem oldestSequence_le (hborn : record.bornSequence ≤ history.sequence)
    (h : history.sequence ≠ 0) :
    oldestSequence history record ≤ history.sequence := by
  refine Nat.max_le.mpr ⟨?_, hborn⟩
  split
  · have hpositive : 0 < historySamples := by decide
    omega
  · exact Nat.one_le_iff_ne_zero.mpr h

/-- How far a history of so many samples can be scrolled. -/
def clampScroll (historyScroll count : Nat) : Nat :=
  if historyScroll ≥ count then count - 1 else historyScroll

theorem clampScroll_lt (historyScroll : Nat) {count : Nat} (h : 0 < count) :
    clampScroll historyScroll count < count := by
  unfold clampScroll
  split
  · exact Nat.sub_lt h Nat.one_pos
  · rename_i hless
    exact Nat.lt_of_not_le hless

theorem sampleCount_le : sampleCount history record ≤ historySamples := by
  have holdest :
      (if history.sequence ≥ historySamples then history.sequence - historySamples + 1 else 1) ≤
      oldestSequence history record := Nat.le_max_left ..
  have hsamples : historySamples = 60 := rfl
  unfold sampleCount
  split at holdest <;> omega

theorem sampleCount_pos : 0 < sampleCount history record := Nat.succ_pos _

/-! ## Frames -/

/-- What stands in place of a history that is not shown. -/
def hiddenPrints : List Print :=
  [⟨some .muted, utf8 "请放大终端查看历史"⟩, ⟨some .muted, utf8 "h 返回 | q 退出"⟩]

/-- The record of a history and the two lines below it. -/
def recordPrints (doubles : Doubles R) (width : Nat) (flows : Bool) (record : Record R Ref) :
    List Print :=
  rowPrints doubles width record.row flows false false ++
    [⟨some .title, utf8 "历史: 最近 60 次采样"⟩, ⟨some .muted, utf8 "收发量 / 速率 | 采样结束时间"⟩]

def samplesPrints (doubles : Doubles R) (width : Nat) (history : History) (record : Record R Ref)
    (start shown : Nat) : List Print :=
  (List.range' start shown).flatMap fun sequence =>
    samplePrints doubles (if width ≥ 110 then 1 else 3) (history.frames (sampleSlot sequence))
      (record.samples (sampleSlot sequence))

/-- What a history that is shown prints below the four lines of every frame. -/
def historyPrints (doubles : Doubles R) (width : Nat) (flows : Bool) (history : History)
    (record : Record R Ref)
    (start shown last : Nat) : List Print :=
  let oldest := oldestSequence history record
  recordPrints doubles width flows record ++
    (samplesPrints doubles width history record start shown ++
    historyFooter width (if shown = 0 then 0 else start - oldest + 1)
      (if shown = 0 then 0 else last - oldest + 1)
      (sampleCount history record))

theorem recordPrints_length (doubles : Doubles R) (hwidth : 8 < width) (flows : Bool)
    (record : Record R Ref) :
    (recordPrints doubles width flows record).length =
      trafficRowLines record.row flows false false width + 2 := by
  rw [recordPrints, List.length_append, rowPrints_length hwidth]
  rfl

/-- The samples take one line each, or three. -/
theorem samplesPrints_length (doubles : Doubles R) (width : Nat) (history : History)
    (record : Record R Ref) (start shown : Nat) :
    (samplesPrints doubles width history record start shown).length =
      shown * if width ≥ 110 then 1 else 3 := by
  unfold samplesPrints
  simp only [List.length_flatMap, samplePrints_length]
  rw [List.map_const', List.length_range', List.sum_replicate_nat]
  split <;> rfl

theorem trafficRenderHistory_hidden {flows : Bool} {shown : Option History}
    (h : HistoryHidden (printed width limit prints) record flows shown)
    (hroom : prints.length + 2 ≤ limit) (historyScroll : Nat) :
    trafficRenderHistory doubles (printed width limit prints) record flows shown historyScroll =
      (printed width limit (prints ++ hiddenPrints), historyScroll) := by
  unfold trafficRenderHistory
  dsimp only
  rw [if_pos h]
  exact congrArg (·, historyScroll) (trafficLines_printed hroom)

theorem trafficRenderHistory_printed (doubles : Doubles R) (hwidth : 8 < width) {flows : Bool}
    {shown : Option History} (h : ¬ HistoryHidden (printed width limit prints) record flows shown)
    (hborn : ∀ history, shown = some history → record.bornSequence ≤ history.sequence)
    (historyScroll : Nat) :
    ∃ history start count,
      shown = some history ∧
      trafficRenderHistory doubles (printed width limit prints) record flows shown historyScroll =
        (printed width limit (prints ++ historyPrints doubles width flows history record start count
            (history.sequence - clampScroll historyScroll (sampleCount history record))),
          clampScroll historyScroll (sampleCount history record)) ∧
      (prints ++ historyPrints doubles width flows history record start count
        (history.sequence - clampScroll historyScroll (sampleCount history record))).length ≤
          limit ∧
      oldestSequence history record ≤ start ∧
      start + count = history.sequence - clampScroll historyScroll
        (sampleCount history record) + 1 := by
  cases shown with
  | none => exact absurd (Or.inl rfl) h
  | some history =>
      obtain ⟨hsequence, hroom⟩ := not_or.mp h
      have holdest := oldestSequence_le (hborn history rfl) hsequence
      have hscroll : clampScroll historyScroll (sampleCount history record) <
          sampleCount history record :=
        clampScroll_lt historyScroll sampleCount_pos
      generalize hclamp : clampScroll historyScroll (sampleCount history record) = scroll at hscroll
      generalize hlast : history.sequence - scroll = last
      have hlastOldest : oldestSequence history record ≤ last := by
        rw [sampleCount] at hscroll
        omega
      -- The record has its room, and the footer after it.
      generalize hbody : prints ++ recordPrints doubles width flows record = body
      have hbodyLength : body.length + historyFooterLines width ≤ limit := by
        have hlength := recordPrints_length doubles hwidth flows record
        rw [printed_used, printed_width, printed_limit] at hroom
        rw [← hbody, List.length_append, hlength]
        omega
      -- The samples take what is left above the footer.
      generalize hcount : min ((limit - body.length - historyFooterLines width) / if width ≥
        110 then 1 else 3)
        (last - oldestSequence history record + 1) = count
      have hcountRoom : (count * if width ≥ 110 then 1 else 3) ≤
          limit - body.length - historyFooterLines width := by
        calc (count * if width ≥ 110 then 1 else 3)
            ≤ (limit - body.length - historyFooterLines width) / (if width ≥ 110 then 1 else 3) *
                if width ≥ 110 then 1 else 3 := Nat.mul_le_mul_right _ (hcount ▸ Nat.min_le_left ..)
          _ ≤ limit - body.length - historyFooterLines width := Nat.div_mul_le_self ..
      have hcountLast : count ≤ last - oldestSequence history record + 1 :=
        hcount ▸ Nat.min_le_right ..
      have hsamples := samplesPrints_length doubles width history record (last + 1 - count) count
      have hsplit : prints ++ historyPrints doubles width flows history record
          (last + 1 - count) count last =
          body ++ (samplesPrints doubles width history record (last + 1 - count) count ++
            historyFooter width (if count = 0 then 0
              else last + 1 - count - oldestSequence history record + 1)
              (if count = 0 then 0 else last - oldestSequence history record + 1)
                (sampleCount history record)) := by
        rw [← hbody, historyPrints, List.append_assoc]
      have hlength :
          (body ++ (samplesPrints doubles width history record (last + 1 - count) count ++
          historyFooter width (if count = 0 then 0
            else last + 1 - count - oldestSequence history record + 1)
            (if count = 0 then 0 else last - oldestSequence history record + 1)
            (sampleCount history record))).length ≤ limit := by
        rw [List.length_append, List.length_append, hsamples, historyFooter_length]
        omega
      refine ⟨history, last + 1 - count, count, rfl, ?_, ?_, ?_, ?_⟩
      · have hrecordRoom : prints.length + (recordPrints doubles width flows record).length ≤
            limit := by
          rw [← List.length_append, hbody]
          omega
        have hrecord : trafficLines (trafficRenderRow doubles (printed width limit prints)
            record.row flows false false)
            [⟨some .title, utf8 "历史: 最近 60 次采样"⟩, ⟨some .muted, utf8 "收发量 / 速率 | 采样结束时间"⟩] =
            printed width limit body := by
          rw [trafficRenderRow, ← trafficLines_append, ← hbody]
          exact trafficLines_printed hrecordRoom
        have hclamped :
            (if historyScroll ≥ sampleCount history record then sampleCount history record - 1
          else historyScroll) = scroll := hclamp
        unfold trafficRenderHistory
        dsimp only
        rw [if_neg h, hrecord]
        generalize hper : (if (printed width limit prints).width ≥ 110 then 1 else 3) = perSample
        have hper' : perSample = if width ≥ 110 then 1 else 3 := hper.symm
        simp only [printed_width, printed_limit, printed_used, trafficLines_foldl,
          trafficLines_width, hclamped,
          hclamp, hlast, hper', hcount]
        rw [hsplit, ← trafficLines_append, ← samplesPrints, trafficLines_printed]
        rw [← List.length_append]
        exact hlength
      · rw [hclamp, hlast, hsplit]
        exact hlength
      · omega
      · omega

end Anettrace.TrafficDisplay
