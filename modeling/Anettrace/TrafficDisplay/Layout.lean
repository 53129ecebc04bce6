import Anettrace.TrafficDisplay.Model

/-!
# The lines of a frame

The lines that are predicted for a row are the lines that it prints, so that the loop over the rows
only starts a row that fits, and what comes after the rows still has its room.
-/

namespace Anettrace.TrafficDisplay

open Library
open TrafficHistory (historySamples)

variable {R Ref : Type*} {doubles : Doubles R} {width : Nat}

/-! ## Rows -/

theorem endpointPrints_length (hwidth : 8 < width) (label endpoint : Text) :
    (endpointPrints width label endpoint).length = trafficEndpointLines endpoint width := by
  have hpieces : (Page.pieces (width - 8) (endpoint.length + 1) endpoint).length =
      trafficEndpointLines endpoint width :=
    Page.length_pieces (Nat.sub_pos_of_lt hwidth) (Nat.lt_succ_self _)
  unfold endpointPrints
  split
  · rename_i hnil
    rw [← hpieces, hnil]
    rfl
  · rename_i first rest hcons
    rw [← hpieces, hcons, List.length_cons, List.length_map, List.length_cons]

theorem rowPrints_length (hwidth : 8 < width) (row : Row R Ref) (flows wide spacing : Bool) :
    (rowPrints doubles width row flows wide spacing).length =
      trafficRowLines row flows wide spacing width := by
  have hlocal := endpointPrints_length hwidth (utf8 "Local") row.localEnd
  have hremote := endpointPrints_length hwidth (utf8 "Remote") row.remote
  have hspacing : (if spacing = true then [(⟨none, []⟩ : Print)] else []).length =
      spacing.toNat := by
    cases spacing <;> rfl
  unfold rowPrints trafficRowLines
  cases wide <;> cases flows <;> by_cases hnarrow : width < 40 <;>
    simp [hlocal, hremote, hspacing, hnarrow] <;> omega

/-! ## Frames with the lines that were asked for -/

def printed (width limit : Nat) (prints : List Print) : Frame :=
  ⟨width, limit, prints.map (Print.clipped width)⟩

variable {limit : Nat} {prints more : List Print}

@[simp] theorem printed_used : (printed width limit prints).used = prints.length :=
  List.length_map ..

@[simp] theorem printed_width : (printed width limit prints).width = width := rfl

@[simp] theorem printed_limit : (printed width limit prints).limit = limit := rfl

theorem trafficLines_printed (h : prints.length + more.length ≤ limit) :
    trafficLines (printed width limit prints) more = printed width limit (prints ++ more) := by
  have hroom : (printed width limit prints).used + more.length ≤
      (printed width limit prints).limit := by
    rw [printed_used]
    exact h
  rw [trafficLines_of_room hroom, printed, printed, List.map_append]

theorem trafficLine_printed {print : Print} (h : prints.length < limit) :
    trafficLine (printed width limit prints) print = printed width limit (prints ++ [print]) := by
  show trafficLines (printed width limit prints) [print] = printed width limit (prints ++ [print])
  exact trafficLines_printed h

def rowsPrints (doubles : Doubles R) (width : Nat) (flows wide spacing : Bool)
    (rows : List (Row R Ref)) :
    List Print :=
  rows.flatMap fun row => rowPrints doubles width row flows wide spacing

/-- The loop over the rows prints the rows that it shows in full, out of the lines it was given. -/
theorem renderRows_printed (doubles : Doubles R) (flows wide spacing : Bool) {available : Nat}
    (hwidth : 8 < width) (hroom : prints.length + available ≤ limit) (rows : List (Row R Ref)) :
    ∃ left shown,
      renderRows doubles flows wide spacing (printed width limit prints) available rows =
        (printed width limit (prints ++ rowsPrints doubles width flows wide spacing
          (rows.take shown)),
          left, shown) ∧
      (rowsPrints doubles width flows wide spacing (rows.take shown)).length + left = available ∧
      shown ≤ rows.length := by
  induction rows generalizing prints available with
  | nil =>
      exact ⟨available, 0, by simp [renderRows, rowsPrints], by simp [rowsPrints], Nat.le_refl _⟩
  | cons row rows ih =>
      unfold renderRows
      dsimp only
      rw [printed_width]
      split
      · exact ⟨available, 0, by simp [rowsPrints], by simp [rowsPrints], Nat.zero_le _⟩
      · rename_i hfits
        have hlength : (rowPrints doubles width row flows wide spacing).length =
            trafficRowLines row flows wide spacing width :=
              rowPrints_length hwidth row flows wide spacing
        have hrow : prints.length + (rowPrints doubles width row flows wide spacing).length ≤
            limit := by omega
        have hrest : (prints ++ rowPrints doubles width row flows wide spacing).length +
            (available - trafficRowLines row flows wide spacing width) ≤ limit := by
          rw [List.length_append]
          omega
        obtain ⟨left, shown, hrender, hleft, hshown⟩ := ih hrest
        have hprinted : trafficRenderRow doubles (printed width limit prints) row flows
            wide spacing =
            printed width limit (prints ++ rowPrints doubles width row flows wide spacing) :=
          trafficLines_printed hrow
        rw [hprinted, hrender]
        refine ⟨left, shown + 1, ?_, ?_, Nat.succ_le_succ hshown⟩
        · rw [List.take_succ_cons, rowsPrints, rowsPrints, List.flatMap_cons, List.append_assoc]
        · rw [List.take_succ_cons, rowsPrints, List.flatMap_cons, List.length_append, hlength,
            Nat.add_assoc, ← rowsPrints, hleft]
          omega

/-! ## Live frames -/

/-- The position takes one line, or two in a narrow window. -/
theorem positionPrints_length (width first shown total : Nat) :
    (positionPrints width first shown total).length = if width < 44 then 2 else 1 := by
  unfold positionPrints
  dsimp only
  split <;> rfl

/-- The keys take more lines in a narrow window. -/
theorem controlPrints_length (width : Nat) (inputSaved : Bool) :
    (controlPrints width inputSaved).length =
      (if width < 64 then 2 else 1) + if inputSaved = true ∧ width < 64 then 2 else 1 := by
  unfold controlPrints
  rw [List.length_append]
  split <;> split <;> rfl

theorem warningPrints_length (warning : Option Text) (width lines : Nat) :
    (warningPrints warning width lines).length = lines := by
  rw [warningPrints, List.length_map, List.length_range]

theorem footer_length (width first shown total : Nat) (inputSaved : Bool) :
    (positionPrints width first shown total).length + (controlPrints width inputSaved).length =
      footerLines width inputSaved := by
  rw [positionPrints_length, controlPrints_length, footerLines, Nat.add_assoc]

/-- What comes after the rows. -/
def tailPrints (width first shown : Nat) (inputSaved : Bool) (snapshot : Snapshot R Ref)
    (warnings : Nat)
    (waiting : Bool) : List Print :=
  (if waiting then [⟨some .muted, utf8 "等待 Socket 收发..."⟩] else []) ++
    (positionPrints width first shown snapshot.rows.length ++
      (warningPrints snapshot.warning width warnings ++ controlPrints width inputSaved))

/-- The lines at the end of a frame. -/
theorem tailPrints_length (width first shown : Nat) (inputSaved : Bool) (snapshot : Snapshot R Ref)
    (warnings : Nat) (waiting : Bool) :
    (tailPrints width first shown inputSaved snapshot warnings waiting).length =
      waiting.toNat + warnings + footerLines width inputSaved := by
  have hfooter := footer_length width first shown snapshot.rows.length inputSaved
  rw [tailPrints, List.length_append, List.length_append, List.length_append, warningPrints_length]
  cases waiting with
  | true =>
      rw [if_pos rfl, List.length_singleton, Bool.toNat_true]
      omega
  | false =>
      rw [if_neg Bool.false_ne_true, List.length_nil, Bool.toNat_false]
      omega

def titlePrint : Print := ⟨some .title, utf8 "ANETTRACE / TRAFFIC LAB"⟩

/-- What a live frame shows, from the first of its rows and the number of rows and of lines of the
warning. -/
def livePrints (doubles : Doubles R) (width limit : Nat) (inputSaved : Bool)
    (snapshot : Snapshot R Ref)
    (first shown warnings : Nat) (waiting : Bool) : List Print :=
  let wide := decide (width ≥ if snapshot.flows then 110 else 100)
  let spacing := !wide && decide (limit ≥ 30)
  titlePrint :: headPrints doubles snapshot ++
    (totalPrints doubles snapshot ++ [columnPrint wide snapshot.flows]) ++
    rowsPrints doubles width snapshot.flows wide spacing ((snapshot.rows.drop first).take shown) ++
    tailPrints width first shown inputSaved snapshot warnings waiting

/-- The lines of a warning for which there is room. -/
def shownWarnings (snapshot : Snapshot R Ref) (width limit : Nat) (inputSaved : Bool) : Nat :=
  min (trafficWarningLines snapshot.warning width) (limit - 11 - footerLines width inputSaved)

/-- A live frame in a terminal that is not too small prints everything that it shows. -/
theorem renderLive_printed (hwidth : 32 ≤ width) {display : Display Ref} {snapshot : Snapshot R Ref}
    (hlimit : 12 + footerLines width display.inputSaved ≤ limit) :
    ∃ shown waiting,
      renderLive doubles (printed width limit (titlePrint :: headPrints doubles snapshot))
        display snapshot =
        (printed width limit (livePrints doubles width limit display.inputSaved snapshot
            (clampRow display.firstRow snapshot.rows.length) shown
            (shownWarnings snapshot width limit display.inputSaved) waiting),
          clampRow display.firstRow snapshot.rows.length) ∧
      shown ≤ snapshot.rows.length - clampRow display.firstRow snapshot.rows.length ∧
      (livePrints doubles width limit display.inputSaved snapshot
        (clampRow display.firstRow snapshot.rows.length) shown
        (shownWarnings snapshot width limit display.inputSaved) waiting).length ≤ limit := by
  generalize hfirst : clampRow display.firstRow snapshot.rows.length = first
  generalize hwide : decide (width ≥ if snapshot.flows then 110 else 100) = wide
  generalize hspacing : (!wide && decide (limit ≥ 30)) = spacing
  generalize hfooter : footerLines width display.inputSaved = footer at hlimit
  generalize hwarnings : shownWarnings snapshot width limit display.inputSaved = warnings
  have hwarningsRoom : warnings ≤ limit - 11 - footer := by
    rw [← hwarnings, shownWarnings, hfooter]
    exact Nat.min_le_right ..
  -- The first eleven lines.
  generalize htop : titlePrint :: headPrints doubles snapshot ++
    (totalPrints doubles snapshot ++ [columnPrint wide snapshot.flows]) = top
  have htopLength : top.length = 11 := by
    rw [← htop]
    rfl
  have htopPrinted : trafficLines (printed width limit (titlePrint :: headPrints doubles snapshot))
      (totalPrints doubles snapshot ++ [columnPrint wide snapshot.flows]) =
        printed width limit top := by
    rw [← htop]
    refine trafficLines_printed ?_
    have hlength : (titlePrint :: headPrints doubles snapshot ++
      (totalPrints doubles snapshot ++ [columnPrint wide snapshot.flows])).length = 11 := by
        rw [htop, htopLength]
    rw [← List.length_append, hlength]
    omega
  -- The rows, with the lines that are left.
  have hwarningsMin : min (trafficWarningLines snapshot.warning width) (limit - 11 - footer) =
      warnings := by
    rw [← hwarnings, shownWarnings, hfooter]
  have hroom : top.length + (limit - 11 - warnings - footer) ≤ limit := by omega
  obtain ⟨left, shown, hrows, hleft, hshown⟩ :=
    renderRows_printed doubles snapshot.flows wide spacing (by omega : 8 < width) hroom
      (snapshot.rows.drop first)
  generalize hbody : top ++ rowsPrints doubles width snapshot.flows wide spacing
    ((snapshot.rows.drop first).take shown) = body at hrows
  have hbodyLength : body.length + left = limit - warnings - footer := by
    rw [← hbody, List.length_append, htopLength]
    omega
  generalize hwaiting : decide (snapshot.rows.length = 0 ∧ left ≠ 0) = waiting
  have hlive : livePrints doubles width limit display.inputSaved snapshot first shown
      warnings waiting =
      body ++ tailPrints width first shown display.inputSaved snapshot warnings waiting := by
    unfold livePrints
    dsimp only
    rw [hwide, hspacing, htop, hbody]
  have htail := tailPrints_length width first shown display.inputSaved snapshot warnings waiting
  have hwaitingLeft : waiting.toNat ≤ left := by
    rw [← hwaiting]
    by_cases hempty : snapshot.rows.length = 0 ∧ left ≠ 0
    · rw [decide_eq_true hempty]
      exact Nat.one_le_iff_ne_zero.mpr hempty.2
    · rw [decide_eq_false hempty]
      exact Nat.zero_le _
  -- The line of an empty frame, and what comes after it.
  generalize hwaitingPrints : (if waiting then
    [(⟨some .muted, utf8 "等待 Socket 收发..."⟩ : Print)] else []) =
    waitingPrints
  have hwaitingLength : waitingPrints.length = waiting.toNat := by
    rw [← hwaitingPrints]
    cases waiting <;> rfl
  have hwait : (if snapshot.rows.length = 0 ∧ left ≠ 0 then
        trafficLine (printed width limit body) ⟨some .muted, utf8 "等待 Socket 收发..."⟩
      else printed width limit body) = printed width limit (body ++ waitingPrints) := by
    rw [← hwaitingPrints, ← hwaiting]
    by_cases hempty : snapshot.rows.length = 0 ∧ left ≠ 0
    · rw [if_pos hempty, decide_eq_true hempty, if_pos rfl]
      exact trafficLine_printed (by omega)
    · rw [if_neg hempty, decide_eq_false hempty, if_neg Bool.false_ne_true, List.append_nil]
  have hrestRoom : (body ++ waitingPrints).length +
      (positionPrints width first shown snapshot.rows.length ++
        (warningPrints snapshot.warning width warnings ++
          controlPrints width display.inputSaved)).length ≤ limit := by
    rw [tailPrints, hwaitingPrints] at htail
    simp only [List.length_append] at htail ⊢
    omega
  refine ⟨shown, waiting, ?_, ?_, ?_⟩
  · unfold renderLive
    dsimp only
    rw [printed_width, printed_limit, hwide, hspacing, htopPrinted, printed_used, htopLength,
      hfooter, hfirst,
      printed_width, printed_limit, hwarningsMin, hrows]
    dsimp only
    rw [hwait]
    simp only [trafficLines_width, printed_width]
    rw [← trafficLines_append, ← trafficLines_append, trafficLines_printed hrestRoom,
      hlive, tailPrints,
      hwaitingPrints, List.append_assoc]
  · rwa [List.length_drop] at hshown
  · rw [hlive, List.length_append, htail, hfooter]
    omega

end Anettrace.TrafficDisplay
