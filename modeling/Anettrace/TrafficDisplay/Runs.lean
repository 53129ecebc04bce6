import Anettrace.Library.Run
import Anettrace.TrafficDisplay.History
import Anettrace.TrafficHistory.Runs

/-!
# Frames and keys

A terminal with the room that the display asks for gets every line of its frame. Keys and frames in
any order keep the positions of the display in their ranges, up to what only the next frame can
know: the number of the rows, and of the samples of a record.
-/

namespace Anettrace.TrafficDisplay

open Library
open TrafficHistory (historySamples)

variable {R Ref : Type*} {doubles : Doubles R} {display : Display Ref} {window : Window}
  {snapshot : Snapshot R Ref}

/-! ## Frames -/

/-- The terminal has the room that the display asks for. -/
def Fits (window : Window) (inputSaved : Bool) : Prop :=
  32 ≤ (windowFrame window).width ∧
    12 + footerLines (windowFrame window).width inputSaved ≤ (windowFrame window).limit

/-- The first four lines of a frame. -/
def openingPrints (doubles : Doubles R) (snapshot : Snapshot R Ref) : List Print :=
  titlePrint :: headPrints doubles snapshot

/-- A live frame is its lines in full, with whole rows, all of its footer, and the lines of the
warning for which there is room. -/
def ShowsLive (doubles : Doubles R) (width limit : Nat) (display : Display Ref)
    (snapshot : Snapshot R Ref)
    (result : Display Ref × List Print) : Prop :=
  ∃ first shown waiting,
    result.1 = { display with firstRow := first } ∧
    result.2 = (livePrints doubles width limit display.inputSaved snapshot first shown
      (shownWarnings snapshot width limit display.inputSaved) waiting).map (Print.clipped width) ∧
    result.2.length ≤ limit ∧
    (first = 0 ∨ first < snapshot.rows.length) ∧ first + shown ≤ snapshot.rows.length

/-- The frame of a history is its lines in full, with the whole record, its footer, and as many
samples of the record, up to the one to which it is scrolled. -/
def ShowsHistory (doubles : Doubles R) (width limit : Nat) (display : Display Ref)
    (snapshot : Snapshot R Ref)
    (record : Record R Ref) (result : Display Ref × List Print) : Prop :=
  ∃ history scroll start count,
    snapshot.history = some history ∧
    result.1 = { display with historyScroll := scroll } ∧
    result.2 = (openingPrints doubles snapshot ++ historyPrints doubles width snapshot.flows
      history record
      start count (history.sequence - scroll)).map (Print.clipped width) ∧
    result.2.length ≤ limit ∧
    scroll < sampleCount history record ∧
    oldestSequence history record ≤ start ∧ start + count = history.sequence - scroll + 1

theorem windowFrame_used (window : Window) : (windowFrame window).lines = [] := by
  cases window <;> rfl

theorem opening_printed (doubles : Doubles R) (snapshot : Snapshot R Ref)
    (hfits : Fits window display.inputSaved) :
    trafficLine (windowFrame window) titlePrint =
        printed (windowFrame window).width (windowFrame window).limit [titlePrint] ∧
      trafficLines (printed (windowFrame window).width (windowFrame window).limit [titlePrint])
          (headPrints doubles snapshot) =
        printed (windowFrame window).width (windowFrame window).limit
          (openingPrints doubles snapshot) := by
  obtain ⟨-, hlimit⟩ := hfits
  have hopen : windowFrame window = printed (windowFrame window).width
      (windowFrame window).limit [] := by
    rw [printed, List.map_nil, ← windowFrame_used window]
  refine ⟨?_, trafficLines_printed ?_⟩
  · conv_lhs => rw [hopen]
    exact trafficLine_printed (by rw [List.length_nil]; omega)
  · show 1 + 3 ≤ _
    omega

/-- The frame after its opening. -/
theorem render_fits (hactive : display.active = true) (hfits : Fits window display.inputSaved) :
    trafficDisplayRender doubles display window snapshot =
      match display.historyRecord with
      | some ref =>
          let (frame, historyScroll) := trafficRenderHistory doubles
            (printed (windowFrame window).width (windowFrame window).limit
              (openingPrints doubles snapshot))
            (snapshot.records ref) snapshot.flows snapshot.history display.historyScroll
          ({ display with historyScroll := historyScroll }, frame.lines)
      | none =>
          let (frame, firstRow) := renderLive doubles
            (printed (windowFrame window).width (windowFrame window).limit
              (openingPrints doubles snapshot))
            display snapshot
          ({ display with firstRow := firstRow }, frame.lines) := by
  obtain ⟨htitle, hhead⟩ := opening_printed doubles snapshot hfits
  obtain ⟨hwidth, hlimit⟩ := hfits
  have hlarge :
      ¬ TooSmall (printed (windowFrame window).width (windowFrame window).limit [titlePrint])
      display.inputSaved := by
    rintro (hnarrow | hshort)
    · exact absurd hwidth (Nat.not_le_of_lt hnarrow)
    · exact absurd hlimit (Nat.not_le_of_lt hshort)
  have hopen : ¬ display.active = false := by
    rw [hactive]
    exact Bool.noConfusion
  unfold trafficDisplayRender
  rw [if_neg hopen]
  dsimp only
  rewrite [← titlePrint, htitle, if_neg hlarge, hhead]
  cases display.historyRecord <;> rfl

theorem clampRow_range (firstRow count : Nat) :
    clampRow firstRow count = 0 ∨ clampRow firstRow count < count := by
  unfold clampRow
  split
  · exact Or.inl rfl
  · split <;> omega

theorem render_live (hactive : display.active = true) (hfits : Fits window display.inputSaved)
    (hlive : display.historyRecord = none) :
    ShowsLive doubles (windowFrame window).width (windowFrame window).limit display snapshot
      (trafficDisplayRender doubles display window snapshot) := by
  have hrange := clampRow_range display.firstRow snapshot.rows.length
  obtain ⟨shown, waiting, hrender, hshown, hlength⟩ :=
    @renderLive_printed R Ref doubles _ _ hfits.1 display snapshot hfits.2
  obtain ⟨active, inputSaved, firstRow, historyScroll, historyRecord⟩ := display
  obtain rfl : historyRecord = none := hlive
  rw [render_fits hactive hfits]
  dsimp only
  rw [openingPrints, hrender]
  refine ⟨_, shown, waiting, rfl, rfl, ?_, hrange, ?_⟩
  · rw [printed, List.length_map]
    exact hlength
  · omega

theorem render_history (hactive : display.active = true) (hfits : Fits window display.inputSaved)
    {ref : Ref} (hrecord : display.historyRecord = some ref) (hshown : ¬ HistoryHidden
      (printed (windowFrame window).width (windowFrame window).limit
        (openingPrints doubles snapshot))
      (snapshot.records ref) snapshot.flows snapshot.history) :
    ShowsHistory doubles (windowFrame window).width (windowFrame window).limit display snapshot
      (snapshot.records ref) (trafficDisplayRender doubles display window snapshot) := by
  have hwidth : 8 < (windowFrame window).width := Nat.lt_of_lt_of_le (by decide) hfits.1
  obtain ⟨history, start, count, hhistory, hrender, hlength, hstart, hlast⟩ :=
    trafficRenderHistory_printed doubles hwidth hshown
      (fun history heq => snapshot.born history heq ref)
      display.historyScroll
  obtain ⟨active, inputSaved, firstRow, scroll, historyRecord⟩ := display
  obtain rfl : historyRecord = some ref := hrecord
  rw [render_fits hactive hfits]
  dsimp only
  rw [hrender]
  refine ⟨history, _, start, count, hhistory, rfl, rfl, ?_, clampScroll_lt _ sampleCount_pos,
    hstart, hlast⟩
  rw [printed, List.length_map]
  exact hlength

theorem render_hidden (hactive : display.active = true) (hfits : Fits window display.inputSaved)
    {ref : Ref} (hrecord : display.historyRecord = some ref) (hhidden : HistoryHidden
      (printed (windowFrame window).width (windowFrame window).limit
        (openingPrints doubles snapshot))
      (snapshot.records ref) snapshot.flows snapshot.history) :
    trafficDisplayRender doubles display window snapshot =
      (display, (openingPrints doubles snapshot ++ hiddenPrints).map
        (Print.clipped (windowFrame window).width)) := by
  have hroom : (openingPrints doubles snapshot).length + 2 ≤ (windowFrame window).limit := by
    show 4 + 2 ≤ _
    exact Nat.le_trans (by omega) hfits.2
  obtain ⟨active, inputSaved, firstRow, scroll, historyRecord⟩ := display
  obtain rfl : historyRecord = some ref := hrecord
  rw [render_fits hactive hfits]
  dsimp only
  rw [trafficRenderHistory_hidden hhidden hroom]
  rfl

/-! ## Records -/

section Records

variable {capacity keySize : Nat} {opened history : TrafficHistory.History keySize}
  {inputs : List (TrafficHistory.Input keySize)}

def shownHistory (history : TrafficHistory.History keySize) : History :=
  ⟨history.sequence, fun slot =>
    ⟨(history.frames slot).elapsedNs, utf8 (String.ofList (history.frames slot).timestamp)⟩⟩

def shownRecord (history : TrafficHistory.History keySize) (row : Nat → Row R Nat) (place : Nat) :
    Record R Nat :=
  match history.records[place]? with
  | some record => ⟨row place, record.samples, record.bornSequence⟩
  | none => ⟨row place, fun _ => TrafficHistory.Sample.unavailable, 0⟩

/-- Every record has been born by the time of the last sample. -/
def Born (history : TrafficHistory.History keySize) : Prop :=
  ∀ record ∈ history.records, record.bornSequence ≤ history.sequence

theorem update_bornSequence (record : TrafficHistory.Record keySize)
    (row : TrafficHistory.DisplayRow)
    (sample : Fin historySamples) : (record.update row sample).bornSequence =
    record.bornSequence := by
  unfold TrafficHistory.Record.update
  split
  · rfl
  · unfold TrafficHistory.Record.rebase
    split <;> rfl

/-- A step leaves the records born in time. -/
theorem step_born {result : TrafficHistory.History keySize} (hsound : TrafficHistory.Sound history)
    (h : Born history) (input : TrafficHistory.Input keySize)
    (hstep : TrafficHistory.step history input = some result) : Born result := by
  cases input with
  | begin timestamp nowNs elapsedNs =>
      cases hstep
      intro record hmem
      obtain ⟨old, hold, rfl⟩ := List.mem_map.mp hmem
      exact Nat.le_succ_of_le (h old hold)
  | update key row =>
      obtain ⟨after, place, hupdate, houtcome⟩ := TrafficHistory.update_outcome hsound key row
      rw [TrafficHistory.step, hupdate] at hstep
      cases hstep
      cases houtcome with
      | found place record hrecord hkey =>
          intro other hmem
          obtain hold | rfl := List.mem_or_eq_of_mem_set hmem
          · exact h other hold
          · rw [update_bornSequence]
            exact h record (List.mem_of_getElem? hrecord)
      | full => exact h
      | inserted =>
          intro other hmem
          obtain hold | hnew := List.mem_append.mp hmem
          · exact h other hold
          · rw [List.mem_singleton.mp hnew, update_bornSequence]
            exact Nat.le_refl _

/-- A run leaves the records born in time. -/
theorem run_born (hsound : TrafficHistory.Sound history) (h : Born history)
    {result : TrafficHistory.History keySize}
    (hrun : TrafficHistory.run history inputs = some result) :
    Born result := by
  induction inputs generalizing history with
  | nil =>
      cases hrun
      exact h
  | cons input inputs ih =>
      obtain ⟨between, hstep, hbetween, -, -⟩ := TrafficHistory.step_sound hsound input
      have hrest : TrafficHistory.run between inputs = some result := by
        rw [TrafficHistory.run, List.foldlM_cons, hstep] at hrun
        exact hrun
      exact ih hbetween (step_born hsound h input hstep) hrest

theorem shownRecord_born (hopen : TrafficHistory.trafficHistoryOpen capacity keySize = some opened)
    (hrun : TrafficHistory.run opened inputs = some history) (row : Nat → Row R Nat) (place : Nat) :
    (shownRecord history row place).bornSequence ≤ (shownHistory history).sequence := by
  obtain ⟨hsound, -, hrecords, -⟩ := TrafficHistory.open_sound hopen
  have hempty : Born opened := by
    intro record hmem
    rw [hrecords] at hmem
    cases hmem
  have hborn := run_born hsound hempty hrun
  unfold shownRecord
  split
  · rename_i record hrecord
    exact hborn record (List.mem_of_getElem? hrecord)
  · exact Nat.zero_le _

/-- A snapshot that shows a history that has been reached. -/
def Snapshot.ofHistory (snapshot : Snapshot R Nat)
    (hopen : TrafficHistory.trafficHistoryOpen capacity keySize = some opened)
    (hrun : TrafficHistory.run opened inputs = some history) (row : Nat → Row R Nat) :
    Snapshot R Nat :=
  { snapshot with
    history := some (shownHistory history)
    records := shownRecord history row
    born := by
      rintro shown ⟨⟩ place
      exact shownRecord_born hopen hrun row place }

end Records

/-! ## Keys and frames -/

def Display.opened (inputSaved : Bool) : Display Ref := ⟨true, inputSaved, 0, 0, none⟩

/-- A display, and the snapshot that it was last given. -/
structure Session (R Ref : Type*) where
  display : Display Ref
  snapshot : Snapshot R Ref

/-- What reaches the display: a key, or a snapshot for a window. -/
inductive Input (R Ref : Type*) where
  | press (key : Key)
  | render (window : Window) (snapshot : Snapshot R Ref)

def step (doubles : Doubles R) (session : Session R Ref) : Input R Ref → Session R Ref
  | .press key =>
      let (display, flows, _) := trafficDisplayKey session.display session.snapshot key
      ⟨display, { session.snapshot with flows := flows }⟩
  | .render window snapshot =>
      ⟨(trafficDisplayRender doubles session.display window snapshot).1, snapshot⟩

/-- A row of the snapshot that it was last given is the first, unless there is none. -/
def Session.InRange (session : Session R Ref) : Prop :=
  session.display.firstRow = 0 ∨ session.display.firstRow < session.snapshot.rows.length

/-- What every display that has been opened keeps. -/
structure Session.Kept (session : Session R Ref) (inputSaved : Bool) : Prop where
  active : session.display.active = true
  inputSaved : session.display.inputSaved = inputSaved
  scroll : session.display.historyScroll < historySamples

/-- A frame leaves the display, but for where it is scrolled to. -/
theorem render_kept (doubles : Doubles R) (display : Display Ref) (window : Window)
    (snapshot : Snapshot R Ref) :
    (trafficDisplayRender doubles display window snapshot).1.active = display.active ∧
      (trafficDisplayRender doubles display window snapshot).1.inputSaved = display.inputSaved := by
  unfold trafficDisplayRender
  split
  · exact ⟨rfl, rfl⟩
  · dsimp only
    split
    · exact ⟨rfl, rfl⟩
    · split <;> exact ⟨rfl, rfl⟩

theorem trafficRenderHistory_scroll (frame : Frame) (record : Record R Ref) (flows : Bool)
    (shown : Option History) {historyScroll : Nat} (h : historyScroll < historySamples) :
    (trafficRenderHistory doubles frame record flows shown historyScroll).2 < historySamples := by
  unfold trafficRenderHistory
  dsimp only
  split
  · exact h
  · split
    · exact h
    · rename_i history hhidden
      have hcount : 0 < sampleCount history record := sampleCount_pos
      have hclamp := clampScroll_lt historyScroll hcount
      exact Nat.lt_of_lt_of_le hclamp sampleCount_le

/-- A frame keeps the scroll within the samples. -/
theorem render_scroll {display : Display Ref} (h : display.historyScroll < historySamples) :
    (trafficDisplayRender doubles display window snapshot).1.historyScroll < historySamples := by
  unfold trafficDisplayRender
  split
  · exact h
  · dsimp only
    split
    · exact h
    · split
      · exact trafficRenderHistory_scroll _ _ _ _ h
      · exact h

variable {session : Session R Ref} {inputSaved : Bool}

/-- A key keeps what the display keeps. -/
theorem key_kept (h : session.Kept inputSaved) (key : Key) :
    (step doubles session (.press key)).Kept inputSaved := by
  obtain ⟨hactive, hsaved, hscroll⟩ := h
  cases key with
  | p | f | h => exact ⟨hactive, hsaved, (by decide : 0 < historySamples)⟩
  | j =>
      unfold step trafficDisplayKey
      dsimp only
      split
      · exact ⟨hactive, hsaved, Nat.lt_of_le_of_lt (Nat.sub_le ..) hscroll⟩
      · split <;> exact ⟨hactive, hsaved, hscroll⟩
  | k =>
      unfold step trafficDisplayKey
      dsimp only
      split
      · split
        · rename_i hmore
          exact ⟨hactive, hsaved, hmore⟩
        · exact ⟨hactive, hsaved, hscroll⟩
      · exact ⟨hactive, hsaved, hscroll⟩
  | q => exact ⟨hactive, hsaved, hscroll⟩

/-- A step keeps what the display keeps. -/
theorem step_kept (h : session.Kept inputSaved) (input : Input R Ref) :
    (step doubles session input).Kept inputSaved := by
  cases input with
  | press key => exact key_kept h key
  | render window snapshot =>
      obtain ⟨hactive, hsaved⟩ := render_kept doubles session.display window snapshot
      exact ⟨hactive.trans h.active, hsaved.trans h.inputSaved, render_scroll h.scroll⟩

/-- A key moves to a row that there is. -/
theorem key_inRange (h : session.InRange) (key : Key) :
    (step doubles session (.press key)).InRange := by
  cases key with
  | p | f => exact Or.inl rfl
  | h | q => exact h
  | j =>
      unfold step trafficDisplayKey
      dsimp only
      split
      · exact h
      · split
        · rename_i hmore
          exact Or.inr hmore
        · exact h
  | k =>
      unfold step trafficDisplayKey
      dsimp only
      split
      · split <;> exact h
      · refine h.imp (fun hzero => ?_) fun hless => Nat.lt_of_le_of_lt (Nat.sub_le ..) hless
        show session.display.firstRow - 1 = 0
        rw [hzero]

/-- A live frame starts with a row that there is. -/
theorem render_inRange (hactive : session.display.active = true)
    (hfits : Fits window session.display.inputSaved)
    (hlive : session.display.historyRecord = none) :
    (step doubles session (.render window snapshot)).InRange := by
  obtain ⟨first, shown, waiting, hresult, -, -, hrange, -⟩ :=
    @render_live R Ref doubles _ _ snapshot hactive hfits hlive
  show (trafficDisplayRender doubles session.display window snapshot).1.firstRow = 0 ∨
    (trafficDisplayRender doubles session.display window snapshot).1.firstRow < snapshot.rows.length
  rw [hresult]
  exact hrange

/-- A run keeps what the display keeps. -/
theorem run_kept (doubles : Doubles R) (inputSaved : Bool) (start : Snapshot R Ref)
    (inputs : List (Input R Ref)) :
    (Run.run (step doubles) ⟨.opened inputSaved, start⟩ inputs).Kept inputSaved := by
  have hopened : (⟨.opened inputSaved, start⟩ : Session R Ref).Kept inputSaved :=
    ⟨rfl, rfl, (by decide : 0 < historySamples)⟩
  exact @Run.run_invariant _ _ (step doubles) _ (fun session => session.Kept inputSaved) hopened
    (fun _ input h => step_kept h input) inputs

theorem keys_inRange (h : session.InRange) (keys : List Key) :
    (Run.run (step doubles) session (keys.map Input.press)).InRange := by
  induction keys generalizing session with
  | nil => exact h
  | cons key keys ih => exact ih (key_inRange h key)

/-- A row prints the lines that are predicted for it, until the frame is full. In a terminal with
the room that the display asks for, a live frame is its lines in full, and so is the frame of a
history that can be shown; what stands in its place otherwise is the two lines that say so. After
any keys and frames the scroll of a history is below the number of its samples that are kept; a live
frame starts with a row that there is, and so do the keys that follow it. -/
theorem layout_accounting (doubles : Doubles R) :
    (∀ (frame : Frame) (row : Row R Ref) (flows wide spacing : Bool),
      32 ≤ frame.width → frame.used ≤ frame.limit →
      (trafficRenderRow doubles frame row flows wide spacing).used =
        min frame.limit (frame.used + trafficRowLines row flows wide spacing frame.width)) ∧
    (∀ (display : Display Ref) (window : Window) (snapshot : Snapshot R Ref),
      display.active = true → Fits window display.inputSaved →
      let width := (windowFrame window).width
      let limit := (windowFrame window).limit
      let result := trafficDisplayRender doubles display window snapshot
      (display.historyRecord = none → ShowsLive doubles width limit display snapshot result) ∧
      ∀ ref, display.historyRecord = some ref →
        let hidden :=
          HistoryHidden (printed width limit (openingPrints doubles snapshot))
          (snapshot.records ref)
          snapshot.flows snapshot.history
        (hidden → result = (display, (openingPrints doubles snapshot ++ hiddenPrints).map
          (Print.clipped width))) ∧
        (¬ hidden → ShowsHistory doubles width limit display snapshot
          (snapshot.records ref) result)) ∧
    ∀ (inputSaved : Bool) (start : Snapshot R Ref) (inputs : List (Input R Ref)),
      let session := Run.run (step doubles) ⟨.opened inputSaved, start⟩ inputs
      session.Kept inputSaved ∧
      ∀ (window : Window) (snapshot : Snapshot R Ref) (keys : List Key),
        session.display.historyRecord = none → Fits window inputSaved →
        (Run.run (step doubles) (step doubles session (.render window snapshot))
          (keys.map Input.press)).InRange := by
  refine ⟨fun frame row flows wide spacing hwidth hused =>
    ?_, fun display window snapshot hactive hfits => ?_,
    fun inputSaved start inputs => ?_⟩
  · have hlength : (rowPrints doubles frame.width row flows wide spacing).length =
        trafficRowLines row flows wide spacing frame.width :=
      rowPrints_length (Nat.lt_of_lt_of_le (by decide) hwidth) row flows wide spacing
    rw [trafficRenderRow, trafficLines_used hused, hlength]
  · exact ⟨render_live hactive hfits,
      fun ref hrecord =>
        ⟨render_hidden hactive hfits hrecord, render_history hactive hfits hrecord⟩⟩
  · have hkept := run_kept doubles inputSaved start inputs
    refine ⟨hkept, fun window snapshot keys hlive hfits => keys_inRange ?_ keys⟩
    rw [← hkept.inputSaved] at hfits
    exact render_inRange hkept.active hfits hlive

def zeroDoubles : Doubles Unit :=
  ⟨fun _ => true, fun _ _ => [], fun _ => [], fun _ => (), fun _ _ => (), fun _ => []⟩

/-- A row of a record that was there from the first sample on. -/
def quietRow : Row Unit Nat := ⟨1, 1, [], [], [], [], [], 0, 0, some 0, (), (), (), true, false⟩

/-- So many rows, after one sample. -/
def quietSnapshot (rows : Nat) (warning : Option Text) : Snapshot Unit Nat where
  rows := List.replicate rows quietRow
  rxBytes := 0
  txBytes := 0
  rxRate := ()
  txRate := ()
  elapsedSeconds := ()
  intervalSeconds := 1
  timestamp := []
  protocol := none
  filter := none
  warning := warning
  history := some ⟨1, fun _ => ⟨0, []⟩⟩
  flows := true
  records := fun _ => ⟨quietRow, fun _ => ⟨0, 0, false⟩, 1⟩
  born := fun _ h _ => by
    cases h
    exact Nat.le_refl 1

/-- A warning of two lines in a terminal of eighty columns. -/
def longWarning : Text := List.replicate 79 0x61 ++ [0x62]

/-- A display that has been opened, after so many keys and frames. -/
def quietSession (inputs : List (Input Unit Nat)) : Session Unit Nat :=
  Run.run (step zeroDoubles) ⟨.opened true, quietSnapshot 0 none⟩ inputs

/-- A short terminal leaves out the second line of a warning. A history shows no warning. A frame of
a history leaves the first row beyond the rows, when they have become fewer, and a key leaves the
scroll beyond the samples until the next frame. -/
theorem layout_accounting_exceptions :
    (Fits (some (80, 16)) false ∧ trafficWarningLines (some longWarning) 80 = 2 ∧
      (⟨some .muted, [0x62]⟩ : Print) ∉
        (trafficDisplayRender zeroDoubles (.opened false) (some (80, 16))
          (quietSnapshot 1 (some longWarning))).2) ∧
    (Fits (some (80, 24)) false ∧ trafficWarningLines (some [0x62]) 80 = 1 ∧
      (⟨some .muted, [0x62]⟩ : Print) ∉
        (trafficDisplayRender zeroDoubles ⟨true, false, 0, 0, some 0⟩ (some (80, 24))
          (quietSnapshot 1 (some [0x62]))).2) ∧
    ¬ (quietSession [.render (some (80, 24)) (quietSnapshot 2 none), .press .j, .press .h,
        .render (some (80, 24)) (quietSnapshot 0 none)]).InRange ∧
    ∃ history, (quietSnapshot 1 none).history = some history ∧
      ¬ (quietSession [.render (some (80, 24)) (quietSnapshot 1 none), .press .h,
        .press .k]).display.historyScroll <
        sampleCount history ((quietSnapshot 1 none).records 0) := by
  refine ⟨⟨⟨by decide, by decide⟩, by decide +kernel, by decide +kernel⟩,
    ⟨⟨by decide, by decide⟩, by decide +kernel, by decide +kernel⟩, ?_, ?_⟩
  · rintro (hzero | hless)
    · exact absurd hzero (by decide +kernel)
    · exact absurd hless (by decide +kernel)
  · exact ⟨⟨1, fun _ => ⟨0, []⟩⟩, rfl, by decide +kernel⟩

/-- The third sample of a record that was updated in the second. -/
def sampledSnapshot : Snapshot Unit Nat :=
  (quietSnapshot 2 none).ofHistory (rfl : TrafficHistory.trafficHistoryOpen 4 1 = some _)
    (rfl : TrafficHistory.run _ [.begin [] 1 1, .begin [] 2 1,
      .update (.cons 7 .nil) TrafficHistory.emptyRow,
      .begin [] 3 1] = some _)
    fun _ => quietRow

/-- In a terminal of thirty-two columns a row takes the six lines that are predicted for it, and a
display that has been opened shows its live frame in full. A wider one shows the history of a
record. -/
theorem layout_accounting_narrow :
    (trafficRenderRow zeroDoubles ⟨32, 24, []⟩ quietRow false false false).used = 6 ∧
      ShowsLive zeroDoubles 32 24 (.opened true) (quietSnapshot 2 none)
        (trafficDisplayRender zeroDoubles (.opened true) (some (32, 25)) (quietSnapshot 2 none)) ∧
      ShowsHistory zeroDoubles 80 23 ⟨true, true, 0, 5, some 0⟩ sampledSnapshot
        (sampledSnapshot.records 0)
        (trafficDisplayRender zeroDoubles ⟨true, true, 0, 5, some 0⟩ none sampledSnapshot) ∧
      (sampledSnapshot.records 0).bornSequence = 2 ∧
      (Run.run (step zeroDoubles)
        (step zeroDoubles ⟨.opened true, quietSnapshot 0 none⟩
          (.render (some (32, 25)) (quietSnapshot 2 none)))
        ([.j, .j].map Input.press)).InRange := by
  obtain ⟨hrow, hframe, hrun⟩ := @layout_accounting Unit Nat zeroDoubles
  have hused := hrow ⟨32, 24, []⟩ quietRow false false false (by decide) (by decide)
  have hnarrow : Fits (some (32, 25)) true := ⟨by decide, by decide⟩
  have hwide : Fits none true := ⟨by decide, by decide⟩
  refine ⟨hused.trans (by decide), ?_, ?_, rfl, ?_⟩
  · exact (hframe (.opened true) (some (32, 25)) (quietSnapshot 2 none) rfl hnarrow).1 rfl
  · refine ((hframe ⟨true, true, 0, 5, some 0⟩ none sampledSnapshot rfl hwide).2 0 rfl).2 ?_
    decide +kernel
  · exact (hrun true (quietSnapshot 0 none) []).2 (some (32, 25)) (quietSnapshot 2 none)
      [.j, .j] rfl hnarrow

end Anettrace.TrafficDisplay
