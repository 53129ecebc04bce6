import Anettrace.TrafficDisplay.Clip
import Anettrace.TrafficDisplay.Model

/-!
# Every line of a frame

Whatever is rendered into a frame is rendered by `traffic_line`. So no line of a frame is wider than
its terminal, or has anything on it but glyphs, however small the terminal is and whatever texts a
snapshot has.
-/

namespace Anettrace.TrafficDisplay

open Library

variable {R Ref : Type*} {doubles : Doubles R} {frame next last : Frame}

/-- A frame with more lines, each of which shows some text. -/
structure Grows (frame next : Frame) : Prop where
  width_eq : next.width = frame.width
  shows : ∀ print ∈ next.lines, print ∈ frame.lines ∨
    ∃ text, Shows (frame.width - 1) text print.text

theorem Grows.refl (frame : Frame) : Grows frame frame := ⟨rfl, fun _ h => .inl h⟩

theorem Grows.trans (hfirst : Grows frame next) (hsecond : Grows next last) : Grows frame last := by
  refine ⟨hsecond.width_eq.trans hfirst.width_eq, fun print hprint => ?_⟩
  rcases hsecond.shows print hprint with hbefore | hshown
  · exact hfirst.shows print hbefore
  · rw [hfirst.width_eq] at hshown
    exact .inr hshown

theorem trafficLine_grows (frame : Frame) (print : Print) :
    Grows frame (trafficLine frame print) := by
  refine ⟨rfl, fun line hline => ?_⟩
  change line ∈ Page.put frame.limit frame.lines _ at hline
  unfold Page.put at hline
  split at hline
  · rcases List.mem_append.mp hline with hbefore | hnow
    · exact .inl hbefore
    · rw [List.mem_singleton.mp hnow]
      exact .inr ⟨_, clip_shows frame.width print.text⟩
  · exact .inl hline

theorem Grows.lineIf {condition : Prop} [Decidable condition] (h : Grows frame next)
    (print : Print) :
    Grows frame (if condition then trafficLine next print else next) := by
  split
  · exact h.trans (trafficLine_grows next print)
  · exact h

theorem trafficLines_grows (frame : Frame) (prints : List Print) :
    Grows frame (trafficLines frame prints) := by
  induction prints generalizing frame with
  | nil => exact Grows.refl frame
  | cons print prints ih =>
      exact (trafficLine_grows frame print).trans (ih (trafficLine frame print))

theorem renderRows_grows (doubles : Doubles R) (flows wide spacing : Bool) (frame : Frame)
    (available : Nat) (rows : List (Row R Ref)) :
    Grows frame (renderRows doubles flows wide spacing frame available rows).1 := by
  induction rows generalizing frame available with
  | nil => exact Grows.refl frame
  | cons row rows ih =>
      unfold renderRows
      dsimp only
      split
      · exact Grows.refl frame
      · exact (trafficLines_grows frame _).trans (ih _ _)

theorem foldl_grows {ι : Type*} (body : ι → List Print) (items : List ι) (frame : Frame) :
    Grows frame (items.foldl (fun frame item => trafficLines frame (body item)) frame) := by
  induction items generalizing frame with
  | nil => exact Grows.refl frame
  | cons item items ih => exact (trafficLines_grows frame (body item)).trans (ih _)

theorem renderLive_grows (doubles : Doubles R) (frame : Frame) (display : Display Ref)
    (snapshot : Snapshot R Ref) :
    Grows frame (renderLive doubles frame display snapshot).1 := by
  unfold renderLive
  dsimp only
  refine Grows.trans ?_ (trafficLines_grows _ _)
  refine Grows.trans ?_ (trafficLines_grows _ _)
  refine Grows.trans ?_ (trafficLines_grows _ _)
  refine Grows.lineIf ?_ _
  exact (trafficLines_grows frame _).trans (renderRows_grows doubles _ _ _ _ _ _)

theorem trafficRenderHistory_grows (doubles : Doubles R) (frame : Frame) (record : Record R Ref)
    (flows : Bool) (history : Option History) (historyScroll : Nat) :
    Grows frame (trafficRenderHistory doubles frame record flows history historyScroll).1 := by
  unfold trafficRenderHistory
  dsimp only
  split
  · exact trafficLines_grows _ _
  · cases history with
    | none => exact Grows.refl frame
    | some history =>
        refine Grows.trans ?_ (trafficLines_grows _ _)
        refine Grows.trans ?_ (foldl_grows _ _ _)
        exact (trafficLines_grows frame _).trans (trafficLines_grows _ _)

/-- Every line of every frame shows a text in fewer cells than the terminal has columns. -/
theorem render_shows (doubles : Doubles R) (display : Display Ref) (window : Window)
    (snapshot : Snapshot R Ref) :
    ∀ print ∈ (trafficDisplayRender doubles display window snapshot).2,
      ∃ text, Shows ((windowFrame window).width - 1) text print.text := by
  have hlines : (windowFrame window).lines = [] := by
    cases window <;> rfl
  have hframe {next : Frame} (h : Grows (windowFrame window) next) :
      ∀ print ∈ next.lines, ∃ text, Shows ((windowFrame window).width - 1) text print.text := by
    intro print hprint
    rcases h.shows print hprint with hbefore | hshown
    · rw [hlines] at hbefore
      exact absurd hbefore List.not_mem_nil
    · exact hshown
  have htitle :=
    trafficLine_grows (windowFrame window) ⟨some .title, utf8 "ANETTRACE / TRAFFIC LAB"⟩
  unfold trafficDisplayRender
  split
  · exact fun print hprint => absurd hprint List.not_mem_nil
  · dsimp only
    split
    · exact hframe (htitle.trans (trafficLines_grows _ _))
    · have hhead := htitle.trans (trafficLines_grows _ (headPrints doubles snapshot))
      split
      · exact hframe (hhead.trans (trafficRenderHistory_grows doubles _ _ _ _ _))
      · exact hframe (hhead.trans (renderLive_grows doubles _ display snapshot))

end Anettrace.TrafficDisplay
