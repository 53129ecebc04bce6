import Anettrace.TraceCapture.Finish

/-!
# Runs of a capture

Between the start of a capture and its end Perfetto and the recorder write when they like, and the
program stops Perfetto, gives up or fails to finish. Whatever happens, an error leaves what was
there before and the traces of the capture, and a success leaves the combined trace and nothing
else.
-/

namespace Anettrace.TraceCapture

open Library Library.Staged Trim

/-- How far a run has got. -/
inductive Phase where
  /-- The start has succeeded. -/
  | capturing
  /-- `trace_capture_wait_system` has seen the end of Perfetto, and goes on to finish. -/
  | exited
  /-- The capture has failed or has been given up. -/
  | ended
  deriving DecidableEq

/-- The runs of a capture that has not succeeded. -/
inductive Reached (build : Build) (files₀ : Files) : Phase → World → Prop
  | started {system request world} (h : traceCaptureStart build system request (.before files₀) =
    (world, none)) :
      Reached build files₀ .capturing world
  | refused {system request world err}
      (h : traceCaptureStart build system request (.before files₀) = (world, some err)) :
      Reached build files₀ .ended world
  /-- Perfetto writes for as long as it has not been seen to end. -/
  | perfetto {phase world content} (h : Reached build files₀ phase world)
      (hrunning : world.running = true) :
      Reached build files₀ phase (world.perfetto (some content))
  /-- The recorder is closed before the end of a capture. -/
  | recorder {world content} (h : Reached build files₀ .capturing world)
      (hboth : world.capture.systemOnly = false) : Reached build files₀ .capturing
        (world.record content)
  | stop {phase world clocks} (h : Reached build files₀ phase world) :
      Reached build files₀ phase (traceCaptureStop clocks world)
  | exited {world status} (h : Reached build files₀ .capturing world) :
      Reached build files₀ .exited (world.reaped status)
  | aborted {phase world system} (h : Reached build files₀ phase world) (hphase : phase ≠ .exited) :
      Reached build files₀ .ended (traceCaptureAbort system world)
  | failed {phase world next system err} (h : Reached build files₀ phase world)
      (hfinish : traceCaptureFinish system world = (next, some err)) :
        Reached build files₀ .ended next

def Holds (build : Build) (files₀ : Files) (world : World) : Phase → Prop
  | .capturing => Capturing build files₀ world ∧ world.capture.childReaped = false
  | .exited => Capturing build files₀ world
  | .ended => Ended build files₀ world

/-- An error leaves every entry that was there before and the traces, and no file with the name of
the output, unless an Android build has made up that name itself. -/
structure Retained (build : Build) (files₀ : Files) (world : World) : Prop where
  existing : ∀ path entry, files₀ path = some entry → world.files path = some entry
  output : world.files world.capture.output = files₀ world.capture.output ∨
    (build ≠ .host ∧ (world.capture.output = world.capture.systemTrace ∨
      (world.capture.output = world.capture.config ∧ world.configRefused = true)))
  system : ∀ content, world.system = some content →
    world.files world.capture.systemTrace = some (.file content)
  network : ∀ content, world.network = some content →
    world.files world.capture.networkTrace = some (.file content)

/-- A success leaves the combined trace, and of the other files of the capture only what the system
has refused to remove. -/
structure Delivered (files₀ : Files) (clocks : Clocks) (removal : Removal) (world : World) :
    Prop where
  output : ∃ content, world.files world.capture.output = some (.file content) ∧
    Combined clocks world content
  systemTrace : removal.systemRefused = false → world.files world.capture.systemTrace = none
  networkTrace : removal.networkRefused = false → world.capture.systemOnly = false →
    world.files world.capture.networkTrace = none
  config : removal.configRefused = false → world.files world.capture.config = none
  combined : world.files world.capture.combined = none
  others : ∀ path, path ≠ world.capture.output → path ≠ world.capture.systemTrace →
    (world.capture.systemOnly = false → path ≠ world.capture.networkTrace) →
      path ≠ world.capture.config →
    world.files path = files₀ path

variable {build : Build} {files₀ : Files} {world : World}

/-! ## One step -/

/-- A capture that did not start leaves the files. -/
theorem Idle.retained (h : Idle files₀ world) : Retained build files₀ world where
  existing path entry hentry := by rw [h.files, hentry]
  output := Or.inl (by rw [h.files])
  system content hcontent := by
    rw [h.system] at hcontent
    cases hcontent
  network content hcontent := by
    rw [h.network] at hcontent
    cases hcontent

/-- A capture whose files were removed leaves no other file. -/
theorem Sound.retained (h : Sound build files₀ world) (hcleaned : world.Cleaned) :
    Retained build files₀ world where
  existing path entry hentry := h.gains.kept hentry
  output := by
    by_cases hchanged : world.files world.capture.output = files₀ world.capture.output
    · exact Or.inl hchanged
    have hown : world.Own world.capture.output := by
      by_contra hother
      exact hchanged (h.gains.other hother)
    refine Or.inr ?_
    rcases hown with ⟨-, hsystem⟩ | ⟨hnetwork, hsame⟩ | ⟨-, hconfig⟩ | hcombined
    · exact ⟨fun hhost => (h.names.output_ne_of_host hhost).1 hsystem, Or.inl hsystem⟩
    · exact absurd hsame (h.names.output_ne_networkTrace (h.systemOnly hnetwork))
    · refine ⟨fun hhost => (h.names.output_ne_of_host hhost).2 hconfig, Or.inr ⟨hconfig, ?_⟩⟩
      by_contra hrefused
      refine hchanged ?_
      rw [h.names.output, hconfig]
      exact hcleaned (Bool.of_not_eq_true hrefused)
    · exact absurd hcombined.symm (combined_ne_output world.capture)
  system := h.system
  network := h.network

theorem Ended.retained (h : Ended build files₀ world) : Retained build files₀ world :=
  h.elim Idle.retained fun hsound => hsound.1.retained hsound.2.1

theorem traceCaptureFinish_cases {system : FinishSystem} {next : World} {err : Option Errno}
    (h : Capturing build files₀ world ∨ Ended build files₀ world)
    (hfinish : traceCaptureFinish system world = (next, err)) :
    (next = world ∧ err ≠ none ∧ Ended build files₀ world) ∨
    ∃ exit reaped middle, Capturing build files₀ world ∧ Configured build files₀ reaped ∧
      reaped.capture.started = false ∧ deliver system exit reaped = (middle, err) ∧
      next = cleanupTemporary system.removal err.isSome middle := by
  unfold traceCaptureFinish at hfinish
  split at hfinish
  · rename_i hoff
    cases hfinish
    refine Or.inl ⟨rfl, nofun, h.resolve_left fun hcapturing => ?_⟩
    exact Bool.noConfusion (hoff.symm.trans hcapturing.2)
  · rename_i hon
    have hcapturing : Capturing build files₀ world := by
      refine h.resolve_right fun hended => hon ?_
      exact hended.elim Idle.started fun hsound => hsound.2.2
    have hreaped : Configured build files₀ (reap system world).1 := reap_configured hcapturing
    obtain ⟨rfl, rfl⟩ := Prod.mk.inj hfinish
    exact Or.inr ⟨_, _, _, hcapturing, ⟨hreaped.1.halted, hreaped.2⟩, rfl, rfl, rfl⟩

theorem traceCaptureFinish_failed {system : FinishSystem} {next : World} {err : Errno}
    (h : Capturing build files₀ world ∨ Ended build files₀ world)
    (hfinish : traceCaptureFinish system world = (next, some err)) : Ended build files₀ next := by
  obtain ⟨rfl, -, hended⟩ | ⟨exit, reaped, middle, -, hreaped, hstarted, hdeliver, rfl⟩ :=
    traceCaptureFinish_cases h hfinish
  · exact hended
  · have hcapture := deliver_capture system exit reaped
    rw [hdeliver] at hcapture
    obtain ⟨hsound, hcleaned⟩ := (deliver_failed hreaped.1 hdeliver).cleanup system.removal
    refine Or.inr ⟨hsound, hcleaned, ?_⟩
    rw [cleanupTemporary_capture, hcapture, hstarted]

theorem Sound.configCreated (h : Sound build files₀ world)
    (hconfig : world.files world.capture.config ≠ none) :
    world.capture.configCreated = true := by
  by_contra hcreated
  refine hconfig ((h.gains.other ?_).trans h.names.config)
  rintro (⟨-, hsame⟩ | ⟨hnetwork, hsame⟩ | ⟨hwritten, -⟩ | hsame)
  · exact h.names.systemTrace_ne_config hsame.symm
  · exact h.names.networkTrace_ne_config (h.systemOnly hnetwork) hsame.symm
  · exact hcreated hwritten
  · exact h.names.combined_ne_config hsame.symm

/-- The cleanup behind the combined trace. -/
theorem Sound.delivered (h : Sound build files₀ world) {clocks : Clocks} {content : List UInt8}
    (hcombined : Combined clocks world content) (hfree : world.files world.capture.combined = none)
    (houtput : world.files world.capture.output = none) (hconfig : world.HasConfig)
    (removal : Removal) :
    Delivered files₀ clocks removal (cleanupTemporary removal false
      { world with
        files := Function.update world.files world.capture.output (some (.file content)) }) := by
  have hnames := h.names
  obtain ⟨_, hconfig⟩ := hconfig
  obtain ⟨trace, hsystem⟩ : ∃ trace, world.system = some trace := by
    obtain ⟨_, _, trace, _, _, _, _, hsystem, -⟩ := hcombined
    exact ⟨trace, hsystem⟩
  have htrace := h.system trace hsystem
  -- Nothing had the name of the output when the traces were moved there, so it is no other of the
  -- names.
  have hne {path : Path} (hthere : world.files path ≠ none) : path ≠ world.capture.output := by
    rintro rfl
    exact hthere houtput
  have hsystem_ne := hne (htrace ▸ Option.some_ne_none _)
  have hconfig_ne := hne (hconfig ▸ Option.some_ne_none _)
  have hnetwork_ne (hboth : world.capture.systemOnly = false) :
      world.capture.networkTrace ≠ world.capture.output :=
    (hnames.output_ne_networkTrace hboth).symm
  have hfile {path : Path} (hpath : path ≠ world.capture.output) (hnone : files₀ path = none) :
      ∀ entry, Function.update world.files world.capture.output (some (Entry.file content)) path =
        some entry →
        IsFile entry := by
    intro entry hentry
    rw [Function.update_of_ne hpath] at hentry
    exact isFile_of_gains h.gains hnone hentry
  constructor
  all_goals simp only [cleanupTemporary_capture]
  · refine ⟨content, ?_, ?_⟩
    · refine (cleanupTemporary_of_ne ?_).trans ?_
      · exact hconfig_ne.symm
      refine (cleanupTraces_of_ne hnames hsystem_ne.symm fun hboth =>
        (hnetwork_ne hboth).symm).trans ?_
      exact Function.update_self ..
    · exact hcombined.congr (cleanupTemporary_capture ..) (cleanupTemporary_system ..).1
        (cleanupTemporary_system ..).2
  · intro hrefused
    refine (cleanupTemporary_of_ne ?_).trans ?_
    · exact hnames.systemTrace_ne_config
    have hcreated := h.created (Or.inl (hsystem ▸ Option.some_ne_none _))
    exact cleanupTraces_systemTrace hnames hcreated (hfile hsystem_ne hnames.systemTrace) hrefused
  · intro hrefused hboth
    refine (cleanupTemporary_of_ne ?_).trans ?_
    · exact hnames.networkTrace_ne_config hboth
    exact cleanupTraces_networkTrace hnames hboth
      (hfile (hnetwork_ne hboth) (hnames.networkTrace hboth).2) hrefused
  · intro hrefused
    have hcreated := h.configCreated (hconfig ▸ Option.some_ne_none _)
    exact cleanupTemporary_config hnames hcreated (hfile hconfig_ne hnames.config) hrefused
  · refine (cleanupTemporary_of_ne ?_).trans ?_
    · exact hnames.combined_ne_config
    refine (cleanupTraces_of_ne hnames hnames.combined_ne_systemTrace
      hnames.combined_ne_networkTrace).trans ?_
    exact (Function.update_of_ne (combined_ne_output world.capture) ..).trans hfree
  · intro path hpath hsystemPath hnetworkPath hconfigPath
    refine (cleanupTemporary_of_ne ?_).trans ?_
    · exact hconfigPath
    refine (cleanupTraces_of_ne hnames hsystemPath hnetworkPath).trans ?_
    refine (Function.update_of_ne hpath ..).trans ?_
    by_cases hcombinedPath : path = world.capture.combined
    · rw [hcombinedPath, hfree, h.combined_free hfree]
    · refine h.gains.other ?_
      rintro (⟨-, hsame⟩ | ⟨hnetwork, hsame⟩ | ⟨-, hsame⟩ | hsame)
      · exact hsystemPath hsame
      · exact hnetworkPath (h.systemOnly hnetwork) hsame
      · exact hconfigPath hsame
      · exact hcombinedPath hsame

theorem traceCaptureFinish_done {system : FinishSystem} {next : World}
    (h : Capturing build files₀ world ∨ Ended build files₀ world)
    (hfinish : traceCaptureFinish system world = (next, none)) :
    Delivered files₀ system.clocks system.removal next := by
  obtain ⟨-, herr, -⟩ | ⟨exit, reaped, middle, -, hreaped, -, hdeliver, rfl⟩ :=
    traceCaptureFinish_cases h hfinish
  · exact absurd rfl herr
  obtain ⟨content, hcombined, hfree, houtput, rfl⟩ := deliver_done hreaped.1 hdeliver
  exact hreaped.1.delivered hcombined hfree houtput hreaped.2 system.removal

/-! ## Runs -/

theorem Holds.capturing {phase : Phase} (h : Holds build files₀ world phase) :
    Capturing build files₀ world ∨ Ended build files₀ world := by
  cases phase with
  | capturing => exact Or.inl h.1
  | exited => exact Or.inl h
  | ended => exact Or.inr h

/-- The recorder writes while the capture goes on. -/
theorem Capturing.perfetto (h : Capturing build files₀ world) (wrote : Wrote) :
    Capturing build files₀ (world.perfetto wrote) := by
  have hcreated := h.1.1.created (Or.inr (Or.inl h.2))
  refine ⟨⟨h.1.1.perfetto hcreated wrote, HasConfig.perfetto h.1 wrote⟩, ?_⟩
  rw [perfetto_started]
  exact h.2

theorem record_capture (content : List UInt8) (world : World) :
    (world.record content).capture = world.capture := by
  unfold World.record
  split <;> rfl

/-- The network half records while the capture goes on. -/
theorem Capturing.record (h : Capturing build files₀ world)
    (hboth : world.capture.systemOnly = false)
    (content : List UInt8) : Capturing build files₀ (world.record content) := by
  refine ⟨⟨h.1.1.record hboth content, ?_⟩, ?_⟩
  · have hne := (h.1.1.names.networkTrace_ne_config hboth).symm
    obtain ⟨config, hconfig⟩ := h.1.2
    unfold World.record
    split
    · exact ⟨config, hconfig⟩
    · exact ⟨config, (Function.update_of_ne hne ..).trans hconfig⟩
  · rw [record_capture]
    exact h.2

theorem Capturing.stop (h : Capturing build files₀ world) (clocks : Clocks) :
    Capturing build files₀ (traceCaptureStop clocks world) := by
  obtain ⟨hview, -, hstarted, -⟩ := traceCaptureStop_view clocks world
  exact ⟨⟨h.1.1.stop clocks, HasConfig.congr h.1.2 hview⟩, hstarted.trans h.2⟩

/-- The stop leaves what is known of the recorder. -/
theorem traceCaptureStop_childReaped (clocks : Clocks) (world : World) :
    (traceCaptureStop clocks world).capture.childReaped = world.capture.childReaped := by
  unfold traceCaptureStop
  dsimp only
  split
  · rfl
  · split <;> rfl

theorem traceCaptureStop_of_ended (clocks : Clocks) (h : world.capture.started = false) :
    traceCaptureStop clocks world = world := if_pos (Or.inl h)

theorem Ended.started (h : Ended build files₀ world) : world.capture.started = false :=
  h.elim Idle.started fun hsound => hsound.2.2

/-- Perfetto may still write when a capture has failed. -/
theorem Ended.perfetto (h : Ended build files₀ world) (hrunning : world.running = true)
    (wrote : Wrote) :
    Ended build files₀ (world.perfetto wrote) := by
  obtain ⟨hsound, hcleaned, hstarted⟩ : Sound build files₀ world ∧ world.Cleaned ∧
    world.capture.started = false :=
    h.resolve_left fun hidle => Bool.noConfusion (hidle.running.symm.trans hrunning)
  refine Or.inr ⟨hsound.perfetto (hsound.created (Or.inr (Or.inr hrunning))) wrote, ?_, ?_⟩
  · cases wrote with
    | none => exact hcleaned
    | some content =>
        exact fun hrefused =>
          (Function.update_of_ne hsound.names.systemTrace_ne_config.symm ..).trans
            (hcleaned hrefused)
  · rw [perfetto_started]
    exact hstarted

/-- What holds in a phase is kept by every step of a run. -/
theorem Reached.holds {phase : Phase} (h : Reached build files₀ phase world) :
    Holds build files₀ world phase := by
  induction h with
  | started h => exact traceCaptureStart_meets.done rfl h
  | refused h => exact traceCaptureStart_meets.failed rfl h
  | @perfetto phase world content _ hrunning ih =>
      cases phase with
      | capturing =>
          refine ⟨ih.1.perfetto _, ?_⟩
          rw [perfetto_started]
          exact ih.2
      | exited => exact Capturing.perfetto ih _
      | ended => exact Ended.perfetto ih hrunning _
  | @recorder world content _ hboth ih =>
      refine ⟨ih.1.record hboth content, ?_⟩
      rw [record_capture]
      exact ih.2
  | @stop phase world clocks _ ih =>
      cases phase with
      | capturing =>
          exact ⟨ih.1.stop clocks, (traceCaptureStop_childReaped clocks world).trans ih.2⟩
      | exited => exact Capturing.stop ih clocks
      | ended =>
          rw [traceCaptureStop_of_ended clocks (Ended.started ih)]
          exact ih
  | @exited world status _ ih => exact ⟨⟨ih.1.1.1.reaped status, ih.1.1.2⟩, ih.1.2⟩
  | @aborted phase world system _ hphase ih =>
      cases phase with
      | capturing => exact ih.1.1.1.abort (fun _ => ih.2) system
      | exited => exact absurd rfl hphase
      | ended =>
          rcases ih with hidle | ⟨hsound, -, hstarted⟩
          · exact Or.inl (hidle.abort system)
          · exact hsound.abort (fun hon => Bool.noConfusion (hstarted.symm.trans hon)) system
  | failed _ hfinish ih => exact traceCaptureFinish_failed ih.capturing hfinish

/-! ## The ends of a capture -/

theorem traceCaptureWaitSystem_cases {wait : SystemWait} {clocks : Clocks} {abort : AbortSystem}
    {system : FinishSystem} {next : World} {err : Option Errno}
    (h : Reached build files₀ .capturing world) (honly : world.capture.systemOnly = true)
    (hwait : traceCaptureWaitSystem wait clocks abort system world = (next, err)) :
    (err ≠ none ∧ Reached build files₀ .ended next) ∨
      ∃ phase before, Reached build files₀ phase before ∧ traceCaptureFinish system before =
        (next, err) := by
  unfold traceCaptureWaitSystem at hwait
  have hstarted : ¬ (world.capture.started = false ∨ world.capture.systemOnly = false) := by
    rw [h.holds.1.2, honly]
    decide
  rw [if_neg hstarted] at hwait
  cases wait with
  | failed fault =>
      cases hwait
      exact Or.inl ⟨nofun, h.aborted nofun⟩
  | exited status => exact Or.inr ⟨_, _, h.exited, hwait⟩
  | stopped => exact Or.inr ⟨_, _, h.stop, hwait⟩

/-- Whatever a capture has gone through, its end leaves the files as it should: an error keeps what
was there before and the traces, and a success is the combined trace and nothing else. -/
theorem capture_staging (build : Build) (files₀ : Files) :
    (∀ system request next err, traceCaptureStart build system request (.before files₀) =
      (next, some err) →
      Retained build files₀ next) ∧
    (∀ phase world, Reached build files₀ phase world →
      (∀ system, phase ≠ .exited → Retained build files₀ (traceCaptureAbort system world)) ∧
      (∀ system next err, traceCaptureFinish system world = (next, some err) →
        Retained build files₀ next) ∧
      (∀ system next, traceCaptureFinish system world = (next, none) →
        Delivered files₀ system.clocks system.removal next)) ∧
    ∀ world wait clocks abort system next, Reached build files₀ .capturing world →
      world.capture.systemOnly = true →
      (∀ err, traceCaptureWaitSystem wait clocks abort system world = (next, some err) →
        Retained build files₀ next) ∧
      (traceCaptureWaitSystem wait clocks abort system world = (next, none) →
        Delivered files₀ system.clocks system.removal next) := by
  have hretained {world : World} (h : Reached build files₀ .ended world) :
      Retained build files₀ world :=
    Ended.retained h.holds
  refine ⟨fun _ _ _ _ h => hretained (.refused h), fun phase world h => ⟨?_, ?_, ?_⟩, ?_⟩
  · exact fun system hphase => hretained (h.aborted hphase)
  · exact fun system next err hfinish => hretained (h.failed hfinish)
  · exact fun system next hfinish => traceCaptureFinish_done h.holds.capturing hfinish
  · intro world wait clocks abort system next h honly
    constructor
    · intro err hwait
      obtain ⟨-, hended⟩ | ⟨phase, before, hbefore, hfinish⟩ :=
        traceCaptureWaitSystem_cases h honly hwait
      · exact hretained hended
      · exact hretained (hbefore.failed hfinish)
    · intro hwait
      obtain ⟨hnone, -⟩ | ⟨phase, before, hbefore, hfinish⟩ :=
        traceCaptureWaitSystem_cases h honly hwait
      · exact absurd rfl hnone
      · exact traceCaptureFinish_done hbefore.holds.capturing hfinish

/-- A directory with a file in it already. -/
def keptFile : Files :=
  Function.update (fun _ => none) [0x6b] (some (.file [0x09]))

/-- A capture of the network and the system, as far as its end: the recorder and Perfetto have
written. -/
def recordedWorld : World :=
  (((traceCaptureStart .host (.calm [0x01, 0x02])
    ⟨some [0x61], 10, some "sched", none, false, false⟩
    (.before keptFile)).1.record [0x03, 0x04]).perfetto (some [0x01, 0x02, 0x05]))

/-- A finish whose combined trace cannot take the name of the output. -/
def unnamedFinish : FinishSystem :=
  { FinishSystem.calm .calm with merge := { MergeSystem.calm with rename := some .eio } }

/-- From the same capture, an undisturbed finish delivers the combined trace, and one that cannot
name it keeps both traces and the file that was there. -/
theorem capture_staging_recorded :
    Delivered keptFile (.ok (0, 0)) .calm (traceCaptureFinish (.calm .calm) recordedWorld).1 ∧
      Retained .host keptFile (traceCaptureFinish unnamedFinish recordedWorld).1 :=
  have reached : Reached .host keptFile .capturing recordedWorld :=
    .perfetto (.recorder (.started (Prod.ext rfl (by decide))) (by decide)) (by decide)
  have run := (capture_staging .host keptFile).2.1 .capturing _ reached
  ⟨run.2.2 (.calm .calm) _ (Prod.ext rfl (by decide)),
    run.2.1 unnamedFinish _ (.file .eio) (Prod.ext rfl (by decide))⟩

/-- A capture of the system alone into an empty file system, from its start to its end. -/
def calmCapture (build : Build) (output : Path) (removal : Removal) : World × Option Errno :=
  traceCaptureFinish (.calm removal)
    (traceCaptureStart build (.calm [0x01, 0x02]) ⟨some output, 10, some "sched", none, false, true⟩
      (.before fun _ => none)).1

/-- An Android build whose output has the name that it makes up for the trace of Perfetto fails with
the output there, and a success leaves a trace that the system does not let go of. -/
theorem capture_staging_exceptions :
    (let run := calmCapture (.android perfettoTraceDir perfettoConfigDir)
      (androidTrace perfettoTraceDir 1 1) .calm;
      run.2 = some (.file .eexist) ∧ run.1.files run.1.capture.output = some (.file [0x01, 0x02])) ∧
    (let run := calmCapture .host [0x61] ⟨true, false, false⟩;
      run.2 = none ∧ run.1.files run.1.capture.systemTrace = some (.file [0x01, 0x02])) := by
  decide

end Anettrace.TraceCapture
