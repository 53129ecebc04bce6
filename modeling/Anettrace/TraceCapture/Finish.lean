import Anettrace.TraceCapture.Start

/-!
# Finishing a capture

A finish that fails keeps to what a capture may change, as a start does. One that succeeds has put
the two traces under the name of the output and has removed every other file of the capture.
-/

namespace Anettrace.TraceCapture

open Library Library.Staged Trim

variable {build : Build} {files₀ : Files} {world : World} {system : FinishSystem}

/-! ## Up to the end of Perfetto -/

theorem HasConfig.congr {next : World} (h : world.HasConfig) (hview : next.view = world.view) :
    next.HasConfig := by
  simp only [World.view, Prod.mk.injEq] at hview
  obtain ⟨hfiles, -, -, -, hconfig, -⟩ := hview
  rw [World.HasConfig, hfiles, hconfig]
  exact h

/-- Stopping the recorder leaves its configuration. -/
theorem Configured.stopPerfetto (h : Configured build files₀ world)
    (hstarted : world.capture.started = true)
    (stop : StopSystem) : Configured build files₀ (stopPerfetto stop world).1 := by
  refine ⟨h.1.stopPerfetto hstarted stop, ?_⟩
  have hstopped : Configured build files₀ (traceCaptureStop stop.clocks world) :=
    ⟨h.1.stop stop.clocks, HasConfig.congr h.2 (traceCaptureStop_view stop.clocks world).1⟩
  have hwritten := HasConfig.perfetto hstopped stop.wrote
  unfold TraceCapture.stopPerfetto
  dsimp only
  split <;> exact hwritten

/-- Waiting for the end of Perfetto changes its trace and nothing else. -/
theorem reap_configured (h : Capturing build files₀ world) :
    Configured build files₀ (reap system world).1 := by
  have hcreated : world.capture.systemCreated = true := h.1.1.created (Or.inr (Or.inl h.2))
  have hwritten : Configured build files₀ (world.perfetto system.wrote) :=
    ⟨h.1.1.perfetto hcreated system.wrote, HasConfig.perfetto h.1 system.wrote⟩
  have hstarted : (world.perfetto system.wrote).capture.started = true := by
    rw [perfetto_started]
    exact h.2
  unfold reap
  dsimp only
  split
  · exact h.1
  split
  · refine ⟨hwritten.1.congr rfl ?_ id, hwritten.2⟩
    exact fun hflags => hwritten.1.created (Or.inr (hflags.imp_right (absurd · Bool.false_ne_true)))
  · exact hwritten.stopPerfetto hstarted system.stop
  · exact hwritten

/-! ## Putting the traces together -/

theorem Sound.combined_free (h : Sound build files₀ world)
    (hfree : world.files world.capture.combined = none) : files₀ world.capture.combined = none := by
  rcases h.gains world.capture.combined with hsame | ⟨hnone, -, -⟩
  · exact hsame.symm.trans hfree
  · exact hnone

/-- A file that is left behind under the name of the combined one. -/
theorem Sound.leftover (h : Sound build files₀ world)
    (hfree : world.files world.capture.combined = none) (content : List UInt8) :
    Sound build files₀
      { world with files :=
        Function.update world.files world.capture.combined (some (.file content)) } := by
  refine ⟨h.names, ?_, h.created, ?_, ?_, h.noNetwork⟩
  · exact h.gains.put (h.combined_free hfree) (Or.inr (Or.inr (Or.inr rfl))) ⟨content, rfl⟩
  · intro trace htrace
    exact (Function.update_of_ne h.names.combined_ne_systemTrace.symm ..).trans
      (h.system trace htrace)
  · intro trace htrace
    have hne :=
      (h.names.combined_ne_networkTrace (h.systemOnly (htrace ▸ Option.some_ne_none trace))).symm
    exact (Function.update_of_ne hne ..).trans (h.network trace htrace)

/-- A delivery that fails leaves the capture sound. -/
theorem deliver_failed {exit : Except Errno Status} {next : World} {err : Errno}
    (h : Sound build files₀ world)
    (hstep : deliver system exit world = (next, some err)) : Sound build files₀ next := by
  unfold deliver at hstep
  split at hstep
  · cases hstep
    exact h
  split at hstep
  · cases hstep
    exact h
  split at hstep
  · cases hstep
    exact h
  rename_i boottimeCutoffNs monotonicCutoffNs hcutoffs
  dsimp only at hstep
  split at hstep
  · cases hstep
    exact h
  obtain ⟨files, mergeErr, hmerge⟩ : ∃ files mergeErr,
    mergeTraces system.merge boottimeCutoffNs monotonicCutoffNs world.capture world.files =
      (files, mergeErr) :=
    ⟨_, _, rfl⟩
  rw [hmerge] at hstep
  cases hstep
  obtain ⟨-, rfl | ⟨hfree, content, rfl⟩⟩ | ⟨hnone, -⟩ := mergeTraces_cases hmerge
  · exact h
  · exact h.leftover hfree content
  · cases hnone

theorem deliver_capture (system : FinishSystem) (exit : Except Errno Status) :
    Keeps World.capture (deliver system exit) := by
  intro world
  unfold deliver
  split
  · rfl
  split
  · rfl
  split
  · rfl
  dsimp only
  split <;> rfl

/-- What Perfetto has put into a trace that is there. -/
theorem Sound.system_of_file (h : Sound build files₀ world) {trace : List UInt8}
    (htrace : world.files world.capture.systemTrace = some (.file trace)) :
    world.system = some trace := by
  cases hsystem : world.system with
  | some content =>
      have hcontent := (h.system content hsystem).symm.trans htrace
      rw [Entry.file.inj (Option.some.inj hcontent)]
  | none =>
      have hother : ¬ world.Own world.capture.systemTrace := by
        rintro (⟨hwritten, -⟩ | ⟨hnetwork, hsame⟩ | ⟨-, hsame⟩ | hsame)
        · exact hwritten hsystem
        · exact h.networkTrace_ne hnetwork hsame.symm
        · exact h.names.systemTrace_ne_config hsame
        · exact h.names.combined_ne_systemTrace hsame.symm
      rw [h.gains.other hother, h.names.systemTrace] at htrace
      cases htrace

/-- And the recorder into the other. -/
theorem Sound.network_of_file (h : Sound build files₀ world)
    (hboth : world.capture.systemOnly = false)
    {trace : List UInt8} (htrace : world.files world.capture.networkTrace = some (.file trace)) :
    world.network = some trace := by
  cases hnetwork : world.network with
  | some content =>
      have hcontent := (h.network content hnetwork).symm.trans htrace
      rw [Entry.file.inj (Option.some.inj hcontent)]
  | none =>
      have hother : ¬ world.Own world.capture.networkTrace := by
        rintro (⟨-, hsame⟩ | ⟨hwritten, -⟩ | ⟨-, hsame⟩ | hsame)
        · exact h.names.networkTrace_ne_systemTrace hboth hsame
        · exact hwritten hnetwork
        · exact h.names.networkTrace_ne_config hboth hsame
        · exact h.names.combined_ne_networkTrace hboth hsame.symm
      rw [h.gains.other hother, (h.names.networkTrace hboth).2] at htrace
      cases htrace

/-- What a capture delivers: the packets of Perfetto inside the window, or all of them, and then
those of the recorder. -/
def Combined (clocks : Clocks) (world : World) (content : List UInt8) : Prop :=
  ∃ boottimeCutoffNs monotonicCutoffNs trace body tail, content = body ++ tail ∧
    cutoffs clocks world.capture = .ok (boottimeCutoffNs, monotonicCutoffNs) ∧
      world.system = some trace ∧
    TakenFrom boottimeCutoffNs monotonicCutoffNs world.capture.ringBuffer trace body ∧
    (world.capture.systemOnly = true → tail = []) ∧
    (world.capture.systemOnly = false → world.network = some tail)

/-- A delivery that succeeds has combined the traces. -/
theorem deliver_done {exit : Except Errno Status} {next : World} (h : Sound build files₀ world)
    (hstep : deliver system exit world = (next, none)) :
    ∃ content, Combined system.clocks world content ∧
      world.files world.capture.combined = none ∧ world.files world.capture.output = none ∧
      next =
        { world with files :=
          Function.update world.files world.capture.output (some (.file content)) } := by
  unfold deliver at hstep
  split at hstep
  · cases hstep
  split at hstep
  · cases hstep
  split at hstep
  · cases hstep
  rename_i boottimeCutoffNs monotonicCutoffNs hcutoffs
  dsimp only at hstep
  split at hstep
  · cases hstep
  obtain ⟨files, mergeErr, hmerge⟩ : ∃ files mergeErr,
    mergeTraces system.merge boottimeCutoffNs monotonicCutoffNs world.capture world.files =
      (files, mergeErr) :=
    ⟨_, _, rfl⟩
  rw [hmerge] at hstep
  cases hstep
  obtain ⟨hsome, -⟩ | ⟨-, hfree, houtput, content, hcombine, rfl⟩ := mergeTraces_cases hmerge
  · exact absurd rfl hsome
  obtain ⟨trace, body, tail, rfl, htrace, htaken, honly, hboth⟩ := combine_none hcombine
  rw [Function.update_of_ne h.names.combined_ne_systemTrace.symm] at htrace
  refine ⟨body ++ tail, ⟨boottimeCutoffNs, monotonicCutoffNs, trace, body, tail, rfl, hcutoffs,
    h.system_of_file htrace, htaken, honly, fun hother => ?_⟩, hfree, houtput, rfl⟩
  have htail := hboth hother
  rw [Function.update_of_ne (h.names.combined_ne_networkTrace hother).symm] at htail
  exact h.network_of_file hother htail

/-! ## Cleaning up -/

theorem cleanupTraceFile_of_ne {refused failed : Bool} {files : Files} {path other : Path}
    (h : other ≠ path) :
    cleanupTraceFile refused failed files path other = files other := by
  unfold cleanupTraceFile
  split
  · rfl
  · exact remove_of_ne h

/-- A file that can be removed is gone. -/
theorem cleanupTraceFile_self {files : Files} {path : Path} (hpath : path ≠ [])
    (h : ∀ entry, files path = some entry → IsFile entry) :
    cleanupTraceFile false false files path path = none := by
  unfold cleanupTraceFile
  rw [if_neg (not_or.mpr ⟨hpath, Bool.false_ne_true⟩)]
  exact remove_self h

section Cleanup

variable {removal : Removal} {capture : Capture} {files : Files}

theorem cleanupTraces_of_ne (hnames : Names build files₀ capture) {failed : Bool} {path : Path}
    (hsystem : path ≠ capture.systemTrace)
    (hnetwork : capture.systemOnly = false → path ≠ capture.networkTrace) :
    cleanupTraces removal failed capture files path = files path := by
  have hfirst {refused : Bool} :
      (if capture.systemCreated then cleanupTraceFile refused failed files capture.systemTrace
        else files) path =
        files path := by
    split
    · exact cleanupTraceFile_of_ne hsystem
    · rfl
  unfold cleanupTraces
  split
  · rename_i hsome
    have hboth := Bool.of_not_eq_true fun honly => hsome (hnames.noNetworkTrace honly)
    exact (cleanupTraceFile_of_ne (hnetwork hboth)).trans hfirst
  · exact hfirst

theorem cleanupTraces_systemTrace (hnames : Names build files₀ capture)
    (hcreated : capture.systemCreated = true)
    (hfile : ∀ entry, files capture.systemTrace = some entry → IsFile entry)
    (hrefused : removal.systemRefused = false) :
    cleanupTraces removal false capture files capture.systemTrace = none := by
  unfold cleanupTraces
  rw [if_pos hcreated, hrefused]
  split
  · rename_i hsome
    have hboth := Bool.of_not_eq_true fun honly => hsome (hnames.noNetworkTrace honly)
    rw [cleanupTraceFile_of_ne (hnames.networkTrace_ne_systemTrace hboth).symm]
    exact cleanupTraceFile_self hnames.systemTrace_ne_nil hfile
  · exact cleanupTraceFile_self hnames.systemTrace_ne_nil hfile

theorem cleanupTraces_networkTrace (hnames : Names build files₀ capture)
    (hboth : capture.systemOnly = false)
    (hfile : ∀ entry, files capture.networkTrace = some entry → IsFile entry)
    (hrefused : removal.networkRefused = false) :
    cleanupTraces removal false capture files capture.networkTrace = none := by
  unfold cleanupTraces
  rw [if_pos (hnames.networkTrace_ne_nil hboth), hrefused]
  refine cleanupTraceFile_self (hnames.networkTrace_ne_nil hboth) fun entry hentry => hfile entry ?_
  split at hentry
  · rwa [cleanupTraceFile_of_ne (hnames.networkTrace_ne_systemTrace hboth)] at hentry
  · exact hentry

end Cleanup

theorem cleanupTemporary_of_ne {removal : Removal} {failed : Bool} {path : Path}
    (h : path ≠ world.capture.config) :
    (cleanupTemporary removal failed world).files path =
      cleanupTraces removal failed world.capture world.files path := by
  unfold cleanupTemporary
  dsimp only
  split
  · exact remove_of_ne h
  · rfl

/-- The configuration is gone. -/
theorem cleanupTemporary_config {removal : Removal} (hnames : Names build files₀ world.capture)
    (hcreated : world.capture.configCreated = true)
    (hfile : ∀ entry, world.files world.capture.config = some entry → IsFile entry)
    (hrefused : removal.configRefused = false) :
    (cleanupTemporary removal false world).files world.capture.config = none := by
  have hnetwork (hboth : world.capture.systemOnly = false) :
      world.capture.config ≠ world.capture.networkTrace :=
    (hnames.networkTrace_ne_config hboth).symm
  unfold cleanupTemporary
  dsimp only
  rw [if_pos hcreated, hrefused]
  refine remove_self fun entry hentry => hfile entry ?_
  rwa [cleanupTraces_of_ne hnames hnames.systemTrace_ne_config.symm hnetwork] at hentry

/-- What was combined stays so in a world with the same traces. -/
theorem Combined.congr {clocks : Clocks} {next : World} {content : List UInt8}
    (h : Combined clocks world content)
    (hcapture : next.capture = world.capture) (hsystem : next.system = world.system)
    (hnetwork : next.network = world.network) : Combined clocks next content := by
  rw [Combined, hcapture, hsystem, hnetwork]
  exact h

/-- The removal leaves what was traced. -/
theorem cleanupTemporary_system (removal : Removal) (failed : Bool) (world : World) :
    (cleanupTemporary removal failed world).system = world.system ∧
      (cleanupTemporary removal failed world).network = world.network := by
  unfold cleanupTemporary
  dsimp only
  split <;> exact ⟨rfl, rfl⟩

end Anettrace.TraceCapture
