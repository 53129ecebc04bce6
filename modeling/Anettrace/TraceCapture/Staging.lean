import Anettrace.TraceCapture.Merge

/-!
# What a capture does to the files

Until a capture has succeeded, it has only added files, and only under the names of its traces, of
its configuration and of the file that it puts them together in. This is carried from the choice of
the names through whatever Perfetto, the recorder and the program do in any order.
-/

namespace Anettrace.TraceCapture

open Library Library.Staged Trim

/-- What a capture makes. -/
def IsFile (entry : Entry) : Prop := ∃ content, entry = .file content

/-- The names under which there may be something of this capture. -/
def World.Own (world : World) (path : Path) : Prop :=
  (world.system ≠ none ∧ path = world.capture.systemTrace) ∨
  (world.network ≠ none ∧ path = world.capture.networkTrace) ∨
  (world.capture.configCreated = true ∧ path = world.capture.config) ∨ path = world.capture.combined

/-- A capture that has not made anything. -/
structure Idle (files₀ : Files) (world : World) : Prop where
  files : world.files = files₀
  started : world.capture.started = false
  configCreated : world.capture.configCreated = false
  running : world.running = false
  system : world.system = none
  network : world.network = none

/-- A capture that has chosen its names and has not succeeded. -/
structure Sound (build : Build) (files₀ : Files) (world : World) : Prop where
  names : Names build files₀ world.capture
  gains : Overlay.Gains files₀ world.Own IsFile world.files
  created : world.system ≠ none ∨ world.capture.started = true ∨ world.running = true →
    world.capture.systemCreated = true
  system : ∀ content, world.system = some content →
    world.files world.capture.systemTrace = some (.file content)
  network : ∀ content, world.network = some content →
    world.files world.capture.networkTrace = some (.file content)
  noNetwork : world.capture.systemOnly = true → world.network = none

def World.HasConfig (world : World) : Prop :=
  ∃ content, world.files world.capture.config = some (.file content)

/-- The configuration is gone, unless the system has refused to remove it. -/
def World.Cleaned (world : World) : Prop :=
  world.configRefused = false → world.files world.capture.config = none

variable {build : Build} {files₀ : Files} {world : World}

theorem Sound.systemOnly (h : Sound build files₀ world) (hnetwork : world.network ≠ none) :
    world.capture.systemOnly = false :=
  Bool.of_not_eq_true fun honly => hnetwork (h.noNetwork honly)

theorem Sound.networkTrace_ne (h : Sound build files₀ world) (hnetwork : world.network ≠ none) :
    world.capture.networkTrace ≠ world.capture.systemTrace :=
  h.names.networkTrace_ne_systemTrace (h.systemOnly hnetwork)

theorem Idle.sound (h : Idle files₀ world) (hnames : Names build files₀ world.capture) :
    Sound build files₀ world where
  names := hnames
  gains := h.files ▸ Overlay.Gains.refl
  created := by
    rintro (hsystem | hstarted | hrunning)
    · exact absurd h.system hsystem
    · exact Bool.noConfusion (h.started.symm.trans hstarted)
    · exact Bool.noConfusion (h.running.symm.trans hrunning)
  system content hcontent := by
    rw [h.system] at hcontent
    cases hcontent
  network content hcontent := by
    rw [h.network] at hcontent
    cases hcontent
  noNetwork _ := h.network

/-! ## Changes of the files -/

/-- Perfetto writes its trace. -/
theorem Sound.perfetto (h : Sound build files₀ world)
    (hcreated : world.capture.systemCreated = true)
    (wrote : Wrote) : Sound build files₀ (world.perfetto wrote) := by
  cases wrote with
  | none => exact h
  | some content =>
      have hown (path : Path) : world.Own path → (world.perfetto (some content)).Own path :=
        Or.imp_left fun hsystem => ⟨Option.some_ne_none _, hsystem.2⟩
      refine ⟨h.names, ?_, fun _ => hcreated, ?_, ?_, h.noNetwork⟩
      · exact (h.gains.mono hown).put h.names.systemTrace (Or.inl ⟨Option.some_ne_none _, rfl⟩)
          ⟨content, rfl⟩
      · rintro _ ⟨⟩
        exact Function.update_self ..
      · intro other hother
        have hne := h.networkTrace_ne (hother ▸ Option.some_ne_none _)
        exact (Function.update_of_ne hne ..).trans (h.network other hother)

/-- The recorder writes the other one. -/
theorem Sound.record (h : Sound build files₀ world) (hboth : world.capture.systemOnly = false)
    (content : List UInt8) : Sound build files₀ (world.record content) := by
  unfold World.record
  split
  · exact h
  have hown (path : Path) : world.Own path →
      World.Own { world with network := some content } path :=
    Or.imp_right (Or.imp_left fun hnetwork => ⟨Option.some_ne_none _, hnetwork.2⟩)
  refine ⟨h.names, ?_, h.created, ?_, ?_, fun honly => Bool.noConfusion (hboth.symm.trans honly)⟩
  · exact (h.gains.mono hown).put (h.names.networkTrace hboth).2
      (Or.inr (Or.inl ⟨Option.some_ne_none _, rfl⟩)) ⟨content, rfl⟩
  · intro other hother
    have hne := (h.names.networkTrace_ne_systemTrace hboth).symm
    exact (Function.update_of_ne hne ..).trans (h.system other hother)
  · rintro _ ⟨⟩
    exact Function.update_self ..

/-- What the invariant depends on. -/
def World.view (world : World) :=
  (world.files, world.capture.output, world.capture.systemTrace, world.capture.networkTrace,
    world.capture.config, world.capture.systemOnly, world.capture.configCreated, world.system,
      world.network)

/-- A step that only touches flags, and does not set `started` or `running` on its own. -/
theorem Sound.congr {next : World} (h : Sound build files₀ world) (hview : next.view = world.view)
    (hcreated : next.capture.started = true ∨ next.running = true →
      next.capture.systemCreated = true)
    (hsystem : world.capture.systemCreated = true → next.capture.systemCreated = true) :
    Sound build files₀ next := by
  simp only [World.view, Prod.mk.injEq] at hview
  obtain ⟨hfiles, houtput, htrace, hnetworkTrace, hconfig, honly, hconfigCreated, hwritten,
    hnetwork⟩ := hview
  have hcombined : next.capture.combined = world.capture.combined := by
    rw [Capture.combined, houtput, Capture.combined]
  refine ⟨⟨?_, ?_, ?_, ?_, ?_, ?_, ?_⟩, ?_, ?_, ?_, ?_, ?_⟩
  · rw [houtput]
    exact h.names.output
  · rw [honly, hnetworkTrace, houtput]
    exact h.names.networkTrace
  · rw [honly, hnetworkTrace]
    exact h.names.noNetworkTrace
  · rw [htrace, houtput, hconfig]
    exact h.names.host
  · rw [htrace, hconfig]
    exact h.names.android
  · rw [htrace]
    exact h.names.systemTrace
  · rw [hconfig]
    exact h.names.config
  · rw [hfiles]
    refine h.gains.mono fun path hpath => ?_
    rwa [World.Own, hwritten, htrace, hnetwork, hnetworkTrace, hconfigCreated, hconfig, hcombined]
  · rintro (hwrote | hflags)
    · exact hsystem (h.created (Or.inl (hwritten ▸ hwrote)))
    · exact hcreated hflags
  · rw [hwritten, hfiles, htrace]
    exact h.system
  · rw [hnetwork, hfiles, hnetworkTrace]
    exact h.network
  · rw [honly, hnetwork]
    exact h.noNetwork

/-! ## Removals -/

/-- A removal takes a file away, and leaves everything else as it is. -/
theorem unlink_cases (files : Files) (path : Path) :
    unlink files path = Function.update files path none ∨
      (unlink files path = files ∧ ∀ entry, files path = some entry → ¬ IsFile entry) := by
  unfold unlink
  cases hentry : files path with
  | none => exact Or.inr ⟨rfl, nofun⟩
  | some entry =>
      cases entry with
      | file content => exact Or.inl rfl
      | directory =>
          refine Or.inr ⟨rfl, ?_⟩
          rintro _ ⟨⟩ ⟨_, ⟨⟩⟩

theorem remove_of_ne {refused : Bool} {files : Files} {path other : Path} (h : other ≠ path) :
    remove refused files path other = files other := by
  unfold remove
  split
  · rfl
  · obtain hgone | ⟨hsame, -⟩ := unlink_cases files path
    · rw [hgone, Function.update_of_ne h]
    · rw [hsame]

theorem remove_self {files : Files} {path : Path}
    (h : ∀ entry, files path = some entry → IsFile entry) :
    remove false files path path = none := by
  unfold remove
  rw [if_neg Bool.false_ne_true]
  obtain hgone | ⟨hsame, hother⟩ := unlink_cases files path
  · rw [hgone, Function.update_self]
  · rw [hsame]
    exact Option.eq_none_iff_forall_ne_some.mpr fun entry hentry =>
      hother entry hentry (h entry hentry)

/-- The removal of a new file leaves the old ones. -/
theorem gains_remove {own : Path → Prop} {refused : Bool} {files : Files} {path : Path}
    (h : Overlay.Gains files₀ own IsFile files) (hfree : files₀ path = none) :
    Overlay.Gains files₀ own IsFile (remove refused files path) := by
  unfold remove
  split
  · exact h
  · obtain hgone | ⟨hsame, -⟩ := unlink_cases files path
    · rw [hgone]
      exact h.drop hfree
    · rw [hsame]
      exact h

/-- What is under a name that was free is a file. -/
theorem isFile_of_gains {own : Path → Prop} {files : Files} {path : Path} {entry : Entry}
    (h : Overlay.Gains files₀ own IsFile files) (hfree : files₀ path = none)
    (hentry : files path = some entry) :
    IsFile entry := by
  rcases h path with hsame | ⟨-, -, value, hvalue, hnow⟩
  · rw [hsame, hfree] at hentry
    cases hentry
  · obtain rfl := Option.some.inj (hentry.symm.trans hnow)
    exact hvalue

theorem cleanupTraces_failed (removal : Removal) (capture : Capture) (files : Files) :
    cleanupTraces removal true capture files = files := by
  have hkept (refused : Bool) (path : Path) : cleanupTraceFile refused true files path = files :=
    if_pos (Or.inr rfl)
  unfold cleanupTraces
  simp only [hkept, ite_self]

/-- The cleanup of a capture that failed removes its configuration and nothing else. -/
theorem Sound.cleanup (h : Sound build files₀ world) (removal : Removal) :
    Sound build files₀ (cleanupTemporary removal true world) ∧
      (cleanupTemporary removal true world).Cleaned := by
  unfold cleanupTemporary
  rw [cleanupTraces_failed]
  dsimp only
  by_cases hconfig : world.capture.configCreated = true
  · rw [if_pos hconfig]
    have hne := h.names.systemTrace_ne_config
    refine ⟨⟨h.names, gains_remove h.gains h.names.config, h.created, ?_, ?_, h.noNetwork⟩, ?_⟩
    · exact fun content hcontent => (remove_of_ne hne).trans (h.system content hcontent)
    · intro content hcontent
      have hother :=
        h.names.networkTrace_ne_config (h.systemOnly (hcontent ▸ Option.some_ne_none content))
      exact (remove_of_ne hother).trans (h.network content hcontent)
    · intro hrefused
      obtain ⟨systemRefused, networkRefused, configRefused⟩ := removal
      obtain rfl : configRefused = false := hrefused
      exact remove_self fun entry hentry => isFile_of_gains h.gains h.names.config hentry
  · rw [if_neg hconfig]
    refine ⟨h, fun _ => ?_⟩
    refine (h.gains.other ?_).trans h.names.config
    rintro (⟨-, hsame⟩ | ⟨hnetwork, hsame⟩ | ⟨hcreated, -⟩ | hsame)
    · exact h.names.systemTrace_ne_config hsame.symm
    · exact h.names.networkTrace_ne_config (h.systemOnly hnetwork) hsame.symm
    · exact hconfig hcreated
    · exact h.names.combined_ne_config hsame.symm

/-! ## Stopping and giving up -/

/-- The stop leaves the files. -/
theorem traceCaptureStop_view (clocks : Clocks) (world : World) :
    (traceCaptureStop clocks world).view = world.view ∧
      (traceCaptureStop clocks world).running = world.running ∧
      (traceCaptureStop clocks world).capture.started = world.capture.started ∧
      (traceCaptureStop clocks world).capture.systemCreated = world.capture.systemCreated := by
  unfold traceCaptureStop
  dsimp only
  split
  · exact ⟨rfl, rfl, rfl, rfl⟩
  · split <;> exact ⟨rfl, rfl, rfl, rfl⟩

section

variable (h : Sound build files₀ world)
include h

theorem Sound.stop (clocks : Clocks) :
    Sound build files₀ (traceCaptureStop clocks world) := by
  obtain ⟨hview, hrunning, hstarted, hcreated⟩ := traceCaptureStop_view clocks world
  refine h.congr hview ?_ (hcreated ▸ id)
  rw [hstarted, hrunning, hcreated]
  exact fun hflags => h.created (Or.inr hflags)

/-- The end of the recorder leaves the capture sound. -/
theorem Sound.reaped (status : Status) :
    Sound build files₀ (world.reaped status) :=
  h.congr rfl (fun hflags => h.created (Or.inr (hflags.imp_right nofun))) id

theorem Sound.ended : Sound build files₀ world.ended :=
  h.congr rfl (fun hflags => (hflags.elim Bool.false_ne_true Bool.false_ne_true).elim) id

theorem Sound.stopPerfetto (hstarted : world.capture.started = true) (system : StopSystem) :
    Sound build files₀ (stopPerfetto system world).1 := by
  have hcreated : (traceCaptureStop system.clocks world).capture.systemCreated = true := by
    rw [(traceCaptureStop_view system.clocks world).2.2.2]
    exact h.created (Or.inr (Or.inl hstarted))
  have hwritten := (h.stop system.clocks).perfetto hcreated system.wrote
  unfold TraceCapture.stopPerfetto
  dsimp only
  split
  · exact hwritten.reaped _
  · exact hwritten
  · exact hwritten
  · exact hwritten.reaped _
  · exact hwritten.reaped _

/-- `started` is cleared. -/
theorem Sound.halted :
    Sound build files₀ { world with capture := { world.capture with started := false } } :=
  h.congr rfl (fun hflags => h.created (Or.inr (Or.inr (hflags.resolve_left Bool.false_ne_true))))
    id

end

theorem cleanupTemporary_capture (removal : Removal) (failed : Bool) (world : World) :
    (cleanupTemporary removal failed world).capture = world.capture := by
  unfold cleanupTemporary
  dsimp only
  split <;> rfl

/-- A capture that is over without having succeeded, and has cleaned up. -/
def Ended (build : Build) (files₀ : Files) (world : World) : Prop :=
  Idle files₀ world ∨ (Sound build files₀ world ∧ world.Cleaned ∧ world.capture.started = false)

/-- A capture that is given up keeps its traces. -/
theorem Sound.abort (h : Sound build files₀ world)
    (hstarted : world.capture.started = true → world.capture.childReaped = false)
    (system : AbortSystem) :
    Ended build files₀ (traceCaptureAbort system world) := by
  unfold traceCaptureAbort
  dsimp only
  split
  · rename_i hflags
    have hstopped := h.stopPerfetto hflags.1 system.stop
    obtain ⟨hsound, hcleaned⟩ := hstopped.halted.cleanup system.removal
    exact Or.inr ⟨hsound, hcleaned, by rw [cleanupTemporary_capture]⟩
  · rename_i hflags
    obtain ⟨hsound, hcleaned⟩ := h.cleanup system.removal
    refine Or.inr ⟨hsound, hcleaned, ?_⟩
    rw [cleanupTemporary_capture]
    exact Bool.of_not_eq_true fun hon => hflags ⟨hon, hstarted hon⟩

/-- A capture that did not start may be aborted. -/
theorem Idle.abort (h : Idle files₀ world) (system : AbortSystem) :
    Idle files₀ (traceCaptureAbort system world) := by
  have hstarted : ¬ (world.capture.started = true ∧ world.capture.childReaped = false) :=
    fun hflags => Bool.noConfusion (h.started.symm.trans hflags.1)
  have hconfigKept : ¬ world.capture.configCreated = true :=
    fun hcreated => Bool.noConfusion (h.configCreated.symm.trans hcreated)
  unfold traceCaptureAbort cleanupTemporary
  rw [if_neg hstarted]
  dsimp only
  rw [if_neg hconfigKept, cleanupTraces_failed]
  exact h

end Anettrace.TraceCapture
