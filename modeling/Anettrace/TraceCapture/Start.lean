import Anettrace.TraceCapture.Staging

/-!
# Starting a capture

A start that fails has made nothing, or keeps to what a capture may change; one that succeeds leaves
a capture with its configuration.
-/

namespace Anettrace.TraceCapture

open Library Library.Staged Trim

variable {build : Build} {files₀ : Files} {world : World}

variable {system : StartSystem} {request : Request}

/-- A capture that has chosen its output and no other name. -/
def Fresh (files₀ : Files) (world : World) : Prop :=
  Idle files₀ world ∧ world.capture.networkTrace = []

/-- The output is named. -/
theorem chooseOutput_meets :
    Meets (chooseOutput system request) (Fresh files₀) (Fresh files₀) (Idle files₀) := by
  have hkept {world : World} (h : Fresh files₀ world) (output : Path) :
      Fresh files₀ { world with capture := { world.capture with output := output } } :=
    ⟨⟨h.1.files, h.1.started, h.1.configCreated, h.1.running, h.1.system, h.1.network⟩, h.2⟩
  constructor
  · intro world next hfresh hstep
    obtain ⟨rfl, -⟩ := Prod.mk.inj hstep
    exact hkept hfresh _
  · intro world next err hfresh hstep
    obtain ⟨rfl, -⟩ := Prod.mk.inj hstep
    exact (hkept hfresh _).1

theorem outputAbsent_meets :
    Meets outputAbsent (Fresh files₀)
      (fun world => Fresh files₀ world ∧ files₀ world.capture.output = none) (Idle files₀) := by
  refine (Meets.check fun {world} hfresh hlook => ?_).mono id id And.left
  by_contra hsome
  rw [hfresh.1.files, if_pos (Option.isSome_iff_ne_none.mpr hsome)] at hlook
  cases hlook

/-- The names that are made from the output before those of Perfetto. -/
def NetworkNamed (files₀ : Files) (world : World) : Prop :=
  Idle files₀ world ∧ files₀ world.capture.output = none ∧
  (world.capture.systemOnly = false →
    world.capture.networkTrace = world.capture.output ++ networkSuffix ∧
      files₀ world.capture.networkTrace = none) ∧
  (world.capture.systemOnly = true → world.capture.networkTrace = [])

theorem chooseNetworkTrace_meets :
    Meets chooseNetworkTrace (fun world => Fresh files₀ world ∧ files₀ world.capture.output = none)
      (NetworkNamed files₀) (Idle files₀) := by
  constructor
  · rintro world next ⟨⟨hidle, hnone⟩, houtput⟩ hstep
    unfold chooseNetworkTrace at hstep
    split at hstep
    · rename_i honly
      cases hstep
      exact ⟨hidle, houtput, fun hboth => Bool.noConfusion (honly.symm.trans hboth), fun _ => hnone⟩
    · rename_i hboth
      obtain ⟨rfl, herr⟩ := Prod.mk.inj hstep
      obtain ⟨hname, hfree⟩ := temporaryPath_none (Prod.ext rfl herr)
      exact ⟨⟨hidle.files, hidle.started, hidle.configCreated, hidle.running, hidle.system,
        hidle.network⟩, houtput,
        fun _ => ⟨hname, (congrFun hidle.files _).symm.trans hfree⟩, fun honly =>
          absurd honly hboth⟩
  · rintro world next err ⟨⟨hidle, -⟩, -⟩ hstep
    unfold chooseNetworkTrace at hstep
    split at hstep
    · cases hstep
    · obtain ⟨rfl, -⟩ := Prod.mk.inj hstep
      exact ⟨hidle.files, hidle.started, hidle.configCreated, hidle.running, hidle.system,
        hidle.network⟩

/-- A capture with all of its names and nothing else. -/
def Named (build : Build) (files₀ : Files) (world : World) : Prop :=
  Idle files₀ world ∧ Names build files₀ world.capture

theorem systemTemporaryPaths_meets :
    Meets (systemTemporaryPaths build system) (NetworkNamed files₀) (Named build files₀)
      (Idle files₀) := by
  have hkept {world : World} (h : Idle files₀ world) (systemTrace config : Path) :
      Idle files₀
        { world with
          capture := { world.capture with systemTrace := systemTrace, config := config } } :=
    ⟨h.files, h.started, h.configCreated, h.running, h.system, h.network⟩
  constructor
  · rintro world next ⟨hidle, houtput, hnetwork, hnone⟩ hstep
    unfold systemTemporaryPaths at hstep
    split at hstep
    · split at hstep
      · cases hstep
      rename_i name htrace
      obtain ⟨rfl, hfree⟩ := temporaryPath_none htrace
      obtain ⟨rfl, herr⟩ := Prod.mk.inj hstep
      obtain ⟨hconfig, hconfigFree⟩ := temporaryPath_none (Prod.ext rfl herr)
      exact ⟨hkept hidle _ _, houtput, hnetwork, hnone, fun _ => ⟨rfl, hconfig⟩, nofun,
        (congrFun hidle.files _).symm.trans hfree, (congrFun hidle.files _).symm.trans hconfigFree⟩
    · rename_i traceDir configDir
      split at hstep
      · cases hstep
      rename_i nonce _
      split at hstep
      · cases hstep
      rename_i name htrace
      obtain rfl := printed_none htrace
      obtain ⟨rfl, herr⟩ := Prod.mk.inj hstep
      obtain ⟨hprinted, habsent⟩ := orElse_none herr
      have hconfig := printed_none (Prod.ext rfl hprinted)
      have hfree : ¬ _ := fun hsome => Option.some_ne_none _ ((if_pos hsome).symm.trans habsent)
      rw [not_or, Option.not_isSome_iff_eq_none, Option.not_isSome_iff_eq_none,
        hidle.files] at hfree
      refine ⟨hkept hidle _ _, houtput, hnetwork, hnone, nofun, ?_, hfree.1, hfree.2⟩
      rintro _ _ ⟨⟩
      exact ⟨system.pid, nonce, rfl, hconfig⟩
  · rintro world next err ⟨hidle, -⟩ hstep
    unfold systemTemporaryPaths at hstep
    split at hstep
    · split at hstep
      · cases hstep
        exact hkept hidle _ world.capture.config
      · obtain ⟨rfl, -⟩ := Prod.mk.inj hstep
        exact hkept hidle _ _
    · split at hstep
      · cases hstep
        exact hidle
      · split at hstep
        · cases hstep
          exact hkept hidle _ world.capture.config
        · obtain ⟨rfl, -⟩ := Prod.mk.inj hstep
          exact hkept hidle _ _

theorem rememberRequest_meets :
    Meets (rememberRequest system request) (Named build files₀) (Sound build files₀)
      (Idle files₀) := by
  constructor
  · rintro world next ⟨hidle, hnames⟩ hstep
    unfold rememberRequest at hstep
    split at hstep
    · cases hstep
    · cases hstep
      refine Idle.sound ?_ ?_
      · exact ⟨hidle.files, hidle.started, hidle.configCreated, hidle.running, hidle.system,
          hidle.network⟩
      · exact ⟨hnames.output, hnames.networkTrace, hnames.noNetworkTrace, hnames.host,
          hnames.android,
          hnames.systemTrace, hnames.config⟩
  · rintro world next err ⟨hidle, -⟩ hstep
    unfold rememberRequest at hstep
    split at hstep
    · cases hstep
      exact hidle
    · cases hstep

/-- A capture whose configuration is there. -/
def Configured (build : Build) (files₀ : Files) (world : World) : Prop :=
  Sound build files₀ world ∧ world.HasConfig

/-- What the recorder writes leaves its configuration. -/
theorem HasConfig.perfetto (h : Configured build files₀ world) (wrote : Wrote) :
    (world.perfetto wrote).HasConfig := by
  cases wrote with
  | none => exact h.2
  | some content =>
      obtain ⟨config, hconfig⟩ := h.2
      exact ⟨config, (Function.update_of_ne h.1.names.systemTrace_ne_config.symm ..).trans hconfig⟩

theorem writeConfig_meets :
    Meets (writeConfig system) (Sound build files₀) (Configured build files₀)
      (Sound build files₀) := by
  have hmade {world next : World} {err : Option Errno} (h : Sound build files₀ world)
      (hstep : writeConfig system world = (next, err)) :
      Sound build files₀ next ∧ (err = none → next.HasConfig) := by
    unfold writeConfig at hstep
    split at hstep
    · cases hstep
      exact ⟨h, nofun⟩
    rename_i opened hopen
    obtain ⟨-, rfl⟩ := openExclusive_ok hopen
    rw [Function.update_idem] at hstep
    cases hstep
    have hown (path : Path) : world.Own path →
        World.Own { world with capture := { world.capture with configCreated := true } } path :=
      Or.imp_right (Or.imp_right (Or.imp_left fun hconfig => ⟨rfl, hconfig.2⟩))
    refine ⟨⟨⟨h.names.output, h.names.networkTrace, h.names.noNetworkTrace, h.names.host,
      h.names.android,
      h.names.systemTrace, h.names.config⟩, ?_, h.created, ?_, ?_, h.noNetwork⟩, ?_⟩
    · exact (h.gains.mono hown).put h.names.config (Or.inr (Or.inr (Or.inl ⟨rfl, rfl⟩))) ⟨_, rfl⟩
    · intro content hcontent
      exact (Function.update_of_ne h.names.systemTrace_ne_config ..).trans
        (h.system content hcontent)
    · intro content hcontent
      have hne :=
        h.names.networkTrace_ne_config (h.systemOnly (hcontent ▸ Option.some_ne_none content))
      exact (Function.update_of_ne hne ..).trans (h.network content hcontent)
    · exact fun _ => ⟨_, Function.update_self ..⟩
  constructor
  · intro world next h hstep
    exact ⟨(hmade h hstep).1, (hmade h hstep).2 rfl⟩
  · intro world next err h hstep
    exact (hmade h hstep).1

theorem openTrace_meets :
    Meets (openTrace build system) (Configured build files₀) (Configured build files₀)
      (Sound build files₀) := by
  constructor
  · intro world next h hstep
    unfold openTrace at hstep
    split at hstep
    · split at hstep
      · cases hstep
      split at hstep
      · cases hstep
      rename_i opened hopen
      obtain ⟨-, rfl⟩ := openExclusive_ok hopen
      cases hstep
      have hcreated : Sound build files₀
          { world with capture := { world.capture with systemCreated := true } } :=
        h.1.congr rfl (fun _ => rfl) fun _ => rfl
      exact ⟨hcreated.perfetto rfl (some []), HasConfig.perfetto h (some [])⟩
    · cases hstep
      exact h
  · intro world next err h hstep
    unfold openTrace at hstep
    split at hstep
    · split at hstep
      · cases hstep
        exact h.1
      split at hstep
      · cases hstep
        exact h.1
      · cases hstep
    · cases hstep

/-- A capture that has begun. -/
def Capturing (build : Build) (files₀ : Files) (world : World) : Prop :=
  Configured build files₀ world ∧ world.capture.started = true

/-- What the recorder writes leaves the capture. -/
theorem perfetto_started (wrote : Wrote) (world : World) :
    (world.perfetto wrote).capture = world.capture := by
  cases wrote <;> rfl

/-- The recorder is started. -/
theorem spawn_meets :
    Meets (spawn system) (Configured build files₀) (Capturing build files₀)
      (Sound build files₀) := by
  constructor
  · intro world next h hstep
    unfold spawn at hstep
    dsimp only at hstep
    split at hstep
    · cases hstep
    · cases hstep
      have hspawned : Configured build files₀
          { world with
            running := true
            capture := { world.capture with systemCreated := true, started := true } } :=
        ⟨h.1.congr rfl (fun _ => rfl) fun _ => rfl, h.2⟩
      refine ⟨⟨hspawned.1.perfetto rfl system.wrote, HasConfig.perfetto hspawned system.wrote⟩, ?_⟩
      rw [perfetto_started]
  · intro world next err h hstep
    unfold spawn at hstep
    dsimp only at hstep
    split at hstep
    · cases hstep
      exact h.1
    · cases hstep

/-- The recorder is waited for. -/
theorem awaitReady_meets :
    Meets (awaitReady system) (Capturing build files₀) (Capturing build files₀)
      (Sound build files₀) := by
  constructor
  · intro world next h hstep
    unfold awaitReady at hstep
    split at hstep
    · obtain ⟨rfl, -⟩ := Prod.mk.inj hstep
      exact h
    · split at hstep
      · cases hstep
      · cases hstep
        exact h
      · cases hstep
  · intro world next err h hstep
    unfold awaitReady at hstep
    split at hstep
    · obtain ⟨rfl, -⟩ := Prod.mk.inj hstep
      exact h.1.1
    · split at hstep
      · cases hstep
        exact h.1.1.ended
      · cases hstep
      · cases hstep
        exact h.1.1

/-- The recorder still runs. -/
theorem stillRunning_meets :
    Meets (stillRunning system) (Capturing build files₀) (Capturing build files₀)
      (Sound build files₀) := by
  constructor
  · intro world next h hstep
    unfold stillRunning at hstep
    split at hstep
    · cases hstep
    · cases hstep
      exact h
    · cases hstep
  · intro world next err h hstep
    unfold stillRunning at hstep
    split at hstep
    · cases hstep
      exact h.1.1.ended
    · cases hstep
    · cases hstep
      exact h.1.1

/-- Nobody waits for Perfetto before the capture has begun. -/
theorem launch_keeps : Keeps (fun world => world.capture.childReaped)
    (launch build system request) := by
  refine Keeps.andThen (fun _ => rfl) <| Keeps.andThen (fun _ => rfl) <| Keeps.andThen ?_ <|
    Keeps.andThen ?_ <| Keeps.andThen ?_ <| Keeps.andThen ?_ <| Keeps.andThen ?_ <|
      Keeps.andThen ?_ <|
    Keeps.andThen ?_ ?_
  all_goals intro world
  · unfold chooseNetworkTrace
    split <;> rfl
  · unfold systemTemporaryPaths
    split
    · split <;> rfl
    · split
      · rfl
      · split <;> rfl
  · unfold rememberRequest
    split <;> rfl
  · unfold writeConfig
    split <;> rfl
  · unfold openTrace
    split
    · split
      · rfl
      · split <;> rfl
    · rfl
  · unfold spawn
    dsimp only
    split
    · rfl
    · rw [perfetto_started]
  · unfold awaitReady
    split
    · rfl
    · split <;> rfl
  · unfold stillRunning
    split <;> rfl

/-- A start, of which every failure leaves the capture idle or sound. -/
theorem launch_meets :
    Meets (launch build system request) (Fresh files₀) (Capturing build files₀)
      (fun world => Idle files₀ world ∨ Sound build files₀ world) := by
  have hidle {step : Step World Errno} {pre post : World → Prop}
      (h : Meets step pre post (Idle files₀)) :
      Meets step pre post (fun world => Idle files₀ world ∨ Sound build files₀ world) :=
    h.mono id id Or.inl
  have hsound {step : Step World Errno} {pre post : World → Prop}
      (h : Meets step pre post (Sound build files₀)) :
      Meets step pre post (fun world => Idle files₀ world ∨ Sound build files₀ world) :=
    h.mono id id Or.inr
  exact (hidle chooseOutput_meets).andThen <| (hidle outputAbsent_meets).andThen <|
    (hidle chooseNetworkTrace_meets).andThen <| (hidle systemTemporaryPaths_meets).andThen <|
    (hidle rememberRequest_meets).andThen <| (hsound writeConfig_meets).andThen <|
    (hsound openTrace_meets).andThen <| (hsound spawn_meets).andThen <|
    (hsound awaitReady_meets).andThen (hsound stillRunning_meets)

/-- A start refuses what it is asked for, or launches. -/
theorem traceCaptureStart_cases (build : Build) (system : StartSystem) (request : Request)
    (world : World) :
    let zeroed := { world with capture := { Capture.zero with systemOnly := request.systemOnly } }
    (∃ err, traceCaptureStart build system request world = (zeroed, some err)) ∨
      traceCaptureStart build system request world =
        onError (launch build system request) (traceCaptureAbort system.abort) zeroed := by
  unfold traceCaptureStart
  dsimp only
  split
  · exact Or.inl ⟨_, rfl⟩
  split
  · exact Or.inl ⟨_, rfl⟩
  split
  · exact Or.inl ⟨_, rfl⟩
  exact Or.inr rfl

/-- A start that succeeds has made a capture, and one that fails has cleaned up. -/
theorem traceCaptureStart_meets :
    Meets (traceCaptureStart build system request) (fun world => world = .before files₀)
      (fun world => Capturing build files₀ world ∧ world.capture.childReaped = false)
        (Ended build files₀) := by
  have hfresh : Fresh files₀
      { World.before files₀ with
        capture := { Capture.zero with systemOnly := request.systemOnly } } :=
    ⟨⟨rfl, rfl, rfl, rfl, rfl, rfl⟩, rfl⟩
  have hlaunch : Meets (launch build system request)
      (fun world => Fresh files₀ world ∧ world.capture.childReaped = false)
      (fun world => Capturing build files₀ world ∧ world.capture.childReaped = false)
      (fun world => (Idle files₀ world ∨ Sound build files₀ world) ∧
        world.capture.childReaped = false) :=
    launch_meets.keeps launch_keeps false
  have hstart : Meets (onError (launch build system request) (traceCaptureAbort system.abort))
      (fun world => Fresh files₀ world ∧ world.capture.childReaped = false)
      (fun world => Capturing build files₀ world ∧ world.capture.childReaped = false)
        (Ended build files₀) := by
    refine hlaunch.onError ?_
    rintro world ⟨hidle | hsound, halive⟩
    · exact Or.inl (hidle.abort system.abort)
    · exact hsound.abort (fun _ => halive) system.abort
  constructor
  · rintro world next rfl hstep
    obtain ⟨err, hrefused⟩ | hlaunched :=
      traceCaptureStart_cases build system request (.before files₀)
    · rw [hrefused] at hstep
      cases hstep
    · exact hstart.done ⟨hfresh, rfl⟩ (hlaunched.symm.trans hstep)
  · rintro world next err rfl hstep
    obtain ⟨err, hrefused⟩ | hlaunched :=
      traceCaptureStart_cases build system request (.before files₀)
    · rw [hrefused] at hstep
      cases hstep
      exact Or.inl hfresh.1
    · exact hstart.failed ⟨hfresh, rfl⟩ (hlaunched.symm.trans hstep)

end Anettrace.TraceCapture
