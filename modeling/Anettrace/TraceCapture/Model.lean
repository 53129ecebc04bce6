import Anettrace.Library.Staged
import Anettrace.Trim.File

/-!
# The capture of a combined trace

`trace_capture_start` chooses the names of a capture and starts Perfetto, `trace_capture_finish`
stops it and puts its trace and that of the recorder together, and `trace_capture_abort` gives up.
The system decides which calls fail; the waiting for a child is given by how it ends, and the text
of the configuration by what ends up in the file. Names stand for files and directories only, and a
name can be looked up whenever it exists.
-/

namespace Anettrace.TraceCapture

open Library Library.Staged Library.Transfer Trim

/-- How the program was built: for Android, `PERFETTO_TRACE_DIR` and `PERFETTO_CONFIG_DIR` are
given. -/
inductive Build where
  | host
  | android (traceDir configDir : Path)
  deriving DecidableEq

/-- `"/data/misc/perfetto-traces"` -/
def perfettoTraceDir : Path :=
  [0x2f, 0x64, 0x61, 0x74, 0x61, 0x2f, 0x6d, 0x69, 0x73, 0x63, 0x2f, 0x70, 0x65, 0x72,
    0x66, 0x65, 0x74,
    0x74, 0x6f, 0x2d, 0x74, 0x72, 0x61, 0x63, 0x65, 0x73]

/-- `"/data/misc/perfetto-configs"` -/
def perfettoConfigDir : Path :=
  [0x2f, 0x64, 0x61, 0x74, 0x61, 0x2f, 0x6d, 0x69, 0x73, 0x63, 0x2f, 0x70, 0x65, 0x72,
    0x66, 0x65, 0x74,
    0x74, 0x6f, 0x2d, 0x63, 0x6f, 0x6e, 0x66, 0x69, 0x67, 0x73]

/-- What the functions return, negated. -/
inductive Errno where
  | eoverflow
  | enodata
  | echild
  | etimedout
  /-- Any other error of the functions or of a system call. -/
  | file (err : FileErrno)
  deriving DecidableEq, Repr

/-- How a child ended. -/
inductive Status where
  | exited (code : UInt8)
  | signaled (signal : UInt8)
  deriving DecidableEq, Repr

/-- `struct capture_state`, but for the number of the process. -/
structure Capture where
  output : Path
  systemTrace : Path
  networkTrace : Path
  config : Path
  windowS : Nat
  stopBoottimeNs : Nat
  stopMonotonicNs : Nat
  ringBuffer : Bool
  stopRequested : Bool
  started : Bool
  systemOnly : Bool
  childReaped : Bool
  childStatus : Status
  configCreated : Bool
  systemCreated : Bool

/-- `memset(&capture, 0, sizeof(capture))` -/
def Capture.zero : Capture :=
  ⟨[], [], [], [], 0, 0, 0, false, false, false, false, false, .exited 0, false, false⟩

/-- The state of a capture and the files around it. The last four fields are not kept by the
program: they say what the other parties have done. -/
structure World where
  files : Files
  capture : Capture
  /-- Perfetto has been started, and has not been seen to end. -/
  running : Bool
  /-- What Perfetto has put into its trace, from when the trace exists. -/
  system : Option (List UInt8)
  /-- The same for the recorder. -/
  network : Option (List UInt8)
  /-- The system has refused to remove the configuration. -/
  configRefused : Bool

/-- Before a capture. -/
def World.before (files : Files) : World := ⟨files, .zero, false, none, none, false⟩

/-- Perfetto creates its trace, or changes what is in it. -/
def World.perfetto (wrote : Option (List UInt8)) (world : World) : World :=
  match wrote with
  | none => world
  | some content =>
      { world with
        files := Function.update world.files world.capture.systemTrace (some (.file content))
        system := some content }

/-- `perfetto_export_native_open`, and what the recorder writes after it. -/
def World.record (content : List UInt8) (world : World) : World :=
  if world.network = none ∧ (world.files world.capture.networkTrace).isSome then world
  else
    { world with
      files := Function.update world.files world.capture.networkTrace (some (.file content))
      network := some content }

/-! ## Names -/

/-- `snprintf` into a buffer of `PATH_MAX` bytes. -/
def printed (path : Path) : Path × Option Errno :=
  (path.take (pathMax - 1), if path.length ≥ pathMax then some (.file .enametoolong) else none)

/-- `"%s/anettrace-%s.pftrace"`, where the time may not be known. -/
def makeDefaultName (timestamp : Option Path) (directory : Option Path) : Path × Option Errno :=
  match timestamp with
  | none => ([], some (.file .eio))
  | some timestamp =>
      printed (directory.getD [0x2e] ++
        [0x2f, 0x61, 0x6e, 0x65, 0x74, 0x74, 0x72, 0x61, 0x63, 0x65, 0x2d] ++ timestamp ++
        [0x2e, 0x70, 0x66, 0x74, 0x72, 0x61, 0x63, 0x65])

def resolveOutput (timestamp : Option Path) (statFails : Bool) (files : Files) :
    Option Path → Path × Option Errno
  | none => makeDefaultName timestamp none
  | some requested =>
      if statFails = false ∧ files requested = some .directory then
        makeDefaultName timestamp (some requested)
      else if requested.length ≥ pathMax then ([], some (.file .enametoolong))
      else (requested, none)

/-- `".anettrace.tmp"` -/
def networkSuffix : Path :=
  [0x2e, 0x61, 0x6e, 0x65, 0x74, 0x74, 0x72, 0x61, 0x63, 0x65, 0x2e, 0x74, 0x6d, 0x70]

/-- `".system.tmp"` -/
def systemSuffix : Path := [0x2e, 0x73, 0x79, 0x73, 0x74, 0x65, 0x6d, 0x2e, 0x74, 0x6d, 0x70]

/-- `".config.tmp"` -/
def configSuffix : Path := [0x2e, 0x63, 0x6f, 0x6e, 0x66, 0x69, 0x67, 0x2e, 0x74, 0x6d, 0x70]

/-- `".combined.tmp"` -/
def combinedSuffix : Path :=
  [0x2e, 0x63, 0x6f, 0x6d, 0x62, 0x69, 0x6e, 0x65, 0x64, 0x2e, 0x74, 0x6d, 0x70]

def temporaryPath (files : Files) (output suffix : Path) : Path × Option Errno :=
  match printed (output ++ suffix) with
  | (dest, some err) => (dest, some err)
  | (dest, none) =>
      if (files dest).isSome then ([], some (.file .eexist)) else (dest, none)

/-- `"%llu"` -/
def decimal (value : Nat) : Path := (Nat.toDigits 10 value).map fun digit => digit.val.toUInt8

/-- `"/anettrace-%d-%llu"` -/
def nonceName (pid nonce : Nat) : Path :=
  [0x2f, 0x61, 0x6e, 0x65, 0x74, 0x74, 0x72, 0x61, 0x63, 0x65, 0x2d] ++ decimal pid ++ [0x2d] ++
    decimal nonce

/-- `PERFETTO_TRACE_DIR "/anettrace-%d-%llu.pftrace"` -/
def androidTrace (directory : Path) (pid nonce : Nat) : Path :=
  directory ++ nonceName pid nonce ++ [0x2e, 0x70, 0x66, 0x74, 0x72, 0x61, 0x63, 0x65]

/-- `PERFETTO_CONFIG_DIR "/anettrace-%d-%llu.pbtxt"` -/
def androidConfig (directory : Path) (pid nonce : Nat) : Path :=
  directory ++ nonceName pid nonce ++ [0x2e, 0x70, 0x62, 0x74, 0x78, 0x74]

/-! ## What the system does -/

/-- A change that Perfetto makes to its trace by some point, if any. -/
abbrev Wrote := Option (List UInt8)

/-- `clock_gettime` of `CLOCK_BOOTTIME` and of `CLOCK_MONOTONIC`, in nanoseconds. -/
abbrev Clocks := Except FileErrno (Nat × Nat)

/-- How `wait_perfetto_stop` ends. -/
inductive StopWait where
  | reaped (status : Status)
  /-- The trace has stopped growing, and Perfetto is killed. What is then seen of it is what
  `wait_child` returns. -/
  | stalled (killed : Except Errno Status)
  | failed (err : Errno)

/-- What the system does while Perfetto is stopped. -/
structure StopSystem where
  clocks : Clocks
  wrote : Wrote
  wait : StopWait

/-- Which files the system does not let go of. -/
structure Removal where
  systemRefused : Bool
  networkRefused : Bool
  configRefused : Bool

/-- What the system does while a capture is given up. -/
structure AbortSystem where
  stop : StopSystem
  removal : Removal

/-- What `wait_child` sees of Perfetto after its start. -/
inductive EarlyWait where
  | exited
  | alive
  | failed (err : Errno)

/-- What the system does while a capture starts. A call with an error fails with it. -/
structure StartSystem where
  timestamp : Option Path
  statFails : Bool
  pid : Nat
  nonce : Except FileErrno Nat
  supportsNotify : Except Errno Bool
  openConfig : Option FileErrno
  /-- What ends up in the configuration. -/
  config : List UInt8
  configErr : Option Errno
  closeConfig : Option FileErrno
  openConfigRead : Option FileErrno
  openTrace : Option FileErrno
  pipe : Option FileErrno
  fork : Option FileErrno
  wrote : Wrote
  ready : Option Errno
  early : EarlyWait
  waitpid : EarlyWait
  abort : AbortSystem

/-- What the system does while the traces are put together. -/
structure MergeSystem where
  openOutput : Option FileErrno
  openTrace : Option FileErrno
  stream : Script
  traceReads : List (Call FileErrno)
  traceWrites : List (Call FileErrno)
  statOutput : Option FileErrno
  openNetwork : Option FileErrno
  networkReads : List (Call FileErrno)
  networkWrites : List (Call FileErrno)
  fsync : Option FileErrno
  close : Option FileErrno
  rename : Option FileErrno
  removeRefused : Bool

/-- What the system does while a capture finishes. -/
structure FinishSystem where
  /-- What `wait_child` returns. -/
  child : Except Errno Status
  wrote : Wrote
  stop : StopSystem
  clocks : Clocks
  statSystem : Option FileErrno
  statNetwork : Option FileErrno
  merge : MergeSystem
  removal : Removal

/-! Systems in which no call fails. -/

/-- The recorder is stopped without a failure. -/
def StopSystem.calm : StopSystem := ⟨.ok (0, 0), none, .reaped (.exited 0)⟩

/-- The files are removed without a failure. -/
def Removal.calm : Removal := ⟨false, false, false⟩

/-- A start in which Perfetto writes its trace at once. -/
def StartSystem.calm (trace : List UInt8) : StartSystem where
  timestamp := none
  statFails := false
  pid := 1
  nonce := .ok 1
  supportsNotify := .ok true
  openConfig := none
  config := []
  configErr := none
  closeConfig := none
  openConfigRead := none
  openTrace := none
  pipe := none
  fork := none
  wrote := some trace
  ready := none
  early := .alive
  waitpid := .alive
  abort := ⟨.calm, .calm⟩

/-- The traces are combined without a failure. -/
def MergeSystem.calm : MergeSystem :=
  ⟨none, none, .calm, [], [], none, none, [], [], none, none, none, false⟩

/-- The capture is finished without a failure, but for the removal of its files. -/
def FinishSystem.calm (removal : Removal) : FinishSystem :=
  ⟨.ok (.exited 0), none, .calm, .ok (0, 0), none, none, .calm, removal⟩

/-- The arguments of `trace_capture_start`. -/
structure Request where
  output : Option Path
  durationS : Nat
  profile : Option String
  perfettoConfig : Option Path
  ringBuffer : Bool
  systemOnly : Bool

/-! ## Stopping -/

def traceCaptureStop (clocks : Clocks) (world : World) : World :=
  let capture := world.capture
  if capture.started = false ∨ capture.stopRequested then world
  else
    match capture.ringBuffer, clocks with
    | true, .ok (boottime, monotonic) =>
        { world with
          capture :=
            { capture with
              stopBoottimeNs := boottime, stopMonotonicNs := monotonic, stopRequested := true } }
    | _, _ => { world with capture := { capture with stopRequested := true } }

/-- Perfetto has been waited for. -/
def World.reaped (status : Status) (world : World) : World :=
  { world with
    running := false
    capture := { world.capture with childReaped := true, childStatus := status } }

def stopPerfetto (system : StopSystem) (world : World) : World × Except Errno Status :=
  let world := (traceCaptureStop system.clocks world).perfetto system.wrote
  match system.wait with
  | .reaped status => (world.reaped status, .ok status)
  | .failed err => (world, .error err)
  | .stalled (.error _) => (world, .error .etimedout)
  | .stalled (.ok (.exited code)) => (world.reaped (.exited code), .ok (.exited code))
  | .stalled (.ok (.signaled signal)) => (world.reaped (.signaled signal), .error .etimedout)

/-- `unlink(path)`, which the system may refuse. -/
def remove (refused : Bool) (files : Files) (path : Path) : Files :=
  if refused then files else unlink files path

def cleanupTraceFile (refused failed : Bool) (files : Files) (path : Path) : Files :=
  if path = [] ∨ failed then files else remove refused files path

def cleanupTraces (removal : Removal) (failed : Bool) (capture : Capture) (files : Files) : Files :=
  let files :=
    if capture.systemCreated then
      cleanupTraceFile removal.systemRefused failed files capture.systemTrace
    else files
  if capture.networkTrace ≠ [] then
    cleanupTraceFile removal.networkRefused failed files capture.networkTrace
  else files

def cleanupTemporary (removal : Removal) (failed : Bool) (world : World) : World :=
  let files := cleanupTraces removal failed world.capture world.files
  if world.capture.configCreated then
    { world with
      files := remove removal.configRefused files world.capture.config
      configRefused := removal.configRefused }
  else { world with files := files }

def traceCaptureAbort (system : AbortSystem) (world : World) : World :=
  let world :=
    if world.capture.started ∧ world.capture.childReaped = false then
      let world := (stopPerfetto system.stop world).1
      { world with capture := { world.capture with started := false } }
    else world
  cleanupTemporary system.removal true world

/-! ## Starting -/

section Start

variable (build : Build) (system : StartSystem) (request : Request)

def chooseOutput : Step World Errno := fun world =>
  let (output, err) :=
    resolveOutput system.timestamp system.statFails world.files request.output
  ({ world with capture := { world.capture with output := output } }, err)

/-- `access(capture.output, F_OK)` -/
def outputAbsent : Step World Errno := fun world =>
  (world, if (world.files world.capture.output).isSome then some (.file .eexist) else none)

def chooseNetworkTrace : Step World Errno := fun world =>
  if world.capture.systemOnly then (world, none)
  else
    let (name, err) := temporaryPath world.files world.capture.output networkSuffix
    ({ world with capture := { world.capture with networkTrace := name } }, err)

def systemTemporaryPaths : Step World Errno := fun world =>
  match build with
  | .host =>
      match temporaryPath world.files world.capture.output systemSuffix with
      | (name, some err) =>
          ({ world with capture := { world.capture with systemTrace := name } }, some err)
      | (name, none) =>
          let (config, err) := temporaryPath world.files world.capture.output configSuffix
          ({ world with
              capture := { world.capture with systemTrace := name, config := config } }, err)
  | .android traceDir configDir =>
      match system.nonce with
      | .error err => (world, some (.file err))
      | .ok nonce =>
          match printed (androidTrace traceDir system.pid nonce) with
          | (name, some err) =>
              ({ world with capture := { world.capture with systemTrace := name } }, some err)
          | (name, none) =>
              let (config, err) := printed (androidConfig configDir system.pid nonce)
              ({ world with
                  capture := { world.capture with systemTrace := name, config := config } },
                err.orElse fun _ =>
                  if (world.files name).isSome ∨ (world.files config).isSome then
                    some (.file .eexist)
                  else none)

/-- `perfetto_supports_notify`, and what is remembered of the request. -/
def rememberRequest : Step World Errno := fun world =>
  match system.supportsNotify with
  | .error err => (world, some err)
  | .ok _ =>
      ({ world with
          capture :=
            { world.capture with
              ringBuffer := request.ringBuffer, windowS := request.durationS } }, none)

def writeConfig : Step World Errno := fun world =>
  match openExclusive system.openConfig world.files world.capture.config with
  | .error err => (world, some (.file err))
  | .ok files =>
      ({ world with
          files := Function.update files world.capture.config (some (.file system.config))
          capture := { world.capture with configCreated := true } },
        system.configErr.orElse fun _ => system.closeConfig.map .file)

/-- The two descriptors that Perfetto inherits in a capture of the system alone, except on
Android. -/
def openTrace : Step World Errno := fun world =>
  if build = .host ∧ world.capture.systemOnly then
    match openRead system.openConfigRead world.files world.capture.config with
    | .error err => (world, some (.file err))
    | .ok _ =>
        match openExclusive system.openTrace world.files world.capture.systemTrace with
        | .error err => (world, some (.file err))
        | .ok files =>
            ({ world with
                files := files
                system := some []
                capture := { world.capture with systemCreated := true } }, none)
  else (world, none)

/-- Whether Perfetto says when it is ready. -/
def StartSystem.notifyReady : Bool := system.supportsNotify.toOption.getD false

/-- `pipe` and `fork` -/
def spawn : Step World Errno := fun world =>
  let err := (if system.notifyReady then system.pipe else none).orElse fun _ => system.fork
  match err with
  | some err => (world, some (.file err))
  | none =>
      ({ world with
          running := true
          capture := { world.capture with systemCreated := true, started := true } }.perfetto
            system.wrote, none)

/-- Perfetto has ended before the capture has begun. -/
def World.ended (world : World) : World :=
  { world with running := false, capture := { world.capture with started := false } }

/-- `wait_perfetto_ready`, or a short wait where Perfetto does not say. -/
def awaitReady : Step World Errno := fun world =>
  if system.notifyReady then (world, system.ready)
  else
    match system.early with
    | .exited => (world.ended, some .echild)
    | .alive => (world, none)
    | .failed err => (world, some err)

/-- The last look at Perfetto. -/
def stillRunning : Step World Errno := fun world =>
  match system.waitpid with
  | .exited => (world.ended, some .echild)
  | .alive => (world, none)
  | .failed err => (world, some err)

/-- `trace_capture_start` between its checks and `fail:`. -/
def launch : Step World Errno :=
  andThen (chooseOutput system request) <| andThen outputAbsent <| andThen chooseNetworkTrace <|
    andThen (systemTemporaryPaths build system) <| andThen (rememberRequest system request) <|
    andThen (writeConfig system) <| andThen (openTrace build system) <| andThen (spawn system) <|
    andThen (awaitReady system) (stillRunning system)

def traceCaptureStart : Step World Errno := fun world =>
  let world := { world with capture := { Capture.zero with systemOnly := request.systemOnly } }
  if request.durationS = 0 ∨ (request.profile = none ∧ request.perfettoConfig = none) then
    (world, some (.file .einval))
  else if request.durationS > 2 ^ 32 - 1 - 30000 / 1000 then (world, some .eoverflow)
  else if request.perfettoConfig = none ∧ request.profile ≠ some "full" ∧
      request.profile ≠ some "sched" then
    (world, some (.file .einval))
  else onError (launch build system request) (traceCaptureAbort system.abort) world

end Start

/-! ## Finishing -/

/-- `file_nonempty`. A directory has a size. -/
def fileNonempty (fault : Option FileErrno) (files : Files) (path : Path) : Option Errno :=
  match fault with
  | some err => some (.file err)
  | none =>
      match files path with
      | none => some (.file .enoent)
      | some (.file []) => some .enodata
      | some _ => none

def copyFile (fault : Option FileErrno) (reads writes : List (Call FileErrno)) (files : Files)
    (path : Path) : List UInt8 × Option Errno :=
  match openRead fault files path with
  | .error err => ([], some (.file err))
  | .ok .directory => ([], some (.file .eisdir))
  | .ok (.file content) =>
      let (written, err) := copy .eio (64 * 1024) (content.length + 1) content reads writes
      (written, err.map .file)

/-- What `merge_traces` takes from the trace of Perfetto. -/
def systemPart (system : MergeSystem) (boottimeCutoffNs monotonicCutoffNs : Nat) (capture : Capture)
    (files : Files) : List UInt8 × Option Errno :=
  if capture.ringBuffer then
    match openRead system.openTrace files capture.systemTrace with
    | .error err => ([], some (.file err))
    | .ok input =>
        let (written, err) := trimEntry system.stream boottimeCutoffNs monotonicCutoffNs input
        (written, err.map .file)
  else copyFile system.openTrace system.traceReads system.traceWrites files capture.systemTrace

/-- `merge_traces` with its file open: what is in the file when it is closed, and the error until
then. -/
def combine (system : MergeSystem) (boottimeCutoffNs monotonicCutoffNs : Nat) (capture : Capture)
    (files : Files) (temporary : Path) : List UInt8 × Option Errno :=
  let (body, err) := systemPart system boottimeCutoffNs monotonicCutoffNs capture files
  let err := err.orElse fun _ =>
    fileNonempty system.statOutput (Function.update files temporary (some (.file body))) temporary
  let (tail, err) :=
    if err.isNone ∧ capture.systemOnly = false then
      copyFile system.openNetwork system.networkReads system.networkWrites files
        capture.networkTrace
    else ([], err)
  let err := err.orElse fun _ => system.fsync.map .file
  (body ++ tail, err.orElse fun _ => system.close.map .file)

/-- The end of `merge_traces`: the combined file gets the name of the output. -/
def publish (fault : Option FileErrno) (files : Files) (temporary output : Path) :
    Files × Option Errno :=
  if (files output).isSome then (files, some (.file .eexist))
  else
    let (files, err) := rename fault files temporary output
    (files, err.map .file)

def mergeTraces (system : MergeSystem) (boottimeCutoffNs monotonicCutoffNs : Nat)
    (capture : Capture)
    (files : Files) : Files × Option Errno :=
  match temporaryPath files capture.output combinedSuffix with
  | (_, some err) => (files, some err)
  | (temporary, none) =>
      match openExclusive system.openOutput files temporary with
      | .error err => (files, some (.file err))
      | .ok files =>
          let (content, err) :=
            combine system boottimeCutoffNs monotonicCutoffNs capture files temporary
          let files := Function.update files temporary (some (.file content))
          match err with
          | some err => (remove system.removeRefused files temporary, some err)
          | none =>
              match publish system.rename files temporary capture.output with
              | (files, some err) => (remove system.removeRefused files temporary, some err)
              | (files, none) => (files, none)

/-- How Perfetto has ended, for `trace_capture_finish`. -/
def reap (system : FinishSystem) (world : World) : World × Except Errno Status :=
  if world.capture.childReaped then (world, .ok world.capture.childStatus)
  else
    let world := world.perfetto system.wrote
    match if world.capture.stopRequested then .error .etimedout else system.child with
    | .ok status => ({ world with running := false }, .ok status)
    | .error .etimedout => stopPerfetto system.stop world
    | .error err => (world, .error err)

/-- The end of the window that a ring buffer keeps, on both clocks. -/
def cutoffs (clocks : Clocks) (capture : Capture) : Except FileErrno (Nat × Nat) :=
  if capture.ringBuffer then
    let window := capture.windowS * 1000000000
    match if capture.stopBoottimeNs = 0 ∨ capture.stopMonotonicNs = 0 then clocks
      else .ok (capture.stopBoottimeNs, capture.stopMonotonicNs) with
    | .error err => .error err
    | .ok (boottime, monotonic) => .ok (boottime - window, monotonic - window)
  else .ok (0, 0)

/-- `trace_capture_finish` from the end of Perfetto to `out:`. -/
def deliver (system : FinishSystem) (exit : Except Errno Status) : Step World Errno := fun world =>
  match exit with
  | .error err => (world, some err)
  | .ok status =>
      if status ≠ .exited 0 then (world, some .echild)
      else
        match cutoffs system.clocks world.capture with
        | .error err => (world, some (.file err))
        | .ok (boottimeCutoffNs, monotonicCutoffNs) =>
            let capture := world.capture
            let err := fileNonempty system.statSystem world.files capture.systemTrace
            let err := err.orElse fun _ =>
              if capture.systemOnly then none
              else fileNonempty system.statNetwork world.files capture.networkTrace
            match err with
            | some err => (world, some err)
            | none =>
                let (files, err) :=
                  mergeTraces system.merge boottimeCutoffNs monotonicCutoffNs capture world.files
                ({ world with files := files }, err)

def traceCaptureFinish (system : FinishSystem) : Step World Errno := fun world =>
  if world.capture.started = false then (world, some (.file .einval))
  else
    let (world, exit) := reap system world
    always (deliver system exit) (cleanupTemporary system.removal)
      { world with capture := { world.capture with started := false } }

/-- How the loop of `trace_capture_wait_system` ends. -/
inductive SystemWait where
  | failed (err : FileErrno)
  | exited (status : Status)
  /-- Someone has asked for the end, or the time is over. -/
  | stopped

def traceCaptureWaitSystem (wait : SystemWait) (clocks : Clocks) (abort : AbortSystem)
    (system : FinishSystem) : Step World Errno := fun world =>
  if world.capture.started = false ∨ world.capture.systemOnly = false then
    (world, some (.file .einval))
  else
    match wait with
    | .failed err => (traceCaptureAbort abort world, some (.file err))
    | .exited status => traceCaptureFinish system (world.reaped status)
    | .stopped => traceCaptureFinish system (traceCaptureStop clocks world)

end Anettrace.TraceCapture
