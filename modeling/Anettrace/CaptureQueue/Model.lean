import Anettrace.Library.Numbers
import Anettrace.Library.Ring
import Anettrace.Library.Run

/-!
# The capture queue

Model of `src/capture_queue.c`. One producer pushes perf samples and loss counts into a byte ring,
and one worker takes them out and exports them. Everything either thread does while it holds the
lock is one step, and so is an export, which the worker does without the lock. A schedule is a list
of actions in any order; an action that cannot run in a state leaves it as it is.
-/

namespace Anettrace.CaptureQueue

open Library

def maxSampleBytes : Nat := 65536

/-- `struct queue_record`. -/
structure QueueRecord where
  size : UInt32
  cpu : Int32
  lost : UInt64
  deriving DecidableEq, Repr

/-- `sizeof(struct queue_record)`. -/
def recordSize : Nat := 16

def QueueRecord.bytes (record : QueueRecord) : List UInt8 :=
  littleEndian 4 record.size.toNat ++ littleEndian 4 record.cpu.toUInt32.toNat ++
    littleEndian 8 record.lost.toNat

def QueueRecord.ofBytes (bytes : List UInt8) : QueueRecord where
  size := UInt32.ofNat (ofLittleEndian (bytes.take 4))
  cpu := (UInt32.ofNat (ofLittleEndian ((bytes.drop 4).take 4))).toInt32
  lost := UInt64.ofNat (ofLittleEndian (bytes.drop 8))

/-- A call of the exporter. -/
inductive Export where
  /-- `perfetto_export_event`. -/
  | event (cpu : Int32) (data : List UInt8)
  /-- `perfetto_export_lost`. -/
  | lost (cpu : Int32) (count : UInt64)
  /-- `perfetto_export_queue_lost`. -/
  | queueLost (count : UInt64)
  /-- `perfetto_export_tick`. -/
  | tick
  deriving DecidableEq, Repr

/-- Where the worker stands. -/
inductive Worker where
  /-- About to take the lock, or waiting for `available`. -/
  | ready
  /-- It holds a copy of a record and its sample. -/
  | exporting (record : QueueRecord) (sample : List UInt8)
  /-- It found the ring empty, and `stopping` as it is here. -/
  | ticking (stopping : Bool)
  /-- It left the loop. -/
  | reporting
  | done
  deriving DecidableEq, Repr

/-- Where the producer stands: pushing, or in `capture_queue_stop`, or past it. -/
inductive Producer where
  | running | joining | stopped
  deriving DecidableEq, Repr

/-- The static `queue`, with the two threads. -/
structure State where
  ring : Library.Ring UInt8
  dropped : UInt64
  kernelLost : UInt64
  stopping : Bool
  tick : Bool
  worker : Worker
  producer : Producer

def captureQueueStart (memory : List UInt8) : Option State :=
  if memory.length < recordSize + 1 then none
  else some ⟨⟨memory, 0, 0, 0⟩, 0, 0, false, false, .ready, .running⟩

/-- A sample as a perf callback hands it over: as many bytes as its `u32` size says. -/
structure Sample where
  bytes : List UInt8
  fits : bytes.length < 2 ^ 32
  deriving DecidableEq

def Sample.size (sample : Sample) : UInt32 :=
  UInt32.ofNat sample.bytes.length

/-- What the producer hands over. -/
inductive Push where
  | event (cpu : Int32) (sample : Sample)
  | lost (cpu : Int32) (count : UInt64)
  deriving DecidableEq

def Push.record : Push → QueueRecord
  | .event cpu sample => ⟨sample.size, cpu, 0⟩
  | .lost cpu count => ⟨0, cpu, count⟩

def Push.data : Push → List UInt8
  | .event _ sample => sample.bytes
  | .lost _ _ => []

/-- What the schedule does to a push or to the exporter. -/
inductive Effect where
  | accepted (push : Push)
  | rejected (push : Push)
  | exported (call : Export)
  deriving DecidableEq

/-- The condition of `capture_queue_push` for refusing a record. -/
def refuses (ring : Library.Ring UInt8) (record : QueueRecord) : Bool :=
  record.size.toNat > maxSampleBytes || recordSize + record.size.toNat > ring.capacity - ring.used

def captureQueuePush (state : State) (push : Push) : State × List Effect :=
  let record := push.record
  if refuses state.ring record then
    if record.lost ≠ 0 then
      ({ state with kernelLost := state.kernelLost + record.lost }, [.rejected push])
    else ({ state with dropped := state.dropped + 1 }, [.rejected push])
  else
    let ring := state.ring.write record.bytes
    let ring := if record.size ≠ 0 then ring.write push.data else ring
    ({ state with ring := ring }, [.accepted push])

/-- One round of the worker under the lock: wait, notice that the ring is empty, or take a record
out. -/
def dequeue (state : State) : State :=
  if state.ring.used = 0 ∧ !state.stopping ∧ !state.tick then state
  else if state.ring.used = 0 then
    { state with tick := false, worker := .ticking state.stopping }
  else
    let (header, ring) := state.ring.read recordSize
    let record := QueueRecord.ofBytes header
    let (sample, ring) :=
      if record.size ≠ 0 then ring.read record.size.toNat else ([], ring)
    { state with ring := ring, worker := .exporting record sample }

def exportRecord (record : QueueRecord) (sample : List UInt8) : Export :=
  if record.lost ≠ 0 then .lost record.cpu record.lost else .event record.cpu sample

/-- The reports after the loop. -/
def report (state : State) : List Export :=
  (if state.kernelLost ≠ 0 then [.lost (-1) state.kernelLost] else []) ++
    if state.dropped ≠ 0 then [.queueLost state.dropped] else []

/-- A step of `capture_export_worker`. -/
def work (state : State) : State × List Effect :=
  match state.worker with
  | .ready => (dequeue state, [])
  | .exporting record sample =>
      ({ state with worker := .ready }, [.exported (exportRecord record sample)])
  | .ticking stopping =>
      ({ state with worker := if stopping then .reporting else .ready }, [.exported .tick])
  | .reporting => ({ state with worker := .done }, (report state).map .exported)
  | .done => (state, [])

/-- What a schedule consists of: the calls of the producer, its return from `pthread_join`, and the
steps of the worker. -/
inductive Action where
  | event (cpu : Int32) (sample : Sample)
  | lost (cpu : Int32) (count : UInt64)
  | tick
  | stop
  | join
  | work
  deriving DecidableEq

/-- The push of an action; `capture_queue_lost` ignores a zero count. -/
def Action.push : Action → Option Push
  | .event cpu sample => some (.event cpu sample)
  | .lost cpu count => if count ≠ 0 then some (.lost cpu count) else none
  | _ => none

/-- One step of a schedule. The producer acts while it runs, and its join returns when the worker is
done. -/
def step (state : State) (action : Action) : State × List Effect :=
  match action with
  | .work => work state
  | .join =>
      if state.producer = .joining ∧ state.worker = .done then
        ({ state with producer := .stopped }, [])
      else (state, [])
  | .stop =>
      if state.producer = .running then
        ({ state with stopping := true, producer := .joining }, [])
      else (state, [])
  | .tick =>
      if state.producer = .running then ({ state with tick := true }, []) else (state, [])
  | .event .. | .lost .. =>
      match action.push with
      | some push =>
          if state.producer = .running then captureQueuePush state push else (state, [])
      | none => (state, [])

end Anettrace.CaptureQueue
