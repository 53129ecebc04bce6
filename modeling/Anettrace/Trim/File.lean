import Anettrace.Library.Transfer
import Anettrace.Trim.Model

/-!
# Trimming a file in place

`perfetto_trim_file` writes the trimmed trace next to the file and renames it over the file. The
system decides which calls fail, and how much the calls of `read(2)` and `write(2)` move. What a
failed call leaves behind is removed on the way out, so that a trace that cannot be trimmed stays as
it is; the way out also removes a file of the temporary name that was there before.
-/

namespace Anettrace.Trim

open Library Library.Transfer

/-- What `perfetto_trim_file` returns, negated. -/
inductive FileErrno where
  | einval
  | eio
  | enametoolong
  | enoent
  | eexist
  | eisdir
  | enomem
  /-- The trace is malformed. -/
  | trim (err : Errno)
  /-- Any other error of a system call. -/
  | system (code : UInt32)
  deriving DecidableEq, Repr

/-! ## The stream over file descriptors -/

/-- What the allocator does while a packet is trimmed. -/
inductive Memory where
  | enough
  /-- The buffer of the packet is not allocated. -/
  | noPacket
  /-- A buffer of `trim_packet` is not. -/
  | noTrimmed
  deriving DecidableEq

/-- What the system does while a stream is trimmed. -/
structure Script where
  reads : List (Call FileErrno)
  writes : List (Call FileErrno)
  memory : List Memory

/-- The script of a system in which nothing fails. -/
def Script.calm : Script := ⟨[], [], []⟩

def readVarintCalls (shift result : Nat) : List UInt8 → List (Call FileErrno) →
    Except FileErrno (Option (Nat × List UInt8) × List (Call FileErrno))
  | [], calls =>
      match await calls with
      | .error err => .error err
      | .ok calls => if shift = 0 then .ok (none, calls) else .error (.trim .ebadmsg)
  | byte :: input, calls =>
      if shift ≥ 64 then .error (.trim .ebadmsg)
      else
        match await calls with
        | .error err => .error err
        | .ok calls =>
            if shift = 63 ∧ byte > 1 then .error (.trim .ebadmsg)
            else
              let result := result ||| ((byte.toNat &&& 0x7f) <<< shift)
              if byte &&& 0x80 = 0 then .ok (some (result, input), calls)
              else readVarintCalls (shift + 7) result input calls

def writePacket (trimmed : List UInt8) (calls : List (Call FileErrno)) :
    List UInt8 × Option FileErrno × List (Call FileErrno) :=
  let (key, err, calls) := writeFull .eio (writeVarintFd (1 <<< 3 ||| 2)) calls
  if err.isSome then (key, err, calls)
  else
    let (size, err, calls) := writeFull .eio (writeVarintFd trimmed.length) calls
    if err.isSome then (key ++ size, err, calls)
    else
      let (data, err, calls) := writeFull .eio trimmed calls
      (key ++ size ++ data, err, calls)

/-- The loop of `trim_stream_packets`: what it writes, and its error. -/
def trimStreamCalls (boottimeCutoffNs monotonicCutoffNs : Nat) :
    Nat → TrimState → List UInt8 → Script → List UInt8 × Option FileErrno
  | 0, _, _, _ => ([], some (.trim .ebadmsg))
  | rounds + 1, state, input, script =>
      match readVarintCalls 0 0 input script.reads with
      | .error err => ([], some err)
      | .ok (none, _) => ([], none)
      | .ok (some (key, input), reads) =>
          if key ≠ (1 <<< 3 ||| 2) then ([], some (.trim .ebadmsg))
          else
            match readVarintCalls 0 0 input reads with
            | .error err => ([], some err)
            | .ok (none, _) => ([], some (.trim .eoverflow))
            | .ok (some (size, input), reads) =>
                let memory := script.memory.head?.getD .enough
                if memory = .noPacket then ([], some .enomem)
                else
                  match readFull (.trim .ebadmsg) size input reads with
                  | .error err => ([], some err)
                  | .ok (packet, input, reads) =>
                      if memory = .noTrimmed then ([], some .enomem)
                      else
                        match trimPacket boottimeCutoffNs monotonicCutoffNs state packet with
                        | .error err => ([], some (.trim err))
                        | .ok (state, none) =>
                            trimStreamCalls boottimeCutoffNs monotonicCutoffNs rounds state input
                              ⟨reads, script.writes, script.memory.tail⟩
                        | .ok (state, some trimmed) =>
                            let (written, err, writes) := writePacket trimmed script.writes
                            if err.isSome then (written, err)
                            else
                              let next := trimStreamCalls boottimeCutoffNs monotonicCutoffNs rounds
                                state input ⟨reads, writes, script.memory.tail⟩
                              (written ++ next.1, next.2)

/-! ## The file -/

/-- A file name: the bytes of a C string. -/
abbrev Path := List UInt8

/-- What a name stands for. -/
inductive Entry where
  | file (content : List UInt8)
  | directory
  deriving DecidableEq, Repr

/-- The file system, by name. -/
abbrev Files := Path → Option Entry

def pathMax : Nat := 4096

/-- `"%s.trim.tmp"` -/
def temporary (path : Path) : Path := path ++ [0x2e, 0x74, 0x72, 0x69, 0x6d, 0x2e, 0x74, 0x6d, 0x70]

/-- What the system does while a file is trimmed. A call with an error fails with it. -/
structure System where
  snprintfFails : Bool
  openInput : Option FileErrno
  openOutput : Option FileErrno
  stream : Script
  fsync : Option FileErrno
  close : Option FileErrno
  rename : Option FileErrno

/-- The system in which nothing fails. -/
def System.calm : System := ⟨false, none, none, .calm, none, none, none⟩

/-- `open(path, O_RDONLY | O_CLOEXEC)` -/
def openRead (fault : Option FileErrno) (files : Files) (path : Path) : Except FileErrno Entry :=
  match fault with
  | some err => .error err
  | none =>
      match files path with
      | none => .error .enoent
      | some entry => .ok entry

/-- `open(path, O_WRONLY | O_CREAT | O_EXCL | O_CLOEXEC, 0600)` -/
def openExclusive (fault : Option FileErrno) (files : Files) (path : Path) :
    Except FileErrno Files :=
  if (files path).isSome then .error .eexist
  else
    match fault with
    | some err => .error err
    | none => .ok (Function.update files path (some (.file [])))

def rename (fault : Option FileErrno) (files : Files) (old new : Path) :
    Files × Option FileErrno :=
  match fault with
  | some err => (files, some err)
  | none =>
      if files new = some .directory then (files, some .eisdir)
      else (Function.update (Function.update files new (files old)) old none, none)

def unlink (files : Files) (path : Path) : Files :=
  match files path with
  | some (.file _) => Function.update files path none
  | _ => files

/-- `perfetto_trim_stream`, on an open input. A directory can be opened, but not read. -/
def trimEntry (script : Script) (boottimeCutoffNs monotonicCutoffNs : Nat) :
    Entry → List UInt8 × Option FileErrno
  | .file content =>
      trimStreamCalls boottimeCutoffNs monotonicCutoffNs (content.length + 1) [] content script
  | .directory => ([], some .eisdir)

end Anettrace.Trim
