/-!
# Kernel event records

The records the BPF programs hand to user space, after `src/progs/shared.h` and
`src/progs/skb_shared.h`. A record holds the fields that user space interprets; `Sample` carries the
remaining bytes of a perf sample uninterpreted. `detail_event_t` stores a packet or a socket in one
union: `pkt` and `ske` are its two readings, and `ts` is the first member of both.
-/

namespace Anettrace

/-- `FUNC_TYPE_*`: the tag in the first two bytes of a sample. -/
inductive FuncType where
  | func | ret | tiny | tracingRet | connect | syscall | rxHandoff
  deriving DecidableEq, Repr, Inhabited

/-- `PACKET_DIRECTION_*`. -/
inductive Direction where
  | unknown | tx | rx
  deriving DecidableEq, Repr, Inhabited

/-- The addressing part shared by `packet_t` and `sock_t`. `l3` is the 32-byte union of the IPv4
and IPv6 headers, and the ports keep their network byte order. -/
structure Endpoints where
  l3 : List UInt8
  protoL3 : UInt16
  protoL4 : UInt8
  sport : UInt16
  dport : UInt16
  deriving DecidableEq, Repr, Inhabited

/-- `detail_event_t`. -/
structure DetailEvent where
  metaType : FuncType
  func : UInt16
  key : UInt64
  keyGeneration : UInt32
  ts : UInt64
  pkt : Endpoints
  ske : Endpoints
  retval : UInt64
  tid : UInt32
  tgid : UInt32
  uid : UInt32
  task : List UInt8
  netns : UInt32
  ownerTid : UInt32
  ownerTgid : UInt32
  ownerUid : UInt32
  ownerSocketKey : UInt64
  ownerSocketGeneration : UInt32
  direction : Direction
  ownerValid : UInt8
  ownerPending : UInt8
  ownerEvidence : UInt8
  ioStartTs : UInt64
  syscallStartTs : UInt64
  ioTid : UInt32
  ioTgid : UInt32
  ioOffset : UInt32
  ioBytes : UInt32
  ioRole : UInt8
  ioMultiple : UInt8
  deriving DecidableEq, Repr, Inhabited

/-- A perf sample that starts with a `detail_event_t`: its size in bytes, the interpreted fields,
and every other byte, the extension of a longer event type included. -/
structure Sample where
  detail : DetailEvent
  size : UInt32
  rest : List UInt8
  deriving DecidableEq, Repr, Inhabited

end Anettrace
