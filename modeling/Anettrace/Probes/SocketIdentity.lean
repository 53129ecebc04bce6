import Anettrace.Probes.SocketOwner

/-!
# One generation for each socket

Two sockets at one address are told apart by their generations as long as every socket starts with
one of its own: it is created by a traced `sk_alloc`, or nothing that was reported is left of the
sockets before it. `sockets_apart` says so for every run; the generation of a socket that is created
elsewhere is that of the freed socket at its address, which `reused_address_reported_twice` shows.
-/

namespace Anettrace.Probes

open Library

/-- What an event says of a socket: its address, how many sockets were created there up to this one,
and the generation reported. -/
structure SocketReport where
  sk : UInt64
  epoch : Nat
  generation : UInt32
  deriving DecidableEq, Repr, Inhabited

/-- The maps, the sockets of the kernel, and what was reported so far. -/
structure SocketWorld where
  maps : SocketMaps
  epoch : UInt64 → Nat
  live : UInt64 → Bool
  reports : List SocketReport

def SocketWorld.init (live : UInt64 → Bool) : SocketWorld :=
  ⟨.init, fun _ => 0, live, []⟩

/-- A step of the kernel: the probes of a call of `sk_alloc`, a socket that is created without it or
whose creation no probe sees, the end of a socket, a probe on a socket or a packet, and the maps
dropping an entry. -/
inductive SocketStep where
  | skAllocEnter (current : Task) (startTs : UInt64)
  | skAllocReturn (current : Task) (sk : UInt64)
  | created (sk : UInt64)
  | freed (sk : UInt64)
  | event (probe : SocketProbe)
  | bound (sk : UInt64)
  | connecting (sk : UInt64) (tid tgid uid : UInt32)
  | readable (probe : SocketProbe)
  | evictOwner (sk : UInt64)
  | evictGeneration (sk : UInt64)
  | evictFlow (key : PerfettoFlowKey)
  | evictStart (thread : UInt64)

def SocketWorld.create (world : SocketWorld) (sk : UInt64) : SocketWorld :=
  if sk = 0 then world
  else
    { world with
      epoch := Function.update world.epoch sk (world.epoch sk + 1)
      live := Function.update world.live sk true }

/-- The world after a probe that changed the maps and reported instances. -/
def SocketWorld.observe (world : SocketWorld) (found : SocketMaps × List Instance) : SocketWorld :=
  { world with
    maps := found.1
    reports := found.2.map (fun seen => ⟨seen.sk, world.epoch seen.sk, seen.generation⟩) ++
      world.reports }

def SocketStep.apply (args : BpfArgs) (world : SocketWorld) : SocketStep → SocketWorld
  | .skAllocEnter current startTs =>
      { world with maps := Probes.skAllocEnter args current startTs world.maps }
  | .skAllocReturn current sk =>
      (world.create sk).observe (Probes.skAllocReturn args current sk world.maps)
  | .created sk => world.create sk
  | .freed sk => { world with live := Function.update world.live sk false }
  | .event probe => world.observe (handleEntry args probe world.maps)
  | .bound sk => world.observe (nameSocket sk world.maps)
  | .connecting sk tid tgid uid => world.observe (nameConnecting sk tid tgid uid world.maps)
  | .readable probe => world.observe (sockDefReadable args probe world.maps)
  | .evictOwner sk =>
      { world with maps := { world.maps with owners := world.maps.owners.remove sk } }
  | .evictGeneration sk =>
      { world with maps := { world.maps with generations := world.maps.generations.remove sk } }
  | .evictFlow key =>
      { world with maps := { world.maps with flows := world.maps.flows.remove key } }
  | .evictStart thread =>
      { world with maps := { world.maps with createStart := world.maps.createStart.remove thread } }

def socketWorldAfter (args : BpfArgs) (live : UInt64 → Bool) (steps : List SocketStep) :
    SocketWorld :=
  Run.run (SocketStep.apply args) (.init live) steps

def SocketStep.Possible (world : SocketWorld) : SocketStep → Prop
  | .skAllocReturn _ sk | .created sk => world.live sk = false
  | .event probe | .readable probe => probe.sk ≠ 0 → world.live probe.sk = true
  | .bound sk | .connecting sk _ _ _ => sk ≠ 0 → world.live sk = true
  | .skAllocEnter _ _ | .freed _ | .evictOwner _ | .evictGeneration _ | .evictFlow _
  | .evictStart _ => True

def KernelRun (args : BpfArgs) (live : UInt64 → Bool) (steps : List SocketStep) : Prop :=
  ∀ before step later, steps = before ++ step :: later →
    step.Possible (socketWorldAfter args live before)

/-- Two reports of one address name one generation if and only if they are of one socket. -/
def InstancesApart (reports : List SocketReport) : Prop :=
  ∀ first ∈ reports, ∀ second ∈ reports, first.sk = second.sk →
    (first.epoch = second.epoch ↔ first.generation = second.generation)

/-- Nothing that was reported is left in the maps of the sockets at an address. -/
def SocketWorld.Forgotten (world : SocketWorld) (sk : UInt64) : Prop :=
  (∀ owner, world.maps.owners sk = some owner →
    world.maps.generations sk = some owner.socketGeneration) ∧
  ∀ report ∈ world.reports, report.sk = sk →
    world.maps.generations sk ≠ some report.generation

/-- The counter has a generation left. -/
def SocketMaps.HasGeneration (maps : SocketMaps) : Prop :=
  maps.counter ≠ 0xffffffff

/-- A probe on a socket that has no generation yet finds one. -/
def SocketMaps.CanName (maps : SocketMaps) (sk : UInt64) : Prop :=
  maps.generations sk = none → maps.HasGeneration

/-- The owner of a flow stands in for the owner of a DNS packet's socket. -/
structure SocketProbe.Borrows (args : BpfArgs) (probe : SocketProbe) (maps : SocketMaps)
    (flow : PerfettoFlowOwner) : Prop where
  socket : probe.sk ≠ 0
  packet : ∃ packet, probe.packet = some packet ∧ packet.supported = true ∧ packet.dns = true ∧
    perfettoLookupFlow packet maps = some flow
  unsettled : ∀ owner,
    (perfettoResolveSocketOwner probe.sk probe.skUid probe.trusts probe.current maps).2 =
      some owner →
      owner.tid = 0 ∧ owner.uid = flow.owner.uid
  unquarantined : probe.quarantined args = false
  admitted : probe.dropped args (some flow.owner) = false

def SocketStep.Distinct (args : BpfArgs) (world : SocketWorld) : SocketStep → Prop
  | .skAllocReturn current sk =>
      if skAllocTraced args current world.maps then world.maps.HasGeneration
      else world.Forgotten sk
  | .created sk => world.Forgotten sk
  | .event probe => world.maps.CanName probe.sk ∧
      ∀ flow, probe.Borrows args world.maps flow → flow.owner.socketKey = probe.sk
  | .readable probe => world.maps.CanName probe.sk
  | .bound sk | .connecting sk _ _ _ => world.maps.CanName sk
  | .evictGeneration sk =>
      world.live sk = true → world.maps.owners sk = none ∧
        ∀ report ∈ world.reports, report.sk = sk → report.epoch ≠ world.epoch sk
  | .skAllocEnter _ _ | .freed _ | .evictOwner _ | .evictFlow _ | .evictStart _ => True

/-- The condition on a run. -/
def SocketsDistinct (args : BpfArgs) (live : UInt64 → Bool) (steps : List SocketStep) : Prop :=
  ∀ before step later, steps = before ++ step :: later →
    step.Distinct args (socketWorldAfter args live before)

/-! ## The generation of each socket -/

def SocketWorld.withMaps (world : SocketWorld) (maps : SocketMaps) : SocketWorld :=
  { world with maps := maps }

/-- `given` is the generation that the socket at each address goes by, if it has one yet: the maps
and the reports of the socket name it, and the reports of earlier sockets name others. -/
structure SocketWorld.Identified (world : SocketWorld) (given : UInt64 → Option UInt32) : Prop where
  stored : ∀ sk generation, world.maps.generations sk = some generation → given sk = some generation
  owned : ∀ sk owner, world.maps.owners sk = some owner →
    owner.socketKey = sk ∧ given sk = some owner.socketGeneration
  kept : ∀ sk, world.live sk = true → given sk = world.maps.generations sk
  issued : ∀ sk generation, given sk = some generation → generation ≤ world.maps.counter
  seen : ∀ report ∈ world.reports, report.generation ≤ world.maps.counter ∧
    report.epoch ≤ world.epoch report.sk ∧
    (report.epoch = world.epoch report.sk ↔ given report.sk = some report.generation)
  apart : InstancesApart world.reports

theorem SocketWorld.Identified.init (live : UInt64 → Bool) :
    (SocketWorld.init live).Identified fun _ => none where
  stored := fun _ _ h => by cases h
  owned := fun _ _ h => by cases h
  kept := fun _ _ => rfl
  issued := fun _ _ h => by cases h
  seen := fun _ h => by cases h
  apart := fun _ h => by cases h

/-- What a probe on a socket does to the maps: no socket loses its generation, and no other socket
gets another owner. -/
structure SocketChange (world : SocketWorld) (sk : UInt64) (maps : SocketMaps)
    (given later : UInt64 → Option UInt32) : Prop where
  identified : (world.withMaps maps).Identified later
  keeps : ∀ other generation, given other = some generation → later other = some generation
  canName : maps.CanName sk
  owners : ∀ other, other ≠ sk → maps.owners other = world.maps.owners other

section Change

variable {world : SocketWorld} {given later last : UInt64 → Option UInt32} {sk : UInt64}
  {maps : SocketMaps}

theorem SocketChange.refl (h : world.Identified given) (hname : world.maps.CanName sk) :
    SocketChange world sk world.maps given given :=
  ⟨h, fun _ _ hgiven => hgiven, hname, fun _ _ => rfl⟩

/-- Flows, and the calls of `sk_alloc` under way, are no part of the accounts. -/
theorem SocketWorld.Identified.congr (h : world.Identified given)
    (howners : maps.owners = world.maps.owners)
    (hgenerations : maps.generations = world.maps.generations)
    (hcounter : maps.counter = world.maps.counter) : (world.withMaps maps).Identified given where
  stored := hgenerations ▸ h.stored
  owned := howners ▸ h.owned
  kept := hgenerations ▸ h.kept
  issued := hcounter ▸ h.issued
  seen := hcounter ▸ h.seen
  apart := h.apart

theorem nextGeneration_lt {counter : UInt32} (h : counter ≠ 0xffffffff) :
    counter < nextGeneration counter := by
  have hnat : counter.toNat ≠ 0xffffffff := fun heq => h (UInt32.toNat_inj.mp heq)
  have hsize := counter.toNat_lt
  have hsum : (counter + 1).toNat = counter.toNat + 1 := by
    rw [UInt32.toNat_add]
    exact Nat.mod_eq_of_lt (by change counter.toNat + 1 < _; omega)
  have hroom : counter + 1 ≠ 0 := by
    intro hzero
    rw [hzero] at hsum
    exact absurd hsum (by simp)
  unfold nextGeneration
  rw [if_neg hroom, UInt32.lt_iff_toNat_lt, hsum]
  exact Nat.lt_succ_self _

/-- A socket without a generation gets one that no report names. -/
theorem SocketWorld.Identified.begin (h : world.Identified given) (hnone : given sk = none)
    {generation : UInt32} (hnew : world.maps.counter < generation)
    (howners : maps.owners = world.maps.owners)
    (hgenerations : maps.generations = world.maps.generations.put sk generation)
    (hcounter : maps.counter = generation) :
    (world.withMaps maps).Identified (Function.update given sk (some generation)) where
  stored := by
    intro other found hfound
    change maps.generations other = some found at hfound
    rw [hgenerations] at hfound
    rcases Keyed.put_cases hfound with ⟨rfl, rfl⟩ | ⟨hother, hold⟩
    · exact Function.update_self ..
    · rw [Function.update_of_ne hother]
      exact h.stored other found hold
  owned := by
    intro other owner howner
    change maps.owners other = some owner at howner
    rw [howners] at howner
    obtain ⟨hkey, hgiven⟩ := h.owned other owner howner
    have hother : other ≠ sk := by
      rintro rfl
      rw [hnone] at hgiven
      cases hgiven
    exact ⟨hkey, (Function.update_of_ne hother ..).trans hgiven⟩
  kept := by
    intro other hlive
    change _ = maps.generations other
    rw [hgenerations]
    by_cases hother : other = sk
    case pos =>
      subst hother
      rw [Function.update_self, Keyed.put_same]
    case neg =>
      rw [Function.update_of_ne hother, Keyed.put_other _ hother]
      exact h.kept other hlive
  issued := by
    intro other found hfound
    change found ≤ maps.counter
    rw [hcounter]
    by_cases hother : other = sk
    case pos =>
      subst hother
      rw [Function.update_self] at hfound
      exact (Option.some.inj hfound) ▸ UInt32.le_refl _
    case neg =>
      rw [Function.update_of_ne hother] at hfound
      exact UInt32.le_trans (h.issued other found hfound) (UInt32.le_of_lt hnew)
  seen := by
    intro report hreport
    obtain ⟨hissued, hepoch, hgiven⟩ := h.seen report hreport
    refine ⟨?_, hepoch, ?_⟩
    · change report.generation ≤ maps.counter
      rw [hcounter]
      exact UInt32.le_trans hissued (UInt32.le_of_lt hnew)
    change report.epoch = world.epoch report.sk ↔ _
    by_cases hother : report.sk = sk
    case neg => rw [Function.update_of_ne hother, hgiven]
    case pos =>
      -- no report is of this socket, and the generation is above those reported
      rw [hgiven, hother, hnone, Function.update_self]
      refine ⟨fun hcontra => (by cases hcontra), fun heq => ?_⟩
      exact absurd (Option.some.inj heq ▸ hissued) (UInt32.not_le.mpr hnew)
  apart := h.apart

theorem SocketWorld.Identified.store (h : world.Identified given) {owner : PerfettoOwner}
    (hkey : owner.socketKey = sk) (hgiven : given sk = some owner.socketGeneration) :
    (world.withMaps { world.maps with owners := world.maps.owners.put sk owner }).Identified given
      where
  stored := h.stored
  owned := by
    intro other found hfound
    rcases Keyed.put_cases hfound with ⟨rfl, rfl⟩ | ⟨-, hold⟩
    · exact ⟨hkey, hgiven⟩
    · exact h.owned other found hold
  kept := h.kept
  issued := h.issued
  seen := h.seen
  apart := h.apart

theorem SocketChange.store (h : SocketChange world sk maps given later) {owner : PerfettoOwner}
    (hgiven : sk ≠ 0 → owner.socketKey = sk ∧ later sk = some owner.socketGeneration) :
    SocketChange world sk (perfettoStoreSocketOwner sk owner maps) given later := by
  unfold perfettoStoreSocketOwner
  split
  case isTrue => exact h
  case isFalse hsk =>
    refine ⟨?_, h.keeps, h.canName, fun other hother => ?_⟩
    · exact h.identified.store (hgiven hsk).1 (hgiven hsk).2
    · exact (Keyed.put_other _ hother _).trans (h.owners other hother)

theorem SocketWorld.Identified.generation (h : world.Identified given)
    (hlive : sk ≠ 0 → world.live sk = true) (hname : world.maps.CanName sk) :
    ∃ later, SocketChange world sk (perfettoSocketGeneration sk false world.maps).1 given later ∧
      (sk ≠ 0 → later sk = some (perfettoSocketGeneration sk false world.maps).2) := by
  unfold perfettoSocketGeneration
  split
  case isTrue hsk => exact ⟨given, .refl h hname, fun hne => absurd hsk hne⟩
  case isFalse hsk =>
    dsimp only
    split
    case h_2 stored hstored =>
      exact ⟨given, .refl h hname, fun _ => h.stored sk stored hstored⟩
    case h_1 hnone =>
      have hgiven : given sk = none := (h.kept sk (hlive hsk)).trans hnone
      refine ⟨_, ⟨h.begin hgiven (nextGeneration_lt (hname hnone)) rfl rfl rfl, ?_, ?_, ?_⟩,
        fun _ => Function.update_self ..⟩
      · intro other generation hother
        rw [Function.update_of_ne]
        · exact hother
        · rintro rfl
          rw [hgiven] at hother
          cases hother
      · intro hcontra
        rw [Keyed.put_same] at hcontra
        cases hcontra
      · exact fun _ _ => rfl

def PerfettoOwner.Names (owner : PerfettoOwner) (given : UInt64 → Option UInt32) : Prop :=
  owner.socketKey ≠ 0 → given owner.socketKey = some owner.socketGeneration

theorem SocketChange.named (h : SocketChange world sk maps given later) {owner : PerfettoOwner}
    (hkey : owner.socketKey = sk) (hgiven : sk ≠ 0 → later sk = some owner.socketGeneration)
    {found : SocketMaps × Option PerfettoOwner}
    (hfound : found = (perfettoStoreSocketOwner sk owner maps, some owner) ∨
      found = (maps, some owner)) :
    ∃ later, SocketChange world sk found.1 given later ∧
      ∀ other, found.2 = some other → other.socketKey = sk ∧ other.Names later := by
  have hnames : owner.Names later := fun hne => by
    rw [hkey] at hne ⊢
    exact hgiven hne
  rcases hfound with rfl | rfl
  · refine ⟨later, h.store fun hne => ⟨hkey, hgiven hne⟩, fun other hother => ?_⟩
    obtain rfl := Option.some.inj hother
    exact ⟨hkey, hnames⟩
  · refine ⟨later, h, fun other hother => ?_⟩
    obtain rfl := Option.some.inj hother
    exact ⟨hkey, hnames⟩

/-- `perfetto_resolve_socket_owner` on a live socket finds an owner of that socket. -/
theorem SocketWorld.Identified.resolve (h : world.Identified given)
    (hlive : sk ≠ 0 → world.live sk = true) (hname : world.maps.CanName sk) (skUid : UInt32)
    (trust : Bool) (current : Task) :
    let found := perfettoResolveSocketOwner sk skUid trust current world.maps
    ∃ later, SocketChange world sk found.1 given later ∧
      ∀ owner, found.2 = some owner → owner.socketKey = sk ∧ owner.Names later := by
  unfold perfettoResolveSocketOwner
  dsimp only
  split
  case isTrue => exact ⟨given, .refl h hname, fun _ hcontra => by cases hcontra⟩
  case isFalse hsk =>
    -- the generation that a new owner takes
    obtain ⟨later, hchange, hgiven⟩ := h.generation hlive hname
    split
    case h_1 =>
      split
      case isTrue => exact hchange.named rfl hgiven (.inl rfl)
      case isFalse => exact hchange.named rfl hgiven (.inr rfl)
    case h_2 cached hcached =>
      obtain ⟨hkey, hcachedGiven⟩ := h.owned sk cached hcached
      split
      case isTrue =>
        split
        case isTrue => exact hchange.named rfl hgiven (.inl rfl)
        case isFalse => exact hchange.named rfl hgiven (.inr rfl)
      case isFalse =>
        have hsame := SocketChange.refl h hname
        split
        case isTrue =>
          have hkey : ({ cached with tid := current.tid, tgid := current.tgid }).socketKey = sk :=
            hkey
          exact hsame.named hkey (fun _ => hcachedGiven) (.inl rfl)
        case isFalse => exact hsame.named hkey (fun _ => hcachedGiven) (.inr rfl)

theorem SocketWorld.Identified.lookupFlow (h : world.Identified given) {packet : PacketView}
    {flow : PerfettoFlowOwner} (hflow : perfettoLookupFlow packet world.maps = some flow) :
    flow.owner.socketKey ≠ 0 ∧ flow.owner.Names given := by
  unfold perfettoLookupFlow at hflow
  split at hflow
  case isTrue => cases hflow
  case isFalse =>
    split at hflow
    case h_1 => cases hflow
    case h_2 found hfound =>
      split at hflow
      case isTrue => cases hflow
      case isFalse hkey =>
        split at hflow
        case isFalse => cases hflow
        case isTrue howner =>
          obtain rfl := Option.some.inj hflow
          refine ⟨hkey, fun _ => ?_⟩
          cases hsome : world.maps.owners found.owner.socketKey with
          | none =>
              rw [hsome] at howner
              cases howner
          | some owner =>
              rw [hsome] at howner
              rw [(h.owned _ owner hsome).2, of_decide_eq_true howner]

theorem SocketChange.resolved (h : SocketChange world sk maps given later) {probe : SocketProbe}
    (hsk : probe.sk = sk) {owner : PerfettoOwner} (hnames : owner.Names later)
    (hdns : ∀ packet, probe.packet = some packet → packet.dns = true → sk ≠ 0 →
      owner.socketKey = sk) (direction : PacketDirection) :
    let found := perfettoResolvedOwner probe owner direction maps
    SocketChange world sk found.1 given later ∧ found.2.Names later := by
  subst hsk
  unfold perfettoResolvedOwner
  cases hpacket : probe.packet with
  | none => exact ⟨h, hnames⟩
  | some packet =>
      dsimp only
      have hflow : ∀ {maps' : SocketMaps}, SocketChange world probe.sk maps' given later →
          ∀ owner, SocketChange world probe.sk
            (perfettoStoreFlow packet owner direction maps') given
            later := by
        intro maps' hchange owner
        unfold perfettoStoreFlow
        split
        case isTrue => exact hchange
        case isFalse =>
          exact ⟨hchange.identified.congr rfl rfl rfl, hchange.keeps, hchange.canName,
            hchange.owners⟩
      cases hport : packet.dns with
      | false => exact ⟨hflow h _, hnames⟩
      | true =>
          refine ⟨hflow (h.store fun hne => ?_) _, hnames⟩
          have hkey := hdns packet hpacket hport hne
          exact ⟨hkey, by rw [← hkey] at hne ⊢; exact hnames hne⟩

theorem perfettoSocketGeneration_flows (created : Bool) :
    (perfettoSocketGeneration sk created maps).1.flows = maps.flows := by
  unfold perfettoSocketGeneration
  split
  case isTrue => rfl
  case isFalse =>
    dsimp only
    split
    case h_1 => rfl
    case h_2 => split <;> rfl

theorem perfettoStoreSocketOwner_flows (owner : PerfettoOwner) :
    (perfettoStoreSocketOwner sk owner maps).flows = maps.flows := by
  unfold perfettoStoreSocketOwner
  split <;> rfl

theorem perfettoResolveSocketOwner_flows (skUid : UInt32) (trust : Bool) (current : Task) :
    (perfettoResolveSocketOwner sk skUid trust current maps).1.flows = maps.flows := by
  unfold perfettoResolveSocketOwner
  have hgeneration := @perfettoSocketGeneration_flows sk maps false
  have hstore := @perfettoStoreSocketOwner_flows sk (perfettoSocketGeneration sk false maps).1
  dsimp only
  split
  case isTrue => rfl
  case isFalse =>
    split
    case h_1 =>
      split
      case isTrue => exact (hstore _).trans hgeneration
      case isFalse => exact hgeneration
    case h_2 =>
      split
      case isTrue =>
        split
        case isTrue => exact (hstore _).trans hgeneration
        case isFalse => exact hgeneration
      case isFalse =>
        split
        case isTrue => exact perfettoStoreSocketOwner_flows _
        case isFalse => rfl

theorem perfettoResolveSocketOwner_isSome (hsk : sk ≠ 0) (skUid : UInt32) (trust : Bool)
    (current : Task) (maps : SocketMaps) :
    ∃ owner, (perfettoResolveSocketOwner sk skUid trust current maps).2 = some owner := by
  unfold perfettoResolveSocketOwner
  rw [if_neg hsk]
  dsimp only
  split
  case h_1 => split <;> exact ⟨_, rfl⟩
  case h_2 =>
    split
    case isTrue => split <;> exact ⟨_, rfl⟩
    case isFalse => split <;> exact ⟨_, rfl⟩

/-- A flow takes the place of an owner, but leaves none without one. -/
theorem perfettoFlowOwnerOf_isSome (probe : SocketProbe) (owner : PerfettoOwner)
    (maps : SocketMaps) :
    ∃ found, (perfettoFlowOwnerOf probe (some owner) maps).1 = some found := by
  unfold perfettoFlowOwnerOf
  split
  case h_1 => exact ⟨owner, rfl⟩
  case h_2 =>
    split
    case h_1 => exact ⟨owner, rfl⟩
    case h_2 =>
      dsimp only
      split
      case isTrue => exact ⟨_, rfl⟩
      case isFalse => exact ⟨owner, rfl⟩

/-- A flow of another socket is found where it was found before a probe on this one. -/
theorem perfettoLookupFlow_before {before : SocketMaps} (hflows : maps.flows = before.flows)
    (howners : ∀ other, other ≠ sk → maps.owners other = before.owners other) {packet : PacketView}
    {flow : PerfettoFlowOwner} (hflow : perfettoLookupFlow packet maps = some flow)
    (hother : flow.owner.socketKey ≠ sk) : perfettoLookupFlow packet before = some flow := by
  unfold perfettoLookupFlow at hflow ⊢
  split at hflow
  case isTrue => cases hflow
  case isFalse htransport =>
    rw [if_neg htransport, ← hflows]
    split at hflow
    case h_1 => cases hflow
    case h_2 found hfound =>
      split at hflow
      case isTrue => cases hflow
      case isFalse hkey =>
        split at hflow
        case isFalse => cases hflow
        case isTrue howner =>
          obtain rfl := Option.some.inj hflow
          rw [howners _ hother] at howner
          rw [if_neg hkey, if_pos howner]

/-- `perfetto_handle_owner` names the instances of the sockets it finds. -/
theorem SocketWorld.Identified.handleOwner (h : world.Identified given) {args : BpfArgs}
    {probe : SocketProbe} (hlive : probe.sk ≠ 0 → world.live probe.sk = true)
    (hname : world.maps.CanName probe.sk)
    (hborrows : ∀ flow, probe.Borrows args world.maps flow → flow.owner.socketKey = probe.sk) :
    let found := perfettoHandleOwner args probe world.maps
    ∃ later, SocketChange world probe.sk found.1 given later ∧
      ∀ owner, found.2 = some (some owner) → owner.Names later := by
  obtain ⟨later, hchange, howner⟩ := h.resolve hlive hname probe.skUid probe.trusts probe.current
  have hunsettled : ∀ flow : PerfettoFlowOwner,
      ((perfettoResolveSocketOwner probe.sk probe.skUid probe.trusts probe.current
        world.maps).2.all fun owner => owner.tid = 0 && owner.uid = flow.owner.uid) = true →
      ∀ owner, (perfettoResolveSocketOwner probe.sk probe.skUid probe.trusts probe.current
        world.maps).2 = some owner → owner.tid = 0 ∧ owner.uid = flow.owner.uid := by
    intro flow hall owner hsome
    rw [hsome] at hall
    simpa using hall
  have hflows := @perfettoResolveSocketOwner_flows probe.sk world.maps probe.skUid probe.trusts
    probe.current
  unfold perfettoHandleOwner
  dsimp only
  generalize hresolved : perfettoResolveSocketOwner probe.sk probe.skUid probe.trusts probe.current
    world.maps = resolved at *
  obtain ⟨maps, owner⟩ := resolved
  dsimp only at hchange howner hunsettled hflows ⊢
  refine ⟨later, ?_⟩
  split
  case isTrue => exact ⟨hchange, fun _ hcontra => by cases hcontra⟩
  case isFalse hsupported =>
  split
  case isTrue =>
    cases owner with
    | none => exact ⟨hchange, fun _ hcontra => by cases hcontra⟩
    | some owner =>
        obtain ⟨hkey, hnames⟩ := howner owner rfl
        dsimp only
        split
        case isTrue => exact ⟨hchange, fun _ hcontra => by cases hcontra⟩
        case isFalse =>
          obtain ⟨hchange', hnames'⟩ := hchange.resolved rfl hnames (fun _ _ _ _ => hkey)
            probe.direction
          refine ⟨hchange', fun found hfound => ?_⟩
          obtain rfl := Option.some.inj (Option.some.inj hfound)
          exact hnames'
  case isFalse hopen =>
  split
  case isTrue => exact ⟨hchange, fun _ hcontra => by cases hcontra⟩
  case isFalse =>
  split
  case isTrue => exact ⟨hchange, fun _ hcontra => by cases hcontra⟩
  case isFalse hadmitted =>
  -- what the owner is after the flow was looked up
  have hfound : ∀ found, (perfettoFlowOwnerOf probe owner maps).1 = some found →
      found.Names later ∧ ∀ packet, probe.packet = some packet → packet.dns = true → probe.sk ≠ 0 →
        found.socketKey = probe.sk := by
    intro found hsome
    have hown : owner = some found → found.Names later ∧ ∀ packet, probe.packet = some packet →
        packet.dns = true → probe.sk ≠ 0 → found.socketKey = probe.sk :=
      fun heq => ⟨(howner found heq).2, fun _ _ _ _ => (howner found heq).1⟩
    rw [hsome] at hadmitted
    unfold perfettoFlowOwnerOf at hsome
    split at hsome
    case h_1 => exact hown hsome
    case h_2 packet hpacket =>
      split at hsome
      case h_1 => exact hown hsome
      case h_2 flow hflow =>
        dsimp only at hsome
        split at hsome
        case isFalse => exact hown hsome
        case isTrue hall =>
          obtain rfl := Option.some.inj hsome
          refine ⟨(hchange.identified.lookupFlow hflow).2, fun other hother hdns hsk => ?_⟩
          obtain rfl : packet = other := Option.some.inj (hpacket.symm.trans hother)
          by_contra hforeign
          refine hforeign (hborrows flow ⟨hsk, ⟨packet, hpacket, ?_, hdns, ?_⟩, ?_, ?_, ?_⟩)
          · simpa [hpacket] using hsupported
          · exact perfettoLookupFlow_before hflows hchange.owners hflow hforeign
          · rw [hresolved]
            exact hunsettled flow hall
          · exact Bool.eq_false_iff.mpr hopen
          · exact Bool.eq_false_iff.mpr hadmitted
  split
  case h_1 found hsome =>
    obtain ⟨hnames, hdns⟩ := hfound found hsome
    obtain ⟨hchange', hnames'⟩ := hchange.resolved rfl hnames hdns
      (perfettoFlowOwnerOf probe owner maps).2
    refine ⟨hchange', fun reported hreported => ?_⟩
    obtain rfl := Option.some.inj (Option.some.inj hreported)
    exact hnames'
  case h_2 hnone =>
    split
    case isFalse => exact ⟨hchange, fun _ hcontra => by cases hcontra⟩
    case isTrue =>
      -- an owner without a socket is stored under none
      have hsk : probe.sk = 0 := by
        by_contra hsk
        obtain ⟨found, hsome⟩ := perfettoResolveSocketOwner_isSome hsk probe.skUid probe.trusts
          probe.current world.maps
        rw [hresolved] at hsome
        obtain rfl : owner = some found := hsome
        obtain ⟨next, hnext⟩ := perfettoFlowOwnerOf_isSome probe found maps
        rw [hnext] at hnone
        cases hnone
      obtain ⟨hchange', hnames'⟩ := hchange.resolved rfl
        (fun hkey => absurd rfl hkey : PerfettoOwner.Names
          ⟨0, probe.current.tid, probe.current.tgid, probe.current.uid, 0, false⟩ later)
        (fun _ _ _ hne => absurd hsk hne) (perfettoFlowOwnerOf probe owner maps).2
      refine ⟨hchange', fun reported hreported => ?_⟩
      obtain rfl := Option.some.inj (Option.some.inj hreported)
      exact hnames'

def SocketWorld.Accounts (world : SocketWorld) (found : SocketMaps × List Instance) : Prop :=
  ∃ later, (world.withMaps found.1).Identified later ∧
    ∀ seen ∈ found.2, later seen.sk = some seen.generation

theorem SocketChange.accounts (h : SocketChange world sk maps given later) {found : List Instance}
    (hfound : ∀ seen ∈ found, later seen.sk = some seen.generation) :
    world.Accounts (maps, found) :=
  ⟨later, h.identified, hfound⟩

theorem SocketWorld.Identified.removeOwner (h : world.Identified given) (sk : UInt64) :
    (world.withMaps { world.maps with owners := world.maps.owners.remove sk }).Identified given
      where
  stored := h.stored
  owned := fun other owner howner => h.owned other owner (Keyed.remove_cases howner).2
  kept := h.kept
  issued := h.issued
  seen := h.seen
  apart := h.apart

theorem PerfettoOwner.Names.instance {owner : PerfettoOwner} (h : owner.Names given) :
    ∀ seen ∈ owner.instance, given seen.sk = some seen.generation := by
  intro seen hseen
  unfold PerfettoOwner.instance at hseen
  split at hseen
  case isTrue => cases hseen
  case isFalse hkey =>
    obtain rfl := List.mem_singleton.mp hseen
    exact h hkey

section

variable (h : world.Identified given)
include h

theorem SocketWorld.Identified.handleEntry {args : BpfArgs} {probe : SocketProbe}
    (hlive : probe.sk ≠ 0 → world.live probe.sk = true) (hname : world.maps.CanName probe.sk)
    (hborrows : ∀ flow, probe.Borrows args world.maps flow → flow.owner.socketKey = probe.sk) :
    world.Accounts (Probes.handleEntry args probe world.maps) := by
  obtain ⟨later, hchange, hnames⟩ := h.handleOwner hlive hname hborrows
  unfold Probes.handleEntry
  generalize perfettoHandleOwner args probe world.maps = handled at *
  obtain ⟨maps, _ | owner⟩ := handled
  · exact hchange.accounts fun _ hcontra => by cases hcontra
  have howned : ∀ seen ∈ (owner.map PerfettoOwner.instance).getD [],
      later seen.sk = some seen.generation := by
    cases owner with
    | none => exact fun _ hcontra => by cases hcontra
    | some owner => exact (hnames owner rfl).instance
  -- the owner's instance, and then the socket's own
  have hdone : ∀ {maps' last}, (world.withMaps maps').Identified last → ∀ key : List Instance,
      (∀ seen ∈ (owner.map PerfettoOwner.instance).getD [], last seen.sk = some seen.generation) →
      (∀ seen ∈ key, last seen.sk = some seen.generation) →
      world.Accounts ((if probe.destroys then
        { maps' with owners := maps'.owners.remove probe.sk } else maps'),
        (owner.map PerfettoOwner.instance).getD [] ++ key) := by
    intro maps' last hidentified key howned hkey
    refine ⟨last, ?_, fun seen hseen => (List.mem_append.mp hseen).elim (howned seen) (hkey seen)⟩
    split
    case isTrue => exact hidentified.removeOwner probe.sk
    case isFalse => exact hidentified
  dsimp only
  by_cases hkeyed : probe.packet.isNone = true ∧ probe.sk ≠ 0
  case neg =>
    rw [if_neg hkeyed]
    exact hdone hchange.identified [] howned fun _ hcontra => by cases hcontra
  case pos =>
    rw [if_pos hkeyed]
    obtain ⟨last, hlast, hgiven⟩ := hchange.identified.generation hlive hchange.canName
    refine hdone hlast.identified _ (fun seen hseen => hlast.keeps _ _ (howned seen hseen)) ?_
    intro seen hseen
    obtain rfl := List.mem_singleton.mp hseen
    exact hgiven hkeyed.2

theorem SocketWorld.Identified.nameSocket (hlive : sk ≠ 0 → world.live sk = true)
    (hname : world.maps.CanName sk) :
    world.Accounts (Probes.nameSocket sk world.maps) := by
  obtain ⟨later, hchange, hgiven⟩ := h.generation hlive hname
  unfold Probes.nameSocket
  split
  case isTrue => exact (SocketChange.refl h hname).accounts fun _ hcontra => by cases hcontra
  case isFalse hsk =>
    refine hchange.accounts fun seen hseen => ?_
    obtain rfl := List.mem_singleton.mp hseen
    exact hgiven hsk

theorem SocketWorld.Identified.nameConnecting (hlive : sk ≠ 0 → world.live sk = true)
    (hname : world.maps.CanName sk) (tid tgid uid : UInt32) :
    world.Accounts (Probes.nameConnecting sk tid tgid uid world.maps) := by
  obtain ⟨later, hchange, hgiven⟩ := h.generation hlive hname
  unfold Probes.nameConnecting
  split
  case isTrue => exact (SocketChange.refl h hname).accounts fun _ hcontra => by cases hcontra
  case isFalse hsk =>
    refine (hchange.store fun hne => ⟨rfl, hgiven hne⟩).accounts fun seen hseen => ?_
    obtain rfl := List.mem_singleton.mp hseen
    exact hgiven hsk

theorem SocketWorld.Identified.readable {args : BpfArgs} {probe : SocketProbe}
    (hlive : probe.sk ≠ 0 → world.live probe.sk = true) (hname : world.maps.CanName probe.sk) :
    world.Accounts (sockDefReadable args probe world.maps) := by
  obtain ⟨later, hchange, -⟩ := h.resolve hlive hname probe.skUid false probe.current
  unfold sockDefReadable
  split
  case isTrue => exact (SocketChange.refl h hname).accounts fun _ hcontra => by cases hcontra
  case isFalse hsupported =>
    dsimp only
    split
    case isTrue => exact hchange.accounts fun _ hcontra => by cases hcontra
    case isFalse =>
      obtain ⟨last, hlast, hgiven⟩ := hchange.identified.generation hlive hchange.canName
      refine ⟨last, hlast.identified, fun seen hseen => ?_⟩
      obtain rfl := List.mem_singleton.mp hseen
      exact hgiven fun hsk => hsupported (.inr (.inr (.inl hsk)))

theorem SocketWorld.Identified.report {seen : Instance}
    (hseen : given seen.sk = some seen.generation) :
    ({ world with
      reports := ⟨seen.sk, world.epoch seen.sk, seen.generation⟩ :: world.reports } :
        SocketWorld).Identified given where
  stored := h.stored
  owned := h.owned
  kept := h.kept
  issued := h.issued
  seen := by
    intro report hreport
    rcases List.mem_cons.mp hreport with rfl | hold
    · exact ⟨h.issued _ _ hseen, Nat.le_refl _, iff_of_true rfl hseen⟩
    · exact h.seen report hold
  apart := by
    have hnew : ∀ report ∈ world.reports, report.sk = seen.sk →
        (report.epoch = world.epoch seen.sk ↔ report.generation = seen.generation) := by
      intro report hreport hsk
      obtain ⟨-, -, hgiven⟩ := h.seen report hreport
      rw [hsk, hseen] at hgiven
      exact hgiven.trans ⟨fun heq => (Option.some.inj heq).symm, fun heq => by rw [heq]⟩
    intro first hfirst second hsecond hsk
    rcases List.mem_cons.mp hfirst, List.mem_cons.mp hsecond with ⟨rfl | hfirst, rfl | hsecond⟩
    · exact iff_of_true rfl rfl
    · exact (eq_comm.trans (hnew second hsecond hsk.symm)).trans eq_comm
    · exact hnew first hfirst hsk
    · exact h.apart first hfirst second hsecond hsk

end

theorem SocketWorld.Accounts.observe {found : SocketMaps × List Instance}
    (h : world.Accounts found) :
    ∃ later, (world.observe found).Identified later := by
  obtain ⟨maps, instances⟩ := found
  obtain ⟨later, hidentified, hseen⟩ := h
  refine ⟨later, ?_⟩
  dsimp only at hidentified hseen
  unfold SocketWorld.observe
  dsimp only
  induction instances with
  | nil => exact hidentified
  | cons seen rest ih =>
      have hrest := ih fun other hother => hseen other (List.mem_cons_of_mem _ hother)
      exact hrest.report (hseen seen (List.mem_cons_self ..))

/-! ## Sockets that are created -/

theorem SocketWorld.create_withMaps (maps : SocketMaps) :
    (world.withMaps maps).create sk = (world.create sk).withMaps maps := by
  unfold SocketWorld.create
  split <;> rfl

theorem SocketWorld.create_live (hsk : sk ≠ 0) : (world.create sk).live sk = true := by
  unfold SocketWorld.create
  rw [if_neg hsk]
  exact Function.update_self ..

/-- A new socket at an address of which nothing reported is left. -/
theorem SocketWorld.Identified.create (h : world.Identified given)
    (hforgotten : world.Forgotten sk) :
    ∃ later, (world.create sk).Identified later := by
  unfold SocketWorld.create
  split
  case isTrue => exact ⟨given, h⟩
  case isFalse =>
    obtain ⟨howner, hreports⟩ := hforgotten
    refine ⟨Function.update given sk (world.maps.generations sk), ?_, ?_, ?_, ?_, ?_, h.apart⟩
    · intro other generation hstored
      by_cases hother : other = sk
      case pos =>
        subst hother
        rw [Function.update_self]
        exact hstored
      case neg =>
        rw [Function.update_of_ne hother]
        exact h.stored other generation hstored
    · intro other owner howned
      obtain ⟨hkey, hgiven⟩ := h.owned other owner howned
      refine ⟨hkey, ?_⟩
      by_cases hother : other = sk
      case pos =>
        subst hother
        rw [Function.update_self]
        exact howner owner howned
      case neg =>
        rw [Function.update_of_ne hother]
        exact hgiven
    · intro other hlive
      change Function.update world.live sk true other = true at hlive
      by_cases hother : other = sk
      case pos =>
        subst hother
        exact Function.update_self ..
      case neg =>
        rw [Function.update_of_ne hother] at hlive ⊢
        exact h.kept other hlive
    · intro other generation hgiven
      by_cases hother : other = sk
      case pos =>
        subst hother
        rw [Function.update_self] at hgiven
        exact h.issued other generation (h.stored other generation hgiven)
      case neg =>
        rw [Function.update_of_ne hother] at hgiven
        exact h.issued other generation hgiven
    · intro report hreport
      obtain ⟨hissued, hepoch, hgiven⟩ := h.seen report hreport
      change _ ∧ report.epoch ≤ Function.update world.epoch sk (world.epoch sk + 1) report.sk ∧
        (report.epoch = Function.update world.epoch sk (world.epoch sk + 1) report.sk ↔ _)
      by_cases hother : report.sk = sk
      case neg =>
        rw [Function.update_of_ne hother, Function.update_of_ne hother]
        exact ⟨hissued, hepoch, hgiven⟩
      case pos =>
        rw [hother, Function.update_self, Function.update_self, ← hother]
        exact ⟨hissued, by omega,
          iff_of_false (by omega) fun heq => hreports report hreport hother (hother ▸ heq)⟩

theorem SocketWorld.Identified.removeDead (h : world.Identified given)
    (hdead : world.live sk = false) :
    (world.withMaps { world.maps with
      owners := world.maps.owners.remove sk
      generations := world.maps.generations.remove sk }).Identified given where
  stored := fun other generation hstored => h.stored other generation (Keyed.remove_cases hstored).2
  owned := fun other owner howner => h.owned other owner (Keyed.remove_cases howner).2
  kept := by
    intro other hlive
    have hother : other ≠ sk := by
      rintro rfl
      exact absurd (hdead.symm.trans hlive) (by simp)
    exact (h.kept other hlive).trans (Keyed.remove_other _ hother).symm
  issued := h.issued
  seen := h.seen
  apart := h.apart

theorem perfettoSocketGeneration_created (hsk : sk ≠ 0) (maps : SocketMaps) :
    perfettoSocketGeneration sk true maps =
      ({ maps with
          generations := maps.generations.put sk (nextGeneration maps.counter)
          counter := nextGeneration maps.counter }, nextGeneration maps.counter) := by
  unfold perfettoSocketGeneration
  rw [if_neg hsk]
  dsimp only
  split
  case h_1 => rfl
  case h_2 => exact if_pos rfl

/-- The kretprobe on `sk_alloc` names the new socket by a new generation. -/
theorem SocketWorld.Identified.skAllocReturn (h : world.Identified given) {args : BpfArgs}
    {current : Task} (hdead : world.live sk = false)
    (htraced : skAllocTraced args current world.maps = true)
    (hgeneration : world.maps.HasGeneration) :
    (world.create sk).Accounts (Probes.skAllocReturn args current sk world.maps) := by
  unfold Probes.skAllocReturn
  rw [if_neg (by rw [htraced]; simp)]
  by_cases hsk : sk = 0
  case pos =>
    rw [if_pos hsk, show world.create sk = world from if_pos hsk]
    exact ⟨given, h.congr rfl rfl rfl, fun _ hcontra => by cases hcontra⟩
  case neg =>
    rw [if_neg hsk, perfettoSocketGeneration_created hsk]
    dsimp only
    -- as if the entries of the socket before were gone
    have hclear := h.removeDead hdead
    obtain ⟨later, hlater⟩ := @SocketWorld.Identified.create _ _ sk hclear
      ⟨fun owner howner => absurd rfl (Keyed.remove_cases howner).1,
        fun _ _ _ hcontra => absurd rfl (Keyed.remove_cases hcontra).1⟩
    rw [SocketWorld.create_withMaps] at hlater
    have hnone : later sk = none :=
      (hlater.kept sk (SocketWorld.create_live hsk)).trans (Keyed.remove_same _ _)
    have hbegun : ((world.create sk).withMaps { world.maps with
        owners := world.maps.owners.remove sk
        generations := (world.maps.generations.remove sk).put sk (nextGeneration world.maps.counter)
        counter := nextGeneration world.maps.counter }).Identified
          (Function.update later sk (some (nextGeneration world.maps.counter))) :=
      hlater.begin hnone (nextGeneration_lt hgeneration) rfl rfl rfl
    have hgiven : Function.update later sk (some (nextGeneration world.maps.counter)) sk =
      some (nextGeneration world.maps.counter) := Function.update_self ..
    let owner : PerfettoOwner :=
      ⟨sk, current.tid, current.tgid, current.uid, nextGeneration world.maps.counter, false⟩
    have hstored := hbegun.store (show owner.socketKey = sk from rfl) hgiven
    unfold perfettoStoreSocketOwner
    rw [if_neg hsk]
    refine ⟨_, hstored.congr ?_ ?_ rfl, fun seen hseen => ?_⟩
    · exact (Keyed.put_remove _ _ _).symm
    · exact (Keyed.put_remove _ _ _).symm
    · obtain rfl := List.mem_singleton.mp hseen
      exact hgiven

/-- Dropping the generation of a dead socket, or of one that nothing names. -/
theorem SocketWorld.Identified.evictGeneration (h : world.Identified given)
    (hunnamed : world.live sk = true → world.maps.owners sk = none ∧
      ∀ report ∈ world.reports, report.sk = sk → report.epoch ≠ world.epoch sk) :
    ∃ later, (world.withMaps { world.maps with
      generations := world.maps.generations.remove sk }).Identified later := by
  cases hlive : world.live sk with
  | false =>
      refine ⟨given, fun other generation hstored => ?_, h.owned, fun other hother => ?_, h.issued,
        h.seen, h.apart⟩
      · exact h.stored other generation (Keyed.remove_cases hstored).2
      · have hne : other ≠ sk := by
          rintro rfl
          exact absurd (hlive.symm.trans hother) (by simp)
        exact (h.kept other hother).trans (Keyed.remove_other _ hne).symm
  | true =>
      obtain ⟨howner, hreports⟩ := hunnamed hlive
      refine ⟨Function.update given sk none, fun other generation hstored => ?_,
        fun other owner howned => ?_, fun other _ => ?_, fun other generation hgiven => ?_,
        fun report hreport => ?_, h.apart⟩
      · obtain ⟨hother, hold⟩ := Keyed.remove_cases hstored
        rw [Function.update_of_ne hother]
        exact h.stored other generation hold
      · have hother : other ≠ sk := by
          rintro rfl
          exact absurd (howner.symm.trans howned) (by simp)
        rw [Function.update_of_ne hother]
        exact h.owned other owner howned
      · change _ = world.maps.generations.remove sk other
        by_cases hother : other = sk
        case pos =>
          subst hother
          rw [Function.update_self, Keyed.remove_same]
        case neg =>
          rw [Function.update_of_ne hother, Keyed.remove_other _ hother]
          exact h.kept other ‹_›
      · have hother : other ≠ sk := by
          rintro rfl
          rw [Function.update_self] at hgiven
          cases hgiven
        rw [Function.update_of_ne hother] at hgiven
        exact h.issued other generation hgiven
      · obtain ⟨hissued, hepoch, hgiven⟩ := h.seen report hreport
        refine ⟨hissued, hepoch, ?_⟩
        by_cases hother : report.sk = sk
        case neg =>
          rw [Function.update_of_ne hother]
          exact hgiven
        case pos =>
          rw [hother, Function.update_self]
          exact iff_of_false (hreports report hreport hother) fun hcontra => by cases hcontra

theorem skAllocEnter_identified (h : world.Identified given) (args : BpfArgs) (current : Task)
    (startTs : UInt64) :
    (world.withMaps (skAllocEnter args current startTs world.maps)).Identified given := by
  unfold skAllocEnter
  split
  case isTrue => exact h
  case isFalse => exact h.congr rfl rfl rfl

/-- A step that meets the condition leaves every socket with one generation of its own. -/
theorem SocketStep.identified {args : BpfArgs} (h : world.Identified given) {step : SocketStep}
    (hpossible : step.Possible world) (hdistinct : step.Distinct args world) :
    ∃ later, (step.apply args world).Identified later := by
  cases step with
  | skAllocEnter current startTs => exact ⟨given, skAllocEnter_identified h args current startTs⟩
  | skAllocReturn current sk =>
      change (if _ then _ else _) at hdistinct
      split at hdistinct
      case isTrue htraced => exact (h.skAllocReturn hpossible htraced hdistinct).observe
      case isFalse huntraced =>
        obtain ⟨later, hlater⟩ := h.create hdistinct
        refine ⟨later, ?_⟩
        change ((world.create sk).observe (Probes.skAllocReturn args current sk
          world.maps)).Identified
          later
        unfold Probes.skAllocReturn
        rw [if_pos (by simpa using huntraced), show world.maps = (world.create sk).maps by
          unfold SocketWorld.create
          split <;> rfl]
        exact hlater
  | created sk => exact h.create hdistinct
  | freed sk =>
      refine ⟨given, h.stored, h.owned, fun other hlive => ?_, h.issued, h.seen, h.apart⟩
      change Function.update world.live sk false other = true at hlive
      by_cases hother : other = sk
      case pos =>
        subst hother
        rw [Function.update_self] at hlive
        cases hlive
      case neg =>
        rw [Function.update_of_ne hother] at hlive
        exact h.kept other hlive
  | event probe => exact (h.handleEntry hpossible hdistinct.1 hdistinct.2).observe
  | bound sk => exact (h.nameSocket hpossible hdistinct).observe
  | connecting sk tid tgid uid => exact (h.nameConnecting hpossible hdistinct tid tgid uid).observe
  | readable probe => exact (h.readable hpossible hdistinct).observe
  | evictOwner sk => exact ⟨given, h.removeOwner sk⟩
  | evictGeneration sk => exact h.evictGeneration hdistinct
  | evictFlow key =>
      refine ⟨given, ?_⟩
      change (world.withMaps _).Identified given
      exact h.congr rfl rfl rfl
  | evictStart thread =>
      refine ⟨given, ?_⟩
      change (world.withMaps _).Identified given
      exact h.congr rfl rfl rfl

end Change

/-! ## Runs -/

theorem KernelRun.before {args : BpfArgs} {live : UInt64 → Bool} {steps later : List SocketStep}
    (h : KernelRun args live (steps ++ later)) : KernelRun args live steps :=
  fun before step rest heq => h before step (rest ++ later) (by rw [heq]; simp)

theorem SocketsDistinct.before {args : BpfArgs} {live : UInt64 → Bool}
    {steps later : List SocketStep}
    (h : SocketsDistinct args live (steps ++ later)) : SocketsDistinct args live steps :=
  fun before step rest heq => h before step (rest ++ later) (by rw [heq]; simp)

end Anettrace.Probes
