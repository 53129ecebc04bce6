import Anettrace.Convert.JsonRecords
import Anettrace.Library.Json
import Anettrace.Library.Pointwise

/-!
# What packets are attributed to

A record belongs to a socket when it says so itself, or when all the evidence of the whole file,
whatever the order of its records, leaves one socket. Evidence is told here by quantifiers over the
records; the sets of `index_socket_evidence` hold the same.
-/

namespace Anettrace.Convert

open Library Library.Fallible

variable (python : Python)

def Known (records : List JsonRecord) (property : JsonRecord → RecordIds → Prop) : Prop :=
  ∃ record ∈ records, ∃ ids, readIds python record = .ok ids ∧ property record ids

def Only {α : Type} (property : α → Prop) (value : α) : Prop :=
  property value ∧ ∀ other, property other → other = value

/-- Some record names the socket of a packet that goes a way. -/
def PacketSocket (records : List JsonRecord) (key : PacketKey) (socket : Int) : Prop :=
  Known python records fun record ids => packetKeyOf record ids.packet = some key ∧
    ids.socket = some socket

/-- Some record names the flow of a packet that goes a way. -/
def PacketFlow (records : List JsonRecord) (key : PacketKey) (flow : Int) : Prop :=
  Known python records fun record ids => packetKeyOf record ids.packet = some key ∧
    ids.flow = some flow

def FlowSocket (records : List JsonRecord) (flow socket : Int) : Prop :=
  Known python records fun _ ids => ids.flow = some flow ∧ ids.socket = some socket

def FlowEndpoint (records : List JsonRecord) (flow : Int) (endpoint : String × Int) : Prop :=
  Known python records fun _ ids => ids.flow = some flow ∧ ids.endpoint = some endpoint

def Candidate (records : List JsonRecord) (socket : Int) (candidate : OwnerCandidate) : Prop :=
  Known python records fun record ids => ids.socket = some socket ∧ ownerCandidate record =
    some candidate

/-- The flow of a packet may tell its socket: the local endpoint of the flow is not known, or it is
the one that the packet comes from or goes to. -/
def Admits (records : List JsonRecord) (record : JsonRecord) (flow : Int) : Prop :=
  (∀ endpoint, ¬ FlowEndpoint python records flow endpoint) ∨
    record.way ≠ .unknown ∧ ∃ endpoint, Only (FlowEndpoint python records flow) endpoint ∧
      ∀ own, localEndpoint python record = .ok (some own) → own = endpoint

def FlowEvidence (records : List JsonRecord) (record : JsonRecord) (key : PacketKey)
    (socket : Int) : Prop :=
  ∃ flow, (PacketFlow python records key flow ∨ nonzeroId python record.flowId = .ok (some flow)) ∧
    Admits python records record flow ∧ FlowSocket python records flow socket

/-- The socket of a record without one of its own: the only one that is named with its packet, or if
there is none, the only one of the flows that the packet may belong to. -/
def Inferred (records : List JsonRecord) (record : JsonRecord) (key : PacketKey) (socket : Int) :
    Prop :=
  Only (PacketSocket python records key) socket ∨
    (∀ other, ¬ PacketSocket python records key other) ∧
      Only (FlowEvidence python records record key) socket

def Attributed (records : List JsonRecord) (record : JsonRecord) (socket : Int) : Prop :=
  match firstNonzeroId python record.socketId record.ownerSocketId with
  | .ok (some own) => own = socket
  | .ok none => ∃ packet, nonzeroId python record.packetId = .ok packet ∧
      Inferred python records record (packet, record.way) socket
  | .error _ => False

/-- The process that owns a socket: the only one of those that the best evidence names. -/
def Owned (records : List JsonRecord) (socket tgid : Int) : Prop :=
  Only (fun owner => ∃ candidate, Candidate python records socket candidate ∧
    candidate.tgid = owner ∧
    ∀ other, Candidate python records socket other → other.priority ≤ candidate.priority) tgid

/-! ## The sets -/

section Sets

variable {κ ν : Type} [DecidableEq κ] [DecidableEq ν]

theorem Sets.mem_add {sets : Sets κ ν} {key other : κ} {value member : ν} :
    member ∈ (sets.add key value).members other ↔
      member ∈ sets.members other ∨ key = other ∧ value = member := by
  by_cases h : other = key
  case pos =>
    subst h
    simp [Sets.add, Sets.members, or_comm, eq_comm]
  case neg =>
    have hold : (sets.add key value).members other = sets.members other := by
      unfold Sets.members Sets.add
      rw [Keyed.put_other sets h]
    rw [hold]
    exact ⟨.inl, fun hmem => hmem.resolve_right fun hsame => h hsame.1.symm⟩

theorem Sets.mem_addBoth {sets : Sets κ ν} {key : Option κ} {value : Option ν} {other : κ}
    {member : ν} :
    member ∈ (sets.addBoth key value).members other ↔
      member ∈ sets.members other ∨ key = some other ∧ value = some member := by
  cases key with
  | none => simp [Sets.addBoth]
  | some key =>
      cases value with
      | none => simp [Sets.addBoth]
      | some value => simp [Sets.addBoth, Sets.mem_add]

theorem Sets.nodup_add {sets : Sets κ ν} {key : κ} {value : ν}
    (h : ∀ other, (sets.members other).Nodup)
    (other : κ) : ((sets.add key value).members other).Nodup := by
  unfold Sets.members Sets.add
  by_cases hother : other = key
  case pos =>
    subst hother
    rw [Keyed.put_same, Option.getD_some]
    exact (h other).insert
  case neg =>
    rw [Keyed.put_other sets hother]
    exact h other

theorem Sets.nodup_addBoth {sets : Sets κ ν} {key : Option κ} {value : Option ν}
    (h : ∀ other, (sets.members other).Nodup) (other : κ) :
    ((sets.addBoth key value).members other).Nodup := by
  cases key with
  | none => exact h other
  | some key =>
      cases value with
      | none => exact h other
      | some value => exact Sets.nodup_add h other

omit [DecidableEq ν] in
/-- The only member of a list without repetition. -/
theorem onlyMember_iff {values : List ν} (hnodup : values.Nodup) {value : ν} :
    onlyMember values = some value ↔ Only (· ∈ values) value := by
  unfold onlyMember Only
  match values with
  | [] => simp
  | [single] =>
      constructor
      · intro h
        cases h
        exact ⟨List.mem_singleton_self value, fun other hmem => List.mem_singleton.mp hmem⟩
      · intro h
        rw [List.mem_singleton.mp h.1]
  | first :: second :: rest =>
      constructor
      · intro h
        cases h
      · rintro ⟨-, honly⟩
        have hfirst := honly first List.mem_cons_self
        have hsecond := honly second (List.mem_cons_of_mem first List.mem_cons_self)
        exact absurd (hfirst.trans hsecond.symm)
          (List.nodup_cons.mp hnodup |>.1 <| · ▸ List.mem_cons_self)

theorem mem_foldl_insert {values : List ν} {start : List ν} {member : ν} :
    member ∈ values.foldl (fun set value => set.insert value) start ↔ member ∈ start ∨
      member ∈ values := by
  induction values generalizing start with
  | nil => simp
  | cons value rest ih => simp [ih, or_assoc, or_comm, or_left_comm]

theorem nodup_foldl_insert {values : List ν} {start : List ν} (h : start.Nodup) :
    (values.foldl (fun set value => set.insert value) start).Nodup := by
  induction values generalizing start with
  | nil => exact h
  | cons value rest ih => exact ih h.insert

end Sets

/-! ## What the index holds -/

/-- The evidence is what the records say. -/
structure Collected (records : List JsonRecord) (evidence : SocketEvidence) : Prop where
  packetSocket : ∀ key socket, socket ∈ evidence.packetSockets.members key ↔
    PacketSocket python records key socket
  packetFlow : ∀ key flow, flow ∈ evidence.packetFlows.members key ↔
    PacketFlow python records key flow
  flowSocket : ∀ flow socket, socket ∈ evidence.flowSockets.members flow ↔
    FlowSocket python records flow socket
  flowEndpoint : ∀ flow endpoint,
    endpoint ∈ evidence.flowEndpoints.members flow ↔ FlowEndpoint python records flow endpoint
  candidate : ∀ socket candidate,
    candidate ∈ (evidence.ownerCandidates socket).getD [] ↔
      Candidate python records socket candidate
  packetSocketsNodup : ∀ key, (evidence.packetSockets.members key).Nodup
  flowEndpointsNodup : ∀ flow, (evidence.flowEndpoints.members flow).Nodup

variable {python}

theorem known_concat {records : List JsonRecord} {record : JsonRecord} {ids : RecordIds}
    (h : readIds python record = .ok ids) (property : JsonRecord → RecordIds → Prop) :
    Known python (records ++ [record]) property ↔ Known python records property ∨
      property record ids := by
  constructor
  · rintro ⟨other, hmem, found, hread, hproperty⟩
    obtain hmem | hmem := List.mem_append.mp hmem
    · exact .inl ⟨other, hmem, found, hread, hproperty⟩
    · obtain rfl := List.mem_singleton.mp hmem
      obtain rfl := Except.ok.inj (h.symm.trans hread)
      exact .inr hproperty
  · rintro (⟨other, hmem, hfound⟩ | hproperty)
    · exact ⟨other, List.mem_append_left _ hmem, hfound⟩
    · exact ⟨record, List.mem_append_right _ List.mem_cons_self, ids, h, hproperty⟩

theorem not_known_nil (property : JsonRecord → RecordIds → Prop) : ¬ Known python [] property := by
  rintro ⟨_, hmem, _⟩
  cases hmem

theorem mem_addCandidate {candidates : Keyed Int (List OwnerCandidate)} {socket : Option Int}
    {candidate : Option OwnerCandidate} {other : Int} {member : OwnerCandidate} :
    member ∈ ((addCandidate candidates socket candidate) other).getD [] ↔
      member ∈ (candidates other).getD [] ∨ socket = some other ∧ candidate = some member := by
  cases socket with
  | none => simp [addCandidate]
  | some socket =>
      cases candidate with
      | none => simp [addCandidate]
      | some candidate =>
          by_cases h : other = socket
          case pos =>
            subst h
            simp [addCandidate, eq_comm]
          case neg =>
            have hold : addCandidate candidates (some socket) (some candidate) other =
                candidates other :=
              Keyed.put_other candidates h _
            rw [hold]
            refine ⟨.inl, fun hmem => hmem.resolve_right fun hsame => h ?_⟩
            exact (Option.some.inj hsame.1).symm

theorem Collected.nil : Collected python [] {} := by
  constructor <;> intros <;>
    first
      | exact List.nodup_nil
      | exact ⟨fun h => absurd h List.not_mem_nil, fun h => absurd h (not_known_nil _)⟩

theorem Collected.concat {records : List JsonRecord} {evidence next : SocketEvidence}
    {record : JsonRecord} (h : Collected python records evidence)
    (hindex : indexRecord python evidence record = .ok next) :
    Collected python (records ++ [record]) next := by
  obtain ⟨ids, hids, hnext⟩ := bind_ok.mp hindex
  cases hnext
  constructor
  · intro key socket
    rw [Sets.mem_addBoth, h.packetSocket, PacketSocket, PacketSocket, known_concat hids]
  · intro key flow
    rw [Sets.mem_addBoth, h.packetFlow, PacketFlow, PacketFlow, known_concat hids]
  · intro flow socket
    rw [Sets.mem_addBoth, h.flowSocket, FlowSocket, FlowSocket, known_concat hids]
  · intro flow endpoint
    rw [Sets.mem_addBoth, h.flowEndpoint, FlowEndpoint, FlowEndpoint, known_concat hids]
  · intro socket candidate
    rw [mem_addCandidate, h.candidate, Candidate, Candidate, known_concat hids]
  · exact Sets.nodup_addBoth h.packetSocketsNodup
  · exact Sets.nodup_addBoth h.flowEndpointsNodup

/-- The evidence of a file. -/
theorem indexSocketEvidence_collected {records : List JsonRecord} {evidence : SocketEvidence}
    (h : indexSocketEvidence python records = .ok evidence) :
    Collected python records evidence := by
  induction records using List.reverseRecOn generalizing evidence with
  | nil =>
      cases h
      exact .nil
  | append_singleton records record ih =>
      obtain ⟨before, hbefore, hstep⟩ := foldlM_concat_ok.mp h
      exact (ih hbefore).concat hstep

/-! ## What is told of a packet -/

section

variable {records : List JsonRecord} {evidence : SocketEvidence}

theorem mem_flowsOf (h : Collected python records evidence) {key : PacketKey} {own : Option Int}
    {flow : Int} :
    flow ∈ flowsOf evidence key own ↔ PacketFlow python records key flow ∨ own = some flow := by
  rw [← h.packetFlow]
  cases own with
  | none => simp [flowsOf]
  | some own => simp [flowsOf, or_comm, eq_comm]

/-- The sockets that a flow of a packet stands for. -/
theorem mem_flowSocketsOf {record : JsonRecord} {flow : Int} {sockets : List Int}
    (h : Collected python records evidence)
    (hsockets : flowSocketsOf python evidence record flow = .ok sockets) (socket : Int) :
    socket ∈ sockets ↔ Admits python records record flow ∧
      FlowSocket python records flow socket := by
  have hadmits : ∀ (_ : Admits python records record flow), evidence.flowSockets.members flow =
      sockets →
      (socket ∈ sockets ↔ Admits python records record flow ∧
        FlowSocket python records flow socket) := by
    intro hadmits hsame
    rw [← hsame, h.flowSocket]
    exact (and_iff_right hadmits).symm
  have hrefuses : ¬ Admits python records record flow → [] = sockets →
      (socket ∈ sockets ↔ Admits python records record flow ∧
        FlowSocket python records flow socket) := by
    intro hrefuses hsame
    rw [← hsame]
    exact ⟨fun hmem => absurd hmem List.not_mem_nil, fun hboth => absurd hboth.1 hrefuses⟩
  have hknown (endpoint : String × Int) : FlowEndpoint python records flow endpoint ↔
      endpoint ∈ evidence.flowEndpoints.members flow := (h.flowEndpoint flow endpoint).symm
  have honly (endpoint : String × Int) : Only (FlowEndpoint python records flow) endpoint ↔
      onlyMember (evidence.flowEndpoints.members flow) = some endpoint := by
    rw [onlyMember_iff (h.flowEndpointsNodup flow), Only, Only]
    simp only [hknown]
  unfold flowSocketsOf at hsockets
  dsimp only at hsockets
  generalize evidence.flowEndpoints.members flow = endpoints at hsockets hknown honly
  cases endpoints with
  | nil =>
      rw [if_pos rfl] at hsockets
      refine hadmits (.inl fun endpoint hendpoint => ?_) (Except.ok.inj hsockets)
      exact List.not_mem_nil ((hknown endpoint).mp hendpoint)
  | cons first rest =>
      rw [if_neg (List.cons_ne_nil first rest)] at hsockets
      have hsome : FlowEndpoint python records flow first := (hknown first).mpr List.mem_cons_self
      by_cases hskip : (decide (record.way = .unknown) || decide ((first :: rest).length ≠ 1)) =
        true
      case pos =>
        rw [if_pos hskip] at hsockets
        refine hrefuses ?_ (Except.ok.inj hsockets)
        intro hadmit
        obtain hnone | ⟨hway, endpoint, hendpoint, -⟩ := hadmit
        · exact hnone first hsome
        · have hsingle := (honly endpoint).mp hendpoint
          cases rest with
          | nil => simp [hway] at hskip
          | cons second rest => cases hsingle
      case neg =>
        rw [if_neg hskip] at hsockets
        simp only [ne_eq, decide_not, Bool.or_eq_true, decide_eq_true_eq, Bool.not_eq_true',
          decide_eq_false_iff_not, not_or, not_not, List.length_cons, Nat.add_eq_right,
          List.length_eq_zero_iff] at hskip
        obtain ⟨hway, rfl⟩ := hskip
        have hfirst : Only (FlowEndpoint python records flow) first := (honly first).mpr rfl
        obtain ⟨own, hown, hsockets⟩ := bind_ok.mp hsockets
        cases own with
        | none =>
            refine hadmits (.inr ⟨hway, first, hfirst, fun other hother => ?_⟩)
              (Except.ok.inj hsockets)
            cases hown.symm.trans hother
        | some own =>
            replace hsockets := Except.ok.inj hsockets
            by_cases hsame : own = first
            case pos =>
              rw [hsame, if_pos List.mem_cons_self] at hsockets
              refine hadmits (.inr ⟨hway, first, hfirst, fun other hother => ?_⟩) hsockets
              exact (Option.some.inj (Except.ok.inj (hown.symm.trans hother))).symm.trans hsame
            case neg =>
              rw [if_neg fun hmem => hsame (List.mem_singleton.mp hmem)] at hsockets
              refine hrefuses ?_ hsockets
              intro hadmit
              obtain hnone | ⟨-, endpoint, hendpoint, hlocal⟩ := hadmit
              · exact hnone first hsome
              · exact hsame ((hlocal own hown).trans (hfirst.2 endpoint hendpoint.1))

/-- What is found with the flows of a packet. -/
theorem mem_flowEvidence {record : JsonRecord} {key : PacketKey} {own : Option Int}
    {sockets : List (List Int)} (h : Collected python records evidence)
    (hown : nonzeroId python record.flowId = .ok own) (hsockets :
      (flowsOf evidence key own).mapM (flowSocketsOf python evidence record) = .ok sockets)
    (socket : Int) : socket ∈ sockets.flatten ↔ FlowEvidence python records record key socket := by
  rw [List.mem_flatten]
  constructor
  · rintro ⟨found, hfound, hmem⟩
    obtain ⟨flow, hflow, hof⟩ := Pointwise.exists_left (Pointwise.of_mapM hsockets) hfound
    obtain ⟨hadmits, hsocket⟩ := (mem_flowSocketsOf h hof socket).mp hmem
    refine ⟨flow, ((mem_flowsOf h).mp hflow).imp_right fun hsame => ?_, hadmits, hsocket⟩
    rw [hown, hsame]
  · rintro ⟨flow, hflow, hadmits, hsocket⟩
    have hmem : flow ∈ flowsOf evidence key own := by
      refine (mem_flowsOf h).mpr (hflow.imp_right fun hsame => ?_)
      exact Except.ok.inj (hown.symm.trans hsame)
    obtain ⟨found, hfound, hof⟩ := Pointwise.exists_right (Pointwise.of_mapM hsockets) hmem
    exact ⟨found, hfound, (mem_flowSocketsOf h hof socket).mpr ⟨hadmits, hsocket⟩⟩

end

theorem mem_ownersAt {priority : Nat} {candidates : List OwnerCandidate} {owner : Int} :
    owner ∈ ownersAt priority candidates ↔
      ∃ candidate ∈ candidates, candidate.tgid = owner ∧ candidate.priority = priority := by
  unfold ownersAt
  rw [mem_foldl_insert, List.mem_map]
  constructor
  · intro h
    obtain ⟨candidate, hmem, howner⟩ := h.resolve_left List.not_mem_nil
    obtain ⟨hmem, hpriority⟩ := List.mem_filter.mp hmem
    exact ⟨candidate, hmem, howner, of_decide_eq_true hpriority⟩
  · intro h
    obtain ⟨candidate, hmem, howner, hpriority⟩ := h
    exact .inr ⟨candidate, List.mem_filter.mpr ⟨hmem, decide_eq_true hpriority⟩, howner⟩

/-- The owner that is found of the candidates of a socket. -/
theorem ownerOf_iff {candidates : List OwnerCandidate} {tgid : Int} :
    (∃ task, ownerOf candidates = some (tgid, task)) ↔
      Only (fun owner => ∃ candidate ∈ candidates, candidate.tgid = owner ∧
        ∀ other ∈ candidates, other.priority ≤ candidate.priority) tgid := by
  unfold ownerOf
  cases hmax : (candidates.map OwnerCandidate.priority).max? with
  | none =>
      rw [List.max?_eq_none_iff, List.map_eq_nil_iff] at hmax
      simp [hmax, Only]
  | some priority =>
      obtain ⟨hmem, hbest⟩ := List.max?_eq_some_iff.mp hmax
      obtain ⟨best, hin, hpriority⟩ := List.mem_map.mp hmem
      have hbelow (other : OwnerCandidate) (hother : other ∈ candidates) :
          other.priority ≤ priority :=
        hbest _ (List.mem_map_of_mem hother)
      have htop (candidate : OwnerCandidate) (hcandidate : candidate ∈ candidates) :
          (∀ other ∈ candidates, other.priority ≤ candidate.priority) ↔ candidate.priority =
            priority := by
        constructor
        · intro habove
          exact Nat.le_antisymm (hbelow candidate hcandidate) (hpriority ▸ habove best hin)
        · intro hsame other hother
          exact hsame ▸ hbelow other hother
      have howner (owner : Int) :
          (∃ candidate ∈ candidates, candidate.tgid = owner ∧
            ∀ other ∈ candidates, other.priority ≤ candidate.priority) ↔
          owner ∈ ownersAt priority candidates := by
        rw [mem_ownersAt]
        refine exists_congr fun candidate => and_congr_right fun hcandidate => ?_
        rw [htop candidate hcandidate]
      have honly : onlyMember (ownersAt priority candidates) = some tgid ↔
          Only (· ∈ ownersAt priority candidates) tgid :=
        onlyMember_iff (nodup_foldl_insert List.nodup_nil)
      unfold Only at honly ⊢
      simp only [howner]
      rw [← honly]
      cases honly : onlyMember (ownersAt priority candidates) with
      | none => simp [honly]
      | some owner => simp [honly]

/-- The record of a socket of its own, or the packet of it, decides its socket. -/
theorem inferred_iff {records : List JsonRecord} {evidence : SocketEvidence} {record : JsonRecord}
    {packet own : Option Int} {answer : Option Int} (h : Collected python records evidence)
    (hown : nonzeroId python record.flowId = .ok own) {sockets : List (List Int)}
    (hsockets : (flowsOf evidence (packet, record.way) own).mapM
      (flowSocketsOf python evidence record) =
      .ok sockets) (hnone : evidence.packetSockets.members (packet, record.way) = [])
    (hanswer : onlyMember (sockets.flatten.foldl (fun sockets socket => sockets.insert socket) []) =
      answer) (socket : Int) : answer = some socket ↔
    Inferred python records record (packet, record.way) socket := by
  have hnothing (other : Int) : ¬ PacketSocket python records (packet, record.way) other := by
    intro hother
    have hmem := (h.packetSocket _ _).mpr hother
    rw [hnone] at hmem
    exact List.not_mem_nil hmem
  have hfound (other : Int) :
      other ∈ sockets.flatten.foldl (fun sockets socket => sockets.insert socket) [] ↔
        FlowEvidence python records record (packet, record.way) other := by
    rw [mem_foldl_insert, ← mem_flowEvidence h hown hsockets]
    exact or_iff_right List.not_mem_nil
  rw [← hanswer, onlyMember_iff (nodup_foldl_insert List.nodup_nil)]
  unfold Inferred Only
  simp only [hfound]
  constructor
  · exact fun hflow => .inr ⟨hnothing, hflow⟩
  · exact fun hinferred => (hinferred.resolve_left fun hpacket => hnothing socket hpacket.1).2

/-- What `packet_socket_id` answers, and who `socket_owners` says owns a socket, are what the
records of the whole file leave as the only choice. -/
theorem evidence_attributed {records : List JsonRecord} {evidence : SocketEvidence}
    (hindex : indexSocketEvidence python records = .ok evidence) :
    (∀ record answer, packetSocketId python evidence record = .ok answer →
      ∀ socket, answer = some socket ↔ Attributed python records record socket) ∧
    ∀ socket tgid, (∃ task, evidence.socketOwners socket = some (tgid, task)) ↔
      Owned python records socket tgid := by
  have h := indexSocketEvidence_collected hindex
  constructor
  · intro record answer hanswer socket
    unfold packetSocketId at hanswer
    obtain ⟨direct, hdirect, hanswer⟩ := bind_ok.mp hanswer
    unfold Attributed
    rw [hdirect]
    cases direct with
    | some own =>
        obtain rfl := Except.ok.inj hanswer
        exact Option.some_inj
    | none =>
        obtain ⟨packet, hpacket, hanswer⟩ := bind_ok.mp hanswer
        have hpick : (∃ other, nonzeroId python record.packetId = .ok other ∧
            Inferred python records record (other, record.way) socket) ↔
            Inferred python records record (packet, record.way) socket := by
          constructor
          · rintro ⟨other, hother, hinferred⟩
            exact Except.ok.inj (hpacket.symm.trans hother) ▸ hinferred
          · exact fun hinferred => ⟨packet, hpacket, hinferred⟩
        show _ ↔ ∃ other, nonzeroId python record.packetId = .ok other ∧
          Inferred python records record (other, record.way) socket
        rw [hpick]
        dsimp only at hanswer
        by_cases hnone : evidence.packetSockets.members (packet, record.way) = []
        case pos =>
          rw [if_neg (not_not_intro hnone)] at hanswer
          obtain ⟨own, hown, hanswer⟩ := bind_ok.mp hanswer
          obtain ⟨sockets, hsockets, hanswer⟩ := bind_ok.mp hanswer
          exact inferred_iff h hown hsockets hnone (Except.ok.inj hanswer) socket
        case neg =>
          rw [if_pos hnone] at hanswer
          rw [← Except.ok.inj hanswer, onlyMember_iff (h.packetSocketsNodup _)]
          unfold Inferred Only
          simp only [h.packetSocket]
          refine ⟨.inl, fun hinferred => hinferred.resolve_right fun hflow => ?_⟩
          obtain ⟨first, hfirst⟩ := List.exists_mem_of_ne_nil _ hnone
          exact hflow.1 first ((h.packetSocket _ _).mp hfirst)
  · intro socket tgid
    unfold Owned SocketEvidence.socketOwners
    simp only [← h.candidate]
    cases evidence.ownerCandidates socket with
    | none => simp [Only]
    | some candidates => exact ownerOf_iff

/-- Texts of lower hexadecimal digits. -/
def readHex (text : String) : Option Int :=
  text.toList.foldlM (fun value char => (Json.hexDigit char).map fun digit =>
    16 * value + (digit : Int)) 0

/-- Ids are read, addresses are what they are, and the tracks of small ids have ids of their own. -/
def samplePython : Python where
  hex := readHex
  address := some
  digest
    | .global => 1
    | .process tgid => 10 + tgid.toNat
    | .thread _ tid => 100 + tid.toNat
    | .socket socket => 200 + socket.toNat
    | .socketPackets socket _ => 300 + socket.toNat
    | .networkSyscalls _ tid => 400 + tid.toNat
    | .navigation serial => 500 + serial
    | .flow _ => 600
    | .connect _ => 700
  visit := id
  visit_perm := List.Perm.refl

/-- A process creates a socket, and a packet of the flow of this socket is sent by another one. -/
def linkedRecords : List JsonRecord :=
  [{ type := .socketCreate, socketId := "a", tgid := 7, task := "app" },
    { type := .socketFlowLink, socketId := "a", flowId := "f" },
    { type := .packetEvent, packetId := "c", flowId := "f", way := .tx, tgid := 2 }]

theorem evidence_attributed_linked :
    Attributed samplePython linkedRecords { type := .packetEvent, packetId := "c", way := .tx } 10 ∧
      Owned samplePython linkedRecords 10 7 := by
  cases hindex : indexSocketEvidence samplePython linkedRecords with
  | error failure =>
      have hreads : (indexSocketEvidence samplePython linkedRecords).isOk =
          true := by decide +kernel
      rw [hindex] at hreads
      cases hreads
  | ok evidence =>
      obtain ⟨hpacket, howner⟩ := evidence_attributed hindex
      have hanswers : (indexSocketEvidence samplePython linkedRecords).bind (fun evidence =>
          packetSocketId samplePython evidence
            { type := .packetEvent, packetId := "c", way := .tx }) =
            .ok (some 10) := by decide +kernel
      have howns : (indexSocketEvidence samplePython linkedRecords).map (fun evidence =>
          evidence.socketOwners 10) = .ok (some (7, "app")) := by decide +kernel
      rw [hindex] at hanswers howns
      exact ⟨(hpacket _ _ hanswers 10).mp rfl, (howner 10 7).mp ⟨"app", Except.ok.inj howns⟩⟩

end Anettrace.Convert
