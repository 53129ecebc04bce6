import Anettrace.Export.FlowMoves

/-!
# The outlines of flows

What `flow_lookup` reads of a flow is its outline. An event that is looked up is answered by the
outlines that cover it, and then opens a flow, gives a flow its socket, or leaves the keys of the
active flows as they are. `Admits.keys` says exactly when that keeps the keys apart.
-/

namespace Anettrace.Export

open Library.Table

/-- `tuple_id`, `netns` and `socket_id`. -/
abbrev FlowKey :=
  UInt64 × UInt32 × UInt64

/-- What `flow_lookup` reads of a flow. The end of an active flow is not read. -/
structure Outline where
  tupleId : UInt64
  netns : UInt32
  socketId : UInt64
  firstTs : UInt64
  lastCovered : UInt64
  active : Bool
  deriving DecidableEq

/-- The arguments of `flow_lookup` for an event, and whether a new flow can be allocated. -/
structure FlowRequest where
  tupleId : UInt64
  socketId : UInt64
  netns : UInt32
  ts : UInt64
  allocates : Bool

def Outline.key (flow : Outline) : FlowKey :=
  (flow.tupleId, flow.netns, flow.socketId)

def FlowRequest.key (request : FlowRequest) : FlowKey :=
  (request.tupleId, request.netns, request.socketId)

def liveKeys (flows : List Outline) : List FlowKey :=
  (flows.filter Outline.active).map Outline.key

/-- The flow covers the time of an event with its tuple and namespace. -/
def Outline.inScope (flow : Outline) (request : FlowRequest) : Bool :=
  flow.tupleId = request.tupleId && flow.netns = request.netns &&
    flow.firstTs ≤ request.ts && (flow.active || request.ts ≤ flow.lastCovered)

/-- The flow and the event do not name different sockets. -/
def Outline.compatible (flow : Outline) (request : FlowRequest) : Bool :=
  request.socketId = 0 || flow.socketId = 0 || flow.socketId = request.socketId

/-- The flows that an event can belong to. -/
def covering (flows : List Outline) (request : FlowRequest) : List Outline :=
  flows.filter fun flow => flow.inScope request && flow.compatible request

/-- An active flow with the key of the event begins after it. -/
def Outline.isLater (flow : Outline) (request : FlowRequest) : Bool :=
  flow.active && flow.key = request.key && request.ts < flow.firstTs

/-- The event belongs to no flow, or to one active flow whose socket is not known yet. -/
def unrecognised (flows : List Outline) (request : FlowRequest) : Bool :=
  match covering flows request with
  | [] => request.allocates
  | [flow] => flow.active && flow.socketId = 0 && request.socketId ≠ 0
  | _ => false

/-- The event comes from before the first packet of the active flow with its key, and is not
recognised as another flow's. -/
def lateDuplicate (flows : List Outline) (request : FlowRequest) : Bool :=
  flows.any (Outline.isLater · request) && unrecognised flows request

/-! ## Admission -/

/-- What the admission of an event does to the active flows. -/
inductive Admits (flows : List Outline) (request : FlowRequest) : List Outline → Prop where
  | opened {flow : Outline} (hnone : covering flows request = [])
      (hallocates : request.allocates = true) (hactive : flow.active = true)
      (hkey : flow.key = request.key) : Admits flows request (flows ++ [flow])
  | adopted {place : Nat} {flow new : Outline} (hflow : flows[place]? = some flow)
      (honly : covering flows request = [flow]) (hactive : flow.active = true)
      (hsocket : flow.socketId = 0) (hrequest : request.socketId ≠ 0)
      (hnew : new.active = true) (hkey : new.key = request.key) :
      Admits flows request (flows.set place new)
  | kept {after : List Outline} (hkeys : liveKeys after = liveKeys flows)
      (hknown : unrecognised flows request = false) : Admits flows request after

section

variable {flows : List Outline}

theorem covers_or_later {request : FlowRequest} {flow : Outline} (hmem : flow ∈ flows)
    (hactive : flow.active = true) (hkey : flow.key = request.key) :
    flow ∈ covering flows request ∨ flow.isLater request = true := by
  have hparts := hkey
  simp only [Outline.key, FlowRequest.key, Prod.mk.injEq] at hparts
  obtain ⟨htuple, hnetns, hsocket⟩ := hparts
  by_cases hts : flow.firstTs ≤ request.ts
  · refine Or.inl (List.mem_filter.mpr ⟨hmem, ?_⟩)
    simp [Outline.inScope, Outline.compatible, htuple, hnetns, hsocket, hactive, hts]
  · refine Or.inr ?_
    simp [Outline.isLater, hactive, hkey, UInt64.not_le.mp hts]

theorem mem_liveKeys {key : FlowKey} :
    key ∈ liveKeys flows ↔ ∃ flow ∈ flows, flow.active = true ∧ flow.key = key := by
  simp only [liveKeys, List.mem_map, List.mem_filter, and_assoc]

theorem later_iff {request : FlowRequest}
    (hnone : ∀ flow ∈ covering flows request, flow.key ≠ request.key) :
    flows.any (Outline.isLater · request) = true ↔ request.key ∈ liveKeys flows := by
  rw [mem_liveKeys, List.any_eq_true]
  constructor
  · rintro ⟨flow, hmem, hlater⟩
    simp only [Outline.isLater, Bool.and_eq_true, decide_eq_true_eq] at hlater
    exact ⟨flow, hmem, hlater.1.1, hlater.1.2⟩
  · rintro ⟨flow, hmem, hactive, hkey⟩
    refine ⟨flow, hmem, (covers_or_later hmem hactive hkey).resolve_left ?_⟩
    exact fun hcovers => hnone flow hcovers hkey

theorem liveKeys_append {flow : Outline} (hactive : flow.active = true) :
    liveKeys (flows ++ [flow]) = liveKeys flows ++ [flow.key] := by
  simp [liveKeys, hactive]

theorem liveKeys_set {place : Nat} {flow : Outline} (hflow : flows[place]? = some flow) :
    ∃ front back, liveKeys flows = front ++ liveKeys [flow] ++ back ∧
      ∀ new, liveKeys (flows.set place new) = front ++ liveKeys [new] ++ back := by
  obtain ⟨front, back, hflows, hset⟩ := split_at hflow
  have hsplit (entry : Outline) : liveKeys (front ++ entry :: back) =
      liveKeys front ++ liveKeys [entry] ++ liveKeys back := by
    simp only [liveKeys, ← List.map_append, ← List.filter_append, List.append_assoc,
      List.singleton_append]
  refine ⟨liveKeys front, liveKeys back, ?_, fun new => ?_⟩
  · rw [hflows, hsplit]
  · rw [hset, hsplit]

end

theorem liveKeys_singleton {flow : Outline} (hactive : flow.active = true) :
    liveKeys [flow] = [flow.key] := by
  simp [liveKeys, hactive]

/-- Exchanging one key for another keeps keys apart when the new one is not there yet. -/
theorem nodup_exchange {front back : List FlowKey} {old new : FlowKey} (hne : new ≠ old)
    (h : (front ++ [old] ++ back).Nodup) :
    (front ++ [new] ++ back).Nodup ↔ new ∉ front ++ [old] ++ back := by
  have hperm (key : FlowKey) : (front ++ [key] ++ back).Perm (key :: (front ++ back)) := by
    rw [List.append_assoc, List.singleton_append]
    exact List.perm_middle
  rw [(hperm old).nodup_iff, List.nodup_cons] at h
  rw [(hperm new).nodup_iff, (hperm old).mem_iff, List.nodup_cons, List.mem_cons, not_or]
  exact ⟨fun hnew => ⟨hne, hnew.1⟩, fun hnew => ⟨hnew.2, h.2⟩⟩

/-- An admission keeps the keys of the active flows apart unless the event is an unrecognised late
one. -/
theorem Admits.keys {flows after : List Outline} {request : FlowRequest}
    (h : Admits flows request after) (hkeys : (liveKeys flows).Nodup) :
    (liveKeys after).Nodup ↔ lateDuplicate flows request = false := by
  rw [← Bool.not_eq_true, lateDuplicate, Bool.and_eq_true]
  cases h with
  | kept hsame hknown => simp [hsame, hkeys, hknown]
  | @opened flow hnone hallocates hactive hkey =>
      have hunrecognised : unrecognised flows request = true := by
        simp only [unrecognised, hnone, hallocates]
      have hlater : flows.any (Outline.isLater · request) = true ↔
          request.key ∈ liveKeys flows := by
        refine later_iff fun other hother => ?_
        rw [hnone] at hother
        cases hother
      rw [hunrecognised, hlater, liveKeys_append hactive, hkey,
        (List.perm_append_singleton _ _).nodup_iff, List.nodup_cons]
      simp [hkeys]
  | @adopted place flow new hflow honly hactive hsocket hrequest hnew hkey =>
      have hunrecognised : unrecognised flows request = true := by
        simp [unrecognised, honly, hactive, hsocket, hrequest]
      have hne : request.key ≠ flow.key := by
        intro heq
        have hsame : request.socketId = flow.socketId := congrArg (fun key => key.2.2) heq
        exact hrequest (hsame.trans hsocket)
      have hlater : flows.any (Outline.isLater · request) = true ↔
          request.key ∈ liveKeys flows := by
        refine later_iff fun other hother heq => hne ?_
        rw [honly, List.mem_singleton] at hother
        rw [← heq, hother]
      obtain ⟨front, back, hbefore, hafter⟩ := liveKeys_set hflow
      rw [liveKeys_singleton hactive] at hbefore
      rw [hunrecognised, hlater, hafter, liveKeys_singleton hnew, hkey, hbefore]
      rw [hbefore] at hkeys
      rw [nodup_exchange hne hkeys]
      simp

/-! ## Flows and their outlines -/

def FlowState.outline (flow : FlowState) : Outline where
  tupleId := flow.tupleId
  netns := flow.netns
  socketId := flow.socketId
  firstTs := flow.firstTs
  lastCovered := if flow.active then 0 else flow.lastCovered
  active := flow.active

def State.outlines (state : State) : List Outline :=
  state.flows.map FlowState.outline

/-! ## Lookups -/

theorem zipIdx_filter (flows : List FlowState) (kept : FlowState → Bool) :
    ((flows.zipIdx.filter fun entry => kept entry.1).map Prod.fst) = flows.filter kept := by
  have hmap : flows.zipIdx.map Prod.fst = flows := List.zipIdx_map_fst 0 flows
  conv_rhs => rw [← hmap, List.filter_map]
  rfl

theorem outline_inScope (flow : FlowState) (request : FlowRequest) :
    flow.outline.inScope request = flow.inScope request.tupleId request.netns request.ts := by
  unfold Outline.inScope FlowState.inScope FlowState.outline
  cases flow.active <;> simp

theorem outline_compatible (flow : FlowState) (request : FlowRequest) :
    flow.outline.compatible request =
        (flow.isExact request.socketId || flow.isCandidate request.socketId) ∧
      (flow.isExact request.socketId && flow.isCandidate request.socketId) = false := by
  unfold Outline.compatible FlowState.isCandidate FlowState.isExact FlowState.outline
  by_cases hsocket : request.socketId = 0 <;> by_cases hflow : flow.socketId = 0 <;>
    by_cases hsame : flow.socketId = request.socketId <;> simp_all

/-- The flows of the table that an event can belong to. -/
def coveringFlows (flows : List FlowState) (request : FlowRequest) : List FlowState :=
  flows.filter fun flow => flow.outline.inScope request && flow.outline.compatible request

theorem covering_outlines (flows : List FlowState) (request : FlowRequest) :
    covering (flows.map FlowState.outline) request =
      (coveringFlows flows request).map FlowState.outline := by
  unfold covering coveringFlows
  rw [List.filter_map]
  rfl

def lookupOf (flows : List FlowState) (request : FlowRequest) : Lookup :=
  flowLookup flows request.tupleId request.socketId request.netns request.ts

theorem mem_zipIdx_filter {flows : List FlowState} {kept : FlowState → Bool}
    {entry : FlowState × Nat} (h : entry ∈ flows.zipIdx.filter fun entry => kept entry.1) :
    flows[entry.2]? = some entry.1 ∧ kept entry.1 = true := by
  obtain ⟨hmem, hkept⟩ := List.mem_filter.mp h
  exact ⟨List.mem_zipIdx_iff_getElem?.mp hmem, hkept⟩

/-- What `flow_lookup` can answer: no flow covers the event, several do, one is exact, or the one
that covers the event does not name its socket. -/
inductive Answer (flows : List FlowState) (request : FlowRequest) : Lookup → Prop where
  | absent (hnone : coveringFlows flows request = []) : Answer flows request ⟨none, false⟩
  | several (htwo : 2 ≤ (coveringFlows flows request).length) : Answer flows request ⟨none, true⟩
  | exact {place : Nat} {flow : FlowState} (hflow : flows[place]? = some flow)
      (hscope : flow.outline.inScope request = true)
      (hexact : flow.isExact request.socketId = true) : Answer flows request ⟨some place, false⟩
  | candidate {place : Nat} {flow : FlowState} (hflow : flows[place]? = some flow)
      (honly : coveringFlows flows request = [flow])
      (hcandidate : flow.isCandidate request.socketId = true) :
      Answer flows request ⟨some place, false⟩

theorem exacts_cover (flows : List FlowState) (request : FlowRequest) :
    (flows.filter fun flow => flow.isExact request.socketId &&
        flow.inScope request.tupleId request.netns request.ts).length ≤
      (coveringFlows flows request).length := by
  unfold coveringFlows
  rw [← List.countP_eq_length_filter, ← List.countP_eq_length_filter]
  refine List.countP_mono_left fun flow _ hexact => ?_
  rw [outline_inScope, (outline_compatible flow request).1]
  simp only [Bool.and_eq_true] at hexact
  simp [hexact]

theorem candidates_cover {flows : List FlowState} {request : FlowRequest}
    (hexacts : flows.filter (fun flow => flow.isExact request.socketId &&
      flow.inScope request.tupleId request.netns request.ts) = []) :
    coveringFlows flows request = flows.filter fun flow => flow.isCandidate request.socketId &&
      flow.inScope request.tupleId request.netns request.ts := by
  refine List.filter_congr fun flow hflow => ?_
  have hexact := List.filter_eq_nil_iff.mp hexacts flow hflow
  rw [outline_inScope, (outline_compatible flow request).1]
  cases hscope : flow.inScope request.tupleId request.netns request.ts <;>
    cases hflag : flow.isExact request.socketId <;> simp_all

theorem flowLookup_answer (flows : List FlowState) (request : FlowRequest) :
    Answer flows request (lookupOf flows request) := by
  have hexacts := zipIdx_filter flows fun flow =>
    flow.isExact request.socketId && flow.inScope request.tupleId request.netns request.ts
  have hcandidates := zipIdx_filter flows fun flow =>
    flow.isCandidate request.socketId && flow.inScope request.tupleId request.netns request.ts
  have hcover := exacts_cover flows request
  have hrest := @candidates_cover flows request
  unfold lookupOf flowLookup
  dsimp only
  rw [List.filter_filter, List.filter_filter]
  generalize hE : (flows.zipIdx.filter fun entry => entry.1.isExact request.socketId &&
    entry.1.inScope request.tupleId request.netns request.ts) = exacts at *
  generalize hK : (flows.zipIdx.filter fun entry => entry.1.isCandidate request.socketId &&
    entry.1.inScope request.tupleId request.netns request.ts) = candidates at *
  rw [← hexacts] at hcover hrest
  rw [← hcandidates] at hrest
  match exacts, candidates with
  | [exact], _ =>
      obtain ⟨hflow, hkept⟩ := @mem_zipIdx_filter flows
        (fun flow => flow.isExact request.socketId &&
          flow.inScope request.tupleId request.netns request.ts) exact
        (by rw [hE]; exact List.mem_cons_self)
      simp only [Bool.and_eq_true] at hkept
      exact Answer.exact hflow ((outline_inScope _ _).trans hkept.2) hkept.1
  | [], [] => exact Answer.absent (hrest rfl)
  | [], [candidate] =>
      obtain ⟨hflow, hkept⟩ := @mem_zipIdx_filter flows
        (fun flow => flow.isCandidate request.socketId &&
          flow.inScope request.tupleId request.netns request.ts) candidate
        (by rw [hK]; exact List.mem_cons_self)
      simp only [Bool.and_eq_true] at hkept
      exact Answer.candidate hflow (hrest rfl) hkept.1
  | [], first :: second :: others =>
      refine Answer.several ?_
      rw [hrest rfl]
      simp
  | first :: second :: others, _ =>
      refine Answer.several (Nat.le_trans ?_ hcover)
      simp

end Anettrace.Export
