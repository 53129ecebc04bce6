import Mathlib.Data.List.Nodup
import Mathlib.Data.List.Sort
import Mathlib.Algebra.Ring.Nat

/-!
# Selection of events

`select_events` of `skills/anettrace-analysis/scripts/network_report.py`. The events that meet the
filters are reduced to the selected calls and what shares a connection or a socket with them, and
the allocations of their sockets are added as context. A stricter set of filters selects no other
events.
-/

namespace Anettrace.NetworkReport

/-! ## Filters -/

/-- A value of a column or of a filter. -/
inductive Scalar where
  | none
  | bool (value : Bool)
  | number (value : Int)
  | text (value : String)
  deriving DecidableEq, Repr

/-- What a value is compared by: a truth value equals a number. -/
def Scalar.key : Scalar → Scalar
  | .bool value => .number (if value then 1 else 0)
  | value => value

/-- The truth value of a scalar. -/
def Scalar.truthy : Scalar → Bool
  | .none => false
  | .bool value => value
  | .number value => value != 0
  | .text value => value != ""

/-- A decimal number of milliseconds. -/
structure Decimal where
  digits : Nat
  places : Nat
  deriving DecidableEq, Repr

/-- `int(value * 1000000)` -/
def Decimal.toNs (value : Decimal) : Nat :=
  value.digits * 1000000 / 10 ^ value.places

/-- The filters that list values. -/
inductive ListKey where
  | uids
  | pids
  | tids
  | flows
  | sockets
  | protocols
  | addresses
  | ports
  | syscalls
  deriving DecidableEq, Repr

def listFilters : List ListKey :=
  [.uids, .pids, .tids, .flows, .sockets, .protocols, .addresses, .ports, .syscalls]

/-- The filters that limit times. -/
inductive TimeKey where
  | minCallMs
  | maxCallMs
  | startMs
  | endMs
  deriving DecidableEq, Repr

/-- A set of filters. -/
structure Filters where
  list : ListKey → Option (List Scalar)
  time : TimeKey → Option Decimal

/-- A filter that lists values is given. -/
def Filters.setList (filters : Filters) (key : ListKey) (values : List Scalar) : Filters :=
  { filters with list := fun each => if each = key then some values else filters.list each }

/-- A filter that limits a time is given. -/
def Filters.setTime (filters : Filters) (key : TimeKey) (limit : Decimal) : Filters :=
  { filters with time := fun each => if each = key then some limit else filters.time each }

/-! ## Events -/

/-- The categories of events. -/
inductive Category where
  | syscall
  | socket
  | flow
  | packet
  | packetDrop
  | other
  deriving DecidableEq, Repr

/-- A slice of the trace with the fields that `enrich_events` adds. -/
structure SelectedEvent where
  id : Nat
  ts : Int
  dur : Int
  category : Category
  name : String
  appUid : Scalar
  appPid : Scalar
  appTid : Scalar
  flowId : Scalar
  flows : List Scalar
  sockets : List Scalar
  protocols : List Scalar
  addresses : List Scalar
  ports : List Scalar
  syscalls : List Scalar
  incomplete : Scalar
  startClipped : Scalar
  result : Scalar
  contextOnly : Bool
  deriving DecidableEq, Repr

/-- The values of an event that a filter is compared with. -/
def SelectedEvent.values (event : SelectedEvent) : ListKey → List Scalar
  | .uids => [event.appUid]
  | .pids => [event.appPid]
  | .tids => [event.appTid]
  | .flows => event.flows
  | .sockets => event.sockets
  | .protocols => event.protocols
  | .addresses => event.addresses
  | .ports => event.ports
  | .syscalls => event.syscalls

def SelectedEvent.eligible (call : SelectedEvent) : Bool :=
  call.dur ≥ 0 && !call.incomplete.truthy && !call.startClipped.truthy && call.result != .none

/-- `APP_CATEGORIES` -/
def Category.isApp (category : Category) : Bool :=
  category != .other

/-- Two collections share a value. -/
def meets (wanted values : List Scalar) : Bool :=
  values.any fun value => wanted.any fun other => other.key = value.key

/-- A value that is missing is unknown. -/
def shown (values : List Scalar) : List Scalar :=
  (if values = [] then [.none] else values).map fun value =>
    if value = .none then .text "unknown" else value

/-! ## The code -/

section Code

variable (events : List SelectedEvent) (filters : Filters) (start : Int)

/-- `matches` for the key of a list. -/
def listMatches (event : SelectedEvent) (key : ListKey) : Bool :=
  match filters.list key with
  | none => true
  | some wanted => meets wanted (shown (event.values key))

/-- The event passes the filter of start times. -/
def startMatches (event : SelectedEvent) : Bool :=
  match filters.time .startMs with
  | none => true
  | some limit =>
      let lower := start + limit.toNs
      if event.dur ≥ 0 then
        !(if event.dur ≠ 0 then event.ts + event.dur ≤ lower else event.ts < lower)
      else true

/-- The event passes the filter of end times. -/
def endMatches (event : SelectedEvent) : Bool :=
  match filters.time .endMs with
  | none => true
  | some limit => !(event.ts ≥ start + limit.toNs)

/-- `matches` -/
def eventMatches (event : SelectedEvent) : Bool :=
  (listFilters.filter (· != .syscalls)).all (listMatches filters event) &&
    startMatches filters start event && endMatches filters start event

/-- `call_filters` -/
def callFilters : Bool :=
  (filters.list .syscalls).isSome || (filters.time .minCallMs).isSome ||
    (filters.time .maxCallMs).isSome

/-- `call_matches` -/
def callMatches (event : SelectedEvent) : Bool :=
  (match filters.list .syscalls with
    | none => true
    | some wanted => meets wanted event.syscalls) &&
  (if (filters.time .minCallMs).isSome || (filters.time .maxCallMs).isSome then
    event.eligible else true) &&
  (match filters.time .minCallMs with
    | none => true
    | some limit => !(event.dur < limit.toNs)) &&
  (match filters.time .maxCallMs with
    | none => true
    | some limit => !(event.dur > limit.toNs))

/-- The events that meet the filters other than those of calls. -/
def matchedEvents : List SelectedEvent :=
  events.filter fun event => event.category.isApp && eventMatches filters start event

/-- `calls` -/
def matchedCalls : List SelectedEvent :=
  (matchedEvents events filters start).filter fun event =>
    event.category = .syscall && callMatches filters event

/-- What a call keeps: itself, and events other than calls of its connection or, without one, of its
sockets. -/
def keptBy (calls : List SelectedEvent) (event : SelectedEvent) : Bool :=
  let callIds := calls.map SelectedEvent.id
  let flows := (calls.map SelectedEvent.flowId).filter Scalar.truthy
  let sockets := (calls.filter fun call => !call.flowId.truthy).flatMap SelectedEvent.sockets
  callIds.contains event.id ||
    (event.category != .syscall &&
      (meets flows [event.flowId] || (!event.flowId.truthy && meets sockets event.sockets)))

/-- `selected` before the context is added. -/
def selectedEvents : List SelectedEvent :=
  if callFilters filters then
    (matchedEvents events filters start).filter (keptBy (matchedCalls events filters start))
  else matchedEvents events filters start

/-- An allocation of a socket of a selected event. -/
def isContext (selected : List SelectedEvent) (event : SelectedEvent) : Bool :=
  event.category = .socket && event.name = "socket allocation" &&
    !(selected.map SelectedEvent.id).contains event.id &&
    meets (selected.flatMap SelectedEvent.sockets) event.sockets

/-- The event is selected as context. -/
def SelectedEvent.asContext (event : SelectedEvent) : SelectedEvent :=
  { event with contextOnly := true }

/-- The key of the result. -/
def keyLe (first second : SelectedEvent) : Bool :=
  first.ts < second.ts || (first.ts == second.ts && first.id ≤ second.id)

/-- `select_events`. -/
def selectEvents : List SelectedEvent :=
  let selected := selectedEvents events filters start
  (selected ++ (events.filter (isContext selected)).map SelectedEvent.asContext).mergeSort keyLe

end Code

/-! ## Stricter filters -/

/-- One decimal number is at most another. -/
def Decimal.Le (first second : Decimal) : Prop :=
  first.digits * 10 ^ second.places ≤ second.digits * 10 ^ first.places

/-- A limit leaves a smaller window than another. -/
def TimeKey.Tightens (limit other : Decimal) : TimeKey → Prop
  | .minCallMs | .startMs => other.Le limit
  | .maxCallMs | .endMs => limit.Le other

/-- Filters that have every key of others, with fewer values or a smaller window. -/
structure Filters.Narrows (narrow wide : Filters) : Prop where
  list : ∀ {key wanted}, wide.list key = some wanted → ∃ fewer, narrow.list key = some fewer ∧
    fewer ⊆ wanted
  time : ∀ {key limit}, wide.time key = some limit →
    ∃ tighter, narrow.time key = some tighter ∧ key.Tightens tighter limit

variable {events : List SelectedEvent} {narrow wide filters : Filters} {start : Int}
  {event : SelectedEvent} {wanted values : List Scalar} {limit other : Decimal}

/-- A decimal number that is at most another has at most its nanoseconds. -/
theorem Decimal.Le.toNs_le (h : limit.Le other) : limit.toNs ≤ other.toNs := by
  unfold Decimal.toNs
  refine (Nat.le_div_iff_mul_le (Nat.pow_pos (by decide))).mpr ?_
  refine Nat.le_of_mul_le_mul_right ?_ (Nat.pow_pos (by decide) : 0 < 10 ^ limit.places)
  calc
    limit.digits * 1000000 / 10 ^ limit.places * 10 ^ other.places * 10 ^ limit.places =
        limit.digits * 1000000 / 10 ^ limit.places * 10 ^ limit.places * 10 ^ other.places := by
      rw [Nat.mul_right_comm]
    _ ≤ limit.digits * 1000000 * 10 ^ other.places :=
      Nat.mul_le_mul_right _ (Nat.div_mul_le_self _ _)
    _ = limit.digits * 10 ^ other.places * 1000000 := Nat.mul_right_comm _ _ _
    _ ≤ other.digits * 10 ^ limit.places * 1000000 := Nat.mul_le_mul_right _ h
    _ = other.digits * 1000000 * 10 ^ limit.places := Nat.mul_right_comm _ _ _

theorem Decimal.Le.refl (limit : Decimal) : limit.Le limit :=
  Nat.le_refl _

theorem TimeKey.Tightens.refl (key : TimeKey) (limit : Decimal) : key.Tightens limit limit := by
  cases key <;> exact Decimal.Le.refl limit

theorem meets_mono {fewer less more : List Scalar} (hwanted : fewer ⊆ wanted)
    (hvalues : less ⊆ more) (h : meets fewer less = true) : meets wanted more = true := by
  simp only [meets, List.any_eq_true] at h ⊢
  obtain ⟨value, hvalue, other, hother, heq⟩ := h
  exact ⟨value, hvalues hvalue, other, hwanted hother, heq⟩

theorem Filters.Narrows.setList {key : ListKey} (h : filters.list key = none)
    (values : List Scalar) :
    (filters.setList key values).Narrows filters := by
  refine ⟨fun {each wanted} heach => ?_, fun {each limit} heach => ?_⟩
  · have hne : each ≠ key := by
      rintro rfl
      exact absurd (h.symm.trans heach) nofun
    exact ⟨wanted, (if_neg hne).trans heach, List.Subset.refl wanted⟩
  · exact ⟨limit, heach, TimeKey.Tightens.refl each limit⟩

/-- So does setting a limit where there was none or a wider one. -/
theorem Filters.Narrows.setTime {key : TimeKey}
    (h : ∀ old, filters.time key = some old → key.Tightens limit old) :
    (filters.setTime key limit).Narrows filters := by
  refine ⟨fun {each wanted} heach => ?_, fun {each old} heach => ?_⟩
  · exact ⟨wanted, heach, List.Subset.refl wanted⟩
  · by_cases heq : each = key
    · subst heq
      exact ⟨limit, if_pos rfl, h old heach⟩
    · exact ⟨old, (if_neg heq).trans heach, TimeKey.Tightens.refl each old⟩

theorem Filters.Narrows.of_addValue {key : ListKey} (h : filters.list key = some wanted)
    (value : Scalar) :
    filters.Narrows (filters.setList key (wanted ++ [value])) := by
  refine ⟨fun {each more} heach => ?_, fun {each limit} heach => ?_⟩
  · by_cases heq : each = key
    · subst heq
      obtain rfl : wanted ++ [value] = more := Option.some.inj ((if_pos rfl).symm.trans heach)
      exact ⟨wanted, h, List.subset_append_left _ _⟩
    · exact ⟨more, (if_neg heq).symm.trans heach, List.Subset.refl more⟩
  · exact ⟨limit, heach, TimeKey.Tightens.refl each limit⟩

/-! ## Fewer matches -/

section

variable (h : narrow.Narrows wide)
include h

/-- A narrower filter of values matches less. -/
theorem listMatches_mono {key : ListKey} (hmatch : listMatches narrow event key = true) :
    listMatches wide event key = true := by
  unfold listMatches at hmatch ⊢
  cases hwide : wide.list key with
  | none => rfl
  | some wanted =>
      obtain ⟨fewer, hfewer, hsubset⟩ := h.list hwide
      rw [hfewer] at hmatch
      exact meets_mono hsubset (List.Subset.refl _) hmatch

/-- A narrower filter of start times matches less. -/
theorem startMatches_mono (hmatch : startMatches narrow start event = true) :
    startMatches wide start event = true := by
  unfold startMatches at hmatch ⊢
  cases hwide : wide.time .startMs with
  | none => rfl
  | some limit =>
      obtain ⟨tighter, htighter, hle⟩ := h.time hwide
      have hns := Decimal.Le.toNs_le hle
      rw [htighter] at hmatch
      dsimp only at hmatch ⊢
      split_ifs at hmatch ⊢
      · simp only [Bool.not_eq_true', decide_eq_false_iff_not] at hmatch ⊢
        omega
      · simp only [Bool.not_eq_true', decide_eq_false_iff_not] at hmatch ⊢
        omega
      · rfl

/-- A narrower filter of end times matches less. -/
theorem endMatches_mono (hmatch : endMatches narrow start event = true) :
    endMatches wide start event = true := by
  unfold endMatches at hmatch ⊢
  cases hwide : wide.time .endMs with
  | none => rfl
  | some limit =>
      obtain ⟨tighter, htighter, hle⟩ := h.time hwide
      have hns := Decimal.Le.toNs_le hle
      rw [htighter] at hmatch
      simp only [Bool.not_eq_true', decide_eq_false_iff_not] at hmatch ⊢
      omega

theorem eventMatches_mono (hmatch : eventMatches narrow start event = true) :
    eventMatches wide start event = true := by
  simp only [eventMatches, Bool.and_eq_true, List.all_eq_true] at hmatch ⊢
  obtain ⟨⟨hlists, hstart⟩, hend⟩ := hmatch
  exact ⟨⟨fun key hkey => listMatches_mono h (hlists key hkey), startMatches_mono h hstart⟩,
    endMatches_mono h hend⟩

theorem callFilters_mono (hwide : callFilters wide = true) :
    callFilters narrow = true := by
  simp only [callFilters, Bool.or_eq_true, Option.isSome_iff_exists] at hwide ⊢
  rcases hwide with (⟨wanted, hsome⟩ | ⟨limit, hsome⟩) | ⟨limit, hsome⟩
  · obtain ⟨fewer, hfewer, -⟩ := h.list hsome
    exact Or.inl (Or.inl ⟨fewer, hfewer⟩)
  · obtain ⟨tighter, htighter, -⟩ := h.time hsome
    exact Or.inl (Or.inr ⟨tighter, htighter⟩)
  · obtain ⟨tighter, htighter, -⟩ := h.time hsome
    exact Or.inr ⟨tighter, htighter⟩

/-- Narrower filters match fewer calls. -/
theorem callMatches_mono (hmatch : callMatches narrow event = true) :
    callMatches wide event = true := by
  simp only [callMatches, Bool.and_eq_true] at hmatch ⊢
  obtain ⟨⟨⟨hname, heligible⟩, hmin⟩, hmax⟩ := hmatch
  refine ⟨⟨⟨?_, ?_⟩, ?_⟩, ?_⟩
  · cases hwide : wide.list .syscalls with
    | none => rfl
    | some wanted =>
        obtain ⟨fewer, hfewer, hsubset⟩ := h.list hwide
        rw [hfewer] at hname
        exact meets_mono hsubset (List.Subset.refl _) hname
  · split_ifs with hlimits
    · refine (if_pos ?_).symm.trans heligible
      simp only [Bool.or_eq_true, Option.isSome_iff_exists] at hlimits ⊢
      rcases hlimits with ⟨limit, hsome⟩ | ⟨limit, hsome⟩
      · obtain ⟨tighter, htighter, -⟩ := h.time hsome
        exact Or.inl ⟨tighter, htighter⟩
      · obtain ⟨tighter, htighter, -⟩ := h.time hsome
        exact Or.inr ⟨tighter, htighter⟩
    · rfl
  · cases hwide : wide.time .minCallMs with
    | none => rfl
    | some limit =>
        obtain ⟨tighter, htighter, hle⟩ := h.time hwide
        have hns := Decimal.Le.toNs_le hle
        rw [htighter] at hmin
        simp only [Bool.not_eq_true', decide_eq_false_iff_not] at hmin ⊢
        omega
  · cases hwide : wide.time .maxCallMs with
    | none => rfl
    | some limit =>
        obtain ⟨tighter, htighter, hle⟩ := h.time hwide
        have hns := Decimal.Le.toNs_le hle
        rw [htighter] at hmax
        simp only [Bool.not_eq_true', decide_eq_false_iff_not] at hmax ⊢
        omega

theorem matchedEvents_subset :
    matchedEvents events narrow start ⊆ matchedEvents events wide start := by
  intro event hmem
  simp only [matchedEvents, List.mem_filter, Bool.and_eq_true] at hmem ⊢
  exact ⟨hmem.1, hmem.2.1, eventMatches_mono h hmem.2.2⟩

theorem matchedCalls_subset :
    matchedCalls events narrow start ⊆ matchedCalls events wide start := by
  intro event hmem
  simp only [matchedCalls, List.mem_filter, Bool.and_eq_true] at hmem ⊢
  exact ⟨matchedEvents_subset h hmem.1, hmem.2.1, callMatches_mono h hmem.2.2⟩

end

theorem sockets_subset {fewer more : List SelectedEvent} (h : fewer ⊆ more) :
    fewer.flatMap SelectedEvent.sockets ⊆ more.flatMap SelectedEvent.sockets := by
  intro socket hmem
  obtain ⟨event, hevent, hsocket⟩ := List.mem_flatMap.mp hmem
  exact List.mem_flatMap.mpr ⟨event, h hevent, hsocket⟩

/-- More calls keep more events. -/
theorem keptBy_mono {fewer more : List SelectedEvent} (h : fewer ⊆ more)
    (hkept : keptBy fewer event = true) : keptBy more event = true := by
  have hsockets : (fewer.filter fun call => !call.flowId.truthy).flatMap SelectedEvent.sockets ⊆
      (more.filter fun call => !call.flowId.truthy).flatMap SelectedEvent.sockets :=
    sockets_subset (List.filter_subset _ h)
  simp only [keptBy, Bool.or_eq_true, Bool.and_eq_true, List.contains_iff_mem] at hkept ⊢
  rcases hkept with hid | ⟨hother, hflow | ⟨hnone, hsocket⟩⟩
  · exact Or.inl (List.map_subset _ h hid)
  · exact Or.inr ⟨hother, Or.inl (meets_mono (List.filter_subset _ (List.map_subset _ h))
      (List.Subset.refl _) hflow)⟩
  · exact Or.inr ⟨hother, Or.inr ⟨hnone, meets_mono hsockets (List.Subset.refl _) hsocket⟩⟩

theorem selectedEvents_subset (h : narrow.Narrows wide) :
    selectedEvents events narrow start ⊆ selectedEvents events wide start := by
  intro event hmem
  unfold selectedEvents at hmem ⊢
  by_cases hwide : callFilters wide = true
  · rw [if_pos (callFilters_mono h hwide)] at hmem
    rw [if_pos hwide]
    obtain ⟨hmatched, hkept⟩ := List.mem_filter.mp hmem
    exact List.mem_filter.mpr ⟨matchedEvents_subset h hmatched,
      keptBy_mono (matchedCalls_subset h) hkept⟩
  · rw [if_neg hwide]
    split_ifs at hmem
    · exact matchedEvents_subset h (List.mem_of_mem_filter hmem)
    · exact matchedEvents_subset h hmem

/-! ## The result -/

theorem mem_ids {id : Nat} :
    id ∈ (selectEvents events filters start).map SelectedEvent.id ↔
      (∃ event ∈ selectedEvents events filters start, event.id = id) ∨
        ∃ event ∈ events, isContext (selectedEvents events filters start) event = true ∧
          event.id = id := by
  simp only [selectEvents, List.mem_map, List.mem_mergeSort, List.mem_append, List.mem_filter]
  constructor
  · rintro ⟨event, hselected | ⟨original, ⟨hmem, hcontext⟩, rfl⟩, rfl⟩
    · exact Or.inl ⟨event, hselected, rfl⟩
    · exact Or.inr ⟨original, hmem, hcontext, rfl⟩
  · rintro (⟨event, hselected, rfl⟩ | ⟨event, hmem, hcontext, rfl⟩)
    · exact ⟨event, Or.inl hselected, rfl⟩
    · exact ⟨event.asContext, Or.inr ⟨event, ⟨hmem, hcontext⟩, rfl⟩, rfl⟩

theorem ids_subset (h : narrow.Narrows wide) :
    (selectEvents events narrow start).map SelectedEvent.id ⊆
      (selectEvents events wide start).map SelectedEvent.id := by
  intro id hid
  have hsubset : selectedEvents events narrow start ⊆ selectedEvents events wide start :=
    selectedEvents_subset h
  rcases mem_ids.mp hid with ⟨event, hselected, rfl⟩ | ⟨event, hmem, hcontext, rfl⟩
  · exact mem_ids.mpr (Or.inl ⟨event, hsubset hselected, rfl⟩)
  · -- A context event may be one that the wider filters select themselves.
    by_cases hpresent : event.id ∈ (selectedEvents events wide start).map SelectedEvent.id
    · obtain ⟨other, hother, heq⟩ := List.mem_map.mp hpresent
      exact mem_ids.mpr (Or.inl ⟨other, hother, heq⟩)
    · refine mem_ids.mpr (Or.inr ⟨event, hmem, ?_, rfl⟩)
      simp only [isContext, Bool.and_eq_true, Bool.not_eq_true', List.contains_eq_mem,
        decide_eq_false_iff_not] at hcontext ⊢
      obtain ⟨⟨hkind, -⟩, hsockets⟩ := hcontext
      exact ⟨⟨hkind, hpresent⟩, meets_mono (sockets_subset hsubset) (List.Subset.refl _) hsockets⟩

theorem selectedEvents_sublist : (selectedEvents events filters start).Sublist events := by
  unfold selectedEvents
  split_ifs
  · exact List.filter_sublist.trans List.filter_sublist
  · exact List.filter_sublist

/-- Ids stay distinct. -/
theorem nodup_ids (hunique : (events.map SelectedEvent.id).Nodup) :
    ((selectEvents events filters start).map SelectedEvent.id).Nodup := by
  refine ((List.mergeSort_perm _ _).map SelectedEvent.id).nodup_iff.mpr ?_
  have hcontext : ((events.filter (isContext (selectedEvents events filters start))).map
      SelectedEvent.asContext).map SelectedEvent.id =
        (events.filter (isContext (selectedEvents events filters start))).map SelectedEvent.id := by
    rw [List.map_map]
    rfl
  rw [List.map_append, hcontext]
  refine List.nodup_append.mpr ⟨?_, ?_, ?_⟩
  · exact hunique.sublist (selectedEvents_sublist.map _)
  · exact hunique.sublist (List.filter_sublist.map _)
  · rintro id hselected other hother rfl
    obtain ⟨event, hevent, rfl⟩ := List.mem_map.mp hother
    have hout := (List.mem_filter.mp hevent).2
    simp only [isContext, Bool.and_eq_true, Bool.not_eq_true', List.contains_eq_mem,
      decide_eq_false_iff_not] at hout
    exact hout.1.2 hselected

/-- The selected events are in the order of their times, and then of their ids. -/
theorem pairwise_keyLe : (selectEvents events filters start).Pairwise fun first second =>
    first.ts < second.ts ∨ (first.ts = second.ts ∧ first.id ≤ second.id) := by
  have htrans (first second third : SelectedEvent) (h : keyLe first second = true)
      (hnext : keyLe second third = true) : keyLe first third = true := by
    simp only [keyLe, Bool.or_eq_true, Bool.and_eq_true, decide_eq_true_eq, beq_iff_eq] at h hnext ⊢
    omega
  have htotal (first second : SelectedEvent) :
      (keyLe first second || keyLe second first) = true := by
    simp only [keyLe, Bool.or_eq_true, Bool.and_eq_true, decide_eq_true_eq, beq_iff_eq]
    omega
  have hsorted := List.pairwise_mergeSort htrans htotal
    (selectedEvents events filters start ++
      (events.filter (isContext (selectedEvents events filters start))).map SelectedEvent.asContext)
  refine hsorted.imp fun {first second} hle => ?_
  simpa [keyLe] using hle

/-- The events selected from events of different ids have different ids and are in the order of time
and id. A key more, a smaller window or fewer values select no other events. -/
theorem selectEvents_monotone (hunique : (events.map SelectedEvent.id).Nodup) (start : Int)
    (filters : Filters) :
    (∀ key values, filters.list key = none →
        (selectEvents events (filters.setList key values) start).map SelectedEvent.id ⊆
          (selectEvents events filters start).map SelectedEvent.id) ∧
      (∀ (key : TimeKey) limit, (∀ old, filters.time key = some old → key.Tightens limit old) →
        (selectEvents events (filters.setTime key limit) start).map SelectedEvent.id ⊆
          (selectEvents events filters start).map SelectedEvent.id) ∧
      (∀ key values value, filters.list key = some values →
        (selectEvents events filters start).map SelectedEvent.id ⊆
          (selectEvents events (filters.setList key (values ++ [value])) start).map
            SelectedEvent.id) ∧
      ((selectEvents events filters start).map SelectedEvent.id).Nodup ∧
      (selectEvents events filters start).Pairwise fun first second =>
        first.ts < second.ts ∨ (first.ts = second.ts ∧ first.id < second.id) := by
  refine ⟨fun key values hnone => ids_subset (Filters.Narrows.setList hnone values),
    fun key limit htight => ids_subset (Filters.Narrows.setTime htight),
    fun key values value hsome => ids_subset (Filters.Narrows.of_addValue hsome value),
    nodup_ids hunique, ?_⟩
  have hdistinct : (selectEvents events filters start).Pairwise fun first second =>
      first.id ≠ second.id :=
    List.pairwise_map.mp (nodup_ids hunique)
  refine (pairwise_keyLe.and hdistinct).imp fun {first second} h => ?_
  omega

/-- A call and the allocation of its socket. -/
def callOfSocket : List SelectedEvent :=
  [⟨1, 5, 0, .socket, "socket allocation", .none, .none, .none, .none, [], [.text "a"],
    [], [], [], [],
      .none, .none, .none, false⟩,
    ⟨2, 9, 4, .syscall, "sendto", .number 7, .none, .none, .none, [], [.text "a"], [], [], [],
      [.text "sendto"],
      .none, .none, .number 3, false⟩]

/-- A filter of users on a call and its socket. -/
theorem selectEvents_monotone_call :
    (selectEvents callOfSocket (Filters.setList ⟨fun _ => none, fun _ => none⟩ .uids [.number 7])
      0).map
        SelectedEvent.id ⊆
      (selectEvents callOfSocket ⟨fun _ => none, fun _ => none⟩ 0).map SelectedEvent.id :=
  (selectEvents_monotone (by decide : (callOfSocket.map SelectedEvent.id).Nodup) 0
    ⟨fun _ => none, fun _ => none⟩).1 .uids [.number 7] rfl

end Anettrace.NetworkReport
