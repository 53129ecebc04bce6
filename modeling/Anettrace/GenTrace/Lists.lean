import Anettrace.GenTrace.Model

/-!
# The lists of the generated catalogue

`init_trace_group` puts every group and every trace on the lists where `trace.yaml` has it. The
statements add each node once, since a variable is defined once in a C file; so every list has what
the statements add to it, in their order, and the statements follow the children of each group.
-/

namespace Anettrace.GenTrace

open Library
open Library.Cycles
open Anettrace.Lists

def Address.isHead : Address → Bool
  | .groupChildren _ | .groupTraces _ | .traceRules _ | .traceList => true
  | _ => false

/-- The entry of a variable on a list. -/
def Definition.node : Definition → Address
  | .group name => .groupList name
  | .trace name => .traceAll name
  | .traceList name copy => .traceListList name copy
  | .rule name index => .ruleList name index

/-- The nodes that are added to a list, in order. -/
def addedTo (head : Address) (statements : List Statement) : List Address :=
  statements.filterMap fun statement =>
    match statement with
    | .listAddTail new other => if other = head then some new else none
    | _ => none

/-- The nodes that are added to any list. -/
def news (statements : List Statement) : List Address :=
  statements.filterMap fun statement =>
    match statement with
    | .listAddTail new _ => some new
    | _ => none

variable {statements first second : List Statement} {head new place : Address}

@[simp] theorem addedTo_append :
    addedTo head (first ++ second) = addedTo head first ++ addedTo head second :=
  List.filterMap_append

@[simp] theorem news_append : news (first ++ second) = news first ++ news second :=
  List.filterMap_append

theorem mem_addedTo : new ∈ addedTo head statements ↔ .listAddTail new head ∈ statements := by
  unfold addedTo
  rw [List.mem_filterMap]
  constructor
  · rintro ⟨statement, hmem, hsome⟩
    cases statement with
    | listAddTail other list =>
        by_cases hlist : list = head
        case pos =>
          obtain rfl : other = new := by simpa [hlist] using hsome
          exact hlist ▸ hmem
        case neg => simp [hlist] at hsome
    | allTraces index name => simp at hsome
    | backup name value => simp at hsome
  · exact fun hmem => ⟨_, hmem, by simp⟩

theorem mem_news : new ∈ news statements ↔ ∃ head, .listAddTail new head ∈ statements := by
  unfold news
  rw [List.mem_filterMap]
  constructor
  · rintro ⟨statement, hmem, hsome⟩
    cases statement with
    | listAddTail other list =>
        obtain rfl : other = new := by simpa using hsome
        exact ⟨list, hmem⟩
    | allTraces index name => simp at hsome
    | backup name value => simp at hsome
  · exact fun ⟨_, hmem⟩ => ⟨_, hmem, rfl⟩

/-- Every statement adds an entry to a list. -/
def Kinds (statements : List Statement) : Prop :=
  ∀ new head, .listAddTail new head ∈ statements → new.isHead = false ∧ head.isHead = true

def listsAfter (statements : List Statement) : Heads Address :=
  ⟨fun place => if place.isHead then some (addedTo place statements) else none⟩

theorem listsAfter_some {entries : List Address} (h : listsAfter statements head = some entries) :
    head.isHead = true ∧ entries = addedTo head statements := by
  have h : (if head.isHead then some (addedTo head statements) else none) = some entries := h
  by_cases hhead : head.isHead = true
  case pos =>
    rw [if_pos hhead] at h
    exact ⟨hhead, (Option.some.inj h).symm⟩
  case neg =>
    rw [if_neg hhead] at h
    cases h

/-- The definitions initialise the heads of all lists. -/
theorem static_family : Family staticLinks (listsAfter []) := by
  have hcycle : ∀ head : Address, head.isHead = true → Cycle staticLinks head [] := by
    intro head hhead
    have hinitialised : head.initialised = true := by
      cases head <;> first | rfl | cases hhead
    refine ⟨List.IsChain.cons_cons ⟨?_, ?_⟩ (List.IsChain.singleton head),
      List.nodup_singleton head⟩
    · exact if_pos hinitialised
    · exact if_pos hinitialised
  refine ⟨?_, ?_⟩
  · intro head entries h
    obtain ⟨hhead, rfl⟩ := listsAfter_some h
    exact hcycle head hhead
  · intro head entries other others h h' hne
    obtain ⟨-, rfl⟩ := listsAfter_some h
    obtain ⟨-, rfl⟩ := listsAfter_some h'
    intro place hmem hmem'
    exact hne ((List.mem_singleton.mp hmem).symm.trans (List.mem_singleton.mp hmem'))

theorem listsAfter_free (hnew : new.isHead = false) (hout : new ∉ news statements) :
    Free (listsAfter statements) new := by
  intro head entries h hmem
  obtain ⟨hhead, rfl⟩ := listsAfter_some h
  rcases List.mem_cons.mp hmem with rfl | hmem
  · rw [hhead] at hnew
    cases hnew
  · exact hout (mem_news.mpr ⟨head, mem_addedTo.mp hmem⟩)

theorem executed_family (hkinds : Kinds statements) (hnodup : (news statements).Nodup) :
    Family (statements.foldl Program.execute Program.start).links (listsAfter statements) := by
  induction statements using List.reverseRecOn with
  | nil => exact static_family
  | append_singleton earlier statement ih =>
      rw [news_append] at hnodup
      obtain ⟨hearlier, -, hapart⟩ := List.nodup_append.mp hnodup
      have hkept := ih (fun new head hmem => hkinds new head (List.mem_append_left _ hmem)) hearlier
      rw [List.foldl_concat]
      cases statement with
      | listAddTail new head =>
          obtain ⟨hnew, hhead⟩ :=
            hkinds new head (List.mem_append_right _ (List.mem_singleton_self _))
          -- no earlier statement adds this node, so it is on no list yet
          have hfree := @listsAfter_free earlier new hnew fun hmem =>
            hapart new hmem new (List.mem_singleton_self new) rfl
          have hlist : listsAfter earlier head = some (addedTo head earlier ++ []) := by
            rw [List.append_nil]
            exact if_pos hhead
          have hlists : listsAfter (earlier ++ [.listAddTail new head]) =
              (listsAfter earlier).put head (addedTo head earlier ++ [new]) := by
            refine Keyed.ext fun other => ?_
            show (if other.isHead then some _ else none) = _
            rw [addedTo_append]
            by_cases hother : other = head
            case pos =>
              rw [hother, Keyed.put_same, if_pos hhead]
              simp [addedTo]
            case neg =>
              rw [Keyed.put_other _ hother]
              show _ = if other.isHead then some (addedTo other earlier) else none
              have hne : head ≠ other := fun heq => hother heq.symm
              simp [addedTo, hne]
          rw [hlists]
          exact listAddTail_kept hkept hfree hlist
      | allTraces index name =>
          have hsame : listsAfter (earlier ++ [.allTraces index name]) = listsAfter earlier := by
            simp [listsAfter, addedTo]
          rw [hsame]
          exact hkept
      | backup name value =>
          have hsame : listsAfter (earlier ++ [.backup name value]) = listsAfter earlier := by
            simp [listsAfter, addedTo]
          rw [hsame]
          exact hkept

/-! ## What is generated -/

/-- The variable that a list belongs to. -/
def Address.owner : Address → Option Definition
  | .groupChildren name | .groupTraces name => some (.group name)
  | .traceRules name => some (.trace name)
  | _ => none

def tracesOf (defines : List Definition) : List Name :=
  defines.filterMap fun definition =>
    match definition with
    | .trace name => some name
    | _ => none

/-- The elements of `all_traces` that are assigned, in order. -/
def assigned (statements : List Statement) : List (Name × Nat) :=
  statements.filterMap fun statement =>
    match statement with
    | .allTraces index name => some (name, index)
    | _ => none

@[simp] theorem tracesOf_append {defines more : List Definition} :
    tracesOf (defines ++ more) = tracesOf defines ++ tracesOf more :=
  List.filterMap_append

@[simp] theorem assigned_append : assigned (first ++ second) = assigned first ++ assigned second :=
  List.filterMap_append

/-- What a part of the output that belongs to a group has: the nodes of the variables it defines are
added, to lists of the group and of these variables, and the traces it defines have consecutive
indices. -/
structure Emits (parent : Name) (start last : Nat) (output : Output) : Prop where
  nodes : (news output.init).Perm (output.defines.map Definition.node)
  kinds : Kinds output.init
  heads : ∀ new head, .listAddTail new head ∈ output.init → ∀ owner, head.owner = some owner →
    owner = .group parent ∨ owner ∈ output.defines
  all : addedTo .traceList output.init = (tracesOf output.defines).map .traceAll
  indices : assigned output.init = (tracesOf output.defines).zipIdx start
  count : last = start + (tracesOf output.defines).length

variable {parent name : Name} {start middle last : Nat} {output one other : Output}

/-- A part without statements. -/
theorem Emits.nothing : Emits parent start start ⟨[], []⟩ where
  nodes := List.Perm.refl []
  kinds := fun _ _ hmem => absurd hmem List.not_mem_nil
  heads := fun _ _ hmem => absurd hmem List.not_mem_nil
  all := rfl
  indices := rfl
  count := rfl

/-- Two parts of a group. -/
theorem Emits.append (hone : Emits parent start middle one)
    (hother : Emits parent middle last other) :
    Emits parent start last (one.append other) where
  nodes := by
    show (news (one.init ++ other.init)).Perm ((one.defines ++ other.defines).map Definition.node)
    rw [news_append, List.map_append]
    exact hone.nodes.append hother.nodes
  kinds := by
    intro new head hmem
    rcases List.mem_append.mp hmem with hmem | hmem
    · exact hone.kinds new head hmem
    · exact hother.kinds new head hmem
  heads := by
    intro new head hmem owner howner
    rcases List.mem_append.mp hmem with hmem | hmem
    · exact (hone.heads new head hmem owner howner).imp_right (List.mem_append_left _)
    · exact (hother.heads new head hmem owner howner).imp_right (List.mem_append_right _)
  all := by
    show addedTo .traceList (one.init ++ other.init) =
      (tracesOf (one.defines ++ other.defines)).map .traceAll
    rw [addedTo_append, tracesOf_append, List.map_append, hone.all, hother.all]
  indices := by
    show assigned (one.init ++ other.init) = (tracesOf (one.defines ++ other.defines)).zipIdx start
    rw [assigned_append, tracesOf_append, List.zipIdx_append, hone.indices,
      hother.indices, hone.count,
      Nat.add_comm]
  count := by
    show last = start + (tracesOf (one.defines ++ other.defines)).length
    rw [tracesOf_append, List.length_append, hother.count, hone.count, Nat.add_assoc]

/-- A group that is defined in another one, and what is in it. -/
theorem Emits.nest (hinner : Emits name start last output) :
    Emits parent start last
      (Output.append ⟨[.group name], [.listAddTail (.groupList name) (.groupChildren parent)]⟩
        output) where
  nodes := by
    show (news (_ :: output.init)).Perm
      (Definition.node (.group name) :: output.defines.map Definition.node)
    exact hinner.nodes.cons _
  kinds := by
    intro new head hmem
    rcases List.mem_cons.mp hmem with heq | hmem
    · obtain ⟨rfl, rfl⟩ := Statement.listAddTail.inj heq
      exact ⟨rfl, rfl⟩
    · exact hinner.kinds new head hmem
  heads := by
    intro new head hmem owner howner
    rcases List.mem_cons.mp hmem with heq | hmem
    · obtain ⟨rfl, rfl⟩ := Statement.listAddTail.inj heq
      exact .inl (Option.some.inj howner).symm
    · right
      rcases hinner.heads new head hmem owner howner with rfl | hdefined
      · exact List.mem_cons_self
      · exact List.mem_cons_of_mem _ hdefined
  all := hinner.all
  indices := hinner.indices
  count := hinner.count

/-- Statements that add nothing and assign no element of `all_traces`. -/
theorem Emits.plain {statements : List Statement}
    (h : ∀ statement ∈ statements, ∃ name value, statement = .backup name value) :
    Emits parent start start ⟨[], statements⟩ := by
  have hnone : ∀ new head, .listAddTail new head ∉ statements := by
    intro new head hmem
    obtain ⟨name, value, heq⟩ := h _ hmem
    cases heq
  refine ⟨?_, ?_, ?_, ?_, ?_, rfl⟩
  · have hnews : news statements = [] := by
      refine List.filterMap_eq_nil_iff.mpr fun statement hmem => ?_
      obtain ⟨name, value, rfl⟩ := h statement hmem
      rfl
    rw [hnews]
    rfl
  · exact fun new head hmem => absurd hmem (hnone new head)
  · exact fun new head hmem => absurd hmem (hnone new head)
  · refine List.filterMap_eq_nil_iff.mpr fun statement hmem => ?_
    obtain ⟨name, value, rfl⟩ := h statement hmem
    rfl
  · refine List.filterMap_eq_nil_iff.mpr fun statement hmem => ?_
    obtain ⟨name, value, rfl⟩ := h statement hmem
    rfl

/-- A list of a variable that a part neither belongs to nor defines stays. -/
theorem Emits.untouched {owner : Definition} (h : Emits parent start last output)
    (hhead : head.owner = some owner) (hne : owner ≠ .group parent)
    (hout : owner ∉ output.defines) :
    addedTo head output.init = [] := by
  refine List.eq_nil_iff_forall_not_mem.mpr fun new hmem => ?_
  rcases h.heads new head (mem_addedTo.mp hmem) owner hhead with heq | hdefined
  · exact hne heq
  · exact hout hdefined

theorem append_assoc (one other output : Output) :
    (one.append other).append output = one.append (other.append output) := by
  simp [Output.append]

section

variable {ι : Type} [DecidableEq ι] {traces : ι → YamlTrace ι} {object : ι}
  {state later final : GenState ι}
  {forest children rest : Forest ι}

omit [DecidableEq ι] in
/-- A name is counted, and nothing else changes. -/
theorem countName_kept (name : Name) (state : GenState ι) :
    (countName name state).2.traceIndex = state.traceIndex ∧
      (countName name state).2.defineName = state.defineName := by
  unfold countName
  cases state.globalNames name with
  | none => exact ⟨rfl, rfl⟩
  | some count => exact ⟨rfl, rfl⟩

theorem genTraceList_emits (object : ι) (name parent : Name) (state : GenState ι) :
    Emits parent start start (genTraceList object name parent state).2 where
  nodes := List.Perm.refl _
  kinds := by
    intro new head hmem
    obtain ⟨rfl, rfl⟩ := Statement.listAddTail.inj (List.mem_singleton.mp hmem)
    exact ⟨rfl, rfl⟩
  heads := by
    intro new head hmem owner howner
    obtain ⟨rfl, rfl⟩ := Statement.listAddTail.inj (List.mem_singleton.mp hmem)
    exact .inl (Option.some.inj howner).symm
  all := rfl
  indices := rfl
  count := rfl

theorem genRules_traces (name : Name) (rules : Nat) :
    tracesOf (genRules name rules).defines = [] := by
  refine List.filterMap_eq_nil_iff.mpr fun definition hdefinition => ?_
  obtain ⟨index, -, rfl⟩ := List.mem_map.mp hdefinition
  rfl

theorem mem_genRules {rules : Nat} (hmem : .listAddTail new head ∈ (genRules name rules).init) :
    ∃ index, new = .ruleList name index ∧ head = .traceRules name := by
  obtain ⟨index, -, heq⟩ := List.mem_map.mp hmem
  obtain ⟨rfl, rfl⟩ := Statement.listAddTail.inj heq
  exact ⟨index, rfl, rfl⟩

theorem genRules_other {rules : Nat} (hhead : head ≠ .traceRules name) :
    addedTo head (genRules name rules).init = [] := by
  refine List.eq_nil_iff_forall_not_mem.mpr fun new hmem => ?_
  obtain ⟨index, -, heq⟩ := mem_genRules (mem_addedTo.mp hmem)
  exact hhead heq

theorem genRules_added (name : Name) (rules : Nat) :
    addedTo (.traceRules name) (genRules name rules).init =
      (List.range rules).map (.ruleList name) := by
  unfold addedTo genRules
  rw [List.filterMap_map]
  exact (List.filterMap_congr fun index _ => if_pos rfl).trans (congrFun List.filterMap_eq_map' _)

theorem genRules_nodes (name : Name) (rules : Nat) :
    news (genRules name rules).init = (genRules name rules).defines.map Definition.node := by
  unfold news genRules
  rw [List.map_map, List.filterMap_map]
  exact congrFun List.filterMap_eq_map' _

theorem genRules_assigned (name : Name) (rules : Nat) :
    assigned (genRules name rules).init = [] := by
  refine List.filterMap_eq_nil_iff.mpr fun statement hstatement => ?_
  obtain ⟨index, -, rfl⟩ := List.mem_map.mp hstatement
  rfl

theorem genTraceDefine_emits (name parent : Name) (rules index : Nat) :
    Emits parent index (index + 1) (genTraceDefine name parent rules index) := by
  have htraces : tracesOf (genTraceDefine name parent rules index).defines = [name] := by
    show name :: tracesOf (genRules name rules).defines = [name]
    rw [genRules_traces]
  have hrest : ∀ {new head}, .listAddTail new head ∈ (genTraceDefine name parent rules index).init →
      (∃ index, new = .ruleList name index ∧ head = .traceRules name) ∨
        (new = .traceListList name 1 ∧ head = .groupTraces parent) ∨
        (new = .traceAll name ∧ head = .traceList) := by
    intro new head hmem
    rcases List.mem_append.mp hmem with hmem | hmem
    · exact .inl (mem_genRules hmem)
    · simp only [List.mem_cons, Statement.listAddTail.injEq, reduceCtorEq,
        List.not_mem_nil, or_false,
        false_or] at hmem
      exact .inr hmem
  refine ⟨?_, ?_, ?_, ?_, ?_, ?_⟩
  · show (news ((genRules name rules).init ++ _)).Perm
      (_ :: _ :: (genRules name rules).defines.map _)
    rw [news_append, genRules_nodes]
    -- the source adds the rules first, and then the trace
    show List.Perm (_ ++ [Address.traceListList name 1, .traceAll name]) _
    refine List.perm_append_comm.trans ?_
    exact List.Perm.swap _ _ _
  · intro new head hmem
    rcases hrest hmem with ⟨index, rfl, rfl⟩ | ⟨rfl, rfl⟩ | ⟨rfl, rfl⟩
    · exact ⟨rfl, rfl⟩
    · exact ⟨rfl, rfl⟩
    · exact ⟨rfl, rfl⟩
  · intro new head hmem owner howner
    rcases hrest hmem with ⟨index, rfl, rfl⟩ | ⟨rfl, rfl⟩ | ⟨rfl, rfl⟩
    · exact .inr ((Option.some.inj howner) ▸ List.mem_cons_self)
    · exact .inl (Option.some.inj howner).symm
    · cases howner
  · rw [htraces]
    show addedTo .traceList ((genRules name rules).init ++ _) = _
    rw [addedTo_append, genRules_other (by simp)]
    rfl
  · rw [htraces]
    show assigned ((genRules name rules).init ++ _) = _
    rw [assigned_append, genRules_assigned]
    rfl
  · rw [htraces]
    rfl

theorem genTrace_emits (traces : ι → YamlTrace ι) (object : ι) (parent : Name)
    (state : GenState ι) :
    Emits parent state.traceIndex (genTrace traces object parent state).1.traceIndex
        (genTrace traces object parent state).2 ∧
      (∃ name copy, (genTrace traces object parent state).1.defineName object = some name ∧
        addedTo (.groupTraces parent) (genTrace traces object parent state).2.init =
          [.traceListList name copy]) ∧
      addedTo (.groupChildren parent) (genTrace traces object parent state).2.init = [] ∧
      ∀ other name, state.defineName other = some name →
        (genTrace traces object parent state).1.defineName other = some name := by
  unfold genTrace
  cases hname : state.defineName object with
  | some name =>
      dsimp only
      refine ⟨genTraceList_emits object name parent state,
        ⟨name, state.listCount object + 1, hname, ?_⟩,
        ?_, fun _ _ h => h⟩
      · simp [genTraceList, addedTo]
      · simp [genTraceList, addedTo]
  | none =>
      obtain ⟨hindex, hnames⟩ := countName_kept (underscored (traces object).name) state
      dsimp only
      refine ⟨?_, ⟨(genTraceName (traces object).name state).1, 1, Function.update_self _ _ _, ?_⟩,
        ?_, ?_⟩
      · rw [show (genTraceName (traces object).name state).2.traceIndex =
          state.traceIndex from hindex]
        exact genTraceDefine_emits _ _ _ _
      · show addedTo _ ((genRules _ _).init ++ _) = _
        rw [addedTo_append, genRules_other (by simp)]
        simp [addedTo]
      · show addedTo _ ((genRules _ _).init ++ _) = _
        rw [addedTo_append, genRules_other (by simp)]
        simp [addedTo]
      · intro other name hother
        have hne : other ≠ object := by
          rintro rfl
          rw [hname] at hother
          cases hother
        exact (Function.update_of_ne hne _ _).trans ((congrFun hnames other).trans hother)

omit [DecidableEq ι] in
/-- The second loop of `gen_group` sets backups. -/
theorem genBackups_plain {backups : List Statement}
    (h : genBackups traces state forest = some backups) :
    ∀ statement ∈ backups, ∃ name value, statement = .backup name value := by
  induction forest generalizing backups with
  | nil =>
      cases h
      simp
  | group name children rest _ ih => exact ih h
  | trace object rest ih =>
      simp only [genBackups, Option.bind_eq_bind, Option.bind_eq_some_iff] at h
      obtain ⟨name, -, value, -, later, hlater, heq⟩ := h
      cases heq
      intro statement hmem
      rcases List.mem_cons.mp hmem with rfl | hmem
      · exact ⟨name, value, rfl⟩
      · exact ih hlater statement hmem

theorem genChildren_group {name parent : Name} {output : Output}
    (h : genChildren traces parent (.group name children rest) state = some (final, output)) :
    ∃ later inner backups others,
      genChildren traces (genGroupName name state).1 children (genGroupName name state).2 =
        some (later, inner) ∧
      genBackups traces later children = some backups ∧
      genChildren traces parent rest later = some (final, others) ∧
      output = (Output.append
        ⟨[.group (genGroupName name state).1],
          [.listAddTail (.groupList (genGroupName name state).1) (.groupChildren parent)]⟩
        (inner.append ⟨[], backups⟩)).append others := by
  simp only [genChildren, Option.bind_eq_bind, Option.bind_eq_some_iff] at h
  obtain ⟨⟨later, inner⟩, hinner, backups, hbackups, ⟨last, others⟩, hothers, heq⟩ := h
  obtain ⟨rfl, rfl⟩ := Prod.mk.inj (Option.some.inj heq)
  exact ⟨later, inner, backups, others, hinner, hbackups, hothers, (append_assoc _ _ _).symm⟩

theorem genChildren_trace {parent : Name} {output : Output}
    (h : genChildren traces parent (.trace object rest) state = some (final, output)) :
    ∃ others, genChildren traces parent rest (genTrace traces object parent state).1 =
      some (final, others) ∧
      output = (genTrace traces object parent state).2.append others := by
  simp only [genChildren, Option.bind_eq_bind, Option.bind_eq_some_iff] at h
  obtain ⟨⟨last, others⟩, hothers, heq⟩ := h
  obtain ⟨rfl, rfl⟩ := Prod.mk.inj (Option.some.inj heq)
  exact ⟨others, hothers, rfl⟩

/-- What the first loop of `gen_group` emits; traces that have a name keep it. -/
theorem genChildren_emits {parent : Name} {output : Output}
    (h : genChildren traces parent forest state = some (final, output)) :
    Emits parent state.traceIndex final.traceIndex output ∧
      ∀ other name, state.defineName other = some name → final.defineName other = some name := by
  induction forest generalizing parent state final output with
  | nil =>
      cases h
      exact ⟨Emits.nothing, fun _ _ h => h⟩
  | group name children rest ihchildren ihrest =>
      obtain ⟨later, inner, backups, others, hinner, hbackups, hothers, rfl⟩ := genChildren_group h
      obtain ⟨hindex, hnames⟩ :=
        countName_kept (underscored (['g', 'r', 'o', 'u', 'p', '_'] ++ name)) state
      obtain ⟨hinner, hkept⟩ := ihchildren hinner
      obtain ⟨hothers, hkept'⟩ := ihrest hothers
      rw [show (genGroupName name state).2.traceIndex = state.traceIndex from hindex] at hinner
      refine ⟨((hinner.append (Emits.plain (genBackups_plain hbackups))).nest).append hothers, ?_⟩
      intro other found hother
      exact hkept' other found (hkept other found ((congrFun hnames other).trans hother))
  | trace object rest ih =>
      obtain ⟨others, hothers, rfl⟩ := genChildren_trace h
      obtain ⟨hown, -, -, hkept⟩ := genTrace_emits traces object parent state
      obtain ⟨hothers, hkept'⟩ := ih hothers
      exact ⟨hown.append hothers, fun other name hother =>
        hkept' other name (hkept other name hother)⟩

end

end Anettrace.GenTrace
