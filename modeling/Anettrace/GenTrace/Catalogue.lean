import Anettrace.GenTrace.Lists

/-!
# The catalogue as it is written

The lists that `init_trace_group` leaves are walked: the children of every group are its groups, in
the order of `trace.yaml`, and its traces are entries of its traces, each with the variable of its
trace. A trace gets its variable where it first stands, with its rules, and keeps it. Its backup is
set by the group that it is in, once for each group; two traces never share a variable, so setting a
backup again sets the same.
-/

namespace Anettrace.GenTrace

open Library
open Library.Cycles
open Anettrace.Lists

/-- A list of a variable that the output defines, and what is added to it. -/
def Filled (output : Output) (head : Address) (entries : List Address) : Prop :=
  (∃ owner ∈ output.defines, head.owner = some owner) ∧ addedTo head output.init = entries

variable {parent name : Name} {start last : Nat} {output one other : Output} {head : Address}
  {entries : List Address} {backups : List Statement}

theorem addedTo_plain (h : ∀ statement ∈ backups, ∃ name value, statement = .backup name value) :
    addedTo head backups = [] := by
  refine List.filterMap_eq_nil_iff.mpr fun statement hmem => ?_
  obtain ⟨name, value, rfl⟩ := h statement hmem
  rfl

/-- A later part leaves the lists of the variables before it. -/
theorem Filled.before (h : Filled one head entries) (hother : Emits parent start last other)
    (hparent : .group parent ∉ one.defines) (hdefines : (one.append other).defines.Nodup) :
    Filled (one.append other) head entries := by
  obtain ⟨⟨owner, howner, hhead⟩, rfl⟩ := h
  refine ⟨⟨owner, List.mem_append_left _ howner, hhead⟩, ?_⟩
  have hnone : addedTo head other.init = [] := by
    refine hother.untouched hhead ?_ ?_
    · rintro rfl
      exact hparent howner
    · exact fun hmem => (List.nodup_append.mp hdefines).2.2 _ howner _ hmem rfl
  show addedTo head (one.init ++ other.init) = _
  rw [addedTo_append, hnone, List.append_nil]

/-- An earlier part has nothing on the lists of the variables after it. -/
theorem Filled.after (h : Filled other head entries) (hone : Emits parent start last one)
    (hparent : .group parent ∉ other.defines) (hdefines : (one.append other).defines.Nodup) :
    Filled (one.append other) head entries := by
  obtain ⟨⟨owner, howner, hhead⟩, rfl⟩ := h
  refine ⟨⟨owner, List.mem_append_right _ howner, hhead⟩, ?_⟩
  have hnone : addedTo head one.init = [] := by
    refine hone.untouched hhead ?_ ?_
    · rintro rfl
      exact hparent howner
    · exact fun hmem => (List.nodup_append.mp hdefines).2.2 _ hmem _ howner rfl
  show addedTo head (one.init ++ other.init) = _
  rw [addedTo_append, hnone, List.nil_append]

/-- A group with what is in it. -/
def nested (parent own : Name) (inner : Output) (backups : List Statement) : Output :=
  Output.append ⟨[.group own], [.listAddTail (.groupList own) (.groupChildren parent)]⟩
    (inner.append ⟨[], backups⟩)

theorem nested_added {own : Name} {inner : Output}
    (hbackups : ∀ statement ∈ backups, ∃ name value, statement = .backup name value) :
    addedTo head (nested parent own inner backups).init =
      addedTo head [.listAddTail (.groupList own) (.groupChildren parent)] ++
        addedTo head inner.init := by
  show addedTo head (_ ++ (inner.init ++ backups)) = _
  rw [addedTo_append, addedTo_append, addedTo_plain hbackups, List.append_nil]

theorem nested_defines {own : Name} {inner : Output} :
    (nested parent own inner backups).defines = .group own :: inner.defines := by
  show .group own :: (inner.defines ++ []) = _
  rw [List.append_nil]

theorem nested_filled {own : Name} {inner : Output} (hhead : head.owner = some (.group own))
    (hother : .groupChildren parent ≠ head)
    (hbackups : ∀ statement ∈ backups, ∃ name value, statement = .backup name value) :
    Filled (nested parent own inner backups) head (addedTo head inner.init) := by
  refine ⟨⟨.group own, ?_, hhead⟩, ?_⟩
  · rw [nested_defines]
    exact List.mem_cons_self
  · rw [nested_added hbackups]
    simp [addedTo, hother]

/-- A nested group has the lists of the variables in it. -/
theorem Filled.nested {own : Name} {inner : Output} (h : Filled inner head entries)
    (hparent : .group parent ∉ inner.defines)
    (hbackups : ∀ statement ∈ backups, ∃ name value, statement = .backup name value) :
    Filled (nested parent own inner backups) head entries := by
  obtain ⟨⟨owner, howner, hhead⟩, rfl⟩ := h
  refine ⟨⟨owner, by rw [nested_defines]; exact List.mem_cons_of_mem _ howner, hhead⟩, ?_⟩
  have hne : (.groupChildren parent : Address) ≠ head := by
    rintro rfl
    obtain rfl : .group parent = owner := Option.some.inj hhead
    exact hparent howner
  rw [nested_added hbackups]
  simp [addedTo, hne]

/-- What is defined once, in a nested group and what follows it. -/
structure Apart (parent own : Name) (inner others : Output) : Prop where
  group : .group parent ∉ Definition.group own :: inner.defines
  later : .group parent ∉ others.defines
  own : .group own ∉ inner.defines
  nodup : inner.defines.Nodup
  rest : others.defines.Nodup
  disjoint : ∀ definition ∈ inner.defines, definition ∉ others.defines

theorem nested_apart {own : Name} {inner others : Output}
    (hparent : .group parent ∉ ((nested parent own inner backups).append others).defines)
    (hdefines : ((nested parent own inner backups).append others).defines.Nodup) :
    Apart parent own inner others := by
  obtain ⟨hone, hrest, hdisjoint⟩ := List.nodup_append.mp hdefines
  rw [nested_defines] at hone hdisjoint
  obtain ⟨hown, hnodup⟩ := List.nodup_cons.mp hone
  refine ⟨fun hmem => hparent (List.mem_append_left _ ?_), fun hmem =>
    hparent (List.mem_append_right _ hmem),
    hown, hnodup, hrest, ?_⟩
  · rw [nested_defines]
    exact hmem
  · exact fun definition hmem hmem' =>
      hdisjoint definition (List.mem_cons_of_mem _ hmem) definition hmem' rfl

theorem Apart.nested {own : Name} {inner others : Output} (h : Apart parent own inner others) :
    .group parent ∉ (nested parent own inner backups).defines := by
  rw [nested_defines]
  exact h.group

theorem Apart.inner {own : Name} {inner others : Output} (h : Apart parent own inner others) :
    .group parent ∉ inner.defines :=
  fun hmem => h.group (List.mem_cons_of_mem _ hmem)

theorem Apart.ne {own : Name} {inner others : Output} (h : Apart parent own inner others) :
    parent ≠ own := by
  rintro rfl
  exact h.group List.mem_cons_self

variable {ι : Type} {traces : ι → YamlTrace ι} {state final : GenState ι}
  {forest : Forest ι} {object : ι}
  {own : Name} {value : Option Name}

def ruleEntries (traces : ι → YamlTrace ι) (object : ι) (own : Name) : List Address :=
  (List.range (traces object).rules).map (.ruleList own)

/-- Traces have different variables. -/
def Distinct (names : ι → Option Name) : Prop :=
  ∀ one other name, names one = some name → names other = some name → one = other

/-- The traces among the children of a group. -/
def Forest.objects : Forest ι → List ι
  | .nil => []
  | .group _ _ rest => rest.objects
  | .trace object rest => object :: rest.objects

/-- A backup keeps its variable. -/
theorem backupName_kept
    (hkept : ∀ other name, state.defineName other = some name → final.defineName other = some name)
    (h : backupName traces state object = some value) :
    backupName traces final object = some value := by
  unfold backupName at h ⊢
  cases hbackup : (traces object).backup with
  | none =>
      rw [hbackup] at h
      exact h
  | some backup =>
      rw [hbackup] at h
      obtain ⟨name, hname, rfl⟩ := Option.map_eq_some_iff.mp h
      exact congrArg (Option.map some) (hkept backup name hname)

/-- The second loop of `gen_group` sets the backups of traces. -/
theorem genBackups_backed (h : genBackups traces state forest = some backups)
    (hmem : .backup own value ∈ backups) :
    ∃ object, state.defineName object = some own ∧ backupName traces state object = some value := by
  induction forest generalizing backups with
  | nil =>
      cases h
      cases hmem
  | group name children rest _ ih => exact ih h hmem
  | trace object rest ih =>
      simp only [genBackups, Option.bind_eq_bind, Option.bind_eq_some_iff] at h
      obtain ⟨name, hname, found, hfound, later, hlater, heq⟩ := h
      cases heq
      rcases List.mem_cons.mp hmem with heq | hmem
      · obtain ⟨rfl, rfl⟩ := Statement.backup.inj heq
        exact ⟨object, hname, hfound⟩
      · exact ih hlater hmem

/-- It sets the backup of each trace of the group. -/
theorem genBackups_mem (h : genBackups traces state forest = some backups)
    (hobject : object ∈ forest.objects)
    (hname : state.defineName object = some own) : ∃ value, .backup own value ∈ backups := by
  induction forest generalizing backups with
  | nil => cases hobject
  | group name children rest _ ih => exact ih h hobject
  | trace other rest ih =>
      simp only [genBackups, Option.bind_eq_bind, Option.bind_eq_some_iff] at h
      obtain ⟨name, hother, found, -, later, hlater, heq⟩ := h
      cases heq
      rcases List.mem_cons.mp hobject with rfl | hobject
      · obtain rfl : own = name := Option.some.inj (hname.symm.trans hother)
        exact ⟨found, List.mem_cons_self⟩
      · obtain ⟨value, hmem⟩ := ih hlater hobject
        exact ⟨value, List.mem_cons_of_mem _ hmem⟩

section

variable [DecidableEq ι]

theorem genTrace_named {other : ι}
    (h : (genTrace traces object parent state).1.defineName other = some name) :
    state.defineName other = some name ∨
      other = object ∧ Filled (genTrace traces object parent state).2 (.traceRules name)
        (ruleEntries traces object name) := by
  unfold genTrace at h ⊢
  cases hobject : state.defineName object with
  | some found =>
      rw [hobject] at h
      exact .inl h
  | none =>
      rw [hobject] at h
      dsimp only at h ⊢
      by_cases hother : other = object
      case pos =>
        right
        rw [hother, Function.update_self] at h
        obtain rfl := Option.some.inj h
        refine ⟨hother, ⟨_, List.mem_cons_self, rfl⟩, ?_⟩
        show addedTo _ ((genRules _ _).init ++ _) = _
        rw [addedTo_append, genRules_added]
        simp [addedTo, ruleEntries]
      case neg =>
        rw [Function.update_of_ne hother] at h
        exact .inl ((congrFun (countName_kept _ state).2 other).symm.trans h)

theorem genTrace_backup : .backup own value ∉ (genTrace traces object parent state).2.init := by
  unfold genTrace
  cases state.defineName object with
  | some name => simp [genTraceList]
  | none =>
      intro hmem
      rcases List.mem_append.mp hmem with hmem | hmem
      · obtain ⟨index, -, heq⟩ := List.mem_map.mp hmem
        cases heq
      · simp at hmem

/-- A trace that gets a variable has its rules on the list of the variable. -/
theorem genChildren_rules (h : genChildren traces parent forest state = some (final, output))
    (hparent : .group parent ∉ output.defines) (hdefines : output.defines.Nodup)
    (hname : final.defineName object = some own) :
    state.defineName object = some own ∨
      Filled output (.traceRules own) (ruleEntries traces object own) := by
  induction forest generalizing parent state final output with
  | nil =>
      cases h
      exact .inl hname
  | group name children rest ihchildren ihrest =>
      obtain ⟨later, inner, backups, others, hinner, hbackups, hothers, rfl⟩ := genChildren_group h
      have hapart := nested_apart hparent hdefines
      have hplain := genBackups_plain hbackups
      obtain ⟨hemits, -⟩ := genChildren_emits hinner
      obtain ⟨hemits', -⟩ := genChildren_emits hothers
      have hnested : Emits parent _ _ (nested parent _ inner backups) :=
        (hemits.append (Emits.plain hplain)).nest
      -- the trace got its variable in the rest, in the group, or before
      rcases ihrest hothers hapart.later hapart.rest hname with hname | hfilled
      · rcases ihchildren hinner hapart.own hapart.nodup hname with hname | hfilled
        · exact .inl ((congrFun (countName_kept _ state).2 object).symm.trans hname)
        · exact .inr ((hfilled.nested hapart.inner hplain).before hemits' hapart.nested hdefines)
      · exact .inr (hfilled.after hnested hapart.later hdefines)
  | trace other rest ih =>
      obtain ⟨others, hothers, rfl⟩ := genChildren_trace h
      obtain ⟨hown, -⟩ := genTrace_emits traces other parent state
      obtain ⟨hemits, -⟩ := genChildren_emits hothers
      obtain ⟨-, hrest, -⟩ := List.nodup_append.mp hdefines
      have hbefore : .group parent ∉ (genTrace traces other parent state).2.defines :=
        fun hmem => hparent (List.mem_append_left _ hmem)
      have hlater : .group parent ∉ others.defines := fun hmem =>
        hparent (List.mem_append_right _ hmem)
      rcases ih hothers hlater hrest hname with hname | hfilled
      · rcases genTrace_named hname with hname | ⟨rfl, hfilled⟩
        · exact .inl hname
        · exact .inr (hfilled.before hemits hbefore hdefines)
      · exact .inr (hfilled.after hown hlater hdefines)

theorem Filled.defined (h : Filled output (.traceRules own) entries) :
    .trace own ∈ output.defines := by
  obtain ⟨⟨owner, howner, heq⟩, -⟩ := h
  obtain rfl : .trace own = owner := Option.some.inj heq
  exact howner

/-- Traces get different variables. -/
theorem genChildren_distinct (h : genChildren traces parent forest state = some (final, output))
    (hparent : .group parent ∉ output.defines) (hdefines : output.defines.Nodup)
    (hdistinct : Distinct state.defineName)
    (hfresh : ∀ object name, state.defineName object = some name → .trace name ∉ output.defines) :
    Distinct final.defineName := by
  induction forest generalizing parent state final output with
  | nil =>
      cases h
      exact hdistinct
  | group name children rest ihchildren ihrest =>
      obtain ⟨later, inner, backups, others, hinner, hbackups, hothers, rfl⟩ := genChildren_group h
      have hapart := nested_apart hparent hdefines
      have hnames := (countName_kept (underscored (['g', 'r', 'o', 'u', 'p', '_'] ++ name)) state).2
      have hfirst : Distinct later.defineName := by
        refine ihchildren hinner hapart.own hapart.nodup ?_ ?_
        · exact fun one other name hone hother =>
            hdistinct one other name ((congrFun hnames one).symm.trans hone)
              ((congrFun hnames other).symm.trans hother)
        · intro object found hfound hmem
          refine hfresh object found ((congrFun hnames object).symm.trans hfound)
            (List.mem_append_left _ ?_)
          show _ ∈ (nested parent _ inner backups).defines
          rw [nested_defines]
          exact List.mem_cons_of_mem _ hmem
      -- a variable from inside the group is not defined again in the rest
      refine ihrest hothers hapart.later hapart.rest hfirst fun object found hfound hmem => ?_
      rcases genChildren_rules hinner hapart.own hapart.nodup hfound with hfound | hfilled
      · exact hfresh object found ((congrFun hnames object).symm.trans hfound)
          (List.mem_append_right _ hmem)
      · exact hapart.disjoint _ hfilled.defined hmem
  | trace object rest ih =>
      obtain ⟨others, hothers, rfl⟩ := genChildren_trace h
      obtain ⟨-, hrest, hdisjoint⟩ := List.nodup_append.mp hdefines
      have hlater : .group parent ∉ others.defines := fun hmem =>
        hparent (List.mem_append_right _ hmem)
      refine ih hothers hlater hrest ?_ ?_
      · intro one other name hone hother
        rcases genTrace_named hone with hbefore | ⟨heq, hfilled⟩
        · rcases genTrace_named hother with hbefore' | ⟨-, hfilled⟩
          · exact hdistinct one other name hbefore hbefore'
          · exact absurd (List.mem_append_left _ hfilled.defined) (hfresh one name hbefore)
        · rcases genTrace_named hother with hbefore | ⟨heq', -⟩
          · exact absurd (List.mem_append_left _ hfilled.defined) (hfresh other name hbefore)
          · exact heq.trans heq'.symm
      · intro other name hother hmem
        rcases genTrace_named hother with hother | ⟨-, hfilled⟩
        · exact hfresh other name hother (List.mem_append_right _ hmem)
        · exact hdisjoint _ hfilled.defined _ hmem rfl

theorem genChildren_backed (h : genChildren traces parent forest state = some (final, output))
    (hmem : .backup own value ∈ output.init) :
    ∃ object, final.defineName object = some own ∧ backupName traces final object = some value := by
  induction forest generalizing parent state final output with
  | nil =>
      cases h
      cases hmem
  | group name children rest ihchildren ihrest =>
      obtain ⟨later, inner, backups, others, hinner, hbackups, hothers, rfl⟩ := genChildren_group h
      obtain ⟨-, hkept⟩ := genChildren_emits hothers
      have hmove :
          (∃ object, later.defineName object = some own ∧
            backupName traces later object = some value) →
            ∃ object, final.defineName object = some own ∧
              backupName traces final object = some value :=
        fun ⟨object, hname, hvalue⟩ =>
          ⟨object, hkept object own hname, backupName_kept hkept hvalue⟩
      rcases List.mem_append.mp hmem with hmem | hmem
      · change _ ∈ _ :: (inner.init ++ backups) at hmem
        rcases List.mem_cons.mp hmem with heq | hmem
        · cases heq
        · rcases List.mem_append.mp hmem with hmem | hmem
          · exact hmove (ihchildren hinner hmem)
          · exact hmove (genBackups_backed hbackups hmem)
      · exact ihrest hothers hmem
  | trace object rest ih =>
      obtain ⟨others, hothers, rfl⟩ := genChildren_trace h
      rcases List.mem_append.mp hmem with hmem | hmem
      · exact absurd hmem genTrace_backup
      · exact ih hothers hmem

/-- A trace that gets a variable is a child of the group, or its backup is set. -/
theorem genChildren_backups (h : genChildren traces parent forest state = some (final, output))
    (hname : final.defineName object = some own) :
    state.defineName object = some own ∨ object ∈ forest.objects ∨
      ∃ value, .backup own value ∈ output.init := by
  induction forest generalizing parent state final output with
  | nil =>
      cases h
      exact .inl hname
  | group name children rest ihchildren ihrest =>
      obtain ⟨later, inner, backups, others, hinner, hbackups, hothers, rfl⟩ := genChildren_group h
      rcases ihrest hothers hname with hname | hmem | ⟨value, hmem⟩
      · have hinside : ∀ value, .backup own value ∈ inner.init ++ backups →
            ∃ value, .backup own value ∈
              ((nested parent (genGroupName name state).1 inner backups).append
              others).init :=
          fun value hmem => ⟨value, List.mem_append_left _ (List.mem_cons_of_mem _ hmem)⟩
        rcases ihchildren hinner hname with hfound | hmem | ⟨value, hmem⟩
        · exact .inl ((congrFun (countName_kept _ state).2 object).symm.trans hfound)
        · obtain ⟨value, hmem⟩ := genBackups_mem hbackups hmem hname
          exact .inr (.inr (hinside value (List.mem_append_right _ hmem)))
        · exact .inr (.inr (hinside value (List.mem_append_left _ hmem)))
      · exact .inr (.inl hmem)
      · exact .inr (.inr ⟨value, List.mem_append_right _ hmem⟩)
  | trace other rest ih =>
      obtain ⟨others, hothers, rfl⟩ := genChildren_trace h
      rcases ih hothers hname with hname | hmem | ⟨value, hmem⟩
      · rcases genTrace_named hname with hname | ⟨rfl, -⟩
        · exact .inl hname
        · exact .inr (.inl List.mem_cons_self)
      · exact .inr (.inl (List.mem_cons_of_mem _ hmem))
      · exact .inr (.inr ⟨value, List.mem_append_right _ hmem⟩)

end

/-! ## The tree of the groups -/

variable {root : Forest ι}

/-- What the two lists of a group have, for its children in `trace.yaml`, and so for the groups
among them. -/
inductive Renders (shows : Address → List Address → Prop) (names : ι → Option Name) :
    Forest ι → List Address → List Address → Prop where
  | nil : Renders shows names .nil [] []
  | group {name own : Name} {children rest : Forest ι} {inner lists groups entries : List Address}
      (hgroups : shows (.groupChildren own) inner) (htraces : shows (.groupTraces own) lists)
      (hinner : Renders shows names children inner lists)
        (hrest : Renders shows names rest groups entries) :
      Renders shows names (.group name children rest) (.groupList own :: groups) entries
  | trace {object : ι} {own : Name} {copy : Nat} {rest : Forest ι} {groups entries : List Address}
      (hname : names object = some own) (hrest : Renders shows names rest groups entries) :
      Renders shows names (.trace object rest) groups (.traceListList own copy :: entries)

theorem Renders.mono {shows known : Address → List Address → Prop} {names more : ι → Option Name}
    {groups entries : List Address} (h : Renders shows names forest groups entries)
    (hshows : ∀ head entries, shows head entries → known head entries)
    (hnames : ∀ object name, names object = some name → more object = some name) :
    Renders known more forest groups entries := by
  induction h with
  | nil => exact .nil
  | group hgroups htraces _ _ ihinner ihrest =>
      exact .group (hshows _ _ hgroups) (hshows _ _ htraces) ihinner ihrest
  | trace hname _ ih => exact .trace (hnames _ _ hname) ih

section

variable [DecidableEq ι]

/-- The first loop of `gen_group` fills the lists of the groups it defines, and those of its own
group. -/
theorem genChildren_renders (h : genChildren traces parent forest state = some (final, output))
    (hparent : .group parent ∉ output.defines) (hdefines : output.defines.Nodup) :
    Renders (Filled output) final.defineName forest (addedTo (.groupChildren parent) output.init)
      (addedTo (.groupTraces parent) output.init) := by
  induction forest generalizing parent state final output with
  | nil =>
      cases h
      exact .nil
  | group name children rest ihchildren ihrest =>
      obtain ⟨later, inner, backups, others, hinner, hbackups, hothers, rfl⟩ := genChildren_group h
      generalize (genGroupName name state).1 = own at hinner hdefines hparent
      show Renders (Filled ((nested parent own inner backups).append others)) _ _
        (addedTo _ ((nested parent own inner backups).init ++ others.init))
        (addedTo _ ((nested parent own inner backups).init ++ others.init))
      have hapart := nested_apart hparent hdefines
      have hplain := genBackups_plain hbackups
      obtain ⟨hemits, -⟩ := genChildren_emits hinner
      obtain ⟨hemits', hkept⟩ := genChildren_emits hothers
      have hnested : Emits parent _ _ (nested parent own inner backups) :=
        (hemits.append (Emits.plain hplain)).nest
      have hfilled : ∀ head, head.owner = some (.group own) → .groupChildren parent ≠ head →
          Filled ((nested parent own inner backups).append others) head (addedTo head inner.init) :=
        fun head hhead hother =>
          (nested_filled hhead hother hplain).before hemits' hapart.nested hdefines
      have hchildren := (ihchildren hinner hapart.own hapart.nodup).mono
        (fun head entries hlist =>
          (hlist.nested hapart.inner hplain).before hemits' hapart.nested hdefines) hkept
      have hothers := (ihrest hothers hapart.later hapart.rest).mono
        (fun head entries hlist => hlist.after hnested hapart.later hdefines) fun _ _ h => h
      -- what is in the group adds nothing to the lists of the group around it
      have huntouched : ∀ head : Address, head.owner = some (.group parent) →
          addedTo head inner.init = [] :=
        fun head hhead =>
          hemits.untouched hhead (fun heq => hapart.ne (Definition.group.inj heq)) hapart.inner
      have hfirst : addedTo (.groupChildren parent)
          [.listAddTail (.groupList own) (.groupChildren parent)] = [.groupList own] := by
        simp [addedTo]
      have hsecond : addedTo (.groupTraces parent)
          [.listAddTail (.groupList own) (.groupChildren parent)] = [] := by
        simp [addedTo]
      rw [addedTo_append, addedTo_append, nested_added hplain, nested_added hplain,
        huntouched _ rfl,
        huntouched _ rfl, hfirst, hsecond]
      refine Renders.group (hfilled _ rfl ?_) (hfilled _ rfl ?_) hchildren hothers
      · exact fun heq => hapart.ne (Address.groupChildren.inj heq)
      · exact fun heq => by cases heq
  | trace object rest ih =>
      obtain ⟨others, hothers, rfl⟩ := genChildren_trace h
      obtain ⟨hown, ⟨name, copy, hname, hentry⟩, hnone, -⟩ :=
        genTrace_emits traces object parent state
      obtain ⟨-, hkept⟩ := genChildren_emits hothers
      obtain ⟨-, hrest, -⟩ := List.nodup_append.mp hdefines
      have hparent' : .group parent ∉ others.defines := fun hmem =>
        hparent (List.mem_append_right _ hmem)
      have hothers := (ih hothers hparent' hrest).mono
        (fun head entries hlist => hlist.after hown hparent' hdefines) fun _ _ h => h
      show Renders _ _ _ (addedTo _ ((genTrace traces object parent state).2.init ++ others.init))
        (addedTo _ ((genTrace traces object parent state).2.init ++ others.init))
      rw [addedTo_append, addedTo_append, hnone, hentry]
      exact Renders.trace (hkept object name hname) hothers

end

/-! ## The program -/

theorem Definition.node_injective : Function.Injective Definition.node := by
  intro one other h
  cases one <;> cases other <;> simp_all [Definition.node]

def assign (elements : Nat → Option Name) (entry : Name × Nat) : Nat → Option Name :=
  Function.update elements entry.2 (some entry.1)

/-- The elements of `all_traces` are assigned one after another. -/
theorem executed_allTraces (statements : List Statement) (program : Program) :
    (statements.foldl Program.execute program).allTraces =
      (assigned statements).foldl assign program.allTraces := by
  induction statements generalizing program with
  | nil => rfl
  | cons statement statements ih =>
      rw [List.foldl_cons, ih]
      cases statement with
      | listAddTail new head => rfl
      | allTraces index name => rfl
      | backup name value => rfl

theorem elements_assigned (names : List Name) (index : Nat) :
    (names.zipIdx 1).foldl assign (fun _ => none) index =
      (none :: names.map some)[index]?.join := by
  induction names using List.reverseRecOn with
  | nil =>
      cases index with
      | zero => rfl
      | succ index => rfl
  | append_singleton names name ih =>
      rw [List.zipIdx_append, List.foldl_append]
      show Function.update ((names.zipIdx 1).foldl assign fun _ => none) (1 + names.length)
        (some name) index = _
      by_cases hindex : index = 1 + names.length
      case pos =>
        rw [hindex, Function.update_self, Nat.add_comm, List.getElem?_cons_succ, List.map_append]
        rw [List.getElem?_append_right (by simp)]
        simp
      case neg =>
        rw [Function.update_of_ne hindex, ih, List.map_append, ← List.cons_append]
        rcases Nat.lt_or_gt_of_ne hindex with hlt | hgt
        · rw [List.getElem?_append_left (by simp; omega)]
        · rw [List.getElem?_eq_none (by simp; omega), List.getElem?_eq_none (by simp; omega)]

theorem mem_tracesOf {defines : List Definition} {own : Name} (h : .trace own ∈ defines) :
    own ∈ tracesOf defines :=
  List.mem_filterMap.mpr ⟨.trace own, h, rfl⟩

/-- A backup that is only set to one value has it. -/
theorem executed_backups {statements : List Statement} {own : Name} {value : Option Name}
    (hmem : ∃ other, .backup own other ∈ statements)
    (hvalue : ∀ other, .backup own other ∈ statements → other = value) :
    (statements.foldl Program.execute Program.start).backups own = value := by
  induction statements using List.reverseRecOn with
  | nil =>
      obtain ⟨other, hmem⟩ := hmem
      cases hmem
  | append_singleton earlier statement ih =>
      rw [List.foldl_concat]
      have hearlier : (∃ other, .backup own other ∈ earlier) →
          (earlier.foldl Program.execute Program.start).backups own = value :=
        fun hearlier => ih hearlier fun other hother => hvalue other (List.mem_append_left _ hother)
      -- the last statement may set the same backup again
      have hbefore : statement ≠ .backup own value → ∃ other, .backup own other ∈ earlier := by
        intro hne
        obtain ⟨other, hother⟩ := hmem
        rcases List.mem_append.mp hother with hother' | hother'
        · exact ⟨other, hother'⟩
        · obtain rfl := hvalue other hother
          exact absurd (List.mem_singleton.mp hother').symm hne
      cases statement with
      | listAddTail new head => exact hearlier (hbefore (by simp))
      | allTraces index name => exact hearlier (hbefore (by simp))
      | backup name found =>
          by_cases hname : own = name
          case pos =>
            obtain rfl := hname
            obtain rfl := hvalue found (List.mem_append_right _ (List.mem_singleton_self _))
            exact Function.update_self _ _ _
          case neg =>
            refine (Function.update_of_ne hname _ _).trans (hearlier (hbefore fun heq => ?_))
            exact hname (Statement.backup.inj heq).1.symm

/-- A program that has the catalogue of `trace.yaml`, and its traces in this order. -/
structure Catalogued (traces : ι → YamlTrace ι) (root : Forest ι) (state : GenState ι)
    (order : List Name)
    (program : Program) : Prop where
  groups : ∃ groups entries, Shows program.links (.groupChildren rootGroup) groups ∧
    Shows program.links (.groupTraces rootGroup) entries ∧
    Renders (Shows program.links) state.defineName root groups entries
  all : Shows program.links .traceList (order.map .traceAll)
  elements : ∀ index, program.allTraces index = (none :: order.map some)[index]?.join
  distinct : Distinct state.defineName
  defined : ∀ object own, state.defineName object = some own → own ∈ order
  rules : ∀ object own, state.defineName object = some own →
    Shows program.links (.traceRules own) (ruleEntries traces object own)
  backups : ∀ object own, state.defineName object = some own →
    backupName traces state object = some (program.backups own)

section

variable [DecidableEq ι]

theorem genGroup_backups {own : Name} {object : ι} {backups : List Statement}
    (hinner : genChildren traces parent root (GenState.start ι) = some (final, output))
    (hbackups : genBackups traces final root = some backups) (hdistinct : Distinct final.defineName)
    (hown : final.defineName object = some own) :
    backupName traces final object =
      some (((output.init ++ backups).foldl Program.execute Program.start).backups own) := by
  -- the group that the trace is in sets its backup
  have hset : ∃ value, .backup own value ∈ output.init ++ backups := by
    rcases genChildren_backups hinner hown with hstart | hmem | ⟨value, hmem⟩
    · cases hstart
    · obtain ⟨value, hmem⟩ := genBackups_mem hbackups hmem hown
      exact ⟨value, List.mem_append_right _ hmem⟩
    · exact ⟨value, List.mem_append_left _ hmem⟩
  have hvalues : ∀ value, .backup own value ∈ output.init ++ backups →
      backupName traces final object = some value := by
    intro value hmem
    have hbacked : ∃ other, final.defineName other = some own ∧ backupName traces final other =
        some value := by
      rcases List.mem_append.mp hmem with hmem | hmem
      · exact genChildren_backed hinner hmem
      · exact genBackups_backed hbackups hmem
    obtain ⟨other, hother, hvalue⟩ := hbacked
    exact hdistinct other object own hother hown ▸ hvalue
  obtain ⟨value, hmem⟩ := hset
  have hvalue := hvalues value hmem
  refine hvalue.trans (congrArg some (executed_backups ⟨value, hmem⟩ ?_).symm)
  exact fun other hother => Option.some.inj ((hvalues other hother).symm.trans hvalue)

/-- If every variable is defined once, `init_trace_group` leaves the groups and traces of
`trace.yaml` on the lists where it has them, and every trace once on `trace_list`, in the order of
the definitions, with the same order in `all_traces`. Each trace has its own rules and its own
backup. -/
theorem catalogue_shown (h : genGroup traces root = some (state, output))
    (hdefines : output.defines.Nodup) :
    Catalogued traces root state (tracesOf output.defines) (initTraceGroup output) ∧
      state.traceIndex = (tracesOf output.defines).length + 1 := by
  simp only [genGroup, Option.bind_eq_bind, Option.bind_eq_some_iff] at h
  obtain ⟨⟨last, inner⟩, hinner, backups, hbackups, heq⟩ := h
  obtain ⟨rfl, rfl⟩ := Prod.mk.inj (Option.some.inj heq)
  have hplain := genBackups_plain hbackups
  obtain ⟨hemits, -⟩ := genChildren_emits hinner
  have hall : Emits rootGroup 1 last.traceIndex (inner.append ⟨[], backups⟩) :=
    hemits.append (Emits.plain hplain)
  have hinners : (inner.append ⟨[], backups⟩).defines = inner.defines := List.append_nil _
  have htraces : tracesOf (.group rootGroup :: (inner.append ⟨[], backups⟩).defines) =
      tracesOf inner.defines :=
    congrArg (fun defines => tracesOf (.group rootGroup :: defines)) hinners
  change (Definition.group rootGroup :: (inner.append ⟨[], backups⟩).defines).Nodup at hdefines
  obtain ⟨hroot, hnodup⟩ := List.nodup_cons.mp hdefines
  -- each node belongs to one variable, and so is added once
  have hnews : (news (inner.append ⟨[], backups⟩).init).Nodup :=
    hall.nodes.nodup_iff.mpr (hnodup.map Definition.node_injective)
  have hfamily := executed_family hall.kinds hnews
  have hshows : ∀ head : Address, head.isHead = true →
      Shows (initTraceGroup (inner.append ⟨[], backups⟩)).links head (addedTo head inner.init) := by
    intro head hhead
    have hadded : addedTo head (inner.init ++ backups) = addedTo head inner.init := by
      rw [addedTo_append, addedTo_plain hplain, List.append_nil]
    exact hadded ▸ shows_entries (hfamily.cycle head _ (if_pos hhead))
  have hfilled : ∀ head entries, Filled inner head entries →
      Shows (initTraceGroup (inner.append ⟨[], backups⟩)).links head entries := by
    rintro head _ ⟨⟨owner, -, howner⟩, rfl⟩
    have hhead : head.isHead = true := by
      cases head <;> first | rfl | cases howner
    exact hshows head hhead
  have hindices : assigned (inner.append ⟨[], backups⟩).init = _ := hall.indices
  rw [hinners] at hroot hnodup
  have hdistinct : Distinct last.defineName :=
    genChildren_distinct hinner hroot hnodup (fun _ _ _ hone => by cases hone)
      fun _ _ hone => by cases hone
  have hrules : ∀ object own, last.defineName object = some own →
      Filled inner (.traceRules own) (ruleEntries traces object own) := by
    intro object own hown
    rcases genChildren_rules hinner hroot hnodup hown with hstart | hrules
    · cases hstart
    · exact hrules
  refine ⟨⟨⟨_, _, hshows _ rfl, hshows _ rfl, ?_⟩, ?_, ?_, hdistinct, ?_, ?_, ?_⟩, ?_⟩
  · exact (genChildren_renders hinner hroot hnodup).mono hfilled fun _ _ h => h
  · have hlist := hshows .traceList rfl
    rw [hemits.all, ← htraces] at hlist
    exact hlist
  · intro index
    refine (congrFun (executed_allTraces _ _) index).trans ?_
    exact (congrArg (fun entries => entries.foldl assign (fun _ => none) index) hindices).trans
      (elements_assigned _ index)
  · intro object own hown
    exact (congrArg (own ∈ ·) htraces).mpr (mem_tracesOf (hrules object own hown).defined)
  · exact fun object own hown => hfilled _ _ (hrules object own hown)
  · intro object own hown
    have hbackup := genGroup_backups hinner hbackups hdistinct hown
    exact hbackup
  · exact hall.count.trans (Nat.add_comm _ _)

end

/-- Two traces of one name, the first with a rule and the other one as its backup. -/
def smallTraces : Bool → YamlTrace Bool
  | true => ⟨['k'], 1, some false⟩
  | false => ⟨['k'], 0, none⟩

/-- A group with both traces, and the first one again. -/
def smallRoot : Forest Bool :=
  .group ['g', '-', 'h'] (.trace true (.trace false .nil)) (.trace true .nil)

def smallGenerated : GenState Bool × Output :=
  (genGroup smallTraces smallRoot).get rfl

theorem catalogue_shown_small :
    genGroup smallTraces smallRoot = some smallGenerated ∧
      Catalogued smallTraces smallRoot smallGenerated.1 [['k'], ['k', '_', '1']]
        (initTraceGroup smallGenerated.2) ∧
      smallGenerated.1.traceIndex = 3 := by
  have h : genGroup smallTraces smallRoot = some smallGenerated := (Option.some_get rfl).symm
  exact ⟨h, catalogue_shown h (by decide)⟩

end Anettrace.GenTrace
