import Anettrace.Library.Table
import Anettrace.Traffic.Calls

/-!
# The run of one return probe

A run of `traffic_account` adds the bytes of its call to the totals, then to a process or to the
lost bytes, then at most to a flow. `TrafficAccount.advance_spec` says what one of its map
operations does, whatever the other runs did since the one before; `TrafficReturn.InOrder` is what
is known of a call in between.
-/

namespace Anettrace.Traffic

open Library

/-- The stages of `traffic_account`. -/
inductive TrafficStage where
  | totals | process | flow
  deriving DecidableEq, Repr, Inhabited

def TrafficPoint.stage : TrafficPoint → TrafficStage
  | .totals => .totals
  | .process | .processInsert | .processAgain | .processAdd _ => .process
  | .flow | .flowInsert | .flowAgain | .flowAdd _ => .flow

/-- A pointer that a run holds is to its process or its flow. -/
def TrafficAccount.PointsTo (account : TrafficAccount) (maps : TrafficMaps) : Prop :=
  (∀ place, account.point = .processAdd place →
    ∃ process : TrafficProcess, maps.processes[place]? = some process ∧
      process.key = account.flow.process) ∧
  ∀ place, account.point = .flowAdd place →
    ∃ flow : TrafficFlow, maps.cells[place]? = some flow ∧ flow.key = account.flow

/-- The tables a call has added to when its run is at a stage, or over. -/
inductive TrafficCall.Tables (call : TrafficCall) : Option TrafficStage → List TrafficTable → Prop
  | totals : call.Tables (some .totals) []
  | process : call.Tables (some .process) [.totals]
  | flow (table : TrafficTable) (hkind : table.ofProcess = true) (hown : call.OwnTable table) :
      call.Tables (some .flow) [.totals, table]
  | dropped (table : TrafficTable) (hkind : table.ofProcess = true) (hown : call.OwnTable table) :
      call.Tables none [.totals, table]
  | ended (table : TrafficTable) (flow : TrafficFlowKey) (hkind : table.ofProcess = true)
      (hown : call.OwnTable table) (hflow : call.Owns flow) :
      call.Tables none [.totals, table, .flow flow]

/-- A call that returned is as far as its run is: the run is of what its entry probe stored. -/
structure TrafficReturn.InOrder (config : TrafficConfig) (returned : TrafficReturn)
    (maps : TrafficMaps) : Prop where
  silent : ¬returned.Counts config → returned.account = none ∧ returned.credits = []
  running : ∀ account, returned.account = some account →
    account.source = returned.call.number ∧ account.bytes = returned.amount ∧
      account.tx = returned.call.operation.tx ∧ returned.call.Owns account.flow ∧
      account.PointsTo maps
  tables : returned.Counts config → ∃ tables,
    returned.call.Tables (returned.account.map fun account => account.point.stage) tables ∧
      returned.credits = tables.map fun table =>
        ⟨table, returned.amount, returned.call.operation.tx, returned.call.number⟩

section InOrder

variable {config : TrafficConfig} {returned : TrafficReturn} {maps after : TrafficMaps}
  {call : TrafficCall}

section Tables

variable {stage : Option TrafficStage} {tables : List TrafficTable}

theorem TrafficCall.Tables.own (h : call.Tables stage tables) :
    ∀ table ∈ tables, call.OwnTable table := by
  cases h with
  | totals => simp
  | process => simp [TrafficCall.OwnTable]
  | flow outcome _ hown | dropped outcome _ hown => simpa [TrafficCall.OwnTable] using hown
  | ended outcome flow _ hown hflow => simpa [TrafficCall.OwnTable] using ⟨hown, hflow⟩

theorem TrafficTable.ne_totals {table : TrafficTable} (h : table.ofProcess = true) :
    table ≠ .totals := by
  rintro rfl
  cases h

theorem TrafficTable.not_ofFlow {table : TrafficTable} (h : table.ofProcess = true) :
    table.ofFlow = false := by
  cases table <;> first | rfl | cases h

theorem TrafficCall.Tables.once (h : call.Tables stage tables) :
    tables.count .totals ≤ 1 ∧ tables.countP TrafficTable.ofProcess ≤ 1 ∧
      tables.countP TrafficTable.ofFlow ≤ 1 := by
  cases h with
  | totals => simp
  | process => decide
  | flow outcome hkind _ | dropped outcome hkind _ =>
      simp [TrafficTable.ne_totals hkind, hkind, TrafficTable.not_ofFlow hkind]
  | ended outcome flow hkind _ _ =>
      simp [TrafficTable.ne_totals hkind, hkind, TrafficTable.not_ofFlow hkind]

theorem TrafficCall.Tables.counted (h : call.Tables none tables) :
    tables.count .totals = 1 ∧ tables.countP TrafficTable.ofProcess = 1 := by
  cases h with
  | dropped outcome hkind _ | ended outcome flow hkind _ _ =>
      simp [TrafficTable.ne_totals hkind, hkind]

end Tables

/-- A call that is in order adds what it should. -/
theorem TrafficReturn.InOrder.exact (h : returned.InOrder config maps) :
    returned.Exact config := by
  by_cases hcounts : returned.Counts config
  case neg =>
    have hempty := (h.silent hcounts).2
    refine ⟨fun _ => hempty, ?_, ?_, ?_, ?_, fun hcontra => absurd hcontra hcounts⟩
      <;> simp [hempty]
  case pos =>
    obtain ⟨tables, htables, hcredits⟩ := h.tables hcounts
    have hmap : returned.credits.map TrafficCredit.table = tables := by
      rw [hcredits, List.map_map]
      exact List.map_id _
    refine ⟨fun hcontra => absurd hcounts hcontra, ?_, ?_, ?_, ?_, fun _ hover => ?_⟩
    · intro credit hcredit
      rw [hcredits] at hcredit
      obtain ⟨table, htable, rfl⟩ := List.mem_map.mp hcredit
      exact ⟨rfl, rfl, rfl, htables.own table htable⟩
    · exact hmap ▸ htables.once.1
    · exact hmap ▸ htables.once.2.1
    · exact hmap ▸ htables.once.2.2
    · rw [hover] at htables
      exact hmap ▸ htables.counted

/-! ## One map operation -/

/-- The entries of a map of flows are those their places have. -/
def TrafficMaps.FlowsPoint (maps : TrafficMaps) : Prop :=
  ∀ key place, maps.flows key = some place →
    ∃ flow : TrafficFlow, maps.cells[place]? = some flow ∧ flow.key = key

/-- Entries keep their places and their keys. -/
structure TrafficMaps.Grows (maps after : TrafficMaps) : Prop where
  processes : ∀ (place : Nat) (process : TrafficProcess), maps.processes[place]? = some process →
    ∃ found : TrafficProcess, after.processes[place]? = some found ∧ found.key = process.key
  cells : ∀ (place : Nat) (flow : TrafficFlow), maps.cells[place]? = some flow →
    ∃ found : TrafficFlow, after.cells[place]? = some found ∧ found.key = flow.key

/-- Nothing shrinks. -/
theorem TrafficMaps.Grows.of_eq (hprocesses : after.processes = maps.processes)
    (hcells : after.cells = maps.cells) : maps.Grows after :=
  ⟨fun _ process h => ⟨process, hprocesses ▸ h, rfl⟩, fun _ flow h => ⟨flow, hcells ▸ h, rfl⟩⟩

theorem TrafficAccount.PointsTo.grows {account : TrafficAccount} (h : account.PointsTo maps)
    (hgrows : maps.Grows after) : account.PointsTo after := by
  constructor
  · intro place hpoint
    obtain ⟨process, hprocess, hkey⟩ := h.1 place hpoint
    obtain ⟨found, hfound, hsame⟩ := hgrows.processes place process hprocess
    exact ⟨found, hfound, hsame.trans hkey⟩
  · intro place hpoint
    obtain ⟨flow, hflow, hkey⟩ := h.2 place hpoint
    obtain ⟨found, hfound, hsame⟩ := hgrows.cells place flow hflow
    exact ⟨found, hfound, hsame.trans hkey⟩

theorem TrafficReturn.InOrder.grows (h : returned.InOrder config maps) (hgrows : maps.Grows after) :
    returned.InOrder config after where
  silent := h.silent
  running := fun account haccount =>
    (h.running account haccount).imp_right fun h => h.imp_right fun h => h.imp_right fun h =>
      h.imp_right fun h => h.grows hgrows
  tables := h.tables

theorem lookupProcess_some {key : TrafficProcessKey} {place : Nat}
    (h : lookupProcess key maps = some place) :
    ∃ process : TrafficProcess, maps.processes[place]? = some process ∧ process.key = key := by
  obtain ⟨hplace, hkey, -⟩ := List.findIdx?_eq_some_iff_getElem.mp h
  exact ⟨_, List.getElem?_eq_getElem hplace, of_decide_eq_true hkey⟩

/-- The stage of a run after a map operation, and the table it added to. -/
inductive TrafficAccount.Moves (account : TrafficAccount) :
    TrafficStage → Option TrafficStage → Option TrafficTable → Prop
  | totals : account.Moves .totals (some .process) (some .totals)
  | looked : account.Moves .process (some .process) none
  | process : account.Moves .process (some .flow) (some (.process account.flow.process))
  | lost (table : TrafficTable) (h : table.lost = true) :
      account.Moves .process (some .flow) (some table)
  | lookedFlow : account.Moves .flow (some .flow) none
  | dropped : account.Moves .flow none none
  | flow : account.Moves .flow none (some (.flow account.flow))

/-- The bytes of a run in one direction. -/
def TrafficAccount.share (account : TrafficAccount) (tx : Bool) : UInt64 :=
  if account.tx = tx then account.bytes else 0

def TrafficMaps.processBytes (maps : TrafficMaps) (tx : Bool) : UInt64 :=
  (maps.processes.map fun process => process.counters.bytes tx).sum

/-- What a map operation of a run does. -/
structure TrafficAccount.Advanced (account : TrafficAccount) (maps after : TrafficMaps)
    (point : Option TrafficPoint) (table : Option TrafficTable) : Prop where
  inflight : after.inflight = maps.inflight
  grows : maps.Grows after
  flows : after.FlowsPoint
  points : ∀ next, point = some next → ({ account with point := next }).PointsTo after
  moves : account.Moves account.point.stage (point.map TrafficPoint.stage) table
  totals : ∀ tx, after.totals.bytes tx =
    maps.totals.bytes tx + if table = some .totals then account.share tx else 0
  processes : ∀ tx, after.processBytes tx =
    maps.processBytes tx + if table = some (.process account.flow.process) then
      account.share tx else 0

theorem trafficCounterAdd_bytes (bytes : UInt64) (tx direction : Bool) (nowNs : UInt64)
    (counters : TrafficCounters) :
    (trafficCounterAdd bytes tx nowNs counters).bytes direction =
      counters.bytes direction + if tx = direction then bytes else 0 := by
  unfold trafficCounterAdd TrafficCounters.bytes
  cases tx <;> cases direction <;> simp

theorem TrafficMaps.addProcess_spec {place : Nat} {process : TrafficProcess}
    (h : maps.processes[place]? = some process) (add : TrafficCounters → TrafficCounters) :
    maps.Grows (maps.addProcess place add) ∧
      ∀ tx bytes, (add process.counters).bytes tx = process.counters.bytes tx + bytes →
        (maps.addProcess place add).processBytes tx = maps.processBytes tx + bytes := by
  have hset : (maps.addProcess place add).processes =
      maps.processes.set place { process with counters := add process.counters } :=
    Table.modify_some h
  refine ⟨⟨fun other found hfound => ?_, fun _ flow hflow => ⟨flow, hflow, rfl⟩⟩,
    fun tx bytes hbytes => ?_⟩
  · rw [hset, List.getElem?_set]
    split
    case isFalse => exact ⟨found, hfound, rfl⟩
    case isTrue heq =>
      subst heq
      rw [if_pos (List.getElem?_eq_some_iff.mp h).1]
      obtain rfl : process = found := Option.some.inj (h.symm.trans hfound)
      exact ⟨_, rfl, rfl⟩
  · have hsum := @Table.sum_set _ maps.processes place process
      { process with counters := add process.counters } _ _
      (fun process => process.counters.bytes tx) h
    dsimp only at hsum
    unfold TrafficMaps.processBytes
    rw [hset]
    rw [hbytes, add_comm (process.counters.bytes tx), ← add_assoc] at hsum
    exact add_right_cancel hsum

theorem TrafficMaps.addFlow_grows {place : Nat} (add : TrafficCounters → TrafficCounters) :
    maps.Grows (maps.addFlow place add) := by
  refine ⟨fun _ process hprocess => ⟨process, hprocess, rfl⟩, fun other found hfound => ?_⟩
  change ∃ flow, (maps.cells.modify place _)[other]? = some flow ∧ _
  rw [List.getElem?_modify, hfound]
  split
  case isTrue => exact ⟨_, rfl, rfl⟩
  case isFalse => exact ⟨_, rfl, rfl⟩

theorem TrafficMaps.FlowsPoint.grows (h : maps.FlowsPoint) (hgrows : maps.Grows after)
    (hflows : after.flows = maps.flows) : after.FlowsPoint := by
  intro key place hplace
  obtain ⟨flow, hflow, hkey⟩ := h key place (hflows ▸ hplace)
  obtain ⟨found, hfound, hsame⟩ := hgrows.cells place flow hflow
  exact ⟨found, hfound, hsame.trans hkey⟩

section Operations

variable {account : TrafficAccount}

theorem TrafficAccount.pointsTo_free
    (h : ∀ place, account.point ≠ .processAdd place ∧ account.point ≠ .flowAdd place) :
    account.PointsTo maps :=
  ⟨fun place hpoint => absurd hpoint (h place).1, fun place hpoint => absurd hpoint (h place).2⟩

theorem TrafficAccount.pointsTo_process {place : Nat}
    (hplace : lookupProcess account.flow.process maps = some place) :
    ({ account with point := .processAdd place }).PointsTo maps := by
  refine ⟨fun other hother => ?_, fun other hother => by cases hother⟩
  cases hother
  exact lookupProcess_some hplace

theorem TrafficAccount.pointsTo_flow (hflows : maps.FlowsPoint) {place : Nat}
    (hplace : maps.flows account.flow = some place) :
    ({ account with point := .flowAdd place }).PointsTo maps := by
  refine ⟨fun other hother => (by cases hother), fun other hother => ?_⟩
  cases hother
  exact hflows _ _ hplace

/-- An operation that adds to neither the totals nor the run's process. -/
theorem TrafficAccount.Advanced.uncounted {point : Option TrafficPoint}
    {table : Option TrafficTable} (hinflight : after.inflight = maps.inflight)
    (hgrows : maps.Grows after) (hflows : after.FlowsPoint)
    (hpoints : ∀ next, point = some next → ({ account with point := next }).PointsTo after)
    (hmoves : account.Moves account.point.stage (point.map TrafficPoint.stage) table)
    (htotals : after.totals = maps.totals)
    (hprocesses : ∀ tx, after.processBytes tx = maps.processBytes tx)
    (hother : table ≠ some .totals ∧ table ≠ some (.process account.flow.process)) :
    account.Advanced maps after point table where
  inflight := hinflight
  grows := hgrows
  flows := hflows
  points := hpoints
  moves := hmoves
  totals := fun tx => by rw [htotals, if_neg hother.1, add_zero]
  processes := fun tx => by rw [hprocesses tx, if_neg hother.2, add_zero]

theorem TrafficAccount.Advanced.look (hflows : maps.FlowsPoint) {next : TrafficPoint}
    (hnext : ({ account with point := next }).PointsTo maps)
    (hmoves : account.Moves account.point.stage (some next.stage) none) :
    account.Advanced maps maps (some next) none := by
  refine .uncounted rfl (.of_eq rfl rfl) hflows (fun point hpoint => ?_) hmoves rfl (fun _ => rfl)
    ⟨nofun, nofun⟩
  obtain rfl := Option.some.inj hpoint
  exact hnext

/-- An operation that counts the bytes as lost. -/
theorem TrafficAccount.Advanced.lose (hflows : maps.FlowsPoint) (stat : TrafficStat)
    {table : TrafficTable} (htable : table.lost = true) (hstage : account.point.stage = .process) :
    account.Advanced maps (trafficStatInc stat maps) (some .flow) (some table) := by
  refine .uncounted rfl (.of_eq rfl rfl) hflows (fun next hnext => ?_)
    (hstage ▸ .lost table htable) rfl (fun _ => rfl) ⟨?_, ?_⟩
  · obtain rfl := Option.some.inj hnext
    exact pointsTo_free fun _ => ⟨nofun, nofun⟩
  · rintro ⟨⟩
    cases htable
  · rintro ⟨⟩
    cases htable

theorem TrafficAccount.Advanced.insertProcess (hflows : maps.FlowsPoint) (process : TrafficProcess)
    (hzero : ∀ tx, process.counters.bytes tx = 0) (hstage : account.point.stage = .process) :
    account.Advanced maps { maps with processes := maps.processes ++ [process] }
      (some .processAgain) none := by
  have hgrows : maps.Grows { maps with processes := maps.processes ++ [process] } := by
    refine ⟨fun place found hfound => ⟨found, ?_, rfl⟩, fun _ flow hflow => ⟨flow, hflow, rfl⟩⟩
    exact (List.getElem?_append_left (List.getElem?_eq_some_iff.mp hfound).1).trans hfound
  refine .uncounted rfl hgrows (hflows.grows hgrows rfl) (fun next hnext => ?_)
    (hstage ▸ .looked) rfl
    (fun tx => ?_) ⟨nofun, nofun⟩
  · obtain rfl := Option.some.inj hnext
    exact pointsTo_free fun _ => ⟨nofun, nofun⟩
  · unfold TrafficMaps.processBytes
    rw [List.map_append, List.sum_append, List.map_singleton, List.sum_singleton,
      hzero tx, add_zero]

theorem TrafficAccount.Advanced.insertFlow (hflows : maps.FlowsPoint) (counters : TrafficCounters)
    (hstage : account.point.stage = .flow) :
    account.Advanced maps
      { maps with
        flows := maps.flows.put account.flow maps.cells.length
        cells := maps.cells ++ [⟨account.flow, counters⟩] }
      (some .flowAgain) none := by
  have hold {place : Nat} {found : TrafficFlow} (hfound : maps.cells[place]? = some found) :
      (maps.cells ++ [⟨account.flow, counters⟩])[place]? = some found :=
    (List.getElem?_append_left (List.getElem?_eq_some_iff.mp hfound).1).trans hfound
  refine .uncounted rfl ⟨fun _ process hprocess => ⟨process, hprocess, rfl⟩,
    fun place found hfound => ⟨found, hold hfound, rfl⟩⟩ (fun key place hplace => ?_)
    (fun next hnext => ?_) (hstage ▸ .lookedFlow) rfl (fun _ => rfl) ⟨nofun, nofun⟩
  · rcases Keyed.put_cases hplace with ⟨rfl, rfl⟩ | ⟨-, hplace⟩
    · exact ⟨_, List.getElem?_concat_length, rfl⟩
    · obtain ⟨flow, hfound, hkey⟩ := hflows key place hplace
      exact ⟨flow, hold hfound, hkey⟩
  · obtain rfl := Option.some.inj hnext
    exact pointsTo_free fun _ => ⟨nofun, nofun⟩

/-- The next map operation of a run. -/
theorem TrafficAccount.advance_spec {account : TrafficAccount} (hpoints : account.PointsTo maps)
    (hflows : maps.FlowsPoint) (stored : Bool) :
    let advanced := account.advance stored maps
    account.Advanced maps advanced.1 advanced.2.1 advanced.2.2 := by
  have hfree {next : TrafficPoint} {maps' : TrafficMaps}
      (h : ∀ place, next ≠ .processAdd place ∧ next ≠ .flowAdd place) :
      ({ account with point := next }).PointsTo maps' := pointsTo_free h
  unfold TrafficAccount.advance
  dsimp only
  cases hpoint : account.point with
  | totals =>
      dsimp only
      refine ⟨rfl, .of_eq rfl rfl, hflows, fun next hnext => ?_, hpoint ▸ .totals, fun tx => ?_,
        fun tx => ?_⟩
      · obtain rfl := Option.some.inj hnext
        exact hfree fun _ => ⟨nofun, nofun⟩
      · rw [if_pos rfl]
        exact trafficCounterAdd_bytes ..
      · rw [if_neg (by simp), add_zero]
        rfl
  | process =>
      dsimp only
      split
      case isTrue => exact .lose hflows _ rfl (hpoint ▸ rfl)
      case isFalse =>
        split
        case h_1 place hplace => exact .look hflows (pointsTo_process hplace) (hpoint ▸ .looked)
        case h_2 => exact .look hflows (hfree fun _ => ⟨nofun, nofun⟩) (hpoint ▸ .looked)
  | processInsert =>
      dsimp only
      split
      case isTrue =>
        exact .insertProcess hflows _ (fun tx => by cases tx <;> rfl) (hpoint ▸ rfl)
      case isFalse => exact .look hflows (hfree fun _ => ⟨nofun, nofun⟩) (hpoint ▸ .looked)
  | processAgain =>
      dsimp only
      split
      case h_1 place hplace => exact .look hflows (pointsTo_process hplace) (hpoint ▸ .looked)
      case h_2 => exact .lose hflows _ rfl (hpoint ▸ rfl)
  | processAdd place =>
      obtain ⟨process, hfound, hkey⟩ := hpoints.1 place hpoint
      obtain ⟨hgrows, hbytes⟩ := TrafficMaps.addProcess_spec hfound
        (trafficCounterAdd account.bytes account.tx account.nowNs)
      dsimp only
      rw [hfound, Option.map_some, hkey]
      refine ⟨rfl, hgrows, hflows.grows hgrows rfl, fun next hnext => ?_, hpoint ▸ .process,
        fun tx => ?_, fun tx => ?_⟩
      · obtain rfl := Option.some.inj hnext
        exact hfree fun _ => ⟨nofun, nofun⟩
      · rw [if_neg (by simp), add_zero]
        rfl
      · rw [if_pos rfl]
        exact hbytes tx _ (trafficCounterAdd_bytes ..)
  | flow =>
      dsimp only
      split
      case h_1 place hplace =>
        exact .look hflows (pointsTo_flow hflows hplace) (hpoint ▸ .lookedFlow)
      case h_2 => exact .look hflows (hfree fun _ => ⟨nofun, nofun⟩) (hpoint ▸ .lookedFlow)
  | flowInsert =>
      dsimp only
      split
      case isTrue => exact .insertFlow hflows _ (hpoint ▸ rfl)
      case isFalse => exact .look hflows (hfree fun _ => ⟨nofun, nofun⟩) (hpoint ▸ .lookedFlow)
  | flowAgain =>
      dsimp only
      split
      case h_1 place hplace =>
        exact .look hflows (pointsTo_flow hflows hplace) (hpoint ▸ .lookedFlow)
      case h_2 =>
        exact .uncounted rfl (.of_eq rfl rfl) hflows (fun _ h => by cases h) (hpoint ▸ .dropped) rfl
          (fun _ => rfl) ⟨nofun, nofun⟩
  | flowAdd place =>
      obtain ⟨flow, hfound, hkey⟩ := hpoints.2 place hpoint
      dsimp only
      rw [hfound, Option.map_some, hkey]
      have hgrows := @TrafficMaps.addFlow_grows maps place
        (trafficCounterAdd account.bytes account.tx account.nowNs)
      exact .uncounted rfl hgrows (hflows.grows hgrows rfl) (fun _ h => by cases h)
        (hpoint ▸ .flow) rfl
        (fun _ => rfl) ⟨nofun, nofun⟩

end Operations

/-- A call after its run went on. -/
def TrafficReturn.advanced (returned : TrafficReturn) (account : TrafficAccount)
    (point : Option TrafficPoint) (table : Option TrafficTable) : TrafficReturn :=
  { returned with
    account := point.map fun point => { account with point := point }
    credits := returned.credits ++
      table.toList.map fun table => ⟨table, account.bytes, account.tx, account.source⟩ }

section Advance

variable {account : TrafficAccount} {point : Option TrafficPoint} {table : Option TrafficTable}

/-- The tables of a call after its run went on. -/
theorem TrafficCall.Tables.advance {stage : TrafficStage} {next : Option TrafficStage}
    {tables : List TrafficTable} (h : call.Tables (some stage) tables)
    (howns : call.Owns account.flow)
    (hmoves : account.Moves stage next table) : call.Tables next (tables ++ table.toList) := by
  cases hmoves with
  | totals =>
      cases h
      exact .process
  | looked =>
      cases h
      exact .process
  | process =>
      cases h
      exact .flow _ rfl ⟨account.flow, howns, rfl⟩
  | lost table hlost =>
      cases h
      cases table with
      | processDrop => exact .flow _ rfl trivial
      | processIdMiss => exact .flow _ rfl trivial
      | totals | process _ | flow _ => cases hlost
  | lookedFlow =>
      cases h with
      | flow outcome hkind hown => exact .flow outcome hkind hown
  | dropped =>
      cases h with
      | flow outcome hkind hown => exact .dropped outcome hkind hown
  | flow =>
      cases h with
      | flow outcome hkind hown => exact .ended outcome account.flow hkind hown howns

/-- A stage keeps a return in order. -/
theorem TrafficReturn.InOrder.advance (h : returned.InOrder config maps)
    (haccount : returned.account = some account)
    (hadvanced : account.Advanced maps after point table) :
    (returned.advanced account point table).InOrder config after := by
  have hcounts : returned.Counts config := by
    by_contra hcontra
    rw [(h.silent hcontra).1] at haccount
    cases haccount
  obtain ⟨hsource, hbytes, htx, howns, -⟩ := h.running account haccount
  refine ⟨fun hcontra => absurd hcounts hcontra, fun later hlater => ?_, fun _ => ?_⟩
  · obtain ⟨next, hnext, rfl⟩ := Option.map_eq_some_iff.mp hlater
    exact ⟨hsource, hbytes, htx, howns, hadvanced.points next hnext⟩
  · obtain ⟨tables, htables, hcredits⟩ := h.tables hcounts
    rw [haccount] at htables
    refine ⟨tables ++ table.toList, ?_, ?_⟩
    · have hstage := htables.advance howns hadvanced.moves
      unfold TrafficReturn.advanced
      rw [Option.map_map]
      exact hstage
    · unfold TrafficReturn.advanced
      dsimp only
      rw [hcredits, List.map_append, hsource, hbytes, htx]
      rfl

theorem TrafficReturn.advanced_added (kind : TrafficTable → Bool) (tx : Bool) :
    (returned.advanced account point table).added kind tx =
      returned.added kind tx + if table.any kind then account.share tx else 0 := by
  unfold TrafficReturn.advanced TrafficReturn.added TrafficAccount.share
  dsimp only
  rw [List.filter_append, List.map_append, List.sum_append]
  congr 1
  cases table with
  | none => rfl
  | some table =>
      cases hkind : kind table <;> by_cases htx : account.tx = tx <;> simp [hkind, htx]

theorem TrafficReturn.underWay_eq (haccount : returned.account = some account) (tx : Bool) :
    returned.underWay tx = if account.point.stage = .process then account.share tx else 0 := by
  unfold TrafficReturn.underWay
  rw [haccount]
  obtain ⟨source, flow, bytes, direction, nowNs, leaderComm, point⟩ := account
  cases point <;> rfl

theorem TrafficReturn.advanced_underWay (tx : Bool) :
    (returned.advanced account point table).underWay tx =
      if point.map TrafficPoint.stage = some .process then account.share tx else 0 := by
  cases point with
  | none => rfl
  | some point => cases point <;> rfl

theorem TrafficAccount.Moves.balance {stage : TrafficStage} {next : Option TrafficStage}
    (h : account.Moves stage next table) (bytes : UInt64) :
    ((if table = some .totals then bytes else 0) + if stage = .process then bytes else 0) =
      (if table = some (.process account.flow.process) then bytes else 0) +
        (if table.any TrafficTable.lost then bytes else 0) +
        if next = some .process then bytes else 0 := by
  cases h with
  | lost table hlost =>
      have htotals : table ≠ .totals := by
        rintro rfl
        cases hlost
      have hprocess : table ≠ .process account.flow.process := by
        rintro rfl
        cases hlost
      simp [hlost, htotals, hprocess]
  | totals | looked | process | lookedFlow | dropped | flow => simp [TrafficTable.lost]

end Advance

end InOrder

end Anettrace.Traffic
