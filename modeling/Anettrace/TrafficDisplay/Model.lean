import Anettrace.TrafficDisplay.Line
import Anettrace.TrafficHistory.Model

/-!
# The traffic display

`src/traffic_display.c`: what is printed for a snapshot of the traffic, live or as the history of
one record, and what the keys do. The doubles are a parameter, with the texts that the formats of
the source make of them. A record is known by a reference, and a snapshot says what the references
lead to.
-/

namespace Anettrace.TrafficDisplay

open Library
open TrafficHistory (historySamples)

/-- The doubles of the program, as far as the display looks at them. -/
structure Doubles (R : Type*) where
  isZero : R → Bool
  /-- `traffic_format_bytes` -/
  formatBytes : R → Bool → Text
  /-- `"%.0f"` -/
  rounded : R → Text
  /-- A counter as a double. -/
  ofCounter : UInt64 → R
  /-- `traffic_bytes_per_second` -/
  bytesPerSecond : UInt64 → UInt64 → R
  /-- `"%.2f"` of so many nanoseconds in seconds. -/
  seconds : UInt64 → Text

/-- `struct traffic_display_row`, with the fields that are shown. -/
structure Row (R Ref : Type*) where
  pid : Nat
  tid : Nat
  comm : Text
  protocol : Text
  localEnd : Text
  remote : Text
  lastSeen : Text
  rxBytes : UInt64
  txBytes : UInt64
  record : Option Ref
  rxRate : R
  txRate : R
  idleSeconds : R
  sampleValid : Bool
  archived : Bool

/-- `struct traffic_history_record`, with the fields that are shown. -/
structure Record (R Ref : Type*) where
  row : Row R Ref
  samples : Fin historySamples → TrafficHistory.Sample
  bornSequence : Nat

/-- `struct traffic_history_frame` -/
structure SampleTime where
  elapsedNs : UInt64
  timestamp : Text

/-- `struct traffic_history`, with the fields that are shown. -/
structure History where
  sequence : Nat
  frames : Fin historySamples → SampleTime

/-- `struct traffic_display_snapshot`, and the records behind the references. A record has been born
by the time of the last sample. -/
structure Snapshot (R Ref : Type*) where
  rows : List (Row R Ref)
  rxBytes : UInt64
  txBytes : UInt64
  rxRate : R
  txRate : R
  elapsedSeconds : R
  intervalSeconds : Nat
  timestamp : Text
  protocol : Option Text
  filter : Option Text
  warning : Option Text
  history : Option History
  flows : Bool
  records : Ref → Record R Ref
  born : ∀ shown, history = some shown → ∀ ref, (records ref).bornSequence ≤ shown.sequence

/-- `struct traffic_display` -/
structure Display (Ref : Type*) where
  active : Bool
  inputSaved : Bool
  firstRow : Nat
  historyScroll : Nat
  historyRecord : Option Ref
  deriving DecidableEq

/-! ## Keys -/

/-- The keys that `traffic_display_read_key` lets through. -/
inductive Key where
  | p
  | f
  | h
  | j
  | k
  | q
  deriving DecidableEq

variable {R Ref : Type*}

/-- `traffic_display_key`: the display, which view is shown, and whether the key means anything. -/
def trafficDisplayKey (display : Display Ref) (snapshot : Snapshot R Ref) :
    Key → Display Ref × Bool × Bool
  | .p => ({ display with firstRow := 0, historyScroll := 0, historyRecord := none }, false, true)
  | .f => ({ display with firstRow := 0, historyScroll := 0, historyRecord := none }, true, true)
  | .h =>
      let record :=
        if display.historyRecord.isSome then none
        else
          match snapshot.rows[display.firstRow]? with
          | some row => row.record
          | none => display.historyRecord
      ({ display with historyRecord := record, historyScroll := 0 }, snapshot.flows, true)
  | .j =>
      if display.historyRecord.isSome then
        ({ display with historyScroll := display.historyScroll - 1 }, snapshot.flows, true)
      else if display.firstRow + 1 < snapshot.rows.length then
        ({ display with firstRow := display.firstRow + 1 }, snapshot.flows, true)
      else (display, snapshot.flows, true)
  | .k =>
      if display.historyRecord.isSome then
        if display.historyScroll + 1 < historySamples then
          ({ display with historyScroll := display.historyScroll + 1 }, snapshot.flows, true)
        else (display, snapshot.flows, true)
      else ({ display with firstRow := display.firstRow - 1 }, snapshot.flows, true)
  | .q => (display, snapshot.flows, false)

/-! ## Rows -/

def trafficEndpointLines (endpoint : Text) (width : Nat) : Nat :=
  let chunk := width - 8
  if endpoint.length = 0 then 1 else (endpoint.length + chunk - 1) / chunk

/-- `traffic_render_endpoint` -/
def endpointPrints (width : Nat) (label endpoint : Text) : List Print :=
  match Page.pieces (width - 8) (endpoint.length + 1) endpoint with
  | [] => []
  | first :: rest =>
      ⟨some .muted, padRight 7 label ++ first⟩ ::
        rest.map fun piece => ⟨some .muted, padRight 7 [] ++ piece⟩

def trafficRowLines (row : Row R Ref) (flows wide spacing : Bool) (width : Nat) : Nat :=
  let lines := if wide then 1 else 3
  let lines :=
    if flows then
      (if wide then 1 else 4) + trafficEndpointLines row.localEnd width +
        trafficEndpointLines row.remote width
    else lines
  let lines := if wide = false ∧ width < 40 then lines + 2 else lines
  lines + spacing.toNat + 1

variable (doubles : Doubles R)

def rowStatus (row : Row R Ref) : Text :=
  if row.archived then utf8 "旧记录"
  else if row.sampleValid = false then utf8 "采样缺失"
  else if doubles.isZero row.rxRate ∧ doubles.isZero row.txRate then
    (utf8 "空闲 " ++ doubles.rounded row.idleSeconds ++ utf8 "s").take 39
  else utf8 "活跃"

def rowPrints (width : Nat) (row : Row R Ref) (flows wide spacing : Bool) : List Print :=
  let unknown := row.archived || !row.sampleValid
  let rx := if unknown then utf8 "未知" else doubles.formatBytes row.rxRate true
  let tx := if unknown then utf8 "未知" else doubles.formatBytes row.txRate true
  let rxTotal := doubles.formatBytes (doubles.ofCounter row.rxBytes) false
  let txTotal := doubles.formatBytes (doubles.ofCounter row.txBytes) false
  let status := rowStatus doubles row
  let space := utf8 " "
  let endpoints :=
    if flows then
      endpointPrints width (utf8 "Local") row.localEnd ++
        endpointPrints width (utf8 "Remote") row.remote
    else []
  let comm := padRight (trafficFieldWidth row.comm 16) (row.comm.take 16)
  let rates :=
    padLeft (trafficFieldWidth rx 12) rx ++ space ++ padLeft (trafficFieldWidth tx 12)
      tx ++ space ++
      padLeft 11 rxTotal ++ space ++ padLeft 11 txTotal
  let details :=
    if wide then
      if flows then
        ⟨none, padRight 7 (decimal row.tid) ++ space ++ comm ++ space ++
          padRight 7 (decimal row.pid) ++
          space ++ padRight 3 (row.protocol.take 3) ++ space ++ rates⟩ :: endpoints
      else [⟨none, padRight 7 (decimal row.pid) ++ space ++ comm ++ space ++ rates ++
        space ++ status⟩]
    else
      (if flows then
        [⟨none, utf8 "TID " ++ decimal row.tid ++ space ++ row.comm.take 16⟩,
          ⟨some .muted, utf8 "PID " ++ decimal row.pid ++ space ++
            row.protocol.take 7 ++ utf8 " | " ++
            status⟩]
      else [⟨none, decimal row.pid ++ space ++ row.comm.take 16 ++ utf8 " | " ++ status⟩]) ++
      endpoints ++
      if width < 40 then
        [⟨some .rx, utf8 "接收速率  " ++ rx⟩, ⟨some .tx, utf8 "发送速率  " ++ tx⟩,
          ⟨none, utf8 "累计接收  " ++ rxTotal⟩, ⟨none, utf8 "累计发送  " ++ txTotal⟩]
      else
        [⟨some .rx, utf8 "RX " ++ padRight 12 rx ++ utf8 " | 累计接收 " ++ rxTotal⟩,
          ⟨some .tx, utf8 "TX " ++ padRight 12 tx ++ utf8 " | 累计发送 " ++ txTotal⟩]
  details ++
    ⟨some .muted, utf8 "最近 " ++ row.lastSeen ++ if wide && flows then
      utf8 " | " ++ status else []⟩ ::
      if spacing then [⟨none, []⟩] else []

def trafficRenderRow (frame : Frame) (row : Row R Ref) (flows wide spacing : Bool) : Frame :=
  trafficLines frame (rowPrints doubles frame.width row flows wide spacing)

/-! ## The history of a record -/

def samplePrints (perSample : Nat) (time : SampleTime) (sample : TrafficHistory.Sample) :
    List Print :=
  let rx := doubles.formatBytes (doubles.ofCounter sample.rxBytes) false
  let tx := doubles.formatBytes (doubles.ofCounter sample.txBytes) false
  let rxRate := doubles.formatBytes (doubles.bytesPerSecond sample.rxBytes time.elapsedNs) true
  let txRate := doubles.formatBytes (doubles.bytesPerSecond sample.txBytes time.elapsedNs) true
  let known (text : Text) := if sample.available then text else utf8 "未知"
  let head := time.timestamp ++ utf8 " | " ++ doubles.seconds time.elapsedNs ++ utf8 "s"
  if perSample = 1 then
    [⟨none, head ++ utf8 " | RX " ++ known rx ++ utf8 " / " ++ known rxRate ++
      utf8 " | TX " ++ known tx ++
      utf8 " / " ++ known txRate⟩]
  else if sample.available = false then
    [⟨some .muted, head⟩, ⟨some .muted, utf8 "本周期数据缺失"⟩, ⟨none, []⟩]
  else
    [⟨some .muted, head⟩, ⟨some .rx, utf8 "RX " ++ rx ++ utf8 " | " ++ rxRate⟩,
      ⟨some .tx, utf8 "TX " ++ tx ++ utf8 " | " ++ txRate⟩]

def historyFooter (width : Nat) (first last count : Nat) : List Print :=
  ⟨some .muted, utf8 "历史 " ++ decimal first ++ utf8 "-" ++ decimal last ++ utf8 "/" ++
    decimal count⟩ ::
    if width < 40 then [⟨some .muted, utf8 "k 更早 | j 较新"⟩, ⟨some .muted, utf8 "h 返回 | q 退出"⟩]
    else [⟨some .muted, utf8 "k 更早 | j 较新 | h 返回 | q 退出"⟩]

/-- The first sample of a record that the history still has. -/
def oldestSequence (history : History) (record : Record R Ref) : Nat :=
  max (if history.sequence ≥ historySamples then history.sequence - historySamples + 1 else 1)
    record.bornSequence

def sampleCount (history : History) (record : Record R Ref) : Nat :=
  history.sequence - oldestSequence history record + 1

def sampleSlot (sequence : Nat) : Fin historySamples :=
  ⟨(sequence - 1) % historySamples, Nat.mod_lt _ (by decide)⟩

def historyFooterLines (width : Nat) : Nat := if width < 40 then 3 else 2

/-- There is no history to show, or no room for it. -/
def HistoryHidden (frame : Frame) (record : Record R Ref) (flows : Bool)
    (history : Option History) : Prop :=
  history.elim 0 History.sequence = 0 ∨
    frame.limit < frame.used + trafficRowLines record.row flows false false frame.width + 2 +
      historyFooterLines frame.width

instance (frame : Frame) (record : Record R Ref) (flows : Bool) (history : Option History) :
    Decidable (HistoryHidden frame record flows history) := inferInstanceAs (Decidable (_ ∨ _))

def trafficRenderHistory (frame : Frame) (record : Record R Ref) (flows : Bool)
    (history : Option History)
    (historyScroll : Nat) : Frame × Nat :=
  let footer := historyFooterLines frame.width
  let perSample := if frame.width ≥ 110 then 1 else 3
  if HistoryHidden frame record flows history then
    (trafficLines frame
      [⟨some .muted, utf8 "请放大终端查看历史"⟩, ⟨some .muted, utf8 "h 返回 | q 退出"⟩], historyScroll)
  else
    match history with
    | none => (frame, historyScroll)
    | some history =>
        let frame := trafficRenderRow doubles frame record.row flows false false
        let frame := trafficLines frame
          [⟨some .title, utf8 "历史: 最近 60 次采样"⟩, ⟨some .muted, utf8 "收发量 / 速率 | 采样结束时间"⟩]
        let oldest := oldestSequence history record
        let count := sampleCount history record
        let historyScroll := if historyScroll ≥ count then count - 1 else historyScroll
        let last := history.sequence - historyScroll
        let shown := min ((frame.limit - frame.used - footer) / perSample) (last - oldest + 1)
        let start := last + 1 - shown
        let frame := (List.range' start shown).foldl (fun frame sequence =>
          trafficLines frame (samplePrints doubles perSample (history.frames (sampleSlot sequence))
            (record.samples (sampleSlot sequence)))) frame
        let frame := trafficLines frame (historyFooter frame.width
          (if shown = 0 then 0 else start - oldest + 1)
            (if shown = 0 then 0 else last - oldest + 1) count)
        (frame, historyScroll)

/-! ## The frame -/

/-- The size of the terminal, where `ioctl` says it: columns and rows. -/
abbrev Window := Option (Nat × Nat)

def windowFrame : Window → Frame
  | none => ⟨80, 23, []⟩
  | some (columns, rows) =>
      ⟨if columns = 0 then 80 else columns, if rows = 0 then 23 else rows - 1, []⟩

/-- The lines that a live frame keeps for its footer. -/
def footerLines (width : Nat) (inputSaved : Bool) : Nat :=
  (if width < 44 then 2 else 1) + (if width < 64 then 2 else 1) +
    (if inputSaved = true ∧ width < 64 then 2 else 1)

def TooSmall (frame : Frame) (inputSaved : Bool) : Prop :=
  frame.width < 32 ∨ frame.limit < 12 + footerLines frame.width inputSaved

instance (frame : Frame) (inputSaved : Bool) : Decidable (TooSmall frame inputSaved) :=
  inferInstanceAs (Decidable (_ ∨ _))

/-- The three lines below the title. -/
def headPrints (snapshot : Snapshot R Ref) : List Print :=
  [⟨some .title, utf8 (if snapshot.flows then "THREAD VIEW" else "PROCESS VIEW") ++ utf8 "  " ++
      snapshot.protocol.getD (utf8 "TCP/UDP") ++ utf8 "  " ++
        doubles.rounded snapshot.elapsedSeconds ++
      utf8 "s"⟩,
    ⟨some .muted, snapshot.filter.getD (utf8 "All processes") ++ utf8 " | every " ++
      decimal snapshot.intervalSeconds ++ utf8 "s"⟩,
    ⟨some .muted, utf8 "时间 " ++ snapshot.timestamp⟩]

/-- The totals of a live frame. -/
def totalPrints (snapshot : Snapshot R Ref) : List Print :=
  [⟨some .title, utf8 "当前速率"⟩,
    ⟨some .rx, utf8 "RX  " ++ doubles.formatBytes snapshot.rxRate true⟩,
    ⟨some .tx, utf8 "TX  " ++ doubles.formatBytes snapshot.txRate true⟩,
    ⟨some .muted, utf8 "本次累计"⟩,
    ⟨none, utf8 "累计接收  " ++ doubles.formatBytes (doubles.ofCounter snapshot.rxBytes) false⟩,
    ⟨none, utf8 "累计发送  " ++ doubles.formatBytes (doubles.ofCounter snapshot.txBytes) false⟩]

/-- The line above the rows. -/
def columnPrint (wide flows : Bool) : Print :=
  let columns := utf8 "接收速率     发送速率    累计接收    累计发送"
  if wide && flows then
    ⟨some .muted, padRight 7 (utf8 "TID") ++ utf8 " " ++ padRight 16 (utf8 "THREAD") ++ utf8 " " ++
      padRight 7 (utf8 "PID") ++ utf8 " " ++ padRight 3 (utf8 "P") ++ utf8 "     " ++ columns⟩
  else if wide then
    ⟨some .muted, padRight 7 (utf8 "PID") ++ utf8 " " ++ padRight 16 (utf8 "COMMAND") ++
      utf8 "     " ++
      columns ++ utf8 " " ++ utf8 "状态"⟩
  else ⟨some .muted, utf8 "明细: 当前速率 | 累计量"⟩

def trafficWarningLines (warning : Option Text) (width : Nat) : Nat :=
  let length := (warning.getD []).length
  if length = 0 ∨ width < 2 then 0 else min ((length + width - 2) / (width - 1) % 2 ^ 32) 3

def warningPrints (warning : Option Text) (width lines : Nat) : List Print :=
  (List.range lines).map fun i =>
    let suffix := (warning.getD []).drop (i * (width - 1))
    ⟨some .muted, if i + 1 = lines then suffix else suffix.take (width - 1)⟩

/-- The lines that say which rows are shown. -/
def positionPrints (width first shown total : Nat) : List Print :=
  let position :=
    utf8 "记录 " ++ decimal (if shown = 0 then 0 else first + 1) ++ utf8 "-" ++
      decimal (if shown = 0 then 0 else first + shown) ++ utf8 "/" ++ decimal total
  let hidden := utf8 "未显示 " ++ decimal (total - shown) ++ utf8 " 条"
  if width < 44 then [⟨some .muted, position⟩, ⟨some .muted, hidden⟩]
  else [⟨some .muted, position ++ utf8 " | " ++ hidden⟩]

/-- The lines below the warning. -/
def controlPrints (width : Nat) (inputSaved : Bool) : List Print :=
  (if width < 64 then [⟨some .muted, utf8 "统计: Socket 收发字节"⟩,
    ⟨some .muted, utf8 "含 TLS 开销及 PEEK 读取"⟩]
    else [⟨some .muted, utf8 "统计: Socket 收发字节; 含 TLS 开销及 PEEK 读取"⟩]) ++
  if inputSaved = true ∧ width < 64 then
    [⟨some .muted, utf8 "p 进程 | f 线程 | h 历史"⟩, ⟨some .muted, utf8 "j/k 滚动 | q 退出"⟩]
  else
    [⟨some .muted,
      if inputSaved then utf8 "p 进程 | f 线程 | h 历史 | j/k 滚动 | q 退出" else utf8 "Ctrl-C 停止"⟩]

/-- The loop over the rows: the frame, how many lines are left, and how many rows are shown. -/
def renderRows (flows wide spacing : Bool) : Frame → Nat → List (Row R Ref) → Frame × Nat × Nat
  | frame, available, [] => (frame, available, 0)
  | frame, available, row :: rows =>
      let lines := trafficRowLines row flows wide spacing frame.width
      if lines > available then (frame, available, 0)
      else
        let (frame, available, shown) :=
          renderRows flows wide spacing (trafficRenderRow doubles frame row flows wide spacing)
            (available - lines) rows
        (frame, available, shown + 1)

def clampRow (firstRow count : Nat) : Nat :=
  if count = 0 then 0 else if firstRow ≥ count then count - 1 else firstRow

def renderLive (frame : Frame) (display : Display Ref) (snapshot : Snapshot R Ref) : Frame × Nat :=
  let footer := footerLines frame.width display.inputSaved
  let wide := decide (frame.width ≥ if snapshot.flows then 110 else 100)
  let spacing := !wide && decide (frame.limit ≥ 30)
  let frame :=
    trafficLines frame (totalPrints doubles snapshot ++ [columnPrint wide snapshot.flows])
  let warningLines :=
    min (trafficWarningLines snapshot.warning frame.width) (frame.limit - frame.used - footer)
  let available := frame.limit - frame.used - warningLines - footer
  let firstRow := clampRow display.firstRow snapshot.rows.length
  let (frame, available, shown) :=
    renderRows doubles snapshot.flows wide spacing frame available (snapshot.rows.drop firstRow)
  let frame :=
    if snapshot.rows.length = 0 ∧ available ≠ 0 then
      trafficLine frame ⟨some .muted, utf8 "等待 Socket 收发..."⟩
    else frame
  let frame := trafficLines frame (positionPrints frame.width firstRow shown snapshot.rows.length)
  let frame := trafficLines frame (warningPrints snapshot.warning frame.width warningLines)
  (trafficLines frame (controlPrints frame.width display.inputSaved), firstRow)

def trafficDisplayRender (display : Display Ref) (window : Window) (snapshot : Snapshot R Ref) :
    Display Ref × List Print :=
  if display.active = false then (display, [])
  else
    let frame := trafficLine (windowFrame window) ⟨some .title, utf8 "ANETTRACE / TRAFFIC LAB"⟩
    if TooSmall frame display.inputSaved then
      let frame := trafficLines frame
        [⟨some .muted, utf8 "请放大终端"⟩,
          ⟨some .muted, if display.inputSaved then utf8 "q 退出" else utf8 "Ctrl-C 停止"⟩]
      (display, frame.lines)
    else
      let frame := trafficLines frame (headPrints doubles snapshot)
      match display.historyRecord with
      | some ref =>
          let (frame, historyScroll) := trafficRenderHistory doubles frame (snapshot.records ref)
            snapshot.flows snapshot.history display.historyScroll
          ({ display with historyScroll := historyScroll }, frame.lines)
      | none =>
          let (frame, firstRow) := renderLive doubles frame display snapshot
          ({ display with firstRow := firstRow }, frame.lines)

end Anettrace.TrafficDisplay
