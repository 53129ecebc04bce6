import Mathlib.Data.List.Sort
import Anettrace.Traffic.Sampler

/-!
# No byte is sampled twice

The deltas of one entry of a map add up to no more than the last of its samples, and to exactly that
where no sample of it had a gap, by a telescope over the frames: the bytes before the first sample
are attributed at most once, since an entry that is not in the sample before and was created since
then was never sampled. An entry whose bytes were added before `last_seen_ns` was set is sampled
without being shown, and `sampled_once` needs that no sample is of that moment
(`unseen_bytes_lost`).
-/

namespace Anettrace.Traffic

open Library

variable {κ : Type*}

/-- Counters only grow: a later read of an entry has no less than an earlier one. -/
def TrafficRow.Grows (earlier later : TrafficRow κ) : Prop :=
  earlier.key = later.key → earlier.value.firstSeenNs = later.value.firstSeenNs →
    ∀ tx, earlier.value.bytes tx ≤ later.value.bytes tx

section Statement

variable [LinearOrder κ]

/-- What the kernel promises of a tick: entries that were read before it were created before its
clock, and counters only grow. -/
def TrafficSampler.Possible (sampler : TrafficSampler κ) (session : TrafficSession κ)
    (tick : TrafficTick κ) : Prop :=
  session.skips tick = false →
    (∀ row ∈ session.reads, row.value.firstSeenNs < tick.nowNs) ∧
      (session.reads ++ sampler.reads tick).Pairwise TrafficRow.Grows

def SamplerRun (sampler : TrafficSampler κ) (startNs : UInt64) (ticks : List (TrafficTick κ)) :
    Prop :=
  ∀ before tick later, ticks = before ++ tick :: later →
    sampler.Possible (sampler.after startNs before) tick

/-- The condition on a tick: no row that is kept has bytes and a `last_seen_ns` of 0. -/
def TrafficSampler.AllSeen (sampler : TrafficSampler κ) (tick : TrafficTick κ) : Prop :=
  ∀ row ∈ sampler.unique (sampler.reads tick), row.value.lastSeenNs = 0 →
    ∀ tx, row.value.bytes tx = 0

/-- An entry of a map: a key, and when it was created. -/
structure TrafficEntry (κ : Type*) where
  key : κ
  firstSeenNs : UInt64
  deriving DecidableEq, Repr

end Statement

def TrafficRow.entry (row : TrafficRow κ) : TrafficEntry κ :=
  ⟨row.key, row.value.firstSeenNs⟩

def TrafficDeltas.bytes (deltas : TrafficDeltas) (tx : Bool) : UInt64 :=
  if tx then deltas.tx else deltas.rx

section Property

variable [DecidableEq κ]

def TrafficSession.shown (session : TrafficSession κ) (entry : TrafficEntry κ) :
    List (TrafficShown κ) :=
  (session.frames.flatMap TrafficFrame.shown).filter fun shown => shown.row.entry = entry

def TrafficSession.samples (session : TrafficSession κ) (entry : TrafficEntry κ) :
    List (TrafficRow κ) :=
  (session.frames.flatMap TrafficFrame.rows).filter fun row => row.entry = entry

/-- The bytes attributed to an entry over all frames. -/
def TrafficSession.attributed (session : TrafficSession κ) (entry : TrafficEntry κ) (tx : Bool) :
    Nat :=
  ((session.shown entry).map fun shown => (shown.deltas.bytes tx).toNat).sum

def TrafficSession.lastSample (session : TrafficSession κ) (entry : TrafficEntry κ) (tx : Bool) :
    Nat :=
  ((session.samples entry).getLast?.map fun row => (row.value.bytes tx).toNat).getD 0

/-- No byte is counted twice: a frame has one row for each key, no delta is more than the counter it
is of, and the deltas of an entry add up to no more than its last sample, which they are where no
sample of it had a gap. -/
structure TrafficSession.SampledOnce (session : TrafficSession κ) : Prop where
  once : ∀ frame ∈ session.frames, (frame.rows.map TrafficRow.key).Nodup ∧
    (frame.shown.map fun shown => shown.row.key).Nodup
  within : ∀ frame ∈ session.frames, ∀ shown ∈ frame.shown, ∀ tx,
    shown.deltas.bytes tx ≤ shown.row.value.bytes tx
  bounded : ∀ entry tx, session.attributed entry tx ≤ session.lastSample entry tx
  exact : ∀ entry, (∀ shown ∈ session.shown entry, shown.deltas.incomplete = false) →
    ∀ tx, session.attributed entry tx = session.lastSample entry tx

end Property

/-! ## The rows that are kept -/

section Unique

variable [LinearOrder κ] {sampler : TrafficSampler κ} {rows kept : List (TrafficRow κ)}

/-- The rows kept so far are of different keys, in descending order, and the next rows have no
smaller key than the last. -/
theorem keepRows_spec {replaces : TrafficCounters → TrafficCounters → Bool}
    (hrows : rows.Pairwise fun first second => first.key ≤ second.key)
    (hkept : kept.Pairwise fun first second => second.key < first.key)
    (hafter : ∀ last ∈ kept.head?, ∀ row ∈ rows, last.key ≤ row.key) :
    (rows.foldl (keepRow replaces) kept).Pairwise (fun first second => second.key < first.key) ∧
      ∀ row ∈ rows.foldl (keepRow replaces) kept, row ∈ kept ∨ row ∈ rows := by
  induction rows generalizing kept with
  | nil => exact ⟨hkept, fun row hrow => .inl hrow⟩
  | cons row rest ih =>
      obtain ⟨hfirst, hrest⟩ := List.pairwise_cons.mp hrows
      -- what is kept after the first row
      have hstep :
          (keepRow replaces kept row).Pairwise (fun first second => second.key < first.key) ∧
          (∀ last ∈ (keepRow replaces kept row).head?, last.key = row.key) ∧
          ∀ found ∈ keepRow replaces kept row, found ∈ kept ∨ found = row := by
        unfold keepRow
        split
        case h_1 => simp
        case h_2 last others =>
          obtain ⟨hlast, hothers⟩ := List.pairwise_cons.mp hkept
          have hle : last.key ≤ row.key := hafter last rfl row (List.mem_cons_self ..)
          split
          case isTrue hkey =>
            split
            case isTrue =>
              refine ⟨List.pairwise_cons.mpr ⟨fun other hother =>
                hkey ▸ hlast other hother, hothers⟩,
                by simp, fun found hfound => ?_⟩
              rcases List.mem_cons.mp hfound with rfl | hold
              · exact .inr rfl
              · exact .inl (List.mem_cons_of_mem _ hold)
            case isFalse => exact ⟨hkept, by simpa using hkey, fun found hfound => .inl hfound⟩
          case isFalse hkey =>
            have hlt : last.key < row.key := lt_of_le_of_ne hle hkey
            refine ⟨List.pairwise_cons.mpr ⟨fun other hother => ?_, hkept⟩, by simp,
              fun found hfound => ?_⟩
            · rcases List.mem_cons.mp hother with rfl | hold
              · exact hlt
              · exact (hlast other hold).trans hlt
            · rcases List.mem_cons.mp hfound with rfl | hold
              · exact .inr rfl
              · exact .inl hold
      obtain ⟨hsorted, hhead, hmem⟩ := hstep
      obtain ⟨hdone, hof⟩ := ih hrest hsorted fun last hlast other hother =>
        (hhead last hlast).le.trans (hfirst other hother)
      refine ⟨hdone, fun found hfound => ?_⟩
      rcases hof found hfound with hold | hnew
      · rcases hmem found hold with hkept' | rfl
        · exact .inl hkept'
        · exact .inr (List.mem_cons_self ..)
      · exact .inr (List.mem_cons_of_mem _ hnew)

/-- Duplicates in one walk count once. -/
theorem TrafficSampler.unique_nodup : ((sampler.unique rows).map TrafficRow.key).Nodup := by
  obtain ⟨hsorted, -⟩ := @keepRows_spec _ _ (sampler.qsort.sort rows) [] sampler.replaces
    (sampler.qsort.sorted rows) .nil (fun _ h => by cases h)
  unfold TrafficSampler.unique
  rw [List.map_reverse, List.nodup_reverse]
  exact List.pairwise_map.mpr (hsorted.imp fun h => h.ne')

theorem TrafficSampler.mem_unique {row : TrafficRow κ} (h : row ∈ sampler.unique rows) :
    row ∈ rows := by
  obtain ⟨-, hof⟩ := @keepRows_spec _ _ (sampler.qsort.sort rows) [] sampler.replaces
    (sampler.qsort.sorted rows) .nil (fun _ h => by cases h)
  rcases hof row (List.mem_reverse.mp h) with hnil | hsorted
  · cases hnil
  · exact (sampler.qsort.perm rows).subset hsorted

end Unique

/-! ## One frame -/

section Frame

variable [LinearOrder κ] {sampler : TrafficSampler κ} {rows : List (TrafficRow κ)}

theorem filter_entry (h : (rows.map TrafficRow.key).Nodup) (entry : TrafficEntry κ) :
    (rows.filter fun row => row.entry = entry) = [] ∨
      ∃ row ∈ rows, row.entry = entry ∧ (rows.filter fun row => row.entry = entry) = [row] := by
  induction rows with
  | nil => exact .inl rfl
  | cons row rest ih =>
      obtain ⟨hfresh, hrest⟩ := List.nodup_cons.mp h
      by_cases hentry : row.entry = entry
      case neg =>
        rw [List.filter_cons_of_neg (by simpa using hentry)]
        rcases ih hrest with hnone | ⟨found, hfound, hof, hsingle⟩
        · exact .inl hnone
        · exact .inr ⟨found, List.mem_cons_of_mem _ hfound, hof, hsingle⟩
      case pos =>
        refine .inr ⟨row, List.mem_cons_self .., hentry, ?_⟩
        rw [List.filter_cons_of_pos (by simpa using hentry)]
        congr 1
        refine List.filter_eq_nil_iff.mpr fun other hother hsame => hfresh ?_
        have hkey : other.key = row.key :=
          congrArg TrafficEntry.key ((of_decide_eq_true hsame).trans hentry.symm)
        exact hkey ▸ List.mem_map_of_mem hother

theorem find_key {row : TrafficRow κ} (h : (rows.map TrafficRow.key).Nodup) (hrow : row ∈ rows) :
    (rows.find? fun other => other.key = row.key) = some row := by
  induction rows with
  | nil => cases hrow
  | cons first rest ih =>
      obtain ⟨hfresh, hrest⟩ := List.nodup_cons.mp h
      rcases List.mem_cons.mp hrow with rfl | hmem
      · exact List.find?_cons_of_pos (by simp)
      · rw [List.find?_cons_of_neg]
        · exact ih hrest hmem
        · intro hkey
          rw [of_decide_eq_true hkey] at hfresh
          exact hfresh (List.mem_map_of_mem hmem)

variable {session : TrafficSession κ} {tick : TrafficTick κ}

theorem TrafficSampler.frame_shown (entry : TrafficEntry κ) :
    ((sampler.frame session tick).shown.filter fun shown => shown.row.entry = entry) =
      ((((sampler.frame session tick).rows.filter fun row => row.entry = entry).filter
        fun row => row.value.lastSeenNs ≠ 0).map
          (displayCounters session.previous session.lastReportNs)) := by
  unfold TrafficSampler.frame
  dsimp only
  rw [List.filter_map, List.filter_filter, List.filter_filter]
  congr 2
  funext row
  exact Bool.and_comm ..

/-- No delta is negative or wrapped. -/
theorem trafficSampleDeltas_le (value : TrafficCounters) (previous : Option TrafficCounters)
    (sinceNs : UInt64) (tx : Bool) :
    (trafficSampleDeltas value previous sinceNs).bytes tx ≤ value.bytes tx := by
  have hunmatched : ∀ deltas : TrafficDeltas,
      deltas = (if value.firstSeenNs ≠ 0 ∧ value.firstSeenNs ≥ sinceNs then
        ⟨value.rxBytes, value.txBytes, false⟩ else ⟨0, 0, true⟩) →
      deltas.bytes tx ≤ value.bytes tx := by
    rintro deltas rfl
    split
    case isTrue => exact UInt64.le_refl _
    case isFalse => cases tx <;> exact UInt64.zero_le
  unfold trafficSampleDeltas
  dsimp only
  split
  case h_1 => exact hunmatched _ rfl
  case h_2 previous =>
    split
    case isFalse => exact hunmatched _ rfl
    case isTrue =>
      split
      case isTrue => cases tx <;> exact UInt64.zero_le
      case isFalse hless =>
        rw [not_or, UInt64.not_lt, UInt64.not_lt] at hless
        cases tx
        · exact UInt64.sub_le hless.1
        · exact UInt64.sub_le hless.2

/-- What is known of a session between two frames: the rows of the last frame are the last samples
of their entries, and every other sample is of an entry created before the last frame. -/
structure TrafficSession.Sound (session : TrafficSession κ) : Prop where
  kept : ∀ frame ∈ session.frames, ∀ row ∈ frame.rows, row ∈ session.reads
  nodup : (session.previous.map TrafficRow.key).Nodup
  recent : ∀ frame ∈ session.frames, ∀ row ∈ frame.rows,
    row ∈ session.previous ∨ row.value.firstSeenNs < session.lastReportNs
  last : ∀ row ∈ session.previous, row ∈ session.reads ∧
    ∀ tx, session.lastSample row.entry tx = (row.value.bytes tx).toNat
  once : session.SampledOnce

theorem TrafficSession.Sound.start (startNs : UInt64) :
    (TrafficSession.start startNs : TrafficSession κ).Sound where
  kept := fun _ h => by cases h
  nodup := .nil
  recent := fun _ h => by cases h
  last := fun _ h => by cases h
  once :=
    ⟨fun _ h => (by cases h), fun _ h => (by cases h), fun _ _ => Nat.le_refl 0, fun _ _ _ => rfl⟩

theorem TrafficSession.Sound.lastSample_cases (h : session.Sound) (entry : TrafficEntry κ) :
    (session.samples entry = [] ∧ ∀ tx, session.lastSample entry tx = 0) ∨
      ∃ row ∈ session.reads, row.entry = entry ∧
        ∀ tx, session.lastSample entry tx = (row.value.bytes tx).toNat := by
  unfold TrafficSession.lastSample
  cases hlast : (session.samples entry).getLast? with
  | none => exact .inl ⟨List.getLast?_eq_none_iff.mp hlast, fun _ => rfl⟩
  | some row =>
      have hmem : row ∈ session.samples entry := List.mem_of_getLast? hlast
      obtain ⟨hrow, hentry⟩ := List.mem_filter.mp hmem
      obtain ⟨frame, hframe, hof⟩ := List.mem_flatMap.mp hrow
      exact .inr ⟨row, h.kept frame hframe row hof, of_decide_eq_true hentry, fun _ => rfl⟩

section

variable (h : session.Sound) {row : TrafficRow κ}
  (hgrows : ∀ earlier ∈ session.reads, earlier.Grows row) (tx : Bool)
include h hgrows

theorem TrafficSession.Sound.lastSample_le :
    session.lastSample row.entry tx ≤ (row.value.bytes tx).toNat := by
  obtain ⟨-, hzero⟩ | ⟨earlier, hread, hentry, hlast⟩ := h.lastSample_cases row.entry
  · exact (hzero tx).le.trans (Nat.zero_le _)
  · rw [hlast tx]
    exact UInt64.le_iff_toNat_le.mp (hgrows earlier hread (congrArg TrafficEntry.key hentry)
      (congrArg TrafficEntry.firstSeenNs hentry) tx)

/-- The deltas of a row bring what is attributed to its entry up to its counter, unless it has a
gap; they never bring it beyond. -/
theorem TrafficSession.Sound.deltas :
    let deltas := (displayCounters session.previous session.lastReportNs row).deltas
    session.lastSample row.entry tx + (deltas.bytes tx).toNat ≤ (row.value.bytes tx).toNat ∧
      (deltas.incomplete = false →
        session.lastSample row.entry tx + (deltas.bytes tx).toNat =
          (row.value.bytes tx).toNat) := by
  have hle := h.lastSample_le hgrows tx
  -- a row whose entry is not in the sample before
  have hunmatched : (∀ earlier ∈ session.previous, earlier.entry ≠ row.entry) →
      ∀ deltas : TrafficDeltas,
      deltas = (if row.value.firstSeenNs ≠ 0 ∧ row.value.firstSeenNs ≥ session.lastReportNs then
        ⟨row.value.rxBytes, row.value.txBytes, false⟩ else ⟨0, 0, true⟩) →
      session.lastSample row.entry tx + (deltas.bytes tx).toNat ≤ (row.value.bytes tx).toNat ∧
        (deltas.incomplete = false →
          session.lastSample row.entry tx + (deltas.bytes tx).toNat =
            (row.value.bytes tx).toNat) := by
    rintro hnew deltas rfl
    split
    case isFalse =>
      refine ⟨?_, fun hcontra => by cases hcontra⟩
      cases tx <;> exact hle
    case isTrue hcreated =>
      -- it was created since then, and so it was never sampled
      have hzero : session.lastSample row.entry tx = 0 := by
        unfold TrafficSession.lastSample
        cases hlast : (session.samples row.entry).getLast? with
        | none => rfl
        | some sample =>
            obtain ⟨hsample, hentry⟩ := List.mem_filter.mp (List.mem_of_getLast? hlast)
            obtain ⟨frame, hframe, hof⟩ := List.mem_flatMap.mp hsample
            have hsame : sample.entry = row.entry := of_decide_eq_true hentry
            rcases h.recent frame hframe sample hof with hprevious | hold
            · exact absurd hsame (hnew sample hprevious)
            · have hfirst : sample.value.firstSeenNs = row.value.firstSeenNs :=
                congrArg TrafficEntry.firstSeenNs hsame
              rw [hfirst] at hold
              exact absurd hold (UInt64.not_lt.mpr hcreated.2)
      rw [hzero, Nat.zero_add]
      cases tx <;> exact ⟨Nat.le_refl _, fun _ => rfl⟩
  unfold displayCounters trafficSampleDeltas
  dsimp only
  cases hfind : session.previous.find? fun other => other.key = row.key with
  | none =>
      refine hunmatched (fun earlier hearlier hsame => ?_) _ rfl
      have hnone := List.find?_eq_none.mp hfind earlier hearlier
      exact hnone (decide_eq_true (congrArg TrafficEntry.key hsame))
  | some earlier =>
      have hmem : earlier ∈ session.previous := List.mem_of_find?_eq_some hfind
      have hfound := List.find?_some hfind
      have hkey : earlier.key = row.key := of_decide_eq_true hfound
      rw [Option.map_some]
      dsimp only
      by_cases hfirst : row.value.firstSeenNs = earlier.value.firstSeenNs
      case neg =>
        rw [if_neg hfirst]
        refine hunmatched (fun other hother hsame => hfirst ?_) _ rfl
        have hfound := find_key h.nodup hother
        rw [show other.key = row.key from congrArg TrafficEntry.key hsame, hfind] at hfound
        obtain rfl := Option.some.inj hfound
        exact (congrArg TrafficEntry.firstSeenNs hsame).symm
      case pos =>
        have hentry : earlier.entry = row.entry := by
          unfold TrafficRow.entry
          rw [hkey, hfirst]
        obtain ⟨hread, hlast⟩ := h.last earlier hmem
        have hmore := hgrows earlier hread hkey hfirst.symm
        rw [if_pos hfirst, if_neg (by
          rw [not_or, UInt64.not_lt, UInt64.not_lt]
          exact ⟨hmore false, hmore true⟩)]
        have hdelta : ∀ deltas : UInt64,
            deltas = row.value.bytes tx - earlier.value.bytes tx →
            session.lastSample row.entry tx + deltas.toNat = (row.value.bytes tx).toNat := by
          rintro deltas rfl
          rw [← hentry, hlast tx, UInt64.toNat_sub_of_le _ _ (hmore tx)]
          have hnat := UInt64.le_iff_toNat_le.mp (hmore tx)
          omega
        cases tx
        · have heq := hdelta _ rfl
          exact ⟨heq.le, fun _ => heq⟩
        · have heq := hdelta _ rfl
          exact ⟨heq.le, fun _ => heq⟩

end

def TrafficSession.followedBy (session : TrafficSession κ) (frame : TrafficFrame κ) (nowNs : UInt64)
    (reads : List (TrafficRow κ)) : TrafficSession κ :=
  ⟨frame.rows, nowNs, session.frames ++ [frame], session.reads ++ reads⟩

/-- What a frame adds to an entry: nothing, a sample that is not shown, or one with its deltas. -/
inductive TrafficSession.Adds (session : TrafficSession κ) (frame : TrafficFrame κ)
    (next : TrafficSession κ) (entry : TrafficEntry κ) : Prop
  | none (habsent : ∀ row ∈ frame.rows, row.entry ≠ entry)
      (hsample : ∀ tx, next.lastSample entry tx = session.lastSample entry tx)
      (hshown : next.shown entry = session.shown entry)
  | unseen (row : TrafficRow κ) (hrow : row ∈ frame.rows) (hentry : row.entry = entry)
      (hsole : ∀ other ∈ frame.rows, other.entry = entry → other = row)
      (hunseen : row.value.lastSeenNs = 0)
      (hsample : ∀ tx, next.lastSample entry tx = (row.value.bytes tx).toNat)
      (hshown : next.shown entry = session.shown entry)
  | shown (row : TrafficRow κ) (hrow : row ∈ frame.rows) (hentry : row.entry = entry)
      (hsole : ∀ other ∈ frame.rows, other.entry = entry → other = row)
      (hsample : ∀ tx, next.lastSample entry tx = (row.value.bytes tx).toNat)
      (hshown : next.shown entry = session.shown entry ++
        [displayCounters session.previous session.lastReportNs row])

theorem TrafficSampler.frame_nodup :
    ((sampler.frame session tick).rows.map TrafficRow.key).Nodup :=
  TrafficSampler.unique_nodup

theorem TrafficSampler.frame_adds (nowNs : UInt64) (reads : List (TrafficRow κ))
    (entry : TrafficEntry κ) :
    session.Adds (sampler.frame session tick)
      (session.followedBy (sampler.frame session tick) nowNs reads)
      entry := by
  have hshown := @TrafficSampler.frame_shown _ _ sampler session tick entry
  have hsamples := filter_entry (@TrafficSampler.frame_nodup _ _ sampler session tick) entry
  generalize sampler.frame session tick = frame at *
  have hnextSamples : (session.followedBy frame nowNs reads).samples entry =
      session.samples entry ++ frame.rows.filter fun row => row.entry = entry := by
    unfold TrafficSession.samples TrafficSession.followedBy
    simp
  have hnextShown : (session.followedBy frame nowNs reads).shown entry =
      session.shown entry ++ frame.shown.filter fun shown => shown.row.entry = entry := by
    unfold TrafficSession.shown TrafficSession.followedBy
    simp
  rw [hshown] at hnextShown
  rcases hsamples with hnone | ⟨row, hrow, hentry, hsingle⟩
  · rw [hnone, List.append_nil] at hnextSamples
    rw [hnone] at hnextShown
    refine .none (fun row hrow hentry => ?_) (fun tx => ?_) (hnextShown.trans (List.append_nil _))
    · exact List.filter_eq_nil_iff.mp hnone row hrow (decide_eq_true hentry)
    · unfold TrafficSession.lastSample
      rw [hnextSamples]
  · rw [hsingle] at hnextSamples hnextShown
    have hsample : ∀ tx, (session.followedBy frame nowNs reads).lastSample entry tx =
        (row.value.bytes tx).toNat := by
      intro tx
      unfold TrafficSession.lastSample
      rw [hnextSamples, List.getLast?_concat]
      rfl
    have hsole : ∀ other ∈ frame.rows, other.entry = entry → other = row := by
      intro other hother hsame
      have hmem : other ∈ frame.rows.filter fun row => row.entry = entry :=
        List.mem_filter.mpr ⟨hother, decide_eq_true hsame⟩
      rw [hsingle] at hmem
      exact List.mem_singleton.mp hmem
    by_cases hunseen : row.value.lastSeenNs = 0
    · rw [List.filter_cons_of_neg (by simpa using hunseen)] at hnextShown
      exact .unseen row hrow hentry hsole hunseen hsample (hnextShown.trans (List.append_nil _))
    · rw [List.filter_cons_of_pos (by simpa using hunseen)] at hnextShown
      exact .shown row hrow hentry hsole hsample hnextShown

/-- A frame keeps the accounts of every entry. -/
theorem TrafficSession.Sound.next (h : session.Sound) (hpossible : sampler.Possible session tick)
    (hseen : sampler.AllSeen tick) : (sampler.tick session tick).Sound := by
  unfold TrafficSampler.tick
  cases hskips : session.skips tick with
  | true => exact h
  | false =>
      obtain ⟨hclock, hpairs⟩ := hpossible hskips
      obtain ⟨-, -, hgrows⟩ := List.pairwise_append.mp hpairs
      rw [if_neg (by simp)]
      have hread : ∀ row ∈ (sampler.frame session tick).rows, row ∈ sampler.reads tick :=
        fun row hrow => TrafficSampler.mem_unique hrow
      have hbelow : ∀ row ∈ (sampler.frame session tick).rows, ∀ earlier ∈ session.reads,
          earlier.Grows row :=
        fun row hrow earlier hearlier => hgrows earlier hearlier row (hread row hrow)
      have hadds :=
        @TrafficSampler.frame_adds _ _ sampler session tick tick.nowNs (sampler.reads tick)
      change (session.followedBy (sampler.frame session tick) tick.nowNs (sampler.reads tick)).Sound
      refine ⟨?_, @TrafficSampler.frame_nodup _ _ sampler session tick, ?_, ?_, ⟨?_, ?_, ?_, ?_⟩⟩
      · intro frame hframe row hrow
        rcases List.mem_append.mp hframe with hold | hnew
        · exact List.mem_append_left _ (h.kept frame hold row hrow)
        · obtain rfl := List.mem_singleton.mp hnew
          exact List.mem_append_right _ (hread row hrow)
      · intro frame hframe row hrow
        rcases List.mem_append.mp hframe with hold | hnew
        · exact .inr (hclock row (h.kept frame hold row hrow))
        · obtain rfl := List.mem_singleton.mp hnew
          exact .inl hrow
      · intro row hrow
        refine ⟨List.mem_append_right _ (hread row hrow), fun tx => ?_⟩
        cases hadds row.entry with
        | none habsent _ _ => exact absurd rfl (habsent row hrow)
        | unseen found _ _ hsole _ hsample _ =>
            obtain rfl := hsole row hrow rfl
            exact hsample tx
        | shown found _ _ hsole hsample _ =>
            obtain rfl := hsole row hrow rfl
            exact hsample tx
      · intro frame hframe
        rcases List.mem_append.mp hframe with hold | hnew
        · exact h.once.once frame hold
        · obtain rfl := List.mem_singleton.mp hnew
          refine ⟨@TrafficSampler.frame_nodup _ _ sampler session tick, ?_⟩
          have hsublist :
              ((sampler.frame session tick).shown.map fun shown => shown.row.key).Sublist
              ((sampler.frame session tick).rows.map TrafficRow.key) := by
            unfold TrafficSampler.frame
            dsimp only
            rw [List.map_map]
            exact List.filter_sublist.map TrafficRow.key
          exact hsublist.nodup (@TrafficSampler.frame_nodup _ _ sampler session tick)
      · intro frame hframe shown hshown tx
        rcases List.mem_append.mp hframe with hold | hnew
        · exact h.once.within frame hold shown hshown tx
        · obtain rfl := List.mem_singleton.mp hnew
          obtain ⟨row, -, rfl⟩ := List.mem_map.mp hshown
          exact trafficSampleDeltas_le _ _ _ tx
      · intro entry tx
        unfold TrafficSession.attributed
        have hbound := h.once.bounded entry tx
        unfold TrafficSession.attributed at hbound
        cases hadds entry with
        | none _ hsample hshown =>
            rw [hsample, hshown]
            exact hbound
        | unseen row hrow hentry _ _ hsample hshown =>
            rw [hsample, hshown]
            subst hentry
            exact hbound.trans (h.lastSample_le (hbelow row hrow) tx)
        | shown row hrow hentry _ hsample hshown =>
            subst hentry
            rw [hsample, hshown, List.map_append, List.sum_append, List.map_singleton,
              List.sum_singleton]
            exact (Nat.add_le_add_right hbound _).trans (h.deltas (hbelow row hrow) tx).1
      · intro entry hgapless tx
        unfold TrafficSession.attributed
        cases hadds entry with
        | none _ hsample hshown =>
            rw [hshown] at hgapless
            rw [hsample, hshown]
            exact h.once.exact entry hgapless tx
        | unseen row hrow hentry _ hunseen hsample hshown =>
            -- nothing was added yet
            rw [hshown] at hgapless
            have hzero := hseen row hrow hunseen tx
            have hbefore := h.lastSample_le (hbelow row hrow) tx
            rw [hentry, hzero] at hbefore
            rw [hsample, hshown, hzero]
            exact (h.once.exact entry hgapless tx).trans (Nat.le_zero.mp hbefore)
        | shown row hrow hentry _ hsample hshown =>
            subst hentry
            rw [hshown] at hgapless
            have hrest := h.once.exact row.entry (fun shown hmem =>
              hgapless shown (List.mem_append_left _ hmem)) tx
            rw [hsample, hshown, List.map_append, List.sum_append, List.map_singleton,
              List.sum_singleton]
            refine Eq.trans ?_ ((h.deltas (hbelow row hrow) tx).2
              (hgapless _ (List.mem_append_right _ (List.mem_singleton_self _))))
            exact congrArg (· + _) hrest

end Frame

/-! ## Runs -/

section Runs

variable [LinearOrder κ]

theorem SamplerRun.before {sampler : TrafficSampler κ} {startNs : UInt64}
    {ticks later : List (TrafficTick κ)} (h : SamplerRun sampler startNs (ticks ++ later)) :
    SamplerRun sampler startNs ticks :=
  fun before tick rest heq => h before tick (rest ++ later) (by rw [heq]; simp)

/-- Where every row that is kept was seen before bytes were added to it, no byte is counted twice,
and none is lost without a gap. -/
theorem sampled_once (sampler : TrafficSampler κ) (startNs : UInt64) (ticks : List (TrafficTick κ))
    (hrun : SamplerRun sampler startNs ticks) (hseen : ∀ tick ∈ ticks, sampler.AllSeen tick) :
    (sampler.after startNs ticks).SampledOnce := by
  refine TrafficSession.Sound.once ?_
  revert hrun hseen
  refine @Run.run_history _ _ sampler.tick (.start startNs)
    (fun history session => SamplerRun sampler startNs history →
      (∀ tick ∈ history, sampler.AllSeen tick) → session.Sound) ?_ ?_ ticks
  · exact fun _ _ => .start startNs
  · intro history tick ih hrun hseen
    have hbefore := ih hrun.before fun other hother => hseen other (List.mem_append_left _ hother)
    exact hbefore.next (hrun history tick [] rfl)
      (hseen tick (List.mem_append_right _ (List.mem_singleton_self _)))

end Runs

def insertionByKey : KeySort Nat where
  sort := List.insertionSort fun first second => first.key ≤ second.key
  perm := List.perm_insertionSort _
  sorted :=
    have : Std.Total fun first second : TrafficRow Nat => first.key ≤ second.key :=
      ⟨fun first second => le_total first.key second.key⟩
    have : IsTrans (TrafficRow Nat) fun first second => first.key ≤ second.key :=
      ⟨fun _ _ _ hfirst hsecond => hfirst.trans hsecond⟩
    List.pairwise_insertionSort _

/-- The sampler reads an entry between the addition of 100 bytes and the store of `last_seen_ns`,
and reads it again when it has 150 bytes. -/
def readWhileAdding : List (TrafficTick Nat) :=
  [⟨20, .key 1, [⟨some ⟨0, 100, 0, 12⟩, .noEntry⟩]⟩,
    ⟨30, .key 1, [⟨some ⟨0, 150, 25, 12⟩, .noEntry⟩]⟩]

/-- The row of the first read is not shown, but is what the second one is compared with: 50 of the
150 bytes are attributed, without a gap. -/
theorem unseen_bytes_lost :
    let session := (flowSampler insertionByKey).after 10 readWhileAdding
    SamplerRun (flowSampler insertionByKey) 10 readWhileAdding ∧
      (∀ shown ∈ session.shown ⟨1, 12⟩, shown.deltas.incomplete = false) ∧
      session.attributed ⟨1, 12⟩ false = 50 ∧ session.lastSample ⟨1, 12⟩ false = 150 ∧
      ¬session.SampledOnce := by
  have hshown : ∀ shown ∈ ((flowSampler insertionByKey).after 10 readWhileAdding).shown ⟨1, 12⟩,
      shown.deltas.incomplete = false := by decide
  have hattributed : ((flowSampler insertionByKey).after 10 readWhileAdding).attributed
      ⟨1, 12⟩ false =
      50 := by decide
  have hlast : ((flowSampler insertionByKey).after 10 readWhileAdding).lastSample ⟨1, 12⟩ false =
      150 := by decide
  refine ⟨Run.along_iff.mp ⟨fun _ => ⟨fun _ h => (by cases h), ?_⟩,
    fun _ => ⟨List.forall_mem_singleton.mpr (by decide), ?_⟩, trivial⟩, hshown, hattributed, hlast,
    fun h => ?_⟩
  · exact List.pairwise_singleton ..
  · refine List.pairwise_pair.mpr fun _ _ tx => ?_
    cases tx <;> decide
  · have hexact := h.exact ⟨1, 12⟩ hshown false
    rw [hattributed, hlast] at hexact
    cases hexact

/-- An entry that is read when it has 100 bytes and when it has 150. -/
theorem sampled_once_small :
    ((flowSampler insertionByKey).after 10
      [⟨20, .key 1, [⟨some ⟨0, 100, 15, 12⟩, .noEntry⟩]⟩,
        ⟨30, .key 1, [⟨some ⟨0, 150, 25, 12⟩, .noEntry⟩]⟩]).SampledOnce := by
  refine sampled_once _ _ _ (Run.along_iff.mp ⟨fun _ => ⟨fun _ h => (by cases h), ?_⟩,
    fun _ => ⟨List.forall_mem_singleton.mpr (by decide), ?_⟩, trivial⟩) ?_
  · exact List.pairwise_singleton ..
  · refine List.pairwise_pair.mpr fun _ _ tx => ?_
    cases tx <;> decide
  · unfold TrafficSampler.AllSeen
    decide

end Anettrace.Traffic
