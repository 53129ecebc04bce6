import Anettrace.Matching.Lives

/-!
# What is sent and counted

Over a whole run of the probes, in which any packets are interleaved and entries are evicted at any
time, the events and the buckets are those of the lives that the history tells.
-/

namespace Anettrace.Matching

open Library Library.Run

/-! ## Buckets -/

/-- The bucket of a latency: its logarithm, up to the last bucket. -/
def bucketOf (val : UInt32) : Nat :=
  min 16 (Nat.log 2 val.toNat)

/-- The loop of `stats_bucket` finds the bucket from where it stands. -/
theorem statsBucketFrom_eq (val : UInt32) (rest : Nat) (key tmp : UInt32)
    (hsum : key.toNat + rest = 16) (htmp : tmp.toNat = 2 ^ (key.toNat + 1))
    (hreached : key.toNat = 0 ∨ 2 ^ key.toNat ≤ val.toNat) :
    (statsBucketFrom val rest key tmp).toNat = bucketOf val := by
  have hlog : key.toNat ≤ Nat.log 2 val.toNat := by
    obtain hzero | hreached := hreached
    · rw [hzero]
      exact Nat.zero_le _
    · exact Nat.le_log_of_pow_le (by decide) hreached
  unfold bucketOf
  induction rest generalizing key tmp with
  | zero =>
      unfold statsBucketFrom
      omega
  | succ rest ih =>
      unfold statsBucketFrom
      split
      case isTrue hless =>
        have hval : Nat.log 2 val.toNat < key.toNat + 1 := by
          refine Nat.log_lt_of_lt_pow' (Nat.succ_ne_zero _) ?_
          rw [← htmp]
          exact UInt32.lt_iff_toNat_lt.mp hless
        omega
      case isFalse hmore =>
        have hkey : (key + 1).toNat = key.toNat + 1 := by
          rw [UInt32.toNat_add, UInt32.toNat_one]
          omega
        have hpow : 2 ^ (key.toNat + 1) ≤ val.toNat := by
          rw [← htmp]
          exact Nat.le_of_not_lt fun hless => hmore (UInt32.lt_iff_toNat_lt.mpr hless)
        have hshift : (tmp <<< 1).toNat = 2 ^ (key.toNat + 1 + 1) := by
          have hbound : 2 ^ (key.toNat + 1 + 1) < 2 ^ 32 :=
            Nat.pow_lt_pow_right (by decide) (by omega)
          rw [UInt32.toNat_shiftLeft, UInt32.toNat_one, htmp, Nat.shiftLeft_eq]
          change 2 ^ (key.toNat + 1) * 2 % 2 ^ 32 = _
          rw [← Nat.pow_succ, Nat.mod_eq_of_lt hbound]
        exact ih (key + 1) (tmp <<< 1) (by omega) (by rw [hkey, hshift])
          (.inr (by rw [hkey]; exact hpow))
          (by rw [hkey]; exact Nat.le_log_of_pow_le (by decide) hpow)

theorem statsBucket_eq (val : UInt32) : (statsBucket val).toNat = bucketOf val :=
  statsBucketFrom_eq val 16 0 2 rfl rfl (.inl rfl)

theorem statsBucket_lt (val : UInt32) : statsBucket val < 512 := by
  rw [UInt32.lt_iff_toNat_lt, statsBucket_eq]
  exact (Nat.min_le_left 16 _).trans_lt (by decide)

/-- Counting a latency. -/
theorem updateStatsLog_eq (state : MatchState) (val : UInt32) :
    state.updateStatsLog val =
      { state with
        stats :=
  fun bucket => state.stats bucket + if bucketOf val = bucket.toNat then 1 else 0 } := by
  unfold MatchState.updateStatsLog MatchState.updateStatsKey
  rw [if_pos (statsBucket_lt val)]
  congr 1
  funext bucket
  have hsame : bucket = statsBucket val ↔ bucketOf val = bucket.toNat := by
    rw [← UInt32.toNat_inj, statsBucket_eq]
    exact eq_comm
  by_cases h : bucket = statsBucket val
  · rw [if_pos h, if_pos (hsame.mp h)]
  · rw [if_neg h, if_neg fun hbucket => h (hsame.mpr hbucket), UInt64.add_zero]

/-! ## Latencies -/

/-- What the indexes of the functions promise: none is 0. -/
def MatchStep.Proper : MatchStep → Prop
  | .evict _ => True
  | .visit call => call.func ≠ 0

/-- A life consists of visits of the history. -/
theorem mem_life {args : MatchArgs} {skb : UInt64} {log : List MatchStep} {visit : Visit}
    (h : visit ∈ life args skb log) : MatchStep.visit visit ∈ log := by
  induction log using List.reverseRecOn with
  | nil => cases h
  | append_singleton log step ih =>
      rw [life_concat] at h
      refine List.mem_append.mpr ?_
      unfold lifeStep at h
      split at h
      · split at h
        · cases h
        · exact .inl (ih h)
      · rename_i other
        split at h
        · exact .inl (ih h)
        · split at h
          · split at h
            · exact .inr (List.mem_singleton.mpr (congrArg _ (List.mem_singleton.mp h)))
            · cases h
          · split at h
            · cases h
            · obtain h | h := List.mem_append.mp h
              · exact .inl (ih h)
              · exact .inr (List.mem_singleton.mpr (congrArg _ (List.mem_singleton.mp h)))

/-- The latency of a life, read from its entry. -/
theorem latencyOf_entry {args : MatchArgs} {first final : Visit} {rest : List Visit}
    {val : MatchVal}
    (hlatency : args.latency = true) (hfunc : ∀ visit ∈ rest ++ [final], visit.func ≠ 0)
    (hval : entryOf args (first :: (rest ++ [final])) = some val) :
    latencyOf args (first :: rest) final =
      if val.func2 = 0 || val.ts2 - val.ts1 < args.latencyMin then none
      else some { visit := final, latency := val.ts2 - val.ts1, latencyFunc1 := val.func1,
                  latencyFunc2 := val.func2 } := by
  unfold entryOf at hval
  dsimp only at hval
  rw [hlatency, if_pos rfl] at hval
  obtain rfl := Option.some.inj hval
  unfold latencyOf
  dsimp only
  cases hlast : lastOf args (rest ++ [final]) with
  | none => simp
  | some last =>
      have hmem : last ∈ rest ++ [final] :=
        List.mem_of_mem_filter (List.mem_of_getLast? hlast)
      simp [hfunc last hmem]

/-! ## The invariant -/

def MatchedEvent.ofPacket (event : MatchedEvent) : Bool :=
  event.visit.skb ≠ 0

/-- Latencies are counted, and not sent. -/
def MatchArgs.summary (args : MatchArgs) : Bool :=
  args.latency && args.latencySummary

def inBucket (bucket : UInt32) (events : List MatchedEvent) : Nat :=
  events.countP fun event => bucketOf event.latency = bucket.toNat

/-- What the map, the events and the buckets are after a history. -/
structure Tracked (args : MatchArgs) (log : List MatchStep) (state : MatchState) : Prop where
  matched : ∀ skb, skb ≠ 0 → state.matched skb = entryOf args (life args skb log)
  sent : state.events.filter MatchedEvent.ofPacket = if args.summary then [] else measured args log
  counted : ∀ bucket, state.stats bucket =
    if args.summary then UInt64.ofNat (inBucket bucket (measured args log)) else 0

namespace Tracked

variable {args : MatchArgs} {log : List MatchStep} {state new : MatchState} {visit : Visit}

theorem start (args : MatchArgs) : Tracked args [] {} where
  matched := fun _ _ => rfl
  sent := by simp [measured]
  counted := by simp [measured, inBucket]

theorem of_own (h : Tracked args log state) (hskb : visit.skb ≠ 0) (hown : new.matched visit.skb =
      entryOf args (lifeStep args visit.skb (life args visit.skb log) (.visit visit)))
    (hother : ∀ skb, skb ≠ visit.skb → new.matched skb = state.matched skb)
    (hsent : new.events.filter MatchedEvent.ofPacket = state.events.filter MatchedEvent.ofPacket ++
      if args.summary then [] else saidOf args (life args visit.skb log) visit)
    (hcounted : ∀ bucket, new.stats bucket = state.stats bucket +
      if args.summary then
        UInt64.ofNat (inBucket bucket (saidOf args (life args visit.skb log) visit)) else 0) :
    Tracked args (log ++ [.visit visit]) new where
  matched := by
    intro skb hzero
    rw [life_concat]
    by_cases hsame : skb = visit.skb
    · rw [hsame]
      exact hown
    · rw [hother skb hsame, lifeStep_other (Ne.symm hsame)]
      exact h.matched skb hzero
  sent := by
    rw [hsent, h.sent, measured_concat, said, if_neg hskb]
    split <;> rfl
  counted := by
    intro bucket
    rw [hcounted, h.counted, measured_concat, said, if_neg hskb]
    unfold inBucket
    split
    · rw [List.countP_append, UInt64.ofNat_add]
    · rfl

/-- An entry that is evicted ends a life. -/
theorem evict (h : Tracked args log state) (skb : UInt64) :
    Tracked args (log ++ [.evict skb]) (state.freeMapCtx skb) where
  matched := by
    intro other hzero
    rw [life_concat, lifeStep]
    unfold MatchState.freeMapCtx
    by_cases hsame : skb = other
    · rw [if_pos hsame, hsame]
      exact state.matched.remove_same other
    · rw [if_neg hsame]
      exact (state.matched.remove_other (Ne.symm hsame)).trans (h.matched other hzero)
  sent := by
    rw [measured_concat, said, List.append_nil]
    exact h.sent
  counted := by
    rw [measured_concat, said, List.append_nil]
    exact h.counted

/-- A visit without a packet. -/
theorem zero (h : Tracked args log state) (hskb : visit.skb = 0)
    (hnew : new = state ∨ ∃ event, event.visit = visit ∧ new = (state.send event).count) :
    Tracked args (log ++ [.visit visit]) new := by
  have hlife (skb : UInt64) (hzero : skb ≠ 0) :
      life args skb (log ++ [.visit visit]) = life args skb log := by
    rw [life_concat, lifeStep_other fun hsame : visit.skb = skb => hzero (hsame.symm.trans hskb)]
  have hmeasured : measured args (log ++ [.visit visit]) = measured args log := by
    rw [measured_concat, said, if_pos hskb, List.append_nil]
  refine ⟨fun skb hzero => ?_, ?_, ?_⟩
  · rw [hlife skb hzero, ← h.matched skb hzero]
    obtain rfl | ⟨event, -, rfl⟩ := hnew <;> rfl
  · rw [hmeasured, ← h.sent]
    obtain rfl | ⟨event, hevent, rfl⟩ := hnew
    · rfl
    · have hleft : event.ofPacket = false := by simp [MatchedEvent.ofPacket, hevent, hskb]
      simp [MatchState.send, MatchState.count, List.filter_append, hleft]
  · rw [hmeasured]
    obtain rfl | ⟨event, -, rfl⟩ := hnew <;> exact h.counted

/-- A visit of a packet that is not followed. -/
theorem first (h : Tracked args log state) (hplain : args.Plain)
    (hheeds : heeds args state visit = true)
    (hskb : visit.skb ≠ 0) (hlife : life args visit.skb log = []) :
    Tracked args (log ++ [.visit visit]) (visitStep args state visit) := by
  have hnone : state.matched visit.skb = none := by
    rw [h.matched visit.skb hskb, hlife]
    rfl
  have hsaid : saidOf args [] visit = if !args.latency && begins args visit then
      [{ visit := visit }] else [] := by
    unfold saidOf latencyOf
    cases args.latency <;> simp
  rw [visitStep_first hplain hheeds hskb hnone]
  refine h.of_own hskb ?_ (fun skb hother => ?_) ?_ fun bucket => ?_
  · rw [hlife, lifeStep_first]
    split
    · cases hlatency : args.latency with
      | true =>
          unfold entryOf
          rw [if_pos rfl, hlatency]
          exact Keyed.put_same _ _ _
      | false =>
          unfold entryOf
          rw [if_neg Bool.false_ne_true, hlatency]
          exact Keyed.put_same _ _ _
    · exact hnone
  · split
    · split <;> exact Keyed.put_other _ hother _
    · rfl
  · rw [hlife, hsaid]
    have hpacket : MatchedEvent.ofPacket { visit := visit } =
      true := by simp [MatchedEvent.ofPacket, hskb]
    unfold MatchArgs.summary
    cases args.latency <;> cases begins args visit <;>
      simp [MatchState.initCtxMatch, MatchState.putMatch, MatchState.send, hpacket]
  · rw [hlife, hsaid]
    unfold MatchArgs.summary
    cases args.latency <;> cases begins args visit <;>
      simp [MatchState.initCtxMatch, MatchState.putMatch, MatchState.send, inBucket]

section

variable (h : Tracked args log state) (hplain : args.Plain) (hheeds : heeds args state visit = true)
  (hskb : visit.skb ≠ 0) {first : Visit} {rest : List Visit}
  (hlife : life args visit.skb log = first :: rest)
include h hplain hheeds hskb hlife

/-- A visit of a packet that is followed, in a mode without latencies. -/
theorem more (hfirst : first.func ≠ 0) (hlatency : args.latency = false) :
    Tracked args (log ++ [.visit visit]) (visitStep args state visit) := by
  have hentry (rest : List Visit) : entryOf args (first :: rest) =
      some { func1 := first.func } := by
    unfold entryOf
    dsimp only
    rw [hlatency, if_neg Bool.false_ne_true]
  have hsome : state.matched visit.skb = some { func1 := first.func } := by
    rw [h.matched visit.skb hskb, hlife, hentry]
  have hsaid : saidOf args (first :: rest) visit = if visit.refused then []
      else [{ visit := visit }] := by
    unfold saidOf begins
    rw [hlatency]
    cases visit.refused <;> simp
  have hends : endsLife args (first :: rest) visit =
      (funcIsFree (args.traceStatus visit.func) && !visit.refused) := by
    simp [endsLife, hlatency]
  have hpacket : MatchedEvent.ofPacket { visit := visit } =
    true := by simp [MatchedEvent.ofPacket, hskb]
  rw [visitStep_more hplain hheeds hskb hsome hfirst hlatency]
  refine h.of_own hskb ?_ (fun skb hother => ?_) ?_ fun bucket => ?_
  · rw [hlife, lifeStep_more, hends]
    cases visit.refused with
    | true =>
        -- a refused visit leaves the entry, also of a packet that it frees
        rw [Bool.not_true, Bool.and_false, if_neg Bool.false_ne_true, hentry]
        exact hsome
    | false =>
        rw [Bool.not_false, Bool.and_true, if_neg Bool.false_ne_true]
        cases funcIsFree (args.traceStatus visit.func) with
        | true => exact Keyed.remove_same _ _
        | false =>
            rw [if_neg Bool.false_ne_true, if_neg Bool.false_ne_true, hentry]
            exact hsome
  · split
    · rfl
    · split
      · exact Keyed.remove_other _ hother
      · rfl
  · rw [hlife, hsaid]
    unfold MatchArgs.summary
    rw [hlatency]
    cases visit.refused <;> cases funcIsFree (args.traceStatus visit.func) <;>
      simp [MatchState.consumeMapCtx, MatchState.freeMapCtx, MatchState.count,
        MatchState.send, hpacket]
  · unfold MatchArgs.summary
    rw [hlatency]
    cases visit.refused <;> cases funcIsFree (args.traceStatus visit.func) <;>
      simp [MatchState.consumeMapCtx, MatchState.freeMapCtx, MatchState.count, MatchState.send]

/-- A visit of a packet that is followed, in latency mode. -/
theorem latency (hfunc : ∀ visit ∈ first :: rest, visit.func ≠ 0) (hlatency : args.latency = true)
    (hproper : visit.func ≠ 0) :
    Tracked args (log ++ [.visit visit]) (visitStep args state visit) := by
  obtain ⟨val, hval⟩ : ∃ val, entryOf args (first :: rest) = some val := ⟨_, rfl⟩
  have hsome : state.matched visit.skb = some val := by
    rw [h.matched visit.skb hskb, hlife, hval]
  have hfunc1 : val.func1 ≠ 0 := by
    unfold entryOf at hval
    dsimp only at hval
    rw [hlatency, if_pos rfl] at hval
    obtain rfl := Option.some.inj hval
    exact hfunc first List.mem_cons_self
  have hnext : entryOf args (first :: (rest ++ [visit])) = some (val.revisit args visit) := by
    rw [entryOf_revisit hlatency, hval]
    rfl
  have hlater : ∀ other ∈ rest ++ [visit], other.func ≠ 0 := by
    intro other hmem
    obtain hmem | hmem := List.mem_append.mp hmem
    · exact hfunc other (List.mem_cons_of_mem first hmem)
    · rw [List.mem_singleton.mp hmem]
      exact hproper
  have hlatencyOf := latencyOf_entry hlatency hlater hnext
  rw [visitStep_latency hplain hheeds hskb hsome hfunc1 hlatency]
  generalize val.revisit args visit = stored at hnext hlatencyOf ⊢
  dsimp only
  -- the visit leaves the entry, and is one more of the life
  have hstays (hends : endsLife args (first :: rest) visit = false) :
      Tracked args (log ++ [.visit visit]) (state.putMatch visit.skb stored) := by
    have hsaid : saidOf args (life args visit.skb log) visit = [] := by
      unfold saidOf
      rw [hlatency, hlife, hends]
      rfl
    refine h.of_own hskb ?_ (fun skb hother => Keyed.put_other _ hother _) ?_ fun bucket => ?_
    · rw [hlife, lifeStep_more, hends, if_neg Bool.false_ne_true, hnext]
      exact Keyed.put_same _ _ _
    · rw [hsaid, ite_self, List.append_nil]
      rfl
    · rw [hsaid]
      simp [inBucket, MatchState.putMatch]
  have hother {new : MatchState} (hgone : new.matched =
      (state.matched.put visit.skb stored).remove visit.skb)
      (skb : UInt64) (h : skb ≠ visit.skb) : new.matched skb = state.matched skb := by
    rw [hgone, Keyed.remove_other _ h, Keyed.put_other _ h]
  have hown {new : MatchState} (hgone : new.matched =
      (state.matched.put visit.skb stored).remove visit.skb)
      (hends : endsLife args (first :: rest) visit = true) :
      new.matched visit.skb =
        entryOf args (lifeStep args visit.skb (life args visit.skb log) (.visit visit)) := by
    rw [hgone, Keyed.remove_same, hlife, lifeStep_more, if_pos hends]
    rfl
  have hsaid (hends : endsLife args (first :: rest) visit = true) :
      saidOf args (life args visit.skb log) visit =
        (latencyOf args (first :: rest) visit).toList := by
    unfold saidOf
    rw [hlatency, hlife, hends]
    rfl
  cases hfree : funcIsFree (args.traceStatus visit.func) with
  | false =>
      rw [if_neg Bool.false_ne_true]
      exact hstays (by simp [endsLife, hfree])
  | true =>
      rw [if_pos rfl]
      by_cases hshort : (decide (stored.func2 = 0) ||
        decide (stored.ts2 - stored.ts1 < args.latencyMin)) = true
      · rw [if_pos hshort] at hlatencyOf ⊢
        have hends : endsLife args (first :: rest) visit = true := by
          simp [endsLife, hfree, hlatency, hlatencyOf]
        refine h.of_own hskb (hown rfl hends) (hother rfl) ?_ fun bucket => ?_
        · rw [hsaid hends, hlatencyOf, Option.toList_none, ite_self, List.append_nil]
          rfl
        · rw [hsaid hends, hlatencyOf]
          simp [inBucket, MatchState.putMatch, MatchState.freeMapCtx]
      · rw [if_neg hshort] at hlatencyOf ⊢
        have hsummary : args.summary = args.latencySummary := by
          unfold MatchArgs.summary
          rw [hlatency, Bool.true_and]
        cases hmode : args.latencySummary with
        | true =>
            have hends : endsLife args (first :: rest) visit = true := by
              simp [endsLife, hfree, hlatency, hmode]
            rw [if_pos rfl, updateStatsLog_eq]
            refine h.of_own hskb (hown rfl hends) (hother rfl) ?_ fun bucket => ?_
            · rw [hsummary, hmode, if_pos rfl, List.append_nil]
              rfl
            · rw [hsummary, hmode, if_pos rfl, hsaid hends, hlatencyOf]
              unfold inBucket
              rw [Option.toList_some, List.countP_singleton]
              dsimp only [MatchState.consumeMapCtx, MatchState.freeMapCtx, MatchState.count]
              congr 1
              simp only [decide_eq_true_eq]
              split <;> rfl
        | false =>
            rw [if_neg Bool.false_ne_true]
            cases hrefused : visit.refused with
            | true => exact hstays (by simp [endsLife, hlatencyOf, hmode, hrefused])
            | false =>
                have hends : endsLife args (first :: rest) visit = true := by
                  simp [endsLife, hfree, hrefused]
                rw [if_neg Bool.false_ne_true]
                refine h.of_own hskb (hown rfl hends) (hother rfl) ?_ fun bucket => ?_
                · rw [hsummary, hmode, if_neg Bool.false_ne_true, hsaid hends, hlatencyOf]
                  have hpacket (latency : UInt32) (func1 func2 : UInt16) : MatchedEvent.ofPacket
                      { visit := visit, latency := latency, latencyFunc1 := func1,
                        latencyFunc2 := func2 } = true := by
                    simp [MatchedEvent.ofPacket, hskb]
                  exact (List.filter_append ..).trans
                    (congrArg _ (List.filter_cons_of_pos (hpacket _ _ _)))
                · rw [hsummary, hmode, if_neg Bool.false_ne_true, UInt64.add_zero]
                  rfl

end

end Tracked

def MatchStep.heeded (args : MatchArgs) (state : MatchState) : MatchStep → Bool
  | .evict _ => true
  | .visit call => heeds args state call

theorem Tracked.step {args : MatchArgs} {log : List MatchStep} {state : MatchState}
    {step : MatchStep} (h : Tracked args log state) (hplain : args.Plain)
    (hproper : ∀ step ∈ log, step.Proper) (hstep : step.Proper) :
    Tracked args (log ++ if step.heeded args state then [step] else [])
      (matchStep args state step) := by
  cases step with
  | evict skb => exact h.evict skb
  | visit visit =>
      change Tracked args (log ++ if heeds args state visit then _ else _)
        (visitStep args state visit)
      cases hheeds : heeds args state visit with
      | false =>
          rw [if_neg Bool.false_ne_true, List.append_nil, visitStep_unheeded hheeds]
          exact h
      | true =>
          rw [if_pos rfl]
          by_cases hskb : visit.skb = 0
          · exact h.zero hskb (visitStep_zero hplain hheeds hskb)
          · cases hlife : life args visit.skb log with
            | nil => exact h.first hplain hheeds hskb hlife
            | cons first rest =>
                have hfunc : ∀ visit ∈ first :: rest, visit.func ≠ 0 := by
                  rw [← hlife]
                  exact fun other hmem => hproper _ (mem_life hmem)
                cases hlatency : args.latency with
                | true => exact h.latency hplain hheeds hskb hlife hfunc hlatency hstep
                | false =>
                    exact h.more hplain hheeds hskb hlife (hfunc first List.mem_cons_self) hlatency

/-- Every latency is sent; function 1 is a matcher, and function 3 frees packets. -/
def reentryArgs : MatchArgs where
  latency := true
  traceStatus := fun func => { free := func = 3, matcher := func = 1 }

-- the matcher is entered again, and a microsecond begins between the two readings of the clock
example : (run (matchStep reentryArgs) {}
    [.visit { skb := 16, func := 1, now := 1000 },
      .visit { skb := 16, func := 1, now := 1999, again := 2000 },
      .visit { skb := 16, func := 3, now := 3000 }]).events.map MatchedEvent.latency =
        [0xffffffff] := by
  decide +kernel

end Anettrace.Matching
