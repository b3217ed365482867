import BacktestEngine.Bars.RangeHistory
import BacktestEngine.Strategies.RangeVelocity

/-! # The rule of the fast runs

The rule is said of all the complete bars of a symbol, counted back from the newest one. A
store that is deep enough decides by it, and a trade that it opens is not closed on the tick
it was opened at.
-/

namespace BacktestEngine

open OrderStatistic (IsNth nthElement nthElement_eq_some_iff isNth_congr)
open RangeBar (toInt32 toInt32_of_small)

/-- A bar by its age, from 0 for the newest. -/
def recent (bars : List OhlcObject) (r : ℕ) : OhlcObject := barAt bars (bars.length - 1 - r)

/-- How long a bar took to form: until the next one opened, and the newest until now. -/
def duration (bars : List OhlcObject) (now : ℤ) : ℕ → ℤ
  | 0 => now - (recent bars 0).date
  | r + 1 => (recent bars r).date - (recent bars (r + 1)).date

/-- The bar closed in the direction. -/
def Points : Direction → OhlcObject → Prop
  | .long, bar => bar.openPrice < bar.close
  | .short, bar => bar.close < bar.openPrice

instance : (direction : Direction) → (bar : OhlcObject) → Decidable (Points direction bar)
  | .long, bar => inferInstanceAs (Decidable (bar.openPrice < bar.close))
  | .short, bar => inferInstanceAs (Decidable (bar.close < bar.openPrice))

namespace RangeVelocityStrategy

section Rule

variable (strategy : RangeVelocityStrategy) (bars : List OhlcObject) (now : ℤ)

/-- The durations of the bars before the run. -/
def baseline : List ℤ :=
  (List.range strategy.speedLookbackBars.toNat).map fun r =>
    duration bars now (strategy.runBars.toNat + r)

/-- The upper median of the durations before the run. -/
def IsMedian (median : ℤ) : Prop :=
  IsNth (strategy.baseline bars now) (strategy.speedLookbackBars.toNat / 2) median

/-- The last bars all point one way, and each was fast against the bars before them. -/
structure Fires (direction : Direction) : Prop where
  enough : strategy.runBars.toNat + strategy.speedLookbackBars.toNat ≤ bars.length
  run : ∀ r < strategy.runBars.toNat, Points direction (recent bars r)
  fast : ∃ median, strategy.IsMedian bars now median ∧ ∀ r < strategy.runBars.toNat,
    duration bars now r * 100 ≤ strategy.speedRatioPercent * median

/-- The bars before the run took time to form. -/
def Lively : Prop := ∃ median, strategy.IsMedian bars now median ∧ 0 < median

/-- The products of the speed test are 64-bit numbers. -/
structure Representable : Prop where
  allowance : ∀ median, strategy.IsMedian bars now median →
    strategy.speedRatioPercent * median < 2 ^ 63
  durations : ∀ r < strategy.runBars.toNat,
    -2 ^ 63 ≤ duration bars now r * 100 ∧ duration bars now r * 100 < 2 ^ 63

end Rule

variable {strategy : RangeVelocityStrategy} {bars : List OhlcObject} {now : ℤ}
  {tick : PriceData} {direction : Direction}

/-! ## What the constructor accepts -/

structure Accepted (strategy : RangeVelocityStrategy) : Prop where
  run : 1 ≤ strategy.runBars
  lookback : 1 ≤ strategy.speedLookbackBars
  ratio : 1 ≤ strategy.speedRatioPercent
  exitRun : 1 ≤ strategy.exitRunBars
  deep : strategy.runBars + strategy.speedLookbackBars < 2 ^ 31 →
    strategy.runBars + strategy.speedLookbackBars ≤ strategy.spec.count

theorem make_accepted {config : TradingDefinitions.StrategyConfig}
    (h : make config = .ok strategy) : strategy.Accepted := by
  unfold make at h
  split at h
  · cases h
  · split_ifs at h with hspec
    split at h
    · cases h
    · dsimp only at h
      split_ifs at h with hrun hlookback hratio hexit hduration hcount
      cases h
      rw [not_lt] at *
      constructor
      · exact hrun
      · exact hlookback
      · exact hratio
      · exact hexit
      · intro hsmall
        dsimp only at hsmall ⊢
        rw [toInt32_of_small (by omega) hsmall] at hcount
        exact (le_max_left _ _).trans hcount

/-! ## The end of the history -/

theorem recent_drop {q r : ℕ} (hr : r < (bars.drop q).length) :
    recent (bars.drop q) r = recent bars r := by
  have hlength : (bars.drop q).length = bars.length - q := List.length_drop
  rw [recent, recent, barAt_drop]
  congr 1
  omega

theorem duration_drop {q r : ℕ} (hr : r < (bars.drop q).length) :
    duration (bars.drop q) now r = duration bars now r := by
  cases r with
  | zero => rw [duration, duration, recent_drop hr]
  | succ r => rw [duration, duration, recent_drop hr, recent_drop (by omega)]

section Rtake

variable {depth : ℕ}
  (hdepth : strategy.runBars.toNat + strategy.speedLookbackBars.toNat ≤ depth)

include hdepth

theorem isMedian_rtake (hlong : depth ≤ bars.length) {median : ℤ} :
    strategy.IsMedian (bars.rtake depth) now median ↔ strategy.IsMedian bars now median := by
  have hlength : (bars.drop (bars.length - depth)).length = depth := by
    rw [List.length_drop]
    omega
  have hbaseline : strategy.baseline (bars.rtake depth) now = strategy.baseline bars now := by
    apply List.map_congr_left
    intro r hr
    have hr := List.mem_range.mp hr
    exact duration_drop (by omega)
  rw [IsMedian, IsMedian, hbaseline]

/-- The rule sees the last bars only. -/
theorem fires_rtake :
    strategy.Fires (bars.rtake depth) now direction ↔ strategy.Fires bars now direction := by
  obtain hshort | hlong := le_total bars.length depth
  · rw [List.rtake, Nat.sub_eq_zero_of_le hshort, List.drop_zero]
  · have hlength : (bars.drop (bars.length - depth)).length = depth := by
      rw [List.length_drop]
      omega
    have hduration (r : ℕ) (hr : r < strategy.runBars.toNat) :
        duration (bars.rtake depth) now r = duration bars now r := duration_drop (by omega)
    have hrecent (r : ℕ) (hr : r < strategy.runBars.toNat) :
        recent (bars.rtake depth) r = recent bars r := recent_drop (by omega)
    constructor
    · rintro ⟨-, hrun, median, hmedian, hfast⟩
      refine ⟨hdepth.trans hlong, fun r hr => hrecent r hr ▸ hrun r hr, median,
        (isMedian_rtake hdepth hlong).mp hmedian, fun r hr => ?_⟩
      rw [← hduration r hr]
      exact hfast r hr
    · rintro ⟨-, hrun, median, hmedian, hfast⟩
      refine ⟨hdepth.trans hlength.ge, fun r hr => (hrecent r hr).symm ▸ hrun r hr, median,
        (isMedian_rtake hdepth hlong).mpr hmedian, fun r hr => ?_⟩
      rw [hduration r hr]
      exact hfast r hr

theorem lively_rtake :
    strategy.Lively (bars.rtake depth) now ↔ strategy.Lively bars now := by
  obtain hshort | hlong := le_total bars.length depth
  · rw [List.rtake, Nat.sub_eq_zero_of_le hshort, List.drop_zero]
  · simp only [Lively, isMedian_rtake hdepth hlong]

theorem Representable.rtake (h : strategy.Representable bars now) :
    strategy.Representable (bars.rtake depth) now := by
  obtain hshort | hlong := le_total bars.length depth
  · rwa [List.rtake, Nat.sub_eq_zero_of_le hshort, List.drop_zero]
  · have hlength : (bars.drop (bars.length - depth)).length = depth := by
      rw [List.length_drop]
      omega
    constructor
    · intro median hmedian
      exact h.allowance median ((isMedian_rtake hdepth hlong).mp hmedian)
    · intro r hr
      rw [List.rtake, duration_drop (by omega)]
      exact h.durations r hr

end Rtake

/-! ## The judgement -/

/-- The sign of a direction. -/
def sign : Direction → ℤ
  | .long => 1
  | .short => -1

theorem points_iff {bar : OhlcObject} : Points direction bar ↔ barDirection bar = sign direction := by
  unfold barDirection
  cases direction with
  | long =>
    change bar.openPrice < bar.close ↔ _ = 1
    split_ifs <;> omega
  | short =>
    change bar.close < bar.openPrice ↔ _ = -1
    split_ifs <;> omega

theorem barDirection_cases (bar : OhlcObject) : barDirection bar = 0 ∨
    ∃ direction, barDirection bar = sign direction := by
  obtain hlt | heq | hgt := lt_trichotomy bar.close bar.openPrice
  · exact .inr ⟨.short, points_iff.mp hlt⟩
  · exact .inl (by simp [barDirection, heq])
  · exact .inr ⟨.long, points_iff.mp hgt⟩

/-- A check of the bars of a run but the newest, by their age. -/
theorem any_run_eq_false_iff {n k : ℕ} {p : ℕ → Bool} (hk : k ≤ n) :
    (List.range' (n - k) (k - 1)).any p = false ↔
      ∀ r, 1 ≤ r → r < k → p (n - 1 - r) = false := by
  simp only [List.any_eq_false, List.mem_range'_1, Bool.not_eq_true]
  constructor
  · intro h r hr hrk
    exact h (n - 1 - r) (by omega)
  · intro h i hi
    have hage := h (n - 1 - i) (by omega) (by omega)
    rwa [show n - 1 - (n - 1 - i) = i by omega] at hage

theorem openToOpen_eq {r : ℕ} (hr : 1 ≤ r) (hlength : r < bars.length) (now : ℤ) :
    openToOpen bars (bars.length - 1 - r) = duration bars now r := by
  obtain ⟨r, rfl⟩ := Nat.exists_eq_add_of_le' hr
  rw [openToOpen, duration, recent, recent]
  congr 3
  omega

/-- The selected duration is the median. -/
theorem nthElement_durations (hrun : 1 ≤ strategy.runBars)
    (hlookback : 1 ≤ strategy.speedLookbackBars)
    (henough : strategy.runBars.toNat + strategy.speedLookbackBars.toNat ≤ bars.length)
    (now : ℤ) (median : ℤ) :
    nthElement ((List.range' (bars.length - strategy.runBars.toNat -
      strategy.speedLookbackBars.toNat) strategy.speedLookbackBars.toNat).map (openToOpen bars))
      (strategy.speedLookbackBars.toNat / 2) = some median ↔
    strategy.IsMedian bars now median := by
  rw [nthElement_eq_some_iff (by rw [List.length_map, List.length_range']; omega)]
  apply isNth_congr
  refine (List.reverse_perm _).symm.trans (List.Perm.of_eq ?_)
  rw [← List.map_reverse, List.reverse_range', List.map_map]
  apply List.map_congr_left
  intro r hr
  have hr := List.mem_range.mp hr
  rw [Function.comp_apply, ← openToOpen_eq (by omega) (by omega) now]
  congr 1
  omega

/-- The whole run points as its newest bar does. -/
theorem run_iff (henough : strategy.runBars.toNat ≤ bars.length)
    (hnewest : barDirection (barAt bars (bars.length - 1)) = sign direction) :
    ((List.range' (bars.length - strategy.runBars.toNat) (strategy.runBars.toNat - 1)).any fun i =>
        barDirection (barAt bars i) ≠ barDirection (barAt bars (bars.length - 1))) = false ↔
      ∀ r < strategy.runBars.toNat, Points direction (recent bars r) := by
  simp only [any_run_eq_false_iff henough, decide_eq_false_iff_not, not_not, points_iff, hnewest]
  constructor
  · intro h r hr
    cases r with
    | zero => exact hnewest
    | succ r => exact h (r + 1) (Nat.succ_pos r) hr
  · intro h r _ hr
    exact h r hr

/-- The speed test, when its products fit. -/
theorem fast_iff (hrun : 1 ≤ strategy.runBars) (henough : strategy.runBars.toNat ≤ bars.length)
    (hratio : 1 ≤ strategy.speedRatioPercent)
    (hfits : strategy.Representable bars tick.timestamp) {median : ℤ}
    (hmedian : strategy.IsMedian bars tick.timestamp median) (hpositive : 0 < median) :
    (((List.range' (bars.length - strategy.runBars.toNat) (strategy.runBars.toNat - 1)).any fun i =>
        toInt64 (median * strategy.speedRatioPercent) < toInt64 (openToOpen bars i * 100)) = false ∧
      ¬ toInt64 (median * strategy.speedRatioPercent) <
        toInt64 ((tick.timestamp - (barAt bars (bars.length - 1)).date) * 100)) ↔
      ∀ r < strategy.runBars.toNat,
        duration bars tick.timestamp r * 100 ≤ strategy.speedRatioPercent * median := by
  have hallowance : toInt64 (median * strategy.speedRatioPercent) =
      strategy.speedRatioPercent * median := by
    have hsmall := hfits.allowance median hmedian
    have hnonneg : 0 ≤ strategy.speedRatioPercent * median :=
      mul_nonneg (by omega) hpositive.le
    rw [mul_comm, toInt64_of_small (by omega) hsmall]
  have hduration (r : ℕ) (hr : r < strategy.runBars.toNat) :
      toInt64 (duration bars tick.timestamp r * 100) = duration bars tick.timestamp r * 100 :=
    toInt64_of_small (hfits.durations r hr).1 (hfits.durations r hr).2
  have hnewest : tick.timestamp - (barAt bars (bars.length - 1)).date =
      duration bars tick.timestamp 0 := rfl
  rw [hallowance, hnewest, hduration 0 (by omega), any_run_eq_false_iff henough, not_lt]
  constructor
  · rintro ⟨hearlier, hfirst⟩ r hr
    cases r with
    | zero => exact hfirst
    | succ r =>
      have hslow := hearlier (r + 1) (Nat.succ_pos r) hr
      rw [openToOpen_eq (Nat.succ_pos r) (by omega) tick.timestamp, hduration _ hr] at hslow
      exact not_lt.mp (of_decide_eq_false hslow)
  · intro h
    refine ⟨fun r hpos hr => ?_, h 0 (by omega)⟩
    rw [openToOpen_eq hpos (by omega) tick.timestamp, hduration _ hr]
    exact decide_eq_false (h r hr).not_gt

/-- A run is judged by the rule, on a stream whose bars take time. -/
theorem judge_iff (haccepted : strategy.Accepted)
    (hfits : strategy.Representable bars tick.timestamp) :
    strategy.judge tick bars = some direction ↔
      strategy.Fires bars tick.timestamp direction ∧ strategy.Lively bars tick.timestamp := by
  have hrun := haccepted.run
  constructor
  · intro h
    unfold judge at h
    dsimp only at h
    obtain hdoji | ⟨dir, hnewest⟩ := barDirection_cases (barAt bars (bars.length - 1))
    · rw [if_pos hdoji, ite_self] at h
      cases h
    · have hreturned : (if 0 < barDirection (barAt bars (bars.length - 1)) then Direction.long
          else .short) = dir := by
        rw [hnewest]
        cases dir <;> rfl
      rw [hreturned] at h
      split_ifs at h with hshort hdoji hturn
      rw [not_lt] at hshort
      rw [Bool.not_eq_true] at hturn
      split at h
      · cases h
      · rename_i median hselected
        have hmedian := (nthElement_durations hrun haccepted.lookback hshort tick.timestamp
          median).mp hselected
        split_ifs at h with hflat hslow hlate
        cases h
        rw [not_le] at hflat
        rw [Bool.not_eq_true] at hslow
        have hfast := (fast_iff hrun (by omega) haccepted.ratio hfits hmedian hflat).mp
          ⟨hslow, hlate⟩
        exact ⟨⟨hshort, (run_iff (by omega) hnewest).mp hturn, median, hmedian, hfast⟩,
          median, hmedian, hflat⟩
  · rintro ⟨⟨henough, hpoints, median, hmedian, hfast⟩, median', hmedian', hflat⟩
    rw [hmedian'.unique hmedian] at hflat
    have hnewest : barDirection (barAt bars (bars.length - 1)) = sign direction :=
      points_iff.mp (hpoints 0 (by omega))
    have hturn := (run_iff (by omega) hnewest).mpr hpoints
    obtain ⟨hslow, hlate⟩ :=
      (fast_iff hrun (by omega) haccepted.ratio hfits hmedian hflat).mpr hfast
    have hselected := (nthElement_durations hrun haccepted.lookback henough tick.timestamp median).mpr
      hmedian
    have hdoji : barDirection (barAt bars (bars.length - 1)) ≠ 0 := by
      rw [hnewest]
      cases direction <;> exact by decide
    unfold judge
    dsimp only
    rw [if_neg henough.not_gt, if_neg hdoji, hturn, if_neg Bool.false_ne_true, hselected]
    dsimp only
    rw [if_neg hflat.not_ge, hslow, if_neg Bool.false_ne_true, if_neg hlate, hnewest]
    cases direction <;> rfl

/-- A direction is the newest bar's. -/
theorem judge_sign (h : strategy.judge tick bars = some direction) :
    barDirection (barAt bars (bars.length - 1)) = sign direction := by
  unfold judge at h
  dsimp only at h
  obtain hdoji | ⟨dir, hnewest⟩ := barDirection_cases (barAt bars (bars.length - 1))
  · rw [if_pos hdoji, ite_self] at h
    cases h
  · have hreturned : (if 0 < barDirection (barAt bars (bars.length - 1)) then Direction.long
        else .short) = dir := by
      rw [hnewest]
      cases dir <;> rfl
    rw [hreturned] at h
    split_ifs at h
    split at h
    · cases h
    · split_ifs at h
      cases h
      exact hnewest

/-- A run against a trade has no bar that points with it. -/
theorem opposed_eq_false (hexit : 1 ≤ strategy.exitRunBars)
    (hnewest : barDirection (barAt bars (bars.length - 1)) = sign direction) :
    strategy.opposed direction bars = false := by
  unfold opposed
  dsimp only
  split_ifs with hshort
  · rfl
  · rw [List.all_eq_false]
    refine ⟨bars.length - 1, ?_, ?_⟩
    · rw [List.mem_range'_1]
      omega
    · rw [hnewest]
      cases direction <;> exact by decide

/-! ## What the store has -/

open BarStore (own largestRangeCount Registration)

variable {registrations : List Registration} {store store' : BarStore} {warmUp : WarmUp}
  {ticks : List PriceData}

/-- The store has the last bars of the symbol, as many as the strategy asks for. -/
theorem exists_findRange (hregistered : BarStore.fresh.registerAll registrations = .ok store)
    (hspec : .range strategy.spec ∈ registrations) (hoff : warmUp.prepopulate = false)
    (hfeed : store.feed warmUp (ticks ++ [tick]) = .ok store') :
    ∃ depth : ℕ, 1 ≤ depth ∧ strategy.spec.count ≤ depth ∧
      store'.findRange tick.symbol strategy.spec = some
        ((RangeBar.rangeBars strategy.spec (own tick.symbol ticks ++ [tick])).rtake depth) := by
  have h := BarStore.registered_of_registerAll hregistered
  obtain ⟨store'', hfeed'', -, hfind⟩ := h.feed hoff (ticks ++ [tick])
  rw [hfeed] at hfeed''
  cases hfeed''
  have hmem : strategy.spec.count ∈ ((registrations.filterMap Registration.range?).filter
      (sameIdentity · strategy.spec)).map RangeBarSpec.count := by
    apply List.mem_map_of_mem
    rw [List.mem_filter]
    exact ⟨List.mem_filterMap.mpr ⟨_, hspec, rfl⟩, by simp [sameIdentity]⟩
  obtain ⟨count, hcount⟩ : ∃ count, largestRangeCount registrations strategy.spec = some count := by
    rw [← Option.isSome_iff_exists, largestRangeCount, List.isSome_max?_iff]
    exact List.ne_nil_of_mem hmem
  have hpositive := (h.range_pos hcount).2.2
  have hlargest := (List.max?_eq_some_iff.mp hcount).2 _ hmem
  refine ⟨count.toNat, by omega, by omega, ?_⟩
  rw [hfind, BarStore.own_concat_self,
    if_neg (List.append_ne_nil_of_right_ne_nil _ (List.cons_ne_nil _ _)), hcount, Option.map_some,
    RangeBar.lone_bars hoff hpositive]

/-- A decision is a judgement of the bars, at the tick that completes one. -/
theorem decide_eq_some {depth : ℕ} {spec : RangeBarSpec} {before : List PriceData}
    (hspec : strategy.spec = spec) (hdepth : 1 ≤ depth)
    (hfind : store.findRange tick.symbol spec =
      some ((RangeBar.rangeBars spec (before ++ [tick])).rtake depth)) :
    strategy.decide tick store = some direction ↔ RangeBar.Completes spec before tick ∧
      strategy.judge tick ((RangeBar.rangeBars spec (before ++ [tick])).rtake depth) =
        some direction := by
  rw [RangeBar.completes_iff]
  unfold decide
  rw [hspec, hfind]
  dsimp only
  rw [BoundedTail.getLast?_rtake hdepth]
  cases (RangeBar.rangeBars spec (before ++ [tick])).getLast? with
  | none => simp
  | some bar => cases hcomplete : bar.complete <;> simp [hcomplete]

/-- During the tick that a trade is opened at in the decided direction it is not closed. -/
theorem during_opened (haccepted : strategy.Accepted) {tradeManager : TradeManager}
    (hdecide : strategy.decide tick store = some direction)
    (hfree : tradeManager.hasActiveTradeForSymbol tick.symbol = false) (size stop limit : ℤ) :
    strategy.during tick store (tradeManager.openTrade tick size direction stop limit).1 =
      (tradeManager.openTrade tick size direction stop limit).1 := by
  have hnone : tradeManager.activeTrades.lookup tick.symbol = none := by
    rwa [← Option.not_isSome_iff_eq_none, Bool.not_eq_true]
  have htrade : (tradeManager.openTrade tick size direction stop limit).1.findActiveTrade
      tick.symbol = some (tradeManager.newTrade tick size direction stop limit) := by
    rw [TradeManager.openTrade_fresh hnone]
    exact AList.lookup_insert _
  unfold during
  rw [StrategyExits.closeIfPastCap_fresh htrade rfl]
  dsimp only
  rw [if_neg Bool.false_ne_true, htrade]
  dsimp only
  unfold decide at hdecide
  split at hdecide
  · cases hdecide
  · rename_i series hseries
    split at hdecide
    · cases hdecide
    · rename_i back hback
      split_ifs at hdecide with hcomplete
      have hopposed := opposed_eq_false haccepted.exitRun (judge_sign hdecide)
      rw [if_neg hcomplete, TradeManager.newTrade_direction, hopposed, if_neg Bool.false_ne_true]

/-! ## The result -/

/-- A direction comes at the ticks that complete a bar alone, and there it is that of a fast run of
all the complete bars of the symbol's own ticks, on a stream whose bars take time; no bar that is
complete closed at its open; and the trade that is opened at such a tick is left alone on it. -/
theorem fires_once {config : TradingDefinitions.StrategyConfig}
    (hmake : make config = .ok strategy)
    (hregistered : BarStore.fresh.registerAll registrations = .ok store)
    (hspec : .range strategy.spec ∈ registrations) (hoff : warmUp.prepopulate = false)
    (hfeed : store.feed warmUp (ticks ++ [tick]) = .ok store') :
    (∀ direction, strategy.decide tick store' = some direction →
      RangeBar.Completes strategy.spec (own tick.symbol ticks) tick) ∧
    (RangeBar.Completes strategy.spec (own tick.symbol ticks) tick →
      strategy.runBars + strategy.speedLookbackBars < 2 ^ 31 →
      strategy.Representable (RangeBar.completedBars strategy.spec
        (own tick.symbol (ticks ++ [tick]))) tick.timestamp →
      ∀ direction, strategy.decide tick store' = some direction ↔
        strategy.Fires (RangeBar.completedBars strategy.spec
          (own tick.symbol (ticks ++ [tick]))) tick.timestamp direction ∧
        strategy.Lively (RangeBar.completedBars strategy.spec
          (own tick.symbol (ticks ++ [tick]))) tick.timestamp) ∧
    (RangeBar.ThresholdsFit strategy.spec (own tick.symbol (ticks ++ [tick])) →
      ∀ bar ∈ RangeBar.completedBars strategy.spec (own tick.symbol (ticks ++ [tick])),
        bar.close ≠ bar.openPrice) ∧
    ∀ direction, strategy.decide tick store' = some direction →
      ∀ tradeManager : TradeManager, tradeManager.hasActiveTradeForSymbol tick.symbol = false →
      ∀ size stop limit,
        strategy.during tick store' (tradeManager.openTrade tick size direction stop limit).1 =
          (tradeManager.openTrade tick size direction stop limit).1 := by
  have haccepted := make_accepted hmake
  obtain ⟨depth, hpositive, hdepth, hfind⟩ := exists_findRange hregistered hspec hoff hfeed
  have hdecide (direction : Direction) : strategy.decide tick store' = some direction ↔ _ :=
    decide_eq_some rfl hpositive hfind
  rw [BarStore.own_concat_self]
  refine ⟨fun direction h => ((hdecide direction).mp h).1, ?_, ?_, ?_⟩
  · intro hcompletes hsmall hfits direction
    have hdeep := haccepted.deep hsmall
    have henough : strategy.runBars.toNat + strategy.speedLookbackBars.toNat ≤ depth := by
      have hrun := haccepted.run
      have hlookback := haccepted.lookback
      omega
    rw [RangeBar.completedBars_eq hcompletes] at hfits ⊢
    rw [hdecide, and_iff_right hcompletes, judge_iff haccepted (hfits.rtake henough),
      fires_rtake henough, lively_rtake henough]
  · intro hfits bar hbar
    obtain ⟨hmem, hcomplete⟩ := List.mem_filter.mp hbar
    exact (RangeBar.directed_unkept hfits).directed bar hmem hcomplete
  · intro direction h tradeManager hfree size stop limit
    exact during_opened haccepted h hfree size stop limit

/-! ## Two streams -/

/-- A run of one bar, against the one before it. -/
def velocityConfig : TradingDefinitions.StrategyConfig where
  uuid := "velocity"
  tradingVariables := { strategy := "RangeVelocityStrategy" }
  ohlcVariables := []
  rangeVariables := [⟨2, 100, 2⟩]
  strategyVariables := { rangeVelocityVariables := some ⟨1, 1, 100, 1, 0⟩ }

/-- Rises by ten points, at the times given. -/
def rises (times : List ℤ) : List PriceData :=
  times.zipIdx.map fun (time, index) => ⟨100 + 10 * index, 100 + 10 * index, time, "EURUSD"⟩

/-- When all ticks are of one moment the median is nothing, and a run as fast as that is not
taken. -/
theorem not_fires_at_once : ∃ strategy store store', make velocityConfig = .ok strategy ∧
    BarStore.fresh.registerAll [.range strategy.spec] = .ok store ∧
    store.feed .off (rises [0, 0, 0, 0] ++ [⟨140, 140, 0, "EURUSD"⟩]) = .ok store' ∧
    RangeBar.Completes strategy.spec (own "EURUSD" (rises [0, 0, 0, 0]))
      ⟨140, 140, 0, "EURUSD"⟩ ∧
    strategy.Fires (RangeBar.completedBars strategy.spec
      (own "EURUSD" (rises [0, 0, 0, 0] ++ [⟨140, 140, 0, "EURUSD"⟩]))) 0 .long ∧
    strategy.decide ⟨140, 140, 0, "EURUSD"⟩ store' = none := by
  refine ⟨_, _, _, rfl, rfl, rfl, by decide, ?_, by decide⟩
  exact ⟨by decide, by decide, 0, ⟨by decide, by decide⟩, by decide⟩

/-- The same prices a microsecond apart are bought. -/
theorem fires_in_time : ∃ strategy store store', make velocityConfig = .ok strategy ∧
    BarStore.fresh.registerAll [.range strategy.spec] = .ok store ∧
    store.feed .off (rises [0, 1, 2, 3] ++ [⟨140, 140, 4, "EURUSD"⟩]) = .ok store' ∧
    strategy.decide ⟨140, 140, 4, "EURUSD"⟩ store' = some .long := by
  obtain ⟨strategy, store, store', hmake, hregistered, hspec, hfeed, hcompletes, hsmall, hmedian,
      hfires, hdurations⟩ : ∃ strategy store store', make velocityConfig = .ok strategy ∧
      BarStore.fresh.registerAll [.range strategy.spec] = .ok store ∧
      .range strategy.spec ∈ [Registration.range strategy.spec] ∧
      store.feed .off (rises [0, 1, 2, 3] ++ [⟨140, 140, 4, "EURUSD"⟩]) = .ok store' ∧
      RangeBar.Completes strategy.spec (own "EURUSD" (rises [0, 1, 2, 3]))
        ⟨140, 140, 4, "EURUSD"⟩ ∧
      strategy.runBars + strategy.speedLookbackBars < 2 ^ 31 ∧
      strategy.IsMedian (RangeBar.completedBars strategy.spec
        (own "EURUSD" (rises [0, 1, 2, 3] ++ [⟨140, 140, 4, "EURUSD"⟩]))) 4 2 ∧
      strategy.Fires (RangeBar.completedBars strategy.spec
        (own "EURUSD" (rises [0, 1, 2, 3] ++ [⟨140, 140, 4, "EURUSD"⟩]))) 4 .long ∧
      strategy.speedRatioPercent * 2 < 2 ^ 63 ∧
      ∀ r < strategy.runBars.toNat,
        -2 ^ 63 ≤ duration (RangeBar.completedBars strategy.spec
          (own "EURUSD" (rises [0, 1, 2, 3] ++ [⟨140, 140, 4, "EURUSD"⟩]))) 4 r * 100 ∧
        duration (RangeBar.completedBars strategy.spec
          (own "EURUSD" (rises [0, 1, 2, 3] ++ [⟨140, 140, 4, "EURUSD"⟩]))) 4 r * 100 < 2 ^ 63 := by
    refine ⟨_, _, _, rfl, rfl, List.mem_cons_self, rfl, by decide, by decide,
      ⟨by decide, by decide⟩, ?_, by decide, by decide⟩
    exact ⟨by decide, by decide, 2, ⟨by decide, by decide⟩, by decide⟩
  refine ⟨strategy, store, store', hmake, hregistered, hfeed, ?_⟩
  have hfits : strategy.Representable (RangeBar.completedBars strategy.spec
      (own "EURUSD" (rises [0, 1, 2, 3] ++ [⟨140, 140, 4, "EURUSD"⟩]))) 4 := by
    refine ⟨fun median h => ?_, hdurations.2⟩
    rw [h.unique hmedian]
    exact hdurations.1
  exact ((fires_once hmake hregistered hspec rfl hfeed).2.1 hcompletes hsmall hfits .long).mpr
    ⟨hfires, 2, hmedian, by decide⟩

end RangeVelocityStrategy

end BacktestEngine
