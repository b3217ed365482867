import BacktestEngine.Strategies.TrendBreakouts

/-! # The trend filter

The filter compares the last close with an average that has it in. It answers as the exact
average of the closes before does, unless the last close is too near to that for the rounding.
-/

namespace BacktestEngine

namespace Ema

variable {prices : List ℤ} {period : ℕ}

/-! ## Long windows

The seed wraps in a long window, but then the multiplier is small. -/

theorem alphaQ_le_two (hlong : 2 ^ 16 < period) : alphaQ period ≤ 2 := by
  have hpos : (0 : ℤ) < period + 1 := by omega
  have hthree : (2 : ℤ) * 2 ^ 16 + (period + 1) / 2 < 3 * (period + 1) := by omega
  exact Int.lt_add_one_iff.mp ((FixedPoint.nearestDiv_lt_iff hpos).mpr hthree)

theorem natAbs_seedQ_le (hlong : 2 ^ 16 < period) :
    (seedQ prices period).natAbs ≤ 2 ^ 47 - 2 ^ 16 := by
  have hwrapped : (toInt64 (prices.sum * 2 ^ kFractionBits + period / 2)).natAbs ≤ 2 ^ 63 := by
    unfold toInt64
    generalize prices.sum * 2 ^ kFractionBits + (period : ℤ) / 2 = value
    have hlow := Int.le_bmod (x := value) (m := 2 ^ 64) (by decide)
    have hhigh := Int.bmod_lt (x := value) (m := 2 ^ 64) (by decide)
    omega
  rw [seedQ, Int.natAbs_tdiv, Int.natAbs_natCast]
  calc _ / period ≤ 2 ^ 63 / period := Nat.div_le_div_right hwrapped
    _ ≤ 2 ^ 63 / (2 ^ 16 + 1) := Nat.div_le_div_left hlong (by norm_num)
    _ ≤ 2 ^ 47 - 2 ^ 16 := by norm_num

/-- A segment of states in which no step wraps. -/
structure Roomy (alpha low high : ℤ) : Prop where
  atLeast : -(2 ^ 47 - 2 ^ 16) ≤ low
  atMost : high ≤ 2 ^ 47 - 2 ^ 16
  gap : alpha * (high - low) < 2 ^ 63 - 2 ^ 15

/-- Prices of 32 bits that are not negative. -/
def Valid (prices : List ℤ) : Prop := ∀ price ∈ prices, 0 ≤ price ∧ price < 2 ^ 31

instance (prices : List ℤ) : Decidable (Valid prices) :=
  inferInstanceAs (Decidable (∀ price ∈ prices, _))

/-- The seed and the prices are in such a segment, whatever the period. -/
theorem exists_roomy (hvalid : Valid prices) (hperiod : 1 ≤ period)
    (henough : period ≤ prices.length) :
    ∃ low high, Roomy (alphaQ period) low high ∧
      seedQ (prices.take period) period ∈ Set.Icc low high ∧
      ∀ price ∈ prices, toQ price ∈ Set.Icc low high := by
  have hlarge : toQ (2 ^ 31 - 1) = 2 ^ 47 - 2 ^ 16 := by decide
  have hzero : toQ 0 = 0 := rfl
  have hprices (price : ℤ) (hprice : price ∈ prices) :
      toQ price ∈ Set.Icc 0 (2 ^ 47 - 2 ^ 16) := by
    rw [← hzero, ← hlarge]
    exact toQ_mem_Icc ⟨(hvalid price hprice).1, by linarith [(hvalid price hprice).2]⟩
  by_cases hlong : 2 ^ 16 < period
  · have hseed : (seedQ (prices.take period) period).natAbs ≤ _ := natAbs_seedQ_le hlong
    refine ⟨-(2 ^ 47 - 2 ^ 16), 2 ^ 47 - 2 ^ 16, ⟨le_rfl, le_rfl, ?_⟩, ⟨by omega, by omega⟩, ?_⟩
    · have htwo := alphaQ_le_two hlong
      omega
    · intro price hprice
      exact ⟨le_trans (by decide) (hprices price hprice).1, (hprices price hprice).2⟩
  · have hfits : Fits (2 ^ 31 - 1) (prices.take period) period :=
      ⟨fun price hprice =>
        have h := hvalid price (List.mem_of_mem_take hprice)
        ⟨h.1, by linarith [h.2]⟩, by norm_num, by norm_num, by rw [hlarge]; omega⟩
    have hlength : (prices.take period).length = period := List.length_take_of_le henough
    refine ⟨0, 2 ^ 47 - 2 ^ 16, ⟨by norm_num, le_rfl, ?_⟩, ?_, hprices⟩
    · have hone := alphaQ_le hperiod
      have hbits : (2 : ℤ) ^ kFractionBits = 2 ^ 16 := rfl
      omega
    · rw [seedQ_eq hfits hlength, ← hzero, ← hlarge]
      exact nearestDiv_sum_mem_Icc hperiod hlength hfits.prices

theorem Roomy.foldl_stepQ_eq {alpha low high emaQ : ℤ} (hroomy : Roomy alpha low high)
    (hnonneg : 0 ≤ alpha) (hle : alpha ≤ 2 ^ kFractionBits) (hema : emaQ ∈ Set.Icc low high)
    (hprices : ∀ price ∈ prices, toQ price ∈ Set.Icc low high) :
    prices.foldl (stepQ alpha) emaQ =
      (prices.map toQ).foldl (FixedPoint.step (2 ^ kFractionBits) alpha) emaQ :=
  Ema.foldl_stepQ_eq hnonneg hle (le_trans (by decide) hroomy.atLeast)
    (hroomy.atMost.trans_lt (by decide)) hroomy.gap hprices hema

theorem Roomy.roundToPoints_eq {alpha low high q : ℤ} (hroomy : Roomy alpha low high)
    (hq : q ∈ Set.Icc low high) : roundToPoints q = FixedPoint.nearestDiv q (2 ^ kFractionBits) := by
  have hlow : -(2 ^ 31 - 1) * 2 ^ kFractionBits ≤ q := hroomy.atLeast.trans hq.1
  have hhigh : q ≤ (2 ^ 31 - 1) * 2 ^ kFractionBits := hq.2.trans hroomy.atMost
  obtain ⟨hround, hround'⟩ := FixedPoint.nearestDiv_mem_Icc unit_pos hlow hhigh
  rw [roundToPoints, kHalf_eq]
  exact RangeBar.toInt32_of_small (le_trans (by decide) hround) (hround'.trans_lt (by decide))

theorem stateQ_snoc (henough : period ≤ prices.length) (price : ℤ) :
    stateQ (prices ++ [price]) period = stepQ (alphaQ period) (stateQ prices period) price := by
  rw [stateQ, List.drop_append_of_le_length henough, List.take_append_of_le_length henough,
    List.foldl_append]
  rfl

section Last

variable {close : ℤ} (hvalid : Valid (prices ++ [close])) (hperiod : 1 ≤ period)
  (henough : period ≤ prices.length)
include hvalid hperiod henough

/-- The last output of a window, from the state before it. -/
theorem roundToPoints_stateQ_snoc : roundToPoints (stateQ (prices ++ [close]) period) =
    FixedPoint.nearestDiv (FixedPoint.step (2 ^ kFractionBits) (alphaQ period)
      (stateQ prices period) (close * 2 ^ kFractionBits)) (2 ^ kFractionBits) := by
  have halpha : 0 ≤ alphaQ period := alphaQ_nonneg
  have halpha' := alphaQ_le hperiod
  have hlength : period ≤ (prices ++ [close]).length := by
    rw [List.length_append]
    omega
  obtain ⟨low, high, hroomy, hseed, htargets⟩ := exists_roomy hvalid hperiod hlength
  rw [List.take_append_of_le_length henough] at hseed
  have hprices (price : ℤ) (hprice : price ∈ prices.drop period) : toQ price ∈ Set.Icc low high :=
    htargets price (List.mem_append_left _ (List.mem_of_mem_drop hprice))
  have hclose : toQ close ∈ Set.Icc low high := htargets close (by simp)
  have hstate : stateQ prices period ∈ Set.Icc low high := by
    rw [stateQ, hroomy.foldl_stepQ_eq halpha halpha' hseed hprices]
    exact FixedPoint.foldl_step_mem_Icc unit_pos halpha halpha' (List.forall_mem_map.mpr hprices)
      hseed
  have hstep : stepQ (alphaQ period) (stateQ prices period) close =
      FixedPoint.step (2 ^ kFractionBits) (alphaQ period) (stateQ prices period) (toQ close) :=
    hroomy.foldl_stepQ_eq halpha halpha' hstate (List.forall_mem_singleton.mpr hclose)
  rw [stateQ_snoc henough, hstep]
  exact hroomy.roundToPoints_eq (FixedPoint.step_mem_Icc unit_pos halpha halpha' hstate hclose)

theorem lt_close_iff : roundToPoints (stateQ (prices ++ [close]) period) < close ↔
    2 ^ 31 + 2 ^ 15 < (2 ^ 16 - alphaQ period) * (toQ close - stateQ prices period) := by
  rw [roundToPoints_stateQ_snoc hvalid hperiod henough, FixedPoint.nearestDiv_step_lt_iff unit_pos,
    toQ, kFractionBits, sub_mul (2 ^ 16 : ℤ)]
  omega

theorem close_lt_iff : close < roundToPoints (stateQ (prices ++ [close]) period) ↔
    (2 ^ 16 - alphaQ period) * (toQ close - stateQ prices period) ≤ 2 ^ 15 - 2 ^ 31 := by
  rw [roundToPoints_stateQ_snoc hvalid hperiod henough, FixedPoint.lt_nearestDiv_step_iff unit_pos,
    toQ, kFractionBits, sub_mul (2 ^ 16 : ℤ)]
  omega

end Last

end Ema

namespace TrendFilter

open Ema (alphaQ stateQ toQ exactEma Valid)

/-- The exact average of the closes before the last. -/
def trailing (closes : List ℤ) : ℚ := exactEma closes.dropLast (closes.length / 2)

/-- The filter answers as the comparison with that average does. -/
def Follows (closes : List ℤ) : Prop :=
  ∃ currentClose currentEma, read closes = .ok (currentClose, currentEma) ∧
    cmp currentClose currentEma = cmp (currentClose : ℚ) (trailing closes)

/-- How far the last close stays from the average when the step towards it has been made, in 2^-32 of a
point. -/
def clearance (closes : List ℤ) : ℤ :=
  (2 ^ 16 - alphaQ (closes.length / 2)) *
    (toQ (closes.getLastD 0) - stateQ closes.dropLast (closes.length / 2))

/-- The clearance is above half a point above the exact average, and below minus half a point below
it, and between the two at it. -/
structure Clear (closes : List ℤ) : Prop where
  above : trailing closes < closes.getLastD 0 → 2 ^ 31 + 2 ^ 15 < clearance closes
  below : closes.getLastD 0 < trailing closes → clearance closes ≤ 2 ^ 15 - 2 ^ 31
  level : closes.getLastD 0 = trailing closes →
    2 ^ 15 - 2 ^ 31 < clearance closes ∧ clearance closes ≤ 2 ^ 31 + 2 ^ 15

variable {closes : List ℤ}

theorem read_eq (henough : 2 ≤ closes.length) : read closes = .ok (closes.getLastD 0,
    Ema.roundToPoints (stateQ closes (closes.length / 2))) := by
  have hperiod : (1 : ℤ) ≤ (closes.length / 2 : ℕ) := by omega
  obtain ⟨out, hout⟩ := Ema.exists_calculate closes hperiod
  have hlast : out.getLast? =
      some (Ema.roundToPoints (stateQ closes (closes.length / 2))) := by
    rw [List.getLast?_eq_getElem?, Ema.length_calculate hout,
      Ema.getElem?_calculate hperiod hout (by omega) (by omega),
      show closes.length - 1 + 1 = closes.length by omega, List.take_length, Int.toNat_natCast]
  unfold read
  dsimp only
  rw [hout]
  change Except.ok (closes.getLastD 0, out.getLastD 0) = _
  rw [List.getLastD_eq_getLast? (l := out), hlast]
  rfl

theorem cmp_eq_cmp_iff {α β : Type} [LinearOrder α] [LinearOrder β] {a b : α} {c d : β} :
    cmp a b = cmp c d ↔ (d < c → b < a) ∧ (c < d → a < b) ∧ (c = d → ¬ b < a ∧ ¬ a < b) := by
  constructor
  · intro h
    have hlt := lt_iff_lt_of_cmp_eq_cmp h
    have hgt := lt_iff_lt_of_cmp_eq_cmp (cmp_eq_cmp_symm.mp h)
    refine ⟨hgt.mpr, hlt.mpr, ?_⟩
    rintro rfl
    exact ⟨fun hba => lt_irrefl _ (hgt.mp hba), fun hab => lt_irrefl _ (hlt.mp hab)⟩
  · rintro ⟨hgt, hlt, heq⟩
    rcases lt_trichotomy c d with h | h | h
    · rw [(cmp_eq_lt_iff c d).mpr h, (cmp_eq_lt_iff a b).mpr (hlt h)]
    · obtain ⟨hba, hab⟩ := heq h
      rw [(cmp_eq_eq_iff c d).mpr h,
        (cmp_eq_eq_iff a b).mpr (le_antisymm (not_lt.mp hba) (not_lt.mp hab))]
    · rw [(cmp_eq_gt_iff c d).mpr h, (cmp_eq_gt_iff a b).mpr (hgt h)]

section Ends

variable (henough : 2 ≤ closes.length) (hvalid : Valid closes)
include henough hvalid

/-- What the filter finds, by the clearance. -/
theorem lt_iff_clearance :
    (Ema.roundToPoints (stateQ closes (closes.length / 2)) < closes.getLastD 0 ↔
      2 ^ 31 + 2 ^ 15 < clearance closes) ∧
    (closes.getLastD 0 < Ema.roundToPoints (stateQ closes (closes.length / 2)) ↔
      clearance closes ≤ 2 ^ 15 - 2 ^ 31) := by
  have hne : closes ≠ [] := List.ne_nil_of_length_pos (by omega)
  have hsplit : closes.dropLast ++ [closes.getLastD 0] = closes := by
    rw [List.getLastD_eq_getLast?, List.getLast?_eq_getLast_of_ne_nil hne]
    exact List.dropLast_append_getLast hne
  have hvalid' : Valid (closes.dropLast ++ [closes.getLastD 0]) := hsplit.symm ▸ hvalid
  have hperiod : 1 ≤ closes.length / 2 := by omega
  have hbefore : closes.length / 2 ≤ closes.dropLast.length := by
    rw [List.length_dropLast]
    omega
  have habove := Ema.lt_close_iff hvalid' hperiod hbefore
  have hbelow := Ema.close_lt_iff hvalid' hperiod hbefore
  rw [hsplit] at habove hbelow
  exact ⟨habove, hbelow⟩

/-- With two or three closes the average is the last of them. -/
theorem read_short (hshort : closes.length ≤ 3) :
    read closes = .ok (closes.getLastD 0, closes.getLastD 0) := by
  obtain ⟨habove, hbelow⟩ := lt_iff_clearance henough hvalid
  have hone : alphaQ 1 = 2 ^ 16 := by decide
  have hzero : clearance closes = 0 := by
    rw [clearance, show closes.length / 2 = 1 by omega, hone, sub_self, zero_mul]
  rw [hzero] at habove hbelow
  rw [read_eq henough, le_antisymm (not_lt.mp fun h => absurd (hbelow.mp h) (by decide))
    (not_lt.mp fun h => absurd (habove.mp h) (by decide))]

end Ends

/-- The filter follows the exact average just when the last close is clear of it. -/
theorem filter_follows_iff (henough : 2 ≤ closes.length) (hvalid : Valid closes) :
    Follows closes ↔ Clear closes := by
  obtain ⟨habove, hbelow⟩ := lt_iff_clearance henough hvalid
  have hfollows : Follows closes ↔ cmp (closes.getLastD 0)
      (Ema.roundToPoints (stateQ closes (closes.length / 2))) =
        cmp (closes.getLastD 0 : ℚ) (trailing closes) := by
    unfold Follows
    rw [read_eq henough]
    constructor
    · rintro ⟨currentClose, currentEma, hread, hcmp⟩
      cases hread
      exact hcmp
    · intro hcmp
      exact ⟨_, _, rfl, hcmp⟩
  rw [hfollows, cmp_eq_cmp_iff, habove, hbelow, not_lt, not_le]
  constructor
  · rintro ⟨h, h', h''⟩
    exact ⟨h, h', fun heq => (h'' heq).symm⟩
  · rintro ⟨h, h', h''⟩
    exact ⟨h, h', fun heq => (h'' heq).symm⟩

theorem follows_level : Follows [100, 100, 100, 100] ↔ Clear [100, 100, 100, 100] :=
  filter_follows_iff (by decide) (by decide)

/-- A rise of the last close that a window of two does not see, and one by a fifth of a point that the
rounding takes away. -/
theorem not_follows : (Valid [100, 200] ∧ ¬ Follows [100, 200]) ∧
    (Valid [100, 101, 101, 101] ∧ ¬ Follows [100, 101, 101, 101]) := by
  have hshort : read [100, 200] = .ok (200, 200) := rfl
  have hnear : read [100, 101, 101, 101] = .ok (101, 101) := rfl
  have htrailing : trailing [100, 200] = 100 := by
    norm_num [trailing, exactEma, FixedPoint.trackAll]
  have htrailing' : trailing [100, 101, 101, 101] = 605 / 6 := by
    norm_num [trailing, exactEma, FixedPoint.trackAll, FixedPoint.track]
  refine ⟨⟨by decide, ?_⟩, by decide, ?_⟩
  · rintro ⟨currentClose, currentEma, hread, hcmp⟩
    rw [hshort] at hread
    cases hread
    rw [cmp_self_eq_eq, eq_comm, cmp_eq_eq_iff, htrailing] at hcmp
    norm_num at hcmp
  · rintro ⟨currentClose, currentEma, hread, hcmp⟩
    rw [hnear] at hread
    cases hread
    rw [cmp_self_eq_eq, eq_comm, cmp_eq_eq_iff, htrailing'] at hcmp
    norm_num at hcmp

end TrendFilter

/-- A strategy with a trend window of two or three bars is accepted and never trades. -/
theorem OhlcBreakoutStrategy.decide_short {strategy : OhlcBreakoutStrategy} {tick : PriceData}
    {barStore : BarStore} {trendSeries : List OhlcObject}
    (hcount : 2 ≤ strategy.trendCfg.count) (hshort : strategy.trendCfg.count ≤ 3)
    (hfind : barStore.find tick.symbol strategy.trendCfg.minutes = some trendSeries)
    (hvalid : Ema.Valid (trendSeries.map OhlcObject.close)) :
    strategy.decide tick barStore = .ok none := by
  unfold decide
  rw [hfind]
  cases barStore.find tick.symbol strategy.breakoutCfg.minutes with
  | none => rfl
  | some breakoutSeries =>
    dsimp only
    split_ifs with hwarm
    · rfl
    · have hlength : (trendSeries.rtake strategy.trendCfg.count.toNat).length =
          strategy.trendCfg.count.toNat := by
        rw [List.rtake, List.length_drop]
        omega
      have hcloses : Ema.Valid ((trendSeries.rtake strategy.trendCfg.count.toNat).map
          OhlcObject.close) := by
        intro price hprice
        refine hvalid price ?_
        rw [List.rtake, List.map_drop] at hprice
        exact List.mem_of_mem_drop hprice
      rw [TrendFilter.read_short (by rw [List.length_map]; omega) hcloses
        (by rw [List.length_map]; omega)]
      change (if _ ∧ _ < _ then _ else if _ ∧ _ < _ then _ else _) = _
      rw [if_neg fun h => lt_irrefl _ h.2, if_neg fun h => lt_irrefl _ h.2]
      rfl

end BacktestEngine
