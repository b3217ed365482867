import Mathlib.Data.Rat.Cast.Order
import BacktestEngine.Library.Endings
import BacktestEngine.Strategies.DecisionMirror

/-! # The rule of the gap

Whatever the store holds before them, and however deep the windows of the strategy are, only the
newest closed bars count: a gap between the first and the third of three bars in a row, which no bar
after them has closed, on the side of the trend, with the price back in it.
-/

namespace BacktestEngine

open Endings
open RangeBar (toInt32 toInt32_of_small)

/-- The mean of the last closes. -/
def meanClose (closed : List OhlcObject) (period : ℤ) : ℚ :=
  (((closed.rtake period.toNat).map OhlcObject.close).sum : ℤ) / period

/-- The close of the newest bar. -/
def lastClose (closed : List OhlcObject) : ℤ := (closed.map OhlcObject.close).getLastD 0

section Closes

variable {bars : List OhlcObject} {n : ℕ}

theorem window_eq_some_iff {store : BarStore} {symbol : String} {spec : SeriesSpec} :
    store.window symbol spec = some bars ↔ ∃ series, store.find symbol spec.minutes = some series ∧
      spec.count.toNat ≤ series.length ∧ series.rtake spec.count.toNat = bars := by
  unfold BarStore.window
  cases store.find symbol spec.minutes with
  | none => simp
  | some series => simp [and_comm]

theorem lastClose_eq (h : bars ≠ []) :
    lastClose bars = (barAt bars (bars.length - 1)).close := by
  have hlength := List.length_pos_of_ne_nil h
  rw [lastClose, List.getLastD_eq_getLast?, List.getLast?_map, List.getLast?_eq_getElem?,
    List.getElem?_eq_getElem (by omega), barAt_eq (by omega)]
  rfl

theorem lastClose_rtake (h : 1 ≤ n) : lastClose (bars.rtake n) = lastClose bars := by
  rw [lastClose, lastClose, List.rtake, List.map_drop, List.getLastD_eq_getLast?,
    List.getLast?_drop, List.getLastD_eq_getLast?]
  split
  · rename_i hshort
    rw [List.length_map] at hshort
    have hnil : bars = [] := List.eq_nil_of_length_eq_zero (by omega)
    rw [hnil]
    rfl
  · rfl

theorem rtake_rtake {m : ℕ} (h : n ≤ m) : (bars.rtake m).rtake n = bars.rtake n := by
  rw [List.rtake, List.rtake, List.rtake, List.drop_drop, List.length_drop]
  congr 1
  omega

/-- The last closes added up from the newest one on. -/
theorem sum_range_close (h : n ≤ bars.length) :
    ((List.range n).map fun back => (barAt bars (bars.length - 1 - back)).close).sum =
      ((bars.rtake n).map OhlcObject.close).sum := by
  induction n with
  | zero => simp [List.rtake]
  | succ n ih =>
    have hindex : bars.length - 1 - n = bars.length - (n + 1) := by omega
    have hlater : bars.length - (n + 1) + 1 = bars.length - n := by omega
    have hbar := barAt_eq (by omega : bars.length - (n + 1) < bars.length)
    rw [List.range_succ, List.map_append, List.sum_append, ih (by omega), List.rtake, List.rtake,
      List.drop_eq_getElem_cons (by omega : bars.length - (n + 1) < bars.length), hlater]
    simp only [List.map_cons, List.map_nil, List.sum_cons, List.sum_nil, add_zero, hindex, hbar]
    exact add_comm _ _

theorem barAt_dropLast {i : ℕ} (h : i + 1 < bars.length) :
    barAt bars.dropLast i = barAt bars i := by
  rw [barAt_eq (by rw [List.length_dropLast]; omega), barAt_eq (by omega), List.getElem_dropLast]

/-- A scan that asks for both sides, of which only one is ever found. -/
theorem findSome?_longFirst (long short : ℕ → Prop) [DecidablePred long] [DecidablePred short]
    (places : List ℕ) (hapart : ∀ i ∈ places, ∀ j ∈ places, long i → ¬ short j) :
    ((places.findSome? fun i => longFirst (long i) (short i)) = some .long ↔
        ∃ i ∈ places, long i) ∧
      ((places.findSome? fun i => longFirst (long i) (short i)) = some .short ↔
        ∃ i ∈ places, short i) := by
  have hlong (i : ℕ) : longFirst (long i) (short i) = some .long ↔ long i := by
    unfold longFirst
    split_ifs <;> simp [*]
  have hshort (i : ℕ) (hi : i ∈ places) : longFirst (long i) (short i) = some .short ↔ short i := by
    have := hapart i hi i hi
    unfold longFirst
    split_ifs <;> simp_all
  constructor
  · constructor
    · intro h
      obtain ⟨i, hi, hfound⟩ := List.exists_of_findSome?_eq_some h
      exact ⟨i, hi, (hlong i).mp hfound⟩
    · rintro ⟨i, hi, hfound⟩
      refine (findSome?_eq_some_iff_of_agree fun j hj direction hdirection => ?_).mpr
        ⟨i, hi, (hlong i).mpr hfound⟩
      cases direction with
      | long => rfl
      | short => exact absurd ((hshort j hj).mp hdirection) (hapart i hi j hj hfound)
  · constructor
    · intro h
      obtain ⟨i, hi, hfound⟩ := List.exists_of_findSome?_eq_some h
      exact ⟨i, hi, (hshort i hi).mp hfound⟩
    · rintro ⟨i, hi, hfound⟩
      refine (findSome?_eq_some_iff_of_agree fun j hj direction hdirection => ?_).mpr
        ⟨i, hi, (hshort i hi).mpr hfound⟩
      cases direction with
      | long => exact absurd hfound (hapart j hj i hi ((hlong j).mp hdirection))
      | short => rfl

end Closes

namespace FvgStrategy

variable (strategy : FvgStrategy)

/-- The store has the bars for a verdict: these are the closed ones of both series. -/
def Warm (store : BarStore) (symbol : String) (closed htfClosed : List OhlcObject) : Prop :=
  ∃ series htfSeries, store.find symbol strategy.fvgCfg.minutes = some series ∧
    store.find symbol strategy.htfCfg.minutes = some htfSeries ∧
      strategy.fvgCfg.count.toNat ≤ series.length ∧
        strategy.htfCfg.count.toNat ≤ htfSeries.length ∧
          series.dropLast = closed ∧ htfSeries.dropLast = htfClosed

/-- The bars that may come after the third one of a gap. -/
def Recent (later : List OhlcObject) : Prop :=
  later.length + 2 ≤ strategy.lookbackBars ∧ later.length ≤ strategy.minGapAgeBars

/-- A gap upwards, of the least size, that no later bar has come down through. -/
def Rising (symbol : String) (c1 c3 : OhlcObject) (later : List OhlcObject) : Prop :=
  c1.high < c3.low ∧ strategy.minGapPips * SymbolScale.get symbol ≤ c3.low - c1.high ∧
    ∀ bar ∈ later, c1.high < bar.low

def Falling (symbol : String) (c1 c3 : OhlcObject) (later : List OhlcObject) : Prop :=
  c3.high < c1.low ∧ strategy.minGapPips * SymbolScale.get symbol ≤ c1.low - c3.high ∧
    ∀ bar ∈ later, bar.high < c1.low

/-- The ask is back in a gap above which the last bar has closed. -/
def LongSetup (tick : PriceData) (closed : List OhlcObject) : Prop :=
  ∃ c1 c3 c2 later, c1 :: c2 :: c3 :: later <:+ closed ∧ strategy.Recent later ∧
    strategy.Rising tick.symbol c1 c3 later ∧ c3.low < lastClose closed ∧
      tick.ask ∈ Set.Icc c1.high c3.low

/-- The bid is back in a gap below which the last bar has closed. -/
def ShortSetup (tick : PriceData) (closed : List OhlcObject) : Prop :=
  ∃ c1 c3 c2 later, c1 :: c2 :: c3 :: later <:+ closed ∧ strategy.Recent later ∧
    strategy.Falling tick.symbol c1 c3 later ∧ lastClose closed < c3.high ∧
      tick.bid ∈ Set.Icc c3.high c1.low

section Rule

variable {strategy} {tick : PriceData} {store : BarStore} {bars closed : List OhlcObject} {i : ℕ}
  {up down : Bool}

/-- The trend of a window, by the closed bars that it ends with. -/
theorem trend_eq (hperiod : 1 ≤ strategy.htfSmaPeriod)
    (henough : strategy.htfSmaPeriod + 1 ≤ bars.length) :
    strategy.trend bars = (lastClose bars.dropLast * strategy.htfSmaPeriod,
      ((bars.dropLast.rtake strategy.htfSmaPeriod.toNat).map OhlcObject.close).sum) := by
  have hlength : bars.dropLast.length = bars.length - 1 := List.length_dropLast
  have hne : bars.dropLast ≠ [] := List.ne_nil_of_length_pos (by omega)
  unfold trend
  rw [lastClose_eq hne, ← sum_range_close (by omega), hlength,
    barAt_dropLast (by omega : bars.length - 1 - 1 + 1 < bars.length)]
  simp only [Nat.sub_sub, Prod.mk.injEq, true_and]
  congr 1
  apply List.map_congr_left
  intro back _
  rw [barAt_dropLast (by omega), (by omega : 1 + 1 + back = 2 + back)]

theorem lt_meanClose_iff {n : ℤ} {close : ℤ} (hn : 1 ≤ n) :
    (close < meanClose bars n ↔ close * n < ((bars.rtake n.toNat).map OhlcObject.close).sum) ∧
      (meanClose bars n < close ↔ ((bars.rtake n.toNat).map OhlcObject.close).sum < close * n) := by
  have hpos : (0 : ℚ) < n := by exact_mod_cast hn
  unfold meanClose
  rw [lt_div_iff₀ hpos, div_lt_iff₀ hpos]
  constructor
  · exact_mod_cast Iff.rfl
  · exact_mod_cast Iff.rfl

/-- Three bars in a row, by the place of the third one. -/
theorem exists_three_iff {P : OhlcObject → OhlcObject → List OhlcObject → Prop} :
    (∃ i, 2 ≤ i ∧ i < closed.length ∧
        P (barAt closed (i - 2)) (barAt closed i) (closed.drop (i + 1))) ↔
      ∃ c1 c3 c2 later, c1 :: c2 :: c3 :: later <:+ closed ∧ P c1 c3 later := by
  constructor
  · rintro ⟨i, htwo, hi, hp⟩
    refine ⟨_, _, closed[i - 1], _, ?_, hp⟩
    rw [barAt_eq (by omega), barAt_eq hi, List.getElem_cons_drop]
    rw [show closed.drop i = closed.drop (i - 1 + 1) by rw [Nat.sub_add_cancel (by omega)],
      List.getElem_cons_drop,
      show closed.drop (i - 1) = closed.drop (i - 2 + 1) by congr 1; omega,
      List.getElem_cons_drop]
    exact List.drop_suffix _ _
  · rintro ⟨c1, c3, c2, later, ⟨before, rfl⟩, hp⟩
    refine ⟨before.length + 2, by omega, by simp, ?_⟩
    have hlater : (before ++ c1 :: c2 :: c3 :: later).drop (before.length + 2 + 1) = later := by
      rw [Nat.add_assoc, List.drop_length_add_append]
      rfl
    rw [hlater, barAt_eq (by simp), barAt_eq (by simp)]
    simpa using hp

/-- The closed bars after a place. -/
theorem later_eq : (List.range' (i + 1) (bars.length - 2 - i)).map (barAt bars) =
    bars.dropLast.drop (i + 1) := by
  apply List.ext_getElem
  · simp only [List.length_map, List.length_range', List.length_drop, List.length_dropLast]
    omega
  · intro k hk hk'
    simp only [List.length_map, List.length_range'] at hk
    simp only [List.getElem_map, List.getElem_range', List.getElem_drop, List.getElem_dropLast]
    rw [barAt_eq (by omega)]
    congr 1
    omega

/-- The places that the scan looks at. -/
theorem mem_places_iff (hage : 0 ≤ strategy.minGapAgeBars) (henough : 3 ≤ bars.length) :
    (∃ back ∈ List.range (bars.length - 2 + 1 - strategy.maxAgeIdx bars.length),
        bars.length - 2 - back = i) ↔
      2 ≤ i ∧ i < bars.dropLast.length ∧ strategy.Recent (bars.dropLast.drop (i + 1)) := by
  simp only [List.mem_range, maxAgeIdx, Recent, List.length_drop, List.length_dropLast]
  constructor
  · rintro ⟨back, hback, rfl⟩
    omega
  · rintro ⟨htwo, hi, hlookback, hrecent⟩
    exact ⟨bars.length - 2 - i, by omega, by omega⟩

/-- The prices of a gap are such that its size fits in 32 bits. -/
def Priced (bars : List OhlcObject) : Prop := ∀ bar ∈ bars, 0 ≤ bar.high ∧ bar.low < 2 ^ 31

/-- The least size of a gap fits in 32 bits. -/
def GapFits (strategy : FvgStrategy) (symbol : String) : Prop :=
  -2 ^ 31 ≤ strategy.minGapPips * SymbolScale.get symbol ∧
    strategy.minGapPips * SymbolScale.get symbol < 2 ^ 31

theorem longAt_iff (hprices : Priced bars) (hfits : strategy.GapFits tick.symbol)
    (hi : i < bars.dropLast.length) : strategy.LongAt up tick bars i ↔
      strategy.Rising tick.symbol (barAt bars.dropLast (i - 2)) (barAt bars.dropLast i)
          (bars.dropLast.drop (i + 1)) ∧
        (barAt bars.dropLast i).low < lastClose bars.dropLast ∧
          tick.ask ∈ Set.Icc (barAt bars.dropLast (i - 2)).high (barAt bars.dropLast i).low ∧
            up = true := by
  rw [List.length_dropLast] at hi
  have hne : bars.dropLast ≠ [] :=
    List.ne_nil_of_length_pos (by rw [List.length_dropLast]; omega)
  obtain ⟨hlow, hhigh⟩ := hfits
  obtain ⟨-, hc3⟩ := hprices _ (barAt_mem (by omega : i < bars.length))
  obtain ⟨hc1, -⟩ := hprices _ (barAt_mem (by omega : i - 2 < bars.length))
  unfold LongAt Rising
  rw [lastClose_eq hne, List.length_dropLast, barAt_dropLast (by omega), barAt_dropLast (by omega),
    barAt_dropLast (by omega), later_eq, toInt32_of_small hlow hhigh]
  simp only [Nat.sub_sub]
  constructor
  · rintro ⟨hup, hgap, hsize, hlater, hlast, hask, hask'⟩
    rw [toInt32_of_small (by omega) (by omega)] at hsize
    exact ⟨⟨hgap, hsize, by simpa using hlater⟩, hlast, ⟨hask', hask⟩, hup⟩
  · rintro ⟨⟨hgap, hsize, hlater⟩, hlast, ⟨hask', hask⟩, hup⟩
    rw [toInt32_of_small (by omega) (by omega)]
    exact ⟨hup, hgap, hsize, by simpa using hlater, hlast, hask, hask'⟩

theorem shortAt_iff (hprices : Priced bars) (hfits : strategy.GapFits tick.symbol)
    (hi : i < bars.dropLast.length) : strategy.ShortAt down tick bars i ↔
      strategy.Falling tick.symbol (barAt bars.dropLast (i - 2)) (barAt bars.dropLast i)
          (bars.dropLast.drop (i + 1)) ∧
        lastClose bars.dropLast < (barAt bars.dropLast i).high ∧
          tick.bid ∈ Set.Icc (barAt bars.dropLast i).high (barAt bars.dropLast (i - 2)).low ∧
            down = true := by
  rw [List.length_dropLast] at hi
  have hne : bars.dropLast ≠ [] :=
    List.ne_nil_of_length_pos (by rw [List.length_dropLast]; omega)
  obtain ⟨hlow, hhigh⟩ := hfits
  obtain ⟨hc3, -⟩ := hprices _ (barAt_mem (by omega : i < bars.length))
  obtain ⟨-, hc1⟩ := hprices _ (barAt_mem (by omega : i - 2 < bars.length))
  unfold ShortAt Falling
  rw [lastClose_eq hne, List.length_dropLast, barAt_dropLast (by omega), barAt_dropLast (by omega),
    barAt_dropLast (by omega), later_eq, toInt32_of_small hlow hhigh]
  simp only [Nat.sub_sub]
  constructor
  · rintro ⟨hdown, hgap, hsize, hlater, hlast, hbid, hbid'⟩
    rw [toInt32_of_small (by omega) (by omega)] at hsize
    exact ⟨⟨hgap, hsize, by simpa using hlater⟩, hlast, ⟨hbid, hbid'⟩, hdown⟩
  · rintro ⟨⟨hgap, hsize, hlater⟩, hlast, ⟨hbid, hbid'⟩, hdown⟩
    rw [toInt32_of_small (by omega) (by omega)]
    exact ⟨hdown, hgap, hsize, by simpa using hlater, hlast, hbid, hbid'⟩

/-- A place that the scan looks at, or three bars in a row of which the last ones are recent. -/
theorem exists_place_iff (hage : 0 ≤ strategy.minGapAgeBars) (henough : 3 ≤ bars.length)
    {Q : ℕ → Prop} {P : OhlcObject → OhlcObject → List OhlcObject → Prop}
    (hQ : ∀ i < bars.dropLast.length, Q i ↔
      P (barAt bars.dropLast (i - 2)) (barAt bars.dropLast i) (bars.dropLast.drop (i + 1))) :
    (∃ back ∈ List.range (bars.length - 2 + 1 - strategy.maxAgeIdx bars.length),
        Q (bars.length - 2 - back)) ↔
      ∃ c1 c3 c2 later, c1 :: c2 :: c3 :: later <:+ bars.dropLast ∧
        strategy.Recent later ∧ P c1 c3 later := by
  rw [← exists_three_iff]
  constructor
  · rintro ⟨back, hback, hq⟩
    obtain ⟨htwo, hi, hrecent⟩ := (mem_places_iff hage henough).mp ⟨back, hback, rfl⟩
    exact ⟨_, htwo, hi, hrecent, (hQ _ hi).mp hq⟩
  · rintro ⟨i, htwo, hi, hrecent, hp⟩
    obtain ⟨back, hback, rfl⟩ := (mem_places_iff hage henough).mpr ⟨htwo, hi, hrecent⟩
    exact ⟨back, hback, (hQ _ hi).mpr hp⟩

/-- What the scan finds in a trend, which is not both up and down. -/
theorem gapScan_iff (hage : 0 ≤ strategy.minGapAgeBars) (henough : 3 ≤ bars.length)
    (hprices : Priced bars) (hfits : strategy.GapFits tick.symbol) (htrend : ¬ (up ∧ down)) :
    (strategy.gapScan up down tick bars = some .long ↔
        up = true ∧ strategy.LongSetup tick bars.dropLast) ∧
      (strategy.gapScan up down tick bars = some .short ↔
        down = true ∧ strategy.ShortSetup tick bars.dropLast) := by
  have hscan : strategy.gapScan up down tick bars =
      (List.range (bars.length - 2 + 1 - strategy.maxAgeIdx bars.length)).findSome? fun back =>
        longFirst (strategy.LongAt up tick bars (bars.length - 2 - back))
          (strategy.ShortAt down tick bars (bars.length - 2 - back)) := rfl
  obtain ⟨hlong, hshort⟩ := findSome?_longFirst
    (fun back => strategy.LongAt up tick bars (bars.length - 2 - back))
    (fun back => strategy.ShortAt down tick bars (bars.length - 2 - back))
    (List.range (bars.length - 2 + 1 - strategy.maxAgeIdx bars.length))
    fun _ _ _ _ hl hs => htrend ⟨hl.1, hs.1⟩
  rw [hscan, hlong, hshort]
  constructor
  · rw [exists_place_iff (P := fun c1 c3 later => strategy.Rising tick.symbol c1 c3 later ∧
      c3.low < lastClose bars.dropLast ∧ tick.ask ∈ Set.Icc c1.high c3.low ∧ up = true)
      hage henough fun i hi => longAt_iff hprices hfits hi]
    constructor
    · rintro ⟨c1, c3, c2, later, hsuffix, hrecent, hrising, hlast, hask, hup⟩
      exact ⟨hup, c1, c3, c2, later, hsuffix, hrecent, hrising, hlast, hask⟩
    · rintro ⟨hup, c1, c3, c2, later, hsuffix, hrecent, hrising, hlast, hask⟩
      exact ⟨c1, c3, c2, later, hsuffix, hrecent, hrising, hlast, hask, hup⟩
  · rw [exists_place_iff (P := fun c1 c3 later => strategy.Falling tick.symbol c1 c3 later ∧
      lastClose bars.dropLast < c3.high ∧ tick.bid ∈ Set.Icc c3.high c1.low ∧ down = true)
      hage henough fun i hi => shortAt_iff hprices hfits hi]
    constructor
    · rintro ⟨c1, c3, c2, later, hsuffix, hrecent, hfalling, hlast, hbid, hdown⟩
      exact ⟨hdown, c1, c3, c2, later, hsuffix, hrecent, hfalling, hlast, hbid⟩
    · rintro ⟨hdown, c1, c3, c2, later, hsuffix, hrecent, hfalling, hlast, hbid⟩
      exact ⟨c1, c3, c2, later, hsuffix, hrecent, hfalling, hlast, hbid, hdown⟩

/-- A deeper window has the same gaps. -/
theorem setup_rtake {n : ℕ} (hwide : strategy.lookbackBars + 3 ≤ n) (hlookback : 1 ≤ n) :
    (strategy.LongSetup tick (bars.rtake n).dropLast ↔ strategy.LongSetup tick bars.dropLast) ∧
      (strategy.ShortSetup tick (bars.rtake n).dropLast ↔
        strategy.ShortSetup tick bars.dropLast) := by
  obtain ⟨m, rfl⟩ : ∃ m, n = m + 1 := ⟨n - 1, by omega⟩
  have hlast (hm : 1 ≤ m) : lastClose (bars.dropLast.rtake m) = lastClose bars.dropLast :=
    lastClose_rtake hm
  have hpart (c1 c2 c3 : OhlcObject) (later : List OhlcObject) (hrecent : strategy.Recent later) :
      1 ≤ m ∧ (c1 :: c2 :: c3 :: later <:+ bars.dropLast.rtake m ↔
        c1 :: c2 :: c3 :: later <:+ bars.dropLast) := by
    have hlength := hrecent.1
    refine ⟨by omega, suffix_rtake_iff.trans (and_iff_left ?_)⟩
    simp only [List.length_cons]
    omega
  rw [dropLast_rtake]
  constructor
  · constructor
    · rintro ⟨c1, c3, c2, later, hsuffix, hrecent, hrising, hclose, hask⟩
      obtain ⟨hm, hiff⟩ := hpart c1 c2 c3 later hrecent
      exact ⟨c1, c3, c2, later, hiff.mp hsuffix, hrecent, hrising, hlast hm ▸ hclose, hask⟩
    · rintro ⟨c1, c3, c2, later, hsuffix, hrecent, hrising, hclose, hask⟩
      obtain ⟨hm, hiff⟩ := hpart c1 c2 c3 later hrecent
      exact ⟨c1, c3, c2, later, hiff.mpr hsuffix, hrecent, hrising, (hlast hm).symm ▸ hclose, hask⟩
  · constructor
    · rintro ⟨c1, c3, c2, later, hsuffix, hrecent, hfalling, hclose, hbid⟩
      obtain ⟨hm, hiff⟩ := hpart c1 c2 c3 later hrecent
      exact ⟨c1, c3, c2, later, hiff.mp hsuffix, hrecent, hfalling, hlast hm ▸ hclose, hbid⟩
    · rintro ⟨c1, c3, c2, later, hsuffix, hrecent, hfalling, hclose, hbid⟩
      obtain ⟨hm, hiff⟩ := hpart c1 c2 c3 later hrecent
      exact ⟨c1, c3, c2, later, hiff.mpr hsuffix, hrecent, hfalling, (hlast hm).symm ▸ hclose, hbid⟩

/-- A deeper window has the same trend. -/
theorem trend_rtake {n : ℕ} (hperiod : 1 ≤ strategy.htfSmaPeriod)
    (hwide : strategy.htfSmaPeriod + 2 ≤ n) (henough : n ≤ bars.length) :
    strategy.trend (bars.rtake n) = (lastClose bars.dropLast * strategy.htfSmaPeriod,
      ((bars.dropLast.rtake strategy.htfSmaPeriod.toNat).map OhlcObject.close).sum) := by
  obtain ⟨m, rfl⟩ : ∃ m, n = m + 1 := ⟨n - 1, by omega⟩
  rw [trend_eq hperiod (by rw [length_rtake henough]; omega), dropLast_rtake,
    lastClose_rtake (by omega), rtake_rtake (by omega)]

theorem decide_warm (haccepted : strategy.Accepted) (hfits : strategy.GapFits tick.symbol)
    {series htfSeries : List OhlcObject} (hprices : Priced series)
    (hfvg : store.find tick.symbol strategy.fvgCfg.minutes = some series)
    (hhtf : store.find tick.symbol strategy.htfCfg.minutes = some htfSeries)
    (hlength : strategy.fvgCfg.count.toNat ≤ series.length)
    (hlengthHtf : strategy.htfCfg.count.toNat ≤ htfSeries.length) :
    (strategy.decide tick store = some .long ↔
        meanClose htfSeries.dropLast strategy.htfSmaPeriod < lastClose htfSeries.dropLast ∧
          strategy.LongSetup tick series.dropLast) ∧
      (strategy.decide tick store = some .short ↔
        lastClose htfSeries.dropLast < meanClose htfSeries.dropLast strategy.htfSmaPeriod ∧
          strategy.ShortSetup tick series.dropLast) := by
  obtain ⟨hlookback, hperiod, hage, hwide, hwideHtf⟩ := haccepted
  have htrend := trend_rtake hperiod (by omega) hlengthHtf
  obtain ⟨hlong, hshort⟩ := @setup_rtake strategy tick series strategy.fvgCfg.count.toNat
    (by omega) (by omega)
  have hwindow : Priced (series.rtake strategy.fvgCfg.count.toNat) :=
    fun bar hbar => hprices bar (List.mem_of_mem_drop hbar)
  rw [decide_eq, window_eq_some_iff.mpr ⟨series, hfvg, hlength, rfl⟩,
    window_eq_some_iff.mpr ⟨htfSeries, hhtf, hlengthHtf, rfl⟩]
  simp only [Option.bind_some, htrend]
  have hapart (a b : ℤ) : ¬ (Decidable.decide (a < b) ∧ Decidable.decide (b < a)) := by
    simp only [decide_eq_true_eq]
    omega
  obtain ⟨hscanLong, hscanShort⟩ := gapScan_iff hage (by rw [length_rtake hlength]; omega) hwindow
    hfits (hapart ((htfSeries.dropLast.rtake strategy.htfSmaPeriod.toNat).map OhlcObject.close).sum
      (lastClose htfSeries.dropLast * strategy.htfSmaPeriod))
  rw [hscanLong, hscanShort, hlong, hshort, decide_eq_true_eq, decide_eq_true_eq,
    (lt_meanClose_iff hperiod).1, (lt_meanClose_iff hperiod).2]
  exact ⟨Iff.rfl, Iff.rfl⟩

end Rule

section Sample

def gapConfig : TradingDefinitions.StrategyConfig where
  uuid := "gap"
  tradingVariables := { strategy := "FvgStrategy" }
  ohlcVariables := [⟨5, 15⟩, ⟨4, 60⟩]
  rangeVariables := []
  strategyVariables := { fvgStrategyVariables := some ⟨2, 1, 2, 0, 0⟩ }

def gapStrategy : FvgStrategy := ⟨⟨15, 5⟩, ⟨60, 4⟩, 2, 1, 2, 0, 0⟩

/-- A rise that leaves a gap from 100 to 160, and a tick that comes back to 150. -/
def gapStore : BarStore where
  specs := [⟨15, 5⟩, ⟨60, 4⟩]
  bySymbol := (∅ : AList fun _ : String => List (List OhlcObject)).insert "EURUSD"
    [[⟨0, 90, 90, 95, 85, true⟩, ⟨1, 90, 95, 100, 90, true⟩, ⟨2, 95, 160, 165, 95, true⟩,
        ⟨3, 160, 170, 175, 160, true⟩, ⟨4, 150, 150, 150, 150, false⟩],
      [⟨0, 80, 80, 80, 80, true⟩, ⟨1, 90, 90, 90, 90, true⟩, ⟨2, 120, 120, 120, 120, true⟩,
        ⟨3, 150, 150, 150, 150, false⟩]]
  rangeSpecs := []
  rangeBySymbol := ∅

end Sample

end FvgStrategy

end BacktestEngine
