import BacktestEngine.Library.BoundedTail
import BacktestEngine.Models.Bars

/-! # Time bars

A tick later than the duration of the last bar completes it and opens the next one;
every tick is taken in by the last bar.
-/

namespace BacktestEngine

namespace Ohlc

/-- The bars before a time, the oldest first; none when they are switched off, the symbol is unknown
or the query fails. -/
def prepopulateOHLC (warmUp : WarmUp) (symbol : String) (before barMinutes count : ℤ) :
    List OhlcObject :=
  if count ≤ 0 ∨ barMinutes < 1 then []
  else if !warmUp.prepopulate then []
  else if SymbolScale.get symbol = SymbolScale.kUnknown then []
  else
    match warmUp.queryOhlc symbol before barMinutes count with
    | none => []
    | some bars =>
      let bars := bars.reverse
      match bars.getLast? with
      | none => bars
      | some last => bars.dropLast ++ [{ last with complete := false }]

/-- The bars of a series before its first tick is taken in. -/
def seedBars (warmUp : WarmUp) (tick : PriceData) (price duration prepopulateCount : ℤ) :
    List OhlcObject :=
  let bars :=
    if prepopulateCount > 0 then
      prepopulateOHLC warmUp tick.symbol tick.timestamp (duration.tdiv (60 * second))
        prepopulateCount
    else []
  if bars = [] then [.opened tick price] else bars

/-- Take a tick into a series of bars. -/
def calculateOHLC (warmUp : WarmUp) (tick : PriceData) (price duration : ℤ)
    (bars : List OhlcObject) (prepopulateCount : ℤ := 0) : Except String (List OhlcObject) :=
  if duration ≤ 0 then
    throw "calculateOHLC: bar duration must be positive (check OHLC_MINUTES)"
  else
    let bars := if bars = [] then seedBars warmUp tick price duration prepopulateCount else bars
    let bars :=
      match bars.getLast? with
      | none => bars
      | some last =>
        -- a tick exactly on the boundary still belongs to the open bar
        if tick.timestamp - last.date > duration then
          bars.dropLast ++ [{ last with complete := true }, .opened tick price]
        else bars
    match bars.getLast? with
    | none => return bars
    | some bar => return bars.dropLast ++ [bar.absorb price]

/-- What comes of the last bar at a tick. -/
def rollBar (tick : PriceData) (price duration : ℤ) : Option OhlcObject → List OhlcObject
  | none => [.opened tick price]
  | some last =>
    if tick.timestamp - last.date > duration then
      [{ last with complete := true }, .opened tick price]
    else [last.absorb price]

theorem rollBar_ne_nil (tick : PriceData) (price duration : ℤ) (last : Option OhlcObject) :
    rollBar tick price duration last ≠ [] := by
  unfold rollBar
  split
  · simp
  · split_ifs <;> simp

variable {warmUp : WarmUp} {tick : PriceData} {price duration prepopulateCount : ℤ}
  {bars : List OhlcObject}

theorem seedBars_off (hoff : warmUp.prepopulate = false) :
    seedBars warmUp tick price duration prepopulateCount = [.opened tick price] := by
  simp [seedBars, prepopulateOHLC, hoff]

theorem seedBars_cold (hcold : prepopulateCount ≤ 0) :
    seedBars warmUp tick price duration prepopulateCount = [.opened tick price] := by
  simp [seedBars, hcold.not_gt]

/-- When the first tick opens the first bar, only the last bar matters. -/
theorem calculateOHLC_seeded (hduration : 0 < duration)
    (hseed : seedBars warmUp tick price duration prepopulateCount = [.opened tick price]) :
    calculateOHLC warmUp tick price duration bars prepopulateCount =
      .ok (BoundedTail.advance (rollBar tick price duration) bars) := by
  rw [calculateOHLC, if_neg (not_le.mpr hduration)]
  induction bars using List.reverseRecOn with
  | nil =>
    simp [hseed, OhlcObject.opened, hduration.not_gt, BoundedTail.advance, rollBar,
      OhlcObject.absorb]
    rfl
  | append_singleton bars last =>
    simp only [List.append_eq_nil_iff, List.cons_ne_self, and_false, ↓reduceIte,
      List.getLast?_concat, List.dropLast_concat, BoundedTail.advance, rollBar]
    split_ifs with hlate
    · simp
      rfl
    · simp
      rfl

theorem calculateOHLC_off (hoff : warmUp.prepopulate = false) (hduration : 0 < duration) :
    calculateOHLC warmUp tick price duration bars prepopulateCount =
      .ok (BoundedTail.advance (rollBar tick price duration) bars) :=
  calculateOHLC_seeded hduration (seedBars_off hoff)

end Ohlc

end BacktestEngine
