import BacktestEngine.Models.Trade

/-! # Bars

One bar of a price series, and the shapes of the series that are kept.
-/

namespace BacktestEngine

structure OhlcObject where
  date : ℤ
  openPrice : ℤ
  close : ℤ
  high : ℤ
  low : ℤ
  complete : Bool := false
  deriving DecidableEq, Repr

/-- A bar that opens at a tick. -/
def OhlcObject.opened (tick : PriceData) (price : ℤ) : OhlcObject where
  date := tick.timestamp
  openPrice := price
  close := price
  high := price
  low := price

/-- A bar takes in a price. -/
def OhlcObject.absorb (bar : OhlcObject) (price : ℤ) : OhlcObject :=
  { bar with
    high := if price > bar.high then price else bar.high
    low := if price < bar.low then price else bar.low
    close := price }

@[simp] theorem OhlcObject.absorb_opened (tick : PriceData) (price : ℤ) :
    (OhlcObject.opened tick price).absorb price = .opened tick price := by
  simp [opened, absorb]

@[simp] theorem OhlcObject.absorb_high (bar : OhlcObject) (price : ℤ) :
    (bar.absorb price).high = max bar.high price := by
  simp only [absorb]
  omega

@[simp] theorem OhlcObject.absorb_low (bar : OhlcObject) (price : ℤ) :
    (bar.absorb price).low = min bar.low price := by
  simp only [absorb]
  omega

/-- A bar by its index; the callers keep to the bars there are. -/
def barAt (bars : List OhlcObject) (index : ℕ) : OhlcObject :=
  bars.getD index ⟨0, 0, 0, 0, 0, false⟩

section BarAt

variable {bars more : List OhlcObject} {i : ℕ}

theorem barAt_eq (h : i < bars.length) : barAt bars i = bars[i] := by
  simp [barAt, List.getD_eq_getElem?_getD, h]

theorem barAt_mem (h : i < bars.length) : barAt bars i ∈ bars := by
  rw [barAt_eq h]
  exact List.getElem_mem h

theorem barAt_drop (bars : List OhlcObject) (m k : ℕ) :
    barAt (bars.drop m) k = barAt bars (m + k) := by
  simp [barAt, List.getD_eq_getElem?_getD]

theorem barAt_append (h : i < bars.length) : barAt (bars ++ more) i = barAt bars i := by
  simp [barAt, List.getD_eq_getElem?_getD, List.getElem?_append_left h]

end BarAt

structure SeriesSpec where
  minutes : ℤ
  count : ℤ
  deriving DecidableEq

structure RangeBarSpec where
  atrTickWindow : ℤ
  atrPercent : ℤ
  count : ℤ
  deriving DecidableEq

/-- Two specs of one series; the depth does not count. -/
def sameIdentity (a b : RangeBarSpec) : Bool :=
  a.atrTickWindow = b.atrTickWindow && a.atrPercent = b.atrPercent

/-- Where the series are warmed up from: the switch of the environment, and what the database
answers to a query for so many bars or ticks before a time, the newest first. -/
structure WarmUp where
  prepopulate : Bool
  queryOhlc : (symbol : String) → (before minutes count : ℤ) → Option (List OhlcObject)
  queryTicks : (symbol : String) → (before limit : ℤ) → Option (List PriceData)

/-- No series is warmed up. -/
def WarmUp.off : WarmUp := ⟨false, fun _ _ _ _ => none, fun _ _ _ => none⟩

end BacktestEngine
