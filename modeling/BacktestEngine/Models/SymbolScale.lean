import Mathlib.Data.String.Basic
import BacktestEngine.Library.BinarySearch

/-! # Points per pip of a symbol

Prices are stored as scaled integer points. The table gives how many points
make one pip and how many points make one unit of the quoted price; a symbol
that is not in the table has scale zero.
-/

namespace BacktestEngine.SymbolScale

/-- One row of the symbol table. -/
structure Entry where
  symbol : String
  scale : ℤ
  priceScale : ℤ
  deriving DecidableEq, Repr

def kTable : List Entry := [
  ⟨"AUDNZD", 10, 100000⟩,
  ⟨"AUDUSD", 10, 100000⟩,
  ⟨"AUSIDXAUD", 100, 100⟩,
  ⟨"BRENTCMDUSD", 100, 100⟩,
  ⟨"COPPERCMDUSD", 100, 100⟩,
  ⟨"DEUIDXEUR", 100, 100⟩,
  ⟨"EURAUD", 10, 100000⟩,
  ⟨"EURCHF", 10, 100000⟩,
  ⟨"EURGBP", 10, 100000⟩,
  ⟨"EURJPY", 10, 1000⟩,
  ⟨"EURNOK", 10, 100000⟩,
  ⟨"EURUSD", 10, 100000⟩,
  ⟨"FRAIDXEUR", 100, 100⟩,
  ⟨"GBPJPY", 10, 1000⟩,
  ⟨"GBPUSD", 10, 100000⟩,
  ⟨"GBRIDXGBP", 100, 100⟩,
  ⟨"HKGIDXHKD", 100, 100⟩,
  ⟨"JPNIDXJPY", 100, 100⟩,
  ⟨"LIGHTCMDUSD", 100, 100⟩,
  ⟨"NZDUSD", 10, 100000⟩,
  ⟨"USA30IDXUSD", 100, 100⟩,
  ⟨"USA500IDXUSD", 100, 100⟩,
  ⟨"USATECHIDXUSD", 100, 100⟩,
  ⟨"USDCAD", 10, 100000⟩,
  ⟨"USDCHF", 10, 100000⟩,
  ⟨"USDJPY", 10, 1000⟩,
  ⟨"USDSEK", 10, 100000⟩,
  ⟨"XAGUSD", 1000, 1000⟩,
  ⟨"XAUUSD", 1000, 1000⟩]

theorem kTable_sorted : (kTable.map Entry.symbol).Pairwise (· < ·) := by decide

def kUnknown : ℤ := 0

def findEntry (symbol : String) : Option Entry := BinarySearch.find Entry.symbol kTable symbol

/-- Points per pip of the symbol. -/
def get (symbol : String) : ℤ :=
  match findEntry symbol with
  | some entry => entry.scale
  | none => kUnknown

/-- Points per unit of the quoted price of the symbol. -/
def getPriceScale (symbol : String) : ℤ :=
  match findEntry symbol with
  | some entry => entry.priceScale
  | none => kUnknown

theorem findEntry_eq_some_iff {symbol : String} {entry : Entry} :
    findEntry symbol = some entry ↔ entry ∈ kTable ∧ entry.symbol = symbol :=
  BinarySearch.find_eq_some_iff kTable_sorted

theorem scale_pos : ∀ entry ∈ kTable, 0 < entry.scale ∧ 10 ∣ entry.scale := by decide

theorem get_nonneg (symbol : String) : 0 ≤ get symbol := by
  unfold get
  split
  · exact (scale_pos _ (findEntry_eq_some_iff.mp ‹_›).1).1.le
  · exact le_rfl

/-- A known symbol has a positive scale. -/
theorem get_pos {symbol : String} (h : get symbol ≠ kUnknown) : 0 < get symbol :=
  lt_of_le_of_ne (get_nonneg symbol) (Ne.symm h)

end BacktestEngine.SymbolScale
