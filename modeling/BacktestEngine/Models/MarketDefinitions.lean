import Mathlib.Data.String.Basic
import BacktestEngine.Library.BinarySearch
import BacktestEngine.Models.Decimal

/-! # Markets of the broker

The table of the symbols that may be traded, each with the mini contract that is
traded for it. A symbol is found by its order in the table, a contract by a scan.
-/

namespace BacktestEngine

/-- One market; the size modifier is a fraction, zero where sizes are not scaled. -/
structure MarketDefinition where
  symbol : String
  epicMini : String
  currency : String
  tradeSizeModifier : ℤ × ℤ
  deriving DecidableEq, Repr

namespace MarketDefinition

def kMarkets : List MarketDefinition := [
  ⟨"AUDNZD", "CS.D.AUDNZD.MINI.IP", "NZD", (0, 1)⟩,
  ⟨"AUDUSD", "CS.D.AUDUSD.MINI.IP", "USD", (0, 1)⟩,
  ⟨"AUSIDXAUD", "IX.D.ASX.IFS.IP", "GBP", (0, 1)⟩,
  ⟨"BRENTCMDUSD", "CC.D.LCO.UMP.IP", "GBP", (0, 1)⟩,
  ⟨"COPPERCMDUSD", "CC.D.HG.UMP.IP", "GBP", (0, 1)⟩,
  ⟨"DEUIDXEUR", "IX.D.DAX.IFS.IP", "GBP", (0, 1)⟩,
  ⟨"EURAUD", "CS.D.EURAUD.MINI.IP", "AUD", (0, 1)⟩,
  ⟨"EURCHF", "CS.D.EURCHF.MINI.IP", "CHF", (0, 1)⟩,
  ⟨"EURGBP", "CS.D.EURGBP.MINI.IP", "GBP", (0, 1)⟩,
  ⟨"EURJPY", "CS.D.EURJPY.MINI.IP", "JPY", (0, 1)⟩,
  ⟨"EURNOK", "CS.D.EURNOK.MINI.IP", "NOK", (0, 1)⟩,
  ⟨"EURUSD", "CS.D.EURUSD.MINI.IP", "USD", (0, 1)⟩,
  ⟨"FRAIDXEUR", "IX.D.CAC.IFS.IP", "GBP", (0, 1)⟩,
  ⟨"GBPJPY", "CS.D.GBPJPY.MINI.IP", "JPY", (0, 1)⟩,
  ⟨"GBPUSD", "CS.D.GBPUSD.MINI.IP", "USD", (0, 1)⟩,
  ⟨"GBRIDXGBP", "IX.D.FTSE.IFM.IP", "GBP", (1, 2)⟩,
  ⟨"HKGIDXHKD", "IX.D.HANGSENG.IFU.IP", "USD", (0, 1)⟩,
  ⟨"JPNIDXJPY", "IX.D.NIKKEI.IFM.IP", "USD", (0, 1)⟩,
  ⟨"LIGHTCMDUSD", "CC.D.CL.UMP.IP", "GBP", (0, 1)⟩,
  ⟨"NZDUSD", "CS.D.NZDUSD.MINI.IP", "USD", (0, 1)⟩,
  ⟨"USA30IDXUSD", "IX.D.DOW.IFS.IP", "GBP", (0, 1)⟩,
  ⟨"USA500IDXUSD", "IX.D.SPTRD.IFS.IP", "GBP", (0, 1)⟩,
  ⟨"USATECHIDXUSD", "IX.D.NASDAQ.IFS.IP", "GBP", (0, 1)⟩,
  ⟨"USDCAD", "CS.D.USDCAD.MINI.IP", "CAD", (0, 1)⟩,
  ⟨"USDCHF", "CS.D.USDCHF.MINI.IP", "CHF", (0, 1)⟩,
  ⟨"USDJPY", "CS.D.USDJPY.MINI.IP", "JPY", (0, 1)⟩,
  ⟨"USDSEK", "CS.D.USDSEK.MINI.IP", "SEK", (0, 1)⟩,
  ⟨"XAGUSD", "CS.D.CFDSILVER.CFM.IP", "USD", (1, 5)⟩,
  ⟨"XAUUSD", "CS.D.CFPGOLD.CFP.IP", "GBP", (1, 1)⟩]

theorem kMarkets_sorted : (kMarkets.map symbol).Pairwise (· < ·) := by decide

/-- What a strategy's size is multiplied with. -/
def sizeModifier (D : Type) [Decimal D] (market : MarketDefinition) : D :=
  if 0 < market.tradeSizeModifier.1 then
    Decimal.div (Decimal.ofInt market.tradeSizeModifier.1)
      (Decimal.ofInt market.tradeSizeModifier.2)
  else Decimal.ofInt 1

def findMarket (name : String) : Option MarketDefinition :=
  BinarySearch.find symbol kMarkets name

def findMarketByEpicMini (epic : String) : Option MarketDefinition :=
  kMarkets.find? fun market => market.epicMini = epic

theorem findMarket_eq_some_iff {name : String} {market : MarketDefinition} :
    findMarket name = some market ↔ market ∈ kMarkets ∧ market.symbol = name :=
  BinarySearch.find_eq_some_iff kMarkets_sorted

/-- No two markets trade one contract. -/
theorem epicMini_injective : ∀ m ∈ kMarkets, ∀ m' ∈ kMarkets, m.epicMini = m'.epicMini → m = m' := by
  decide

/-- The contract that is traded for a symbol leads back to it. -/
theorem findMarketByEpicMini_of_findMarket {name : String} {market : MarketDefinition}
    (h : findMarket name = some market) : findMarketByEpicMini market.epicMini = some market := by
  obtain ⟨hmem, -⟩ := findMarket_eq_some_iff.mp h
  obtain ⟨found, hfound⟩ : ∃ found, findMarketByEpicMini market.epicMini = some found := by
    rw [← Option.isSome_iff_exists, findMarketByEpicMini, List.find?_isSome]
    exact ⟨market, hmem, by simp⟩
  have heq : found.epicMini = market.epicMini := by simpa using List.find?_some hfound
  rw [hfound, epicMini_injective found (List.mem_of_find?_eq_some hfound) market hmem heq]

end MarketDefinition

end BacktestEngine
