import BacktestEngine.Ingest.TickPacket
import BacktestEngine.Tracking.Archive
import BacktestEngine.Trading.TradeManager

/-! # The pips of a close

A position that is closed at prices of the engine is reported with the profit that a backtest
books for the same trade, but for two roundings: the level comes back as its points, the points
are subtracted exactly, and the division by the points of a pip and the product with the size round
once each.
-/

namespace BacktestEngine

namespace Tracking

open Binary64
open DealPacket (Deal)
open Positions (PositionRecord)
open TickPacket (priceOf)
open TradeManager (closedAt)

section Live

/-- The side of a position, as the broker spells it. -/
def sideOf : Direction → String
  | .long => "BUY"
  | .short => "SELL"

def dirSign : Direction → ℤ
  | .long => 1
  | .short => -1

def signedBy : Direction → Binary64 → Binary64
  | .long, x => x
  | .short, x => x.neg

theorem signedBy_finite (direction : Direction) (q : ℚ) :
    signedBy direction (.finite q) = .finite (dirSign direction * q) := by
  cases direction <;> simp [signedBy, dirSign, neg]

theorem floatingPnlAt_eq (trade : Trade) (mark : ℤ) : floatingPnlAt trade mark =
    dirSign trade.direction * ((mark - trade.entryPrice) * trade.size) := by
  unfold floatingPnlAt dirSign
  cases trade.direction <;> ring

/-- The record of a trade that is held live. -/
structure Held (record : PositionRecord Binary64) (trade : Trade) : Prop where
  symbol : record.symbol = trade.symbol
  direction : record.direction = sideOf trade.direction
  size : record.size = .ofInt trade.size
  level : record.level = trade.entryPrice

/-- What the engine's prices and sizes are within. -/
structure InRange (trade : Trade) (closePrice : ℤ) : Prop where
  known : SymbolScale.getPriceScale trade.symbol ≠ SymbolScale.kUnknown
  entry : |trade.entryPrice| < 2 ^ 31
  size : 0 < trade.size ∧ trade.size < 2 ^ 31
  close : 0 < closePrice ∧ closePrice < 2 ^ 31

theorem get_bounds {symbol : String}
    (h : SymbolScale.getPriceScale symbol ≠ SymbolScale.kUnknown) :
    0 < SymbolScale.get symbol ∧ SymbolScale.get symbol ≤ 2 ^ 20 := by
  have htable : ∀ entry ∈ SymbolScale.kTable, 0 < entry.scale ∧ entry.scale ≤ 2 ^ 20 := by decide
  unfold SymbolScale.getPriceScale at h
  unfold SymbolScale.get
  cases hentry : SymbolScale.findEntry symbol with
  | none =>
    rw [hentry] at h
    exact absurd rfl h
  | some entry => exact htable entry (SymbolScale.findEntry_eq_some_iff.mp hentry).1

theorem llround_of_scaled {beyond : Binary64 → ℤ} {multiplier points : ℤ} {price : ℚ}
    (hmultiplier : multiplier.natAbs < 2 ^ 53)
    (h : TickPacket.scaled multiplier price = some points) :
    llround beyond ((Binary64.finite price).mul (.ofInt multiplier)) = points := by
  rw [ofInt_eq hmultiplier, mul]
  unfold TickPacket.scaled at h
  cases hproduct : nearest (price * multiplier) with
  | finite product =>
    simp only [hproduct] at h
    split_ifs at h with hfit
    cases h
    simp only [llround]
    rw [if_neg (by omega)]
  | infinite negative => simp [hproduct] at h
  | nan => simp [hproduct] at h

/-- The pips, without the scales in the way. -/
theorem computeClosePips_eq {beyond : Binary64 → ℤ} {price : ℚ} {closePrice entryPrice m scale : ℤ}
    {direction : Direction} {size : Binary64} (hm : 0 < m) (hscale : 0 < scale)
    (hlarge : scale ≤ 2 ^ 20) (hscaled : TickPacket.scaled scale price = some closePrice)
    (hentry : |entryPrice| < 2 ^ 31) (hclose : 0 < closePrice ∧ closePrice < 2 ^ 31) :
    computeClosePips beyond (.finite price) entryPrice (sideOf direction) size scale m =
      some (signedBy direction
        (((Binary64.ofInt (closePrice - entryPrice)).divBy m).mul size)) := by
  have hentry' := abs_lt.mp hentry
  have hsub : (Binary64.ofInt closePrice).sub (.ofInt entryPrice) =
      .ofInt (closePrice - entryPrice) := by
    rw [ofInt_eq (by omega), ofInt_eq (by omega), sub, ← Int.cast_sub]
    rfl
  have hquotient : Representable ((Binary64.ofInt (closePrice - entryPrice)).divBy m) := by
    rw [ofInt_eq (by omega), divBy]
    exact representable_nearest _
  unfold computeClosePips
  rw [if_neg (by omega), llround_of_scaled (by omega) hscaled]
  dsimp only
  rw [hsub]
  cases direction with
  | long =>
    have hside : sideOf .long = "BUY" := rfl
    rw [if_pos hside, mul_finite_one hquotient, signedBy]
  | short =>
    have hside : sideOf .short ≠ "BUY" := by decide
    rw [if_neg hside, mul_finite_neg_one hquotient, mul_neg_left, signedBy]

/-- For a trade that a backtest would close at a price, tracking reports the profit that the
backtest books, in pips, to one part in two to the 51, and on the same side of zero. -/
theorem pips_track_backtest (config : Config) (deal : Deal) (record : PositionRecord Binary64)
    (trade : Trade) (closePrice : ℤ) (tick : PriceData) (liquidated : Bool)
    (hdeal : deal.status = "DELETED")
    (hlevel : deal.level = some (priceOf closePrice (SymbolScale.getPriceScale trade.symbol)))
    (hheld : Held record trade) (hrange : InRange trade closePrice) :
    ∃ pips, reportedPips config deal (some record) = some (.finite pips) ∧
      let booked : ℚ :=
        (closedAt trade closePrice tick liquidated).pnl / SymbolScale.get trade.symbol
      |pips - booked| ≤ |booked| / 2 ^ 51 ∧
        (0 < pips ↔ 0 < (closedAt trade closePrice tick liquidated).pnl) ∧
        (pips < 0 ↔ (closedAt trade closePrice tick liquidated).pnl < 0) := by
  obtain ⟨hscale, hlarge⟩ := TickPacket.getPriceScale_bounds hrange.known
  obtain ⟨hm, hm'⟩ := get_bounds hrange.known
  obtain ⟨price, hprice, hpos, hscaled⟩ :=
    TickPacket.scaled_priceOf hrange.close.1 hrange.close.2 hscale hlarge
  obtain ⟨hentry, hentry'⟩ := abs_lt.mp hrange.entry
  obtain ⟨hclose, hclose'⟩ := hrange.close
  have hnonzero : (Binary64.finite price ≠ .finite 0) := by
    intro h
    exact hpos.ne' (Binary64.finite.inj h)
  have hsymbol : record.symbol ≠ "" := by
    rw [hheld.symbol]
    intro hempty
    have hunknown : SymbolScale.getPriceScale "" = SymbolScale.kUnknown := by decide
    rw [← hempty] at hunknown
    exact hrange.known hunknown
  have hreal : realLevel deal = some (.finite price) := by
    simp [realLevel, hlevel, hprice, hnonzero]
  obtain ⟨near, hnear, herror⟩ := exists_divBy_mul (d := closePrice - trade.entryPrice)
    (abs_le.mpr ⟨by omega, by omega⟩) hm hm' hrange.size.1 hrange.size.2
  have hpips : reportedPips config deal (some record) =
      some (.finite (dirSign trade.direction * near)) := by
    have hguard : guard (deal.status = "DELETED") = some () := by simp [hdeal]
    simp only [reportedPips, hreal, hguard, if_neg hsymbol, Option.bind_eq_bind, Option.bind_some]
    rw [hheld.symbol, hheld.direction, hheld.size, hheld.level,
      computeClosePips_eq hm hscale hlarge hscaled hrange.entry hrange.close, hnear,
      signedBy_finite]
  have hbooked : ((closedAt trade closePrice tick liquidated).pnl : ℚ) /
      SymbolScale.get trade.symbol = dirSign trade.direction *
        (((closePrice - trade.entryPrice : ℤ) : ℚ) / SymbolScale.get trade.symbol *
          trade.size) := by
    have hpnl : (closedAt trade closePrice tick liquidated).pnl = _ :=
      floatingPnlAt_eq trade closePrice
    rw [hpnl]
    push_cast
    ring
  have hone : |(dirSign trade.direction : ℚ)| = 1 := by
    cases trade.direction <;> simp [dirSign]
  have herror' : |dirSign trade.direction * near -
      ((closedAt trade closePrice tick liquidated).pnl : ℚ) / SymbolScale.get trade.symbol| ≤
        |((closedAt trade closePrice tick liquidated).pnl : ℚ) / SymbolScale.get trade.symbol| /
          2 ^ 51 := by
    rw [hbooked, ← mul_sub, abs_mul, abs_mul, hone, one_mul, one_mul]
    exact herror
  have hmq : (0 : ℚ) < SymbolScale.get trade.symbol := by exact_mod_cast hm
  obtain ⟨hpositive, hnegative⟩ := sign_iff_of_near herror'
  refine ⟨_, hpips, herror', hpositive.trans ?_, hnegative.trans ?_⟩
  · rw [div_pos_iff_of_pos_right hmq, Int.cast_pos]
  · rw [div_lt_iff₀ hmq, zero_mul, Int.cast_lt_zero]

end Live

/-! A short of two lots, closed a hundred points lower. -/

section Sample

def sampleShort : Trade := Trade.make 110000 2 .short "EURUSD"

def sampleShortRecord : PositionRecord Binary64 :=
  { sampleRecord with direction := "SELL", size := .ofInt 2, level := 110000 }

def sampleShortDeal : Deal :=
  { sampleDeal with level := some (priceOf 109900 (SymbolScale.getPriceScale "EURUSD")) }

theorem pips_track_short : ∃ pips,
    reportedPips archiveConfig sampleShortDeal (some sampleShortRecord) = some (.finite pips) ∧
      |pips - 20| ≤ 20 / 2 ^ 51 := by
  have htick : floatingPnlAt sampleShort 109900 = 200 := by decide
  have hscale : SymbolScale.get "EURUSD" = 10 := by decide
  obtain ⟨pips, hpips, herror, -⟩ := pips_track_backtest archiveConfig sampleShortDeal
    sampleShortRecord sampleShort 109900 ⟨109900, 109890, 0, "EURUSD"⟩ false rfl rfl
    ⟨rfl, rfl, rfl, rfl⟩ ⟨by decide, by decide, by decide, by decide⟩
  refine ⟨pips, hpips, ?_⟩
  have hbooked : ((closedAt sampleShort 109900 ⟨109900, 109890, 0, "EURUSD"⟩ false).pnl : ℚ) /
      SymbolScale.get sampleShort.symbol = 20 := by
    change ((floatingPnlAt sampleShort 109900 : ℤ) : ℚ) / (SymbolScale.get "EURUSD" : ℤ) = 20
    rw [htick, hscale]
    norm_num
  rw [hbooked, abs_of_pos (by norm_num : (0 : ℚ) < 20)] at herror
  exact herror

end Sample

end Tracking

end BacktestEngine
