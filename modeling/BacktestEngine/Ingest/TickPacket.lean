import BacktestEngine.Library.Binary64Bits
import BacktestEngine.Library.WireFields
import BacktestEngine.Models.Trade

/-! # The tick packet

One quote travels in forty bytes: two doubles, the time and the symbol. The decoder drops what is
no quote and turns the rest into points. A price that was sent as the double nearest to its points
arrives as exactly these points.
-/

namespace BacktestEngine

namespace TickPacket

open Binary64 WireFields

def kBidOffset : ℕ := 0
def kAskOffset : ℕ := 8
def kTsOffset : ℕ := 16
def kSymbolOffset : ℕ := 24
def kSymbolSize : ℕ := 16
def kPacketSize : ℕ := 40

/-- The first instant of the year 2100. -/
def kMaxTsMicros : ℤ := 4102444800000000

/-- The prices of a quote are finite and above zero. -/
def tradable : Binary64 → Option ℚ
  | .finite q => if 0 < q then some q else none
  | .infinite _ | .nan => none

/-- A price in points, if these fit their field. A product that is out of range leaves `llround`
without a result that fits. -/
def scaled (multiplier : ℤ) (price : ℚ) : Option ℤ :=
  match nearest (price * multiplier) with
  | .finite product =>
    let points := lround product
    if points < -2 ^ 31 ∨ 2 ^ 31 - 1 < points then none else some points
  | .infinite _ | .nan => none

/-- The checks on the fields, in the order of the source. -/
def tickOf (bid ask : Binary64) (tsMicros : ℤ) (symbol : String) : Option PriceData := do
  let bid ← tradable bid
  let ask ← tradable ask
  guard (0 < tsMicros ∧ tsMicros ≤ kMaxTsMicros)
  let multiplier := SymbolScale.getPriceScale symbol
  guard (multiplier ≠ SymbolScale.kUnknown)
  let bidScaled ← scaled multiplier bid
  let askScaled ← scaled multiplier ask
  return ⟨askScaled, bidScaled, tsMicros, symbol⟩

def decodeTick (bytes : List UInt8) : Option PriceData :=
  if bytes.length ≠ kPacketSize then none
  else
    tickOf (ofBits (ofBytes (slice bytes kBidOffset 8))) (ofBits (ofBytes (slice bytes kAskOffset 8)))
      (toSigned 8 (ofBytes (slice bytes kTsOffset 8)))
      (textOf (trimmed (slice bytes kSymbolOffset kSymbolSize)))

theorem priceScale_bounds :
    ∀ entry ∈ SymbolScale.kTable, 0 < entry.priceScale ∧ entry.priceScale ≤ 2 ^ 20 := by
  decide

/-- A tick that is worth keeping: its symbol is known, its prices fit their fields and its time is
after 1970 and before 2100. -/
structure Sound (tick : PriceData) : Prop where
  symbol : SymbolScale.getPriceScale tick.symbol ≠ SymbolScale.kUnknown
  bid : 0 ≤ tick.bid ∧ tick.bid < 2 ^ 31
  ask : 0 ≤ tick.ask ∧ tick.ask < 2 ^ 31
  time : 0 < tick.timestamp ∧ tick.timestamp ≤ kMaxTsMicros

theorem tradable_pos {x : Binary64} {q : ℚ} (h : tradable x = some q) : 0 < q := by
  cases x with
  | finite r =>
    simp only [tradable] at h
    split_ifs at h with hr
    cases h
    exact hr
  | infinite negative => cases h
  | nan => cases h

theorem exists_entry {symbol : String}
    (h : SymbolScale.getPriceScale symbol ≠ SymbolScale.kUnknown) :
    ∃ entry ∈ SymbolScale.kTable, entry.symbol = symbol ∧
      SymbolScale.getPriceScale symbol = entry.priceScale := by
  unfold SymbolScale.getPriceScale at h ⊢
  cases hentry : SymbolScale.findEntry symbol with
  | none =>
    rw [hentry] at h
    exact absurd rfl h
  | some entry =>
    obtain ⟨hmem, hsymbol⟩ := SymbolScale.findEntry_eq_some_iff.mp hentry
    exact ⟨entry, hmem, hsymbol, rfl⟩

theorem getPriceScale_bounds {symbol : String}
    (h : SymbolScale.getPriceScale symbol ≠ SymbolScale.kUnknown) :
    0 < SymbolScale.getPriceScale symbol ∧ SymbolScale.getPriceScale symbol ≤ 2 ^ 20 := by
  obtain ⟨entry, hmem, -, hentry⟩ := exists_entry h
  rw [hentry]
  exact priceScale_bounds entry hmem

/-- A price above zero has points that are not below it. -/
theorem scaled_bounds {multiplier points : ℤ} {price : ℚ} (hmultiplier : 0 < multiplier)
    (hprice : 0 < price) (h : scaled multiplier price = some points) :
    0 ≤ points ∧ points < 2 ^ 31 := by
  unfold scaled at h
  split at h
  · rename_i product hproduct
    dsimp only at h
    split_ifs at h with hfit
    cases h
    have hnonneg : 0 ≤ product := by
      apply nearest_nonneg _ hproduct
      have hcast : (0 : ℚ) < multiplier := by exact_mod_cast hmultiplier
      positivity
    constructor
    · rw [lround, if_pos hnonneg]
      exact Int.floor_nonneg.mpr (by linarith)
    · omega
  · cases h
  · cases h

/-- What is decoded is worth keeping, whatever the bytes. -/
theorem sound_of_tickOf {bid ask : Binary64} {tsMicros : ℤ} {symbol : String} {tick : PriceData}
    (h : tickOf bid ask tsMicros symbol = some tick) : Sound tick := by
  simp only [tickOf, Option.bind_eq_bind, Option.bind_eq_some_iff, Option.guard_eq_some'] at h
  obtain ⟨b, hb, a, ha, -, htime, -, hknown, points, hpoints, points', hpoints', h⟩ := h
  cases h
  have hscale := (getPriceScale_bounds hknown).1
  exact ⟨hknown, scaled_bounds hscale (tradable_pos hb) hpoints,
    scaled_bounds hscale (tradable_pos ha) hpoints', htime⟩

theorem sound_of_decodeTick {bytes : List UInt8} {tick : PriceData}
    (h : decodeTick bytes = some tick) : Sound tick := by
  unfold decodeTick at h
  split_ifs at h
  exact sound_of_tickOf h

/-! ## The sender -/

/-- The fields as the sender writes them. -/
def packetFields (bid ask : Binary64) (tsMicros : ℤ) (symbol : String) : List Field := [
  ⟨kBidOffset, 8, toBytes 8 (toBits bid)⟩,
  ⟨kAskOffset, 8, toBytes 8 (toBits ask)⟩,
  ⟨kTsOffset, 8, toBytes 8 (ofSigned 8 tsMicros)⟩,
  ⟨kSymbolOffset, kSymbolSize, (bytesOf symbol).take kSymbolSize⟩]

def makePacket (bid ask : Binary64) (tsMicros : ℤ) (symbol : String) : List UInt8 :=
  written kPacketSize (packetFields bid ask tsMicros symbol)

section Sender

variable {bid ask : Binary64} {tsMicros : ℤ} {symbol : String}

theorem packetFields_fit : ∀ field ∈ packetFields bid ask tsMicros symbol,
    field.Fits kPacketSize := by
  simp [packetFields, Field.Fits, kBidOffset, kAskOffset, kTsOffset, kSymbolOffset, kSymbolSize,
    kPacketSize]

theorem packetFields_apart : (packetFields bid ask tsMicros symbol).Pairwise Field.Apart := by
  simp [packetFields, Field.Apart, kBidOffset, kAskOffset, kTsOffset, kSymbolOffset, kSymbolSize]

/-- The decoder checks the fields that the sender wrote. -/
theorem decodeTick_makePacket (hbid : Representable bid) (hask : Representable ask)
    (hlow : -2 ^ 63 ≤ tsMicros) (hhigh : tsMicros < 2 ^ 63) (hplain : Plain symbol)
    (hlength : symbol.length ≤ kSymbolSize) :
    decodeTick (makePacket bid ask tsMicros symbol) = tickOf bid ask tsMicros symbol := by
  have hsize : (makePacket bid ask tsMicros symbol).length = kPacketSize :=
    length_written packetFields_fit
  have hslice : ∀ field ∈ packetFields bid ask tsMicros symbol,
      slice (makePacket bid ask tsMicros symbol) field.offset field.width =
        field.content ++ List.replicate (field.width - field.content.length) 0 := fun _ hfield =>
    slice_written packetFields_fit packetFields_apart hfield
  simp only [packetFields, List.forall_mem_cons, length_toBytes, Nat.sub_self,
    List.replicate_zero, List.append_nil] at hslice
  obtain ⟨hbidBytes, haskBytes, htsBytes, hsymbolBytes, -⟩ := hslice
  have htake : (bytesOf symbol).take kSymbolSize = bytesOf symbol :=
    List.take_of_length_le (by rwa [length_bytesOf])
  rw [htake] at hsymbolBytes
  unfold decodeTick
  rw [if_neg (not_not.mpr hsize), hbidBytes, haskBytes, htsBytes, hsymbolBytes,
    ofBytes_toBytes (toBits_lt hbid), ofBytes_toBytes (toBits_lt hask),
    ofBytes_toBytes (ofSigned_lt 8 tsMicros), ofBits_toBits hbid, ofBits_toBits hask,
    trimmed_append_zeros (zero_not_mem_bytesOf hplain), textOf_bytesOf hplain]
  congr 1
  apply toSigned_ofSigned <;> omega

end Sender

/-! ## Prices -/

/-- The price of so many points. -/
def priceOf (points priceScale : ℤ) : Binary64 := nearest (points / priceScale)

theorem tiny_le {q : ℚ} (h : (2 : ℚ) ^ (-40 : ℤ) ≤ q) : (2 : ℚ) ^ (-1022 : ℤ) ≤ |q| :=
  calc (2 : ℚ) ^ (-1022 : ℤ) ≤ 2 ^ (-40 : ℤ) := zpow_le_zpow_right₀ (by norm_num) (by norm_num)
    _ ≤ q := h
    _ ≤ |q| := le_abs_self q

/-- Scaling and rounding a price twice does not move it by half a point. -/
theorem scaled_priceOf {points priceScale : ℤ} (hpoints : 0 < points) (hfit : points < 2 ^ 31)
    (hscale : 0 < priceScale) (hlarge : priceScale ≤ 2 ^ 20) :
    ∃ price, priceOf points priceScale = .finite price ∧ 0 < price ∧
      scaled priceScale price = some points := by
  have hp : (1 : ℚ) ≤ points := by exact_mod_cast hpoints
  have hp' : (points : ℚ) ≤ 2 ^ 31 := by exact_mod_cast hfit.le
  have hs : (0 : ℚ) < priceScale := by exact_mod_cast hscale
  have hs' : (priceScale : ℚ) ≤ 2 ^ 20 := by exact_mod_cast hlarge
  have hexact : (points / priceScale : ℚ) * priceScale = points := div_mul_cancel₀ _ hs.ne'
  generalize hq : (points / priceScale : ℚ) = q at hexact
  have hqlow : (2 : ℚ) ^ (-40 : ℤ) ≤ q := by
    rw [← hq, le_div_iff₀ hs]
    norm_num
    linarith
  have hqpos : 0 < q := lt_of_lt_of_le (by norm_num) hqlow
  have hqhigh : |q| < 2 ^ 1000 := by
    rw [abs_of_pos hqpos]
    calc q ≤ q * priceScale := le_mul_of_one_le_right hqpos.le (by exact_mod_cast hscale)
      _ ≤ 2 ^ 31 := hexact.trans_le hp'
      _ < 2 ^ 1000 := pow_lt_pow_right₀ (by norm_num) (by norm_num)
  obtain ⟨price, hprice, herror⟩ := exists_nearest (tiny_le hqlow) hqhigh
  rw [abs_of_pos hqpos, abs_le] at herror
  have hproduct : |price * priceScale - points| ≤ points / 2 ^ 53 := by
    rw [← hexact, ← sub_mul, abs_mul, abs_of_pos hs, mul_div_right_comm]
    exact mul_le_mul_of_nonneg_right (abs_le.mpr herror) hs.le
  obtain ⟨hproductLow, hproductHigh⟩ := abs_le.mp hproduct
  have hxlow : (2 : ℚ) ^ (-40 : ℤ) ≤ price * priceScale := by
    norm_num
    linarith
  have hxpos : 0 < price * priceScale := lt_of_lt_of_le (by norm_num) hxlow
  have hxhigh : |price * priceScale| < 2 ^ 1000 := by
    rw [abs_of_pos hxpos]
    calc price * priceScale ≤ 2 ^ 32 := by linarith
      _ < 2 ^ 1000 := pow_lt_pow_right₀ (by norm_num) (by norm_num)
  obtain ⟨product, hrounded, herror'⟩ := exists_nearest (tiny_le hxlow) hxhigh
  rw [abs_of_pos hxpos, abs_le] at herror'
  have hround : lround product = points := by
    apply lround_eq
    rw [abs_lt]
    constructor <;> linarith
  refine ⟨price, ?_, by linarith, ?_⟩
  · rw [priceOf, hq, hprice]
  · unfold scaled
    rw [hrounded]
    dsimp only
    rw [hround, if_neg (by omega)]

/-- The symbols of the table fit into the packet. -/
theorem symbol_fits : ∀ entry ∈ SymbolScale.kTable,
    Plain entry.symbol ∧ entry.symbol.length ≤ kSymbolSize := by
  decide

section Quote

variable {symbol : String} {b a : ℚ} {bid ask tsMicros : ℤ}

/-- A packet of doubles that scale to the points of a tick is decoded to it. -/
theorem decodeTick_of_scaled (hsymbol : SymbolScale.getPriceScale symbol ≠ SymbolScale.kUnknown)
    (htime : 0 < tsMicros ∧ tsMicros ≤ kMaxTsMicros)
    (hb : Representable (.finite b)) (hbpos : 0 < b)
    (hbid : scaled (SymbolScale.getPriceScale symbol) b = some bid)
    (ha : Representable (.finite a)) (hapos : 0 < a)
    (hask : scaled (SymbolScale.getPriceScale symbol) a = some ask) :
    decodeTick (makePacket (.finite b) (.finite a) tsMicros symbol) =
      some ⟨ask, bid, tsMicros, symbol⟩ := by
  obtain ⟨entry, hmem, rfl, -⟩ := exists_entry hsymbol
  obtain ⟨hplain, hlength⟩ := symbol_fits entry hmem
  have htop := htime.2
  unfold kMaxTsMicros at htop
  rw [decodeTick_makePacket hb ha (by omega) (by omega) hplain hlength]
  simp [tickOf, tradable, hbpos, hapos, htime, hsymbol, hbid, hask]

/-- A quote that is sent as the doubles nearest to its prices arrives as it is. -/
theorem quote_survives_wire (hsymbol : SymbolScale.getPriceScale symbol ≠ SymbolScale.kUnknown)
    (hbid : 0 < bid ∧ bid < 2 ^ 31) (hask : 0 < ask ∧ ask < 2 ^ 31)
    (htime : 0 < tsMicros ∧ tsMicros ≤ kMaxTsMicros) :
    decodeTick (makePacket (priceOf bid (SymbolScale.getPriceScale symbol))
      (priceOf ask (SymbolScale.getPriceScale symbol)) tsMicros symbol) =
        some ⟨ask, bid, tsMicros, symbol⟩ := by
  obtain ⟨hscale, hlarge⟩ := getPriceScale_bounds hsymbol
  obtain ⟨b, hb, hbpos, hbscaled⟩ := scaled_priceOf hbid.1 hbid.2 hscale hlarge
  obtain ⟨a, ha, hapos, hascaled⟩ := scaled_priceOf hask.1 hask.2 hscale hlarge
  have hbdouble : Representable (.finite b) := hb ▸ representable_nearest _
  have hadouble : Representable (.finite a) := ha ▸ representable_nearest _
  rw [hb, ha]
  exact decodeTick_of_scaled hsymbol htime hbdouble hbpos hbscaled hadouble hapos hascaled

end Quote

theorem eurusd_survives_wire :
    decodeTick (makePacket (priceOf 110000 (SymbolScale.getPriceScale "EURUSD"))
      (priceOf 110001 (SymbolScale.getPriceScale "EURUSD")) 1719360000000000 "EURUSD") =
        some ⟨110001, 110000, 1719360000000000, "EURUSD"⟩ :=
  quote_survives_wire (by decide) (by decide) (by decide) (by decide)

/-- A price above zero may have no points. -/
theorem exists_scaled_zero {priceScale : ℤ} (hscale : 0 < priceScale) (hlarge : priceScale ≤ 2 ^ 20) :
    ∃ price, Representable (.finite price) ∧ 0 < price ∧ scaled priceScale price = some 0 := by
  have hs : (1 : ℚ) ≤ priceScale := by exact_mod_cast hscale
  have hs' : (priceScale : ℚ) ≤ 2 ^ 20 := by exact_mod_cast hlarge
  have hpow : (1 : ℚ) < 2 ^ 1000 := one_lt_pow₀ (by norm_num) (by norm_num)
  have hnormal : (2 : ℚ) ^ (-40 : ℤ) ≤ 1 / 2 ^ 30 := by norm_num
  obtain ⟨price, hprice, herror⟩ := exists_nearest (tiny_le hnormal)
    (lt_of_le_of_lt (by norm_num) hpow : |(1 : ℚ) / 2 ^ 30| < 2 ^ 1000)
  have habs : |(1 : ℚ) / 2 ^ 30| = 1 / 2 ^ 30 := abs_of_pos (by norm_num)
  rw [habs, abs_le] at herror
  have hlow : 1 / 2 ^ 31 ≤ price := by linarith
  have hhigh : price ≤ 1 / 2 ^ 29 := by linarith
  have hxlow : (1 : ℚ) / 2 ^ 31 ≤ price * priceScale := by nlinarith
  have hxhigh : price * priceScale ≤ 1 / 2 ^ 9 := by nlinarith
  have hxnormal : (2 : ℚ) ^ (-40 : ℤ) ≤ price * priceScale := le_trans (by norm_num) hxlow
  have hxpos : 0 < price * priceScale := lt_of_lt_of_le (by norm_num) hxlow
  obtain ⟨product, hproduct, herror'⟩ := exists_nearest (tiny_le hxnormal) (by
    rw [abs_of_pos hxpos]
    exact lt_of_le_of_lt (hxhigh.trans (by norm_num)) hpow)
  rw [abs_of_pos hxpos, abs_le] at herror'
  have hround : lround product = 0 := by
    apply lround_eq
    rw [abs_lt]
    constructor <;> push_cast <;> linarith
  refine ⟨price, hprice ▸ representable_nearest _, by linarith, ?_⟩
  unfold scaled
  rw [hproduct]
  simp [hround]

/-- The ticks that some datagram is decoded to are the sound ones. A price of zero points is among
them, although no zero price is. -/
theorem exists_decodeTick_iff (tick : PriceData) :
    (∃ bytes, decodeTick bytes = some tick) ↔ Sound tick := by
  constructor
  · rintro ⟨bytes, h⟩
    exact sound_of_decodeTick h
  · intro h
    obtain ⟨hscale, hlarge⟩ := getPriceScale_bounds h.symbol
    have hprice : ∀ points : ℤ, 0 ≤ points → points < 2 ^ 31 → ∃ price,
        Representable (.finite price) ∧ 0 < price ∧
          scaled (SymbolScale.getPriceScale tick.symbol) price = some points := by
      intro points hlow hhigh
      rcases eq_or_lt_of_le hlow with rfl | hpos
      · exact exists_scaled_zero hscale hlarge
      · obtain ⟨price, hdouble, hprice, hscaled⟩ := scaled_priceOf hpos hhigh hscale hlarge
        exact ⟨price, hdouble ▸ representable_nearest _, hprice, hscaled⟩
    obtain ⟨b, hb, hbpos, hbid⟩ := hprice tick.bid h.bid.1 h.bid.2
    obtain ⟨a, ha, hapos, hask⟩ := hprice tick.ask h.ask.1 h.ask.2
    exact ⟨_, decodeTick_of_scaled h.symbol h.time hb hbpos hbid ha hapos hask⟩

/-- The golden packet of the contract, and one byte less. -/
example : decodeTick [
    0x9A, 0x99, 0x99, 0x99, 0x99, 0x99, 0xF1, 0x3F, 0x0B, 0x5E, 0xF4, 0x15, 0xA4, 0x99, 0xF1, 0x3F,
    0x00, 0x80, 0x0A, 0xB2, 0xBF, 0x1B, 0x06, 0x00, 0x45, 0x55, 0x52, 0x55, 0x53, 0x44, 0, 0,
    0, 0, 0, 0, 0, 0, 0, 0] = some ⟨110001, 110000, 1719360000000000, "EURUSD"⟩ := by
  decide +kernel

end TickPacket

end BacktestEngine
