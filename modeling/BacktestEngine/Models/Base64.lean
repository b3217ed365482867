import Mathlib.Data.List.Basic
import Mathlib.Tactic.IntervalCases

/-! # Base64

The encoding that payloads travel under. Decoding reads and writes by position: a
position outside of the text or of the result is no answer.
-/

namespace BacktestEngine.Base64

def B64chars : List UInt8 :=
  "ABCDEFGHIJKLMNOPQRSTUVWXYZabcdefghijklmnopqrstuvwxyz0123456789+/".toList.map
    fun c => UInt8.ofNat c.toNat

/-- The entries after the last one given are 0. -/
def B64index : List ℕ :=
  [0,  0,  0,  0,  0,  0,  0,  0,  0,  0,  0,  0,  0,  0,  0,  0,
   0,  0,  0,  0,  0,  0,  0,  0,  0,  0,  0,  0,  0,  0,  0,  0,
   0,  0,  0,  0,  0,  0,  0,  0,  0,  0,  0,  62, 63, 62, 62, 63,
   52, 53, 54, 55, 56, 57, 58, 59, 60, 61, 0,  0,  0,  0,  0,  0,
   0,  0,  1,  2,  3,  4,  5,  6,  7,  8,  9,  10, 11, 12, 13, 14,
   15, 16, 17, 18, 19, 20, 21, 22, 23, 24, 25, 0,  0,  0,  0,  63,
   0,  26, 27, 28, 29, 30, 31, 32, 33, 34, 35, 36, 37, 38, 39, 40,
   41, 42, 43, 44, 45, 46, 47, 48, 49, 50, 51]

def char (n : ℕ) : UInt8 := B64chars.getD n 0

def index (c : UInt8) : ℕ := B64index.getD c.toNat 0

/-- The padding `=`. -/
def equalsSign : UInt8 := 61

/-- Three bytes make four characters, and what is left over is padded. -/
def b64encode : List UInt8 → List UInt8
  | [] => []
  | [a] =>
    let n := a.toNat
    [char (n >>> 2), char (n <<< 4 &&& 0x3F), equalsSign, equalsSign]
  | [a, b] =>
    let n := a.toNat <<< 8 ||| b.toNat
    [char (n >>> 10 &&& 0x3F), char (n >>> 4 &&& 0x3F), char (n <<< 2 &&& 0x3F), equalsSign]
  | a :: b :: c :: data =>
    let n := a.toNat <<< 16 ||| b.toNat <<< 8 ||| c.toNat
    char (n >>> 18) :: char (n >>> 12 &&& 0x3F) :: char (n >>> 6 &&& 0x3F) ::
      char (n &&& 0x3F) :: b64encode data

/-- The whole groups of four, from a position on. -/
def decodeLoop (data : List UInt8) : ℕ → ℕ → Option (List UInt8)
  | _, 0 => some []
  | i, count + 1 => do
    let n := index (← data[i]?) <<< 18 ||| index (← data[i + 1]?) <<< 12 |||
      index (← data[i + 2]?) <<< 6 ||| index (← data[i + 3]?)
    let rest ← decodeLoop data (i + 4) count
    pure (UInt8.ofNat (n >>> 16) :: UInt8.ofNat (n >>> 8 &&& 0xFF) ::
      UInt8.ofNat (n &&& 0xFF) :: rest)

/-- The group that is padded or cut short. -/
def decodeTail (data : List UInt8) (last : ℕ) (pad1 pad2 : Bool) : Option (List UInt8) :=
  if pad1 then do
    let n := index (← data[last]?) <<< 18 ||| index (← data[last + 1]?) <<< 12
    if pad2 then
      let n' := n ||| index (← data[last + 2]?) <<< 6
      pure [UInt8.ofNat (n >>> 16), UInt8.ofNat (n' >>> 8 &&& 0xFF)]
    else pure [UInt8.ofNat (n >>> 16)]
  else some []

/-- Whether the last group is short of a character, or of no more than one. -/
def padding (data : List UInt8) : Option (Bool × Bool) := do
  let len := data.length
  let pad1 ← if len % 4 ≠ 0 then pure true else data[len - 1]?.map (· == equalsSign)
  if !pad1 then pure (false, false)
  else if 2 < len % 4 then pure (true, true)
  -- one character has none before it
  else if len < 2 then none
  else pure (true, (← data[len - 2]?) != equalsSign)

def b64decode (data : List UInt8) : Option (List UInt8) := do
  if data.length = 0 then pure []
  else
    let (pad1, pad2) ← padding data
    let last := ((data.length - pad1.toNat) / 4) <<< 2
    let size := last / 4 * 3 + pad1.toNat + pad2.toNat
    let whole ← decodeLoop data 0 (last / 4)
    let tail ← decodeTail data last pad1 pad2
    let written := whole ++ tail
    if written.length ≤ size then pure (written ++ List.replicate (size - written.length) 0)
    else none

/-! ## Single characters -/

set_option maxRecDepth 4000 in
theorem index_char {n : ℕ} (h : n < 64) : index (char n) = n := by
  have hall : ∀ n < 64, index (char n) = n := by decide
  exact hall n h

set_option maxRecDepth 4000 in
theorem char_ne_equalsSign {n : ℕ} (h : n < 64) : char n ≠ equalsSign := by
  have hall : ∀ n < 64, char n ≠ equalsSign := by decide
  exact hall n h

/-! ## Groups

Shifts and masks are products and remainders, and an or of bits that do not meet is a sum.
-/

theorem low_six (n : ℕ) : n &&& 0x3F = n % 64 := Nat.and_two_pow_sub_one_eq_mod n 6

theorem low_eight (n : ℕ) : n &&& 0xFF = n % 256 := Nat.and_two_pow_sub_one_eq_mod n 8

theorem shift_or {a b : ℕ} (i : ℕ) (h : b < 2 ^ i) : a <<< i ||| b = a * 2 ^ i + b := by
  rw [← Nat.shiftLeft_add_eq_or_of_lt h, Nat.shiftLeft_eq]

theorem join_three (a b c : UInt8) :
    a.toNat <<< 16 ||| b.toNat <<< 8 ||| c.toNat =
      a.toNat * 65536 + b.toNat * 256 + c.toNat := by
  have hb := b.toNat_lt
  have hc := c.toNat_lt
  rw [Nat.or_assoc, shift_or 8 (by omega), shift_or 16 (by omega)]
  omega

theorem join_four {i j k l : ℕ} (hj : j < 64) (hk : k < 64) (hl : l < 64) :
    i <<< 18 ||| j <<< 12 ||| k <<< 6 ||| l = i * 262144 + j * 4096 + k * 64 + l := by
  rw [Nat.or_assoc, Nat.or_assoc, shift_or 6 (by omega), shift_or 12 (by omega),
    shift_or 18 (by omega)]
  omega

theorem ofNat_toNat_of_eq {n : ℕ} {c : UInt8} (h : n % 256 = c.toNat) : UInt8.ofNat n = c := by
  apply UInt8.toNat_inj.mp
  rw [UInt8.toNat_ofNat', ← h]

/-- The four characters of a group are read back as its three bytes. -/
theorem decode_group (a b c : UInt8) {n m : ℕ}
    (hn : n = a.toNat <<< 16 ||| b.toNat <<< 8 ||| c.toNat)
    (hm : m = index (char (n >>> 18)) <<< 18 ||| index (char (n >>> 12 &&& 0x3F)) <<< 12 |||
      index (char (n >>> 6 &&& 0x3F)) <<< 6 ||| index (char (n &&& 0x3F))) :
    UInt8.ofNat (m >>> 16) = a ∧ UInt8.ofNat (m >>> 8 &&& 0xFF) = b ∧
      UInt8.ofNat (m &&& 0xFF) = c := by
  have ha := a.toNat_lt
  have hb := b.toNat_lt
  have hc := c.toNat_lt
  rw [join_three] at hn
  simp only [low_six, Nat.shiftRight_eq_div_pow] at hm
  rw [index_char (by omega), index_char (by omega), index_char (by omega), index_char (by omega),
    join_four (by omega) (by omega) (by omega)] at hm
  have hmn : m = n := by omega
  simp only [low_eight, Nat.shiftRight_eq_div_pow]
  refine ⟨ofNat_toNat_of_eq ?_, ofNat_toNat_of_eq ?_, ofNat_toNat_of_eq ?_⟩ <;> omega

/-! ## What is encoded -/

theorem length_b64encode (data : List UInt8) :
    (b64encode data).length = (data.length + 2) / 3 * 4 := by
  induction data using b64encode.induct with
  | case1 => rfl
  | case2 a => simp [b64encode]
  | case3 a b => simp [b64encode]
  | case4 a b c data ih =>
    rw [b64encode]
    simp only [List.length_cons, ih]
    omega

theorem decodeLoop_append (block data : List UInt8) (i count : ℕ) :
    decodeLoop (block ++ data) (block.length + i) count = decodeLoop data i count := by
  induction count generalizing i with
  | zero => rfl
  | succ count ih =>
    have hread (k : ℕ) : (block ++ data)[block.length + i + k]? = data[i + k]? := by
      rw [List.getElem?_append_right (by omega)]
      congr 1
      omega
    have hnext : decodeLoop (block ++ data) (block.length + i + 4) count =
        decodeLoop data (i + 4) count := by
      rw [Nat.add_assoc]
      exact ih (i + 4)
    have hfirst := hread 0
    simp only [Nat.add_zero] at hfirst
    rw [decodeLoop, decodeLoop, hfirst, hread 1, hread 2, hread 3, hnext]

/-- The first group, and the groups after it. -/
theorem decodeLoop_group (i j k l : UInt8) (data : List UInt8) (count : ℕ) :
    decodeLoop (i :: j :: k :: l :: data) 0 (count + 1) =
      (decodeLoop data 0 count).map fun rest =>
        let n := index i <<< 18 ||| index j <<< 12 ||| index k <<< 6 ||| index l
        UInt8.ofNat (n >>> 16) :: UInt8.ofNat (n >>> 8 &&& 0xFF) :: UInt8.ofNat (n &&& 0xFF) ::
          rest := by
  have hrest : decodeLoop (i :: j :: k :: l :: data) 4 count = decodeLoop data 0 count :=
    decodeLoop_append [i, j, k, l] data 0 count
  rw [decodeLoop, hrest]
  cases decodeLoop data 0 count <;> rfl

/-- The whole groups are read back. -/
theorem decodeLoop_b64encode (data : List UInt8) :
    decodeLoop (b64encode data) 0 (data.length / 3) = some (data.take (data.length / 3 * 3)) := by
  induction data using b64encode.induct with
  | case1 => rfl
  | case2 a => simp [decodeLoop]
  | case3 a b => simp [decodeLoop]
  | case4 a b c data ih =>
    have hcount : (a :: b :: c :: data).length / 3 = data.length / 3 + 1 := by
      simp only [List.length_cons]
      omega
    have htake : (data.length / 3 + 1) * 3 = data.length / 3 * 3 + 3 := by omega
    obtain ⟨h1, h2, h3⟩ := decode_group a b c rfl rfl
    rw [hcount, htake, b64encode, decodeLoop_group, ih, Option.map_some]
    dsimp only
    rw [h1, h2, h3]
    rfl

/-- The characters after the whole groups are those of what is left over. -/
theorem drop_b64encode (data : List UInt8) :
    (b64encode data).drop (data.length / 3 * 4) = b64encode (data.drop (data.length / 3 * 3)) := by
  induction data using b64encode.induct with
  | case1 => rfl
  | case2 a => simp
  | case3 a b => simp
  | case4 a b c data ih =>
    have hfour : (data.length + 3) / 3 * 4 = data.length / 3 * 4 + 4 := by omega
    have hthree : (data.length + 3) / 3 * 3 = data.length / 3 * 3 + 3 := by omega
    rw [b64encode]
    simp only [List.length_cons, hfour, hthree, List.drop_succ_cons, ih]

/-- No character of a whole group is padding. -/
theorem ne_equalsSign_of_mem_take (data : List UInt8) :
    ∀ c ∈ (b64encode data).take (data.length / 3 * 4), c ≠ equalsSign := by
  induction data using b64encode.induct with
  | case1 => simp [b64encode]
  | case2 a => simp
  | case3 a b => simp
  | case4 a b c data ih =>
    have hfour : (data.length + 3) / 3 * 4 = data.length / 3 * 4 + 4 := by omega
    have ha := a.toNat_lt
    have hb := b.toNat_lt
    have hc := c.toNat_lt
    rw [b64encode, join_three]
    simp only [List.length_cons, hfour, List.take_succ_cons, List.forall_mem_cons]
    refine ⟨?_, ?_, ?_, ?_, ih⟩
    all_goals
      apply char_ne_equalsSign
      simp only [low_six, Nat.shiftRight_eq_div_pow]
      omega

/-! ## The round trip -/

theorem getElem?_b64encode_drop (data : List UInt8) (i : ℕ) :
    (b64encode data)[data.length / 3 * 4 + i]? = (b64encode (data.drop (data.length / 3 * 3)))[i]? := by
  rw [← drop_b64encode, List.getElem?_drop]

/-- The group of a single byte. -/
theorem decode_single {a : UInt8} :
    UInt8.ofNat ((index (char (a.toNat >>> 2)) <<< 18 |||
      index (char (a.toNat <<< 4 &&& 0x3F)) <<< 12) >>> 16) = a := by
  have ha := a.toNat_lt
  simp only [low_six, Nat.shiftRight_eq_div_pow, Nat.shiftLeft_eq]
  rw [index_char (by omega), index_char (by omega), ← Nat.shiftLeft_eq, shift_or 18 (by omega)]
  apply ofNat_toNat_of_eq
  omega

/-- The group of two bytes. -/
theorem decode_pair (a b : UInt8) {n m m' : ℕ} (hn : n = a.toNat <<< 8 ||| b.toNat)
    (hm : m = index (char (n >>> 10 &&& 0x3F)) <<< 18 ||| index (char (n >>> 4 &&& 0x3F)) <<< 12)
    (hm' : m' = m ||| index (char (n <<< 2 &&& 0x3F)) <<< 6) :
    UInt8.ofNat (m >>> 16) = a ∧ UInt8.ofNat (m' >>> 8 &&& 0xFF) = b := by
  have ha := a.toNat_lt
  have hb := b.toNat_lt
  rw [shift_or 8 (by omega)] at hn
  simp only [low_six, Nat.shiftRight_eq_div_pow] at hm hm'
  rw [index_char (by omega), index_char (by omega)] at hm
  rw [Nat.shiftLeft_eq, index_char (by omega), hm, Nat.or_assoc, shift_or 12 (by omega),
    shift_or 18 (by omega)] at hm'
  rw [Nat.shiftLeft_eq _ 12, shift_or 18 (by omega)] at hm
  simp only [low_eight, Nat.shiftRight_eq_div_pow]
  constructor
  · apply ofNat_toNat_of_eq
    omega
  · apply ofNat_toNat_of_eq
    omega

theorem padding_eq {data : List UInt8} {c d : UInt8} (hfour : data.length % 4 = 0)
    (htwo : 2 ≤ data.length) (hlast : data[data.length - 1]? = some c)
    (hbefore : data[data.length - 2]? = some d) :
    padding data = some (c == equalsSign, c == equalsSign && d != equalsSign) := by
  unfold padding
  cases hc : c == equalsSign with
  | false => simp [hfour, hlast, hc]
  | true => simp [hfour, hlast, hbefore, hc, Nat.not_lt.mpr htwo]

/-- With its padding and its last group known, a text is read back. -/
theorem b64decode_eq {data bytes : List UInt8} {pad1 pad2 : Bool} {left : List UInt8}
    (hpadding : padding (b64encode data) = some (pad1, pad2)) (hne : data ≠ [])
    (hlen : (b64encode data).length = data.length / 3 * 4 + 4 * pad1.toNat)
    (htail : decodeTail (b64encode data) (data.length / 3 * 4) pad1 pad2 = some left)
    (hleft : left.length = pad1.toNat + pad2.toNat)
    (hbytes : bytes = data.take (data.length / 3 * 3) ++ left) :
    b64decode (b64encode data) = some bytes := by
  have hpos := List.length_pos_iff.mpr hne
  have hzero : (b64encode data).length ≠ 0 := by
    rw [length_b64encode]
    omega
  have hlast : (((b64encode data).length - pad1.toNat) / 4) <<< 2 = data.length / 3 * 4 := by
    rw [hlen, Nat.shiftLeft_eq]
    cases pad1 with
    | false =>
      rw [Bool.toNat_false]
      omega
    | true =>
      rw [Bool.toNat_true]
      omega
  have hwritten : (data.take (data.length / 3 * 3) ++ left).length =
      data.length / 3 * 3 + pad1.toNat + pad2.toNat := by
    rw [List.length_append, List.length_take_of_le (by omega), hleft]
    omega
  have hcount : data.length / 3 * 4 / 4 = data.length / 3 := by omega
  rw [b64decode, if_neg hzero, hpadding]
  simp only [Option.pure_def, Option.bind_eq_bind, Option.bind_some, hlast, hcount,
    decodeLoop_b64encode, htail, hwritten, le_refl, if_true, Nat.sub_self, List.replicate_zero,
    List.append_nil, hbytes]

theorem b64decode_b64encode (data : List UInt8) : b64decode (b64encode data) = some data := by
  rcases eq_or_ne data [] with rfl | hne
  · rfl
  have hpos := List.length_pos_iff.mpr hne
  have hsplit := List.take_append_drop (data.length / 3 * 3) data
  have hread := getElem?_b64encode_drop data
  have hdrop : (data.drop (data.length / 3 * 3)).length = data.length % 3 := by
    rw [List.length_drop]
    omega
  have hlen := length_b64encode data
  have hrem : data.length % 3 < 3 := Nat.mod_lt _ (by omega)
  rcases hleft : data.drop (data.length / 3 * 3) with _ | ⟨a, _ | ⟨b, _ | ⟨c, rest⟩⟩⟩
  · rw [hleft] at hsplit hread hdrop
    have hlen' : (b64encode data).length = data.length / 3 * 4 := by
      rw [hlen]
      simp at hdrop
      omega
    have hall := ne_equalsSign_of_mem_take data
    rw [List.take_of_length_le (by omega)] at hall
    obtain ⟨c, hc⟩ : ∃ c, (b64encode data)[(b64encode data).length - 1]? = some c :=
      ⟨_, List.getElem?_eq_getElem (by omega)⟩
    have hcne : (c == equalsSign) = false := beq_false_of_ne (hall c (List.mem_of_getElem? hc))
    obtain ⟨d, hd⟩ : ∃ d, (b64encode data)[(b64encode data).length - 2]? = some d :=
      ⟨_, List.getElem?_eq_getElem (by omega)⟩
    have hpadding : padding (b64encode data) = some (false, false) := by
      rw [padding_eq (by omega) (by omega) hc hd, hcne]
      rfl
    exact b64decode_eq hpadding hne hlen' rfl rfl hsplit.symm
  · rw [hleft] at hsplit hread hdrop
    have hq : data.length = data.length / 3 * 3 + 1 := by
      simp at hdrop
      omega
    have hlen' : (b64encode data).length = data.length / 3 * 4 + 4 := by omega
    have hpadding : padding (b64encode data) = some (true, false) := by
      have hone : (b64encode data).length - 1 = data.length / 3 * 4 + 3 := by omega
      have htwo : (b64encode data).length - 2 = data.length / 3 * 4 + 2 := by omega
      rw [padding_eq (by omega) (by omega) (hone ▸ hread 3) (htwo ▸ hread 2)]
      rfl
    have htail : decodeTail (b64encode data) (data.length / 3 * 4) true false = some [a] := by
      have hfirst := hread 0
      rw [Nat.add_zero] at hfirst
      simp only [decodeTail, if_true, hfirst, hread 1]
      exact congrArg some (congrArg (· :: []) decode_single)
    exact b64decode_eq hpadding hne hlen' htail rfl hsplit.symm
  · rw [hleft] at hsplit hread hdrop
    have hq : data.length = data.length / 3 * 3 + 2 := by
      simp at hdrop
      omega
    have hlen' : (b64encode data).length = data.length / 3 * 4 + 4 := by omega
    have hne' : char ((a.toNat <<< 8 ||| b.toNat) <<< 2 &&& 0x3F) ≠ equalsSign := by
      apply char_ne_equalsSign
      rw [low_six]
      omega
    have hpadding : padding (b64encode data) = some (true, true) := by
      have hone : (b64encode data).length - 1 = data.length / 3 * 4 + 3 := by omega
      have htwo : (b64encode data).length - 2 = data.length / 3 * 4 + 2 := by omega
      rw [padding_eq (by omega) (by omega) (hone ▸ hread 3) (htwo ▸ hread 2), bne_iff_ne.mpr hne']
      rfl
    have htail : decodeTail (b64encode data) (data.length / 3 * 4) true true = some [a, b] := by
      obtain ⟨h1, h2⟩ := decode_pair a b rfl rfl rfl
      have hfirst := hread 0
      rw [Nat.add_zero] at hfirst
      simp only [decodeTail, if_true, hfirst, hread 1, hread 2]
      exact congrArg some (congrArg₂ (fun x y => [x, y]) h1 h2)
    exact b64decode_eq hpadding hne hlen' htail rfl hsplit.symm
  · rw [hleft] at hdrop
    simp at hdrop
    omega

end BacktestEngine.Base64
