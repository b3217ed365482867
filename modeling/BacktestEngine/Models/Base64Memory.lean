import BacktestEngine.Models.Base64
import Mathlib.Algebra.Order.Floor.Div
import Mathlib.Data.List.DropRight

/-! # Base64 in memory

The decoder reads bytes by their position and knows only how many there are. What it reads past
the end, or before the start, is whatever stands there, and it may be nobody's to read.
-/

namespace BacktestEngine.Base64

section Decoder

variable (outside : ℕ → UInt8) (data : List UInt8)

/-- The byte at a position, or what stands in memory there. -/
def byteAt (i : ℕ) : UInt8 := data.getD i (outside i)

/-- The position before the last one. For a single character the difference wraps. -/
def beforeLast : ℕ := if data.length < 2 then 2 ^ 64 + data.length - 2 else data.length - 2

def pad1 : Bool := data.length % 4 != 0 || byteAt outside data (data.length - 1) == equalsSign

def pad2 : Bool :=
  pad1 outside data &&
    (decide (2 < data.length % 4) || byteAt outside data (beforeLast data) != equalsSign)

/-- Where the whole groups end. -/
def last : ℕ := ((data.length - (pad1 outside data).toNat) / 4) <<< 2

/-- How many bytes the result is allocated with. -/
def size : ℕ := last outside data / 4 * 3 + (pad1 outside data).toNat + (pad2 outside data).toNat

/-- The three bytes of the group at a position. -/
def groupAt (i : ℕ) : List UInt8 :=
  let n := index (byteAt outside data i) <<< 18 ||| index (byteAt outside data (i + 1)) <<< 12 |||
    index (byteAt outside data (i + 2)) <<< 6 ||| index (byteAt outside data (i + 3))
  [UInt8.ofNat (n >>> 16), UInt8.ofNat (n >>> 8 &&& 0xFF), UInt8.ofNat (n &&& 0xFF)]

/-- The bytes of the whole groups. -/
def groupBytes : List UInt8 :=
  (List.range (last outside data / 4)).flatMap fun k => groupAt outside data (4 * k)

/-- The bytes of the group that is padded or cut short. -/
def tailBytes : List UInt8 :=
  if pad1 outside data then
    let n := index (byteAt outside data (last outside data)) <<< 18 |||
      index (byteAt outside data (last outside data + 1)) <<< 12
    if pad2 outside data then
      let n' := n ||| index (byteAt outside data (last outside data + 2)) <<< 6
      [UInt8.ofNat (n >>> 16), UInt8.ofNat (n' >>> 8 &&& 0xFF)]
    else [UInt8.ofNat (n >>> 16)]
  else []

/-- The decoder, whatever it reads. The bytes that are not written stay zero. -/
def b64decodeFrom : List UInt8 :=
  if data.length = 0 then []
  else
    let written := groupBytes outside data ++ tailBytes outside data
    written ++ List.replicate (size outside data - written.length) 0

/-- The positions that are read, in order. -/
def reads : List ℕ :=
  if data.length = 0 then []
  else (if data.length % 4 = 0 then [data.length - 1] else []) ++
    (if pad1 outside data && !decide (2 < data.length % 4) then [beforeLast data] else []) ++
    (List.range (last outside data / 4)).flatMap
      (fun k => [4 * k, 4 * k + 1, 4 * k + 2, 4 * k + 3]) ++
    (if pad1 outside data then
      [last outside data, last outside data + 1] ++
        (if pad2 outside data then [last outside data + 2] else [])
    else [])

/-- The positions of the result that are written, in order. -/
def writes : List ℕ :=
  if data.length = 0 then []
  else (List.range (last outside data / 4)).flatMap (fun k => [3 * k, 3 * k + 1, 3 * k + 2]) ++
    (if pad1 outside data then
      [last outside data / 4 * 3] ++
        (if pad2 outside data then [last outside data / 4 * 3 + 1] else [])
    else [])

/-- Reads stay within the text and writes within the result. -/
def InBounds : Prop :=
  (∀ i ∈ reads outside data, i < data.length) ∧ ∀ j ∈ writes outside data, j < size outside data

end Decoder

/-! ## Bounds -/

variable {outside : ℕ → UInt8} {data : List UInt8}

theorem byteAt_of_some {i : ℕ} {c : UInt8} (h : data[i]? = some c) :
    byteAt outside data i = c := by
  rw [byteAt, List.getD_eq_getElem?_getD, h]
  rfl

theorem last_eq : last outside data = (data.length - (pad1 outside data).toNat) / 4 * 4 := by
  rw [last, Nat.shiftLeft_eq]

theorem pad1_of_ne (h : data.length % 4 ≠ 0) : pad1 outside data = true := by
  rw [pad1, bne_iff_ne.mpr h, Bool.true_or]

theorem mem_groups (width : ℕ) {count j : ℕ} {row : ℕ → List ℕ}
    (hrow : ∀ k, j ∈ row k ↔ width * k ≤ j ∧ j < width * (k + 1)) (hwidth : 0 < width) :
    j ∈ (List.range count).flatMap row ↔ j < width * count := by
  rw [List.mem_flatMap]
  constructor
  · rintro ⟨k, hk, hj⟩
    have hle : width * (k + 1) ≤ width * count := Nat.mul_le_mul_left _ (List.mem_range.mp hk)
    exact ((hrow k).mp hj).2.trans_le hle
  · intro hj
    refine ⟨j / width, List.mem_range.mpr (Nat.div_lt_of_lt_mul hj), (hrow _).mpr ?_⟩
    exact ⟨Nat.mul_div_le j width, Nat.lt_mul_div_succ j hwidth⟩

theorem mem_reads {i : ℕ} : i ∈ reads outside data ↔ data.length ≠ 0 ∧
    (data.length % 4 = 0 ∧ i = data.length - 1 ∨
      pad1 outside data = true ∧ ¬ 2 < data.length % 4 ∧ i = beforeLast data ∨
      i < last outside data ∨
      pad1 outside data = true ∧ (i = last outside data ∨ i = last outside data + 1 ∨
        pad2 outside data = true ∧ i = last outside data + 2)) := by
  have hgroups : i ∈ (List.range (last outside data / 4)).flatMap
      (fun k => [4 * k, 4 * k + 1, 4 * k + 2, 4 * k + 3]) ↔ i < last outside data := by
    have hfour : 4 * (last outside data / 4) = last outside data := by
      rw [last_eq]
      omega
    rw [mem_groups 4 (fun k => ?_) (by decide), hfour]
    simp only [List.mem_cons, List.not_mem_nil, or_false]
    omega
  unfold reads
  split_ifs with hzero hfour hskip hpad1 hpad2 <;>
    simp_all

/-- No write is past the end of the result. -/
theorem writes_lt : ∀ j ∈ writes outside data, j < size outside data := by
  intro j hj
  have hgroups : j ∈ (List.range (last outside data / 4)).flatMap
      (fun k => [3 * k, 3 * k + 1, 3 * k + 2]) ↔ j < 3 * (last outside data / 4) := by
    apply mem_groups 3 (fun k => ?_) (by decide)
    simp only [List.mem_cons, List.not_mem_nil, or_false]
    omega
  unfold writes at hj
  unfold size
  split_ifs at hj with hzero hpad1 hpad2
  · cases hj
  · rw [List.mem_append, hgroups] at hj
    simp only [hpad1, hpad2, Bool.toNat_true]
    simp only [List.mem_append, List.mem_cons, List.not_mem_nil, or_false] at hj
    omega
  · rw [List.mem_append, hgroups] at hj
    simp only [hpad1, Bool.toNat_true]
    simp only [List.append_nil, List.mem_cons, List.not_mem_nil, or_false] at hj
    omega
  · rw [List.append_nil, hgroups] at hj
    omega

theorem byteAt_eq_iff {i : ℕ} {c : UInt8} (hi : i < data.length) :
    byteAt outside data i = c ↔ data[i]? = some c := by
  rw [byteAt_of_some (List.getElem?_eq_getElem hi), List.getElem?_eq_getElem hi, Option.some_inj]

theorem beforeLast_of_le (h : 2 ≤ data.length) : beforeLast data = data.length - 2 :=
  if_neg (Nat.not_lt.mpr h)

/-- With two characters in the last group, it is the first of them that says whether a third one is
read. -/
theorem pad2_of_two (h : data.length % 4 = 2) :
    pad2 outside data = true ↔ data[data.length - 2]? ≠ some equalsSign := by
  have hlen : 2 ≤ data.length := by omega
  rw [pad2, pad1_of_ne (by omega), beforeLast_of_le hlen, h, Bool.true_and, Bool.or_eq_true,
    decide_eq_true_iff, bne_iff_ne, ne_eq, ne_eq, byteAt_eq_iff (by omega)]
  exact or_iff_right (by decide)

theorem pad2_of_three (h : data.length % 4 = 3) : pad2 outside data = true := by
  rw [pad2, pad1_of_ne (by omega), h]
  rfl

/-- Decoding stays within its buffers when no character of the last group is missing, or only its
last one, or two with a padding in the place of the first one left. -/
theorem inBounds_iff (outside : ℕ → UInt8) (data : List UInt8) :
    InBounds outside data ↔ data.length % 4 = 0 ∨ data.length % 4 = 3 ∨
      data.length % 4 = 2 ∧ data[data.length - 2]? = some equalsSign := by
  have hlast : last outside data = (data.length - (pad1 outside data).toNat) / 4 * 4 := last_eq
  have hmod : data.length % 4 < 4 := Nat.mod_lt _ (by decide)
  have hbool : (pad1 outside data).toNat ≤ 1 := Bool.toNat_le _
  constructor
  · rintro ⟨hreads, -⟩
    by_contra hne
    simp only [not_or, not_and] at hne
    obtain ⟨hzero, hthree, htwo⟩ := hne
    have hpad1 : pad1 outside data = true := pad1_of_ne hzero
    rw [hpad1, Bool.toNat_true] at hlast
    rcases (by omega : data.length % 4 = 1 ∨ data.length % 4 = 2) with hone | hmod2
    · -- the second character of the last group is missing
      have hpast : data.length ∈ reads outside data := by
        rw [mem_reads]
        refine ⟨by omega, Or.inr (Or.inr (Or.inr ⟨hpad1, Or.inr (Or.inl ?_)⟩))⟩
        omega
      exact absurd (hreads _ hpast) (lt_irrefl _)
    · have hpast : data.length ∈ reads outside data := by
        rw [mem_reads]
        refine ⟨by omega, Or.inr (Or.inr (Or.inr ⟨hpad1, Or.inr (Or.inr ⟨?_, ?_⟩)⟩))⟩
        · exact (pad2_of_two hmod2).mpr (htwo hmod2)
        · omega
      exact absurd (hreads _ hpast) (lt_irrefl _)
  · intro hwhen
    refine ⟨fun i hi => ?_, writes_lt⟩
    obtain ⟨hne, hi⟩ := mem_reads.mp hi
    have hbefore : ¬ 2 < data.length % 4 → beforeLast data < data.length := by
      intro hskip
      rw [beforeLast_of_le (by omega)]
      omega
    rcases hi with ⟨-, rfl⟩ | ⟨-, hskip, rfl⟩ | hi | ⟨hpad1, hi⟩
    · omega
    · exact hbefore hskip
    · omega
    · rw [hpad1, Bool.toNat_true] at hlast
      rcases hwhen with hzero | hthree | ⟨htwo, hequals⟩
      · omega
      · omega
      · have hpad2 : pad2 outside data ≠ true := fun h => (pad2_of_two htwo).mp h hequals
        rcases hi with rfl | rfl | ⟨h, -⟩
        · omega
        · omega
        · exact absurd h hpad2

/-- A single character has none before it, and none after it. -/
theorem single_out_of_bounds : ¬ InBounds (fun _ => 0) [65] := by
  rintro ⟨hreads, -⟩
  exact absurd (hreads 1 (by decide)) (by decide)

/-! ## What is read back -/

variable (outside) in
theorem groupAt_of_decodeLoop {i count : ℕ} {bytes : List UInt8}
    (h : decodeLoop data i count = some bytes) :
    (List.range count).flatMap (fun k => groupAt outside data (i + 4 * k)) = bytes := by
  induction count generalizing i bytes with
  | zero =>
    cases h
    rfl
  | succ count ih =>
    simp only [decodeLoop, Option.bind_eq_bind, Option.bind_eq_some_iff, Option.pure_def] at h
    obtain ⟨c0, h0, c1, h1, c2, h2, c3, h3, rest, hrest, hbytes⟩ := h
    have htail : (List.range count).flatMap (fun k => groupAt outside data (i + 4 * (k + 1))) =
        rest := by
      rw [← ih hrest]
      refine List.flatMap_congr fun k _ => ?_
      congr 1
      omega
    rw [List.range_succ_eq_map, List.flatMap_cons, List.flatMap_map, htail, Nat.mul_zero,
      Nat.add_zero, groupAt, byteAt_of_some h0, byteAt_of_some h1, byteAt_of_some h2,
      byteAt_of_some h3, ← Option.some_inj.mp hbytes]
    rfl

theorem tailBytes_of_decodeTail {bytes : List UInt8}
    (h : decodeTail data (last outside data) (pad1 outside data) (pad2 outside data) =
      some bytes) :
    tailBytes outside data = bytes := by
  unfold decodeTail at h
  unfold tailBytes
  split_ifs at h ⊢ with hpad1 hpad2
  · simp only [Option.bind_eq_bind, Option.bind_eq_some_iff, Option.pure_def] at h
    obtain ⟨c0, h0, c1, h1, c2, h2, hbytes⟩ := h
    rw [byteAt_of_some h0, byteAt_of_some h1, byteAt_of_some h2]
    exact Option.some_inj.mp hbytes
  · simp only [Option.bind_eq_bind, Option.bind_eq_some_iff, Option.pure_def] at h
    obtain ⟨c0, h0, c1, h1, hbytes⟩ := h
    rw [byteAt_of_some h0, byteAt_of_some h1]
    exact Option.some_inj.mp hbytes
  · exact Option.some_inj.mp h

/-- Whether a second character is short, once it is known whether the last one is. -/
theorem pads_of_pad1 {q p p' : Bool} (hpad1 : pad1 outside data = q)
    (h : (if (!q) = true then some (false, false)
      else if 2 < data.length % 4 then some (true, true)
      else if data.length < 2 then none
      else data[data.length - 2]?.bind fun c => some (true, c != equalsSign)) =
        some (p, p')) :
    pad1 outside data = p ∧ pad2 outside data = p' := by
  rw [pad2, hpad1]
  cases q with
  | false => exact Prod.mk.inj (Option.some_inj.mp h)
  | true =>
    simp only [Bool.not_true, Bool.false_eq_true, if_false] at h
    split_ifs at h with hthree hshort
    · rw [decide_eq_true hthree]
      exact Prod.mk.inj (Option.some_inj.mp h)
    · obtain ⟨c, hc, h⟩ := Option.bind_eq_some_iff.mp h
      rw [beforeLast_of_le (Nat.not_lt.mp hshort), byteAt_of_some hc, decide_eq_false hthree]
      exact Prod.mk.inj (Option.some_inj.mp h)

variable (outside) in
theorem pads_of_padding {p p' : Bool} (h : padding data = some (p, p')) :
    pad1 outside data = p ∧ pad2 outside data = p' := by
  simp only [padding, Option.bind_eq_bind, Option.pure_def] at h
  by_cases hmod : data.length % 4 ≠ 0
  · rw [if_pos hmod, Option.bind_some] at h
    exact pads_of_pad1 (pad1_of_ne hmod) h
  · rw [if_neg hmod] at h
    obtain ⟨q, hq, h⟩ := Option.bind_eq_some_iff.mp h
    obtain ⟨c, hc, rfl⟩ := Option.map_eq_some_iff.mp hq
    refine pads_of_pad1 ?_ h
    rw [pad1, byteAt_of_some hc, bne_eq_false_iff_eq.mpr (not_not.mp hmod), Bool.false_or]

/-- Where nothing outside of the text is read, what stands there makes no difference. -/
theorem b64decodeFrom_of_some {bytes : List UInt8} (h : b64decode data = some bytes) :
    b64decodeFrom outside data = bytes := by
  unfold b64decode at h
  unfold b64decodeFrom
  split_ifs at h ⊢ with hzero
  · exact Option.some_inj.mp h
  · simp only [Option.bind_eq_bind, Option.bind_eq_some_iff, Option.pure_def] at h
    obtain ⟨⟨p, p'⟩, hpadding, whole, hwhole, tail, htail, h⟩ := h
    obtain ⟨rfl, rfl⟩ := pads_of_padding outside hpadding
    have hgroups := groupAt_of_decodeLoop outside hwhole
    simp only [Nat.zero_add] at hgroups
    split_ifs at h
    rw [tailBytes_of_decodeTail htail, groupBytes, last, hgroups]
    exact Option.some_inj.mp h

theorem b64decodeFrom_b64encode (outside : ℕ → UInt8) (x : List UInt8) :
    b64decodeFrom outside (b64encode x) = x :=
  b64decodeFrom_of_some (b64decode_b64encode x)

theorem length_groupBytes :
    (groupBytes outside data).length = last outside data / 4 * 3 := by
  have hthree (k : ℕ) : (groupAt outside data (4 * k)).length = 3 := rfl
  simp only [groupBytes, List.length_flatMap, hthree, List.map_const', List.sum_replicate_nat,
    List.length_range]

theorem length_tailBytes : (tailBytes outside data).length =
    (pad1 outside data).toNat + (pad2 outside data).toNat := by
  have hpads : pad2 outside data = true → pad1 outside data = true := fun h =>
    (Bool.and_eq_true_iff.mp h).1
  unfold tailBytes
  split_ifs with hpad1 hpad2
  · rw [hpad1, hpad2]
    rfl
  · rw [hpad1, Bool.eq_false_of_not_eq_true hpad2]
    rfl
  · rw [Bool.eq_false_of_not_eq_true hpad1,
      Bool.eq_false_of_not_eq_true fun h => hpad1 (hpads h)]
    rfl

variable (outside) in
theorem length_b64decodeFrom (hne : data.length ≠ 0) :
    (b64decodeFrom outside data).length = size outside data := by
  unfold b64decodeFrom size
  rw [if_neg hne]
  simp only [List.length_append, List.length_replicate, length_groupBytes, length_tailBytes]
  omega

/-- What is decoded depends on the paddings and on the characters that are read for groups. -/
theorem b64decodeFrom_congr {outside' : ℕ → UInt8} {data' : List UInt8} (hne : data.length ≠ 0)
    (hne' : data'.length ≠ 0) (hpad1 : pad1 outside data = pad1 outside' data')
    (hpad2 : pad2 outside data = pad2 outside' data')
    (hlast : last outside data = last outside' data')
    (hread : ∀ i, i < last outside data ∨ pad1 outside data = true ∧ (i = last outside data ∨
      i = last outside data + 1 ∨ pad2 outside data = true ∧ i = last outside data + 2) →
        byteAt outside data i = byteAt outside' data' i) :
    b64decodeFrom outside data = b64decodeFrom outside' data' := by
  have hgroups : groupBytes outside data = groupBytes outside' data' := by
    rw [groupBytes, groupBytes, ← hlast]
    refine List.flatMap_congr fun k hk => ?_
    have hk' := List.mem_range.mp hk
    rw [groupAt, groupAt, hread _ (by omega), hread _ (by omega), hread _ (by omega),
      hread _ (by omega)]
  have htail : tailBytes outside data = tailBytes outside' data' := by
    rw [tailBytes, tailBytes, ← hpad1, ← hpad2, ← hlast]
    split_ifs with h h'
    · rw [hread _ (Or.inr ⟨h, Or.inl rfl⟩), hread _ (Or.inr ⟨h, Or.inr (Or.inl rfl)⟩),
        hread _ (Or.inr ⟨h, Or.inr (Or.inr ⟨h', rfl⟩)⟩)]
    · rw [hread _ (Or.inr ⟨h, Or.inl rfl⟩), hread _ (Or.inr ⟨h, Or.inr (Or.inl rfl)⟩)]
    · rfl
  have hsize : size outside data = size outside' data' := by
    rw [size, size, hpad1, hpad2, hlast]
  rw [b64decodeFrom, b64decodeFrom, if_neg hne, if_neg hne', hgroups, htail, hsize]

/-- Nothing but what is read has a part in the result. -/
theorem b64decodeFrom_of_reads {outside' : ℕ → UInt8}
    (h : ∀ i ∈ reads outside data, byteAt outside data i = byteAt outside' data i) :
    b64decodeFrom outside data = b64decodeFrom outside' data := by
  by_cases hne : data.length = 0
  · rw [b64decodeFrom, b64decodeFrom, if_pos hne, if_pos hne]
  have hpad1 : pad1 outside data = pad1 outside' data := by
    by_cases hmod : data.length % 4 = 0
    · rw [pad1, pad1, h _ (mem_reads.mpr ⟨hne, Or.inl ⟨hmod, rfl⟩⟩)]
    · rw [pad1_of_ne hmod, pad1_of_ne hmod]
  have hpad2 : pad2 outside data = pad2 outside' data := by
    rw [pad2, pad2, ← hpad1]
    cases hpad : pad1 outside data with
    | false => rfl
    | true =>
      by_cases hthree : 2 < data.length % 4
      · rw [decide_eq_true hthree, Bool.true_or, Bool.true_or]
      · rw [h _ (mem_reads.mpr ⟨hne, Or.inr (Or.inl ⟨hpad, hthree, rfl⟩)⟩)]
  have hlast : last outside data = last outside' data := by rw [last, last, hpad1]
  exact b64decodeFrom_congr hne hne hpad1 hpad2 hlast fun i hi =>
    h i (mem_reads.mpr ⟨hne, Or.inr (Or.inr hi)⟩)

/-- Within bounds, the text alone decides what is decoded. -/
theorem InBounds.b64decodeFrom_eq (h : InBounds outside data) (outside' : ℕ → UInt8) :
    b64decodeFrom outside data = b64decodeFrom outside' data := by
  refine b64decodeFrom_of_reads fun i hi => ?_
  have hsome := List.getElem?_eq_getElem (h.1 i hi)
  rw [byteAt_of_some hsome, byteAt_of_some hsome]

/-! ## The shape of what is encoded -/

theorem char_mem {n : ℕ} (h : n < 64) : char n ∈ B64chars := by
  have hlen : n < B64chars.length := h
  rw [char, List.getD_eq_getElem?_getD, List.getElem?_eq_getElem hlen]
  exact List.getElem_mem hlen

theorem ne_equalsSign_of_mem {c : UInt8} (h : c ∈ B64chars) : c ≠ equalsSign := by
  rintro rfl
  exact absurd h (by decide)

/-- Characters of the alphabet, and after them as many paddings as bytes are missing in the last
group. -/
theorem b64encode_shape (x : List UInt8) : ∃ body, (∀ c ∈ body, c ∈ B64chars) ∧
    b64encode x = body ++ List.replicate ((3 - x.length % 3) % 3) equalsSign := by
  induction x using b64encode.induct with
  | case1 => exact ⟨[], fun _ h => absurd h List.not_mem_nil, rfl⟩
  | case2 a =>
    have ha := a.toNat_lt
    refine ⟨[char (a.toNat >>> 2), char (a.toNat <<< 4 &&& 0x3F)], ?_, rfl⟩
    simp only [List.forall_mem_cons, low_six, Nat.shiftRight_eq_div_pow]
    exact ⟨char_mem (by omega), char_mem (by omega), fun _ h => absurd h List.not_mem_nil⟩
  | case3 a b =>
    let n := a.toNat <<< 8 ||| b.toNat
    refine ⟨[char (n >>> 10 &&& 0x3F), char (n >>> 4 &&& 0x3F), char (n <<< 2 &&& 0x3F)], ?_, rfl⟩
    simp only [List.forall_mem_cons, low_six]
    exact ⟨char_mem (by omega), char_mem (by omega), char_mem (by omega),
      fun _ h => absurd h List.not_mem_nil⟩
  | case4 a b c data ih =>
    obtain ⟨body, hbody, heq⟩ := ih
    have ha := a.toNat_lt
    have hb := b.toNat_lt
    have hc := c.toNat_lt
    let n := a.toNat <<< 16 ||| b.toNat <<< 8 ||| c.toNat
    have hn : n = a.toNat * 65536 + b.toNat * 256 + c.toNat := join_three a b c
    refine ⟨char (n >>> 18) :: char (n >>> 12 &&& 0x3F) :: char (n >>> 6 &&& 0x3F) ::
      char (n &&& 0x3F) :: body, ?_, ?_⟩
    · simp only [List.forall_mem_cons, low_six, Nat.shiftRight_eq_div_pow]
      exact ⟨char_mem (by omega), char_mem (by omega), char_mem (by omega), char_mem (by omega),
        hbody⟩
    · have hmod : (a :: b :: c :: data).length % 3 = data.length % 3 := Nat.add_mod_right _ 3
      rw [b64encode, heq, hmod]
      rfl

/-- What is encoded is read back, whatever stands around it in memory, and its text is characters of
the alphabet before at most two paddings. -/
theorem base64_round_trip (x : List UInt8) :
    (∀ outside, b64decodeFrom outside (b64encode x) = x) ∧
      (b64encode x).length = 4 * (x.length ⌈/⌉ 3) ∧
      (∃ body pads, b64encode x = body ++ List.replicate pads equalsSign ∧ pads ≤ 2 ∧
        ∀ c ∈ body, c ∈ B64chars) ∧
      equalsSign ∉ B64chars ∧
      ∀ outside, ∀ s ∈ Set.range b64encode, b64encode (b64decodeFrom outside s) = s := by
  refine ⟨fun outside => b64decodeFrom_b64encode outside x, ?_, ?_,
    fun h => ne_equalsSign_of_mem h rfl, ?_⟩
  · rw [length_b64encode, Nat.ceilDiv_eq_add_pred_div, Nat.mul_comm]
    rfl
  · obtain ⟨body, hbody, heq⟩ := b64encode_shape x
    exact ⟨body, _, heq, Nat.le_of_lt_succ (Nat.mod_lt _ (by decide)), hbody⟩
  · rintro outside _ ⟨y, rfl⟩
    rw [b64decodeFrom_b64encode]

/-! ## Texts without their padding -/

/-- The text with the paddings at its end removed. -/
def unpadded (text : List UInt8) : List UInt8 := text.rdropWhile (· == equalsSign)

theorem unpadded_append {body : List UInt8} (hbody : ∀ c ∈ body, c ∈ B64chars) (pads : ℕ) :
    unpadded (body ++ List.replicate pads equalsSign) = body := by
  induction pads with
  | zero =>
    rw [List.replicate_zero, List.append_nil, unpadded, List.rdropWhile_eq_self_iff]
    intro hne hlast
    exact ne_equalsSign_of_mem (hbody _ (List.getLast_mem hne)) (eq_of_beq hlast)
  | succ pads ih =>
    have hpad : (equalsSign == equalsSign) = true := beq_self_eq_true _
    rw [List.replicate_succ', ← List.append_assoc, unpadded]
    exact (List.rdropWhile_concat_pos (· == equalsSign) _ _ hpad).trans ih

theorem getElem?_ne_equalsSign {body : List UInt8} (hbody : ∀ c ∈ body, c ∈ B64chars) (i : ℕ) :
    body[i]? ≠ some equalsSign := fun h =>
  ne_equalsSign_of_mem (hbody _ (List.mem_of_getElem? h)) rfl

/-- One padding more or less makes no difference. -/
theorem b64decodeFrom_append_equalsSign {body : List UInt8} (hbody : ∀ c ∈ body, c ∈ B64chars)
    (hthree : body.length % 4 = 3) :
    b64decodeFrom outside (body ++ [equalsSign]) = b64decodeFrom outside body := by
  have hlen : (body ++ [equalsSign]).length = body.length + 1 := List.length_append
  have hread (i : ℕ) (hi : i < body.length) :
      byteAt outside (body ++ [equalsSign]) i = byteAt outside body i := by
    rw [byteAt, byteAt, List.getD_eq_getElem?_getD, List.getElem?_append_left hi]
    rfl
  have hpad : byteAt outside (body ++ [equalsSign]) body.length = equalsSign :=
    byteAt_of_some List.getElem?_concat_length
  have hpad1 : pad1 outside (body ++ [equalsSign]) = true := by
    rw [pad1, hlen, Nat.add_sub_cancel, hpad, beq_self_eq_true, Bool.or_true]
  have hpad1' : pad1 outside body = true := pad1_of_ne (by omega)
  have hpad2 : pad2 outside (body ++ [equalsSign]) = true := by
    have hne : byteAt outside body (body.length - 1) ≠ equalsSign := fun h =>
      getElem?_ne_equalsSign hbody _ ((byteAt_eq_iff (by omega)).mp h)
    rw [pad2, hpad1, beforeLast_of_le (by omega), hlen,
      show body.length + 1 - 2 = body.length - 1 by omega, hread _ (by omega),
      bne_iff_ne.mpr hne, Bool.or_true, Bool.and_true]
  have hlast : last outside (body ++ [equalsSign]) = last outside body := by
    rw [last_eq, last_eq, hpad1, hpad1', hlen, Bool.toNat_true]
    omega
  have hend : last outside body + 2 < body.length := by
    rw [last_eq, hpad1', Bool.toNat_true]
    omega
  refine b64decodeFrom_congr (by omega) (by omega) (by rw [hpad1, hpad1'])
    (by rw [hpad2, pad2_of_three hthree]) hlast fun i hi => hread i ?_
  rw [hlast] at hi
  omega

/-- Without its padding a text is read back unless a single byte is left over: its two characters
are taken for three. -/
theorem unpadded_iff (outside : ℕ → UInt8) (x : List UInt8) :
    b64decodeFrom outside (unpadded (b64encode x)) = x ↔ x.length % 3 ≠ 1 := by
  obtain ⟨body, hbody, heq⟩ := b64encode_shape x
  have hback := b64decodeFrom_b64encode outside x
  have hlength := length_b64encode x
  rw [heq] at hback hlength ⊢
  rw [List.length_append, List.length_replicate] at hlength
  rw [unpadded_append hbody]
  have hmod : x.length % 3 < 3 := Nat.mod_lt _ (by decide)
  rcases (by omega : x.length % 3 = 0 ∨ x.length % 3 = 1 ∨ x.length % 3 = 2) with h | h | h
  · rw [h, List.replicate_zero, List.append_nil] at hback
    rw [h]
    exact iff_of_true hback (by decide)
  · have htwo : body.length % 4 = 2 := by omega
    have hpad1 : pad1 outside body = true := pad1_of_ne (by omega)
    have hpad2 : pad2 outside body = true := (pad2_of_two htwo).mpr (getElem?_ne_equalsSign hbody _)
    refine iff_of_false (fun hx => ?_) (fun hne => hne h)
    have hsize := length_b64decodeFrom outside (by omega : body.length ≠ 0)
    rw [hx, size, last_eq, hpad1, hpad2, Bool.toNat_true] at hsize
    omega
  · rw [h] at hback hlength
    rw [← b64decodeFrom_append_equalsSign hbody (by omega), h]
    exact iff_of_true hback (by decide)

/-- A single byte comes back as two. -/
theorem unpadded_single : b64decodeFrom (fun _ => 0) (unpadded (b64encode [65])) ≠ [65] := by
  decide

end BacktestEngine.Base64
