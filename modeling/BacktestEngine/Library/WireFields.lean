import Mathlib.Algebra.Order.Ring.Nat
import Mathlib.Data.List.TakeDrop
import Mathlib.Data.List.TakeWhile
import Mathlib.Tactic.Positivity
import Mathlib.Tactic.Ring
import Mathlib.Tactic.Zify

/-! # Fields of a fixed layout

A packet is a list of bytes in which every field has its offset and its width. Numbers are written
with the lowest byte first, and a text is followed by zeros. Fields that do not overlap are read
back as they were written.
-/

namespace WireFields

/-! ## Numbers -/

/-- So many bytes of a number, the lowest first. -/
def toBytes : ℕ → ℕ → List UInt8
  | 0, _ => []
  | width + 1, n => UInt8.ofNat (n % 256) :: toBytes width (n / 256)

def ofBytes : List UInt8 → ℕ
  | [] => 0
  | b :: bytes => b.toNat + 256 * ofBytes bytes

/-- The signed number of so many bytes, in two's complement. -/
def toSigned (width n : ℕ) : ℤ := if 2 * n < 256 ^ width then n else n - 256 ^ width

def ofSigned (width : ℕ) (z : ℤ) : ℕ := (z % 256 ^ width).toNat

@[simp] theorem length_toBytes (width n : ℕ) : (toBytes width n).length = width := by
  induction width generalizing n with
  | zero => rfl
  | succ width ih => simp [toBytes, ih]

theorem ofBytes_lt (bytes : List UInt8) : ofBytes bytes < 256 ^ bytes.length := by
  induction bytes with
  | nil => simp [ofBytes]
  | cons b bytes ih =>
    have hb : b.toNat < 256 := b.toNat_lt
    rw [ofBytes, List.length_cons, pow_succ]
    omega

theorem ofBytes_toBytes {width n : ℕ} (h : n < 256 ^ width) : ofBytes (toBytes width n) = n := by
  induction width generalizing n with
  | zero =>
    rw [pow_zero, Nat.lt_one_iff] at h
    simp [toBytes, ofBytes, h]
  | succ width ih =>
    have hlow : (UInt8.ofNat (n % 256)).toNat = n % 256 := by
      rw [UInt8.toNat_ofNat']
      exact Nat.mod_eq_of_lt (Nat.mod_lt n (by decide))
    have hhigh : n / 256 < 256 ^ width := by
      apply Nat.div_lt_of_lt_mul
      rwa [pow_succ, mul_comm] at h
    rw [toBytes, ofBytes, hlow, ih hhigh]
    omega

theorem ofSigned_lt (width : ℕ) (z : ℤ) : ofSigned width z < 256 ^ width := by
  have hpos : (0 : ℤ) < 256 ^ width := by positivity
  have hlt := Int.emod_lt_of_pos z hpos
  have hnonneg := Int.emod_nonneg z hpos.ne'
  unfold ofSigned
  zify
  rwa [Int.toNat_of_nonneg hnonneg]

theorem toSigned_ofSigned {width : ℕ} {z : ℤ} (hlow : -256 ^ width ≤ 2 * z)
    (hhigh : 2 * z < 256 ^ width) : toSigned width (ofSigned width z) = z := by
  have hpos : (0 : ℤ) < 256 ^ width := by positivity
  unfold toSigned ofSigned
  rcases le_or_gt 0 z with hz | hz
  · have hmod : z % 256 ^ width = z := Int.emod_eq_of_lt hz (by omega)
    rw [hmod, if_pos (by zify; omega)]
    exact Int.toNat_of_nonneg hz
  · have hmod : z % 256 ^ width = z + 256 ^ width := by
      rw [← Int.add_emod_right]
      exact Int.emod_eq_of_lt (by omega) (by omega)
    rw [hmod, if_neg (by zify; omega), Int.toNat_of_nonneg (by omega)]
    ring

/-! ## Texts -/

/-- The bytes before the first zero. -/
def trimmed (bytes : List UInt8) : List UInt8 := bytes.takeWhile (· ≠ 0)

theorem trimmed_append_zeros {text : List UInt8} (h : (0 : UInt8) ∉ text) (n : ℕ) :
    trimmed (text ++ List.replicate n 0) = text := by
  have htext : ∀ b ∈ text, decide (b ≠ 0) = true := by
    intro b hb
    rw [decide_eq_true_eq]
    rintro rfl
    exact h hb
  rw [trimmed, List.takeWhile_append_of_pos htext]
  cases n with
  | zero => simp
  | succ n => simp [List.replicate_succ]

theorem zero_not_mem_trimmed (bytes : List UInt8) : (0 : UInt8) ∉ trimmed bytes := by
  intro h
  simpa using List.mem_takeWhile_imp h

theorem length_trimmed_le (bytes : List UInt8) : (trimmed bytes).length ≤ bytes.length :=
  (List.takeWhile_sublist _).length_le

/-- A text whose characters are single bytes. -/
def textOf (bytes : List UInt8) : String := String.ofList (bytes.map fun b => Char.ofNat b.toNat)

def bytesOf (text : String) : List UInt8 := text.toList.map fun c => UInt8.ofNat c.toNat

/-- Bytes make up the text, none of them zero. -/
def Plain (text : String) : Prop := ∀ c ∈ text.toList, 0 < c.toNat ∧ c.toNat < 256

instance (text : String) : Decidable (Plain text) :=
  List.decidableBAll (fun c : Char => 0 < c.toNat ∧ c.toNat < 256) text.toList

@[simp] theorem length_bytesOf (text : String) : (bytesOf text).length = text.length := by
  rw [bytesOf, List.length_map, String.length_toList]

theorem textOf_bytesOf {text : String} (h : Plain text) : textOf (bytesOf text) = text := by
  apply String.toList_injective
  rw [textOf, bytesOf, String.toList_ofList, List.map_map]
  calc text.toList.map _ = text.toList.map id := List.map_congr_left fun c hc => by
        have hbyte : (UInt8.ofNat c.toNat).toNat = c.toNat := by
          rw [UInt8.toNat_ofNat']
          exact Nat.mod_eq_of_lt (h c hc).2
        simp [hbyte]
    _ = text.toList := List.map_id _

theorem zero_not_mem_bytesOf {text : String} (h : Plain text) : (0 : UInt8) ∉ bytesOf text := by
  intro hmem
  obtain ⟨c, hc, hzero⟩ := List.mem_map.mp hmem
  have hbyte : (UInt8.ofNat c.toNat).toNat = c.toNat := by
    rw [UInt8.toNat_ofNat']
    exact Nat.mod_eq_of_lt (h c hc).2
  rw [hzero] at hbyte
  have hpos := (h c hc).1
  rw [← hbyte] at hpos
  exact absurd hpos (by decide)

/-! ## Layout -/

/-- The bytes of a field. -/
def slice (packet : List UInt8) (offset width : ℕ) : List UInt8 := (packet.drop offset).take width

/-- The packet with other bytes from an offset on. -/
def put (packet : List UInt8) (offset : ℕ) (raw : List UInt8) : List UInt8 :=
  packet.take offset ++ raw ++ packet.drop (offset + raw.length)

variable {packet raw : List UInt8} {offset width : ℕ}

theorem length_slice (h : offset + width ≤ packet.length) :
    (slice packet offset width).length = width := by
  simp only [slice, List.length_take, List.length_drop]
  omega

theorem length_put (h : offset + raw.length ≤ packet.length) :
    (put packet offset raw).length = packet.length := by
  simp only [put, List.length_append, List.length_take, List.length_drop]
  omega

theorem getElem?_put (h : offset + raw.length ≤ packet.length) (i : ℕ) :
    (put packet offset raw)[i]? =
      if offset ≤ i ∧ i < offset + raw.length then raw[i - offset]? else packet[i]? := by
  have htake : (packet.take offset).length = offset := by
    rw [List.length_take]
    omega
  unfold put
  rw [List.getElem?_append, List.getElem?_append, List.length_append, htake]
  by_cases hlow : i < offset
  · rw [if_pos (by omega), if_pos hlow, if_neg (by omega), List.getElem?_take_of_lt hlow]
  · by_cases hhigh : i < offset + raw.length
    · rw [if_pos hhigh, if_neg hlow, if_pos (by omega)]
    · rw [if_neg hhigh, if_neg (by omega), List.getElem?_drop]
      congr 1
      omega

theorem getElem?_slice (i : ℕ) :
    (slice packet offset width)[i]? = if i < width then packet[offset + i]? else none := by
  rw [slice, List.getElem?_take]
  split_ifs
  · rw [List.getElem?_drop]
  · rfl

/-- What is written beside a field leaves it as it is. -/
theorem slice_put_of_disjoint {offset' : ℕ} (h : offset + raw.length ≤ packet.length)
    (hdisjoint : offset + raw.length ≤ offset' ∨ offset' + width ≤ offset) :
    slice (put packet offset raw) offset' width = slice packet offset' width := by
  apply List.ext_getElem?
  intro i
  rw [getElem?_slice, getElem?_slice]
  split_ifs with hi
  · rw [getElem?_put h, if_neg (by omega)]
  · rfl

/-- What is written into a field stands at its front. -/
theorem slice_put (h : offset + raw.length ≤ packet.length) (hraw : raw.length ≤ width) :
    slice (put packet offset raw) offset width =
      raw ++ slice packet (offset + raw.length) (width - raw.length) := by
  apply List.ext_getElem?
  intro i
  rw [getElem?_slice, List.getElem?_append, getElem?_slice]
  by_cases hin : i < raw.length
  · rw [if_pos (by omega), if_pos hin, getElem?_put h, if_pos (by omega)]
    congr 1
    omega
  · rw [if_neg hin]
    by_cases hi : i < width
    · rw [if_pos hi, if_pos (by omega), getElem?_put h, if_neg (by omega)]
      congr 1
      omega
    · rw [if_neg hi, if_neg (by omega)]

theorem slice_zeros {n : ℕ} (h : offset + width ≤ n) :
    slice (List.replicate n 0) offset width = List.replicate width 0 := by
  rw [slice, List.drop_replicate, List.take_replicate]
  congr 1
  omega

/-- A field and what is written into it. -/
structure Field where
  offset : ℕ
  width : ℕ
  content : List UInt8

/-- The fields one after the other, into a packet of zeros. -/
def written (size : ℕ) (fields : List Field) : List UInt8 :=
  fields.foldl (fun packet field => put packet field.offset field.content)
    (List.replicate size 0)

def Field.Fits (size : ℕ) (field : Field) : Prop :=
  field.content.length ≤ field.width ∧ field.offset + field.width ≤ size

def Field.Apart (field field' : Field) : Prop :=
  field.offset + field.width ≤ field'.offset ∨ field'.offset + field'.width ≤ field.offset

theorem written_concat (size : ℕ) (fields : List Field) (field : Field) :
    written size (fields ++ [field]) = put (written size fields) field.offset field.content := by
  simp [written]

theorem length_written {size : ℕ} {fields : List Field} (h : ∀ field ∈ fields, field.Fits size) :
    (written size fields).length = size := by
  induction fields using List.reverseRecOn with
  | nil => simp [written]
  | append_singleton fields field ih =>
    obtain ⟨hcontent, hend⟩ := h field (by simp)
    have hsize := ih fun field' hfield' => h field' (by simp [hfield'])
    rw [written_concat, length_put (by omega), hsize]

/-- A field that nothing was written into is zeros. -/
theorem slice_written_of_apart {size : ℕ} {fields : List Field} {field : Field}
    (h : ∀ field' ∈ fields, field'.Fits size ∧ field'.Apart field)
    (hend : field.offset + field.width ≤ size) :
    ∀ start count, field.offset ≤ start → start + count ≤ field.offset + field.width →
      slice (written size fields) start count = List.replicate count 0 := by
  induction fields using List.reverseRecOn with
  | nil =>
    intro start count _ hcount
    exact slice_zeros (by omega)
  | append_singleton fields field' ih =>
    intro start count hstart hcount
    obtain ⟨⟨hcontent, hend'⟩, hapart⟩ := h field' (by simp)
    have hbefore : ∀ field' ∈ fields, field'.Fits size ∧ field'.Apart field := fun f hf =>
      h f (by simp [hf])
    have hsize := length_written fun f hf => (hbefore f hf).1
    rw [written_concat, slice_put_of_disjoint (by omega), ih hbefore start count hstart hcount]
    rcases hapart with hapart | hapart <;> omega

/-- Fields that lie apart read back as what was written, and zeros behind it. -/
theorem slice_written {size : ℕ} {fields : List Field} (hfits : ∀ field ∈ fields, field.Fits size)
    (hapart : fields.Pairwise Field.Apart) {field : Field} (hmem : field ∈ fields) :
    slice (written size fields) field.offset field.width =
      field.content ++ List.replicate (field.width - field.content.length) 0 := by
  induction fields using List.reverseRecOn with
  | nil => cases hmem
  | append_singleton fields last ih =>
    obtain ⟨hcontent, hend⟩ := hfits last (by simp)
    have hfits' : ∀ field ∈ fields, field.Fits size := fun f hf => hfits f (by simp [hf])
    have hsize := length_written hfits'
    obtain ⟨hfields, -, hcross⟩ := List.pairwise_append.mp hapart
    rw [written_concat]
    rcases List.mem_append.mp hmem with hmem | hmem
    · have hlast := hcross field hmem last (by simp)
      rw [slice_put_of_disjoint (by omega), ih hfits' hfields hmem]
      rcases hlast with hlast | hlast <;> omega
    · obtain rfl := List.mem_singleton.mp hmem
      have hrest := slice_written_of_apart (fun f hf => ⟨hfits' f hf, hcross f hf field (by simp)⟩)
        hend (field.offset + field.content.length) (field.width - field.content.length)
        (by omega) (by omega)
      rw [slice_put (by omega) hcontent, hrest]

end WireFields
