import BacktestEngine.Library.Binary64Bits
import BacktestEngine.Library.WireFields

/-! # The deal packet

One account update travels in 256 bytes: four doubles, which are not a number when they are absent,
and twelve texts. Only the size of a packet is checked. What the producer wrote is read back, its
texts cut to their fields.
-/

namespace BacktestEngine

namespace DealPacket

open Binary64 WireFields

def kPacketSize : ℕ := 256

/-- A decoded update. -/
structure Deal where
  level : Option Binary64
  size : Option Binary64
  stopLevel : Option Binary64
  limitLevel : Option Binary64
  dealReference : String
  dealId : String
  dealIdOrigin : String
  epic : String
  direction : String
  status : String
  dealStatus : String
  currency : String
  channel : String
  expiry : String
  timestamp : String
  guaranteedStop : String
  deriving DecidableEq

def presentOrNullopt (value : Binary64) : Option Binary64 :=
  if value = .nan then none else some value

def doubleAt (bytes : List UInt8) (offset : ℕ) : Option Binary64 :=
  presentOrNullopt (ofBits (ofBytes (slice bytes offset 8)))

/-- A text up to its first zero, or to the end of its field. -/
def toString (bytes : List UInt8) (offset width : ℕ) : String :=
  textOf (trimmed (slice bytes offset width))

/-- The fields at the places of the overlay. -/
def decodeDeal (bytes : List UInt8) : Option Deal :=
  if bytes.length ≠ kPacketSize then none
  else some
    { level := doubleAt bytes 0
      size := doubleAt bytes 8
      stopLevel := doubleAt bytes 16
      limitLevel := doubleAt bytes 24
      dealReference := toString bytes 32 32
      dealId := toString bytes 64 32
      dealIdOrigin := toString bytes 96 32
      epic := toString bytes 128 32
      direction := toString bytes 160 8
      status := toString bytes 168 12
      dealStatus := toString bytes 180 12
      currency := toString bytes 192 4
      channel := toString bytes 196 16
      expiry := toString bytes 212 8
      timestamp := toString bytes 220 24
      guaranteedStop := toString bytes 244 8 }

/-! ## The producer -/

def putDouble (offset : ℕ) (value : Option Binary64) : Field :=
  ⟨offset, 8, toBytes 8 (toBits (value.getD .nan))⟩

/-- A zero is kept behind every text. -/
def putString (offset width : ℕ) (text : String) : Field :=
  ⟨offset, width, (bytesOf text).take (width - 1)⟩

def packetFields (deal : Deal) : List Field := [
  putDouble 0 deal.level,
  putDouble 8 deal.size,
  putDouble 16 deal.stopLevel,
  putDouble 24 deal.limitLevel,
  putString 32 32 deal.dealReference,
  putString 64 32 deal.dealId,
  putString 96 32 deal.dealIdOrigin,
  putString 128 32 deal.epic,
  putString 160 8 deal.direction,
  putString 168 12 deal.status,
  putString 180 12 deal.dealStatus,
  putString 192 4 deal.currency,
  putString 196 16 deal.channel,
  putString 212 8 deal.expiry,
  putString 220 24 deal.timestamp,
  putString 244 8 deal.guaranteedStop]

def makePacket (deal : Deal) : List UInt8 := written kPacketSize (packetFields deal)

/-! ## The round trip -/

/-- What is left of a text in a field of a width. -/
def cut (width : ℕ) (text : String) : String := String.ofList (text.toList.take (width - 1))

def Deal.truncated (deal : Deal) : Deal :=
  { deal with
    dealReference := cut 32 deal.dealReference
    dealId := cut 32 deal.dealId
    dealIdOrigin := cut 32 deal.dealIdOrigin
    epic := cut 32 deal.epic
    direction := cut 8 deal.direction
    status := cut 12 deal.status
    dealStatus := cut 12 deal.dealStatus
    currency := cut 4 deal.currency
    channel := cut 16 deal.channel
    expiry := cut 8 deal.expiry
    timestamp := cut 24 deal.timestamp
    guaranteedStop := cut 8 deal.guaranteedStop }

def Deal.numbers (deal : Deal) : List (Option Binary64) :=
  [deal.level, deal.size, deal.stopLevel, deal.limitLevel]

def Deal.texts (deal : Deal) : List String :=
  [deal.dealReference, deal.dealId, deal.dealIdOrigin, deal.epic, deal.direction, deal.status,
    deal.dealStatus, deal.currency, deal.channel, deal.expiry, deal.timestamp, deal.guaranteedStop]

/-- What a producer may send: doubles that are numbers, and texts of bytes other than zero. -/
structure Deal.Sendable (deal : Deal) : Prop where
  numbers : ∀ number ∈ deal.numbers, ∀ x ∈ number, Representable x ∧ x ≠ .nan
  texts : ∀ text ∈ deal.texts, Plain text

section Fields

variable {packet : List UInt8} {offset width : ℕ}

theorem doubleAt_of_slice {value : Option Binary64}
    (h : slice packet offset 8 = (putDouble offset value).content)
    (hvalue : ∀ x ∈ value, Representable x ∧ x ≠ .nan) : doubleAt packet offset = value := by
  have hdouble : Representable (value.getD .nan) := by
    cases value with
    | none => trivial
    | some x => exact (hvalue x rfl).1
  rw [doubleAt, h, putDouble, ofBytes_toBytes (toBits_lt hdouble), ofBits_toBits hdouble]
  cases value with
  | none => rfl
  | some x => exact if_neg (hvalue x rfl).2

theorem cut_plain {text : String} (h : Plain text) : Plain (cut width text) := by
  intro c hc
  rw [cut, String.toList_ofList] at hc
  exact h c (List.mem_of_mem_take hc)

theorem toString_of_slice {text : String}
    (h : slice packet offset width = (putString offset width text).content ++
      List.replicate (width - (putString offset width text).content.length) 0)
    (htext : Plain text) : toString packet offset width = cut width text := by
  have hcut : (bytesOf text).take (width - 1) = bytesOf (cut width text) := by
    simp [bytesOf, cut]
  rw [putString, hcut] at h
  rw [toString, h, trimmed_append_zeros (zero_not_mem_bytesOf (cut_plain htext)),
    textOf_bytesOf (cut_plain htext)]

end Fields

section Packet

variable {deal : Deal}

theorem packetFields_fit : ∀ field ∈ packetFields deal, field.Fits kPacketSize := by
  simp [packetFields, putDouble, putString, Field.Fits, kPacketSize]

theorem packetFields_apart : (packetFields deal).Pairwise Field.Apart := by
  simp [packetFields, putDouble, putString, Field.Apart]

/-- What the producer sent is decoded, with its texts cut to their fields. -/
theorem decodeDeal_makePacket (h : deal.Sendable) :
    decodeDeal (makePacket deal) = some deal.truncated := by
  have hsize : (makePacket deal).length = kPacketSize := length_written packetFields_fit
  have hslice : ∀ field ∈ packetFields deal,
      slice (makePacket deal) field.offset field.width =
        field.content ++ List.replicate (field.width - field.content.length) 0 := fun _ hfield =>
    slice_written packetFields_fit packetFields_apart hfield
  have hdouble {offset : ℕ} {value : Option Binary64}
      (hfield : putDouble offset value ∈ packetFields deal) (hmem : value ∈ deal.numbers) :
      doubleAt (makePacket deal) offset = value := by
    apply doubleAt_of_slice _ (h.numbers value hmem)
    have hbytes := hslice _ hfield
    simp only [putDouble, length_toBytes, Nat.sub_self, List.replicate_zero,
      List.append_nil] at hbytes
    exact hbytes
  have htext {offset width : ℕ} {text : String}
      (hfield : putString offset width text ∈ packetFields deal) (hmem : text ∈ deal.texts) :
      toString (makePacket deal) offset width = cut width text :=
    toString_of_slice (hslice _ hfield) (h.texts text hmem)
  rw [decodeDeal, if_neg (not_not.mpr hsize)]
  simp only [Option.some.injEq, Deal.truncated, Deal.mk.injEq]
  refine ⟨hdouble ?_ ?_, hdouble ?_ ?_, hdouble ?_ ?_, hdouble ?_ ?_, htext ?_ ?_, htext ?_ ?_,
    htext ?_ ?_, htext ?_ ?_, htext ?_ ?_, htext ?_ ?_, htext ?_ ?_, htext ?_ ?_, htext ?_ ?_,
    htext ?_ ?_, htext ?_ ?_, htext ?_ ?_⟩ <;>
    simp only [packetFields, Deal.numbers, Deal.texts, List.mem_cons, true_or, or_true]

theorem plain_textOf {bytes : List UInt8} (h : (0 : UInt8) ∉ bytes) : Plain (textOf bytes) := by
  intro c hc
  rw [textOf, String.toList_ofList] at hc
  obtain ⟨b, hb, rfl⟩ := List.mem_map.mp hc
  have hlt : b.toNat < 256 := b.toNat_lt
  have hvalid : (Char.ofNat b.toNat).toNat = b.toNat := by
    rw [Char.ofNat, dif_pos (by unfold Nat.isValidChar; omega)]
    rfl
  have hne : b.toNat ≠ 0 := by
    intro hzero
    have hbyte : b = 0 := UInt8.toNat_inj.mp (hzero.trans rfl)
    exact h (hbyte ▸ hb)
  rw [hvalid]
  omega

/-- Whatever is decoded may be sent. -/
theorem sendable_of_decodeDeal {bytes : List UInt8} (h : decodeDeal bytes = some deal) :
    deal.Sendable := by
  unfold decodeDeal at h
  split_ifs at h
  cases h
  have hdouble (offset : ℕ) : ∀ x ∈ doubleAt bytes offset, Representable x ∧ x ≠ .nan := by
    intro x hx
    unfold doubleAt presentOrNullopt at hx
    split_ifs at hx with hnan
    · cases hx
    · cases hx
      exact ⟨representable_ofBits _, hnan⟩
  have htext (offset width : ℕ) : Plain (toString bytes offset width) :=
    plain_textOf (zero_not_mem_trimmed _)
  constructor
  · simp only [Deal.numbers, List.forall_mem_cons]
    exact ⟨hdouble 0, hdouble 8, hdouble 16, hdouble 24, fun _ h => absurd h List.not_mem_nil⟩
  · simp only [Deal.texts, List.forall_mem_cons]
    exact ⟨htext _ _, htext _ _, htext _ _, htext _ _, htext _ _, htext _ _, htext _ _, htext _ _,
      htext _ _, htext _ _, htext _ _, htext _ _, fun _ h => absurd h List.not_mem_nil⟩

end Packet

/-- What a producer may send arrives with its texts cut to their fields, and whatever arrives may be
sent on. -/
theorem deal_survives_wire :
    (∀ deal : Deal, deal.Sendable → decodeDeal (makePacket deal) = some deal.truncated) ∧
      ∀ bytes deal, decodeDeal bytes = some deal →
        decodeDeal (makePacket deal) = some deal.truncated :=
  ⟨fun _ h => decodeDeal_makePacket h,
    fun _ _ h => decodeDeal_makePacket (sendable_of_decodeDeal h)⟩

end DealPacket

end BacktestEngine
