import AsciiPoker.Library.Framing
import Mathlib.Data.UInt
import Mathlib.Tactic.IntervalCases

/-
  The framing of packets (`packet_framing.h`,
  `packet_framing.cpp`, `network_limits.h`) on a host that
  keeps the low byte of a word first.

  Main declarations:
    * `toBigEndian`, `encodePacket`, `decodePacketLength`
    * `packetFraming`, `Sendable`
    * `Sendable.fits`, `mapM_encodePacket`
-/

------------------------------------------------------------
-- Byte Order
------------------------------------------------------------

namespace Poker

namespace Network

def MAX_PACKET_SIZE : UInt32 := 1024 * 1024

/- `to_big_endian`. -/
def toBigEndian
    (value : UInt32) : UInt32 :=
  ((value &&& 0x000000FF) <<< 24) |||
    ((value &&& 0x0000FF00) <<< 8) |||
    ((value &&& 0x00FF0000) >>> 8) |||
    ((value &&& 0xFF000000) >>> 24)

/- `from_big_endian`. -/
def fromBigEndian
    (value : UInt32) : UInt32 :=
  toBigEndian value

/- The bytes of a word as the host has them in memory. -/
def storeWord
    (value : UInt32) : List UInt8 :=
  [value.toUInt8, (value >>> 8).toUInt8,
    (value >>> 16).toUInt8, (value >>> 24).toUInt8]

/- The word that the host has at four bytes of memory. -/
def loadWord
    (bytes : List UInt8) : UInt32 :=
  (bytes.getD 0 0).toUInt32 |||
    ((bytes.getD 1 0).toUInt32 <<< 8) |||
    ((bytes.getD 2 0).toUInt32 <<< 16) |||
    ((bytes.getD 3 0).toUInt32 <<< 24)

/- A word is read as it was stored. -/
theorem loadWord_storeWord
    (value : UInt32) :
    loadWord (storeWord value) = value := by
  apply UInt32.toBitVec_inj.mp
  simp only [loadWord, storeWord, List.getD_cons_zero,
    List.getD_cons_succ, UInt32.toBitVec_or,
    UInt32.toBitVec_shiftLeft, UInt8.toBitVec_toUInt32,
    UInt32.toBitVec_toUInt8, UInt32.toBitVec_shiftRight,
    UInt32.toBitVec_ofNat, BitVec.ofNat_eq_ofNat,
    BitVec.reduceMod, BitVec.ushiftRight_eq',
    BitVec.toNat_ofNat, Nat.reducePow, Nat.reduceMod,
    BitVec.shiftLeft_eq']
  ext i hi
  interval_cases i <;> simp

/- Four bytes are stored as they were read. -/
theorem storeWord_loadWord
    (a b c d : UInt8) :
    storeWord (loadWord [a, b, c, d]) = [a, b, c, d] := by
  simp only [storeWord, List.cons.injEq, and_true,
    ← UInt8.toBitVec_inj]
  -- The low byte is settled here, the others bit by bit.
  simp [loadWord]
  refine ⟨?_, ?_, ?_⟩
  all_goals
    ext i hi
    interval_cases i <;> simp

/- The masks and shifts turn the bytes around. -/
theorem storeWord_toBigEndian
    (value : UInt32) :
    storeWord (toBigEndian value) =
      (storeWord value).reverse := by
  simp only [storeWord, List.reverse_cons,
    List.reverse_nil, List.nil_append, List.cons_append,
    List.cons.injEq, and_true, ← UInt8.toBitVec_inj]
  -- The bits of each byte, one by one.
  simp [toBigEndian]
  refine ⟨?_, ?_, ?_, ?_⟩
  all_goals
    ext i hi
    interval_cases i <;> simp

/- Turned around twice, the bytes are as they were. -/
theorem fromBigEndian_toBigEndian
    (value : UInt32) :
    fromBigEndian (toBigEndian value) = value := by
  have hStore :
      storeWord (fromBigEndian (toBigEndian value)) =
        storeWord value := by
    unfold fromBigEndian
    rw [storeWord_toBigEndian, storeWord_toBigEndian,
      List.reverse_reverse]
  rw [← loadWord_storeWord (fromBigEndian _), hStore,
    loadWord_storeWord]

------------------------------------------------------------
-- Packets
------------------------------------------------------------

/- `is_valid_packet_length`. -/
def isValidPacketLength
    (length : UInt32) : Prop :=
  0 < length ∧ length ≤ MAX_PACKET_SIZE

instance (length : UInt32) :
    Decidable (isValidPacketLength length) :=
  inferInstanceAs (Decidable (_ ∧ _))

/- The header that `encode_packet` writes for a length. -/
def encodeHeader
    (length : UInt32) : List UInt8 :=
  storeWord (toBigEndian length)

/- `encode_packet`; `none` is its `std::length_error`. -/
def encodePacket
    (body : List UInt8) : Option (List UInt8) :=
  if MAX_PACKET_SIZE.toNat < body.length then
    none
  else
    some (encodeHeader (UInt32.ofNat body.length) ++ body)

/- `decode_packet_length`; `none` where it returns false. -/
def decodePacketLength
    (headerBytes : List UInt8) : Option UInt32 :=
  let length := fromBigEndian (loadWord headerBytes)
  if isValidPacketLength length then
    some length
  else
    none

/- A length that is allowed is decoded as it was encoded. -/
theorem decodePacketLength_encodeHeader
    {length : UInt32} :
    decodePacketLength (encodeHeader length) =
      if isValidPacketLength length then
        some length
      else
        none := by
  unfold decodePacketLength encodeHeader
  rw [loadWord_storeWord, fromBigEndian_toBigEndian]

/- A header is the encoding of the length it is read as. -/
theorem encodeHeader_of_decodePacketLength
    {header : List UInt8}
    {length : UInt32}
    (hWidth : header.length = 4)
    (hDecode : decodePacketLength header = some length) :
    encodeHeader length = header := by
  unfold decodePacketLength at hDecode
  dsimp only at hDecode
  split at hDecode
  · rw [Option.some.injEq] at hDecode
    rw [← hDecode]
    unfold encodeHeader
    rcases header with _ | ⟨a, _ | ⟨b, _ | ⟨c, _ | ⟨d, rest⟩⟩⟩⟩
    · simp at hWidth
    · simp at hWidth
    · simp at hWidth
    · simp at hWidth
    · have hNil : rest = [] := by
        simpa using hWidth
      rw [hNil, fromBigEndian, storeWord_toBigEndian,
        storeWord_toBigEndian, List.reverse_reverse,
        storeWord_loadWord]
  · cases hDecode

/- A length that is read is allowed. -/
theorem isValidPacketLength_of_decode
    {header : List UInt8}
    {length : UInt32}
    (hDecode : decodePacketLength header = some length) :
    isValidPacketLength length := by
  unfold decodePacketLength at hDecode
  dsimp only at hDecode
  split at hDecode
  next hValid =>
    rw [Option.some.injEq] at hDecode
    rw [← hDecode]
    exact hValid
  next => cases hDecode

------------------------------------------------------------
-- The Format
------------------------------------------------------------

/- The packets as a format with lengths in front. -/
def packetFraming : Framing UInt8 where
  width := 4
  header := fun n => encodeHeader (UInt32.ofNat n)
  announced := fun header =>
    (decodePacketLength header).map UInt32.toNat
  header_length := fun _ => rfl
  header_announced := by
    intro header n hWidth hAnnounced
    rcases Option.map_eq_some_iff.mp hAnnounced with
      ⟨length, hDecode, rfl⟩
    rw [UInt32.ofNat_toNat]
    exact encodeHeader_of_decodePacketLength hWidth hDecode

/- The bodies that can be sent and are read again. -/
def Sendable
    (body : List UInt8) : Prop :=
  0 < body.length ∧ body.length ≤ MAX_PACKET_SIZE.toNat

/- A body that can be sent has a length that is read. -/
theorem Sendable.fits
    {body : List UInt8}
    (hSendable : Sendable body) :
    packetFraming.Fits body.length := by
  have hMax : MAX_PACKET_SIZE.toNat < 2 ^ 32 :=
    UInt32.toNat_lt _
  have hNat : (UInt32.ofNat body.length).toNat =
      body.length :=
    UInt32.toNat_ofNat_of_lt'
      (Nat.lt_of_le_of_lt hSendable.2 hMax)
  have hValid :
      isValidPacketLength (UInt32.ofNat body.length) := by
    unfold isValidPacketLength
    rw [UInt32.lt_iff_toNat_lt, UInt32.le_iff_toNat_le, hNat]
    exact hSendable
  change (decodePacketLength (encodeHeader _)).map _ = _
  rw [decodePacketLength_encodeHeader, if_pos hValid,
    Option.map_some, hNat]

/- A length that a header announces can be sent. -/
theorem sendable_of_announced
    {header body : List UInt8}
    (hAnnounced :
      packetFraming.announced header = some body.length) :
    Sendable body := by
  rcases Option.map_eq_some_iff.mp hAnnounced with
    ⟨length, hDecode, hLength⟩
  have hValid := isValidPacketLength_of_decode hDecode
  unfold isValidPacketLength at hValid
  rw [UInt32.lt_iff_toNat_lt, UInt32.le_iff_toNat_le, hLength]
    at hValid
  exact hValid

/- What can be sent is encoded as a packet of the format. -/
theorem Sendable.encodePacket_eq
    {body : List UInt8}
    (hSendable : Sendable body) :
    encodePacket body = some (packetFraming.packet body) := by
  unfold encodePacket
  rw [if_neg (Nat.not_lt.mpr hSendable.2)]
  rfl

/- Bodies that can be sent make up a stream of packets. -/
theorem mapM_encodePacket
    {bodies : List (List UInt8)}
    (hSendable : ∀ body ∈ bodies, Sendable body) :
    bodies.mapM encodePacket =
      some (bodies.map packetFraming.packet) := by
  induction bodies with
  | nil => rfl
  | cons body bodies ih =>
      have hTail := ih
        (fun b hb => hSendable b (List.mem_cons_of_mem _ hb))
      have hHead :=
        (hSendable body (by simp)).encodePacket_eq
      rw [List.mapM_cons, hHead, hTail]
      rfl

end Network

end Poker
