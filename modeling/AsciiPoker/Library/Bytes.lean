import Mathlib.Data.String.Defs

/-
  The bytes of a text.

  Main declarations:
    * `Bytes.toList_eq`
    * `Bytes.utf8Encode_of_ascii`
-/

namespace Bytes

/- What is read so far, and then the bytes from `i` on. -/
theorem toList_loop
    (bytes : ByteArray)
    (i : Nat)
    (read : List UInt8) :
    ByteArray.toList.loop bytes i read =
      read.reverse ++ bytes.data.toList.drop i := by
  induction i, read using ByteArray.toList.loop.induct bytes with
  | case1 i read hLess ih =>
      have hAt : i < bytes.data.toList.length := hLess
      have hByte : bytes.get! i = bytes.data.toList[i] :=
        getElem!_pos bytes.data i hLess
      rw [ByteArray.toList.loop, if_pos hLess, ih,
        List.drop_eq_getElem_cons hAt, List.reverse_cons,
        List.append_assoc, hByte]
      rfl
  | case2 i read hEnd =>
      rw [ByteArray.toList.loop, if_neg hEnd,
        List.drop_eq_nil_of_le (Nat.le_of_not_lt hEnd),
        List.append_nil]

theorem toList_eq
    (bytes : ByteArray) :
    bytes.toList = bytes.data.toList :=
  toList_loop bytes 0 []

/- An ASCII text has a byte for each character. -/
theorem utf8Encode_of_ascii
    {text : List Char}
    (hAscii : ∀ c ∈ text, c.toNat < 128) :
    text.utf8Encode.toList =
      text.map fun c => UInt8.ofNat c.toNat := by
  rw [toList_eq]
  induction text with
  | nil => rfl
  | cons c text ih =>
      rw [List.forall_mem_cons] at hAscii
      have hSize : c.utf8Size = 1 := by
        rw [Char.utf8Size_eq_one_iff]
        exact UInt32.le_iff_toNat_le.mpr
          (Nat.le_of_lt_succ hAscii.1)
      rw [List.utf8Encode_cons, List.utf8Encode_singleton,
        String.utf8EncodeChar_eq_singleton hSize,
        ByteArray.data_append, Array.toList_append,
        ih hAscii.2]
      rfl

end Bytes
