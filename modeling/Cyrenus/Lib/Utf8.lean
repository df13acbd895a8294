import Cyrenus.Lib.CString

/-!
# UTF-8

The bytes of a string are in UTF-8 when they are those of some characters one after the other.
Characters that are one byte stand for themselves, so they can be cut off at either end of a string.
-/

namespace Utf8

/-- The bytes of a string. -/
def bytes (s : CStr) : ByteArray := (s.map fun c => UInt8.ofNat c.toNat).toByteArray

/-- A string is in UTF-8. -/
def isUtf8 (s : CStr) : Bool := (bytes s).validateUTF8

/-- The bytes of a character. -/
def encode (c : Char) : CStr := (String.utf8EncodeChar c).map fun b => Char.ofNat b.toNat

/-- A byte that is a character. -/
def IsAscii (c : Char) : Prop := c.toNat < 0x80

instance (c : Char) : Decidable (IsAscii c) := inferInstanceAs (Decidable (_ < _))

/-- Bytes that are looked at one by one. -/
theorem isAscii_of_all {s : CStr} (h : s.all (fun c => decide (IsAscii c)) = true) :
    ∀ c ∈ s, IsAscii c :=
  fun c hc => of_decide_eq_true (List.all_eq_true.1 h c hc)

theorem length_encode_le (c : Char) : (encode c).length ≤ 4 := by
  rw [encode, List.length_map, String.length_utf8EncodeChar]
  exact c.utf8Size_le_four

theorem isUtf8_iff {s : CStr} : isUtf8 s = true ↔ (bytes s).IsValidUTF8 :=
  ByteArray.validateUTF8_eq_true_iff

theorem bytes_append (s t : CStr) : bytes (s ++ t) = bytes s ++ bytes t := by
  rw [bytes, List.map_append, List.toByteArray_append, bytes, bytes]

variable {c : Char} {s t : CStr}

theorem bytes_singleton (hc : IsAscii c) : bytes [c] = [c].utf8Encode := by
  have hsize : c.utf8Size = 1 := Char.utf8Size_eq_one_iff.2 (Nat.le_of_lt_succ hc)
  rw [List.utf8Encode_singleton, String.utf8EncodeChar_eq_singleton hsize]
  rfl

/-- **Characters of one byte at the start** change nothing. -/
theorem isUtf8_append_left (hs : ∀ c ∈ s, IsAscii c) : isUtf8 (s ++ t) = isUtf8 t := by
  induction s with
  | nil => rfl
  | cons c s ih =>
    rw [← ih fun c' hc' => hs c' (List.mem_cons_of_mem _ hc'), Bool.eq_iff_iff, isUtf8_iff,
      isUtf8_iff, ← List.singleton_append, List.append_assoc, bytes_append,
      bytes_singleton (hs c (List.mem_cons_self ..)),
      ByteArray.isValidUTF8_utf8Encode_singleton_append_iff]

theorem isUtf8_of_ascii (hs : ∀ c ∈ s, IsAscii c) : isUtf8 s = true := by
  rw [← List.append_nil s, isUtf8_append_left hs, isUtf8_iff]
  exact ByteArray.isValidUTF8_empty

/-- **Characters of one byte at the end** change nothing: no character ends inside of them. -/
theorem isUtf8_append_right (ht : ∀ c ∈ t, IsAscii c) : isUtf8 (s ++ t) = isUtf8 s := by
  cases t with
  | nil => rw [List.append_nil]
  | cons c t =>
    rw [Bool.eq_iff_iff, isUtf8_iff, isUtf8_iff, bytes_append]
    refine ⟨fun h => ?_, fun h => h.append (isUtf8_iff.1 (isUtf8_of_ascii ht))⟩
    have hc : IsAscii c := ht c (List.mem_cons_self ..)
    -- The first byte of the end starts a character, so what stands before it is whole characters.
    let str : String := ⟨bytes s ++ bytes (c :: t), h⟩
    have hcons : bytes (c :: t) = [c].utf8Encode ++ bytes t := by
      rw [← List.singleton_append, bytes_append, bytes_singleton hc]
    have hpos : 0 < [c].utf8Encode.size := by
      rw [← bytes_singleton hc]
      exact Nat.zero_lt_one
    have hvalid : String.Pos.Raw.IsValid str ⟨(bytes s).size⟩ := by
      refine String.Pos.Raw.isValid_iff_isUTF8FirstByte.2 (.inr ⟨?_, ?_⟩)
      · change (bytes s).size < (bytes s ++ bytes (c :: t)).size
        rw [hcons, ByteArray.size_append, ByteArray.size_append]
        omega
      · simp only [String.getUTF8Byte, str, hcons]
        rw [ByteArray.getElem_append_right (Nat.le_refl _),
          ByteArray.getElem_append_left (by omega)]
        exact List.isUTF8FirstByte_getElem_utf8Encode_singleton.2 (Nat.sub_self _)
    have hextract : (bytes s ++ bytes (c :: t)).extract 0 (bytes s).size = bytes s :=
      ByteArray.extract_append_eq_left rfl
    rw [← hextract]
    exact hvalid.isValidUTF8_extract_zero

end Utf8
