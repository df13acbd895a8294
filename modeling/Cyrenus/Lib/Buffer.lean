import Cyrenus.Lib.CString

/-!
# Buffers

A buffer is a number of bytes, which hold whatever was in that memory before. `strncpy n` overwrites
the first `n` of them, with the bytes of a string and, where it is shorter, with zeros. After a
string that is not shorter there is no zero among them, so what is read from the buffer as a string
goes on with what stood there before.
-/

/-- A number of bytes in memory. -/
structure Buffer (size : ℕ) where
  bytes : List Char
  length_bytes : bytes.length = size

namespace Buffer

open CStr (ofBytes)

variable {size : ℕ}

/-- A buffer of one byte, again and again. -/
def filled (size : ℕ) (c : Char) : Buffer size :=
  ⟨List.replicate size c, List.length_replicate ..⟩

/-- `strncpy`. -/
def strncpy (n : ℕ) (hn : n ≤ size) (src : CStr) (buf : Buffer size) : Buffer size where
  bytes := src.take n ++ List.replicate (n - src.length) '\x00' ++ buf.bytes.drop n
  length_bytes := by
    have hlen := buf.length_bytes
    simp only [List.length_append, List.length_take, List.length_replicate, List.length_drop]
    omega

/-- The string in a buffer; none when no byte of it is zero. -/
def text (buf : Buffer size) : Option CStr :=
  if '\x00' ∈ buf.bytes then some (ofBytes buf.bytes) else none

end Buffer

namespace CStr

/-- A string goes on after bytes that are not zero. -/
theorem ofBytes_append {s : CStr} (hs : '\x00' ∉ s) (rest : List Char) :
    ofBytes (s ++ rest) = s ++ ofBytes rest :=
  List.takeWhile_append_of_pos fun c hc => by
    rw [decide_eq_true_eq]
    rintro rfl
    exact hs hc

/-- A string ends with a zero. -/
theorem ofBytes_append_zero {s : CStr} (hs : '\x00' ∉ s) (rest : List Char) :
    ofBytes (s ++ '\x00' :: rest) = s := by
  rw [ofBytes_append hs, ofBytes, List.takeWhile_cons_of_neg (by simp), List.append_nil]

/-- A zero at the end adds nothing to a string. -/
theorem ofBytes_concat_zero (bytes : List Char) : ofBytes (bytes ++ ['\x00']) = ofBytes bytes := by
  rw [ofBytes, List.takeWhile_append]
  split
  · rename_i hlen
    have hall := (List.takeWhile_prefix (l := bytes) (· ≠ '\x00')).eq_of_length hlen
    rw [List.takeWhile_cons_of_neg (by simp), List.append_nil, ofBytes, hall]
  · rfl

/-- A string has no zero in it. -/
theorem zero_notMem_ofBytes (bytes : List Char) : '\x00' ∉ ofBytes bytes := by
  intro hmem
  have hne := List.all_eq_true.1 List.all_takeWhile _ hmem
  simp at hne

/-- A string ends at a zero at the latest. -/
theorem length_ofBytes_le {bytes : List Char} {i : ℕ} (h : bytes[i]? = some '\x00') :
    (ofBytes bytes).length ≤ i := by
  refine Nat.le_of_not_lt fun hlt => zero_notMem_ofBytes bytes ?_
  obtain ⟨rest, hrest⟩ := List.takeWhile_prefix (l := bytes) (· ≠ '\x00')
  have happ : (ofBytes bytes ++ rest)[i]? = some '\x00' := by rw [ofBytes, hrest, h]
  rw [List.getElem?_append_left hlt] at happ
  exact List.mem_of_getElem? happ

end CStr

namespace Buffer

open CStr (ofBytes)

variable {size n : ℕ} {src : CStr}

/-- What a copy leaves in a buffer starts with the bytes that it copies. -/
theorem bytes_strncpy (hn : n ≤ size) (src : CStr) (buf : Buffer size) :
    ∃ rest, (buf.strncpy n hn src).bytes = src.take n ++ rest :=
  ⟨_, List.append_assoc ..⟩

/-- **A string that is shorter than what is copied** is what the buffer then holds. -/
theorem text_strncpy (hn : n ≤ size) (hlt : src.length < n) (hsrc : '\x00' ∉ src)
    (buf : Buffer size) : (buf.strncpy n hn src).text = some src := by
  obtain ⟨k, hk⟩ : ∃ k, n - src.length = k + 1 := ⟨n - src.length - 1, by omega⟩
  have hbytes : (buf.strncpy n hn src).bytes =
      src ++ '\x00' :: (List.replicate k '\x00' ++ buf.bytes.drop n) := by
    simp only [strncpy, List.take_of_length_le (Nat.le_of_lt hlt), hk, List.replicate_succ,
      List.append_assoc, List.cons_append]
  rw [text, hbytes, CStr.ofBytes_append_zero hsrc, if_pos (by simp)]

/-- It is what is read, whatever is in memory behind the buffer. -/
theorem ofBytes_strncpy (hn : n ≤ size) (hlt : src.length < n) (hsrc : '\x00' ∉ src)
    (buf : Buffer size) (beyond : List Char) :
    ofBytes ((buf.strncpy n hn src).bytes ++ beyond) = src := by
  obtain ⟨k, hk⟩ : ∃ k, n - src.length = k + 1 := ⟨n - src.length - 1, by omega⟩
  have hbytes : (buf.strncpy n hn src).bytes =
      src.take n ++ List.replicate (n - src.length) '\x00' ++ buf.bytes.drop n := rfl
  rw [hbytes, List.take_of_length_le (Nat.le_of_lt hlt), hk, List.replicate_succ,
    List.append_assoc, List.append_assoc]
  exact CStr.ofBytes_append_zero hsrc _

/-- What is read after a string that is not shorter: its first bytes, what stood in the buffer
behind them, and what is in memory behind the buffer. -/
theorem ofBytes_strncpy_of_le (hn : n ≤ size) (hle : n ≤ src.length) (hsrc : '\x00' ∉ src)
    (buf : Buffer size) (beyond : List Char) :
    ofBytes ((buf.strncpy n hn src).bytes ++ beyond) =
      CStr.strncpy n src ++ ofBytes (buf.bytes.drop n ++ beyond) := by
  have hbytes : (buf.strncpy n hn src).bytes = src.take n ++ buf.bytes.drop n := by
    simp only [strncpy, Nat.sub_eq_zero_of_le hle, List.replicate_zero, List.append_nil]
  rw [hbytes, List.append_assoc]
  exact CStr.ofBytes_append (fun hmem => hsrc (List.mem_of_mem_take hmem)) _

/-- **When a copy that leaves out the last byte is cut there**: when the string is shorter, or the
last byte was zero. -/
theorem ofBytes_strncpy_eq_iff {src : CStr} (hsrc : '\x00' ∉ src) (buf : Buffer (n + 1))
    (beyond : List Char) :
    ofBytes ((buf.strncpy n (Nat.le_succ n) src).bytes ++ beyond) = CStr.strncpy n src ↔
      (n ≤ src.length → buf.bytes[n]? = some '\x00') := by
  rcases Nat.lt_or_ge src.length n with hlt | hle
  · rw [ofBytes_strncpy _ hlt hsrc, CStr.strncpy, List.take_of_length_le (Nat.le_of_lt hlt)]
    exact iff_of_true rfl fun hle => absurd hlt (Nat.not_lt.2 hle)
  · have hlen : n < buf.bytes.length := by
      rw [buf.length_bytes]
      exact Nat.lt_succ_self n
    have hdrop : buf.bytes.drop n = [buf.bytes[n]] := by
      rw [List.drop_eq_getElem_cons hlen, List.drop_eq_nil_of_le (Nat.le_of_eq buf.length_bytes)]
    rw [ofBytes_strncpy_of_le _ hle hsrc, List.append_right_eq_self, hdrop, List.singleton_append,
      ofBytes, List.getElem?_eq_getElem hlen, Option.some.injEq, forall_prop_of_true hle]
    by_cases hzero : buf.bytes[n] = '\x00'
    · rw [List.takeWhile_cons_of_neg (by simp [hzero])]
      exact iff_of_true rfl hzero
    · rw [List.takeWhile_cons_of_pos (by simp [hzero])]
      exact iff_of_false (List.cons_ne_nil _ _) hzero

/-- **A string that is not shorter** has no end in the buffer when no zero stood behind it. -/
theorem text_strncpy_filled (hn : n ≤ size) (hle : n ≤ src.length) (hsrc : '\x00' ∉ src) {c : Char}
    (hc : c ≠ '\x00') : ((filled size c).strncpy n hn src).text = none := by
  rw [text, if_neg]
  simp only [strncpy, filled, Nat.sub_eq_zero_of_le hle, List.replicate_zero, List.append_nil,
    List.drop_replicate, List.mem_append, List.mem_replicate, not_or, not_and]
  exact ⟨fun hmem => hsrc (List.mem_of_mem_take hmem), fun _ heq => hc heq.symm⟩

end Buffer
