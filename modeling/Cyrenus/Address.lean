import Cyrenus.Common
import Cyrenus.Lib.CString
import Mathlib.Logic.Function.Basic
import Mathlib.Tactic.SplitIfs

/-!
# IPv4 addresses

An address is the four numbers of its dotted form, which are also its four bytes in memory. The
word both programs compare is the one a little-endian machine loads from these bytes
(`Quad.word`); `inet_pton` reads the bytes from the dotted form.
-/

namespace Cyrenus

/-- The four bytes of an IPv4 address, in network order. -/
structure Quad where
  a : U8
  b : U8
  c : U8
  d : U8
  deriving DecidableEq, Repr

/-! ## Words in memory -/

/-- The word a little-endian machine loads from two bytes. -/
def le16 (lo hi : U8) : U16 := lo.setWidth 16 ||| hi.setWidth 16 <<< 8

/-- The word that two bytes in network order stand for. -/
def be16 (hi lo : U8) : U16 := hi.setWidth 16 <<< 8 ||| lo.setWidth 16

/-- The word a little-endian machine loads from the bytes of an address. -/
def Quad.word (q : Quad) : U32 :=
  (le16 q.a q.b).setWidth 32 ||| (le16 q.c q.d).setWidth 32 <<< 16

/-- Loading two bytes and swapping them is reading them in network order. -/
@[simp] theorem bpfNtohs_le16 (hi lo : U8) : bpfNtohs (le16 hi lo) = be16 hi lo := by
  apply BitVec.eq_of_getLsbD_eq
  intro i _
  simp only [bpfNtohs, swap16, le16, be16, BitVec.getLsbD_or, BitVec.getLsbD_shiftLeft,
    BitVec.getLsbD_ushiftRight, BitVec.getLsbD_setWidth]
  rcases Nat.lt_or_ge i 8 with h | h
  · simp [h, show i < 16 by omega, show 8 + i < 16 by omega]
  · have hlo : BitVec.getLsbD lo i = false := BitVec.getLsbD_of_ge lo _ h
    simp [Nat.not_lt.2 h, hlo, show i - 8 < 8 by omega]

/-- Two halves can be told from the word they make. -/
theorem halves_inj {n : ℕ} {lo hi lo' hi' : BitVec n}
    (h : lo.setWidth (n + n) ||| hi.setWidth (n + n) <<< n =
      lo'.setWidth (n + n) ||| hi'.setWidth (n + n) <<< n) : lo = lo' ∧ hi = hi' := by
  have hbit (i : ℕ) := congrArg (BitVec.getLsbD · i) h
  simp only [BitVec.getLsbD_or, BitVec.getLsbD_shiftLeft, BitVec.getLsbD_setWidth] at hbit
  constructor
  · refine BitVec.eq_of_getLsbD_eq fun i hi => ?_
    simpa [hi, show i < n + n by omega] using hbit i
  · refine BitVec.eq_of_getLsbD_eq fun i hi => ?_
    simpa [hi, show i < n + n by omega, show ¬ n + i < n by omega] using hbit (n + i)

theorem le16_inj {lo hi lo' hi' : U8} (h : le16 lo hi = le16 lo' hi') : lo = lo' ∧ hi = hi' :=
  halves_inj h

/-- Different addresses are different words. -/
theorem Quad.word_injective : Function.Injective Quad.word := by
  rintro ⟨a, b, c, d⟩ ⟨a', b', c', d'⟩ h
  obtain ⟨hab, hcd⟩ := halves_inj (n := 16) h
  obtain ⟨rfl, rfl⟩ := le16_inj hab
  obtain ⟨rfl, rfl⟩ := le16_inj hcd
  rfl

/-- The bytes of a word in memory. -/
def Quad.ofWord (w : U32) : Quad :=
  ⟨w.setWidth 8, (w >>> 8).setWidth 8, (w >>> 16).setWidth 8, (w >>> 24).setWidth 8⟩

@[simp] theorem Quad.word_ofWord (w : U32) : (Quad.ofWord w).word = w := by
  apply BitVec.eq_of_getLsbD_eq
  intro i hi
  simp only [Quad.word, Quad.ofWord, le16, BitVec.getLsbD_or, BitVec.getLsbD_shiftLeft,
    BitVec.getLsbD_setWidth, BitVec.getLsbD_ushiftRight]
  rcases Nat.lt_or_ge i 16 with h16 | h16
  · rcases Nat.lt_or_ge i 8 with h8 | h8
    · simp [hi, h16, h8]
    · simp [hi, h16, Nat.not_lt.2 h8, show i - 8 < 16 by omega, show i - 8 < 8 by omega,
        show 8 + (i - 8) = i by omega]
  · rcases Nat.lt_or_ge i 24 with h24 | h24
    · simp [hi, Nat.not_lt.2 h16, show i - 16 < 32 by omega, show i - 16 < 16 by omega,
        show i - 16 < 8 by omega, show 16 + (i - 16) = i by omega]
    · simp [hi, Nat.not_lt.2 h16, show i - 16 < 32 by omega, show i - 16 < 16 by omega,
        show ¬ i - 16 < 8 by omega, show i - 16 - 8 < 16 by omega, show i - 16 - 8 < 8 by omega,
        show 24 + (i - 16 - 8) = i by omega]

/-! ## The dotted form -/

/-- A number of the dotted form: digits without a leading zero, at most 255. -/
def octet (s : CStr) : Option U8 :=
  if s ≠ [] ∧ s.all Char.isDigit ∧ (s.head? = some '0' → s.length = 1) ∧ CStr.digits s ≤ 255 then
    some (BitVec.ofNat 8 (CStr.digits s))
  else none

/-- `inet_pton`: four numbers with dots between them. -/
def inetPton (s : CStr) : Option Quad :=
  match s.splitOn '.' with
  | [a, b, c, d] =>
    match octet a, octet b, octet c, octet d with
    | some a, some b, some c, some d => some ⟨a, b, c, d⟩
    | _, _, _, _ => none
  | _ => none

example : inetPton "192.168.1.20".toList = some ⟨192, 168, 1, 20⟩ := by decide +kernel

/-- The decimal form of a number. -/
def decimal (n : ℕ) : CStr := Nat.toDigits 10 n

/-- `inet_ntop` and `inet_ntoa`: the dotted form of the address whose bytes a little-endian machine
loads as this word. -/
def inetNtop (addr : U32) : CStr :=
  decimal (addr &&& 0xff).toNat ++ '.' :: decimal (addr >>> 8 &&& 0xff).toNat ++
    '.' :: decimal (addr >>> 16 &&& 0xff).toNat ++ '.' :: decimal (addr >>> 24).toNat

example : inetNtop (Quad.word ⟨192, 168, 1, 20⟩) = "192.168.1.20".toList := by decide +kernel

theorem isNumeral_decimal (n : ℕ) : CStr.IsNumeral (decimal n) where
  ne_nil := Nat.toDigits_ne_nil
  isDigit _ h := Nat.isDigit_of_mem_toDigits (by decide) (by decide) h

theorem digits_decimal (n : ℕ) : CStr.digits (decimal n) = n := by
  rw [CStr.digits, (isNumeral_decimal n).takeWhile_self]
  exact Nat.ofDigitChars_ten_toDigits

/-- What a character of the dotted form can be. -/
theorem not_mem_decimal {c : Char} (h : c.isDigit = false) (n : ℕ) : c ∉ decimal n := by
  intro hmem
  rw [(isNumeral_decimal n).isDigit c hmem] at h
  cases h

theorem octet_decimal (b : U8) : octet (decimal b.toNat) = some b := by
  have hall : ∀ n < 256, octet (decimal n) = some (BitVec.ofNat 8 n) := by decide +kernel
  rw [hall _ b.isLt, BitVec.ofNat_toNat, BitVec.setWidth_eq]

/-- The dotted form of some bytes. -/
def Quad.dotted (q : Quad) : CStr :=
  ['.'].intercalate [decimal q.a.toNat, decimal q.b.toNat, decimal q.c.toNat, decimal q.d.toNat]

theorem inetNtop_eq (w : U32) : inetNtop w = (Quad.ofWord w).dotted := by
  have hlow : ∀ x : U32, (x &&& 0xff).toNat = (x.setWidth 8).toNat := fun x => by
    rw [BitVec.toNat_and, BitVec.toNat_setWidth]
    exact Nat.and_two_pow_sub_one_eq_mod x.toNat 8
  have htop : (w >>> 24).toNat = ((w >>> 24).setWidth 8).toNat := by
    have := w.isLt
    rw [BitVec.toNat_setWidth, BitVec.toNat_ushiftRight, Nat.shiftRight_eq_div_pow]
    omega
  simp only [inetNtop, hlow, htop, Quad.dotted, Quad.ofWord]
  simp [List.intercalate]

theorem inetPton_dotted (q : Quad) : inetPton q.dotted = some q := by
  have hsplit : q.dotted.splitOn '.' =
      [decimal q.a.toNat, decimal q.b.toNat, decimal q.c.toNat, decimal q.d.toNat] :=
    List.splitOn_intercalate '.' (by simp [not_mem_decimal]) (by simp)
  rw [inetPton, hsplit]
  simp only [octet_decimal]

/-- `inet_pton` reads what `inet_ntop` writes. -/
theorem inetPton_inetNtop (w : U32) : inetPton (inetNtop w) = some (Quad.ofWord w) := by
  rw [inetNtop_eq, inetPton_dotted]

theorem inetNtop_injective : Function.Injective inetNtop := by
  intro w w' h
  have hquad : Quad.ofWord w = Quad.ofWord w' := by
    rw [← Option.some_inj, ← inetPton_inetNtop, ← inetPton_inetNtop, h]
  rw [← Quad.word_ofWord w, hquad, Quad.word_ofWord]

/-- A number of the dotted form has at most three digits. -/
theorem octet_length {s : CStr} {b : U8} (h : octet s = some b) :
    CStr.IsNumeral s ∧ s.length ≤ 3 := by
  unfold octet at h
  split_ifs at h with hs
  obtain ⟨hne, hall, hzero, hle⟩ := hs
  have hnum : CStr.IsNumeral s := ⟨hne, List.all_eq_true.1 hall⟩
  refine ⟨hnum, ?_⟩
  obtain ⟨c, s, rfl⟩ := List.exists_cons_of_ne_nil hne
  by_cases hc : c = '0'
  · have := hzero (by rw [hc]; rfl)
    omega
  · have hpow := Nat.le_trans (hnum.le_digits hc) hle
    have hlen : s.length < 3 := by
      by_contra hlong
      have := Nat.le_trans (Nat.pow_le_pow_right (by decide : 0 < 10) (Nat.not_lt.1 hlong)) hpow
      omega
    simp only [List.length_cons]
    omega

/-- Of fifteen characters at most, none of which is an underscore, is a dotted form. -/
theorem inetPton_length {s : CStr} {q : Quad} (h : inetPton s = some q) :
    s.length ≤ 15 ∧ '_' ∉ s := by
  unfold inetPton at h
  split at h
  · next a b c d hsplit =>
    have hs : s = ['.'].intercalate [a, b, c, d] := by
      rw [← hsplit, List.intercalate_splitOn]
    split at h
    · next ha hb hc hd =>
      obtain ⟨ha, hla⟩ := octet_length ha
      obtain ⟨hb, hlb⟩ := octet_length hb
      obtain ⟨hc, hlc⟩ := octet_length hc
      obtain ⟨hd, hld⟩ := octet_length hd
      have hnot : ∀ {t : CStr}, CStr.IsNumeral t → '_' ∉ t := fun ht hmem => by
        cases ht.isDigit _ hmem
      rw [hs]
      simp [List.intercalate, hnot ha, hnot hb, hnot hc, hnot hd]
      omega
    · cases h
  · cases h

end Cyrenus
