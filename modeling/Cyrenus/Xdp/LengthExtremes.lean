import Cyrenus.Lib.Extremes
import Cyrenus.Xdp.FlowHistory
import Cyrenus.Xdp.PayloadLength
import Mathlib.Order.Nat

/-!
# The extremes of the payload lengths

A record keeps the longest and the shortest payload of its frames, for each direction and for both.
The fields start at zero, and the minima take zero for "unset", although frames without payload are
common. So the fields are the running extremes of `Extremes` (`flowOf_lengths`), and the minima are
exact when no frame without payload counts, or the last one that counts is such
(`lengthExtremes_iff`).
-/

namespace Cyrenus

/-! ## The lengths that count -/

/-- The payload length of an accounted frame. -/
def Accounted.length (a : Accounted) : ℕ := a.payloadLength.toNat

/-- The payload length of the frame has not wrapped (`accountedBy_unwrapped_iff`). -/
def Accounted.Unwrapped (a : Accounted) : Prop := a.length < 2 ^ 16

/-- An accounted frame has its payload length unless its headers are longer than its packet. -/
theorem accountedBy_unwrapped_iff {user : UserMaps} {f : TimedFrame} {st : Maps} {a : Accounted}
    (h : accountedBy user f st = some a) :
    a.Unwrapped ↔ ∀ l4, f.ctx.transport f.ctx.iphdr = some l4 → HeadersFit f.ctx.iphdr l4 := by
  unfold accountedBy at h
  split at h
  · obtain ⟨l4, hl4, rfl⟩ := Option.map_eq_some_iff.1 h
    simp only [hl4, Option.some.injEq, forall_eq']
    exact payloadLength_lt_iff ..
  · cases h

/-- The payload lengths of a history. -/
def lengths (h : List Accounted) : List ℕ := h.map Accounted.length

/-- The payload lengths of the frames that are counted forward: the first one, and those to the
host. -/
def fwdLengths : List Accounted → List ℕ
  | [] => []
  | a :: h => a.length :: lengths (h.filter fun b => b.direction = 0)

/-- The payload lengths of the frames that are counted backward: those from the host, except for the
first one. -/
def bwdLengths : List Accounted → List ℕ
  | [] => []
  | _ :: h => lengths (h.filter fun b => b.direction ≠ 0)

theorem lengths_concat (h : List Accounted) (a : Accounted) :
    lengths (h ++ [a]) = lengths h ++ [a.length] := by
  simp [lengths]

theorem fwdLengths_concat {h : List Accounted} (hne : h ≠ []) (a : Accounted) :
    fwdLengths (h ++ [a]) =
      if a.direction = 0 then fwdLengths h ++ [a.length] else fwdLengths h := by
  cases h with
  | nil => exact absurd rfl hne
  | cons b h =>
    simp only [List.cons_append, fwdLengths, List.filter_append, lengths, List.map_append]
    split <;> simp_all

theorem bwdLengths_concat {h : List Accounted} (hne : h ≠ []) (a : Accounted) :
    bwdLengths (h ++ [a]) =
      if a.direction = 0 then bwdLengths h else bwdLengths h ++ [a.length] := by
  cases h with
  | nil => exact absurd rfl hne
  | cons b h =>
    simp only [List.cons_append, bwdLengths, List.filter_append, lengths, List.map_append]
    split <;> simp_all

/-! ## The fields are running extremes -/

open Extremes

theorem longer_toNat (extreme length : U32) :
    (longer extreme length).toNat = runMax extreme.toNat length.toNat := by
  rw [longer, runMax, apply_ite BitVec.toNat]
  rfl

theorem shorter_toNat (extreme length : U32) :
    (shorter extreme length).toNat = runMin extreme.toNat length.toNat := by
  rw [shorter, runMin, apply_ite BitVec.toNat]
  refine if_congr (or_congr Iff.rfl ?_) rfl rfl
  rw [BitVec.toNat_eq]
  rfl

/-- A 16-bit extreme of lengths in the range of a total length is not cut. -/
theorem longer_setWidth_toNat (extreme : U16) {length : U32} (h : length.toNat < 2 ^ 16) :
    ((longer (extreme.setWidth 32) length).setWidth 16).toNat =
      runMax extreme.toNat length.toNat := by
  have hlt := extreme.isLt
  rw [BitVec.toNat_setWidth, longer_toNat, BitVec.toNat_setWidth_of_le (by decide)]
  refine Nat.mod_eq_of_lt ?_
  unfold runMax
  split <;> assumption

theorem shorter_setWidth_toNat (extreme : U16) {length : U32} (h : length.toNat < 2 ^ 16) :
    ((shorter (extreme.setWidth 32) length).setWidth 16).toNat =
      runMin extreme.toNat length.toNat := by
  have hlt := extreme.isLt
  rw [BitVec.toNat_setWidth, shorter_toNat, BitVec.toNat_setWidth_of_le (by decide)]
  refine Nat.mod_eq_of_lt ?_
  unfold runMin
  split <;> assumption

/-- A pair of fields holds the running extremes of a sequence. -/
structure Holds (max min : ℕ) (l : List ℕ) : Prop where
  max : max = l.foldl runMax ⊥
  min : min = l.foldl runMin ⊥

/-- The fields hold the running extremes of one more length. -/
theorem Holds.concat {max min : ℕ} {l : List ℕ} (h : Holds max min l) (x : ℕ) :
    Holds (runMax max x) (runMin min x) (l ++ [x]) where
  max := by rw [h.max, List.foldl_append]; rfl
  min := by rw [h.min, List.foldl_append]; rfl

/-- The fields of a record hold the running extremes of a history. -/
structure HoldsLengths (h : List Accounted) (info : TrafficInfo) : Prop where
  all : Holds info.maxPacketLength.toNat info.minPacketLength.toNat (lengths h)
  fwd : Holds info.fwdPacketLengthMax.toNat info.fwdPacketLengthMin.toNat (fwdLengths h)
  bwd : Holds info.bwdPacketLengthMax.toNat info.bwdPacketLengthMin.toNat (bwdLengths h)

/-- The fields of a new record hold those of its frame. -/
theorem newFlow_lengths {a : Accounted} (ha : a.Unwrapped) : HoldsLengths [a] (newFlow a) := by
  have h := newFlow_first a
  have hempty : Holds 0 0 [] := ⟨rfl, rfl⟩
  constructor
  · rw [h.max, h.min, longer_setWidth_toNat _ ha, shorter_setWidth_toNat _ ha]
    exact hempty.concat _
  · rw [h.fwdMax, h.fwdMin, longer_toNat, shorter_toNat]
    exact hempty.concat _
  · rw [h.bwdMax, h.bwdMin]
    exact hempty

/-- An update with one more frame adds its length. -/
theorem updateFlow_lengths {h : List Accounted} {info : TrafficInfo} {a : Accounted} (hne : h ≠ [])
    (ha : a.Unwrapped) (hold : HoldsLengths h info) :
    HoldsLengths (h ++ [a]) (updateFlow info a) := by
  have hs := updateFlow_stats info a
  constructor
  · rw [hs.max, hs.min, longer_setWidth_toNat _ ha, shorter_setWidth_toNat _ ha, lengths_concat]
    exact hold.all.concat _
  · rw [hs.fwdMax, hs.fwdMin, fwdLengths_concat hne]
    split
    · rw [longer_toNat, shorter_toNat]
      exact hold.fwd.concat _
    · exact hold.fwd
  · rw [hs.bwdMax, hs.bwdMin, bwdLengths_concat hne]
    split
    · exact hold.bwd
    · rw [longer_toNat, shorter_toNat]
      exact hold.bwd.concat _

/-- **The fields of a record hold the running extremes of its history.** -/
theorem flowOf_lengths {h : List Accounted} {info : TrafficInfo} (hreal : ∀ a ∈ h, a.Unwrapped)
    (hinfo : flowOf h = some info) : HoldsLengths h info :=
  flowOf_induct (fun _ ha => newFlow_lengths ha)
    (fun _ _ _ hne ha hold => updateFlow_lengths hne ha hold) hreal hinfo

/-! ## Exactness -/

/-- A pair of fields are the maximum and the minimum of a sequence. -/
structure Exact (max min : ℕ) (l : List ℕ) : Prop where
  max : IsGreatest {x | x ∈ l} max
  min : IsLeast {x | x ∈ l} min

/-- Fields that hold the running extremes are exact when no zero is lost. -/
theorem Holds.exact_iff {max min : ℕ} {l : List ℕ} (h : Holds max min l) (hne : l ≠ []) :
    Exact max min l ↔ 0 ∉ l ∨ l.getLast? = some 0 := by
  rw [h.max, h.min]
  exact ⟨fun hexact => (isLeast_runMin_iff hne).1 hexact.min,
    fun hzero => ⟨isGreatest_runMax hne, (isLeast_runMin_iff hne).2 hzero⟩⟩

/-- The extremes of a record are exact: over all frames, and in each direction in which any are
counted. -/
structure LengthsExact (h : List Accounted) (info : TrafficInfo) : Prop where
  all : lengths h ≠ [] →
    Exact info.maxPacketLength.toNat info.minPacketLength.toNat (lengths h)
  fwd : fwdLengths h ≠ [] →
    Exact info.fwdPacketLengthMax.toNat info.fwdPacketLengthMin.toNat (fwdLengths h)
  bwd : bwdLengths h ≠ [] →
    Exact info.bwdPacketLengthMax.toNat info.bwdPacketLengthMin.toNat (bwdLengths h)

/-- No zero of a sequence is lost: there is none, or the last element is one. -/
def KeepsZero (l : List ℕ) : Prop := 0 ∉ l ∨ l.getLast? = some 0

/-- **Length extremes.** After every run, the extremes of a record whose payload lengths have not
wrapped are exact exactly when a zero-length payload, in all that are counted and in those of each
direction, is only found when the last one is such. -/
theorem lengthExtremes_iff (events : List TableEvent) (k : FlowKey) (info : TrafficInfo)
    (hk : (recorded events).maps.activeTraffic k = some info)
    (hreal : ∀ a ∈ (recorded events).history k, a.Unwrapped) :
    LengthsExact ((recorded events).history k) info ↔
      KeepsZero (lengths ((recorded events).history k)) ∧
      KeepsZero (fwdLengths ((recorded events).history k)) ∧
      KeepsZero (bwdLengths ((recorded events).history k)) := by
  have hholds := flowOf_lengths hreal ((recorded_flowOf events k).symm.trans hk)
  have hiff : ∀ {max min l}, Holds max min l → ((l ≠ [] → Exact max min l) ↔ KeepsZero l) := by
    intro max min l hl
    cases l with
    | nil => exact iff_of_true (fun hne => absurd rfl hne) (.inl List.not_mem_nil)
    | cons x l =>
      rw [KeepsZero, ← hl.exact_iff (List.cons_ne_nil x l)]
      exact ⟨fun h => h (List.cons_ne_nil x l), fun h _ => h⟩
  rw [← hiff hholds.all, ← hiff hholds.fwd, ← hiff hholds.bwd]
  exact ⟨fun h => ⟨h.all, h.fwd, h.bwd⟩, fun h => ⟨h.1, h.2.1, h.2.2⟩⟩

/-- A segment without payload, and one with five bytes. -/
def ackThenData : List TableEvent :=
  let segment (payload : List U8) : TableEvent := .frame UserMaps.initial
    ⟨.still 5, ipv4Frame IPPROTO_TCP [10, 0, 0, 1] [10, 0, 0, 2]
      ([0, 80, 31, 144, 0, 0, 0, 0, 0, 0, 0, 0, 0x50, 0x10] ++ List.replicate 6 0 ++ payload), 0⟩
  [segment [], segment [1, 2, 3, 4, 5]]

/-- The key of their flow. -/
def ackThenDataKey : FlowKey := ⟨0x0100000a, 0x0200000a, 80, 8080, IPPROTO_TCP⟩

theorem lengths_ackThenData :
    lengths ((recorded ackThenData).history ackThenDataKey) = [0, 5] := by decide +kernel

theorem ackThenData_unwrapped :
    ∀ a ∈ (recorded ackThenData).history ackThenDataKey, a.Unwrapped := by
  intro a ha
  have hmem : a.length ∈ lengths ((recorded ackThenData).history ackThenDataKey) :=
    List.mem_map_of_mem ha
  rw [lengths_ackThenData] at hmem
  have hle : ∀ n ∈ [0, 5], n < 2 ^ 16 := by decide
  exact hle _ hmem

/-- Their minimum is given as five. -/
theorem ackThenData_not_exact :
    ∃ info, (recorded ackThenData).maps.activeTraffic ackThenDataKey = some info ∧
      info.minPacketLength.toNat = 5 ∧
      (∀ a ∈ (recorded ackThenData).history ackThenDataKey, a.Unwrapped) ∧
      ¬ LengthsExact ((recorded ackThenData).history ackThenDataKey) info := by
  obtain ⟨info, hinfo, hmin⟩ := exists_record (recorded ackThenData).maps ackThenDataKey
    (fun info => info.minPacketLength.toNat) 5 (by decide +kernel)
  refine ⟨info, hinfo, hmin, ackThenData_unwrapped, fun h => ?_⟩
  have hall := h.all (by rw [lengths_ackThenData]; exact List.cons_ne_nil _ _)
  rw [lengths_ackThenData, hmin] at hall
  exact absurd (hall.min.2 (List.mem_cons_self ..)) (by decide)

theorem lengthExtremes_iff_ackThenData :
    ∃ info, (recorded ackThenData).maps.activeTraffic ackThenDataKey = some info ∧
      (LengthsExact ((recorded ackThenData).history ackThenDataKey) info ↔
        KeepsZero (lengths ((recorded ackThenData).history ackThenDataKey)) ∧
        KeepsZero (fwdLengths ((recorded ackThenData).history ackThenDataKey)) ∧
        KeepsZero (bwdLengths ((recorded ackThenData).history ackThenDataKey))) := by
  obtain ⟨info, hinfo, -⟩ := exists_record (recorded ackThenData).maps ackThenDataKey
    (fun info => info.minPacketLength.toNat) 5 (by decide +kernel)
  exact ⟨info, hinfo, lengthExtremes_iff ackThenData ackThenDataKey info hinfo
    ackThenData_unwrapped⟩

end Cyrenus
