import Cyrenus.Lib.BoundedLog
import Cyrenus.Xdp.Checks
import Mathlib.Data.List.Perm.Basic

/-!
# What the attack log holds

`update_attack_info` fills `attack_info_array` from the first slot on, and writes every attack
beyond the last slot over the one before it. `attackLog_run` shows that after any run the array is
the log of that discipline (`BoundedLog.kept`), and `attackLog_holdsNewest_iff` when it is the log
of the newest attacks that its comment announces.
-/

namespace Cyrenus

/-- A call of `update_attack_info`, with the time it reads. -/
structure AttackCall where
  now : U64
  srcIp : U32
  protocol : U8
  packets : U32
  bytes : U64
  deriving DecidableEq, Repr

/-- The record a call makes. -/
def AttackCall.record (c : AttackCall) : AttackInfo :=
  ⟨c.now, c.srcIp, c.protocol, c.packets, c.bytes⟩

theorem AttackCall.record_injective : Function.Injective AttackCall.record := by
  rintro ⟨⟩ ⟨⟩ h
  cases h
  rfl

/-- One call of a run. -/
def attackStep (st : Maps) (c : AttackCall) : Maps :=
  updateAttackInfo c.now c.srcIp c.protocol c.packets c.bytes st

/-- The maps after a run of calls. -/
def attackRun (st : Maps) (cs : List AttackCall) : Maps := cs.foldl attackStep st

theorem attackRun_concat (st : Maps) (cs : List AttackCall) (c : AttackCall) :
    attackRun st (cs ++ [c]) = attackStep (attackRun st cs) c := by
  simp [attackRun, List.foldl_append]

/-- What an element of the array holds before it is written. -/
def AttackInfo.empty : AttackInfo := ⟨0, 0, 0, 0, 0⟩

/-- The state of the log after some calls: the counter, which stops at the size of the log, and the
slots. -/
structure IsAttackLog (cs : List AttackCall) (st : Maps) : Prop where
  count : ∃ c, st.attackCount.lookup 0 = some c ∧ c.toNat = min cs.length MAX_ATTACKS
  slots : ∀ i, st.attackInfoArray i =
    (BoundedLog.kept MAX_ATTACKS (cs.map AttackCall.record))[i.val]?.getD AttackInfo.empty

theorem isAttackLog_initial : IsAttackLog [] Maps.initial :=
  ⟨⟨0, rfl, rfl⟩, fun _ => rfl⟩

/-- The slot a call writes, by what the counter says. -/
theorem toNat_attackSlot {c : U32} {n : ℕ} (h : c.toNat = min n MAX_ATTACKS) :
    (if c ≥ BitVec.ofNat 32 MAX_ATTACKS then BitVec.ofNat 32 MAX_ATTACKS - 1 else c).toNat =
      min n (MAX_ATTACKS - 1) := by
  have hge : c ≥ BitVec.ofNat 32 MAX_ATTACKS ↔ 1000 ≤ c.toNat := BitVec.le_def
  rw [MAX_ATTACKS] at h
  split
  · rename_i hc
    have := hge.1 hc
    change 999 = min n 999
    omega
  · rename_i hc
    have := mt hge.2 hc
    change c.toNat = min n 999
    omega

/-- **One call.** The record goes into the first free slot, or into the last one. -/
theorem IsAttackLog.step {cs : List AttackCall} {st : Maps} (h : IsAttackLog cs st)
    (c : AttackCall) : IsAttackLog (cs ++ [c]) (attackStep st c) := by
  obtain ⟨⟨count, hlookup, hcount⟩, hslots⟩ := h
  have hslot := toNat_attackSlot hcount
  simp only [attackStep, updateAttackInfo, hlookup, Option.getD_some]
  generalize hk : (if count ≥ BitVec.ofNat 32 MAX_ATTACKS then BitVec.ofNat 32 MAX_ATTACKS - 1
    else count) = k at hslot
  constructor
  · refine ⟨k + 1, rfl, ?_⟩
    rw [MAX_ATTACKS] at hslot ⊢
    rw [BitVec.toNat_add_of_lt (by rw [hslot]; change _ + 1 < 2 ^ 32; omega), hslot,
      List.length_append]
    change min cs.length 999 + 1 = min (cs.length + 1) 1000
    omega
  · intro i
    rw [List.map_append, List.map_singleton, BoundedLog.kept_getElem?_concat (by decide),
      List.length_map, ← hslot]
    by_cases hi : i.val = k.toNat
    · rw [if_pos hi]
      exact if_pos hi
    · rw [if_neg hi, ← hslots i]
      exact if_neg hi

/-- **A run of calls from empty maps** leaves the log that stops at its last slot. -/
theorem attackLog_run (cs : List AttackCall) : IsAttackLog cs (attackRun Maps.initial cs) := by
  induction cs using List.reverseRecOn with
  | nil => exact isAttackLog_initial
  | append_singleton cs c ih =>
    rw [attackRun_concat]
    exact ih.step c

/-- The array holds these records, from the first slot on, and is empty behind them. -/
theorem ofFn_attackInfoArray {records : List AttackInfo} {a : BpfArray MAX_ATTACKS AttackInfo}
    (hlen : records.length ≤ MAX_ATTACKS)
    (h : ∀ i, a i = records[i.val]?.getD AttackInfo.empty) :
    List.ofFn a =
      records ++ List.replicate (MAX_ATTACKS - records.length) AttackInfo.empty := by
  apply List.ext_getElem
  · simp only [List.length_ofFn, List.length_append, List.length_replicate]
    omega
  · intro i hi _
    rw [List.getElem_ofFn, h]
    rcases Nat.lt_or_ge i records.length with hlt | hge
    · rw [List.getElem_append_left hlt, List.getElem?_eq_getElem hlt, Option.getD_some]
    · rw [List.getElem_append_right hge, List.getElem_replicate, List.getElem?_eq_none hge,
        Option.getD_none]

/-- The array holds the newest of the records: in some slot each, and nothing else. -/
def HoldsNewest (a : BpfArray MAX_ATTACKS AttackInfo) (records : List AttackInfo) : Prop :=
  (List.ofFn a).Perm (BoundedLog.newest MAX_ATTACKS records ++
    List.replicate (MAX_ATTACKS - (BoundedLog.newest MAX_ATTACKS records).length) AttackInfo.empty)

/-- After a run the array holds the newest records when the two disciplines agree on them. -/
theorem holdsNewest_iff_perm (cs : List AttackCall) :
    HoldsNewest (attackRun Maps.initial cs).attackInfoArray (cs.map AttackCall.record) ↔
      (BoundedLog.kept MAX_ATTACKS (cs.map AttackCall.record)).Perm
        (BoundedLog.newest MAX_ATTACKS (cs.map AttackCall.record)) := by
  have hkept := BoundedLog.length_kept (by decide : 0 < MAX_ATTACKS) (cs.map AttackCall.record)
  rw [HoldsNewest, ofFn_attackInfoArray (by rw [hkept]; exact Nat.min_le_right ..)
    (attackLog_run cs).slots, hkept, BoundedLog.length_newest, List.perm_append_right_iff]

/-- **When the log holds the newest attacks**: as long as there were no more than it has slots, or
when the first 999 records happen to be those of the 999 calls before the last. -/
theorem attackLog_holdsNewest_iff (cs : List AttackCall) :
    HoldsNewest (attackRun Maps.initial cs).attackInfoArray (cs.map AttackCall.record) ↔
      cs.length ≤ 1000 ∨ (cs.take 999).Perm (cs.dropLast.drop (cs.length - 1000)) := by
  rw [holdsNewest_iff_perm, BoundedLog.kept_perm_newest_iff (by decide), List.length_map,
    ← List.map_take, ← List.map_dropLast, ← List.map_drop,
    List.map_perm_map_iff AttackCall.record_injective]
  rfl

/-- Attacks from 10.0.0.1 in a thousand and one nanoseconds. -/
def thousandAndOne : List AttackCall :=
  (List.range 1001).map fun i => ⟨BitVec.ofNat 64 (i + 1), 0x0100000a, IPPROTO_UDP, 1, 60⟩

/-- With the thousand and first attack the log stops holding the newest ones. -/
theorem attackLog_holdsNewest_fails :
    ¬ ∀ cs : List AttackCall,
      HoldsNewest (attackRun Maps.initial cs).attackInfoArray (cs.map AttackCall.record) := by
  intro h
  have hnd : (thousandAndOne.map AttackCall.record).Nodup := by
    refine List.Nodup.map AttackCall.record_injective (List.Nodup.map_on ?_ List.nodup_range)
    intro i hi j hj hij
    have hi' := List.mem_range.1 hi
    have hj' := List.mem_range.1 hj
    have hnow := congrArg (fun c => c.now.toNat) hij
    simp only [BitVec.toNat_ofNat] at hnow
    omega
  have hle := (BoundedLog.kept_perm_newest_iff_of_nodup (by decide) hnd).1
    ((holdsNewest_iff_perm _).1 (h thousandAndOne))
  simp [thousandAndOne, MAX_ATTACKS] at hle

end Cyrenus
