import Cyrenus.Api.Attacks
import Cyrenus.Lib.Part
import Cyrenus.Xdp.FlowTable
import Cyrenus.Xdp.Shared

/-!
# From the frames to the attack list

Along a run of frames the log of attacks is a part of the maps that only the frames with a flood
reach (`isAttackLog_recorded`). `reportedAttacks` follows the records to `GET /api/v1/attacks`: what
is listed of the kernel's log are the floods of the run, but for the first one and those that were
overwritten, each a frame that the program has dropped, with its source, time and length.
-/

namespace Cyrenus

open Trace (selected)

/-! ## The log along a run -/

/-- The call that an event makes to record an attack. -/
def TableEvent.attack? (e : TableEvent) (r : Recorded) : Option AttackCall :=
  match e with
  | .frame user f => if xdpFloods user f r.maps then some f.attackCall else none
  | .evict _ => none

/-- The calls that a run makes. -/
def attackCalls (events : List TableEvent) : List AttackCall :=
  selected recordedStep TableEvent.attack? Recorded.initial events

/-- The state of the log is that of its slots and its counter. -/
theorem IsAttackLog.congr {cs : List AttackCall} {st st' : Maps} (h : IsAttackLog cs st)
    (hlog : st.log = st'.log) : IsAttackLog cs st' := by
  obtain ⟨harray, hcount⟩ := Prod.mk.inj hlog
  obtain ⟨hc, hs⟩ := h
  rw [hcount] at hc
  exact ⟨hc, fun i => by rw [← harray, hs]⟩

/-- **One frame** is added to the log if a flood is found in it. -/
theorem IsAttackLog.frame {cs : List AttackCall} {st : Maps} (h : IsAttackLog cs st)
    (user : UserMaps) (f : TimedFrame) :
    IsAttackLog (cs ++ (if xdpFloods user f st then some f.attackCall else none).toList)
      (xdpStep user f st).2 := by
  have hlog := congrArg Prod.fst (xdpStep_shared user f st)
  cases hfloods : xdpFloods user f st with
  | true =>
    rw [hfloods, if_pos rfl] at hlog
    exact (h.step f.attackCall).congr hlog.symm
  | false =>
    rw [hfloods, if_neg Bool.false_ne_true] at hlog
    rw [if_neg Bool.false_ne_true, Option.toList_none, List.append_nil]
    exact h.congr hlog.symm

/-- **The log after a run** is that of its calls. -/
theorem isAttackLog_recorded (events : List TableEvent) :
    IsAttackLog (attackCalls events) (recorded events).maps := by
  induction events using List.reverseRecOn with
  | nil => exact isAttackLog_initial
  | append_singleton events e ih =>
    rw [attackCalls, Trace.selected_concat, ← attackCalls, recorded, Trace.final_concat, ← recorded]
    cases e with
    | frame user f => exact ih.frame user f
    | evict gone =>
      rw [TableEvent.attack?, Option.toList_none, List.append_nil]
      exact ih.congr rfl

/-! ## What is listed -/

/-- The walk over a log finds its live records, but for the first. -/
theorem IsAttackLog.getAttackInfo {cs : List AttackCall} {st : Maps} (h : IsAttackLog cs st) :
    getAttackInfo st.attackInfoArray =
      (BoundedLog.kept MAX_ATTACKS (cs.map AttackCall.record)).tail.filter AttackInfo.isLive := by
  have hlen : (BoundedLog.kept MAX_ATTACKS (cs.map AttackCall.record)).length ≤ MAX_ATTACKS := by
    rw [BoundedLog.length_kept (by decide)]
    exact Nat.min_le_right ..
  have hempty (n : ℕ) : (List.replicate n AttackInfo.empty).filter AttackInfo.isLive = [] :=
    List.filter_replicate_of_neg (by decide)
  rw [getAttackInfo_eq, ofFn_attackInfoArray hlen h.slots]
  generalize BoundedLog.kept MAX_ATTACKS (cs.map AttackCall.record) = records
  cases records with
  | nil => rw [List.nil_append, List.tail_replicate, hempty, List.tail_nil, List.filter_nil]
  | cons r records =>
    rw [List.cons_append, List.tail_cons, List.tail_cons, List.filter_append, hempty,
      List.append_nil]

/-- A flood is found in UDP packets only. -/
theorem transport_of_xdpFloods {user : UserMaps} {f : TimedFrame} {st : Maps}
    (h : xdpFloods user f st = true) :
    ∃ udph, f.ctx.transport f.ctx.iphdr = some (.udp udph) := by
  have hl4 := (Bool.and_eq_true_iff.1 (Bool.and_eq_true_iff.1 h).2).2
  cases htransport : f.ctx.transport f.ctx.iphdr with
  | none =>
    rw [htransport] at hl4
    cases hl4
  | some l4 =>
    rw [htransport] at hl4
    cases l4 with
    | tcp | icmp => cases hl4
    | udp udph => exact ⟨udph, rfl⟩

/-- A call of a run was made for a frame with a flood. -/
theorem mem_attackCalls {events : List TableEvent} {c : AttackCall} (h : c ∈ attackCalls events) :
    ∃ pre user f, pre ++ [.frame user f] <+: events ∧
      xdpFloods user f (recorded pre).maps = true ∧ c = f.attackCall := by
  obtain ⟨pre, e, hpre, hcall⟩ := Trace.mem_selected_iff.1 h
  cases e with
  | evict gone => cases hcall
  | frame user f =>
    rw [TableEvent.attack?] at hcall
    split at hcall
    · rename_i hfloods
      cases hcall
      exact ⟨pre, user, f, hpre, hfloods, rfl⟩
    · cases hcall

/-- **The attacks that are listed.** After any run of frames and evictions the answer shows, of what
the kernel has recorded, the live records in the order of the floods that the frames have brought,
but for the first one and for those that were written over one another in the last slot. Each of
them is that of a UDP frame of the run, which the program has dropped. -/
theorem reportedAttacks (events : List TableEvent) (env : AttacksEnv) :
    let listed := (BoundedLog.kept MAX_ATTACKS
      ((attackCalls events).map AttackCall.record)).tail.filter AttackInfo.isLive
    apiAttacksList env (recorded events).maps.attackInfoArray = attacksAnswer env listed ∧
      ∀ e ∈ listed, ∃ pre user f, pre ++ [.frame user f] <+: events ∧
        e = ⟨f.clk.attack, f.ctx.iphdr.saddr, IPPROTO_UDP, 1, f.ctx.iphdr.pktSize.setWidth 64⟩ ∧
        (∃ udph, f.ctx.transport f.ctx.iphdr = some (.udp udph)) ∧
        (xdpStep user f (recorded pre).maps).1 = .drop := by
  intro listed
  refine ⟨congrArg (attacksAnswer env) (isAttackLog_recorded events).getAttackInfo, ?_⟩
  intro e he
  have hkept := BoundedLog.mem_of_mem_kept (List.mem_of_mem_tail (List.mem_of_mem_filter he))
  obtain ⟨c, hc, rfl⟩ := List.mem_map.1 hkept
  obtain ⟨pre, user, f, hpre, hfloods, rfl⟩ := mem_attackCalls hc
  exact ⟨pre, user, f, hpre, rfl, transport_of_xdpFloods hfloods, xdpFloods_drop hfloods⟩

end Cyrenus
