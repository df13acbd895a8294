import Cyrenus.Lib.Trace
import Cyrenus.Lib.Window
import Cyrenus.Xdp.Checks

/-!
# What the SYN limiter drops

`check_syn_flood` keeps two wrapping counters and one time stamp for each source. The reference is
a history: the source's packets with the SYN bit fall into windows of one second (`Tumbling`), and a
packet is in excess (`SynExcess`) when the pure SYNs of its window so far are too many for the rate
and for the SYN-ACKs of the window. `synEntry_spec` shows that the counters are those of the current
window and that the limiter drops exactly the packets in excess; `syn_run` carries this along a run,
and `checkSynFlood_correct` draws the bounds from it.
-/

namespace Cyrenus

/-- A TCP packet as the limiter sees it: the clock and the two headers. -/
structure SynPacket where
  clk : Clock
  iph : IpHdr
  tcph : TcpHdr

/-- The time the limiter reads for a packet. -/
def SynPacket.time (p : SynPacket) : ℕ := p.clk.syn.toNat

/-- The packet comes from the source `A` and has the SYN bit. -/
structure SynPacket.IsFrom (A : U32) (p : SynPacket) : Prop where
  saddr : p.iph.saddr = A
  syn : p.tcph.syn = true

/-- The limiter on one packet of a run. -/
def synStep (user : UserMaps) (p : SynPacket) : Check := checkSynFlood user p.clk p.iph p.tcph

/-- A packet of a run with the verdict it got. -/
abbrev JudgedSyn := SynPacket × XdpAction

namespace JudgedSyn

def time (pv : JudgedSyn) : ℕ := pv.1.time

/-- The packet is a SYN-ACK. -/
def isAck (pv : JudgedSyn) : Bool := pv.1.tcph.ack

/-- The packet is a SYN without ACK. -/
def isSyn (pv : JudgedSyn) : Bool := !pv.1.tcph.ack

/-- The limiter lets the packet pass. -/
def passed (pv : JudgedSyn) : Bool := decide (pv.2 = .pass)

end JudgedSyn

/-- The window that is current after a history. -/
abbrev synWindow (tr : List JudgedSyn) : Option (Tumbling JudgedSyn) :=
  Tumbling.after NSEC_PER_SEC JudgedSyn.time tr

/-- The events of a packet's window up to and including it. -/
def windowWith (w : Option (Tumbling JudgedSyn)) (pv : JudgedSyn) : List JudgedSyn :=
  (Tumbling.step NSEC_PER_SEC JudgedSyn.time w pv).events

/-- A packet is in excess: it is a SYN without ACK, it does not open a window, and the pure SYNs of
its window exceed both the rate and ten times the SYN-ACKs. -/
def SynExcess (rate : ℕ) (w : Option (Tumbling JudgedSyn)) (pv : JudgedSyn) : Prop :=
  pv.isSyn = true ∧ ¬ Tumbling.Opens NSEC_PER_SEC JudgedSyn.time w pv ∧
    rate < (windowWith w pv).countP JudgedSyn.isSyn ∧
    10 * (windowWith w pv).countP JudgedSyn.isAck < (windowWith w pv).countP JudgedSyn.isSyn

/-! ## One packet -/

/-- The entry of a source holds the counts of a window. -/
structure SynTracks (w : Tumbling JudgedSyn) (info : SynFloodInfo) : Prop where
  opened : info.lastUpdate.toNat = w.opened
  syns : info.synCount.toNat = w.events.countP JudgedSyn.isSyn
  acks : info.synackCount.toNat = w.events.countP JudgedSyn.isAck

/-- The entry a packet makes when it opens a window. -/
theorem synTracks_opening (pv : JudgedSyn) :
    SynTracks ⟨pv.time, [pv]⟩
      (if pv.1.tcph.ack then ⟨pv.1.clk.syn, 0, 1⟩ else ⟨pv.1.clk.syn, 1, 0⟩) := by
  cases h : pv.1.tcph.ack <;>
    exact ⟨rfl, by simp [JudgedSyn.isSyn, h], by simp [JudgedSyn.isAck, h]⟩

/-- A packet that opens a window passes and starts the counts. -/
theorem synEntry_of_opens {rate : U32} {p : SynPacket} {w : Option (Tumbling JudgedSyn)}
    {old : Option SynFloodInfo} (h : Option.Rel SynTracks w old)
    (hle : ∀ info, old = some info → info.lastUpdate ≤ p.clk.syn) {v : XdpAction}
    (ho : Tumbling.Opens NSEC_PER_SEC JudgedSyn.time w (p, v)) :
    synEntry rate p.clk.syn p.tcph.ack old =
      (.pass, some (if p.tcph.ack then ⟨p.clk.syn, 0, 1⟩ else ⟨p.clk.syn, 1, 0⟩)) := by
  cases h with
  | none => rfl
  | @some w info ht =>
    have hover : ¬ p.clk.syn - info.lastUpdate < 1000000000 := by
      rw [elapsed_lt_iff (hle info rfl), ht.opened]
      exact Nat.not_lt.2 (ho w rfl)
    exact if_neg hover

/-- Counters that are far from wrapping count one up. -/
theorem toNat_count_up {x : U32} {n : ℕ} (hx : x.toNat ≤ n) (hfew : 10 * (n + 1) < 2 ^ 32) :
    (x + 1).toNat = x.toNat + 1 := BitVec.toNat_add_of_lt (by change _ + 1 < 2 ^ 32; omega)

/-- Ten times a counter that is far from wrapping does not wrap. -/
theorem toNat_ten_times {x : U32} {n : ℕ} (hx : x.toNat ≤ n) (hfew : 10 * (n + 1) < 2 ^ 32) :
    (x * 10).toNat = 10 * x.toNat := by
  rw [Nat.mul_comm]
  exact BitVec.toNat_mul_of_lt (by change _ * 10 < 2 ^ 32; omega)

section

variable {rate : U32} {p : SynPacket} {u : Tumbling JudgedSyn} {info : SynFloodInfo}
  {new : Option SynFloodInfo} {v : XdpAction}

/-- A SYN-ACK inside a window is counted and passes. -/
theorem synEntry_of_ack (ht : SynTracks u info) (hin : p.clk.syn - info.lastUpdate < 1000000000)
    (hfew : 10 * (u.events.length + 1) < 2 ^ 32) (hack : p.tcph.ack = true)
    (he : synEntry rate p.clk.syn p.tcph.ack (some info) = (v, new)) :
    Option.Rel SynTracks (some ⟨u.opened, u.events ++ [(p, v)]⟩) new ∧ v = .pass := by
  have hacks : info.synackCount.toNat ≤ u.events.length := ht.acks ▸ List.countP_le_length
  simp only [synEntry, hin, hack, if_true] at he
  cases he
  refine ⟨.some ⟨ht.opened, ?_, ?_⟩, rfl⟩
  · simpa [JudgedSyn.isSyn, hack] using ht.syns
  · rw [toNat_count_up hacks hfew, ht.acks]
    simp [JudgedSyn.isAck, hack]

/-- A pure SYN inside a window is counted, and dropped when the counts are in excess. -/
theorem synEntry_of_syn (ht : SynTracks u info) (hin : p.clk.syn - info.lastUpdate < 1000000000)
    (hfew : 10 * (u.events.length + 1) < 2 ^ 32) (hack : p.tcph.ack = false)
    (he : synEntry rate p.clk.syn p.tcph.ack (some info) = (v, new)) :
    Option.Rel SynTracks (some ⟨u.opened, u.events ++ [(p, v)]⟩) new ∧
      v = if rate.toNat < u.events.countP JudgedSyn.isSyn + 1 ∧
        10 * u.events.countP JudgedSyn.isAck < u.events.countP JudgedSyn.isSyn + 1
        then .drop else .pass := by
  have hsyns : info.synCount.toNat ≤ u.events.length := ht.syns ▸ List.countP_le_length
  have hacks : info.synackCount.toNat ≤ u.events.length := ht.acks ▸ List.countP_le_length
  have hiff : (info.synCount + 1 > rate ∧ info.synCount + 1 > info.synackCount * 10) ↔
      (rate.toNat < u.events.countP JudgedSyn.isSyn + 1 ∧
        10 * u.events.countP JudgedSyn.isAck < u.events.countP JudgedSyn.isSyn + 1) := by
    rw [gt_iff_lt, gt_iff_lt, BitVec.lt_def, BitVec.lt_def, toNat_count_up hsyns hfew,
      toNat_ten_times hacks hfew, ht.syns, ht.acks]
  have hnew : SynTracks ⟨u.opened, u.events ++ [(p, v)]⟩
      { info with synCount := info.synCount + 1 } := by
    refine ⟨ht.opened, ?_, ?_⟩
    · rw [toNat_count_up hsyns hfew, ht.syns]
      simp [JudgedSyn.isSyn, hack]
    · simpa [JudgedSyn.isAck, hack] using ht.acks
  simp only [synEntry, hin, hack, if_true, Bool.false_eq_true, if_false] at he
  by_cases hx : info.synCount + 1 > rate ∧ info.synCount + 1 > info.synackCount * 10
  · rw [if_pos hx] at he
    cases he
    exact ⟨.some hnew, (if_pos (hiff.1 hx)).symm⟩
  · rw [if_neg hx] at he
    cases he
    exact ⟨.some hnew, (if_neg (mt hiff.2 hx)).symm⟩

end

/-- **One packet.** The limiter keeps the counts of the current window, and drops the packet exactly
when it is in excess. -/
theorem synEntry_spec {rate : U32} {p : SynPacket} {w : Option (Tumbling JudgedSyn)}
    {old new : Option SynFloodInfo} {v : XdpAction} (h : Option.Rel SynTracks w old)
    (hle : ∀ info, old = some info → info.lastUpdate ≤ p.clk.syn)
    (hfew : 10 * (windowWith w (p, v)).length < 2 ^ 32)
    (he : synEntry rate p.clk.syn p.tcph.ack old = (v, new)) :
    Option.Rel SynTracks (some (Tumbling.step NSEC_PER_SEC JudgedSyn.time w (p, v))) new ∧
      (v = .drop ↔ SynExcess rate.toNat w (p, v)) ∧ (v = .drop ∨ v = .pass) := by
  by_cases ho : Tumbling.Opens NSEC_PER_SEC JudgedSyn.time w (p, v)
  · rw [synEntry_of_opens h hle ho] at he
    cases he
    rw [Tumbling.step_of_opens ho]
    exact ⟨.some (synTracks_opening (p, .pass)), ⟨nofun, fun hx => absurd ho hx.2.1⟩, .inr rfl⟩
  · obtain ⟨u, rfl, hlt, hstep⟩ := Tumbling.step_of_not_opens ho
    obtain ⟨info, rfl, ht⟩ : ∃ info, old = some info ∧ SynTracks u info := by
      cases h with
      | some ht => exact ⟨_, rfl, ht⟩
    have hin : p.clk.syn - info.lastUpdate < 1000000000 := by
      rw [elapsed_lt_iff (hle info rfl), ht.opened]
      exact hlt
    have hwith : windowWith (some u) (p, v) = u.events ++ [(p, v)] := by rw [windowWith, hstep]
    rw [hwith, List.length_append, List.length_singleton] at hfew
    simp only [SynExcess, hwith, hstep, List.countP_append, List.countP_singleton]
    cases hack : p.tcph.ack with
    | true =>
      obtain ⟨hnew, rfl⟩ := synEntry_of_ack ht hin hfew hack he
      refine ⟨hnew, ⟨nofun, fun hx => ?_⟩, .inr rfl⟩
      simp [JudgedSyn.isSyn, hack] at hx
    | false =>
      obtain ⟨hnew, hv⟩ := synEntry_of_syn ht hin hfew hack he
      have hsyn : JudgedSyn.isSyn (p, v) = true := by simp [JudgedSyn.isSyn, hack]
      have hnack : JudgedSyn.isAck (p, v) = false := hack
      simp only [hsyn, hnack, if_true, Bool.false_eq_true, if_false, Nat.add_zero]
      split at hv
      · exact ⟨hnew, ⟨fun _ => ⟨trivial, ho, ‹_›⟩, fun _ => hv⟩, .inl hv⟩
      · exact ⟨hnew, ⟨fun hd => (nomatch hd.symm.trans hv), fun hx => absurd hx.2.2 ‹_›⟩, .inr hv⟩

/-! ## Runs -/

/-- The verdicts of a run are those of the reference. -/
def SynLimited (rate : ℕ) (tr : List JudgedSyn) : Prop :=
  ∀ pre pv, pre ++ [pv] <+: tr →
    (pv.2 = .drop ↔ SynExcess rate (synWindow pre) pv) ∧ (pv.2 = .drop ∨ pv.2 = .pass)

/-- On a packet from the source the limiter applies the entry of the source. -/
theorem synStep_eq {user : UserMaps} {A : U32} {p : SynPacket} (h : p.IsFrom A) (st : Maps) :
    synStep user p st =
      ((synEntry user.config.synFloodRate p.clk.syn p.tcph.ack (st.synFloodMap A)).1,
        { st with synFloodMap := (st.synFloodMap.alter A
          (synEntry user.config.synFloodRate p.clk.syn p.tcph.ack)).2 }) := by
  obtain ⟨rfl, hsyn⟩ := h
  simp only [synStep, checkSynFlood, hsyn, if_true, getConfig_configMap, Table.alter_fst]

/-- The windows of a run are those of its packets. -/
theorem synWindow_trace (user : UserMaps) (st : Maps) (ps : List SynPacket) :
    Tumbling.after NSEC_PER_SEC SynPacket.time ps =
      (synWindow (Trace.trace (synStep user) st ps)).map (Tumbling.map Prod.fst) := by
  conv_lhs => rw [← Trace.map_fst_trace (synStep user) st ps]
  exact Tumbling.after_map Prod.fst _

/-- The times of a run are those of its packets. -/
theorem map_time_trace (user : UserMaps) (st : Maps) (ps : List SynPacket) :
    (Trace.trace (synStep user) st ps).map JudgedSyn.time = ps.map SynPacket.time := by
  conv_rhs => rw [← Trace.map_fst_trace (synStep user) st ps, List.map_map]
  rfl

/-- No window of the history holds as many packets as would make a counter or its product wrap. -/
def FewPerWindow (ps : List SynPacket) : Prop :=
  ∀ pre, pre <+: ps → ∀ w, Tumbling.after NSEC_PER_SEC SynPacket.time pre = some w →
    10 * w.events.length < 2 ^ 32

theorem windowFew_trace (user : UserMaps) (st : Maps) (ps : List SynPacket)
    (hfew : FewPerWindow ps) (w : Tumbling JudgedSyn)
    (hw : synWindow (Trace.trace (synStep user) st ps) = some w) :
    10 * w.events.length < 2 ^ 32 := by
  have h := hfew ps List.prefix_rfl (w.map Prod.fst) (by rw [synWindow_trace user st, hw]; rfl)
  rwa [Tumbling.map, List.length_map] at h

/-- **A run from a state without an entry of the source.** The entry holds the counts of the current
window, and the verdicts are those of the reference. -/
theorem syn_run (user : UserMaps) {A : U32} {st : Maps} (h0 : st.synFloodMap A = none)
    (ps : List SynPacket) (hfrom : ∀ p ∈ ps, p.IsFrom A)
    (hclock : (ps.map SynPacket.time).Pairwise (· ≤ ·)) (hfew : FewPerWindow ps) :
    Option.Rel SynTracks (synWindow (Trace.trace (synStep user) st ps))
      ((Trace.final (synStep user) st ps).synFloodMap A) ∧
    SynLimited user.config.synFloodRate.toNat (Trace.trace (synStep user) st ps) := by
  refine Trace.trace_induct
    (fun tr (s : Maps) => Option.Rel SynTracks (synWindow tr) (s.synFloodMap A))
    (by simp [h0]) fun pre p hpre htracks => ?_
  have hsorted := (map_time_trace user st (pre ++ [p])).symm ▸ hclock.sublist (hpre.sublist.map _)
  have hlen := windowFew_trace user st (pre ++ [p]) fun pre' hpre' => hfew pre' (hpre'.trans hpre)
  rw [Trace.trace_concat] at hsorted hlen ⊢
  rw [Trace.final_concat]
  generalize Trace.trace (synStep user) st pre = tr at htracks hsorted hlen ⊢
  generalize Trace.final (synStep user) st pre = s at htracks hsorted hlen ⊢
  rw [synStep_eq (hfrom p (hpre.subset (by simp)))] at hsorted hlen ⊢
  simp only [Table.alter_same]
  cases he : synEntry user.config.synFloodRate p.clk.syn p.tcph.ack (s.synFloodMap A) with
  | mk v new =>
    rw [he] at hsorted hlen
    rw [synWindow, Tumbling.after_concat]
    have hle : ∀ info, s.synFloodMap A = some info → info.lastUpdate ≤ p.clk.syn := by
      intro info hinfo
      rw [hinfo] at htracks
      generalize hw : synWindow tr = w at htracks
      cases htracks with
      | some ht =>
        rw [BitVec.le_def, ht.opened]
        exact Tumbling.opened_le hsorted hw
    exact synEntry_spec htracks hle (hlen _ (Tumbling.after_concat ..)) he

/-! ## The bounds -/

/-- The pure SYNs of a window that pass are at most one, or the rate, or ten for each SYN-ACK. -/
theorem SynLimited.passed_le {rate : ℕ} {tr : List JudgedSyn} (h : SynLimited rate tr)
    {w : Tumbling JudgedSyn} (hw : synWindow tr = some w) :
    w.events.countP (fun pv => pv.isSyn && pv.passed) ≤
      max 1 (max rate (10 * w.events.countP JudgedSyn.isAck)) := by
  induction tr using List.reverseRecOn generalizing w with
  | nil => cases hw
  | append_singleton tr pv ih =>
    have hprev : SynLimited rate tr := fun pre qv hpre =>
      h pre qv (hpre.trans (List.prefix_append ..))
    obtain ⟨hiff, -⟩ := h tr pv List.prefix_rfl
    rcases Tumbling.after_concat_cases hw with ⟨-, rfl⟩ | ⟨ho, u, hu, -, rfl⟩
    · exact Nat.le_trans List.countP_le_length (Nat.le_max_left ..)
    · rw [synWindow, Tumbling.after_concat, Option.some.injEq] at hw
      have hwith : windowWith (synWindow tr) pv = u.events ++ [pv] := by
        rw [windowWith, synWindow, hw]
      by_cases hp : (pv.isSyn && pv.passed) = true
      · -- A pure SYN that passes is not in excess, so neither are those of its window that passed.
        have hsyn : pv.isSyn = true := (Bool.and_eq_true_iff.1 hp).1
        have hnot : ¬ SynExcess rate (synWindow tr) pv := by
          rw [← hiff]
          have hpass : pv.2 = .pass := of_decide_eq_true (Bool.and_eq_true_iff.1 hp).2
          rw [hpass]
          nofun
        have hle : (u.events ++ [pv]).countP (fun pv => pv.isSyn && pv.passed) ≤
            (u.events ++ [pv]).countP JudgedSyn.isSyn :=
          List.countP_mono_left fun _ _ hq => (Bool.and_eq_true_iff.1 hq).1
        have hcount : ¬ (rate < (u.events ++ [pv]).countP JudgedSyn.isSyn ∧
            10 * (u.events ++ [pv]).countP JudgedSyn.isAck <
              (u.events ++ [pv]).countP JudgedSyn.isSyn) :=
          fun hx => hnot ⟨hsyn, ho, by rwa [hwith]⟩
        simp only at hle hcount ⊢
        omega
      · have := ih hprev hu
        simp only [List.countP_append, List.countP_singleton, hp] at this ⊢
        simp only [Bool.false_eq_true, if_false]
        omega

/-- With few pure SYNs in every interval no packet is dropped. -/
theorem SynLimited.pass_of_few {rate : ℕ} {tr : List JudgedSyn} (h : SynLimited rate tr)
    (hclock : (tr.map JudgedSyn.time).Pairwise (· ≤ ·))
    (hfew : ∀ x, Tumbling.inInterval NSEC_PER_SEC JudgedSyn.time JudgedSyn.isSyn x tr ≤ rate)
    {pv : JudgedSyn} (hpv : pv ∈ tr) : pv.2 = .pass := by
  obtain ⟨pre, post, rfl⟩ := List.append_of_mem hpv
  have hpre : pre ++ [pv] <+: pre ++ pv :: post := ⟨post, by simp⟩
  obtain ⟨hiff, hverdict⟩ := h pre pv hpre
  refine hverdict.resolve_left fun hdrop => ?_
  have hex := (hiff.1 hdrop).2.2.1
  have hin := Tumbling.countP_window_le (by decide : 0 < NSEC_PER_SEC)
    (hclock.sublist (hpre.sublist.map _)) (Tumbling.after_concat ..) JudgedSyn.isSyn
  have hmono := hpre.sublist.countP_le (p := fun qv => qv.isSyn && decide
    ((Tumbling.step NSEC_PER_SEC JudgedSyn.time (synWindow pre) pv).opened ≤ qv.time ∧
      qv.time < (Tumbling.step NSEC_PER_SEC JudgedSyn.time (synWindow pre) pv).opened +
        NSEC_PER_SEC))
  exact Nat.lt_irrefl _ (Nat.lt_of_lt_of_le hex (hin.trans (hmono.trans (hfew _))))

/-- Without SYN-ACKs at most twice one, or the rate, pass in a second. -/
theorem SynLimited.interval_le {rate : ℕ} {tr : List JudgedSyn} (h : SynLimited rate tr)
    (hclock : (tr.map JudgedSyn.time).Pairwise (· ≤ ·)) (hsyn : ∀ pv ∈ tr, pv.isSyn = true)
    (x : ℕ) :
    Tumbling.inInterval NSEC_PER_SEC JudgedSyn.time JudgedSyn.passed x tr ≤ 2 * max 1 rate := by
  refine Tumbling.inInterval_le hclock (fun pre hpre w hw => ?_) x
  have hlim : SynLimited rate pre := fun pre' pv hp => h pre' pv (hp.trans hpre)
  have hall : ∀ pv ∈ w.events, pv.isSyn = true := fun pv hpv =>
    hsyn pv (hpre.subset ((Tumbling.after_suffix hw).subset hpv))
  have hacks : w.events.countP JudgedSyn.isAck = 0 :=
    List.countP_eq_zero.2 fun pv hpv => by
      simpa [JudgedSyn.isSyn, JudgedSyn.isAck] using hall pv hpv
  have hpassed : w.events.countP JudgedSyn.passed =
      w.events.countP (fun pv => pv.isSyn && pv.passed) :=
    List.countP_congr fun pv hpv => by simp [hall pv hpv]
  have hle := hlim.passed_le hw
  rw [hacks] at hle
  omega

/-- What is asked of the verdicts of a run at a fixed rate. -/
structure SynLimiterCorrect (rate : ℕ) (tr : List JudgedSyn) : Prop where
  drops : ∀ pre pv, pre ++ [pv] <+: tr → (pv.2 = .drop ↔ SynExcess rate (synWindow pre) pv)
  perWindow : ∀ pre, pre <+: tr → ∀ w, synWindow pre = some w →
    w.events.countP (fun pv => pv.isSyn && pv.passed) ≤
      max 1 (max rate (10 * w.events.countP JudgedSyn.isAck))
  perSecond : (∀ pv ∈ tr, pv.isSyn = true) → ∀ x,
    Tumbling.inInterval NSEC_PER_SEC JudgedSyn.time JudgedSyn.passed x tr ≤ 2 * max 1 rate
  neverDropped :
    (∀ x, Tumbling.inInterval NSEC_PER_SEC JudgedSyn.time JudgedSyn.isSyn x tr ≤ rate) →
    ∀ pv ∈ tr, pv.2 = .pass

/-- **The SYN limiter.** From a state without an entry of the source, it drops exactly the packets
in excess, and the bounds on what passes follow. -/
theorem checkSynFlood_correct (user : UserMaps) (A : U32) (st : Maps)
    (h0 : st.synFloodMap A = none) (ps : List SynPacket) (hfrom : ∀ p ∈ ps, p.IsFrom A)
    (hclock : (ps.map SynPacket.time).Pairwise (· ≤ ·)) (hfew : FewPerWindow ps) :
    SynLimiterCorrect user.config.synFloodRate.toNat
      (Trace.trace (synStep user) st ps) := by
  have hlim := (syn_run user h0 ps hfrom hclock hfew).2
  rw [← map_time_trace user st ps] at hclock
  exact
    { drops := fun pre pv hpre => (hlim pre pv hpre).1
      perWindow := fun pre hpre w hw =>
        SynLimited.passed_le (fun pre' pv hp => hlim pre' pv (hp.trans hpre)) hw
      perSecond := fun hsyn x => hlim.interval_le hclock hsyn x
      neverDropped := fun hfew pv hpv => hlim.pass_of_few hclock hfew hpv }

/-- A short history has few packets in every window. -/
theorem fewPerWindow_of_length {ps : List SynPacket} (h : 10 * ps.length < 2 ^ 32) :
    FewPerWindow ps := by
  intro pre hpre w hw
  have h1 := (Tumbling.after_suffix hw).length_le
  have h2 := hpre.length_le
  omega

/-- A SYN, or a SYN-ACK, from 10.0.0.1 at a time. -/
def synAt (now : U64) (ack : Bool) : SynPacket where
  clk := .still now
  iph := ⟨5, bpfHtons 40, 0, 64, IPPROTO_TCP, 0x0100000a, 0x0200000a⟩
  tcph := ⟨0, 0, 5, if ack then 0x12 else 0x02⟩

theorem synAt_isFrom (now : U64) (ack : Bool) : (synAt now ack).IsFrom 0x0100000a :=
  ⟨rfl, by cases ack <;> simp [synAt, TcpHdr.syn]⟩

theorem checkSynFlood_correct_second :
    let user := { UserMaps.initial with configMap := fun _ => ⟨1, 0, 0, 0, 0⟩ }
    let ps := [synAt 0 false, synAt 1 false, synAt 2 true, synAt 1000000000 false]
    (Trace.trace (synStep user) Maps.initial ps).map Prod.snd = [.pass, .drop, .pass, .pass] ∧
      SynLimiterCorrect 1 (Trace.trace (synStep user) Maps.initial ps) := by
  intro user ps
  refine ⟨by decide +kernel, checkSynFlood_correct user 0x0100000a Maps.initial rfl ps ?_
    (by decide) (fewPerWindow_of_length (by decide))⟩
  intro p hp
  simp only [ps, List.mem_cons, List.not_mem_nil, or_false] at hp
  rcases hp with rfl | rfl | rfl | rfl <;> exact synAt_isFrom ..

end Cyrenus
