import Cyrenus.Lib.Trace
import Cyrenus.Lib.Window
import Cyrenus.Xdp.Checks

/-!
# What the DNS limiter lets pass

`check_dns_amplification` keeps one wrapping counter and one time stamp for each source, and
compares the counter with a threshold that depends on the packet's own flow. The reference is a
history: the source's packets fall into windows of one second (`Tumbling`), and a packet is refused
(`DnsRefused`) when its window so far, dropped packets included, holds more packets than the
threshold of this packet allows, or when the packet is an oversize response. `dnsEntry_spec` shows
that the counter is that of the current window and that the limiter drops exactly the packets
refused; `dns_run` carries this along a run, and `checkDnsAmplification_correct` draws the bounds
from it.
-/

namespace Cyrenus

/-- A UDP packet as the limiter sees it: the clock, the headers, whether the caller takes it for a
response, and the flow table of the moment. -/
structure DnsPacket where
  flows : Table FlowKey TrafficInfo
  clk : Clock
  iph : IpHdr
  udph : UdpHdr
  isResponse : Bool

namespace DnsPacket

/-- The time the limiter reads for a packet. -/
def time (p : DnsPacket) : ℕ := p.clk.dns.toNat

/-- `packet_size`. -/
def size (p : DnsPacket) : U32 := (bpfNtohs p.iph.totLen).setWidth 32

/-- The packet belongs to an established flow. -/
def isEstablished (p : DnsPacket) : Bool :=
  isEstablishedFlow p.flows p.iph.saddr p.iph.daddr (bpfNtohs p.udph.source)
    (bpfNtohs p.udph.dest) IPPROTO_UDP p.clk.dns

/-- The packet is a response longer than the limiter lets a response be. -/
def Oversize (p : DnsPacket) : Prop := p.isResponse = true ∧ 512 < p.size.toNat

/-- The packet comes from the source `A` and has the DNS port at one of its ends. -/
structure IsFrom (A : U32) (p : DnsPacket) : Prop where
  saddr : p.iph.saddr = A
  port : bpfNtohs p.udph.source = DNS_PORT ∨ bpfNtohs p.udph.dest = DNS_PORT

/-- The packets a second that are allowed on the packet's flow. -/
def allowed (rate : ℕ) (p : DnsPacket) : ℕ := if p.isEstablished then 5 * rate else rate

end DnsPacket

/-- The limiter on one packet of a run. -/
def dnsStep (user : UserMaps) (p : DnsPacket) : Check := fun st =>
  checkDnsAmplification user p.clk p.iph p.udph p.isResponse { st with activeTraffic := p.flows }

/-- A packet of a run with the verdict it got. -/
abbrev JudgedDns := DnsPacket × XdpAction

namespace JudgedDns

def time (pv : JudgedDns) : ℕ := pv.1.time

/-- The limiter lets the packet pass. -/
def passed (pv : JudgedDns) : Bool := decide (pv.2 = .pass)

end JudgedDns

/-- The window that is current after a history. -/
abbrev dnsWindow (tr : List JudgedDns) : Option (Tumbling JudgedDns) :=
  Tumbling.after NSEC_PER_SEC JudgedDns.time tr

/-- A packet is refused: it does not open a window, and its window, up to and including it, holds
more packets than are allowed on its flow, or it is an oversize response. -/
def DnsRefused (rate : ℕ) (w : Option (Tumbling JudgedDns)) (pv : JudgedDns) : Prop :=
  ¬ Tumbling.Opens NSEC_PER_SEC JudgedDns.time w pv ∧
    (pv.1.allowed rate < (Tumbling.step NSEC_PER_SEC JudgedDns.time w pv).events.length ∨
      pv.1.Oversize)

/-! ## One packet -/

/-- The entry of a source holds the count of a window. -/
structure DnsTracks (w : Tumbling JudgedDns) (info : DnsInfo) : Prop where
  opened : info.lastUpdate.toNat = w.opened
  count : info.packetCount.toNat = w.events.length

/-- The threshold in force is what is allowed, as long as five times the rate does not wrap. -/
theorem toNat_dnsThreshold {cfg : AttacksConfig} (hrate : 5 * cfg.dnsAmpRate.toNat < 2 ^ 32)
    (p : DnsPacket) :
    (dnsThreshold cfg p.isEstablished).toNat = p.allowed cfg.dnsAmpRate.toNat := by
  rw [dnsThreshold, DnsPacket.allowed]
  split
  · rw [Nat.mul_comm]
    exact BitVec.toNat_mul_of_lt (by change _ * 5 < 2 ^ 32; omega)
  · rfl

/-- A packet that opens a window passes and starts the count. -/
theorem dnsEntry_of_opens {threshold : U32} {p : DnsPacket} {w : Option (Tumbling JudgedDns)}
    {old : Option DnsInfo} (h : Option.Rel DnsTracks w old)
    (hle : ∀ info, old = some info → info.lastUpdate ≤ p.clk.dns) {v : XdpAction}
    (ho : Tumbling.Opens NSEC_PER_SEC JudgedDns.time w (p, v)) :
    dnsEntry threshold p.clk.dns p.isResponse p.size old =
      (.pass, some ⟨p.clk.dns, 1, p.size⟩) := by
  cases h with
  | none => rfl
  | @some w info ht =>
    have hover : ¬ p.clk.dns - info.lastUpdate < 1000000000 := by
      rw [elapsed_lt_iff (hle info rfl), ht.opened]
      exact Nat.not_lt.2 (ho w rfl)
    exact if_neg hover

/-- A packet inside a window is counted, and dropped when the count exceeds the threshold or it is
an oversize response. -/
theorem dnsEntry_of_inside {threshold : U32} {p : DnsPacket} {u : Tumbling JudgedDns}
    {info : DnsInfo} {new : Option DnsInfo} {v : XdpAction} (ht : DnsTracks u info)
    (hin : p.clk.dns - info.lastUpdate < 1000000000) (hfew : u.events.length + 1 < 2 ^ 32)
    (he : dnsEntry threshold p.clk.dns p.isResponse p.size (some info) = (v, new)) :
    Option.Rel DnsTracks (some ⟨u.opened, u.events ++ [(p, v)]⟩) new ∧
      (v = .drop ↔ threshold.toNat < u.events.length + 1 ∨ p.Oversize) ∧
      (v = .drop ∨ v = .pass) := by
  have hcount : (info.packetCount + 1).toNat = u.events.length + 1 := by
    rw [← ht.count]
    exact BitVec.toNat_add_of_lt (by rw [ht.count]; exact hfew)
  have hover : info.packetCount + 1 > threshold ↔ threshold.toNat < u.events.length + 1 := by
    rw [gt_iff_lt, BitVec.lt_def, hcount]
  have hlarge : (p.isResponse = true ∧ p.size > MAX_DNS_RESPONSE_SIZE) ↔ p.Oversize := Iff.rfl
  have hnew : ∀ v, DnsTracks ⟨u.opened, u.events ++ [(p, v)]⟩
      { info with packetCount := info.packetCount + 1, totalSize := info.totalSize + p.size } :=
    fun v => ⟨ht.opened, by rw [hcount]; simp⟩
  simp only [dnsEntry, hin, if_true] at he
  by_cases hx : info.packetCount + 1 > threshold
  · rw [if_pos hx] at he
    cases he
    exact ⟨.some (hnew _), ⟨fun _ => .inl (hover.1 hx), fun _ => rfl⟩, .inl rfl⟩
  · rw [if_neg hx] at he
    by_cases hy : p.isResponse = true ∧ p.size > MAX_DNS_RESPONSE_SIZE
    · rw [if_pos hy] at he
      cases he
      exact ⟨.some (hnew _), ⟨fun _ => .inr (hlarge.1 hy), fun _ => rfl⟩, .inl rfl⟩
    · rw [if_neg hy] at he
      cases he
      refine ⟨.some (hnew _), ⟨nofun, fun hd => ?_⟩, .inr rfl⟩
      exact (hd.elim (mt hover.2 hx) (mt hlarge.2 hy)).elim

/-- **One packet.** The limiter keeps the count of the current window, and drops the packet exactly
when it is refused. -/
theorem dnsEntry_spec {cfg : AttacksConfig} (hrate : 5 * cfg.dnsAmpRate.toNat < 2 ^ 32)
    {p : DnsPacket} {w : Option (Tumbling JudgedDns)} {old new : Option DnsInfo} {v : XdpAction}
    (h : Option.Rel DnsTracks w old)
    (hle : ∀ info, old = some info → info.lastUpdate ≤ p.clk.dns)
    (hfew : (Tumbling.step NSEC_PER_SEC JudgedDns.time w (p, v)).events.length < 2 ^ 32)
    (he : dnsEntry (dnsThreshold cfg p.isEstablished) p.clk.dns p.isResponse p.size old =
      (v, new)) :
    Option.Rel DnsTracks (some (Tumbling.step NSEC_PER_SEC JudgedDns.time w (p, v))) new ∧
      (v = .drop ↔ DnsRefused cfg.dnsAmpRate.toNat w (p, v)) ∧ (v = .drop ∨ v = .pass) := by
  by_cases ho : Tumbling.Opens NSEC_PER_SEC JudgedDns.time w (p, v)
  · rw [dnsEntry_of_opens h hle ho] at he
    cases he
    rw [Tumbling.step_of_opens ho]
    exact ⟨.some ⟨rfl, rfl⟩, ⟨nofun, fun hx => absurd ho hx.1⟩, .inr rfl⟩
  · obtain ⟨u, rfl, hlt, hstep⟩ := Tumbling.step_of_not_opens ho
    obtain ⟨info, rfl, ht⟩ : ∃ info, old = some info ∧ DnsTracks u info := by
      cases h with
      | some ht => exact ⟨_, rfl, ht⟩
    have hin : p.clk.dns - info.lastUpdate < 1000000000 := by
      rw [elapsed_lt_iff (hle info rfl), ht.opened]
      exact hlt
    rw [hstep, List.length_append, List.length_singleton] at hfew
    obtain ⟨hnew, hiff, hv⟩ := dnsEntry_of_inside ht hin hfew he
    rw [toNat_dnsThreshold hrate] at hiff
    simp only [DnsRefused, hstep, List.length_append, List.length_singleton]
    exact ⟨hnew, ⟨fun hd => ⟨ho, hiff.1 hd⟩, fun hx => hiff.2 hx.2⟩, hv⟩

/-! ## Runs -/

/-- The verdicts of a run are those of the reference. -/
def DnsLimited (rate : ℕ) (tr : List JudgedDns) : Prop :=
  ∀ pre pv, pre ++ [pv] <+: tr →
    (pv.2 = .drop ↔ DnsRefused rate (dnsWindow pre) pv) ∧ (pv.2 = .drop ∨ pv.2 = .pass)

/-- On a packet from the source the limiter applies the entry of the source. -/
theorem dnsStep_eq (user : UserMaps) {A : U32} {p : DnsPacket} (h : p.IsFrom A) (st : Maps) :
    (dnsStep user p st).1 = (dnsEntry (dnsThreshold user.config p.isEstablished) p.clk.dns
        p.isResponse p.size (st.dnsTrackMap A)).1 ∧
      (dnsStep user p st).2.dnsTrackMap A = (dnsEntry (dnsThreshold user.config p.isEstablished)
        p.clk.dns p.isResponse p.size (st.dnsTrackMap A)).2 := by
  obtain ⟨rfl, hport⟩ := h
  have hdns : ¬ (bpfNtohs p.udph.source ≠ DNS_PORT ∧ bpfNtohs p.udph.dest ≠ DNS_PORT) := by
    rwa [not_and_or, not_not, not_not]
  simp only [dnsStep, checkDnsAmplification, hdns, if_false, getConfig_configMap, Table.alter_fst,
    Table.alter_same, DnsPacket.isEstablished, DnsPacket.size, and_self]

/-- The windows of a run are those of its packets. -/
theorem dnsWindow_trace (user : UserMaps) (st : Maps) (ps : List DnsPacket) :
    Tumbling.after NSEC_PER_SEC DnsPacket.time ps =
      (dnsWindow (Trace.trace (dnsStep user) st ps)).map (Tumbling.map Prod.fst) := by
  conv_lhs => rw [← Trace.map_fst_trace (dnsStep user) st ps]
  exact Tumbling.after_map Prod.fst _

/-- The times of a run are those of its packets. -/
theorem map_dnsTime_trace (user : UserMaps) (st : Maps) (ps : List DnsPacket) :
    (Trace.trace (dnsStep user) st ps).map JudgedDns.time = ps.map DnsPacket.time := by
  conv_rhs => rw [← Trace.map_fst_trace (dnsStep user) st ps, List.map_map]
  rfl

/-- No window of the history holds as many packets as would make the counter wrap. -/
def CountablePerWindow (ps : List DnsPacket) : Prop :=
  ∀ pre, pre <+: ps → ∀ w, Tumbling.after NSEC_PER_SEC DnsPacket.time pre = some w →
    w.events.length < 2 ^ 32

theorem CountablePerWindow.trace {ps : List DnsPacket} (hfew : CountablePerWindow ps)
    (user : UserMaps) (st : Maps) {w : Tumbling JudgedDns}
    (hw : dnsWindow (Trace.trace (dnsStep user) st ps) = some w) : w.events.length < 2 ^ 32 := by
  have h := hfew ps List.prefix_rfl (w.map Prod.fst) (by rw [dnsWindow_trace user st, hw]; rfl)
  rwa [Tumbling.map, List.length_map] at h

/-- **A run from a state without an entry of the source.** The entry holds the count of the current
window, and the verdicts are those of the reference. -/
theorem dns_run (user : UserMaps) (hrate : 5 * user.config.dnsAmpRate.toNat < 2 ^ 32) {A : U32}
    {st : Maps} (h0 : st.dnsTrackMap A = none) (ps : List DnsPacket)
    (hfrom : ∀ p ∈ ps, p.IsFrom A) (hclock : (ps.map DnsPacket.time).Pairwise (· ≤ ·))
    (hfew : CountablePerWindow ps) :
    Option.Rel DnsTracks (dnsWindow (Trace.trace (dnsStep user) st ps))
      ((Trace.final (dnsStep user) st ps).dnsTrackMap A) ∧
    DnsLimited user.config.dnsAmpRate.toNat (Trace.trace (dnsStep user) st ps) := by
  refine Trace.trace_induct
    (fun tr (s : Maps) => Option.Rel DnsTracks (dnsWindow tr) (s.dnsTrackMap A))
    (by simp [h0]) fun pre p hpre htracks => ?_
  have hsorted := (map_dnsTime_trace user st (pre ++ [p])).symm ▸ hclock.sublist (hpre.sublist.map _)
  have hfew' : CountablePerWindow (pre ++ [p]) := fun pre' hpre' => hfew pre' (hpre'.trans hpre)
  have hlen := fun w => hfew'.trace (w := w) user st
  rw [Trace.trace_concat] at hsorted hlen ⊢
  rw [Trace.final_concat]
  generalize Trace.trace (dnsStep user) st pre = tr at htracks hsorted hlen ⊢
  generalize Trace.final (dnsStep user) st pre = s at htracks hsorted hlen ⊢
  obtain ⟨hverdict, hmap⟩ := dnsStep_eq user (hfrom p (hpre.subset (by simp))) s
  rw [hmap]
  rw [hverdict] at hsorted hlen ⊢
  cases he : dnsEntry (dnsThreshold user.config p.isEstablished) p.clk.dns p.isResponse p.size
      (s.dnsTrackMap A) with
  | mk v new =>
    rw [he] at hsorted hlen
    rw [dnsWindow, Tumbling.after_concat]
    have hle : ∀ info, s.dnsTrackMap A = some info → info.lastUpdate ≤ p.clk.dns := by
      intro info hinfo
      rw [hinfo] at htracks
      generalize hw : dnsWindow tr = w at htracks
      cases htracks with
      | some ht =>
        rw [BitVec.le_def, ht.opened]
        exact Tumbling.opened_le hsorted hw
    exact dnsEntry_spec hrate htracks hle (hlen _ (Tumbling.after_concat ..)) he

/-! ## The bounds -/

/-- If each packet of a window is allowed at most `B`, at most one or `B` of them pass. -/
theorem DnsLimited.passed_le {rate B : ℕ} {tr : List JudgedDns} (h : DnsLimited rate tr)
    {w : Tumbling JudgedDns} (hw : dnsWindow tr = some w)
    (hB : ∀ pv ∈ w.events, pv.1.allowed rate ≤ B) :
    w.events.countP JudgedDns.passed ≤ max 1 B := by
  induction tr using List.reverseRecOn generalizing w with
  | nil => cases hw
  | append_singleton tr pv ih =>
    have hprev : DnsLimited rate tr := fun pre qv hpre =>
      h pre qv (hpre.trans (List.prefix_append ..))
    obtain ⟨hiff, -⟩ := h tr pv List.prefix_rfl
    rcases Tumbling.after_concat_cases hw with ⟨-, rfl⟩ | ⟨ho, u, hu, -, rfl⟩
    · exact Nat.le_trans List.countP_le_length (Nat.le_max_left ..)
    · rw [dnsWindow, Tumbling.after_concat, Option.some.injEq] at hw
      cases hp : pv.passed with
      | true =>
        -- A packet that passes is not refused, so its whole window keeps to what it is allowed.
        have hlen : (u.events ++ [pv]).length ≤ pv.1.allowed rate := by
          by_contra hlt
          have hdrop : pv.2 = .drop :=
            hiff.2 ⟨ho, .inl (by rw [dnsWindow, hw]; exact Nat.lt_of_not_le hlt)⟩
          exact nomatch hdrop.symm.trans (of_decide_eq_true hp)
        calc (u.events ++ [pv]).countP JudgedDns.passed ≤ (u.events ++ [pv]).length :=
              List.countP_le_length
          _ ≤ pv.1.allowed rate := hlen
          _ ≤ B := hB pv (by simp)
          _ ≤ max 1 B := Nat.le_max_right ..
      | false =>
        have hle := ih hprev hu fun qv hqv => hB qv (by simp [hqv])
        simpa [List.countP_append, List.countP_singleton, hp] using hle

/-- With few packets in every interval and no oversize response no packet is dropped. -/
theorem DnsLimited.pass_of_few {rate : ℕ} {tr : List JudgedDns} (h : DnsLimited rate tr)
    (hclock : (tr.map JudgedDns.time).Pairwise (· ≤ ·))
    (hfew : ∀ x, Tumbling.inInterval NSEC_PER_SEC JudgedDns.time (fun _ => true) x tr ≤ rate)
    (hsize : ∀ pv ∈ tr, ¬ pv.1.Oversize) {pv : JudgedDns} (hpv : pv ∈ tr) : pv.2 = .pass := by
  obtain ⟨pre, post, rfl⟩ := List.append_of_mem hpv
  have hpre : pre ++ [pv] <+: pre ++ pv :: post := ⟨post, by simp⟩
  obtain ⟨hiff, hverdict⟩ := h pre pv hpre
  refine hverdict.resolve_left fun hdrop => ?_
  have hex := (hiff.1 hdrop).2.resolve_right (hsize pv hpv)
  have hallowed : rate ≤ pv.1.allowed rate := by
    rw [DnsPacket.allowed]
    split <;> omega
  have hin := Tumbling.countP_window_le (by decide : 0 < NSEC_PER_SEC)
    (hclock.sublist (hpre.sublist.map _)) (Tumbling.after_concat ..) (fun _ => true)
  have hmono := (hpre.sublist.countP_le (p := fun qv => true && decide
    ((Tumbling.step NSEC_PER_SEC JudgedDns.time (dnsWindow pre) pv).opened ≤ qv.time ∧
      qv.time < (Tumbling.step NSEC_PER_SEC JudgedDns.time (dnsWindow pre) pv).opened +
        NSEC_PER_SEC))).trans (hfew _)
  rw [List.countP_true] at hin
  exact Nat.lt_irrefl _ (Nat.lt_of_lt_of_le (Nat.lt_of_le_of_lt hallowed hex) (hin.trans hmono))

/-- What is asked of the verdicts of a run at a fixed rate. -/
structure DnsLimiterCorrect (rate : ℕ) (tr : List JudgedDns) : Prop where
  perWindow : ∀ pre, pre <+: tr → ∀ w, dnsWindow pre = some w →
    w.events.countP JudgedDns.passed ≤ max 1 (5 * rate)
  perNewWindow : ∀ pre, pre <+: tr → ∀ w, dnsWindow pre = some w →
    (∀ pv ∈ w.events, pv.1.isEstablished = false) →
    w.events.countP JudgedDns.passed ≤ max 1 rate
  neverDropped :
    (∀ x, Tumbling.inInterval NSEC_PER_SEC JudgedDns.time (fun _ => true) x tr ≤ rate) →
    (∀ pv ∈ tr, ¬ pv.1.Oversize) → ∀ pv ∈ tr, pv.2 = .pass

/-- **The DNS limiter.** From a state without an entry of the source, each window lets at most one
packet or five times the rate pass, at most one or the rate if none of them belongs to an
established flow, and a source that keeps to the rate is never dropped. -/
theorem checkDnsAmplification_correct (user : UserMaps)
    (hrate : 5 * user.config.dnsAmpRate.toNat < 2 ^ 32) (A : U32) (st : Maps)
    (h0 : st.dnsTrackMap A = none) (ps : List DnsPacket) (hfrom : ∀ p ∈ ps, p.IsFrom A)
    (hclock : (ps.map DnsPacket.time).Pairwise (· ≤ ·)) (hfew : CountablePerWindow ps) :
    DnsLimiterCorrect user.config.dnsAmpRate.toNat (Trace.trace (dnsStep user) st ps) := by
  have hlim := (dns_run user hrate h0 ps hfrom hclock hfew).2
  have hpre : ∀ pre, pre <+: Trace.trace (dnsStep user) st ps →
      DnsLimited user.config.dnsAmpRate.toNat pre := fun pre hpre pre' pv hp =>
    hlim pre' pv (hp.trans hpre)
  rw [← map_dnsTime_trace user st ps] at hclock
  refine
    { perWindow := fun pre hp w hw => (hpre pre hp).passed_le hw fun pv _ => ?_
      perNewWindow := fun pre hp w hw hnew => (hpre pre hp).passed_le hw fun pv hpv => ?_
      neverDropped := fun hfew hsize pv hpv => hlim.pass_of_few hclock hfew hsize hpv }
  · rw [DnsPacket.allowed]
    split <;> omega
  · rw [DnsPacket.allowed, hnew pv hpv]
    exact Nat.le_refl _

/-- A query of 60 bytes from 10.0.0.1 at a time, on a flow that is in no table. -/
def dnsQueryAt (now : U64) : DnsPacket where
  flows := Table.empty
  clk := .still now
  iph := ⟨5, bpfHtons 60, 0, 64, IPPROTO_UDP, 0x0100000a, 0x0200000a⟩
  udph := ⟨bpfHtons 5000, bpfHtons DNS_PORT⟩
  isResponse := false

theorem checkDnsAmplification_correct_second :
    let user := { UserMaps.initial with configMap := fun _ => ⟨0, 0, 0, 1, 0⟩ }
    let ps := [0, 1, 1000000000].map dnsQueryAt
    (Trace.trace (dnsStep user) Maps.initial ps).map Prod.snd = [.pass, .drop, .pass] ∧
      DnsLimiterCorrect 1 (Trace.trace (dnsStep user) Maps.initial ps) := by
  intro user ps
  refine ⟨by decide +kernel, checkDnsAmplification_correct user (by decide) 0x0100000a
    Maps.initial rfl ps ?_ (by decide) ?_⟩
  · intro p hp
    obtain ⟨now, -, rfl⟩ := List.mem_map.1 hp
    exact ⟨rfl, .inr (by simp [dnsQueryAt])⟩
  · intro pre hpre w hw
    calc w.events.length ≤ pre.length := (Tumbling.after_suffix hw).length_le
      _ ≤ ps.length := hpre.length_le
      _ < 2 ^ 32 := by decide

end Cyrenus
