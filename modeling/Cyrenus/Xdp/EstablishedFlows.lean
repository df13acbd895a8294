import Cyrenus.Xdp.FlowHistory
import Cyrenus.Xdp.Udp

/-!
# How a flow becomes established

The two checks that are lenient with established flows look the flow of a packet up in the flow
table, under a key they build themselves, and ask whether its record started more than five seconds
ago. In a run without evictions a record is never removed, so it started with the first frame that
was accounted under its key: a flow is established exactly when some frame of it was accounted so
long ago (`leniency_earned`).
-/

namespace Cyrenus

/-! ## The frames accounted in a run -/

/-- A frame of the run was accounted as `a`. -/
def AccountedIn (events : List TableEvent) (a : Accounted) : Prop :=
  ∃ pre user f post, events = pre ++ .frame user f :: post ∧
    accountedBy user f (recorded pre).maps = some a

/-- The event is a frame. -/
def TableEvent.IsFrame : TableEvent → Prop
  | .frame _ _ => True
  | .evict _ => False

theorem accountedIn_concat {events : List TableEvent} {user : UserMaps} {f : TimedFrame}
    {a : Accounted} :
    AccountedIn (events ++ [.frame user f]) a ↔
      AccountedIn events a ∨ accountedBy user f (recorded events).maps = some a := by
  constructor
  · rintro ⟨pre, user', f', post, heq, ha⟩
    cases post using List.reverseRecOn with
    | nil =>
      obtain ⟨rfl, he⟩ := List.append_inj' heq rfl
      cases he
      exact .inr ha
    | append_singleton post e =>
      rw [← List.cons_append, ← List.append_assoc] at heq
      exact .inl ⟨pre, user', f', post, (List.append_inj' heq rfl).1, ha⟩
  · rintro (⟨pre, user', f', post, rfl, ha⟩ | ha)
    · exact ⟨pre, user', f', post ++ [.frame user f], by simp, ha⟩
    · exact ⟨events, user, f, [], rfl, ha⟩

/-- Without evictions, the history of a key holds all frames of the run accounted under it. -/
theorem mem_history_iff {events : List TableEvent} (hframes : ∀ e ∈ events, e.IsFrame)
    {k : FlowKey} {a : Accounted} :
    a ∈ (recorded events).history k ↔ AccountedIn events a ∧ a.key = k := by
  induction events using List.reverseRecOn with
  | nil =>
    refine iff_of_false List.not_mem_nil ?_
    rintro ⟨⟨pre, _, _, _, heq, -⟩, -⟩
    cases pre <;> cases heq
  | append_singleton events e ih =>
    have hprev := ih fun e he => hframes e (List.mem_append_left _ he)
    cases e with
    | evict gone => exact (hframes (.evict gone) (by simp)).elim
    | frame user f =>
      rw [accountedIn_concat, recorded, Trace.final_concat]
      change a ∈ (recordedStep _ (recorded events)).2.history k ↔ _
      simp only [recordedStep]
      cases hacc : accountedBy user f (recorded events).maps with
      | none => simp [hprev]
      | some b =>
        simp only [Option.elim_some, Option.some.injEq]
        by_cases hk : k = b.key
        · subst hk
          simp only [Function.update_self, List.mem_append, List.mem_singleton, hprev]
          constructor
          · rintro (⟨ha, hkey⟩ | rfl)
            · exact ⟨.inl ha, hkey⟩
            · exact ⟨.inr rfl, rfl⟩
          · rintro ⟨ha | rfl, hkey⟩
            · exact .inl ⟨ha, hkey⟩
            · exact .inr rfl
        · simp only [Function.update_of_ne hk, hprev]
          constructor
          · rintro ⟨ha, hkey⟩
            exact ⟨.inl ha, hkey⟩
          · rintro ⟨ha | rfl, hkey⟩
            · exact ⟨ha, hkey⟩
            · exact absurd hkey.symm hk

/-! ## Established flows -/

/-- Five seconds, in nanoseconds. -/
def ESTABLISHED_AGE : ℕ := 5000000000

/-- Some frame of the flow has been accounted more than five seconds before a time. -/
def Earned (events : List TableEvent) (k : FlowKey) (t : U64) : Prop :=
  ∃ a, AccountedIn events a ∧ a.key = k ∧ a.now.toNat + ESTABLISHED_AGE < t.toNat

/-- **A flow is established when that has been earned.** -/
theorem isEstablishedFlow_iff_earned {events : List TableEvent} (hframes : ∀ e ∈ events, e.IsFrame)
    {k : FlowKey} {t : U64} (hclock : (events.filterMap TableEvent.time ++ [t]).Pairwise (· ≤ ·)) :
    isEstablishedFlow (recorded events).maps.activeTraffic k.srcIp k.dstIp k.srcPort k.dstPort
      k.proto t = true ↔ Earned events k t := by
  have hearned : Earned events k t ↔
      ∃ a ∈ (recorded events).history k, a.now.toNat + ESTABLISHED_AGE < t.toNat := by
    simp only [mem_history_iff hframes, Earned, and_assoc]
  have hsub := history_sublist events k
  have hr := recorded_consistent events k
  have hkey : (⟨k.srcIp, k.dstIp, k.srcPort, k.dstPort, k.proto⟩ : FlowKey) = k := rfl
  rw [List.pairwise_append] at hclock
  rw [hearned, isEstablishedFlow, hkey]
  cases hk : (recorded events).maps.activeTraffic k with
  | none =>
    rw [hk] at hr
    rw [show (recorded events).history k = [] from hr]
    simp
  | some info =>
    rw [hk] at hr
    obtain ⟨a, ha, hstart⟩ := Option.map_eq_some_iff.1 (RecordOf.start hr)
    have hmem := List.mem_of_head? ha
    have hle : a.now ≤ t :=
      hclock.2.2 _ (hsub.subset (List.mem_map_of_mem hmem)) _ (List.mem_singleton_self t)
    have hage : t - info.flowStartTime > 5000000000 ↔ a.now.toNat + ESTABLISHED_AGE < t.toNat := by
      have hle' : a.now.toNat ≤ t.toNat := hle
      rw [← hstart, gt_iff_lt, BitVec.lt_def, BitVec.toNat_sub_of_le hle]
      change 5000000000 < t.toNat - a.now.toNat ↔ a.now.toNat + 5000000000 < t.toNat
      omega
    simp only [decide_eq_true_eq, hage]
    refine ⟨fun hlt => ⟨a, hmem, hlt⟩, ?_⟩
    -- The first frame of the history is the oldest one.
    rintro ⟨b, hb, hlt⟩
    have hfirst : a.now.toNat ≤ b.now.toNat :=
      head_le (hclock.1.sublist hsub) (by rw [List.head?_map, ha]; rfl) _ (List.mem_map_of_mem hb)
    omega

/-! ## The thresholds in force -/

/-- The key of the flow of a UDP packet. -/
def udpKey (iph : IpHdr) (udph : UdpHdr) : FlowKey :=
  ⟨iph.saddr, iph.daddr, bpfNtohs udph.source, bpfNtohs udph.dest, IPPROTO_UDP⟩

/-- `check_udp_flood` decides on a packet, and counts it, by the given threshold. -/
def UdpDecidedBy (threshold : U64) (user : UserMaps) (clk : Clock) (iph : IpHdr) (udph : UdpHdr)
    (st : Maps) : Prop :=
  let pktSize : U32 := (bpfNtohs iph.totLen).setWidth 32
  let r := udpEntry threshold clk.udp
    (udpOversize (bpfNtohs udph.source) (bpfNtohs udph.dest) pktSize) pktSize
    (st.udpFloodMap iph.saddr)
  (checkUdpFlood user clk iph udph st).1 = r.1.verdict ∧
    (checkUdpFlood user clk iph udph st).2.udpFloodMap iph.saddr = r.2

/-- `check_dns_amplification` decides on a packet to or from the DNS port, and counts it, by the
given threshold. -/
def DnsDecidedBy (threshold : U32) (user : UserMaps) (clk : Clock) (iph : IpHdr) (udph : UdpHdr)
    (isResponse : Bool) (st : Maps) : Prop :=
  bpfNtohs udph.source = DNS_PORT ∨ bpfNtohs udph.dest = DNS_PORT →
    let r := dnsEntry threshold clk.dns isResponse ((bpfNtohs iph.totLen).setWidth 32)
      (st.dnsTrackMap iph.saddr)
    (checkDnsAmplification user clk iph udph isResponse st).1 = r.1 ∧
      (checkDnsAmplification user clk iph udph isResponse st).2.dnsTrackMap iph.saddr = r.2

theorem udpDecidedBy (user : UserMaps) (clk : Clock) (iph : IpHdr) (udph : UdpHdr) (st : Maps) :
    UdpDecidedBy (udpThreshold user.config (flowEstablished st.activeTraffic iph udph clk.udp))
      user clk iph udph st :=
  udpStep_eq user (p := ⟨st.activeTraffic, clk, iph, udph⟩) rfl st

theorem dnsDecidedBy (user : UserMaps) (clk : Clock) (iph : IpHdr) (udph : UdpHdr)
    (isResponse : Bool) (st : Maps) :
    DnsDecidedBy (dnsThreshold user.config (flowEstablished st.activeTraffic iph udph clk.dns))
      user clk iph udph isResponse st := by
  intro hport
  have hnot : ¬ (bpfNtohs udph.source ≠ DNS_PORT ∧ bpfNtohs udph.dest ≠ DNS_PORT) := by tauto
  simp only [checkDnsAmplification, if_neg hnot, getConfig_configMap, Table.alter_fst,
    Table.alter_same]
  exact ⟨rfl, rfl⟩

/-- **Leniency is earned.** After a run of frames whose clock never steps back, and at readings of
the clock that are no earlier, the flow of a UDP packet is established for each of the two checks
exactly when a frame of it was accounted more than five seconds before; and both decide by the
threshold for established flows exactly then. -/
theorem leniency_earned (events : List TableEvent) (hframes : ∀ e ∈ events, e.IsFrame)
    (user : UserMaps) (clk : Clock) (iph : IpHdr) (udph : UdpHdr) (isResponse : Bool) (st : Maps)
    (hst : st.activeTraffic = (recorded events).maps.activeTraffic)
    (hclock : (events.filterMap TableEvent.time ++ [clk.dns, clk.udp]).Pairwise (· ≤ ·)) :
    (∃ e : Bool, (e = true ↔ Earned events (udpKey iph udph) clk.udp) ∧
      flowEstablished st.activeTraffic iph udph clk.udp = e ∧
      UdpDecidedBy (udpThreshold user.config e) user clk iph udph st) ∧
    ∃ e : Bool, (e = true ↔ Earned events (udpKey iph udph) clk.dns) ∧
      flowEstablished st.activeTraffic iph udph clk.dns = e ∧
      DnsDecidedBy (dnsThreshold user.config e) user clk iph udph isResponse st := by
  have hest : ∀ t, (events.filterMap TableEvent.time ++ [t]).Pairwise (· ≤ ·) →
      (flowEstablished st.activeTraffic iph udph t = true ↔ Earned events (udpKey iph udph) t) := by
    intro t ht
    rw [hst]
    exact isEstablishedFlow_iff_earned hframes (k := udpKey iph udph) ht
  refine ⟨⟨_, hest clk.udp (hclock.sublist ?_), rfl, udpDecidedBy user clk iph udph st⟩,
    ⟨_, hest clk.dns (hclock.sublist ?_), rfl, dnsDecidedBy user clk iph udph isResponse st⟩⟩
  · exact (List.Sublist.refl _).append (by simp)
  · exact (List.Sublist.refl _).append (by simp)

/-- A datagram of a flow at some time. -/
def datagramAt (now : U64) : TableEvent :=
  .frame { UserMaps.initial with configMap := fun _ => ⟨0, 100, 0, 100, 15⟩ }
    ⟨.still now, ipv4Frame IPPROTO_UDP [10, 0, 0, 1] [10, 0, 0, 2] [0, 53, 31, 144, 0, 8, 0, 0], 0⟩

/-- The headers of its packets. -/
def datagramIp : IpHdr := ⟨5, bpfHtons 28, 0, 64, IPPROTO_UDP, 0x0100000a, 0x0200000a⟩

def datagramUdp : UdpHdr := ⟨bpfHtons 53, bpfHtons 8080⟩

/-- Six seconds after its first packet the flow is established. -/
theorem leniency_earned_six :
    flowEstablished (recorded [datagramAt 0]).maps.activeTraffic datagramIp datagramUdp
        6000000000 = true ∧
    (∃ e : Bool, (e = true ↔ Earned [datagramAt 0] (udpKey datagramIp datagramUdp) 6000000000) ∧
      flowEstablished (recorded [datagramAt 0]).maps.activeTraffic datagramIp datagramUdp
        6000000000 = e ∧
      UdpDecidedBy (udpThreshold UserMaps.initial.config e) UserMaps.initial (.still 6000000000)
        datagramIp datagramUdp (recorded [datagramAt 0]).maps) ∧
    ∃ e : Bool, (e = true ↔ Earned [datagramAt 0] (udpKey datagramIp datagramUdp) 6000000000) ∧
      flowEstablished (recorded [datagramAt 0]).maps.activeTraffic datagramIp datagramUdp
        6000000000 = e ∧
      DnsDecidedBy (dnsThreshold UserMaps.initial.config e) UserMaps.initial (.still 6000000000)
        datagramIp datagramUdp true (recorded [datagramAt 0]).maps :=
  ⟨by decide +kernel, leniency_earned [datagramAt 0]
    (fun e he => by rw [List.mem_singleton.1 he]; trivial) UserMaps.initial (.still 6000000000)
    datagramIp datagramUdp true _ rfl (by decide)⟩

end Cyrenus
