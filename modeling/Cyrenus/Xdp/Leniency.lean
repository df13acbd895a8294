import Cyrenus.Xdp.Isolation
import Cyrenus.Xdp.Udp

/-!
# Higher thresholds and established flows

Whether a frame that passes still does when thresholds are raised, or when its flow counts as
established. Each check compares what it has counted with a threshold, so it does as long as the
threshold in force does not fall (`xdpProg_pass_of_looser`). But the thresholds for established
flows are 32-bit products that wrap, and so are the tokens of the ICMP bucket; `leniency_iff` says
for which thresholds that matters in some state.
-/

namespace Cyrenus

/-! ## What is compared -/

/-- No threshold of the first configuration is above that of the second one. -/
structure AttacksConfig.Below (c c' : AttacksConfig) : Prop where
  synFloodRate : c.synFloodRate ≤ c'.synFloodRate
  udpFloodRate : c.udpFloodRate ≤ c'.udpFloodRate
  icmpFloodRate : c.icmpFloodRate ≤ c'.icmpFloodRate
  dnsAmpRate : c.dnsAmpRate ≤ c'.dnsAmpRate
  maxFrags : c.maxFrags ≤ c'.maxFrags

/-- The user maps with other thresholds. -/
def UserMaps.withConfig (user : UserMaps) (c : AttacksConfig) : UserMaps :=
  { user with configMap := fun _ => c }

@[simp] theorem UserMaps.withConfig_config (user : UserMaps) (c : AttacksConfig) :
    (user.withConfig c).config = c := rfl

/-- What a frame passes under the first configuration, with the first flow table, it passes under
the second ones too: every threshold that is in force for it is as high. -/
structure Looser (c c' : AttacksConfig) (flows flows' : Table FlowKey TrafficInfo) (clk : Clock)
    (ctx : XdpMd) : Prop where
  maxFrags : c.maxFrags ≤ c'.maxFrags
  synFloodRate : c.synFloodRate ≤ c'.synFloodRate
  icmpFloodRate : c.icmpFloodRate = 0 ∨ c.icmpFloodRate = c'.icmpFloodRate
  dns : ∀ udph, ctx.transport ctx.iphdr = some (.udp udph) →
    dnsThreshold c (flowEstablished flows ctx.iphdr udph clk.dns) ≤
      dnsThreshold c' (flowEstablished flows' ctx.iphdr udph clk.dns)
  udp : ∀ udph, ctx.transport ctx.iphdr = some (.udp udph) →
    udpThreshold c (flowEstablished flows ctx.iphdr udph clk.udp) ≤
        udpThreshold c' (flowEstablished flows' ctx.iphdr udph clk.udp) ∨
      udpThreshold c (flowEstablished flows ctx.iphdr udph clk.udp) ≤ 200

/-! ## Entries -/

/-- A fragment that is not one too many is not under a higher limit. -/
theorem fragEntry_mono {m m' : U32} (h : m ≤ m') (now : U64) (old : Option FragInfo)
    (hfew : (fragEntry m now old).1 = false) : (fragEntry m' now old).1 = false := by
  cases old with
  | none => rfl
  | some info =>
    simp only [fragEntry, decide_eq_false_iff_not, BitVec.not_lt, gt_iff_lt] at hfew ⊢
    exact BitVec.le_trans hfew h

/-- The entry does not depend on the limit. -/
theorem fragEntry_snd (m m' : U32) (now : U64) (old : Option FragInfo) :
    (fragEntry m now old).2 = (fragEntry m' now old).2 := by
  cases old <;> rfl

/-- At rate zero only a bucket that is new lets a packet pass. -/
theorem tokenBucketEntry_mono {r r' : U32} (h : r = 0 ∨ r = r') (now : U64)
    (old : Option TokenBucket) (hpass : (tokenBucketEntry r now old).1 = .pass) :
    (tokenBucketEntry r' now old).1 = .pass := by
  obtain rfl | rfl := h
  · cases old with
    | none => rfl
    | some bucket =>
      have hzero : ∀ n : U32, (if n > 0 then 0 else n) = 0 := fun n => by
        split
        · rfl
        · bv_omega
      simp only [tokenBucketEntry, hzero] at hpass
      cases hpass
  · exact hpass

/-- The SYN counters do not depend on the rate. -/
theorem synEntry_mono {r r' : U32} (h : r ≤ r') (now : U64) (ack : Bool)
    (old : Option SynFloodInfo) (hpass : (synEntry r now ack old).1 = .pass) :
    (synEntry r' now ack old).1 = .pass ∧
      (synEntry r now ack old).2 = (synEntry r' now ack old).2 := by
  cases old with
  | none => exact ⟨rfl, rfl⟩
  | some info =>
    simp only [synEntry] at hpass ⊢
    by_cases hin : now - info.lastUpdate < 1000000000
    · simp only [if_pos hin] at hpass ⊢
      cases ack with
      | true => exact ⟨rfl, rfl⟩
      | false =>
        simp only [Bool.false_eq_true, if_false] at hpass ⊢
        by_cases hmany : info.synCount + 1 > r ∧ info.synCount + 1 > info.synackCount * 10
        · rw [if_pos hmany] at hpass
          cases hpass
        · have hmany' : ¬ (info.synCount + 1 > r' ∧ info.synCount + 1 > info.synackCount * 10) :=
            fun h' => hmany ⟨by have := h'.1; bv_omega, h'.2⟩
          rw [if_neg hmany, if_neg hmany']
          exact ⟨rfl, rfl⟩
    · simp only [if_neg hin]
      exact ⟨trivial, trivial⟩

/-- The DNS counter does not depend on the threshold. -/
theorem dnsEntry_mono {t t' : U32} (h : t ≤ t') (now : U64) (isResponse : Bool) (packetSize : U32)
    (old : Option DnsInfo) (hpass : (dnsEntry t now isResponse packetSize old).1 = .pass) :
    (dnsEntry t' now isResponse packetSize old).1 = .pass ∧
      (dnsEntry t now isResponse packetSize old).2 =
        (dnsEntry t' now isResponse packetSize old).2 := by
  cases old with
  | none => exact ⟨rfl, rfl⟩
  | some info =>
    simp only [dnsEntry] at hpass ⊢
    by_cases hin : now - info.lastUpdate < 1000000000
    · simp only [if_pos hin] at hpass ⊢
      by_cases hmany : info.packetCount + 1 > t
      · rw [if_pos hmany] at hpass
        cases hpass
      · have hmany' : ¬ info.packetCount + 1 > t' := by bv_omega
        rw [if_neg hmany] at hpass
        rw [if_neg hmany, if_neg hmany']
        exact ⟨hpass, rfl⟩
    · simp only [if_neg hin]
      exact ⟨trivial, trivial⟩

/-- More than 200 packets in less than a second are more than 200 a second. -/
theorem lt_pps {n : U32} {timeDiff : U64} (hn : n > UDP_FLOOD_BURST) (hpos : 0 < timeDiff)
    (hlt : timeDiff < 1000000000) : 200 < n.setWidth 64 * 1000000000 / timeDiff := by
  have hn' : 200 < n.toNat := hn
  have hpos' : 0 < timeDiff.toNat := hpos
  have hlt' : timeDiff.toNat < 1000000000 := hlt
  rw [BitVec.lt_def, toNat_pps]
  refine (Nat.le_div_iff_mul_le hpos').2 ?_
  calc 201 * timeDiff.toNat ≤ 201 * 1000000000 := Nat.mul_le_mul_left _ (Nat.le_of_lt hlt')
    _ ≤ n.toNat * 1000000000 := Nat.mul_le_mul_right _ hn'

/-- The UDP counters depend on the threshold only in what happens to a flood. -/
theorem udpEntry_mono {t t' : U64} (h : t ≤ t' ∨ t ≤ 200) (now : U64) (oversize : Bool)
    (pktSize : U32) (old : Option UdpFloodInfo)
    (hpass : (udpEntry t now oversize pktSize old).1 = .pass) :
    (udpEntry t' now oversize pktSize old).1 = .pass ∧
      (udpEntry t now oversize pktSize old).2 = (udpEntry t' now oversize pktSize old).2 := by
  cases old with
  | none => exact ⟨rfl, rfl⟩
  | some info =>
    simp only [udpEntry] at hpass ⊢
    by_cases hout : now - info.lastUpdate ≥ 1000000000
    · simp only [if_pos hout]
      exact ⟨trivial, trivial⟩
    · simp only [if_neg hout] at hpass ⊢
      generalize hpps : (info.packetCount + 1).setWidth 64 * 1000000000 / (now - info.lastUpdate)
        = pps at hpass ⊢
      by_cases hmany : now - info.lastUpdate > 100000000 ∧ pps > t ∧
          info.packetCount + 1 > UDP_FLOOD_BURST
      · rw [if_pos hmany] at hpass
        cases hpass
      · have hmany' : ¬ (now - info.lastUpdate > 100000000 ∧ pps > t' ∧
            info.packetCount + 1 > UDP_FLOOD_BURST) := by
          rintro ⟨hlong, hfast, hburst⟩
          have hfloor := lt_pps hburst (show 0 < now - info.lastUpdate by bv_omega)
            (show now - info.lastUpdate < 1000000000 by bv_omega)
          rw [hpps] at hfloor
          refine hmany ⟨hlong, ?_, hburst⟩
          obtain h | h := h
          · bv_omega
          · bv_omega
        rw [if_neg hmany] at hpass
        rw [if_neg hmany, if_neg hmany']
        exact ⟨hpass, rfl⟩

/-! ## The checks -/

/-- Two states agree on the counters of the protocol limiters, and have these flow tables. -/
structure SameLimiters (flows flows' : Table FlowKey TrafficInfo) (st st' : Maps) : Prop where
  synFloodMap : st.synFloodMap = st'.synFloodMap
  dnsTrackMap : st.dnsTrackMap = st'.dnsTrackMap
  udpFloodMap : st.udpFloodMap = st'.udpFloodMap
  left : st.activeTraffic = flows
  right : st'.activeTraffic = flows'

/-- They agree on the counters of all checks. -/
structure SameCounters (flows flows' : Table FlowKey TrafficInfo) (st st' : Maps) : Prop extends
    SameLimiters flows flows' st st' where
  fragTrackMap : st.fragTrackMap = st'.fragTrackMap
  tokenBuckets : st.tokenBuckets = st'.tokenBuckets

section

variable {c c' : AttacksConfig} {user : UserMaps} {clk : Clock} {ip : IpHdr}
  {flows flows' : Table FlowKey TrafficInfo}

/-- Too many fragments are dropped, whatever they look like. -/
theorem fragVerdict_pass {tooMany : Bool} (h : fragVerdict ip tooMany = .pass) :
    tooMany = false := by
  cases tooMany with
  | false => rfl
  | true => cases h

theorem handleFragment_lenient (h : c.maxFrags ≤ c'.maxFrags) :
    Stage.Lenient .pass (SameCounters flows flows') (SameCounters flows flows')
      (handleFragment (user.withConfig c) clk ip) (handleFragment (user.withConfig c') clk ip) := by
  intro st st' hR hpass
  unfold handleFragment at hpass ⊢
  split at hpass
  · next hfrag =>
    simp only [if_pos hfrag, getConfig_configMap, UserMaps.withConfig_config,
      Table.alter_fst] at hpass ⊢
    have hfew := fragVerdict_pass hpass
    rw [hfew] at hpass
    rw [← hR.fragTrackMap, fragEntry_mono h _ _ hfew]
    refine ⟨hpass, { hR with fragTrackMap := ?_ }⟩
    simp only [Table.alter, fragEntry_snd c.maxFrags c'.maxFrags, hR.fragTrackMap]
  · next hfrag =>
    simp only [if_neg hfrag]
    exact ⟨trivial, hR⟩

theorem earlyFilter_lenient (h : c.icmpFloodRate = 0 ∨ c.icmpFloodRate = c'.icmpFloodRate)
    (proto : U8) :
    Stage.Lenient .pass (SameCounters flows flows') (SameLimiters flows flows')
      (earlyFilter (user.withConfig c) clk ip proto)
      (earlyFilter (user.withConfig c') clk ip proto) := by
  intro st st' hR hpass
  unfold earlyFilter at hpass ⊢
  split_ifs at hpass ⊢
  · exact ⟨rfl, hR.toSameLimiters⟩
  · simp only [getConfig_configMap, UserMaps.withConfig_config, Table.alter_fst] at hpass ⊢
    rw [← hR.tokenBuckets]
    exact ⟨tokenBucketEntry_mono h _ _ hpass, { hR.toSameLimiters with }⟩
  · exact ⟨rfl, hR.toSameLimiters⟩

theorem ipChecks_lenient (hfrags : c.maxFrags ≤ c'.maxFrags)
    (hicmp : c.icmpFloodRate = 0 ∨ c.icmpFloodRate = c'.icmpFloodRate) :
    Stage.Lenient .pass (SameCounters flows flows') (SameLimiters flows flows')
      (ipChecks (user.withConfig c) clk ip) (ipChecks (user.withConfig c') clk ip) :=
  have hgeoip : Stage.Respects (SameCounters flows flows') (checkGeoip user ip.saddr) :=
    checkGeoip_respects ip.saddr
  (handleFragment_lenient hfrags).andThen (hgeoip.lenient.andThen (earlyFilter_lenient hicmp _))

theorem checkSynFlood_lenient (h : c.synFloodRate ≤ c'.synFloodRate) (tcph : TcpHdr) :
    Stage.Lenient .pass (SameLimiters flows flows') (SameLimiters flows flows')
      (checkSynFlood (user.withConfig c) clk ip tcph)
      (checkSynFlood (user.withConfig c') clk ip tcph) := by
  intro st st' hR hpass
  unfold checkSynFlood at hpass ⊢
  split at hpass
  · next hsyn =>
    simp only [if_pos hsyn, getConfig_configMap, UserMaps.withConfig_config,
      Table.alter_fst] at hpass ⊢
    obtain ⟨hpass', hsame⟩ := synEntry_mono h _ _ _ hpass
    rw [← hR.synFloodMap]
    refine ⟨hpass', { hR with synFloodMap := ?_ }⟩
    simp only [Table.alter, hsame]
  · next hsyn =>
    simp only [if_neg hsyn]
    exact ⟨trivial, hR⟩

variable {udph : UdpHdr}

theorem checkDnsAmplification_lenient
    (h : dnsThreshold c (flowEstablished flows ip udph clk.dns) ≤
      dnsThreshold c' (flowEstablished flows' ip udph clk.dns)) (isResponse : Bool) :
    Stage.Lenient .pass (SameLimiters flows flows') (SameLimiters flows flows')
      (checkDnsAmplification (user.withConfig c) clk ip udph isResponse)
      (checkDnsAmplification (user.withConfig c') clk ip udph isResponse) := by
  intro st st' hR hpass
  obtain rfl := hR.left
  obtain rfl := hR.right
  unfold checkDnsAmplification at hpass ⊢
  dsimp only at hpass ⊢
  split at hpass
  · next hport =>
    simp only [if_pos hport]
    exact ⟨trivial, hR⟩
  · next hport =>
    simp only [if_neg hport, getConfig_configMap, UserMaps.withConfig_config,
      Table.alter_fst] at hpass ⊢
    obtain ⟨hpass', hsame⟩ := dnsEntry_mono h _ _ _ _ hpass
    rw [← hR.dnsTrackMap]
    refine ⟨hpass', { hR with dnsTrackMap := ?_ }⟩
    simp only [Table.alter]
    exact congrArg _ hsame

theorem checkUdpFlood_lenient
    (h : udpThreshold c (flowEstablished flows ip udph clk.udp) ≤
        udpThreshold c' (flowEstablished flows' ip udph clk.udp) ∨
      udpThreshold c (flowEstablished flows ip udph clk.udp) ≤ 200) :
    Stage.Lenient .pass (SameLimiters flows flows') (SameLimiters flows flows')
      (checkUdpFlood (user.withConfig c) clk ip udph)
      (checkUdpFlood (user.withConfig c') clk ip udph) := by
  intro st st' hR hpass
  obtain rfl := hR.left
  obtain rfl := hR.right
  unfold checkUdpFlood at hpass ⊢
  simp only [getConfig_configMap, UserMaps.withConfig_config, Table.alter_fst,
    ← hR.udpFloodMap] at hpass ⊢
  split at hpass
  · next hfound =>
    obtain ⟨hfound', hsame⟩ := udpEntry_mono h _ _ _ _ hfound
    simp only [flowEstablished] at hfound'
    simp only [hfound']
    refine ⟨trivial, { hR with udpFloodMap := ?_ }⟩
    simp only [Table.alter]
    exact congrArg _ hsame
  · cases hpass
  · cases hpass

end

/-! ## The program -/

/-- **Raised thresholds and established flows let pass what passed before**, as long as no threshold
in force for the frame falls. -/
theorem xdpProg_pass_of_looser {c c' : AttacksConfig} {user : UserMaps} {clk : Clock} {ctx : XdpMd}
    {st : Maps} {flows : Table FlowKey TrafficInfo}
    (h : Looser c c' st.activeTraffic flows clk ctx)
    (hpass : (xdpProg (user.withConfig c) clk ctx st).1 = .pass) :
    (xdpProg (user.withConfig c') clk ctx { st with activeTraffic := flows }).1 = .pass := by
  cases hip : ctx.isIpv4 with
  | false =>
    obtain he | he := xdpProg_of_not_isIpv4 hip (user.withConfig c') clk
      { st with activeTraffic := flows } <;> rw [he]
  | true =>
    rw [xdpProg_of_isIpv4 hip] at hpass ⊢
    have hR : SameCounters st.activeTraffic flows (countFrame ctx st)
        (countFrame ctx { st with activeTraffic := flows }) := ⟨⟨rfl, rfl, rfl, rfl, rfl⟩, rfl, rfl⟩
    have hl4 : Stage.Lenient .pass (SameLimiters st.activeTraffic flows) (fun _ _ => True)
        (l4Stages (user.withConfig c) clk ctx.iphdr (ctx.transport ctx.iphdr))
        (l4Stages (user.withConfig c') clk ctx.iphdr (ctx.transport ctx.iphdr)) := by
      cases htr : ctx.transport ctx.iphdr with
      | none => exact fun _ _ _ _ => ⟨rfl, trivial⟩
      | some l4 =>
        have hlimit : Stage.Lenient .pass (SameLimiters st.activeTraffic flows)
            (SameLimiters st.activeTraffic flows) (limit (user.withConfig c) clk ctx.iphdr l4)
            (limit (user.withConfig c') clk ctx.iphdr l4) := by
          cases l4 with
          | tcp h' => exact checkSynFlood_lenient h.synFloodRate h'
          | udp h' =>
            exact (checkDnsAmplification_lenient (h.dns h' htr) _).andThen
              (checkUdpFlood_lenient (h.udp h' htr))
          | icmp h' => exact (respects_const _).lenient
        have hrules : Stage.Respects (SameLimiters st.activeTraffic flows)
            (applyRules user clk ctx.iphdr l4) := applyRules_respects l4
        exact hlimit.andThen (hrules.lenient.andThen fun _ _ _ _ => ⟨rfl, trivial⟩)
    exact ((ipChecks_lenient h.maxFrags h.icmpFloodRate).andThen hl4 _ _ hR hpass).1

/-! ## For which thresholds -/

/-- Every frame that passes under the first configuration, in some state and at some time, passes
there under the second one. -/
def Lenient (c c' : AttacksConfig) : Prop :=
  ∀ (user : UserMaps) clk ctx st, (xdpProg (user.withConfig c) clk ctx st).1 = .pass →
    (xdpProg (user.withConfig c') clk ctx st).1 = .pass

/-- No frame that passes is dropped in a state that differs in the flow table only, by which the
frame's flow may be established now. -/
def LenientToEstablished (c : AttacksConfig) : Prop :=
  ∀ (user : UserMaps) clk ctx st flows,
    (∀ udph, ctx.transport ctx.iphdr = some (.udp udph) → ∀ now, now = clk.dns ∨ now = clk.udp →
      flowEstablished st.activeTraffic ctx.iphdr udph now = true →
      flowEstablished flows ctx.iphdr udph now = true) →
    (xdpProg (user.withConfig c) clk ctx st).1 = .pass →
    (xdpProg (user.withConfig c) clk ctx { st with activeTraffic := flows }).1 ≠ .drop

/-- The thresholds for established flows keep their order, and the ICMP rate, whose product with the
time elapsed wraps, is the same or zero. No estimate of `check_udp_flood` is as low as 200. -/
structure KeepsOrder (c c' : AttacksConfig) : Prop where
  icmp : c.icmpFloodRate = 0 ∨ c.icmpFloodRate = c'.icmpFloodRate
  dns : c.dnsAmpRate * 5 ≤ c'.dnsAmpRate * 5
  udp : c.udpFloodRate * 10 ≤ c'.udpFloodRate * 10 ∨ c.udpFloodRate * 10 ≤ 200

/-- The thresholds for established flows are not below those for other ones. -/
structure Multiplies (c : AttacksConfig) : Prop where
  dns : c.dnsAmpRate ≤ c.dnsAmpRate * 5
  udp : c.udpFloodRate ≤ c.udpFloodRate * 10

theorem setWidth_le {x y : U32} (h : x ≤ y) : x.setWidth 64 ≤ y.setWidth 64 := by bv_omega

theorem KeepsOrder.looser {c c' : AttacksConfig} (hle : c.Below c') (h : KeepsOrder c c')
    (flows : Table FlowKey TrafficInfo) (clk : Clock) (ctx : XdpMd) :
    Looser c c' flows flows clk ctx where
  maxFrags := hle.maxFrags
  synFloodRate := hle.synFloodRate
  icmpFloodRate := h.icmp
  dns udph _ := by
    simp only [dnsThreshold]
    split
    · exact h.dns
    · exact hle.dnsAmpRate
  udp udph _ := by
    simp only [udpThreshold]
    split
    · exact h.udp.imp setWidth_le fun h200 => setWidth_le h200
    · exact .inl (setWidth_le hle.udpFloodRate)

theorem Multiplies.looser {c : AttacksConfig} (h : Multiplies c)
    {flows flows' : Table FlowKey TrafficInfo} {clk : Clock} {ctx : XdpMd}
    (hflows : ∀ udph, ctx.transport ctx.iphdr = some (.udp udph) →
      ∀ now, now = clk.dns ∨ now = clk.udp →
      flowEstablished flows ctx.iphdr udph now = true →
      flowEstablished flows' ctx.iphdr udph now = true) :
    Looser c c flows flows' clk ctx where
  maxFrags := BitVec.le_refl _
  synFloodRate := BitVec.le_refl _
  icmpFloodRate := .inr rfl
  dns udph hudph := by
    cases hold : flowEstablished flows ctx.iphdr udph clk.dns with
    | true => rw [hflows udph hudph _ (.inl rfl) hold]; exact BitVec.le_refl _
    | false =>
      cases flowEstablished flows' ctx.iphdr udph clk.dns with
      | true => exact h.dns
      | false => exact BitVec.le_refl _
  udp udph hudph := by
    refine .inl ?_
    cases hold : flowEstablished flows ctx.iphdr udph clk.udp with
    | true => rw [hflows udph hudph _ (.inr rfl) hold]; exact BitVec.le_refl _
    | false =>
      cases flowEstablished flows' ctx.iphdr udph clk.udp with
      | true => exact setWidth_le h.udp
      | false => exact BitVec.le_refl _

/-! ## Probes -/

/-- A UDP packet of 28 bytes to a port. -/
def udpProbe (dport : U16) : XdpMd where
  data := ipv4Frame IPPROTO_UDP [10, 0, 0, 1] [10, 0, 0, 2]
    [0x13, 0x88, 0, dport.setWidth 8, 0, 8, 0, 0]
  cpu := 0

/-- An ICMP packet. -/
def icmpProbe : XdpMd where
  data := ipv4Frame IPPROTO_ICMP [10, 0, 0, 1] [10, 0, 0, 2] [8, 0, 0, 0, 0, 0, 0, 0]
  cpu := 0

/-- The IP header of a UDP probe. -/
def probeIp : IpHdr := ⟨5, bpfHtons 28, 0, 64, IPPROTO_UDP, 0x0100000a, 0x0200000a⟩

/-- The UDP header of a UDP probe. -/
def probeUdp (dport : U16) : UdpHdr := ⟨bpfHtons 5000, bpfHtons dport⟩

/-- All that the program knows about the source of a probe. -/
structure Known where
  tokens : Option TokenBucket := none
  dns : Option DnsInfo := none
  udp : Option UdpFloodInfo := none
  /-- The flow has been there since time zero. -/
  aged : Bool := false

/-- The maps that hold that of every source. -/
def Known.maps (k : Known) : Maps :=
  { Maps.initial with
    tokenBuckets := fun _ => k.tokens
    dnsTrackMap := fun _ => k.dns
    udpFloodMap := fun _ => k.udp
    activeTraffic := fun _ => if k.aged then some {} else none }

/-- The verdict on a probe, six seconds after time zero. -/
def probed (c : AttacksConfig) (ctx : XdpMd) (k : Known) : XdpAction :=
  (xdpProg (UserMaps.initial.withConfig c) (.still 6000000000) ctx k.maps).1

theorem probed_icmp (c : AttacksConfig) (k : Known) :
    probed c icmpProbe k = (tokenBucketEntry c.icmpFloodRate 6000000000 k.tokens).1 := by
  rw [probed, xdpProg_of_isIpv4 (by decide +kernel), Check.andThen, Stage.andThen_fst_of_pass]
  · rfl
  · exact fun st => rfl

theorem Known.isEstablishedFlow (k : Known) (ctx : XdpMd) (srcIp dstIp : U32)
    (srcPort dstPort : U16) (proto : U8) :
    isEstablishedFlow (countFrame ctx k.maps).activeTraffic srcIp dstIp srcPort dstPort proto
      6000000000 = k.aged := by
  simp only [Cyrenus.isEstablishedFlow, countFrame_activeTraffic, Known.maps]
  cases k.aged <;> decide +kernel

/-- On a UDP probe to one of these ports only the limiters matter. -/
theorem probed_udpProbe (c : AttacksConfig) {dport : U16} (hdport : dport = 53 ∨ dport = 80)
    (k : Known) :
    probed c (udpProbe dport) k =
      (limit (UserMaps.initial.withConfig c) (.still 6000000000) probeIp (.udp (probeUdp dport))
        (countFrame (udpProbe dport) k.maps)).1 := by
  have hframe : (udpProbe dport).isIpv4 = true ∧ (udpProbe dport).iphdr = probeIp ∧
      (udpProbe dport).transport probeIp = some (.udp (probeUdp dport)) := by
    obtain rfl | rfl := hdport <;> decide +kernel
  obtain ⟨hip, hiphdr, hl4⟩ := hframe
  have hpass : ∀ st, ipChecks (UserMaps.initial.withConfig c) (.still 6000000000) probeIp st =
      (.pass, st) := fun st => rfl
  rw [probed, xdpProg_of_isIpv4 hip, hiphdr, hl4, Check.andThen,
    Stage.andThen_of_pass (by rw [hpass]), hpass]
  apply Stage.andThen_fst_of_pass
  exact fun st => rfl

theorem checkDnsAmplification_probe (c : AttacksConfig) (ctx : XdpMd) (k : Known) :
    (checkDnsAmplification (UserMaps.initial.withConfig c) (.still 6000000000) probeIp
        (probeUdp 53) false (countFrame ctx k.maps)).1 =
      (dnsEntry (dnsThreshold c k.aged) 6000000000 false 28 k.dns).1 := by
  simp only [checkDnsAmplification, probeUdp, probeIp, bpfNtohs_bpfHtons, getConfig_configMap,
    UserMaps.withConfig_config, Table.alter_fst, Clock.still, Known.isEstablishedFlow]
  rw [if_neg (by decide)]
  rfl

theorem checkUdpFlood_probe (c : AttacksConfig) (ctx : XdpMd) (k : Known) :
    (checkUdpFlood (UserMaps.initial.withConfig c) (.still 6000000000) probeIp (probeUdp 80)
        (countFrame ctx k.maps)).1 =
      (udpEntry (udpThreshold c k.aged) 6000000000 false 28 k.udp).1.verdict := by
  have hsize : udpOversize 5000 80 ((28 : U16).setWidth 32) = false := by decide
  simp only [checkUdpFlood_fst, probeUdp, probeIp, bpfNtohs_bpfHtons, UserMaps.withConfig_config,
    Clock.still, Known.isEstablishedFlow, hsize]
  rfl

theorem probed_dns (c : AttacksConfig) {k : Known} (hudp : k.udp = none) :
    probed c (udpProbe 53) k = (dnsEntry (dnsThreshold c k.aged) 6000000000 false 28 k.dns).1 := by
  have hdns := checkDnsAmplification_probe c (udpProbe 53) k
  rw [probed_udpProbe c (.inl rfl), limit,
    show decide ((probeUdp 53).source = bpfHtons DNS_PORT) = false by decide, Check.andThen]
  by_cases hpass : (dnsEntry (dnsThreshold c k.aged) 6000000000 false 28 k.dns).1 = .pass
  · rw [Stage.andThen_of_pass (hdns.trans hpass), hpass]
    exact checkUdpFlood_of_none hudp
  · rw [Stage.andThen_of_stop (mt hdns.symm.trans hpass), hdns]

theorem probed_udp (c : AttacksConfig) (k : Known) :
    probed c (udpProbe 80) k =
      (udpEntry (udpThreshold c k.aged) 6000000000 false 28 k.udp).1.verdict := by
  rw [probed_udpProbe c (.inr rfl), limit, Check.andThen, Stage.andThen_of_pass (by rfl)]
  exact checkUdpFlood_probe c _ k

/-! ## What the probes show -/

/-- A second's refill is the rate, and the sum wraps. -/
theorem refill_second (tokens rate : U32) :
    (tokens.setWidth 64 + 1000000000 * rate.setWidth 64 / 1000000000 : U64).setWidth 32 =
      tokens + rate := by
  have hrate := rate.isLt
  have htokens := tokens.isLt
  apply BitVec.eq_of_toNat_eq
  have hdiv : (1000000000 * rate.setWidth 64 / 1000000000 : U64).toNat = rate.toNat := by
    rw [BitVec.toNat_udiv, BitVec.toNat_mul, BitVec.toNat_setWidth,
      Nat.mod_eq_of_lt (show rate.toNat < 2 ^ 64 by omega)]
    change 1000000000 * rate.toNat % 2 ^ 64 / 1000000000 = _
    omega
  rw [BitVec.toNat_setWidth, BitVec.toNat_add, hdiv, BitVec.toNat_setWidth, BitVec.toNat_add]
  omega

/-- What a bucket does with the refill of a second. -/
theorem tokenBucketEntry_second (rate tokens : U32) :
    (tokenBucketEntry rate 6000000000 (some ⟨5000000000, tokens⟩)).1 =
      if (if tokens + rate > rate then rate else tokens + rate) ≥ 1 then .pass else .drop := by
  have helapsed : (6000000000 - 5000000000 : U64) = 1000000000 := by decide
  simp only [tokenBucketEntry, helapsed, refill_second]
  split <;> split <;> rfl

/-- With some tokens in the bucket a second's refill at the higher of two rates wraps to none. -/
theorem icmp_tells {r r' : U32} (hr : r ≠ 0) (h : r < r') :
    ∃ b : TokenBucket, (tokenBucketEntry r 6000000000 (some b)).1 = .pass ∧
      (tokenBucketEntry r' 6000000000 (some b)).1 = .drop := by
  refine ⟨⟨5000000000, -r'⟩, ?_, ?_⟩
  · rw [tokenBucketEntry_second]
    refine if_pos ?_
    split <;> bv_omega
  · rw [tokenBucketEntry_second]
    refine if_neg ?_
    split <;> bv_omega

/-- A count between two thresholds is over the one and not over the other. -/
theorem dns_tells {t t' : U32} (h : t' < t) :
    ∃ info : DnsInfo, (dnsEntry t 6000000000 false 28 (some info)).1 = .pass ∧
      (dnsEntry t' 6000000000 false 28 (some info)).1 = .drop := by
  have hin : (6000000000 - 6000000000 : U64) < 1000000000 := by decide
  refine ⟨⟨6000000000, t', 0⟩, ?_, ?_⟩
  · have hfew : ¬ t' + 1 > t := by bv_omega
    simp only [dnsEntry, if_pos hin, if_neg hfew]
    rfl
  · have hmany : t' + 1 > t' := by bv_omega
    simp only [dnsEntry, if_pos hin, if_pos hmany]

/-- What the limiter does with an estimate, in the time when it makes one. -/
theorem udpEntry_estimate {t : U64} {n : U32} {e : U64} (hn : 200 < n) (hlong : 100000000 < e)
    (hin : e < 1000000000) :
    (udpEntry t 6000000000 false 28 (some ⟨6000000000 - e, n - 1, 0⟩)).1.verdict =
      if t < n.setWidth 64 * 1000000000 / e then .drop else .pass := by
  have helapsed : (6000000000 - (6000000000 - e) : U64) = e := by bv_omega
  have hcount : n - 1 + 1 = n := by bv_omega
  have hnew : ¬ e ≥ 1000000000 := by bv_omega
  simp only [udpEntry, helapsed, hcount, if_neg hnew]
  by_cases hfast : t < n.setWidth 64 * 1000000000 / e
  · rw [if_pos ⟨hlong, hfast, hn⟩, if_pos hfast]
    rfl
  · rw [if_neg fun h => hfast h.2.1, if_neg hfast]
    rfl

/-- Every even estimate above 200 occurs, and this odd one. -/
theorem exists_pps {v : U32} (hv : 200 < v) (h : v.toNat % 2 = 0 ∨ v = 3340530119) :
    ∃ (n : U32) (e : U64), 200 < n ∧ 100000000 < e ∧ e < 1000000000 ∧
      n.setWidth 64 * 1000000000 / e = v.setWidth 64 := by
  have hv' : 200 < v.toNat := hv
  have hlt := v.isLt
  obtain heven | rfl := h
  · have hwide : (v.setWidth 64).toNat = v.toNat := by
      rw [BitVec.toNat_setWidth]
      exact Nat.mod_eq_of_lt (by omega)
    by_cases hsmall : v.toNat < 999999999
    · refine ⟨v, 999999999, hv, by decide, by decide, BitVec.eq_of_toNat_eq ?_⟩
      rw [toNat_pps, hwide]
      change v.toNat * 1000000000 / 999999999 = v.toNat
      omega
    · have hhalf : (BitVec.ofNat 32 (v.toNat / 2)).toNat = v.toNat / 2 := by
        rw [BitVec.toNat_ofNat]
        exact Nat.mod_eq_of_lt (by omega)
      refine ⟨BitVec.ofNat 32 (v.toNat / 2), 500000000, ?_, by decide, by decide,
        BitVec.eq_of_toNat_eq ?_⟩
      · rw [BitVec.lt_def, hhalf]
        change 200 < v.toNat / 2
        omega
      · rw [toNat_pps, hwide, hhalf]
        change v.toNat / 2 * 1000000000 / 500000000 = v.toNat
        omega
  · exact ⟨3340530116, 999999999, by decide, by decide, by decide, by decide +kernel⟩

/-- Of the odd rates only this one, ten times itself, wraps to its predecessor. -/
theorem rate_of_mul_ten_eq_pred {r : ℕ} (hlt : r < 2 ^ 32) (hpos : 0 < r)
    (h : r * 10 % 2 ^ 32 = r - 1) : r = 3340530119 := by
  have hdiv := Nat.div_add_mod (r * 10) (2 ^ 32)
  have hquot : r * 10 / 2 ^ 32 < 10 := Nat.div_lt_of_lt_mul (by omega)
  rw [h] at hdiv
  have hnine : 9 * (r + 1) = 2 ^ 32 * (r * 10 / 2 ^ 32) + 8 := by omega
  have hseven : ∀ q < 10, (2 ^ 32 * q + 8) % 9 = 0 → q = 7 := by decide
  rw [hseven _ hquot (hnine ▸ Nat.mul_mod_right ..)] at hnine
  omega

/-- If ten times a rate wraps below it, an estimate that occurs lies in between. -/
theorem exists_even_between {r : ℕ} (hlt : r < 2 ^ 32) (h : r * 10 % 2 ^ 32 < r) :
    ∃ v, 200 < v ∧ v ≤ r ∧ r * 10 % 2 ^ 32 < v ∧ (v % 2 = 0 ∨ v = 3340530119) := by
  have hhigh : 202 < r := by
    by_contra hlow
    rw [Nat.mod_eq_of_lt (by omega)] at h
    omega
  by_cases heven : r % 2 = 0
  · exact ⟨r, by omega, Nat.le_refl _, h, .inl heven⟩
  · by_cases hgap : r * 10 % 2 ^ 32 = r - 1
    · exact ⟨r, by omega, Nat.le_refl _, h, .inr (rate_of_mul_ten_eq_pred hlt (by omega) hgap)⟩
    · exact ⟨r - 1, by omega, Nat.sub_le .., Nat.lt_of_le_of_ne (Nat.le_sub_one_of_lt h) hgap,
        .inl (by omega)⟩

/-- The same in machine words. -/
theorem exists_pps_between {r : U32} (h : r * 10 < r) :
    ∃ v : U32, 200 < v ∧ v ≤ r ∧ r * 10 < v ∧ (v.toNat % 2 = 0 ∨ v = 3340530119) := by
  obtain ⟨v, hhigh, hle, hlt, hocc⟩ := exists_even_between r.isLt h
  have hv : (BitVec.ofNat 32 v).toNat = v := by
    rw [BitVec.toNat_ofNat]
    exact Nat.mod_eq_of_lt (Nat.lt_of_le_of_lt hle r.isLt)
  refine ⟨BitVec.ofNat 32 v, ?_, ?_, ?_, ?_⟩
  · rw [BitVec.lt_def, hv]
    exact hhigh
  · rwa [BitVec.le_def, hv]
  · rw [BitVec.lt_def, hv]
    exact hlt
  · rw [hv]
    exact hocc.imp_right fun hv => by rw [hv]; rfl

/-- An estimate between two thresholds is over the one and not over the other. -/
theorem udp_tells {t t' v : U32} (hv : 200 < v) (hle : v ≤ t) (hlt : t' < v)
    (h : v.toNat % 2 = 0 ∨ v = 3340530119) :
    ∃ info : UdpFloodInfo,
      (udpEntry (t.setWidth 64) 6000000000 false 28 (some info)).1.verdict = .pass ∧
        (udpEntry (t'.setWidth 64) 6000000000 false 28 (some info)).1.verdict = .drop := by
  obtain ⟨n, e, hn, hlong, hin, hpps⟩ := exists_pps hv h
  refine ⟨⟨6000000000 - e, n - 1, 0⟩, ?_, ?_⟩
  · rw [udpEntry_estimate hn hlong hin, hpps]
    exact if_neg (by bv_omega)
  · rw [udpEntry_estimate hn hlong hin, hpps]
    exact if_pos (by bv_omega)

/-! ## The thresholds that are lenient -/

theorem Lenient.keepsOrder {c c' : AttacksConfig} (hle : c.Below c') (h : Lenient c c') :
    KeepsOrder c c' := by
  have hprobe : ∀ (ctx : XdpMd) (k : Known), probed c ctx k = .pass → probed c' ctx k ≠ .drop :=
    fun ctx k hpass hdrop => by
      have hpass' : probed c' ctx k = .pass := h _ _ _ _ hpass
      rw [hpass'] at hdrop
      cases hdrop
  constructor
  · by_contra hrates
    rw [not_or] at hrates
    have hlt : c.icmpFloodRate < c'.icmpFloodRate := by
      have := hle.icmpFloodRate
      have := hrates.2
      bv_omega
    obtain ⟨b, hpass, hdrop⟩ := icmp_tells hrates.1 hlt
    exact hprobe icmpProbe { tokens := some b } (by rw [probed_icmp, hpass])
      (by rw [probed_icmp, hdrop])
  · by_contra hwraps
    obtain ⟨info, hpass, hdrop⟩ := dns_tells (BitVec.not_le.1 hwraps)
    exact hprobe (udpProbe 53) { dns := some info, aged := true } ((probed_dns c rfl).trans hpass)
      ((probed_dns c' rfl).trans hdrop)
  · by_contra hwraps
    rw [not_or, BitVec.not_le, BitVec.not_le] at hwraps
    obtain ⟨info, hpass, hdrop⟩ := udp_tells hwraps.2 (BitVec.le_refl _) hwraps.1
      (.inl (by bv_omega))
    exact hprobe (udpProbe 80) { udp := some info, aged := true } ((probed_udp c _).trans hpass)
      ((probed_udp c' _).trans hdrop)

theorem LenientToEstablished.multiplies {c : AttacksConfig} (h : LenientToEstablished c) :
    Multiplies c := by
  have hprobe : ∀ (ctx : XdpMd) (k : Known), k.aged = false → probed c ctx k = .pass →
      probed c ctx { k with aged := true } ≠ .drop := by
    intro ctx k hnew hpass
    refine h _ _ _ k.maps { k with aged := true }.maps.activeTraffic ?_ hpass
    intro udph hudph now hnow hest
    simp [flowEstablished, isEstablishedFlow, Known.maps, hnew] at hest
  constructor
  · by_contra hwraps
    obtain ⟨info, hpass, hdrop⟩ := dns_tells (BitVec.not_le.1 hwraps)
    exact hprobe (udpProbe 53) { dns := some info } rfl ((probed_dns c rfl).trans hpass)
      ((probed_dns c rfl).trans hdrop)
  · by_contra hwraps
    obtain ⟨v, hv, hle, hlt, hocc⟩ := exists_pps_between (BitVec.not_le.1 hwraps)
    obtain ⟨info, hpass, hdrop⟩ := udp_tells hv hle hlt hocc
    exact hprobe (udpProbe 80) { udp := some info } rfl ((probed_udp c _).trans hpass)
      ((probed_udp c _).trans hdrop)

/-- **For which thresholds raising them is lenient, and for which the status of a flow is.** -/
theorem leniency_iff (c c' : AttacksConfig) (hle : c.Below c') :
    (Lenient c c' ↔ KeepsOrder c c') ∧ (LenientToEstablished c ↔ Multiplies c) := by
  refine ⟨⟨fun h => h.keepsOrder hle, ?_⟩, ⟨fun h => h.multiplies, ?_⟩⟩
  · intro h user clk ctx st hpass
    exact xdpProg_pass_of_looser (h.looser hle st.activeTraffic clk ctx) hpass
  · intro h user clk ctx st flows hflows hpass
    rw [xdpProg_pass_of_looser (h.looser hflows) hpass]
    exact XdpAction.noConfusion

theorem leniency_iff_moderate :
    Lenient ⟨1000, 50000, 100, 200, 15⟩ ⟨2000, 60000, 100, 300, 15⟩ ∧
      LenientToEstablished ⟨1000, 50000, 100, 200, 15⟩ := by
  have h := leniency_iff ⟨1000, 50000, 100, 200, 15⟩ ⟨2000, 60000, 100, 300, 15⟩
    ⟨by decide, by decide, by decide, by decide, by decide⟩
  exact ⟨h.1.2 ⟨.inr rfl, by decide, .inl (by decide)⟩, h.2.2 ⟨by decide, by decide⟩⟩

/-- A source with 299 packets counted in 0.9 seconds. -/
def busy : Known := { udp := some ⟨5100000000, 299, 0⟩ }

/-- Raising the UDP rate to 429496730, ten times which is 4, drops a frame of an established flow
that passed before; and under that rate a frame passes until its flow is established. -/
theorem leniency_fails :
    AttacksConfig.Below ⟨1000, 40, 100, 200, 15⟩ ⟨1000, 429496730, 100, 200, 15⟩ ∧
      probed ⟨1000, 40, 100, 200, 15⟩ (udpProbe 80) { busy with aged := true } = .pass ∧
      probed ⟨1000, 429496730, 100, 200, 15⟩ (udpProbe 80) { busy with aged := true } = .drop ∧
      probed ⟨1000, 429496730, 100, 200, 15⟩ (udpProbe 80) busy = .pass := by
  refine ⟨⟨by decide, by decide, by decide, by decide, by decide⟩, ?_, ?_, ?_⟩ <;> decide +kernel

end Cyrenus
