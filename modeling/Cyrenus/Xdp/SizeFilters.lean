import Cyrenus.Xdp.Prog
import Cyrenus.Xdp.Udp

/-!
# When the size filters catch a packet

The limits on the sizes of DNS and NTP packets stand at the end of `check_dns_amplification` and
`check_udp_flood`. Each check returns before it reaches them when it has no entry for the source, or
one that is a second old. `sizeFilters_iff` says in which states a packet over the limits is
dropped.
-/

namespace Cyrenus

/-- The total length of a packet. -/
def IpHdr.size (iph : IpHdr) : U32 := (bpfNtohs iph.totLen).setWidth 32

/-- The packet goes from or to a port. -/
def UdpHdr.Uses (udph : UdpHdr) (port : U16) : Prop :=
  bpfNtohs udph.source = port ∨ bpfNtohs udph.dest = port

/-- A DNS packet of more than 512 bytes, or an NTP packet of more than 1024 bytes. -/
def OverLimit (iph : IpHdr) (udph : UdpHdr) : Prop :=
  (iph.size > 512 ∧ udph.Uses 53) ∨ (iph.size > 1024 ∧ udph.Uses 123)

/-- The two checks of a UDP packet, as `xdp_prog` makes them. -/
abbrev udpChecks (user : UserMaps) (clk : Clock) (iph : IpHdr) (udph : UdpHdr) : Check :=
  limit user clk iph (.udp udph)

/-! ## One entry -/

/-- The DNS counter stops a packet inside the entry's second, by its threshold or its size. -/
theorem dnsEntry_ne_pass_iff {threshold packetSize : U32} {now : U64} {isResponse : Bool}
    {old : Option DnsInfo} :
    (dnsEntry threshold now isResponse packetSize old).1 ≠ .pass ↔
      ∃ info, old = some info ∧ now - info.lastUpdate < 1000000000 ∧
        (info.packetCount + 1 > threshold ∨ isResponse = true ∧ packetSize > 512) := by
  cases old with
  | none => simp [dnsEntry]
  | some info =>
    simp only [Option.some.injEq, exists_eq_left', dnsEntry]
    by_cases hin : now - info.lastUpdate < 1000000000
    · simp only [if_pos hin]
      by_cases hmany : info.packetCount + 1 > threshold
      · rw [if_pos hmany]
        exact ⟨fun _ => ⟨hin, .inl hmany⟩, fun _ => XdpAction.noConfusion⟩
      · rw [if_neg hmany]
        by_cases hlarge : isResponse = true ∧ packetSize > MAX_DNS_RESPONSE_SIZE
        · rw [if_pos hlarge]
          exact ⟨fun _ => ⟨hin, .inr hlarge⟩, fun _ => XdpAction.noConfusion⟩
        · rw [if_neg hlarge]
          exact ⟨fun h => absurd rfl h, fun h => (h.2.elim hmany hlarge).elim⟩
    · rw [if_neg hin]
      exact ⟨fun h => absurd rfl h, fun h => absurd h.1 hin⟩

/-- The UDP counters stop a packet inside the entry's second, as a flood or by its size. -/
theorem udpEntry_ne_pass_iff {threshold now : U64} {oversize : Bool} {pktSize : U32}
    {old : Option UdpFloodInfo} :
    (udpEntry threshold now oversize pktSize old).1.verdict ≠ .pass ↔
      ∃ info, old = some info ∧ now - info.lastUpdate < 1000000000 ∧
        (IsFlood threshold.toNat (info.packetCount + 1).toNat (now - info.lastUpdate).toNat ∨
          oversize = true) := by
  cases old with
  | none => simp [udpEntry, UdpFinding.verdict]
  | some info =>
    simp only [Option.some.injEq, exists_eq_left', udpEntry, isFlood_words]
    by_cases hin : now - info.lastUpdate < 1000000000
    · rw [if_neg (show ¬ now - info.lastUpdate ≥ 1000000000 from BitVec.not_le.2 hin)]
      by_cases hflood : IsFlood threshold.toNat (info.packetCount + 1).toNat
          (now - info.lastUpdate).toNat
      · rw [if_pos hflood]
        exact ⟨fun _ => ⟨hin, .inl hflood⟩, fun _ => XdpAction.noConfusion⟩
      · rw [if_neg hflood]
        cases oversize with
        | true => exact ⟨fun _ => ⟨hin, .inr rfl⟩, fun _ => XdpAction.noConfusion⟩
        | false => exact ⟨fun h => absurd rfl h, fun h => (h.2.elim hflood Bool.noConfusion).elim⟩
    · rw [if_pos (BitVec.not_lt.1 hin)]
      exact ⟨fun h => absurd rfl h, fun h => absurd h.1 hin⟩

/-! ## The two checks -/

section

variable (user : UserMaps) (clk : Clock) (iph : IpHdr) (udph : UdpHdr) (st : Maps)

/-- The source of the packet has a DNS entry that is not a second old, and the packet comes from a
DNS server, or goes to one as one too many. -/
def CaughtAsDns : Prop :=
  ∃ info, st.dnsTrackMap iph.saddr = some info ∧ clk.dns - info.lastUpdate < 1000000000 ∧
    (bpfNtohs udph.source = 53 ∨ bpfNtohs udph.dest = 53 ∧
      info.packetCount + 1 >
        dnsThreshold user.config (flowEstablished st.activeTraffic iph udph clk.dns))

/-- The source of the packet has a UDP entry that is not a second old, and the packet goes to a DNS
server, is an NTP packet of more than 1024 bytes, or is a flood. -/
def CaughtAsUdp : Prop :=
  ∃ info, st.udpFloodMap iph.saddr = some info ∧ clk.udp - info.lastUpdate < 1000000000 ∧
    (bpfNtohs udph.dest = 53 ∨ iph.size > 1024 ∧ udph.Uses 123 ∨
      IsFlood (udpThreshold user.config
          (flowEstablished st.activeTraffic iph udph clk.udp)).toNat
        (info.packetCount + 1).toNat (clk.udp - info.lastUpdate).toNat)

end

variable {user : UserMaps} {clk : Clock} {iph : IpHdr} {udph : UdpHdr}

theorem OverLimit.size_gt (h : OverLimit iph udph) : iph.size > 512 := by
  obtain ⟨h, -⟩ | ⟨h, -⟩ := h
  · exact h
  · bv_omega

/-- A packet that comes from a DNS server is a response. -/
theorem source_eq_iff (udph : UdpHdr) :
    udph.source = bpfHtons DNS_PORT ↔ bpfNtohs udph.source = 53 := by
  constructor
  · intro h
    rw [h]
    rfl
  · intro h
    have hswap : bpfHtons (bpfNtohs udph.source) = udph.source := swap16_swap16 _
    rw [← hswap, h]
    rfl

theorem checkDnsAmplification_ne_pass_iff (h : OverLimit iph udph) (st : Maps) :
    (checkDnsAmplification user clk iph udph (udph.source = bpfHtons DNS_PORT) st).1 ≠ .pass ↔
      CaughtAsDns user clk iph udph st := by
  unfold checkDnsAmplification CaughtAsDns
  by_cases hports : bpfNtohs udph.source ≠ DNS_PORT ∧ bpfNtohs udph.dest ≠ DNS_PORT
  · simp only [if_pos hports]
    refine ⟨fun h => absurd rfl h, ?_⟩
    rintro ⟨info, -, -, hsrc | ⟨hdst, -⟩⟩
    · exact absurd hsrc hports.1
    · exact absurd hdst hports.2
  · simp only [if_neg hports, Table.alter_fst, getConfig_configMap, dnsEntry_ne_pass_iff,
      decide_eq_true_eq, source_eq_iff]
    refine exists_congr fun info => and_congr_right fun _ => and_congr_right fun _ => ?_
    have hsize := h.size_gt
    by_cases hsrc : bpfNtohs udph.source = 53
    · exact iff_of_true (.inr ⟨hsrc, hsize⟩) (.inl hsrc)
    · have hdst : bpfNtohs udph.dest = 53 := by
        by_contra hdst
        exact hports ⟨hsrc, hdst⟩
      simp only [hsrc, false_and, or_false, false_or]
      exact (and_iff_right hdst).symm

/-- A packet over the limits is oversize for `check_udp_flood`, unless it comes from a DNS server
only. -/
theorem OverLimit.udpOversize_iff (h : OverLimit iph udph) :
    udpOversize (bpfNtohs udph.source) (bpfNtohs udph.dest) iph.size = true ↔
      bpfNtohs udph.dest = 53 ∨ iph.size > 1024 ∧ udph.Uses 123 := by
  have hsize : iph.size > 512 := h.size_gt
  simp only [udpOversize, decide_eq_true_eq, UdpHdr.Uses]
  tauto

theorem checkUdpFlood_ne_pass_iff (h : OverLimit iph udph) (st : Maps) :
    (checkUdpFlood user clk iph udph st).1 ≠ .pass ↔ CaughtAsUdp user clk iph udph st := by
  have hover := h.udpOversize_iff
  rw [IpHdr.size] at hover
  rw [checkUdpFlood_fst, udpEntry_ne_pass_iff, CaughtAsUdp]
  refine exists_congr fun info => and_congr_right fun _ => and_congr_right fun _ => ?_
  rw [hover, or_comm, or_assoc]
  rfl

/-- The first check leaves what the second one reads. -/
theorem caughtAsUdp_after (isResponse : Bool) (st : Maps) :
    CaughtAsUdp user clk iph udph (checkDnsAmplification user clk iph udph isResponse st).2 ↔
      CaughtAsUdp user clk iph udph st := by
  unfold checkDnsAmplification
  dsimp only
  split <;> rfl

/-- **When a packet over the limits is not passed**: when one of the two checks finds an entry of
its source that is not a second old, and judges it. -/
theorem sizeFilters_iff (h : OverLimit iph udph) (st : Maps) :
    (udpChecks user clk iph udph st).1 ≠ .pass ↔
      CaughtAsDns user clk iph udph st ∨ CaughtAsUdp user clk iph udph st := by
  rw [udpChecks, limit, Check.andThen, Stage.andThen_ne_pass_iff,
    checkDnsAmplification_ne_pass_iff h, checkUdpFlood_ne_pass_iff h, caughtAsUdp_after]

/-- A DNS response of 600 bytes. -/
def largeResponse : IpHdr × UdpHdr :=
  (⟨5, bpfHtons 600, 0, 64, IPPROTO_UDP, 0x0100000a, 0x0200000a⟩, ⟨bpfHtons 53, bpfHtons 5000⟩)

theorem largeResponse_overLimit : OverLimit largeResponse.1 largeResponse.2 :=
  .inl ⟨by decide, .inl (by decide)⟩

/-- The maps after a packet of its source, at time zero. -/
def afterOne : Maps :=
  { Maps.initial with
    dnsTrackMap := Table.empty.set 0x0100000a ⟨0, 1, 600⟩
    udpFloodMap := Table.empty.set 0x0100000a ⟨0, 1, 600⟩ }

theorem sizeFilters_iff_afterOne :
    OverLimit largeResponse.1 largeResponse.2 ∧
      (udpChecks UserMaps.initial (.still 500) largeResponse.1 largeResponse.2 afterOne).1 ≠
        .pass :=
  ⟨largeResponse_overLimit, (sizeFilters_iff largeResponse_overLimit afterOne).2
    (.inl ⟨⟨0, 1, 600⟩, rfl, by decide, .inl (by decide)⟩)⟩

/-- The first packet of a source passes, whatever its size. -/
theorem sizeFilters_fail :
    OverLimit largeResponse.1 largeResponse.2 ∧
      (udpChecks UserMaps.initial (.still 0) largeResponse.1 largeResponse.2 Maps.initial).1 =
        .pass :=
  ⟨largeResponse_overLimit, by decide +kernel⟩

end Cyrenus
