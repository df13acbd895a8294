import Cyrenus.Xdp.FlowTable
import Mathlib.Data.List.GetD

/-!
# What is read of a trailing fragment

A fragment with a nonzero offset has no transport header: what follows its IP header is payload.
The program reads a header there nevertheless. Two frames that agree up to the end of the IP header
(`XdpMd.Agree`) need not be treated alike, then: the bytes after it are taken for TCP flags, UDP
ports or an ICMP type, which decide what the limiters count and under which key the frame is
accounted. `trailingFragment_iff` says for which frames and states the payload has no influence.
-/

namespace Cyrenus

/-! ## Frames that agree up to the payload -/

/-- The end of the IP header in the frame, with its options. -/
def IpHdr.headerEnd (ip : IpHdr) : ℕ := ETH_HLEN + max IPHDR_LEN (ip.ihl.toNat * 4)

/-- The fixed part of the IP header lies before its end. -/
theorem IpHdr.fixed_lt (ip : IpHdr) {off : ℕ} (hoff : off < 34) : off < ip.headerEnd := by
  have hle : IPHDR_LEN ≤ max IPHDR_LEN (ip.ihl.toNat * 4) := Nat.le_max_left ..
  simp only [IpHdr.headerEnd, ETH_HLEN, IPHDR_LEN] at hle ⊢
  omega

/-- Two frames agree on Ethernet header, IP header and length, and arrive at the same processor. -/
structure XdpMd.Agree (ctx ctx' : XdpMd) : Prop where
  cpu : ctx'.cpu = ctx.cpu
  length : ctx'.data.length = ctx.data.length
  header : ctx'.data.take ctx.iphdr.headerEnd = ctx.data.take ctx.iphdr.headerEnd

namespace XdpMd.Agree

variable {ctx ctx' : XdpMd} (h : ctx.Agree ctx')
include h

theorem byte {off : ℕ} (hoff : off < ctx.iphdr.headerEnd) : ctx'.byte off = ctx.byte off := by
  have htake := congrArg (fun l => l[off]?) h.header
  simp only [List.getElem?_take_of_lt hoff] at htake
  rw [XdpMd.byte, XdpMd.byte, List.getD_eq_getElem?_getD, List.getD_eq_getElem?_getD, htake]

theorem load16 {off : ℕ} (hoff : off + 1 < ctx.iphdr.headerEnd) :
    ctx'.load16 off = ctx.load16 off := by
  rw [XdpMd.load16, XdpMd.load16, h.byte (Nat.lt_of_succ_lt hoff), h.byte hoff]

theorem fixed_byte {off : ℕ} (hoff : off < 34) : ctx'.byte off = ctx.byte off :=
  h.byte (ctx.iphdr.fixed_lt hoff)

theorem fixed_load16 {off : ℕ} (hoff : off + 1 < 34) : ctx'.load16 off = ctx.load16 off :=
  h.load16 (ctx.iphdr.fixed_lt hoff)

theorem iphdr : ctx'.iphdr = ctx.iphdr := by
  simp (disch := decide) only [XdpMd.iphdr, XdpMd.load32, ETH_HLEN, h.fixed_byte, h.fixed_load16]

theorem isIpv4 : ctx'.isIpv4 = ctx.isIpv4 := by
  simp (disch := decide) only [XdpMd.isIpv4, XdpMd.hProto, h.fixed_load16, h.length]

theorem symm : ctx'.Agree ctx := ⟨h.cpu.symm, h.length.symm, h.iphdr ▸ h.header.symm⟩

theorem trans {ctx'' : XdpMd} (h' : ctx'.Agree ctx'') : ctx.Agree ctx'' :=
  ⟨h'.cpu.trans h.cpu, h'.length.trans h.length, (h.iphdr ▸ h'.header).trans h.header⟩

end XdpMd.Agree

/-- The frame with the bytes from an offset on replaced. -/
def XdpMd.overwrite (ctx : XdpMd) (off : ℕ) (bs : List U8) : XdpMd :=
  { ctx with data := ctx.data.take off ++ bs ++ ctx.data.drop (off + bs.length) }

section

variable {ctx : XdpMd} {off : ℕ} {bs : List U8}

/-- Replacing payload gives a frame that agrees with the first one. -/
theorem agree_overwrite (hoff : ctx.iphdr.headerEnd ≤ off)
    (hfit : off + bs.length ≤ ctx.data.length) : ctx.Agree (ctx.overwrite off bs) where
  cpu := rfl
  length := by
    simp only [XdpMd.overwrite, List.length_append, List.length_take, List.length_drop]
    omega
  header := by
    have hlen : off ≤ ctx.data.length := by omega
    rw [XdpMd.overwrite, List.append_assoc, List.take_append_of_le_length (by simp; omega),
      List.take_take, Nat.min_eq_left hoff]

theorem byte_overwrite (hfit : off + bs.length ≤ ctx.data.length) {i : ℕ} (hi : i < bs.length) :
    (ctx.overwrite off bs).byte (off + i) = bs.getD i 0 := by
  have hlen : (ctx.data.take off).length = off := by
    rw [List.length_take]
    omega
  simp only [XdpMd.byte, XdpMd.overwrite, List.append_assoc]
  rw [List.getD_append_right _ _ _ _ (by omega), List.getD_append _ _ _ _ (by omega), hlen,
    Nat.add_sub_cancel_left]

end

/-! ## Outcomes -/

/-- Two outcomes are the same verdict with the same SYN, DNS, UDP, attack and flow maps. -/
structure SameOutcome (r r' : XdpAction × Maps) : Prop where
  verdict : r.1 = r'.1
  synFloodMap : r.2.synFloodMap = r'.2.synFloodMap
  dnsTrackMap : r.2.dnsTrackMap = r'.2.dnsTrackMap
  udpFloodMap : r.2.udpFloodMap = r'.2.udpFloodMap
  attackInfoArray : r.2.attackInfoArray = r'.2.attackInfoArray
  attackCount : r.2.attackCount = r'.2.attackCount
  activeTraffic : r.2.activeTraffic = r'.2.activeTraffic

theorem SameOutcome.refl (r : XdpAction × Maps) : SameOutcome r r :=
  ⟨rfl, rfl, rfl, rfl, rfl, rfl, rfl⟩

theorem SameOutcome.symm {r r' : XdpAction × Maps} (h : SameOutcome r r') : SameOutcome r' r :=
  ⟨h.1.symm, h.2.symm, h.3.symm, h.4.symm, h.5.symm, h.6.symm, h.7.symm⟩

theorem SameOutcome.trans {r r' r'' : XdpAction × Maps} (h : SameOutcome r r')
    (h' : SameOutcome r' r'') : SameOutcome r r'' :=
  ⟨h.1.trans h'.1, h.2.trans h'.2, h.3.trans h'.3, h.4.trans h'.4, h.5.trans h'.5, h.6.trans h'.6,
    h.7.trans h'.7⟩

/-- The payload of a frame has no influence: all frames that agree with it have its outcome. -/
def PayloadUnread (user : UserMaps) (clk : Clock) (ctx : XdpMd) (st : Maps) : Prop :=
  ∀ ctx', ctx.Agree ctx' → SameOutcome (xdpProg user clk ctx st) (xdpProg user clk ctx' st)

section

variable {user : UserMaps} {clk : Clock} {ctx ctx' : XdpMd} {st : Maps}

/-- Then any two frames that agree with it have the same outcome. -/
theorem PayloadUnread.same {ctx'' : XdpMd} (h : PayloadUnread user clk ctx st)
    (h' : ctx.Agree ctx') (h'' : ctx.Agree ctx'') :
    SameOutcome (xdpProg user clk ctx' st) (xdpProg user clk ctx'' st) :=
  (h ctx' h').symm.trans (h ctx'' h'')

/-- Frames that agree are counted alike. -/
theorem XdpMd.Agree.countFrame_eq (h : ctx.Agree ctx') (st : Maps) :
    countFrame ctx' st = countFrame ctx st := by
  simp only [countFrame, h.cpu, h.length]

/-- Frames that agree take the same way up to the transport header. -/
theorem XdpMd.Agree.xdpProg_eq (h : ctx.Agree ctx') (hip : ctx.isIpv4 = true) :
    xdpProg user clk ctx' st =
      (ipChecks user clk ctx.iphdr).andThen
        (l4Stages user clk ctx.iphdr (ctx'.transport ctx.iphdr)) (countFrame ctx st) := by
  rw [xdpProg_of_isIpv4 (h.isIpv4.trans hip), h.iphdr, h.countFrame_eq]

/-! ## Payload that is not read -/

/-- A header that is read before the end of the IP header is not payload. TCP headers are read up to
the flags, which stand at offset 13, UDP and ICMP headers not beyond the ports. -/
def IpHdr.OverlapsTransport (ip : IpHdr) : Prop :=
  if ip.protocol = IPPROTO_TCP then ip.ihl.toNat ≤ 1 else ip.ihl.toNat ≤ 4

/-- Then it is the same in frames that agree. -/
theorem XdpMd.Agree.transport_eq (h : ctx.Agree ctx') (hover : ctx.iphdr.OverlapsTransport) :
    ctx'.transport ctx.iphdr = ctx.transport ctx.iphdr := by
  have hoff : ctx.iphdr.l4Offset = 14 + ctx.iphdr.ihl.toNat * 4 := rfl
  unfold IpHdr.OverlapsTransport at hover
  simp only [XdpMd.transport, h.length]
  split at hover
  · next hp =>
    rw [if_pos hp, if_pos hp]
    have htcp : ctx'.tcphdr ctx.iphdr.l4Offset = ctx.tcphdr ctx.iphdr.l4Offset := by
      simp (disch := omega) only [XdpMd.tcphdr, h.fixed_byte, h.fixed_load16]
    rw [htcp]
  · next hp =>
    rw [if_neg hp, if_neg hp]
    have hudp : ctx'.udphdr ctx.iphdr.l4Offset = ctx.udphdr ctx.iphdr.l4Offset := by
      simp (disch := omega) only [XdpMd.udphdr, h.fixed_load16]
    have hicmp : ctx'.icmphdr ctx.iphdr.l4Offset = ctx.icmphdr ctx.iphdr.l4Offset := by
      simp (disch := omega) only [XdpMd.icmphdr, h.fixed_byte]
    rw [hudp, hicmp]

/-- Whether there is a transport header is the same in frames that agree. -/
theorem XdpMd.Agree.transport_eq_none (h : ctx.Agree ctx')
    (hnone : ctx.transport ctx.iphdr = none) : ctx'.transport ctx.iphdr = none := by
  simp only [XdpMd.transport, h.length] at hnone ⊢
  split_ifs at hnone ⊢ <;> rfl

/-- The outcome is the same when the transport header is, or when the checks stop the frame. -/
theorem XdpMd.Agree.same_of_transport (h : ctx.Agree ctx') (hip : ctx.isIpv4 = true)
    (heq : ctx'.transport ctx.iphdr = ctx.transport ctx.iphdr) :
    SameOutcome (xdpProg user clk ctx st) (xdpProg user clk ctx' st) := by
  rw [h.xdpProg_eq hip, heq, xdpProg_of_isIpv4 hip]
  exact .refl _

theorem XdpMd.Agree.same_of_stop (h : ctx.Agree ctx') (hip : ctx.isIpv4 = true)
    (hstop : (ipChecks user clk ctx.iphdr (countFrame ctx st)).1 ≠ .pass) :
    SameOutcome (xdpProg user clk ctx st) (xdpProg user clk ctx' st) := by
  rw [h.xdpProg_eq hip, xdpProg_of_isIpv4 hip, Check.andThen, Check.andThen,
    Stage.andThen_of_stop hstop, Stage.andThen_of_stop hstop]
  exact .refl _

/-- No limiter looks at an ICMP message once the IP header is checked. -/
theorem l4Stages_icmp {ip : IpHdr} (icmph : IcmpHdr) (st : Maps) :
    l4Stages user clk ip (some (.icmp icmph)) st =
      (applyRules user clk ip (.icmp icmph)).andThen (account user clk ip (.icmp icmph)) st := rfl

/-- An ICMP message that the rules stop, whatever its type and code are, is stopped alike. -/
theorem XdpMd.Agree.same_of_rules (h : ctx.Agree ctx') (hip : ctx.isIpv4 = true)
    (hpass : (ipChecks user clk ctx.iphdr (countFrame ctx st)).1 = .pass) {v : XdpAction}
    (hv : v ≠ .pass)
    (hrules : ∀ icmph st, (applyRules user clk ctx.iphdr (.icmp icmph) st).1 = v)
    (hicmp : ∃ icmph, ctx.transport ctx.iphdr = some (.icmp icmph))
    (hicmp' : ∃ icmph, ctx'.transport ctx.iphdr = some (.icmp icmph)) :
    SameOutcome (xdpProg user clk ctx st) (xdpProg user clk ctx' st) := by
  obtain ⟨icmph, hl4⟩ := hicmp
  obtain ⟨icmph', hl4'⟩ := hicmp'
  have hstop : ∀ icmph st,
      l4Stages user clk ctx.iphdr (some (.icmp icmph)) st = (v, st) := by
    intro icmph st
    have hne : (applyRules user clk ctx.iphdr (.icmp icmph) st).1 ≠ .pass :=
      (hrules icmph st).symm ▸ hv
    rw [l4Stages_icmp, Check.andThen, Stage.andThen_of_stop hne]
    exact Prod.ext (hrules icmph st) (applyRules_snd _ st)
  rw [h.xdpProg_eq hip, xdpProg_of_isIpv4 hip, hl4, hl4', Check.andThen, Check.andThen,
    Stage.andThen_of_pass hpass, Stage.andThen_of_pass hpass, hstop, hstop]
  exact .refl _

/-! ## Payload that is read -/

/-- What the stages after the limiter leave of the maps that they do not write. -/
theorem l4Stages_frame {π : Type} {f : Maps → π}
    (hf : ∀ st flows, f { st with activeTraffic := flows } = f st) (ip : IpHdr) (l4 : Transport)
    (st : Maps) : f (l4Stages user clk ip (some l4) st).2 = f (limit user clk ip l4 st).2 :=
  Stage.andThen_frame_snd (Stage.andThen_frame (fun st => congrArg f (applyRules_snd l4 st))
    fun _ => hf _ _) st

/-- A counter that counts one up changes. -/
theorem count_up_ne (n : U32) : n + 1 ≠ n := by bv_omega

/-- A time that is a second ago is not now. -/
theorem ne_of_elapsed {now last : U64} (h : ¬ now - last < 1000000000) : now ≠ last := by
  rintro rfl
  rw [BitVec.sub_self] at h
  exact h (by decide)

theorem checkUdpFlood_dnsTrackMap {iph : IpHdr} (udph : UdpHdr) (st : Maps) :
    (checkUdpFlood user clk iph udph st).2.dnsTrackMap = st.dnsTrackMap := by
  unfold checkUdpFlood
  dsimp only
  split <;> rfl

/-- A packet of the DNS port is counted at its source. -/
theorem checkDnsAmplification_of_port {iph : IpHdr} {udph : UdpHdr} {isResponse : Bool}
    (h : bpfNtohs udph.source = DNS_PORT ∨ bpfNtohs udph.dest = DNS_PORT) :
    (checkDnsAmplification user clk iph udph isResponse st).2.dnsTrackMap =
      (st.dnsTrackMap.alter iph.saddr (dnsEntry
        (dnsThreshold user.config (flowEstablished st.activeTraffic iph udph clk.dns)) clk.dns
        isResponse ((bpfNtohs iph.totLen).setWidth 32))).2 := by
  have hnot : ¬ (bpfNtohs udph.source ≠ DNS_PORT ∧ bpfNtohs udph.dest ≠ DNS_PORT) := by tauto
  simp only [checkDnsAmplification, if_neg hnot]
  rfl

/-- Any other packet is not. -/
theorem checkDnsAmplification_of_not_port {iph : IpHdr} {udph : UdpHdr} {isResponse : Bool}
    (hs : bpfNtohs udph.source ≠ DNS_PORT) (hd : bpfNtohs udph.dest ≠ DNS_PORT) :
    checkDnsAmplification user clk iph udph isResponse st = (.pass, st) := by
  simp only [checkDnsAmplification]
  exact if_pos ⟨hs, hd⟩

/-- A further SYN changes what is kept about its source. -/
theorem synEntry_ne (rate : U32) (now : U64) (old : Option SynFloodInfo) :
    (synEntry rate now false old).2 ≠ old := by
  cases old with
  | none => exact Option.some_ne_none _
  | some info =>
    intro h
    simp only [synEntry, Bool.false_eq_true, if_false] at h
    split at h
    · have hsome : some { info with synCount := info.synCount + 1 } = some info := by
        split at h <;> exact h
      exact count_up_ne _ (congrArg SynFloodInfo.synCount (Option.some.inj hsome))
    · next hnew => exact ne_of_elapsed hnew (congrArg SynFloodInfo.lastUpdate (Option.some.inj h))

/-- A further DNS packet changes what is kept about its source. -/
theorem dnsEntry_ne (threshold : U32) (now : U64) (isResponse : Bool) (packetSize : U32)
    (old : Option DnsInfo) : (dnsEntry threshold now isResponse packetSize old).2 ≠ old := by
  cases old with
  | none => exact Option.some_ne_none _
  | some info =>
    intro h
    simp only [dnsEntry] at h
    split at h
    · have hcount : ∀ info', (some info' : Option DnsInfo) = some info →
          info'.packetCount = info.packetCount + 1 → False := fun info' hinfo' hup =>
        count_up_ne _ (hup.symm.trans (congrArg DnsInfo.packetCount (Option.some.inj hinfo')))
      split at h
      · exact hcount _ h rfl
      · split at h <;> exact hcount _ h rfl
    · next hnew => exact ne_of_elapsed hnew (congrArg DnsInfo.lastUpdate (Option.some.inj h))

/-- A further frame changes the record of its flow. -/
theorem nextFlow_ne (old : Option TrafficInfo) (a : Accounted) : some (nextFlow old a) ≠ old := by
  cases old with
  | none => exact Option.some_ne_none _
  | some info =>
    intro h
    have hpackets := (updateFlow_step info a).packets
    rw [nextFlow] at h
    rw [Option.some.inj h] at hpackets
    exact count_up_ne _ hpackets.symm

/-- The program on a frame that agrees, when the checks let it pass and it has a transport
header. -/
theorem XdpMd.Agree.xdpProg_of_transport (h : ctx.Agree ctx') (hip : ctx.isIpv4 = true)
    (hpass : (ipChecks user clk ctx.iphdr (countFrame ctx st)).1 = .pass) {l4 : Transport}
    (hl4 : ctx'.transport ctx.iphdr = some l4) :
    xdpProg user clk ctx' st = l4Stages user clk ctx.iphdr (some l4)
      (ipChecks user clk ctx.iphdr (countFrame ctx st)).2 := by
  rw [h.xdpProg_eq hip, hl4, Check.andThen, Stage.andThen_of_pass hpass]

/-- A TCP header is read where the IP header ends, and lies inside the frame. -/
theorem transport_tcp_iff {ctx : XdpMd} {ip : IpHdr} {tcph : TcpHdr} :
    ctx.transport ip = some (.tcp tcph) ↔ ip.protocol = IPPROTO_TCP ∧
      ip.l4Offset + TCPHDR_LEN ≤ ctx.data.length ∧ ctx.tcphdr ip.l4Offset = tcph := by
  unfold XdpMd.transport
  dsimp only
  split_ifs <;> grind [IPPROTO_TCP, IPPROTO_UDP, IPPROTO_ICMP]

theorem transport_udp_iff {ctx : XdpMd} {ip : IpHdr} {udph : UdpHdr} :
    ctx.transport ip = some (.udp udph) ↔ ip.protocol = IPPROTO_UDP ∧
      ip.l4Offset + UDPHDR_LEN ≤ ctx.data.length ∧ ctx.udphdr ip.l4Offset = udph := by
  unfold XdpMd.transport
  dsimp only
  split_ifs <;> grind [IPPROTO_TCP, IPPROTO_UDP, IPPROTO_ICMP]

theorem transport_icmp_iff {ctx : XdpMd} {ip : IpHdr} {icmph : IcmpHdr} :
    ctx.transport ip = some (.icmp icmph) ↔ ip.protocol = IPPROTO_ICMP ∧
      ip.l4Offset + ICMPHDR_LEN ≤ ctx.data.length ∧ ctx.icmphdr ip.l4Offset = icmph := by
  unfold XdpMd.transport
  dsimp only
  split_ifs <;> grind [IPPROTO_TCP, IPPROTO_UDP, IPPROTO_ICMP]

/-- With the flag byte after the end of the IP header, a segment may have any flags. -/
theorem exists_tcp {tcph : TcpHdr} (hl4 : ctx.transport ctx.iphdr = some (.tcp tcph))
    (hihl : 2 ≤ ctx.iphdr.ihl.toNat) (b : U8) :
    ∃ ctx' tcph', ctx.Agree ctx' ∧ ctx'.transport ctx.iphdr = some (.tcp tcph') ∧
      tcph'.flags = b := by
  obtain ⟨hp, hlen, -⟩ := transport_tcp_iff.1 hl4
  have hoff : ctx.iphdr.headerEnd ≤ ctx.iphdr.l4Offset + 13 := by
    simp only [IpHdr.headerEnd, IpHdr.l4Offset, IPHDR_LEN]
    omega
  have hfit : ctx.iphdr.l4Offset + 13 + [b].length ≤ ctx.data.length := by
    simp only [TCPHDR_LEN, List.length_singleton] at hlen ⊢
    omega
  have hagree := agree_overwrite hoff hfit
  refine ⟨_, _, hagree, transport_tcp_iff.2 ⟨hp, hagree.length.symm ▸ hlen, rfl⟩, ?_⟩
  exact byte_overwrite hfit (i := 0) (by simp)

/-- An IP header of its full length ends where the transport header begins. -/
theorem IpHdr.headerEnd_le {ip : IpHdr} (h : 5 ≤ ip.ihl.toNat) : ip.headerEnd ≤ ip.l4Offset := by
  simp only [IpHdr.headerEnd, IpHdr.l4Offset, IPHDR_LEN]
  omega

/-- With the ports after the end of the IP header, a datagram may have any ports. -/
theorem exists_udp {udph : UdpHdr} (hl4 : ctx.transport ctx.iphdr = some (.udp udph))
    (hihl : 5 ≤ ctx.iphdr.ihl.toNat) (b₀ b₁ b₂ b₃ : U8) :
    ∃ ctx', ctx.Agree ctx' ∧ ctx'.transport ctx.iphdr = some (.udp
      ⟨b₀.setWidth 16 ||| b₁.setWidth 16 <<< 8, b₂.setWidth 16 ||| b₃.setWidth 16 <<< 8⟩) := by
  obtain ⟨hp, hlen, -⟩ := transport_udp_iff.1 hl4
  have hfit : ctx.iphdr.l4Offset + [b₀, b₁, b₂, b₃].length ≤ ctx.data.length := by
    simp only [UDPHDR_LEN, List.length_cons, List.length_nil] at hlen ⊢
    omega
  have hagree := agree_overwrite (IpHdr.headerEnd_le hihl) hfit
  have hbyte : ∀ i < 4, (ctx.overwrite ctx.iphdr.l4Offset [b₀, b₁, b₂, b₃]).byte
      (ctx.iphdr.l4Offset + i) = [b₀, b₁, b₂, b₃].getD i 0 := fun i hi => byte_overwrite hfit hi
  refine ⟨_, hagree, transport_udp_iff.2 ⟨hp, hagree.length.symm ▸ hlen, ?_⟩⟩
  rw [XdpMd.udphdr, XdpMd.load16, XdpMd.load16]
  congr 1
  · exact congrArg₂ (fun x y : U8 => x.setWidth 16 ||| y.setWidth 16 <<< 8) (hbyte 0 (by decide))
      (hbyte 1 (by decide))
  · exact congrArg₂ (fun x y : U8 => x.setWidth 16 ||| y.setWidth 16 <<< 8) (hbyte 2 (by decide))
      (hbyte 3 (by decide))

/-- With type and code after the end of the IP header, a message may have any of them. -/
theorem exists_icmp {icmph : IcmpHdr} (hl4 : ctx.transport ctx.iphdr = some (.icmp icmph))
    (hihl : 5 ≤ ctx.iphdr.ihl.toNat) (icmph' : IcmpHdr) :
    ∃ ctx', ctx.Agree ctx' ∧ ctx'.transport ctx.iphdr = some (.icmp icmph') := by
  obtain ⟨hp, hlen, -⟩ := transport_icmp_iff.1 hl4
  have hfit : ctx.iphdr.l4Offset + [icmph'.type, icmph'.code].length ≤ ctx.data.length := by
    simp only [ICMPHDR_LEN, List.length_cons, List.length_nil] at hlen ⊢
    omega
  have hagree := agree_overwrite (IpHdr.headerEnd_le hihl) hfit
  refine ⟨_, hagree, transport_icmp_iff.2 ⟨hp, hagree.length.symm ▸ hlen, ?_⟩⟩
  rw [XdpMd.icmphdr]
  congr 1
  · exact byte_overwrite hfit (i := 0) (by simp)
  · exact byte_overwrite hfit (i := 1) (by simp)

/-- The verdict of the rules does not depend on the maps. -/
theorem applyRules_fst {ip : IpHdr} (l4 : Transport) (st st' : Maps) :
    (applyRules user clk ip l4 st).1 = (applyRules user clk ip l4 st').1 :=
  (applyRules_respects (R := fun _ _ => True) l4 st st' trivial).1

/-- The verdict on an ICMP message that the checks let pass is that of the rules. -/
theorem l4Stages_icmp_fst {ip : IpHdr} (icmph : IcmpHdr) (st : Maps) :
    (l4Stages user clk ip (some (.icmp icmph)) st).1 =
      (applyRules user clk ip (.icmp icmph) st).1 := by
  rw [l4Stages_icmp]
  exact Stage.andThen_fst_of_pass (k := account user clk ip (.icmp icmph)) (fun _ => rfl) st

section

variable (hip : ctx.isIpv4 = true)
  (hpass : (ipChecks user clk ctx.iphdr (countFrame ctx st)).1 = .pass)
  (h : PayloadUnread user clk ctx st)
include hip hpass h

/-- **TCP.** A segment whose flags are payload is counted as a SYN, or not. -/
theorem PayloadUnread.tcp {tcph : TcpHdr} (hl4 : ctx.transport ctx.iphdr = some (.tcp tcph)) :
    ctx.iphdr.ihl.toNat ≤ 1 := by
  by_contra hihl
  obtain ⟨ctxS, tcpS, hagreeS, hS, hflagsS⟩ := exists_tcp hl4 (Nat.lt_of_not_le hihl) 2
  obtain ⟨ctxN, tcpN, hagreeN, hN, hflagsN⟩ := exists_tcp hl4 (Nat.lt_of_not_le hihl) 0
  have hsame := congrFun (h.same hagreeS hagreeN).synFloodMap ctx.iphdr.saddr
  rw [hagreeS.xdpProg_of_transport hip hpass hS, hagreeN.xdpProg_of_transport hip hpass hN,
    l4Stages_frame (f := Maps.synFloodMap) (fun _ _ => rfl),
    l4Stages_frame (f := Maps.synFloodMap) (fun _ _ => rfl)] at hsame
  have hsynS : tcpS.syn = true ∧ tcpS.ack = false := by
    rw [TcpHdr.syn, TcpHdr.ack, hflagsS]
    decide
  have hsynN : tcpN.syn = false := by
    rw [TcpHdr.syn, hflagsN]
    decide
  simp only [limit, checkSynFlood, hsynS, hsynN, if_true, Bool.false_eq_true, if_false,
    Table.alter_same] at hsame
  exact synEntry_ne _ _ _ hsame

/-- **UDP.** A datagram whose ports are payload is counted as a DNS packet, or not. -/
theorem PayloadUnread.udp {udph : UdpHdr} (hl4 : ctx.transport ctx.iphdr = some (.udp udph)) :
    ctx.iphdr.ihl.toNat ≤ 4 := by
  by_contra hihl
  obtain ⟨ctxD, hagreeD, hD⟩ := exists_udp hl4 (Nat.lt_of_not_le hihl) 0 53 0 0
  obtain ⟨ctxO, hagreeO, hO⟩ := exists_udp hl4 (Nat.lt_of_not_le hihl) 0 0 0 0
  have hframe : ∀ udph st, (limit user clk ctx.iphdr (.udp udph) st).2.dnsTrackMap =
      (checkDnsAmplification user clk ctx.iphdr udph (udph.source = bpfHtons DNS_PORT)
        st).2.dnsTrackMap := fun udph st =>
    Stage.andThen_frame_snd (f := Maps.dnsTrackMap) (checkUdpFlood_dnsTrackMap udph) st
  have hsame := congrFun (h.same hagreeD hagreeO).dnsTrackMap ctx.iphdr.saddr
  rw [hagreeD.xdpProg_of_transport hip hpass hD, hagreeO.xdpProg_of_transport hip hpass hO,
    l4Stages_frame (f := Maps.dnsTrackMap) (fun _ _ => rfl),
    l4Stages_frame (f := Maps.dnsTrackMap) (fun _ _ => rfl), hframe, hframe,
    checkDnsAmplification_of_port (.inl (by decide)),
    checkDnsAmplification_of_not_port (by decide) (by decide)] at hsame
  simp only [Table.alter_same] at hsame
  exact dnsEntry_ne _ _ _ _ _ hsame

/-- **ICMP.** A message whose type and code are payload is accounted under a key made of them,
unless the rules stop it whatever they are. -/
theorem PayloadUnread.icmp {icmph : IcmpHdr} (hl4 : ctx.transport ctx.iphdr = some (.icmp icmph)) :
    ctx.iphdr.ihl.toNat ≤ 4 ∨
      ∃ v, v ≠ .pass ∧ ∀ icmph st, (applyRules user clk ctx.iphdr (.icmp icmph) st).1 = v := by
  rcases Nat.lt_or_ge 4 ctx.iphdr.ihl.toNat with hihl | hihl
  · refine .inr ⟨(applyRules user clk ctx.iphdr (.icmp ⟨0, 0⟩) st).1, ?_, ?_⟩
    all_goals obtain ⟨ctx₀, hagree₀, h₀⟩ := exists_icmp hl4 hihl ⟨0, 0⟩
    · -- Two messages that pass are accounted under different keys.
      intro hv
      obtain ⟨ctx₁, hagree₁, h₁⟩ := exists_icmp hl4 hihl ⟨0, 1⟩
      have hsame := h.same hagree₀ hagree₁
      rw [hagree₀.xdpProg_of_transport hip hpass h₀,
        hagree₁.xdpProg_of_transport hip hpass h₁] at hsame
      have hpass₀ : (l4Stages user clk ctx.iphdr (some (.icmp ⟨0, 0⟩))
          (ipChecks user clk ctx.iphdr (countFrame ctx st)).2).1 = .pass := by
        rw [l4Stages_icmp_fst, applyRules_fst _ _ st, hv]
      have hflows := congrFun hsame.activeTraffic
        (accounted user clk ctx.iphdr (.icmp ⟨0, 0⟩)).key
      rw [l4Stages_activeTraffic, l4Stages_activeTraffic, if_pos hpass₀,
        if_pos (hsame.verdict ▸ hpass₀)] at hflows
      have hkey : (accounted user clk ctx.iphdr (.icmp ⟨0, 0⟩)).key ≠
          (accounted user clk ctx.iphdr (.icmp ⟨0, 1⟩)).key := fun hkey => by
        have hcode : (0 : U8).setWidth 16 = (1 : U8).setWidth 16 := congrArg FlowKey.dstPort hkey
        exact absurd hcode (by decide)
      simp only [Option.map_some, Option.elim_some, accountFlow_same, accountFlow_other hkey]
        at hflows
      exact nextFlow_ne _ _ hflows
    · intro icmph' st'
      obtain ⟨ctx₁, hagree₁, h₁⟩ := exists_icmp hl4 hihl icmph'
      have hverdict := (h.same hagree₁ hagree₀).verdict
      rw [hagree₀.xdpProg_of_transport hip hpass h₀, hagree₁.xdpProg_of_transport hip hpass h₁,
        l4Stages_icmp_fst, l4Stages_icmp_fst] at hverdict
      exact (applyRules_fst _ _ _).trans (hverdict.trans (applyRules_fst _ _ _))
  · exact .inl hihl

end

/-! ## Which payload is read -/

/-- The rules stop every ICMP message with the addresses of the header by one same verdict. -/
def StopsAllIcmp (user : UserMaps) (clk : Clock) (ip : IpHdr) : Prop :=
  ∃ v, v ≠ .pass ∧ ∀ icmph st, (applyRules user clk ip (.icmp icmph) st).1 = v

/-- The program does not get to read the payload, or what it reads of it decides nothing: the checks
stop the frame, or there is no room for a transport header or none is looked for, or that is read
before the end of the IP header, or all it says is stopped by the rules. -/
def PayloadIdle (user : UserMaps) (clk : Clock) (ctx : XdpMd) (st : Maps) : Prop :=
  (ipChecks user clk ctx.iphdr (countFrame ctx st)).1 ≠ .pass ∨
    ctx.transport ctx.iphdr = none ∨ ctx.iphdr.OverlapsTransport ∨
      (ctx.iphdr.protocol = IPPROTO_ICMP ∧ StopsAllIcmp user clk ctx.iphdr)

end

/-- The frame is a fragment with a nonzero offset. -/
structure XdpMd.TrailingFragment (ctx : XdpMd) : Prop where
  isIpv4 : ctx.isIpv4 = true
  offset : ctx.iphdr.fragOffset ≠ 0

/-- **Trailing fragments.** The payload of a fragment with a nonzero offset has no influence on its
verdict and on the SYN, DNS, UDP, attack and flow maps exactly when it is idle. -/
theorem trailingFragment_iff (user : UserMaps) (clk : Clock) (ctx : XdpMd) (st : Maps)
    (hfrag : ctx.TrailingFragment) :
    PayloadUnread user clk ctx st ↔ PayloadIdle user clk ctx st := by
  have hip := hfrag.isIpv4
  constructor
  · intro h
    by_cases hpass : (ipChecks user clk ctx.iphdr (countFrame ctx st)).1 = .pass
    · cases hl4 : ctx.transport ctx.iphdr with
      | none => exact .inr (.inl hl4)
      | some l4 =>
        refine .inr (.inr ?_)
        cases l4 with
        | tcp tcph =>
          obtain ⟨hp, -⟩ := transport_tcp_iff.1 hl4
          exact .inl (by rw [IpHdr.OverlapsTransport, if_pos hp]; exact h.tcp hip hpass hl4)
        | udp udph =>
          obtain ⟨hp, -⟩ := transport_udp_iff.1 hl4
          refine .inl ?_
          rw [IpHdr.OverlapsTransport, if_neg (by rw [hp]; decide)]
          exact h.udp hip hpass hl4
        | icmp icmph =>
          obtain ⟨hp, -⟩ := transport_icmp_iff.1 hl4
          rw [IpHdr.OverlapsTransport, if_neg (by rw [hp]; decide)]
          exact (h.icmp hip hpass hl4).imp_right fun hstops => ⟨hp, hstops⟩
    · exact .inl hpass
  · rintro (hstop | hnone | hover | ⟨hp, v, hv, hrules⟩) ctx' hagree
    · exact hagree.same_of_stop hip hstop
    · exact hagree.same_of_transport hip ((hagree.transport_eq_none hnone).trans hnone.symm)
    · exact hagree.same_of_transport hip (hagree.transport_eq hover)
    · cases hl4 : ctx.transport ctx.iphdr with
      | none => exact hagree.same_of_transport hip ((hagree.transport_eq_none hl4).trans hl4.symm)
      | some l4 =>
        by_cases hpass : (ipChecks user clk ctx.iphdr (countFrame ctx st)).1 = .pass
        · have hlen : ctx.iphdr.l4Offset + ICMPHDR_LEN ≤ ctx.data.length := by
            cases l4 with
            | tcp =>
              rw [(transport_tcp_iff.1 hl4).1] at hp
              cases hp
            | udp =>
              rw [(transport_udp_iff.1 hl4).1] at hp
              cases hp
            | icmp => exact (transport_icmp_iff.1 hl4).2.1
          exact hagree.same_of_rules hip hpass hv hrules
            ⟨_, transport_icmp_iff.2 ⟨hp, hlen, rfl⟩⟩
            ⟨_, transport_icmp_iff.2 ⟨hp, hagree.length.symm ▸ hlen, rfl⟩⟩
        · exact hagree.same_of_stop hip hpass

/-- A trailing fragment of a TCP segment that looks like a SYN, and one that does not. -/
def trailingSyn : XdpMd :=
  ⟨(ipv4Frame IPPROTO_TCP [10, 0, 0, 1] [10, 0, 0, 2]
    ([0, 80, 31, 144, 0, 0, 0, 0, 0, 0, 0, 0, 0x50, 0x02] ++ List.replicate 6 0)).set 21 2, 0⟩

def trailingOther : XdpMd :=
  ⟨(ipv4Frame IPPROTO_TCP [10, 0, 0, 1] [10, 0, 0, 2]
    ([0, 80, 31, 144, 0, 0, 0, 0, 0, 0, 0, 0, 0x50, 0x10] ++ List.replicate 6 0)).set 21 2, 0⟩

theorem trailingSyn_trailing : trailingSyn.TrailingFragment :=
  ⟨by decide +kernel, by decide +kernel⟩

/-- The first one is counted as a SYN of its source. -/
theorem trailingFragment_read :
    trailingSyn.TrailingFragment ∧ trailingOther.TrailingFragment ∧
      trailingSyn.Agree trailingOther ∧
      ¬ SameOutcome (xdpProg UserMaps.initial (.still 0) trailingSyn Maps.initial)
        (xdpProg UserMaps.initial (.still 0) trailingOther Maps.initial) := by
  refine ⟨trailingSyn_trailing, ⟨by decide +kernel, by decide +kernel⟩, ⟨rfl, by decide +kernel,
    by decide +kernel⟩, fun h => ?_⟩
  have hsyn : (xdpProg UserMaps.initial (.still 0) trailingSyn Maps.initial).2.synFloodMap
      0x0100000a = some ⟨0, 1, 0⟩ := by decide +kernel
  have hother : (xdpProg UserMaps.initial (.still 0) trailingOther Maps.initial).2.synFloodMap
      0x0100000a = none := by decide +kernel
  rw [h.synFloodMap, hother] at hsyn
  cases hsyn

theorem trailingFragment_iff_trailingSyn :
    PayloadUnread UserMaps.initial (.still 0) trailingSyn Maps.initial ↔
      PayloadIdle UserMaps.initial (.still 0) trailingSyn Maps.initial :=
  trailingFragment_iff UserMaps.initial (.still 0) trailingSyn Maps.initial trailingSyn_trailing

end Cyrenus
