import Cyrenus.Xdp.Maps
import Cyrenus.Lib.Stage

/-!
# The checks of the kernel program

One definition for each check `xdp_prog` makes before the rules: `handle_fragment`, `check_geoip`,
`early_filter`, `check_syn_flood`, `check_dns_amplification` and `check_udp_flood`. A check that
keeps per-source state is written as what it does to the entry of the packet's source (`fragEntry`,
`tokenBucketEntry`, `synEntry`, `dnsEntry`, `udpEntry`) and as the check itself, which applies that
to its map at `saddr`. The lemmas after each check say which part of the maps it reads and writes.
-/

namespace Cyrenus

/-- A check: it reads and writes the maps and gives a verdict. -/
abbrev Check := Maps → XdpAction × Maps

/-- Make a check and, if it lets the frame pass, another one. -/
abbrev Check.andThen (s k : Check) : Check := Stage.andThen XdpAction.pass s k

/-! ## Fragments -/

/-- `FRAG_TIMEOUT`: thirty seconds. -/
def FRAG_TIMEOUT : U64 := 30000000000

def IP_MF : U16 := 0x2000

def IP_OFFSET : U16 := 0x1FFF

/-- The fragment counter of a source: whether this fragment is one too many, and the new entry. -/
def fragEntry (maxFrags : U32) (now : U64) : Option FragInfo → Bool × Option FragInfo
  | none => (false, some ⟨now, 1⟩)
  | some info =>
    let fragCount := if now - info.lastUpdate > FRAG_TIMEOUT then 1 else info.fragCount + 1
    (fragCount > maxFrags, some ⟨now, fragCount⟩)

/-- The offset field of a header, in host byte order and without the flags. -/
def IpHdr.fragOffset (iph : IpHdr) : U16 := bpfNtohs iph.fragOff &&& IP_OFFSET

/-- The more-fragments flag of a header. -/
def IpHdr.moreFragments (iph : IpHdr) : Bool :=
  bpfNtohs iph.fragOff &&& ~~~IP_OFFSET &&& IP_MF != 0

/-- The packet is a fragment of a larger one. -/
def IpHdr.isFragment (iph : IpHdr) : Bool := iph.moreFragments || iph.fragOffset > 0

/-- The verdict on a fragment: too many of them, the offset of an overlapping second fragment, or a
first fragment too small to hold a transport header. -/
def fragVerdict (iph : IpHdr) (tooMany : Bool) : XdpAction :=
  let ipPayloadLen : U16 := bpfNtohs iph.totLen - iph.ihl.setWidth 16 * 4
  if tooMany then .drop
  else if iph.fragOffset = 1 then .drop
  else if iph.moreFragments ∧ ipPayloadLen < 16 then .drop
  else .pass

/-- `handle_fragment`. -/
def handleFragment (user : UserMaps) (clk : Clock) (iph : IpHdr) : Check := fun st =>
  if iph.isFragment then
    let cfg := getConfig user.configMap
    let r := st.fragTrackMap.alter iph.saddr (fragEntry cfg.maxFrags clk.frag)
    (fragVerdict iph r.1, { st with fragTrackMap := r.2 })
  else (.pass, st)

/-! ## Countries -/

/-- `check_geoip`. -/
def checkGeoip (user : UserMaps) (srcIp : U32) : Check := fun st =>
  match user.geoipMap srcIp with
  | none => (.pass, st)
  | some countryCode =>
    if user.blockedCountries countryCode = some 1 then (.drop, st) else (.pass, st)

/-! ## The early filter and the ICMP token bucket -/

/-- The token bucket of a source: a new source gets a full bucket and is not charged; a known one
gets the refill since the last packet that passed, at most `rate` tokens, and is charged one. -/
def tokenBucketEntry (rate : U32) (now : U64) :
    Option TokenBucket → XdpAction × Option TokenBucket
  | none => (.pass, some ⟨now, rate⟩)
  | some bucket =>
    let elapsed := now - bucket.lastUpdate
    let newTokens : U32 :=
      (bucket.tokens.setWidth 64 + elapsed * rate.setWidth 64 / 1000000000).setWidth 32
    let newTokens := if newTokens > rate then rate else newTokens
    if newTokens ≥ 1 then (.pass, some ⟨now, newTokens - 1⟩) else (.drop, some bucket)

/-- `early_filter`. -/
def earlyFilter (user : UserMaps) (clk : Clock) (iph : IpHdr) (proto : U8) : Check := fun st =>
  if iph.saddr = 0 ∨ iph.daddr = 0 then (.drop, st)
  else if iph.daddr = 0xFFFFFFFF then (.pass, st)
  else if iph.ttl = 0 then (.drop, st)
  else if proto = IPPROTO_ICMP then
    let cfg := getConfig user.configMap
    let r := st.tokenBuckets.alter iph.saddr (tokenBucketEntry cfg.icmpFloodRate clk.icmp)
    (r.1, { st with tokenBuckets := r.2 })
  else (.pass, st)

/-! ## SYN floods -/

/-- The SYN counters of a source, for a packet with the SYN bit. -/
def synEntry (rate : U32) (now : U64) (ack : Bool) :
    Option SynFloodInfo → XdpAction × Option SynFloodInfo
  | none =>
    (.pass, some (if ack then ⟨now, 0, 1⟩ else ⟨now, 1, 0⟩))
  | some info =>
    if now - info.lastUpdate < 1000000000 then
      if ack then (.pass, some { info with synackCount := info.synackCount + 1 })
      else
        let info := { info with synCount := info.synCount + 1 }
        if info.synCount > rate ∧ info.synCount > info.synackCount * 10 then (.drop, some info)
        else (.pass, some info)
    else (.pass, some (if ack then ⟨now, 0, 1⟩ else ⟨now, 1, 0⟩))

/-- `check_syn_flood`. -/
def checkSynFlood (user : UserMaps) (clk : Clock) (iph : IpHdr) (tcph : TcpHdr) : Check := fun st =>
  if tcph.syn then
    let cfg := getConfig user.configMap
    let r := st.synFloodMap.alter iph.saddr (synEntry cfg.synFloodRate clk.syn tcph.ack)
    (r.1, { st with synFloodMap := r.2 })
  else (.pass, st)

/-! ## DNS amplification -/

/-- The flow of a UDP packet counts as established, for the two checks that ask. -/
def flowEstablished (flows : Table FlowKey TrafficInfo) (iph : IpHdr) (udph : UdpHdr) (now : U64) :
    Bool :=
  isEstablishedFlow flows iph.saddr iph.daddr (bpfNtohs udph.source) (bpfNtohs udph.dest)
    IPPROTO_UDP now

def DNS_PORT : U16 := 53

def MAX_DNS_RESPONSE_SIZE : U32 := 512

/-- The DNS counter of a source. `threshold` is the rate in force for the packet's flow. -/
def dnsEntry (threshold : U32) (now : U64) (isResponse : Bool) (packetSize : U32) :
    Option DnsInfo → XdpAction × Option DnsInfo
  | none => (.pass, some ⟨now, 1, packetSize⟩)
  | some info =>
    if now - info.lastUpdate < 1000000000 then
      let info := { info with
        packetCount := info.packetCount + 1
        totalSize := info.totalSize + packetSize }
      if info.packetCount > threshold then (.drop, some info)
      else if isResponse ∧ packetSize > MAX_DNS_RESPONSE_SIZE then (.drop, some info)
      else (.pass, some info)
    else (.pass, some ⟨now, 1, packetSize⟩)

/-- The rate `check_dns_amplification` allows: five times the configured one on an established
flow. -/
def dnsThreshold (cfg : AttacksConfig) (isEstablished : Bool) : U32 :=
  if isEstablished then cfg.dnsAmpRate * 5 else cfg.dnsAmpRate

/-- `check_dns_amplification`. -/
def checkDnsAmplification (user : UserMaps) (clk : Clock) (iph : IpHdr) (udph : UdpHdr)
    (isResponse : Bool) : Check := fun st =>
  let srcPort := bpfNtohs udph.source
  let dstPort := bpfNtohs udph.dest
  let packetSize : U32 := (bpfNtohs iph.totLen).setWidth 32
  if srcPort ≠ DNS_PORT ∧ dstPort ≠ DNS_PORT then (.pass, st)
  else
    let cfg := getConfig user.configMap
    let isEstablished := isEstablishedFlow st.activeTraffic iph.saddr iph.daddr srcPort dstPort
      IPPROTO_UDP clk.dns
    let r := st.dnsTrackMap.alter iph.saddr
      (dnsEntry (dnsThreshold cfg isEstablished) clk.dns isResponse packetSize)
    (r.1, { st with dnsTrackMap := r.2 })

/-! ## UDP floods -/

def UDP_FLOOD_BURST : U32 := 200

/-- The packet is larger than `check_udp_flood` lets a DNS query or an NTP packet be. -/
def udpOversize (srcPort dstPort : U16) (pktSize : U32) : Bool :=
  (dstPort = 53 ∧ pktSize > 512) ∨ ((dstPort = 123 ∨ srcPort = 123) ∧ pktSize > 1024)

/-- The rate `check_udp_flood` allows: ten times the configured one on an established flow. The
product is a 32-bit one, widened afterwards. -/
def udpThreshold (cfg : AttacksConfig) (isEstablished : Bool) : U64 :=
  if isEstablished then (cfg.udpFloodRate * 10).setWidth 64 else cfg.udpFloodRate.setWidth 64

/-- What `check_udp_flood` finds: a packet to pass, a packet over the size limits, or a flood, which
is also recorded as an attack. -/
inductive UdpFinding where
  | pass
  | oversize
  | flood
  deriving DecidableEq, Repr

/-- The UDP counters of a source. A flood leaves `last_update` alone; every other packet of a
window moves it to its own time, while `packet_count` goes on counting from the last reset. -/
def udpEntry (threshold now : U64) (oversize : Bool) (pktSize : U32) :
    Option UdpFloodInfo → UdpFinding × Option UdpFloodInfo
  | none => (.pass, some ⟨now, 1, pktSize⟩)
  | some info =>
    let timeDiff := now - info.lastUpdate
    if timeDiff ≥ 1000000000 then (.pass, some ⟨now, 1, pktSize⟩)
    else
      let info := { info with
        packetCount := info.packetCount + 1
        byteCount := info.byteCount + pktSize }
      let pps := info.packetCount.setWidth 64 * 1000000000 / timeDiff
      if timeDiff > 100000000 ∧ pps > threshold ∧ info.packetCount > UDP_FLOOD_BURST then
        (.flood, some info)
      else (if oversize then .oversize else .pass, some { info with lastUpdate := now })

/-- `check_udp_flood`. -/
def checkUdpFlood (user : UserMaps) (clk : Clock) (iph : IpHdr) (udph : UdpHdr) : Check := fun st =>
  let srcPort := bpfNtohs udph.source
  let dstPort := bpfNtohs udph.dest
  let pktSize : U32 := (bpfNtohs iph.totLen).setWidth 32
  let cfg := getConfig user.configMap
  let isEstablished := isEstablishedFlow st.activeTraffic iph.saddr iph.daddr srcPort dstPort
    IPPROTO_UDP clk.udp
  let r := st.udpFloodMap.alter iph.saddr (udpEntry (udpThreshold cfg isEstablished) clk.udp
    (udpOversize srcPort dstPort pktSize) pktSize)
  let st := { st with udpFloodMap := r.2 }
  match r.1 with
  | .pass => (.pass, st)
  | .oversize => (.drop, st)
  | .flood =>
    (.drop, updateAttackInfo clk.attack iph.saddr IPPROTO_UDP 1 (pktSize.setWidth 64) st)

end Cyrenus
