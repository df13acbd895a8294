import Cyrenus.Xdp.Checks

/-!
# The kernel program

`xdp_prog`: the checks in order, the protocol limiters, the rules for both endpoints, and the flow
accounting for a frame that all of them let pass. A frame that is not IPv4, or whose headers do not
lie inside it, passes without being accounted.
-/

namespace Cyrenus

/-! ## Rules -/

/-- The verdict a rule asks for. -/
def Rule.verdict (rule : Rule) : XdpAction :=
  if rule.action = 1 then .drop else if rule.action = 2 then .pass
  else if rule.action = 3 then .tx else .pass

/-- `bpf_map_lookup_elem` in the map of rules. The kernel compares all eight bytes of the key, and
the handlers clear theirs (`= {0}`) before they store a rule. -/
def lookupRule (rules : Table RuleKey Rule) (padding : U8) (key : RuleKey) : Option Rule :=
  if padding = 0 then rules key else none

/-- `apply_rule`: the rule for this port if there is one, else the rule for port 0. Both lookups are
made with one key, whose padding byte the function does not set. -/
def applyRule (rules : Table RuleKey Rule) (padding : U8) (ip : U32) (port : U16) (proto : U8) :
    XdpAction :=
  match lookupRule rules padding ⟨ip, bpfHtons port, proto⟩ with
  | some rule => rule.verdict
  | none =>
    match lookupRule rules padding ⟨ip, 0, proto⟩ with
    | some rule => rule.verdict
    | none => .pass

/-! ## Flow accounting -/

/-- `update_packet_length_stats`. The comparisons with the 16-bit extremes are made at 32 bits, and
a new extreme is cut to 16. -/
def updatePacketLengthStats (info : TrafficInfo) (packetLength : U32) (direction : U8) :
    TrafficInfo :=
  let info := if direction = 0 then
      { info with
        fwdPacketLengthMax := if packetLength > info.fwdPacketLengthMax then packetLength
          else info.fwdPacketLengthMax
        fwdPacketLengthMin := if packetLength < info.fwdPacketLengthMin ∨
            info.fwdPacketLengthMin = 0 then packetLength else info.fwdPacketLengthMin
        fwdPacketLengthSum := info.fwdPacketLengthSum + packetLength }
    else
      { info with
        bwdPacketLengthMax := if packetLength > info.bwdPacketLengthMax then packetLength
          else info.bwdPacketLengthMax
        bwdPacketLengthMin := if packetLength < info.bwdPacketLengthMin ∨
            info.bwdPacketLengthMin = 0 then packetLength else info.bwdPacketLengthMin
        bwdPacketLengthSum := info.bwdPacketLengthSum + packetLength }
  { info with
    maxPacketLength := if packetLength > info.maxPacketLength.setWidth 32 then
      packetLength.setWidth 16 else info.maxPacketLength
    minPacketLength := if packetLength < info.minPacketLength.setWidth 32 ∨
        info.minPacketLength = 0 then packetLength.setWidth 16 else info.minPacketLength }

/-- `update_iat_stats`. The difference is taken at 64 bits and added to 32-bit sums. -/
def updateIatStats (info : TrafficInfo) (currentTime : U64) (direction : U8) : TrafficInfo :=
  let iat := currentTime - info.timestamp
  let info := { info with iatSum := info.iatSum + iat.setWidth 32 }
  if direction = 0 then { info with fwdIatSum := info.fwdIatSum + iat.setWidth 32 }
  else { info with bwdIatSum := info.bwdIatSum + iat.setWidth 32 }

/-- One if the bit of a flag byte is set, else zero. -/
def flagCount (tcpFlags : U8) (bit : ℕ) : U32 := if tcpFlags.getLsbD bit then 1 else 0

/-- Add the flags of a TCP segment to the flag counters. -/
def countFlags (info : TrafficInfo) (tcpFlags : U8) : TrafficInfo :=
  { info with
    finCount := info.finCount + flagCount tcpFlags 0
    synCount := info.synCount + flagCount tcpFlags 1
    rstCount := info.rstCount + flagCount tcpFlags 2
    pshCount := info.pshCount + flagCount tcpFlags 3
    ackCount := info.ackCount + flagCount tcpFlags 4
    urgCount := info.urgCount + flagCount tcpFlags 5
    cweCount := info.cweCount + flagCount tcpFlags 6
    eceCount := info.eceCount + flagCount tcpFlags 7 }

/-- What the accounting needs to know of a frame. -/
structure Accounted where
  key : FlowKey
  now : U64
  direction : U8
  hostIp : U32
  payloadLength : U32
  headerLength : U32
  tcpFlags : U8

/-- The record created for the first frame of a flow. It is counted forward whatever its
direction. -/
def newFlow (a : Accounted) : TrafficInfo :=
  let info : TrafficInfo :=
    { srcIp := a.key.srcIp, dstIp := a.key.dstIp, srcPort := a.key.srcPort
      dstPort := a.key.dstPort, timestamp := a.now, direction := a.direction, hostIp := a.hostIp
      proto := a.key.proto, bytes := a.payloadLength.setWidth 64, packets := 1
      flowStartTime := a.now, flowEndTime := a.now, fwdPackets := 1
      fwdBytes := a.payloadLength.setWidth 64, fwdHeaderLength := a.headerLength }
  let info := updatePacketLengthStats info a.payloadLength 0
  if a.key.proto = IPPROTO_TCP then countFlags info a.tcpFlags else info

/-- The record of a flow after one more frame. -/
def updateFlow (info : TrafficInfo) (a : Accounted) : TrafficInfo :=
  let info := { info with
    flowEndTime := a.now
    packets := info.packets + 1
    bytes := info.bytes + a.payloadLength.setWidth 64 }
  let info := if a.direction = 0 then
      { info with
        fwdPackets := info.fwdPackets + 1
        fwdBytes := info.fwdBytes + a.payloadLength.setWidth 64
        fwdHeaderLength := info.fwdHeaderLength + a.headerLength }
    else
      { info with
        bwdPackets := info.bwdPackets + 1
        bwdBytes := info.bwdBytes + a.payloadLength.setWidth 64
        bwdHeaderLength := info.bwdHeaderLength + a.headerLength }
  let info := updatePacketLengthStats info a.payloadLength a.direction
  let info := updateIatStats info a.now a.direction
  let info := if a.key.proto = IPPROTO_TCP then countFlags info a.tcpFlags else info
  { info with timestamp := a.now }

/-- The record of a flow after a frame, whether there was one before or not. -/
def nextFlow (old : Option TrafficInfo) (a : Accounted) : TrafficInfo :=
  match old with
  | none => newFlow a
  | some info => updateFlow info a

/-- Account a frame in the flow table. -/
def accountFlow (flows : Table FlowKey TrafficInfo) (a : Accounted) : Table FlowKey TrafficInfo :=
  flows.set a.key (nextFlow (flows a.key) a)

@[simp] theorem accountFlow_same (flows : Table FlowKey TrafficInfo) (a : Accounted) :
    accountFlow flows a a.key = some (nextFlow (flows a.key) a) := Table.set_same ..

theorem accountFlow_other {flows : Table FlowKey TrafficInfo} {a : Accounted} {k : FlowKey}
    (h : k ≠ a.key) : accountFlow flows a k = flows k := Table.set_other h

/-- The accounting data of a frame. The payload length is a 32-bit difference. -/
def accounted (user : UserMaps) (clk : Clock) (ip : IpHdr) (l4 : Transport) : Accounted :=
  let ipHeaderLength : U32 := ip.ihl.setWidth 32 * 4
  let currentHostIp := (user.hostIp.lookup 0).getD 0
  { key := ⟨ip.saddr, ip.daddr, l4.srcPort, l4.dstPort, ip.protocol⟩
    now := clk.flow
    direction := if currentHostIp = ip.daddr then 0 else 1
    hostIp := currentHostIp
    payloadLength := (bpfNtohs ip.totLen).setWidth 32 - ipHeaderLength - l4.l4HeaderLength
    headerLength := ipHeaderLength + l4.l4HeaderLength
    tcpFlags := l4.tcpFlags }

/-! ## The program -/

/-- The limiter of the frame's protocol. -/
def limit (user : UserMaps) (clk : Clock) (ip : IpHdr) : Transport → Check
  | .tcp h => checkSynFlood user clk ip h
  | .udp h =>
    (checkDnsAmplification user clk ip h (h.source = bpfHtons DNS_PORT)).andThen
      (checkUdpFlood user clk ip h)
  | .icmp _ => fun st => (.pass, st)

/-- The rules for the source, and if they let the frame pass, those for the destination. -/
def applyRules (user : UserMaps) (clk : Clock) (ip : IpHdr) (l4 : Transport) : Check :=
  Check.andThen
    (fun st => (applyRule user.rules clk.padding.source ip.saddr l4.srcPort ip.protocol, st))
    (fun st => (applyRule user.rules clk.padding.dest ip.daddr l4.dstPort ip.protocol, st))

/-- The checks before the transport header is read. -/
def ipChecks (user : UserMaps) (clk : Clock) (ip : IpHdr) : Check :=
  (handleFragment user clk ip).andThen <|
    (checkGeoip user ip.saddr).andThen (earlyFilter user clk ip ip.protocol)

/-- Count a frame in the totals of the processor. -/
def countFrame (ctx : XdpMd) (st : Maps) : Maps :=
  let stats := st.globalStats ctx.cpu
  let stats : GlobalStats :=
    ⟨stats.totalPackets + 1, stats.totalBytes + BitVec.ofNat 64 ctx.data.length⟩
  { st with globalStats := Function.update st.globalStats ctx.cpu stats }

@[simp] theorem countFrame_activeTraffic (ctx : XdpMd) (st : Maps) :
    (countFrame ctx st).activeTraffic = st.activeTraffic := rfl

/-- Account a frame that every check let pass. -/
def account (user : UserMaps) (clk : Clock) (ip : IpHdr) (l4 : Transport) : Check := fun st =>
  (.pass, { st with activeTraffic := accountFlow st.activeTraffic (accounted user clk ip l4) })

/-- The part of the program that follows the reading of the transport header. Without one the frame
passes at once. -/
def l4Stages (user : UserMaps) (clk : Clock) (ip : IpHdr) : Option Transport → Check
  | none => fun st => (.pass, st)
  | some l4 =>
    (limit user clk ip l4).andThen <| (applyRules user clk ip l4).andThen (account user clk ip l4)

/-- `xdp_prog`. -/
def xdpProg (user : UserMaps) (clk : Clock) (ctx : XdpMd) : Check := fun st =>
  if ctx.data.length < ETH_HLEN then (.pass, st)
  else if ctx.hProto ≠ bpfHtons ETH_P_IP then (.pass, st)
  else
    let st := countFrame ctx st
    if ctx.data.length < ETH_HLEN + IPHDR_LEN then (.pass, st)
    else
      let ip := ctx.iphdr
      (ipChecks user clk ip).andThen (l4Stages user clk ip (ctx.transport ip)) st

/-- On an IPv4 frame the program makes its checks after counting the frame. -/
theorem xdpProg_of_isIpv4 {ctx : XdpMd} (h : ctx.isIpv4 = true) (user : UserMaps) (clk : Clock)
    (st : Maps) :
    xdpProg user clk ctx st =
      (ipChecks user clk ctx.iphdr).andThen
        (l4Stages user clk ctx.iphdr (ctx.transport ctx.iphdr)) (countFrame ctx st) := by
  simp only [XdpMd.isIpv4, Bool.and_eq_true, beq_iff_eq, decide_eq_true_eq] at h
  have hlen : ¬ ctx.data.length < ETH_HLEN := by have := h.2; simp only [IPHDR_LEN] at this; omega
  simp only [xdpProg, if_neg hlen, h.1, ne_eq, not_true_eq_false, if_false,
    if_neg (Nat.not_lt.2 h.2)]

/-- Any other frame passes, and at most its totals are counted. -/
theorem xdpProg_of_not_isIpv4 {ctx : XdpMd} (h : ctx.isIpv4 = false) (user : UserMaps)
    (clk : Clock) (st : Maps) :
    xdpProg user clk ctx st = (.pass, st) ∨
      xdpProg user clk ctx st = (.pass, countFrame ctx st) := by
  unfold xdpProg
  split_ifs with h1 h2 h3
  · exact .inl rfl
  · exact .inl rfl
  · exact .inr rfl
  · simp_all [XdpMd.isIpv4]

end Cyrenus
