import Cyrenus.Api.RuleTable
import Cyrenus.Xdp.Prog

/-!
# The rules are enforced

From the rule requests to the verdicts. The endpoints of a frame are read from its bytes as they
stand on the wire (`XdpMd.sourceEnd`, `XdpMd.destEnd`); the program drops the frame exactly when a
check before the rules drops it or the most specific rule in force for one of its endpoints does
(`xdpProg_drop_iff`) and is found: `apply_rule` does not set the padding byte of its key, and with
another byte than zero there no rule is found. `xdpProg_enforces_iff` states for the map that any
run of rule requests builds when the rules are enforced, and what it means for an address that the
dashboard has blocked.
-/

namespace Cyrenus

/-! ## The checks before the rules -/

/-- The checks before the rules, in their order. -/
def earlierChecks (user : UserMaps) (clk : Clock) (ip : IpHdr) (l4 : Transport) : Check :=
  (ipChecks user clk ip).andThen (limit user clk ip l4)

/-- The check drops a frame or lets it pass. -/
abbrev Check.DropsOrPasses (s : Check) : Prop := Stage.Within (· ≠ XdpAction.tx) s

theorem handleFragment_dropsOrPasses (user : UserMaps) (clk : Clock) (ip : IpHdr) :
    (handleFragment user clk ip).DropsOrPasses := by
  intro st
  simp only [handleFragment, fragVerdict]
  split_ifs <;> simp

theorem checkGeoip_dropsOrPasses (user : UserMaps) (srcIp : U32) :
    (checkGeoip user srcIp).DropsOrPasses := by
  intro st
  rw [checkGeoip]
  split
  · simp
  · split_ifs <;> simp

theorem earlyFilter_dropsOrPasses (user : UserMaps) (clk : Clock) (ip : IpHdr) (proto : U8) :
    (earlyFilter user clk ip proto).DropsOrPasses := by
  intro st
  simp only [earlyFilter]
  split_ifs
  · simp
  · simp
  · simp
  · rw [Table.alter_fst]
    cases st.tokenBuckets ip.saddr with
    | none => simp [tokenBucketEntry]
    | some bucket => simp only [tokenBucketEntry]; split_ifs <;> simp
  · simp

theorem checkSynFlood_dropsOrPasses (user : UserMaps) (clk : Clock) (ip : IpHdr) (h : TcpHdr) :
    (checkSynFlood user clk ip h).DropsOrPasses := by
  intro st
  simp only [checkSynFlood]
  split_ifs
  · rw [Table.alter_fst]
    cases st.synFloodMap ip.saddr with
    | none => simp [synEntry]
    | some info => simp only [synEntry]; split_ifs <;> simp
  · simp

theorem checkDnsAmplification_dropsOrPasses (user : UserMaps) (clk : Clock) (ip : IpHdr)
    (h : UdpHdr) (isResponse : Bool) :
    (checkDnsAmplification user clk ip h isResponse).DropsOrPasses := by
  intro st
  simp only [checkDnsAmplification]
  split_ifs
  · simp
  · rw [Table.alter_fst]
    cases st.dnsTrackMap ip.saddr with
    | none => simp [dnsEntry]
    | some info => simp only [dnsEntry]; split_ifs <;> simp

theorem checkUdpFlood_dropsOrPasses (user : UserMaps) (clk : Clock) (ip : IpHdr) (h : UdpHdr) :
    (checkUdpFlood user clk ip h).DropsOrPasses := by
  intro st
  simp only [checkUdpFlood]
  split <;> simp

theorem limit_dropsOrPasses (user : UserMaps) (clk : Clock) (ip : IpHdr) (l4 : Transport) :
    (limit user clk ip l4).DropsOrPasses := by
  cases l4 with
  | tcp h => exact checkSynFlood_dropsOrPasses user clk ip h
  | udp h =>
    exact (checkDnsAmplification_dropsOrPasses user clk ip h _).andThen
      (checkUdpFlood_dropsOrPasses user clk ip h)
  | icmp h => exact fun st => by simp [limit]

theorem earlierChecks_dropsOrPasses (user : UserMaps) (clk : Clock) (ip : IpHdr)
    (l4 : Transport) : (earlierChecks user clk ip l4).DropsOrPasses :=
  ((handleFragment_dropsOrPasses user clk ip).andThen
    ((checkGeoip_dropsOrPasses user ip.saddr).andThen
      (earlyFilter_dropsOrPasses user clk ip ip.protocol))).andThen
    (limit_dropsOrPasses user clk ip l4)

/-! ## The endpoints of a frame -/

namespace XdpMd

variable (ctx : XdpMd)

/-- The address at an offset. -/
def quad (off : ℕ) : Quad :=
  ⟨ctx.byte off, ctx.byte (off + 1), ctx.byte (off + 2), ctx.byte (off + 3)⟩

/-- The source of a frame. The type of an ICMP message takes the place of a port. -/
def sourceEnd : Endpoint where
  addr := ctx.quad (ETH_HLEN + 12)
  port := if ctx.iphdr.protocol = IPPROTO_ICMP then (ctx.byte ctx.iphdr.l4Offset).setWidth 16
    else be16 (ctx.byte ctx.iphdr.l4Offset) (ctx.byte (ctx.iphdr.l4Offset + 1))
  proto := ctx.iphdr.protocol

/-- The destination of a frame. The code of an ICMP message takes the place of a port. -/
def destEnd : Endpoint where
  addr := ctx.quad (ETH_HLEN + 16)
  port := if ctx.iphdr.protocol = IPPROTO_ICMP then
      (ctx.byte (ctx.iphdr.l4Offset + 1)).setWidth 16
    else be16 (ctx.byte (ctx.iphdr.l4Offset + 2)) (ctx.byte (ctx.iphdr.l4Offset + 3))
  proto := ctx.iphdr.protocol

theorem iphdr_saddr : ctx.iphdr.saddr = ctx.sourceEnd.addr.word := rfl

theorem iphdr_daddr : ctx.iphdr.daddr = ctx.destEnd.addr.word := rfl

variable {ctx}

/-- The ports the program reads are those of the endpoints. -/
theorem transport_ports {l4 : Transport} (h : ctx.transport ctx.iphdr = some l4) :
    l4.srcPort = ctx.sourceEnd.port ∧ l4.dstPort = ctx.destEnd.port := by
  have hport (off : ℕ) :
      bpfNtohs (ctx.load16 off) = be16 (ctx.byte off) (ctx.byte (off + 1)) := bpfNtohs_le16 ..
  simp only [transport] at h
  simp only [sourceEnd, destEnd]
  split_ifs at h with htcp hlen hudp hlen hicmp hlen
  · obtain rfl := Option.some.inj h
    rw [if_neg (by rw [htcp]; decide), if_neg (by rw [htcp]; decide)]
    exact ⟨hport _, hport _⟩
  · obtain rfl := Option.some.inj h
    rw [if_neg (by rw [hudp]; decide), if_neg (by rw [hudp]; decide)]
    exact ⟨hport _, hport _⟩
  · obtain rfl := Option.some.inj h
    rw [if_pos hicmp, if_pos hicmp]
    exact ⟨rfl, rfl⟩

end XdpMd

/-! ## The verdict -/

/-- The rules drop a frame when the most specific rule for its source or its destination does and is
found, which takes a padding of zero. -/
theorem applyRules_drop_iff {user : UserMaps} {rules : Table Endpoint RuleAction}
    (hrules : Table.Encodes Endpoint.key Endpoint.rule rules user.rules) (clk : Clock) {ctx : XdpMd}
    {l4 : Transport} (hl4 : ctx.transport ctx.iphdr = some l4) (st : Maps) :
    (applyRules user clk ctx.iphdr l4 st).1 = .drop ↔
      (clk.padding.source = 0 ∧ mostSpecific rules ctx.sourceEnd = some .drop) ∨
        (clk.padding.dest = 0 ∧ mostSpecific rules ctx.destEnd = some .drop) := by
  obtain ⟨hsrc, hdst⟩ := XdpMd.transport_ports hl4
  have hs := applyRule_refines hrules clk.padding.source ctx.sourceEnd
  have hd := applyRule_refines hrules clk.padding.dest ctx.destEnd
  rw [← hsrc, ← ctx.iphdr_saddr] at hs
  rw [← hdst, ← ctx.iphdr_daddr] at hd
  have hdrop : ∀ (p : Prop) [Decidable p] (rule : Option RuleAction),
      (if p then rule else none) = some .drop ↔ p ∧ rule = some .drop := fun p _ rule => by
    split <;> simp [*]
  rw [← hdrop, ← hdrop]
  simp only [applyRules, Check.andThen, Stage.andThen]
  rw [show ctx.iphdr.protocol = ctx.sourceEnd.proto from rfl, hs,
    show ctx.sourceEnd.proto = ctx.destEnd.proto from rfl, hd]
  generalize (if clk.padding.source = 0 then mostSpecific rules ctx.sourceEnd else none) = source
  generalize (if clk.padding.dest = 0 then mostSpecific rules ctx.destEnd else none) = dest
  rcases source with _ | _ | _ <;> rcases dest with _ | _ | _ <;> simp [ruleVerdict]

/-- **The verdict on a frame** with a transport header: it is dropped when a check before the rules
drops it, or the most specific rule for one of its endpoints does and is found. -/
theorem xdpProg_drop_iff {user : UserMaps} {rules : Table Endpoint RuleAction}
    (hrules : Table.Encodes Endpoint.key Endpoint.rule rules user.rules) (clk : Clock)
    {ctx : XdpMd} {l4 : Transport} (hip : ctx.isIpv4 = true)
    (hl4 : ctx.transport ctx.iphdr = some l4) (st : Maps) :
    (xdpProg user clk ctx st).1 = .drop ↔
      (earlierChecks user clk ctx.iphdr l4 (countFrame ctx st)).1 = .drop ∨
        (clk.padding.source = 0 ∧ mostSpecific rules ctx.sourceEnd = some .drop) ∨
        (clk.padding.dest = 0 ∧ mostSpecific rules ctx.destEnd = some .drop) := by
  have hprog : (xdpProg user clk ctx st).1 =
      (Stage.andThen .pass (earlierChecks user clk ctx.iphdr l4) (applyRules user clk ctx.iphdr l4)
        (countFrame ctx st)).1 := by
    have hlast := Stage.andThen_fst_of_pass (k := account user clk ctx.iphdr l4) (fun _ => rfl)
      (s := Stage.andThen .pass (earlierChecks user clk ctx.iphdr l4)
        (applyRules user clk ctx.iphdr l4)) (countFrame ctx st)
    rw [← hlast, Stage.andThen_assoc, xdpProg_of_isIpv4 hip, hl4]
    exact congrArg Prod.fst (Stage.andThen_assoc ..).symm
  rw [hprog]
  cases hearlier : (earlierChecks user clk ctx.iphdr l4 (countFrame ctx st)).1 with
  | drop =>
    rw [Stage.andThen_of_stop (by rw [hearlier]; decide), hearlier]
    simp
  | pass =>
    rw [Stage.andThen_of_pass hearlier, applyRules_drop_iff hrules clk hl4]
    simp
  | tx => exact absurd hearlier (earlierChecks_dropsOrPasses user clk ctx.iphdr l4 _)

/-! ## Blocking an address -/

/-- The body of a request that `blockIP` of the dashboard posts. -/
def blockBody (ip : CStr) (proto : String) : Json :=
  .object [("ip".toList, .string ip), ("port".toList, .int 0),
    ("proto".toList, .string proto.toList), ("action".toList, .string "drop".toList)]

/-- It is valid and drops every port of the address. -/
theorem blockBody_valid {ip : CStr} {addr : Quad} (h : inetPton ip = some addr) {name : String}
    {proto : U8} (hproto : (name, proto) ∈ [("tcp", IPPROTO_TCP), ("udp", IPPROTO_UDP)]) :
    ValidRule (blockBody ip name) ⟨addr, 0, proto⟩ .drop where
  ip := ⟨ip, rfl, h⟩
  port := ⟨0, rfl, by decide, by decide, rfl⟩
  proto := ⟨name.toList, name, rfl, by simp [CStr.strcasecmp],
    List.mem_append_left [("icmp", IPPROTO_ICMP)] hproto⟩
  action := ⟨"drop".toList, "drop", rfl, by decide, by simp⟩

/-- The two requests of `blockIP`, both of which succeed. -/
def blockIP (ip : CStr) (addr : Quad) (h : inetPton ip = some addr) : List RuleEvent :=
  [.post ⟨_, ⟨addr, 0, IPPROTO_TCP⟩, .drop, blockBody_valid h (.head _)⟩ true,
    .post ⟨_, ⟨addr, 0, IPPROTO_UDP⟩, .drop, blockBody_valid h (.tail _ (.head _))⟩ true]

/-- The endpoint is one that `blockIP` installs a rule for. -/
def BlockedBy (addr : Quad) (e : Endpoint) : Prop :=
  e = ⟨addr, 0, IPPROTO_TCP⟩ ∨ e = ⟨addr, 0, IPPROTO_UDP⟩

/-- The rules of `blockIP` stay in force until a request changes them. -/
theorem inForce_blockIP {ip : CStr} {addr : Quad} (h : inetPton ip = some addr)
    (before after : List RuleEvent) (hafter : ∀ event ∈ after, ¬ BlockedBy addr event.endpoint)
    {e : Endpoint} (he : BlockedBy addr e) :
    inForce (before ++ blockIP ip addr h ++ after) e = some .drop := by
  have hother : ∀ event ∈ after, event.endpoint ≠ e := fun event hmem heq =>
    hafter event hmem (heq ▸ he)
  rw [inForce, List.foldl_append, List.foldl_append, foldl_apply_other hother]
  rcases he with rfl | rfl
  · exact (Table.set_other (by simp [IPPROTO_TCP, IPPROTO_UDP])).trans (Table.set_same ..)
  · exact Table.set_same ..

/-- **The rules are enforced on a frame**: if no earlier check drops it, it is dropped exactly when
the most specific rule in force for its source, or else that for its destination, says to. In
particular, after `blockIP` no TCP or UDP frame from the address passes, unless there is a rule for
its very port. -/
def Enforced (events : List RuleEvent) (user : UserMaps) (clk : Clock) (ctx : XdpMd)
    (l4 : Transport) (st : Maps) : Prop :=
  ((earlierChecks user clk ctx.iphdr l4 (countFrame ctx st)).1 ≠ .drop →
    ((xdpProg user clk ctx st).1 = .drop ↔
      mostSpecific (inForce events) ctx.sourceEnd = some .drop ∨
        mostSpecific (inForce events) ctx.destEnd = some .drop)) ∧
  ∀ (ip : CStr) (addr : Quad) (h : inetPton ip = some addr) (before after : List RuleEvent),
    events = before ++ blockIP ip addr h ++ after →
    (∀ event ∈ after, ¬ BlockedBy addr event.endpoint) →
    ctx.sourceEnd.addr = addr →
    (ctx.sourceEnd.proto = IPPROTO_TCP ∨ ctx.sourceEnd.proto = IPPROTO_UDP) →
    (ctx.sourceEnd.port = 0 ∨ inForce events ctx.sourceEnd = none) →
    (xdpProg user clk ctx st).1 = .drop

/-- When the rules drop the frame, one that does is found: the key for its endpoint is padded with
zero. -/
def PaddedWithZero (events : List RuleEvent) (padding : KeyPadding) (ctx : XdpMd) : Prop :=
  mostSpecific (inForce events) ctx.sourceEnd = some .drop ∨
      mostSpecific (inForce events) ctx.destEnd = some .drop →
    (padding.source = 0 ∧ mostSpecific (inForce events) ctx.sourceEnd = some .drop) ∨
      (padding.dest = 0 ∧ mostSpecific (inForce events) ctx.destEnd = some .drop)

/-- After `blockIP` the most specific rule for a TCP or UDP frame from the address drops it, unless
there is a rule for its very port. -/
theorem mostSpecific_blockIP {ip : CStr} {addr : Quad} (h : inetPton ip = some addr)
    (before after : List RuleEvent) (hafter : ∀ event ∈ after, ¬ BlockedBy addr event.endpoint)
    {e : Endpoint} (haddr : e.addr = addr) (hproto : e.proto = IPPROTO_TCP ∨ e.proto = IPPROTO_UDP)
    (hport : e.port = 0 ∨ inForce (before ++ blockIP ip addr h ++ after) e = none) :
    mostSpecific (inForce (before ++ blockIP ip addr h ++ after)) e = some .drop := by
  have hwild : inForce (before ++ blockIP ip addr h ++ after) { e with port := 0 } = some .drop :=
    inForce_blockIP h before after hafter (by simpa [BlockedBy, haddr] using hproto)
  rcases hport with hzero | hnone
  · have hself : { e with port := 0 } = e := by rw [← hzero]
    rw [mostSpecific, ← hself, hwild, Option.some_or]
  · rw [mostSpecific, hnone, hwild, Option.none_or]

/-- **When the rules are enforced.** With the map that a run of rule requests builds, the rules are
enforced on a frame with a transport header exactly when one that drops it is found, unless an
earlier check drops the frame. -/
theorem xdpProg_enforces_iff (toText : Json → CStr) (events : List RuleEvent) {user : UserMaps}
    (hrules : user.rules = ruleMap toText events) (clk : Clock) {ctx : XdpMd} {l4 : Transport}
    (hip : ctx.isIpv4 = true) (hl4 : ctx.transport ctx.iphdr = some l4) (st : Maps) :
    Enforced events user clk ctx l4 st ↔
      ((earlierChecks user clk ctx.iphdr l4 (countFrame ctx st)).1 ≠ .drop →
        PaddedWithZero events clk.padding ctx) := by
  have hverdict := xdpProg_drop_iff (hrules ▸ ruleMap_encodes toText events) clk hip hl4 st
  constructor
  · rintro ⟨henforced, -⟩ hearlier hdrop
    exact (hverdict.1 ((henforced hearlier).2 hdrop)).resolve_left hearlier
  · intro hpadded
    refine ⟨fun hearlier => (hverdict.trans (or_iff_right hearlier)).trans
      ⟨Or.imp And.right And.right, hpadded hearlier⟩, ?_⟩
    rintro ip addr h before after rfl hafter haddr hproto hport
    have hblocked := mostSpecific_blockIP h before after hafter haddr hproto hport
    by_cases hearlier : (earlierChecks user clk ctx.iphdr l4 (countFrame ctx st)).1 = .drop
    · exact hverdict.2 (.inl hearlier)
    · exact hverdict.2 (.inr (hpadded hearlier (.inl hblocked)))

/-- A UDP packet from a blocked address to another one. -/
def blockedPacket : XdpMd where
  data := ipv4Frame IPPROTO_UDP [10, 0, 0, 1] [10, 0, 0, 2] [0x13, 0x88, 0, 80, 0, 8, 0, 0]
  cpu := 0

theorem inetPton_blocked : inetPton "10.0.0.1".toList = some ⟨10, 0, 0, 1⟩ := by decide +kernel

/-- The requests that block it. -/
def blockEvents : List RuleEvent := blockIP _ _ inetPton_blocked

/-- The user maps after these requests. -/
def blockedUser : UserMaps := { UserMaps.initial with rules := ruleMap (fun _ => []) blockEvents }

theorem transport_blockedPacket :
    blockedPacket.transport blockedPacket.iphdr = some (.udp ⟨0x8813, 0x5000⟩) := by
  decide +kernel

/-- What stands on the stack may hide a rule: where the padding byte is one, the packet from the
blocked address passes. -/
theorem xdpProg_enforces_fails :
    ¬ ∀ (toText : Json → CStr) (events : List RuleEvent) (user : UserMaps) (clk : Clock)
      (ctx : XdpMd) (l4 : Transport) (st : Maps), user.rules = ruleMap toText events →
      ctx.isIpv4 = true → ctx.transport ctx.iphdr = some l4 →
      Enforced events user clk ctx l4 st := by
  intro h
  have henforced := h (fun _ => []) blockEvents blockedUser { Clock.still 0 with padding := ⟨1, 1⟩ }
    blockedPacket _ Maps.initial rfl (by decide +kernel) transport_blockedPacket
  have hdrop := henforced.2 _ _ inetPton_blocked [] [] (by simp [blockEvents]) (by simp)
    (by decide +kernel) (.inr (by decide +kernel)) (.inr (by decide +kernel))
  exact absurd hdrop (by decide +kernel)

/-- On a stack of zeros the rule of the blocked address is found, and the packet dropped. -/
theorem xdpProg_enforces_iff_blocked :
    (xdpProg blockedUser (Clock.still 0) blockedPacket Maps.initial).1 = .drop ∧
      Enforced blockEvents blockedUser (Clock.still 0) blockedPacket (.udp ⟨0x8813, 0x5000⟩)
        Maps.initial := by
  have hrules : blockedUser.rules = ruleMap (fun _ => []) blockEvents := rfl
  have henforced := (xdpProg_enforces_iff (fun _ => []) blockEvents hrules (Clock.still 0)
    (by decide +kernel) transport_blockedPacket Maps.initial).2
      fun _ hdrop => hdrop.imp (⟨rfl, ·⟩) (⟨rfl, ·⟩)
  exact ⟨henforced.2 _ _ inetPton_blocked [] [] (by simp [blockEvents]) (by simp)
    (by decide +kernel) (.inr (by decide +kernel)) (.inr (by decide +kernel)), henforced⟩

end Cyrenus
