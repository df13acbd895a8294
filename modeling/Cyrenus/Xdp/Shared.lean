import Cyrenus.Xdp.AttackLog
import Cyrenus.Xdp.Isolation

/-!
# What the sources share

The program keeps two things for all sources together: the totals of each processor and the log of
attacks. The totals are written once, when a frame is counted; the log is written by the check for
UDP floods only (`xdpStep_shared`), which then drops the frame (`xdpFloods_drop`).
-/

namespace Cyrenus

/-! ## The totals and the log -/

/-- The frame is one that the program counts: it has an Ethernet header, for IPv4. -/
def XdpMd.isCounted (ctx : XdpMd) : Bool :=
  ETH_HLEN ≤ ctx.data.length && ctx.hProto = bpfHtons ETH_P_IP

/-- The log of attacks: its slots and its counter. -/
def Maps.log (st : Maps) : BpfArray MAX_ATTACKS AttackInfo × BpfArray 1 U32 :=
  (st.attackInfoArray, st.attackCount)

/-- What the sources share. -/
def Maps.shared (st : Maps) :
    (BpfArray MAX_ATTACKS AttackInfo × BpfArray 1 U32) × (ℕ → GlobalStats) :=
  (st.log, st.globalStats)

/-- Recording an attack depends on the log alone. -/
theorem attackStep_log_congr {st st' : Maps} (h : st.log = st'.log) (c : AttackCall) :
    (attackStep st c).log = (attackStep st' c).log := by
  obtain ⟨harray, hcount⟩ := Prod.mk.inj h
  simp only [attackStep, updateAttackInfo, Maps.log, harray, hcount]

/-! ## Checks that record attacks -/

/-- A check writes nothing that is shared. -/
def Check.Quiet (s : Check) : Prop := ∀ st, (s st).2.shared = st.shared

/-- A check records an attack exactly when it finds a flood, and drops the frame then; it writes
nothing else that is shared. -/
structure Check.Records (c : AttackCall) (s : Check) (floods : Maps → Bool) : Prop where
  drop : ∀ st, floods st = true → (s st).1 = .drop
  shared : ∀ st, (s st).2.shared =
    (if floods st then (attackStep st c).log else st.log, st.globalStats)

section

variable {s k : Check} {c : AttackCall} {floods : Maps → Bool}

theorem Check.Quiet.andThen (hs : s.Quiet) (hk : k.Quiet) : (s.andThen k).Quiet :=
  Stage.andThen_frame hs hk

theorem Check.Quiet.records (hs : s.Quiet) : s.Records c fun _ => false where
  drop := nofun
  shared := hs

/-- A check that follows a quiet one records what it finds of the frames it gets to see. -/
theorem Check.Records.of_quiet (hs : s.Quiet) (hk : k.Records c floods) :
    (s.andThen k).Records c fun st => decide ((s st).1 = .pass) && floods (s st).2 := by
  constructor
  · intro st hfloods
    obtain ⟨hpass, hfound⟩ := Bool.and_eq_true_iff.1 hfloods
    rw [Check.andThen, Stage.andThen_of_pass (of_decide_eq_true hpass)]
    exact hk.drop _ hfound
  · intro st
    obtain ⟨hlog, hstats⟩ := Prod.mk.inj (hs st)
    by_cases hpass : (s st).1 = .pass
    · rw [Check.andThen, Stage.andThen_of_pass hpass, hk.shared, hlog, hstats,
        attackStep_log_congr hlog]
      simp [hpass]
    · rw [Check.andThen, Stage.andThen_of_stop hpass, hs st]
      simp [hpass, Maps.shared]

/-- A quiet check may follow: it does not get to see what is a flood. -/
theorem Check.Records.andThen (hs : s.Records c floods) (hk : k.Quiet) :
    (s.andThen k).Records c floods := by
  have hstop (st : Maps) (hfloods : floods st = true) : s.andThen k st = s st :=
    Stage.andThen_of_stop (by rw [hs.drop st hfloods]; decide)
  constructor
  · intro st hfloods
    rw [hstop st hfloods]
    exact hs.drop st hfloods
  · intro st
    rw [← hs.shared]
    exact Stage.andThen_frame_snd hk st

end

/-! ## The checks of the program -/

section

variable {user : UserMaps} {clk : Clock} {ip : IpHdr}

theorem handleFragment_quiet : (handleFragment user clk ip).Quiet := by
  intro st
  unfold handleFragment
  split <;> rfl

theorem checkGeoip_quiet (srcIp : U32) : (checkGeoip user srcIp).Quiet := by
  intro st
  unfold checkGeoip
  split
  · rfl
  · split <;> rfl

theorem earlyFilter_quiet (proto : U8) : (earlyFilter user clk ip proto).Quiet := by
  intro st
  unfold earlyFilter
  split_ifs <;> rfl

theorem ipChecks_quiet : (ipChecks user clk ip).Quiet :=
  handleFragment_quiet.andThen ((checkGeoip_quiet _).andThen (earlyFilter_quiet _))

theorem checkSynFlood_quiet (tcph : TcpHdr) : (checkSynFlood user clk ip tcph).Quiet := by
  intro st
  unfold checkSynFlood
  split <;> rfl

theorem checkDnsAmplification_quiet (udph : UdpHdr) (isResponse : Bool) :
    (checkDnsAmplification user clk ip udph isResponse).Quiet := by
  intro st
  unfold checkDnsAmplification
  dsimp only
  split <;> rfl

theorem applyRules_quiet (l4 : Transport) : (applyRules user clk ip l4).Quiet :=
  Check.Quiet.andThen (fun _ => rfl) (fun _ => rfl)

theorem account_quiet (l4 : Transport) : (account user clk ip l4).Quiet := fun _ => rfl

/-- The length of a packet, as the check for UDP floods takes it. -/
def IpHdr.pktSize (ip : IpHdr) : U32 := (bpfNtohs ip.totLen).setWidth 32

variable (user clk ip) in
/-- `check_udp_flood` finds a flood. -/
def udpFloods (udph : UdpHdr) (st : Maps) : Bool :=
  (udpEntry (udpThreshold user.config (flowEstablished st.activeTraffic ip udph clk.udp)) clk.udp
    (udpOversize (bpfNtohs udph.source) (bpfNtohs udph.dest) ip.pktSize) ip.pktSize
    (st.udpFloodMap ip.saddr)).1 = .flood

variable (clk ip) in
/-- The call that records a flood. -/
def floodCall : AttackCall := ⟨clk.attack, ip.saddr, IPPROTO_UDP, 1, ip.pktSize.setWidth 64⟩

theorem checkUdpFlood_records (udph : UdpHdr) :
    (checkUdpFlood user clk ip udph).Records (floodCall clk ip) (udpFloods user clk ip udph) := by
  have hcases (st : Maps) :
      (udpFloods user clk ip udph st = true → (checkUdpFlood user clk ip udph st).1 = .drop) ∧
        (checkUdpFlood user clk ip udph st).2.shared =
          (if udpFloods user clk ip udph st then (attackStep st (floodCall clk ip)).log
            else st.log, st.globalStats) := by
    simp only [udpFloods, checkUdpFlood, getConfig_configMap, Table.alter_fst, decide_eq_true_eq]
    unfold flowEstablished IpHdr.pktSize
    split
    · rename_i hfound
      rw [hfound]
      exact ⟨nofun, rfl⟩
    · rename_i hfound
      rw [hfound]
      exact ⟨nofun, rfl⟩
    · rename_i hfound
      rw [hfound]
      exact ⟨fun _ => rfl, rfl⟩
  exact ⟨fun st => (hcases st).1, fun st => (hcases st).2⟩

variable (user clk ip) in
/-- The limiter of the frame's protocol finds a flood. -/
def limitFloods : Transport → Maps → Bool
  | .udp h => fun st =>
    let r := checkDnsAmplification user clk ip h (h.source = bpfHtons DNS_PORT) st
    decide (r.1 = .pass) && udpFloods user clk ip h r.2
  | _ => fun _ => false

theorem limit_records (l4 : Transport) :
    (limit user clk ip l4).Records (floodCall clk ip) (limitFloods user clk ip l4) := by
  cases l4 with
  | tcp h => exact (checkSynFlood_quiet h).records
  | udp h => exact (checkUdpFlood_records h).of_quiet (checkDnsAmplification_quiet h _)
  | icmp h => exact Check.Quiet.records fun _ => rfl

variable (user clk ip) in
/-- The checks after the transport header is read find a flood. -/
def l4Floods : Option Transport → Maps → Bool
  | some l4 => limitFloods user clk ip l4
  | none => fun _ => false

theorem l4Stages_records (l4 : Option Transport) :
    (l4Stages user clk ip l4).Records (floodCall clk ip) (l4Floods user clk ip l4) := by
  cases l4 with
  | none => exact Check.Quiet.records fun _ => rfl
  | some l4 => exact (limit_records l4).andThen ((applyRules_quiet l4).andThen (account_quiet l4))

/-- All checks together record what the limiters find in the frames that they get to see. -/
theorem checks_records (l4 : Option Transport) :
    ((ipChecks user clk ip).andThen (l4Stages user clk ip l4)).Records (floodCall clk ip)
      fun st => decide ((ipChecks user clk ip st).1 = .pass) &&
        l4Floods user clk ip l4 (ipChecks user clk ip st).2 :=
  (l4Stages_records l4).of_quiet ipChecks_quiet

end

/-! ## One frame -/

/-- The program finds a UDP flood in a frame. -/
def xdpFloods (user : UserMaps) (f : TimedFrame) (st : Maps) : Bool :=
  let iph := f.ctx.iphdr
  let r := ipChecks user f.clk iph (countFrame f.ctx st)
  f.ctx.isIpv4 &&
    (decide (r.1 = .pass) && l4Floods user f.clk iph (f.ctx.transport iph) r.2)

/-- The call that records a flood found in a frame. -/
def TimedFrame.attackCall (f : TimedFrame) : AttackCall := floodCall f.clk f.ctx.iphdr

/-- An IPv4 frame is counted. -/
theorem XdpMd.isCounted_of_isIpv4 {ctx : XdpMd} (h : ctx.isIpv4 = true) : ctx.isCounted = true := by
  simp only [isIpv4, Bool.and_eq_true, beq_iff_eq, decide_eq_true_eq] at h
  simp only [isCounted, Bool.and_eq_true, decide_eq_true_eq]
  exact ⟨Nat.le_trans (Nat.le_add_right ..) h.2, h.1⟩

/-- The maps when a frame has been counted, if it is. -/
def counted (ctx : XdpMd) (st : Maps) : Maps := if ctx.isCounted then countFrame ctx st else st

/-- A frame that is not IPv4, or too short for it, passes when it has been counted. -/
theorem xdpProg_eq_counted {ctx : XdpMd} (h : ctx.isIpv4 = false) (user : UserMaps) (clk : Clock)
    (st : Maps) : xdpProg user clk ctx st = (.pass, counted ctx st) := by
  rw [xdpProg, counted, XdpMd.isCounted]
  rcases Nat.lt_or_ge ctx.data.length ETH_HLEN with hshort | hlong
  · rw [if_pos hshort, decide_eq_false (Nat.not_le.2 hshort), Bool.false_and,
      if_neg Bool.false_ne_true]
  rw [if_neg (Nat.not_lt.2 hlong), decide_eq_true hlong, Bool.true_and]
  by_cases hproto : ctx.hProto = bpfHtons ETH_P_IP
  · have hsmall : ctx.data.length < ETH_HLEN + IPHDR_LEN := by
      simpa [XdpMd.isIpv4, hproto] using h
    rw [if_neg (not_not_intro hproto), decide_eq_true hproto, if_pos rfl]
    exact if_pos hsmall
  · rw [if_pos hproto, decide_eq_false hproto, if_neg Bool.false_ne_true]

/-- **One frame** writes the totals of its processor when it is counted, and the log when a flood is
found in it. -/
theorem xdpStep_shared (user : UserMaps) (f : TimedFrame) (st : Maps) :
    (xdpStep user f st).2.shared =
      (if xdpFloods user f st then (attackStep st f.attackCall).log else st.log,
        (counted f.ctx st).globalStats) := by
  cases hip : f.ctx.isIpv4 with
  | false =>
    rw [xdpStep, xdpProg_eq_counted hip, xdpFloods, hip, Bool.false_and, if_neg Bool.false_ne_true]
    simp only [counted]
    split <;> rfl
  | true =>
    have hshared := (@checks_records user f.clk f.ctx.iphdr (f.ctx.transport f.ctx.iphdr)).shared
      (countFrame f.ctx st)
    rw [xdpStep, xdpProg_of_isIpv4 hip, hshared, xdpFloods, hip, Bool.true_and, counted,
      if_pos (XdpMd.isCounted_of_isIpv4 hip)]
    rfl

/-- **A frame in which a flood is found** is dropped. -/
theorem xdpFloods_drop {user : UserMaps} {f : TimedFrame} {st : Maps}
    (h : xdpFloods user f st = true) : (xdpStep user f st).1 = .drop := by
  obtain ⟨hip, hfound⟩ := Bool.and_eq_true_iff.1 h
  rw [xdpStep, xdpProg_of_isIpv4 hip]
  exact (checks_records _).drop _ hfound

end Cyrenus
