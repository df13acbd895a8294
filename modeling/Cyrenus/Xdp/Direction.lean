import Cyrenus.Xdp.FlowHistory

/-!
# The direction a frame is counted in

A record has two halves, for the frames to the host and for those from it. Updating a record counts
a frame in the half its direction says, but creating one counts the frame forward whatever its
direction is. So a record is attributed to the right half, and a first frame counted in it, exactly
when its destination is the host (`direction_attribution`).
-/

namespace Cyrenus

/-! ## The halves of a record -/

/-- What a record keeps about one direction. -/
structure HalfStats where
  packets : U32 := 0
  bytes : U64 := 0
  headerLength : U32 := 0
  packetLengthMax : U32 := 0
  packetLengthMin : U32 := 0
  packetLengthSum : U32 := 0
  iatSum : U32 := 0
  deriving DecidableEq, Repr

/-- The `fwd_` fields of a record. -/
def TrafficInfo.fwd (info : TrafficInfo) : HalfStats :=
  ⟨info.fwdPackets, info.fwdBytes, info.fwdHeaderLength, info.fwdPacketLengthMax,
    info.fwdPacketLengthMin, info.fwdPacketLengthSum, info.fwdIatSum⟩

/-- The `bwd_` fields of a record. -/
def TrafficInfo.bwd (info : TrafficInfo) : HalfStats :=
  ⟨info.bwdPackets, info.bwdBytes, info.bwdHeaderLength, info.bwdPacketLengthMax,
    info.bwdPacketLengthMin, info.bwdPacketLengthSum, info.bwdIatSum⟩

/-- A new record has its frame in the forward half. -/
theorem newFlow_fwd_packets (a : Accounted) : (newFlow a).fwd.packets = 1 :=
  (newFlow_first a).fwdPackets

theorem newFlow_bwd (a : Accounted) : (newFlow a).bwd = {} := by
  have h := newFlow_first a
  simp only [TrafficInfo.bwd, h.bwdPackets, h.bwdBytes, h.bwdHeaderLength, h.bwdMax, h.bwdMin,
    h.bwdSum, h.bwdIatSum]

section

variable {info : TrafficInfo} {a : Accounted}

/-- An update with a frame to the host leaves the backward half alone. -/
theorem updateFlow_bwd (hd : a.direction = 0) : (updateFlow info a).bwd = info.bwd := by
  have h := updateFlow_step info a
  have hs := updateFlow_stats info a
  simp only [TrafficInfo.bwd, h.bwdPackets, h.bwdBytes, h.bwdSum, hs.bwdHeaderLength, hs.bwdMax,
    hs.bwdMin, hs.bwdIatSum, if_pos hd]
  simp only [BitVec.ofNat_eq_ofNat, BitVec.add_zero]

/-- An update with a frame from the host leaves the forward half alone. -/
theorem updateFlow_fwd (hd : a.direction ≠ 0) : (updateFlow info a).fwd = info.fwd := by
  have h := updateFlow_step info a
  have hs := updateFlow_stats info a
  simp only [TrafficInfo.fwd, h.fwdPackets, h.fwdBytes, h.fwdSum, hs.fwdHeaderLength, hs.fwdMax,
    hs.fwdMin, hs.fwdIatSum, if_neg hd]
  simp only [BitVec.ofNat_eq_ofNat, BitVec.add_zero]

end

/-! ## Runs with one host address -/

/-- The address the program takes for the host's. -/
def UserMaps.host (user : UserMaps) : U32 := (user.hostIp.lookup 0).getD 0

/-- The host address is the given one when the event happens. -/
def TableEvent.HostIs (host : U32) : TableEvent → Prop
  | .frame user _ => user.host = host
  | .evict _ => True

/-- The direction of the frames to an address. -/
def directionTo (host dstIp : U32) : U8 := if host = dstIp then 0 else 1

theorem directionTo_eq_zero_iff {host dstIp : U32} : directionTo host dstIp = 0 ↔ host = dstIp := by
  unfold directionTo
  split
  · next h => exact iff_of_true rfl h
  · next h => exact iff_of_false (by decide) h

/-- The direction of an accounted frame is that of its destination. -/
theorem accountedBy_direction {user : UserMaps} {f : TimedFrame} {st : Maps} {a : Accounted}
    (h : accountedBy user f st = some a) : a.direction = directionTo user.host a.key.dstIp := by
  unfold accountedBy at h
  split at h
  · obtain ⟨l4, -, rfl⟩ := Option.map_eq_some_iff.1 h
    rfl
  · cases h

/-- In a run with one host address the frames of a history have the direction of its key. -/
theorem history_direction {host : U32} {events : List TableEvent}
    (hhost : ∀ e ∈ events, e.HostIs host) (k : FlowKey) :
    ∀ a ∈ (recorded events).history k, a.direction = directionTo host k.dstIp := by
  intro a ha
  obtain ⟨rfl, hdir⟩ := @history_spec (fun a => a.direction = directionTo host a.key.dstIp) events
    (fun user f he st a ha => by
      rw [accountedBy_direction ha, show user.host = host from hhost _ he]) k a ha
  exact hdir

/-- A record is attributed to the direction of its flow: it says so, and the other half is zero. -/
structure Attributed (host : U32) (k : FlowKey) (info : TrafficInfo) : Prop where
  direction : info.direction = directionTo host k.dstIp
  toHost : host = k.dstIp → info.bwd = {}
  fromHost : host ≠ k.dstIp → info.fwd = {}

/-- The record of a history whose frames have one direction: it keeps that direction, and with
frames to the host nothing backward, else the first frame and no other forward. -/
theorem flowOf_direction {d : U8} {h : List Accounted} {info : TrafficInfo}
    (hd : ∀ a ∈ h, a.direction = d) (hinfo : flowOf h = some info) :
    info.direction = d ∧ (d = 0 → info.bwd = {}) ∧ (d ≠ 0 → info.fwd.packets = 1) := by
  refine flowOf_induct (P := fun _ info => info.direction = d ∧ (d = 0 → info.bwd = {}) ∧
    (d ≠ 0 → info.fwd.packets = 1)) (fun a ha => ?_) (fun h info a _ ha ih => ?_) hd hinfo
  · exact ⟨(newFlow_first a).direction.trans ha, fun _ => newFlow_bwd a,
      fun _ => newFlow_fwd_packets a⟩
  · obtain ⟨hdir, hbwd, hfwd⟩ := ih
    refine ⟨(updateFlow_stats info a).direction.trans hdir, fun h0 => ?_, fun h0 => ?_⟩
    · exact (updateFlow_bwd (ha.trans h0)).trans (hbwd h0)
    · rw [updateFlow_fwd (fun h => h0 (ha.symm.trans h))]
      exact hfwd h0

/-- Which records of a run are attributed. -/
theorem attributed_iff {host : U32} {events : List TableEvent}
    (hhost : ∀ e ∈ events, e.HostIs host) {k : FlowKey} {info : TrafficInfo}
    (hk : (recorded events).maps.activeTraffic k = some info) :
    Attributed host k info ↔ host = k.dstIp := by
  rw [recorded_flowOf] at hk
  obtain ⟨hdir, hbwd, hfwd⟩ := flowOf_direction (history_direction hhost k) hk
  constructor
  · intro h
    by_contra hne
    have hone := hfwd (mt directionTo_eq_zero_iff.1 hne)
    rw [h.fromHost hne] at hone
    exact absurd hone (by decide)
  · intro h
    exact ⟨hdir, fun _ => hbwd (directionTo_eq_zero_iff.2 h), fun hne => absurd h hne⟩

/-! ## Frames -/

/-- A frame is counted in a half, and the other half is left alone. -/
structure CountedIn (half other : TrafficInfo → HalfStats) (a : Accounted)
    (old new : TrafficInfo) : Prop where
  packets : (half new).packets = (half old).packets + 1
  bytes : (half new).bytes = (half old).bytes + a.payloadLength.setWidth 64
  headerLength : (half new).headerLength = (half old).headerLength + a.headerLength
  other : other new = other old

/-- A frame is counted in the direction it travelled, in the record of its flow. A flow without a
record has counted nothing. -/
def CountedAsTravelled (host : U32) (a : Accounted) (st st' : Maps) : Prop :=
  let old := (st.activeTraffic a.key).getD {}
  let new := (st'.activeTraffic a.key).getD {}
  if host = a.key.dstIp then CountedIn TrafficInfo.fwd TrafficInfo.bwd a old new
  else CountedIn TrafficInfo.bwd TrafficInfo.fwd a old new

/-- A new record counts its frame forward. -/
theorem newFlow_countedIn (a : Accounted) :
    CountedIn TrafficInfo.fwd TrafficInfo.bwd a {} (newFlow a) := by
  have h := newFlow_first a
  exact ⟨h.fwdPackets, h.fwdBytes.trans (BitVec.zero_add _).symm,
    h.fwdHeaderLength.trans (BitVec.zero_add _).symm, newFlow_bwd a⟩

/-- An updated record counts its frame in the half of its direction. -/
theorem updateFlow_countedIn (info : TrafficInfo) (a : Accounted) :
    if a.direction = 0 then CountedIn TrafficInfo.fwd TrafficInfo.bwd a info (updateFlow info a)
    else CountedIn TrafficInfo.bwd TrafficInfo.fwd a info (updateFlow info a) := by
  have h := updateFlow_step info a
  have hs := updateFlow_stats info a
  split
  · next hd =>
    exact ⟨h.fwdPackets.trans (by rw [if_pos hd]; rfl), h.fwdBytes.trans (by rw [if_pos hd]; rfl),
      hs.fwdHeaderLength.trans (by rw [if_pos hd]; rfl), updateFlow_bwd hd⟩
  · next hd =>
    exact ⟨h.bwdPackets.trans (by rw [if_neg hd]; rfl), h.bwdBytes.trans (by rw [if_neg hd]; rfl),
      hs.bwdHeaderLength.trans (by rw [if_neg hd]; rfl), updateFlow_fwd hd⟩

/-- Which frames are counted in the direction they travelled. -/
theorem countedAsTravelled_iff {host : U32} {user : UserMaps} {f : TimedFrame} {st : Maps}
    {a : Accounted} (hhost : user.host = host) (h : accountedBy user f st = some a) :
    CountedAsTravelled host a st (xdpStep user f st).2 ↔
      host = a.key.dstIp ∨ st.activeTraffic a.key ≠ none := by
  have hdir : a.direction = 0 ↔ host = a.key.dstIp := by
    rw [accountedBy_direction h, hhost, directionTo_eq_zero_iff]
  simp only [CountedAsTravelled, xdpStep_activeTraffic, h, Option.elim_some, accountFlow_same,
    Option.getD_some]
  cases st.activeTraffic a.key with
  | some info =>
    have hcount := updateFlow_countedIn info a
    simp only [hdir] at hcount
    exact iff_of_true hcount (.inr (Option.some_ne_none info))
  | none =>
    simp only [ne_eq, not_true_eq_false, or_false, nextFlow, Option.getD_none]
    split
    · next hto => exact iff_of_true (newFlow_countedIn a) hto
    · next hto =>
      -- The frame is counted forward, so the backward half does not grow.
      refine iff_of_false (fun hcount => ?_) hto
      have hpackets := hcount.packets
      rw [newFlow_bwd] at hpackets
      exact absurd hpackets (by decide)

/-- **Direction attribution.** In every run with one host address, a record is attributed to the
direction of its flow exactly when the flow is to the host; and an accounted frame is counted in the
direction it travelled exactly when it travels to the host or its flow has a record already. -/
theorem direction_attribution (host : U32) (events : List TableEvent)
    (hhost : ∀ e ∈ events, e.HostIs host) :
    (∀ k info, (recorded events).maps.activeTraffic k = some info →
      (Attributed host k info ↔ host = k.dstIp)) ∧
    ∀ user f a, user.host = host → accountedBy user f (recorded events).maps = some a →
      (CountedAsTravelled host a (recorded events).maps (xdpStep user f (recorded events).maps).2 ↔
        host = a.key.dstIp ∨ (recorded events).maps.activeTraffic a.key ≠ none) :=
  ⟨fun _ _ hk => attributed_iff hhost hk, fun _ _ _ huser ha => countedAsTravelled_iff huser ha⟩

/-- The host 10.0.0.1 sends a segment. -/
def outgoing : List TableEvent :=
  [.frame { UserMaps.initial with hostIp := fun _ => 0x0100000a }
    ⟨.still 5, ipv4Frame IPPROTO_TCP [10, 0, 0, 1] [10, 0, 0, 2]
      ([0, 80, 31, 144, 0, 0, 0, 0, 0, 0, 0, 0, 0x50, 0x10] ++ List.replicate 6 0), 0⟩]

/-- Its record says that it comes from the host, and counts it as one to the host. -/
theorem outgoing_not_attributed :
    ∃ info, (recorded outgoing).maps.activeTraffic ⟨0x0100000a, 0x0200000a, 80, 8080, 6⟩ =
        some info ∧ info.direction = 1 ∧ info.fwd.packets = 1 ∧
      ¬ Attributed 0x0100000a ⟨0x0100000a, 0x0200000a, 80, 8080, 6⟩ info := by
  obtain ⟨info, hinfo, hfields⟩ := exists_record (recorded outgoing).maps
    ⟨0x0100000a, 0x0200000a, 80, 8080, 6⟩ (fun info => (info.direction, info.fwd.packets)) (1, 1)
    (by decide +kernel)
  obtain ⟨hdir, hone⟩ := Prod.mk.inj hfields
  refine ⟨info, hinfo, hdir, hone, fun h => ?_⟩
  rw [h.fromHost (by decide)] at hone
  exact absurd hone (by decide)

theorem direction_attribution_outgoing :
    (∀ k info, (recorded outgoing).maps.activeTraffic k = some info →
      (Attributed 0x0100000a k info ↔ 0x0100000a = k.dstIp)) ∧
    ∀ user f a, user.host = 0x0100000a → accountedBy user f (recorded outgoing).maps = some a →
      (CountedAsTravelled 0x0100000a a (recorded outgoing).maps
          (xdpStep user f (recorded outgoing).maps).2 ↔
        0x0100000a = a.key.dstIp ∨ (recorded outgoing).maps.activeTraffic a.key ≠ none) :=
  direction_attribution 0x0100000a outgoing fun e he => by
    rw [List.mem_singleton.1 he]
    rfl

end Cyrenus
