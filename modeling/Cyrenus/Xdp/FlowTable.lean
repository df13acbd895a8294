import Cyrenus.Xdp.Isolation
import Mathlib.Data.List.Induction

/-!
# The flow table

What a record of the flow table says about the frames of its flow. A run takes frames, each under
whatever user maps are in force when it arrives, and evictions, by which the kernel may remove any
entries from the LRU maps at any time. Beside the maps the run keeps, as proof-only state, the
frames accounted under each key since the key's record was created (`Recorded.history`).

`RecordOf k h info` says how a record `info` under the key `k` follows from its history `h`, in the
wrapping arithmetic of the code. `nextFlow_recordOf` shows that accounting one frame keeps it, and
`recorded_consistent` carries it along every run; `flowTable_invariant` reads it back as facts about
numbers.
-/

namespace Cyrenus

/-! ## What one frame does to the table -/

/-- The accounting data of a frame, when the program accounts it: it is an IPv4 frame with a
transport header the program handles, and its verdict is to pass. -/
def accountedBy (user : UserMaps) (f : TimedFrame) (st : Maps) : Option Accounted :=
  if f.ctx.isIpv4 ∧ (xdpStep user f st).1 = .pass then
    (f.ctx.transport f.ctx.iphdr).map (accounted user f.clk f.ctx.iphdr)
  else none

section

variable {user : UserMaps} {clk : Clock} {ip : IpHdr}

theorem handleFragment_activeTraffic (st : Maps) :
    (handleFragment user clk ip st).2.activeTraffic = st.activeTraffic := by
  unfold handleFragment; split <;> rfl

theorem checkGeoip_activeTraffic (srcIp : U32) (st : Maps) :
    (checkGeoip user srcIp st).2.activeTraffic = st.activeTraffic := by
  unfold checkGeoip
  split
  · rfl
  · split <;> rfl

theorem earlyFilter_activeTraffic (proto : U8) (st : Maps) :
    (earlyFilter user clk ip proto st).2.activeTraffic = st.activeTraffic := by
  unfold earlyFilter; split_ifs <;> rfl

theorem checkUdpFlood_activeTraffic (udph : UdpHdr) (st : Maps) :
    (checkUdpFlood user clk ip udph st).2.activeTraffic = st.activeTraffic := by
  unfold checkUdpFlood; dsimp only; split <;> rfl

theorem checkDnsAmplification_activeTraffic (udph : UdpHdr) (isResponse : Bool) (st : Maps) :
    (checkDnsAmplification user clk ip udph isResponse st).2.activeTraffic = st.activeTraffic := by
  unfold checkDnsAmplification; dsimp only; split <;> rfl

/-- The checks before the transport header is read leave the flow table alone. -/
theorem ipChecks_activeTraffic (st : Maps) :
    (ipChecks user clk ip st).2.activeTraffic = st.activeTraffic :=
  Stage.andThen_frame handleFragment_activeTraffic
    (Stage.andThen_frame (checkGeoip_activeTraffic _) (earlyFilter_activeTraffic _)) st

/-- The limiters leave the flow table alone. -/
theorem limit_activeTraffic (l4 : Transport) (st : Maps) :
    (limit user clk ip l4 st).2.activeTraffic = st.activeTraffic := by
  cases l4 with
  | tcp h => simp only [limit, checkSynFlood]; split <;> rfl
  | udp h =>
    exact Stage.andThen_frame (checkDnsAmplification_activeTraffic h _)
      (checkUdpFlood_activeTraffic h) st
  | icmp h => rfl

/-- The rules leave the maps alone. -/
theorem applyRules_snd (l4 : Transport) (st : Maps) : (applyRules user clk ip l4 st).2 = st :=
  Stage.andThen_frame (f := id) (fun _ => rfl) (fun _ => rfl) st

/-- What the stages after the transport header is read do to the flow table: a frame with a header
that they pass is accounted, and any other frame leaves the table alone. -/
theorem l4Stages_activeTraffic (l4 : Option Transport) (st : Maps) :
    (l4Stages user clk ip l4 st).2.activeTraffic =
      (if (l4Stages user clk ip l4 st).1 = .pass then l4.map (accounted user clk ip)
        else none).elim st.activeTraffic (accountFlow st.activeTraffic) := by
  cases l4 with
  | none => simp [l4Stages]
  | some l4 =>
    simp only [l4Stages, Check.andThen]
    by_cases hl : (limit user clk ip l4 st).1 = .pass
    · by_cases hr : (applyRules user clk ip l4 (limit user clk ip l4 st).2).1 = .pass
      · simp [Stage.andThen_of_pass hl, Stage.andThen_of_pass hr, applyRules_snd, account,
          limit_activeTraffic]
      · simp [Stage.andThen_of_pass hl, Stage.andThen_of_stop hr, hr, applyRules_snd,
          limit_activeTraffic]
    · simp [Stage.andThen_of_stop hl, hl, limit_activeTraffic]

end

/-- **What one frame does to the flow table**: it accounts the frame, if the frame is accounted,
and changes nothing otherwise. -/
theorem xdpStep_activeTraffic (user : UserMaps) (f : TimedFrame) (st : Maps) :
    (xdpStep user f st).2.activeTraffic =
      (accountedBy user f st).elim st.activeTraffic (accountFlow st.activeTraffic) := by
  unfold accountedBy
  cases hip : f.ctx.isIpv4 with
  | false =>
    rcases xdpProg_of_not_isIpv4 hip user f.clk st with he | he <;> simp [xdpStep, he]
  | true =>
    simp only [xdpStep, xdpProg_of_isIpv4 hip, Check.andThen]
    by_cases hp : (ipChecks user f.clk f.ctx.iphdr (countFrame f.ctx st)).1 = .pass
    · simp [Stage.andThen_of_pass hp, l4Stages_activeTraffic, ipChecks_activeTraffic]
    · simp [Stage.andThen_of_stop hp, hp, ipChecks_activeTraffic]

/-- A frame that does not pass leaves the flow table as it was. -/
theorem xdpStep_activeTraffic_of_not_pass {user : UserMaps} {f : TimedFrame} {st : Maps}
    (h : (xdpStep user f st).1 ≠ .pass) :
    (xdpStep user f st).2.activeTraffic = st.activeTraffic := by
  simp [xdpStep_activeTraffic, accountedBy, h]

/-- A frame is accounted at the clock reading made for it. -/
theorem accountedBy_now {user : UserMaps} {f : TimedFrame} {st : Maps} {a : Accounted}
    (h : accountedBy user f st = some a) : a.now = f.clk.flow := by
  unfold accountedBy at h
  split at h
  · obtain ⟨l4, -, rfl⟩ := Option.map_eq_some_iff.1 h
    rfl
  · cases h

/-! ## A record and the frames it counts -/

/-- The flag counters of a record, by the bit of the TCP flag byte they count. -/
def TrafficInfo.flagCounter (info : TrafficInfo) : Fin 8 → U32
  | 0 => info.finCount
  | 1 => info.synCount
  | 2 => info.rstCount
  | 3 => info.pshCount
  | 4 => info.ackCount
  | 5 => info.urgCount
  | 6 => info.cweCount
  | 7 => info.eceCount

/-- The number of frames of a history that have a TCP flag set. -/
def flagged (i : Fin 8) (h : List Accounted) : ℕ := h.countP fun a => a.tcpFlags.getLsbD i

/-- How a record follows from the frames accounted since it was created, oldest first. -/
structure RecordOf (k : FlowKey) (h : List Accounted) (info : TrafficInfo) : Prop where
  srcIp : info.srcIp = k.srcIp
  dstIp : info.dstIp = k.dstIp
  srcPort : info.srcPort = k.srcPort
  dstPort : info.dstPort = k.dstPort
  proto : info.proto = k.proto
  packets : info.packets = BitVec.ofNat 32 h.length
  packetsSplit : info.packets = info.fwdPackets + info.bwdPackets
  bytesSplit : info.bytes = info.fwdBytes + info.bwdBytes
  fwdSum : info.fwdPacketLengthSum = info.fwdBytes.setWidth 32
  bwdSum : info.bwdPacketLengthSum = info.bwdBytes.setWidth 32
  start : h.head?.map (·.now) = some info.flowStartTime
  finish : h.getLast?.map (·.now) = some info.flowEndTime
  timestamp : info.timestamp = info.flowEndTime
  flags : ∀ i, info.flagCounter i =
    BitVec.ofNat 32 (if k.proto = IPPROTO_TCP then flagged i h else 0)

theorem flagged_concat (i : Fin 8) (h : List Accounted) (a : Accounted) :
    flagged i (h ++ [a]) = flagged i h + if a.tcpFlags.getLsbD i then 1 else 0 := by
  simp [flagged, List.countP_append, List.countP_singleton]

theorem ofNat_add_flagCount (n : ℕ) (tcpFlags : U8) (i : Fin 8) :
    BitVec.ofNat 32 n + flagCount tcpFlags i =
      BitVec.ofNat 32 (n + if tcpFlags.getLsbD i then 1 else 0) := by
  unfold flagCount
  split <;> simp [BitVec.ofNat_add]

/-- What accounting a frame does to the fields of a record that its history determines. -/
structure FlowStep (info : TrafficInfo) (a : Accounted) (info' : TrafficInfo) : Prop where
  srcIp : info'.srcIp = info.srcIp
  dstIp : info'.dstIp = info.dstIp
  srcPort : info'.srcPort = info.srcPort
  dstPort : info'.dstPort = info.dstPort
  proto : info'.proto = info.proto
  packets : info'.packets = info.packets + 1
  bytes : info'.bytes = info.bytes + a.payloadLength.setWidth 64
  flowStartTime : info'.flowStartTime = info.flowStartTime
  flowEndTime : info'.flowEndTime = a.now
  timestamp : info'.timestamp = a.now
  fwdPackets : info'.fwdPackets = info.fwdPackets + if a.direction = 0 then 1 else 0
  bwdPackets : info'.bwdPackets = info.bwdPackets + if a.direction = 0 then 0 else 1
  fwdBytes : info'.fwdBytes =
    info.fwdBytes + if a.direction = 0 then a.payloadLength.setWidth 64 else 0
  bwdBytes : info'.bwdBytes =
    info.bwdBytes + if a.direction = 0 then 0 else a.payloadLength.setWidth 64
  fwdSum : info'.fwdPacketLengthSum =
    info.fwdPacketLengthSum + if a.direction = 0 then a.payloadLength else 0
  bwdSum : info'.bwdPacketLengthSum =
    info.bwdPacketLengthSum + if a.direction = 0 then 0 else a.payloadLength
  flags : ∀ i, info'.flagCounter i = info.flagCounter i +
    if a.key.proto = IPPROTO_TCP then flagCount a.tcpFlags i else 0

/-- Updating a record is such a step. -/
theorem updateFlow_step (info : TrafficInfo) (a : Accounted) :
    FlowStep info a (updateFlow info a) := by
  unfold updateFlow updatePacketLengthStats updateIatStats
  by_cases hd : a.direction = 0 <;> by_cases ht : a.key.proto = IPPROTO_TCP <;>
    simp only [hd, ht, if_true, if_false]
  all_goals
    constructor
    case flags =>
      simp only [ht, if_true, if_false]
      intro i
      match i with
      | 0 | 1 | 2 | 3 | 4 | 5 | 6 | 7 => first | rfl | exact (BitVec.add_zero _).symm
  all_goals first
    | rfl
    | simp only [hd, if_true, if_false] <;> first | rfl | exact (BitVec.add_zero _).symm

/-- The flag counters of a new record are those of its one frame. -/
theorem newFlow_flagCounter (a : Accounted) (i : Fin 8) :
    (newFlow a).flagCounter i =
      if a.key.proto = IPPROTO_TCP then flagCount a.tcpFlags i else 0 := by
  unfold newFlow updatePacketLengthStats
  by_cases ht : a.key.proto = IPPROTO_TCP <;> simp only [ht, if_true, if_false]
  all_goals match i with
    | 0 | 1 | 2 | 3 | 4 | 5 | 6 | 7 => first | rfl | exact BitVec.zero_add _

/-- The record created for a first frame is that frame's record. -/
theorem newFlow_recordOf (a : Accounted) : RecordOf a.key [a] (newFlow a) := by
  have hflags : ∀ i, (newFlow a).flagCounter i =
      BitVec.ofNat 32 (if a.key.proto = IPPROTO_TCP then flagged i [a] else 0) := by
    intro i
    rw [newFlow_flagCounter]
    split
    · have h := ofNat_add_flagCount 0 a.tcpFlags i
      simpa [flagged, List.countP_singleton] using h
    · rfl
  by_cases ht : a.key.proto = IPPROTO_TCP <;>
    refine ⟨?_, ?_, ?_, ?_, ?_, ?_, ?_, ?_, ?_, ?_, ?_, ?_, ?_, hflags⟩ <;>
    simp [newFlow, updatePacketLengthStats, countFlags, ht]

/-- A step takes the record of a history to the record of the history with the frame added. -/
theorem FlowStep.recordOf {k : FlowKey} {h : List Accounted} {info info' : TrafficInfo}
    {a : Accounted} (hs : FlowStep info a info') (hr : RecordOf k h info) (hk : a.key = k) :
    RecordOf k (h ++ [a]) info' where
  srcIp := hs.srcIp.trans hr.srcIp
  dstIp := hs.dstIp.trans hr.dstIp
  srcPort := hs.srcPort.trans hr.srcPort
  dstPort := hs.dstPort.trans hr.dstPort
  proto := hs.proto.trans hr.proto
  packets := by
    rw [hs.packets, hr.packets, List.length_append, BitVec.ofNat_add]
    rfl
  packetsSplit := by
    rw [hs.packets, hs.fwdPackets, hs.bwdPackets, hr.packetsSplit]
    split <;> grind
  bytesSplit := by
    rw [hs.bytes, hs.fwdBytes, hs.bwdBytes, hr.bytesSplit]
    split <;> grind
  fwdSum := by
    rw [hs.fwdSum, hs.fwdBytes, BitVec.setWidth_add _ _ (by decide), hr.fwdSum]
    split <;> simp
  bwdSum := by
    rw [hs.bwdSum, hs.bwdBytes, BitVec.setWidth_add _ _ (by decide), hr.bwdSum]
    split <;> simp
  start := by
    rw [hs.flowStartTime, ← hr.start]
    cases h with
    | nil => cases hr.start
    | cons b h => rfl
  finish := by simp [hs.flowEndTime]
  timestamp := hs.timestamp.trans hs.flowEndTime.symm
  flags i := by
    rw [hs.flags, hr.flags, flagged_concat, hk]
    split
    · exact ofNat_add_flagCount ..
    · exact BitVec.add_zero _

/-- Accounting a frame keeps the record of its flow its history's. -/
theorem nextFlow_recordOf {h : List Accounted} {old : Option TrafficInfo} {a : Accounted}
    (hold : match old with
      | none => h = []
      | some info => RecordOf a.key h info) :
    RecordOf a.key (h ++ [a]) (nextFlow old a) := by
  cases old with
  | none =>
    subst hold
    exact newFlow_recordOf a
  | some info => exact (updateFlow_step info a).recordOf hold rfl

/-! ## Runs -/

/-- The keys that are removed from the LRU maps at some moment. -/
structure Evicted where
  tokenBuckets : U32 → Bool
  udpFloodMap : U32 → Bool
  fragTrackMap : U32 → Bool
  dnsTrackMap : U32 → Bool
  synFloodMap : U32 → Bool
  activeTraffic : FlowKey → Bool

/-- Remove keys from the LRU maps. -/
def Maps.evict (st : Maps) (gone : Evicted) : Maps :=
  { st with
    tokenBuckets := st.tokenBuckets.prune gone.tokenBuckets
    udpFloodMap := st.udpFloodMap.prune gone.udpFloodMap
    fragTrackMap := st.fragTrackMap.prune gone.fragTrackMap
    dnsTrackMap := st.dnsTrackMap.prune gone.dnsTrackMap
    synFloodMap := st.synFloodMap.prune gone.synFloodMap
    activeTraffic := st.activeTraffic.prune gone.activeTraffic }

/-- One event of a run: a frame arrives while these user maps are in force, or entries are evicted
from the LRU maps. -/
inductive TableEvent where
  | frame (user : UserMaps) (f : TimedFrame)
  | evict (gone : Evicted)

/-- The clock reading the accounting makes at an event. -/
def TableEvent.time : TableEvent → Option U64
  | .frame _ f => some f.clk.flow
  | .evict _ => none

/-- The maps, and under each key the frames accounted since its record was created. -/
structure Recorded where
  maps : Maps
  history : FlowKey → List Accounted

/-- Nothing has happened yet: the maps are as loaded. -/
def Recorded.initial : Recorded := ⟨Maps.initial, fun _ => []⟩

/-- What an event does: the verdict, if it is a frame, and the maps after it. An accounted frame
joins the history of its key, and eviction ends the history of a key. -/
def recordedStep (e : TableEvent) (r : Recorded) : Option XdpAction × Recorded :=
  match e with
  | .frame user f =>
    (some (xdpStep user f r.maps).1,
      { maps := (xdpStep user f r.maps).2
        history := (accountedBy user f r.maps).elim r.history fun a =>
          Function.update r.history a.key (r.history a.key ++ [a]) })
  | .evict gone =>
    (none,
      { maps := r.maps.evict gone
        history := fun k => if gone.activeTraffic k then [] else r.history k })

/-- The state after a run from the maps as loaded. -/
def recorded (events : List TableEvent) : Recorded :=
  Trace.final recordedStep Recorded.initial events

/-- Every record is that of its history, and a key without a record has none. -/
def Recorded.Consistent (r : Recorded) : Prop :=
  ∀ k, match r.maps.activeTraffic k with
    | none => r.history k = []
    | some info => RecordOf k (r.history k) info

/-- One event keeps the records consistent. -/
theorem Recorded.Consistent.step {r : Recorded} (h : r.Consistent) (e : TableEvent) :
    (recordedStep e r).2.Consistent := by
  intro k
  cases e with
  | frame user f =>
    simp only [recordedStep, xdpStep_activeTraffic]
    cases accountedBy user f r.maps with
    | none => exact h k
    | some a =>
      simp only [Option.elim_some]
      by_cases hk : k = a.key
      · subst hk
        simp only [accountFlow_same, Function.update_self]
        exact nextFlow_recordOf (h a.key)
      · simp only [accountFlow_other hk, Function.update_of_ne hk]
        exact h k
  | evict gone =>
    simp only [recordedStep, Maps.evict, Table.prune_apply]
    cases gone.activeTraffic k with
    | true => rfl
    | false => exact h k

/-- **Every reachable record is that of its history.** -/
theorem recorded_consistent (events : List TableEvent) : (recorded events).Consistent :=
  Trace.final_induct (fun _ => rfl) fun e _ _ h => h.step e

/-- The frames of a history were accounted at times of the run, in the order of the run. -/
theorem history_sublist (events : List TableEvent) (k : FlowKey) :
    (((recorded events).history k).map (·.now)).Sublist (events.filterMap TableEvent.time) := by
  induction events using List.reverseRecOn with
  | nil => exact List.Sublist.refl _
  | append_singleton events e ih =>
    rw [recorded, Trace.final_concat, List.filterMap_append]
    rw [recorded] at ih
    generalize Trace.final recordedStep Recorded.initial events = r at ih ⊢
    have hkeep := ih.trans (List.sublist_append_left _ ([e].filterMap TableEvent.time))
    cases e with
    | evict gone =>
      simp only [recordedStep]
      split
      · exact List.nil_sublist _
      · exact hkeep
    | frame user f =>
      simp only [recordedStep]
      cases ha : accountedBy user f r.maps with
      | none => exact hkeep
      | some a =>
        have hnow : a.now = f.clk.flow := accountedBy_now ha
        by_cases hk : k = a.key
        · subst hk
          simp only [Option.elim_some, Function.update_self, List.map_append]
          exact ih.append (by simp [TableEvent.time, hnow])
        · simpa only [Option.elim_some, Function.update_of_ne hk] using hkeep

/-- In a sorted list no element is below the first one. -/
theorem head_le {l : List U64} (hs : l.Pairwise (· ≤ ·)) {x : U64} (hx : l.head? = some x) :
    ∀ y ∈ l, x ≤ y := by
  intro y hy
  cases l with
  | nil => cases hx
  | cons z l =>
    cases hx
    rcases List.mem_cons.1 hy with rfl | hmem
    · exact BitVec.le_refl _
    · exact (List.pairwise_cons.1 hs).1 y hmem

/-- In a sorted list the first element is not above the last one. -/
theorem head_le_getLast {l : List U64} (hs : l.Pairwise (· ≤ ·)) {x y : U64}
    (hx : l.head? = some x) (hy : l.getLast? = some y) : x ≤ y :=
  head_le hs hx y (List.mem_of_getLast? hy)

/-- What a record says about the frames `h` accounted since it was created. -/
structure FlowFacts (k : FlowKey) (h : List Accounted) (info : TrafficInfo) : Prop where
  srcIp : info.srcIp = k.srcIp
  dstIp : info.dstIp = k.dstIp
  srcPort : info.srcPort = k.srcPort
  dstPort : info.dstPort = k.dstPort
  proto : info.proto = k.proto
  packets : info.packets.toNat = h.length % 2 ^ 32
  packetsSplit : info.packets = info.fwdPackets + info.bwdPackets
  bytesSplit : info.bytes = info.fwdBytes + info.bwdBytes
  fwdSum : info.fwdPacketLengthSum.toNat = info.fwdBytes.toNat % 2 ^ 32
  bwdSum : info.bwdPacketLengthSum.toNat = info.bwdBytes.toNat % 2 ^ 32
  start : h.head?.map (·.now) = some info.flowStartTime
  startLe : info.flowStartTime ≤ info.flowEndTime
  timestamp : info.flowEndTime = info.timestamp
  flagsLe : h.length < 2 ^ 32 → ∀ i, info.flagCounter i ≤ info.packets
  noFlags : k.proto ≠ IPPROTO_TCP → ∀ i, info.flagCounter i = 0

/-- The record of a history that is sorted by time has the facts. -/
theorem RecordOf.flowFacts {k : FlowKey} {h : List Accounted} {info : TrafficInfo}
    (hr : RecordOf k h info) (hs : (h.map (·.now)).Pairwise (· ≤ ·)) : FlowFacts k h info where
  srcIp := hr.srcIp
  dstIp := hr.dstIp
  srcPort := hr.srcPort
  dstPort := hr.dstPort
  proto := hr.proto
  packets := by rw [hr.packets, BitVec.toNat_ofNat]
  packetsSplit := hr.packetsSplit
  bytesSplit := hr.bytesSplit
  fwdSum := by rw [hr.fwdSum, BitVec.toNat_setWidth]
  bwdSum := by rw [hr.bwdSum, BitVec.toNat_setWidth]
  start := hr.start
  startLe := head_le_getLast hs (by rw [List.head?_map, hr.start]) (by
    rw [List.getLast?_map, hr.finish])
  timestamp := hr.timestamp.symm
  flagsLe hlt i := by
    have hle : (if k.proto = IPPROTO_TCP then flagged i h else 0) ≤ h.length := by
      split
      · exact List.countP_le_length
      · exact Nat.zero_le _
    rw [hr.flags, hr.packets, BitVec.le_def, BitVec.toNat_ofNat, BitVec.toNat_ofNat,
      Nat.mod_eq_of_lt hlt, Nat.mod_eq_of_lt (by omega)]
    exact hle
  noFlags hp i := by
    rw [hr.flags, if_neg hp]
    rfl

/-- **The flow-table invariant.** After any run in which the clock never steps back, each record
has the addresses, ports and protocol of its key and the counters of its history; and from any
state a frame that does not pass leaves the table as it was. -/
theorem flowTable_invariant (events : List TableEvent)
    (hclock : (events.filterMap TableEvent.time).Pairwise (· ≤ ·)) :
    (∀ k info, (recorded events).maps.activeTraffic k = some info →
      FlowFacts k ((recorded events).history k) info) ∧
    ∀ user f st, (xdpStep user f st).1 ≠ .pass →
      (xdpStep user f st).2.activeTraffic = st.activeTraffic := by
  refine ⟨fun k info hk => ?_, fun _ _ _ => xdpStep_activeTraffic_of_not_pass⟩
  have hr := recorded_consistent events k
  rw [hk] at hr
  exact hr.flowFacts (hclock.sublist (history_sublist events k))

/-- Two segments of one connection, the second with its flags set, and an eviction of nothing. -/
def twoSegments : List TableEvent :=
  let segment (tcpFlags : U8) : List U8 :=
    [0, 80, 31, 144, 0, 0, 0, 0, 0, 0, 0, 0, 0x50, tcpFlags] ++ List.replicate 6 0
  let frame (now : U64) (tcpFlags : U8) : TableEvent := .frame UserMaps.initial
    ⟨.still now, ipv4Frame IPPROTO_TCP [10, 0, 0, 1] [10, 0, 0, 2] (segment tcpFlags), 0⟩
  [frame 5 0x10, .evict ⟨fun _ => false, fun _ => false, fun _ => false, fun _ => false,
    fun _ => false, fun _ => false⟩, frame 9 0x11]

theorem flowTable_invariant_twoSegments :
    (((recorded twoSegments).maps.activeTraffic ⟨0x0100000a, 0x0200000a, 80, 8080, 6⟩).map
      (·.packets) = some 2) ∧
    (∀ k info, (recorded twoSegments).maps.activeTraffic k = some info →
      FlowFacts k ((recorded twoSegments).history k) info) ∧
    ∀ user f st, (xdpStep user f st).1 ≠ .pass →
      (xdpStep user f st).2.activeTraffic = st.activeTraffic :=
  ⟨by decide +kernel, flowTable_invariant twoSegments (by decide)⟩

end Cyrenus
