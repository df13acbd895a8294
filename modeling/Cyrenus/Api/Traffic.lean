import Cyrenus.Address
import Cyrenus.Lib.Cursor
import Cyrenus.Xdp.FlowTable

/-!
# The listing of the flows

`api_traffic_stats` walks the flow table from the all-zero key and stops at a hundred flows. No
frame is accounted under that key, because the program drops packets without addresses
(`accountedBy_srcIp`), so the walk misses none; but the numbers are handed to json-c as signed ones
(`trafficListed_iff`).
-/

namespace Cyrenus

/-! ## The listing -/

/-- What the listing shows of a flow. -/
structure TrafficEntry where
  srcIp : CStr
  dstIp : CStr
  srcPort : U16
  dstPort : U16
  proto : U8
  bytes : ℤ
  packets : ℤ
  deriving DecidableEq, Repr

/-- The entry of a record. The count of bytes is handed over as an `int64_t` and that of packets as
an `int`. -/
def trafficEntry (info : TrafficInfo) : TrafficEntry where
  srcIp := inetNtop info.srcIp
  dstIp := inetNtop info.dstIp
  srcPort := info.srcPort
  dstPort := info.dstPort
  proto := info.proto
  bytes := info.bytes.toInt
  packets := info.packets.toInt

/-- The all-zero key, from which the listing starts. -/
def zeroFlow : FlowKey := ⟨0, 0, 0, 0, 0⟩

/-- The loop of `api_traffic_stats` over the keys it comes to, after `count` entries. -/
def trafficLoop (flows : Table FlowKey TrafficInfo) : List FlowKey → ℕ → List TrafficEntry
  | [], _ => []
  | key :: keys, count =>
    match flows key with
    | none => trafficLoop flows keys count
    | some info =>
      trafficEntry info :: if count + 1 ≥ 100 then [] else trafficLoop flows keys (count + 1)

/-- `api_traffic_stats`, given the order in which the kernel enumerates the keys. -/
def apiTrafficStats {flows : Table FlowKey TrafficInfo} (order : KeyOrder flows) :
    List TrafficEntry :=
  trafficLoop flows (order.walkAll zeroFlow) 0

/-- The loop lists the first keys it comes to. -/
theorem trafficLoop_eq {flows : Table FlowKey TrafficInfo} {keys : List FlowKey} {count : ℕ}
    (hkeys : ∀ key ∈ keys, flows key ≠ none) (hcount : count < 100) :
    trafficLoop flows keys count =
      (keys.take (100 - count)).filterMap fun key => (flows key).map trafficEntry := by
  induction keys generalizing count with
  | nil => simp [trafficLoop]
  | cons key keys ih =>
    obtain ⟨hkey, hkeys⟩ := List.forall_mem_cons.1 hkeys
    obtain ⟨info, hinfo⟩ := Option.ne_none_iff_exists'.1 hkey
    have htake : 100 - count = (100 - (count + 1)) + 1 := by omega
    rw [htake, List.take_succ_cons, List.filterMap_cons_some (by rw [hinfo]; rfl)]
    simp only [trafficLoop, hinfo]
    split_ifs with hlast
    · rw [show 100 - (count + 1) = 0 by omega]
      rfl
    · rw [ih hkeys (by omega)]

/-! ## The flow table has no all-zero key -/

/-- A packet without a source address does not pass the checks. -/
theorem ipChecks_ne_pass {user : UserMaps} {clk : Clock} {ip : IpHdr} (h : ip.saddr = 0)
    (st : Maps) : (ipChecks user clk ip st).1 ≠ .pass := by
  have hfilter : ∀ st, (earlyFilter user clk ip ip.protocol st).1 ≠ .pass := fun st => by
    rw [earlyFilter, if_pos (.inl h)]
    exact XdpAction.noConfusion
  exact Stage.andThen_ne_pass_iff.2 (.inr (Stage.andThen_ne_pass_iff.2 (.inr (hfilter _))))

/-- A frame is accounted under a key with a source address. -/
theorem accountedBy_srcIp {user : UserMaps} {f : TimedFrame} {st : Maps} {a : Accounted}
    (h : accountedBy user f st = some a) : a.key.srcIp ≠ 0 := by
  unfold accountedBy at h
  split at h
  · next hpass =>
    obtain ⟨l4, -, rfl⟩ := Option.map_eq_some_iff.1 h
    intro hzero
    rw [xdpStep, xdpProg_of_isIpv4 hpass.1] at hpass
    exact Stage.andThen_ne_pass_iff.2 (.inl (ipChecks_ne_pass hzero _)) hpass.2
  · cases h

/-- Every record is of a flow with a source address, and the keys of the flow table have an
order. -/
structure Recorded.Listable (r : Recorded) : Prop where
  srcIp : ∀ key, r.maps.activeTraffic key ≠ none → key.srcIp ≠ 0
  order : Nonempty (KeyOrder r.maps.activeTraffic)

theorem Recorded.Listable.step {r : Recorded} (h : r.Listable) (e : TableEvent) :
    (recordedStep e r).2.Listable := by
  obtain ⟨order⟩ := h.order
  cases e with
  | frame user f =>
    have hflows := xdpStep_activeTraffic user f r.maps
    cases ha : accountedBy user f r.maps with
    | none =>
      rw [ha] at hflows
      constructor <;> simp only [recordedStep, hflows, Option.elim_none]
      · exact h.srcIp
      · exact h.order
    | some a =>
      rw [ha] at hflows
      constructor <;> simp only [recordedStep, hflows, Option.elim_some]
      · intro key hkey
        by_cases hk : key = a.key
        · exact hk ▸ accountedBy_srcIp ha
        · rw [accountFlow_other hk] at hkey
          exact h.srcIp key hkey
      · exact ⟨order.set ..⟩
  | evict gone =>
    constructor <;> simp only [recordedStep, Maps.evict]
    · intro key hkey
      refine h.srcIp key fun hnone => hkey ?_
      rw [Table.prune_apply, hnone, ite_self]
    · exact ⟨order.prune _⟩

theorem recorded_listable (events : List TableEvent) : (recorded events).Listable :=
  Trace.final_induct ⟨fun _ h => absurd rfl h, ⟨.ofEmpty⟩⟩ fun e _ _ h => h.step e

/-- **No run stores a record under the all-zero key.** -/
theorem recorded_zeroFlow (events : List TableEvent) :
    (recorded events).maps.activeTraffic zeroFlow = none := by
  by_contra hzero
  exact (recorded_listable events).srcIp zeroFlow hzero rfl

/-! ## What is listed -/

/-- An entry shows a record. -/
structure TrafficEntry.Shows (entry : TrafficEntry) (info : TrafficInfo) : Prop where
  srcIp : entry.srcIp = inetNtop info.srcIp
  dstIp : entry.dstIp = inetNtop info.dstIp
  srcPort : entry.srcPort = info.srcPort
  dstPort : entry.dstPort = info.dstPort
  proto : entry.proto = info.proto
  bytes : entry.bytes = info.bytes.toNat
  packets : entry.packets = info.packets.toNat

/-- The listing has a hundred entries, or as many as there are records; they differ from each other,
and each shows a record. -/
structure ListsTraffic {flows : Table FlowKey TrafficInfo} (order : KeyOrder flows) : Prop where
  length : (apiTrafficStats order).length = min 100 order.keys.length
  nodup : (apiTrafficStats order).Nodup
  shows : ∀ entry ∈ apiTrafficStats order, ∃ key info, flows key = some info ∧ entry.Shows info

/-- From a key that is not held the listing has the first hundred flows. -/
theorem apiTrafficStats_eq {flows : Table FlowKey TrafficInfo} (order : KeyOrder flows)
    (h : flows zeroFlow = none) :
    apiTrafficStats order =
      (order.keys.take 100).filterMap fun key => (flows key).map trafficEntry := by
  rw [apiTrafficStats, order.walkAll_of_absent h,
    trafficLoop_eq (fun key => (order.mem_iff key).1) (by decide)]

/-- The records of different keys have different entries. -/
theorem trafficEntry_inj {events : List TableEvent} {key key' : FlowKey} {info info' : TrafficInfo}
    (hkey : (recorded events).maps.activeTraffic key = some info)
    (hkey' : (recorded events).maps.activeTraffic key' = some info')
    (h : trafficEntry info = trafficEntry info') : key = key' := by
  have hr := recorded_consistent events key
  have hr' := recorded_consistent events key'
  rw [hkey] at hr
  rw [hkey'] at hr'
  have hsrc := inetNtop_injective (congrArg TrafficEntry.srcIp h)
  have hdst := inetNtop_injective (congrArg TrafficEntry.dstIp h)
  have hsport : info.srcPort = info'.srcPort := congrArg TrafficEntry.srcPort h
  have hdport : info.dstPort = info'.dstPort := congrArg TrafficEntry.dstPort h
  have hproto : info.proto = info'.proto := congrArg TrafficEntry.proto h
  obtain ⟨s, d, sp, dp, p⟩ := key
  obtain ⟨s', d', sp', dp', p'⟩ := key'
  simp only [FlowKey.mk.injEq]
  exact ⟨hr.srcIp.symm.trans (hsrc.trans hr'.srcIp), hr.dstIp.symm.trans (hdst.trans hr'.dstIp),
    hr.srcPort.symm.trans (hsport.trans hr'.srcPort),
    hr.dstPort.symm.trans (hdport.trans hr'.dstPort), hr.proto.symm.trans (hproto.trans hr'.proto)⟩

/-- The entry of a record shows it when the numbers are below the bounds of the signed types. -/
theorem trafficEntry_shows {info : TrafficInfo} (hpackets : info.packets.toNat < 2 ^ 31)
    (hbytes : info.bytes.toNat < 2 ^ 63) : (trafficEntry info).Shows info where
  srcIp := rfl
  dstIp := rfl
  srcPort := rfl
  dstPort := rfl
  proto := rfl
  bytes := BitVec.toInt_eq_toNat_of_lt (by omega)
  packets := BitVec.toInt_eq_toNat_of_lt (by omega)

/-- **When the listing is right**: when the numbers of every record that it comes to are below the
bounds of the signed types. -/
theorem trafficListed_iff (events : List TableEvent)
    (order : KeyOrder (recorded events).maps.activeTraffic) :
    ListsTraffic order ↔ ∀ key ∈ order.keys.take 100, ∀ info,
      (recorded events).maps.activeTraffic key = some info →
      info.packets.toNat < 2 ^ 31 ∧ info.bytes.toNat < 2 ^ 63 := by
  have hlist := apiTrafficStats_eq order (recorded_zeroFlow events)
  constructor
  · intro h key hkey info hinfo
    have hentry : trafficEntry info ∈ apiTrafficStats order := by
      rw [hlist]
      exact List.mem_filterMap.2 ⟨key, hkey, by rw [hinfo]; rfl⟩
    obtain ⟨_, info', -, hshows⟩ := h.shows _ hentry
    have hpackets : info.packets.toInt = info'.packets.toNat := hshows.packets
    have hbytes : info.bytes.toInt = info'.bytes.toNat := hshows.bytes
    have hpackets : 0 ≤ info.packets.toInt := hpackets ▸ Int.natCast_nonneg _
    have hbytes : 0 ≤ info.bytes.toInt := hbytes ▸ Int.natCast_nonneg _
    rw [BitVec.toInt_pos_iff] at hpackets hbytes
    omega
  · intro h
    constructor
    · rw [hlist, KeyOrder.length_lookups (fun _ => trafficEntry), List.length_take]
      exact fun key hkey => (order.mem_iff key).1 (List.mem_of_mem_take hkey)
    · rw [hlist]
      refine (order.nodup.sublist (List.take_sublist ..)).filterMap fun key key' entry he he' => ?_
      obtain ⟨info, hinfo, rfl⟩ := Option.map_eq_some_iff.1 he
      obtain ⟨info', hinfo', heq⟩ := Option.map_eq_some_iff.1 he'
      exact trafficEntry_inj hinfo hinfo' heq.symm
    · intro entry hentry
      rw [hlist] at hentry
      obtain ⟨key, hkey, he⟩ := List.mem_filterMap.1 hentry
      obtain ⟨info, hinfo, rfl⟩ := Option.map_eq_some_iff.1 he
      obtain ⟨hpackets, hbytes⟩ := h key hkey info hinfo
      exact ⟨key, info, hinfo, trafficEntry_shows hpackets hbytes⟩

/-- A segment of a connection. -/
def segment : TimedFrame where
  clk := .still 0
  ctx :=
    ⟨ipv4Frame IPPROTO_TCP [10, 0, 0, 1] [10, 0, 0, 2]
      ([0, 80, 31, 144, 0, 0, 0, 0, 0, 0, 0, 0, 0x50, 0x10] ++ List.replicate 6 0), 0⟩

/-- Its IP header. -/
def segmentIp : IpHdr := ⟨5, bpfHtons 40, 0, 64, IPPROTO_TCP, 0x0100000a, 0x0200000a⟩

/-- Its TCP header. -/
def segmentTcp : TcpHdr := ⟨bpfHtons 80, bpfHtons 8080, 5, 0x10⟩

/-- The key of its flow. -/
def segmentKey : FlowKey := ⟨0x0100000a, 0x0200000a, 80, 8080, IPPROTO_TCP⟩

/-- The segment is accounted in every state. -/
theorem accountedBy_segment (st : Maps) :
    ∃ a, accountedBy UserMaps.initial segment st = some a ∧ a.key = segmentKey := by
  have hip : segment.ctx.isIpv4 = true ∧ segment.ctx.iphdr = segmentIp ∧
      segment.ctx.transport segmentIp = some (.tcp segmentTcp) := by decide +kernel
  obtain ⟨hip, hiphdr, hl4⟩ := hip
  have hchecks : ∀ st, ipChecks UserMaps.initial (.still 0) segmentIp st = (.pass, st) :=
    fun st => rfl
  have hpass : (xdpStep UserMaps.initial segment st).1 = .pass := by
    rw [xdpStep, xdpProg_of_isIpv4 hip, hiphdr, hl4, Check.andThen,
      Stage.andThen_of_pass (by exact hchecks _ ▸ rfl)]
    rfl
  refine ⟨accounted UserMaps.initial (.still 0) segmentIp (.tcp segmentTcp), ?_, rfl⟩
  rw [accountedBy, if_pos ⟨hip, hpass⟩, hiphdr, hl4]
  rfl

/-- A run of segments, which arrive before the user space sets anything up. -/
def segments (n : ℕ) : List TableEvent := List.replicate n (.frame UserMaps.initial segment)

/-- It makes a history of as many frames. -/
theorem history_segments (n : ℕ) :
    ((recorded (segments n)).history segmentKey).length = n := by
  induction n with
  | zero => rfl
  | succ n ih =>
    rw [segments, List.replicate_succ', recorded, Trace.final_concat]
    rw [segments, recorded] at ih
    obtain ⟨a, ha, hkey⟩ := accountedBy_segment
      (Trace.final recordedStep Recorded.initial
        (List.replicate n (.frame UserMaps.initial segment))).maps
    simp only [recordedStep, ha, Option.elim_some, hkey, Function.update_self, List.length_append,
      ih, List.length_singleton]

/-- The record it makes counts the frames in 32 bits. -/
theorem packets_segments {n : ℕ} (hn : n ≠ 0) :
    ∃ info, (recorded (segments n)).maps.activeTraffic segmentKey = some info ∧
      info.packets = BitVec.ofNat 32 n := by
  have hlen := history_segments n
  have hr := recorded_consistent (segments n) segmentKey
  cases hinfo : (recorded (segments n)).maps.activeTraffic segmentKey with
  | none =>
    rw [hinfo] at hr
    rw [hr] at hlen
    exact absurd hlen.symm hn
  | some info =>
    rw [hinfo] at hr
    exact ⟨info, rfl, by rw [hr.packets, hlen]⟩

/-- A count that is negative as an `int` is listed so, and the listing is wrong. -/
theorem not_listsTraffic_segments {n : ℕ} (hn : (BitVec.ofNat 32 n).toInt < 0) :
    ∃ order : KeyOrder (recorded (segments n)).maps.activeTraffic,
      (∃ entry ∈ apiTrafficStats order, entry.packets = (BitVec.ofNat 32 n).toInt) ∧
      ¬ ListsTraffic order := by
  have hpos : n ≠ 0 := by
    rintro rfl
    exact absurd hn (by decide)
  obtain ⟨info, hinfo, hpackets⟩ := packets_segments hpos
  obtain ⟨order⟩ := (recorded_listable (segments n)).order
  have hentry : trafficEntry info ∈
      apiTrafficStats (order.moveFirst segmentKey (by rw [hinfo]; exact Option.some_ne_none _)) := by
    rw [apiTrafficStats_eq _ (recorded_zeroFlow _), KeyOrder.moveFirst, List.take_succ_cons]
    exact List.mem_filterMap.2 ⟨segmentKey, List.mem_cons_self, by rw [hinfo]; rfl⟩
  refine ⟨_, ⟨trafficEntry info, hentry, congrArg BitVec.toInt hpackets⟩, fun h => ?_⟩
  obtain ⟨_, info', -, hshows⟩ := h.shows _ hentry
  have hshown : info.packets.toInt = info'.packets.toNat := hshows.packets
  rw [hpackets] at hshown
  omega

/-- The record of a flow of 2^31 segments is listed with a negative number of packets. -/
theorem trafficListed_fails :
    ∃ order : KeyOrder (recorded (segments (2 ^ 31))).maps.activeTraffic,
      (∃ entry ∈ apiTrafficStats order, entry.packets = -2 ^ 31) ∧ ¬ ListsTraffic order := by
  have hint : (BitVec.ofNat 32 (2 ^ 31)).toInt = -2 ^ 31 := by decide
  obtain ⟨order, ⟨entry, hmem, hpackets⟩, hwrong⟩ :=
    not_listsTraffic_segments (by rw [hint]; decide)
  exact ⟨order, ⟨entry, hmem, hpackets.trans hint⟩, hwrong⟩

end Cyrenus
