import Cyrenus.Address
import Cyrenus.Api.Json
import Cyrenus.Xdp.AttackLog

/-!
# What the daemon reports of the attack log

`get_attack_info` walks over the attack log with a cursor that the kernel advances, and
`api_attacks_list` answers with the records it finds and those of the database behind them. The
cursor is advanced before the first read, so the walk starts at index 1: `getAttackInfo_eq` says
what it finds, and `attacksReported_iff` when that is every record.
-/

namespace Cyrenus

/-! ## The walk over the log -/

/-- `bpf_map_get_next_key` of an array map: the next index, the first one after an index that is out
of range, and a failure after the last one. -/
def BpfArray.getNextKey {n : ℕ} {V : Type} (_ : BpfArray n V) (key : U32) : Option U32 :=
  if n ≤ key.toNat then some 0
  else if key.toNat = n - 1 then none
  else some (key + 1)

/-- A record that counts as an attack. -/
def AttackInfo.isLive (e : AttackInfo) : Bool := e.packets > 0 && e.timestamp > 0

/-- How far the cursor is from the last index; an index out of range is the farthest. -/
def cursorDistance (key : U32) : ℕ :=
  if key.toNat < MAX_ATTACKS then MAX_ATTACKS - key.toNat else MAX_ATTACKS + 1

/-- The cursor comes closer to the last index. -/
theorem cursorDistance_lt {a : BpfArray MAX_ATTACKS AttackInfo} {key nextKey : U32}
    (h : a.getNextKey key = some nextKey) : cursorDistance nextKey < cursorDistance key := by
  have hN : MAX_ATTACKS = 1000 := rfl
  rw [BpfArray.getNextKey] at h
  by_cases hout : MAX_ATTACKS ≤ key.toNat
  · rw [if_pos hout] at h
    cases h
    rw [cursorDistance, cursorDistance, if_pos (by decide), if_neg (Nat.not_lt.2 hout)]
    exact Nat.lt_succ_self MAX_ATTACKS
  · rw [if_neg hout] at h
    by_cases hlast : key.toNat = MAX_ATTACKS - 1
    · rw [if_pos hlast] at h
      cases h
    · rw [if_neg hlast] at h
      cases h
      have hsucc : (key + 1).toNat = key.toNat + 1 :=
        BitVec.toNat_add_of_lt (by change _ + 1 < 2 ^ 32; omega)
      rw [cursorDistance, cursorDistance, hsucc, if_pos (by omega), if_pos (by omega)]
      omega

/-- The loop of `get_attack_info`, from a cursor on and with the records already found. -/
def attackWalk (a : BpfArray MAX_ATTACKS AttackInfo) (key : U32) (attacks : List AttackInfo) :
    List AttackInfo :=
  match _h : a.getNextKey key with
  | none => attacks
  | some nextKey =>
    match a.lookup nextKey with
    | none => attackWalk a nextKey attacks
    | some ebpfAttack =>
      if ebpfAttack.isLive then
        let attacks := attacks ++ [ebpfAttack]
        if attacks.length ≥ MAX_ATTACKS then attacks else attackWalk a nextKey attacks
      else attackWalk a nextKey attacks
termination_by cursorDistance key
decreasing_by all_goals exact cursorDistance_lt ‹_›

/-- `get_attack_info`, when the array it fills can be allocated. -/
def getAttackInfo (a : BpfArray MAX_ATTACKS AttackInfo) : List AttackInfo := attackWalk a 0 []

/-- The records of the log that count as attacks, in index order. -/
def liveRecords (a : BpfArray MAX_ATTACKS AttackInfo) : List AttackInfo :=
  (List.ofFn a).filter AttackInfo.isLive

/-- At the last index the walk ends. -/
theorem attackWalk_last {a : BpfArray MAX_ATTACKS AttackInfo} {key : U32}
    (hkey : key.toNat = MAX_ATTACKS - 1) (attacks : List AttackInfo) :
    attackWalk a key attacks = attacks := by
  have hnext : a.getNextKey key = none := by
    rw [BpfArray.getNextKey, if_neg (by rw [hkey]; decide), if_pos hkey]
  rw [attackWalk]
  split
  · rfl
  · rename_i h
    rw [hnext] at h
    cases h

/-- Before it the walk reads the next index; the records found never fill the array. -/
theorem attackWalk_next {a : BpfArray MAX_ATTACKS AttackInfo} {key nextKey : U32}
    {attacks : List AttackInfo} {e : AttackInfo} (hnext : a.getNextKey key = some nextKey)
    (he : a.lookup nextKey = some e) (hlen : attacks.length + 1 < MAX_ATTACKS) :
    attackWalk a key attacks =
      attackWalk a nextKey (if e.isLive then attacks ++ [e] else attacks) := by
  rw [attackWalk]
  split
  · rename_i h
    rw [hnext] at h
    cases h
  · rename_i next h
    rw [hnext] at h
    cases h
    have hroom : ¬ (attacks ++ [e]).length ≥ MAX_ATTACKS := by
      rw [List.length_append, List.length_singleton]
      omega
    simp only [he, if_neg hroom]
    split <;> rfl

/-- The elements from an index on are that element and those behind it. -/
theorem drop_ofFn (a : BpfArray MAX_ATTACKS AttackInfo) {k : ℕ} (hk : k < MAX_ATTACKS) :
    (List.ofFn a).drop k = a ⟨k, hk⟩ :: (List.ofFn a).drop (k + 1) := by
  rw [List.drop_eq_getElem_cons (by rwa [List.length_ofFn]), List.getElem_ofFn]

/-- From a cursor on the walk finds the live records behind it. -/
theorem attackWalk_eq {a : BpfArray MAX_ATTACKS AttackInfo} {key : U32} {attacks : List AttackInfo}
    {d : ℕ} (hkey : key.toNat + d + 1 = MAX_ATTACKS) (hlen : attacks.length ≤ key.toNat) :
    attackWalk a key attacks =
      attacks ++ ((List.ofFn a).drop (key.toNat + 1)).filter AttackInfo.isLive := by
  have hN : MAX_ATTACKS = 1000 := rfl
  induction d generalizing key attacks with
  | zero =>
    have hdrop : (List.ofFn a).drop (key.toNat + 1) = [] :=
      List.drop_eq_nil_of_le (by rw [List.length_ofFn]; omega)
    rw [attackWalk_last (by omega), hdrop, List.filter_nil, List.append_nil]
  | succ d ih =>
    have hsucc : (key + 1).toNat = key.toNat + 1 :=
      BitVec.toNat_add_of_lt (by change _ + 1 < 2 ^ 32; omega)
    have hin : (key + 1).toNat < MAX_ATTACKS := by omega
    have hnext : a.getNextKey key = some (key + 1) := by
      rw [BpfArray.getNextKey, if_neg (by omega), if_neg (by omega)]
    rw [attackWalk_next hnext (dif_pos hin) (by omega), ← hsucc, drop_ofFn a hin,
      List.filter_cons, ih (by omega) (by split <;> simp <;> omega)]
    split <;> simp

/-- **What `get_attack_info` finds**: the live records but for the one at index 0. -/
theorem getAttackInfo_eq (a : BpfArray MAX_ATTACKS AttackInfo) :
    getAttackInfo a = (List.ofFn a).tail.filter AttackInfo.isLive := by
  rw [getAttackInfo, attackWalk_eq (d := 999) rfl (by decide), List.nil_append,
    List.drop_one.symm]
  rfl

/-- The live records are the one at index 0, if it is live, and those found. -/
theorem liveRecords_eq {a : BpfArray MAX_ATTACKS AttackInfo} {e : AttackInfo}
    (h : a.lookup 0 = some e) :
    liveRecords a = (if e.isLive then [e] else []) ++ getAttackInfo a := by
  have h0 : (0 : U32).toNat < MAX_ATTACKS := by decide
  have hfirst : a.lookup 0 = some (a ⟨(0 : U32).toNat, h0⟩) := dif_pos h0
  have hcons : List.ofFn a = e :: (List.ofFn a).tail :=
    calc List.ofFn a = (List.ofFn a).drop (0 : U32).toNat := List.drop_zero.symm
      _ = e :: (List.ofFn a).tail := by
        rw [drop_ofFn a h0, Option.some.inj (hfirst.symm.trans h), ← List.drop_one]
        exact congrArg (fun k => e :: (List.ofFn a).drop k) (by decide)
  rw [getAttackInfo_eq]
  generalize (List.ofFn a).tail = rest at hcons
  rw [liveRecords, hcons, List.filter_cons]
  split <;> simp only [List.singleton_append, List.nil_append]

/-- Every record is found when the one at index 0 does not count. -/
theorem getAttackInfo_eq_liveRecords_iff (a : BpfArray MAX_ATTACKS AttackInfo) :
    getAttackInfo a = liveRecords a ↔ ¬ ∃ e, a.lookup 0 = some e ∧ e.isLive = true := by
  obtain ⟨e, he⟩ : ∃ e, a.lookup 0 = some e := ⟨_, dif_pos (by decide)⟩
  rw [liveRecords_eq he, he]
  cases hlive : e.isLive with
  | true => simp [hlive]
  | false => simp [hlive]

/-! ## The answer -/

/-- `get_proto_name`. -/
def getProtoName (proto : U8) : String :=
  match proto.toNat with
  | 6 => "TCP"
  | 17 => "UDP"
  | 1 => "ICMP"
  | 2 => "IGMP"
  | 4 => "IPIP"
  | 47 => "GRE"
  | 50 => "ESP"
  | 51 => "AH"
  | 58 => "ICMPv6"
  | 132 => "SCTP"
  | _ => "Unknown"

/-- A row of the table `attacks`, as far as the answer shows it. -/
structure AttackRecord where
  id : ℤ
  timestamp : ℤ
  srcIp : CStr
  attackType : CStr
  packets : U32
  bytes : U64
  status : CStr

/-- What the daemon learns while it answers: the time of the boot, in seconds, how a time is written
(`localtime` and `strftime`, or "Invalid timestamp"), and the rows the database gives back. -/
structure AttacksEnv where
  bootTime : ℤ
  timeStr : ℤ → CStr
  history : List AttackRecord

/-- The object for an attack: the members the answer has for it. -/
def attackObject (id : ℤ) (timestamp srcIp protocol : CStr) (packets : U32) (bytes : U64)
    (status : CStr) : Json :=
  .object [("id".toList, .int id), ("timestamp".toList, .string timestamp),
    ("src_ip".toList, .string srcIp), ("protocol".toList, .string protocol),
    ("packets".toList, .int packets.toInt), ("bytes".toList, .int bytes.toInt),
    ("status".toList, .string status)]

/-- The object for a record of the log. -/
def liveAttack (env : AttacksEnv) (i : ℕ) (e : AttackInfo) : Json :=
  attackObject i (env.timeStr (env.bootTime + (e.timestamp.toNat / NSEC_PER_SEC : ℕ)))
    (inetNtop e.srcIp) (getProtoName e.protocol).toList e.packets e.bytes "active".toList

/-- The object for a row of the database. -/
def historicalAttack (env : AttacksEnv) (r : AttackRecord) : Json :=
  attackObject r.id (env.timeStr r.timestamp) r.srcIp r.attackType r.packets r.bytes r.status

/-- The answer that shows these records of the log, in order, and then the rows of the database. -/
def attacksAnswer (env : AttacksEnv) (attacks : List AttackInfo) : List Json :=
  attacks.mapIdx (liveAttack env) ++ env.history.map (historicalAttack env)

/-- `api_attacks_list`: the elements of the array it answers with. The status is always 200. -/
def apiAttacksList (env : AttacksEnv) (a : BpfArray MAX_ATTACKS AttackInfo) : List Json :=
  attacksAnswer env (getAttackInfo a)

/-! ## What is reported -/

/-- A flood that `check_udp_flood` has found and is about to record. The clock, which was beyond 100
ms before, is not zero. -/
structure FloodDetection where
  now : U64
  srcIp : U32
  pktSize : U32
  now_pos : 0 < now.toNat

/-- The call that records a flood. -/
def FloodDetection.call (d : FloodDetection) : AttackCall :=
  ⟨d.now, d.srcIp, IPPROTO_UDP, 1, d.pktSize.setWidth 64⟩

/-- The record of a flood. -/
def FloodDetection.record (d : FloodDetection) : AttackInfo := d.call.record

theorem FloodDetection.isLive (d : FloodDetection) : d.record.isLive = true := by
  have hpos : (0 : U64) < d.now := d.now_pos
  simpa [AttackInfo.isLive, record, call, AttackCall.record] using hpos

/-- What a flood does to the log. -/
theorem checkUdpFlood_of_flood {user : UserMaps} {clk : Clock} {iph : IpHdr} {udph : UdpHdr}
    {st : Maps} (hpos : 0 < clk.attack.toNat)
    (h : (udpEntry (udpThreshold user.config (isEstablishedFlow st.activeTraffic iph.saddr iph.daddr
      (bpfNtohs udph.source) (bpfNtohs udph.dest) IPPROTO_UDP clk.udp)) clk.udp
      (udpOversize (bpfNtohs udph.source) (bpfNtohs udph.dest)
        ((bpfNtohs iph.totLen).setWidth 32)) ((bpfNtohs iph.totLen).setWidth 32)
      (st.udpFloodMap iph.saddr)).1 = .flood) :
    let d : FloodDetection := ⟨clk.attack, iph.saddr, (bpfNtohs iph.totLen).setWidth 32, hpos⟩
    (checkUdpFlood user clk iph udph st).2.attackInfoArray =
      (attackStep st d.call).attackInfoArray := by
  simp only [checkUdpFlood, getConfig_configMap, Table.alter_fst, h]
  rfl

/-- The log after some floods. -/
def floodLog (ds : List FloodDetection) : BpfArray MAX_ATTACKS AttackInfo :=
  (attackRun Maps.initial (ds.map FloodDetection.call)).attackInfoArray

/-- The slots of the log, as long as the floods fit. -/
theorem floodLog_apply {ds : List FloodDetection} (hn : ds.length ≤ MAX_ATTACKS)
    (i : Fin MAX_ATTACKS) :
    floodLog ds i = (ds.map FloodDetection.record)[i.val]?.getD AttackInfo.empty := by
  have hslots := (attackLog_run (ds.map FloodDetection.call)).slots i
  rwa [List.map_map, BoundedLog.kept_of_le (by rwa [List.length_map])] at hslots

/-- As long as they fit, the live records of the log are those of the floods. -/
theorem liveRecords_floodLog {ds : List FloodDetection} (hn : ds.length ≤ MAX_ATTACKS) :
    liveRecords (floodLog ds) = ds.map FloodDetection.record := by
  rw [liveRecords, ofFn_attackInfoArray (by rwa [List.length_map]) (floodLog_apply hn),
    List.filter_append, List.filter_replicate_of_neg (by decide), List.append_nil,
    List.filter_eq_self]
  intro e he
  obtain ⟨d, -, rfl⟩ := List.mem_map.1 he
  exact d.isLive

/-- **What is found of some floods**: all but the first. -/
theorem getAttackInfo_floodLog {ds : List FloodDetection} (hn : ds.length ≤ MAX_ATTACKS) :
    getAttackInfo (floodLog ds) = ds.tail.map FloodDetection.record := by
  have h0 : (0 : U32).toNat < MAX_ATTACKS := by decide
  have hlookup : (floodLog ds).lookup 0 = some (floodLog ds ⟨(0 : U32).toNat, h0⟩) := dif_pos h0
  have hlive := liveRecords_eq hlookup
  rw [liveRecords_floodLog hn, floodLog_apply hn] at hlive
  cases ds with
  | nil => exact (List.append_eq_nil_iff.1 hlive.symm).2
  | cons d ds =>
    have hfirst : ((d :: ds).map FloodDetection.record)[(0 : U32).toNat]?.getD AttackInfo.empty =
        d.record := rfl
    rw [hfirst, d.isLive] at hlive
    exact (List.cons.inj hlive).2.symm

/-- **What is reported.** `get_attack_info` returns every live record when the one at index 0 is not
live, and the answer shows every flood found when there was none. -/
theorem attacksReported_iff (a : BpfArray MAX_ATTACKS AttackInfo) (env : AttacksEnv)
    (ds : List FloodDetection) (hn : ds.length ≤ 1000) :
    (getAttackInfo a = liveRecords a ↔ ¬ ∃ e, a.lookup 0 = some e ∧ e.isLive = true) ∧
      (apiAttacksList env (floodLog ds) = attacksAnswer env (ds.map FloodDetection.record) ↔
        ds = []) := by
  refine ⟨getAttackInfo_eq_liveRecords_iff a, ?_⟩
  rw [apiAttacksList, getAttackInfo_floodLog hn]
  cases ds with
  | nil => exact ⟨fun _ => rfl, fun _ => rfl⟩
  | cons d ds =>
    refine ⟨fun h => ?_, nofun⟩
    have hlen := congrArg List.length h
    simp only [attacksAnswer, List.length_append, List.length_mapIdx, List.length_map,
      List.tail_cons, List.length_cons] at hlen
    omega

/-- A flood from 10.0.0.1. -/
def firstFlood : FloodDetection := ⟨1000000000, 0x0100000a, 60, by decide⟩

/-- The first flood found is not reported. -/
theorem attacksReported_fails :
    ¬ ∀ (a : BpfArray MAX_ATTACKS AttackInfo) (env : AttacksEnv) (ds : List FloodDetection),
      ds.length ≤ 1000 → getAttackInfo a = liveRecords a ∧
        apiAttacksList env (floodLog ds) = attacksAnswer env (ds.map FloodDetection.record) := by
  intro h
  have hfound := (h (floodLog [firstFlood]) ⟨0, fun _ => [], []⟩ [] (by decide)).1
  rw [getAttackInfo_floodLog (by decide), liveRecords_floodLog (by decide)] at hfound
  exact nomatch hfound

theorem attacksReported_iff_one :
    ([firstFlood].length ≤ 1000 ∧
      ¬ apiAttacksList ⟨0, fun _ => [], []⟩ (floodLog [firstFlood]) =
        attacksAnswer ⟨0, fun _ => [], []⟩ [firstFlood.record]) ∧
      getAttackInfo (fun _ => AttackInfo.empty) = liveRecords fun _ => AttackInfo.empty := by
  have h := attacksReported_iff (fun _ => AttackInfo.empty) ⟨0, fun _ => [], []⟩ [firstFlood]
    (by decide)
  refine ⟨⟨by decide, fun he => nomatch h.2.1 he⟩, h.1.2 ?_⟩
  rintro ⟨e, he, hlive⟩
  rw [BpfArray.lookup, dif_pos (by decide)] at he
  cases he
  exact absurd hlive (by decide)

end Cyrenus
