import Cyrenus.Xdp.Packet

/-!
# The maps of the kernel program

`UserMaps` are the maps user space writes and the program only reads: the thresholds, the rules,
the GeoIP tables and the host address. `Maps` are those the program writes itself. The GeoIP trie
is modelled by what a lookup of a full address in it answers.
-/

namespace Cyrenus

/-! ## Values of the tracking maps -/

structure TokenBucket where
  lastUpdate : U64
  tokens : U32
  deriving DecidableEq, Repr

structure SynFloodInfo where
  lastUpdate : U64
  synCount : U32
  synackCount : U32
  deriving DecidableEq, Repr

structure DnsInfo where
  lastUpdate : U64
  packetCount : U32
  totalSize : U32
  deriving DecidableEq, Repr

structure FragInfo where
  lastUpdate : U64
  fragCount : U32
  deriving DecidableEq, Repr

structure UdpFloodInfo where
  lastUpdate : U64
  packetCount : U32
  byteCount : U32
  deriving DecidableEq, Repr

/-- The size of the attack log. -/
def MAX_ATTACKS : ℕ := 1000

/-- The maps user space writes. -/
structure UserMaps where
  configMap : BpfArray 1 AttacksConfig
  rules : Table RuleKey Rule
  geoipMap : U32 → Option U16
  blockedCountries : Table U16 U8
  hostIp : BpfArray 1 U32

/-- The maps the program writes. The totals are kept for each processor. -/
structure Maps where
  tokenBuckets : Table U32 TokenBucket
  udpFloodMap : Table U32 UdpFloodInfo
  fragTrackMap : Table U32 FragInfo
  dnsTrackMap : Table U32 DnsInfo
  synFloodMap : Table U32 SynFloodInfo
  activeTraffic : Table FlowKey TrafficInfo
  attackInfoArray : BpfArray MAX_ATTACKS AttackInfo
  attackCount : BpfArray 1 U32
  globalStats : ℕ → GlobalStats

/-- The user maps as they are when the program is loaded: hash maps empty, array elements zero. -/
def UserMaps.initial : UserMaps where
  configMap := fun _ => ⟨0, 0, 0, 0, 0⟩
  rules := Table.empty
  geoipMap := fun _ => none
  blockedCountries := Table.empty
  hostIp := fun _ => 0

/-- The thresholds that user space has stored. -/
def UserMaps.config (user : UserMaps) : AttacksConfig := user.configMap 0

/-- The maps of the program as they are when it is loaded. -/
def Maps.initial : Maps where
  tokenBuckets := Table.empty
  udpFloodMap := Table.empty
  fragTrackMap := Table.empty
  dnsTrackMap := Table.empty
  synFloodMap := Table.empty
  activeTraffic := Table.empty
  attackInfoArray := fun _ => ⟨0, 0, 0, 0, 0⟩
  attackCount := fun _ => 0
  globalStats := fun _ => ⟨0, 0⟩

/-- The padding bytes of the keys that `apply_rule` builds for the source and the destination of a
frame. Nothing writes them: they are what the stack happens to hold. -/
structure KeyPadding where
  source : U8
  dest : U8
  deriving DecidableEq, Repr

/-- What the program finds while one frame is processed: the values `bpf_ktime_get_ns` returns, one
for each place that calls it, since each of the checks reads the clock for itself, and the padding of
the keys. -/
structure Clock where
  frag : U64
  icmp : U64
  syn : U64
  dns : U64
  udp : U64
  attack : U64
  flow : U64
  padding : KeyPadding

/-- A clock that stands still while the frame is processed, on a stack of zeros. -/
def Clock.still (now : U64) : Clock := ⟨now, now, now, now, now, now, now, ⟨0, 0⟩⟩

/-- Nanoseconds in a second. -/
def NSEC_PER_SEC : ℕ := 1000000000

/-- As long as the clock has not stepped back, less than a second has gone by when the difference of
the readings says so. -/
theorem elapsed_lt_iff {last now : U64} (h : last ≤ now) :
    now - last < 1000000000 ↔ now.toNat < last.toNat + NSEC_PER_SEC := by
  have hle : last.toNat ≤ now.toNat := h
  rw [BitVec.lt_def, BitVec.toNat_sub_of_le h]
  simp only [NSEC_PER_SEC]
  change now.toNat - last.toNat < 1000000000 ↔ _
  omega

/-- The verdict on a frame. -/
inductive XdpAction where
  | drop
  | pass
  | tx
  deriving DecidableEq, Repr

/-! ## Reading the thresholds -/

/-- The thresholds in force. The second branch is taken when the lookup fails, which it does not
for an array element. -/
def getConfig (configMap : BpfArray 1 AttacksConfig) : AttacksConfig :=
  match configMap.lookup 0 with
  | some mapCfg => mapCfg
  | none => ⟨1000, 50000, 100, 200, 15⟩

/-- The thresholds in force are always the element of the map. -/
theorem getConfig_eq (configMap : BpfArray 1 AttacksConfig) :
    getConfig configMap = configMap 0 := rfl

@[simp] theorem getConfig_configMap (user : UserMaps) :
    getConfig user.configMap = user.config := rfl

/-! ## The attack log -/

/-- Record an attack: at the index the counter holds, or at the last index once the log is full. -/
def updateAttackInfo (now : U64) (srcIp : U32) (protocol : U8) (packets : U32) (bytes : U64)
    (st : Maps) : Maps :=
  let count := (st.attackCount.lookup 0).getD 0
  let count := if count ≥ BitVec.ofNat 32 MAX_ATTACKS then BitVec.ofNat 32 MAX_ATTACKS - 1
    else count
  { st with
    attackInfoArray := st.attackInfoArray.update count ⟨now, srcIp, protocol, packets, bytes⟩
    attackCount := st.attackCount.update 0 (count + 1) }

/-! ## Established flows -/

/-- A flow is established when the flow table holds a record of it that started more than five
seconds ago. -/
def isEstablishedFlow (flows : Table FlowKey TrafficInfo) (srcIp dstIp : U32)
    (srcPort dstPort : U16) (proto : U8) (now : U64) : Bool :=
  match flows ⟨srcIp, dstIp, srcPort, dstPort, proto⟩ with
  | none => false
  | some flow => now - flow.flowStartTime > 5000000000

end Cyrenus
