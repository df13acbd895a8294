import Cyrenus.Lib.Table
import Mathlib.Algebra.Group.Nat.Defs
import Mathlib.Data.Nat.Notation

/-!
# Machine words and the records shared by the kernel program and the daemon

The records are those of `common.h`, with the integer widths of the source. Addresses and ports are
kept as the words a little-endian machine loads from memory, so a value in network byte order stays
in network byte order until the code swaps it (`bpfNtohs`, `bpfHtons`). A kernel hash map is a
`Table`; a kernel array is a `BpfArray`, whose elements always exist.
-/

namespace Cyrenus

abbrev U8 := BitVec 8
abbrev U16 := BitVec 16
abbrev U32 := BitVec 32
abbrev U64 := BitVec 64

/-! ## Byte order -/

/-- Exchange the two bytes of a word, which is what `ntohs` and `htons` do on a little-endian
machine. -/
def swap16 (x : U16) : U16 := (x <<< 8) ||| (x >>> 8)

def bpfNtohs (x : U16) : U16 := swap16 x

def bpfHtons (x : U16) : U16 := swap16 x

/-- Two swaps are none. -/
@[simp] theorem swap16_swap16 (x : U16) : swap16 (swap16 x) = x := by
  apply BitVec.eq_of_getLsbD_eq
  intro i hi
  simp only [swap16, BitVec.getLsbD_or, BitVec.getLsbD_shiftLeft, BitVec.getLsbD_ushiftRight]
  rcases Nat.lt_or_ge i 8 with h | h
  · have hge : BitVec.getLsbD x (8 + (8 + i)) = false := BitVec.getLsbD_of_ge x _ (by omega)
    simp [h, hge, show 8 + i < 16 by omega, show ¬ 8 + i < 8 by omega]
  · have hge : BitVec.getLsbD x (8 + (8 + i)) = false := BitVec.getLsbD_of_ge x _ (by omega)
    simp [Nat.not_lt.2 h, hge, hi, show i - 8 < 8 by omega, show 8 + (i - 8) = i by omega]

@[simp] theorem bpfNtohs_bpfHtons (x : U16) : bpfNtohs (bpfHtons x) = x := swap16_swap16 x

theorem bpfHtons_injective : Function.Injective bpfHtons :=
  Function.LeftInverse.injective bpfNtohs_bpfHtons

/-! ## Kernel arrays -/

/-- A kernel array map of `n` elements. Each of them exists from the map's creation on. -/
abbrev BpfArray (n : ℕ) (V : Type) := Fin n → V

namespace BpfArray

variable {n : ℕ} {V : Type}

/-- Look an index up: there is an element for each index below the size, and none beyond. -/
def lookup (a : BpfArray n V) (key : U32) : Option V :=
  if h : key.toNat < n then some (a ⟨key.toNat, h⟩) else none

/-- Write an element; an index beyond the size is refused and changes nothing. -/
def update (a : BpfArray n V) (key : U32) (v : V) : BpfArray n V :=
  fun i => if i.val = key.toNat then v else a i

end BpfArray

/-! ## The records of `common.h` -/

/-- The key of the rule map, less the padding byte at its end. -/
structure RuleKey where
  ip : U32
  port : U16
  proto : U8
  deriving DecidableEq, Repr

/-- A rule: ports are in network byte order, `action` is 1 for drop, 2 for pass, 3 for transmit. -/
structure Rule where
  portStart : U16
  portEnd : U16
  proto : U8
  action : U8
  deriving DecidableEq, Repr

/-- The key of the flow table. Its padding bytes are always zero. -/
structure FlowKey where
  srcIp : U32
  dstIp : U32
  srcPort : U16
  dstPort : U16
  proto : U8
  deriving DecidableEq, Repr

/-- A record of the flow table. -/
structure TrafficInfo where
  srcIp : U32 := 0
  dstIp : U32 := 0
  srcPort : U16 := 0
  dstPort : U16 := 0
  timestamp : U64 := 0
  direction : U8 := 0
  hostIp : U32 := 0
  proto : U8 := 0
  bytes : U64 := 0
  packets : U32 := 0
  flowStartTime : U64 := 0
  flowEndTime : U64 := 0
  fwdPackets : U32 := 0
  bwdPackets : U32 := 0
  fwdBytes : U64 := 0
  bwdBytes : U64 := 0
  fwdHeaderLength : U32 := 0
  bwdHeaderLength : U32 := 0
  minPacketLength : U16 := 0
  maxPacketLength : U16 := 0
  fwdPacketLengthMax : U32 := 0
  fwdPacketLengthMin : U32 := 0
  fwdPacketLengthSum : U32 := 0
  bwdPacketLengthMax : U32 := 0
  bwdPacketLengthMin : U32 := 0
  bwdPacketLengthSum : U32 := 0
  iatSum : U32 := 0
  fwdIatSum : U32 := 0
  bwdIatSum : U32 := 0
  finCount : U32 := 0
  synCount : U32 := 0
  rstCount : U32 := 0
  pshCount : U32 := 0
  ackCount : U32 := 0
  urgCount : U32 := 0
  cweCount : U32 := 0
  eceCount : U32 := 0
  deriving DecidableEq, Repr

/-- The thresholds the kernel program enforces. -/
structure AttacksConfig where
  synFloodRate : U32
  udpFloodRate : U32
  icmpFloodRate : U32
  dnsAmpRate : U32
  maxFrags : U32
  deriving DecidableEq, Repr

/-- A record of the attack log. Its `attack_type` text is always zero. -/
structure AttackInfo where
  timestamp : U64
  srcIp : U32
  protocol : U8
  packets : U32
  bytes : U64
  deriving DecidableEq, Repr

/-- The packet and byte totals of one processor. -/
structure GlobalStats where
  totalPackets : U64
  totalBytes : U64
  deriving DecidableEq, Repr

/-! ## Protocol numbers -/

def IPPROTO_ICMP : U8 := 1
def IPPROTO_TCP : U8 := 6
def IPPROTO_UDP : U8 := 17

end Cyrenus
