import Cyrenus.Common

/-!
# Frames and the headers the kernel program reads

A frame is the bytes between `data` and `data_end`. The headers are read at the offsets the source
computes: the IP header after the Ethernet header, the transport header `ihl * 4` bytes after the
start of the IP header, wherever that falls. A read beyond the end gives a zero byte, but the
program checks every header against `data_end` before it reads it.
-/

namespace Cyrenus

/-- What the program is given: the frame and the processor it runs on. -/
structure XdpMd where
  data : List U8
  cpu : ℕ

namespace XdpMd

variable (ctx : XdpMd)

/-- The byte at an offset from `data`. -/
def byte (off : ℕ) : U8 := ctx.data.getD off 0

/-- The 16-bit word at an offset, as a little-endian machine loads it. -/
def load16 (off : ℕ) : U16 :=
  (ctx.byte off).setWidth 16 ||| (ctx.byte (off + 1)).setWidth 16 <<< 8

/-- The 32-bit word at an offset, as a little-endian machine loads it. -/
def load32 (off : ℕ) : U32 :=
  (ctx.load16 off).setWidth 32 ||| (ctx.load16 (off + 2)).setWidth 32 <<< 16

end XdpMd

/-- `struct iphdr`: words are in network byte order. -/
structure IpHdr where
  ihl : BitVec 4
  totLen : U16
  fragOff : U16
  ttl : U8
  protocol : U8
  saddr : U32
  daddr : U32
  deriving DecidableEq, Repr

/-- `struct tcphdr`, with its flag bits as the byte at offset 13. -/
structure TcpHdr where
  source : U16
  dest : U16
  doff : BitVec 4
  flags : U8
  deriving DecidableEq, Repr

/-- The `syn` bit of the header. -/
def TcpHdr.syn (tcph : TcpHdr) : Bool := tcph.flags.getLsbD 1

/-- The `ack` bit of the header. -/
def TcpHdr.ack (tcph : TcpHdr) : Bool := tcph.flags.getLsbD 4

/-- `struct udphdr`. -/
structure UdpHdr where
  source : U16
  dest : U16
  deriving DecidableEq, Repr

/-- `struct icmphdr`. -/
structure IcmpHdr where
  type : U8
  code : U8
  deriving DecidableEq, Repr

/-! ## Header sizes -/

/-- `sizeof(struct ethhdr)`. -/
def ETH_HLEN : ℕ := 14

/-- `sizeof(struct iphdr)`. -/
def IPHDR_LEN : ℕ := 20

/-- `sizeof(struct tcphdr)`. -/
def TCPHDR_LEN : ℕ := 20

/-- `sizeof(struct udphdr)`. -/
def UDPHDR_LEN : ℕ := 8

/-- `sizeof(struct icmphdr)`. -/
def ICMPHDR_LEN : ℕ := 8

/-- `ETH_P_IP` in host byte order. -/
def ETH_P_IP : U16 := 0x0800

namespace XdpMd

variable (ctx : XdpMd)

/-- The `h_proto` field of the Ethernet header. -/
def hProto : U16 := ctx.load16 12

/-- The IP header, read after the Ethernet header. -/
def iphdr : IpHdr where
  ihl := (ctx.byte ETH_HLEN).setWidth 4
  totLen := ctx.load16 (ETH_HLEN + 2)
  fragOff := ctx.load16 (ETH_HLEN + 6)
  ttl := ctx.byte (ETH_HLEN + 8)
  protocol := ctx.byte (ETH_HLEN + 9)
  saddr := ctx.load32 (ETH_HLEN + 12)
  daddr := ctx.load32 (ETH_HLEN + 16)

def tcphdr (off : ℕ) : TcpHdr where
  source := ctx.load16 off
  dest := ctx.load16 (off + 2)
  doff := (ctx.byte (off + 12) >>> 4).setWidth 4
  flags := ctx.byte (off + 13)

def udphdr (off : ℕ) : UdpHdr where
  source := ctx.load16 off
  dest := ctx.load16 (off + 2)

def icmphdr (off : ℕ) : IcmpHdr where
  type := ctx.byte off
  code := ctx.byte (off + 1)

/-- The frame is IPv4 and its IP header lies inside it. -/
def isIpv4 : Bool := ctx.hProto == bpfHtons ETH_P_IP && ETH_HLEN + IPHDR_LEN ≤ ctx.data.length

end XdpMd

/-- A transport header the program handles. -/
inductive Transport where
  | tcp (h : TcpHdr)
  | udp (h : UdpHdr)
  | icmp (h : IcmpHdr)
  deriving DecidableEq, Repr

namespace Transport

/-- `src_port`, in host byte order; the type of an ICMP message. -/
def srcPort : Transport → U16
  | .tcp h => bpfNtohs h.source
  | .udp h => bpfNtohs h.source
  | .icmp h => h.type.setWidth 16

/-- `dst_port`, in host byte order; the code of an ICMP message. -/
def dstPort : Transport → U16
  | .tcp h => bpfNtohs h.dest
  | .udp h => bpfNtohs h.dest
  | .icmp h => h.code.setWidth 16

/-- `l4_header_length`. -/
def l4HeaderLength : Transport → U32
  | .tcp h => h.doff.setWidth 32 * 4
  | .udp _ => BitVec.ofNat 32 UDPHDR_LEN
  | .icmp _ => BitVec.ofNat 32 ICMPHDR_LEN

/-- `tcp_flags`: the flag byte of a TCP header, zero for the other protocols. -/
def tcpFlags : Transport → U8
  | .tcp h => h.flags
  | _ => 0

end Transport

/-- The offset of the transport header in the frame. -/
def IpHdr.l4Offset (ip : IpHdr) : ℕ := ETH_HLEN + ip.ihl.toNat * 4

/-- The transport header of a frame: none when the protocol is not handled or the header does not
lie inside the frame, which are the cases where `xdp_prog` returns before it reads one. -/
def XdpMd.transport (ctx : XdpMd) (ip : IpHdr) : Option Transport :=
  let off := ip.l4Offset
  if ip.protocol = IPPROTO_TCP then
    if off + TCPHDR_LEN ≤ ctx.data.length then some (.tcp (ctx.tcphdr off)) else none
  else if ip.protocol = IPPROTO_UDP then
    if off + UDPHDR_LEN ≤ ctx.data.length then some (.udp (ctx.udphdr off)) else none
  else if ip.protocol = IPPROTO_ICMP then
    if off + ICMPHDR_LEN ≤ ctx.data.length then some (.icmp (ctx.icmphdr off)) else none
  else none

/-- The IPv4 frame without options that carries a transport part of the given protocol between two
addresses, each of them four bytes in network order. -/
def ipv4Frame (protocol : U8) (saddr daddr l4 : List U8) : List U8 :=
  List.replicate 12 0 ++ [0x08, 0x00] ++
    [0x45, 0, 0, BitVec.ofNat 8 (IPHDR_LEN + l4.length), 0, 0, 0, 0, 64, protocol, 0, 0] ++
    saddr ++ daddr ++ l4

end Cyrenus
