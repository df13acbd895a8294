import Cyrenus.Xdp.FlowHistory

/-!
# The payload lengths that are accounted

The flow accounting subtracts the lengths of the two headers from the total length, all of them as
the sender states them, in 32 bits. Nothing on the way compares them: the headers must lie inside
the frame, but the total length may be any. `accounted_payloadReal_iff` says that what is added to
the byte counters is a payload length exactly when the headers fit in the total length.
-/

namespace Cyrenus

/-- The length of the headers before the payload, as they state it. -/
def headersLength (ip : IpHdr) (l4 : Transport) : ℕ := ip.ihl.toNat * 4 + l4.l4HeaderLength.toNat

/-- The headers fit in the total length. -/
def HeadersFit (ip : IpHdr) (l4 : Transport) : Prop :=
  headersLength ip l4 ≤ (bpfNtohs ip.totLen).toNat

instance (ip : IpHdr) (l4 : Transport) : Decidable (HeadersFit ip l4) :=
  inferInstanceAs (Decidable (_ ≤ _))

/-- A number is the payload length of a packet. -/
structure PayloadReal (ip : IpHdr) (l4 : Transport) (n : ℕ) : Prop where
  exact : (n : ℤ) = (bpfNtohs ip.totLen).toNat - 4 * ip.ihl.toNat - l4.l4HeaderLength.toNat
  le : n ≤ (bpfNtohs ip.totLen).toNat

/-- A transport header is said to be at most sixty bytes long. -/
theorem l4HeaderLength_le (l4 : Transport) : l4.l4HeaderLength.toNat ≤ 60 := by
  cases l4 with
  | tcp h =>
    have hlt : h.doff.toNat < 16 := h.doff.isLt
    rw [Transport.l4HeaderLength, BitVec.toNat_mul, BitVec.toNat_setWidth]
    change h.doff.toNat % 2 ^ 32 * 4 % 2 ^ 32 ≤ 60
    omega
  | udp h => exact Nat.le_of_ble_eq_true rfl
  | icmp h => exact Nat.le_of_ble_eq_true rfl

/-- Headers are at most 120 bytes long. -/
theorem headersLength_le (ip : IpHdr) (l4 : Transport) : headersLength ip l4 ≤ 120 := by
  have hl4 := l4HeaderLength_le l4
  have hihl : ip.ihl.toNat < 16 := ip.ihl.isLt
  simp only [headersLength]
  omega

/-- The 32-bit difference, in terms of the lengths it is made of. -/
theorem payloadLength_toNat (user : UserMaps) (clk : Clock) (ip : IpHdr) (l4 : Transport) :
    (accounted user clk ip l4).payloadLength.toNat =
      if HeadersFit ip l4 then (bpfNtohs ip.totLen).toNat - headersLength ip l4
      else 2 ^ 32 + (bpfNtohs ip.totLen).toNat - headersLength ip l4 := by
  have hl4 := l4HeaderLength_le l4
  have hihl : ip.ihl.toNat < 16 := ip.ihl.isLt
  have hlen : (bpfNtohs ip.totLen).toNat < 2 ^ 16 := (bpfNtohs ip.totLen).isLt
  have hip : (ip.ihl.setWidth 32 * 4 : U32).toNat = ip.ihl.toNat * 4 := by
    rw [BitVec.toNat_mul, BitVec.toNat_setWidth]
    change ip.ihl.toNat % 2 ^ 32 * 4 % 2 ^ 32 = _
    omega
  simp only [accounted, BitVec.toNat_sub, BitVec.toNat_setWidth, hip]
  by_cases hfit : HeadersFit ip l4
  · rw [if_pos hfit]
    simp only [HeadersFit, headersLength] at hfit ⊢
    omega
  · rw [if_neg hfit]
    simp only [HeadersFit, headersLength] at hfit ⊢
    omega

/-- The payload length is below the range of a total length exactly when it has not wrapped. -/
theorem payloadLength_lt_iff (user : UserMaps) (clk : Clock) (ip : IpHdr) (l4 : Transport) :
    (accounted user clk ip l4).payloadLength.toNat < 2 ^ 16 ↔ HeadersFit ip l4 := by
  have hheaders := headersLength_le ip l4
  have hlen : (bpfNtohs ip.totLen).toNat < 2 ^ 16 := (bpfNtohs ip.totLen).isLt
  rw [payloadLength_toNat]
  split
  · next hfit => exact iff_of_true (by omega) hfit
  · next hfit => exact iff_of_false (by omega) hfit

/-- What the accounting takes for the payload length is one exactly when the headers fit. -/
theorem payloadReal_iff (user : UserMaps) (clk : Clock) (ip : IpHdr) (l4 : Transport) :
    PayloadReal ip l4 (accounted user clk ip l4).payloadLength.toNat ↔ HeadersFit ip l4 := by
  have hheaders := headersLength_le ip l4
  rw [payloadLength_toNat]
  split
  · next hfit =>
    have hle := hfit
    simp only [HeadersFit, headersLength] at hle ⊢
    exact iff_of_true ⟨by omega, by omega⟩ hfit
  · next hfit =>
    refine iff_of_false (fun h => ?_) hfit
    have hle := h.le
    omega

/-! ## The byte counters -/

/-- What one frame adds to a counter of a flow. A flow without a record has counted nothing. -/
def counterAdded (counter : TrafficInfo → U64) (k : FlowKey) (st st' : Maps) : U64 :=
  (st'.activeTraffic k).elim 0 counter - (st.activeTraffic k).elim 0 counter

/-- What an accounted frame adds to a counter, if that is the same for every record. -/
theorem counterAdded_accounted {user : UserMaps} {f : TimedFrame} {st : Maps} {a : Accounted}
    (h : accountedBy user f st = some a) (counter : TrafficInfo → U64) :
    counterAdded counter a.key st (xdpStep user f st).2 =
      counter (nextFlow (st.activeTraffic a.key) a) -
        (st.activeTraffic a.key).elim 0 counter := by
  simp [counterAdded, xdpStep_activeTraffic, h]

/-- What has been added to a counter is what it is more than before, also when it wraps. -/
theorem counter_add_sub (x y : U64) : x + y - x = y := by
  rw [BitVec.add_comm, BitVec.add_sub_cancel]

section

variable {user : UserMaps} {f : TimedFrame} {st : Maps} {a : Accounted}

/-- The payload length is added to the bytes of the flow. -/
theorem bytesAdded (h : accountedBy user f st = some a) :
    counterAdded (·.bytes) a.key st (xdpStep user f st).2 = a.payloadLength.setWidth 64 := by
  rw [counterAdded_accounted h]
  cases st.activeTraffic a.key with
  | none => simp [nextFlow, (newFlow_first a).bytes]
  | some info =>
    simp only [nextFlow, (updateFlow_step info a).bytes, Option.elim_some, counter_add_sub]

/-- It is added to one of the directional byte counters, and the other one is left alone. -/
theorem directionalBytesAdded (h : accountedBy user f st = some a) :
    (counterAdded (·.fwdBytes) a.key st (xdpStep user f st).2 = a.payloadLength.setWidth 64 ∧
        counterAdded (·.bwdBytes) a.key st (xdpStep user f st).2 = 0) ∨
      (counterAdded (·.fwdBytes) a.key st (xdpStep user f st).2 = 0 ∧
        counterAdded (·.bwdBytes) a.key st (xdpStep user f st).2 =
          a.payloadLength.setWidth 64) := by
  rw [counterAdded_accounted h, counterAdded_accounted h]
  cases st.activeTraffic a.key with
  | none => simp [nextFlow, (newFlow_first a).fwdBytes, (newFlow_first a).bwdBytes]
  | some info =>
    simp only [nextFlow, (updateFlow_step info a).fwdBytes, (updateFlow_step info a).bwdBytes,
      Option.elim_some, counter_add_sub]
    split
    · exact .inl ⟨rfl, rfl⟩
    · exact .inr ⟨rfl, rfl⟩

end

/-- **Real payload lengths.** What an accounted frame adds to the bytes of its flow, and to the
directional byte counters, is the length of its payload exactly when its headers fit in its total
length. -/
theorem accounted_payloadReal_iff (user : UserMaps) (f : TimedFrame) (st : Maps) (a : Accounted)
    (l4 : Transport) (h : accountedBy user f st = some a)
    (hl4 : f.ctx.transport f.ctx.iphdr = some l4) :
    (PayloadReal f.ctx.iphdr l4
        (counterAdded (·.bytes) a.key st (xdpStep user f st).2).toNat ∧
      PayloadReal f.ctx.iphdr l4
        ((counterAdded (·.fwdBytes) a.key st (xdpStep user f st).2).toNat +
          (counterAdded (·.bwdBytes) a.key st (xdpStep user f st).2).toNat)) ↔
      HeadersFit f.ctx.iphdr l4 := by
  have ha : a = accounted user f.clk f.ctx.iphdr l4 := by
    unfold accountedBy at h
    split at h
    · rw [hl4] at h
      cases h
      rfl
    · cases h
  have hsum : (counterAdded (·.fwdBytes) a.key st (xdpStep user f st).2).toNat +
      (counterAdded (·.bwdBytes) a.key st (xdpStep user f st).2).toNat =
        a.payloadLength.toNat := by
    have hwide : (a.payloadLength.setWidth 64).toNat = a.payloadLength.toNat :=
      BitVec.toNat_setWidth_of_le (by decide)
    rcases directionalBytesAdded h with ⟨hf, hb⟩ | ⟨hf, hb⟩ <;> rw [hf, hb, hwide] <;> simp
  rw [bytesAdded h, hsum, BitVec.toNat_setWidth_of_le (by decide), and_self, ha]
  exact payloadReal_iff ..

/-- A datagram whose total length is zero. -/
def emptyDatagram : TimedFrame where
  clk := .still 0
  ctx := ⟨((ipv4Frame IPPROTO_UDP [10, 0, 0, 1] [10, 0, 0, 2]
    [0, 80, 31, 144, 0, 8, 0, 0]).set 16 0).set 17 0, 0⟩

/-- Its IP header. -/
def emptyDatagramIp : IpHdr := ⟨5, 0, 0, 64, IPPROTO_UDP, 0x0100000a, 0x0200000a⟩

/-- Its UDP header. -/
def emptyDatagramUdp : UdpHdr := ⟨bpfHtons 80, bpfHtons 8080⟩

theorem emptyDatagram_headers :
    emptyDatagram.ctx.isIpv4 = true ∧ emptyDatagram.ctx.iphdr = emptyDatagramIp ∧
      emptyDatagram.ctx.transport emptyDatagramIp = some (.udp emptyDatagramUdp) := by
  decide +kernel

/-- The datagram is accounted. -/
theorem accountedBy_emptyDatagram :
    accountedBy UserMaps.initial emptyDatagram Maps.initial =
      some (accounted UserMaps.initial (.still 0) emptyDatagramIp (.udp emptyDatagramUdp)) := by
  obtain ⟨hip, hiphdr, hl4⟩ := emptyDatagram_headers
  have hpass : (xdpStep UserMaps.initial emptyDatagram Maps.initial).1 = .pass := by decide +kernel
  rw [accountedBy, if_pos ⟨hip, hpass⟩, hiphdr, hl4]
  rfl

/-- The datagram says that it is 0 bytes long, so `0 - 28` is added to the bytes of its flow: in 32
bits that is 4294967268, more than any packet has. -/
theorem accounted_payload_wraps :
    ∃ a, accountedBy UserMaps.initial emptyDatagram Maps.initial = some a ∧
      (counterAdded (·.bytes) a.key Maps.initial
        (xdpStep UserMaps.initial emptyDatagram Maps.initial).2).toNat = 4294967268 ∧
      ¬ PayloadReal emptyDatagram.ctx.iphdr (.udp emptyDatagramUdp) 4294967268 := by
  refine ⟨_, accountedBy_emptyDatagram, ?_, fun h => ?_⟩
  · rw [bytesAdded accountedBy_emptyDatagram]
    decide +kernel
  · have hle := h.le
    rw [emptyDatagram_headers.2.1] at hle
    revert hle
    decide

theorem accounted_payloadReal_iff_emptyDatagram :
    let a := accounted UserMaps.initial (.still 0) emptyDatagramIp (.udp emptyDatagramUdp)
    (PayloadReal emptyDatagram.ctx.iphdr (.udp emptyDatagramUdp)
        (counterAdded (·.bytes) a.key Maps.initial
          (xdpStep UserMaps.initial emptyDatagram Maps.initial).2).toNat ∧
      PayloadReal emptyDatagram.ctx.iphdr (.udp emptyDatagramUdp)
        ((counterAdded (·.fwdBytes) a.key Maps.initial
            (xdpStep UserMaps.initial emptyDatagram Maps.initial).2).toNat +
          (counterAdded (·.bwdBytes) a.key Maps.initial
            (xdpStep UserMaps.initial emptyDatagram Maps.initial).2).toNat)) ↔
      HeadersFit emptyDatagram.ctx.iphdr (.udp emptyDatagramUdp) :=
  accounted_payloadReal_iff UserMaps.initial emptyDatagram Maps.initial _ _
    accountedBy_emptyDatagram
    (emptyDatagram_headers.2.1 ▸ emptyDatagram_headers.2.2)

end Cyrenus
