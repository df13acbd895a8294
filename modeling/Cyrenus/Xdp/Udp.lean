import Cyrenus.Lib.Trace
import Cyrenus.Lib.Window
import Cyrenus.Xdp.Checks
import Mathlib.Data.List.Chain

/-!
# What the UDP limiter drops

`check_udp_flood` divides a count by a time: `packet_count` counts from the last reset of the
source's entry, while `last_update` is moved to every packet that is not judged a flood. So the
estimate is that of the entry, not of any window of the source's packets, and it errs both ways.

`floodDetected_of_measured` says which floods the limiter detects: those whose packets come after a
silence of more than 100 ms, or directly after a packet that is measured in this way. Without such a
silence in the last second no packet is dropped for its rate.
`allPass_iff_noneMisjudged` says when it drops no packet of a source: when no packet that ends a
short silence finds the count since the last long one too high for the silence. Each comes with a
run on which the limiter fails.
-/

namespace Cyrenus

/-- A UDP packet as the limiter sees it: the clock, the headers, and the flow table of the moment,
which says whether the packet's flow is established. -/
structure UdpPacket where
  flows : Table FlowKey TrafficInfo
  clk : Clock
  iph : IpHdr
  udph : UdpHdr

namespace UdpPacket

/-- The time the limiter reads for a packet. -/
def time (p : UdpPacket) : ℕ := p.clk.udp.toNat

/-- `pkt_size`. -/
def size (p : UdpPacket) : U32 := (bpfNtohs p.iph.totLen).setWidth 32

/-- The packet is caught by the size filters. -/
def oversize (p : UdpPacket) : Bool :=
  udpOversize (bpfNtohs p.udph.source) (bpfNtohs p.udph.dest) p.size

/-- The threshold in force for the packet. -/
def threshold (user : UserMaps) (p : UdpPacket) : U64 :=
  udpThreshold user.config (isEstablishedFlow p.flows p.iph.saddr p.iph.daddr
    (bpfNtohs p.udph.source) (bpfNtohs p.udph.dest) IPPROTO_UDP p.clk.udp)

end UdpPacket

/-- The limiter on one packet of a run. -/
def udpStep (user : UserMaps) (p : UdpPacket) : Check := fun st =>
  checkUdpFlood user p.clk p.iph p.udph { st with activeTraffic := p.flows }

/-- The verdict on a finding. -/
def UdpFinding.verdict : UdpFinding → XdpAction
  | .pass => .pass
  | .oversize => .drop
  | .flood => .drop

/-- On a packet from the source the limiter applies the entry of the source. -/
theorem udpStep_eq (user : UserMaps) {A : U32} {p : UdpPacket} (h : p.iph.saddr = A) (st : Maps) :
    (udpStep user p st).1 =
        (udpEntry (p.threshold user) p.clk.udp p.oversize p.size (st.udpFloodMap A)).1.verdict ∧
      (udpStep user p st).2.udpFloodMap A =
        (udpEntry (p.threshold user) p.clk.udp p.oversize p.size (st.udpFloodMap A)).2 := by
  subst h
  simp only [udpStep, checkUdpFlood, getConfig_configMap, Table.alter_fst, UdpPacket.threshold,
    UdpPacket.oversize, UdpPacket.size]
  split <;> rename_i he <;> simp only [he, UdpFinding.verdict, updateAttackInfo, Table.alter_same,
    and_self]

/-- The verdict of the check is the one on what the entry of the source finds. -/
theorem checkUdpFlood_fst (user : UserMaps) (clk : Clock) (iph : IpHdr) (udph : UdpHdr)
    (st : Maps) :
    (checkUdpFlood user clk iph udph st).1 =
      (udpEntry (udpThreshold user.config (isEstablishedFlow st.activeTraffic iph.saddr iph.daddr
          (bpfNtohs udph.source) (bpfNtohs udph.dest) IPPROTO_UDP clk.udp)) clk.udp
        (udpOversize (bpfNtohs udph.source) (bpfNtohs udph.dest) ((bpfNtohs iph.totLen).setWidth 32))
        ((bpfNtohs iph.totLen).setWidth 32) (st.udpFloodMap iph.saddr)).1.verdict :=
  (udpStep_eq user (p := ⟨st.activeTraffic, clk, iph, udph⟩) rfl st).1

/-- The first packet of a source passes. -/
theorem checkUdpFlood_of_none {user : UserMaps} {clk : Clock} {iph : IpHdr} {udph : UdpHdr}
    {st : Maps} (h : st.udpFloodMap iph.saddr = none) :
    (checkUdpFlood user clk iph udph st).1 = .pass := by
  rw [checkUdpFlood_fst, h]
  rfl

/-! ## One packet -/

/-- What `check_udp_flood` calls a flood: a count above the burst whose rate over the time since
`last_update`, more than 100 ms, exceeds the threshold. -/
def IsFlood (threshold count elapsed : ℕ) : Prop :=
  100000000 < elapsed ∧ threshold < count * NSEC_PER_SEC / elapsed ∧ 200 < count

instance (threshold count elapsed : ℕ) : Decidable (IsFlood threshold count elapsed) :=
  inferInstanceAs (Decidable (_ ∧ _))

/-- A greater count is the more a flood. -/
theorem IsFlood.mono {threshold count more elapsed : ℕ} (h : IsFlood threshold count elapsed)
    (hle : count ≤ more) : IsFlood threshold more elapsed := by
  obtain ⟨hlong, hrate, hmany⟩ := h
  have hpps : count * NSEC_PER_SEC / elapsed ≤ more * NSEC_PER_SEC / elapsed :=
    Nat.div_le_div_right (Nat.mul_le_mul_right _ hle)
  exact ⟨hlong, Nat.lt_of_lt_of_le hrate hpps, Nat.lt_of_lt_of_le hmany hle⟩

/-- The estimate of `check_udp_flood` does not wrap. -/
theorem toNat_pps (n : U32) (timeDiff : U64) :
    (n.setWidth 64 * 1000000000 / timeDiff).toNat = n.toNat * 1000000000 / timeDiff.toNat := by
  have hn := n.isLt
  rw [BitVec.toNat_udiv, BitVec.toNat_mul, BitVec.toNat_setWidth,
    Nat.mod_eq_of_lt (show n.toNat < 2 ^ 64 by omega)]
  congr 1
  exact Nat.mod_eq_of_lt (show n.toNat * 1000000000 < 2 ^ 64 by omega)

/-- The test of the code, in machine words, is that test. -/
theorem isFlood_words (threshold timeDiff : U64) (count : U32) :
    (timeDiff > 100000000 ∧ count.setWidth 64 * 1000000000 / timeDiff > threshold ∧
      count > UDP_FLOOD_BURST) ↔
    IsFlood threshold.toNat count.toNat timeDiff.toNat := by
  rw [gt_iff_lt, gt_iff_lt, gt_iff_lt, BitVec.lt_def, BitVec.lt_def, BitVec.lt_def, toNat_pps]
  rfl

/-- As long as the clock has not stepped back, the time is the difference of the readings. -/
theorem isFlood_iff (threshold : U64) {now last : U64} (count : U32) (h : last ≤ now) :
    (now - last > 100000000 ∧ count.setWidth 64 * 1000000000 / (now - last) > threshold ∧
      count > UDP_FLOOD_BURST) ↔
    IsFlood threshold.toNat count.toNat (now.toNat - last.toNat) := by
  rw [isFlood_words, BitVec.toNat_sub_of_le h]

/-- **What a packet does to the entry of its source**: an entry a second old is made anew; else the
packet is counted, and either it is a flood or the entry is moved to it. -/
theorem udpEntry_cases (threshold : U64) {now : U64} (oversize : Bool) (size : U32)
    {info : UdpFloodInfo} (h : info.lastUpdate ≤ now) :
    (info.lastUpdate.toNat + NSEC_PER_SEC ≤ now.toNat ∧
      udpEntry threshold now oversize size (some info) = (.pass, some ⟨now, 1, size⟩)) ∨
    (now.toNat < info.lastUpdate.toNat + NSEC_PER_SEC ∧
      IsFlood threshold.toNat (info.packetCount + 1).toNat
        (now.toNat - info.lastUpdate.toNat) ∧
      udpEntry threshold now oversize size (some info) =
        (.flood, some ⟨info.lastUpdate, info.packetCount + 1, info.byteCount + size⟩)) ∨
    (now.toNat < info.lastUpdate.toNat + NSEC_PER_SEC ∧
      ¬ IsFlood threshold.toNat (info.packetCount + 1).toNat
        (now.toNat - info.lastUpdate.toNat) ∧
      udpEntry threshold now oversize size (some info) =
        (if oversize then .oversize else .pass,
          some ⟨now, info.packetCount + 1, info.byteCount + size⟩)) := by
  have hlt := elapsed_lt_iff h
  have hflood := isFlood_iff threshold (info.packetCount + 1) h
  simp only [udpEntry]
  by_cases hin : now - info.lastUpdate < 1000000000
  · have hge : ¬ now - info.lastUpdate ≥ 1000000000 := BitVec.not_le.2 hin
    rw [if_neg hge]
    by_cases hf : IsFlood threshold.toNat (info.packetCount + 1).toNat
        (now.toNat - info.lastUpdate.toNat)
    · rw [if_pos (hflood.2 hf)]
      exact .inr (.inl ⟨hlt.1 hin, hf, rfl⟩)
    · rw [if_neg (mt hflood.1 hf)]
      exact .inr (.inr ⟨hlt.1 hin, hf, rfl⟩)
  · have hge : now - info.lastUpdate ≥ 1000000000 := BitVec.not_lt.1 hin
    rw [if_pos hge]
    exact .inl ⟨Nat.not_lt.1 (mt hlt.2 hin), rfl⟩

/-- **When a packet is dropped**: inside the entry's second, as a flood or by the size filters. -/
theorem udpEntry_drop_iff {threshold now : U64} {oversize : Bool} {size : U32}
    {info : UdpFloodInfo} (h : info.lastUpdate ≤ now) :
    (udpEntry threshold now oversize size (some info)).1.verdict = .drop ↔
      now.toNat < info.lastUpdate.toNat + NSEC_PER_SEC ∧
        (IsFlood threshold.toNat (info.packetCount + 1).toNat
          (now.toNat - info.lastUpdate.toNat) ∨ oversize = true) := by
  obtain ⟨hge, he⟩ | ⟨hlt, hf, he⟩ | ⟨hlt, hf, he⟩ := udpEntry_cases threshold oversize size h
  · rw [he]
    exact ⟨nofun, fun hx => absurd hx.1 (Nat.not_lt.2 hge)⟩
  · rw [he]
    exact ⟨fun _ => ⟨hlt, .inl hf⟩, fun _ => rfl⟩
  · rw [he]
    cases oversize with
    | true => exact ⟨fun _ => ⟨hlt, .inr rfl⟩, fun _ => rfl⟩
    | false => exact ⟨nofun, fun hx => (hx.2.elim hf nofun).elim⟩

/-! ## Runs -/

/-- What the limiter finds on a packet of a source, by the source's entry after a history. -/
def findingAfter (user : UserMaps) (A : U32) (st : Maps) (pre : List UdpPacket) (p : UdpPacket) :
    UdpFinding :=
  (udpEntry (p.threshold user) p.clk.udp p.oversize p.size
    ((Trace.final (udpStep user) st pre).udpFloodMap A)).1

/-- An entry is stamped with the time of a packet of the history that is not found to be a flood.
The packet after that one, if any, came more than 100 ms later. -/
def Stamped (user : UserMaps) (A : U32) (st : Maps) (ps : List UdpPacket) (info : UdpFloodInfo) :
    Prop :=
  ∃ xs q ys, ps = xs ++ q :: ys ∧ info.lastUpdate = q.clk.udp ∧
    findingAfter user A st xs q ≠ .flood ∧ ∀ r ∈ ys.head?, q.time + 100000000 < r.time

/-- A stamp is the time of a packet of the history. -/
theorem Stamped.le {user : UserMaps} {A : U32} {st : Maps} {ps : List UdpPacket} {p : UdpPacket}
    {info : UdpFloodInfo} (h : Stamped user A st ps info)
    (hclock : ((ps ++ [p]).map UdpPacket.time).Pairwise (· ≤ ·)) : info.lastUpdate ≤ p.clk.udp := by
  obtain ⟨xs, q, ys, rfl, hlast, -, -⟩ := h
  rw [hlast]
  exact Tumbling.le_last hclock q (by simp)

/-- **The entry of a source is stamped.** A packet found to be a flood leaves the stamp where it is,
more than 100 ms back, and any other packet moves it. -/
theorem udp_stamped {user : UserMaps} {A : U32} {st : Maps} (h0 : st.udpFloodMap A = none)
    (ps : List UdpPacket) (hfrom : ∀ p ∈ ps, p.iph.saddr = A)
    (hclock : (ps.map UdpPacket.time).Pairwise (· ≤ ·)) {info : UdpFloodInfo}
    (hinfo : (Trace.final (udpStep user) st ps).udpFloodMap A = some info) :
    Stamped user A st ps info := by
  induction ps using List.reverseRecOn generalizing info with
  | nil =>
    rw [Trace.final_nil, h0] at hinfo
    cases hinfo
  | append_singleton ps p ih =>
    rw [Trace.final_concat, (udpStep_eq user (hfrom p (by simp)) _).2] at hinfo
    cases hold : (Trace.final (udpStep user) st ps).udpFloodMap A with
    | none =>
      rw [hold] at hinfo
      cases hinfo
      exact ⟨ps, p, [], rfl, rfl, by rw [findingAfter, hold]; exact nofun, nofun⟩
    | some old =>
      have hstamp := ih (fun q hq => hfrom q (by simp [hq])) (Tumbling.sorted_init hclock) hold
      rw [hold] at hinfo
      obtain ⟨-, he⟩ | ⟨-, hf, he⟩ | ⟨-, -, he⟩ :=
        udpEntry_cases (p.threshold user) p.oversize p.size (hstamp.le hclock)
      · rw [he] at hinfo
        cases hinfo
        exact ⟨ps, p, [], rfl, rfl, by rw [findingAfter, hold, he]; exact nofun, nofun⟩
      · rw [he] at hinfo
        cases hinfo
        obtain ⟨xs, q, ys, rfl, hlast, hq, hgap⟩ := hstamp
        refine ⟨xs, q, ys ++ [p], by simp, hlast, hq, fun r hr => ?_⟩
        cases ys with
        | nil =>
          cases hr
          have hlong : 100000000 < p.clk.udp.toNat - q.clk.udp.toNat := hlast ▸ hf.1
          exact Nat.add_lt_of_lt_sub' hlong
        | cons y ys => exact hgap r hr
      · rw [he] at hinfo
        cases hinfo
        refine ⟨ps, p, [], rfl, rfl, ?_, nofun⟩
        rw [findingAfter, hold, he]
        cases p.oversize <;> exact nofun

/-- The entry of a source is no later than its next packet. -/
theorem udp_lastUpdate_le (user : UserMaps) {A : U32} {st : Maps} (h0 : st.udpFloodMap A = none)
    {pre : List UdpPacket} {p : UdpPacket} (hfrom : ∀ q ∈ pre ++ [p], q.iph.saddr = A)
    (hclock : ((pre ++ [p]).map UdpPacket.time).Pairwise (· ≤ ·)) {info : UdpFloodInfo}
    (hinfo : (Trace.final (udpStep user) st pre).udpFloodMap A = some info) :
    info.lastUpdate ≤ p.clk.udp :=
  (udp_stamped h0 pre (fun q hq => hfrom q (by simp [hq])) (Tumbling.sorted_init hclock)
    hinfo).le hclock

/-! ## Bursts -/

/-- The packets of a source since its last pause of a second or more: when the last of them came,
and how many they are. -/
structure Burst where
  last : ℕ
  count : ℕ

/-- The burst after one more packet. -/
def Burst.next : Option Burst → UdpPacket → Burst
  | none, p => ⟨p.time, 1⟩
  | some b, p => if b.last + NSEC_PER_SEC ≤ p.time then ⟨p.time, 1⟩ else ⟨p.time, b.count + 1⟩

@[simp] theorem Burst.next_last (b : Option Burst) (p : UdpPacket) :
    (Burst.next b p).last = p.time := by
  unfold Burst.next
  split
  · rfl
  · split <;> rfl

/-- A burst has its last packet. -/
theorem Burst.one_le_count (b : Option Burst) (p : UdpPacket) : 1 ≤ (Burst.next b p).count := by
  unfold Burst.next
  split
  · exact Nat.le_refl 1
  · split
    · exact Nat.le_refl 1
    · exact Nat.le_add_left 1 _

/-- A packet makes a burst one longer, or begins one. -/
theorem Burst.next_count_le (b : Burst) (p : UdpPacket) :
    (Burst.next (some b) p).count ≤ b.count + 1 := by
  simp only [Burst.next]
  split
  · exact Nat.le_add_left 1 _
  · exact Nat.le_refl _

/-- The burst at the end of a history. -/
def burst (ps : List UdpPacket) : Option Burst := ps.foldl (fun b p => some (Burst.next b p)) none

theorem burst_concat (ps : List UdpPacket) (p : UdpPacket) :
    burst (ps ++ [p]) = some (Burst.next (burst ps) p) := by simp [burst, List.foldl_append]

/-! ## Floods -/

/-- The window of a packet, with the packet itself. -/
def udpWindow (pre : List UdpPacket) (p : UdpPacket) : Tumbling UdpPacket :=
  Tumbling.step NSEC_PER_SEC UdpPacket.time (Tumbling.after NSEC_PER_SEC UdpPacket.time pre) p

/-- The packet belongs to a flood: the window has run for more than 100 ms, it is above the burst,
and its packets a second, as an exact quotient, are above the most lenient threshold. -/
def Floods (rate : ℕ) (w : Tumbling UdpPacket) (p : UdpPacket) : Prop :=
  100000000 < p.time - w.opened ∧ 200 < w.events.length ∧
    10 * rate * (p.time - w.opened) < w.events.length * NSEC_PER_SEC

instance (rate : ℕ) (w : Tumbling UdpPacket) (p : UdpPacket) : Decidable (Floods rate w p) :=
  inferInstanceAs (Decidable (_ ∧ _))

/-- Every packet of the run that belongs to a flood is dropped. -/
def FloodDetected (user : UserMaps) (st : Maps) (ps : List UdpPacket) : Prop :=
  ∀ pre p, pre ++ [p] <+: ps → Floods user.config.udpFloodRate.toNat (udpWindow pre p) p →
    (udpStep user p (Trace.final (udpStep user) st pre)).1 = .drop

/-- A greater average has a greater rate in whole packets a second. -/
theorem rate_mono {n m x y : ℕ} (hx : 0 < x) (hy : 0 < y) (h : n * y ≤ m * x) :
    n * NSEC_PER_SEC / x ≤ m * NSEC_PER_SEC / y := by
  rw [Nat.le_div_iff_mul_le hy]
  refine Nat.le_of_mul_le_mul_right ?_ hx
  calc n * NSEC_PER_SEC / x * y * x = n * NSEC_PER_SEC / x * x * y := Nat.mul_right_comm ..
    _ ≤ n * NSEC_PER_SEC * y := Nat.mul_le_mul_right _ (Nat.div_mul_le_self ..)
    _ = n * y * NSEC_PER_SEC := Nat.mul_right_comm ..
    _ ≤ m * x * NSEC_PER_SEC := Nat.mul_le_mul_right _ h
    _ = m * NSEC_PER_SEC * x := Nat.mul_right_comm ..

/-- A packet of a flood does not open its window. -/
theorem Floods.not_opens {pre : List UdpPacket} {p : UdpPacket} {rate : ℕ}
    (hf : Floods rate (udpWindow pre p) p) :
    ¬ Tumbling.Opens NSEC_PER_SEC UdpPacket.time
      (Tumbling.after NSEC_PER_SEC UdpPacket.time pre) p := by
  intro ho
  have hpos := hf.1
  rw [udpWindow, Tumbling.step_of_opens ho, Nat.sub_self] at hpos
  exact absurd hpos (Nat.not_lt_zero _)

/-- The packet is above the burst and, by whole packets a second of its window, above its own
threshold. -/
def Above (user : UserMaps) (w : Tumbling UdpPacket) (p : UdpPacket) : Prop :=
  200 < w.events.length ∧
    (p.threshold user).toNat < w.events.length * NSEC_PER_SEC / (p.time - w.opened)

instance (user : UserMaps) (w : Tumbling UdpPacket) (p : UdpPacket) : Decidable (Above user w p) :=
  inferInstanceAs (Decidable (_ ∧ _))

/-- **The packet is measured**: it is above the threshold in a window it does not open, and it comes
after a silence of more than 100 ms or directly after a packet that is measured. -/
inductive Measured (user : UserMaps) : List UdpPacket → UdpPacket → Prop
  | silence {pre : List UdpPacket} {q p : UdpPacket}
    (hin : ¬ Tumbling.Opens NSEC_PER_SEC UdpPacket.time
      (Tumbling.after NSEC_PER_SEC UdpPacket.time (pre ++ [q])) p)
    (habove : Above user (udpWindow (pre ++ [q]) p) p) (hlong : q.time + 100000000 < p.time) :
    Measured user (pre ++ [q]) p
  | follows {pre : List UdpPacket} {q p : UdpPacket}
    (hin : ¬ Tumbling.Opens NSEC_PER_SEC UdpPacket.time
      (Tumbling.after NSEC_PER_SEC UdpPacket.time (pre ++ [q])) p)
    (habove : Above user (udpWindow (pre ++ [q]) p) p) (hq : Measured user pre q) :
    Measured user (pre ++ [q]) p

/-- A silence of more than 100 ms begins in the second before the packet. -/
def Broken (pre : List UdpPacket) (p : UdpPacket) : Prop :=
  ∃ xs q r ys, pre ++ [p] = xs ++ q :: r :: ys ∧ p.time < q.time + NSEC_PER_SEC ∧
    q.time + 100000000 < r.time

/-- No silence makes the packet look like one of a flood: when a packet of the second before it is
not measured and a silence of more than 100 ms begins there, the whole burst in the time since that
packet is no flood. -/
def Unmistaken (user : UserMaps) (pre : List UdpPacket) (p : UdpPacket) : Prop :=
  ∀ xs q r ys, pre ++ [p] = xs ++ q :: r :: ys → p.time < q.time + NSEC_PER_SEC →
    q.time + 100000000 < r.time → Measured user xs q ∨
      ¬ IsFlood (p.threshold user).toNat (Burst.next (burst pre) p).count (p.time - q.time)

/-- The packets that open windows are not mistaken for a flood's, and no burst is so long that the
counter wraps. -/
structure Untroubled (user : UserMaps) (ps : List UdpPacket) : Prop where
  few : ∀ pre p, pre ++ [p] <+: ps → (Burst.next (burst pre) p).count < 2 ^ 32
  opens : ∀ pre p, pre ++ [p] <+: ps →
    Tumbling.Opens NSEC_PER_SEC UdpPacket.time (Tumbling.after NSEC_PER_SEC UdpPacket.time pre) p →
    Unmistaken user pre p

/-- Every packet of a flood is measured, or oversize, and no packet up to it has troubled the
limiter. -/
def FloodsMeasured (user : UserMaps) (ps : List UdpPacket) : Prop :=
  ∀ pre p, pre ++ [p] <+: ps → Floods user.config.udpFloodRate.toNat (udpWindow pre p) p →
    (Measured user pre p ∨ p.oversize = true) ∧ Untroubled user (pre ++ [p])

/-- The entry covers the window: it does not go back beyond it, and has counted all packets of it
and none from before the burst. -/
structure Covers (w : Tumbling UdpPacket) (b : Burst) (info : UdpFloodInfo) : Prop where
  opened : w.opened ≤ info.lastUpdate.toNat
  last : info.lastUpdate.toNat ≤ b.last
  counted : w.events.length ≤ info.packetCount.toNat
  bounded : info.packetCount.toNat ≤ b.count

/-- The counter of an entry does not wrap while the burst is short. -/
theorem Covers.count_succ {w : Tumbling UdpPacket} {b : Burst} {info : UdpFloodInfo}
    (h : Covers w b info) (hfew : b.count + 1 < 2 ^ 32) :
    (info.packetCount + 1).toNat = info.packetCount.toNat + 1 := by
  have hle := h.bounded
  rw [BitVec.toNat_add]
  exact Nat.mod_eq_of_lt (show info.packetCount.toNat + 1 < 2 ^ 32 by omega)

/-- With one more packet the count still lies between the window's and the burst's. -/
theorem Covers.counts {w : Tumbling UdpPacket} {b : Burst} {info : UdpFloodInfo}
    (h : Covers w b info) (hfew : b.count + 1 < 2 ^ 32) (p : UdpPacket) :
    (w.events ++ [p]).length ≤ (info.packetCount + 1).toNat ∧
      (info.packetCount + 1).toNat ≤ b.count + 1 := by
  rw [h.count_succ hfew, List.length_append]
  exact ⟨Nat.add_le_add_right h.counted 1, Nat.add_le_add_right h.bounded 1⟩

/-- Inside the second of the entry the burst goes on. -/
theorem Covers.next {w : Tumbling UdpPacket} {b : Burst} {info : UdpFloodInfo} {p : UdpPacket}
    (h : Covers w b info) (hlt : p.time < info.lastUpdate.toNat + NSEC_PER_SEC) :
    Burst.next (some b) p = ⟨p.time, b.count + 1⟩ :=
  if_neg (Nat.not_le.2 (Nat.lt_of_lt_of_le hlt (Nat.add_le_add_right h.last _)))

/-- **A measured packet is found to be a flood**, when the entry covers the window and was moved
more than 100 ms ago: it has counted at least the window, in no more than the window's time. -/
theorem Covers.flood {user : UserMaps} {w : Tumbling UdpPacket} {b : Burst} {info : UdpFloodInfo}
    {p : UdpPacket} (h : Covers w b info) (hle : info.lastUpdate ≤ p.clk.udp)
    (hfew : (Burst.next (some b) p).count < 2 ^ 32)
    (hin : ¬ Tumbling.Opens NSEC_PER_SEC UdpPacket.time (some w) p)
    (habove : Above user (Tumbling.step NSEC_PER_SEC UdpPacket.time (some w) p) p)
    (hlong : info.lastUpdate.toNat + 100000000 < p.time) :
    (udpEntry (p.threshold user) p.clk.udp p.oversize p.size (some info)).1 = .flood := by
  obtain ⟨hwithin, hstep⟩ := Tumbling.step_some_of_not_opens hin
  rw [hstep] at habove
  have hlt : p.time < info.lastUpdate.toNat + NSEC_PER_SEC :=
    Nat.lt_of_lt_of_le hwithin (Nat.add_le_add_right h.opened _)
  rw [h.next hlt] at hfew
  have hcounted := (h.counts hfew p).1
  have helapsed : 100000000 < p.time - info.lastUpdate.toNat := by omega
  have hage : p.time - info.lastUpdate.toNat ≤ p.time - w.opened := Nat.sub_le_sub_left h.opened _
  have hrate : (w.events ++ [p]).length * NSEC_PER_SEC / (p.time - w.opened) ≤
      (info.packetCount + 1).toNat * NSEC_PER_SEC / (p.time - info.lastUpdate.toNat) :=
    rate_mono (by omega) (by omega) (Nat.mul_le_mul hcounted hage)
  have hflood : IsFlood (p.threshold user).toNat (info.packetCount + 1).toNat
      (p.time - info.lastUpdate.toNat) :=
    ⟨helapsed, Nat.lt_of_lt_of_le habove.2 hrate, Nat.lt_of_lt_of_le habove.1 hcounted⟩
  obtain ⟨hge, -⟩ | ⟨-, -, he⟩ | ⟨-, hf, -⟩ :=
    udpEntry_cases (p.threshold user) p.oversize p.size hle
  · exact absurd hlt (Nat.not_lt.2 hge)
  · rw [he]
  · exact absurd hflood hf

/-- An entry made anew covers the window that its packet opens. -/
theorem Covers.anew (b : Option Burst) (p : UdpPacket) :
    Covers ⟨p.time, [p]⟩ (Burst.next b p) ⟨p.clk.udp, 1, p.size⟩ where
  opened := Nat.le_refl _
  last := Nat.le_of_eq (Burst.next_last b p).symm
  counted := Nat.le_refl _
  bounded := Burst.one_le_count b p

/-- An entry moved to a packet goes on to cover the window. -/
theorem Covers.moved {w : Tumbling UdpPacket} {b : Burst} {info : UdpFloodInfo} {p : UdpPacket}
    (h : Covers w b info) (hle : info.lastUpdate ≤ p.clk.udp) (hfew : b.count + 1 < 2 ^ 32) :
    Covers (Tumbling.step NSEC_PER_SEC UdpPacket.time (some w) p) ⟨p.time, b.count + 1⟩
      ⟨p.clk.udp, info.packetCount + 1, info.byteCount + p.size⟩ := by
  obtain ⟨hcounted, hbounded⟩ := h.counts hfew p
  by_cases ho : Tumbling.Opens NSEC_PER_SEC UdpPacket.time (some w) p
  · rw [Tumbling.step_of_opens ho]
    exact ⟨Nat.le_refl _, Nat.le_refl _, Nat.le_trans (by simp) hcounted, hbounded⟩
  · rw [(Tumbling.step_some_of_not_opens ho).2]
    exact ⟨Nat.le_trans h.opened hle, Nat.le_refl _, hcounted, hbounded⟩

/-- An entry left where it was goes on to cover a window that the packet does not open. -/
theorem Covers.left {w : Tumbling UdpPacket} {b : Burst} {info : UdpFloodInfo} {p : UdpPacket}
    (h : Covers w b info) (hle : info.lastUpdate ≤ p.clk.udp) (hfew : b.count + 1 < 2 ^ 32)
    (ho : ¬ Tumbling.Opens NSEC_PER_SEC UdpPacket.time (some w) p) :
    Covers (Tumbling.step NSEC_PER_SEC UdpPacket.time (some w) p) ⟨p.time, b.count + 1⟩
      ⟨info.lastUpdate, info.packetCount + 1, info.byteCount + p.size⟩ := by
  obtain ⟨hcounted, hbounded⟩ := h.counts hfew p
  rw [(Tumbling.step_some_of_not_opens ho).2]
  exact ⟨h.opened, hle, hcounted, hbounded⟩

/-- **The entry goes on to cover the window**, when a packet that opens one is not found to be a
flood. -/
theorem Covers.step {w : Tumbling UdpPacket} {b : Burst} {info : UdpFloodInfo} {p : UdpPacket}
    (threshold : U64) (h : Covers w b info) (hle : info.lastUpdate ≤ p.clk.udp)
    (hfew : (Burst.next (some b) p).count < 2 ^ 32)
    (hopens : Tumbling.Opens NSEC_PER_SEC UdpPacket.time (some w) p →
      p.time < info.lastUpdate.toNat + NSEC_PER_SEC →
        ¬ IsFlood threshold.toNat (Burst.next (some b) p).count
          (p.time - info.lastUpdate.toNat)) :
    ∃ info', (udpEntry threshold p.clk.udp p.oversize p.size (some info)).2 = some info' ∧
      Covers (Tumbling.step NSEC_PER_SEC UdpPacket.time (some w) p) (Burst.next (some b) p)
        info' := by
  obtain ⟨hge, he⟩ | ⟨hlt, hf, he⟩ | ⟨hlt, -, he⟩ :=
    udpEntry_cases threshold p.oversize p.size hle
  · have ho : Tumbling.Opens NSEC_PER_SEC UdpPacket.time (some w) p := fun v hv => by
      obtain rfl := Option.some.inj hv
      exact Nat.le_trans (Nat.add_le_add_right h.opened _) hge
    rw [he, Tumbling.step_of_opens ho]
    exact ⟨_, rfl, .anew _ p⟩
  · rw [h.next hlt] at hfew hopens ⊢
    rw [he]
    have hcount := (h.counts hfew p).2
    exact ⟨_, rfl, h.left hle hfew fun ho => hopens ho hlt (hf.mono hcount)⟩
  · rw [h.next hlt] at hfew ⊢
    rw [he]
    exact ⟨_, rfl, h.moved hle hfew⟩

/-- A stamp more than 100 ms back is followed by a silence. -/
theorem Stamped.silence {user : UserMaps} {A : U32} {st : Maps} {pre : List UdpPacket}
    {p : UdpPacket} {info : UdpFloodInfo} (h : Stamped user A st pre info)
    (hlong : 100000000 < p.time - info.lastUpdate.toNat) :
    ∃ xs q r ys, pre ++ [p] = xs ++ q :: r :: ys ∧ info.lastUpdate = q.clk.udp ∧
      q.time + 100000000 < r.time ∧ xs ++ [q] <+: pre ∧ findingAfter user A st xs q ≠ .flood := by
  obtain ⟨xs, q, ys, rfl, hlast, hmoved, hgap⟩ := h
  have hpre : xs ++ [q] <+: xs ++ q :: ys := ⟨ys, by simp⟩
  cases ys with
  | nil =>
    rw [hlast] at hlong
    exact ⟨xs, q, p, [], by simp, hlast, Nat.add_lt_of_lt_sub' hlong, hpre, hmoved⟩
  | cons r ys => exact ⟨xs, q, r, ys ++ [p], by simp, hlast, hgap r rfl, hpre, hmoved⟩

/-- A stamp is more than 100 ms back when a packet is measured, if all measured packets before it
are found to be floods: these do not move the stamp. -/
theorem Stamped.long {user : UserMaps} {A : U32} {st : Maps} {pre : List UdpPacket} {p : UdpPacket}
    {info : UdpFloodInfo} (h : Stamped user A st pre info)
    (hclock : ((pre ++ [p]).map UdpPacket.time).Pairwise (· ≤ ·))
    (hfound : ∀ xs q, xs ++ [q] <+: pre → Measured user xs q → findingAfter user A st xs q = .flood)
    (hp : Measured user pre p) : info.lastUpdate.toNat + 100000000 < p.time := by
  obtain ⟨xs, s, ys, hpre, hlast, hmoved, hgap⟩ := h
  have hsorted := Tumbling.sorted_init hclock
  rw [hlast]
  cases hp with
  | @silence pre q _ _ _ hlong =>
    have hs : s.time ≤ q.time := Tumbling.le_last_mem hsorted s (by simp [hpre])
    exact Nat.lt_of_le_of_lt (Nat.add_le_add_right hs _) hlong
  | @follows pre q _ _ _ hq =>
    cases ys with
    | nil =>
      obtain ⟨rfl, rfl⟩ := List.append_singleton_inj.1 hpre
      exact absurd (hfound pre q List.prefix_rfl hq) hmoved
    | cons r ys =>
      have hr : r.time ≤ q.time := Tumbling.le_last_mem hsorted r (by simp [hpre])
      have hqp : q.time ≤ p.time := Tumbling.le_last hclock q (by simp)
      exact Nat.lt_of_lt_of_le (hgap r rfl) (Nat.le_trans hr hqp)

/-- The burst since a stamp is no flood at a packet that is not mistaken, if all measured packets
before it are found to be floods. -/
theorem Stamped.not_isFlood {user : UserMaps} {A : U32} {st : Maps} {pre : List UdpPacket}
    {p : UdpPacket} {info : UdpFloodInfo} (h : Stamped user A st pre info)
    (hfound : ∀ xs q, xs ++ [q] <+: pre → Measured user xs q → findingAfter user A st xs q = .flood)
    (hp : Unmistaken user pre p) (hlt : p.time < info.lastUpdate.toNat + NSEC_PER_SEC) :
    ¬ IsFlood (p.threshold user).toNat (Burst.next (burst pre) p).count
      (p.time - info.lastUpdate.toNat) := by
  intro hf
  obtain ⟨xs, q, r, ys, hsplit, hlast, hgap, hpre, hmoved⟩ := h.silence hf.1
  rw [hlast] at hlt hf
  rcases hp xs q r ys hsplit hlt hgap with hq | hno
  · exact hmoved (hfound xs q hpre hq)
  · exact hno hf

/-- A measured packet is above the threshold in a window it does not open. -/
theorem Measured.above {user : UserMaps} {pre : List UdpPacket} {p : UdpPacket}
    (h : Measured user pre p) :
    ¬ Tumbling.Opens NSEC_PER_SEC UdpPacket.time
        (Tumbling.after NSEC_PER_SEC UdpPacket.time pre) p ∧ Above user (udpWindow pre p) p := by
  cases h with
  | silence hin habove => exact ⟨hin, habove⟩
  | follows hin habove => exact ⟨hin, habove⟩

/-- **What holds along untroubled packets**: each measured one is found to be a flood, and after each
the entry of the source covers its window. -/
theorem Untroubled.covers {user : UserMaps} {A : U32} {st : Maps} {ps : List UdpPacket}
    (h : Untroubled user ps) (h0 : st.udpFloodMap A = none) (hfrom : ∀ p ∈ ps, p.iph.saddr = A)
    (hclock : (ps.map UdpPacket.time).Pairwise (· ≤ ·)) :
    ∀ pre p, pre ++ [p] <+: ps →
      (Measured user pre p → findingAfter user A st pre p = .flood) ∧
      ∃ info, (Trace.final (udpStep user) st (pre ++ [p])).udpFloodMap A = some info ∧
        Covers (udpWindow pre p) (Burst.next (burst pre) p) info := by
  refine Trace.prefix_induct fun pre p hpre ih => ?_
  have hfrom' : ∀ q ∈ pre ++ [p], q.iph.saddr = A := fun q hq => hfrom q (hpre.subset hq)
  have hclock' := hclock.sublist (hpre.sublist.map UdpPacket.time)
  rw [Trace.final_concat, (udpStep_eq user (hfrom' p (by simp)) _).2]
  rcases List.eq_nil_or_concat' pre with rfl | ⟨pre, q, rfl⟩
  · refine ⟨fun hm => absurd nofun hm.above.1, ?_⟩
    rw [Trace.final_nil, h0]
    exact ⟨_, rfl, .anew _ p⟩
  · obtain ⟨-, info, hinfo, hcov⟩ := ih pre q List.prefix_rfl
    have hle := udp_lastUpdate_le user h0 hfrom' hclock' hinfo
    have hstamp := udp_stamped h0 _ (fun r hr => hfrom' r (List.mem_append_left _ hr))
      (Tumbling.sorted_init hclock') hinfo
    have hfound := fun xs r hr => (ih xs r hr).1
    have hfew := h.few _ p hpre
    have hopens := h.opens _ p hpre
    have hshort := fun ho => hstamp.not_isFlood hfound (hopens ho)
    rw [burst_concat] at hfew hshort
    rw [Tumbling.after_concat] at hshort
    rw [findingAfter, hinfo, udpWindow, burst_concat, Tumbling.after_concat]
    refine ⟨fun hm => ?_, hcov.step _ hle hfew hshort⟩
    obtain ⟨hin, habove⟩ := hm.above
    rw [Tumbling.after_concat] at hin
    rw [udpWindow, Tumbling.after_concat] at habove
    exact hcov.flood hle hfew hin habove (hstamp.long hclock' hfound hm)

/-- The verdict on a packet is to drop it when the entry of its source finds a flood. -/
theorem udpStep_drop_iff (user : UserMaps) {A : U32} {st : Maps} (h0 : st.udpFloodMap A = none)
    {pre : List UdpPacket} {p : UdpPacket} (hfrom : ∀ q ∈ pre ++ [p], q.iph.saddr = A)
    (hclock : ((pre ++ [p]).map UdpPacket.time).Pairwise (· ≤ ·)) :
    (udpStep user p (Trace.final (udpStep user) st pre)).1 = .drop ↔
      ∃ info, (Trace.final (udpStep user) st pre).udpFloodMap A = some info ∧
        p.time < info.lastUpdate.toNat + NSEC_PER_SEC ∧
        (IsFlood (p.threshold user).toNat (info.packetCount + 1).toNat
          (p.time - info.lastUpdate.toNat) ∨ p.oversize = true) := by
  rw [(udpStep_eq user (hfrom p (by simp)) _).1]
  cases hinfo : (Trace.final (udpStep user) st pre).udpFloodMap A with
  | none => simp [udpEntry, UdpFinding.verdict]
  | some info =>
    rw [udpEntry_drop_iff (udp_lastUpdate_le user h0 hfrom hclock hinfo)]
    simp only [Option.some.injEq, exists_eq_left']
    rfl

/-- In a run whose floods are measured all packets of floods are dropped. -/
theorem FloodsMeasured.detected {user : UserMaps} {A : U32} {st : Maps} {ps : List UdpPacket}
    (h : FloodsMeasured user ps) (h0 : st.udpFloodMap A = none) (hfrom : ∀ p ∈ ps, p.iph.saddr = A)
    (hclock : (ps.map UdpPacket.time).Pairwise (· ≤ ·)) : FloodDetected user st ps := by
  intro pre p hpre hf
  have hfrom' : ∀ q ∈ pre ++ [p], q.iph.saddr = A := fun q hq => hfrom q (hpre.subset hq)
  have hclock' := hclock.sublist (hpre.sublist.map UdpPacket.time)
  obtain ⟨hfound, huntroubled⟩ := h pre p hpre hf
  have hcovers := huntroubled.covers h0 hfrom' hclock'
  rcases hfound with hm | hsize
  · rw [(udpStep_eq user (hfrom' p (by simp)) _).1]
    exact congrArg UdpFinding.verdict ((hcovers pre p List.prefix_rfl).1 hm)
  · -- A packet over the size limits is dropped inside the second of an entry that covers its
    -- window.
    have hin := hf.not_opens
    rcases List.eq_nil_or_concat' pre with rfl | ⟨pre, q, rfl⟩
    · exact absurd nofun hin
    · obtain ⟨-, info, hinfo, hcov⟩ := hcovers pre q (List.prefix_append ..)
      rw [Tumbling.after_concat] at hin
      have hlt := Nat.lt_of_lt_of_le (Tumbling.step_some_of_not_opens hin).1
        (Nat.add_le_add_right hcov.opened _)
      exact (udpStep_drop_iff user h0 hfrom' hclock').2 ⟨info, hinfo, hlt, .inr hsize⟩

/-- **No packet is dropped for its rate without a silence**: one that is dropped and not oversize has
a silence of more than 100 ms that begins in the second before it. -/
theorem broken_of_drop (user : UserMaps) {A : U32} {st : Maps} (h0 : st.udpFloodMap A = none)
    {pre : List UdpPacket} {p : UdpPacket} (hfrom : ∀ q ∈ pre ++ [p], q.iph.saddr = A)
    (hclock : ((pre ++ [p]).map UdpPacket.time).Pairwise (· ≤ ·)) (hsize : p.oversize = false)
    (hdrop : (udpStep user p (Trace.final (udpStep user) st pre)).1 = .drop) : Broken pre p := by
  obtain ⟨info, hinfo, hlt, hf | hover⟩ := (udpStep_drop_iff user h0 hfrom hclock).1 hdrop
  · have hstamp := udp_stamped h0 pre (fun q hq => hfrom q (List.mem_append_left _ hq))
      (Tumbling.sorted_init hclock) hinfo
    obtain ⟨xs, q, r, ys, hsplit, hlast, hgap, -, -⟩ := hstamp.silence hf.1
    exact ⟨xs, q, r, ys, hsplit, by rwa [hlast] at hlt, hgap⟩
  · exact nomatch hsize.symm.trans hover

/-- **When floods are detected.** In a run from no entry all floods are detected if their packets
are measured or oversize and follow untroubled ones, and only if a silence of more than 100 ms
begins in the second before each of these packets that is not oversize. -/
theorem floodDetected_of_measured (user : UserMaps) (A : U32) (st : Maps)
    (h0 : st.udpFloodMap A = none) (ps : List UdpPacket) (hfrom : ∀ p ∈ ps, p.iph.saddr = A)
    (hclock : (ps.map UdpPacket.time).Pairwise (· ≤ ·)) :
    (FloodsMeasured user ps → FloodDetected user st ps) ∧
    (FloodDetected user st ps → ∀ pre p, pre ++ [p] <+: ps →
      Floods user.config.udpFloodRate.toNat (udpWindow pre p) p → p.oversize = false →
        Broken pre p) := by
  refine ⟨fun h => h.detected h0 hfrom hclock, fun h pre p hpre hf hsize => ?_⟩
  exact broken_of_drop user h0 (fun q hq => hfrom q (hpre.subset hq))
    (hclock.sublist (hpre.sublist.map _)) hsize (h pre p hpre hf)

/-- A packet of 100 bytes from 10.0.0.1, port 4000, at a time, on a flow that is not established. -/
def udpAt (now : U64) : UdpPacket where
  flows := Table.empty
  clk := .still now
  iph := ⟨5, bpfHtons 100, 0, 64, IPPROTO_UDP, 0x0100000a, 0x0200000a⟩
  udph := ⟨bpfHtons 4000, bpfHtons 5000⟩

/-- User maps with a UDP flood rate. -/
def udpRate (rate : U32) : UserMaps :=
  { UserMaps.initial with configMap := fun _ => ⟨0, rate, 0, 0, 0⟩ }

/-- The packets at some times come from one source. -/
theorem udpAt_saddr {times : List U64} {p : UdpPacket} (hp : p ∈ times.map udpAt) :
    p.iph.saddr = 0x0100000a := by
  obtain ⟨now, -, rfl⟩ := List.mem_map.1 hp
  rfl

/-- A thousand packets a second, for two tenths of a second. -/
def steadyFlood : List U64 := (List.range 200).map fun i => BitVec.ofNat 64 (1000000 * i)

/-- The limiter misses floods: of a thousand packets a second, each moves `last_update` before the
next one comes, and none is dropped while one a second is the rate. -/
theorem floodDetected_fails :
    ¬ ∀ (user : UserMaps) (A : U32) (st : Maps) (ps : List UdpPacket),
      10 * user.config.udpFloodRate.toNat < 2 ^ 32 → st.udpFloodMap A = none →
      (∀ p ∈ ps, p.iph.saddr = A) → (ps.map UdpPacket.time).Pairwise (· ≤ ·) →
      FloodDetected user st ps := by
  intro h
  have hdrop := h (udpRate 1) 0x0100000a Maps.initial ((steadyFlood ++ [200000000]).map udpAt)
    (by decide) rfl (fun p hp => udpAt_saddr hp) (List.isChain_iff_pairwise.1 (by decide +kernel))
    (steadyFlood.map udpAt) (udpAt 200000000) (by rw [List.map_append]; exact List.prefix_rfl)
    (by decide +kernel)
  have hpass : (udpStep (udpRate 1) (udpAt 200000000) (Trace.final (udpStep (udpRate 1))
      Maps.initial (steadyFlood.map udpAt))).1 = .pass := by decide +kernel
  exact nomatch hdrop.symm.trans hpass

/-- A burst counts no more packets than have come. -/
theorem burst_count_le (ps : List UdpPacket) (p : UdpPacket) :
    (Burst.next (burst ps) p).count ≤ ps.length + 1 := by
  induction ps using List.reverseRecOn generalizing p with
  | nil => exact Nat.le_refl 1
  | append_singleton ps q ih =>
    rw [burst_concat, List.length_append]
    exact Nat.le_trans (Burst.next_count_le _ p) (Nat.add_le_add_right (ih q) 1)

/-- Two hundred and one packets at once, and one 150 ms later. -/
def lateFlood : List UdpPacket := List.replicate 201 (udpAt 0) ++ [udpAt 150000000]

/-- The packets of a burst and a late one: those of the burst come at once, and the late one after
them all. -/
theorem lateFlood_cases {pre : List UdpPacket} {p : UdpPacket} (h : pre ++ [p] <+: lateFlood) :
    p.time = 0 ∨ pre = List.replicate 201 (udpAt 0) ∧ p = udpAt 150000000 := by
  obtain hlast | hpre := Trace.concat_prefix_concat.1 h
  · exact .inr hlast
  · have hp : p = udpAt 0 := List.eq_of_mem_replicate (hpre.subset (by simp))
    exact .inl (hp ▸ rfl)

/-- Of these packets only the first one opens a window, and they are few. -/
theorem untroubled_lateFlood : Untroubled (udpRate 1) lateFlood where
  few := fun pre p hpre => by
    have hlength := hpre.length_le
    rw [lateFlood, List.length_append, List.length_append, List.length_replicate] at hlength
    simp only [List.length_singleton] at hlength
    have hcount := burst_count_le pre p
    omega
  opens := fun pre p hpre ho => by
    have hearly : p.time < NSEC_PER_SEC := by
      obtain hp | ⟨-, rfl⟩ := lateFlood_cases hpre
      · rw [hp]
        decide
      · decide
    -- A packet of the first second opens a window only if it is the first packet.
    rcases List.eq_nil_or_concat' pre with rfl | ⟨pre, q, rfl⟩
    · intro xs q r ys hsplit
      have hlength := congrArg List.length hsplit
      simp at hlength
      omega
    · rw [Tumbling.after_concat] at ho
      have hlate := ho _ rfl
      omega

/-- The flood of the late packet is measured: it ends a silence. -/
theorem floodsMeasured_lateFlood : FloodsMeasured (udpRate 1) lateFlood := by
  intro pre p hpre hf
  obtain hp | ⟨rfl, rfl⟩ := lateFlood_cases hpre
  · have hlong := hf.1
    omega
  · refine ⟨.inl ?_, untroubled_lateFlood⟩
    rw [show List.replicate 201 (udpAt 0) = List.replicate 200 (udpAt 0) ++ [udpAt 0] from
      List.replicate_succ'] at hf ⊢
    exact .silence hf.not_opens (by decide +kernel) (by decide)

/-- The late packet belongs to a flood by its window, and the run, whose floods are measured, has
all of them detected. -/
theorem floodDetected_of_measured_late :
    Floods 1 (udpWindow (List.replicate 201 (udpAt 0)) (udpAt 150000000)) (udpAt 150000000) ∧
      FloodDetected (udpRate 1) Maps.initial lateFlood :=
  ⟨by decide +kernel, (floodDetected_of_measured (udpRate 1) 0x0100000a Maps.initial rfl lateFlood
    (by decide +kernel) (List.isChain_iff_pairwise.1 (by decide +kernel))).1
      floodsMeasured_lateFlood⟩

/-! ## Sources that send no flood -/

/-- A packet is misjudged: it ends a silence of more than 100 ms and less than a second, and the
whole burst, sent in the time of that silence, would be a flood. -/
def Misjudged (user : UserMaps) (b : Option Burst) (p : UdpPacket) : Prop :=
  ∃ c, b = some c ∧ p.time < c.last + NSEC_PER_SEC ∧
    IsFlood (p.threshold user).toNat ((c.count + 1) % 2 ^ 32) (p.time - c.last)

/-- Every packet of the run passes. -/
def AllPass (user : UserMaps) (st : Maps) (ps : List UdpPacket) : Prop :=
  ∀ pre p, pre ++ [p] <+: ps → (udpStep user p (Trace.final (udpStep user) st pre)).1 = .pass

/-- No packet of the run is misjudged. -/
def NoneMisjudged (user : UserMaps) (ps : List UdpPacket) : Prop :=
  ∀ pre p, pre ++ [p] <+: ps → ¬ Misjudged user (burst pre) p

/-- The entry of a source holds a burst. -/
structure BurstTracks (b : Burst) (info : UdpFloodInfo) : Prop where
  last : info.lastUpdate.toNat = b.last
  count : info.packetCount.toNat = b.count % 2 ^ 32

/-- The wrapping counter counts one more. -/
theorem BurstTracks.count_succ {b : Burst} {info : UdpFloodInfo} (h : BurstTracks b info) :
    (info.packetCount + 1).toNat = (b.count + 1) % 2 ^ 32 := by
  rw [BitVec.toNat_add, h.count]
  exact Nat.mod_add_mod ..

/-- **One packet of a source none of whose packets has been dropped**: it passes exactly when it is
not misjudged, and the entry then holds the burst with the packet. -/
theorem udpEntry_pass_iff {user : UserMaps} {p : UdpPacket} {b : Option Burst}
    {old : Option UdpFloodInfo} (h : Option.Rel BurstTracks b old)
    (hle : ∀ info, old = some info → info.lastUpdate ≤ p.clk.udp) :
    ((udpEntry (p.threshold user) p.clk.udp false p.size old).1.verdict = .pass ↔
      ¬ Misjudged user b p) ∧
    ((udpEntry (p.threshold user) p.clk.udp false p.size old).1.verdict = .pass →
      Option.Rel BurstTracks (some (Burst.next b p))
        (udpEntry (p.threshold user) p.clk.udp false p.size old).2) := by
  cases h with
  | none => exact ⟨⟨fun _ => nofun, fun _ => rfl⟩, fun _ => .some ⟨rfl, rfl⟩⟩
  | @some b info ht =>
    have hmis : Misjudged user (some b) p ↔ p.time < b.last + NSEC_PER_SEC ∧
        IsFlood (p.threshold user).toNat ((b.count + 1) % 2 ^ 32) (p.time - b.last) := by
      simp [Misjudged]
    have hcases := udpEntry_cases (p.threshold user) false p.size (hle info rfl)
    rw [ht.last, ht.count_succ] at hcases
    rw [hmis]
    obtain ⟨hge, he⟩ | ⟨hlt, hf, he⟩ | ⟨hlt, hf, he⟩ := hcases
    · have hnext : Burst.next (some b) p = ⟨p.time, 1⟩ := if_pos hge
      rw [he, hnext]
      exact ⟨⟨fun _ hx => absurd hx.1 (Nat.not_lt.2 hge), fun _ => rfl⟩,
        fun _ => .some ⟨rfl, rfl⟩⟩
    · rw [he]
      exact ⟨⟨nofun, fun hx => absurd ⟨hlt, hf⟩ hx⟩, nofun⟩
    · have hnext : Burst.next (some b) p = ⟨p.time, b.count + 1⟩ := if_neg (Nat.not_le.2 hlt)
      rw [he, hnext]
      exact ⟨⟨fun _ hx => hf hx.2, fun _ => rfl⟩, fun _ => .some ⟨rfl, ht.count_succ⟩⟩

/-- As long as every packet passes, the entry of the source holds its burst. -/
theorem AllPass.burstTracks {user : UserMaps} {A : U32} {st : Maps} (h0 : st.udpFloodMap A = none)
    {ps : List UdpPacket} (hfrom : ∀ p ∈ ps, p.iph.saddr = A)
    (hclock : (ps.map UdpPacket.time).Pairwise (· ≤ ·)) (hsize : ∀ p ∈ ps, p.oversize = false)
    (hall : AllPass user st ps) :
    Option.Rel BurstTracks (burst ps) ((Trace.final (udpStep user) st ps).udpFloodMap A) := by
  induction ps using List.reverseRecOn with
  | nil =>
    rw [Trace.final_nil, h0]
    exact .none
  | append_singleton ps p ih =>
    have hold := ih (fun q hq => hfrom q (by simp [hq])) (Tumbling.sorted_init hclock)
      (fun q hq => hsize q (by simp [hq]))
      (fun pre q hpre => hall pre q (hpre.trans (List.prefix_append ..)))
    have hle := fun info => @udp_lastUpdate_le user A _ h0 ps p hfrom hclock info
    have hpass := hall ps p List.prefix_rfl
    obtain ⟨hv, hmap⟩ := udpStep_eq user (hfrom p (by simp))
      (Trace.final (udpStep user) st ps)
    rw [hsize p (by simp)] at hv hmap
    rw [burst_concat, Trace.final_concat, hmap]
    exact (udpEntry_pass_iff hold hle).2 (hv ▸ hpass)

/-- **When no packet of a source is dropped.** In a run without oversize packets every packet passes
exactly when none is misjudged. -/
theorem allPass_iff_noneMisjudged (user : UserMaps) (A : U32) (st : Maps)
    (h0 : st.udpFloodMap A = none) (ps : List UdpPacket) (hfrom : ∀ p ∈ ps, p.iph.saddr = A)
    (hclock : (ps.map UdpPacket.time).Pairwise (· ≤ ·)) (hsize : ∀ p ∈ ps, p.oversize = false) :
    AllPass user st ps ↔ NoneMisjudged user ps := by
  -- The verdict on a packet before which all passed.
  have hstep : ∀ pre p, pre ++ [p] <+: ps → AllPass user st pre →
      ((udpStep user p (Trace.final (udpStep user) st pre)).1 = .pass ↔
        ¬ Misjudged user (burst pre) p) := by
    intro pre p hpre hall
    have hfrom' : ∀ q ∈ pre ++ [p], q.iph.saddr = A := fun q hq => hfrom q (hpre.subset hq)
    have hclock' := hclock.sublist (hpre.sublist.map UdpPacket.time)
    have htracks := hall.burstTracks h0 (fun q hq => hfrom' q (by simp [hq]))
      (Tumbling.sorted_init hclock') (fun q hq => hsize q (hpre.subset (by simp [hq])))
    rw [(udpStep_eq user (hfrom' p (by simp)) _).1, hsize p (hpre.subset (by simp))]
    exact (udpEntry_pass_iff htracks fun info => udp_lastUpdate_le user h0 hfrom' hclock').1
  constructor
  · intro hall pre p hpre
    have hinit : AllPass user st pre := fun pre' q hq =>
      hall pre' q (hq.trans ((List.prefix_append ..).trans hpre))
    exact (hstep pre p hpre hinit).1 (hall pre p hpre)
  · intro hnone
    exact Trace.prefix_induct fun pre p hpre hall => (hstep pre p hpre hall).2 (hnone pre p hpre)

/-- Two hundred and one packets in as many microseconds. -/
def quickBurst : List U64 := (List.range 201).map fun i => BitVec.ofNat 64 (1000 * i)

/-- The limiter drops a packet of a source that keeps to the rate: after a burst of 201 packets and
half a second of silence, it takes the burst to have been sent in that half second. -/
theorem allPass_fails :
    ¬ ∀ (user : UserMaps) (A : U32) (st : Maps) (ps : List UdpPacket),
      1 ≤ user.config.udpFloodRate.toNat →
      10 * user.config.udpFloodRate.toNat < 2 ^ 32 → st.udpFloodMap A = none →
      (∀ p ∈ ps, p.iph.saddr = A) → (ps.map UdpPacket.time).Pairwise (· ≤ ·) →
      (∀ p ∈ ps, p.oversize = false) →
      (∀ x, Tumbling.inInterval NSEC_PER_SEC UdpPacket.time (fun _ => true) x ps ≤
        user.config.udpFloodRate.toNat) →
      AllPass user st ps := by
  intro h
  have hpass := h (udpRate 202) 0x0100000a Maps.initial ((quickBurst ++ [500000000]).map udpAt)
    (by decide) (by decide) rfl (fun p hp => udpAt_saddr hp)
    (List.isChain_iff_pairwise.1 (by decide +kernel)) (by decide +kernel)
    (fun x => List.countP_le_length.trans (by decide +kernel)) (quickBurst.map udpAt)
    (udpAt 500000000)
    (by rw [List.map_append]; exact List.prefix_rfl)
  have hdrop : (udpStep (udpRate 202) (udpAt 500000000) (Trace.final (udpStep (udpRate 202))
      Maps.initial (quickBurst.map udpAt))).1 = .drop := by decide +kernel
  exact nomatch hpass.symm.trans hdrop

/-- Two datagrams half a second apart, at a rate of one a second: the second one is less than a
second and at least 100 ms behind the first. -/
theorem allPass_iff_noneMisjudged_pair :
    AllPass (udpRate 1) Maps.initial ([0, 500000000].map udpAt) ↔
      NoneMisjudged (udpRate 1) ([0, 500000000].map udpAt) :=
  allPass_iff_noneMisjudged (udpRate 1) 0x0100000a Maps.initial rfl _
    (fun _ hp => udpAt_saddr hp) (by decide +kernel) (by decide +kernel)

end Cyrenus
