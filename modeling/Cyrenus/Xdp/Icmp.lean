import Cyrenus.Lib.Bucket
import Cyrenus.Lib.Trace
import Cyrenus.Xdp.Checks

/-!
# What the ICMP filter admits

`early_filter` keeps a token bucket for each source of ICMP packets. Its arithmetic wraps (the
refill product at 64 bits, the token count at 32), its refill rounds down, and the rate it reads
may differ from packet to packet; each of these can only take tokens away. `tokenBucketEntry_step`
shows that every packet is a step of an ideal bucket whose capacity and rate are the largest rate in
force, and `earlyFilter_admitted_le` is that bucket's bound for the filter.
-/

namespace Cyrenus

/-- An ICMP packet as the filter sees it: the user maps in force, the clock and the IP header. -/
structure IcmpPacket where
  user : UserMaps
  clk : Clock
  iph : IpHdr

/-- The filter on one packet of a run. -/
def icmpStep (p : IcmpPacket) : Check := earlyFilter p.user p.clk p.iph IPPROTO_ICMP

/-- The time the filter reads for a packet. -/
def IcmpPacket.time (p : IcmpPacket) : ℕ := p.clk.icmp.toNat

/-- The rate in force for a packet. -/
def IcmpPacket.rate (p : IcmpPacket) : U32 := p.user.config.icmpFloodRate

/-- The packet comes from the source `A` and reaches the token bucket: neither address is zero, the
destination is not the broadcast address, and the packet is still alive. -/
structure IcmpPacket.IsFrom (A : U32) (p : IcmpPacket) : Prop where
  saddr : p.iph.saddr = A
  saddr_ne : p.iph.saddr ≠ 0
  daddr_ne : p.iph.daddr ≠ 0
  not_broadcast : p.iph.daddr ≠ 0xFFFFFFFF
  ttl_ne : p.iph.ttl ≠ 0

/-- On such a packet the filter applies the token bucket of the source. -/
theorem icmpStep_eq {A : U32} {p : IcmpPacket} (h : p.IsFrom A) (st : Maps) :
    icmpStep p st =
      ((st.tokenBuckets.alter A (tokenBucketEntry p.rate p.clk.icmp)).1,
        { st with
          tokenBuckets := (st.tokenBuckets.alter A (tokenBucketEntry p.rate p.clk.icmp)).2 }) := by
  obtain ⟨rfl, h1, h2, h3, h4⟩ := h
  have h12 : ¬ (p.iph.saddr = 0 ∨ p.iph.daddr = 0) := fun h => h.elim h1 h2
  simp only [icmpStep, earlyFilter, if_neg h12, if_neg h3, if_neg h4, if_true, getConfig_configMap,
    IcmpPacket.rate]

/-! ## The bucket of a source -/

/-- A bucket as an ideal one. -/
def TokenBucket.ideal (b : TokenBucket) : Bucket := ⟨b.lastUpdate.toNat, b.tokens.toNat⟩

/-- The tokens a packet finds are at most the old ones and the exact refill, in units of a
nanosecond at rate one: neither the wrapping product nor the wrapping sum makes any. -/
theorem refill_le (tokens rate : U32) {last now : U64} (h : last ≤ now) :
    NSEC_PER_SEC * ((tokens.setWidth 64 + (now - last) * rate.setWidth 64 / 1000000000).setWidth
      32 : U32).toNat ≤
      NSEC_PER_SEC * tokens.toNat + rate.toNat * (now.toNat - last.toNat) := by
  have hsub : (now - last).toNat = now.toNat - last.toNat := BitVec.toNat_sub_of_le h
  have hdiv : ((now - last) * rate.setWidth 64 / 1000000000).toNat ≤
      rate.toNat * (now.toNat - last.toNat) / NSEC_PER_SEC := by
    rw [BitVec.toNat_udiv, BitVec.toNat_mul, hsub, Nat.mul_comm]
    refine Nat.div_le_div_right (Nat.le_trans (Nat.mod_le ..) (Nat.mul_le_mul_right _ ?_))
    rw [BitVec.toNat_setWidth]
    exact Nat.mod_le ..
  have hsum : ((tokens.setWidth 64 + (now - last) * rate.setWidth 64 / 1000000000).setWidth
      32 : U32).toNat ≤ tokens.toNat + rate.toNat * (now.toNat - last.toNat) / NSEC_PER_SEC := by
    rw [BitVec.toNat_setWidth, BitVec.toNat_add]
    refine Nat.le_trans (Nat.mod_le ..) (Nat.le_trans (Nat.mod_le ..) (Nat.add_le_add ?_ hdiv))
    rw [BitVec.toNat_setWidth]
    exact Nat.mod_le ..
  calc _ ≤ NSEC_PER_SEC *
        (tokens.toNat + rate.toNat * (now.toNat - last.toNat) / NSEC_PER_SEC) :=
        Nat.mul_le_mul_left _ hsum
    _ ≤ _ := by
        rw [Nat.mul_add]
        exact Nat.add_le_add_left (Nat.mul_div_le ..) _

/-- What the bucket of a known source does with a packet: it admits it, leaving a count that the
old tokens and the refill pay for, or drops it and stays as it was. -/
theorem tokenBucketEntry_cases (rate : U32) {now : U64} {b : TokenBucket} (h : b.lastUpdate ≤ now) :
    (∃ k : U32, tokenBucketEntry rate now (some b) = (.pass, some ⟨now, k⟩) ∧
      k.toNat + 1 ≤ rate.toNat ∧ NSEC_PER_SEC * (k.toNat + 1) ≤
        NSEC_PER_SEC * b.tokens.toNat + rate.toNat * (now.toNat - b.lastUpdate.toNat)) ∨
    tokenBucketEntry rate now (some b) = (.drop, some b) := by
  have hrefill := refill_le b.tokens rate h
  simp only [tokenBucketEntry]
  generalize (b.tokens.setWidth 64 + (now - b.lastUpdate) * rate.setWidth 64 /
    1000000000).setWidth 32 = n at hrefill ⊢
  -- What the packet finds is `m`, the refilled count cut to the rate.
  obtain ⟨m, hm, hmn, hmr⟩ : ∃ m : U32, (if n > rate then rate else n) = m ∧
      m.toNat ≤ n.toNat ∧ m.toNat ≤ rate.toNat := by
    by_cases hn : n > rate
    · exact ⟨rate, if_pos hn, Nat.le_of_lt hn, Nat.le_refl _⟩
    · exact ⟨n, if_neg hn, Nat.le_refl _, Nat.le_of_not_lt hn⟩
  rw [hm]
  by_cases h1 : m ≥ 1
  · have hk : (m - 1).toNat + 1 = m.toNat := by
      rw [BitVec.toNat_sub_of_le h1]
      exact Nat.sub_add_cancel h1
    refine .inl ⟨m - 1, if_pos h1, hk ▸ hmr, ?_⟩
    rw [hk]
    exact Nat.le_trans (Nat.mul_le_mul_left _ hmn) hrefill
  · exact .inr (if_neg h1)

/-- **One packet is one step of an ideal bucket.** -/
theorem tokenBucketEntry_step {cap : ℕ} {rate : U32} {now : U64} {old : Option TokenBucket}
    (hcap : rate.toNat ≤ cap) (hle : ∀ b, old = some b → b.lastUpdate ≤ now) :
    Bucket.Step cap NSEC_PER_SEC now.toNat (old.map TokenBucket.ideal)
      (decide ((tokenBucketEntry rate now old).1 = .pass))
      ((tokenBucketEntry rate now old).2.map TokenBucket.ideal) := by
  cases old with
  | none => exact .create hcap
  | some b =>
    obtain ⟨k, he, hk, hpay⟩ | he := tokenBucketEntry_cases rate (hle b rfl)
    · rw [he]
      refine .charged (hle b rfl) (Nat.le_trans (Nat.le_of_succ_le hk) hcap) ?_
      exact Nat.le_trans hpay (Nat.add_le_add_left (Nat.mul_le_mul_right _ hcap) _)
    · rw [he]
      exact .refuse

/-- A packet leaves the bucket as it was, or stamped with its own time. -/
theorem tokenBucketEntry_lastUpdate {rate : U32} {now : U64} {old : Option TokenBucket}
    (hle : ∀ b, old = some b → b.lastUpdate ≤ now) {b : TokenBucket}
    (h : (tokenBucketEntry rate now old).2 = some b) : old = some b ∨ b.lastUpdate = now := by
  cases old with
  | none =>
    cases h
    exact .inr rfl
  | some c =>
    obtain ⟨k, he, -, -⟩ | he := tokenBucketEntry_cases rate (hle c rfl) <;> rw [he] at h
    · cases h
      exact .inr rfl
    · exact .inl h

/-! ## Runs -/

/-- The packets of a run as arrivals at a bucket: when they came and whether they passed. -/
def arrivals (tr : List (IcmpPacket × XdpAction)) : List (ℕ × Bool) :=
  tr.map fun pv => (pv.1.time, decide (pv.2 = .pass))

/-- The number of packets of a run that pass in the closed interval from `a` to `b`. -/
def passedIn (a b : ℕ) (tr : List (IcmpPacket × XdpAction)) : ℕ :=
  tr.countP fun pv => decide (pv.2 = .pass) && decide (a ≤ pv.1.time ∧ pv.1.time ≤ b)

theorem passedIn_eq (a b : ℕ) (tr : List (IcmpPacket × XdpAction)) :
    passedIn a b tr = Bucket.admitted a b (arrivals tr) := by
  simp only [passedIn, Bucket.admitted, arrivals, List.countP_map]
  rfl

/-- A run from a state without a bucket for the source is a run of an ideal bucket, and the bucket
it leaves is stamped with the time of one of its packets. -/
theorem icmp_run {A : U32} {cap : ℕ} {st : Maps} (h0 : st.tokenBuckets A = none)
    (ps : List IcmpPacket) (hfrom : ∀ p ∈ ps, p.IsFrom A) (hcap : ∀ p ∈ ps, p.rate.toNat ≤ cap)
    (hs : (ps.map IcmpPacket.time).Pairwise (· ≤ ·)) :
    Bucket.Run cap NSEC_PER_SEC (arrivals (Trace.trace icmpStep st ps))
      (((Trace.final icmpStep st ps).tokenBuckets A).map TokenBucket.ideal) ∧
    ∀ b, (Trace.final icmpStep st ps).tokenBuckets A = some b →
      b.lastUpdate.toNat ∈ ps.map IcmpPacket.time := by
  induction ps using List.reverseRecOn with
  | nil =>
    simp only [Trace.trace_nil, Trace.final_nil, h0]
    exact ⟨.nil, nofun⟩
  | append_singleton ps p ih =>
    rw [List.map_append, List.pairwise_append] at hs
    obtain ⟨hrun, hmem⟩ := ih (fun q hq => hfrom q (by simp [hq]))
      (fun q hq => hcap q (by simp [hq])) hs.1
    have hp := hfrom p (by simp)
    rw [Trace.trace_concat, Trace.final_concat, arrivals, List.map_append]
    generalize Trace.final icmpStep st ps = s at hrun hmem ⊢
    simp only [icmpStep_eq hp, Table.alter_fst, Table.alter_same, List.map_singleton]
    have hle : ∀ b, s.tokenBuckets A = some b → b.lastUpdate ≤ p.clk.icmp := fun b hb =>
      hs.2.2 _ (hmem b hb) _ (by simp [IcmpPacket.time])
    refine ⟨hrun.snoc (tokenBucketEntry_step (hcap p (by simp)) hle), fun b hb => ?_⟩
    · rcases tokenBucketEntry_lastUpdate hle hb with hb | hb
      · simpa using Or.inl (List.mem_map.1 (hmem b hb))
      · simp [hb, IcmpPacket.time]

/-- **The ICMP admission bound.** Whatever rates up to `Rmax` are in force at the packets of a
source that has no bucket yet, at most one packet, `Rmax` more, and what a refill at `Rmax` packets
a second pays for pass in any closed interval. -/
theorem earlyFilter_admitted_le (A : U32) (Rmax : ℕ) (st : Maps) (h0 : st.tokenBuckets A = none)
    (ps : List IcmpPacket) (hfrom : ∀ p ∈ ps, p.IsFrom A)
    (hrate : ∀ p ∈ ps, p.rate.toNat ≤ Rmax) (hclock : (ps.map IcmpPacket.time).Pairwise (· ≤ ·))
    (a b : ℕ) :
    passedIn a b (Trace.trace icmpStep st ps) ≤ 1 + Rmax + Rmax * (b - a) / NSEC_PER_SEC := by
  rw [passedIn_eq]
  exact (icmp_run h0 ps hfrom hrate hclock).1.admitted_le (by decide) a b

/-- A packet from 10.0.0.1 to 10.0.0.2 at a time, while two packets a second are allowed. -/
def icmpAt (now : U64) : IcmpPacket where
  user := { UserMaps.initial with configMap := fun _ => ⟨0, 0, 2, 0, 0⟩ }
  clk := .still now
  iph := ⟨5, bpfHtons 28, 0, 64, IPPROTO_ICMP, 0x0100000a, 0x0200000a⟩

theorem icmpAt_isFrom (now : U64) : (icmpAt now).IsFrom 0x0100000a :=
  by constructor <;> simp [icmpAt]

/-- Of four packets at once the bound lets three pass, and three do. -/
theorem earlyFilter_admitted_le_burst :
    passedIn 7 7 (Trace.trace icmpStep Maps.initial ([7, 7, 7, 7].map icmpAt)) = 3 ∧
    passedIn 7 7 (Trace.trace icmpStep Maps.initial ([7, 7, 7, 7].map icmpAt)) ≤
      1 + 2 + 2 * (7 - 7) / NSEC_PER_SEC := by
  have hfrom : ∀ p ∈ [7, 7, 7, 7].map icmpAt, p.IsFrom 0x0100000a :=
    List.forall_mem_map.2 fun now _ => icmpAt_isFrom now
  have hrate : ∀ p ∈ [7, 7, 7, 7].map icmpAt, p.rate.toNat ≤ 2 :=
    List.forall_mem_map.2 fun _ _ => Nat.le_refl 2
  exact ⟨by decide +kernel,
    earlyFilter_admitted_le 0x0100000a 2 Maps.initial rfl _ hfrom hrate (by decide) 7 7⟩

end Cyrenus
