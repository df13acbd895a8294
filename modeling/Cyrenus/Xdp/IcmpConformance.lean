import Cyrenus.Lib.Meter
import Cyrenus.Xdp.Icmp
import Mathlib.Algebra.Order.Ring.Rat

/-!
# The ICMP filter and the exact token bucket

`early_filter` adds whole tokens only, for the time since the last packet that passed, so every
packet costs the fraction of a token that its refill is rounded by. Its bucket is a meter whose
credits are the rounded refills (`passAll_iff_meter`), the exact bucket one whose credits are the
exact ones, and what a full meter serves can be read off its credits. `icmpConforms_iff` says which
of the runs that the exact bucket admits the filter passes.
-/

namespace Cyrenus

/-- The tokens that the filter adds for some time. -/
def wholeTokens (R : U32) (d : ℕ) : ℕ := R.toNat * d / NSEC_PER_SEC

/-- The refills of a run. Its first packet finds no bucket, and gets a full one. -/
def refills (R : U32) (ts : List ℕ) : List ℤ :=
  Meter.between (fun d => (wholeTokens R d : ℤ)) ts

/-- The tokens that the exact bucket adds in a nanosecond. -/
def exactRate (R : U32) : ℚ := R.toNat / NSEC_PER_SEC

/-- A run of packets of one source, in the order of their times and while one rate is in force,
that the exact bucket admits. -/
structure AdmittedRun (A R : U32) (ps : List IcmpPacket) : Prop where
  isFrom : ∀ p ∈ ps, p.IsFrom A
  rate : ∀ p ∈ ps, p.rate = R
  clock : (ps.map IcmpPacket.time).Pairwise (· ≤ ·)
  admitted : Meter.AdmitsAll (R.toNat : ℚ) (exactRate R) (ps.map IcmpPacket.time)

/-- Every packet of a run passes. -/
def PassAll (st : Maps) (ps : List IcmpPacket) : Prop :=
  ∀ pv ∈ Trace.trace icmpStep st ps, pv.2 = .pass

/-- The sum of the tokens that a packet finds and its refill is a 32-bit number. -/
def CountFits (p : IcmpPacket) (st : Maps) : Prop :=
  ∀ b, st.tokenBuckets p.iph.saddr = some b →
    b.tokens.toNat + wholeTokens p.rate (p.time - b.lastUpdate.toNat) < 2 ^ 32

/-- It is for every packet of a run. -/
def CountsFit : Maps → List IcmpPacket → Prop
  | _, [] => True
  | st, p :: ps => CountFits p st ∧ CountsFit (icmpStep p st).2 ps

/-! ## The bucket is a meter -/

/-- The sum that the code computes is the exact one if that is a 32-bit number: then the product
does not wrap either. -/
theorem refill_eq {tokens rate : U32} {last now : U64} (hle : last ≤ now)
    (hfit : tokens.toNat + wholeTokens rate (now.toNat - last.toNat) < 2 ^ 32) :
    ((tokens.setWidth 64 + (now - last) * rate.setWidth 64 / 1000000000).setWidth 32 : U32).toNat =
      tokens.toNat + wholeTokens rate (now.toNat - last.toNat) := by
  have hsub : (now - last).toNat = now.toNat - last.toNat := BitVec.toNat_sub_of_le hle
  have hwiden : ∀ n : U32, (n.setWidth 64).toNat = n.toNat := fun n => by
    rw [BitVec.toNat_setWidth]
    exact Nat.mod_eq_of_lt (Nat.lt_trans n.isLt (by decide))
  have hprod : rate.toNat * (now.toNat - last.toNat) < 2 ^ 64 := by
    have hdiv : wholeTokens rate (now.toNat - last.toNat) < 2 ^ 32 :=
      Nat.lt_of_le_of_lt (Nat.le_add_left ..) hfit
    rw [wholeTokens, Nat.div_lt_iff_lt_mul (by decide)] at hdiv
    exact Nat.lt_trans hdiv (by decide)
  have hcredit : ((now - last) * rate.setWidth 64 / 1000000000).toNat =
      wholeTokens rate (now.toNat - last.toNat) := by
    rw [BitVec.toNat_udiv, BitVec.toNat_mul, hsub, hwiden, Nat.mul_comm, Nat.mod_eq_of_lt hprod]
    rfl
  rw [BitVec.toNat_setWidth, BitVec.toNat_add, hwiden, hcredit,
    Nat.mod_eq_of_lt (Nat.lt_trans hfit (by decide)), Nat.mod_eq_of_lt hfit]

/-- What a meter finds for a packet at some time, if it stands as a bucket does. -/
def TokenBucket.found (b : TokenBucket) (rate : U32) (now : ℕ) : ℤ :=
  min (rate.toNat : ℤ) (b.tokens.toNat + (wholeTokens rate (now - b.lastUpdate.toNat) : ℤ))

/-- What the filter does with a packet of a known source is what the meter does. -/
theorem tokenBucketEntry_meter {rate : U32} {now : U64} {b : TokenBucket} (hle : b.lastUpdate ≤ now)
    (hfit : b.tokens.toNat + wholeTokens rate (now.toNat - b.lastUpdate.toNat) < 2 ^ 32) :
    (1 ≤ b.found rate now.toNat ∧
      ∃ k : U32, tokenBucketEntry rate now (some b) = (.pass, some ⟨now, k⟩) ∧
        (k.toNat : ℤ) = b.found rate now.toNat - 1) ∨
    (¬ 1 ≤ b.found rate now.toNat ∧ (tokenBucketEntry rate now (some b)).1 = .drop) := by
  have hsum := refill_eq hle hfit
  rw [TokenBucket.found, ← Nat.cast_add, ← hsum]
  simp only [tokenBucketEntry]
  generalize (b.tokens.setWidth 64 + (now - b.lastUpdate) * rate.setWidth 64 /
    1000000000).setWidth 32 = n
  -- What the packet finds is `m`, the sum cut to the rate.
  obtain ⟨m, hm, hmin⟩ : ∃ m : U32, (if n > rate then rate else n) = m ∧
      (m.toNat : ℤ) = min (rate.toNat : ℤ) n.toNat := by
    by_cases hn : n > rate
    · refine ⟨rate, if_pos hn, (min_eq_left ?_).symm⟩
      exact_mod_cast Nat.le_of_lt hn
    · refine ⟨n, if_neg hn, (min_eq_right ?_).symm⟩
      exact_mod_cast Nat.le_of_not_lt hn
  rw [hm, ← hmin]
  have hone : m ≥ 1 ↔ (1 : ℤ) ≤ m.toNat := by
    rw [ge_iff_le, BitVec.le_def]
    exact_mod_cast Iff.rfl
  by_cases h1 : m ≥ 1
  · refine .inl ⟨hone.1 h1, m - 1, if_pos h1, ?_⟩
    rw [BitVec.toNat_sub_of_le h1, Nat.cast_sub (BitVec.le_def.1 h1)]
    rfl
  · exact .inr ⟨mt hone.2 h1, by rw [if_neg h1]⟩

/-- **The bucket is a meter.** The packets of a known source all pass, and the counts stay 32-bit
numbers, if a meter with the rounded refills serves them and its sums are 32-bit numbers. -/
theorem passAll_iff_meter {A R : U32} {st : Maps} {b : TokenBucket} {ps : List IcmpPacket}
    (hb : st.tokenBuckets A = some b) (hfrom : ∀ p ∈ ps, p.IsFrom A) (hrate : ∀ p ∈ ps, p.rate = R)
    (hclock : (b.lastUpdate.toNat :: ps.map IcmpPacket.time).Pairwise (· ≤ ·)) :
    CountsFit st ps ∧ PassAll st ps ↔
      Meter.Fits (R.toNat : ℤ) (2 ^ 32) b.tokens.toNat
        (refills R (b.lastUpdate.toNat :: ps.map IcmpPacket.time)) ∧
      Meter.Serves (R.toNat : ℤ) b.tokens.toNat
        (refills R (b.lastUpdate.toNat :: ps.map IcmpPacket.time)) := by
  induction ps generalizing st b with
  | nil => simp [CountsFit, PassAll, refills, Meter.between, Meter.credits, Meter.Fits, Meter.Serves]
  | cons p ps ih =>
    obtain ⟨hp, hps⟩ := List.forall_mem_cons.1 hfrom
    obtain ⟨rfl, hrates⟩ := List.forall_mem_cons.1 hrate
    rw [List.map_cons] at hclock
    obtain ⟨hlast, hclock'⟩ := List.pairwise_cons.1 hclock
    have hle : b.lastUpdate ≤ p.clk.icmp := hlast p.time List.mem_cons_self
    have hfits : CountFits p st ↔
        b.tokens.toNat + wholeTokens p.rate (p.time - b.lastUpdate.toNat) < 2 ^ 32 := by
      simp only [CountFits, hp.saddr, hb, Option.some.injEq, forall_eq']
    have hpass : PassAll st (p :: ps) ↔
        (tokenBucketEntry p.rate p.clk.icmp (some b)).1 = .pass ∧ PassAll (icmpStep p st).2 ps := by
      simp only [PassAll, Trace.trace_cons, List.forall_mem_cons, icmpStep_eq hp, Table.alter_fst,
        hb]
    have hnext := icmpStep_eq hp st
    simp only [CountsFit, hfits, hpass, List.map_cons, refills, Meter.between, Meter.credits,
      Meter.Fits, Meter.Serves]
    by_cases hfit : b.tokens.toNat + wholeTokens p.rate (p.time - b.lastUpdate.toNat) < 2 ^ 32
    · have hfit' : (b.tokens.toNat : ℤ) + (wholeTokens p.rate (p.time - b.lastUpdate.toNat) : ℤ) <
          2 ^ 32 := by exact_mod_cast hfit
      obtain ⟨hone, k, hentry, hk⟩ | ⟨hone, hentry⟩ := tokenBucketEntry_meter hle hfit
      · have hb' : (icmpStep p st).2.tokenBuckets A = some ⟨p.clk.icmp, k⟩ := by
          simp only [hnext, Table.alter_same, hb, hentry]
        have hrest := ih hb' hps hrates hclock'
        rw [hk] at hrest
        refine and_and_and_comm.trans (Iff.trans ?_ and_and_and_comm)
        exact and_congr (iff_of_true ⟨hfit, congrArg Prod.fst hentry⟩ ⟨hfit', hone⟩) hrest
      · rw [hentry]
        exact iff_of_false (fun h => by cases h.2.1) (fun h => hone h.2.1)
    · refine iff_of_false (fun h => hfit h.1.1) (fun h => hfit ?_)
      exact_mod_cast h.1.1

/-! ## Runs -/

/-- **When the filter passes what the exact bucket admits**, without a count that wraps: when, with
every refill rounded down, a full bucket and the refills inside every stretch of packets after the
first one pay for the packets of the stretch, and no refill comes to 2^32 tokens together with what
the packets before it leave. -/
theorem icmpConforms_iff {A R : U32} {ps : List IcmpPacket} (h : AdmittedRun A R ps) {st : Maps}
    (h0 : st.tokenBuckets A = none) :
    CountsFit st ps ∧ PassAll st ps ↔
      Meter.HasRoom (R.toNat : ℤ) (2 ^ 32) (refills R (ps.map IcmpPacket.time)) ∧
      Meter.Covers (R.toNat : ℤ) (refills R (ps.map IcmpPacket.time)) := by
  have hnonneg : ∀ g ∈ refills R (ps.map IcmpPacket.time), 0 ≤ g :=
    Meter.between_nonneg (fun d => Int.natCast_nonneg (wholeTokens R d)) _
  rw [← Meter.fits_full_iff, ← Meter.serves_full_iff hnonneg]
  obtain ⟨hfrom, hrate, hclock, -⟩ := h
  cases ps with
  | nil => simp [CountsFit, PassAll, refills, Meter.between, Meter.Fits, Meter.Serves]
  | cons p ps =>
    obtain ⟨hp, hps⟩ := List.forall_mem_cons.1 hfrom
    obtain ⟨rfl, hrates⟩ := List.forall_mem_cons.1 hrate
    have hfirst := icmpStep_eq hp st
    have hbucket : (icmpStep p st).2.tokenBuckets A = some ⟨p.clk.icmp, p.rate⟩ := by
      simp only [hfirst, Table.alter_same, h0, tokenBucketEntry]
    have hrest := passAll_iff_meter hbucket hps hrates hclock
    have hfits : CountFits p st := by
      intro b hb
      rw [hp.saddr, h0] at hb
      cases hb
    have hpass : (icmpStep p st).1 = .pass := by
      simp only [hfirst, Table.alter_fst, h0, tokenBucketEntry]
    rw [List.map_cons]
    simp only [CountsFit, PassAll, Trace.trace_cons, List.forall_mem_cons, hfits, hpass, true_and]
    exact hrest

/-- Packets one second apart. -/
def steady : List IcmpPacket := [0, 1000000000, 2000000000].map icmpAt

/-- Packets that come in pairs a quarter of a second apart, a pair every second. -/
def pairs : List IcmpPacket := [0, 750000000, 1000000000, 1750000000, 2000000000].map icmpAt

theorem admittedRun_icmpAt {ts : List U64} (hclock : (ts.map BitVec.toNat).Pairwise (· ≤ ·))
    (hadmitted : Meter.AdmitsAll (2 : ℚ) (exactRate 2) (ts.map BitVec.toNat)) :
    AdmittedRun 0x0100000a 2 (ts.map icmpAt) := by
  have htimes : (ts.map icmpAt).map IcmpPacket.time = ts.map BitVec.toNat := by
    rw [List.map_map]
    rfl
  exact
    { isFrom := List.forall_mem_map.2 fun now _ => icmpAt_isFrom now
      rate := List.forall_mem_map.2 fun _ _ => rfl
      clock := htimes ▸ hclock
      admitted := htimes ▸ hadmitted }

theorem icmpConforms_iff_steady : PassAll Maps.initial steady := by
  have hrun : AdmittedRun 0x0100000a 2 steady :=
    admittedRun_icmpAt (by decide) (by decide +kernel)
  have hrefills : refills 2 (steady.map IcmpPacket.time) = [2, 2] := by decide +kernel
  have hrate : ((2 : U32).toNat : ℤ) = 2 := rfl
  refine ((icmpConforms_iff hrun rfl).2 ⟨?_, ?_⟩).2 <;> rw [hrefills, hrate]
  · exact Meter.fits_full_iff.1 (by norm_num [Meter.Fits])
  · exact (Meter.serves_full_iff (by norm_num)).1 (by norm_num [Meter.Serves])

/-- The exact bucket admits them all, and the filter drops the fifth. -/
theorem icmpConforms_fails :
    AdmittedRun 0x0100000a 2 pairs ∧
      (Trace.trace icmpStep Maps.initial pairs).map Prod.snd = [.pass, .pass, .pass, .pass, .drop] ∧
      ¬ PassAll Maps.initial pairs := by
  have hverdicts : (Trace.trace icmpStep Maps.initial pairs).map Prod.snd =
      [.pass, .pass, .pass, .pass, .drop] := by decide +kernel
  refine ⟨admittedRun_icmpAt (by decide) (by decide +kernel), hverdicts, fun h => ?_⟩
  have hall : ∀ v ∈ (Trace.trace icmpStep Maps.initial pairs).map Prod.snd, v = .pass :=
    List.forall_mem_map.2 h
  rw [hverdicts] at hall
  exact absurd hall (by decide)

/-- If no refill is rounded, nothing that the exact bucket admits is dropped as long as no count
wraps. -/
theorem AdmittedRun.passAll_of_whole {A R : U32} {ps : List IcmpPacket} (h : AdmittedRun A R ps)
    {st : Maps} (h0 : st.tokenBuckets A = none)
    (hwhole : (refills R (ps.map IcmpPacket.time)).map Int.cast =
      Meter.between (fun d => exactRate R * d) (ps.map IcmpPacket.time))
    (hroom : Meter.HasRoom (R.toNat : ℤ) (2 ^ 32) (refills R (ps.map IcmpPacket.time))) :
    PassAll st ps := by
  have hexact := (Meter.admitsAll_iff (div_nonneg (Nat.cast_nonneg _) (by norm_num)) _).1 h.admitted
  have hcovers := hexact.mono (Meter.between_suffix _ 0 _).isInfix
  rw [← hwhole] at hcovers
  have hcap : ((R.toNat : ℤ) : ℚ) = (R.toNat : ℚ) := by push_cast; rfl
  rw [← hcap, Meter.covers_intCast] at hcovers
  exact ((icmpConforms_iff h h0).2 ⟨hroom, hcovers⟩).2

end Cyrenus
