import Cyrenus.Lib.Rates
import Cyrenus.Lib.Trace
import Cyrenus.WebSocket
import Mathlib.Algebra.Order.BigOperators.Group.List
import Mathlib.Algebra.GroupWithZero.Nat
import Mathlib.Algebra.Order.Group.Nat

/-!
# The traffic monitor

`monitor_thread` adds up the totals of the processors once a second and reports by how much they
have grown. It takes a total of zero for the total it does not have yet, and a failed lookup leaves
it with totals of zero. `telescopes_iff` says in which runs no rate is above the growth it reports
and the rates add up to it.
-/

namespace Cyrenus

/-- What the thread finds in one turn: the totals of the processors, what `bpf_map_lookup_elem`
returns, and the time. -/
structure Sample where
  values : List GlobalStats
  lookup : ℤ
  time : ℤ

/-- What the thread keeps from one turn to the next. -/
structure MonitorState where
  prevPackets : U64 := 0
  prevBytes : U64 := 0

/-- The numbers of a message. -/
structure TrafficReport where
  timestamp : ℤ
  pps : U32
  bps : U64
  totalPackets : U64
  totalBytes : U64
  deriving DecidableEq, Repr

/-- Add the totals of a processor to those of the ones before it. -/
def GlobalStats.add (total v : GlobalStats) : GlobalStats :=
  ⟨total.totalPackets + v.totalPackets, total.totalBytes + v.totalBytes⟩

/-- The sums over the processors. -/
def sumTotals (values : List GlobalStats) : GlobalStats := values.foldl GlobalStats.add ⟨0, 0⟩

/-- The lookup is made, and it succeeds. -/
def Sample.Sampled (globalStatsFd : ℤ) (s : Sample) : Prop := 0 ≤ globalStatsFd ∧ s.lookup = 0

instance (globalStatsFd : ℤ) (s : Sample) : Decidable (s.Sampled globalStatsFd) :=
  inferInstanceAs (Decidable (_ ∧ _))

/-- One turn of the loop of `monitor_thread`. -/
def monitorTurn (globalStatsFd : ℤ) (s : Sample) (st : MonitorState) :
    TrafficReport × MonitorState :=
  let total := if s.Sampled globalStatsFd then sumTotals s.values else ⟨0, 0⟩
  let pps := if 0 < st.prevPackets then (total.totalPackets - st.prevPackets).setWidth 32 else 0
  let bps := if 0 < st.prevBytes then (total.totalBytes - st.prevBytes) * 8 else 0
  (⟨s.time, pps, bps, total.totalPackets, total.totalBytes⟩,
    ⟨total.totalPackets, total.totalBytes⟩)

/-- The reports of a run. -/
def reports (globalStatsFd : ℤ) (samples : List Sample) : List TrafficReport :=
  (Trace.trace (monitorTurn globalStatsFd) {} samples).map Prod.snd

/-- `monitor_thread`: the messages that it broadcasts. -/
def monitorThread (globalStatsFd : ℤ) (samples : List Sample) : List CStr :=
  (reports globalStatsFd samples).map fun r =>
    trafficUpdate r.timestamp r.pps r.bps r.totalPackets r.totalBytes

/-- What the thread broadcasts are messages of the program. -/
theorem monitorThread_programMessage (globalStatsFd : ℤ) (samples : List Sample) :
    ∀ msg ∈ monitorThread globalStatsFd samples, ProgramMessage msg := by
  intro msg hmsg
  obtain ⟨r, -, rfl⟩ := List.mem_map.1 hmsg
  exact .traffic ..

/-! ## The true totals -/

/-- The packets that the processors have counted. -/
def Sample.packets (s : Sample) : ℕ := (s.values.map (·.totalPackets.toNat)).sum

/-- The bytes that the processors have counted. -/
def Sample.bytes (s : Sample) : ℕ := (s.values.map (·.totalBytes.toNat)).sum

/-- The totals of no processor decrease from one sample to the next. -/
def Grows (s t : Sample) : Prop :=
  List.Forall₂ (fun v w : GlobalStats =>
    v.totalPackets.toNat ≤ w.totalPackets.toNat ∧ v.totalBytes.toNat ≤ w.totalBytes.toNat)
    s.values t.values

/-- The samples of counters: the totals grow, and stay below 2^32 packets. -/
structure Counted (samples : List Sample) : Prop where
  grows : samples.IsChain Grows
  packets_lt : ∀ s ∈ samples, s.packets < 2 ^ 32

variable (globalStatsFd : ℤ)

/-- The totals that the thread has sampled. -/
def sampledPackets (samples : List Sample) : List ℕ :=
  (samples.filter (·.Sampled globalStatsFd)).map Sample.packets

/-- The report on a sample that comes after others. -/
def reportAfter (pre : List Sample) (s : Sample) : TrafficReport :=
  (monitorTurn globalStatsFd s (Trace.final (monitorTurn globalStatsFd) {} pre)).1

/-- How much a total has grown at a sample since the last one before it that succeeded. -/
def growth (total : Sample → ℕ) (pre : List Sample) (s : Sample) : ℕ :=
  match (pre.filter (·.Sampled globalStatsFd)).getLast? with
  | none => 0
  | some last => total s - total last

/-- The rates telescope: none is above the growth it reports, and they add up to the growth of the
total from the first one sampled to the last. -/
structure Telescopes (samples : List Sample) : Prop where
  pps_le : ∀ pre s, pre ++ [s] <+: samples →
    (reportAfter globalStatsFd pre s).pps.toNat ≤ growth globalStatsFd Sample.packets pre s
  bps_le : ∀ pre s, pre ++ [s] <+: samples →
    (reportAfter globalStatsFd pre s).bps.toNat ≤ 8 * growth globalStatsFd Sample.bytes pre s
  sum_pps : ((reports globalStatsFd samples).map (·.pps.toNat)).sum =
    (sampledPackets globalStatsFd samples).getLastD 0 -
      (sampledPackets globalStatsFd samples).headD 0

/-- A lookup that fails after one that succeeded does no harm: that one found no packet, and the
bytes it found, if any, are not above the growth when they are taken from zero. -/
def Harmless (s t : Sample) : Prop :=
  s.Sampled globalStatsFd → ¬ t.Sampled globalStatsFd →
    s.packets = 0 ∧ (-8 * s.bytes : ℤ) % 2 ^ 64 ≤ 8 * (t.bytes - s.bytes : ℕ)

/-! ## What one turn does -/

/-- What the thread takes a total for: zero, if the lookup fails. -/
def taken (total : Sample → ℕ) (s : Sample) : ℕ := if s.Sampled globalStatsFd then total s else 0

/-- The sums are those of the totals, cut to 64 bits. -/
theorem toNat_foldl_add (values : List GlobalStats) (total : GlobalStats) :
    (values.foldl .add total).totalPackets.toNat =
        (total.totalPackets.toNat + (values.map (·.totalPackets.toNat)).sum) % 2 ^ 64 ∧
      (values.foldl .add total).totalBytes.toNat =
        (total.totalBytes.toNat + (values.map (·.totalBytes.toNat)).sum) % 2 ^ 64 := by
  induction values generalizing total with
  | nil => exact ⟨(Nat.mod_eq_of_lt total.totalPackets.isLt).symm,
      (Nat.mod_eq_of_lt total.totalBytes.isLt).symm⟩
  | cons v values ih =>
    obtain ⟨hpackets, hbytes⟩ := ih (total.add v)
    rw [List.foldl_cons, hpackets, hbytes, List.map_cons, List.sum_cons, List.map_cons,
      List.sum_cons, GlobalStats.add, BitVec.toNat_add, BitVec.toNat_add, Nat.mod_add_mod,
      Nat.mod_add_mod, Nat.add_assoc, Nat.add_assoc]
    exact ⟨rfl, rfl⟩

theorem toNat_sumTotals (s : Sample) :
    (sumTotals s.values).totalPackets.toNat = s.packets % 2 ^ 64 ∧
      (sumTotals s.values).totalBytes.toNat = s.bytes % 2 ^ 64 := by
  have hsums := toNat_foldl_add s.values ⟨0, 0⟩
  have hzero : (0 : U64).toNat = 0 := rfl
  simp only [hzero, Nat.zero_add] at hsums
  exact hsums

variable {globalStatsFd}

/-- What a turn keeps. -/
theorem monitorTurn_prev (s : Sample) (st : MonitorState) :
    (monitorTurn globalStatsFd s st).2.prevPackets.toNat =
        taken globalStatsFd Sample.packets s % 2 ^ 64 ∧
      (monitorTurn globalStatsFd s st).2.prevBytes.toNat =
        taken globalStatsFd Sample.bytes s % 2 ^ 64 := by
  simp only [monitorTurn, taken]
  by_cases hs : s.Sampled globalStatsFd
  · simp only [if_pos hs]
    exact toNat_sumTotals s
  · simp only [if_neg hs]
    exact ⟨rfl, rfl⟩

/-- What a turn reports of packets: the difference of two totals, cut to 32 bits. -/
theorem monitorTurn_pps {s : Sample} {st : MonitorState} (hlt : st.prevPackets.toNat < 2 ^ 32) :
    (monitorTurn globalStatsFd s st).1.pps.toNat =
      if 0 < st.prevPackets.toNat then
        (taken globalStatsFd Sample.packets s + 2 ^ 32 - st.prevPackets.toNat) % 2 ^ 32
      else 0 := by
  have hnow := (@monitorTurn_prev globalStatsFd s st).1
  have hdef : (monitorTurn globalStatsFd s st).1.pps = if 0 < st.prevPackets then
      ((monitorTurn globalStatsFd s st).2.prevPackets - st.prevPackets).setWidth 32 else 0 := rfl
  have hpos : 0 < st.prevPackets ↔ 0 < st.prevPackets.toNat := BitVec.lt_def
  rw [hdef]
  by_cases h : 0 < st.prevPackets
  · rw [if_pos h, if_pos (hpos.1 h), BitVec.toNat_setWidth, BitVec.toNat_sub, hnow]
    omega
  · rw [if_neg h, if_neg (mt hpos.2 h)]
    rfl

/-- What a turn reports of bytes: eight times the difference of two totals, cut to 64 bits. -/
theorem monitorTurn_bps {s : Sample} {st : MonitorState} {prev : ℕ}
    (hprev : st.prevBytes.toNat = prev % 2 ^ 64) :
    ((monitorTurn globalStatsFd s st).1.bps.toNat : ℤ) =
      if 0 < st.prevBytes.toNat then
        8 * ((taken globalStatsFd Sample.bytes s : ℤ) - prev) % 2 ^ 64
      else 0 := by
  have hnow := (@monitorTurn_prev globalStatsFd s st).2
  have hdef : (monitorTurn globalStatsFd s st).1.bps = if 0 < st.prevBytes then
      ((monitorTurn globalStatsFd s st).2.prevBytes - st.prevBytes) * 8 else 0 := rfl
  have hpos : 0 < st.prevBytes ↔ 0 < st.prevBytes.toNat := BitVec.lt_def
  have height : (8 : U64).toNat = 8 := rfl
  rw [hdef]
  by_cases h : 0 < st.prevBytes
  · rw [if_pos h, if_pos (hpos.1 h), BitVec.toNat_mul, BitVec.toNat_sub, hnow, hprev, height]
    omega
  · rw [if_neg h, if_neg (mt hpos.2 h)]
    rfl

/-- A run keeps what its last turn took the totals for. -/
theorem final_prev (pre : List Sample) (s : Sample) :
    let st := Trace.final (monitorTurn globalStatsFd) {} (pre ++ [s])
    st.prevPackets.toNat = taken globalStatsFd Sample.packets s % 2 ^ 64 ∧
      st.prevBytes.toNat = taken globalStatsFd Sample.bytes s % 2 ^ 64 := by
  intro st
  rw [show st = (monitorTurn globalStatsFd s _).2 from Trace.final_concat ..]
  exact monitorTurn_prev ..

/-! ## The rates and the growth -/

theorem Grows.packets_le {s t : Sample} (h : Grows s t) : s.packets ≤ t.packets :=
  List.Forall₂.sum_le_sum (List.forall₂_map_left_iff.2 <| List.forall₂_map_right_iff.2 <|
    h.imp fun _ _ => And.left)

theorem Grows.bytes_le {s t : Sample} (h : Grows s t) : s.bytes ≤ t.bytes :=
  List.Forall₂.sum_le_sum (List.forall₂_map_left_iff.2 <| List.forall₂_map_right_iff.2 <|
    h.imp fun _ _ => And.right)

/-- After a sample that succeeded the growth is that since this one. -/
theorem growth_concat {total : Sample → ℕ} {pre : List Sample} {p s : Sample}
    (hp : p.Sampled globalStatsFd) :
    growth globalStatsFd total (pre ++ [p]) s = total s - total p := by
  simp [growth, List.filter_append, hp]

variable (globalStatsFd) in
/-- The rates that a turn reports are at most the growth. -/
def Rated (pre : List Sample) (s : Sample) : Prop :=
  (reportAfter globalStatsFd pre s).pps.toNat ≤ growth globalStatsFd Sample.packets pre s ∧
    (reportAfter globalStatsFd pre s).bps.toNat ≤ 8 * growth globalStatsFd Sample.bytes pre s

/-- After no sample nothing is reported. -/
theorem rated_nil (s : Sample) : Rated globalStatsFd [] s := ⟨Nat.zero_le _, Nat.zero_le _⟩

/-- After a failed lookup nothing is reported. -/
theorem rated_of_not_sampled {pre : List Sample} {p : Sample} (hp : ¬ p.Sampled globalStatsFd)
    (s : Sample) : Rated globalStatsFd (pre ++ [p]) s := by
  obtain ⟨hpackets, hbytes⟩ := @final_prev globalStatsFd pre p
  rw [taken, if_neg hp] at hpackets hbytes
  have hpps := @monitorTurn_pps globalStatsFd s _ (by rw [hpackets]; decide)
  have hbps := @monitorTurn_bps globalStatsFd s _ 0 hbytes
  rw [if_neg (by rw [hpackets]; decide)] at hpps
  rw [if_neg (by rw [hbytes]; decide)] at hbps
  exact ⟨by rw [reportAfter]; omega, by rw [reportAfter]; omega⟩

/-- After a sample that succeeded the rates are at most the growth if the lookup succeeds again, or
fails and does no harm. -/
theorem rated_iff_of_sampled {pre : List Sample} {p s : Sample} (hp : p.Sampled globalStatsFd)
    (hgrows : Grows p s) (hlt : s.packets < 2 ^ 32) :
    Rated globalStatsFd (pre ++ [p]) s ↔ Harmless globalStatsFd p s := by
  obtain ⟨hpackets, hbytes⟩ := @final_prev globalStatsFd pre p
  have hle := hgrows.packets_le
  have hbytesLe := hgrows.bytes_le
  rw [taken, if_pos hp, Nat.mod_eq_of_lt (by omega)] at hpackets
  rw [taken, if_pos hp] at hbytes
  have hpps := @monitorTurn_pps globalStatsFd s _ (by rw [hpackets]; omega)
  have hbps := @monitorTurn_bps globalStatsFd s _ p.bytes hbytes
  rw [hpackets] at hpps
  rw [hbytes] at hbps
  rw [Rated, growth_concat hp, growth_concat hp, reportAfter, hpps, Harmless, imp_iff_right hp]
  by_cases hs : s.Sampled globalStatsFd
  · refine iff_of_true ⟨?_, ?_⟩ fun hns => absurd hs hns
    · rw [taken, if_pos hs]
      split <;> omega
    · rw [taken, if_pos hs] at hbps
      split at hbps <;> omega
  · rw [imp_iff_right hs, taken, if_neg hs]
    rw [taken, if_neg hs] at hbps
    refine and_congr ?_ ?_
    · split <;> omega
    · split at hbps <;> omega

/-- **When the rates stay below the growth**: when no lookup that fails does harm. -/
theorem rated_iff {samples : List Sample} (h : Counted samples) :
    (∀ pre s, pre ++ [s] <+: samples → Rated globalStatsFd pre s) ↔
      samples.IsChain (Harmless globalStatsFd) := by
  rw [Trace.isChain_iff_concat_prefix]
  refine forall₃_congr fun pre s hpre => ?_
  have hlt := h.packets_lt s (hpre.subset (by simp))
  induction pre using List.reverseRecOn with
  | nil => exact iff_of_true (rated_nil s) (by intro p hp; cases hp)
  | append_singleton pre p =>
    have hgrows := Trace.isChain_iff_concat_prefix.1 h.grows _ s hpre p (by simp)
    simp only [List.getLast?_append, List.getLast?_singleton, Option.some_or, Option.mem_def,
      Option.some.injEq, forall_eq']
    by_cases hp : p.Sampled globalStatsFd
    · exact rated_iff_of_sampled hp hgrows hlt
    · exact iff_of_true (rated_of_not_sampled hp s) fun hp' => absurd hp' hp

/-! ## The sum of the rates -/

theorem taken_lt {samples : List Sample} (h : Counted samples) :
    ∀ s ∈ samples, taken globalStatsFd Sample.packets s < 2 ^ 32 := by
  intro s hs
  have := h.packets_lt s hs
  rw [taken]
  split <;> omega

/-- Without harm the readings do not decrease. -/
theorem readings_isChain {samples : List Sample} (h : Counted samples)
    (hharm : samples.IsChain (Harmless globalStatsFd)) :
    (samples.map (taken globalStatsFd Sample.packets)).IsChain (· ≤ ·) := by
  rw [List.isChain_map, Trace.isChain_iff_concat_prefix]
  intro pre t hpre s hs
  have hle := (Trace.isChain_iff_concat_prefix.1 h.grows pre t hpre s hs).packets_le
  have hst := Trace.isChain_iff_concat_prefix.1 hharm pre t hpre s hs
  rw [taken, taken]
  by_cases hs : s.Sampled globalStatsFd
  · by_cases ht : t.Sampled globalStatsFd
    · rwa [if_pos hs, if_pos ht]
    · rw [if_pos hs, (hst hs ht).1]
      exact Nat.zero_le _
  · rw [if_neg hs]
    exact Nat.zero_le _

/-- **The thread is a rate meter** while its readings do not decrease. -/
theorem pps_eq_rates {samples : List Sample} {st : MonitorState}
    (hlt : ∀ s ∈ samples, taken globalStatsFd Sample.packets s < 2 ^ 32)
    (hprev : st.prevPackets.toNat < 2 ^ 32)
    (hchain : (st.prevPackets.toNat ::
      samples.map (taken globalStatsFd Sample.packets)).IsChain (· ≤ ·)) :
    (Trace.trace (monitorTurn globalStatsFd) st samples).map (·.2.pps.toNat) =
      Rates.rates st.prevPackets.toNat (samples.map (taken globalStatsFd Sample.packets)) := by
  induction samples generalizing st with
  | nil => rfl
  | cons s samples ih =>
    obtain ⟨hs, hlt⟩ := List.forall_mem_cons.1 hlt
    obtain ⟨hle, hchain⟩ := List.isChain_cons_cons.1 hchain
    have hnext := (@monitorTurn_prev globalStatsFd s st).1
    rw [Nat.mod_eq_of_lt (by omega)] at hnext
    rw [Trace.trace_cons, List.map_cons, List.map_cons, Rates.rates, monitorTurn_pps hprev,
      ih hlt (by rw [hnext]; exact hs) (by rw [hnext]; exact hchain), hnext]
    congr 1
    split <;> omega

/-- The failed lookups are zeros among the readings. -/
theorem firstNonzero_readings (samples : List Sample) :
    Rates.firstNonzero (samples.map (taken globalStatsFd Sample.packets)) =
      Rates.firstNonzero (sampledPackets globalStatsFd samples) := by
  induction samples with
  | nil => rfl
  | cons s samples ih =>
    rw [sampledPackets] at ih ⊢
    rw [List.map_cons, Rates.firstNonzero, ih, taken]
    by_cases hs : s.Sampled globalStatsFd
    · rw [if_pos hs, List.filter_cons_of_pos (by simpa using hs), List.map_cons,
        Rates.firstNonzero]
    · rw [if_neg hs, List.filter_cons_of_neg (by simpa using hs), if_neg (Nat.lt_irrefl 0)]

/-- If the readings do not decrease, the last one is the last total sampled: a failed lookup at the
end comes after nothing but zeros. -/
theorem getLastD_readings {samples : List Sample}
    (h : (samples.map (taken globalStatsFd Sample.packets)).IsChain (· ≤ ·)) :
    (samples.map (taken globalStatsFd Sample.packets)).getLastD 0 =
      (sampledPackets globalStatsFd samples).getLastD 0 := by
  induction samples using List.reverseRecOn with
  | nil => rfl
  | append_singleton samples s ih =>
    rw [List.map_append, List.isChain_append] at h
    obtain ⟨hinit, -, hlast⟩ := h
    rw [List.map_append, List.map_singleton, List.getLastD_concat, sampledPackets,
      List.filter_append, List.map_append]
    by_cases hs : s.Sampled globalStatsFd
    · simp [taken, hs]
    · rw [taken, if_neg hs, List.filter_cons_of_neg (by simpa using hs), List.filter_nil,
        List.map_nil, List.append_nil, ← sampledPackets, ← ih hinit, List.getLastD_eq_getLast?]
      cases hl : (samples.map (taken globalStatsFd Sample.packets)).getLast? with
      | none => rfl
      | some x =>
        have hle := hlast x hl (taken globalStatsFd Sample.packets s) (by simp)
        rw [taken, if_neg hs] at hle
        exact (Nat.le_zero.1 hle).symm

/-- What the rates add up to: the last total sampled, less the first one that is not zero. -/
theorem sum_pps_add {samples : List Sample} (h : Counted samples)
    (hharm : samples.IsChain (Harmless globalStatsFd)) :
    ((reports globalStatsFd samples).map (·.pps.toNat)).sum +
        Rates.firstNonzero (sampledPackets globalStatsFd samples) =
      (sampledPackets globalStatsFd samples).getLastD 0 := by
  have hchain := readings_isChain h hharm
  have hzero : (0 :: samples.map (taken globalStatsFd Sample.packets)).IsChain (· ≤ ·) :=
    List.isChain_cons.2 ⟨fun _ _ => Nat.zero_le _, hchain⟩
  have hrates := @pps_eq_rates globalStatsFd samples {} (taken_lt h) (by decide) hzero
  rw [← firstNonzero_readings, ← getLastD_readings hchain, ← Rates.sum_rates_add_firstNonzero hzero,
    reports, List.map_map]
  exact congrArg (·.sum + _) hrates

/-- **When the rates add up to the growth**: when the first total sampled is not zero, or the last
one is zero too. -/
theorem sum_pps_iff {samples : List Sample} (h : Counted samples)
    (hharm : samples.IsChain (Harmless globalStatsFd)) :
    ((reports globalStatsFd samples).map (·.pps.toNat)).sum =
        (sampledPackets globalStatsFd samples).getLastD 0 -
          (sampledPackets globalStatsFd samples).headD 0 ↔
      ((sampledPackets globalStatsFd samples).headD 0 = 0 →
        (sampledPackets globalStatsFd samples).getLastD 0 = 0) := by
  have hsum := sum_pps_add h hharm
  cases hl : sampledPackets globalStatsFd samples with
  | nil =>
    rw [hl] at hsum
    simpa [Rates.firstNonzero] using hsum
  | cons x xs =>
    rw [hl] at hsum
    rw [List.headD_cons]
    rcases Nat.eq_zero_or_pos x with rfl | hx
    · rw [imp_iff_right rfl, Nat.sub_zero]
      constructor
      · intro heq
        have hfirst : Rates.firstNonzero (0 :: xs) = 0 := by omega
        rw [List.getLastD_cons]
        exact Rates.firstNonzero_eq_zero_iff.1 hfirst _ List.getLastD_mem_cons
      · intro hzero
        omega
    · rw [Rates.firstNonzero, if_pos hx] at hsum
      exact iff_of_true (by omega) fun hzero => by omega

/-- **When the rates telescope**: when no lookup that fails does harm, and the first total sampled
is not zero unless the last one is. -/
theorem telescopes_iff (globalStatsFd : ℤ) (samples : List Sample) (h : Counted samples) :
    Telescopes globalStatsFd samples ↔
      samples.IsChain (Harmless globalStatsFd) ∧
        ((sampledPackets globalStatsFd samples).headD 0 = 0 →
          (sampledPackets globalStatsFd samples).getLastD 0 = 0) := by
  constructor
  · rintro ⟨hpps, hbps, hsum⟩
    have hharm := (rated_iff h).1 fun pre s hpre => ⟨hpps pre s hpre, hbps pre s hpre⟩
    exact ⟨hharm, (sum_pps_iff h hharm).1 hsum⟩
  · rintro ⟨hharm, hfirst⟩
    have hrated := (rated_iff h).2 hharm
    exact ⟨fun pre s hpre => (hrated pre s hpre).1, fun pre s hpre => (hrated pre s hpre).2,
      (sum_pps_iff h hharm).2 hfirst⟩

/-- A sample of one processor. -/
def oneCpu (packets bytes : U64) (lookup : ℤ) : Sample := ⟨[⟨packets, bytes⟩], lookup, 0⟩

/-- The packets between a total of zero and the next one are never reported. -/
theorem telescopes_fails :
    ¬ ∀ (globalStatsFd : ℤ) (samples : List Sample), Counted samples →
      Telescopes globalStatsFd samples := by
  intro h
  have hsum := (h 3 [oneCpu 0 0 0, oneCpu 100 6400 0]
    ⟨.cons_cons (.cons (by decide) .nil) (.singleton _), by decide⟩).sum_pps
  exact absurd hsum (by decide)

theorem telescopes_iff_steady :
    let samples := [oneCpu 100 6400 0, oneCpu 250 16000 0]
    Telescopes 3 samples ↔
      samples.IsChain (Harmless 3) ∧
        ((sampledPackets 3 samples).headD 0 = 0 → (sampledPackets 3 samples).getLastD 0 = 0) :=
  telescopes_iff 3 [oneCpu 100 6400 0, oneCpu 250 16000 0]
    ⟨.cons_cons (.cons (by decide) .nil) (.singleton _), by decide⟩

end Cyrenus
