import Cyrenus.Lib.Filed
import Cyrenus.Lib.Part
import Cyrenus.TrafficMonitor
import Cyrenus.Xdp.FlowTable
import Cyrenus.Xdp.Shared

/-!
# From the frames to the rates

The program counts every frame in the totals of its processor, whatever becomes of it
(`globalStats_recorded`), and the monitor thread reads the totals of all processors while frames
arrive (`meteredStep`). So what it reports in a turn are the frames between two turns
(`trafficReport_counts`).
-/

namespace Cyrenus

open Trace (final IsPart)

/-! ## The totals of a processor -/

/-- The processor and the length of a frame that the program counts. -/
def TableEvent.counted? : TableEvent → Option (ℕ × ℕ)
  | .frame _ f => if f.ctx.isCounted then some (f.ctx.cpu, f.ctx.data.length) else none
  | .evict _ => none

/-- What the program counts in a run. -/
def countedFrames (events : List TableEvent) : List (ℕ × ℕ) :=
  events.filterMap TableEvent.counted?

/-- The totals of some frames. -/
def GlobalStats.ofFrames (frames : List (ℕ × ℕ)) : GlobalStats :=
  ⟨BitVec.ofNat 64 frames.length, BitVec.ofNat 64 (frames.map Prod.snd).sum⟩

/-- More frames add to the totals. -/
theorem GlobalStats.ofFrames_append (l m : List (ℕ × ℕ)) :
    ofFrames (l ++ m) = (ofFrames l).add (ofFrames m) := by
  simp only [ofFrames, add, List.length_append, List.map_append, List.sum_append, BitVec.ofNat_add]

/-- The frames of a processor. -/
def onCpu (cpu : ℕ) (frames : List (ℕ × ℕ)) : List (ℕ × ℕ) := frames.filter (·.1 = cpu)

/-- **The totals of a processor** are those of its frames that were counted. -/
theorem globalStats_recorded (events : List TableEvent) (cpu : ℕ) :
    (recorded events).maps.globalStats cpu =
      GlobalStats.ofFrames (onCpu cpu (countedFrames events)) := by
  induction events using List.reverseRecOn with
  | nil => rfl
  | append_singleton events e ih =>
    rw [recorded, Trace.final_concat, ← recorded, countedFrames, List.filterMap_append,
      ← countedFrames, onCpu, List.filter_append, ← onCpu, GlobalStats.ofFrames_append, ← ih]
    have hzero (s : GlobalStats) : s.add (GlobalStats.ofFrames []) = s := by
      simp [GlobalStats.ofFrames, GlobalStats.add]
    cases e with
    | evict gone => exact (hzero _).symm
    | frame user f =>
      have hstats := congrArg Prod.snd (xdpStep_shared user f (recorded events).maps)
      change (xdpStep user f _).2.globalStats cpu = _
      rw [show (xdpStep user f (recorded events).maps).2.globalStats = _ from hstats, counted]
      rcases hcounted : f.ctx.isCounted with _ | _
      · simp [TableEvent.counted?, hcounted, hzero]
      · rcases eq_or_ne f.ctx.cpu cpu with rfl | hne
        · simp [TableEvent.counted?, hcounted, countFrame, GlobalStats.ofFrames, GlobalStats.add]
        · simp [TableEvent.counted?, hcounted, countFrame, hne, hne.symm, hzero]

/-! ## The totals of all processors -/

/-- What is added up processor by processor is added up over all frames. -/
theorem sum_onCpu {numCpus : ℕ} {frames : List (ℕ × ℕ)} (hcpu : ∀ p ∈ frames, p.1 < numCpus)
    (w : ℕ × ℕ → ℕ) :
    ((List.range numCpus).map fun cpu => ((onCpu cpu frames).map w).sum).sum =
      (frames.map w).sum :=
  List.sum_filed List.nodup_range (fun p hp => List.mem_range.2 (hcpu p hp)) w

/-- Totals of frames add up as their numbers do. -/
theorem sumTotals_ofFrames (parts : List (List (ℕ × ℕ))) :
    sumTotals (parts.map GlobalStats.ofFrames) =
      ⟨BitVec.ofNat 64 (parts.map List.length).sum,
        BitVec.ofNat 64 (parts.map fun part => (part.map Prod.snd).sum).sum⟩ := by
  induction parts using List.reverseRecOn with
  | nil => rfl
  | append_singleton parts part ih =>
    rw [sumTotals, List.map_append, List.foldl_append, ← sumTotals, ih]
    simp [GlobalStats.add, GlobalStats.ofFrames, BitVec.ofNat_add]

/-- **The totals of all processors** are those of all frames that were counted, on whichever of them
each frame has come. -/
theorem sumTotals_recorded {numCpus : ℕ} {events : List TableEvent}
    (hcpu : ∀ p ∈ countedFrames events, p.1 < numCpus) :
    sumTotals ((List.range numCpus).map (recorded events).maps.globalStats) =
      GlobalStats.ofFrames (countedFrames events) := by
  have hparts : (List.range numCpus).map (recorded events).maps.globalStats =
      ((List.range numCpus).map fun cpu => onCpu cpu (countedFrames events)).map
        GlobalStats.ofFrames := by
    rw [List.map_map]
    exact List.map_congr_left fun cpu _ => globalStats_recorded events cpu
  have hlength := sum_onCpu hcpu fun _ => 1
  simp only [List.map_const', List.sum_replicate_nat, Nat.mul_one] at hlength
  rw [hparts, sumTotals_ofFrames, List.map_map, List.map_map, GlobalStats.ofFrames, ← hlength,
    ← sum_onCpu hcpu Prod.snd]
  rfl

/-! ## The monitor thread beside the program -/

/-- Something happens to the maps, or the thread takes a turn: what its lookup returns, and the
time. -/
inductive MeterEvent where
  | table (e : TableEvent)
  | turn (lookup time : ℤ)

/-- The maps and what the thread keeps. -/
structure Metered where
  recorded : Recorded
  monitor : MonitorState

/-- What the thread finds in a turn. -/
def sampleOf (numCpus : ℕ) (lookup time : ℤ) (st : Maps) : Sample :=
  ⟨(List.range numCpus).map st.globalStats, lookup, time⟩

/-- One event: the report, if it is a turn. -/
def meteredStep (globalStatsFd : ℤ) (numCpus : ℕ) : MeterEvent → Metered →
    Option TrafficReport × Metered
  | .table e, m => (none, { m with recorded := (recordedStep e m.recorded).2 })
  | .turn lookup time, m =>
    let r := monitorTurn globalStatsFd (sampleOf numCpus lookup time m.recorded.maps) m.monitor
    (some r.1, { m with monitor := r.2 })

/-- The daemon and the program have just started. -/
def Metered.initial : Metered := ⟨Recorded.initial, {}⟩

/-- What happens to the maps at an event. -/
def MeterEvent.table? : MeterEvent → Option TableEvent
  | .table e => some e
  | .turn .. => none

/-- What happens to the maps in a run. -/
def tableEvents (events : List MeterEvent) : List TableEvent :=
  events.filterMap MeterEvent.table?

section

variable (globalStatsFd : ℤ) (numCpus : ℕ)

/-- The maps go through what happens to them. -/
theorem recorded_metered (events : List MeterEvent) :
    (final (meteredStep globalStatsFd numCpus) Metered.initial events).recorded =
      recorded (tableEvents events) := by
  have hpart : IsPart (meteredStep globalStatsFd numCpus) Metered.recorded
      (fun e _ => e.table?) fun e r => (recordedStep e r).2 := by
    rintro (e | ⟨lookup, time⟩) m <;> rfl
  rw [hpart.view_final_eq]
  exact congrArg (final recordedStep Recorded.initial)
    (@Trace.selected_eq_filterMap _ _ _ _ _ _ MeterEvent.table? (fun _ _ => rfl) _ events)

variable {globalStatsFd numCpus}

/-- What a turn finds after some events: the totals of the frames that were counted. -/
theorem taken_sampleOf (hfd : 0 ≤ globalStatsFd) {events : List TableEvent}
    (hcpu : ∀ p ∈ countedFrames events, p.1 < numCpus) (time : ℤ) (st : MonitorState) :
    (monitorTurn globalStatsFd (sampleOf numCpus 0 time (recorded events).maps) st).2 =
      ⟨BitVec.ofNat 64 (countedFrames events).length,
        BitVec.ofNat 64 ((countedFrames events).map Prod.snd).sum⟩ := by
  have hsampled : (sampleOf numCpus 0 time (recorded events).maps).Sampled globalStatsFd :=
    ⟨hfd, rfl⟩
  have hsum : sumTotals (sampleOf numCpus 0 time (recorded events).maps).values = _ :=
    sumTotals_recorded hcpu
  simp only [monitorTurn, if_pos hsampled, hsum, GlobalStats.ofFrames]

/-- While the thread sleeps it keeps what it has. -/
theorem monitor_between (m : Metered) (between : List TableEvent) :
    (final (meteredStep globalStatsFd numCpus) m (between.map .table)).monitor = m.monitor := by
  induction between generalizing m with
  | nil => rfl
  | cons e between ih => exact ih _

/-- What a turn reports, by what it keeps. -/
theorem monitorTurn_fst (s : Sample) (st : MonitorState) :
    let st' := (monitorTurn globalStatsFd s st).2
    (monitorTurn globalStatsFd s st).1 = {
      timestamp := s.time
      pps := if 0 < st.prevPackets then (st'.prevPackets - st.prevPackets).setWidth 32 else 0
      bps := if 0 < st.prevBytes then (st'.prevBytes - st.prevBytes) * 8 else 0
      totalPackets := st'.prevPackets
      totalBytes := st'.prevBytes } := rfl

/-- What is rated of a total that grows. -/
theorem rate_ofNat {n : ℕ} {α : Type} (rate : U64 → α) (zero : α) (d : ℕ) :
    (if 0 < BitVec.ofNat 64 n then rate (BitVec.ofNat 64 (n + d) - BitVec.ofNat 64 n) else zero) =
      if n % 2 ^ 64 = 0 then zero else rate (BitVec.ofNat 64 d) := by
  have hpos : 0 < BitVec.ofNat 64 n ↔ ¬ n % 2 ^ 64 = 0 := by
    rw [BitVec.lt_def, BitVec.toNat_ofNat]
    exact Nat.pos_iff_ne_zero
  have hsub : BitVec.ofNat 64 (n + d) - BitVec.ofNat 64 n = BitVec.ofNat 64 d := by
    rw [BitVec.ofNat_add, BitVec.add_comm, BitVec.add_sub_cancel]
  rw [hsub]
  split_ifs with h h' <;> simp_all

/-- **What the thread reports.** In every run a turn that follows another one, both with lookups
that succeed, reports the frames counted between the two turns, on any processor and with any
verdict, and the totals of the whole run; but no rate where the total before is zero. Numbers are
cut to the width of their fields. -/
theorem trafficReport_counts (hfd : 0 ≤ globalStatsFd) (pre : List MeterEvent)
    (between : List TableEvent) (time₁ time₂ : ℤ)
    (hcpu : ∀ p ∈ countedFrames (tableEvents pre ++ between), p.1 < numCpus) :
    let count (events : List TableEvent) := (countedFrames events).length
    let bytes (events : List TableEvent) := ((countedFrames events).map Prod.snd).sum
    let run := pre ++ .turn 0 time₁ :: between.map .table
    (meteredStep globalStatsFd numCpus (.turn 0 time₂)
        (final (meteredStep globalStatsFd numCpus) Metered.initial run)).1 =
      some {
        timestamp := time₂
        pps := if count (tableEvents pre) % 2 ^ 64 = 0 then 0 else BitVec.ofNat 32 (count between)
        bps := if bytes (tableEvents pre) % 2 ^ 64 = 0 then 0
          else BitVec.ofNat 64 (8 * bytes between)
        totalPackets := BitVec.ofNat 64 (count (tableEvents pre) + count between)
        totalBytes := BitVec.ofNat 64 (bytes (tableEvents pre) + bytes between) } := by
  intro count bytes run
  have hpre := taken_sampleOf hfd
    (fun p hp => hcpu p (by
      rw [countedFrames, List.filterMap_append]
      exact List.mem_append_left _ hp)) time₁
    (final (meteredStep globalStatsFd numCpus) Metered.initial pre).monitor
  have hkept : (final (meteredStep globalStatsFd numCpus) Metered.initial run).monitor =
      ⟨BitVec.ofNat 64 (count (tableEvents pre)), BitVec.ofNat 64 (bytes (tableEvents pre))⟩ := by
    rw [show run = pre ++ .turn 0 time₁ :: between.map .table from rfl, Trace.final_append,
      Trace.final_cons, monitor_between, ← hpre, ← recorded_metered globalStatsFd numCpus]
    rfl
  have hevents : tableEvents run = tableEvents pre ++ between := by
    simp only [tableEvents, run, List.filterMap_append, List.filterMap_cons, MeterEvent.table?,
      List.filterMap_map]
    exact congrArg _ List.filterMap_some
  have hnow := taken_sampleOf hfd hcpu time₂
    (final (meteredStep globalStatsFd numCpus) Metered.initial run).monitor
  have hcounts : (countedFrames (tableEvents pre ++ between)).length =
      count (tableEvents pre) + count between := by
    rw [countedFrames, List.filterMap_append, List.length_append]
    rfl
  have hbytes : ((countedFrames (tableEvents pre ++ between)).map Prod.snd).sum =
      bytes (tableEvents pre) + bytes between := by
    rw [countedFrames, List.filterMap_append, List.map_append, List.sum_append]
    rfl
  rw [hcounts, hbytes, hkept] at hnow
  simp only [meteredStep, recorded_metered, hevents, hkept, monitorTurn_fst, hnow]
  have hpps := @rate_ofNat (count (tableEvents pre)) _ (BitVec.setWidth 32) 0 (count between)
  have hbps := @rate_ofNat (bytes (tableEvents pre)) _ (· * 8) 0 (bytes between)
  rw [hpps, hbps, BitVec.setWidth_ofNat_of_le (by decide), Nat.mul_comm 8, BitVec.ofNat_mul]
  rfl

end

/-- A segment of a connection that arrives at the first processor. -/
def monitoredSegment : TableEvent :=
  .frame UserMaps.initial ⟨.still 5, ipv4Frame IPPROTO_TCP [10, 0, 0, 1] [10, 0, 0, 2]
    ([0, 80, 31, 144, 0, 0, 0, 0, 0, 0, 0, 0, 0x50, 0x10] ++ List.replicate 6 0), 0⟩

theorem trafficReport_counts_segments :
    let run := [.table monitoredSegment] ++
      .turn 0 7 :: [monitoredSegment, monitoredSegment].map .table
    (meteredStep 3 1 (.turn 0 8) (final (meteredStep 3 1) Metered.initial run)).1 =
      some ⟨8, 2, 864, 3, 162⟩ := by
  have hreport := trafficReport_counts (by decide : (0 : ℤ) ≤ 3) [.table monitoredSegment]
    [monitoredSegment, monitoredSegment] 7 8
    (by decide +kernel : ∀ p ∈ countedFrames _, p.1 < 1)
  exact hreport.trans (by decide +kernel)

end Cyrenus
