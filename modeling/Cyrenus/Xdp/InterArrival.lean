import Cyrenus.Xdp.FlowHistory

/-!
# Inter-arrival sums

A record adds up the times between its frames, once over all and once for each direction. The gaps
telescope to the life of the flow (`flowOf_gaps`), but they are added up in 32 bits, of nanoseconds:
the sums are exact as long as the flow lives less than some four seconds (`iatExact_iff`).
-/

namespace Cyrenus

/-- The gap between two times, as it is added to a 32-bit sum. -/
theorem gap_eq_ofNat {last now : U64} (h : last ≤ now) :
    (now - last).setWidth 32 = BitVec.ofNat 32 (now.toNat - last.toNat) := by
  apply BitVec.eq_of_toNat_eq
  rw [BitVec.toNat_setWidth, BitVec.toNat_ofNat, BitVec.toNat_sub_of_le h]

/-- The record of a history has added up gaps of `fwd` nanoseconds forward and of `bwd` nanoseconds
backward, which together are the life of the flow. -/
structure SumsGaps (h : List Accounted) (info : TrafficInfo) (fwd bwd : ℕ) : Prop where
  last : h.getLast?.map (·.now) = some info.timestamp
  finish : info.flowEndTime = info.timestamp
  fwdSum : info.fwdIatSum = BitVec.ofNat 32 fwd
  bwdSum : info.bwdIatSum = BitVec.ofNat 32 bwd
  total : info.iatSum = BitVec.ofNat 32 (fwd + bwd)
  life : info.flowStartTime.toNat + (fwd + bwd) = info.flowEndTime.toNat

/-- A new record has added up nothing. -/
theorem newFlow_gaps (a : Accounted) : SumsGaps [a] (newFlow a) 0 0 := by
  have h := newFlow_first a
  exact ⟨congrArg some h.timestamp.symm, h.flowEndTime.trans h.timestamp.symm, h.fwdIatSum,
    h.bwdIatSum, h.iatSum, by rw [h.flowStartTime, h.flowEndTime]; rfl⟩

/-- One more frame adds the gap to the sum of its direction. -/
theorem SumsGaps.update {h : List Accounted} {info : TrafficInfo} {fwd bwd : ℕ} {a : Accounted}
    (hg : SumsGaps h info fwd bwd) (hle : info.timestamp ≤ a.now) :
    ∃ fwd' bwd', SumsGaps (h ++ [a]) (updateFlow info a) fwd' bwd' := by
  have hstep := updateFlow_step info a
  have hstats := updateFlow_stats info a
  have hle' : info.timestamp.toNat ≤ a.now.toNat := hle
  have hlife := hg.life
  rw [hg.finish] at hlife
  have hlast : (h ++ [a]).getLast?.map (·.now) = some (updateFlow info a).timestamp := by
    rw [List.getLast?_concat, hstep.timestamp]
    rfl
  have hfinish := hstep.flowEndTime.trans hstep.timestamp.symm
  by_cases hd : a.direction = 0
  · refine ⟨fwd + (a.now.toNat - info.timestamp.toNat), bwd, hlast, hfinish, ?_, ?_, ?_, ?_⟩
    · rw [hstats.fwdIatSum, if_pos hd, hg.fwdSum, gap_eq_ofNat hle, BitVec.ofNat_add]
    · rw [hstats.bwdIatSum, if_pos hd, hg.bwdSum]
      exact BitVec.add_zero _
    · rw [hstats.iatSum, hg.total, gap_eq_ofNat hle, ← BitVec.ofNat_add, Nat.add_right_comm]
    · rw [hstep.flowStartTime, hstep.flowEndTime]
      omega
  · refine ⟨fwd, bwd + (a.now.toNat - info.timestamp.toNat), hlast, hfinish, ?_, ?_, ?_, ?_⟩
    · rw [hstats.fwdIatSum, if_neg hd, hg.fwdSum]
      exact BitVec.add_zero _
    · rw [hstats.bwdIatSum, if_neg hd, hg.bwdSum, gap_eq_ofNat hle, BitVec.ofNat_add]
    · rw [hstats.iatSum, hg.total, gap_eq_ofNat hle, ← BitVec.ofNat_add, Nat.add_assoc]
    · rw [hstep.flowStartTime, hstep.flowEndTime]
      omega

/-- **The gaps telescope.** The record of a history in the order of time has added up gaps that are
together the life of the flow. -/
theorem flowOf_gaps {h : List Accounted} {info : TrafficInfo}
    (hs : (h.map (·.now)).Pairwise (· ≤ ·)) (hinfo : flowOf h = some info) :
    ∃ fwd bwd, SumsGaps h info fwd bwd := by
  refine flowOf_induct (Q := fun _ => True) (P := fun h info =>
    (h.map (·.now)).Pairwise (· ≤ ·) → ∃ fwd bwd, SumsGaps h info fwd bwd)
    (fun a _ _ => ⟨0, 0, newFlow_gaps a⟩) (fun h info a _ _ ih hs => ?_) (fun _ _ => trivial)
    hinfo hs
  rw [List.map_append, List.pairwise_append] at hs
  obtain ⟨fwd, bwd, hg⟩ := ih hs.1
  obtain ⟨b, hb, hnow⟩ := Option.map_eq_some_iff.1 hg.last
  refine hg.update (hnow ▸ hs.2.2 _ (List.mem_map_of_mem (List.mem_of_getLast? hb)) _ ?_)
  simp

/-! ## Exactness -/

/-- The inter-arrival sums of a record are exact. -/
structure IatExact (info : TrafficInfo) : Prop where
  life : (info.iatSum.toNat : ℤ) = info.flowEndTime.toNat - info.flowStartTime.toNat
  split : info.iatSum.toNat = info.fwdIatSum.toNat + info.bwdIatSum.toNat

/-- The nanoseconds from the first to the last frame of a history. -/
def lifetime (h : List Accounted) : ℕ :=
  h.getLast?.elim 0 (·.now.toNat) - h.head?.elim 0 (·.now.toNat)

/-- The life of a flow is the time its record gives. -/
theorem RecordOf.lifetime_eq {k : FlowKey} {h : List Accounted} {info : TrafficInfo}
    (hr : RecordOf k h info) :
    lifetime h = info.flowEndTime.toNat - info.flowStartTime.toNat := by
  obtain ⟨a, ha, hstart⟩ := Option.map_eq_some_iff.1 hr.start
  obtain ⟨b, hb, hfinish⟩ := Option.map_eq_some_iff.1 hr.finish
  rw [lifetime, ha, hb, ← hstart, ← hfinish]
  rfl

/-- **Inter-arrival sums.** After every run in which the clock never steps back, the sums of a
record are exact exactly when its flow has lived less than 2³² nanoseconds. -/
theorem iatExact_iff (events : List TableEvent)
    (hclock : (events.filterMap TableEvent.time).Pairwise (· ≤ ·)) (k : FlowKey)
    (info : TrafficInfo) (hk : (recorded events).maps.activeTraffic k = some info) :
    IatExact info ↔ lifetime ((recorded events).history k) < 2 ^ 32 := by
  have hr := recorded_consistent events k
  rw [hk] at hr
  obtain ⟨fwd, bwd, hg⟩ := flowOf_gaps (hclock.sublist (history_sublist events k))
    ((recorded_flowOf events k).symm.trans hk)
  have hlife := hg.life
  rw [RecordOf.lifetime_eq hr]
  constructor
  · intro h
    have hexact := h.life
    have hlt := info.iatSum.isLt
    omega
  · intro h
    have htotal : info.iatSum.toNat = fwd + bwd := by
      rw [hg.total, BitVec.toNat_ofNat, Nat.mod_eq_of_lt (by omega)]
    refine ⟨by omega, ?_⟩
    rw [htotal, hg.fwdSum, hg.bwdSum, BitVec.toNat_ofNat, BitVec.toNat_ofNat,
      Nat.mod_eq_of_lt (by omega), Nat.mod_eq_of_lt (by omega)]

/-- Two segments of a connection, five seconds apart. -/
def fiveSecondsApart : List TableEvent :=
  let segment (now : U64) : TableEvent := .frame UserMaps.initial
    ⟨.still now, ipv4Frame IPPROTO_TCP [10, 0, 0, 1] [10, 0, 0, 2]
      ([0, 80, 31, 144, 0, 0, 0, 0, 0, 0, 0, 0, 0x50, 0x10] ++ List.replicate 6 0), 0⟩
  [segment 0, segment 5000000000]

/-- Their record gives the time between them as 0.7 seconds. -/
theorem fiveSecondsApart_not_exact :
    ∃ info, (recorded fiveSecondsApart).maps.activeTraffic
        ⟨0x0100000a, 0x0200000a, 80, 8080, 6⟩ = some info ∧
      info.iatSum.toNat = 705032704 ∧ ¬ IatExact info := by
  obtain ⟨info, hinfo, hfields⟩ := exists_record (recorded fiveSecondsApart).maps
    ⟨0x0100000a, 0x0200000a, 80, 8080, 6⟩
    (fun info => (info.iatSum, info.flowStartTime, info.flowEndTime))
    (705032704, 0, 5000000000) (by decide +kernel)
  simp only [Prod.mk.injEq] at hfields
  obtain ⟨hsum, hstart, hfinish⟩ := hfields
  refine ⟨info, hinfo, by rw [hsum]; rfl, fun h => ?_⟩
  have hlife := h.life
  rw [hsum, hstart, hfinish] at hlife
  exact absurd hlife (by decide)

theorem iatExact_iff_fiveSecondsApart :
    ∃ info, (recorded fiveSecondsApart).maps.activeTraffic
        ⟨0x0100000a, 0x0200000a, 80, 8080, 6⟩ = some info ∧
      (IatExact info ↔ lifetime ((recorded fiveSecondsApart).history
        ⟨0x0100000a, 0x0200000a, 80, 8080, 6⟩) < 2 ^ 32) := by
  obtain ⟨info, hinfo, -⟩ := exists_record (recorded fiveSecondsApart).maps
    ⟨0x0100000a, 0x0200000a, 80, 8080, 6⟩ (·.packets) 2 (by decide +kernel)
  exact ⟨info, hinfo, iatExact_iff fiveSecondsApart (by decide) _ info hinfo⟩

end Cyrenus
