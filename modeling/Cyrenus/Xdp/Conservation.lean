import Cyrenus.Api.Traffic
import Cyrenus.Xdp.Totals

/-!
# Where the frames are

The monitor thread reads the totals of the processors and `api_traffic_stats` the flow table, and
the program writes the two at different places: a frame is counted before the checks and accounted
after them. `traffic_conserved` says what lies between: a frame that is counted and not listed has
not been let through, or has no transport header, or its record has been evicted.
-/

namespace Cyrenus

open Trace (trace filterMap_concat)
open List (filed)

/-! ## What becomes of a frame -/

/-- The frame is counted and not let through. -/
def isStopped : TableEvent × Option XdpAction → Bool
  | (.frame _ f, some v) => f.ctx.isCounted && v ≠ .pass
  | _ => false

/-- The accounting data of a frame that has a transport header. -/
def TableEvent.flow? : TableEvent → Option Accounted
  | .frame user f =>
    if f.ctx.isIpv4 then (f.ctx.transport f.ctx.iphdr).map (accounted user f.clk f.ctx.iphdr)
    else none
  | .evict _ => none

/-- The frame is counted and let through, but has no transport header to account it by. -/
def isUnread : TableEvent × Option XdpAction → Bool
  | (.frame user f, some .pass) =>
    f.ctx.isCounted && (TableEvent.frame user f).flow?.isNone
  | _ => false

/-- The accounting data of a frame that is let through. -/
def accountedFrame? : TableEvent × Option XdpAction → Option Accounted
  | (e, some .pass) => e.flow?
  | _ => none

/-- The program accounts the frames that have such data. -/
theorem accountedFrame?_frame (user : UserMaps) (f : TimedFrame) (st : Maps) :
    accountedFrame? (.frame user f, some (xdpStep user f st).1) = accountedBy user f st := by
  rw [accountedBy]
  cases hv : (xdpStep user f st).1 with
  | pass =>
    rw [accountedFrame?, TableEvent.flow?]
    simp only [and_true]
  | _ =>
    refine (if_neg ?_).symm
    rintro ⟨-, ⟨⟩⟩

/-- A frame that is not let through has an IP header. -/
theorem isIpv4_of_stopped {user : UserMaps} {f : TimedFrame} {st : Maps}
    (h : (xdpStep user f st).1 ≠ .pass) : f.ctx.isIpv4 = true := by
  by_contra hip
  rcases xdpProg_of_not_isIpv4 (Bool.eq_false_iff.2 hip) user f.clk st with he | he <;>
    exact h (by rw [xdpStep, he])

/-! ## The ledger of a run -/

/-- The accounted frames whose records are in the flow table, and those whose records have been
evicted. -/
structure Ledger where
  live : List Accounted
  evicted : List Accounted

/-- One event more. -/
def Ledger.step (l : Ledger) (io : TableEvent × Option XdpAction) : Ledger :=
  match io.1 with
  | .frame .. => { l with live := l.live ++ (accountedFrame? io).toList }
  | .evict gone =>
    { live := l.live.filter fun a => !gone.activeTraffic a.key
      evicted := l.evicted ++ l.live.filter fun a => gone.activeTraffic a.key }

/-- The ledger of a run, by what has happened in it and the verdicts. -/
def ledger (tr : List (TableEvent × Option XdpAction)) : Ledger := tr.foldl Ledger.step ⟨[], []⟩

theorem ledger_concat (tr : List (TableEvent × Option XdpAction))
    (io : TableEvent × Option XdpAction) : ledger (tr ++ [io]) = (ledger tr).step io := by
  rw [ledger, List.foldl_append]
  rfl

/-- The run of the flow table. -/
abbrev tableTrace (events : List TableEvent) : List (TableEvent × Option XdpAction) :=
  trace recordedStep Recorded.initial events

theorem tableTrace_concat (events : List TableEvent) (e : TableEvent) :
    tableTrace (events ++ [e]) =
      tableTrace events ++ [(e, (recordedStep e (recorded events)).1)] :=
  Trace.trace_concat ..

/-- **The history of a flow** is what stands in the ledger under its key. -/
theorem history_eq_filed (events : List TableEvent) (k : FlowKey) :
    (recorded events).history k = filed Accounted.key k (ledger (tableTrace events)).live := by
  induction events using List.reverseRecOn with
  | nil => rfl
  | append_singleton events e ih =>
    rw [tableTrace_concat, ledger_concat, recorded, Trace.final_concat, ← recorded]
    cases e with
    | frame user f =>
      simp only [recordedStep, Ledger.step, accountedFrame?_frame, List.filed_append, ← ih]
      cases accountedBy user f (recorded events).maps with
      | none => simp
      | some a =>
        simp only [Option.elim_some, Option.toList_some, List.filed_cons, List.filed_nil]
        rcases eq_or_ne k a.key with rfl | hne
        · simp
        · simp [Function.update_of_ne hne, hne.symm]
    | evict gone =>
      simp only [recordedStep, Ledger.step, filed, List.filter_filter] at ih ⊢
      cases hgone : gone.activeTraffic k with
      | true =>
        symm
        rw [if_pos rfl, List.filter_eq_nil_iff]
        intro a _ hboth
        simp only [Bool.and_eq_true, decide_eq_true_eq, Bool.not_eq_true'] at hboth
        obtain ⟨rfl, hkept⟩ := hboth
        rw [hgone] at hkept
        cases hkept
      | false =>
        rw [if_neg Bool.false_ne_true, ih]
        refine List.filter_congr fun a _ => ?_
        rcases eq_or_ne a.key k with heq | hne
        · simp [heq, hgone]
        · simp [hne]

/-- The ledger has all frames that were accounted. -/
theorem ledger_length (tr : List (TableEvent × Option XdpAction)) :
    (ledger tr).live.length + (ledger tr).evicted.length =
      (tr.filterMap accountedFrame?).length := by
  induction tr using List.reverseRecOn with
  | nil => rfl
  | append_singleton tr io ih =>
    rw [ledger_concat, List.filterMap_append, List.length_append, ← ih]
    obtain ⟨e, v⟩ := io
    cases e with
    | frame user f =>
      simp only [Ledger.step, List.length_append, List.filterMap_cons, List.filterMap_nil]
      cases accountedFrame? (.frame user f, v) with
      | none => simp
      | some a =>
        simp only [Option.toList_some, List.length_singleton]
        omega
    | evict gone =>
      have hnone : accountedFrame? (.evict gone, v) = none := by
        rcases v with _ | (_ | _ | _ | _ | _) <;> rfl
      have hsplit := List.length_eq_length_filter_add (l := (ledger tr).live)
        fun a => gone.activeTraffic a.key
      simp only [Ledger.step, List.length_append, List.filterMap_cons, List.filterMap_nil, hnone,
        List.length_nil]
      omega

/-! ## The frames of a run -/

/-- A frame with accounting data is counted. -/
theorem TableEvent.isCounted_of_flow? {user : UserMaps} {f : TimedFrame} {a : Accounted}
    (h : (TableEvent.frame user f).flow? = some a) : f.ctx.isCounted = true := by
  rw [flow?] at h
  split at h
  · rename_i hip
    exact XdpMd.isCounted_of_isIpv4 hip
  · cases h

/-- **One event**: a frame that is counted is stopped, or unread, or accounted. -/
theorem length_counted? (e : TableEvent) (r : Recorded) :
    e.counted?.toList.length =
      [(e, (recordedStep e r).1)].countP isStopped + [(e, (recordedStep e r).1)].countP isUnread +
        (accountedFrame? (e, (recordedStep e r).1)).toList.length := by
  cases e with
  | evict gone => rfl
  | frame user f =>
    have hverdict : (recordedStep (.frame user f) r).1 = some (xdpStep user f r.maps).1 := rfl
    have hstopped := @isIpv4_of_stopped user f r.maps
    rw [hverdict, TableEvent.counted?]
    generalize (xdpStep user f r.maps).1 = v at hstopped
    cases v with
    | drop =>
      have hcounted := XdpMd.isCounted_of_isIpv4 (hstopped XdpAction.noConfusion)
      simp [hcounted, isStopped, isUnread, accountedFrame?]
    | tx =>
      have hcounted := XdpMd.isCounted_of_isIpv4 (hstopped XdpAction.noConfusion)
      simp [hcounted, isStopped, isUnread, accountedFrame?]
    | pass =>
      cases hflow : (TableEvent.frame user f).flow? with
      | none => cases hcounted : f.ctx.isCounted <;>
          simp [hcounted, hflow, isStopped, isUnread, accountedFrame?]
      | some a =>
        have hcounted := TableEvent.isCounted_of_flow? hflow
        simp [hcounted, hflow, isStopped, isUnread, accountedFrame?]

/-- **All frames of a run.** -/
theorem length_countedFrames (events : List TableEvent) :
    (countedFrames events).length =
      (tableTrace events).countP isStopped + (tableTrace events).countP isUnread +
        ((tableTrace events).filterMap accountedFrame?).length := by
  induction events using List.reverseRecOn with
  | nil => rfl
  | append_singleton events e ih =>
    have hstep := length_counted? e (recorded events)
    have hcount : countedFrames (events ++ [e]) = countedFrames events ++ e.counted?.toList :=
      filterMap_concat ..
    have haccounted : (tableTrace events ++ [(e, (recordedStep e (recorded events)).1)]).filterMap
        accountedFrame? = (tableTrace events).filterMap accountedFrame? ++
          (accountedFrame? (e, (recordedStep e (recorded events)).1)).toList :=
      filterMap_concat ..
    rw [tableTrace_concat, haccounted, hcount, List.countP_append, List.countP_append,
      List.length_append, List.length_append, ih, hstep]
    omega

/-! ## The listing and the totals -/

/-- The counts of the listing are the lengths of the histories. -/
theorem sum_packets {events : List TableEvent} {keys : List FlowKey}
    (hkeys : ∀ key ∈ keys, (recorded events).maps.activeTraffic key ≠ none)
    (hsmall : ∀ key ∈ keys, ((recorded events).history key).length < 2 ^ 31) :
    ((keys.filterMap fun key => ((recorded events).maps.activeTraffic key).map trafficEntry).map
      TrafficEntry.packets).sum =
        ((keys.map fun key => ((recorded events).history key).length).sum : ℕ) := by
  induction keys with
  | nil => rfl
  | cons key keys ih =>
    obtain ⟨hkey, hkeys⟩ := List.forall_mem_cons.1 hkeys
    obtain ⟨hlen, hsmall⟩ := List.forall_mem_cons.1 hsmall
    obtain ⟨info, hinfo⟩ := Option.ne_none_iff_exists'.1 hkey
    have hrecord := recorded_consistent events key
    rw [hinfo] at hrecord
    have hpackets : (trafficEntry info).packets = ((recorded events).history key).length := by
      have hnat : info.packets.toNat = ((recorded events).history key).length := by
        rw [hrecord.packets, BitVec.toNat_ofNat, Nat.mod_eq_of_lt (by omega)]
      exact (BitVec.toInt_eq_toNat_of_lt (by omega)).trans (congrArg Nat.cast hnat)
    rw [List.filterMap_cons_some (by rw [hinfo]; rfl), List.map_cons, List.sum_cons, hpackets,
      ih hkeys hsmall, List.map_cons, List.sum_cons, Int.natCast_add]

/-- A flow in the ledger has a record. -/
theorem activeTraffic_ne_none_iff {events : List TableEvent} {key : FlowKey} :
    (recorded events).maps.activeTraffic key ≠ none ↔ (recorded events).history key ≠ [] := by
  have hrecord := recorded_consistent events key
  cases hinfo : (recorded events).maps.activeTraffic key with
  | none =>
    rw [hinfo] at hrecord
    exact iff_of_false (not_not_intro rfl) (not_not_intro hrecord)
  | some info =>
    rw [hinfo] at hrecord
    refine iff_of_true (Option.some_ne_none info) fun hnil => ?_
    have hstart := hrecord.start
    rw [hnil] at hstart
    cases hstart

/-- **Where the frames are.** After any run of frames and evictions, while at most a hundred flows
have records and each has fewer than 2^31 frames, the totals that the monitor thread adds up are the
packets that the listing shows, the frames whose records have been evicted, those that were not let
through and those that have no transport header. -/
theorem traffic_conserved (events : List TableEvent)
    (order : KeyOrder (recorded events).maps.activeTraffic) (hfew : order.keys.length ≤ 100)
    (hsmall : ∀ key, ((recorded events).history key).length < 2 ^ 31) (numCpus : ℕ)
    (hcpu : ∀ p ∈ countedFrames events, p.1 < numCpus) :
    let tr := tableTrace events
    (sumTotals ((List.range numCpus).map (recorded events).maps.globalStats)).totalPackets =
        BitVec.ofNat 64 (countedFrames events).length ∧
      ((apiTrafficStats order).map TrafficEntry.packets).sum + (ledger tr).evicted.length +
        tr.countP isStopped + tr.countP isUnread = (countedFrames events).length := by
  intro tr
  refine ⟨congrArg GlobalStats.totalPackets (sumTotals_recorded hcpu), ?_⟩
  have hlive : (order.keys.map fun key => ((recorded events).history key).length).sum =
      (ledger tr).live.length := by
    simp only [history_eq_filed]
    refine List.length_filed order.nodup fun a ha => ?_
    rw [order.mem_iff, activeTraffic_ne_none_iff, history_eq_filed]
    exact List.ne_nil_of_mem (List.mem_filed.2 ⟨ha, rfl⟩)
  have hlength := ledger_length tr
  have hcounted : (countedFrames events).length = tr.countP isStopped + tr.countP isUnread +
      (tr.filterMap accountedFrame?).length := length_countedFrames events
  rw [apiTrafficStats_eq order (recorded_zeroFlow events), List.take_of_length_le hfew,
    sum_packets (fun key => (order.mem_iff key).1) fun key _ => hsmall key, hlive]
  omega

/-- Segments of one flow make no history of another one. -/
theorem history_segments_other (n : ℕ) {k : FlowKey} (hk : k ≠ segmentKey) :
    (recorded (segments n)).history k = [] := by
  induction n with
  | zero => rfl
  | succ n ih =>
    obtain ⟨a, ha, hkey⟩ := accountedBy_segment (recorded (segments n)).maps
    rw [segments, List.replicate_succ', recorded, Trace.final_concat]
    simp only [segments, recorded] at ha ih
    simp only [recordedStep, ha, Option.elim_some, hkey, Function.update_of_ne hk, ih]

/-- The flow table after some segments has one key. -/
def segmentOrder {n : ℕ} (hn : n ≠ 0) :
    KeyOrder (recorded (segments n)).maps.activeTraffic where
  keys := [segmentKey]
  nodup := List.nodup_singleton _
  mem_iff k := by
    rw [List.mem_singleton, activeTraffic_ne_none_iff]
    constructor
    · rintro rfl hnil
      exact hn (by rw [← history_segments n, hnil, List.length_nil])
    · intro hhistory
      by_contra hk
      exact hhistory (history_segments_other n hk)

/-- Two segments are counted and listed. -/
theorem traffic_conserved_segments :
    ((apiTrafficStats (segmentOrder (by decide : 2 ≠ 0))).map TrafficEntry.packets).sum +
      (ledger (tableTrace (segments 2))).evicted.length +
        (tableTrace (segments 2)).countP isStopped + (tableTrace (segments 2)).countP isUnread =
      (countedFrames (segments 2)).length := by
  refine (traffic_conserved (segments 2) (segmentOrder (by decide)) (by decide) (fun key => ?_) 1
    (by decide +kernel)).2
  rcases eq_or_ne key segmentKey with rfl | hne
  · rw [history_segments]
    decide
  · rw [history_segments_other 2 hne]
    decide

end Cyrenus
