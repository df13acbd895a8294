import Cyrenus.Xdp.FlowTable

/-!
# Records and their histories

A record of the flow table is determined by its history, the frames accounted since it was created:
`newFlow` makes it of the first of them and `updateFlow` adds each of the others (`flowOf`,
`recorded_flowOf`). So a property of all reachable records is proved by `flowOf_induct`, which asks
for it of a new record and keeps it along one update. `newFlow_first` and `updateFlow_stats` say
what these two do to the statistics; `history_spec` says what the frames of a history have in
common.
-/

namespace Cyrenus

/-! ## The record of a history -/

/-- The record that a history leaves. -/
def flowOf (h : List Accounted) : Option TrafficInfo :=
  h.foldl (fun old a => some (nextFlow old a)) none

@[simp] theorem flowOf_nil : flowOf [] = none := rfl

@[simp] theorem flowOf_concat (h : List Accounted) (a : Accounted) :
    flowOf (h ++ [a]) = some (nextFlow (flowOf h) a) := by
  simp [flowOf, List.foldl_append]

theorem flowOf_eq_none_iff {h : List Accounted} : flowOf h = none ↔ h = [] := by
  cases h using List.reverseRecOn with
  | nil => simp
  | append_singleton h a => simp

/-- **The record rule.** Let `Q` hold of all frames of a history. What holds of the record of a first
such frame, and is kept by the update with one more, holds of the record of the history. -/
theorem flowOf_induct {Q : Accounted → Prop} {P : List Accounted → TrafficInfo → Prop}
    (first : ∀ a, Q a → P [a] (newFlow a))
    (next : ∀ h info a, h ≠ [] → Q a → P h info → P (h ++ [a]) (updateFlow info a))
    {h : List Accounted} {info : TrafficInfo} (hQ : ∀ a ∈ h, Q a) (hinfo : flowOf h = some info) :
    P h info := by
  induction h using List.reverseRecOn generalizing info with
  | nil => cases hinfo
  | append_singleton h a ih =>
    have ha : Q a := hQ a (by simp)
    rw [flowOf_concat] at hinfo
    cases hold : flowOf h with
    | none =>
      rw [hold] at hinfo
      cases hinfo
      rw [flowOf_eq_none_iff.1 hold]
      exact first a ha
    | some old =>
      rw [hold] at hinfo
      cases hinfo
      have hne : h ≠ [] := fun hnil => by rw [hnil] at hold; cases hold
      exact next h old a hne ha (ih (fun b hb => hQ b (List.mem_append_left _ hb)) hold)

/-! ## Runs -/

/-- Every reachable record is that of its history. -/
theorem recorded_flowOf (events : List TableEvent) (k : FlowKey) :
    (recorded events).maps.activeTraffic k = flowOf ((recorded events).history k) := by
  refine @Trace.final_induct _ _ _ _
    (fun r : Recorded => ∀ k, r.maps.activeTraffic k = flowOf (r.history k)) _ _ (fun _ => rfl)
    (fun e _ r hr k => ?_) k
  cases e with
  | frame user f =>
    simp only [recordedStep, xdpStep_activeTraffic]
    cases accountedBy user f r.maps with
    | none => exact hr k
    | some a =>
      simp only [Option.elim_some]
      by_cases hk : k = a.key
      · subst hk
        simp only [accountFlow_same, Function.update_self, flowOf_concat, hr a.key]
      · simp only [accountFlow_other hk, Function.update_of_ne hk]
        exact hr k
  | evict gone =>
    simp only [recordedStep, Maps.evict, Table.prune_apply]
    cases gone.activeTraffic k with
    | true => rfl
    | false => exact hr k

/-- The frames of a history have its key, and what every accounted frame of the run has. -/
theorem history_spec {Q : Accounted → Prop} {events : List TableEvent}
    (hQ : ∀ user f, .frame user f ∈ events → ∀ st a, accountedBy user f st = some a → Q a)
    (k : FlowKey) : ∀ a ∈ (recorded events).history k, a.key = k ∧ Q a := by
  refine @Trace.final_induct _ _ _ _
    (fun r : Recorded => ∀ k, ∀ a ∈ r.history k, a.key = k ∧ Q a) _ _ (fun _ _ ha => by cases ha)
    (fun e he r hr k => ?_) k
  cases e with
  | frame user f =>
    simp only [recordedStep]
    cases ha : accountedBy user f r.maps with
    | none => exact hr k
    | some a =>
      simp only [Option.elim_some]
      by_cases hk : k = a.key
      · subst hk
        simp only [Function.update_self]
        intro b hb
        rcases List.mem_append.1 hb with hb | hb
        · exact hr _ b hb
        · rw [List.mem_singleton.1 hb]
          exact ⟨rfl, hQ user f he _ a ha⟩
      · simp only [Function.update_of_ne hk]
        exact hr k
  | evict gone =>
    simp only [recordedStep]
    split
    · exact fun _ ha => by cases ha
    · exact hr k

/-- A record of the table with a given field. -/
theorem exists_record {β : Type} (st : Maps) (k : FlowKey) (field : TrafficInfo → β) (b : β)
    (h : (st.activeTraffic k).map field = some b) :
    ∃ info, st.activeTraffic k = some info ∧ field info = b := Option.map_eq_some_iff.1 h

/-! ## The statistics of a record -/

/-- The larger of an extreme and a further length. -/
def longer (extreme length : U32) : U32 := if length > extreme then length else extreme

/-- The smaller of an extreme and a further length; an extreme that is zero counts as unset. -/
def shorter (extreme length : U32) : U32 :=
  if length < extreme ∨ extreme = 0 then length else extreme

/-- A 16-bit extreme is compared at 32 bits, and cut to 16 again. -/
theorem longer_setWidth (extreme : U16) (length : U32) :
    (if length > extreme.setWidth 32 then length.setWidth 16 else extreme) =
      (longer (extreme.setWidth 32) length).setWidth 16 := by
  unfold longer
  split <;> simp

theorem shorter_setWidth (extreme : U16) (length : U32) :
    (if length < extreme.setWidth 32 ∨ extreme = 0 then length.setWidth 16 else extreme) =
      (shorter (extreme.setWidth 32) length).setWidth 16 := by
  have hzero : extreme.setWidth 32 = 0 ↔ extreme = 0 := by
    rw [BitVec.toNat_eq, BitVec.toNat_eq, BitVec.toNat_setWidth_of_le (by decide)]
    rfl
  simp only [shorter, hzero]
  split <;> simp

/-- The statistics of a record with one frame. -/
structure FirstStats (a : Accounted) (info : TrafficInfo) : Prop where
  timestamp : info.timestamp = a.now
  flowStartTime : info.flowStartTime = a.now
  flowEndTime : info.flowEndTime = a.now
  direction : info.direction = a.direction
  bytes : info.bytes = a.payloadLength.setWidth 64
  fwdPackets : info.fwdPackets = 1
  bwdPackets : info.bwdPackets = 0
  fwdBytes : info.fwdBytes = a.payloadLength.setWidth 64
  bwdBytes : info.bwdBytes = 0
  fwdHeaderLength : info.fwdHeaderLength = a.headerLength
  bwdHeaderLength : info.bwdHeaderLength = 0
  fwdMax : info.fwdPacketLengthMax = longer 0 a.payloadLength
  fwdMin : info.fwdPacketLengthMin = shorter 0 a.payloadLength
  bwdMax : info.bwdPacketLengthMax = 0
  bwdMin : info.bwdPacketLengthMin = 0
  bwdSum : info.bwdPacketLengthSum = 0
  max : info.maxPacketLength = (longer ((0 : U16).setWidth 32) a.payloadLength).setWidth 16
  min : info.minPacketLength = (shorter ((0 : U16).setWidth 32) a.payloadLength).setWidth 16
  iatSum : info.iatSum = 0
  fwdIatSum : info.fwdIatSum = 0
  bwdIatSum : info.bwdIatSum = 0

theorem newFlow_first (a : Accounted) : FirstStats a (newFlow a) := by
  unfold newFlow
  split <;> constructor
  case isTrue.max | isFalse.max => exact longer_setWidth 0 a.payloadLength
  case isTrue.min | isFalse.min => exact shorter_setWidth 0 a.payloadLength
  all_goals rfl

/-- What one more frame does to the statistics of a record, beside what `FlowStep` says. -/
structure StatsStep (info : TrafficInfo) (a : Accounted) (info' : TrafficInfo) : Prop where
  direction : info'.direction = info.direction
  fwdHeaderLength : info'.fwdHeaderLength =
    info.fwdHeaderLength + if a.direction = 0 then a.headerLength else 0
  bwdHeaderLength : info'.bwdHeaderLength =
    info.bwdHeaderLength + if a.direction = 0 then 0 else a.headerLength
  fwdMax : info'.fwdPacketLengthMax = if a.direction = 0 then
    longer info.fwdPacketLengthMax a.payloadLength else info.fwdPacketLengthMax
  fwdMin : info'.fwdPacketLengthMin = if a.direction = 0 then
    shorter info.fwdPacketLengthMin a.payloadLength else info.fwdPacketLengthMin
  bwdMax : info'.bwdPacketLengthMax = if a.direction = 0 then
    info.bwdPacketLengthMax else longer info.bwdPacketLengthMax a.payloadLength
  bwdMin : info'.bwdPacketLengthMin = if a.direction = 0 then
    info.bwdPacketLengthMin else shorter info.bwdPacketLengthMin a.payloadLength
  max : info'.maxPacketLength =
    (longer (info.maxPacketLength.setWidth 32) a.payloadLength).setWidth 16
  min : info'.minPacketLength =
    (shorter (info.minPacketLength.setWidth 32) a.payloadLength).setWidth 16
  iatSum : info'.iatSum = info.iatSum + (a.now - info.timestamp).setWidth 32
  fwdIatSum : info'.fwdIatSum =
    info.fwdIatSum + if a.direction = 0 then (a.now - info.timestamp).setWidth 32 else 0
  bwdIatSum : info'.bwdIatSum =
    info.bwdIatSum + if a.direction = 0 then 0 else (a.now - info.timestamp).setWidth 32

theorem updateFlow_stats (info : TrafficInfo) (a : Accounted) :
    StatsStep info a (updateFlow info a) := by
  unfold updateFlow updatePacketLengthStats updateIatStats
  by_cases hd : a.direction = 0 <;> by_cases ht : a.key.proto = IPPROTO_TCP <;>
    simp only [hd, ht, if_true, if_false]
  all_goals
    constructor
    case max => exact longer_setWidth ..
    case min => exact shorter_setWidth ..
  all_goals first
    | rfl
    | simp only [hd, if_true, if_false] <;> first | rfl | exact (BitVec.add_zero _).symm

end Cyrenus
