import Cyrenus.Lib.Train
import Cyrenus.Lib.Trace
import Cyrenus.Lib.Window
import Cyrenus.Xdp.Checks

/-!
# What the fragment limiter drops

`handle_fragment` counts the fragments of a source. It starts the count anew after thirty seconds
without a fragment, and every fragment moves the time it measures from. So what it counts are the
fragments of a train (`Train`), in which each follows the one before it by at most thirty seconds,
and a train may last for any time: `frag_run` carries this along a run, and
`handleFragment_noFalsePositive_iff` says which sources that stay within the limit are never
blocked.

The second part is about the sizes. `ip_payload_len` is a 16-bit difference, so a header that is
longer than its whole packet has a large one: `smallFragment_drop_iff`.
-/

namespace Cyrenus

/-! ## Sizes -/

/-- The payload length the header states: negative when the header is longer than the packet. -/
def IpHdr.payloadBytes (iph : IpHdr) : ℤ := (bpfNtohs iph.totLen).toNat - iph.ihl.toNat * 4

/-- The least payload of a first fragment. -/
def MIN_FRAG_PAYLOAD : ℤ := 16

/-- The 16-bit difference is below the least payload when the stated length is, and not negative. -/
theorem ipPayloadLen_lt_iff (iph : IpHdr) :
    bpfNtohs iph.totLen - iph.ihl.setWidth 16 * 4 < 16 ↔
      0 ≤ iph.payloadBytes ∧ iph.payloadBytes < MIN_FRAG_PAYLOAD := by
  have hihl : (iph.ihl.setWidth 16 * 4).toNat = iph.ihl.toNat * 4 := by
    have h : iph.ihl.toNat < 16 := iph.ihl.isLt
    rw [BitVec.toNat_mul, BitVec.toNat_setWidth]
    change iph.ihl.toNat % 2 ^ 16 * 4 % 2 ^ 16 = _
    omega
  have hlen : (bpfNtohs iph.totLen).toNat < 2 ^ 16 := (bpfNtohs iph.totLen).isLt
  have hlt : iph.ihl.toNat < 16 := iph.ihl.isLt
  rw [BitVec.lt_def, BitVec.toNat_sub, hihl]
  simp only [IpHdr.payloadBytes, MIN_FRAG_PAYLOAD]
  change _ % 2 ^ 16 < 16 ↔ _
  omega

/-- A fragment passes or is dropped. -/
theorem fragVerdict_eq (iph : IpHdr) (tooMany : Bool) :
    fragVerdict iph tooMany =
      if tooMany = true ∨ iph.fragOffset = 1 ∨ (iph.moreFragments = true ∧
        0 ≤ iph.payloadBytes ∧ iph.payloadBytes < MIN_FRAG_PAYLOAD) then .drop else .pass := by
  simp only [fragVerdict, ipPayloadLen_lt_iff]
  split_ifs <;> grind

theorem fragVerdict_drop_iff {iph : IpHdr} {tooMany : Bool} :
    fragVerdict iph tooMany = .drop ↔
      tooMany = true ∨ iph.fragOffset = 1 ∨ (iph.moreFragments = true ∧
        0 ≤ iph.payloadBytes ∧ iph.payloadBytes < MIN_FRAG_PAYLOAD) := by
  rw [fragVerdict_eq]
  split
  · next h => exact ⟨fun _ => h, fun _ => rfl⟩
  · next h => exact ⟨nofun, fun h' => absurd h' h⟩

/-- A fragment that neither has offset one nor is too small. -/
structure IpHdr.FairFragment (iph : IpHdr) : Prop where
  fragment : iph.isFragment = true
  offset : iph.fragOffset ≠ 1
  payload : iph.moreFragments = true → MIN_FRAG_PAYLOAD ≤ iph.payloadBytes

/-- The verdict on such a fragment is the limiter's. -/
theorem IpHdr.FairFragment.fragVerdict_eq {iph : IpHdr} (h : iph.FairFragment) (tooMany : Bool) :
    fragVerdict iph tooMany = if tooMany then .drop else .pass := by
  rw [Cyrenus.fragVerdict_eq]
  refine if_congr ⟨fun hdrop => ?_, .inl⟩ rfl rfl
  rcases hdrop with htoo | hoff | ⟨hmf, -, hlt⟩
  · exact htoo
  · exact absurd hoff h.offset
  · exact absurd hlt (Int.not_lt.2 (h.payload hmf))

/-! ## Runs of fragments -/

/-- A fragment as `handle_fragment` sees it: the clock and the IP header. -/
structure Fragment where
  clk : Clock
  iph : IpHdr

/-- The time the limiter reads for a fragment. -/
def Fragment.time (f : Fragment) : ℕ := f.clk.frag.toNat

/-- The fragment `g` follows `f` by at most the timeout. -/
def Fragment.Follows (f g : Fragment) : Prop := g.time ≤ f.time + FRAG_TIMEOUT.toNat

instance : DecidableRel Fragment.Follows := fun _ _ => inferInstanceAs (Decidable (_ ≤ _))

/-- `handle_fragment` on one fragment of a run. -/
def fragStep (user : UserMaps) (f : Fragment) : Check := handleFragment user f.clk f.iph

/-- The entry of a source counts the train that the source's last fragment belongs to. -/
structure FragTracks (train : List Fragment) (info : FragInfo) : Prop where
  last : train.getLast?.map Fragment.time = some info.lastUpdate.toNat
  count : info.fragCount = BitVec.ofNat 32 train.length

/-- What is kept about a source after its fragments: nothing before the first one, then the count of
the current train. -/
def FragTracked (train : List Fragment) : Option FragInfo → Prop
  | none => train = []
  | some info => FragTracks train info

/-- **One fragment.** It joins the train or starts one, is counted, and is one too many when the
count is above the limit; the first fragment of all is not even compared. -/
theorem fragEntry_spec {maxFrags : U32} {f : Fragment} {train : List Fragment}
    {old : Option FragInfo} (h : FragTracked train old)
    (hle : ∀ info, old = some info → info.lastUpdate ≤ f.clk.frag) :
    FragTracked (Train.step Fragment.Follows train f) (fragEntry maxFrags f.clk.frag old).2 ∧
      ((fragEntry maxFrags f.clk.frag old).1 = true ↔
        old ≠ none ∧
          maxFrags < BitVec.ofNat 32 (Train.step Fragment.Follows train f).length) := by
  cases old with
  | none =>
    cases h
    exact ⟨⟨rfl, rfl⟩, by simp [fragEntry]⟩
  | some info =>
    obtain ⟨g, hg, htime⟩ := Option.map_eq_some_iff.1 h.last
    have hgap : f.clk.frag - info.lastUpdate > FRAG_TIMEOUT ↔ ¬ g.Follows f := by
      have hlast := hle info rfl
      have hlast' : info.lastUpdate.toNat ≤ f.clk.frag.toNat := hlast
      rw [gt_iff_lt, BitVec.lt_def, BitVec.toNat_sub_of_le hlast, Fragment.Follows, htime,
        Fragment.time]
      omega
    have hcount : (if f.clk.frag - info.lastUpdate > FRAG_TIMEOUT then 1 else info.fragCount + 1) =
        BitVec.ofNat 32 (Train.step Fragment.Follows train f).length := by
      rw [Train.length_step hg, h.count]
      by_cases hf : g.Follows f
      · rw [if_neg (fun hgt => hgap.1 hgt hf), if_pos hf, BitVec.ofNat_add]
        rfl
      · rw [if_pos (hgap.2 hf), if_neg hf]
        rfl
    refine ⟨⟨?_, hcount⟩, ?_⟩
    · simp only [Train.getLast?_step]
      rfl
    · simp only [fragEntry, hcount, decide_eq_true_eq, gt_iff_lt]
      simp

/-- The last fragment of the train is no later than the next one. -/
theorem FragTracked.last_le {fs : List Fragment} {f : Fragment} {old : Option FragInfo}
    (h : FragTracked (Train.after Fragment.Follows fs) old)
    (hclock : ((fs ++ [f]).map Fragment.time).Pairwise (· ≤ ·)) :
    ∀ info, old = some info → info.lastUpdate ≤ f.clk.frag := by
  rintro info rfl
  obtain ⟨g, hg, htime⟩ := Option.map_eq_some_iff.1 h.last
  rw [BitVec.le_def, ← htime]
  exact Tumbling.le_last hclock g ((Train.after_suffix fs).mem (List.mem_of_getLast? hg))

/-- On a fragment of the source the program applies the entry of the source. -/
theorem fragStep_eq {user : UserMaps} {A : U32} {f : Fragment} (hA : f.iph.saddr = A)
    (hfair : f.iph.FairFragment) (st : Maps) :
    fragStep user f st =
      (if (fragEntry user.config.maxFrags f.clk.frag (st.fragTrackMap A)).1 then .drop else .pass,
        { st with fragTrackMap := (st.fragTrackMap.alter A
          (fragEntry user.config.maxFrags f.clk.frag)).2 }) := by
  subst hA
  simp only [fragStep, handleFragment, hfair.fragment, if_true, getConfig_configMap,
    hfair.fragVerdict_eq, Table.alter_fst]

/-- The fragments of one source `A`, none of which is dropped for its own sake, in the order of
their times. -/
structure FragmentsFrom (A : U32) (fs : List Fragment) : Prop where
  saddr : ∀ f ∈ fs, f.iph.saddr = A
  fair : ∀ f ∈ fs, f.iph.FairFragment
  clock : (fs.map Fragment.time).Pairwise (· ≤ ·)

theorem FragmentsFrom.initial {A : U32} {fs pre : List Fragment} (h : FragmentsFrom A fs)
    (hpre : pre <+: fs) : FragmentsFrom A pre where
  saddr f hf := h.saddr f (hpre.subset hf)
  fair f hf := h.fair f (hpre.subset hf)
  clock := h.clock.sublist (hpre.sublist.map _)

section

variable {user : UserMaps} {A : U32} {st : Maps} {fs : List Fragment}

/-- **A run of fragments.** From a state without an entry of the source, what is kept about it
counts the train that its last fragment belongs to. -/
theorem frag_run (h0 : st.fragTrackMap A = none) (h : FragmentsFrom A fs) :
    FragTracked (Train.after Fragment.Follows fs)
      ((Trace.final (fragStep user) st fs).fragTrackMap A) := by
  induction fs using List.reverseRecOn with
  | nil => exact h0 ▸ rfl
  | append_singleton fs f ih =>
    have hold := ih (h.initial (List.prefix_append ..))
    rw [Trace.final_concat, fragStep_eq (h.saddr f (by simp)) (h.fair f (by simp)),
      Train.after_concat]
    simp only [Table.alter_same]
    exact (fragEntry_spec hold (hold.last_le h.clock)).1

/-- The next fragment of the source passes when the count of its train is within the limit. -/
theorem fragStep_pass_iff (hM : 1 ≤ user.config.maxFrags) (h0 : st.fragTrackMap A = none)
    {f : Fragment} (h : FragmentsFrom A (fs ++ [f])) :
    (fragStep user f (Trace.final (fragStep user) st fs)).1 = .pass ↔
      BitVec.ofNat 32 (Train.after Fragment.Follows (fs ++ [f])).length ≤
        user.config.maxFrags := by
  have hold : FragTracked (Train.after Fragment.Follows fs)
      ((Trace.final (fragStep user) st fs).fragTrackMap A) :=
    frag_run h0 (h.initial (List.prefix_append ..))
  have hspec := (@fragEntry_spec user.config.maxFrags _ _ _ hold (hold.last_le h.clock)).2
  rw [fragStep_eq (h.saddr f (by simp)) (h.fair f (by simp)), Train.after_concat]
  cases ho : (Trace.final (fragStep user) st fs).fragTrackMap A with
  | none =>
    rw [ho] at hold
    have hfirst : Train.after Fragment.Follows fs = [] := hold
    rw [hfirst]
    exact ⟨fun _ => hM, fun _ => rfl⟩
  | some info =>
    rw [ho] at hspec
    simp only [ne_eq, reduceCtorEq, not_false_eq_true, true_and] at hspec
    rw [← BitVec.not_lt, ← hspec]
    split <;> simp_all

/-- A 32-bit count of trains that are cut off nowhere stays within a limit exactly when the trains
do, or when the limit is the largest there is. -/
theorem count_le_iff {M : U32} :
    (∀ pre f, pre ++ [f] <+: fs →
        BitVec.ofNat 32 (Train.after Fragment.Follows (pre ++ [f])).length ≤ M) ↔
      M = BitVec.allOnes 32 ∨
        ∀ pre, pre <+: fs → (Train.after Fragment.Follows pre).length ≤ M.toNat := by
  constructor
  · intro h
    rcases Nat.lt_or_ge (M.toNat + 1) (2 ^ 32) with hM | hM
    · refine .inr fun pre hpre => Nat.le_of_not_lt fun hlong => ?_
      -- Such a train has been just too long before, where its count had not wrapped.
      obtain ⟨q, hq, hlen⟩ := Train.exists_length_eq hlong
      cases q using List.reverseRecOn with
      | nil => cases hlen
      | append_singleton q f =>
        have hle := h q f (hq.trans hpre)
        rw [hlen, BitVec.le_def, BitVec.toNat_ofNat, Nat.mod_eq_of_lt hM] at hle
        exact Nat.not_succ_le_self _ hle
    · refine .inl (BitVec.eq_of_toNat_eq ?_)
      have := M.isLt
      rw [BitVec.toNat_allOnes]
      omega
  · rintro (rfl | h) pre f hpre
    · rw [BitVec.le_def, BitVec.toNat_allOnes]
      exact Nat.le_sub_one_of_lt (BitVec.isLt _)
    · have hle := h _ hpre
      rw [BitVec.le_def, BitVec.toNat_ofNat, Nat.mod_eq_of_lt (Nat.lt_of_le_of_lt hle M.isLt)]
      exact hle

end

/-! ## Sources within the limit -/

/-- Two successive fragments of a stretch are more than the timeout apart. -/
def Paused (w : List Fragment) : Prop :=
  ∃ pre f g post, w = pre ++ f :: g :: post ∧ f.time + FRAG_TIMEOUT.toNat < g.time

theorem paused_iff {w : List Fragment} : Paused w ↔ ¬ w.IsChain Fragment.Follows := by
  rw [List.isChain_iff_forall_rel_of_append_cons_cons, Paused]
  constructor
  · rintro ⟨pre, f, g, post, hw, hlt⟩ h
    exact absurd (h hw) (Nat.not_le.2 hlt)
  · intro h
    by_contra hnot
    refine h fun f g pre post hw => Nat.le_of_not_lt fun hlt => hnot ⟨pre, f, g, post, hw, hlt⟩

/-- The fragments of a source that never sends more than the limit within thirty seconds. -/
structure FragmentsWithin (maxFrags : U32) (A : U32) (fs : List Fragment) : Prop
    extends FragmentsFrom A fs where
  limit : 1 ≤ maxFrags
  few : ∀ x, Tumbling.inInterval FRAG_TIMEOUT.toNat Fragment.time (fun _ => true) x fs ≤
    maxFrags.toNat

/-- **False positives of the fragment limiter.** From a state without an entry of the source, the
fragments of a source that stays within the limit all pass exactly when there is a pause of more
than thirty seconds among any `max_frags + 1` of them in a row, or the limit is the largest there
is. -/
theorem handleFragment_noFalsePositive_iff (user : UserMaps) (A : U32) (st : Maps)
    (h0 : st.fragTrackMap A = none) (fs : List Fragment)
    (h : FragmentsWithin user.config.maxFrags A fs) :
    (∀ fv ∈ Trace.trace (fragStep user) st fs, fv.2 = .pass) ↔
      user.config.maxFrags = BitVec.allOnes 32 ∨
        ∀ w, w <:+: fs → w.length = user.config.maxFrags.toNat + 1 → Paused w := by
  simp only [paused_iff]
  rw [← Train.length_le_iff, ← count_le_iff, Trace.forall_mem_trace_iff]
  refine forall₃_congr fun pre f hpre => ?_
  exact fragStep_pass_iff h.limit h0 (h.toFragmentsFrom.initial hpre)

/-- The header of a fragment from 10.0.0.1 with twenty bytes of payload, and more to follow. -/
def fragmentHdr : IpHdr :=
  ⟨5, bpfHtons 40, bpfHtons 0x2002, 64, IPPROTO_UDP, 0x0100000a, 0x0200000a⟩

theorem fragmentHdr_fair : fragmentHdr.FairFragment where
  fragment := by decide
  offset := by decide
  payload := by decide

/-- Such fragments at given times. -/
def fragmentsAt (times : List U64) : List Fragment :=
  times.map fun now => ⟨.still now, fragmentHdr⟩

theorem fragmentsAt_from {times : List U64} (h : times.Pairwise (· ≤ ·)) :
    FragmentsFrom 0x0100000a (fragmentsAt times) where
  saddr f hf := by
    obtain ⟨now, -, rfl⟩ := List.mem_map.1 hf
    rfl
  fair f hf := by
    obtain ⟨now, -, rfl⟩ := List.mem_map.1 hf
    exact fragmentHdr_fair
  clock := by
    rw [fragmentsAt, List.map_map]
    exact h.map _ fun _ _ hle => hle

/-- Fragments of which one comes at the start and one thirty seconds later do not all lie in one
interval. -/
theorem fragmentsAt_few {times : List U64} {s t : U64} (hs : s ∈ times) (ht : t ∈ times)
    (hlt : s.toNat + FRAG_TIMEOUT.toNat ≤ t.toNat) (x : ℕ) :
    Tumbling.inInterval FRAG_TIMEOUT.toNat Fragment.time (fun _ => true) x (fragmentsAt times) <
      times.length := by
  refine Nat.lt_of_le_of_ne (List.countP_le_length.trans_eq (List.length_map _)) fun hall => ?_
  have hin : ∀ now ∈ times, x ≤ now.toNat ∧ now.toNat < x + FRAG_TIMEOUT.toNat := by
    intro now hnow
    have hall' := List.countP_eq_length.1 (hall.trans (List.length_map _).symm)
    exact of_decide_eq_true (hall' _ (List.mem_map_of_mem hnow))
  have := hin s hs
  have := hin t ht
  omega

/-- The maps user space leaves with a limit of fifteen fragments. -/
def fifteenFrags : UserMaps := { UserMaps.initial with configMap := fun _ => ⟨0, 0, 0, 0, 15⟩ }

/-- Sixteen times, twenty-nine seconds apart. -/
def slowTimes : List U64 := (List.range 16).map fun i => BitVec.ofNat 64 (29000000000 * i)

theorem slowTimes_within : FragmentsWithin 15 0x0100000a (fragmentsAt slowTimes) where
  toFragmentsFrom := fragmentsAt_from (by decide)
  limit := by decide
  few x := Nat.le_of_lt_succ
    (fragmentsAt_few (s := 0) (t := 435000000000) (by decide) (by decide) (by decide) x)

/-- The sixteenth of them is dropped. -/
theorem handleFragment_falsePositive :
    FragmentsWithin fifteenFrags.config.maxFrags 0x0100000a (fragmentsAt slowTimes) ∧
      ¬ ∀ fv ∈ Trace.trace (fragStep fifteenFrags) Maps.initial (fragmentsAt slowTimes),
        fv.2 = .pass :=
  ⟨slowTimes_within, by decide +kernel⟩

theorem handleFragment_noFalsePositive_iff_slow :
    (∀ fv ∈ Trace.trace (fragStep fifteenFrags) Maps.initial (fragmentsAt slowTimes),
        fv.2 = .pass) ↔
      fifteenFrags.config.maxFrags = BitVec.allOnes 32 ∨
        ∀ w, w <:+: fragmentsAt slowTimes →
          w.length = fifteenFrags.config.maxFrags.toNat + 1 → Paused w :=
  handleFragment_noFalsePositive_iff fifteenFrags 0x0100000a Maps.initial rfl _ slowTimes_within

/-! ## Small fragments -/

/-- The entry of a source counts more fragments than the limit with the next one. -/
def FragTooMany (maxFrags : U32) (now : U64) (entry : Option FragInfo) : Prop :=
  ∃ info, entry = some info ∧
    maxFrags < if now - info.lastUpdate > FRAG_TIMEOUT then 1 else info.fragCount + 1

theorem fragEntry_fst_iff {maxFrags : U32} {now : U64} {entry : Option FragInfo} :
    (fragEntry maxFrags now entry).1 = true ↔ FragTooMany maxFrags now entry := by
  cases entry <;> simp [fragEntry, FragTooMany]

/-- **Small fragments.** A fragment with more to follow and a stated payload below sixteen bytes is
dropped exactly when that is not negative, or its offset is one, or its source has sent too many. -/
theorem smallFragment_drop_iff (user : UserMaps) (clk : Clock) (iph : IpHdr) (st : Maps)
    (hmf : iph.moreFragments = true) (hsmall : iph.payloadBytes < MIN_FRAG_PAYLOAD) :
    (handleFragment user clk iph st).1 = .drop ↔
      0 ≤ iph.payloadBytes ∨ iph.fragOffset = 1 ∨
        FragTooMany user.config.maxFrags clk.frag (st.fragTrackMap iph.saddr) := by
  have hfrag : iph.isFragment = true := by simp [IpHdr.isFragment, hmf]
  have hverdict : (handleFragment user clk iph st).1 =
      fragVerdict iph (fragEntry user.config.maxFrags clk.frag (st.fragTrackMap iph.saddr)).1 := by
    simp only [handleFragment, hfrag, if_true, getConfig_configMap, Table.alter_fst]
  rw [hverdict, fragVerdict_drop_iff, fragEntry_fst_iff]
  tauto

/-- A first fragment whose packet is said to be empty, shorter than its own header. -/
def emptyFragmentHdr : IpHdr :=
  ⟨5, 0, bpfHtons 0x2000, 64, IPPROTO_UDP, 0x0100000a, 0x0200000a⟩

/-- A total length of 0 is below the header's 20 bytes, so the payload length is negative and the
fragment passes although it is first, has more behind it and is smaller than the minimum. -/
theorem smallFragment_pass :
    emptyFragmentHdr.moreFragments = true ∧ emptyFragmentHdr.payloadBytes < MIN_FRAG_PAYLOAD ∧
      (handleFragment fifteenFrags (.still 0) emptyFragmentHdr Maps.initial).1 ≠ .drop := by
  decide +kernel

/-- None of the three grounds is there for it: the payload length is negative, the offset is not 1,
and no fragment of its source has been counted. -/
theorem smallFragment_drop_iff_empty :
    (handleFragment fifteenFrags (.still 0) emptyFragmentHdr Maps.initial).1 = .drop ↔
      0 ≤ emptyFragmentHdr.payloadBytes ∨ emptyFragmentHdr.fragOffset = 1 ∨
        FragTooMany fifteenFrags.config.maxFrags 0
          (Maps.initial.fragTrackMap emptyFragmentHdr.saddr) :=
  smallFragment_drop_iff fifteenFrags (.still 0) emptyFragmentHdr Maps.initial (by decide)
    (by decide)

end Cyrenus
