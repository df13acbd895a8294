import Cyrenus.Lib.Table
import Mathlib.Data.List.Induction
import Mathlib.Data.List.Infix

/-!
# Channels that keep the newest message only

Messages are published on a channel, and readers join and leave it. A reader that takes is given the
newest message, unless it has had it; what was published before that is lost to it. `Channel.run` is
the channel after some actions, and `reader_run` is the rule for reasoning about what a reader has
been given: messages published since it joined, in order, none of them twice. `spares_iff` says when
no reader is left without a message of some kind: when none is replaced that a reader has not had.
-/

namespace Broadcast

variable {κ α : Type*}

/-- What happens on a channel. -/
inductive Action (κ α : Type*) where
  | publish (m : α)
  | join (r : κ)
  | leave (r : κ)
  | take (r : κ)

/-- A reader: how many messages had been published when it was last up to date, and what it has
been given. -/
structure Reader (α : Type*) where
  seen : ℕ
  received : List α

/-- A channel: the messages published so far, and the readers. -/
structure Channel (κ α : Type*) where
  log : List α
  readers : Table κ (Reader α)

/-- Give the newest message to a reader that is not up to date. -/
def Reader.take (log : List α) (p : Reader α) : Reader α :=
  if p.seen < log.length then ⟨log.length, p.received ++ log.getLast?.toList⟩ else p

namespace Channel

/-- The channel before any action. -/
def initial : Channel κ α := ⟨[], Table.empty⟩

variable [DecidableEq κ]

/-- One action. A reader that has joined does not join again. -/
def step (ch : Channel κ α) : Action κ α → Channel κ α
  | .publish m => { ch with log := ch.log ++ [m] }
  | .join r =>
    match ch.readers r with
    | none => { ch with readers := ch.readers.set r ⟨ch.log.length, []⟩ }
    | some _ => ch
  | .leave r => { ch with readers := ch.readers.erase r }
  | .take r => { ch with readers := ch.readers.modify r (Reader.take ch.log) }

/-- The channel after some actions. -/
def run (as : List (Action κ α)) : Channel κ α := as.foldl step initial

theorem run_concat (as : List (Action κ α)) (a : Action κ α) :
    run (as ++ [a]) = (run as).step a := by
  rw [run, List.foldl_append, List.foldl_cons, List.foldl_nil, run]

end Channel

/-- The messages that are published, in order. -/
def published (as : List (Action κ α)) : List α :=
  as.filterMap fun | .publish m => some m | _ => none

@[simp] theorem published_append (as bs : List (Action κ α)) :
    published (as ++ bs) = published as ++ published bs := List.filterMap_append ..

@[simp] theorem published_cons_join (r : κ) (as : List (Action κ α)) :
    published (.join r :: as) = published as := rfl

/-- A reader joined at some point, and has been given some of the messages published from then until
it was last up to date. -/
def HasRead [DecidableEq κ] (as : List (Action κ α)) (r : κ) (p : Reader α) : Prop :=
  ∃ pre post, as = pre ++ .join r :: post ∧ (Channel.run pre).readers r = none ∧
    .leave r ∉ post ∧ (published pre).length ≤ p.seen ∧ p.seen ≤ (published as).length ∧
    (p.received).Sublist ((published post).take (p.seen - (published pre).length))

variable [DecidableEq κ]

/-- The log holds what was published. -/
@[simp] theorem log_run (as : List (Action κ α)) : (Channel.run as).log = published as := by
  induction as using List.reverseRecOn with
  | nil => rfl
  | append_singleton as a ih =>
    rw [Channel.run_concat, published_append, ← ih]
    cases a with
    | publish m => rfl
    | join r =>
      rw [Channel.step]
      split <;> exact (List.append_nil _).symm
    | leave | take => exact (List.append_nil _).symm

namespace HasRead

variable {as : List (Action κ α)} {r : κ} {p : Reader α}

/-- A reader that joins has been given nothing. -/
theorem of_join (h : (Channel.run as).readers r = none) :
    HasRead (as ++ [.join r]) r ⟨(published as).length, []⟩ :=
  ⟨as, [], rfl, h, List.not_mem_nil, Nat.le_refl _, by simp, List.nil_sublist _⟩

/-- What a reader has been given stays as it is until it leaves or takes. -/
theorem concat (h : HasRead as r p) {a : Action κ α} (hleave : a ≠ .leave r) :
    HasRead (as ++ [a]) r p := by
  obtain ⟨pre, post, rfl, hnone, hpost, hjoin, hseen, hsub⟩ := h
  have hlen : p.seen - (published pre).length ≤ (published post).length := by
    rw [published_append, published_cons_join, List.length_append] at hseen
    omega
  refine ⟨pre, post ++ [a], by simp, hnone, ?_, hjoin, ?_, ?_⟩
  · rw [List.mem_append, List.mem_singleton, not_or]
    exact ⟨hpost, hleave.symm⟩
  · rw [published_append, List.length_append]
    exact Nat.le_add_right_of_le hseen
  · rwa [published_append, List.take_append_of_le_length hlen]

/-- A reader that takes is given a message published after those it had been given before. -/
theorem take (h : HasRead as r p) : HasRead (as ++ [.take r]) r (p.take (published as)) := by
  rw [Reader.take]
  split
  · rename_i hbehind
    obtain ⟨pre, post, rfl, hnone, hpost, hjoin, hseen, hsub⟩ := h
    rw [published_append, published_cons_join, List.length_append] at hbehind
    obtain hnil | ⟨earlier, newest, hmsgs⟩ := List.eq_nil_or_concat (published post)
    · rw [hnil, List.length_nil] at hbehind
      omega
    rw [List.concat_eq_append] at hmsgs
    rw [hmsgs, List.length_append, List.length_singleton] at hbehind
    -- all it has been given is older than the newest message
    have holder : (p.received).Sublist earlier := by
      rw [hmsgs, List.take_append_of_le_length (by omega)] at hsub
      exact hsub.trans (List.take_sublist _ _)
    refine ⟨pre, post ++ [.take r], by simp, hnone, ?_, ?_, ?_, ?_⟩
    · rw [List.mem_append, List.mem_singleton, not_or]
      exact ⟨hpost, nofun⟩
    · simp
    · simp
    · have hnew : (published (pre ++ .join r :: post)).getLast?.toList = [newest] := by
        rw [published_append, published_cons_join, hmsgs, ← List.append_assoc,
          List.getLast?_concat]
        rfl
      have hall : published (post ++ [Action.take r]) = earlier ++ [newest] := by
        rw [published_append, hmsgs]
        exact List.append_nil _
      rw [hnew, hall, List.take_of_length_le]
      · exact holder.append (List.Sublist.refl _)
      · simp [published_append, hmsgs]
  · exact h.concat nofun

end HasRead

/-- **The reader rule.** In the state after any actions, a reader has been given messages that were
published since it joined, in their order. -/
theorem reader_run (as : List (Action κ α)) {r : κ} {p : Reader α}
    (h : (Channel.run as).readers r = some p) : HasRead as r p := by
  induction as using List.reverseRecOn generalizing p with
  | nil => cases h
  | append_singleton as a ih =>
    rw [Channel.run_concat] at h
    cases a with
    | publish m => exact (ih h).concat nofun
    | join r' =>
      rw [Channel.step] at h
      split at h
      · rename_i hnone
        dsimp only at h
        by_cases hr : r = r'
        · subst hr
          rw [Table.set_same, log_run] at h
          cases h
          exact .of_join hnone
        · rw [Table.set_other hr] at h
          exact (ih h).concat nofun
      · exact (ih h).concat nofun
    | leave r' =>
      simp only [Channel.step] at h
      by_cases hr : r = r'
      · subst hr
        rw [Table.erase_same] at h
        cases h
      · rw [Table.erase_other hr] at h
        exact (ih h).concat fun heq => hr (Action.leave.inj heq).symm
    | take r' =>
      simp only [Channel.step] at h
      by_cases hr : r = r'
      · subst hr
        rw [Table.modify_same, log_run] at h
        obtain ⟨q, hq, rfl⟩ := Option.map_eq_some_iff.1 h
        exact (ih hq).take
      · rw [Table.modify_other hr] at h
        exact (ih h).concat nofun

/-! ## Messages that a reader misses -/

omit [DecidableEq κ] in
/-- A reader that has taken has nothing more to take. -/
theorem Reader.take_take (log : List α) (p : Reader α) : (p.take log).take log = p.take log := by
  rw [Reader.take, Reader.take]
  split
  · exact if_neg (Nat.lt_irrefl _)
  · rfl

omit [DecidableEq κ] in
/-- A reader that is up to date is given nothing. -/
theorem Reader.take_of_le {log : List α} {p : Reader α} (h : log.length ≤ p.seen) :
    p.take log = p := if_neg (Nat.not_lt.2 h)

omit [DecidableEq κ] in
/-- A reader that is behind is given the newest message. -/
theorem Reader.take_concat {log : List α} {p : Reader α} (h : p.seen ≤ log.length) (m : α) :
    p.take (log ++ [m]) = ⟨log.length + 1, p.received ++ [m]⟩ := by
  have hlt : p.seen < (log ++ [m]).length := by
    rw [List.length_append, List.length_singleton]
    exact Nat.lt_succ_of_le h
  rw [Reader.take, if_pos hlt, List.getLast?_concat, List.length_append, List.length_singleton]
  rfl

/-- Every reader is up to date. -/
def CaughtUp (as : List (Action κ α)) : Prop :=
  ∀ r p, (Channel.run as).readers r = some p → p.seen = (Channel.run as).log.length

/-- A reader that has not left since it joined has been given a message less often than it was
published. -/
def Missed [BEq α] (as : List (Action κ α)) (r : κ) (m : α) : Prop :=
  ∃ pre post p, as = pre ++ .join r :: post ∧ (Channel.run pre).readers r = none ∧
    .leave r ∉ post ∧ (Channel.run as).readers r = some p ∧
    (p.received).count m < (published post).count m

/-- A message that `P` selects is lost: every reader is up to date, and one has missed it. -/
def Loses [BEq α] (P : α → Bool) (as : List (Action κ α)) : Prop :=
  CaughtUp as ∧ ∃ r m, P m = true ∧ Missed as r m

/-- No message that `P` selects is replaced before every reader has had it. -/
def Spares (P : α → Bool) (as : List (Action κ α)) : Prop :=
  ∀ pre m, pre ++ [.publish m] <+: as → ∀ newest, (Channel.run pre).log.getLast? = some newest →
    P newest = true → CaughtUp pre

theorem Spares.of_append {P : α → Bool} {as bs : List (Action κ α)} (h : Spares P (as ++ bs)) :
    Spares P as := fun pre m hpre => h pre m (hpre.trans (List.prefix_append ..))

/-- Takes replace no message. -/
theorem Spares.takes {P : α → Bool} {as : List (Action κ α)} (h : Spares P as) (rs : List κ) :
    Spares P (as ++ rs.map .take) := by
  induction rs using List.reverseRecOn with
  | nil => rwa [List.map_nil, List.append_nil]
  | append_singleton rs r ih =>
    intro pre m hpre
    rw [List.map_append, List.map_singleton, ← List.append_assoc, List.prefix_concat_iff] at hpre
    obtain heq | hpre := hpre
    · cases List.append_inj_right' heq rfl
    · exact ih pre m hpre

/-- **A reader misses no message that is spared**: with the newest message, if it is behind, it has
been given every message that `P` selects since it joined. -/
theorem reader_spared {P : α → Bool} {pre post : List (Action κ α)} {r : κ}
    (hnone : (Channel.run pre).readers r = none) (hpost : .leave r ∉ post)
    (h : Spares P (pre ++ .join r :: post)) :
    ∃ p, (Channel.run (pre ++ .join r :: post)).readers r = some p ∧
      p.seen ≤ (Channel.run (pre ++ .join r :: post)).log.length ∧
      ((p.take (Channel.run (pre ++ .join r :: post)).log).received).filter P =
        (published post).filter P := by
  induction post using List.reverseRecOn with
  | nil =>
    refine ⟨⟨(Channel.run pre).log.length, []⟩, ?_, ?_, ?_⟩
    · rw [Channel.run_concat, Channel.step, hnone]
      exact Table.set_same ..
    · rw [Channel.run_concat, Channel.step, hnone]
    · rw [Channel.run_concat, Channel.step, hnone, Reader.take_of_le (Nat.le_refl _)]
      rfl
  | append_singleton post a ih =>
    rw [List.mem_append, List.mem_singleton, not_or] at hpost
    have hassoc : pre ++ .join r :: (post ++ [a]) = (pre ++ .join r :: post) ++ [a] := by simp
    rw [hassoc] at h ⊢
    obtain ⟨p, hp, hseen, hall⟩ := ih hpost.1 h.of_append
    rw [Channel.run_concat, published_append]
    cases a with
    | publish m =>
      refine ⟨p, hp, ?_, ?_⟩
      · rw [Channel.step, List.length_append]
        exact Nat.le_add_right_of_le hseen
      · have hgiven : (p.received).filter P = (published post).filter P := by
          rw [← hall, Reader.take]
          split
          · rename_i hbehind
            -- the reader is behind, so the message that is replaced is not selected
            have hnot : ∀ newest ∈ (Channel.run (pre ++ .join r :: post)).log.getLast?,
                ¬ P newest = true := by
              intro newest hnewest hP
              have hupto := h _ m List.prefix_rfl newest hnewest hP r p hp
              exact Nat.lt_irrefl _ (hupto ▸ hbehind)
            cases hlast : (Channel.run (pre ++ .join r :: post)).log.getLast? with
            | none => simp
            | some newest => simp [hnot newest hlast]
          · rfl
        rw [Channel.step, Reader.take_concat hseen, List.filter_append, List.filter_append, hgiven]
        rfl
    | join r' =>
      refine ⟨p, ?_, ?_⟩
      · rw [Channel.step]
        split
        · rename_i hnone'
          refine (Table.set_other ?_).trans hp
          rintro rfl
          cases hnone'.symm.trans hp
        · exact hp
      · have hlog : ((Channel.run (pre ++ .join r :: post)).step (.join r')).log =
            (Channel.run (pre ++ .join r :: post)).log := by
          rw [Channel.step]
          split <;> rfl
        rw [hlog]
        exact ⟨hseen, hall.trans (by rw [published, published, List.filterMap_cons_none rfl]; simp)⟩
    | leave r' =>
      have hr : r ≠ r' := by
        rintro rfl
        exact hpost.2 rfl
      refine ⟨p, (Table.erase_other hr).trans hp, hseen, hall.trans ?_⟩
      exact congrArg (List.filter P) (List.append_nil _).symm
    | take r' =>
      have hsame : (published post).filter P =
          (published post ++ published [Action.take r']).filter P :=
        congrArg (List.filter P) (List.append_nil _).symm
      by_cases hr : r = r'
      · subst hr
        refine ⟨p.take (Channel.run (pre ++ .join r :: post)).log, ?_, ?_, ?_⟩
        · exact (Table.modify_same ..).trans (by rw [hp, Option.map_some])
        · rw [Reader.take]
          split
          · exact Nat.le_refl _
          · exact hseen
        · rw [Channel.step, Reader.take_take, hall, hsame]
      · exact ⟨p, (Table.modify_other hr).trans hp, hseen, hall.trans hsame⟩

/-- What is spared is not lost. -/
theorem Spares.not_loses [BEq α] [LawfulBEq α] {P : α → Bool} {as : List (Action κ α)}
    (h : Spares P as) : ¬ Loses P as := by
  rintro ⟨hupto, r, m, hP, pre, post, p, rfl, hnone, hpost, hp, hless⟩
  obtain ⟨q, hq, -, hall⟩ := reader_spared hnone hpost h
  obtain rfl := Option.some.inj (hp.symm.trans hq)
  rw [Reader.take_of_le (hupto r p hp).ge] at hall
  have hcount := congrArg (List.count m) hall
  rw [List.count_filter hP, List.count_filter hP] at hcount
  exact Nat.lt_irrefl _ (hcount ▸ hless)

/-- What the readers have after some of them have taken. -/
theorem run_takes (as : List (Action κ α)) (rs : List κ) :
    (Channel.run (as ++ rs.map .take)).log = (Channel.run as).log ∧
      ∀ r, (Channel.run (as ++ rs.map .take)).readers r =
        if r ∈ rs then ((Channel.run as).readers r).map (Reader.take (Channel.run as).log)
        else (Channel.run as).readers r := by
  induction rs using List.reverseRecOn with
  | nil => simp
  | append_singleton rs r' ih =>
    obtain ⟨hlog, hreaders⟩ := ih
    rw [List.map_append, List.map_singleton, ← List.append_assoc, Channel.run_concat]
    refine ⟨hlog, fun r => ?_⟩
    simp only [Channel.step, hlog, List.mem_append, List.mem_singleton]
    by_cases hr : r = r'
    · subst hr
      rw [Table.modify_same, hreaders, if_pos (Or.inr rfl)]
      split
      · cases (Channel.run as).readers r with
        | none => rfl
        | some p => exact congrArg some (Reader.take_take ..)
      · rfl
    · rw [Table.modify_other hr, hreaders]
      simp only [hr, or_false]

/-- The readers that have ever joined. -/
def joined (as : List (Action κ α)) : List κ := as.filterMap fun | .join r => some r | _ => none

omit [DecidableEq κ] in
theorem mem_joined {as : List (Action κ α)} {r : κ} (h : .join r ∈ as) : r ∈ joined as :=
  List.mem_filterMap.2 ⟨.join r, h, rfl⟩

/-- Once all that have ever joined have taken, every reader is up to date. -/
theorem caughtUp_takes (as : List (Action κ α)) : CaughtUp (as ++ (joined as).map .take) := by
  obtain ⟨hlog, hreaders⟩ := run_takes as (joined as)
  intro r p hp
  rw [hreaders] at hp
  rw [hlog]
  by_cases hr : r ∈ joined as
  · rw [if_pos hr] at hp
    obtain ⟨q, hq, rfl⟩ := Option.map_eq_some_iff.1 hp
    obtain ⟨_, _, -, -, -, -, hseen, -⟩ := reader_run as hq
    rw [Reader.take]
    split
    · rfl
    · rw [log_run] at *
      omega
  · rw [if_neg hr] at hp
    obtain ⟨pre, post, has, -⟩ := reader_run as hp
    exact absurd (mem_joined (by rw [has]; simp)) hr

/-- **A message that is not spared is lost** once everybody has taken. -/
theorem loses_of_replaced [BEq α] [LawfulBEq α] {P : α → Bool} {as : List (Action κ α)}
    {m newest : α} (hlast : (Channel.run as).log.getLast? = some newest) (hP : P newest = true)
    {r : κ} {p : Reader α} (hp : (Channel.run as).readers r = some p)
    (hseen : p.seen ≠ (Channel.run as).log.length) :
    Loses P (as ++ [.publish m] ++ (joined (as ++ [.publish m])).map .take) := by
  refine ⟨caughtUp_takes _, r, newest, hP, ?_⟩
  obtain ⟨pre, post, rfl, hnone, hpost, hjoin, hle, hsub⟩ := reader_run as hp
  rw [log_run, published_append, published_cons_join] at hlast hseen
  rw [published_append, published_cons_join, List.length_append] at hle
  rw [List.length_append] at hseen
  -- the newest message is the last of those published since the reader joined
  obtain hnil | ⟨earlier, last, hmsgs⟩ := List.eq_nil_or_concat (published post)
  · rw [hnil, List.length_nil] at hle hseen
    omega
  rw [List.concat_eq_append] at hmsgs
  rw [hmsgs, ← List.append_assoc, List.getLast?_concat, Option.some.injEq] at hlast
  subst hlast
  have hold : (p.received).count last ≤ earlier.count last := by
    rw [hmsgs, List.length_append, List.length_singleton] at hle hseen
    rw [hmsgs, List.take_append_of_le_length (by omega)] at hsub
    exact (hsub.trans (List.take_sublist ..)).count_le _
  have hmem : r ∈ joined (pre ++ .join r :: post ++ [.publish m]) := mem_joined (by simp)
  have hreader := (run_takes (pre ++ .join r :: post ++ [.publish m])
    (joined (pre ++ .join r :: post ++ [.publish m]))).2 r
  generalize joined (pre ++ .join r :: post ++ [.publish m]) = rs at hmem hreader ⊢
  have hlog : p.seen ≤ (Channel.run (pre ++ .join r :: post)).log.length := by
    rw [log_run, published_append, published_cons_join, List.length_append]
    exact hle
  rw [if_pos hmem, Channel.run_concat, Channel.step, hp, Option.map_some,
    Reader.take_concat hlog] at hreader
  have htaken : published (rs.map (Action.take (α := α))) = [] := by
    rw [published, List.filterMap_map]
    exact List.filterMap_eq_nil_iff.2 fun _ _ => rfl
  refine ⟨pre, post ++ [.publish m] ++ rs.map .take, _, by simp, hnone, ?_, hreader, ?_⟩
  · simp [hpost]
  · have hnew : published (post ++ [.publish m] ++ rs.map .take) = earlier ++ [last] ++ [m] := by
      rw [published_append, published_append, htaken, hmsgs, List.append_nil]
      rfl
    rw [hnew, List.count_append, List.count_append, List.count_append, List.count_singleton_self]
    omega

/-- **When no message of a kind is lost**: in no state that some actions lead to, nor in one that
takes lead to from there, exactly when none is replaced before every reader has had it. -/
theorem spares_iff [BEq α] [LawfulBEq α] (P : α → Bool) (as : List (Action κ α)) :
    (∀ pre, pre <+: as → ∀ rs : List κ, ¬ Loses P (pre ++ rs.map .take)) ↔ Spares P as := by
  constructor
  · intro h pre m hpre newest hlast hP r p hp
    by_contra hseen
    exact h _ hpre _ (loses_of_replaced hlast hP hp hseen)
  · rintro h pre ⟨post, rfl⟩ rs
    exact (h.of_append.takes rs).not_loses

/-! ## What a reader was given last -/

/-- What a reader has been given last is the message that was the newest when it was last up to
date, if there was one since it joined. -/
structure LastGiven (joined : ℕ) (log : List α) (p : Reader α) : Prop where
  joined_le : joined ≤ p.seen
  seen_le : p.seen ≤ log.length
  received : joined < p.seen → p.received.getLast? = (log.take p.seen).getLast?

theorem LastGiven.concat {joined : ℕ} {log : List α} {p : Reader α} (h : LastGiven joined log p)
    (m : α) : LastGiven joined (log ++ [m]) p where
  joined_le := h.joined_le
  seen_le := by
    rw [List.length_append]
    exact Nat.le_add_right_of_le h.seen_le
  received hlt := by rw [List.take_append_of_le_length h.seen_le, h.received hlt]

theorem LastGiven.take {joined : ℕ} {log : List α} {p : Reader α} (h : LastGiven joined log p) :
    LastGiven joined log (p.take log) := by
  rw [Reader.take]
  split
  · rename_i hbehind
    refine ⟨Nat.le_trans h.joined_le h.seen_le, Nat.le_refl _, fun _ => ?_⟩
    have hne : log ≠ [] := by
      rintro rfl
      exact Nat.not_lt_zero _ hbehind
    rw [List.take_length, List.getLast?_eq_some_getLast hne, Option.toList_some,
      List.getLast?_concat]
  · exact h

/-- **The rule for one reader** that has joined and not left: what holds when it joins and goes on
when a message is published and when the reader takes holds of it after any actions. -/
theorem reader_induct {I : List α → Reader α → Prop} {pre post : List (Action κ α)} {r : κ}
    (hnone : (Channel.run pre).readers r = none) (hpost : .leave r ∉ post)
    (hjoin : I (published pre) ⟨(published pre).length, []⟩)
    (hpublish : ∀ mid m p, mid ++ [.publish m] <+: post →
      (Channel.run (pre ++ .join r :: mid)).readers r = some p →
      I (published (pre ++ .join r :: mid)) p → I (published (pre ++ .join r :: mid) ++ [m]) p)
    (htake : ∀ log p, I log p → I log (p.take log)) :
    ∃ p, (Channel.run (pre ++ .join r :: post)).readers r = some p ∧
      I (published (pre ++ .join r :: post)) p := by
  induction post using List.reverseRecOn with
  | nil =>
    refine ⟨⟨(published pre).length, []⟩, ?_, ?_⟩
    · rw [Channel.run_concat, Channel.step, hnone, log_run]
      exact Table.set_same ..
    · rw [published_append]
      exact (List.append_nil (published pre)).symm ▸ hjoin
  | append_singleton post a ih =>
    rw [List.mem_append, List.mem_singleton, not_or] at hpost
    have hassoc : pre ++ .join r :: (post ++ [a]) = (pre ++ .join r :: post) ++ [a] := by simp
    obtain ⟨p, hp, hI⟩ := ih hpost.1 fun mid m p hmid =>
      hpublish mid m p (hmid.trans (List.prefix_append ..))
    rw [hassoc, Channel.run_concat, published_append]
    cases a with
    | publish m => exact ⟨p, hp, hpublish post m p List.prefix_rfl hp hI⟩
    | join r' =>
      refine ⟨p, ?_, (List.append_nil _).symm ▸ hI⟩
      rw [Channel.step]
      split
      · rename_i hnone'
        refine (Table.set_other ?_).trans hp
        rintro rfl
        cases hnone'.symm.trans hp
      · exact hp
    | leave r' =>
      have hr : r ≠ r' := by
        rintro rfl
        exact hpost.2 rfl
      exact ⟨p, (Table.erase_other hr).trans hp, (List.append_nil _).symm ▸ hI⟩
    | take r' =>
      rcases eq_or_ne r r' with rfl | hr
      · refine ⟨p.take (Channel.run (pre ++ .join r :: post)).log, ?_, ?_⟩
        · exact (Table.modify_same ..).trans (by rw [hp, Option.map_some])
        · rw [log_run]
          exact (List.append_nil _).symm ▸ htake _ p hI
      · exact ⟨p, (Table.modify_other hr).trans hp, (List.append_nil _).symm ▸ hI⟩

/-- **What a reader that has joined was given last.** -/
theorem reader_lastGiven {pre post : List (Action κ α)} {r : κ}
    (hnone : (Channel.run pre).readers r = none) (hpost : .leave r ∉ post) :
    ∃ p, (Channel.run (pre ++ .join r :: post)).readers r = some p ∧
      LastGiven (published pre).length (published (pre ++ .join r :: post)) p :=
  reader_induct hnone hpost
    ⟨Nat.le_refl _, Nat.le_refl _, fun hlt => absurd hlt (Nat.lt_irrefl _)⟩
    (fun _ m _ _ _ hlast => hlast.concat m) fun _ _ hlast => hlast.take

/-- A reader is up to date whenever a message is published. -/
def KeepsPace (pre post : List (Action κ α)) (r : κ) : Prop :=
  ∀ mid m p, mid ++ [.publish m] <+: post →
    (Channel.run (pre ++ .join r :: mid)).readers r = some p →
      p.seen = (published (pre ++ .join r :: mid)).length

/-- **A reader that keeps pace** is given every message. -/
theorem reader_keepsPace {pre post : List (Action κ α)} {r : κ}
    (hnone : (Channel.run pre).readers r = none) (hpost : .leave r ∉ post)
    (hpace : KeepsPace pre post r) :
    ∃ p, (Channel.run (pre ++ .join r :: post)).readers r = some p ∧
      (p.take (published (pre ++ .join r :: post))).received = published post := by
  have hdrop : ∀ mid : List (Action κ α),
      (published (pre ++ .join r :: mid)).drop (published pre).length = published mid := by
    intro mid
    rw [published_append, published_cons_join, List.drop_left]
  rw [← hdrop post]
  refine reader_induct (I := fun log p => (p.take log).received = log.drop (published pre).length)
    hnone hpost ?_ ?_ ?_
  · rw [Reader.take_of_le (Nat.le_refl _), List.drop_length]
  · intro mid m p hmid hp hI
    have hseen := hpace mid m p hmid hp
    have hle : (published pre).length ≤ (published (pre ++ .join r :: mid)).length := by
      rw [published_append, List.length_append]
      exact Nat.le_add_right ..
    rw [Reader.take_of_le (Nat.le_of_eq hseen.symm)] at hI
    rw [Reader.take, if_pos (by rw [hseen, List.length_append]; exact Nat.lt_succ_self _),
      List.getLast?_concat, hI, List.drop_append_of_le_length hle]
    rfl
  · intro log p hI
    rw [Reader.take_take, hI]

end Broadcast
