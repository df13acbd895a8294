import Mathlib.Data.List.Chain
import Mathlib.Data.List.Infix
import Mathlib.Data.List.Nodup
import Mathlib.Data.List.Perm.Subperm

/-!
# Reading a list in pages

A client reads a list in pages of `k` elements, one page after another, while the list changes. The
list is ordered by a relation `before`, so an element stands on the page that the number of elements
before it says (`mem_page_iff`). If that number never decreases from one page to the next, an
element that stays in the list is on one of the pages read, when the last of them is not full
(`exists_mem_page`): what comes in before it may push it onto a later page, where it is still to be
read, but nothing pulls it onto an earlier one.
-/

namespace Paging

variable {α : Type*}

/-- Page `n` of a list in pages of `k` elements. -/
def page (k n : ℕ) (l : List α) : List α := (l.drop (n * k)).take k

/-- The number of elements of a list that come before `x`. -/
def rank (before : α → α → Bool) (x : α) (l : List α) : ℕ := l.countP fun y => before y x

variable {before : α → α → Bool} {x : α} {l l' : List α}

theorem rank_perm (h : l.Perm l') : rank before x l = rank before x l' := h.countP_eq _

/-- Elements that come before `x` may only be added. -/
theorem rank_le (hl : l.Nodup) (h : ∀ y ∈ l, before y x = true → y ∈ l') :
    rank before x l ≤ rank before x l' := by
  rw [rank, rank, List.countP_eq_length_filter, List.countP_eq_length_filter]
  refine (List.Nodup.subperm (hl.filter _) fun y hy => ?_).length_le
  obtain ⟨hmem, hbefore⟩ := List.mem_filter.1 hy
  exact List.mem_filter.2 ⟨h y hmem hbefore, hbefore⟩

/-- The relation orders the list. -/
structure Orders (before : α → α → Bool) (l : List α) : Prop where
  asymm : ∀ x y, before x y = true → before y x = false
  pairwise : l.Pairwise fun x y => before x y = true

/-- In an ordered list an element has just those before it that come before it. -/
theorem Orders.exists_split (h : Orders before l) (hx : x ∈ l) :
    ∃ pre post, l = pre ++ x :: post ∧ pre.length = rank before x l := by
  obtain ⟨pre, post, rfl⟩ := List.append_of_mem hx
  refine ⟨pre, post, rfl, ?_⟩
  obtain ⟨-, hrest, hcross⟩ := List.pairwise_append.1 h.pairwise
  have hself : before x x = false := by
    cases hxx : before x x with
    | false => rfl
    | true => exact hxx.symm.trans (h.asymm x x hxx)
  have hpre : pre.countP (fun y => before y x) = pre.length :=
    List.countP_eq_length.2 fun y hy => hcross y hy x List.mem_cons_self
  have hpost : post.countP (fun y => before y x) = 0 := by
    refine List.countP_eq_zero.2 fun y hy hbefore => ?_
    rw [h.asymm x y (List.rel_of_pairwise_cons hrest hy)] at hbefore
    cases hbefore
  rw [rank, List.countP_append, List.countP_cons, hpre, hpost, hself]
  rfl

theorem Orders.rank_lt_length (h : Orders before l) (hx : x ∈ l) :
    rank before x l < l.length := by
  obtain ⟨pre, post, rfl, hrank⟩ := h.exists_split hx
  rw [← hrank, List.length_append, List.length_cons]
  omega

/-- **The page of an element.** -/
theorem Orders.mem_page_iff (h : Orders before l) (hx : x ∈ l) (k n : ℕ) :
    x ∈ page k n l ↔ n * k ≤ rank before x l ∧ rank before x l < n * k + k := by
  obtain ⟨pre, post, rfl, hrank⟩ := h.exists_split hx
  have hget : ∀ i, (pre ++ x :: post)[i]? = some x ↔ i = pre.length := by
    intro i
    have hnodup : (pre ++ x :: post).Nodup := h.pairwise.imp fun {a b} hab heq => by
      subst heq
      exact Bool.false_ne_true ((h.asymm a a hab).symm.trans hab)
    have hat : (pre ++ x :: post)[pre.length]? = some x := by simp
    constructor
    · intro hi
      exact (List.getElem?_inj (List.getElem?_eq_some_iff.1 hi).1 hnodup).1 (hi.trans hat.symm)
    · rintro rfl
      exact hat
  rw [← hrank, page, List.mem_iff_getElem?]
  simp only [List.getElem?_take, List.getElem?_drop]
  constructor
  · rintro ⟨i, hi⟩
    split at hi
    · have := (hget _).1 hi
      omega
    · cases hi
  · rintro ⟨hle, hlt⟩
    refine ⟨pre.length - n * k, ?_⟩
    rw [if_pos (by omega), hget]
    omega

/-- Pages read so far have an element that they have passed. -/
theorem exists_mem_page_or {k : ℕ} {views : List (List α)}
    (hordered : ∀ l ∈ views, Orders before l) (hx : ∀ l ∈ views, x ∈ l)
    (hranks : (views.map (rank before x)).IsChain (· ≤ ·)) :
    (∃ n l, views[n]? = some l ∧ x ∈ page k n l) ∨
      ∀ l ∈ views.getLast?, views.length * k ≤ rank before x l := by
  induction views using List.reverseRecOn with
  | nil => exact .inr nofun
  | append_singleton views l ih =>
    have hlast : l ∈ views ++ [l] := by simp
    rw [List.map_append, List.isChain_append] at hranks
    obtain ⟨hinit, -, hstep⟩ := hranks
    rcases ih (fun m hm => hordered m (List.mem_append_left _ hm))
      (fun m hm => hx m (List.mem_append_left _ hm)) hinit with ⟨n, m, hm, hmem⟩ | hpassed
    · obtain ⟨hn, -⟩ := List.getElem?_eq_some_iff.1 hm
      exact .inl ⟨n, m, by rwa [List.getElem?_append_left hn], hmem⟩
    · have hle : views.length * k ≤ rank before x l := by
        rcases List.eq_nil_or_concat views with rfl | ⟨views, m, rfl⟩
        · simp
        · have hm : rank before x m ≤ rank before x l := hstep _ (by simp) _ (by simp)
          exact Nat.le_trans (hpassed m (by simp)) hm
      by_cases hmem : x ∈ page k views.length l
      · exact .inl ⟨views.length, l, by simp, hmem⟩
      · refine .inr fun m hm => ?_
        rw [List.getLast?_concat, Option.mem_some_iff] at hm
        subst hm
        rw [(hordered l hlast).mem_page_iff (hx l hlast)] at hmem
        rw [List.length_append, List.length_singleton, Nat.succ_mul]
        omega

/-- **A walk over the pages** finds every element that stays in the list and never comes to have
fewer elements before it, once a page is not full. -/
theorem exists_mem_page {k : ℕ} {views : List (List α)} {last : List α}
    (hordered : ∀ l ∈ views ++ [last], Orders before l) (hx : ∀ l ∈ views ++ [last], x ∈ l)
    (hranks : ((views ++ [last]).map (rank before x)).IsChain (· ≤ ·))
    (hshort : (page k views.length last).length < k) :
    ∃ n l, (views ++ [last])[n]? = some l ∧ x ∈ page k n l := by
  refine (exists_mem_page_or hordered hx hranks).resolve_right fun hpassed => ?_
  have hlast : last ∈ views ++ [last] := by simp
  have hle := hpassed last (by simp)
  have hlt := (hordered last hlast).rank_lt_length (hx last hlast)
  rw [List.length_append, List.length_singleton, Nat.succ_mul] at hle
  rw [page, List.length_take, List.length_drop] at hshort
  omega

end Paging
