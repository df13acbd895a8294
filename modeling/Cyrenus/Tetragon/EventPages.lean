import Cyrenus.Lib.Paging
import Cyrenus.Lib.Part
import Cyrenus.Tetragon.EventList

/-!
# Events in pages

A client reads the events page by page, with a limit and a growing offset, while the daemon stores
new events and deletes old ones. `eventPages_complete` says that it misses none: an event that is
there when the client starts and when it gets a page that is not full is on one of the pages. The
query leaves open in which order rows of the same time come; that it is the same order in every
query (`RowOrder.Fixed`) is assumed of the database.
-/

namespace Cyrenus

open Paging (page rank)
open Trace (final trace selected)

/-! ## The table -/

/-- `database_delete_old_security_events`. -/
def databaseDeleteOldSecurityEvents (deleteOk : Bool) (olderThan : ℤ) (t : SecurityEventTable) :
    SecurityEventTable :=
  if deleteOk then { t with rows := t.rows.filter fun row => olderThan ≤ row.timestamp } else t

/-- A change of the table. -/
inductive EventTableOp where
  | store (a : LineAnswers) (event : SecurityEvent)
  | deleteOld (deleteOk : Bool) (olderThan : ℤ)

/-- Carry it out. -/
def EventTableOp.run : EventTableOp → SecurityEventTable → SecurityEventTable
  | .store a event, t => tetragonStoreEvent a event t
  | .deleteOld deleteOk olderThan, t => databaseDeleteOldSecurityEvents deleteOk olderThan t

/-- The rows have different numbers, all of which have been given. -/
structure SecurityEventTable.IsNumbered (t : SecurityEventTable) : Prop where
  nodup : (t.rows.map (·.id)).Nodup
  le_lastId : ∀ row ∈ t.rows, row.id ≤ t.lastId

/-- What a change does to the rows: it adds one under the next number, or keeps those that are not
too old. -/
theorem EventTableOp.run_cases (c : EventTableOp) (t : SecurityEventTable) :
    (∃ row : SecurityEventRow, row.id = t.lastId + 1 ∧ c.run t = ⟨t.rows ++ [row], t.lastId + 1⟩) ∨
      ∃ olderThan : ℤ, c.run t =
        { t with rows := t.rows.filter fun row => olderThan ≤ row.timestamp } ∨ c.run t = t := by
  cases c with
  | store a event =>
    simp only [run, tetragonStoreEvent, dbInsertSecurityEvent]
    split
    · exact .inl ⟨_, rfl, rfl⟩
    · exact .inr ⟨0, .inr rfl⟩
  | deleteOld deleteOk olderThan =>
    simp only [run, databaseDeleteOldSecurityEvents]
    split
    · exact .inr ⟨olderThan, .inl rfl⟩
    · exact .inr ⟨0, .inr rfl⟩

/-- The rows stay numbered, and numbers are not taken back. -/
theorem EventTableOp.run_isNumbered {t : SecurityEventTable} (h : t.IsNumbered)
    (c : EventTableOp) : (c.run t).IsNumbered ∧ t.lastId ≤ (c.run t).lastId := by
  rcases c.run_cases t with ⟨row, hid, hrun⟩ | ⟨olderThan, hrun | hrun⟩
  · rw [hrun]
    refine ⟨⟨?_, fun r hr => ?_⟩, Int.le_of_lt (Int.lt_succ _)⟩
    · rw [List.map_append, List.nodup_append]
      refine ⟨h.nodup, List.nodup_singleton _, ?_⟩
      rintro _ hmem _ hnew rfl
      obtain ⟨r, hr, heq⟩ := List.mem_map.1 hmem
      have hle := h.le_lastId r hr
      rw [List.map_singleton, List.mem_singleton, hid] at hnew
      omega
    · rcases List.mem_append.1 hr with hr | hr
      · exact Int.le_trans (h.le_lastId r hr) (Int.le_of_lt (Int.lt_succ _))
      · exact Int.le_of_eq (by rw [List.mem_singleton.1 hr, hid])
  · rw [hrun]
    exact ⟨⟨h.nodup.sublist (List.filter_sublist.map _), fun r hr =>
      h.le_lastId r (List.mem_of_mem_filter hr)⟩, Int.le_refl _⟩
  · rw [hrun]
    exact ⟨h, Int.le_refl _⟩

variable {t : SecurityEventTable} {row : SecurityEventRow}

/-- A row whose number has been given is not added. -/
theorem EventTableOp.mem_of_mem_run {c : EventTableOp} (hid : row.id ≤ t.lastId)
    (hrow : row ∈ (c.run t).rows) : row ∈ t.rows := by
  rcases c.run_cases t with ⟨new, hnew, hrun⟩ | ⟨olderThan, hrun | hrun⟩
  · rw [hrun] at hrow
    rcases List.mem_append.1 hrow with hrow | hrow
    · exact hrow
    · rw [List.mem_singleton.1 hrow] at hid
      omega
  · rw [hrun] at hrow
    exact List.mem_of_mem_filter hrow
  · rwa [hrun] at hrow

/-- A row is not deleted as long as one stays that is not younger. -/
theorem EventTableOp.mem_run {c : EventTableOp} {row' : SecurityEventRow}
    (hrow : row ∈ (c.run t).rows) (hrow' : row' ∈ t.rows) (hle : row.timestamp ≤ row'.timestamp) :
    row' ∈ (c.run t).rows := by
  rcases c.run_cases t with ⟨new, hnew, hrun⟩ | ⟨olderThan, hrun | hrun⟩
  · rw [hrun]
    exact List.mem_append_left _ hrow'
  · rw [hrun] at hrow ⊢
    have hkept := of_decide_eq_true (List.mem_filter.1 hrow).2
    exact List.mem_filter.2 ⟨hrow', decide_eq_true (Int.le_trans hkept hle)⟩
  · rwa [hrun]

/-! ## The order of a query -/

/-- Any two rows come in the same order, whatever other rows a query yields. `ORDER BY timestamp`
does not promise this of rows of the same time. -/
structure RowOrder.Fixed (o : RowOrder) (before : SecurityEventRow → SecurityEventRow → Bool) :
    Prop where
  asymm : ∀ row row', before row row' = true → before row' row = false
  newer : ∀ row row', before row row' = true → row'.timestamp ≤ row.timestamp
  pairwise : ∀ rows : List SecurityEventRow, (rows.map (·.id)).Nodup →
    (o.order rows).Pairwise fun row row' => before row row' = true

/-- The later one of two rows, or the one with the greater number, comes first. -/
def byTimeAndId (row row' : SecurityEventRow) : Bool :=
  row'.timestamp < row.timestamp || (row.timestamp = row'.timestamp && row'.id < row.id)

/-- The same for rows that may be equal. -/
def byTimeAndIdLe (row row' : SecurityEventRow) : Bool :=
  row'.timestamp < row.timestamp || (row.timestamp = row'.timestamp && row'.id ≤ row.id)

theorem pairwise_byTimeAndIdLe (rows : List SecurityEventRow) :
    (rows.mergeSort byTimeAndIdLe).Pairwise fun row row' => byTimeAndIdLe row row' = true := by
  refine List.pairwise_mergeSort ?_ ?_ rows
  · intro a b c hab hbc
    simp only [byTimeAndIdLe, Bool.or_eq_true, Bool.and_eq_true, decide_eq_true_eq] at *
    omega
  · intro a b
    simp only [byTimeAndIdLe, Bool.or_eq_true, Bool.and_eq_true, decide_eq_true_eq]
    omega

/-- Rows by time, and those of the same time by number, the last ones first: what a database gives
that walks backwards over an index on the time. -/
def RowOrder.byId : RowOrder where
  order rows := rows.mergeSort byTimeAndIdLe
  perm rows := List.mergeSort_perm ..
  sorted rows := (pairwise_byTimeAndIdLe rows).imp fun {a b} hab => by
    simp only [byTimeAndIdLe, Bool.or_eq_true, Bool.and_eq_true, decide_eq_true_eq] at hab
    omega

theorem RowOrder.byId_fixed : RowOrder.byId.Fixed byTimeAndId where
  asymm row row' h := by
    simp only [byTimeAndId, Bool.or_eq_true, Bool.and_eq_true, decide_eq_true_eq,
      Bool.or_eq_false_iff, Bool.and_eq_false_iff, decide_eq_false_iff_not] at h ⊢
    omega
  newer row row' h := by
    simp only [byTimeAndId, Bool.or_eq_true, Bool.and_eq_true, decide_eq_true_eq] at h
    omega
  pairwise rows hnodup := by
    have hids : ((RowOrder.byId.order rows).map (·.id)).Nodup :=
      ((RowOrder.byId.perm rows).map _).nodup_iff.2 hnodup
    refine ((pairwise_byTimeAndIdLe rows).and (List.pairwise_map.1 hids)).imp ?_
    rintro a b ⟨hab, hne⟩
    simp only [byTimeAndIdLe, byTimeAndId, Bool.or_eq_true, Bool.and_eq_true,
      decide_eq_true_eq] at hab ⊢
    omega

/-! ## The client -/

/-- The table changes, or the client asks for its next page: up to which time, whether the database
answers, and what the array of records held before. -/
inductive PagingEvent where
  | change (c : EventTableOp)
  | page (toTime : ℤ) (listOk : Bool) (heap : ℕ → SecurityEventBuffers)

/-- The table, and the number of pages that the client has got. -/
structure PagingState where
  table : SecurityEventTable
  pages : ℕ

/-- A query up to some time. -/
def EventQuery.upTo (q : EventQuery) (toTime : ℤ) : EventQuery := { q with toTime := toTime }

/-- The query for a page: the offset is an `int`. -/
def EventQuery.forPage (q : EventQuery) (toTime : ℤ) (n : ℕ) : EventQuery :=
  { q.upTo toTime with offset := (BitVec.ofInt 32 (n * q.limit)).toInt }

section

variable (o : RowOrder) (q : EventQuery)

/-- One event: the records, if the client gets a page. -/
def pagingStep : PagingEvent → PagingState → Option (List SecurityEventBuffers) × PagingState
  | .change c, st => (none, { st with table := c.run st.table })
  | .page toTime listOk heap, st =>
    let r := databaseListSecurityEvents o listOk heap (q.forPage toTime st.pages) st.table
    (r, if r.isSome then { st with pages := st.pages + 1 } else st)

/-- All rows that a query up to some time selects, in its order. -/
def EventQuery.view (toTime : ℤ) (t : SecurityEventTable) : List SecurityEventRow :=
  o.order (t.rows.filter (q.upTo toTime).selects)

/-- What a page is one of, when the client gets one. -/
def viewed : PagingEvent → PagingState → Option (List SecurityEventRow)
  | .change _, _ => none
  | .page toTime listOk _, st =>
    if listOk ∧ 0 ≤ q.limit then some (q.view o toTime st.table) else none

/-- What the pages of a run are those of. -/
def views (st : PagingState) (events : List PagingEvent) : List (List SecurityEventRow) :=
  selected (pagingStep o q) (viewed o q) st events

/-- The time up to which an event asks. -/
def PagingEvent.bound? : PagingEvent → Option ℤ
  | .change _ => none
  | .page toTime .. => some toTime

/-- A bound does not exclude what an earlier one has let through. -/
def NotBelow (b b' : ℤ) : Prop := b' ≤ 0 ∨ 0 < b ∧ b ≤ b'

instance (b b' : ℤ) : Decidable (NotBelow b b') := inferInstanceAs (Decidable (_ ∨ _))

end

section

variable {o : RowOrder} {q : EventQuery} {before : SecurityEventRow → SecurityEventRow → Bool}

theorem NotBelow.selects {b b' : ℤ} (h : NotBelow b b')
    (hsel : (q.upTo b).selects row = true) : (q.upTo b').selects row = true := by
  simp only [EventQuery.selects, Bool.and_eq_true, Bool.or_eq_true, decide_eq_true_eq] at hsel ⊢
  obtain ⟨hrest, hbound⟩ := hsel
  refine ⟨hrest, ?_⟩
  dsimp only [EventQuery.upTo] at hbound ⊢
  rcases h with h | ⟨hpos, hle⟩ <;> omega

/-- **A page** of the rows that the query selects. -/
theorem EventQuery.rows_forPage {toTime : ℤ} {n : ℕ} (hlimit : 0 ≤ q.limit)
    (hoffset : n * q.limit < 2 ^ 31) :
    (q.forPage toTime n).rows o t = page q.limit.toNat n (q.view o toTime t) := by
  have hpos : 0 ≤ n * q.limit := Int.mul_nonneg (Int.natCast_nonneg n) hlimit
  have hint : (BitVec.ofInt 32 (n * q.limit)).toInt = n * q.limit := by
    rw [BitVec.toInt_ofInt, Int.bmod_eq_of_le_mul_two (by omega) (by omega)]
  have hnat : (n * q.limit).toNat = n * q.limit.toNat := by
    rw [Int.toNat_mul (Int.natCast_nonneg n) hlimit, Int.toNat_natCast]
  simp only [EventQuery.rows, forPage, upTo, hint, hnat]
  rfl

/-- A request that is answered gives a page. -/
theorem pagingStep_page {toTime : ℤ} {listOk : Bool} {heap : ℕ → SecurityEventBuffers}
    {st : PagingState} :
    (pagingStep o q (.page toTime listOk heap) st).2 =
      if (viewed o q (.page toTime listOk heap) st).isSome then { st with pages := st.pages + 1 }
      else st := by
  have hlimit : (q.forPage toTime st.pages).limit = q.limit := rfl
  simp only [pagingStep, viewed, databaseListSecurityEvents, hlimit]
  by_cases hok : listOk = true ∧ 0 ≤ q.limit
  · simp [if_pos hok]
  · simp [if_neg hok]

/-- The client has got as many pages as there are views. -/
theorem pages_final (events : List PagingEvent) :
    (final (pagingStep o q) ⟨t, 0⟩ events).pages = (views o q ⟨t, 0⟩ events).length := by
  induction events using List.reverseRecOn with
  | nil => rfl
  | append_singleton events e ih =>
    rw [Trace.final_concat, views, Trace.selected_concat, ← views, List.length_append, ← ih]
    cases e with
    | change c => rfl
    | page toTime listOk heap =>
      rw [pagingStep_page]
      cases viewed o q (.page toTime listOk heap) _ <;> rfl

/-- The table stays numbered. -/
theorem isNumbered_final (h : t.IsNumbered) (events : List PagingEvent) :
    (final (pagingStep o q) ⟨t, 0⟩ events).table.IsNumbered ∧
      t.lastId ≤ (final (pagingStep o q) ⟨t, 0⟩ events).table.lastId := by
  induction events using List.reverseRecOn with
  | nil => exact ⟨h, Int.le_refl _⟩
  | append_singleton events e ih =>
    obtain ⟨hnumbered, hle⟩ := ih
    rw [Trace.final_concat]
    cases e with
    | change c =>
      obtain ⟨hnext, hlast⟩ := c.run_isNumbered hnumbered
      exact ⟨hnext, Int.le_trans hle hlast⟩
    | page toTime listOk heap =>
      rw [pagingStep_page]
      split <;> exact ⟨hnumbered, hle⟩

/-- A row of the first table that is in the last one is in every one between. -/
theorem mem_of_mem_concat (h : t.IsNumbered) (hrow : row ∈ t.rows) {events : List PagingEvent}
    {e : PagingEvent}
    (hlast : row ∈ (final (pagingStep o q) ⟨t, 0⟩ (events ++ [e])).table.rows) :
    row ∈ (final (pagingStep o q) ⟨t, 0⟩ events).table.rows := by
  rw [Trace.final_concat] at hlast
  cases e with
  | change c =>
    have hle := (@isNumbered_final t o q h events).2
    exact EventTableOp.mem_of_mem_run (Int.le_trans (h.le_lastId row hrow) hle) hlast
  | page toTime listOk heap =>
    rw [pagingStep_page] at hlast
    split at hlast <;> exact hlast

/-! ## Walks over the pages -/

variable (row q before) in
/-- What the views of a run have in common, for a row that stays in the table: it is in all of them,
and never has fewer rows before it than in the one before. -/
structure Walked (st : PagingState) (views : List (List SecurityEventRow)) (bounds : List ℤ) :
    Prop where
  ordered : ∀ l ∈ views, Paging.Orders before l
  mem : ∀ l ∈ views, row ∈ l
  ranks : (views.map (rank before row)).IsChain (· ≤ ·)
  last : ∀ l ∈ views.getLast?, ∀ b, (∀ b' ∈ bounds, NotBelow b' b) →
    rank before row l ≤ rank before row (st.table.rows.filter (q.upTo b).selects)

/-- A numbered table has no row twice. -/
theorem SecurityEventTable.IsNumbered.rows_nodup (h : t.IsNumbered) : t.rows.Nodup :=
  h.nodup.of_map _

/-- A change of the table takes no row from before one that stays. -/
theorem Walked.change (hfixed : o.Fixed before) {st : PagingState} (hst : st.table.IsNumbered)
    {views : List (List SecurityEventRow)} {bounds : List ℤ} {c : EventTableOp}
    (hrow : row ∈ (c.run st.table).rows) (h : Walked row q before st views bounds) :
    Walked row q before { st with table := c.run st.table } views bounds := by
  refine ⟨h.ordered, h.mem, h.ranks, fun l hl b hb => Nat.le_trans (h.last l hl b hb) ?_⟩
  refine Paging.rank_le (hst.rows_nodup.filter _) fun y hy hbefore => ?_
  obtain ⟨hmem, hsel⟩ := List.mem_filter.1 hy
  exact List.mem_filter.2 ⟨EventTableOp.mem_run hrow hmem (hfixed.newer y row hbefore), hsel⟩

/-- One page more. -/
theorem Walked.view (hfixed : o.Fixed before) {st : PagingState} (hst : st.table.IsNumbered)
    {views : List (List SecurityEventRow)} {bounds : List ℤ} {toTime : ℤ}
    (hrow : row ∈ st.table.rows) (hsel : (q.upTo toTime).selects row = true)
    (hbounds : ∀ b ∈ bounds, NotBelow b toTime) (h : Walked row q before st views bounds) :
    Walked row q before { st with pages := st.pages + 1 }
      (views ++ [q.view o toTime st.table]) (bounds ++ [toTime]) := by
  have hperm : (q.view o toTime st.table).Perm
    (st.table.rows.filter (q.upTo toTime).selects) := o.perm _
  have hids : ((st.table.rows.filter (q.upTo toTime).selects).map (·.id)).Nodup :=
    hst.nodup.sublist (List.filter_sublist.map _)
  constructor
  case ordered =>
    intro l hl
    rcases List.mem_append.1 hl with hl | hl
    · exact h.ordered l hl
    · rw [List.mem_singleton.1 hl]
      exact ⟨hfixed.asymm, hfixed.pairwise _ hids⟩
  case mem =>
    intro l hl
    rcases List.mem_append.1 hl with hl | hl
    · exact h.mem l hl
    · rw [List.mem_singleton.1 hl]
      exact hperm.mem_iff.2 (List.mem_filter.2 ⟨hrow, hsel⟩)
  case ranks =>
    rw [List.map_append, List.isChain_append]
    refine ⟨h.ranks, List.isChain_singleton _, fun r hr r' hr' => ?_⟩
    rw [List.getLast?_map] at hr
    obtain ⟨l, hl, rfl⟩ := Option.map_eq_some_iff.1 hr
    rw [List.map_singleton, List.head?_cons, Option.mem_some_iff] at hr'
    rw [← hr', Paging.rank_perm hperm]
    exact h.last l hl toTime hbounds
  case last =>
    intro l hl b hb
    rw [List.getLast?_concat, Option.mem_some_iff] at hl
    rw [← hl, Paging.rank_perm hperm]
    refine Paging.rank_le (hst.rows_nodup.filter _) fun y hy _ => ?_
    obtain ⟨hmem, hy⟩ := List.mem_filter.1 hy
    exact List.mem_filter.2 ⟨hmem, (hb toTime (by simp)).selects hy⟩

/-- **A run** while a row stays. -/
theorem walked (hfixed : o.Fixed before) (ht : t.IsNumbered) (hrow : row ∈ t.rows)
    {events : List PagingEvent}
    (hbounds : (events.filterMap PagingEvent.bound?).Pairwise NotBelow)
    (hsel : ∀ b ∈ events.filterMap PagingEvent.bound?, (q.upTo b).selects row = true)
    (hstays : row ∈ (final (pagingStep o q) ⟨t, 0⟩ events).table.rows) :
    Walked row q before (final (pagingStep o q) ⟨t, 0⟩ events) (views o q ⟨t, 0⟩ events)
      (events.filterMap PagingEvent.bound?) := by
  induction events using List.reverseRecOn with
  | nil => exact ⟨nofun, nofun, .nil, nofun⟩
  | append_singleton events e ih =>
    have hbefore := mem_of_mem_concat ht hrow hstays
    have hnumbered := (@isNumbered_final t o q ht events).1
    rw [List.filterMap_append, List.pairwise_append] at hbounds
    rw [List.filterMap_append] at hsel
    have hinit := ih hbounds.1 (fun b hb => hsel b (List.mem_append_left _ hb)) hbefore
    rw [Trace.final_concat] at hstays ⊢
    rw [views, Trace.selected_concat, ← views, List.filterMap_append]
    cases e with
    | change c =>
      rw [show (viewed o q (.change c) _).toList = [] from rfl, List.append_nil,
        show [PagingEvent.change c].filterMap PagingEvent.bound? = [] from rfl, List.append_nil]
      exact hinit.change hfixed hnumbered hstays
    | page toTime listOk heap =>
      have hnow : ∀ b ∈ events.filterMap PagingEvent.bound?, NotBelow b toTime := fun b hb =>
        hbounds.2.2 b hb toTime (by simp [PagingEvent.bound?])
      rw [pagingStep_page, show [PagingEvent.page toTime listOk heap].filterMap
        PagingEvent.bound? = [toTime] from rfl, viewed]
      by_cases hok : listOk = true ∧ 0 ≤ q.limit
      · rw [if_pos hok]
        exact hinit.view hfixed hnumbered hbefore (hsel toTime (by simp [PagingEvent.bound?])) hnow
      · rw [if_neg hok, Option.toList_none, List.append_nil]
        refine ⟨hinit.ordered, hinit.mem, hinit.ranks, fun l hl b hb => ?_⟩
        exact hinit.last l hl b fun b' hb' => hb b' (List.mem_append_left _ hb')

/-- What an answered request gives. -/
theorem pagingStep_fst {toTime : ℤ} {listOk : Bool} {heap : ℕ → SecurityEventBuffers}
    {st : PagingState} (hoffset : st.pages * q.limit < 2 ^ 31) :
    (pagingStep o q (.page toTime listOk heap) st).1 =
      (viewed o q (.page toTime listOk heap) st).map fun l =>
        (page q.limit.toNat st.pages l).mapIdx fun i row => (heap i).fill row := by
  have hsame : (q.forPage toTime st.pages).limit = q.limit := rfl
  simp only [pagingStep, viewed, databaseListSecurityEvents, hsame]
  by_cases hok : listOk = true ∧ 0 ≤ q.limit
  · rw [if_pos hok, if_pos hok, EventQuery.rows_forPage hok.2 hoffset]
    rfl
  · rw [if_neg hok, if_neg hok]
    rfl

/-- What the client gets of a view is the page with the number of the view. -/
theorem exists_records {events : List PagingEvent} (hlimit : 0 ≤ q.limit)
    (hoffset : (final (pagingStep o q) ⟨t, 0⟩ events).pages * q.limit < 2 ^ 31) {n : ℕ}
    {l : List SecurityEventRow} (hl : (views o q ⟨t, 0⟩ events)[n]? = some l) :
    ∃ (e : PagingEvent) (heap : ℕ → SecurityEventBuffers), (e, some ((page q.limit.toNat n l).mapIdx
      fun i row => (heap i).fill row)) ∈ trace (pagingStep o q) ⟨t, 0⟩ events := by
  induction events using List.reverseRecOn with
  | nil => cases hl
  | append_singleton events e ih =>
    have hpages := @pages_final t o q events
    have hnext := @pages_final t o q (events ++ [e])
    have hconcat : views o q ⟨t, 0⟩ (events ++ [e]) = views o q ⟨t, 0⟩ events ++
        (viewed o q e (final (pagingStep o q) ⟨t, 0⟩ events)).toList := Trace.selected_concat ..
    rw [hconcat] at hl hnext
    rw [List.length_append] at hnext
    have hfew : (final (pagingStep o q) ⟨t, 0⟩ events).pages * q.limit < 2 ^ 31 := by
      refine Int.lt_of_le_of_lt (Int.mul_le_mul_of_nonneg_right ?_ hlimit) hoffset
      omega
    rw [Trace.trace_concat]
    rcases Nat.lt_or_ge n (views o q ⟨t, 0⟩ events).length with hn | hn
    · rw [List.getElem?_append_left hn] at hl
      obtain ⟨e', heap, hmem⟩ := ih hfew hl
      exact ⟨e', heap, List.mem_append_left _ hmem⟩
    · rw [List.getElem?_append_right hn] at hl
      cases e with
      | change c => cases hl
      | page toTime listOk heap =>
        cases hviewed : viewed o q (.page toTime listOk heap)
          (final (pagingStep o q) ⟨t, 0⟩ events) with
        | none =>
          rw [hviewed] at hl
          cases hl
        | some l' =>
          rw [hviewed, Option.toList_some, List.getElem?_singleton, Option.ite_none_right_eq_some,
            Option.some.injEq] at hl
          obtain ⟨hzero, rfl⟩ := hl
          have hn' : n = (final (pagingStep o q) ⟨t, 0⟩ events).pages := by omega
          refine ⟨.page toTime listOk heap, heap, List.mem_append_right _ ?_⟩
          rw [pagingStep_fst hfew, hviewed, hn']
          exact List.mem_singleton.2 rfl

end

/-- **Nothing is missed.** Let a client read the events in pages while new ones are stored and old
ones are deleted. The database is to order rows alike in every query, each bound on the time is to
let through what the ones before it let through, and the offset is to fit 32 bits. An event that the
query selects and that is in the table when it starts, and still is when it gets a page that is not
full, is on one of the pages that it has got. -/
theorem eventPages_complete (o : RowOrder)
    (before : SecurityEventRow → SecurityEventRow → Bool) (hfixed : o.Fixed before)
    (q : EventQuery) (hlimit : 0 < q.limit) (t : SecurityEventTable) (ht : t.IsNumbered)
    (events : List PagingEvent) (toTime : ℤ) (listOk : Bool) (heap : ℕ → SecurityEventBuffers)
    (hbounds : (events.filterMap PagingEvent.bound? ++ [toTime]).Pairwise NotBelow)
    (hoffset : ((final (pagingStep o q) ⟨t, 0⟩ events).pages + 1) * q.limit < 2 ^ 31)
    (records : List SecurityEventBuffers)
    (hpage : (pagingStep o q (.page toTime listOk heap)
      (final (pagingStep o q) ⟨t, 0⟩ events)).1 = some records)
    (hshort : records.length < q.limit) (row : SecurityEventRow) (hrow : row ∈ t.rows)
    (hsel : ∀ b ∈ events.filterMap PagingEvent.bound? ++ [toTime],
      (q.upTo b).selects row = true)
    (hstays : row ∈ (final (pagingStep o q) ⟨t, 0⟩ events).table.rows) :
    ∃ io ∈ trace (pagingStep o q) ⟨t, 0⟩ (events ++ [.page toTime listOk heap]),
      ∃ got ∈ io.2, ∃ rec ∈ got, rec.id = row.id ∧ rec.timestamp = row.timestamp := by
  have hbounds' : (events ++ [PagingEvent.page toTime listOk heap]).filterMap
      PagingEvent.bound? = events.filterMap PagingEvent.bound? ++ [toTime] := List.filterMap_append
  have hpages : (final (pagingStep o q) ⟨t, 0⟩ (events ++ [.page toTime listOk heap])).pages ≤
      (final (pagingStep o q) ⟨t, 0⟩ events).pages + 1 := by
    rw [Trace.final_concat, pagingStep_page]
    split <;> simp
  have hstays' : row ∈
      (final (pagingStep o q) ⟨t, 0⟩ (events ++ [.page toTime listOk heap])).table.rows := by
    rw [Trace.final_concat, pagingStep_page]
    split <;> exact hstays
  have hwalk := walked hfixed ht hrow (by rwa [hbounds']) (by rwa [hbounds']) hstays'
  rw [pagingStep_fst (Int.lt_of_le_of_lt (Int.mul_le_mul_of_nonneg_right
    (Int.le_of_lt (Int.lt_succ _)) (Int.le_of_lt hlimit)) hoffset)] at hpage
  obtain ⟨last, hlast, rfl⟩ := Option.map_eq_some_iff.1 hpage
  have hviews : views o q ⟨t, 0⟩ (events ++ [.page toTime listOk heap]) =
      views o q ⟨t, 0⟩ events ++ [last] := by
    rw [views, Trace.selected_concat, hlast]
    rfl
  rw [List.length_mapIdx, pages_final] at hshort
  rw [hviews] at hwalk
  obtain ⟨n, l, hl, hmem⟩ := Paging.exists_mem_page hwalk.ordered hwalk.mem hwalk.ranks
    (show (page q.limit.toNat _ last).length < q.limit.toNat by omega)
  rw [← hviews] at hl
  obtain ⟨e, heap', hin⟩ := exists_records (Int.le_of_lt hlimit) (Int.lt_of_le_of_lt
    (Int.mul_le_mul_of_nonneg_right (by omega) (Int.le_of_lt hlimit)) hoffset) hl
  obtain ⟨i, hi, rfl⟩ := List.getElem_of_mem hmem
  exact ⟨_, hin, _, rfl, _, List.mem_mapIdx.2 ⟨i, hi, rfl⟩, rfl, rfl⟩

/-- A table of two events. -/
def twoEvents : SecurityEventTable :=
  tetragonStoreEvent ⟨1700000001, true, 1700000001, true⟩ execEvent
    (tetragonStoreEvent ⟨1700000000, true, 1700000000, true⟩ execEvent ⟨[], 0⟩)

/-- A client gets a page of two events of the same time, the second one first. A third one is
stored, and it gets a page with the first one. -/
theorem eventPages_complete_two :
    let q : EventQuery := ⟨0, none, 0, 0, 2, 0⟩
    let heap : ℕ → SecurityEventBuffers := fun _ => .filled
    let events : List PagingEvent :=
      [.page 0 true heap, .change (.store ⟨1700000002, true, 1700000002, true⟩ execEvent)]
    ∃ io ∈ trace (pagingStep .byId q) ⟨twoEvents, 0⟩ (events ++ [.page 0 true heap]),
      ∃ got ∈ io.2, ∃ rec ∈ got, rec.id = 1 ∧ rec.timestamp = 0 := by
  intro q heap events
  let st := final (pagingStep .byId q) ⟨twoEvents, 0⟩ events
  have hpage : (pagingStep .byId q (.page 0 true heap) st).1 =
      some (((q.forPage 0 st.pages).rows .byId st.table).mapIdx fun i row =>
        (heap i).fill row) := by
    have hok : true = true ∧ 0 ≤ (q.forPage 0 st.pages).limit := ⟨rfl, by decide⟩
    rw [pagingStep, databaseListSecurityEvents, if_pos hok]
  have hlength : (RowOrder.byId.order (st.table.rows.filter
      (q.forPage 0 st.pages).selects)).length = 3 := (RowOrder.byId.perm _).length_eq.trans rfl
  refine eventPages_complete .byId byTimeAndId RowOrder.byId_fixed q (by decide) twoEvents
    ⟨by decide, by decide⟩ events 0 true heap (by decide) (by decide) _ hpage ?_
    ((storedArgs true execEvent).row 1 1700000000) List.mem_cons_self (by decide)
    List.mem_cons_self
  rw [List.length_mapIdx, EventQuery.rows, List.length_take, List.length_drop, hlength]
  decide

end Cyrenus
