import Cyrenus.Lib.Trace

/-!
# Parts of a machine

A view of the states of a machine shows a part of it. Of the inputs of a run, some reach the part,
as `sel` says, and the others leave it alone; so the part goes through a run of its own, on the
inputs that reach it (`selected`). If one step acts on the view as `act` does, a run acts on it as
`act` does on the selected inputs (`IsPart.view_final`), and if the machine answers those inputs as
the part does, their answers in a run are those of the part's own run (`IsPart.filterMap_trace`).
-/

namespace Trace

variable {σ ι ω κ τ υ : Type*}

/-- The inputs of a run that reach a part, as it sees them. -/
def selected (step : ι → σ → ω × σ) (sel : ι → σ → Option κ) : σ → List ι → List κ
  | _, [] => []
  | s, i :: is => (sel i s).toList ++ selected step sel (step i s).2 is

variable {step : ι → σ → ω × σ} {sel : ι → σ → Option κ}

@[simp] theorem selected_nil (s : σ) : selected step sel s [] = [] := rfl

@[simp] theorem selected_cons (s : σ) (i : ι) (is : List ι) :
    selected step sel s (i :: is) = (sel i s).toList ++ selected step sel (step i s).2 is := rfl

/-- The inputs selected with one more. -/
theorem selected_concat (s : σ) (is : List ι) (i : ι) :
    selected step sel s (is ++ [i]) =
      selected step sel s is ++ (sel i (final step s is)).toList := by
  induction is generalizing s with
  | nil => simp
  | cons j is ih =>
    rw [List.cons_append, selected_cons, selected_cons, ih, List.append_assoc, final_cons]

/-- What is selected reached the part at some moment of the run. -/
theorem mem_selected_iff {s : σ} {is : List ι} {k : κ} :
    k ∈ selected step sel s is ↔
      ∃ pre i, pre ++ [i] <+: is ∧ sel i (final step s pre) = some k := by
  induction is using List.reverseRecOn with
  | nil => simp
  | append_singleton is j ih =>
    rw [selected_concat, List.mem_append, ih, Option.mem_toList]
    constructor
    · rintro (⟨pre, i, hpre, hk⟩ | hk)
      · exact ⟨pre, i, hpre.trans (List.prefix_append ..), hk⟩
      · exact ⟨is, j, List.prefix_rfl, hk⟩
    · rintro ⟨pre, i, hpre, hk⟩
      obtain ⟨rfl, rfl⟩ | hpre := concat_prefix_concat.1 hpre
      · exact .inr hk
      · exact .inl ⟨pre, i, hpre, hk⟩

/-- Where the input alone tells what reaches the part, what is selected is read off the inputs. -/
theorem selected_eq_filterMap {f : ι → Option κ} (h : ∀ i s, sel i s = f i) (s : σ)
    (is : List ι) : selected step sel s is = is.filterMap f := by
  induction is generalizing s with
  | nil => rfl
  | cons i is ih =>
    rw [selected_cons, List.filterMap_cons, h, ih]
    cases f i <;> rfl

/-- What is selected of one more input. -/
theorem filterMap_concat (f : ι → Option κ) (is : List ι) (i : ι) :
    (is ++ [i]).filterMap f = is.filterMap f ++ (f i).toList := by
  rw [List.filterMap_append]
  cases h : f i <;> simp [h]

/-- What is selected in two steps. -/
theorem selected_bind {κ' : Type*} (f : κ → Option κ') (s : σ) (is : List ι) :
    selected step (fun i s => (sel i s).bind f) s is =
      (selected step sel s is).filterMap f := by
  induction is generalizing s with
  | nil => rfl
  | cons i is ih =>
    rw [selected_cons, selected_cons, List.filterMap_append, ih]
    cases hsel : sel i s with
    | none => rfl
    | some k => cases hk : f k <;> simp [hk]

/-- Every step acts on the view as `act` does on the input that it selects, and leaves the view
alone if it selects none. -/
def IsPart (step : ι → σ → ω × σ) (view : σ → τ) (sel : ι → σ → Option κ) (act : κ → τ → τ) :
    Prop :=
  ∀ i s, view (step i s).2 = (sel i s).elim (view s) fun k => act k (view s)

namespace IsPart

variable {view : σ → τ} {act : κ → τ → τ}

/-- **The part of a run.** -/
theorem view_final (h : IsPart step view sel act) (s : σ) (is : List ι) :
    view (final step s is) = (selected step sel s is).foldl (fun t k => act k t) (view s) := by
  induction is generalizing s with
  | nil => rfl
  | cons i is ih =>
    rw [final_cons, ih, selected_cons, List.foldl_append, h]
    cases sel i s <;> rfl

/-- A part of a part is a part. -/
theorem comp {κ' τ' : Type*} {view' : τ → τ'} {sel' : κ → Option κ'} {act' : κ' → τ' → τ'}
    (h : IsPart step view sel act)
    (h' : ∀ k t, view' (act k t) = (sel' k).elim (view' t) fun k' => act' k' (view' t)) :
    IsPart step (fun s => view' (view s)) (fun i s => (sel i s).bind sel') act' := by
  intro i s
  dsimp only
  rw [h i s]
  cases sel i s with
  | none => rfl
  | some k => exact h' k (view s)

end IsPart

/-- A machine whose actions are those of another one leaves its states. -/
theorem final_eq_foldl {part : κ → τ → υ × τ} (t : τ) (ks : List κ) :
    final part t ks = ks.foldl (fun t k => (part k t).2) t := by
  induction ks generalizing t with
  | nil => rfl
  | cons k ks ih => exact ih _

variable {view : σ → τ} {part : κ → τ → υ × τ}

/-- **The run of a part** that is itself a machine. -/
theorem IsPart.view_final_eq (h : IsPart step view sel fun k t => (part k t).2) (s : σ)
    (is : List ι) : view (final step s is) = final part (view s) (selected step sel s is) := by
  rw [h.view_final, final_eq_foldl]

/-- **What the part answers.** Let `obs` read off an input and its output the input that is selected
and the answer of the part to it. Then what it reads off a run is the part's own run. -/
theorem IsPart.filterMap_trace {obs : ι × ω → Option (κ × υ)}
    (h : IsPart step view sel fun k t => (part k t).2)
    (hobs : ∀ i s, obs (i, (step i s).1) = (sel i s).map fun k => (k, (part k (view s)).1))
    (s : σ) (is : List ι) :
    (trace step s is).filterMap obs = trace part (view s) (selected step sel s is) := by
  induction is generalizing s with
  | nil => rfl
  | cons i is ih =>
    have hview := h i s
    rw [trace_cons, selected_cons, List.filterMap_cons, hobs, ih]
    cases hsel : sel i s with
    | none =>
      rw [hsel] at hview
      rw [hview]
      rfl
    | some k =>
      rw [hsel] at hview
      rw [hview]
      rfl

/-! ## Inputs that the past selects -/

/-- The inputs of a run that reach a part, where the inputs before tell which ones do. -/
def selectedAfter (sel : List ι → ι → Option κ) : List ι → List ι → List κ
  | _, [] => []
  | past, i :: is => (sel past i).toList ++ selectedAfter sel (past ++ [i]) is

/-- What an input selects is among the inputs selected. -/
theorem mem_selectedAfter {sel : List ι → ι → Option κ} {past pre is : List ι} {i : ι} {k : κ}
    (hpre : pre ++ [i] <+: is) (hk : sel (past ++ pre) i = some k) :
    k ∈ selectedAfter sel past is := by
  induction pre generalizing past is with
  | nil =>
    obtain ⟨post, rfl⟩ := hpre
    rw [List.append_nil] at hk
    rw [List.nil_append, List.singleton_append, selectedAfter, hk]
    exact List.mem_append_left _ (List.mem_singleton.2 rfl)
  | cons j pre ih =>
    obtain ⟨post, rfl⟩ := hpre
    rw [List.append_cons] at hk
    rw [List.cons_append, List.cons_append, selectedAfter]
    exact List.mem_append_right _ (ih (List.prefix_append ..) hk)

/-- As long as the state keeps to what the past says of it, every step acts on the view and answers
as the part does on the input that is selected, and otherwise does neither. -/
structure IsSerial (step : ι → σ → Option υ × σ) (Inv : List ι → σ → Prop) (view : σ → τ)
    (sel : List ι → ι → Option κ) (part : κ → τ → υ × τ) : Prop where
  keeps : ∀ {past s}, Inv past s → ∀ i, Inv (past ++ [i]) (step i s).2
  output : ∀ {past s}, Inv past s → ∀ i,
    (step i s).1 = (sel past i).map fun k => (part k (view s)).1
  next : ∀ {past s}, Inv past s → ∀ i,
    view (step i s).2 = (sel past i).elim (view s) fun k => (part k (view s)).2

/-- **A serial run.** The answers of the machine are those of the part's own run, which ends in the
part of the last state. -/
theorem IsSerial.run {step : ι → σ → Option υ × σ} {Inv : List ι → σ → Prop}
    {sel : List ι → ι → Option κ} (h : IsSerial step Inv view sel part) {past : List ι} {s : σ}
    (hinv : Inv past s) (is : List ι) :
    (trace step s is).filterMap Prod.snd =
        (trace part (view s) (selectedAfter sel past is)).map Prod.snd ∧
      view (final step s is) = final part (view s) (selectedAfter sel past is) := by
  induction is generalizing past s with
  | nil => exact ⟨rfl, rfl⟩
  | cons i is ih =>
    obtain ⟨houtputs, hview⟩ := ih (h.keeps hinv i)
    rw [h.next hinv] at houtputs hview
    rw [trace_cons, final_cons, selectedAfter, List.filterMap_cons, h.output hinv, houtputs, hview]
    cases sel past i <;> exact ⟨rfl, rfl⟩

end Trace
