import Mathlib.Data.List.Perm.Basic

/-!
# Runs of partial steps

A run takes one step for each item of a list and fails as soon as a step fails. What every step
keeps, a run keeps; where every step appends one element to a view of the state, a run appends one
for each item; each item of a run has a step of its own in it; and steps that are taken alike make
runs that are taken alike.
-/

namespace Rollup.Run

variable {σ α γ : Type} {step : σ → α → Option σ} {items : List α} {first last : σ}

/-- A run over a list that starts with an item takes the step of that item first. -/
theorem cons_iff {item : α} :
    (item :: items).foldlM step first = some last ↔
      ∃ next, step first item = some next ∧ items.foldlM step next = some last := by
  rw [List.foldlM_cons]
  exact Option.bind_eq_some_iff

/-- A run keeps what every step keeps. -/
theorem keeps {P : σ → Prop}
    (kept : ∀ item ∈ items, ∀ s s', P s → step s item = some s' → P s')
    (start : P first) (run : items.foldlM step first = some last) : P last := by
  induction items generalizing first with
  | nil =>
    cases run
    exact start
  | cons item rest ih =>
    obtain ⟨next, taken, run⟩ := cons_iff.1 run
    exact ih (fun other later => kept other (List.mem_cons_of_mem item later))
      (kept item List.mem_cons_self first next start taken) run

/-- Where every step appends a function of its item, a run appends the image of its items. -/
theorem appends_map (view : σ → List γ) (f : α → γ)
    (grown : ∀ item ∈ items, ∀ s s', step s item = some s' → view s' = view s ++ [f item])
    (run : items.foldlM step first = some last) : view last = view first ++ items.map f := by
  induction items generalizing first with
  | nil =>
    cases run
    exact (List.append_nil _).symm
  | cons item rest ih =>
    obtain ⟨next, taken, run⟩ := cons_iff.1 run
    rw [ih (fun other later => grown other (List.mem_cons_of_mem item later)) run,
      grown item List.mem_cons_self first next taken, List.append_assoc, List.singleton_append,
      List.map_cons]

/-- A run leads from its first state to its last along every preorder that contains its steps. -/
theorem leads {le : σ → σ → Prop} (refl : ∀ s, le s s)
    (trans : ∀ {s t u}, le s t → le t u → le s u)
    (forward : ∀ item ∈ items, ∀ s s', step s item = some s' → le s s')
    (run : items.foldlM step first = some last) : le first last := by
  have onward : ∀ item ∈ items, ∀ s s', le first s → step s item = some s' → le first s' :=
    fun item given s s' reached taken => trans reached (forward item given s s' taken)
  exact keeps onward (refl first) run

/-- Each item of a run has its step in the run. -/
theorem passes {le : σ → σ → Prop} (refl : ∀ s, le s s)
    (trans : ∀ {s t u}, le s t → le t u → le s u)
    (forward : ∀ item ∈ items, ∀ s s', step s item = some s' → le s s')
    (run : items.foldlM step first = some last) {item : α} (given : item ∈ items) :
    ∃ s s', le first s ∧ step s item = some s' ∧ le s' last := by
  induction items generalizing first with
  | nil => cases given
  | cons head rest ih =>
    obtain ⟨next, taken, ran⟩ := cons_iff.1 run
    have forwardRest : ∀ other ∈ rest, ∀ s s', step s other = some s' → le s s' :=
      fun other later => forward other (List.mem_cons_of_mem head later)
    rcases List.mem_cons.1 given with rfl | later
    · exact ⟨first, next, refl first, taken, leads refl trans forwardRest ran⟩
    · obtain ⟨s, s', reached, step, onward⟩ := ih forwardRest ran later
      exact ⟨s, s', trans (forward head List.mem_cons_self first next taken) reached, step,
        onward⟩

/-- A run appends to a view of the state one element for each item, each in the step of its item. -/
theorem traced (view : σ → List γ) {le : σ → σ → Prop} (refl : ∀ s, le s s)
    (trans : ∀ {s t u}, le s t → le t u → le s u)
    (forward : ∀ item ∈ items, ∀ s s', step s item = some s' → le s s')
    (grown : ∀ item ∈ items, ∀ s s', step s item = some s' → ∃ c, view s' = view s ++ [c])
    (run : items.foldlM step first = some last) :
    ∃ cs, List.Forall₂ (fun item c => ∃ s s', le first s ∧ step s item = some s' ∧
        view s' = view s ++ [c] ∧ le s' last) items cs ∧ view last = view first ++ cs := by
  induction items generalizing first with
  | nil =>
    cases run
    exact ⟨[], List.Forall₂.nil, (List.append_nil _).symm⟩
  | cons head rest ih =>
    obtain ⟨next, taken, ran⟩ := cons_iff.1 run
    have forwardRest : ∀ other ∈ rest, ∀ s s', step s other = some s' → le s s' :=
      fun other later => forward other (List.mem_cons_of_mem head later)
    have there : le first next := forward head List.mem_cons_self first next taken
    obtain ⟨c, here⟩ := grown head List.mem_cons_self first next taken
    obtain ⟨cs, each, added⟩ :=
      ih forwardRest (fun other later => grown other (List.mem_cons_of_mem head later)) ran
    refine ⟨c :: cs, List.Forall₂.cons ?_ (each.imp ?_), ?_⟩
    · exact ⟨first, next, refl first, taken, here, leads refl trans forwardRest ran⟩
    · rintro item c ⟨s, s', reached, taken', added', onward⟩
      exact ⟨s, s', trans there reached, taken', added', onward⟩
    · rw [added, here, List.append_assoc, List.singleton_append]

/-- Every element of an append-only view was there at first or was appended by a step of the
run. -/
theorem origin (view : σ → List γ) {le : σ → σ → Prop} (refl : ∀ s, le s s)
    (trans : ∀ {s t u}, le s t → le t u → le s u)
    (forward : ∀ item ∈ items, ∀ s s', step s item = some s' → le s s')
    (grown : ∀ item ∈ items, ∀ s s', step s item = some s' → ∃ c, view s' = view s ++ [c])
    (run : items.foldlM step first = some last) {c : γ} (held : c ∈ view last) :
    c ∈ view first ∨ ∃ item ∈ items, ∃ s s', le first s ∧ step s item = some s' ∧
      view s' = view s ++ [c] ∧ le s' last := by
  induction items generalizing first with
  | nil =>
    cases run
    exact Or.inl held
  | cons head rest ih =>
    obtain ⟨next, taken, ran⟩ := cons_iff.1 run
    have forwardRest : ∀ other ∈ rest, ∀ s s', step s other = some s' → le s s' :=
      fun other later => forward other (List.mem_cons_of_mem head later)
    have there : le first next := forward head List.mem_cons_self first next taken
    rcases ih forwardRest (fun other later => grown other (List.mem_cons_of_mem head later)) ran
      with early | ⟨item, later, s, s', reached, taken', added, onward⟩
    · obtain ⟨c', here⟩ := grown head List.mem_cons_self first next taken
      rw [here] at early
      rcases List.mem_append.1 early with old | new
      · exact Or.inl old
      · rw [List.mem_singleton.1 new]
        exact Or.inr ⟨head, List.mem_cons_self, first, next, refl first, taken, here,
          leads refl trans forwardRest ran⟩
    · exact Or.inr ⟨item, List.mem_cons_of_mem head later, s, s', trans there reached, taken',
        added, onward⟩

/-- A run is taken alike by every step function that takes its steps alike. -/
theorem mono {other : σ → α → Option σ}
    (alike : ∀ item ∈ items, ∀ s s', step s item = some s' → other s item = some s')
    (run : items.foldlM step first = some last) : items.foldlM other first = some last := by
  induction items generalizing first with
  | nil => exact run
  | cons item rest ih =>
    obtain ⟨next, taken, run⟩ := cons_iff.1 run
    have onward := ih (fun item' later => alike item' (List.mem_cons_of_mem item later)) run
    exact cons_iff.2 ⟨next, alike item List.mem_cons_self first next taken, onward⟩

/-- Runs of steps that agree on the items are the same, also where they fail. -/
theorem congr {other : σ → α → Option σ}
    (agree : ∀ item ∈ items, ∀ s, step s item = other s item) :
    items.foldlM step first = items.foldlM other first := by
  apply Option.ext
  intro last
  constructor
  · exact mono fun item given s s' taken => (agree item given s).symm.trans taken
  · exact mono fun item given s s' taken => (agree item given s).trans taken

/-- Where every step adds to a view of the state what its item alone decides, a run adds what all
its items decide. -/
theorem map_foldlM {τ : Type} (inv : σ → Prop) (view : σ → τ) (piece? : α → Option γ)
    (add : τ → γ → τ)
    (adds : ∀ item ∈ items, ∀ s, inv s →
      (step s item).map view = (piece? item).map (add (view s)))
    (kept : ∀ item ∈ items, ∀ s s', inv s → step s item = some s' → inv s')
    (start : inv first) :
    (items.foldlM step first).map view =
      (items.mapM piece?).map fun pieces => pieces.foldl add (view first) := by
  induction items generalizing first with
  | nil => rfl
  | cons item rest ih =>
    have here := adds item List.mem_cons_self first start
    rw [List.foldlM_cons, List.mapM_cons]
    cases taken : step first item with
    | none =>
      rw [taken] at here
      rw [Option.map_eq_none_iff.1 here.symm]
      rfl
    | some next =>
      rw [taken] at here
      obtain ⟨c, piece, added⟩ := Option.map_eq_some_iff.1 here.symm
      have there := ih (fun other later => adds other (List.mem_cons_of_mem item later))
        (fun other later => kept other (List.mem_cons_of_mem item later))
        (kept item List.mem_cons_self first next start taken)
      change (rest.foldlM step next).map view = _
      rw [there, piece, ← added]
      cases rest.mapM piece? <;> rfl

/-- A list of attempts succeeds as a whole with the list of their results. -/
theorem mapM_eq_some_iff {f : α → Option γ} {results : List γ} :
    items.mapM f = some results ↔ List.Forall₂ (fun a c => f a = some c) items results := by
  induction items generalizing results with
  | nil =>
    constructor
    · intro done
      cases done
      exact List.Forall₂.nil
    · intro none
      cases none
      rfl
  | cons item rest ih =>
    rw [List.mapM_cons]
    constructor
    · intro done
      obtain ⟨c, here, done⟩ := Option.bind_eq_some_iff.1 done
      obtain ⟨cs, there, done⟩ := Option.bind_eq_some_iff.1 done
      cases done
      exact List.Forall₂.cons here (ih.1 there)
    · intro each
      cases each with
      | cons here there =>
        rw [here, ih.2 there]
        rfl

/-- Attempts that agree on the items of a list have the same results, also where they fail. -/
theorem mapM_congr {f g : α → Option γ} (agree : ∀ item ∈ items, f item = g item) :
    items.mapM f = items.mapM g := by
  have images : items.map f = items.map g := List.map_congr_left agree
  change items.mapM (id ∘ f) = items.mapM (id ∘ g)
  rw [← List.mapM_map, ← List.mapM_map, images]

section Rel

variable {β δ : Type} {a? : Option α} {b? : Option β} {related : α → β → Prop}

/-- An attempt that succeeds is related to one that succeeds. -/
theorem exists_of_rel {a : α} (alike : Option.Rel related (some a) b?) :
    ∃ b, b? = some b ∧ related a b := by
  cases alike with
  | some same => exact ⟨_, rfl, same⟩

/-- Attempts with related results have results that are related by whatever follows. -/
theorem rel_imp {weaker : α → β → Prop} (alike : Option.Rel related a? b?)
    (follows : ∀ a b, related a b → weaker a b) : Option.Rel weaker a? b? := by
  cases alike with
  | none => exact .none
  | some same => exact .some (follows _ _ same)

/-- Attempts with related results have images of results that are related. -/
theorem rel_map {f : α → γ} {g : β → δ} {images : γ → δ → Prop} (alike : Option.Rel related a? b?)
    (follows : ∀ a b, related a b → images (f a) (g b)) :
    Option.Rel images (a?.map f) (b?.map g) := by
  cases alike with
  | none => exact .none
  | some same => exact .some (follows _ _ same)

/-- Attempts with related results go on to related results. -/
theorem rel_bind {f : α → Option γ} {g : β → Option δ} {onward : γ → δ → Prop}
    (alike : Option.Rel related a? b?)
    (follows : ∀ a b, related a b → Option.Rel onward (f a) (g b)) :
    Option.Rel onward (a?.bind f) (b?.bind g) := by
  cases alike with
  | none => exact .none
  | some same => exact follows _ _ same

/-- Lists of attempts with related results have related lists of results, or none. -/
theorem rel_mapM {f : α → Option γ} {g : β → Option δ} {results : γ → δ → Prop} {others : List β}
    (alike : List.Forall₂ (fun a b => Option.Rel results (f a) (g b)) items others) :
    Option.Rel (List.Forall₂ results) (items.mapM f) (others.mapM g) := by
  induction alike with
  | nil => exact .some .nil
  | cons here there ih =>
    rw [List.mapM_cons, List.mapM_cons]
    refine rel_bind here fun c d same => rel_bind ih fun cs ds each => ?_
    exact .some (.cons same each)

end Rel

/-- Attempts in another order have the same results in another order, or none. -/
theorem mapM_perm {others : List α} (f : α → Option γ) (same : items.Perm others) :
    Option.Rel List.Perm (items.mapM f) (others.mapM f) := by
  have reordered : ∀ {xs ys : List α} {results : List γ}, xs.Perm ys → ys.mapM f = some results →
      ∃ results', xs.mapM f = some results' ∧ results'.Perm results := by
    intro xs ys results same done
    obtain ⟨results', each, moved⟩ := List.perm_comp_forall₂ same (mapM_eq_some_iff.1 done)
    exact ⟨results', mapM_eq_some_iff.2 each, moved⟩
  cases done : others.mapM f with
  | some results =>
    obtain ⟨results', done', moved⟩ := reordered same done
    rw [done']
    exact .some moved
  | none =>
    cases done' : items.mapM f with
    | none => exact .none
    | some results' =>
      obtain ⟨results, found, -⟩ := reordered same.symm done'
      cases done.symm.trans found

/-- Each result of matched lists has an item that it matches. -/
theorem exists_item {related : α → γ → Prop} {results : List γ}
    (each : List.Forall₂ related items results) {c : γ} (given : c ∈ results) :
    ∃ a ∈ items, related a c := by
  induction each with
  | nil => cases given
  | cons here _ ih =>
    rcases List.mem_cons.1 given with rfl | later
    · exact ⟨_, List.mem_cons_self, here⟩
    · obtain ⟨a, held, there⟩ := ih later
      exact ⟨a, List.mem_cons_of_mem _ held, there⟩

/-- Where every item has something that it matches, the items match a list of results. -/
theorem exists_results {related : α → γ → Prop} (each : ∀ a ∈ items, ∃ c, related a c) :
    ∃ results, List.Forall₂ related items results := by
  induction items with
  | nil => exact ⟨[], List.Forall₂.nil⟩
  | cons item rest ih =>
    obtain ⟨⟨c, here⟩, each⟩ := List.forall_mem_cons.1 each
    obtain ⟨cs, there⟩ := ih each
    exact ⟨c :: cs, List.Forall₂.cons here there⟩

end Rollup.Run
