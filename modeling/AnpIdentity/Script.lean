import Mathlib.Data.List.Basic

/-! Scripts of appends and removals on a list: which items are there after a script, and which items it leaves alone. -/

namespace AnpIdentity.Script
variable {α : Type}

inductive Step (α : Type) where
  | append (item : α)
  | retain (keep : α → Bool)

def Step.apply (items : List α) : Step α → List α
  | .append item => items ++ [item]
  | .retain keep => items.filter keep

def run (items : List α) (steps : List (Step α)) : List α := steps.foldl Step.apply items

/-- The step removes no copy of the item. -/
def Step.Keeps (x : α) : Step α → Prop
  | .append _ => True
  | .retain keep => keep x = true

/-- The step adds none of the selected items. -/
def Step.Withholds (selected : α → Bool) : Step α → Prop
  | .append item => selected item = false
  | .retain _ => True

/-- The step neither adds nor removes selected items. -/
def Step.Spares (selected : α → Bool) : Step α → Prop
  | .append item => selected item = false
  | .retain keep => ∀ x, selected x = true → keep x = true

section
variable {items : List α} {steps first second : List (Step α)} {selected : α → Bool} {x : α}

theorem run_append : run items (first ++ second) = run (run items first) second := List.foldl_append ..

theorem filter_run (spares : ∀ step ∈ steps, step.Spares selected) :
    (run items steps).filter selected = items.filter selected := by
  induction steps generalizing items with
  | nil => rfl
  | cons step rest ih =>
    have here := spares step List.mem_cons_self
    refine (ih (fun step inside => spares step (List.mem_cons_of_mem _ inside))).trans ?_
    cases step with
    | append item =>
      have other : selected item = false := here
      simp [Step.apply, other]
    | retain keep =>
      have kept : ∀ x, selected x = true → keep x = true := here
      rw [Step.apply, List.filter_filter]
      refine List.filter_congr (fun x _ => ?_)
      cases chosen : selected x with
      | true => simp [kept x chosen]
      | false => rfl

theorem filter_run_nil (withholds : ∀ step ∈ steps, step.Withholds selected) (none : items.filter selected = []) :
    (run items steps).filter selected = [] := by
  induction steps generalizing items with
  | nil => exact none
  | cons step rest ih =>
    have here := withholds step List.mem_cons_self
    refine ih (fun step inside => withholds step (List.mem_cons_of_mem _ inside)) ?_
    cases step with
    | append item =>
      have other : selected item = false := here
      simpa [Step.apply, other] using none
    | retain keep =>
      rw [Step.apply, List.filter_comm, none]
      rfl

theorem countP_le_run (keeps : ∀ step ∈ steps, ∀ x, selected x = true → step.Keeps x) :
    items.countP selected ≤ (run items steps).countP selected := by
  induction steps generalizing items with
  | nil => exact Nat.le_refl _
  | cons step rest ih =>
    have here := keeps step List.mem_cons_self
    refine Nat.le_trans ?_ (ih (fun step inside => keeps step (List.mem_cons_of_mem _ inside)))
    cases step with
    | append item => simp [Step.apply]
    | retain keep =>
      have kept : ∀ x, selected x = true → keep x = true := here
      rw [Step.apply, List.countP_filter]
      refine List.countP_mono_left (fun x _ chosen => ?_)
      simp [chosen, kept x chosen]

/-- An item is there after a script if it was there and stayed, or was added and stayed. -/
theorem mem_run : x ∈ run items steps ↔ (x ∈ items ∧ ∀ step ∈ steps, step.Keeps x) ∨
    ∃ before after, steps = before ++ .append x :: after ∧ ∀ step ∈ after, step.Keeps x := by
  induction steps generalizing items with
  | nil => simp [run]
  | cons step rest ih =>
    change x ∈ run (step.apply items) rest ↔ _
    rw [ih]
    constructor
    · rintro (⟨there, kept⟩ | ⟨before, after, rfl, kept⟩)
      · cases step with
        | append item =>
          rcases List.mem_append.mp there with old | new
          · exact .inl ⟨old, List.forall_mem_cons.mpr ⟨trivial, kept⟩⟩
          · rw [List.mem_singleton] at new
            subst new
            exact .inr ⟨[], rest, rfl, kept⟩
        | retain keep =>
          obtain ⟨old, keeps⟩ := List.mem_filter.mp there
          exact .inl ⟨old, List.forall_mem_cons.mpr ⟨keeps, kept⟩⟩
      · exact .inr ⟨step :: before, after, rfl, kept⟩
    · rintro (⟨there, kept⟩ | ⟨before, after, split, kept⟩)
      · obtain ⟨here, later⟩ := List.forall_mem_cons.mp kept
        cases step with
        | append item => exact .inl ⟨List.mem_append_left _ there, later⟩
        | retain keep => exact .inl ⟨List.mem_filter.mpr ⟨there, here⟩, later⟩
      · cases before with
        | nil =>
          obtain ⟨rfl, rfl⟩ := List.cons.inj split
          exact .inl ⟨List.mem_append_right _ List.mem_cons_self, kept⟩
        | cons earlier before =>
          obtain ⟨-, rfl⟩ := List.cons.inj split
          exact .inr ⟨before, after, rfl, kept⟩

end
end AnpIdentity.Script
