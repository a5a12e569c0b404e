import Mathlib.Order.Basic
import Mathlib.Data.List.Basic
import Mathlib.Tactic

/-! A directory of files, each named by a key of its content and listed in the order of the keys. -/

namespace AnpIdentity.Durable
set_option linter.unusedSectionVars false

structure Directory {α κ : Type} [LinearOrder κ] (key : α → κ) where
  entries : List α
  sorted : entries.Pairwise (fun a b => key a < key b)

namespace Directory
variable {α κ : Type} [LinearOrder κ] {key : α → κ}

instance : Membership α (Directory key) := ⟨fun d a => a ∈ d.entries⟩

variable {d : Directory key} {a : α}

theorem mem_entries : a ∈ d.entries ↔ a ∈ d := Iff.rfl

def empty : Directory key := ⟨[], .nil⟩

@[simp] theorem not_mem_empty (a : α) : a ∉ (empty : Directory key) := List.not_mem_nil

private def put (key : α → κ) (a : α) : List α → List α
  | [] => [a]
  | b :: rest => if key a < key b then a :: b :: rest else if key b < key a then b :: put key a rest else a :: rest

private theorem mem_put {x : α} {entries : List α} (sorted : entries.Pairwise (fun a b => key a < key b)) :
    x ∈ put key a entries ↔ x = a ∨ (x ∈ entries ∧ key x ≠ key a) := by
  induction entries with
  | nil => simp [put]
  | cons b rest ih =>
    obtain ⟨first, tail⟩ := List.pairwise_cons.mp sorted
    have later : ∀ y ∈ rest, key b < key y := first
    unfold put
    by_cases before : key a < key b
    · simp only [before, ↓reduceIte, List.mem_cons]
      constructor
      · rintro (rfl | rfl | inside)
        · exact .inl rfl
        · exact .inr ⟨.inl rfl, before.ne'⟩
        · exact .inr ⟨.inr inside, (before.trans (later x inside)).ne'⟩
      · rintro (rfl | ⟨inside, -⟩)
        · exact .inl rfl
        · exact .inr inside
    · by_cases after : key b < key a
      · simp only [before, after, ↓reduceIte, List.mem_cons, ih tail]
        constructor
        · rintro (rfl | rfl | ⟨inside, different⟩)
          · exact .inr ⟨.inl rfl, after.ne⟩
          · exact .inl rfl
          · exact .inr ⟨.inr inside, different⟩
        · rintro (rfl | ⟨rfl | inside, different⟩)
          · exact .inr (.inl rfl)
          · exact .inl rfl
          · exact .inr (.inr ⟨inside, different⟩)
      · have same : key a = key b := le_antisymm (not_lt.mp after) (not_lt.mp before)
        simp only [before, after, ↓reduceIte, List.mem_cons]
        constructor
        · rintro (rfl | inside)
          · exact .inl rfl
          · exact .inr ⟨.inr inside, by rw [same]; exact (later x inside).ne'⟩
        · rintro (rfl | ⟨rfl | inside, different⟩)
          · exact .inl rfl
          · exact absurd same.symm different
          · exact .inr inside

private theorem put_sorted (a : α) {entries : List α} (sorted : entries.Pairwise (fun a b => key a < key b)) :
    (put key a entries).Pairwise (fun a b => key a < key b) := by
  induction entries with
  | nil => simp [put]
  | cons b rest ih =>
    obtain ⟨first, tail⟩ := List.pairwise_cons.mp sorted
    unfold put
    by_cases before : key a < key b
    · rw [if_pos before]
      refine List.pairwise_cons.mpr ⟨fun y inside => ?_, sorted⟩
      rcases List.mem_cons.mp inside with rfl | inside
      · exact before
      · exact before.trans (first y inside)
    · by_cases after : key b < key a
      · rw [if_neg before, if_pos after]
        refine List.pairwise_cons.mpr ⟨fun y inside => ?_, ih tail⟩
        rcases (mem_put tail).mp inside with rfl | ⟨inside, -⟩
        · exact after
        · exact first y inside
      · have same : key a = key b := le_antisymm (not_lt.mp after) (not_lt.mp before)
        rw [if_neg before, if_neg after]
        exact List.pairwise_cons.mpr ⟨fun y inside => by rw [same]; exact first y inside, tail⟩

/-- Writes the file of `a`, replacing one with the same key. -/
def insert (d : Directory key) (a : α) : Directory key := ⟨put key a d.entries, put_sorted a d.sorted⟩

/-- Removes the file named `k` if there is one. -/
def erase (d : Directory key) (k : κ) : Directory key :=
  ⟨d.entries.filter (fun a => decide (key a ≠ k)), d.sorted.filter _⟩

@[simp] theorem mem_insert {x : α} : x ∈ d.insert a ↔ x = a ∨ (x ∈ d ∧ key x ≠ key a) :=
  mem_put d.sorted

@[simp] theorem mem_erase {k : κ} {x : α} : x ∈ d.erase k ↔ x ∈ d ∧ key x ≠ k := by
  change x ∈ d.entries.filter _ ↔ _
  simp [mem_entries]

theorem key_injective {b : α} (left : a ∈ d) (right : b ∈ d) (same : key a = key b) : a = b := by
  by_contra different
  rcases List.Pairwise.forall_of_forall_of_flip (R := fun x y => x ≠ y → key x ≠ key y)
    (fun x _ no => absurd rfl no) (d.sorted.imp (fun less _ => less.ne))
    (d.sorted.imp (fun less _ => less.ne')) left right different same

/-- Removing the first file listed leaves the rest of the list. -/
theorem erase_head {rest : List α} (listed : d.entries = a :: rest) : (d.erase (key a)).entries = rest := by
  have sorted := d.sorted
  rw [listed] at sorted
  obtain ⟨first, -⟩ := List.pairwise_cons.mp sorted
  change d.entries.filter _ = rest
  rw [listed, List.filter_cons_of_neg (by simp)]
  exact List.filter_eq_self.mpr (fun b inside => by simpa using (first b inside).ne')

end Directory
end AnpIdentity.Durable
