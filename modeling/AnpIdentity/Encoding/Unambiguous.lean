import Mathlib.Data.List.Basic
import Mathlib.Logic.Function.Basic

/-! Encodings that can be read back from the front of any text. A code with this property can be followed by anything,
so such codes compose: after and before other texts, counted and terminated. -/

namespace AnpIdentity.Encoding
variable {α γ β : Type} {f : α → List β} {g : γ → List β}

/-- Whatever comes after it, the code of a value is told from that of every other value. -/
def Unambiguous (f : α → List β) : Prop := ∀ a b x y, f a ++ x = f b ++ y → a = b ∧ x = y

namespace Unambiguous

theorem injective (unambiguous : Unambiguous f) : Function.Injective f := by
  intro a b same
  have extended : f a ++ [] = f b ++ [] := by rw [same]
  exact (unambiguous a b [] [] extended).1

theorem comp {h : γ → α} (unambiguous : Unambiguous f) (injective : Function.Injective h) : Unambiguous (fun c => f (h c)) := by
  intro a b x y same
  obtain ⟨is, rest⟩ := unambiguous (h a) (h b) x y same
  exact ⟨injective is, rest⟩

/-- A fixed text before the code. -/
theorem after (head : List β) (unambiguous : Unambiguous f) : Unambiguous (fun a => head ++ f a) := by
  intro a b x y same
  simp only [List.append_assoc] at same
  exact unambiguous a b x y (List.append_cancel_left same)

/-- A fixed text behind the code. -/
theorem before (tail : List β) (unambiguous : Unambiguous f) : Unambiguous (fun a => f a ++ tail) := by
  intro a b x y same
  simp only [List.append_assoc] at same
  obtain ⟨is, rest⟩ := unambiguous a b _ _ same
  exact ⟨is, List.append_cancel_left rest⟩

/-- A text after its length. -/
theorem counted {count : Nat → List β} (unambiguous : Unambiguous count) :
    Unambiguous (fun text : List β => count text.length ++ text) := by
  intro a b x y same
  simp only [List.append_assoc] at same
  obtain ⟨length, rest⟩ := unambiguous a.length b.length _ _ same
  exact List.append_inj rest length

/-- A text that ends where a symbol comes that it does not contain. -/
theorem terminated {stop : β} (injective : Function.Injective f) (avoids : ∀ a, stop ∉ f a) :
    Unambiguous (fun a => f a ++ [stop]) := by
  have split : ∀ l m x y : List β, stop ∉ l → stop ∉ m → l ++ stop :: x = m ++ stop :: y → l = m ∧ x = y := by
    intro l
    induction l with
    | nil =>
      intro m x y _ clear same
      cases m with
      | nil => exact ⟨rfl, (List.cons.inj same).2⟩
      | cons c rest => exact absurd ((List.cons.inj same).1 ▸ List.mem_cons_self) clear
    | cons c rest ih =>
      intro m x y clear other same
      cases m with
      | nil => exact absurd ((List.cons.inj same).1 ▸ List.mem_cons_self) clear
      | cons d more =>
        obtain ⟨rfl, tail⟩ := List.cons.inj same
        obtain ⟨rfl, end_⟩ := ih more x y (fun inside => clear (List.mem_cons_of_mem _ inside))
          (fun inside => other (List.mem_cons_of_mem _ inside)) tail
        exact ⟨rfl, end_⟩
  intro a b x y same
  simp only [List.append_assoc, List.singleton_append] at same
  obtain ⟨code, rest⟩ := split _ _ x y (avoids a) (avoids b) same
  exact ⟨injective code, rest⟩

end Unambiguous
end AnpIdentity.Encoding
