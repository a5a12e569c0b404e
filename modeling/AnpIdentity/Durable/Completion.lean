import AnpIdentity.Durable.Program

/-! Which programs succeed, and what a program that returns an error leaves behind. -/

namespace AnpIdentity.Durable
namespace Program
variable {σ ω ε α β : Type} [Medium σ ω] {p : Program σ ω ε α} {f : α → Program σ ω ε β} {s : σ}

/-- The program returns normally. -/
def Completes (p : Program σ ω ε α) (s : σ) : Prop := ∃ a, p.result s = .ok a

/-- If the program returns an error, the medium is as it was. -/
def Traceless (p : Program σ ω ε α) (s : σ) : Prop := ∀ e, p.result s = .error e → p.final s = s

theorem completes_pure (a : α) : Completes (Pure.pure a : Program σ ω ε α) s := ⟨a, rfl⟩

theorem completes_bind : Completes (p >>= f) s ↔ ∃ a, p.result s = .ok a ∧ Completes (f a) (p.final s) := by
  constructor
  · rintro ⟨b, returned⟩
    obtain ⟨a, first, rest⟩ := result_bind returned
    exact ⟨a, first, b, rest⟩
  · rintro ⟨a, first, b, rest⟩
    exact ⟨b, by rw [(bind_ok f first).2, rest]⟩

theorem completes_lift {r : Except ε α} : Completes (lift r >>= f) s ↔ ∃ a, r = .ok a ∧ Completes (f a) s := completes_bind

theorem completes_write {w : ω} {f : Unit → Program σ ω ε β} :
    Completes (write w >>= f) s ↔ Completes (f ()) (Medium.apply s w) := by
  rw [completes_bind]
  exact ⟨fun ⟨_, _, rest⟩ => rest, fun rest => ⟨(), rfl, rest⟩⟩

theorem completes_get {f : σ → Program σ ω ε β} : Completes (get >>= f) s ↔ Completes (f s) s := by
  rw [completes_bind]
  constructor
  · rintro ⟨_, ⟨⟩, rest⟩
    exact rest
  · intro rest
    exact ⟨s, rfl, rest⟩

theorem Traceless.of_silent (nothing : p.writes s = []) : Traceless p s := by
  intro e _
  rw [final, nothing]
  rfl

theorem traceless_congr {q : Program σ ω ε α} (same : p s = q s) : Traceless p s ↔ Traceless q s := by
  unfold Traceless final writes result
  rw [same]

/-- What is made of a result that was returned does not matter. -/
theorem traceless_map {g : α → β} : Traceless (p >>= fun a => Pure.pure (g a)) s ↔ Traceless p s := by
  unfold Traceless
  cases returned : p.result s with
  | error e =>
    simp only [(bind_error _ returned).2, final, (bind_error _ returned).1, Except.error.injEq]
  | ok a =>
    rw [(bind_ok _ returned).2]
    exact ⟨fun _ e failed => (by cases failed), fun _ e failed => (by cases failed)⟩

/-- A program that marks the medium before it can fail is traceless only if it completes. -/
theorem traceless_iff (marks : ∀ e, p.result s = .error e → p.final s ≠ s) : Traceless p s ↔ Completes p s := by
  constructor
  · intro traceless
    cases returned : p.result s with
    | error e => exact absurd (traceless e returned) (marks e returned)
    | ok a => exact ⟨a, returned⟩
  · rintro ⟨a, returned⟩ e failed
    rw [returned] at failed
    cases failed

end Program

section
variable {σ ω ε α β : Type} [Medium σ ω] {I : σ → Prop}
open Program

/-- If the program returns an error, what held before still holds. -/
def Strands (I : σ → Prop) (p : Program σ ω ε α) : Prop := ∀ s e, I s → p.result s = .error e → I (p.final s)

namespace Strands

variable {p : Program σ ω ε α}

theorem of_issues (issues : Issues (fun w => ∀ s, I s → I (Medium.apply s w)) p) : Strands I p :=
  fun _ _ now _ => issues.preserves_final (fun t _ kept here => kept t here) now

theorem total (completes : ∀ s, Completes p s) : Strands I p := by
  intro s e _ failed
  obtain ⟨a, returned⟩ := completes s
  rw [returned] at failed
  cases failed

theorem bind {f : α → Program σ ω ε β} (first : Issues (fun w => ∀ s, I s → I (Medium.apply s w)) p)
    (rest : ∀ a, Strands I (f a)) : Strands I (p >>= f) := by
  intro s e now failed
  cases returned : p.result s with
  | error e =>
    rw [Program.final, (bind_error f returned).1]
    exact of_issues first s e now returned
  | ok a =>
    rw [final_bind f returned]
    refine rest a _ e (first.preserves_final (fun t _ kept here => kept t here) now) ?_
    rw [← (bind_ok f returned).2]
    exact failed

/-- What the first write brings about is still there when the rest fails. -/
theorem after_write {w : ω} {f : Unit → Program σ ω ε β} {s : σ} {e : ε} (rest : Strands I (f ()))
    (marks : I (Medium.apply s w)) (failed : (Program.write w >>= f).result s = .error e) :
    I ((Program.write w >>= f).final s) := by
  rw [final_bind f (result_write w s)]
  exact rest _ e marks failed

end Strands
end
end AnpIdentity.Durable
