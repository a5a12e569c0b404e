import AnpIdentity.Durable.Replay

/-! Protocols over a durable medium. A protocol says in which media a write is permitted; a program that
follows it makes only permitted writes, so whatever permitted writes preserve holds at every point where
the program can stop. -/

namespace AnpIdentity.Durable
open Program

section
variable {σ ω ε α β ι : Type} [Medium σ ω] {permitted : σ → ω → Prop} {I : σ → Prop}

/-- Each write is permitted in the medium that it is made on. -/
def Traced (permitted : σ → ω → Prop) : σ → List ω → Prop
  | _, [] => True
  | s, w :: rest => permitted s w ∧ Traced permitted (Medium.apply s w) rest

namespace Traced

variable {s : σ} {ws : List ω}

theorem append {vs : List ω} (first : Traced permitted s ws) (rest : Traced permitted (applyAll s ws) vs) :
    Traced permitted s (ws ++ vs) := by
  induction ws generalizing s with
  | nil => exact rest
  | cons w more ih => exact ⟨first.1, ih first.2 rest⟩

theorem split {vs : List ω} (traced : Traced permitted s (ws ++ vs)) :
    Traced permitted s ws ∧ Traced permitted (applyAll s ws) vs := by
  induction ws generalizing s with
  | nil => exact ⟨trivial, traced⟩
  | cons w more ih =>
    obtain ⟨first, rest⟩ := ih traced.2
    exact ⟨⟨traced.1, first⟩, rest⟩

theorem take (traced : Traced permitted s ws) (n : Nat) : Traced permitted s (ws.take n) := by
  induction ws generalizing s n with
  | nil => simpa using traced
  | cons w more ih =>
    cases n with
    | zero => trivial
    | succ n => exact ⟨traced.1, ih traced.2 n⟩

theorem of_mem (traced : Traced permitted s ws) {w : ω} (written : w ∈ ws) : ∃ t, permitted t w := by
  induction ws generalizing s with
  | nil => cases written
  | cons v more ih =>
    rcases List.mem_cons.mp written with rfl | later
    · exact ⟨s, traced.1⟩
    · exact ih traced.2 later

theorem weaken {allowed : σ → ω → Prop} (weaker : ∀ s w, permitted s w → allowed s w) (traced : Traced permitted s ws) :
    Traced allowed s ws := by
  induction ws generalizing s with
  | nil => trivial
  | cons w more ih => exact ⟨weaker s w traced.1, ih traced.2⟩

theorem invariant (preserved : ∀ s w, I s → permitted s w → I (Medium.apply s w)) (start : I s)
    (traced : Traced permitted s ws) : I (applyAll s ws) := by
  induction ws generalizing s with
  | nil => exact start
  | cons w more ih => exact ih (preserved s w start traced.1) traced.2

end Traced

/-- Started in `s`, the program makes permitted writes only, and `Q` holds when it returns normally. -/
structure Follows (permitted : σ → ω → Prop) (p : Program σ ω ε α) (Q : α → σ → Prop) (s : σ) : Prop where
  traced : Traced permitted s (p.writes s)
  returns : ∀ a, p.result s = .ok a → Q a (p.final s)

namespace Follows

variable {p : Program σ ω ε α} {Q R : α → σ → Prop} {s : σ}

theorem silent (none : p.writes s = []) (returns : ∀ a, p.result s = .ok a → Q a s) : Follows permitted p Q s := by
  refine ⟨by rw [none]; trivial, fun a returned => ?_⟩
  simpa [Program.final, none] using returns a returned

theorem pure {a : α} (post : Q a s) : Follows permitted (Pure.pure a : Program σ ω ε α) Q s :=
  silent rfl (fun b returned => by cases returned; exact post)

theorem lift {r : Except ε α} (post : ∀ a, r = .ok a → Q a s) :
    Follows permitted (Program.lift r : Program σ ω ε α) Q s :=
  silent rfl post

theorem get {Q : σ → σ → Prop} (post : Q s s) : Follows permitted (Program.get : Program σ ω ε σ) Q s :=
  silent rfl (fun b returned => by cases returned; exact post)

theorem write {w : ω} {Q : Unit → σ → Prop} (allowed : permitted s w) (post : Q () (Medium.apply s w)) :
    Follows permitted (Program.write w : Program σ ω ε Unit) Q s :=
  ⟨⟨allowed, trivial⟩, fun _ _ => post⟩

theorem bind {f : α → Program σ ω ε β} {Q : β → σ → Prop}
    (first : Follows permitted p (fun a t => Follows permitted (f a) Q t) s) : Follows permitted (p >>= f) Q s := by
  cases h : p.result s with
  | error e =>
    refine ⟨by rw [(bind_error f h).1]; exact first.traced, fun b returned => ?_⟩
    rw [(bind_error f h).2] at returned
    cases returned
  | ok a =>
    have rest := first.returns a h
    refine ⟨by rw [(bind_ok f h).1]; exact first.traced.append rest.traced, fun b returned => ?_⟩
    rw [final_bind f h]
    exact rest.returns b (by rw [← (bind_ok f h).2]; exact returned)

theorem mono (follows : Follows permitted p Q s) (returns : ∀ a t, Q a t → R a t) : Follows permitted p R s :=
  ⟨follows.traced, fun a returned => returns a _ (follows.returns a returned)⟩

theorem weaken {allowed : σ → ω → Prop} (follows : Follows permitted p Q s) (weaker : ∀ s w, permitted s w → allowed s w)
    (returns : ∀ a t, Q a t → R a t) : Follows allowed p R s :=
  ⟨follows.traced.weaken weaker, fun a returned => returns a _ (follows.returns a returned)⟩

theorem of_run {q : Program σ ω ε α} (same : p s = q s) (follows : Follows permitted q Q s) :
    Follows permitted p Q s := by
  refine ⟨?_, fun a returned => ?_⟩
  · rw [Program.writes, same]
    exact follows.traced
  · rw [Program.final, Program.writes, same]
    exact follows.returns a (by rw [Program.result, ← same]; exact returned)

theorem invariant_final (follows : Follows permitted p Q s)
    (preserved : ∀ s w, I s → permitted s w → I (Medium.apply s w)) (start : I s) : I (p.final s) :=
  follows.traced.invariant preserved start

/-- A replay follows the protocol if settling each entry does, under an invariant of the protocol. -/
theorem drain {outstanding : σ → List ι} {process : ι → Program σ ω ε Unit} (resumable : Resumable outstanding process)
    (preserved : ∀ s w, I s → permitted s w → I (Medium.apply s w))
    (each : ∀ s entry rest, I s → outstanding s = entry :: rest → Follows permitted (process entry) (fun _ _ => True) s)
    (start : I s) : Follows permitted (Durable.drain outstanding process) (fun _ _ => True) s := by
  refine ⟨?_, fun _ _ => trivial⟩
  change Traced permitted s ((replay process (outstanding s)).writes s)
  generalize listed : outstanding s = entries
  induction entries generalizing s with
  | nil => trivial
  | cons entry rest ih =>
    have follows := each s entry rest start listed
    change Traced permitted s ((process entry >>= fun _ => replay process rest).writes s)
    cases h : (process entry).result s with
    | error e =>
      rw [(bind_error _ h).1]
      exact follows.traced
    | ok u =>
      rw [(bind_ok _ h).1]
      exact follows.traced.append (ih (follows.invariant_final preserved start) (resumable.done listed h))

end Follows

/-- Wherever the program stops, it has made permitted writes only, or all its writes, and then it returns. -/
def Resolves (permitted : σ → ω → Prop) (p : Program σ ω ε α) (s : σ) : Prop :=
  ∀ n, Traced permitted s ((p.writes s).take n) ∨ ((p.writes s).length ≤ n ∧ ∃ a, p.result s = .ok a)

namespace Resolves

variable {p : Program σ ω ε α} {f : α → Program σ ω ε β}

theorem of_follows {Q : α → σ → Prop} {s : σ} (follows : Follows permitted p Q s) :
    Resolves permitted p s := fun n => .inl (follows.traced.take n)

theorem write (w : ω) (s : σ) : Resolves permitted (Program.write w : Program σ ω ε Unit) s := by
  intro n
  cases n with
  | zero => exact .inl trivial
  | succ n => exact .inr ⟨by simp, (), rfl⟩

theorem bind {s : σ} (first : Follows permitted p (fun a t => Resolves permitted (f a) t) s) :
    Resolves permitted (p >>= f) s := by
  intro n
  cases h : p.result s with
  | error e =>
    rw [(bind_error f h).1]
    exact .inl (first.traced.take n)
  | ok a =>
    rw [(bind_ok f h).1, (bind_ok f h).2, List.take_append]
    by_cases short : n ≤ (p.writes s).length
    · rw [Nat.sub_eq_zero_of_le short]
      exact .inl (by simpa using first.traced.take n)
    · rw [List.take_of_length_le (by omega)]
      rcases first.returns a h (n - (p.writes s).length) with traced | ⟨all, returned⟩
      · exact .inl (first.traced.append traced)
      · exact .inr ⟨by rw [List.length_append]; omega, returned⟩

/-- What comes after the last write does not fail. -/
theorem bind_pure {s : σ} (first : Resolves permitted p s) (rest : ∀ a, ∃ b, f a = Pure.pure b) :
    Resolves permitted (p >>= f) s := by
  intro n
  cases h : p.result s with
  | error e =>
    rw [(bind_error f h).1]
    rcases first n with traced | ⟨_, _, returned⟩
    · exact .inl traced
    · cases h.symm.trans returned
  | ok a =>
    obtain ⟨b, is⟩ := rest a
    rw [(bind_ok f h).1, (bind_ok f h).2, is, writes_pure, result_pure, List.append_nil]
    exact (first n).imp_right (fun done => ⟨done.1, b, rfl⟩)

end Resolves
end
end AnpIdentity.Durable
