import Mathlib.Data.List.Basic

/-! Programs over a durable medium. A program reads the medium and issues atomic writes in order. A
crash, or a write that fails and makes the call return, leaves the effect of an initial part of those
writes. The rules of `Keeps` say which condition holds at every such point and which one at the return. -/

namespace AnpIdentity.Durable
set_option linter.unusedSectionVars false

/-- A medium and the effect of one atomic write on it. -/
class Medium (σ : Type) (ω : outParam Type) where
  apply : σ → ω → σ

structure Outcome (ω ε α : Type) where
  writes : List ω
  result : Except ε α

def Program (σ ω ε α : Type) : Type := σ → Outcome ω ε α

section
variable {σ ω ε α β : Type} [Medium σ ω]

def applyAll (s : σ) (writes : List ω) : σ := writes.foldl Medium.apply s

@[simp] theorem applyAll_nil (s : σ) : applyAll s ([] : List ω) = s := rfl
@[simp] theorem applyAll_cons (s : σ) (w : ω) (ws : List ω) :
    applyAll s (w :: ws) = applyAll (Medium.apply s w) ws := rfl
theorem applyAll_append (s : σ) (ws vs : List ω) : applyAll s (ws ++ vs) = applyAll (applyAll s ws) vs := by
  simp [applyAll]

namespace Program

def writes (p : Program σ ω ε α) (s : σ) : List ω := (p s).writes
def result (p : Program σ ω ε α) (s : σ) : Except ε α := (p s).result

/-- The medium when the call returns, normally or with an error of its own. -/
def final (p : Program σ ω ε α) (s : σ) : σ := applyAll s (p.writes s)

/-- The medium after the first `n` writes. -/
def crash (p : Program σ ω ε α) (n : Nat) (s : σ) : σ := applyAll s ((p.writes s).take n)

def pure (a : α) : Program σ ω ε α := fun _ => ⟨[], .ok a⟩
def throw (e : ε) : Program σ ω ε α := fun _ => ⟨[], .error e⟩
def get : Program σ ω ε σ := fun s => ⟨[], .ok s⟩
def write (w : ω) : Program σ ω ε Unit := fun _ => ⟨[w], .ok ()⟩
def lift (r : Except ε α) : Program σ ω ε α := fun _ => ⟨[], r⟩

def bind (p : Program σ ω ε α) (f : α → Program σ ω ε β) : Program σ ω ε β := fun s =>
  match p s with
  | ⟨ws, .error e⟩ => ⟨ws, .error e⟩
  | ⟨ws, .ok a⟩ => ⟨ws ++ (f a (applyAll s ws)).writes, (f a (applyAll s ws)).result⟩

instance : Monad (Program σ ω ε) where
  pure := Program.pure
  bind := Program.bind

instance : MonadLift (Except ε) (Program σ ω ε) := ⟨Program.lift⟩

@[simp] theorem liftM_eq (r : Except ε α) : (liftM r : Program σ ω ε α) = lift r := rfl

variable {p q : Program σ ω ε α} {s : σ} {f : α → Program σ ω ε β}

theorem ext (writes : p.writes s = q.writes s) (result : p.result s = q.result s) : p s = q s := by
  unfold Program.writes at writes
  unfold Program.result at result
  rcases hp : p s with ⟨ws, r⟩
  rcases hq : q s with ⟨vs, r'⟩
  simp_all

theorem bind_ok {a : α} (f : α → Program σ ω ε β) (returned : p.result s = .ok a) :
    (p >>= f).writes s = p.writes s ++ (f a).writes (p.final s) ∧
      (p >>= f).result s = (f a).result (p.final s) := by
  unfold result at returned
  change (Program.bind p f s).writes = _ ∧ (Program.bind p f s).result = _
  unfold Program.bind final writes result
  rcases h : p s with ⟨ws, r⟩
  simp only [h] at returned
  simp only [returned, and_self]

theorem bind_error {e : ε} (f : α → Program σ ω ε β) (failed : p.result s = .error e) :
    (p >>= f).writes s = p.writes s ∧ (p >>= f).result s = .error e := by
  unfold result at failed
  change (Program.bind p f s).writes = _ ∧ (Program.bind p f s).result = _
  unfold Program.bind writes
  rcases h : p s with ⟨ws, r⟩
  simp only [h] at failed
  simp only [failed, and_self]

theorem final_bind {a : α} (f : α → Program σ ω ε β) (returned : p.result s = .ok a) :
    (p >>= f).final s = (f a).final (p.final s) := by
  unfold final
  rw [(bind_ok f returned).1, applyAll_append]
  rfl

theorem result_bind {b : β} (returned : (p >>= f).result s = .ok b) :
    ∃ a, p.result s = .ok a ∧ (f a).result (p.final s) = .ok b := by
  cases h : p.result s with
  | error e => rw [(bind_error f h).2] at returned; cases returned
  | ok a => exact ⟨a, rfl, by rw [← (bind_ok f h).2]; exact returned⟩

theorem crash_bind_ok {a : α} (f : α → Program σ ω ε β) (n : Nat) (returned : p.result s = .ok a) :
    (p >>= f).crash n s = p.crash n s ∨
      (p >>= f).crash n s = (f a).crash (n - (p.writes s).length) (p.final s) := by
  unfold crash
  rw [(bind_ok f returned).1, List.take_append]
  by_cases short : n ≤ (p.writes s).length
  · left; simp [Nat.sub_eq_zero_of_le short]
  · right
    rw [applyAll_append, List.take_of_length_le (by omega)]
    rfl

theorem bind_congr {g : α → Program σ ω ε β} (first : p s = q s)
    (rest : ∀ a, p.result s = .ok a → f a (p.final s) = g a (p.final s)) : (p >>= f) s = (q >>= g) s := by
  change Program.bind p f s = Program.bind q g s
  unfold Program.bind
  rw [← first]
  unfold result final writes at rest
  rcases h : p s with ⟨ws, _ | a⟩
  · rfl
  · have same := rest a (by rw [h])
    simp only [h] at same
    simp only [same]

instance : LawfulMonad (Program σ ω ε) := LawfulMonad.mk' _
  (fun p => by
    funext s
    change Program.bind p Program.pure s = p s
    unfold Program.bind Program.pure
    rcases p s with ⟨ws, _ | a⟩ <;> simp)
  (fun a f => rfl)
  (fun p f g => by
    funext s
    change Program.bind (Program.bind p f) g s = Program.bind p (fun a => Program.bind (f a) g) s
    unfold Program.bind
    rcases p s with ⟨ws, _ | a⟩
    · rfl
    · rcases h : f a (applyAll s ws) with ⟨vs, _ | b⟩
      · simp [h]
      · simp [h, applyAll_append])

theorem crash_zero (p : Program σ ω ε α) (s : σ) : p.crash 0 s = s := rfl
theorem crash_all {n : Nat} (all : (p.writes s).length ≤ n) : p.crash n s = p.final s := by
  simp only [crash, final, List.take_of_length_le all]

@[simp] theorem writes_pure (a : α) (s : σ) : (Pure.pure a : Program σ ω ε α).writes s = [] := rfl
@[simp] theorem result_pure (a : α) (s : σ) : (Pure.pure a : Program σ ω ε α).result s = .ok a := rfl
@[simp] theorem final_pure (a : α) (s : σ) : (Pure.pure a : Program σ ω ε α).final s = s := rfl
@[simp] theorem writes_lift (r : Except ε α) (s : σ) : (lift r : Program σ ω ε α).writes s = [] := rfl
@[simp] theorem result_lift (r : Except ε α) (s : σ) : (lift r : Program σ ω ε α).result s = r := rfl
@[simp] theorem final_lift (r : Except ε α) (s : σ) : (lift r : Program σ ω ε α).final s = s := rfl
@[simp] theorem writes_get (s : σ) : (get : Program σ ω ε σ).writes s = [] := rfl
@[simp] theorem result_get (s : σ) : (get : Program σ ω ε σ).result s = .ok s := rfl
@[simp] theorem final_get (s : σ) : (get : Program σ ω ε σ).final s = s := rfl
@[simp] theorem writes_write (w : ω) (s : σ) : (write w : Program σ ω ε Unit).writes s = [w] := rfl
@[simp] theorem result_write (w : ω) (s : σ) : (write w : Program σ ω ε Unit).result s = .ok () := rfl
@[simp] theorem final_write (w : ω) (s : σ) : (write w : Program σ ω ε Unit).final s = Medium.apply s w := rfl


@[simp] theorem writes_get_bind (f : σ → Program σ ω ε α) (s : σ) : (get >>= f).writes s = (f s).writes s := rfl
@[simp] theorem result_get_bind (f : σ → Program σ ω ε α) (s : σ) : (get >>= f).result s = (f s).result s := rfl
@[simp] theorem writes_write_bind (w : ω) (f : Unit → Program σ ω ε α) (s : σ) :
    (write w >>= f).writes s = w :: (f ()).writes (Medium.apply s w) := rfl
@[simp] theorem result_write_bind (w : ω) (f : Unit → Program σ ω ε α) (s : σ) :
    (write w >>= f).result s = (f ()).result (Medium.apply s w) := rfl
@[simp] theorem lift_ok_bind (a : α) (f : α → Program σ ω ε β) : (lift (.ok a) >>= f) = f a := rfl
@[simp] theorem lift_error_bind (e : ε) (f : α → Program σ ω ε β) : (lift (.error e) >>= f) = lift (.error e) := rfl

end Program
end

/-! ## Effects -/

section
variable {σ ω ε α β : Type} [Medium σ ω] {P : ω → Prop}

theorem applyAll_view (view : σ → β) (same : ∀ s w, P w → view (Medium.apply s w) = view s) {ws : List ω}
    (all : ∀ w ∈ ws, P w) (s : σ) : view (applyAll s ws) = view s := by
  induction ws generalizing s with
  | nil => rfl
  | cons w rest ih =>
    rw [applyAll_cons, ih (fun v inside => all v (List.mem_cons_of_mem _ inside))]
    exact same s w (all w List.mem_cons_self)

/-- Every write that the program can issue satisfies `P`. -/
def Issues (P : ω → Prop) (p : Program σ ω ε α) : Prop := ∀ s, ∀ w ∈ p.writes s, P w

namespace Issues
open Program

theorem pure (a : α) : Issues P (Pure.pure a : Program σ ω ε α) := fun _ _ inside => nomatch inside
theorem lift (r : Except ε α) : Issues P (Program.lift r : Program σ ω ε α) := fun _ _ inside => nomatch inside
theorem get : Issues P (Program.get : Program σ ω ε σ) := fun _ _ inside => nomatch inside
theorem write {w : ω} (allowed : P w) : Issues P (Program.write w : Program σ ω ε Unit) := by
  intro s v inside
  rw [List.mem_singleton.mp inside]
  exact allowed

variable {p : Program σ ω ε α} {f : α → Program σ ω ε β}

theorem bind (first : Issues P p) (rest : ∀ a, Issues P (f a)) : Issues P (p >>= f) := by
  intro s w inside
  cases h : p.result s with
  | error e => exact first s w (by rwa [(bind_error f h).1] at inside)
  | ok a =>
    rw [(bind_ok f h).1, List.mem_append] at inside
    exact inside.elim (first s w) (rest a _ w)

theorem mono {Q : ω → Prop} (issues : Issues P p) (weaker : ∀ w, P w → Q w) : Issues Q p :=
  fun s w inside => weaker w (issues s w inside)

/-- What no issued write changes is the same at every point of the run. -/
theorem frame (issues : Issues P p) (view : σ → β) (same : ∀ s w, P w → view (Medium.apply s w) = view s) (n : Nat)
    (s : σ) : view (p.crash n s) = view s :=
  applyAll_view view same (fun w inside => issues s w (List.mem_of_mem_take inside)) s

theorem frame_final (issues : Issues P p) (view : σ → β) (same : ∀ s w, P w → view (Medium.apply s w) = view s) (s : σ) :
    view (p.final s) = view s := by
  rw [← crash_all (Nat.le_refl _)]
  exact issues.frame view same _ s

/-- What every issued write preserves holds at every point of the run. -/
theorem preserves {I : σ → Prop} (issues : Issues P p) (preserved : ∀ s w, P w → I s → I (Medium.apply s w)) {s : σ}
    (start : I s) (n : Nat) : I (p.crash n s) := by
  have all : ∀ ws : List ω, (∀ w ∈ ws, P w) → ∀ t : σ, I t → I (applyAll t ws) := by
    intro ws
    induction ws with
    | nil => intro _ t now; exact now
    | cons w rest ih =>
      intro allowed t now
      exact ih (fun v inside => allowed v (List.mem_cons_of_mem _ inside)) _
        (preserved t w (allowed w List.mem_cons_self) now)
  exact all _ (fun w inside => issues s w (List.mem_of_mem_take inside)) s start

theorem preserves_final {I : σ → Prop} (issues : Issues P p) (preserved : ∀ s w, P w → I s → I (Medium.apply s w)) {s : σ}
    (start : I s) : I (p.final s) := by
  rw [← crash_all (Nat.le_refl _)]
  exact issues.preserves preserved start _

theorem writes_nil (silent : Issues (fun _ => False) p) (s : σ) : p.writes s = [] :=
  List.eq_nil_iff_forall_not_mem.mpr (silent s)

theorem final_eq (silent : Issues (fun _ => False) p) (s : σ) : p.final s = s := by
  simp [Program.final, silent.writes_nil s]

/-- A first part that writes nothing only hands its value on. -/
theorem peel {s : σ} {b : β} (silent : Issues (fun _ => False) p) (returned : (p >>= f).result s = .ok b) :
    ∃ a, p.result s = .ok a ∧ (f a).result s = .ok b ∧ (p >>= f) s = f a s := by
  obtain ⟨a, first, rest⟩ := result_bind returned
  rw [silent.final_eq] at rest
  refine ⟨a, first, rest, Program.ext ?_ ?_⟩
  · rw [(bind_ok f first).1, silent.writes_nil, silent.final_eq]
    rfl
  · rw [(bind_ok f first).2, silent.final_eq]

end Issues
end

end AnpIdentity.Durable
