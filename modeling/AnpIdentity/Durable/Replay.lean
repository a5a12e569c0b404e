import AnpIdentity.Durable.Program

/-! Replaying what was left undone. `drain` reads a list of outstanding entries and processes them in
order. If processing an entry can be repeated from wherever it stopped, so can the whole replay, and the
repetition ends in the same medium. -/

namespace AnpIdentity.Durable
open Program

section
variable {σ ω ε α ι : Type} [Medium σ ω]

def replay (process : ι → Program σ ω ε Unit) : List ι → Program σ ω ε Unit
  | [] => Pure.pure ()
  | entry :: rest => do
    process entry
    replay process rest

theorem replay_append (process : ι → Program σ ω ε Unit) (first rest : List ι) :
    replay process (first ++ rest) = (replay process first >>= fun _ => replay process rest) := by
  induction first with
  | nil => rfl
  | cons entry more ih => simp only [List.cons_append, replay, bind_assoc, ih]

theorem Issues.replay {P : ω → Prop} {process : ι → Program σ ω ε Unit} {entries : List ι}
    (each : ∀ entry ∈ entries, Issues P (process entry)) : Issues P (Durable.replay process entries) := by
  induction entries with
  | nil => exact .pure ()
  | cons entry rest ih =>
    exact .bind (each entry List.mem_cons_self) (fun _ => ih (fun e inside => each e (List.mem_cons_of_mem _ inside)))

def drain (outstanding : σ → List ι) (process : ι → Program σ ω ε Unit) : Program σ ω ε Unit := do
  let s ← get
  replay process (outstanding s)

/-- A program that succeeds does so again, with the same end, from wherever it is stopped. -/
def Restartable (p : Program σ ω ε α) : Prop :=
  ∀ s a n, p.result s = .ok a → p.result (p.crash n s) = .ok a ∧ p.final (p.crash n s) = p.final s

/-- The medium after one interrupted run for each number in the list. -/
def crashes (p : Program σ ω ε α) : List Nat → σ → σ
  | [], s => s
  | n :: rest, s => crashes p rest (p.crash n s)

theorem Restartable.crashes {p : Program σ ω ε α} (restartable : Restartable p) (stops : List Nat) {s : σ} {a : α}
    (returned : p.result s = .ok a) :
    p.result (Durable.crashes p stops s) = .ok a ∧ p.final (Durable.crashes p stops s) = p.final s := by
  induction stops generalizing s with
  | nil => exact ⟨returned, rfl⟩
  | cons n rest ih =>
    obtain ⟨again, same⟩ := restartable s a n returned
    obtain ⟨result, final⟩ := ih again
    exact ⟨result, final.trans same⟩

/-- Processing the first outstanding entry takes it off the list, and can be repeated until it does. -/
structure Resumable (outstanding : σ → List ι) (process : ι → Program σ ω ε Unit) : Prop where
  done : ∀ {s entry rest}, outstanding s = entry :: rest → (process entry).result s = .ok () →
    outstanding ((process entry).final s) = rest
  again : ∀ {s entry rest} (n : Nat), outstanding s = entry :: rest → (process entry).result s = .ok () →
    (process entry).crash n s = (process entry).final s ∨
      (outstanding ((process entry).crash n s) = entry :: rest ∧
        (process entry).result ((process entry).crash n s) = .ok () ∧
        (process entry).final ((process entry).crash n s) = (process entry).final s)

/-- From every point where the program can stop, running it again gives the same result and end. -/
def Stable (p : Program σ ω ε α) (s : σ) : Prop :=
  ∀ n, p.result (p.crash n s) = p.result s ∧ p.final (p.crash n s) = p.final s

/-- Writes that commute and change nothing the second time absorb those already made. -/
theorem applyAll_absorb {ws : List ω} (idempotent : ∀ w ∈ ws, ∀ s : σ, Medium.apply (Medium.apply s w) w = Medium.apply s w)
    (commute : ∀ v ∈ ws, ∀ w ∈ ws, ∀ s : σ, Medium.apply (Medium.apply s v) w = Medium.apply (Medium.apply s w) v)
    (n : Nat) (s : σ) : applyAll (applyAll s (ws.take n)) ws = applyAll s ws := by
  have one : ∀ w ∈ ws, ∀ vs : List ω, (∀ v ∈ vs, v ∈ ws) → w ∈ vs → ∀ t : σ,
      applyAll (Medium.apply t w) vs = applyAll t vs := by
    intro w known vs inside
    induction vs with
    | nil => intro absurd; cases absurd
    | cons v rest ih =>
      intro member t
      by_cases same : w = v
      · rw [applyAll_cons, applyAll_cons, ← same, idempotent w known]
      · rw [applyAll_cons, applyAll_cons, commute w known v (inside v List.mem_cons_self)]
        exact ih (fun x later => inside x (List.mem_cons_of_mem _ later))
          ((List.mem_cons.mp member).resolve_left same) _
  have all : ∀ us : List ω, (∀ u ∈ us, u ∈ ws) → ∀ t : σ, applyAll (applyAll t us) ws = applyAll t ws := by
    intro us
    induction us with
    | nil => intro _ t; rfl
    | cons u rest ih =>
      intro inside t
      rw [applyAll_cons, ih (fun x later => inside x (List.mem_cons_of_mem _ later))]
      exact one u (inside u List.mem_cons_self) ws (fun _ member => member) (inside u List.mem_cons_self) t
  exact all _ (fun u inside => List.mem_of_mem_take inside) s

namespace Stable
variable {β : Type} {p : Program σ ω ε α} {s : σ}

theorem of_short (short : (p.writes s).length ≤ 1) (result : p.result (p.final s) = p.result s)
    (final : p.final (p.final s) = p.final s) : Stable p s := by
  intro n
  cases n with
  | zero => exact ⟨rfl, rfl⟩
  | succ n => rw [crash_all (by omega)]; exact ⟨result, final⟩

theorem of_silent (silent : p.writes s = []) : Stable p s := by
  have still : p.final s = s := by simp [Program.final, silent]
  exact of_short (by simp [silent]) (by rw [still]) (by rw [still, still])

/-- The second part may stop anywhere, so the first part has to have nothing left to do there. -/
theorem bind {f : α → Program σ ω ε β} {a : α} (returned : p.result s = .ok a) (first : Stable p s)
    (rest : Stable (f a) (p.final s))
    (repeats : ∀ m, p.result ((f a).crash m (p.final s)) = .ok a ∧
      p.final ((f a).crash m (p.final s)) = (f a).crash m (p.final s)) : Stable (p >>= f) s := by
  intro n
  rw [(bind_ok f returned).2, final_bind f returned]
  rcases crash_bind_ok f n returned with inside | after
  · obtain ⟨result, final⟩ := first n
    rw [inside, (bind_ok f (result.trans returned)).2, final_bind f (result.trans returned), final]
    exact ⟨rfl, rfl⟩
  · obtain ⟨result, final⟩ := repeats (n - (p.writes s).length)
    rw [after, (bind_ok f result).2, final_bind f result, final]
    exact rest _

/-- Writes that do not depend on the medium, commute and change nothing the second time. -/
theorem of_absorbing {ws : List ω} {a : α} (writes : ∀ t, p.writes t = ws) (result : ∀ t, p.result t = .ok a)
    (idempotent : ∀ w ∈ ws, ∀ t : σ, Medium.apply (Medium.apply t w) w = Medium.apply t w)
    (commute : ∀ v ∈ ws, ∀ w ∈ ws, ∀ t : σ, Medium.apply (Medium.apply t v) w = Medium.apply (Medium.apply t w) v) :
    Stable p s := by
  intro n
  refine ⟨by rw [result, result], ?_⟩
  simp only [Program.final, Program.crash, writes]
  exact applyAll_absorb idempotent commute n s

end Stable

section
variable {outstanding : σ → List ι} {process : ι → Program σ ω ε Unit}

/-- Entries whose processing ends with their removal. -/
theorem Resumable.of_stable {body : ι → Program σ ω ε Unit} {remove : ι → ω}
    (kept : ∀ entry n s, outstanding ((body entry).crash n s) = outstanding s)
    (removed : ∀ {s entry rest}, outstanding s = entry :: rest → outstanding (Medium.apply s (remove entry)) = rest)
    (stable : ∀ entry s, (body entry).result s = .ok () → Stable (body entry) s) :
    Resumable outstanding (fun entry => body entry >>= fun _ => write (remove entry)) := by
  have run : ∀ {entry s}, (body entry >>= fun _ => write (remove entry)).result s = .ok () →
      (body entry).result s = .ok () := by
    intro entry s returned
    obtain ⟨⟨⟩, first, -⟩ := result_bind returned
    exact first
  have end_ : ∀ {entry s}, (body entry).result s = .ok () →
      (body entry >>= fun _ => write (remove entry)).final s = Medium.apply ((body entry).final s) (remove entry) :=
    fun first => final_bind _ first
  constructor
  · intro s entry rest listed returned
    rw [end_ (run returned)]
    apply removed
    rw [← crash_all (Nat.le_refl _), kept, listed]
  · intro s entry rest n listed returned
    have first := run returned
    have stopped : ∀ m, outstanding ((body entry).crash m s) = entry :: rest ∧
        (body entry >>= fun _ => write (remove entry)).result ((body entry).crash m s) = .ok () ∧
        (body entry >>= fun _ => write (remove entry)).final ((body entry).crash m s) =
          (body entry >>= fun _ => write (remove entry)).final s := by
      intro m
      obtain ⟨result, final⟩ := stable entry s first m
      have again := result.trans first
      refine ⟨by rw [kept, listed], (bind_ok _ again).2, ?_⟩
      rw [end_ again, end_ first, final]
    rcases crash_bind_ok (fun _ => write (remove entry)) n first with inside | after
    · rw [inside]
      exact .inr (stopped n)
    · rw [after]
      cases n - ((body entry).writes s).length with
      | zero =>
        rw [crash_zero, ← crash_all (Nat.le_refl _)]
        exact .inr (stopped _)
      | succ m =>
        left
        rw [end_ first, crash_all (by simp)]
        rfl

theorem drain_result (s : σ) : (drain outstanding process).result s = (replay process (outstanding s)).result s := rfl
theorem drain_final (s : σ) : (drain outstanding process).final s = (replay process (outstanding s)).final s := rfl
variable {s : σ}

theorem replay_cons {entry : ι} (rest : List ι) (returned : (process entry).result s = .ok ()) :
    (replay process (entry :: rest)).result s = (replay process rest).result ((process entry).final s) ∧
      (replay process (entry :: rest)).final s = (replay process rest).final ((process entry).final s) :=
  ⟨(bind_ok _ returned).2, final_bind _ returned⟩

/-- What processing one entry establishes and processing any entry keeps holds after a replay of both. -/
theorem replay_establishes {G : σ → Prop} {entry : ι} {entries : List ι} (listed : entry ∈ entries)
    (establishes : ∀ s, (process entry).result s = .ok () → G ((process entry).final s))
    (keeps : ∀ e s, G s → G ((process e).final s)) (returned : (replay process entries).result s = .ok ()) :
    G ((replay process entries).final s) := by
  have kept : ∀ (entries : List ι) (s : σ), (replay process entries).result s = .ok () → G s →
      G ((replay process entries).final s) := by
    intro entries
    induction entries with
    | nil => intro s _ now; exact now
    | cons e rest ih =>
      intro s returned now
      obtain ⟨⟨⟩, first, later⟩ := result_bind returned
      rw [(replay_cons rest first).2]
      exact ih _ later (keeps e s now)
  induction entries generalizing s with
  | nil => cases listed
  | cons e rest ih =>
    obtain ⟨⟨⟩, first, later⟩ := result_bind returned
    rw [(replay_cons rest first).2]
    rcases List.mem_cons.mp listed with rfl | inside
    · exact kept rest _ later (establishes s first)
    · exact ih inside later

/-- A replay that was stopped resumes on the entries still outstanding. -/
private theorem replay_crash (resumable : Resumable outstanding process) (entries : List ι) (n : Nat)
    (listed : outstanding s = entries) (returned : (replay process entries).result s = .ok ()) :
    (drain outstanding process).result ((replay process entries).crash n s) = .ok () ∧
      (drain outstanding process).final ((replay process entries).crash n s) = (replay process entries).final s := by
  induction entries generalizing s n with
  | nil =>
    have still : (replay process ([] : List ι)).crash n s = s := by simp [replay, Program.crash]
    rw [still, drain_result, drain_final, listed]
    exact ⟨returned, rfl⟩
  | cons entry rest ih =>
    obtain ⟨⟨⟩, first, later⟩ := result_bind returned
    have whole := replay_cons rest first
    have taken := resumable.done listed first
    rcases crash_bind_ok (fun _ => replay process rest) n first with inside | after
    · change (replay process (entry :: rest)).crash n s = _ at inside
      rw [inside, drain_result, drain_final, whole.2]
      rcases resumable.again n listed first with finished | ⟨outstanding, result, final⟩
      · rw [finished, taken]
        exact ⟨later, rfl⟩
      · have repeated := replay_cons rest result
        rw [outstanding, repeated.1, repeated.2, final]
        exact ⟨later, rfl⟩
    · change (replay process (entry :: rest)).crash n s = _ at after
      rw [after, whole.2]
      exact ih _ taken later

theorem Resumable.restartable (resumable : Resumable outstanding process) : Restartable (drain outstanding process) := by
  rintro s ⟨⟩ n returned
  exact replay_crash resumable (outstanding s) n rfl returned

/-- Every entry outstanding at the start has been taken off when the replay returns. -/
theorem Resumable.drained (resumable : Resumable outstanding process)
    (returned : (drain outstanding process).result s = .ok ()) :
    outstanding ((drain outstanding process).final s) = [] := by
  rw [drain_result] at returned
  rw [drain_final]
  generalize listed : outstanding s = entries at returned
  induction entries generalizing s with
  | nil => exact listed
  | cons entry rest ih =>
    obtain ⟨⟨⟩, first, later⟩ := result_bind returned
    rw [(replay_cons rest first).2]
    exact ih (resumable.done listed first) later

end
end
end AnpIdentity.Durable
