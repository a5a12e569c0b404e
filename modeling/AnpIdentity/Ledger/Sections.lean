import AnpIdentity.Durable.Protocol
import AnpIdentity.Ledger.Effects

/-! The critical sections. Each write replaces the ledger that is in the file by what one operation, or time, makes of
it, under the next generation. -/

namespace AnpIdentity.Ledger
open Durable Relation

/-- What the operation of a thread, or time, makes of a ledger. -/
inductive Applied (platform : Platform) (thread : Thread) (s : AuthorizationState) : AuthorizationState → Prop
  | expiry (now : Int) : Applied platform thread s (s.expire now)
  | action {answers : Answers} {action : Action} {t : AuthorizationState} {reply : Reply}
      (is : thread.call.action platform thread.options answers = some action) (returned : action s = .ok (t, reply)) :
    Applied platform thread s t
  | evaluation {answers : Answers} {action : Action} {t : AuthorizationState} {reply : Reply}
      (is : thread.call.evaluation platform thread.options answers = some action) (returned : action s = .ok (t, reply)) :
    Applied platform thread s t
  | finishCreation {requestId : String} {result checked : CreateResult} {t : AuthorizationState} {reply : Reply}
      (phase : thread.phase = .finishing requestId result)
      (returned : Ledger.finishCreation requestId checked s = .ok (t, reply)) : Applied platform thread s t
  | creationUnknown {requestId : String} {t : AuthorizationState} {reply : Reply}
      (phase : thread.phase = .uncertain requestId) (returned : Ledger.creationUnknown requestId s = .ok (t, reply)) :
    Applied platform thread s t
  /-- `withIdentityAccess` publishes an epoch before and after its callback. -/
  | epoch {identity : IdentityReference} (call : thread.call = .withIdentityAccess identity) : Applied platform thread s s
  | fence {answers : Answers} {now : Int} {target : IdentityReference} {t : AuthorizationState}
      (call : thread.call = .withIdentityDeletion target)
      (returned : fenceDeletion answers target (s.expire now) = .ok (some t)) : Applied platform thread s t
  | completion {target : IdentityReference} (phase : thread.phase = .completing target) :
    Applied platform thread s (s.completeDeletion target)

/-- The ledger that a thread may write over the one in the file. -/
def Writes (platform : Platform) (thread : Thread) (grounds : Deed → Prop) :
    Option AuthorizationState → AuthorizationState → Prop
  | none, written => written = .empty
  | some s, written =>
    ∃ t, Applied platform thread s t ∧ Changes grounds s t ∧ written = { t with generation := successor s.generation }

section
variable {platform : Platform} {answers : Answers} {thread : Thread} {grounds : Deed → Prop}
  {permitted : Option AuthorizationState → AuthorizationState → Prop} {file : Option AuthorizationState}

theorem read_follows :
    Follows permitted (read platform) (fun s t => t = file ∧ file = some s ∧ s.generation ≤ maxSafeInteger) file := by
  refine .silent ?_ ?_
  · unfold read
    simp only [Program.writes_get_bind]
    cases file with
    | none => rfl
    | some s => dsimp only; split <;> rfl
  · intro s returned
    unfold read at returned
    simp only [Program.result_get_bind] at returned
    cases file with
    | none => cases returned
    | some s' =>
      dsimp only at returned
      split at returned
      · rename_i readable
        cases returned
        exact ⟨rfl, rfl, (AuthorizationState.isReadable_iff.mp readable).2.1⟩
      · cases returned

variable {s current : AuthorizationState}

theorem save_follows (allowed : permitted file s) : Follows permitted (save platform s) (fun _ t => t = some s) file := by
  unfold save
  split
  · exact .silent rfl (fun _ returned => nomatch returned)
  · exact .write allowed rfl

/-- The ledger that a transaction's action gets: the one in the file, or what time has made of it. -/
def Refreshed (now : Int) (s current : AuthorizationState) : Prop :=
  current = s ∨ current = (s.expire now).bump

theorem Refreshed.changes (renumber : grounds .renumber) {now : Int} (refreshed : Refreshed now s current) :
    Changes grounds s current := by
  rcases refreshed with rfl | rfl
  · exact .refl
  · exact (expire_changes now s).tail (.renumbered renumber _)

theorem Refreshed.le {now : Int} (refreshed : Refreshed now s current) : s.generation ≤ current.generation := by
  rcases refreshed with rfl | rfl
  · exact Nat.le_refl _
  · exact le_successor _

theorem Refreshed.distinct {now : Int} (refreshed : Refreshed now s current) (distinct : s.Distinct) : current.Distinct := by
  have changes : Changes (fun _ => True) s current := refreshed.changes trivial
  exact changes.distinct distinct

theorem refresh_permits (expiry : ∀ s, file = some s → permitted (some s) (s.expire (answers.now 0)).bump) :
    Follows permitted (refresh platform answers)
      (fun current t => t = some current ∧ ∃ s, file = some s ∧ Refreshed (answers.now 0) s current) file := by
  unfold refresh
  refine .bind (read_follows.mono ?_)
  rintro s _ ⟨rfl, rfl, -⟩
  by_cases due : s.expire (answers.now 0) ≠ s
  · rw [if_pos due]
    refine .bind ((save_follows (expiry s rfl)).mono ?_)
    rintro _ _ rfl
    exact .pure ⟨rfl, s, rfl, .inr rfl⟩
  · rw [if_neg due]
    rw [not_not] at due
    exact .pure ⟨by rw [due], s, rfl, .inl due⟩

theorem refresh_follows : Follows (Writes platform thread grounds) (refresh platform answers)
    (fun current t => t = some current ∧ ∃ s, file = some s ∧ Refreshed (answers.now 0) s current) file :=
  refresh_permits (fun s _ => ⟨_, .expiry (answers.now 0), expire_changes _ s, rfl⟩)

/-- What an operation may make of the ledger. -/
structure Acts (platform : Platform) (thread : Thread) (grounds : Deed → Prop) (s t : AuthorizationState) : Prop where
  applied : Applied platform thread s t
  changes : Changes grounds s t
  generation : t.generation = s.generation

theorem Acts.writes {t : AuthorizationState} (acts : Acts platform thread grounds s t) :
    Writes platform thread grounds (some s) t.bump :=
  ⟨t, acts.applied, acts.changes, by simp [AuthorizationState.bump, acts.generation]⟩

/-- A transaction writes what has expired, and what its action makes of the ledger. -/
theorem transaction_permits {action : Action}
    (expiry : ∀ s, file = some s → permitted (some s) (s.expire (answers.now 0)).bump)
    (acts : ∀ s current t reply, file = some s → Refreshed (answers.now 0) s current → action current = .ok (t, reply) →
      t ≠ current → permitted (some current) t.bump) :
    Follows permitted (transaction platform answers action)
      (fun returned t => ∃ s, file = some s ∧ Refreshed (answers.now 0) s returned.1 ∧
        action returned.1 = .ok (returned.2.1, returned.2.2) ∧
        t = some (if returned.2.1 ≠ returned.1 then returned.2.1.bump else returned.1)) file := by
  unfold transaction
  refine .bind ((refresh_permits expiry).mono ?_)
  rintro current _ ⟨rfl, s, rfl, refreshed⟩
  refine .bind (.lift ?_)
  rintro ⟨next, reply⟩ returned
  dsimp only
  by_cases changed : next ≠ current
  · rw [if_pos changed]
    refine .bind ((save_follows (acts s current next reply rfl refreshed returned changed)).mono ?_)
    rintro _ _ rfl
    exact .pure ⟨s, rfl, refreshed, returned, by rw [if_pos changed]⟩
  · rw [if_neg changed]
    exact .pure ⟨s, rfl, refreshed, returned, by rw [if_neg changed]⟩

/-- A transaction whose action is one of the operations. -/
theorem transaction_follows {action : Action}
    (acts : ∀ s current t reply, file = some s → Refreshed (answers.now 0) s current → action current = .ok (t, reply) →
      t ≠ current → Acts platform thread grounds current t) :
    Follows (Writes platform thread grounds) (transaction platform answers action)
      (fun returned t => ∃ s, file = some s ∧ Refreshed (answers.now 0) s returned.1 ∧
        action returned.1 = .ok (returned.2.1, returned.2.2) ∧
        t = some (if returned.2.1 ≠ returned.1 then returned.2.1.bump else returned.1)) file :=
  transaction_permits (fun s _ => ⟨_, .expiry (answers.now 0), expire_changes _ s, rfl⟩)
    (fun s current t reply read refreshed returned changed => (acts s current t reply read refreshed returned changed).writes)

/-- A commit replaces the ledger only if that ledger is the snapshot. -/
theorem commit_follows {deadline : Option Int} {base next : AuthorizationState}
    (same : ∀ s, file = some s → s.generation ≤ maxSafeInteger → s.generation = base.generation → s = base)
    (acts : Acts platform thread grounds base next) :
    Follows (Writes platform thread grounds) (commit platform answers deadline base next)
      (fun committed t => committed = true →
        file = some base ∧ base.generation ≤ maxSafeInteger ∧ deadline.all (answers.now 0 < ·) ∧ base.expire (answers.now 1) = base ∧
          t = some (if next ≠ base then next.bump else base)) file := by
  unfold commit
  refine .bind (read_follows.mono ?_)
  rintro current _ ⟨rfl, rfl, counted⟩
  by_cases stale : current.generation ≠ base.generation
  · rw [if_pos stale]
    exact .pure (fun no => nomatch no)
  · rw [if_neg stale]
    rw [not_not] at stale
    obtain rfl := same current rfl counted stale
    by_cases late : deadline.any (· ≤ answers.now 0) = true
    · rw [if_pos late]
      exact .silent rfl (fun _ returned => nomatch returned)
    · rw [if_neg late]
      have early : deadline.all (answers.now 0 < ·) = true := by
        cases deadline <;> simp_all
      by_cases due : current.expire (answers.now 1) ≠ current
      · rw [if_pos due]
        refine .bind ((save_follows ⟨_, .expiry (answers.now 1), expire_changes _ current, rfl⟩).mono ?_)
        rintro _ _ rfl
        exact .pure (fun no => nomatch no)
      · rw [if_neg due]
        rw [not_not] at due
        by_cases changed : next ≠ current
        · rw [if_pos changed]
          have written : Writes platform thread grounds (some current)
              { next with generation := successor current.generation } :=
            ⟨next, acts.applied, acts.changes, rfl⟩
          refine .bind ((save_follows written).mono ?_)
          rintro _ _ rfl
          refine .pure (fun _ => ⟨rfl, counted, early, due, ?_⟩)
          rw [if_pos changed, AuthorizationState.bump, acts.generation]
        · rw [if_neg changed]
          exact .pure (fun _ => ⟨rfl, counted, early, due, by rw [if_neg changed]⟩)

theorem beginAccess_follows {identity : IdentityReference} (call : thread.call = .withIdentityAccess identity) :
    Follows (Writes platform thread grounds) (beginAccess platform answers identity)
      (fun returned t => ∃ s, file = some s ∧ Refreshed (answers.now 0) s returned.1 ∧ ¬ returned.1.Fenced identity ∧
        returned.2 = returned.1.bump ∧ t = some returned.2) file := by
  unfold beginAccess
  refine .bind (refresh_follows.mono ?_)
  rintro current _ ⟨rfl, s, rfl, refreshed⟩
  refine .bind (.lift ?_)
  intro target checked
  refine .bind (.lift ?_)
  intro _ available
  refine .bind ((save_follows ⟨current, .epoch call, .refl, rfl⟩).mono ?_)
  rintro _ _ rfl
  have same : target = identity := reference_ok checked
  exact .pure ⟨s, rfl, refreshed, same ▸ AuthorizationState.identityAvailable_ok.mp available, rfl, rfl⟩

theorem beginDeletion_follows {target : IdentityReference} (call : thread.call = .withIdentityDeletion target)
    (ground : grounds (.fence target)) : Follows (Writes platform thread grounds) (beginDeletion platform answers target)
      (fun fenced t => fenced = true → ∃ s, t = some s ∧ s.Fenced target ∧ s.Quiet target) file := by
  unfold beginDeletion
  refine .bind (read_follows.mono ?_)
  rintro s _ ⟨rfl, rfl, -⟩
  refine .bind (.lift ?_)
  intro fenced returned
  cases fenced with
  | none => exact .pure (fun no => nomatch no)
  | some next =>
    obtain ⟨changes, fence, quiet⟩ : Changes (· = .fence target) (s.expire (answers.now 0)) next ∧ _ :=
      fenceDeletion_ok rfl returned
    have generation : next.generation = s.generation := changes.generation (by simp)
    have acts : Acts platform thread grounds s next :=
      ⟨.fence call returned, (expire_changes _ s).trans (changes.mono (fun _ same => same ▸ ground)), generation⟩
    refine .bind ((save_follows acts.writes).mono ?_)
    rintro _ _ rfl
    exact .pure (fun _ => ⟨next.bump, rfl, fence, quiet⟩)

end
end AnpIdentity.Ledger
