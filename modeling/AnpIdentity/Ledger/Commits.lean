import AnpIdentity.Ledger.Runs

/-! Commits. An action that takes effect was computed from the ledger that it replaces. -/

namespace AnpIdentity.Ledger
open Durable Relation

namespace Engine
variable {platform : Platform} {e : Engine} {event : Event} {commit : Commit}

/-- Where a commit comes from. -/
theorem Sound.commits (sound : e.Sound platform) (committed : e.commits platform event = some commit) :
    ∃ i thread answers fault phase, event = .advance i answers fault ∧ e.threads[i]? = some thread ∧
      Landing platform (e.draw platform answers) thread e.epoch e.file (e.step platform event).file phase (some commit) := by
  cases event with
  | call _ _ | change _ | crash _ => cases committed
  | advance i answers fault =>
    simp only [Engine.commits] at committed
    cases listed : e.threads[i]? with
    | none =>
      rw [listed] at committed
      cases committed
    | some thread =>
      simp only [listed] at committed
      cases is : thread.turn platform (e.draw platform answers) e.epoch with
      | rest | proceed _ | invoke _ =>
        rw [is] at committed
        cases committed
      | critical body onError =>
        simp only [is] at committed
        by_cases complete : e.isFree platform i thread = true ∧ fault.all (fun n => (body.writes e.file).length ≤ n)
        · rw [if_pos complete] at committed
          obtain ⟨free, survived⟩ := complete
          cases returned : body.result e.file with
          | error _ =>
            rw [returned] at committed
            cases committed
          | ok landing =>
            obtain ⟨phase, made⟩ := landing
            simp only [returned] at committed
            subst committed
            have follows := thread.turn_follows (sound.ready listed) is
            have lands := follows.returns _ returned
            refine ⟨i, thread, answers, fault, phase, rfl, listed, ?_⟩
            have final : (e.step platform (.advance i answers fault)).file = body.final e.file := by
              rw [step_file]
              simp only [written, listed, is, free]
              cases fault with
              | none => rfl
              | some n =>
                have all : (body.writes e.file).length ≤ n := by simpa using survived
                simp [Program.final, List.take_of_length_le all]
            rw [final]
            exact lands
        · rw [if_neg complete] at committed
          cases committed

/-- The writes of a sound engine. -/
theorem Sound.traced (sound : e.Sound platform) (event : Event) (wrote : e.written platform event ≠ []) :
    ∃ i answers fault thread, event = .advance i answers fault ∧ e.threads[i]? = some thread ∧
      Traced (Writes platform thread thread.grounds) e.file (e.written platform event) := by
  cases event with
  | call _ _ | change _ | crash _ => exact absurd rfl wrote
  | advance i answers fault =>
    cases listed : e.threads[i]? with
    | none => exact absurd (by simp [written, listed]) wrote
    | some thread =>
      refine ⟨i, answers, fault, thread, rfl, listed, ?_⟩
      simp only [written, listed]
      cases is : thread.turn platform (e.draw platform answers) e.epoch with
      | rest | proceed _ | invoke _ => trivial
      | critical body onError =>
        have traced := (thread.turn_follows (sound.ready listed) is).traced
        dsimp only
        split
        · trivial
        · cases fault with
          | some n => exact traced.take n
          | none => exact traced

/-- The ledger after a commit, and the action that was committed. -/
theorem Sound.committed (sound : e.Sound platform) (committed : e.commits platform event = some commit) :
    (∃ generation, (e.step platform event).file = some { commit.next with generation }) ∧
      ((∃ identity, commit.call = .withIdentityAccess identity) ∨
        ∃ action, (commit.call.action platform commit.options commit.answers = some action ∨
          commit.call.evaluation platform commit.options commit.answers = some action) ∧
          action commit.base = .ok (commit.next, commit.reply)) := by
  obtain ⟨i, ⟨options, call, current⟩, answers, fault, phase, _, listed, landing⟩ := sound.commits committed
  have leaves : ∀ {base next : AuthorizationState},
      ∃ generation, (if next ≠ base then next.bump else base) = { next with generation } := by
    intro base next
    split
    · exact ⟨_, rfl⟩
    · rename_i same
      rw [not_not] at same
      exact ⟨base.generation, by rw [same]⟩
  cases landing with
  | changing _ is _ _ _ written => exact ⟨⟨_, written⟩, .inl ⟨_, is⟩⟩
  | transacted _ is _ _ returned written =>
    obtain ⟨generation, same⟩ := leaves
    exact ⟨⟨generation, written.trans (congrArg some same)⟩, .inr ⟨_, .inl is, returned⟩⟩
  | committed is _ _ _ _ written =>
    cases is
    obtain ⟨generation, same⟩ := leaves
    obtain ⟨_, ⟨action, evaluation, returned⟩, _⟩ := sound.threads i _ listed
    exact ⟨⟨generation, written.trans (congrArg some same)⟩, .inr ⟨action, .inr evaluation, returned⟩⟩

end Engine

/-- A ledger, and one that the operation of a thread or time puts in its place. -/
def Replaces (platform : Platform) (thread : Thread) : Option AuthorizationState → AuthorizationState → Prop
  | none, written => written = .empty
  | some s, written => (s.generation ≤ maxSafeInteger → s.generation < written.generation) ∧
      ∃ t, Applied platform thread s t ∧ written = { t with generation := successor s.generation }

variable {platform : Platform} {thread : Thread}

theorem Writes.replaces {grounds : Deed → Prop} {file : Option AuthorizationState} {written : AuthorizationState}
    (writes : Writes platform thread grounds file written) : Replaces platform thread file written := by
  cases file with
  | none => exact writes
  | some s =>
    obtain ⟨t, applied, _, rfl⟩ := writes
    exact ⟨lt_successor, t, applied, rfl⟩

/-- How a call that is evaluated on a snapshot returns: by its commit, or with the outcome of the creation that it has
approved, recorded in the ledger in the file. -/
inductive Engine.Returns (platform : Platform) (e : Engine) (event : Event) (thread : Thread) (reply : Reply) : Prop
  | before (returned : thread.phase = .returned reply) : Returns platform e event thread reply
  | commit {commit : Commit} (made : e.commits platform event = some commit) (call : commit.call = thread.call)
      (same : commit.reply = reply) : Returns platform e event thread reply
  | settlement {input : AuthorizationDecision} {action : Action} {now : Int} {s base next : AuthorizationState}
      (call : thread.call = .decideRequest input) (settles : thread.Settles action) (read : e.file = some s)
      (refreshed : Refreshed now s base) (returned : action base = .ok (next, reply)) : Returns platform e event thread reply

/-- Only a decision settles a creation, besides the reconciliation. -/
private theorem Engine.Sound.settles {e : Engine} (sound : e.Sound platform) {i : Nat}
    (listed : e.threads[i]? = some thread) (snapshot : thread.call.isSnapshot) {action : Action}
    (settles : thread.Settles action) : ∃ input, thread.call = .decideRequest input := by
  have phase := sound.threads i thread listed
  rcases settles with ⟨_, _, _, is, _⟩ | ⟨_, is, _⟩
  · rw [is] at phase
    rcases phase with ⟨_, decides⟩ | ⟨_, call⟩
    · exact decides
    · rw [call] at snapshot
      cases snapshot
  · rw [is] at phase
    exact phase.2

/-- A call that is evaluated on a snapshot returns by its commit. -/
theorem Engine.Sound.returns {e : Engine} (sound : e.Sound platform) {event : Event} {i : Nat} {later : Thread}
    {reply : Reply} (listed : e.threads[i]? = some thread) (snapshot : thread.call.isSnapshot)
    (after : (e.step platform event).threads[i]? = some later) (returned : later.phase = .returned reply) :
    e.Returns platform event thread reply := by
  cases Engine.step_moved after with
  | kept _ same =>
    cases listed.symm.trans same
    exact .before returned
  | called _ is | rejected _ is | crashed _ is | invoked _ _ is =>
    subst is
    cases returned
  | proceeded same turn is =>
    cases listed.symm.trans same
    subst is
    cases returned
    have phase := sound.threads i thread listed
    cases thread.turn_proceeds turn with
    | returned reconciling =>
      rw [reconciling] at phase
      obtain ⟨_, call⟩ := phase
      rw [call] at snapshot
      cases snapshot
  | @failed _ _ _ _ _ error same turn _ is =>
    subst is
    rcases Thread.turn_onError turn error with failed | ⟨_, _, _, _, _, uncertain⟩
    · cases failed.symm.trans returned
    · cases uncertain.symm.trans returned
  | @landed _ answers body onError phase commit same turn free result is =>
    cases listed.symm.trans same
    subst is
    have made : e.commits platform (.advance i answers none) = commit := by
      simp only [Engine.commits, listed, turn]
      rw [if_pos ⟨free, rfl⟩, result]
    have landing := (thread.turn_follows (sound.ready listed) turn).returns _ result
    dsimp only at landing returned
    cases landing with
    | returned direct _ => cases direct.symm.trans snapshot
    | settled settles read refreshed acted =>
      cases returned
      obtain ⟨_, call⟩ := sound.settles listed snapshot settles
      exact .settlement call settles read refreshed acted
    | transacted _ acts _ _ _ _ =>
      cases is : thread.call <;> simp_all [Call.action, Call.isSnapshot]
    | @committed _ _ _ _ _ committed _ _ _ _ _ _ =>
      rcases thread.call.afterCommit_cases committed with same | ⟨_, _, _, _, _, _, same⟩
      · cases same.symm.trans returned
        exact .commit made rfl rfl
      · cases same.symm.trans returned
    | _ => cases returned

/-- The ledger is serialisable. Every ledger that a step writes is what the operation of the thread that moves, or time,
makes of the ledger that it replaces, under a higher generation unless that ledger has a generation beyond the safe
integers. An operation that is evaluated on a snapshot commits only if its snapshot is the ledger in the file and no
catalog change was made since the snapshot was taken, and it returns only what it has committed, or the outcome of the
creation that it has approved. -/
theorem ledger_serialisable (platform : Platform) (events : List Event) (event : Event) :
    let e := Engine.new.run platform events
    (e.step platform event).file = applyAll e.file (e.written platform event) ∧
      (e.written platform event ≠ [] → ∃ i answers fault thread, event = .advance i answers fault ∧
        e.threads[i]? = some thread ∧ Traced (Replaces platform thread) e.file (e.written platform event)) ∧
      (∀ commit, e.commits platform event = some commit → commit.call.isSnapshot → e.file = some commit.base ∧
        (∃ action, commit.call.evaluation platform commit.options commit.answers = some action ∧
          action commit.base = .ok (commit.next, commit.reply)) ∧
        ∃ i answers fault attempt, event = .advance i answers fault ∧ e.threads[i]? = some ⟨commit.options, commit.call,
          .committing attempt commit.base commit.answers commit.next commit.reply e.epoch⟩) ∧
      ∀ (i : Nat) (thread later : Thread) (reply : Reply), e.threads[i]? = some thread → thread.call.isSnapshot →
        (e.step platform event).threads[i]? = some later → later.phase = .returned reply →
        e.Returns platform event thread reply := by
  intro e
  have sound : e.Sound platform := Engine.Sound.new.run events
  refine ⟨Engine.step_file e event, ?_, ?_, ?_⟩
  · intro wrote
    obtain ⟨i, answers, fault, thread, is, listed, traced⟩ := sound.traced event wrote
    exact ⟨i, answers, fault, thread, is, listed, traced.weaken (fun _ _ writes => writes.replaces)⟩
  · intro commit committed snapshot
    obtain ⟨i, ⟨options, call, current⟩, answers, fault, phase, is, listed, landing⟩ := sound.commits committed
    cases landing with
    | changing _ call' _ _ _ _ =>
      cases call'
      cases snapshot
    | transacted _ acts _ _ _ _ => exact absurd snapshot (by cases call <;> simp_all [Call.action, Call.isSnapshot])
    | @committed attempt epoch base next evaluated reply phase' read counted _ _ _ =>
      cases phase'
      obtain ⟨held, evaluation, _⟩ := sound.threads i _ listed
      obtain ⟨s, read', _, same⟩ := held.current
      cases read.symm.trans read'
      obtain ⟨_, unchanged, _⟩ := same rfl counted
      exact ⟨read, evaluation, i, answers, fault, attempt, is, unchanged ▸ listed⟩
  · intro i thread later reply listed snapshot after returned
    exact sound.returns listed snapshot after returned

end AnpIdentity.Ledger
