import AnpIdentity.Ledger.Integrity
import Mathlib.Data.List.Induction

/-! Deletions. An identity that is fenced stays fenced, and nothing is granted or used on it any more. -/

namespace AnpIdentity.Ledger
open Durable Relation

section
variable {grounds : Deed → Prop} {s t : AuthorizationState} {target : IdentityReference}

/-- What is deleted is not being deleted. -/
def AuthorizationState.Apart (s : AuthorizationState) : Prop := ∀ target ∈ s.deletedIdentities, target ∉ s.deletingIdentities

/-- No active grant is on a deleted identity. -/
def AuthorizationState.Unused (s : AuthorizationState) : Prop := ∀ target ∈ s.deletedIdentities, s.Quiet target

/-- The deleted identities after a completion. -/
private theorem mem_completed {gone : IdentityReference}
    (inside : target ∈ (if s.isDeleted gone then s.deletedIdentities else s.deletedIdentities ++ [gone])) :
    target ∈ s.deletedIdentities ∨ target = gone := by
  split at inside
  · exact .inl inside
  · rcases List.mem_append.mp inside with before | last
    · exact .inl before
    · exact .inr (List.mem_singleton.mp last)

theorem Change.apart (change : Change grounds s t) (apart : s.Apart) : t.Apart := by
  cases change with
  | @fenced new _ available =>
    intro target deleted deleting
    rcases List.mem_append.mp deleting with before | last
    · exact apart target deleted before
    · rw [List.mem_singleton.mp last] at deleted
      exact available (.inr deleted)
  | @completed gone _ _ _ =>
    intro target deleted deleting
    simp only [List.mem_filter, equalIdentity_eq, Bool.not_eq_true', decide_eq_false_iff_not] at deleting
    rcases mem_completed deleted with before | same
    · exact apart target before deleting.1
    · exact deleting.2 same
  | _ => exact apart

theorem Change.unused (change : Change grounds s t) (unused : s.Unused) : t.Unused := by
  intro target deleted
  by_cases before : target ∈ s.deletedIdentities
  · exact change.keeps_quiet (.inr before) (unused target before)
  · cases change with
    | @completed gone _ fence quiet =>
      rcases mem_completed deleted with old | rfl
      · exact absurd old before
      · exact quiet
    | _ => exact absurd deleted before

/-- An identity is deleted on the ground that it is absent, after it was fenced. -/
theorem Changes.deletes (changes : Changes grounds s t) :
    (t.Fenced target → s.Fenced target ∨ grounds (.fence target)) ∧
      (target ∈ t.deletedIdentities → target ∈ s.deletedIdentities ∨
        (grounds (.complete target) ∧ (s.Fenced target ∨ grounds (.fence target)))) := by
  induction changes with
  | refl => exact ⟨.inl, .inl⟩
  | tail _ change ih =>
    obtain ⟨fenced, deleted⟩ := ih
    cases change with
    | @fenced new ground _ =>
      refine ⟨?_, deleted⟩
      rintro (deleting | gone)
      · rcases List.mem_append.mp deleting with before | last
        · exact fenced (.inl before)
        · rw [List.mem_singleton.mp last]
          exact .inr ground
      · exact fenced (.inr gone)
    | @completed gone ground fence _ =>
      refine ⟨?_, ?_⟩
      · rintro (deleting | inside)
        · exact fenced (.inl (List.mem_of_mem_filter deleting))
        · rcases mem_completed inside with before | rfl
          · exact fenced (.inr before)
          · exact fenced fence
      · intro inside
        rcases mem_completed inside with before | rfl
        · exact deleted before
        · exact .inr ⟨ground, fenced fence⟩
    | _ => exact ⟨fenced, deleted⟩

theorem Changes.apart (changes : Changes grounds s t) (apart : s.Apart) : t.Apart := by
  induction changes with
  | refl => exact apart
  | tail _ change ih => exact change.apart ih

theorem Changes.unused (changes : Changes grounds s t) (unused : s.Unused) : t.Unused := by
  induction changes with
  | refl => exact unused
  | tail _ change ih => exact change.unused ih

end

variable {platform : Platform} {s : AuthorizationState} {target : IdentityReference}

/-- The writes of one thread are a sequence of changes on its grounds. -/
theorem traced_changes {thread : Thread} {grounds : Deed → Prop} (renumber : grounds .renumber)
    {written : List AuthorizationState} (traced : Traced (Writes platform thread grounds) (some s) written) :
    ∃ t, applyAll (some s) written = some t ∧ Changes grounds s t := by
  induction written generalizing s with
  | nil => exact ⟨s, rfl, .refl⟩
  | cons first rest ih =>
    obtain ⟨middle, _, changes, same⟩ := traced.1
    obtain ⟨t, is, more⟩ := ih traced.2
    subst same
    exact ⟨t, is, (changes.tail (.renumbered renumber _)).trans more⟩

/-- The commit is of an operation on the identity. -/
def Commit.Uses (commit : Commit) (target : IdentityReference) : Prop :=
  match commit.call with
  | .requestAccess _ input => input.identity = some target
  | .decideRequest _ => ∃ grant ∈ commit.next.grants, grant ∉ commit.base.grants ∧ grant.identity = target
  | .openGrant _ grantId => ∃ grant ∈ commit.base.grants, grant.id = grantId ∧ grant.identity = target
  | .admitOperation _ lease _ _ | .assertExecutionActive _ lease _ =>
    lease.identity = target ∨ ∃ grant ∈ commit.base.grants, grant.id = lease.grantId ∧ grant.identity = target
  | .withIdentityAccess identity => identity = target
  | _ => False

/-- Two grants of one identifier are the same. -/
theorem findGrant_unique (distinct : s.Distinct) {id : String} {grant other : AuthorizationGrant}
    (found : s.findGrant id = .ok grant) (listed : other ∈ s.grants) (named : other.id = id) : other = grant := by
  have known := AuthorizationState.findGrant_ok.mp found
  have same : grant.id = id := by simpa using List.find?_some known
  exact List.inj_on_of_nodup_map distinct.grants listed (List.mem_of_find?_eq_some known) (named.trans same.symm)

section
variable {platform : Platform} {options : AuthorizationOptions} {answers : Answers} {base next : AuthorizationState}
  {reply : Reply} {target : IdentityReference}

/-- A new grant of a decision is on an identity that is not fenced. -/
private theorem decideRequest_available {input : AuthorizationDecision} {grant : AuthorizationGrant}
    (returned : decideRequest platform options answers input base = .ok (next, reply)) (listed : grant ∈ next.grants)
    (new : grant ∉ base.grants) : ¬ base.Fenced grant.identity := by
  obtain ⟨req, found, pending, ⟨_, denied⟩ | ⟨_, _, _, _, _, _, approved⟩ | ⟨_, named, requested, _, _, body, approved⟩⟩ :=
    decideRequest_ok returned
  · cases denied
    exact absurd listed new
  · cases approved
    exact absurd listed new
  · obtain ⟨_, made, _, available, _, rfl, _⟩ := approveAccess_ok pending body approved
    rcases List.mem_append.mp listed with old | last
    · exact absurd old new
    · rw [List.mem_singleton.mp last]
      exact available

/-- An evaluation that commits is not on a fenced identity. -/
private theorem evaluation_available {call : Call} {action : Action} (distinct : base.Distinct)
    (is : call.evaluation platform options answers = some action) (returned : action base = .ok (next, reply))
    (fenced : base.Fenced target) : ¬ Commit.Uses ⟨options, call, answers, base, next, reply⟩ target := by
  cases call <;> simp only [Call.evaluation, Option.some.injEq, reduceCtorEq] at is <;> subst is
  case requestAccess source input =>
    intro names
    exact (requestAccess_ok returned).1 target names fenced
  case decideRequest input =>
    rintro ⟨grant, listed, new, rfl⟩
    exact decideRequest_available returned listed new fenced
  case openGrant source grantId =>
    rintro ⟨grant, listed, named, rfl⟩
    obtain ⟨_, found, is, _, available⟩ := openGrant_ok returned
    rw [findGrant_unique distinct is listed named] at fenced
    exact available fenced
  case admitOperation source lease actual executionId =>
    obtain ⟨found, _, _, leased, _⟩ := admitOperation_ok returned
    rintro (rfl | ⟨grant, listed, named, rfl⟩)
    · exact leased.available (leased.identity ▸ fenced)
    · rw [findGrant_unique distinct leased.found listed named] at fenced
      exact leased.available fenced
  case assertExecutionActive source lease executionId =>
    obtain ⟨_, found, is, identity, _, available⟩ := assertExecutionActive_ok returned
    rintro (rfl | ⟨grant, listed, named, rfl⟩)
    · exact available (identity ▸ fenced)
    · rw [findGrant_unique distinct is listed named] at fenced
      exact available fenced
  case reconcileDeletions => exact fun no => no

end

/-- No operation on a fenced identity commits. -/
theorem Engine.Sound.unused {e : Engine} (sound : e.Sound platform) {event : Event} {commit : Commit}
    (read : e.file = some s) (fenced : s.Fenced target) (committed : e.commits platform event = some commit) :
    ¬ commit.Uses target := by
  obtain ⟨i, ⟨options, call, current⟩, answers, fault, phase, _, listed, landing⟩ := sound.commits committed
  cases landing with
  | changing _ is read' refreshed available _ =>
    cases is
    cases read.symm.trans read'
    rintro rfl
    have passed : Changes (fun _ => True) s _ := refreshed.changes trivial
    exact available (passed.keeps_fence fenced)
  | transacted _ is _ _ _ _ => cases call <;> simp_all [Call.action, Commit.Uses]
  | committed is read' _ _ _ _ =>
    cases is
    cases read.symm.trans read'
    obtain ⟨_, ⟨action, evaluation, returned⟩, _⟩ := sound.threads i _ listed
    have distinct : s.Distinct := (sound.ledger s read).distinct empty_distinct
    exact evaluation_available distinct evaluation returned fenced

theorem empty_apart : AuthorizationState.empty.Apart := fun _ no => nomatch no
theorem empty_unused : AuthorizationState.empty.Unused := fun _ no => nomatch no

/-- A step that deletes an identity. -/
theorem Engine.Sound.deletes {e : Engine} (sound : e.Sound platform) {event : Event} {t : AuthorizationState}
    (read : e.file = some s) (after : (e.step platform event).file = some t) (before : target ∉ s.deletedIdentities)
    (deleted : target ∈ t.deletedIdentities) :
    ∃ i answers fault thread, event = .advance i answers fault ∧ e.threads[i]? = some thread ∧
      ((thread.phase = .completing target ∧ target ∈ s.deletingIdentities) ∨
        ∃ fences attempt base evaluated next reply epoch, thread.call = .reconcileDeletions fences ∧
          thread.phase = .committing attempt base evaluated next reply epoch ∧ evaluated.isAbsent target = some true ∧
          (target ∈ s.deletingIdentities ∨ target ∈ fences)) := by
  rw [step_file, read] at after
  by_cases wrote : e.written platform event = []
  · rw [wrote] at after
    cases after
    exact absurd deleted before
  · obtain ⟨i, answers, fault, thread, is, listed, traced⟩ := sound.traced event wrote
    rw [read] at traced
    obtain ⟨t', same, changes⟩ := traced_changes trivial traced
    cases same.symm.trans after
    refine ⟨i, answers, fault, thread, is, listed, ?_⟩
    obtain ⟨ground, fence⟩ := (changes.deletes.2 deleted).resolve_left before
    rcases ground with completing | ⟨attempt, base, evaluated, next, reply, epoch, phase, ⟨fences, call⟩, absent⟩
    · obtain ⟨⟨_, read', closed, _⟩, _⟩ := (sound.ready listed).completing target completing
      cases read.symm.trans read'
      exact .inl ⟨completing, closed.resolve_right before⟩
    · refine .inr ⟨fences, attempt, base, evaluated, next, reply, epoch, call, phase, absent, ?_⟩
      rcases fence with fenced | other | ⟨fences', call', inside⟩
      · exact .inl (fenced.resolve_right before)
      · cases call.symm.trans other
      · cases call.symm.trans call'
        exact .inr inside

/-- The `execute` of a call has returned in the run. -/
def Executed (platform : Platform) (events : List Event) (i : Nat) (target : IdentityReference) : Prop :=
  ∃ before answers fault after thread, events = before ++ .advance i answers fault :: after ∧
    (Engine.new.run platform before).threads[i]? = some thread ∧ thread.phase = .executing target ∧ answers.returns

/-- A call completes a deletion only after its `execute` has returned. -/
theorem completing_executed (platform : Platform) {events : List Event} {i : Nat} {thread : Thread}
    (listed : (Engine.new.run platform events).threads[i]? = some thread) (completing : thread.phase = .completing target) :
    Executed platform events i target := by
  induction events using List.reverseRecOn generalizing thread with
  | nil => simp [Engine.run, Engine.new] at listed
  | append_singleton events event ih =>
    have sound : (Engine.new.run platform events).Sound platform := Engine.Sound.new.run events
    rw [Engine.run, List.foldl_append] at listed
    cases Engine.step_moved listed with
    | kept _ same =>
      obtain ⟨before, answers, fault, after, earlier, rfl, was, executing, returned⟩ := ih same completing
      exact ⟨before, answers, fault, after ++ [event], earlier, by simp, was, executing, returned⟩
    | called _ is | rejected _ is | crashed _ is | invoked _ _ is =>
      subst is
      cases completing
    | @proceeded old answers fault _ same turn is =>
      subst is
      cases completing
      cases old.turn_proceeds turn with
      | executed executing returned => exact ⟨events, answers, fault, [], old, rfl, same, executing, returned⟩
    | @failed _ _ _ _ _ error _ turn _ is =>
      subst is
      rcases Thread.turn_onError turn error with failed | ⟨_, _, _, _, _, uncertain⟩
      · cases failed.symm.trans completing
      · cases uncertain.symm.trans completing
    | @landed old _ _ _ _ _ same turn _ result is =>
      subst is
      dsimp only at completing
      have landing := (old.turn_follows (sound.ready same) turn).returns _ result
      dsimp only at landing
      cases landing with
      | @committed _ _ _ _ _ reply _ _ _ _ _ _ =>
        rcases old.call.afterCommit_cases reply with same | ⟨_, _, _, _, _, _, same⟩
        · cases same.symm.trans completing
        · cases same.symm.trans completing
      | _ => cases completing

/-- The deletion fence. An identity that is being deleted, or deleted, stays so and is never taken back from deleted;
no operation on it commits from then on; it becomes deleted only after it was fenced, by a deletion whose `execute` has
returned or by a reconciliation that was told that it is absent; no active grant is on a deleted identity; and no two
calls run `execute` for one identity at the same time. -/
theorem deletion_fence (platform : Platform) (events more : List Event) (target : IdentityReference) :
    let e := Engine.new.run platform events
    let later := e.run platform more
    (∀ s, e.file = some s → s.Fenced target → ∃ t, later.file = some t ∧ t.Fenced target ∧
        (target ∈ s.deletedIdentities → target ∈ t.deletedIdentities ∧ target ∉ t.deletingIdentities) ∧
        ∀ event commit, later.commits platform event = some commit → ¬ commit.Uses target) ∧
      (∀ event s t, e.file = some s → (e.step platform event).file = some t → target ∉ s.deletedIdentities →
        target ∈ t.deletedIdentities → ∃ i answers fault thread, event = .advance i answers fault ∧
          e.threads[i]? = some thread ∧
          ((thread.phase = .completing target ∧ target ∈ s.deletingIdentities ∧ Executed platform events i target) ∨
            ∃ fences attempt base evaluated next reply epoch, thread.call = .reconcileDeletions fences ∧
              thread.phase = .committing attempt base evaluated next reply epoch ∧
              evaluated.isAbsent target = some true ∧ (target ∈ s.deletingIdentities ∨ target ∈ fences))) ∧
      (∀ s, e.file = some s → ∀ grant ∈ s.grants, grant.status = .active → grant.identity ∉ s.deletedIdentities) ∧
      ∀ (i j : Nat) (first second : Thread), e.threads[i]? = some first → e.threads[j]? = some second →
        first.phase = .executing target → second.phase = .executing target → i = j := by
  intro e later
  have sound : e.Sound platform := Engine.Sound.new.run events
  refine ⟨?_, ?_, ?_, ?_⟩
  · intro s read fenced
    obtain ⟨t, read', passed⟩ := sound.later more read
    have apart : t.Apart := ((sound.run more).ledger t read').apart empty_apart
    have still := passed.changes.keeps_fence fenced
    refine ⟨t, read', still, ?_, fun event commit committed => (sound.run more).unused read' still committed⟩
    intro deleted
    have gone := passed.changes.keeps_deleted deleted
    exact ⟨gone, apart target gone⟩
  · intro event s t read after before deleted
    obtain ⟨i, answers, fault, thread, is, listed, grounds⟩ := sound.deletes read after before deleted
    refine ⟨i, answers, fault, thread, is, listed, grounds.imp_left ?_⟩
    exact fun ⟨completing, deleting⟩ => ⟨completing, deleting, completing_executed platform listed completing⟩
  · intro s read grant listed active deleted
    have unused : s.Unused := (sound.ledger s read).unused empty_unused
    exact unused grant.identity deleted grant listed rfl active
  · intro i j first second listed listed' running running'
    have one := sound.threads i first listed
    have two := sound.threads j second listed'
    rw [running] at one
    rw [running'] at two
    exact Option.some.inj (one.2.1.symm.trans two.2.1)

end AnpIdentity.Ledger
