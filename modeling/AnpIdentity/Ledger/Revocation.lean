import AnpIdentity.Ledger.Fences

/-! Revocation and expiry. They take effect with the next commit, also for a call that was evaluated before. -/

namespace AnpIdentity.Ledger
open Durable Relation

/-- The grant is revoked. -/
def AuthorizationState.Revokes (s : AuthorizationState) (grantId : String) : Prop :=
  ∃ grant ∈ s.grants, grant.id = grantId ∧ grant.status = .revoked

section
variable {grounds : Deed → Prop} {s t : AuthorizationState} {grantId : String}

theorem Change.keeps_revoked (change : Change grounds s t) (revoked : s.Revokes grantId) : t.Revokes grantId := by
  obtain ⟨grant, listed, named, status⟩ := revoked
  cases change with
  | grants moved =>
    obtain ⟨later, inside, move⟩ := forall₂_mem_left moved listed
    exact ⟨later, inside, move.id.trans named, move.revoked status⟩
  | granted _ _ _ _ _ => exact ⟨grant, List.mem_append_left _ listed, named, status⟩
  | @admitted before after used next execution split admits _ =>
    rw [split] at listed
    have other : grant ≠ used := by
      rintro rfl
      rw [admits.active] at status
      cases status
    refine ⟨grant, ?_, named, status⟩
    rcases List.mem_append.mp listed with first | rest
    · exact List.mem_append_left _ first
    · exact List.mem_append_right _ (List.mem_cons_of_mem _ ((List.mem_cons.mp rest).resolve_left other))
  | _ => exact ⟨grant, listed, named, status⟩

theorem Changes.keeps_revoked (changes : Changes grounds s t) (revoked : s.Revokes grantId) : t.Revokes grantId := by
  induction changes with
  | refl => exact revoked
  | tail _ change ih => exact change.keeps_revoked ih

end

section
variable {platform : Platform} {answers : Answers} {s t : AuthorizationState} {reply : Reply}

theorem revoke_revokes {grantId : String} {expectedVersion : Nat}
    (returned : revoke answers grantId expectedVersion s = .ok (t, reply)) : t.Revokes grantId := by
  unfold revoke at returned
  obtain ⟨grant, found, returned⟩ := except_bind_ok.mp returned
  obtain ⟨_, _, returned⟩ := except_bind_ok.mp returned
  have known := AuthorizationState.findGrant_ok.mp found
  have named : grant.id = grantId := by simpa using List.find?_some known
  split at returned
  · rename_i already
    cases returned
    exact ⟨grant, List.mem_of_find?_eq_some known, named, already⟩
  · cases returned
    exact ⟨{ grant with status := .revoked, version := grant.version + 1, revokedAt := some (answers.now 1) },
      AuthorizationState.mem_replaceGrant found rfl, named, rfl⟩

end

/-- The lease that a commit is made under. -/
def Call.lease : Call → Option AuthorizedLease
  | .admitOperation _ lease _ _ | .assertExecutionActive _ lease _ => some lease
  | _ => none

section
variable {platform : Platform} {e : Engine} {event : Event} {commit : Commit} {lease : AuthorizedLease}

/-- An evaluation under a lease: the grant is active, or used up. -/
private theorem evaluation_leased {options : AuthorizationOptions} {answers : Answers} {call : Call} {action : Action}
    {base next : AuthorizationState} {reply : Reply} (is : call.evaluation platform options answers = some action)
    (returned : action base = .ok (next, reply)) (under : call.lease = some lease) :
    ∃ grant, base.findGrant lease.grantId = .ok grant ∧ grant.status ≠ .revoked := by
  cases call <;> simp only [Call.evaluation, Option.some.injEq, reduceCtorEq] at is <;> subst is
  case admitOperation =>
    obtain ⟨grant, _, _, leased, admits, _⟩ := admitOperation_ok returned
    cases under
    exact ⟨grant, leased.found, by simp [admits.active]⟩
  case assertExecutionActive =>
    obtain ⟨_, grant, found, _, usable, _⟩ := assertExecutionActive_ok returned
    cases under
    refine ⟨grant, found, ?_⟩
    rcases usable with active | consumed
    · simp [active]
    · simp [consumed]
  all_goals cases under

/-- A commit under a lease: the snapshot is the ledger in the file, the grant is not revoked, and nothing has expired by
the clock that the commit reads. -/
private theorem Engine.Sound.leased (sound : e.Sound platform) (committed : e.commits platform event = some commit)
    (under : commit.call.lease = some lease) :
    ∃ i answers fault, event = .advance i answers fault ∧ e.file = some commit.base ∧
      answers.now 0 < lease.expiresAt ∧ commit.base.expire (answers.now 1) = commit.base ∧
      ∃ action, commit.call.evaluation platform commit.options commit.answers = some action ∧
        action commit.base = .ok (commit.next, commit.reply) := by
  obtain ⟨i, ⟨options, call, current⟩, answers, fault, phase, event, listed, landing⟩ := sound.commits committed
  cases landing with
  | changing _ is _ _ _ _ =>
    cases is
    cases under
  | transacted _ is _ _ _ _ => cases call <;> simp_all [Call.action, Call.lease]
  | committed is read _ early unexpired _ =>
    cases is
    obtain ⟨_, evaluation, _⟩ := sound.threads i _ listed
    have limit : call.deadline = some lease.expiresAt := by
      cases call <;> simp_all [Call.lease, Call.deadline]
    have timely : answers.now 0 < lease.expiresAt := by
      dsimp only at early
      rw [limit] at early
      exact of_decide_eq_true early
    exact ⟨i, answers, fault, event, read, timely, unexpired, evaluation⟩

end

/-- A grant for one operation that is active does not expire at a time before its limit only. -/
theorem expire_same {s : AuthorizationState} {now : Int} (same : s.expire now = s) {grant : AuthorizationGrant}
    (listed : grant ∈ s.grants) (active : grant.status = .active) (once : grant.mode = .once) :
    ∀ limit, grant.expiresAt = some limit → now < limit := by
  intro limit is
  by_contra late
  have due : grant.status = .active ∧ grant.mode = .once ∧ grant.expiresAt.any (· ≤ now) := by
    refine ⟨active, once, ?_⟩
    rw [is]
    simpa using late
  have grants : (s.expire now).grants = s.grants := by rw [same]
  have moved := List.map_inj_left.mp (grants.trans (List.map_id _).symm) grant listed
  rw [if_pos due] at moved
  have status : GrantStatus.expired = grant.status := congrArg AuthorizationGrant.status moved
  rw [active] at status
  cases status

/-- Revocation and expiry are effective at once. After the commit of a revocation no admission and no check of an
execution under a lease on that grant commits, wherever its call was. A call under a lease returns only by its commit. A
commit under a lease reads a clock before the lease's limit, and before the limit of an active grant for one operation.
What is admitted is permitted by the approved snapshot and by a current one of the same version. -/
theorem revocation_immediate (platform : Platform) (events : List Event) :
    let e := Engine.new.run platform events
    (∀ event commit grantId expectedVersion, e.commits platform event = some commit →
        commit.call = .revoke grantId expectedVersion → ∀ more event' commit' lease,
          ((e.step platform event).run platform more).commits platform event' = some commit' →
          commit'.call.lease = some lease → lease.grantId ≠ grantId) ∧
      (∀ (event : Event) (i : Nat) (thread later : Thread) (lease : AuthorizedLease) (reply : Reply),
        e.threads[i]? = some thread → thread.call.lease = some lease →
        (e.step platform event).threads[i]? = some later → later.phase = .returned reply →
          thread.phase = .returned reply ∨
            ∃ commit, e.commits platform event = some commit ∧ commit.call = thread.call ∧ commit.reply = reply) ∧
      (∀ i answers fault commit lease, e.commits platform (.advance i answers fault) = some commit →
        commit.call.lease = some lease → e.file = some commit.base ∧ answers.now 0 < lease.expiresAt ∧
          ∀ grant ∈ commit.base.grants, grant.id = lease.grantId → grant.status = .active → grant.mode = .once →
            ∀ limit, grant.expiresAt = some limit → answers.now 1 < limit) ∧
      ∀ event commit source lease actual executionId, e.commits platform event = some commit →
        commit.call = .admitOperation source lease actual executionId →
          ∃ grant ∈ commit.base.grants, grant.id = lease.grantId ∧ permits grant.snapshot actual ∧
            ∃ current, currentSnapshot platform commit.answers grant.caller grant.identity = .ok current ∧
              current.version = grant.snapshot.version ∧ permits current actual := by
  intro e
  have sound : e.Sound platform := Engine.Sound.new.run events
  refine ⟨?_, ?_, ?_, ?_⟩
  · intro event commit grantId expectedVersion committed revokes more event' commit' lease committed' under same
    have revoked : ∃ s, (e.step platform event).file = some s ∧ s.Revokes grantId := by
      obtain ⟨⟨generation, written⟩, acted⟩ := sound.committed committed
      refine ⟨_, written, ?_⟩
      rw [revokes] at acted
      rcases acted with ⟨_, no⟩ | ⟨_, is | no, returned⟩
      · cases no
      · cases is
        have gone : commit.next.Revokes grantId := revoke_revokes returned
        exact gone
      · cases no
    obtain ⟨s, read, revoked⟩ := revoked
    have sound' := (sound.step event).run more
    obtain ⟨t, read', later⟩ := (sound.step event).later more read
    obtain ⟨_, _, _, _, read'', _, _, action, evaluation, returned⟩ := sound'.leased committed' under
    cases read'.symm.trans read''
    obtain ⟨grant, found, status⟩ := evaluation_leased evaluation returned under
    obtain ⟨other, listed, named, gone⟩ := later.changes.keeps_revoked revoked
    have distinct : commit'.base.Distinct := (sound'.ledger _ read').distinct empty_distinct
    rw [findGrant_unique distinct found listed (named.trans same.symm)] at gone
    exact status gone
  · intro event i thread later lease reply listed under after returned
    have snapshot : thread.call.isSnapshot := by
      cases is : thread.call <;> simp_all [Call.lease, Call.isSnapshot]
    cases sound.returns listed snapshot after returned with
    | before already => exact .inl already
    | commit made call same => exact .inr ⟨_, made, call, same⟩
    | settlement call _ _ _ _ =>
      rw [call] at under
      cases under
  · intro i answers fault commit lease committed under
    obtain ⟨_, _, _, ⟨⟩, read, timely, unexpired, _⟩ := sound.leased committed under
    exact ⟨read, timely, fun grant listed _ active once => expire_same unexpired listed active once⟩
  · intro event commit source lease actual executionId committed call
    have under : commit.call.lease = some lease := by rw [call]; rfl
    obtain ⟨_, _, _, _, _, _, _, action, evaluation, returned⟩ := sound.leased committed under
    rw [call] at evaluation
    cases evaluation
    obtain ⟨grant, _, _, leased, _⟩ := admitOperation_ok returned
    have known := AuthorizationState.findGrant_ok.mp leased.found
    exact ⟨grant, List.mem_of_find?_eq_some known, by simpa using List.find?_some known, leased.permitted, leased.current⟩

end AnpIdentity.Ledger
