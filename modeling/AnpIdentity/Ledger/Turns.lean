import AnpIdentity.Ledger.Sections

/-! What a thread's next critical section leads to. -/

namespace AnpIdentity.Ledger
open Durable Relation

/-- What a thread may do to the ledger in its next critical section, besides what any operation may do. -/
def Thread.grounds (thread : Thread) : Deed → Prop
  | .renumber => True
  | .lift req => ∃ attempt requestId expectedVersion, thread.phase = .starting attempt ∧
      thread.call = .reauthorize requestId expectedVersion ∧ req.id = requestId
  | .issue id => ∃ attempt base evaluated next reply epoch,
      thread.phase = .committing attempt base evaluated next reply epoch ∧ id = evaluated.uuid
  | .fence target => thread.call = .withIdentityDeletion target ∨
      ∃ fences, thread.call = .reconcileDeletions fences ∧ target ∈ fences
  | .complete target => thread.phase = .completing target ∨
      ∃ attempt base evaluated next reply epoch, thread.phase = .committing attempt base evaluated next reply epoch ∧
        (∃ fences, thread.call = .reconcileDeletions fences) ∧ evaluated.isAbsent target = some true

/-- What the evaluation of a call on a snapshot may do. -/
def Call.grounds (call : Call) (answers : Answers) : Deed → Prop
  | .issue id => id = answers.uuid
  | .fence target => ∃ fences, call = .reconcileDeletions fences ∧ target ∈ fences
  | .complete target => (∃ fences, call = .reconcileDeletions fences) ∧ answers.isAbsent target = some true
  | _ => False

/-- A request of the ledger in the file has been decided. -/
def Decided (file : Option AuthorizationState) (requestId : String) : Prop :=
  ∃ s req, file = some s ∧ req ∈ s.requests ∧ req.id = requestId ∧ req.status ≠ .pending

/-- A creation is recorded in the ledger as approved. -/
def Recorded (file : Option AuthorizationState) (creation : Creation) : Prop :=
  ∃ s req, file = some s ∧ req ∈ s.requests ∧ req.creation = some creation

theorem Recorded.decided {file : Option AuthorizationState} {creation : Creation} (recorded : Recorded file creation) :
    Decided file creation.requestId := by
  obtain ⟨s, req, read, listed, is⟩ := recorded
  unfold AuthorizationRequest.creation at is
  split at is
  · rename_i approved
    cases is
    exact ⟨s, req, read, listed, rfl, by simp [approved]⟩
  · cases is

/-- The ledger in the file fences the identity and has no active grant on it. -/
def Closed (file : Option AuthorizationState) (target : IdentityReference) : Prop :=
  ∃ s, file = some s ∧ s.Fenced target ∧ s.Quiet target

/-- The action with which a thread records the outcome of an approved creation. -/
def Thread.Settles (thread : Thread) (action : Action) : Prop :=
  (∃ requestId result checked, thread.phase = .finishing requestId result ∧ action = finishCreation requestId checked) ∨
    ∃ requestId, thread.phase = .uncertain requestId ∧ action = creationUnknown requestId

/-- Where a critical section that returns leads to. -/
inductive Landing (platform : Platform) (answers : Answers) (thread : Thread) (epoch : Nat)
    (file after : Option AuthorizationState) : Phase → Option Commit → Prop
  | returned (direct : thread.call.isSnapshot = false) (reply : Reply) :
    Landing platform answers thread epoch file after (.returned reply) none
  | settled {action : Action} {s base next : AuthorizationState} {reply : Reply} (settles : thread.Settles action)
      (read : file = some s) (refreshed : Refreshed (answers.now 0) s base) (returned : action base = .ok (next, reply)) :
    Landing platform answers thread epoch file after (.returned reply) none
  | restarted (attempt : Nat) : Landing platform answers thread epoch file after (.starting attempt) none
  | reconciling {requestId : String} (call : thread.call = .reconcileCreation requestId) (req : AuthorizationRequest) :
    Landing platform answers thread epoch file after (.reconciling req) none
  | snapshot (attempt : Nat) {base : AuthorizationState} (taken : after = some base) :
    Landing platform answers thread epoch file after (.evaluating attempt base epoch) none
  | changing {attempt : Nat} {identity : IdentityReference} {s base : AuthorizationState}
      (phase : thread.phase = .starting attempt) (call : thread.call = .withIdentityAccess identity) (read : file = some s)
      (refreshed : Refreshed (answers.now 0) s base) (available : ¬ base.Fenced identity)
      (written : after = some base.bump) :
    Landing platform answers thread epoch file after (.changing base.bump)
      (some ⟨thread.options, thread.call, answers, base, base, .none⟩)
  | executing {attempt : Nat} {target : IdentityReference} (phase : thread.phase = .starting attempt)
      (call : thread.call = .withIdentityDeletion target) (closed : Closed after target) :
    Landing platform answers thread epoch file after (.executing target) none
  | transacted {attempt : Nat} {action : Action} {s base next : AuthorizationState} {reply : Reply}
      (phase : thread.phase = .starting attempt) (is : thread.call.action platform thread.options answers = some action)
      (read : file = some s) (refreshed : Refreshed (answers.now 0) s base) (returned : action base = .ok (next, reply))
      (written : after = some (if next ≠ base then next.bump else base)) :
    Landing platform answers thread epoch file after (.returned reply)
      (some ⟨thread.options, thread.call, answers, base, next, reply⟩)
  | committed {attempt epoch' : Nat} {base next : AuthorizationState} {evaluated : Answers} {reply : Reply}
      (phase : thread.phase = .committing attempt base evaluated next reply epoch') (current : file = some base)
      (counted : base.generation ≤ maxSafeInteger)
      (early : thread.call.deadline.all (answers.now 0 < ·)) (unexpired : base.expire (answers.now 1) = base)
      (written : after = some (if next ≠ base then next.bump else base)) :
    Landing platform answers thread epoch file after (thread.call.afterCommit reply)
      (some ⟨thread.options, thread.call, evaluated, base, next, reply⟩)

/-- What is known of a thread before its next critical section. -/
structure Thread.Ready (platform : Platform) (file : Option AuthorizationState) (thread : Thread) : Prop where
  distinct : ∀ s, file = some s → s.Distinct
  committing : ∀ attempt base evaluated next reply epoch, thread.phase = .committing attempt base evaluated next reply epoch →
    (∀ s, file = some s → s.generation ≤ maxSafeInteger → s.generation = base.generation → s = base) ∧
      (∃ action, thread.call.evaluation platform thread.options evaluated = some action ∧ action base = .ok (next, reply)) ∧
      Changes (thread.call.grounds evaluated) base next
  uncertain : ∀ requestId, thread.phase = .uncertain requestId → Decided file requestId
  changing : ∀ held, thread.phase = .changing held →
    file = some held ∧ ∃ identity, thread.call = .withIdentityAccess identity
  completing : ∀ target, thread.phase = .completing target → Closed file target ∧ thread.call = .withIdentityDeletion target

section
variable {platform : Platform} {answers : Answers} {thread : Thread} {epoch : Nat} {file : Option AuthorizationState}

/-- An action that leaves the ledger as it is. -/
private theorem silent_follows {action : Action} (same : ∀ s t reply, action s = .ok (t, reply) → t = s) :
    Follows (Writes platform thread thread.grounds) (transaction platform answers action)
      (fun returned t => t = some returned.1) file := by
  refine (transaction_follows ?_).mono ?_
  · intro s current t reply _ _ returned changed
    exact absurd (same current t reply returned) changed
  · rintro ⟨base, next, reply⟩ t ⟨s, _, _, returned, rfl⟩
    simp only [same base next reply returned, ne_eq, not_true, if_false]

private theorem action_follows {attempt : Nat} {action : Action} (distinct : ∀ s, file = some s → s.Distinct)
    (phase : thread.phase = .starting attempt) (is : thread.call.action platform thread.options answers = some action) :
    Follows (Writes platform thread thread.grounds)
      (do
        let (base, next, reply) ← transaction platform answers action
        pure (.returned reply, some ⟨thread.options, thread.call, answers, base, next, reply⟩))
      (fun landing t => Landing platform answers thread epoch file t landing.1 landing.2) file := by
  refine .bind ((transaction_follows ?_).mono ?_)
  · intro s current t reply read refreshed returned _
    have known : current.Distinct := refreshed.distinct (distinct s read)
    refine ⟨.action is returned, Call.action_changes known is returned ?_, ?_⟩
    · intro requestId expectedVersion req call found
      exact ⟨attempt, requestId, expectedVersion, phase, call, AuthorizationState.findRequest_id found⟩
    · have changes : Changes (fun deed => ∃ req, deed = .lift req) current t :=
        Call.action_changes known is returned (fun _ _ req _ _ => ⟨req, rfl⟩)
      exact changes.generation (by simp)
  · rintro ⟨base, next, reply⟩ t ⟨s, read, refreshed, returned, written⟩
    exact .pure (.transacted phase is read refreshed returned written)

variable {requestId : String} {body : Section (Phase × Option Commit)} {onError : EngineError → Phase}

private theorem lookup_follows (call : thread.call = .reconcileCreation requestId) :
    Follows (Writes platform thread thread.grounds)
      (do
        let (_, _, reply) ← transaction platform answers (lookup requestId)
        match reply with
        | .request req => do
          let phase ← afterLookup req
          pure (phase, none)
        | _ => pure (.returned reply, none) : Section (Phase × Option Commit))
      (fun landing t => Landing platform answers thread epoch file t landing.1 landing.2) file := by
  have same : ∀ s t reply, lookup requestId s = .ok (t, reply) → t = s := by
    intro s t reply returned
    obtain ⟨req, _, returned⟩ := except_bind_ok.mp returned
    cases returned
    rfl
  refine .bind ((silent_follows same).mono ?_)
  rintro ⟨base, next, reply⟩ t _
  dsimp only
  split
  · refine .bind (.lift ?_)
    intro phase after
    unfold afterLookup at after
    split at after
    · split at after
      · cases after
        exact .pure (.returned (by rw [call]; rfl) _)
      · cases after
        exact .pure (.reconciling call _)
    · cases after
  · exact .pure (.returned (by rw [call]; rfl) reply)

private theorem initializeLedger_follows (call : thread.call = .initializeLedger) :
    Follows (Writes platform thread thread.grounds)
      (do
        initializeLedger platform
        pure (.returned .none, none) : Section (Phase × Option Commit))
      (fun landing t => Landing platform answers thread epoch file t landing.1 landing.2) file := by
  have ran : Follows (Writes platform thread thread.grounds) (initializeLedger platform) (fun _ _ => True) file := by
    unfold initializeLedger
    refine .bind (.get ?_)
    cases file with
    | none => exact (save_follows rfl).mono (fun _ _ _ => trivial)
    | some s => exact .bind (read_follows.mono (fun _ _ _ => .pure trivial))
  exact .bind (ran.mono (fun _ _ _ => .pure (.returned (by rw [call]; rfl) .none)))

/-- The first critical section of a call. -/
private theorem start_follows {attempt : Nat} (distinct : ∀ s, file = some s → s.Distinct)
    (phase : thread.phase = .starting attempt) :
    Follows (Writes platform thread thread.grounds) (thread.start platform answers attempt epoch)
      (fun landing t => Landing platform answers thread epoch file t landing.1 landing.2) file := by
  unfold Thread.start
  split
  · rename_i call
    exact initializeLedger_follows call
  · rename_i requestId call
    exact lookup_follows call
  · rename_i identity call
    refine .bind ((beginAccess_follows call).mono ?_)
    rintro ⟨base, held⟩ t ⟨s, read, refreshed, available, bumped, written⟩
    have bumped : held = base.bump := bumped
    subst bumped
    exact .pure (.changing phase call read refreshed available written)
  · rename_i target call
    refine .bind ((beginDeletion_follows call (.inl call)).mono ?_)
    intro fenced t closed
    cases fenced with
    | true => exact .pure (.executing phase call (closed rfl))
    | false => exact .pure (.returned (by rw [call]; rfl) .none)
  · split
    · rename_i action is
      exact action_follows distinct phase is
    · refine .bind ((silent_follows (fun s t reply returned => by cases returned; rfl)).mono ?_)
      rintro ⟨base, next, reply⟩ t taken
      exact .pure (.snapshot attempt taken)

private theorem finishing_follows {result : CreateResult} (phase : thread.phase = .finishing requestId result) :
    Follows (Writes platform thread thread.grounds)
      (do
        let reference ← reference result.reference
        let label ← text result.label 256
        let (_, _, reply) ← transaction platform answers (finishCreation requestId { reference, label })
        pure (.returned reply, none) : Section (Phase × Option Commit))
      (fun landing t => Landing platform answers thread epoch file t landing.1 landing.2) file := by
  refine .bind (.lift (fun reference _ => .bind (.lift (fun label _ => .bind ((transaction_follows ?_).mono ?_)))))
  · intro s current t reply _ _ returned _
    have changes : Changes (fun _ => False) current t := finishCreation_changes returned
    exact ⟨.finishCreation phase returned, finishCreation_changes returned, changes.generation (fun no => no)⟩
  · rintro ⟨base, next, reply⟩ t ⟨s, read, refreshed, returned, _⟩
    exact .pure (.settled (.inl ⟨requestId, result, _, phase, rfl⟩) read refreshed returned)

/-- A request that has been decided is still decided when time has passed. -/
private theorem decided_refreshed {now : Int} {s current : AuthorizationState} (known : s.Distinct)
    (decided : Decided (some s) requestId) (refreshed : Refreshed now s current) :
    ∀ req, current.findRequest requestId = .ok req → req.status ≠ .pending := by
  obtain ⟨_, req, ⟨rfl⟩, listed, named, settled⟩ := decided
  have changes : Changes (fun _ => True) s current := refreshed.changes trivial
  obtain ⟨later, inside, tracks⟩ := changes.tracks listed
  intro found is
  rw [AuthorizationState.findRequest_ok, ← named, ← tracks.id, find?_id (refreshed.distinct known).requests inside] at is
  cases is
  rw [(tracks.settled settled).1]
  exact settled

private theorem uncertain_follows (distinct : ∀ s, file = some s → s.Distinct)
    (phase : thread.phase = .uncertain requestId) (decided : Decided file requestId) :
    Follows (Writes platform thread thread.grounds)
      (do
        let (_, _, reply) ← transaction platform answers (creationUnknown requestId)
        pure (.returned reply, none) : Section (Phase × Option Commit))
      (fun landing t => Landing platform answers thread epoch file t landing.1 landing.2) file := by
  refine .bind ((transaction_follows ?_).mono ?_)
  · rintro s current t reply rfl refreshed returned _
    have still := decided_refreshed (distinct s rfl) decided refreshed
    have changes : Changes (fun _ => False) current t := creationUnknown_changes still returned
    exact ⟨.creationUnknown phase returned, creationUnknown_changes still returned, changes.generation (fun no => no)⟩
  · rintro ⟨base, next, reply⟩ t ⟨s, read, refreshed, returned, _⟩
    exact .pure (.settled (.inr ⟨requestId, phase, rfl⟩) read refreshed returned)

private theorem completing_follows {target : IdentityReference} (phase : thread.phase = .completing target)
    (closed : Closed file target) (call : thread.call = .withIdentityDeletion target) :
    Follows (Writes platform thread thread.grounds)
      (do
        let _ ← transaction platform answers (fun state => .ok (state.completeDeletion target, .none))
        pure (.returned .none, none) : Section (Phase × Option Commit))
      (fun landing t => Landing platform answers thread epoch file t landing.1 landing.2) file := by
  refine .bind ((transaction_follows ?_).mono ?_)
  · rintro s current t reply read refreshed ⟨⟩ _
    obtain ⟨_, same, fence, quiet⟩ := closed
    cases read.symm.trans same
    have passed : Changes (fun _ => True) s current := refreshed.changes trivial
    exact ⟨.completion phase,
      completeDeletion_changes (.inl phase) (passed.keeps_fence fence) (passed.keeps_quiet fence quiet), rfl⟩
  · intro returned t _
    exact .pure (.returned (by rw [call]; rfl) .none)

/-- Every critical section writes what it may and leads to a landing. -/
theorem Thread.turn_follows (ready : thread.Ready platform file)
    (is : thread.turn platform answers epoch = .critical body onError) :
    Follows (Writes platform thread thread.grounds) body
      (fun landing t => Landing platform answers thread epoch file t landing.1 landing.2) file := by
  unfold Thread.turn at is
  split at is
  · rename_i attempt phase
    cases is
    exact start_follows ready.distinct phase
  · split at is
    · cases is
    · split at is <;> cases is
  · rename_i attempt base evaluated next reply epoch' phase
    cases is
    obtain ⟨same, ⟨action, evaluation, returned⟩, changes⟩ := ready.committing _ _ _ _ _ _ phase
    have acts : Acts platform thread thread.grounds base next := by
      refine ⟨.evaluation evaluation returned, changes.mono ?_, changes.generation (fun no => no)⟩
      rintro (_ | _ | id | target | target) ground
      · trivial
      · exact ground.elim
      · exact ⟨attempt, base, evaluated, next, reply, epoch', phase, ground⟩
      · exact .inr ground
      · exact .inr ⟨attempt, base, evaluated, next, reply, epoch', phase, ground⟩
    refine .bind ((commit_follows same acts).mono ?_)
    intro committed t landed
    cases committed with
    | true =>
      obtain ⟨current, counted, early, unexpired, written⟩ := landed rfl
      exact .pure (.committed phase current counted early unexpired written)
    | false =>
      simp only [Bool.false_eq_true, if_false]
      split
      · exact .pure (.restarted _)
      · exact .silent rfl (fun _ returned => nomatch returned)
  · cases is
  · split at is <;> cases is
  · rename_i phase
    cases is
    exact finishing_follows phase
  · rename_i requestId phase
    cases is
    exact uncertain_follows ready.distinct phase (ready.uncertain requestId phase)
  · split at is
    · cases is
    · split at is <;> cases is
  · rename_i held phase
    split at is
    · cases is
    · cases is
      obtain ⟨same, identity, call⟩ := ready.changing held phase
      rw [same]
      refine .bind ((save_follows ⟨held, .epoch call, .refl, rfl⟩).mono ?_)
      intro _ t _
      exact .pure (.returned (by rw [call]; rfl) .none)
  · split at is <;> cases is
  · rename_i target phase
    cases is
    obtain ⟨closed, call⟩ := ready.completing target phase
    exact completing_follows phase closed call
  · cases is
  · cases is

/-- Where a thread goes off the lock. -/
inductive Proceeds (platform : Platform) (answers : Answers) (thread : Thread) : Phase → Prop
  | evaluated {attempt epoch : Nat} {base next : AuthorizationState} {action : Action} {reply : Reply}
      (phase : thread.phase = .evaluating attempt base epoch)
      (is : thread.call.evaluation platform thread.options answers = some action)
      (returned : action base = .ok (next, reply)) :
    Proceeds platform answers thread (.committing attempt base answers next reply epoch)
  | created {creation : Creation} (phase : thread.phase = .creating creation) (result : CreateResult) :
    Proceeds platform answers thread (.finishing creation.requestId result)
  | unknown {creation : Creation} (phase : thread.phase = .creating creation) :
    Proceeds platform answers thread (.uncertain creation.requestId)
  | reconciled {req : AuthorizationRequest} (phase : thread.phase = .reconciling req) (result : CreateResult) :
    Proceeds platform answers thread (.finishing req.id result)
  | executed {target : IdentityReference} (phase : thread.phase = .executing target) (returned : answers.returns) :
    Proceeds platform answers thread (.completing target)
  | returned {req : AuthorizationRequest} (phase : thread.phase = .reconciling req) :
    Proceeds platform answers thread (.returned (.request req))
  | failed (error : EngineError) : Proceeds platform answers thread (.failed error)

theorem Thread.turn_proceeds {next : Phase} (is : thread.turn platform answers epoch = .proceed next) :
    Proceeds platform answers thread next := by
  unfold Thread.turn at is
  split at is
  · cases is
  · rename_i phase
    split at is
    · cases is
    · rename_i action evaluation
      split at is
      · rename_i returned
        cases is
        exact .evaluated phase evaluation returned
      · cases is
        exact .failed _
  · cases is
  · cases is
  · rename_i creation phase
    split at is
    · cases is
      exact .created phase _
    · cases is
      exact .unknown phase
  · cases is
  · cases is
  · rename_i req phase
    split at is
    · cases is
      exact .failed _
    · split at is
      · cases is
        exact .reconciled phase _
      · cases is
        exact .returned phase
  · split at is
    · cases is
      exact .failed _
    · cases is
  · rename_i target phase
    split at is
    · cases is
      exact .failed _
    · rename_i done
      cases is
      exact .executed phase (by simpa using done)
  · cases is
  · cases is
  · cases is

/-- Where a call goes when a critical section fails. -/
theorem Thread.turn_onError (is : thread.turn platform answers epoch = .critical body onError) (error : EngineError) :
    onError error = .failed error ∨ ∃ requestId result input, thread.phase = .finishing requestId result ∧
      thread.call = .decideRequest input ∧ onError error = .uncertain requestId := by
  unfold Thread.turn at is
  split at is
  · cases is
    exact .inl rfl
  · split at is
    · cases is
    · split at is <;> cases is
  · cases is
    exact .inl rfl
  · cases is
  · split at is <;> cases is
  · rename_i requestId result phase
    cases is
    split
    · rename_i input call
      exact .inr ⟨requestId, result, input, phase, call, rfl⟩
    · exact .inl rfl
  · cases is
    exact .inl rfl
  · split at is
    · cases is
    · split at is <;> cases is
  · split at is
    · cases is
    · cases is
      exact .inl rfl
  · split at is <;> cases is
  · cases is
    exact .inl rfl
  · cases is
  · cases is

theorem Thread.turn_invokes {creation : Creation} (is : thread.turn platform answers epoch = .invoke creation) :
    thread.phase = .approved creation := by
  unfold Thread.turn at is
  split at is
  case h_4 phase =>
    cases is
    exact phase
  all_goals
    repeat' split at is
    all_goals cases is

/-- Only an approved creation goes on after its commit. -/
theorem Call.afterCommit_cases (call : Call) (reply : Reply) :
    call.afterCommit reply = .returned reply ∨ ∃ input req creation, call = .decideRequest input ∧ reply = .request req ∧
      req.creation = some creation ∧ call.afterCommit reply = .approved creation := by
  unfold Call.afterCommit
  split
  · rename_i input req
    cases is : req.creation with
    | none => exact .inl rfl
    | some creation => exact .inr ⟨input, req, creation, rfl, rfl, is, rfl⟩
  · exact .inl rfl

namespace Landing
variable {after : Option AuthorizationState} {phase : Phase} {commit : Option Commit}

theorem isChanging (landing : Landing platform answers thread epoch file after phase commit) (busy : phase.isChanging) :
    ∃ s base, file = some s ∧ Refreshed (answers.now 0) s base ∧ phase = .changing base.bump ∧ after = some base.bump := by
  cases landing with
  | changing _ _ read refreshed _ written => exact ⟨_, _, read, refreshed, rfl, written⟩
  | @committed _ _ _ _ _ reply _ _ _ _ _ _ =>
    rcases thread.call.afterCommit_cases reply with same | ⟨_, _, _, _, _, _, same⟩
    · rw [same] at busy
      cases busy
    · rw [same] at busy
      cases busy
  | _ => cases busy

theorem deletion (landing : Landing platform answers thread epoch file after phase commit) {path : String}
    (is : phase.deletion platform = some path) : thread.awaits platform = some path := by
  cases landing with
  | executing start call _ =>
    unfold Thread.awaits
    rw [start, call]
    exact is
  | @committed _ _ _ _ _ reply _ _ _ _ _ _ =>
    rcases thread.call.afterCommit_cases reply with same | ⟨_, _, _, _, _, _, same⟩
    · rw [same] at is
      cases is
    · rw [same] at is
      cases is
  | _ => cases is

end Landing
end
end AnpIdentity.Ledger
