import AnpIdentity.Ledger.Operations

/-! Engines that share one ledger. A call holds the ledger's lock only in its critical sections. An operation that asks
the host is evaluated on a snapshot off the lock and committed if the ledger still has the snapshot's generation; the
native creation and deletion run off the lock too. Between any two steps of a call other calls move, and a call can
fail at every step. -/

namespace AnpIdentity.Ledger
open Durable

instance : Medium (Option AuthorizationState) AuthorizationState := ⟨fun _ written => some written⟩

@[simp] theorem apply_ledger (file : Option AuthorizationState) (written : AuthorizationState) :
    Medium.apply file written = some written := rfl

/-- A critical section. -/
abbrev Section := Program (Option AuthorizationState) AuthorizationState EngineError

/-- `generation + 1` of doubles: 2^53 is its own successor. No ledger has a higher generation. -/
def successor (generation : Nat) : Nat := if generation ≤ maxSafeInteger then generation + 1 else generation

theorem le_successor (generation : Nat) : generation ≤ successor generation := by
  unfold successor
  split <;> omega

theorem lt_successor {generation : Nat} (counted : generation ≤ maxSafeInteger) : generation < successor generation := by
  rw [successor, if_pos counted]
  exact Nat.lt_succ_self generation

theorem successor_safe {generation : Nat} (counted : successor generation ≤ maxSafeInteger) :
    successor generation = generation + 1 :=
  if_pos ((le_successor generation).trans counted)

/-- The ledger under the next generation. -/
def AuthorizationState.bump (state : AuthorizationState) : AuthorizationState :=
  { state with generation := successor state.generation }

section
variable (platform : Platform) (answers : Answers)

def read : Section AuthorizationState := do
  match ← Program.get with
  | none => Program.throw .missing
  | some state => if state.isReadable platform then pure state else Program.throw .authorizationStoreCorrupt

def save (state : AuthorizationState) : Section Unit :=
  if maxLedgerBytes < platform.byteLength state then Program.throw .authorizationStoreFull else Program.write state

/-- `initialize`. -/
def initializeLedger : Section Unit := do
  match ← Program.get with
  | none => save platform .empty
  | some _ => do
    let _ ← read platform
    pure ()

/-- The start of a transaction: what has expired is written even if the action fails. -/
def refresh : Section AuthorizationState := do
  let state ← read platform
  let expired := state.expire (answers.now 0)
  if expired ≠ state then do
    save platform expired.bump
    pure expired.bump
  else pure expired

/-- `#transaction`; the ledger that the action gets is returned with what the action returns. -/
def transaction (action : Action) : Section (AuthorizationState × AuthorizationState × Reply) := do
  let current ← refresh platform answers
  let (next, reply) ← action current
  if next ≠ current then save platform next.bump
  pure (current, next, reply)

/-- The commit of `#snapshotTransaction`; `false` asks for another attempt. -/
def commit (deadline : Option Int) (base next : AuthorizationState) : Section Bool := do
  let current ← read platform
  if current.generation ≠ base.generation then pure false
  else if deadline.any (· ≤ answers.now 0) then Program.throw .leaseExpired
  else
    let expired := current.expire (answers.now 1)
    if expired ≠ current then do
      save platform expired.bump
      pure false
    else do
      if next ≠ base then save platform { next with generation := successor base.generation }
      pure true

/-- `withIdentityAccess` up to its callback. -/
def beginAccess (identity : IdentityReference) : Section (AuthorizationState × AuthorizationState) := do
  let current ← refresh platform answers
  let target ← reference identity
  current.identityAvailable target
  save platform current.bump
  pure (current, current.bump)

/-- `withIdentityDeletion` up to the deletion. -/
def beginDeletion (target : IdentityReference) : Section Bool := do
  let state ← read platform
  match ← fenceDeletion answers target (state.expire (answers.now 0)) with
  | none => pure false
  | some fenced => do
    save platform fenced.bump
    pure true

end

/-! ## Calls -/

inductive Call where
  | initializeLedger
  | requestCreate (source : VerifiedCaller) (input : RequestCreateInput)
  | requestAccess (source : VerifiedCaller) (input : RequestAccessInput)
  | getRequest (source : VerifiedCaller) (requestId : String)
  | listRequests
  | markPrompted (requestId : String) (expectedVersion : Option Nat)
  | cancel (source : VerifiedCaller) (requestId : String) (expectedVersion : Nat)
  | decideRequest (input : AuthorizationDecision)
  | reconcileCreation (requestId : String)
  | listGrants (identity : Option IdentityReference)
  | revoke (grantId : String) (expectedVersion : Nat)
  | reauthorize (requestId : String) (expectedVersion : Nat)
  | cancelPendingForConsumer (consumer : String)
  | withIdentityAccess (identity : IdentityReference)
  | openGrant (source : VerifiedCaller) (grantId : String)
  | admitOperation (source : VerifiedCaller) (lease : AuthorizedLease) (actual : ControlledOperation)
      (executionId : String)
  | assertExecutionActive (source : VerifiedCaller) (lease : AuthorizedLease) (executionId : String)
  | recordExecution (source : VerifiedCaller) (executionId : String) (result : ExecutionResult)
  | getExecution (source : VerifiedCaller) (executionId : String)
  | withIdentityDeletion (identity : IdentityReference)
  | reconcileDeletions (fences : List IdentityReference)
  deriving DecidableEq

section
variable (platform : Platform)

def createParameters (value : CreateParameters) : EngineResult CreateParameters := do
  let label ← text value.label 256
  let domain ← text value.domain 253
  let path ← text value.path 2048
  let handle ← value.handle.mapM (fun handle => do normalizeHandle platform (← text handle 128))
  let parsed ← demand (platform.parseUrl ("https://" ++ domain)) .thrown
  refuse (parsed.host ≠ domain ∨ parsed.username ≠ "" ∨ parsed.password ≠ "" ∨ parsed.pathname ≠ "/" ∨
    path.toList.head? ≠ some '/' ∨ path.toList.any (fun c => c == '?' || c == '#')) .invalidCreateParameters
  return { label, domain, path, handle }

/-- The checks that a call makes before it takes the lock, and the call with what they return. -/
def Call.checked : Call → EngineResult Call
  | .requestCreate source input => do
    let source ← caller source
    let parameters ← createParameters platform input.parameters
    return .requestCreate source { input with parameters }
  | .requestAccess source input => do
    let source ← caller source
    let identity ← input.identity.mapM reference
    let requested ← input.operation.mapM (operation platform)
    return .requestAccess source { input with identity, operation := requested }
  | .cancelPendingForConsumer consumer => do
    let consumer ← text consumer 256
    return .cancelPendingForConsumer consumer
  | .admitOperation source lease actual executionId => do
    let actual ← operation platform actual
    let executionId ← text executionId 256
    return .admitOperation source lease actual executionId
  | .withIdentityDeletion identity => do
    let target ← reference identity
    return .withIdentityDeletion target
  | .reconcileDeletions fences => do
    let fences ← fences.mapM reference
    return .reconcileDeletions fences
  | call => .ok call

variable (options : AuthorizationOptions) (answers : Answers)

/-- The action that a call runs in one transaction. -/
def Call.action : Call → Option Action
  | .requestCreate source input => some (Ledger.requestCreate platform options answers source input)
  | .getRequest source requestId => some (Ledger.getRequest source requestId)
  | .listRequests => some Ledger.listRequests
  | .markPrompted requestId expectedVersion => some (Ledger.markPrompted requestId expectedVersion)
  | .cancel source requestId expectedVersion => some (Ledger.cancel answers source requestId expectedVersion)
  | .listGrants identity => some (Ledger.listGrants identity)
  | .revoke grantId expectedVersion => some (Ledger.revoke answers grantId expectedVersion)
  | .reauthorize requestId expectedVersion =>
    some (Ledger.reauthorize platform options answers requestId expectedVersion)
  | .cancelPendingForConsumer consumer => some (Ledger.cancelPendingForConsumer answers consumer)
  | .recordExecution source executionId result => some (Ledger.recordExecution answers source executionId result)
  | .getExecution source executionId => some (Ledger.getExecution source executionId)
  | _ => none

/-- The action that a call evaluates on a snapshot. -/
def Call.evaluation : Call → Option Action
  | .requestAccess source input => some (Ledger.requestAccess platform options answers source input)
  | .decideRequest input => some (Ledger.decideRequest platform options answers input)
  | .openGrant source grantId => some (Ledger.openGrant platform options answers source grantId)
  | .admitOperation source lease actual executionId =>
    some (Ledger.admitOperation platform answers source lease actual executionId)
  | .assertExecutionActive source lease executionId =>
    some (Ledger.assertExecutionActive platform answers source lease executionId)
  | .reconcileDeletions fences => some (Ledger.reconcileDeletions answers fences)
  | _ => none

end

def Call.isSnapshot : Call → Bool
  | .requestAccess .. | .decideRequest _ | .openGrant .. | .admitOperation .. | .assertExecutionActive ..
  | .reconcileDeletions _ => true
  | _ => false

def Call.deadline : Call → Option Int
  | .admitOperation _ lease _ _ | .assertExecutionActive _ lease _ => some lease.expiresAt
  | _ => none

/-! ## Threads -/

/-- Where a call is. A snapshot is kept with the number of catalog changes that had been made when it was taken, a
result with the answers that it was computed from. -/
inductive Phase where
  | starting (attempt : Nat)
  | evaluating (attempt : Nat) (base : AuthorizationState) (epoch : Nat)
  | committing (attempt : Nat) (base : AuthorizationState) (answers : Answers) (next : AuthorizationState)
      (reply : Reply) (epoch : Nat)
  | approved (creation : Creation)
  | creating (creation : Creation)
  | finishing (requestId : String) (result : CreateResult)
  | uncertain (requestId : String)
  | reconciling (req : AuthorizationRequest)
  | changing (held : AuthorizationState)
  | executing (target : IdentityReference)
  | completing (target : IdentityReference)
  | returned (reply : Reply)
  | failed (error : EngineError)

structure Thread where
  options : AuthorizationOptions
  call : Call
  phase : Phase

/-- An action that took effect: the call, the answers and the ledger that the action got, and what it returned. -/
structure Commit where
  options : AuthorizationOptions
  call : Call
  answers : Answers
  base : AuthorizationState
  next : AuthorizationState
  reply : Reply

/-- What a thread does next. `onError` is where the call goes if the critical section fails. -/
inductive Turn where
  | rest
  | proceed (phase : Phase)
  | invoke (creation : Creation)
  | critical (body : Section (Phase × Option Commit)) (onError : EngineError → Phase)

def maxAttempts : Nat := 16

section
variable (platform : Platform) (answers : Answers)

/-- After the commit: an approved creation goes on to `createIdentity`. -/
def Call.afterCommit (call : Call) (reply : Reply) : Phase :=
  match call, reply with
  | .decideRequest _, .request req =>
    match req.creation with
    | some creation => .approved creation
    | none => .returned reply
  | _, _ => .returned reply

/-- `reconcileCreation` after its first transaction. -/
def afterLookup (req : AuthorizationRequest) : EngineResult Phase :=
  match req.body, req.creation with
  | .create _ _ executionStatus _, some _ =>
    if executionStatus = some .succeeded ∨ executionStatus = some .deleted then .ok (.returned (.request req))
    else .ok (.reconciling req)
  | _, _ => .error .creationNotApproved

def lookup (requestId : String) : Action := fun state => do
  let req ← state.findRequest requestId
  return (state, .request req)

/-- The first critical section of a call, or of another attempt. -/
def Thread.start (thread : Thread) (attempt epoch : Nat) : Section (Phase × Option Commit) :=
  match thread.call with
  | .initializeLedger => do
    initializeLedger platform
    pure (.returned .none, none)
  | .reconcileCreation requestId => do
    let (_, _, reply) ← transaction platform answers (lookup requestId)
    match reply with
    | .request req => do
      let phase ← afterLookup req
      pure (phase, none)
    | _ => pure (.returned reply, none)
  | .withIdentityAccess identity => do
    let (current, held) ← beginAccess platform answers identity
    pure (.changing held, some ⟨thread.options, thread.call, answers, current, current, .none⟩)
  | .withIdentityDeletion target => do
    if ← beginDeletion platform answers target then pure (.executing target, none)
    else pure (.returned .none, none)
  | call =>
    match call.action platform thread.options answers with
    | some action => do
      let (base, next, reply) ← transaction platform answers action
      pure (.returned reply, some ⟨thread.options, call, answers, base, next, reply⟩)
    | none => do
      let (base, _, _) ← transaction platform answers (fun state => .ok (state, .none))
      pure (.evaluating attempt base epoch, none)

def Thread.turn (thread : Thread) (epoch : Nat) : Turn :=
  match thread.phase with
  | .starting attempt => .critical (thread.start platform answers attempt epoch) .failed
  | .evaluating attempt base epoch =>
    match thread.call.evaluation platform thread.options answers with
    | none => .rest
    | some action =>
      match action base with
      | .ok (next, reply) => .proceed (.committing attempt base answers next reply epoch)
      | .error error => .proceed (.failed error)
  | .committing attempt base evaluated next reply _ =>
    .critical (do
      if ← commit platform answers thread.call.deadline base next then
        pure (thread.call.afterCommit reply, some ⟨thread.options, thread.call, evaluated, base, next, reply⟩)
      else if attempt + 1 < maxAttempts then pure (.starting (attempt + 1), none)
      else Program.throw .authorizationConflict) .failed
  | .approved creation => .invoke creation
  | .creating creation =>
    match answers.created with
    | some result => .proceed (.finishing creation.requestId result)
    | none => .proceed (.uncertain creation.requestId)
  | .finishing requestId result =>
    .critical (do
      let reference ← reference result.reference
      let label ← text result.label 256
      let (_, _, reply) ← transaction platform answers (finishCreation requestId { reference, label })
      pure (.returned reply, none))
      (fun error =>
        match thread.call with
        | .decideRequest _ => .uncertain requestId
        | _ => .failed error)
  | .uncertain requestId =>
    .critical (do
      let (_, _, reply) ← transaction platform answers (creationUnknown requestId)
      pure (.returned reply, none)) .failed
  | .reconciling req =>
    if ¬ answers.returns then .proceed (.failed .thrown)
    else
      match answers.reconciled with
      | some result => .proceed (.finishing req.id result)
      | none => .proceed (.returned (.request req))
  | .changing held =>
    if ¬ answers.returns then .proceed (.failed .thrown)
    else
      .critical (do
        save platform held.bump
        pure (.returned .none, none)) .failed
  | .executing target =>
    if ¬ answers.returns then .proceed (.failed .thrown) else .proceed (.completing target)
  | .completing target =>
    .critical (do
      let _ ← transaction platform answers (fun state => .ok (state.completeDeletion target, .none))
      pure (.returned .none, none)) .failed
  | .returned _ | .failed _ => .rest

end

/-! ## Runs -/

/-- The ledger file, the two kinds of lock with the thread that holds each, the number of catalog changes made under
`withIdentityAccess`, the number of identifiers drawn, the calls, and the creations that were invoked. -/
structure Engine where
  file : Option AuthorizationState
  holder : Option Nat
  deletions : String → Option Nat
  epoch : Nat
  drawn : Nat
  threads : List Thread
  created : List Creation

/-- `fault` is the number of writes after which a critical section fails. -/
inductive Event where
  | call (options : AuthorizationOptions) (call : Call)
  | advance (thread : Nat) (answers : Answers) (fault : Option Nat)
  /-- The callback of `withIdentityAccess` changes the catalog. -/
  | change (thread : Nat)
  /-- The call fails where it is, or its process dies. -/
  | crash (thread : Nat)

/-- The lock of the ledger is held over the callback of `withIdentityAccess`. -/
def Phase.isChanging : Phase → Bool
  | .changing _ => true
  | _ => false

/-- The lock file of the deletion that a call is in. -/
def Phase.deletion (platform : Platform) : Phase → Option String
  | .executing target | .completing target => some (platform.digest (.target target))
  | _ => none

/-- The lock file that a call takes first. -/
def Thread.awaits (platform : Platform) (thread : Thread) : Option String :=
  match thread.phase, thread.call with
  | .starting _, .withIdentityDeletion target => some (platform.digest (.target target))
  | _, _ => none

namespace Engine

def new : Engine where
  file := none
  holder := none
  deletions := fun _ => none
  epoch := 0
  drawn := 0
  threads := []
  created := []

section
variable (platform : Platform)

/-- The thread goes on in the phase, with the locks that belong to it. -/
def settle (e : Engine) (i : Nat) (thread : Thread) (phase : Phase) : Engine :=
  { e with
    threads := e.threads.set i { thread with phase }
    holder := if phase.isChanging then some i else if e.holder = some i then none else e.holder
    deletions := fun path =>
      if phase.deletion platform = some path then some i
      else if e.deletions path = some i then none
      else e.deletions path }

/-- The locks that the next critical section of a thread takes are free. -/
def isFree (e : Engine) (i : Nat) (thread : Thread) : Bool :=
  (e.holder == none || e.holder == some i) &&
    (thread.awaits platform).all (fun path => (e.deletions path).isNone)

def draw (e : Engine) (answers : Answers) : Answers := { answers with uuid := platform.randomUUID e.drawn }

def step (e : Engine) : Event → Engine
  | .call options call =>
    match call.checked platform with
    | .ok call => { e with threads := e.threads ++ [⟨options, call, .starting 0⟩] }
    | .error error => { e with threads := e.threads ++ [⟨options, call, .failed error⟩] }
  | .advance i answers fault =>
    match e.threads[i]? with
    | none => e
    | some thread =>
      let later := { e with drawn := e.drawn + 1 }
      match thread.turn platform (e.draw platform answers) e.epoch with
      | .rest => later
      | .proceed phase => later.settle platform i thread phase
      | .invoke creation =>
        { later.settle platform i thread (.creating creation) with created := e.created ++ [creation] }
      | .critical body onError =>
        if ¬ e.isFree platform i thread then later
        else
          match fault with
          | some n => { later.settle platform i thread (onError .thrown) with file := body.crash n e.file }
          | none =>
            match body.result e.file with
            | .ok (phase, _) => { later.settle platform i thread phase with file := body.final e.file }
            | .error error => { later.settle platform i thread (onError error) with file := body.final e.file }
  | .change i =>
    match e.threads[i]? with
    | some ⟨_, _, .changing _⟩ => { e with epoch := e.epoch + 1 }
    | _ => e
  | .crash i =>
    match e.threads[i]? with
    | some thread => e.settle platform i thread (.failed .thrown)
    | none => e

/-- The action that takes effect with an event: all its writes are made. -/
def commits (e : Engine) : Event → Option Commit
  | .advance i answers fault =>
    match e.threads[i]? with
    | none => none
    | some thread =>
      match thread.turn platform (e.draw platform answers) e.epoch with
      | .critical body _ =>
        if e.isFree platform i thread ∧ fault.all ((body.writes e.file).length ≤ ·) then
          match body.result e.file with
          | .ok (_, commit) => commit
          | .error _ => none
        else none
      | _ => none
  | _ => none

def run (e : Engine) (events : List Event) : Engine := events.foldl (step platform) e

end
end Engine
end AnpIdentity.Ledger
