import AnpIdentity.Ledger.State

/-! The operations of the authorization engine as functions on the ledger. Each gets the ledger that it works on and
what the host answers in the meantime, and returns the changed ledger with its result. -/

namespace AnpIdentity.Ledger

/-- What one step of a call gets from outside: the readings of the clock in their order, the identifier that it draws,
and the answers of the host. -/
structure Answers where
  now : Nat → Int
  uuid : String
  validateCaller : VerifiedCaller → Bool
  resolveSnapshot : VerifiedCaller → IdentityReference → Option CapabilitySnapshot
  isAbsent : IdentityReference → Option Bool
  /-- Whether `prepare`, `execute` or the callback of a step returns. -/
  returns : Bool
  /-- What `createIdentity` returns; it has failed, or its response is lost, if there is none. -/
  created : Option CreateResult
  /-- What `reconcileCreation` of the host returns. -/
  reconciled : Option CreateResult

/-- What a call returns. -/
inductive Reply where
  | request (request : AuthorizationRequest)
  | requests (requests : List AuthorizationRequest)
  | grant (grant : AuthorizationGrant)
  | grants (grants : List AuthorizationGrant)
  | lease (lease : AuthorizedLease)
  | execution (execution : AuthorizationExecution)
  | none
  deriving Repr, DecidableEq

/-- What an operation makes of the ledger. -/
abbrev Action := AuthorizationState → EngineResult (AuthorizationState × Reply)

section
variable {α : Type}

/-- `list[list.findIndex(same)] = value`. -/
def replaceFirst (same : α → Bool) (value : α) : List α → List α
  | [] => []
  | first :: rest => if same first then value :: rest else first :: replaceFirst same value rest

theorem replaceFirst_append {same : α → Bool} {value old : α} {before after : List α}
    (skipped : ∀ a ∈ before, same a = false) (found : same old = true) :
    replaceFirst same value (before ++ old :: after) = before ++ value :: after := by
  induction before with
  | nil => simp [replaceFirst, found]
  | cons a rest ih =>
    have away : same a = false := skipped a List.mem_cons_self
    simp [replaceFirst, away, ih (fun b inside => skipped b (List.mem_cons_of_mem _ inside))]

/-- The value takes the place of the one that was found. -/
theorem replaceFirst_of_find {same : α → Bool} {old : α} {list : List α} (value : α) (found : list.find? same = some old) :
    ∃ before after, list = before ++ old :: after ∧ replaceFirst same value list = before ++ value :: after := by
  obtain ⟨holds, before, after, split, skipped⟩ := List.find?_eq_some_iff_append.mp found
  refine ⟨before, after, split, ?_⟩
  rw [split]
  exact replaceFirst_append (fun a inside => by simpa using skipped a inside) holds

end

namespace AuthorizationState

def findRequest (state : AuthorizationState) (id : String) : EngineResult AuthorizationRequest :=
  demand (state.requests.find? (fun req => req.id == id)) .requestNotFound

def findGrant (state : AuthorizationState) (id : String) : EngineResult AuthorizationGrant :=
  demand (state.grants.find? (fun grant => grant.id == id)) .grantNotFound

def replaceRequest (state : AuthorizationState) (req : AuthorizationRequest) : AuthorizationState :=
  { state with requests := replaceFirst (fun value => value.id == req.id) req state.requests }

def replaceGrant (state : AuthorizationState) (grant : AuthorizationGrant) : AuthorizationState :=
  { state with grants := replaceFirst (fun value => value.id == grant.id) grant state.grants }

/-- The identity is neither deleted nor being deleted. -/
def identityAvailable (state : AuthorizationState) (identity : IdentityReference) : EngineResult Unit :=
  refuse ((state.deletingIdentities ++ state.deletedIdentities).any (equalIdentity · identity)) .identityUnavailable

/-- An active grant on the identity. -/
def isGranted (state : AuthorizationState) (target : IdentityReference) : Bool :=
  state.grants.any (fun grant => equalIdentity grant.identity target && grant.status == .active)

def isDeleted (state : AuthorizationState) (target : IdentityReference) : Bool :=
  state.deletedIdentities.any (equalIdentity · target)

def isDeleting (state : AuthorizationState) (target : IdentityReference) : Bool :=
  state.deletingIdentities.any (equalIdentity · target)

def addFence (state : AuthorizationState) (target : IdentityReference) : AuthorizationState :=
  { state with deletingIdentities := state.deletingIdentities ++ [target] }

/-- The fence becomes a deletion, which the request that created the identity records. -/
def completeDeletion (state : AuthorizationState) (target : IdentityReference) : AuthorizationState :=
  { state with
    deletingIdentities := state.deletingIdentities.filter (fun ref => !equalIdentity ref target)
    deletedIdentities := if state.isDeleted target then state.deletedIdentities else state.deletedIdentities ++ [target]
    requests := state.requests.map (fun req =>
      match req.body with
      | .create parameters operationId executionStatus (some result) =>
        if equalIdentity result.reference target ∧ executionStatus ≠ some .deleted then
          { req with body := .create parameters operationId (some .deleted) (some result), version := req.version + 1 }
        else req
      | _ => req) }

/-- Pending requests and single-use grants end with their time. -/
def expire (now : Int) (state : AuthorizationState) : AuthorizationState :=
  { state with
    requests := state.requests.map (fun req =>
      if req.status = .pending ∧ req.expiresAt ≤ now then
        { req with status := .expired, version := req.version + 1, decidedAt := some now }
      else req)
    grants := state.grants.map (fun grant =>
      if grant.status = .active ∧ grant.mode = .once ∧ grant.expiresAt.any (· ≤ now) then
        { grant with status := .expired, version := grant.version + 1 }
      else grant) }

end AuthorizationState

open AuthorizationState

/-- Only the consumer of a request or grant may use it. -/
def owns (source : VerifiedCaller) (consumer : String) : EngineResult Unit :=
  refuse (source.consumer ≠ consumer) .callerMismatch

/-- The request awaits a decision, in the expected version. -/
def isPending (req : AuthorizationRequest) (version : Nat) : EngineResult Unit := do
  refuse (req.version ≠ version) .requestConflict
  refuse (req.status ≠ .pending) .requestNotPending

def validate (answers : Answers) (source : VerifiedCaller) : EngineResult Unit :=
  refuse (¬ answers.validateCaller source) .thrown

/-! ## Requests -/

/-- A refusal stands against a new request. -/
def Suppression.blocks (block : Suppression) (source : VerifiedCaller) (details : RequestDetails) : Bool :=
  block.consumer == source.consumer && block.kind == details.kind &&
    (block.identity.isNone || details.kind == .create || details.identity.isNone ||
      (block.identity.any (fun refused => details.identity.any (equalIdentity refused))))

/-- The user lifts a refusal by a retry of the request. -/
def Suppression.isLifted (block : Suppression) (req : AuthorizationRequest) : Bool :=
  block.consumer == req.caller.consumer && block.kind == req.body.kind &&
    (block.identity.isNone || req.body.kind == .create || req.body.identity.isNone ||
      (block.identity.any (fun refused => req.body.identity.any (equalIdentity refused))))

section
variable (platform : Platform) (options : AuthorizationOptions) (answers : Answers)

/-- A request as it is first recorded. -/
def newRequest (source : VerifiedCaller) (id purpose : String) (details : RequestDetails) : AuthorizationRequest where
  id := id
  caller := source
  purpose := purpose
  version := 1
  status := .pending
  createdAt := answers.now 1
  expiresAt := answers.now 2 + options.requestTtlMs.getD sevenDays
  fingerprint := platform.digest (.request source.consumer purpose details)
  prompted := false
  decidedAt := none
  retryOf := none
  body := details.body

/-- `#request`. -/
def record (state : AuthorizationState) (source : VerifiedCaller) (id purpose : String) (details : RequestDetails) :
    EngineResult (AuthorizationState × AuthorizationRequest) := do
  let _ ← text id 256
  let _ ← text purpose 1000
  let fingerprint := platform.digest (.request source.consumer purpose details)
  match state.requests.find? (fun req => req.id == id) with
  | some existing =>
    refuse (existing.caller.consumer ≠ source.consumer ∨ existing.fingerprint ≠ fingerprint) .requestConflict
    return (state, existing)
  | none =>
    match state.requests.find? (fun req => req.fingerprint == fingerprint && req.status == .pending) with
    | some duplicate => return (state, duplicate)
    | none =>
      refuse (state.suppressions.any (·.blocks source details)) .requestPreviouslyDenied
      let request := newRequest platform options answers source id purpose details
      return ({ state with requests := state.requests ++ [request] }, request)

/-- An application asks for a new identity. -/
def requestCreate (source : VerifiedCaller) (input : RequestCreateInput) : Action := fun state => do
  validate answers source
  let (next, request) ← record platform options answers state source input.requestId input.purpose
    (.create input.parameters)
  return (next, .request request)

/-- The current policy of the host for an identity. -/
def currentSnapshot (source : VerifiedCaller) (identity : IdentityReference) : EngineResult CapabilitySnapshot := do
  let value ← demand (answers.resolveSnapshot source identity) .thrown
  snapshot platform value

/-- An application asks for the use of an identity. -/
def requestAccess (source : VerifiedCaller) (input : RequestAccessInput) : Action := fun state => do
  validate answers source
  match input.identity with
  | none => pure ()
  | some identity =>
    state.identityAvailable identity
    let policy ← currentSnapshot platform answers source identity
    refuse (input.operation.any (fun value => !permits policy value)) .operationNotPermitted
  let (next, request) ← record platform options answers state source input.requestId input.purpose
    (.access input.identity input.operation)
  return (next, .request request)

def getRequest (source : VerifiedCaller) (requestId : String) : Action := fun state => do
  let req ← state.findRequest requestId
  owns source req.caller.consumer
  return (state, .request req)

def listRequests : Action := fun state =>
  .ok (state, .requests (state.requests.insertionSort (fun a b => b.createdAt ≤ a.createdAt)))

/-- The user has been shown the request. -/
def markPrompted (requestId : String) (expectedVersion : Option Nat) : Action := fun state => do
  let req ← state.findRequest requestId
  refuse (expectedVersion.any (· ≠ req.version)) .requestConflict
  return (state.replaceRequest { req with prompted := true }, .none)

/-- An application withdraws its request. -/
def cancel (source : VerifiedCaller) (requestId : String) (expectedVersion : Nat) : Action := fun state => do
  let req ← state.findRequest requestId
  owns source req.caller.consumer
  isPending req expectedVersion
  let next := { req with status := .cancelled, version := req.version + 1, decidedAt := some (answers.now 1) }
  return (state.replaceRequest next, .request next)

/-- A refusal of a request names the identity that the request names. -/
def AuthorizationRequest.refusal (req : AuthorizationRequest) : Suppression where
  consumer := req.caller.consumer
  kind := req.body.kind
  identity := req.body.identity
  requestId := req.id

/-- A refusal also suppresses later requests. -/
def deny (req : AuthorizationRequest) : Action := fun state =>
  let next := { req with version := req.version + 1, status := .denied, decidedAt := some (answers.now 1) }
  .ok ({ state.replaceRequest next with suppressions := state.suppressions ++ [req.refusal] }, .request next)

/-- The user agrees that an identity is created. -/
def approveCreate (req : AuthorizationRequest) (parameters : CreateParameters) (result : Option CreateResult) : Action :=
  fun state =>
    let next := { req with
      version := req.version + 1, status := .approved, decidedAt := some (answers.now 1)
      body := .create parameters (some answers.uuid) (some .running) result }
    .ok (state.replaceRequest next, .request next)

def newGrant (req : AuthorizationRequest) (requested : Option ControlledOperation) (identity : IdentityReference)
    (approved : CapabilitySnapshot) (mode : AuthorizationMode) : AuthorizationGrant where
  id := answers.uuid
  requestId := req.id
  caller := req.caller
  identity := identity
  snapshot := approved
  mode := mode
  version := 1
  approvedAt := answers.now 1
  status := .active
  expiresAt := if mode = .once then some (answers.now 2 + options.onceTtlMs.getD fiveMinutes) else none
  operation := if mode = .once then requested else none
  executionId := none
  revokedAt := none

/-- The user allows the use of an identity. -/
def approveAccess (input : AuthorizationDecision) (req : AuthorizationRequest) (named : Option IdentityReference)
    (requested : Option ControlledOperation) : Action := fun state => do
  let selected ← demand (input.identity <|> named) .identityRequired
  let identity ← reference selected
  refuse (named.any (fun value => !equalIdentity value identity)) .identityMismatch
  state.identityAvailable identity
  let approved ← currentSnapshot platform answers req.caller identity
  let mode := input.mode.getD .once
  refuse (mode = .once ∧ requested.isNone) .onceOperationRequired
  refuse (requested.any (fun value => !permits approved value)) .operationNotPermitted
  let reviewed ← demand input.reviewedSnapshot .reviewSnapshotRequired
  let reviewed ← snapshot platform reviewed
  refuse (reviewed ≠ approved) .reviewSnapshotChanged
  let grant := newGrant options answers req requested identity approved mode
  let next := { req with
    status := .approved, version := req.version + 1, decidedAt := some (answers.now 3)
    body := .access (some identity) requested (some mode) (some grant.id) }
  return ({ state with grants := state.grants ++ [grant] }.replaceRequest next, .request next)

/-- The part of `decide` that runs on the ledger. -/
def decideRequest (input : AuthorizationDecision) : Action := fun state => do
  let req ← state.findRequest input.requestId
  isPending req input.expectedVersion
  if ¬ input.approve then deny answers req state
  else
    validate answers req.caller
    match req.body with
    | .create parameters _ _ result => approveCreate answers req parameters result state
    | .access named requested _ _ => approveAccess platform options answers input req named requested state

/-- `reauthorize`: the refusals that cover the request are lifted before it is asked again. -/
def reauthorize (requestId : String) (expectedVersion : Nat) : Action := fun state => do
  let req ← state.findRequest requestId
  refuse (req.version ≠ expectedVersion) .requestConflict
  refuse (req.status = .pending ∨ (req.body.kind = .create ∧ req.status = .approved)) .requestNotRetryable
  validate answers req.caller
  let details := match req.body with
    | .create parameters _ _ _ => RequestDetails.create parameters
    | .access identity requested _ _ => RequestDetails.access identity requested
  let lifted := { state with suppressions := state.suppressions.filter (fun block => !block.isLifted req) }
  let (asked, fresh) ← record platform options answers lifted req.caller answers.uuid req.purpose details
  let next := { fresh with retryOf := some req.id }
  return (asked.replaceRequest next, .request next)

/-- All pending requests of an application are withdrawn. -/
def cancelPendingForConsumer (consumer : String) : Action := fun state =>
  .ok ({ state with requests := state.requests.map (fun req =>
      if req.caller.consumer = consumer ∧ req.status = .pending then
        { req with status := .cancelled, version := req.version + 1, decidedAt := some (answers.now 1) }
      else req) }, .none)

/-! ## Creations -/

/-- What `createIdentity` is called with, for a request. -/
structure Creation where
  requestId : String
  operationId : String
  caller : VerifiedCaller
  parameters : CreateParameters
  deriving Repr, DecidableEq

/-- An approved creation with its operation. -/
def AuthorizationRequest.creation (req : AuthorizationRequest) : Option Creation :=
  match req.body, req.status with
  | .create parameters (some operationId) _ _, .approved => some ⟨req.id, operationId, req.caller, parameters⟩
  | _, _ => none

/-- `#finishCreation`, once the result has passed its checks. -/
def finishCreation (requestId : String) (result : CreateResult) : Action := fun state => do
  let req ← state.findRequest requestId
  match req.body, req.status with
  | .create parameters operationId executionStatus known, .approved =>
    refuse (known.any (fun value => !equalIdentity value.reference result.reference)) .creationResultConflict
    let status := if executionStatus = some .deleted ∨ state.isDeleted result.reference then CreationStatus.deleted
      else .succeeded
    let next := { req with version := req.version + 1, body := .create parameters operationId (some status) (some result) }
    return (state.replaceRequest next, .request next)
  | _, _ => .error .creationNotApproved

/-- The branch of `decide` for a creation that failed. A request of another kind has no creation status. -/
def creationUnknown (requestId : String) : Action := fun state => do
  let req ← state.findRequest requestId
  match req.body with
  | .create parameters operationId executionStatus result =>
    if executionStatus = some .succeeded ∨ executionStatus = some .deleted then return (state, .request req)
    else
      let next := { req with version := req.version + 1, body := .create parameters operationId (some .unknown) result }
      return (state.replaceRequest next, .request next)
  | .access .. =>
    let next := { req with version := req.version + 1 }
    return (state.replaceRequest next, .request next)

/-! ## Grants and executions -/

def listGrants (identity : Option IdentityReference) : Action := fun state =>
  .ok (state, .grants (state.grants.filter (fun grant => identity.all (equalIdentity · grant.identity))))

/-- A revoked grant refuses its identity to its consumer. -/
def AuthorizationGrant.refusal (grant : AuthorizationGrant) : Suppression where
  consumer := grant.caller.consumer
  kind := .access
  identity := some grant.identity
  requestId := grant.requestId

/-- The grant ends, and its identity is refused to the consumer from then on. -/
def revoke (grantId : String) (expectedVersion : Nat) : Action := fun state => do
  let grant ← state.findGrant grantId
  refuse (grant.version ≠ expectedVersion) .grantConflict
  if grant.status = .revoked then return (state, .grant grant)
  else
    let next := { grant with status := .revoked, version := grant.version + 1, revokedAt := some (answers.now 1) }
    return ({ state.replaceGrant next with suppressions := state.suppressions ++ [grant.refusal] }, .grant next)

/-- `open`. -/
def openGrant (source : VerifiedCaller) (grantId : String) : Action := fun state => do
  let grant ← state.findGrant grantId
  owns source grant.caller.consumer
  refuse (grant.status ≠ .active) .grantInactive
  state.identityAvailable grant.identity
  validate answers grant.caller
  let _ ← currentSnapshot platform answers grant.caller grant.identity
  let ends := answers.now 1 + options.leaseTtlMs.getD fiveMinutes
  return (state, .lease
    { grantId, consumer := grant.caller.consumer, identity := grant.identity, grantVersion := grant.version
      expiresAt := match grant.expiresAt with
        | none => ends
        | some limit => min ends limit })

/-- The lease is one of the grant and still runs, and both grant and host permit the operation. -/
def checkLease (source : VerifiedCaller) (lease : AuthorizedLease) (actual : ControlledOperation)
    (state : AuthorizationState) : EngineResult AuthorizationGrant := do
  let grant ← state.findGrant lease.grantId
  owns source grant.caller.consumer
  refuse (lease.consumer ≠ grant.caller.consumer ∨ ¬ equalIdentity lease.identity grant.identity) .identityMismatch
  refuse (lease.expiresAt ≤ answers.now 1) .leaseExpired
  refuse (grant.version ≠ lease.grantVersion) .grantConflict
  state.identityAvailable grant.identity
  validate answers grant.caller
  let current ← currentSnapshot platform answers grant.caller grant.identity
  refuse (lease.expiresAt ≤ answers.now 2) .leaseExpired
  refuse (current.version ≠ grant.snapshot.version ∨ ¬ permits grant.snapshot actual ∨ ¬ permits current actual)
    .operationNotPermitted
  return grant

/-- `admit`. -/
def admitOperation (source : VerifiedCaller) (lease : AuthorizedLease) (actual : ControlledOperation)
    (executionId : String) : Action := fun state => do
  refuse (state.executions.any (fun value => value.id == executionId)) .executionAlreadyAdmitted
  let grant ← checkLease platform answers source lease actual state
  refuse (grant.status ≠ .active) .grantInactive
  refuse (grant.mode = .once ∧ grant.operation.map (·.fingerprint) ≠ some actual.fingerprint) .operationMismatch
  let execution : AuthorizationExecution :=
    { id := executionId, grantId := grant.id, consumer := grant.caller.consumer, fingerprint := actual.fingerprint
      grantVersion := grant.version, operation := actual, admittedAt := answers.now 3, status := .admitted
      finishedAt := none }
  let admitted := { state with executions := state.executions ++ [execution] }
  if grant.mode = .once then
    return (admitted.replaceGrant
      { grant with status := .consumed, version := grant.version + 1, executionId := some executionId },
      .execution execution)
  else return (admitted, .execution execution)

/-- An admitted operation may go on. -/
def assertExecutionActive (source : VerifiedCaller) (lease : AuthorizedLease) (executionId : String) : Action :=
  fun state => do
    let execution ← demand (state.executions.find? (fun value => value.id == executionId)) .executionInactive
    refuse (execution.grantId ≠ lease.grantId ∨ execution.status ≠ .admitted) .executionInactive
    owns source execution.consumer
    let grant ← state.findGrant lease.grantId
    refuse (execution.grantVersion ≠ lease.grantVersion) .grantConflict
    let expectedVersion := if grant.mode = .once then execution.grantVersion + 1 else execution.grantVersion
    refuse (grant.version ≠ expectedVersion ∨
      (grant.status ≠ .active ∧ ¬ (grant.status = .consumed ∧ grant.executionId = some executionId))) .grantInactive
    let _ ← checkLease platform answers source { lease with grantVersion := expectedVersion } execution.operation state
    return (state, .none)

/-- The results that `recordExecution` takes. -/
inductive ExecutionResult where
  | succeeded | failed | unknown
  deriving Repr, DecidableEq

def ExecutionResult.status : ExecutionResult → ExecutionStatus
  | .succeeded => .succeeded
  | .failed => .failed
  | .unknown => .unknown

/-- The outcome of an operation, which a repeated call must not change. -/
def recordExecution (source : VerifiedCaller) (executionId : String) (result : ExecutionResult) : Action :=
  fun state => do
    let execution ← demand (state.executions.find? (fun value => value.id == executionId)) .executionNotFound
    owns source execution.consumer
    if execution.status ≠ .admitted then
      refuse (execution.status ≠ result.status) .executionResultConflict
      return (state, .execution execution)
    else
      let next := { execution with status := result.status, finishedAt := some (answers.now 1) }
      return ({ state with executions := replaceFirst (fun value => value.id == executionId) next state.executions },
        .execution next)

def getExecution (source : VerifiedCaller) (executionId : String) : Action := fun state => do
  let execution ← demand (state.executions.find? (fun value => value.id == executionId)) .executionNotFound
  owns source execution.consumer
  return (state, .execution execution)

/-! ## Deletions -/

/-- The first loop of `reconcileDeletions`. -/
def addFences (fences : List IdentityReference) (state : AuthorizationState) : AuthorizationState :=
  fences.foldl (fun state target =>
    if state.isDeleted target || state.isDeleting target then state else state.addFence target) state

/-- The second loop of `reconcileDeletions`, over the identities that were fenced when it started. -/
def completeAbsent : List IdentityReference → AuthorizationState → EngineResult AuthorizationState
  | [], state => .ok state
  | target :: rest, state =>
    if state.isGranted target then completeAbsent rest state
    else
      match answers.isAbsent target with
      | none => .error .thrown
      | some false => completeAbsent rest state
      | some true => completeAbsent rest (state.completeDeletion target)

/-- Fences what the host is deleting and completes what is gone. -/
def reconcileDeletions (fences : List IdentityReference) : Action := fun state => do
  let fenced := addFences fences state
  let next ← completeAbsent answers fenced.deletingIdentities fenced
  return (next, .none)

/-- The ledger part of `withIdentityDeletion` before the deletion: the fence, if the identity is not deleted yet. -/
def fenceDeletion (target : IdentityReference) (state : AuthorizationState) : EngineResult (Option AuthorizationState) := do
  refuse (state.isGranted target) .identityHasGrants
  if state.isDeleted target then return none
  else
    refuse (¬ answers.returns) .thrown
    return some (if state.isDeleting target then state else state.addFence target)

end
end AnpIdentity.Ledger
