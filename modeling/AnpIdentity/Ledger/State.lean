import Mathlib.Data.List.Sort
import Mathlib.Data.String.Basic
import AnpIdentity.Durable.Program

/-! The authorization ledger of the host plugin: its records, the checks on texts and the check of a ledger that was
read from disk. Times are milliseconds. -/

namespace AnpIdentity.Ledger

/-- The codes of `AuthorizationError`. `missing` stands for ENOENT, `thrown` for what a callback or the file system
throws. -/
inductive EngineError where
  | invalidAuthorizationInput | invalidOperation | invalidHttpOrigin | incompatibleIdentityCapabilities
  | invalidCreateParameters | operationNotPermitted | requestConflict | requestPreviouslyDenied | requestNotFound
  | requestNotPending | requestNotRetryable | identityRequired | identityMismatch | onceOperationRequired
  | reviewSnapshotRequired | reviewSnapshotChanged | creationNotApproved | creationResultConflict | grantNotFound
  | grantConflict | grantInactive | identityUnavailable | callerMismatch | executionAlreadyAdmitted | executionInactive
  | executionNotFound | executionResultConflict | operationMismatch | leaseExpired | identityHasGrants
  | authorizationConflict | authorizationStoreCorrupt | authorizationStoreFull | invalidOperationPayload | missing | thrown
  deriving Repr, DecidableEq

abbrev EngineResult := Except EngineError

/-- `if (condition) fail(error)`. -/
def refuse (condition : Prop) [Decidable condition] (error : EngineError) : EngineResult Unit :=
  if condition then .error error else .ok ()

variable {error : EngineError}

@[simp] theorem refuse_ok {condition : Prop} [Decidable condition] {u : Unit} :
    refuse condition error = .ok u ↔ ¬ condition := by
  unfold refuse
  split <;> simp_all

@[simp] theorem refuse_error {condition : Prop} [Decidable condition] {other : EngineError} :
    refuse condition error = .error other ↔ condition ∧ error = other := by
  unfold refuse
  split <;> simp_all

/-- `value ?? fail(error)`. -/
def demand {α : Type} (value : Option α) (error : EngineError) : EngineResult α :=
  match value with
  | some a => .ok a
  | none => .error error

@[simp] theorem demand_ok {α : Type} {value : Option α} {a : α} : demand value error = .ok a ↔ value = some a := by
  cases value <;> simp [demand]

@[simp] theorem demand_error {α : Type} {value : Option α} {other : EngineError} :
    demand value error = .error other ↔ value = none ∧ error = other := by
  cases value <;> simp [demand]

/-! ## Texts -/

/-- The code units of a JavaScript string. -/
def units (s : String) : List Nat :=
  s.toList.flatMap (fun c =>
    if c.toNat < 0x10000 then [c.toNat]
    else [0xD800 + (c.toNat - 0x10000) / 0x400, 0xDC00 + (c.toNat - 0x10000) % 0x400])

/-- What `String.prototype.trim` removes. -/
def isTrimmed (c : Char) : Bool :=
  let n := c.toNat
  (9 ≤ n && n ≤ 13) || n == 0x20 || n == 0xA0 || n == 0x1680 || (0x2000 ≤ n && n ≤ 0x200A) ||
    n == 0x2028 || n == 0x2029 || n == 0x202F || n == 0x205F || n == 0x3000 || n == 0xFEFF

def isControl (c : Char) : Bool := c.toNat ≤ 0x1F || c.toNat == 0x7F

/-- A text that is not blank, not too long and free of control characters. -/
def text (value : String) (max : Nat := 1000) : EngineResult String :=
  if value.toList.all isTrimmed ∨ max < (units value).length ∨ value.toList.any isControl then
    .error .invalidAuthorizationInput
  else .ok value

/-- `[...new Set(values)].sort()`. -/
def sortedSet (values : List String) : List String :=
  values.eraseDups.insertionSort (fun a b => units a ≤ units b)

/-! ## Records -/

/-- The identity that a request is about. -/
structure IdentityReference where
  storeId : String
  identityId : String
  did : String
  deriving Repr, DecidableEq

/-- The application that calls, as the host has verified it. -/
structure VerifiedCaller where
  consumer : String
  displayName : String
  deriving Repr, DecidableEq

/-- What an application may ask for. -/
inductive OrdinaryCapability where
  | read | sign | httpAuth
  deriving Repr, DecidableEq

def ordinary : List OrdinaryCapability := [.read, .sign, .httpAuth]

/-- What the host allows for an identity at one time. -/
structure CapabilitySnapshot where
  version : String
  capabilities : List OrdinaryCapability
  signingPurposes : List String
  httpOrigins : List String
  deriving Repr, DecidableEq

/-- Whether a grant is good for one operation only. -/
inductive AuthorizationMode where
  | once | permanent
  deriving Repr, DecidableEq

/-- The life of a request. -/
inductive RequestStatus where
  | pending | approved | denied | cancelled | expired
  deriving Repr, DecidableEq

/-- One use of an identity. -/
structure ControlledOperation where
  capability : OrdinaryCapability
  fingerprint : String
  summary : String
  signingPurpose : Option String
  httpOrigin : Option String
  deriving Repr, DecidableEq

/-- The identity that an application wants to have created. -/
structure CreateParameters where
  label : String
  domain : String
  path : String
  handle : Option String
  deriving Repr, DecidableEq

/-- The identity that was created for a request. -/
structure CreateResult where
  reference : IdentityReference
  label : String
  deriving Repr, DecidableEq

inductive CreationStatus where
  | running | succeeded | unknown | deleted
  deriving Repr, DecidableEq

inductive RequestKind where
  | create | access
  deriving Repr, DecidableEq

/-- The fields of a request that depend on its kind. -/
inductive RequestBody where
  | create (parameters : CreateParameters) (operationId : Option String) (executionStatus : Option CreationStatus)
      (result : Option CreateResult)
  | access (identity : Option IdentityReference) (operation : Option ControlledOperation)
      (mode : Option AuthorizationMode) (grantId : Option String)
  deriving Repr, DecidableEq

namespace RequestBody

def kind : RequestBody → RequestKind
  | .create .. => .create
  | .access .. => .access

def identity : RequestBody → Option IdentityReference
  | .create .. => none
  | .access identity .. => identity

end RequestBody

/-- A request of an application, and what became of it. -/
structure AuthorizationRequest where
  id : String
  caller : VerifiedCaller
  purpose : String
  version : Nat
  status : RequestStatus
  createdAt : Int
  expiresAt : Int
  fingerprint : String
  prompted : Bool
  decidedAt : Option Int
  retryOf : Option String
  body : RequestBody
  deriving Repr, DecidableEq

inductive GrantStatus where
  | active | consumed | revoked | expired
  deriving Repr, DecidableEq

/-- What the user has allowed. -/
structure AuthorizationGrant where
  id : String
  requestId : String
  caller : VerifiedCaller
  identity : IdentityReference
  snapshot : CapabilitySnapshot
  mode : AuthorizationMode
  version : Nat
  approvedAt : Int
  status : GrantStatus
  expiresAt : Option Int
  operation : Option ControlledOperation
  executionId : Option String
  revokedAt : Option Int
  deriving Repr, DecidableEq

/-- The use of a grant for a limited time. -/
structure AuthorizedLease where
  grantId : String
  consumer : String
  identity : IdentityReference
  grantVersion : Nat
  expiresAt : Int
  deriving Repr, DecidableEq

inductive ExecutionStatus where
  | admitted | succeeded | failed | unknown
  deriving Repr, DecidableEq

/-- One operation under a grant, and its outcome. -/
structure AuthorizationExecution where
  id : String
  grantId : String
  consumer : String
  fingerprint : String
  admittedAt : Int
  grantVersion : Nat
  operation : ControlledOperation
  status : ExecutionStatus
  finishedAt : Option Int
  deriving Repr, DecidableEq

/-- A refusal that stands against later requests. -/
structure Suppression where
  consumer : String
  kind : RequestKind
  identity : Option IdentityReference
  requestId : String
  deriving Repr, DecidableEq

/-- The ledger, as it is stored. -/
structure AuthorizationState where
  generation : Nat
  requests : List AuthorizationRequest
  grants : List AuthorizationGrant
  executions : List AuthorizationExecution
  deletedIdentities : List IdentityReference
  deletingIdentities : List IdentityReference
  suppressions : List Suppression
  deriving Repr, DecidableEq

def AuthorizationState.empty : AuthorizationState where
  generation := 0
  requests := []
  grants := []
  executions := []
  deletedIdentities := []
  deletingIdentities := []
  suppressions := []

/-! ## Inputs -/

structure RequestCreateInput where
  requestId : String
  purpose : String
  parameters : CreateParameters
  deriving Repr, DecidableEq

structure RequestAccessInput where
  requestId : String
  purpose : String
  identity : Option IdentityReference
  operation : Option ControlledOperation
  deriving Repr, DecidableEq

/-- The answer of the user to a request. -/
structure AuthorizationDecision where
  requestId : String
  expectedVersion : Nat
  approve : Bool
  identity : Option IdentityReference
  mode : Option AuthorizationMode
  reviewedSnapshot : Option CapabilitySnapshot
  deriving Repr, DecidableEq

/-- What a request asks for, before it is recorded. -/
inductive RequestDetails where
  | create (parameters : CreateParameters)
  | access (identity : Option IdentityReference) (operation : Option ControlledOperation)
  deriving Repr, DecidableEq

namespace RequestDetails

def kind : RequestDetails → RequestKind
  | .create _ => .create
  | .access _ _ => .access

def identity : RequestDetails → Option IdentityReference
  | .create _ => none
  | .access identity _ => identity

def body : RequestDetails → RequestBody
  | .create parameters => .create parameters none none none
  | .access identity operation => .access identity operation none none

@[simp] theorem body_kind (details : RequestDetails) : details.body.kind = details.kind := by
  cases details <;> rfl

@[simp] theorem body_identity (details : RequestDetails) : details.body.identity = details.identity := by
  cases details <;> rfl

end RequestDetails

/-- The arguments of `digest`. -/
inductive Digestible where
  | request (consumer purpose : String) (details : RequestDetails)
  | target (reference : IdentityReference)

/-- A parsed URL. -/
structure Url where
  protocol : String
  username : String
  password : String
  host : String
  pathname : String
  origin : String
  deriving Repr, DecidableEq

/-- What the engine calls in the JavaScript platform. Identifiers that are drawn never repeat. -/
structure Platform where
  /-- `new URL`. -/
  parseUrl : String → Option Url
  /-- `String.prototype.toLowerCase`. -/
  toLowerCase : String → String
  digest : Digestible → String
  /-- The size of the serialized ledger in bytes. -/
  byteLength : AuthorizationState → Nat
  /-- The identifier that the draw with this number returns. -/
  randomUUID : Nat → String
  randomUUID_injective : Function.Injective randomUUID

/-- The options of one engine object; the constructor accepts positive times only. -/
structure AuthorizationOptions where
  requestTtlMs : Option Int
  onceTtlMs : Option Int
  leaseTtlMs : Option Int
  positive : ∀ ttl ∈ requestTtlMs.toList ++ onceTtlMs.toList ++ leaseTtlMs.toList, 0 < ttl

def fiveMinutes : Int := 300000
def sevenDays : Int := 7 * 24 * 60 * 60000

/-! ## Checks -/

/-- A reference names an identity and its DID. -/
def reference (value : IdentityReference) : EngineResult IdentityReference := do
  let storeId ← text value.storeId 512
  let identityId ← text value.identityId 512
  let did ← text value.did 4096
  return { storeId, identityId, did }

def equalIdentity (a b : IdentityReference) : Bool :=
  a.storeId == b.storeId && a.identityId == b.identityId && a.did == b.did

@[simp] theorem equalIdentity_eq (a b : IdentityReference) : equalIdentity a b = decide (a = b) := by
  cases a
  cases b
  rw [Bool.eq_iff_iff]
  simp [equalIdentity, and_assoc]

/-- A caller names itself. -/
def caller (value : VerifiedCaller) : EngineResult VerifiedCaller := do
  let consumer ← text value.consumer 256
  let displayName ← text value.displayName 256
  return { consumer, displayName }

/-- An HTTPS origin in its own spelling, without credentials. -/
def origin (platform : Platform) (value : String) : EngineResult String := do
  let parsed ← demand (platform.parseUrl value) .invalidHttpOrigin
  refuse (parsed.protocol ≠ "https:" ∨ parsed.username ≠ "" ∨ parsed.password ≠ "" ∨ parsed.origin ≠ value)
    .invalidHttpOrigin
  return parsed.origin

private def isHexDigest (fingerprint : String) : Bool :=
  fingerprint.toList.length == 64 && fingerprint.toList.all (fun c => c.isDigit || ('a' ≤ c && c ≤ 'f'))

/-- An operation has the purpose or the origin that its capability needs, and no other. -/
def operation (platform : Platform) (value : ControlledOperation) : EngineResult ControlledOperation := do
  refuse (¬ isHexDigest value.fingerprint) .invalidOperation
  let summary ← text value.summary 1024
  let signingPurpose ← value.signingPurpose.mapM (text · 256)
  let httpOrigin ← value.httpOrigin.mapM (origin platform)
  let result : ControlledOperation :=
    { capability := value.capability, fingerprint := value.fingerprint, summary, signingPurpose, httpOrigin }
  refuse ((result.capability == .sign) ≠ result.signingPurpose.isSome ∨
    (result.capability == .httpAuth) ≠ result.httpOrigin.isSome) .invalidOperation
  return result

/-- A policy offers every capability; its purposes and origins become sorted sets. -/
def snapshot (platform : Platform) (value : CapabilitySnapshot) : EngineResult CapabilitySnapshot := do
  refuse (value.capabilities.length ≠ ordinary.length ∨ ordinary.any (fun cap => !value.capabilities.contains cap))
    .incompatibleIdentityCapabilities
  let version ← text value.version 256
  let signingPurposes ← value.signingPurposes.mapM (text · 256)
  let httpOrigins ← value.httpOrigins.mapM (origin platform)
  return { version, capabilities := ordinary, signingPurposes := sortedSet signingPurposes,
           httpOrigins := sortedSet httpOrigins }

/-- The policy covers the operation. -/
def permits (policy : CapabilitySnapshot) (value : ControlledOperation) : Bool :=
  policy.capabilities.contains value.capability &&
    value.signingPurpose.all policy.signingPurposes.contains && value.httpOrigin.all policy.httpOrigins.contains

/-- `normalizeHandle` of the catalog. -/
def normalizeHandle (platform : Platform) (value : String) : EngineResult String :=
  let lower := platform.toLowerCase value
  let isAlphanumeric := fun c : Char => c.isDigit || ('a' ≤ c && c ≤ 'z')
  let trimmed := fun c : Option Char => c.any isTrimmed
  if trimmed value.toList.head? ∨ trimmed value.toList.getLast? ∨ (units value).length < 1 ∨
      128 < (units value).length ∨ ¬ lower.toList.head?.any isAlphanumeric ∨
      ¬ lower.toList.getLast?.any isAlphanumeric ∨
      ¬ lower.toList.all (fun c => isAlphanumeric c || c == '.' || c == '_' || c == '-') then
    .error .thrown
  else .ok lower

/-! ## Reading a ledger -/

def maxLedgerBytes : Nat := 16 * 1024 * 1024
def maxSafeInteger : Nat := 2 ^ 53 - 1

private def isVersion (version : Nat) : Bool := 1 ≤ version && version ≤ maxSafeInteger

private def passes {α : Type} (result : EngineResult α) : Bool := result.toOption.isSome

/-- The checks on a request that is read from the file. -/
def AuthorizationRequest.isReadable (platform : Platform) (req : AuthorizationRequest) : Bool :=
  passes (text req.id 256) && passes (Ledger.caller req.caller) && passes (text req.purpose) && passes (text req.fingerprint) &&
    isVersion req.version &&
    match req.body with
    | .access identity operation _ _ =>
      identity.all (fun value => passes (reference value)) &&
        operation.all (fun value => passes (Ledger.operation platform value))
    | .create parameters _ _ result =>
      passes (text parameters.label) && passes (text parameters.domain) && passes (text parameters.path 2048) &&
        result.all (fun value => passes (reference value.reference))

/-- The checks on a grant that is read from the file. -/
def AuthorizationGrant.isReadable (platform : Platform) (grant : AuthorizationGrant) : Bool :=
  passes (text grant.id) && passes (Ledger.caller grant.caller) && passes (reference grant.identity) &&
    passes (Ledger.snapshot platform grant.snapshot) && isVersion grant.version &&
    (grant.mode == .permanent || (grant.expiresAt.isSome && grant.operation.isSome)) &&
    (grant.mode == .permanent || grant.operation.all (fun value => passes (Ledger.operation platform value)))

def AuthorizationExecution.isReadable (platform : Platform) (execution : AuthorizationExecution) : Bool :=
  passes (text execution.id) && passes (text execution.consumer) && passes (Ledger.operation platform execution.operation)

def Suppression.isReadable (block : Suppression) : Bool :=
  passes (text block.consumer 256) && passes (text block.requestId 256) &&
    block.identity.all (fun value => passes (reference value))

/-- The check of `#read`. -/
def AuthorizationState.isReadable (platform : Platform) (state : AuthorizationState) : Bool :=
  platform.byteLength state ≤ maxLedgerBytes && state.generation ≤ maxSafeInteger &&
    decide (state.requests.map (·.id)).Nodup && decide (state.grants.map (·.id)).Nodup &&
    decide (state.executions.map (·.id)).Nodup && state.requests.all (·.isReadable platform) &&
    state.grants.all (·.isReadable platform) && state.executions.all (·.isReadable platform) &&
    (state.deletedIdentities ++ state.deletingIdentities).all (fun identity => passes (reference identity)) &&
    state.suppressions.all (·.isReadable)

/-! ## What a ledger that can be read consists of -/

@[simp] private theorem passes_eq {α : Type} (result : EngineResult α) : passes result = result.isOk := by
  cases result <;> rfl

/-- The part of a request that depends on its kind passes the check. -/
def RequestBody.Passes (platform : Platform) : RequestBody → Prop
  | .access identity operation _ _ =>
    (∀ value ∈ identity, (reference value).isOk = true) ∧ ∀ value ∈ operation, (Ledger.operation platform value).isOk = true
  | .create parameters _ _ result =>
    ((text parameters.label).isOk = true ∧ (text parameters.domain).isOk = true ∧ (text parameters.path 2048).isOk = true) ∧
      ∀ value ∈ result, (reference value.reference).isOk = true

section
variable {platform : Platform}

theorem AuthorizationRequest.isReadable_iff {req : AuthorizationRequest} : req.isReadable platform = true ↔
    (text req.id 256).isOk = true ∧ (Ledger.caller req.caller).isOk = true ∧ (text req.purpose).isOk = true ∧
      (text req.fingerprint).isOk = true ∧ (1 ≤ req.version ∧ req.version ≤ maxSafeInteger) ∧ req.body.Passes platform := by
  unfold AuthorizationRequest.isReadable
  cases req.body with
  | access identity operation _ _ => simp [RequestBody.Passes, isVersion, and_assoc, Option.all_eq_true]
  | create parameters _ _ result => simp [RequestBody.Passes, isVersion, and_assoc, Option.all_eq_true]

theorem AuthorizationGrant.isReadable_iff {grant : AuthorizationGrant} : grant.isReadable platform = true ↔
    (text grant.id).isOk = true ∧ (Ledger.caller grant.caller).isOk = true ∧ (reference grant.identity).isOk = true ∧
      (Ledger.snapshot platform grant.snapshot).isOk = true ∧ (1 ≤ grant.version ∧ grant.version ≤ maxSafeInteger) ∧
      (grant.mode = .once → grant.expiresAt.isSome = true ∧ ∃ value, grant.operation = some value ∧
        (Ledger.operation platform value).isOk = true) := by
  unfold AuthorizationGrant.isReadable
  cases grant.mode <;> cases grant.operation <;> simp [isVersion, and_assoc]

theorem AuthorizationExecution.isReadable_iff {execution : AuthorizationExecution} : execution.isReadable platform = true ↔
    (text execution.id).isOk = true ∧ (text execution.consumer).isOk = true ∧
      (Ledger.operation platform execution.operation).isOk = true := by
  simp [AuthorizationExecution.isReadable, and_assoc]

theorem Suppression.isReadable_iff {block : Suppression} : block.isReadable = true ↔
    (text block.consumer 256).isOk = true ∧ (text block.requestId 256).isOk = true ∧
      ∀ value ∈ block.identity, (reference value).isOk = true := by
  simp [Suppression.isReadable, and_assoc, Option.all_eq_true]

theorem AuthorizationState.isReadable_iff {state : AuthorizationState} : state.isReadable platform = true ↔
    platform.byteLength state ≤ maxLedgerBytes ∧ state.generation ≤ maxSafeInteger ∧ (state.requests.map (·.id)).Nodup ∧
      (state.grants.map (·.id)).Nodup ∧ (state.executions.map (·.id)).Nodup ∧
      (∀ req ∈ state.requests, req.isReadable platform = true) ∧ (∀ grant ∈ state.grants, grant.isReadable platform = true) ∧
      (∀ execution ∈ state.executions, execution.isReadable platform = true) ∧
      (∀ identity ∈ state.deletedIdentities ++ state.deletingIdentities, (reference identity).isOk = true) ∧
      ∀ block ∈ state.suppressions, block.isReadable = true := by
  simp only [AuthorizationState.isReadable, Bool.and_eq_true, decide_eq_true_eq, List.all_eq_true, passes_eq, and_assoc]

end
end AnpIdentity.Ledger
