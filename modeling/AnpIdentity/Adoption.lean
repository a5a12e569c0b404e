import AnpIdentity.Creation

/-! `adoption.rs`: enrolling a device or a request-signing key under a verified document, and adopting
later documents. -/

namespace AnpIdentity
open Durable Text
variable (anp : Anp)

/-- A request to enrol a device. -/
structure EnrollmentSpec where
  verifiedDocument : Value
  evidence : VerifiedDocumentEvidence
  deviceId : String
  deviceSigningFragment : String
  deviceE2eeFragment : String
  profiles : List String
  capabilities : Capabilities := {}
  deriving Repr, DecidableEq

structure RequestSigningEnrollmentSpec where
  verifiedDocument : Value
  evidence : VerifiedDocumentEvidence
  fragment : String
  capabilities : Capabilities := {}
  deriving Repr, DecidableEq

inductive AdoptDocumentOutcome where
  | activated | updated | unchanged | revoked
  deriving Repr, DecidableEq

/-- A device needs an id and profiles. -/
def validateEnrollmentSpec (spec : EnrollmentSpec) : DidResult Unit := do
  validateVerifiedDocument anp spec.verifiedDocument spec.evidence
  validateFragment spec.deviceSigningFragment
  validateFragment spec.deviceE2eeFragment
  reject (isBlank spec.deviceId || trim spec.deviceId != spec.deviceId || spec.profiles.isEmpty ||
    spec.profiles.any isBlank) .invalidExtension

/-- The root key of the document, held elsewhere, if its profile has one. -/
def optionalRootMetadata (document : Value) (createdAt : String) : DidResult (Option KeyMetadata) := do
  let profile ← validateMethodDocument anp document
  if profile.supportsRootControl then do
    let rootKid ← okOr (rootKeyId document) .invalidIdentity
    let metadata ← keyMetadata anp document rootKid .rootControl .external createdAt
    .ok (some metadata)
  else .ok none

def enrollmentKey (entropy : Entropy) (index : Nat) (kid : String) (role : KeyRole) : NewKey where
  kid := kid
  role := role
  plaintext := (entropy.key index).val
  publicKey := publicKeyFromRaw anp role (entropy.key index)

/-- The record of a prepared device enrollment. -/
def enrolledRecord (entropy : Entropy) (spec : EnrollmentSpec) (did : String) (signing e2ee : NewKey) :
    DidResult IdentityRecord := do
  let rootMetadata ← optionalRootMetadata anp spec.verifiedDocument entropy.now
  let signingMetadata ← keyMetadataFromPublic anp signing.kid .deviceSigning .managed .pending signing.publicKey entropy.now
  let e2eeMetadata ← keyMetadataFromPublic anp e2ee.kid .e2eeAgreement .managed .pending e2ee.publicKey entropy.now
  let rootKeyFingerprint ← methodRootFingerprint anp spec.verifiedDocument
  let authorization : LocalAuthorizationRecord :=
    { deviceId := spec.deviceId, signingKid := signing.kid, e2eeKid := e2ee.kid, profiles := spec.profiles }
  .ok { newIdentityRecord {
          identityId := entropy.identityId
          did
          document := spec.verifiedDocument
          keys := rootMetadata.toList ++ [signingMetadata, e2eeMetadata]
          capabilities := spec.capabilities
          rootCapability := .absent
          rootKeyFingerprint
          checkpoint := checkpoint spec.evidence
          localAuthorization := some authorization
          createdAt := entropy.now } with
        state := .enrolling
        pendingEnrollment := some
          { enrollmentId := entropy.enrollmentId, localAuthorization := authorization, createdAt := entropy.now } }

/-- The record of a prepared request-signing enrollment. -/
def requestSigningEnrolledRecord (entropy : Entropy) (spec : RequestSigningEnrollmentSpec) (did : String)
    (request : NewKey) : DidResult IdentityRecord := do
  let rootMetadata ← optionalRootMetadata anp spec.verifiedDocument entropy.now
  let requestMetadata ← keyMetadataFromPublic anp request.kid .requestSigning .managed .pending request.publicKey entropy.now
  let rootKeyFingerprint ← methodRootFingerprint anp spec.verifiedDocument
  .ok { newIdentityRecord {
          identityId := entropy.identityId
          did
          document := spec.verifiedDocument
          keys := rootMetadata.toList ++ [requestMetadata]
          capabilities := spec.capabilities
          rootCapability := .absent
          rootKeyFingerprint
          checkpoint := checkpoint spec.evidence
          localAuthorization := none
          createdAt := entropy.now } with
        state := .enrolling
        localRequestSigningKid := some request.kid
        pendingRequestSigning := some
          { enrollmentId := entropy.enrollmentId, requestSigningKid := request.kid, createdAt := entropy.now } }

/-- Enrollments and imports check the registry but not the journals left by calls that failed. -/
def DidStore.registryForNew (self : DidStore) (did : String) : Tx IdentityRegistry := do
  let registry ← self.currentRegistry
  reject (registry.identities did).isSome .duplicateIdentity
  return registry

def DidStore.prepareEnrollment (self : DidStore) (entropy : Entropy) (spec : EnrollmentSpec) :
    Tx (DidStore × DidIdentity) := do
  validateEnrollmentSpec anp spec
  let did ← okOr (spec.verifiedDocument.getStr "id") .invalidIdentity
  let signingKid ← canonicalizeKid did spec.deviceSigningFragment
  let e2eeKid ← canonicalizeKid did spec.deviceE2eeFragment
  reject (signingKid = e2eeKid ∨ (anp.findVerificationMethod spec.verifiedDocument signingKid).isSome ∨
    (anp.findVerificationMethod spec.verifiedDocument e2eeKid).isSome) .duplicateKid
  let registry ← self.registryForNew did
  let signing := enrollmentKey anp entropy 0 signingKid .deviceSigning
  let e2ee := enrollmentKey anp entropy 1 e2eeKid .e2eeAgreement
  commitNewIdentity anp entropy registry did [signing, e2ee] (enrolledRecord anp entropy spec did signing e2ee)

def DidStore.prepareRequestSigningEnrollment (self : DidStore) (entropy : Entropy) (spec : RequestSigningEnrollmentSpec) :
    Tx (DidStore × DidIdentity) := do
  validateVerifiedDocument anp spec.verifiedDocument spec.evidence
  validateFragment spec.fragment
  let did ← okOr (spec.verifiedDocument.getStr "id") .invalidIdentity
  let kid ← canonicalizeKid did spec.fragment
  reject (anp.findVerificationMethod spec.verifiedDocument kid).isSome .duplicateKid
  let registry ← self.registryForNew did
  let request := enrollmentKey anp entropy 0 kid .requestSigning
  commitNewIdentity anp entropy registry did [request] (requestSigningEnrolledRecord anp entropy spec did request)

/-- What adoption makes of a record whose evidence has been checked, by the state of the identity. -/
def adoptOutcome (record : IdentityRecord) (evidence : VerifiedDocumentEvidence) (authorized : Bool) :
    DidResult (AdoptDocumentOutcome × IdentityRecord) :=
  match record.state with
  | .creating => .error .invalidIdentity
  | .enrolling =>
    if !authorized ∨ (record.pendingEnrollment.isNone ∧ record.pendingRequestSigning.isNone) then
      .error .invalidIdentity
    else
      .ok (.activated,
        { record with
          keys := record.keys.map (fun key => if key.state = .pending then { key with state := .active } else key)
          pendingEnrollment := none
          pendingRequestSigning := none
          state := .active })
  | .active =>
    if !authorized then .ok (.revoked, { revokeLocalAuthorization record with state := .revoked })
    else if record.checkpoint.any (·.documentDigest == evidence.documentDigest) then .ok (.unchanged, record)
    else .ok (.updated, record)
  | .revoked => .ok (.revoked, record)

/-- A transition between identities that is still open holds this identity. -/
def Store.heldByTransition (s : Store) (identityId : String) : Bool :=
  s.identityTransitions.entries.any (fun journal =>
    (journal.predecessorIdentityId == identityId || journal.successorIdentityId == identityId) &&
    (journal.state == .prepared || journal.state == .publicationInFlight || journal.state == .publicationUncertain))

/-- The checks adoption makes on the stored record before it looks at the local authorization. -/
def checkAdoption (s : Store) (self : DidIdentity) (record : IdentityRecord) (spec : AdoptVerifiedDocumentSpec)
    (siblingOnly : Bool) : DidResult Unit := do
  reject (record.generation ≠ self.record.generation) .conflict
  reject record.pendingRevision.isSome .pendingRevisionExists
  reject (siblingOnly ∧ (record.state ≠ .active ∨ record.rootCapability ≠ .active)) .keyNotUsable
  reject (siblingOnly ∧ s.heldByTransition record.identityId) .conflict
  let confirmation ← if siblingOnly then .ok false else isInitialProofConfirmation record spec.document spec.evidence
  if confirmation then .ok () else validateCheckpointProgression record.checkpoint spec.evidence
  let fingerprint ← methodRootFingerprint anp spec.document
  reject (fingerprint ≠ record.rootKeyFingerprint) .rootKeyMismatch

/-- The evidence repeats the record's checkpoint and the record awaits no first publication. -/
def checkpointUnchanged (record : IdentityRecord) (evidence : VerifiedDocumentEvidence) : Bool :=
  record.checkpoint == some (checkpoint evidence)

/-- The record that adoption stores, before its generation is raised; `none` when nothing changes. -/
def adoptRecord (record : IdentityRecord) (spec : AdoptVerifiedDocumentSpec) (siblingOnly : Bool) :
    DidResult (AdoptDocumentOutcome × Option IdentityRecord) := do
  let authorized := localAuthorized anp record spec.document
  reject (siblingOnly ∧ ¬ authorized) .keyRoleViolation
  let unchanged := checkpointUnchanged record spec.evidence
  let (outcome, record) ← adoptOutcome record spec.evidence authorized
  if outcome = .unchanged ∧ unchanged ∧ ¬ record.initialPublicationPending then .ok (outcome, none)
  else do
    let record := refreshCompatibleLocalProfiles anp record spec.document
    let record ← record.observeDevices spec.document
    .ok (outcome, some { record with
      document := spec.document
      checkpoint := some (checkpoint spec.evidence)
      initialPublicationPending := false
      revision := spec.evidence.documentVersion })

/-- Identity file, registry, journal removed: the end of a journalled change to an identity. -/
def persistAndRegister (entropy : Entropy) (record : IdentityRecord) : Tx IdentityRecord := do
  let record ← persistRecord record
  let registry ← readRegistry
  reject (¬ registry.Names record.did record.identityId) .identityNotFound
  let registry ← registry.put record.did record.summary
  writeRegistry registry
  removeJournal entropy.transactionId
  return record

/-- The journal of a change to the summary. -/
def transitionJournal (entropy : Entropy) (record : IdentityRecord) : CreationJournal where
  kind := .stateTransition
  transactionId := entropy.transactionId
  identityId := record.identityId
  did := record.did
  secretRefs := []
  createdAt := entropy.now

/-- Stores a record whose summary may have changed. -/
def persistStateTransition (entropy : Entropy) (record : IdentityRecord) : Tx IdentityRecord := do
  writeJournal (transitionJournal entropy record)
  persistAndRegister entropy record

def DidIdentity.adoptVerifiedDocumentInner (self : DidIdentity) (entropy : Entropy) (spec : AdoptVerifiedDocumentSpec)
    (siblingOnly : Bool) : Tx (DidIdentity × AdoptDocumentOutcome) := do
  validateVerifiedDocument anp spec.document spec.evidence
  reject (spec.document.getStr "id" ≠ some self.did) .invalidIdentity
  let record ← readIdentity anp self.identityId
  let s ← Program.get
  checkAdoption anp s self record spec siblingOnly
  let (outcome, next) ← adoptRecord anp record spec siblingOnly
  match next with
  | none => return (self, outcome)
  | some record =>
    if siblingOnly then do
      let record ← persistRecord record
      return ({ record }, outcome)
    else do
      let record ← persistStateTransition entropy record
      return ({ record }, outcome)

def DidIdentity.adoptVerifiedDocument (self : DidIdentity) (entropy : Entropy) (spec : AdoptVerifiedDocumentSpec) :
    Tx (DidIdentity × AdoptDocumentOutcome) :=
  self.adoptVerifiedDocumentInner anp entropy spec false

def DidIdentity.adoptVerifiedSiblingDocument (self : DidIdentity) (entropy : Entropy) (spec : AdoptVerifiedDocumentSpec) :
    Tx (DidIdentity × AdoptDocumentOutcome) :=
  self.adoptVerifiedDocumentInner anp entropy spec true

end AnpIdentity
