import AnpIdentity.Revision

/-! `lifecycle.rs`: preparing an update, moving it through publication, committing and aborting it, and
the recovery of its journals. -/

namespace AnpIdentity
open Durable
variable (anp : Anp)

/-- A document that was published elsewhere. -/
structure AdoptVerifiedDocumentSpec where
  document : Value
  evidence : VerifiedDocumentEvidence
  deriving Repr, DecidableEq

/-- What the caller is to publish. -/
structure PreparedUpdate where
  revisionId : String
  candidateDocument : Value
  candidateDigest : String
  deriving Repr, DecidableEq

/-- What a look at the published document shows. -/
inductive ReconcileOutcome where
  | remoteOld | committed
  deriving Repr, DecidableEq

def canonicalDigest (document : Value) : DidResult String := do
  let canonical ← mapErr (anp.canonicalJson document) .invalidIdentity
  .ok (anp.sha256 canonical)

/-- The pending revision, if it is the one asked for. -/
def requiredPending (record : IdentityRecord) (revisionId : String) : DidResult PendingRevisionRecord :=
  okOr (record.pendingRevision.filter (·.revisionId == revisionId)) .pendingRevisionNotFound

/-- The record is stored under its next generation. -/
def persistRecord (record : IdentityRecord) : Tx IdentityRecord := do
  let generation ← checkedSucc record.generation
  let record := { record with generation }
  writeIdentity record
  return record

/-- The record as it is stored: with its generation raised. -/
def IdentityRecord.raised (record : IdentityRecord) : IdentityRecord := { record with generation := record.generation + 1 }

@[simp] theorem IdentityRecord.raised_identityId (record : IdentityRecord) : record.raised.identityId = record.identityId := rfl
@[simp] theorem IdentityRecord.raised_generation (record : IdentityRecord) : record.raised.generation = record.generation + 1 := rfl
@[simp] theorem IdentityRecord.raised_summary (record : IdentityRecord) : record.raised.summary = record.summary := rfl

/-- The update a request amounts to, worked out before anything is written. -/
structure UpdatePlan where
  rotation : Option PreparedRotation
  changes : CandidateChanges
  newMetadata : List KeyMetadata
  secretRefs : List SecretRef

/-- The rotated key's metadata and where its secret goes. -/
def rotationKey (entropy : Entropy) (record : IdentityRecord) (candidate : Value) (rotation : PreparedRotation) :
    DidResult (KeyMetadata × SecretRef) := do
  let metadata ← keyMetadata anp candidate rotation.newKid .requestSigning .managed entropy.now
  .ok (metadata, { identityId := record.identityId, keyId := rotation.newKid, role := .requestSigning,
                   version := metadata.version })

def planRotation (entropy : Entropy) (record : IdentityRecord) :
    Option RequestSigningRotation → DidResult (Option PreparedRotation)
  | none => .ok none
  | some rotation => do
    let rotation ← prepareRotation entropy record rotation
    .ok (some rotation)

/-- Everything about an update that is computed before the first write. -/
def planUpdate (entropy : Entropy) (s : Store) (record : IdentityRecord) (spec : DocumentUpdateSpec) :
    DidResult UpdatePlan := do
  reject (record.pendingRevision.any (·.state == .publicationUncertain)) .invalidPublicationState
  reject record.pendingRevision.isSome .pendingRevisionExists
  let rotation ← planRotation entropy record spec.requestSigningRotation
  let changes ← buildCandidateDocument anp entropy s record rotation spec
  let added ← changes.addedKeys.mapM (fun key => keyMetadata anp changes.document key.1 key.2 .external entropy.now)
  match rotation with
  | none => .ok { rotation, changes, newMetadata := added, secretRefs := [] }
  | some prepared => do
    let (metadata, ref) ← rotationKey anp entropy record changes.document prepared
    .ok { rotation, changes, newMetadata := added ++ [metadata], secretRefs := [ref] }

def UpdatePlan.pending (plan : UpdatePlan) (entropy : Entropy) (record : IdentityRecord) (candidateDigest : String) :
    PendingRevisionRecord where
  revisionId := entropy.revisionId
  parentRevision := record.revision
  candidateDocument := plan.changes.document
  candidateDigest := candidateDigest
  candidateKids := plan.changes.addedKeys.map Prod.fst ++ (plan.rotation.map (·.newKid)).toList
  pendingSecretRefs := plan.secretRefs
  newKeyMetadata := plan.newMetadata
  retiredKids := plan.changes.retiredKids ++ (plan.rotation.map (·.oldKid)).toList
  state := .prepared
  generation := 1
  createdAt := entropy.now

/-- The secret of the rotation, to be sealed under the plan's reference. -/
def UpdatePlan.sealedKeys (plan : UpdatePlan) : List SealedKey :=
  match plan.rotation, plan.secretRefs with
  | some rotation, ref :: _ => [{ ref, plaintext := rotation.newKey.secretBytes, expected := rotation.newKey.publicKey anp }]
  | _, _ => []

/-- What a plan says about secrets: it names no key that the record has, and every managed key that it adds
has its secret sealed. -/
structure Planned (record : IdentityRecord) (plan : UpdatePlan) : Prop where
  clear : record.pendingRevision = none
  refs : ∀ ref ∈ plan.secretRefs, ref.identityId = record.identityId ∧ ref.role = .requestSigning ∧
    record.keys.any (·.kid == ref.keyId) = false
  managed : ∀ key ∈ plan.newMetadata, key.origin = .managed → record.secretRef key ∈ plan.secretRefs
  listed : ∀ ref ∈ plan.secretRefs, ∃ key ∈ plan.newMetadata, record.secretRef key = ref
  sealed : (plan.sealedKeys anp).map (·.ref) = plan.secretRefs

section
variable {anp} {entropy : Entropy} {s : Store} {record : IdentityRecord}

variable {spec : DocumentUpdateSpec} {plan : UpdatePlan}

/-- How an update was planned: the document that it builds, the external keys that it adds and the key that it turns to. -/
structure PlansUpdate (anp : Anp) (entropy : Entropy) (s : Store) (record : IdentityRecord) (spec : DocumentUpdateSpec)
    (plan : UpdatePlan) (added turned : List KeyMetadata) : Prop where
  clear : record.pendingRevision = none
  rotated : planRotation entropy record spec.requestSigningRotation = .ok plan.rotation
  built : buildCandidateDocument anp entropy s record plan.rotation spec = .ok plan.changes
  described : plan.changes.addedKeys.mapM
    (fun key => keyMetadata anp plan.changes.document key.1 key.2 .external entropy.now) = .ok added
  metadata : plan.newMetadata = added ++ turned
  refs : plan.secretRefs = turned.map record.secretRef
  kids : turned.map (·.kid) = (plan.rotation.map (·.newKid)).toList
  turns : ∀ key ∈ turned, ∃ prepared ∈ plan.rotation, key.Describes prepared.newKid .requestSigning .managed

theorem planUpdate_plans (planned : planUpdate anp entropy s record spec = .ok plan) :
    ∃ added turned, PlansUpdate anp entropy s record spec plan added turned := by
  simp only [planUpdate, except_bind_ok, reject_ok] at planned
  obtain ⟨_, -, _, clear, rotation, rotated, changes, built, added, described, planned⟩ := planned
  have clear : record.pendingRevision = none := by simpa using clear
  cases rotation with
  | none =>
    cases planned
    exact ⟨added, [], clear, rotated, built, described, (List.append_nil _).symm, rfl, rfl, by simp⟩
  | some prepared =>
    obtain ⟨⟨key, ref⟩, made, planned⟩ := except_bind_ok.mp planned
    simp only [rotationKey, except_bind_ok] at made
    obtain ⟨_, made, same⟩ := made
    cases same
    cases planned
    have facts := keyMetadata_ok made
    refine ⟨added, [key], clear, rotated, built, described, rfl, ?_, ?_, by simpa using facts⟩
    · simp [IdentityRecord.secretRef, facts.kid, facts.role]
    · simp [facts.kid]

theorem planRotation_ok {request : Option RequestSigningRotation} {rotation : Option PreparedRotation}
    (planned : planRotation entropy record request = .ok rotation) :
    ∀ prepared ∈ rotation, ∃ asked, prepareRotation entropy record asked = .ok prepared := by
  cases request with
  | none =>
    cases planned
    simp
  | some asked =>
    obtain ⟨made, prepares, same⟩ := except_bind_ok.mp planned
    cases same
    simpa using ⟨asked, prepares⟩

private theorem prepareRotation_ok {rotation : RequestSigningRotation} {prepared : PreparedRotation}
    (made : prepareRotation entropy record rotation = .ok prepared) : record.keys.any (·.kid == prepared.newKid) = false := by
  simp only [prepareRotation, except_bind_ok, reject_ok] at made
  obtain ⟨_, -, _, -, _, -, _, -, _, -, _, -, _, -, newKid, -, _, unused, same⟩ := made
  cases same
  simpa using unused

theorem planUpdate_ok (planned : planUpdate anp entropy s record spec = .ok plan) : Planned anp record plan := by
  obtain ⟨added, turned, plans⟩ := planUpdate_plans planned
  refine ⟨plans.clear, fun ref inside => ?_, fun key inside managed => ?_, fun ref inside => ?_, ?_⟩
  · rw [plans.refs] at inside
    obtain ⟨key, listed, rfl⟩ := List.mem_map.mp inside
    obtain ⟨prepared, rotates, described⟩ := plans.turns key listed
    obtain ⟨_, prepares⟩ := planRotation_ok plans.rotated prepared rotates
    refine ⟨rfl, described.role, ?_⟩
    rw [show (record.secretRef key).keyId = prepared.newKid from described.kid]
    exact prepareRotation_ok prepares
  · rw [plans.metadata] at inside
    rw [plans.refs]
    refine List.mem_map_of_mem ((List.mem_append.mp inside).resolve_left (fun external => ?_))
    obtain ⟨source, -, described⟩ := mapM_ok plans.described key external
    rw [(keyMetadata_ok described).origin] at managed
    cases managed
  · rw [plans.refs] at inside
    obtain ⟨key, listed, is⟩ := List.mem_map.mp inside
    exact ⟨key, plans.metadata ▸ List.mem_append_right _ listed, is⟩
  · have kids := plans.kids
    rw [UpdatePlan.sealedKeys, plans.refs]
    generalize plan.rotation = rotation at kids ⊢
    cases rotation <;> rcases turned with _ | ⟨key, _ | _⟩ <;> simp_all

end

/-- The journal that is written before the secrets of an update. -/
def prepareJournal (entropy : Entropy) (record : IdentityRecord) (plan : UpdatePlan) : UpdateJournal where
  revisionId := entropy.revisionId
  identityId := record.identityId
  secretRefs := plan.secretRefs
  kind := .prepare
  createdAt := entropy.now

/-- A failed update commits nothing: its Prepare journal tells recovery to delete the sealed secret. -/
def commitPlan (entropy : Entropy) (record : IdentityRecord) (plan : UpdatePlan) :
    Tx (DidIdentity × PreparedUpdate) := do
  writeUpdateJournal (prepareJournal entropy record plan)
  sealAll anp (plan.sealedKeys anp)
  let candidateDigest ← canonicalDigest anp plan.changes.document
  let record ← persistRecord { record with pendingRevision := some (plan.pending entropy record candidateDigest) }
  removeUpdateJournal entropy.revisionId
  return ({ record }, { revisionId := entropy.revisionId, candidateDocument := plan.changes.document, candidateDigest })

/-- The changes of one publication state to another. -/
def transitionRecord (record : IdentityRecord) (revisionId : String) (expected next : PublicationState) :
    DidResult IdentityRecord := do
  let pending ← requiredPending record revisionId
  reject (pending.state ≠ expected) .invalidPublicationState
  let generation ← checkedSucc pending.generation
  .ok { record with pendingRevision := some { pending with state := next, generation } }

/-- Marks the first key with this kid as retired. -/
def retireKey (kid : String) : List KeyMetadata → List KeyMetadata
  | [] => []
  | key :: rest => if key.kid = kid then { key with state := .retired } :: rest else key :: retireKey kid rest

/-- Whether the publication state lets a commit go ahead. -/
def commitAllowed (pending : PendingRevisionRecord) (fromReconcile : Bool)
    (evidence : Option VerifiedDocumentEvidence) : Bool :=
  pending.state == .published ||
    (evidence.isSome && !fromReconcile && pending.state == .publicationInFlight) ||
    (fromReconcile && pending.state == .publicationUncertain)

/-- The checks that the evidence for a committed document has to pass. -/
def checkCommitEvidence (record : IdentityRecord) (candidate : Value) : Option VerifiedDocumentEvidence → DidResult Unit
  | none => .ok ()
  | some evidence => do
    validateVerifiedDocument anp candidate evidence
    let confirmation ← isInitialProofConfirmation record candidate evidence
    if confirmation then .ok () else validateCheckpointProgression record.checkpoint evidence

def committedRevision (record : IdentityRecord) : Option VerifiedDocumentEvidence → DidResult Nat
  | some evidence => .ok evidence.documentVersion
  | none => checkedSucc record.revision

def committedRegistryVersion (record : IdentityRecord) : Option VerifiedDocumentEvidence → DidResult Nat
  | some evidence => .ok evidence.registryVersion
  | none => checkedSucc ((record.checkpoint.map (·.registryVersion)).getD 0)

/-- The record that a commit of its pending revision leaves, before its generation is raised. -/
def commitRecord (record : IdentityRecord) (revisionId : String) (fromReconcile : Bool)
    (evidence : Option VerifiedDocumentEvidence) : DidResult IdentityRecord := do
  let pending ← requiredPending record revisionId
  reject (¬ commitAllowed pending fromReconcile evidence ∨ pending.parentRevision ≠ record.revision)
    .invalidPublicationState
  checkCommitEvidence anp record pending.candidateDocument evidence
  let record := { record with keys := pending.retiredKids.foldl (fun keys kid => retireKey kid keys) record.keys }
  let record := refreshCompatibleLocalProfiles anp record pending.candidateDocument
  let record ← record.observeDevices pending.candidateDocument
  let revision ← committedRevision record evidence
  let registryVersion ← committedRegistryVersion record evidence
  let documentDigest ← documentDigest anp pending.candidateDocument
  .ok { record with
        keys := record.keys ++ pending.newKeyMetadata
        document := pending.candidateDocument
        revision
        checkpoint := some { documentVersion := revision, registryVersion, documentDigest }
        pendingRevision := none
        initialPublicationPending := false }

/-- The document still has the keys that the identity acts with. -/
def checkLocalAuthorization (record : IdentityRecord) (document : Value) : DidResult Unit :=
  match record.localAuthorization, record.localRequestSigningKid with
  | some authorization, _ => localAuthorizationMatches anp record document authorization
  | none, some kid => requestSigningAuthorizationMatches anp record document kid
  | none, none => .ok ()

/-- The evidence that lets an uncertain publication be discarded: a verified document of the same
identity, past the current checkpoint, that still authorises the local keys. -/
def checkRejection (self : DidIdentity) (record : IdentityRecord) (observation : AdoptVerifiedDocumentSpec) :
    DidResult Unit := do
  validateVerifiedDocument anp observation.document observation.evidence
  reject (observation.document.getStr "id" ≠ some self.did) .invalidIdentity
  let fingerprint ← methodRootFingerprint anp observation.document
  reject (fingerprint ≠ record.rootKeyFingerprint) .rootKeyMismatch
  validateCheckpointProgression record.checkpoint observation.evidence
  checkLocalAuthorization anp record observation.document
  let base ← okOr record.checkpoint .conflict
  reject (observation.evidence.documentVersion = base.documentVersion ∧
    observation.evidence.registryVersion = base.registryVersion) .conflict

/-- A revision that was sent is discarded only if it is known to be rejected. -/
def checkAbort (self : DidIdentity) (record : IdentityRecord) (pending : PendingRevisionRecord)
    (rejection : Option AdoptVerifiedDocumentSpec) : DidResult Unit :=
  match rejection with
  | some observation => do
    reject (pending.state ≠ .publicationUncertain) .invalidPublicationState
    checkRejection anp self record observation
  | none => reject (pending.state ≠ .prepared) .invalidPublicationState

/-- The journal of a revision that is discarded. -/
def cleanupJournal (entropy : Entropy) (record : IdentityRecord) (pending : PendingRevisionRecord) : UpdateJournal where
  revisionId := pending.revisionId
  identityId := record.identityId
  secretRefs := pending.pendingSecretRefs
  kind := .cleanup
  createdAt := entropy.now

/-- Cleanup journal, record cleared, secrets deleted, journal removed: the record is cleared and the secrets
are deleted even if the call stops in between. -/
def discardPending (entropy : Entropy) (record : IdentityRecord) (pending : PendingRevisionRecord) (revisionId : String) :
    Tx DidIdentity := do
  writeUpdateJournal (cleanupJournal entropy record pending)
  let record ← persistRecord { record with pendingRevision := none }
  deleteSecrets pending.pendingSecretRefs
  removeUpdateJournal revisionId
  return { record }

def validateServices (services : List ServiceSpec) : DidResult Unit := services.forM ServiceSpec.validate

namespace DidIdentity

/-- The handle must show the record that is stored, and the identity be active. -/
def currentRecordForMutation (self : DidIdentity) : Tx IdentityRecord := do
  let record ← readIdentity anp self.identityId
  reject (record.generation ≠ self.record.generation ∨ record.state ≠ .active) .conflict
  return record

/-- Prepares a revision and stores its new keys. -/
def prepareUpdate (self : DidIdentity) (entropy : Entropy) (spec : DocumentUpdateSpec) :
    Tx (DidIdentity × PreparedUpdate) := do
  reject (spec.requestSigningRotation.isNone ∧ spec.requestSigningMutations.isEmpty ∧ spec.deviceMutations.isEmpty ∧
    spec.services.isNone) .unsupportedOperation
  validateServices (spec.services.getD [])
  let record ← self.currentRecordForMutation anp
  let s ← Program.get
  let plan ← planUpdate anp entropy s record spec
  commitPlan anp entropy record plan

/-- The publication state moves on if it is the expected one. -/
def transitionPublication (self : DidIdentity) (revisionId : String) (expected next : PublicationState) :
    Tx DidIdentity := do
  let record ← self.currentRecordForMutation anp
  let record ← transitionRecord record revisionId expected next
  let record ← persistRecord record
  return { record }

def beginPublication (self : DidIdentity) (revisionId : String) : Tx DidIdentity :=
  self.transitionPublication anp revisionId .prepared .publicationInFlight

def markPublicationUncertain (self : DidIdentity) (revisionId : String) : Tx DidIdentity :=
  self.transitionPublication anp revisionId .publicationInFlight .publicationUncertain

def rejectPublicationBeforeAcceptance (self : DidIdentity) (revisionId : String) : Tx DidIdentity :=
  self.transitionPublication anp revisionId .publicationInFlight .prepared

/-- The candidate becomes the document of the identity. -/
def commitPending (self : DidIdentity) (revisionId : String) (fromReconcile : Bool)
    (evidence : Option VerifiedDocumentEvidence) : Tx DidIdentity := do
  let record ← self.currentRecordForMutation anp
  let record ← commitRecord anp record revisionId fromReconcile evidence
  let record ← persistRecord record
  return { record }

def commitVerifiedUpdate (self : DidIdentity) (revisionId : String) (fromReconcile : Bool)
    (evidence : VerifiedDocumentEvidence) : Tx DidIdentity :=
  self.commitPending anp revisionId fromReconcile (some evidence)

/-- Compares the published document with the candidate and the current one. -/
def reconcileUpdate (self : DidIdentity) (revisionId : String) (observed : Value) :
    Tx (DidIdentity × ReconcileOutcome) := do
  let pending ← requiredPending self.record revisionId
  reject (pending.state ≠ .publicationUncertain) .invalidPublicationState
  reject (observed.getStr "id" ≠ some self.did ∨ ¬ (validateMethodDocument anp observed).isOk) .invalidIdentity
  let observedDigest ← canonicalDigest anp observed
  if observedDigest = pending.candidateDigest then do
    let self ← self.commitPending anp revisionId true none
    return (self, .committed)
  else do
    let currentDigest ← canonicalDigest anp self.record.document
    reject (observedDigest ≠ currentDigest) .conflict
    -- an old HTTPS document does not prove that a Web publication was rejected
    let profile ← DidProfile.forDid anp self.did
    if profile = .web then return (self, .remoteOld)
    else do
      let self ← self.transitionPublication anp revisionId .publicationUncertain .prepared
      return (self, .remoteOld)

def abortUpdateInner (self : DidIdentity) (entropy : Entropy) (revisionId : String)
    (rejection : Option AdoptVerifiedDocumentSpec) : Tx DidIdentity := do
  let record ← self.currentRecordForMutation anp
  let pending ← requiredPending record revisionId
  checkAbort anp self record pending rejection
  discardPending entropy record pending revisionId

/-- Discards a revision that was not published. -/
def abortUpdate (self : DidIdentity) (entropy : Entropy) (revisionId : String) : Tx DidIdentity :=
  self.abortUpdateInner anp entropy revisionId none

/-- Discards a revision when a later document shows that it was rejected. -/
def reconcileRejectedUpdate (self : DidIdentity) (entropy : Entropy) (revisionId : String)
    (observation : AdoptVerifiedDocumentSpec) : Tx DidIdentity :=
  self.abortUpdateInner anp entropy revisionId (some observation)

end DidIdentity

/-- The journalled revision is still the pending one of the record. -/
def IdentityRecord.Pends (record : IdentityRecord) (revisionId : String) : Prop :=
  ∃ pending, record.pendingRevision = some pending ∧ pending.revisionId = revisionId

instance (record : IdentityRecord) (revisionId : String) : Decidable (record.Pends revisionId) :=
  match h : record.pendingRevision with
  | none => isFalse (by rintro ⟨pending, found, -⟩; rw [h] at found; cases found)
  | some pending =>
    if same : pending.revisionId = revisionId then isTrue ⟨pending, h, same⟩
    else isFalse (by rintro ⟨other, found, equal⟩; rw [h] at found; cases found; exact same equal)

def recoverPrepare (record : IdentityRecord) (journal : UpdateJournal) : Tx Unit :=
  if record.Pends journal.revisionId then pure () else deleteSecrets journal.secretRefs

def recoverCleanup (record : IdentityRecord) (journal : UpdateJournal) : Tx Unit := do
  if record.Pends journal.revisionId then do
    let _ ← persistRecord { record with pendingRevision := none }
    deleteSecrets journal.secretRefs
  else deleteSecrets journal.secretRefs

def settleUpdate (record : IdentityRecord) (journal : UpdateJournal) : Tx Unit :=
  match journal.kind with
  | .prepare => recoverPrepare record journal
  | .cleanup => recoverCleanup record journal

/-- Finishes what an interrupted call left. -/
def recoverUpdateJournal (journal : UpdateJournal) : Tx Unit := do
  let record ← readIdentity anp journal.identityId
  settleUpdate record journal
  removeUpdateJournal journal.revisionId

def recoverUpdateJournalList : List UpdateJournal → Tx Unit
  | [] => pure ()
  | journal :: rest => do
    recoverUpdateJournal anp journal
    recoverUpdateJournalList rest

def recoverUpdateJournals : Tx Unit := do
  let journals ← listUpdateJournals
  recoverUpdateJournalList anp journals

end AnpIdentity
