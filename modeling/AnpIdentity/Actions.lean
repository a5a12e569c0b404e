import AnpIdentity.World

/-! What a call comes to. A call reads the store and decides; then it writes nothing, or it carries out one
action. Every claim about the writes of calls is a claim about these few actions. -/

namespace AnpIdentity
open Durable Program
variable (anp : Anp)

/-- A change to the record of an identity that is stored in one go. -/
inductive Edit where
  | moved (revisionId : String) (expected next : PublicationState)
  | committed (revisionId : String) (fromReconcile : Bool) (evidence : Option VerifiedDocumentEvidence)
  | adopted (spec : AdoptVerifiedDocumentSpec) (siblingOnly : Bool)
  | promoted (spec : RootPromotionSpec)
  | replayed (transfer : RootTransfer)

/-- Whether the summary in the registry is stored with the record, under a journal. -/
def Edit.journaled : Edit → Bool
  | .moved .. | .committed .. | .adopted _ true => false
  | .adopted _ false | .promoted _ | .replayed _ => true

inductive IdentityAction where
  | prepare (seen : IdentityRecord) (plan : UpdatePlan)
  | discard (seen : IdentityRecord) (pending : PendingRevisionRecord)
  | edit (change : Edit) (seen next : IdentityRecord)
  | importRoot (transfer : RootTransfer) (ref : SecretRef) (seen next : IdentityRecord)

namespace IdentityAction

/-- The record that the action was decided on. -/
def seen : IdentityAction → IdentityRecord
  | .prepare seen _ | .discard seen _ | .edit _ seen _ | .importRoot _ _ seen _ => seen

def execute (entropy : Entropy) : IdentityAction → Tx DidIdentity
  | .prepare seen plan => do
    let (self, _) ← commitPlan anp entropy seen plan
    return self
  | .discard seen pending => discardPending entropy seen pending pending.revisionId
  | .edit change _ next => do
    let record ← if change.journaled then persistStateTransition entropy next else persistRecord next
    return { record }
  | .importRoot transfer ref _ next => do
    let record ← commitRootImport anp entropy transfer ref next
    return { record }

end IdentityAction

/-- The record that a handle works on: read from the store, and of the generation that the handle has. -/
structure Current (s : Store) (handle : DidIdentity) (seen : IdentityRecord) : Prop where
  read : s.readIdentity anp handle.identityId = .ok seen
  generation : seen.generation = handle.record.generation

/-- The transfer that an envelope carries. -/
def WrappedRootEnvelope.transfer (envelope : WrappedRootEnvelope) (raw : Key32) (digest : String) : RootTransfer where
  rootKid := envelope.context.rootKid
  raw := raw
  nonce := envelope.nonce
  digest := digest
  expiresAt := envelope.context.expiresAt

def LegacyRootTransferImportSpec.transfer (spec : LegacyRootTransferImportSpec) (raw : Key32) (digest : String) :
    RootTransfer where
  rootKid := spec.evidence.rootKid
  raw := raw
  nonce := "legacy:" ++ spec.evidence.transferId
  digest := digest
  expiresAt := spec.evidence.acceptedAt

section
variable (s : Store) (self : DidIdentity) (entropy : Entropy)

def MovesPublication (revisionId : String) (expected state : PublicationState) (action : IdentityAction) : Prop :=
  ∃ seen next, Current anp s self seen ∧ seen.state = .active ∧ transitionRecord seen revisionId expected state = .ok next ∧
    action = .edit (.moved revisionId expected state) seen next

def CommitsRevision (revisionId : String) (fromReconcile : Bool) (evidence : Option VerifiedDocumentEvidence)
    (action : IdentityAction) : Prop :=
  ∃ seen next, Current anp s self seen ∧ seen.state = .active ∧
    commitRecord anp seen revisionId fromReconcile evidence = .ok next ∧
    action = .edit (.committed revisionId fromReconcile evidence) seen next

def DiscardsRevision (revisionId : String) (rejection : Option AdoptVerifiedDocumentSpec) (action : IdentityAction) : Prop :=
  ∃ seen pending, Current anp s self seen ∧ seen.state = .active ∧ requiredPending seen revisionId = .ok pending ∧
    checkAbort anp self seen pending rejection = .ok () ∧ action = .discard seen pending

def AdoptsDocument (spec : AdoptVerifiedDocumentSpec) (siblingOnly : Bool) (action : IdentityAction) : Prop :=
  ∃ seen outcome next, Current anp s self seen ∧ validateVerifiedDocument anp spec.document spec.evidence = .ok () ∧
    spec.document.getStr "id" = some self.did ∧ checkAdoption anp s self seen spec siblingOnly = .ok () ∧
    adoptRecord anp seen spec siblingOnly = .ok (outcome, some next) ∧
    action = .edit (.adopted spec siblingOnly) seen next

/-- A transfer that changes the record. -/
def ImportsTransfer (transfer : RootTransfer) (action : IdentityAction) : Prop :=
  ∃ seen, Current anp s self seen ∧
    ((∃ next, decideRootImport anp self entropy seen transfer = .ok (.replayed next) ∧
        action = .edit (.replayed transfer) seen next) ∨
      ∃ ref next, decideRootImport anp self entropy seen transfer = .ok (.imported ref next) ∧
        action = .importRoot transfer ref seen next)

/-- A transfer that the record knows already. -/
def KnowsTransfer (transfer : RootTransfer) : Prop :=
  ∃ seen entropy outcome, Current anp s self seen ∧ decideRootImport anp self entropy seen transfer = .ok (.done outcome)

/-- The action that a call on this store carries out, with what the call has checked before. -/
def IdentityCall.Starts : IdentityCall → IdentityAction → Prop
  | .prepareUpdate spec, action => ∃ seen plan, Current anp s self seen ∧ seen.state = .active ∧
      planUpdate anp entropy s seen spec = .ok plan ∧ action = .prepare seen plan
  | .beginPublication revisionId, action =>
      MovesPublication anp s self revisionId .prepared .publicationInFlight action
  | .markPublicationUncertain revisionId, action =>
      MovesPublication anp s self revisionId .publicationInFlight .publicationUncertain action
  | .rejectPublicationBeforeAcceptance revisionId, action =>
      MovesPublication anp s self revisionId .publicationInFlight .prepared action
  | .commitVerifiedUpdate revisionId fromReconcile evidence, action =>
      CommitsRevision anp s self revisionId fromReconcile (some evidence) action
  | .reconcileUpdate revisionId observed, action => ∃ pending digest,
      requiredPending self.record revisionId = .ok pending ∧ pending.state = .publicationUncertain ∧
      canonicalDigest anp observed = .ok digest ∧
      (digest = pending.candidateDigest ∧ CommitsRevision anp s self revisionId true none action ∨
        canonicalDigest anp self.record.document = .ok digest ∧
          (∃ profile, DidProfile.forDid anp self.did = .ok profile ∧ profile ≠ .web) ∧
          MovesPublication anp s self revisionId .publicationUncertain .prepared action)
  | .abortUpdate revisionId, action => DiscardsRevision anp s self revisionId none action
  | .reconcileRejectedUpdate revisionId observation, action => DiscardsRevision anp s self revisionId (some observation) action
  | .adoptVerifiedDocument spec, action => AdoptsDocument anp s self spec false action
  | .adoptVerifiedSiblingDocument spec, action => AdoptsDocument anp s self spec true action
  | .importWrappedRoot envelope now, action => ∃ raw digest, digestSerialized anp (envelopeJson envelope) = .ok digest ∧
      validateWrappedEnvelope anp self envelope now (self.record.rootTransferReplays.any
        (fun replay => replay.nonce == envelope.nonce && replay.transferDigest == digest)) = .ok () ∧
      self.openEnvelope anp s envelope = .ok raw ∧
      ImportsTransfer anp s self entropy (envelope.transfer raw digest) action
  | .importLegacyRootTransfer spec, action => ∃ raw digest,
      validateLegacyEvidence anp self spec.evidence = .ok () ∧
      parsePrivateKey anp .rootControl spec.encoding spec.rootKey = .ok raw ∧
      digestSerialized anp (legacyEvidenceJson spec.evidence) = .ok digest ∧
      ImportsTransfer anp s self entropy (spec.transfer raw digest) action
  | .confirmRootPromotion spec, action => ∃ seen next fingerprint, Current anp s self seen ∧
      validateVerifiedDocument anp spec.document spec.evidence = .ok () ∧ spec.document.getStr "id" = some self.did ∧
      rootKeyFingerprint anp spec.document = .ok fingerprint ∧ some fingerprint = self.record.rootKeyFingerprint ∧
      promoteRecord seen spec = .ok (some next) ∧ action = .edit (.promoted spec) seen next
  | .reload, _ => False

/-- When a call succeeds without a write. A Web identity whose remote document is the old one stays as it is,
and the store is not read to find that out. -/
def IdentityCall.Rests : IdentityCall → Prop
  | .reconcileUpdate revisionId observed => DidProfile.forDid anp self.did = .ok .web ∧
      (∃ pending, requiredPending self.record revisionId = .ok pending ∧ pending.state = .publicationUncertain) ∧
      ∃ digest, canonicalDigest anp observed = .ok digest ∧ canonicalDigest anp self.record.document = .ok digest
  | .adoptVerifiedDocument _ | .adoptVerifiedSiblingDocument _ | .confirmRootPromotion _ => ∃ seen, Current anp s self seen
  | .importWrappedRoot envelope _ => ∃ raw digest, digestSerialized anp (envelopeJson envelope) = .ok digest ∧
      KnowsTransfer anp s self (envelope.transfer raw digest)
  | .importLegacyRootTransfer spec => ∃ raw digest, digestSerialized anp (legacyEvidenceJson spec.evidence) = .ok digest ∧
      KnowsTransfer anp s self (spec.transfer raw digest)
  | _ => False

end

/-! ## From calls to actions -/

section
variable {anp} {s : Store} {self : DidIdentity} {entropy : Entropy} {D : IdentityAction → Prop} {R : Prop}

/-- Run on `s`, the program is refused, has nothing to do, or carries out one of the actions. -/
inductive Acts (anp : Anp) (D : IdentityAction → Prop) (R : Prop) (entropy : Entropy) (self : DidIdentity)
    (p : Tx DidIdentity) (s : Store) : Prop
  | refused (e : DidError) (run : p s = ⟨[], .error e⟩)
  | idle (rests : R) (run : p s = ⟨[], .ok self⟩)
  | acts (action : IdentityAction) (started : D action) (run : p s = action.execute anp entropy s)

theorem currentRecordForMutation_issues {P : Write → Prop} : Issues P (self.currentRecordForMutation anp) :=
  .bind (readIdentity_issues anp _) (fun _ => .bind (.lift _) (fun _ => .pure _))

variable {seen : IdentityRecord}

theorem currentRecordForMutation_ok (returned : (self.currentRecordForMutation anp).result s = .ok seen) :
    Current anp s self seen ∧ seen.state = .active := by
  obtain ⟨found, read, rest, -⟩ := Issues.peel (readIdentity_issues anp _) returned
  obtain ⟨⟨⟩, checked, rest⟩ := result_bind rest
  cases rest
  have both : seen.generation = self.record.generation ∧ seen.state = .active := by simpa using checked
  exact ⟨⟨read, both.1⟩, both.2⟩

/-- What the checks of an adoption establish. -/
structure Adoptable (anp : Anp) (handle : DidIdentity) (seen : IdentityRecord) (spec : AdoptVerifiedDocumentSpec)
    (siblingOnly : Bool) : Prop where
  generation : seen.generation = handle.record.generation
  clear : seen.pendingRevision = none
  sibling : siblingOnly = true → seen.state = .active ∧ seen.rootCapability = .active
  progress : validateCheckpointProgression seen.checkpoint spec.evidence = .ok () ∨
    siblingOnly = false ∧ isInitialProofConfirmation seen spec.document spec.evidence = .ok true
  fingerprint : methodRootFingerprint anp spec.document = .ok seen.rootKeyFingerprint

theorem checkAdoption_ok {spec : AdoptVerifiedDocumentSpec} {siblingOnly : Bool}
    (checked : checkAdoption anp s self seen spec siblingOnly = .ok ()) : Adoptable anp self seen spec siblingOnly := by
  simp only [checkAdoption, except_bind_ok, reject_ok, ne_eq, not_not] at checked
  obtain ⟨-, generation, -, clear, -, sibling, -, -, rest⟩ := checked
  have nothing : seen.pendingRevision = none := by simpa using clear
  have both : siblingOnly = true → seen.state = .active ∧ seen.rootCapability = .active := by
    intro only
    simpa [only] using sibling
  cases siblingOnly with
  | true =>
    simp only [if_true, except_bind_ok, Except.ok.injEq, exists_eq_left', Bool.false_eq_true, if_false, reject_ok,
      not_not] at rest
    obtain ⟨_, progress, _, made, same⟩ := rest
    exact ⟨generation, nothing, both, .inl progress, same ▸ made⟩
  | false =>
    simp only [Bool.false_eq_true, if_false, except_bind_ok] at rest
    obtain ⟨confirmation, confirms, rest⟩ := rest
    cases confirmation with
    | true =>
      simp only [if_true, except_bind_ok, reject_ok, not_not] at rest
      obtain ⟨_, -, _, made, same⟩ := rest
      exact ⟨generation, nothing, both, .inr ⟨rfl, confirms⟩, same ▸ made⟩
    | false =>
      simp only [Bool.false_eq_true, if_false, except_bind_ok, reject_ok, not_not] at rest
      obtain ⟨_, progress, _, made, same⟩ := rest
      exact ⟨generation, nothing, both, .inl progress, same ▸ made⟩

/-- What the decision on a transfer establishes in every case. -/
structure Transferable (handle : DidIdentity) (seen : IdentityRecord) : Prop where
  generation : seen.generation = handle.record.generation
  active : seen.state = .active
  clear : seen.pendingRevision = none

theorem decideRootImport_ok {transfer : RootTransfer} {decision : RootImportDecision}
    (decided : decideRootImport anp self entropy seen transfer = .ok decision) : Transferable self seen := by
  unfold decideRootImport at decided
  obtain ⟨⟨⟩, first, rest⟩ := except_bind_ok.mp decided
  obtain ⟨⟨⟩, second, -⟩ := except_bind_ok.mp rest
  have both : seen.generation = self.record.generation ∧ seen.state = .active := by simpa using first
  exact ⟨both.1, both.2, by simpa using second⟩

end

/-! ## Calls on a store -/

inductive StoreAction where
  | introduce (did : String) (keys : List NewKey) (record : DidResult IdentityRecord)
  | create (spec : DidCreateSpec) (built : BuiltIdentity)
  | delete (did : String) (record : IdentityRecord)

def StoreAction.execute (entropy : Entropy) (registry : IdentityRegistry) : StoreAction → Tx (DidStore × Option DidIdentity)
  | .introduce did keys record => do
    let (self, opened) ← commitNewIdentity anp entropy registry did keys record
    return (self, some opened)
  | .create spec built => do
    let (self, opened) ← commitCreation anp entropy registry spec built
    return (self, some opened)
  | .delete did record => do
    let self ← deleteNamespace entropy registry did record
    return (self, none)

/-- The DID is new to a registry that has not changed since the handle saw it. -/
structure Registrable (s : Store) (handle : DidStore) (did : String) : Prop where
  generation : s.registry.generation = handle.registryGeneration
  absent : s.registry.identities did = none

/-- The record that a deletion removes. -/
structure Deletes (s : Store) (handle : DidStore) (did : String) (record : IdentityRecord) : Prop where
  generation : s.registry.generation = handle.registryGeneration
  registered : ∃ summary, s.registry.identities did = some summary ∧ s.readIdentity anp summary.identityId = .ok record
  named : record.did = did
  created : record.state ≠ .creating

section
variable (s : Store) (self : DidStore) (entropy : Entropy)

/-- An import of a verified document that names the DID. -/
def Imports (document : Value) (evidence : VerifiedDocumentEvidence) (did : String) (keys : List ImportedPrivateKey)
    (imported : List NewKey) : Prop :=
  validateVerifiedDocument anp document evidence = .ok () ∧ document.getStr "id" = some did ∧
    prepareImportedKeys anp did document keys = .ok imported

def StoreCall.Starts : StoreCall → StoreAction → Prop
  | .createIdentity spec, action => ∃ built, Registrable s self built.did ∧ s.transactions.entries = [] ∧
      buildIdentity anp entropy spec = .ok built ∧ action = .create spec built
  | .prepareEnrollment spec, action => ∃ did signingKid e2eeKid, Registrable s self did ∧
      validateEnrollmentSpec anp spec = .ok () ∧ spec.verifiedDocument.getStr "id" = some did ∧
      canonicalizeKid did spec.deviceSigningFragment = .ok signingKid ∧
      canonicalizeKid did spec.deviceE2eeFragment = .ok e2eeKid ∧ signingKid ≠ e2eeKid ∧
      anp.findVerificationMethod spec.verifiedDocument signingKid = none ∧
      anp.findVerificationMethod spec.verifiedDocument e2eeKid = none ∧
      action =
        let signing := enrollmentKey anp entropy 0 signingKid .deviceSigning
        let e2ee := enrollmentKey anp entropy 1 e2eeKid .e2eeAgreement
        .introduce did [signing, e2ee] (enrolledRecord anp entropy spec did signing e2ee)
  | .prepareRequestSigningEnrollment spec, action => ∃ did kid, Registrable s self did ∧
      validateVerifiedDocument anp spec.verifiedDocument spec.evidence = .ok () ∧
      spec.verifiedDocument.getStr "id" = some did ∧ canonicalizeKid did spec.fragment = .ok kid ∧
      anp.findVerificationMethod spec.verifiedDocument kid = none ∧
      action =
        let request := enrollmentKey anp entropy 0 kid .requestSigning
        .introduce did [request] (requestSigningEnrolledRecord anp entropy spec did request)
  | .importIdentity spec, action => ∃ did imported, Registrable s self did ∧
      Imports anp spec.verifiedDocument spec.evidence did spec.privateKeys imported ∧
      validateImportedRoles spec.verifiedDocument spec.capabilities imported = .ok () ∧
      action = .introduce did imported (importedRecord anp entropy spec did imported)
  | .importDeviceIdentity spec, action => ∃ did imported rootKid, Registrable s self did ∧
      Imports anp spec.verifiedDocument spec.evidence did [spec.signingKey, spec.e2eeKey] imported ∧
      (∀ key ∈ imported, key.role = .deviceSigning ∨ key.role = .e2eeAgreement) ∧
      rootKeyId spec.verifiedDocument = some rootKid ∧
      action = .introduce did imported (importedDeviceRecord anp entropy spec did rootKid imported)
  | .importRequestSigningIdentity spec, action => ∃ did imported request rootKid, Registrable s self did ∧
      Imports anp spec.verifiedDocument spec.evidence did [spec.privateKey] imported ∧ imported.getLast? = some request ∧
      request.role = .requestSigning ∧ rootKeyId spec.verifiedDocument = some rootKid ∧
      action = .introduce did [request] (importedRequestSigningRecord anp entropy spec did rootKid request)
  | .discardUnpublishedEnrollment did _ _, action
  | .deleteIdentityNamespace did _, action
  | .deleteIdentityNamespaceDiscardingPending did _, action => ∃ record, Deletes anp s self did record ∧
      action = .delete did record
  | .openIdentity _, _ | .reload, _ => False

end

/-- A handle that was opened on a store. -/
structure Opens (s : Store) (opened : DidIdentity) : Prop where
  created : opened.record.state ≠ .creating
  registered : s.registry.Names opened.did opened.identityId
  read : s.readIdentity anp opened.identityId = .ok opened.record

section
variable {anp} {s : Store} {self : DidStore} {entropy : Entropy} {D : StoreAction → Prop}

/-- Run on `s`, the program writes nothing, or it carries out one of the actions. -/
inductive StoreActs (anp : Anp) (D : StoreAction → Prop) (entropy : Entropy) (p : Tx (DidStore × Option DidIdentity))
    (s : Store) : Prop
  | silent (nothing : p.writes s = [])
      (opens : ∀ self opened, p.result s = .ok (self, some opened) → Opens anp s opened)
  | acts (action : StoreAction) (started : D action) (run : p s = action.execute anp entropy s.registry s)

end
end AnpIdentity
