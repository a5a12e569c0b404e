import AnpIdentity.Actions

/-! The decisions of calls. Before its first write a call only reads; what it decides on is a function of its input and of
the store, and the rest of the call carries the decision out. -/

namespace AnpIdentity
open Durable Program

section
variable {α β : Type} {s : Store}

variable {r : DidResult α}

theorem lift_bind {g : α → DidResult β} :
    (Program.lift (r >>= g) : Tx β) = Program.lift r >>= fun a => Program.lift (g a) := by
  cases r <;> rfl

theorem lift_congr {f g : α → Tx β} (same : ∀ a, f a s = g a s) : (Program.lift r >>= f) s = (Program.lift r >>= g) s :=
  bind_congr rfl (fun a _ => same a)

theorem lift_congr_ok {f g : α → Tx β} (same : ∀ a, r = .ok a → f a s = g a s) :
    (Program.lift r >>= f) s = (Program.lift r >>= g) s :=
  bind_congr rfl same

theorem get_bind {f : Store → Tx β} : (Program.get >>= f) s = f s s := rfl

theorem readRegistry_bind {f : IdentityRegistry → Tx β} : (readRegistry >>= f) s = f s.registry s := rfl

theorem readIdentity_lift {anp : Anp} {id : String} {f : IdentityRecord → Tx β} :
    (readIdentity anp id >>= f) s = (Program.lift (s.readIdentity anp id) >>= f) s := rfl

end

section
variable (anp : Anp) (s : Store) (self : DidIdentity) (entropy : Entropy)

/-- The record that a call may change. -/
def decideRecord : DidResult IdentityRecord := do
  let record ← s.readIdentity anp self.identityId
  reject (record.generation ≠ self.record.generation ∨ record.state ≠ .active) .conflict
  .ok record

def decideMove (revisionId : String) (expected state : PublicationState) : DidResult (Option IdentityAction) := do
  let seen ← decideRecord anp s self
  let next ← transitionRecord seen revisionId expected state
  .ok (some (.edit (.moved revisionId expected state) seen next))

def decideCommit (revisionId : String) (fromReconcile : Bool) (evidence : Option VerifiedDocumentEvidence) :
    DidResult (Option IdentityAction) := do
  let seen ← decideRecord anp s self
  let next ← commitRecord anp seen revisionId fromReconcile evidence
  .ok (some (.edit (.committed revisionId fromReconcile evidence) seen next))

def decideDiscard (revisionId : String) (rejection : Option AdoptVerifiedDocumentSpec) : DidResult (Option IdentityAction) := do
  let seen ← decideRecord anp s self
  let pending ← requiredPending seen revisionId
  checkAbort anp self seen pending rejection
  .ok (some (.discard seen pending))

def decideAdoption (spec : AdoptVerifiedDocumentSpec) (siblingOnly : Bool) : DidResult (Option IdentityAction) := do
  validateVerifiedDocument anp spec.document spec.evidence
  reject (spec.document.getStr "id" ≠ some self.did) .invalidIdentity
  let seen ← s.readIdentity anp self.identityId
  checkAdoption anp s self seen spec siblingOnly
  let (_, next) ← adoptRecord anp seen spec siblingOnly
  .ok (next.map (.edit (.adopted spec siblingOnly) seen))

def decideTransfer (transfer : RootTransfer) : DidResult (Option IdentityAction) := do
  let seen ← s.readIdentity anp self.identityId
  match ← decideRootImport anp self entropy seen transfer with
  | .done _ => .ok none
  | .replayed next => .ok (some (.edit (.replayed transfer) seen next))
  | .imported ref next => .ok (some (.importRoot transfer ref seen next))

/-- What a call on an identity decides on: an action, or that there is nothing to do. -/
def IdentityCall.decide : IdentityCall → DidResult (Option IdentityAction)
  | .prepareUpdate spec => do
    reject (spec.requestSigningRotation.isNone ∧ spec.requestSigningMutations.isEmpty ∧ spec.deviceMutations.isEmpty ∧
      spec.services.isNone) .unsupportedOperation
    validateServices (spec.services.getD [])
    let seen ← decideRecord anp s self
    let plan ← planUpdate anp entropy s seen spec
    .ok (some (.prepare seen plan))
  | .beginPublication revisionId => decideMove anp s self revisionId .prepared .publicationInFlight
  | .markPublicationUncertain revisionId => decideMove anp s self revisionId .publicationInFlight .publicationUncertain
  | .rejectPublicationBeforeAcceptance revisionId => decideMove anp s self revisionId .publicationInFlight .prepared
  | .commitVerifiedUpdate revisionId fromReconcile evidence => decideCommit anp s self revisionId fromReconcile (some evidence)
  | .reconcileUpdate revisionId observed => do
    let pending ← requiredPending self.record revisionId
    reject (pending.state ≠ .publicationUncertain) .invalidPublicationState
    reject (observed.getStr "id" ≠ some self.did ∨ ¬ (validateMethodDocument anp observed).isOk) .invalidIdentity
    let observedDigest ← canonicalDigest anp observed
    if observedDigest = pending.candidateDigest then decideCommit anp s self revisionId true none
    else do
      let currentDigest ← canonicalDigest anp self.record.document
      reject (observedDigest ≠ currentDigest) .conflict
      let profile ← DidProfile.forDid anp self.did
      if profile = .web then .ok none else decideMove anp s self revisionId .publicationUncertain .prepared
  | .abortUpdate revisionId => decideDiscard anp s self revisionId none
  | .reconcileRejectedUpdate revisionId observation => decideDiscard anp s self revisionId (some observation)
  | .adoptVerifiedDocument spec => decideAdoption anp s self spec false
  | .adoptVerifiedSiblingDocument spec => decideAdoption anp s self spec true
  | .importWrappedRoot envelope now => do
    let digest ← digestSerialized anp (envelopeJson envelope)
    validateWrappedEnvelope anp self envelope now (self.record.rootTransferReplays.any
      (fun replay => replay.nonce == envelope.nonce && replay.transferDigest == digest))
    let raw ← self.openEnvelope anp s envelope
    decideTransfer anp s self entropy (envelope.transfer raw digest)
  | .importLegacyRootTransfer spec => do
    validateLegacyEvidence anp self spec.evidence
    let raw ← parsePrivateKey anp .rootControl spec.encoding spec.rootKey
    let digest ← digestSerialized anp (legacyEvidenceJson spec.evidence)
    decideTransfer anp s self entropy (spec.transfer raw digest)
  | .confirmRootPromotion spec => do
    validateVerifiedDocument anp spec.document spec.evidence
    reject (spec.document.getStr "id" ≠ some self.did) .invalidRootTransfer
    let fingerprint ← rootKeyFingerprint anp spec.document
    reject (some fingerprint ≠ self.record.rootKeyFingerprint) .invalidRootTransfer
    let seen ← s.readIdentity anp self.identityId
    reject (seen.generation ≠ self.record.generation) .conflict
    let next ← promoteRecord seen spec
    .ok (next.map (.edit (.promoted spec) seen))
  | .reload => .ok none

/-- Carries a decision on an identity out. -/
def carryOut : Option IdentityAction → Tx DidIdentity
  | some action => action.execute anp entropy
  | none => return self

end

section
variable {anp : Anp} {s : Store} {self : DidIdentity} {entropy : Entropy}

private theorem currentRecord_lift {β : Type} {f : IdentityRecord → Tx β} :
    (self.currentRecordForMutation anp >>= f) s = (Program.lift (decideRecord anp s self) >>= f) s := by
  unfold DidIdentity.currentRecordForMutation decideRecord
  simp only [bind_assoc, liftM_eq, lift_bind]
  rw [readIdentity_lift]
  refine lift_congr (fun record => lift_congr (fun _ => ?_))
  rfl

private theorem transitionPublication_decided (revisionId : String) (expected state : PublicationState) :
    (self.transitionPublication anp revisionId expected state) s =
      (Program.lift (decideMove anp s self revisionId expected state) >>= carryOut anp self entropy) s := by
  unfold DidIdentity.transitionPublication decideMove
  simp only [bind_assoc, liftM_eq, lift_bind]
  rw [currentRecord_lift]
  exact lift_congr (fun seen => lift_congr (fun next => rfl))

private theorem commitPending_decided (revisionId : String) (fromReconcile : Bool) (evidence : Option VerifiedDocumentEvidence) :
    (self.commitPending anp revisionId fromReconcile evidence) s =
      (Program.lift (decideCommit anp s self revisionId fromReconcile evidence) >>= carryOut anp self entropy) s := by
  unfold DidIdentity.commitPending decideCommit
  simp only [bind_assoc, liftM_eq, lift_bind]
  rw [currentRecord_lift]
  exact lift_congr (fun seen => lift_congr (fun next => rfl))

theorem requiredPending_revisionId {record : IdentityRecord} {revisionId : String} {pending : PendingRevisionRecord}
    (found : requiredPending record revisionId = .ok pending) : pending.revisionId = revisionId := by
  have filtered := okOr_ok.mp found
  simpa using (Option.filter_eq_some_iff.mp filtered).2

private theorem abortUpdateInner_decided (revisionId : String) (rejection : Option AdoptVerifiedDocumentSpec) :
    (self.abortUpdateInner anp entropy revisionId rejection) s =
      (Program.lift (decideDiscard anp s self revisionId rejection) >>= carryOut anp self entropy) s := by
  unfold DidIdentity.abortUpdateInner decideDiscard
  simp only [bind_assoc, liftM_eq, lift_bind]
  rw [currentRecord_lift]
  refine lift_congr (fun seen => lift_congr_ok (fun pending found => lift_congr (fun _ => ?_)))
  rw [← requiredPending_revisionId found]
  rfl

private theorem adoptVerifiedDocumentInner_decided (spec : AdoptVerifiedDocumentSpec) (siblingOnly : Bool) :
    (self.adoptVerifiedDocumentInner anp entropy spec siblingOnly >>= fun (self, _) => Pure.pure self) s =
      (Program.lift (decideAdoption anp s self spec siblingOnly) >>= carryOut anp self entropy) s := by
  unfold DidIdentity.adoptVerifiedDocumentInner decideAdoption
  simp only [bind_assoc, liftM_eq, lift_bind]
  refine lift_congr (fun _ => lift_congr (fun _ => ?_))
  rw [readIdentity_lift]
  refine lift_congr (fun seen => ?_)
  rw [get_bind]
  refine lift_congr (fun _ => lift_congr (fun result => ?_))
  obtain ⟨outcome, next⟩ := result
  cases next with
  | none => rfl
  | some next => cases siblingOnly <;> simp [carryOut, IdentityAction.execute, Edit.journaled]

private theorem commitPendingRoot_decided (transfer : RootTransfer) :
    (self.commitPendingRoot anp entropy transfer >>= fun (self, _) => Pure.pure self) s =
      (Program.lift (decideTransfer anp s self entropy transfer) >>= carryOut anp self entropy) s := by
  unfold DidIdentity.commitPendingRoot decideTransfer
  simp only [bind_assoc, liftM_eq, lift_bind]
  rw [readIdentity_lift]
  refine lift_congr (fun seen => lift_congr (fun decision => ?_))
  cases decision <;> simp [carryOut, IdentityAction.execute, Edit.journaled]

private theorem reconcileUpdate_decided (revisionId : String) (observed : Value) :
    (self.reconcileUpdate anp revisionId observed >>= fun (self, _) => Pure.pure self) s =
      (Program.lift (IdentityCall.decide anp s self entropy (.reconcileUpdate revisionId observed)) >>=
        carryOut anp self entropy) s := by
  unfold DidIdentity.reconcileUpdate IdentityCall.decide
  simp only [bind_assoc, liftM_eq, lift_bind]
  iterate 4 refine lift_congr (fun _ => ?_)
  split
  · simp only [bind_assoc, pure_bind, bind_pure]
    exact commitPending_decided revisionId true none
  · simp only [bind_assoc, lift_bind]
    iterate 3 refine lift_congr (fun _ => ?_)
    split
    · rfl
    · simp only [bind_assoc, pure_bind, bind_pure]
      exact transitionPublication_decided revisionId .publicationUncertain .prepared

/-- A call on an identity decides, and then carries the decision out. -/
theorem identityCall_decided (call : IdentityCall) (calls : call ≠ .reload) :
    call.run anp self entropy s = (Program.lift (call.decide anp s self entropy) >>= carryOut anp self entropy) s := by
  cases call with
  | prepareUpdate spec =>
    unfold IdentityCall.run DidIdentity.prepareUpdate IdentityCall.decide
    simp only [bind_assoc, liftM_eq, lift_bind]
    refine lift_congr (fun _ => lift_congr (fun _ => ?_))
    rw [currentRecord_lift]
    refine lift_congr (fun seen => ?_)
    rw [get_bind]
    exact lift_congr (fun plan => rfl)
  | beginPublication revisionId => exact transitionPublication_decided revisionId _ _
  | markPublicationUncertain revisionId => exact transitionPublication_decided revisionId _ _
  | rejectPublicationBeforeAcceptance revisionId => exact transitionPublication_decided revisionId _ _
  | commitVerifiedUpdate revisionId fromReconcile evidence => exact commitPending_decided revisionId fromReconcile (some evidence)
  | reconcileUpdate revisionId observed => exact reconcileUpdate_decided revisionId observed
  | abortUpdate revisionId => exact abortUpdateInner_decided revisionId none
  | reconcileRejectedUpdate revisionId observation => exact abortUpdateInner_decided revisionId (some observation)
  | adoptVerifiedDocument spec => exact adoptVerifiedDocumentInner_decided spec false
  | adoptVerifiedSiblingDocument spec => exact adoptVerifiedDocumentInner_decided spec true
  | importWrappedRoot envelope now =>
    unfold IdentityCall.run DidIdentity.importWrappedRoot IdentityCall.decide
    simp only [bind_assoc, liftM_eq, lift_bind]
    refine lift_congr (fun digest => lift_congr (fun _ => ?_))
    rw [get_bind]
    exact lift_congr (fun raw => commitPendingRoot_decided (envelope.transfer raw digest))
  | importLegacyRootTransfer spec =>
    unfold IdentityCall.run DidIdentity.importLegacyRootTransfer IdentityCall.decide
    simp only [bind_assoc, liftM_eq, lift_bind]
    refine lift_congr (fun _ => lift_congr (fun raw => lift_congr (fun digest => ?_)))
    exact commitPendingRoot_decided (spec.transfer raw digest)
  | confirmRootPromotion spec =>
    unfold IdentityCall.run DidIdentity.confirmRootPromotion IdentityCall.decide
    simp only [bind_assoc, liftM_eq, lift_bind]
    iterate 4 refine lift_congr (fun _ => ?_)
    rw [readIdentity_lift]
    refine lift_congr (fun seen => lift_congr (fun _ => lift_congr (fun next => ?_)))
    cases next <;> rfl
  | reload => exact absurd rfl calls

end

/-! ## Calls on a store -/

section
variable (anp : Anp) (s : Store) (self : DidStore) (entropy : Entropy)

/-- Registers a DID that the registry does not have yet. -/
def decideNew (did : String) (keys : List NewKey) (record : DidResult IdentityRecord) : DidResult (Option StoreAction) := do
  reject (s.registry.generation ≠ self.registryGeneration) .conflict
  reject (s.registry.identities did).isSome .duplicateIdentity
  .ok (some (.introduce did keys record))

def decideDeletion (did : String) (expectedGeneration : Nat) (discardPendingChanges : Bool) : DidResult (Option StoreAction) :=
  if expectedGeneration ≠ self.registryGeneration ∨ s.registry.generation ≠ expectedGeneration then do
    reject ((s.registry.identities did).isSome ∨ s.registry.generation ≠ saturatingSucc expectedGeneration) .conflict
    .ok none
  else do
    let summary ← okOr (s.registry.identities did) .identityNotFound
    let record ← s.readIdentity anp summary.identityId
    reject (record.did ≠ did ∨ record.state = .creating ∨ (¬ discardPendingChanges ∧ record.hasPendingChange))
      .invalidPublicationState
    .ok (some (.delete did record))

/-- What a call on a store decides on: an action, or that there is nothing to write. -/
def StoreCall.decide : StoreCall → DidResult (Option StoreAction)
  | .createIdentity spec => do
    reject (s.registry.generation ≠ self.registryGeneration) .conflict
    reject (¬ s.transactions.entries.isEmpty) .conflict
    let built ← buildIdentity anp entropy spec
    reject (s.registry.identities built.did).isSome .duplicateIdentity
    .ok (some (.create spec built))
  | .prepareEnrollment spec => do
    validateEnrollmentSpec anp spec
    let did ← okOr (spec.verifiedDocument.getStr "id") .invalidIdentity
    let signingKid ← canonicalizeKid did spec.deviceSigningFragment
    let e2eeKid ← canonicalizeKid did spec.deviceE2eeFragment
    reject (signingKid = e2eeKid ∨ (anp.findVerificationMethod spec.verifiedDocument signingKid).isSome ∨
      (anp.findVerificationMethod spec.verifiedDocument e2eeKid).isSome) .duplicateKid
    let signing := enrollmentKey anp entropy 0 signingKid .deviceSigning
    let e2ee := enrollmentKey anp entropy 1 e2eeKid .e2eeAgreement
    decideNew s self did [signing, e2ee] (enrolledRecord anp entropy spec did signing e2ee)
  | .prepareRequestSigningEnrollment spec => do
    validateVerifiedDocument anp spec.verifiedDocument spec.evidence
    validateFragment spec.fragment
    let did ← okOr (spec.verifiedDocument.getStr "id") .invalidIdentity
    let kid ← canonicalizeKid did spec.fragment
    reject (anp.findVerificationMethod spec.verifiedDocument kid).isSome .duplicateKid
    let request := enrollmentKey anp entropy 0 kid .requestSigning
    decideNew s self did [request] (requestSigningEnrolledRecord anp entropy spec did request)
  | .importIdentity spec => do
    validateVerifiedDocument anp spec.verifiedDocument spec.evidence
    let did ← okOr (spec.verifiedDocument.getStr "id") .invalidIdentity
    let imported ← prepareImportedKeys anp did spec.verifiedDocument spec.privateKeys
    validateImportedRoles spec.verifiedDocument spec.capabilities imported
    decideNew s self did imported (importedRecord anp entropy spec did imported)
  | .importDeviceIdentity spec => do
    validateVerifiedDocument anp spec.verifiedDocument spec.evidence
    let did ← okOr (spec.verifiedDocument.getStr "id") .invalidIdentity
    let imported ← prepareImportedKeys anp did spec.verifiedDocument [spec.signingKey, spec.e2eeKey]
    let signing ← okOr (imported.find? (·.role == .deviceSigning)) .keyRoleViolation
    let e2ee ← okOr (imported.find? (·.role == .e2eeAgreement)) .keyRoleViolation
    reject (imported.length ≠ 2 ∨ signing.kid = e2ee.kid ∨
      ¬ anp.isAuthenticationAuthorized spec.verifiedDocument signing.kid ∨
      ¬ anp.isAssertionMethodAuthorized spec.verifiedDocument signing.kid) .keyRoleViolation
    let rootKid ← okOr (rootKeyId spec.verifiedDocument) .invalidIdentity
    decideNew s self did imported (importedDeviceRecord anp entropy spec did rootKid imported)
  | .importRequestSigningIdentity spec => do
    validateVerifiedDocument anp spec.verifiedDocument spec.evidence
    let did ← okOr (spec.verifiedDocument.getStr "id") .invalidIdentity
    let imported ← prepareImportedKeys anp did spec.verifiedDocument [spec.privateKey]
    let request ← okOr imported.getLast? .keyNotFound
    reject (request.role ≠ .requestSigning ∨ ¬ anp.isAuthenticationAuthorized spec.verifiedDocument request.kid ∨
      anp.isAssertionMethodAuthorized spec.verifiedDocument request.kid) .keyRoleViolation
    let rootKid ← okOr (rootKeyId spec.verifiedDocument) .invalidIdentity
    decideNew s self did [request] (importedRequestSigningRecord anp entropy spec did rootKid request)
  | .discardUnpublishedEnrollment did expectedIdentityId expectedGeneration => do
    reject (expectedGeneration ≠ self.registryGeneration ∨ s.registry.generation ≠ expectedGeneration) .conflict
    let summary ← okOr (s.registry.identities did) .identityNotFound
    let record ← s.readIdentity anp summary.identityId
    reject (record.identityId ≠ expectedIdentityId ∨ record.did ≠ did ∨ record.state ≠ .enrolling ∨
      ¬ (record.pendingEnrollment.isSome ^^ record.pendingRequestSigning.isSome) ∨ record.pendingRevision.isSome ∨
      record.pendingRootTransfer.isSome ∨ record.rootCapability ≠ .absent) .invalidPublicationState
    .ok (some (.delete did record))
  | .deleteIdentityNamespace did expectedGeneration => decideDeletion anp s self did expectedGeneration false
  | .deleteIdentityNamespaceDiscardingPending did expectedGeneration => decideDeletion anp s self did expectedGeneration true
  | .openIdentity _ | .reload => .ok none

/-- Carries a decision on a store out. -/
def carryOutStore : Option StoreAction → Tx (DidStore × Option DidIdentity)
  | some action => action.execute anp entropy s.registry
  | none => return ({ registryGeneration := s.registry.generation }, none)

end

section
variable {anp : Anp} {s : Store} {self : DidStore} {entropy : Entropy}

private theorem registryForNew_lift {β : Type} {did : String} {f : IdentityRegistry → Tx β} :
    (self.registryForNew did >>= f) s =
      (Program.lift (reject (s.registry.generation ≠ self.registryGeneration) .conflict) >>= fun _ =>
        Program.lift (reject (s.registry.identities did).isSome .duplicateIdentity) >>= fun _ => f s.registry) s := by
  unfold DidStore.registryForNew DidStore.currentRegistry
  simp only [bind_assoc, liftM_eq, pure_bind]
  rfl

private theorem registerNew_decided {did : String} {keys : List NewKey} {record : DidResult IdentityRecord} :
    (self.registryForNew did >>= fun registry => commitNewIdentity anp entropy registry did keys record >>=
        fun (self, opened) => Pure.pure (self, some opened)) s =
      (Program.lift (decideNew s self did keys record) >>= carryOutStore anp s entropy) s := by
  unfold decideNew
  simp only [bind_assoc, lift_bind]
  rw [registryForNew_lift]
  rfl

private theorem deleteIdentityNamespaceInner_decided (did : String) (expectedGeneration : Nat) (discardPendingChanges : Bool) :
    (self.deleteIdentityNamespaceInner anp entropy did expectedGeneration discardPendingChanges >>=
        fun self => Pure.pure (self, none)) s =
      (Program.lift (decideDeletion anp s self did expectedGeneration discardPendingChanges) >>= carryOutStore anp s entropy) s := by
  unfold DidStore.deleteIdentityNamespaceInner decideDeletion
  rw [bind_assoc, readRegistry_bind]
  split
  · simp only [bind_assoc, liftM_eq, lift_bind]
    rfl
  · simp only [bind_assoc, liftM_eq, lift_bind]
    refine lift_congr (fun summary => ?_)
    rw [readIdentity_lift]
    exact lift_congr (fun record => lift_congr (fun _ => rfl))

/-- A call on a store decides, and then carries the decision out. -/
theorem storeCall_decided (call : StoreCall) (calls : call ≠ .reload) (decides : ∀ did, call ≠ .openIdentity did) :
    call.run anp self entropy s = (Program.lift (call.decide anp s self entropy) >>= carryOutStore anp s entropy) s := by
  cases call with
  | createIdentity spec =>
    unfold StoreCall.run DidStore.createIdentity DidStore.currentRegistry StoreCall.decide
    simp only [bind_assoc, liftM_eq, lift_bind, pure_bind]
    rw [readRegistry_bind]
    refine lift_congr (fun _ => ?_)
    exact lift_congr (fun _ => lift_congr (fun built => lift_congr (fun _ => rfl)))
  | prepareEnrollment spec =>
    unfold StoreCall.run DidStore.prepareEnrollment StoreCall.decide
    simp only [bind_assoc, liftM_eq, lift_bind]
    iterate 5 refine lift_congr (fun _ => ?_)
    exact registerNew_decided
  | prepareRequestSigningEnrollment spec =>
    unfold StoreCall.run DidStore.prepareRequestSigningEnrollment StoreCall.decide
    simp only [bind_assoc, liftM_eq, lift_bind]
    iterate 5 refine lift_congr (fun _ => ?_)
    exact registerNew_decided
  | importIdentity spec =>
    unfold StoreCall.run DidStore.importIdentity StoreCall.decide
    simp only [bind_assoc, liftM_eq, lift_bind]
    iterate 4 refine lift_congr (fun _ => ?_)
    exact registerNew_decided
  | importDeviceIdentity spec =>
    unfold StoreCall.run DidStore.importDeviceIdentity StoreCall.decide
    simp only [bind_assoc, liftM_eq, lift_bind]
    iterate 7 refine lift_congr (fun _ => ?_)
    exact registerNew_decided
  | importRequestSigningIdentity spec =>
    unfold StoreCall.run DidStore.importRequestSigningIdentity StoreCall.decide
    simp only [bind_assoc, liftM_eq, lift_bind]
    iterate 6 refine lift_congr (fun _ => ?_)
    exact registerNew_decided
  | discardUnpublishedEnrollment did identityId generation =>
    unfold StoreCall.run DidStore.discardUnpublishedEnrollment StoreCall.decide
    simp only [bind_assoc, liftM_eq, lift_bind]
    rw [readRegistry_bind]
    refine lift_congr (fun _ => lift_congr (fun summary => ?_))
    rw [readIdentity_lift]
    exact lift_congr (fun record => lift_congr (fun _ => rfl))
  | deleteIdentityNamespace did generation => exact deleteIdentityNamespaceInner_decided did generation false
  | deleteIdentityNamespaceDiscardingPending did generation => exact deleteIdentityNamespaceInner_decided did generation true
  | openIdentity did => exact absurd rfl (decides did)
  | reload => exact absurd rfl calls

end

/-! ## What a decision establishes -/

section
variable {anp : Anp} {s : Store} {self : DidIdentity} {entropy : Entropy} {action : IdentityAction}

theorem decideRecord_ok {seen : IdentityRecord} :
    decideRecord anp s self = .ok seen ↔ Current anp s self seen ∧ seen.state = .active := by
  simp only [decideRecord, except_bind_ok, reject_ok, not_or, ne_eq, not_not, Except.ok.injEq]
  constructor
  · rintro ⟨record, read, ⟨⟩, ⟨generation, active⟩, rfl⟩
    exact ⟨⟨read, generation⟩, active⟩
  · rintro ⟨⟨read, generation⟩, active⟩
    exact ⟨seen, read, (), ⟨generation, active⟩, rfl⟩

variable {revisionId : String} {decision : Option IdentityAction}

private theorem decideMove_ok {expected state : PublicationState}
    (decided : decideMove anp s self revisionId expected state = .ok decision) :
    ∃ action, decision = some action ∧ MovesPublication anp s self revisionId expected state action := by
  simp only [decideMove, except_bind_ok, decideRecord_ok, Except.ok.injEq] at decided
  obtain ⟨seen, ⟨current, active⟩, next, made, rfl⟩ := decided
  exact ⟨_, rfl, seen, next, current, active, made, rfl⟩

private theorem decideCommit_ok {fromReconcile : Bool} {evidence : Option VerifiedDocumentEvidence}
    (decided : decideCommit anp s self revisionId fromReconcile evidence = .ok decision) :
    ∃ action, decision = some action ∧ CommitsRevision anp s self revisionId fromReconcile evidence action := by
  simp only [decideCommit, except_bind_ok, decideRecord_ok, Except.ok.injEq] at decided
  obtain ⟨seen, ⟨current, active⟩, next, made, rfl⟩ := decided
  exact ⟨_, rfl, seen, next, current, active, made, rfl⟩

private theorem decideDiscard_ok {rejection : Option AdoptVerifiedDocumentSpec}
    (decided : decideDiscard anp s self revisionId rejection = .ok decision) :
    ∃ action, decision = some action ∧ DiscardsRevision anp s self revisionId rejection action := by
  simp only [decideDiscard, except_bind_ok, decideRecord_ok, Except.ok.injEq] at decided
  obtain ⟨seen, ⟨current, active⟩, pending, found, ⟨⟩, checked, rfl⟩ := decided
  exact ⟨_, rfl, seen, pending, current, active, found, checked, rfl⟩

private theorem decideAdoption_ok {spec : AdoptVerifiedDocumentSpec} {siblingOnly : Bool}
    (decided : decideAdoption anp s self spec siblingOnly = .ok decision) :
    (∃ seen, Current anp s self seen) ∧ ∀ action, decision = some action → AdoptsDocument anp s self spec siblingOnly action := by
  simp only [decideAdoption, except_bind_ok, reject_ok, ne_eq, not_not] at decided
  obtain ⟨⟨⟩, valid, ⟨⟩, named, seen, read, ⟨⟩, checked, ⟨outcome, next⟩, adopted, same⟩ := decided
  cases same
  have current : Current anp s self seen := ⟨read, (checkAdoption_ok checked).generation⟩
  refine ⟨⟨seen, current⟩, fun action same => ?_⟩
  obtain ⟨record, rfl, rfl⟩ := Option.map_eq_some_iff.mp same
  exact ⟨seen, outcome, record, current, valid, named, checked, adopted, rfl⟩

private theorem decideTransfer_ok {transfer : RootTransfer}
    (decided : decideTransfer anp s self entropy transfer = .ok decision) :
    (decision = none → KnowsTransfer anp s self transfer) ∧
      ∀ action, decision = some action → ImportsTransfer anp s self entropy transfer action := by
  simp only [decideTransfer, except_bind_ok] at decided
  obtain ⟨seen, read, choice, chosen, same⟩ := decided
  have current : Current anp s self seen := ⟨read, (decideRootImport_ok chosen).generation⟩
  cases choice with
  | done outcome =>
    cases same
    exact ⟨fun _ => ⟨seen, entropy, outcome, current, chosen⟩, by simp⟩
  | replayed next =>
    cases same
    refine ⟨by simp, ?_⟩
    rintro _ ⟨⟩
    exact ⟨seen, current, .inl ⟨next, chosen, rfl⟩⟩
  | imported ref next =>
    cases same
    refine ⟨by simp, ?_⟩
    rintro _ ⟨⟩
    exact ⟨seen, current, .inr ⟨ref, next, chosen, rfl⟩⟩

private theorem reconcileUpdate_ok {observed : Value}
    (decided : IdentityCall.decide anp s self entropy (.reconcileUpdate revisionId observed) = .ok decision) :
    (decision = none → IdentityCall.Rests anp s self (.reconcileUpdate revisionId observed)) ∧
      ∀ action, decision = some action → IdentityCall.Starts anp s self entropy (.reconcileUpdate revisionId observed) action := by
  simp only [IdentityCall.decide, except_bind_ok, reject_ok, ne_eq, not_not] at decided
  obtain ⟨pending, found, ⟨⟩, uncertain, ⟨⟩, -, digest, observes, decided⟩ := decided
  split at decided
  · rename_i candidate
    obtain ⟨action, rfl, commits⟩ := decideCommit_ok decided
    refine ⟨by simp, ?_⟩
    rintro _ ⟨⟩
    exact ⟨pending, digest, found, uncertain, observes, .inl ⟨candidate, commits⟩⟩
  simp only [except_bind_ok, reject_ok, not_not] at decided
  obtain ⟨current, shown, ⟨⟩, rfl, profile, known, decided⟩ := decided
  split at decided
  · rename_i web
    cases decided
    exact ⟨fun _ => ⟨web ▸ known, ⟨pending, found, uncertain⟩, digest, observes, shown⟩, by simp⟩
  · rename_i web
    obtain ⟨action, rfl, moves⟩ := decideMove_ok decided
    refine ⟨by simp, ?_⟩
    rintro _ ⟨⟩
    exact ⟨pending, digest, found, uncertain, observes, .inr ⟨shown, ⟨profile, known, web⟩, moves⟩⟩

/-- An action that is decided on is one that the call starts, and without one the call may rest. -/
theorem IdentityCall.decide_ok {call : IdentityCall} (calls : call ≠ .reload)
    (decided : call.decide anp s self entropy = .ok decision) :
    (decision = none → call.Rests anp s self) ∧ ∀ action, decision = some action → call.Starts anp s self entropy action := by
  have always {D : IdentityAction → Prop} {R : Prop} (found : ∃ action, decision = some action ∧ D action) :
      (decision = none → R) ∧ ∀ action, decision = some action → D action := by
    obtain ⟨action, rfl, holds⟩ := found
    exact ⟨by simp, by rintro _ ⟨⟩; exact holds⟩
  cases call with
  | prepareUpdate spec =>
    simp only [IdentityCall.decide, except_bind_ok, decideRecord_ok, Except.ok.injEq] at decided
    obtain ⟨⟨⟩, -, ⟨⟩, -, seen, ⟨current, active⟩, plan, planned, rfl⟩ := decided
    exact always ⟨_, rfl, seen, plan, current, active, planned, rfl⟩
  | beginPublication revisionId => exact always (decideMove_ok decided)
  | markPublicationUncertain revisionId => exact always (decideMove_ok decided)
  | rejectPublicationBeforeAcceptance revisionId => exact always (decideMove_ok decided)
  | commitVerifiedUpdate revisionId fromReconcile evidence => exact always (decideCommit_ok decided)
  | reconcileUpdate revisionId observed => exact reconcileUpdate_ok decided
  | abortUpdate revisionId | reconcileRejectedUpdate revisionId observation => exact always (decideDiscard_ok decided)
  | adoptVerifiedDocument spec => exact (decideAdoption_ok decided).imp_left (fun current _ => current)
  | adoptVerifiedSiblingDocument spec => exact (decideAdoption_ok decided).imp_left (fun current _ => current)
  | importWrappedRoot envelope now =>
    simp only [IdentityCall.decide, except_bind_ok] at decided
    obtain ⟨digest, hashed, ⟨⟩, valid, raw, opened, decided⟩ := decided
    obtain ⟨known, imports⟩ := decideTransfer_ok decided
    exact ⟨fun nothing => ⟨raw, digest, hashed, known nothing⟩,
      fun action same => ⟨raw, digest, hashed, valid, opened, imports action same⟩⟩
  | importLegacyRootTransfer spec =>
    simp only [IdentityCall.decide, except_bind_ok] at decided
    obtain ⟨⟨⟩, valid, raw, parsed, digest, hashed, decided⟩ := decided
    obtain ⟨known, imports⟩ := decideTransfer_ok decided
    exact ⟨fun nothing => ⟨raw, digest, hashed, known nothing⟩,
      fun action same => ⟨raw, digest, valid, parsed, hashed, imports action same⟩⟩
  | confirmRootPromotion spec =>
    simp only [IdentityCall.decide, except_bind_ok, reject_ok, ne_eq, not_not] at decided
    obtain ⟨⟨⟩, valid, ⟨⟩, named, fingerprint, shown, ⟨⟩, same, seen, read, ⟨⟩, generation, next, promoted, decided⟩ := decided
    cases decided
    have current : Current anp s self seen := ⟨read, generation⟩
    refine ⟨fun _ => ⟨seen, current⟩, fun action made => ?_⟩
    obtain ⟨record, rfl, rfl⟩ := Option.map_eq_some_iff.mp made
    exact ⟨seen, record, fingerprint, current, valid, named, shown, same, promoted, rfl⟩
  | reload => exact absurd rfl calls

/-- Every call on an identity but `reload` is refused, rests or carries out one action. -/
theorem identityCall_acts (call : IdentityCall) (calls : call ≠ .reload) :
    Acts anp (call.Starts anp s self entropy) (call.Rests anp s self) entropy self (call.run anp self entropy) s := by
  have run : call.run anp self entropy s = (Program.lift (call.decide anp s self entropy) >>= carryOut anp self entropy) s :=
    identityCall_decided call calls
  cases decided : call.decide anp s self entropy with
  | error e => exact .refused e (by rw [run, decided]; rfl)
  | ok decision =>
    obtain ⟨rests, starts⟩ := IdentityCall.decide_ok calls decided
    cases decision with
    | none => exact .idle (rests rfl) (by rw [run, decided]; rfl)
    | some action => exact .acts action (starts action rfl) (by rw [run, decided]; rfl)

end

section
variable {anp : Anp} {s : Store} {self : DidStore} {entropy : Entropy} {action : StoreAction}

variable {did : String}

theorem decideNew_ok {keys : List NewKey} {record : DidResult IdentityRecord} {decision : Option StoreAction} :
    decideNew s self did keys record = .ok decision ↔ Registrable s self did ∧ decision = some (.introduce did keys record) := by
  simp only [decideNew, except_bind_ok, reject_ok, ne_eq, not_not, Except.ok.injEq, Bool.not_eq_true,
    Option.isSome_eq_false_iff, Option.isNone_iff_eq_none]
  constructor
  · rintro ⟨⟨⟩, unchanged, ⟨⟩, absent, rfl⟩
    exact ⟨⟨unchanged, absent⟩, rfl⟩
  · rintro ⟨⟨unchanged, absent⟩, rfl⟩
    exact ⟨(), unchanged, (), absent, rfl⟩

private theorem decideDeletion_ok {expectedGeneration : Nat} {discardPendingChanges : Bool}
    (decided : decideDeletion anp s self did expectedGeneration discardPendingChanges = .ok (some action)) :
    ∃ record, Deletes anp s self did record ∧ action = .delete did record := by
  unfold decideDeletion at decided
  split at decided
  · simp only [except_bind_ok] at decided
    obtain ⟨_, -, ⟨⟩⟩ := decided
  · rename_i unchanged
    simp only [ne_eq, not_or, not_not] at unchanged
    simp only [except_bind_ok, okOr_ok, reject_ok, not_or, ne_eq, not_not, Except.ok.injEq, Option.some.injEq] at decided
    obtain ⟨summary, registered, record, read, ⟨⟩, ⟨named, created, -⟩, rfl⟩ := decided
    exact ⟨record, ⟨unchanged.2.trans unchanged.1, ⟨summary, registered, read⟩, named, created⟩, rfl⟩

/-- Two keys among which there is a device signing key and an agreement key are these two. -/
private theorem deviceKeys_roles {keys : List NewKey} {signing e2ee : NewKey} (two : keys.length = 2)
    (signs : keys.find? (·.role == .deviceSigning) = some signing)
    (agrees : keys.find? (·.role == .e2eeAgreement) = some e2ee) :
    ∀ key ∈ keys, key.role = .deviceSigning ∨ key.role = .e2eeAgreement := by
  obtain ⟨first, second, rfl⟩ := List.length_eq_two.mp two
  have signed : signing.role = .deviceSigning := by simpa using List.find?_some signs
  have agreed : e2ee.role = .e2eeAgreement := by simpa using List.find?_some agrees
  have one := List.mem_of_find?_eq_some signs
  have other := List.mem_of_find?_eq_some agrees
  simp only [List.mem_cons, List.not_mem_nil, or_false] at one other ⊢
  rintro key (rfl | rfl)
  · rcases one with rfl | rfl
    · exact .inl signed
    · rcases other with rfl | rfl
      · exact .inr agreed
      · rw [signed] at agreed
        cases agreed
  · rcases one with rfl | rfl
    · rcases other with rfl | rfl
      · rw [signed] at agreed
        cases agreed
      · exact .inr agreed
    · exact .inl signed

/-- An action that is decided on is one that the call starts. -/
theorem StoreCall.decide_ok {call : StoreCall} (decided : call.decide anp s self entropy = .ok (some action)) :
    call.Starts anp s self entropy action := by
  cases call
  all_goals simp only [StoreCall.decide, except_bind_ok, okOr_ok, reject_ok, not_or, Option.isSome_iff_ne_none, ne_eq, not_not,
    decideNew_ok, Except.ok.injEq, Option.some.injEq] at decided
  case createIdentity spec =>
    obtain ⟨⟨⟩, unchanged, ⟨⟩, quiet, built, builds, ⟨⟩, absent, rfl⟩ := decided
    exact ⟨built, ⟨unchanged, absent⟩, by simpa using quiet, builds, rfl⟩
  case prepareEnrollment spec =>
    obtain ⟨⟨⟩, valid, did, named, signingKid, first, e2eeKid, second, ⟨⟩, fresh, registrable, rfl⟩ := decided
    exact ⟨did, signingKid, e2eeKid, registrable, valid, named, first, second, fresh.1, fresh.2.1, fresh.2.2, rfl⟩
  case prepareRequestSigningEnrollment spec =>
    obtain ⟨⟨⟩, valid, ⟨⟩, -, did, named, kid, made, ⟨⟩, fresh, registrable, rfl⟩ := decided
    exact ⟨did, kid, registrable, valid, named, made, fresh, rfl⟩
  case importIdentity spec =>
    obtain ⟨⟨⟩, valid, did, named, imported, made, ⟨⟩, roles, registrable, rfl⟩ := decided
    exact ⟨did, imported, registrable, ⟨valid, named, made⟩, roles, rfl⟩
  case importDeviceIdentity spec =>
    obtain ⟨⟨⟩, valid, did, named, imported, made, signing, signs, e2ee, agrees, ⟨⟩, ⟨two, -⟩, rootKid, root, registrable,
      rfl⟩ := decided
    exact ⟨did, imported, rootKid, registrable, ⟨valid, named, made⟩, deviceKeys_roles two signs agrees, root, rfl⟩
  case importRequestSigningIdentity spec =>
    obtain ⟨⟨⟩, valid, did, named, imported, made, request, last, ⟨⟩, ⟨role, -⟩, rootKid, root, registrable, rfl⟩ := decided
    exact ⟨did, imported, request, rootKid, registrable, ⟨valid, named, made⟩, last, role, root, rfl⟩
  case discardUnpublishedEnrollment did identityId generation =>
    obtain ⟨⟨⟩, ⟨same, unchanged⟩, summary, registered, record, read, ⟨⟩, ⟨-, named, enrolling, -⟩, rfl⟩ := decided
    exact ⟨record, ⟨unchanged.trans same, ⟨summary, registered, read⟩, named, by simp [enrolling]⟩, rfl⟩
  case deleteIdentityNamespace | deleteIdentityNamespaceDiscardingPending => exact decideDeletion_ok decided
  case openIdentity | reload => cases decided

theorem checkOpened_ok {summary : IdentitySummary} {record : IdentityRecord} {u : Unit}
    (checked : checkOpened did summary record = .ok u) : record.did = did ∧ record.state ≠ .creating := by
  simp only [checkOpened, reject_ok, not_or, ne_eq, not_not] at checked
  exact ⟨checked.1, checked.2.1⟩

theorem openIdentity_issues {P : Write → Prop} : Issues P (self.openIdentity anp did) :=
  .bind readRegistry_issues (fun _ => .bind (.lift _) (fun _ => .bind (readIdentity_issues anp _) (fun _ =>
    .bind (.lift _) (fun _ => .pure _))))

theorem openIdentity_opens {opened : DidIdentity} (returned : (self.openIdentity anp did).result s = .ok opened) :
    Opens anp s opened := by
  obtain ⟨registry, same, rest, -⟩ := Issues.peel readRegistry_issues returned
  cases same
  obtain ⟨summary, registered, rest⟩ := result_bind rest
  obtain ⟨record, read, rest, -⟩ := Issues.peel (readIdentity_issues anp _) rest
  obtain ⟨⟨⟩, checked, rest⟩ := result_bind rest
  cases rest
  have named : record.identityId = summary.identityId := readIdentity_named read
  obtain ⟨rfl, created⟩ := checkOpened_ok checked
  refine ⟨created, ⟨summary, okOr_ok.mp registered, named.symm⟩, ?_⟩
  change s.readIdentity anp record.identityId = .ok record
  rw [named]
  exact read

/-- Every call on a store but `reload` writes nothing or carries out one action. -/
theorem storeCall_acts (call : StoreCall) (calls : call ≠ .reload) :
    StoreActs anp (call.Starts anp s self entropy) entropy (call.run anp self entropy) s := by
  by_cases decides : ∀ did, call ≠ .openIdentity did
  · have run : call.run anp self entropy s =
        (Program.lift (call.decide anp s self entropy) >>= carryOutStore anp s entropy) s := storeCall_decided call calls decides
    cases decided : call.decide anp s self entropy with
    | error e =>
      rw [decided] at run
      refine .silent (congrArg Outcome.writes run) (fun self opened returned => ?_)
      cases (congrArg Outcome.result run).symm.trans returned
    | ok decision =>
      rw [decided] at run
      cases decision with
      | none =>
        refine .silent (congrArg Outcome.writes run) (fun self opened returned => ?_)
        cases (congrArg Outcome.result run).symm.trans returned
      | some action => exact .acts action (StoreCall.decide_ok decided) run
  · obtain ⟨did, rfl⟩ : ∃ did, call = .openIdentity did := by simpa using decides
    refine .silent ((Issues.bind openIdentity_issues (fun _ => .pure _)).writes_nil s) (fun _ opened returned => ?_)
    obtain ⟨found, opens, same⟩ := result_bind returned
    cases same
    exact openIdentity_opens opens

end
end AnpIdentity
