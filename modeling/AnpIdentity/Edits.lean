import AnpIdentity.Actions
import AnpIdentity.Authority

/-! What each edit makes of a record, field by field. -/

namespace AnpIdentity
open Durable
variable {anp : Anp} {seen next : IdentityRecord}

variable {keys : List KeyMetadata} {revisionId : String} {authorized : Bool} {outcome : AdoptDocumentOutcome}

theorem requiredPending_ok {pending : PendingRevisionRecord} :
    requiredPending seen revisionId = .ok pending ↔ seen.pendingRevision = some pending ∧ pending.revisionId = revisionId := by
  simp [requiredPending, Option.filter_eq_some_iff]

/-- The revision moves to its next publication state. -/
structure MovesTo (seen : IdentityRecord) (revisionId : String) (expected state : PublicationState) (next : IdentityRecord)
    (pending : PendingRevisionRecord) : Prop where
  found : seen.pendingRevision = some pending
  named : pending.revisionId = revisionId
  expected : pending.state = expected
  moved : next = { seen with pendingRevision := some { pending with state, generation := pending.generation + 1 } }

theorem transitionRecord_moves {expected state : PublicationState}
    (made : transitionRecord seen revisionId expected state = .ok next) :
    ∃ pending, MovesTo seen revisionId expected state next pending := by
  simp only [transitionRecord, except_bind_ok, requiredPending_ok, reject_ok, checkedSucc_ok, ne_eq, not_not,
    Except.ok.injEq] at made
  obtain ⟨pending, ⟨found, named⟩, _, expected, _, ⟨-, rfl⟩, rfl⟩ := made
  exact ⟨pending, found, named, expected, rfl⟩

/-- The checkpoint that a commit leaves. -/
def CommittedCheckpoint (seen : IdentityRecord) : Option VerifiedDocumentEvidence → DocumentCheckpoint → Prop
  | some evidence, committed => committed.documentVersion = evidence.documentVersion ∧
      committed.registryVersion = evidence.registryVersion
  | none, committed => committed.documentVersion = seen.revision + 1 ∧
      committed.registryVersion = (seen.checkpoint.map (·.registryVersion)).getD 0 + 1

/-- The kids of a local device. -/
def LocalAuthorizationRecord.kids (authorization : LocalAuthorizationRecord) : List String :=
  [authorization.signingKid, authorization.e2eeKid]

/-- The later local device has the keys of the earlier one. -/
def KeepsDevice (earlier later : Option LocalAuthorizationRecord) : Prop :=
  ∀ authorization ∈ later, ∃ before ∈ earlier, before.kids = authorization.kids

theorem KeepsDevice.refl (authorization : Option LocalAuthorizationRecord) : KeepsDevice authorization authorization :=
  fun authorization listed => ⟨authorization, listed, rfl⟩

theorem refreshCompatibleLocalProfiles_device (anp : Anp) (record : IdentityRecord) (document : Value) :
    KeepsDevice record.localAuthorization (refreshCompatibleLocalProfiles anp record document).localAuthorization := by
  unfold refreshCompatibleLocalProfiles
  split
  · exact .refl _
  · rename_i authorization found
    repeat' split
    · intro refreshed shown
      obtain rfl := Option.some.inj shown
      exact ⟨authorization, found, rfl⟩
    all_goals exact .refl _

/-- The pending revision becomes the document of the record. -/
structure Commits (anp : Anp) (seen : IdentityRecord) (revisionId : String) (fromReconcile : Bool)
    (evidence : Option VerifiedDocumentEvidence) (next : IdentityRecord) (pending : PendingRevisionRecord) : Prop where
  found : seen.pendingRevision = some pending
  named : pending.revisionId = revisionId
  allowed : commitAllowed pending fromReconcile evidence = true
  checked : checkCommitEvidence anp seen pending.candidateDocument evidence = .ok ()
  committed : ∃ keys authorization retired checkpoint, SameKeys keys seen.keys ∧
    keys = pending.retiredKids.foldl (fun keys kid => retireKey kid keys) seen.keys ∧
    Observes seen pending.candidateDocument retired ∧
    CommittedCheckpoint seen evidence checkpoint ∧
    documentDigest anp pending.candidateDocument = .ok checkpoint.documentDigest ∧
    next = { seen with
      keys := keys ++ pending.newKeyMetadata
      document := pending.candidateDocument
      revision := checkpoint.documentVersion
      checkpoint := some checkpoint
      pendingRevision := none
      initialPublicationPending := false
      localAuthorization := authorization
      retiredDeviceIds := retired }
  device : KeepsDevice seen.localAuthorization next.localAuthorization

theorem commitRecord_commits {fromReconcile : Bool} {evidence : Option VerifiedDocumentEvidence}
    (made : commitRecord anp seen revisionId fromReconcile evidence = .ok next) :
    ∃ pending, Commits anp seen revisionId fromReconcile evidence next pending := by
  simp only [commitRecord, except_bind_ok, requiredPending_ok, reject_ok, not_or, not_not, ne_eq] at made
  obtain ⟨pending, ⟨found, named⟩, _, ⟨allowed, -⟩, ⟨⟩, checked, observed, devices, revision, counted, registryVersion,
    registered, digest, hashed, same⟩ := made
  have device := refreshCompatibleLocalProfiles_device anp { seen with
    keys := pending.retiredKids.foldl (fun keys kid => retireKey kid keys) seen.keys } pending.candidateDocument
  obtain ⟨authorization, only⟩ := refreshCompatibleLocalProfiles_only anp { seen with
    keys := pending.retiredKids.foldl (fun keys kid => retireKey kid keys) seen.keys } pending.candidateDocument
  rw [only] at devices device
  obtain ⟨retired, observes, rfl⟩ := observeDevices_observes devices
  cases same
  refine ⟨pending, found, named, allowed, checked, ?_, device⟩
  refine ⟨_, authorization, retired, ⟨revision, registryVersion, digest⟩, retireKeys_same _ _, rfl,
    ⟨observes.barred, observes.retires⟩, ?_, hashed, rfl⟩
  cases evidence with
  | none => exact ⟨(checkedSucc_ok.mp counted).2, (checkedSucc_ok.mp registered).2⟩
  | some evidence =>
    cases counted
    cases registered
    exact ⟨rfl, rfl⟩

/-- What adoption does to the state of a record and to the states of its keys. -/
inductive Readjusts (seen : IdentityRecord) (authorized : Bool) : IdentityRecord → Prop
  | activated (enrolling : seen.state = .enrolling) (allowed : authorized = true) :
      Readjusts seen authorized { seen with
        keys := seen.keys.map (fun key => if key.state = .pending then { key with state := .active } else key)
        pendingEnrollment := none
        pendingRequestSigning := none
        state := .active }
  | revoked (active : seen.state = .active) (refused : authorized = false) :
      Readjusts seen authorized { revokeLocalAuthorization seen with state := .revoked }
  | unchanged (settled : seen.state = .active ∧ authorized = true ∨ seen.state = .revoked) : Readjusts seen authorized seen

theorem adoptOutcome_readjusts {evidence : VerifiedDocumentEvidence}
    (made : adoptOutcome seen evidence authorized = .ok (outcome, next)) : Readjusts seen authorized next := by
  unfold adoptOutcome at made
  cases state : seen.state with
  | creating => simp [state] at made
  | enrolling =>
    simp only [state] at made
    split at made
    · cases made
    · rename_i allowed
      cases made
      exact .activated state (by simpa using fun refused => allowed (.inl refused))
  | active =>
    simp only [state] at made
    cases authorized with
    | false =>
      simp only [Bool.not_false, if_true] at made
      cases made
      exact .revoked state rfl
    | true =>
      simp only [Bool.not_true, Bool.false_eq_true, if_false] at made
      split at made <;> (cases made; exact .unchanged (.inl ⟨state, rfl⟩))
  | revoked =>
    simp only [state] at made
    cases made
    exact .unchanged (.inr state)

theorem Readjusts.sameKeys (readjusts : Readjusts seen authorized next) : SameKeys next.keys seen.keys := by
  cases readjusts with
  | activated =>
    refine SameKeys.map (fun key => ?_)
    split <;> rfl
  | revoked =>
    refine SameKeys.map (fun key => ?_)
    split <;> rfl
  | unchanged => exact .refl _

/-- A verified document takes the place of the one in the record. -/
structure Adopts (anp : Anp) (seen : IdentityRecord) (spec : AdoptVerifiedDocumentSpec) (siblingOnly : Bool)
    (next : IdentityRecord) : Prop where
  sibling : siblingOnly = true → localAuthorized anp seen spec.document = true
  adopted : ∃ changed authorization retired, Readjusts seen (localAuthorized anp seen spec.document) changed ∧
    Observes seen spec.document retired ∧
    next = { changed with
      localAuthorization := authorization
      retiredDeviceIds := retired
      document := spec.document
      checkpoint := some (checkpoint spec.evidence)
      initialPublicationPending := false
      revision := spec.evidence.documentVersion }
  device : KeepsDevice seen.localAuthorization next.localAuthorization

theorem Readjusts.document (readjusts : Readjusts seen authorized next) : next.document = seen.document ∧
    next.retiredDeviceIds = seen.retiredDeviceIds := by
  cases readjusts <;> exact ⟨rfl, rfl⟩

theorem Readjusts.localAuthorization (readjusts : Readjusts seen authorized next) :
    next.localAuthorization = seen.localAuthorization := by
  cases readjusts <;> rfl

theorem adoptRecord_adopts {spec : AdoptVerifiedDocumentSpec} {siblingOnly : Bool}
    (adopted : adoptRecord anp seen spec siblingOnly = .ok (outcome, some next)) : Adopts anp seen spec siblingOnly next := by
  simp only [adoptRecord, except_bind_ok, reject_ok, not_and, not_not] at adopted
  obtain ⟨_, sibling, ⟨decided, changed⟩, made, rest⟩ := adopted
  split at rest
  · cases rest
  · simp only [except_bind_ok] at rest
    obtain ⟨observed, devices, rest⟩ := rest
    cases rest
    have readjusts := adoptOutcome_readjusts made
    have device := refreshCompatibleLocalProfiles_device anp changed spec.document
    obtain ⟨authorization, only⟩ := refreshCompatibleLocalProfiles_only anp changed spec.document
    rw [only] at devices device
    rw [readjusts.localAuthorization] at device
    obtain ⟨retired, observes, rfl⟩ := observeDevices_observes devices
    obtain ⟨document, devices⟩ := readjusts.document
    refine ⟨sibling, ?_, device⟩
    refine ⟨changed, authorization, retired, readjusts, ⟨?_, ?_⟩, rfl⟩
    · rw [← devices]
      exact observes.barred
    · rw [← document, ← devices]
      exact observes.retires

/-- The decisions on a transfer and what each of them rests on. -/
inductive Transfers (anp : Anp) (entropy : Entropy) (seen : IdentityRecord) (transfer : RootTransfer) : RootImportDecision → Prop
  | known {replay : RootTransferReplayRecord} {outcome : RootTransferImportOutcome}
      (found : seen.rootTransferReplays.find? (·.nonce == transfer.nonce) = some replay)
      (same : replay.transferDigest = transfer.digest) : Transfers anp entropy seen transfer (.done outcome)
  | waiting {pending : PendingRootTransferRecord}
      (unknown : seen.rootTransferReplays.find? (·.nonce == transfer.nonce) = none)
      (waits : seen.pendingRootTransfer = some pending) (same : pending.transferDigest = transfer.digest) :
      Transfers anp entropy seen transfer (.done .pending)
  | replayed (unknown : seen.rootTransferReplays.find? (·.nonce == transfer.nonce) = none)
      (active : seen.rootCapability = .active)
      (verified : verifyRootPublic anp seen transfer.rootKid (publicKeyFromRaw anp .rootControl transfer.raw) = .ok ()) :
      Transfers anp entropy seen transfer
        (.replayed { seen with rootTransferReplays := pushReplay seen.rootTransferReplays transfer })
  | imported {root : KeyMetadata} {keys : List KeyMetadata}
      (unknown : seen.rootTransferReplays.find? (·.nonce == transfer.nonce) = none) (absent : seen.rootCapability = .absent)
      (idle : seen.pendingRootTransfer = none)
      (verified : verifyRootPublic anp seen transfer.rootKid (publicKeyFromRaw anp .rootControl transfer.raw) = .ok ())
      (adopted : adoptRootKey transfer.rootKid seen.keys = some (root, keys)) :
      Transfers anp entropy seen transfer
        (.imported
          { identityId := seen.identityId, keyId := transfer.rootKid, role := .rootControl, version := root.version }
          { seen with
            keys
            rootCapability := .pending
            pendingRootTransfer := some
              { transferDigest := transfer.digest, rootKid := transfer.rootKid, importedAt := entropy.now }
            rootTransferReplays := pushReplay seen.rootTransferReplays transfer })

theorem decideRootImport_transfers {self : DidIdentity} {entropy : Entropy} {transfer : RootTransfer}
    {decision : RootImportDecision} (decided : decideRootImport anp self entropy seen transfer = .ok decision) :
    Transfers anp entropy seen transfer decision := by
  simp only [decideRootImport, except_bind_ok] at decided
  obtain ⟨_, -, _, -, decided⟩ := decided
  split at decided
  · rename_i replay found
    simp only [except_bind_ok, reject_ok, ne_eq, not_not] at decided
    obtain ⟨_, same, decided⟩ := decided
    split at decided <;> cases decided
    · exact .known found same
    · exact .known found same
  · rename_i unknown
    split at decided
    · rename_i active
      obtain ⟨⟨⟩, verified, decided⟩ := except_bind_ok.mp decided
      cases decided
      exact .replayed unknown active verified
    · split at decided
      · rename_i pending waits
        split at decided
        · rename_i same
          cases decided
          exact .waiting unknown waits same
        · cases decided
      · rename_i idle
        simp only [except_bind_ok, reject_ok, okOr_ok, ne_eq, not_not] at decided
        obtain ⟨_, absent, ⟨⟩, verified, ⟨root, keys⟩, adopted, decided⟩ := decided
        cases decided
        exact .imported unknown absent idle verified adopted

/-! ## Actions that were started -/

/-- The publication states that a revision moves between. -/
inductive Publishes : PublicationState → PublicationState → Prop
  | begin : Publishes .prepared .publicationInFlight
  | lose : Publishes .publicationInFlight .publicationUncertain
  | reject : Publishes .publicationInFlight .prepared
  | return : Publishes .publicationUncertain .prepared

/-- What the checks of a call establish about the action that it starts. -/
inductive Justified (anp : Anp) (s : Store) (self : DidIdentity) (entropy : Entropy) : IdentityAction → Prop
  | prepare {seen : IdentityRecord} {plan : UpdatePlan} {spec : DocumentUpdateSpec} (active : seen.state = .active)
      (planned : planUpdate anp entropy s seen spec = .ok plan) : Justified anp s self entropy (.prepare seen plan)
  | discard {seen : IdentityRecord} {pending : PendingRevisionRecord} {rejection : Option AdoptVerifiedDocumentSpec}
      (active : seen.state = .active) (found : seen.pendingRevision = some pending)
      (checked : checkAbort anp self seen pending rejection = .ok ()) : Justified anp s self entropy (.discard seen pending)
  | moved {seen next : IdentityRecord} {revisionId : String} {expected state : PublicationState}
      {pending : PendingRevisionRecord} (active : seen.state = .active) (publishes : Publishes expected state)
      (moves : MovesTo seen revisionId expected state next pending) :
      Justified anp s self entropy (.edit (.moved revisionId expected state) seen next)
  | committed {seen next : IdentityRecord} {revisionId : String} {fromReconcile : Bool}
      {evidence : Option VerifiedDocumentEvidence} {pending : PendingRevisionRecord} (active : seen.state = .active)
      (commits : Commits anp seen revisionId fromReconcile evidence next pending) :
      Justified anp s self entropy (.edit (.committed revisionId fromReconcile evidence) seen next)
  | adopted {seen next : IdentityRecord} {spec : AdoptVerifiedDocumentSpec} {siblingOnly : Bool}
      (verified : validateVerifiedDocument anp spec.document spec.evidence = .ok ())
      (named : spec.document.getStr "id" = some self.did) (adoptable : Adoptable anp self seen spec siblingOnly)
      (adopts : Adopts anp seen spec siblingOnly next) :
      Justified anp s self entropy (.edit (.adopted spec siblingOnly) seen next)
  | promoted {seen next : IdentityRecord} {spec : RootPromotionSpec}
      (verified : validateVerifiedDocument anp spec.document spec.evidence = .ok ())
      (named : spec.document.getStr "id" = some self.did) (promotes : Promotes seen spec next) :
      Justified anp s self entropy (.edit (.promoted spec) seen next)
  | replayed {seen next : IdentityRecord} {transfer : RootTransfer} (transferable : Transferable self seen)
      (transfers : Transfers anp entropy seen transfer (.replayed next)) :
      Justified anp s self entropy (.edit (.replayed transfer) seen next)
  | imported {seen next : IdentityRecord} {transfer : RootTransfer} {ref : SecretRef} (transferable : Transferable self seen)
      (transfers : Transfers anp entropy seen transfer (.imported ref next)) :
      Justified anp s self entropy (.importRoot transfer ref seen next)

section
variable {s : Store} {self : DidIdentity} {entropy : Entropy} {action : IdentityAction}

variable {revisionId : String}

private theorem MovesPublication.started {expected state : PublicationState} (publishes : Publishes expected state)
    (moves : MovesPublication anp s self revisionId expected state action) :
    Current anp s self action.seen ∧ Justified anp s self entropy action := by
  obtain ⟨seen, next, current, active, made, rfl⟩ := moves
  obtain ⟨pending, moves⟩ := transitionRecord_moves made
  exact ⟨current, .moved active publishes moves⟩

private theorem CommitsRevision.started {fromReconcile : Bool} {evidence : Option VerifiedDocumentEvidence}
    (commits : CommitsRevision anp s self revisionId fromReconcile evidence action) :
    Current anp s self action.seen ∧ Justified anp s self entropy action := by
  obtain ⟨seen, next, current, active, made, rfl⟩ := commits
  obtain ⟨pending, commits⟩ := commitRecord_commits made
  exact ⟨current, .committed active commits⟩

private theorem DiscardsRevision.started {rejection : Option AdoptVerifiedDocumentSpec}
    (discards : DiscardsRevision anp s self revisionId rejection action) :
    Current anp s self action.seen ∧ Justified anp s self entropy action := by
  obtain ⟨seen, pending, current, active, found, checked, rfl⟩ := discards
  exact ⟨current, .discard active (requiredPending_ok.mp found).1 checked⟩

private theorem AdoptsDocument.started {spec : AdoptVerifiedDocumentSpec} {siblingOnly : Bool}
    (adopts : AdoptsDocument anp s self spec siblingOnly action) :
    Current anp s self action.seen ∧ Justified anp s self entropy action := by
  obtain ⟨seen, outcome, next, current, verified, named, checked, made, rfl⟩ := adopts
  exact ⟨current, .adopted verified named (checkAdoption_ok checked) (adoptRecord_adopts made)⟩

private theorem ImportsTransfer.started {transfer : RootTransfer}
    (imports : ImportsTransfer anp s self entropy transfer action) :
    Current anp s self action.seen ∧ Justified anp s self entropy action := by
  obtain ⟨seen, current, ⟨next, decided, rfl⟩ | ⟨ref, next, decided, rfl⟩⟩ := imports
  · exact ⟨current, .replayed (decideRootImport_ok decided) (decideRootImport_transfers decided)⟩
  · exact ⟨current, .imported (decideRootImport_ok decided) (decideRootImport_transfers decided)⟩

/-- An action is decided on the record that the store holds, and the checks of its call have passed. -/
theorem IdentityCall.Starts.started {call : IdentityCall} (started : call.Starts anp s self entropy action) :
    Current anp s self action.seen ∧ Justified anp s self entropy action := by
  cases call with
  | prepareUpdate spec =>
    obtain ⟨seen, plan, current, active, planned, rfl⟩ := started
    exact ⟨current, .prepare active planned⟩
  | beginPublication revisionId => exact MovesPublication.started .begin started
  | markPublicationUncertain revisionId => exact MovesPublication.started .lose started
  | rejectPublicationBeforeAcceptance revisionId => exact MovesPublication.started .reject started
  | commitVerifiedUpdate revisionId fromReconcile evidence => exact CommitsRevision.started started
  | reconcileUpdate revisionId observed =>
    obtain ⟨pending, digest, -, -, -, ⟨-, commits⟩ | ⟨-, -, moves⟩⟩ := started
    · exact commits.started
    · exact moves.started .return
  | abortUpdate revisionId | reconcileRejectedUpdate revisionId observation => exact DiscardsRevision.started started
  | adoptVerifiedDocument spec | adoptVerifiedSiblingDocument spec => exact AdoptsDocument.started started
  | importWrappedRoot envelope now =>
    obtain ⟨raw, digest, -, -, -, imports⟩ := started
    exact imports.started
  | importLegacyRootTransfer spec =>
    obtain ⟨raw, digest, -, -, -, imports⟩ := started
    exact imports.started
  | confirmRootPromotion spec =>
    obtain ⟨seen, next, fingerprint, current, verified, named, -, -, made, rfl⟩ := started
    exact ⟨current, .promoted verified named (promoteRecord_promotes made)⟩
  | reload => exact started.elim

end

/-- The transfer that a call imports, with the digest of what was received. -/
inductive IdentityCall.Imports (anp : Anp) : IdentityCall → RootTransfer → Prop
  | wrapped {envelope : WrappedRootEnvelope} {now : Int} {raw : Key32} {digest : String}
      (hashed : digestSerialized anp (envelopeJson envelope) = .ok digest) :
      Imports anp (.importWrappedRoot envelope now) (envelope.transfer raw digest)
  | legacy {spec : LegacyRootTransferImportSpec} {raw : Key32} {digest : String}
      (hashed : digestSerialized anp (legacyEvidenceJson spec.evidence) = .ok digest) :
      Imports anp (.importLegacyRootTransfer spec) (spec.transfer raw digest)

/-- The call that makes an edit, with what it has observed. -/
inductive IdentityCall.Edits (anp : Anp) (self : DidIdentity) : IdentityCall → Edit → Prop
  | begin {revisionId : String} :
      Edits anp self (.beginPublication revisionId) (.moved revisionId .prepared .publicationInFlight)
  | lose {revisionId : String} :
      Edits anp self (.markPublicationUncertain revisionId) (.moved revisionId .publicationInFlight .publicationUncertain)
  | reject {revisionId : String} :
      Edits anp self (.rejectPublicationBeforeAcceptance revisionId) (.moved revisionId .publicationInFlight .prepared)
  | return {revisionId digest : String} {observed : Value} {profile : DidProfile}
      (observes : canonicalDigest anp observed = .ok digest) (shown : canonicalDigest anp self.record.document = .ok digest)
      (known : DidProfile.forDid anp self.did = .ok profile) (other : profile ≠ .web) :
      Edits anp self (.reconcileUpdate revisionId observed) (.moved revisionId .publicationUncertain .prepared)
  | commit {revisionId : String} {fromReconcile : Bool} {evidence : VerifiedDocumentEvidence} :
      Edits anp self (.commitVerifiedUpdate revisionId fromReconcile evidence)
        (.committed revisionId fromReconcile (some evidence))
  | observe {revisionId : String} {observed : Value} {pending : PendingRevisionRecord}
      (found : requiredPending self.record revisionId = .ok pending)
      (observes : canonicalDigest anp observed = .ok pending.candidateDigest) :
      Edits anp self (.reconcileUpdate revisionId observed) (.committed revisionId true none)
  | adopt {spec : AdoptVerifiedDocumentSpec} : Edits anp self (.adoptVerifiedDocument spec) (.adopted spec false)
  | adoptSibling {spec : AdoptVerifiedDocumentSpec} : Edits anp self (.adoptVerifiedSiblingDocument spec) (.adopted spec true)
  | promote {spec : RootPromotionSpec} : Edits anp self (.confirmRootPromotion spec) (.promoted spec)
  | replay {call : IdentityCall} {transfer : RootTransfer} (imports : call.Imports anp transfer) :
      Edits anp self call (.replayed transfer)

/-- The call that carries out an action, with what it has checked for it. -/
inductive IdentityCall.Does (anp : Anp) (s : Store) (self : DidIdentity) (entropy : Entropy) :
    IdentityCall → IdentityAction → Prop
  | prepare {spec : DocumentUpdateSpec} {seen : IdentityRecord} {plan : UpdatePlan}
      (planned : planUpdate anp entropy s seen spec = .ok plan) :
      Does anp s self entropy (.prepareUpdate spec) (.prepare seen plan)
  | abort {seen : IdentityRecord} {pending : PendingRevisionRecord} (checked : checkAbort anp self seen pending none = .ok ()) :
      Does anp s self entropy (.abortUpdate pending.revisionId) (.discard seen pending)
  | refuse {seen : IdentityRecord} {pending : PendingRevisionRecord} {observation : AdoptVerifiedDocumentSpec}
      (checked : checkAbort anp self seen pending (some observation) = .ok ()) :
      Does anp s self entropy (.reconcileRejectedUpdate pending.revisionId observation) (.discard seen pending)
  | edit {call : IdentityCall} {edit : Edit} {seen next : IdentityRecord} (edits : call.Edits anp self edit) :
      Does anp s self entropy call (.edit edit seen next)
  | importRoot {call : IdentityCall} {transfer : RootTransfer} {ref : SecretRef} {seen next : IdentityRecord}
      (imports : call.Imports anp transfer) : Does anp s self entropy call (.importRoot transfer ref seen next)

section
variable {s : Store} {self : DidIdentity} {entropy : Entropy} {call : IdentityCall} {action : IdentityAction}

private theorem DiscardsRevision.discards {revisionId : String} {rejection : Option AdoptVerifiedDocumentSpec}
    (discards : DiscardsRevision anp s self revisionId rejection action) :
    ∃ seen pending, pending.revisionId = revisionId ∧ checkAbort anp self seen pending rejection = .ok () ∧
      action = .discard seen pending := by
  obtain ⟨seen, pending, -, -, found, checked, same⟩ := discards
  exact ⟨seen, pending, (requiredPending_ok.mp found).2, checked, same⟩

variable {transfer : RootTransfer}

private theorem ImportsTransfer.does (brings : call.Imports anp transfer)
    (imports : ImportsTransfer anp s self entropy transfer action) : call.Does anp s self entropy action := by
  obtain ⟨_, -, ⟨_, -, rfl⟩ | ⟨_, _, -, rfl⟩⟩ := imports
  · exact .edit (.replay brings)
  · exact .importRoot brings

/-- Each action is carried out by its own call. -/
theorem IdentityCall.Starts.does (started : call.Starts anp s self entropy action) : call.Does anp s self entropy action := by
  cases call with
  | prepareUpdate spec =>
    obtain ⟨_, _, -, -, planned, rfl⟩ := started
    exact .prepare planned
  | beginPublication revisionId =>
    obtain ⟨_, _, -, -, -, rfl⟩ := started
    exact .edit .begin
  | markPublicationUncertain revisionId =>
    obtain ⟨_, _, -, -, -, rfl⟩ := started
    exact .edit .lose
  | rejectPublicationBeforeAcceptance revisionId =>
    obtain ⟨_, _, -, -, -, rfl⟩ := started
    exact .edit .reject
  | commitVerifiedUpdate revisionId fromReconcile evidence =>
    obtain ⟨_, _, -, -, -, rfl⟩ := started
    exact .edit .commit
  | reconcileUpdate revisionId observed =>
    obtain ⟨pending, digest, found, -, observes, ⟨rfl, commits⟩ | ⟨shown, ⟨profile, known, other⟩, moves⟩⟩ := started
    · obtain ⟨_, _, -, -, -, rfl⟩ := commits
      exact .edit (.observe found observes)
    · obtain ⟨_, _, -, -, -, rfl⟩ := moves
      exact .edit (.return observes shown known other)
  | abortUpdate revisionId =>
    obtain ⟨_, pending, rfl, checked, rfl⟩ := DiscardsRevision.discards started
    exact .abort checked
  | reconcileRejectedUpdate revisionId observation =>
    obtain ⟨_, pending, rfl, checked, rfl⟩ := DiscardsRevision.discards started
    exact .refuse checked
  | adoptVerifiedDocument spec =>
    obtain ⟨_, _, _, -, -, -, -, -, rfl⟩ := started
    exact .edit .adopt
  | adoptVerifiedSiblingDocument spec =>
    obtain ⟨_, _, _, -, -, -, -, -, rfl⟩ := started
    exact .edit .adoptSibling
  | importWrappedRoot envelope now =>
    obtain ⟨_, _, hashed, -, -, imports⟩ := started
    exact imports.does (.wrapped hashed)
  | importLegacyRootTransfer spec =>
    obtain ⟨_, _, -, -, hashed, imports⟩ := started
    exact imports.does (.legacy hashed)
  | confirmRootPromotion spec =>
    obtain ⟨_, _, _, -, -, -, -, -, -, rfl⟩ := started
    exact .edit .promote
  | reload => exact started.elim

theorem IdentityCall.Starts.edits {edit : Edit} (started : call.Starts anp s self entropy (.edit edit seen next)) :
    call.Edits anp self edit := by
  cases started.does with
  | edit edits => exact edits

/-- A revision is discarded by an abort or by the observation of a rejection. -/
theorem IdentityCall.Starts.discards {pending : PendingRevisionRecord}
    (started : call.Starts anp s self entropy (.discard seen pending)) :
    ∃ rejection, checkAbort anp self seen pending rejection = .ok () ∧
      ((call = .abortUpdate pending.revisionId ∧ rejection = none) ∨
        ∃ observation, call = .reconcileRejectedUpdate pending.revisionId observation ∧ rejection = some observation) := by
  cases started.does with
  | abort checked => exact ⟨none, checked, .inl ⟨rfl, rfl⟩⟩
  | refuse checked => exact ⟨_, checked, .inr ⟨_, rfl, rfl⟩⟩

/-- A root is imported by a call that brings it. -/
theorem IdentityCall.Starts.imports {ref : SecretRef}
    (started : call.Starts anp s self entropy (.importRoot transfer ref seen next)) : call.Imports anp transfer := by
  cases started.does with
  | importRoot imports => exact imports

end
end AnpIdentity
