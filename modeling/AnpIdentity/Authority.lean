import AnpIdentity.World

/-! Two further routes by which a document replaces the stored one, compared with adoption: the promotion
of an imported root and the commit of a local update. Adoption revokes an identity whose device or
request-signing key the document does not authorise; neither of the other routes makes that test. -/

namespace AnpIdentity
open Durable Program

/-! ## What the authorization tests read -/

/-- The part of a key that the authorization tests look at. -/
def KeyMetadata.face (key : KeyMetadata) : String × KeyRole × KeyOrigin × String :=
  (key.kid, key.role, key.origin, key.publicKeyMultibase)

variable {keys others : List KeyMetadata}

theorem any_face (faces : keys.map (·.face) = others.map (·.face)) (p : String × KeyRole × KeyOrigin × String → Bool) :
    keys.any (fun key => p key.face) = others.any (fun key => p key.face) := by
  have left := List.any_map (f := KeyMetadata.face) (p := p) (l := keys)
  have right := List.any_map (f := KeyMetadata.face) (p := p) (l := others)
  rw [faces, right] at left
  exact left.symm

/-- Every key of one list is found in the other, with the same face. -/
def FoundIn (keys others : List KeyMetadata) : Prop :=
  ∀ (p : String × KeyRole × KeyOrigin × String → Bool) (key : KeyMetadata), keys.find? (fun k => p k.face) = some key →
    ∃ other, others.find? (fun k => p k.face) = some other ∧ other.face = key.face

theorem FoundIn.of_faces (same : keys.map (·.face) = others.map (·.face)) : FoundIn keys others := by
  intro p key found
  have equal : (keys.find? (fun k => p k.face)).map (·.face) = (others.find? (fun k => p k.face)).map (·.face) := by
    have left := List.find?_map (p := p) (f := KeyMetadata.face) (l := keys)
    have right := List.find?_map (p := p) (f := KeyMetadata.face) (l := others)
    rw [same, right] at left
    exact left.symm
  rw [found, Option.map_some, eq_comm, Option.map_eq_some_iff] at equal
  exact equal

theorem FoundIn.append (keys more : List KeyMetadata) : FoundIn keys (keys ++ more) := by
  intro p key found
  exact ⟨key, by rw [List.find?_append, found]; rfl, rfl⟩

/-- A key but for its state. -/
def KeyMetadata.stateless (key : KeyMetadata) : KeyMetadata := { key with state := .active }

/-- Two lists of keys differ in the states of the keys only. -/
def SameKeys (keys others : List KeyMetadata) : Prop := keys.map (·.stateless) = others.map (·.stateless)

theorem SameKeys.refl (keys : List KeyMetadata) : SameKeys keys keys := rfl

theorem SameKeys.map {change : KeyMetadata → KeyMetadata} (only : ∀ key, (change key).stateless = key.stateless) :
    SameKeys (keys.map change) keys := by
  unfold SameKeys
  rw [List.map_map]
  exact List.map_congr_left (fun key _ => only key)

private theorem retireKey_same (kid : String) (keys : List KeyMetadata) : SameKeys (retireKey kid keys) keys := by
  induction keys with
  | nil => rfl
  | cons key rest ih =>
    unfold retireKey
    split
    · rfl
    · simp only [SameKeys, List.map_cons] at ih ⊢
      rw [ih]

theorem retireKeys_same (kids : List String) (keys : List KeyMetadata) :
    SameKeys (kids.foldl (fun keys kid => retireKey kid keys) keys) keys := by
  induction kids generalizing keys with
  | nil => rfl
  | cons kid rest ih => exact (ih (retireKey kid keys)).trans (retireKey_same kid keys)

theorem activateRootKey_same (activated : activateRootKey keys = some others) :
    SameKeys others keys := by
  induction keys generalizing others with
  | nil => cases activated
  | cons key rest ih =>
    unfold activateRootKey at activated
    split at activated
    · cases activated
      rfl
    · obtain ⟨more, found, rfl⟩ := Option.map_eq_some_iff.mp activated
      simp only [SameKeys, List.map_cons] at ih ⊢
      rw [ih found]

theorem SameKeys.faces (same : SameKeys keys others) : keys.map (·.face) = others.map (·.face) := by
  have faces := congrArg (List.map KeyMetadata.face) same
  simpa [KeyMetadata.stateless, KeyMetadata.face, List.map_map, Function.comp_def] using faces

section
variable {anp : Anp} {document : Value}

theorem isOk_iff {result : DidResult Unit} : result.isOk = true ↔ result = .ok () := by
  cases result with
  | ok u | error e => simp [Except.isOk, Except.toBool]

theorem keyMatchesDocument_face {key other : KeyMetadata} (same : other.face = key.face) :
    keyMatchesDocument anp document other = keyMatchesDocument anp document key := by
  simp only [KeyMetadata.face, Prod.mk.injEq] at same
  unfold keyMatchesDocument
  rw [same.1, same.2.2.2]

variable {other record : IdentityRecord} {authorization : LocalAuthorizationRecord}

theorem localAuthorizationMatches_ok :
    localAuthorizationMatches anp record document authorization = .ok () ↔ ∃ signing e2ee manifest device,
      record.keys.find? (·.kid == authorization.signingKid) = some signing ∧
      record.keys.find? (·.kid == authorization.e2eeKid) = some e2ee ∧
      keyMatchesDocument anp document signing = .ok () ∧ keyMatchesDocument anp document e2ee = .ok () ∧
      anp.isAuthenticationAuthorized document signing.kid = true ∧
      anp.isAssertionMethodAuthorized document signing.kid = true ∧
      relationshipContains document "keyAgreement" e2ee.kid = true ∧
      anp.validateDeviceManifest document = .ok (some manifest) ∧
      manifest.devices.filter (·.deviceId == authorization.deviceId) = [device] ∧
      device.signingKeyId = authorization.signingKid ∧ device.e2eeKeyId = authorization.e2eeKid ∧
      compatibleLocalProfiles authorization.profiles device.profiles = true := by
  simp only [localAuthorizationMatches, except_bind_ok, okOr_ok, reject_ok, mapErr_ok, Bool.or_eq_true,
    Bool.not_eq_true', not_or, Bool.not_eq_false]
  constructor
  · rintro ⟨signing, foundSigning, e2ee, foundE2ee, _, signingKey, _, e2eeKey, _, ⟨⟨auth, assertion⟩, agreement⟩,
      _, valid, manifest, rfl, listed⟩
    split at listed
    · rename_i device one
      simp only [reject_ok, ne_eq, not_or, not_not] at listed
      exact ⟨signing, e2ee, manifest, device, foundSigning, foundE2ee, signingKey, e2eeKey, auth, assertion, agreement,
        valid, one, listed⟩
    · cases listed
  · rintro ⟨signing, e2ee, manifest, device, foundSigning, foundE2ee, signingKey, e2eeKey, auth, assertion, agreement,
      valid, one, listed⟩
    refine ⟨signing, foundSigning, e2ee, foundE2ee, (), signingKey, (), e2eeKey, (), ⟨⟨auth, assertion⟩, agreement⟩,
      _, valid, manifest, rfl, ?_⟩
    simp only [one, reject_ok, ne_eq, not_or, not_not]
    exact listed

/-- The test passes on more keys, and with any profiles that the listed device is compatible with. -/
theorem localAuthorizationMatches_mono {next : LocalAuthorizationRecord} (found : FoundIn record.keys other.keys)
    (deviceId : next.deviceId = authorization.deviceId) (signingKid : next.signingKid = authorization.signingKid)
    (e2eeKid : next.e2eeKid = authorization.e2eeKid)
    (profiles : ∀ manifest device, anp.validateDeviceManifest document = .ok (some manifest) →
      manifest.devices.filter (·.deviceId == authorization.deviceId) = [device] →
      compatibleLocalProfiles authorization.profiles device.profiles = true →
      compatibleLocalProfiles next.profiles device.profiles = true)
    (passed : localAuthorizationMatches anp record document authorization = .ok ()) :
    localAuthorizationMatches anp other document next = .ok () := by
  obtain ⟨signing, e2ee, manifest, device, foundSigning, foundE2ee, signingKey, e2eeKey, auth, assertion, agreement,
    valid, one, sameSigning, sameE2ee, compatible⟩ := localAuthorizationMatches_ok.mp passed
  obtain ⟨signing', there, face⟩ := found (fun f => f.1 == authorization.signingKid) signing foundSigning
  obtain ⟨e2ee', there', face'⟩ := found (fun f => f.1 == authorization.e2eeKid) e2ee foundE2ee
  have kid : signing'.kid = signing.kid := congrArg Prod.fst face
  have kid' : e2ee'.kid = e2ee.kid := congrArg Prod.fst face'
  refine localAuthorizationMatches_ok.mpr ⟨signing', e2ee', manifest, device, ?_, ?_, ?_, ?_, ?_, ?_, ?_, valid, ?_, ?_,
    ?_, profiles manifest device valid one compatible⟩
  · rw [signingKid]; exact there
  · rw [e2eeKid]; exact there'
  · rw [keyMatchesDocument_face face]; exact signingKey
  · rw [keyMatchesDocument_face face']; exact e2eeKey
  · rw [kid]; exact auth
  · rw [kid]; exact assertion
  · rw [kid']; exact agreement
  · rw [deviceId]; exact one
  · rw [signingKid]; exact sameSigning
  · rw [e2eeKid]; exact sameE2ee

theorem requestSigningAuthorizationMatches_mono {kid : String} (found : FoundIn record.keys other.keys)
    (passed : requestSigningAuthorizationMatches anp record document kid = .ok ()) :
    requestSigningAuthorizationMatches anp other document kid = .ok () := by
  simp only [requestSigningAuthorizationMatches, except_bind_ok, okOr_ok] at passed ⊢
  obtain ⟨key, present, _, matched, rest⟩ := passed
  obtain ⟨key', there, face⟩ := found (fun f => f.1 == kid && f.2.1 == .requestSigning) key present
  exact ⟨key', there, (), by rw [keyMatchesDocument_face face]; exact matched, rest⟩

/-- The test reads the faces of the keys and the local authorization only. -/
theorem localAuthorized_congr (faces : record.keys.map (·.face) = other.keys.map (·.face))
    (device : record.localAuthorization = other.localAuthorization)
    (request : record.localRequestSigningKid = other.localRequestSigningKid) :
    localAuthorized anp record document = localAuthorized anp other document := by
  have there := FoundIn.of_faces faces
  have back := FoundIn.of_faces faces.symm
  unfold localAuthorized
  rw [← device, ← request]
  cases record.localAuthorization with
  | some authorization =>
    rw [Bool.eq_iff_iff, isOk_iff, isOk_iff]
    exact ⟨localAuthorizationMatches_mono there rfl rfl rfl (fun _ _ _ _ same => same),
      localAuthorizationMatches_mono back rfl rfl rfl (fun _ _ _ _ same => same)⟩
  | none =>
    cases record.localRequestSigningKid with
    | none => rfl
    | some kid =>
      rw [Bool.eq_iff_iff, isOk_iff, isOk_iff]
      exact ⟨requestSigningAuthorizationMatches_mono there, requestSigningAuthorizationMatches_mono back⟩

end

/-! ## Calls that store a record -/

section
variable {anp : Anp} {s : Store} {record : IdentityRecord}

variable {next : IdentityRecord} {entropy : Entropy} {spec : AdoptVerifiedDocumentSpec} {outcome : AdoptDocumentOutcome}

theorem persistRecord_ok (returned : (persistRecord record).result s = .ok next) :
    next = { record with generation := record.generation + 1 } ∧ (persistRecord record).writes s = [.identity next] := by
  unfold persistRecord checkedSucc at returned ⊢
  by_cases room : record.generation + 1 < 2 ^ 64
  · rw [if_pos room] at returned ⊢
    cases returned
    exact ⟨rfl, rfl⟩
  · rw [if_neg room] at returned
    cases returned

theorem persistStateTransition_ok (returned : (persistStateTransition entropy record).result s = .ok next) :
    next = { record with generation := record.generation + 1 } := by
  obtain ⟨⟨⟩, -, rest⟩ := result_bind returned
  obtain ⟨stored, persisted, rest⟩ := result_bind rest
  obtain ⟨registry, -, rest⟩ := result_bind rest
  obtain ⟨⟨⟩, -, rest⟩ := result_bind rest
  obtain ⟨put, -, rest⟩ := result_bind rest
  obtain ⟨⟨⟩, -, rest⟩ := result_bind rest
  obtain ⟨⟨⟩, -, rest⟩ := result_bind rest
  cases rest
  exact (persistRecord_ok persisted).1

/-- An adoption that returns has passed its checks on the record that it read. -/
theorem adoptVerifiedDocument_ok {self adopted : DidIdentity} (read : s.readIdentity anp self.identityId = .ok record)
    (returned : (self.adoptVerifiedDocument anp entropy spec).result s = .ok (adopted, outcome)) :
    ∃ next, adoptRecord anp record spec false = .ok (outcome, next) ∧
      (next = none ∧ adopted = self ∨
        ∃ after, next = some after ∧ adopted.record = { after with generation := after.generation + 1 }) := by
  obtain ⟨⟨⟩, -, rest, -⟩ := Issues.peel (.lift _) returned
  obtain ⟨⟨⟩, -, rest, -⟩ := Issues.peel (.lift _) rest
  obtain ⟨found, reread, rest, -⟩ := Issues.peel (readIdentity_issues anp _) rest
  cases read.symm.trans reread
  obtain ⟨now, same, rest, -⟩ := Issues.peel .get rest
  obtain ⟨⟨⟩, -, rest, -⟩ := Issues.peel (.lift _) rest
  obtain ⟨⟨decided, next⟩, made, rest, -⟩ := Issues.peel (.lift _) rest
  cases next with
  | none =>
    cases rest
    exact ⟨none, made, .inl ⟨rfl, rfl⟩⟩
  | some after =>
    obtain ⟨stored, persisted, rest⟩ := result_bind rest
    cases rest
    exact ⟨some after, made, .inr ⟨after, rfl, persistStateTransition_ok persisted⟩⟩

theorem refreshCompatibleLocalProfiles_only (anp : Anp) (record : IdentityRecord) (document : Value) :
    ∃ authorization, refreshCompatibleLocalProfiles anp record document =
      { record with localAuthorization := authorization } := by
  unfold refreshCompatibleLocalProfiles
  repeat' split
  all_goals exact ⟨_, rfl⟩

/-- The retired devices after a document takes the place of another. -/
structure Observes (record : IdentityRecord) (document : Value) (retired : List String) : Prop where
  barred : ∀ device ∈ record.retiredDeviceIds, device ∉ deviceIds document
  retires : ∀ device, device ∈ retired ↔
    device ∈ record.retiredDeviceIds ∨ device ∈ deviceIds record.document ∧ device ∉ deviceIds document

theorem observeDevices_observes {document : Value} (observed : record.observeDevices document = .ok next) :
    ∃ retired, Observes record document retired ∧ next = { record with retiredDeviceIds := retired } := by
  simp only [IdentityRecord.observeDevices, except_bind_ok, reject_ok, Except.ok.injEq] at observed
  obtain ⟨_, barred, rfl⟩ := observed
  refine ⟨_, ⟨fun device retired listed => barred ?_, fun device => ?_⟩, rfl⟩
  · exact List.any_eq_true.mpr ⟨device, retired, by simpa using listed⟩
  · rw [List.mem_dedup, List.mem_insertionSort, List.mem_append, List.mem_filter]
    simp

/-- Adoption revokes an active record exactly if the document does not authorise it. -/
theorem adoptRecord_active {next : Option IdentityRecord} (active : record.state = .active)
    (adopted : adoptRecord anp record spec false = .ok (outcome, next)) :
    (outcome ≠ .revoked ↔ localAuthorized anp record spec.document = true) ∧
      ∀ after, next = some after → (after.state = .active ↔ localAuthorized anp record spec.document = true) := by
  simp only [adoptRecord, except_bind_ok] at adopted
  obtain ⟨_, -, ⟨decided, changed⟩, made, rest⟩ := adopted
  have shape : (decided ≠ .revoked ↔ localAuthorized anp record spec.document = true) ∧
      (changed.state = .active ↔ localAuthorized anp record spec.document = true) := by
    unfold adoptOutcome at made
    rw [active] at made
    cases authorized : localAuthorized anp record spec.document with
    | false =>
      simp only [authorized, Bool.not_false, if_true] at made
      cases made
      simp
    | true =>
      simp only [authorized, Bool.not_true, Bool.false_eq_true, if_false] at made
      split at made <;> (cases made; simp [active])
  split at rest
  · cases rest
    exact ⟨shape.1, fun after none => by cases none⟩
  · simp only [except_bind_ok] at rest
    obtain ⟨observed, devices, rest⟩ := rest
    cases rest
    refine ⟨shape.1, fun after stored => ?_⟩
    cases stored
    obtain ⟨retired, -, rfl⟩ := observeDevices_observes devices
    obtain ⟨authorization, same⟩ := refreshCompatibleLocalProfiles_only anp changed spec.document
    rw [same]
    exact shape.2

/-! ## Promotion -/

/-- The imported root is confirmed by a verified document. -/
structure Promotes (record : IdentityRecord) (spec : RootPromotionSpec) (next : IdentityRecord) : Prop where
  pending : record.rootCapability = .pending
  transfer : record.pendingRootTransfer ≠ none
  progress : ∃ current, record.checkpoint = some current ∧ validateCheckpointProgression (some current) spec.evidence = .ok ()
  promoted : ∃ keys, activateRootKey record.keys = some keys ∧ next = { record with
    keys
    rootCapability := .active
    pendingRootTransfer := none
    document := spec.document
    initialPublicationPending := false
    checkpoint := some (checkpoint spec.evidence)
    revision := spec.evidence.documentVersion }

theorem promoteRecord_promotes {spec : RootPromotionSpec} (promoted : promoteRecord record spec = .ok (some next)) :
    Promotes record spec next := by
  unfold promoteRecord at promoted
  split at promoted
  · cases promoted
  · simp only [except_bind_ok, reject_ok, okOr_ok, validatePromotionProgression, not_or, not_not, ne_eq,
      Except.ok.injEq, Option.some.injEq] at promoted
    obtain ⟨_, ⟨pending, transfer⟩, _, ⟨current, recorded, progress⟩, keys, activated, rfl⟩ := promoted
    refine ⟨pending, ?_, ⟨current, recorded, progress⟩, keys, activated, rfl⟩
    intro none
    simp [none] at transfer

theorem confirmRootPromotion_ok {self promoted : DidIdentity} {spec : RootPromotionSpec}
    (read : s.readIdentity anp self.identityId = .ok record) (pending : record.rootCapability = .pending)
    (confirmed : (self.confirmRootPromotion anp entropy spec).result s = .ok promoted) :
    ∃ next, Promotes record spec next ∧ promoted.record = { next with generation := next.generation + 1 } := by
  obtain ⟨⟨⟩, -, rest, -⟩ := Issues.peel (.lift _) confirmed
  obtain ⟨⟨⟩, -, rest, -⟩ := Issues.peel (.lift _) rest
  obtain ⟨fingerprint, -, rest, -⟩ := Issues.peel (.lift _) rest
  obtain ⟨⟨⟩, -, rest, -⟩ := Issues.peel (.lift _) rest
  obtain ⟨found, reread, rest, -⟩ := Issues.peel (readIdentity_issues anp _) rest
  cases read.symm.trans reread
  obtain ⟨⟨⟩, -, rest, -⟩ := Issues.peel (.lift _) rest
  obtain ⟨next, made, rest, -⟩ := Issues.peel (.lift _) rest
  cases next with
  | none => simp [promoteRecord, pending, except_bind_ok] at made
  | some next =>
    obtain ⟨stored, persisted, rest⟩ := result_bind rest
    cases rest
    exact ⟨next, promoteRecord_promotes made, persistStateTransition_ok persisted⟩

end

/-- A promotion makes an imported root active. The identity is then active and authorised by the promoted
document, and adopting the document instead would not have revoked it, exactly when the record was active
and authorised by the document before. -/
theorem confirmRootPromotion_authorised_iff (anp : Anp) (self promoted : DidIdentity) (entropy : Entropy)
    (spec : RootPromotionSpec) (s : Store) (record : IdentityRecord)
    (read : s.readIdentity anp self.identityId = .ok record) (pending : record.rootCapability = .pending)
    (confirmed : (self.confirmRootPromotion anp entropy spec).result s = .ok promoted) :
    promoted.record.rootCapability = .active ∧
      ((promoted.record.state = .active ∧ localAuthorized anp promoted.record spec.document = true ∧
        ∀ adopted outcome, (DidIdentity.adoptVerifiedDocument anp ⟨record⟩ entropy ⟨spec.document, spec.evidence⟩).result s =
          .ok (adopted, outcome) → outcome ≠ .revoked) ↔
      record.state = .active ∧ localAuthorized anp record spec.document = true) := by
  obtain ⟨next, promotes, same⟩ := confirmRootPromotion_ok read pending confirmed
  obtain ⟨keys, activated, rfl⟩ := promotes.promoted
  have test : localAuthorized anp promoted.record spec.document = localAuthorized anp record spec.document := by
    rw [same]
    exact localAuthorized_congr (activateRootKey_same activated).faces rfl rfl
  refine ⟨by rw [same], ?_⟩
  rw [test, same]
  constructor
  · rintro ⟨active, authorised, -⟩
    exact ⟨active, authorised⟩
  · rintro ⟨active, authorised⟩
    refine ⟨active, authorised, fun adopted outcome returned => ?_⟩
    have named : s.readIdentity anp (DidIdentity.identityId ⟨record⟩) = .ok record := by
      rw [DidIdentity.identityId, readIdentity_named read, read]
    obtain ⟨next, made, -⟩ := adoptVerifiedDocument_ok named returned
    exact (adoptRecord_active active made).1.mpr authorised

namespace Plain

/-- The evidence that a registry gives for one version of a document. -/
def evidence (version : Nat) (document : Value) : VerifiedDocumentEvidence where
  documentVersion := version
  registryVersion := version
  documentDigest := ((documentDigest anp document).toOption).getD ""

def method (kid : String) (publicKey : PublicKeyMaterial) : Value :=
  .object (Object.of [("id", .string kid), ("publicKeyMultibase", .string (multibase publicKey))])

/-- A document of `did:wba:a` with a root key and devices that all use the keys of one enrollment. -/
def rootDocument (devices : List DeviceManifestEntry) : Value :=
  let methods := method "did:wba:a#r" (.ed25519 [7, 7]) ::
    devices.flatMap (fun device => [method device.signingKeyId (.ed25519 [1, 1]), method device.e2eeKeyId (.x25519 [2, 2])])
  .object (Object.of [("id", .string "did:wba:a"), ("verificationMethod", .array methods),
    ("authentication", .array (devices.map (fun device => .string device.signingKeyId))),
    ("assertionMethod", .array (devices.map (fun device => .string device.signingKeyId))),
    ("keyAgreement", .array (devices.map (fun device => .string device.e2eeKeyId))),
    ("deviceManifest", manifestValue { manifestType := "DeviceManifest", devices }),
    ("proof", .object [("verificationMethod", .string "did:wba:a#r")])])

def device : DeviceManifestEntry where
  deviceId := "d"
  signingKeyId := "did:wba:a#s"
  e2eeKeyId := "did:wba:a#e"
  profiles := ["p"]

def enrollment : EnrollmentSpec where
  verifiedDocument := rootDocument []
  evidence := evidence 1 (rootDocument [])
  deviceId := "d"
  deviceSigningFragment := "s"
  deviceE2eeFragment := "e"
  profiles := ["p"]

def rootImport : LegacyRootTransferImportSpec where
  evidence := { transferId := "t", sourceDid := "did:wba:a", targetDid := "did:wba:a", senderDeviceId := "c",
                recipientDeviceId := "d", recipientAgreementKid := "did:wba:a#e", rootKid := "did:wba:a#r",
                checkpoint := checkpoint (evidence 2 (rootDocument [device])), acceptedAt := "now" }
  encoding := .raw32
  rootKey := (key 7).val

/-- A device is enrolled, a document that lists it is adopted and the root key is imported. -/
def rootImported : List Event :=
  [.openStore none, .store 0 (.prepareEnrollment enrollment) (entropy "0" 1) none,
   .identity 0 (.adoptVerifiedDocument ⟨rootDocument [device], evidence 2 (rootDocument [device])⟩) (entropy "1" 1) none,
   .identity 0 (.importLegacyRootTransfer rootImport) (entropy "2" 1) none]

end Plain

theorem of_any {α : Type} {result : DidResult α} {p : α → Bool} (any : result.toOption.any p = true) :
    ∃ a, result = .ok a ∧ p a = true := by
  cases result with
  | error e => cases any
  | ok a => exact ⟨a, rfl, any⟩

theorem confirmRootPromotion_authorised_device :
    let w := World.initial.run Plain.anp Plain.rootImported
    let document := Plain.rootDocument [Plain.device]
    ∃ self ∈ w.identities, ∃ record promoted, w.store.readIdentity Plain.anp self.identityId = .ok record ∧
      record.rootCapability = .pending ∧
      (self.confirmRootPromotion Plain.anp (Plain.entropy "3" 1) ⟨document, Plain.evidence 3 document⟩).result w.store =
        .ok promoted ∧
      promoted.record.state = .active ∧ localAuthorized Plain.anp promoted.record document = true := by
  intro w document
  have run : ∃ self ∈ w.identities,
      (w.store.readIdentity Plain.anp self.identityId).toOption.any (fun record => record.rootCapability == .pending &&
        record.state == .active && localAuthorized Plain.anp record document) = true ∧
      ((self.confirmRootPromotion Plain.anp (Plain.entropy "3" 1) ⟨document, Plain.evidence 3 document⟩).result
        w.store).toOption.any (fun _ => true) = true := by
    decide +kernel
  obtain ⟨self, member, reads, confirms⟩ := run
  obtain ⟨record, read, facts⟩ := of_any reads
  obtain ⟨promoted, confirmed, -⟩ := of_any confirms
  simp only [Bool.and_eq_true, beq_iff_eq] at facts
  obtain ⟨⟨pending, active⟩, authorised⟩ := facts
  have promotes := (confirmRootPromotion_authorised_iff Plain.anp self promoted (Plain.entropy "3" 1)
    ⟨document, Plain.evidence 3 document⟩ w.store record read pending confirmed).2.mpr ⟨active, authorised⟩
  exact ⟨self, member, record, promoted, read, pending, confirmed, promotes.1, promotes.2.1⟩

/-- Promoting a document that no longer lists the device makes the root active, where adopting the
document revokes the identity. -/
theorem confirmRootPromotion_unauthorised :
    let w := World.initial.run Plain.anp Plain.rootImported
    let document := Plain.rootDocument []
    ∃ self ∈ w.identities, self.record.rootCapability = .pending ∧
      ((self.confirmRootPromotion Plain.anp (Plain.entropy "3" 1) ⟨document, Plain.evidence 3 document⟩).result
        w.store).toOption.any (fun promoted => promoted.record.rootCapability == .active) = true ∧
      ((self.adoptVerifiedDocument Plain.anp (Plain.entropy "3" 1) ⟨document, Plain.evidence 3 document⟩).result
        w.store).toOption.any (fun adopted => adopted.2 == .revoked) = true := by
  decide +kernel

/-! ## Commit -/

section
variable {anp : Anp} {s : Store} {record : IdentityRecord} {document : Value}

/-- The profiles change only where the document authorises the device, to those that it lists. -/
private theorem refresh_authorization (document : Value) {authorization : LocalAuthorizationRecord}
    (recorded : record.localAuthorization = some authorization) :
    (refreshCompatibleLocalProfiles anp record document).localAuthorization = some authorization ∨
      localAuthorizationMatches anp record document authorization = .ok () ∧
      ∃ manifest device, anp.validateDeviceManifest document = .ok (some manifest) ∧
        manifest.devices.filter (·.deviceId == authorization.deviceId) = [device] ∧
        (refreshCompatibleLocalProfiles anp record document).localAuthorization =
          some { authorization with profiles := device.profiles } := by
  unfold refreshCompatibleLocalProfiles
  rw [recorded]
  by_cases passed : (localAuthorizationMatches anp record document authorization).isOk = true
  · obtain ⟨_, _, manifest, device, -, -, -, -, -, -, -, valid, one, -⟩ :=
      localAuthorizationMatches_ok.mp (isOk_iff.mp passed)
    have first : manifest.devices.find? (·.deviceId == authorization.deviceId) = some device := by
      rw [← List.head?_filter, one]
      rfl
    right
    refine ⟨isOk_iff.mp passed, manifest, device, valid, one, ?_⟩
    simp only [passed, if_true, valid, first]
  · left
    simp only [passed, Bool.false_eq_true, if_false, recorded]

/-- The record as `read_identity` shows it with the document and the keys of a pending revision. -/
def IdentityRecord.withRevision (record : IdentityRecord) (pending : PendingRevisionRecord) : IdentityRecord :=
  { record with document := pending.candidateDocument, keys := record.keys ++ pending.newKeyMetadata }

/-- The document of the pending revision authorises the device or request-signing key that the record has with it. -/
def CandidateAuthorises (anp : Anp) (record : IdentityRecord) (pending : PendingRevisionRecord) : Prop :=
  ∀ authorization, completeAuthorization anp (record.withRevision pending) = .ok authorization → localAuthorized anp
    { record.withRevision pending with localAuthorization := authorization } pending.candidateDocument = true

/-- How a committed record differs from the one before, as far as authorization goes. -/
structure Committed (anp : Anp) (record : IdentityRecord) (pending : PendingRevisionRecord) (next : IdentityRecord) :
    Prop where
  did : next.did = record.did
  state : next.state = record.state
  document : next.document = pending.candidateDocument
  rootCapability : next.rootCapability = record.rootCapability
  rootKeyFingerprint : next.rootKeyFingerprint = record.rootKeyFingerprint
  localRequestSigningKid : next.localRequestSigningKid = record.localRequestSigningKid
  authorised : ∃ keys, keys.map (·.face) = record.keys.map (·.face) ∧ next.keys = keys ++ pending.newKeyMetadata ∧
    next.localAuthorization =
      (refreshCompatibleLocalProfiles anp { record with keys } pending.candidateDocument).localAuthorization

theorem commitRecord_ok {pending : PendingRevisionRecord} {revisionId : String} {fromReconcile : Bool}
    {evidence : Option VerifiedDocumentEvidence} {next : IdentityRecord}
    (prepared : record.pendingRevision = some pending)
    (committed : commitRecord anp record revisionId fromReconcile evidence = .ok next) :
    Committed anp record pending next := by
  simp only [commitRecord, except_bind_ok] at committed
  obtain ⟨found, required, _, -, _, -, observed, devices, revision, -, registryVersion, -, digest, -, rest⟩ := committed
  have same : pending = found := by
    simp only [requiredPending, okOr_ok, prepared, Option.filter_eq_some_iff, Option.some.injEq] at required
    exact required.1
  subst same
  obtain ⟨retired, -, rfl⟩ := observeDevices_observes devices
  obtain ⟨authorization, only⟩ := refreshCompatibleLocalProfiles_only anp { record with
    keys := pending.retiredKids.foldl (fun keys kid => retireKey kid keys) record.keys } pending.candidateDocument
  cases rest
  constructor
  case authorised =>
    refine ⟨_, (retireKeys_same pending.retiredKids record.keys).faces, ?_, rfl⟩
    rw [only]
  all_goals (rw [only])

theorem commitVerifiedUpdate_ok {self committed : DidIdentity} {revisionId : String} {fromReconcile : Bool}
    {evidence : VerifiedDocumentEvidence} (read : s.readIdentity anp self.identityId = .ok record)
    (returned : (self.commitVerifiedUpdate anp revisionId fromReconcile evidence).result s = .ok committed) :
    record.state = .active ∧ ∃ next, commitRecord anp record revisionId fromReconcile (some evidence) = .ok next ∧
      committed.record = { next with generation := next.generation + 1 } ∧
      (self.commitVerifiedUpdate anp revisionId fromReconcile evidence).final s =
        Medium.apply s (.identity committed.record) := by
  have current : Issues (fun _ => False) (self.currentRecordForMutation anp) :=
    .bind (readIdentity_issues anp _) (fun _ => .bind (.lift _) (fun _ => .pure _))
  obtain ⟨found, mutable, rest, run⟩ := Issues.peel current returned
  obtain ⟨reread, again, active, -⟩ := Issues.peel (readIdentity_issues anp _) mutable
  cases read.symm.trans again
  obtain ⟨⟨⟩, checked, same, -⟩ := Issues.peel (.lift _) active
  cases same
  obtain ⟨next, made, rest, step⟩ := Issues.peel (.lift _) rest
  obtain ⟨stored, persisted, last⟩ := result_bind rest
  cases last
  obtain ⟨rfl, writes⟩ := persistRecord_ok persisted
  refine ⟨?_, next, made, rfl, ?_⟩
  · by_contra inactive
    simp [reject, inactive] at checked
  · have whole := (bind_ok (fun record => (Pure.pure ⟨record⟩ : Tx DidIdentity)) persisted).1
    rw [writes] at whole
    unfold DidIdentity.commitVerifiedUpdate DidIdentity.commitPending
    rw [Program.final, Program.writes, run.trans step]
    exact congrArg (applyAll s) whole

variable {keys others : List KeyMetadata}

theorem localDevices_congr (manifest : DeviceManifest) (faces : keys.map (·.face) = others.map (·.face)) :
    localDevices manifest keys = localDevices manifest others := by
  unfold localDevices
  refine List.filter_congr (fun device _ => ?_)
  congr 1
  · exact any_face faces (fun f => f.2.2.1 == .managed && f.2.1 == .deviceSigning && f.1 == device.signingKeyId)
  · exact any_face faces (fun f => f.2.2.1 == .managed && f.2.1 == .e2eeAgreement && f.1 == device.e2eeKeyId)

theorem inferLocalAuthorization_devices (same : ∀ manifest, localDevices manifest keys = localDevices manifest others) :
    inferLocalAuthorization anp document keys = inferLocalAuthorization anp document others := by
  simp only [inferLocalAuthorization, same]

theorem inferLocalAuthorization_congr (faces : keys.map (·.face) = others.map (·.face)) :
    inferLocalAuthorization anp document keys = inferLocalAuthorization anp document others :=
  inferLocalAuthorization_devices (fun manifest => localDevices_congr manifest faces)

theorem completeRecord_seen {seen : IdentityRecord} (completed : completeRecord anp record = .ok seen) :
    completeFingerprint anp record = .ok seen.rootKeyFingerprint ∧
      completeAuthorization anp record = .ok seen.localAuthorization ∧ seen.state = record.state ∧
      seen.keys = record.keys ∧ seen.localRequestSigningKid = record.localRequestSigningKid := by
  obtain ⟨_, _, _, fingerprint, -, authorization, rfl⟩ := completeRecord_ok.mp completed
  exact ⟨fingerprint, authorization, rfl, rfl, rfl⟩

section
variable {pending : PendingRevisionRecord} {next seen : IdentityRecord}

private theorem Committed.faces (committed : Committed anp record pending next) :
    next.keys.map (·.face) = (record.withRevision pending).keys.map (·.face) := by
  obtain ⟨keys, faces, added, -⟩ := committed.authorised
  simp [IdentityRecord.withRevision, added, faces]

/-- The committed record, read back, passes the test that the record before passes with the revision. -/
private theorem Committed.authorises (committed : Committed anp record pending next) (completed : completeRecord anp next = .ok seen)
    (authorises : CandidateAuthorises anp record pending) : localAuthorized anp seen pending.candidateDocument = true := by
  obtain ⟨keys, faces, added, refreshed⟩ := committed.authorised
  obtain ⟨-, after, -, seenKeys, seenKid⟩ := completeRecord_seen completed
  have all : seen.keys.map (·.face) = (record.withRevision pending).keys.map (·.face) := by rw [seenKeys, committed.faces]
  have kid := seenKid.trans committed.localRequestSigningKid
  cases recorded : record.localAuthorization with
  | none =>
    have kept : next.localAuthorization = none := by
      simp only [refreshed, refreshCompatibleLocalProfiles, recorded]
    simp only [completeAuthorization, kept, committed.document] at after
    rw [inferLocalAuthorization_congr committed.faces] at after
    have passed := authorises seen.localAuthorization
      (by simpa only [completeAuthorization, IdentityRecord.withRevision, recorded] using after)
    rw [← passed]
    exact localAuthorized_congr all rfl kid
  | some authorization =>
    have passed := authorises (some authorization) (by simp only [completeAuthorization, IdentityRecord.withRevision, recorded])
    have recordedKeys : ({ record with keys } : IdentityRecord).localAuthorization = some authorization := recorded
    rcases refresh_authorization pending.candidateDocument recordedKeys with unchanged | moved
    · rw [← refreshed] at unchanged
      simp only [completeAuthorization, unchanged, Except.ok.injEq] at after
      rw [← passed]
      exact localAuthorized_congr all after.symm kid
    · -- the profiles moved because the document authorises the device
      obtain ⟨passed, manifest, device, valid, one, changed⟩ := moved
      rw [← refreshed] at changed
      simp only [completeAuthorization, changed, Except.ok.injEq] at after
      have found : FoundIn keys seen.keys := by
        rw [seenKeys, added]
        exact FoundIn.append _ _
      unfold localAuthorized
      rw [← after, isOk_iff]
      refine localAuthorizationMatches_mono found ?_ ?_ ?_ (fun manifest' device' valid' one' _ => ?_) passed
      · rfl
      · rfl
      · rfl
      · cases valid.symm.trans valid'
        cases one.symm.trans one'
        simp [compatibleLocalProfiles]

end
end

/-- Adopting the document just committed, with the evidence that it was committed with, leaves the identity active if the
document authorises the device or request-signing key that the record named before the commit. -/
theorem CandidateAuthorises.adopted {anp : Anp} {self committed adopted : DidIdentity} {entropy : Entropy} {revisionId : String}
    {fromReconcile : Bool} {evidence : VerifiedDocumentEvidence} {s : Store} {record : IdentityRecord}
    {pending : PendingRevisionRecord} {outcome : AdoptDocumentOutcome} (authorises : CandidateAuthorises anp record pending)
    (read : s.readIdentity anp self.identityId = .ok record) (prepared : record.pendingRevision = some pending)
    (done : (self.commitVerifiedUpdate anp revisionId fromReconcile evidence).result s = .ok committed)
    (seen : (committed.adoptVerifiedDocument anp entropy ⟨pending.candidateDocument, evidence⟩).result
      ((self.commitVerifiedUpdate anp revisionId fromReconcile evidence).final s) = .ok (adopted, outcome)) :
    outcome ≠ .revoked ∧ adopted.record.state = .active := by
  obtain ⟨active, next, made, same, final⟩ := commitVerifiedUpdate_ok read done
  have before := commitRecord_ok prepared made
  have after : Committed anp record pending committed.record := by
    rw [same]
    exact ⟨before.1, before.2, before.3, before.4, before.5, before.6, before.7⟩
  obtain ⟨⟨⟩, -, rest, -⟩ := Issues.peel (.lift _) seen
  obtain ⟨⟨⟩, -, rest, -⟩ := Issues.peel (.lift _) rest
  obtain ⟨shown, reread, -, -⟩ := Issues.peel (readIdentity_issues anp _) rest
  obtain ⟨stored, found, -, completed⟩ := readIdentity_ok.mp reread
  have written : stored = committed.record := by
    rw [final] at found
    simpa [DidIdentity.identityId] using found.symm
  subst written
  obtain ⟨decided, adopt, stored⟩ := adoptVerifiedDocument_ok reread seen
  have still : shown.state = .active := by
    rw [(completeRecord_seen completed).2.2.1, after.state, active]
  obtain ⟨kept, state⟩ := adoptRecord_active still adopt
  have passed := after.authorises completed authorises
  refine ⟨kept.mpr passed, ?_⟩
  rcases stored with ⟨-, rfl⟩ | ⟨last, changed, equal⟩
  · rw [after.state, active]
  · rw [equal]
    exact (state last changed).mpr passed

namespace Plain

/-- A document of `did:web:a.b` that lists a request-signing key, or none. -/
def webDocument (kids : List String) : Value :=
  .object (Object.of [("id", .string "did:web:a.b"),
    ("verificationMethod", .array (kids.map (fun kid => method kid (.ed25519 [1, 1])))),
    ("authentication", .array (kids.map .string))])

def requestEnrollment : RequestSigningEnrollmentSpec where
  verifiedDocument := webDocument []
  evidence := evidence 1 (webDocument [])
  fragment := "k"

/-- An update that leaves the keys alone. -/
def serviceUpdate : DocumentUpdateSpec where
  services := some []

end Plain
end AnpIdentity
