import AnpIdentity.KeyStates
import AnpIdentity.Readable

/-! Identities live in order: in every run that spares the root, each record that is stored founds an identity or
follows on the record before it. -/

namespace AnpIdentity
open Durable Program

section
variable {anp : Anp} {w : World} {event : Event} {s : Store} {entropy : Entropy} {file seen record : IdentityRecord}

/-! ## Records that are brought in -/

section
variable {document : Value} {kid createdAt : String} {role : KeyRole} {origin : KeyOrigin} {key : KeyMetadata}

theorem keyMetadata_found (made : keyMetadata anp document kid role origin createdAt = .ok key) :
    key.state = .active ∧ anp.findVerificationMethod document key.kid ≠ none := by
  simp only [keyMetadata, except_bind_ok, okOr_ok] at made
  obtain ⟨method, found, _, -, same⟩ := made
  cases same
  exact ⟨rfl, by rw [found]; simp⟩

theorem keyMetadataFromPublic_generated {publicKey : PublicKeyMaterial}
    (made : keyMetadataFromPublic anp kid role .managed .pending publicKey createdAt = .ok key) :
    key.kid = kid ∧ key.Generated role := by
  simp only [keyMetadataFromPublic, except_bind_ok] at made
  obtain ⟨_, -, same⟩ := made
  cases same
  exact ⟨rfl, rfl, rfl, rfl⟩

theorem optionalRootMetadata_root {root : Option KeyMetadata}
    (made : optionalRootMetadata anp document createdAt = .ok root) :
    ∀ key ∈ root, key.Describes key.kid .rootControl .external ∧ key.state = .active ∧
      anp.findVerificationMethod document key.kid ≠ none := by
  simp only [optionalRootMetadata, except_bind_ok] at made
  obtain ⟨profile, -, made⟩ := made
  split at made
  · simp only [except_bind_ok] at made
    obtain ⟨rootKid, -, key, described, same⟩ := made
    cases same
    intro other listed
    obtain rfl := Option.some.inj listed
    have facts := keyMetadata_ok described
    exact ⟨facts.kid ▸ facts, keyMetadata_found described⟩
  · cases made
    exact fun _ listed => by cases listed

end

section
variable {root : Option KeyMetadata} {keys rest : List KeyMetadata} {device : Option LocalAuthorizationRecord}
  {request : Option String}

private theorem rootKid_first (others : ∀ key ∈ rest, key.role ≠ .rootControl) {kid : String}
    (rooted : RootKid (root.toList ++ rest) kid) : ∃ first ∈ root, first.kid = kid := by
  obtain ⟨key, inside, isRoot, same⟩ := rooted
  rcases List.mem_append.mp inside with first | other
  · exact ⟨key, Option.mem_toList.mp first, same⟩
  · exact absurd isRoot (others key other)

/-- A record that starts with the root key in front of other keys. -/
private theorem RootApart.first (roots : ∀ first ∈ root, first.role = .rootControl ∧ first.state = .active)
    (others : ∀ key ∈ rest, key.role ≠ .rootControl) (apart : ∀ first ∈ root, ∀ key ∈ rest, key.kid ≠ first.kid)
    (devices : ∀ authorization ∈ device, ∀ kid ∈ authorization.kids, ∃ key ∈ rest, key.kid = kid)
    (requests : ∀ kid ∈ request, ∃ key ∈ rest, key.kid = kid) : RootApart (root.toList ++ rest) device request none := by
  have free : ∀ key ∈ rest, ¬ RootKid (root.toList ++ rest) key.kid := by
    intro key inside rooted
    obtain ⟨first, listed, same⟩ := rootKid_first others rooted
    exact apart first listed key inside same.symm
  refine ⟨?_, ?_, ?_, ?_, fun _ listed => (nomatch listed), fun _ listed => (nomatch listed)⟩
  · intro key inside isRoot
    rcases List.mem_append.mp inside with first | other
    · simp [KeyState.Ended, (roots key (Option.mem_toList.mp first)).2]
    · exact absurd isRoot (others key other)
  · intro key inside other
    rcases List.mem_append.mp inside with first | later
    · exact absurd (roots key (Option.mem_toList.mp first)).1 other
    · exact free key later
  · intro authorization listed kid names
    obtain ⟨key, inside, rfl⟩ := devices authorization listed kid names
    exact free key inside
  · intro kid listed
    obtain ⟨key, inside, rfl⟩ := requests kid listed
    exact free key inside

variable {document : Value}

/-- The device that is found for a record is one of two managed keys. -/
private theorem inferLocalAuthorization_keys (inferred : inferLocalAuthorization anp document keys = .ok device) :
    ∀ authorization ∈ device,
      (∃ key ∈ keys, key.origin = .managed ∧ key.role = .deviceSigning ∧ key.kid = authorization.signingKid) ∧
        ∃ key ∈ keys, key.origin = .managed ∧ key.role = .e2eeAgreement ∧ key.kid = authorization.e2eeKid := by
  unfold inferLocalAuthorization at inferred
  obtain ⟨manifest, -, inferred⟩ := except_bind_ok.mp inferred
  cases manifest with
  | none =>
    cases inferred
    exact fun _ listed => nomatch listed
  | some manifest =>
    obtain ⟨_, -, same⟩ := except_bind_ok.mp inferred
    cases same
    intro authorization listed
    obtain ⟨entry, first, rfl⟩ := Option.map_eq_some_iff.mp listed
    have held := (List.mem_filter.mp (List.mem_of_head? first)).2
    simp only [Bool.and_eq_true, List.any_eq_true, beq_iff_eq] at held
    obtain ⟨⟨signing, here, ⟨managed, role⟩, same⟩, e2ee, there, ⟨managed', role'⟩, same'⟩ := held
    exact ⟨⟨signing, here, managed, role, same⟩, e2ee, there, managed', role', same'⟩

private theorem inferLocalAuthorization_apart (inferred : inferLocalAuthorization anp document keys = .ok device)
    (others : ∀ key ∈ keys, key.role ≠ .rootControl → ¬ RootKid keys key.kid) :
    ∀ authorization ∈ device, ∀ kid ∈ authorization.kids, ¬ RootKid keys kid := by
  intro authorization listed kid names
  obtain ⟨⟨signing, here, -, role, same⟩, e2ee, there, -, role', same'⟩ :=
    inferLocalAuthorization_keys inferred authorization listed
  simp only [LocalAuthorizationRecord.kids, List.mem_cons, List.not_mem_nil, or_false] at names
  rcases names with rfl | rfl
  · rw [← same]
    exact others signing here (by rw [role]; simp)
  · rw [← same']
    exact others e2ee there (by rw [role']; simp)

private theorem RootApart.infer {pending : Option PendingRevisionRecord} (apart : RootApart keys none request pending)
    (inferred : inferLocalAuthorization anp document keys = .ok device) : RootApart keys device request pending :=
  { apart with device := inferLocalAuthorization_apart inferred apart.others }

end

/-! ## What calls bring in -/

variable {document : Value} {imported : List NewKey} {sources : List ImportedPrivateKey} {self : DidStore} {call : StoreCall}
  {action : StoreAction} {root : Option KeyMetadata}

private theorem prepareImportedKeyList_sources {did : String} {before : List NewKey}
    (made : prepareImportedKeyList anp did document before sources = .ok imported) :
    ∀ key ∈ imported, key ∈ before ∨ ∃ source ∈ sources, canonicalizeKid did source.kid = .ok key.kid := by
  induction sources generalizing before with
  | nil =>
    cases made
    exact fun _ inside => .inl inside
  | cons source rest ih =>
    obtain ⟨prepared, first, later⟩ := except_bind_ok.mp made
    simp only [prepareImportedKey, except_bind_ok] at first
    obtain ⟨kid, named, _, -, _, -, _, -, _, -, _, -, same⟩ := first
    cases same
    intro key inside
    rcases ih later key inside with old | ⟨source', listed, canonical⟩
    · rcases List.mem_append.mp old with earlier | new
      · exact .inl earlier
      · rw [List.mem_singleton.mp new]
        exact .inr ⟨source, List.mem_cons_self, named⟩
    · exact .inr ⟨source', List.mem_cons_of_mem _ listed, canonical⟩

/-- Imported keys are not the root key if the call does not bring it. -/
theorem imports_spare {evidence : VerifiedDocumentEvidence} {did rootKid : String}
    (imports : Imports anp document evidence did sources imported) (root : rootKeyId document = some rootKid)
    (spares : importsRoot document sources = false) : ∀ key ∈ imported, key.kid ≠ rootKid := by
  obtain ⟨-, named, made⟩ := imports
  obtain ⟨_, -, made⟩ := except_bind_ok.mp made
  rintro key inside rfl
  rcases prepareImportedKeyList_sources made key inside with before | ⟨source, listed, canonical⟩
  · cases before
  · simp only [importsRoot, named, root, List.any_eq_false] at spares
    have different := spares source listed
    simp [canonical, Except.toOption] at different

private theorem createdRecord_guarded {spec : DidCreateSpec} {built : BuiltIdentity} (builds : buildIdentity anp entropy spec = .ok built)
    (made : createdRecord anp entropy spec built = .ok record) : record.Guarded := by
  simp only [createdRecord, except_bind_ok] at made
  obtain ⟨_, -, _, -, authorization, inferred, same⟩ := made
  cases same
  refine ⟨?_, by rintro ⟨⟩⟩
  cases rooted : spec.profile.supportsRootControl with
  | true => exact .inl (by simp [newIdentityRecord])
  | false =>
    have rootless := buildIdentity_rootless builds rooted
    have none : ∀ kid, ¬ RootKid built.metadata kid := by
      rintro kid ⟨root, inside, isRoot, -⟩
      have other := List.any_eq_false.mp rootless root inside
      simp [isRoot] at other
    refine .inr ⟨fun root inside isRoot => absurd ⟨root, inside, isRoot, rfl⟩ (none root.kid), fun key _ _ => none key.kid,
      fun _ _ kid _ => none kid, fun _ listed => (by cases listed), fun _ listed => (by cases listed), fun _ listed => (by cases listed)⟩

private theorem enrolledRecord_guarded {spec : EnrollmentSpec} {did signingKid e2eeKid : String} (distinct : signingKid ≠ e2eeKid)
    (noSigning : anp.findVerificationMethod spec.verifiedDocument signingKid = none)
    (noE2ee : anp.findVerificationMethod spec.verifiedDocument e2eeKid = none)
    (made : enrolledRecord anp entropy spec did (enrollmentKey anp entropy 0 signingKid .deviceSigning)
      (enrollmentKey anp entropy 1 e2eeKid .e2eeAgreement) = .ok record) : record.Guarded := by
  simp only [enrolledRecord, except_bind_ok] at made
  obtain ⟨root, first, signing, second, e2ee, third, _, -, same⟩ := made
  cases same
  have roots := optionalRootMetadata_root first
  obtain ⟨rfl, signs⟩ := keyMetadataFromPublic_generated second
  obtain ⟨rfl, agrees⟩ := keyMetadataFromPublic_generated third
  have other : ∀ first ∈ root, signing.kid ≠ first.kid ∧ e2ee.kid ≠ first.kid := by
    intro first listed
    obtain ⟨-, -, found⟩ := roots first listed
    exact ⟨fun same => found (same ▸ noSigning), fun same => found (same ▸ noE2ee)⟩
  refine ⟨.inr (.first (fun first listed => ⟨(roots first listed).1.role, (roots first listed).2.1⟩) ?_ ?_ ?_ ?_),
    fun _ => ⟨rfl, rfl, .device rfl ?_ signs agrees distinct rfl rfl⟩⟩
  · simp [signs.role, agrees.role]
  · simpa using other
  · rintro authorization listed kid names
    obtain rfl := Option.some.inj listed
    simpa [LocalAuthorizationRecord.kids, enrollmentKey, eq_comm] using names
  · exact fun _ listed => by cases listed
  · intro first listed
    simpa [LocalAuthorizationRecord.kids, enrollmentKey, eq_comm, (roots first listed).2.1] using other first listed

private theorem requestSigningEnrolledRecord_guarded {spec : RequestSigningEnrollmentSpec} {did kid : String}
    (absent : anp.findVerificationMethod spec.verifiedDocument kid = none)
    (made : requestSigningEnrolledRecord anp entropy spec did (enrollmentKey anp entropy 0 kid .requestSigning) = .ok record) :
    record.Guarded := by
  simp only [requestSigningEnrolledRecord, except_bind_ok] at made
  obtain ⟨root, first, request, second, _, -, same⟩ := made
  cases same
  have roots := optionalRootMetadata_root first
  obtain ⟨rfl, signs⟩ := keyMetadataFromPublic_generated second
  refine ⟨.inr (.first (fun first listed => ⟨(roots first listed).1.role, (roots first listed).2.1⟩) ?_ ?_ ?_ ?_),
    fun _ => ⟨rfl, rfl, .request rfl ?_ signs rfl rfl⟩⟩
  · simp [signs.role]
  · intro first listed key inside same
    rw [List.mem_singleton.mp inside] at same
    exact (roots first listed).2.2 (same ▸ absent)
  · exact fun _ listed => by cases listed
  · intro kid listed
    obtain rfl := Option.some.inj listed
    exact ⟨request, List.mem_singleton_self _, rfl⟩
  · intro first listed
    obtain ⟨facts, active, -⟩ := roots first listed
    exact ⟨active, by rw [facts.role]; simp, facts.origin⟩

private theorem importedDeviceRecord_guarded {spec : DeviceIdentityImportSpec} {did rootKid : String}
    (roles : ∀ key ∈ imported, key.role = .deviceSigning ∨ key.role = .e2eeAgreement) (spare : ∀ key ∈ imported, key.kid ≠ rootKid)
    (made : importedDeviceRecord anp entropy spec did rootKid imported = .ok record) : record.Guarded := by
  simp only [importedDeviceRecord, except_bind_ok, okOr_ok] at made
  obtain ⟨rootMetadata, described, metadata, all, _, inferred, authorization, rfl, _, -, same⟩ := made
  cases same
  have facts := keyMetadata_ok described
  have kids : ∀ key ∈ metadata, key.role ≠ .rootControl ∧ key.kid ≠ rootMetadata.kid := by
    intro key inside
    obtain ⟨source, listed, described⟩ := mapM_ok all key inside
    have new := keyMetadata_ok described
    rw [new.role, new.kid, facts.kid]
    refine ⟨?_, spare source listed⟩
    rcases roles source listed with role | role <;> simp [role]
  have apart : RootApart ((some rootMetadata).toList ++ metadata) none none none := by
    refine .first ?_ (fun key inside => (kids key inside).1) ?_ (fun _ listed => (by cases listed)) (fun _ listed => (by cases listed))
    · simpa using ⟨facts.role, (keyMetadata_found described).1⟩
    · simpa using fun key inside => (kids key inside).2
  exact ⟨.inr (apart.infer inferred), by rintro ⟨⟩⟩

private theorem importedRequestSigningRecord_guarded {spec : RequestSigningIdentityImportSpec} {did rootKid : String} {request : NewKey}
    (spare : request.kid ≠ rootKid)
    (made : importedRequestSigningRecord anp entropy spec did rootKid request = .ok record) : record.Guarded := by
  simp only [importedRequestSigningRecord, except_bind_ok] at made
  obtain ⟨rootMetadata, described, metadata, requests, _, -, same⟩ := made
  cases same
  have facts := keyMetadata_ok described
  have new := keyMetadata_ok requests
  have apart : RootApart ((some rootMetadata).toList ++ [metadata]) none (some request.kid) none := by
    refine .first ?_ ?_ ?_ (fun _ listed => (by cases listed)) ?_
    · simpa using ⟨facts.role, (keyMetadata_found described).1⟩
    · simp [new.role]
    · simpa [new.kid, facts.kid] using spare
    · simpa using new.kid
  exact ⟨.inr apart, by rintro ⟨⟩⟩

/-- What is brought in keeps the root apart. -/
theorem StoreCall.Starts.guarded (started : call.Starts anp s self entropy action)
    (makes : action.Makes anp entropy record) (spares : call.SparesRoot) : record.Guarded := by
  cases call with
  | createIdentity spec =>
    obtain ⟨built, -, -, builds, rfl⟩ := started
    exact createdRecord_guarded builds makes
  | prepareEnrollment spec =>
    obtain ⟨did, signingKid, e2eeKid, -, -, -, -, -, distinct, noSigning, noE2ee, rfl⟩ := started
    exact enrolledRecord_guarded distinct noSigning noE2ee makes
  | prepareRequestSigningEnrollment spec =>
    obtain ⟨did, kid, -, -, -, -, absent, rfl⟩ := started
    exact requestSigningEnrolledRecord_guarded absent makes
  | importIdentity spec =>
    obtain ⟨did, imported, -, -, -, rfl⟩ := started
    simp only [StoreAction.Makes, importedRecord, except_bind_ok] at makes
    obtain ⟨_, -, _, -, _, -, same⟩ := makes
    cases same
    exact ⟨.inl rfl, by rintro ⟨⟩⟩
  | importDeviceIdentity spec =>
    obtain ⟨did, imported, rootKid, -, imports, roles, root, rfl⟩ := started
    exact importedDeviceRecord_guarded roles (imports_spare imports root spares) makes
  | importRequestSigningIdentity spec =>
    obtain ⟨did, imported, request, rootKid, -, imports, last, -, root, rfl⟩ := started
    exact importedRequestSigningRecord_guarded (imports_spare imports root spares request (List.mem_of_getLast? last)) makes
  | discardUnpublishedEnrollment did identityId generation
  | deleteIdentityNamespace did generation
  | deleteIdentityNamespaceDiscardingPending did generation =>
    obtain ⟨_, -, rfl⟩ := started
    exact makes.elim
  | openIdentity did | reload => exact started.elim

/-! ## What a step makes of a record -/

section
variable {fingerprint : Option String} {current : Option DocumentCheckpoint}

/-- Reading a record fills in its device only. -/
private theorem completeRecord_device (completed : completeRecord anp file = .ok seen) :
    ∃ fingerprint checkpoint authorization, completeAuthorization anp file = .ok authorization ∧ seen = { file with
      rootKeyFingerprint := fingerprint, checkpoint := some checkpoint, localAuthorization := authorization } := by
  obtain ⟨fingerprint, checkpoint, authorization, -, -, found, same⟩ := completeRecord_ok.mp completed
  exact ⟨fingerprint, checkpoint, authorization, found, same⟩

variable {authorization : Option LocalAuthorizationRecord}

private theorem completeAuthorization_apart {pending : Option PendingRevisionRecord}
    (found : completeAuthorization anp file = .ok authorization)
    (apart : RootApart file.keys file.localAuthorization file.localRequestSigningKid pending) :
    RootApart file.keys authorization file.localRequestSigningKid pending := by
  unfold completeAuthorization at found
  split at found
  · rename_i known
    cases found
    rwa [known] at apart
  · rename_i unknown
    rw [unknown] at apart
    exact apart.infer found

private theorem completeRecord_root (completed : completeRecord anp file = .ok seen) (guarded : file.Guarded) :
    seen.rootCapability = .active ∨
      RootApart seen.keys seen.localAuthorization seen.localRequestSigningKid seen.pendingRevision := by
  obtain ⟨_, _, authorization, device, rfl⟩ := completeRecord_device completed
  have root : file.rootCapability = .active ∨
      RootApart file.keys authorization file.localRequestSigningKid file.pendingRevision :=
    guarded.root.imp_right (completeAuthorization_apart device)
  exact root

private theorem Enrolled.device_same (enrolled : Enrolled file)
    (found : completeAuthorization anp file = .ok authorization) : authorization = file.localAuthorization := by
  unfold completeAuthorization at found
  cases enrolled with
  | device _ _ _ _ _ known =>
    rw [known] at found ⊢
    cases found
    rfl
  | @request root key keys active signs unknown =>
    rw [unknown, keys] at found
    rw [unknown]
    by_contra some
    obtain ⟨authorization, rfl⟩ := Option.ne_none_iff_exists'.mp some
    obtain ⟨⟨signing, inside, managed, role, -⟩, -⟩ := inferLocalAuthorization_keys found authorization rfl
    rcases List.mem_append.mp inside with first | same
    · rw [(active signing (Option.mem_toList.mp first)).2.2] at managed
      cases managed
    · rw [List.mem_singleton.mp same, signs.role] at role
      cases role

end

private theorem find_last {rest : List KeyMetadata} {p : KeyMetadata → Bool} (others : ∀ first ∈ root, p first = false) :
    (root.toList ++ rest).find? p = rest.find? p := by
  cases root with
  | none => rfl
  | some first => simp [others first rfl]

private theorem pending_last {rest : List KeyMetadata} (active : ∀ first ∈ root, first.state = .active)
    (pending : ∀ key ∈ rest, key.state = .pending) : (root.toList ++ rest).filter (·.state = .pending) = rest := by
  have kept : rest.filter (·.state = .pending) = rest := List.filter_eq_self.mpr (by simpa using pending)
  cases root with
  | none => exact kept
  | some first =>
    rw [List.filter_append, kept]
    simp [active first rfl]

/-- The test of adoption finds the keys of the enrollment in the document. -/
theorem Enrolled.authorises (enrolled : Enrolled file) (allowed : localAuthorized anp file document = true) :
    Authorises anp file document := by
  unfold localAuthorized at allowed
  cases enrolled with
  | @device root signing e2ee authorization keys active signs agrees distinct known kids =>
    simp only [known] at allowed
    obtain ⟨signingKid, e2eeKid⟩ : authorization.signingKid = signing.kid ∧ authorization.e2eeKid = e2ee.kid := by
      simpa [LocalAuthorizationRecord.kids] using kids
    have apart : ∀ first ∈ root, first.kid ≠ signing.kid ∧ first.kid ≠ e2ee.kid := by
      intro first listed
      simpa [kids] using (active first listed).2
    obtain ⟨found, found', manifest, entry, first, second, matches', agreed, auth, assertion, agreement, valid, only, sameSigning,
      sameE2ee, profiles⟩ := localAuthorizationMatches_ok.mp (isOk_iff.mp allowed)
    rw [keys, find_last (by simpa [signingKid] using fun first listed => (apart first listed).1)] at first
    rw [keys, find_last (by simpa [e2eeKid] using fun first listed => (apart first listed).2)] at second
    obtain rfl : signing = found := by simpa [signingKid] using first
    obtain rfl : e2ee = found' := by simpa [e2eeKid, distinct] using second
    refine .device ?_ signs agrees known kids matches' agreed auth assertion agreement valid only (sameSigning.trans signingKid)
      (sameE2ee.trans e2eeKid) profiles
    rw [keys]
    exact pending_last (fun first listed => (active first listed).1) (by simp [signs.state, agrees.state])
  | @request root key keys active signs unknown known =>
    simp only [unknown, known] at allowed
    have passed := isOk_iff.mp allowed
    simp only [requestSigningAuthorizationMatches, except_bind_ok, okOr_ok, reject_ok, Bool.or_eq_true, not_or,
      Bool.not_eq_true', Bool.not_eq_false, Bool.not_eq_true] at passed
    obtain ⟨found, first, _, matches', auth, assertion⟩ := passed
    rw [keys, find_last (by simpa using fun first listed _ => (active first listed).2.1)] at first
    obtain rfl : key = found := by simpa [signs.role] using first
    refine .request ?_ signs known matches' auth assertion
    rw [keys]
    exact pending_last (fun first listed => (active first listed).1) (by simp [signs.state])

section
variable {authorized : Bool} {next : IdentityRecord}

private theorem Readjusts.steps (readjusts : Readjusts seen authorized next) :
    StateStep seen.state next.state ∧ next.state ≠ .enrolling ∧
      List.Forall₂ (KeyStep (seen.state = .enrolling ∧ next.state = .active)) seen.keys next.keys := by
  cases readjusts with
  | activated enrolling =>
    refine ⟨by rw [enrolling]; exact .enroll, by simp, keysStep_map (fun key _ => ?_)⟩
    split
    · rename_i pending
      exact ⟨rfl, rfl, fun ended => by rw [pending] at ended; simp [KeyState.Ended] at ended, fun _ _ _ => ⟨enrolling, rfl⟩⟩
    · exact .refl _ _
  | revoked active =>
    refine ⟨by rw [active]; exact .revoke, by simp, keysStep_map (fun key _ => ?_)⟩
    split
    · exact .end (.inr rfl)
    · exact .refl _ _
  | unchanged settled =>
    refine ⟨.stay _, ?_, keysStep_refl _ _⟩
    rcases settled with ⟨active, -⟩ | revoked
    · rw [active]
      simp
    · rw [revoked]
      simp

theorem Readjusts.rest (readjusts : Readjusts seen authorized next) : next.rootCapability = seen.rootCapability ∧
    next.localRequestSigningKid = seen.localRequestSigningKid ∧ next.pendingRevision = seen.pendingRevision := by
  cases readjusts <;> exact ⟨rfl, rfl, rfl⟩

private theorem Readjusts.allowed (readjusts : Readjusts seen authorized next) (enrolling : seen.state = .enrolling) :
    authorized = true := by
  cases readjusts with
  | activated _ allowed => exact allowed
  | revoked active =>
    rw [enrolling] at active
    cases active
  | unchanged settled =>
    rcases settled with ⟨-, allowed⟩ | revoked
    · exact allowed
    · rw [enrolling] at revoked
      cases revoked

/-- A root that stands apart is not revoked with the local authorization. -/
private theorem Readjusts.alive {pending : Option PendingRevisionRecord} (readjusts : Readjusts seen authorized next)
    (apart : RootApart seen.keys seen.localAuthorization seen.localRequestSigningKid pending) :
    ∀ root ∈ next.keys, root.role = .rootControl → ¬ root.state.Ended := by
  cases readjusts with
  | activated =>
    intro root inside isRoot
    obtain ⟨key, there, rfl⟩ := List.mem_map.mp inside
    split
    · simp [KeyState.Ended]
    · rename_i same
      exact apart.alive key there (by simpa [same] using isRoot)
  | revoked =>
    intro root inside isRoot
    obtain ⟨key, there, rfl⟩ := List.mem_map.mp inside
    have isRoot : key.role = .rootControl := by
      split at isRoot <;> exact isRoot
    have rooted : RootKid seen.keys key.kid := ⟨key, there, isRoot, rfl⟩
    rw [if_neg]
    · exact apart.alive key there isRoot
    · cases known : seen.localAuthorization with
      | none =>
        rintro (same | same)
        · exact apart.request key.kid (by simpa [known] using same) rooted
        · cases same
      | some authorization =>
        have free := apart.device authorization known key.kid
        simp only [LocalAuthorizationRecord.kids, List.mem_cons, List.not_mem_nil, or_false] at free
        rintro (same | same)
        · exact free (.inl (by simpa using same.symm)) rooted
        · exact free (.inr (by simpa using same.symm)) rooted
  | unchanged => exact apart.alive

end

/-- What a step leaves of an identity that was guarded. -/
structure Succeeds (anp : Anp) (event : Event) (file record : IdentityRecord) : Prop where
  root : record.rootCapability = .active ∨
    RootApart record.keys record.localAuthorization record.localRequestSigningKid record.pendingRevision
  settled : record.state ≠ .enrolling
  life : LifeStep anp event file record

theorem Succeeds.guarded (succeeds : Succeeds anp event file record) : record.Guarded :=
  ⟨succeeds.root, fun enrolling => absurd enrolling succeeds.settled⟩

/-- A step that leaves the state of an identity and its keys as they are. -/
private theorem LifeStep.still (state : record.state = file.state) (keys : record.keys = file.keys)
    (settled : file.state ≠ .enrolling) : LifeStep anp event file record := by
  refine ⟨?_, fun enrolling => absurd enrolling settled, ?_⟩
  · rw [state]
    exact .stay _
  · rw [keys]
    exact .of_forall₂ (keysStep_refl _ _)

section
variable {self : DidIdentity} {call : IdentityCall} {action : IdentityAction}

private theorem IdentityAction.succeeds (began : event.Begins anp w entropy self call action)
    (completed : completeRecord anp file = .ok action.seen) (stores : action.Stores anp entropy record) (guarded : file.Guarded)
    (calls : Calls anp (UpdatesSpareRoot anp) w event) : Succeeds anp event file record := by
  have spares := calls.holds began
  obtain ⟨is, held, started⟩ := began
  have does := started.does
  have root := completeRecord_root completed guarded
  obtain ⟨fingerprint, current, authorization, device, same⟩ := completeRecord_device completed
  have settled : file.state = .active → file.state ≠ .enrolling := fun active => ne_of_eq_of_ne active (by simp)
  cases started.started.2 with
  | prepare active =>
    obtain ⟨digest, -, rfl⟩ := stores
    cases does with
    | prepare planned =>
      cases same
      refine ⟨?_, settled active, .still rfl rfl (settled active)⟩
      by_cases rooted : file.rootCapability = .active
      · exact .inl rooted
      · exact .inr (planUpdate_apart (root.resolve_left rooted) (spares rooted) planned digest)
  | discard active found checked =>
    cases stores
    cases same
    exact ⟨root.imp_right (·.clear), settled active, .still rfl rfl (settled active)⟩
  | moved active publishes moves =>
    cases stores
    cases same
    obtain ⟨found, -, -, rfl⟩ := moves
    refine ⟨root.imp_right (fun apart => ?_), settled active, .still rfl rfl (settled active)⟩
    rw [show file.pendingRevision = _ from found] at apart
    exact apart.revise rfl rfl
  | committed active commits =>
    cases stores
    cases same
    have found : file.pendingRevision = _ := commits.found
    have device := commits.device
    obtain ⟨keys, authorization', retired, checkpoint, -, rfl, -, -, -, rfl⟩ := commits.committed
    refine ⟨root.imp_right (fun apart => ?_), settled active, ⟨.stay _, fun enrolling => absurd enrolling (settled active), ?_⟩⟩
    · rw [found] at apart
      have committed := apart.retire.commit
      exact committed.rekey (keysStep_refl False _) committed.alive device
    · exact ⟨_, _, rfl, retireKeys_step _ _⟩
  | @adopted seen next spec siblingOnly verified named adoptable adopts =>
    cases stores
    cases same
    have device' := adopts.device
    obtain ⟨changed, authorization', retired, readjusts, -, rfl⟩ := adopts.adopted
    obtain ⟨state, done, steps⟩ := readjusts.steps
    obtain ⟨capability, request, pending⟩ := readjusts.rest
    refine ⟨?_, done, ⟨state, fun enrolling _ => ?_, .of_forall₂ steps⟩⟩
    · change changed.rootCapability = .active ∨ RootApart changed.keys authorization' changed.localRequestSigningKid
        changed.pendingRevision
      rw [capability, request, pending]
      exact root.imp_right (fun apart => apart.rekey steps (readjusts.alive apart) device')
    · obtain ⟨-, -, enrolled⟩ := guarded.enrolling enrolling
      obtain rfl := enrolled.device_same device
      have allowed : localAuthorized anp file spec.document = true := readjusts.allowed enrolling
      cases does with
      | edit edits =>
        cases edits with
        | adopt => exact ⟨_, spec, entropy, _, is, rfl, enrolled.authorises allowed⟩
        | adoptSibling => exact absurd enrolling (settled (adoptable.sibling rfl).1)
  | promoted verified named promotes =>
    cases stores
    cases same
    have pending : file.rootCapability = .pending := promotes.pending
    have settled : file.state ≠ .enrolling := fun enrolling => by
      rw [(guarded.enrolling enrolling).1] at pending
      cases pending
    have apart := root.resolve_left (ne_of_eq_of_ne pending (by simp))
    obtain ⟨keys, activated, rfl⟩ := promotes.promoted
    exact ⟨.inl rfl, settled, .stay _, fun enrolling => absurd enrolling settled,
      .of_forall₂ (activateRootKey_step activated apart.alive)⟩
  | replayed transferable transfers =>
    cases stores
    cases same
    cases transfers
    exact ⟨root, settled transferable.active, .still rfl rfl (settled transferable.active)⟩
  | imported transferable transfers =>
    cases stores
    cases same
    cases transfers with
    | imported unknown absent idle verified adopted =>
      have apart := root.resolve_left (ne_of_eq_of_ne absent (by simp))
      have active : file.state = .active := transferable.active
      obtain ⟨steps, alive⟩ := adoptRootKey_step adopted apart.alive
      exact ⟨.inr (apart.rekey steps alive (.refl _)), settled active, .stay _, fun enrolling => absurd enrolling (settled active),
        .of_forall₂ steps⟩

end

theorem Rewrite.succeeds (rewrites : Rewrite anp w event s file record) (guarded : file.Guarded)
    (spares : SparesRoot anp w event) : Succeeds anp event file record := by
  cases rewrites with
  | @activate record shown creating =>
    obtain ⟨root, state, keys⟩ : (record.rootCapability = .active ∨ RootApart record.keys record.localAuthorization
        record.localRequestSigningKid record.pendingRevision) ∧ record.state = file.state ∧ record.keys = file.keys := by
      rcases shown with rfl | completed
      · exact ⟨guarded.root, rfl, rfl⟩
      · have root := completeRecord_root completed guarded
        obtain ⟨_, _, _, rfl⟩ := completeRecord_same completed
        exact ⟨root, rfl, rfl⟩
    rw [state] at creating
    refine ⟨root, by simp, ?_, fun enrolling => ?_, ?_⟩
    · rw [creating]
      exact .create
    · rw [creating] at enrolling
      cases enrolling
    · change KeysStep _ file.keys record.keys
      rw [keys]
      exact .of_forall₂ (keysStep_refl _ _)
  | act began completed stores =>
    have succeeds := IdentityAction.succeeds began completed stores guarded spares.1
    exact ⟨succeeds.root, succeeds.settled, succeeds.life.state, succeeds.life.activates, succeeds.life.keys⟩
  | clear _ _ completed pends =>
    have root := completeRecord_root completed guarded
    obtain ⟨_, _, _, rfl⟩ := completeRecord_same completed
    obtain ⟨pending, found, -⟩ := pends
    have settled : file.state ≠ .enrolling := fun enrolling => by
      rw [show file.pendingRevision = none from (guarded.enrolling enrolling).2.1] at found
      cases found
    exact ⟨root.imp_right (·.clear), settled, .still rfl rfl settled⟩

theorem Event.Brings.guarded (brought : event.Brings anp w entropy self call action)
    (makes : action.Makes anp entropy record) (spares : SparesRoot anp w event) : record.Guarded := by
  obtain ⟨rfl, -, started⟩ := brought
  exact started.guarded makes spares.2

/-- All files are guarded while an event that spares the root is under way. -/
private theorem guarded_during {ws : List Write} (guarded : ∀ id file, w.store.identities id = some file → file.Guarded)
    (spares : SparesRoot anp w event) (traced : Traced (FileMove anp w event) w.store ws) :
    ∀ id file, (applyAll w.store ws).identities id = some file → file.Guarded := by
  have step : ∀ s v, (∀ id file, s.identities id = some file → file.Guarded) → FileMove anp w event s v →
      ∀ id file, (Medium.apply s v).identities id = some file → file.Guarded := fun s v now move =>
    move.files now (fun _ _ _ _ _ brought makes => brought.guarded makes spares)
      (fun _ _ _ before rewrites => (rewrites.succeeds before spares).guarded)
  exact traced.invariant step guarded

/-- In a run that spares the root every identity starts in one of the three ways, its state and its keys only move
forward, and an enrollment becomes active by a document that authorises its keys. -/
theorem lives_kept {events : List Event} {event : Event}
    (meets : World.initial.Meets anp (SparesRoot anp) (events ++ [event])) :
    (World.initial.run anp events).KeepsLives anp event := by
  obtain ⟨before, fresh, spares, -⟩ := World.meets_append.mp meets
  have guarded : ∀ id file, (World.initial.run anp events).store.identities id = some file → file.Guarded := by
    refine World.run_induction (I := fun w => ∀ id file, w.store.identities id = some file → file.Guarded)
      (fun w event now _ spares => ?_) (fun _ _ found => (nomatch found)) before
    rw [World.identities_step]
    exact guarded_during now spares event.fileMoves
  intro ws record rest written
  have traced : Traced (FileMove anp (World.initial.run anp events) event) _ (event.writes anp _) := event.fileMoves
  rw [written] at traced
  obtain ⟨first, move, -⟩ := traced.split
  cases move with
  | elsewhere kept => exact absurd rfl (stores_nothing kept)
  | introduce brought makes same =>
    have new := fresh.2 _ (brought.drawn makes)
    have absent : (World.initial.run anp events).store.identities record.identityId = none := by
      by_contra present
      obtain ⟨file, found⟩ := Option.ne_none_iff_exists'.mp present
      exact new ((World.filed_run before).drawn _ _ found)
    rw [same, absent]
    obtain ⟨is, -, started⟩ := brought
    exact ⟨new, _, _, _, _, is, (started.isNew makes).founds⟩
  | rewrite found rewrites =>
    rw [found]
    exact (rewrites.succeeds (guarded_during guarded spares first _ _ found) spares).life

end

namespace Plain

/-- The root key is the signing key of the only device. -/
def rootDevice : DeviceManifestEntry := { device with signingKeyId := "did:wba:a#r" }

def rootDeviceDocument : Value :=
  .object (Object.of [("id", .string "did:wba:a"),
    ("verificationMethod", .array [method "did:wba:a#r" (.ed25519 [7, 7]), method "did:wba:a#e" (.x25519 [2, 2])]),
    ("authentication", .array [.string "did:wba:a#r"]), ("assertionMethod", .array [.string "did:wba:a#r"]),
    ("keyAgreement", .array [.string "did:wba:a#e"]),
    ("deviceManifest", manifestValue { manifestType := "DeviceManifest", devices := [rootDevice] }),
    ("proof", .object [("verificationMethod", .string "did:wba:a#r")])])

def rootDeviceImport : DeviceIdentityImportSpec where
  verifiedDocument := rootDeviceDocument
  evidence := evidence 1 rootDeviceDocument
  capabilities := {}
  signingKey := { kid := "#r", role := .deviceSigning, encoding := .raw32, secret := (key 7).val }
  e2eeKey := { kid := "#e", role := .e2eeAgreement, encoding := .raw32, secret := (key 2).val }

/-- A device that signs with the root key is imported, the root key is imported as root, and a document without the
device is adopted. -/
def rootRevoked : List Event :=
  [.openStore none, .store 0 (.importDeviceIdentity rootDeviceImport) (entropy "0" 1) none,
   .identity 0 (.importLegacyRootTransfer { rootImport with
     evidence := { rootImport.evidence with checkpoint := checkpoint (evidence 1 rootDeviceDocument) } }) (entropy "1" 1) none,
   .identity 0 (.adoptVerifiedDocument ⟨rootDocument [], evidence 2 (rootDocument [])⟩) (entropy "2" 1) none]

/-- The promotion of the root key that has been revoked. -/
def rootRevival : Event :=
  .identity 0 (.confirmRootPromotion ⟨rootDocument [], evidence 3 (rootDocument [])⟩) (entropy "3" 1) none

end Plain

theorem lives_kept_promoted :
    World.initial.Meets Plain.anp (SparesRoot Plain.anp) (Plain.rootImported ++ [Plain.rootRevival]) ∧
      (World.initial.run Plain.anp Plain.rootImported).KeepsLives Plain.anp Plain.rootRevival := by
  have meets : World.initial.Meets Plain.anp (SparesRoot Plain.anp) (Plain.rootImported ++ [Plain.rootRevival]) := by
    decide +kernel
  exact ⟨meets, lives_kept meets⟩

/-- The first key of the file has been revoked and is active in the record. -/
def revives (file record : IdentityRecord) : Bool :=
  match file.keys, record.keys with
  | old :: _, new :: _ => old.state == .revoked && new.state == .active
  | _, _ => false

theorem LifeStep.not_revives {anp : Anp} {event : Event} {file record : IdentityRecord} (life : LifeStep anp event file record) :
    revives file record = false := by
  obtain ⟨kept, added, same, steps⟩ := life.keys
  unfold revives
  rw [same]
  generalize file.keys = keys at steps
  cases steps with
  | nil => rfl
  | cons step _ =>
    simp only [List.cons_append, Bool.and_eq_false_iff, beq_eq_false_iff_ne]
    by_contra both
    simp only [not_or, ne_eq, not_not] at both
    rcases step.ended (.inr both.1) with ended | ended <;> rw [both.2] at ended <;> cases ended

/-- The write of an event at this place brings back a key. -/
def Event.revives (anp : Anp) (w : World) (event : Event) (n : Nat) : Bool :=
  (event.writes anp w)[n]?.any (fun
    | .identity record =>
      ((applyAll w.store ((event.writes anp w).take n)).identities record.identityId).any (AnpIdentity.revives · record)
    | _ => false)

private theorem World.KeepsLives.not_revives {anp : Anp} {w : World} {event : Event} (keeps : w.KeepsLives anp event) (n : Nat) :
    event.revives anp w n = false := by
  unfold Event.revives
  by_contra revived
  obtain ⟨v, stored, revived⟩ := (Option.any_eq_true _ _).mp (Bool.not_eq_false _ ▸ revived)
  cases v with
  | identity record =>
    obtain ⟨file, found, revived⟩ := (Option.any_eq_true _ _).mp revived
    obtain ⟨inside, same⟩ := List.getElem?_eq_some_iff.mp stored
    have written : event.writes anp w =
        (event.writes anp w).take n ++ .identity record :: (event.writes anp w).drop (n + 1) := by
      rw [← same, List.getElem_cons_drop, List.take_append_drop]
    have life := keeps _ record _ written
    rw [found] at life
    rw [life.not_revives] at revived
    cases revived
  | _ => cases revived

/-- The root key that was revoked with the device is active again. -/
theorem revoked_root_revived :
    World.initial.Meets Plain.anp (fun _ _ => True) (Plain.rootRevoked ++ [Plain.rootRevival]) ∧
      ¬ (World.initial.run Plain.anp Plain.rootRevoked).KeepsLives Plain.anp Plain.rootRevival := by
  refine ⟨by decide +kernel, fun keeps => ?_⟩
  have revived : Plain.rootRevival.revives Plain.anp (World.initial.run Plain.anp Plain.rootRevoked) 1 = true := by
    decide +kernel
  rw [keeps.not_revives] at revived
  cases revived

end AnpIdentity
