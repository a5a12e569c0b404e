import AnpIdentity.Authority

/-! Which records can be read back. `read_identity` refuses a record whose traces of a root key do not fit
the profile of its DID, and one without a local authorization whose document lists several devices with
managed keys. -/

namespace AnpIdentity
open Durable Program Text
variable {anp : Anp} {record next : IdentityRecord} {document : Value}

/-- The root key of a record fits the profile of its DID: a profile with a root key has its fingerprint,
and any other profile has no trace of one. -/
def IdentityRecord.Fits (anp : Anp) (record : IdentityRecord) : Prop :=
  ∃ profile, DidProfile.forDid anp record.did = .ok profile ∧
    if profile.supportsRootControl then ∃ fingerprint, record.rootKeyFingerprint = some fingerprint ∧ fingerprint.isEmpty = false
    else record.rootKeyFingerprint = none ∧ record.rootCapability = .absent ∧
      record.keys.any (·.role == .rootControl) = false

theorem rootKeyFingerprint_nonempty {fingerprint : String} (hashed : rootKeyFingerprint anp document = .ok fingerprint) :
    fingerprint.isEmpty = false := by
  simp only [rootKeyFingerprint, except_bind_ok] at hashed
  obtain ⟨kid, -, method, -, key, -, hashed⟩ := hashed
  split at hashed
  · cases hashed
    simp
  · cases hashed

theorem completeFingerprint_fits (fits : record.Fits anp) :
    completeFingerprint anp record = .ok record.rootKeyFingerprint := by
  obtain ⟨profile, known, traces⟩ := fits
  unfold completeFingerprint
  rw [known]
  change (if profile.supportsRootControl = true then _ else _) = _
  by_cases root : profile.supportsRootControl = true
  · rw [if_pos root] at traces ⊢
    obtain ⟨fingerprint, present, full⟩ := traces
    rw [if_neg (by simp [present, full])]
  · rw [if_neg root] at traces ⊢
    obtain ⟨none, absent, keys⟩ := traces
    rw [if_neg (by simp [none, absent, keys])]

theorem completeRecord_fits {seen : IdentityRecord} (completed : completeRecord anp record = .ok seen) : seen.Fits anp := by
  obtain ⟨fingerprint, checkpoint, authorization, found, -, -, rfl⟩ := completeRecord_ok.mp completed
  unfold completeFingerprint at found
  obtain ⟨profile, known, found⟩ := except_bind_ok.mp found
  refine ⟨profile, known, ?_⟩
  by_cases root : profile.supportsRootControl = true
  · rw [if_pos root] at found ⊢
    by_cases empty : record.rootKeyFingerprint.all (·.isEmpty) = true
    · rw [if_pos empty] at found
      obtain ⟨computed, hashed, same⟩ := except_bind_ok.mp found
      cases same
      exact ⟨computed, rfl, rootKeyFingerprint_nonempty hashed⟩
    · rw [if_neg empty] at found
      cases found
      cases present : record.rootKeyFingerprint with
      | none => simp [present] at empty
      | some fingerprint => exact ⟨fingerprint, rfl, by simpa [present] using empty⟩
  · rw [if_neg root] at found ⊢
    split at found
    · cases found
    · rename_i clean
      cases found
      simpa [not_or] using clean

/-- A record that fits its profile can be read unless its local authorization has to be inferred and
cannot be. -/
theorem readable_iff (fits : record.Fits anp) (checked : record.checkpoint.isSome = true) :
    (∃ seen, completeRecord anp record = .ok seen) ↔
      (record.localAuthorization = none → (inferLocalAuthorization anp record.document record.keys).isOk = true) := by
  obtain ⟨checkpoint, present⟩ := Option.isSome_iff_exists.mp checked
  have base : completeCheckpoint anp record = .ok checkpoint := by simp only [completeCheckpoint, present]
  constructor
  · rintro ⟨seen, completed⟩ none
    obtain ⟨_, _, authorization, -, -, given, -⟩ := completeRecord_ok.mp completed
    simp only [completeAuthorization, none] at given
    rw [given]
    rfl
  · intro inferable
    cases recorded : record.localAuthorization with
    | some authorization =>
      exact ⟨_, completeRecord_ok.mpr ⟨_, _, some authorization, completeFingerprint_fits fits, base,
        by simp only [completeAuthorization, recorded], rfl⟩⟩
    | none =>
      have ok := inferable recorded
      cases inferred : inferLocalAuthorization anp record.document record.keys with
      | error e => rw [inferred] at ok; cases ok
      | ok authorization =>
        exact ⟨_, completeRecord_ok.mpr ⟨_, _, authorization, completeFingerprint_fits fits, base,
          by simp only [completeAuthorization, recorded]; exact inferred, rfl⟩⟩

/-! ## New records -/

variable {did : String} {profile : DidProfile} {evidence : VerifiedDocumentEvidence} {keys : List KeyMetadata}
  {spec : DidCreateSpec} {entropy : Entropy} {built : BuiltIdentity} {outcome : AdoptDocumentOutcome}

theorem forDid_root (known : DidProfile.forDid anp did = .ok profile) :
    profile.supportsRootControl = startsWith did "did:wba:" := by
  unfold DidProfile.forDid at known
  split at known
  · rename_i wba
    cases known
    exact wba.symm
  · rename_i other
    split at known
    · cases known
      simp only [Bool.not_eq_true] at other
      exact other.symm
    · cases known

theorem validateMethodDocument_ok (valid : validateMethodDocument anp document = .ok profile) :
    ∃ did, document.getStr "id" = some did ∧ DidProfile.forDid anp did = .ok profile := by
  simp only [validateMethodDocument, except_bind_ok, okOr_ok] at valid
  obtain ⟨did, named, found, known, _, -, rest⟩ := valid
  refine ⟨did, named, ?_⟩
  rw [known]
  split at rest
  · obtain ⟨_, -, same⟩ := except_bind_ok.mp rest
    exact same
  · exact rest

/-- The fingerprint that a new record takes from its document. -/
theorem methodRootFingerprint_ok {fingerprint : Option String}
    (made : methodRootFingerprint anp document = .ok fingerprint) :
    ∃ did profile, document.getStr "id" = some did ∧ DidProfile.forDid anp did = .ok profile ∧
      if profile.supportsRootControl then ∃ f, fingerprint = some f ∧ f.isEmpty = false else fingerprint = none := by
  simp only [methodRootFingerprint, except_bind_ok] at made
  obtain ⟨profile, valid, made⟩ := made
  obtain ⟨did, named, known⟩ := validateMethodDocument_ok valid
  refine ⟨did, profile, named, known, ?_⟩
  split at made
  · rename_i root
    rw [if_pos root]
    obtain ⟨f, hashed, same⟩ := except_bind_ok.mp made
    cases same
    exact ⟨f, rfl, rootKeyFingerprint_nonempty hashed⟩
  · rename_i none
    rw [if_neg none]
    cases made
    rfl

/-- What the check of a verified document establishes. -/
theorem validateVerifiedDocument_ok (valid : validateVerifiedDocument anp document evidence = .ok ()) :
    ∃ did profile manifest, document.getStr "id" = some did ∧ DidProfile.forDid anp did = .ok profile ∧
      anp.validateDeviceManifest document = .ok manifest := by
  simp only [validateVerifiedDocument, except_bind_ok, mapErr_ok] at valid
  obtain ⟨_, -, _, -, _, -, manifest, listed, profile, method, -⟩ := valid
  obtain ⟨did, named, known⟩ := validateMethodDocument_ok method
  exact ⟨did, profile, manifest, named, known, listed⟩

/-- Nothing is inferred for keys that hold no device. -/
theorem inferLocalAuthorization_none {manifest : Option DeviceManifest}
    (listed : anp.validateDeviceManifest document = .ok manifest) (other : ∀ key ∈ keys, key.role ≠ .deviceSigning) :
    inferLocalAuthorization anp document keys = .ok none := by
  unfold inferLocalAuthorization
  rw [listed]
  cases manifest with
  | none => rfl
  | some manifest =>
    have empty : localDevices manifest keys = [] := by
      refine List.filter_eq_nil_iff.mpr (fun device _ => ?_)
      simp only [Bool.and_eq_true, List.any_eq_true, beq_iff_eq, not_and]
      rintro ⟨key, inside, ⟨-, role⟩, -⟩
      exact absurd role (other key inside)
    change (reject ((localDevices manifest keys).length > 1) .invalidExtension >>= _) = _
    rw [empty]
    rfl

/-- A record that carries a fingerprint can be read if its DID has a root key. -/
theorem readable_fingerprint {fingerprint : String} (known : DidProfile.forDid anp record.did = .ok profile)
    (present : record.rootKeyFingerprint = some fingerprint) (full : fingerprint.isEmpty = false)
    (checked : record.checkpoint.isSome = true)
    (inferable : record.localAuthorization = none → (inferLocalAuthorization anp record.document record.keys).isOk = true)
    (rooted : startsWith record.did "did:wba:" = true) : ∃ seen, completeRecord anp record = .ok seen := by
  have root := (forDid_root known).trans rooted
  refine (readable_iff ⟨profile, known, ?_⟩ checked).mpr inferable
  rw [if_pos root]
  exact ⟨fingerprint, present, full⟩

section
variable {entropy : Entropy} {did : String} {evidence : VerifiedDocumentEvidence}

variable {metadata : Option KeyMetadata} {keys : List NewKey}

theorem optionalRootMetadata_ok {createdAt : String} (made : optionalRootMetadata anp document createdAt = .ok metadata) :
    ∃ did profile, document.getStr "id" = some did ∧ DidProfile.forDid anp did = .ok profile ∧
      (∀ key ∈ metadata, key.role = .rootControl ∧ key.origin = .external) ∧
      (profile.supportsRootControl = false → metadata = none) := by
  simp only [optionalRootMetadata, except_bind_ok] at made
  obtain ⟨profile, valid, made⟩ := made
  obtain ⟨did, named, known⟩ := validateMethodDocument_ok valid
  refine ⟨did, profile, named, known, ?_⟩
  split at made
  · rename_i root
    simp only [except_bind_ok] at made
    obtain ⟨kid, -, key, described, same⟩ := made
    cases same
    simp only [keyMetadata, except_bind_ok] at described
    obtain ⟨_, -, _, -, same⟩ := described
    cases same
    exact ⟨by simp, fun none => by rw [root] at none; cases none⟩
  · cases made
    exact ⟨by simp, fun _ => rfl⟩

/-- A record whose fingerprint and root key come from its document fits its profile. -/
private theorem fits_document {keys : List KeyMetadata} {createdAt : String}
    (named : document.getStr "id" = some record.did) (roots : optionalRootMetadata anp document createdAt = .ok metadata)
    (hashed : methodRootFingerprint anp document = .ok record.rootKeyFingerprint)
    (absent : record.rootCapability = .absent) (listed : record.keys = metadata.toList ++ keys)
    (others : ∀ key ∈ keys, key.role ≠ .rootControl) : record.Fits anp := by
  obtain ⟨did, profile, same, known, traces⟩ := methodRootFingerprint_ok hashed
  obtain ⟨did', profile', same', known', -, nothing⟩ := optionalRootMetadata_ok roots
  cases named.symm.trans same
  cases named.symm.trans same'
  cases known.symm.trans known'
  refine ⟨profile, known, ?_⟩
  split at traces
  · rename_i root
    rw [if_pos root]
    exact traces
  · rename_i none
    rw [if_neg none]
    refine ⟨traces, absent, ?_⟩
    simp only [Bool.not_eq_true] at none
    rw [listed, nothing none]
    simpa using others

theorem enrolledRecord_readable {spec : EnrollmentSpec} {signing e2ee : NewKey}
    (named : spec.verifiedDocument.getStr "id" = some did)
    (made : enrolledRecord anp entropy spec did signing e2ee = .ok record) :
    ∃ seen, completeRecord anp record = .ok seen := by
  simp only [enrolledRecord, except_bind_ok] at made
  obtain ⟨root, roots, signingKey, first, e2eeKey, second, fingerprint, hashed, same⟩ := made
  cases same
  refine (readable_iff ?_ rfl).mpr (fun none => nomatch none)
  refine fits_document named roots hashed rfl rfl (fun key inside => ?_)
  simp only [List.mem_cons, List.not_mem_nil, or_false] at inside
  rcases inside with rfl | rfl
  · simp [(keyMetadataFromPublic_ok first).role]
  · simp [(keyMetadataFromPublic_ok second).role]

theorem requestSigningEnrolledRecord_readable {spec : RequestSigningEnrollmentSpec} {request : NewKey}
    (valid : validateVerifiedDocument anp spec.verifiedDocument spec.evidence = .ok ())
    (named : spec.verifiedDocument.getStr "id" = some did)
    (made : requestSigningEnrolledRecord anp entropy spec did request = .ok record) :
    ∃ seen, completeRecord anp record = .ok seen := by
  simp only [requestSigningEnrolledRecord, except_bind_ok] at made
  obtain ⟨root, roots, requestKey, first, fingerprint, hashed, same⟩ := made
  obtain ⟨-, -, manifest, -, -, listed⟩ := validateVerifiedDocument_ok valid
  have role := (keyMetadataFromPublic_ok first).role
  cases same
  refine (readable_iff ?_ rfl).mpr (fun _ => ?_)
  · refine fits_document named roots hashed rfl rfl (fun key inside => ?_)
    rw [List.mem_singleton.mp inside, role]
    simp
  · have nothing : inferLocalAuthorization anp spec.verifiedDocument (root.toList ++ [requestKey]) = .ok none := by
      refine inferLocalAuthorization_none listed (fun key inside => ?_)
      obtain ⟨-, -, -, -, external, -⟩ := optionalRootMetadata_ok roots
      rcases List.mem_append.mp inside with present | present
      · simp [(external key (Option.mem_toList.mp present)).1]
      · simp [List.mem_singleton.mp present, role]
    change (inferLocalAuthorization anp spec.verifiedDocument (root.toList ++ [requestKey])).isOk = true
    rw [nothing]
    rfl

/-! Imported records always carry a fingerprint, also under a DID without a root key. -/

theorem rootKeyFingerprintFromImport_nonempty {fingerprint : String}
    (hashed : rootKeyFingerprintFromImport anp keys = .ok fingerprint) : fingerprint.isEmpty = false := by
  simp only [rootKeyFingerprintFromImport, except_bind_ok] at hashed
  obtain ⟨_, -, _, -, hashed⟩ := hashed
  exact rootKeyFingerprint_nonempty hashed

theorem importedRecord_readable {spec : IdentityImportSpec}
    (valid : validateVerifiedDocument anp spec.verifiedDocument spec.evidence = .ok ())
    (named : spec.verifiedDocument.getStr "id" = some did) (made : importedRecord anp entropy spec did keys = .ok record)
    (rooted : startsWith did "did:wba:" = true) : ∃ seen, completeRecord anp record = .ok seen := by
  simp only [importedRecord, except_bind_ok] at made
  obtain ⟨metadata, -, authorization, inferred, fingerprint, hashed, same⟩ := made
  obtain ⟨did', profile, -, named', known, -⟩ := validateVerifiedDocument_ok valid
  cases named.symm.trans named'
  cases same
  refine readable_fingerprint known rfl (rootKeyFingerprintFromImport_nonempty hashed) rfl (fun _ => ?_) rooted
  change (inferLocalAuthorization anp spec.verifiedDocument metadata).isOk = true
  rw [inferred]
  rfl

theorem importedDeviceRecord_readable {spec : DeviceIdentityImportSpec} {rootKid : String}
    (valid : validateVerifiedDocument anp spec.verifiedDocument spec.evidence = .ok ())
    (named : spec.verifiedDocument.getStr "id" = some did)
    (made : importedDeviceRecord anp entropy spec did rootKid keys = .ok record)
    (rooted : startsWith did "did:wba:" = true) : ∃ seen, completeRecord anp record = .ok seen := by
  simp only [importedDeviceRecord, except_bind_ok] at made
  obtain ⟨_, -, metadata, -, _, -, authorization, -, fingerprint, hashed, same⟩ := made
  obtain ⟨did', profile, -, named', known, -⟩ := validateVerifiedDocument_ok valid
  cases named.symm.trans named'
  cases same
  exact readable_fingerprint known rfl (rootKeyFingerprint_nonempty hashed) rfl (fun none => nomatch none) rooted

theorem importedRequestSigningRecord_readable {spec : RequestSigningIdentityImportSpec} {rootKid : String} {request : NewKey}
    (valid : validateVerifiedDocument anp spec.verifiedDocument spec.evidence = .ok ())
    (named : spec.verifiedDocument.getStr "id" = some did)
    (made : importedRequestSigningRecord anp entropy spec did rootKid request = .ok record)
    (rooted : startsWith did "did:wba:" = true) : ∃ seen, completeRecord anp record = .ok seen := by
  simp only [importedRequestSigningRecord, except_bind_ok] at made
  obtain ⟨rootKey, root, requestKey, signing, fingerprint, hashed, same⟩ := made
  obtain ⟨did', profile, manifest, named', known, listed⟩ := validateVerifiedDocument_ok valid
  cases named.symm.trans named'
  cases same
  refine readable_fingerprint known rfl (rootKeyFingerprint_nonempty hashed) rfl (fun _ => ?_) rooted
  have nothing : inferLocalAuthorization anp spec.verifiedDocument [rootKey, requestKey] = .ok none := by
    refine inferLocalAuthorization_none listed (fun key inside => ?_)
    simp only [List.mem_cons, List.not_mem_nil, or_false] at inside
    rcases inside with rfl | rfl
    · simp [(keyMetadata_ok root).role]
    · simp [(keyMetadata_ok signing).role]
  change (inferLocalAuthorization anp spec.verifiedDocument [rootKey, requestKey]).isOk = true
  rw [nothing]
  rfl

end

/-! ## Created records -/

/-- What the `anp` crate says of the documents that it builds: an E1 document names a `did:wba` DID, and a
proof leaves the DID of a document alone. -/
structure Anp.Documented (anp : Anp) : Prop where
  builds : ∀ domain options document, anp.buildUnsignedE1DidDocument domain options = .ok document →
    ∃ did, document.getStr "id" = some did ∧ startsWith did "did:wba:" = true
  proves : ∀ document key kid options prepared signature signed,
    anp.prepareW3cProof document key kid options = .ok prepared → anp.completeW3cProof prepared signature = .ok signed →
    signed.getStr "id" = document.getStr "id"

theorem getStr_insert {name other : String} (different : other ≠ name) (value : Value) (object : Object) :
    (Value.object (Object.insert name value object)).getStr other = (Value.object object).getStr other := by
  simp only [Value.getStr, Value.get, Value.asObject, Option.bind_some, Object.get_insert_of_ne different]

theorem applyExtensions_id {extensions : List DidExtensionSpec} {object extended : Object}
    (made : applyExtensions anp did object extensions = .ok extended) :
    (Value.object extended).getStr "id" = (Value.object object).getStr "id" := by
  induction extensions generalizing object with
  | nil =>
    cases made
    rfl
  | cons extension rest ih =>
    obtain ⟨devices⟩ := extension
    simp only [applyExtensions, except_bind_ok] at made
    obtain ⟨_, -, _, -, manifest, -, made⟩ := made
    rw [ih made, getStr_insert (by decide)]

theorem webObject_id (did : String) (methods : List Value) (keys : List (String × KeyRole × PublicKeyMaterial))
    (services : List Value) : (Value.object (webObject did methods keys services)).getStr "id" = some did := by
  have base : (Value.object (Object.insert "id" (.string did) (Object.insert "@context" (.array
      [.string "https://www.w3.org/ns/did/v1", .string "https://w3id.org/security/multikey/v1"]) []))).getStr "id" =
        some did := by
    simp [Value.getStr, Value.get, Value.asObject, Value.asStr]
  unfold webObject withField
  split
  all_goals
    simp only [Object.of, List.foldl_cons, List.foldl_nil]
    repeat rw [getStr_insert (by decide)]
    exact base

theorem path_startsWith (head : String) (segments : List String) (rest : String) :
    ∃ more, segments.foldl (fun did segment => did ++ ":" ++ segment) (head ++ rest) = head ++ more := by
  induction segments generalizing rest with
  | nil => exact ⟨rest, rfl⟩
  | cons segment segments ih =>
    obtain ⟨more, same⟩ := ih (rest ++ ":" ++ segment)
    exact ⟨more, by rw [← same]; simp [String.append_assoc]⟩

private theorem webDid_forDid {url : String} (resolved : anp.buildDidWebResolutionUrl (webDid spec) = .ok url) :
    DidProfile.forDid anp (webDid spec) = .ok .web := by
  have web : ∃ more, webDid spec = "did:web:" ++ more := path_startsWith _ _ _
  have isWeb : startsWith (webDid spec) "did:web:" = true := by
    obtain ⟨more, same⟩ := web
    simp [same, startsWith]
  have notWba : startsWith (webDid spec) "did:wba:" = false := by
    obtain ⟨more, same⟩ := web
    simp [same, startsWith, List.isPrefixOf]
  simp [DidProfile.forDid, isWeb, notWba, resolved, Except.isOk, Except.toBool]

private theorem builtMetadata_roles {createdAt : String} {managedKeys : List ManagedPrivateKey}
    {metadata : List KeyMetadata} (made : builtMetadata anp spec did document managedKeys createdAt = .ok metadata) :
    ∀ key ∈ metadata, (∃ managed ∈ managedKeys, managed.role = key.role) ∨
      ∃ external ∈ spec.externalKeys, external.role = key.role := by
  simp only [builtMetadata, except_bind_ok] at made
  obtain ⟨managed, first, external, second, same⟩ := made
  cases same
  intro key inside
  rcases List.mem_append.mp inside with present | present
  · obtain ⟨source, member, described⟩ := mapM_ok first key present
    exact .inl ⟨source, member, (keyMetadata_ok described).role.symm⟩
  · obtain ⟨source, member, described⟩ := mapM_ok second key present
    obtain ⟨kid, -, described⟩ := except_bind_ok.mp described
    exact .inr ⟨source, member, (keyMetadata_ok described).role.symm⟩

private theorem generateKeys_roles {keys : List ManagedKeySpec} {key : ManagedPrivateKey}
    (inside : key ∈ generateKeys entropy keys) : ∃ source ∈ keys, source.role = key.role := by
  simp only [generateKeys, List.mem_map] at inside
  obtain ⟨⟨source, index⟩, listed, rfl⟩ := inside
  exact ⟨source, (List.mem_zipIdx' listed).2 ▸ List.getElem_mem _, rfl⟩

/-- A checked request for a profile without a root key asks for no root key. -/
private theorem validate_roots (valid : spec.validate anp = .ok ()) (web : spec.profile = .web) :
    (∀ key ∈ spec.managedKeys, key.role ≠ .rootControl) ∧ ∀ key ∈ spec.externalKeys, key.role ≠ .rootControl := by
  simp only [DidCreateSpec.validate, except_bind_ok, reject_ok] at valid
  obtain ⟨_, -, _, -, _, -, _, managed, _, external, -⟩ := valid
  constructor
  · intro key inside root
    have none : spec.managedKeys.filter (·.role == .rootControl) = [] := by
      simpa [web, DidProfile.supportsRootControl] using managed
    have listed := List.filter_eq_nil_iff.mp none key inside
    simp [root] at listed
  · intro key inside root
    simp only [List.any_eq_true, beq_iff_eq, not_exists, not_and] at external
    exact external key inside root

/-- What a built identity says about root keys. -/
structure BuiltFits (anp : Anp) (spec : DidCreateSpec) (built : BuiltIdentity) : Prop where
  web : spec.profile = .web → built.document.getStr "id" = some built.did ∧
    DidProfile.forDid anp built.did = .ok .web ∧ built.metadata.any (·.role == .rootControl) = false
  root : spec.profile = .e1 → startsWith built.did "did:wba:" = true ∧
    ∃ did, built.document.getStr "id" = some did ∧ startsWith did "did:wba:" = true

private theorem buildWebIdentity_fits (web : spec.profile = .web) (made : buildWebIdentity anp entropy spec = .ok built) :
    BuiltFits anp spec built := by
  refine ⟨fun _ => ?_, fun root => by rw [web] at root; cases root⟩
  simp only [buildWebIdentity, except_bind_ok, mapErr_ok] at made
  obtain ⟨url, resolved, _, valid, external, -, methods, -, object, extended, _, -, _, -, metadata, described, same⟩ := made
  simp only [DidCreateSpec.validateForDid, except_bind_ok] at valid
  obtain ⟨_, valid, -⟩ := valid
  obtain ⟨managed, foreign⟩ := validate_roots valid web
  cases same
  refine ⟨?_, webDid_forDid resolved, ?_⟩
  · rw [applyExtensions_id extended, webObject_id]
  · simp only [List.any_eq_false, beq_iff_eq]
    intro key inside root
    rcases builtMetadata_roles described key inside with ⟨source, member, role⟩ | ⟨source, member, role⟩
    · obtain ⟨asked, listed, same⟩ := generateKeys_roles member
      exact managed asked listed (same.trans (role.trans root))
    · exact foreign source member (role.trans root)

private theorem buildE1Identity_fits (documented : anp.Documented) (root : spec.profile = .e1)
    (made : buildE1Identity anp entropy spec = .ok built) : BuiltFits anp spec built := by
  refine ⟨fun web => (by rw [root] at web; cases web), fun _ => ?_⟩
  simp only [buildE1Identity, except_bind_ok, mapErr_ok, okOr_ok] at made
  obtain ⟨rootKey, -, rootOnly, builtRoot, did, named, _, -, external, -, unsigned, builtAll, object, isObject, extended,
    extensions, prepared, prepares, signature, -, document, completes, _, -, _, -, metadata, -, same⟩ := made
  obtain ⟨did', named', wba⟩ := documented.builds _ _ _ builtRoot
  obtain ⟨full, namedFull, wbaFull⟩ := documented.builds _ _ _ builtAll
  cases named.symm.trans named'
  cases same
  refine ⟨wba, full, ?_, wbaFull⟩
  have shape : unsigned = .object object := by
    cases unsigned with
    | object fields => cases isObject; rfl
    | _ => cases isObject
  rw [documented.proves _ _ _ _ _ _ _ prepares completes, applyExtensions_id extensions, ← shape]
  exact namedFull

/-- An identity that is built without root control has no root key. -/
theorem buildIdentity_rootless (made : buildIdentity anp entropy spec = .ok built)
    (rootless : spec.profile.supportsRootControl = false) : built.metadata.any (·.role == .rootControl) = false := by
  have web : spec.profile = .web := by
    cases profile : spec.profile with
    | web => rfl
    | e1 =>
      rw [profile] at rootless
      cases rootless
  simp only [buildIdentity, except_bind_ok, if_pos web] at made
  obtain ⟨_, -, made⟩ := made
  exact ((buildWebIdentity_fits web made).web web).2.2

theorem buildIdentity_fits (documented : anp.Documented) (made : buildIdentity anp entropy spec = .ok built) :
    BuiltFits anp spec built := by
  simp only [buildIdentity, except_bind_ok] at made
  obtain ⟨_, -, made⟩ := made
  split at made
  · rename_i web
    exact buildWebIdentity_fits web made
  · rename_i other
    refine buildE1Identity_fits documented ?_ made
    cases profile : spec.profile with
    | e1 => rfl
    | web => exact absurd profile other

/-- A created record is read back as it was written. -/
theorem createdRecord_complete (documented : anp.Documented) (builds : buildIdentity anp entropy spec = .ok built)
    (made : createdRecord anp entropy spec built = .ok record) : completeRecord anp record = .ok record := by
  have fits := buildIdentity_fits documented builds
  simp only [createdRecord, except_bind_ok] at made
  obtain ⟨fingerprint, hashed, digest, -, authorization, inferred, same⟩ := made
  obtain ⟨did, profile, named, known, traces⟩ := methodRootFingerprint_ok hashed
  cases same
  refine completeRecord_ok.mpr ⟨_, _, authorization, completeFingerprint_fits ?_, rfl, ?_, rfl⟩
  · cases requested : spec.profile with
    | web =>
      obtain ⟨same, web, keys⟩ := fits.web requested
      cases named.symm.trans same
      cases known.symm.trans web
      exact ⟨.web, web, traces, by simp [newIdentityRecord, DidProfile.supportsRootControl], keys⟩
    | e1 =>
      obtain ⟨wba, did', same, wba'⟩ := fits.root requested
      cases named.symm.trans same
      have root : profile.supportsRootControl = true := (forDid_root known).trans wba'
      rw [if_pos root] at traces
      refine ⟨.e1, by simp [newIdentityRecord, DidProfile.forDid, wba], ?_⟩
      exact traces
  · cases authorization with
    | some authorization => rfl
    | none => exact inferred

/-! ## Records under a new document -/

/-- The record is stored again under a document, with the keys and the local authorization it had up to
key states and profiles. -/
structure Rewrites (record next : IdentityRecord) (document : Value) : Prop where
  identityId : next.identityId = record.identityId
  did : next.did = record.did
  document : next.document = document
  rootKeyFingerprint : next.rootKeyFingerprint = record.rootKeyFingerprint
  rootCapability : next.rootCapability = record.rootCapability ∨ record.rootKeyFingerprint.isSome = true
  checkpoint : next.checkpoint.isSome = true
  faces : next.keys.map (·.face) = record.keys.map (·.face)
  localAuthorization : next.localAuthorization = none ↔ record.localAuthorization = none

theorem Rewrites.fits (rewrites : Rewrites record next document) (fits : record.Fits anp) : next.Fits anp := by
  obtain ⟨profile, known, traces⟩ := fits
  refine ⟨profile, by rw [rewrites.did]; exact known, ?_⟩
  rw [rewrites.rootKeyFingerprint]
  split at traces
  · rename_i root
    rw [if_pos root]
    exact traces
  · rename_i none
    obtain ⟨nothing, absent, keys⟩ := traces
    rw [if_neg none]
    refine ⟨nothing, ?_, ?_⟩
    · rcases rewrites.rootCapability with same | some
      · exact same.trans absent
      · rw [nothing] at some
        cases some
    · exact (any_face rewrites.faces (fun face => face.2.1 == .rootControl)).trans keys

theorem Rewrites.readable_iff (rewrites : Rewrites record next document) (fits : record.Fits anp) :
    (∃ seen, completeRecord anp next = .ok seen) ↔
      (record.localAuthorization = none → (inferLocalAuthorization anp document record.keys).isOk = true) := by
  rw [AnpIdentity.readable_iff (rewrites.fits fits) rewrites.checkpoint, rewrites.localAuthorization, rewrites.document,
    inferLocalAuthorization_congr rewrites.faces]

theorem refreshCompatibleLocalProfiles_none (anp : Anp) (record : IdentityRecord) (document : Value) :
    (refreshCompatibleLocalProfiles anp record document).localAuthorization = none ↔ record.localAuthorization = none := by
  unfold refreshCompatibleLocalProfiles
  repeat' split
  all_goals simp_all

private theorem adoptOutcome_keeps {authorized : Bool}
    (made : adoptOutcome record evidence authorized = .ok (outcome, next)) :
    next.keys.map (·.face) = record.keys.map (·.face) ∧
      next = { record with
        keys := next.keys
        state := next.state
        pendingEnrollment := next.pendingEnrollment
        pendingRequestSigning := next.pendingRequestSigning } := by
  unfold adoptOutcome at made
  split at made
  · cases made
  · split at made
    · cases made
    · cases made
      refine ⟨?_, rfl⟩
      rw [List.map_map]
      refine List.map_congr_left (fun key _ => ?_)
      simp only [Function.comp]
      split <;> rfl
  · split at made
    · cases made
      refine ⟨?_, rfl⟩
      unfold revokeLocalAuthorization
      rw [List.map_map]
      refine List.map_congr_left (fun key _ => ?_)
      simp only [Function.comp]
      split <;> rfl
    · split at made <;> (cases made; exact ⟨rfl, rfl⟩)
  · cases made
    exact ⟨rfl, rfl⟩

theorem adoptRecord_rewrites {spec : AdoptVerifiedDocumentSpec} {siblingOnly : Bool}
    (adopted : adoptRecord anp record spec siblingOnly = .ok (outcome, some next)) :
    Rewrites record next spec.document ∧ next.generation = record.generation := by
  simp only [adoptRecord, except_bind_ok] at adopted
  obtain ⟨_, -, ⟨decided, changed⟩, made, rest⟩ := adopted
  split at rest
  · cases rest
  · simp only [except_bind_ok] at rest
    obtain ⟨observed, devices, rest⟩ := rest
    cases rest
    obtain ⟨retired, -, rfl⟩ := observeDevices_observes devices
    obtain ⟨authorization, only⟩ := refreshCompatibleLocalProfiles_only anp changed spec.document
    have none := refreshCompatibleLocalProfiles_none anp changed spec.document
    obtain ⟨faces, same⟩ := adoptOutcome_keeps made
    rw [only] at none ⊢
    rw [same] at none ⊢
    exact ⟨⟨rfl, rfl, rfl, rfl, .inl rfl, rfl, faces, none⟩, rfl⟩

theorem promoteRecord_rewrites {spec : RootPromotionSpec} (fits : record.Fits anp)
    (promoted : promoteRecord record spec = .ok (some next)) :
    Rewrites record next spec.document ∧ next.generation = record.generation := by
  have promotes := promoteRecord_promotes promoted
  have pending := promotes.pending
  have root : record.rootKeyFingerprint.isSome = true := by
    obtain ⟨profile, -, traces⟩ := fits
    split at traces
    · obtain ⟨fingerprint, present, -⟩ := traces
      simp [present]
    · rw [traces.2.1] at pending
      cases pending
  obtain ⟨keys, activated, rfl⟩ := promotes.promoted
  exact ⟨⟨rfl, rfl, rfl, rfl, .inr root, rfl, (activateRootKey_same activated).faces, Iff.rfl⟩, rfl⟩

/-! ## Imported roots -/

private theorem adoptRootKey_ok {rootKid : String} {root : KeyMetadata} {next : List KeyMetadata}
    (adopted : adoptRootKey rootKid keys = some (root, next)) :
    root ∈ keys ∧ root.role = .rootControl ∧ root.kid = rootKid ∧
      { root with origin := .managed, state := .pending } ∈ next ∧
      ∀ role kid, role ≠ .rootControl →
        next.any (fun key => key.origin == .managed && key.role == role && key.kid == kid) =
          keys.any (fun key => key.origin == .managed && key.role == role && key.kid == kid) := by
  induction keys generalizing next with
  | nil => cases adopted
  | cons key rest ih =>
    unfold adoptRootKey at adopted
    split at adopted
    · rename_i found
      cases adopted
      refine ⟨List.mem_cons_self, found.1, found.2, List.mem_cons_self, fun role kid other => ?_⟩
      have apart : (root.role == role) = false := by
        rw [found.1]
        simpa using other.symm
      simp [apart]
    · obtain ⟨⟨root', rest'⟩, found, same⟩ := Option.map_eq_some_iff.mp adopted
      cases same
      obtain ⟨member, role, kid, managed, same⟩ := ih found
      refine ⟨List.mem_cons_of_mem _ member, role, kid, List.mem_cons_of_mem _ managed, fun r k other => ?_⟩
      rw [List.any_cons, List.any_cons, same r k other]

/-- A root import changes the origin of a root key and what the record says about the root. -/
structure ImportsRoot (record next : IdentityRecord) (ref : SecretRef) : Prop where
  identityId : next.identityId = record.identityId
  did : next.did = record.did
  generation : next.generation = record.generation
  document : next.document = record.document
  rootKeyFingerprint : next.rootKeyFingerprint = record.rootKeyFingerprint
  fingerprint : record.rootKeyFingerprint.isSome = true
  checkpoint : next.checkpoint = record.checkpoint
  localAuthorization : next.localAuthorization = record.localAuthorization
  pendingRevision : record.pendingRevision = none
  absent : record.rootCapability = .absent
  pending : next.rootCapability = .pending
  devices : ∀ manifest, localDevices manifest next.keys = localDevices manifest record.keys
  root : ∃ key ∈ record.keys, key.role = .rootControl ∧ ref = record.secretRef key ∧
    { key with origin := .managed, state := .pending } ∈ next.keys

theorem decideRootImport_imported {self : DidIdentity} {transfer : RootTransfer} {ref : SecretRef}
    (decided : decideRootImport anp self entropy record transfer = .ok (.imported ref next)) :
    ImportsRoot record next ref := by
  simp only [decideRootImport, except_bind_ok, reject_ok] at decided
  obtain ⟨_, -, _, idle, decided⟩ := decided
  split at decided
  · obtain ⟨_, -, decided⟩ := except_bind_ok.mp decided
    split at decided <;> cases decided
  · split at decided
    · obtain ⟨_, -, decided⟩ := except_bind_ok.mp decided
      cases decided
    · split at decided
      · split at decided <;> cases decided
      · simp only [except_bind_ok, reject_ok, okOr_ok, verifyRootPublic, ne_eq, not_not] at decided
        obtain ⟨_, absent, _, ⟨_, -, _, -, _, -, fingerprint, -, present⟩, ⟨root, keys⟩, adopted, decided⟩ := decided
        cases decided
        obtain ⟨member, role, kid, managed, same⟩ := adoptRootKey_ok adopted
        refine ⟨rfl, rfl, rfl, rfl, rfl, by rw [← present]; rfl, rfl, rfl, by simpa using idle, absent, rfl,
          fun manifest => ?_, root, member, role, ?_, managed⟩
        · unfold localDevices
          refine List.filter_congr (fun device _ => ?_)
          rw [same .deviceSigning device.signingKeyId (by simp), same .e2eeAgreement device.e2eeKeyId (by simp)]
        · simp [IdentityRecord.secretRef, kid, role]

theorem ImportsRoot.readable {ref : SecretRef} {stored : IdentityRecord} (imports : ImportsRoot record next ref)
    (completed : completeRecord anp stored = .ok record) : ∃ seen, completeRecord anp next = .ok seen := by
  obtain ⟨profile, known, traces⟩ := completeRecord_fits completed
  have fits : next.Fits anp := by
    refine ⟨profile, by rw [imports.did]; exact known, ?_⟩
    split at traces
    · rename_i root
      rw [if_pos root, imports.rootKeyFingerprint]
      exact traces
    · have present := imports.fingerprint
      rw [traces.1] at present
      cases present
  obtain ⟨_, checkpoint, authorization, -, -, given, same⟩ := completeRecord_ok.mp completed
  refine (readable_iff fits (by rw [imports.checkpoint, same]; rfl)).mpr (fun none => ?_)
  rw [imports.localAuthorization] at none
  have inferred : inferLocalAuthorization anp record.document record.keys = .ok record.localAuthorization := by
    subst same
    dsimp only at none
    subst none
    unfold completeAuthorization at given
    split at given
    · cases given
    · exact given
  rw [imports.document, inferLocalAuthorization_devices imports.devices, inferred]
  rfl

end AnpIdentity
