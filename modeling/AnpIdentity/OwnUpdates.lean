import AnpIdentity.CandidateDocuments
import AnpIdentity.Publication

/-! Updates and the keys by which a record recognises its own document. Adoption revokes an identity whose device or
request-signing key the document does not authorise, and a commit does not move them; so an identity stays active when its
own updates come back if they leave these keys and the profiles of its device as adoption expects them. -/

namespace AnpIdentity
open Durable Program

/-! ## What a request asks of the own keys -/

def KeyEdit.kid : KeyEdit → String
  | .add kid _ _ | .retire kid _ _ => kid

/-- The keys that a request adds, removes or rotates. -/
def DocumentUpdateSpec.kids (did : String) (devices : List DeviceManifestEntry) (spec : DocumentUpdateSpec) : List String :=
  (spec.requestSigningRotation.map (fun rotation =>
    [canonicalKid did rotation.oldKid, canonicalKid did rotation.newFragment])).getD [] ++ (spec.laterEdits did devices).map KeyEdit.kid

/-- The keys that adoption tests: those of the device, or the request-signing key of a record without a device. Such a record
takes a device as its own once it manages the keys, so that its signing keys count as well. -/
def IdentityRecord.ownKids (record : IdentityRecord) : List String :=
  match record.localAuthorization with
  | some authorization => [authorization.signingKid, authorization.e2eeKid]
  | none => record.localRequestSigningKid.toList ++
      (record.keys.filter (fun key => key.origin == .managed && key.role == .deviceSigning)).map (·.kid)

namespace DeviceMutationSpec

/-- The mutation adds or removes the device. -/
def Moves (own : String) : DeviceMutationSpec → Bool
  | .add device => device.deviceId == own
  | .remove deviceId => deviceId == own
  | .addProfiles .. => false

/-- The profiles of the device after the mutation. -/
def profiles (own : String) (current : List String) : DeviceMutationSpec → List String
  | .addProfiles deviceId more => if deviceId = own then addMissingProfiles current more else current
  | _ => current

end DeviceMutationSpec

/-- The request neither changes the keys that adoption tests nor adds or removes the own device, and the profiles that it
adds to the device are none or the P6 upgrade. -/
def SparesOwn (devices : List DeviceManifestEntry) (seen : IdentityRecord) (spec : DocumentUpdateSpec) : Prop :=
  (∀ kid ∈ seen.ownKids, kid ∉ spec.kids seen.did devices) ∧ ∀ authorization ∈ seen.localAuthorization,
    (∀ mutation ∈ spec.deviceMutations, mutation.Moves authorization.deviceId = false) ∧
    ∀ device ∈ devices, device.deviceId = authorization.deviceId → compatibleLocalProfiles authorization.profiles
      (spec.deviceMutations.foldl (DeviceMutationSpec.profiles authorization.deviceId) device.profiles) = true

/-- Updates spare the own keys of a record that its document authorises, and while one is pending no other call brings in a
document or a root key. -/
def UpdatesOthers (anp : Anp) (_ : DidIdentity) (call : IdentityCall) (seen : IdentityRecord) : Prop :=
  match call with
  | .prepareUpdate spec => localAuthorized anp seen seen.document = true ∧
      SparesOwn (manifestDevices (storedManifest anp seen.document)) seen spec
  | .adoptVerifiedDocument _ | .adoptVerifiedSiblingDocument _ | .confirmRootPromotion _ | .importWrappedRoot ..
  | .importLegacyRootTransfer _ => seen.pendingRevision = none
  | _ => True

instance (devices : List DeviceManifestEntry) (seen : IdentityRecord) (spec : DocumentUpdateSpec) :
    Decidable (SparesOwn devices seen spec) := inferInstanceAs (Decidable (_ ∧ ∀ authorization ∈ seen.localAuthorization, _ ∧ _))

instance (anp : Anp) (self : DidIdentity) (seen : IdentityRecord) : ∀ call, Decidable (UpdatesOthers anp self call seen)
  | .prepareUpdate _ => inferInstanceAs (Decidable (_ ∧ _))
  | .adoptVerifiedDocument _ | .adoptVerifiedSiblingDocument _ | .confirmRootPromotion _ | .importWrappedRoot ..
  | .importLegacyRootTransfer _ => inferInstanceAs (Decidable (seen.pendingRevision = none))
  | .beginPublication _ | .markPublicationUncertain _ | .rejectPublicationBeforeAcceptance _ | .commitVerifiedUpdate ..
  | .reconcileUpdate .. | .abortUpdate _ | .reconcileRejectedUpdate .. | .reload => isTrue trivial

/-! ## What the library reads -/

/-- The documents say the same about all keys but these. -/
def SameApart (kids : List String) (document other : Value) : Prop :=
  ∀ name, name = methodsName ∨ (∃ relationship : DidVerificationRelationship, name = relationship.name) →
    (other.entries name).filter (fun entry => !kids.any (Mentions · entry)) =
      (document.entries name).filter (fun entry => !kids.any (Mentions · entry))

/-- What is found of a key does not depend on what a document says of other keys, and the manifest that is validated is the
one that the document stores. -/
structure Anp.ReadsKeys (anp : Anp) : Prop where
  finds : ∀ {kids document other kid}, SameApart kids document other → kid ∉ kids →
    anp.findVerificationMethod other kid = anp.findVerificationMethod document kid ∧
      anp.isAuthenticationAuthorized other kid = anp.isAuthenticationAuthorized document kid ∧
      anp.isAssertionMethodAuthorized other kid = anp.isAssertionMethodAuthorized document kid
  validates : ∀ {document manifest}, anp.validateDeviceManifest document = .ok manifest → manifest = storedManifest anp document
  renders : ∀ {manifest value}, anp.deviceManifestToValue manifest = .ok value → anp.deviceManifestFromValue value = .ok manifest

section
variable {anp : Anp} {kids : List String} {kid : String} {document other : Value} {record seen : IdentityRecord}

private theorem mentions_one {entry : Value} {first second : String} (one : Mentions first entry = true)
    (two : Mentions second entry = true) : first = second := by
  cases entry <;> simp_all [Mentions, Value.asStr, Value.getStr, Value.get, Value.asObject]

/-- The entries about a key are among those that are about none of the others. -/
private theorem unmentioned_and (outside : kid ∉ kids) {p : Value → Bool} (about : ∀ entry, p entry = true → Mentions kid entry = true) :
    (fun entry => !kids.any (Mentions · entry) && p entry) = p := by
  funext entry
  cases holds : p entry with
  | false => rw [Bool.and_false]
  | true =>
    rw [Bool.and_true, Bool.not_eq_true', List.any_eq_false]
    exact fun gone listed also => outside (mentions_one (about entry holds) also ▸ listed)

private theorem SameApart.any (same : SameApart kids document other) (outside : kid ∉ kids) {p : Value → Bool}
    (about : ∀ entry, p entry = true → Mentions kid entry = true) (relationship : DidVerificationRelationship) :
    (other.entries relationship.name).any p = (document.entries relationship.name).any p := by
  have equal := congrArg (List.any · p) (same _ (.inr ⟨relationship, rfl⟩))
  rwa [List.any_filter, List.any_filter, unmentioned_and outside about] at equal

theorem SameApart.contains (same : SameApart kids document other) (outside : kid ∉ kids)
    (relationship : DidVerificationRelationship) :
    relationshipContains other relationship.name kid = relationshipContains document relationship.name kid :=
  same.any outside (fun _ mentions => mentions) relationship

theorem SameApart.matches (reads : anp.ReadsKeys) (same : SameApart kids document other) {key : KeyMetadata}
    (outside : key.kid ∉ kids) : keyMatchesDocument anp other key = keyMatchesDocument anp document key := by
  rw [keyMatchesDocument, (reads.finds same outside).1]
  rfl

/-- The manifest of a candidate lists what the request made of the devices. -/
private theorem ManifestLists.stored {kind : String} {devices : List DeviceManifestEntry} (reads : anp.ReadsKeys)
    (lists : ManifestLists anp kind devices document) : manifestDevices (storedManifest anp document) = devices := by
  unfold ManifestLists at lists
  unfold storedManifest
  split at lists
  · rename_i none
    rw [lists, none]
    rfl
  · obtain ⟨value, rendered, found⟩ := lists
    rw [found, Option.bind_some, reads.renders rendered]
    rfl

end

/-! ## Devices -/

section
variable {did own : String} {devices : List DeviceManifestEntry} {device : DeviceManifestEntry} {mutation : DeviceMutationSpec}
  {mutations : List DeviceMutationSpec}

/-- An update of a device changes the first entry with its id. -/
private theorem filter_updateDevice {deviceId : String} {change : DeviceManifestEntry → DeviceManifestEntry}
    (kept : ∀ entry, (change entry).deviceId = entry.deviceId) (devices : List DeviceManifestEntry) :
    ((updateDevice deviceId change devices).getD devices).filter (·.deviceId == own) =
      if deviceId = own then (devices.filter (·.deviceId == own)).modifyHead change else devices.filter (·.deviceId == own) := by
  induction devices with
  | nil => simp [updateDevice]
  | cons entry rest ih =>
    unfold updateDevice
    by_cases here : entry.deviceId = deviceId
    · by_cases same : deviceId = own <;> simp [here, same, kept]
    · have later : ((updateDevice deviceId change rest).map (entry :: ·)).getD (entry :: rest) =
          entry :: (updateDevice deviceId change rest).getD rest := by cases updateDevice deviceId change rest <;> rfl
      rw [if_neg here, later, List.filter_cons, List.filter_cons, ih]
      by_cases same : deviceId = own
      · simp [← same, here]
      · simp [same]

private theorem filter_eraseP {deviceId : String} (other : deviceId ≠ own) (devices : List DeviceManifestEntry) :
    (devices.eraseP (·.deviceId == deviceId)).filter (·.deviceId == own) = devices.filter (·.deviceId == own) := by
  induction devices with
  | nil => rfl
  | cons entry rest ih =>
    by_cases here : entry.deviceId = deviceId <;> simp_all [List.filter_cons]

/-- A mutation that does not move the device changes its profiles only. -/
private theorem devices_own (one : devices.filter (·.deviceId == own) = [device]) (stays : mutation.Moves own = false) :
    (mutation.devices did devices).filter (·.deviceId == own) =
      [{ device with profiles := mutation.profiles own device.profiles }] := by
  cases mutation with
  | add new => simp_all [DeviceMutationSpec.devices, DeviceMutationSpec.Moves, DeviceMutationSpec.profiles]
  | remove deviceId =>
    have other : deviceId ≠ own := by simpa [DeviceMutationSpec.Moves] using stays
    exact (filter_eraseP other devices).trans one
  | addProfiles deviceId more =>
    rw [DeviceMutationSpec.devices, filter_updateDevice (by intro; rfl) devices, one]
    by_cases same : deviceId = own <;> simp [DeviceMutationSpec.profiles, same]

private theorem requestedDevices_own (did : String) (one : devices.filter (·.deviceId == own) = [device])
    (stays : ∀ mutation ∈ mutations, mutation.Moves own = false) :
    (requestedDevices did devices mutations).filter (·.deviceId == own) =
      [{ device with profiles := mutations.foldl (DeviceMutationSpec.profiles own) device.profiles }] := by
  induction mutations generalizing devices device with
  | nil => exact one
  | cons mutation rest ih =>
    rw [List.forall_mem_cons] at stays
    exact ih (devices_own one stays.1) stays.2

private theorem requestedDevices_kids (listed : device ∈ requestedDevices did devices mutations) :
    (∃ old ∈ devices, old.signingKeyId = device.signingKeyId ∧ old.e2eeKeyId = device.e2eeKeyId) ∨
      device.signingKeyId ∈ (deviceEdits did devices mutations).map KeyEdit.kid := by
  induction mutations generalizing devices with
  | nil => exact .inl ⟨device, listed, rfl, rfl⟩
  | cons mutation rest ih =>
    rw [deviceEdits, List.map_append, List.mem_append]
    rcases ih listed with ⟨old, before, signing, e2ee⟩ | added
    · rcases mutation.mem_devices before with ⟨first, inside, -, same, also⟩ | ⟨_, _, edits⟩
      · exact .inl ⟨first, inside, same.trans signing, also.trans e2ee⟩
      · exact .inr (.inl (by simp [edits, KeyEdit.kid, signing]))
    · exact .inr (.inr added)

end

/-! ## Candidates -/

section
variable {anp : Anp} {entropy : Entropy} {s : Store} {file seen : IdentityRecord} {spec : DocumentUpdateSpec} {plan : UpdatePlan}
  {manifest : Option DeviceManifest}

/-- The candidate says the same as the document about the keys that the request does not name. -/
private theorem Drafts.sameApart (drafts : Drafts anp entropy seen spec manifest plan) :
    ∃ kids, SameApart kids seen.document plan.changes.document ∧ ∀ kid ∈ kids, kid ∈ spec.kids seen.did (manifestDevices manifest) := by
  have leaves : plan.leaves = fun entry => !(plan.added.map (·.1) ++ plan.retired).any (Mentions · entry) := by
    funext entry
    simp [UpdatePlan.leaves, List.any_map, Function.comp_def]
  have named : (spec.edits seen.did anp entropy (manifestDevices manifest)).map KeyEdit.kid =
      spec.kids seen.did (manifestDevices manifest) := by
    unfold DocumentUpdateSpec.edits DocumentUpdateSpec.kids
    cases spec.requestSigningRotation <;> simp [RequestSigningRotation.edits, KeyEdit.kid]
  refine ⟨plan.added.map (·.1) ++ plan.retired, ?_, fun kid listed => named ▸ ?_⟩
  · rintro name (rfl | ⟨relationship, rfl⟩) <;> rw [← leaves]
    · exact drafts.methodsOrder
    · exact drafts.relationshipsOrder relationship
  · rcases List.mem_append.mp listed with added | retired
    · obtain ⟨⟨kid, role⟩, inside, rfl⟩ := List.mem_map.mp added
      obtain ⟨method, edited⟩ := drafts.adds_iff.mp inside
      exact List.mem_map.mpr ⟨_, edited, rfl⟩
    · obtain ⟨role, drop, edited⟩ := drafts.retires_iff.mp retired
      exact List.mem_map.mpr ⟨_, edited, rfl⟩

section
variable {kids : List String} {document other : Value} {found : Option DeviceManifest} {did : String}

/-- The test of the device passes on a document that leaves its keys, with the profiles that the mutations give to it. -/
private theorem SameApart.device {own : LocalAuthorizationRecord} {mutations : List DeviceMutationSpec}
    (same : SameApart kids document other) (reads : anp.ReadsKeys) (outside : own.signingKid ∉ kids ∧ own.e2eeKid ∉ kids)
    (valid : anp.validateDeviceManifest other = .ok found)
    (listed : manifestDevices found = requestedDevices did (manifestDevices (storedManifest anp document)) mutations)
    (stays : ∀ mutation ∈ mutations, mutation.Moves own.deviceId = false)
    (profiles : ∀ device ∈ manifestDevices (storedManifest anp document), device.deviceId = own.deviceId →
      compatibleLocalProfiles own.profiles (mutations.foldl (DeviceMutationSpec.profiles own.deviceId) device.profiles) = true)
    (passed : localAuthorizationMatches anp seen document own = .ok ()) :
    localAuthorizationMatches anp seen other own = .ok () := by
  obtain ⟨signing, e2ee, before, entry, foundSigning, foundE2ee, signingKey, e2eeKey, auth, assertion, agreement, validBefore,
    one, sameSigning, sameE2ee, -⟩ := localAuthorizationMatches_ok.mp passed
  have signs : signing.kid = own.signingKid := by simpa using List.find?_some foundSigning
  have agrees : e2ee.kid = own.e2eeKid := by simpa using List.find?_some foundE2ee
  rw [← signs, ← agrees] at outside
  rw [← reads.validates validBefore] at listed profiles
  have now := requestedDevices_own did one stays
  obtain ⟨inside, id⟩ := List.mem_filter.mp (one ▸ List.mem_singleton_self entry)
  cases found with
  | none =>
    change [] = _ at listed
    rw [show requestedDevices did before.devices mutations = [] from listed.symm] at now
    cases now
  | some after =>
    obtain ⟨-, authNow, assertionNow⟩ := reads.finds same outside.1
    refine localAuthorizationMatches_ok.mpr ⟨signing, e2ee, after, _, foundSigning, foundE2ee, ?_, ?_, authNow.trans auth,
      assertionNow.trans assertion, (same.contains outside.2 .keyAgreement).trans agreement, valid, (congrArg _ listed).trans now,
      sameSigning, sameE2ee, profiles entry inside (by simpa using id)⟩
    · rw [same.matches reads outside.1]
      exact signingKey
    · rw [same.matches reads outside.2]
      exact e2eeKey

private theorem SameApart.request {kid : String} (same : SameApart kids document other) (reads : anp.ReadsKeys) (outside : kid ∉ kids)
    (passed : requestSigningAuthorizationMatches anp seen document kid = .ok ()) :
    requestSigningAuthorizationMatches anp seen other kid = .ok () := by
  simp only [requestSigningAuthorizationMatches, except_bind_ok, okOr_ok] at passed ⊢
  obtain ⟨key, present, _, matched, rest⟩ := passed
  have is : key.kid = kid := by
    have holds := List.find?_some present
    simp only [Bool.and_eq_true, beq_iff_eq] at holds
    exact holds.1
  obtain ⟨-, auth, assertion⟩ := reads.finds same outside
  refine ⟨key, present, (), ?_, ?_⟩
  · rw [same.matches reads (is ▸ outside)]
    exact matched
  · rw [auth, assertion]
    exact rest

/-- The keys include those of the device, and they are managed. -/
private def HoldsDevice (keys : List KeyMetadata) (device : DeviceManifestEntry) : Prop :=
  (∃ key ∈ keys, (key.origin = .managed ∧ key.role = .deviceSigning) ∧ key.kid = device.signingKeyId) ∧
    ∃ key ∈ keys, (key.origin = .managed ∧ key.role = .e2eeAgreement) ∧ key.kid = device.e2eeKeyId

variable {keys : List KeyMetadata}

private theorem inferLocalAuthorization_none_iff : inferLocalAuthorization anp document keys = .ok none ↔
    ∃ found, anp.validateDeviceManifest document = .ok found ∧ ∀ device ∈ manifestDevices found, ¬ HoldsDevice keys device := by
  simp only [inferLocalAuthorization, except_bind_ok, mapErr_ok]
  refine exists_congr (fun found => and_congr_right (fun _ => ?_))
  cases found with
  | none => simp [manifestDevices]
  | some manifest =>
    have empty : localDevices manifest keys = [] ↔ ∀ device ∈ manifest.devices, ¬ HoldsDevice keys device := by
      simp only [localDevices, List.filter_eq_nil_iff, Bool.and_eq_true, List.any_eq_true, beq_iff_eq, HoldsDevice]
    refine Iff.trans ?_ empty
    dsimp only
    cases localDevices manifest keys with
    | nil => exact ⟨fun _ => rfl, fun _ => rfl⟩
    | cons device rest => simp [except_bind_ok]

/-- A record without a device does not take one of the candidate as its own. -/
private theorem infers_none {new : List KeyMetadata} (reads : anp.ReadsKeys) (valid : anp.validateDeviceManifest other = .ok found)
    (listed : manifestDevices found = requestedDevices did (manifestDevices (storedManifest anp document)) spec.deviceMutations)
    (before : inferLocalAuthorization anp document keys = .ok none)
    (spared : ∀ key ∈ keys, key.origin = .managed → key.role = .deviceSigning →
      key.kid ∉ spec.kids did (manifestDevices (storedManifest anp document)))
    (added : ∀ key ∈ new, key.origin = .managed → key.role = .requestSigning) :
    inferLocalAuthorization anp other (keys ++ new) = .ok none := by
  obtain ⟨stored, validated, none⟩ := inferLocalAuthorization_none_iff.mp before
  rw [reads.validates validated] at none
  refine inferLocalAuthorization_none_iff.mpr ⟨found, valid, fun device inside own => ?_⟩
  have old : ∀ key ∈ keys ++ new, key.origin = .managed → key.role ≠ .requestSigning → key ∈ keys :=
    fun key inside managed role => (List.mem_append.mp inside).resolve_right (fun new => role (added key new managed))
  obtain ⟨⟨signing, here, signs, kid⟩, e2ee, there, agrees, kid'⟩ := own
  have here := old signing here signs.1 (by simp [signs.2])
  have there := old e2ee there agrees.1 (by simp [agrees.2])
  rw [listed] at inside
  rcases requestedDevices_kids inside with ⟨entry, among, same, also⟩ | named
  · exact none entry among ⟨⟨signing, here, signs, kid.trans same.symm⟩, e2ee, there, agrees, kid'.trans also.symm⟩
  · refine spared signing here signs.1 signs.2 (List.mem_append_right _ ?_)
    rw [kid, DocumentUpdateSpec.laterEdits, List.map_append]
    exact List.mem_append_right _ named

end

theorem planUpdate_authorises (reads : anp.ReadsKeys) (proofs : anp.AddsProof) (completed : completeRecord anp file = .ok seen)
    (planned : planUpdate anp entropy s seen spec = .ok plan) (authorised : localAuthorized anp seen seen.document = true)
    (spares : SparesOwn (manifestDevices (storedManifest anp seen.document)) seen spec) (digest : String) : CandidateAuthorises anp seen (plan.pending entropy seen digest) := by
  obtain ⟨manifest, drafts⟩ := planUpdate_drafts proofs planned
  obtain ⟨kids, same, named⟩ := drafts.sameApart
  obtain ⟨_, _, plans⟩ := planUpdate_plans planned
  obtain ⟨found, valid⟩ := buildCandidateDocument_manifest plans.built
  have listed := drafts.devices.stored reads
  rw [← reads.validates valid, ← drafts.storedManifest] at listed
  rw [← drafts.storedManifest] at named
  obtain ⟨keys, device⟩ := spares
  have outside : ∀ kid ∈ seen.ownKids, kid ∉ kids := fun kid own inside => keys kid own (named kid inside)
  have more : FoundIn seen.keys (seen.keys ++ plan.newMetadata) := FoundIn.append _ _
  unfold IdentityRecord.ownKids at keys outside
  unfold localAuthorized at authorised
  intro authorization given
  unfold localAuthorized
  cases recorded : seen.localAuthorization with
  | some own =>
    simp only [completeAuthorization, IdentityRecord.withRevision, recorded, Except.ok.injEq] at given
    subst given
    simp only [recorded, List.mem_cons, List.not_mem_nil, or_false, forall_eq_or_imp, forall_eq] at outside
    simp only [recorded, isOk_iff] at authorised
    obtain ⟨stays, profiles⟩ := device own recorded
    exact isOk_iff.mpr (localAuthorizationMatches_mono more rfl rfl rfl (fun _ _ _ _ same => same)
      (same.device reads outside valid listed stays profiles authorised))
  | none =>
    simp only [recorded] at authorised outside keys
    have inferred : inferLocalAuthorization anp seen.document seen.keys = .ok none := by
      have again := (completeRecord_seen (completeRecord_again completed ⟨rfl, rfl, rfl, rfl, rfl, rfl, rfl⟩)).2.1
      simpa only [completeAuthorization, recorded] using again
    have none := infers_none reads valid listed inferred
      (fun key inside managed role => keys key.kid (List.mem_append_right _ (List.mem_map_of_mem (List.mem_filter.mpr
        ⟨inside, by simp [managed, role]⟩))))
      (fun key inside managed => ((planUpdate_ok planned).refs _ ((planUpdate_ok planned).managed key inside managed)).2.1)
    simp only [completeAuthorization, IdentityRecord.withRevision, recorded] at given
    cases none.symm.trans given
    cases requests : seen.localRequestSigningKid with
    | none => simp [IdentityRecord.withRevision, requests]
    | some kid =>
      simp only [requests, isOk_iff] at authorised
      simp only [IdentityRecord.withRevision, requests, isOk_iff]
      exact requestSigningAuthorizationMatches_mono more
        (same.request reads (outside kid (by simp [requests])) authorised)

end

/-! ## Runs -/

section
variable {anp : Anp} {w : World} {event : Event} {s : Store} {file record : IdentityRecord} {events : List Event}

private theorem CandidateAuthorises.congr {next : IdentityRecord} {pending later : PendingRevisionRecord}
    (authorises : CandidateAuthorises anp record pending) (device : next.localAuthorization = record.localAuthorization)
    (keys : next.keys = record.keys) (request : next.localRequestSigningKid = record.localRequestSigningKid)
    (document : later.candidateDocument = pending.candidateDocument) (added : later.newKeyMetadata = pending.newKeyMetadata) :
    CandidateAuthorises anp next later := by
  intro authorization given
  simp only [completeAuthorization, IdentityRecord.withRevision, device, keys, document, added] at given
  rw [document, ← authorises authorization given]
  refine localAuthorized_congr ?_ rfl request
  simp only [IdentityRecord.withRevision, keys, added]

/-- The record that is read of the file is authorised by its pending document. -/
def IdentityRecord.Outlasts (anp : Anp) (file : IdentityRecord) : Prop :=
  ∀ seen pending, completeRecord anp file = .ok seen → seen.pendingRevision = some pending → CandidateAuthorises anp seen pending

private theorem completeRecord_kept {seen next shown : IdentityRecord} (completed : completeRecord anp file = .ok seen)
    (again : completeRecord anp next = .ok shown) (same : next.SameBasis seen) : next = shown :=
  Except.ok.inj ((completeRecord_again completed same).symm.trans again)

private theorem Rewrite.outlasts (rewrites : Rewrite anp w event s file record) (reads : anp.ReadsKeys) (proofs : anp.AddsProof)
    (calls : Calls anp (UpdatesOthers anp) w event) (holds : file.Outlasts anp) : record.Outlasts anp := by
  intro seen pending shown found
  have pends : record.pendingRevision = some pending := by
    obtain ⟨_, _, _, rfl⟩ := completeRecord_same shown
    exact found
  cases rewrites with
  | activate known =>
    rcases known with rfl | completed
    · obtain ⟨_, _, _, hf, hc, ha, rfl⟩ := completeRecord_ok.mp shown
      exact (holds _ pending (completeRecord_ok.mpr ⟨_, _, _, hf, hc, ha, rfl⟩) pends).congr rfl rfl rfl rfl rfl
    · obtain rfl := completeRecord_kept completed shown ⟨rfl, rfl, rfl, rfl, rfl, rfl, rfl⟩
      exact (holds _ pending completed pends).congr rfl rfl rfl rfl rfl
  | clear => cases pends
  | @act entropy self call action record began completed stores =>
    have now := calls.holds began
    obtain ⟨-, -, started⟩ := began
    cases started.started.2 with
    | prepare =>
      obtain ⟨digest, -, rfl⟩ := stores
      cases started.does with
      | prepare planned =>
        cases pends
        obtain rfl := completeRecord_kept completed shown ⟨rfl, rfl, rfl, rfl, rfl, rfl, rfl⟩
        exact (planUpdate_authorises reads proofs completed planned now.1 now.2 digest).congr rfl rfl rfl rfl rfl
    | discard =>
      cases stores
      cases pends
    | moved _ _ moves =>
      cases stores
      obtain ⟨before, -, -, rfl⟩ := moves
      cases pends
      obtain rfl := completeRecord_kept completed shown ⟨rfl, rfl, rfl, rfl, rfl, rfl, rfl⟩
      exact (holds _ _ completed before).congr rfl rfl rfl rfl rfl
    | committed _ commits =>
      cases stores
      obtain ⟨_, _, _, _, -, -, -, -, -, rfl⟩ := commits.committed
      cases pends
    | adopted _ _ _ adopts =>
      cases stores
      obtain ⟨_, _, _, readjusts, -, rfl⟩ := adopts.adopted
      have kept := readjusts.pendingRevision.symm.trans pends
      cases started.edits <;> cases kept.symm.trans now
    | promoted _ _ promotes =>
      cases stores
      obtain ⟨_, -, rfl⟩ := promotes.promoted
      cases started.edits
      cases pends.symm.trans now
    | replayed _ transfers =>
      cases stores
      cases transfers
      cases started.edits with
      | replay imports => cases imports <;> cases pends.symm.trans now
    | imported _ transfers =>
      cases stores
      cases transfers
      cases started.imports <;> cases pends.symm.trans now

end

/-- In every run in which updates leave the own keys alone, an identity stays active when the document that it committed is
adopted with the same evidence. -/
theorem commit_stays_authorised {anp : Anp} (reads : anp.ReadsKeys) (proofs : anp.AddsProof) {events : List Event}
    (meets : World.initial.Meets anp (Calls anp (UpdatesOthers anp)) events) {self committed adopted : DidIdentity}
    {entropy : Entropy} {revisionId : String} {fromReconcile : Bool} {evidence : VerifiedDocumentEvidence}
    {record : IdentityRecord} {pending : PendingRevisionRecord} {outcome : AdoptDocumentOutcome}
    (read : (World.initial.run anp events).store.readIdentity anp self.identityId = .ok record)
    (prepared : record.pendingRevision = some pending)
    (done : (self.commitVerifiedUpdate anp revisionId fromReconcile evidence).result (World.initial.run anp events).store =
      .ok committed)
    (seen : (committed.adoptVerifiedDocument anp entropy ⟨pending.candidateDocument, evidence⟩).result
      ((self.commitVerifiedUpdate anp revisionId fromReconcile evidence).final (World.initial.run anp events).store) =
      .ok (adopted, outcome)) :
    outcome ≠ .revoked ∧ adopted.record.state = .active := by
  obtain ⟨file, found, -, completed⟩ := readIdentity_ok.mp read
  have outlasts : file.Outlasts anp := by
    refine World.file_invariant (P := IdentityRecord.Outlasts anp) ?_
      (fun _ _ _ _ _ calls holds rewrites => rewrites.outlasts reads proofs calls holds) meets found
    intro w event entropy self call action made _ brought makes seen pending shown pends
    obtain ⟨-, -, started⟩ := brought
    obtain ⟨_, _, _, rfl⟩ := completeRecord_same shown
    cases (started.isNew makes).pendingRevision.symm.trans pends
  exact (outlasts record pending completed prepared).adopted read prepared done seen

namespace Plain

theorem manifestOf_manifestValue (manifest : DeviceManifest) : manifestOf (manifestValue manifest) = .ok manifest := by
  have entries : ∀ devices : List DeviceManifestEntry, (devices.map entryValue).mapM manifestEntryOf = some devices := by
    intro devices
    induction devices with
    | nil => rfl
    | cons device rest ih =>
      have first : manifestEntryOf (entryValue device) = some device := by
        simp [manifestEntryOf, entryValue, strings, Object.of, Value.getStr, Value.get, Value.asObject, Value.asStr, Value.asArray,
          Object.get_insert_of_ne, List.filterMap_map, Function.comp_def]
      simp [first, ih]
  simp [manifestOf, manifestValue, Object.of, Value.getStr, Value.get, Value.asObject, Value.asStr, Value.asArray,
    Object.get_insert_of_ne, entries]

theorem readsKeys : anp.ReadsKeys where
  finds {kids document other kid} same outside := by
    have lists : ∀ relationship : DidVerificationRelationship,
        lists relationship.name other kid = lists relationship.name document kid := by
      intro relationship
      have any : ∀ document : Value, lists relationship.name document kid =
          (document.entries relationship.name).any (fun entry => entry.asStr == some kid) := by
        intro document
        rw [Bool.eq_iff_iff]
        simp [lists, strings, Value.entries]
      rw [any, any, same.any outside (fun entry listed => by simp [Mentions, listed]) relationship]
    refine ⟨?_, lists .authentication, lists .assertionMethod⟩
    have equal := congrArg (List.find? (fun method => method.getStr "id" == some kid)) (same _ (.inl rfl))
    simp only [List.find?_filter, Bool.decide_and, Bool.decide_eq_true] at equal
    rwa [unmentioned_and outside (fun entry named => by simp [Mentions, named])] at equal
  validates {document manifest} valid := by
    change validateManifest document = .ok manifest at valid
    unfold validateManifest at valid
    unfold storedManifest
    split at valid
    · rename_i absent
      cases valid
      rw [absent]
      rfl
    · rename_i value found
      split at valid
      · rename_i parsed
        cases valid
        rw [found, Option.bind_some]
        exact (congrArg Except.toOption parsed).symm
      · cases valid
  renders {manifest value} rendered := by
    cases rendered
    exact manifestOf_manifestValue manifest

/-- A request-signing key is enrolled, its document is adopted, and an update is prepared and sent out. -/
def published (update : DocumentUpdateSpec) : List Event :=
  let document := webDocument ["did:web:a.b#k"]
  [.openStore none, .store 0 (.prepareRequestSigningEnrollment requestEnrollment) (entropy "0" 1) none,
   .identity 0 (.adoptVerifiedDocument ⟨document, evidence 2 document⟩) (entropy "1" 1) none,
   .identity 0 (.prepareUpdate update) (entropy "2" 5) none,
   .identity 0 (.beginPublication "r2") (entropy "3" 1) none]

/-- An update that adds another request-signing key. -/
def otherKey : DocumentUpdateSpec where
  requestSigningMutations := [.add { kid := "m", publicKeyMultibase := multibase (.ed25519 [2, 2]) }]

/-- The pending document of a record is committed and then adopted with the same evidence. -/
def commitThenAdopt (self : DidIdentity) : Tx (DidIdentity × AdoptDocumentOutcome) := do
  let pending ← okOr self.record.pendingRevision .pendingRevisionNotFound
  let evidence := evidence 3 pending.candidateDocument
  let committed ← self.commitVerifiedUpdate anp "r2" false evidence
  committed.adoptVerifiedDocument anp (entropy "4" 1) ⟨pending.candidateDocument, evidence⟩

end Plain

/-- The rotation of the request-signing key that a record names revokes the identity once the committed
document comes back. -/
theorem commit_revokes_rotated_key :
    let w := World.initial.run Plain.anp (Plain.published Plain.rotation)
    ∃ self ∈ w.identities, self.record.state = .active ∧
      ((Plain.commitThenAdopt self).result w.store).toOption.any (fun adopted => adopted.2 == .revoked &&
        adopted.1.record.state == .revoked) = true := by
  decide +kernel

theorem commit_stays_authorised_added :
    let w := World.initial.run Plain.anp (Plain.published Plain.otherKey)
    ∃ self ∈ w.identities, ∃ adopted outcome, (Plain.commitThenAdopt self).result w.store = .ok (adopted, outcome) ∧
      outcome ≠ .revoked ∧ adopted.record.state = .active := by
  intro w
  have meets : World.initial.Meets Plain.anp (Calls Plain.anp (UpdatesOthers Plain.anp)) (Plain.published Plain.otherKey) := by
    decide +kernel
  have run : ∃ self ∈ w.identities, (w.store.readIdentity Plain.anp self.identityId).toOption.any (fun record =>
      record.pendingRevision.isSome && record.pendingRevision == self.record.pendingRevision) = true ∧
      ((Plain.commitThenAdopt self).result w.store).toOption.any (fun _ => true) = true := by
    decide +kernel
  obtain ⟨self, member, reads, returns⟩ := run
  obtain ⟨⟨adopted, outcome⟩, returned, -⟩ := of_any returns
  refine ⟨self, member, adopted, outcome, returned, ?_⟩
  obtain ⟨record, read, facts⟩ := of_any reads
  simp only [Bool.and_eq_true, beq_iff_eq] at facts
  obtain ⟨pending, given, rest, -⟩ := Issues.peel (.lift _) returned
  obtain ⟨committed, done, adopts⟩ := result_bind rest
  exact commit_stays_authorised Plain.readsKeys Plain.addsProof meets read (facts.2.trans (okOr_ok.mp given)) done adopts

end AnpIdentity
