import AnpIdentity.Lifecycle

/-! The steps in which `build_candidate_document` makes a candidate. -/

namespace AnpIdentity
open Durable

section
variable (anp : Anp)

/-- The rotation of a request takes effect on the document first. -/
inductive Rotates (record : IdentityRecord) (object : Object) : Option PreparedRotation → Object → Prop
  | none : Rotates record object none object
  | some {rotation : PreparedRotation} {rotated : Object} (applied : applyRotation anp record rotation object = .ok rotated) :
      Rotates record object (some rotation) rotated

/-- The manifest that device mutations start from. -/
inductive ReadsManifest (object : Object) : Option DeviceManifest → Prop
  | absent (absent : object.get "deviceManifest" = none) : ReadsManifest object none
  | present {value : Value} {manifest : DeviceManifest} (found : object.get "deviceManifest" = some value)
      (parsed : anp.deviceManifestFromValue value = .ok manifest) : ReadsManifest object (some manifest)

/-- What becomes of the manifest after the last device mutation. -/
inductive WritesManifest (state : DeviceChanges) : Object → Prop
  | absent (absent : state.manifest = none) : WritesManifest state state.changes.object
  | removed {manifest : DeviceManifest} (found : state.manifest = some manifest) (empty : manifest.devices = []) :
      WritesManifest state (state.changes.object.remove "deviceManifest")
  | written {manifest : DeviceManifest} {value : Value} (found : state.manifest = some manifest)
      (listed : manifest.devices ≠ []) (rendered : anp.deviceManifestToValue manifest = .ok value) :
      WritesManifest state (Object.insert "deviceManifest" value state.changes.object)

/-- The services of a request replace those of the document. -/
def withServices (record : IdentityRecord) (services : Option (List ServiceSpec)) (object : Object) : Object :=
  match services with
  | some services => replaceServices record services object
  | none => object

/-- The candidate is signed with a root key whose secret is stored, or left as it is for a DID without a root. -/
inductive SignsCandidate (entropy : Entropy) (s : Store) (record : IdentityRecord) (domain : Option String) (object : Object) :
    Value → Prop
  | signed {profile : DidProfile} {root : KeyMetadata} {secret : Bytes} {document : Value}
      (profiled : DidProfile.forDid anp record.did = .ok profile) (rooted : profile.supportsRootControl = true)
      (found : record.keys.find? (·.role == .rootControl) = some root)
      (opened : s.openSecret (record.secretRef root) = .ok secret)
      (signs : signRootDocument anp entropy (.object object) root.kid secret domain = .ok document) :
      SignsCandidate entropy s record domain object document
  | plain {profile : DidProfile} (profiled : DidProfile.forDid anp record.did = .ok profile)
      (rootless : profile.supportsRootControl = false) : SignsCandidate entropy s record domain object (.object object)

/-- The stages of a candidate. -/
structure Stages (entropy : Entropy) (s : Store) (record : IdentityRecord) (rotation : Option PreparedRotation)
    (spec : DocumentUpdateSpec) (candidate : CandidateChanges) (stored rotated : Object) (requested : DocumentChanges)
    (manifest : Option DeviceManifest) (changed : DeviceChanges) (written : Object) : Prop where
  is : record.document.asObject = some stored
  rotates : Rotates anp record (stored.remove "proof") rotation rotated
  requests : applyRequestSigningMutations anp record { object := rotated } spec.requestSigningMutations = .ok requested
  reads : ReadsManifest anp requested.object manifest
  devices : applyDeviceMutationList anp record
    { changes := requested, manifest, retiredDeviceIds := record.retiredDeviceIds } spec.deviceMutations = .ok changed
  writes : WritesManifest anp changed written
  signs : SignsCandidate anp entropy s record ((stored.get "proof").bind (·.getStr "domain"))
    (withServices record spec.services written) candidate.document
  valid : ∃ profile, validateMethodDocument anp candidate.document = .ok profile
  added : candidate.addedKeys = changed.changes.addedKeys
  retired : candidate.retiredKids = changed.changes.retiredKids

end

section
variable {anp : Anp} {entropy : Entropy} {s : Store} {record : IdentityRecord} {rotation : Option PreparedRotation}
  {spec : DocumentUpdateSpec} {candidate : CandidateChanges}

private theorem rotates_of_ok {object : Object} {more : Object → DidResult CandidateChanges}
    (made : (match rotation with
      | some rotation => applyRotation anp record rotation object >>= more
      | none => (.ok object : DidResult Object) >>= more) = .ok candidate) :
    ∃ rotated, Rotates anp record object rotation rotated ∧ more rotated = .ok candidate := by
  cases rotation with
  | none =>
    obtain ⟨_, same, made⟩ := except_bind_ok.mp made
    cases same
    exact ⟨object, .none, made⟩
  | some prepared =>
    obtain ⟨rotated, applied, made⟩ := except_bind_ok.mp made
    exact ⟨rotated, .some applied, made⟩

variable {next : DocumentChanges}

private theorem writesManifest_of_ok {state : DeviceChanges}
    (made : (match state.manifest with
      | none => .ok state.changes
      | some manifest =>
        if manifest.devices.isEmpty then
          .ok { state.changes with object := state.changes.object.remove "deviceManifest" }
        else do
          let value ← mapErr (anp.deviceManifestToValue manifest) .invalidExtension
          .ok { state.changes with object := Object.insert "deviceManifest" value state.changes.object } :
        DidResult DocumentChanges) = .ok next) :
    WritesManifest anp state next.object ∧ next.addedKeys = state.changes.addedKeys ∧
      next.retiredKids = state.changes.retiredKids := by
  split at made
  · rename_i absent
    cases made
    exact ⟨.absent absent, rfl, rfl⟩
  · rename_i manifest found
    split at made
    · rename_i empty
      cases made
      exact ⟨.removed found (List.isEmpty_iff.mp empty), rfl, rfl⟩
    · rename_i listed
      obtain ⟨value, rendered, same⟩ := except_bind_ok.mp made
      cases same
      exact ⟨.written found (fun empty => listed (List.isEmpty_iff.mpr empty)) (mapErr_ok.mp rendered), rfl, rfl⟩

theorem applyDeviceMutations_ok {changes : DocumentChanges} {mutations : List DeviceMutationSpec}
    (made : applyDeviceMutations anp record changes mutations = .ok next) :
    ∃ manifest state, ReadsManifest anp changes.object manifest ∧
      applyDeviceMutationList anp record { changes, manifest, retiredDeviceIds := record.retiredDeviceIds } mutations =
        .ok state ∧
      WritesManifest anp state next.object ∧ next.addedKeys = state.changes.addedKeys ∧
      next.retiredKids = state.changes.retiredKids := by
  unfold applyDeviceMutations at made
  cases present : changes.object.get "deviceManifest" with
  | none =>
    simp only [present, except_bind_ok] at made
    obtain ⟨_, same, state, applied, written⟩ := made
    cases same
    exact ⟨none, state, .absent present, applied, writesManifest_of_ok written⟩
  | some value =>
    simp only [present, except_bind_ok, mapErr_ok] at made
    obtain ⟨manifest, parsed, _, same, state, applied, written⟩ := made
    cases same
    exact ⟨some manifest, state, .present present parsed, applied, writesManifest_of_ok written⟩

theorem buildCandidateDocument_ok (made : buildCandidateDocument anp entropy s record rotation spec = .ok candidate) :
    ∃ stored rotated requested manifest changed written,
      Stages anp entropy s record rotation spec candidate stored rotated requested manifest changed written := by
  unfold buildCandidateDocument at made
  obtain ⟨stored, is, made⟩ := except_bind_ok.mp made
  obtain ⟨rotated, rotates, made⟩ := rotates_of_ok made
  obtain ⟨requested, requests, made⟩ := except_bind_ok.mp made
  obtain ⟨next, devices, made⟩ := except_bind_ok.mp made
  obtain ⟨profile, profiled, made⟩ := except_bind_ok.mp made
  obtain ⟨manifest, changed, reads, applied, writes, added, retired⟩ := applyDeviceMutations_ok devices
  refine ⟨stored, rotated, requested, manifest, changed, next.object, ?_⟩
  dsimp only at made
  split at made
  · rename_i rooted
    simp only [except_bind_ok, okOr_ok] at made
    obtain ⟨root, found, secret, opened, document, signs, valid, validates, _, -, same⟩ := made
    cases same
    exact ⟨okOr_ok.mp is, rotates, requests, reads, applied, writes, .signed profiled rooted found opened signs,
      ⟨valid, validates⟩, added, retired⟩
  · rename_i rootless
    simp only [except_bind_ok] at made
    obtain ⟨_, same, valid, validates, _, -, last⟩ := made
    cases same
    cases last
    exact ⟨okOr_ok.mp is, rotates, requests, reads, applied, writes, .plain profiled (by simpa using rootless),
      ⟨valid, validates⟩, added, retired⟩

/-- The manifest of a candidate is valid. -/
theorem buildCandidateDocument_manifest (made : buildCandidateDocument anp entropy s record rotation spec = .ok candidate) :
    ∃ manifest, anp.validateDeviceManifest candidate.document = .ok manifest := by
  unfold buildCandidateDocument at made
  obtain ⟨stored, -, made⟩ := except_bind_ok.mp made
  obtain ⟨rotated, -, made⟩ := rotates_of_ok made
  simp only [except_bind_ok] at made
  obtain ⟨_, -, _, -, _, -, made⟩ := made
  split at made
  · simp only [except_bind_ok, mapErr_ok] at made
    obtain ⟨_, -, _, -, document, -, _, -, manifest, listed, same⟩ := made
    cases same
    exact ⟨manifest, listed⟩
  · simp only [except_bind_ok, mapErr_ok] at made
    obtain ⟨document, -, _, -, manifest, listed, same⟩ := made
    cases same
    exact ⟨manifest, listed⟩

end
end AnpIdentity
