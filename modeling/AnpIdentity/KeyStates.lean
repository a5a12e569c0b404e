import AnpIdentity.Documents
import AnpIdentity.KeyEdits
import Mathlib.Data.List.Forall2

/-! The life of an identity and of its keys. A record starts as a creation, an enrollment or an import; its state
and the states of its keys only move forward, and an enrollment becomes active by the document that lists the
keys that it generated. -/

namespace AnpIdentity
open Durable Program
variable (anp : Anp)

/-- The changes of the state of an identity. -/
inductive StateStep : IdentityState → IdentityState → Prop
  | stay (state : IdentityState) : StateStep state state
  | create : StateStep .creating .active
  | enroll : StateStep .enrolling .active
  | revoke : StateStep .active .revoked

/-- A key in this state is not used again. -/
def KeyState.Ended (state : KeyState) : Prop := state = .retired ∨ state = .revoked

/-- A key is replaced: it does not come back, and a key other than a root is activated only where `activates`. -/
structure KeyStep (activates : Prop) (old new : KeyMetadata) : Prop where
  kid : new.kid = old.kid
  role : new.role = old.role
  ended : old.state.Ended → new.state.Ended
  activated : old.role ≠ .rootControl → old.state = .pending → new.state = .active → activates

/-- The keys stay in their places, and new ones come after them. -/
def KeysStep (activates : Prop) (old new : List KeyMetadata) : Prop :=
  ∃ kept added, new = kept ++ added ∧ List.Forall₂ (KeyStep activates) old kept

/-- A key that the enrollment of this store made. -/
structure KeyMetadata.Generated (key : KeyMetadata) (role : KeyRole) : Prop where
  role : key.role = role
  origin : key.origin = .managed
  state : key.state = .pending

/-- The document has the keys that the enrollment generated, in the relationships that they need: those of a
device with the one entry of the manifest for it, or that of a request-signing key. -/
inductive Authorises (file : IdentityRecord) (document : Value) : Prop
  | device {signing e2ee : KeyMetadata} {authorization : LocalAuthorizationRecord} {manifest : DeviceManifest}
      {entry : DeviceManifestEntry} (pending : file.keys.filter (·.state = .pending) = [signing, e2ee])
      (signs : signing.Generated .deviceSigning) (agrees : e2ee.Generated .e2eeAgreement)
      (enrolled : file.localAuthorization = some authorization) (kids : authorization.kids = [signing.kid, e2ee.kid])
      (first : keyMatchesDocument anp document signing = .ok ()) (second : keyMatchesDocument anp document e2ee = .ok ())
      (authentication : anp.isAuthenticationAuthorized document signing.kid = true)
      (assertion : anp.isAssertionMethodAuthorized document signing.kid = true)
      (keyAgreement : relationshipContains document "keyAgreement" e2ee.kid = true)
      (lists : anp.validateDeviceManifest document = .ok (some manifest))
      (only : manifest.devices.filter (·.deviceId == authorization.deviceId) = [entry])
      (signingKid : entry.signingKeyId = signing.kid) (e2eeKid : entry.e2eeKeyId = e2ee.kid)
      (profiles : compatibleLocalProfiles authorization.profiles entry.profiles = true) : Authorises file document
  | request {key : KeyMetadata} (pending : file.keys.filter (·.state = .pending) = [key])
      (signs : key.Generated .requestSigning) (enrolled : file.localRequestSigningKid = some key.kid)
      (first : keyMatchesDocument anp document key = .ok ())
      (authentication : anp.isAuthenticationAuthorized document key.kid = true)
      (assertion : anp.isAssertionMethodAuthorized document key.kid = false) : Authorises file document

/-- The event adopts the document that the enrollment waits for. -/
def Event.Activates (event : Event) (file record : IdentityRecord) : Prop :=
  ∃ handle spec entropy fault, event = .identity handle (.adoptVerifiedDocument spec) entropy fault ∧
    record.document = spec.document ∧ Authorises anp file spec.document

/-- The event replaces the record of an identity. -/
structure LifeStep (event : Event) (file record : IdentityRecord) : Prop where
  state : StateStep file.state record.state
  activates : file.state = .enrolling → record.state = .active → event.Activates anp file record
  keys : KeysStep (file.state = .enrolling ∧ record.state = .active) file.keys record.keys

/-- The event brings in the record of an identity that did not exist before. -/
def Event.Introduces (w : World) (event : Event) (record : IdentityRecord) : Prop :=
  record.identityId ∉ w.issued ∧
    ∃ handle call entropy fault, event = .store handle call entropy fault ∧ call.Founds record.state

/-- Every record that the event stores is brought in by it or takes the place of the record before it. -/
def World.KeepsLives (w : World) (event : Event) : Prop :=
  ∀ ws record rest, event.writes anp w = ws ++ .identity record :: rest →
    match (applyAll w.store ws).identities record.identityId with
    | none => event.Introduces w record
    | some file => LifeStep anp event file record

/-! ## Where the root key stands apart -/

/-- The kid of a root key. -/
def RootKid (keys : List KeyMetadata) (kid : String) : Prop := ∃ root ∈ keys, root.role = .rootControl ∧ root.kid = kid

instance (keys : List KeyMetadata) (kid : String) : Decidable (RootKid keys kid) :=
  inferInstanceAs (Decidable (∃ root ∈ keys, _))

/-- The root key of the document is among the keys. -/
def importsRoot (document : Value) (keys : List ImportedPrivateKey) : Bool :=
  match document.getStr "id", rootKeyId document with
  | some did, some rootKid => keys.any (fun key => (canonicalizeKid did key.kid).toOption == some rootKid)
  | _, _ => false

/-- An identity without the root is not brought in with the root key as a key of its own. -/
def StoreCall.SparesRoot : StoreCall → Prop
  | .importDeviceIdentity spec => importsRoot spec.verifiedDocument [spec.signingKey, spec.e2eeKey] = false
  | .importRequestSigningIdentity spec => importsRoot spec.verifiedDocument [spec.privateKey] = false
  | _ => True

instance : ∀ call : StoreCall, Decidable call.SparesRoot
  | .importDeviceIdentity _ | .importRequestSigningIdentity _ => inferInstanceAs (Decidable (_ = _))
  | .createIdentity _ | .prepareEnrollment _ | .prepareRequestSigningEnrollment _ | .importIdentity _
  | .discardUnpublishedEnrollment .. | .deleteIdentityNamespace .. | .deleteIdentityNamespaceDiscardingPending ..
  | .openIdentity _ | .reload => isTrue trivial

/-- The devices that the manifest of a document lists. -/
def listedDevices (document : Value) : List DeviceManifestEntry :=
  match document.get "deviceManifest" with
  | none => []
  | some value => manifestDevices (anp.deviceManifestFromValue value).toOption

/-- While the root is not active, no update removes a device to which the manifest gives the root key. -/
def UpdatesSpareRoot (_ : DidIdentity) (call : IdentityCall) (seen : IdentityRecord) : Prop :=
  match call with
  | .prepareUpdate spec => seen.rootCapability ≠ .active → ∀ device ∈ listedDevices anp seen.document,
      .remove device.deviceId ∈ spec.deviceMutations →
        ¬ RootKid seen.keys device.signingKeyId ∧ ¬ RootKid seen.keys device.e2eeKeyId
  | _ => True

instance (self : DidIdentity) (call : IdentityCall) (seen : IdentityRecord) : Decidable (UpdatesSpareRoot anp self call seen) := by
  unfold UpdatesSpareRoot
  split <;> infer_instance

/-- The event gives the root key to no device and to no request-signing key. -/
def SparesRoot (w : World) (event : Event) : Prop :=
  Calls anp (UpdatesSpareRoot anp) w event ∧
    match event with
    | .store _ call _ _ => call.SparesRoot
    | _ => True

instance (w : World) (event : Event) : Decidable (SparesRoot anp w event) := by
  unfold SparesRoot
  cases event <;> infer_instance

/-- The root key is one key, with a kid of its own, that neither an update nor the local authorization names. -/
structure RootApart (keys : List KeyMetadata) (device : Option LocalAuthorizationRecord) (request : Option String)
    (pending : Option PendingRevisionRecord) : Prop where
  alive : ∀ root ∈ keys, root.role = .rootControl → ¬ root.state.Ended
  others : ∀ key ∈ keys, key.role ≠ .rootControl → ¬ RootKid keys key.kid
  device : ∀ authorization ∈ device, ∀ kid ∈ authorization.kids, ¬ RootKid keys kid
  request : ∀ kid ∈ request, ¬ RootKid keys kid
  retired : ∀ revision ∈ pending, ∀ kid ∈ revision.retiredKids, ¬ RootKid keys kid
  added : ∀ revision ∈ pending, ∀ key ∈ revision.newKeyMetadata, key.role ≠ .rootControl ∧ ¬ RootKid keys key.kid

/-- The record of an enrollment whose document has not been adopted. -/
inductive Enrolled (record : IdentityRecord) : Prop
  | device {root : Option KeyMetadata} {signing e2ee : KeyMetadata} {authorization : LocalAuthorizationRecord}
      (keys : record.keys = root.toList ++ [signing, e2ee])
      (active : ∀ key ∈ root, key.state = .active ∧ key.kid ∉ authorization.kids)
      (signs : signing.Generated .deviceSigning) (agrees : e2ee.Generated .e2eeAgreement)
      (distinct : signing.kid ≠ e2ee.kid) (enrolled : record.localAuthorization = some authorization)
      (kids : authorization.kids = [signing.kid, e2ee.kid]) : Enrolled record
  | request {root : Option KeyMetadata} {key : KeyMetadata} (keys : record.keys = root.toList ++ [key])
      (active : ∀ first ∈ root, first.state = .active ∧ first.role ≠ .requestSigning ∧ first.origin = .external)
      (signs : key.Generated .requestSigning) (device : record.localAuthorization = none)
      (enrolled : record.localRequestSigningKid = some key.kid) : Enrolled record

/-- What a record satisfies in a run that spares the root. -/
structure IdentityRecord.Guarded (record : IdentityRecord) : Prop where
  root : record.rootCapability = .active ∨
    RootApart record.keys record.localAuthorization record.localRequestSigningKid record.pendingRevision
  enrolling : record.state = .enrolling →
    record.rootCapability = .absent ∧ record.pendingRevision = none ∧ Enrolled record

section
variable {anp} {keys kept : List KeyMetadata} {activates : Prop} {kid : String} {key : KeyMetadata}

theorem KeyStep.refl (activates : Prop) (key : KeyMetadata) : KeyStep activates key key where
  kid := rfl
  role := rfl
  ended ended := ended
  activated _ pending active := by
    rw [pending] at active
    cases active

theorem keysStep_refl (activates : Prop) (keys : List KeyMetadata) : List.Forall₂ (KeyStep activates) keys keys :=
  List.forall₂_same.mpr (fun key _ => .refl activates key)

theorem keysStep_map {change : KeyMetadata → KeyMetadata} (step : ∀ key ∈ keys, KeyStep activates key (change key)) :
    List.Forall₂ (KeyStep activates) keys (keys.map change) :=
  List.forall₂_map_right_iff.mpr (List.forall₂_same.mpr step)

theorem KeysStep.of_forall₂ (steps : List.Forall₂ (KeyStep activates) keys kept) : KeysStep activates keys kept :=
  ⟨kept, [], (List.append_nil kept).symm, steps⟩

private theorem forall₂_right {R : KeyMetadata → KeyMetadata → Prop} (steps : List.Forall₂ R keys kept) :
    ∀ new ∈ kept, ∃ old ∈ keys, R old new := by
  induction steps with
  | nil => exact fun _ inside => nomatch inside
  | cons step _ ih =>
    intro new inside
    rcases List.mem_cons.mp inside with rfl | later
    · exact ⟨_, List.mem_cons_self, step⟩
    · obtain ⟨old, there, step⟩ := ih new later
      exact ⟨old, List.mem_cons_of_mem _ there, step⟩

/-- A key whose state ends, or stays. -/
theorem KeyStep.end {state : KeyState} (ended : state.Ended) : KeyStep activates key { key with state } where
  kid := rfl
  role := rfl
  ended _ := ended
  activated _ _ active := by rcases ended with rfl | rfl <;> cases active

/-- A root key that has not ended may change its state. -/
theorem KeyStep.root {origin : KeyOrigin} {state : KeyState} (root : key.role = .rootControl) (alive : ¬ key.state.Ended) :
    KeyStep activates key { key with origin, state } where
  kid := rfl
  role := rfl
  ended ended := absurd ended alive
  activated other := absurd root other

theorem rootKid_step (steps : List.Forall₂ (KeyStep activates) keys kept) : RootKid kept kid ↔ RootKid keys kid := by
  induction steps with
  | nil => rfl
  | cons step _ ih =>
    simp only [RootKid, List.exists_mem_cons_iff] at ih ⊢
    rw [ih, step.kid, step.role]

/-! ## Changes to the keys -/

private theorem retireKey_marks (kid : String) (keys : List KeyMetadata) :
    List.Forall₂ (fun old new => new = old ∨ old.kid = kid ∧ new = { old with state := .retired }) keys (retireKey kid keys) := by
  induction keys with
  | nil => exact .nil
  | cons key rest ih =>
    unfold retireKey
    split
    · rename_i same
      exact .cons (.inr ⟨same, rfl⟩) (List.forall₂_same.mpr (fun _ _ => .inl rfl))
    · exact .cons (.inl rfl) ih

private theorem retireKeys_marks (kids : List String) (keys : List KeyMetadata) :
    List.Forall₂ (fun old new => new = old ∨ old.kid ∈ kids ∧ new = { old with state := .retired }) keys
      (kids.foldl (fun keys kid => retireKey kid keys) keys) := by
  induction kids generalizing keys with
  | nil => exact List.forall₂_same.mpr (fun _ _ => .inl rfl)
  | cons kid rest ih =>
    have first := retireKey_marks kid keys
    have later := ih (retireKey kid keys)
    rw [List.foldl_cons]
    generalize rest.foldl (fun keys kid => retireKey kid keys) (retireKey kid keys) = last at later
    generalize retireKey kid keys = middle at first later
    induction first generalizing last with
    | nil =>
      cases later
      exact .nil
    | cons one _ more =>
      cases later with
      | cons two others =>
        refine .cons ?_ (more _ others)
        rcases two with rfl | ⟨listed, rfl⟩
        · exact one.imp_right (fun marked => ⟨by rw [marked.1]; exact List.mem_cons_self, marked.2⟩)
        · rcases one with rfl | ⟨same, rfl⟩
          · exact .inr ⟨List.mem_cons_of_mem _ listed, rfl⟩
          · exact .inr ⟨by rw [same]; exact List.mem_cons_self, rfl⟩

theorem retireKeys_step (kids : List String) (keys : List KeyMetadata) :
    List.Forall₂ (KeyStep activates) keys (kids.foldl (fun keys kid => retireKey kid keys) keys) := by
  refine (retireKeys_marks kids keys).imp (fun old new marked => ?_)
  rcases marked with rfl | ⟨-, rfl⟩
  · exact .refl _ _
  · exact .end (.inl rfl)

theorem activateRootKey_step {others : List KeyMetadata} (activated : activateRootKey keys = some others)
    (alive : ∀ root ∈ keys, root.role = .rootControl → ¬ root.state.Ended) : List.Forall₂ (KeyStep activates) keys others := by
  induction keys generalizing others with
  | nil => cases activated
  | cons key rest ih =>
    unfold activateRootKey at activated
    split at activated
    · rename_i root
      cases activated
      exact .cons (.root root.1 (alive key List.mem_cons_self root.1)) (keysStep_refl _ _)
    · obtain ⟨more, found, rfl⟩ := Option.map_eq_some_iff.mp activated
      exact .cons (.refl _ _) (ih found (fun root inside => alive root (List.mem_cons_of_mem _ inside)))

/-- Importing the root leaves every key but the root as it is, and the root waits. -/
theorem adoptRootKey_step {rootKid : String} {found : KeyMetadata} {others : List KeyMetadata}
    (adopted : adoptRootKey rootKid keys = some (found, others))
    (alive : ∀ root ∈ keys, root.role = .rootControl → ¬ root.state.Ended) :
    List.Forall₂ (KeyStep activates) keys others ∧ ∀ root ∈ others, root.role = .rootControl → ¬ root.state.Ended := by
  induction keys generalizing found others with
  | nil => cases adopted
  | cons key rest ih =>
    unfold adoptRootKey at adopted
    split at adopted
    · rename_i root
      cases adopted
      refine ⟨.cons (.root root.1 (alive key List.mem_cons_self root.1)) (keysStep_refl _ _), ?_⟩
      intro other inside isRoot
      rcases List.mem_cons.mp inside with rfl | later
      · simp [KeyState.Ended]
      · exact alive other (List.mem_cons_of_mem _ later) isRoot
    · obtain ⟨⟨first, more⟩, found, same⟩ := Option.map_eq_some_iff.mp adopted
      cases same
      obtain ⟨steps, lives⟩ := ih found (fun root inside => alive root (List.mem_cons_of_mem _ inside))
      refine ⟨.cons (.refl _ _) steps, fun root inside => ?_⟩
      rcases List.mem_cons.mp inside with rfl | later
      · exact alive root List.mem_cons_self
      · exact lives root later

/-! ## The root stays apart -/

section
variable {device later : Option LocalAuthorizationRecord} {request : Option String} {pending : Option PendingRevisionRecord}

theorem RootApart.rekey (apart : RootApart keys device request pending)
    (steps : List.Forall₂ (KeyStep activates) keys kept)
    (alive : ∀ root ∈ kept, root.role = .rootControl → ¬ root.state.Ended) (keeps : KeepsDevice device later) :
    RootApart kept later request pending where
  alive := alive
  others key inside other := by
    obtain ⟨old, there, step⟩ := forall₂_right steps key inside
    rw [rootKid_step steps, step.kid]
    exact apart.others old there (step.role ▸ other)
  device authorization listed kid names := by
    obtain ⟨before, was, same⟩ := keeps authorization listed
    rw [rootKid_step steps]
    exact apart.device before was kid (same ▸ names)
  request kid listed := by
    rw [rootKid_step steps]
    exact apart.request kid listed
  retired revision listed kid names := by
    rw [rootKid_step steps]
    exact apart.retired revision listed kid names
  added revision listed key names := by
    rw [rootKid_step steps]
    exact apart.added revision listed key names

theorem RootApart.clear (apart : RootApart keys device request pending) : RootApart keys device request none :=
  { apart with retired := fun _ listed => (nomatch listed), added := fun _ listed => (nomatch listed) }

variable {revision : PendingRevisionRecord}

theorem RootApart.revise {other : PendingRevisionRecord} (apart : RootApart keys device request (some revision))
    (retires : other.retiredKids = revision.retiredKids) (adds : other.newKeyMetadata = revision.newKeyMetadata) :
    RootApart keys device request (some other) where
  alive := apart.alive
  others := apart.others
  device := apart.device
  request := apart.request
  retired later listed := by
    obtain rfl := Option.some.inj listed
    rw [retires]
    exact apart.retired revision rfl
  added later listed := by
    obtain rfl := Option.some.inj listed
    rw [adds]
    exact apart.added revision rfl

theorem RootApart.retire (apart : RootApart keys device request (some revision)) :
    RootApart (revision.retiredKids.foldl (fun keys kid => retireKey kid keys) keys) device request (some revision) := by
  have steps : List.Forall₂ (KeyStep False) keys (revision.retiredKids.foldl (fun keys kid => retireKey kid keys) keys) :=
    retireKeys_step _ _
  refine apart.rekey steps (fun root inside isRoot => ?_) (.refl _)
  obtain ⟨old, there, rfl | ⟨listed, rfl⟩⟩ := forall₂_right (retireKeys_marks revision.retiredKids keys) root inside
  · exact apart.alive root there isRoot
  · exact absurd ⟨old, there, isRoot, rfl⟩ (apart.retired revision rfl old.kid listed)

private theorem rootKid_append {added : List KeyMetadata} (others : ∀ key ∈ added, key.role ≠ .rootControl) :
    RootKid (keys ++ added) kid ↔ RootKid keys kid := by
  constructor
  · rintro ⟨root, inside, isRoot, same⟩
    rcases List.mem_append.mp inside with old | new
    · exact ⟨root, old, isRoot, same⟩
    · exact absurd isRoot (others root new)
  · rintro ⟨root, inside, isRoot, same⟩
    exact ⟨root, List.mem_append_left _ inside, isRoot, same⟩

theorem RootApart.commit (apart : RootApart keys device request (some revision)) :
    RootApart (keys ++ revision.newKeyMetadata) device request none := by
  have others : ∀ key ∈ revision.newKeyMetadata, key.role ≠ .rootControl := fun key inside =>
    (apart.added revision rfl key inside).1
  refine ⟨?_, ?_, ?_, ?_, fun _ listed => (nomatch listed), fun _ listed => (nomatch listed)⟩
  · intro root inside isRoot
    rcases List.mem_append.mp inside with old | new
    · exact apart.alive root old isRoot
    · exact absurd isRoot (others root new)
  · intro key inside other
    rw [rootKid_append others]
    rcases List.mem_append.mp inside with old | new
    · exact apart.others key old other
    · exact (apart.added revision rfl key new).2
  · intro authorization listed kid names
    rw [rootKid_append others]
    exact apart.device authorization listed kid names
  · intro kid listed
    rw [rootKid_append others]
    exact apart.request kid listed

end

/-! ## What an update retires and adds -/

private theorem not_rootKid_of_unused (unused : keys.any (·.kid == kid) = false) : ¬ RootKid keys kid := by
  rintro ⟨root, inside, -, same⟩
  have different := List.any_eq_false.mp unused root inside
  simp [same] at different

variable {record : IdentityRecord} {mutations : List DeviceMutationSpec} {entropy : Entropy} {spec : DocumentUpdateSpec}

/-- The devices that are removed leave the root if those of the manifest do: a device that the same request has added has
keys that are new to the record. -/
private theorem deviceEdits_spare {devices : List DeviceManifestEntry} {rest : List DeviceMutationSpec}
    (listed : ∀ mutation ∈ rest, mutation ∈ mutations) (known : ∀ edit ∈ deviceEdits record.did devices rest, edit.Known record)
    (free : ∀ device ∈ devices, .remove device.deviceId ∈ mutations →
      ¬ RootKid record.keys device.signingKeyId ∧ ¬ RootKid record.keys device.e2eeKeyId) :
    ∀ kid ∈ (deviceEdits record.did devices rest).filterMap KeyEdit.retired, ¬ RootKid record.keys kid := by
  induction rest generalizing devices with
  | nil => simp [deviceEdits]
  | cons mutation rest ih =>
    rw [deviceEdits, List.forall_mem_append] at known
    rw [deviceEdits, List.filterMap_append, List.forall_mem_append]
    refine ⟨?_, ih (fun other inside => listed other (List.mem_cons_of_mem _ inside)) known.2 (fun device there removed => ?_)⟩
    · cases mutation with
      | add device | addProfiles deviceId profiles => simp [DeviceMutationSpec.edits, KeyEdit.retired]
      | remove deviceId =>
        simp only [DeviceMutationSpec.edits]
        split
        · rename_i removed found
          have named : removed.deviceId = deviceId := by simpa using List.find?_some found
          have gone := free removed (List.mem_of_find?_eq_some found) (named ▸ listed _ List.mem_cons_self)
          simpa [KeyEdit.retired] using gone
        · simp
    · rcases mutation.mem_devices there with ⟨old, inside, named, signing, e2ee⟩ | ⟨_, _, edits⟩
      · exact signing ▸ e2ee ▸ free old inside (named ▸ removed)
      · simp only [edits, List.forall_mem_cons] at known
        exact ⟨not_rootKid_of_unused known.1.1, not_rootKid_of_unused known.1.2.1⟩

private theorem prepareRotation_spare {rotation : RequestSigningRotation} {prepared : PreparedRotation}
    (others : ∀ key ∈ record.keys, key.role ≠ .rootControl → ¬ RootKid record.keys key.kid)
    (made : prepareRotation entropy record rotation = .ok prepared) :
    ¬ RootKid record.keys prepared.oldKid ∧ ¬ RootKid record.keys prepared.newKid := by
  simp only [prepareRotation, except_bind_ok, reject_ok, okOr_ok] at made
  obtain ⟨oldKid, -, old, found, _, -, _, other, _, -, _, -, _, -, newKid, -, _, unused, same⟩ := made
  cases same
  have named : old.kid = oldKid := by simpa using List.find?_some found
  refine ⟨?_, not_rootKid_of_unused (by simpa using unused)⟩
  rw [← named]
  exact others old (List.mem_of_find?_eq_some found) other

/-- The revision that an update prepares leaves the root apart. -/
theorem planUpdate_apart {s : Store} {seen : IdentityRecord} {plan : UpdatePlan} {pending : Option PendingRevisionRecord}
    (apart : RootApart seen.keys seen.localAuthorization seen.localRequestSigningKid pending)
    (devices : ∀ device ∈ listedDevices anp seen.document, .remove device.deviceId ∈ spec.deviceMutations →
      ¬ RootKid seen.keys device.signingKeyId ∧ ¬ RootKid seen.keys device.e2eeKeyId)
    (planned : planUpdate anp entropy s seen spec = .ok plan) (digest : String) :
    RootApart seen.keys seen.localAuthorization seen.localRequestSigningKid (some (plan.pending entropy seen digest)) := by
  obtain ⟨added, turned, plans⟩ := planUpdate_plans planned
  obtain ⟨stored, rotated, requested, manifest, changed, written, stages⟩ := buildCandidateDocument_ok plans.built
  have requests := applyRequestSigningMutations_applies stages.requests
  have applied := (applyDeviceMutationList_applies stages.devices).1
  have applies := requests.trans applied
  have lists : listedDevices anp seen.document = manifestDevices manifest := by
    unfold listedDevices
    rw [Value.get, stages.is, Option.bind_some]
    cases stages.manifest plans.rotated with
    | absent none => rw [none]; rfl
    | present found parsed => rw [found]; simp [parsed, Except.toOption]
  have retires : ∀ kid ∈ plan.changes.retiredKids, ¬ RootKid seen.keys kid := by
    rw [stages.retired, applies.retired, List.filterMap_append, List.nil_append, List.forall_mem_append]
    refine ⟨fun kid inside => ?_, deviceEdits_spare (fun _ inside => inside) applied.known (lists ▸ devices)⟩
    obtain ⟨edit, listed, retired⟩ := List.mem_filterMap.mp inside
    obtain ⟨mutation, -, there⟩ := List.mem_flatMap.mp listed
    cases mutation with
    | add key => simp [RequestSigningMutationSpec.edits] at there; subst there; cases retired
    | remove asked =>
      rw [List.mem_singleton.mp there] at listed retired
      obtain ⟨key, held, same, role⟩ := requests.known _ listed rfl
      cases retired
      exact same ▸ apart.others key held (by rw [role]; simp)
  have adds : ∀ key ∈ plan.changes.addedKeys, key.2 ≠ .rootControl ∧ ¬ RootKid seen.keys key.1 := by
    rw [stages.added, applies.added, List.nil_append]
    intro key inside
    obtain ⟨edit, listed, same⟩ := List.mem_filterMap.mp inside
    cases edit with
    | add kid role method =>
      cases same
      exact ⟨(applies.proper _ listed).2, not_rootKid_of_unused (applies.known _ listed)⟩
    | retire => cases same
  have spared : ∀ prepared ∈ plan.rotation, ¬ RootKid seen.keys prepared.oldKid ∧ ¬ RootKid seen.keys prepared.newKid := by
    intro prepared rotates
    obtain ⟨_, prepares⟩ := planRotation_ok plans.rotated prepared rotates
    exact prepareRotation_spare apart.others prepares
  refine { apart with retired := fun revision listed kid names => ?_, added := fun revision listed key names => ?_ }
  · obtain rfl := Option.some.inj listed
    rcases List.mem_append.mp names with old | new
    · exact retires kid old
    · obtain ⟨prepared, rotates, rfl⟩ := Option.map_eq_some_iff.mp (Option.mem_toList.mp new)
      exact (spared prepared rotates).1
  · obtain rfl := Option.some.inj listed
    change key ∈ plan.newMetadata at names
    rw [plans.metadata] at names
    rcases List.mem_append.mp names with old | new
    · obtain ⟨source, listed, described⟩ := mapM_ok plans.described key old
      have facts := keyMetadata_ok described
      rw [facts.role, facts.kid]
      exact adds source listed
    · obtain ⟨prepared, rotates, facts⟩ := plans.turns key new
      rw [facts.role, facts.kid]
      exact ⟨by simp, (spared prepared rotates).2⟩

end
end AnpIdentity
