import AnpIdentity.Candidates
import AnpIdentity.Script

/-! The changes that a request asks for, as edits of keys. An edit adds a key to a document or retires one; on each array
of the document a list of edits is a script of appends and removals. -/

namespace AnpIdentity

def DidVerificationRelationship.name : DidVerificationRelationship → String
  | .authentication => "authentication"
  | .assertionMethod => "assertionMethod"
  | .keyAgreement => "keyAgreement"

def methodsName : String := "verificationMethod"

def Object.entries (object : Object) (name : String) : List Value := ((object.get name).bind Value.asArray).getD []

def Value.entries (document : Value) (name : String) : List Value := ((document.get name).bind Value.asArray).getD []

/-- A rotation leaves the method of the old key in the document; the other ways to retire a key drop it. -/
inductive KeyEdit where
  | add (kid : String) (role : KeyRole) (method : Value)
  | retire (kid : String) (role : KeyRole) (drop : Bool)
  deriving DecidableEq

namespace KeyEdit

def added : KeyEdit → Option (String × KeyRole)
  | .add kid role _ => some (kid, role)
  | .retire .. => none

def retired : KeyEdit → Option String
  | .add .. => none
  | .retire kid _ _ => some kid

def onMethods : KeyEdit → Script.Step Value
  | .add _ _ method => .append method
  | .retire kid _ true => .retain (fun method => method.getStr "id" != some kid)
  | .retire _ _ false => .retain (fun _ => true)

def onRelationship (relationship : DidVerificationRelationship) : KeyEdit → Script.Step Value
  | .add kid role _ => if relationship ∈ relationships role then .append (.string kid) else .retain (fun _ => true)
  | .retire kid role _ =>
    if relationship ∈ relationships role then .retain (fun entry => entry.asStr != some kid) else .retain (fun _ => true)

end KeyEdit

/-! ## What a request asks for -/

def canonicalKid (did kid : String) : String := ((canonicalizeKid did kid).toOption).getD kid

section
variable (did : String)

def RequestSigningRotation.edits (anp : Anp) (entropy : Entropy) (rotation : RequestSigningRotation) : List KeyEdit :=
  let newKid := canonicalKid did rotation.newFragment
  let newKey : ManagedPrivateKey := { fragment := rotation.newFragment, role := .requestSigning, bytes := entropy.key 0 }
  let multibase := ((ed25519PublicMultibase anp (newKey.publicKey anp)).toOption).getD ""
  [.retire (canonicalKid did rotation.oldKid) .requestSigning false,
    .add newKid .requestSigning (methodJson "Multikey" newKid did multibase)]

def RequestSigningMutationSpec.edits : RequestSigningMutationSpec → List KeyEdit
  | .add key =>
    let kid := canonicalKid did key.kid
    [.add kid .requestSigning (methodJson "Multikey" kid did key.publicKeyMultibase)]
  | .remove kid => [.retire (canonicalKid did kid) .requestSigning true]

def DeviceMutationSpec.edits (devices : List DeviceManifestEntry) : DeviceMutationSpec → List KeyEdit
  | .add device =>
    let signingKid := canonicalKid did device.signingKey.kid
    let e2eeKid := canonicalKid did device.e2eeKey.kid
    [.add signingKid .deviceSigning (methodJson "Multikey" signingKid did device.signingKey.publicKeyMultibase),
      .add e2eeKid .e2eeAgreement (methodJson "X25519KeyAgreementKey2019" e2eeKid did device.e2eeKey.publicKeyMultibase)]
  | .remove deviceId =>
    match devices.find? (·.deviceId == deviceId) with
    | some removed => [.retire removed.signingKeyId .deviceSigning true, .retire removed.e2eeKeyId .e2eeAgreement true]
    | none => []
  | .addProfiles .. => []

/-- The devices after a mutation. -/
def DeviceMutationSpec.devices (devices : List DeviceManifestEntry) : DeviceMutationSpec → List DeviceManifestEntry
  | .add device => devices ++ [{ deviceId := device.deviceId, signingKeyId := canonicalKid did device.signingKey.kid,
                                 e2eeKeyId := canonicalKid did device.e2eeKey.kid, profiles := device.profiles }]
  | .remove deviceId => devices.eraseP (·.deviceId == deviceId)
  | .addProfiles deviceId profiles =>
    (updateDevice deviceId (fun entry => { entry with profiles := addMissingProfiles entry.profiles profiles }) devices).getD
      devices

def requestedDevices (devices : List DeviceManifestEntry) (mutations : List DeviceMutationSpec) : List DeviceManifestEntry :=
  mutations.foldl (DeviceMutationSpec.devices did) devices

/-- A device that is removed retires the keys that the manifest then lists for it. -/
def deviceEdits : List DeviceManifestEntry → List DeviceMutationSpec → List KeyEdit
  | _, [] => []
  | devices, mutation :: rest => mutation.edits did devices ++ deviceEdits (mutation.devices did devices) rest

def DocumentUpdateSpec.laterEdits (devices : List DeviceManifestEntry) (spec : DocumentUpdateSpec) : List KeyEdit :=
  spec.requestSigningMutations.flatMap (·.edits did) ++ deviceEdits did devices spec.deviceMutations

/-- The edits of a request, in the order in which they are made. -/
def DocumentUpdateSpec.edits (anp : Anp) (entropy : Entropy) (devices : List DeviceManifestEntry) (spec : DocumentUpdateSpec) :
    List KeyEdit :=
  (spec.requestSigningRotation.map (·.edits did anp entropy)).getD [] ++ spec.laterEdits did devices

end

/-! ## What an edit does -/

/-- One document comes from another by edits of keys. -/
structure Edited (edits : List KeyEdit) (before after : Object) : Prop where
  methods : after.entries methodsName = Script.run (before.entries methodsName) (edits.map KeyEdit.onMethods)
  relationship : ∀ relationship : DidVerificationRelationship, after.entries relationship.name =
    Script.run (before.entries relationship.name) (edits.map (KeyEdit.onRelationship relationship))
  others : ∀ name, name ≠ methodsName → (∀ relationship : DidVerificationRelationship, name ≠ relationship.name) →
    after.get name = before.get name

/-- A key is only added under a kid that no method has. -/
def AddsAbsent (methods : List Value) (edits : List KeyEdit) : Prop :=
  ∀ before kid role method after, edits = before ++ .add kid role method :: after →
    ∀ present ∈ Script.run methods (before.map KeyEdit.onMethods), present.getStr "id" ≠ some kid

/-- The method of a new key has its kid, and no edit adds a root key. -/
def KeyEdit.Proper : KeyEdit → Prop
  | .add kid role method => method.getStr "id" = some kid ∧ role ≠ .rootControl
  | .retire .. => True

/-- The record has no key with the kid of a new key, and it has the request-signing keys that are retired. -/
def KeyEdit.Known (record : IdentityRecord) : KeyEdit → Prop
  | .add kid _ _ => record.keys.any (·.kid == kid) = false
  | .retire kid role _ => role = .requestSigning → ∃ key ∈ record.keys, key.kid = kid ∧ key.role = .requestSigning

/-- The edits are made on the document and noted in the lists of added and retired keys. -/
structure Applies (record : IdentityRecord) (edits : List KeyEdit) (before after : DocumentChanges) : Prop where
  edited : Edited edits before.object after.object
  checked : AddsAbsent (before.object.entries methodsName) edits
  proper : ∀ edit ∈ edits, edit.Proper
  added : after.addedKeys = before.addedKeys ++ edits.filterMap KeyEdit.added
  retired : after.retiredKids = before.retiredKids ++ edits.filterMap KeyEdit.retired
  known : ∀ edit ∈ edits, edit.Known record

section
variable {before middle after : Object} {first second edits : List KeyEdit} {record : IdentityRecord}

theorem entries_congr {name : String} (same : after.get name = before.get name) : after.entries name = before.entries name := by
  rw [Object.entries, Object.entries, same]

theorem Edited.refl (object : Object) : Edited [] object object := ⟨rfl, fun _ => rfl, fun _ _ _ => rfl⟩

theorem Edited.trans (one : Edited first before middle) (two : Edited second middle after) :
    Edited (first ++ second) before after := by
  refine ⟨?_, fun relationship => ?_, fun name method others => (two.others name method others).trans (one.others name method others)⟩
  · rw [two.methods, one.methods, List.map_append, Script.run_append]
  · rw [two.relationship, one.relationship, List.map_append, Script.run_append]

theorem AddsAbsent.append {methods : List Value} (one : AddsAbsent methods first)
    (two : AddsAbsent (Script.run methods (first.map KeyEdit.onMethods)) second) : AddsAbsent methods (first ++ second) := by
  intro before kid role method after split
  rcases List.append_eq_append_iff.mp split with ⟨more, rfl, rest⟩ | ⟨more, rfl, rest⟩
  · intro present inside
    rw [List.map_append, Script.run_append] at inside
    exact two more kid role method after rest present inside
  · cases more with
    | nil =>
      rw [List.append_nil] at two
      exact two [] kid role method after rest.symm
    | cons edit more =>
      obtain ⟨rfl, rfl⟩ := List.cons.inj rest
      exact one before kid role method more rfl

theorem Applies.refl (changes : DocumentChanges) : Applies record [] changes changes where
  edited := .refl _
  checked before _ _ _ _ split := by simp at split
  proper _ inside := nomatch inside
  added := (List.append_nil _).symm
  retired := (List.append_nil _).symm
  known _ inside := nomatch inside

theorem Applies.trans {before middle after : DocumentChanges} (one : Applies record first before middle)
    (two : Applies record second middle after) : Applies record (first ++ second) before after where
  edited := one.edited.trans two.edited
  checked := one.checked.append (one.edited.methods ▸ two.checked)
  proper edit inside := (List.mem_append.mp inside).elim (one.proper edit) (two.proper edit)
  added := by rw [two.added, one.added, List.filterMap_append, List.append_assoc]
  retired := by rw [two.retired, one.retired, List.filterMap_append, List.append_assoc]
  known edit inside := (List.mem_append.mp inside).elim (one.known edit) (two.known edit)

theorem modifyArray_ok {object next : Object} {name : String} {change : List Value → List Value}
    (made : modifyArray object name change = .ok next) :
    next.entries name = change (object.entries name) ∧ ∀ other, other ≠ name → next.get other = object.get other := by
  obtain ⟨items, found, same⟩ := except_bind_ok.mp made
  cases same
  refine ⟨?_, fun other different => Object.get_insert_of_ne different ..⟩
  rw [Object.entries, Object.entries, okOr_ok.mp found, Object.get_insert_self]
  rfl

theorem methodJson_id (type kid did multibase : String) : (methodJson type kid did multibase).getStr "id" = some kid := by
  simp [methodJson, Object.of, Value.getStr, Value.get, Value.asObject, Value.asStr, Object.get_insert_of_ne]

end

/-! ## Mutations -/

section
variable {anp : Anp} {entropy : Entropy} {record : IdentityRecord}

variable {kid : String} {object : Object} {methods : List Value} {next state : DeviceChanges}
  {authentication : List Value → List Value} {changes : DocumentChanges}

theorem canonicalKid_ok {did canonical : String} (named : canonicalizeKid did kid = .ok canonical) :
    canonicalKid did kid = canonical := by
  simp [canonicalKid, named, Except.toOption]

private theorem methodExists_false (absent : methodExists object kid = false) :
    ∀ present ∈ object.entries methodsName, present.getStr "id" ≠ some kid := by
  intro present inside same
  have none := List.any_eq_false.mp absent present inside
  simp [same] at none

private theorem run_retain_true (items : List Value) : Script.run items [.retain (fun _ => true)] = items :=
  List.filter_true items

private theorem addsAbsent_one {role : KeyRole} {method : Value}
    (absent : ∀ present ∈ methods, present.getStr "id" ≠ some kid) : AddsAbsent methods [.add kid role method] := by
  intro before other _ _ after split
  cases before with
  | nil =>
    cases split
    exact absent
  | cons first rest => simp at split

private theorem addsAbsent_retire {role : KeyRole} {drop : Bool} : AddsAbsent methods [.retire kid role drop] := by
  intro before other _ _ after split
  cases before with
  | nil => cases split
  | cons first rest => simp at split

private theorem addsAbsent_pair {first second : KeyEdit} (one : AddsAbsent methods [first])
    (two : AddsAbsent (first.onMethods.apply methods) [second]) : AddsAbsent methods [first, second] :=
  one.append two

private theorem applyRotation_edited {rotation : PreparedRotation} {next : Object} {multibase : String}
    (encoded : ed25519PublicMultibase anp (rotation.newKey.publicKey anp) = .ok multibase)
    (made : applyRotation anp record rotation object = .ok next) : Edited [.retire rotation.oldKid .requestSigning false,
      .add rotation.newKid .requestSigning (methodJson "Multikey" rotation.newKid record.did multibase)] object next := by
  simp only [applyRotation, except_bind_ok] at made
  obtain ⟨other, same, middle, methods, authentication⟩ := made
  cases encoded.symm.trans same
  obtain ⟨methods, firstOthers⟩ := modifyArray_ok methods
  obtain ⟨authentication, secondOthers⟩ := modifyArray_ok authentication
  refine ⟨?_, fun relationship => ?_, fun name method others => ?_⟩
  · rw [entries_congr (secondOthers methodsName (by decide)), show methodsName = "verificationMethod" from rfl, methods]
    exact congrArg (· ++ _) (run_retain_true _).symm
  · cases relationship with
    | authentication =>
      rw [DidVerificationRelationship.name, authentication, entries_congr (firstOthers _ (by decide))]
      rfl
    | assertionMethod =>
      rw [DidVerificationRelationship.name, entries_congr (secondOthers _ (by decide)), entries_congr (firstOthers _ (by decide))]
      exact ((run_retain_true _).trans (run_retain_true _)).symm
    | keyAgreement =>
      rw [DidVerificationRelationship.name, entries_congr (secondOthers _ (by decide)), entries_congr (firstOthers _ (by decide))]
      exact ((run_retain_true _).trans (run_retain_true _)).symm
  · rw [secondOthers name (others .authentication), firstOthers name method]

/-- A request-signing key is in the methods and in `authentication` only. -/
private theorem edited_request {middle next : Object} {edit : KeyEdit} {methods : List Value → List Value}
    (first : modifyArray object "verificationMethod" methods = .ok middle)
    (second : modifyArray middle "authentication" authentication = .ok next)
    (onMethods : ∀ items, methods items = edit.onMethods.apply items)
    (onAuthentication : ∀ items, authentication items = (edit.onRelationship .authentication).apply items)
    (elsewhere : ∀ relationship, relationship ≠ .authentication →
      edit.onRelationship relationship = .retain (fun _ => true)) :
    Edited [edit] object next := by
  obtain ⟨inMethods, firstOthers⟩ := modifyArray_ok first
  obtain ⟨inAuthentication, secondOthers⟩ := modifyArray_ok second
  refine ⟨?_, fun relationship => ?_, fun name method others => ?_⟩
  · rw [entries_congr (secondOthers methodsName (by decide)), show methodsName = "verificationMethod" from rfl, inMethods]
    exact onMethods _
  · by_cases here : relationship = .authentication
    · subst here
      rw [DidVerificationRelationship.name, inAuthentication, entries_congr (firstOthers _ (by decide))]
      exact onAuthentication _
    · have apart : relationship.name ≠ "authentication" ∧ relationship.name ≠ "verificationMethod" := by
        cases relationship <;> simp [DidVerificationRelationship.name] at here ⊢
      rw [entries_congr (secondOthers _ apart.1), entries_congr (firstOthers _ apart.2), List.map_singleton,
        elsewhere relationship here, run_retain_true]
  · rw [secondOthers name (others .authentication), firstOthers name method]

private theorem applyRequestSigningMutation_applies {next : DocumentChanges} {mutation : RequestSigningMutationSpec}
    (made : applyRequestSigningMutation anp record changes mutation = .ok next) :
    Applies record (mutation.edits record.did) changes next := by
  cases mutation with
  | add key =>
    simp only [applyRequestSigningMutation, except_bind_ok, reject_ok, Bool.or_eq_true, not_or, Bool.not_eq_true] at made
    obtain ⟨kid, named, _, ⟨unused, absent⟩, _, -, middle, first, object, second, same⟩ := made
    cases same
    rw [RequestSigningMutationSpec.edits, canonicalKid_ok named]
    refine ⟨edited_request first second (fun _ => rfl) (fun _ => rfl) (fun relationship other => ?_),
      addsAbsent_one (methodExists_false absent), fun edit inside => ?_, rfl, (List.append_nil _).symm, fun edit inside => ?_⟩
    · cases relationship with
      | authentication => exact absurd rfl other
      | assertionMethod | keyAgreement => rfl
    · rw [List.mem_singleton.mp inside]
      exact ⟨methodJson_id .., by simp⟩
    · rw [List.mem_singleton.mp inside]
      exact unused
  | remove kid =>
    simp only [applyRequestSigningMutation, except_bind_ok, reject_ok, okOr_ok, ne_eq, not_not] at made
    obtain ⟨kid, named, key, found, _, role, _, -, middle, first, object, second, same⟩ := made
    cases same
    rw [RequestSigningMutationSpec.edits, canonicalKid_ok named]
    refine ⟨edited_request first second (fun items => ?_) (fun _ => rfl) (fun relationship other => ?_),
      addsAbsent_retire, fun edit inside => ?_, (List.append_nil _).symm, rfl, fun edit inside => ?_⟩
    · refine List.filter_congr (fun method _ => ?_)
      simp [bne]
    · cases relationship with
      | authentication => exact absurd rfl other
      | assertionMethod | keyAgreement => rfl
    · rw [List.mem_singleton.mp inside]
      trivial
    · rw [List.mem_singleton.mp inside]
      exact fun _ => ⟨key, List.mem_of_find?_eq_some found, by simpa using List.find?_some found, role⟩

theorem applyRequestSigningMutations_applies {next : DocumentChanges} {mutations : List RequestSigningMutationSpec}
    (made : applyRequestSigningMutations anp record changes mutations = .ok next) :
    Applies record (mutations.flatMap (·.edits record.did)) changes next := by
  induction mutations generalizing changes with
  | nil =>
    cases made
    exact .refl _
  | cons mutation rest ih =>
    obtain ⟨middle, first, later⟩ := except_bind_ok.mp made
    exact (applyRequestSigningMutation_applies first).trans (ih later)

/-- The keys of a device are in the methods and in all three relationships. -/
private theorem edited_device {one two three next : Object} {edits : List KeyEdit}
    {methods assertion agreement : List Value → List Value}
    (first : modifyArray object "verificationMethod" methods = .ok one)
    (second : modifyArray one "authentication" authentication = .ok two)
    (third : modifyArray two "assertionMethod" assertion = .ok three)
    (fourth : modifyArray three "keyAgreement" agreement = .ok next)
    (onMethods : ∀ items, methods items = Script.run items (edits.map KeyEdit.onMethods))
    (onAuthentication : ∀ items, authentication items = Script.run items (edits.map (KeyEdit.onRelationship .authentication)))
    (onAssertion : ∀ items, assertion items = Script.run items (edits.map (KeyEdit.onRelationship .assertionMethod)))
    (onAgreement : ∀ items, agreement items = Script.run items (edits.map (KeyEdit.onRelationship .keyAgreement))) :
    Edited edits object next := by
  obtain ⟨inMethods, firstOthers⟩ := modifyArray_ok first
  obtain ⟨inAuthentication, secondOthers⟩ := modifyArray_ok second
  obtain ⟨inAssertion, thirdOthers⟩ := modifyArray_ok third
  obtain ⟨inAgreement, fourthOthers⟩ := modifyArray_ok fourth
  refine ⟨?_, fun relationship => ?_, fun name method others => ?_⟩
  · rw [entries_congr (fourthOthers methodsName (by decide)), entries_congr (thirdOthers methodsName (by decide)),
      entries_congr (secondOthers methodsName (by decide)), show methodsName = "verificationMethod" from rfl, inMethods, onMethods]
  · cases relationship with
    | authentication =>
      rw [DidVerificationRelationship.name, entries_congr (fourthOthers _ (by decide)), entries_congr (thirdOthers _ (by decide)),
        inAuthentication, entries_congr (firstOthers _ (by decide)), onAuthentication]
    | assertionMethod =>
      rw [DidVerificationRelationship.name, entries_congr (fourthOthers _ (by decide)), inAssertion,
        entries_congr (secondOthers _ (by decide)), entries_congr (firstOthers _ (by decide)), onAssertion]
    | keyAgreement =>
      rw [DidVerificationRelationship.name, inAgreement, entries_congr (thirdOthers _ (by decide)),
        entries_congr (secondOthers _ (by decide)), entries_congr (firstOthers _ (by decide)), onAgreement]
  · rw [fourthOthers name (others .keyAgreement), thirdOthers name (others .assertionMethod),
      secondOthers name (others .authentication), firstOthers name method]

/-- What device mutations make of the manifest. -/
structure ListsDevices (anp : Anp) (did : String) (mutations : List DeviceMutationSpec) (before after : Option DeviceManifest) : Prop where
  devices : manifestDevices after = requestedDevices did (manifestDevices before) mutations
  kind : ∀ manifest ∈ after, manifest.manifestType = (before.map (·.manifestType)).getD anp.deviceManifestType
  kept : after = none → before = none

private theorem addDevice_applies {device : DeviceAddSpec} (made : addDevice anp record state device = .ok next) :
    Applies record (DeviceMutationSpec.edits record.did (manifestDevices state.manifest) (.add device)) state.changes next.changes ∧
      ListsDevices anp record.did [.add device] state.manifest next.manifest := by
  simp only [addDevice, except_bind_ok, reject_ok, not_or, Bool.not_eq_true] at made
  obtain ⟨_, -, signing, signs, e2ee, agrees, _, ⟨-, apart, unused, noSigning, noE2ee, -⟩, _, -, _, -, one, first, two, second, three,
    third, object, fourth, same⟩ := made
  cases same
  refine ⟨?_, ?_⟩
  · rw [DeviceMutationSpec.edits, canonicalKid_ok signs, canonicalKid_ok agrees]
    refine ⟨edited_device first second third fourth (fun items => ?_) (fun items => ?_) (fun items => ?_) (fun items => ?_), ?_,
      fun edit inside => ?_, rfl, (List.append_nil _).symm, fun edit inside => ?_⟩
    · simp [Script.run, KeyEdit.onMethods, Script.Step.apply]
    · simp [Script.run, KeyEdit.onRelationship, relationships, Script.Step.apply]
    · simp [Script.run, KeyEdit.onRelationship, relationships, Script.Step.apply]
    · simp [Script.run, KeyEdit.onRelationship, relationships, Script.Step.apply]
    · refine addsAbsent_pair (addsAbsent_one (methodExists_false noSigning)) (addsAbsent_one ?_)
      intro present inside
      rcases List.mem_append.mp inside with old | new
      · exact methodExists_false noE2ee present old
      · rw [List.mem_singleton.mp new, methodJson_id]
        simpa using apart
    · rcases List.mem_pair.mp inside with rfl | rfl
      · exact ⟨methodJson_id .., by simp⟩
      · exact ⟨methodJson_id .., by simp⟩
    · simp only [List.any_eq_false, Bool.or_eq_true, not_or] at unused
      rcases List.mem_pair.mp inside with rfl | rfl
      · exact List.any_eq_false.mpr (fun key there => (unused key there).1)
      · exact List.any_eq_false.mpr (fun key there => (unused key there).2)
  · refine ⟨?_, fun manifest there => ?_, by rintro ⟨⟩⟩
    · simp only [requestedDevices, List.foldl_cons, List.foldl_nil, DeviceMutationSpec.devices, canonicalKid_ok signs,
        canonicalKid_ok agrees]
      cases state.manifest <;> rfl
    · cases there
      cases state.manifest <;> rfl

private theorem removeDevice_applies {deviceId : String} (made : removeDevice record state deviceId = .ok next) :
    Applies record (DeviceMutationSpec.edits record.did (manifestDevices state.manifest) (.remove deviceId)) state.changes
      next.changes ∧
      ListsDevices anp record.did [.remove deviceId] state.manifest next.manifest := by
  simp only [removeDevice, except_bind_ok, okOr_ok] at made
  obtain ⟨_, -, _, -, manifest, present, removed, found, one, first, two, second, three, third, object, fourth, same⟩ := made
  cases same
  refine ⟨?_, ?_⟩
  · have listed : (manifestDevices state.manifest).find? (·.deviceId == deviceId) = some removed := by rw [present]; exact found
    rw [DeviceMutationSpec.edits, listed]
    refine ⟨edited_device first second third fourth (fun items => ?_) (fun items => ?_) (fun items => ?_) (fun items => ?_), ?_,
      fun edit inside => ?_, (List.append_nil _).symm, rfl, fun edit inside => ?_⟩
    · simp only [withoutMethods, Script.run, List.map_cons, List.map_nil, List.foldl_cons, List.foldl_nil, KeyEdit.onMethods,
        Script.Step.apply, List.filter_filter]
      refine List.filter_congr (fun method _ => ?_)
      simp [bne, Bool.and_comm]
    · simp [withoutKid, Script.run, KeyEdit.onRelationship, relationships, Script.Step.apply]
    · simp [withoutKid, Script.run, KeyEdit.onRelationship, relationships, Script.Step.apply]
    · simp [withoutKid, Script.run, KeyEdit.onRelationship, relationships, Script.Step.apply]
    · exact addsAbsent_pair addsAbsent_retire addsAbsent_retire
    · rcases List.mem_pair.mp inside with rfl | rfl <;> trivial
    · rcases List.mem_pair.mp inside with rfl | rfl <;> rintro ⟨⟩
  · rw [present]
    refine ⟨rfl, fun other there => ?_, by rintro ⟨⟩⟩
    cases there
    rfl

private theorem applyDeviceMutation_applies {mutation : DeviceMutationSpec}
    (made : applyDeviceMutation anp record state mutation = .ok next) :
    Applies record (mutation.edits record.did (manifestDevices state.manifest)) state.changes next.changes ∧
      ListsDevices anp record.did [mutation] state.manifest next.manifest := by
  cases mutation with
  | add device => exact addDevice_applies made
  | remove deviceId => exact removeDevice_applies made
  | addProfiles deviceId profiles =>
    simp only [applyDeviceMutation, addDeviceProfiles, except_bind_ok, okOr_ok] at made
    obtain ⟨_, -, manifest, present, devices, updated, same⟩ := made
    cases same
    refine ⟨.refl _, ?_⟩
    rw [present]
    refine ⟨?_, fun other there => ?_, nofun⟩
    · simp only [requestedDevices, List.foldl_cons, List.foldl_nil, DeviceMutationSpec.devices]
      change devices = (updateDevice _ _ manifest.devices).getD _
      rw [updated]
      rfl
    · cases there
      rfl

/-- A device that is listed after a mutation has the keys of a device that was listed before it, or the mutation adds them. -/
theorem DeviceMutationSpec.mem_devices {did : String} {devices : List DeviceManifestEntry} {device : DeviceManifestEntry}
    (mutation : DeviceMutationSpec) (listed : device ∈ mutation.devices did devices) :
    (∃ old ∈ devices, old.deviceId = device.deviceId ∧ old.signingKeyId = device.signingKeyId ∧
      old.e2eeKeyId = device.e2eeKeyId) ∨
      ∃ signing e2ee, mutation.edits did devices =
        [.add device.signingKeyId .deviceSigning signing, .add device.e2eeKeyId .e2eeAgreement e2ee] := by
  cases mutation with
  | add new =>
    rcases List.mem_append.mp listed with old | added
    · exact .inl ⟨device, old, rfl, rfl, rfl⟩
    · rw [List.mem_singleton.mp added]
      exact .inr ⟨_, _, rfl⟩
  | remove deviceId => exact .inl ⟨device, List.mem_of_mem_eraseP listed, rfl, rfl, rfl⟩
  | addProfiles deviceId more =>
    rw [DeviceMutationSpec.devices] at listed
    cases updated : updateDevice deviceId (fun entry => { entry with profiles := addMissingProfiles entry.profiles more })
      devices with
    | none => exact .inl ⟨device, by rwa [updated] at listed, rfl, rfl, rfl⟩
    | some after =>
      rw [updated] at listed
      rcases updateDevice_mem updated device listed with old | ⟨old, inside, rfl⟩
      · exact .inl ⟨device, old, rfl, rfl, rfl⟩
      · exact .inl ⟨old, inside, rfl, rfl, rfl⟩

theorem applyDeviceMutationList_applies {mutations : List DeviceMutationSpec}
    (made : applyDeviceMutationList anp record state mutations = .ok next) :
    Applies record (deviceEdits record.did (manifestDevices state.manifest) mutations) state.changes next.changes ∧
      ListsDevices anp record.did mutations state.manifest next.manifest := by
  induction mutations generalizing state with
  | nil =>
    cases made
    refine ⟨.refl _, rfl, fun manifest there => ?_, fun none => none⟩
    rw [there]
    rfl
  | cons mutation rest ih =>
    obtain ⟨middle, first, later⟩ := except_bind_ok.mp made
    obtain ⟨applies, lists⟩ := applyDeviceMutation_applies first
    obtain ⟨more, then'⟩ := ih later
    have devices : manifestDevices middle.manifest = mutation.devices record.did (manifestDevices state.manifest) := lists.devices
    refine ⟨?_, ?_, fun manifest there => ?_, fun none => lists.kept (then'.kept none)⟩
    · rw [deviceEdits, ← devices]
      exact applies.trans more
    · rw [then'.devices, devices]
      rfl
    · rw [then'.kind manifest there]
      cases found : middle.manifest with
      | none => rw [lists.kept found]
      | some old => exact lists.kind old found

end

/-! ## The candidate -/

/-- A proof is added to a document and leaves its other fields as they are. -/
structure Anp.AddsProof (anp : Anp) : Prop where
  proves : ∀ document key kid options prepared signature signed, anp.prepareW3cProof document key kid options = .ok prepared →
    anp.completeW3cProof prepared signature = .ok signed → ∀ name, name ≠ "proof" → signed.get name = document.get name

/-- The keys that a plan adds, with their roles. -/
def UpdatePlan.added (plan : UpdatePlan) : List (String × KeyRole) :=
  plan.changes.addedKeys ++ (plan.rotation.map (fun rotation => (rotation.newKid, KeyRole.requestSigning))).toList

/-- The keys that a plan retires. -/
def UpdatePlan.retired (plan : UpdatePlan) : List String :=
  plan.changes.retiredKids ++ (plan.rotation.map (·.oldKid)).toList

/-- The manifest of a document lists the devices; a document without devices has none. -/
def ManifestLists (anp : Anp) (kind : String) (devices : List DeviceManifestEntry) (document : Value) : Prop :=
  if devices = [] then document.get "deviceManifest" = none
  else ∃ value, anp.deviceManifestToValue { manifestType := kind, devices } = .ok value ∧
    document.get "deviceManifest" = some value

/-- How the candidate of a plan comes from the document of the record, with the manifest that it had. -/
structure Drafts (anp : Anp) (entropy : Entropy) (record : IdentityRecord) (spec : DocumentUpdateSpec)
    (manifest : Option DeviceManifest) (plan : UpdatePlan) : Prop where
  reads : ∃ stored, record.document.asObject = some stored ∧ ReadsManifest anp stored manifest
  methods : plan.changes.document.entries methodsName = Script.run (record.document.entries methodsName)
    ((spec.edits record.did anp entropy (manifestDevices manifest)).map KeyEdit.onMethods)
  relationship : ∀ relationship : DidVerificationRelationship, plan.changes.document.entries relationship.name =
    Script.run (record.document.entries relationship.name)
      ((spec.edits record.did anp entropy (manifestDevices manifest)).map (KeyEdit.onRelationship relationship))
  devices : ManifestLists anp ((manifest.map (·.manifestType)).getD anp.deviceManifestType)
    (requestedDevices record.did (manifestDevices manifest) spec.deviceMutations) plan.changes.document
  absent : AddsAbsent (Script.run (record.document.entries methodsName)
    (((spec.requestSigningRotation.map (·.edits record.did anp entropy)).getD []).map KeyEdit.onMethods))
    (spec.laterEdits record.did (manifestDevices manifest))
  proper : ∀ edit ∈ spec.edits record.did anp entropy (manifestDevices manifest), edit.Proper
  added : ∀ key, key ∈ plan.added ↔ key ∈ (spec.edits record.did anp entropy (manifestDevices manifest)).filterMap KeyEdit.added
  retired : ∀ kid, kid ∈ plan.retired ↔
    kid ∈ (spec.edits record.did anp entropy (manifestDevices manifest)).filterMap KeyEdit.retired

section
variable {anp : Anp} {entropy : Entropy} {s : Store} {record : IdentityRecord} {spec : DocumentUpdateSpec} {plan : UpdatePlan}

variable {object : Object} {name : String}

/-- What the rotation of a request does to the document. -/
private theorem rotates_edited (spec : DocumentUpdateSpec) {rotated : Object} {rotation : Option PreparedRotation}
    (planned : planRotation entropy record spec.requestSigningRotation = .ok rotation)
    (rotates : Rotates anp record object rotation rotated) :
    Edited ((spec.requestSigningRotation.map (·.edits record.did anp entropy)).getD []) object rotated ∧
      (∀ edit ∈ (spec.requestSigningRotation.map (·.edits record.did anp entropy)).getD [], edit.Proper) ∧
      ((spec.requestSigningRotation.map (·.edits record.did anp entropy)).getD []).filterMap KeyEdit.added =
        (rotation.map (fun rotation => (rotation.newKid, KeyRole.requestSigning))).toList ∧
      ((spec.requestSigningRotation.map (·.edits record.did anp entropy)).getD []).filterMap KeyEdit.retired =
        (rotation.map (·.oldKid)).toList := by
  cases requested : spec.requestSigningRotation with
  | none =>
    rw [requested] at planned
    cases planned
    cases rotates
    exact ⟨.refl _, fun _ inside => (nomatch inside), rfl, rfl⟩
  | some request =>
    rw [requested] at planned
    obtain ⟨prepared, prepares, same⟩ := except_bind_ok.mp planned
    cases same
    cases rotates with
    | some applied =>
      simp only [prepareRotation, except_bind_ok] at prepares
      obtain ⟨oldKid, old, _, -, _, -, _, -, _, -, _, -, _, -, newKid, new, _, -, same⟩ := prepares
      cases same
      obtain ⟨multibase, encoded, -⟩ := except_bind_ok.mp applied
      have edits : (some request).map (·.edits record.did anp entropy) = some [.retire oldKid .requestSigning false,
          .add newKid .requestSigning (methodJson "Multikey" newKid record.did multibase)] := by
        simp only [Option.map_some, RequestSigningRotation.edits, canonicalKid_ok old, canonicalKid_ok new, encoded,
          Except.toOption, Option.getD_some]
      rw [edits]
      refine ⟨applyRotation_edited encoded applied, fun edit inside => ?_, rfl, rfl⟩
      rcases List.mem_pair.mp inside with rfl | rfl
      · trivial
      · exact ⟨methodJson_id .., by simp⟩

private theorem manifest_apart : ∀ relationship : DidVerificationRelationship, "deviceManifest" ≠ relationship.name := by
  rintro (_ | _ | _) <;> decide

private theorem writesManifest_get {state : DeviceChanges} {written : Object} (writes : WritesManifest anp state written)
    (other : name ≠ "deviceManifest") : written.get name = state.changes.object.get name := by
  cases writes with
  | absent => rfl
  | removed => exact Object.get_remove_of_ne other _
  | written => exact Object.get_insert_of_ne other ..

private theorem writesManifest_lists {mutations : List DeviceMutationSpec} {manifest : Option DeviceManifest}
    {state : DeviceChanges} {written : Object} (writes : WritesManifest anp state written)
    (lists : ListsDevices anp record.did mutations manifest state.manifest)
    (unread : manifest = none → state.changes.object.get "deviceManifest" = none) :
    ManifestLists anp ((manifest.map (·.manifestType)).getD anp.deviceManifestType)
      (requestedDevices record.did (manifestDevices manifest) mutations) (.object written) := by
  have devices := lists.devices
  unfold ManifestLists
  cases writes with
  | absent none =>
    rw [none] at devices
    have empty : [] = requestedDevices record.did (manifestDevices manifest) mutations := devices
    rw [if_pos empty.symm]
    exact unread (lists.kept none)
  | @removed listed found empty =>
    rw [found] at devices
    rw [if_pos (devices.symm.trans empty)]
    exact Object.get_remove_self ..
  | @written listed value found full rendered =>
    rw [found] at devices
    have devices : listed.devices = _ := devices
    rw [← devices, if_neg full, ← lists.kind listed found]
    exact ⟨value, rendered, Object.get_insert_self ..⟩

private theorem withServices_get {services : Option (List ServiceSpec)} (other : name ≠ "service") :
    (withServices record services object).get name = object.get name := by
  cases services with
  | none => rfl
  | some services => exact Object.get_insert_of_ne other ..

private theorem signs_get (proofs : anp.AddsProof) {domain : Option String} {document : Value}
    (signs : SignsCandidate anp entropy s record domain object document) (other : name ≠ "proof") :
    document.get name = object.get name := by
  cases signs with
  | plain => rfl
  | signed _ _ _ _ signs =>
    unfold signRootDocument at signs
    split at signs
    · simp only [except_bind_ok, mapErr_ok] at signs
      obtain ⟨prepared, prepares, signature, -, completes⟩ := signs
      exact proofs.proves _ _ _ _ _ _ _ prepares completes name other
    · cases signs

/-- The manifest that the device mutations start from is that of the record. -/
theorem Stages.manifest {rotation : Option PreparedRotation} {candidate : CandidateChanges} {stored rotated written : Object}
    {requested : DocumentChanges} {manifest : Option DeviceManifest} {changed : DeviceChanges}
    (stages : Stages anp entropy s record rotation spec candidate stored rotated requested manifest changed written)
    (planned : planRotation entropy record spec.requestSigningRotation = .ok rotation) : ReadsManifest anp stored manifest := by
  have untouched : stored.get "deviceManifest" = requested.object.get "deviceManifest" := by
    rw [(applyRequestSigningMutations_applies stages.requests).edited.others _ (by decide) manifest_apart,
      (rotates_edited spec planned stages.rotates).1.others _ (by decide) manifest_apart, Object.get_remove_of_ne (by decide)]
  cases stages.reads with
  | absent none => exact .absent (untouched.trans none)
  | present found parsed => exact .present (untouched.trans found) parsed

theorem planUpdate_drafts (proofs : anp.AddsProof) (planned : planUpdate anp entropy s record spec = .ok plan) :
    ∃ manifest, Drafts anp entropy record spec manifest plan := by
  obtain ⟨_, _, plans⟩ := planUpdate_plans planned
  obtain ⟨stored, turned, requested, manifest, changed, written, stages⟩ := buildCandidateDocument_ok plans.built
  obtain ⟨opening, properOpening, openingAdded, openingRetired⟩ := rotates_edited spec plans.rotated stages.rotates
  have requests := applyRequestSigningMutations_applies stages.requests
  obtain ⟨devices, lists⟩ := applyDeviceMutationList_applies stages.devices
  have later := requests.trans devices
  have edited := opening.trans later.edited
  -- the arrays of the candidate are those of the document after the last mutation
  have same : ∀ name, name ≠ "deviceManifest" → name ≠ "service" → name ≠ "proof" →
      plan.changes.document.get name = changed.changes.object.get name := by
    intro name manifest service proof
    rw [signs_get proofs stages.signs proof, withServices_get service, writesManifest_get stages.writes manifest]
  have before : ∀ name, name ≠ "proof" → (stored.remove "proof").get name = record.document.get name := by
    intro name proof
    rw [Object.get_remove_of_ne proof, Value.get, stages.is]
    rfl
  have candidate : ∀ name, name ≠ "deviceManifest" → name ≠ "service" → name ≠ "proof" →
      plan.changes.document.entries name = changed.changes.object.entries name := by
    intro name manifest service proof
    rw [Value.entries, Object.entries, same name manifest service proof]
  have start : ∀ name, name ≠ "proof" → (stored.remove "proof").entries name = record.document.entries name := by
    intro name proof
    rw [Value.entries, Object.entries, before name proof]
  refine ⟨manifest, ⟨stored, stages.is, stages.manifest plans.rotated⟩, ?_, fun relationship => ?_, ?_, ?_, ?_, fun key => ?_, fun kid => ?_⟩
  · rw [candidate methodsName (by decide) (by decide) (by decide), edited.methods, start methodsName (by decide)]
    rfl
  · have apart : relationship.name ≠ "deviceManifest" ∧ relationship.name ≠ "service" ∧ relationship.name ≠ "proof" := by
      cases relationship <;> decide
    rw [candidate _ apart.1 apart.2.1 apart.2.2, edited.relationship, start _ apart.2.2]
    rfl
  · have listed := writesManifest_lists stages.writes lists (fun none => by
      rw [devices.edited.others _ (by decide) manifest_apart]
      cases none
      cases stages.reads with
      | absent absent => exact absent)
    unfold ManifestLists at listed ⊢
    rw [signs_get proofs stages.signs (by decide), withServices_get (by decide)]
    exact listed
  · have absent := later.checked
    rw [opening.methods, start methodsName (by decide)] at absent
    exact absent
  · intro edit inside
    exact (List.mem_append.mp inside).elim (properOpening edit) (later.proper edit)
  · have all : plan.changes.addedKeys = (spec.laterEdits record.did (manifestDevices manifest)).filterMap KeyEdit.added :=
      stages.added.trans (later.added.trans (List.nil_append _))
    rw [UpdatePlan.added, DocumentUpdateSpec.edits, List.filterMap_append, openingAdded, List.mem_append, List.mem_append, all]
    exact or_comm
  · have all : plan.changes.retiredKids = (spec.laterEdits record.did (manifestDevices manifest)).filterMap KeyEdit.retired :=
      stages.retired.trans (later.retired.trans (List.nil_append _))
    rw [UpdatePlan.retired, DocumentUpdateSpec.edits, List.filterMap_append, openingRetired, List.mem_append, List.mem_append, all]
    exact or_comm

end
end AnpIdentity
