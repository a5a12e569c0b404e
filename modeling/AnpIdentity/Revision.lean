import AnpIdentity.Files

/-! `lifecycle.rs`, the candidate document of an update: key rotation, request-signing and device
mutations, services and the new root proof. -/

namespace AnpIdentity
open Text
variable (anp : Anp)

/-- The request-signing key that is replaced and its successor. -/
structure RequestSigningRotation where
  oldKid : String
  newFragment : String
  deriving Repr, DecidableEq

/-- A public key that a request adds. -/
structure PublicKeySpec where
  kid : String
  publicKeyMultibase : String
  deriving Repr, DecidableEq

/-- A request-signing key that is added or removed. -/
inductive RequestSigningMutationSpec where
  | add (key : PublicKeySpec)
  | remove (kid : String)
  deriving Repr, DecidableEq

/-- A device that is added, with its public keys. -/
structure DeviceAddSpec where
  deviceId : String
  signingKey : PublicKeySpec
  e2eeKey : PublicKeySpec
  profiles : List String
  deriving Repr, DecidableEq

/-- A change to the device manifest. -/
inductive DeviceMutationSpec where
  | add (device : DeviceAddSpec)
  | remove (deviceId : String)
  | addProfiles (deviceId : String) (profiles : List String)
  deriving Repr, DecidableEq

/-- The request to change the document. -/
structure DocumentUpdateSpec where
  requestSigningRotation : Option RequestSigningRotation := none
  requestSigningMutations : List RequestSigningMutationSpec := []
  deviceMutations : List DeviceMutationSpec := []
  services : Option (List ServiceSpec) := none
  deriving Repr, DecidableEq

structure PreparedRotation where
  oldKid : String
  newKid : String
  newKey : ManagedPrivateKey

/-- An active managed request-signing key is to be replaced under a new kid. -/
def prepareRotation (entropy : Entropy) (record : IdentityRecord) (rotation : RequestSigningRotation) :
    DidResult PreparedRotation := do
  let oldKid ← canonicalizeKid record.did rotation.oldKid
  let old ← okOr (record.keys.find? (·.kid == oldKid)) .keyNotFound
  reject (old.origin = .external) .externalKeyOperation
  reject (old.role = .rootControl) .unsupportedOperation
  reject (old.role ≠ .requestSigning) .keyRoleViolation
  reject (old.state ≠ .active) .keyNotUsable
  validateFragment rotation.newFragment
  let newKid ← canonicalizeKid record.did rotation.newFragment
  reject (record.keys.any (·.kid == newKid)) .duplicateKid
  .ok { oldKid, newKid,
        newKey := { fragment := rotation.newFragment, role := .requestSigning, bytes := entropy.key 0 } }

/-- `object.get_mut(name).and_then(Value::as_array_mut)`, then a change to the array. -/
def modifyArray (object : Object) (name : String) (change : List Value → List Value) : DidResult Object := do
  let items ← okOr ((object.get name).bind Value.asArray) .invalidIdentity
  .ok (Object.insert name (.array (change items)) object)

def methodExists (object : Object) (kid : String) : Bool :=
  (((object.get "verificationMethod").bind Value.asArray).getD []).any (fun method => method.getStr "id" == some kid)

/-- The verification method of a key. -/
def methodJson (type kid did multibase : String) : Value :=
  .object (Object.of [("id", .string kid), ("type", .string type), ("controller", .string did),
    ("publicKeyMultibase", .string multibase)])

def withoutMethods (kids : List String) (methods : List Value) : List Value :=
  methods.filter (fun method => !kids.any (fun kid => method.getStr "id" == some kid))

def withoutKid (kid : String) (entries : List Value) : List Value := entries.filter (fun entry => entry.asStr != some kid)

/-- The old key stays a method but no longer authenticates. -/
def applyRotation (record : IdentityRecord) (rotation : PreparedRotation) (object : Object) : DidResult Object := do
  let multibase ← ed25519PublicMultibase anp (rotation.newKey.publicKey anp)
  let object ← modifyArray object "verificationMethod"
    (· ++ [methodJson "Multikey" rotation.newKid record.did multibase])
  modifyArray object "authentication" (fun entries => withoutKid rotation.oldKid entries ++ [.string rotation.newKid])

/-- The document under change, the keys added to it and the kids taken out of it. -/
structure DocumentChanges where
  object : Object
  addedKeys : List (String × KeyRole) := []
  retiredKids : List String := []

def validatePublicKey (kid type multibase : String) (accepts : PublicKeyMaterial → Bool) : DidResult Unit := do
  let method := Value.object (Object.of
    [("id", .string kid), ("type", .string type), ("publicKeyMultibase", .string multibase)])
  let key ← mapErr (anp.extractPublicKey method) .invalidPublicKey
  reject (!accepts key) .invalidPublicKey

def isEd25519 : PublicKeyMaterial → Bool
  | .ed25519 _ => true
  | _ => false

def isX25519 : PublicKeyMaterial → Bool
  | .x25519 _ => true
  | _ => false

def validateRequestSigningPublicKey (kid multibase : String) : DidResult Unit :=
  validatePublicKey anp kid "Multikey" multibase isEd25519

def validateDevicePublicKey (kid multibase : String) : KeyRole → DidResult Unit
  | .deviceSigning => validatePublicKey anp kid "Multikey" multibase isEd25519
  | .e2eeAgreement => validatePublicKey anp kid "X25519KeyAgreementKey2019" multibase isX25519
  | _ => .error .keyRoleViolation

/-- Adds or removes one request-signing key. -/
def applyRequestSigningMutation (record : IdentityRecord) (changes : DocumentChanges) :
    RequestSigningMutationSpec → DidResult DocumentChanges
  | .add key => do
    let kid ← canonicalizeKid record.did key.kid
    reject (record.keys.any (·.kid == kid) || methodExists changes.object kid) .duplicateKid
    validateRequestSigningPublicKey anp kid key.publicKeyMultibase
    let object ← modifyArray changes.object "verificationMethod"
      (· ++ [methodJson "Multikey" kid record.did key.publicKeyMultibase])
    let object ← modifyArray object "authentication" (· ++ [.string kid])
    .ok { changes with object, addedKeys := changes.addedKeys ++ [(kid, .requestSigning)] }
  | .remove kid => do
    let kid ← canonicalizeKid record.did kid
    let metadata ← okOr (record.keys.find? (·.kid == kid)) .keyNotFound
    reject (metadata.role ≠ .requestSigning) .keyRoleViolation
    reject (metadata.origin ≠ .external) .unsupportedOperation
    let object ← modifyArray changes.object "verificationMethod" (withoutMethods [kid])
    let object ← modifyArray object "authentication" (withoutKid kid)
    .ok { changes with object, retiredKids := changes.retiredKids ++ [kid] }

def applyRequestSigningMutations (record : IdentityRecord) :
    DocumentChanges → List RequestSigningMutationSpec → DidResult DocumentChanges
  | changes, [] => .ok changes
  | changes, mutation :: rest => do
    let changes ← applyRequestSigningMutation anp record changes mutation
    applyRequestSigningMutations record changes rest

/-- The changes so far together with the manifest and the retired devices that a list of device
mutations works on. -/
structure DeviceChanges where
  changes : DocumentChanges
  manifest : Option DeviceManifest
  retiredDeviceIds : List String

def validateDeviceAdd (device : DeviceAddSpec) : DidResult Unit :=
  reject (isBlank device.deviceId || trim device.deviceId != device.deviceId || device.profiles.isEmpty ||
    device.profiles.any isBlank) .invalidExtension

def manifestDevices (manifest : Option DeviceManifest) : List DeviceManifestEntry := (manifest.map (·.devices)).getD []

/-- Changes the first entry with this device id. -/
def updateDevice (deviceId : String) (change : DeviceManifestEntry → DeviceManifestEntry) :
    List DeviceManifestEntry → Option (List DeviceManifestEntry)
  | [] => none
  | entry :: rest =>
    if entry.deviceId = deviceId then some (change entry :: rest)
    else (updateDevice deviceId change rest).map (entry :: ·)

theorem updateDevice_mem {deviceId : String} {change : DeviceManifestEntry → DeviceManifestEntry}
    {devices next : List DeviceManifestEntry} (made : updateDevice deviceId change devices = some next) :
    ∀ device ∈ next, device ∈ devices ∨ ∃ old ∈ devices, device = change old := by
  induction devices generalizing next with
  | nil => cases made
  | cons entry rest ih =>
    unfold updateDevice at made
    split at made
    · cases made
      intro device inside
      rcases List.mem_cons.mp inside with rfl | later
      · exact .inr ⟨entry, List.mem_cons_self, rfl⟩
      · exact .inl (List.mem_cons_of_mem _ later)
    · obtain ⟨more, found, rfl⟩ := Option.map_eq_some_iff.mp made
      intro device inside
      rcases List.mem_cons.mp inside with rfl | later
      · exact .inl List.mem_cons_self
      · rcases ih found device later with old | ⟨old, there, same⟩
        · exact .inl (List.mem_cons_of_mem _ old)
        · exact .inr ⟨old, List.mem_cons_of_mem _ there, same⟩

/-- The profiles of an entry with the missing ones of a request added in order. -/
def addMissingProfiles (profiles : List String) (requested : List String) : List String :=
  requested.foldl (fun current profile => if profile ∈ current then current else current ++ [profile]) profiles

/-- The profiles of a device that is listed are extended. -/
def addDeviceProfiles (state : DeviceChanges) (deviceId : String) (profiles : List String) : DidResult DeviceChanges := do
  reject (profiles.isEmpty || profiles.any (fun profile => isBlank profile || trim profile != profile)) .invalidExtension
  let manifest ← okOr state.manifest .keyNotFound
  let devices ← okOr (updateDevice deviceId
    (fun entry => { entry with profiles := addMissingProfiles entry.profiles profiles }) manifest.devices) .keyNotFound
  .ok { state with manifest := some { manifest with devices } }

/-- The device and its keys must be new. -/
def addDevice (record : IdentityRecord) (state : DeviceChanges) (device : DeviceAddSpec) : DidResult DeviceChanges := do
  validateDeviceAdd device
  let signingKid ← canonicalizeKid record.did device.signingKey.kid
  let e2eeKid ← canonicalizeKid record.did device.e2eeKey.kid
  let object := state.changes.object
  reject (device.deviceId ∈ state.retiredDeviceIds ∨ signingKid = e2eeKid ∨
    record.keys.any (fun key => key.kid == signingKid || key.kid == e2eeKid) ∨ methodExists object signingKid ∨
    methodExists object e2eeKid ∨ (manifestDevices state.manifest).any (·.deviceId == device.deviceId)) .duplicateKid
  validateDevicePublicKey anp signingKid device.signingKey.publicKeyMultibase .deviceSigning
  validateDevicePublicKey anp e2eeKid device.e2eeKey.publicKeyMultibase .e2eeAgreement
  let object ← modifyArray object "verificationMethod" (· ++
    [methodJson "Multikey" signingKid record.did device.signingKey.publicKeyMultibase,
     methodJson "X25519KeyAgreementKey2019" e2eeKid record.did device.e2eeKey.publicKeyMultibase])
  let object ← modifyArray object "authentication" (· ++ [.string signingKid])
  let object ← modifyArray object "assertionMethod" (· ++ [.string signingKid])
  let object ← modifyArray object "keyAgreement" (· ++ [.string e2eeKid])
  let manifest := state.manifest.getD { manifestType := anp.deviceManifestType, devices := [] }
  let entry : DeviceManifestEntry :=
    { deviceId := device.deviceId, signingKeyId := signingKid, e2eeKeyId := e2eeKid, profiles := device.profiles }
  let addedKeys := state.changes.addedKeys ++ [(signingKid, .deviceSigning), (e2eeKid, .e2eeAgreement)]
  .ok { state with
        changes := { state.changes with object, addedKeys }
        manifest := some { manifest with devices := manifest.devices ++ [entry] } }

/-- The device goes with its keys, unless it is the local one. -/
def removeDevice (record : IdentityRecord) (state : DeviceChanges) (deviceId : String) : DidResult DeviceChanges := do
  reject (isBlank deviceId || trim deviceId != deviceId) .invalidExtension
  reject (record.localAuthorization.any (·.deviceId == deviceId)) .unsupportedOperation
  let manifest ← okOr state.manifest .keyNotFound
  let removed ← okOr (manifest.devices.find? (·.deviceId == deviceId)) .keyNotFound
  let object ← modifyArray state.changes.object "verificationMethod"
    (withoutMethods [removed.signingKeyId, removed.e2eeKeyId])
  let object ← modifyArray object "authentication" (withoutKid removed.signingKeyId)
  let object ← modifyArray object "assertionMethod" (withoutKid removed.signingKeyId)
  let object ← modifyArray object "keyAgreement" (withoutKid removed.e2eeKeyId)
  let retiredKids := state.changes.retiredKids ++ [removed.signingKeyId, removed.e2eeKeyId]
  .ok { changes := { state.changes with object, retiredKids }
        manifest := some { manifest with devices := manifest.devices.eraseP (·.deviceId == deviceId) }
        retiredDeviceIds := state.retiredDeviceIds ++ [removed.deviceId] }

def applyDeviceMutation (record : IdentityRecord) (state : DeviceChanges) : DeviceMutationSpec → DidResult DeviceChanges
  | .addProfiles deviceId profiles => addDeviceProfiles state deviceId profiles
  | .add device => addDevice anp record state device
  | .remove deviceId => removeDevice record state deviceId

def applyDeviceMutationList (record : IdentityRecord) :
    DeviceChanges → List DeviceMutationSpec → DidResult DeviceChanges
  | state, [] => .ok state
  | state, mutation :: rest => do
    let state ← applyDeviceMutation anp record state mutation
    applyDeviceMutationList record state rest

/-- An empty manifest is removed from the document. -/
def applyDeviceMutations (record : IdentityRecord) (changes : DocumentChanges) (mutations : List DeviceMutationSpec) :
    DidResult DocumentChanges := do
  let manifest ← match changes.object.get "deviceManifest" with
    | none => .ok none
    | some value => do
      let manifest ← mapErr (anp.deviceManifestFromValue value) .invalidExtension
      .ok (some manifest)
  let state ← applyDeviceMutationList anp record { changes, manifest, retiredDeviceIds := record.retiredDeviceIds }
    mutations
  match state.manifest with
  | none => .ok state.changes
  | some manifest =>
    if manifest.devices.isEmpty then
      .ok { state.changes with object := state.changes.object.remove "deviceManifest" }
    else do
      let value ← mapErr (anp.deviceManifestToValue manifest) .invalidExtension
      .ok { state.changes with object := Object.insert "deviceManifest" value state.changes.object }

/-- The request replaces every service but the agent descriptions. -/
def replaceServices (record : IdentityRecord) (services : List ServiceSpec) (object : Object) : Object :=
  let kept := (((object.get "service").bind Value.asArray).getD []).filter
    (fun service => service.getStr "type" == some "AgentDescription")
  Object.insert "service" (.array (kept ++ services.map (fun service => absoluteService record.did (serviceJson service))))
    object

/-- The candidate document and the keys it adds and retires. -/
structure CandidateChanges where
  document : Value
  addedKeys : List (String × KeyRole)
  retiredKids : List String

/-- The candidate document. A root-controlled DID signs it with the managed root secret in `s`; a Web
document carries no root proof. -/
def buildCandidateDocument (entropy : Entropy) (s : Store) (record : IdentityRecord)
    (rotation : Option PreparedRotation) (spec : DocumentUpdateSpec) : DidResult CandidateChanges := do
  let object ← okOr record.document.asObject .invalidIdentity
  let proofDomain := (object.get "proof").bind (·.getStr "domain")
  let object := object.remove "proof"
  let object ← match rotation with
    | some rotation => applyRotation anp record rotation object
    | none => .ok object
  let changes ← applyRequestSigningMutations anp record { object } spec.requestSigningMutations
  let changes ← applyDeviceMutations anp record changes spec.deviceMutations
  let object := match spec.services with
    | some services => replaceServices record services changes.object
    | none => changes.object
  let profile ← DidProfile.forDid anp record.did
  let document ←
    if profile.supportsRootControl then do
      let root ← okOr (record.keys.find? (·.role == .rootControl)) .invalidIdentity
      let secret ← s.openSecret (record.secretRef root)
      signRootDocument anp entropy (.object object) root.kid secret proofDomain
    else .ok (.object object)
  let _ ← validateMethodDocument anp document
  let _ ← mapErr (anp.validateDeviceManifest document) .invalidExtension
  .ok { document, addedKeys := changes.addedKeys, retiredKids := changes.retiredKids }

end AnpIdentity
