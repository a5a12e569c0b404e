import AnpIdentity.Registry

/-! The pure part of `adoption.rs`: which documents authorise the local device or request-signing key of
a record, and which evidence may replace its checkpoint. -/

namespace AnpIdentity
variable (anp : Anp)

def validateVerifiedDocument (document : Value) (evidence : VerifiedDocumentEvidence) : DidResult Unit := do
  reject (evidence.documentVersion = 0 ∨ evidence.registryVersion = 0) .invalidIdentity
  let digest ← documentDigest anp document
  reject (digest ≠ evidence.documentDigest) .invalidIdentity
  let _ ← mapErr (anp.validateDeviceManifest document) .invalidExtension
  let _ ← validateMethodDocument anp document
  .ok ()

def validateCheckpointProgression (current : Option DocumentCheckpoint) (next : VerifiedDocumentEvidence) :
    DidResult Unit :=
  match current with
  | none => .ok ()
  | some current =>
    reject (next.documentVersion < current.documentVersion ∨ next.registryVersion < current.registryVersion ∨
      (next.documentVersion = current.documentVersion ∧ next.documentDigest ≠ current.documentDigest)) .conflict

def checkpoint (evidence : VerifiedDocumentEvidence) : DocumentCheckpoint where
  documentVersion := evidence.documentVersion
  registryVersion := evidence.registryVersion
  documentDigest := evidence.documentDigest

/-- A record that waits for its first publication accepts a new proof over an otherwise equal document. -/
def isInitialProofConfirmation (record : IdentityRecord) (document : Value) (evidence : VerifiedDocumentEvidence) :
    DidResult Bool :=
  if !record.initialPublicationPending ∨ record.state ≠ .active ∨ record.rootCapability ≠ .active ∨
      record.revision ≠ 1 ∨ evidence.documentVersion ≠ 1 ∨ evidence.registryVersion ≠ 1 ∨
      !record.checkpoint.any (fun current => current.documentVersion == 1 && current.registryVersion == 1) then
    .ok false
  else do
    let before ← okOr record.document.asObject .invalidIdentity
    let after ← okOr document.asObject .invalidIdentity
    .ok (before.remove "proof" == after.remove "proof")

/-- The devices of a manifest both of whose keys are managed here. -/
def localDevices (manifest : DeviceManifest) (keys : List KeyMetadata) : List DeviceManifestEntry :=
  manifest.devices.filter (fun device =>
    keys.any (fun key => key.origin == .managed && key.role == .deviceSigning && key.kid == device.signingKeyId) &&
    keys.any (fun key => key.origin == .managed && key.role == .e2eeAgreement && key.kid == device.e2eeKeyId))

def inferLocalAuthorization (document : Value) (keys : List KeyMetadata) :
    DidResult (Option LocalAuthorizationRecord) := do
  match ← mapErr (anp.validateDeviceManifest document) .invalidExtension with
  | none => .ok none
  | some manifest =>
    let devices := localDevices manifest keys
    reject (devices.length > 1) .invalidExtension
    .ok (devices.head?.map (fun device =>
      { deviceId := device.deviceId, signingKid := device.signingKeyId, e2eeKid := device.e2eeKeyId,
        profiles := device.profiles }))

def relationshipContains (document : Value) (name kid : String) : Bool :=
  (((document.get name).bind Value.asArray).getD []).any
    (fun value => value.asStr == some kid || value.getStr "id" == some kid)

def keyMatchesDocument (document : Value) (metadata : KeyMetadata) : DidResult Unit := do
  let method ← okOr (anp.findVerificationMethod document metadata.kid) .invalidIdentity
  let observed ← mapErr (anp.extractPublicKey method) .invalidPublicKey
  let multibase ← publicKeyMultibase anp observed
  reject (multibase ≠ metadata.publicKeyMultibase) .invalidPublicKey

def p6Profiles : List String := ["anp.core.binding.v1", "anp.identity.discovery.v1", "anp.group.e2ee.v2"]
def p6Upgrade : String := "anp.group.base.v2"

/-- Equal profile lists, or the additive P6 upgrade of the old one. -/
def compatibleLocalProfiles (old new : List String) : Bool :=
  old == new ||
    (p6Profiles.all (· ∈ old) && !(p6Upgrade ∈ old) && new.length == old.length + 1 && old.isPrefixOf new &&
      new.getLast? == some p6Upgrade)

def localAuthorizationMatches (record : IdentityRecord) (document : Value) (authorization : LocalAuthorizationRecord) :
    DidResult Unit := do
  let signing ← okOr (record.keys.find? (·.kid == authorization.signingKid)) .keyNotFound
  let e2ee ← okOr (record.keys.find? (·.kid == authorization.e2eeKid)) .keyNotFound
  keyMatchesDocument anp document signing
  keyMatchesDocument anp document e2ee
  reject (!anp.isAuthenticationAuthorized document signing.kid || !anp.isAssertionMethodAuthorized document signing.kid ||
    !relationshipContains document "keyAgreement" e2ee.kid) .keyRoleViolation
  let manifest ← mapErr (anp.validateDeviceManifest document) .invalidExtension
  let manifest ← okOr manifest .invalidExtension
  match manifest.devices.filter (·.deviceId == authorization.deviceId) with
  | [device] =>
    reject (device.signingKeyId ≠ authorization.signingKid ∨ device.e2eeKeyId ≠ authorization.e2eeKid ∨
      ¬ compatibleLocalProfiles authorization.profiles device.profiles) .invalidExtension
  | _ => .error .invalidExtension

def requestSigningAuthorizationMatches (record : IdentityRecord) (document : Value) (kid : String) : DidResult Unit := do
  let metadata ← okOr (record.keys.find? (fun key => key.kid == kid && key.role == .requestSigning)) .keyNotFound
  keyMatchesDocument anp document metadata
  reject (!anp.isAuthenticationAuthorized document kid || anp.isAssertionMethodAuthorized document kid) .keyRoleViolation

/-- The test that adoption makes: the document authorises the device of the record, or the
request-signing key of a record without a device. -/
def localAuthorized (record : IdentityRecord) (document : Value) : Bool :=
  match record.localAuthorization, record.localRequestSigningKid with
  | some authorization, _ => (localAuthorizationMatches anp record document authorization).isOk
  | none, some kid => (requestSigningAuthorizationMatches anp record document kid).isOk
  | none, none => true

/-- Takes over the profiles that an authorising document lists for the local device. -/
def refreshCompatibleLocalProfiles (record : IdentityRecord) (document : Value) : IdentityRecord :=
  match record.localAuthorization with
  | none => record
  | some authorization =>
    if (localAuthorizationMatches anp record document authorization).isOk then
      match anp.validateDeviceManifest document with
      | .ok (some manifest) =>
        match manifest.devices.find? (·.deviceId == authorization.deviceId) with
        | some device => { record with localAuthorization := some { authorization with profiles := device.profiles } }
        | none => record
      | _ => record
    else record

def revokeLocalAuthorization (record : IdentityRecord) : IdentityRecord :=
  let signingKid := (record.localAuthorization.map (·.signingKid)).or record.localRequestSigningKid
  let e2eeKid := record.localAuthorization.map (·.e2eeKid)
  { record with keys := record.keys.map (fun key =>
      if signingKid = some key.kid ∨ e2eeKid = some key.kid then { key with state := .revoked } else key) }

end AnpIdentity
