import AnpIdentity.Anp
import AnpIdentity.Input

/-! `document.rs`, with the checks of `input.rs` that need a public key parsed: building a DID document,
fingerprints, digests and key metadata. -/

namespace AnpIdentity
open Text
variable (anp : Anp)

/-- What the record keeps about a key. -/
structure KeyMetadata where
  kid : String
  role : KeyRole
  origin : KeyOrigin
  state : KeyState
  materialErased : Bool := false
  version : Nat
  publicKeyMultibase : String
  createdAt : String
  deriving Repr, DecidableEq

/-- The DID method of a DID. -/
def DidProfile.forDid (did : String) : DidResult DidProfile :=
  if startsWith did "did:wba:" then .ok .e1
  else if startsWith did "did:web:" && (anp.buildDidWebResolutionUrl did).isOk then .ok .web
  else .error .invalidIdentity

/-- The root key is the one that made the proof of the document. -/
def rootKeyId (document : Value) : Option String :=
  (document.get "proof").bind (fun proof => proof.asObject.bind (fun fields => (fields.get "verificationMethod").bind Value.asStr))

/-- The fingerprint of the key that made the proof. -/
def rootKeyFingerprint (document : Value) : DidResult String := do
  let rootKid ← okOr (rootKeyId document) .invalidIdentity
  let method ← okOr (anp.findVerificationMethod document rootKid) .invalidIdentity
  let key ← mapErr (anp.extractPublicKey method) .invalidPublicKey
  match key with
  | .ed25519 bytes =>
    .ok ("sha256:" ++ anp.sha256 (ascii "anp-identity:root-public-fingerprint:v1\x00" ++ bytes))
  | _ => .error .invalidPublicKey

/-- The document is valid for its DID method. -/
def validateMethodDocument (document : Value) : DidResult DidProfile := do
  let did ← okOr (document.getStr "id") .invalidIdentity
  let profile ← DidProfile.forDid anp did
  reject (!anp.validateDidDocumentMethod document) .invalidIdentity
  if profile.supportsRootControl then
    let _ ← rootKeyFingerprint anp document
    .ok profile
  else .ok profile

/-- Only methods with a root key have a fingerprint. -/
def methodRootFingerprint (document : Value) : DidResult (Option String) := do
  let profile ← validateMethodDocument anp document
  if profile.supportsRootControl then
    let fingerprint ← rootKeyFingerprint anp document
    .ok (some fingerprint)
  else .ok none

/-- The digest of the canonical document. -/
def documentDigest (document : Value) : DidResult String :=
  match anp.canonicalJson document with
  | .ok canonical => .ok ("sha256:" ++ anp.sha256 canonical)
  | .error message => .error (.serialization message)

/-- The public key of a private key, by role. -/
def publicKeyFromRaw (role : KeyRole) (key : Key32) : PublicKeyMaterial :=
  match role with
  | .e2eeAgreement => .x25519 (anp.x25519Public key)
  | .rootControl | .deviceSigning | .requestSigning | .e2eeSigning => .ed25519 (anp.ed25519Public key)

def publicKeyFromSecret (role : KeyRole) (secret : Bytes) : DidResult PublicKeyMaterial :=
  if length : secret.length = 32 then .ok (publicKeyFromRaw anp role ⟨secret, length⟩) else .error .invalidIdentity

def ed25519PublicMultibase : PublicKeyMaterial → DidResult String
  | .ed25519 bytes => .ok ("z" ++ anp.base58 ([0xed, 0x01] ++ bytes))
  | _ => .error .invalidPublicKey

def publicKeyMultibase : PublicKeyMaterial → DidResult String
  | .ed25519 bytes => ed25519PublicMultibase anp (.ed25519 bytes)
  | .x25519 bytes => .ok ("z" ++ anp.base58 ([0xec, 0x01] ++ bytes))
  | .other _ _ => .error .invalidPublicKey

/-- A key that was generated for the identity. -/
structure ManagedPrivateKey where
  fragment : String
  role : KeyRole
  bytes : Key32

def ManagedPrivateKey.publicKey (key : ManagedPrivateKey) : PublicKeyMaterial := publicKeyFromRaw anp key.role key.bytes
def ManagedPrivateKey.secretBytes (key : ManagedPrivateKey) : Bytes := key.bytes.val

/-- Metadata of a key that the document may not list yet. -/
def keyMetadataFromPublic (kid : String) (role : KeyRole) (origin : KeyOrigin) (state : KeyState)
    (publicKey : PublicKeyMaterial) (createdAt : String) : DidResult KeyMetadata := do
  let multibase ← publicKeyMultibase anp publicKey
  .ok { kid, role, origin, state, version := 1, publicKeyMultibase := multibase, createdAt }

/-- Metadata of a key of the document. -/
def keyMetadata (document : Value) (kid : String) (role : KeyRole) (origin : KeyOrigin) (createdAt : String) :
    DidResult KeyMetadata := do
  let method ← okOr (anp.findVerificationMethod document kid) .invalidIdentity
  let multibase ← okOr (method.getStr "publicKeyMultibase") .invalidPublicKey
  .ok { kid, role, origin, state := .active, version := 1, publicKeyMultibase := multibase, createdAt }

/-- What both ways of describing a key fill in. -/
structure KeyMetadata.Describes (key : KeyMetadata) (kid : String) (role : KeyRole) (origin : KeyOrigin) : Prop where
  kid : key.kid = kid
  role : key.role = role
  origin : key.origin = origin
  version : key.version = 1
  materialErased : key.materialErased = false

section
variable {anp} {kid createdAt : String} {role : KeyRole} {origin : KeyOrigin} {key : KeyMetadata}

theorem keyMetadataFromPublic_ok {state : KeyState} {publicKey : PublicKeyMaterial}
    (made : keyMetadataFromPublic anp kid role origin state publicKey createdAt = .ok key) : key.Describes kid role origin := by
  simp only [keyMetadataFromPublic, except_bind_ok] at made
  obtain ⟨_, -, same⟩ := made
  cases same
  exact ⟨rfl, rfl, rfl, rfl, rfl⟩

theorem keyMetadata_ok {document : Value} (made : keyMetadata anp document kid role origin createdAt = .ok key) :
    key.Describes kid role origin := by
  simp only [keyMetadata, except_bind_ok] at made
  obtain ⟨_, -, _, -, same⟩ := made
  cases same
  exact ⟨rfl, rfl, rfl, rfl, rfl⟩

end

def proofOptions (created : String) (domain : Option String) (challenge : String) : ProofGenerationOptions where
  proofPurpose := some "assertionMethod"
  proofType := some anp.proofTypeDataIntegrity
  cryptosuite := some anp.cryptosuiteEddsaJcs2022
  created := some created
  domain := domain
  challenge := some challenge

/-- The document with a proof by the root key. -/
def signRootDocument (entropy : Entropy) (document : Value) (rootKid : String) (rootSecret : Bytes)
    (domain : Option String) : DidResult Value :=
  if length : rootSecret.length = 32 then do
    let key : Key32 := ⟨rootSecret, length⟩
    let prepared ← mapErr (anp.prepareW3cProof document (.ed25519 (anp.ed25519Public key)) rootKid
      (proofOptions anp entropy.signedAt domain entropy.challenge)) .invalidIdentity
    let signature ← mapErr (anp.ed25519Sign key prepared.signingInput) .crypto
    mapErr (anp.completeW3cProof prepared signature) .invalidIdentity
  else .error .invalidIdentity

/-- Adds a field that the source writes only when it has something to say. -/
def withField (object : Object) (present : Bool) (name : String) (value : Value) : Object :=
  if present then Object.insert name value object else object

def serviceJson (service : ServiceSpec) : Value :=
  let object := Object.of [
    ("id", .string (if startsWith service.id "#" then service.id else "#" ++ service.id)),
    ("type", .string service.serviceType),
    ("serviceEndpoint", .string service.serviceEndpoint)]
  let object := match service.serviceDid with
    | some did => Object.insert "serviceDid" (.string did) object
    | none => object
  let object := withField object (!service.profiles.isEmpty) "profiles" (.array (service.profiles.map .string))
  .object (withField object (!service.securityProfiles.isEmpty) "securityProfiles"
    (.array (service.securityProfiles.map .string)))

/-- A service identifier that is a bare fragment is made absolute. -/
def absoluteService (did : String) (service : Value) : Value :=
  match service.getStr "id", service.asObject with
  | some id, some object =>
    if startsWith id "#" then .object (Object.insert "id" (.string (did ++ id)) object) else service
  | _, _ => service

/-- The relationships that a key of this role is listed under. -/
def relationships : KeyRole → List DidVerificationRelationship
  | .rootControl | .deviceSigning => [.authentication, .assertionMethod]
  | .requestSigning => [.authentication]
  | .e2eeSigning => [.assertionMethod]
  | .e2eeAgreement => [.keyAgreement]

def okpJwk (jwk : PublicOkpJwk) : Value :=
  .object (Object.of [("kty", .string jwk.kty), ("crv", .string jwk.crv), ("x", .string jwk.x)])

/-- The key, if its type suits the role. -/
def ExternalPublicKeySpec.parsePublicKey (key : ExternalPublicKeySpec) : DidResult PublicKeyMaterial := do
  reject (key.role = .rootControl) .externalRootControl
  let methodType := if key.role = .e2eeAgreement then "X25519KeyAgreementKey2019" else "Multikey"
  let method : Value := .object (Object.of (match key.material with
    | .multibase value =>
      [("id", .string "#external"), ("type", .string methodType), ("publicKeyMultibase", .string value)]
    | .jwk jwk => [("id", .string "#external"), ("type", .string "JsonWebKey2020"), ("publicKeyJwk", okpJwk jwk)]))
  let material ← mapErr (anp.extractPublicKey method) .invalidPublicKey
  match key.role, material with
  | .deviceSigning, .ed25519 _ | .requestSigning, .ed25519 _ | .e2eeSigning, .ed25519 _
  | .e2eeAgreement, .x25519 _ => .ok material
  | _, _ => .error .invalidPublicKey

def validateManagedFragments : List String → List ManagedKeySpec → DidResult Unit
  | _, [] => .ok ()
  | seen, key :: rest => do
    validateFragment key.fragment
    reject (key.fragment ∈ seen) .duplicateKid
    validateManagedFragments (key.fragment :: seen) rest

/-- The checks on a request that need no DID. -/
def DidCreateSpec.validate (spec : DidCreateSpec) : DidResult Unit := do
  validateDomain spec.domain
  reject (spec.profile = .e1 ∧ spec.pathSegments.isEmpty) .emptyPath
  spec.pathSegments.forM validatePathSegment
  reject ((spec.managedKeys.filter (·.role == .rootControl)).length ≠ if spec.profile.supportsRootControl then 1 else 0)
    .invalidManagedRootCount
  reject (spec.externalKeys.any (·.role == .rootControl)) .externalRootControl
  reject (spec.capabilities.didWba &&
    !spec.managedKeys.any (fun key => key.role == .deviceSigning || key.role == .requestSigning))
    .missingManagedRequestSigning
  validateManagedFragments [] spec.managedKeys
  spec.externalKeys.forM (fun key => do let _ ← key.parsePublicKey anp; .ok ())
  spec.services.forM ServiceSpec.validate
  reject (spec.agentDescriptionUrl.any (fun url => isBlank url || len url > maxServiceValueLen)) .invalidService
  spec.extensions.forM DidExtensionSpec.validate

/-- Also, no kid of the DID comes twice. -/
def DidCreateSpec.validateForDid (spec : DidCreateSpec) (did : String) : DidResult Unit := do
  spec.validate anp
  validateUniqueKids did [] (spec.managedKeys.map (·.fragment) ++ spec.externalKeys.map (·.kid))

/-- A document and its keys, before anything is stored. -/
structure BuiltIdentity where
  did : String
  document : Value
  managedKeys : List ManagedPrivateKey
  metadata : List KeyMetadata
  createdAt : String

/-- The managed keys of a request, each with a private key of its own. -/
def generateKeys (entropy : Entropy) (keys : List ManagedKeySpec) : List ManagedPrivateKey :=
  keys.zipIdx.map (fun (key, index) => { fragment := key.fragment, role := key.role, bytes := entropy.key index })

def suppliedManagedKey (key : ManagedPrivateKey) : SuppliedDidKey where
  fragment := key.fragment
  role := key.role
  publicKey := key.publicKey anp
  relationships := relationships key.role

def manifestEntry (did : String) (device : DeviceManifestEntrySpec) : DidResult DeviceManifestEntry := do
  let signingKeyId ← canonicalizeKid did device.signingKeyId
  let e2eeKeyId ← canonicalizeKid did device.e2eeKeyId
  .ok { deviceId := device.deviceId, signingKeyId, e2eeKeyId, profiles := device.profiles }

/-- Extensions add fields that the document does not have. -/
def applyExtensions (did : String) : Object → List DidExtensionSpec → DidResult Object
  | object, [] => .ok object
  | object, .deviceManifest devices :: rest => do
    reject (object.get "deviceManifest").isSome .invalidExtension
    let devices ← devices.mapM (manifestEntry did)
    let manifest ← mapErr (anp.deviceManifestToValue { manifestType := anp.deviceManifestType, devices })
      .invalidExtension
    applyExtensions did (Object.insert "deviceManifest" manifest object) rest

def builtMetadata (spec : DidCreateSpec) (did : String) (document : Value) (managedKeys : List ManagedPrivateKey)
    (createdAt : String) : DidResult (List KeyMetadata) := do
  let managed ← managedKeys.mapM (fun key =>
    keyMetadata anp document (did ++ "#" ++ key.fragment) key.role .managed createdAt)
  let external ← spec.externalKeys.mapM (fun key => do
    let kid ← canonicalizeKid did key.kid
    keyMetadata anp document kid key.role .external createdAt)
  .ok (managed ++ external)

def webMethod (did kid : String) (publicKey : PublicKeyMaterial) : DidResult Value := do
  let multibase ← publicKeyMultibase anp publicKey
  .ok (.object (Object.of [("id", .string kid), ("type", .string "Multikey"), ("controller", .string did),
    ("publicKeyMultibase", .string multibase)]))

def webRelationship (relationship : DidVerificationRelationship) (keys : List (String × KeyRole × PublicKeyMaterial)) :
    Value :=
  .array ((keys.filter (fun key => relationship ∈ relationships key.2.1)).map (fun key => .string key.1))

def webDid (spec : DidCreateSpec) : String :=
  let authority := match spec.port with
    | some port => spec.domain ++ "%3A" ++ toString port
    | none => spec.domain
  spec.pathSegments.foldl (fun did segment => did ++ ":" ++ segment) ("did:web:" ++ authority)

def webServices (did : String) (spec : DidCreateSpec) : List Value :=
  let agentDescription := spec.agentDescriptionUrl.toList.map (fun url => Value.object (Object.of
    [("id", .string "#agent-description"), ("type", .string "AgentDescription"), ("serviceEndpoint", .string url)]))
  (spec.services.map serviceJson ++ agentDescription).map (absoluteService did)

def webObject (did : String) (methods : List Value) (keys : List (String × KeyRole × PublicKeyMaterial))
    (services : List Value) : Object :=
  let object := Object.of [
    ("@context", .array [.string "https://www.w3.org/ns/did/v1", .string "https://w3id.org/security/multikey/v1"]),
    ("id", .string did), ("verificationMethod", .array methods),
    ("authentication", webRelationship .authentication keys),
    ("assertionMethod", webRelationship .assertionMethod keys),
    ("keyAgreement", webRelationship .keyAgreement keys)]
  withField object (!services.isEmpty) "service" (.array services)

/-- A Web document has no proof and no root key. -/
def buildWebIdentity (entropy : Entropy) (spec : DidCreateSpec) : DidResult BuiltIdentity := do
  let did := webDid spec
  let _ ← mapErr (anp.buildDidWebResolutionUrl did) .invalidIdentity
  spec.validateForDid anp did
  let managedKeys := generateKeys entropy spec.managedKeys
  let external ← spec.externalKeys.mapM (fun key => do
    let kid ← canonicalizeKid did key.kid
    let publicKey ← key.parsePublicKey anp
    .ok (kid, key.role, publicKey))
  let keys := managedKeys.map (fun key => (did ++ "#" ++ key.fragment, key.role, key.publicKey anp)) ++ external
  let methods ← keys.mapM (fun key => webMethod anp did key.1 key.2.2)
  let object ← applyExtensions anp did (webObject did methods keys (webServices did spec)) spec.extensions
  let document := Value.object object
  let _ ← validateMethodDocument anp document
  let _ ← mapErr (anp.validateDeviceManifest document) .invalidExtension
  let metadata ← builtMetadata anp spec did document managedKeys entropy.now
  .ok { did, document, managedKeys, metadata, createdAt := entropy.now }

def externalSuppliedKey (did : String) (key : ExternalPublicKeySpec) : DidResult SuppliedDidKey := do
  let kid ← canonicalizeKid did key.kid
  let fragment ← okOr (strip kid (did ++ "#")) .foreignKid
  let publicKey ← key.parsePublicKey anp
  .ok { fragment, role := key.role, publicKey, relationships := relationships key.role }

/-- An E1 document is signed by the root key that names it. -/
def buildE1Identity (entropy : Entropy) (spec : DidCreateSpec) : DidResult BuiltIdentity := do
  let managedKeys := generateKeys entropy spec.managedKeys
  let root ← okOr (managedKeys.find? (·.role == .rootControl)) .invalidManagedRootCount
  let rootKey := suppliedManagedKey anp root
  let rootOnly ← mapErr (anp.buildUnsignedE1DidDocument spec.domain
    { port := spec.port, pathSegments := spec.pathSegments, agentDescriptionUrl := none, services := [], rootKey,
      additionalKeys := [] }) .invalidIdentity
  let did ← okOr (rootOnly.getStr "id") .invalidIdentity
  spec.validateForDid anp did
  let external ← spec.externalKeys.mapM (externalSuppliedKey anp did)
  let additionalKeys := (managedKeys.filter (·.role != .rootControl)).map (suppliedManagedKey anp) ++ external
  let unsigned ← mapErr (anp.buildUnsignedE1DidDocument spec.domain
    { port := spec.port, pathSegments := spec.pathSegments, agentDescriptionUrl := spec.agentDescriptionUrl,
      services := spec.services.map serviceJson, rootKey, additionalKeys }) .invalidIdentity
  let object ← okOr unsigned.asObject .invalidIdentity
  let object ← applyExtensions anp did object spec.extensions
  let prepared ← mapErr (anp.prepareW3cProof (.object object) (root.publicKey anp) (did ++ "#" ++ root.fragment)
    (proofOptions anp entropy.now (some spec.domain) entropy.challenge)) .invalidIdentity
  let signature ← mapErr (anp.ed25519Sign root.bytes prepared.signingInput) .crypto
  let document ← mapErr (anp.completeW3cProof prepared signature) .invalidIdentity
  reject (!anp.validateDidDocumentBinding document) .invalidIdentity
  let _ ← mapErr (anp.validateDeviceManifest document) .invalidExtension
  let metadata ← builtMetadata anp spec did document managedKeys entropy.now
  .ok { did, document, managedKeys, metadata, createdAt := entropy.now }

/-- The document and the keys of a new identity. -/
def buildIdentity (entropy : Entropy) (spec : DidCreateSpec) : DidResult BuiltIdentity := do
  spec.validate anp
  if spec.profile = .web then buildWebIdentity anp entropy spec else buildE1Identity anp entropy spec

variable {anp} in
/-- A built identity has the keys of a request that was checked for its DID. -/
theorem buildIdentity_keys {entropy : Entropy} {spec : DidCreateSpec} {built : BuiltIdentity}
    (builds : buildIdentity anp entropy spec = .ok built) :
    spec.validateForDid anp built.did = .ok () ∧ built.managedKeys = generateKeys entropy spec.managedKeys ∧
      builtMetadata anp spec built.did built.document built.managedKeys built.createdAt = .ok built.metadata := by
  obtain ⟨_, -, builds⟩ := except_bind_ok.mp builds
  split at builds
  · simp only [buildWebIdentity, except_bind_ok] at builds
    obtain ⟨_, -, _, valid, _, -, _, -, _, -, _, -, _, -, _, made, same⟩ := builds
    cases same
    exact ⟨valid, rfl, made⟩
  · simp only [buildE1Identity, except_bind_ok] at builds
    obtain ⟨_, -, _, -, _, -, _, valid, _, -, _, -, _, -, _, -, _, -, _, -, _, -, _, -, _, -, _, made, same⟩ := builds
    cases same
    exact ⟨valid, rfl, made⟩

end AnpIdentity
