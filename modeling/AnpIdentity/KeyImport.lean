import AnpIdentity.Adoption

/-! `key_import.rs`: bringing in an identity together with private keys that already exist. -/

namespace AnpIdentity
open Durable
variable (anp : Anp)

inductive PrivateKeyEncoding where
  | raw32 | pkcs8Der
  deriving Repr, DecidableEq

/-- A private key that is brought in. -/
structure ImportedPrivateKey where
  kid : String
  role : KeyRole
  encoding : PrivateKeyEncoding
  secret : Bytes
  deriving Repr, DecidableEq

structure IdentityImportSpec where
  verifiedDocument : Value
  evidence : VerifiedDocumentEvidence
  capabilities : Capabilities
  privateKeys : List ImportedPrivateKey
  deriving Repr, DecidableEq

structure RequestSigningIdentityImportSpec where
  verifiedDocument : Value
  evidence : VerifiedDocumentEvidence
  capabilities : Capabilities
  privateKey : ImportedPrivateKey
  deriving Repr, DecidableEq

structure DeviceIdentityImportSpec where
  verifiedDocument : Value
  evidence : VerifiedDocumentEvidence
  capabilities : Capabilities
  signingKey : ImportedPrivateKey
  e2eeKey : ImportedPrivateKey
  deriving Repr, DecidableEq

/-- A private key of the curve that its role asks for. -/
def parsePrivateKey (role : KeyRole) (encoding : PrivateKeyEncoding) (secret : Bytes) : DidResult Key32 := do
  let material ← match encoding with
    | .raw32 =>
      if length : secret.length = 32 then
        .ok (if role = .e2eeAgreement then PrivateKeyMaterial.x25519 ⟨secret, length⟩ else .ed25519 ⟨secret, length⟩)
      else .error .invalidIdentity
    | .pkcs8Der => mapErr (anp.privateKeyFromPkcs8Der secret) .invalidIdentity
  match role, material with
  | .e2eeAgreement, .x25519 key => .ok key
  | .rootControl, .ed25519 key | .deviceSigning, .ed25519 key | .requestSigning, .ed25519 key
  | .e2eeSigning, .ed25519 key => .ok key
  | _, _ => .error .keyRoleViolation

/-- The document must show the public key of an imported key. -/
def prepareImportedKey (did : String) (document : Value) (seen : List NewKey) (key : ImportedPrivateKey) :
    DidResult NewKey := do
  let kid ← canonicalizeKid did key.kid
  reject (seen.any (·.kid == kid)) .duplicateKid
  let raw ← parsePrivateKey anp key.role key.encoding key.secret
  let publicKey := publicKeyFromRaw anp key.role raw
  let method ← okOr (anp.findVerificationMethod document kid) .keyNotFound
  let expected ← mapErr (anp.extractPublicKey method) .invalidPublicKey
  reject (!publicKeysEqual publicKey expected) .invalidPublicKey
  .ok { kid, role := key.role, plaintext := raw.val, publicKey }

def prepareImportedKeyList (did : String) (document : Value) : List NewKey → List ImportedPrivateKey → DidResult (List NewKey)
  | seen, [] => .ok seen
  | seen, key :: rest => do
    let key ← prepareImportedKey anp did document seen key
    prepareImportedKeyList did document (seen ++ [key]) rest

def prepareImportedKeys (did : String) (document : Value) (keys : List ImportedPrivateKey) : DidResult (List NewKey) := do
  reject keys.isEmpty .keyNotFound
  prepareImportedKeyList anp did document [] keys

/-- Exactly one of the keys is a root key, that of the document. -/
def validateImportedRoles (document : Value) (capabilities : Capabilities) (keys : List NewKey) : DidResult Unit := do
  let rootKid ← okOr (rootKeyId document) .invalidIdentity
  match keys.filter (·.role == .rootControl) with
    | [root] => reject (root.kid ≠ rootKid) .invalidManagedRootCount
    | _ => .error .invalidManagedRootCount
  reject (capabilities.didWba && !keys.any (fun key => key.role == .deviceSigning || key.role == .requestSigning))
    .missingManagedRequestSigning

/-- The fingerprint of the imported root, taken over a document that holds nothing else. -/
def rootKeyFingerprintFromImport (keys : List NewKey) : DidResult String := do
  let root ← okOr (keys.find? (·.role == .rootControl)) .invalidManagedRootCount
  let multibase ← publicKeyMultibase anp root.publicKey
  rootKeyFingerprint anp (.object (Object.of [
    ("proof", .object [("verificationMethod", .string root.kid)]),
    ("verificationMethod", .array [.object (Object.of
      [("id", .string root.kid), ("type", .string "Multikey"), ("publicKeyMultibase", .string multibase)])])]))

def importedMetadata (document : Value) (createdAt : String) (keys : List NewKey) : DidResult (List KeyMetadata) :=
  keys.mapM (fun key => keyMetadata anp document key.kid key.role .managed createdAt)

def importedRecord (entropy : Entropy) (spec : IdentityImportSpec) (did : String) (keys : List NewKey) :
    DidResult IdentityRecord := do
  let metadata ← importedMetadata anp spec.verifiedDocument entropy.now keys
  let localAuthorization ← inferLocalAuthorization anp spec.verifiedDocument metadata
  let fingerprint ← rootKeyFingerprintFromImport anp keys
  .ok { newIdentityRecord {
          identityId := entropy.identityId
          did
          document := spec.verifiedDocument
          keys := metadata
          capabilities := spec.capabilities
          rootCapability := .active
          rootKeyFingerprint := some fingerprint
          checkpoint := checkpoint spec.evidence
          localAuthorization
          createdAt := entropy.now } with
        state := .active }

def importedDeviceRecord (entropy : Entropy) (spec : DeviceIdentityImportSpec) (did rootKid : String)
    (keys : List NewKey) : DidResult IdentityRecord := do
  let rootMetadata ← keyMetadata anp spec.verifiedDocument rootKid .rootControl .external entropy.now
  let metadata ← importedMetadata anp spec.verifiedDocument entropy.now keys
  let localAuthorization ← inferLocalAuthorization anp spec.verifiedDocument (rootMetadata :: metadata)
  let localAuthorization ← okOr localAuthorization .invalidIdentity
  let fingerprint ← rootKeyFingerprint anp spec.verifiedDocument
  .ok { newIdentityRecord {
          identityId := entropy.identityId
          did
          document := spec.verifiedDocument
          keys := rootMetadata :: metadata
          capabilities := spec.capabilities
          rootCapability := .absent
          rootKeyFingerprint := some fingerprint
          checkpoint := checkpoint spec.evidence
          localAuthorization := some localAuthorization
          createdAt := entropy.now } with
        state := .active }

def importedRequestSigningRecord (entropy : Entropy) (spec : RequestSigningIdentityImportSpec) (did rootKid : String)
    (request : NewKey) : DidResult IdentityRecord := do
  let rootMetadata ← keyMetadata anp spec.verifiedDocument rootKid .rootControl .external entropy.now
  let requestMetadata ← keyMetadata anp spec.verifiedDocument request.kid .requestSigning .managed entropy.now
  let fingerprint ← rootKeyFingerprint anp spec.verifiedDocument
  .ok { newIdentityRecord {
          identityId := entropy.identityId
          did
          document := spec.verifiedDocument
          keys := [rootMetadata, requestMetadata]
          capabilities := spec.capabilities
          rootCapability := .absent
          rootKeyFingerprint := some fingerprint
          checkpoint := checkpoint spec.evidence
          localAuthorization := none
          createdAt := entropy.now } with
        state := .active
        localRequestSigningKid := some request.kid }

namespace DidStore

def importDeviceIdentity (self : DidStore) (entropy : Entropy) (spec : DeviceIdentityImportSpec) :
    Tx (DidStore × DidIdentity) := do
  validateVerifiedDocument anp spec.verifiedDocument spec.evidence
  let did ← okOr (spec.verifiedDocument.getStr "id") .invalidIdentity
  let imported ← prepareImportedKeys anp did spec.verifiedDocument [spec.signingKey, spec.e2eeKey]
  let signing ← okOr (imported.find? (·.role == .deviceSigning)) .keyRoleViolation
  let e2ee ← okOr (imported.find? (·.role == .e2eeAgreement)) .keyRoleViolation
  reject (imported.length ≠ 2 ∨ signing.kid = e2ee.kid ∨
    ¬ anp.isAuthenticationAuthorized spec.verifiedDocument signing.kid ∨
    ¬ anp.isAssertionMethodAuthorized spec.verifiedDocument signing.kid) .keyRoleViolation
  let rootKid ← okOr (rootKeyId spec.verifiedDocument) .invalidIdentity
  let registry ← self.registryForNew did
  commitNewIdentity anp entropy registry did imported (importedDeviceRecord anp entropy spec did rootKid imported)

def importRequestSigningIdentity (self : DidStore) (entropy : Entropy) (spec : RequestSigningIdentityImportSpec) :
    Tx (DidStore × DidIdentity) := do
  validateVerifiedDocument anp spec.verifiedDocument spec.evidence
  let did ← okOr (spec.verifiedDocument.getStr "id") .invalidIdentity
  let imported ← prepareImportedKeys anp did spec.verifiedDocument [spec.privateKey]
  let request ← okOr imported.getLast? .keyNotFound
  reject (request.role ≠ .requestSigning ∨ ¬ anp.isAuthenticationAuthorized spec.verifiedDocument request.kid ∨
    anp.isAssertionMethodAuthorized spec.verifiedDocument request.kid) .keyRoleViolation
  let rootKid ← okOr (rootKeyId spec.verifiedDocument) .invalidIdentity
  let registry ← self.registryForNew did
  commitNewIdentity anp entropy registry did [request]
    (importedRequestSigningRecord anp entropy spec did rootKid request)

/-- The identity id comes with the request, or is drawn for it; either way it is `entropy.identityId`. -/
def importIdentity (self : DidStore) (entropy : Entropy) (spec : IdentityImportSpec) : Tx (DidStore × DidIdentity) := do
  validateVerifiedDocument anp spec.verifiedDocument spec.evidence
  let did ← okOr (spec.verifiedDocument.getStr "id") .invalidIdentity
  let imported ← prepareImportedKeys anp did spec.verifiedDocument spec.privateKeys
  validateImportedRoles spec.verifiedDocument spec.capabilities imported
  let registry ← self.registryForNew did
  commitNewIdentity anp entropy registry did imported (importedRecord anp entropy spec did imported)

end DidStore
end AnpIdentity
