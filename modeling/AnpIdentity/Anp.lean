import AnpIdentity.Basic

/-! What the crate calls but does not contain: the `anp` crate, the cryptographic crates, the canonical
JSON encoder and the parser of timestamps. Each is a field of `Anp`; a result that relies on what one of
them does says so in a hypothesis. -/

namespace AnpIdentity

/-- A 32-byte private key. -/
abbrev Key32 := { bytes : Bytes // bytes.length = 32 }

inductive PrivateKeyMaterial where
  | ed25519 (key : Key32)
  | x25519 (key : Key32)
  | other (curve : String)

inductive DidVerificationRelationship where
  | authentication | assertionMethod | keyAgreement
  deriving Repr, DecidableEq

structure SuppliedDidKey where
  fragment : String
  role : KeyRole
  publicKey : PublicKeyMaterial
  relationships : List DidVerificationRelationship
  deriving Repr, DecidableEq

structure SuppliedE1DidDocumentOptions where
  port : Option Nat
  pathSegments : List String
  agentDescriptionUrl : Option String
  services : List Value
  rootKey : SuppliedDidKey
  additionalKeys : List SuppliedDidKey
  deriving Repr, DecidableEq

structure ProofGenerationOptions where
  proofPurpose : Option String
  proofType : Option String
  cryptosuite : Option String
  created : Option String
  domain : Option String
  challenge : Option String
  deriving Repr, DecidableEq

structure PreparedProof where
  document : Value
  signingInput : Bytes
  deriving Repr, DecidableEq

structure Anp where
  buildDidWebResolutionUrl : String → Except Unit String
  /-- `validate_did_document_method(document, true)`. -/
  validateDidDocumentMethod : Value → Bool
  /-- `validate_did_document_binding(document, true)`. -/
  validateDidDocumentBinding : Value → Bool
  validateDeviceManifest : Value → Except Unit (Option DeviceManifest)
  deviceManifestFromValue : Value → Except Unit DeviceManifest
  deviceManifestToValue : DeviceManifest → Except Unit Value
  deviceManifestType : String
  findVerificationMethod : Value → String → Option Value
  extractPublicKey : Value → Except Unit PublicKeyMaterial
  isAuthenticationAuthorized : Value → String → Bool
  isAssertionMethodAuthorized : Value → String → Bool
  buildUnsignedE1DidDocument : String → SuppliedE1DidDocumentOptions → Except Unit Value
  prepareW3cProof : Value → PublicKeyMaterial → String → ProofGenerationOptions → Except Unit PreparedProof
  completeW3cProof : PreparedProof → Bytes → Except Unit Value
  proofTypeDataIntegrity : String
  cryptosuiteEddsaJcs2022 : String
  ed25519Public : Key32 → Bytes
  ed25519Sign : Key32 → Bytes → Except Unit Bytes
  x25519Public : Key32 → Bytes
  verifyMessage : PublicKeyMaterial → Bytes → Bytes → Except Unit Unit
  diffieHellman : Key32 → Bytes → Bytes
  privateKeyFromPkcs8Der : Bytes → Except Unit PrivateKeyMaterial
  canonicalJson : Value → Except String Bytes
  /-- SHA-256, encoded as unpadded base64url. -/
  sha256 : Bytes → String
  base58 : Bytes → String
  decodeBase64 : String → Except Unit Bytes
  encodeBase64 : Bytes → String
  deriveTransferKey : Bytes → Bytes → Except Unit Key32
  /-- ChaCha20-Poly1305 decryption: key, nonce, ciphertext, additional data. -/
  decrypt : Key32 → Bytes → Bytes → Bytes → Except Unit Bytes
  /-- RFC 3339 timestamp to nanoseconds since the epoch. -/
  parseTimestamp : String → Except Unit Int

/-- What one call draws from the operating system: identifiers, private keys and readings of the clock. -/
structure Entropy where
  identityId : String
  transactionId : String
  enrollmentId : String
  revisionId : String
  challenge : String
  key : Nat → Key32
  now : String
  signedAt : String

end AnpIdentity
