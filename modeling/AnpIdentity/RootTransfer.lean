import AnpIdentity.Namespace

/-! `root_transfer.rs`: importing the root key of an identity and promoting it once the remote document
is verified. -/

namespace AnpIdentity
open Durable Text
variable (anp : Anp)

def maxTtlSeconds : Int := 600
def clockSkewSeconds : Int := 120
def nanosPerSecond : Int := 10 ^ 9
def nonceLen : Nat := 12
def maxReplayRecords : Nat := 256
def wrappedRootEnvelopeType : String := "anp.identity.root-transfer.wrapped"
def wrappedRootEnvelopeVersion : Nat := 1

/-- What a transfer is bound to: identity, devices, document and time. -/
structure RootTransferContext where
  sourceDid : String
  targetDid : String
  senderDeviceId : String
  recipientDeviceId : String
  recipientAgreementKid : String
  rootKid : String
  checkpoint : DocumentCheckpoint
  createdAt : String
  expiresAt : String
  deriving Repr, DecidableEq

/-- The root key, encrypted for a device and signed by itself. -/
structure WrappedRootEnvelope where
  envelopeType : String
  version : Nat
  context : RootTransferContext
  ephemeralPublic : String
  nonce : String
  ciphertext : String
  signature : String
  deriving Repr, DecidableEq

/-- The document that an imported root key is confirmed with. -/
structure RootPromotionSpec where
  document : Value
  evidence : VerifiedDocumentEvidence
  deriving Repr, DecidableEq

inductive RootTransferImportOutcome where
  | pending | active
  deriving Repr, DecidableEq

/-- What vouches for a transfer in the older form. -/
structure LegacyRootTransferEvidence where
  transferId : String
  sourceDid : String
  targetDid : String
  senderDeviceId : String
  recipientDeviceId : String
  recipientAgreementKid : String
  rootKid : String
  checkpoint : DocumentCheckpoint
  acceptedAt : String
  deriving Repr, DecidableEq

/-- A root key and what vouches for it. -/
structure LegacyRootTransferImportSpec where
  evidence : LegacyRootTransferEvidence
  encoding : PrivateKeyEncoding
  rootKey : Bytes
  deriving Repr, DecidableEq

def checkpointJson (checkpoint : DocumentCheckpoint) : Value :=
  .object (Object.of [("document_version", .number checkpoint.documentVersion),
    ("registry_version", .number checkpoint.registryVersion), ("document_digest", .string checkpoint.documentDigest)])

def contextJson (context : RootTransferContext) : Value :=
  .object (Object.of [("source_did", .string context.sourceDid), ("target_did", .string context.targetDid),
    ("sender_device_id", .string context.senderDeviceId), ("recipient_device_id", .string context.recipientDeviceId),
    ("recipient_agreement_kid", .string context.recipientAgreementKid), ("root_kid", .string context.rootKid),
    ("checkpoint", checkpointJson context.checkpoint), ("created_at", .string context.createdAt),
    ("expires_at", .string context.expiresAt)])

def legacyEvidenceJson (evidence : LegacyRootTransferEvidence) : Value :=
  .object (Object.of [("transfer_id", .string evidence.transferId), ("source_did", .string evidence.sourceDid),
    ("target_did", .string evidence.targetDid), ("sender_device_id", .string evidence.senderDeviceId),
    ("recipient_device_id", .string evidence.recipientDeviceId),
    ("recipient_agreement_kid", .string evidence.recipientAgreementKid), ("root_kid", .string evidence.rootKid),
    ("checkpoint", checkpointJson evidence.checkpoint), ("accepted_at", .string evidence.acceptedAt)])

/-- The fields that both the signature and the additional data of an envelope cover. -/
def envelopeHead (type : String) (version : Nat) (context : RootTransferContext) (ephemeralPublic nonce : String) : Object :=
  Object.of [("type", .string type), ("version", .number version), ("context", contextJson context),
    ("ephemeral_public_b64u", .string ephemeralPublic), ("nonce_b64u", .string nonce)]

/-- The envelope without its signature. -/
def envelopeUnsigned (envelope : WrappedRootEnvelope) : Object :=
  Object.insert "ciphertext_b64u" (.string envelope.ciphertext)
    (envelopeHead envelope.envelopeType envelope.version envelope.context envelope.ephemeralPublic envelope.nonce)

def envelopeJson (envelope : WrappedRootEnvelope) : Value :=
  .object (Object.insert "signature_b64u" (.string envelope.signature) (envelopeUnsigned envelope))

def canonical (value : Value) : DidResult Bytes :=
  match anp.canonicalJson value with
  | .ok bytes => .ok bytes
  | .error message => .error (.serialization message)

def digestSerialized (value : Value) : DidResult String := do
  let bytes ← canonical anp value
  .ok ("sha256:" ++ anp.sha256 bytes)

def envelopeAad (context : RootTransferContext) (ephemeralPublic nonce : Bytes) : DidResult Bytes :=
  canonical anp (.object (envelopeHead wrappedRootEnvelopeType wrappedRootEnvelopeVersion context
    (anp.encodeBase64 ephemeralPublic) (anp.encodeBase64 nonce)))

/-- The bytes that the sender signs. -/
def envelopeSignatureInput (envelope : WrappedRootEnvelope) : DidResult Bytes := do
  let bytes ← canonical anp (.object (envelopeUnsigned envelope))
  .ok (ascii "anp-identity:root-transfer:signature:v1\x00" ++ bytes)

def decodeFixed (length : Nat) (value : String) : DidResult Bytes := do
  let bytes ← mapErr (anp.decodeBase64 value) .invalidRootTransfer
  reject (bytes.length ≠ length) .invalidRootTransfer
  .ok bytes

/-- Times are in nanoseconds; `num_seconds` drops what is left of a second. -/
def validateTimeWindow (context : RootTransferContext) (now : Int) : DidResult Unit := do
  let created ← mapErr (anp.parseTimestamp context.createdAt) .invalidRootTransfer
  let expires ← mapErr (anp.parseTimestamp context.expiresAt) .invalidRootTransfer
  let ttl := (expires - created).tdiv nanosPerSecond
  reject (ttl ≤ 0 ∨ ttl > maxTtlSeconds ∨ now < created - clockSkewSeconds * nanosPerSecond ∨
    now > expires + clockSkewSeconds * nanosPerSecond) .rootTransferExpired

namespace DidIdentity

def keyMetadata (self : DidIdentity) (kid : String) : DidResult KeyMetadata := do
  let kid ← canonicalizeKid self.did kid
  okOr (self.record.keys.find? (·.kid == kid)) .keyNotFound

def managedKeyMetadata (self : DidIdentity) (kid : String) : DidResult KeyMetadata := do
  let metadata ← self.keyMetadata kid
  reject (metadata.origin = .external) .externalKeyOperation
  .ok metadata

end DidIdentity

/-- The envelope is in time, meant for this device and signed by the root key. -/
def validateWrappedEnvelope (self : DidIdentity) (envelope : WrappedRootEnvelope) (now : Int)
    (allowStaleCheckpointForKnownReplay : Bool) : DidResult Unit := do
  reject (envelope.envelopeType ≠ wrappedRootEnvelopeType ∨ envelope.version ≠ wrappedRootEnvelopeVersion ∨
    envelope.context.sourceDid ≠ self.did ∨ envelope.context.targetDid ≠ self.did ∨
    isBlank envelope.context.senderDeviceId ∨ isBlank envelope.context.recipientDeviceId) .invalidRootTransfer
  let authorization ← okOr self.record.localAuthorization .invalidRootTransfer
  reject (authorization.deviceId ≠ envelope.context.recipientDeviceId ∨
    authorization.e2eeKid ≠ envelope.context.recipientAgreementKid ∨
    (¬ allowStaleCheckpointForKnownReplay ∧ self.record.checkpoint ≠ some envelope.context.checkpoint))
    .invalidRootTransfer
  validateTimeWindow anp envelope.context now
  let root ← self.keyMetadata envelope.context.rootKid
  reject (root.role ≠ .rootControl) .keyRoleViolation
  let method ← okOr (anp.findVerificationMethod self.record.document root.kid) .invalidIdentity
  let publicKey ← mapErr (anp.extractPublicKey method) .invalidPublicKey
  let signature ← mapErr (anp.decodeBase64 envelope.signature) .invalidRootTransfer
  let input ← envelopeSignatureInput anp envelope
  mapErr (anp.verifyMessage publicKey input signature) .invalidRootTransfer

/-- The evidence is about this identity and its document. -/
def validateLegacyEvidence (self : DidIdentity) (evidence : LegacyRootTransferEvidence) : DidResult Unit := do
  let authorization ← okOr self.record.localAuthorization .invalidRootTransfer
  reject (isBlank evidence.transferId ∨ evidence.sourceDid ≠ self.did ∨ evidence.targetDid ≠ self.did ∨
    isBlank evidence.senderDeviceId ∨ evidence.recipientDeviceId ≠ authorization.deviceId ∨
    evidence.recipientAgreementKid ≠ authorization.e2eeKid ∨ self.record.checkpoint ≠ some evidence.checkpoint ∨
    ¬ (anp.parseTimestamp evidence.acceptedAt).isOk) .invalidRootTransfer
  let root ← self.keyMetadata evidence.rootKid
  reject (root.role ≠ .rootControl) .keyRoleViolation

/-- The imported key is the root key of the document. -/
def verifyRootPublic (record : IdentityRecord) (rootKid : String) (publicKey : PublicKeyMaterial) : DidResult Unit := do
  let method ← okOr (anp.findVerificationMethod record.document rootKid) .keyNotFound
  let expected ← mapErr (anp.extractPublicKey method) .invalidPublicKey
  reject (!publicKeysEqual publicKey expected) .invalidPublicKey
  let fingerprint ← rootKeyFingerprint anp record.document
  reject (some fingerprint ≠ record.rootKeyFingerprint) .invalidPublicKey

/-- Unlike the check that adoption makes, a record without a checkpoint is refused. -/
def validatePromotionProgression (current : Option DocumentCheckpoint) (next : VerifiedDocumentEvidence) :
    DidResult Unit := do
  let current ← okOr current .invalidIdentity
  validateCheckpointProgression (some current) next

/-- An accepted transfer, in either form. -/
structure RootTransfer where
  rootKid : String
  raw : Key32
  nonce : String
  digest : String
  expiresAt : String

/-- Remembers a transfer; only the newest records are kept. -/
def pushReplay (replays : List RootTransferReplayRecord) (transfer : RootTransfer) : List RootTransferReplayRecord :=
  let replays := replays ++ [{ nonce := transfer.nonce, transferDigest := transfer.digest, expiresAt := transfer.expiresAt }]
  replays.drop (replays.length - maxReplayRecords)

/-- What an import does to the record it found. -/
inductive RootImportDecision where
  | done (outcome : RootTransferImportOutcome)
  | replayed (record : IdentityRecord)
  | imported (ref : SecretRef) (record : IdentityRecord)

/-- The first RootControl key with this kid becomes managed and waits for the promotion. -/
def adoptRootKey (rootKid : String) : List KeyMetadata → Option (KeyMetadata × List KeyMetadata)
  | [] => none
  | key :: rest =>
    if key.role = .rootControl ∧ key.kid = rootKid then
      some (key, { key with origin := .managed, state := .pending } :: rest)
    else (adoptRootKey rootKid rest).map (fun found => (found.1, key :: found.2))

/-- What becomes of a transfer, by the state of the root key. -/
def decideRootImport (self : DidIdentity) (entropy : Entropy) (record : IdentityRecord) (transfer : RootTransfer) :
    DidResult RootImportDecision := do
  reject (record.generation ≠ self.record.generation ∨ record.state ≠ .active) .conflict
  reject record.pendingRevision.isSome .pendingRevisionExists
  let publicKey := publicKeyFromRaw anp .rootControl transfer.raw
  match record.rootTransferReplays.find? (·.nonce == transfer.nonce) with
  | some replay =>
    reject (replay.transferDigest ≠ transfer.digest) .invalidRootTransfer
    match record.rootCapability with
    | .pending => .ok (.done .pending)
    | .active => .ok (.done .active)
    | .absent => .error .invalidIdentity
  | none =>
    if record.rootCapability = .active then do
      verifyRootPublic anp record transfer.rootKid publicKey
      .ok (.replayed { record with rootTransferReplays := pushReplay record.rootTransferReplays transfer })
    else match record.pendingRootTransfer with
      | some pending =>
        if pending.transferDigest = transfer.digest then .ok (.done .pending) else .error .pendingRootTransferExists
      | none => do
        reject (record.rootCapability ≠ .absent) .rootCapabilityUnavailable
        verifyRootPublic anp record transfer.rootKid publicKey
        let (root, keys) ← okOr (adoptRootKey transfer.rootKid record.keys) .keyNotFound
        let ref : SecretRef :=
          { identityId := record.identityId, keyId := transfer.rootKid, role := .rootControl, version := root.version }
        .ok (.imported ref
          { record with
            keys
            rootCapability := .pending
            pendingRootTransfer := some
              { transferDigest := transfer.digest, rootKid := transfer.rootKid, importedAt := entropy.now }
            rootTransferReplays := pushReplay record.rootTransferReplays transfer })

/-- The journal of an import of the root key. -/
def rootImportJournal (entropy : Entropy) (ref : SecretRef) (record : IdentityRecord) : CreationJournal where
  kind := .rootImport
  transactionId := entropy.transactionId
  identityId := record.identityId
  did := record.did
  secretRefs := [ref]
  createdAt := entropy.now

/-- Journal, root secret, identity file, registry, journal removed. -/
def commitRootImport (entropy : Entropy) (transfer : RootTransfer) (ref : SecretRef) (record : IdentityRecord) :
    Tx IdentityRecord := do
  writeJournal (rootImportJournal entropy ref record)
  sealVerified anp ref transfer.raw.val (publicKeyFromRaw anp .rootControl transfer.raw)
  persistAndRegister entropy record

/-- Promotes the imported root: the first managed RootControl key becomes active. -/
def activateRootKey : List KeyMetadata → Option (List KeyMetadata)
  | [] => none
  | key :: rest =>
    if key.role = .rootControl ∧ key.origin = .managed then some ({ key with state := .active } :: rest)
    else (activateRootKey rest).map (key :: ·)

/-- The record that a promotion stores, before its generation is raised; `none` when the root is active
already. Neither the state of the identity nor its local authorization is looked at. -/
def promoteRecord (record : IdentityRecord) (spec : RootPromotionSpec) : DidResult (Option IdentityRecord) :=
  if record.rootCapability = .active ∧ record.pendingRootTransfer.isNone then .ok none
  else do
    reject (record.rootCapability ≠ .pending ∨ record.pendingRootTransfer.isNone) .rootCapabilityUnavailable
    validatePromotionProgression record.checkpoint spec.evidence
    let keys ← okOr (activateRootKey record.keys) .rootCapabilityUnavailable
    .ok (some { record with
      keys
      rootCapability := .active
      pendingRootTransfer := none
      document := spec.document
      initialPublicationPending := false
      checkpoint := some (checkpoint spec.evidence)
      revision := spec.evidence.documentVersion })

namespace DidIdentity

/-- Stores the secret and the record that names it. -/
def commitPendingRoot (self : DidIdentity) (entropy : Entropy) (transfer : RootTransfer) :
    Tx (DidIdentity × RootTransferImportOutcome) := do
  let record ← readIdentity anp self.identityId
  let decision ← decideRootImport anp self entropy record transfer
  match decision with
  | .done outcome => return (self, outcome)
  | .replayed record => do
    let record ← persistStateTransition entropy record
    return ({ record }, .active)
  | .imported ref record => do
    let record ← commitRootImport anp entropy transfer ref record
    return ({ record }, .pending)

/-- The root key inside an envelope. -/
def openEnvelope (self : DidIdentity) (s : Store) (envelope : WrappedRootEnvelope) : DidResult Key32 := do
  let ephemeralPublic ← decodeFixed anp 32 envelope.ephemeralPublic
  let nonce ← decodeFixed anp nonceLen envelope.nonce
  let ciphertext ← mapErr (anp.decodeBase64 envelope.ciphertext) .invalidRootTransfer
  let agreement ← self.managedKeyMetadata envelope.context.recipientAgreementKid
  reject (agreement.role ≠ .e2eeAgreement ∨ agreement.state ≠ .active) .keyRoleViolation
  let secret ← s.openSecret (self.record.secretRef agreement)
  let key ← if length : secret.length = 32 then .ok (⟨secret, length⟩ : Key32) else .error .invalidIdentity
  let shared := anp.diffieHellman key ephemeralPublic
  reject (shared.all (· == 0)) .invalidPeerKey
  let aad ← envelopeAad anp envelope.context ephemeralPublic nonce
  let transferKey ← mapErr (anp.deriveTransferKey shared aad) .crypto
  let plaintext ← mapErr (anp.decrypt transferKey nonce ciphertext aad) .invalidRootTransfer
  if length : plaintext.length = 32 then .ok ⟨plaintext, length⟩ else .error .invalidRootTransfer

/-- Opens an envelope and imports the key. -/
def importWrappedRoot (self : DidIdentity) (entropy : Entropy) (envelope : WrappedRootEnvelope) (now : Int) :
    Tx (DidIdentity × RootTransferImportOutcome) := do
  let digest ← digestSerialized anp (envelopeJson envelope)
  let knownReplay := self.record.rootTransferReplays.any
    (fun replay => replay.nonce == envelope.nonce && replay.transferDigest == digest)
  validateWrappedEnvelope anp self envelope now knownReplay
  let s ← Program.get
  let raw ← self.openEnvelope anp s envelope
  self.commitPendingRoot anp entropy
    { rootKid := envelope.context.rootKid, raw, nonce := envelope.nonce, digest, expiresAt := envelope.context.expiresAt }

/-- Imports the key of the older form. -/
def importLegacyRootTransfer (self : DidIdentity) (entropy : Entropy) (spec : LegacyRootTransferImportSpec) :
    Tx (DidIdentity × RootTransferImportOutcome) := do
  validateLegacyEvidence anp self spec.evidence
  let raw ← parsePrivateKey anp .rootControl spec.encoding spec.rootKey
  let digest ← digestSerialized anp (legacyEvidenceJson spec.evidence)
  self.commitPendingRoot anp entropy
    { rootKid := spec.evidence.rootKid, raw, nonce := "legacy:" ++ spec.evidence.transferId, digest,
      expiresAt := spec.evidence.acceptedAt }

/-- The imported root key becomes active with a document that was verified. -/
def confirmRootPromotion (self : DidIdentity) (entropy : Entropy) (spec : RootPromotionSpec) : Tx DidIdentity := do
  validateVerifiedDocument anp spec.document spec.evidence
  reject (spec.document.getStr "id" ≠ some self.did) .invalidRootTransfer
  let fingerprint ← rootKeyFingerprint anp spec.document
  reject (some fingerprint ≠ self.record.rootKeyFingerprint) .invalidRootTransfer
  let record ← readIdentity anp self.identityId
  reject (record.generation ≠ self.record.generation) .conflict
  let next ← promoteRecord record spec
  match next with
  | none => return self
  | some record => do
    let record ← persistStateTransition entropy record
    return { record }

end DidIdentity
end AnpIdentity
