import AnpIdentity.Lifecycle

/-! Bringing an identity into a store: `create_identity` of `identity.rs`, and the transaction that the
enrollments of `adoption.rs` and the imports of `key_import.rs` share. -/

namespace AnpIdentity
open Durable
variable (anp : Anp)

structure NewIdentityRecord where
  identityId : String
  did : String
  document : Value
  keys : List KeyMetadata
  capabilities : Capabilities
  rootCapability : RootCapabilityState
  rootKeyFingerprint : Option String
  checkpoint : DocumentCheckpoint
  localAuthorization : Option LocalAuthorizationRecord
  createdAt : String

def newIdentityRecord (input : NewIdentityRecord) : IdentityRecord where
  identityId := input.identityId
  did := input.did
  state := .creating
  revision := 1
  generation := 1
  document := input.document
  keys := input.keys
  capabilities := input.capabilities
  rootCapability := input.rootCapability
  rootKeyFingerprint := input.rootKeyFingerprint
  checkpoint := some input.checkpoint
  initialPublicationPending := false
  localAuthorization := input.localAuthorization
  localRequestSigningKid := none
  pendingEnrollment := none
  pendingRequestSigning := none
  pendingRootTransfer := none
  rootTransferReplays := []
  retiredDeviceIds := []
  createdAt := input.createdAt
  pendingRevision := none

/-- A key whose secret goes into the store with a new identity. -/
structure NewKey where
  kid : String
  role : KeyRole
  plaintext : Bytes
  publicKey : PublicKeyMaterial

def NewKey.sealedKey (key : NewKey) (identityId : String) : SealedKey where
  ref := { identityId, keyId := key.kid, role := key.role, version := 1 }
  plaintext := key.plaintext
  expected := key.publicKey

/-- The journal of a new identity, with its secrets. -/
def creationJournal (entropy : Entropy) (did : String) (keys : List NewKey) : CreationJournal where
  kind := .create
  transactionId := entropy.transactionId
  identityId := entropy.identityId
  did := did
  secretRefs := keys.map (fun key => (key.sealedKey entropy.identityId).ref)
  createdAt := entropy.now

def registerIdentity (entropy : Entropy) (registry : IdentityRegistry) (did : String) (record : IdentityRecord) :
    Tx (DidStore × DidIdentity) := do
  writeIdentity record
  let registry ← registry.put did record.summary
  writeRegistry registry
  removeJournal entropy.transactionId
  return ({ registryGeneration := registry.generation }, { record })

/-- Journal, secrets, identity file, registry, journal removed. The record is only worked out once the
secrets are stored. -/
def commitNewIdentity (entropy : Entropy) (registry : IdentityRegistry) (did : String) (keys : List NewKey)
    (record : DidResult IdentityRecord) : Tx (DidStore × DidIdentity) := do
  writeJournal (creationJournal entropy did keys)
  sealAll anp (keys.map (·.sealedKey entropy.identityId))
  let record ← record
  registerIdentity entropy registry did record

def verifyAllPersistedKeys : List SealedKey → Tx Unit
  | [] => pure ()
  | key :: rest => do
    verifyPersistedKey anp key.ref key.expected
    verifyAllPersistedKeys rest

theorem verifyAllPersistedKeys_issues {P : Write → Prop} (keys : List SealedKey) :
    Issues P (verifyAllPersistedKeys anp keys) := by
  induction keys with
  | nil => exact .pure ()
  | cons key rest ih => exact .bind (verifyPersistedKey_issues anp _ _) (fun _ => ih)

def BuiltIdentity.newKeys (built : BuiltIdentity) : List NewKey :=
  built.managedKeys.map (fun key =>
    { kid := built.did ++ "#" ++ key.fragment, role := key.role, plaintext := key.secretBytes,
      publicKey := key.publicKey anp })

/-- The record of a created identity, before it becomes active. -/
def createdRecord (entropy : Entropy) (spec : DidCreateSpec) (built : BuiltIdentity) : DidResult IdentityRecord := do
  let rootKeyFingerprint ← methodRootFingerprint anp built.document
  let documentDigest ← documentDigest anp built.document
  let localAuthorization ← inferLocalAuthorization anp built.document built.metadata
  .ok { newIdentityRecord {
          identityId := entropy.identityId
          did := built.did
          document := built.document
          keys := built.metadata
          capabilities := spec.capabilities
          rootCapability := if spec.profile.supportsRootControl then .active else .absent
          rootKeyFingerprint
          checkpoint := { documentVersion := 1, registryVersion := 1, documentDigest }
          localAuthorization
          createdAt := built.createdAt } with
        initialPublicationPending := true }

/-- The identity is written twice: it is registered while the file still says `creating`. -/
def registerCreation (entropy : Entropy) (registry : IdentityRegistry) (did : String) (record : IdentityRecord) :
    Tx (DidStore × DidIdentity) := do
  writeIdentity record
  let registry ← registry.put did { record.summary with state := .active }
  writeRegistry registry
  let record := { record with state := .active }
  writeIdentity record
  removeJournal entropy.transactionId
  return ({ registryGeneration := registry.generation }, { record })

/-- The stored keys are read back before the record is written. -/
def commitCreation (entropy : Entropy) (registry : IdentityRegistry) (spec : DidCreateSpec) (built : BuiltIdentity) :
    Tx (DidStore × DidIdentity) := do
  writeJournal { creationJournal entropy built.did (built.newKeys anp) with createdAt := built.createdAt }
  let keys := (built.newKeys anp).map (·.sealedKey entropy.identityId)
  sealAll anp keys
  verifyAllPersistedKeys anp keys
  let record ← createdRecord anp entropy spec built
  registerCreation entropy registry built.did record

/-- The registry, unchanged since this handle last saw it. -/
def DidStore.currentRegistry (self : DidStore) : Tx IdentityRegistry := do
  let registry ← readRegistry
  reject (registry.generation ≠ self.registryGeneration) .conflict
  return registry

/-- Nothing is created while a journal is outstanding. -/
def DidStore.createIdentity (self : DidStore) (entropy : Entropy) (spec : DidCreateSpec) :
    Tx (DidStore × DidIdentity) := do
  let registry ← self.currentRegistry
  let journals ← listJournals
  reject (¬ journals.isEmpty) .conflict
  let built ← buildIdentity anp entropy spec
  reject (registry.identities built.did).isSome .duplicateIdentity
  commitCreation anp entropy registry spec built

end AnpIdentity
