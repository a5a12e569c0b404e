import AnpIdentity.KeyImport

/-! `namespace.rs`: deleting an identity with everything the store holds of it. -/

namespace AnpIdentity
open Durable
variable (anp : Anp)

def deletionJournal (entropy : Entropy) (record : IdentityRecord) : CreationJournal where
  kind := .namespaceDelete
  transactionId := entropy.transactionId
  identityId := record.identityId
  did := record.did
  secretRefs := record.managedRefs
  createdAt := entropy.now

/-- Journal, secrets of the managed keys, identity file, registry, journal removed. -/
def deleteNamespace (entropy : Entropy) (registry : IdentityRegistry) (did : String) (record : IdentityRecord) :
    Tx DidStore := do
  writeJournal (deletionJournal entropy record)
  deleteSecrets record.managedRefs
  removeIdentity record.identityId
  let registry ← registry.drop did
  writeRegistry registry
  removeJournal entropy.transactionId
  return { registryGeneration := registry.generation }

/-- Saturating addition on a 64-bit counter. -/
def saturatingSucc (counter : Nat) : Nat := if counter + 1 < 2 ^ 64 then counter + 1 else counter

/-- What a deletion that keeps pending changes safe refuses to delete. -/
def IdentityRecord.hasPendingChange (record : IdentityRecord) : Bool :=
  record.pendingRevision.isSome || record.pendingEnrollment.isSome || record.pendingRequestSigning.isSome ||
    record.pendingRootTransfer.isSome || record.rootCapability == .pending

namespace DidStore

def discardUnpublishedEnrollment (self : DidStore) (entropy : Entropy) (did expectedIdentityId : String)
    (expectedGeneration : Nat) : Tx DidStore := do
  let registry ← readRegistry
  reject (expectedGeneration ≠ self.registryGeneration ∨ registry.generation ≠ expectedGeneration) .conflict
  let summary ← okOr (registry.identities did) .identityNotFound
  let record ← readIdentity anp summary.identityId
  reject (record.identityId ≠ expectedIdentityId ∨ record.did ≠ did ∨ record.state ≠ .enrolling ∨
    ¬ (record.pendingEnrollment.isSome ^^ record.pendingRequestSigning.isSome) ∨ record.pendingRevision.isSome ∨
    record.pendingRootTransfer.isSome ∨ record.rootCapability ≠ .absent) .invalidPublicationState
  deleteNamespace entropy registry did record

def deleteIdentityNamespaceInner (self : DidStore) (entropy : Entropy) (did : String) (expectedGeneration : Nat)
    (discardPendingChanges : Bool) : Tx DidStore := do
  let registry ← readRegistry
  if expectedGeneration ≠ self.registryGeneration ∨ registry.generation ≠ expectedGeneration then do
    reject ((registry.identities did).isSome ∨ registry.generation ≠ saturatingSucc expectedGeneration) .conflict
    return { registryGeneration := registry.generation }
  else do
    let summary ← okOr (registry.identities did) .identityNotFound
    let record ← readIdentity anp summary.identityId
    reject (record.did ≠ did ∨ record.state = .creating ∨ (¬ discardPendingChanges ∧ record.hasPendingChange))
      .invalidPublicationState
    deleteNamespace entropy registry did record

def deleteIdentityNamespace (self : DidStore) (entropy : Entropy) (did : String) (expectedGeneration : Nat) :
    Tx DidStore :=
  self.deleteIdentityNamespaceInner anp entropy did expectedGeneration false

def deleteIdentityNamespaceDiscardingPending (self : DidStore) (entropy : Entropy) (did : String)
    (expectedGeneration : Nat) : Tx DidStore :=
  self.deleteIdentityNamespaceInner anp entropy did expectedGeneration true

end DidStore
end AnpIdentity
