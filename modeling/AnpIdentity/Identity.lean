import AnpIdentity.RootTransfer

/-! `identity.rs`: opening identities, and `recover`, which replays the journals that failed calls left. -/

namespace AnpIdentity
open Durable
variable (anp : Anp)

/-- Brings the registry entry of a journalled identity up to date. -/
def recoverSummary (registry : IdentityRegistry) (did : String) (record : IdentityRecord) : Tx IdentityRegistry :=
  if registry.identities did ≠ some record.summary then do
    let registry ← registry.put did record.summary
    writeRegistry registry
    return registry
  else return registry

/-- The identity of a journal, which must still be there under the journalled DID. -/
def journalledRecord (journal : CreationJournal) : Tx IdentityRecord := do
  let record ← readIdentity anp journal.identityId
  reject (record.did ≠ journal.did) .invalidIdentity
  return record

def recoverStateTransition (registry : IdentityRegistry) (journal : CreationJournal) : Tx IdentityRegistry := do
  let record ← journalledRecord anp journal
  let registry ← recoverSummary registry journal.did record
  removeJournal journal.transactionId
  return registry

/-- The record shows that the root import it was journalled for went through. -/
def rootImportCommitted (record : IdentityRecord) : Bool :=
  (record.rootCapability == .pending || record.rootCapability == .active) &&
    record.keys.any (fun key => key.role == .rootControl && key.origin == .managed && !key.materialErased)

/-- The journalled import went through, or its secrets are removed again. -/
def settleRootImport (registry : IdentityRegistry) (journal : CreationJournal) (record : IdentityRecord) :
    Tx IdentityRegistry :=
  if rootImportCommitted record then recoverSummary registry journal.did record
  else do
    deleteSecrets journal.secretRefs
    return registry

def recoverRootImport (registry : IdentityRegistry) (journal : CreationJournal) : Tx IdentityRegistry := do
  let record ← journalledRecord anp journal
  let registry ← settleRootImport registry journal record
  removeJournal journal.transactionId
  return registry

/-- Takes the journalled identity out of the registry, where it is still named. -/
def dropSummary (registry : IdentityRegistry) (journal : CreationJournal) : Tx IdentityRegistry :=
  if registry.Names journal.did journal.identityId then do
    let registry ← registry.drop journal.did
    writeRegistry registry
    return registry
  else return registry

def recoverNamespaceDelete (registry : IdentityRegistry) (journal : CreationJournal) : Tx IdentityRegistry := do
  deleteSecrets journal.secretRefs
  removeIdentity journal.identityId
  let registry ← dropSummary registry journal
  removeJournal journal.transactionId
  return registry

/-- A creation that reached the registry is finished; any other one is undone. -/
def settleCreate (registry : IdentityRegistry) (journal : CreationJournal) : Tx Unit :=
  if registry.Names journal.did journal.identityId then do
    let record ← journalledRecord anp journal
    if record.state = .creating then writeIdentity { record with state := .active } else pure ()
  else do
    deleteSecrets journal.secretRefs
    removeIdentity journal.identityId

def recoverCreate (registry : IdentityRegistry) (journal : CreationJournal) : Tx IdentityRegistry := do
  settleCreate anp registry journal
  removeJournal journal.transactionId
  return registry

def recoverJournal (registry : IdentityRegistry) (journal : CreationJournal) : Tx IdentityRegistry :=
  match journal.kind with
  | .stateTransition => recoverStateTransition anp registry journal
  | .rootImport => recoverRootImport anp registry journal
  | .namespaceDelete => recoverNamespaceDelete registry journal
  | .create => recoverCreate anp registry journal

def recoverJournals : IdentityRegistry → List CreationJournal → Tx Unit
  | _, [] => pure ()
  | registry, journal :: rest => do
    let registry ← recoverJournal anp registry journal
    recoverJournals registry rest

def recover : Tx IdentityRegistry := do
  let registry ← readRegistry
  let journals ← listJournals
  recoverJournals anp registry journals
  recoverUpdateJournals anp
  readRegistry

/-- `DidStore::from_runtime`, after the root key of the store was found. -/
def DidStore.fromRuntime : Tx DidStore := do
  let registry ← recover anp
  return { registryGeneration := registry.generation }

def DidStore.reload (_ : DidStore) : Tx DidStore := DidStore.fromRuntime anp

/-- A record that a handle may show: the registry names it and agrees on its state. -/
def checkOpened (did : String) (summary : IdentitySummary) (record : IdentityRecord) : DidResult Unit :=
  reject (record.did ≠ did ∨ record.state = .creating ∨ record.state ≠ summary.state) .invalidIdentity

def DidStore.openIdentity (_ : DidStore) (did : String) : Tx DidIdentity := do
  let registry ← readRegistry
  let summary ← okOr (registry.identities did) .identityNotFound
  let record ← readIdentity anp summary.identityId
  checkOpened did summary record
  return { record }

def DidIdentity.reload (self : DidIdentity) : Tx DidIdentity := do
  let registry ← recover anp
  let summary ← okOr ((registry.identities self.did).filter (·.identityId == self.identityId)) .identityNotFound
  let record ← readIdentity anp self.identityId
  checkOpened self.did summary record
  return { record }

end AnpIdentity
