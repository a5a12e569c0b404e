import AnpIdentity.Document
import AnpIdentity.Durable.Directory
import AnpIdentity.Durable.Program
import Mathlib.Data.List.Dedup
import Mathlib.Data.List.Sort
import Mathlib.Logic.Function.Basic

/-! `registry.rs`: identity records, journals, the files of a store and the atomic writes made to them.

A file is modelled by the value it holds. The only values written carry schema version 1, so the version
tags and the failures of decoding a damaged file are left out. -/

namespace AnpIdentity
open Durable

/-- How far the publication of a revision is. -/
inductive PublicationState where
  | prepared | publicationInFlight | publicationUncertain | published
  deriving Repr, DecidableEq

/-- A revision that is prepared and not yet committed. -/
structure PendingRevisionRecord where
  revisionId : String
  parentRevision : Nat
  candidateDocument : Value
  candidateDigest : String
  candidateKids : List String
  pendingSecretRefs : List SecretRef
  newKeyMetadata : List KeyMetadata
  retiredKids : List String
  state : PublicationState
  generation : Nat
  createdAt : String
  deriving Repr, DecidableEq

/-- The device of the document that the identity acts as. -/
structure LocalAuthorizationRecord where
  deviceId : String
  signingKid : String
  e2eeKid : String
  profiles : List String
  deriving Repr, DecidableEq

/-- A device enrollment that awaits publication. -/
structure PendingEnrollmentRecord where
  enrollmentId : String
  localAuthorization : LocalAuthorizationRecord
  createdAt : String
  deriving Repr, DecidableEq

/-- A request-signing enrollment that awaits publication. -/
structure PendingRequestSigningRecord where
  enrollmentId : String
  requestSigningKid : String
  createdAt : String
  deriving Repr, DecidableEq

/-- A root key that is imported and not yet confirmed. -/
structure PendingRootTransferRecord where
  transferDigest : String
  rootKid : String
  importedAt : String
  deriving Repr, DecidableEq

/-- A root transfer that was accepted before. -/
structure RootTransferReplayRecord where
  nonce : String
  transferDigest : String
  expiresAt : String
  deriving Repr, DecidableEq

/-- What the registry says about an identity. -/
structure IdentitySummary where
  identityId : String
  did : String
  state : IdentityState
  rootCapability : RootCapabilityState
  createdAt : String
  deriving Repr, DecidableEq

/-- The file of an identity. -/
structure IdentityRecord where
  identityId : String
  did : String
  state : IdentityState
  revision : Nat
  generation : Nat
  document : Value
  keys : List KeyMetadata
  capabilities : Capabilities
  rootCapability : RootCapabilityState
  rootKeyFingerprint : Option String
  checkpoint : Option DocumentCheckpoint
  initialPublicationPending : Bool
  localAuthorization : Option LocalAuthorizationRecord
  localRequestSigningKid : Option String
  pendingEnrollment : Option PendingEnrollmentRecord
  pendingRequestSigning : Option PendingRequestSigningRecord
  pendingRootTransfer : Option PendingRootTransferRecord
  rootTransferReplays : List RootTransferReplayRecord
  retiredDeviceIds : List String
  createdAt : String
  pendingRevision : Option PendingRevisionRecord
  deriving Repr, DecidableEq

namespace IdentityRecord

def summary (record : IdentityRecord) : IdentitySummary where
  identityId := record.identityId
  did := record.did
  state := record.state
  rootCapability := record.rootCapability
  createdAt := record.createdAt

/-- Where the secret of one of the record's keys is stored. -/
def secretRef (record : IdentityRecord) (key : KeyMetadata) : SecretRef where
  identityId := record.identityId
  keyId := key.kid
  role := key.role
  version := key.version

/-- The secrets of the managed keys whose material was not erased. -/
def managedRefs (record : IdentityRecord) : List SecretRef :=
  (record.keys.filter (fun key => key.origin == .managed && !key.materialErased)).map record.secretRef

end IdentityRecord

/-- The device ids that the manifest of a document lists. -/
def deviceIds (document : Value) : List String :=
  ((((document.get "deviceManifest").bind (·.get "devices")).bind Value.asArray).getD []).filterMap
    (·.getStr "device_id")

/-- Checks the next document against the retired devices and retires those it no longer lists. The ids
are kept sorted and without repetition. -/
def IdentityRecord.observeDevices (record : IdentityRecord) (next : Value) : DidResult IdentityRecord := do
  reject (record.retiredDeviceIds.any (· ∈ deviceIds next)) .invalidExtension
  let retired := record.retiredDeviceIds ++ (deviceIds record.document).filter (· ∉ deviceIds next)
  .ok { record with retiredDeviceIds := (retired.insertionSort (· ≤ ·)).dedup }

inductive CreationJournalKind where
  | create | stateTransition | rootImport | namespaceDelete
  deriving Repr, DecidableEq

/-- The journal of a creation, deletion, root import or state transition. -/
structure CreationJournal where
  kind : CreationJournalKind
  transactionId : String
  identityId : String
  did : String
  secretRefs : List SecretRef
  createdAt : String
  deriving Repr, DecidableEq

inductive UpdateJournalKind where
  | prepare | cleanup
  deriving Repr, DecidableEq

/-- The journal of a revision that is prepared or discarded. -/
structure UpdateJournal where
  revisionId : String
  identityId : String
  secretRefs : List SecretRef
  kind : UpdateJournalKind
  createdAt : String
  deriving Repr, DecidableEq

inductive IdentityTransitionJournalState where
  | prepared | publicationInFlight | publicationUncertain | committed | aborted
  deriving Repr, DecidableEq

/-- The journal of a transition to another identity. -/
structure IdentityTransitionJournal where
  operationId : String
  expectedCurrentDid : String
  predecessorIdentityId : String
  predecessorGeneration : Nat
  successorDid : String
  successorIdentityId : String
  successorGeneration : Nat
  trustedPredecessorDocument : Value
  predecessorDocument : Value
  successorDocument : Value
  predecessorDigest : String
  successorDigest : String
  assurance : String
  state : IdentityTransitionJournalState
  generation : Nat
  createdAt : String
  deriving Repr, DecidableEq

/-- The file that lists the identities of the store. -/
structure IdentityRegistry where
  generation : Nat
  identities : String → Option IdentitySummary

/-- The files of a store: the registry, an identity file for each identity id, a key-store record for
each secret and the three directories of journals. -/
@[ext] structure Store where
  registry : IdentityRegistry
  identities : String → Option IdentityRecord
  secrets : SecretRef → Option Bytes
  transactions : Directory CreationJournal.transactionId
  updateTransactions : Directory UpdateJournal.revisionId
  identityTransitions : Directory IdentityTransitionJournal.operationId

/-- A store just initialised. -/
def Store.empty : Store where
  registry := { generation := 0, identities := fun _ => none }
  identities := fun _ => none
  secrets := fun _ => none
  transactions := .empty
  updateTransactions := .empty
  identityTransitions := .empty

/-- The writes to the store, each of which happens in one go. -/
inductive Write where
  | registry (registry : IdentityRegistry)
  | identity (record : IdentityRecord)
  | removeIdentity (identityId : String)
  | seal (ref : SecretRef) (plaintext : Bytes)
  | deleteSecret (ref : SecretRef)
  | journal (journal : CreationJournal)
  | removeJournal (transactionId : String)
  | updateJournal (journal : UpdateJournal)
  | removeUpdateJournal (revisionId : String)

def Store.apply (s : Store) : Write → Store
  | .registry registry => { s with registry }
  | .identity record => { s with identities := Function.update s.identities record.identityId (some record) }
  | .removeIdentity id => { s with identities := Function.update s.identities id none }
  | .seal ref plaintext => { s with secrets := Function.update s.secrets ref (some plaintext) }
  | .deleteSecret ref => { s with secrets := Function.update s.secrets ref none }
  | .journal journal => { s with transactions := s.transactions.insert journal }
  | .removeJournal id => { s with transactions := s.transactions.erase id }
  | .updateJournal journal => { s with updateTransactions := s.updateTransactions.insert journal }
  | .removeUpdateJournal id => { s with updateTransactions := s.updateTransactions.erase id }

instance : Medium Store Write := ⟨Store.apply⟩

section
variable (s : Store)

@[simp] theorem apply_registry (registry : IdentityRegistry) : Medium.apply s (.registry registry) = { s with registry } := rfl
@[simp] theorem apply_identity (record : IdentityRecord) : Medium.apply s (.identity record) =
    { s with identities := Function.update s.identities record.identityId (some record) } := rfl
@[simp] theorem apply_removeIdentity (id : String) : Medium.apply s (.removeIdentity id) =
    { s with identities := Function.update s.identities id none } := rfl
@[simp] theorem apply_seal (ref : SecretRef) (plaintext : Bytes) : Medium.apply s (.seal ref plaintext) =
    { s with secrets := Function.update s.secrets ref (some plaintext) } := rfl
@[simp] theorem apply_deleteSecret (ref : SecretRef) : Medium.apply s (.deleteSecret ref) =
    { s with secrets := Function.update s.secrets ref none } := rfl
@[simp] theorem apply_journal (journal : CreationJournal) : Medium.apply s (.journal journal) =
    { s with transactions := s.transactions.insert journal } := rfl
@[simp] theorem apply_removeJournal (id : String) : Medium.apply s (.removeJournal id) =
    { s with transactions := s.transactions.erase id } := rfl
@[simp] theorem apply_updateJournal (journal : UpdateJournal) : Medium.apply s (.updateJournal journal) =
    { s with updateTransactions := s.updateTransactions.insert journal } := rfl
@[simp] theorem apply_removeUpdateJournal (id : String) : Medium.apply s (.removeUpdateJournal id) =
    { s with updateTransactions := s.updateTransactions.erase id } := rfl

end

/-- The registry has room for one more generation. -/
def Store.Room (s : Store) : Prop := s.registry.generation + 1 < 2 ^ 64

/-- A call of the crate on a store. -/
abbrev Tx := Program Store Write DidError

end AnpIdentity
