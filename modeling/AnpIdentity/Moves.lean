import AnpIdentity.Edits
import AnpIdentity.Runs
import Mathlib.Order.WithBot
import Mathlib.Data.Nat.Cast.WithTop

/-! What runs do to identity files and to the registry: a file is introduced once, replaced by a record that
was made from it and has the next generation, and removed; the registry changes one entry at a time. -/

namespace AnpIdentity
open Durable Program
variable (anp : Anp)

section
variable (s : Store) {record : IdentityRecord} {id gone : String}

theorem identities_put_self (record : IdentityRecord) :
    (Medium.apply s (.identity record)).identities record.identityId = some record := Function.update_self ..

theorem identities_put_ne (other : id ≠ record.identityId) :
    (Medium.apply s (.identity record)).identities id = s.identities id := Function.update_of_ne other ..

theorem identities_remove_self (id : String) : (Medium.apply s (.removeIdentity id)).identities id = none :=
  Function.update_self ..

theorem identities_remove_ne (other : id ≠ gone) :
    (Medium.apply s (.removeIdentity gone)).identities id = s.identities id := Function.update_of_ne other ..

/-- A write that leaves the files as they are stores no record. -/
theorem stores_nothing {v : Write} (kept : ∀ t : Store, (Medium.apply t v).identities = t.identities) :
    v ≠ .identity record := by
  rintro rfl
  have moved := congrFun (kept (Medium.apply .empty (.removeIdentity record.identityId))) record.identityId
  rw [identities_put_self, identities_remove_self] at moved
  cases moved

end

/-- The event does not introduce an identity. -/
def Event.Settled (w : World) (event : Event) : Prop :=
  ∀ entropy self call action made, event.Brings anp w entropy self call action → ¬ action.Makes anp entropy made

/-- A file is replaced by another record. -/
inductive Rewrite (w : World) (event : Event) (s : Store) (file : IdentityRecord) : IdentityRecord → Prop
  | activate {record : IdentityRecord} (shown : record = file ∨ completeRecord anp file = .ok record)
      (creating : record.state = .creating) : Rewrite w event s file { record with state := .active }
  | act {entropy : Entropy} {self : DidIdentity} {call : IdentityCall} {action : IdentityAction} {record : IdentityRecord}
      (began : event.Begins anp w entropy self call action) (completed : completeRecord anp file = .ok action.seen)
      (stores : action.Stores anp entropy record) (room : record.generation + 1 < 2 ^ 64) : Rewrite w event s file record.raised
  | clear {j : UpdateJournal} {record : IdentityRecord} (outstanding : j ∈ s.updateTransactions) (kind : j.kind = .cleanup)
      (completed : completeRecord anp file = .ok record) (pends : record.Pends j.revisionId)
      (named : record.identityId = j.identityId) (room : record.generation + 1 < 2 ^ 64) :
      Rewrite w event s file (clearedRecord record).raised

/-- The change that a write makes to the identity files. -/
inductive FileMove (w : World) (event : Event) (s : Store) : Write → Prop
  | elsewhere {v : Write} (kept : ∀ t : Store, (Medium.apply t v).identities = t.identities) : FileMove w event s v
  | introduce {entropy : Entropy} {self : DidStore} {call : StoreCall} {action : StoreAction} {made : IdentityRecord}
      (brought : event.Brings anp w entropy self call action) (makes : action.Makes anp entropy made)
      (before : s.identities = w.store.identities) (unregistered : s.registry = w.store.registry) :
      FileMove w event s (.identity made)
  | rewrite {file record : IdentityRecord} (found : s.identities record.identityId = some file)
      (rewrites : Rewrite anp w event s file record) : FileMove w event s (.identity record)
  | remove {id : String} (settled : event.Settled anp w) : FileMove w event s (.removeIdentity id)

section
variable {anp} {s start : Store} {self : DidIdentity} {entropy : Entropy} {action : IdentityAction}
  {record seen next : IdentityRecord}

/-- What every action leaves as it is in the record that it replaces. -/
structure Keeping (seen next : IdentityRecord) : Prop where
  identityId : next.identityId = seen.identityId
  did : next.did = seen.did
  generation : next.generation = seen.generation
  created : seen.state ≠ .creating → next.state ≠ .creating
  createdAt : next.createdAt = seen.createdAt
  capability : seen.rootCapability ≠ .absent → next.rootCapability ≠ .absent

theorem Readjusts.keeping {authorized : Bool} (readjusts : Readjusts seen authorized next) : Keeping seen next := by
  cases readjusts with
  | activated | revoked => exact ⟨rfl, rfl, rfl, fun _ => by simp, rfl, id⟩
  | unchanged => exact ⟨rfl, rfl, rfl, id, rfl, id⟩

theorem Justified.keeping (justified : Justified anp s self entropy action) (stores : action.Stores anp entropy record) :
    Keeping action.seen record := by
  cases justified with
  | prepare =>
    obtain ⟨digest, -, rfl⟩ := stores
    exact ⟨rfl, rfl, rfl, id, rfl, id⟩
  | discard =>
    cases stores
    exact ⟨rfl, rfl, rfl, id, rfl, id⟩
  | moved _ _ moves =>
    cases stores
    rw [moves.moved]
    exact ⟨rfl, rfl, rfl, id, rfl, id⟩
  | committed _ commits =>
    cases stores
    obtain ⟨keys, authorization, retired, checkpoint, -, -, -, -, -, same⟩ := commits.committed
    rw [same]
    exact ⟨rfl, rfl, rfl, id, rfl, id⟩
  | adopted _ _ _ adopts =>
    cases stores
    obtain ⟨changed, authorization, retired, readjusts, -, same⟩ := adopts.adopted
    have keeping := readjusts.keeping
    rw [same]
    exact ⟨keeping.identityId, keeping.did, keeping.generation, keeping.created, keeping.createdAt, keeping.capability⟩
  | promoted _ _ promotes =>
    cases stores
    obtain ⟨keys, -, same⟩ := promotes.promoted
    rw [same]
    exact ⟨rfl, rfl, rfl, id, rfl, fun _ => by simp⟩
  | replayed _ transfers =>
    cases stores
    cases transfers
    exact ⟨rfl, rfl, rfl, id, rfl, id⟩
  | imported _ transfers =>
    cases stores
    cases transfers
    exact ⟨rfl, rfl, rfl, id, rfl, fun _ => by simp⟩

theorem Readjusts.pendingRevision {authorized : Bool} (readjusts : Readjusts seen authorized next) :
    next.pendingRevision = seen.pendingRevision := by
  cases readjusts <;> rfl

/-- What an action does to the keys of a record and to its pending revision. -/
inductive Rekeys (anp : Anp) (s : Store) (entropy : Entropy) (action : IdentityAction) (record : IdentityRecord) : Prop
  | planned {spec : DocumentUpdateSpec} {plan : UpdatePlan} {digest : String} (is : action = .prepare action.seen plan)
      (planned : planUpdate anp entropy s action.seen spec = .ok plan)
      (hashed : canonicalDigest anp plan.changes.document = .ok digest) (keys : record.keys = action.seen.keys)
      (pending : record.pendingRevision = some (plan.pending entropy action.seen digest))
  | cleared (keys : record.keys = action.seen.keys) (clear : record.pendingRevision = none)
  | moved {old : PendingRevisionRecord} {state : PublicationState} (found : action.seen.pendingRevision = some old)
      (publishes : Publishes old.state state) (keys : record.keys = action.seen.keys)
      (pending : record.pendingRevision = some { old with state, generation := old.generation + 1 })
  | committed {old : PendingRevisionRecord} {keys : List KeyMetadata} (found : action.seen.pendingRevision = some old)
      (same : SameKeys keys action.seen.keys) (is : record.keys = keys ++ old.newKeyMetadata) (clear : record.pendingRevision = none)
  | kept (same : SameKeys record.keys action.seen.keys) (pending : record.pendingRevision = action.seen.pendingRevision)
  | imported {rootKid : String} {root : KeyMetadata} (adopted : adoptRootKey rootKid action.seen.keys = some (root, record.keys))
      (pending : record.pendingRevision = action.seen.pendingRevision) (absent : action.seen.rootCapability = .absent)

theorem Justified.rekeys (justified : Justified anp s self entropy action) (stores : action.Stores anp entropy record) :
    Rekeys anp s entropy action record := by
  cases justified with
  | prepare _ planned =>
    obtain ⟨digest, hashed, rfl⟩ := stores
    exact .planned rfl planned hashed rfl rfl
  | discard =>
    cases stores
    exact .cleared rfl rfl
  | moved _ publishes moves =>
    cases stores
    obtain ⟨found, -, rfl, rfl⟩ := moves
    exact .moved found publishes rfl rfl
  | committed _ commits =>
    cases stores
    have found := commits.found
    obtain ⟨_, _, _, _, same, -, -, -, -, rfl⟩ := commits.committed
    exact .committed found same rfl rfl
  | adopted _ _ _ adopts =>
    cases stores
    obtain ⟨_, _, _, readjusts, -, rfl⟩ := adopts.adopted
    exact .kept readjusts.sameKeys readjusts.pendingRevision
  | promoted _ _ promotes =>
    cases stores
    obtain ⟨_, activated, rfl⟩ := promotes.promoted
    exact .kept (activateRootKey_same activated) rfl
  | replayed _ transfers =>
    cases stores
    cases transfers
    exact .kept (.refl _) rfl
  | imported _ transfers =>
    cases stores
    cases transfers with
    | imported _ absent _ _ adopted => exact .imported adopted rfl absent

/-- The document with which a call brings in an identity. -/
def StoreCall.document : StoreCall → Option Value
  | .prepareEnrollment spec => some spec.verifiedDocument
  | .prepareRequestSigningEnrollment spec => some spec.verifiedDocument
  | .importIdentity spec => some spec.verifiedDocument
  | .importDeviceIdentity spec => some spec.verifiedDocument
  | .importRequestSigningIdentity spec => some spec.verifiedDocument
  | _ => none

/-- The evidence of the document with which a call brings in an identity. -/
def StoreCall.evidence : StoreCall → Option VerifiedDocumentEvidence
  | .prepareEnrollment spec => some spec.evidence
  | .prepareRequestSigningEnrollment spec => some spec.evidence
  | .importIdentity spec => some spec.evidence
  | .importDeviceIdentity spec => some spec.evidence
  | .importRequestSigningIdentity spec => some spec.evidence
  | _ => none

/-- The state in which a call brings in an identity. -/
inductive StoreCall.Founds : StoreCall → IdentityState → Prop
  | create {spec : DidCreateSpec} : Founds (.createIdentity spec) .creating
  | enroll {spec : EnrollmentSpec} : Founds (.prepareEnrollment spec) .enrolling
  | enrollRequest {spec : RequestSigningEnrollmentSpec} : Founds (.prepareRequestSigningEnrollment spec) .enrolling
  | import {spec : IdentityImportSpec} : Founds (.importIdentity spec) .active
  | importDevice {spec : DeviceIdentityImportSpec} : Founds (.importDeviceIdentity spec) .active
  | importRequest {spec : RequestSigningIdentityImportSpec} : Founds (.importRequestSigningIdentity spec) .active

/-- The record that a new identity starts with. -/
structure IsNew (anp : Anp) (entropy : Entropy) (call : StoreCall) (action : StoreAction) (made : IdentityRecord) : Prop where
  identityId : made.identityId = entropy.identityId
  did : made.did = action.did
  generation : made.generation = 1
  revision : made.revision = 1
  checkpoint : ∃ current, made.checkpoint = some current ∧ documentDigest anp made.document = .ok current.documentDigest
  pendingRevision : made.pendingRevision = none
  pendingRootTransfer : made.pendingRootTransfer = none
  rootTransferReplays : made.rootTransferReplays = []
  retiredDeviceIds : made.retiredDeviceIds = []
  creating : made.state = .creating → ∃ spec built, action = .create spec built
  document : call.document = some made.document ∨
    ∃ spec built, buildIdentity anp entropy spec = .ok built ∧ made.document = built.document
  version : made.checkpoint.map (·.documentVersion) = some ((call.evidence.map (·.documentVersion)).getD 1)
  founds : call.Founds made.state

theorem verified_digest {document : Value} {evidence : VerifiedDocumentEvidence}
    (verified : validateVerifiedDocument anp document evidence = .ok ()) :
    documentDigest anp document = .ok evidence.documentDigest := by
  simp only [validateVerifiedDocument, except_bind_ok, reject_ok, ne_eq, not_not] at verified
  obtain ⟨_, -, digest, hashed, _, same, -⟩ := verified
  rw [hashed, same]

variable {call : StoreCall} {v : Write}

theorem StoreCall.Starts.isNew {self : DidStore} {action : StoreAction} {made : IdentityRecord}
    (started : call.Starts anp s self entropy action) (makes : action.Makes anp entropy made) :
    IsNew anp entropy call action made := by
  cases call with
  | createIdentity spec =>
    obtain ⟨built, -, -, builds, rfl⟩ := started
    simp only [StoreAction.Makes, createdRecord, except_bind_ok] at makes
    obtain ⟨_, -, digest, hashed, _, -, same⟩ := makes
    cases same
    exact ⟨rfl, rfl, rfl, rfl, ⟨_, rfl, hashed⟩, rfl, rfl, rfl, rfl, fun _ => ⟨spec, built, rfl⟩,
      .inr ⟨spec, built, builds, rfl⟩, rfl, .create⟩
  | prepareEnrollment spec =>
    obtain ⟨did, signingKid, e2eeKid, -, valid, -, -, -, -, -, -, rfl⟩ := started
    obtain ⟨_, verified, -⟩ := except_bind_ok.mp valid
    simp only [StoreAction.Makes, enrolledRecord, except_bind_ok] at makes
    obtain ⟨_, -, _, -, _, -, _, -, same⟩ := makes
    cases same
    exact ⟨rfl, rfl, rfl, rfl, ⟨_, rfl, verified_digest verified⟩, rfl, rfl, rfl, rfl, nofun, .inl rfl, rfl, .enroll⟩
  | prepareRequestSigningEnrollment spec =>
    obtain ⟨did, kid, -, verified, -, -, -, rfl⟩ := started
    simp only [StoreAction.Makes, requestSigningEnrolledRecord, except_bind_ok] at makes
    obtain ⟨_, -, _, -, _, -, same⟩ := makes
    cases same
    exact ⟨rfl, rfl, rfl, rfl, ⟨_, rfl, verified_digest verified⟩, rfl, rfl, rfl, rfl, nofun, .inl rfl, rfl, .enrollRequest⟩
  | importIdentity spec =>
    obtain ⟨did, imported, -, ⟨verified, -⟩, -, rfl⟩ := started
    simp only [StoreAction.Makes, importedRecord, except_bind_ok] at makes
    obtain ⟨_, -, _, -, _, -, same⟩ := makes
    cases same
    exact ⟨rfl, rfl, rfl, rfl, ⟨_, rfl, verified_digest verified⟩, rfl, rfl, rfl, rfl, nofun, .inl rfl, rfl, .import⟩
  | importDeviceIdentity spec =>
    obtain ⟨did, imported, rootKid, -, ⟨verified, -⟩, -, -, rfl⟩ := started
    simp only [StoreAction.Makes, importedDeviceRecord, except_bind_ok] at makes
    obtain ⟨_, -, _, -, _, -, _, -, _, -, same⟩ := makes
    cases same
    exact ⟨rfl, rfl, rfl, rfl, ⟨_, rfl, verified_digest verified⟩, rfl, rfl, rfl, rfl, nofun, .inl rfl, rfl, .importDevice⟩
  | importRequestSigningIdentity spec =>
    obtain ⟨did, imported, request, rootKid, -, ⟨verified, -⟩, -, -, -, rfl⟩ := started
    simp only [StoreAction.Makes, importedRequestSigningRecord, except_bind_ok] at makes
    obtain ⟨_, -, _, -, _, -, same⟩ := makes
    cases same
    exact ⟨rfl, rfl, rfl, rfl, ⟨_, rfl, verified_digest verified⟩, rfl, rfl, rfl, rfl, nofun, .inl rfl, rfl, .importRequest⟩
  | discardUnpublishedEnrollment did identityId generation
  | deleteIdentityNamespace did generation
  | deleteIdentityNamespaceDiscardingPending did generation =>
    obtain ⟨record, -, rfl⟩ := started
    exact makes.elim
  | openIdentity did | reload => exact started.elim

/-- An action on a store registers a DID that is new to it or deletes an identity that it names. -/
inductive StoreAction.Planned (anp : Anp) (s : Store) (self : DidStore) : StoreAction → Prop
  | introduce {did : String} {keys : List NewKey} {record : DidResult IdentityRecord} (registrable : Registrable s self did) :
      Planned anp s self (.introduce did keys record)
  | create {spec : DidCreateSpec} {built : BuiltIdentity} (registrable : Registrable s self built.did)
      (idle : s.transactions.entries = []) : Planned anp s self (.create spec built)
  | delete {did : String} {record : IdentityRecord} (deletes : Deletes anp s self did record) :
      Planned anp s self (.delete did record)

theorem StoreCall.Starts.planned {self : DidStore} {action : StoreAction}
    (started : call.Starts anp s self entropy action) : action.Planned anp s self := by
  cases call with
  | createIdentity spec =>
    obtain ⟨built, registrable, idle, -, rfl⟩ := started
    exact .create registrable idle
  | prepareEnrollment spec =>
    obtain ⟨did, signingKid, e2eeKid, registrable, -, -, -, -, -, -, -, rfl⟩ := started
    exact .introduce registrable
  | prepareRequestSigningEnrollment spec =>
    obtain ⟨did, kid, registrable, -, -, -, -, rfl⟩ := started
    exact .introduce registrable
  | importIdentity spec =>
    obtain ⟨did, imported, registrable, -, -, rfl⟩ := started
    exact .introduce registrable
  | importDeviceIdentity spec =>
    obtain ⟨did, imported, rootKid, registrable, -, -, -, rfl⟩ := started
    exact .introduce registrable
  | importRequestSigningIdentity spec =>
    obtain ⟨did, imported, request, rootKid, registrable, -, -, -, -, rfl⟩ := started
    exact .introduce registrable
  | discardUnpublishedEnrollment did identityId generation
  | deleteIdentityNamespace did generation
  | deleteIdentityNamespaceDiscardingPending did generation =>
    obtain ⟨record, deletes, rfl⟩ := started
    exact .delete deletes
  | openIdentity did | reload => exact started.elim

/-- The id of a new identity was drawn for the event that introduces it. -/
theorem Event.Brings.drawn {w : World} {event : Event} {self : DidStore} {action : StoreAction} {made : IdentityRecord}
    (brought : event.Brings anp w entropy self call action) (makes : action.Makes anp entropy made) :
    made.identityId ∈ event.ids := by
  obtain ⟨is, -, started⟩ := brought
  rw [(started.isNew makes).identityId, is]
  exact List.mem_cons_self

/-! ## Each step of a run is a move -/

private theorem RegisterStep.identity (step : RegisterStep entropy start next s v) :
    (∀ t : Store, (Medium.apply t v).identities = t.identities) ∨
      v = .identity next.raised ∧ s.identities = start.identities ∧ next.generation + 1 < 2 ^ 64 := by
  cases step with
  | store room => exact .inr ⟨rfl, rfl, room⟩
  | refresh | close => exact .inl (fun _ => rfl)

/-- A step of an action leaves the files, or stores the record of the action over the one that it was decided on. -/
theorem IdentityStep.identity (step : IdentityStep anp entropy start action s v) :
    (∀ t : Store, (Medium.apply t v).identities = t.identities) ∨
      ∃ record, v = .identity record.raised ∧ action.Stores anp entropy record ∧ s.identities = start.identities ∧
        record.generation + 1 < 2 ^ 64 := by
  cases step with
  | prepare step =>
    cases step with
    | announce | keep => exact .inl (fun _ => rfl)
    | store _ _ hashed room => exact .inr ⟨_, rfl, ⟨_, hashed, rfl⟩, rfl, room⟩
    | close => exact .inl (fun _ => rfl)
  | discard step =>
    cases step with
    | announce => exact .inl (fun _ => rfl)
    | store room => exact .inr ⟨_, rfl, rfl, rfl, room⟩
    | erase | close => exact .inl (fun _ => rfl)
  | edit step =>
    cases step with
    | plain _ room => exact .inr ⟨_, rfl, rfl, rfl, room⟩
    | announce => exact .inl (fun _ => rfl)
    | register _ step =>
      rcases RegisterStep.identity step with kept | ⟨rfl, same, room⟩
      · exact .inl kept
      · exact .inr ⟨_, rfl, rfl, same, room⟩
  | importRoot step =>
    cases step with
    | announce | keep => exact .inl (fun _ => rfl)
    | register _ _ step =>
      rcases RegisterStep.identity step with kept | ⟨rfl, same, room⟩
      · exact .inl kept
      · exact .inr ⟨_, rfl, rfl, same, room⟩

private theorem IntroduceStep.identity {journal : CreationJournal} {keys : List SealedKey}
    {made : DidResult IdentityRecord} (step : IntroduceStep anp start journal keys made s v) :
    (∀ t : Store, (Medium.apply t v).identities = t.identities) ∨
      ∃ record, v = .identity record ∧ made = .ok record ∧ s.identities = start.identities ∧ s.registry = start.registry := by
  cases step with
  | announce | keep => exact .inl (fun _ => rfl)
  | store _ _ built => exact .inr ⟨_, rfl, built, rfl, rfl⟩

/-- A step of an action on a store leaves the files, or introduces or removes one, or marks the new one active. -/
theorem StoreStep.identity {action : StoreAction} (step : StoreStep anp entropy start action s v) :
    (∀ t : Store, (Medium.apply t v).identities = t.identities) ∨
      (∃ id did record, v = .removeIdentity id ∧ action = .delete did record) ∨
      ∃ made, action.Makes anp entropy made ∧ (v = .identity made ∧ s.identities = start.identities ∧ s.registry = start.registry ∨
        v = .identity { made with state := .active } ∧ s.identities made.identityId = some made ∧ made.state = .creating) := by
  cases step with
  | introduce step =>
    rcases step.identity with kept | ⟨made, rfl, built, before, unregistered⟩
    · exact .inl kept
    · exact .inr (.inr ⟨made, built, .inl ⟨rfl, before, unregistered⟩⟩)
  | enlist | close => exact .inl (fun _ => rfl)
  | create step =>
    rcases step.identity with kept | ⟨made, rfl, built, before, unregistered⟩
    · exact .inl kept
    · exact .inr (.inr ⟨made, built, .inl ⟨rfl, before, unregistered⟩⟩)
  | enlistCreated => exact .inl (fun _ => rfl)
  | activate ready =>
    refine .inr (.inr ⟨_, ready.built, .inr ⟨rfl, Function.update_self .., ?_⟩⟩)
    have built := ready.built
    simp only [createdRecord, except_bind_ok] at built
    obtain ⟨_, -, _, -, _, -, same⟩ := built
    cases same
    rfl
  | closeCreated => exact .inl (fun _ => rfl)
  | delete step =>
    cases step with
    | announce | erase => exact .inl (fun _ => rfl)
    | remove => exact .inr (.inl ⟨_, _, _, rfl, rfl⟩)
    | delist | close => exact .inl (fun _ => rfl)

variable {w : World} {event : Event}

private theorem Event.Recovers.settled (recovers : event.Recovers) : event.Settled anp w := by
  intro entropy self call action made brought
  obtain ⟨rfl, held, started⟩ := brought
  cases call with
  | reload => exact started.elim
  | _ => exact recovers.elim

private theorem deletion_settled {handle : Nat} {fault : Option Nat} {self : DidStore} {did : String}
    {record : IdentityRecord} (is : event = .store handle call entropy fault)
    (started : call.Starts anp w.store self entropy (.delete did record)) : event.Settled anp w := by
  intro entropy self call action made brought makes
  obtain ⟨also, held, other⟩ := brought
  cases is.symm.trans also
  cases call with
  | discardUnpublishedEnrollment did identityId generation
  | deleteIdentityNamespace did generation
  | deleteIdentityNamespaceDiscardingPending did generation =>
    obtain ⟨record, -, rfl⟩ := other
    exact makes
  | createIdentity spec =>
    obtain ⟨_, -, -, -, same⟩ := started
    cases same
  | prepareEnrollment spec =>
    obtain ⟨_, _, _, -, -, -, -, -, -, -, -, same⟩ := started
    cases same
  | prepareRequestSigningEnrollment spec =>
    obtain ⟨_, _, -, -, -, -, -, same⟩ := started
    cases same
  | importIdentity spec =>
    obtain ⟨_, _, -, -, -, same⟩ := started
    cases same
  | importDeviceIdentity spec =>
    obtain ⟨_, _, _, -, -, -, -, same⟩ := started
    cases same
  | importRequestSigningIdentity spec =>
    obtain ⟨_, _, _, _, -, -, -, -, -, same⟩ := started
    cases same
  | openIdentity did | reload => exact started

private theorem RecoveryStep.fileMove (recovers : event.Recovers) (step : RecoveryStep anp s v) :
    FileMove anp w event s v := by
  cases step with
  | creation outstanding step =>
    cases step with
    | refresh | undoImport | eraseDeleted => exact .elsewhere (fun _ => rfl)
    | removeDeleted => exact .remove recovers.settled
    | delist => exact .elsewhere (fun _ => rfl)
    | activate journalled _ _ creating =>
      obtain ⟨stored, found, -, completed⟩ := readIdentity_ok.mp journalled.read
      have same := readIdentity_named journalled.read
      exact .rewrite (by rw [← same] at found; exact found) (.activate (.inr completed) creating)
    | eraseCreated => exact .elsewhere (fun _ => rfl)
    | removeCreated => exact .remove recovers.settled
    | close => exact .elsewhere (fun _ => rfl)
  | update outstanding step =>
    cases step with
    | undoPrepare => exact .elsewhere (fun _ => rfl)
    | clear read kind pends room =>
      obtain ⟨stored, found, -, completed⟩ := readIdentity_ok.mp read
      have same := readIdentity_named read
      exact .rewrite (by rw [← same] at found; exact found) (.clear outstanding kind completed pends same room)
    | eraseCleared | close => exact .elsewhere (fun _ => rfl)

theorem Event.Permits.fileMove (permits : event.Permits anp w s v) : FileMove anp w event s v := by
  cases permits with
  | recovery recovers step => exact step.fileMove recovers
  | store is held started step =>
    rcases step.identity with kept | ⟨id, did, record, rfl, rfl⟩ | ⟨made, makes, ⟨rfl, before, unregistered⟩ |
      ⟨rfl, found, creating⟩⟩
    · exact .elsewhere kept
    · exact .remove (deletion_settled is started)
    · exact .introduce (.call is held started) makes before unregistered
    · exact .rewrite found (.activate (.inl rfl) creating)
  | identity is held started step =>
    rcases step.identity with kept | ⟨record, rfl, stores, same, room⟩
    · exact .elsewhere kept
    · obtain ⟨current, justified⟩ := started.started
      obtain ⟨stored, found, -, completed⟩ := readIdentity_ok.mp current.read
      have keeping := justified.keeping stores
      have named := readIdentity_named current.read
      refine .rewrite ?_ (.act (.call is held started) completed stores room)
      rw [same, IdentityRecord.raised_identityId, keeping.identityId, named]
      exact found

/-- Every write of an event is a move of a file. -/
theorem Event.fileMoves (event : Event) : Traced (FileMove anp w event) w.store (event.writes anp w) :=
  event.traced.weaken (fun _ _ permits => permits.fileMove)

theorem completeRecord_same {file : IdentityRecord} (completed : completeRecord anp file = .ok record) :
    ∃ fingerprint checkpoint authorization, record = { file with
      rootKeyFingerprint := fingerprint, checkpoint := some checkpoint, localAuthorization := authorization } := by
  obtain ⟨fingerprint, checkpoint, authorization, -, -, -, same⟩ := completeRecord_ok.mp completed
  exact ⟨fingerprint, checkpoint, authorization, same⟩

/-- A file is replaced by a record of the same identity, of the same generation while it is activated and of the
next one otherwise. -/
theorem Rewrite.identityId {file : IdentityRecord} (rewrites : Rewrite anp w event s file record) :
    record.identityId = file.identityId ∧ (record.generation = file.generation + 1 ∨
      record.generation = file.generation ∧ file.state = .creating ∧ record.state ≠ .creating ∧
        record.document = file.document) := by
  cases rewrites with
  | activate shown creating =>
    rcases shown with rfl | completed
    · exact ⟨rfl, .inr ⟨rfl, creating, by simp, rfl⟩⟩
    · obtain ⟨_, _, _, rfl⟩ := completeRecord_same completed
      exact ⟨rfl, .inr ⟨rfl, creating, by simp, rfl⟩⟩
  | act began completed stores _ =>
    obtain ⟨is, held, started⟩ := began
    have keeping := started.started.2.keeping stores
    obtain ⟨_, _, _, same⟩ := completeRecord_same completed
    refine ⟨keeping.identityId.trans (by rw [same]), .inl ?_⟩
    rw [IdentityRecord.raised_generation, keeping.generation, same]
  | clear _ _ completed =>
    obtain ⟨_, _, _, rfl⟩ := completeRecord_same completed
    exact ⟨rfl, .inl rfl⟩

end
end AnpIdentity
