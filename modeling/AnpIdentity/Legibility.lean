import AnpIdentity.Readable
import AnpIdentity.KeyEdits
import AnpIdentity.Nesting
import AnpIdentity.PendingRevisions

/-! Which files of a run can be read. Reading a file infers the local device that the file does not name, and parses the
documents in it; a document that is stored without these tests can lock the identity out. -/

namespace AnpIdentity
open Durable Program

/-- At most one device of the document has managed keys. -/
def SingleDevice (anp : Anp) (document : Value) (keys : List KeyMetadata) : Prop :=
  ∀ manifest, anp.validateDeviceManifest document = .ok (some manifest) → (localDevices manifest keys).length ≤ 1

/-- The record names no local device and its document lists none. -/
structure IdentityRecord.Unplaced (anp : Anp) (record : IdentityRecord) : Prop where
  unnamed : record.localAuthorization = none
  unlisted : ∀ manifest, anp.validateDeviceManifest record.document = .ok (some manifest) → localDevices manifest record.keys = []

/-- The document that a call stores for an identity. -/
def IdentityCall.document (file : IdentityRecord) : IdentityCall → Option Value
  | .adoptVerifiedDocument spec | .adoptVerifiedSiblingDocument spec => some spec.document
  | .confirmRootPromotion spec => some spec.document
  | .commitVerifiedUpdate .. | .reconcileUpdate .. => file.pendingRevision.map (·.candidateDocument)
  | _ => none

/-- The document names a DID with a root key. -/
def RootedDocument (document : Value) : Prop := ∀ did, document.getStr "id" = some did → Text.startsWith did "did:wba:" = true

/-- The document that an identity is imported with. -/
def StoreCall.imported : StoreCall → Option Value
  | .importIdentity spec => some spec.verifiedDocument
  | .importDeviceIdentity spec => some spec.verifiedDocument
  | .importRequestSigningIdentity spec => some spec.verifiedDocument
  | _ => none

/-- No document is nested too deep, only identities with a root key are imported, and an identity without a local device
is given no document that lists several devices with its keys. -/
def Event.Places (anp : Anp) (w : World) : Event → Prop
  | .store _ call _ _ => (∀ document ∈ call.document, document.Shallow) ∧ ∀ document ∈ call.imported, RootedDocument document
  | .identity i call _ _ => ∀ self ∈ w.identities[i]?, ∀ file ∈ w.store.identities self.identityId,
      ∀ document ∈ call.document file, document.Shallow ∧ (file.Unplaced anp → SingleDevice anp document file.keys)
  | _ => True

section
variable (anp : Anp)

instance (document : Value) {p : DeviceManifest → Prop} [DecidablePred p] :
    Decidable (∀ manifest, anp.validateDeviceManifest document = .ok (some manifest) → p manifest) :=
  match listed : anp.validateDeviceManifest document with
  | .ok (some manifest) => decidable_of_iff (p manifest) ⟨fun holds other same => by cases same; exact holds, fun all => all _ rfl⟩
  | .ok none => .isTrue (fun _ same => nomatch same)
  | .error _ => .isTrue (fun _ same => nomatch same)

instance (document : Value) (keys : List KeyMetadata) : Decidable (SingleDevice anp document keys) :=
  inferInstanceAs (Decidable (∀ _, _ → _))

instance (record : IdentityRecord) : Decidable (record.Unplaced anp) :=
  decidable_of_iff (record.localAuthorization = none ∧ ∀ manifest,
    anp.validateDeviceManifest record.document = .ok (some manifest) → localDevices manifest record.keys = [])
    ⟨fun both => ⟨both.1, both.2⟩, fun unplaced => ⟨unplaced.1, unplaced.2⟩⟩

instance (document : Value) : Decidable (RootedDocument document) :=
  inferInstanceAs (Decidable (∀ did ∈ document.getStr "id", Text.startsWith did "did:wba:" = true))

instance (w : World) : (event : Event) → Decidable (event.Places anp w)
  | .store _ call _ _ => inferInstanceAs (Decidable ((∀ document ∈ call.document, document.Shallow) ∧
      ∀ document ∈ call.imported, RootedDocument document))
  | .identity i call _ _ => inferInstanceAs (Decidable (∀ self ∈ w.identities[i]?,
      ∀ file ∈ w.store.identities self.identityId, ∀ document ∈ call.document file,
        document.Shallow ∧ (file.Unplaced anp → SingleDevice anp document file.keys)))
  | .openStore _ => .isTrue trivial
  | .identityTransitions _ => .isTrue trivial

end

/-- What a revision has to satisfy for its document to be readable once it is committed. -/
structure Presentable (anp : Anp) (pending : PendingRevisionRecord) : Prop where
  manifest : ∃ manifest, anp.validateDeviceManifest pending.candidateDocument = .ok manifest
  keys : ∀ key ∈ pending.newKeyMetadata, key.role ≠ .rootControl ∧ (key.origin = .managed → key.role = .requestSigning)

section
variable {anp : Anp} {entropy : Entropy} {s : Store} {record next seen file : IdentityRecord} {document : Value}

variable {keys : List KeyMetadata} {spec : DocumentUpdateSpec} {pending : PendingRevisionRecord}

theorem inferLocalAuthorization_single {manifest : Option DeviceManifest}
    (listed : anp.validateDeviceManifest document = .ok manifest) (single : SingleDevice anp document keys) :
    (inferLocalAuthorization anp document keys).isOk = true := by
  unfold inferLocalAuthorization
  rw [listed]
  cases manifest with
  | none => rfl
  | some manifest =>
    have one := single manifest listed
    change (reject ((localDevices manifest keys).length > 1) .invalidExtension >>= _).isOk = true
    rw [reject, if_neg (Nat.not_lt.mpr one)]
    rfl

/-- A record that is read without a local device is unplaced. -/
theorem unplaced_of_completed (completed : completeRecord anp file = .ok seen) (none : seen.localAuthorization = none) :
    file.Unplaced anp := by
  obtain ⟨-, given, -⟩ := completeRecord_seen completed
  rw [none] at given
  unfold completeAuthorization at given
  split at given
  · cases given
  · rename_i unnamed
    refine ⟨unnamed, fun manifest listed => ?_⟩
    simp only [inferLocalAuthorization, listed, except_bind_ok, mapErr_ok, Except.ok.injEq] at given
    obtain ⟨_, rfl, given⟩ := given
    obtain ⟨_, -, same⟩ := except_bind_ok.mp given
    simpa using same

/-! ## Revisions -/

private theorem addedKeys_apart {changes : CandidateChanges} {rotation : Option PreparedRotation}
    (built : buildCandidateDocument anp entropy s record rotation spec = .ok changes) :
    ∀ key ∈ changes.addedKeys, key.2 ≠ .rootControl := by
  obtain ⟨stored, turned, requested, manifest, changed, written, stages⟩ := buildCandidateDocument_ok built
  have applies := (applyRequestSigningMutations_applies stages.requests).trans (applyDeviceMutationList_applies stages.devices).1
  intro key inside
  rw [stages.added, applies.added, List.nil_append, List.mem_filterMap] at inside
  obtain ⟨edit, listed, same⟩ := inside
  cases edit with
  | add kid role method =>
    cases same
    exact (applies.proper _ listed).2
  | retire => cases same

theorem planUpdate_presentable {plan : UpdatePlan} {digest : String}
    (planned : planUpdate anp entropy s record spec = .ok plan) : Presentable anp (plan.pending entropy record digest) := by
  obtain ⟨added, turned, plans⟩ := planUpdate_plans planned
  refine ⟨buildCandidateDocument_manifest plans.built, fun key inside => ?_⟩
  change key ∈ plan.newMetadata at inside
  rw [plans.metadata] at inside
  rcases List.mem_append.mp inside with old | new
  · obtain ⟨source, listed, metadata⟩ := mapM_ok plans.described key old
    have describes := keyMetadata_ok metadata
    refine ⟨describes.role ▸ addedKeys_apart plans.built source listed, fun managed => ?_⟩
    rw [describes.origin] at managed
    cases managed
  · obtain ⟨_, -, describes⟩ := plans.turns key new
    rw [describes.role]
    exact ⟨by simp, fun _ => rfl⟩

theorem inheres_presentable : Inheres anp (fun _ pending => Presentable anp pending) where
  planned := planUpdate_presentable
  moved presentable := ⟨presentable.manifest, presentable.keys⟩

/-! ## Records -/

private theorem localDevices_append {added : List KeyMetadata} (manifest : DeviceManifest)
    (other : ∀ key ∈ added, key.origin = .managed → key.role = .requestSigning) :
    localDevices manifest (keys ++ added) = localDevices manifest keys := by
  have apart : ∀ role kid, role ≠ .requestSigning →
      added.any (fun key => key.origin == .managed && key.role == role && key.kid == kid) = false := by
    intro role kid apart
    refine List.any_eq_false.mpr (fun key inside => ?_)
    simp only [Bool.and_eq_true, beq_iff_eq, not_and]
    rintro ⟨managed, same⟩
    exact absurd (same.symm.trans (other key inside managed)) apart
  unfold localDevices
  refine List.filter_congr (fun device _ => ?_)
  rw [List.any_append, List.any_append, apart .deviceSigning device.signingKeyId (by simp),
    apart .e2eeAgreement device.e2eeKeyId (by simp), Bool.or_false, Bool.or_false]

private theorem Committed.fits (committed : Committed anp record pending next) (presentable : Presentable anp pending)
    (fits : record.Fits anp) : next.Fits anp := by
  obtain ⟨profile, known, traces⟩ := fits
  refine ⟨profile, by rw [committed.did]; exact known, ?_⟩
  rw [committed.rootKeyFingerprint, committed.rootCapability]
  split at traces
  · rename_i root
    rw [if_pos root]
    exact traces
  · rename_i rootless
    obtain ⟨nothing, absent, none⟩ := traces
    obtain ⟨keys, faces, added, -⟩ := committed.authorised
    rw [if_neg rootless]
    refine ⟨nothing, absent, ?_⟩
    rw [added, List.any_append, Bool.or_eq_false_iff]
    refine ⟨(any_face faces (fun face => face.2.1 == .rootControl)).trans none, List.any_eq_false.mpr (fun key inside => ?_)⟩
    simpa using (presentable.keys key inside).1

/-- A revision can be read once it is committed if its document leaves the local device determined. -/
theorem commitRecord_readable {revisionId : String} {fromReconcile : Bool} {evidence : Option VerifiedDocumentEvidence}
    (fits : seen.Fits anp) (found : seen.pendingRevision = some pending) (presentable : Presentable anp pending)
    (made : commitRecord anp seen revisionId fromReconcile evidence = .ok next)
    (single : seen.localAuthorization = none → SingleDevice anp pending.candidateDocument seen.keys) :
    ∃ shown, completeRecord anp next = .ok shown := by
  have committed := commitRecord_ok found made
  obtain ⟨keys, faces, added, refreshed⟩ := committed.authorised
  have checked : next.checkpoint.isSome = true := by
    obtain ⟨_, commits⟩ := commitRecord_commits made
    obtain ⟨_, _, _, _, -, -, -, -, -, rfl⟩ := commits.committed
    rfl
  refine (readable_iff (committed.fits presentable fits) checked).mpr (fun none => ?_)
  rw [refreshed, refreshCompatibleLocalProfiles_none] at none
  have devices : ∀ manifest, localDevices manifest next.keys = localDevices manifest seen.keys := by
    intro manifest
    rw [added, localDevices_append manifest (fun key inside => (presentable.keys key inside).2), localDevices_congr manifest faces]
  obtain ⟨manifest, listed⟩ := presentable.manifest
  rw [committed.document, inferLocalAuthorization_devices devices]
  exact inferLocalAuthorization_single listed (single none)

section
variable {self : DidIdentity} {action : IdentityAction} {call : IdentityCall}

/-- What a call stores can be read if the document that it brings leaves the local device determined. -/
theorem IdentityCall.Starts.readable (started : call.Starts anp s self entropy action)
    (completed : completeRecord anp file = .ok action.seen)
    (presentable : action.seen.Pending (fun _ pending => Presentable anp pending)) (stores : action.Stores anp entropy record)
    (single : ∀ document, call.document action.seen = some document → action.seen.localAuthorization = none →
      SingleDevice anp document action.seen.keys) : ∃ shown, completeRecord anp record = .ok shown := by
  have fits := completeRecord_fits completed
  have kept : ∀ {next : IdentityRecord}, next.SameBasis action.seen → ∃ shown, completeRecord anp next = .ok shown :=
    fun same => ⟨_, completeRecord_again completed same⟩
  have moves : ∀ {revisionId expected state}, MovesPublication anp s self revisionId expected state action →
      ∃ shown, completeRecord anp record = .ok shown := by
    rintro revisionId expected state ⟨seen, next, -, -, made, rfl⟩
    cases stores
    obtain ⟨pending, -, -, -, rfl⟩ := transitionRecord_moves made
    exact kept ⟨rfl, rfl, rfl, rfl, rfl, rfl, rfl⟩
  have commits : ∀ {revisionId fromReconcile evidence}, CommitsRevision anp s self revisionId fromReconcile evidence action →
      call.document action.seen = action.seen.pendingRevision.map (·.candidateDocument) →
      ∃ shown, completeRecord anp record = .ok shown := by
    rintro revisionId fromReconcile evidence ⟨seen, next, -, -, made, rfl⟩ same
    cases stores
    obtain ⟨pending, commits⟩ := commitRecord_commits made
    have found : seen.pendingRevision = some pending := commits.found
    refine commitRecord_readable fits found (presentable pending found) made (single pending.candidateDocument ?_)
    rw [same]
    exact congrArg (Option.map _) found
  have discards : ∀ {revisionId rejection}, DiscardsRevision anp s self revisionId rejection action →
      ∃ shown, completeRecord anp record = .ok shown := by
    rintro revisionId rejection ⟨seen, pending, -, -, -, -, rfl⟩
    cases stores
    exact kept ⟨rfl, rfl, rfl, rfl, rfl, rfl, rfl⟩
  have adopts : ∀ {spec siblingOnly}, AdoptsDocument anp s self spec siblingOnly action →
      call.document action.seen = some spec.document → ∃ shown, completeRecord anp record = .ok shown := by
    rintro spec siblingOnly ⟨seen, outcome, next, -, verified, -, -, made, rfl⟩ same
    cases stores
    obtain ⟨-, -, manifest, -, -, listed⟩ := validateVerifiedDocument_ok verified
    exact ((adoptRecord_rewrites made).1.readable_iff fits).mpr
      (fun none => inferLocalAuthorization_single listed (single spec.document same none))
  have imports : ∀ {transfer}, ImportsTransfer anp s self entropy transfer action →
      ∃ shown, completeRecord anp record = .ok shown := by
    rintro transfer ⟨seen, -, ⟨next, decided, rfl⟩ | ⟨ref, next, decided, rfl⟩⟩
    · cases stores
      cases decideRootImport_transfers decided
      exact kept ⟨rfl, rfl, rfl, rfl, rfl, rfl, rfl⟩
    · cases stores
      exact (decideRootImport_imported decided).readable completed
  cases call with
  | prepareUpdate spec =>
    obtain ⟨seen, plan, -, -, -, rfl⟩ := started
    obtain ⟨digest, -, rfl⟩ := stores
    exact kept ⟨rfl, rfl, rfl, rfl, rfl, rfl, rfl⟩
  | beginPublication revisionId => exact moves started
  | markPublicationUncertain revisionId => exact moves started
  | rejectPublicationBeforeAcceptance revisionId => exact moves started
  | commitVerifiedUpdate revisionId fromReconcile evidence => exact commits started rfl
  | reconcileUpdate revisionId observed =>
    obtain ⟨-, -, -, -, -, ⟨-, confirmed⟩ | ⟨-, -, returned⟩⟩ := started
    · exact commits confirmed rfl
    · exact moves returned
  | abortUpdate revisionId | reconcileRejectedUpdate revisionId observation => exact discards started
  | adoptVerifiedDocument spec | adoptVerifiedSiblingDocument spec => exact adopts started rfl
  | importWrappedRoot envelope now =>
    obtain ⟨_, _, -, -, -, brings⟩ := started
    exact imports brings
  | importLegacyRootTransfer spec =>
    obtain ⟨_, _, -, -, -, brings⟩ := started
    exact imports brings
  | confirmRootPromotion spec =>
    obtain ⟨seen, next, -, -, verified, -, -, -, made, rfl⟩ := started
    cases stores
    obtain ⟨-, -, manifest, -, -, listed⟩ := validateVerifiedDocument_ok verified
    exact ((promoteRecord_rewrites fits made).1.readable_iff fits).mpr
      (fun none => inferLocalAuthorization_single listed (single spec.document rfl none))
  | reload => exact started.elim

end

/-- What a call on a store introduces can be read, an import of an identity without a root key apart. -/
theorem StoreCall.Starts.readable (documented : anp.Documented) {self : DidStore} {call : StoreCall}
    {action : StoreAction} (started : call.Starts anp s self entropy action) (makes : action.Makes anp entropy record)
    (rooted : ∀ document, call.imported = some document → RootedDocument document) :
    ∃ shown, completeRecord anp record = .ok shown := by
  cases call with
  | createIdentity spec =>
    obtain ⟨built, -, -, builds, rfl⟩ := started
    exact ⟨record, createdRecord_complete documented builds makes⟩
  | prepareEnrollment spec =>
    obtain ⟨did, signingKid, e2eeKid, -, -, named, -, -, -, -, -, rfl⟩ := started
    exact enrolledRecord_readable named makes
  | prepareRequestSigningEnrollment spec =>
    obtain ⟨did, kid, -, verified, named, -, -, rfl⟩ := started
    exact requestSigningEnrolledRecord_readable verified named makes
  | importIdentity spec =>
    obtain ⟨did, imported, -, ⟨verified, named, -⟩, -, rfl⟩ := started
    exact importedRecord_readable verified named makes (rooted _ rfl did named)
  | importDeviceIdentity spec =>
    obtain ⟨did, imported, rootKid, -, ⟨verified, named, -⟩, -, -, rfl⟩ := started
    exact importedDeviceRecord_readable verified named makes (rooted _ rfl did named)
  | importRequestSigningIdentity spec =>
    obtain ⟨did, imported, request, rootKid, -, ⟨verified, named, -⟩, -, -, -, rfl⟩ := started
    exact importedRequestSigningRecord_readable verified named makes (rooted _ rfl did named)
  | discardUnpublishedEnrollment did identityId generation
  | deleteIdentityNamespace did generation
  | deleteIdentityNamespaceDiscardingPending did generation =>
    obtain ⟨record, -, rfl⟩ := started
    exact makes.elim
  | openIdentity did | reload => exact started.elim

/-! ## Documents -/

/-- `serde_json` reads the documents of the record back, also once the pending one is committed. -/
structure IdentityRecord.Shallow (record : IdentityRecord) : Prop where
  document : record.document.Shallow
  pending : ∀ pending, record.pendingRevision = some pending → pending.candidateDocument.Shallow

theorem IdentityRecord.Shallow.parses (shallow : record.Shallow) : record.parses = true := by
  have document := shallow.document
  unfold Value.Shallow at document
  simp only [IdentityRecord.parses, Bool.and_eq_true, decide_eq_true_eq, Option.all_eq_true]
  exact ⟨by omega, shallow.pending⟩

theorem IdentityRecord.Shallow.completed (shallow : file.Shallow) (completed : completeRecord anp file = .ok seen) : seen.Shallow := by
  have mirrors := Shown.mirrors (.inr completed : Shown anp file seen)
  refine ⟨?_, ?_⟩
  · rw [mirrors.document]
    exact shallow.document
  · rw [mirrors.pendingRevision]
    exact shallow.pending

/-- What a call stores is not deep if the document that it brings is not. -/
theorem IdentityCall.Starts.shallow {self : DidIdentity} {action : IdentityAction} {call : IdentityCall} (flat : anp.Flat)
    (started : call.Starts anp s self entropy action) (stores : action.Stores anp entropy record) (shallow : action.seen.Shallow)
    (brought : ∀ document, call.document action.seen = some document → document.Shallow) : record.Shallow := by
  cases started.started.2 with
  | @prepare seen plan spec active planned =>
    obtain ⟨digest, -, rfl⟩ := stores
    refine ⟨shallow.document, ?_⟩
    rintro _ ⟨⟩
    obtain ⟨_, _, plans⟩ := planUpdate_plans planned
    exact buildCandidateDocument_shallow flat shallow.document plans.built
  | discard =>
    cases stores
    exact ⟨shallow.document, by rintro _ ⟨⟩⟩
  | @moved _ _ _ _ _ pending _ _ moves =>
    cases stores
    obtain ⟨found, -, -, rfl⟩ := moves
    refine ⟨shallow.document, ?_⟩
    rintro _ ⟨⟩
    exact shallow.pending pending found
  | committed _ commits =>
    cases stores
    obtain ⟨_, _, _, _, -, -, -, -, -, rfl⟩ := commits.committed
    exact ⟨shallow.pending _ commits.found, by rintro _ ⟨⟩⟩
  | @adopted seen next spec siblingOnly _ _ _ adopts =>
    cases stores
    obtain ⟨changed, _, _, readjusts, -, rfl⟩ := adopts.adopted
    refine ⟨?_, fun revision found => shallow.pending revision (readjusts.pendingRevision ▸ found)⟩
    cases started.edits <;> exact brought _ rfl
  | promoted _ _ promotes =>
    cases stores
    obtain ⟨_, -, rfl⟩ := promotes.promoted
    refine ⟨?_, shallow.pending⟩
    cases started.edits
    exact brought _ rfl
  | replayed _ transfers =>
    cases stores
    cases transfers
    exact ⟨shallow.document, shallow.pending⟩
  | imported _ transfers =>
    cases stores
    cases transfers
    exact ⟨shallow.document, shallow.pending⟩

/-! ## Runs -/

/-- The file can be read, and its pending revision after a commit. -/
structure Legible (anp : Anp) (file : IdentityRecord) : Prop where
  readable : ∃ seen, completeRecord anp file = .ok seen
  pending : file.Pending (fun _ pending => Presentable anp pending)
  shallow : file.Shallow

theorem Event.Begins.placed {w : World} {event : Event} {self : DidIdentity} {call : IdentityCall}
    {action : IdentityAction} (began : event.Begins anp w entropy self call action) (places : event.Places anp w) :
    ∀ document, call.document action.seen = some document →
      document.Shallow ∧ (action.seen.localAuthorization = none → SingleDevice anp document action.seen.keys) := by
  obtain ⟨rfl, held, started⟩ := began
  intro document brings
  obtain ⟨file, found, -, completed⟩ := readIdentity_ok.mp started.started.1.read
  have mirrors := Shown.mirrors (.inr completed : Shown anp file action.seen)
  rw [mirrors.keys]
  have brought : call.document file = some document := by
    rw [← brings]
    cases call <;> simp only [IdentityCall.document, mirrors.pendingRevision]
  obtain ⟨shallow, single⟩ := places self held file found document brought
  exact ⟨shallow, fun none => single (unplaced_of_completed completed none)⟩

private theorem raised_readable (next : IdentityRecord) :
    (∃ shown, completeRecord anp { next with generation := next.generation + 1 } = .ok shown) ↔
      ∃ shown, completeRecord anp next = .ok shown := by
  constructor
  · rintro ⟨shown, completed⟩
    obtain ⟨fingerprint, checkpoint, authorization, hf, hc, ha, -⟩ := completeRecord_ok.mp completed
    exact ⟨_, completeRecord_ok.mpr ⟨fingerprint, checkpoint, authorization, hf, hc, ha, rfl⟩⟩
  · rintro ⟨shown, completed⟩
    obtain ⟨fingerprint, checkpoint, authorization, hf, hc, ha, -⟩ := completeRecord_ok.mp completed
    exact ⟨_, completeRecord_ok.mpr ⟨fingerprint, checkpoint, authorization, hf, hc, ha, rfl⟩⟩

private theorem Rewrite.legible {w : World} {event : Event} (flat : anp.Flat) (places : event.Places anp w) (legible : Legible anp file)
    (rewrites : Rewrite anp w event s file record) : Legible anp record := by
  suffices both : (∃ shown, completeRecord anp record = .ok shown) ∧ record.Shallow from
    ⟨both.1, rewrites.pending inheres_presentable legible.pending, both.2⟩
  cases rewrites with
  | activate shown =>
    rcases shown with rfl | completed
    · obtain ⟨seen, completed⟩ := legible.readable
      obtain ⟨fingerprint, checkpoint, authorization, hashed, checked, given, -⟩ := completeRecord_ok.mp completed
      exact ⟨⟨_, completeRecord_ok.mpr ⟨fingerprint, checkpoint, authorization, hashed, checked, given, rfl⟩⟩,
        legible.shallow.document, legible.shallow.pending⟩
    · have shallow := legible.shallow.completed completed
      exact ⟨⟨_, completeRecord_again completed ⟨rfl, rfl, rfl, rfl, rfl, rfl, rfl⟩⟩, shallow.document, shallow.pending⟩
  | @act entropy self call action record began completed stores =>
    have placed := began.placed places
    obtain ⟨-, -, started⟩ := began
    have shallow := started.shallow flat stores (legible.shallow.completed completed) (fun document brings => (placed document brings).1)
    exact ⟨(raised_readable record).mpr (started.readable completed (legible.pending.completed completed) stores
      (fun document brings => (placed document brings).2)), shallow.document, shallow.pending⟩
  | clear _ _ completed =>
    have shallow := legible.shallow.completed completed
    exact ⟨⟨_, completeRecord_again completed ⟨rfl, rfl, rfl, rfl, rfl, rfl, rfl⟩⟩, shallow.document, by rintro _ ⟨⟩⟩

theorem World.legible_run (documented : anp.Documented) (flat : anp.Flat) {events : List Event}
    (meets : World.initial.Meets anp (fun w event => event.Places anp w) events) {id : String}
    (found : (World.initial.run anp events).store.identities id = some file) : Legible anp file := by
  refine World.file_invariant (P := Legible anp) ?_ (fun _ _ _ _ _ places legible rewrites => rewrites.legible flat places legible)
    meets found
  intro w event entropy self call action made places brought makes
  obtain ⟨rfl, -, started⟩ := brought
  have new := started.isNew makes
  have clear := new.pendingRevision
  refine ⟨started.readable documented makes places.2, .of_clear clear, ?_, fun pending found => ?_⟩
  · rcases new.document with given | ⟨spec, built, builds, same⟩
    · exact places.1 _ given
    · rw [same]
      exact buildIdentity_shallow flat builds
  · cases clear.symm.trans found

end

namespace Plain

theorem anp_documented : anp.Documented where
  builds domain options document made := by
    cases made
    obtain ⟨more, same⟩ := path_startsWith "did:wba:" (options.pathSegments ++ [e1Segment options.rootKey.publicKey]) domain
    refine ⟨"did:wba:" ++ more, ?_, by simp [Text.startsWith]⟩
    rw [← same]
    simp [Object.of, Value.getStr, Value.get, Value.asObject, Value.asStr, Object.get_insert_of_ne]
  proves document _ kid _ prepared _ signed prepares completes := by
    change prepareProof document kid = .ok prepared at prepares
    cases completes
    cases document with
    | object fields =>
      cases prepares
      exact getStr_insert (by decide) ..
    | _ => cases prepares

theorem strings_levels (list : List String) : (Value.array (list.map .string)).levels ≤ 1 :=
  Value.levels_array.mpr (by simp)

theorem anp_flat : anp.Flat where
  builds domain options document made few := by
    cases made
    refine Value.shallow_object.mpr (Object.within_of ?_)
    have methods : ∀ did (keys : List SuppliedDidKey), (Value.array (keys.map (methodOf did))).levels ≤ 124 := by
      refine fun did keys => Value.levels_array.mpr (fun item inside => ?_)
      obtain ⟨key, -, rfl⟩ := List.mem_map.mp inside
      exact (Value.levels_object.mpr (Object.within_of (by simp)) : (methodOf did key).levels ≤ 123)
    have listed : ∀ did (keys : List SuppliedDidKey),
        (Value.array (keys.map (fun key => .string (did ++ "#" ++ key.fragment)))).levels ≤ 124 :=
      fun did keys => Value.levels_array.mpr (by simp)
    have services : (Value.array options.services).levels ≤ 124 :=
      Value.levels_array.mpr (fun service inside => (few service inside).trans (by decide))
    simp only [List.forall_mem_cons, Value.levels_string, methods, services, listed, Nat.zero_le, List.not_mem_nil,
      false_implies, implies_true, and_self]
  proves document _ kid _ prepared _ signed prepares completes shallow := by
    change prepareProof document kid = .ok prepared at prepares
    cases completes
    cases document with
    | object fields =>
      cases prepares
      exact Value.shallow_object.mpr ((Value.shallow_object.mp shallow).insert (Value.levels_object.mpr (by simp [Object.Within])))
    | _ => cases prepares
  lists manifest value rendered := by
    cases rendered
    have devices : (Value.array (manifest.devices.map entryValue)).levels ≤ 3 := by
      refine Value.levels_array.mpr (fun item inside => ?_)
      obtain ⟨entry, -, rfl⟩ := List.mem_map.mp inside
      exact Value.levels_object.mpr (Object.within_of (by simp [strings_levels]))
    have few : (manifestValue manifest).levels ≤ 4 := Value.levels_object.mpr (Object.within_of (by simp [devices]))
    unfold recursionLimit
    omega

/-- A Web identity with the keys of two devices and no manifest. -/
def twoDeviceSpec : DidCreateSpec :=
  { webSpec with managedKeys := [{ fragment := "s", role := .deviceSigning }, { fragment := "e", role := .e2eeAgreement },
      { fragment := "t", role := .deviceSigning }, { fragment := "f", role := .e2eeAgreement }] }

/-- The document of that identity with a manifest that lists the devices. -/
def listedDocument (devices : List DeviceManifestEntry) : Value :=
  .object (Object.of [("id", .string "did:web:a.b"),
    ("verificationMethod", .array [method "did:web:a.b#s" (.ed25519 [1, 1]), method "did:web:a.b#e" (.x25519 [2, 2]),
      method "did:web:a.b#t" (.ed25519 [3, 3]), method "did:web:a.b#f" (.x25519 [4, 4])]),
    ("authentication", .array [.string "did:web:a.b#s", .string "did:web:a.b#t"]),
    ("assertionMethod", .array [.string "did:web:a.b#s", .string "did:web:a.b#t"]),
    ("keyAgreement", .array [.string "did:web:a.b#e", .string "did:web:a.b#f"]),
    ("deviceManifest", manifestValue { manifestType := "DeviceManifest", devices })])

def webDeviceOne : DeviceManifestEntry where
  deviceId := "d"
  signingKeyId := "did:web:a.b#s"
  e2eeKeyId := "did:web:a.b#e"
  profiles := ["p"]

def webDeviceTwo : DeviceManifestEntry where
  deviceId := "c"
  signingKeyId := "did:web:a.b#t"
  e2eeKeyId := "did:web:a.b#f"
  profiles := ["p"]

/-- The identity is created and adopts a document that lists the devices. -/
def listed (devices : List DeviceManifestEntry) : List Event :=
  [.openStore none, .store 0 (.createIdentity twoDeviceSpec) (entropy "0" 1) none,
   .identity 0 (.adoptVerifiedDocument ⟨listedDocument devices, evidence 2 (listedDocument devices)⟩) (entropy "1" 1) none]

end Plain

end AnpIdentity
