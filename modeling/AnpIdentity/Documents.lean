import AnpIdentity.History

/-! The stored document over a run. A document is replaced by a commit, an adoption or a root promotion, and
every other rewriting of a record leaves it, its checkpoint and the retired devices as they are. -/

namespace AnpIdentity
open Durable Program
variable (anp : Anp)

/-- Calls on identities meet a condition on the handle, the call and the stored record. -/
def Calls (condition : DidIdentity → IdentityCall → IdentityRecord → Prop) (w : World) : Event → Prop
  | .identity handle call _ _ => ∀ self ∈ w.identities[handle]?,
      ∀ seen ∈ (w.store.readIdentity anp self.identityId).toOption, condition self call seen
  | _ => True

instance (condition : DidIdentity → IdentityCall → IdentityRecord → Prop)
    [∀ self call seen, Decidable (condition self call seen)] (w : World) : ∀ event, Decidable (Calls anp condition w event)
  | .identity .. => inferInstanceAs (Decidable (∀ self ∈ _, _))
  | .openStore _ | .store .. | .identityTransitions _ => isTrue trivial

/-- What belongs to the document of a record is the same. -/
structure SameDocument (old new : IdentityRecord) : Prop where
  document : new.document = old.document
  revision : new.revision = old.revision
  checkpoint : new.checkpoint = old.checkpoint
  initialPublicationPending : new.initialPublicationPending = old.initialPublicationPending
  retiredDeviceIds : new.retiredDeviceIds = old.retiredDeviceIds

/-- The event replaces the document of a record. -/
inductive Republishes (w : World) (event : Event) (seen next : IdentityRecord) : Prop
  | committed {entropy : Entropy} {self : DidIdentity} {call : IdentityCall} {revisionId : String} {fromReconcile : Bool}
      {evidence : Option VerifiedDocumentEvidence} {pending : PendingRevisionRecord}
      (began : event.Begins anp w entropy self call (.edit (.committed revisionId fromReconcile evidence) seen next))
      (commits : Commits anp seen revisionId fromReconcile evidence next pending)
  | adopted {entropy : Entropy} {self : DidIdentity} {call : IdentityCall} {spec : AdoptVerifiedDocumentSpec}
      {siblingOnly : Bool} (began : event.Begins anp w entropy self call (.edit (.adopted spec siblingOnly) seen next))
      (verified : validateVerifiedDocument anp spec.document spec.evidence = .ok ())
      (adoptable : Adoptable anp self seen spec siblingOnly) (adopts : Adopts anp seen spec siblingOnly next)
  | promoted {entropy : Entropy} {self : DidIdentity} {call : IdentityCall} {spec : RootPromotionSpec}
      (began : event.Begins anp w entropy self call (.edit (.promoted spec) seen next))
      (verified : validateVerifiedDocument anp spec.document spec.evidence = .ok ()) (promotes : Promotes seen spec next)

section
variable {anp} {w : World} {event : Event} {s : Store} {entropy : Entropy} {self : DidIdentity} {action : IdentityAction}
  {file record seen next : IdentityRecord}

variable {call : IdentityCall} {current : DocumentCheckpoint}

theorem Event.Begins.reads (began : event.Begins anp w entropy self call action) :
    w.store.readIdentity anp self.identityId = .ok action.seen := by
  obtain ⟨-, -, started⟩ := began
  exact started.started.1.read

theorem Calls.holds {condition : DidIdentity → IdentityCall → IdentityRecord → Prop} (calls : Calls anp condition w event)
    (began : event.Begins anp w entropy self call action) : condition self call action.seen := by
  have read := began.reads
  obtain ⟨rfl, held, -⟩ := began
  exact calls self held _ (by rw [read]; rfl)

theorem SameDocument.refl (record : IdentityRecord) : SameDocument record record := ⟨rfl, rfl, rfl, rfl, rfl⟩

theorem SameDocument.trans {first second third : IdentityRecord} (same : SameDocument first second)
    (also : SameDocument second third) : SameDocument first third :=
  ⟨also.document.trans same.document, also.revision.trans same.revision, also.checkpoint.trans same.checkpoint,
    also.initialPublicationPending.trans same.initialPublicationPending,
    also.retiredDeviceIds.trans same.retiredDeviceIds⟩

/-- Reading a file whose checkpoint is recorded gives the document as it is. -/
theorem completeRecord_document (completed : completeRecord anp file = .ok seen)
    (recorded : file.checkpoint = some current) : SameDocument file seen := by
  obtain ⟨fingerprint, checkpoint, authorization, -, kept, -, rfl⟩ := completeRecord_ok.mp completed
  have same : checkpoint = current := by
    simp only [completeCheckpoint, recorded, Except.ok.injEq] at kept
    exact kept.symm
  exact ⟨rfl, rfl, by rw [recorded, same], rfl, rfl⟩

private theorem action_document (began : event.Begins anp w entropy self call action)
    (stores : action.Stores anp entropy record) :
    SameDocument action.seen record ∨ Republishes anp w event action.seen record := by
  have justified : Justified anp w.store self entropy action := by
    obtain ⟨-, -, started⟩ := began
    exact started.started.2
  cases justified with
  | prepare =>
    obtain ⟨digest, -, rfl⟩ := stores
    exact .inl ⟨rfl, rfl, rfl, rfl, rfl⟩
  | discard =>
    cases stores
    exact .inl ⟨rfl, rfl, rfl, rfl, rfl⟩
  | moved _ _ moves =>
    cases stores
    rw [moves.moved]
    exact .inl ⟨rfl, rfl, rfl, rfl, rfl⟩
  | committed _ commits =>
    cases stores
    exact .inr (.committed began commits)
  | adopted verified _ adoptable adopts =>
    cases stores
    exact .inr (.adopted began verified adoptable adopts)
  | promoted verified _ promotes =>
    cases stores
    exact .inr (.promoted began verified promotes)
  | replayed _ transfers =>
    cases stores
    cases transfers
    exact .inl ⟨rfl, rfl, rfl, rfl, rfl⟩
  | imported _ transfers =>
    cases stores
    cases transfers
    exact .inl ⟨rfl, rfl, rfl, rfl, rfl⟩

/-- A rewriting leaves the document or replaces it. -/
theorem Rewrite.document (rewrites : Rewrite anp w event s file record) (recorded : file.checkpoint = some current) :
    SameDocument file record ∨ ∃ seen next, SameDocument file seen ∧ Republishes anp w event seen next ∧ SameDocument next record := by
  cases rewrites with
  | activate shown creating =>
    rcases shown with rfl | completed
    · exact .inl ⟨rfl, rfl, rfl, rfl, rfl⟩
    · exact .inl ((completeRecord_document completed recorded).trans ⟨rfl, rfl, rfl, rfl, rfl⟩)
  | act began completed stores _ =>
    have read := completeRecord_document completed recorded
    rcases action_document began stores with same | replaced
    · exact .inl (read.trans (same.trans ⟨rfl, rfl, rfl, rfl, rfl⟩))
    · exact .inr ⟨_, _, read, replaced, ⟨rfl, rfl, rfl, rfl, rfl⟩⟩
  | clear _ _ completed =>
    exact .inl ((completeRecord_document completed recorded).trans ⟨rfl, rfl, rfl, rfl, rfl⟩)

theorem Republishes.recorded (replaced : Republishes anp w event seen next) : ∃ current, next.checkpoint = some current := by
  cases replaced with
  | committed _ commits =>
    obtain ⟨_, _, _, committed, -, -, -, -, -, rfl⟩ := commits.committed
    exact ⟨committed, rfl⟩
  | @adopted _ _ _ spec _ _ _ _ adopts =>
    obtain ⟨_, _, _, -, -, rfl⟩ := adopts.adopted
    exact ⟨checkpoint spec.evidence, rfl⟩
  | @promoted _ _ _ spec _ _ promotes =>
    obtain ⟨_, -, rfl⟩ := promotes.promoted
    exact ⟨checkpoint spec.evidence, rfl⟩

/-- A record that has a checkpoint is replaced by one that has a checkpoint. -/
theorem Rewrite.recorded (rewrites : Rewrite anp w event s file record) (recorded : file.checkpoint = some current) :
    ∃ next, record.checkpoint = some next := by
  rcases rewrites.document recorded with same | ⟨seen, next, -, replaced, after⟩
  · exact ⟨current, by rw [same.checkpoint, recorded]⟩
  · obtain ⟨taken, is⟩ := replaced.recorded
    exact ⟨taken, by rw [after.checkpoint, is]⟩

end

/-! ## Checkpoints -/

/-- The checkpoint does not go back, and while its version stays the document stays. -/
structure Advances (old new : IdentityRecord) : Prop where
  versions : ∃ before after, old.checkpoint = some before ∧ new.checkpoint = some after ∧
    before.documentVersion ≤ after.documentVersion ∧ before.registryVersion ≤ after.registryVersion ∧
    (before.documentVersion = after.documentVersion →
      before.documentDigest = after.documentDigest ∧ documentDigest anp old.document = documentDigest anp new.document)

/-- The first publication of a document brings it back with another proof. -/
structure ConfirmsProof (old new : IdentityRecord) : Prop where
  awaits : old.initialPublicationPending = true
  cleared : new.initialPublicationPending = false
  first : ∃ before after, old.checkpoint = some before ∧ new.checkpoint = some after ∧
    before.documentVersion = 1 ∧ before.registryVersion = 1 ∧ after.documentVersion = 1 ∧ after.registryVersion = 1
  proof : ∃ before after, old.document.asObject = some before ∧ new.document.asObject = some after ∧
    before.remove "proof" = after.remove "proof"

/-- The records of an identity advance, but for at most one step that confirms the proof of the first document. -/
def Progression (records : List IdentityRecord) : Prop :=
  ∃ first last, records = first ++ last ∧ first.IsChain (Advances anp) ∧ last.IsChain (Advances anp) ∧
    ∀ old ∈ first.getLast?, ∀ new ∈ last.head?, Advances anp old new ∨ ConfirmsProof old new

/-- A revision is committed without evidence only if its number, which becomes the document version, is past the
checkpoint. -/
def NumbersAhead (self : DidIdentity) (call : IdentityCall) (seen : IdentityRecord) : Prop :=
  match call with
  | .reconcileUpdate revisionId observed => ∀ pending ∈ (requiredPending self.record revisionId).toOption,
      (canonicalDigest anp observed).toOption = some pending.candidateDigest →
      ∀ current ∈ seen.checkpoint, current.documentVersion ≤ seen.revision
  | _ => True

instance (self : DidIdentity) (call : IdentityCall) (seen : IdentityRecord) : Decidable (NumbersAhead anp self call seen) := by
  unfold NumbersAhead
  split <;> infer_instance

section
variable {anp} {w : World} {event : Event} {s : Store} {old new file record seen next : IdentityRecord}

/-- The checkpoint of a record belongs to its document. -/
def Vouched (anp : Anp) (record : IdentityRecord) : Prop :=
  ∃ current, record.checkpoint = some current ∧ documentDigest anp record.document = .ok current.documentDigest

theorem SameDocument.vouched (same : SameDocument old new) (vouched : Vouched anp old) : Vouched anp new := by
  obtain ⟨current, recorded, digest⟩ := vouched
  exact ⟨current, by rw [same.checkpoint, recorded], by rw [same.document, digest]⟩

theorem SameDocument.advances (same : SameDocument old new) (vouched : Vouched anp old) : Advances anp old new := by
  obtain ⟨current, recorded, digest⟩ := vouched
  exact ⟨current, current, recorded, by rw [same.checkpoint, recorded], le_refl _, le_refl _,
    fun _ => ⟨rfl, by rw [same.document]⟩⟩

theorem Advances.along (advances : Advances anp seen next) (before : SameDocument file seen)
    (after : SameDocument next record) : Advances anp file record := by
  obtain ⟨versions⟩ := advances
  rw [before.checkpoint, before.document, ← after.checkpoint, ← after.document] at versions
  exact ⟨versions⟩

theorem ConfirmsProof.along (confirms : ConfirmsProof seen next) (before : SameDocument file seen)
    (after : SameDocument next record) : ConfirmsProof file record := by
  obtain ⟨awaits, cleared, first, proof⟩ := confirms
  rw [before.initialPublicationPending] at awaits
  rw [← after.initialPublicationPending] at cleared
  rw [before.checkpoint, ← after.checkpoint] at first
  rw [before.document, ← after.document] at proof
  exact ⟨awaits, cleared, first, proof⟩

variable {evidence : VerifiedDocumentEvidence}

private theorem progression_advances {current : DocumentCheckpoint} (recorded : old.checkpoint = some current)
    (digest : documentDigest anp old.document = .ok current.documentDigest)
    (progress : validateCheckpointProgression (some current) evidence = .ok ())
    (taken : new.checkpoint = some (checkpoint evidence))
    (verified : documentDigest anp new.document = .ok evidence.documentDigest) : Advances anp old new := by
  simp only [validateCheckpointProgression, reject_ok, not_or, not_and, not_not, not_lt] at progress
  obtain ⟨version, registry, same⟩ := progress
  refine ⟨current, checkpoint evidence, recorded, taken, version, registry, fun equal => ?_⟩
  have agree : evidence.documentDigest = current.documentDigest := same equal.symm
  exact ⟨agree.symm, by rw [digest, verified, agree]⟩

private theorem isInitialProofConfirmation_confirms
    (confirms : isInitialProofConfirmation old new.document evidence = .ok true)
    (taken : ∃ after, new.checkpoint = some after ∧ after.documentVersion = evidence.documentVersion ∧
      after.registryVersion = evidence.registryVersion)
    (cleared : new.initialPublicationPending = false) : ConfirmsProof old new := by
  obtain ⟨after, taken, version, registry⟩ := taken
  simp only [isInitialProofConfirmation] at confirms
  split at confirms
  · cases confirms
  · rename_i first
    simp only [except_bind_ok, okOr_ok, Except.ok.injEq, beq_iff_eq] at confirms
    simp only [not_or, ne_eq, not_not, Bool.not_eq_true, Bool.not_eq_false', Option.any_eq_true, Bool.and_eq_true,
      beq_iff_eq] at first
    obtain ⟨awaits, -, -, -, one, two, current, recorded, three, four⟩ := first
    obtain ⟨before, shown, document, found, same⟩ := confirms
    refine ⟨awaits, cleared, ⟨current, after, recorded, taken, three, four, ?_, ?_⟩, before, document, shown, found, same⟩
    · rw [version, one]
    · rw [registry, two]

/-- What the checkpoint does when a document is replaced. -/
theorem Republishes.progress (replaced : Republishes anp w event seen next) (calls : Calls anp (NumbersAhead anp) w event)
    (vouched : Vouched anp seen) :
    Vouched anp next ∧ (Advances anp seen next ∨ ConfirmsProof seen next) ∧ next.initialPublicationPending = false := by
  obtain ⟨current, recorded, digest⟩ := vouched
  cases replaced with
  | @committed entropy self call revisionId fromReconcile evidence pending began commits =>
    obtain ⟨keys, authorization, retired, committed, -, -, -, versions, hashed, rfl⟩ := commits.committed
    refine ⟨⟨committed, rfl, hashed⟩, ?_, rfl⟩
    cases evidence with
    | none =>
      have ahead : current.documentVersion ≤ seen.revision := by
        have holds := calls.holds began
        obtain ⟨-, -, started⟩ := began
        cases started.edits with
        | observe found observes => exact holds _ (by rw [found]; rfl) (by rw [observes]; rfl) current recorded
      obtain ⟨version, registry⟩ := versions
      rw [recorded] at registry
      refine .inl ⟨current, committed, recorded, rfl, by omega, ?_, fun equal => by omega⟩
      rw [registry]
      exact Nat.le_succ _
    | some evidence =>
      obtain ⟨version, registry⟩ := versions
      have checked := commits.checked
      simp only [checkCommitEvidence, except_bind_ok] at checked
      obtain ⟨_, verified, confirmation, confirms, progress⟩ := checked
      have verified := verified_digest verified
      have same : committed.documentDigest = evidence.documentDigest := by
        rw [verified, Except.ok.injEq] at hashed
        exact hashed.symm
      cases confirmation with
      | true =>
        exact .inr (isInitialProofConfirmation_confirms confirms ⟨committed, rfl, version, registry⟩ rfl)
      | false =>
        rw [recorded] at progress
        have taken : committed = checkpoint evidence := by
          rw [checkpoint, ← version, ← registry, ← same]
        exact .inl (progression_advances recorded digest progress (by rw [← taken]) verified)
  | @adopted entropy self call spec siblingOnly began verified adoptable adopts =>
    obtain ⟨changed, authorization, retired, -, -, rfl⟩ := adopts.adopted
    have verified := verified_digest verified
    refine ⟨⟨checkpoint spec.evidence, rfl, verified⟩, ?_, rfl⟩
    rcases adoptable.progress with progress | ⟨-, confirms⟩
    · rw [recorded] at progress
      exact .inl (progression_advances recorded digest progress rfl verified)
    · exact .inr (isInitialProofConfirmation_confirms confirms ⟨checkpoint spec.evidence, rfl, rfl, rfl⟩ rfl)
  | @promoted entropy self call spec began verified promotes =>
    obtain ⟨keys, -, rfl⟩ := promotes.promoted
    have verified := verified_digest verified
    obtain ⟨before, shown, progress⟩ := promotes.progress
    have same : before = current := by
      rw [recorded] at shown
      cases shown
      rfl
    rw [same] at progress
    exact ⟨⟨checkpoint spec.evidence, rfl, verified⟩, .inl (progression_advances recorded digest progress rfl verified), rfl⟩

/-- Once the marker is gone, every link is of the first kind. -/
private theorem chain_unmarked {α : Type} {A B : α → α → Prop} {marked : α → Bool} {a : α} {l : List α}
    (once : ∀ a b, B a b → marked a = true) (clear : marked a = false)
    (chain : (a :: l).IsChain (fun a b => (A a b ∨ B a b) ∧ (marked b = true → marked a = true))) : (a :: l).IsChain A := by
  induction l generalizing a with
  | nil => exact .singleton a
  | cons b rest ih =>
    obtain ⟨⟨link, marks⟩, more⟩ := List.isChain_cons_cons.mp chain
    have still : marked b = false := by
      by_contra set
      rw [marks (by simpa using set)] at clear
      cases clear
    refine List.isChain_cons_cons.mpr ⟨link.resolve_right (fun other => ?_), ih still more⟩
    rw [once a b other] at clear
    cases clear

/-- A link that takes the marker away occurs at most once in a chain that never sets it. -/
private theorem chain_once {α : Type} {A B : α → α → Prop} {marked : α → Bool} {l : List α}
    (once : ∀ a b, B a b → marked a = true ∧ marked b = false)
    (chain : l.IsChain (fun a b => (A a b ∨ B a b) ∧ (marked b = true → marked a = true))) :
    ∃ first last, l = first ++ last ∧ first.IsChain A ∧ last.IsChain A ∧
      ∀ a ∈ first.getLast?, ∀ b ∈ last.head?, A a b ∨ B a b := by
  induction l with
  | nil => exact ⟨[], [], rfl, .nil, .nil, fun _ listed => nomatch listed⟩
  | cons a l ih =>
    cases l with
    | nil => exact ⟨[a], [], rfl, .singleton a, .nil, fun _ _ _ listed => nomatch listed⟩
    | cons b rest =>
      obtain ⟨⟨link, -⟩, more⟩ := List.isChain_cons_cons.mp chain
      rcases link with link | link
      · obtain ⟨first, last, split, before, after, joint⟩ := ih more
        cases first with
        | nil =>
          rw [List.nil_append] at split
          subst split
          exact ⟨[], a :: b :: rest, rfl, .nil, List.isChain_cons_cons.mpr ⟨link, after⟩, fun _ listed => nomatch listed⟩
        | cons c first =>
          rw [List.cons_append, List.cons.injEq] at split
          obtain ⟨rfl, split⟩ := split
          refine ⟨a :: b :: first, last, by rw [split]; rfl, List.isChain_cons_cons.mpr ⟨link, before⟩, after, ?_⟩
          rw [List.getLast?_cons_cons]
          exact joint
      · refine ⟨[a], b :: rest, rfl, .singleton a, chain_unmarked (fun a b other => (once a b other).1) (once a b link).2 more, ?_⟩
        intro x ends y starts
        cases ends
        cases starts
        exact .inr link

/-- In every run whose commits without evidence are numbered ahead of the checkpoint, checkpoints progress. -/
theorem checkpoints_progress {events : List Event} (meets : World.initial.Meets anp (Calls anp (NumbersAhead anp)) events)
    (id : String) : Progression anp (World.history anp events id) := by
  have along := World.chronicle (P := Vouched anp)
    (R := fun old new => (Advances anp old new ∨ ConfirmsProof old new) ∧
      (new.initialPublicationPending = true → old.initialPublicationPending = true)) ?_ ?_ meets id
  · exact chain_once (fun old new confirms => ⟨confirms.awaits, confirms.cleared⟩) along.1
  · intro w event entropy self call action made _ brought makes
    obtain ⟨-, -, started⟩ := brought
    exact (started.isNew makes).checkpoint
  · intro w event s file record calls vouched rewrites
    have ⟨current, recorded, _⟩ := vouched
    rcases rewrites.document recorded with same | ⟨seen, next, before, replaced, after⟩
    · exact ⟨same.vouched vouched, .inl (same.advances vouched), fun set => by rw [← same.initialPublicationPending, set]⟩
    · obtain ⟨vouches, progress, cleared⟩ := replaced.progress calls (before.vouched vouched)
      refine ⟨after.vouched vouches, ?_, ?_⟩
      · exact progress.imp (fun advances => advances.along before after) (fun confirms => confirms.along before after)
      · rw [after.initialPublicationPending, cleared]
        exact fun set => nomatch set

end

namespace Plain

/-- The document that the first handle of a run is about to publish. -/
def candidate (events : List Event) : Value :=
  ((World.initial.run Plain.anp events).identities.head?.bind (·.record.pendingRevision)).elim .null (·.candidateDocument)

/-- A service update is prepared. -/
def updated (events : List Event) : List Event := events ++ [.identity 0 (.prepareUpdate serviceUpdate) (entropy "1" 1) none]

/-- A service update is prepared and sent out, and its outcome gets lost. -/
def lost (events : List Event) : List Event :=
  updated events ++ [.identity 0 (.beginPublication "r1") (entropy "2" 1) none,
    .identity 0 (.markPublicationUncertain "r1") (entropy "3" 1) none]

/-- The document of the update is seen. -/
def observation (events : List Event) : Event :=
  .identity 0 (.reconcileUpdate "r1" (candidate (updated events))) (entropy "4" 1) none

def reconciled (events : List Event) : List Event := lost events ++ [observation events]

/-- The fifth version of a document, with its root key. -/
def fifthVersion : IdentityImportSpec where
  verifiedDocument := rootDocument []
  evidence := evidence 5 (rootDocument [])
  capabilities := {}
  privateKeys := [{ kid := "did:wba:a#r", role := .rootControl, encoding := .raw32, secret := (key 7).val }]

def imported : List Event := [.openStore none, .store 0 (.importIdentity fifthVersion) (entropy "0" 1) none]

end Plain

theorem checkpoints_progress_creation :
    World.initial.Meets Plain.anp (Calls Plain.anp (NumbersAhead Plain.anp)) (Plain.reconciled Plain.creation) ∧
      Progression Plain.anp (World.history Plain.anp (Plain.reconciled Plain.creation) "i0") := by
  have meets : World.initial.Meets Plain.anp (Calls Plain.anp (NumbersAhead Plain.anp)) (Plain.reconciled Plain.creation) := by
    decide +kernel
  exact ⟨meets, checkpoints_progress meets "i0"⟩

private theorem Progression.versions {anp : Anp} {records : List IdentityRecord} (progression : Progression anp records) :
    (records.map (fun record => (record.checkpoint.map (·.documentVersion)).getD 0)).IsChain (· ≤ ·) := by
  have step : ∀ old new, Advances anp old new → (old.checkpoint.map (·.documentVersion)).getD 0 ≤
      (new.checkpoint.map (·.documentVersion)).getD 0 := by
    rintro old new ⟨before, after, recorded, taken, version, -⟩
    simpa [recorded, taken] using version
  obtain ⟨first, last, rfl, before, after, joint⟩ := progression
  refine (List.isChain_map _).mpr (List.isChain_append.mpr ⟨before.imp step, after.imp step, fun old ends new starts => ?_⟩)
  rcases joint old ends new starts with advances | confirms
  · exact step old new advances
  · obtain ⟨before, after, recorded, taken, one, -, two, -⟩ := confirms.first
    simp [recorded, taken, one, two]

/-- A revision of the fifth version of an imported document that is committed without evidence becomes version 2. -/
theorem imported_checkpoint_regresses :
    World.initial.Meets Plain.anp (fun _ _ => True) (Plain.reconciled Plain.imported) ∧
      ¬ Progression Plain.anp (World.history Plain.anp (Plain.reconciled Plain.imported) "i0") := by
  refine ⟨by decide +kernel, fun progression => ?_⟩
  have versions := progression.versions
  revert versions
  decide +kernel

/-! ## Devices -/

/-- A promoted document keeps the devices of the stored document and lists none that is retired. -/
def PromotesDevices (_ : DidIdentity) (call : IdentityCall) (seen : IdentityRecord) : Prop :=
  match call with
  | .confirmRootPromotion spec => (∀ device ∈ deviceIds seen.document, device ∈ deviceIds spec.document) ∧
      ∀ device ∈ seen.retiredDeviceIds, device ∉ deviceIds spec.document
  | _ => True

instance (self : DidIdentity) (call : IdentityCall) (seen : IdentityRecord) : Decidable (PromotesDevices self call seen) := by
  unfold PromotesDevices
  split <;> infer_instance

/-- A device that a document no longer lists does not come back. -/
def RetiresDevices (records : List IdentityRecord) : Prop :=
  ∀ first second third device, [first, second, third].Sublist records → device ∈ deviceIds first.document →
    device ∉ deviceIds second.document → device ∉ deviceIds third.document

section
variable {anp} {w : World} {event : Event} {old new seen next : IdentityRecord}

/-- Devices stay listed or retire, and what is retired stays so and is not listed. -/
structure Retires (old new : IdentityRecord) : Prop where
  listed : ∀ device ∈ deviceIds old.document, device ∈ deviceIds new.document ∨ device ∈ new.retiredDeviceIds
  retired : ∀ device ∈ old.retiredDeviceIds, device ∈ new.retiredDeviceIds
  apart : ∀ device ∈ new.retiredDeviceIds, device ∉ deviceIds new.document

instance : Trans Retires Retires Retires where
  trans {first second third} before after := by
    refine ⟨fun device listed => ?_, fun device retired => after.retired device (before.retired device retired), after.apart⟩
    rcases before.listed device listed with still | retired
    · exact after.listed device still
    · exact .inr (after.retired device retired)

theorem Retires.along {file record : IdentityRecord} (retires : Retires seen next) (before : SameDocument file seen)
    (after : SameDocument next record) : Retires file record := by
  obtain ⟨listed, retired, apart⟩ := retires
  rw [before.document, ← after.document, ← after.retiredDeviceIds] at listed
  rw [before.retiredDeviceIds, ← after.retiredDeviceIds] at retired
  rw [← after.retiredDeviceIds, ← after.document] at apart
  exact ⟨listed, retired, apart⟩

theorem Observes.retires_into {document : Value} {retired : List String} (observes : Observes seen document retired)
    (taken : next.document = document) (kept : next.retiredDeviceIds = retired) : Retires seen next := by
  subst taken kept
  refine ⟨fun device listed => ?_, fun device gone => (observes.retires device).mpr (.inl gone), fun device gone => ?_⟩
  · by_cases still : device ∈ deviceIds next.document
    · exact .inl still
    · exact .inr ((observes.retires device).mpr (.inr ⟨listed, still⟩))
  · rcases (observes.retires device).mp gone with before | ⟨-, left⟩
    · exact observes.barred device before
    · exact left

theorem Republishes.retires (replaced : Republishes anp w event seen next) (calls : Calls anp PromotesDevices w event) :
    Retires seen next := by
  cases replaced with
  | committed _ commits =>
    obtain ⟨keys, authorization, retired, committed, -, -, observes, -, -, rfl⟩ := commits.committed
    exact observes.retires_into rfl rfl
  | adopted _ _ _ adopts =>
    obtain ⟨changed, authorization, retired, -, observes, rfl⟩ := adopts.adopted
    exact observes.retires_into rfl rfl
  | promoted began _ promotes =>
    obtain ⟨keys, -, rfl⟩ := promotes.promoted
    have holds := calls.holds began
    obtain ⟨-, -, started⟩ := began
    cases started.edits
    exact ⟨fun device listed => .inl (holds.1 device listed), fun _ gone => gone, holds.2⟩

/-- In every run whose promotions keep the devices of the stored document, retirement is permanent. -/
theorem devices_retire {events : List Event} (meets : World.initial.Meets anp (Calls anp PromotesDevices) events)
    (id : String) : RetiresDevices (World.history anp events id) := by
  have along := World.chronicle (P := fun record => (∃ current, record.checkpoint = some current) ∧
    ∀ device ∈ record.retiredDeviceIds, device ∉ deviceIds record.document) (R := Retires) ?_ ?_ meets id
  · intro first second third device inside listed unlisted
    have ordered := (List.isChain_iff_pairwise.mp along.1).sublist inside
    simp only [List.pairwise_cons, List.mem_cons, List.not_mem_nil, or_false, forall_eq_or_imp, forall_eq] at ordered
    obtain ⟨⟨before, -⟩, after, -⟩ := ordered
    rcases before.listed device listed with still | retired
    · exact absurd still unlisted
    · exact after.apart device (after.retired device retired)
  · intro w event entropy self call action made _ brought makes
    obtain ⟨-, -, started⟩ := brought
    have new := started.isNew makes
    obtain ⟨current, recorded, -⟩ := new.checkpoint
    refine ⟨⟨current, recorded⟩, ?_⟩
    rw [new.retiredDeviceIds]
    exact fun _ listed => nomatch listed
  · rintro w event s file record calls ⟨⟨current, recorded⟩, apart⟩ rewrites
    have retires : Retires file record := by
      rcases rewrites.document recorded with same | ⟨seen, next, before, replaced, after⟩
      · have stays : Retires file file := ⟨fun _ listed => .inl listed, fun _ gone => gone, apart⟩
        exact stays.along (.refl file) same
      · exact (replaced.retires calls).along before after
    exact ⟨⟨rewrites.recorded recorded, retires.apart⟩, retires⟩

end

namespace Plain

/-- The root is promoted by a third version of the document, and a fourth version is adopted. -/
def promoted (third fourth : List DeviceManifestEntry) : List Event :=
  rootImported ++
    [.identity 0 (.confirmRootPromotion ⟨rootDocument third, evidence 3 (rootDocument third)⟩) (entropy "3" 1) none,
     .identity 0 (.adoptVerifiedDocument ⟨rootDocument fourth, evidence 4 (rootDocument fourth)⟩) (entropy "4" 1) none]

end Plain

theorem devices_retire_promoted :
    World.initial.Meets Plain.anp (Calls Plain.anp PromotesDevices) (Plain.promoted [Plain.device] []) ∧
      RetiresDevices (World.history Plain.anp (Plain.promoted [Plain.device] []) "i0") := by
  have meets : World.initial.Meets Plain.anp (Calls Plain.anp PromotesDevices) (Plain.promoted [Plain.device] []) := by
    decide +kernel
  exact ⟨meets, devices_retire meets "i0"⟩

/-- A device that the promoted document drops is not retired, and the next document brings it back. -/
theorem promotion_forgets_device :
    World.initial.Meets Plain.anp (fun _ _ => True) (Plain.promoted [] [Plain.device]) ∧
      ¬ RetiresDevices (World.history Plain.anp (Plain.promoted [] [Plain.device]) "i0") := by
  refine ⟨by decide +kernel, fun retires => ?_⟩
  have devices : [["d"], [], ["d"]].Sublist ((World.history Plain.anp (Plain.promoted [] [Plain.device]) "i0").map
      (fun record => deviceIds record.document)) := by
    decide +kernel
  obtain ⟨records, inside, same⟩ := List.sublist_map_iff.mp devices
  replace same := same.symm
  obtain ⟨first, rest, rfl, listed, same⟩ := List.map_eq_cons_iff.mp same
  obtain ⟨second, rest, rfl, unlisted, same⟩ := List.map_eq_cons_iff.mp same
  obtain ⟨third, rest, rfl, again, same⟩ := List.map_eq_cons_iff.mp same
  cases List.map_eq_nil_iff.mp same
  refine retires first second third "d" inside ?_ ?_ ?_
  · rw [listed]; simp
  · rw [unlisted]; simp
  · rw [again]; simp

/-! ## Coherence -/

/-- Identities are enrolled and imported with the first version of their document. -/
def BringsFirstVersions (_ : World) : Event → Prop
  | .store _ call _ _ => ∀ evidence ∈ call.evidence, evidence.documentVersion = 1
  | _ => True

instance (w : World) : ∀ event, Decidable (BringsFirstVersions w event)
  | .store _ call _ _ => inferInstanceAs (Decidable (∀ evidence ∈ call.evidence, _))
  | .openStore _ | .identity .. | .identityTransitions _ => isTrue trivial

/-- The revision of a record is the version of its checkpoint, which belongs to its document. -/
def Coherent (anp : Anp) (record : IdentityRecord) : Prop :=
  ∃ current, record.checkpoint = some current ∧ record.revision = current.documentVersion ∧
    documentDigest anp record.document = .ok current.documentDigest

section
variable {anp} {w : World} {event : Event} {s : Store} {entropy : Entropy} {old new file record seen next made : IdentityRecord}

theorem SameDocument.coherent (same : SameDocument old new) (coherent : Coherent anp old) : Coherent anp new := by
  obtain ⟨current, recorded, version, digest⟩ := coherent
  exact ⟨current, by rw [same.checkpoint, recorded], by rw [same.revision, version], by rw [same.document, digest]⟩

theorem Republishes.coherent (replaced : Republishes anp w event seen next) : Coherent anp next := by
  cases replaced with
  | committed _ commits =>
    obtain ⟨_, _, _, committed, -, -, -, -, hashed, rfl⟩ := commits.committed
    exact ⟨committed, rfl, rfl, hashed⟩
  | adopted _ verified _ adopts =>
    obtain ⟨_, _, _, -, -, rfl⟩ := adopts.adopted
    exact ⟨_, rfl, rfl, verified_digest verified⟩
  | promoted _ verified promotes =>
    obtain ⟨_, -, rfl⟩ := promotes.promoted
    exact ⟨_, rfl, rfl, verified_digest verified⟩

theorem Rewrite.coherent (rewrites : Rewrite anp w event s file record) (coherent : Coherent anp file) : Coherent anp record := by
  have ⟨current, recorded, _⟩ := coherent
  rcases rewrites.document recorded with same | ⟨seen, next, -, replaced, after⟩
  · exact same.coherent coherent
  · exact after.coherent replaced.coherent

theorem Event.Brings.coherent {self : DidStore} {call : StoreCall} {action : StoreAction}
    (brought : event.Brings anp w entropy self call action) (makes : action.Makes anp entropy made)
    (first : BringsFirstVersions w event) : Coherent anp made := by
  obtain ⟨rfl, -, started⟩ := brought
  have new := started.isNew makes
  obtain ⟨current, recorded, digest⟩ := new.checkpoint
  refine ⟨current, recorded, ?_, digest⟩
  have version := new.version
  rw [recorded, Option.map_some, Option.some.injEq] at version
  rw [new.revision, version]
  cases evidence : call.evidence with
  | none => rfl
  | some given => exact (first given evidence).symm

/-- In every run that enrolls and imports first versions, every record that is stored is coherent. -/
theorem records_coherent {events : List Event} (meets : World.initial.Meets anp BringsFirstVersions events) :
    (∀ id, ∀ record ∈ World.history anp events id, Coherent anp record) ∧
      ∀ id file, (World.initial.run anp events).store.identities id = some file → Coherent anp file := by
  have along := fun id => World.chronicle (P := Coherent anp) (R := fun _ _ => True)
    (fun _ _ _ _ _ _ _ first brought makes => Event.Brings.coherent brought makes first)
    (fun _ _ _ _ _ _ coherent rewrites => ⟨rewrites.coherent coherent, trivial⟩) meets id
  refine ⟨fun id => (along id).2.1, fun id file found => ?_⟩
  obtain ⟨-, holds, last⟩ := along id
  exact holds file (List.mem_of_getLast? (last file found))

end

namespace Plain

/-- The first version of a document, with its root key. -/
def firstVersion : IdentityImportSpec := { fifthVersion with evidence := evidence 1 (rootDocument []) }

def importedFirst : List Event := [.openStore none, .store 0 (.importIdentity firstVersion) (entropy "0" 1) none]

end Plain

theorem records_coherent_imported :
    World.initial.Meets Plain.anp BringsFirstVersions (Plain.reconciled Plain.importedFirst) ∧
      (World.history Plain.anp (Plain.reconciled Plain.importedFirst) "i0").map (·.revision) = [1, 1, 1, 1, 2] ∧
      ∀ record ∈ World.history Plain.anp (Plain.reconciled Plain.importedFirst) "i0", Coherent Plain.anp record := by
  have meets : World.initial.Meets Plain.anp BringsFirstVersions (Plain.reconciled Plain.importedFirst) := by decide +kernel
  exact ⟨meets, by decide +kernel, (records_coherent meets).1 "i0"⟩

/-- A document that is imported in its fifth version makes the first revision of the record. -/
theorem imported_record_incoherent :
    World.initial.Meets Plain.anp (fun _ _ => True) Plain.imported ∧
      ∃ record, (World.initial.run Plain.anp Plain.imported).store.identities "i0" = some record ∧
        ¬ Coherent Plain.anp record := by
  have stored : ((World.initial.run Plain.anp Plain.imported).store.identities "i0").any (fun record =>
      record.revision != 5 && record.checkpoint.any (·.documentVersion == 5)) = true := by
    decide +kernel
  obtain ⟨record, found, differs⟩ := (Option.any_eq_true _ _).mp stored
  simp only [Bool.and_eq_true, bne_iff_ne, Option.any_eq_true, beq_iff_eq] at differs
  obtain ⟨other, current, recorded, version⟩ := differs
  refine ⟨by decide +kernel, record, found, ?_⟩
  rintro ⟨also, is, same, -⟩
  rw [recorded, Option.some.injEq] at is
  rw [← is, version] at same
  exact other same

end AnpIdentity
