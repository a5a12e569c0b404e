import AnpIdentity.Documents
import AnpIdentity.Handles

/-! Open publications. A revision that was sent out leaves the record only through its own commit or through an
observation of the remote document. Interrupted calls are left out here: recovery discards a revision whose
abort was interrupted, whatever has happened to it since. -/

namespace AnpIdentity
open Durable Program

/-- The revision was sent out and its outcome is open. -/
def PendingRevisionRecord.Open (pending : PendingRevisionRecord) : Prop :=
  pending.state = .publicationInFlight ∨ pending.state = .publicationUncertain

instance (pending : PendingRevisionRecord) : Decidable pending.Open := inferInstanceAs (Decidable (_ ∨ _))

/-- No durable step of the event fails. -/
def Event.Faultless : Event → Prop
  | .openStore fault | .store _ _ _ fault | .identity _ _ _ fault => fault = none
  | .identityTransitions _ => True

instance : ∀ event : Event, Decidable event.Faultless
  | .openStore _ | .store _ _ _ _ | .identity _ _ _ _ => inferInstanceAs (Decidable (_ = _))
  | .identityTransitions _ => isTrue trivial

/-- The root is promoted only while no publication is open. -/
def PromotesSettled (_ : DidIdentity) (call : IdentityCall) (seen : IdentityRecord) : Prop :=
  match call with
  | .confirmRootPromotion _ => ∀ pending ∈ seen.pendingRevision, ¬ pending.Open
  | _ => True

instance (self : DidIdentity) (seen : IdentityRecord) : ∀ call : IdentityCall, Decidable (PromotesSettled self call seen)
  | .confirmRootPromotion _ => inferInstanceAs (Decidable (∀ pending ∈ seen.pendingRevision, ¬ pending.Open))
  | .beginPublication _ | .markPublicationUncertain _ | .rejectPublicationBeforeAcceptance _
  | .commitVerifiedUpdate .. | .reconcileUpdate .. | .abortUpdate _ | .reconcileRejectedUpdate .. | .adoptVerifiedDocument _
  | .adoptVerifiedSiblingDocument _ | .importWrappedRoot .. | .importLegacyRootTransfer _ | .prepareUpdate _ | .reload => isTrue trivial

/-- Nothing fails, and roots are promoted only while no publication is open. -/
def Orderly (anp : Anp) (w : World) (event : Event) : Prop := event.Faultless ∧ Calls anp PromotesSettled w event

instance (anp : Anp) (w : World) (event : Event) : Decidable (Orderly anp w event) := inferInstanceAs (Decidable (_ ∧ _))

/-- The call commits the revision after the candidate was observed: the document itself, or evidence of its digest. -/
inductive Attests (anp : Anp) (pending : PendingRevisionRecord) : IdentityCall → Prop
  | document {observed : Value} (observes : canonicalDigest anp observed = .ok pending.candidateDigest) :
      Attests anp pending (.reconcileUpdate pending.revisionId observed)
  | evidence {evidence : VerifiedDocumentEvidence} (digest : evidence.documentDigest = "sha256:" ++ pending.candidateDigest) :
      Attests anp pending (.commitVerifiedUpdate pending.revisionId true evidence)

/-- A verified document of the same root that still authorises the local keys is past the checkpoint. -/
structure Supersedes (anp : Anp) (seen : IdentityRecord) (observation : AdoptVerifiedDocumentSpec) : Prop where
  verified : validateVerifiedDocument anp observation.document observation.evidence = .ok ()
  fingerprint : methodRootFingerprint anp observation.document = .ok seen.rootKeyFingerprint
  authorized : checkLocalAuthorization anp seen observation.document = .ok ()
  advanced : ∃ base, seen.checkpoint = some base ∧ base.documentVersion ≤ observation.evidence.documentVersion ∧
    base.registryVersion ≤ observation.evidence.registryVersion ∧
    (base.documentVersion < observation.evidence.documentVersion ∨
      base.registryVersion < observation.evidence.registryVersion)

/-- What an event may make of a record whose revision is open. -/
inductive Resolves (anp : Anp) (event : Event) (old new : IdentityRecord) (pending : PendingRevisionRecord) : Prop
  | stays (same : SameDocument old new) (still : new.pendingRevision = some pending)
  | moves {state : PublicationState} (sent : pending.state = .publicationInFlight) (same : SameDocument old new)
      (moved : new.pendingRevision = some { pending with state, generation := pending.generation + 1 })
  | commits {handle : Nat} {call : IdentityCall} {entropy : Entropy} {fault : Option Nat}
      (is : event = .identity handle call entropy fault) (taken : new.document = pending.candidateDocument)
      (closed : new.pendingRevision = none) (attested : pending.state = .publicationUncertain → Attests anp pending call)
  | returns {handle : Nat} {observed : Value} {entropy : Entropy} {fault : Option Nat} {digest : String} {profile : DidProfile}
      (is : event = .identity handle (.reconcileUpdate pending.revisionId observed) entropy fault)
      (observes : canonicalDigest anp observed = .ok digest) (stored : canonicalDigest anp old.document = .ok digest)
      (known : DidProfile.forDid anp old.did = .ok profile) (other : profile ≠ .web) (same : SameDocument old new)
      (moved : new.pendingRevision = some { pending with state := .prepared, generation := pending.generation + 1 })
  | rejects {handle : Nat} {observation : AdoptVerifiedDocumentSpec} {entropy : Entropy} {fault : Option Nat}
      {seen : IdentityRecord} (is : event = .identity handle (.reconcileRejectedUpdate pending.revisionId observation) entropy fault)
      (lost : pending.state = .publicationUncertain) (read : completeRecord anp old = .ok seen)
      (superseded : Supersedes anp seen observation) (same : SameDocument old new) (closed : new.pendingRevision = none)

/-- An event leaves the open publications of a world alone or resolves them. -/
def FailClosed (anp : Anp) (w : World) (event : Event) : Prop :=
  ∀ id old new pending, w.store.identities id = some old → (w.step anp event).store.identities id = some new →
    old.pendingRevision = some pending → pending.Open → Resolves anp event old new pending

section
variable {anp : Anp} {w : World} {event : Event} {s : Store} {v : Write} {entropy : Entropy} {self : DidIdentity}
  {action : IdentityAction} {file record seen next : IdentityRecord} {pending : PendingRevisionRecord}

/-! ## Revisions -/

/-- Where the revision of a stored record comes from. -/
inductive Revises (anp : Anp) (entropy : Entropy) (before : Option PendingRevisionRecord) (pending : PendingRevisionRecord) : Prop
  | new (none : before = none) (drawn : pending.revisionId = entropy.revisionId) (prepared : pending.state = .prepared)
      (hashed : canonicalDigest anp pending.candidateDocument = .ok pending.candidateDigest)
  | kept (same : before = some pending)
  | moved {old : PendingRevisionRecord} {state : PublicationState} (was : before = some old)
      (publishes : Publishes old.state state) (is : pending = { old with state, generation := old.generation + 1 })

theorem Justified.revises (justified : Justified anp s self entropy action) (stores : action.Stores anp entropy record)
    (found : record.pendingRevision = some pending) : Revises anp entropy action.seen.pendingRevision pending := by
  cases justified.rekeys stores with
  | planned _ planned hashed _ is =>
    cases is.symm.trans found
    exact .new (planUpdate_ok planned).clear rfl rfl hashed
  | moved was publishes _ is =>
    cases is.symm.trans found
    exact .moved was publishes rfl
  | cleared _ clear | committed _ _ _ clear => cases clear.symm.trans found
  | kept _ same | imported _ same => exact .kept (same.symm.trans found)

theorem Revises.revisionId {before : Option PendingRevisionRecord} (revises : Revises anp entropy before pending) :
    pending.revisionId = entropy.revisionId ∨ ∃ old, before = some old ∧ old.revisionId = pending.revisionId := by
  cases revises with
  | new _ drawn => exact .inl drawn
  | kept same => exact .inr ⟨pending, same, rfl⟩
  | moved was _ is => exact .inr ⟨_, was, by rw [is]⟩

/-- A record has a checkpoint, and its revision the digest of its document. -/
structure Hashed (anp : Anp) (record : IdentityRecord) : Prop where
  recorded : ∃ current, record.checkpoint = some current
  hashed : ∀ pending, record.pendingRevision = some pending →
    canonicalDigest anp pending.candidateDocument = .ok pending.candidateDigest

private theorem Rewrite.hashed (rewrites : Rewrite anp w event s file record) (hashed : Hashed anp file) :
    Hashed anp record := by
  obtain ⟨current, recorded⟩ := hashed.recorded
  refine ⟨rewrites.recorded recorded, fun pending found => ?_⟩
  cases rewrites with
  | activate shown creating =>
    have read : Shown anp file _ := shown
    exact hashed.hashed pending (read.mirrors.pendingRevision.symm.trans found)
  | act began completed stores _ =>
    have read : Shown anp file _ := .inr completed
    obtain ⟨-, -, started⟩ := began
    cases started.started.2.revises stores found with
    | new _ _ _ hashed => exact hashed
    | kept same => exact hashed.hashed pending (read.mirrors.pendingRevision.symm.trans same)
    | @moved old _ was _ is =>
      have before := hashed.hashed old (read.mirrors.pendingRevision.symm.trans was)
      rw [is]
      exact before
  | clear => cases found

theorem hashed_run {condition : World → Event → Prop} {events : List Event}
    (meets : World.initial.Meets anp condition events) {id : String}
    (found : (World.initial.run anp events).store.identities id = some file) : Hashed anp file := by
  refine World.file_invariant (P := Hashed anp) ?_ (fun _ _ _ _ _ _ hashed rewrites => rewrites.hashed hashed) meets found
  intro w event entropy self call action made _ brought makes
  obtain ⟨-, -, started⟩ := brought
  have new := started.isNew makes
  obtain ⟨current, recorded, -⟩ := new.checkpoint
  exact ⟨⟨current, recorded⟩, fun pending found => by rw [new.pendingRevision] at found; cases found⟩

/-! ## Journals that were left behind -/

/-- A cleanup journal that was left behind by a call that ran to its end: the generation of the record was at its end. -/
def Leftover (s : Store) (j : UpdateJournal) : Prop :=
  ∀ file pending, s.identities j.identityId = some file → file.pendingRevision = some pending →
    pending.revisionId = j.revisionId → ¬ file.generation + 1 < 2 ^ 64

variable {j : UpdateJournal}

theorem FileMove.leftover (move : FileMove anp w event s v) (old : j.revisionId ∉ event.ids) (leftover : Leftover s j) :
    Leftover (Medium.apply s v) j := by
  have files := move.files (Q := fun id file => id = j.identityId → ∀ pending, file.pendingRevision = some pending →
      pending.revisionId = j.revisionId → ¬ file.generation + 1 < 2 ^ 64) ?_ ?_ ?_
  · exact fun file pending found => files _ file found rfl pending
  · rintro id file found rfl pending
    exact leftover file pending found
  · intro entropy self call action made brought makes _ pending pends
    obtain ⟨-, -, started⟩ := brought
    rw [(started.isNew makes).pendingRevision] at pends
    cases pends
  · intro file record found full rewrites named pending pends same
    cases rewrites with
    | activate shown creating =>
      have read : Shown anp file _ := shown
      have full := full named pending (read.mirrors.pendingRevision.symm.trans pends) same
      rwa [← read.mirrors.generation] at full
    | @act entropy self call action record began completed stores room =>
      exfalso
      have read : Shown anp file action.seen := .inr completed
      obtain ⟨is, -, started⟩ := began
      have justified := started.started.2
      rcases (justified.revises stores pends).revisionId with drawn | ⟨before, was, equal⟩
      · refine old ?_
        rw [← same, drawn, is]
        simp [Event.ids, Entropy.ids]
      · refine full named before (read.mirrors.pendingRevision.symm.trans was) (equal.trans same) ?_
        rwa [← read.mirrors.generation, ← (justified.keeping stores).generation]
    | clear => cases pends

/-- Journals and revisions have ids that were drawn, and journals of cleanups were left behind at the end of a
generation only. -/
structure Tidy (known : String → Prop) (s : Store) : Prop where
  pending : ∀ id file pending, s.identities id = some file → file.pendingRevision = some pending → known pending.revisionId
  drawn : ∀ j ∈ s.updateTransactions, known j.revisionId
  leftover : ∀ j ∈ s.updateTransactions, j.kind = .cleanup → Leftover s j

/-- A discard leaves its journal only if it could not store the record. -/
theorem discardPending_ends (entropy : Entropy) (seen : IdentityRecord) (pending : PendingRevisionRecord) (s : Store) :
    let final := (discardPending entropy seen pending pending.revisionId).final s
    (¬ seen.generation + 1 < 2 ^ 64 ∧ final.identities = s.identities) ∨
      final.updateTransactions =
        (s.updateTransactions.insert (cleanupJournal entropy seen pending)).erase pending.revisionId := by
  intro final
  by_cases room : seen.generation + 1 < 2 ^ 64
  · right
    have counted : checkedSucc seen.generation = .ok (seen.generation + 1) := checkedSucc_ok.mpr ⟨room, rfl⟩
    have writes : (discardPending entropy seen pending pending.revisionId).writes s =
        .updateJournal (cleanupJournal entropy seen pending) :: .identity (clearedRecord seen).raised ::
          (pending.pendingSecretRefs.map .deleteSecret ++ [.removeUpdateJournal pending.revisionId]) := by
      simp only [discardPending, persistRecord, counted, writeUpdateJournal, writeIdentity, removeUpdateJournal,
        writes_write_bind, bind_assoc, pure_bind, liftM_eq, lift_ok_bind, writes_deleteSecrets_bind]
      rfl
    change ((discardPending entropy seen pending pending.revisionId).final s).updateTransactions = _
    rw [Program.final, writes, applyAll_cons, applyAll_cons, applyAll_append, applyAll_deleteSecrets]
    rfl
  · left
    obtain ⟨e, full⟩ : ∃ e, checkedSucc seen.generation = .error e := ⟨_, if_neg room⟩
    refine ⟨room, ?_⟩
    change ((discardPending entropy seen pending pending.revisionId).final s).identities = _
    simp only [Program.final, discardPending, persistRecord, full, writeUpdateJournal, writes_write_bind, liftM_eq,
      lift_error_bind, writes_lift]
    rfl

private theorem IdentityStep.updates {start : Store} (step : IdentityStep anp entropy start action s v)
    (discards : ∀ seen pending, action ≠ .discard seen pending) (listed : j ∈ (Medium.apply s v).updateTransactions) :
    j ∈ s.updateTransactions ∨ j.kind = .prepare ∧ j.revisionId = entropy.revisionId := by
  have register : ∀ {start s : Store} {next : IdentityRecord} {v : Write}, RegisterStep entropy start next s v →
      (Medium.apply s v).updateTransactions = s.updateTransactions := by
    intro start s next v step
    cases step <;> rfl
  cases step with
  | prepare step =>
    cases step with
    | announce =>
      rcases Directory.mem_insert.mp listed with rfl | ⟨before, -⟩
      · exact .inr ⟨rfl, rfl⟩
      · exact .inl before
    | keep | store => exact .inl listed
    | close => exact .inl (Directory.mem_erase.mp listed).1
  | discard => exact absurd rfl (discards _ _)
  | edit step =>
    cases step with
    | plain | announce => exact .inl listed
    | register _ step => exact .inl (by rwa [register step] at listed)
  | importRoot step =>
    cases step with
    | announce | keep => exact .inl listed
    | register _ _ step => exact .inl (by rwa [register step] at listed)

/-- The update journals after an action that ran to its end. -/
private theorem IdentityAction.updates (action : IdentityAction)
    (listed : j ∈ ((action.execute anp entropy).final s).updateTransactions) :
    j ∈ s.updateTransactions ∨ (j.kind = .prepare ∧ j.revisionId = entropy.revisionId) ∨
      ∃ seen pending, action = .discard seen pending ∧ j = cleanupJournal entropy seen pending ∧
        ¬ seen.generation + 1 < 2 ^ 64 ∧ ((action.execute anp entropy).final s).identities = s.identities := by
  by_cases discards : ∃ seen pending, action = .discard seen pending
  · obtain ⟨seen, pending, rfl⟩ := discards
    change j ∈ ((discardPending entropy seen pending pending.revisionId).final s).updateTransactions at listed
    rcases discardPending_ends entropy seen pending s with ⟨full, same⟩ | closed
    · have before : ∀ j ∈ ((discardPending entropy seen pending pending.revisionId).final s).updateTransactions,
          j ∈ s.updateTransactions ∨ j = cleanupJournal entropy seen pending := by
        refine (discardPending_follows seen pending).traced.invariant
          (I := fun t => ∀ j ∈ t.updateTransactions, j ∈ s.updateTransactions ∨ j = cleanupJournal entropy seen pending)
          (fun t v now step => ?_) (fun j listed => .inl listed)
        cases step with
        | announce =>
          intro j listed
          rcases Directory.mem_insert.mp listed with rfl | ⟨before, -⟩
          · exact .inr rfl
          · exact .inl before
        | store | erase => exact now
        | close => exact fun j listed => now j (Directory.mem_erase.mp listed).1
      rcases before j listed with old | rfl
      · exact .inl old
      · exact .inr (.inr ⟨seen, pending, rfl, rfl, full, same⟩)
    · rw [closed] at listed
      obtain ⟨inserted, other⟩ := Directory.mem_erase.mp listed
      rcases Directory.mem_insert.mp inserted with rfl | ⟨before, -⟩
      · exact absurd rfl other
      · exact .inl before
  · have kept : ∀ seen pending, action ≠ .discard seen pending := fun seen pending is => discards ⟨seen, pending, is⟩
    have follows : Follows (IdentityStep anp entropy s action) (action.execute anp entropy) _ s := IdentityAction.follows action
    have along := follows.traced.invariant
      (I := fun t => ∀ j ∈ t.updateTransactions, j ∈ s.updateTransactions ∨ j.kind = .prepare ∧ j.revisionId = entropy.revisionId)
      (fun t v now step j listed => (step.updates kept listed).elim (now j) .inr) (fun j listed => .inl listed)
    exact (along j listed).imp_right .inl

private theorem StoreStep.updates {start : Store} {action : StoreAction} (step : StoreStep anp entropy start action s v) :
    (Medium.apply s v).updateTransactions = s.updateTransactions := by
  cases step with
  | introduce step | create step => cases step <;> rfl
  | delete step => cases step <;> rfl
  | enlist | close | enlistCreated | activate | closeCreated => rfl

private theorem RecoveryStep.updates (step : RecoveryStep anp s v) (listed : j ∈ (Medium.apply s v).updateTransactions) :
    j ∈ s.updateTransactions := by
  cases step with
  | creation _ step => cases step <;> exact listed
  | update _ step =>
    cases step with
    | undoPrepare | clear | eraseCleared => exact listed
    | close => exact (Directory.mem_erase.mp listed).1

/-- An event that is not a call on an identity brings no update journal. -/
private theorem Event.Permits.updates (permits : event.Permits anp w s v)
    (idle : ∀ entropy self call action, ¬ event.Begins anp w entropy self call action)
    (listed : j ∈ (Medium.apply s v).updateTransactions) : j ∈ s.updateTransactions := by
  cases permits with
  | recovery _ step => exact step.updates listed
  | store _ _ _ step => rwa [step.updates] at listed
  | identity is held started _ => exact absurd (.call is held started) (idle _ _ _ _)

/-- Only a call other than `reload` on an identity begins an action. -/
private theorem idle_or_calls (w : World) (event : Event) :
    (∀ entropy self call action, ¬ event.Begins anp w entropy self call action) ∨
      ∃ handle call entropy fault self, event = .identity handle call entropy fault ∧ w.identities[handle]? = some self ∧
        call ≠ .reload := by
  by_contra neither
  rw [not_or] at neither
  obtain ⟨begins, calls⟩ := neither
  refine begins (fun entropy self call action began => calls ?_)
  obtain ⟨is, held, started⟩ := began
  refine ⟨_, call, entropy, _, self, is, held, ?_⟩
  rintro rfl
  exact started

/-- An update journal after an event was there before, was left by a preparation, or by a discard that could not store
the record. -/
private theorem Event.updates (faultless : event.Faultless)
    (listed : j ∈ (applyAll w.store (event.writes anp w)).updateTransactions) :
    j ∈ w.store.updateTransactions ∨ (j.kind = .prepare ∧ j.revisionId ∈ event.ids) ∨
      ∃ entropy self call seen pending, event.Begins anp w entropy self call (.discard seen pending) ∧
        j = cleanupJournal entropy seen pending ∧ ¬ seen.generation + 1 < 2 ^ 64 ∧
        (applyAll w.store (event.writes anp w)).identities = w.store.identities := by
  rcases idle_or_calls w event with idle | ⟨handle, call, entropy, fault, self, rfl, held, calls⟩
  · exact .inl (event.traced.invariant (I := fun t => ∀ j ∈ t.updateTransactions, j ∈ w.store.updateTransactions)
      (fun t v now permits j listed => now j (permits.updates idle listed)) (fun j listed => listed) j listed)
  · cases faultless
    have writes : (Event.identity handle call entropy none).writes anp w = [] ∨ _ := Event.writes_action held calls
    rcases writes with nothing | ⟨action, started, wrote⟩
    · rw [nothing] at listed
      exact .inl listed
    · rw [wrote] at listed ⊢
      rcases action.updates listed with before | ⟨kind, drawn⟩ | ⟨seen, pending, rfl, is, full, same⟩
      · exact .inl before
      · refine .inr (.inl ⟨kind, ?_⟩)
        rw [drawn]
        simp [Event.ids, Entropy.ids]
      · exact .inr (.inr ⟨entropy, self, call, seen, pending, .call rfl held started, is, full, same⟩)

/-- What holds of revisions that an event draws and is kept by their publication holds of the revisions of all files. -/
theorem FileMove.revisions {Q : String → PendingRevisionRecord → Prop} (move : FileMove anp w event s v)
    (now : ∀ id file pending, s.identities id = some file → file.pendingRevision = some pending → Q id pending)
    (new : ∀ handle call entropy fault self pending, event = .identity handle call entropy fault →
      w.identities[handle]? = some self → pending.revisionId = entropy.revisionId → Q self.identityId pending)
    (moved : ∀ id old state, Publishes old.state state → Q id old →
      Q id { old with state, generation := old.generation + 1 }) :
    ∀ id file pending, (Medium.apply s v).identities id = some file → file.pendingRevision = some pending → Q id pending := by
  have files := move.files (Q := fun id file => ∀ pending, file.pendingRevision = some pending → Q id pending)
    (fun id file found pending => now id file pending found) ?_ ?_
  · exact fun id file pending found => files id file found pending
  · intro entropy self call action made brought makes pending pends
    obtain ⟨-, -, started⟩ := brought
    rw [(started.isNew makes).pendingRevision] at pends
    cases pends
  · intro file record found before rewrites pending pends
    cases rewrites with
    | activate shown creating =>
      have read : Shown anp file _ := shown
      exact before pending (read.mirrors.pendingRevision.symm.trans pends)
    | @act entropy self call action record began completed stores room =>
      have read : Shown anp file action.seen := .inr completed
      obtain ⟨is, held, started⟩ := began
      obtain ⟨current, justified⟩ := started.started
      cases justified.revises stores pends with
      | new _ drawn =>
        have named : record.identityId = self.identityId :=
          (justified.keeping stores).identityId.trans (readIdentity_named current.read)
        change Q record.identityId pending
        rw [named]
        exact new _ _ _ _ _ _ is held drawn
      | kept same => exact before pending (read.mirrors.pendingRevision.symm.trans same)
      | moved was publishes is =>
        rw [is]
        exact moved _ _ _ publishes (before _ (read.mirrors.pendingRevision.symm.trans was))
    | clear => cases pends

/-- The journals and revisions of a world are tidy. -/
def World.Tidy (w : World) : Prop := AnpIdentity.Tidy (· ∈ w.issued) w.store

theorem World.Tidy.step (tidy : w.Tidy) (fresh : event.Fresh w) (faultless : event.Faultless) : (w.step anp event).Tidy := by
  have steps : w.Steps anp event (w.step anp event) := World.steps event
  obtain ⟨journals, store⟩ := steps.store
  by_cases wrote : event.writes anp w = []
  · rw [wrote, applyAll_nil] at store
    rw [World.Tidy, store]
    exact ⟨fun id file pending found pends => steps.kept _ (tidy.pending id file pending found pends),
      fun j listed => steps.kept _ (tidy.drawn j listed), tidy.leftover⟩
  have known : ∀ id, id ∈ event.ids ∨ id ∈ w.issued → id ∈ (w.step anp event).issued :=
    fun id drawn => drawn.elim (steps.drawn wrote id) (steps.kept id)
  have moves : Traced (FileMove anp w event) w.store (event.writes anp w) := event.fileMoves
  have pending := moves.invariant (I := fun t => ∀ id file pending, t.identities id = some file →
      file.pendingRevision = some pending → pending.revisionId ∈ (w.step anp event).issued)
    (fun t v now move => move.revisions (Q := fun _ pending => pending.revisionId ∈ (w.step anp event).issued) now
      (fun _ _ _ _ _ _ is _ drawn => known _ (.inl (by rw [is, drawn]; simp [Event.ids, Entropy.ids])))
      (fun _ _ _ _ before => before))
    (fun id file pending found pends => known _ (.inr (tidy.pending id file pending found pends)))
  rw [World.Tidy, store]
  refine ⟨pending, fun j listed => ?_, fun j listed cleanup => ?_⟩
  · rcases Event.updates faultless listed with before | ⟨-, drawn⟩ | ⟨entropy, self, call, seen, pending, began, rfl, -, -⟩
    · exact steps.kept _ (tidy.drawn j before)
    · exact known _ (.inl drawn)
    · obtain ⟨-, -, started⟩ := began
      obtain ⟨current, justified⟩ := started.started
      obtain ⟨file, filed, -, completed⟩ := readIdentity_ok.mp current.read
      have read : Shown anp file seen := .inr completed
      cases justified with
      | discard _ pends => exact known _ (.inr (tidy.pending _ file pending filed (read.mirrors.pendingRevision.symm.trans pends)))
  · rcases Event.updates faultless listed with before | ⟨prepare, -⟩ | ⟨entropy, self, call, seen, pending, began, rfl, full, same⟩
    · have old : j.revisionId ∉ event.ids := fun listed => fresh.2 _ listed (tidy.drawn j before)
      exact moves.invariant (I := fun t => Leftover t j) (fun t v now move => move.leftover old now)
        (tidy.leftover j before cleanup)
    · rw [prepare] at cleanup
      cases cleanup
    · obtain ⟨-, -, started⟩ := began
      obtain ⟨file, filed, -, completed⟩ := readIdentity_ok.mp started.started.1.read
      have read : Shown anp file seen := .inr completed
      intro other pending found _ _
      have found : w.store.identities seen.identityId = some other := by
        rw [← same]
        exact found
      have named := readIdentity_named started.started.1.read
      rw [← named] at filed
      cases found.symm.trans filed
      rwa [← read.mirrors.generation]

theorem World.tidy_run {events : List Event} (meets : World.initial.Meets anp (Orderly anp) events) :
    (World.initial.run anp events).Tidy :=
  World.run_induction (fun _ _ tidy fresh orderly => tidy.step fresh orderly.1)
    ⟨fun _ _ _ found => (nomatch found), fun _ listed => absurd listed (Directory.not_mem_empty _),
      fun _ listed => absurd listed (Directory.not_mem_empty _)⟩ meets

/-! ## Open publications -/

/-- An event that begins no action leaves an open revision as it is. -/
private theorem idle_resolves (idle : ∀ entropy self call action, ¬ event.Begins anp w entropy self call action)
    (fresh : event.Fresh w) (filed : w.Filed) (tidy : w.Tidy) {id : String} {old new : IdentityRecord}
    {current : DocumentCheckpoint} (recorded : old.checkpoint = some current) (before : w.store.identities id = some old)
    (after : (w.step anp event).store.identities id = some new) (pends : old.pendingRevision = some pending) :
    Resolves anp event old new pending := by
  have known : id ∈ w.issued := filed.drawn id old before
  have traced : Traced (event.Permits anp w) w.store (event.writes anp w) := event.traced
  have along := traced.invariant
    (I := fun t : Store => (∀ file, t.identities id = some file → SameDocument old file ∧ file.pendingRevision = some pending) ∧
      (∀ j ∈ t.updateTransactions, j ∈ w.store.updateTransactions) ∧
      ∀ j ∈ w.store.updateTransactions, j.kind = .cleanup → Leftover t j) (fun t v now permits => ?_)
    ⟨fun file found => ?_, fun _ listed => listed, tidy.leftover⟩
  · rw [World.identities_step] at after
    obtain ⟨same, still⟩ := along.1 new after
    exact .stays same still
  · obtain ⟨files, journals, leftover⟩ := now
    have move := permits.fileMove
    refine ⟨?_, fun j listed => journals j (permits.updates idle listed), fun j listed cleanup => ?_⟩
    · cases move with
      | elsewhere kept =>
        rw [kept]
        exact files
      | introduce brought makes _ =>
        rw [identities_put_ne t (fun same => fresh.2 _ (brought.drawn makes) (same ▸ known))]
        exact files
      | @rewrite file record found rewrites =>
        by_cases same : id = record.identityId
        · intro other stored
          rw [same, identities_put_self, Option.some.injEq] at stored
          subst stored
          obtain ⟨document, still⟩ := files file (same ▸ found)
          cases rewrites with
          | @activate shown_ shown creating =>
            have read : Shown anp file shown_ := shown
            have filed : file.checkpoint = some current := by rw [document.checkpoint, recorded]
            refine ⟨?_, read.mirrors.pendingRevision.trans still⟩
            rcases shown with rfl | completed
            · exact document.trans ⟨rfl, rfl, rfl, rfl, rfl⟩
            · exact document.trans ((completeRecord_document completed filed).trans ⟨rfl, rfl, rfl, rfl, rfl⟩)
          | act began => exact absurd began (idle _ _ _ _)
          | @clear j shown_ outstanding kind completed pends named room =>
            exfalso
            have read : Shown anp file shown_ := .inr completed
            obtain ⟨other, found', is⟩ := pends
            refine leftover j (journals j outstanding) kind file other ?_ (read.mirrors.pendingRevision.symm.trans found') is ?_
            · rw [← named]
              exact found
            · rwa [← read.mirrors.generation]
        · rw [identities_put_ne t same]
          exact files
      | @remove gone _ =>
        by_cases same : id = gone
        · rw [same, identities_remove_self]
          exact fun _ none => nomatch none
        · rw [identities_remove_ne t same]
          exact files
    · have old : j.revisionId ∉ event.ids := fun drawn => fresh.2 _ drawn (tidy.drawn j listed)
      exact move.leftover old (leftover j listed cleanup)
  · rw [before, Option.some.injEq] at found
    subst found
    exact ⟨.refl old, pends⟩

private theorem checkRejection_supersedes {observation : AdoptVerifiedDocumentSpec}
    (checked : checkRejection anp self seen observation = .ok ()) : Supersedes anp seen observation := by
  simp only [checkRejection, except_bind_ok, reject_ok, okOr_ok, ne_eq, not_not] at checked
  obtain ⟨_, verified, _, -, fingerprint, shown, _, same, _, progress, _, authorized, base, recorded, ahead⟩ := checked
  rw [recorded] at progress
  simp only [validateCheckpointProgression, reject_ok, not_or, not_lt] at progress
  obtain ⟨version, registry, -⟩ := progress
  refine ⟨verified, same ▸ shown, authorized, base, recorded, version, registry, ?_⟩
  omega

private theorem commitAllowed_lost {fromReconcile : Bool} {evidence : Option VerifiedDocumentEvidence}
    (allowed : commitAllowed pending fromReconcile evidence = true) (lost : pending.state = .publicationUncertain) :
    fromReconcile = true := by
  simpa [commitAllowed, lost] using allowed

private theorem evidence_attests {evidence : VerifiedDocumentEvidence}
    (hashed : canonicalDigest anp pending.candidateDocument = .ok pending.candidateDigest)
    (verified : documentDigest anp pending.candidateDocument = .ok evidence.documentDigest) :
    evidence.documentDigest = "sha256:" ++ pending.candidateDigest := by
  simp only [canonicalDigest, except_bind_ok, mapErr_ok, Except.ok.injEq] at hashed
  obtain ⟨canonical, rendered, digest⟩ := hashed
  simp only [documentDigest, rendered, Except.ok.injEq] at verified
  rw [← verified, digest]

/-- An action resolves the open revision of the record that it was decided on, or leaves it. -/
private theorem act_resolves {call : IdentityCall} (began : event.Begins anp w entropy self call action)
    (stores : action.Stores anp entropy record) (calls : Calls anp PromotesSettled w event) (hashed : Hashed anp file)
    (completed : completeRecord anp file = .ok action.seen) (shown : Shown anp file self.record)
    (pends : file.pendingRevision = some pending) (opened : pending.Open) : Resolves anp event file record.raised pending := by
  obtain ⟨current, recorded⟩ := hashed.recorded
  have read : Shown anp file action.seen := .inr completed
  have seenPends : action.seen.pendingRevision = some pending := read.mirrors.pendingRevision.trans pends
  have document := completeRecord_document completed recorded
  have holds := calls.holds began
  obtain ⟨is, -, started⟩ := began
  have justified := started.started.2
  cases justified with
  | prepare _ planned =>
    cases (planUpdate_ok planned).clear.symm.trans seenPends
  | @discard seen chosen rejection _ found _ =>
    cases stores
    cases (found.symm.trans seenPends)
    obtain ⟨rejection, checked, ⟨-, rfl⟩ | ⟨observation, rfl, rfl⟩⟩ := started.discards
    · have prepared : pending.state = .prepared := by simpa [checkAbort] using checked
      rcases opened with sent | lost
      · rw [prepared] at sent
        cases sent
      · rw [prepared] at lost
        cases lost
    · obtain ⟨_, lost, rejected⟩ := except_bind_ok.mp checked
      have lost : pending.state = .publicationUncertain := by simpa using lost
      exact .rejects is lost completed (checkRejection_supersedes rejected) (document.trans ⟨rfl, rfl, rfl, rfl, rfl⟩) rfl
  | @moved seen next revisionId expected state chosen _ publishes moves =>
    cases stores
    cases (moves.found.symm.trans seenPends)
    have named := moves.named
    subst named
    have expected := moves.expected
    have moved : record.raised.pendingRevision = some { pending with state, generation := pending.generation + 1 } := by
      rw [moves.moved]
      rfl
    have same : SameDocument file record.raised := by
      rw [moves.moved]
      exact document.trans ⟨rfl, rfl, rfl, rfl, rfl⟩
    cases publishes with
    | begin =>
      rcases opened with sent | lost
      · rw [expected] at sent
        cases sent
      · rw [expected] at lost
        cases lost
    | lose | reject => exact .moves expected same moved
    | «return» =>
      cases started.edits with
      | «return» observes shows known other =>
        rw [shown.mirrors.document] at shows
        rw [DidIdentity.did, shown.mirrors.did] at known
        exact .returns is observes shows known other same moved
  | @committed seen next revisionId fromReconcile evidence chosen _ commits =>
    cases stores
    cases (commits.found.symm.trans seenPends)
    have named := commits.named
    subst named
    obtain ⟨keys, authorization, retired, checkpoint, -, -, -, -, -, rfl⟩ := commits.committed
    refine .commits is rfl rfl (fun lost => ?_)
    have reconciles := commitAllowed_lost commits.allowed lost
    cases started.edits with
    | commit =>
      subst reconciles
      obtain ⟨_, verified, -⟩ := except_bind_ok.mp commits.checked
      exact .evidence (evidence_attests (hashed.hashed _ pends) (verified_digest verified))
    | observe found observes =>
      obtain ⟨cached, -⟩ := requiredPending_ok.mp found
      rw [shown.mirrors.pendingRevision, pends, Option.some.injEq] at cached
      subst cached
      exact .document observes
  | adopted _ _ adoptable _ =>
    cases adoptable.clear.symm.trans seenPends
  | promoted =>
    cases started.edits
    exact absurd opened (holds pending seenPends)
  | replayed _ transfers =>
    cases stores
    cases transfers
    exact .stays (document.trans ⟨rfl, rfl, rfl, rfl, rfl⟩) seenPends
  | imported _ transfers =>
    cases stores
    cases transfers
    exact .stays (document.trans ⟨rfl, rfl, rfl, rfl, rfl⟩) seenPends

/-- The files after an action. -/
private theorem IdentityAction.files (action : IdentityAction) :
    ((action.execute anp entropy).final s).identities = s.identities ∨ ∃ record, action.Stores anp entropy record ∧
      ((action.execute anp entropy).final s).identities =
        Function.update s.identities record.identityId (some record.raised) := by
  have follows : Follows (IdentityStep anp entropy s action) (action.execute anp entropy) _ s := IdentityAction.follows action
  refine follows.traced.invariant (I := fun t : Store => t.identities = s.identities ∨ ∃ record,
    action.Stores anp entropy record ∧ t.identities = Function.update s.identities record.identityId (some record.raised))
    (fun t v now step => ?_) (.inl rfl)
  rcases step.identity with kept | ⟨record, rfl, stores, same, -⟩
  · rw [kept]
    exact now
  · refine .inr ⟨record, stores, ?_⟩
    rw [← same]
    rfl

/-- In every run without faults whose promotions wait for open publications, open publications are fail-closed. -/
theorem publications_fail_closed {before later : List Event}
    (meets : World.initial.Meets anp (Orderly anp) (before ++ event :: later)) :
    FailClosed anp (World.initial.run anp before) event := by
  obtain ⟨earlier, fresh, orderly, -⟩ := World.meets_append.mp meets
  have filed := World.filed_run earlier
  have tidy := World.tidy_run earlier
  have agreed := World.agreed_run earlier
  intro id old new pending stored after pends opened
  have hashed := hashed_run earlier stored
  obtain ⟨current, recorded⟩ := hashed.recorded
  generalize World.initial.run anp before = w at *
  rcases idle_or_calls w event with idle | ⟨handle, call, entropy, fault, self, rfl, held, calls⟩
  · exact idle_resolves idle fresh filed tidy recorded stored after pends
  have stays : new = old → Resolves anp (.identity handle call entropy fault) old new pending := by
    rintro rfl
    exact .stays (.refl _) pends
  cases orderly.1
  rw [World.identities_step] at after
  have writes : (Event.identity handle call entropy none).writes anp w = [] ∨ _ := Event.writes_action held calls
  rcases writes with nothing | ⟨action, started, wrote⟩
  · rw [nothing, applyAll_nil, stored, Option.some.injEq] at after
    exact stays after.symm
  rw [wrote] at after
  change ((action.execute anp entropy).final w.store).identities id = some new at after
  rcases IdentityAction.files action with kept | ⟨record, stores, moved⟩
  · rw [kept, stored, Option.some.injEq] at after
    exact stays after.symm
  rw [moved] at after
  by_cases same : id = record.identityId
  · subst same
    rw [Function.update_self, Option.some.injEq] at after
    subst after
    obtain ⟨file, found, shown, completed⟩ := started.started.1.agrees (agreed _ _ held).2
    have named : record.identityId = self.identityId :=
      (started.started.2.keeping stores).identityId.trans (readIdentity_named started.started.1.read)
    rw [← named, stored, Option.some.injEq] at found
    subst found
    exact act_resolves (.call rfl held started) stores orderly.2 hashed completed shown pends opened
  · rw [Function.update_of_ne same, stored, Option.some.injEq] at after
    exact stays after.symm

end

theorem publications_fail_closed_observed :
    World.initial.Meets Plain.anp (Orderly Plain.anp) (Plain.lost Plain.creation ++ [Plain.observation Plain.creation]) ∧
      FailClosed Plain.anp (World.initial.run Plain.anp (Plain.lost Plain.creation)) (Plain.observation Plain.creation) := by
  have meets : World.initial.Meets Plain.anp (Orderly Plain.anp)
      (Plain.lost Plain.creation ++ [Plain.observation Plain.creation]) := by
    decide +kernel
  exact ⟨meets, publications_fail_closed meets⟩

private theorem Resolves.document {anp : Anp} {event : Event} {old new : IdentityRecord} {pending : PendingRevisionRecord}
    (resolves : Resolves anp event old new pending) :
    new.document = old.document ∨ new.document = pending.candidateDocument := by
  cases resolves with
  | stays same | moves _ same => exact .inl same.document
  | commits _ taken => exact .inr taken
  | returns _ _ _ _ _ same | rejects _ _ _ _ same => exact .inl same.document

namespace Plain

/-- With an imported root, a service update is prepared and sent out. -/
def sentOut : List Event :=
  rootImported ++ [.identity 0 (.prepareUpdate serviceUpdate) (entropy "3" 1) none,
    .identity 0 (.beginPublication "r3") (entropy "4" 1) none]

def secondDevice : DeviceManifestEntry where
  deviceId := "c"
  signingKeyId := "did:wba:a#t"
  e2eeKeyId := "did:wba:a#f"
  profiles := ["p"]

/-- The root is promoted by a third version of the document, which lists a second device. -/
def promotion : Event :=
  let document := rootDocument [device, secondDevice]
  .identity 0 (.confirmRootPromotion ⟨document, evidence 3 document⟩) (entropy "5" 1) none

end Plain

/-- A root promotion replaces the document while an update is being published. -/
theorem promotion_replaces_open_publication :
    World.initial.Meets Plain.anp (fun _ event => event.Faultless) (Plain.sentOut ++ [Plain.promotion]) ∧
      ¬ FailClosed Plain.anp (World.initial.run Plain.anp Plain.sentOut) Plain.promotion := by
  refine ⟨by decide +kernel, fun closed => ?_⟩
  have replaced : ∃ id, ∃ old ∈ (World.initial.run Plain.anp Plain.sentOut).store.identities id,
      ∃ new ∈ ((World.initial.run Plain.anp Plain.sentOut).step Plain.anp Plain.promotion).store.identities id,
      ∃ pending ∈ old.pendingRevision, pending.Open ∧ new.document ≠ old.document ∧
        new.document ≠ pending.candidateDocument := by
    refine ⟨"i0", ?_⟩
    decide +kernel
  obtain ⟨id, old, before, new, after, pending, pends, opened, other, apart⟩ := replaced
  exact (closed id old new pending before after pends opened).document.elim other apart

end AnpIdentity
