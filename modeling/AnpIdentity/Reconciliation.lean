import AnpIdentity.Transition

/-! Reconciling a document change whose publication is uncertain, as sessions do it. A session that observes its own
candidate commits with the evidence of the observation; one that observes another JSON value with the digest of the
candidate leaves the numbers of the checkpoint to the engine, which counts on from its own. -/

namespace AnpIdentity
open Durable Program

structure VerifiedRemoteDocument where
  document : Value
  evidence : VerifiedPublicationEvidence
  deriving Repr, DecidableEq

/-- The outcomes of `reconcile`. A commit shows the identity as the engine has it then. -/
inductive ReconciledOutcome where
  | readyForPublication
  | publicationUncertain
  | committed (identity : DidIdentity)
  deriving Repr, DecidableEq

section
variable (anp : Anp)

namespace DocumentChangeSession
variable (session : DocumentChangeSession)

/-- What `reconcile` has the engine do after its checks. -/
def reconcileWith (engine : DidIdentity) (observation : VerifiedRemoteDocument) : Tx (DidIdentity × ReconcileOutcome) :=
  if observation.document = session.candidate.candidateDocument then do
    let engine ← engine.commitVerifiedUpdate anp session.candidate.operationId true (engineEvidence observation.evidence)
    return (engine, .committed)
  else engine.reconcileUpdate anp session.candidate.operationId observation.document

def checkReconcile (engine : DidIdentity) (observation : VerifiedRemoteDocument) : IdentityResult Unit := do
  let digest ← canonicalDocumentDigest anp observation.document
  validateEvidence observation.evidence digest
  let pending ← session.requiredPending engine
  deny (pending.state ≠ .publicationUncertain) .invalidDocumentChangeState

def reconciledOutcome (engine : DidIdentity) : ReconcileOutcome → IdentityResult ReconciledOutcome
  | .committed => .ok (.committed engine)
  | .remoteOld => do
    let pending ← session.requiredPending engine
    if pending.state = .publicationUncertain then .ok .publicationUncertain else .ok .readyForPublication

/-- The outcome of `reconcile` on a store, and the store that it leaves. -/
def reconcile (engine : DidIdentity) (observation : VerifiedRemoteDocument) (fault : Option Nat) (s : Store) :
    IdentityResult ReconciledOutcome × Store :=
  match session.checkReconcile anp engine observation with
  | .error e => (.error e, s)
  | .ok () =>
    let program := session.reconcileWith anp engine observation
    (do let (engine, outcome) ← reported program fault s
        session.reconciledOutcome engine outcome,
     (perform program fault s).1)

end DocumentChangeSession

/-- The record takes over the versions and the digest of the observation, which progress on the checkpoint before. -/
structure RecordsObservation (observation : VerifiedRemoteDocument) (before after : IdentityRecord) : Prop where
  checkpoint : after.checkpoint = some {
    documentVersion := observation.evidence.documentVersion
    registryVersion := observation.evidence.registryVersion
    documentDigest := observation.evidence.documentDigest }
  revision : after.revision = observation.evidence.documentVersion
  progress : isInitialProofConfirmation before after.document (engineEvidence observation.evidence) = .ok true ∨
    validateCheckpointProgression before.checkpoint (engineEvidence observation.evidence) = .ok ()

/-- The observation is the candidate itself, or its versions are the next ones of the record and progress. -/
def ObservesCandidate (candidate : Value) (observation : VerifiedRemoteDocument) (before : IdentityRecord) : Prop :=
  observation.document = candidate ∨
    observation.evidence.documentVersion = before.revision + 1 ∧
    observation.evidence.registryVersion = (before.checkpoint.map (·.registryVersion)).getD 0 + 1 ∧
    validateCheckpointProgression before.checkpoint (engineEvidence observation.evidence) = .ok ()

end

section
variable {anp : Anp} {s : Store} {self engine : DidIdentity} {observation : VerifiedRemoteDocument}
  {session : DocumentChangeSession}

theorem final_congr {α : Type} {p q : Tx α} (same : p s = q s) : p.final s = q.final s := by
  unfold Program.final Program.writes
  rw [same]

variable {revisionId : String} {evidence : VerifiedDocumentEvidence} {document : Value} {record seen : IdentityRecord}
  {pending : PendingRevisionRecord}

theorem commitPending_ok {fromReconcile : Bool} {evidence : Option VerifiedDocumentEvidence} {committed : DidIdentity}
    (returned : (self.commitPending anp revisionId fromReconcile evidence).result s = .ok committed) :
    ∃ seen next, Current anp s self seen ∧ commitRecord anp seen revisionId fromReconcile evidence = .ok next ∧
      (self.commitPending anp revisionId fromReconcile evidence).final s = Medium.apply s (.identity next.raised) := by
  obtain ⟨seen, read, rest, run⟩ := Issues.peel currentRecordForMutation_issues returned
  obtain ⟨next, made, rest, step⟩ := Issues.peel (.lift _) rest
  obtain ⟨stored, persisted, last⟩ := result_bind rest
  obtain ⟨rfl, writes⟩ := persistRecord_ok persisted
  refine ⟨seen, next, (currentRecordForMutation_ok read).1, made, ?_⟩
  have whole := (bind_ok (fun record => (Pure.pure ⟨record⟩ : Tx DidIdentity)) persisted).1
  rw [writes] at whole
  exact (final_congr (run.trans step)).trans (congrArg (applyAll s) whole)

/-- What a reconciliation that commits has the engine commit: the revision with the evidence of the observation, or
without evidence for a document with the digest of the cached candidate. -/
theorem reconcileWith_committed
    (returned : (session.reconcileWith anp self observation).result s = .ok (engine, .committed)) :
    ∃ evidence seen next, Current anp s self seen ∧
      commitRecord anp seen session.candidate.operationId true evidence = .ok next ∧
      (session.reconcileWith anp self observation).final s = Medium.apply s (.identity next.raised) ∧
      (observation.document = session.candidate.candidateDocument ∧ evidence = some (engineEvidence observation.evidence) ∨
        observation.document ≠ session.candidate.candidateDocument ∧ evidence = none ∧
          ∃ pending, requiredPending self.record session.candidate.operationId = .ok pending ∧
            canonicalDigest anp observation.document = .ok pending.candidateDigest) := by
  unfold DocumentChangeSession.reconcileWith at returned ⊢
  by_cases candidate : observation.document = session.candidate.candidateDocument
  · rw [if_pos candidate] at returned ⊢
    obtain ⟨_, committed, -⟩ := result_bind returned
    obtain ⟨seen, next, current, made, final⟩ := commitPending_ok committed
    refine ⟨_, seen, next, current, made, ?_, .inl ⟨candidate, rfl⟩⟩
    exact (final_bind _ committed).trans final
  · rw [if_neg candidate] at returned ⊢
    unfold DidIdentity.reconcileUpdate at returned ⊢
    obtain ⟨pending, found, returned, one⟩ := Issues.peel (.lift _) returned
    obtain ⟨_, -, returned, two⟩ := Issues.peel (.lift _) returned
    obtain ⟨_, -, returned, three⟩ := Issues.peel (.lift _) returned
    obtain ⟨digest, observes, returned, four⟩ := Issues.peel (.lift _) returned
    have run := one.trans (two.trans (three.trans four))
    by_cases same : digest = pending.candidateDigest
    · rw [if_pos same] at returned run
      obtain ⟨_, committed, -⟩ := result_bind returned
      obtain ⟨seen, next, current, made, final⟩ := commitPending_ok committed
      refine ⟨none, seen, next, current, made, ?_, .inr ⟨candidate, rfl, pending, found, same ▸ observes⟩⟩
      refine (final_congr run).trans ((final_bind _ committed).trans ?_)
      exact final
    · rw [if_neg same] at returned
      obtain ⟨_, -, returned, -⟩ := Issues.peel (.lift _) returned
      obtain ⟨_, -, returned, -⟩ := Issues.peel (.lift _) returned
      obtain ⟨profile, -, returned, -⟩ := Issues.peel (.lift _) returned
      split at returned
      · cases returned
      · obtain ⟨_, -, returned⟩ := result_bind returned
        cases returned


theorem digest_forms {digest : String} (hashed : canonicalDigest anp document = .ok digest) :
    documentDigest anp document = .ok ("sha256:" ++ digest) := by
  unfold canonicalDigest at hashed
  unfold documentDigest
  cases canonical : anp.canonicalJson document with
  | error e =>
    rw [canonical] at hashed
    cases hashed
  | ok text =>
    simp only [canonical, mapErr, except_bind_ok] at hashed
    obtain ⟨_, ⟨⟩, ⟨⟩⟩ := hashed
    rfl

theorem engineEvidence_same {evidence : VerifiedPublicationEvidence}
    (hashed : documentDigest anp document = .ok evidence.documentDigest) :
    engineEvidence evidence = ⟨evidence.documentVersion, evidence.registryVersion, evidence.documentDigest⟩ := by
  unfold documentDigest at hashed
  split at hashed
  · have form := Except.ok.inj hashed
    have starts : Text.startsWith evidence.documentDigest "sha256:" = true := by
      rw [← form]
      simp [Text.startsWith]
    unfold engineEvidence
    rw [if_pos starts]
  · cases hashed

theorem checkReconcile_ok (checked : session.checkReconcile anp self observation = .ok ()) :
    documentDigest anp observation.document = .ok observation.evidence.documentDigest := by
  simp only [DocumentChangeSession.checkReconcile, except_bind_ok, canonicalDocumentDigest, facade_ok] at checked
  obtain ⟨digest, hashed, _, valid, -⟩ := checked
  unfold validateEvidence at valid
  split at valid
  · cases valid
  · rename_i fits
    rw [not_or, not_or, not_not] at fits
    rw [hashed, fits.2.2]

theorem initial_confirmation_first (confirms : isInitialProofConfirmation record document evidence = .ok true) :
    record.revision = 1 ∧ evidence.documentVersion = 1 := by
  unfold isInitialProofConfirmation at confirms
  split at confirms
  · cases confirms
  · rename_i first
    simp only [not_or, not_not] at first
    exact ⟨first.2.2.2.1, first.2.2.2.2.1⟩

theorem checkCommitEvidence_progress (checked : checkCommitEvidence anp record document (some evidence) = .ok ()) :
    documentDigest anp document = .ok evidence.documentDigest ∧
      (isInitialProofConfirmation record document evidence = .ok true ∨
        validateCheckpointProgression record.checkpoint evidence = .ok ()) := by
  simp only [checkCommitEvidence, except_bind_ok] at checked
  obtain ⟨_, verified, confirmation, confirmed, progressed⟩ := checked
  refine ⟨verified_digest verified, ?_⟩
  cases confirmation with
  | true => exact .inl confirmed
  | false => exact .inr progressed

theorem RecordsObservation.of_evidence {next : IdentityRecord}
    (hashed : documentDigest anp observation.document = .ok observation.evidence.documentDigest)
    (commits : Commits anp seen revisionId true (some (engineEvidence observation.evidence)) next pending) :
    RecordsObservation observation seen next.raised := by
  obtain ⟨digest, progress⟩ := checkCommitEvidence_progress commits.checked
  obtain ⟨keys, authorization, retired, checkpoint, -, -, -, ⟨version, registered⟩, committed, rfl⟩ := commits.committed
  rw [engineEvidence_same hashed] at version registered digest
  have same : checkpoint.documentDigest = observation.evidence.documentDigest := by
    rw [digest] at committed
    exact (Except.ok.inj committed).symm
  refine ⟨?_, version, progress⟩
  rcases checkpoint with ⟨_, _, _⟩
  simp_all [IdentityRecord.raised]

theorem recordsObservation_counted {next : IdentityRecord} (commits : Commits anp seen revisionId true none next pending)
    (same : documentDigest anp pending.candidateDocument = .ok observation.evidence.documentDigest) :
    RecordsObservation observation seen next.raised ↔
      observation.evidence.documentVersion = seen.revision + 1 ∧
      observation.evidence.registryVersion = (seen.checkpoint.map (·.registryVersion)).getD 0 + 1 ∧
      validateCheckpointProgression seen.checkpoint (engineEvidence observation.evidence) = .ok () := by
  obtain ⟨keys, authorization, retired, checkpoint, -, -, -, ⟨version, registered⟩, committed, rfl⟩ := commits.committed
  rw [same] at committed
  have digest := Except.ok.inj committed
  constructor
  · intro records
    have equal := Option.some.inj records.checkpoint
    have counted : observation.evidence.documentVersion = seen.revision + 1 := by rw [← version, equal]
    refine ⟨counted, by rw [← registered, equal], ?_⟩
    rcases records.progress with confirms | progresses
    · obtain ⟨first, one⟩ := initial_confirmation_first confirms
      have : observation.evidence.documentVersion = 1 := one
      omega
    · exact progresses
  · rintro ⟨counted, next, progresses⟩
    refine ⟨?_, version.trans counted.symm, .inr progresses⟩
    rcases checkpoint with ⟨_, _, _⟩
    simp_all [IdentityRecord.raised]

theorem reported_ok {α : Type} {p : Tx α} {fault : Option Nat} {a : α} (returned : reported p fault s = .ok a) :
    fault = none ∧ p.result s = .ok a := by
  cases fault with
  | some n => cases returned
  | none => exact ⟨rfl, facade_ok.mp returned⟩

/-- The engine that a session finds: the record it caches and the stored one have the same pending revision, whose
digest is the canonical one of its candidate. -/
theorem cached_candidate {condition : World → Event → Prop} {events : List Event} {i : Nat}
    (meets : World.initial.Meets anp condition events) (held : (World.initial.run anp events).identities[i]? = some self)
    (current : Current anp (World.initial.run anp events).store self seen) :
    seen.identityId = self.identityId ∧ seen.pendingRevision = self.record.pendingRevision ∧
      ∀ pending ∈ seen.pendingRevision, canonicalDigest anp pending.candidateDocument = .ok pending.candidateDigest := by
  obtain ⟨file, found, shown, completed⟩ := current.agrees (World.agreed_run meets i self held).2
  have read : Shown anp file seen := .inr completed
  have named : file.identityId = self.identityId := ((World.filed_run meets).named _ _ found)
  refine ⟨read.mirrors.identityId.trans named,
    read.mirrors.pendingRevision.trans shown.mirrors.pendingRevision.symm, fun pending pends => ?_⟩
  exact (hashed_run meets found).hashed pending (read.mirrors.pendingRevision.symm.trans pends)

/-- A reconciliation that commits records what was observed exactly if the observation is the candidate, or its
versions are the ones that the engine counts to and progress. -/
theorem reconciled_commit_records_iff {events : List Event} (meets : World.initial.Meets anp (fun _ _ => True) events)
    (held : (World.initial.run anp events).identities[session.engine]? = some self) {fault : Option Nat} {after : Store}
    (returned : session.reconcile anp self observation fault (World.initial.run anp events).store =
      (.ok (.committed engine), after)) :
    ∃ before committed, (World.initial.run anp events).store.readIdentity anp self.identityId = .ok before ∧
      after.identities self.identityId = some committed ∧
      (RecordsObservation observation before committed ↔
        ObservesCandidate session.candidate.candidateDocument observation before) := by
  unfold DocumentChangeSession.reconcile at returned
  cases checked : session.checkReconcile anp self observation with
  | error e => rw [checked] at returned; cases returned
  | ok _ =>
    rw [checked] at returned
    have hashed := checkReconcile_ok checked
    simp only [Prod.mk.injEq, except_bind_ok] at returned
    obtain ⟨⟨⟨made, outcome⟩, ran, outcomes⟩, left⟩ := returned
    obtain ⟨rfl, result⟩ := reported_ok ran
    cases outcome with
    | remoteOld =>
      simp only [DocumentChangeSession.reconciledOutcome, except_bind_ok] at outcomes
      obtain ⟨_, -, outcomes⟩ := outcomes
      split at outcomes <;> cases outcomes
    | committed =>
      obtain ⟨evidence, seen, next, current, made, final, cases⟩ := reconcileWith_committed result
      obtain ⟨pending, commits⟩ := commitRecord_commits made
      obtain ⟨named, cached, digests⟩ := cached_candidate meets held current
      have stored : after.identities self.identityId = some next.raised := by
        rw [← left]
        change ((session.reconcileWith anp self observation).final _).identities _ = _
        have next_named : next.raised.identityId = self.identityId := by
          obtain ⟨_, _, _, _, -, -, -, -, -, rfl⟩ := commits.committed
          exact named
        rw [final, ← next_named, identities_put_self]
      refine ⟨seen, next.raised, current.read, stored, ?_⟩
      rcases cases with ⟨candidate, rfl⟩ | ⟨other, rfl, cachedPending, required, observed⟩
      · exact iff_of_true (.of_evidence hashed commits) (.inl candidate)
      · rw [requiredPending_ok, ← cached, commits.found] at required
        obtain rfl := Option.some.inj required.1
        have digest := digests pending commits.found
        rw [digest_forms observed] at hashed
        rw [recordsObservation_counted commits ((digest_forms digest).trans hashed)]
        exact ⟨.inr, fun observes => observes.resolve_left other⟩

end

namespace Plain

/-- The numbers at the top of a document in one spelling: `2 k` is the integer `k` and `2 k + 1` the float `k.0`. -/
def whole : Value → Value
  | .object fields => .object (fields.map (fun field =>
      match field.2 with
      | .number n => (field.1, .number (n / 2))
      | _ => field))
  | value => value

def floating : Anp := { anp with canonicalJson := fun value => anp.canonicalJson (whole value) }

/-- The document with a number that its DID method knows nothing of. -/
def levelled (level : Int) : Value → Value
  | .object fields => .object (Object.insert "level" (.number level) fields)
  | value => value

def levelImport : IdentityImportSpec :=
  let document := levelled 2 (rootDocument [])
  { firstVersion with
    verifiedDocument := document
    evidence := ⟨1, 1, ((documentDigest floating document).toOption).getD ""⟩ }

/-- A service update of an imported document whose outcome got lost. -/
def uncertain : List Event := lost [.openStore none, .store 0 (.importIdentity levelImport) (entropy "0" 1) none]

def uncertainWorld : World := World.initial.run floating uncertain

/-- The session that resumes the pending revision of an engine. -/
def resumed (self : DidIdentity) : DocumentChangeSession where
  engine := 0
  reference := ⟨self.identityId, self.did⟩
  candidate :=
    match self.record.pendingRevision with
    | some pending => ⟨pending.revisionId, pending.candidateDocument, pending.candidateDigest⟩
    | none => ⟨"", .null, ""⟩

/-- The ninth version of the candidate, read back with another spelling of its number. -/
def ninth (level : Int) (self : DidIdentity) : VerifiedRemoteDocument :=
  let document := levelled level (resumed self).candidate.candidateDocument
  { document, evidence := ⟨9, 9, ((documentDigest floating document).toOption).getD ""⟩ }

def reconciles (level : Int) (self : DidIdentity) : IdentityResult ReconciledOutcome × Store :=
  (resumed self).reconcile floating self (ninth level self) none uncertainWorld.store

def commitsAt (level : Int) (version : Nat) : Bool :=
  uncertainWorld.identities[0]?.any (fun self =>
    match reconciles level self with
    | (.ok (.committed _), after) =>
      (after.identities self.identityId).any (fun record => record.checkpoint.map (·.documentVersion) == some version)
    | _ => false)

theorem uncertain_meets : World.initial.Meets floating (fun _ _ => True) uncertain := by decide +kernel

theorem commitsAt_committed {level : Int} {version : Nat} (commits : commitsAt level version = true) :
    ∃ self engine after committed, uncertainWorld.identities[(resumed self).engine]? = some self ∧
      reconciles level self = (.ok (.committed engine), after) ∧ after.identities self.identityId = some committed ∧
      committed.checkpoint.map (·.documentVersion) = some version := by
  obtain ⟨self, held, commits⟩ := Option.any_eq_true _ _ |>.mp commits
  split at commits
  · rename_i engine after returned
    obtain ⟨committed, stored, numbered⟩ := Option.any_eq_true _ _ |>.mp commits
    exact ⟨self, engine, after, committed, held, returned, stored, by simpa using numbered⟩
  · cases commits

end Plain

theorem reconciled_commit_records_candidate : ∃ self engine after,
    Plain.reconciles 2 self = (.ok (.committed engine), after) ∧ ∃ before committed,
      after.identities self.identityId = some committed ∧ RecordsObservation (Plain.ninth 2 self) before committed := by
  have commits : Plain.commitsAt 2 9 = true := by decide +kernel
  have candidate : ∀ self ∈ Plain.uncertainWorld.identities[0]?,
      (Plain.ninth 2 self).document = (Plain.resumed self).candidate.candidateDocument := by decide +kernel
  obtain ⟨self, engine, after, committed, held, returned, stored, -⟩ := Plain.commitsAt_committed commits
  obtain ⟨before, committed, -, stored, records⟩ := reconciled_commit_records_iff Plain.uncertain_meets held returned
  refine ⟨self, engine, after, returned, before, committed, stored, records.mpr (.inl (candidate self held))⟩

/-- The candidate comes back with its number spelt as a float, in version 9. The commit makes it version 2. -/
theorem reconciled_observation_renumbered :
    World.initial.Meets Plain.floating (fun _ _ => True) Plain.uncertain ∧ ∃ self engine after committed,
      Plain.uncertainWorld.identities[(Plain.resumed self).engine]? = some self ∧
      (Plain.resumed self).reconcile Plain.floating self (Plain.ninth 3 self) none Plain.uncertainWorld.store =
        (.ok (.committed engine), after) ∧
      after.identities self.identityId = some committed ∧
      ∀ before, ¬ RecordsObservation (Plain.ninth 3 self) before committed := by
  have commits : Plain.commitsAt 3 2 = true := by decide +kernel
  obtain ⟨self, engine, after, committed, held, returned, stored, numbered⟩ := Plain.commitsAt_committed commits
  refine ⟨Plain.uncertain_meets, self, engine, after, committed, held, returned, stored, fun before records => ?_⟩
  rw [records.checkpoint] at numbered
  cases numbered

end AnpIdentity
