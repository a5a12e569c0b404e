import AnpIdentity.Publication

/-! Sessions of document changes. A session holds the engine of an identity and works on the record that the engine
has cached; the store decides when the engine writes. The mutex of the engine keeps the cached record from changing
between the checks of a session and the first call that they lead to, so the two are one event here. A rejection
makes a second call, and other processes may use the store before it. -/

namespace AnpIdentity
open Durable Program

/-- Errors of the facade. -/
inductive IdentityError where
  | invalidRequest | storeNotFound | providerUnavailable | rootKeyMismatch | corruptState | identityNotFound
  | identityAlreadyExists | keyNotFound | keyUnavailable | keyPurposeViolation | ambiguousKey | verificationFailed
  | pendingDocumentChange | documentChangeNotFound | invalidDocumentChangeState | conflict | capabilityUnavailable
  | unsupported | storage | internal
  deriving Repr, DecidableEq

abbrev IdentityResult := Except IdentityError

def IdentityError.ofDidError : DidError → IdentityError
  | .invalidDomain | .emptyPath | .invalidPathSegment | .invalidKidFragment | .invalidManagedRootCount
  | .externalRootControl | .missingManagedRequestSigning | .foreignKid | .duplicateKid | .invalidPublicKey
  | .invalidService | .invalidExtension | .invalidPeerKey | .invalidRootTransfer | .rootTransferExpired => .invalidRequest
  | .storeNotFound => .storeNotFound
  | .providerUnavailable => .providerUnavailable
  | .rootKeyMismatch => .rootKeyMismatch
  | .corruptRecord | .serialization _ | .invalidIdentity => .corruptState
  | .secretNotFound | .keyNotFound => .keyNotFound
  | .identityNotFound => .identityNotFound
  | .duplicateIdentity => .identityAlreadyExists
  | .externalKeyOperation | .keyNotUsable | .keyMaterialErased => .keyUnavailable
  | .keyRoleViolation => .keyPurposeViolation
  | .verificationFailed => .verificationFailed
  | .pendingRevisionExists | .pendingRootTransferExists => .pendingDocumentChange
  | .pendingRevisionNotFound => .documentChangeNotFound
  | .invalidPublicationState => .invalidDocumentChangeState
  | .conflict => .conflict
  | .rootCapabilityUnavailable => .capabilityUnavailable
  | .unsupportedOperation => .unsupported
  | .io _ => .storage
  | .crypto => .internal

structure IdentityRef where
  identityId : String
  did : String
  deriving Repr, DecidableEq

structure PreparedDocumentChange where
  operationId : String
  candidateDocument : Value
  candidateDigest : String
  deriving Repr, DecidableEq

structure VerifiedPublicationEvidence where
  documentVersion : Nat
  registryVersion : Nat
  documentDigest : String
  deriving Repr, DecidableEq

/-- The attempt that a result must be about. -/
structure PublicationAttempt where
  operationId : String
  candidateDigest : String
  publicationGeneration : Nat
  deriving Repr, DecidableEq

/-- What the publisher reports. -/
inductive PublicationResult where
  | confirmed (evidence : VerifiedPublicationEvidence)
  | rejectedBeforeAcceptance
  | unknown
  deriving Repr, DecidableEq

/-- The outcomes of `complete`. A commit shows the identity as the engine has it then. -/
inductive DocumentChangeOutcome where
  | publicationUncertain
  | committed (identity : DidIdentity)
  | aborted
  deriving Repr, DecidableEq

/-- `engine` is the position of the engine's handle in the world. -/
structure DocumentChangeSession where
  engine : Nat
  reference : IdentityRef
  candidate : PreparedDocumentChange
  deriving Repr, DecidableEq

def engineEvidence (evidence : VerifiedPublicationEvidence) : VerifiedDocumentEvidence where
  documentVersion := evidence.documentVersion
  registryVersion := evidence.registryVersion
  documentDigest :=
    if Text.startsWith evidence.documentDigest "sha256:" then evidence.documentDigest
    else "sha256:" ++ evidence.documentDigest

/-- The evidence is about the candidate. -/
def validateEvidence (evidence : VerifiedPublicationEvidence) (expectedDigest : String) : IdentityResult Unit :=
  if evidence.documentVersion = 0 ∨ evidence.registryVersion = 0 ∨ evidence.documentDigest ≠ expectedDigest then
    .error .invalidRequest
  else .ok ()

namespace DocumentChangeSession
variable (session : DocumentChangeSession)

/-- The revision that the session was opened on. -/
def requiredPending (engine : DidIdentity) : IdentityResult PendingRevisionRecord :=
  match engine.record.pendingRevision with
  | none => .error .documentChangeNotFound
  | some pending =>
    if pending.revisionId ≠ session.candidate.operationId ∨ pending.candidateDigest ≠ session.candidate.candidateDigest ∨
        engine.identityId ≠ session.reference.identityId ∨ engine.did ≠ session.reference.did then
      .error .conflict
    else .ok pending

def validateAttempt (attempt : PublicationAttempt) (pending : PendingRevisionRecord) : IdentityResult Unit :=
  if attempt.operationId ≠ session.candidate.operationId ∨ attempt.candidateDigest ≠ session.candidate.candidateDigest ∨
      attempt.publicationGeneration ≠ pending.generation then
    .error .conflict
  else .ok ()

/-- The call that `begin_publication` makes after its checks, if it makes one. -/
def beginPublication (engine : DidIdentity) : IdentityResult (Option IdentityCall) := do
  let pending ← session.requiredPending engine
  match pending.state with
  | .prepared => .ok (some (.beginPublication session.candidate.operationId))
  | .publicationInFlight | .published => .ok none
  | .publicationUncertain => .error .invalidDocumentChangeState

/-- What `begin_publication` returns in the end. -/
def attempt (engine : DidIdentity) : IdentityResult PublicationAttempt := do
  let pending ← session.requiredPending engine
  .ok { operationId := session.candidate.operationId
        candidateDigest := session.candidate.candidateDigest
        publicationGeneration := pending.generation }

/-- The first call that `complete` makes after its checks. -/
def complete (engine : DidIdentity) (attempt : PublicationAttempt) (result : PublicationResult) :
    IdentityResult IdentityCall := do
  let pending ← session.requiredPending engine
  session.validateAttempt attempt pending
  match result with
  | .confirmed evidence =>
    validateEvidence evidence session.candidate.candidateDigest
    if pending.state = .publicationInFlight ∨ pending.state = .published then
      .ok (.commitVerifiedUpdate session.candidate.operationId false (engineEvidence evidence))
    else .error .invalidDocumentChangeState
  | .rejectedBeforeAcceptance =>
    if pending.state ≠ .publicationInFlight then .error .invalidDocumentChangeState
    else .ok (.rejectPublicationBeforeAcceptance session.candidate.operationId)
  | .unknown =>
    if pending.state ≠ .publicationInFlight then .error .invalidDocumentChangeState
    else .ok (.markPublicationUncertain session.candidate.operationId)

end DocumentChangeSession

/-- What `complete` returns once its first call is over: nothing yet after a rejection, which aborts the update next. -/
def PublicationResult.answer (result : PublicationResult) :
    IdentityResult DidIdentity → Option (IdentityResult DocumentChangeOutcome)
  | .error e => some (.error e)
  | .ok engine =>
    match result with
    | .confirmed _ => some (.ok (.committed engine))
    | .rejectedBeforeAcceptance => none
    | .unknown => some (.ok .publicationUncertain)

/-- What a call on an engine returns to a session. A durable step that fails is a failure of the storage. -/
def reported {α : Type} (p : Tx α) (fault : Option Nat) (s : Store) : IdentityResult α :=
  match fault with
  | some _ => .error .storage
  | none => (p.result s).mapError .ofDidError

/-! ## Runs -/

/-- A call of `complete`: the stores before and after each call that it made, and its answer. The answer of a
rejection is open until its update is aborted. -/
structure Completion where
  session : DocumentChangeSession
  attempt : PublicationAttempt
  effects : List (Store × Store)
  answer : Option (IdentityResult DocumentChangeOutcome)

def Completion.Changes (completion : Completion) : Prop := ∃ effect ∈ completion.effects, effect.2 ≠ effect.1

/-- A world, the attempts that sessions were given and the calls of `complete`. -/
structure Desk where
  world : World
  attempts : List PublicationAttempt
  completions : List Completion

def Desk.initial : Desk where
  world := .initial
  attempts := []
  completions := []

/-- Sessions may have any contents and use any attempt. All else that handles do, the reconciliations of sessions
included, are events of the engine. -/
inductive SessionEvent where
  | engine (event : Event)
  | beginPublication (session : DocumentChangeSession) (entropy : Entropy) (fault : Option Nat)
  | complete (session : DocumentChangeSession) (attempt : PublicationAttempt) (result : PublicationResult)
      (entropy : Entropy) (fault : Option Nat)
  | abort (completion : Nat) (entropy : Entropy) (fault : Option Nat)

section
variable (anp : Anp) (desk : Desk)

/-- The call on the engine that an event of a session leads to. -/
def SessionEvent.asks : SessionEvent → Option Event
  | .engine event => some event
  | .beginPublication session entropy fault => do
    let engine ← desk.world.identities[session.engine]?
    let call ← (session.beginPublication engine).toOption.join
    return .identity session.engine call entropy fault
  | .complete session attempt result entropy fault => do
    let engine ← desk.world.identities[session.engine]?
    let call ← (session.complete engine attempt result).toOption
    return .identity session.engine call entropy fault
  | .abort k entropy fault => do
    let completion ← desk.completions[k]?
    if completion.answer.isSome then none
    else some (.identity completion.session.engine (.abortUpdate completion.session.candidate.operationId) entropy fault)

def SessionEvent.world (event : SessionEvent) : World :=
  match event.asks desk with
  | none => desk.world
  | some event => desk.world.step anp event

/-- The attempt that `begin_publication` returns, on an engine that the call it made has replaced. -/
def SessionEvent.attempts : SessionEvent → Option PublicationAttempt
  | .beginPublication session entropy fault => do
    let engine ← desk.world.identities[session.engine]?
    match session.beginPublication engine with
    | .error _ => none
    | .ok none => (session.attempt engine).toOption
    | .ok (some call) => do
      let engine ← (reported (call.run anp engine entropy) fault desk.world.store).toOption
      (session.attempt engine).toOption
  | _ => none

/-- The call of `complete` as its first call leaves it. -/
def DocumentChangeSession.completion (session : DocumentChangeSession) (engine : DidIdentity) (attempt : PublicationAttempt)
    (result : PublicationResult) (entropy : Entropy) (fault : Option Nat) (w after : World) : Completion :=
  match session.complete engine attempt result with
  | .error e => { session, attempt, effects := [], answer := some (.error e) }
  | .ok call =>
    { session, attempt, effects := [(w.store, after.store)],
      answer := result.answer (reported (call.run anp engine entropy) fault w.store) }

/-- The call of `complete` once its update is aborted. -/
def Completion.abort (completion : Completion) (engine : DidIdentity) (entropy : Entropy) (fault : Option Nat)
    (w after : World) : Completion :=
  { completion with
    effects := completion.effects ++ [(w.store, after.store)]
    answer := some ((reported (engine.abortUpdate anp entropy completion.session.candidate.operationId) fault w.store).map
      (fun _ => .aborted)) }

def SessionEvent.completions (event : SessionEvent) : List Completion :=
  match event with
  | .complete session attempt result entropy fault =>
    match desk.world.identities[session.engine]? with
    | none => desk.completions
    | some self =>
      desk.completions ++ [session.completion anp self attempt result entropy fault desk.world (event.world anp desk)]
  | .abort k entropy fault =>
    match desk.completions[k]? with
    | none => desk.completions
    | some completion =>
      match desk.world.identities[completion.session.engine]?, completion.answer with
      | some self, none =>
        desk.completions.set k (completion.abort anp self entropy fault desk.world (event.world anp desk))
      | _, _ => desk.completions
  | _ => desk.completions

def Desk.step (event : SessionEvent) : Desk where
  world := event.world anp desk
  attempts := desk.attempts ++ (event.attempts anp desk).toList
  completions := event.completions anp desk

def Desk.run (events : List SessionEvent) : Desk := events.foldl (Desk.step anp) desk

/-- The calls of a run draw new identifiers. -/
def Desk.Draws : Desk → List SessionEvent → Prop
  | _, [] => True
  | desk, event :: rest => (∀ asked ∈ event.asks desk, asked.Fresh desk.world) ∧ Draws (desk.step anp event) rest

instance Desk.decidableDraws : ∀ desk events, Decidable (Desk.Draws anp desk events)
  | _, [] => isTrue trivial
  | desk, event :: rest =>
    have := decidableDraws (desk.step anp event) rest
    inferInstanceAs (Decidable (_ ∧ _))

end

/-! ## Revisions along a run -/

section
variable {anp : Anp} {w : World} {event : Event} {desk : Desk} {entropy : Entropy} {fault : Option Nat} {self : DidIdentity}
  {handle : Nat} {call : IdentityCall}

/-- Where a pending revision after an event comes from. -/
inductive Descends (w : World) (event : Event) (id : String) (pending : PendingRevisionRecord) : Prop
  | kept {file : IdentityRecord} {old : PendingRevisionRecord} (found : w.store.identities id = some file)
      (pends : file.pendingRevision = some old) (same : old.revisionId = pending.revisionId)
      (later : old.generation ≤ pending.generation)
  | drawn {handle : Nat} {call : IdentityCall} {entropy : Entropy} {fault : Option Nat} {self : DidIdentity}
      (is : event = .identity handle call entropy fault) (held : w.identities[handle]? = some self)
      (named : id = self.identityId) (new : pending.revisionId = entropy.revisionId)

theorem World.descends (event : Event) : ∀ id file pending, (w.step anp event).store.identities id = some file →
    file.pendingRevision = some pending → Descends w event id pending := by
  rw [World.identities_step]
  have moves : Traced (FileMove anp w event) w.store (event.writes anp w) := event.fileMoves
  refine moves.invariant (I := fun t => ∀ id file pending, t.identities id = some file →
    file.pendingRevision = some pending → Descends w event id pending) (fun t v now move => ?_)
    (fun id file pending found pends => .kept found pends rfl le_rfl)
  refine move.revisions now (fun _ _ _ _ _ _ is held new => .drawn is held rfl new) (fun id old state _ descends => ?_)
  cases descends with
  | kept found pends same later => exact .kept found pends same (Nat.le_succ_of_le later)
  | drawn is held named new => exact .drawn is held named new

/-- The ids of pending revisions were drawn, and no two identities have the same. -/
structure World.Distinct (w : World) : Prop where
  known : ∀ id file pending, w.store.identities id = some file → file.pendingRevision = some pending →
    pending.revisionId ∈ w.issued
  owned : ∀ id file pending id' file' pending', w.store.identities id = some file → file.pendingRevision = some pending →
    w.store.identities id' = some file' → file'.pendingRevision = some pending' → pending.revisionId = pending'.revisionId →
    id = id'

theorem World.Distinct.step (distinct : w.Distinct) (fresh : event.Fresh w) : (w.step anp event).Distinct := by
  have steps : w.Steps anp event (w.step anp event) := World.steps event
  have unknown : ∀ {entropy : Entropy} {handle call fault}, event = .identity handle call entropy fault →
      entropy.revisionId ∉ w.issued := by
    rintro entropy handle call fault rfl
    exact fresh.2 _ (by simp [Event.ids, Entropy.ids])
  refine ⟨fun id file pending found pends => ?_, fun id file pending id' file' pending' found pends found' pends' same => ?_⟩
  · cases World.descends event id file pending found pends with
    | kept before was same =>
      rw [← same]
      exact steps.kept _ (distinct.known _ _ _ before was)
    | @drawn handle call entropy fault self is held named new =>
      rw [is, new]
      simp only [World.step, held]
      split <;> simp [Entropy.ids]
  · cases World.descends event id file pending found pends with
    | kept before was equal =>
      cases World.descends event id' file' pending' found' pends' with
      | kept before' was' equal' =>
        exact distinct.owned _ _ _ _ _ _ before was before' was' (by rw [equal, equal', same])
      | drawn is _ _ new =>
        refine absurd (distinct.known _ _ _ before was) ?_
        rw [equal, same, new]
        exact unknown is
    | drawn is held named new =>
      cases World.descends event id' file' pending' found' pends' with
      | kept before' was' equal' =>
        refine absurd (distinct.known _ _ _ before' was') ?_
        rw [equal', ← same, new]
        exact unknown is
      | drawn is' held' named' _ =>
        cases is.symm.trans is'
        cases held.symm.trans held'
        rw [named, named']

/-- No pending revision is at the generation of the attempt, and none will be. -/
structure Spent (w : World) (attempt : PublicationAttempt) : Prop where
  known : attempt.operationId ∈ w.issued
  later : ∀ id file pending, w.store.identities id = some file → file.pendingRevision = some pending →
    pending.revisionId = attempt.operationId → attempt.publicationGeneration < pending.generation

variable {attempt : PublicationAttempt} {session : DocumentChangeSession} {result : PublicationResult}

theorem Spent.step (spent : Spent w attempt) (fresh : event.Fresh w) : Spent (w.step anp event) attempt := by
  have steps : w.Steps anp event (w.step anp event) := World.steps event
  refine ⟨steps.kept _ spent.known, fun id file pending found pends named => ?_⟩
  cases World.descends event id file pending found pends with
  | kept before was same later =>
    have passed := spent.later _ _ _ before was (same.trans named)
    omega
  | drawn is _ _ new =>
    refine absurd spent.known (fresh.2 _ ?_)
    rw [← named, is, new]
    simp [Event.ids, Entropy.ids]

/-! ## Calls of `complete` -/

/-- The first calls of `complete`. -/
inductive Concludes (revisionId : String) : IdentityCall → Prop
  | commit (evidence : VerifiedDocumentEvidence) : Concludes revisionId (.commitVerifiedUpdate revisionId false evidence)
  | reject : Concludes revisionId (.rejectPublicationBeforeAcceptance revisionId)
  | lose : Concludes revisionId (.markPublicationUncertain revisionId)

/-- What the checks of `complete` establish about the cached record. -/
structure Checked (session : DocumentChangeSession) (engine : DidIdentity) (attempt : PublicationAttempt)
    (pending : PendingRevisionRecord) : Prop where
  cached : engine.record.pendingRevision = some pending
  revisionId : pending.revisionId = attempt.operationId
  operationId : session.candidate.operationId = attempt.operationId
  generation : pending.generation = attempt.publicationGeneration

theorem DocumentChangeSession.complete_ok (asked : session.complete self attempt result = .ok call) :
    Concludes attempt.operationId call ∧ ∃ pending, Checked session self attempt pending := by
  obtain ⟨pending, required, rest⟩ := except_bind_ok.mp asked
  obtain ⟨⟨⟩, validated, rest⟩ := except_bind_ok.mp rest
  have checked : Checked session self attempt pending := by
    unfold requiredPending at required
    split at required
    · cases required
    · rename_i found cached
      split at required
      · cases required
      · rename_i same
        cases required
        unfold validateAttempt at validated
        split at validated
        · cases validated
        · rename_i valid
          simp only [not_or, ne_eq, not_not] at same valid
          exact ⟨cached, same.1.trans valid.1.symm, valid.1.symm, valid.2.2.symm⟩
  refine ⟨?_, pending, checked⟩
  rw [← checked.operationId]
  cases result with
  | confirmed evidence =>
    obtain ⟨⟨⟩, -, rest⟩ := except_bind_ok.mp rest
    split at rest
    · cases rest
      exact .commit _
    · cases rest
  | rejectedBeforeAcceptance =>
    simp only at rest
    split at rest
    · cases rest
    · cases rest
      exact .reject
  | unknown =>
    simp only at rest
    split at rest
    · cases rest
    · cases rest
      exact .lose

/-- The record that a first call of `complete` stores: its revision has gone or is at the next generation. -/
def Concluded (anp : Anp) (s : Store) (self : DidIdentity) (revisionId : String) (next : IdentityRecord) : Prop :=
  ∃ seen pending, Current anp s self seen ∧ seen.pendingRevision = some pending ∧ pending.revisionId = revisionId ∧
    next.identityId = seen.identityId ∧ next.generation = seen.generation ∧
    ∀ left, next.pendingRevision = some left → left.generation = pending.generation + 1

private theorem Concludes.starts {revisionId : String} {s : Store} {action : IdentityAction}
    (concludes : Concludes revisionId call) (started : call.Starts anp s self entropy action) :
    ∃ change seen next, action = .edit change seen next ∧ change.journaled = false ∧ Concluded anp s self revisionId next := by
  have moved : ∀ {expected state}, MovesPublication anp s self revisionId expected state action →
      ∃ change seen next, action = .edit change seen next ∧ change.journaled = false ∧ Concluded anp s self revisionId next := by
    rintro expected state ⟨seen, next, current, -, made, rfl⟩
    obtain ⟨pending, moves⟩ := transitionRecord_moves made
    refine ⟨_, seen, next, rfl, rfl, ⟨seen, pending, current, moves.found, moves.named, ?_, ?_, ?_⟩⟩
    all_goals rw [moves.moved]
    rintro left ⟨⟩
    rfl
  cases concludes with
  | commit evidence =>
    obtain ⟨seen, next, current, -, made, rfl⟩ := started
    obtain ⟨pending, commits⟩ := commitRecord_commits made
    obtain ⟨_, _, _, _, -, -, -, -, -, rfl⟩ := commits.committed
    exact ⟨_, seen, _, rfl, rfl, ⟨seen, pending, current, commits.found, commits.named, rfl, rfl, fun _ none => nomatch none⟩⟩
  | reject | lose => exact moved started

/-- A first call of `complete` stores one record, or it writes nothing and fails. -/
private theorem Concludes.performs {revisionId : String} {s : Store} (concludes : Concludes revisionId call) :
    (performed (call.run anp self entropy) fault s = [] ∧ ∃ e, reported (call.run anp self entropy) fault s = .error e) ∨
      ∃ next, Concluded anp s self revisionId next ∧
        performed (call.run anp self entropy) fault s = [.identity next.raised] := by
  have acts : Acts anp (call.Starts anp s self entropy) (call.Rests anp s self) entropy self (call.run anp self entropy) s :=
    identityCall_acts call (by cases concludes <;> simp)
  have fails : ∀ {e}, call.run anp self entropy s = ⟨[], .error e⟩ →
      performed (call.run anp self entropy) fault s = [] ∧ ∃ e, reported (call.run anp self entropy) fault s = .error e := by
    intro e run
    refine ⟨performed_nil (by rw [Program.writes, run]), ?_⟩
    cases fault with
    | some n => exact ⟨_, rfl⟩
    | none => exact ⟨.ofDidError e, by rw [reported, Program.result, run]; rfl⟩
  cases acts with
  | refused e run => exact .inl (fails run)
  | idle rests run => cases concludes <;> exact rests.elim
  | acts action started run =>
    obtain ⟨change, seen, next, rfl, plain, concluded⟩ := concludes.starts started
    by_cases room : next.generation + 1 < 2 ^ 64
    · have counted : checkedSucc next.generation = .ok (next.generation + 1) := checkedSucc_ok.mpr ⟨room, rfl⟩
      have writes : (call.run anp self entropy).writes s = [.identity next.raised] := by
        rw [Program.writes, run]
        simp only [IdentityAction.execute, plain, persistRecord, counted]
        rfl
      cases fault with
      | none => exact .inr ⟨next, concluded, writes⟩
      | some n =>
        cases n with
        | zero => exact .inl ⟨rfl, _, rfl⟩
        | succ n => exact .inr ⟨next, concluded, by rw [performed, writes]; simp⟩
    · have full : checkedSucc next.generation = .error .conflict := if_neg room
      refine .inl (fails (e := .conflict) ?_)
      rw [run]
      simp only [IdentityAction.execute, plain, persistRecord, full]
      rfl

private theorem store_identity (held : w.identities[handle]? = some self) :
    (w.step anp (.identity handle call entropy fault)).store =
      applyAll w.store (performed (call.run anp self entropy) fault w.store) := by
  rw [← perform_store]
  simp only [World.step, held]
  split <;> rfl

/-- A first call of `complete` fails and leaves the store as it is, or it spends the attempt. -/
private theorem Concludes.ends {pending : PendingRevisionRecord} (concludes : Concludes attempt.operationId call)
    (entropy : Entropy) (fault : Option Nat) (checked : Checked session self attempt pending)
    (held : w.identities[handle]? = some self) (agreed : w.Agreed anp) (distinct : w.Distinct) :
    let after := w.step anp (.identity handle call entropy fault)
    (after.store = w.store ∧ ∃ e, reported (call.run anp self entropy) fault w.store = .error e) ∨
      (after.store ≠ w.store ∧ ¬ Spent w attempt ∧ Spent after attempt) := by
  intro after
  have store : after.store = applyAll w.store (performed (call.run anp self entropy) fault w.store) := store_identity held
  have performs : (performed (call.run anp self entropy) fault w.store = [] ∧ _) ∨ _ := concludes.performs
  rcases performs with ⟨nothing, failed⟩ | ⟨next, ⟨seen, found, current, pends, named, same, level, left⟩, wrote⟩
  · rw [nothing, applyAll_nil] at store
    exact .inl ⟨store, failed⟩
  right
  rw [wrote] at store
  obtain ⟨file, filed, shown, completed⟩ := current.agrees (agreed _ _ held).2
  have read : Shown anp file seen := .inr completed
  -- the cached revision is the one in the file, because the generations of the records agree
  have stored : file.pendingRevision = some pending := by
    rw [← shown.mirrors.pendingRevision]
    exact checked.cached
  have equal : found = pending := by
    rw [read.mirrors.pendingRevision, stored, Option.some.injEq] at pends
    exact pends.symm
  subst equal
  have owner : next.identityId = self.identityId := same.trans (readIdentity_named current.read)
  have kept : ∀ id, id ≠ self.identityId → after.store.identities id = w.store.identities id := by
    intro id other
    rw [store]
    exact identities_put_ne w.store (by rwa [IdentityRecord.raised, owner])
  have put : after.store.identities self.identityId = some next.raised := by
    rw [store, ← owner]
    exact identities_put_self w.store next.raised
  refine ⟨fun unchanged => ?_, fun spent => ?_, ?_, ?_⟩
  · rw [unchanged, filed, Option.some.injEq] at put
    have raised : file.generation = next.generation + 1 := by rw [put]; rfl
    have before := read.mirrors.generation
    omega
  · have passed := spent.later _ _ _ filed stored checked.revisionId
    have now := checked.generation
    omega
  · rw [← checked.revisionId]
    have steps : w.Steps anp (.identity handle call entropy fault) after := World.steps _
    exact steps.kept _ (distinct.known _ _ _ filed stored)
  · intro id other revision found pends named
    by_cases here : id = self.identityId
    · rw [here, put, Option.some.injEq] at found
      subst found
      have raised := left revision pends
      have now := checked.generation
      omega
    · rw [kept id here] at found
      exact absurd (distinct.owned _ _ _ _ _ _ found pends filed stored (named.trans checked.revisionId.symm)) here

/-! ## Attempts -/

/-- Where a call of `complete` in the log of a run comes from. -/
inductive Logged (anp : Anp) (desk : Desk) (event : SessionEvent) (i : Nat) (completion : Completion) : Prop
  | same (before : desk.completions[i]? = some completion)
  | aborted {old : Completion} (before : desk.completions[i]? = some old) (due : old.answer = none)
      (attempt : completion.attempt = old.attempt) (effects : ∀ effect ∈ old.effects, effect ∈ completion.effects)
  | new {session : DocumentChangeSession} {self : DidIdentity} {attempt : PublicationAttempt} {result : PublicationResult}
      {entropy : Entropy} {fault : Option Nat} (last : i = desk.completions.length)
      (is : event = .complete session attempt result entropy fault) (held : desk.world.identities[session.engine]? = some self)
      (made : completion = session.completion anp self attempt result entropy fault desk.world (event.world anp desk))

theorem Desk.logged {event : SessionEvent} {i : Nat} {completion : Completion}
    (listed : (desk.step anp event).completions[i]? = some completion) : Logged anp desk event i completion := by
  change (event.completions anp desk)[i]? = some completion at listed
  cases event with
  | engine event | beginPublication session entropy fault => exact .same listed
  | complete session attempt result entropy fault =>
    simp only [SessionEvent.completions] at listed
    cases held : desk.world.identities[session.engine]? with
    | none =>
      rw [held] at listed
      exact .same listed
    | some self =>
      simp only [held] at listed
      by_cases old : i < desk.completions.length
      · rw [List.getElem?_append_left old] at listed
        exact .same listed
      · rw [List.getElem?_append_right (by omega), List.getElem?_singleton] at listed
        split at listed
        · rename_i last
          cases listed
          exact .new (by omega) rfl held rfl
        · cases listed
  | abort k entropy fault =>
    simp only [SessionEvent.completions] at listed
    cases logged : desk.completions[k]? with
    | none =>
      rw [logged] at listed
      exact .same listed
    | some old =>
      simp only [logged] at listed
      split at listed
      · rename_i self held due
        by_cases here : i = k
        · subst here
          obtain ⟨inside, -⟩ := List.getElem?_eq_some_iff.mp logged
          rw [List.getElem?_set_self inside, Option.some.injEq] at listed
          subst listed
          exact .aborted logged due rfl (fun effect => List.mem_append_left _)
        · rw [List.getElem?_set_ne (fun equal => here equal.symm)] at listed
          exact .same listed
      · exact .same listed

/-- In every state of a run of sessions: attempts that were used are spent, no two calls used the same, and a call
that used none has failed. -/
structure Desk.Sound (anp : Anp) (desk : Desk) : Prop where
  filed : desk.world.Filed
  agreed : desk.world.Agreed anp
  distinct : desk.world.Distinct
  spent : ∀ completion ∈ desk.completions, completion.Changes → Spent desk.world completion.attempt
  once : ∀ (i j : Nat) c d, i ≠ j → desk.completions[i]? = some c → desk.completions[j]? = some d → c.attempt = d.attempt →
    c.Changes → ¬ d.Changes
  failed : ∀ completion ∈ desk.completions, ¬ completion.Changes → ∃ e, completion.answer = some (.error e)

/-- A new call of `complete` fails and leaves the store as it is, or it spends an attempt that was not spent. -/
private theorem Desk.Sound.completion {event : SessionEvent} (sound : desk.Sound anp)
    (is : event = .complete session attempt result entropy fault)
    (held : desk.world.identities[session.engine]? = some self) :
    let made := session.completion anp self attempt result entropy fault desk.world (event.world anp desk)
    made.attempt = attempt ∧ ((¬ made.Changes ∧ ∃ e, made.answer = some (.error e)) ∨
      (made.Changes ∧ ¬ Spent desk.world attempt ∧ Spent (event.world anp desk) attempt)) := by
  intro made
  cases asked : session.complete self attempt result with
  | error e =>
    have is : made = { session, attempt, effects := [], answer := some (.error e) } := by
      simp only [made, DocumentChangeSession.completion, asked]
    rw [is]
    refine ⟨rfl, .inl ⟨?_, e, rfl⟩⟩
    rintro ⟨effect, listed, -⟩
    cases listed
  | ok call =>
    have leads : event.world anp desk = desk.world.step anp (.identity session.engine call entropy fault) := by
      rw [SessionEvent.world, is]
      simp only [SessionEvent.asks, held, Option.bind_eq_bind, Option.bind_some, asked, Except.toOption]
      rfl
    have is : made = { session, attempt, effects := [(desk.world.store, (event.world anp desk).store)],
                       answer := result.answer (reported (call.run anp self entropy) fault desk.world.store) } := by
      simp only [made, DocumentChangeSession.completion, asked]
    obtain ⟨concludes, pending, checked⟩ := session.complete_ok asked
    rw [is]
    refine ⟨rfl, ?_⟩
    rcases concludes.ends entropy fault checked held sound.agreed sound.distinct with ⟨same, e, failed⟩ | ⟨changed, unspent, spent⟩
    · refine .inl ⟨?_, e, by simp only [failed, PublicationResult.answer]⟩
      rintro ⟨effect, listed, changed⟩
      cases List.mem_singleton.mp listed
      rw [leads] at changed
      exact changed same
    · rw [leads]
      exact .inr ⟨⟨_, List.mem_singleton_self _, changed⟩, unspent, spent⟩

/-- What holds of a world and is kept by events with new identifiers is kept by the events of sessions. -/
private theorem Desk.step_world {I : World → Prop} {event : SessionEvent}
    (fresh : ∀ asked ∈ event.asks desk, asked.Fresh desk.world)
    (step : ∀ event : Event, event.Fresh desk.world → I (desk.world.step anp event)) (now : I desk.world) :
    I (event.world anp desk) := by
  unfold SessionEvent.world
  split
  · exact now
  · rename_i asked leads
    exact step asked (fresh asked leads)

theorem Desk.Sound.step {event : SessionEvent} (sound : desk.Sound anp)
    (fresh : ∀ asked ∈ event.asks desk, asked.Fresh desk.world) : (desk.step anp event).Sound anp := by
  have kept : ∀ {attempt}, Spent desk.world attempt → Spent (event.world anp desk) attempt := fun spent =>
    Desk.step_world (I := fun w => Spent w _) fresh (fun _ fresh => spent.step fresh) spent
  have changed : ∀ {old new : Completion}, old ∈ desk.completions → old.answer = none → new.attempt = old.attempt →
      (∀ effect ∈ old.effects, effect ∈ new.effects) → old.Changes ∧ new.Changes := by
    intro old new listed due _ effects
    by_cases changes : old.Changes
    · obtain ⟨effect, inside, other⟩ := changes
      exact ⟨⟨effect, inside, other⟩, effect, effects effect inside, other⟩
    · obtain ⟨e, failed⟩ := sound.failed old listed changes
      rw [due] at failed
      cases failed
  -- a call that changed the store after the event had done so before, or has just spent its attempt
  have origin : ∀ {i c}, (desk.step anp event).completions[i]? = some c → c.Changes →
      (∃ old, desk.completions[i]? = some old ∧ old.Changes ∧ old.attempt = c.attempt) ∨
      (i = desk.completions.length ∧ ¬ Spent desk.world c.attempt ∧ Spent (event.world anp desk) c.attempt) := by
    intro i c listed changes
    cases Desk.logged listed with
    | same before => exact .inl ⟨c, before, changes, rfl⟩
    | aborted before due attempt effects =>
      exact .inl ⟨_, before, (changed (List.mem_of_getElem? before) due attempt effects).1, attempt.symm⟩
    | new last is held made =>
      obtain ⟨attempt, ⟨unchanged, -⟩ | ⟨-, unspent, spent⟩⟩ := sound.completion is held
      · rw [made] at changes
        exact absurd changes unchanged
      · rw [made, attempt]
        exact .inr ⟨last, unspent, spent⟩
  refine ⟨?_, ?_, ?_, ?_, ?_, ?_⟩
  · exact Desk.step_world (I := World.Filed) fresh (fun event _ => sound.filed.step event) sound.filed
  · exact Desk.step_world (I := World.Agreed anp) fresh (fun event fresh => sound.agreed.step sound.filed fresh) sound.agreed
  · exact Desk.step_world (I := World.Distinct) fresh (fun event fresh => sound.distinct.step fresh) sound.distinct
  · intro c listed changes
    obtain ⟨i, listed⟩ := List.mem_iff_getElem?.mp listed
    rcases origin listed changes with ⟨old, before, changed, attempt⟩ | ⟨-, -, spent⟩
    · rw [← attempt]
      exact kept (sound.spent old (List.mem_of_getElem? before) changed)
    · exact spent
  · intro i j c d apart first second attempt changes again
    rcases origin first changes with ⟨old, before, changed, same⟩ | ⟨last, unspent, -⟩ <;>
      rcases origin second again with ⟨old', before', changed', same'⟩ | ⟨last', unspent', -⟩
    · exact sound.once i j old old' apart before before' (by rw [same, same', attempt]) changed changed'
    · refine unspent' ?_
      rw [← attempt, ← same]
      exact sound.spent old (List.mem_of_getElem? before) changed
    · refine unspent ?_
      rw [attempt, ← same']
      exact sound.spent old' (List.mem_of_getElem? before') changed'
    · exact apart (last.trans last'.symm)
  · intro c listed unchanged
    obtain ⟨i, listed⟩ := List.mem_iff_getElem?.mp listed
    cases Desk.logged listed with
    | same before => exact sound.failed c (List.mem_of_getElem? before) unchanged
    | aborted before due attempt effects =>
      exact absurd (changed (List.mem_of_getElem? before) due attempt effects).2 unchanged
    | new last is held made =>
      rw [made] at unchanged ⊢
      obtain ⟨-, ⟨-, failed⟩ | ⟨changes, -⟩⟩ := sound.completion is held
      · exact failed
      · exact absurd changes unchanged

theorem Desk.sound_run {events : List SessionEvent} (sound : desk.Sound anp) (draws : desk.Draws anp events) :
    (desk.run anp events).Sound anp := by
  induction events generalizing desk with
  | nil => exact sound
  | cons event rest ih => exact ih (sound.step draws.1) draws.2

/-- In every run, at most one call of `complete` with an attempt changes the store; all others fail. -/
theorem attempts_act_once {events : List SessionEvent} (draws : Desk.initial.Draws anp events) :
    let calls := (Desk.initial.run anp events).completions
    (∀ (i j : Nat) c d, i ≠ j → calls[i]? = some c → calls[j]? = some d → c.attempt = d.attempt → c.Changes → ¬ d.Changes) ∧
      ∀ c ∈ calls, ¬ c.Changes → ∃ e, c.answer = some (.error e) := by
  have initial : Desk.initial.Sound anp := by
    refine ⟨World.filed_initial, ?_, ⟨?_, ?_⟩, ?_, ?_, ?_⟩
    · intro i self held
      cases held
    · intro id file pending found
      cases found
    · intro id file pending _ _ _ found
      cases found
    · intro completion listed
      cases listed
    · intro i j c d _ listed
      cases listed
    · intro completion listed
      cases listed
  have sound := Desk.sound_run initial draws
  exact ⟨sound.once, sound.failed⟩

end

namespace Plain

/-- The session of the service update of the first handle. -/
def session (engine : Nat) : DocumentChangeSession where
  engine := engine
  reference := ⟨"i0", "did:web:a.b"⟩
  candidate :=
    let pending := (World.initial.run Plain.anp (updated creation)).identities.head?.bind (·.record.pendingRevision)
    ⟨"r1", candidate (updated creation), (pending.map (·.candidateDigest)).getD ""⟩

/-- The attempt that the session is given first. -/
def firstAttempt : PublicationAttempt := ⟨"r1", (session 0).candidate.candidateDigest, 2⟩

/-- The update is sent out and its outcome gets lost. Then the attempt is used again: by the session, and by the
session of a handle that has read the record meanwhile. -/
def attempts : List SessionEvent :=
  (updated creation).map .engine ++
    [.beginPublication (session 0) (entropy "2" 1) none,
     .complete (session 0) firstAttempt .unknown (entropy "3" 1) none,
     .complete (session 0) firstAttempt .rejectedBeforeAcceptance (entropy "4" 1) none,
     .engine (.store 0 (.openIdentity "did:web:a.b") (entropy "5" 1) none),
     .complete (session 1) firstAttempt .unknown (entropy "6" 1) none]

end Plain

theorem attempts_act_once_lost :
    let desk := Desk.initial.run Plain.anp Plain.attempts
    Desk.initial.Draws Plain.anp Plain.attempts ∧ desk.attempts = [Plain.firstAttempt] ∧
      desk.completions.map (·.answer) =
        [some (.ok .publicationUncertain), some (.error .conflict), some (.error .conflict)] ∧
      (∀ (i j : Nat) c d, i ≠ j → desk.completions[i]? = some c → desk.completions[j]? = some d → c.attempt = d.attempt →
        c.Changes → ¬ d.Changes) ∧ ∀ c ∈ desk.completions, ¬ c.Changes → ∃ e, c.answer = some (.error e) := by
  have draws : Desk.initial.Draws Plain.anp Plain.attempts := by decide +kernel
  exact ⟨draws, by decide +kernel, by decide +kernel, attempts_act_once draws⟩

end AnpIdentity
