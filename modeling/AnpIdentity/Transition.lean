import AnpIdentity.Signing

/-! `facade/identity_transition.rs`: the transition from one identity of a store to another. A journal holds the two
candidate documents and the generations of both identities; sessions move it from one state to the next. Every
operation holds the lock of the store and writes at most the journal, so an operation whose write fails changes
nothing. -/

namespace AnpIdentity
open Durable Program Text

inductive TransitionAssurance where
  | verified | recoveryVerified | providerAsserted | unverified
  deriving Repr, DecidableEq

def assuranceName : TransitionAssurance → String
  | .verified => "verified"
  | .recoveryVerified => "recovery_verified"
  | .providerAsserted => "provider_asserted"
  | .unverified => "unverified"

/-- What the `anp` crate checks about the documents of a transition. -/
structure Hops where
  verifyActiveE1Document : String → Value → Except Unit Unit
  verifyTransitionHop : Value → Value → Option Value → Except Unit TransitionAssurance

/-- The request to move to a successor DID. -/
structure IdentityTransitionRequest where
  expectedCurrentDid : String
  operationId : String
  successor : IdentityRef
  transitionDocument : Option Value
  deriving Repr, DecidableEq

/-- The two documents that are to be published. -/
structure PreparedIdentityTransition where
  operationId : String
  expectedCurrentDid : String
  successorDid : String
  predecessorDocument : Value
  successorDocument : Value
  predecessorDigest : String
  successorDigest : String
  assurance : String
  deriving Repr, DecidableEq

/-- The publication that a result is about. -/
structure IdentityTransitionPublicationAttempt where
  operationId : String
  predecessorDigest : String
  successorDigest : String
  publicationGeneration : Nat
  deriving Repr, DecidableEq

structure IdentityTransitionPublicationEvidence where
  predecessorDigest : String
  successorDigest : String
  deriving Repr, DecidableEq

/-- What the host reports about a publication. -/
inductive IdentityTransitionPublicationResult where
  | confirmed (evidence : IdentityTransitionPublicationEvidence)
  | rejectedBeforeAcceptance
  | unknown
  deriving Repr, DecidableEq

/-- What the host finds published. -/
inductive IdentityTransitionRemoteObservation where
  | remoteOld (currentDocument : Value)
  | published (predecessorDocument successorDocument : Value)
  deriving Repr, DecidableEq

/-- A handle on a transition, with the journal it has seen. -/
structure IdentityTransitionSession where
  journal : IdentityTransitionJournal
  candidate : PreparedIdentityTransition
  deriving Repr, DecidableEq

def deny (condition : Prop) [Decidable condition] (error : IdentityError) : IdentityResult Unit :=
  if condition then .error error else .ok ()

@[simp] theorem deny_ok {condition : Prop} [Decidable condition] {error : IdentityError} {u : Unit} :
    deny condition error = .ok u ↔ ¬ condition := by
  unfold deny
  split <;> simp_all

/-- `Result::map_err(|_| error)` on a check outside the crate. -/
def orElse {ε α : Type} (result : Except ε α) (error : IdentityError) : IdentityResult α := result.mapError (fun _ => error)

@[simp] theorem orElse_ok {ε α : Type} {result : Except ε α} {error : IdentityError} {a : α} :
    orElse result error = .ok a ↔ result = .ok a := by
  cases result <;> simp [orElse, Except.mapError]

section
variable (anp : Anp) (proofs : Proofs) (hops : Hops)

def canonicalDocumentDigest (document : Value) : IdentityResult String := facade (documentDigest anp document)

def Store.readIdentityTransitionJournal (s : Store) (operationId : String) : IdentityResult IdentityTransitionJournal :=
  facade (okOr (s.identityTransitions.entries.find? (·.operationId == operationId)) .pendingRevisionNotFound)

def nextGeneration (generation : Nat) : IdentityResult Nat := facade (checkedSucc generation)

namespace IdentityTransitionJournal
variable (journal : IdentityTransitionJournal)

/-- The states that sessions may move the journal from. -/
def Unfinished : Prop := journal.state ≠ .committed ∧ journal.state ≠ .aborted

def matchesRequest (request : IdentityTransitionRequest) : Bool :=
  journal.operationId == request.operationId && journal.expectedCurrentDid == request.expectedCurrentDid &&
    journal.successorDid == request.successor.did && journal.successorIdentityId == request.successor.identityId &&
    match request.transitionDocument with
    | some document => (canonicalDocumentDigest anp document).toOption == some journal.predecessorDigest
    | none => true

def candidate : IdentityResult PreparedIdentityTransition := do
  let predecessor ← canonicalDocumentDigest anp journal.predecessorDocument
  let successor ← canonicalDocumentDigest anp journal.successorDocument
  deny (predecessor ≠ journal.predecessorDigest ∨ successor ≠ journal.successorDigest) .corruptState
  .ok { operationId := journal.operationId
        expectedCurrentDid := journal.expectedCurrentDid
        successorDid := journal.successorDid
        predecessorDocument := journal.predecessorDocument
        successorDocument := journal.successorDocument
        predecessorDigest := journal.predecessorDigest
        successorDigest := journal.successorDigest
        assurance := journal.assurance }

def attempt : IdentityTransitionPublicationAttempt where
  operationId := journal.operationId
  predecessorDigest := journal.predecessorDigest
  successorDigest := journal.successorDigest
  publicationGeneration := journal.generation

/-- The journal in its next state. -/
def moved (state : IdentityTransitionJournalState) : IdentityResult IdentityTransitionJournal := do
  let generation ← nextGeneration journal.generation
  .ok { journal with state, generation }

end IdentityTransitionJournal

def maxOperationIdBytes : Nat := 256

/-- The request names another DID and a usable operation id. -/
def validateTransitionRequest (request : IdentityTransitionRequest) : IdentityResult Unit :=
  deny (request.expectedCurrentDid.isEmpty ∨ request.operationId.isEmpty ∨
    request.operationId.utf8ByteSize > maxOperationIdBytes ∨ '\x00' ∈ request.operationId.toList ∨
    request.successor.did = request.expectedCurrentDid) .invalidRequest

/-- The root key that signs a transition. -/
def transitionRoot (record : IdentityRecord) : IdentityResult KeyMetadata :=
  match record.keys.find? (fun key =>
    key.role == .rootControl && key.origin == .managed && key.state == .active && !key.materialErased) with
  | some root => .ok root
  | none => .error .keyUnavailable

def transitionOptions (createdAt : String) : ProofGenerationOptions where
  proofPurpose := some "assertionMethod"
  proofType := some anp.proofTypeDataIntegrity
  cryptosuite := some anp.cryptosuiteEddsaJcs2022
  created := some createdAt
  domain := none
  challenge := none

/-- The old document, deactivated in favour of the successor and signed again. -/
def createVerifiedTransitionDocument (s : Store) (record : IdentityRecord) (successorDid createdAt : String) :
    IdentityResult Value := do
  let object ← facade (okOr record.document.asObject .invalidIdentity)
  let object := Object.insert "deactivated" (.bool true) (object.remove "proof")
  let unsigned := Value.object (Object.insert "successorDid" (.string successorDid) object)
  let root ← transitionRoot record
  facade (DidIdentity.signDocumentProof anp proofs ⟨record⟩ s s unsigned root.kid (transitionOptions anp createdAt))

/-- The document that announces the transition: the one of the request or a new one. -/
def transitionDocument (s : Store) (record : IdentityRecord) (request : IdentityTransitionRequest)
    (successorDid createdAt : String) : IdentityResult Value :=
  match request.transitionDocument with
  | some document => .ok document
  | none => createVerifiedTransitionDocument anp proofs s record successorDid createdAt

/-- The journal of a new transition. -/
def newTransition (s : Store) (registry : IdentityRegistry) (request : IdentityTransitionRequest) (createdAt : String) :
    IdentityResult IdentityTransitionJournal := do
  let predecessorSummary ← facade (okOr (registry.identities request.expectedCurrentDid) .identityNotFound)
  let successorSummary ← facade (okOr (registry.identities request.successor.did) .identityNotFound)
  deny (successorSummary.identityId ≠ request.successor.identityId ∨
    predecessorSummary.identityId = successorSummary.identityId) .invalidRequest
  let predecessor ← facade (s.readIdentity anp predecessorSummary.identityId)
  let successor ← facade (s.readIdentity anp successorSummary.identityId)
  orElse (hops.verifyActiveE1Document predecessor.did predecessor.document) .invalidRequest
  orElse (hops.verifyActiveE1Document successor.did successor.document) .invalidRequest
  let predecessorDocument ← transitionDocument anp proofs s predecessor request successor.did createdAt
  let assurance ← orElse
    (hops.verifyTransitionHop predecessorDocument successor.document (some predecessor.document)) .invalidRequest
  let predecessorDigest ← canonicalDocumentDigest anp predecessorDocument
  let successorDigest ← canonicalDocumentDigest anp successor.document
  .ok { operationId := request.operationId
        expectedCurrentDid := request.expectedCurrentDid
        predecessorIdentityId := predecessor.identityId
        predecessorGeneration := predecessor.generation
        successorDid := successor.did
        successorIdentityId := successor.identityId
        successorGeneration := successor.generation
        trustedPredecessorDocument := predecessor.document
        predecessorDocument
        successorDocument := successor.document
        predecessorDigest
        successorDigest
        assurance := assuranceName assurance
        state := .prepared
        generation := 1
        createdAt }

/-- The journal that `prepare_identity_transition` makes a session of: the one that is there or a new one. -/
def DidStore.prepareIdentityTransition (self : DidStore) (s : Store) (request : IdentityTransitionRequest)
    (createdAt : String) : IdentityResult IdentityTransitionJournal := do
  validateTransitionRequest request
  deny (s.registry.generation ≠ self.registryGeneration) .conflict
  match s.readIdentityTransitionJournal request.operationId with
  | .ok existing => if existing.matchesRequest anp request then .ok existing else .error .conflict
  | .error _ => do
    deny (s.identityTransitions.entries.any (fun journal =>
      journal.expectedCurrentDid == request.expectedCurrentDid && journal.state != .aborted)) .conflict
    newTransition anp proofs hops s s.registry request createdAt

namespace IdentityTransitionSession
variable (session : IdentityTransitionSession) (s : Store)

def fromJournal (journal : IdentityTransitionJournal) : IdentityResult IdentityTransitionSession := do
  let candidate ← journal.candidate anp
  .ok { journal, candidate }

/-- The session must show the stored journal, and both identities must be as they were. -/
def reloadAndValidate : IdentityResult IdentityTransitionJournal := do
  let journal ← s.readIdentityTransitionJournal session.journal.operationId
  deny (journal.generation ≠ session.journal.generation ∨ journal.expectedCurrentDid ≠ session.journal.expectedCurrentDid ∨
    journal.successorDid ≠ session.journal.successorDid ∨ journal.predecessorDigest ≠ session.journal.predecessorDigest ∨
    journal.successorDigest ≠ session.journal.successorDigest) .conflict
  let predecessor ← facade (s.readIdentity anp journal.predecessorIdentityId)
  let successor ← facade (s.readIdentity anp journal.successorIdentityId)
  deny (predecessor.generation ≠ journal.predecessorGeneration ∨ predecessor.did ≠ journal.expectedCurrentDid ∨
    successor.generation ≠ journal.successorGeneration ∨ successor.did ≠ journal.successorDid) .conflict
  .ok journal

/-- The publication is on record before it begins. -/
def beginPublication : IdentityResult IdentityTransitionJournal := do
  let journal ← session.reloadAndValidate anp s
  match journal.state with
  | .prepared => journal.moved .publicationInFlight
  | .publicationInFlight => .ok journal
  | _ => .error .invalidDocumentChangeState

/-- The result of a publication ends the transition or leaves it uncertain. -/
def complete (attempt : IdentityTransitionPublicationAttempt) (result : IdentityTransitionPublicationResult) :
    IdentityResult IdentityTransitionJournal := do
  let journal ← session.reloadAndValidate anp s
  deny (attempt ≠ journal.attempt) .conflict
  deny (journal.state ≠ .publicationInFlight) .invalidDocumentChangeState
  match result with
  | .confirmed evidence => do
    deny (evidence.predecessorDigest ≠ journal.predecessorDigest ∨ evidence.successorDigest ≠ journal.successorDigest)
      .verificationFailed
    journal.moved .committed
  | .rejectedBeforeAcceptance => journal.moved .aborted
  | .unknown => journal.moved .publicationUncertain

/-- What is found published settles an uncertain transition. -/
def reconcile (observation : IdentityTransitionRemoteObservation) : IdentityResult IdentityTransitionJournal := do
  let journal ← session.reloadAndValidate anp s
  deny (journal.state ≠ .publicationUncertain) .invalidDocumentChangeState
  match observation with
  | .remoteOld current => do
    orElse (hops.verifyActiveE1Document journal.expectedCurrentDid current) .verificationFailed
    let seen ← canonicalDocumentDigest anp current
    let trusted ← canonicalDocumentDigest anp journal.trustedPredecessorDocument
    deny (seen ≠ trusted) .verificationFailed
    journal.moved .prepared
  | .published predecessor successor => do
    let predecessorDigest ← canonicalDocumentDigest anp predecessor
    let successorDigest ← canonicalDocumentDigest anp successor
    deny (predecessorDigest ≠ journal.predecessorDigest ∨ successorDigest ≠ journal.successorDigest) .verificationFailed
    let assurance ← orElse (hops.verifyTransitionHop predecessor successor (some journal.trustedPredecessorDocument))
      .verificationFailed
    deny (assuranceName assurance ≠ journal.assurance) .verificationFailed
    journal.moved .committed

end IdentityTransitionSession

/-! ## Runs -/

/-- Sessions may have any contents and use any attempt; managers are the store handles of the world. -/
inductive TransitionCall where
  | prepare (manager : Nat) (request : IdentityTransitionRequest) (createdAt : String)
  | beginPublication (session : IdentityTransitionSession)
  | complete (session : IdentityTransitionSession) (attempt : IdentityTransitionPublicationAttempt)
      (result : IdentityTransitionPublicationResult)
  | reconcile (session : IdentityTransitionSession) (observation : IdentityTransitionRemoteObservation)

/-- The journal as the operation leaves it. -/
def TransitionCall.run (w : World) : TransitionCall → IdentityResult IdentityTransitionJournal
  | .prepare manager request createdAt =>
    match w.stores[manager]? with
    | none => .error .storeNotFound
    | some self => self.prepareIdentityTransition anp proofs hops w.store request createdAt
  | .beginPublication session => session.beginPublication anp w.store
  | .complete session attempt result => session.complete anp w.store attempt result
  | .reconcile session observation => session.reconcile anp hops w.store observation

/-- An event of the engine or a call on a transition. -/
inductive TransitionEvent where
  | engine (event : Event)
  | transition (call : TransitionCall)

/-- What the event does to the world. Only transitions write their journals. -/
def TransitionEvent.asks (w : World) : TransitionEvent → Option Event
  | .engine (.identityTransitions _) => none
  | .engine event => some event
  | .transition call =>
    (call.run anp proofs hops w).toOption.map (fun journal => .identityTransitions (w.store.identityTransitions.insert journal))

namespace World

def advance (w : World) (event : TransitionEvent) : World :=
  match event.asks anp proofs hops w with
  | none => w
  | some event => w.step anp event

def advances (w : World) (events : List TransitionEvent) : World := events.foldl (advance anp proofs hops) w

/-- Every event of a run draws new identifiers and meets a condition on the world that it happens in. -/
def Advances (condition : World → TransitionEvent → Prop) : World → List TransitionEvent → Prop
  | _, [] => True
  | w, event :: rest => (∀ asked ∈ event.asks anp proofs hops w, asked.Fresh w) ∧ condition w event ∧
      Advances condition (w.advance anp proofs hops event) rest

instance decidableAdvances (condition : World → TransitionEvent → Prop) [∀ w event, Decidable (condition w event)] :
    ∀ w events, Decidable (Advances anp proofs hops condition w events)
  | _, [] => isTrue trivial
  | w, event :: rest =>
    have := decidableAdvances condition (w.advance anp proofs hops event) rest
    inferInstanceAs (Decidable (_ ∧ _ ∧ _))

end World
end
end AnpIdentity
