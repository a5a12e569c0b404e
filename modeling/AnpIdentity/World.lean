import AnpIdentity.Recovery

/-! Runs of a store. Any number of processes hold handles on one store and call the crate through them.
The lock of the store makes calls exclude each other, so a run is a sequence of calls. A durable step of a
call may fail, or its process may stop there: the writes made before it stay, the call returns an error
and the handles keep what they last saw. A process that stops is one whose handles are not used again. -/

namespace AnpIdentity
open Durable
variable (anp : Anp)

inductive StoreCall where
  | createIdentity (spec : DidCreateSpec)
  | prepareEnrollment (spec : EnrollmentSpec)
  | prepareRequestSigningEnrollment (spec : RequestSigningEnrollmentSpec)
  | importIdentity (spec : IdentityImportSpec)
  | importDeviceIdentity (spec : DeviceIdentityImportSpec)
  | importRequestSigningIdentity (spec : RequestSigningIdentityImportSpec)
  | discardUnpublishedEnrollment (did identityId : String) (generation : Nat)
  | deleteIdentityNamespace (did : String) (generation : Nat)
  | deleteIdentityNamespaceDiscardingPending (did : String) (generation : Nat)
  | openIdentity (did : String)
  | reload
  deriving Repr, DecidableEq

inductive IdentityCall where
  | prepareUpdate (spec : DocumentUpdateSpec)
  | beginPublication (revisionId : String)
  | markPublicationUncertain (revisionId : String)
  | rejectPublicationBeforeAcceptance (revisionId : String)
  | commitVerifiedUpdate (revisionId : String) (fromReconcile : Bool) (evidence : VerifiedDocumentEvidence)
  | reconcileUpdate (revisionId : String) (observed : Value)
  | abortUpdate (revisionId : String)
  | reconcileRejectedUpdate (revisionId : String) (observation : AdoptVerifiedDocumentSpec)
  | adoptVerifiedDocument (spec : AdoptVerifiedDocumentSpec)
  | adoptVerifiedSiblingDocument (spec : AdoptVerifiedDocumentSpec)
  | importWrappedRoot (envelope : WrappedRootEnvelope) (now : Int)
  | importLegacyRootTransfer (spec : LegacyRootTransferImportSpec)
  | confirmRootPromotion (spec : RootPromotionSpec)
  | reload
  deriving Repr, DecidableEq

/-- The store handle after the call, and the identity handle that the call opens. -/
def StoreCall.run (self : DidStore) (entropy : Entropy) : StoreCall → Tx (DidStore × Option DidIdentity)
  | .createIdentity spec => do
    let (self, opened) ← self.createIdentity anp entropy spec
    return (self, some opened)
  | .prepareEnrollment spec => do
    let (self, opened) ← self.prepareEnrollment anp entropy spec
    return (self, some opened)
  | .prepareRequestSigningEnrollment spec => do
    let (self, opened) ← self.prepareRequestSigningEnrollment anp entropy spec
    return (self, some opened)
  | .importIdentity spec => do
    let (self, opened) ← self.importIdentity anp entropy spec
    return (self, some opened)
  | .importDeviceIdentity spec => do
    let (self, opened) ← self.importDeviceIdentity anp entropy spec
    return (self, some opened)
  | .importRequestSigningIdentity spec => do
    let (self, opened) ← self.importRequestSigningIdentity anp entropy spec
    return (self, some opened)
  | .discardUnpublishedEnrollment did identityId generation => do
    let self ← self.discardUnpublishedEnrollment anp entropy did identityId generation
    return (self, none)
  | .deleteIdentityNamespace did generation => do
    let self ← self.deleteIdentityNamespace anp entropy did generation
    return (self, none)
  | .deleteIdentityNamespaceDiscardingPending did generation => do
    let self ← self.deleteIdentityNamespaceDiscardingPending anp entropy did generation
    return (self, none)
  | .openIdentity did => do
    let opened ← self.openIdentity anp did
    return (self, some opened)
  | .reload => do
    let self ← self.reload anp
    return (self, none)

def IdentityCall.run (self : DidIdentity) (entropy : Entropy) : IdentityCall → Tx DidIdentity
  | .prepareUpdate spec => do
    let (self, _) ← self.prepareUpdate anp entropy spec
    return self
  | .beginPublication revisionId => self.beginPublication anp revisionId
  | .markPublicationUncertain revisionId => self.markPublicationUncertain anp revisionId
  | .rejectPublicationBeforeAcceptance revisionId => self.rejectPublicationBeforeAcceptance anp revisionId
  | .commitVerifiedUpdate revisionId fromReconcile evidence =>
    self.commitVerifiedUpdate anp revisionId fromReconcile evidence
  | .reconcileUpdate revisionId observed => do
    let (self, _) ← self.reconcileUpdate anp revisionId observed
    return self
  | .abortUpdate revisionId => self.abortUpdate anp entropy revisionId
  | .reconcileRejectedUpdate revisionId observation => self.reconcileRejectedUpdate anp entropy revisionId observation
  | .adoptVerifiedDocument spec => do
    let (self, _) ← self.adoptVerifiedDocument anp entropy spec
    return self
  | .adoptVerifiedSiblingDocument spec => do
    let (self, _) ← self.adoptVerifiedSiblingDocument anp entropy spec
    return self
  | .importWrappedRoot envelope now => do
    let (self, _) ← self.importWrappedRoot anp entropy envelope now
    return self
  | .importLegacyRootTransfer spec => do
    let (self, _) ← self.importLegacyRootTransfer anp entropy spec
    return self
  | .confirmRootPromotion spec => self.confirmRootPromotion anp entropy spec
  | .reload => self.reload anp

/-- A store, the handles that processes hold on it and the identifiers drawn so far. -/
structure World where
  store : Store
  stores : List DidStore
  identities : List DidIdentity
  issued : List String

def World.initial : World where
  store := .empty
  stores := []
  identities := []
  issued := []

/-- `fault` is the number of writes after which a durable step of the call fails. A process that opens
the store recovers it first. The journals of transitions between identities belong to code outside this
development, which may write them at any time. -/
inductive Event where
  | openStore (fault : Option Nat)
  | store (handle : Nat) (call : StoreCall) (entropy : Entropy) (fault : Option Nat)
  | identity (handle : Nat) (call : IdentityCall) (entropy : Entropy) (fault : Option Nat)
  | identityTransitions (journals : Directory IdentityTransitionJournal.operationId)

/-- The store after a call, and what the call returned. -/
def perform {α : Type} (p : Tx α) (fault : Option Nat) (s : Store) : Store × Option α :=
  match fault with
  | some n => (p.crash n s, none)
  | none => (p.final s, (p.result s).toOption)

def Entropy.ids (entropy : Entropy) : List String :=
  [entropy.identityId, entropy.transactionId, entropy.enrollmentId, entropy.revisionId]

def Event.ids : Event → List String
  | .store _ _ entropy _ | .identity _ _ entropy _ => entropy.ids
  | _ => []

/-- Identifiers are 128 random bits: the model takes them to be new. -/
def Event.Fresh (event : Event) (w : World) : Prop := event.ids.Nodup ∧ ∀ id ∈ event.ids, id ∉ w.issued

instance (event : Event) (w : World) : Decidable (event.Fresh w) := inferInstanceAs (Decidable (_ ∧ _))

namespace World

def step (w : World) : Event → World
  | .openStore fault =>
    let (store, opened) := perform (DidStore.fromRuntime anp) fault w.store
    { w with store, stores := w.stores ++ opened.toList }
  | .store handle call entropy fault =>
    match w.stores[handle]? with
    | none => w
    | some self =>
      let (store, returned) := perform (call.run anp self entropy) fault w.store
      match returned with
      | none => { w with store, issued := entropy.ids ++ w.issued }
      | some (self, opened) =>
        { store, stores := w.stores.set handle self, identities := w.identities ++ opened.toList,
          issued := entropy.ids ++ w.issued }
  | .identity handle call entropy fault =>
    match w.identities[handle]? with
    | none => w
    | some self =>
      let (store, returned) := perform (call.run anp self entropy) fault w.store
      match returned with
      | none => { w with store, issued := entropy.ids ++ w.issued }
      | some self => { w with store, identities := w.identities.set handle self, issued := entropy.ids ++ w.issued }
  | .identityTransitions journals => { w with store := { w.store with identityTransitions := journals } }

def run (w : World) (events : List Event) : World := events.foldl (step anp) w

/-- Every event of a run draws new identifiers and meets a condition on the world that it happens in. -/
def Meets (condition : World → Event → Prop) : World → List Event → Prop
  | _, [] => True
  | w, event :: rest => event.Fresh w ∧ condition w event ∧ Meets condition (w.step anp event) rest

instance decidableMeets (condition : World → Event → Prop) [∀ w event, Decidable (condition w event)] :
    ∀ w events, Decidable (Meets anp condition w events)
  | _, [] => isTrue trivial
  | w, event :: rest =>
    have := decidableMeets condition (w.step anp event) rest
    inferInstanceAs (Decidable (_ ∧ _ ∧ _))

end World

namespace Plain

/-- A Web identity with one managed request-signing key. -/
def webSpec : DidCreateSpec where
  profile := .web
  domain := "a.b"
  port := none
  pathSegments := []
  managedKeys := [{ fragment := "k", role := .requestSigning }]
  agentDescriptionUrl := none

/-- The request-signing key is replaced by a new one. -/
def rotation : DocumentUpdateSpec where
  requestSigningRotation := some { oldKid := "k", newFragment := "n" }

/-- The secret of the key that `rotation` brings in. -/
def rotatedRef : SecretRef where
  identityId := "i0"
  keyId := "did:web:a.b#n"
  role := .requestSigning
  version := 1

/-- A process opens a new store and creates the Web identity. -/
def creation : List Event := [.openStore none, .store 0 (.createIdentity webSpec) (entropy "0" 1) none]

end Plain
end AnpIdentity
