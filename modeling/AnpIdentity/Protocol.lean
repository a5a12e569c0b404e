import AnpIdentity.Decisions
import AnpIdentity.Durable.Protocol

/-! The order of the writes. Each action makes its writes in a fixed order; a step says which write is made
on which store. The calls of a run and the recovery of a store make no other writes. -/

namespace AnpIdentity
open Durable Program
variable (anp : Anp)

/-- The store holds a secret for the key: the one sealed for it, or one that belongs to the same public key. -/
def Held (secrets : SecretRef → Option Bytes) (key : SealedKey) : Prop :=
  ∃ secret, secrets key.ref = some secret ∧ (secret = key.plaintext ∨
    ∃ actual, publicKeyFromSecret anp key.ref.role secret = .ok actual ∧ publicKeysEqual actual key.expected = true)

/-- Secrets were sealed for some of the keys, where there was none. -/
structure SealedOnto (keys : List SealedKey) (before after : SecretRef → Option Bytes) : Prop where
  kept : ∀ ref secret, before ref = some secret → after ref = some secret
  new : ∀ ref secret, before ref = none → after ref = some secret → ∃ key ∈ keys, key.ref = ref ∧ key.plaintext = secret

/-- Some of the secrets were deleted. -/
def ErasedFrom (refs : List SecretRef) (before after : SecretRef → Option Bytes) : Prop :=
  ∀ ref, after ref = before ref ∨ ref ∈ refs ∧ after ref = none

def Store.putIdentity (s : Store) (record : IdentityRecord) : Store :=
  { s with identities := Function.update s.identities record.identityId (some record) }

def preparedRecord (entropy : Entropy) (seen : IdentityRecord) (plan : UpdatePlan) (digest : String) : IdentityRecord :=
  { seen with pendingRevision := some (plan.pending entropy seen digest) }

def clearedRecord (seen : IdentityRecord) : IdentityRecord := { seen with pendingRevision := none }

section
variable (entropy : Entropy) (start : Store)

/-- The writes of `commitPlan`. -/
inductive PrepareStep (seen : IdentityRecord) (plan : UpdatePlan) : Store → Write → Prop
  | announce : PrepareStep seen plan start (.updateJournal (prepareJournal entropy seen plan))
  | keep {secrets : SecretRef → Option Bytes} {key : SealedKey}
      (onto : SealedOnto (plan.sealedKeys anp) start.secrets secrets) (inside : key ∈ plan.sealedKeys anp)
      (absent : secrets key.ref = none) :
      PrepareStep seen plan
        { start with updateTransactions := start.updateTransactions.insert (prepareJournal entropy seen plan), secrets }
        (.seal key.ref key.plaintext)
  | store {secrets : SecretRef → Option Bytes} {digest : String}
      (onto : SealedOnto (plan.sealedKeys anp) start.secrets secrets)
      (held : ∀ key ∈ plan.sealedKeys anp, Held anp secrets key)
      (hashed : canonicalDigest anp plan.changes.document = .ok digest) (room : seen.generation + 1 < 2 ^ 64) :
      PrepareStep seen plan
        { start with updateTransactions := start.updateTransactions.insert (prepareJournal entropy seen plan), secrets }
        (.identity (preparedRecord entropy seen plan digest).raised)
  | close {secrets : SecretRef → Option Bytes} {digest : String}
      (onto : SealedOnto (plan.sealedKeys anp) start.secrets secrets)
      (held : ∀ key ∈ plan.sealedKeys anp, Held anp secrets key)
      (hashed : canonicalDigest anp plan.changes.document = .ok digest) :
      PrepareStep seen plan
        (Store.putIdentity
          { start with updateTransactions := start.updateTransactions.insert (prepareJournal entropy seen plan), secrets }
          (preparedRecord entropy seen plan digest).raised)
        (.removeUpdateJournal entropy.revisionId)

/-- The writes of `discardPending`. -/
inductive DiscardStep (seen : IdentityRecord) (pending : PendingRevisionRecord) : Store → Write → Prop
  | announce : DiscardStep seen pending start (.updateJournal (cleanupJournal entropy seen pending))
  | store (room : seen.generation + 1 < 2 ^ 64) :
      DiscardStep seen pending
        { start with updateTransactions := start.updateTransactions.insert (cleanupJournal entropy seen pending) }
        (.identity (clearedRecord seen).raised)
  | erase {secrets : SecretRef → Option Bytes} {ref : SecretRef}
      (erased : ErasedFrom pending.pendingSecretRefs start.secrets secrets) (inside : ref ∈ pending.pendingSecretRefs) :
      DiscardStep seen pending
        (Store.putIdentity
          { start with updateTransactions := start.updateTransactions.insert (cleanupJournal entropy seen pending), secrets }
          (clearedRecord seen).raised)
        (.deleteSecret ref)
  | close {secrets : SecretRef → Option Bytes} (erased : ErasedFrom pending.pendingSecretRefs start.secrets secrets)
      (gone : ∀ ref ∈ pending.pendingSecretRefs, secrets ref = none) :
      DiscardStep seen pending
        (Store.putIdentity
          { start with updateTransactions := start.updateTransactions.insert (cleanupJournal entropy seen pending), secrets }
          (clearedRecord seen).raised)
        (.removeUpdateJournal pending.revisionId)

/-- The writes of `persistAndRegister`. -/
inductive RegisterStep (next : IdentityRecord) : Store → Write → Prop
  | store (room : next.generation + 1 < 2 ^ 64) : RegisterStep next start (.identity next.raised)
  | refresh {registry : IdentityRegistry} (named : start.registry.Names next.did next.identityId)
      (entered : start.registry.put next.did next.summary = .ok registry) :
      RegisterStep next (start.putIdentity next.raised) (.registry registry)
  | close {registry : IdentityRegistry} (named : start.registry.Names next.did next.identityId)
      (entered : start.registry.put next.did next.summary = .ok registry) :
      RegisterStep next { start.putIdentity next.raised with registry } (.removeJournal entropy.transactionId)

/-- The writes of an edit. -/
inductive EditStep (change : Edit) (next : IdentityRecord) : Store → Write → Prop
  | plain (unjournaled : change.journaled = false) (room : next.generation + 1 < 2 ^ 64) :
      EditStep change next start (.identity next.raised)
  | announce (journaled : change.journaled = true) :
      EditStep change next start (.journal (transitionJournal entropy next))
  | register {s : Store} {w : Write} (journaled : change.journaled = true)
      (step : RegisterStep entropy
        { start with transactions := start.transactions.insert (transitionJournal entropy next) } next s w) :
      EditStep change next s w

/-- The key that a root import seals. -/
def RootTransfer.sealedKey (transfer : RootTransfer) (ref : SecretRef) : SealedKey where
  ref := ref
  plaintext := transfer.raw.val
  expected := publicKeyFromRaw anp .rootControl transfer.raw

/-- The writes of `commitRootImport`. -/
inductive ImportStep (transfer : RootTransfer) (ref : SecretRef) (next : IdentityRecord) : Store → Write → Prop
  | announce : ImportStep transfer ref next start (.journal (rootImportJournal entropy ref next))
  | keep (absent : start.secrets ref = none) :
      ImportStep transfer ref next
        { start with transactions := start.transactions.insert (rootImportJournal entropy ref next) }
        (.seal ref transfer.raw.val)
  | register {secrets : SecretRef → Option Bytes} {s : Store} {w : Write}
      (onto : SealedOnto [transfer.sealedKey anp ref] start.secrets secrets)
      (held : Held anp secrets (transfer.sealedKey anp ref))
      (step : RegisterStep entropy
        { start with transactions := start.transactions.insert (rootImportJournal entropy ref next), secrets } next s w) :
      ImportStep transfer ref next s w

/-- The writes of an action on an identity. -/
inductive IdentityStep : IdentityAction → Store → Write → Prop
  | prepare {seen : IdentityRecord} {plan : UpdatePlan} {s : Store} {w : Write}
      (step : PrepareStep anp entropy start seen plan s w) : IdentityStep (.prepare seen plan) s w
  | discard {seen : IdentityRecord} {pending : PendingRevisionRecord} {s : Store} {w : Write}
      (step : DiscardStep entropy start seen pending s w) : IdentityStep (.discard seen pending) s w
  | edit {change : Edit} {seen next : IdentityRecord} {s : Store} {w : Write}
      (step : EditStep entropy start change next s w) : IdentityStep (.edit change seen next) s w
  | importRoot {transfer : RootTransfer} {ref : SecretRef} {seen next : IdentityRecord} {s : Store} {w : Write}
      (step : ImportStep anp entropy start transfer ref next s w) : IdentityStep (.importRoot transfer ref seen next) s w

/-- The store with a creation journal, secrets and the file of a new identity. -/
def Store.introduced (s : Store) (journal : CreationJournal) (secrets : SecretRef → Option Bytes) (made : IdentityRecord) :
    Store :=
  Store.putIdentity { s with transactions := s.transactions.insert journal, secrets } made

/-- The writes of `commitNewIdentity` and `commitCreation` up to the identity file. -/
inductive IntroduceStep (journal : CreationJournal) (keys : List SealedKey) (record : DidResult IdentityRecord) :
    Store → Write → Prop
  | announce : IntroduceStep journal keys record start (.journal journal)
  | keep {secrets : SecretRef → Option Bytes} {key : SealedKey} (onto : SealedOnto keys start.secrets secrets)
      (inside : key ∈ keys) (absent : secrets key.ref = none) :
      IntroduceStep journal keys record { start with transactions := start.transactions.insert journal, secrets }
        (.seal key.ref key.plaintext)
  | store {secrets : SecretRef → Option Bytes} {made : IdentityRecord} (onto : SealedOnto keys start.secrets secrets)
      (held : ∀ key ∈ keys, Held anp secrets key) (built : record = .ok made) :
      IntroduceStep journal keys record { start with transactions := start.transactions.insert journal, secrets }
        (.identity made)

/-- The writes of `deleteNamespace`. -/
inductive DeleteStep (did : String) (record : IdentityRecord) : Store → Write → Prop
  | announce : DeleteStep did record start (.journal (deletionJournal entropy record))
  | erase {secrets : SecretRef → Option Bytes} {ref : SecretRef}
      (erased : ErasedFrom record.managedRefs start.secrets secrets) (inside : ref ∈ record.managedRefs) :
      DeleteStep did record
        { start with transactions := start.transactions.insert (deletionJournal entropy record), secrets }
        (.deleteSecret ref)
  | remove {secrets : SecretRef → Option Bytes} (erased : ErasedFrom record.managedRefs start.secrets secrets)
      (gone : ∀ ref ∈ record.managedRefs, secrets ref = none) :
      DeleteStep did record
        { start with transactions := start.transactions.insert (deletionJournal entropy record), secrets }
        (.removeIdentity record.identityId)
  | delist {secrets : SecretRef → Option Bytes} {registry : IdentityRegistry}
      (erased : ErasedFrom record.managedRefs start.secrets secrets)
      (gone : ∀ ref ∈ record.managedRefs, secrets ref = none) (left : start.registry.drop did = .ok registry) :
      DeleteStep did record
        { start with
          transactions := start.transactions.insert (deletionJournal entropy record), secrets
          identities := Function.update start.identities record.identityId none }
        (.registry registry)
  | close {secrets : SecretRef → Option Bytes} {registry : IdentityRegistry}
      (erased : ErasedFrom record.managedRefs start.secrets secrets)
      (gone : ∀ ref ∈ record.managedRefs, secrets ref = none) (left : start.registry.drop did = .ok registry) :
      DeleteStep did record
        { start with
          transactions := start.transactions.insert (deletionJournal entropy record), secrets, registry
          identities := Function.update start.identities record.identityId none }
        (.removeJournal entropy.transactionId)

/-- The journal of a creation. -/
def createJournal (built : BuiltIdentity) : CreationJournal :=
  { creationJournal entropy built.did (built.newKeys anp) with createdAt := built.createdAt }

def sealedKeys (keys : List NewKey) : List SealedKey := keys.map (·.sealedKey entropy.identityId)

/-- The secrets of a new identity are stored and its record is worked out. -/
structure Introducing (keys : List SealedKey) (record : DidResult IdentityRecord) (secrets : SecretRef → Option Bytes)
    (made : IdentityRecord) : Prop where
  onto : SealedOnto keys start.secrets secrets
  held : ∀ key ∈ keys, Held anp secrets key
  built : record = .ok made

/-- The writes of an action on a store. -/
inductive StoreStep : StoreAction → Store → Write → Prop
  | introduce {did : String} {keys : List NewKey} {record : DidResult IdentityRecord} {s : Store} {w : Write}
      (step : IntroduceStep anp start (creationJournal entropy did keys) (sealedKeys entropy keys) record s w) :
      StoreStep (.introduce did keys record) s w
  | enlist {did : String} {keys : List NewKey} {record : DidResult IdentityRecord} {secrets : SecretRef → Option Bytes}
      {made : IdentityRecord} {registry : IdentityRegistry}
      (ready : Introducing anp start (sealedKeys entropy keys) record secrets made)
      (entered : start.registry.put did made.summary = .ok registry) :
      StoreStep (.introduce did keys record) (start.introduced (creationJournal entropy did keys) secrets made)
        (.registry registry)
  | close {did : String} {keys : List NewKey} {record : DidResult IdentityRecord} {secrets : SecretRef → Option Bytes}
      {made : IdentityRecord} {registry : IdentityRegistry}
      (ready : Introducing anp start (sealedKeys entropy keys) record secrets made)
      (entered : start.registry.put did made.summary = .ok registry) :
      StoreStep (.introduce did keys record)
        { start.introduced (creationJournal entropy did keys) secrets made with registry }
        (.removeJournal entropy.transactionId)
  | create {spec : DidCreateSpec} {built : BuiltIdentity} {s : Store} {w : Write}
      (step : IntroduceStep anp start (createJournal anp entropy built) (sealedKeys entropy (built.newKeys anp))
        (createdRecord anp entropy spec built) s w) :
      StoreStep (.create spec built) s w
  | enlistCreated {spec : DidCreateSpec} {built : BuiltIdentity} {secrets : SecretRef → Option Bytes}
      {made : IdentityRecord} {registry : IdentityRegistry}
      (ready : Introducing anp start (sealedKeys entropy (built.newKeys anp)) (createdRecord anp entropy spec built)
        secrets made)
      (entered : start.registry.put built.did { made.summary with state := .active } = .ok registry) :
      StoreStep (.create spec built) (start.introduced (createJournal anp entropy built) secrets made) (.registry registry)
  | activate {spec : DidCreateSpec} {built : BuiltIdentity} {secrets : SecretRef → Option Bytes}
      {made : IdentityRecord} {registry : IdentityRegistry}
      (ready : Introducing anp start (sealedKeys entropy (built.newKeys anp)) (createdRecord anp entropy spec built)
        secrets made)
      (entered : start.registry.put built.did { made.summary with state := .active } = .ok registry) :
      StoreStep (.create spec built) { start.introduced (createJournal anp entropy built) secrets made with registry }
        (.identity { made with state := .active })
  | closeCreated {spec : DidCreateSpec} {built : BuiltIdentity} {secrets : SecretRef → Option Bytes}
      {made : IdentityRecord} {registry : IdentityRegistry}
      (ready : Introducing anp start (sealedKeys entropy (built.newKeys anp)) (createdRecord anp entropy spec built)
        secrets made)
      (entered : start.registry.put built.did { made.summary with state := .active } = .ok registry) :
      StoreStep (.create spec built)
        (Store.putIdentity { start.introduced (createJournal anp entropy built) secrets made with registry }
          { made with state := .active })
        (.removeJournal entropy.transactionId)
  | delete {did : String} {record : IdentityRecord} {s : Store} {w : Write} (step : DeleteStep entropy start did record s w) :
      StoreStep (.delete did record) s w

end

/-! ## Recovery -/

section
variable (s : Store)

/-- The journal names an identity that can be read, under its DID. -/
structure Journalled (j : CreationJournal) (record : IdentityRecord) : Prop where
  read : s.readIdentity anp j.identityId = .ok record
  did : record.did = j.did

/-- What recovery has made of the store when it removes a creation journal. -/
def CreationJournal.Settled (j : CreationJournal) : Prop :=
  match j.kind with
  | .stateTransition => ∃ record, Journalled anp s j record ∧ s.registry.identities j.did = some record.summary
  | .rootImport => ∃ record, Journalled anp s j record ∧
      (rootImportCommitted record = true ∧ s.registry.identities j.did = some record.summary ∨
        rootImportCommitted record = false ∧ ∀ ref ∈ j.secretRefs, s.secrets ref = none)
  | .namespaceDelete => (∀ ref ∈ j.secretRefs, s.secrets ref = none) ∧ s.identities j.identityId = none ∧
      ¬ s.registry.Names j.did j.identityId
  | .create => s.registry.Names j.did j.identityId ∧
      (∃ stored, s.identities j.identityId = some stored ∧ stored.state ≠ .creating) ∨
    ¬ s.registry.Names j.did j.identityId ∧ (∀ ref ∈ j.secretRefs, s.secrets ref = none) ∧ s.identities j.identityId = none

def UpdateJournal.Settled (j : UpdateJournal) : Prop :=
  ∃ record, s.readIdentity anp j.identityId = .ok record ∧
    match j.kind with
    | .prepare => record.Pends j.revisionId ∨ ∀ ref ∈ j.secretRefs, s.secrets ref = none
    | .cleanup => ¬ record.Pends j.revisionId ∧ ∀ ref ∈ j.secretRefs, s.secrets ref = none

/-- The writes that settle a creation journal. -/
inductive SettleStep (j : CreationJournal) : Write → Prop
  | refresh {record : IdentityRecord} {registry : IdentityRegistry} (journalled : Journalled anp s j record)
      (kind : j.kind = .stateTransition ∨ j.kind = .rootImport ∧ rootImportCommitted record = true)
      (entered : s.registry.put j.did record.summary = .ok registry) : SettleStep j (.registry registry)
  | undoImport {record : IdentityRecord} {ref : SecretRef} (journalled : Journalled anp s j record)
      (kind : j.kind = .rootImport) (uncommitted : rootImportCommitted record = false) (inside : ref ∈ j.secretRefs) :
      SettleStep j (.deleteSecret ref)
  | eraseDeleted {ref : SecretRef} (kind : j.kind = .namespaceDelete) (inside : ref ∈ j.secretRefs) :
      SettleStep j (.deleteSecret ref)
  | removeDeleted (kind : j.kind = .namespaceDelete) (gone : ∀ ref ∈ j.secretRefs, s.secrets ref = none) :
      SettleStep j (.removeIdentity j.identityId)
  | delist {registry : IdentityRegistry} (kind : j.kind = .namespaceDelete)
      (gone : ∀ ref ∈ j.secretRefs, s.secrets ref = none) (removed : s.identities j.identityId = none)
      (named : s.registry.Names j.did j.identityId) (left : s.registry.drop j.did = .ok registry) :
      SettleStep j (.registry registry)
  | activate {record : IdentityRecord} (journalled : Journalled anp s j record) (kind : j.kind = .create)
      (named : s.registry.Names j.did j.identityId) (creating : record.state = .creating) :
      SettleStep j (.identity { record with state := .active })
  | eraseCreated {ref : SecretRef} (kind : j.kind = .create) (unnamed : ¬ s.registry.Names j.did j.identityId)
      (inside : ref ∈ j.secretRefs) : SettleStep j (.deleteSecret ref)
  | removeCreated (kind : j.kind = .create) (unnamed : ¬ s.registry.Names j.did j.identityId)
      (gone : ∀ ref ∈ j.secretRefs, s.secrets ref = none) : SettleStep j (.removeIdentity j.identityId)
  | close (settled : j.Settled anp s) : SettleStep j (.removeJournal j.transactionId)

/-- The writes that settle an update journal. -/
inductive SettleUpdateStep (j : UpdateJournal) : Write → Prop
  | undoPrepare {record : IdentityRecord} {ref : SecretRef} (read : s.readIdentity anp j.identityId = .ok record)
      (kind : j.kind = .prepare) (other : ¬ record.Pends j.revisionId) (inside : ref ∈ j.secretRefs) :
      SettleUpdateStep j (.deleteSecret ref)
  | clear {record : IdentityRecord} (read : s.readIdentity anp j.identityId = .ok record) (kind : j.kind = .cleanup)
      (pends : record.Pends j.revisionId) (room : record.generation + 1 < 2 ^ 64) :
      SettleUpdateStep j (.identity (clearedRecord record).raised)
  | eraseCleared {record : IdentityRecord} {ref : SecretRef} (read : s.readIdentity anp j.identityId = .ok record)
      (kind : j.kind = .cleanup) (other : ¬ record.Pends j.revisionId) (inside : ref ∈ j.secretRefs) :
      SettleUpdateStep j (.deleteSecret ref)
  | close (settled : j.Settled anp s) : SettleUpdateStep j (.removeUpdateJournal j.revisionId)

/-- The writes of recovery. -/
inductive RecoveryStep (w : Write) : Prop
  | creation {j : CreationJournal} (outstanding : j ∈ s.transactions) (step : SettleStep anp s j w)
  | update {j : UpdateJournal} (outstanding : j ∈ s.updateTransactions) (step : SettleUpdateStep anp s j w)

end

/-! ## Sealing and deleting secrets -/

section
variable {anp} {permitted : Store → Write → Prop} {s : Store}

theorem SealedOnto.refl (keys : List SealedKey) (secrets : SecretRef → Option Bytes) : SealedOnto keys secrets secrets :=
  ⟨fun _ _ found => found, fun _ _ absent found => by rw [absent] at found; cases found⟩

variable {keys : List SealedKey} {before after secrets : SecretRef → Option Bytes} {refs : List SecretRef}

theorem SealedOnto.seal (onto : SealedOnto keys before after) {key : SealedKey} (inside : key ∈ keys)
    (absent : after key.ref = none) : SealedOnto keys before (Function.update after key.ref (some key.plaintext)) := by
  constructor
  · intro ref secret found
    have kept := onto.kept ref secret found
    rw [Function.update_of_ne]
    · exact kept
    · intro same
      rw [same, absent] at kept
      cases kept
  · intro ref secret missing found
    by_cases same : ref = key.ref
    · subst same
      rw [Function.update_self] at found
      exact ⟨key, inside, rfl, Option.some.inj found⟩
    · rw [Function.update_of_ne same] at found
      exact onto.new ref secret missing found

theorem Held.kept {key : SealedKey} (held : Held anp before key)
    (kept : ∀ ref secret, before ref = some secret → after ref = some secret) : Held anp after key := by
  obtain ⟨secret, found, belongs⟩ := held
  exact ⟨secret, kept _ _ found, belongs⟩

theorem verifyPersistedKey_held {ref : SecretRef} {plaintext : Bytes} {expected : PublicKeyMaterial}
    (verified : (verifyPersistedKey anp ref expected).result s = .ok ()) :
    Held anp s.secrets { ref, plaintext, expected } := by
  obtain ⟨secret, opened, rest⟩ := result_bind verified
  obtain ⟨t, same, opened⟩ := result_bind opened
  cases same
  obtain ⟨-, found⟩ : validateSecretRef ref = .ok () ∧ s.secrets ref = some secret := by
    have opened : s.openSecret ref = .ok secret := opened
    simp only [Store.openSecret, except_bind_ok, okOr_ok] at opened
    obtain ⟨⟨⟩, valid, found⟩ := opened
    exact ⟨valid, found⟩
  obtain ⟨actual, computed, rest⟩ := result_bind rest
  have equal : publicKeysEqual actual expected = true := by
    have rest : reject (!publicKeysEqual actual expected) .invalidIdentity = .ok () := rest
    simpa using rest
  exact ⟨secret, found, .inr ⟨actual, computed, equal⟩⟩

theorem sealVerified_follows (key : SealedKey) {Q : Unit → Store → Prop}
    (allowed : s.secrets key.ref = none → permitted s (.seal key.ref key.plaintext))
    (sealed : s.secrets key.ref = none → Q () { s with secrets := Function.update s.secrets key.ref (some key.plaintext) })
    (present : Held anp s.secrets key → Q () s) :
    Follows permitted (sealVerified anp key.ref key.plaintext key.expected) Q s := by
  refine .bind (.bind (.lift (fun _ _ => .bind (.get ?_))))
  by_cases stored : (s.secrets key.ref).isSome
  · rw [if_pos stored]
    refine .pure ?_
    rw [if_pos rfl]
    refine .silent ((verifyPersistedKey_issues anp _ _).writes_nil s) (fun _ verified => present ?_)
    exact verifyPersistedKey_held verified
  · rw [if_neg stored]
    have absent : s.secrets key.ref = none := by simpa using stored
    refine .bind (.write (allowed absent) (.pure ?_))
    rw [if_neg (by decide)]
    exact .pure (sealed absent)

private theorem sealAll_follows_from {all : List SealedKey} (subset : ∀ key ∈ keys, key ∈ all)
    (onto : SealedOnto all s.secrets secrets)
    (allowed : ∀ secrets key, SealedOnto all s.secrets secrets → key ∈ all → secrets key.ref = none →
      permitted { s with secrets } (.seal key.ref key.plaintext)) :
    Follows permitted (sealAll anp keys)
      (fun _ t => ∃ after, t = { s with secrets := after } ∧ SealedOnto all s.secrets after ∧
        (∀ ref secret, secrets ref = some secret → after ref = some secret) ∧ ∀ key ∈ keys, Held anp after key)
      { s with secrets } := by
  induction keys generalizing secrets with
  | nil => exact .pure ⟨secrets, rfl, onto, fun _ _ found => found, by simp⟩
  | cons key rest ih =>
    have first := subset key List.mem_cons_self
    have later : ∀ other ∈ rest, other ∈ all := fun other inside => subset other (List.mem_cons_of_mem _ inside)
    -- whatever the first key does, the rest goes on from secrets that include it
    have next : ∀ now, SealedOnto all s.secrets now → (∀ ref secret, secrets ref = some secret → now ref = some secret) →
        Held anp now key → Follows permitted (sealAll anp rest) (fun _ t => ∃ after, t = { s with secrets := after } ∧
          SealedOnto all s.secrets after ∧ (∀ ref secret, secrets ref = some secret → after ref = some secret) ∧
          ∀ other ∈ key :: rest, Held anp after other) { s with secrets := now } := by
      intro now onto kept held
      refine (ih later onto).mono (fun _ t done => ?_)
      obtain ⟨after, rfl, onto, more, all⟩ := done
      refine ⟨after, rfl, onto, fun ref secret found => more ref secret (kept ref secret found), fun other inside => ?_⟩
      rcases List.mem_cons.mp inside with rfl | inside
      · exact held.kept more
      · exact all other inside
    refine .bind (sealVerified_follows key (fun absent => allowed _ _ onto first absent) (fun absent => ?_) (fun held => ?_))
    · refine next _ (onto.seal first absent) (fun ref secret found => ?_) ⟨key.plaintext, by simp, .inl rfl⟩
      change Function.update secrets key.ref (some key.plaintext) ref = some secret
      rw [Function.update_of_ne]
      · exact found
      · intro same
        rw [same] at found
        cases found.symm.trans absent
    · exact next secrets onto (fun _ _ found => found) held

/-- Sealing changes the secrets only, and each key has its secret in the end. -/
theorem sealAll_follows
    (allowed : ∀ secrets key, SealedOnto keys s.secrets secrets → key ∈ keys → secrets key.ref = none →
      permitted { s with secrets } (.seal key.ref key.plaintext)) :
    Follows permitted (sealAll anp keys)
      (fun _ t => ∃ after, t = { s with secrets := after } ∧ SealedOnto keys s.secrets after ∧
        ∀ key ∈ keys, Held anp after key) s := by
  refine (sealAll_follows_from (fun _ inside => inside) (.refl keys s.secrets) allowed).mono (fun _ t done => ?_)
  obtain ⟨after, rfl, onto, -, held⟩ := done
  exact ⟨after, rfl, onto, held⟩

theorem ErasedFrom.refl (refs : List SecretRef) (secrets : SecretRef → Option Bytes) : ErasedFrom refs secrets secrets :=
  fun _ => .inl rfl

theorem ErasedFrom.erase (erased : ErasedFrom refs before after) {ref : SecretRef} (inside : ref ∈ refs) :
    ErasedFrom refs before (Function.update after ref none) := by
  intro other
  by_cases same : other = ref
  · subst same
    exact .inr ⟨inside, Function.update_self ..⟩
  · rw [Function.update_of_ne same]
    exact erased other

private theorem deleteSecrets_follows_from {all : List SecretRef} (subset : ∀ ref ∈ refs, ref ∈ all)
    (erased : ErasedFrom all s.secrets secrets)
    (allowed : ∀ secrets ref, ErasedFrom all s.secrets secrets → ref ∈ all → permitted { s with secrets } (.deleteSecret ref)) :
    Follows permitted (deleteSecrets refs)
      (fun _ t => ∃ after, t = { s with secrets := after } ∧ ErasedFrom all s.secrets after ∧
        (∀ ref, secrets ref = none → after ref = none) ∧ ∀ ref ∈ refs, after ref = none)
      { s with secrets } := by
  induction refs generalizing secrets with
  | nil => exact .pure ⟨secrets, rfl, erased, fun _ gone => gone, by simp⟩
  | cons ref rest ih =>
    have first := subset ref List.mem_cons_self
    refine .bind (.write (allowed _ _ erased first) ?_)
    refine (ih (fun other inside => subset other (List.mem_cons_of_mem _ inside)) (erased.erase first)).mono (fun _ t done => ?_)
    obtain ⟨after, rfl, erased, kept, all⟩ := done
    refine ⟨after, rfl, erased, fun other gone => kept other ?_, fun other inside => ?_⟩
    · by_cases same : other = ref
      · rw [same, Function.update_self]
      · rw [Function.update_of_ne same]
        exact gone
    · rcases List.mem_cons.mp inside with rfl | inside
      · exact kept _ (Function.update_self ..)
      · exact all other inside

/-- Deleting changes the secrets only, and those of the list are gone in the end. -/
theorem deleteSecrets_follows
    (allowed : ∀ secrets ref, ErasedFrom refs s.secrets secrets → ref ∈ refs → permitted { s with secrets } (.deleteSecret ref)) :
    Follows permitted (deleteSecrets refs)
      (fun _ t => ∃ after, t = { s with secrets := after } ∧ ErasedFrom refs s.secrets after ∧ ∀ ref ∈ refs, after ref = none)
      s := by
  refine (deleteSecrets_follows_from (fun _ inside => inside) (.refl refs s.secrets) allowed).mono (fun _ t done => ?_)
  obtain ⟨after, rfl, erased, -, gone⟩ := done
  exact ⟨after, rfl, erased, gone⟩

theorem persistRecord_follows {record : IdentityRecord} {Q : IdentityRecord → Store → Prop}
    (allowed : record.generation + 1 < 2 ^ 64 → permitted s (.identity record.raised))
    (post : record.generation + 1 < 2 ^ 64 → Q record.raised (s.putIdentity record.raised)) :
    Follows permitted (persistRecord record) Q s := by
  refine .bind (.lift (fun generation counted => ?_))
  obtain ⟨room, rfl⟩ := checkedSucc_ok.mp counted
  exact .bind (.write (allowed room) (.pure (post room)))

end

/-! ## Actions -/

/-- The record that an action stores, before its generation is raised. -/
def IdentityAction.Stores (entropy : Entropy) (record : IdentityRecord) : IdentityAction → Prop
  | .prepare seen plan => ∃ digest, canonicalDigest anp plan.changes.document = .ok digest ∧
      record = preparedRecord entropy seen plan digest
  | .discard seen _ => record = clearedRecord seen
  | .edit _ _ next | .importRoot _ _ _ next => record = next

/-- The DID that an action registers or removes. -/
def StoreAction.did : StoreAction → String
  | .introduce did _ _ => did
  | .create _ built => built.did
  | .delete did _ => did

/-- The record that an action introduces. -/
def StoreAction.Makes (entropy : Entropy) (made : IdentityRecord) : StoreAction → Prop
  | .introduce _ _ record => record = .ok made
  | .create spec built => createdRecord anp entropy spec built = .ok made
  | .delete .. => False

/-- The record that a handle returned by an action shows. -/
def StoreAction.Returns (entropy : Entropy) (shown : IdentityRecord) : StoreAction → Prop
  | .introduce _ _ record => record = .ok shown
  | .create spec built => ∃ made, createdRecord anp entropy spec built = .ok made ∧ shown = { made with state := .active }
  | .delete .. => False

section
variable {did : String} {registry next : IdentityRegistry} {summary : IdentitySummary}

theorem IdentityRegistry.put_ok :
    registry.put did summary = .ok next ↔ registry.generation + 1 < 2 ^ 64 ∧
      next = { generation := registry.generation + 1, identities := Function.update registry.identities did (some summary) } := by
  simp only [IdentityRegistry.put, except_bind_ok, checkedSucc_ok, Except.ok.injEq]
  constructor
  · rintro ⟨_, ⟨room, rfl⟩, rfl⟩
    exact ⟨room, rfl⟩
  · rintro ⟨room, rfl⟩
    exact ⟨_, ⟨room, rfl⟩, rfl⟩

theorem IdentityRegistry.drop_ok : registry.drop did = .ok next ↔ registry.generation + 1 < 2 ^ 64 ∧
      next = { generation := registry.generation + 1, identities := Function.update registry.identities did none } := by
  simp only [IdentityRegistry.drop, except_bind_ok, checkedSucc_ok, Except.ok.injEq]
  constructor
  · rintro ⟨_, ⟨room, rfl⟩, rfl⟩
    exact ⟨room, rfl⟩
  · rintro ⟨room, rfl⟩
    exact ⟨_, ⟨room, rfl⟩, rfl⟩

theorem IdentityRegistry.put_names (entered : registry.put did summary = .ok next) : next.Names did summary.identityId := by
  obtain ⟨-, rfl⟩ := put_ok.mp entered
  exact ⟨summary, Function.update_self .., rfl⟩

section
variable {other : String} {entry : IdentitySummary}

theorem IdentityRegistry.put_listed (entered : registry.put did summary = .ok next) (listed : next.identities other = some entry) :
    other = did ∧ entry = summary ∨ other ≠ did ∧ registry.identities other = some entry := by
  obtain ⟨-, rfl⟩ := put_ok.mp entered
  by_cases same : other = did
  · subst same
    exact .inl ⟨rfl, Option.some.inj (listed.symm.trans (Function.update_self ..))⟩
  · exact .inr ⟨same, (Function.update_of_ne same ..).symm.trans listed⟩

theorem IdentityRegistry.drop_listed (left : registry.drop did = .ok next) (listed : next.identities other = some entry) :
    other ≠ did ∧ registry.identities other = some entry := by
  obtain ⟨-, rfl⟩ := drop_ok.mp left
  by_cases same : other = did
  · subst same
    cases listed.symm.trans (Function.update_self ..)
  · exact ⟨same, (Function.update_of_ne same ..).symm.trans listed⟩

end
end

section
variable {anp} {entropy : Entropy} {start : Store}

/-- A handle shows what the store holds. -/
def Shows (handle : DidIdentity) (s : Store) : Prop := s.identities handle.identityId = some handle.record

theorem shows_putIdentity (s : Store) (record : IdentityRecord) : Shows { record } (s.putIdentity record) :=
  Function.update_self ..

theorem commitPlan_follows (seen : IdentityRecord) (plan : UpdatePlan) :
    Follows (PrepareStep anp entropy start seen plan) (commitPlan anp entropy seen plan)
      (fun r t => Shows r.1 t ∧ ∃ digest, canonicalDigest anp plan.changes.document = .ok digest ∧
        r.1.record = (preparedRecord entropy seen plan digest).raised) start := by
  refine .bind (.write .announce ?_)
  refine .bind ((sealAll_follows (fun secrets key onto inside absent => .keep onto inside absent)).mono (fun _ t done => ?_))
  obtain ⟨secrets, rfl, onto, held⟩ := done
  refine .bind (.lift (fun digest hashed => .bind (persistRecord_follows (fun room => .store onto held hashed room) (fun _ => ?_))))
  exact .bind (.write (.close onto held hashed) (.pure ⟨shows_putIdentity _ _, digest, hashed, rfl⟩))

theorem discardPending_follows (seen : IdentityRecord) (pending : PendingRevisionRecord) :
    Follows (DiscardStep entropy start seen pending) (discardPending entropy seen pending pending.revisionId)
      (fun r t => Shows r t ∧ r.record = (clearedRecord seen).raised) start := by
  refine .bind (.write .announce (.bind (persistRecord_follows (fun room => .store room) (fun _ => ?_))))
  refine .bind ((deleteSecrets_follows (fun secrets ref erased inside => ?_)).mono (fun _ t done => ?_))
  · have erased : ErasedFrom pending.pendingSecretRefs start.secrets secrets := erased
    exact DiscardStep.erase erased inside
  obtain ⟨secrets, rfl, erased, gone⟩ := done
  have erased : ErasedFrom pending.pendingSecretRefs start.secrets secrets := erased
  exact .bind (.write (.close erased gone) (.pure ⟨shows_putIdentity _ _, rfl⟩))

variable {permitted : Store → Write → Prop}

theorem persistAndRegister_follows (next : IdentityRecord)
    (allowed : ∀ s w, RegisterStep entropy start next s w → permitted s w) :
    Follows permitted (persistAndRegister entropy next) (fun record t => Shows { record } t ∧ record = next.raised) start := by
  refine .bind (persistRecord_follows (fun room => allowed _ _ (.store room)) (fun _ => ?_))
  refine .bind (.bind (.get (.pure (.bind (.lift (fun _ checked => ?_))))))
  have named : start.registry.Names next.did next.identityId := by
    by_contra absent
    exact (reject_ok.mp checked) absent
  refine .bind (.lift (fun registry entered => .bind (.write (allowed _ _ (.refresh named entered)) ?_)))
  exact .bind (.write (allowed _ _ (.close named entered)) (.pure ⟨shows_putIdentity start next.raised, rfl⟩))

theorem edit_follows (change : Edit) (seen next : IdentityRecord) :
    Follows (EditStep entropy start change next) ((IdentityAction.edit change seen next).execute anp entropy)
      (fun r t => Shows r t ∧ r.record = next.raised) start := by
  cases journaled : change.journaled with
  | true =>
    simp only [IdentityAction.execute, journaled, if_true]
    refine .bind (.bind (.write (.announce journaled) ?_))
    exact (persistAndRegister_follows next (fun _ _ step => .register journaled step)).mono (fun _ _ shows => .pure shows)
  | false =>
    simp only [IdentityAction.execute, journaled, Bool.false_eq_true, if_false]
    exact .bind (persistRecord_follows (fun room => .plain journaled room) (fun _ => .pure ⟨shows_putIdentity _ _, rfl⟩))

theorem commitRootImport_follows (transfer : RootTransfer) (ref : SecretRef) (next : IdentityRecord) :
    Follows (ImportStep anp entropy start transfer ref next) (commitRootImport anp entropy transfer ref next)
      (fun record t => Shows { record } t ∧ record = next.raised) start := by
  refine .bind (.write .announce (.bind (sealVerified_follows (transfer.sealedKey anp ref) (fun absent => .keep absent) ?_ ?_)))
  · intro absent
    have absent : start.secrets (transfer.sealedKey anp ref).ref = none := absent
    have onto := (SealedOnto.refl [transfer.sealedKey anp ref] start.secrets).seal List.mem_cons_self absent
    exact persistAndRegister_follows next (fun _ _ step => .register onto ⟨_, Function.update_self .., .inl rfl⟩ step)
  · intro held
    have held : Held anp start.secrets (transfer.sealedKey anp ref) := held
    exact persistAndRegister_follows next (fun _ _ step => .register (.refl _ _) held step)

/-- An action makes the writes of its steps, and its handle shows what the store then holds. -/
theorem IdentityAction.follows (action : IdentityAction) :
    Follows (IdentityStep anp entropy start action) (action.execute anp entropy)
      (fun r t => Shows r t ∧ ∃ record, action.Stores anp entropy record ∧ r.record = record.raised) start := by
  cases action with
  | prepare seen plan =>
    refine .bind ((commitPlan_follows seen plan).weaken (fun _ _ step => .prepare step) (fun r t shown => .pure ?_))
    obtain ⟨shows, digest, hashed, same⟩ := shown
    exact ⟨shows, _, ⟨digest, hashed, rfl⟩, same⟩
  | discard seen pending =>
    exact (discardPending_follows seen pending).weaken (fun _ _ step => .discard step)
      (fun _ _ shown => ⟨shown.1, _, rfl, shown.2⟩)
  | edit change seen next =>
    exact (edit_follows change seen next).weaken (fun _ _ step => .edit step) (fun _ _ shown => ⟨shown.1, _, rfl, shown.2⟩)
  | importRoot transfer ref seen next =>
    exact .bind ((commitRootImport_follows transfer ref next).weaken (fun _ _ step => .importRoot step)
      (fun _ _ shown => .pure ⟨shown.1, _, rfl, shown.2⟩))

theorem introduce_follows {journal : CreationJournal} {keys : List SealedKey} {record : DidResult IdentityRecord}
    {α : Type} {between : Tx Unit} {finish : IdentityRecord → Tx α} {Q : α → Store → Prop}
    (allowed : ∀ s w, IntroduceStep anp start journal keys record s w → permitted s w)
    (silent : Issues (fun _ => False) between)
    (rest : ∀ secrets made, Introducing anp start keys record secrets made →
      permitted { start with transactions := start.transactions.insert journal, secrets } (.identity made) →
      Follows permitted (finish made) Q { start with transactions := start.transactions.insert journal, secrets }) :
    Follows permitted (do
      writeJournal journal
      sealAll anp keys
      between
      let made ← Program.lift record
      finish made) Q start := by
  refine .bind (.write (allowed _ _ .announce) ?_)
  refine .bind ((sealAll_follows (fun secrets key onto inside absent => ?_)).mono (fun _ t done => ?_))
  · have onto : SealedOnto keys start.secrets secrets := onto
    exact allowed _ _ (.keep onto inside absent)
  obtain ⟨secrets, rfl, onto, held⟩ := done
  have onto : SealedOnto keys start.secrets secrets := onto
  refine .bind (.silent (silent.writes_nil _) (fun _ _ => .bind (.lift (fun made built => ?_))))
  exact rest secrets made ⟨onto, held, built⟩ (allowed _ _ (.store onto held built))

/-- What the handles that a store action returns show, and that the registry then names them. -/
def ShowsStore (did : String) (shown : IdentityRecord → Prop) (returned : DidStore × Option DidIdentity) (s : Store) : Prop :=
  returned.1.registryGeneration = s.registry.generation ∧
    ∀ opened ∈ returned.2, Shows opened s ∧ shown opened.record ∧ s.registry.Names did opened.identityId

theorem commitNewIdentity_follows (did : String) (keys : List NewKey) (record : DidResult IdentityRecord) :
    Follows (StoreStep anp entropy start (.introduce did keys record))
      (commitNewIdentity anp entropy start.registry did keys record)
      (fun r t => ShowsStore did (fun shown => record = .ok shown) (r.1, some r.2) t) start := by
  have split : commitNewIdentity anp entropy start.registry did keys record = (do
      writeJournal (creationJournal entropy did keys)
      sealAll anp (sealedKeys entropy keys)
      Pure.pure ()
      let made ← Program.lift record
      registerIdentity entropy start.registry did made) := rfl
  rw [split]
  refine introduce_follows (fun _ _ step => .introduce step) (.pure ()) (fun secrets made ready stores => ?_)
  refine .bind (.write stores (.bind (.lift (fun registry entered => ?_))))
  refine .bind (.write (.enlist ready entered) (.bind (.write (.close ready entered) (.pure ⟨rfl, fun opened same => ?_⟩))))
  cases same
  exact ⟨shows_putIdentity _ _, ready.built, IdentityRegistry.put_names entered⟩

theorem commitCreation_follows (spec : DidCreateSpec) (built : BuiltIdentity) :
    Follows (StoreStep anp entropy start (.create spec built)) (commitCreation anp entropy start.registry spec built)
      (fun r t => ShowsStore built.did (fun shown => ∃ made, createdRecord anp entropy spec built = .ok made ∧
        shown = { made with state := .active }) (r.1, some r.2) t) start := by
  refine introduce_follows (fun _ _ step => .create step) (verifyAllPersistedKeys_issues anp _) (fun secrets made ready stores => ?_)
  refine .bind (.write stores (.bind (.lift (fun registry entered => ?_))))
  refine .bind (.write (.enlistCreated ready entered) (.bind (.write (.activate ready entered) ?_)))
  refine .bind (.write (.closeCreated ready entered) (.pure ⟨rfl, fun opened same => ?_⟩))
  cases same
  exact ⟨shows_putIdentity _ _, ⟨made, ready.built, rfl⟩, IdentityRegistry.put_names entered⟩

theorem deleteNamespace_follows (did : String) (record : IdentityRecord) :
    Follows (DeleteStep entropy start did record) (deleteNamespace entropy start.registry did record)
      (fun r t => r.registryGeneration = t.registry.generation) start := by
  refine .bind (.write .announce ?_)
  refine .bind ((deleteSecrets_follows (fun secrets ref erased inside => ?_)).mono (fun _ t done => ?_))
  · have erased : ErasedFrom record.managedRefs start.secrets secrets := erased
    exact DeleteStep.erase erased inside
  obtain ⟨secrets, rfl, erased, gone⟩ := done
  have erased : ErasedFrom record.managedRefs start.secrets secrets := erased
  refine .bind (.write (.remove erased gone) (.bind (.lift (fun registry left => ?_))))
  exact .bind (.write (.delist erased gone left) (.bind (.write (.close erased gone left) (.pure rfl))))

theorem StoreAction.follows (action : StoreAction) :
    Follows (StoreStep anp entropy start action) (action.execute anp entropy start.registry)
      (ShowsStore action.did (fun shown => action.Returns anp entropy shown)) start := by
  cases action with
  | introduce did keys record =>
    exact .bind ((commitNewIdentity_follows did keys record).mono (fun _ _ shows => .pure shows))
  | create spec built => exact .bind ((commitCreation_follows spec built).mono (fun _ _ shows => .pure shows))
  | delete did record =>
    refine .bind ((deleteNamespace_follows did record).weaken (fun _ _ step => .delete step) (fun r t same => .pure ⟨same, ?_⟩))
    intro opened none
    cases none

end

/-! ## Recovery follows its steps -/

section
variable {anp} {s : Store}

variable {permitted : Store → Write → Prop} {j : CreationJournal} {Q : Unit → Store → Prop} {did : String}
  {record : IdentityRecord} {registry next : IdentityRegistry}

private theorem journalledRecord_follows {f : IdentityRecord → Tx Unit}
    (rest : ∀ record, Journalled anp s j record → Follows permitted (f record) Q s) :
    Follows permitted (journalledRecord anp j >>= f) Q s := by
  refine .bind (.silent ((journalledRecord_issues anp j).writes_nil s) (fun record returned => rest record ?_))
  obtain ⟨read, did⟩ := journalledRecord_ok.mp returned
  exact ⟨read, did⟩

private theorem refreshSummary_follows (current : s.registry.identities did = some record.summary → Q () s)
    (allowed : ∀ registry, s.registry.put did record.summary = .ok registry → permitted s (.registry registry))
    (moved : ∀ registry, s.registry.put did record.summary = .ok registry → Q () { s with registry }) :
    Follows permitted (refreshSummary did record) Q s := by
  refine .bind (.bind (.get (.pure ?_)))
  by_cases same : s.registry.identities did = some record.summary
  · unfold recoverSummary
    rw [if_neg (not_not.mpr same)]
    exact .bind (.pure (.pure (current same)))
  · unfold recoverSummary
    rw [if_pos same]
    refine .bind (.bind (.lift (fun registry entered => .bind (.write (allowed registry entered) (.pure (.pure ?_))))))
    exact moved registry entered

/-- Bringing the summary of a journalled record up to date. -/
private theorem journalled_refresh (inside : j ∈ s.transactions) (journalled : Journalled anp s j record)
    (kind : j.kind = .stateTransition ∨ j.kind = .rootImport ∧ rootImportCommitted record = true)
    (done : ∀ t, Journalled anp t j record → t.registry.identities j.did = some record.summary → Q () t) :
    Follows (RecoveryStep anp) (refreshSummary j.did record) Q s := by
  refine refreshSummary_follows (fun current => done s journalled current) (fun registry entered => ?_) (fun registry entered => ?_)
  · exact .creation inside (.refresh journalled kind entered)
  · obtain ⟨-, rfl⟩ := IdentityRegistry.put_ok.mp entered
    exact done _ ⟨journalled.read, journalled.did⟩ (Function.update_self ..)

private theorem clearIdentity_follows
    (erases : ∀ secrets ref, ref ∈ j.secretRefs → permitted { s with secrets } (.deleteSecret ref))
    (removes : ∀ secrets, (∀ ref ∈ j.secretRefs, secrets ref = none) →
      permitted { s with secrets } (.removeIdentity j.identityId))
    (done : ∀ secrets, (∀ ref ∈ j.secretRefs, secrets ref = none) →
      Q () { s with secrets, identities := Function.update s.identities j.identityId none }) :
    Follows permitted (clearIdentity j) Q s := by
  refine .bind ((deleteSecrets_follows (fun secrets ref _ inside => erases secrets ref inside)).mono (fun _ t ended => ?_))
  obtain ⟨secrets, rfl, -, gone⟩ := ended
  exact .write (removes secrets gone) (done secrets gone)

private theorem unregister_follows (absent : ¬ s.registry.Names j.did j.identityId → Q () s)
    (allowed : ∀ registry, s.registry.Names j.did j.identityId → s.registry.drop j.did = .ok registry →
      permitted s (.registry registry))
    (left : ∀ registry, s.registry.drop j.did = .ok registry → Q () { s with registry }) :
    Follows permitted (unregister j) Q s := by
  refine .bind (.bind (.get (.pure ?_)))
  unfold dropSummary
  by_cases named : s.registry.Names j.did j.identityId
  · rw [if_pos named]
    refine .bind (.bind (.lift (fun registry dropped => .bind (.write (allowed registry named dropped) (.pure (.pure ?_))))))
    exact left registry dropped
  · rw [if_neg named]
    exact .bind (.pure (.pure (absent named)))

theorem not_names_of_drop {identityId : String} (dropped : registry.drop did = .ok next) :
    ¬ next.Names did identityId := by
  rintro ⟨summary, found, -⟩
  exact (IdentityRegistry.drop_listed dropped found).1 rfl

private theorem settleCreate_follows (inside : j ∈ s.transactions) (kind : j.kind = .create) :
    Follows (RecoveryStep anp) (settleCreate anp s.registry j) (fun _ t => j.Settled anp t) s := by
  unfold settleCreate
  by_cases named : s.registry.Names j.did j.identityId
  · rw [if_pos named]
    refine journalledRecord_follows (fun record journalled => ?_)
    by_cases creating : record.state = .creating
    · rw [if_pos creating]
      refine .write (.creation inside (.activate journalled kind named creating)) ?_
      have same : record.identityId = j.identityId := readIdentity_named journalled.read
      simp only [CreationJournal.Settled, kind]
      refine .inl ⟨named, { record with state := .active }, ?_, by simp⟩
      simp [same]
    · rw [if_neg creating]
      refine .pure ?_
      obtain ⟨stored, found, -, completed⟩ := readIdentity_ok.mp journalled.read
      obtain ⟨_, _, _, -, -, -, rfl⟩ := completeRecord_ok.mp completed
      simp only [CreationJournal.Settled, kind]
      exact .inl ⟨named, stored, found, creating⟩
  · rw [if_neg named]
    refine clearIdentity_follows (fun secrets ref listed => .creation inside (.eraseCreated kind named listed))
      (fun secrets gone => .creation inside (.removeCreated kind named gone)) (fun secrets gone => ?_)
    simp only [CreationJournal.Settled, kind]
    exact .inr ⟨named, gone, Function.update_self ..⟩

theorem settleJournal_follows (inside : j ∈ s.transactions) :
    Follows (RecoveryStep anp) (settleJournal anp j) (fun _ t => j.Settled anp t) s := by
  unfold settleJournal
  cases kind : j.kind with
  | stateTransition =>
    refine journalledRecord_follows (fun record journalled => ?_)
    refine journalled_refresh inside journalled (.inl kind) (fun t journalled current => ?_)
    simp only [CreationJournal.Settled, kind]
    exact ⟨record, journalled, current⟩
  | rootImport =>
    refine journalledRecord_follows (fun record journalled => ?_)
    cases committed : rootImportCommitted record with
    | true =>
      rw [if_pos rfl]
      refine journalled_refresh inside journalled (.inr ⟨kind, committed⟩) (fun t journalled current => ?_)
      simp only [CreationJournal.Settled, kind]
      exact ⟨record, journalled, .inl ⟨committed, current⟩⟩
    | false =>
      rw [if_neg (by decide)]
      refine (deleteSecrets_follows (fun secrets ref _ listed => ?_)).mono (fun _ t ended => ?_)
      · exact .creation inside (.undoImport ⟨journalled.read, journalled.did⟩ kind committed listed)
      · obtain ⟨secrets, rfl, -, gone⟩ := ended
        simp only [CreationJournal.Settled, kind]
        exact ⟨record, ⟨journalled.read, journalled.did⟩, .inr ⟨committed, gone⟩⟩
  | namespaceDelete =>
    refine .bind (clearIdentity_follows (fun secrets ref listed => .creation inside (.eraseDeleted kind listed))
      (fun secrets gone => .creation inside (.removeDeleted kind gone)) (fun secrets gone => ?_))
    refine unregister_follows (fun absent => ?_) (fun registry named left => ?_) (fun registry left => ?_)
    · simp only [CreationJournal.Settled, kind]
      exact ⟨gone, Function.update_self .., absent⟩
    · exact .creation inside (.delist kind gone (Function.update_self ..) named left)
    · simp only [CreationJournal.Settled, kind]
      exact ⟨gone, Function.update_self .., not_names_of_drop left⟩
  | create => exact .bind (.bind (.get (.pure (settleCreate_follows inside kind))))

theorem settleUpdateJournal_follows {j : UpdateJournal} (inside : j ∈ s.updateTransactions) :
    Follows (RecoveryStep anp) (settleUpdateJournal anp j) (fun _ t => j.Settled anp t) s := by
  unfold settleUpdateJournal
  cases kind : j.kind with
  | prepare =>
    refine .bind (.silent ((readIdentity_issues anp _).writes_nil s) (fun record read => ?_))
    have read : s.readIdentity anp j.identityId = .ok record := read
    unfold recoverPrepare
    by_cases pends : record.Pends j.revisionId
    · rw [if_pos pends]
      exact .pure ⟨record, read, by simp only [kind]; exact .inl pends⟩
    · rw [if_neg pends]
      refine (deleteSecrets_follows (fun secrets ref _ listed => .update inside (.undoPrepare read kind pends listed))).mono
        (fun _ t ended => ?_)
      obtain ⟨secrets, rfl, -, gone⟩ := ended
      exact ⟨record, read, by simp only [kind]; exact .inr gone⟩
  | cleanup =>
    have erases : ∀ t record, t.updateTransactions = s.updateTransactions → t.readIdentity anp j.identityId = .ok record →
        ¬ record.Pends j.revisionId →
        Follows (RecoveryStep anp) (deleteSecrets j.secretRefs) (fun _ t => j.Settled anp t) t := by
      intro t record same read other
      have inside : j ∈ t.updateTransactions := by rw [same]; exact inside
      refine (deleteSecrets_follows (fun secrets ref _ listed => .update inside (.eraseCleared read kind other listed))).mono
        (fun _ t ended => ?_)
      obtain ⟨secrets, rfl, -, gone⟩ := ended
      exact ⟨record, read, by simp only [kind]; exact ⟨other, gone⟩⟩
    refine .bind (.bind (.silent ((readIdentity_issues anp _).writes_nil s) (fun record read => ?_)))
    have read : s.readIdentity anp j.identityId = .ok record := read
    by_cases pends : record.Pends j.revisionId
    · rw [if_pos pends]
      refine .bind (persistRecord_follows (fun room => .update inside (.clear read kind pends room)) (fun room => .pure ?_))
      refine erases _ (clearedRecord record).raised rfl ?_ ?_
      · refine readIdentity_again _ read ⟨rfl, rfl, rfl, rfl, rfl, rfl, rfl⟩ rfl (.inl rfl) ?_
        have same : record.identityId = j.identityId := readIdentity_named read
        rw [← same]
        exact Function.update_self ..
      · rintro ⟨pending, found, -⟩
        cases found
    · rw [if_neg pends]
      exact .pure (erases s record rfl read pends)

theorem mem_transactions_iff : j ∈ s.transactions ↔ .inl j ∈ s.outstanding := by
  simp [Store.outstanding, Directory.mem_entries]

theorem mem_updateTransactions_iff {j : UpdateJournal} : j ∈ s.updateTransactions ↔ .inr j ∈ s.outstanding := by
  simp [Store.outstanding, Directory.mem_entries]

private theorem settleAndRemove_follows {entry : CreationJournal ⊕ UpdateJournal} (inside : entry ∈ s.outstanding) :
    Follows (RecoveryStep anp) (settleAndRemove anp entry) (fun _ _ => True) s := by
  have kept : ((settle anp entry).final s).outstanding = s.outstanding :=
    (settle_issues anp entry).frame_final Store.outstanding outstanding_settles s
  rw [← kept] at inside
  cases entry with
  | inl j =>
    have settles : Follows (RecoveryStep anp) (settleJournal anp j) (fun _ t => j.Settled anp t) s :=
      settleJournal_follows (mem_transactions_iff.mpr (kept ▸ inside))
    refine .bind ⟨settles.traced, fun u returned => .write ?_ trivial⟩
    exact .creation (mem_transactions_iff.mpr inside) (.close (settles.returns u returned))
  | inr j =>
    have settles : Follows (RecoveryStep anp) (settleUpdateJournal anp j) (fun _ t => j.Settled anp t) s :=
      settleUpdateJournal_follows (mem_updateTransactions_iff.mpr (kept ▸ inside))
    refine .bind ⟨settles.traced, fun u returned => .write ?_ trivial⟩
    exact .update (mem_updateTransactions_iff.mpr inside) (.close (settles.returns u returned))

/-- Recovery makes the writes of its steps; what it returns is the registry that it leaves. -/
theorem recover_follows : Follows (RecoveryStep anp) (recover anp) (fun registry t => registry = t.registry) s := by
  have follows : Follows (RecoveryStep anp) (settleAll anp) (fun _ _ => True) s := by
    refine Follows.drain (I := fun _ => True) (settle_resumable anp) (fun _ _ _ _ => trivial) (fun t entry rest _ listed => ?_) trivial
    exact settleAndRemove_follows (by rw [listed]; exact List.mem_cons_self)
  refine ⟨by rw [recover_writes]; exact follows.traced, fun registry returned => ?_⟩
  obtain ⟨-, same⟩ := recover_ok.mp returned
  rw [recover_final, same]

end
end AnpIdentity
