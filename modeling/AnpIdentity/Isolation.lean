import AnpIdentity.Erasure
import AnpIdentity.PendingRevisions
import AnpIdentity.Registration

/-! Calls on one identity leave every other one alone. Files, secrets and journals are kept under the id of the identity;
the registry is kept by DID, and a DID may go from one identity to another while journals of the first are outstanding. -/

namespace AnpIdentity
open Durable Program

/-- The identity whose file, journal or secret is written. -/
def Write.owner : Write → Option String
  | .seal ref _ | .deleteSecret ref => some ref.identityId
  | v => v.subject

/-- The write is about one identity: its file, its secrets, its journals or its entry of the registry. -/
structure Confined (id : String) (s : Store) (v : Write) : Prop where
  owner : ∀ other, v.owner = some other → other = id
  entries : ∀ registry, v = .registry registry → ∀ did entry, entry.identityId ≠ id →
    (registry.identities did = some entry ↔ s.registry.identities did = some entry)
  journal : ∀ j, v = .journal j → ∀ ref ∈ j.secretRefs, ref.identityId = id
  updateJournal : ∀ j, v = .updateJournal j → ∀ ref ∈ j.secretRefs, ref.identityId = id

/-- What a store holds of an identity is the same in another. -/
structure Store.SameFor (id : String) (s t : Store) : Prop where
  file : t.identities id = s.identities id
  entry : ∀ did entry, entry.identityId = id → (t.registry.identities did = some entry ↔ s.registry.identities did = some entry)
  secrets : ∀ ref, ref.identityId = id → t.secrets ref = s.secrets ref

/-- Journals name secrets of the identity that they are about. -/
structure Store.Owned (s : Store) : Prop where
  transactions : ∀ j ∈ s.transactions, ∀ ref ∈ j.secretRefs, ref.identityId = j.identityId
  updates : ∀ j ∈ s.updateTransactions, ∀ ref ∈ j.secretRefs, ref.identityId = j.identityId

section
variable {id other : String} {s t u : Store} {v : Write}

theorem Store.SameFor.refl (s : Store) : s.SameFor id s := ⟨rfl, fun _ _ _ => Iff.rfl, fun _ _ => rfl⟩

theorem Store.SameFor.trans (first : s.SameFor id t) (second : t.SameFor id u) : s.SameFor id u :=
  ⟨second.file.trans first.file, fun did entry is => (second.entry did entry is).trans (first.entry did entry is),
    fun ref is => (second.secrets ref is).trans (first.secrets ref is)⟩

theorem Confined.sameFor (confined : Confined id s v) (apart : other ≠ id) : s.SameFor other (Medium.apply s v) := by
  have elsewhere : v.owner ≠ some other := fun owner => apart (confined.owner other owner)
  cases v with
  | registry registry =>
    exact ⟨rfl, fun did entry is => confined.entries registry rfl did entry (is ▸ apart), fun _ _ => rfl⟩
  | identity record =>
    exact ⟨identities_put_ne s (fun same => elsewhere (congrArg some same.symm)), fun _ _ _ => Iff.rfl, fun _ _ => rfl⟩
  | removeIdentity gone =>
    exact ⟨identities_remove_ne s (fun same => elsewhere (congrArg some same.symm)), fun _ _ _ => Iff.rfl, fun _ _ => rfl⟩
  | «seal» ref plaintext =>
    refine ⟨rfl, fun _ _ _ => Iff.rfl, fun asked is => Function.update_of_ne ?_ ..⟩
    rintro rfl
    exact elsewhere (congrArg some is)
  | deleteSecret ref =>
    refine ⟨rfl, fun _ _ _ => Iff.rfl, fun asked is => Function.update_of_ne ?_ ..⟩
    rintro rfl
    exact elsewhere (congrArg some is)
  | _ => exact ⟨rfl, fun _ _ _ => Iff.rfl, fun _ _ => rfl⟩

theorem Confined.owned (confined : Confined id s v) (owned : s.Owned) : (Medium.apply s v).Owned := by
  cases v with
  | journal j =>
    refine ⟨fun k listed ref inside => ?_, owned.updates⟩
    rcases Directory.mem_insert.mp listed with rfl | ⟨listed, -⟩
    · rw [confined.journal k rfl ref inside, confined.owner k.identityId rfl]
    · exact owned.transactions k listed ref inside
  | updateJournal j =>
    refine ⟨owned.transactions, fun k listed ref inside => ?_⟩
    rcases Directory.mem_insert.mp listed with rfl | ⟨listed, -⟩
    · rw [confined.updateJournal k rfl ref inside, confined.owner k.identityId rfl]
    · exact owned.updates k listed ref inside
  | removeJournal name => exact ⟨fun k listed => owned.transactions k (Directory.mem_erase.mp listed).1, owned.updates⟩
  | removeUpdateJournal name => exact ⟨owned.transactions, fun k listed => owned.updates k (Directory.mem_erase.mp listed).1⟩
  | _ => exact ⟨owned.transactions, owned.updates⟩

/-! ## Writes -/

theorem Confined.identity {record : IdentityRecord} (is : record.identityId = id) : Confined id s (.identity record) :=
  ⟨fun _ same => (Option.some.inj same).symm.trans is, nofun, nofun, nofun⟩

theorem Confined.removeIdentity : Confined id s (.removeIdentity id) :=
  ⟨fun _ same => (Option.some.inj same).symm, nofun, nofun, nofun⟩

theorem Confined.seal {ref : SecretRef} {plaintext : Bytes} (is : ref.identityId = id) : Confined id s (.seal ref plaintext) :=
  ⟨fun _ same => (Option.some.inj same).symm.trans is, nofun, nofun, nofun⟩

theorem Confined.deleteSecret {ref : SecretRef} (is : ref.identityId = id) : Confined id s (.deleteSecret ref) :=
  ⟨fun _ same => (Option.some.inj same).symm.trans is, nofun, nofun, nofun⟩

theorem Confined.announce {j : CreationJournal} (is : j.identityId = id) (refs : ∀ ref ∈ j.secretRefs, ref.identityId = id) :
    Confined id s (.journal j) := by
  refine ⟨fun _ same => (Option.some.inj same).symm.trans is, nofun, fun k same => ?_, nofun⟩
  cases same
  exact refs

theorem Confined.announceUpdate {j : UpdateJournal} (is : j.identityId = id)
    (refs : ∀ ref ∈ j.secretRefs, ref.identityId = id) : Confined id s (.updateJournal j) := by
  refine ⟨fun _ same => (Option.some.inj same).symm.trans is, nofun, nofun, fun k same => ?_⟩
  cases same
  exact refs

theorem Confined.close {name : String} : Confined id s (.removeJournal name) := ⟨nofun, nofun, nofun, nofun⟩

theorem Confined.closeUpdate {name : String} : Confined id s (.removeUpdateJournal name) := ⟨nofun, nofun, nofun, nofun⟩

section
variable {did : String} {registry : IdentityRegistry}

private theorem confined_registry (others : ∀ asked, asked ≠ did → registry.identities asked = s.registry.identities asked)
    (before : ∀ old, s.registry.identities did = some old → old.identityId = id)
    (after : ∀ new, registry.identities did = some new → new.identityId = id) : Confined id s (.registry registry) := by
  refine ⟨nofun, fun next same asked entry foreign => ?_, nofun, nofun⟩
  cases same
  by_cases here : asked = did
  · subst here
    exact ⟨fun listed => absurd (after entry listed) foreign, fun listed => absurd (before entry listed) foreign⟩
  · rw [others asked here]

theorem Confined.put {entry : IdentitySummary} (entered : s.registry.put did entry = .ok registry) (is : entry.identityId = id)
    (vacant : ∀ old, s.registry.identities did = some old → old.identityId = id) : Confined id s (.registry registry) := by
  obtain ⟨-, rfl⟩ := IdentityRegistry.put_ok.mp entered
  refine confined_registry (fun asked other => Function.update_of_ne other ..) vacant (fun new listed => ?_)
  change Function.update s.registry.identities did (some entry) did = some new at listed
  rw [Function.update_self, Option.some.injEq] at listed
  exact listed ▸ is

theorem Confined.drop (left : s.registry.drop did = .ok registry)
    (own : ∀ old, s.registry.identities did = some old → old.identityId = id) : Confined id s (.registry registry) := by
  obtain ⟨-, rfl⟩ := IdentityRegistry.drop_ok.mp left
  refine confined_registry (fun asked other => Function.update_of_ne other ..) own (fun new listed => ?_)
  change Function.update s.registry.identities did none did = some new at listed
  rw [Function.update_self] at listed
  cases listed

/-- An entry that names the identity is the only one of its DID. -/
theorem IdentityRegistry.Names.only (names : s.registry.Names did id) :
    ∀ old, s.registry.identities did = some old → old.identityId = id := by
  intro old listed
  obtain ⟨entry, there, is⟩ := names
  rw [listed, Option.some.injEq] at there
  rw [there, is]

end
end

/-! ## Calls on identities -/

/-- The pending revision names secrets of the identity. -/
def OwnsRefs (id : String) (pending : PendingRevisionRecord) : Prop := ∀ ref ∈ pending.pendingSecretRefs, ref.identityId = id

section
variable {anp : Anp} {s start : Store} {v : Write} {entropy : Entropy} {self : DidIdentity} {action : IdentityAction}
  {seen next : IdentityRecord}

theorem inheres_ownsRefs : Inheres anp OwnsRefs where
  planned planned ref inside := ((planUpdate_ok planned).refs ref inside).1
  moved holds := holds

private theorem RegisterStep.confined (step : RegisterStep entropy start next s v) : Confined next.identityId s v := by
  cases step with
  | store => exact .identity rfl
  | refresh named entered => exact .put entered rfl (IdentityRegistry.Names.only named)
  | close => exact .close

private theorem sealedKeys_owned {plan : UpdatePlan} (planned : Planned anp seen plan) {key : SealedKey}
    (inside : key ∈ plan.sealedKeys anp) : key.ref.identityId = seen.identityId := by
  refine (planned.refs key.ref ?_).1
  rw [← planned.sealed]
  exact List.mem_map_of_mem inside

theorem IdentityStep.confined (step : IdentityStep anp entropy start action s v)
    (justified : Justified anp start self entropy action) (owns : action.seen.Pending OwnsRefs) :
    Confined action.seen.identityId s v := by
  have kept := fun record (stores : action.Stores anp entropy record) => (justified.keeping stores).identityId
  cases step with
  | prepare step =>
    cases justified with
    | prepare active planned =>
      have plans := planUpdate_ok planned
      cases step with
      | announce => exact .announceUpdate rfl (fun ref inside => (plans.refs ref inside).1)
      | keep _ inside => exact .seal (sealedKeys_owned plans inside)
      | store => exact .identity rfl
      | close => exact .closeUpdate
  | discard step =>
    cases justified with
    | discard active found =>
      cases step with
      | announce => exact .announceUpdate rfl (owns _ found)
      | store => exact .identity rfl
      | erase _ inside => exact .deleteSecret (owns _ found _ inside)
      | close => exact .closeUpdate
  | @edit change seen next _ _ step =>
    rw [← kept next rfl]
    cases step with
    | plain => exact .identity rfl
    | announce => exact .announce rfl (fun _ inside => nomatch inside)
    | register _ step => exact step.confined
  | @importRoot transfer ref seen next _ _ step =>
    have own : ref.identityId = next.identityId := by
      cases justified with
      | imported _ transfers => cases transfers; rfl
    rw [← kept next rfl]
    cases step with
    | announce => exact .announce rfl (fun other inside => List.mem_singleton.mp inside ▸ own)
    | keep => exact .seal own
    | register _ _ step => exact step.confined

end

/-! ## Calls on stores -/

/-- The identity that an action on a store introduces or deletes. -/
def StoreAction.target (entropy : Entropy) : StoreAction → String
  | .introduce .. | .create .. => entropy.identityId
  | .delete _ record => record.identityId

section
variable {anp : Anp} {s start : Store} {v : Write} {entropy : Entropy} {self : DidStore} {call : StoreCall} {action : StoreAction}

private theorem IntroduceStep.confined {j : CreationJournal} {keys : List NewKey} {record : DidResult IdentityRecord}
    (step : IntroduceStep anp start j (sealedKeys entropy keys) record s v) (is : j.identityId = entropy.identityId)
    (refs : j.secretRefs = keys.map (fun key => (key.sealedKey entropy.identityId).ref))
    (named : ∀ made, record = .ok made → made.identityId = entropy.identityId) : Confined entropy.identityId s v := by
  cases step with
  | announce =>
    refine .announce is (fun ref inside => ?_)
    rw [refs] at inside
    obtain ⟨key, -, rfl⟩ := List.mem_map.mp inside
    rfl
  | keep _ inside =>
    obtain ⟨key, -, rfl⟩ := List.mem_map.mp inside
    exact .seal rfl
  | store _ _ built => exact .identity (named _ built)

private theorem DeleteStep.confined {did : String} {record : IdentityRecord}
    (step : DeleteStep entropy start did record s v) (deletes : Deletes anp start self did record) :
    Confined record.identityId s v := by
  obtain ⟨summary, listed, read⟩ := deletes.registered
  have names : start.registry.Names did record.identityId := ⟨summary, listed, (readIdentity_named read).symm⟩
  cases step with
  | announce => exact .announce rfl (fun ref inside => managedRefs_named inside)
  | erase _ inside => exact .deleteSecret (managedRefs_named inside)
  | remove => exact .removeIdentity
  | delist _ _ left => exact .drop left (IdentityRegistry.Names.only names)
  | close => exact .close

theorem StoreStep.confined (step : StoreStep anp entropy start action s v) (started : call.Starts anp start self entropy action) :
    Confined (action.target entropy) s v := by
  have new := fun made (makes : action.Makes anp entropy made) => (started.isNew makes).identityId
  have planned := started.planned
  have vacant : ∀ {did : String}, start.registry.identities did = none →
      ∀ old, start.registry.identities did = some old → old.identityId = entropy.identityId := by
    intro did absent old listed
    rw [absent] at listed
    cases listed
  cases step with
  | introduce step | create step => exact step.confined rfl rfl new
  | enlist ready entered =>
    cases planned with
    | introduce registrable => exact .put entered (new _ ready.built) (vacant registrable.absent)
  | enlistCreated ready entered =>
    cases planned with
    | create registrable => exact .put entered (new _ ready.built) (vacant registrable.absent)
  | @activate spec built secrets made registry ready =>
    have is : made.identityId = entropy.identityId := new made ready.built
    exact .identity is
  | close | closeCreated => exact .close
  | delete step =>
    cases planned with
    | delete deletes => exact step.confined deletes

/-! ## Recovery -/

private theorem SettleStep.confined {j : CreationJournal} (step : SettleStep anp s j v) (accounted : s.Accounted) (owned : s.Owned)
    (outstanding : j ∈ s.transactions) : Confined j.identityId s v := by
  have refs := owned.transactions j outstanding
  cases step with
  | @refresh record registry journalled kind entered =>
    obtain ⟨file, found, -, completed⟩ := readIdentity_ok.mp journalled.read
    have changes : j.Changes := kind.imp_right And.left
    obtain ⟨did, rest⟩ := accounted.journals j outstanding file found
    have names := (rest changes).1
    rw [did] at names
    exact .put entered (readIdentity_named journalled.read) (IdentityRegistry.Names.only names)
  | undoImport _ _ _ inside | eraseDeleted _ inside => exact .deleteSecret (refs _ inside)
  | removeDeleted => exact .removeIdentity
  | delist _ _ _ named left => exact .drop left (IdentityRegistry.Names.only named)
  | @activate record journalled =>
    have is : record.identityId = j.identityId := readIdentity_named journalled.read
    exact .identity is
  | eraseCreated _ _ inside => exact .deleteSecret (refs _ inside)
  | removeCreated => exact .removeIdentity
  | close => exact .close

/-- A step of recovery is confined to the identity of an outstanding journal. -/
theorem RecoveryStep.confined (step : RecoveryStep anp s v) (accounted : s.Accounted) (owned : s.Owned) :
    ∃ id, s.Owes id ∧ Confined id s v := by
  cases step with
  | @creation j outstanding step =>
    exact ⟨j.identityId, .inl ⟨j, outstanding, rfl⟩, step.confined accounted owned outstanding⟩
  | @update j outstanding step =>
    refine ⟨j.identityId, .inr ⟨j, outstanding, rfl⟩, ?_⟩
    cases step with
    | undoPrepare _ _ _ inside => exact .deleteSecret (owned.updates j outstanding _ inside)
    | @clear record read =>
      have is : record.identityId = j.identityId := readIdentity_named read
      exact .identity is
    | eraseCleared _ _ _ inside => exact .deleteSecret (owned.updates j outstanding _ inside)
    | close => exact .closeUpdate

end

/-! ## Runs -/

/-- All outstanding journals are about the identity. -/
def Store.OwesOnly (s : Store) (id : String) : Prop :=
  (∀ j ∈ s.transactions.entries, j.identityId = id) ∧ ∀ j ∈ s.updateTransactions.entries, j.identityId = id

/-- The call introduces the identity, deletes it, recovers it or only opens one. -/
def StoreCall.On (s : Store) (entropy : Entropy) (id : String) : StoreCall → Prop
  | .createIdentity _ | .prepareEnrollment _ | .prepareRequestSigningEnrollment _ | .importIdentity _
  | .importDeviceIdentity _ | .importRequestSigningIdentity _ => entropy.identityId = id
  | .discardUnpublishedEnrollment did _ _ | .deleteIdentityNamespace did _
  | .deleteIdentityNamespaceDiscardingPending did _ => ∀ entry ∈ s.registry.identities did, entry.identityId = id
  | .openIdentity _ => True
  | .reload => s.OwesOnly id

/-- The event is an operation on the identity; a recovery is one if it finds only journals of the identity. -/
def Event.On (id : String) (w : World) : Event → Prop
  | .openStore _ => w.store.OwesOnly id
  | .store _ call entropy _ => call.On w.store entropy id
  | .identity handle call _ _ => (∀ self ∈ w.identities[handle]?, self.identityId = id) ∧ (call = .reload → w.store.OwesOnly id)
  | .identityTransitions _ => True

instance (s : Store) (id : String) : Decidable (s.OwesOnly id) := inferInstanceAs (Decidable (_ ∧ _))

instance (s : Store) (entropy : Entropy) (id : String) (call : StoreCall) : Decidable (call.On s entropy id) := by
  cases call <;> unfold StoreCall.On <;> infer_instance

instance (id : String) (w : World) : ∀ event : Event, Decidable (event.On id w)
  | .openStore _ => inferInstanceAs (Decidable (w.store.OwesOnly id))
  | .store _ call entropy _ => inferInstanceAs (Decidable (call.On w.store entropy id))
  | .identity .. => inferInstanceAs (Decidable (_ ∧ _))
  | .identityTransitions _ => isTrue trivial

/-- What the writes of an event are confined to rests on. -/
structure World.Orderly (anp : Anp) (w : World) : Prop where
  sound : w.Sound anp
  accounted : w.Accounted
  pending : ∀ id file, w.store.identities id = some file → file.Pending OwnsRefs
  owned : w.store.Owned

/-- The identity that a write of an event is about. -/
inductive Event.Addresses (anp : Anp) (w : World) (event : Event) (s : Store) (id : String) : Prop
  | recovered (recovers : event.Recovers) (owes : s.Owes id)
  | brought {entropy : Entropy} {self : DidStore} {call : StoreCall} {action : StoreAction}
      (brings : event.Brings anp w entropy self call action) (is : action.target entropy = id)
  | began {entropy : Entropy} {self : DidIdentity} {call : IdentityCall} {action : IdentityAction}
      (begins : event.Begins anp w entropy self call action) (is : self.identityId = id)

section
variable {anp : Anp} {w : World} {event : Event} {s : Store} {v : Write} {id other : String}

/-- Every write of an event is confined to one identity. -/
theorem Event.Permits.confined (permits : event.Permits anp w s v)
    (pending : ∀ id file, w.store.identities id = some file → file.Pending OwnsRefs) (accounted : s.Accounted) (owned : s.Owned) :
    ∃ id, event.Addresses anp w s id ∧ Confined id s v := by
  cases permits with
  | recovery recovers step =>
    obtain ⟨id, owes, confined⟩ := step.confined accounted owned
    exact ⟨id, .recovered recovers owes, confined⟩
  | store is held started step => exact ⟨_, .brought (.call is held started) rfl, step.confined started⟩
  | identity is held started step =>
    obtain ⟨current, justified⟩ := started.started
    obtain ⟨file, found, -, completed⟩ := readIdentity_ok.mp current.read
    refine ⟨_, .began (.call is held started) (readIdentity_named current.read).symm, step.confined justified ?_⟩
    exact (pending _ file found).completed completed

private theorem StoreCall.On.target {self : DidStore} {call : StoreCall} {entropy : Entropy} {action : StoreAction}
    (on : call.On s entropy id) (started : call.Starts anp s self entropy action) : action.target entropy = id := by
  have deleted : ∀ {did record}, (∀ entry ∈ s.registry.identities did, entry.identityId = id) →
      Deletes anp s self did record → record.identityId = id := by
    intro did record on deletes
    obtain ⟨summary, listed, read⟩ := deletes.registered
    exact (readIdentity_named read).trans (on summary listed)
  cases call with
  | discardUnpublishedEnrollment did identityId generation
  | deleteIdentityNamespace did generation
  | deleteIdentityNamespaceDiscardingPending did generation =>
    obtain ⟨record, deletes, rfl⟩ := started
    exact deleted on deletes
  | createIdentity spec =>
    obtain ⟨_, -, -, -, rfl⟩ := started
    exact on
  | prepareEnrollment spec =>
    obtain ⟨_, _, _, -, -, -, -, -, -, -, -, rfl⟩ := started
    exact on
  | prepareRequestSigningEnrollment spec =>
    obtain ⟨_, _, -, -, -, -, -, rfl⟩ := started
    exact on
  | importIdentity spec =>
    obtain ⟨_, _, -, -, -, rfl⟩ := started
    exact on
  | importDeviceIdentity spec =>
    obtain ⟨_, _, _, -, -, -, -, rfl⟩ := started
    exact on
  | importRequestSigningIdentity spec =>
    obtain ⟨_, _, _, _, -, -, -, -, -, rfl⟩ := started
    exact on
  | openIdentity did | reload => exact started.elim

private theorem Event.On.owesOnly (on : event.On id w) (recovers : event.Recovers) : w.store.OwesOnly id := by
  cases event with
  | openStore fault => exact on
  | store handle call entropy fault =>
    cases call with
    | reload => exact on
    | _ => exact recovers.elim
  | identity handle call entropy fault =>
    cases call with
    | reload => exact on.2 rfl
    | _ => exact recovers.elim
  | identityTransitions journals => exact recovers.elim

/-- An operation on an identity writes about no other. -/
private theorem Event.On.addresses (on : event.On id w) (addresses : event.Addresses anp w s other)
    (owes : event.Recovers → ∀ owing, s.Owes owing → owing = id) : other = id := by
  cases addresses with
  | recovered recovers owing => exact owes recovers other owing
  | brought brings is =>
    obtain ⟨rfl, -, started⟩ := brings
    exact is.symm.trans (StoreCall.On.target on started)
  | began begins is =>
    obtain ⟨rfl, held, -⟩ := begins
    exact is.symm.trans (on.1 _ held)

theorem Event.On.sameFor (on : event.On id w) (orderly : w.Orderly anp) (fresh : event.Fresh w) (apart : other ≠ id) :
    w.store.SameFor other (w.step anp event).store := by
  have traced : Traced (event.Permits anp w) w.store (event.writes anp w) := event.traced
  have after := traced.invariant
    (I := fun s => s.Accounted ∧ s.Owned ∧ w.store.SameFor other s ∧ (event.Recovers → ∀ owing, s.Owes owing → owing = id))
    (fun s v now permits => by
      obtain ⟨accounted, owned, same, owes⟩ := now
      obtain ⟨about, addresses, confined⟩ := permits.confined orderly.pending accounted owned
      obtain rfl : about = id := on.addresses addresses owes
      refine ⟨accounted.step (permits.bookkeeping fresh orderly.sound orderly.accounted accounted), confined.owned owned,
        same.trans (confined.sameFor apart), fun recovers owing open' => ?_⟩
      by_contra foreign
      have elsewhere : v.subject ≠ some owing := by
        intro subject
        refine foreign (confined.owner owing ?_)
        cases v <;> first | exact subject | cases subject
      exact foreign (owes recovers owing ((Write.elsewhere elsewhere).2 open')))
    ⟨orderly.accounted.store, orderly.owned, .refl _, fun recovers owing open' => ?_⟩
  · obtain ⟨transitions, same⟩ := (World.steps event : w.Steps anp event (w.step anp event)).store
    rw [same]
    exact ⟨after.2.2.1.file, after.2.2.1.entry, after.2.2.1.secrets⟩
  · obtain ⟨transactions, updates⟩ := on.owesOnly recovers
    rcases open' with ⟨j, outstanding, rfl⟩ | ⟨j, outstanding, rfl⟩
    · exact transactions j outstanding
    · exact updates j outstanding

theorem World.Orderly.owned_step (orderly : w.Orderly anp) (fresh : event.Fresh w) : (w.step anp event).store.Owned := by
  have traced : Traced (event.Permits anp w) w.store (event.writes anp w) := event.traced
  have after := traced.invariant (I := fun s => s.Accounted ∧ s.Owned)
    (fun s v now permits => by
      obtain ⟨accounted, owned⟩ := now
      obtain ⟨about, -, confined⟩ := permits.confined orderly.pending accounted owned
      exact ⟨accounted.step (permits.bookkeeping fresh orderly.sound orderly.accounted accounted), confined.owned owned⟩)
    ⟨orderly.accounted.store, orderly.owned⟩
  obtain ⟨transitions, same⟩ := (World.steps event : w.Steps anp event (w.step anp event)).store
  rw [same]
  exact ⟨after.2.transactions, after.2.updates⟩

theorem World.orderly_run {condition : World → Event → Prop} {events : List Event}
    (meets : World.initial.Meets anp condition events) : (World.initial.run anp events).Orderly anp := by
  induction events using List.reverseRecOn with
  | nil =>
    exact ⟨World.sound_run meets, World.accounted_run meets, fun _ _ => inheres_ownsRefs.run meets,
      fun _ outstanding => (nomatch outstanding), fun _ outstanding => (nomatch outstanding)⟩
  | append_singleton events event ih =>
    obtain ⟨before, fresh, -⟩ := World.meets_append.mp meets
    refine ⟨World.sound_run meets, World.accounted_run meets, fun _ _ => inheres_ownsRefs.run meets, ?_⟩
    rw [World.run_snoc]
    exact (ih before).owned_step fresh

theorem identities_isolated {events operations : List Event} {a b : String} (apart : a ≠ b)
    (meets : World.initial.Meets anp (fun _ _ => True) events)
    (on : (World.initial.run anp events).Meets anp (fun w event => event.On a w) operations) :
    (World.initial.run anp events).store.SameFor b ((World.initial.run anp events).run anp operations).store := by
  induction operations using List.reverseRecOn with
  | nil => exact .refl _
  | append_singleton operations event ih =>
    obtain ⟨before, fresh, now, -⟩ := World.meets_append.mp on
    have reached : World.initial.Meets anp (fun _ _ => True) (events ++ operations) :=
      World.meets_append.mpr ⟨meets, before.mono (fun _ _ _ => trivial)⟩
    have orderly : ((World.initial.run anp events).run anp operations).Orderly anp := by
      have run : World.initial.run anp (events ++ operations) = (World.initial.run anp events).run anp operations :=
        List.foldl_append ..
      rw [← run]
      exact World.orderly_run reached
    rw [World.run_snoc]
    exact (ih before).trans (now.sameFor orderly fresh apart.symm)

namespace Plain

/-- The creation of one identity stops after its file was written, and another is enrolled for the same DID and kid. -/
def succeeded : List Event :=
  [.openStore none, .store 0 (.createIdentity webSpec) (entropy "0" 1) (some 3),
    .store 0 (.prepareRequestSigningEnrollment requestEnrollment) (entropy "1" 5) none]

def requestRef (id : String) : SecretRef := { identityId := id, keyId := "did:web:a.b#k", role := .requestSigning, version := 1 }

end Plain

/-- Recovery undoes the creation and leaves the identity that has its DID. -/
theorem identities_isolated_successor :
    (((World.initial.run Plain.anp Plain.succeeded).store.secrets (Plain.requestRef "i0")).isSome = true ∧
      ((World.initial.run Plain.anp Plain.succeeded).store.secrets (Plain.requestRef "i1")).isSome = true ∧
      ((World.initial.run Plain.anp Plain.succeeded).run Plain.anp [.openStore none]).store.secrets (Plain.requestRef "i0") = none) ∧
      (World.initial.run Plain.anp Plain.succeeded).store.SameFor "i1"
        ((World.initial.run Plain.anp Plain.succeeded).run Plain.anp [.openStore none]).store := by
  have meets : World.initial.Meets Plain.anp (fun _ _ => True) Plain.succeeded := by decide +kernel
  have on : (World.initial.run Plain.anp Plain.succeeded).Meets Plain.anp (fun w event => event.On "i0" w) [.openStore none] := by
    decide +kernel
  exact ⟨by decide +kernel, identities_isolated (by decide) meets on⟩

end
end AnpIdentity
