import AnpIdentity.Handles

/-! Whom a write is about. An event writes the files and journals of the identity that it is called on, of one that it
introduces or deletes, or of one whose journals it recovers; and the registry names identities by their DIDs. -/

namespace AnpIdentity
open Durable Program
variable (anp : Anp)

/-- The identity whose file or journal is written. -/
def Write.subject : Write → Option String
  | .identity record => some record.identityId
  | .removeIdentity id => some id
  | .journal j => some j.identityId
  | .updateJournal j => some j.identityId
  | _ => none

/-- A journal of the identity is outstanding. -/
def Store.Owes (s : Store) (id : String) : Prop :=
  (∃ j ∈ s.transactions, j.identityId = id) ∨ ∃ j ∈ s.updateTransactions, j.identityId = id

instance (s : Store) (id : String) : Decidable (s.Owes id) :=
  inferInstanceAs (Decidable ((∃ j ∈ s.transactions.entries, _) ∨ ∃ j ∈ s.updateTransactions.entries, _))

/-- The identities that an event may write about. -/
inductive Event.Concerns (w : World) (event : Event) (s : Store) (id : String) : Prop
  | recovered (recovers : event.Recovers) (owes : s.Owes id)
  | introduced (drawn : id ∈ event.ids)
  | deleted {entropy : Entropy} {self : DidStore} {call : StoreCall} {did : String} {record : IdentityRecord}
      (brought : event.Brings anp w entropy self call (.delete did record)) (is : record.identityId = id)
  | acted {entropy : Entropy} {self : DidIdentity} {call : IdentityCall} {action : IdentityAction}
      (began : event.Begins anp w entropy self call action) (is : self.identityId = id)

section
variable {anp} {w : World} {event : Event} {s start : Store} {v : Write} {id : String} {entropy : Entropy}

private theorem RegisterStep.subject {next : IdentityRecord} (step : RegisterStep entropy start next s v)
    (about : v.subject = some id) : id = next.identityId := by
  cases step with
  | store => exact (Option.some.inj about).symm
  | refresh | close => cases about

variable {action : IdentityAction} {registry : IdentityRegistry}

private theorem IdentityStep.subject (step : IdentityStep anp entropy start action s v)
    (kept : ∀ record, action.Stores anp entropy record → record.identityId = action.seen.identityId)
    (about : v.subject = some id) : id = action.seen.identityId := by
  cases step with
  | prepare step =>
    cases step with
    | announce | store => exact (Option.some.inj about).symm
    | keep | close => cases about
  | discard step =>
    cases step with
    | announce | store => exact (Option.some.inj about).symm
    | erase | close => cases about
  | @edit _ _ next _ _ step =>
    rw [← kept next rfl]
    cases step with
    | plain | announce => exact (Option.some.inj about).symm
    | register _ step => exact step.subject about
  | @importRoot _ _ _ next _ _ step =>
    rw [← kept next rfl]
    cases step with
    | announce => exact (Option.some.inj about).symm
    | keep => cases about
    | register _ _ step => exact step.subject about

private theorem IntroduceStep.subject {journal : CreationJournal} {keys : List SealedKey}
    {record : DidResult IdentityRecord} (step : IntroduceStep anp start journal keys record s v)
    (about : v.subject = some id) : id = journal.identityId ∨ ∃ made, record = .ok made ∧ id = made.identityId := by
  cases step with
  | announce => exact .inl (Option.some.inj about).symm
  | keep => cases about
  | store _ _ built => exact .inr ⟨_, built, (Option.some.inj about).symm⟩

/-- A write of an action on a store is about the new identity or about the one that it deletes. -/
private theorem StoreStep.subject {action : StoreAction} (step : StoreStep anp entropy start action s v)
    (about : v.subject = some id) : id = entropy.identityId ∨ (∃ made, action.Makes anp entropy made ∧ id = made.identityId) ∨
      ∃ did record, action = .delete did record ∧ record.identityId = id := by
  cases step with
  | introduce step | create step => exact (step.subject about).imp_right .inl
  | activate ready => exact .inr (.inl ⟨_, ready.built, (Option.some.inj about).symm⟩)
  | delete step =>
    refine .inr (.inr ⟨_, _, rfl, ?_⟩)
    cases step with
    | announce | remove => exact Option.some.inj about
    | erase | delist | close => cases about
  | enlist | close | enlistCreated | closeCreated => cases about

private theorem RecoveryStep.subject (step : RecoveryStep anp s v) (about : v.subject = some id) : s.Owes id := by
  cases step with
  | @creation j outstanding step =>
    refine .inl ⟨j, outstanding, ?_⟩
    cases step with
    | activate journalled => exact (readIdentity_named journalled.read).symm.trans (Option.some.inj about)
    | removeDeleted | removeCreated => exact Option.some.inj about
    | _ => cases about
  | @update j outstanding step =>
    refine .inr ⟨j, outstanding, ?_⟩
    cases step with
    | clear read => exact (readIdentity_named read).symm.trans (Option.some.inj about)
    | _ => cases about

theorem Event.Permits.concerns (permits : event.Permits anp w s v) (about : v.subject = some id) :
    event.Concerns anp w s id := by
  cases permits with
  | recovery recovers step => exact .recovered recovers (step.subject about)
  | store is held started step =>
    rcases step.subject about with rfl | ⟨made, makes, rfl⟩ | ⟨did, record, rfl, same⟩
    · exact .introduced (by rw [is]; exact List.mem_cons_self)
    · have brought : event.Brings anp w _ _ _ _ := .call is held started
      exact .introduced (brought.drawn makes)
    · exact .deleted (.call is held started) same
  | identity is held started step =>
    obtain ⟨current, justified⟩ := started.started
    have same := step.subject (fun record stores => (justified.keeping stores).identityId) about
    exact .acted (.call is held started) (by rw [same]; exact (readIdentity_named current.read).symm)

/-- A write about another identity leaves the file of this one, and opens no journal of it. -/
theorem Write.elsewhere (about : v.subject ≠ some id) :
    (Medium.apply s v).identities id = s.identities id ∧ ((Medium.apply s v).Owes id → s.Owes id) := by
  have others : ∀ {α : Type} {key : α → String} {d : Directory key} {j : α} {P : α → Prop}, ¬ P j →
      (∃ k ∈ d.insert j, P k) → ∃ k ∈ d, P k := by
    rintro α key d j P other ⟨k, listed, holds⟩
    rcases Directory.mem_insert.mp listed with rfl | ⟨listed, -⟩
    · exact absurd holds other
    · exact ⟨k, listed, holds⟩
  have fewer : ∀ {α : Type} {key : α → String} {d : Directory key} {name : String} {P : α → Prop},
      (∃ k ∈ d.erase name, P k) → ∃ k ∈ d, P k := by
    rintro α key d name P ⟨k, listed, holds⟩
    exact ⟨k, (Directory.mem_erase.mp listed).1, holds⟩
  have apart : ∀ other, v.subject = some other → other ≠ id := by
    rintro other is rfl
    exact about is
  cases v with
  | identity record => exact ⟨identities_put_ne s (apart _ rfl).symm, fun owes => owes⟩
  | removeIdentity gone => exact ⟨identities_remove_ne s (apart _ rfl).symm, fun owes => owes⟩
  | journal j => exact ⟨rfl, fun owes => owes.imp_left (others (apart _ rfl))⟩
  | updateJournal j => exact ⟨rfl, fun owes => owes.imp_right (others (apart _ rfl))⟩
  | removeJournal name => exact ⟨rfl, fun owes => owes.imp_left fewer⟩
  | removeUpdateJournal name => exact ⟨rfl, fun owes => owes.imp_right fewer⟩
  | _ => exact ⟨rfl, fun owes => owes⟩

/-- An event that concerns an identity only to recover it leaves one that has no outstanding journal. -/
theorem World.spared_step (spared : ∀ s, event.Concerns anp w s id → s.Owes id) (settled : ¬ w.store.Owes id) :
    (w.step anp event).store.identities id = w.store.identities id ∧ ¬ (w.step anp event).store.Owes id := by
  have traced : Traced (event.Permits anp w) w.store (event.writes anp w) := event.traced
  have after := traced.invariant (I := fun s => s.identities id = w.store.identities id ∧ ¬ s.Owes id)
    (fun s v now permits => by
      have other : v.subject ≠ some id := fun about => now.2 (spared s (permits.concerns about))
      obtain ⟨file, owes⟩ := Write.elsewhere (s := s) other
      exact ⟨file.trans now.1, fun open' => now.2 (owes open')⟩) ⟨rfl, settled⟩
  obtain ⟨journals, same⟩ := (World.steps event : w.Steps anp event (w.step anp event)).store
  rw [same]
  exact after

/-! ## The registry -/

/-- The registry names identities that were drawn, by their DIDs. -/
structure Store.Registers (known : String → Prop) (s : Store) : Prop where
  known : ∀ did summary, s.registry.identities did = some summary → known summary.identityId
  named : ∀ did summary file, s.registry.identities did = some summary → s.identities summary.identityId = some file →
    file.did = did

/-- The registry gets an entry for a file that has the DID, or loses one. -/
inductive RegistryEntry (s : Store) : IdentityRegistry → Prop
  | put {registry : IdentityRegistry} {did : String} {summary : IdentitySummary} {file : IdentityRecord}
      (entered : s.registry.put did summary = .ok registry) (found : s.identities summary.identityId = some file)
      (named : file.did = did) : RegistryEntry s registry
  | drop {registry : IdentityRegistry} {did : String} (left : s.registry.drop did = .ok registry) : RegistryEntry s registry

theorem Store.Registers.entry {known : String → Prop} (registers : s.Registers known) (filed : s.Filed known)
    (entry : RegistryEntry s registry) : (Medium.apply s (.registry registry)).Registers known := by
  cases entry with
  | @put did summary file entered found named =>
    refine ⟨fun other entry listed => ?_, fun other entry file' listed found' => ?_⟩
    all_goals obtain ⟨rfl, rfl⟩ | ⟨-, listed⟩ := IdentityRegistry.put_listed entered listed
    · exact filed.drawn _ _ found
    · exact registers.known _ _ listed
    · exact (congrArg _ (Option.some.inj (found'.symm.trans found))).trans named
    · exact registers.named _ _ _ listed found'
  | @drop did left =>
    exact ⟨fun other entry listed => registers.known _ _ (IdentityRegistry.drop_listed left listed).2,
      fun other entry file listed found => registers.named _ _ _ (IdentityRegistry.drop_listed left listed).2 found⟩

private theorem RegisterStep.entry {next : IdentityRecord} (step : RegisterStep entropy start next s (.registry registry)) :
    RegistryEntry s registry := by
  cases step with
  | refresh named entered => exact .put entered (Function.update_self ..) rfl

private theorem IdentityStep.entry (step : IdentityStep anp entropy start action s (.registry registry)) :
    RegistryEntry s registry := by
  cases step with
  | prepare step | discard step => cases step
  | edit step =>
    cases step with
    | register _ step => exact step.entry
  | importRoot step =>
    cases step with
    | register _ _ step => exact step.entry

private theorem StoreStep.entry {action : StoreAction} (step : StoreStep anp entropy start action s (.registry registry))
    (named : ∀ made, action.Makes anp entropy made → made.did = action.did) : RegistryEntry s registry := by
  cases step with
  | introduce step | create step => cases step
  | enlist ready entered | enlistCreated ready entered => exact .put entered (Function.update_self ..) (named _ ready.built)
  | delete step =>
    cases step with
    | delist _ _ left => exact .drop left

private theorem RecoveryStep.entry (step : RecoveryStep anp s (.registry registry)) : RegistryEntry s registry := by
  cases step with
  | creation outstanding step =>
    cases step with
    | @refresh record _ journalled _ entered =>
      obtain ⟨file, found, -, completed⟩ := readIdentity_ok.mp journalled.read
      have mirrors := Shown.mirrors (.inr completed : Shown anp file record)
      refine .put entered ?_ (mirrors.did.symm.trans journalled.did)
      rw [show record.summary.identityId = record.identityId from rfl, readIdentity_named journalled.read]
      exact found
    | delist _ _ _ _ left => exact .drop left
  | update outstanding step => cases step

theorem Event.Permits.entry (permits : event.Permits anp w s (.registry registry)) : RegistryEntry s registry := by
  cases permits with
  | recovery _ step => exact step.entry
  | store _ _ started step => exact step.entry (fun _ makes => (started.isNew makes).did)
  | identity _ _ _ step => exact step.entry

/-- A file is replaced by a record for the same DID. -/
theorem Rewrite.did {file record : IdentityRecord} (rewrites : Rewrite anp w event s file record) : record.did = file.did := by
  have kept : ∀ {seen}, completeRecord anp file = .ok seen → seen.did = file.did := fun completed =>
    (Shown.mirrors (.inr completed : Shown anp file _)).did
  cases rewrites with
  | activate shown _ => exact (Shown.mirrors (shown : Shown anp file _)).did
  | act began completed stores _ =>
    obtain ⟨-, -, started⟩ := began
    exact (started.started.2.keeping stores).did.trans (kept completed)
  | @clear _ seen _ _ completed =>
    change seen.did = file.did
    exact kept completed

/-- The registry of a world names identities of its run by their DIDs. -/
def World.Registers (w : World) : Prop := w.store.Registers (· ∈ w.issued)

private theorem Event.Permits.registers (permits : event.Permits anp w s v) (fresh : event.Fresh w) (before : w.Registers)
    (filed : s.Filed (fun id => id ∈ event.ids ∨ id ∈ w.issued))
    (registers : s.Registers (fun id => id ∈ event.ids ∨ id ∈ w.issued)) :
    (Medium.apply s v).Registers (fun id => id ∈ event.ids ∨ id ∈ w.issued) := by
  by_cases enters : ∃ registry, v = .registry registry
  · obtain ⟨registry, rfl⟩ := enters
    exact registers.entry filed permits.entry
  · have same : (Medium.apply s v).registry = s.registry := by
      cases v with
      | registry registry => exact absurd ⟨registry, rfl⟩ enters
      | _ => rfl
    refine ⟨by rw [same]; exact registers.known, ?_⟩
    rw [same]
    intro did summary file listed found
    have move : FileMove anp w event s v := permits.fileMove
    cases move with
    | elsewhere kept =>
      rw [kept] at found
      exact registers.named _ _ _ listed found
    | @introduce entropy self call action made brought makes _ unregistered =>
      by_cases new : summary.identityId = made.identityId
      · -- the registry cannot name an identity before its file is there
        rw [unregistered] at listed
        exact absurd (before.known _ _ listed) (fresh.2 _ (new ▸ brought.drawn makes))
      · rw [identities_put_ne s new] at found
        exact registers.named _ _ _ listed found
    | @rewrite old record there rewrites =>
      by_cases same : summary.identityId = record.identityId
      · rw [same, identities_put_self, Option.some.injEq] at found
        rw [← found, rewrites.did]
        exact registers.named _ _ _ listed (same ▸ there)
      · rw [identities_put_ne s same] at found
        exact registers.named _ _ _ listed found
    | @remove gone settled =>
      by_cases same : summary.identityId = gone
      · rw [same, identities_remove_self] at found
        cases found
      · rw [identities_remove_ne s same] at found
        exact registers.named _ _ _ listed found

theorem World.Registers.step (registers : w.Registers) (filed : w.Filed) (fresh : event.Fresh w) :
    (w.step anp event).Registers := by
  have steps : w.Steps anp event (w.step anp event) := World.steps event
  by_cases wrote : event.writes anp w = []
  · have files : (w.step anp event).store.identities = w.store.identities := by rw [World.identities_step, wrote]; rfl
    have registry : (w.step anp event).store.registry = w.store.registry := by rw [World.registry_step, wrote]; rfl
    refine ⟨?_, ?_⟩
    · rw [registry]
      exact fun did summary listed => steps.kept _ (registers.known did summary listed)
    · rw [registry, files]
      exact registers.named
  · have traced : Traced (event.Permits anp w) w.store (event.writes anp w) := event.traced
    have known : ∀ id, id ∈ event.ids ∨ id ∈ w.issued → id ∈ (w.step anp event).issued := fun id drawn =>
      drawn.elim (steps.drawn wrote id) (steps.kept id)
    have after := traced.invariant
      (I := fun s => s.Filed (fun id => id ∈ event.ids ∨ id ∈ w.issued) ∧ s.Registers (fun id => id ∈ event.ids ∨ id ∈ w.issued))
      (fun _ _ now permits => ⟨permits.fileMove.filed now.1 (fun _ listed => .inl listed),
        permits.registers fresh registers now.1 now.2⟩)
      ⟨⟨filed.named, fun id file found => .inr (filed.drawn id file found)⟩,
        ⟨fun did summary listed => .inr (registers.known did summary listed), registers.named⟩⟩
    refine ⟨?_, ?_⟩
    · rw [World.registry_step]
      exact fun did summary listed => known _ (after.2.known did summary listed)
    · rw [World.registry_step, World.identities_step]
      exact after.2.named

end
end AnpIdentity
