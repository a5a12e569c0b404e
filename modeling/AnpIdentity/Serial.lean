import AnpIdentity.History

/-! Calls on a store exclude each other through two counters: the generation of an identity record and the
generation of the registry. -/

namespace AnpIdentity
open Durable Program
variable (anp : Anp) (w : World)

/-- The record that a call stores: it was made from the record in the file, which the handle shows, and it has
the next generation. -/
structure Replacement (shown : DidIdentity) (call : IdentityCall) (entropy : Entropy) (record : IdentityRecord) : Prop where
  made : ∃ action next, call.Starts anp w.store shown entropy action ∧ action.Stores anp entropy next ∧
    record = next.raised ∧ w.store.readIdentity anp shown.identityId = .ok action.seen
  replaces : ∃ file, w.store.identities shown.identityId = some file ∧ file.generation = shown.record.generation ∧
    record.identityId = shown.identityId ∧ record.generation = file.generation + 1

/-- A handle of a Web identity is told that the remote document is the one that it shows. -/
def ObservesOldWeb (shown : DidIdentity) (observed : Value) : Prop :=
  DidProfile.forDid anp shown.did = .ok .web ∧
    ∃ digest, canonicalDigest anp observed = .ok digest ∧ canonicalDigest anp shown.record.document = .ok digest

/-- What the two counters guarantee in a world, whatever happens later. -/
structure NoLostUpdates : Prop where
  /-- A call that stores a record replaces the one that it read. -/
  replaces : ∀ (handle : Nat) self call entropy fault record, w.identities[handle]? = some self → call ≠ .reload →
    .identity record ∈ (Event.identity handle call entropy fault).writes anp w → Replacement anp w self call entropy record
  /-- Once a call has stored a record, a call on a handle of the same generation writes nothing and fails. Only
  the observation of an unchanged Web document, which changes nothing in any store, answers without an error. -/
  excludes : ∀ (handle : Nat) self call entropy fault record later, w.identities[handle]? = some self → call ≠ .reload →
    .identity record ∈ (Event.identity handle call entropy fault).writes anp w →
    w.Meets anp (fun _ _ => True) (.identity handle call entropy fault :: later) →
    let after := w.run anp (.identity handle call entropy fault :: later)
    ∀ other call' entropy', other.identityId = self.identityId →
      other.record.generation = self.record.generation → call' ≠ .reload →
      (IdentityCall.run anp other entropy' call').writes after.store = [] ∧
        ((∃ e, (IdentityCall.run anp other entropy' call').result after.store = .error e) ∨
          ∃ revisionId observed, call' = .reconcileUpdate revisionId observed ∧ ObservesOldWeb anp other observed)
  /-- Once a call on a store has written the registry, a call on a handle of the same generation does not. -/
  registers : ∀ (handle : Nat) self call entropy fault registry later, w.stores[handle]? = some self → call ≠ .reload →
    .registry registry ∈ (Event.store handle call entropy fault).writes anp w →
    w.Meets anp (fun _ _ => True) (.store handle call entropy fault :: later) →
    let after := w.run anp (.store handle call entropy fault :: later)
    ∀ other call' entropy' registry', other.registryGeneration = self.registryGeneration → call' ≠ .reload →
      .registry registry' ∉ (StoreCall.run anp other entropy' call').writes after.store
  /-- A write of the registry keeps the entries of all other DIDs. -/
  keeps : ∀ event : Event, Traced RegistryMove w.store (event.writes anp w)

section
variable {anp w} {self : DidIdentity} {call : IdentityCall} {entropy : Entropy} {handle : Nat} {fault : Option Nat}

variable {s : Store} {record : IdentityRecord}

theorem mem_performed {α : Type} {p : Tx α} {v : Write} (written : v ∈ performed p fault s) : v ∈ p.writes s := by
  cases fault with
  | none => exact written
  | some n => exact List.mem_of_mem_take written

theorem Current.stored {seen : IdentityRecord} (current : Current anp s self seen) :
    ∃ file, s.identities self.identityId = some file ∧ file.generation = self.record.generation ∧
      completeRecord anp file = .ok seen := by
  obtain ⟨file, found, -, completed⟩ := readIdentity_ok.mp current.read
  obtain ⟨_, _, _, same⟩ := completeRecord_same completed
  exact ⟨file, found, by rw [← current.generation, same], completed⟩

private theorem call_replaces (calls : call ≠ .reload)
    (written : .identity record ∈ (call.run anp self entropy).writes w.store) : Replacement anp w self call entropy record := by
  have follows : Follows _ (call.run anp self entropy) _ w.store := IdentityCall.follows_action calls
  obtain ⟨t, action, started, step⟩ := follows.traced.of_mem written
  rcases step.identity with kept | ⟨next, same, stores, -⟩
  · exact absurd rfl (stores_nothing kept)
  · cases same
    obtain ⟨current, justified⟩ := started.started
    obtain ⟨file, found, generation, completed⟩ := current.stored
    have keeping := justified.keeping stores
    refine ⟨⟨action, next, started, stores, rfl, current.read⟩, file, found, generation, ?_, ?_⟩
    · exact keeping.identityId.trans (readIdentity_named current.read)
    · rw [IdentityRecord.raised_generation, keeping.generation, current.generation, generation]

/-- A record that was stored is the least age that its file has from then on. -/
theorem Traced.age_stored {event : Event} {ws : List Write} (traced : Traced (FileMove anp w event) s ws)
    (old : record.identityId ∉ event.ids) (written : Write.identity record ∈ ws) :
    (record.generation : WithTop ℕ) ≤ (applyAll s ws).age record.identityId := by
  induction ws generalizing s with
  | nil => cases written
  | cons v rest ih =>
    rcases List.mem_cons.mp written with rfl | later
    · rw [applyAll_cons, ← Store.age_some (identities_put_self s record)]
      exact Traced.age_le traced.2 old
    · exact ih traced.2 later

/-- A call on a handle that is older than the file writes nothing and fails. -/
theorem stale_call (stale : (self.record.generation : WithTop ℕ) < s.age self.identityId) (calls : call ≠ .reload) :
    (call.run anp self entropy).writes s = [] ∧ ((∃ e, (call.run anp self entropy).result s = .error e) ∨
      ∃ revisionId observed, call = .reconcileUpdate revisionId observed ∧ ObservesOldWeb anp self observed) := by
  have apart : ∀ seen, ¬ Current anp s self seen := by
    intro seen current
    obtain ⟨file, found, generation, -⟩ := current.stored
    rw [Store.age_some found, generation] at stale
    exact lt_irrefl _ stale
  have acts : Acts anp (call.Starts anp s self entropy) (call.Rests anp s self) entropy self (call.run anp self entropy) s :=
    identityCall_acts call calls
  cases acts with
  | refused e run => exact ⟨by rw [Program.writes, run], .inl ⟨e, by rw [Program.result, run]⟩⟩
  | idle rests run =>
    refine ⟨by rw [Program.writes, run], .inr ?_⟩
    cases call with
    | reconcileUpdate revisionId observed => exact ⟨revisionId, observed, rfl, rests.1, rests.2.2⟩
    | adoptVerifiedDocument spec | adoptVerifiedSiblingDocument spec | confirmRootPromotion spec =>
      exact absurd rests.choose_spec (apart _)
    | importWrappedRoot envelope now | importLegacyRootTransfer spec =>
      obtain ⟨_, _, -, seen, _, _, current, -⟩ := rests
      exact absurd current (apart _)
    | _ => exact rests.elim
  | acts action started run => exact absurd started.started.1 (apart _)

/-- An action on a store is started on a registry that the handle has seen. -/
theorem StoreCall.Starts.generation {self : DidStore} {call : StoreCall} {action : StoreAction}
    (started : call.Starts anp s self entropy action) : s.registry.generation = self.registryGeneration := by
  cases started.planned with
  | introduce registrable | create registrable => exact registrable.generation
  | delete deletes => exact deletes.generation

private theorem storeCall_generation {self : DidStore} {call : StoreCall} {v : Write} (calls : call ≠ .reload)
    (written : v ∈ (call.run anp self entropy).writes s) : s.registry.generation = self.registryGeneration := by
  have follows : Follows _ (call.run anp self entropy) _ s := StoreCall.follows_action calls
  obtain ⟨t, action, started, -⟩ := follows.traced.of_mem written
  exact started.generation

end

/-- In every world that a run reaches, no update is lost. -/
theorem no_lost_updates {anp : Anp} {events : List Event} (fresh : World.initial.Meets anp (fun _ _ => True) events) :
    NoLostUpdates anp (World.initial.run anp events) := by
  have filed := World.filed_run fresh
  generalize World.initial.run anp events = w at filed
  refine ⟨?_, ?_, ?_, fun event => event.registryMoves⟩
  · intro handle self call entropy fault record held calls written
    rw [Event.writes_identity held] at written
    exact call_replaces calls (mem_performed written)
  · intro handle self call entropy fault record later held calls written meets after other call' entropy' same generation calls'
    have replaced : Replacement anp w self call entropy record := by
      rw [Event.writes_identity held] at written
      exact call_replaces calls (mem_performed written)
    obtain ⟨file, found, shown, named, next⟩ := replaced.replaces
    have known : self.identityId ∈ w.issued := filed.drawn _ _ found
    have old : self.identityId ∉ (Event.identity handle call entropy fault).ids := fun listed => meets.1.2 _ listed known
    -- the file is older than the handle from the moment that the record is stored
    have stored : (record.generation : WithTop ℕ) ≤ after.store.age self.identityId := by
      have grown : (w.step anp (.identity handle call entropy fault)).store.age self.identityId ≤
          after.store.age self.identityId := World.age_le ((World.steps _).kept _ known) meets.2.2
      refine le_trans ?_ grown
      rw [World.age_step, ← named]
      exact Traced.age_stored (Event.fileMoves _) (named ▸ old) written
    refine stale_call ?_ calls'
    rw [same, generation]
    refine lt_of_lt_of_le ?_ stored
    rw [next, shown]
    exact_mod_cast Nat.lt_succ_self _
  · intro handle self call entropy fault registry later held calls written meets after other call' entropy' registry' same calls'
      again
    have before : w.store.registry.generation = self.registryGeneration := by
      have written := written
      rw [Event.writes_store held] at written
      exact storeCall_generation calls (mem_performed written)
    have raised := Traced.registry_lt (Event.registryMoves _) written
    rw [← World.registry_step] at raised
    have now := storeCall_generation calls' again
    have grown : (w.step anp (.store handle call entropy fault)).store.registry.generation ≤ after.store.registry.generation :=
      World.registry_le meets.2.2
    omega

/-- The guarantees hold after an identity was created. -/
theorem no_lost_updates_creation : NoLostUpdates Plain.anp (World.initial.run Plain.anp Plain.creation) :=
  no_lost_updates ⟨by decide, trivial, by decide, trivial, trivial⟩

end AnpIdentity
