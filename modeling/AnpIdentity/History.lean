import AnpIdentity.Moves

/-! The history of a run: identity files age, the registry counts its changes, and the records stored for
one identity form a chain of rewrites. -/

namespace AnpIdentity
open Durable Program
variable {anp : Anp} {w : World} {event : Event} {s : Store} {v : Write} {id : String}

namespace World
variable {condition : World → Event → Prop}

variable {events : List Event}

/-- What every event that meets the condition preserves holds after the run. -/
theorem run_induction {I : World → Prop}
    (step : ∀ w event, I w → event.Fresh w → condition w event → I (w.step anp event)) {w : World} (start : I w)
    (meets : w.Meets anp condition events) : I (w.run anp events) := by
  induction events generalizing w with
  | nil => exact start
  | cons event rest ih =>
    obtain ⟨fresh, holds, more⟩ := meets
    exact ih (step w event start fresh holds) more

theorem meets_append {later : List Event} :
    w.Meets anp condition (events ++ later) ↔ w.Meets anp condition events ∧ (w.run anp events).Meets anp condition later := by
  induction events generalizing w with
  | nil => exact ⟨fun meets => ⟨trivial, meets⟩, fun both => both.2⟩
  | cons event rest ih =>
    change event.Fresh w ∧ condition w event ∧ (w.step anp event).Meets anp condition (rest ++ later) ↔
      (event.Fresh w ∧ condition w event ∧ (w.step anp event).Meets anp condition rest) ∧
        ((w.step anp event).run anp rest).Meets anp condition later
    rw [ih, and_assoc, and_assoc]

theorem run_snoc : w.run anp (events ++ [event]) = (w.run anp events).step anp event := List.foldl_concat ..

theorem Meets.mono {weaker : World → Event → Prop} (meets : w.Meets anp condition events)
    (implies : ∀ w event, condition w event → weaker w event) : w.Meets anp weaker events := by
  induction events generalizing w with
  | nil => trivial
  | cons event rest ih => exact ⟨meets.1, implies _ _ meets.2.1, ih meets.2.2⟩

end World

/-! ## Files -/

/-- What holds of introduced records and is kept by rewritings holds of all files. -/
theorem FileMove.files {Q : String → IdentityRecord → Prop} (move : FileMove anp w event s v)
    (now : ∀ id file, s.identities id = some file → Q id file)
    (made : ∀ entropy self call action made, event.Brings anp w entropy self call action → action.Makes anp entropy made →
      Q made.identityId made)
    (rewritten : ∀ file record, s.identities record.identityId = some file → Q record.identityId file →
      Rewrite anp w event s file record → Q record.identityId record) :
    ∀ id file, (Medium.apply s v).identities id = some file → Q id file := by
  have put : ∀ record : IdentityRecord, Q record.identityId record →
      ∀ id file, (Medium.apply s (.identity record)).identities id = some file → Q id file := by
    intro record holds id file found
    by_cases same : id = record.identityId
    · rw [same, identities_put_self, Option.some.injEq] at found
      rw [same, ← found]
      exact holds
    · rw [identities_put_ne s same] at found
      exact now id file found
  cases move with
  | elsewhere kept =>
    rw [kept]
    exact now
  | introduce brought makes _ => exact put _ (made _ _ _ _ _ brought makes)
  | rewrite found rewrites => exact put _ (rewritten _ _ found (now _ _ found) rewrites)
  | @remove gone settled =>
    intro id file found
    by_cases same : id = gone
    · rw [same, identities_remove_self] at found
      cases found
    · rw [identities_remove_ne s same] at found
      exact now id file found

/-- Every file is kept under the id of its record, and the id is one that was drawn. -/
structure Store.Filed (known : String → Prop) (s : Store) : Prop where
  named : ∀ id file, s.identities id = some file → file.identityId = id
  drawn : ∀ id file, s.identities id = some file → known id

theorem FileMove.filed {known : String → Prop} (move : FileMove anp w event s v) (filed : s.Filed known)
    (ids : ∀ id ∈ event.ids, known id) : (Medium.apply s v).Filed known := by
  have files := move.files (Q := fun id file => file.identityId = id ∧ known id)
    (fun id file found => ⟨filed.named id file found, filed.drawn id file found⟩)
    (fun _ _ _ _ _ brought makes => ⟨rfl, ids _ (brought.drawn makes)⟩) (fun _ _ _ before _ => ⟨rfl, before.2⟩)
  exact ⟨fun id file found => (files id file found).1, fun id file found => (files id file found).2⟩

/-- The files of a world belong to ids that its run has drawn. -/
def World.Filed (w : World) : Prop := w.store.Filed (· ∈ w.issued)

theorem World.filed_initial : World.initial.Filed :=
  ⟨fun _ _ found => (nomatch found), fun _ _ found => (nomatch found)⟩

variable {ws : List Write} {condition : World → Event → Prop} {events : List Event} {registry : IdentityRegistry}
  {entropy : Entropy} {start : Store}

/-- The files of the store during an event. -/
theorem World.Filed.during (filed : w.Filed) (traced : Traced (FileMove anp w event) w.store ws) :
    (applyAll w.store ws).Filed (fun id => id ∈ event.ids ∨ id ∈ w.issued) :=
  traced.invariant (fun _ _ now move => move.filed now (fun _ listed => .inl listed))
    ⟨filed.named, fun id file found => .inr (filed.drawn id file found)⟩

theorem World.identities_step (event : Event) :
    (w.step anp event).store.identities = (applyAll w.store (event.writes anp w)).identities := by
  obtain ⟨journals, same⟩ := (World.steps event).store
  rw [same]

theorem World.Filed.step (filed : w.Filed) (event : Event) : (w.step anp event).Filed := by
  have after := filed.during (event.fileMoves : Traced (FileMove anp w event) w.store (event.writes anp w))
  have steps : w.Steps anp event (w.step anp event) := World.steps event
  refine ⟨?_, ?_⟩
  · rw [World.identities_step]
    exact after.named
  · rw [World.identities_step]
    intro id file found
    by_cases wrote : event.writes anp w = []
    · rw [wrote] at found
      exact steps.kept id (filed.drawn id file found)
    · rcases after.drawn id file found with new | old
      · exact steps.drawn wrote id new
      · exact steps.kept id old

theorem World.filed_run (meets : World.initial.Meets anp condition events) : (World.initial.run anp events).Filed :=
  run_induction (fun _ event filed _ _ => filed.step event) filed_initial meets

/-! ## Ages -/

/-- How often the file of an identity was replaced; a file that is gone is older than all. -/
def Store.age (s : Store) (id : String) : WithTop ℕ :=
  match s.identities id with
  | some file => file.generation
  | none => ⊤

theorem Store.age_some {file : IdentityRecord} (found : s.identities id = some file) : s.age id = file.generation := by
  simp only [Store.age, found]

theorem Store.age_congr {t : Store} (same : t.identities id = s.identities id) : t.age id = s.age id := by
  simp only [Store.age, same]

theorem Store.age_none (gone : s.identities id = none) : s.age id = ⊤ := by
  simp only [Store.age, gone]

theorem FileMove.age_le (move : FileMove anp w event s v) (old : id ∉ event.ids) :
    s.age id ≤ (Medium.apply s v).age id := by
  cases move with
  | elsewhere kept => exact (Store.age_congr (by rw [kept])).ge
  | introduce brought makes =>
    refine (Store.age_congr (identities_put_ne s (fun same => old ?_))).ge
    rw [same]
    exact brought.drawn makes
  | @rewrite file record found rewrites =>
    by_cases same : id = record.identityId
    · subst same
      rw [Store.age_some found, Store.age_some (identities_put_self s record)]
      rcases rewrites.identityId.2 with next | ⟨equal, -⟩
      · rw [next]
        exact_mod_cast Nat.le_succ _
      · rw [equal]
    · exact (Store.age_congr (identities_put_ne s same)).ge
  | @remove gone =>
    by_cases same : id = gone
    · rw [same, Store.age_none (identities_remove_self s gone)]
      exact le_top
    · exact (Store.age_congr (identities_remove_ne s same)).ge

theorem Traced.age_le (traced : Traced (FileMove anp w event) s ws) (old : id ∉ event.ids) :
    s.age id ≤ (applyAll s ws).age id := by
  induction ws generalizing s with
  | nil => exact le_refl _
  | cons v rest ih => exact (FileMove.age_le traced.1 old).trans (ih traced.2)

theorem World.age_step (event : Event) : (w.step anp event).store.age id = (applyAll w.store (event.writes anp w)).age id := by
  unfold Store.age
  rw [World.identities_step]

/-- The file of an identity that exists, or has existed, only gets older. -/
theorem World.age_le (known : id ∈ w.issued) (meets : w.Meets anp condition events) :
    w.store.age id ≤ (w.run anp events).store.age id := by
  induction events generalizing w with
  | nil => exact le_refl _
  | cons event rest ih =>
    obtain ⟨fresh, -, more⟩ := meets
    have old : id ∉ event.ids := fun listed => fresh.2 id listed known
    refine le_trans ?_ (ih ((World.steps event).kept id known) more)
    rw [World.age_step]
    exact Traced.age_le event.fileMoves old

/-! ## The registry -/

/-- A write of the registry changes one entry and counts the change. -/
def RegistryMove (s : Store) (v : Write) : Prop :=
  ∀ registry, v = .registry registry → registry.generation = s.registry.generation + 1 ∧
    ∃ did, ∀ other, other ≠ did → registry.identities other = s.registry.identities other

private theorem registryMove_of_ne (other : ∀ registry, v ≠ .registry registry) : RegistryMove s v :=
  fun registry same => absurd same (other registry)

private theorem registryMove_put {did : String} {summary : IdentitySummary}
    (entered : s.registry.put did summary = .ok registry) : RegistryMove s (.registry registry) := by
  obtain ⟨-, rfl⟩ := IdentityRegistry.put_ok.mp entered
  intro registry same
  cases same
  exact ⟨rfl, did, fun other different => Function.update_of_ne different _ _⟩

private theorem registryMove_drop {did : String} (left : s.registry.drop did = .ok registry) :
    RegistryMove s (.registry registry) := by
  obtain ⟨-, rfl⟩ := IdentityRegistry.drop_ok.mp left
  intro registry same
  cases same
  exact ⟨rfl, did, fun other different => Function.update_of_ne different _ _⟩

private theorem RegisterStep.registryMove {next : IdentityRecord} (step : RegisterStep entropy start next s v) :
    RegistryMove s v := by
  cases step with
  | store => exact registryMove_of_ne (fun _ => nofun)
  | refresh _ entered => exact registryMove_put (s := start.putIdentity next.raised) entered
  | close => exact registryMove_of_ne (fun _ => nofun)

private theorem IdentityStep.registryMove {action : IdentityAction} (step : IdentityStep anp entropy start action s v) :
    RegistryMove s v := by
  cases step with
  | prepare step | discard step => cases step <;> exact registryMove_of_ne (fun _ => nofun)
  | edit step =>
    cases step with
    | plain | announce => exact registryMove_of_ne (fun _ => nofun)
    | register _ step => exact step.registryMove
  | importRoot step =>
    cases step with
    | announce | keep => exact registryMove_of_ne (fun _ => nofun)
    | register _ _ step => exact step.registryMove

private theorem StoreStep.registryMove {action : StoreAction} (step : StoreStep anp entropy start action s v) :
    RegistryMove s v := by
  cases step with
  | introduce step => cases step <;> exact registryMove_of_ne (fun _ => nofun)
  | enlist ready entered => exact registryMove_put (s := start.introduced _ _ _) entered
  | close => exact registryMove_of_ne (fun _ => nofun)
  | create step => cases step <;> exact registryMove_of_ne (fun _ => nofun)
  | enlistCreated ready entered => exact registryMove_put (s := start.introduced _ _ _) entered
  | activate | closeCreated => exact registryMove_of_ne (fun _ => nofun)
  | delete step =>
    cases step with
    | announce | erase | remove => exact registryMove_of_ne (fun _ => nofun)
    | delist _ _ left => exact registryMove_drop left
    | close => exact registryMove_of_ne (fun _ => nofun)

private theorem RecoveryStep.registryMove (step : RecoveryStep anp s v) : RegistryMove s v := by
  cases step with
  | creation outstanding step =>
    cases step with
    | refresh _ _ entered => exact registryMove_put entered
    | delist _ _ _ _ left => exact registryMove_drop left
    | _ => exact registryMove_of_ne (fun _ => nofun)
  | update outstanding step => cases step <;> exact registryMove_of_ne (fun _ => nofun)

theorem Event.Permits.registryMove (permits : event.Permits anp w s v) : RegistryMove s v := by
  cases permits with
  | recovery _ step | store _ _ _ step | identity _ _ _ step => exact step.registryMove

/-- Every write of the registry changes one entry. -/
theorem Event.registryMoves (event : Event) : Traced RegistryMove w.store (event.writes anp w) :=
  event.traced.weaken (fun _ _ permits => permits.registryMove)

theorem RegistryMove.generation_le (move : RegistryMove s v) :
    s.registry.generation ≤ (Medium.apply s v).registry.generation := by
  cases v with
  | registry registry => exact ((move registry rfl).1 ▸ Nat.le_succ _ : s.registry.generation ≤ registry.generation)
  | _ => exact le_refl _

theorem Traced.registry_le (traced : Traced RegistryMove s ws) :
    s.registry.generation ≤ (applyAll s ws).registry.generation := by
  induction ws generalizing s with
  | nil => exact le_refl _
  | cons v rest ih => exact traced.1.generation_le.trans (ih traced.2)

/-- Where the registry is written its generation goes up. -/
theorem Traced.registry_lt (traced : Traced RegistryMove s ws) (written : Write.registry registry ∈ ws) :
    s.registry.generation < (applyAll s ws).registry.generation := by
  induction ws generalizing s with
  | nil => cases written
  | cons v rest ih =>
    rcases List.mem_cons.mp written with rfl | later
    · have counted := (traced.1 registry rfl).1
      have more := Traced.registry_le traced.2
      change registry.generation ≤ _ at more
      rw [applyAll_cons]
      omega
    · exact traced.1.generation_le.trans_lt (ih traced.2 later)

theorem World.registry_step (event : Event) :
    (w.step anp event).store.registry = (applyAll w.store (event.writes anp w)).registry := by
  obtain ⟨journals, same⟩ := (World.steps event).store
  rw [same]

theorem World.registry_le (meets : w.Meets anp condition events) :
    w.store.registry.generation ≤ (w.run anp events).store.registry.generation := by
  induction events generalizing w with
  | nil => exact le_refl _
  | cons event rest ih =>
    refine le_trans ?_ (ih meets.2.2)
    rw [World.registry_step]
    exact Traced.registry_le event.registryMoves

/-! ## The records of an identity -/

/-- The records that writes store for an identity, in order. -/
def recordsOf (id : String) (ws : List Write) : List IdentityRecord :=
  ws.filterMap (fun
    | .identity record => if record.identityId = id then some record else none
    | _ => none)

/-- The writes of a run. -/
def World.trace (anp : Anp) : World → List Event → List Write
  | _, [] => []
  | w, event :: rest => event.writes anp w ++ trace anp (w.step anp event) rest

/-- The records that a run stores for an identity, in order. -/
def World.history (anp : Anp) (events : List Event) (id : String) : List IdentityRecord :=
  recordsOf id (World.initial.trace anp events)

section
variable {record : IdentityRecord} {ws vs : List Write}

theorem recordsOf_append : recordsOf id (ws ++ vs) = recordsOf id ws ++ recordsOf id vs := List.filterMap_append ..

theorem recordsOf_self : recordsOf record.identityId [.identity record] = [record] := by simp [recordsOf]

theorem recordsOf_ne (other : record.identityId ≠ id) : recordsOf id [.identity record] = [] := by simp [recordsOf, other]

theorem recordsOf_quiet (quiet : ∀ record, v ≠ .identity record) : recordsOf id [v] = [] := by
  cases v with
  | identity record => exact absurd rfl (quiet record)
  | _ => rfl

variable (P : IdentityRecord → Prop) (R : IdentityRecord → IdentityRecord → Prop) (known : String → Prop) in
/-- The records stored so far have the property and follow each other in the relation, and the files hold the
last of them. -/
structure Chronicle (s : Store) (ws : List Write) : Prop where
  holds : ∀ id, ∀ record ∈ recordsOf id ws, P record
  chain : ∀ id, (recordsOf id ws).IsChain R
  last : ∀ id file, s.identities id = some file → (recordsOf id ws).getLast? = some file
  knows : ∀ id, recordsOf id ws ≠ [] → known id

variable {P : IdentityRecord → Prop} {R : IdentityRecord → IdentityRecord → Prop} {known knows : String → Prop}

theorem Chronicle.quiet (chronicle : Chronicle P R known s ws) (quiet : ∀ record, v ≠ .identity record)
    (fewer : ∀ id file, (Medium.apply s v).identities id = some file → s.identities id = some file)
    (still : ∀ id, known id → knows id) : Chronicle P R knows (Medium.apply s v) (ws ++ [v]) := by
  have same : ∀ id, recordsOf id (ws ++ [v]) = recordsOf id ws := fun id => by
    rw [recordsOf_append, recordsOf_quiet quiet, List.append_nil]
  refine ⟨fun id => ?_, fun id => ?_, fun id file found => ?_, fun id stored => ?_⟩
  · rw [same]
    exact chronicle.holds id
  · rw [same]
    exact chronicle.chain id
  · rw [same]
    exact chronicle.last id file (fewer id file found)
  · rw [same] at stored
    exact still id (chronicle.knows id stored)

theorem Chronicle.put (chronicle : Chronicle P R known s ws) (holds : P record)
    (follows : ∀ last ∈ (recordsOf record.identityId ws).getLast?, R last record) (still : ∀ id, known id → knows id)
    (new : knows record.identityId) :
    Chronicle P R knows (Medium.apply s (.identity record)) (ws ++ [.identity record]) := by
  have self : recordsOf record.identityId (ws ++ [.identity record]) = recordsOf record.identityId ws ++ [record] := by
    rw [recordsOf_append, recordsOf_self]
  have others : ∀ id, id ≠ record.identityId → recordsOf id (ws ++ [.identity record]) = recordsOf id ws := fun id other => by
    rw [recordsOf_append, recordsOf_ne other.symm, List.append_nil]
  refine ⟨fun id => ?_, fun id => ?_, fun id file found => ?_, fun id stored => ?_⟩
  all_goals by_cases same : id = record.identityId
  · subst same
    rw [self]
    intro old listed
    rcases List.mem_append.mp listed with before | now
    · exact chronicle.holds _ old before
    · rw [List.mem_singleton.mp now]
      exact holds
  · rw [others id same]
    exact chronicle.holds id
  · subst same
    rw [self, List.isChain_append]
    exact ⟨chronicle.chain _, .singleton _, fun last ends next starts => by cases starts; exact follows last ends⟩
  · rw [others id same]
    exact chronicle.chain id
  · subst same
    rw [identities_put_self, Option.some.injEq] at found
    rw [self, List.getLast?_concat, found]
  · rw [others id same]
    rw [identities_put_ne s same] at found
    exact chronicle.last id file found
  · rw [same]
    exact new
  · rw [others id same] at stored
    exact still id (chronicle.knows id stored)

/-- During an event, a record was stored for an identity that was known before, has a file or will get none. -/
structure Stored (anp : Anp) (w : World) (event : Event) (s : Store) (id : String) : Prop where
  drawn : id ∈ event.ids ∨ id ∈ w.issued
  once : id ∈ w.issued ∨ s.identities id ≠ none ∨ event.Settled anp w

theorem FileMove.chronicle (move : FileMove anp w event s v) (fresh : event.Fresh w) (filed : w.Filed)
    (made : ∀ entropy self call action made, event.Brings anp w entropy self call action →
      action.Makes anp entropy made → P made)
    (rewritten : ∀ file record, P file → Rewrite anp w event s file record → P record ∧ R file record)
    (chronicle : Chronicle P R (Stored anp w event s) s ws) :
    Chronicle P R (Stored anp w event (Medium.apply s v)) (Medium.apply s v) (ws ++ [v]) := by
  have puts : ∀ record : IdentityRecord, ∀ id, Stored anp w event s id →
      Stored anp w event (Medium.apply s (.identity record)) id := by
    intro record id stored
    refine ⟨stored.drawn, ?_⟩
    by_cases same : id = record.identityId
    · exact .inr (.inl (by rw [same, identities_put_self]; simp))
    · simpa only [identities_put_ne s same] using stored.once
  cases move with
  | elsewhere kept =>
    refine chronicle.quiet (fun record => stores_nothing kept) ?_ ?_
    · rw [kept]
      exact fun _ _ found => found
    · exact fun _ stored => ⟨stored.drawn, by rw [kept]; exact stored.once⟩
  | @introduce entropy self call action record brought makes before =>
    have drawn : record.identityId ∈ event.ids := brought.drawn makes
    refine chronicle.put (made _ _ _ _ _ brought makes) ?_ (puts record)
      ⟨.inl drawn, .inr (.inl (by rw [identities_put_self]; simp))⟩
    -- the id was drawn for this event, so nothing was stored under it
    have unknown : record.identityId ∉ w.issued := fresh.2 _ drawn
    have nothing : recordsOf record.identityId ws = [] := by
      by_contra stored
      rcases (chronicle.knows _ stored).once with issued | present | settled
      · exact unknown issued
      · obtain ⟨file, found⟩ := Option.ne_none_iff_exists'.mp present
        rw [before] at found
        exact unknown (filed.drawn _ _ found)
      · exact settled _ _ _ _ _ brought makes
    rw [nothing]
    exact fun last ends => nomatch ends
  | @rewrite file record found rewrites =>
    have ends := chronicle.last _ _ found
    obtain ⟨holds, follows⟩ := rewritten file record (chronicle.holds _ _ (List.mem_of_getLast? ends)) rewrites
    have drawn := (chronicle.knows record.identityId (fun nothing => by rw [nothing] at ends; cases ends)).drawn
    refine chronicle.put holds (fun last listed => ?_) (puts record)
      ⟨drawn, .inr (.inl (by rw [identities_put_self]; simp))⟩
    rw [ends] at listed
    cases listed
    exact follows
  | @remove gone settled =>
    refine chronicle.quiet (fun _ => nofun) (fun id file found => ?_) (fun id stored => ⟨stored.drawn, .inr (.inr settled)⟩)
    by_cases same : id = gone
    · rw [same, identities_remove_self] at found
      cases found
    · rwa [identities_remove_ne s same] at found

theorem Traced.chronicle (traced : Traced (FileMove anp w event) s vs) (fresh : event.Fresh w) (filed : w.Filed)
    (made : ∀ entropy self call action made, event.Brings anp w entropy self call action →
      action.Makes anp entropy made → P made)
    (rewritten : ∀ s file record, P file → Rewrite anp w event s file record → P record ∧ R file record)
    (chronicle : Chronicle P R (Stored anp w event s) s ws) :
    Chronicle P R (Stored anp w event (applyAll s vs)) (applyAll s vs) (ws ++ vs) := by
  induction vs generalizing s ws with
  | nil =>
    rw [List.append_nil]
    exact chronicle
  | cons v rest ih =>
    have next := FileMove.chronicle traced.1 fresh filed made (rewritten s) chronicle
    rw [List.append_cons]
    exact ih traced.2 next

variable {condition : World → Event → Prop}

/-- What holds of every record that an event introduces and is kept by every rewriting holds of all records of a
run, and the records of an identity follow each other as the rewritings do. The last of them is in the file. -/
theorem World.chronicle
    (made : ∀ w event entropy self call action made, condition w event → event.Brings anp w entropy self call action →
      action.Makes anp entropy made → P made)
    (rewritten : ∀ w event s file record, condition w event → P file → Rewrite anp w event s file record →
      P record ∧ R file record)
    {events : List Event} (meets : World.initial.Meets anp condition events) (id : String) :
    (World.history anp events id).IsChain R ∧ (∀ record ∈ World.history anp events id, P record) ∧
      ∀ file, (World.initial.run anp events).store.identities id = some file →
        (World.history anp events id).getLast? = some file := by
  have along : ∀ (events : List Event) (w : World) (ws : List Write), w.Meets anp condition events → w.Filed →
      Chronicle P R (· ∈ w.issued) w.store ws →
      (recordsOf id (ws ++ w.trace anp events)).IsChain R ∧
        (∀ record ∈ recordsOf id (ws ++ w.trace anp events), P record) ∧
        ∀ file, (w.run anp events).store.identities id = some file →
          (recordsOf id (ws ++ w.trace anp events)).getLast? = some file := by
    intro events
    induction events with
    | nil =>
      intro w ws _ _ chronicle
      rw [World.trace, List.append_nil]
      exact ⟨chronicle.chain id, chronicle.holds id, chronicle.last id⟩
    | cons event rest ih =>
      intro w ws meets filed chronicle
      obtain ⟨fresh, holds, more⟩ := meets
      have during := Traced.chronicle event.fileMoves fresh filed (fun _ _ _ _ _ => made w event _ _ _ _ _ holds)
        (fun s file record => rewritten w event s file record holds)
        ⟨chronicle.holds, chronicle.chain, chronicle.last, fun id stored =>
          ⟨.inr (chronicle.knows id stored), .inl (chronicle.knows id stored)⟩⟩
      rw [World.trace, ← List.append_assoc]
      refine ih _ _ more (filed.step event) ⟨during.holds, during.chain, ?_, fun id stored => ?_⟩
      · rw [World.identities_step]
        exact during.last
      · have steps : w.Steps anp event (w.step anp event) := World.steps event
        by_cases wrote : event.writes anp w = []
        · rw [wrote, List.append_nil] at stored
          exact steps.kept id (chronicle.knows id stored)
        · rcases (during.knows id stored).drawn with new | old
          · exact steps.drawn wrote id new
          · exact steps.kept id old
  exact along events World.initial [] meets World.filed_initial
    ⟨fun _ _ listed => (nomatch listed), fun _ => .nil, fun _ _ found => (nomatch found), fun _ stored => absurd rfl stored⟩

/-- What every introduced record has and every rewriting keeps, every file has. -/
theorem World.file_invariant
    (made : ∀ w event entropy self call action made, condition w event → event.Brings anp w entropy self call action →
      action.Makes anp entropy made → P made)
    (rewritten : ∀ w event s file record, condition w event → P file → Rewrite anp w event s file record → P record)
    {events : List Event} (meets : World.initial.Meets anp condition events) {id : String} {file : IdentityRecord}
    (found : (World.initial.run anp events).store.identities id = some file) : P file := by
  obtain ⟨-, holds, last⟩ := World.chronicle (R := fun _ _ => True) made
    (fun w event s file record condition now rewrites => ⟨rewritten w event s file record condition now rewrites, trivial⟩)
    meets id
  exact holds file (List.mem_of_getLast? (last file found))

end

end AnpIdentity
