import AnpIdentity.History

/-! Handles and the files that they show. A handle keeps the record that its last successful call saw. While the
file keeps that generation the handle shows the file; once the file is replaced the handle is behind it. -/

namespace AnpIdentity
open Durable Program
variable {anp : Anp} {w : World} {event : Event} {s : Store} {v : Write} {handle : DidIdentity}

/-- The record is the one in the file, or what reading the file gives. -/
def Shown (anp : Anp) (file record : IdentityRecord) : Prop := record = file ∨ completeRecord anp file = .ok record

/-- The handle is not ahead of the file, and shows it if the generations agree. -/
structure Agrees (anp : Anp) (handle : DidIdentity) (s : Store) : Prop where
  created : handle.record.state ≠ .creating
  behind : ∀ file, s.identities handle.identityId = some file → handle.record.generation ≤ file.generation
  shown : ∀ file, s.identities handle.identityId = some file → file.generation = handle.record.generation →
    Shown anp file handle.record

/-- What a record that was read shares with the file. -/
structure Mirrors (file record : IdentityRecord) : Prop where
  identityId : record.identityId = file.identityId
  did : record.did = file.did
  state : record.state = file.state
  revision : record.revision = file.revision
  generation : record.generation = file.generation
  document : record.document = file.document
  keys : record.keys = file.keys
  rootCapability : record.rootCapability = file.rootCapability
  pendingRevision : record.pendingRevision = file.pendingRevision

theorem Shown.mirrors {file record : IdentityRecord} (shown : Shown anp file record) : Mirrors file record := by
  rcases shown with rfl | completed
  · exact ⟨rfl, rfl, rfl, rfl, rfl, rfl, rfl, rfl, rfl⟩
  · obtain ⟨_, _, _, rfl⟩ := completeRecord_same completed
    exact ⟨rfl, rfl, rfl, rfl, rfl, rfl, rfl, rfl, rfl⟩

theorem Agrees.congr {t : Store} (agrees : Agrees anp handle s)
    (same : t.identities handle.identityId = s.identities handle.identityId) : Agrees anp handle t :=
  ⟨agrees.created, by rw [same]; exact agrees.behind, by rw [same]; exact agrees.shown⟩

theorem FileMove.agrees (move : FileMove anp w event s v) (agrees : Agrees anp handle s)
    (old : handle.identityId ∉ event.ids) : Agrees anp handle (Medium.apply s v) := by
  cases move with
  | elsewhere kept => exact agrees.congr (by rw [kept])
  | introduce brought makes _ =>
    exact agrees.congr (identities_put_ne s (fun same => old (same ▸ brought.drawn makes)))
  | @rewrite file record found rewrites =>
    by_cases same : handle.identityId = record.identityId
    · have behind := agrees.behind file (same ▸ found)
      rcases rewrites.identityId.2 with next | ⟨equal, creating, -⟩
      · refine ⟨agrees.created, ?_, ?_⟩
        all_goals
          intro other found
          rw [same, identities_put_self, Option.some.injEq] at found
          subst found
        · omega
        · intro equal
          omega
      · -- a file that is still being created is shown by no handle
        have apart : file.generation ≠ handle.record.generation := by
          intro shows
          have shown := agrees.shown file (same ▸ found) shows
          exact agrees.created (shown.mirrors.state.trans creating)
        refine ⟨agrees.created, ?_, ?_⟩
        all_goals
          intro other found
          rw [same, identities_put_self, Option.some.injEq] at found
          subst found
        · omega
        · intro shows
          omega
    · exact agrees.congr (identities_put_ne s same)
  | @remove gone settled =>
    by_cases same : handle.identityId = gone
    · have none : (Medium.apply s (.removeIdentity gone)).identities handle.identityId = none := by
        rw [same, identities_remove_self]
      refine ⟨agrees.created, fun file found => ?_, fun file found => ?_⟩
      all_goals
        rw [none] at found
        cases found
    · exact agrees.congr (identities_remove_ne s same)

theorem agrees_shows {file : IdentityRecord} (created : handle.record.state ≠ .creating)
    (found : s.identities handle.identityId = some file) (shown : Shown anp file handle.record) : Agrees anp handle s := by
  refine ⟨created, fun other same => ?_, fun other same _ => ?_⟩
  all_goals
    rw [found, Option.some.injEq] at same
    subst same
  · exact shown.mirrors.generation.le
  · exact shown

/-- The handles of a world belong to identities that its run has drawn, and agree with the files. -/
def World.Agreed (anp : Anp) (w : World) : Prop :=
  ∀ (i : Nat) self, w.identities[i]? = some self → self.identityId ∈ w.issued ∧ Agrees anp self w.store

private theorem returned_created {entropy : Entropy} {self : DidStore} {call : StoreCall} {action : StoreAction}
    {shown : IdentityRecord} (started : call.Starts anp s self entropy action) (returns : action.Returns anp entropy shown) :
    shown.state ≠ .creating := by
  cases action with
  | introduce did keys record =>
    intro creating
    obtain ⟨spec, built, same⟩ := (started.isNew returns).creating creating
    cases same
  | create spec built =>
    obtain ⟨made, -, rfl⟩ := returns
    simp
  | delete did record => exact returns.elim

/-- The record that a call saw is not being created if its handle agrees with the store. -/
theorem Current.agrees {seen : IdentityRecord} (current : Current anp s handle seen) (agrees : Agrees anp handle s) :
    ∃ file, s.identities handle.identityId = some file ∧ Shown anp file handle.record ∧ completeRecord anp file = .ok seen := by
  obtain ⟨file, found, -, completed⟩ := readIdentity_ok.mp current.read
  have shown : Shown anp file seen := .inr completed
  exact ⟨file, found, agrees.shown file found (by rw [← shown.mirrors.generation, current.generation]), completed⟩

private theorem Presents.agrees (presents : Presents anp w event handle s) (agreed : w.Agreed anp) : Agrees anp handle s := by
  cases presents with
  | @acted entropy self call action record began stores is shows =>
    refine agrees_shows ?_ shows (.inl rfl)
    obtain ⟨-, held, started⟩ := began
    obtain ⟨current, justified⟩ := started.started
    obtain ⟨file, -, shown, completed⟩ := current.agrees (agreed _ _ held).2
    have read : Shown anp file action.seen := .inr completed
    have created : action.seen.state ≠ .creating := by
      rw [read.mirrors.state, ← shown.mirrors.state]
      exact (agreed _ _ held).2.created
    rw [is]
    exact (justified.keeping stores).created created
  | brought brought returns shows =>
    obtain ⟨-, -, started⟩ := brought
    exact agrees_shows (returned_created started returns) shows (.inl rfl)
  | opened opens =>
    obtain ⟨file, found, -, completed⟩ := readIdentity_ok.mp opens.read
    exact agrees_shows opens.created found (.inr completed)

/-- A handle that an event leaves shows the file. -/
theorem Presents.shown (presents : Presents anp w event handle s) :
    ∃ file, s.identities handle.identityId = some file ∧ Shown anp file handle.record := by
  cases presents with
  | acted _ _ _ shows | brought _ _ shows => exact ⟨_, shows, .inl rfl⟩
  | opened opens =>
    obtain ⟨file, found, -, completed⟩ := readIdentity_ok.mp opens.read
    exact ⟨file, found, .inr completed⟩

theorem World.Agreed.step (agreed : w.Agreed anp) (filed : w.Filed) (fresh : event.Fresh w) : (w.step anp event).Agreed anp := by
  intro i self held
  have steps : w.Steps anp event (w.step anp event) := World.steps event
  rcases steps.identities i self held with before | presents
  · obtain ⟨known, agrees⟩ := agreed i self before
    refine ⟨steps.kept _ known, ?_⟩
    have old : self.identityId ∉ event.ids := fun listed => fresh.2 _ listed known
    have after := event.fileMoves.invariant (I := Agrees anp self) (fun _ _ now move => move.agrees now old) agrees
    exact after.congr (by rw [World.identities_step])
  · obtain ⟨file, found, -⟩ := presents.shown
    exact ⟨(filed.step event).drawn _ _ found, presents.agrees agreed⟩

/-- In every run, handles agree with the files. -/
theorem World.agreed_run {condition : World → Event → Prop} {events : List Event}
    (meets : World.initial.Meets anp condition events) : (World.initial.run anp events).Agreed anp := by
  have both := World.run_induction (I := fun w => w.Filed ∧ w.Agreed anp)
    (fun w event now fresh _ => ⟨now.1.step event, now.2.step now.1 fresh⟩)
    ⟨World.filed_initial, fun i self held => by cases held⟩ meets
  exact both.2

end AnpIdentity
