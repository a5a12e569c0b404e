import AnpIdentity.Subjects
import AnpIdentity.TransitionRuns
import Mathlib.Logic.Relation

/-! Finishing a transition. Every operation of a session compares the two identities with the generations that its
journal recorded. While calls, deletions and recoveries leave both identities alone, an unfinished journal can be
brought to its end; an operation that writes one of them leaves the journal stuck. -/

namespace AnpIdentity
open Durable Program

section
variable (anp : Anp) (proofs : Proofs) (hops : Hops)

/-- A session carries out one of its operations. -/
inductive Drives : World × IdentityTransitionSession → World × IdentityTransitionSession → Prop
  | beginPublication {w : World} {session : IdentityTransitionSession} {journal : IdentityTransitionJournal}
      (ran : session.beginPublication anp w.store = .ok journal) :
      Drives (w, session) (w.advance anp proofs hops (.transition (.beginPublication session)), { session with journal })
  | complete {w : World} {session : IdentityTransitionSession} {journal : IdentityTransitionJournal}
      (attempt : IdentityTransitionPublicationAttempt) (result : IdentityTransitionPublicationResult)
      (ran : session.complete anp w.store attempt result = .ok journal) :
      Drives (w, session) (w.advance anp proofs hops (.transition (.complete session attempt result)), { session with journal })
  | reconcile {w : World} {session : IdentityTransitionSession} {journal : IdentityTransitionJournal}
      (observation : IdentityTransitionRemoteObservation) (ran : session.reconcile anp hops w.store observation = .ok journal) :
      Drives (w, session) (w.advance anp proofs hops (.transition (.reconcile session observation)), { session with journal })

/-- The session can bring its journal to an end. -/
def Finishes (w : World) (session : IdentityTransitionSession) : Prop :=
  ∃ after, Relation.ReflTransGen (Drives anp proofs hops) (w, session) after ∧ ¬ after.2.journal.Unfinished ∧
    after.2.journal ∈ after.1.store.identityTransitions

end

/-- The identity that a deletion removes. -/
def StoreCall.removes (s : Store) : StoreCall → Option String
  | .discardUnpublishedEnrollment did _ _ | .deleteIdentityNamespace did _
  | .deleteIdentityNamespaceDiscardingPending did _ => (s.registry.identities did).map (·.identityId)
  | _ => none

/-- The call adopts a document of a sibling or reloads the handle. -/
def IdentityCall.yields : IdentityCall → Bool
  | .adoptVerifiedSiblingDocument _ | .reload => true
  | _ => false

/-- An identity that an unfinished transition holds is not deleted, and of the calls on it only the adoption of a sibling
document, which checks for transitions, and a reload are made. A transition is prepared while no journal of its
identities is outstanding, and sessions act while the counters of the journals have room. -/
def SparesHeld (w : World) : TransitionEvent → Prop
  | .engine (.identity handle call _ _) =>
    ∀ self ∈ w.identities[handle]?, w.store.heldByTransition self.identityId = true → call.yields = true
  | .engine (.store _ call _ _) => ∀ id ∈ call.removes w.store, w.store.heldByTransition id = false
  | .engine _ => True
  | .transition (.prepare _ request _) => ∀ did ∈ [request.expectedCurrentDid, request.successor.did],
      ∀ summary ∈ w.store.registry.identities did, ¬ w.store.Owes summary.identityId
  | .transition _ => ∀ j ∈ w.store.identityTransitions.entries, j.generation + 3 < 2 ^ 64

instance (w : World) : ∀ event, Decidable (SparesHeld w event)
  | .engine (.identity handle _ _ _) => inferInstanceAs (Decidable (∀ self ∈ w.identities[handle]?, _))
  | .engine (.store _ call _ _) => inferInstanceAs (Decidable (∀ id ∈ call.removes w.store, _))
  | .engine (.openStore _) | .engine (.identityTransitions _) => isTrue trivial
  | .transition (.prepare _ _ _) => inferInstanceAs (Decidable (∀ did ∈ [_, _], ∀ summary ∈ w.store.registry.identities did, _))
  | .transition (.beginPublication _) | .transition (.complete _ _ _) | .transition (.reconcile _ _) =>
    inferInstanceAs (Decidable (∀ j ∈ w.store.identityTransitions.entries, _))

section
variable {anp : Anp} {proofs : Proofs} {hops : Hops} {w : World} {s : Store} {j journal : IdentityTransitionJournal}
  {id : String}

theorem heldByTransition_iff : s.heldByTransition id = true ↔
    ∃ j ∈ s.identityTransitions, j.Unfinished ∧ (j.predecessorIdentityId = id ∨ j.successorIdentityId = id) := by
  have states : ∀ j : IdentityTransitionJournal, j.Unfinished ↔
      ((j.state = .prepared ∨ j.state = .publicationInFlight) ∨ j.state = .publicationUncertain) := by
    intro j
    unfold IdentityTransitionJournal.Unfinished
    cases j.state <;> simp
  simp only [Store.heldByTransition, List.any_eq_true, Bool.and_eq_true, Bool.or_eq_true, beq_iff_eq, states,
    Directory.mem_entries]
  exact ⟨fun ⟨j, listed, named, open'⟩ => ⟨j, listed, open', named⟩, fun ⟨j, listed, open', named⟩ => ⟨j, listed, named, open'⟩⟩

theorem unfinished_of_prepared (prepared : j.state = .prepared) : j.Unfinished := by
  simp [IdentityTransitionJournal.Unfinished, prepared]

/-- What a session needs to bring a journal to its end. -/
structure Drivable (anp : Anp) (hops : Hops) (w : World) (j : IdentityTransitionJournal) : Prop where
  current : j.Current anp w.store
  settled : ¬ w.store.Owes j.predecessorIdentityId ∧ ¬ w.store.Owes j.successorIdentityId
  predecessorDigest : canonicalDocumentDigest anp j.predecessorDocument = .ok j.predecessorDigest
  successorDigest : canonicalDocumentDigest anp j.successorDocument = .ok j.successorDigest
  assurance : ∃ assurance, j.assurance = assuranceName assurance ∧
    hops.verifyTransitionHop j.predecessorDocument j.successorDocument (some j.trustedPredecessorDocument) = .ok assurance

/-- It does not depend on the state of the journal, nor on the other journals. -/
private theorem Drivable.moved {after : World} (drivable : Drivable anp hops w j) (state : IdentityTransitionJournalState)
    (generation : Nat)
    (files : ∀ id ∈ [j.predecessorIdentityId, j.successorIdentityId],
      after.store.identities id = w.store.identities id ∧ ¬ after.store.Owes id) :
    Drivable anp hops after { j with state, generation } := by
  obtain ⟨predecessor, spared⟩ := files _ List.mem_cons_self
  obtain ⟨successor, kept⟩ := files _ (List.mem_cons_of_mem _ List.mem_cons_self)
  have read : ∀ {id record}, after.store.identities id = w.store.identities id → w.store.readIdentity anp id = .ok record →
      after.store.readIdentity anp id = .ok record := by
    intro id record same read
    rw [readIdentity_ok, same]
    exact readIdentity_ok.mp read
  obtain ⟨first, found, is⟩ := drivable.current.predecessor
  obtain ⟨second, finds, was⟩ := drivable.current.successor
  exact ⟨⟨⟨first, read predecessor found, is⟩, ⟨second, read successor finds, was⟩⟩, ⟨spared, kept⟩,
    drivable.predecessorDigest, drivable.successorDigest, drivable.assurance⟩

theorem IdentityTransitionJournal.moved_of_room {state : IdentityTransitionJournalState}
    (room : j.generation + 1 < 2 ^ 64) : j.moved state = .ok { j with state, generation := j.generation + 1 } := by
  simp only [IdentityTransitionJournal.moved, except_bind_ok, nextGeneration_ok]
  exact ⟨j.generation + 1, ⟨room, rfl⟩, rfl⟩

/-! ## Driving a journal -/

section
variable {session : IdentityTransitionSession} (is : session.journal = j) (listed : j ∈ w.store.identityTransitions)
  (drivable : Drivable anp hops w j) (room : j.generation + 1 < 2 ^ 64)
include is listed drivable

private theorem Drivable.valid : session.reloadAndValidate anp w.store = .ok j := by
  obtain ⟨predecessor, first, one, two⟩ := drivable.current.predecessor
  obtain ⟨successor, second, three, four⟩ := drivable.current.successor
  simp only [IdentityTransitionSession.reloadAndValidate, except_bind_ok, facade_ok, deny_ok, readIdentityTransitionJournal_ok,
    is, not_or, ne_eq, not_not]
  exact ⟨j, ⟨listed, rfl⟩, (), ⟨rfl, rfl, rfl, rfl, rfl⟩, predecessor, first, successor, second, (), ⟨one, two, three, four⟩, rfl⟩

include room

private theorem Drivable.begins (prepared : j.state = .prepared) : session.beginPublication anp w.store =
    .ok { j with state := .publicationInFlight, generation := j.generation + 1 } := by
  simp only [IdentityTransitionSession.beginPublication, except_bind_ok]
  refine ⟨j, drivable.valid is listed, ?_⟩
  simp only [prepared]
  exact IdentityTransitionJournal.moved_of_room room

private theorem Drivable.commits (flight : j.state = .publicationInFlight) :
    session.complete anp w.store j.attempt (.confirmed ⟨j.predecessorDigest, j.successorDigest⟩) =
      .ok { j with state := .committed, generation := j.generation + 1 } := by
  simp only [IdentityTransitionSession.complete, except_bind_ok, deny_ok, ne_eq, not_not, not_or]
  exact ⟨j, drivable.valid is listed, (), rfl, (), flight, (), ⟨rfl, rfl⟩, IdentityTransitionJournal.moved_of_room room⟩

private theorem Drivable.reconciles (uncertain : j.state = .publicationUncertain) :
    session.reconcile anp hops w.store (.published j.predecessorDocument j.successorDocument) =
      .ok { j with state := .committed, generation := j.generation + 1 } := by
  obtain ⟨assurance, named, hop⟩ := drivable.assurance
  simp only [IdentityTransitionSession.reconcile, except_bind_ok, deny_ok, orElse_ok, ne_eq, not_not, not_or]
  exact ⟨j, drivable.valid is listed, (), uncertain, _, drivable.predecessorDigest, _, drivable.successorDigest, (), ⟨rfl, rfl⟩,
    assurance, hop, (), named.symm, IdentityTransitionJournal.moved_of_room room⟩

end

private theorem advance_leaves {call : TransitionCall} (ran : call.run anp proofs hops w = .ok journal) :
    w.advance anp proofs hops (.transition call) =
      w.step anp (.identityTransitions (w.store.identityTransitions.insert journal)) := by
  simp [World.advance, TransitionEvent.asks, ran, Except.toOption]

private theorem advance_listed (call : TransitionCall) (ran : call.run anp proofs hops w = .ok journal) :
    journal ∈ (w.advance anp proofs hops (.transition call)).store.identityTransitions := by
  rw [advance_leaves ran]
  exact Directory.mem_insert.mpr (.inl rfl)

variable {session : IdentityTransitionSession}

/-- A publication in flight is confirmed. -/
private theorem Drivable.confirmed (is : session.journal = j) (listed : j ∈ w.store.identityTransitions)
    (drivable : Drivable anp hops w j) (room : j.generation + 1 < 2 ^ 64) (flight : j.state = .publicationInFlight) :
    Finishes anp proofs hops w session := by
  have ran := drivable.commits is listed room flight
  exact ⟨_, .single (.complete _ _ ran), fun unfinished => unfinished.1 rfl,
    advance_listed (.complete session j.attempt _) ran⟩

theorem Drivable.finishes (is : session.journal = j) (listed : j ∈ w.store.identityTransitions)
    (drivable : Drivable anp hops w j) (room : j.generation + 2 < 2 ^ 64) (unfinished : j.Unfinished) :
    Finishes anp proofs hops w session := by
  have next : j.generation + 1 < 2 ^ 64 := by omega
  cases state : j.state with
  | committed => exact absurd state unfinished.1
  | aborted => exact absurd state unfinished.2
  | publicationInFlight => exact drivable.confirmed is listed next state
  | publicationUncertain =>
    have ran := drivable.reconciles is listed next state
    exact ⟨_, .single (.reconcile _ ran), fun open' => open'.1 rfl, advance_listed (.reconcile session _) ran⟩
  | prepared =>
    have ran := drivable.begins is listed next state
    have run : TransitionCall.run anp proofs hops w (.beginPublication session) = .ok _ := ran
    have there := advance_listed _ run
    have begun : Drivable anp hops (w.advance anp proofs hops (.transition (.beginPublication session)))
        { j with state := .publicationInFlight, generation := j.generation + 1 } := by
      rw [advance_leaves run]
      refine drivable.moved _ _ (fun id named => ⟨rfl, ?_⟩)
      simp only [List.mem_cons, List.not_mem_nil, or_false] at named
      rcases named with rfl | rfl
      · exact drivable.settled.1
      · exact drivable.settled.2
    have finish : Finishes anp proofs hops _ { session with journal := _ } := begun.confirmed rfl there room rfl
    obtain ⟨after, steps, ended⟩ := finish
    exact ⟨after, .head (.beginPublication ran) steps, ended⟩

/-! ## Runs that spare the identities of a transition -/

/-- The invariant of such runs. -/
structure Resumable (anp : Anp) (hops : Hops) (w : World) : Prop where
  registers : w.Registers
  drivable : ∀ j ∈ w.store.identityTransitions, j.Unfinished → Drivable anp hops w j ∧ j.generation + 2 < 2 ^ 64

/-- An event of a run that spares the identities of a transition is about one of them only to recover it. -/
private theorem spared_engine {asked : Event} (spares : SparesHeld w (.engine asked)) (fresh : asked.Fresh w)
    (known : id ∈ w.issued) (held : w.store.heldByTransition id = true) (concerned : asked.Concerns anp w s id) :
    s.Owes id := by
  cases concerned with
  | recovered _ owes => exact owes
  | introduced drawn => exact absurd known (fresh.2 _ drawn)
  | @deleted entropy self call did record brought is =>
    obtain ⟨rfl, -, started⟩ := brought
    have removes : id ∈ call.removes w.store := by
      cases call with
      | discardUnpublishedEnrollment | deleteIdentityNamespace | deleteIdentityNamespaceDiscardingPending =>
        obtain ⟨_, deletes, same⟩ := started
        cases same
        obtain ⟨summary, registered, read⟩ := deletes.registered
        rw [readIdentity_named read] at is
        subst is
        exact Option.mem_map.mpr ⟨summary, registered, rfl⟩
      | _ => simp [StoreCall.Starts] at started
    rw [spares id removes] at held
    cases held
  | @acted entropy self call action began is =>
    obtain ⟨rfl, opened, started⟩ := began
    subst is
    have yields := spares self opened held
    cases call with
    | adoptVerifiedSiblingDocument spec =>
      obtain ⟨seen, outcome, next, current, -, -, checked, -⟩ := started
      rw [← readIdentity_named current.read] at held
      simp only [checkAdoption, except_bind_ok, reject_ok] at checked
      obtain ⟨_, -, _, -, _, -, _, free, -⟩ := checked
      exact absurd ⟨trivial, held⟩ free
    | reload => exact absurd started (by simp [IdentityCall.Starts])
    | _ => cases yields

/-- A journal of a new transition can be driven. -/
private theorem RecordsTransition.drivable {request : IdentityTransitionRequest} {predecessor successor : IdentityRecord}
    (recorded : RecordsTransition anp hops w.store request journal predecessor successor) (registers : w.Registers)
    (settled : ∀ did ∈ [request.expectedCurrentDid, request.successor.did],
      ∀ summary ∈ w.store.registry.identities did, ¬ w.store.Owes summary.identityId) :
    Drivable anp hops w journal := by
  obtain ⟨first, registered, read⟩ := recorded.registered
  obtain ⟨second, known, reads⟩ := recorded.known
  have predecessorId : journal.predecessorIdentityId = first.identityId :=
    recorded.predecessorIdentityId.trans (readIdentity_named read)
  have successorId : journal.successorIdentityId = second.identityId :=
    recorded.successorIdentityId.trans (readIdentity_named reads)
  obtain ⟨file, found, -, completed⟩ := readIdentity_ok.mp read
  have did : predecessor.did = journal.expectedCurrentDid := by
    rw [recorded.expectedCurrentDid, (Shown.mirrors (.inr completed : Shown anp file predecessor)).did]
    exact registers.named _ _ _ registered found
  refine ⟨⟨⟨predecessor, ?_, recorded.predecessorGeneration.symm, did⟩, ⟨successor, ?_, recorded.successorGeneration.symm,
    recorded.successorDid.symm⟩⟩, ⟨?_, ?_⟩, recorded.predecessorDigest, recorded.successorDigest, recorded.assurance⟩
  · rw [predecessorId]
    exact read
  · rw [successorId]
    exact reads
  · rw [predecessorId]
    exact settled _ (by simp) _ registered
  · rw [successorId]
    exact settled _ (by simp) _ known

theorem Resumable.step {event : TransitionEvent} (resumable : Resumable anp hops w) (filed : w.Filed)
    (known : ∀ j ∈ w.store.identityTransitions, j.predecessorIdentityId ∈ w.issued ∧ j.successorIdentityId ∈ w.issued)
    (fresh : ∀ asked ∈ event.asks anp proofs hops w, asked.Fresh w) (spares : SparesHeld w event) :
    Resumable anp hops (w.advance anp proofs hops event) := by
  have advance : Advance anp proofs hops w event (w.advance anp proofs hops event) := World.advance_cases event
  generalize w.advance anp proofs hops event = after at advance
  cases advance with
  | idle => exact resumable
  | @engine asked other same =>
    subst same
    have drawn : asked.Fresh w := by
      refine fresh asked ?_
      cases asked with
      | identityTransitions journals => exact absurd rfl (other journals)
      | openStore | store | identity => rfl
    refine ⟨resumable.registers.step filed drawn, fun j listed unfinished => ?_⟩
    rw [World.transitions_step other] at listed
    obtain ⟨drivable, room⟩ := resumable.drivable j listed unfinished
    obtain ⟨first, second⟩ := known j listed
    refine ⟨drivable.moved j.state j.generation (fun id named => ?_), room⟩
    simp only [List.mem_cons, List.not_mem_nil, or_false] at named
    rcases named with rfl | rfl
    · have held := heldByTransition_iff.mpr ⟨j, listed, unfinished, .inl rfl⟩
      exact World.spared_step (fun _ => spared_engine spares drawn first held) drivable.settled.1
    · have held := heldByTransition_iff.mpr ⟨j, listed, unfinished, .inr rfl⟩
      exact World.spared_step (fun _ => spared_engine spares drawn second held) drivable.settled.2
  | @leaves call journal same ran =>
    subst same
    have stays : ∀ j state generation, Drivable anp hops w j → Drivable anp hops
        (w.step anp (.identityTransitions (w.store.identityTransitions.insert journal))) { j with state, generation } := by
      intro j state generation drivable
      refine drivable.moved state generation (fun id named => ⟨rfl, ?_⟩)
      simp only [List.mem_cons, List.not_mem_nil, or_false] at named
      rcases named with rfl | rfl
      · exact drivable.settled.1
      · exact drivable.settled.2
    refine ⟨⟨resumable.registers.known, resumable.registers.named⟩, fun j listed unfinished => ?_⟩
    rcases Directory.mem_insert.mp listed with rfl | ⟨listed, -⟩
    · cases call.writes ran with
      | same kept =>
        obtain ⟨drivable, room⟩ := resumable.drivable j kept unfinished
        exact ⟨stays j j.state j.generation drivable, room⟩
      | prepared is _ _ recorded =>
        subst is
        refine ⟨stays j j.state j.generation (recorded.drivable resumable.registers spares), ?_⟩
        rw [recorded.generation]
        norm_num
      | @moved old state there open' _ _ is acts =>
        subst is
        refine ⟨stays old state _ (resumable.drivable old there open').1, ?_⟩
        have room : old.generation + 3 < 2 ^ 64 := by
          cases call with
          | prepare manager request createdAt => exact absurd rfl (acts _ _ _)
          | beginPublication | complete | reconcile => exact spares old there
        exact room
    · obtain ⟨drivable, room⟩ := resumable.drivable j listed unfinished
      exact ⟨stays j j.state j.generation drivable, room⟩

theorem resumable_run {events : List TransitionEvent}
    (advances : World.initial.Advances anp proofs hops SparesHeld events) :
    Resumable anp hops (World.initial.advances anp proofs hops events) := by
  induction events using List.reverseRecOn with
  | nil => exact ⟨⟨fun _ _ listed => (nomatch listed), fun _ _ _ listed => (nomatch listed)⟩, fun _ listed => (nomatch listed)⟩
  | append_singleton events event ih =>
    obtain ⟨before, fresh, spares, -⟩ := advances.append
    have bounded := bounded_run before
    rw [World.advances_snoc]
    exact (ih before).step bounded.filed (fun j listed => (bounded.bound j listed).known) fresh spares

theorem Drivable.fromJournal (drivable : Drivable anp hops w j) :
    ∃ session, IdentityTransitionSession.fromJournal anp j = .ok session ∧ session.journal = j := by
  have made : ∃ candidate, j.candidate anp = .ok candidate := by
    simp only [IdentityTransitionJournal.candidate, except_bind_ok, deny_ok, not_or, ne_eq, not_not]
    exact ⟨_, _, drivable.predecessorDigest, _, drivable.successorDigest, (), ⟨rfl, rfl⟩, rfl⟩
  obtain ⟨candidate, made⟩ := made
  exact ⟨⟨j, candidate⟩, except_bind_ok.mpr ⟨candidate, made, rfl⟩, rfl⟩

/-- No operation of a session succeeds once an identity of each journal has moved on. -/
theorem not_drives_of_stale {next : World × IdentityTransitionSession}
    (stale : ∀ j ∈ w.store.identityTransitions, ¬ j.Current anp w.store) : ¬ Drives anp proofs hops (w, session) next := by
  have invalid : ∀ j, session.reloadAndValidate anp w.store ≠ .ok j := by
    intro j valid
    obtain ⟨listed, current⟩ := reloadAndValidate_ok valid
    exact stale j listed current
  intro drives
  cases drives with
  | beginPublication ran | complete _ _ ran | reconcile _ ran =>
    obtain ⟨j, valid, -⟩ := except_bind_ok.mp ran
    exact invalid j valid

theorem not_finishes_of_stale (unfinished : session.journal.Unfinished)
    (stale : ∀ j ∈ w.store.identityTransitions, ¬ j.Current anp w.store) : ¬ Finishes anp proofs hops w session := by
  rintro ⟨after, steps, ended, -⟩
  cases steps.cases_head with
  | inl same => exact ended (same ▸ unfinished)
  | inr step =>
    obtain ⟨next, drives, -⟩ := step
    exact not_drives_of_stale stale drives

end

namespace Plain

/-- The predecessor of a transition gets a document change. -/
def predecessorChanged : List TransitionEvent :=
  transitionPrepared ++ [.engine (.identity 0 (.prepareUpdate serviceUpdate) (entropy "2" 5) none)]

end Plain

end AnpIdentity
