import AnpIdentity.Transition

/-! Runs with transitions. Whatever managers and sessions do, a predecessor has at most one transition that was not
aborted, a finished journal stays as it is, and a journal is committed while both identities are as they were when it
was prepared. -/

namespace AnpIdentity
open Durable Program

section
variable {anp : Anp} {proofs : Proofs} {hops : Hops} {w : World} {s : Store} {j journal : IdentityTransitionJournal}

theorem readIdentityTransitionJournal_ok {operationId : String} :
    s.readIdentityTransitionJournal operationId = .ok j ↔ j ∈ s.identityTransitions ∧ j.operationId = operationId := by
  simp only [Store.readIdentityTransitionJournal, facade_ok, okOr_ok]
  constructor
  · intro found
    exact ⟨List.mem_of_find?_eq_some found, by simpa using List.find?_some found⟩
  · rintro ⟨listed, rfl⟩
    cases found : s.identityTransitions.entries.find? (·.operationId == j.operationId) with
    | none =>
      have absent := List.find?_eq_none.mp found j listed
      simp at absent
    | some other =>
      have same : other.operationId = j.operationId := by simpa using List.find?_some found
      rw [Directory.key_injective (List.mem_of_find?_eq_some found) listed same]

@[simp] theorem nextGeneration_ok {generation next : Nat} :
    nextGeneration generation = .ok next ↔ generation + 1 < 2 ^ 64 ∧ next = generation + 1 := by
  simp [nextGeneration]

variable {state : IdentityTransitionJournalState} {session : IdentityTransitionSession}

theorem moved_ok (moved : j.moved state = .ok journal) : journal = { j with state, generation := j.generation + 1 } := by
  simp only [IdentityTransitionJournal.moved, except_bind_ok, nextGeneration_ok] at moved
  obtain ⟨_, ⟨-, rfl⟩, same⟩ := moved
  cases same
  rfl

/-- The two identities have the generations that the journal recorded. -/
structure IdentityTransitionJournal.Current (anp : Anp) (journal : IdentityTransitionJournal) (s : Store) : Prop where
  predecessor : ∃ record, s.readIdentity anp journal.predecessorIdentityId = .ok record ∧
    record.generation = journal.predecessorGeneration ∧ record.did = journal.expectedCurrentDid
  successor : ∃ record, s.readIdentity anp journal.successorIdentityId = .ok record ∧
    record.generation = journal.successorGeneration ∧ record.did = journal.successorDid

theorem reloadAndValidate_ok (valid : session.reloadAndValidate anp s = .ok j) :
    j ∈ s.identityTransitions ∧ j.Current anp s := by
  simp only [IdentityTransitionSession.reloadAndValidate, except_bind_ok, facade_ok, deny_ok, readIdentityTransitionJournal_ok,
    not_or, ne_eq, not_not] at valid
  obtain ⟨_, ⟨listed, -⟩, _, -, predecessor, first, successor, second, _, ⟨one, two, three, four⟩, same⟩ := valid
  cases same
  exact ⟨listed, ⟨predecessor, first, one, two⟩, ⟨successor, second, three, four⟩⟩

/-- What the journal of a new transition records. -/
structure RecordsTransition (anp : Anp) (hops : Hops) (s : Store) (request : IdentityTransitionRequest)
    (journal : IdentityTransitionJournal) (predecessor successor : IdentityRecord) : Prop where
  operationId : journal.operationId = request.operationId
  expectedCurrentDid : journal.expectedCurrentDid = request.expectedCurrentDid
  state : journal.state = .prepared
  generation : journal.generation = 1
  registered : ∃ summary, s.registry.identities request.expectedCurrentDid = some summary ∧
    s.readIdentity anp summary.identityId = .ok predecessor
  known : ∃ summary, s.registry.identities request.successor.did = some summary ∧
    s.readIdentity anp summary.identityId = .ok successor
  predecessorIdentityId : journal.predecessorIdentityId = predecessor.identityId
  predecessorGeneration : journal.predecessorGeneration = predecessor.generation
  trusted : journal.trustedPredecessorDocument = predecessor.document
  successorDid : journal.successorDid = successor.did
  successorIdentityId : journal.successorIdentityId = successor.identityId
  successorGeneration : journal.successorGeneration = successor.generation
  successorDocument : journal.successorDocument = successor.document
  predecessorDigest : canonicalDocumentDigest anp journal.predecessorDocument = .ok journal.predecessorDigest
  successorDigest : canonicalDocumentDigest anp journal.successorDocument = .ok journal.successorDigest
  assurance : ∃ assurance, journal.assurance = assuranceName assurance ∧
    hops.verifyTransitionHop journal.predecessorDocument journal.successorDocument
      (some journal.trustedPredecessorDocument) = .ok assurance

theorem newTransition_ok {request : IdentityTransitionRequest} {createdAt : String}
    (made : newTransition anp proofs hops s s.registry request createdAt = .ok journal) :
    ∃ predecessor successor, RecordsTransition anp hops s request journal predecessor successor := by
  simp only [newTransition, except_bind_ok, facade_ok, okOr_ok, orElse_ok] at made
  obtain ⟨first, registered, second, known, _, -, predecessor, read, successor, reads, _, -, _, -, document, -, assurance, hop,
    _, digest, _, digests, same⟩ := made
  cases same
  exact ⟨predecessor, successor, rfl, rfl, rfl, rfl, ⟨first, registered, read⟩, ⟨second, known, reads⟩, rfl, rfl, rfl, rfl,
    rfl, rfl, rfl, digest, digests, assurance, rfl, hop⟩

/-- The evidence or the observation has the digests of both candidates. -/
def TransitionCall.Matches (anp : Anp) (j : IdentityTransitionJournal) : TransitionCall → Prop
  | .complete _ _ (.confirmed evidence) =>
    evidence.predecessorDigest = j.predecessorDigest ∧ evidence.successorDigest = j.successorDigest
  | .reconcile _ (.published predecessor successor) =>
    canonicalDocumentDigest anp predecessor = .ok j.predecessorDigest ∧
      canonicalDocumentDigest anp successor = .ok j.successorDigest
  | _ => False

/-- The journals that an operation leaves. -/
inductive TransitionCall.Writes (anp : Anp) (hops : Hops) (w : World) (call : TransitionCall)
    (journal : IdentityTransitionJournal) : Prop
  | same (kept : journal ∈ w.store.identityTransitions)
  | prepared {manager : Nat} {request : IdentityTransitionRequest} {createdAt : String}
      {predecessor successor : IdentityRecord} (is : call = .prepare manager request createdAt)
      (new : ∀ old ∈ w.store.identityTransitions, old.operationId ≠ journal.operationId)
      (only : ∀ old ∈ w.store.identityTransitions, old.expectedCurrentDid = journal.expectedCurrentDid → old.state = .aborted)
      (recorded : RecordsTransition anp hops w.store request journal predecessor successor)
  | moved {old : IdentityTransitionJournal} {state : IdentityTransitionJournalState}
      (listed : old ∈ w.store.identityTransitions) (unfinished : old.Unfinished) (current : old.Current anp w.store)
      (matches' : state = .committed → call.Matches anp old)
      (is : journal = { old with state, generation := old.generation + 1 })
      (acts : ∀ manager request createdAt, call ≠ .prepare manager request createdAt)

private theorem unfinished_of_state (is : j.state = state) (first : state ≠ .committed) (second : state ≠ .aborted) :
    j.Unfinished := ⟨is ▸ first, is ▸ second⟩

private theorem beginPublication_writes (ran : session.beginPublication anp w.store = .ok journal) :
    TransitionCall.Writes anp hops w (.beginPublication session) journal := by
  obtain ⟨old, valid, ran⟩ := except_bind_ok.mp ran
  obtain ⟨listed, current⟩ := reloadAndValidate_ok valid
  split at ran
  · rename_i is
    exact .moved listed (unfinished_of_state is (by simp) (by simp)) current (by simp) (moved_ok ran) nofun
  · cases ran
    exact .same listed
  · cases ran

private theorem complete_writes {attempt : IdentityTransitionPublicationAttempt}
    {result : IdentityTransitionPublicationResult} (ran : session.complete anp w.store attempt result = .ok journal) :
    TransitionCall.Writes anp hops w (.complete session attempt result) journal := by
  obtain ⟨old, valid, ran⟩ := except_bind_ok.mp ran
  obtain ⟨listed, current⟩ := reloadAndValidate_ok valid
  obtain ⟨_, -, ran⟩ := except_bind_ok.mp ran
  obtain ⟨_, flight, ran⟩ := except_bind_ok.mp ran
  have unfinished : old.Unfinished := unfinished_of_state (not_not.mp (deny_ok.mp flight)) (by simp) (by simp)
  cases result with
  | confirmed evidence =>
    obtain ⟨_, matched, ran⟩ := except_bind_ok.mp ran
    simp only [deny_ok, not_or, ne_eq, not_not] at matched
    exact .moved listed unfinished current (fun _ => matched) (moved_ok ran) (by rintro _ _ _ ⟨⟩)
  | rejectedBeforeAcceptance | unknown => exact .moved listed unfinished current (by simp) (moved_ok ran) (by rintro _ _ _ ⟨⟩)

private theorem reconcile_writes {observation : IdentityTransitionRemoteObservation}
    (ran : session.reconcile anp hops w.store observation = .ok journal) :
    TransitionCall.Writes anp hops w (.reconcile session observation) journal := by
  obtain ⟨old, valid, ran⟩ := except_bind_ok.mp ran
  obtain ⟨listed, current⟩ := reloadAndValidate_ok valid
  obtain ⟨_, uncertain, ran⟩ := except_bind_ok.mp ran
  have unfinished : old.Unfinished := unfinished_of_state (not_not.mp (deny_ok.mp uncertain)) (by simp) (by simp)
  cases observation with
  | remoteOld document =>
    simp only [except_bind_ok] at ran
    obtain ⟨_, -, _, -, _, -, _, -, ran⟩ := ran
    exact .moved listed unfinished current (by simp) (moved_ok ran) (by rintro _ _ _ ⟨⟩)
  | published predecessor successor =>
    simp only [except_bind_ok, deny_ok, not_or, ne_eq, not_not] at ran
    obtain ⟨_, first, _, second, _, ⟨rfl, rfl⟩, _, -, _, -, ran⟩ := ran
    exact .moved listed unfinished current (fun _ => ⟨first, second⟩) (moved_ok ran) (by rintro _ _ _ ⟨⟩)

theorem TransitionCall.writes {call : TransitionCall} (ran : call.run anp proofs hops w = .ok journal) :
    call.Writes anp hops w journal := by
  cases call with
  | beginPublication session => exact beginPublication_writes ran
  | complete session attempt result => exact complete_writes ran
  | reconcile session observation => exact reconcile_writes ran
  | prepare manager request createdAt =>
    cases held : w.stores[manager]? with
    | none =>
      simp only [TransitionCall.run, held] at ran
      cases ran
    | some self =>
      simp only [TransitionCall.run, held] at ran
      obtain ⟨_, -, ran⟩ := except_bind_ok.mp ran
      obtain ⟨_, -, ran⟩ := except_bind_ok.mp ran
      split at ran
      · rename_i existing found
        split at ran
        · cases ran
          exact .same (readIdentityTransitionJournal_ok.mp found).1
        · cases ran
      · rename_i e missing
        obtain ⟨_, free, ran⟩ := except_bind_ok.mp ran
        obtain ⟨predecessor, successor, recorded⟩ := newTransition_ok ran
        refine .prepared rfl (fun old listed same => ?_) (fun old listed same => ?_) recorded
        · have found : w.store.readIdentityTransitionJournal request.operationId = .ok old :=
            readIdentityTransitionJournal_ok.mpr ⟨listed, same.trans recorded.operationId⟩
          rw [found] at missing
          cases missing
        · simp only [deny_ok, List.any_eq_true, not_exists, not_and, Bool.and_eq_true, beq_iff_eq, bne_iff_ne, ne_eq,
            not_not] at free
          exact free old listed (same.trans recorded.expectedCurrentDid)

/-! ## Identities that a journal recorded -/

/-- The file of an identity is not behind the generation, and still has the document if it is at that generation. -/
def Store.Records (s : Store) (id : String) (generation : Nat) (document : Value) : Prop :=
  ∀ file, s.identities id = some file → generation ≤ file.generation ∧ (file.generation = generation → file.document = document)

variable {event : Event} {v : Write} {id : String} {generation : Nat} {document : Value}

theorem Store.Records.congr {t : Store} (records : s.Records id generation document)
    (same : t.identities id = s.identities id) : t.Records id generation document := by
  intro file found
  rw [same] at found
  exact records file found

theorem FileMove.records (move : FileMove anp w event s v) (records : s.Records id generation document)
    (old : id ∉ event.ids) : (Medium.apply s v).Records id generation document := by
  cases move with
  | elsewhere kept => exact records.congr (by rw [kept])
  | introduce brought makes _ =>
    exact records.congr (identities_put_ne s (fun same => old (same ▸ brought.drawn makes)))
  | @rewrite file record found rewrites =>
    by_cases same : id = record.identityId
    · subst same
      obtain ⟨behind, shows⟩ := records file found
      intro other now
      rw [identities_put_self, Option.some.injEq] at now
      subst now
      rcases rewrites.identityId.2 with next | ⟨equal, -, -, kept⟩
      · exact ⟨by omega, fun equal => by omega⟩
      · exact ⟨by omega, fun reached => by rw [kept]; exact shows (by omega)⟩
    · exact records.congr (identities_put_ne s same)
  | @remove gone settled =>
    by_cases same : id = gone
    · subst same
      intro file found
      rw [identities_remove_self] at found
      cases found
    · exact records.congr (identities_remove_ne s same)

theorem World.records_step (records : w.store.Records id generation document) (known : id ∈ w.issued)
    (fresh : event.Fresh w) : (w.step anp event).store.Records id generation document := by
  have moves : Traced (FileMove anp w event) w.store (event.writes anp w) := event.fileMoves
  have after := moves.invariant (I := fun s => s.Records id generation document)
    (fun _ _ now move => move.records now (fun listed => fresh.2 _ listed known)) records
  exact after.congr (by rw [World.identities_step])

/-- Only transitions write their journals. -/
theorem World.transitions_step (other : ∀ journals, event ≠ .identityTransitions journals) :
    (w.step anp event).store.identityTransitions = w.store.identityTransitions := by
  have kept : ∀ {α : Type} (p : Tx α) (fault : Option Nat) (s : Store),
      (perform p fault s).1.identityTransitions = s.identityTransitions := by
    intro α p fault s
    rw [perform_store]
    exact applyAll_view (P := fun _ => True) (·.identityTransitions) (fun s v _ => by cases v <;> rfl) (fun _ _ => trivial) s
  cases event with
  | openStore fault => exact kept _ _ _
  | identityTransitions journals => exact absurd rfl (other journals)
  | store handle call entropy fault =>
    cases held : w.stores[handle]? with
    | none => simp only [World.step, held]
    | some self =>
      simp only [World.step, held]
      split <;> exact kept _ _ _
  | identity handle call entropy fault =>
    cases held : w.identities[handle]? with
    | none => simp only [World.step, held]
    | some self =>
      simp only [World.step, held]
      split <;> exact kept _ _ _

/-! ## Events -/

/-- What an event does: nothing, a call on the engine, or an operation that leaves a journal. -/
inductive Advance (anp : Anp) (proofs : Proofs) (hops : Hops) (w : World) (event : TransitionEvent) : World → Prop
  | idle : Advance anp proofs hops w event w
  | engine {asked : Event} (other : ∀ journals, asked ≠ .identityTransitions journals) (is : event = .engine asked) :
      Advance anp proofs hops w event (w.step anp asked)
  | leaves {call : TransitionCall} {journal : IdentityTransitionJournal} (is : event = .transition call)
      (ran : call.run anp proofs hops w = .ok journal) :
      Advance anp proofs hops w event (w.step anp (.identityTransitions (w.store.identityTransitions.insert journal)))

theorem World.advance_cases (event : TransitionEvent) : Advance anp proofs hops w event (w.advance anp proofs hops event) := by
  cases event with
  | engine asked =>
    cases asked with
    | identityTransitions journals => exact .idle
    | openStore | store | identity => exact .engine (fun _ same => by cases same) rfl
  | transition call =>
    unfold World.advance
    cases ran : call.run anp proofs hops w with
    | error e =>
      rw [show TransitionEvent.asks anp proofs hops w (.transition call) = none by simp [TransitionEvent.asks, ran, Except.toOption]]
      exact .idle
    | ok journal =>
      rw [show TransitionEvent.asks anp proofs hops w (.transition call) =
        some (.identityTransitions (w.store.identityTransitions.insert journal)) by
          simp [TransitionEvent.asks, ran, Except.toOption]]
      exact .leaves rfl ran

/-- A journal that is finished stays as it is. -/
theorem World.finished_advance (event : TransitionEvent) (listed : j ∈ w.store.identityTransitions)
    (finished : ¬ j.Unfinished) : j ∈ (w.advance anp proofs hops event).store.identityTransitions := by
  have advance : Advance anp proofs hops w event (w.advance anp proofs hops event) := World.advance_cases event
  generalize w.advance anp proofs hops event = after at advance
  cases advance with
  | idle => exact listed
  | engine other _ =>
    rw [World.transitions_step other]
    exact listed
  | @leaves call journal _ ran =>
    refine Directory.mem_insert.mpr ?_
    by_cases same : j.operationId = journal.operationId
    · left
      cases call.writes ran with
      | same kept => exact Directory.key_injective listed kept same
      | prepared _ new => exact absurd same (new j listed)
      | moved there unfinished _ _ is =>
        subst is
        rw [Directory.key_injective listed there same] at finished
        exact absurd unfinished finished
    · exact .inr ⟨listed, same⟩

end

section
variable (anp : Anp) (proofs : Proofs) (hops : Hops)

/-- Of the journals for one predecessor at most one is not aborted. -/
def Store.Exclusive (s : Store) : Prop :=
  ∀ j ∈ s.identityTransitions, ∀ k ∈ s.identityTransitions, j.expectedCurrentDid = k.expectedCurrentDid →
    j.state ≠ .aborted → k.state ≠ .aborted → j = k

/-- After `before`, the run prepares the transition of the journal, which had no journal until then. -/
def PreparedAfter (events : List TransitionEvent) (j : IdentityTransitionJournal) (before : List TransitionEvent) : Prop :=
  ∃ manager request createdAt after, events = before ++ .transition (.prepare manager request createdAt) :: after ∧
    request.operationId = j.operationId ∧ request.expectedCurrentDid = j.expectedCurrentDid ∧
    ∀ old ∈ (World.initial.advances anp proofs hops before).store.identityTransitions, old.operationId ≠ j.operationId

/-- The identity has a file in both stores, of one generation and with one document. -/
def Store.Unchanged (s t : Store) (id : String) : Prop :=
  ∃ file now, s.identities id = some file ∧ t.identities id = some now ∧ now.generation = file.generation ∧
    now.document = file.document

/-- The event commits a journal whose identities are as they were when it was prepared, on evidence or an observation
of both candidates. -/
structure CommitsBound (earlier : List TransitionEvent) (event : TransitionEvent) (j : IdentityTransitionJournal) : Prop where
  identities : ∃ before, PreparedAfter anp proofs hops earlier j before ∧
    ∀ id ∈ [j.predecessorIdentityId, j.successorIdentityId],
      (World.initial.advances anp proofs hops before).store.Unchanged (World.initial.advances anp proofs hops earlier).store id
  matched : ∃ call, event = .transition call ∧ call.Matches anp j

/-- In the store the identity was at the generation and had the document. -/
def Store.Had (s : Store) (id : String) (generation : Nat) (document : Value) : Prop :=
  ∃ file, s.identities id = some file ∧ file.generation = generation ∧ file.document = document

/-- What holds of a journal of a run: its identities are known, their files are as recorded or later, and were as
recorded when the transition was prepared. -/
structure Bound (events : List TransitionEvent) (w : World) (j : IdentityTransitionJournal) : Prop where
  known : j.predecessorIdentityId ∈ w.issued ∧ j.successorIdentityId ∈ w.issued
  predecessor : w.store.Records j.predecessorIdentityId j.predecessorGeneration j.trustedPredecessorDocument
  successor : w.store.Records j.successorIdentityId j.successorGeneration j.successorDocument
  origin : ∃ before, PreparedAfter anp proofs hops events j before ∧
    (World.initial.advances anp proofs hops before).store.Had j.predecessorIdentityId j.predecessorGeneration
      j.trustedPredecessorDocument ∧
    (World.initial.advances anp proofs hops before).store.Had j.successorIdentityId j.successorGeneration j.successorDocument

/-- The invariant of runs with transitions. -/
structure Bounded (events : List TransitionEvent) (w : World) : Prop where
  filed : w.Filed
  exclusive : w.store.Exclusive
  bound : ∀ j ∈ w.store.identityTransitions, Bound anp proofs hops events w j

end

section
variable {anp : Anp} {proofs : Proofs} {hops : Hops} {w : World} {s : Store} {j journal : IdentityTransitionJournal}
  {events : List TransitionEvent} {event : TransitionEvent} {condition : World → TransitionEvent → Prop}

theorem World.advances_snoc : w.advances anp proofs hops (events ++ [event]) =
    (w.advances anp proofs hops events).advance anp proofs hops event := List.foldl_concat ..

variable {later : List TransitionEvent} {generation : Nat} {id : String}

theorem World.advances_append : w.advances anp proofs hops (events ++ later) =
    (w.advances anp proofs hops events).advances anp proofs hops later := List.foldl_append ..

theorem World.Advances.append (advances : w.Advances anp proofs hops condition (events ++ later)) :
    w.Advances anp proofs hops condition events ∧
      (w.advances anp proofs hops events).Advances anp proofs hops condition later := by
  induction events generalizing w with
  | nil => exact ⟨trivial, advances⟩
  | cons first rest ih =>
    obtain ⟨fresh, holds, more⟩ := advances
    obtain ⟨inside, after⟩ := ih more
    exact ⟨⟨fresh, holds, inside⟩, after⟩

theorem PreparedAfter.snoc {before : List TransitionEvent} (prepared : PreparedAfter anp proofs hops events j before) :
    PreparedAfter anp proofs hops (events ++ [event]) j before := by
  obtain ⟨manager, request, createdAt, after, rfl, rest⟩ := prepared
  exact ⟨manager, request, createdAt, after ++ [event], by simp, rest⟩

/-- The files of the identities only move on, and the journal says the same about them in its next state. -/
theorem Bound.after {after : World} {state : IdentityTransitionJournalState} (bound : Bound anp proofs hops events w j)
    (known : ∀ id ∈ w.issued, id ∈ after.issued)
    (files : ∀ id generation document, id ∈ w.issued → w.store.Records id generation document →
      after.store.Records id generation document) :
    Bound anp proofs hops (events ++ [event]) after { j with state, generation } where
  known := ⟨known _ bound.known.1, known _ bound.known.2⟩
  predecessor := files _ _ _ bound.known.1 bound.predecessor
  successor := files _ _ _ bound.known.2 bound.successor
  origin := by
    obtain ⟨before, prepared, first, second⟩ := bound.origin
    have later : PreparedAfter anp proofs hops (events ++ [event]) j before := prepared.snoc
    exact ⟨before, later, first, second⟩

theorem Store.Exclusive.insert (exclusive : s.Exclusive) {t : Store}
    (is : t.identityTransitions = s.identityTransitions.insert journal)
    (only : ∀ old ∈ s.identityTransitions, old.operationId ≠ journal.operationId →
      old.expectedCurrentDid = journal.expectedCurrentDid → journal.state ≠ .aborted → old.state = .aborted) :
    t.Exclusive := by
  intro j first k second same notJ notK
  rw [is, Directory.mem_insert] at first second
  rcases first with rfl | ⟨first, different⟩
  · rcases second with rfl | ⟨second, other⟩
    · rfl
    · exact absurd (only k second other same.symm notJ) notK
  · rcases second with rfl | ⟨second, other⟩
    · exact absurd (only j first different same notK) notJ
    · exact exclusive j first k second same notJ notK

private theorem readIdentity_had {record : IdentityRecord} (read : s.readIdentity anp id = .ok record) :
    s.Had record.identityId record.generation record.document ∧ s.identities record.identityId ≠ none := by
  obtain ⟨file, found, -, completed⟩ := readIdentity_ok.mp read
  have mirrors := Shown.mirrors (.inr completed : Shown anp file record)
  rw [readIdentity_named read]
  exact ⟨⟨file, found, mirrors.generation.symm, mirrors.document.symm⟩, by rw [found]; simp⟩

theorem Store.Had.records {document : Value} (had : s.Had id generation document) : s.Records id generation document := by
  obtain ⟨file, found, rfl, rfl⟩ := had
  intro other same
  rw [found, Option.some.injEq] at same
  subst same
  exact ⟨le_refl _, fun _ => rfl⟩

/-- A new journal is bound to the records that it was made of. -/
theorem RecordsTransition.bound {manager : Nat} {request : IdentityTransitionRequest} {createdAt : String}
    {predecessor successor : IdentityRecord} {after : World}
    (recorded : RecordsTransition anp hops w.store request journal predecessor successor) (filed : w.Filed)
    (is : w = World.initial.advances anp proofs hops events)
    (new : ∀ old ∈ w.store.identityTransitions, old.operationId ≠ journal.operationId) (issued : after.issued = w.issued)
    (files : after.store.identities = w.store.identities) :
    Bound anp proofs hops (events ++ [.transition (.prepare manager request createdAt)]) after journal := by
  obtain ⟨_, -, read⟩ := recorded.registered
  obtain ⟨_, -, reads⟩ := recorded.known
  obtain ⟨had, present⟩ := readIdentity_had read
  obtain ⟨has, there⟩ := readIdentity_had reads
  rw [← recorded.predecessorIdentityId, ← recorded.predecessorGeneration, ← recorded.trusted] at had
  rw [← recorded.successorIdentityId, ← recorded.successorGeneration, ← recorded.successorDocument] at has
  rw [← recorded.predecessorIdentityId] at present
  rw [← recorded.successorIdentityId] at there
  obtain ⟨_, first⟩ := Option.ne_none_iff_exists'.mp present
  obtain ⟨_, second⟩ := Option.ne_none_iff_exists'.mp there
  refine ⟨?_, had.records.congr (by rw [files]), has.records.congr (by rw [files]), events, ?_, ?_, ?_⟩
  · rw [issued]
    exact ⟨filed.drawn _ _ first, filed.drawn _ _ second⟩
  · exact ⟨manager, request, createdAt, [], rfl, recorded.operationId.symm, recorded.expectedCurrentDid.symm, is ▸ new⟩
  · exact is ▸ had
  · exact is ▸ has

theorem Bounded.step (bounded : Bounded anp proofs hops events w) (is : w = World.initial.advances anp proofs hops events)
    (fresh : ∀ asked ∈ event.asks anp proofs hops w, asked.Fresh w) :
    Bounded anp proofs hops (events ++ [event]) (w.advance anp proofs hops event) := by
  have advance : Advance anp proofs hops w event (w.advance anp proofs hops event) := World.advance_cases event
  generalize w.advance anp proofs hops event = after at advance
  cases advance with
  | idle =>
    refine ⟨bounded.filed, bounded.exclusive, fun j listed => ?_⟩
    exact (bounded.bound j listed).after (fun _ known => known) (fun _ _ _ _ records => records)
  | @engine asked other same =>
    have steps : w.Steps anp asked (w.step anp asked) := World.steps asked
    have drawn : asked.Fresh w := by
      refine fresh asked ?_
      subst same
      cases asked with
      | identityTransitions journals => exact absurd rfl (other journals)
      | openStore | store | identity => rfl
    refine ⟨bounded.filed.step asked, ?_, ?_⟩
    · unfold Store.Exclusive
      rw [World.transitions_step other]
      exact bounded.exclusive
    · rw [World.transitions_step other]
      exact fun j listed => (bounded.bound j listed).after steps.kept (fun _ _ _ known records =>
        World.records_step records known drawn)
  | @leaves call journal same ran =>
    subst same
    have stays : ∀ {j}, j ∈ w.store.identityTransitions → ∀ {state generation}, Bound anp proofs hops
        (events ++ [.transition call]) (w.step anp (.identityTransitions (w.store.identityTransitions.insert journal)))
        { j with state, generation } := fun listed _ _ =>
      (bounded.bound _ listed).after (fun _ known => known) (fun _ _ _ _ records => records)
    have filed : (w.step anp (.identityTransitions (w.store.identityTransitions.insert journal))).Filed :=
      bounded.filed.step _
    cases call.writes ran with
    | same kept =>
      refine ⟨filed, bounded.exclusive.insert rfl (fun old listed different same notAborted => ?_), fun j listed => ?_⟩
      · by_contra alive
        exact different (congrArg _ (bounded.exclusive old listed journal kept same alive notAborted))
      · rcases Directory.mem_insert.mp listed with rfl | ⟨listed, -⟩
        · exact stays kept
        · exact stays listed
    | prepared is' new only recorded =>
      subst is'
      refine ⟨filed, bounded.exclusive.insert rfl (fun old listed _ same _ => only old listed same), fun j listed => ?_⟩
      rcases Directory.mem_insert.mp listed with rfl | ⟨listed, -⟩
      · exact recorded.bound bounded.filed is new rfl rfl
      · exact stays listed
    | @moved old state there unfinished current matches' is' =>
      subst is'
      refine ⟨filed, bounded.exclusive.insert rfl (fun other listed different same _ => ?_), fun j listed => ?_⟩
      · by_contra alive
        have equal := bounded.exclusive other listed old there same alive unfinished.2
        exact different (by rw [equal])
      · rcases Directory.mem_insert.mp listed with rfl | ⟨listed, -⟩
        · exact stays there
        · exact stays listed

theorem bounded_run (advances : World.initial.Advances anp proofs hops condition events) :
    Bounded anp proofs hops events (World.initial.advances anp proofs hops events) := by
  induction events using List.reverseRecOn with
  | nil => exact ⟨World.filed_initial, fun j listed => (nomatch listed), fun j listed => (nomatch listed)⟩
  | append_singleton events event ih =>
    obtain ⟨before, fresh, -⟩ := advances.append
    rw [World.advances_snoc]
    exact (ih before).step rfl fresh

theorem World.finished_advances (listed : j ∈ w.store.identityTransitions) (finished : ¬ j.Unfinished) :
    j ∈ (w.advances anp proofs hops events).store.identityTransitions := by
  induction events generalizing w with
  | nil => exact listed
  | cons event rest ih => exact ih (World.finished_advance event listed finished)

private theorem Current.unchanged {document : Value} {t : Store} (had : t.Had id generation document)
    (records : s.Records id generation document)
    (current : ∃ record, s.readIdentity anp id = .ok record ∧ record.generation = generation) : t.Unchanged s id := by
  obtain ⟨file, found, rfl, rfl⟩ := had
  obtain ⟨record, read, same⟩ := current
  obtain ⟨now, present, -, completed⟩ := readIdentity_ok.mp read
  have mirrors := Shown.mirrors (.inr completed : Shown anp now record)
  have reached : now.generation = file.generation := mirrors.generation.symm.trans same
  exact ⟨file, now, found, present, reached, (records now present).2 reached⟩

/-- A journal that an event commits. -/
theorem Bounded.commits (bounded : Bounded anp proofs hops events (World.initial.advances anp proofs hops events))
    (listed : j ∈ (World.initial.advances anp proofs hops (events ++ [event])).store.identityTransitions)
    (new : j ∉ (World.initial.advances anp proofs hops events).store.identityTransitions)
    (committed : j.state = .committed) : CommitsBound anp proofs hops events event j := by
  rw [World.advances_snoc] at listed
  generalize is : World.initial.advances anp proofs hops events = w at bounded listed new
  have advance : Advance anp proofs hops w event (w.advance anp proofs hops event) := World.advance_cases event
  generalize w.advance anp proofs hops event = after at advance listed
  cases advance with
  | idle => exact absurd listed new
  | engine other _ =>
    rw [World.transitions_step other] at listed
    exact absurd listed new
  | @leaves call journal same ran =>
    rcases Directory.mem_insert.mp listed with rfl | ⟨old, -⟩
    · cases call.writes ran with
      | same kept => exact absurd kept new
      | prepared _ _ _ recorded =>
        rw [recorded.state] at committed
        cases committed
      | @moved old state there unfinished current matches' is' =>
        subst is'
        have bound := bounded.bound old there
        obtain ⟨before, prepared, first, second⟩ := bound.origin
        obtain ⟨record, read, one, -⟩ := current.predecessor
        obtain ⟨record', reads, two, -⟩ := current.successor
        refine ⟨⟨before, prepared, fun id named => ?_⟩, call, same, ?_⟩
        · rw [is]
          simp only [List.mem_cons, List.not_mem_nil, or_false] at named
          rcases named with rfl | rfl
          · exact Current.unchanged first bound.predecessor ⟨record, read, one⟩
          · exact Current.unchanged second bound.successor ⟨record', reads, two⟩
        · exact matches' committed
    · exact absurd old new

end

/-- In every run of managers and sessions on one store: of the journals for one predecessor at most one is not aborted,
a committed or aborted journal stays as it is, and a journal is committed only while both identities have the
generations and documents that they had when it was prepared, on evidence that matches both candidates. -/
theorem transitions_exclusive_and_bound {anp : Anp} {proofs : Proofs} {hops : Hops} {events : List TransitionEvent}
    (advances : World.initial.Advances anp proofs hops (fun _ _ => True) events) :
    (World.initial.advances anp proofs hops events).store.Exclusive ∧
    (∀ earlier later, events = earlier ++ later →
      ∀ j ∈ (World.initial.advances anp proofs hops earlier).store.identityTransitions,
        j.state = .committed ∨ j.state = .aborted →
          j ∈ (World.initial.advances anp proofs hops events).store.identityTransitions) ∧
    (∀ earlier event later, events = earlier ++ event :: later →
      ∀ j ∈ (World.initial.advances anp proofs hops (earlier ++ [event])).store.identityTransitions,
        j ∉ (World.initial.advances anp proofs hops earlier).store.identityTransitions → j.state = .committed →
          CommitsBound anp proofs hops earlier event j) := by
  refine ⟨(bounded_run advances).exclusive, ?_, ?_⟩
  · rintro earlier later rfl j listed finished
    rw [World.advances_append]
    exact World.finished_advances listed (fun unfinished => finished.elim unfinished.1 unfinished.2)
  · rintro earlier event later rfl j listed new committed
    exact (bounded_run advances.append.1).commits listed new committed

namespace Plain

/-- The DID of a document without its last segment. -/
def stablePath (document : Value) : Option (List Char) :=
  (document.getStr "id").map (fun did => did.toList.reverse.dropWhile (· ≠ ':'))

/-- A hop keeps the stable path. -/
def hops : Hops where
  verifyActiveE1Document did document := if document.getStr "id" = some did then .ok () else .error ()
  verifyTransitionHop predecessor successor _ :=
    if stablePath predecessor = stablePath successor then .ok .verified else .error ()

/-- An E1 identity with a root key and a request-signing key. -/
def e1Spec : DidCreateSpec where
  profile := .e1
  domain := "a.b"
  port := none
  pathSegments := ["x"]
  managedKeys := [{ fragment := "r", role := .rootControl }, { fragment := "k", role := .requestSigning }]
  agentDescriptionUrl := none

/-- Two identities of one stable path are created, and a transition from the first to the second is prepared. -/
def transitionPrepared : List TransitionEvent :=
  [.engine (.openStore none), .engine (.store 0 (.createIdentity e1Spec) (entropy "0" 1) none),
   .engine (.store 0 (.createIdentity e1Spec) (entropy "1" 3) none),
   .transition (.prepare 0 ⟨"did:wba:a.b:x:e1_993", "t", ⟨"i1", "did:wba:a.b:x:e1_1057"⟩, none⟩ "now")]

def transitionSessions (events : List TransitionEvent) : List IdentityTransitionSession :=
  (World.initial.advances anp proofs hops events).store.identityTransitions.entries.filterMap
    (fun journal => (IdentityTransitionSession.fromJournal anp journal).toOption)

/-- The run goes on with one operation of every session. -/
def withSessions (events : List TransitionEvent) (call : IdentityTransitionSession → TransitionCall) : List TransitionEvent :=
  events ++ (transitionSessions events).map (fun session => .transition (call session))

def transitionCommitted : List TransitionEvent :=
  withSessions (withSessions transitionPrepared .beginPublication) (fun session =>
    .complete session session.journal.attempt
      (.confirmed ⟨session.journal.predecessorDigest, session.journal.successorDigest⟩))

end Plain

theorem transitions_exclusive_and_bound_committed :
    let w := World.initial.advances Plain.anp Plain.proofs Plain.hops Plain.transitionCommitted
    World.initial.Advances Plain.anp Plain.proofs Plain.hops (fun _ _ => True) Plain.transitionCommitted ∧
      w.store.identityTransitions.entries.map (·.state) = [.committed] ∧ w.store.Exclusive := by
  intro w
  have advances : World.initial.Advances Plain.anp Plain.proofs Plain.hops (fun _ _ => True) Plain.transitionCommitted := by
    decide +kernel
  exact ⟨advances, by decide +kernel, (transitions_exclusive_and_bound advances).1⟩

end AnpIdentity
