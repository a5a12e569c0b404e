import AnpIdentity.Ledger.Turns

/-! The invariant of engines that share a ledger: what each thread may rely on between its steps. -/

namespace AnpIdentity.Ledger
open Durable Relation

/-- The identifiers that have been drawn. -/
def supply (platform : Platform) (drawn : Nat) (id : String) : Prop := ∃ k < drawn, id = platform.randomUUID k

/-- A ledger and a later one. A ledger that can be read and has the same generation is the same. -/
structure Later (s t : AuthorizationState) : Prop where
  le : s.generation ≤ t.generation
  same : t.generation = s.generation → t.generation ≤ maxSafeInteger → t = s
  changes : Changes (fun _ => True) s t

theorem Later.refl (s : AuthorizationState) : Later s s := ⟨Nat.le_refl _, fun _ _ => rfl, .refl⟩

variable {s : AuthorizationState}

theorem Later.trans {r t : AuthorizationState} (first : Later r s) (second : Later s t) : Later r t := by
  refine ⟨first.le.trans second.le, ?_, first.changes.trans second.changes⟩
  intro equal counted
  have middle : t.generation = s.generation := Nat.le_antisymm (equal ▸ first.le) second.le
  rw [second.same middle counted]
  exact first.same (middle.symm.trans equal) (middle ▸ counted)

theorem Writes.later {platform : Platform} {thread : Thread} {grounds : Deed → Prop} {written : AuthorizationState}
    (writes : Writes platform thread grounds (some s) written) : Later s written := by
  obtain ⟨t, _, changes, rfl⟩ := writes
  have all : Changes (fun _ => True) s t := changes.mono (fun _ _ => trivial)
  refine ⟨le_successor _, fun equal counted => ?_, all.tail (.renumbered trivial _)⟩
  have equal : successor s.generation = s.generation := equal
  exact absurd equal (by rw [successor_safe counted]; omega)

section
variable {platform : Platform} {thread : Thread} {grounds : Deed → Prop}

variable {written : List AuthorizationState} {file : Option AuthorizationState}

/-- Writes over a ledger lead to a later one. -/
theorem traced_later {s : AuthorizationState} (traced : Traced (Writes platform thread grounds) (some s) written) :
    ∃ t, applyAll (some s) written = some t ∧ Later s t := by
  induction written generalizing s with
  | nil => exact ⟨s, rfl, .refl s⟩
  | cons first rest ih =>
    obtain ⟨t, same, more⟩ := ih traced.2
    exact ⟨t, same, traced.1.later.trans more⟩

/-- Whatever is written, the ledger comes from the empty one. -/
theorem traced_ledger (traced : Traced (Writes platform thread grounds) file written)
    (known : ∀ s, file = some s → Changes (fun _ => True) .empty s) :
    ∀ t, applyAll file written = some t → Changes (fun _ => True) .empty t := by
  cases file with
  | some s =>
    obtain ⟨t, same, later⟩ := traced_later traced
    intro t' is
    cases same.symm.trans is
    exact (known s rfl).trans later.changes
  | none =>
    cases written with
    | nil => exact fun t no => nomatch no
    | cons first rest =>
      obtain rfl : first = .empty := traced.1
      obtain ⟨t, same, later⟩ := traced_later traced.2
      intro t' is
      cases same.symm.trans is
      exact later.changes

theorem traced_issued {pool : String → Prop} (ground : ∀ id, grounds (.issue id) → pool id)
    (traced : Traced (Writes platform thread grounds) file written) (known : ∀ s, file = some s → s.Issued pool) :
    ∀ t, applyAll file written = some t → t.Issued pool := by
  refine Traced.invariant (I := fun file => ∀ s, file = some s → s.Issued pool) ?_ known traced
  intro file w known writes t is
  cases is
  cases file with
  | none =>
    obtain rfl : w = .empty := writes
    intro grant listed
    cases listed
  | some s =>
    obtain ⟨t, _, changes, rfl⟩ := writes
    exact changes.issued ground (known s rfl)

end

namespace Engine
variable {platform : Platform}

/-- The ledgers that an event writes, in order. -/
def written (platform : Platform) (e : Engine) : Event → List AuthorizationState
  | .advance i answers fault =>
    match e.threads[i]? with
    | none => []
    | some thread =>
      match thread.turn platform (e.draw platform answers) e.epoch with
      | .critical body _ =>
        if ¬ e.isFree platform i thread then []
        else
          match fault with
          | some n => (body.writes e.file).take n
          | none => body.writes e.file
      | _ => []
  | _ => []

theorem step_file (e : Engine) (event : Event) :
    (e.step platform event).file = applyAll e.file (e.written platform event) := by
  cases event with
  | call options call =>
    simp only [step, written]
    split <;> rfl
  | change i =>
    simp only [step, written]
    split <;> rfl
  | crash i =>
    simp only [step, written]
    split <;> rfl
  | advance i answers fault =>
    simp only [step, written]
    cases e.threads[i]? with
    | none => rfl
    | some thread =>
      dsimp only
      cases thread.turn platform (e.draw platform answers) e.epoch with
      | rest | proceed _ | invoke _ => rfl
      | critical body onError =>
        dsimp only
        by_cases busy : ¬ e.isFree platform i thread
        · rw [if_pos busy, if_pos busy]
          rfl
        · rw [if_neg busy, if_neg busy]
          cases fault with
          | some n => rfl
          | none =>
            dsimp only
            split <;> rfl

/-- How a thread comes to be where it is after an event. -/
inductive Moved (platform : Platform) (e : Engine) (j : Nat) (thread : Thread) : Event → Prop
  | kept (event : Event) (listed : e.threads[j]? = some thread) : Moved platform e j thread event
  | called {options : AuthorizationOptions} {call checked : Call} (checks : call.checked platform = .ok checked)
      (is : thread = ⟨options, checked, .starting 0⟩) : Moved platform e j thread (.call options call)
  | rejected {options : AuthorizationOptions} {call : Call} {error : EngineError}
      (checks : call.checked platform = .error error) (is : thread = ⟨options, call, .failed error⟩) :
    Moved platform e j thread (.call options call)
  | crashed {old : Thread} (listed : e.threads[j]? = some old) (is : thread = { old with phase := .failed .thrown }) :
    Moved platform e j thread (.crash j)
  | proceeded {old : Thread} {answers : Answers} {fault : Option Nat} {phase : Phase} (listed : e.threads[j]? = some old)
      (turn : old.turn platform (e.draw platform answers) e.epoch = .proceed phase) (is : thread = { old with phase }) :
    Moved platform e j thread (.advance j answers fault)
  | invoked {old : Thread} {answers : Answers} {fault : Option Nat} {creation : Creation}
      (listed : e.threads[j]? = some old)
      (turn : old.turn platform (e.draw platform answers) e.epoch = .invoke creation)
      (is : thread = { old with phase := .creating creation }) : Moved platform e j thread (.advance j answers fault)
  | failed {old : Thread} {answers : Answers} {fault : Option Nat} {body : Section (Phase × Option Commit)}
      {onError : EngineError → Phase} {error : EngineError} (listed : e.threads[j]? = some old)
      (turn : old.turn platform (e.draw platform answers) e.epoch = .critical body onError)
      (result : error = .thrown ∨ body.result e.file = .error error) (is : thread = { old with phase := onError error }) :
    Moved platform e j thread (.advance j answers fault)
  | landed {old : Thread} {answers : Answers} {body : Section (Phase × Option Commit)}
      {onError : EngineError → Phase} {phase : Phase} {commit : Option Commit} (listed : e.threads[j]? = some old)
      (turn : old.turn platform (e.draw platform answers) e.epoch = .critical body onError)
      (free : e.isFree platform j old = true) (returned : body.result e.file = .ok (phase, commit))
      (is : thread = { old with phase }) : Moved platform e j thread (.advance j answers none)

variable {e : Engine} {thread : Thread}

/-- The threads after thread `i` has moved on. -/
private theorem settled_thread {i j : Nat} {old : Thread} {phase : Phase} (listed : e.threads[i]? = some old)
    (inside : (e.threads.set i { old with phase })[j]? = some thread) :
    e.threads[j]? = some thread ∨ (j = i ∧ thread = { old with phase }) := by
  by_cases same : j = i
  · subst same
    rw [List.getElem?_set_self (List.getElem?_eq_some_iff.mp listed).1] at inside
    cases inside
    exact .inr ⟨rfl, rfl⟩
  · rw [List.getElem?_set_ne (Ne.symm same)] at inside
    exact .inl inside

private theorem added_thread {j : Nat} {new : Thread} (inside : (e.threads ++ [new])[j]? = some thread) :
    e.threads[j]? = some thread ∨ thread = new := by
  by_cases old : j < e.threads.length
  · rw [List.getElem?_append_left old] at inside
    exact .inl inside
  · rw [List.getElem?_append_right (Nat.le_of_not_lt old)] at inside
    exact .inr (List.mem_singleton.mp (List.mem_of_getElem? inside))

theorem step_moved {event : Event} {j : Nat} (inside : (e.step platform event).threads[j]? = some thread) :
    Moved platform e j thread event := by
  cases event with
  | call options call =>
    simp only [step] at inside
    split at inside
    · rename_i checks
      exact (added_thread inside).elim (.kept _) (.called checks)
    · rename_i checks
      exact (added_thread inside).elim (.kept _) (.rejected checks)
  | change i =>
    simp only [step] at inside
    split at inside <;> exact .kept _ inside
  | crash i =>
    simp only [step] at inside
    split at inside
    · rename_i old listed
      rcases settled_thread listed inside with kept | ⟨rfl, is⟩
      · exact .kept _ kept
      · exact .crashed listed is
    · exact .kept _ inside
  | advance i answers fault =>
    simp only [step] at inside
    cases listed : e.threads[i]? with
    | none =>
      simp only [listed] at inside
      exact .kept _ inside
    | some old =>
      simp only [listed] at inside
      cases turn : old.turn platform (e.draw platform answers) e.epoch with
      | rest =>
        simp only [turn] at inside
        exact .kept _ inside
      | proceed next =>
        simp only [turn] at inside
        rcases settled_thread listed inside with kept | ⟨rfl, is⟩
        · exact .kept _ kept
        · exact .proceeded listed turn is
      | invoke creation =>
        simp only [turn] at inside
        rcases settled_thread listed inside with kept | ⟨rfl, is⟩
        · exact .kept _ kept
        · exact .invoked listed turn is
      | critical body onError =>
        simp only [turn] at inside
        by_cases busy : ¬ e.isFree platform i old
        · rw [if_pos busy] at inside
          exact .kept _ inside
        · rw [if_neg busy] at inside
          rw [not_not] at busy
          cases fault with
          | some n =>
            rcases settled_thread listed inside with kept | ⟨rfl, is⟩
            · exact .kept _ kept
            · exact .failed listed turn (.inl rfl) is
          | none =>
            dsimp only at inside
            cases returned : body.result e.file with
            | error error =>
              simp only [returned] at inside
              rcases settled_thread listed inside with kept | ⟨rfl, is⟩
              · exact .kept _ kept
              · exact .failed listed turn (.inr returned) is
            | ok landing =>
              obtain ⟨phase, commit⟩ := landing
              simp only [returned] at inside
              rcases settled_thread listed inside with kept | ⟨rfl, is⟩
              · exact .kept _ kept
              · exact .landed listed turn busy returned is

end Engine

/-! ## What a thread relies on -/

/-- A snapshot that a thread holds. If the ledger can be read and still has its generation, the ledger is the snapshot,
the catalog has not been changed since, and is not being changed. -/
structure Snapshot (platform : Platform) (e : Engine) (base : AuthorizationState) (epoch : Nat) : Prop where
  issued : base.Issued (supply platform e.drawn)
  current : ∃ s, e.file = some s ∧ base.generation ≤ s.generation ∧
    (s.generation = base.generation → s.generation ≤ maxSafeInteger → s = base ∧ e.epoch = epoch ∧ e.holder = none)

def Phase.Sound (platform : Platform) (e : Engine) (i : Nat) (options : AuthorizationOptions) (call : Call) : Phase → Prop
  | .evaluating _ base epoch => Snapshot platform e base epoch
  | .committing _ base answers next reply epoch => Snapshot platform e base epoch ∧
      (∃ action, call.evaluation platform options answers = some action ∧ action base = .ok (next, reply)) ∧
      Changes (call.grounds answers) base next ∧ supply platform e.drawn answers.uuid
  | .approved creation => Recorded e.file creation ∧ ∃ input, call = .decideRequest input
  | .creating creation => Recorded e.file creation ∧ ∃ input, call = .decideRequest input
  | .finishing requestId _ =>
      (Decided e.file requestId ∧ ∃ input, call = .decideRequest input) ∨ ∃ id, call = .reconcileCreation id
  | .uncertain requestId => Decided e.file requestId ∧ ∃ input, call = .decideRequest input
  | .changing held => e.file = some held ∧ e.holder = some i ∧ ∃ identity, call = .withIdentityAccess identity
  | .executing target | .completing target =>
      Closed e.file target ∧ e.deletions (platform.digest (.target target)) = some i ∧ call = .withIdentityDeletion target
  | .reconciling _ => ∃ requestId, call = .reconcileCreation requestId
  | .starting _ | .returned _ | .failed _ => True

structure Engine.Sound (platform : Platform) (e : Engine) : Prop where
  ledger : ∀ s, e.file = some s → Changes (fun _ => True) .empty s
  issued : ∀ s, e.file = some s → s.Issued (supply platform e.drawn)
  threads : ∀ (i : Nat) (thread : Thread), e.threads[i]? = some thread →
    thread.phase.Sound platform e i thread.options thread.call

theorem supply.mono {platform : Platform} {n m : Nat} (le : n ≤ m) {id : String} (drawn : supply platform n id) :
    supply platform m id := by
  obtain ⟨k, less, same⟩ := drawn
  exact ⟨k, Nat.lt_of_lt_of_le less le, same⟩

theorem empty_distinct : AuthorizationState.empty.Distinct := ⟨.nil, .nil, .nil⟩

/-- What a step of another thread leaves to thread `j`. -/
structure Engine.Passes (e e' : Engine) (j : Nat) : Prop where
  file : ∀ s, e.file = some s → ∃ t, e'.file = some t ∧ Later s t
  frozen : e.holder = some j → e'.file = e.file ∧ e'.holder = some j
  deletions : ∀ path, e.deletions path = some j → e'.deletions path = some j
  drawn : e.drawn ≤ e'.drawn
  still : ∀ s, e.file = some s → e'.file = some s → s.generation ≤ maxSafeInteger → e.holder = none →
    e'.holder = none ∧ e'.epoch = e.epoch

section
variable {platform : Platform} {e e' : Engine} {j : Nat}

theorem Snapshot.passes (passes : e.Passes e' j) {base : AuthorizationState} {epoch : Nat}
    (snapshot : Snapshot platform e base epoch) : Snapshot platform e' base epoch := by
  obtain ⟨s, read, le, same⟩ := snapshot.current
  obtain ⟨t, read', later⟩ := passes.file s read
  refine ⟨fun grant listed => (snapshot.issued grant listed).mono passes.drawn, t, read', le.trans later.le, ?_⟩
  intro equal counted
  obtain rfl : t = s := later.same (Nat.le_antisymm (equal ▸ le) later.le) counted
  obtain ⟨is, unchanged, free⟩ := same equal counted
  obtain ⟨free', unchanged'⟩ := passes.still t read read' counted free
  exact ⟨is, unchanged'.trans unchanged, free'⟩

section
variable {file after : Option AuthorizationState} (files : ∀ s, file = some s → ∃ t, after = some t ∧ Later s t)
include files

theorem Decided.later {requestId : String} (decided : Decided file requestId) : Decided after requestId := by
  obtain ⟨s, req, read, listed, named, settled⟩ := decided
  obtain ⟨t, read', later⟩ := files s read
  obtain ⟨req', listed', tracks⟩ := later.changes.tracks listed
  exact ⟨t, req', read', listed', tracks.id.trans named, (tracks.settled settled).1 ▸ settled⟩

theorem Recorded.later {creation : Creation} (recorded : Recorded file creation) : Recorded after creation := by
  obtain ⟨s, req, read, listed, is⟩ := recorded
  obtain ⟨t, read', later⟩ := files s read
  obtain ⟨req', listed', tracks⟩ := later.changes.tracks listed
  exact ⟨t, req', read', listed', tracks.creation is⟩

theorem Closed.later {target : IdentityReference} (closed : Closed file target) : Closed after target := by
  obtain ⟨s, read, fence, quiet⟩ := closed
  obtain ⟨t, read', later⟩ := files s read
  exact ⟨t, read', later.changes.keeps_fence fence, later.changes.keeps_quiet fence quiet⟩

end

theorem Phase.Sound.passes (passes : e.Passes e' j) {options : AuthorizationOptions} {call : Call} {phase : Phase}
    (sound : phase.Sound platform e j options call) : phase.Sound platform e' j options call := by
  cases phase with
  | starting _ | returned _ | failed _ => trivial
  | reconciling _ => exact sound
  | evaluating _ _ _ => exact Snapshot.passes passes sound
  | committing _ _ _ _ _ _ =>
    exact ⟨sound.1.passes passes, sound.2.1, sound.2.2.1, sound.2.2.2.mono passes.drawn⟩
  | approved _ | creating _ => exact ⟨sound.1.later passes.file, sound.2⟩
  | finishing _ _ => exact sound.imp_left (fun decided => ⟨decided.1.later passes.file, decided.2⟩)
  | uncertain _ => exact ⟨sound.1.later passes.file, sound.2⟩
  | changing _ =>
    obtain ⟨same, held⟩ := passes.frozen sound.2.1
    exact ⟨same.trans sound.1, held, sound.2.2⟩
  | executing _ | completing _ => exact ⟨sound.1.later passes.file, passes.deletions _ sound.2.1, sound.2.2⟩

/-- What the invariant says of a thread before its next critical section. -/
theorem Engine.Sound.ready (sound : e.Sound platform) {i : Nat} {thread : Thread} (listed : e.threads[i]? = some thread) :
    thread.Ready platform e.file := by
  have phase := sound.threads i thread listed
  refine ⟨fun s read => (sound.ledger s read).distinct empty_distinct, ?_, ?_, ?_, ?_⟩
  · intro attempt base evaluated next reply epoch is
    rw [is] at phase
    obtain ⟨snapshot, evaluation, changes, _⟩ := phase
    refine ⟨fun s read counted same => ?_, evaluation, changes⟩
    obtain ⟨s', read', _, current⟩ := snapshot.current
    cases read.symm.trans read'
    exact (current same counted).1
  · intro requestId is
    rw [is] at phase
    exact phase.1
  · intro held is
    rw [is] at phase
    exact ⟨phase.1, phase.2.2⟩
  · intro target is
    rw [is] at phase
    exact ⟨phase.1, phase.2.2⟩

end

/-! ## Steps -/

namespace Engine
variable {platform : Platform} {e : Engine} {i j : Nat} {thread : Thread} {phase : Phase}

@[simp] theorem settle_file : (e.settle platform i thread phase).file = e.file := rfl
@[simp] theorem settle_epoch : (e.settle platform i thread phase).epoch = e.epoch := rfl
@[simp] theorem settle_drawn : (e.settle platform i thread phase).drawn = e.drawn := rfl

theorem settle_self (listed : e.threads[i]? = some thread) :
    (e.settle platform i thread phase).threads[i]? = some { thread with phase } := by
  obtain ⟨bound, _⟩ := List.getElem?_eq_some_iff.mp listed
  simp [settle, bound]

theorem settle_other (different : j ≠ i) : (e.settle platform i thread phase).threads[j]? = e.threads[j]? := by
  simp [settle, different.symm]

theorem isFree_holder (free : e.isFree platform i thread = true) : e.holder = none ∨ e.holder = some i := by
  simpa [isFree] using (Bool.and_eq_true_iff.mp free).1

variable {after : Option AuthorizationState} {created : List Creation} {answers : Answers}

/-- What the step of thread `i` into a phase leaves to another thread, when the file becomes `after`. -/
theorem settle_passes {drawn : Nat} (different : j ≠ i) (le : e.drawn ≤ drawn)
    (file : ∀ s, e.file = some s → ∃ t, after = some t ∧ Later s t)
    (holder : after = e.file ∨ e.holder = none ∨ e.holder = some i)
    (changing : phase.isChanging → (e.holder = none ∨ e.holder = some i) ∧
      ∀ s, e.file = some s → s.generation ≤ maxSafeInteger → after ≠ some s)
    (deletion : ∀ path, phase.deletion platform = some path → e.deletions path = none ∨ e.deletions path = some i) :
    e.Passes { e.settle platform i thread phase with file := after, drawn, created } j := by
  refine ⟨file, ?_, ?_, le, ?_⟩
  · intro held
    have apart : ¬ (e.holder = none ∨ e.holder = some i) := by
      rw [held]
      simpa using different
    have idle : ¬ phase.isChanging := fun is => apart (changing is).1
    refine ⟨holder.resolve_right apart, ?_⟩
    simp [settle, idle, held, different]
  · intro path held
    have apart : phase.deletion platform ≠ some path := by
      intro is
      have taken := deletion path is
      rw [held] at taken
      simp [different] at taken
    simp [settle, apart, held, different]
  · intro s read same counted free
    have idle : ¬ phase.isChanging := fun is => (changing is).2 s read counted same
    simp [settle, idle, free]

/-- A thread that moved on soundly leaves a sound engine. -/
private theorem Sound.settled {drawn : Nat} (sound : e.Sound platform)
    (passes : ∀ j, j ≠ i → e.Passes { e.settle platform i thread phase with file := after, drawn, created } j)
    (ledger : ∀ s, after = some s → Changes (fun _ => True) .empty s)
    (issued : ∀ s, after = some s → s.Issued (supply platform drawn))
    (listed : e.threads[i]? = some thread)
    (moved : phase.Sound platform { e.settle platform i thread phase with file := after, drawn, created } i
      thread.options thread.call) :
    Sound platform { e.settle platform i thread phase with file := after, drawn, created } := by
  refine ⟨ledger, issued, ?_⟩
  intro j other inside
  by_cases same : j = i
  · subst same
    have self : (e.settle platform j thread phase).threads[j]? = some { thread with phase } := settle_self listed
    cases self.symm.trans inside
    exact moved
  · have kept : (e.settle platform i thread phase).threads[j]? = e.threads[j]? := settle_other same
    exact (sound.threads j other (kept.symm.trans inside)).passes (passes j same)

/-- An identifier that is drawn now is on no grant of a ledger from before. -/
theorem fresh_draw {base : AuthorizationState} (issued : base.Issued (supply platform e.drawn)) :
    (e.draw platform answers).uuid ∉ base.grants.map (·.id) := by
  intro listed
  obtain ⟨grant, inside, same⟩ := List.mem_map.mp listed
  obtain ⟨k, less, is⟩ := issued grant inside
  have equal : k = e.drawn := platform.randomUUID_injective (is.symm.trans same)
  omega

/-- Off the lock: the file is the same. -/
private theorem Sound.proceed (sound : e.Sound platform) (listed : e.threads[i]? = some thread)
    (proceeds : Proceeds platform (e.draw platform answers) thread phase) :
    Sound platform { e.settle platform i thread phase with file := e.file, drawn := e.drawn + 1, created := e.created } := by
  have before := sound.threads i thread listed
  have idle : phase.isChanging = false := by cases proceeds <;> rfl
  have deletion : ∀ path, phase.deletion platform = some path →
      e.deletions path = none ∨ e.deletions path = some i := by
    cases proceeds with
    | executed is _ =>
      rintro path ⟨⟩
      rw [is] at before
      exact .inr before.2.1
    | _ => exact fun path no => nomatch no
  refine sound.settled ?_ sound.ledger ?_ listed ?_
  · intro j different
    exact settle_passes different (Nat.le_succ _) (fun s read => ⟨s, read, .refl s⟩) (.inl rfl) (by simp [idle]) deletion
  · exact fun s read grant inside => (sound.issued s read grant inside).mono (Nat.le_succ _)
  · cases proceeds with
    | evaluated is evaluation returned =>
      rw [is] at before
      obtain ⟨s, read, le, same⟩ := before.current
      refine ⟨⟨fun grant inside => (before.issued grant inside).mono (Nat.le_succ _), s, read, le, fun equal counted => ?_⟩,
        ⟨_, evaluation, returned⟩, ?_, ⟨e.drawn, Nat.lt_succ_self _, rfl⟩⟩
      · obtain ⟨current, unchanged, free⟩ := same equal counted
        exact ⟨current, unchanged, by simp [settle, Phase.isChanging, free]⟩
      · exact Call.evaluation_changes rfl (fresh_draw before.issued) evaluation returned
          (fun fences call target inside => ⟨fences, call, inside⟩) (fun fences call target absent => ⟨⟨fences, call⟩, absent⟩)
    | created is result =>
      rw [is] at before
      exact .inl ⟨before.1.decided, before.2⟩
    | unknown is =>
      rw [is] at before
      exact ⟨before.1.decided, before.2⟩
    | reconciled is result =>
      rw [is] at before
      exact .inr before
    | executed is _ =>
      rw [is] at before
      refine ⟨before.1, ?_, before.2.2⟩
      simp [settle, Phase.deletion]
    | returned _ | failed _ => trivial

theorem isFree_deletions (free : e.isFree platform i thread = true) {path : String}
    (awaits : thread.awaits platform = some path) : e.deletions path = none := by
  have all := (Bool.and_eq_true_iff.mp free).2
  simpa [awaits] using all

/-- A critical section that returns, or fails after some of its writes. -/
private theorem Sound.critical {body : Section (Phase × Option Commit)} {onError : EngineError → Phase}
    {written : List AuthorizationState} (sound : e.Sound platform) (listed : e.threads[i]? = some thread)
    (is : thread.turn platform (e.draw platform answers) e.epoch = .critical body onError)
    (free : e.isFree platform i thread = true) (traced : Traced (Writes platform thread thread.grounds) e.file written)
    (lands : (∃ error, phase = onError error) ∨ ∃ commit,
      Landing platform (e.draw platform answers) thread e.epoch e.file (applyAll e.file written) phase commit) :
    Sound platform { e.settle platform i thread phase with
      file := applyAll e.file written, drawn := e.drawn + 1, created := e.created } := by
  have before := sound.threads i thread listed
  have later : ∀ s, e.file = some s → ∃ t, applyAll e.file written = some t ∧ Later s t := by
    intro s read
    rw [read] at traced ⊢
    exact traced_later traced
  have issued : ∀ s, applyAll e.file written = some s → s.Issued (supply platform (e.drawn + 1)) := by
    refine traced_issued ?_ traced (fun s read grant inside => (sound.issued s read grant inside).mono (Nat.le_succ _))
    rintro id ⟨attempt, base, evaluated, next, reply, epoch, committing, rfl⟩
    rw [committing] at before
    exact before.2.2.2.mono (Nat.le_succ _)
  have changing : phase.isChanging →
      (e.holder = none ∨ e.holder = some i) ∧
        ∀ s, e.file = some s → s.generation ≤ maxSafeInteger → applyAll e.file written ≠ some s := by
    intro busy
    refine ⟨isFree_holder free, ?_⟩
    rcases lands with ⟨error, rfl⟩ | ⟨commit, landing⟩
    · rcases thread.turn_onError is error with failed | ⟨_, _, _, _, _, uncertain⟩
      · rw [failed] at busy
        cases busy
      · rw [uncertain] at busy
        cases busy
    · obtain ⟨_, base, read, refreshed, _, written⟩ := landing.isChanging busy
      rintro s read' counted same
      cases read.symm.trans read'
      cases written.symm.trans same
      have le : successor base.generation ≤ base.generation := refreshed.le
      rw [successor_safe counted] at le
      exact absurd le (Nat.not_succ_le_self _)
  have deletion : ∀ path, phase.deletion platform = some path → e.deletions path = none ∨ e.deletions path = some i := by
    intro path busy
    rcases lands with ⟨error, rfl⟩ | ⟨commit, landing⟩
    · rcases thread.turn_onError is error with failed | ⟨_, _, _, _, _, uncertain⟩
      · rw [failed] at busy
        cases busy
      · rw [uncertain] at busy
        cases busy
    · exact .inl (isFree_deletions free (landing.deletion busy))
  refine sound.settled (fun j different => ?_) (traced_ledger traced sound.ledger) issued listed ?_
  · exact settle_passes different (Nat.le_succ _) later (.inr (isFree_holder free)) changing deletion
  · rcases lands with ⟨error, rfl⟩ | ⟨commit, landing⟩
    · rcases thread.turn_onError is error with failed | ⟨requestId, result, input, finishing, call, uncertain⟩
      · rw [failed]
        trivial
      · rw [uncertain]
        rw [finishing] at before
        rcases before with ⟨decided, is⟩ | ⟨_, other⟩
        · exact ⟨decided.later later, is⟩
        · cases call.symm.trans other
    · cases landing with
      | returned _ _ | settled _ _ _ _ | restarted _ | transacted _ _ _ _ _ _ => trivial
      | reconciling call _ => exact ⟨_, call⟩
      | snapshot _ taken =>
        refine ⟨issued _ taken, _, taken, Nat.le_refl _, fun _ _ => ⟨rfl, rfl, ?_⟩⟩
        rcases isFree_holder free with none | own
        · simp [settle, Phase.isChanging, none]
        · simp [settle, Phase.isChanging, own]
      | changing _ call _ _ _ written => exact ⟨written, by simp [settle, Phase.isChanging], _, call⟩
      | executing _ call closed => exact ⟨closed, by simp [settle, Phase.deletion], call⟩
      | @committed _ _ base next evaluated reply committing _ _ _ _ written =>
        rcases thread.call.afterCommit_cases reply with same | ⟨input, req, creation, call, rfl, approved, same⟩
        · rw [same]
          trivial
        · rw [same]
          rw [committing] at before
          obtain ⟨_, ⟨action, evaluation, returned⟩, _⟩ := before
          rw [call] at evaluation
          cases evaluation
          obtain ⟨inside, _⟩ := decideRequest_creation returned approved
          refine ⟨⟨_, req, written, ?_, approved⟩, input, call⟩
          split
          · exact inside
          · rename_i kept
            rw [not_not] at kept
            exact kept ▸ inside

private theorem Sound.advance {fault : Option Nat} (sound : e.Sound platform) :
    (e.step platform (.advance i answers fault)).Sound platform := by
  have drawn : Sound platform { e with drawn := e.drawn + 1 } := by
    refine ⟨sound.ledger, fun s read grant inside => (sound.issued s read grant inside).mono (Nat.le_succ _), ?_⟩
    intro j other inside
    have passes : e.Passes { e with drawn := e.drawn + 1 } j :=
      ⟨fun s read => ⟨s, read, .refl s⟩, fun held => ⟨rfl, held⟩, fun _ held => held, Nat.le_succ _,
        fun _ _ _ _ free => ⟨free, rfl⟩⟩
    exact (sound.threads j other inside).passes passes
  simp only [step]
  cases listed : e.threads[i]? with
  | none => exact sound
  | some thread =>
    dsimp only
    cases is : thread.turn platform (e.draw platform answers) e.epoch with
    | rest => exact drawn
    | proceed phase => exact sound.proceed listed (thread.turn_proceeds is)
    | invoke creation =>
      have before := sound.threads i thread listed
      rw [thread.turn_invokes is] at before
      refine sound.settled (fun j different => ?_) sound.ledger drawn.issued listed before
      refine settle_passes different (Nat.le_succ _) (fun s read => ⟨s, read, .refl s⟩) (.inl rfl) ?_ ?_
      · intro no
        cases no
      · intro path no
        cases no
    | critical body onError =>
      have follows := thread.turn_follows (sound.ready listed) is
      dsimp only
      by_cases busy : ¬ e.isFree platform i thread
      · rw [if_pos busy]
        exact drawn
      · rw [if_neg busy]
        rw [not_not] at busy
        cases fault with
        | some n => exact sound.critical listed is busy (follows.traced.take n) (.inl ⟨.thrown, rfl⟩)
        | none =>
          dsimp only
          split
          · rename_i phase commit returned
            exact sound.critical listed is busy follows.traced (.inr ⟨commit, follows.returns _ returned⟩)
          · rename_i error returned
            exact sound.critical listed is busy follows.traced (.inl ⟨error, rfl⟩)

theorem Sound.step (sound : e.Sound platform) (event : Event) : (e.step platform event).Sound platform := by
  cases event with
  | advance i answers fault => exact sound.advance
  | call options call =>
    have added : ∀ thread : Thread, thread.phase.Sound platform e e.threads.length thread.options thread.call →
        Sound platform { e with threads := e.threads ++ [thread] } := by
      intro thread new
      refine ⟨sound.ledger, sound.issued, ?_⟩
      intro j other inside
      have passes : e.Passes { e with threads := e.threads ++ [thread] } j :=
        ⟨fun s read => ⟨s, read, .refl s⟩, fun held => ⟨rfl, held⟩, fun _ held => held, Nat.le_refl _,
          fun _ _ _ _ free => ⟨free, rfl⟩⟩
      by_cases old : j < e.threads.length
      · have kept : (e.threads ++ [thread])[j]? = e.threads[j]? := List.getElem?_append_left old
        exact (sound.threads j other (kept.symm.trans inside)).passes passes
      · have last : j = e.threads.length := by
          have bound := (List.getElem?_eq_some_iff.mp inside).1
          simp only [List.length_append, List.length_singleton] at bound
          omega
        subst last
        have self : (e.threads ++ [thread])[e.threads.length]? = some thread := List.getElem?_concat_length
        cases self.symm.trans inside
        exact new.passes passes
    simp only [Engine.step]
    split
    · exact added _ trivial
    · exact added _ trivial
  | change i =>
    simp only [Engine.step]
    split
    · rename_i options call held listed
      have changing := sound.threads i _ listed
      refine ⟨sound.ledger, sound.issued, fun j other inside => (sound.threads j other inside).passes ?_⟩
      refine ⟨fun s read => ⟨s, read, .refl s⟩, fun held => ⟨rfl, held⟩, fun _ held => held, Nat.le_refl _, ?_⟩
      intro s _ _ _ free
      cases changing.2.1.symm.trans free
    · exact sound
  | crash i =>
    simp only [Engine.step]
    split
    · rename_i thread listed
      change Sound platform { e.settle platform i thread (.failed .thrown) with
        file := e.file, drawn := e.drawn, created := e.created }
      refine sound.settled (fun j different => ?_) sound.ledger sound.issued listed trivial
      refine settle_passes different (Nat.le_refl _) (fun s read => ⟨s, read, .refl s⟩) (.inl rfl) ?_ ?_
      · intro no
        cases no
      · intro path no
        cases no
    · exact sound

theorem Sound.new : (new : Engine).Sound platform := by
  refine ⟨?_, ?_, ?_⟩
  · intro s no
    cases no
  · intro s no
    cases no
  · intro i thread no
    simp [Engine.new] at no

theorem Sound.run (sound : e.Sound platform) (events : List Event) : (e.run platform events).Sound platform := by
  induction events generalizing e with
  | nil => exact sound
  | cons event rest ih => exact ih (sound.step event)

end Engine
end AnpIdentity.Ledger
