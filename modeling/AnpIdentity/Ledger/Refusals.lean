import AnpIdentity.Ledger.Fences
import Mathlib.Data.List.Induction

/-! Refusals. A refusal that the user has not lifted stands against every new request that it covers. -/

namespace AnpIdentity.Ledger
open Durable Relation

/-- The requests that a refusal covers: those of the same consumer and kind that are creations, name the same identity,
or where one of the two names none. -/
def Suppression.Covers (block : Suppression) (req : AuthorizationRequest) : Prop :=
  req.caller.consumer = block.consumer ∧ req.body.kind = block.kind ∧
    (req.body.kind = .create ∨ req.body.identity = block.identity ∨ block.identity = none ∨ req.body.identity = none)

/-- Of two optional identities one is missing, or they are equal. -/
private theorem compatible (refused named : Option IdentityReference) : named = refused ∨ refused = none ∨ named = none ↔
      refused.isNone = true ∨ named.isNone = true ∨ refused.any (fun first => named.any (equalIdentity first)) = true := by
  cases refused <;> cases named <;> simp [eq_comm]

variable {req : AuthorizationRequest}

/-- A refusal is lifted by a retry of what it covers. -/
theorem Suppression.isLifted_iff {block : Suppression} : block.isLifted req = true ↔ block.Covers req := by
  unfold Suppression.isLifted Suppression.Covers
  rw [compatible]
  simp only [Bool.and_eq_true, Bool.or_eq_true, beq_iff_eq]
  constructor
  · rintro ⟨⟨consumer, kind⟩, reason⟩
    exact ⟨consumer.symm, kind.symm, by tauto⟩
  · rintro ⟨consumer, kind, reason⟩
    exact ⟨⟨consumer.symm, kind.symm⟩, by tauto⟩

/-- A new request is refused by what a retry of it lifts. -/
theorem Suppression.blocks_eq {block : Suppression} {details : RequestDetails} (kind : req.body.kind = details.kind)
    (identity : req.body.identity = details.identity) : block.blocks req.caller details = block.isLifted req := by
  unfold Suppression.blocks Suppression.isLifted
  rw [kind, identity]

/-- The commit is a refusal: a request is denied, or a grant is revoked. -/
inductive Refuses (commit : Commit) : Suppression → Prop
  | denied {input : AuthorizationDecision} {req : AuthorizationRequest} (call : commit.call = .decideRequest input)
      (deny : input.approve = false) (found : commit.base.findRequest input.requestId = .ok req) :
    Refuses commit req.refusal
  | revoked {grantId : String} {expectedVersion : Nat} {grant : AuthorizationGrant}
      (call : commit.call = .revoke grantId expectedVersion) (found : commit.base.findGrant grantId = .ok grant)
      (active : grant.status ≠ .revoked) : Refuses commit grant.refusal

/-- No retry of a request that the refusal covers commits. -/
def Unlifted (platform : Platform) (block : Suppression) (e : Engine) (events : List Event) : Prop :=
  ∀ before event after commit, events = before ++ event :: after →
    (e.run platform before).commits platform event = some commit →
    ∀ requestId expectedVersion req, commit.call = .reauthorize requestId expectedVersion →
      commit.base.findRequest requestId = .ok req → ¬ block.Covers req

/-- Nothing that is done lifts the refusal. -/
def Suppression.Spared (block : Suppression) : Deed → Prop
  | .lift req => ¬ block.Covers req
  | _ => True

section
variable {block : Suppression} {s t : AuthorizationState}

/-- A request is covered by the same refusals as before its move. -/
private theorem covers_before {old new : AuthorizationRequest} (move : RequestMove old new) (covers : block.Covers new) :
    block.Covers old := by
  obtain ⟨consumer, kind, reason⟩ := covers
  refine ⟨move.caller ▸ consumer, move.kind ▸ kind, ?_⟩
  cases body : old.body with
  | create parameters operationId status result => exact .inl rfl
  | access identity requested mode grantId =>
    rw [(move.access _ _ _ _ body).1, body] at reason
    exact reason

/-- A refusal that is not lifted stays, and what it covers is not asked anew. -/
theorem Changes.stands (changes : Changes block.Spared s t) (standing : block ∈ s.suppressions) :
    block ∈ t.suppressions ∧ ∀ req ∈ t.requests, req.status = .pending → block.Covers req →
      req.id ∈ s.requests.map (·.id) := by
  induction changes with
  | refl => exact ⟨standing, fun req listed _ _ => List.mem_map_of_mem listed⟩
  | @tail middle t _ change ih =>
    obtain ⟨stands, old⟩ := ih
    cases change with
    | requests moved =>
      refine ⟨stands, ?_⟩
      intro req listed pending covers
      obtain ⟨before, inside, move⟩ := forall₂_mem_right moved listed
      have waits : before.status = .pending := by
        by_contra settled
        exact settled ((move.settled settled).1 ▸ pending)
      rw [move.id]
      exact old before inside waits (covers_before move covers)
    | asked details new pending body free =>
      refine ⟨stands, ?_⟩
      intro req listed waits covers
      rcases List.mem_append.mp listed with before | last
      · exact old req before waits covers
      · rw [List.mem_singleton.mp last] at covers
        have blocked := Suppression.isLifted_iff.mpr covers
        rw [← Suppression.blocks_eq (body ▸ details.body_kind) (body ▸ details.body_identity), free block stands] at blocked
        cases blocked
    | lifted ground =>
      refine ⟨List.mem_filter.mpr ⟨stands, ?_⟩, old⟩
      rw [Bool.not_eq_true', Bool.eq_false_iff]
      exact fun is => ground (Suppression.isLifted_iff.mp is)
    | suppressed other => exact ⟨List.mem_append_left _ stands, old⟩
    | @granted first last asked next grant split approves _ _ _ =>
      refine ⟨stands, ?_⟩
      intro req listed pending covers
      refine old req ?_ pending covers
      rw [split]
      rcases List.mem_append.mp listed with before | rest
      · exact List.mem_append_left _ before
      · rcases List.mem_cons.mp rest with rfl | after
        · rw [approves.status] at pending
          cases pending
        · simp [after]
    | _ => exact ⟨stands, old⟩

end

section
variable {platform : Platform} {e : Engine} {event : Event} {block : Suppression} {s : AuthorizationState}

/-- A transaction that is stopped has made what time makes of the ledger, or it has taken effect. -/
private theorem transaction_resolves {answers : Answers} {thread : Thread} (action : Action)
    (file : Option AuthorizationState) :
    Resolves (Writes platform thread block.Spared) (transaction platform answers action) file := by
  unfold transaction
  refine .bind (refresh_follows.mono ?_)
  rintro current _ ⟨rfl, _⟩
  refine .bind (.lift ?_)
  rintro ⟨next, reply⟩ _
  dsimp only
  split
  · refine .bind_pure ?_ (fun _ => ⟨_, rfl⟩)
    unfold save
    split
    · exact .of_follows (Q := fun _ _ => True) (.silent rfl (fun _ _ => trivial))
    · exact .write _ _
  · exact .of_follows (Q := fun _ _ => True) (.pure trivial)

/-- A retry that does not commit lifts nothing. -/
private theorem Engine.Sound.spares_retry (sound : e.Sound platform) {i attempt : Nat} {answers : Answers}
    {fault : Option Nat} {options : AuthorizationOptions} {requestId : String} {expectedVersion : Nat}
    (listed : e.threads[i]? = some ⟨options, .reauthorize requestId expectedVersion, .starting attempt⟩)
    (read : e.file = some s)
    (unlifted : ∀ commit, e.commits platform (.advance i answers fault) = some commit →
      ∀ requestId expectedVersion req, commit.call = .reauthorize requestId expectedVersion →
        commit.base.findRequest requestId = .ok req → ¬ block.Covers req) :
    ∃ t, (e.step platform (.advance i answers fault)).file = some t ∧ Changes block.Spared s t := by
  let thread : Thread := ⟨options, .reauthorize requestId expectedVersion, .starting attempt⟩
  let body := thread.start platform (e.draw platform answers) attempt e.epoch
  have is : thread.turn platform (e.draw platform answers) e.epoch = .critical body .failed := rfl
  have resolves : Resolves (Writes platform thread block.Spared) body e.file :=
    .bind_pure (transaction_resolves _ e.file) (fun _ => ⟨_, rfl⟩)
  by_cases free : e.isFree platform i thread = true
  · have written : e.written platform (.advance i answers fault) =
        (body.writes e.file).take (fault.getD (body.writes e.file).length) := by
      cases fault <;> simp [Engine.written, listed, thread, is, free]
    rcases resolves (fault.getD (body.writes e.file).length) with traced | ⟨all, landing, returned⟩
    · rw [Engine.step_file, written, read]
      rw [read] at traced
      exact traced_changes trivial traced
    · have survived : fault.all (fun n => (body.writes e.file).length ≤ n) = true := by
        cases fault with
        | none => rfl
        | some n => simpa using all
      have committed : e.commits platform (.advance i answers fault) = landing.2 := by
        simp [Engine.commits, listed, thread, is, free, survived, returned]
      obtain ⟨⟨base, next, reply⟩, _, made⟩ := Program.result_bind returned
      cases made
      obtain ⟨_, _, _, _, _, ⟨⟩, listed', landing⟩ := sound.commits committed
      cases listed.symm.trans listed'
      cases landing with
      | changing _ call _ _ _ _ => cases call
      | committed phase _ _ _ _ => cases phase
      | transacted _ acts read' refreshed acted written =>
        cases read.symm.trans read'
        cases acts
        have known : base.Distinct := refreshed.distinct ((sound.ledger s read).distinct empty_distinct)
        have changes : Changes block.Spared base next :=
          Call.action_changes known rfl acted (fun _ _ req call found => unlifted _ committed _ _ req call found)
        have passed : Changes block.Spared s base := refreshed.changes trivial
        refine ⟨_, written, ?_⟩
        split
        · exact (passed.trans changes).tail (.renumbered trivial _)
        · exact passed
  · refine ⟨s, ?_, .refl⟩
    rw [Engine.step_file]
    simp [Engine.written, listed, thread, is, free, read]

/-- As long as no retry of what it covers commits, a refusal is spared. -/
theorem Engine.Sound.spares (sound : e.Sound platform) (read : e.file = some s)
    (unlifted : ∀ commit, e.commits platform event = some commit →
      ∀ requestId expectedVersion req, commit.call = .reauthorize requestId expectedVersion →
        commit.base.findRequest requestId = .ok req → ¬ block.Covers req) :
    ∃ t, (e.step platform event).file = some t ∧ Changes block.Spared s t := by
  by_cases wrote : e.written platform event = []
  · rw [Engine.step_file, wrote, read]
    exact ⟨s, rfl, .refl⟩
  · obtain ⟨i, answers, fault, ⟨options, call, phase⟩, rfl, listed, traced⟩ := sound.traced event wrote
    by_cases retry : ∃ attempt requestId expectedVersion, phase = .starting attempt ∧
        call = .reauthorize requestId expectedVersion
    · obtain ⟨attempt, requestId, expectedVersion, rfl, rfl⟩ := retry
      exact sound.spares_retry listed read unlifted
    · rw [Engine.step_file, read]
      rw [read] at traced
      obtain ⟨t, is, changes⟩ := traced_changes (by trivial) traced
      refine ⟨t, is, changes.mono ?_⟩
      rintro (_ | req | _ | _ | _) ground
      · trivial
      · obtain ⟨attempt, requestId, expectedVersion, starting, retries, _⟩ := ground
        exact absurd ⟨attempt, requestId, expectedVersion, starting, retries⟩ retry
      · trivial
      · trivial
      · trivial

/-- A refusal is in the ledger that its commit leaves. -/
theorem Engine.Sound.refuses (sound : e.Sound platform) {commit : Commit}
    (committed : e.commits platform event = some commit) (refuses : Refuses commit block) :
    ∃ t, (e.step platform event).file = some t ∧ block ∈ t.suppressions := by
  obtain ⟨⟨generation, written⟩, acted⟩ := sound.committed committed
  refine ⟨_, written, ?_⟩
  cases refuses with
  | @denied input req call denies found =>
    rw [call] at acted
    rcases acted with ⟨_, no⟩ | ⟨_, no | is, returned⟩
    · cases no
    · cases no
    · cases is
      obtain ⟨_, found', _, ⟨_, denied⟩ | ⟨approve, _⟩ | ⟨approve, _⟩⟩ := decideRequest_ok returned
      · cases found.symm.trans found'
        have same := congrArg Prod.fst (Except.ok.inj denied)
        dsimp only at same
        simp [← same]
      · cases denies.symm.trans approve
      · cases denies.symm.trans approve
  | @revoked grantId expectedVersion grant call found active =>
    rw [call] at acted
    rcases acted with ⟨_, no⟩ | ⟨_, is | no, returned⟩
    · cases no
    · cases is
      unfold revoke at returned
      obtain ⟨_, found', returned⟩ := except_bind_ok.mp returned
      cases found.symm.trans found'
      obtain ⟨_, _, returned⟩ := except_bind_ok.mp returned
      rw [if_neg active] at returned
      have same := congrArg Prod.fst (Except.ok.inj returned)
      dsimp only at same
      simp [← same]
    · cases no

/-- A refusal that stands is spared by a run in which nothing lifts it. -/
theorem Engine.Sound.spares_run (sound : e.Sound platform) (read : e.file = some s) {events : List Event}
    (unlifted : Unlifted platform block e events) :
    ∃ t, (e.run platform events).file = some t ∧ Changes block.Spared s t := by
  induction events generalizing e s with
  | nil => exact ⟨s, read, .refl⟩
  | cons event rest ih =>
    obtain ⟨middle, read', first⟩ := sound.spares read (fun commit => unlifted [] event rest commit rfl)
    have later : Unlifted platform block (e.step platform event) rest := by
      rintro before event' after commit rfl
      exact unlifted (event :: before) event' after commit rfl
    obtain ⟨t, read'', second⟩ := ih (sound.step event) read' later
    exact ⟨t, read'', first.trans second⟩

end

/-! ## Retries -/

/-- Neither part of a sequence fails with the error. -/
private theorem bind_ne_error {α β : Type} {error : EngineError} {x : EngineResult α} {f : α → EngineResult β}
    (first : x ≠ .error error) (rest : ∀ a, x = .ok a → f a ≠ .error error) : (x >>= f) ≠ .error error := by
  cases x with
  | error other => exact fun same => first (by cases same; rfl)
  | ok a => exact rest a rfl

section
variable {platform : Platform} {options : AuthorizationOptions} {answers : Answers}

private theorem text_ne_error {value : String} {limit : Nat} : text value limit ≠ .error .requestPreviouslyDenied := by
  unfold text
  split <;> simp

variable {s : AuthorizationState} {requestId : String} {expectedVersion : Nat} {file : Option AuthorizationState}

/-- A request is refused on account of earlier refusals only if one of them stands against it. -/
private theorem record_ne_error {source : VerifiedCaller} {id purpose : String} {details : RequestDetails}
    (free : s.suppressions.any (·.blocks source details) = false) :
    record platform options answers s source id purpose details ≠ .error .requestPreviouslyDenied := by
  unfold record
  refine bind_ne_error text_ne_error (fun _ _ => bind_ne_error text_ne_error (fun _ _ => ?_))
  dsimp only
  split
  · exact bind_ne_error (by simp) (fun _ _ => by rintro ⟨⟩)
  · split
    · exact by rintro ⟨⟩
    · exact bind_ne_error (by simp [free]) (fun _ _ => by rintro ⟨⟩)

/-- A retry lifts whatever would refuse it. -/
theorem reauthorize_ne_error :
    reauthorize platform options answers requestId expectedVersion s ≠ .error .requestPreviouslyDenied := by
  unfold reauthorize
  refine bind_ne_error (by simp [AuthorizationState.findRequest]) (fun req _ => ?_)
  refine bind_ne_error (by simp) (fun _ _ => bind_ne_error (by simp) (fun _ _ => ?_))
  refine bind_ne_error (by simp [validate]) (fun _ _ => bind_ne_error (record_ne_error ?_) (fun _ _ => by rintro ⟨⟩))
  simp only [List.any_eq_false, List.mem_filter, Bool.not_eq_true', Bool.not_eq_true]
  intro block inside
  rw [Suppression.blocks_eq, inside.2]
  · cases req.body <;> rfl
  · cases req.body <;> rfl

private theorem section_ne_error {α β : Type} {error : EngineError} {p : Section α} {f : α → Section β}
    (first : p.result file ≠ .error error) (rest : ∀ a after, (f a).result after ≠ .error error) :
    (p >>= f).result file ≠ .error error := by
  cases returned : p.result file with
  | error other =>
    rw [(Program.bind_error f returned).2]
    rw [returned] at first
    exact fun same => first (by cases same; rfl)
  | ok a =>
    rw [(Program.bind_ok f returned).2]
    exact rest a _

private theorem save_ne_error : (save platform s).result file ≠ .error .requestPreviouslyDenied := by
  unfold save
  split <;> exact nofun

private theorem transaction_ne_error {action : Action} (never : ∀ s, action s ≠ .error .requestPreviouslyDenied) :
    (transaction platform answers action).result file ≠ .error .requestPreviouslyDenied := by
  have refreshes : (refresh platform answers).result file ≠ .error .requestPreviouslyDenied := by
    refine section_ne_error ?_ (fun s after => ?_)
    · refine section_ne_error (p := Program.get) nofun (fun found after => ?_)
      cases found with
      | none => exact nofun
      | some s =>
        dsimp only
        split <;> exact nofun
    · dsimp only
      split
      · exact section_ne_error save_ne_error (fun _ _ => nofun)
      · exact nofun
  refine section_ne_error refreshes (fun current after => ?_)
  refine section_ne_error (p := Program.lift (action current)) (never current) ?_
  rintro ⟨next, reply⟩ after
  dsimp only
  split
  · exact section_ne_error save_ne_error (fun _ _ => nofun)
  · exact nofun

/-- Where a retry can be. -/
def Phase.Retries (phase : Phase) : Prop :=
  (∃ attempt, phase = .starting attempt) ∨ (∃ reply, phase = .returned reply) ∨
    ∃ error, phase = .failed error ∧ error ≠ .requestPreviouslyDenied

/-- A retry either rests or runs its one transaction. -/
private theorem retry_turn {old : Thread} {epoch : Nat} {turn : Turn} (retries : old.phase.Retries)
    (call : old.call = .reauthorize requestId expectedVersion) (is : old.turn platform answers epoch = turn) :
    turn = .rest ∨ turn = .critical (do
      let (base, next, reply) ← transaction platform answers
        (reauthorize platform old.options answers requestId expectedVersion)
      pure (.returned reply, some ⟨old.options, old.call, answers, base, next, reply⟩)) .failed := by
  obtain ⟨options, _, phase⟩ := old
  cases call
  subst is
  rcases retries with ⟨_, start⟩ | ⟨_, done⟩ | ⟨_, done, _⟩
  · cases start
    exact .inr rfl
  · cases done
    exact .inl rfl
  · cases done
    exact .inl rfl

theorem Engine.retries (events : List Event) {i : Nat} {thread : Thread}
    (listed : (Engine.new.run platform events).threads[i]? = some thread)
    (call : thread.call = .reauthorize requestId expectedVersion) : thread.phase.Retries := by
  induction events using List.reverseRecOn generalizing i thread with
  | nil => simp [Engine.run, Engine.new] at listed
  | append_singleton events event ih =>
    rw [Engine.run, List.foldl_append] at listed
    cases Engine.step_moved listed with
    | kept _ kept => exact ih kept call
    | called _ is =>
      subst is
      exact .inl ⟨0, rfl⟩
    | rejected checks is =>
      subst is
      cases call
      cases checks
    | crashed _ is =>
      subst is
      exact .inr (.inr ⟨_, rfl, by rintro ⟨⟩⟩)
    | proceeded known turn is =>
      subst is
      rcases retry_turn (ih known call) call turn with no | no <;> cases no
    | invoked known turn is =>
      subst is
      rcases retry_turn (ih known call) call turn with no | no <;> cases no
    | failed known turn result is =>
      subst is
      rcases retry_turn (ih known call) call turn with no | same
      · cases no
      · cases same
        refine .inr (.inr ⟨_, rfl, ?_⟩)
        rintro rfl
        exact result.elim (by rintro ⟨⟩)
          (section_ne_error (transaction_ne_error (fun _ => reauthorize_ne_error)) (fun _ _ => by rintro ⟨⟩))
    | landed known turn free returned is =>
      subst is
      rcases retry_turn (ih known call) call turn with no | same
      · cases no
      · cases same
        obtain ⟨_, _, made⟩ := Program.result_bind returned
        cases made
        exact .inr (.inl ⟨_, rfl⟩)

end

/-- A refusal cannot be bypassed. From the commit of a refusal on, and as long as no retry of a request that it covers
commits, every pending request that it covers was in the ledger before. A retry is not refused on its account. -/
theorem refusal_stands (platform : Platform) (events : List Event) :
    let e := Engine.new.run platform events
    (∀ event commit block more, e.commits platform event = some commit → Refuses commit block →
        Unlifted platform block (e.step platform event) more →
        ∃ s t, (e.step platform event).file = some s ∧ ((e.step platform event).run platform more).file = some t ∧
          ∀ req ∈ t.requests, req.status = .pending → block.Covers req → req.id ∈ s.requests.map (·.id)) ∧
      ∀ (i : Nat) (thread : Thread) (requestId : String) (expectedVersion : Nat), e.threads[i]? = some thread →
        thread.call = .reauthorize requestId expectedVersion → thread.phase ≠ .failed .requestPreviouslyDenied := by
  intro e
  have sound : e.Sound platform := Engine.Sound.new.run events
  refine ⟨?_, ?_⟩
  · intro event commit block more committed refuses unlifted
    obtain ⟨s, read, standing⟩ := sound.refuses committed refuses
    obtain ⟨t, read', changes⟩ := (sound.step event).spares_run read unlifted
    exact ⟨s, t, read, read', (changes.stands standing).2⟩
  · intro i thread requestId expectedVersion listed call denied
    rcases Engine.retries events listed call with ⟨_, start⟩ | ⟨_, done⟩ | ⟨_, failed, other⟩
    · cases denied.symm.trans start
    · cases denied.symm.trans done
    · cases denied.symm.trans failed
      exact other rfl

end AnpIdentity.Ledger
