import AnpIdentity.Ledger.Integrity
import Mathlib.Data.List.Induction

/-! Creations. `createIdentity` is invoked at most once for a request, by the decision that approved it. -/

namespace AnpIdentity.Ledger
open Durable Relation

/-- With the event a decision commits that approves the creation. -/
def Engine.Approves (platform : Platform) (e : Engine) (event : Event) (creation : Creation) : Prop :=
  ∃ commit input req, e.commits platform event = some commit ∧ commit.call = .decideRequest input ∧ input.approve ∧
    input.requestId = creation.requestId ∧ commit.reply = .request req ∧ req.creation = some creation

/-- A decision on the creation has been committed in the run. -/
def Approved (platform : Platform) (events : List Event) (creation : Creation) : Prop :=
  ∃ before event after, events = before ++ event :: after ∧
    (Engine.new.run platform before).Approves platform event creation

/-- A request of the ledger in the file is pending. -/
def Waiting (file : Option AuthorizationState) (requestId : String) : Prop :=
  ∃ s req, file = some s ∧ req ∈ s.requests ∧ req.id = requestId ∧ req.status = .pending

section
variable {platform : Platform} {e : Engine} {event : Event} {i j : Nat} {thread : Thread} {creation : Creation}

theorem Engine.Sound.not_waiting (sound : e.Sound platform) {requestId : String} (decided : Decided e.file requestId) :
    ¬ Waiting e.file requestId := by
  rintro ⟨s, req, read, listed, named, pending⟩
  obtain ⟨_, other, read', listed', named', settled⟩ := decided
  cases read.symm.trans read'
  have distinct : s.Distinct := (sound.ledger s read).distinct empty_distinct
  have same : other = req := List.inj_on_of_nodup_map distinct.requests listed' listed (named'.trans named.symm)
  exact settled (same ▸ pending)

/-- What an event does to the list of invocations. -/
theorem Engine.step_created (platform : Platform) (e : Engine) (event : Event) :
    (e.step platform event).created = e.created ∨
      ∃ i answers fault thread creation, event = .advance i answers fault ∧ e.threads[i]? = some thread ∧
        thread.phase = .approved creation ∧ (e.step platform event).created = e.created ++ [creation] ∧
        (e.step platform event).threads[i]? = some { thread with phase := .creating creation } := by
  cases event with
  | call options call =>
    simp only [step]
    split <;> exact .inl rfl
  | change i =>
    simp only [step]
    split <;> exact .inl rfl
  | crash i =>
    simp only [step]
    split <;> exact .inl rfl
  | advance i answers fault =>
    simp only [step]
    cases listed : e.threads[i]? with
    | none => exact .inl rfl
    | some thread =>
      dsimp only
      cases is : thread.turn platform (e.draw platform answers) e.epoch with
      | rest | proceed _ => exact .inl rfl
      | invoke creation =>
        refine .inr ⟨i, answers, fault, thread, creation, rfl, listed, thread.turn_invokes is, rfl, ?_⟩
        have bound := (List.getElem?_eq_some_iff.mp listed).1
        simp [settle, bound]
      | critical body onError =>
        dsimp only
        repeat' split
        all_goals exact .inl rfl

/-- A critical section that leads to a creation commits the decision on a request that was pending. -/
private theorem Engine.Sound.approval {answers : Answers} {body : Section (Phase × Option Commit)}
    {onError : EngineError → Phase} {commit : Option Commit} (sound : e.Sound platform)
    (listed : e.threads[i]? = some thread)
    (is : thread.turn platform (e.draw platform answers) e.epoch = .critical body onError)
    (free : e.isFree platform i thread = true) (returned : body.result e.file = .ok (.approved creation, commit)) :
    e.Approves platform (.advance i answers none) creation ∧ Waiting e.file creation.requestId := by
  have landing := (thread.turn_follows (sound.ready listed) is).returns _ returned
  have committed : e.commits platform (.advance i answers none) = commit := by
    simp [Engine.commits, listed, is, free, returned]
  generalize phaseIs : Phase.approved creation = phase at landing
  cases landing with
  | @committed _ _ base next evaluated reply committing read _ _ _ =>
    rcases thread.call.afterCommit_cases reply with same | ⟨input, req, made, call, rfl, approved, same⟩
    · cases phaseIs.trans same
    · cases phaseIs.trans same
      have before := sound.threads i thread listed
      rw [committing] at before
      obtain ⟨_, ⟨action, evaluation, evaluated⟩, _⟩ := before
      rw [call] at evaluation
      cases evaluation
      obtain ⟨_, old, inside, named, pending, approve, asked⟩ := decideRequest_creation evaluated approved
      exact ⟨⟨_, input, req, committed, call, approve, asked.trans named, rfl, approved⟩,
        base, old, read, inside, named, pending⟩
  | _ => cases phaseIs

/-- Where an approved creation comes from. -/
theorem Engine.Sound.step_approved (sound : e.Sound platform)
    (listed : (e.step platform event).threads[j]? = some thread) (phase : thread.phase = .approved creation) :
    e.threads[j]? = some thread ∨ ((e.step platform event).created = e.created ∧ Waiting e.file creation.requestId ∧
      e.Approves platform event creation ∧ ∃ answers, event = .advance j answers none) := by
  cases Engine.step_moved listed with
  | kept _ kept => exact .inl kept
  | called _ is | rejected _ is | crashed _ is | invoked _ _ is =>
    subst is
    cases phase
  | proceeded _ turn is =>
    subst is
    have proceeds := Thread.turn_proceeds turn
    dsimp only at phase
    subst phase
    cases proceeds
  | failed _ turn _ is =>
    subst is
    rcases Thread.turn_onError turn _ with failed | ⟨_, _, _, _, _, uncertain⟩
    · cases failed.symm.trans phase
    · cases uncertain.symm.trans phase
  | @landed old answers body onError next commit known turn free returned is =>
    subst is
    dsimp only at phase
    subst phase
    obtain ⟨approves, waiting⟩ := sound.approval known turn free returned
    refine .inr ⟨?_, waiting, approves, answers, rfl⟩
    simp only [Engine.step, known, turn, free, returned]
    rfl

/-- Each creation is invoked once, and what is approved has not been invoked. -/
structure Engine.Once (platform : Platform) (events : List Event) (e : Engine) : Prop where
  created : (e.created.map (·.requestId)).Nodup
  recorded : ∀ creation ∈ e.created, Recorded e.file creation
  single : ∀ (i j : Nat) (thread other : Thread) (creation creation' : Creation), e.threads[i]? = some thread →
    thread.phase = .approved creation → e.threads[j]? = some other → other.phase = .approved creation' →
    creation'.requestId = creation.requestId → j = i
  unused : ∀ (i : Nat) (thread : Thread) (creation : Creation), e.threads[i]? = some thread →
    thread.phase = .approved creation → creation.requestId ∉ e.created.map (·.requestId)
  approved : ∀ (i : Nat) (thread : Thread) (creation : Creation), e.threads[i]? = some thread →
    thread.phase = .approved creation → Approved platform events creation

namespace Engine.Once
variable {events : List Event}

/-- What is approved in a thread is decided in the ledger. -/
private theorem decided (sound : e.Sound platform) (listed : e.threads[i]? = some thread)
    (phase : thread.phase = .approved creation) : Recorded e.file creation := by
  have before := sound.threads i thread listed
  rw [phase] at before
  exact before.1

private theorem step_unused (sound : e.Sound platform) (once : e.Once platform events)
    (listed : (e.step platform event).threads[i]? = some thread) (phase : thread.phase = .approved creation) :
    creation.requestId ∉ (e.step platform event).created.map (·.requestId) := by
  rcases sound.step_approved listed phase with old | ⟨same, waiting, _⟩
  · have unused := once.unused i thread creation old phase
    rcases e.step_created platform event with same | ⟨j, _, _, other, made, _, known, approved, more, moved⟩
    · rwa [same]
    · rw [more, List.map_append, List.mem_append, not_or]
      refine ⟨unused, fun equal => ?_⟩
      -- the thread that invokes the creation is another one: it is not approved any more
      have one := once.single j i other thread made creation known approved old phase (by simpa using equal)
      subst one
      cases moved.symm.trans listed
      cases phase
  · rw [same]
    intro inside
    obtain ⟨made, listed', equal⟩ := List.mem_map.mp inside
    exact sound.not_waiting (once.recorded made listed').decided (equal ▸ waiting)

private theorem step_single (sound : e.Sound platform) (once : e.Once platform events) {other : Thread}
    {creation' : Creation} (listed : (e.step platform event).threads[i]? = some thread)
    (phase : thread.phase = .approved creation) (listed' : (e.step platform event).threads[j]? = some other)
    (phase' : other.phase = .approved creation') (same : creation'.requestId = creation.requestId) : j = i := by
  rcases sound.step_approved listed phase with old | ⟨_, waiting, _, _, is⟩
  · rcases sound.step_approved listed' phase' with old' | ⟨_, waiting, _⟩
    · exact once.single i j thread other creation creation' old phase old' phase' same
    · exact absurd (same ▸ waiting) (sound.not_waiting (decided sound old phase).decided)
  · rcases sound.step_approved listed' phase' with old' | ⟨_, _, _, _, is'⟩
    · exact absurd (same ▸ waiting) (sound.not_waiting (decided sound old' phase').decided)
    · cases is.symm.trans is'
      rfl

theorem step (sound : (Engine.new.run platform events).Sound platform)
    (once : (Engine.new.run platform events).Once platform events) :
    ((Engine.new.run platform events).step platform event).Once platform (events ++ [event]) := by
  refine ⟨?_, ?_, ?_, ?_, ?_⟩
  · rcases Engine.step_created platform (Engine.new.run platform events) event with
      same | ⟨i, _, _, thread, made, _, known, approved, more, _⟩
    · rw [same]
      exact once.created
    · rw [more, List.map_append, List.nodup_append]
      refine ⟨once.created, by simp, ?_⟩
      rintro a inside b last rfl
      rw [List.map_singleton, List.mem_singleton] at last
      exact once.unused i thread made known approved (last ▸ inside)
  · intro creation inside
    have later := fun s read => sound.later [event] (s := s) read
    rcases Engine.step_created platform (Engine.new.run platform events) event with
      same | ⟨i, _, _, thread, made, _, known, approved, more, _⟩
    · exact (once.recorded creation (same ▸ inside)).later later
    · rw [more, List.mem_append, List.mem_singleton] at inside
      rcases inside with old | rfl
      · exact (once.recorded creation old).later later
      · exact (decided sound known approved).later later
  · intro i j thread other creation creation' listed phase listed' phase' same
    exact once.step_single sound listed phase listed' phase' same
  · intro i thread creation listed phase
    exact once.step_unused sound listed phase
  · intro i thread creation listed phase
    rcases sound.step_approved listed phase with old | ⟨_, _, approves, _⟩
    · obtain ⟨before, decision, after, rfl, approves⟩ := once.approved i thread creation old phase
      exact ⟨before, decision, after ++ [event], by simp, approves⟩
    · exact ⟨events, event, [], rfl, approves⟩

theorem new : (Engine.new).Once platform [] := by
  refine ⟨.nil, ?_, ?_, ?_, ?_⟩ <;> simp [Engine.new]

theorem run (events : List Event) : (Engine.new.run platform events).Once platform events := by
  induction events using List.reverseRecOn with
  | nil => exact new
  | append_singleton events event ih =>
    have last : Engine.new.run platform (events ++ [event]) = (Engine.new.run platform events).step platform event := by
      simp [Engine.run]
    rw [last]
    exact step (Engine.Sound.new.run events) ih

end Engine.Once
end

/-- The caller and the parameters of a creation are those of the request in every earlier ledger. -/
private theorem recorded_frozen {s t : AuthorizationState} (distinct : t.Distinct) (later : Later s t) {creation : Creation}
    (recorded : Recorded (some t) creation) {req : AuthorizationRequest} (listed : req ∈ s.requests)
    (named : req.id = creation.requestId) : req.caller = creation.caller ∧
      ∃ operationId status result, req.body = .create creation.parameters operationId status result := by
  obtain ⟨_, last, ⟨⟩, inside, is⟩ := recorded
  obtain ⟨req', inside', tracks⟩ := later.changes.tracks listed
  unfold AuthorizationRequest.creation at is
  split at is
  · rename_i parameters operationId status result body approved
    cases is
    have same : req' = last := List.inj_on_of_nodup_map distinct.requests inside' inside (tracks.id.trans named)
    subst same
    refine ⟨tracks.caller.symm, ?_⟩
    cases body' : req.body with
    | access identity requested mode grantId =>
      have kind := tracks.kind
      rw [body, body'] at kind
      cases kind
    | create parameters' operationId' status' result' =>
      obtain ⟨_, _, _, body'', _⟩ := tracks.create _ _ _ _ body'
      cases body.symm.trans body''
      exact ⟨operationId', status', result', rfl⟩
  · cases is

/-- A creation happens at most once for each request. `createIdentity` is invoked only by a decision that has committed
the approval of the request, with the caller, the parameters and the operation that the ledger records; the caller and
the parameters are those that the request has had from the start. -/
theorem creation_once (platform : Platform) (events : List Event) :
    let e := Engine.new.run platform events
    (e.created.map (·.requestId)).Nodup ∧ ∀ event, (e.step platform event).created = e.created ∨
      ∃ i answers fault thread input creation, event = .advance i answers fault ∧ e.threads[i]? = some thread ∧
        thread.call = .decideRequest input ∧ (e.step platform event).created = e.created ++ [creation] ∧
        Approved platform events creation ∧ Recorded e.file creation ∧
        ∀ before after s, events = before ++ after → (Engine.new.run platform before).file = some s →
          ∀ req ∈ s.requests, req.id = creation.requestId → req.caller = creation.caller ∧
            ∃ operationId status result, req.body = .create creation.parameters operationId status result := by
  intro e
  have sound : e.Sound platform := Engine.Sound.new.run events
  have once : e.Once platform events := Engine.Once.run events
  refine ⟨once.created, fun event => ?_⟩
  rcases e.step_created platform event with same | ⟨i, answers, fault, thread, creation, is, listed, phase, more, _⟩
  · exact .inl same
  · have before := sound.threads i thread listed
    rw [phase] at before
    obtain ⟨recorded, input, call⟩ := before
    refine .inr ⟨i, answers, fault, thread, input, creation, is, listed, call, more,
      once.approved i thread creation listed phase, recorded, ?_⟩
    intro before after s split read req inside named
    have joined : e = (Engine.new.run platform before).run platform after := by
      simp only [e, split, Engine.run, List.foldl_append]
    obtain ⟨t, read', later⟩ := (Engine.Sound.new.run before).later after read
    rw [← joined] at read'
    rw [read'] at recorded
    exact recorded_frozen ((sound.ledger t read').distinct empty_distinct) later recorded inside named

end AnpIdentity.Ledger
