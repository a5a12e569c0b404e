import AnpIdentity.Ledger.Commits
import AnpIdentity.Ledger.Plain

/-! The integrity of the ledger: how its requests, grants and executions belong together. -/

namespace AnpIdentity.Ledger
open Relation

/-- A grant belongs to the request that it was made for. -/
structure Linked (req : AuthorizationRequest) (grant : AuthorizationGrant) : Prop where
  approved : req.status = .approved
  requestId : grant.requestId = req.id
  caller : grant.caller = req.caller
  body : ∃ requested, req.body = .access (some grant.identity) requested (some grant.mode) (some grant.id) ∧
    (grant.mode = .once → grant.operation = requested ∧ requested.isSome)

/-- An execution under a grant for one operation. -/
structure Uses (grant : AuthorizationGrant) (execution : AuthorizationExecution) : Prop where
  executionId : grant.executionId = some execution.id
  fingerprint : grant.operation.map (·.fingerprint) = some execution.fingerprint
  inactive : grant.status ≠ .active

structure AuthorizationState.Integrity (s : AuthorizationState) : Prop where
  distinct : s.Distinct
  approved : ∀ req ∈ s.requests, req.status = .approved → req.body.kind = .access → ∃ grant ∈ s.grants, Linked req grant
  granted : ∀ grant ∈ s.grants, ∃ req ∈ s.requests, Linked req grant
  executed : ∀ execution ∈ s.executions, ∃ grant ∈ s.grants, grant.id = execution.grantId ∧
    grant.caller.consumer = execution.consumer ∧ permits grant.snapshot execution.operation
  once : ∀ grant ∈ s.grants, grant.mode = .once → ∀ execution ∈ s.executions, execution.grantId = grant.id →
    Uses grant execution
  blank : ∀ req ∈ s.requests, req.status = .pending → ∃ details : RequestDetails, req.body = details.body

theorem empty_integrity : AuthorizationState.empty.Integrity :=
  ⟨empty_distinct, by simp [AuthorizationState.empty], by simp [AuthorizationState.empty],
    by simp [AuthorizationState.empty], by simp [AuthorizationState.empty], by simp [AuthorizationState.empty]⟩

variable {grant : AuthorizationGrant} {req : AuthorizationRequest} {grounds : Deed → Prop} {s t : AuthorizationState}

theorem Linked.of_request {old new : AuthorizationRequest} (linked : Linked old grant) (moved : RequestMove old new) :
    Linked new grant := by
  obtain ⟨requested, body, operation⟩ := linked.body
  have settled : old.status ≠ .pending := by simp [linked.approved]
  exact ⟨(moved.settled settled).1.trans linked.approved, linked.requestId.trans moved.id.symm,
    linked.caller.trans moved.caller.symm, requested, ((moved.access _ _ _ _ body).1).trans body, operation⟩

theorem Linked.of_grant {old new : AuthorizationGrant} (linked : Linked req old) (id : new.id = old.id)
    (requestId : new.requestId = old.requestId) (caller : new.caller = old.caller)
    (identity : new.identity = old.identity) (mode : new.mode = old.mode) (operation : new.operation = old.operation) :
    Linked req new := by
  obtain ⟨requested, body, same⟩ := linked.body
  refine ⟨linked.approved, requestId.trans linked.requestId, caller.trans linked.caller, requested, ?_, ?_⟩
  · rw [identity, mode, id]
    exact body
  · rw [mode, operation]
    exact same

theorem Approves.linked {next : AuthorizationRequest} (approves : Approves req next grant) : Linked next grant := by
  obtain ⟨_, requested, _, _, _, body, operation⟩ := approves.body
  refine ⟨approves.status, approves.requestId.trans approves.id.symm, approves.sameCaller.trans approves.caller.symm,
    requested, body, ?_⟩
  intro once
  obtain ⟨allowed, rfl, same⟩ := operation once
  exact ⟨same, rfl⟩

section
variable {grounds : Deed → Prop} {s : AuthorizationState} (integrity : s.Integrity)
include integrity

private theorem integrity_requests {requests : List AuthorizationRequest}
    (moved : List.Forall₂ RequestMove s.requests requests)
    (distinct : ({ s with requests } : AuthorizationState).Distinct) :
    ({ s with requests } : AuthorizationState).Integrity := by
  refine ⟨distinct, ?_, ?_, integrity.executed, integrity.once, ?_⟩
  · intro req listed approved access
    obtain ⟨old, inside, move⟩ := forall₂_mem_right moved listed
    cases body : old.body with
    | create parameters operationId status result =>
      obtain ⟨_, _, _, body', _⟩ := move.create _ _ _ _ body
      rw [body'] at access
      cases access
    | access identity requested mode grantId =>
      obtain ⟨_, before⟩ := move.access _ _ _ _ body
      obtain ⟨grant, inside', linked⟩ := integrity.approved old inside (before approved) (by rw [body]; rfl)
      exact ⟨grant, inside', linked.of_request move⟩
  · intro grant listed
    obtain ⟨old, inside, linked⟩ := integrity.granted grant listed
    obtain ⟨req, listed', move⟩ := forall₂_mem_left moved inside
    exact ⟨req, listed', linked.of_request move⟩
  · intro req listed pending
    obtain ⟨old, inside, move⟩ := forall₂_mem_right moved listed
    have before : old.status = .pending := by
      by_contra settled
      exact settled ((move.settled settled).1 ▸ pending)
    obtain ⟨details, body⟩ := integrity.blank old inside before
    refine ⟨details, ?_⟩
    cases details with
    | create parameters =>
      obtain ⟨_, _, _, body', same, _⟩ := move.create _ _ _ _ body
      obtain ⟨rfl, rfl, rfl⟩ := same pending rfl
      exact body'
    | access identity requested => exact (move.access _ _ _ _ body).1.trans body

private theorem integrity_grants {grants : List AuthorizationGrant} (moved : List.Forall₂ GrantMove s.grants grants)
    (distinct : ({ s with grants } : AuthorizationState).Distinct) : ({ s with grants } : AuthorizationState).Integrity := by
  have link : ∀ {req old new}, Linked req old → GrantMove old new → Linked req new := fun linked move =>
    linked.of_grant move.id move.requestId move.caller move.identity move.mode move.operation
  refine ⟨distinct, ?_, ?_, ?_, ?_, integrity.blank⟩
  · intro req listed approved access
    obtain ⟨old, inside, linked⟩ := integrity.approved req listed approved access
    obtain ⟨grant, listed', move⟩ := forall₂_mem_left moved inside
    exact ⟨grant, listed', link linked move⟩
  · intro grant listed
    obtain ⟨old, inside, move⟩ := forall₂_mem_right moved listed
    obtain ⟨req, listed', linked⟩ := integrity.granted old inside
    exact ⟨req, listed', link linked move⟩
  · intro execution listed
    obtain ⟨old, inside, id, consumer, permitted⟩ := integrity.executed execution listed
    obtain ⟨grant, listed', move⟩ := forall₂_mem_left moved inside
    exact ⟨grant, listed', move.id.trans id, move.caller ▸ consumer, move.snapshot ▸ permitted⟩
  · intro grant listed once execution inside' under
    obtain ⟨old, inside, move⟩ := forall₂_mem_right moved listed
    have uses := integrity.once old inside (move.mode ▸ once) execution inside' (under.trans move.id)
    exact ⟨move.executionId.trans uses.executionId, move.operation ▸ uses.fingerprint,
      fun active => uses.inactive (move.active active)⟩

private theorem integrity_executions {executions : List AuthorizationExecution}
    (moved : List.Forall₂ ExecutionMove s.executions executions)
    (distinct : ({ s with executions } : AuthorizationState).Distinct) :
    ({ s with executions } : AuthorizationState).Integrity := by
  refine ⟨distinct, integrity.approved, integrity.granted, ?_, ?_, integrity.blank⟩
  · intro execution listed
    obtain ⟨old, inside, move⟩ := forall₂_mem_right moved listed
    rw [move.grantId, move.consumer, move.operation]
    exact integrity.executed old inside
  · intro grant listed once execution inside' under
    obtain ⟨old, inside, move⟩ := forall₂_mem_right moved inside'
    have uses := integrity.once grant listed once old inside (move.grantId ▸ under)
    exact ⟨move.id ▸ uses.executionId, move.fingerprint ▸ uses.fingerprint, uses.inactive⟩

variable {req : AuthorizationRequest} {grant : AuthorizationGrant}

private theorem integrity_asked {details : RequestDetails} (pending : req.status = .pending)
    (body : req.body = details.body) (distinct : ({ s with requests := s.requests ++ [req] } : AuthorizationState).Distinct) :
    ({ s with requests := s.requests ++ [req] } : AuthorizationState).Integrity := by
  refine ⟨distinct, ?_, ?_, integrity.executed, integrity.once, ?_⟩
  · intro other listed approved access
    rcases List.mem_append.mp listed with before | last
    · exact integrity.approved other before approved access
    · rw [List.mem_singleton.mp last, pending] at approved
      cases approved
  · intro grant listed
    obtain ⟨other, inside, linked⟩ := integrity.granted grant listed
    exact ⟨other, List.mem_append_left _ inside, linked⟩
  · intro other listed waits
    rcases List.mem_append.mp listed with before | last
    · exact integrity.blank other before waits
    · rw [List.mem_singleton.mp last]
      exact ⟨details, body⟩

private theorem integrity_granted {before after : List AuthorizationRequest} {next : AuthorizationRequest}
    (split : s.requests = before ++ req :: after) (approves : Approves req next grant)
    (new : grant.id ∉ s.grants.map (·.id))
    (distinct : ({ s with requests := before ++ next :: after, grants := s.grants ++ [grant] } : AuthorizationState).Distinct) :
    ({ s with requests := before ++ next :: after, grants := s.grants ++ [grant] } : AuthorizationState).Integrity := by
  -- a request other than the one that is approved is where it was
  have kept : ∀ other ∈ s.requests, other.status ≠ .pending → other ∈ before ++ next :: after := by
    intro other listed settled
    rw [split] at listed
    exact (mem_replaced listed).resolve_left (fun is => settled (is ▸ approves.pending))
  have known : ∀ other ∈ before ++ next :: after, other = next ∨ other ∈ s.requests := by
    intro other listed
    rw [split]
    exact mem_replaced listed
  refine ⟨distinct, ?_, ?_, ?_, ?_, ?_⟩
  · intro other listed approved access
    rcases known other listed with rfl | inside
    · exact ⟨grant, by simp, approves.linked⟩
    · obtain ⟨old, listed', linked⟩ := integrity.approved other inside approved access
      exact ⟨old, List.mem_append_left _ listed', linked⟩
  · intro other listed
    rcases List.mem_append.mp listed with old | last
    · obtain ⟨owner, inside, linked⟩ := integrity.granted other old
      exact ⟨owner, kept owner inside (by simp [linked.approved]), linked⟩
    · rw [List.mem_singleton.mp last]
      exact ⟨next, by simp, approves.linked⟩
  · intro execution listed
    obtain ⟨old, inside, facts⟩ := integrity.executed execution listed
    exact ⟨old, List.mem_append_left _ inside, facts⟩
  · intro other listed once execution inside under
    rcases List.mem_append.mp listed with old | last
    · exact integrity.once other old once execution inside under
    · -- no execution is under a grant that is new
      rw [List.mem_singleton.mp last] at under
      obtain ⟨old, listed', id, _⟩ := integrity.executed execution inside
      exact absurd (List.mem_map.mpr ⟨old, listed', id.trans under⟩) new
  · intro other listed pending
    rcases known other listed with rfl | inside
    · rw [approves.status] at pending
      cases pending
    · exact integrity.blank other inside pending

private theorem integrity_admitted {before after : List AuthorizationGrant} {next : AuthorizationGrant}
    {execution : AuthorizationExecution} (split : s.grants = before ++ grant :: after)
    (admits : Admits grant next execution)
    (distinct : ({ s with grants := before ++ next :: after, executions := s.executions ++ [execution] } :
      AuthorizationState).Distinct) :
    ({ s with grants := before ++ next :: after, executions := s.executions ++ [execution] } :
      AuthorizationState).Integrity := by
  have same : next.id = grant.id ∧ next.requestId = grant.requestId ∧ next.caller = grant.caller ∧
      next.identity = grant.identity ∧ next.mode = grant.mode ∧ next.operation = grant.operation ∧
      next.snapshot = grant.snapshot := by
    by_cases once : grant.mode = .once
    · rw [(admits.once once).2]
      simp
    · rw [admits.permanent once]
      simp
  obtain ⟨id, requestId, caller, identity, mode, operation, snapshot⟩ := same
  have held : grant ∈ s.grants := by simp [split]
  -- every grant but the one that is used is where it was
  have forward : ∀ other ∈ s.grants, other = grant ∨ other ∈ before ++ next :: after := by
    intro other listed
    rw [split] at listed
    exact mem_replaced listed
  have backward : ∀ other ∈ before ++ next :: after, other = next ∨ other ∈ s.grants := by
    intro other listed
    rw [split]
    exact mem_replaced listed
  have present : next ∈ before ++ next :: after := by simp
  refine ⟨distinct, ?_, ?_, ?_, ?_, integrity.blank⟩
  · intro req listed approved access
    obtain ⟨old, inside, linked⟩ := integrity.approved req listed approved access
    rcases forward old inside with rfl | still
    · exact ⟨next, present, linked.of_grant id requestId caller identity mode operation⟩
    · exact ⟨old, still, linked⟩
  · intro other listed
    rcases backward other listed with rfl | inside
    · obtain ⟨req, listed', linked⟩ := integrity.granted grant held
      exact ⟨req, listed', linked.of_grant id requestId caller identity mode operation⟩
    · exact integrity.granted other inside
  · intro other listed
    rcases List.mem_append.mp listed with old | last
    · obtain ⟨under, inside, named, consumer, permitted⟩ := integrity.executed other old
      rcases forward under inside with rfl | still
      · exact ⟨next, present, id.trans named, caller ▸ consumer, snapshot ▸ permitted⟩
      · exact ⟨under, still, named, consumer, permitted⟩
    · rw [List.mem_singleton.mp last]
      exact ⟨next, present, id.trans admits.grantId.symm, by rw [caller, admits.consumer], by rw [snapshot]; exact admits.permitted⟩
  · intro other listed once use inside under
    rcases List.mem_append.mp inside with old | last
    · rcases backward other listed with rfl | inside'
      · -- a grant for one operation had no execution while it was active
        have uses := integrity.once grant held (mode ▸ once) use old (under.trans id)
        exact absurd admits.active uses.inactive
      · exact integrity.once other inside' once use old under
    · rw [List.mem_singleton.mp last] at under ⊢
      have named : other.id = next.id := under.symm.trans (admits.grantId.trans id.symm)
      obtain rfl : other = next := List.inj_on_of_nodup_map distinct.grants listed present named
      have single : grant.mode = .once := mode ▸ once
      obtain ⟨fingerprint, is⟩ := admits.once single
      rw [is]
      exact ⟨rfl, fingerprint, by simp⟩

end

theorem Change.integrity (change : Change grounds s t) (integrity : s.Integrity) : t.Integrity := by
  have distinct := change.distinct integrity.distinct
  cases change with
  | renumbered _ _ | lifted _ | suppressed _ | fenced _ _ | completed _ _ _ =>
    exact ⟨distinct, integrity.approved, integrity.granted, integrity.executed, integrity.once, integrity.blank⟩
  | requests moved => exact integrity_requests integrity moved distinct
  | grants moved => exact integrity_grants integrity moved distinct
  | executions moved => exact integrity_executions integrity moved distinct
  | asked details _ pending body _ => exact integrity_asked integrity pending body distinct
  | granted split approves _ new _ => exact integrity_granted integrity split approves new distinct
  | admitted split admits _ => exact integrity_admitted integrity split admits distinct

theorem Changes.integrity (changes : Changes grounds s t) (integrity : s.Integrity) : t.Integrity := by
  induction changes with
  | refl => exact integrity
  | tail _ change ih => exact change.integrity ih

/-! ## Runs -/

namespace AuthorizationRequest

def executionStatus (req : AuthorizationRequest) : Option CreationStatus :=
  match req.body with
  | .create _ _ status _ => status
  | .access .. => none

def result (req : AuthorizationRequest) : Option CreateResult :=
  match req.body with
  | .create _ _ _ result => result
  | .access .. => none

end AuthorizationRequest

/-- Between two points of a run the ledger only changes by changes. -/
theorem Engine.Sound.later {platform : Platform} {e : Engine} (sound : e.Sound platform) (events : List Event)
    (read : e.file = some s) : ∃ t, (e.run platform events).file = some t ∧ Later s t := by
  induction events generalizing e s with
  | nil => exact ⟨s, read, .refl s⟩
  | cons event rest ih =>
    have one : ∃ t, (e.step platform event).file = some t ∧ Later s t := by
      rw [Engine.step_file, read]
      by_cases wrote : e.written platform event = []
      · rw [wrote]
        exact ⟨s, rfl, .refl s⟩
      · obtain ⟨i, answers, fault, thread, _, _, traced⟩ := sound.traced event wrote
        rw [read] at traced
        exact traced_later traced
    obtain ⟨t, read', first⟩ := one
    obtain ⟨u, read'', second⟩ := ih (sound.step event) read'
    exact ⟨u, read'', first.trans second⟩

/-- The integrity of every ledger of a run, and what becomes of a request in the rest of the run. -/
theorem ledger_integrity (platform : Platform) (events more : List Event) (s : AuthorizationState)
    (reached : (Engine.new.run platform events).file = some s) :
    (∀ req ∈ s.requests, req.status = .approved → req.body.kind = .access →
        ∃! grant, grant ∈ s.grants ∧ Linked req grant) ∧
      (∀ grant ∈ s.grants, ∃! req, req ∈ s.requests ∧ Linked req grant) ∧
      s.Distinct ∧
      (∀ execution ∈ s.executions, ∃ grant ∈ s.grants, grant.id = execution.grantId ∧
        grant.caller.consumer = execution.consumer ∧ permits grant.snapshot execution.operation) ∧
      (∀ grant ∈ s.grants, grant.mode = .once →
        (∀ first ∈ s.executions, ∀ second ∈ s.executions, first.grantId = grant.id → second.grantId = grant.id →
          first = second) ∧
        (∀ execution ∈ s.executions, execution.grantId = grant.id → grant.executionId = some execution.id ∧
          grant.operation.map (·.fingerprint) = some execution.fingerprint) ∧
        (grant.status = .active → ∀ execution ∈ s.executions, execution.grantId ≠ grant.id)) ∧
      ∃ t, (Engine.new.run platform (events ++ more)).file = some t ∧ ∀ req ∈ s.requests, ∃ later ∈ t.requests,
        later.id = req.id ∧
          (req.status ≠ .pending → later.status = req.status ∧ later.decidedAt = req.decidedAt) ∧
          (req.executionStatus = some .deleted → later.executionStatus = some .deleted) ∧
          ∀ known, req.result = some known → ∃ reported, later.result = some reported ∧
            reported.reference = known.reference := by
  have sound : (Engine.new.run platform events).Sound platform := Engine.Sound.new.run events
  have integrity : s.Integrity := (sound.ledger s reached).integrity empty_integrity
  refine ⟨?_, ?_, integrity.distinct, integrity.executed, ?_, ?_⟩
  · intro req listed approved access
    obtain ⟨grant, inside, linked⟩ := integrity.approved req listed approved access
    refine ⟨grant, ⟨inside, linked⟩, ?_⟩
    rintro other ⟨inside', linked'⟩
    obtain ⟨_, body, _⟩ := linked.body
    obtain ⟨_, body', _⟩ := linked'.body
    have same : other.id = grant.id := by
      have equal := body.symm.trans body'
      simp only [RequestBody.access.injEq, Option.some.injEq] at equal
      exact equal.2.2.2.symm
    exact List.inj_on_of_nodup_map integrity.distinct.grants inside' inside same
  · intro grant listed
    obtain ⟨req, inside, linked⟩ := integrity.granted grant listed
    refine ⟨req, ⟨inside, linked⟩, ?_⟩
    rintro other ⟨inside', linked'⟩
    exact List.inj_on_of_nodup_map integrity.distinct.requests inside' inside
      (linked'.requestId.symm.trans linked.requestId)
  · intro grant listed once
    have uses := integrity.once grant listed once
    refine ⟨?_, ?_, ?_⟩
    · intro first inside second inside' under under'
      have same := (uses first inside under).executionId.symm.trans (uses second inside' under').executionId
      exact List.inj_on_of_nodup_map integrity.distinct.executions inside inside' (Option.some.inj same)
    · exact fun execution inside under => ⟨(uses execution inside under).executionId, (uses execution inside under).fingerprint⟩
    · exact fun active execution inside under => (uses execution inside under).inactive active
  · have split : Engine.new.run platform (events ++ more) = (Engine.new.run platform events).run platform more :=
      List.foldl_append
    rw [split]
    obtain ⟨t, read, later⟩ := sound.later more reached
    refine ⟨t, read, fun req listed => ?_⟩
    obtain ⟨found, inside, tracks⟩ := later.changes.tracks listed
    refine ⟨found, inside, tracks.id, tracks.settled, ?_, ?_⟩
    · intro deleted
      have settled : req.status ≠ .pending := by
        intro pending
        obtain ⟨details, body⟩ := integrity.blank req listed pending
        cases details <;> simp [AuthorizationRequest.executionStatus, body, RequestDetails.body] at deleted
      cases body : req.body with
      | access _ _ _ _ => simp [AuthorizationRequest.executionStatus, body] at deleted
      | create parameters operationId status result =>
        obtain ⟨_, status', _, body', kept, _⟩ := tracks.create _ _ _ _ body
        simp only [AuthorizationRequest.executionStatus, body] at deleted
        simp only [AuthorizationRequest.executionStatus, body']
        exact (kept settled).2 deleted
    · intro known is
      cases body : req.body with
      | access _ _ _ _ => simp [AuthorizationRequest.result, body] at is
      | create parameters operationId status result =>
        obtain ⟨_, _, result', body', _, reported⟩ := tracks.create _ _ _ _ body
        simp only [AuthorizationRequest.result, body] at is
        simp only [AuthorizationRequest.result, body']
        exact reported known is

/-- A run in which an operation is allowed once and admitted. -/
theorem ledger_integrity_admitted :
    ∃ s, (Engine.new.run Plain.platform Plain.admitting).file = some s ∧ s.grants.length = 1 ∧ s.executions.length = 1 ∧
      ∀ grant ∈ s.grants, ∃! req, req ∈ s.requests ∧ Linked req grant := by
  have ran : (Engine.new.run Plain.platform Plain.admitting).file.any
      (fun s => decide (s.grants.length = 1 ∧ s.executions.length = 1)) = true := by decide +kernel
  cases reached : (Engine.new.run Plain.platform Plain.admitting).file with
  | none =>
    rw [reached] at ran
    cases ran
  | some s =>
    rw [reached] at ran
    obtain ⟨grants, executions⟩ := of_decide_eq_true ran
    exact ⟨s, rfl, grants, executions, (ledger_integrity Plain.platform Plain.admitting [] s reached).2.1⟩

end AnpIdentity.Ledger
