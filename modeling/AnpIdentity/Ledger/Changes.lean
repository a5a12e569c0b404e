import Mathlib.Data.List.Forall2
import Mathlib.Logic.Relation
import AnpIdentity.Ledger.Engine

/-! What the operations can do to the ledger, as small changes. Every invariant of the ledger is shown for these changes
only. -/

namespace AnpIdentity.Ledger
open Relation

/-- What may happen to a request: it is decided once, and a creation reports its result. -/
structure RequestMove (old new : AuthorizationRequest) : Prop where
  id : new.id = old.id
  caller : new.caller = old.caller
  settled : old.status ≠ .pending → new.status = old.status ∧ new.decidedAt = old.decidedAt
  access : ∀ identity requested mode grantId, old.body = .access identity requested mode grantId →
    new.body = old.body ∧ (new.status = .approved → old.status = .approved)
  create : ∀ parameters operationId status result, old.body = .create parameters operationId status result →
    ∃ operationId' status' result', new.body = .create parameters operationId' status' result' ∧
      (new.status = .pending → result = none → operationId' = operationId ∧ status' = status ∧ result' = none) ∧
      (old.status ≠ .pending → operationId' = operationId ∧ (status = some .deleted → status' = some .deleted)) ∧
      ∀ known ∈ result, ∃ reported ∈ result', reported.reference = known.reference

structure GrantMove (old new : AuthorizationGrant) : Prop where
  id : new.id = old.id
  requestId : new.requestId = old.requestId
  caller : new.caller = old.caller
  identity : new.identity = old.identity
  snapshot : new.snapshot = old.snapshot
  mode : new.mode = old.mode
  operation : new.operation = old.operation
  executionId : new.executionId = old.executionId
  active : new.status = .active → old.status = .active
  revoked : old.status = .revoked → new.status = .revoked

structure ExecutionMove (old new : AuthorizationExecution) : Prop where
  id : new.id = old.id
  grantId : new.grantId = old.grantId
  consumer : new.consumer = old.consumer
  fingerprint : new.fingerprint = old.fingerprint
  operation : new.operation = old.operation

/-- The changes that need a ground outside the ledger. An operation does not renumber the ledger; the write does. -/
inductive Deed where
  | renumber
  | lift (req : AuthorizationRequest)
  | issue (grantId : String)
  | fence (target : IdentityReference)
  | complete (target : IdentityReference)

namespace AuthorizationState

/-- The identity is being deleted, or deleted. -/
def Fenced (state : AuthorizationState) (target : IdentityReference) : Prop :=
  target ∈ state.deletingIdentities ∨ target ∈ state.deletedIdentities

def Quiet (state : AuthorizationState) (target : IdentityReference) : Prop :=
  ∀ grant ∈ state.grants, grant.identity = target → grant.status ≠ .active

variable {state : AuthorizationState} {target : IdentityReference} {id : String} {req : AuthorizationRequest}

theorem identityAvailable_ok {u : Unit} : state.identityAvailable target = .ok u ↔ ¬ state.Fenced target := by
  simp [identityAvailable, Fenced]

theorem isGranted_false : state.isGranted target = false ↔ state.Quiet target := by
  simp [isGranted, Quiet]

theorem isDeleted_iff : state.isDeleted target = true ↔ target ∈ state.deletedIdentities := by
  simp [isDeleted]

theorem isDeleting_iff : state.isDeleting target = true ↔ target ∈ state.deletingIdentities := by
  simp [isDeleting]

theorem findRequest_ok :
    state.findRequest id = .ok req ↔ state.requests.find? (fun value => value.id == id) = some req := by
  simp [findRequest]

theorem findRequest_id (found : state.findRequest id = .ok req) : req.id = id := by
  simpa using List.find?_some (findRequest_ok.mp found)

theorem findGrant_ok {grant : AuthorizationGrant} :
    state.findGrant id = .ok grant ↔ state.grants.find? (fun value => value.id == id) = some grant := by
  simp [findGrant]

end AuthorizationState

/-- The grant that an approval of `req` makes, and the approved request. -/
structure Approves (req next : AuthorizationRequest) (grant : AuthorizationGrant) : Prop where
  pending : req.status = .pending
  id : next.id = req.id
  caller : next.caller = req.caller
  status : next.status = .approved
  body : ∃ named requested mode grantId, req.body = .access named requested mode grantId ∧
    next.body = .access (some grant.identity) requested (some grant.mode) (some grant.id) ∧
    (grant.mode = .once → ∃ allowed, requested = some allowed ∧ grant.operation = some allowed)
  requestId : grant.requestId = req.id
  sameCaller : grant.caller = req.caller
  active : grant.status = .active
  unused : grant.executionId = none

/-- An execution under a grant; a grant for one operation is used up by it. -/
structure Admits (grant next : AuthorizationGrant) (execution : AuthorizationExecution) : Prop where
  active : grant.status = .active
  grantId : execution.grantId = grant.id
  consumer : execution.consumer = grant.caller.consumer
  permitted : permits grant.snapshot execution.operation
  once : grant.mode = .once → grant.operation.map (·.fingerprint) = some execution.fingerprint ∧
    next = { grant with status := .consumed, version := grant.version + 1, executionId := some execution.id }
  permanent : grant.mode ≠ .once → next = grant

inductive Change (grounds : Deed → Prop) (s : AuthorizationState) : AuthorizationState → Prop
  | renumbered (ground : grounds .renumber) (generation : Nat) : Change grounds s { s with generation }
  | requests {requests : List AuthorizationRequest} (moved : List.Forall₂ RequestMove s.requests requests) :
    Change grounds s { s with requests }
  | grants {grants : List AuthorizationGrant} (moved : List.Forall₂ GrantMove s.grants grants) :
    Change grounds s { s with grants }
  | executions {executions : List AuthorizationExecution} (moved : List.Forall₂ ExecutionMove s.executions executions) :
    Change grounds s { s with executions }
  | asked {req : AuthorizationRequest} (details : RequestDetails) (new : req.id ∉ s.requests.map (·.id))
      (pending : req.status = .pending) (body : req.body = details.body)
      (free : ∀ block ∈ s.suppressions, block.blocks req.caller details = false) :
    Change grounds s { s with requests := s.requests ++ [req] }
  | lifted {req : AuthorizationRequest} (ground : grounds (.lift req)) :
    Change grounds s { s with suppressions := s.suppressions.filter (fun block => !block.isLifted req) }
  | suppressed (block : Suppression) : Change grounds s { s with suppressions := s.suppressions ++ [block] }
  | granted {before after : List AuthorizationRequest} {req next : AuthorizationRequest} {grant : AuthorizationGrant}
      (split : s.requests = before ++ req :: after) (approves : Approves req next grant)
      (ground : grounds (.issue grant.id)) (new : grant.id ∉ s.grants.map (·.id)) (available : ¬ s.Fenced grant.identity) :
    Change grounds s { s with requests := before ++ next :: after, grants := s.grants ++ [grant] }
  | admitted {before after : List AuthorizationGrant} {grant next : AuthorizationGrant}
      {execution : AuthorizationExecution} (split : s.grants = before ++ grant :: after)
      (admits : Admits grant next execution) (new : execution.id ∉ s.executions.map (·.id)) :
    Change grounds s { s with grants := before ++ next :: after, executions := s.executions ++ [execution] }
  | fenced {target : IdentityReference} (ground : grounds (.fence target)) (open' : ¬ s.Fenced target) :
    Change grounds s (s.addFence target)
  | completed {target : IdentityReference} (ground : grounds (.complete target)) (fence : s.Fenced target)
      (quiet : s.Quiet target) :
    Change grounds s
      { s with
        deletingIdentities := s.deletingIdentities.filter (fun ref => !equalIdentity ref target)
        deletedIdentities :=
          if s.isDeleted target then s.deletedIdentities else s.deletedIdentities ++ [target] }

/-- A sequence of changes. -/
abbrev Changes (grounds : Deed → Prop) : AuthorizationState → AuthorizationState → Prop := ReflTransGen (Change grounds)

variable {grounds : Deed → Prop} {s t : AuthorizationState} {old new req : AuthorizationRequest} {supply : String → Prop}

theorem Change.mono {more : Deed → Prop} (weaker : ∀ deed, grounds deed → more deed) (change : Change grounds s t) :
    Change more s t := by
  cases change with
  | renumbered ground generation => exact .renumbered (weaker _ ground) generation
  | requests moved => exact .requests moved
  | grants moved => exact .grants moved
  | executions moved => exact .executions moved
  | asked details new pending body free => exact .asked details new pending body free
  | lifted ground => exact .lifted (weaker _ ground)
  | suppressed block => exact .suppressed block
  | granted split approves ground new available => exact .granted split approves (weaker _ ground) new available
  | admitted split admits new => exact .admitted split admits new
  | fenced ground open' => exact .fenced (weaker _ ground) open'
  | completed ground fence quiet => exact .completed (weaker _ ground) fence quiet

theorem Changes.mono {grounds more : Deed → Prop} (weaker : ∀ deed, grounds deed → more deed)
    {s t : AuthorizationState} (changes : Changes grounds s t) : Changes more s t :=
  ReflTransGen.mono (fun _ _ => Change.mono weaker) _ _ changes

theorem Changes.generation {grounds : Deed → Prop} (kept : ¬ grounds .renumber) {s t : AuthorizationState}
    (changes : Changes grounds s t) : t.generation = s.generation := by
  induction changes with
  | refl => rfl
  | tail _ change ih =>
    cases change with
    | renumbered ground _ => exact absurd ground kept
    | _ => exact ih

/-! ## Updates of one record -/

section
variable {α : Type} {R : α → α → Prop}

/-- Every entry but the one that is replaced is where it was. -/
theorem mem_replaced {before after : List α} {old new other : α} (listed : other ∈ before ++ old :: after) :
    other = old ∨ other ∈ before ++ new :: after := by
  simp only [List.mem_append, List.mem_cons] at listed ⊢
  tauto

theorem forall₂_middle (same : ∀ a, R a a) {old new : α} (moved : R old new) (before after : List α) :
    List.Forall₂ R (before ++ old :: after) (before ++ new :: after) :=
  List.rel_append (List.forall₂_same.mpr (fun a _ => same a)) (.cons moved (List.forall₂_same.mpr (fun a _ => same a)))

theorem forall₂_map {f : α → α} (moved : ∀ a, R a (f a)) (list : List α) : List.Forall₂ R list (list.map f) := by
  rw [List.forall₂_map_right_iff]
  exact List.forall₂_same.mpr (fun a _ => moved a)

end

theorem RequestMove.refl (req : AuthorizationRequest) : RequestMove req req where
  id := rfl
  caller := rfl
  settled _ := ⟨rfl, rfl⟩
  access _ _ _ _ _ := ⟨rfl, fun same => same⟩
  create _ operationId status result body :=
    ⟨operationId, status, result, body, fun _ none => ⟨rfl, rfl, none⟩, fun _ => ⟨rfl, fun same => same⟩,
      fun known inside => ⟨known, inside, rfl⟩⟩

/-- A request that keeps its decision and its body. -/
theorem RequestMove.kept (id : new.id = old.id) (caller : new.caller = old.caller) (status : new.status = old.status)
    (decidedAt : new.decidedAt = old.decidedAt) (body : new.body = old.body) : RequestMove old new where
  id := id
  caller := caller
  settled _ := ⟨status, decidedAt⟩
  access _ _ _ _ _ := ⟨body, fun approved => status ▸ approved⟩
  create _ operationId status result same :=
    ⟨operationId, status, result, body.trans same, fun _ none => ⟨rfl, rfl, none⟩, fun _ => ⟨rfl, fun same => same⟩,
      fun known inside => ⟨known, inside, rfl⟩⟩

/-- A pending request that is closed without an approval. -/
theorem RequestMove.closed (id : new.id = old.id) (caller : new.caller = old.caller) (pending : old.status = .pending)
    (open' : new.status ≠ .approved) (body : new.body = old.body) : RequestMove old new where
  id := id
  caller := caller
  settled decided := absurd pending decided
  access _ _ _ _ _ := ⟨body, fun approved => absurd approved open'⟩
  create _ operationId status result same :=
    ⟨operationId, status, result, body.trans same, fun _ none => ⟨rfl, rfl, none⟩, fun decided => absurd pending decided,
      fun known inside => ⟨known, inside, rfl⟩⟩

theorem GrantMove.refl (grant : AuthorizationGrant) : GrantMove grant grant :=
  ⟨rfl, rfl, rfl, rfl, rfl, rfl, rfl, rfl, fun same => same, fun same => same⟩

theorem ExecutionMove.refl (execution : AuthorizationExecution) : ExecutionMove execution execution :=
  ⟨rfl, rfl, rfl, rfl, rfl⟩

section
variable {grounds : Deed → Prop} {s : AuthorizationState}

theorem Change.replaceRequest {id : String} {req next : AuthorizationRequest} (found : s.findRequest id = .ok req)
    (moved : RequestMove req next) : Change grounds s (s.replaceRequest next) := by
  rw [AuthorizationState.findRequest_ok] at found
  have named : req.id = id := by simpa using List.find?_some found
  have same : next.id = id := moved.id.trans named
  obtain ⟨before, after, split, replaced⟩ := replaceFirst_of_find next found
  unfold AuthorizationState.replaceRequest
  rw [same, replaced]
  refine .requests ?_
  rw [split]
  exact forall₂_middle .refl moved before after

theorem Change.replaceGrant {id : String} {grant next : AuthorizationGrant} (found : s.findGrant id = .ok grant)
    (moved : GrantMove grant next) : Change grounds s (s.replaceGrant next) := by
  rw [AuthorizationState.findGrant_ok] at found
  have named : grant.id = id := by simpa using List.find?_some found
  have same : next.id = id := moved.id.trans named
  obtain ⟨before, after, split, replaced⟩ := replaceFirst_of_find next found
  unfold AuthorizationState.replaceGrant
  rw [same, replaced]
  refine .grants ?_
  rw [split]
  exact forall₂_middle .refl moved before after

/-- Time alone closes pending requests and ends grants for one operation. -/
theorem expire_changes (now : Int) (s : AuthorizationState) : Changes grounds s (s.expire now) := by
  refine (ReflTransGen.single (.requests (forall₂_map ?_ _))).tail (.grants (forall₂_map ?_ _))
  · intro grant
    by_cases due : grant.status = .active ∧ grant.mode = .once ∧ grant.expiresAt.any (· ≤ now)
    · rw [if_pos due]
      refine ⟨rfl, rfl, rfl, rfl, rfl, rfl, rfl, rfl, ?_, ?_⟩ <;> simp [due.1]
    · rw [if_neg due]
      exact .refl grant
  · intro req
    by_cases due : req.status = .pending ∧ req.expiresAt ≤ now
    · rw [if_pos due]
      exact .closed rfl rfl due.1 (by simp) rfl
    · rw [if_neg due]
      exact .refl req

theorem completeDeletion_changes {target : IdentityReference} (ground : grounds (.complete target))
    (fence : s.Fenced target) (quiet : s.Quiet target) : Changes grounds s (s.completeDeletion target) := by
  refine (ReflTransGen.single (.completed ground fence quiet)).tail (.requests (forall₂_map ?_ _))
  intro req
  rcases body : req.body with ⟨parameters, operationId, status, _ | result⟩ | _
  · exact .refl req
  · dsimp only
    split
    · refine ⟨rfl, rfl, fun _ => ⟨rfl, rfl⟩, by simp [body], ?_⟩
      intro _ _ _ _ same
      cases body.symm.trans same
      exact ⟨_, _, _, rfl, by simp, fun _ => ⟨rfl, fun _ => rfl⟩, by simp⟩
    · exact .refl req
  · exact .refl req

end

/-! ## Identifiers -/

theorem forall₂_map_eq {α β : Type} {R : α → α → Prop} {key : α → β} (same : ∀ a b, R a b → key b = key a)
    {old new : List α} (moved : List.Forall₂ R old new) : new.map key = old.map key := by
  induction moved with
  | nil => rfl
  | cons first _ ih => simp only [List.map_cons, same _ _ first, ih]

/-- The elements of a list after a move, each with the one that it was. -/
theorem forall₂_mem_right {α β : Type} {R : α → β → Prop} {old : List α} {new : List β} (moved : List.Forall₂ R old new)
    {b : β} (listed : b ∈ new) : ∃ a ∈ old, R a b := by
  induction moved with
  | nil => cases listed
  | cons first rest ih =>
    rcases List.mem_cons.mp listed with rfl | later
    · exact ⟨_, List.mem_cons_self, first⟩
    · obtain ⟨a, inside, related⟩ := ih later
      exact ⟨a, List.mem_cons_of_mem _ inside, related⟩

theorem forall₂_mem_left {α β : Type} {R : α → β → Prop} {old : List α} {new : List β} (moved : List.Forall₂ R old new)
    {a : α} (listed : a ∈ old) : ∃ b ∈ new, R a b := by
  obtain ⟨b, inside, related⟩ := forall₂_mem_right moved.flip listed
  exact ⟨b, inside, related⟩

structure AuthorizationState.Distinct (s : AuthorizationState) : Prop where
  requests : (s.requests.map (·.id)).Nodup
  grants : (s.grants.map (·.id)).Nodup
  executions : (s.executions.map (·.id)).Nodup

private theorem nodup_snoc {ids : List String} (distinct : ids.Nodup) {id : String} (new : id ∉ ids) :
    (ids ++ [id]).Nodup := by
  rw [List.nodup_append]
  refine ⟨distinct, by simp, ?_⟩
  intro a listed b last
  rw [List.mem_singleton.mp last]
  exact fun same => new (same ▸ listed)

theorem Change.distinct (change : Change grounds s t) (distinct : s.Distinct) : t.Distinct := by
  obtain ⟨requests, grants, executions⟩ := distinct
  cases change with
  | renumbered _ _ | lifted _ | suppressed _ | fenced _ _ | completed _ _ _ => exact ⟨requests, grants, executions⟩
  | requests moved => exact ⟨forall₂_map_eq (fun _ _ move => move.id) moved ▸ requests, grants, executions⟩
  | grants moved => exact ⟨requests, forall₂_map_eq (fun _ _ move => move.id) moved ▸ grants, executions⟩
  | executions moved => exact ⟨requests, grants, forall₂_map_eq (fun _ _ move => move.id) moved ▸ executions⟩
  | asked details new _ _ _ =>
    refine ⟨?_, grants, executions⟩
    simpa using nodup_snoc requests new
  | granted split approves _ new _ =>
    refine ⟨?_, by simpa using nodup_snoc grants new, executions⟩
    rw [split] at requests
    simpa [approves.id] using requests
  | @admitted _ _ grant next execution split admits new =>
    have id : next.id = grant.id := by
      by_cases mode : grant.mode = .once
      · rw [(admits.once mode).2]
      · rw [admits.permanent mode]
    refine ⟨requests, ?_, by simpa using nodup_snoc executions new⟩
    rw [split] at grants
    simpa [id] using grants

theorem Changes.distinct (changes : Changes grounds s t) (distinct : s.Distinct) : t.Distinct := by
  induction changes with
  | refl => exact distinct
  | tail _ change ih => exact change.distinct ih

/-- The grants have identifiers from the given supply. -/
def AuthorizationState.Issued (s : AuthorizationState) (supply : String → Prop) : Prop :=
  ∀ grant ∈ s.grants, supply grant.id

theorem Change.issued (change : Change grounds s t) (ground : ∀ id, grounds (.issue id) → supply id)
    (issued : s.Issued supply) : t.Issued supply := by
  cases change with
  | grants moved =>
    intro grant listed
    obtain ⟨old, inside, move⟩ := forall₂_mem_right moved listed
    exact move.id ▸ issued old inside
  | granted _ _ named _ _ =>
    intro grant listed
    rcases List.mem_append.mp listed with before | last
    · exact issued grant before
    · rw [List.mem_singleton.mp last]
      exact ground _ named
  | @admitted before after old next execution split admits _ =>
    intro grant listed
    have known : supply old.id := issued old (by simp [split])
    rcases mem_replaced listed with rfl | kept
    · by_cases once : old.mode = .once
      · rw [(admits.once once).2]
        exact known
      · rw [admits.permanent once]
        exact known
    · exact issued grant (split ▸ kept)
  | _ => exact issued

theorem Changes.issued (changes : Changes grounds s t) (ground : ∀ id, grounds (.issue id) → supply id)
    (issued : s.Issued supply) : t.Issued supply := by
  induction changes with
  | refl => exact issued
  | tail _ change ih => exact change.issued ground ih

/-! ## Requests over time -/

theorem RequestMove.kind (moved : RequestMove old new) : new.body.kind = old.body.kind := by
  cases body : old.body with
  | create parameters operationId status result =>
    obtain ⟨_, _, _, body', _⟩ := moved.create _ _ _ _ body
    rw [body']
    rfl
  | access identity requested mode grantId => rw [(moved.access _ _ _ _ body).1, body]

/-- A request and what has become of it. -/
structure Tracks (old new : AuthorizationRequest) : Prop where
  id : new.id = old.id
  caller : new.caller = old.caller
  kind : new.body.kind = old.body.kind
  settled : old.status ≠ .pending → new.status = old.status ∧ new.decidedAt = old.decidedAt
  create : ∀ parameters operationId status result, old.body = .create parameters operationId status result →
    ∃ operationId' status' result', new.body = .create parameters operationId' status' result' ∧
      (old.status ≠ .pending → operationId' = operationId ∧ (status = some .deleted → status' = some .deleted)) ∧
      ∀ known ∈ result, ∃ reported ∈ result', reported.reference = known.reference

namespace Tracks

variable {old new : AuthorizationRequest}

theorem of_move (moved : RequestMove old new) : Tracks old new where
  id := moved.id
  caller := moved.caller
  kind := moved.kind
  settled := moved.settled
  create parameters operationId status result body := by
    obtain ⟨operationId', status', result', same, _, decided, reported⟩ := moved.create _ _ _ _ body
    exact ⟨operationId', status', result', same, decided, reported⟩

theorem refl (req : AuthorizationRequest) : Tracks req req := of_move (.refl req)

theorem of_approval {grant : AuthorizationGrant} (approves : Approves old new grant) : Tracks old new where
  id := approves.id
  caller := approves.caller
  kind := by
    obtain ⟨_, _, _, _, before, after, _⟩ := approves.body
    rw [before, after]
    rfl
  settled decided := absurd approves.pending decided
  create parameters operationId status result body := by
    obtain ⟨_, _, _, _, access, _⟩ := approves.body
    cases body.symm.trans access

theorem trans {first second third : AuthorizationRequest} (earlier : Tracks first second) (later : Tracks second third) :
    Tracks first third where
  id := later.id.trans earlier.id
  caller := later.caller.trans earlier.caller
  kind := later.kind.trans earlier.kind
  settled decided := by
    obtain ⟨status, decidedAt⟩ := earlier.settled decided
    obtain ⟨status', decidedAt'⟩ := later.settled (status ▸ decided)
    exact ⟨status'.trans status, decidedAt'.trans decidedAt⟩
  create parameters operationId status result body := by
    obtain ⟨operationId', status', result', body', decided', reported'⟩ := earlier.create _ _ _ _ body
    obtain ⟨operationId'', status'', result'', body'', decided'', reported''⟩ := later.create _ _ _ _ body'
    refine ⟨operationId'', status'', result'', body'', fun decided => ?_, fun known inside => ?_⟩
    · obtain ⟨sameId, deleted⟩ := decided' decided
      obtain ⟨sameId', deleted'⟩ := decided'' ((earlier.settled decided).1 ▸ decided)
      exact ⟨sameId'.trans sameId, fun marked => deleted' (deleted marked)⟩
    · obtain ⟨middle, listed, same⟩ := reported' known inside
      obtain ⟨last, listed', same'⟩ := reported'' middle listed
      exact ⟨last, listed', same'.trans same⟩

end Tracks

theorem Change.tracks (change : Change grounds s t) (listed : req ∈ s.requests) : ∃ later ∈ t.requests, Tracks req later := by
  cases change with
  | requests moved =>
    obtain ⟨later, inside, move⟩ := forall₂_mem_left moved listed
    exact ⟨later, inside, .of_move move⟩
  | asked _ _ _ _ _ => exact ⟨req, List.mem_append_left _ listed, .refl req⟩
  | @granted before after old next grant split approves _ _ _ =>
    rw [split] at listed
    rcases mem_replaced listed with rfl | kept
    · exact ⟨next, by simp, .of_approval approves⟩
    · exact ⟨req, kept, .refl req⟩
  | _ => exact ⟨req, listed, .refl req⟩

theorem Changes.tracks (changes : Changes grounds s t) (listed : req ∈ s.requests) :
    ∃ later ∈ t.requests, Tracks req later := by
  induction changes with
  | refl => exact ⟨req, listed, .refl req⟩
  | tail _ change ih =>
    obtain ⟨middle, inside, earlier⟩ := ih
    obtain ⟨later, inside', tracks⟩ := change.tracks inside
    exact ⟨later, inside', earlier.trans tracks⟩

/-- A request that is approved as a creation stays so, with the same data. -/
theorem Tracks.creation (tracks : Tracks old new) {creation : Creation} (approved : old.creation = some creation) :
    new.creation = some creation := by
  unfold AuthorizationRequest.creation at approved ⊢
  split at approved
  · rename_i parameters operationId status result body decided
    have settled : old.status ≠ .pending := by simp [decided]
    obtain ⟨operationId', status', result', body', kept, _⟩ := tracks.create _ _ _ _ body
    rw [body', (tracks.settled settled).1, decided, (kept settled).1, tracks.id, tracks.caller]
    exact approved
  · cases approved

/-! ## Fences -/

section
variable {grounds : Deed → Prop} {s t : AuthorizationState} {target : IdentityReference}

theorem Change.keeps_deleted (change : Change grounds s t) (deleted : target ∈ s.deletedIdentities) :
    target ∈ t.deletedIdentities := by
  cases change with
  | completed _ _ _ =>
    dsimp only
    split
    · exact deleted
    · exact List.mem_append_left _ deleted
  | _ => exact deleted

theorem Change.keeps_fence (change : Change grounds s t) (fenced : s.Fenced target) : t.Fenced target := by
  rcases fenced with deleting | deleted
  · cases change with
    | fenced _ _ => exact .inl (List.mem_append_left _ deleting)
    | @completed other _ _ _ =>
      by_cases same : target = other
      · right
        dsimp only
        split
        · rename_i already
          exact same ▸ AuthorizationState.isDeleted_iff.mp already
        · simp [same]
      · left
        simpa [deleting] using same
    | _ => exact .inl deleting
  · exact .inr (change.keeps_deleted deleted)

/-- No grant on a fenced identity becomes active again. -/
theorem Change.keeps_quiet (change : Change grounds s t) (fenced : s.Fenced target) (quiet : s.Quiet target) :
    t.Quiet target := by
  cases change with
  | grants moved =>
    intro grant listed same active
    obtain ⟨old, inside, move⟩ := forall₂_mem_right moved listed
    exact quiet old inside (move.identity ▸ same) (move.active active)
  | granted _ _ _ _ available =>
    intro grant listed same
    rcases List.mem_append.mp listed with before | last
    · exact quiet grant before same
    · rw [List.mem_singleton.mp last] at same
      exact absurd (same ▸ fenced) available
  | @admitted before after old next execution split admits _ =>
    intro grant listed same
    rcases mem_replaced listed with rfl | kept
    · by_cases once : old.mode = .once
      · rw [(admits.once once).2]
        simp
      · rw [admits.permanent once] at same
        exact absurd admits.active (quiet old (by simp [split]) same)
    · exact quiet grant (split ▸ kept) same
  | _ => exact quiet

theorem Changes.keeps_deleted (changes : Changes grounds s t) (deleted : target ∈ s.deletedIdentities) :
    target ∈ t.deletedIdentities := by
  induction changes with
  | refl => exact deleted
  | tail _ change ih => exact change.keeps_deleted ih

theorem Changes.keeps_fence (changes : Changes grounds s t) (fenced : s.Fenced target) : t.Fenced target := by
  induction changes with
  | refl => exact fenced
  | tail _ change ih => exact change.keeps_fence ih

theorem Changes.keeps_quiet (changes : Changes grounds s t) (fenced : s.Fenced target) (quiet : s.Quiet target) :
    t.Quiet target := by
  induction changes with
  | refl => exact quiet
  | tail earlier change ih => exact change.keeps_quiet (Changes.keeps_fence earlier fenced) ih

end
end AnpIdentity.Ledger
