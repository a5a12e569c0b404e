import AnpIdentity.Basic
import AnpIdentity.Ledger.Changes

/-! Each operation changes the ledger by changes of `Changes` only. -/

namespace AnpIdentity.Ledger
open Relation

theorem find?_id {α : Type} {key : α → String} {list : List α} (unique : (list.map key).Nodup) {a : α} (listed : a ∈ list) :
    list.find? (fun value => key value == key a) = some a := by
  induction list with
  | nil => cases listed
  | cons first rest ih =>
    simp only [List.map_cons, List.nodup_cons] at unique
    rcases List.mem_cons.mp listed with rfl | later
    · simp
    · have other : key first ≠ key a := fun same => unique.1 (same ▸ List.mem_map_of_mem later)
      simpa [other] using ih unique.2 later

variable {s : AuthorizationState}

theorem AuthorizationState.mem_replaceRequest {id : String} {req next : AuthorizationRequest}
    (found : s.findRequest id = .ok req) (same : next.id = req.id) : next ∈ (s.replaceRequest next).requests := by
  have named : next.id = id := same.trans (findRequest_id found)
  obtain ⟨before, after, _, replaced⟩ := replaceFirst_of_find next (findRequest_ok.mp found)
  unfold replaceRequest
  rw [named, replaced]
  simp

theorem AuthorizationState.mem_replaceGrant {id : String} {grant next : AuthorizationGrant}
    (found : s.findGrant id = .ok grant) (same : next.id = grant.id) : next ∈ (s.replaceGrant next).grants := by
  have known := findGrant_ok.mp found
  have named : next.id = id := same.trans (by simpa using List.find?_some known)
  obtain ⟨before, after, _, replaced⟩ := replaceFirst_of_find next known
  unfold replaceGrant
  rw [named, replaced]
  simp

section
variable {platform : Platform} {options : AuthorizationOptions} {answers : Answers} {grounds : Deed → Prop}
  {s t : AuthorizationState} {reply : Reply}

theorem text_ok {value checked : String} {max : Nat} (returned : text value max = .ok checked) : checked = value := by
  unfold text at returned
  split at returned
  · cases returned
  · cases returned
    rfl

/-- The checks of an input return it unchanged. -/
theorem reference_ok {value checked : IdentityReference} (returned : reference value = .ok checked) : checked = value := by
  simp only [reference, except_bind_ok] at returned
  obtain ⟨storeId, first, identityId, second, did, third, returned⟩ := returned
  cases returned
  rw [text_ok first, text_ok second, text_ok third]

variable {source : VerifiedCaller} {req : AuthorizationRequest} {input : AuthorizationDecision}
  {requestId executionId : String} {expectedVersion : Nat} {lease : AuthorizedLease} {actual : ControlledOperation}
  {fences : List IdentityReference}

/-- A recorded request is listed, and is new only if no refusal stands against it. -/
theorem record_changes {id purpose : String} {details : RequestDetails}
    (returned : record platform options answers s source id purpose details = .ok (t, req)) :
    Changes grounds s t ∧ req ∈ t.requests := by
  simp only [record, except_bind_ok] at returned
  obtain ⟨_, _, _, _, returned⟩ := returned
  cases known : s.requests.find? (fun req => req.id == id) with
  | some existing =>
    simp only [known] at returned
    obtain ⟨_, _, returned⟩ := except_bind_ok.mp returned
    cases returned
    exact ⟨.refl, List.mem_of_find?_eq_some known⟩
  | none =>
    simp only [known] at returned
    have new : id ∉ s.requests.map (·.id) := by
      intro listed
      obtain ⟨req, inside, same⟩ := List.mem_map.mp listed
      simpa [same] using List.find?_eq_none.mp known req inside
    split at returned
    · rename_i duplicate again
      cases returned
      exact ⟨.refl, List.mem_of_find?_eq_some again⟩
    · obtain ⟨_, free, returned⟩ := except_bind_ok.mp returned
      cases returned
      refine ⟨.single (.asked details new rfl rfl ?_), by simp⟩
      simpa [newRequest] using free

private theorem requestCreate_changes {input : RequestCreateInput}
    (returned : requestCreate platform options answers source input s = .ok (t, reply)) : Changes grounds s t := by
  simp only [requestCreate, except_bind_ok] at returned
  obtain ⟨_, _, ⟨next, req⟩, recorded, returned⟩ := returned
  cases returned
  exact (record_changes recorded).1

private theorem markPrompted_changes {expectedVersion : Option Nat}
    (returned : markPrompted requestId expectedVersion s = .ok (t, reply)) : Changes grounds s t := by
  simp only [markPrompted, except_bind_ok] at returned
  obtain ⟨req, found, _, _, returned⟩ := returned
  cases returned
  exact .single (.replaceRequest found (.kept rfl rfl rfl rfl rfl))

theorem isPending_ok {version : Nat} {u : Unit} :
    isPending req version = .ok u ↔ req.version = version ∧ req.status = .pending := by
  simp [isPending, except_bind_ok]

private theorem cancel_changes (returned : cancel answers source requestId expectedVersion s = .ok (t, reply)) :
    Changes grounds s t := by
  simp only [cancel, except_bind_ok] at returned
  obtain ⟨req, found, _, _, _, pending, returned⟩ := returned
  cases returned
  exact .single (.replaceRequest found (.closed rfl rfl (isPending_ok.mp pending).2 (by simp) rfl))

private theorem cancelPendingForConsumer_changes {consumer : String}
    (returned : cancelPendingForConsumer answers consumer s = .ok (t, reply)) : Changes grounds s t := by
  cases returned
  refine .single (.requests (forall₂_map ?_ _))
  intro req
  by_cases waits : req.caller.consumer = consumer ∧ req.status = .pending
  · rw [if_pos waits]
    exact .closed rfl rfl waits.2 (by simp) rfl
  · rw [if_neg waits]
    exact .refl req

private theorem revoke_changes {grantId : String} (returned : revoke answers grantId expectedVersion s = .ok (t, reply)) :
    Changes grounds s t := by
  simp only [revoke, except_bind_ok] at returned
  obtain ⟨grant, found, _, _, returned⟩ := returned
  split at returned
  · cases returned
    exact .refl
  · cases returned
    refine (ReflTransGen.single (.replaceGrant found ?_)).tail (.suppressed grant.refusal)
    refine ⟨rfl, rfl, rfl, rfl, rfl, rfl, rfl, rfl, ?_, ?_⟩ <;> simp

private theorem recordExecution_changes {result : ExecutionResult}
    (returned : recordExecution answers source executionId result s = .ok (t, reply)) : Changes grounds s t := by
  unfold recordExecution at returned
  obtain ⟨execution, found, returned⟩ := except_bind_ok.mp returned
  rw [demand_ok] at found
  obtain ⟨_, _, returned⟩ := except_bind_ok.mp returned
  split at returned
  · obtain ⟨_, _, returned⟩ := except_bind_ok.mp returned
    cases returned
    exact .refl
  · cases returned
    obtain ⟨before, after, split, replaced⟩ := replaceFirst_of_find
      { execution with status := result.status, finishedAt := some (answers.now 1) } found
    rw [replaced]
    refine .single (.executions ?_)
    rw [split]
    exact forall₂_middle .refl ⟨rfl, rfl, rfl, rfl, rfl⟩ before after

/-- The reauthorized request is the one whose refusals are lifted. -/
theorem reauthorize_found (returned : reauthorize platform options answers requestId expectedVersion s = .ok (t, reply)) :
    ∃ req, s.findRequest requestId = .ok req ∧ ∃ asked fresh,
      Changes (fun _ => False) { s with suppressions := s.suppressions.filter (fun block => !block.isLifted req) } asked ∧
        fresh ∈ asked.requests ∧ t = asked.replaceRequest { fresh with retryOf := some req.id } := by
  simp only [reauthorize, except_bind_ok] at returned
  obtain ⟨req, found, _, _, _, _, _, _, ⟨asked, fresh⟩, recorded, returned⟩ := returned
  cases returned
  obtain ⟨changes, listed⟩ := record_changes recorded
  exact ⟨req, found, asked, fresh, changes, listed, rfl⟩

private theorem reauthorize_changes (distinct : s.Distinct)
    (returned : reauthorize platform options answers requestId expectedVersion s = .ok (t, reply)) :
    ∃ req, s.findRequest requestId = .ok req ∧ ((∀ deed, deed = .lift req → grounds deed) → Changes grounds s t) := by
  obtain ⟨req, found, asked, fresh, changes, listed, rfl⟩ := reauthorize_found returned
  refine ⟨req, found, fun ground => ?_⟩
  have lift : Changes grounds s _ := .single (.lifted (ground (.lift req) rfl))
  have recorded : Changes grounds s asked := lift.trans (changes.mono (fun _ no => no.elim))
  have known : asked.findRequest fresh.id = .ok fresh :=
    AuthorizationState.findRequest_ok.mpr (find?_id (recorded.distinct distinct).requests listed)
  exact recorded.tail (.replaceRequest known (.kept rfl rfl rfl rfl rfl))

/-- What a transaction does to the ledger. Only a retry lifts refusals. -/
theorem Call.action_changes {call : Call} {action : Action} (distinct : s.Distinct)
    (is : call.action platform options answers = some action) (returned : action s = .ok (t, reply))
    (ground : ∀ requestId expectedVersion req, call = .reauthorize requestId expectedVersion →
      s.findRequest requestId = .ok req → grounds (.lift req)) :
    Changes grounds s t := by
  cases call <;> simp only [Call.action, Option.some.injEq, reduceCtorEq] at is <;> subst is
  case requestCreate => exact requestCreate_changes returned
  case markPrompted => exact markPrompted_changes returned
  case cancel => exact cancel_changes returned
  case revoke => exact revoke_changes returned
  case cancelPendingForConsumer => exact cancelPendingForConsumer_changes returned
  case recordExecution => exact recordExecution_changes returned
  case reauthorize requestId expectedVersion =>
    obtain ⟨req, found, changes⟩ := reauthorize_changes distinct returned
    exact changes (fun deed same => same ▸ ground requestId expectedVersion req rfl found)
  case listRequests | listGrants =>
    cases returned
    exact .refl
  case getRequest =>
    simp only [Ledger.getRequest, except_bind_ok] at returned
    obtain ⟨_, _, _, _, returned⟩ := returned
    cases returned
    exact .refl
  case getExecution =>
    simp only [Ledger.getExecution, except_bind_ok] at returned
    obtain ⟨_, _, _, _, returned⟩ := returned
    cases returned
    exact .refl

/-! ## Evaluations -/

theorem requestAccess_ok {input : RequestAccessInput}
    (returned : requestAccess platform options answers source input s = .ok (t, reply)) :
    (∀ identity ∈ input.identity, ¬ s.Fenced identity) ∧
      ∃ req, record platform options answers s source input.requestId input.purpose
        (.access input.identity input.operation) = .ok (t, req) := by
  unfold requestAccess at returned
  obtain ⟨_, _, returned⟩ := except_bind_ok.mp returned
  cases named : input.identity with
  | none =>
    simp only [named] at returned
    obtain ⟨⟨next, req⟩, recorded, returned⟩ := except_bind_ok.mp returned
    cases returned
    exact ⟨by simp, req, recorded⟩
  | some identity =>
    simp only [named] at returned
    simp only [except_bind_ok] at returned
    obtain ⟨_, available, _, _, _, _, ⟨next, req⟩, recorded, returned⟩ := returned
    cases returned
    refine ⟨?_, req, recorded⟩
    rintro _ ⟨rfl⟩
    exact AuthorizationState.identityAvailable_ok.mp available

/-- An approval of access: the identity is not fenced, and the request gets a grant of its own. -/
theorem approveAccess_ok {named : Option IdentityReference} {requested : Option ControlledOperation}
    {mode : Option AuthorizationMode} {grantId : Option String} (pending : req.status = .pending)
    (body : req.body = .access named requested mode grantId)
    (returned : approveAccess platform options answers input req named requested s = .ok (t, reply)) :
    ∃ next grant, Approves req next grant ∧ ¬ s.Fenced grant.identity ∧ grant.id = answers.uuid ∧
      t = { s with grants := s.grants ++ [grant] }.replaceRequest next ∧ reply = .request next := by
  simp only [approveAccess, except_bind_ok] at returned
  obtain ⟨_, _, identity, _, _, _, _, available, approved, _, _, operated, _, _, _, _, _, _, _, _, returned⟩ := returned
  cases returned
  rw [refuse_ok] at operated
  refine ⟨_, _, ?_, AuthorizationState.identityAvailable_ok.mp available, rfl, rfl, rfl⟩
  refine ⟨pending, rfl, rfl, rfl, ⟨named, requested, mode, grantId, body, rfl, ?_⟩, rfl, rfl, rfl, rfl⟩
  intro once
  have once : input.mode.getD .once = .once := once
  cases requested with
  | none => exact absurd ⟨once, rfl⟩ operated
  | some allowed => exact ⟨allowed, rfl, if_pos once⟩

/-- The three ways a decision on a pending request goes. -/
theorem decideRequest_ok (returned : decideRequest platform options answers input s = .ok (t, reply)) :
    ∃ req, s.findRequest input.requestId = .ok req ∧ req.status = .pending ∧
      ((¬ input.approve ∧ deny answers req s = .ok (t, reply)) ∨
        (input.approve ∧ ∃ parameters operationId status result, req.body = .create parameters operationId status result ∧
          approveCreate answers req parameters result s = .ok (t, reply)) ∨
        (input.approve ∧ ∃ named requested mode grantId, req.body = .access named requested mode grantId ∧
          approveAccess platform options answers input req named requested s = .ok (t, reply))) := by
  simp only [decideRequest, except_bind_ok] at returned
  obtain ⟨req, found, _, pending, returned⟩ := returned
  refine ⟨req, found, (isPending_ok.mp pending).2, ?_⟩
  by_cases approve : input.approve = true
  · rw [if_neg (by simpa using approve)] at returned
    obtain ⟨_, _, returned⟩ := except_bind_ok.mp returned
    cases body : req.body with
    | create parameters operationId status result =>
      simp only [body] at returned
      exact .inr (.inl ⟨approve, parameters, operationId, status, result, rfl, returned⟩)
    | access named requested mode grantId =>
      simp only [body] at returned
      exact .inr (.inr ⟨approve, named, requested, mode, grantId, rfl, returned⟩)
  · rw [if_pos (by simpa using approve)] at returned
    exact .inl ⟨approve, returned⟩

/-- A decision that approves a creation decides a pending request, and the approved request is in the ledger. -/
theorem decideRequest_creation {next : AuthorizationRequest} {creation : Creation}
    (returned : decideRequest platform options answers input s = .ok (t, .request next))
    (approved : next.creation = some creation) :
    next ∈ t.requests ∧ ∃ req ∈ s.requests, req.id = creation.requestId ∧ req.status = .pending ∧
      input.approve ∧ input.requestId = req.id := by
  obtain ⟨req, found, pending, ⟨_, denied⟩ | ⟨approve, parameters, _, _, _, body, made⟩ |
    ⟨_, named, requested, _, _, body, made⟩⟩ := decideRequest_ok returned
  · cases denied
    simp [AuthorizationRequest.creation] at approved
  · have listed := List.mem_of_find?_eq_some (AuthorizationState.findRequest_ok.mp found)
    cases made
    cases approved
    exact ⟨AuthorizationState.mem_replaceRequest found rfl, req, listed, rfl, pending, approve,
      (AuthorizationState.findRequest_id found).symm⟩
  · obtain ⟨next', grant, approves, _, _, _, is⟩ := approveAccess_ok pending body made
    cases is
    obtain ⟨_, _, _, _, _, body', _⟩ := approves.body
    simp [AuthorizationRequest.creation, body'] at approved

private theorem decideRequest_changes (issue : grounds (.issue answers.uuid)) (fresh : answers.uuid ∉ s.grants.map (·.id))
    (returned : decideRequest platform options answers input s = .ok (t, reply)) : Changes grounds s t := by
  obtain ⟨req, found, pending, ⟨_, denied⟩ | ⟨_, parameters, _, _, _, body, approved⟩ |
    ⟨_, named, requested, _, _, body, approved⟩⟩ := decideRequest_ok returned
  · cases denied
    exact (ReflTransGen.single (.replaceRequest found (.closed rfl rfl pending (by simp) rfl))).tail (.suppressed req.refusal)
  · cases approved
    refine .single (.replaceRequest found ⟨rfl, rfl, fun decided => absurd pending decided, by simp [body], ?_⟩)
    intro _ _ _ _ same
    cases body.symm.trans same
    exact ⟨_, _, _, rfl, by simp, fun decided => absurd pending decided, fun known inside => ⟨known, inside, rfl⟩⟩
  · obtain ⟨next, grant, approves, available, drawn, rfl, _⟩ := approveAccess_ok pending body approved
    rw [AuthorizationState.findRequest_ok] at found
    have same : req.id = input.requestId := by simpa using List.find?_some found
    obtain ⟨before, after, split, replaced⟩ := replaceFirst_of_find next found
    unfold AuthorizationState.replaceRequest
    rw [approves.id, same, replaced]
    exact .single (.granted split approves (drawn ▸ issue) (drawn ▸ fresh) available)

/-- What an accepted lease says about its grant. -/
structure Leased (platform : Platform) (answers : Answers) (s : AuthorizationState) (lease : AuthorizedLease)
    (actual : ControlledOperation) (grant : AuthorizationGrant) : Prop where
  found : s.findGrant lease.grantId = .ok grant
  consumer : lease.consumer = grant.caller.consumer
  identity : lease.identity = grant.identity
  version : grant.version = lease.grantVersion
  available : ¬ s.Fenced grant.identity
  current : ∃ current, currentSnapshot platform answers grant.caller grant.identity = .ok current ∧
    current.version = grant.snapshot.version ∧ permits current actual
  permitted : permits grant.snapshot actual

theorem checkLease_ok {grant : AuthorizationGrant}
    (returned : checkLease platform answers source lease actual s = .ok grant) :
    Leased platform answers s lease actual grant := by
  simp only [checkLease, except_bind_ok] at returned
  obtain ⟨_, found, _, -, _, bound, _, -, _, version, _, available, _, -, current, resolved, _, -, _, allowed, returned⟩ := returned
  cases returned
  rw [refuse_ok] at bound version allowed
  push Not at bound version allowed
  exact ⟨found, bound.1, by simpa using bound.2, version, AuthorizationState.identityAvailable_ok.mp available,
    ⟨current, resolved, allowed.1, allowed.2.2⟩, allowed.2.1⟩

/-- An admission: the grant is active and not fenced, and the operation is permitted. -/
theorem admitOperation_ok (returned : admitOperation platform answers source lease actual executionId s = .ok (t, reply)) :
    ∃ grant next execution, Leased platform answers s lease actual grant ∧ Admits grant next execution ∧
      execution.id = executionId ∧ executionId ∉ s.executions.map (·.id) ∧ execution.operation = actual ∧
      reply = .execution execution ∧ ∃ before after, s.grants = before ++ grant :: after ∧
        t = { s with grants := before ++ next :: after, executions := s.executions ++ [execution] } := by
  simp only [admitOperation, except_bind_ok] at returned
  obtain ⟨_, new, grant, checked, _, active, _, matching, returned⟩ := returned
  have leased := checkLease_ok checked
  have found := AuthorizationState.findGrant_ok.mp leased.found
  have named : grant.id = lease.grantId := by simpa using List.find?_some found
  rw [refuse_ok] at new active matching
  push Not at active matching
  have unknown : executionId ∉ s.executions.map (·.id) := by simpa using new
  by_cases once : grant.mode = .once
  · rw [if_pos once] at returned
    cases returned
    obtain ⟨before, after, split, replaced⟩ := replaceFirst_of_find
      { grant with status := .consumed, version := grant.version + 1, executionId := some executionId } found
    refine ⟨grant, _, _, leased, ⟨active, rfl, rfl, leased.permitted, fun _ => ⟨matching once, rfl⟩,
      fun not => absurd once not⟩, rfl, unknown, rfl, rfl, before, after, split, ?_⟩
    unfold AuthorizationState.replaceGrant
    rw [← named] at replaced
    rw [replaced]
  · rw [if_neg once] at returned
    cases returned
    obtain ⟨before, after, split, _⟩ := replaceFirst_of_find grant found
    exact ⟨grant, grant, _, leased, ⟨active, rfl, rfl, leased.permitted, fun is => absurd is once, fun _ => rfl⟩, rfl,
      unknown, rfl, rfl, before, after, split, by rw [← split]⟩

/-- An execution is active under a lease: its grant is active, or used up by this execution, and not fenced. -/
theorem assertExecutionActive_ok
    (returned : assertExecutionActive platform answers source lease executionId s = .ok (t, reply)) :
    t = s ∧ ∃ grant, s.findGrant lease.grantId = .ok grant ∧ lease.identity = grant.identity ∧
      (grant.status = .active ∨ grant.status = .consumed) ∧ ¬ s.Fenced grant.identity := by
  simp only [assertExecutionActive, except_bind_ok] at returned
  obtain ⟨execution, _, _, _, _, _, grant, found, _, _, _, usable, checked, is, returned⟩ := returned
  cases returned
  have leased := checkLease_ok is
  cases found.symm.trans leased.found
  rw [refuse_ok] at usable
  push Not at usable
  refine ⟨rfl, grant, found, leased.identity, ?_, leased.available⟩
  by_cases active : grant.status = .active
  · exact .inl active
  · exact .inr (usable.2 active).1

theorem openGrant_ok {grantId : String} (returned : openGrant platform options answers source grantId s = .ok (t, reply)) :
    t = s ∧ ∃ grant, s.findGrant grantId = .ok grant ∧ grant.status = .active ∧ ¬ s.Fenced grant.identity := by
  simp only [openGrant, except_bind_ok] at returned
  obtain ⟨grant, found, _, _, _, active, _, available, _, _, _, _, returned⟩ := returned
  cases returned
  rw [refuse_ok, not_not] at active
  exact ⟨rfl, grant, found, active, AuthorizationState.identityAvailable_ok.mp available⟩

private theorem addFences_changes (ground : ∀ target ∈ fences, grounds (.fence target)) (s : AuthorizationState) :
    Changes grounds s (addFences fences s) := by
  induction fences generalizing s with
  | nil => exact .refl
  | cons target rest ih =>
    have more := ih (fun other listed => ground other (List.mem_cons_of_mem _ listed))
    unfold addFences at more ⊢
    rw [List.foldl_cons]
    split
    · exact more s
    · rename_i known
      refine .head (.fenced (ground target List.mem_cons_self) ?_) (more _)
      rintro (deleting | deleted)
      · exact known (by simp [AuthorizationState.isDeleting_iff.mpr deleting])
      · exact known (by simp [AuthorizationState.isDeleted_iff.mpr deleted])

private theorem completeAbsent_changes {targets : List IdentityReference}
    (ground : ∀ target, answers.isAbsent target = some true → grounds (.complete target))
    (fenced : ∀ target ∈ targets, s.Fenced target) (returned : completeAbsent answers targets s = .ok t) :
    Changes grounds s t := by
  induction targets generalizing s with
  | nil =>
    cases returned
    exact .refl
  | cons target rest ih =>
    have others : ∀ other ∈ rest, s.Fenced other := fun other listed => fenced other (List.mem_cons_of_mem _ listed)
    unfold completeAbsent at returned
    by_cases granted : s.isGranted target = true
    · rw [if_pos granted] at returned
      exact ih others returned
    · rw [if_neg granted] at returned
      split at returned
      · cases returned
      · exact ih others returned
      · rename_i absent
        have quiet : s.Quiet target := AuthorizationState.isGranted_false.mp (by simpa using granted)
        have first : Changes grounds s (s.completeDeletion target) :=
          completeDeletion_changes (ground target absent) (fenced target List.mem_cons_self) quiet
        refine first.trans (ih ?_ returned)
        intro other listed
        exact first.keeps_fence (others other listed)

theorem reconcileDeletions_changes (fence : ∀ target ∈ fences, grounds (.fence target))
    (complete : ∀ target, answers.isAbsent target = some true → grounds (.complete target))
    (returned : reconcileDeletions answers fences s = .ok (t, reply)) : Changes grounds s t := by
  unfold reconcileDeletions at returned
  obtain ⟨next, completed, returned⟩ := except_bind_ok.mp returned
  cases returned
  exact (addFences_changes fence s).trans (completeAbsent_changes complete (fun target listed => .inl listed) completed)

/-- What an evaluation on a snapshot does. Only the reconciliation of deletions touches the fences. -/
theorem Call.evaluation_changes {call : Call} {action : Action} (issue : grounds (.issue answers.uuid))
    (fresh : answers.uuid ∉ s.grants.map (·.id)) (is : call.evaluation platform options answers = some action)
    (returned : action s = .ok (t, reply))
    (fence : ∀ fences, call = .reconcileDeletions fences → ∀ target ∈ fences, grounds (.fence target))
    (complete : ∀ fences, call = .reconcileDeletions fences →
      ∀ target, answers.isAbsent target = some true → grounds (.complete target)) :
    Changes grounds s t := by
  cases call <;> simp only [Call.evaluation, Option.some.injEq, reduceCtorEq] at is <;> subst is
  case requestAccess =>
    obtain ⟨_, req, recorded⟩ := requestAccess_ok returned
    exact (record_changes recorded).1
  case decideRequest => exact decideRequest_changes issue fresh returned
  case openGrant =>
    obtain ⟨rfl, _⟩ := openGrant_ok returned
    exact .refl
  case admitOperation =>
    obtain ⟨grant, next, execution, _, admits, id, new, _, _, before, after, split, rfl⟩ := admitOperation_ok returned
    exact .single (.admitted split admits (id ▸ new))
  case assertExecutionActive =>
    obtain ⟨rfl, _⟩ := assertExecutionActive_ok returned
    exact .refl
  case reconcileDeletions fences => exact reconcileDeletions_changes (fence fences rfl) (complete fences rfl) returned

/-! ## Creations and fences -/

theorem finishCreation_changes {result : CreateResult} (returned : finishCreation requestId result s = .ok (t, reply)) :
    Changes grounds s t := by
  unfold finishCreation at returned
  obtain ⟨req, found, returned⟩ := except_bind_ok.mp returned
  cases body : req.body with
  | access _ _ _ _ => simp [body] at returned
  | create parameters operationId status known =>
    cases decided : req.status <;> simp only [body, decided, reduceCtorEq] at returned
    obtain ⟨_, agrees, returned⟩ := except_bind_ok.mp returned
    cases returned
    rw [refuse_ok] at agrees
    refine .single (.replaceRequest found ⟨rfl, rfl, fun _ => ⟨decided.symm, rfl⟩, by simp [body], ?_⟩)
    intro _ _ _ _ same
    cases body.symm.trans same
    refine ⟨_, _, _, rfl, by simp, fun _ => ⟨rfl, fun deleted => by simp [deleted]⟩, ?_⟩
    intro value listed
    refine ⟨result, rfl, ?_⟩
    have equal : value.reference = result.reference := by simpa [Option.mem_def.mp listed] using agrees
    exact equal.symm

/-- The request of a creation has been decided, so that its report changes nothing but the creation's status. -/
theorem creationUnknown_changes (decided : ∀ req, s.findRequest requestId = .ok req → req.status ≠ .pending)
    (returned : creationUnknown requestId s = .ok (t, reply)) : Changes grounds s t := by
  unfold creationUnknown at returned
  obtain ⟨req, found, returned⟩ := except_bind_ok.mp returned
  cases body : req.body with
  | access _ _ _ _ =>
    simp only [body] at returned
    cases returned
    exact .single (.replaceRequest found (.kept rfl rfl rfl rfl body.symm))
  | create parameters operationId status known =>
    simp only [body] at returned
    split at returned
    · cases returned
      exact .refl
    · rename_i running
      cases returned
      refine .single (.replaceRequest found ⟨rfl, rfl, fun _ => ⟨rfl, rfl⟩, by simp [body], ?_⟩)
      intro _ _ _ _ same
      cases body.symm.trans same
      refine ⟨_, _, _, rfl, fun pending => absurd pending (decided req found), fun _ => ⟨rfl, ?_⟩,
        fun value listed => ⟨value, listed, rfl⟩⟩
      exact fun deleted => absurd (.inr deleted) running

/-- The fence of a deletion: no active grant is left, and afterwards the identity is fenced. -/
theorem fenceDeletion_ok {target : IdentityReference} (ground : grounds (.fence target))
    (returned : fenceDeletion answers target s = .ok (some t)) :
    Changes grounds s t ∧ t.Fenced target ∧ t.Quiet target := by
  unfold fenceDeletion at returned
  obtain ⟨_, none, returned⟩ := except_bind_ok.mp returned
  rw [refuse_ok] at none
  have quiet : s.Quiet target := AuthorizationState.isGranted_false.mp (by simpa using none)
  by_cases deleted : s.isDeleted target = true
  · rw [if_pos deleted] at returned
    cases returned
  · rw [if_neg deleted] at returned
    obtain ⟨_, _, returned⟩ := except_bind_ok.mp returned
    by_cases deleting : s.isDeleting target = true
    · simp only [deleting, if_true] at returned
      cases returned
      exact ⟨.refl, .inl (AuthorizationState.isDeleting_iff.mp deleting), quiet⟩
    · simp only [deleting] at returned
      cases returned
      refine ⟨.single (.fenced ground ?_), .inl (by simp [AuthorizationState.addFence]), quiet⟩
      rintro (known | known)
      · exact deleting (AuthorizationState.isDeleting_iff.mpr known)
      · exact deleted (AuthorizationState.isDeleted_iff.mpr known)

end
end AnpIdentity.Ledger
