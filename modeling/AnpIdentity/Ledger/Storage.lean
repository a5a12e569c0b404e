import AnpIdentity.Ledger.Commits
import AnpIdentity.Ledger.Plain

/-! What the ledger writes can be read back. Every record that an operation builds passes the checks that reading makes,
and no version overtakes the generation of the ledger. -/

namespace AnpIdentity.Ledger
open Durable

/-- Digests, and the first identifiers that are drawn, are texts that the ledger accepts. -/
structure Platform.Textual (platform : Platform) (drawn : Nat) : Prop where
  uuid : ∀ n < drawn, (text (platform.randomUUID n)).isOk = true
  digest : ∀ value, (text (platform.digest value)).isOk = true

/-! ## Records that can be read -/

namespace RequestBody

def operation : RequestBody → Option ControlledOperation
  | .create .. => none
  | .access _ operation _ _ => operation

end RequestBody

def RequestDetails.operation : RequestDetails → Option ControlledOperation
  | .create _ => none
  | .access _ operation => operation

/-- The request can be read, its version is no more than `n`, and its fingerprint is that of what it asks for. -/
structure AuthorizationRequest.Fits (platform : Platform) (n : Nat) (req : AuthorizationRequest) : Prop where
  id : (text req.id 256).isOk = true
  caller : (Ledger.caller req.caller).isOk = true
  purpose : (text req.purpose).isOk = true
  positive : 1 ≤ req.version
  version : req.version ≤ n
  fingerprint : ∃ details : RequestDetails, details.operation = req.body.operation ∧ details.kind = req.body.kind ∧
    req.fingerprint = platform.digest (.request req.caller.consumer req.purpose details)
  body : req.body.Passes platform

structure AuthorizationGrant.Fits (platform : Platform) (n : Nat) (grant : AuthorizationGrant) : Prop where
  requestId : (text grant.requestId 256).isOk = true
  caller : (Ledger.caller grant.caller).isOk = true
  identity : (reference grant.identity).isOk = true
  snapshot : (Ledger.snapshot platform grant.snapshot).isOk = true
  positive : 1 ≤ grant.version
  version : grant.version ≤ n
  once : grant.mode = .once → grant.expiresAt.isSome = true ∧ ∃ value, grant.operation = some value ∧
    (Ledger.operation platform value).isOk = true

structure AuthorizationState.Fits (platform : Platform) (n : Nat) (s : AuthorizationState) : Prop where
  requests : ∀ req ∈ s.requests, req.Fits platform n
  grants : ∀ grant ∈ s.grants, grant.Fits platform n
  executions : ∀ execution ∈ s.executions, execution.isReadable platform = true
  deleted : ∀ identity ∈ s.deletedIdentities, (reference identity).isOk = true
  deleting : ∀ identity ∈ s.deletingIdentities, (reference identity).isOk = true
  suppressions : ∀ block ∈ s.suppressions, block.isReadable = true

/-- A ledger of records that fit can be read if its counters are small enough and it is not too large. -/
theorem AuthorizationState.Fits.isReadable {platform : Platform} {s : AuthorizationState} {drawn : Nat}
    (textual : platform.Textual drawn) (fits : s.Fits platform s.generation) (distinct : s.Distinct)
    (issued : s.Issued (supply platform drawn))
    (counted : s.generation ≤ maxSafeInteger) (size : platform.byteLength s ≤ maxLedgerBytes) : s.isReadable platform = true := by
  refine AuthorizationState.isReadable_iff.mpr ⟨size, counted, distinct.requests, distinct.grants, distinct.executions, ?_, ?_,
    fits.executions, ?_, fits.suppressions⟩
  · intro req listed
    have known := fits.requests req listed
    obtain ⟨details, -, -, digest⟩ := known.fingerprint
    refine AuthorizationRequest.isReadable_iff.mpr ⟨known.id, known.caller, known.purpose, ?_,
      ⟨known.positive, known.version.trans counted⟩, known.body⟩
    rw [digest]
    exact textual.digest _
  · intro grant listed
    have known := fits.grants grant listed
    obtain ⟨k, less, drawn⟩ := issued grant listed
    refine AuthorizationGrant.isReadable_iff.mpr ⟨?_, known.caller, known.identity, known.snapshot,
      ⟨known.positive, known.version.trans counted⟩, known.once⟩
    rw [drawn]
    exact textual.uuid k less
  · intro identity listed
    rcases List.mem_append.mp listed with deleted | deleting
    · exact fits.deleted identity deleted
    · exact fits.deleting identity deleting

section
variable {platform : Platform} {n m : Nat}

variable {req : AuthorizationRequest} {grant : AuthorizationGrant}

theorem AuthorizationRequest.Fits.mono (fits : req.Fits platform n) (le : n ≤ m) :
    req.Fits platform m := { fits with version := fits.version.trans le }

theorem AuthorizationGrant.Fits.mono (fits : grant.Fits platform n) (le : n ≤ m) :
    grant.Fits platform m := { fits with version := fits.version.trans le }

/-- A request after a step: who asks for what stays, and its version grows by one. -/
theorem AuthorizationRequest.Fits.raised {body next : RequestBody} {status : RequestStatus} {decidedAt : Option Int}
    (fits : req.Fits platform n) (is : req.body = body) (operation : next.operation = body.operation) (kind : next.kind = body.kind)
    (passes : next.Passes platform) :
    ({ req with version := req.version + 1, status, decidedAt, body := next } : AuthorizationRequest).Fits platform (n + 1) :=
  { fits with
    positive := Nat.succ_pos _
    version := Nat.succ_le_succ fits.version
    fingerprint := by
      rw [operation, kind, ← is]
      exact fits.fingerprint
    body := passes }

theorem AuthorizationRequest.Fits.decided {status : RequestStatus} {decidedAt : Option Int} (fits : req.Fits platform n) :
    ({ req with version := req.version + 1, status, decidedAt } : AuthorizationRequest).Fits platform (n + 1) :=
  fits.raised rfl rfl rfl fits.body

theorem AuthorizationGrant.Fits.raised {status : GrantStatus} {executionId : Option String} {revokedAt : Option Int}
    (fits : grant.Fits platform n) :
    ({ grant with version := grant.version + 1, status, executionId, revokedAt } : AuthorizationGrant).Fits platform (n + 1) :=
  { fits with
    positive := Nat.succ_pos _
    version := Nat.succ_le_succ fits.version }

private theorem forall_replaceFirst {α : Type} {same : α → Bool} {value : α} {list : List α} {P : α → Prop}
    (all : ∀ a ∈ list, P a) (new : P value) : ∀ a ∈ replaceFirst same value list, P a := by
  induction list with
  | nil => exact all
  | cons first rest ih =>
    rw [List.forall_mem_cons] at all
    unfold replaceFirst
    split
    · exact List.forall_mem_cons.mpr ⟨new, all.2⟩
    · exact List.forall_mem_cons.mpr ⟨all.1, ih all.2⟩

private theorem forall_mem_snoc {α : Type} {list : List α} {last : α} {P : α → Prop} (all : ∀ a ∈ list, P a) (new : P last) :
    ∀ a ∈ list ++ [last], P a :=
  List.forall_mem_append.mpr ⟨all, List.forall_mem_singleton.mpr new⟩

namespace AuthorizationState.Fits
variable {s : AuthorizationState}

theorem mono (fits : s.Fits platform n) (le : n ≤ m) : s.Fits platform m :=
  { fits with
    requests := fun req listed => (fits.requests req listed).mono le
    grants := fun grant listed => (fits.grants grant listed).mono le }

theorem next (fits : s.Fits platform n) : s.Fits platform (n + 1) := fits.mono (Nat.le_succ n)

theorem renumber (fits : s.Fits platform n) (generation : Nat) : ({ s with generation } : AuthorizationState).Fits platform n :=
  { fits with }

theorem replaceRequest (fits : s.Fits platform n) {next : AuthorizationRequest} (new : next.Fits platform n) :
    (s.replaceRequest next).Fits platform n :=
  { fits with requests := forall_replaceFirst fits.requests new }

theorem replaceGrant (fits : s.Fits platform n) {next : AuthorizationGrant} (new : next.Fits platform n) :
    (s.replaceGrant next).Fits platform n :=
  { fits with grants := forall_replaceFirst fits.grants new }

theorem suppress (fits : s.Fits platform n) {block : Suppression} (readable : block.isReadable = true) :
    ({ s with suppressions := s.suppressions ++ [block] } : AuthorizationState).Fits platform n :=
  { fits with suppressions := forall_mem_snoc fits.suppressions readable }

theorem found (fits : s.Fits platform n) {id : String} {req : AuthorizationRequest} (found : s.findRequest id = .ok req) :
    req.Fits platform n :=
  fits.requests req (List.mem_of_find?_eq_some (AuthorizationState.findRequest_ok.mp found))

theorem foundGrant (fits : s.Fits platform n) {id : String} {grant : AuthorizationGrant} (found : s.findGrant id = .ok grant) :
    grant.Fits platform n :=
  fits.grants grant (List.mem_of_find?_eq_some (AuthorizationState.findGrant_ok.mp found))

theorem expire (fits : s.Fits platform n) (now : Int) : (s.expire now).Fits platform (n + 1) := by
  refine { fits with requests := ?_, grants := ?_ }
  · intro req listed
    obtain ⟨old, inside, rfl⟩ := List.mem_map.mp listed
    have known := fits.requests old inside
    split
    · exact known.decided
    · exact known.mono (Nat.le_succ n)
  · intro grant listed
    obtain ⟨old, inside, rfl⟩ := List.mem_map.mp listed
    have known := fits.grants old inside
    split
    · exact known.raised
    · exact known.mono (Nat.le_succ n)

end AuthorizationState.Fits
end

/-! ## Checks pass again -/

section
variable {platform : Platform}

private theorem isOk_of {α : Type} {result : EngineResult α} {a : α} (returned : result = .ok a) : result.isOk = true := by
  rw [returned]
  rfl

private theorem text_isOk {value : String} {max more : Nat} (le : max ≤ more) (passes : (text value max).isOk = true) :
    (text value more).isOk = true := by
  unfold text at passes ⊢
  split at passes
  · cases passes
  · rename_i clear
    push Not at clear
    rw [if_neg (by push Not; exact ⟨clear.1, clear.2.1.trans le, clear.2.2⟩)]
    rfl

private theorem caller_ok {value checked : VerifiedCaller} (returned : caller value = .ok checked) : checked = value := by
  simp only [caller, except_bind_ok] at returned
  obtain ⟨consumer, first, displayName, second, returned⟩ := returned
  cases returned
  rw [text_ok first, text_ok second]

private theorem caller_consumer {value : VerifiedCaller} (passes : (caller value).isOk = true) :
    (text value.consumer 256).isOk = true := by
  unfold caller at passes
  cases checked : text value.consumer 256 with
  | ok consumer => rfl
  | error e =>
    rw [checked] at passes
    cases passes

private theorem origin_ok {value checked : String} (returned : origin platform value = .ok checked) : checked = value := by
  simp only [origin, except_bind_ok] at returned
  obtain ⟨parsed, -, _, plain, returned⟩ := returned
  cases returned
  rw [refuse_ok] at plain
  push Not at plain
  exact plain.2.2.2

private theorem mapM_same {α : Type} {check : α → EngineResult α} (same : ∀ a b, check a = .ok b → b = a) {value checked : Option α}
    (returned : value.mapM check = .ok checked) : checked = value ∧ ∀ a ∈ value, (check a).isOk = true := by
  cases value with
  | none =>
    cases returned
    exact ⟨rfl, by simp⟩
  | some a =>
    obtain ⟨b, passed, returned⟩ := except_bind_ok.mp returned
    cases returned
    rw [same a b passed]
    refine ⟨rfl, ?_⟩
    rintro _ ⟨rfl⟩
    exact isOk_of passed

theorem operation_ok {value checked : ControlledOperation} (returned : operation platform value = .ok checked) :
    checked = value := by
  simp only [operation, except_bind_ok] at returned
  obtain ⟨-, -, summary, first, signingPurpose, second, httpOrigin, third, -, -, returned⟩ := returned
  cases returned
  rw [text_ok first, (mapM_same (fun _ _ => text_ok) second).1, (mapM_same (fun _ _ => origin_ok) third).1]

private theorem isOk_mapM {α β : Type} {check : α → EngineResult β} {list : List α}
    (passes : ∀ a ∈ list, (check a).isOk = true) : (list.mapM check).isOk = true := by
  induction list with
  | nil => rfl
  | cons first rest ih =>
    have more := ih (fun a inside => passes a (List.mem_cons_of_mem _ inside))
    have one := passes first List.mem_cons_self
    rw [List.mapM_cons]
    cases head : check first with
    | error e =>
      rw [head] at one
      cases one
    | ok b =>
      cases tail : rest.mapM check with
      | error e =>
        rw [tail] at more
        cases more
      | ok bs => rfl

/-- What a list of texts is normalised to passes the check of its elements. -/
private theorem sortedSet_isOk {check : String → EngineResult String} (same : ∀ a b, check a = .ok b → b = a)
    {values checked : List String} (returned : values.mapM check = .ok checked) :
    ((sortedSet checked).mapM check).isOk = true := by
  refine isOk_mapM (fun a inside => ?_)
  have listed : a ∈ checked := by simpa [sortedSet] using inside
  obtain ⟨b, -, passed⟩ := mapM_ok returned a listed
  obtain rfl := same b a passed
  exact isOk_of passed

private theorem snapshot_isOk {value approved : CapabilitySnapshot} (returned : snapshot platform value = .ok approved) :
    (snapshot platform approved).isOk = true := by
  simp only [snapshot, except_bind_ok] at returned
  obtain ⟨-, -, version, named, signingPurposes, purposes, httpOrigins, origins, returned⟩ := returned
  cases returned
  have first := sortedSet_isOk (fun _ _ => text_ok) purposes
  have second := sortedSet_isOk (fun _ _ => origin_ok) origins
  obtain rfl := text_ok named
  unfold snapshot
  dsimp only
  rw [named]
  cases texts : (sortedSet signingPurposes).mapM (text · 256) with
  | error e =>
    rw [texts] at first
    cases first
  | ok ps =>
    cases urls : (sortedSet httpOrigins).mapM (origin platform) with
    | error e =>
      rw [urls] at second
      cases second
    | ok us => rfl

end
/-! ## Checked calls -/

/-- What a call names passes the checks that the ledger makes on it. -/
def Call.Passes (platform : Platform) : Call → Prop
  | .requestCreate source input => (caller source).isOk = true ∧ (RequestDetails.create input.parameters).body.Passes platform
  | .requestAccess source input =>
    (caller source).isOk = true ∧ (RequestDetails.access input.identity input.operation).body.Passes platform
  | .admitOperation _ _ actual executionId => (operation platform actual).isOk = true ∧ (text executionId).isOk = true
  | .withIdentityDeletion target => (reference target).isOk = true
  | .reconcileDeletions fences => ∀ target ∈ fences, (reference target).isOk = true
  | _ => True

theorem Call.checked_passes {platform : Platform} {call checked : Call} (returned : call.checked platform = .ok checked) :
    checked.Passes platform := by
  cases call with
  | requestCreate source input =>
    simp only [Call.checked, except_bind_ok] at returned
    obtain ⟨verified, passed, parameters, made, returned⟩ := returned
    cases returned
    simp only [createParameters, except_bind_ok] at made
    obtain ⟨label, first, domain, second, path, third, handle, -, _, -, _, -, made⟩ := made
    cases made
    obtain rfl := caller_ok passed
    obtain rfl := text_ok first
    obtain rfl := text_ok second
    obtain rfl := text_ok third
    exact ⟨isOk_of passed, ⟨text_isOk (by decide) (isOk_of first), text_isOk (by decide) (isOk_of second), isOk_of third⟩,
      by rintro _ ⟨⟩⟩
  | requestAccess source input =>
    simp only [Call.checked, except_bind_ok] at returned
    obtain ⟨verified, passed, identity, named, requested, allowed, returned⟩ := returned
    cases returned
    obtain rfl := caller_ok passed
    obtain ⟨rfl, references⟩ := mapM_same (fun _ _ => reference_ok) named
    obtain ⟨rfl, operations⟩ := mapM_same (fun _ _ => operation_ok) allowed
    exact ⟨isOk_of passed, references, operations⟩
  | admitOperation source lease actual executionId =>
    simp only [Call.checked, except_bind_ok] at returned
    obtain ⟨allowed, passed, id, named, returned⟩ := returned
    cases returned
    obtain rfl := operation_ok passed
    obtain rfl := text_ok named
    exact ⟨isOk_of passed, text_isOk (by decide) (isOk_of named)⟩
  | withIdentityDeletion identity =>
    obtain ⟨target, named, returned⟩ := except_bind_ok.mp returned
    cases returned
    obtain rfl := reference_ok named
    exact isOk_of named
  | reconcileDeletions fences =>
    obtain ⟨targets, named, returned⟩ := except_bind_ok.mp returned
    cases returned
    intro target listed
    obtain ⟨given, -, passed⟩ := mapM_ok named target listed
    obtain rfl := reference_ok passed
    exact isOk_of passed
  | cancelPendingForConsumer consumer =>
    obtain ⟨named, -, returned⟩ := except_bind_ok.mp returned
    cases returned
    trivial
  | _ =>
    cases returned
    trivial

/-! ## Operations -/

section
variable {platform : Platform} {options : AuthorizationOptions} {answers : Answers} {n : Nat} {s t : AuthorizationState} {reply : Reply}

variable {req : AuthorizationRequest} {source : VerifiedCaller} {requestId : String} {expectedVersion : Nat}
  {input : AuthorizationDecision} {target : IdentityReference} {fences : List IdentityReference}

theorem AuthorizationRequest.Fits.refusal (fits : req.Fits platform n) : req.refusal.isReadable = true := by
  refine Suppression.isReadable_iff.mpr ⟨caller_consumer fits.caller, fits.id, fun value named => ?_⟩
  have passes := fits.body
  have named : req.body.identity = some value := named
  cases body : req.body with
  | create _ _ _ _ =>
    rw [body] at named
    cases named
  | access identity _ _ _ =>
    rw [body] at named passes
    exact passes.1 value named

private theorem record_fits {id purpose : String} {details : RequestDetails} (fits : s.Fits platform n)
    (known : (caller source).isOk = true) (passes : details.body.Passes platform)
    (returned : record platform options answers s source id purpose details = .ok (t, req)) : t.Fits platform (n + 1) := by
  simp only [record, except_bind_ok] at returned
  obtain ⟨_, named, _, stated, returned⟩ := returned
  split at returned
  · obtain ⟨_, -, returned⟩ := except_bind_ok.mp returned
    cases returned
    exact fits.next
  · split at returned
    · cases returned
      exact fits.next
    · obtain ⟨_, -, returned⟩ := except_bind_ok.mp returned
      cases returned
      have new : (newRequest platform options answers source id purpose details).Fits platform (n + 1) :=
        ⟨isOk_of named, known, isOk_of stated, Nat.le_refl 1, Nat.succ_le_succ (Nat.zero_le n),
          ⟨details, by cases details <;> rfl, by cases details <;> rfl, rfl⟩, passes⟩
      exact { fits.next with requests := forall_mem_snoc fits.next.requests new }

private theorem cancel_fits (fits : s.Fits platform n)
    (returned : cancel answers source requestId expectedVersion s = .ok (t, reply)) : t.Fits platform (n + 1) := by
  simp only [cancel, except_bind_ok] at returned
  obtain ⟨req, found, _, -, _, -, returned⟩ := returned
  cases returned
  exact fits.next.replaceRequest (fits.found found).decided

private theorem approveAccess_fits {named : Option IdentityReference} {requested : Option ControlledOperation}
    {mode : Option AuthorizationMode} {grantId : Option String} (fits : s.Fits platform n) (known : req.Fits platform n)
    (body : req.body = .access named requested mode grantId)
    (returned : approveAccess platform options answers input req named requested s = .ok (t, reply)) :
    t.Fits platform (n + 1) := by
  simp only [approveAccess, except_bind_ok] at returned
  obtain ⟨selected, -, identity, referred, _, -, _, -, approved, resolved, _, operated, _, -, _, -, _, -, _, -, returned⟩ := returned
  cases returned
  obtain rfl := reference_ok referred
  obtain ⟨policy, -, policed⟩ := except_bind_ok.mp resolved
  have passes := known.body
  rw [body] at passes
  have granted : (newGrant options answers req requested identity approved (input.mode.getD .once)).Fits platform (n + 1) := by
    refine ⟨known.id, known.caller, isOk_of referred, snapshot_isOk policed, Nat.le_refl 1, Nat.succ_le_succ (Nat.zero_le n), ?_⟩
    intro once
    have once : input.mode.getD .once = .once := once
    refine ⟨by simp [newGrant, once], ?_⟩
    cases requested with
    | none => exact absurd ⟨once, rfl⟩ (refuse_ok.mp operated)
    | some value => exact ⟨value, if_pos once, passes.2 value rfl⟩
  have grants : ({ s with grants := s.grants ++ [newGrant options answers req requested identity approved
      (input.mode.getD .once)] } : AuthorizationState).Fits platform (n + 1) :=
    { fits.next with grants := forall_mem_snoc fits.next.grants granted }
  refine grants.replaceRequest (known.raised body rfl rfl ⟨?_, passes.2⟩)
  rintro _ ⟨rfl⟩
  exact isOk_of referred

private theorem decideRequest_fits (fits : s.Fits platform n)
    (returned : decideRequest platform options answers input s = .ok (t, reply)) : t.Fits platform (n + 1) := by
  obtain ⟨req, found, -, ⟨_, denied⟩ | ⟨_, parameters, _, _, result, body, approved⟩ |
    ⟨_, named, requested, _, _, body, approved⟩⟩ := decideRequest_ok returned
  · cases denied
    have known := fits.found found
    exact (fits.next.replaceRequest known.decided).suppress known.refusal
  · cases approved
    have known := fits.found found
    have passes := known.body
    rw [body] at passes
    exact fits.next.replaceRequest (known.raised body rfl rfl passes)
  · exact approveAccess_fits fits (fits.found found) body approved

private theorem reauthorize_fits (fits : s.Fits platform n)
    (returned : reauthorize platform options answers requestId expectedVersion s = .ok (t, reply)) :
    t.Fits platform (n + 1) := by
  simp only [reauthorize, except_bind_ok] at returned
  obtain ⟨req, found, _, -, _, -, _, -, ⟨asked, fresh⟩, recorded, returned⟩ := returned
  cases returned
  have known := fits.found found
  have lifted : ({ s with suppressions := s.suppressions.filter (fun block => !block.isLifted req) } : AuthorizationState).Fits
      platform n :=
    { fits with suppressions := fun block kept => fits.suppressions block (List.mem_of_mem_filter kept) }
  have passes := known.body
  have after : asked.Fits platform (n + 1) := by
    refine record_fits lifted known.caller ?_ recorded
    cases body : req.body with
    | create parameters _ _ _ =>
      rw [body] at passes
      exact ⟨passes.1, by rintro _ ⟨⟩⟩
    | access identity requested _ _ =>
      rw [body] at passes
      exact passes
  obtain ⟨-, listed⟩ : Changes (fun _ => True) _ asked ∧ fresh ∈ asked.requests := record_changes recorded
  exact after.replaceRequest { after.requests fresh listed with }

private theorem cancelPendingForConsumer_fits {consumer : String} (fits : s.Fits platform n)
    (returned : cancelPendingForConsumer answers consumer s = .ok (t, reply)) : t.Fits platform (n + 1) := by
  cases returned
  refine { fits.next with requests := ?_ }
  intro req listed
  obtain ⟨old, inside, rfl⟩ := List.mem_map.mp listed
  have known := fits.requests old inside
  split
  · exact known.decided
  · exact known.mono (Nat.le_succ n)

private theorem revoke_fits {grantId : String} (fits : s.Fits platform n)
    (returned : revoke answers grantId expectedVersion s = .ok (t, reply)) : t.Fits platform (n + 1) := by
  simp only [revoke, except_bind_ok] at returned
  obtain ⟨grant, found, _, -, returned⟩ := returned
  split at returned
  · cases returned
    exact fits.next
  · cases returned
    have known := fits.foundGrant found
    refine (fits.next.replaceGrant known.raised).suppress (Suppression.isReadable_iff.mpr ⟨caller_consumer known.caller, known.requestId, ?_⟩)
    rintro _ ⟨rfl⟩
    exact known.identity

private theorem recordExecution_fits {executionId : String} {result : ExecutionResult} (fits : s.Fits platform n)
    (returned : recordExecution answers source executionId result s = .ok (t, reply)) : t.Fits platform (n + 1) := by
  simp only [recordExecution, except_bind_ok] at returned
  obtain ⟨execution, found, _, -, returned⟩ := returned
  split at returned
  · obtain ⟨_, -, returned⟩ := except_bind_ok.mp returned
    cases returned
    exact fits.next
  · cases returned
    exact { fits.next with
      executions := forall_replaceFirst fits.executions
        (fits.executions execution (List.mem_of_find?_eq_some (demand_ok.mp found))) }

private theorem admitOperation_fits {lease : AuthorizedLease} {actual : ControlledOperation} {executionId : String}
    (fits : s.Fits platform n) (passes : (Call.admitOperation source lease actual executionId).Passes platform)
    (returned : admitOperation platform answers source lease actual executionId s = .ok (t, reply)) :
    t.Fits platform (n + 1) := by
  obtain ⟨grant, next, execution, _, admits, id, _, is, _, before, after, split, rfl⟩ := admitOperation_ok returned
  have known := fits.grants
  have later := fits.next.grants
  rw [split, List.forall_mem_append, List.forall_mem_cons] at known later
  have used : next.Fits platform (n + 1) := by
    by_cases once : grant.mode = .once
    · rw [(admits.once once).2]
      exact known.2.1.raised
    · rw [admits.permanent once]
      exact later.2.1
  refine { fits.next with
    grants := List.forall_mem_append.mpr ⟨later.1, List.forall_mem_cons.mpr ⟨used, later.2.2⟩⟩
    executions := forall_mem_snoc fits.executions ?_ }
  have consumer := caller_consumer known.2.1.caller
  rw [← admits.consumer] at consumer
  exact AuthorizationExecution.isReadable_iff.mpr ⟨id ▸ passes.2, text_isOk (by decide) consumer, is ▸ passes.1⟩

private theorem finishCreation_fits {result : CreateResult} (fits : s.Fits platform n)
    (named : (reference result.reference).isOk = true) (returned : finishCreation requestId result s = .ok (t, reply)) :
    t.Fits platform (n + 1) := by
  unfold finishCreation at returned
  obtain ⟨req, found, returned⟩ := except_bind_ok.mp returned
  have known := fits.found found
  have passes := known.body
  cases body : req.body with
  | access _ _ _ _ => simp [body] at returned
  | create parameters operationId status reported =>
    cases decided : req.status <;> simp only [body, decided, reduceCtorEq] at returned
    obtain ⟨_, -, returned⟩ := except_bind_ok.mp returned
    cases returned
    rw [body] at passes
    refine fits.next.replaceRequest (known.raised body rfl rfl ⟨passes.1, ?_⟩)
    rintro _ ⟨rfl⟩
    exact named

private theorem creationUnknown_fits (fits : s.Fits platform n) (returned : creationUnknown requestId s = .ok (t, reply)) :
    t.Fits platform (n + 1) := by
  unfold creationUnknown at returned
  obtain ⟨req, found, returned⟩ := except_bind_ok.mp returned
  have known := fits.found found
  have passes := known.body
  cases body : req.body with
  | access _ _ _ _ =>
    simp only [body] at returned
    cases returned
    rw [← body]
    exact fits.next.replaceRequest known.decided
  | create parameters operationId status reported =>
    simp only [body] at returned
    split at returned
    · cases returned
      exact fits.next
    · cases returned
      rw [body] at passes
      exact fits.next.replaceRequest (known.raised body rfl rfl passes)

/-- The deletions of one operation raise the version of a request at most once: the request is marked as deleted. -/
private structure Closing (platform : Platform) (n : Nat) (s : AuthorizationState) : Prop where
  fits : s.Fits platform (n + 1)
  marked : ∀ req ∈ s.requests, req.Fits platform n ∨
    ∃ parameters operationId result, req.body = .create parameters operationId (some .deleted) result

private theorem completeDeletion_closing (closing : Closing platform n s) (named : (reference target).isOk = true) :
    Closing platform n (s.completeDeletion target) := by
  have requests : ∀ req ∈ (s.completeDeletion target).requests, req.Fits platform (n + 1) ∧ (req.Fits platform n ∨
      ∃ parameters operationId result, req.body = .create parameters operationId (some .deleted) result) := by
    intro req listed
    obtain ⟨old, inside, rfl⟩ := List.mem_map.mp listed
    have known := closing.fits.requests old inside
    have marked := closing.marked old inside
    rcases body : old.body with ⟨parameters, operationId, status, _ | result⟩ | _
    · exact ⟨known, marked⟩
    · dsimp only
      split
      · rename_i due
        have earlier : old.Fits platform n := by
          rcases marked with fits | ⟨_, _, _, done⟩
          · exact fits
          · cases body.symm.trans done
            exact absurd rfl due.2
        have passes := earlier.body
        rw [body] at passes
        exact ⟨earlier.raised body rfl rfl passes, .inr ⟨_, _, _, rfl⟩⟩
      · exact ⟨known, marked⟩
    · exact ⟨known, marked⟩
  refine ⟨{ closing.fits with requests := fun req listed => (requests req listed).1, deleted := ?_, deleting := ?_ },
    fun req listed => (requests req listed).2⟩
  · intro identity listed
    unfold AuthorizationState.completeDeletion at listed
    dsimp only at listed
    split at listed
    · exact closing.fits.deleted identity listed
    · exact forall_mem_snoc closing.fits.deleted named identity listed
  · intro identity listed
    exact closing.fits.deleting identity (List.mem_of_mem_filter listed)

private theorem completeAbsent_closing {targets : List IdentityReference} (closing : Closing platform n s)
    (named : ∀ target ∈ targets, (reference target).isOk = true) (returned : completeAbsent answers targets s = .ok t) :
    Closing platform n t := by
  induction targets generalizing s with
  | nil =>
    cases returned
    exact closing
  | cons target rest ih =>
    have others : ∀ other ∈ rest, (reference other).isOk = true := fun other listed => named other (List.mem_cons_of_mem _ listed)
    unfold completeAbsent at returned
    split at returned
    · exact ih closing others returned
    · split at returned
      · cases returned
      · exact ih closing others returned
      · exact ih (completeDeletion_closing closing (named target List.mem_cons_self)) others returned

private theorem addFence_fits (fits : s.Fits platform n) (named : (reference target).isOk = true) :
    (s.addFence target).Fits platform n :=
  { fits with deleting := forall_mem_snoc fits.deleting named }

private theorem addFences_fits (fits : s.Fits platform n) (named : ∀ target ∈ fences, (reference target).isOk = true) :
    (addFences fences s).Fits platform n := by
  induction fences generalizing s with
  | nil => exact fits
  | cons target rest ih =>
    have others : ∀ other ∈ rest, (reference other).isOk = true := fun other listed => named other (List.mem_cons_of_mem _ listed)
    unfold addFences at ih ⊢
    rw [List.foldl_cons]
    split
    · exact ih fits others
    · exact ih (addFence_fits fits (named target List.mem_cons_self)) others

private theorem reconcileDeletions_fits (fits : s.Fits platform n)
    (named : ∀ target ∈ fences, (reference target).isOk = true)
    (returned : reconcileDeletions answers fences s = .ok (t, reply)) : t.Fits platform (n + 1) := by
  unfold reconcileDeletions at returned
  obtain ⟨next, completed, returned⟩ := except_bind_ok.mp returned
  cases returned
  have fenced := addFences_fits fits named
  exact (completeAbsent_closing ⟨fenced.next, fun req listed => .inl (fenced.requests req listed)⟩ fenced.deleting completed).fits

private theorem fenceDeletion_fits (fits : s.Fits platform n) (named : (reference target).isOk = true)
    (returned : fenceDeletion answers target s = .ok (some t)) : t.Fits platform n := by
  unfold fenceDeletion at returned
  obtain ⟨_, -, returned⟩ := except_bind_ok.mp returned
  split at returned
  · cases returned
  · obtain ⟨_, -, returned⟩ := except_bind_ok.mp returned
    cases returned
    split
    · exact fits
    · exact addFence_fits fits named

theorem Call.action_fits {call : Call} {action : Action} (passes : call.Passes platform) (fits : s.Fits platform n)
    (is : call.action platform options answers = some action) (returned : action s = .ok (t, reply)) :
    t.Fits platform (n + 1) := by
  cases call <;> simp only [Call.action, Option.some.injEq, reduceCtorEq] at is <;> subst is
  case requestCreate =>
    simp only [Ledger.requestCreate, except_bind_ok] at returned
    obtain ⟨_, -, ⟨next, req⟩, recorded, returned⟩ := returned
    cases returned
    exact record_fits fits passes.1 passes.2 recorded
  case markPrompted =>
    simp only [Ledger.markPrompted, except_bind_ok] at returned
    obtain ⟨req, found, _, -, returned⟩ := returned
    cases returned
    exact fits.next.replaceRequest { fits.next.found found with }
  case cancel => exact cancel_fits fits returned
  case revoke => exact revoke_fits fits returned
  case cancelPendingForConsumer => exact cancelPendingForConsumer_fits fits returned
  case recordExecution => exact recordExecution_fits fits returned
  case reauthorize => exact reauthorize_fits fits returned
  case listRequests | listGrants =>
    cases returned
    exact fits.next
  case getRequest =>
    simp only [Ledger.getRequest, except_bind_ok] at returned
    obtain ⟨_, -, _, -, returned⟩ := returned
    cases returned
    exact fits.next
  case getExecution =>
    simp only [Ledger.getExecution, except_bind_ok] at returned
    obtain ⟨_, -, _, -, returned⟩ := returned
    cases returned
    exact fits.next

theorem Call.evaluation_fits {call : Call} {action : Action} (passes : call.Passes platform) (fits : s.Fits platform n)
    (is : call.evaluation platform options answers = some action) (returned : action s = .ok (t, reply)) :
    t.Fits platform (n + 1) := by
  cases call <;> simp only [Call.evaluation, Option.some.injEq, reduceCtorEq] at is <;> subst is
  case requestAccess =>
    obtain ⟨-, req, recorded⟩ := requestAccess_ok returned
    exact record_fits fits passes.1 passes.2 recorded
  case decideRequest => exact decideRequest_fits fits returned
  case openGrant =>
    obtain ⟨rfl, -⟩ := openGrant_ok returned
    exact fits.next
  case admitOperation => exact admitOperation_fits fits passes returned
  case assertExecutionActive =>
    obtain ⟨rfl, -⟩ := assertExecutionActive_ok returned
    exact fits.next
  case reconcileDeletions => exact reconcileDeletions_fits fits passes returned

end

/-! ## Critical sections -/

section
variable {platform : Platform} {answers : Answers} {thread : Thread} {epoch : Nat} {file : Option AuthorizationState}

variable {s t : AuthorizationState}

theorem Applied.fits {n : Nat} (applied : Applied platform thread s t) (passes : thread.call.Passes platform)
    (reports : ∀ requestId result, thread.phase ≠ .finishing requestId result)
    (completes : ∀ target, thread.phase = .completing target → (reference target).isOk = true) (fits : s.Fits platform n) :
    t.Fits platform (n + 1) := by
  cases applied with
  | expiry now => exact fits.expire now
  | action is returned => exact Call.action_fits passes fits is returned
  | evaluation is returned => exact Call.evaluation_fits passes fits is returned
  | finishCreation phase returned => exact absurd phase (reports _ _)
  | creationUnknown phase returned => exact creationUnknown_fits fits returned
  | epoch call => exact fits.next
  | fence call returned =>
    rw [call] at passes
    exact fenceDeletion_fits (fits.expire _) passes returned
  | completion phase =>
    exact (completeDeletion_closing ⟨fits.next, fun req listed => .inl (fits.requests req listed)⟩ (completes _ phase)).fits

/-- The records of a ledger with a safe generation fit. -/
def FileFits (platform : Platform) (file : Option AuthorizationState) : Prop :=
  ∀ s, file = some s → s.generation ≤ maxSafeInteger → s.Fits platform s.generation

/-- The write keeps the ledger such that its records fit. -/
def KeepsFit (platform : Platform) (file : Option AuthorizationState) (written : AuthorizationState) : Prop :=
  FileFits platform file → FileFits platform (some written)

/-- A ledger that is written over one whose records fit. -/
private theorem FileFits.write (fits : FileFits platform (some s))
    (next : s.Fits platform s.generation → t.Fits platform (s.generation + 1)) :
    FileFits platform (some { t with generation := successor s.generation }) := by
  rintro w ⟨⟩ counted
  have counted : successor s.generation ≤ maxSafeInteger := counted
  have passed := next (fits s rfl ((le_successor _).trans counted))
  rw [← successor_safe counted] at passed
  exact passed.renumber _

private theorem finishing_keeps {requestId : String} {result : CreateResult} : Follows (KeepsFit platform)
      (do
        let reference ← reference result.reference
        let label ← text result.label 256
        let (_, _, reply) ← transaction platform answers (finishCreation requestId { reference, label })
        pure (.returned reply, none) : Section (Phase × Option Commit)) (fun _ _ => True) file := by
  refine .bind (.lift (fun target named => .bind (.lift (fun label _ => .bind ((transaction_permits ?_ ?_).mono ?_)))))
  · intro s _ fits
    exact fits.write (fun fits => fits.expire _)
  · intro s current t reply _ _ returned _ fits
    obtain rfl := reference_ok named
    have changes : Changes (fun _ => False) current t := finishCreation_changes returned
    rw [AuthorizationState.bump, changes.generation (fun no => no)]
    refine fits.write (fun fits => finishCreation_fits fits ?_ returned)
    exact isOk_of named
  · intro _ _ _
    exact .pure trivial

/-- Every write of a critical section keeps the ledger such that its records fit. -/
theorem Thread.turn_keeps {body : Section (Phase × Option Commit)} {onError : EngineError → Phase}
    (ready : thread.Ready platform file) (passes : thread.call.Passes platform)
    (is : thread.turn platform answers epoch = .critical body onError) :
    Traced (KeepsFit platform) file (body.writes file) := by
  by_cases finishing : ∃ requestId result, thread.phase = .finishing requestId result
  · obtain ⟨requestId, result, phase⟩ := finishing
    simp only [Thread.turn, phase, Turn.critical.injEq] at is
    rw [← is.1]
    exact finishing_keeps.traced
  · refine (thread.turn_follows ready is).traced.weaken (fun file written writes fits => ?_)
    push Not at finishing
    have completes : ∀ target, thread.phase = .completing target → (reference target).isOk = true := by
      intro target phase
      rw [(ready.completing target phase).2] at passes
      exact passes
    cases file with
    | none =>
      cases writes
      rintro _ ⟨⟩ -
      exact ⟨by simp [AuthorizationState.empty], by simp [AuthorizationState.empty], by simp [AuthorizationState.empty],
        by simp [AuthorizationState.empty], by simp [AuthorizationState.empty], by simp [AuthorizationState.empty]⟩
    | some s =>
      obtain ⟨t, applied, -, rfl⟩ := writes
      exact fits.write (applied.fits passes finishing completes)

end
/-! ## The size of what is written -/

section
variable (platform : Platform)

/-- The ledger is not too large for the reader. -/
def Sized (written : AuthorizationState) : Prop := platform.byteLength written ≤ maxLedgerBytes

theorem save_full {state : AuthorizationState} (large : maxLedgerBytes < platform.byteLength state)
    (file : Option AuthorizationState) :
    (save platform state).result file = .error .authorizationStoreFull ∧ (save platform state).final file = file := by
  unfold save
  rw [if_pos large]
  exact ⟨rfl, rfl⟩

private theorem save_sized (state : AuthorizationState) : Issues (Sized platform) (save platform state) := by
  unfold save
  split
  · exact .lift _
  · rename_i fits
    exact .write (Nat.le_of_not_lt fits)

private theorem read_sized : Issues (Sized platform) (read platform) := by
  refine .bind .get (fun file => ?_)
  split
  · exact .lift _
  · split
    · exact .pure _
    · exact .lift _

variable (answers : Answers)

private theorem refresh_sized : Issues (Sized platform) (refresh platform answers) := by
  refine .bind (read_sized platform) (fun state => ?_)
  dsimp only
  split
  · exact .bind (save_sized platform _) (fun _ => .pure _)
  · exact .pure _

private theorem transaction_sized (action : Action) : Issues (Sized platform) (transaction platform answers action) := by
  refine .bind (refresh_sized platform answers) (fun current => .bind (.lift _) (fun (next, reply) => ?_))
  dsimp only
  split
  · exact .bind (save_sized platform _) (fun _ => .pure _)
  · exact .pure _

private theorem commit_sized (deadline : Option Int) (base next : AuthorizationState) :
    Issues (Sized platform) (commit platform answers deadline base next) := by
  refine .bind (read_sized platform) (fun current => ?_)
  split
  · exact .pure _
  · split
    · exact .lift _
    · dsimp only
      split
      · exact .bind (save_sized platform _) (fun _ => .pure _)
      · split
        · exact .bind (save_sized platform _) (fun _ => .pure _)
        · exact .pure _

private theorem start_sized (thread : Thread) (attempt epoch : Nat) :
    Issues (Sized platform) (thread.start platform answers attempt epoch) := by
  unfold Thread.start
  split
  · refine .bind (.bind .get (fun file => ?_)) (fun _ => .pure _)
    split
    · exact save_sized platform _
    · exact .bind (read_sized platform) (fun _ => .pure _)
  · refine .bind (transaction_sized platform answers _) (fun (_, _, reply) => ?_)
    dsimp only
    split
    · exact .bind (.lift _) (fun _ => .pure _)
    · exact .pure _
  · refine .bind (.bind (refresh_sized platform answers) (fun current => ?_)) (fun (_, _) => .pure _)
    exact .bind (.lift _) (fun _ => .bind (.lift _) (fun _ => .bind (save_sized platform _) (fun _ => .pure _)))
  · refine .bind (.bind (read_sized platform) (fun state => .bind (.lift _) (fun fenced => ?_))) (fun began => ?_)
    · split
      · exact .pure _
      · exact .bind (save_sized platform _) (fun _ => .pure _)
    · split
      · exact .pure _
      · exact .pure _
  · split
    · exact .bind (transaction_sized platform answers _) (fun (_, _, _) => .pure _)
    · exact .bind (transaction_sized platform answers _) (fun (_, _, _) => .pure _)

theorem Thread.turn_sized {thread : Thread} {epoch : Nat} {body : Section (Phase × Option Commit)} {onError : EngineError → Phase}
    (is : thread.turn platform answers epoch = .critical body onError) : Issues (Sized platform) body := by
  unfold Thread.turn at is
  split at is
  · cases is
    exact start_sized platform answers thread _ _
  · split at is
    · cases is
    · split at is <;> cases is
  · cases is
    refine .bind (commit_sized platform answers _ _ _) (fun committed => ?_)
    split
    · exact .pure _
    · split
      · exact .pure _
      · exact .lift _
  · cases is
  · split at is <;> cases is
  · cases is
    exact .bind (.lift _) (fun _ => .bind (.lift _) (fun _ =>
      .bind (transaction_sized platform answers _) (fun (_, _, _) => .pure _)))
  · cases is
    exact .bind (transaction_sized platform answers _) (fun (_, _, _) => .pure _)
  · split at is
    · cases is
    · split at is <;> cases is
  · split at is
    · cases is
    · cases is
      exact .bind (save_sized platform _) (fun _ => .pure _)
  · split at is <;> cases is
  · cases is
    exact .bind (transaction_sized platform answers _) (fun _ => .pure _)
  · cases is
  · cases is

end

/-! ## Runs -/

namespace Engine
variable {platform : Platform} {e : Engine} {event : Event}

/-- The records of the ledger fit, and the calls have passed their checks, or have failed. -/
structure Storable (platform : Platform) (e : Engine) : Prop where
  ledger : FileFits platform e.file
  calls : ∀ (i : Nat) (thread : Thread), e.threads[i]? = some thread →
    thread.call.Passes platform ∨ ∃ error, thread.phase = .failed error

variable {w : AuthorizationState}

/-- The writes of an event are the first writes of a critical section. -/
private theorem written_section (inside : w ∈ e.written platform event) :
    ∃ i answers fault thread body onError n, event = .advance i answers fault ∧ e.threads[i]? = some thread ∧
      thread.turn platform (e.draw platform answers) e.epoch = .critical body onError ∧ e.isFree platform i thread = true ∧
      e.written platform event = (body.writes e.file).take n := by
  cases event with
  | call _ _ | change _ | crash _ => cases inside
  | advance i answers fault =>
    cases listed : e.threads[i]? with
    | none => simp [written, listed] at inside
    | some thread =>
      simp only [written, listed] at inside ⊢
      cases is : thread.turn platform (e.draw platform answers) e.epoch with
      | rest | proceed _ | invoke _ => simp [is] at inside
      | critical body onError =>
        simp only [is] at inside ⊢
        by_cases busy : ¬ e.isFree platform i thread
        · rw [if_pos busy] at inside
          cases inside
        · rw [if_neg busy]
          rw [not_not] at busy
          cases fault with
          | some n => exact ⟨i, answers, some n, thread, body, onError, n, rfl, listed, is, busy, rfl⟩
          | none => exact ⟨i, answers, none, thread, body, onError, _, rfl, listed, is, busy, List.take_length.symm⟩

/-- A thread that takes a lock has passed its checks. -/
private theorem Storable.passes (storable : e.Storable platform) {i : Nat} {thread : Thread} {answers : Answers}
    {body : Section (Phase × Option Commit)} {onError : EngineError → Phase} (listed : e.threads[i]? = some thread)
    (is : thread.turn platform answers e.epoch = .critical body onError) : thread.call.Passes platform := by
  rcases storable.calls i thread listed with passes | ⟨error, phase⟩
  · exact passes
  · simp [Thread.turn, phase] at is

private theorem Storable.written_keeps (storable : e.Storable platform) (sound : e.Sound platform) (event : Event) :
    Traced (KeepsFit platform) e.file (e.written platform event) := by
  cases writes : e.written platform event with
  | nil => trivial
  | cons first rest =>
    have inside : first ∈ e.written platform event := by simp [writes]
    obtain ⟨i, answers, fault, thread, body, onError, n, -, listed, is, -, same⟩ := written_section inside
    rw [← writes, same]
    exact (thread.turn_keeps (sound.ready listed) (storable.passes listed is) is).take n

theorem Storable.step (storable : e.Storable platform) (sound : e.Sound platform) (event : Event) :
    (e.step platform event).Storable platform := by
  refine ⟨?_, ?_⟩
  · rw [step_file]
    exact Traced.invariant (I := FileFits platform) (fun _ _ known keeps => keeps known) storable.ledger
      (storable.written_keeps sound event)
  · intro j thread inside
    cases step_moved inside with
    | kept _ listed => exact storable.calls j thread listed
    | called checks is =>
      rw [is]
      exact .inl (Call.checked_passes checks)
    | rejected checks is =>
      rw [is]
      exact .inr ⟨_, rfl⟩
    | crashed listed is =>
      rw [is]
      exact .inr ⟨_, rfl⟩
    | proceeded listed turn is | invoked listed turn is | failed listed turn _ is | landed listed turn _ _ is =>
      rw [is]
      refine .inl ((storable.calls j _ listed).resolve_right ?_)
      rintro ⟨error, phase⟩
      simp [Thread.turn, phase] at turn

theorem storable_run (platform : Platform) (events : List Event) : (new.run platform events).Storable platform := by
  have all : ∀ e : Engine, e.Sound platform → e.Storable platform → (e.run platform events).Storable platform := by
    induction events with
    | nil => exact fun _ _ storable => storable
    | cons event rest ih => exact fun e sound storable => ih _ (sound.step event) (storable.step sound event)
  refine all new .new ⟨?_, ?_⟩
  · intro s no
    cases no
  · intro i thread no
    cases no

/-- A ledger that is written is the ledger in the file when the section fails right after the write. -/
private theorem written_reached (inside : w ∈ e.written platform event) :
    ∃ other, (e.step platform other).file = some w ∧ (e.step platform other).drawn = e.drawn + 1 := by
  obtain ⟨i, answers, fault, thread, body, onError, n, -, listed, is, free, same⟩ := written_section inside
  rw [same] at inside
  obtain ⟨k, bound, at'⟩ := List.mem_iff_getElem.mp (List.mem_of_mem_take inside)
  refine ⟨.advance i answers (some (k + 1)), ?_, ?_⟩
  · have last : (body.writes e.file).take (k + 1) = (body.writes e.file).take k ++ [w] := by
      rw [List.take_succ_eq_append_getElem bound, at']
    rw [step_file]
    simp only [written, listed, is, free, not_true_eq_false, if_false]
    rw [last, applyAll_append]
    rfl
  · simp [step, listed, is, free]

end Engine

/-- What is written can be read back as long as the generation is a safe integer; what is too large is not written. -/
theorem written_ledgers_read_back (platform : Platform) (events : List Event) (event : Event)
    (textual : platform.Textual ((Engine.new.run platform events).drawn + 1)) :
    (∀ w ∈ (Engine.new.run platform events).written platform event, w.generation ≤ maxSafeInteger →
      (read platform).result (some w) = .ok w) ∧
    ∀ state file, maxLedgerBytes < platform.byteLength state →
      (save platform state).result file = .error .authorizationStoreFull ∧ (save platform state).final file = file := by
  refine ⟨fun w inside counted => ?_, fun state file large => save_full platform large file⟩
  have sound : (Engine.new.run platform events).Sound platform := Engine.Sound.new.run events
  have storable := Engine.storable_run platform events
  obtain ⟨other, stored, drawn⟩ := Engine.written_reached inside
  obtain ⟨i, answers, -, thread, body, onError, n, -, -, is, -, same⟩ := Engine.written_section inside
  have size : platform.byteLength w ≤ maxLedgerBytes :=
    Thread.turn_sized platform _ is _ w (List.mem_of_mem_take (same ▸ inside))
  have after := sound.step other
  have issued := after.issued w stored
  rw [drawn] at issued
  have readable : w.isReadable platform = true :=
    ((storable.step sound other).ledger w stored counted).isReadable textual ((after.ledger w stored).distinct empty_distinct) issued
      counted size
  unfold read
  rw [Program.result_get_bind]
  dsimp only
  rw [if_pos readable]
  rfl

namespace Plain

/-- The ledger after nothing but changes of the catalog. -/
def blank (generation : Nat) : AuthorizationState := { AuthorizationState.empty with generation }

/-- A change of the catalog. -/
def changing (thread : Nat) : List Event :=
  [.call options (.withIdentityAccess identity), .advance thread answers none, .advance thread answers none]

private structure Idle (generation : Nat) (e : Engine) : Prop where
  file : e.file = some (blank generation)
  holder : e.holder = none

variable {generation : Nat} {e : Engine}

private theorem blank_readable (counted : generation ≤ maxSafeInteger) : (blank generation).isReadable platform = true :=
  AuthorizationState.isReadable_iff.mpr
    ⟨Nat.zero_le _, counted, .nil, .nil, .nil, by simp [blank, AuthorizationState.empty], by simp [blank, AuthorizationState.empty],
      by simp [blank, AuthorizationState.empty], by simp [blank, AuthorizationState.empty], by simp [blank, AuthorizationState.empty]⟩

private theorem beginAccess_blank (counted : generation ≤ maxSafeInteger) (uuid : String) :
    beginAccess platform { answers with uuid } identity (some (blank generation)) =
      ⟨[blank (successor generation)], .ok (blank generation, blank (successor generation))⟩ := by
  have reads : read platform (some (blank generation)) = ⟨[], .ok (blank generation)⟩ := by
    unfold read
    change (if (blank generation).isReadable platform = true then pure (blank generation)
      else Program.throw .authorizationStoreCorrupt : Section _) _ = _
    rw [if_pos (blank_readable counted)]
    rfl
  have same : (blank generation).expire (answers.now 0) = blank generation := rfl
  have refreshes : refresh platform { answers with uuid } (some (blank generation)) = ⟨[], .ok (blank generation)⟩ := by
    unfold refresh
    simp only [Bind.bind, Program.bind, reads, same, ne_eq, not_true_eq_false, if_false]
    rfl
  unfold beginAccess
  simp only [Bind.bind, Program.bind, refreshes]
  rfl

private theorem critical_step {i : Nat} {thread : Thread} {body : Section (Phase × Option Commit)}
    {onError : EngineError → Phase} {phase : Phase} {commit : Option Commit} (answers : Answers)
    (listed : e.threads[i]? = some thread)
    (is : thread.turn platform (e.draw platform answers) e.epoch = .critical body onError)
    (free : e.isFree platform i thread = true) (returned : body.result e.file = .ok (phase, commit)) :
    let after := e.step platform (.advance i answers none)
    after.file = body.final e.file ∧ after.threads[i]? = some { thread with phase } ∧
      after.holder = (if phase.isChanging then some i else if e.holder = some i then none else e.holder) := by
  simp only [Engine.step, listed, is, free, returned, not_true_eq_false, if_false]
  exact ⟨trivial, Engine.settle_self listed, rfl⟩

/-- A thread of the catalog change at hand. -/
private def changer (phase : Phase) : Thread := ⟨options, .withIdentityAccess identity, phase⟩

private theorem Idle.opens (idle : Idle generation e) (counted : generation ≤ maxSafeInteger) :
    let opened := e.run platform [.call options (.withIdentityAccess identity), .advance e.threads.length answers none]
    opened.file = some (blank (successor generation)) ∧ opened.holder = some e.threads.length ∧
      opened.threads[e.threads.length]? = some (changer (.changing (blank (successor generation)))) := by
  have listed : (e.threads ++ [changer (.starting 0)])[e.threads.length]? = some (changer (.starting 0)) := by simp
  have begins : (changer (.starting 0)).start platform (e.draw platform answers) 0 e.epoch e.file =
      ⟨[blank (successor generation)], .ok (.changing (blank (successor generation)),
        some ⟨options, .withIdentityAccess identity, e.draw platform answers, blank generation, blank generation, .none⟩)⟩ := by
    rw [idle.file]
    unfold Thread.start changer
    simp only [Bind.bind, Program.bind]
    rw [show beginAccess platform (e.draw platform answers) identity (some (blank generation)) = _ from
      beginAccess_blank counted _]
    rfl
  obtain ⟨file, moved, holder⟩ := critical_step (e := { e with threads := e.threads ++ [changer (.starting 0)] }) answers listed rfl
    (by simp [Engine.isFree, idle.holder, Thread.awaits, changer]) (congrArg Outcome.result begins)
  have final : ((changer (.starting 0)).start platform (e.draw platform answers) 0 e.epoch).final e.file =
      some (blank (successor generation)) := by
    unfold Program.final Program.writes
    rw [begins]
    rfl
  exact ⟨file.trans final, holder, moved⟩

/-- A change of the catalog writes the ledger twice, and looks at the generation only the first time. -/
private theorem Idle.changes (idle : Idle generation e) (counted : generation ≤ maxSafeInteger) :
    Idle (successor (successor generation)) (e.run platform (changing e.threads.length)) ∧
      (e.run platform [.call options (.withIdentityAccess identity), .advance e.threads.length answers none]).written platform
        (.advance e.threads.length answers none) = [blank (successor (successor generation))] := by
  obtain ⟨file, holder, listed⟩ := idle.opens counted
  have free : Engine.isFree platform (e.run platform [.call options (.withIdentityAccess identity),
      .advance e.threads.length answers none]) e.threads.length (changer (.changing (blank (successor generation)))) = true := by
    simp [Engine.isFree, holder, Thread.awaits, changer]
  obtain ⟨file', -, holder'⟩ := critical_step answers listed rfl free rfl
  refine ⟨⟨file', holder'.trans ?_⟩, ?_⟩
  · simp [holder, Phase.isChanging]
  · simp only [Engine.written, listed, free]
    rfl

private theorem idle_reached (k : Nat) (counted : 2 * k ≤ maxSafeInteger + 1) :
    ∃ events, Idle (2 * k) (Engine.new.run platform events) := by
  induction k with
  | zero => exact ⟨[.call options .initializeLedger, .advance 0 answers none], rfl, rfl⟩
  | succ k ih =>
    obtain ⟨events, idle⟩ := ih (by omega)
    refine ⟨events ++ changing (Engine.new.run platform events).threads.length, ?_⟩
    have next := (idle.changes (by omega)).1
    rw [successor, if_pos (show successor (2 * k) ≤ maxSafeInteger by rw [successor, if_pos (by omega)]; omega), successor,
      if_pos (by omega)] at next
    rwa [Engine.run, Engine.run, ← List.foldl_append] at next

/-- A change of the catalog that fails writes the ledger once. -/
private theorem Idle.fails (idle : Idle generation e) (counted : generation ≤ maxSafeInteger) :
    Idle (successor generation) (e.run platform [.call options (.withIdentityAccess identity),
      .advance e.threads.length answers none, .crash e.threads.length]) := by
  obtain ⟨file, holder, listed⟩ := idle.opens counted
  change Idle _ ((e.run platform [.call options (.withIdentityAccess identity), .advance e.threads.length answers none]).step
    platform (.crash e.threads.length))
  generalize e.run platform _ = opened at file holder listed ⊢
  refine ⟨(Engine.step_file opened _).trans file, ?_⟩
  simp [Engine.step, listed, Engine.settle, Phase.isChanging, holder]

private theorem last_reached : ∃ events, Idle maxSafeInteger (Engine.new.run platform events) := by
  obtain ⟨events, idle⟩ := idle_reached (2 ^ 52 - 1) (by unfold maxSafeInteger; omega)
  have last := idle.fails (by unfold maxSafeInteger; omega)
  rw [Engine.run, Engine.run, ← List.foldl_append, successor, if_pos (by unfold maxSafeInteger; omega)] at last
  exact ⟨_, last⟩

/-- Beyond the safe integers a change of the catalog writes two ledgers of one generation. -/
theorem generation_repeated : ∃ events event s w, (Engine.new.run platform events).file = some s ∧
    (Engine.new.run platform events).written platform event = [w] ∧ w.generation = s.generation := by
  obtain ⟨events, idle⟩ := last_reached
  obtain ⟨file, -, -⟩ := idle.opens (Nat.le_refl _)
  have written := (idle.changes (Nat.le_refl _)).2
  rw [Engine.run, Engine.run, ← List.foldl_append] at file written
  have beyond : ¬ successor maxSafeInteger ≤ maxSafeInteger := Nat.not_le.mpr (lt_successor (Nat.le_refl _))
  have stays : successor (successor maxSafeInteger) = successor maxSafeInteger := if_neg beyond
  exact ⟨_, _, _, _, file, written, stays⟩

/-- The second write of a catalog change is not counted against the reader's limit. -/
theorem outgrown_ledger_written : ∃ events event w, w ∈ (Engine.new.run platform events).written platform event ∧
    platform.byteLength w ≤ maxLedgerBytes ∧ (read platform).result (some w) = .error .authorizationStoreCorrupt := by
  obtain ⟨events, idle⟩ := idle_reached (2 ^ 52 - 1) (by unfold maxSafeInteger; omega)
  have written := (idle.changes (by unfold maxSafeInteger; omega)).2
  rw [Engine.run, Engine.run, ← List.foldl_append] at written
  refine ⟨_, _, _, List.mem_of_mem_head? (congrArg List.head? written), Nat.zero_le _, ?_⟩
  have unreadable : ¬ (blank (successor (successor (2 * (2 ^ 52 - 1))))).isReadable platform = true := by
    intro readable
    have counted := (AuthorizationState.isReadable_iff.mp readable).2.1
    exact absurd counted (by decide +kernel)
  unfold read
  rw [Program.result_get_bind]
  dsimp only
  rw [if_neg unreadable]
  rfl

end Plain

theorem written_ledgers_read_back_granting :
    let events := Plain.granting.dropLast
    let event := Event.advance 2 Plain.answers none
    Plain.platform.Textual ((Engine.new.run Plain.platform events).drawn + 1) ∧
      (Engine.new.run Plain.platform events).written Plain.platform event ≠ [] ∧
      ∀ w ∈ (Engine.new.run Plain.platform events).written Plain.platform event,
        (read Plain.platform).result (some w) = .ok w := by
  have textual : Plain.platform.Textual ((Engine.new.run Plain.platform Plain.granting.dropLast).drawn + 1) := by
    have digest : (text "digest").isOk = true := by decide +kernel
    refine ⟨?_, fun _ => digest⟩
    decide +kernel
  refine ⟨textual, by decide +kernel, fun w inside => ?_⟩
  refine (written_ledgers_read_back Plain.platform Plain.granting.dropLast (.advance 2 Plain.answers none) textual).1 w inside ?_
  revert w
  decide +kernel

end AnpIdentity.Ledger
