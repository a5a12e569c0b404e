import AnpIdentity.Plain

/-! The authority that issues one-time tokens. A host acquires leases, issues tokens for single operations under
them and consumes a token before the operation. Times are seconds since the epoch. -/

namespace AnpIdentity

/-- Errors of the authority. -/
inductive ProviderAuthorizationError where
  | leaseInvalid | capabilityDenied | tokenInvalid | tokenExpired | tokenConsumed | internal
  deriving Repr, DecidableEq

abbrev ProviderResult := Except ProviderAuthorizationError

/-- The one operation that a token is for. -/
structure OneTimeOperationBinding where
  capability : String
  identityId : String
  operation : String
  kid : Option String
  requestId : String
  recipientPublicKey : Key32
  operationInputDigest : String
  deriving DecidableEq

/-- The handle on a lease. -/
structure ProviderCapabilityLease where
  providerInstanceId : String
  leaseId : String
  deriving Repr, DecidableEq

/-- The context that is handed out with a token; the same is reported when the token is consumed. -/
structure IssuedAuthorizationContext where
  providerInstanceId : String
  parentLeaseId : String
  consumer : String
  capability : String
  storeId : String
  expiresAt : Int
  deriving Repr, DecidableEq

/-- A token with its context. -/
structure IssuedOneTimeAuthorization where
  token : String
  context : IssuedAuthorizationContext
  deriving Repr, DecidableEq

/-- What the authority keeps of a lease. -/
structure LeaseState where
  consumer : String
  capabilities : List String
  storeId : String
  expiresAt : Int
  deriving Repr, DecidableEq

/-- The payload of a token. -/
structure TokenClaims where
  version : String
  providerInstanceId : String
  parentLeaseId : String
  consumer : String
  capability : String
  storeId : String
  identityId : String
  operation : String
  kid : Option String
  requestId : String
  recipientPublicKeyDigest : String
  operationInputDigest : String
  expiresAt : Int
  deriving Repr, DecidableEq

def tokenVersion : String := "anp-identity-capability/1"
def maxTokenBytes : Nat := 16 * 1024
def maxLeaseTtlSeconds : Int := 24 * 60 * 60
def maxOperationTtlSeconds : Int := 5 * 60

/-- What the authority calls outside the crate. -/
structure TokenPrimitives where
  /-- Unpadded base64url. -/
  encode : Bytes → String
  decode : String → Option Bytes
  /-- `serde_json_canonicalizer::to_vec`. -/
  canonical : TokenClaims → Option Bytes
  /-- `serde_json::from_slice`. -/
  parse : Bytes → Option TokenClaims
  hmac : Key32 → Bytes → Bytes
  sha256 : String → Bytes
  recipientPublicKeyDigest : Key32 → String

/-- Decoding is strict, claims are read back from their encoding, and digests of keys do not collide. -/
structure TokenPrimitives.Documented (primitives : TokenPrimitives) : Prop where
  strict : ∀ text bytes, primitives.decode text = some bytes → text = primitives.encode bytes
  readBack : ∀ claims bytes, primitives.canonical claims = some bytes → primitives.parse bytes = some claims
  apart : Function.Injective primitives.recipientPublicKeyDigest

/-- The maps of the authority, which are behind its mutex, with the two values that never change. -/
structure ProviderAuthorization where
  providerInstanceId : String
  hmacKey : Key32
  leases : String → Option LeaseState
  consumedTokens : Bytes → Option Int

namespace ProviderAuthorization

def new (providerInstanceId : String) (hmacKey : Key32) : ProviderAuthorization where
  providerInstanceId := providerInstanceId
  hmacKey := hmacKey
  leases := fun _ => none
  consumedTokens := fun _ => none

def validateNonempty (value : String) : ProviderResult Unit :=
  if Text.isBlank value then .error .tokenInvalid else .ok ()

/-- No part of a binding may be blank. -/
def validateBinding (binding : OneTimeOperationBinding) : ProviderResult Unit := do
  validateNonempty binding.capability
  validateNonempty binding.identityId
  validateNonempty binding.operation
  validateNonempty binding.requestId
  validateNonempty binding.operationInputDigest
  if binding.kid.any Text.isBlank then .error .tokenInvalid else .ok ()

/-- `leaseId` is the identifier that the call draws. -/
def acquireLeaseAt (self : ProviderAuthorization) (leaseId consumer : String) (capabilities : List String) (storeId : String)
    (ttlSeconds now : Int) : ProviderResult (ProviderAuthorization × ProviderCapabilityLease) := do
  validateNonempty consumer
  validateNonempty storeId
  if ¬ (1 ≤ ttlSeconds ∧ ttlSeconds ≤ maxLeaseTtlSeconds) then .error .leaseInvalid
  else if capabilities = [] ∨ capabilities.any Text.isBlank then .error .leaseInvalid
  else
    let lease : LeaseState := { consumer, capabilities, storeId, expiresAt := now + ttlSeconds }
    .ok ({ self with leases := Function.update self.leases leaseId (some lease) },
      { providerInstanceId := self.providerInstanceId, leaseId })

def disposeLease (self : ProviderAuthorization) (lease : ProviderCapabilityLease) : ProviderResult ProviderAuthorization :=
  if lease.providerInstanceId ≠ self.providerInstanceId then .error .leaseInvalid
  else
    match self.leases lease.leaseId with
    | none => .error .leaseInvalid
    | some _ => .ok { self with leases := Function.update self.leases lease.leaseId none }

variable (primitives : TokenPrimitives)

/-- A token does not outlive its lease. -/
def claims (self : ProviderAuthorization) (lease : ProviderCapabilityLease) (parent : LeaseState)
    (binding : OneTimeOperationBinding) (ttlSeconds now : Int) : TokenClaims where
  version := tokenVersion
  providerInstanceId := self.providerInstanceId
  parentLeaseId := lease.leaseId
  consumer := parent.consumer
  capability := binding.capability
  storeId := parent.storeId
  identityId := binding.identityId
  operation := binding.operation
  kid := binding.kid
  requestId := binding.requestId
  recipientPublicKeyDigest := primitives.recipientPublicKeyDigest binding.recipientPublicKey
  operationInputDigest := binding.operationInputDigest
  expiresAt := min (now + ttlSeconds) parent.expiresAt

end ProviderAuthorization

def TokenClaims.context (claims : TokenClaims) : IssuedAuthorizationContext where
  providerInstanceId := claims.providerInstanceId
  parentLeaseId := claims.parentLeaseId
  consumer := claims.consumer
  capability := claims.capability
  storeId := claims.storeId
  expiresAt := claims.expiresAt

/-- The text of the token with this payload. -/
def TokenPrimitives.tokenText (primitives : TokenPrimitives) (hmacKey : Key32) (payload : Bytes) : String :=
  primitives.encode payload ++ "." ++ primitives.encode (primitives.hmac hmacKey payload)

/-- `str::split_once`. -/
def splitOnce (s : String) (c : Char) : Option (String × String) :=
  match s.toList.dropWhile (· ≠ c) with
  | [] => none
  | _ :: rest => some (String.ofList (s.toList.takeWhile (· ≠ c)), String.ofList rest)

/-- The payload and the tag that a token carries. -/
def TokenPrimitives.decodeToken (primitives : TokenPrimitives) (token : String) : Option (Bytes × Bytes) := do
  let (payloadText, tagText) ← (splitOnce token '.').filter (fun parts => ! Text.contains parts.2 '.')
  let payload ← primitives.decode payloadText
  let tag ← primitives.decode tagText
  return (payload, tag)

namespace ProviderAuthorization
variable (primitives : TokenPrimitives)

/-- The claims that a token is issued for, from the lease as it is under the mutex. -/
def grant (self : ProviderAuthorization) (lease : ProviderCapabilityLease) (binding : OneTimeOperationBinding)
    (ttlSeconds now : Int) : ProviderResult TokenClaims := do
  validateBinding binding
  if lease.providerInstanceId ≠ self.providerInstanceId ∨ ¬ (1 ≤ ttlSeconds ∧ ttlSeconds ≤ maxOperationTtlSeconds) then
    .error .leaseInvalid
  else
    match self.leases lease.leaseId with
    | none => .error .leaseInvalid
    | some parent =>
      if parent.expiresAt ≤ now then .error .leaseInvalid
      else if binding.capability ∉ parent.capabilities then .error .capabilityDenied
      else .ok (self.claims primitives lease parent binding ttlSeconds now)

/-- Issues a token under a lease. -/
def issueOneTimeWithContextAt (self : ProviderAuthorization) (lease : ProviderCapabilityLease)
    (binding : OneTimeOperationBinding) (ttlSeconds now : Int) : ProviderResult IssuedOneTimeAuthorization := do
  let claims ← self.grant primitives lease binding ttlSeconds now
  match primitives.canonical claims with
  | none => .error .internal
  | some payload => .ok { token := primitives.tokenText self.hmacKey payload, context := claims.context }

def verify (self : ProviderAuthorization) (payload tag : Bytes) : ProviderResult Unit :=
  if tag = primitives.hmac self.hmacKey payload then .ok () else .error .tokenInvalid

/-- The claims speak of this operation on this authority. -/
def Binds (self : ProviderAuthorization) (claims : TokenClaims) (expected : OneTimeOperationBinding) : Prop :=
  claims.version = tokenVersion ∧ claims.providerInstanceId = self.providerInstanceId ∧
    claims.capability = expected.capability ∧ claims.identityId = expected.identityId ∧
    claims.operation = expected.operation ∧ claims.kid = expected.kid ∧ claims.requestId = expected.requestId ∧
    claims.recipientPublicKeyDigest = primitives.recipientPublicKeyDigest expected.recipientPublicKey ∧
    claims.operationInputDigest = expected.operationInputDigest

instance (self : ProviderAuthorization) (claims : TokenClaims) (expected : OneTimeOperationBinding) :
    Decidable (self.Binds primitives claims expected) :=
  inferInstanceAs (Decidable (_ ∧ _ ∧ _ ∧ _ ∧ _ ∧ _ ∧ _ ∧ _ ∧ _))

/-- What a consume call does before it takes the mutex. -/
def checkToken (self : ProviderAuthorization) (token : String) (expected : OneTimeOperationBinding) (now : Int) :
    ProviderResult TokenClaims := do
  validateBinding expected
  if maxTokenBytes < Text.len token then .error .tokenInvalid
  else
    match primitives.decodeToken token with
    | none => .error .tokenInvalid
    | some (payload, tag) =>
      self.verify primitives payload tag
      match primitives.parse payload with
      | none => .error .tokenInvalid
      | some claims =>
        if ¬ self.Binds primitives claims expected then .error .tokenInvalid
        else if claims.expiresAt ≤ now then .error .tokenExpired
        else .ok claims

/-- Expired tokens are forgotten and a token is stored. -/
def remember (self : ProviderAuthorization) (digest : Bytes) (expiresAt now : Int) : ProviderAuthorization :=
  let retained := fun digest => (self.consumedTokens digest).filter (now < ·)
  { self with consumedTokens := Function.update retained digest (some expiresAt) }

/-- The part of a consume call behind the mutex. A token that was consumed before is stored again. -/
def consumeLocked (self : ProviderAuthorization) (claims : TokenClaims) (digest : Bytes) (now : Int) :
    ProviderAuthorization × ProviderResult IssuedAuthorizationContext :=
  match self.leases claims.parentLeaseId with
  | none => (self, .error .leaseInvalid)
  | some parent =>
    if parent.expiresAt ≤ now ∨ parent.consumer ≠ claims.consumer ∨ parent.storeId ≠ claims.storeId ∨
        claims.capability ∉ parent.capabilities then
      (self, .error .leaseInvalid)
    else
      let after := self.remember digest claims.expiresAt now
      if ((self.consumedTokens digest).filter (now < ·)).isSome then (after, .error .tokenConsumed)
      else (after, .ok claims.context)

/-- Consumes a token for an operation. -/
def consumeForOperationAt (self : ProviderAuthorization) (token : String) (expected : OneTimeOperationBinding) (now : Int) :
    ProviderAuthorization × ProviderResult IssuedAuthorizationContext :=
  match self.checkToken primitives token expected now with
  | .error e => (self, .error e)
  | .ok claims => self.consumeLocked claims (primitives.sha256 token) now

end ProviderAuthorization

/-! ## What the calls establish -/

section
variable {primitives : TokenPrimitives} {self after : ProviderAuthorization} {lease : ProviderCapabilityLease}
  {binding expected : OneTimeOperationBinding} {ttlSeconds now : Int} {claims : TokenClaims} {token : String} {digest : Bytes}

theorem splitOnce_joins {s head rest : String} {c : Char} (split : splitOnce s c = some (head, rest)) :
    s = head ++ String.ofList [c] ++ rest := by
  unfold splitOnce at split
  split at split
  · cases split
  · rename_i d back found
    simp only [Option.some.injEq, Prod.mk.injEq] at split
    obtain ⟨rfl, rfl⟩ := split
    have whole : s.toList.takeWhile (· ≠ c) ++ s.toList.dropWhile (· ≠ c) = s.toList := List.takeWhile_append_dropWhile
    have first := List.head?_dropWhile_not (fun x => decide (x ≠ c)) s.toList
    rw [found] at whole first
    have same : d = c := by simpa using first
    subst same
    apply String.toList_inj.mp
    simpa using whole.symm

/-- A token is the text of the payload and the tag that it carries. -/
theorem decodeToken_text (documented : primitives.Documented) {payload tag : Bytes}
    (decoded : primitives.decodeToken token = some (payload, tag)) :
    token = primitives.encode payload ++ "." ++ primitives.encode tag := by
  simp only [TokenPrimitives.decodeToken, Option.bind_eq_bind, Option.bind_eq_some_iff, Option.filter_eq_some_iff,
    Option.some.injEq, Option.pure_def, Prod.mk.injEq] at decoded
  obtain ⟨⟨payloadText, tagText⟩, ⟨split, -⟩, _, first, _, second, rfl, rfl⟩ := decoded
  have joined := splitOnce_joins split
  rw [← documented.strict _ _ first, ← documented.strict _ _ second]
  exact joined

/-- What a consume call has checked when it takes the mutex. -/
structure Checks (primitives : TokenPrimitives) (authority : ProviderAuthorization) (token : String)
    (expected : OneTimeOperationBinding) (now : Int) (claims : TokenClaims) : Prop where
  signed : ∃ payload, primitives.decodeToken token = some (payload, primitives.hmac authority.hmacKey payload) ∧
    primitives.parse payload = some claims
  binds : authority.Binds primitives claims expected
  unexpired : now < claims.expiresAt

theorem checkToken_ok (checked : self.checkToken primitives token expected now = .ok claims) :
    Checks primitives self token expected now claims := by
  obtain ⟨_, -, rest⟩ := except_bind_ok.mp checked
  split at rest
  · cases rest
  split at rest
  · cases rest
  rename_i payload tag decoded
  obtain ⟨_, verified, read⟩ := except_bind_ok.mp rest
  have same : tag = primitives.hmac self.hmacKey payload := by
    unfold ProviderAuthorization.verify at verified
    split at verified
    · assumption
    · cases verified
  split at read
  · cases read
  rename_i found parsed
  split at read
  · cases read
  rename_i binds
  split at read
  · cases read
  rename_i unexpired
  cases read
  exact ⟨⟨payload, same ▸ decoded, parsed⟩, not_not.mp binds, not_le.mp unexpired⟩

/-- The lease that a token is consumed under. -/
structure Covers (authority : ProviderAuthorization) (claims : TokenClaims) (now : Int) (parent : LeaseState) : Prop where
  found : authority.leases claims.parentLeaseId = some parent
  unexpired : now < parent.expiresAt
  consumer : parent.consumer = claims.consumer
  storeId : parent.storeId = claims.storeId
  capability : claims.capability ∈ parent.capabilities

theorem remember_self {expiresAt : Int} : (self.remember digest expiresAt now).consumedTokens digest = some expiresAt := by
  simp [ProviderAuthorization.remember]

theorem remember_of_ne {expiresAt : Int} {other : Bytes} (apart : other ≠ digest) :
    (self.remember digest expiresAt now).consumedTokens other = (self.consumedTokens other).filter (now < ·) := by
  simp [ProviderAuthorization.remember, apart]

/-- The outcomes of the part of a consume call behind the mutex. -/
inductive Admits (authority : ProviderAuthorization) (claims : TokenClaims) (digest : Bytes) (now : Int) :
    ProviderAuthorization × ProviderResult IssuedAuthorizationContext → Prop
  | denied : Admits authority claims digest now (authority, .error .leaseInvalid)
  | consumed {parent : LeaseState} {expiresAt : Int} (covers : Covers authority claims now parent)
      (known : authority.consumedTokens digest = some expiresAt) (unexpired : now < expiresAt) :
      Admits authority claims digest now (authority.remember digest claims.expiresAt now, .error .tokenConsumed)
  | accepted {parent : LeaseState} (covers : Covers authority claims now parent)
      (unknown : ∀ expiresAt, authority.consumedTokens digest = some expiresAt → expiresAt ≤ now) :
      Admits authority claims digest now (authority.remember digest claims.expiresAt now, .ok claims.context)

theorem consumeLocked_admits : Admits self claims digest now (self.consumeLocked claims digest now) := by
  unfold ProviderAuthorization.consumeLocked
  split
  · exact .denied
  rename_i parent found
  split
  · exact .denied
  rename_i covered
  simp only [not_or, not_le, ne_eq, not_not] at covered
  have covers : Covers self claims now parent := ⟨found, covered.1, covered.2.1, covered.2.2.1, covered.2.2.2⟩
  simp only
  split
  · rename_i retained
    obtain ⟨expiresAt, kept⟩ := Option.isSome_iff_exists.mp retained
    obtain ⟨known, unexpired⟩ := Option.filter_eq_some_iff.mp kept
    exact .consumed covers known (by simpa using unexpired)
  · rename_i dropped
    refine .accepted covers (fun expiresAt known => ?_)
    by_contra later
    refine dropped (Option.isSome_iff_exists.mpr ⟨expiresAt, Option.filter_eq_some_iff.mpr ⟨known, ?_⟩⟩)
    simpa using later

theorem grant_ok (granted : self.grant primitives lease binding ttlSeconds now = .ok claims) :
    ∃ parent, self.leases lease.leaseId = some parent ∧ claims = self.claims primitives lease parent binding ttlSeconds now := by
  obtain ⟨_, -, rest⟩ := except_bind_ok.mp granted
  split at rest
  · cases rest
  split at rest
  · cases rest
  rename_i parent found
  split at rest
  · cases rest
  split at rest
  · cases rest
  cases rest
  exact ⟨parent, found, rfl⟩

theorem acquireLeaseAt_ok {leaseId consumer storeId : String} {capabilities : List String}
    {acquired : ProviderAuthorization × ProviderCapabilityLease}
    (returned : self.acquireLeaseAt leaseId consumer capabilities storeId ttlSeconds now = .ok acquired) :
    let lease : LeaseState := { consumer, capabilities, storeId, expiresAt := now + ttlSeconds }
    acquired.1 = { self with leases := Function.update self.leases leaseId (some lease) } := by
  intro lease
  obtain ⟨_, -, rest⟩ := except_bind_ok.mp returned
  obtain ⟨_, -, rest⟩ := except_bind_ok.mp rest
  split at rest
  · cases rest
  split at rest
  · cases rest
  cases rest
  rfl

theorem disposeLease_ok (disposed : self.disposeLease lease = .ok after) :
    (∃ parent, self.leases lease.leaseId = some parent) ∧
      after = { self with leases := Function.update self.leases lease.leaseId none } := by
  unfold ProviderAuthorization.disposeLease at disposed
  split at disposed
  · cases disposed
  split at disposed
  · cases disposed
  rename_i parent found
  cases disposed
  exact ⟨⟨parent, found⟩, rfl⟩

end

/-! ## Runs -/

/-- A call that issued a token. -/
structure IssueCall where
  lease : ProviderCapabilityLease
  binding : OneTimeOperationBinding
  ttlSeconds : Int
  now : Int
  returned : IssuedOneTimeAuthorization

/-- An authority at a time, with what its calls have done: the leases that were acquired and disposed, the tokens
that were issued and the payloads that were signed with its key. -/
structure ProviderHistory where
  authority : ProviderAuthorization
  clock : Int
  acquired : List (String × LeaseState)
  disposed : List String
  issued : List IssueCall
  signed : List Bytes

/-- Calls of any consumers, and time. -/
inductive ProviderEvent where
  | pass (seconds : Nat)
  | acquire (leaseId consumer : String) (capabilities : List String) (storeId : String) (ttlSeconds : Int)
  | dispose (lease : ProviderCapabilityLease)
  | issue (lease : ProviderCapabilityLease) (binding : OneTimeOperationBinding) (ttlSeconds : Int)
  | consume (token : String) (expected : OneTimeOperationBinding)

namespace ProviderHistory

def new (providerInstanceId : String) (hmacKey : Key32) (clock : Int) : ProviderHistory where
  authority := .new providerInstanceId hmacKey
  clock := clock
  acquired := []
  disposed := []
  issued := []
  signed := []

variable (primitives : TokenPrimitives)

def step (h : ProviderHistory) : ProviderEvent → ProviderHistory
  | .pass seconds => { h with clock := h.clock + seconds }
  | .acquire leaseId consumer capabilities storeId ttlSeconds =>
    match h.authority.acquireLeaseAt leaseId consumer capabilities storeId ttlSeconds h.clock with
    | .error _ => h
    | .ok (authority, _) =>
      let lease := { consumer, capabilities, storeId, expiresAt := h.clock + ttlSeconds }
      { h with authority, acquired := h.acquired ++ [(leaseId, lease)] }
  | .dispose lease =>
    match h.authority.disposeLease lease with
    | .error _ => h
    | .ok authority => { h with authority, disposed := h.disposed ++ [lease.leaseId] }
  | .issue lease binding ttlSeconds =>
    let payload := (h.authority.grant primitives lease binding ttlSeconds h.clock).toOption.bind primitives.canonical
    let returned := (h.authority.issueOneTimeWithContextAt primitives lease binding ttlSeconds h.clock).toOption
    { h with
      issued := h.issued ++ (returned.map (IssueCall.mk lease binding ttlSeconds h.clock)).toList
      signed := h.signed ++ payload.toList }
  | .consume token expected =>
    { h with authority := (h.authority.consumeForOperationAt primitives token expected h.clock).1 }

def run (h : ProviderHistory) (events : List ProviderEvent) : ProviderHistory := events.foldl (step primitives) h

/-- Lease ids are 128 random bits and taken to be new. A tag that verifies was made by the authority: nobody else has
its key. -/
def Ideal (h : ProviderHistory) : ProviderEvent → Prop
  | .acquire leaseId _ _ _ _ => leaseId ∉ h.acquired.map Prod.fst
  | .consume token _ => ∀ parts ∈ primitives.decodeToken token,
      parts.2 = primitives.hmac h.authority.hmacKey parts.1 → parts.1 ∈ h.signed
  | _ => True

instance (h : ProviderHistory) : ∀ event, Decidable (h.Ideal primitives event)
  | .acquire _ _ _ _ _ => inferInstanceAs (Decidable (_ ∉ _))
  | .consume _ _ => inferInstanceAs (Decidable (∀ parts ∈ _, _ → _))
  | .pass _ | .dispose _ | .issue _ _ _ => isTrue trivial

def Meets : ProviderHistory → List ProviderEvent → Prop
  | _, [] => True
  | h, event :: rest => h.Ideal primitives event ∧ Meets (h.step primitives event) rest

instance decidableMeets : ∀ h events, Decidable (Meets primitives h events)
  | _, [] => isTrue trivial
  | h, event :: rest =>
    have := decidableMeets (h.step primitives event) rest
    inferInstanceAs (Decidable (_ ∧ _))

end ProviderHistory

section
variable {primitives : TokenPrimitives} {h : ProviderHistory} {event : ProviderEvent}

/-- The call issued the token with this payload under the lease. -/
structure IssuedUnder (primitives : TokenPrimitives) (h : ProviderHistory) (payload : Bytes) (call : IssueCall)
    (lease : LeaseState) : Prop where
  issued : call ∈ h.issued
  acquired : (call.lease.leaseId, lease) ∈ h.acquired
  encoded : primitives.canonical (h.authority.claims primitives call.lease lease call.binding call.ttlSeconds call.now) =
    some payload
  token : call.returned.token = primitives.tokenText h.authority.hmacKey payload

/-- The leases that the authority holds were acquired and not disposed, an id stands for one lease, and what was
signed was issued. -/
structure ProviderHistory.Sound (primitives : TokenPrimitives) (h : ProviderHistory) : Prop where
  held : ∀ id lease, h.authority.leases id = some lease → (id, lease) ∈ h.acquired ∧ id ∉ h.disposed
  drawn : ∀ id ∈ h.disposed, id ∈ h.acquired.map Prod.fst
  unique : ∀ id lease other, (id, lease) ∈ h.acquired → (id, other) ∈ h.acquired → lease = other
  signed : ∀ payload ∈ h.signed, ∃ call lease, IssuedUnder primitives h payload call lease

private theorem IssuedUnder.mono {after : ProviderHistory} {payload : Bytes} {call : IssueCall} {lease : LeaseState}
    (issues : IssuedUnder primitives h payload call lease) (issued : ∀ call ∈ h.issued, call ∈ after.issued)
    (acquired : ∀ pair ∈ h.acquired, pair ∈ after.acquired)
    (same : after.authority.providerInstanceId = h.authority.providerInstanceId)
    (key : after.authority.hmacKey = h.authority.hmacKey) : IssuedUnder primitives after payload call lease := by
  refine ⟨issued _ issues.issued, acquired _ issues.acquired, ?_, ?_⟩
  · rw [← issues.encoded, ProviderAuthorization.claims, ProviderAuthorization.claims, same]
  · rw [key]
    exact issues.token

variable {lease : ProviderCapabilityLease} {self : ProviderAuthorization} {ttlSeconds : Int}
  {binding : OneTimeOperationBinding}

private theorem consumeLocked_keeps {claims : TokenClaims} {digest : Bytes} {now : Int} :
    (self.consumeLocked claims digest now).1.leases = self.leases ∧
      (self.consumeLocked claims digest now).1.providerInstanceId = self.providerInstanceId ∧
      (self.consumeLocked claims digest now).1.hmacKey = self.hmacKey := by
  have admits : Admits self claims digest now (self.consumeLocked claims digest now) := consumeLocked_admits
  generalize self.consumeLocked claims digest now = after at admits
  cases admits <;> exact ⟨rfl, rfl, rfl⟩

private theorem consume_keeps (primitives : TokenPrimitives) (self : ProviderAuthorization) (token : String)
    (expected : OneTimeOperationBinding) (now : Int) :
    (self.consumeForOperationAt primitives token expected now).1.leases = self.leases ∧
      (self.consumeForOperationAt primitives token expected now).1.providerInstanceId = self.providerInstanceId ∧
      (self.consumeForOperationAt primitives token expected now).1.hmacKey = self.hmacKey := by
  unfold ProviderAuthorization.consumeForOperationAt
  split
  · exact ⟨rfl, rfl, rfl⟩
  · exact consumeLocked_keeps

private theorem acquire_sound {leaseId consumer storeId : String} {capabilities : List String}
    (sound : h.Sound primitives) (new : leaseId ∉ h.acquired.map Prod.fst) :
    (h.step primitives (.acquire leaseId consumer capabilities storeId ttlSeconds)).Sound primitives := by
  simp only [ProviderHistory.step]
  split
  · exact sound
  rename_i authority _ returned
  have is := acquireLeaseAt_ok returned
  simp only at is
  subst is
  refine ⟨fun id lease found => ?_, fun id listed => ?_, fun id lease other first second => ?_, fun payload listed => ?_⟩
  · dsimp only at found
    by_cases same : id = leaseId
    · subst same
      rw [Function.update_self, Option.some.injEq] at found
      subst found
      exact ⟨List.mem_append_right _ (List.mem_singleton_self _), fun gone => new (sound.drawn _ gone)⟩
    · rw [Function.update_of_ne same] at found
      obtain ⟨acquired, kept⟩ := sound.held id lease found
      exact ⟨List.mem_append_left _ acquired, kept⟩
  · rw [List.map_append]
    exact List.mem_append_left _ (sound.drawn id listed)
  · have known : ∀ {id lease}, (id, lease) ∈ h.acquired → id ≠ leaseId := by
      rintro id lease listed rfl
      exact new (List.mem_map.mpr ⟨_, listed, rfl⟩)
    rcases List.mem_append.mp first with first | first <;> rcases List.mem_append.mp second with second | second
    · exact sound.unique id lease other first second
    · cases List.mem_singleton.mp second
      exact absurd rfl (known first)
    · cases List.mem_singleton.mp first
      exact absurd rfl (known second)
    · cases List.mem_singleton.mp first
      cases List.mem_singleton.mp second
      rfl
  · obtain ⟨call, lease, issues⟩ := sound.signed payload listed
    exact ⟨call, lease, issues.mono (fun _ => id) (fun _ => List.mem_append_left _) rfl rfl⟩

private theorem dispose_sound (sound : h.Sound primitives) : (h.step primitives (.dispose lease)).Sound primitives := by
  simp only [ProviderHistory.step]
  split
  · exact sound
  rename_i authority returned
  obtain ⟨⟨parent, found⟩, rfl⟩ := disposeLease_ok returned
  refine ⟨fun id other held => ?_, fun id listed => ?_, sound.unique, fun payload listed => ?_⟩
  · dsimp only at held
    by_cases same : id = lease.leaseId
    · rw [same, Function.update_self] at held
      cases held
    · rw [Function.update_of_ne same] at held
      obtain ⟨acquired, kept⟩ := sound.held id other held
      refine ⟨acquired, fun listed => ?_⟩
      rcases List.mem_append.mp listed with before | now
      · exact kept before
      · exact same (List.mem_singleton.mp now)
  · rcases List.mem_append.mp listed with before | now
    · exact sound.drawn id before
    · rw [List.mem_singleton.mp now]
      exact List.mem_map.mpr ⟨_, (sound.held _ _ found).1, rfl⟩
  · obtain ⟨call, lease, issues⟩ := sound.signed payload listed
    exact ⟨call, lease, issues.mono (fun _ => id) (fun _ => id) rfl rfl⟩

private theorem issue_sound (sound : h.Sound primitives) :
    (h.step primitives (.issue lease binding ttlSeconds)).Sound primitives := by
  refine ⟨sound.held, sound.drawn, sound.unique, fun payload listed => ?_⟩
  rcases List.mem_append.mp listed with before | now
  · obtain ⟨call, parent, issues⟩ := sound.signed payload before
    exact ⟨call, parent, issues.mono (fun _ => List.mem_append_left _) (fun _ => id) rfl rfl⟩
  · obtain ⟨claims, granted, encoded⟩ := Option.bind_eq_some_iff.mp (Option.mem_toList.mp now)
    have granted : h.authority.grant primitives lease binding ttlSeconds h.clock = .ok claims := by
      cases result : h.authority.grant primitives lease binding ttlSeconds h.clock with
      | error e => rw [result] at granted; cases granted
      | ok made => rw [result] at granted; cases granted; rfl
    obtain ⟨parent, found, is⟩ := grant_ok granted
    let made : IssuedOneTimeAuthorization :=
      { token := primitives.tokenText h.authority.hmacKey payload, context := claims.context }
    have returned : h.authority.issueOneTimeWithContextAt primitives lease binding ttlSeconds h.clock = .ok made := by
      unfold ProviderAuthorization.issueOneTimeWithContextAt
      rw [granted]
      change (match primitives.canonical claims with | none => _ | some payload => _) = _
      rw [encoded]
    refine ⟨⟨lease, binding, ttlSeconds, h.clock, made⟩, parent, List.mem_append_right _ ?_, (sound.held _ _ found).1, ?_, ?_⟩
    · rw [returned]
      exact List.mem_singleton_self _
    · rw [← encoded, is]
      rfl
    · rfl

theorem ProviderHistory.Sound.step (sound : h.Sound primitives) (ideal : h.Ideal primitives event) :
    (h.step primitives event).Sound primitives := by
  cases event with
  | pass seconds =>
    refine ⟨sound.held, sound.drawn, sound.unique, fun payload listed => ?_⟩
    obtain ⟨call, lease, issues⟩ := sound.signed payload listed
    exact ⟨call, lease, issues.mono (fun _ => id) (fun _ => id) rfl rfl⟩
  | acquire leaseId consumer capabilities storeId ttlSeconds => exact acquire_sound sound ideal
  | dispose lease => exact dispose_sound sound
  | issue lease binding ttlSeconds => exact issue_sound sound
  | consume token expected =>
    obtain ⟨leases, same, key⟩ := consume_keeps primitives h.authority token expected h.clock
    refine ⟨fun id lease found => ?_, sound.drawn, sound.unique, fun payload listed => ?_⟩
    · rw [ProviderHistory.step, leases] at found
      exact sound.held id lease found
    · obtain ⟨call, lease, issues⟩ := sound.signed payload listed
      exact ⟨call, lease, issues.mono (fun _ => id) (fun _ => id) same key⟩

theorem ProviderHistory.sound_new {providerInstanceId : String} {hmacKey : Key32} {clock : Int} :
    (ProviderHistory.new providerInstanceId hmacKey clock).Sound primitives where
  held _ _ found := nomatch found
  drawn _ listed := nomatch listed
  unique _ _ _ listed := nomatch listed
  signed _ listed := nomatch listed

theorem ProviderHistory.meets_append {before later : List ProviderEvent} :
    h.Meets primitives (before ++ later) ↔ h.Meets primitives before ∧ (h.run primitives before).Meets primitives later := by
  induction before generalizing h with
  | nil => exact ⟨fun meets => ⟨trivial, meets⟩, fun meets => meets.2⟩
  | cons event rest ih => exact (and_congr_right (fun _ => ih)).trans and_assoc.symm

theorem ProviderHistory.Sound.run {events : List ProviderEvent} (sound : h.Sound primitives)
    (meets : h.Meets primitives events) : (h.run primitives events).Sound primitives := by
  induction events generalizing h with
  | nil => exact sound
  | cons event rest ih => exact ih (sound.step meets.1) meets.2

/-- The token was issued for this operation, under a lease that was acquired for it and is still in force. -/
structure Backed (h : ProviderHistory) (token : String) (expected : OneTimeOperationBinding)
    (context : IssuedAuthorizationContext) (call : IssueCall) (lease : LeaseState) : Prop where
  issued : call ∈ h.issued
  token : call.returned.token = token
  binding : call.binding = expected
  acquired : (call.lease.leaseId, lease) ∈ h.acquired
  capability : expected.capability ∈ lease.capabilities
  kept : call.lease.leaseId ∉ h.disposed
  inForce : h.clock < lease.expiresAt
  consumer : context.consumer = lease.consumer
  storeId : context.storeId = lease.storeId
  unexpired : h.clock < context.expiresAt
  attenuated : context.expiresAt ≤ min (call.now + call.ttlSeconds) lease.expiresAt

private theorem binding_eq (documented : primitives.Documented) {parent : LeaseState} {expected : OneTimeOperationBinding}
    {now : Int} (binds : self.Binds primitives (self.claims primitives lease parent binding ttlSeconds now) expected) :
    binding = expected := by
  obtain ⟨-, -, capability, identityId, operation, kid, requestId, recipient, digest⟩ := binds
  have key := documented.apart recipient
  cases binding
  cases expected
  simp only [ProviderAuthorization.claims] at *
  subst capability identityId operation kid requestId key digest
  rfl

/-- In every run, a token that is consumed was issued for the same operation under a lease that is still in force. -/
theorem consumed_tokens_backed (documented : primitives.Documented) {providerInstanceId : String} {hmacKey : Key32}
    {start : Int} {before later : List ProviderEvent} {token : String} {expected : OneTimeOperationBinding}
    {context : IssuedAuthorizationContext}
    (meets : (ProviderHistory.new providerInstanceId hmacKey start).Meets primitives (before ++ .consume token expected :: later)) :
    let h := (ProviderHistory.new providerInstanceId hmacKey start).run primitives before
    (h.authority.consumeForOperationAt primitives token expected h.clock).2 = .ok context →
      ∃ call lease, Backed h token expected context call lease := by
  intro h accepted
  obtain ⟨earlier, ideal, -⟩ := ProviderHistory.meets_append.mp meets
  have sound : h.Sound primitives := ProviderHistory.sound_new.run earlier
  change h.Ideal primitives (.consume token expected) at ideal
  clear_value h
  unfold ProviderAuthorization.consumeForOperationAt at accepted
  split at accepted
  · cases accepted
  rename_i claims checked
  obtain ⟨⟨payload, decoded, parsed⟩, binds, unexpired⟩ := checkToken_ok checked
  obtain ⟨call, lease, issues⟩ := sound.signed payload (ideal _ decoded rfl)
  have same := documented.readBack _ _ issues.encoded
  rw [parsed, Option.some.injEq] at same
  have admits : Admits h.authority claims (primitives.sha256 token) h.clock _ := consumeLocked_admits
  generalize h.authority.consumeLocked claims (primitives.sha256 token) h.clock = outcome at admits accepted
  cases admits with
  | denied | consumed => cases accepted
  | @accepted parent covers _ =>
    cases accepted
    subst same
    obtain ⟨acquired, kept⟩ := sound.held _ _ covers.found
    -- the lease that is held now is the one that the token was issued under: its id stands for no other
    have one : lease = parent := sound.unique _ _ _ issues.acquired acquired
    subst one
    have equal := binding_eq documented binds
    refine ⟨call, lease, issues.issued, ?_, equal, issues.acquired, equal ▸ covers.capability, kept, covers.unexpired,
      covers.consumer.symm, covers.storeId.symm, unexpired, le_rfl⟩
    rw [issues.token, decodeToken_text documented decoded]
    rfl

end

namespace Plain

/-- A byte as a character beyond those of plain text. -/
def letter (byte : UInt8) : Char := Char.ofNat (byte.toNat + 256)

def readLetter (c : Char) : Option UInt8 :=
  if 256 ≤ c.toNat ∧ c.toNat < 512 then some (UInt8.ofNat (c.toNat - 256)) else none

def spell (bytes : Bytes) : String := String.ofList (bytes.map letter)

def operation (requestId : String) : OneTimeOperationBinding where
  capability := "IDENTITY_ECDH_SEALED"
  identityId := "i0"
  operation := "ecdh_sealed"
  kid := some "did:wba:a#e"
  requestId := requestId
  recipientPublicKey := key 1
  operationInputDigest := "sha256:1"

def tokenClaims (requestId : String) (expiresAt : Int) : TokenClaims where
  version := tokenVersion
  providerInstanceId := "p"
  parentLeaseId := "l"
  consumer := "c"
  capability := "IDENTITY_ECDH_SEALED"
  storeId := "s"
  identityId := "i0"
  operation := "ecdh_sealed"
  kid := some "did:wba:a#e"
  requestId := requestId
  recipientPublicKeyDigest := spell (key 1).val
  operationInputDigest := "sha256:1"
  expiresAt := expiresAt

/-- The claims that have an encoding: their position in this list. -/
def knownClaims : List TokenClaims := [tokenClaims "1" 1010, tokenClaims "2" 1060]

def primitives : TokenPrimitives where
  encode := spell
  decode := fun text => text.toList.mapM readLetter
  canonical := fun claims => (knownClaims.findIdx? (· == claims)).map (fun i => [UInt8.ofNat i])
  parse := fun bytes => bytes.head?.bind (fun byte => knownClaims[byte.toNat]?)
  hmac := fun hmacKey payload => hmacKey.val ++ payload
  sha256 := fun text => text.toByteArray.data.toList
  recipientPublicKeyDigest := fun recipient => spell recipient.val

theorem toNat_letter (byte : UInt8) : (letter byte).toNat = byte.toNat + 256 := by
  have small := byte.toNat_lt
  have valid : (byte.toNat + 256).isValidChar := .inl (by omega)
  rw [letter, Char.ofNat, dif_pos valid]
  rfl

theorem readLetter_some {c : Char} {byte : UInt8} (read : readLetter c = some byte) : c = letter byte := by
  unfold readLetter at read
  split at read
  · rw [Option.some.injEq] at read
    apply Char.toNat_inj.mp
    rw [toNat_letter, ← read, UInt8.toNat_ofNat']
    omega
  · cases read

theorem letter_injective : Function.Injective letter := by
  intro a b same
  have equal := congrArg Char.toNat same
  rw [toNat_letter, toNat_letter] at equal
  exact UInt8.toNat_inj.mp (by omega)

private theorem spell_reads {chars : List Char} {bytes : Bytes} (read : chars.mapM readLetter = some bytes) :
    chars = bytes.map letter := by
  induction chars generalizing bytes with
  | nil =>
    cases read
    rfl
  | cons c rest ih =>
    simp only [List.mapM_cons, Option.bind_eq_bind, Option.bind_eq_some_iff, Option.pure_def, Option.some.injEq] at read
    obtain ⟨byte, first, bytes, more, rfl⟩ := read
    rw [List.map_cons, readLetter_some first, ih more]

theorem documented : primitives.Documented where
  strict text bytes decoded := by
    apply String.toList_inj.mp
    rw [spell_reads decoded]
    exact String.toList_ofList.symm
  readBack claims bytes encoded := by
    obtain ⟨i, found, rfl⟩ := Option.map_eq_some_iff.mp encoded
    obtain ⟨inside, same, -⟩ := List.findIdx?_eq_some_iff_getElem.mp found
    have short : i < 2 := inside
    have small : (UInt8.ofNat i).toNat = i := by
      rw [UInt8.toNat_ofNat']
      omega
    change knownClaims[(UInt8.ofNat i).toNat]? = some claims
    rw [small, List.getElem?_eq_getElem inside, beq_iff_eq.mp same]
  apart a b same := by
    have letters := String.ofList_injective same
    exact Subtype.ext (List.map_injective_iff.mpr letter_injective letters)

def lease : ProviderCapabilityLease := ⟨"p", "l"⟩

/-- The token for the claims at this position of the list. -/
def tokenFor (position : UInt8) : String := primitives.tokenText (key 9) [position]

/-- A lease is acquired and a token is issued under it. -/
def issuance : List ProviderEvent :=
  [.acquire "l" "c" ["IDENTITY_ECDH_SEALED"] "s" 600, .issue lease (operation "1") 10, .pass 9]

end Plain

/-- A token is consumed a second before it expires, after a tag of the wrong key was refused. -/
theorem consumed_tokens_backed_issuance :
    let start := ProviderHistory.new "p" (Plain.key 9) 1000
    let before := Plain.issuance ++ [.consume (Plain.primitives.tokenText (Plain.key 8) [0]) (Plain.operation "1")]
    let h := start.run Plain.primitives before
    start.Meets Plain.primitives (before ++ [.consume (Plain.tokenFor 0) (Plain.operation "1")]) ∧
      (h.authority.consumeForOperationAt Plain.primitives (Plain.tokenFor 0) (Plain.operation "1") h.clock).2 =
        .ok (Plain.tokenClaims "1" 1010).context ∧
      ∃ call lease, Backed h (Plain.tokenFor 0) (Plain.operation "1") (Plain.tokenClaims "1" 1010).context call lease := by
  intro start before h
  have meets : start.Meets Plain.primitives (before ++ [.consume (Plain.tokenFor 0) (Plain.operation "1")]) := by
    decide +kernel
  have accepted : (h.authority.consumeForOperationAt Plain.primitives (Plain.tokenFor 0) (Plain.operation "1") h.clock).2 =
      .ok (Plain.tokenClaims "1" 1010).context := by
    decide +kernel
  exact ⟨meets, accepted, consumed_tokens_backed Plain.documented meets accepted⟩

end AnpIdentity
