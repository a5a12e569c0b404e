import AnpIdentity.Encoding.Strings
import AnpIdentity.Signing

/-! `facade/signing.rs`: signatures for a declared purpose. A purpose selects the role of the key, and a signature for an
application is made over its domain and the payload. -/

namespace AnpIdentity
open Encoding Text

inductive KeyAlgorithm where
  | ed25519 | x25519
  deriving Repr, DecidableEq

inductive SigningPurpose where
  | authentication
  | deviceAssertion
  | applicationAssertion (domain : String)
  deriving Repr, DecidableEq

structure SignRequest where
  purpose : SigningPurpose
  key : KeySelector
  payload : Bytes
  deriving Repr, DecidableEq

structure Signature where
  kid : String
  algorithm : KeyAlgorithm
  bytes : Bytes
  deriving Repr, DecidableEq

def applicationAssertionHead : Bytes := ascii "anp.identity.application-assertion.v1\x00"
def maxDomainBytes : Nat := 256

def SigningPurpose.validateDomain (domain : String) : IdentityResult Unit :=
  if domain.isEmpty ∨ trim domain ≠ domain ∨ len domain > maxDomainBytes ∨ 0 ∈ utf8 domain then .error .invalidRequest
  else .ok ()

def purposeRole : SigningPurpose → IdentityResult KeyRole
  | .authentication => .ok .requestSigning
  | .deviceAssertion => .ok .deviceSigning
  | .applicationAssertion domain => do
    SigningPurpose.validateDomain domain
    .ok .e2eeSigning

/-- `(n as u16).to_be_bytes()`. -/
def beBytes16 (n : Nat) : Bytes := [UInt8.ofNat (n % 2 ^ 16 / 256), UInt8.ofNat (n % 256)]

def payloadForPurpose (purpose : SigningPurpose) (payload : Bytes) : IdentityResult Bytes :=
  match purpose with
  | .authentication | .deviceAssertion => .ok payload
  | .applicationAssertion domain => do
    SigningPurpose.validateDomain domain
    .ok (applicationAssertionHead ++ beBytes16 (utf8 domain).length ++ utf8 domain ++ payload)

section
variable (anp : Anp) (proofs : Proofs) (self : DidIdentity)

def relationshipAuthorizes (metadata : KeyMetadata) : KeyRole → Bool
  | .requestSigning => anp.isAuthenticationAuthorized self.record.document metadata.kid
  | .deviceSigning | .e2eeSigning => anp.isAssertionMethodAuthorized self.record.document metadata.kid
  | .rootControl | .e2eeAgreement => false

def requireRole (metadata : KeyMetadata) (role : KeyRole) : IdentityResult Unit :=
  if metadata.role ≠ role then .error .keyPurposeViolation else .ok ()

def requireRelationship (metadata : KeyMetadata) (role : KeyRole) : IdentityResult Unit :=
  if !relationshipAuthorizes anp self metadata role then .error .keyPurposeViolation else .ok ()

/-- The named key if it may be used in this role, or the only key that may. -/
def selectKey (selector : KeySelector) (role : KeyRole) : IdentityResult KeyMetadata :=
  selector.select self (fun metadata => do
    requireRole metadata role
    requireRelationship anp self metadata role
    if metadata.origin ≠ .managed ∨ metadata.state ≠ .active ∨ metadata.materialErased then .error .keyUnavailable else .ok ())

/-- `ManagedIdentity::sign`. -/
def DidIdentity.signForPurpose (s t : Store) (request : SignRequest) : IdentityResult Signature := do
  let role ← purposeRole request.purpose
  let payload ← payloadForPurpose request.purpose request.payload
  let metadata ← selectKey anp self request.key role
  let bytes ← facade (self.sign anp proofs s t metadata.kid payload)
  .ok { kid := metadata.kid, algorithm := .ed25519, bytes }

end

/-! ## What a signature is made over -/

section
variable {anp : Anp} {proofs : Proofs} {self : DidIdentity} {s t : Store}

/-- A domain that applications may use. -/
abbrev ValidDomain := { domain : String // SigningPurpose.validateDomain domain = .ok () }

theorem validateDomain_length {domain : String} (valid : SigningPurpose.validateDomain domain = .ok ()) :
    (utf8 domain).length ≤ maxDomainBytes := by
  unfold SigningPurpose.validateDomain at valid
  split at valid
  · cases valid
  · rename_i passed
    simp only [not_or, Nat.not_lt] at passed
    rw [utf8_length]
    exact passed.2.2.1

private theorem beBytes16_injective {m n : Nat} (small : m ≤ maxDomainBytes) (other : n ≤ maxDomainBytes)
    (same : beBytes16 m = beBytes16 n) : m = n := by
  unfold beBytes16 at same
  unfold maxDomainBytes at small other
  simp only [List.cons.injEq, and_true] at same
  have high := congrArg UInt8.toNat same.1
  have low := congrArg UInt8.toNat same.2
  simp only [UInt8.toNat_ofNat'] at high low
  omega

/-- The domain can be read off the bytes that are signed for it, and the payload is the rest. -/
theorem assertion_unambiguous :
    Unambiguous (fun domain : ValidDomain => applicationAssertionHead ++ beBytes16 (utf8 domain.val).length ++ utf8 domain.val) := by
  rintro ⟨a, first⟩ ⟨b, second⟩ x y same
  simp only [List.append_assoc] at same
  have rest := List.append_cancel_left same
  obtain ⟨count, rest⟩ := List.append_inj rest rfl
  have length := beBytes16_injective (validateDomain_length first) (validateDomain_length second) count
  obtain ⟨domain, payload⟩ := List.append_inj rest length
  obtain rfl := utf8_injective domain
  exact ⟨rfl, payload⟩

theorem payloadForPurpose_injective {a b : SigningPurpose} {x y message : Bytes} {role : KeyRole}
    (first : purposeRole a = .ok role) (second : purposeRole b = .ok role) (signs : payloadForPurpose a x = .ok message)
    (again : payloadForPurpose b y = .ok message) : a = b ∧ x = y := by
  cases a with
  | authentication =>
    cases first
    cases b with
    | authentication => exact ⟨rfl, by cases signs; cases again; rfl⟩
    | deviceAssertion => cases second
    | applicationAssertion domain =>
      obtain ⟨_, -, ⟨⟩⟩ := except_bind_ok.mp second
  | deviceAssertion =>
    cases first
    cases b with
    | authentication => cases second
    | deviceAssertion => exact ⟨rfl, by cases signs; cases again; rfl⟩
    | applicationAssertion domain =>
      obtain ⟨_, -, ⟨⟩⟩ := except_bind_ok.mp second
  | applicationAssertion domain =>
    obtain ⟨⟨⟩, valid, same⟩ := except_bind_ok.mp first
    cases same
    cases b with
    | authentication | deviceAssertion => cases second
    | applicationAssertion other =>
      obtain ⟨⟨⟩, allowed, -⟩ := except_bind_ok.mp second
      obtain ⟨_, -, made⟩ := except_bind_ok.mp signs
      obtain ⟨_, -, remade⟩ := except_bind_ok.mp again
      cases made
      injection remade with same
      obtain ⟨is, rest⟩ := assertion_unambiguous ⟨other, allowed⟩ ⟨domain, valid⟩ y x same
      cases is
      exact ⟨rfl, rest.symm⟩

variable {selector : KeySelector} {metadata : KeyMetadata}

theorem KeySelector.select_ok {check : KeyMetadata → IdentityResult Unit}
    (selected : selector.select self check = .ok metadata) : metadata ∈ self.record.keys ∧ check metadata = .ok () := by
  cases selector with
  | kid requested =>
    simp only [KeySelector.select, DidIdentity.keyMetadata, except_bind_ok, facade_ok, okOr_ok] at selected
    obtain ⟨found, ⟨kid, -, first⟩, ⟨⟩, passed, same⟩ := selected
    cases same
    exact ⟨List.mem_of_find?_eq_some first, passed⟩
  | default =>
    simp only [KeySelector.select] at selected
    split at selected
    · cases selected
    · rename_i single
      cases selected
      have listed : metadata ∈ self.record.keys.filter (fun metadata => (check metadata).isOk) := by
        rw [single]
        exact List.mem_singleton_self metadata
      obtain ⟨inside, passed⟩ := List.mem_filter.mp listed
      refine ⟨inside, ?_⟩
      cases outcome : check metadata with
      | ok => rfl
      | error e =>
        rw [outcome] at passed
        cases passed
    · cases selected

/-- A key that may be used in this role. -/
structure Eligible (anp : Anp) (identity : DidIdentity) (role : KeyRole) (metadata : KeyMetadata) : Prop where
  plays : metadata.role = role
  authorized : relationshipAuthorizes anp identity metadata role = true
  managed : metadata.origin = .managed
  active : metadata.state = .active
  kept : metadata.materialErased = false

theorem selectKey_ok {role : KeyRole} (selected : selectKey anp self selector role = .ok metadata) :
    metadata ∈ self.record.keys ∧ Eligible anp self role metadata := by
  obtain ⟨inside, passed⟩ := KeySelector.select_ok selected
  refine ⟨inside, ?_⟩
  simp only [except_bind_ok] at passed
  obtain ⟨⟨⟩, first, ⟨⟩, second, third⟩ := passed
  unfold requireRole at first
  unfold requireRelationship at second
  split at first
  · cases first
  split at second
  · cases second
  split at third
  · cases third
  rename_i is authorized usable
  simp only [not_or, ne_eq, not_not, Bool.not_eq_true, Bool.not_eq_false'] at is authorized usable
  exact ⟨is, authorized, usable.1, usable.2.1, usable.2.2⟩

theorem signForPurpose_ok {request : SignRequest} {signature : Signature}
    (signs : self.signForPurpose anp proofs s t request = .ok signature) :
    ∃ role payload metadata, purposeRole request.purpose = .ok role ∧
      payloadForPurpose request.purpose request.payload = .ok payload ∧
      selectKey anp self request.key role = .ok metadata ∧ self.sign anp proofs s t metadata.kid payload = .ok signature.bytes ∧
      signature.kid = metadata.kid := by
  simp only [DidIdentity.signForPurpose, except_bind_ok, facade_ok] at signs
  obtain ⟨role, purpose, payload, message, metadata, selected, bytes, signed, same⟩ := signs
  cases same
  exact ⟨role, payload, metadata, purpose, message, selected, signed, rfl⟩

end

namespace Plain

/-- A Web identity with two request-signing keys and a key that signs for applications. -/
def assertingSpec : DidCreateSpec :=
  { webSpec with managedKeys := [{ fragment := "k", role := .requestSigning }, { fragment := "l", role := .requestSigning },
                                 { fragment := "m", role := .e2eeSigning }] }

def asserting : List Event := [.openStore none, .store 0 (.createIdentity assertingSpec) (entropy "0" 1) none]

def named : SignRequest := { purpose := .applicationAssertion "shop.example", key := .kid "m", payload := [1] }
def unnamed : SignRequest := { named with key := .default }

end Plain

end AnpIdentity
