import Mathlib.Data.String.Basic
import AnpIdentity.Json

/-! The crate's errors, enumerations and the small types its records are made of. -/

namespace AnpIdentity

abbrev Bytes := List UInt8

/-- Errors of the crate. -/
inductive DidError where
  | invalidDomain | emptyPath | invalidPathSegment | invalidKidFragment | invalidManagedRootCount
  | externalRootControl | missingManagedRequestSigning | foreignKid | duplicateKid | invalidPublicKey
  | invalidService | invalidExtension | storeNotFound | providerUnavailable | rootKeyMismatch | corruptRecord
  | secretNotFound | identityNotFound | duplicateIdentity | keyNotFound | externalKeyOperation | keyRoleViolation
  | keyNotUsable | keyMaterialErased | invalidRootTransfer | rootTransferExpired | rootCapabilityUnavailable
  | pendingRootTransferExists | invalidPeerKey | verificationFailed | pendingRevisionExists
  | pendingRevisionNotFound | invalidPublicationState | invalidIdentity | conflict | io (message : String)
  | serialization (message : String) | crypto | unsupportedOperation
  deriving Repr, DecidableEq

abbrev DidResult := Except DidError

/-- What a key is for. -/
inductive KeyRole where
  | rootControl | deviceSigning | requestSigning | e2eeSigning | e2eeAgreement
  deriving Repr, DecidableEq

/-- Whether the crate holds the private key. -/
inductive KeyOrigin where
  | managed | external
  deriving Repr, DecidableEq

/-- The life of a key. -/
inductive KeyState where
  | pending | active | retired | revoked
  deriving Repr, DecidableEq

/-- The life of an identity. -/
inductive IdentityState where
  | creating | enrolling | active | revoked
  deriving Repr, DecidableEq

/-- Whether the identity holds its root key. -/
inductive RootCapabilityState where
  | absent | pending | active
  deriving Repr, DecidableEq

/-- The DID methods of the crate. -/
inductive DidProfile where
  | e1 | web
  deriving Repr, DecidableEq

/-- Only E1 identities have a root key. -/
def DidProfile.supportsRootControl (profile : DidProfile) : Bool := profile == .e1

structure Capabilities where
  didWba : Bool := false
  deriving Repr, DecidableEq

/-- The name of a secret in the key store. -/
structure SecretRef where
  identityId : String
  keyId : String
  role : KeyRole
  version : Nat
  deriving Repr, DecidableEq

/-- A public key as a document gives it. -/
inductive PublicKeyMaterial where
  | ed25519 (bytes : Bytes)
  | x25519 (bytes : Bytes)
  | other (curve : String) (bytes : Bytes)
  deriving Repr, DecidableEq

/-- `public_keys_equal`: only the two managed curves are ever equal. -/
def publicKeysEqual : PublicKeyMaterial → PublicKeyMaterial → Bool
  | .ed25519 left, .ed25519 right => left == right
  | .x25519 left, .x25519 right => left == right
  | _, _ => false

/-- The last version of the document that was accepted. -/
structure DocumentCheckpoint where
  documentVersion : Nat
  registryVersion : Nat
  documentDigest : String
  deriving Repr, DecidableEq

/-- The version and digest that the caller has verified. -/
structure VerifiedDocumentEvidence where
  documentVersion : Nat
  registryVersion : Nat
  documentDigest : String
  deriving Repr, DecidableEq

/-- A device of the identity and its two keys. -/
structure DeviceManifestEntry where
  deviceId : String
  signingKeyId : String
  e2eeKeyId : String
  profiles : List String
  deriving Repr, DecidableEq

structure DeviceManifest where
  manifestType : String
  devices : List DeviceManifestEntry
  deriving Repr, DecidableEq

/-- `if condition { return Err(error) }`. -/
def reject (condition : Prop) [Decidable condition] (error : DidError) : DidResult Unit :=
  if condition then .error error else .ok ()

variable {error : DidError} {α : Type}

@[simp] theorem reject_ok {condition : Prop} [Decidable condition] {u : Unit} :
    reject condition error = .ok u ↔ ¬ condition := by
  unfold reject
  split <;> simp_all

/-- `Option::ok_or`. -/
def okOr {α : Type} (value : Option α) (error : DidError) : DidResult α :=
  match value with
  | some a => .ok a
  | none => .error error

@[simp] theorem okOr_ok {value : Option α} {a : α} : okOr value error = .ok a ↔ value = some a := by
  cases value <;> simp [okOr]

/-- `Result::map_err(|_| error)` on a call outside the crate. -/
def mapErr {ε α : Type} (result : Except ε α) (error : DidError) : DidResult α :=
  match result with
  | .ok a => .ok a
  | .error _ => .error error

@[simp] theorem mapErr_ok {ε : Type} {result : Except ε α} {a : α} : mapErr result error = .ok a ↔ result = .ok a := by
  cases result <;> simp [mapErr]

/-- `checked_add(1).ok_or(DidError::Conflict)` on a 64-bit counter. -/
def checkedSucc (counter : Nat) : DidResult Nat := if counter + 1 < 2 ^ 64 then .ok (counter + 1) else .error .conflict

theorem checkedSucc_room {counter : Nat} (room : counter + 1 < 2 ^ 64) : checkedSucc counter = .ok (counter + 1) :=
  if_pos room

@[simp] theorem checkedSucc_ok {counter next : Nat} :
    checkedSucc counter = .ok next ↔ counter + 1 < 2 ^ 64 ∧ next = counter + 1 := by
  unfold checkedSucc
  split <;> simp_all [eq_comm]

/-- Peels one step of a computation that may fail. -/
theorem except_bind_ok {ε β : Type} {x : Except ε α} {f : α → Except ε β} {b : β} :
    (x >>= f) = .ok b ↔ ∃ a, x = .ok a ∧ f a = .ok b := by
  cases x with
  | error e | ok a => simp [bind, Except.bind]

/-- Every element of a list that was made element by element comes from an element of the source. -/
theorem mapM_ok {ε β : Type} {f : α → Except ε β} {source : List α} {made : List β} (returned : source.mapM f = .ok made) :
    ∀ b ∈ made, ∃ a ∈ source, f a = .ok b := by
  induction source generalizing made with
  | nil =>
    cases returned
    intro b inside
    cases inside
  | cons first rest ih =>
    rw [List.mapM_cons] at returned
    obtain ⟨head, one, returned⟩ := except_bind_ok.mp returned
    obtain ⟨tail, more, returned⟩ := except_bind_ok.mp returned
    cases returned
    intro b inside
    rcases List.mem_cons.mp inside with rfl | later
    · exact ⟨first, List.mem_cons_self, one⟩
    · obtain ⟨a, member, same⟩ := ih more b later
      exact ⟨a, List.mem_cons_of_mem _ member, same⟩

/-- Every element of the source was made into an element of the list. -/
theorem mapM_made {ε β : Type} {f : α → Except ε β} {source : List α} {made : List β} (returned : source.mapM f = .ok made) :
    ∀ a ∈ source, ∃ b ∈ made, f a = .ok b := by
  induction source generalizing made with
  | nil => exact fun a inside => absurd inside List.not_mem_nil
  | cons first rest ih =>
    rw [List.mapM_cons] at returned
    obtain ⟨head, one, returned⟩ := except_bind_ok.mp returned
    obtain ⟨tail, more, returned⟩ := except_bind_ok.mp returned
    cases returned
    intro a inside
    rcases List.mem_cons.mp inside with rfl | later
    · exact ⟨head, List.mem_cons_self, one⟩
    · obtain ⟨b, member, same⟩ := ih more a later
      exact ⟨b, List.mem_cons_of_mem _ member, same⟩

end AnpIdentity
