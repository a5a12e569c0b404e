import AnpIdentity.Session

/-! `crypto_ops.rs` and the root export of `root_transfer.rs`: the operations that use a private key. None of them
takes the lock of the store, so another process may write between the read of the identity file and the read of the
secret: the first read sees the store `s`, the second one `t`. -/

namespace AnpIdentity
open Durable Program Text

/-- What the `anp` crate prepares for a signature, and how the signature completes it. -/
structure Prepared (α : Type) where
  signingInput : Bytes
  complete : Bytes → Except Unit α

structure Rfc9421OriginProofGenerationOptions where
  created : Option Int
  expires : Option Int
  nonce : Option String
  label : Option String
  deriving Repr, DecidableEq

structure Rfc9421OriginProof where
  contentDigest : String
  signatureInput : String
  signature : String
  deriving Repr, DecidableEq

structure HttpSignatureOptions where
  keyid : Option String
  nonce : Option String
  created : Option Int
  expires : Option Int
  coveredComponents : Option (List String)
  deriving Repr, DecidableEq

abbrev Headers := List (String × String)

/-- The signature scheme and the formats of proofs and headers, which the crate does not contain. -/
structure Proofs where
  sign : Key32 → Bytes → Bytes
  prepareObjectProof : Value → PublicKeyMaterial → String → String → Option String → Except Unit (Prepared Value)
  prepareRfc9421OriginProof : String → Value → Value → PublicKeyMaterial → String →
    Rfc9421OriginProofGenerationOptions → Except Unit (Prepared Rfc9421OriginProof)
  prepareHttpSignatureHeaders : Value → String → String → Option Headers → Option Bytes → HttpSignatureOptions →
    Except Unit (Prepared Headers)
  prepareLegacyDidWbaAuthHeader : Value → String → String → String → Except Unit (Prepared String)

/-- The errors of the engine as the facade reports them. -/
def facade {α : Type} (result : DidResult α) : IdentityResult α := result.mapError .ofDidError

@[simp] theorem facade_ok {α : Type} {result : DidResult α} {a : α} : facade result = .ok a ↔ result = .ok a := by
  cases result <;> simp [facade, Except.mapError]

/-- The key that a request asks for. -/
inductive KeySelector where
  | default
  | kid (kid : String)
  deriving Repr, DecidableEq

section
variable (anp : Anp) (proofs : Proofs)

/-- `ed25519_signing_key` and `x25519_private_key`. -/
def rawKey (secret : Bytes) : DidResult Key32 :=
  if length : secret.length = 32 then .ok ⟨secret, length⟩ else .error .invalidIdentity

/-- A managed key that waits for its activation. -/
def pendingKey (record : IdentityRecord) (kid : String) (role : KeyRole) (unusable : DidError) : DidResult KeyMetadata := do
  let metadata ← okOr (record.keys.find? (·.kid == kid)) .keyNotFound
  reject (metadata.role ≠ role ∨ metadata.origin ≠ .managed ∨ metadata.state ≠ .pending ∨ metadata.materialErased) unusable
  .ok metadata

namespace DidIdentity
variable (self : DidIdentity) (s t : Store)

/-- The handle shows the current record of an active identity. -/
def requireOperational : DidResult Unit := do
  let current ← s.readIdentity anp self.identityId
  reject (current.generation ≠ self.record.generation) .conflict
  reject (current.state ≠ .active) .keyNotUsable

/-- The current record of the enrollment. -/
def currentPendingEnrollment (enrollmentId : String) : DidResult IdentityRecord := do
  let current ← s.readIdentity anp self.identityId
  reject (current.generation ≠ self.record.generation) .conflict
  reject (current.state ≠ .enrolling ∨ (current.pendingEnrollment.map (·.enrollmentId)) ≠ some enrollmentId) .keyNotUsable
  .ok current

def loadManagedSecret (metadata : KeyMetadata) : DidResult Bytes := t.openSecret (self.record.secretRef metadata)

/-- Signs with a stored key. -/
def signPrepared (metadata : KeyMetadata) (message : Bytes) : DidResult Bytes := do
  let secret ← self.loadManagedSecret t metadata
  let signingKey ← rawKey secret
  .ok (proofs.sign signingKey message)

def signComplete {α : Type} (metadata : KeyMetadata) (prepared : Prepared α) : DidResult α := do
  let signature ← self.signPrepared proofs t metadata prepared.signingInput
  mapErr (prepared.complete signature) .crypto

/-- An active managed key of one of the roles. -/
def activeKey (kid : String) (roles : List KeyRole) : DidResult KeyMetadata := do
  let metadata ← self.managedKeyMetadata kid
  reject (metadata.state ≠ .active) .keyNotUsable
  reject (metadata.role ∉ roles) .keyRoleViolation
  .ok metadata

def operationalKey (kid : String) (roles : List KeyRole) : DidResult KeyMetadata := do
  self.requireOperational anp s
  self.activeKey kid roles

def requestSigningMetadata (kid : String) : DidResult KeyMetadata :=
  self.operationalKey anp s kid [.deviceSigning, .requestSigning]

def deviceSigningMetadata (kid : String) : DidResult KeyMetadata := self.operationalKey anp s kid [.deviceSigning]

/-- The public key that the cached document gives for a key. -/
def methodKey (kid : String) : DidResult PublicKeyMaterial := do
  let method ← okOr (anp.findVerificationMethod self.record.document kid) .invalidIdentity
  mapErr (anp.extractPublicKey method) .invalidPublicKey

/-- The shared secret with a peer. It must not be all zeros. -/
def sharedSecret (metadata : KeyMetadata) (peerPublic : Bytes) : DidResult Bytes := do
  reject (peerPublic.length ≠ 32) .invalidPeerKey
  let secret ← self.loadManagedSecret t metadata
  let privateKey ← rawKey secret
  let shared := anp.diffieHellman privateKey peerPublic
  reject (shared.all (· == 0)) .invalidPeerKey
  .ok shared

def signPendingRootObjectProof (kid : String) (document : Value) (issuerDid : String) (created : Option String) :
    DidResult Value := do
  let current ← s.readIdentity anp self.identityId
  reject (current.generation ≠ self.record.generation) .conflict
  reject (current.state ≠ .active ∨ current.rootCapability ≠ .pending ∨ current.pendingRootTransfer.isNone)
    .rootCapabilityUnavailable
  let kid ← canonicalizeKid current.did kid
  let metadata ← pendingKey current kid .rootControl .rootCapabilityUnavailable
  let publicKey ← self.methodKey anp metadata.kid
  let prepared ← mapErr (proofs.prepareObjectProof document publicKey metadata.kid issuerDid created) .crypto
  self.signComplete proofs t metadata prepared

def signPendingEnrollment (enrollmentId kid : String) (message : Bytes) : DidResult Bytes := do
  let record ← self.currentPendingEnrollment anp s enrollmentId
  let authorization ← okOr record.localAuthorization .invalidIdentity
  let kid ← canonicalizeKid record.did kid
  reject (kid ≠ authorization.signingKid) .keyRoleViolation
  let metadata ← pendingKey record kid .deviceSigning .keyNotUsable
  self.signPrepared proofs t metadata message

def ecdhPendingEnrollment (enrollmentId kid : String) (peerPublic : Bytes) : DidResult Bytes := do
  let record ← self.currentPendingEnrollment anp s enrollmentId
  let authorization ← okOr record.localAuthorization .invalidIdentity
  let kid ← canonicalizeKid record.did kid
  reject (kid ≠ authorization.e2eeKid) .keyRoleViolation
  let metadata ← pendingKey record kid .e2eeAgreement .keyNotUsable
  self.sharedSecret anp t metadata peerPublic

/-- Root and agreement keys do not sign messages. -/
def sign (kid : String) (message : Bytes) : DidResult Bytes := do
  let metadata ← self.operationalKey anp s kid [.deviceSigning, .requestSigning, .e2eeSigning]
  self.signPrepared proofs t metadata message

def signObjectProof (kid : String) (document : Value) (issuerDid : String) (created : Option String) : DidResult Value := do
  let metadata ← self.deviceSigningMetadata anp s kid
  let publicKey ← self.methodKey anp metadata.kid
  let prepared ← mapErr (proofs.prepareObjectProof document publicKey metadata.kid issuerDid created) .crypto
  self.signComplete proofs t metadata prepared

/-- Only the active root signs documents. -/
def signDocumentProof (document : Value) (verificationMethod : String) (options : ProofGenerationOptions) :
    DidResult Value := do
  self.requireOperational anp s
  reject (self.record.rootCapability ≠ .active) .rootCapabilityUnavailable
  let metadata ← self.activeKey verificationMethod [.rootControl]
  let publicKey ← self.methodKey anp metadata.kid
  let prepared ← mapErr (anp.prepareW3cProof document publicKey metadata.kid options) .crypto
  self.signComplete proofs t metadata ⟨prepared.signingInput, anp.completeW3cProof prepared⟩

def signOriginProof (method : String) (requestMeta body : Value) (kid : String) (options : Rfc9421OriginProofGenerationOptions) :
    DidResult Rfc9421OriginProof := do
  let metadata ← self.requestSigningMetadata anp s kid
  let publicKey ← self.methodKey anp metadata.kid
  let prepared ← mapErr (proofs.prepareRfc9421OriginProof method requestMeta body publicKey metadata.kid options) .crypto
  self.signComplete proofs t metadata prepared

def ecdh (kid : String) (peerPublic : Bytes) : DidResult Bytes := do
  let metadata ← self.operationalKey anp s kid [.e2eeAgreement]
  self.sharedSecret anp t metadata peerPublic

/-- Only E1 identities have this header. -/
def legacyDidWbaHeader (kid serviceDomain version : String) : DidResult String := do
  let profile ← DidProfile.forDid anp self.did
  reject (profile ≠ .e1) .unsupportedOperation
  let metadata ← self.requestSigningMetadata anp s kid
  let prepared ← mapErr (proofs.prepareLegacyDidWbaAuthHeader self.record.document serviceDomain version metadata.kid)
    .invalidIdentity
  self.signComplete proofs t metadata prepared

def httpSignatureHeadersWithOptions (kid requestUrl requestMethod : String) (headers : Option Headers)
    (body : Option Bytes) (options : HttpSignatureOptions) : DidResult Headers := do
  let metadata ← self.requestSigningMetadata anp s kid
  let prepared ← mapErr (proofs.prepareHttpSignatureHeaders self.record.document requestUrl requestMethod headers body
    { options with keyid := some metadata.kid }) .invalidIdentity
  self.signComplete proofs t metadata prepared

def ed25519Pkcs8Header : Bytes :=
  [0x30, 0x2e, 0x02, 0x01, 0x00, 0x30, 0x05, 0x06, 0x03, 0x2b, 0x65, 0x70, 0x04, 0x22, 0x04, 0x20]

/-- Unlike the operations above, the export decides on the cached record alone. -/
def exportRootPrivateKey (rootKid : String) : DidResult Bytes := do
  reject (self.record.state ≠ .active ∨ self.record.rootCapability ≠ .active) .rootCapabilityUnavailable
  let root ← self.managedKeyMetadata rootKid
  reject (root.role ≠ .rootControl ∨ root.state ≠ .active) .rootCapabilityUnavailable
  let secret ← self.loadManagedSecret t root
  reject (secret.length ≠ 32) .invalidIdentity
  .ok (ed25519Pkcs8Header ++ secret)

end DidIdentity

/-- The key that a request selects: the named one if it passes the checks, or the only one that does. -/
def KeySelector.select (self : DidIdentity) (check : KeyMetadata → IdentityResult Unit) :
    KeySelector → IdentityResult KeyMetadata
  | .kid requested => do
    let metadata ← facade (self.keyMetadata requested)
    check metadata
    .ok metadata
  | .default =>
    match self.record.keys.filter (fun metadata => (check metadata).isOk) with
    | [] => .error .keyUnavailable
    | [selected] => .ok selected
    | _ => .error .ambiguousKey

def selectRootKey (self : DidIdentity) (selector : KeySelector) : IdentityResult KeyMetadata :=
  selector.select self (fun metadata =>
    if metadata.role ≠ .rootControl then .error .keyPurposeViolation
    else if metadata.origin ≠ .managed ∨ metadata.state ≠ .active ∨ metadata.materialErased then .error .keyUnavailable
    else .ok ())

def DidIdentity.exportRootForLegacyEnvelope (self : DidIdentity) (t : Store) (key : KeySelector)
    (userPresenceConfirmed : Bool) : IdentityResult Bytes :=
  if !userPresenceConfirmed then .error .capabilityUnavailable
  else do
    let root ← selectRootKey self key
    facade (self.exportRootPrivateKey t root.kid)

/-- The operations that release a private key or something computed with one. -/
inductive SecretCall where
  | sign (kid : String) (message : Bytes)
  | signObjectProof (kid : String) (document : Value) (issuerDid : String) (created : Option String)
  | signDocumentProof (document : Value) (verificationMethod : String) (options : ProofGenerationOptions)
  | signOriginProof (method : String) (requestMeta body : Value) (kid : String) (options : Rfc9421OriginProofGenerationOptions)
  | httpSignatureHeadersWithOptions (kid requestUrl requestMethod : String) (headers : Option Headers)
      (body : Option Bytes) (options : HttpSignatureOptions)
  | legacyDidWbaHeader (kid serviceDomain version : String)
  | ecdh (kid : String) (peerPublic : Bytes)
  | signPendingEnrollment (enrollmentId kid : String) (message : Bytes)
  | ecdhPendingEnrollment (enrollmentId kid : String) (peerPublic : Bytes)
  | signPendingRootObjectProof (kid : String) (document : Value) (issuerDid : String) (created : Option String)
  | exportRootPrivateKey (rootKid : String)
  | exportRootForLegacyEnvelope (key : KeySelector) (userPresenceConfirmed : Bool)

/-- What an operation returns. -/
inductive Released where
  | bytes (bytes : Bytes)
  | document (document : Value)
  | originProof (proof : Rfc9421OriginProof)
  | headers (headers : Headers)
  | header (header : String)
  deriving Repr, DecidableEq

/-- `s` is the store that is checked, `t` the one that the key is read from. -/
def SecretCall.run (self : DidIdentity) (s t : Store) : SecretCall → IdentityResult Released
  | .sign kid message => facade ((self.sign anp proofs s t kid message).map .bytes)
  | .signObjectProof kid document issuerDid created =>
    facade ((self.signObjectProof anp proofs s t kid document issuerDid created).map .document)
  | .signDocumentProof document verificationMethod options =>
    facade ((self.signDocumentProof anp proofs s t document verificationMethod options).map .document)
  | .signOriginProof method requestMeta body kid options =>
    facade ((self.signOriginProof anp proofs s t method requestMeta body kid options).map .originProof)
  | .httpSignatureHeadersWithOptions kid requestUrl requestMethod headers body options =>
    facade ((self.httpSignatureHeadersWithOptions anp proofs s t kid requestUrl requestMethod headers body options).map
      .headers)
  | .legacyDidWbaHeader kid serviceDomain version =>
    facade ((self.legacyDidWbaHeader anp proofs s t kid serviceDomain version).map .header)
  | .ecdh kid peerPublic => facade ((self.ecdh anp s t kid peerPublic).map .bytes)
  | .signPendingEnrollment enrollmentId kid message =>
    facade ((self.signPendingEnrollment anp proofs s t enrollmentId kid message).map .bytes)
  | .ecdhPendingEnrollment enrollmentId kid peerPublic =>
    facade ((self.ecdhPendingEnrollment anp s t enrollmentId kid peerPublic).map .bytes)
  | .signPendingRootObjectProof kid document issuerDid created =>
    facade ((self.signPendingRootObjectProof anp proofs s t kid document issuerDid created).map .document)
  | .exportRootPrivateKey rootKid => facade ((self.exportRootPrivateKey t rootKid).map .bytes)
  | .exportRootForLegacyEnvelope key userPresenceConfirmed =>
    (self.exportRootForLegacyEnvelope t key userPresenceConfirmed).map .bytes

end

/-! ## Stale handles -/

/-- The operations that release the root key itself. -/
def SecretCall.exports : SecretCall → Bool
  | .exportRootPrivateKey _ | .exportRootForLegacyEnvelope _ _ => true
  | _ => false

/-- The state that an identity has to be in for the operation. -/
def SecretCall.state : SecretCall → IdentityState
  | .signPendingEnrollment .. | .ecdhPendingEnrollment .. => .enrolling
  | _ => .active

/-- The store as the operation first reads it. -/
def SecretCall.reads (call : SecretCall) (s t : Store) : Store := if call.exports then t else s

/-- The file of the identity has the generation of the handle and is in this state. -/
def DidIdentity.Stands (self : DidIdentity) (state : IdentityState) (s : Store) : Prop :=
  ∃ file ∈ s.identities self.identityId, file.generation = self.record.generation ∧ file.state = state

instance (self : DidIdentity) (state : IdentityState) (s : Store) : Decidable (self.Stands state s) :=
  inferInstanceAs (Decidable (∃ file ∈ s.identities self.identityId, _))

/-- The write replaces or removes the file of an identity. -/
def Write.Touches (id : String) : Write → Prop
  | .identity record => record.identityId = id
  | .removeIdentity gone => gone = id
  | _ => False

/-- No event has touched the file of the identity since one gave the handle its record. -/
def Latest (anp : Anp) (events : List Event) (i : Nat) (self : DidIdentity) : Prop :=
  ∃ before event after, events = before ++ event :: after ∧
    (World.initial.run anp before).identities[i]? ≠ some self ∧
    (World.initial.run anp (before ++ [event])).identities[i]? = some self ∧
    ∀ v ∈ (World.initial.run anp (before ++ [event])).trace anp after, ¬ v.Touches self.identityId

section
variable {anp : Anp} {proofs : Proofs} {self : DidIdentity} {s t : Store}

theorem map_ok {ε α β : Type} {f : α → β} {result : Except ε α} {b : β} :
    result.map f = .ok b ↔ ∃ a, result = .ok a ∧ f a = b := by
  cases result <;> simp [Except.map]

variable {record : IdentityRecord} {id : String} {events : List Event}

/-- An operation that reads the identity file compares it with the handle. -/
theorem stands_of_read {state : IdentityState} (read : s.readIdentity anp self.identityId = .ok record)
    (same : record.generation = self.record.generation) (is : record.state = state) : self.Stands state s := by
  obtain ⟨file, found, -, completed⟩ := readIdentity_ok.mp read
  have shown : Shown anp file record := .inr completed
  exact ⟨file, found, shown.mirrors.generation.symm.trans same, shown.mirrors.state.symm.trans is⟩

theorem requireOperational_stands (operational : self.requireOperational anp s = .ok ()) : self.Stands .active s := by
  simp only [DidIdentity.requireOperational, except_bind_ok, reject_ok, ne_eq, not_not] at operational
  obtain ⟨record, read, _, same, active⟩ := operational
  exact stands_of_read read same active

theorem operationalKey_stands {kid : String} {roles : List KeyRole} {metadata : KeyMetadata}
    (selected : self.operationalKey anp s kid roles = .ok metadata) : self.Stands .active s := by
  obtain ⟨_, operational, -⟩ := except_bind_ok.mp selected
  exact requireOperational_stands operational

theorem currentPendingEnrollment_stands {enrollmentId : String}
    (current : self.currentPendingEnrollment anp s enrollmentId = .ok record) : self.Stands .enrolling s := by
  simp only [DidIdentity.currentPendingEnrollment, except_bind_ok, reject_ok, ne_eq, not_not, not_or] at current
  obtain ⟨record, read, _, same, _, ⟨enrolling, -⟩, -⟩ := current
  exact stands_of_read read same enrolling

theorem signPendingRootObjectProof_stands {kid issuerDid : String} {document signed : Value} {created : Option String}
    (released : self.signPendingRootObjectProof anp proofs s t kid document issuerDid created = .ok signed) :
    self.Stands .active s := by
  simp only [DidIdentity.signPendingRootObjectProof, except_bind_ok, reject_ok, ne_eq, not_not, not_or] at released
  obtain ⟨record, read, _, same, _, ⟨active, -⟩, -⟩ := released
  exact stands_of_read read same active

/-- An operation that checks the store succeeds only for a handle that is not stale. -/
theorem SecretCall.checked {call : SecretCall} {released : Released} (checks : call.exports = false)
    (ok : call.run anp proofs self s t = .ok released) : self.Stands call.state s := by
  cases call with
  | exportRootPrivateKey | exportRootForLegacyEnvelope => cases checks
  | signPendingRootObjectProof =>
    obtain ⟨signed, ok, -⟩ := map_ok.mp (facade_ok.mp ok)
    exact signPendingRootObjectProof_stands ok
  | signPendingEnrollment | ecdhPendingEnrollment =>
    obtain ⟨_, ok, -⟩ := map_ok.mp (facade_ok.mp ok)
    obtain ⟨record, current, -⟩ := except_bind_ok.mp ok
    exact currentPendingEnrollment_stands current
  | signDocumentProof =>
    obtain ⟨_, ok, -⟩ := map_ok.mp (facade_ok.mp ok)
    obtain ⟨_, operational, -⟩ := except_bind_ok.mp ok
    exact requireOperational_stands operational
  | legacyDidWbaHeader =>
    obtain ⟨_, ok, -⟩ := map_ok.mp (facade_ok.mp ok)
    simp only [DidIdentity.legacyDidWbaHeader, except_bind_ok] at ok
    obtain ⟨_, -, _, -, metadata, selected, -⟩ := ok
    exact operationalKey_stands selected
  | sign | signObjectProof | signOriginProof | httpSignatureHeadersWithOptions | ecdh =>
    obtain ⟨_, ok, -⟩ := map_ok.mp (facade_ok.mp ok)
    obtain ⟨metadata, selected, -⟩ := except_bind_ok.mp ok
    exact operationalKey_stands selected

/-- The export succeeds for a handle whose cached record is active. -/
theorem exportRootPrivateKey_active {rootKid : String} {der : Bytes} (ok : self.exportRootPrivateKey t rootKid = .ok der) :
    self.record.state = .active := by
  simp only [DidIdentity.exportRootPrivateKey, except_bind_ok, reject_ok, ne_eq, not_not, not_or] at ok
  obtain ⟨_, ⟨active, -⟩, -⟩ := ok
  exact active

theorem SecretCall.exported {call : SecretCall} {released : Released} (exports : call.exports = true)
    (ok : call.run anp proofs self s t = .ok released) : call.state = .active ∧ self.record.state = .active := by
  cases call with
  | exportRootPrivateKey rootKid =>
    obtain ⟨der, ok, -⟩ := map_ok.mp (facade_ok.mp ok)
    exact ⟨rfl, exportRootPrivateKey_active ok⟩
  | exportRootForLegacyEnvelope key confirmed =>
    obtain ⟨der, ok, -⟩ := map_ok.mp ok
    unfold DidIdentity.exportRootForLegacyEnvelope at ok
    split at ok
    · cases ok
    · obtain ⟨root, -, ok⟩ := except_bind_ok.mp ok
      exact ⟨rfl, exportRootPrivateKey_active (facade_ok.mp ok)⟩
  | _ => cases exports

theorem untouched_apply {v : Write} (untouched : ¬ v.Touches id) :
    (Medium.apply s v).identities id = s.identities id := by
  cases v with
  | identity record => exact identities_put_ne s (Ne.symm untouched)
  | removeIdentity gone => exact identities_remove_ne s (Ne.symm untouched)
  | _ => rfl

theorem untouched_applyAll {ws : List Write} (untouched : ∀ v ∈ ws, ¬ v.Touches id) :
    (applyAll s ws).identities id = s.identities id := by
  induction ws generalizing s with
  | nil => rfl
  | cons v rest ih =>
    rw [applyAll_cons, ih (fun v listed => untouched v (List.mem_cons_of_mem _ listed)),
      untouched_apply (untouched v (List.mem_cons_self ..))]

theorem untouched_run {w : World} (untouched : ∀ v ∈ w.trace anp events, ¬ v.Touches id) :
    (w.run anp events).store.identities id = w.store.identities id := by
  induction events generalizing w with
  | nil => rfl
  | cons event rest ih =>
    have later : ∀ v ∈ (w.step anp event).trace anp rest, ¬ v.Touches id := fun v listed =>
      untouched v (List.mem_append_right _ listed)
    refine (ih later).trans ?_
    rw [World.identities_step, untouched_applyAll (fun v listed => untouched v (List.mem_append_left _ listed))]

theorem World.run_append {w : World} {later : List Event} :
    w.run anp (events ++ later) = (w.run anp events).run anp later := List.foldl_append ..

/-- The handle of a run that nothing has overtaken shows the file. -/
theorem Latest.stands {i : Nat} (latest : Latest anp events i self) :
    self.Stands self.record.state (World.initial.run anp events).store := by
  obtain ⟨before, event, after, rfl, other, held, untouched⟩ := latest
  rw [World.run_append] at held
  have steps : (World.initial.run anp before).Steps anp event ((World.initial.run anp before).step anp event) :=
    World.steps event
  obtain ⟨file, found, shown⟩ := ((steps.identities i self held).resolve_left other).shown
  refine ⟨file, ?_, shown.mirrors.generation.symm, shown.mirrors.state.symm⟩
  rw [List.append_cons, World.run_append, untouched_run untouched, World.run_append]
  exact found

end

/-- An operation that releases a private key, or something computed with one, reads a store in which the identity is
in the state that the operation asks for and has the generation of the handle. Between the read of the file and the
read of the secret other processes may go on. The exports do not look at the file: they are safe for a handle that no
write has overtaken. -/
theorem secrets_released_current {anp : Anp} {proofs : Proofs} {events later : List Event} {i : Nat} {self : DidIdentity}
    {call : SecretCall} {released : Released}
    (latest : call.exports = true → Latest anp (events ++ later) i self)
    (ok : call.run anp proofs self (World.initial.run anp events).store (World.initial.run anp (events ++ later)).store =
      .ok released) :
    self.Stands call.state
      (call.reads (World.initial.run anp events).store (World.initial.run anp (events ++ later)).store) := by
  cases exports : call.exports with
  | false =>
    rw [SecretCall.reads, exports]
    exact SecretCall.checked exports ok
  | true =>
    obtain ⟨needs, active⟩ := SecretCall.exported exports ok
    rw [SecretCall.reads, exports, needs, ← active]
    exact (latest exports).stands

namespace Plain

def proofs : Proofs where
  sign key message := key.val.take 2 ++ message
  prepareObjectProof document _ _ _ _ := .ok ⟨[], fun _ => .ok document⟩
  prepareRfc9421OriginProof method _ _ _ _ _ := .ok ⟨ascii method, fun signature => .ok ⟨"", "", text signature⟩⟩
  prepareHttpSignatureHeaders _ url _ _ _ _ := .ok ⟨ascii url, fun signature => .ok [("signature", text signature)]⟩
  prepareLegacyDidWbaAuthHeader _ domain _ _ := .ok ⟨ascii domain, fun signature => .ok (text signature)⟩

/-- The imported root is promoted. -/
def rootConfirmed : List Event :=
  rootImported ++ [.identity 0 (.confirmRootPromotion ⟨rootDocument [device], evidence 3 (rootDocument [device])⟩)
    (entropy "3" 1) none]

/-- A second handle adopts a document that no longer lists the device. -/
def deviceRevoked : List Event :=
  rootConfirmed ++ [.store 0 (.openIdentity "did:wba:a") (entropy "4" 1) none,
    .identity 1 (.adoptVerifiedDocument ⟨rootDocument [], evidence 4 (rootDocument [])⟩) (entropy "5" 1) none]

end Plain

theorem of_isOk {ε α : Type} {result : Except ε α} (ok : result.isOk = true) : ∃ a, result = .ok a := by
  cases result with
  | error e => cases ok
  | ok a => exact ⟨a, rfl⟩

/-- The handle that promoted the root exports it. -/
theorem secrets_released_current_promoted :
    let w := World.initial.run Plain.anp Plain.rootConfirmed
    ∃ self released, w.identities[0]? = some self ∧
      (SecretCall.exportRootPrivateKey "r").run Plain.anp Plain.proofs self w.store w.store = .ok released ∧
      self.Stands .active w.store := by
  intro w
  have run : ∃ self ∈ w.identities[0]?, (World.initial.run Plain.anp Plain.rootImported).identities[0]? ≠ some self ∧
      ((SecretCall.exportRootPrivateKey "r").run Plain.anp Plain.proofs self w.store w.store).isOk = true := by
    decide +kernel
  obtain ⟨self, held, other, exports⟩ := run
  obtain ⟨released, ok⟩ := of_isOk exports
  have latest : Latest Plain.anp (Plain.rootConfirmed ++ []) 0 self := by
    rw [List.append_nil]
    exact ⟨Plain.rootImported, _, [], rfl, other, held, fun v listed => (nomatch listed)⟩
  have current := @secrets_released_current Plain.anp Plain.proofs Plain.rootConfirmed [] 0 self
    (.exportRootPrivateKey "r") released (fun _ => latest)
  rw [List.append_nil] at current
  exact ⟨self, released, held, ok, current ok⟩

/-- A handle on a revoked identity still exports the root. -/
theorem revoked_root_exported :
    let w := World.initial.run Plain.anp Plain.deviceRevoked
    World.initial.Meets Plain.anp (fun _ _ => True) Plain.deviceRevoked ∧
    ∃ self ∈ w.identities[0]?,
      ((SecretCall.exportRootPrivateKey "r").run Plain.anp Plain.proofs self w.store w.store).isOk = true ∧
      ¬ self.Stands .active w.store := by
  decide +kernel

end AnpIdentity
