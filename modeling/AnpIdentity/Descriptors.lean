import AnpIdentity.Kids
import AnpIdentity.Purposes

/-! `facade/types.rs` and `facade/identity.rs`: the keys that an identity shows, with the purposes that it lists for each
of them, and which of these purposes a signature can be asked for. -/

namespace AnpIdentity
open Text

inductive KeyPurpose where
  | rootControl | authentication | deviceAssertion | applicationAssertion | keyAgreement
  deriving Repr, DecidableEq

structure PublicKeyDescriptor where
  kid : String
  algorithm : KeyAlgorithm
  purposes : List KeyPurpose
  deriving Repr, DecidableEq

def KeyRole.advertised : KeyRole → KeyAlgorithm × List KeyPurpose
  | .rootControl => (.ed25519, [.rootControl])
  | .deviceSigning => (.ed25519, [.authentication, .deviceAssertion])
  | .requestSigning => (.ed25519, [.authentication, .applicationAssertion])
  | .e2eeSigning => (.ed25519, [.applicationAssertion])
  | .e2eeAgreement => (.x25519, [.keyAgreement])

def PublicKeyDescriptor.fromMetadata (metadata : KeyMetadata) : Option PublicKeyDescriptor :=
  if metadata.state ≠ .active ∨ metadata.materialErased then none
  else some { kid := metadata.kid, algorithm := metadata.role.advertised.1, purposes := metadata.role.advertised.2 }

/-- The `active_keys` of a public identity. -/
def DidIdentity.activeKeys (self : DidIdentity) : List PublicKeyDescriptor :=
  self.record.keys.filterMap PublicKeyDescriptor.fromMetadata

/-- The word for a purpose in a descriptor. -/
def SigningPurpose.listedAs : SigningPurpose → KeyPurpose
  | .authentication => .authentication
  | .deviceAssertion => .deviceAssertion
  | .applicationAssertion _ => .applicationAssertion

section
variable {anp : Anp} {proofs : Proofs} {self : DidIdentity} {s : Store} {kid : String} {metadata key : KeyMetadata} {role : KeyRole}

/-- The handle shows the record of the store, and the identity is active. -/
structure DidIdentity.Operational (anp : Anp) (identity : DidIdentity) (s : Store) : Prop where
  read : s.readIdentity anp identity.identityId = .ok identity.record
  active : identity.record.state = .active

/-- The secrets of the managed keys that can be used are stored. -/
def DidIdentity.Supplied (self : DidIdentity) (s : Store) : Prop :=
  ∀ key ∈ self.record.keys, key.origin = .managed → key.state = .active → key.materialErased = false →
    ∃ raw : Key32, s.openSecret (self.record.secretRef key) = .ok raw.val

/-- A key that the identity holds and that can be used. -/
structure DidIdentity.Holds (identity : DidIdentity) (key : KeyMetadata) : Prop where
  listed : key ∈ identity.record.keys
  managed : key.origin = .managed
  active : key.state = .active
  kept : key.materialErased = false

private theorem operational_head (operational : self.Operational anp s) : self.did.toList.head? ≠ some '#' := by
  obtain ⟨file, -, -, completed⟩ := readIdentity_ok.mp operational.read
  obtain ⟨_, _, _, fingerprint, -, -, same⟩ := completeRecord_ok.mp completed
  obtain ⟨profile, known, -⟩ := except_bind_ok.mp fingerprint
  have did : self.did = file.did := by rw [DidIdentity.did, same]
  rw [did]
  have starts : startsWith file.did "did:wba:" = true ∨ startsWith file.did "did:web:" = true := by
    unfold DidProfile.forDid at known
    split at known
    · exact .inl ‹_›
    · split at known
      · rename_i web
        exact .inr (Bool.and_eq_true_iff.mp web).1
      · cases known
  have first : file.did.toList.head? = some 'd' := by
    rcases starts with wba | web
    · obtain ⟨rest, same⟩ := List.isPrefixOf_iff_prefix.mp wba
      rw [← same]
      rfl
    · obtain ⟨rest, same⟩ := List.isPrefixOf_iff_prefix.mp web
      rw [← same]
      rfl
  rw [first]
  decide

/-- A key that a kid leads to is found by its own kid too. -/
private theorem keyMetadata_again (operational : self.Operational anp s) (found : self.keyMetadata kid = .ok key) :
    self.keyMetadata key.kid = .ok key := by
  simp only [DidIdentity.keyMetadata, except_bind_ok, okOr_ok] at found ⊢
  obtain ⟨canonical, made, first⟩ := found
  have named : key.kid = canonical := by simpa using List.find?_some first
  rw [named]
  exact ⟨canonical, canonicalizeKid_again (operational_head operational) made, first⟩

theorem keyMetadata_mem (found : self.keyMetadata kid = .ok key) : key ∈ self.record.keys := by
  simp only [DidIdentity.keyMetadata, except_bind_ok, okOr_ok] at found
  obtain ⟨_, -, first⟩ := found
  exact List.mem_of_find?_eq_some first

private theorem sign_completes (proofs : Proofs) (operational : self.Operational anp s) (supplied : self.Supplied s)
    (message : Bytes) (found : self.keyMetadata kid = .ok key) (eligible : Eligible anp self role key)
    (signing : role ∈ [KeyRole.deviceSigning, .requestSigning, .e2eeSigning]) :
    ∃ bytes, self.sign anp proofs s s key.kid message = .ok bytes := by
  obtain ⟨raw, opened⟩ := supplied key (keyMetadata_mem found) eligible.managed eligible.active eligible.kept
  have again := keyMetadata_again operational found
  have required : self.requireOperational anp s = .ok () := by
    simp [DidIdentity.requireOperational, operational.read, operational.active, Bind.bind, Except.bind, reject]
  refine ⟨proofs.sign raw message, ?_⟩
  simp only [DidIdentity.sign, DidIdentity.operationalKey, DidIdentity.activeKey, DidIdentity.managedKeyMetadata,
    DidIdentity.signPrepared, DidIdentity.loadManagedSecret, except_bind_ok, reject_ok, ne_eq, not_not]
  refine ⟨key, ⟨(), required, key, ⟨key, again, (), by simp [eligible.managed], rfl⟩, (), eligible.active, (), ?_, rfl⟩, raw.val,
    opened, raw, ?_, rfl⟩
  · exact eligible.plays ▸ signing
  · rw [rawKey, dif_pos raw.property]

variable {purpose : SigningPurpose}

private theorem purposeRole_signing (plays : purposeRole purpose = .ok role) :
    role ∈ [KeyRole.deviceSigning, .requestSigning, .e2eeSigning] := by
  cases purpose with
  | authentication | deviceAssertion => cases plays; decide
  | applicationAssertion domain =>
    obtain ⟨_, -, same⟩ := except_bind_ok.mp plays
    cases same
    decide

private theorem payloadForPurpose_total (plays : purposeRole purpose = .ok role) (payload : Bytes) :
    ∃ message, payloadForPurpose purpose payload = .ok message := by
  cases purpose with
  | authentication | deviceAssertion => exact ⟨payload, rfl⟩
  | applicationAssertion domain =>
    obtain ⟨⟨⟩, valid, -⟩ := except_bind_ok.mp plays
    exact ⟨_, except_bind_ok.mpr ⟨(), valid, rfl⟩⟩

private theorem selectKey_kid (found : self.keyMetadata kid = .ok key) (eligible : Eligible anp self role key) :
    selectKey anp self (.kid kid) role = .ok key := by
  have usable : ¬ (key.origin ≠ .managed ∨ key.state ≠ .active ∨ key.materialErased = true) := by
    simp [eligible.managed, eligible.active, eligible.kept]
  simp only [selectKey, KeySelector.select, except_bind_ok, facade_ok]
  refine ⟨key, found, (), ⟨(), ?_, (), ?_, if_neg usable⟩, rfl⟩
  · rw [requireRole, if_neg (not_not.mpr eligible.plays)]
  · rw [requireRelationship, if_neg (by simp [eligible.authorized])]

/-- A signature by a kid succeeds exactly if the key that the kid leads to may be used for the purpose. -/
theorem signForPurpose_isOk (proofs : Proofs) (operational : self.Operational anp s) (supplied : self.Supplied s)
    (plays : purposeRole purpose = .ok role) (payload : Bytes) :
    (self.signForPurpose anp proofs s s { purpose, key := .kid kid, payload }).isOk = true ↔
      ∃ key, self.keyMetadata kid = .ok key ∧ Eligible anp self role key := by
  constructor
  · intro ok
    obtain ⟨signature, signs⟩ := of_isOk ok
    obtain ⟨role', _, key, plays', -, selected, -, -⟩ := signForPurpose_ok signs
    cases plays.symm.trans plays'
    refine ⟨key, ?_, (selectKey_ok selected).2⟩
    simp only [selectKey, KeySelector.select, except_bind_ok, facade_ok] at selected
    obtain ⟨found, first, -, -, same⟩ := selected
    cases same
    exact first
  · rintro ⟨key, found, eligible⟩
    obtain ⟨message, made⟩ := payloadForPurpose_total plays payload
    obtain ⟨bytes, signed⟩ := sign_completes proofs operational supplied message found eligible (purposeRole_signing plays)
    have signs : self.signForPurpose anp proofs s s { purpose, key := .kid kid, payload } =
        .ok { kid := key.kid, algorithm := .ed25519, bytes } := by
      simp only [DidIdentity.signForPurpose, except_bind_ok, facade_ok]
      exact ⟨role, plays, message, made, key, selectKey_kid found eligible, bytes, signed, rfl⟩
    rw [signs]
    rfl

/-- Every purpose that a descriptor of a managed key lists can be signed for with the kid of that key, and no other one. -/
def DidIdentity.AdvertisesUsable (anp : Anp) (proofs : Proofs) (self : DidIdentity) (s : Store) : Prop :=
  ∀ key ∈ self.record.keys, key.origin = .managed → ∀ descriptor, PublicKeyDescriptor.fromMetadata key = some descriptor →
    ∀ purpose role payload, purposeRole purpose = .ok role →
      (purpose.listedAs ∈ descriptor.purposes ↔
        (self.signForPurpose anp proofs s s { purpose, key := .kid descriptor.kid, payload }).isOk = true)

/-- The usable keys are none of a device and none that signs requests, and the end-to-end signing keys among them are those
that their kid leads to and that the document lists. -/
def DidIdentity.SignsEndToEnd (anp : Anp) (self : DidIdentity) : Prop :=
  ∀ key, self.Holds key → key.role ≠ .deviceSigning ∧ key.role ≠ .requestSigning ∧
    (key.role = .e2eeSigning ↔ ∃ selected, self.keyMetadata key.kid = .ok selected ∧ Eligible anp self .e2eeSigning selected)

private theorem holds_descriptor (holds : self.Holds key) : PublicKeyDescriptor.fromMetadata key =
    some { kid := key.kid, algorithm := key.role.advertised.1, purposes := key.role.advertised.2 } := by
  rw [PublicKeyDescriptor.fromMetadata, if_neg]
  simp [holds.active, holds.kept]

private theorem descriptor_holds {descriptor : PublicKeyDescriptor} (listed : key ∈ self.record.keys)
    (managed : key.origin = .managed) (shown : PublicKeyDescriptor.fromMetadata key = some descriptor) :
    self.Holds key ∧ descriptor.kid = key.kid ∧ descriptor.purposes = key.role.advertised.2 := by
  unfold PublicKeyDescriptor.fromMetadata at shown
  split at shown
  · cases shown
  · rename_i usable
    simp only [ne_eq, not_or, not_not, Bool.not_eq_true] at usable
    cases shown
    exact ⟨⟨listed, managed, usable.1, usable.2⟩, rfl, rfl⟩

theorem Eligible.holds (eligible : Eligible anp self role key) (found : self.keyMetadata kid = .ok key) : self.Holds key :=
  ⟨keyMetadata_mem found, eligible.managed, eligible.active, eligible.kept⟩

private theorem validDomain : purposeRole (.applicationAssertion "a") = .ok .e2eeSigning := by decide

/-- An identity lists the purposes that its keys can be used for exactly if it only has end-to-end signing keys, all of
them listed in its document. -/
theorem advertised_usable_iff (operational : self.Operational anp s) (supplied : self.Supplied s) :
    self.AdvertisesUsable anp proofs s ↔ self.SignsEndToEnd anp := by
  constructor
  · intro advertises key holds
    have usable (purpose : SigningPurpose) (role : KeyRole) (plays : purposeRole purpose = .ok role) :
        purpose.listedAs ∈ key.role.advertised.2 ↔ ∃ selected, self.keyMetadata key.kid = .ok selected ∧
          Eligible anp self role selected := by
      rw [← signForPurpose_isOk proofs operational supplied plays []]
      exact advertises key holds.listed holds.managed _ (holds_descriptor holds) purpose role [] plays
    have authentication := usable .authentication .requestSigning rfl
    have device := usable .deviceAssertion .deviceSigning rfl
    have application := usable (.applicationAssertion "a") .e2eeSigning validDomain
    have noDevice : key.role ≠ .deviceSigning := by
      intro is
      rw [is] at authentication device
      obtain ⟨one, found, eligible⟩ := authentication.mp (by decide)
      obtain ⟨other, again, eligible'⟩ := device.mp (by decide)
      cases found.symm.trans again
      cases eligible.plays.symm.trans eligible'.plays
    have noRequest : key.role ≠ .requestSigning := by
      intro is
      rw [is] at authentication application
      obtain ⟨one, found, eligible⟩ := authentication.mp (by decide)
      obtain ⟨other, again, eligible'⟩ := application.mp (by decide)
      cases found.symm.trans again
      cases eligible.plays.symm.trans eligible'.plays
    refine ⟨noDevice, noRequest, ?_⟩
    rw [← application]
    cases is : key.role with
    | requestSigning => exact absurd is noRequest
    | _ => decide
  · intro ends key listed managed descriptor shown purpose role payload plays
    obtain ⟨holds, kid, purposes⟩ := descriptor_holds listed managed shown
    obtain ⟨noDevice, noRequest, endToEnd⟩ := ends key holds
    rw [kid, purposes, signForPurpose_isOk proofs operational supplied plays payload]
    cases purpose with
    | authentication =>
      cases plays
      refine iff_of_false ?_ (fun ⟨selected, found, eligible⟩ => (ends selected (eligible.holds found)).2.1 eligible.plays)
      cases is : key.role with
      | deviceSigning => exact absurd is noDevice
      | requestSigning => exact absurd is noRequest
      | _ => decide
    | deviceAssertion =>
      cases plays
      refine iff_of_false ?_ (fun ⟨selected, found, eligible⟩ => (ends selected (eligible.holds found)).1 eligible.plays)
      cases is : key.role with
      | deviceSigning => exact absurd is noDevice
      | _ => decide
    | applicationAssertion domain =>
      obtain ⟨_, -, same⟩ := except_bind_ok.mp plays
      cases same
      rw [← endToEnd]
      cases is : key.role with
      | requestSigning => exact absurd is noRequest
      | _ => simp [KeyRole.advertised, SigningPurpose.listedAs]

end

namespace Plain

/-- A Web identity whose only key signs end to end. -/
def endToEndSpec : DidCreateSpec :=
  { webSpec with managedKeys := [{ fragment := "m", role := .e2eeSigning }] }

def endToEnd : List Event := [.openStore none, .store 0 (.createIdentity endToEndSpec) (entropy "0" 1) none]

def assertion (kid : String) : SignRequest := { purpose := .applicationAssertion "a", key := .kid kid, payload := [] }

end Plain

/-- The request-signing key of a new Web identity lists application assertions and cannot make one. -/
theorem listed_assertion_refused :
    let w := World.initial.run Plain.anp Plain.creation
    ∃ self ∈ w.identities[0]?, self.Operational Plain.anp w.store ∧ ¬ self.AdvertisesUsable Plain.anp Plain.proofs w.store ∧
      self.activeKeys = [{ kid := "did:web:a.b#k", algorithm := .ed25519, purposes := [.authentication, .applicationAssertion] }] ∧
      self.signForPurpose Plain.anp Plain.proofs w.store w.store (Plain.assertion "k") = .error .keyPurposeViolation := by
  intro w
  have run : ∃ self ∈ w.identities[0]?, w.store.readIdentity Plain.anp self.identityId = .ok self.record ∧
      self.record.state = .active ∧
      (∃ key ∈ self.record.keys, key.origin = .managed ∧ key.kid = "did:web:a.b#k" ∧
        PublicKeyDescriptor.fromMetadata key = some ⟨key.kid, .ed25519, [.authentication, .applicationAssertion]⟩) ∧
      (self.signForPurpose Plain.anp Plain.proofs w.store w.store (Plain.assertion "did:web:a.b#k")).isOk = false ∧
      self.activeKeys = [{ kid := "did:web:a.b#k", algorithm := .ed25519, purposes := [.authentication, .applicationAssertion] }] ∧
      self.signForPurpose Plain.anp Plain.proofs w.store w.store (Plain.assertion "k") = .error .keyPurposeViolation := by
    decide +kernel
  obtain ⟨self, held, read, active, ⟨key, listed, managed, kid, shown⟩, refused, keys, violation⟩ := run
  refine ⟨self, held, ⟨read, active⟩, fun advertises => ?_, keys, violation⟩
  have listedAs : KeyPurpose.applicationAssertion ∈ [KeyPurpose.authentication, .applicationAssertion] := by decide
  have usable := (advertises key listed managed _ shown (.applicationAssertion "a") .e2eeSigning [] (by decide)).mp listedAs
  change (self.signForPurpose Plain.anp Plain.proofs w.store w.store (Plain.assertion key.kid)).isOk = true at usable
  rw [kid, refused] at usable
  cases usable

theorem advertised_usable_endToEnd :
    let w := World.initial.run Plain.anp Plain.endToEnd
    ∃ self ∈ w.identities[0]?, self.Operational Plain.anp w.store ∧ self.AdvertisesUsable Plain.anp Plain.proofs w.store := by
  intro w
  have run : ∃ self ∈ w.identities[0]?, w.store.readIdentity Plain.anp self.identityId = .ok self.record ∧
      self.record.state = .active ∧
      ∀ key ∈ self.record.keys, key.role = .e2eeSigning ∧ key.origin = .managed ∧ key.state = .active ∧
        key.materialErased = false ∧ relationshipAuthorizes Plain.anp self key .e2eeSigning = true ∧
        self.keyMetadata key.kid = .ok key ∧ w.store.openSecret (self.record.secretRef key) = .ok (Plain.key 1).val := by
    decide +kernel
  obtain ⟨self, held, read, active, keys⟩ := run
  have supplied : self.Supplied w.store := by
    intro key listed _ _ _
    obtain ⟨-, -, -, -, -, -, opened⟩ := keys key listed
    exact ⟨Plain.key 1, opened⟩
  refine ⟨self, held, ⟨read, active⟩, (advertised_usable_iff ⟨read, active⟩ supplied).mpr ?_⟩
  intro key holds
  obtain ⟨role, managed, active, kept, authorized, found, -⟩ := keys key holds.listed
  refine ⟨by rw [role]; decide, by rw [role]; decide, iff_of_true role ⟨key, found, role, authorized, managed, active, kept⟩⟩

end AnpIdentity
