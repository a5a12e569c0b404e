import AnpIdentity.Authorization

/-! Reading and writing the files of a store: the rest of `registry.rs`, the key store and the check of a
persisted key. -/

namespace AnpIdentity
open Durable Text
variable (anp : Anp)

/-- The fingerprint that `read_identity` gives a record: computed where an older record of a profile with
a root key leaves it out, and refused with any other trace of a root key where the profile has none. -/
def completeFingerprint (record : IdentityRecord) : DidResult (Option String) := do
  let profile ← DidProfile.forDid anp record.did
  if profile.supportsRootControl then
    if record.rootKeyFingerprint.all (·.isEmpty) then do
      let fingerprint ← rootKeyFingerprint anp record.document
      .ok (some fingerprint)
    else .ok record.rootKeyFingerprint
  else if record.rootKeyFingerprint.isSome ∨ record.rootCapability ≠ .absent ∨
      record.keys.any (·.role == .rootControl) then .error .invalidIdentity
  else .ok record.rootKeyFingerprint

def completeCheckpoint (record : IdentityRecord) : DidResult DocumentCheckpoint :=
  match record.checkpoint with
  | some checkpoint => .ok checkpoint
  | none => do
    let documentDigest ← documentDigest anp record.document
    .ok { documentVersion := record.revision, registryVersion := 1, documentDigest }

def completeAuthorization (record : IdentityRecord) : DidResult (Option LocalAuthorizationRecord) :=
  match record.localAuthorization with
  | some authorization => .ok (some authorization)
  | none => inferLocalAuthorization anp record.document record.keys

/-- What `read_identity` makes of the record in a file. -/
def completeRecord (record : IdentityRecord) : DidResult IdentityRecord := do
  let rootKeyFingerprint ← completeFingerprint anp record
  let checkpoint ← completeCheckpoint anp record
  let localAuthorization ← completeAuthorization anp record
  .ok { record with rootKeyFingerprint, checkpoint := some checkpoint, localAuthorization }

variable {anp} in
theorem completeRecord_ok {record c : IdentityRecord} :
    completeRecord anp record = .ok c ↔ ∃ fingerprint checkpoint authorization,
      completeFingerprint anp record = .ok fingerprint ∧ completeCheckpoint anp record = .ok checkpoint ∧
      completeAuthorization anp record = .ok authorization ∧
      c = { record with rootKeyFingerprint := fingerprint, checkpoint := some checkpoint,
                        localAuthorization := authorization } := by
  simp only [completeRecord, except_bind_ok, Except.ok.injEq]
  constructor
  · rintro ⟨fingerprint, hf, checkpoint, hc, authorization, ha, rfl⟩
    exact ⟨fingerprint, checkpoint, authorization, hf, hc, ha, rfl⟩
  · rintro ⟨fingerprint, checkpoint, authorization, hf, hc, ha, rfl⟩
    exact ⟨fingerprint, hf, checkpoint, hc, authorization, ha, rfl⟩

/-- Two records agree on what completing a record looks at. -/
structure IdentityRecord.SameBasis (a b : IdentityRecord) : Prop where
  did : a.did = b.did
  document : a.document = b.document
  keys : a.keys = b.keys
  rootCapability : a.rootCapability = b.rootCapability
  rootKeyFingerprint : a.rootKeyFingerprint = b.rootKeyFingerprint
  checkpoint : a.checkpoint = b.checkpoint
  localAuthorization : a.localAuthorization = b.localAuthorization

variable {anp} in
private theorem completeFingerprint_again {record c : IdentityRecord} {fingerprint : Option String}
    (found : completeFingerprint anp record = .ok fingerprint) (did : c.did = record.did)
    (document : c.document = record.document) (keys : c.keys = record.keys)
    (capability : c.rootCapability = record.rootCapability) (same : c.rootKeyFingerprint = fingerprint) :
    completeFingerprint anp c = .ok fingerprint := by
  unfold completeFingerprint at found ⊢
  obtain ⟨profile, known, found⟩ := except_bind_ok.mp found
  rw [did, document, keys, capability, same, known]
  change (if profile.supportsRootControl then _ else _) = _
  by_cases root : profile.supportsRootControl
  · rw [if_pos root] at found ⊢
    by_cases empty : record.rootKeyFingerprint.all (·.isEmpty)
    · rw [if_pos empty] at found
      obtain ⟨computed, hash, equal⟩ := except_bind_ok.mp found
      cases equal
      rw [hash]
      split <;> rfl
    · rw [if_neg empty] at found
      cases found
      rw [if_neg empty]
  · rw [if_neg root] at found ⊢
    split at found
    · cases found
    · rename_i clean
      cases found
      rw [if_neg clean]

variable {anp} in
/-- A record that was read keeps its completed fields when it is stored and read again. -/
theorem completeRecord_again {record c next : IdentityRecord} (completed : completeRecord anp record = .ok c)
    (same : next.SameBasis c) : completeRecord anp next = .ok next := by
  obtain ⟨fingerprint, checkpoint, authorization, hf, -, ha, rfl⟩ := completeRecord_ok.mp completed
  obtain ⟨did, document, keys, capability, sameFingerprint, sameCheckpoint, sameAuthorization⟩ := same
  refine completeRecord_ok.mpr ⟨fingerprint, checkpoint, authorization,
    completeFingerprint_again hf did document keys capability sameFingerprint, ?_, ?_, ?_⟩
  · simp only [completeCheckpoint, sameCheckpoint]
  · unfold completeAuthorization at ha ⊢
    rw [sameAuthorization, document, keys]
    cases authorization with
    | some authorization => rfl
    | none =>
      cases recorded : record.localAuthorization with
      | some authorization => rw [recorded] at ha; cases ha
      | none => rw [recorded] at ha; exact ha
  · dsimp only at sameFingerprint sameCheckpoint sameAuthorization
    rw [← sameFingerprint, ← sameCheckpoint, ← sameAuthorization]

/-- The number of nested arrays and objects at which `serde_json` gives up. -/
def recursionLimit : Nat := 128

/-- `serde_json::from_slice` reads the record back from its file: no document in it is nested too deep. -/
def IdentityRecord.parses (record : IdentityRecord) : Bool :=
  record.document.levels + 1 < recursionLimit &&
    record.pendingRevision.all (fun pending => pending.candidateDocument.levels + 2 < recursionLimit)

def Store.readIdentity (s : Store) (identityId : String) : DidResult IdentityRecord := do
  let record ← okOr (s.identities identityId) .identityNotFound
  reject (!record.parses) .invalidIdentity
  reject (record.identityId ≠ identityId) .invalidIdentity
  completeRecord anp record

def readRegistry : Tx IdentityRegistry := do return (← Program.get).registry
def readIdentity (identityId : String) : Tx IdentityRecord := do
  let s ← Program.get
  s.readIdentity anp identityId

variable {anp} in
theorem readIdentity_bind {α : Type} {s : Store} {id : String} {record : IdentityRecord}
    (read : s.readIdentity anp id = .ok record) (f : IdentityRecord → Tx α) :
    (readIdentity anp id >>= f) s = f record s := by
  change (Program.lift (s.readIdentity anp id) >>= f) s = _
  rw [read]
  rfl

variable {anp} in
theorem readIdentity_ok {s : Store} {id : String} {record : IdentityRecord} :
    s.readIdentity anp id = .ok record ↔
      ∃ stored, s.identities id = some stored ∧ (stored.parses = true ∧ stored.identityId = id) ∧
        completeRecord anp stored = .ok record := by
  simp only [Store.readIdentity, except_bind_ok, okOr_ok, reject_ok, ne_eq, not_not, Bool.not_eq_true', Bool.not_eq_false]
  constructor
  · rintro ⟨stored, found, -, parses, -, same, completed⟩
    exact ⟨stored, found, ⟨parses, same⟩, completed⟩
  · rintro ⟨stored, found, ⟨parses, same⟩, completed⟩
    exact ⟨stored, found, (), parses, (), same, completed⟩

theorem readIdentity_congr {s t : Store} {id : String} (same : t.identities id = s.identities id) :
    t.readIdentity anp id = s.readIdentity anp id := by
  simp only [Store.readIdentity, same]

variable {anp} in
/-- A record written over the one that was read is read back as it is. -/
theorem readIdentity_again {s t : Store} {id : String} {record : IdentityRecord} (next : IdentityRecord)
    (read : s.readIdentity anp id = .ok record) (same : next.SameBasis record) (named : next.identityId = record.identityId)
    (fewer : next.pendingRevision = none ∨ next.pendingRevision = record.pendingRevision)
    (written : t.identities id = some next) : t.readIdentity anp id = .ok next := by
  obtain ⟨stored, -, ⟨parses, identity⟩, completed⟩ := readIdentity_ok.mp read
  obtain ⟨_, _, _, -, -, -, is⟩ := completeRecord_ok.mp completed
  refine readIdentity_ok.mpr ⟨next, written, ⟨?_, ?_⟩, completeRecord_again completed same⟩
  · have document : next.document = stored.document := by rw [same.document, is]
    have pending : next.pendingRevision = none ∨ next.pendingRevision = stored.pendingRevision := by rwa [is] at fewer
    unfold IdentityRecord.parses at parses ⊢
    rw [Bool.and_eq_true] at parses ⊢
    rw [document]
    rcases pending with none | kept
    · exact ⟨parses.1, by rw [none]; rfl⟩
    · exact ⟨parses.1, by rw [kept]; exact parses.2⟩
  · rw [named, is]
    exact identity

variable {anp} in
theorem readIdentity_named {s : Store} {id : String} {record : IdentityRecord}
    (read : s.readIdentity anp id = .ok record) : record.identityId = id := by
  obtain ⟨stored, -, ⟨-, identity⟩, completed⟩ := readIdentity_ok.mp read
  obtain ⟨_, _, _, -, -, -, rfl⟩ := completeRecord_ok.mp completed
  exact identity

def listJournals : Tx (List CreationJournal) := do return (← Program.get).transactions.entries
def listUpdateJournals : Tx (List UpdateJournal) := do return (← Program.get).updateTransactions.entries

def writeRegistry (registry : IdentityRegistry) : Tx Unit := Program.write (.registry registry)
def writeIdentity (record : IdentityRecord) : Tx Unit := Program.write (.identity record)
def removeIdentity (identityId : String) : Tx Unit := Program.write (.removeIdentity identityId)
def writeJournal (journal : CreationJournal) : Tx Unit := Program.write (.journal journal)
def removeJournal (transactionId : String) : Tx Unit := Program.write (.removeJournal transactionId)
def writeUpdateJournal (journal : UpdateJournal) : Tx Unit := Program.write (.updateJournal journal)
def removeUpdateJournal (revisionId : String) : Tx Unit := Program.write (.removeUpdateJournal revisionId)
def deleteSecret (ref : SecretRef) : Tx Unit := Program.write (.deleteSecret ref)

def deleteSecrets : List SecretRef → Tx Unit
  | [] => pure ()
  | ref :: rest => do
    deleteSecret ref
    deleteSecrets rest

def validateSecretRef (ref : SecretRef) : DidResult Unit :=
  reject (isBlank ref.identityId || isBlank ref.keyId || ref.version == 0) .invalidKidFragment

def Store.openSecret (s : Store) (ref : SecretRef) : DidResult Bytes := do
  validateSecretRef ref
  okOr (s.secrets ref) .secretNotFound

def openSecret (ref : SecretRef) : Tx Bytes := do
  let s ← Program.get
  s.openSecret ref

inductive SealIfAbsent where
  | sealed | alreadyExists
  deriving Repr, DecidableEq

def sealIfAbsent (ref : SecretRef) (plaintext : Bytes) : Tx SealIfAbsent := do
  validateSecretRef ref
  let s ← Program.get
  if (s.secrets ref).isSome then pure .alreadyExists
  else do
    Program.write (.seal ref plaintext)
    pure .sealed

def verifyPersistedKey (ref : SecretRef) (expected : PublicKeyMaterial) : Tx Unit := do
  let secret ← openSecret ref
  let actual ← publicKeyFromSecret anp ref.role secret
  reject (!publicKeysEqual actual expected) .invalidIdentity

theorem verifyPersistedKey_issues {P : Write → Prop} (ref : SecretRef) (expected : PublicKeyMaterial) :
    Issues P (verifyPersistedKey anp ref expected) :=
  .bind (.bind .get (fun _ => .lift _)) (fun _ => .bind (.lift _) (fun _ => .lift _))

/-- Seals a secret; one that is already there must belong to the same public key. -/
def sealVerified (ref : SecretRef) (plaintext : Bytes) (expected : PublicKeyMaterial) : Tx Unit := do
  let result ← sealIfAbsent ref plaintext
  if result = .alreadyExists then verifyPersistedKey anp ref expected else pure ()

structure SealedKey where
  ref : SecretRef
  plaintext : Bytes
  expected : PublicKeyMaterial

def sealAll : List SealedKey → Tx Unit
  | [] => pure ()
  | key :: rest => do
    sealVerified anp key.ref key.plaintext key.expected
    sealAll rest

/-- `IdentityRegistry` with one entry written and its generation raised. -/
def IdentityRegistry.put (registry : IdentityRegistry) (did : String) (summary : IdentitySummary) :
    DidResult IdentityRegistry := do
  let generation ← checkedSucc registry.generation
  .ok { generation, identities := Function.update registry.identities did (some summary) }

/-- `IdentityRegistry` with one entry removed and its generation raised. -/
def IdentityRegistry.drop (registry : IdentityRegistry) (did : String) : DidResult IdentityRegistry := do
  let generation ← checkedSucc registry.generation
  .ok { generation, identities := Function.update registry.identities did none }

/-- The registry names this identity under the DID. -/
def IdentityRegistry.Names (registry : IdentityRegistry) (did identityId : String) : Prop :=
  ∃ summary, registry.identities did = some summary ∧ summary.identityId = identityId

instance (registry : IdentityRegistry) (did identityId : String) : Decidable (registry.Names did identityId) :=
  match h : registry.identities did with
  | none => isFalse (by rintro ⟨summary, found, -⟩; rw [h] at found; cases found)
  | some summary =>
    if same : summary.identityId = identityId then isTrue ⟨summary, h, same⟩
    else isFalse (by rintro ⟨other, found, equal⟩; rw [h] at found; cases found; exact same equal)

/-- An open store: the generation of the registry it last saw. -/
structure DidStore where
  registryGeneration : Nat
  deriving Repr, DecidableEq

/-- An open identity: the record it last saw. -/
structure DidIdentity where
  record : IdentityRecord
  deriving Repr, DecidableEq

namespace DidIdentity
def identityId (self : DidIdentity) : String := self.record.identityId
def did (self : DidIdentity) : String := self.record.did
end DidIdentity

end AnpIdentity
