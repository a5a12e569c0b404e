import AnpIdentity.Files
import AnpIdentity.Encoding.Strings

/-! The key store of `keystore.rs`: each secret is sealed in a record file of its own. The files stand for the map of
secrets that the rest of the store is written against. -/

namespace AnpIdentity
open Encoding

def recordSchemaVersion : Nat := 1
def recordHkdfSalt : Bytes := utf8 "anp-identity:keystore:hkdf-salt:v1"

abbrev RecordNonce := { bytes : Bytes // bytes.length = 12 }

/-- The content of a record file. -/
structure EncryptedRecord where
  schemaVersion : Nat
  secretRef : SecretRef
  cipher : String
  kdf : String
  nonce : String
  aad : String
  ciphertext : String
  createdAt : String

/-- What the key store calls outside the crate: hashes that do not collide, an ideal cipher, and encodings that are
read back. -/
structure RecordPrimitives (file : Type) where
  sha256 : Bytes → Bytes
  hkdf : Bytes → Bytes → Bytes → Bytes
  encrypt : Bytes → RecordNonce → Bytes → Bytes → Bytes
  decrypt : Bytes → RecordNonce → Bytes → Bytes → Option Bytes
  /-- Unpadded base64url. -/
  encode : Bytes → String
  decode : String → Option Bytes
  /-- `serde_json`. -/
  toVec : EncryptedRecord → file
  fromSlice : file → Option EncryptedRecord
  sha256_injective : Function.Injective sha256
  hkdf_injective : ∀ salt info, Function.Injective (fun rootKey => hkdf salt rootKey info)
  decrypt_iff : ∀ key nonce aad ciphertext message,
    decrypt key nonce aad ciphertext = some message ↔ ciphertext = encrypt key nonce aad message
  encrypt_injective : ∀ {key key' nonce nonce' aad aad' message message'},
    encrypt key nonce aad message = encrypt key' nonce' aad' message' → key = key' ∧ aad = aad' ∧ message = message'
  decode_encode : ∀ bytes, decode (encode bytes) = some bytes
  fromSlice_toVec : ∀ record, fromSlice (toVec record) = some record

/-- A named field with its length. -/
def field (name value : String) : Bytes :=
  utf8 name ++ [0] ++ (decimal (utf8 value).length ++ [0] ++ utf8 value ++ [0xff])

def pushField (output : Bytes) (name value : String) : Bytes := output ++ field name value

def keyRoleName : KeyRole → String
  | .rootControl => "root-control"
  | .deviceSigning => "device-signing"
  | .requestSigning => "request-signing"
  | .e2eeSigning => "e2ee-signing"
  | .e2eeAgreement => "e2ee-agreement"

/-- The four fields that the associated data and the storage key have in common. -/
def pushRef (output : Bytes) (ref : SecretRef) : Bytes :=
  let output := pushField output "identity" ref.identityId
  let output := pushField output "kid" ref.keyId
  let output := pushField output "role" (keyRoleName ref.role)
  pushField output "version" ref.version.repr

/-- The data that a record is bound to. -/
def aadForRef (schemaVersion : Nat) (ref : SecretRef) : Bytes :=
  pushRef (pushField (pushField [] "domain" "anp-identity:keystore:v1") "schema" schemaVersion.repr) ref

theorem field_unambiguous (name : String) : Unambiguous (field name) :=
  .after _ (.before _ ((Unambiguous.counted (decimal_terminated (by decide))).comp utf8_injective))

theorem keyRoleName_injective : Function.Injective keyRoleName := by
  intro a b same
  cases a <;> cases b <;> first | rfl | (exact absurd same (by decide))

theorem pushRef_injective (output : Bytes) : Function.Injective (pushRef output) := by
  rintro ⟨id, kid, role, version⟩ ⟨id', kid', role', version'⟩ same
  simp only [pushRef, pushField, List.append_assoc] at same
  obtain ⟨identity, more⟩ := field_unambiguous _ _ _ _ _ (List.append_cancel_left same)
  obtain ⟨key, more⟩ := field_unambiguous _ _ _ _ _ more
  obtain ⟨named, more⟩ := field_unambiguous _ _ _ _ _ more
  have counted := decimal_injective (congrArg (List.map _) (String.ofList_injective ((field_unambiguous _).injective more)))
  rw [identity, key, keyRoleName_injective named, counted]

namespace RecordPrimitives
variable {file : Type} (p : RecordPrimitives file)

/-- The name of the record of a secret. -/
def recordStorageKey (ref : SecretRef) : String := p.encode (p.sha256 (pushRef [] ref))

def recordPath (ref : SecretRef) : String := p.recordStorageKey ref ++ ".json"

/-- Each record has a key of its own. -/
def deriveRecordKey (rootKey aad : Bytes) : Bytes := p.hkdf recordHkdfSalt rootKey aad

/-- Seals a secret in a record. -/
def sealRecord (rootKey : Bytes) (ref : SecretRef) (plaintext : Bytes) (nonce : RecordNonce) (createdAt : String) :
    EncryptedRecord :=
  let aad := aadForRef recordSchemaVersion ref
  { schemaVersion := recordSchemaVersion
    secretRef := ref
    cipher := "chacha20-poly1305"
    kdf := "hkdf-sha256"
    nonce := p.encode nonce.val
    aad := p.encode aad
    ciphertext := p.encode (p.encrypt (p.deriveRecordKey rootKey aad) nonce aad plaintext)
    createdAt }

def recordNonce (bytes : Bytes) : Option RecordNonce :=
  if length : bytes.length = 12 then some ⟨bytes, length⟩ else none

/-- Opens a record of the one known format. -/
def openRecord (rootKey : Bytes) (record : EncryptedRecord) : DidResult Bytes := do
  reject (record.schemaVersion ≠ recordSchemaVersion ∨ record.cipher ≠ "chacha20-poly1305" ∨
    record.kdf ≠ "hkdf-sha256") .corruptRecord
  let aad := aadForRef record.schemaVersion record.secretRef
  reject (p.encode aad ≠ record.aad) .corruptRecord
  let bytes ← okOr (p.decode record.nonce) .corruptRecord
  let nonce ← okOr (recordNonce bytes) .corruptRecord
  let ciphertext ← okOr (p.decode record.ciphertext) .corruptRecord
  okOr (p.decrypt (p.deriveRecordKey rootKey aad) nonce aad ciphertext) .corruptRecord

/-- The records directory: the files by their names. -/
abbrev Records (file : Type) := String → Option file

def sealIfAbsent (rootKey : Bytes) (records : Records file) (ref : SecretRef) (plaintext : Bytes) (nonce : RecordNonce)
    (createdAt : String) : DidResult (SealIfAbsent × Records file) := do
  validateSecretRef ref
  if (records (p.recordPath ref)).isSome then .ok (.alreadyExists, records)
  else
    let record := p.sealRecord rootKey ref plaintext nonce createdAt
    .ok (.sealed, Function.update records (p.recordPath ref) (some (p.toVec record)))

def openSecret (rootKey : Bytes) (records : Records file) (ref : SecretRef) : DidResult Bytes := do
  validateSecretRef ref
  let bytes ← okOr (records (p.recordPath ref)) .secretNotFound
  let record ← okOr (p.fromSlice bytes) .corruptRecord
  reject (record.secretRef ≠ ref) .corruptRecord
  p.openRecord rootKey record

def delete (records : Records file) (ref : SecretRef) : Records file := Function.update records (p.recordPath ref) none

theorem recordPath_injective : Function.Injective p.recordPath := by
  intro a b same
  have encoded : p.recordStorageKey a = p.recordStorageKey b := (String.append_left_inj _).mp same
  have hashed := congrArg p.decode encoded
  rw [recordStorageKey, recordStorageKey, p.decode_encode, p.decode_encode, Option.some.injEq] at hashed
  exact pushRef_injective [] (p.sha256_injective hashed)

theorem openRecord_sealRecord (rootKey : Bytes) (ref : SecretRef) (plaintext : Bytes) (nonce : RecordNonce)
    (createdAt : String) : p.openRecord rootKey (p.sealRecord rootKey ref plaintext nonce createdAt) = .ok plaintext := by
  simp [openRecord, sealRecord, except_bind_ok, recordNonce, p.decode_encode, p.decrypt_iff, nonce.property]

end RecordPrimitives

inductive KeyStoreCall where
  | sealIfAbsent (ref : SecretRef) (plaintext : Bytes) (nonce : RecordNonce) (createdAt : String)
  | openSecret (ref : SecretRef)
  | delete (ref : SecretRef)

inductive KeyStoreReply where
  | sealed (outcome : SealIfAbsent)
  | opened (plaintext : Bytes)
  | deleted

namespace KeyStoreCall
variable {file : Type} (p : RecordPrimitives file)

/-- A call on the record files. -/
def onRecords (rootKey : Bytes) (records : RecordPrimitives.Records file) :
    KeyStoreCall → DidResult KeyStoreReply × RecordPrimitives.Records file
  | .sealIfAbsent ref plaintext nonce createdAt =>
    match p.sealIfAbsent rootKey records ref plaintext nonce createdAt with
    | .ok (outcome, next) => (.ok (.sealed outcome), next)
    | .error error => (.error error, records)
  | .openSecret ref => ((p.openSecret rootKey records ref).map .opened, records)
  | .delete ref => (.ok .deleted, p.delete records ref)

/-- The call on the secrets of a store. -/
def onStore (s : Store) : KeyStoreCall → DidResult KeyStoreReply × Store
  | .sealIfAbsent ref plaintext _ _ =>
    (((AnpIdentity.sealIfAbsent ref plaintext).result s).map .sealed, (AnpIdentity.sealIfAbsent ref plaintext).final s)
  | .openSecret ref => ((s.openSecret ref).map .opened, s)
  | .delete ref => (((deleteSecret ref).result s).map (fun _ => .deleted), (deleteSecret ref).final s)

end KeyStoreCall

/-- The replies to a list of calls, each made in the state that the ones before it left. -/
def replies {σ κ ρ : Type} (step : σ → κ → ρ × σ) : σ → List κ → List ρ
  | _, [] => []
  | s, call :: rest => (step s call).1 :: replies step (step s call).2 rest

/-- Two systems that answer alike and stay related give the same replies. -/
theorem replies_simulated {σ τ κ ρ : Type} {f : σ → κ → ρ × σ} {g : τ → κ → ρ × τ} {R : σ → τ → Prop}
    (step : ∀ s t call, R s t → (f s call).1 = (g t call).1 ∧ R (f s call).2 (g t call).2) (calls : List κ) {s : σ} {t : τ}
    (related : R s t) : replies f s calls = replies g t calls := by
  induction calls generalizing s t with
  | nil => rfl
  | cons call rest ih =>
    obtain ⟨same, next⟩ := step s t call related
    rw [replies, replies, same, ih next]

section
variable {file : Type} (p : RecordPrimitives file) (rootKey : Bytes)

def Seals (ref : SecretRef) (content : file) (plaintext : Bytes) : Prop :=
  ∃ nonce createdAt, content = p.toVec (p.sealRecord rootKey ref plaintext nonce createdAt)

/-- The file of every reference that passes the check holds its secret, if it has one. -/
def Stands (records : RecordPrimitives.Records file) (s : Store) : Prop :=
  ∀ ref, validateSecretRef ref = .ok () → Option.Rel (Seals p rootKey ref) (records (p.recordPath ref)) (s.secrets ref)

variable {p rootKey} {records : RecordPrimitives.Records file} {s : Store} {ref : SecretRef}

private theorem Stands.update {content : Option file} {secret : Option Bytes} {t : Store} (stands : Stands p rootKey records s)
    (sealed : Option.Rel (Seals p rootKey ref) content secret) (secrets : t.secrets = Function.update s.secrets ref secret) :
    Stands p rootKey (Function.update records (p.recordPath ref) content) t := by
  intro other valid
  rw [secrets]
  by_cases same : other = ref
  · rw [same, Function.update_self, Function.update_self]
    exact sealed
  · have apart : p.recordPath other ≠ p.recordPath ref := fun equal => same (p.recordPath_injective equal)
    rw [Function.update_of_ne apart, Function.update_of_ne same]
    exact stands other valid

private theorem Stands.openSecret (stands : Stands p rootKey records s) (ref : SecretRef) :
    p.openSecret rootKey records ref = s.openSecret ref := by
  unfold RecordPrimitives.openSecret Store.openSecret
  cases checked : validateSecretRef ref with
  | error e => rfl
  | ok _ =>
    have filed := stands ref checked
    generalize records (p.recordPath ref) = content, s.secrets ref = secret at filed ⊢
    cases filed with
    | none => rfl
    | some sealed =>
      obtain ⟨nonce, createdAt, rfl⟩ := sealed
      have own (plaintext : Bytes) : (p.sealRecord rootKey ref plaintext nonce createdAt).secretRef = ref := rfl
      simp only [bind, Except.bind, okOr, p.fromSlice_toVec, reject, own, ne_eq, not_true_eq_false, ↓reduceIte,
        p.openRecord_sealRecord]

private theorem sealIfAbsent_run {plaintext : Bytes} (valid : validateSecretRef ref = .ok ()) :
    AnpIdentity.sealIfAbsent ref plaintext s =
      if (s.secrets ref).isSome then ⟨[], .ok .alreadyExists⟩ else ⟨[.seal ref plaintext], .ok .sealed⟩ := by
  unfold AnpIdentity.sealIfAbsent
  rw [valid]
  change (if (s.secrets ref).isSome then _ else _ : Tx SealIfAbsent) s = _
  split <;> rfl

private theorem Stands.sealIfAbsent (stands : Stands p rootKey records s) (ref : SecretRef) (plaintext : Bytes)
    (nonce : RecordNonce) (createdAt : String) :
    let call := KeyStoreCall.sealIfAbsent ref plaintext nonce createdAt
    (call.onRecords p rootKey records).1 = (call.onStore s).1 ∧
      Stands p rootKey (call.onRecords p rootKey records).2 (call.onStore s).2 := by
  simp only [KeyStoreCall.onRecords, KeyStoreCall.onStore, RecordPrimitives.sealIfAbsent]
  cases checked : validateSecretRef ref with
  | error e =>
    unfold AnpIdentity.sealIfAbsent
    rw [checked]
    exact ⟨rfl, stands⟩
  | ok _ =>
    have filed := stands ref checked
    have taken : (s.secrets ref).isSome = (records (p.recordPath ref)).isSome := by
      generalize records (p.recordPath ref) = content, s.secrets ref = secret at filed ⊢
      cases filed <;> rfl
    simp only [Durable.Program.result, Durable.Program.final, Durable.Program.writes, sealIfAbsent_run checked, taken]
    cases (records (p.recordPath ref)).isSome with
    | true => exact ⟨rfl, stands⟩
    | false => exact ⟨rfl, stands.update (.some ⟨nonce, createdAt, rfl⟩) rfl⟩

private theorem Stands.step (stands : Stands p rootKey records s) (call : KeyStoreCall) :
    (call.onRecords p rootKey records).1 = (call.onStore s).1 ∧
      Stands p rootKey (call.onRecords p rootKey records).2 (call.onStore s).2 := by
  cases call with
  | sealIfAbsent ref plaintext nonce createdAt => exact stands.sealIfAbsent ref plaintext nonce createdAt
  | openSecret ref => exact ⟨by simp only [KeyStoreCall.onRecords, KeyStoreCall.onStore, stands.openSecret], stands⟩
  | delete ref => exact ⟨rfl, stands.update .none rfl⟩

end

theorem record_files_refine_secrets {file : Type} (p : RecordPrimitives file) (rootKey : Bytes) (calls : List KeyStoreCall) :
    replies (fun records call => call.onRecords p rootKey records) (fun _ => none) calls =
      replies (fun s call => call.onStore s) .empty calls := by
  have empty : Stands p rootKey (fun _ => none) .empty := fun _ _ => .none
  exact replies_simulated (fun _ _ call stands => stands.step call) calls empty

/-- One call of `seal_record`. -/
structure Sealing where
  rootKey : Bytes
  ref : SecretRef
  plaintext : Bytes
  nonce : RecordNonce

/-- The records directories of any number of stores, and what was ever sealed in one of them. -/
structure KeyStores (file : Type) where
  records : Nat → RecordPrimitives.Records file
  sealings : List Sealing

inductive KeyStoreEvent (file : Type) where
  | call (store : Nat) (call : KeyStoreCall)
  | tamper (store : Nat) (path : String) (content : Option file)

def KeyStoreCall.sealings (rootKey : Bytes) : KeyStoreCall → DidResult KeyStoreReply → List Sealing
  | .sealIfAbsent ref plaintext nonce _, .ok (.sealed .sealed) => [⟨rootKey, ref, plaintext, nonce⟩]
  | _, _ => []

namespace KeyStores
variable {file : Type} (p : RecordPrimitives file) (rootKeys : Nat → Bytes)

def step (w : KeyStores file) : KeyStoreEvent file → KeyStores file
  | .call i call =>
    let after := call.onRecords p (rootKeys i) (w.records i)
    ⟨Function.update w.records i after.2, call.sealings (rootKeys i) after.1 ++ w.sealings⟩
  | .tamper i path content => { w with records := Function.update w.records i (Function.update (w.records i) path content) }

def run (w : KeyStores file) (events : List (KeyStoreEvent file)) : KeyStores file := events.foldl (step p rootKeys) w

/-- Without the keys a ciphertext can only be copied: one that is an encryption was made by a call of `seal_record`. -/
def Genuine (sealings : List Sealing) (content : file) : Prop :=
  ∀ record key nonce aad message, p.fromSlice content = some record →
    p.decode record.ciphertext = some (p.encrypt key nonce aad message) →
    ∃ made ∈ sealings, key = p.deriveRecordKey made.rootKey aad ∧ aad = aadForRef recordSchemaVersion made.ref ∧
      message = made.plaintext

/-- Every file that is put in place was genuine when it was. -/
def Copies (w : KeyStores file) : List (KeyStoreEvent file) → Prop
  | [] => True
  | .call i call :: rest => Copies (step p rootKeys w (.call i call)) rest
  | .tamper i path content :: rest =>
    (∀ placed ∈ content, Genuine p w.sealings placed) ∧ Copies (step p rootKeys w (.tamper i path content)) rest

/-- Only genuine files are in the directory. -/
def Filed (sealings : List Sealing) (records : RecordPrimitives.Records file) : Prop :=
  ∀ path, ∀ content ∈ records path, Genuine p sealings content

variable {p rootKeys} {w : KeyStores file} {sealings : List Sealing} {records : RecordPrimitives.Records file}

private theorem Filed.mono (filed : Filed p sealings records) (more : List Sealing) : Filed p (more ++ sealings) records := by
  intro path content found record key nonce aad message parsed decoded
  obtain ⟨made, listed, same⟩ := filed path content found record key nonce aad message parsed decoded
  exact ⟨made, List.mem_append_right more listed, same⟩

private theorem Filed.place {path : String} {placed : Option file} (filed : Filed p sealings records)
    (genuine : ∀ content ∈ placed, Genuine p sealings content) : Filed p sealings (Function.update records path placed) :=
  (Function.forall_update_iff records (fun _ found => ∀ content ∈ found, Genuine p sealings content)).mpr
    ⟨genuine, fun other _ => filed other⟩

private theorem genuine_sealed (made : Sealing) (createdAt : String) (sealings : List Sealing) :
    Genuine p (made :: sealings) (p.toVec (p.sealRecord made.rootKey made.ref made.plaintext made.nonce createdAt)) := by
  intro record key nonce aad message parsed decoded
  rw [p.fromSlice_toVec, Option.some.injEq] at parsed
  subst parsed
  rw [RecordPrimitives.sealRecord, p.decode_encode, Option.some.injEq] at decoded
  obtain ⟨keys, rfl, rfl⟩ := p.encrypt_injective decoded
  exact ⟨made, List.mem_cons_self, keys.symm, rfl, rfl⟩

private theorem Filed.call {rootKey : Bytes} (filed : Filed p sealings records) (call : KeyStoreCall) :
    Filed p (call.sealings rootKey (call.onRecords p rootKey records).1 ++ sealings)
      (call.onRecords p rootKey records).2 := by
  cases call with
  | openSecret ref => exact filed
  | delete ref => exact filed.place (fun _ found => by cases found)
  | sealIfAbsent ref plaintext nonce createdAt =>
    simp only [KeyStoreCall.onRecords, RecordPrimitives.sealIfAbsent]
    cases validateSecretRef ref with
    | error e => exact filed
    | ok _ =>
      cases (records (p.recordPath ref)).isSome with
      | true => exact filed
      | false =>
        refine Filed.place (filed.mono [_]) (fun content found => ?_)
        rw [← Option.mem_some_iff.mp found]
        exact genuine_sealed ⟨rootKey, ref, plaintext, nonce⟩ createdAt sealings

variable {events : List (KeyStoreEvent file)}

private theorem filed_run (filed : ∀ i, Filed p w.sealings (w.records i)) (copies : Copies p rootKeys w events) (i : Nat) :
    Filed p (w.run p rootKeys events).sealings ((w.run p rootKeys events).records i) := by
  induction events generalizing w with
  | nil => exact filed i
  | cons event rest ih =>
    cases event with
    | call j call =>
      refine ih ((Function.forall_update_iff w.records (fun _ records => Filed p _ records)).mpr ?_) copies
      exact ⟨(filed j).call call, fun k _ => (filed k).mono _⟩
    | tamper j path placed =>
      refine ih ((Function.forall_update_iff w.records (fun _ records => Filed p _ records)).mpr ?_) copies.2
      exact ⟨(filed j).place copies.1, fun k _ => filed k⟩

theorem opened_secrets_were_sealed {i : Nat} {ref : SecretRef} {plaintext : Bytes}
    (copies : Copies p rootKeys ⟨fun _ _ => none, []⟩ events)
    (opened : p.openSecret (rootKeys i) ((run p rootKeys ⟨fun _ _ => none, []⟩ events).records i) ref = .ok plaintext) :
    ∃ made ∈ (run p rootKeys ⟨fun _ _ => none, []⟩ events).sealings,
      made.rootKey = rootKeys i ∧ made.ref = ref ∧ made.plaintext = plaintext := by
  have filed := filed_run (fun _ _ _ found => by cases found) copies i
  simp only [RecordPrimitives.openSecret, RecordPrimitives.openRecord, except_bind_ok, okOr_ok, reject_ok, not_or, not_not,
    p.decrypt_iff] at opened
  obtain ⟨_, -, content, found, record, parsed, _, rfl, _, ⟨schema, -, -⟩, _, -, _, -, nonce, -, _, decoded, rfl⟩ := opened
  obtain ⟨made, listed, key, aad, message⟩ :=
    filed _ content found record _ nonce _ plaintext parsed decoded
  rw [schema] at key aad
  refine ⟨made, listed, (p.hkdf_injective _ _ key).symm, (pushRef_injective _ aad).symm, message.symm⟩

end KeyStores

namespace Plain

def counted (bytes : Bytes) : Bytes := decimal bytes.length ++ [0] ++ bytes

private theorem counted_unambiguous : Unambiguous counted := .counted (decimal_terminated (by decide))

/-- Nothing is hidden: a ciphertext spells out its key, nonce and associated data. -/
def recordPrimitives : RecordPrimitives EncryptedRecord where
  sha256 := id
  hkdf _ rootKey _ := rootKey
  encrypt key nonce aad message := counted key ++ (counted nonce.val ++ counted aad) ++ message
  decrypt key nonce aad ciphertext := ciphertext.dropPrefix? (counted key ++ (counted nonce.val ++ counted aad))
  encode bytes := String.ofList (bytes.map (fun byte => Char.ofNat byte.toNat))
  decode text := some (text.toList.map (fun c => UInt8.ofNat c.toNat))
  toVec := id
  fromSlice := some
  sha256_injective := Function.injective_id
  hkdf_injective _ _ := Function.injective_id
  decrypt_iff _ _ _ _ _ := by simp [List.dropPrefix?_eq_some_iff]
  encrypt_injective := by
    intro _ _ _ _ _ _ _ _ same
    simp only [List.append_assoc] at same
    obtain ⟨key, same⟩ := counted_unambiguous _ _ _ _ same
    obtain ⟨-, same⟩ := counted_unambiguous _ _ _ _ same
    exact ⟨key, counted_unambiguous _ _ _ _ same⟩
  decode_encode bytes := by
    have read (byte : UInt8) : (Char.ofNat byte.toNat).toNat = byte.toNat := by
      have small := byte.toNat_lt
      have valid : byte.toNat.isValidChar := .inl (by omega)
      rw [Char.ofNat, dif_pos valid]
      rfl
    simp [Function.comp_def, read]
  fromSlice_toVec _ := rfl

def sealedRoot : Sealing := ⟨[7], ⟨"i0", "did:wba:a#root", .rootControl, 1⟩, [1], ⟨List.replicate 12 0, rfl⟩⟩

end Plain

/-- Two stores have one root key, and a record file is copied from the first to the second. -/
theorem opened_secrets_were_sealed_copied :
    let made := Plain.sealedRoot
    let p := Plain.recordPrimitives
    let events := [.call 0 (.sealIfAbsent made.ref made.plaintext made.nonce ""),
      .tamper 1 (p.recordPath made.ref) (some (p.sealRecord made.rootKey made.ref made.plaintext made.nonce ""))]
    let after := KeyStores.run p (fun _ => made.rootKey) ⟨fun _ _ => none, []⟩ events
    p.openSecret made.rootKey (after.records 1) made.ref = .ok made.plaintext ∧
      ∃ s ∈ after.sealings, s.rootKey = made.rootKey ∧ s.ref = made.ref ∧ s.plaintext = made.plaintext := by
  refine ⟨by decide +kernel, KeyStores.opened_secrets_were_sealed (i := 1) ⟨?_, trivial⟩ (by decide +kernel)⟩
  rintro _ ⟨⟩
  exact KeyStores.genuine_sealed Plain.sealedRoot "" []

end AnpIdentity
