import AnpIdentity.Replays

/-! How long an accepted transfer is remembered. Whatever an import checks besides the list of transfers does not
depend on that list, so 256 other envelopes push a transfer out of it, and its own envelope is imported once more. -/

namespace AnpIdentity
open Durable Program

attribute [local irreducible] pushReplay

/-! ## The writes of a change that refreshes the registry -/

section
variable {entropy : Entropy} {next : IdentityRecord} {u : Store}

/-- The registry with the entry of a new identity. -/
abbrev entered (registry : IdentityRegistry) (did : String) (summary : IdentitySummary) : IdentityRegistry :=
  { generation := registry.generation + 1, identities := Function.update registry.identities did (some summary) }

private theorem put_entered (room : u.Room) (did : String) (summary : IdentitySummary) :
    u.registry.put did summary = .ok (entered u.registry did summary) := by
  unfold IdentityRegistry.put
  rw [checkedSucc_room room]
  rfl

theorem persistAndRegister_run (room : u.Room) (counter : next.generation + 1 < 2 ^ 64)
    (named : u.registry.Names next.did next.identityId) :
    persistAndRegister entropy next u =
      ⟨[.identity next.raised, .registry (entered u.registry next.did next.raised.summary),
        .removeJournal entropy.transactionId], .ok next.raised⟩ := by
  have checked : reject (¬ u.registry.Names next.did next.identityId) DidError.identityNotFound = .ok () :=
    reject_ok.mpr (not_not.mpr named)
  have put := put_entered room next.did next.raised.summary
  have first : persistRecord next = (writeIdentity next.raised >>= fun _ => Pure.pure next.raised) := by
    unfold persistRecord
    rw [checkedSucc_room counter]
    rfl
  unfold persistAndRegister
  rw [first]
  change (writeIdentity next.raised >>= fun _ => readRegistry >>= fun registry =>
    Program.lift (reject (¬ registry.Names next.did next.identityId) DidError.identityNotFound) >>= fun _ =>
      Program.lift (registry.put next.did next.raised.summary) >>= fun registry => writeRegistry registry >>= fun _ =>
        removeJournal entropy.transactionId >>= fun _ => Pure.pure next.raised) u = _
  refine (bind_congr (g := fun _ => writeRegistry (entered u.registry next.did next.raised.summary) >>= fun _ =>
        removeJournal entropy.transactionId >>= fun _ => Pure.pure next.raised) rfl (fun _ _ => ?_)).trans rfl
  change (Program.lift (reject (¬ u.registry.Names next.did next.identityId) DidError.identityNotFound) >>= fun _ =>
      Program.lift (u.registry.put next.did next.raised.summary) >>= fun registry => writeRegistry registry >>= fun _ =>
        removeJournal entropy.transactionId >>= fun _ => Pure.pure next.raised) _ = _
  rw [checked, put]
  rfl

theorem persistStateTransition_run (room : u.Room) (counter : next.generation + 1 < 2 ^ 64)
    (named : u.registry.Names next.did next.identityId) :
    persistStateTransition entropy next u =
      ⟨[.journal (transitionJournal entropy next), .identity next.raised,
        .registry (entered u.registry next.did next.raised.summary), .removeJournal entropy.transactionId], .ok next.raised⟩ := by
  have registers : persistAndRegister entropy next (Medium.apply u (.journal (transitionJournal entropy next))) = _ :=
    persistAndRegister_run room counter named
  change (Program.write (.journal (transitionJournal entropy next)) >>= fun _ => persistAndRegister entropy next) u = _
  simp only [Bind.bind, Program.bind, Program.write, applyAll_cons, applyAll_nil, registers]
  rfl

end

section
variable {anp : Anp} {w : World} {handle : Nat} {self : DidIdentity} {envelope : WrappedRootEnvelope} {now : Int}
  {entropy : Entropy} {digest : String} {raw : Key32} {s t : Store}

/-- A handle on an identity whose root is active, showing the file and with nothing in progress. -/
structure Rooted (anp : Anp) (w : World) (handle : Nat) (shown : DidIdentity) : Prop where
  held : w.identities[handle]? = some shown
  stored : w.store.identities shown.identityId = some shown.record
  completed : completeRecord anp shown.record = .ok shown.record
  parses : shown.record.parses = true
  active : shown.record.state = .active
  clear : shown.record.pendingRevision = none
  root : shown.record.rootCapability = .active
  named : w.store.registry.Names shown.did shown.identityId

/-- The envelope passes every check that does not look at the transfers accepted before. -/
structure Passes (anp : Anp) (s : Store) (shown : DidIdentity) (envelope : WrappedRootEnvelope) (now : Int) (digest : String)
    (raw : Key32) : Prop where
  hashed : digestSerialized anp (envelopeJson envelope) = .ok digest
  valid : validateWrappedEnvelope anp shown envelope now false = .ok ()
  opened : shown.openEnvelope anp s envelope = .ok raw
  verified : verifyRootPublic anp shown.record envelope.context.rootKid (publicKeyFromRaw anp .rootControl raw) = .ok ()

/-- The handle with another list of transfers and another generation. -/
def DidIdentity.relisted (self : DidIdentity) (replays : List RootTransferReplayRecord) (generation : Nat) : DidIdentity where
  record := { self.record with rootTransferReplays := replays, generation }

theorem Passes.relisted {replays : List RootTransferReplayRecord} {generation : Nat}
    (passes : Passes anp s self envelope now digest raw) (same : t.secrets = s.secrets) :
    Passes anp t (self.relisted replays generation) envelope now digest raw := by
  obtain ⟨hashed, valid, opened, verified⟩ := passes
  refine ⟨hashed, valid, ?_, verified⟩
  have opens : ∀ ref, t.openSecret ref = s.openSecret ref := fun ref => by rw [Store.openSecret, Store.openSecret, same]
  rw [← opened]
  unfold DidIdentity.openEnvelope
  simp only [opens]
  rfl

/-- The record with one more transfer. -/
def IdentityRecord.listing (record : IdentityRecord) (transfer : RootTransfer) : IdentityRecord :=
  { record with rootTransferReplays := pushReplay record.rootTransferReplays transfer }

/-- The handle that an import returns. -/
def DidIdentity.importing (self : DidIdentity) (transfer : RootTransfer) : DidIdentity where
  record := (self.record.listing transfer).raised

private theorem Rooted.run (rooted : Rooted anp w handle self) (passes : Passes anp w.store self envelope now digest raw)
    (unknown : envelope.nonce ∉ self.record.rootTransferReplays.map (·.nonce)) (room : w.store.Room)
    (counter : self.record.generation + 1 < 2 ^ 64) :
    let next := self.importing (envelope.transfer raw digest)
    (IdentityCall.importWrappedRoot envelope now).run anp self entropy w.store =
      ⟨[.journal (transitionJournal entropy self.record), .identity next.record,
        .registry (entered w.store.registry self.did next.record.summary), .removeJournal entropy.transactionId], .ok next⟩ := by
  intro next
  have other : ∀ replay ∈ self.record.rootTransferReplays, replay.nonce ≠ envelope.nonce := 
    fun replay listed same => unknown (List.mem_map.mpr ⟨replay, listed, same⟩)
  have fresh : self.record.rootTransferReplays.any
      (fun replay => replay.nonce == envelope.nonce && replay.transferDigest == digest) = false := by
    rw [List.any_eq_false]
    intro replay listed
    simp [other replay listed]
  have first : self.record.rootTransferReplays.find? (·.nonce == (envelope.transfer raw digest).nonce) = none := by
    rw [List.find?_eq_none]
    intro replay listed
    simpa [WrappedRootEnvelope.transfer] using other replay listed
  have read : w.store.readIdentity anp self.identityId = .ok self.record :=
    readIdentity_ok.mpr ⟨self.record, rooted.stored, ⟨rooted.parses, rfl⟩, rooted.completed⟩
  have decided : decideRootImport anp self entropy self.record (envelope.transfer raw digest) =
      .ok (.replayed (self.record.listing (envelope.transfer raw digest))) := by
    have idle : reject (self.record.generation ≠ self.record.generation ∨ self.record.state ≠ .active) DidError.conflict =
        .ok () := reject_ok.mpr (by simp [rooted.active])
    have clear : reject self.record.pendingRevision.isSome DidError.pendingRevisionExists = .ok () :=
      reject_ok.mpr (by simp [rooted.clear])
    have verified : verifyRootPublic anp self.record (envelope.transfer raw digest).rootKid
        (publicKeyFromRaw anp .rootControl (envelope.transfer raw digest).raw) = .ok () := passes.verified
    simp only [decideRootImport, idle, clear, first, if_pos rooted.root, verified]
    rfl
  have valid : validateWrappedEnvelope anp self envelope now (self.record.rootTransferReplays.any
      (fun replay => replay.nonce == envelope.nonce && replay.transferDigest == digest)) = .ok () := by
    rw [fresh]
    exact passes.valid
  have commits : (self.commitPendingRoot anp entropy (envelope.transfer raw digest) >>= fun imported => Pure.pure imported.1) w.store = 
      (persistStateTransition entropy (self.record.listing (envelope.transfer raw digest)) >>= fun record => (Pure.pure { record } : Tx DidIdentity)) w.store := by
    simp only [DidIdentity.commitPendingRoot, bind_assoc]
    rw [readIdentity_bind read]
    simp only [decided, liftM_eq, lift_ok_bind, bind_assoc, pure_bind]
  have imports : (IdentityCall.importWrappedRoot envelope now).run anp self entropy w.store = 
      (self.commitPendingRoot anp entropy (envelope.transfer raw digest) >>= fun imported => Pure.pure imported.1) w.store := by
    simp only [IdentityCall.run, DidIdentity.importWrappedRoot, passes.hashed, liftM_eq, lift_ok_bind, valid, bind_assoc]
    change (Program.lift (self.openEnvelope anp w.store envelope) >>= _) w.store = _
    rw [passes.opened]
    rfl
  have persists : persistStateTransition entropy (self.record.listing (envelope.transfer raw digest)) w.store = _ :=
    persistStateTransition_run room counter rooted.named
  rw [imports, commits]
  simp only [Bind.bind, Program.bind, persists]
  rfl

def DidIdentity.nonces (self : DidIdentity) : List String := self.record.rootTransferReplays.map (·.nonce)

theorem importing_nonces {transfer : RootTransfer} :
    (self.importing transfer).nonces <:+ self.nonces ++ [transfer.nonce] ∧
      (self.importing transfer).nonces.length ≤ maxReplayRecords := by
  change (pushReplay self.record.rootTransferReplays transfer).map _ <:+ self.record.rootTransferReplays.map _ ++ _ ∧
    ((pushReplay self.record.rootTransferReplays transfer).map _).length ≤ _
  unfold pushReplay
  generalize maxReplayRecords = bound
  refine ⟨?_, ?_⟩
  · rw [List.map_drop, List.map_append]
    exact List.drop_suffix _ _
  · simp only [List.length_map, List.length_drop]
    omega

/-- What the import of envelopes comes to: the file lists the newest of them. -/
structure Transferred (anp : Anp) (w : World) (handle : Nat) (before : DidIdentity) (new : List String) (after : World)
    (shown : DidIdentity) : Prop where
  rooted : Rooted anp after handle shown
  same : ∃ replays, shown = before.relisted replays (before.record.generation + new.length)
  listed : shown.nonces <:+ before.nonces ++ new
  short : shown.nonces.length ≤ maxReplayRecords
  secrets : after.store.secrets = w.store.secrets
  registry : after.store.registry.generation = w.store.registry.generation + new.length

theorem Transferred.trans {middle after : World} {shown then_ : DidIdentity} {new more : List String}
    (first : Transferred anp w handle self new middle shown) (second : Transferred anp middle handle shown more after then_) :
    Transferred anp w handle self (new ++ more) after then_ := by
  obtain ⟨replays, same⟩ := second.same
  obtain ⟨old, before⟩ := first.same
  refine ⟨second.rooted, ⟨replays, ?_⟩, ?_, second.short, second.secrets.trans first.secrets, ?_⟩
  · rw [same, before, List.length_append, ← Nat.add_assoc]
    rfl
  · rw [← List.append_assoc]
    obtain ⟨dropped, kept⟩ := first.listed
    rw [← kept, List.append_assoc]
    exact second.listed.trans (List.suffix_append _ _)
  · rw [second.registry, first.registry, List.length_append, Nat.add_assoc]

/-- The import of an envelope that the file does not list is accepted, and the file lists it then. -/
theorem Rooted.imports (rooted : Rooted anp w handle self) (passes : Passes anp w.store self envelope now digest raw)
    (unknown : envelope.nonce ∉ self.nonces) (room : w.store.Room) (counter : self.record.generation + 1 < 2 ^ 64) :
    let next := self.importing (envelope.transfer raw digest)
    let after := w.step anp (.identity handle (.importWrappedRoot envelope now) entropy none)
    Accepts anp w handle envelope now entropy ∧ Transferred anp w handle self [envelope.nonce] after next ∧
      after.issued = entropy.ids ++ w.issued := by
  intro next after
  have run : (IdentityCall.importWrappedRoot envelope now).run anp self entropy w.store = _ :=
    rooted.run passes unknown room counter
  have stepped : after = { w with
      store := applyAll w.store
        [.journal (transitionJournal entropy self.record), .identity next.record,
          .registry (entered w.store.registry self.did next.record.summary), .removeJournal entropy.transactionId],
      identities := w.identities.set handle next, issued := entropy.ids ++ w.issued } := by
    simp only [after, World.step, rooted.held, perform, Program.final, Program.writes, Program.result, run]
    rfl
  refine ⟨⟨self, next, rooted.held, by rw [Program.result, run]⟩, ?_⟩
  rw [stepped]
  obtain ⟨held, stored, completed, parses, active, clear, root, named⟩ := rooted
  refine ⟨⟨⟨?_, ?_, ?_, parses, active, clear, root, ?_⟩, ⟨_, rfl⟩, importing_nonces.1, importing_nonces.2, rfl, rfl⟩, rfl⟩
  · exact List.getElem?_set_self (List.getElem?_eq_some_iff.mp held).1
  · exact Function.update_self ..
  · exact completeRecord_again completed ⟨rfl, rfl, rfl, rfl, rfl, rfl, rfl⟩
  · exact ⟨next.record.summary, Function.update_self .., rfl⟩

/-- Imports of envelopes, one after the other. -/
def transfers (handle : Nat) (now : Int) (imports : List (WrappedRootEnvelope × Entropy)) : List Event :=
  imports.map (fun i => .identity handle (.importWrappedRoot i.1 now) i.2 none)

/-- Envelopes that pass the checks are imported one after the other. -/
theorem Rooted.transfers {imports : List (WrappedRootEnvelope × Entropy)} (rooted : Rooted anp w handle self)
    (passes : ∀ i ∈ imports, ∃ digest raw, Passes anp w.store self i.1 now digest raw)
    (short : self.nonces.length ≤ maxReplayRecords) (distinct : (self.nonces ++ imports.map (·.1.nonce)).Nodup)
    (room : w.store.registry.generation + imports.length < 2 ^ 64)
    (counter : self.record.generation + imports.length < 2 ^ 64) (drawn : (imports.flatMap (·.2.ids)).Nodup)
    (fresh : ∀ id ∈ imports.flatMap (·.2.ids), id ∉ w.issued) :
    w.Meets anp (fun _ _ => True) (AnpIdentity.transfers handle now imports) ∧
      ∃ shown, Transferred anp w handle self (imports.map (·.1.nonce)) (w.run anp (AnpIdentity.transfers handle now imports)) shown := by
  induction imports generalizing w self with
  | nil =>
    refine ⟨trivial, self, rooted, ⟨_, rfl⟩, ?_, short, rfl, rfl⟩
    simp
  | cons i rest ih =>
    obtain ⟨envelope, entropy⟩ := i
    obtain ⟨digest, raw, pass⟩ := passes _ List.mem_cons_self
    rw [List.map_cons, List.append_cons] at distinct
    rw [List.length_cons] at room counter
    rw [List.flatMap_cons] at drawn fresh
    obtain ⟨apart, later, separate⟩ := List.nodup_append.mp drawn
    have unknown : envelope.nonce ∉ self.nonces := by
      intro listed
      have differ := (List.nodup_append.mp (List.nodup_append.mp distinct).1).2.2
      exact differ _ listed _ (List.mem_singleton_self _) rfl
    have space : w.store.Room := by
      unfold Store.Room
      omega
    have accepted : Accepts anp w handle envelope now entropy ∧ _ := rooted.imports pass unknown space (by omega)
    obtain ⟨-, first, issued⟩ := accepted
    have registry := first.registry
    have generation : (self.importing (envelope.transfer raw digest)).record.generation = self.record.generation + 1 := rfl
    have rest : _ ∧ _ := ih first.rooted
      (fun i listed => by
        obtain ⟨digest, raw, pass⟩ := passes i (List.mem_cons_of_mem _ listed)
        exact ⟨digest, raw, pass.relisted first.secrets⟩)
      first.short (List.Nodup.sublist (first.listed.sublist.append_right _) distinct)
      (by simp only [List.length_singleton] at registry; omega) (by omega) later
      (fun id listed => by
        rw [issued, List.mem_append, not_or]
        exact ⟨fun own => separate id own id listed rfl, fresh id (List.mem_append_right _ listed)⟩)
    obtain ⟨meets, shown, done⟩ := rest
    exact ⟨⟨⟨apart, fun id listed => fresh id (List.mem_append_left _ listed)⟩, trivial, meets⟩, shown, first.trans done⟩

/-- After 256 other imports, the first envelope is imported once more. -/
theorem Rooted.evicts {first : WrappedRootEnvelope × Entropy} {others : List (WrappedRootEnvelope × Entropy)}
    (rooted : Rooted anp w handle self)
    (passes : ∀ i ∈ first :: others, ∃ digest raw, Passes anp w.store self i.1 now digest raw)
    (within : WithinWindow anp first.1 now) (many : others.length = maxReplayRecords)
    (short : self.nonces.length ≤ maxReplayRecords) (distinct : (self.nonces ++ (first :: others).map (·.1.nonce)).Nodup)
    (room : w.store.registry.generation + maxReplayRecords + 2 < 2 ^ 64)
    (counter : self.record.generation + maxReplayRecords + 2 < 2 ^ 64) (drawn : ((first :: others).flatMap (·.2.ids)).Nodup)
    (fresh : ∀ id ∈ (first :: others).flatMap (·.2.ids), id ∉ w.issued) :
    w.Meets anp (fun _ _ => True) (AnpIdentity.transfers handle now (first :: others)) ∧
      Accepts anp w handle first.1 now first.2 ∧
      ¬ RefusesReplay anp (w.run anp (AnpIdentity.transfers handle now (first :: others))) self.identityId first.1 := by
  have length : (first :: others).length = maxReplayRecords + 1 := by rw [List.length_cons, many]
  obtain ⟨meets, shown, done⟩ := rooted.transfers passes short distinct (by omega) (by omega) drawn fresh
  obtain ⟨digest, raw, pass⟩ := passes first List.mem_cons_self
  have listed := done.listed
  rw [List.map_cons, List.append_cons] at distinct listed
  obtain ⟨earlier, -, apart⟩ := List.nodup_append.mp distinct
  have kept : shown.nonces <:+ others.map (·.1.nonce) := by
    refine List.suffix_of_suffix_length_le listed (List.suffix_append _ _) ?_
    rw [List.length_map, many]
    exact done.short
  have forgotten : first.1.nonce ∉ shown.nonces := by
    intro listed
    exact apart _ (List.mem_append_right _ (List.mem_singleton_self _)) _ (kept.subset listed) rfl
  have unknown : first.1.nonce ∉ self.nonces := by
    intro listed
    exact (List.nodup_append.mp earlier).2.2 _ listed _ (List.mem_singleton_self _) rfl
  have registry := done.registry
  rw [List.length_map, length] at registry
  obtain ⟨replays, same⟩ := done.same
  rw [List.length_map, length] at same
  have passed : Passes anp (w.run anp (AnpIdentity.transfers handle now (first :: others))).store shown first.1 now digest raw := by
    rw [same]
    exact pass.relisted done.secrets
  have generation : shown.record.generation = self.record.generation + (maxReplayRecords + 1) := by rw [same]; rfl
  have accepted : Accepts anp w handle first.1 now first.2 ∧ _ :=
    rooted.imports pass unknown (by unfold Store.Room; omega) (by omega)
  have again : Accepts anp _ handle first.1 now first.2 ∧ _ :=
    done.rooted.imports passed forgotten (by unfold Store.Room; omega) (by omega)
  refine ⟨meets, accepted.1, fun refuses => ?_⟩
  have unchanged := (refuses handle shown now first.2 done.rooted.held (by rw [same]; rfl) within).1 none
  have stored := again.2.1.rooted.stored
  rw [unchanged] at stored
  have level := congrArg IdentityRecord.generation (Option.some.inj (done.rooted.stored.symm.trans stored))
  change shown.record.generation = shown.record.generation + 1 at level
  omega

end

namespace Plain

/-- The bytes of a string behind a label. -/
def labelled (label : UInt8) (s : String) : Bytes := label :: s.toByteArray.data.toList

/-- The stand-in with envelopes that open, and with digests that tell transfers apart. -/
def transferAnp : Anp := { anp with
  deriveTransferKey := fun _ _ => .ok (key 1)
  parseTimestamp := fun s => .ok (s.length * nanosPerSecond)
  canonicalJson := fun value => .ok (match value.getStr "nonce_b64u", value.getStr "transfer_id" with
    | some nonce, _ => labelled 1 nonce
    | none, some transferId => labelled 2 transferId
    | none, none => [])
  sha256 := fun bytes => String.ofList (bytes.map Char.ofUInt8) }

theorem labelled_injective {label label' : UInt8} {a b : String} (same : labelled label a = labelled label' b) :
    label = label' ∧ a = b := by
  obtain ⟨first, rest⟩ := List.cons.inj same
  refine ⟨first, String.toByteArray_inj.mp ?_⟩
  exact ByteArray.ext (Array.toList_inj.mp rest)

theorem envelope_digest (envelope : WrappedRootEnvelope) : digestSerialized transferAnp (envelopeJson envelope) =
    .ok ("sha256:" ++ transferAnp.sha256 (labelled 1 envelope.nonce)) := by
  have nonce : (envelopeJson envelope).getStr "nonce_b64u" = some envelope.nonce := by
    simp [Value.getStr, Value.get, Value.asObject, envelopeJson, envelopeUnsigned, envelopeHead, Object.of,
      Object.get_insert_of_ne, Value.asStr]
  simp only [digestSerialized, canonical, transferAnp, nonce]
  rfl

theorem legacy_digest (evidence : LegacyRootTransferEvidence) : digestSerialized transferAnp (legacyEvidenceJson evidence) =
    .ok ("sha256:" ++ transferAnp.sha256 (labelled 2 evidence.transferId)) := by
  have nonce : (legacyEvidenceJson evidence).getStr "nonce_b64u" = none := by
    simp [Value.getStr, Value.get, Value.asObject, legacyEvidenceJson, Object.of, Object.get_insert_of_ne]
    simp [Object.get]
  have transferId : (legacyEvidenceJson evidence).getStr "transfer_id" = some evidence.transferId := by
    simp [Value.getStr, Value.get, Value.asObject, legacyEvidenceJson, Object.of, Object.get_insert_of_ne, Value.asStr]
  simp only [digestSerialized, canonical, transferAnp, nonce, transferId]
  rfl

theorem digest_injective {a b : Bytes} (same : "sha256:" ++ transferAnp.sha256 a = "sha256:" ++ transferAnp.sha256 b) : a = b := by
  have text : a.map Char.ofUInt8 = b.map Char.ofUInt8 := String.ofList_injective ((String.append_right_inj _).mp same)
  refine List.map_injective_iff.mpr (fun x y equal => ?_) text
  exact UInt8.toUInt32_inj.mp (congrArg Char.val equal)

/-- What a call of the stand-in hashes, and the nonce that it stands for. -/
theorem imports_digest {call : IdentityCall} {transfer : RootTransfer} (imports : call.Imports transferAnp transfer) :
    ∃ label source, transfer.digest = "sha256:" ++ transferAnp.sha256 (labelled label source) ∧
      transfer.nonce = if label = 1 then source else "legacy:" ++ source := by
  cases imports with
  | @wrapped envelope _ _ _ hashed =>
    cases (envelope_digest envelope).symm.trans hashed
    exact ⟨1, envelope.nonce, rfl, rfl⟩
  | @legacy spec _ _ hashed =>
    cases (legacy_digest spec.evidence).symm.trans hashed
    exact ⟨2, spec.evidence.transferId, rfl, rfl⟩

theorem distinctTransfers : transferAnp.DistinctTransfers := by
  intro call call' transfer transfer' imports imports' same
  obtain ⟨label, source, digest, nonce⟩ := imports_digest imports
  obtain ⟨label', source', digest', nonce'⟩ := imports_digest imports'
  rw [digest, digest'] at same
  obtain ⟨rfl, rfl⟩ := labelled_injective (digest_injective same)
  rw [nonce, nonce']

/-- The evidence of a document whose digest the stand-in leaves empty. -/
def transferEvidence (version : Nat) : VerifiedDocumentEvidence where
  documentVersion := version
  registryVersion := version
  documentDigest := "sha256:"

/-- A device is enrolled, and its root key is imported and rootPromoted. -/
def rootPromoted : List Event :=
  [.openStore none, .store 0 (.prepareEnrollment { enrollment with evidence := transferEvidence 1 }) (entropy "0" 1) none,
   .identity 0 (.adoptVerifiedDocument ⟨rootDocument [device], transferEvidence 2⟩) (entropy "1" 1) none,
   .identity 0 (.importLegacyRootTransfer { rootImport with
     evidence := { rootImport.evidence with checkpoint := checkpoint (transferEvidence 2) } }) (entropy "2" 1) none,
   .identity 0 (.confirmRootPromotion ⟨rootDocument [device], transferEvidence 3⟩) (entropy "3" 1) none]

/-- A nonce of twelve characters. -/
def nonce (n : Nat) : String := String.ofList (Char.ofNat n :: List.replicate 11 '-')

/-- An envelope that carries the root key, with a nonce of its own. -/
def wrapped (nonce : String) : WrappedRootEnvelope where
  envelopeType := wrappedRootEnvelopeType
  version := wrappedRootEnvelopeVersion
  context := { sourceDid := "did:wba:a", targetDid := "did:wba:a", senderDeviceId := "c", recipientDeviceId := "d",
               recipientAgreementKid := "did:wba:a#e", rootKid := "did:wba:a#r", checkpoint := checkpoint (transferEvidence 3),
               createdAt := "", expiresAt := "later" }
  ephemeralPublic := "01234567890123456789012345678901"
  nonce := nonce
  ciphertext := text (key 7).val
  signature := ""

def imports (n : Nat) : WrappedRootEnvelope × Entropy := (wrapped (nonce n), entropy (nonce n) 1)

private theorem of_toOption {α : Type} {result : DidResult α} {a : α} (found : result.toOption = some a) : result = .ok a := by
  cases result with
  | error e => cases found
  | ok b =>
    cases found
    rfl

theorem rootPromoted_rooted : let w := World.initial.run transferAnp rootPromoted
    ∃ self, Rooted transferAnp w 0 self ∧ self.identityId = "i0" ∧ self.nonces = ["legacy:t"] ∧ self.record.generation = 4 ∧
      w.store.registry.generation = 4 ∧ (∀ id ∈ w.issued, id.toList.length = 2) ∧
      World.initial.Meets transferAnp (fun _ _ => True) rootPromoted ∧
      Passes transferAnp w.store self (wrapped (nonce 0)) 0 ("sha256:" ++ transferAnp.sha256 (labelled 1 (nonce 0))) (key 7) := by
  intro w
  have facts : ∃ self ∈ w.identities, w.identities[0]? = some self ∧
      w.store.identities self.identityId = some self.record ∧
      (completeRecord transferAnp self.record).toOption = some self.record ∧ self.record.parses = true ∧
      self.record.state = .active ∧ self.record.pendingRevision = none ∧ self.record.rootCapability = .active ∧
      w.store.registry.Names self.did self.identityId ∧ self.identityId = "i0" ∧ self.nonces = ["legacy:t"] ∧
      self.record.generation = 4 ∧ w.store.registry.generation = 4 ∧ (∀ id ∈ w.issued, id.toList.length = 2) ∧
      World.initial.Meets transferAnp (fun _ _ => True) rootPromoted ∧
      (validateWrappedEnvelope transferAnp self (wrapped (nonce 0)) 0 false).toOption = some () ∧
      (self.openEnvelope transferAnp w.store (wrapped (nonce 0))).toOption = some (key 7) ∧
      (verifyRootPublic transferAnp self.record "did:wba:a#r" (publicKeyFromRaw transferAnp .rootControl (key 7))).toOption =
        some () := by
    decide +kernel
  obtain ⟨self, -, held, stored, completed, parses, active, clear, root, named, identityId, nonces, generation, registry, issued, meets,
    valid, opened, verified⟩ := facts
  refine ⟨self, ⟨held, stored, of_toOption completed, parses, active, clear, root, named⟩, identityId, nonces, generation, registry,
    issued, meets, envelope_digest _, of_toOption valid, of_toOption opened, of_toOption verified⟩

theorem decodeFixed_ok {s : String} {bytes : Bytes} :
    decodeFixed transferAnp nonceLen s = .ok bytes ↔ (Text.ascii s).length = nonceLen ∧ bytes = Text.ascii s := by
  have decodes : mapErr (transferAnp.decodeBase64 s) DidError.invalidRootTransfer = .ok (Text.ascii s) := rfl
  simp only [decodeFixed, decodes, except_bind_ok, reject_ok, Except.ok.injEq, exists_eq_left', ne_eq, not_not]
  exact ⟨fun ⟨_, length, same⟩ => ⟨length, same.symm⟩, fun ⟨length, same⟩ => ⟨(), length, same.symm⟩⟩

/-- The checks of the stand-in look at no more of a nonce than its length. -/
theorem passes_nonce {s : Store} {self : DidIdentity} {envelope : WrappedRootEnvelope} {nonce digest : String} {now : Int}
    {raw : Key32} (length : (Text.ascii nonce).length = nonceLen) (passes : Passes transferAnp s self envelope now digest raw) :
    ∃ digest, Passes transferAnp s self { envelope with nonce } now digest raw := by
  obtain ⟨-, valid, opened, verified⟩ := passes
  refine ⟨_, envelope_digest _, ?_, ?_, verified⟩
  · simp only [validateWrappedEnvelope, except_bind_ok] at valid ⊢
    obtain ⟨_, shape, authorization, local_, _, own, _, window, root, known, _, role, method, found, publicKey, extracted,
      signature, decoded, _, -, signed⟩ := valid
    exact ⟨(), shape, authorization, local_, (), own, (), window, root, known, (), role, method, found, publicKey, extracted,
      signature, decoded, _, rfl, signed⟩
  · unfold DidIdentity.openEnvelope at opened ⊢
    obtain ⟨ephemeral, first, opened⟩ := except_bind_ok.mp opened
    obtain ⟨_, -, opened⟩ := except_bind_ok.mp opened
    rw [first, decodeFixed_ok.mpr ⟨length, rfl⟩]
    exact opened

theorem nonce_length (n : Nat) : (Text.ascii (nonce n)).length = nonceLen := by
  simp [Text.ascii, nonce, nonceLen]

theorem nonce_injective {n m : Nat} (small : n < 1000) (small' : m < 1000) (same : nonce n = nonce m) : n = m := by
  have chars := (List.cons.inj (String.ofList_injective same)).1
  have number : ∀ k, k < 1000 → (Char.ofNat k).toNat = k := by
    intro k small
    have valid : k.isValidChar := .inl (by omega)
    rw [Char.ofNat, dif_pos valid]
    rfl
  rw [← number n small, chars, number m small']

theorem ids_toList {seed id : String} {keys : Nat} (listed : id ∈ (entropy seed keys).ids) : ∃ c, id.toList = c :: seed.toList := by
  simp only [Entropy.ids, entropy, List.mem_cons, List.not_mem_nil, or_false] at listed
  rcases listed with rfl | rfl | rfl | rfl
  all_goals exact ⟨_, String.toList_append⟩

theorem ids_nodup (seed : String) (keys : Nat) : (entropy seed keys).ids.Nodup := by
  simp [Entropy.ids, entropy]

/-- As many envelopes as a record lists. -/
def flood : List (WrappedRootEnvelope × Entropy) := (List.range maxReplayRecords).map (fun n => imports (n + 1))

theorem flood_range : imports 0 :: flood = (List.range (maxReplayRecords + 1)).map imports := by
  rw [List.range_succ_eq_map, List.map_cons, List.map_map]
  rfl

private theorem range_injective {n m : Nat} (inside : n ∈ List.range (maxReplayRecords + 1))
    (inside' : m ∈ List.range (maxReplayRecords + 1)) (same : nonce n = nonce m) : n = m := by
  rw [List.mem_range, maxReplayRecords] at inside inside'
  exact nonce_injective (by omega) (by omega) same

theorem flood_distinct : (["legacy:t"] ++ (imports 0 :: flood).map (·.1.nonce)).Nodup := by
  rw [flood_range, List.map_map, List.singleton_append, List.nodup_cons]
  constructor
  · intro listed
    obtain ⟨n, -, same⟩ := List.mem_map.mp listed
    have lengths := congrArg (fun s : String => s.toList.length) same
    simp [imports, wrapped, nonce] at lengths
  · exact List.Nodup.map_on (fun n inside m inside' same => range_injective inside inside' same) List.nodup_range

theorem flood_drawn : ((imports 0 :: flood).flatMap (·.2.ids)).Nodup := by
  rw [flood_range, List.flatMap_map, List.nodup_flatMap]
  refine ⟨fun n _ => ids_nodup _ _, ?_⟩
  refine List.Nodup.pairwise_of_forall_ne List.nodup_range (fun n inside m inside' differ id own other => ?_)
  obtain ⟨c, first⟩ := ids_toList own
  obtain ⟨d, second⟩ := ids_toList other
  exact differ (range_injective inside inside' (String.toList_injective (List.cons.inj (first.symm.trans second)).2))

theorem flood_ids {id : String} (listed : id ∈ (imports 0 :: flood).flatMap (·.2.ids)) : id.toList.length = 13 := by
  rw [flood_range, List.flatMap_map] at listed
  obtain ⟨n, -, own⟩ := List.mem_flatMap.mp listed
  obtain ⟨c, chars⟩ := ids_toList own
  rw [chars]
  simp [nonce]

theorem flooded : ∃ self, Rooted transferAnp (World.initial.run transferAnp rootPromoted) 0 self ∧ self.identityId = "i0" ∧
    (imports 0).1.nonce ∉ self.nonces ∧
    World.initial.Meets transferAnp (fun _ _ => True) (rootPromoted ++ transfers 0 0 (imports 0 :: flood)) ∧
    Accepts transferAnp (World.initial.run transferAnp rootPromoted) 0 (imports 0).1 0 (imports 0).2 ∧
    ¬ RefusesReplay transferAnp (World.initial.run transferAnp (rootPromoted ++ transfers 0 0 (imports 0 :: flood))) "i0"
      (imports 0).1 := by
  obtain ⟨self, rooted, identityId, nonces, generation, registry, issued, setUp, passes⟩ := rootPromoted_rooted
  have within : WithinWindow transferAnp (imports 0).1 0 := by
    intro expires read
    cases read
    decide
  have all : ∀ i ∈ imports 0 :: flood, ∃ digest raw,
      Passes transferAnp (World.initial.run transferAnp rootPromoted).store self i.1 0 digest raw := by
    intro i listed
    rw [flood_range] at listed
    obtain ⟨n, -, rfl⟩ := List.mem_map.mp listed
    obtain ⟨digest, pass⟩ := passes_nonce (nonce_length n) passes
    exact ⟨digest, _, pass⟩
  have fresh : ∀ id ∈ (imports 0 :: flood).flatMap (·.2.ids), id ∉ (World.initial.run transferAnp rootPromoted).issued := by
    intro id listed known
    have short := issued id known
    rw [flood_ids listed] at short
    cases short
  obtain ⟨meets, accepted, repeated⟩ := rooted.evicts all within (by simp [flood]) (by rw [nonces]; decide)
    (by rw [nonces]; exact flood_distinct) (by rw [registry]; decide) (by rw [generation]; decide) flood_drawn fresh
  refine ⟨self, rooted, identityId, by rw [nonces]; decide, World.meets_append.mpr ⟨setUp, meets⟩, accepted, ?_⟩
  rw [World.run, List.foldl_append, ← identityId]
  exact repeated

end Plain

/-- An envelope that was accepted is refused while fewer than 256 transfers are newer: those that the record listed
after it when it was accepted, and those that were recorded for the identity since. -/
theorem accepted_transfers_refused (anp : Anp) (distinct : anp.DistinctTransfers) (before later : List Event) (handle : Nat)
    (self : DidIdentity) (envelope : WrappedRootEnvelope) (now : Int) (entropy : Entropy)
    (meets : World.initial.Meets anp (fun _ _ => True)
      (before ++ .identity handle (.importWrappedRoot envelope now) entropy none :: later))
    (held : (World.initial.run anp before).identities[handle]? = some self)
    (accepted : Accepts anp (World.initial.run anp before) handle envelope now entropy)
    (few : (World.initial.run anp before).newerTransfers self.identityId envelope.nonce +
      ((World.initial.run anp before).step anp (.identity handle (.importWrappedRoot envelope now) entropy none)).transfersRecorded
        anp self.identityId later < maxReplayRecords) :
    RefusesReplay anp (World.initial.run anp (before ++ .identity handle (.importWrappedRoot envelope now) entropy none :: later))
      self.identityId envelope := by
  obtain ⟨firstMeets, fresh, -, laterMeets⟩ := World.meets_append.mp meets
  have agreed := World.agreed_run firstMeets
  obtain ⟨digest, hashed, recorded⟩ := accepted_recorded distinct held agreed (fun _ => remembering_run firstMeets) accepted
  have accepts : (World.initial.run anp before).Steps anp _ _ :=
    World.steps (.identity handle (.importWrappedRoot envelope now) entropy none)
  have kept := recorded_run (accepts.kept _ (agreed _ _ held).1) laterMeets few recorded
  have runs : World.initial.run anp (before ++ .identity handle (.importWrappedRoot envelope now) entropy none :: later) =
      ((World.initial.run anp before).step anp (.identity handle (.importWrappedRoot envelope now) entropy none)).run anp later := by
    rw [World.run, List.foldl_append]
    rfl
  rw [← runs] at kept
  exact recorded_refuses (World.agreed_run meets) (fun _ => remembering_run meets) hashed kept

theorem accepted_transfers_refused_twice :
    let first := Plain.imports 0
    let later := transfers 0 0 (Plain.flood.take 255)
    RefusesReplay Plain.transferAnp (World.initial.run Plain.transferAnp
      (Plain.rootPromoted ++ .identity 0 (.importWrappedRoot first.1 0) first.2 none :: later)) "i0" first.1 := by
  intro first later
  obtain ⟨self, rooted, identityId, unknown, meets, accepted, -⟩ := Plain.flooded
  have unlisted : newerTransfers self.record first.1.nonce = 0 := newerTransfers_unlisted unknown
  have short : later.length < maxReplayRecords := by simp [later, transfers, Plain.flood, maxReplayRecords]
  rw [← identityId]
  refine accepted_transfers_refused Plain.transferAnp Plain.distinctTransfers Plain.rootPromoted later 0 self first.1 0 first.2 ?_
    rooted.held accepted ?_
  · have all : Plain.rootPromoted ++ transfers 0 0 (first :: Plain.flood) =
        (Plain.rootPromoted ++ transfers 0 0 (first :: Plain.flood.take 255)) ++ transfers 0 0 (Plain.flood.drop 255) := by
      rw [List.append_assoc, transfers, transfers, transfers, ← List.map_append, List.cons_append, List.take_append_drop]
    rw [all] at meets
    exact (World.meets_append.mp meets).1
  · rw [World.newerTransfers, rooted.stored]
    change newerTransfers _ _ + _ < _
    rw [unlisted, Nat.zero_add]
    exact Nat.lt_of_le_of_lt World.transfersRecorded_le short

/-- 256 imports push an envelope out of the list while it can still be imported, and it changes the record again. -/
theorem accepted_transfer_imported_again :
    let first := Plain.imports 0
    let before := Plain.rootPromoted
    let accepting := Event.identity 0 (.importWrappedRoot first.1 0) first.2 none
    let later := transfers 0 0 Plain.flood
    Plain.transferAnp.DistinctTransfers ∧
      World.initial.Meets Plain.transferAnp (fun _ _ => True) (before ++ accepting :: later) ∧
      (∃ self, (World.initial.run Plain.transferAnp before).identities[0]? = some self ∧ self.identityId = "i0") ∧
      Accepts Plain.transferAnp (World.initial.run Plain.transferAnp before) 0 first.1 0 first.2 ∧
      ¬ RefusesReplay Plain.transferAnp (World.initial.run Plain.transferAnp (before ++ accepting :: later)) "i0" first.1 := by
  intro first before accepting later
  obtain ⟨self, rooted, identityId, -, meets, accepted, repeated⟩ := Plain.flooded
  exact ⟨Plain.distinctTransfers, meets, ⟨self, rooted.held, identityId⟩, accepted, repeated⟩

end AnpIdentity
