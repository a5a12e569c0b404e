import AnpIdentity.Durable.Completion
import AnpIdentity.KeyIds
import AnpIdentity.Registration

/-! What a rejected call leaves behind. A call checks its input and the store, and then writes a journal; what it still
checks after that it checks too late, since an error then leaves the journal and the secrets sealed so far. -/

namespace AnpIdentity
open Durable Program

section
variable {anp : Anp} {entropy : Entropy} {s : Store}

/-! ## Sealing -/

/-- A secret can be kept for the key: the reference is valid, and a secret that is there already belongs to the key. -/
structure Sealable (anp : Anp) (secrets : SecretRef → Option Bytes) (key : SealedKey) : Prop where
  valid : validateSecretRef key.ref = .ok ()
  same : ∀ secret, secrets key.ref = some secret →
    ∃ actual, publicKeyFromSecret anp key.ref.role secret = .ok actual ∧ publicKeysEqual actual key.expected = true

section
variable {key : SealedKey} {keys : List SealedKey} {β : Type} {f : Unit → Tx β}

private theorem verifyPersistedKey_completes : Completes (verifyPersistedKey anp key.ref key.expected) s ↔
    validateSecretRef key.ref = .ok () ∧ ∃ secret, s.secrets key.ref = some secret ∧
      ∃ actual, publicKeyFromSecret anp key.ref.role secret = .ok actual ∧ publicKeysEqual actual key.expected = true := by
  unfold verifyPersistedKey openSecret
  simp only [bind_assoc, liftM_eq, completes_get, completes_lift, Store.openSecret, except_bind_ok, okOr_ok]
  constructor
  · rintro ⟨secret, ⟨⟨⟩, valid, found⟩, actual, derived, ⟨⟩, passed⟩
    exact ⟨valid, secret, found, actual, derived, by simpa [reject] using passed⟩
  · rintro ⟨valid, secret, found, actual, derived, equal⟩
    exact ⟨secret, ⟨(), valid, found⟩, actual, derived, (), by simp [reject, equal]⟩

/-- The store once a secret is kept for the key. -/
def Store.keep (s : Store) (key : SealedKey) : Store :=
  if (s.secrets key.ref).isSome then s else Medium.apply s (.seal key.ref key.plaintext)

private theorem completes_sealVerified (key : SealedKey) : Completes (sealVerified anp key.ref key.plaintext key.expected >>= f) s ↔
    Sealable anp s.secrets key ∧ Completes (f ()) (s.keep key) := by
  unfold sealVerified sealIfAbsent Store.keep
  simp only [bind_assoc, liftM_eq, completes_lift, completes_get]
  cases present : s.secrets key.ref with
  | none =>
    simp only [Option.isSome_none, Bool.false_eq_true, if_false, bind_assoc, completes_write, pure_bind, reduceCtorEq]
    constructor
    · rintro ⟨⟨⟩, valid, rest⟩
      exact ⟨⟨valid, fun secret found => by rw [present] at found; cases found⟩, rest⟩
    · rintro ⟨sealable, rest⟩
      exact ⟨(), sealable.valid, rest⟩
  | some secret =>
    simp only [Option.isSome_some, if_true, pure_bind, completes_bind, (verifyPersistedKey_issues anp _ _).final_eq]
    constructor
    · rintro ⟨⟨⟩, valid, ⟨⟩, verified, rest⟩
      obtain ⟨-, found⟩ := verifyPersistedKey_completes.mp ⟨(), verified⟩
      obtain ⟨other, there, matching⟩ := found
      refine ⟨⟨valid, fun secret found => ?_⟩, rest⟩
      cases there.symm.trans found
      exact matching
    · rintro ⟨sealable, rest⟩
      obtain ⟨⟨⟩, verified⟩ := verifyPersistedKey_completes.mpr ⟨sealable.valid, secret, present, sealable.same secret present⟩
      exact ⟨(), sealable.valid, (), verified, rest⟩

theorem keep_other {ref : SecretRef} (other : ref ≠ key.ref) : (s.keep key).secrets ref = s.secrets ref := by
  unfold Store.keep
  split
  · rfl
  · exact Function.update_of_ne other ..

theorem keep_registry (s : Store) (key : SealedKey) : (s.keep key).registry = s.registry := by
  unfold Store.keep
  split <;> rfl

theorem completes_sealAll (distinct : (keys.map (·.ref)).Nodup) : Completes (sealAll anp keys >>= f) s ↔
    (∀ key ∈ keys, Sealable anp s.secrets key) ∧ Completes (f ()) (keys.foldl Store.keep s) := by
  induction keys generalizing s with
  | nil => simp [sealAll]
  | cons key rest ih =>
    obtain ⟨new, distinct⟩ := List.nodup_cons.mp distinct
    rw [sealAll, bind_assoc, completes_sealVerified, ih distinct, List.forall_mem_cons, and_assoc]
    refine and_congr_right (fun _ => and_congr_left (fun _ => forall₂_congr (fun other inside => ?_)))
    have apart : other.ref ≠ key.ref := fun same => new (List.mem_map.mpr ⟨other, inside, same⟩)
    have unchanged := keep_other (s := s) apart
    exact ⟨fun sealable => ⟨sealable.valid, unchanged ▸ sealable.same⟩, fun sealable => ⟨sealable.valid, unchanged ▸ sealable.same⟩⟩

/-- The secret belongs to the key. -/
def SealedKey.Fits (anp : Anp) (key : SealedKey) (secret : Bytes) : Prop :=
  ∃ actual, publicKeyFromSecret anp key.ref.role secret = .ok actual ∧ publicKeysEqual actual key.expected = true

private theorem keep_some {ref : SecretRef} {secret : Bytes} (found : s.secrets ref = some secret) :
    (keys.foldl Store.keep s).secrets ref = some secret := by
  induction keys generalizing s with
  | nil => exact found
  | cons key rest ih =>
    refine ih ?_
    by_cases same : ref = key.ref
    · subst same
      rw [Store.keep, if_pos (by rw [found]; rfl), found]
    · rw [keep_other same, found]

/-- Every key whose plaintext belongs to it has a secret that belongs to it in the end. -/
private theorem keep_fits (distinct : (keys.map (·.ref)).Nodup) (sealable : ∀ key ∈ keys, Sealable anp s.secrets key)
    (own : ∀ key ∈ keys, key.Fits anp key.plaintext) :
    ∀ key ∈ keys, ∃ secret, (keys.foldl Store.keep s).secrets key.ref = some secret ∧ key.Fits anp secret := by
  induction keys generalizing s with
  | nil => exact fun key inside => (nomatch inside)
  | cons key rest ih =>
    obtain ⟨new, distinct⟩ := List.nodup_cons.mp distinct
    obtain ⟨first, later⟩ := List.forall_mem_cons.mp sealable
    obtain ⟨fits, others⟩ := List.forall_mem_cons.mp own
    refine List.forall_mem_cons.mpr ⟨?_, ih distinct (fun other inside => ?_) others⟩
    · have kept : ∃ secret, (s.keep key).secrets key.ref = some secret ∧ key.Fits anp secret := by
        cases present : s.secrets key.ref with
        | some secret =>
          refine ⟨secret, ?_, first.same secret present⟩
          rw [Store.keep, if_pos (by rw [present]; rfl), present]
        | none =>
          refine ⟨key.plaintext, ?_, fits⟩
          rw [Store.keep, if_neg (by rw [present]; simp)]
          exact Function.update_self ..
      obtain ⟨secret, found, fits⟩ := kept
      exact ⟨secret, (keep_some found : (rest.foldl Store.keep (s.keep key)).secrets key.ref = some secret), fits⟩
    · have apart : other.ref ≠ key.ref := fun same => new (List.mem_map.mpr ⟨other, inside, same⟩)
      exact ⟨(later other inside).valid, keep_other (s := s) apart ▸ (later other inside).same⟩

private theorem completes_verifyAll : Completes (verifyAllPersistedKeys anp keys >>= f) s ↔
    (∀ key ∈ keys, validateSecretRef key.ref = .ok () ∧ ∃ secret, s.secrets key.ref = some secret ∧ key.Fits anp secret) ∧
      Completes (f ()) s := by
  induction keys with
  | nil => simp [verifyAllPersistedKeys]
  | cons key rest ih =>
    rw [verifyAllPersistedKeys, bind_assoc, completes_bind, (verifyPersistedKey_issues anp _ _).final_eq, List.forall_mem_cons,
      and_assoc]
    constructor
    · rintro ⟨⟨⟩, verified, rest⟩
      exact ⟨verifyPersistedKey_completes.mp ⟨(), verified⟩, ih.mp rest⟩
    · rintro ⟨found, rest⟩
      obtain ⟨⟨⟩, verified⟩ := verifyPersistedKey_completes.mpr found
      exact ⟨(), verified, ih.mpr rest⟩

end

/-! ## Actions on an identity -/

section
variable {record seen next : IdentityRecord} {β : Type}

private theorem completes_persistRecord {f : IdentityRecord → Tx β} : Completes (persistRecord record >>= f) s ↔
    record.generation + 1 < 2 ^ 64 ∧ Completes (f record.raised) (Medium.apply s (.identity record.raised)) := by
  unfold persistRecord writeIdentity
  simp only [bind_assoc, liftM_eq, completes_lift, checkedSucc_ok, completes_write, pure_bind]
  constructor
  · rintro ⟨_, ⟨room, rfl⟩, rest⟩
    exact ⟨room, rest⟩
  · rintro ⟨room, rest⟩
    exact ⟨_, ⟨room, rfl⟩, rest⟩

private theorem completes_deleteSecrets {refs : List SecretRef} {f : Unit → Tx β} :
    Completes (deleteSecrets refs >>= f) s ↔ Completes (f ()) ((deleteSecrets refs).final s) := by
  rw [completes_bind]
  exact ⟨fun ⟨_, _, rest⟩ => rest, fun rest => ⟨(), (deleteSecrets_run refs s).2, rest⟩⟩

private theorem sealedKeys_distinct (plan : UpdatePlan) : ((plan.sealedKeys anp).map (·.ref)).Nodup := by
  unfold UpdatePlan.sealedKeys
  split <;> simp

theorem commitPlan_completes {plan : UpdatePlan} : Completes (commitPlan anp entropy seen plan) s ↔
    (∀ key ∈ plan.sealedKeys anp, Sealable anp s.secrets key) ∧
      (∃ digest, canonicalDigest anp plan.changes.document = .ok digest) ∧ seen.generation + 1 < 2 ^ 64 := by
  unfold commitPlan writeUpdateJournal removeUpdateJournal
  simp only [liftM_eq, completes_write, completes_sealAll (sealedKeys_distinct plan), completes_lift, completes_persistRecord]
  constructor
  · rintro ⟨sealable, digest, hashed, room, -⟩
    exact ⟨sealable, ⟨digest, hashed⟩, room⟩
  · rintro ⟨sealable, ⟨digest, hashed⟩, room⟩
    exact ⟨sealable, digest, hashed, room, completes_pure _⟩

theorem discardPending_completes {pending : PendingRevisionRecord} {revisionId : String} :
    Completes (discardPending entropy seen pending revisionId) s ↔ seen.generation + 1 < 2 ^ 64 := by
  unfold discardPending writeUpdateJournal removeUpdateJournal
  simp only [completes_write, completes_persistRecord, completes_deleteSecrets]
  exact ⟨fun both => both.1, fun room => ⟨room, completes_pure _⟩⟩

theorem persistAndRegister_completes (named : s.registry.Names record.did record.identityId) :
    Completes (persistAndRegister entropy record) s ↔ record.generation + 1 < 2 ^ 64 ∧ s.Room := by
  unfold persistAndRegister readRegistry writeRegistry removeJournal
  simp only [bind_assoc, liftM_eq, completes_persistRecord, completes_get, pure_bind, completes_lift, completes_write, reject_ok,
    not_not, IdentityRegistry.put_ok]
  constructor
  · rintro ⟨room, -, -, _, ⟨registers, -⟩, -⟩
    exact ⟨room, registers⟩
  · rintro ⟨room, registers⟩
    exact ⟨room, (), named, _, ⟨registers, rfl⟩, completes_pure _⟩

theorem persistStateTransition_completes (named : s.registry.Names record.did record.identityId) :
    Completes (persistStateTransition entropy record) s ↔ record.generation + 1 < 2 ^ 64 ∧ s.Room := by
  unfold persistStateTransition writeJournal
  rw [completes_write]
  exact persistAndRegister_completes named

theorem commitRootImport_completes {transfer : RootTransfer} {ref : SecretRef}
    (named : s.registry.Names record.did record.identityId) : Completes (commitRootImport anp entropy transfer ref record) s ↔
      Sealable anp s.secrets ⟨ref, transfer.raw.val, publicKeyFromRaw anp .rootControl transfer.raw⟩ ∧
        record.generation + 1 < 2 ^ 64 ∧ s.Room := by
  unfold commitRootImport writeJournal
  rw [completes_write, completes_sealVerified ⟨ref, transfer.raw.val, publicKeyFromRaw anp .rootControl transfer.raw⟩]
  refine and_congr_right (fun _ => ?_)
  rw [persistAndRegister_completes (by rw [keep_registry]; exact named), Store.Room, keep_registry]
  rfl

end

/-! ## Actions on a store -/

section
variable {did : String} {keys : List NewKey} {record : DidResult IdentityRecord}

private theorem newRefs_distinct {id : String} (distinct : (keys.map (·.kid)).Nodup) :
    ((keys.map (·.sealedKey id)).map (·.ref)).Nodup := by
  rw [List.map_map]
  refine List.Nodup.of_map (·.keyId) ?_
  rw [List.map_map]
  exact distinct

theorem commitNewIdentity_completes (distinct : (keys.map (·.kid)).Nodup) :
    Completes (commitNewIdentity anp entropy s.registry did keys record) s ↔
      (∀ key ∈ keys, Sealable anp s.secrets (key.sealedKey entropy.identityId)) ∧ (∃ made, record = .ok made) ∧ s.Room := by
  unfold commitNewIdentity registerIdentity writeJournal writeIdentity writeRegistry removeJournal
  simp only [liftM_eq, completes_write, completes_sealAll (newRefs_distinct distinct), completes_lift,
    IdentityRegistry.put_ok, List.forall_mem_map]
  constructor
  · rintro ⟨sealable, made, derived, _, ⟨room, -⟩, -⟩
    exact ⟨sealable, ⟨made, derived⟩, room⟩
  · rintro ⟨sealable, ⟨made, derived⟩, room⟩
    exact ⟨sealable, made, derived, _, ⟨room, rfl⟩, completes_pure _⟩

private theorem publicKeysEqual_raw (role : KeyRole) (raw : Key32) :
    publicKeysEqual (publicKeyFromRaw anp role raw) (publicKeyFromRaw anp role raw) = true := by
  unfold publicKeyFromRaw
  split <;> simp [publicKeysEqual]

private theorem newKeys_fit (built : BuiltIdentity) :
    ∀ key ∈ built.newKeys anp, (key.sealedKey entropy.identityId).Fits anp (key.sealedKey entropy.identityId).plaintext := by
  intro key inside
  obtain ⟨source, -, rfl⟩ := List.mem_map.mp inside
  refine ⟨publicKeyFromRaw anp source.role source.bytes, ?_, publicKeysEqual_raw _ _⟩
  change publicKeyFromSecret anp source.role source.bytes.val = _
  rw [publicKeyFromSecret, dif_pos source.bytes.property]

theorem commitCreation_completes {spec : DidCreateSpec} {built : BuiltIdentity} (distinct : ((built.newKeys anp).map (·.kid)).Nodup) :
    Completes (commitCreation anp entropy s.registry spec built) s ↔
      (∀ key ∈ built.newKeys anp, Sealable anp s.secrets (key.sealedKey entropy.identityId)) ∧
        (∃ made, createdRecord anp entropy spec built = .ok made) ∧ s.Room := by
  have refs : (((built.newKeys anp).map (·.sealedKey entropy.identityId)).map (·.ref)).Nodup := newRefs_distinct distinct
  unfold commitCreation registerCreation writeJournal writeIdentity writeRegistry removeJournal
  simp only [liftM_eq, completes_write, completes_sealAll refs, completes_verifyAll, completes_lift, IdentityRegistry.put_ok]
  constructor
  · rintro ⟨sealable, -, made, derived, _, ⟨room, -⟩, -⟩
    exact ⟨List.forall_mem_map.mp sealable, ⟨made, derived⟩, room⟩
  · rintro ⟨sealable, ⟨made, derived⟩, room⟩
    have sealable := List.forall_mem_map.mpr sealable
    refine ⟨sealable, fun key inside => ⟨(sealable key inside).valid, ?_⟩, made, derived, _, ⟨room, rfl⟩, completes_pure _⟩
    exact keep_fits (s := Medium.apply s (.journal _)) refs sealable (List.forall_mem_map.mpr (newKeys_fit built)) key inside

theorem deleteNamespace_completes {record : IdentityRecord} :
    Completes (deleteNamespace entropy s.registry did record) s ↔ s.Room := by
  unfold deleteNamespace writeJournal removeIdentity writeRegistry removeJournal
  simp only [liftM_eq, completes_write, completes_deleteSecrets, completes_lift, IdentityRegistry.drop_ok]
  constructor
  · rintro ⟨_, ⟨room, -⟩, -⟩
    exact room
  · exact fun room => ⟨_, ⟨room, rfl⟩, completes_pure _⟩

end

/-! ## Journals -/

section
variable {e : DidError}

private theorem sealVerified_issues {P : Write → Prop} (seals : ∀ ref plaintext, P (.seal ref plaintext)) (key : SealedKey) :
    Issues P (sealVerified anp key.ref key.plaintext key.expected) := by
  refine .bind (.bind (.lift _) (fun _ => .bind .get (fun t => ?_))) (fun _ => ?_)
  · split
    · exact .pure _
    · exact .bind (.write (seals _ _)) (fun _ => .pure _)
  · split
    · exact verifyPersistedKey_issues anp _ _
    · exact .pure _

private theorem sealAll_issues {P : Write → Prop} (seals : ∀ ref plaintext, P (.seal ref plaintext)) (keys : List SealedKey) :
    Issues P (sealAll anp keys) := by
  induction keys with
  | nil => exact .pure ()
  | cons key rest ih => exact .bind (sealVerified_issues seals key) (fun _ => ih)

section
variable {seen : IdentityRecord}

theorem commitPlan_strands {plan : UpdatePlan} (failed : (commitPlan anp entropy seen plan).result s = .error e) :
    prepareJournal entropy seen plan ∈ ((commitPlan anp entropy seen plan).final s).updateTransactions := by
  refine Strands.after_write (I := fun t : Store => prepareJournal entropy seen plan ∈ t.updateTransactions) ?_
    (Directory.mem_insert.mpr (.inl rfl)) failed
  refine .bind (sealAll_issues (fun _ _ _ here => here) _) (fun _ => .bind (.lift _) (fun _ => ?_))
  exact .bind (persistRecord_issues (fun _ _ here => here) _) (fun _ => .total (fun _ => ⟨_, rfl⟩))

theorem discardPending_strands {pending : PendingRevisionRecord} {revisionId : String}
    (failed : (discardPending entropy seen pending revisionId).result s = .error e) :
    cleanupJournal entropy seen pending ∈ ((discardPending entropy seen pending revisionId).final s).updateTransactions := by
  refine Strands.after_write (I := fun t : Store => cleanupJournal entropy seen pending ∈ t.updateTransactions) ?_
    (Directory.mem_insert.mpr (.inl rfl)) failed
  refine .bind (persistRecord_issues (fun _ _ here => here) _) (fun _ => ?_)
  exact .bind (deleteSecrets_issues (fun _ _ _ here => here)) (fun _ => .total (fun _ => ⟨_, rfl⟩))

end

section
variable {j : CreationJournal} {record : IdentityRecord} {did : String} {registry : IdentityRegistry}

private theorem persistAndRegister_strands : Strands (fun t : Store => j ∈ t.transactions) (persistAndRegister entropy record) := by
  refine .bind (persistRecord_issues (fun _ _ here => here) _) (fun _ => .bind readRegistry_issues (fun _ => ?_))
  exact .bind (.lift _) (fun _ => .bind (.lift _) (fun _ => .total (fun _ => ⟨_, rfl⟩)))

theorem persistStateTransition_strands (failed : (persistStateTransition entropy record).result s = .error e) :
    transitionJournal entropy record ∈ ((persistStateTransition entropy record).final s).transactions :=
  Strands.after_write (I := fun t : Store => transitionJournal entropy record ∈ t.transactions) persistAndRegister_strands
    (Directory.mem_insert.mpr (.inl rfl)) failed

theorem commitRootImport_strands {transfer : RootTransfer} {ref : SecretRef}
    (failed : (commitRootImport anp entropy transfer ref record).result s = .error e) :
    rootImportJournal entropy ref record ∈ ((commitRootImport anp entropy transfer ref record).final s).transactions := by
  refine Strands.after_write (I := fun t : Store => rootImportJournal entropy ref record ∈ t.transactions) ?_
    (Directory.mem_insert.mpr (.inl rfl)) failed
  exact .bind (sealVerified_issues (fun _ _ _ here => here) ⟨ref, transfer.raw.val, publicKeyFromRaw anp .rootControl transfer.raw⟩)
    (fun _ => persistAndRegister_strands)

theorem commitNewIdentity_strands {keys : List NewKey} {record : DidResult IdentityRecord}
    (failed : (commitNewIdentity anp entropy registry did keys record).result s = .error e) :
    creationJournal entropy did keys ∈ ((commitNewIdentity anp entropy registry did keys record).final s).transactions := by
  refine Strands.after_write (I := fun t : Store => creationJournal entropy did keys ∈ t.transactions) ?_
    (Directory.mem_insert.mpr (.inl rfl)) failed
  refine .bind (sealAll_issues (fun _ _ _ here => here) _) (fun _ => .bind (.lift _) (fun _ => ?_))
  exact .bind (.write (fun _ here => here)) (fun _ => .bind (.lift _) (fun _ => .total (fun _ => ⟨_, rfl⟩)))

theorem commitCreation_strands {spec : DidCreateSpec} {built : BuiltIdentity}
    (failed : (commitCreation anp entropy registry spec built).result s = .error e) :
    { creationJournal entropy built.did (built.newKeys anp) with createdAt := built.createdAt } ∈
      ((commitCreation anp entropy registry spec built).final s).transactions := by
  refine Strands.after_write (I := fun t : Store =>
    { creationJournal entropy built.did (built.newKeys anp) with createdAt := built.createdAt } ∈ t.transactions) ?_
    (Directory.mem_insert.mpr (.inl rfl)) failed
  refine .bind (sealAll_issues (fun _ _ _ here => here) _) (fun _ => ?_)
  refine .bind (verifyAllPersistedKeys_issues anp _) (fun _ => .bind (.lift _) (fun _ => ?_))
  exact .bind (.write (fun _ here => here)) (fun _ => .bind (.lift _) (fun _ => .total (fun _ => ⟨_, rfl⟩)))

theorem deleteNamespace_strands (failed : (deleteNamespace entropy registry did record).result s = .error e) :
    deletionJournal entropy record ∈ ((deleteNamespace entropy registry did record).final s).transactions := by
  refine Strands.after_write (I := fun t : Store => deletionJournal entropy record ∈ t.transactions) ?_
    (Directory.mem_insert.mpr (.inl rfl)) failed
  refine .bind (deleteSecrets_issues (fun _ _ _ here => here)) (fun _ => ?_)
  exact .bind (.write (fun _ here => here)) (fun _ => .bind (.lift _) (fun _ => .total (fun _ => ⟨_, rfl⟩)))

end
end

/-! ## Checks that come too late -/

/-- What an action on an identity still checks once its journal is written. -/
def IdentityAction.LateChecks (anp : Anp) (s : Store) : IdentityAction → Prop
  | .prepare seen plan => (∀ key ∈ plan.sealedKeys anp, Sealable anp s.secrets key) ∧
      (canonicalDigest anp plan.changes.document).isOk ∧ seen.generation + 1 < 2 ^ 64
  | .discard seen _ => seen.generation + 1 < 2 ^ 64
  | .edit change seen _ => change.journaled = true → seen.generation + 1 < 2 ^ 64 ∧ s.Room
  | .importRoot transfer ref seen _ =>
      Sealable anp s.secrets ⟨ref, transfer.raw.val, publicKeyFromRaw anp .rootControl transfer.raw⟩ ∧
        seen.generation + 1 < 2 ^ 64 ∧ s.Room

section
variable {self : DidIdentity} {action : IdentityAction}

private theorem isOk_exists {α : Type} {r : DidResult α} : r.isOk = true ↔ ∃ a, r = .ok a := by
  cases r <;> simp [Except.isOk, Except.toBool]

private theorem quiet_transactions (quiet : s.outstanding = []) : s.transactions.entries = [] ∧ s.updateTransactions.entries = [] := by
  simpa [Store.outstanding] using quiet

private theorem ne_of_journal {t : Store} {j : CreationJournal} (quiet : s.outstanding = []) (outstanding : j ∈ t.transactions) :
    t ≠ s := by
  rintro rfl
  have listed : j ∈ t.transactions.entries := outstanding
  rw [(quiet_transactions quiet).1] at listed
  cases listed

private theorem ne_of_updateJournal {t : Store} {j : UpdateJournal} (quiet : s.outstanding = [])
    (outstanding : j ∈ t.updateTransactions) : t ≠ s := by
  rintro rfl
  have listed : j ∈ t.updateTransactions.entries := outstanding
  rw [(quiet_transactions quiet).2] at listed
  cases listed

private theorem persistRecord_traceless {record : IdentityRecord} : Traceless (persistRecord record) s := by
  unfold persistRecord
  cases checkedSucc record.generation with
  | error e => exact .of_silent rfl
  | ok generation => exact fun e failed => nomatch failed

private theorem registered (matched : s.Matched) {id : String} {seen : IdentityRecord} (read : s.readIdentity anp id = .ok seen) :
    s.registry.Names seen.did seen.identityId := by
  obtain ⟨file, found, -, completed⟩ := readIdentity_ok.mp read
  obtain ⟨_, _, _, -, -, -, rfl⟩ := completeRecord_ok.mp completed
  exact ⟨file.summary, (matched.files id file found).2, rfl⟩

/-- An action on an identity leaves no trace of an error exactly if its late checks pass. -/
theorem IdentityAction.traceless_iff (quiet : s.outstanding = []) (matched : s.Matched)
    (current : Current anp s self action.seen) (justified : Justified anp s self entropy action) :
    Traceless (action.execute anp entropy) s ↔ action.LateChecks anp s := by
  have named := registered matched current.read
  cases action with
  | prepare seen plan =>
    refine (traceless_map (p := commitPlan anp entropy seen plan) (g := Prod.fst)).trans ((Program.traceless_iff ?_).trans ?_)
    · exact fun e failed => ne_of_updateJournal quiet (commitPlan_strands failed)
    · rw [commitPlan_completes, IdentityAction.LateChecks, isOk_exists]
  | discard seen pending =>
    refine (Program.traceless_iff ?_).trans discardPending_completes
    exact fun e failed => ne_of_updateJournal quiet (discardPending_strands failed)
  | edit change seen next =>
    have keeping : Keeping seen next := justified.keeping rfl
    simp only [IdentityAction.execute, IdentityAction.LateChecks, ← keeping.generation]
    by_cases journaled : change.journaled = true
    · rw [if_pos journaled]
      refine (traceless_map (p := persistStateTransition entropy next) (g := DidIdentity.mk)).trans
        ((Program.traceless_iff ?_).trans ?_)
      · exact fun e failed => ne_of_journal quiet (persistStateTransition_strands failed)
      · rw [persistStateTransition_completes (keeping.did ▸ keeping.identityId ▸ named)]
        exact ⟨fun room _ => room, fun room => room journaled⟩
    · rw [if_neg journaled]
      exact iff_of_true (traceless_map.mpr persistRecord_traceless) (fun holds => absurd holds journaled)
  | importRoot transfer ref seen next =>
    have keeping : Keeping seen next := justified.keeping rfl
    refine (traceless_map (p := commitRootImport anp entropy transfer ref next) (g := DidIdentity.mk)).trans
      ((Program.traceless_iff ?_).trans ?_)
    · exact fun e failed => ne_of_journal quiet (commitRootImport_strands failed)
    · rw [commitRootImport_completes (keeping.did ▸ keeping.identityId ▸ named), keeping.generation]
      rfl

end


section
variable {self : DidStore} {call : StoreCall} {action : StoreAction}

/-- The secrets that the action stores can be kept, and the registry can be written once more. -/
def StoreAction.Storable (anp : Anp) (s : Store) (entropy : Entropy) : StoreAction → Prop
  | .introduce _ keys _ => (∀ key ∈ keys, Sealable anp s.secrets (key.sealedKey entropy.identityId)) ∧ s.Room
  | .create _ built => (∀ key ∈ built.newKeys anp, Sealable anp s.secrets (key.sealedKey entropy.identityId)) ∧ s.Room
  | .delete _ _ => s.Room

/-- What a call still derives from the document for the new record, once the secrets of the keys are stored. -/
def StoreCall.Describable (anp : Anp) (createdAt : String) : StoreCall → StoreAction → Prop
  | .createIdentity _, .create _ built => (methodRootFingerprint anp built.document).isOk ∧ (documentDigest anp built.document).isOk ∧
      (inferLocalAuthorization anp built.document built.metadata).isOk
  | .prepareEnrollment { verifiedDocument := document, .. }, .introduce _ keys _
  | .prepareRequestSigningEnrollment { verifiedDocument := document, .. }, .introduce _ keys _ =>
      (optionalRootMetadata anp document createdAt).isOk ∧ (∀ key ∈ keys, (publicKeyMultibase anp key.publicKey).isOk) ∧
        (methodRootFingerprint anp document).isOk
  | .importIdentity { verifiedDocument := document, .. }, .introduce _ keys _ =>
      ∃ metadata, importedMetadata anp document createdAt keys = .ok metadata ∧
        (inferLocalAuthorization anp document metadata).isOk ∧ (rootKeyFingerprintFromImport anp keys).isOk
  | .importDeviceIdentity { verifiedDocument := document, .. }, .introduce _ keys _ =>
      ∃ rootKid root metadata authorization, rootKeyId document = some rootKid ∧
        keyMetadata anp document rootKid .rootControl .external createdAt = .ok root ∧
        importedMetadata anp document createdAt keys = .ok metadata ∧
        inferLocalAuthorization anp document (root :: metadata) = .ok (some authorization) ∧ (rootKeyFingerprint anp document).isOk
  | .importRequestSigningIdentity { verifiedDocument := document, .. }, .introduce _ keys _ =>
      ∃ rootKid, rootKeyId document = some rootKid ∧
        (keyMetadata anp document rootKid .rootControl .external createdAt).isOk ∧
        (∀ key ∈ keys, (keyMetadata anp document key.kid .requestSigning .managed createdAt).isOk) ∧
        (rootKeyFingerprint anp document).isOk
  | _, _ => True

/-- The record of a new identity can be worked out exactly if the document describes it. -/
theorem StoreCall.Starts.describable (started : call.Starts anp s self entropy action) (creates : ∀ did record, action ≠ .delete did record) :
    (∃ made, action.Makes anp entropy made) ↔ call.Describable anp entropy.now action := by
  cases call with
  | createIdentity spec =>
    obtain ⟨built, -, -, -, rfl⟩ := started
    simp only [StoreAction.Makes, createdRecord, except_bind_ok, StoreCall.Describable, isOk_exists]
    constructor
    · rintro ⟨_, fingerprint, first, digest, second, authorization, third, -⟩
      exact ⟨⟨fingerprint, first⟩, ⟨digest, second⟩, authorization, third⟩
    · rintro ⟨⟨fingerprint, first⟩, ⟨digest, second⟩, authorization, third⟩
      exact ⟨_, fingerprint, first, digest, second, authorization, third, rfl⟩
  | prepareEnrollment spec =>
    obtain ⟨did, signingKid, e2eeKid, -, -, -, -, -, -, -, -, rfl⟩ := started
    simp only [StoreAction.Makes, enrolledRecord, keyMetadataFromPublic, except_bind_ok, StoreCall.Describable, isOk_exists,
      List.forall_mem_cons, List.not_mem_nil, false_imp_iff, implies_true, and_true]
    constructor
    · rintro ⟨_, root, first, _, ⟨signing, second, -⟩, _, ⟨e2ee, third, -⟩, fingerprint, fourth, -⟩
      exact ⟨⟨root, first⟩, ⟨⟨signing, second⟩, e2ee, third⟩, fingerprint, fourth⟩
    · rintro ⟨⟨root, first⟩, ⟨⟨signing, second⟩, e2ee, third⟩, fingerprint, fourth⟩
      exact ⟨_, root, first, _, ⟨signing, second, rfl⟩, _, ⟨e2ee, third, rfl⟩, fingerprint, fourth, rfl⟩
  | prepareRequestSigningEnrollment spec =>
    obtain ⟨did, kid, -, -, -, -, -, rfl⟩ := started
    simp only [StoreAction.Makes, requestSigningEnrolledRecord, keyMetadataFromPublic, except_bind_ok, StoreCall.Describable,
      isOk_exists, List.forall_mem_singleton]
    constructor
    · rintro ⟨_, root, first, _, ⟨request, second, -⟩, fingerprint, third, -⟩
      exact ⟨⟨root, first⟩, ⟨request, second⟩, fingerprint, third⟩
    · rintro ⟨⟨root, first⟩, ⟨request, second⟩, fingerprint, third⟩
      exact ⟨_, root, first, _, ⟨request, second, rfl⟩, fingerprint, third, rfl⟩
  | importIdentity spec =>
    obtain ⟨did, imported, -, -, -, rfl⟩ := started
    simp only [StoreAction.Makes, importedRecord, except_bind_ok, StoreCall.Describable, isOk_exists]
    constructor
    · rintro ⟨_, metadata, first, authorization, second, fingerprint, third, -⟩
      exact ⟨metadata, first, ⟨authorization, second⟩, fingerprint, third⟩
    · rintro ⟨metadata, first, ⟨authorization, second⟩, fingerprint, third⟩
      exact ⟨_, metadata, first, authorization, second, fingerprint, third, rfl⟩
  | importDeviceIdentity spec =>
    obtain ⟨did, imported, rootKid, -, -, -, named, rfl⟩ := started
    simp only [StoreAction.Makes, importedDeviceRecord, except_bind_ok, okOr_ok, StoreCall.Describable, isOk_exists]
    constructor
    · rintro ⟨_, root, first, metadata, second, _, third, authorization, rfl, fingerprint, fourth, -⟩
      exact ⟨rootKid, root, metadata, authorization, named, first, second, third, fingerprint, fourth⟩
    · rintro ⟨other, root, metadata, authorization, found, first, second, third, fingerprint, fourth⟩
      cases named.symm.trans found
      exact ⟨_, root, first, metadata, second, _, third, authorization, rfl, fingerprint, fourth, rfl⟩
  | importRequestSigningIdentity spec =>
    obtain ⟨did, imported, request, rootKid, -, -, -, -, named, rfl⟩ := started
    simp only [StoreAction.Makes, importedRequestSigningRecord, except_bind_ok, StoreCall.Describable, isOk_exists,
      List.forall_mem_singleton]
    constructor
    · rintro ⟨_, root, first, key, second, fingerprint, third, -⟩
      exact ⟨rootKid, named, ⟨root, first⟩, ⟨key, second⟩, fingerprint, third⟩
    · rintro ⟨other, found, ⟨root, first⟩, ⟨key, second⟩, fingerprint, third⟩
      cases named.symm.trans found
      exact ⟨_, root, first, key, second, fingerprint, third, rfl⟩
  | discardUnpublishedEnrollment did identityId generation
  | deleteIdentityNamespace did generation
  | deleteIdentityNamespaceDiscardingPending did generation =>
    obtain ⟨record, -, rfl⟩ := started
    exact absurd rfl (creates did record)
  | openIdentity did | reload => exact absurd started id

private theorem newKeys_distinct {spec : DidCreateSpec} {built : BuiltIdentity} (builds : buildIdentity anp entropy spec = .ok built) :
    ((built.newKeys anp).map (·.kid)).Nodup := by
  have unique := buildIdentity_unique builds
  obtain ⟨-, -, made⟩ := buildIdentity_keys builds
  simp only [builtMetadata, except_bind_ok] at made
  obtain ⟨managed, first, external, -, same⟩ := made
  injection same with same
  have kids : managed.map (·.kid) = (built.newKeys anp).map (·.kid) := by
    rw [BuiltIdentity.newKeys, List.map_map]
    exact mapM_map (fun _ _ described => (keyMetadata_ok described).kid) first
  rw [← same, List.map_append, kids] at unique
  exact unique.of_append_left

/-- The keys of one call have different kids. -/
theorem StoreCall.Starts.distinct {did : String} {keys : List NewKey} {record : DidResult IdentityRecord}
    (started : call.Starts anp s self entropy (.introduce did keys record)) : (keys.map (·.kid)).Nodup := by
  cases call with
  | createIdentity spec => obtain ⟨built, -, -, -, ⟨⟩⟩ := started
  | prepareEnrollment spec =>
    obtain ⟨did, signingKid, e2eeKid, -, -, -, -, -, distinct, -, -, same⟩ := started
    cases same
    simpa [enrollmentKey] using distinct
  | prepareRequestSigningEnrollment spec =>
    obtain ⟨did, kid, -, -, -, -, -, same⟩ := started
    cases same
    simp
  | importIdentity spec =>
    obtain ⟨did, imported, -, imports, -, same⟩ := started
    cases same
    exact imports.unique
  | importDeviceIdentity spec =>
    obtain ⟨did, imported, rootKid, -, imports, -, -, same⟩ := started
    cases same
    exact imports.unique
  | importRequestSigningIdentity spec =>
    obtain ⟨did, imported, request, rootKid, -, -, -, -, -, same⟩ := started
    cases same
    simp
  | discardUnpublishedEnrollment | deleteIdentityNamespace | deleteIdentityNamespaceDiscardingPending =>
    obtain ⟨record, -, ⟨⟩⟩ := started
  | openIdentity did | reload => exact absurd started id

private theorem StoreCall.Starts.builds {spec : DidCreateSpec} {built : BuiltIdentity}
    (started : call.Starts anp s self entropy (.create spec built)) : buildIdentity anp entropy spec = .ok built := by
  cases call with
  | createIdentity spec =>
    obtain ⟨built, -, -, builds, same⟩ := started
    cases same
    exact builds
  | prepareEnrollment spec => obtain ⟨_, _, _, -, -, -, -, -, -, -, -, ⟨⟩⟩ := started
  | prepareRequestSigningEnrollment spec => obtain ⟨_, _, -, -, -, -, -, ⟨⟩⟩ := started
  | importIdentity spec => obtain ⟨_, _, -, -, -, ⟨⟩⟩ := started
  | importDeviceIdentity spec => obtain ⟨_, _, _, -, -, -, -, ⟨⟩⟩ := started
  | importRequestSigningIdentity spec => obtain ⟨_, _, _, _, -, -, -, -, -, ⟨⟩⟩ := started
  | discardUnpublishedEnrollment | deleteIdentityNamespace | deleteIdentityNamespaceDiscardingPending =>
    obtain ⟨record, -, ⟨⟩⟩ := started
  | openIdentity did | reload => exact absurd started id

/-- An action on a store leaves no trace of an error exactly if its late checks pass. -/
theorem StoreCall.Starts.traceless_iff (quiet : s.outstanding = []) (started : call.Starts anp s self entropy action) :
    Traceless (action.execute anp entropy s.registry) s ↔
      action.Storable anp s entropy ∧ call.Describable anp entropy.now action := by
  cases action with
  | introduce did keys record =>
    refine (traceless_map (p := commitNewIdentity anp entropy s.registry did keys record)
      (g := fun made => (made.1, some made.2))).trans ((Program.traceless_iff ?_).trans ?_)
    · exact fun e failed => ne_of_journal quiet (commitNewIdentity_strands failed)
    · rw [commitNewIdentity_completes started.distinct, ← started.describable (by simp), StoreAction.Storable, and_assoc]
      exact and_congr_right (fun _ => and_comm)
  | create spec built =>
    refine (traceless_map (p := commitCreation anp entropy s.registry spec built)
      (g := fun made => (made.1, some made.2))).trans ((Program.traceless_iff ?_).trans ?_)
    · exact fun e failed => ne_of_journal quiet (commitCreation_strands failed)
    · rw [commitCreation_completes (newKeys_distinct started.builds), ← started.describable (by simp), StoreAction.Storable,
        and_assoc]
      exact and_congr_right (fun _ => and_comm)
  | delete did record =>
    refine (traceless_map (p := deleteNamespace entropy s.registry did record) (g := fun self => (self, none))).trans
      ((Program.traceless_iff ?_).trans ?_)
    · exact fun e failed => ne_of_journal quiet (deleteNamespace_strands failed)
    · rw [deleteNamespace_completes]
      exact (and_iff_left (by cases call <;> trivial)).symm

end

/-! ## Rejected calls -/

section
variable {events : List Event}

/-- The requests whose errors leave no trace: whenever an action is decided on, what it still checks after its first
write holds already. -/
def StoreCall.ChecksFirst (anp : Anp) (s : Store) (self : DidStore) (entropy : Entropy) (call : StoreCall) : Prop :=
  ∀ action, call.decide anp s self entropy = .ok (some action) →
    action.Storable anp s entropy ∧ call.Describable anp entropy.now action

def IdentityCall.ChecksFirst (anp : Anp) (s : Store) (self : DidIdentity) (entropy : Entropy) (call : IdentityCall) : Prop :=
  ∀ action, call.decide anp s self entropy = .ok (some action) → action.LateChecks anp s

private theorem storeCall_traceless {self : DidStore} (quiet : s.outstanding = []) (call : StoreCall) (calls : call ≠ .reload) :
    Traceless (call.run anp self entropy) s ↔ call.ChecksFirst anp s self entropy := by
  by_cases decides : ∀ did, call ≠ .openIdentity did
  · rw [traceless_congr (storeCall_decided call calls decides), StoreCall.ChecksFirst]
    cases decided : call.decide anp s self entropy with
    | error e => exact iff_of_true (.of_silent rfl) (by simp)
    | ok decision =>
      cases decision with
      | none => exact iff_of_true (.of_silent rfl) (by simp)
      | some action =>
        refine (StoreCall.decide_ok decided).traceless_iff quiet |>.trans ⟨?_, fun checks => checks action rfl⟩
        rintro checks _ ⟨⟩
        exact checks
  · obtain ⟨did, rfl⟩ : ∃ did, call = .openIdentity did := by simpa using decides
    refine iff_of_true (.of_silent ?_) (fun action decided => nomatch decided)
    exact (Issues.bind openIdentity_issues (fun _ => .pure _)).writes_nil s

private theorem identityCall_traceless {self : DidIdentity} (quiet : s.outstanding = []) (matched : s.Matched) (call : IdentityCall)
    (calls : call ≠ .reload) : Traceless (call.run anp self entropy) s ↔ call.ChecksFirst anp s self entropy := by
  rw [traceless_congr (identityCall_decided call calls), IdentityCall.ChecksFirst]
  cases decided : call.decide anp s self entropy with
  | error e => exact iff_of_true (.of_silent rfl) (by simp)
  | ok decision =>
    cases decision with
    | none => exact iff_of_true (.of_silent rfl) (by simp)
    | some action =>
      obtain ⟨current, justified⟩ := ((IdentityCall.decide_ok calls decided).2 action rfl).started
      refine (IdentityAction.traceless_iff quiet matched current justified).trans ⟨?_, fun checks => checks action rfl⟩
      rintro checks _ ⟨⟩
      exact checks

/-- On every store without journals that a run reaches, a call that returns an error leaves everything as it was exactly
if what it checks after its first write holds whenever the checks before pass. -/
theorem rejections_leave_no_trace_iff (meets : World.initial.Meets anp (fun _ _ => True) events)
    (quiet : (World.initial.run anp events).store.outstanding = []) (entropy : Entropy) :
    (∀ self : DidStore, ∀ call : StoreCall, call ≠ .reload →
      (Traceless (call.run anp self entropy) (World.initial.run anp events).store ↔
        call.ChecksFirst anp (World.initial.run anp events).store self entropy)) ∧
    ∀ self : DidIdentity, ∀ call : IdentityCall, call ≠ .reload →
      (Traceless (call.run anp self entropy) (World.initial.run anp events).store ↔
        call.ChecksFirst anp (World.initial.run anp events).store self entropy) :=
  ⟨fun _ call calls => storeCall_traceless quiet call calls,
    fun _ call calls => identityCall_traceless quiet (World.matched_run meets (quiet_transactions quiet).1) call calls⟩

end
end

namespace Plain

/-- A document of `did:wba:a` with the keys of a device that no manifest lists. -/
def unlistedDocument : Value :=
  .object (Object.of [("id", .string "did:wba:a"),
    ("verificationMethod", .array [method "did:wba:a#r" (.ed25519 [7, 7]), method "did:wba:a#s" (.ed25519 [1, 1]),
      method "did:wba:a#e" (.x25519 [2, 2])]),
    ("authentication", .array [.string "did:wba:a#s"]), ("assertionMethod", .array [.string "did:wba:a#s"]),
    ("keyAgreement", .array [.string "did:wba:a#e"]), ("proof", .object [("verificationMethod", .string "did:wba:a#r")])])

def unlistedImport : DeviceIdentityImportSpec where
  verifiedDocument := unlistedDocument
  evidence := evidence 1 unlistedDocument
  capabilities := {}
  signingKey := { kid := "#s", role := .deviceSigning, encoding := .raw32, secret := (key 1).val }
  e2eeKey := { kid := "#e", role := .e2eeAgreement, encoding := .raw32, secret := (key 2).val }

def opened : Store := (World.initial.run anp [.openStore none]).store

def handle : DidStore where
  registryGeneration := opened.registry.generation

/-- The import of the device, as the only call on a new store. -/
def unlisted : Tx (DidStore × Option DidIdentity) :=
  (StoreCall.importDeviceIdentity unlistedImport).run anp handle (entropy "0" 1)

end Plain

/-- The import of a device that the document does not list is refused once its journal and secrets are stored, and the
same handle cannot create an identity after that. -/
theorem refused_import_leaves_secrets :
    Plain.opened.outstanding = [] ∧ Plain.unlisted.result Plain.opened = .error .invalidIdentity ∧
      ¬ Traceless Plain.unlisted Plain.opened ∧
      ((Plain.unlisted.final Plain.opened).secrets
        { identityId := "i0", keyId := "did:wba:a#s", role := .deviceSigning, version := 1 }).isSome ∧
      ((StoreCall.createIdentity Plain.webSpec).run Plain.anp Plain.handle (Plain.entropy "1" 1)).result
        (Plain.unlisted.final Plain.opened) = .error .conflict := by
  have refused : Plain.unlisted.result Plain.opened = .error .invalidIdentity := by decide +kernel
  refine ⟨by decide +kernel, refused, fun traceless => ?_, by decide +kernel, by decide +kernel⟩
  have stays : (Plain.unlisted.final Plain.opened).transactions.entries ≠ Plain.opened.transactions.entries := by decide +kernel
  exact stays (by rw [traceless _ refused])

/-- A creation on a new store passes its checks, the early ones and the late ones. A second creation of the same DID is refused
and leaves no trace. -/
theorem duplicate_creation_leaves_no_trace :
    let s := (World.initial.run Plain.anp Plain.creation).store
    let again := (StoreCall.createIdentity Plain.webSpec).run Plain.anp ⟨s.registry.generation⟩ (Plain.entropy "1" 1)
    again.result s = .error .duplicateIdentity ∧ again.final s = s ∧
      ((StoreCall.createIdentity Plain.webSpec).decide Plain.anp Plain.opened Plain.handle (Plain.entropy "0" 1)).toOption.join.isSome ∧
      Traceless ((StoreCall.createIdentity Plain.webSpec).run Plain.anp Plain.handle (Plain.entropy "0" 1)) Plain.opened := by
  intro s again
  have refused : again.result s = .error .duplicateIdentity := by decide +kernel
  have meets : World.initial.Meets Plain.anp (fun _ _ => True) Plain.creation := by decide +kernel
  have undecided : ((StoreCall.createIdentity Plain.webSpec).decide Plain.anp s ⟨s.registry.generation⟩
      (Plain.entropy "1" 1)).isOk = false := by decide +kernel
  refine ⟨refused, ?_, by decide +kernel, ?_⟩
  · refine ((rejections_leave_no_trace_iff meets (by decide +kernel) (Plain.entropy "1" 1)).1 ⟨s.registry.generation⟩ _ (by simp)).mpr
      (fun action acts => ?_) _ refused
    rw [acts] at undecided
    cases undecided
  · have late : ∀ built ∈ (buildIdentity Plain.anp (Plain.entropy "0" 1) Plain.webSpec).toOption,
        (∀ key ∈ built.newKeys Plain.anp, validateSecretRef (key.sealedKey "i0").ref = .ok () ∧
          Plain.opened.secrets (key.sealedKey "i0").ref = none) ∧
        (methodRootFingerprint Plain.anp built.document).isOk ∧ (documentDigest Plain.anp built.document).isOk ∧
          (inferLocalAuthorization Plain.anp built.document built.metadata).isOk := by decide +kernel
    have room : Plain.opened.Room := show Plain.opened.registry.generation + 1 < 2 ^ 64 by decide +kernel
    have fresh : World.initial.Meets Plain.anp (fun _ _ => True) [.openStore none] := by decide +kernel
    refine ((rejections_leave_no_trace_iff fresh (by decide +kernel) (Plain.entropy "0" 1)).1 Plain.handle _ (by simp)).mpr
      (fun action acts => ?_)
    obtain ⟨built, -, -, is, rfl⟩ := StoreCall.decide_ok acts
    obtain ⟨keys, described⟩ := late built (by rw [is]; rfl)
    refine ⟨⟨fun key inside => ⟨(keys key inside).1, fun secret found => ?_⟩, room⟩, described⟩
    cases (keys key inside).2.symm.trans found

end AnpIdentity
