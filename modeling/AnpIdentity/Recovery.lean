import AnpIdentity.Durable.Replay
import AnpIdentity.Identity
import AnpIdentity.Plain

/-! `recover` is a replay of the outstanding journals. Settling a journal can be repeated from wherever it
was stopped, so recovery can be restarted any number of times and ends in the same store. -/

namespace AnpIdentity
open Durable Program
variable (anp : Anp)

def Store.outstanding (s : Store) : List (CreationJournal ⊕ UpdateJournal) :=
  s.transactions.entries.map .inl ++ s.updateTransactions.entries.map .inr

def refreshSummary (did : String) (record : IdentityRecord) : Tx Unit := do
  let registry ← readRegistry
  let _ ← recoverSummary registry did record
  return ()

/-- The secrets of a journal and its identity file are removed. -/
def clearIdentity (journal : CreationJournal) : Tx Unit := do
  deleteSecrets journal.secretRefs
  removeIdentity journal.identityId

def unregister (journal : CreationJournal) : Tx Unit := do
  let registry ← readRegistry
  let _ ← dropSummary registry journal
  return ()

/-- Discards the pending revision that a Cleanup journal names. -/
def clearPending (journal : UpdateJournal) : Tx Unit := do
  let record ← readIdentity anp journal.identityId
  if record.Pends journal.revisionId then do
    let _ ← persistRecord { record with pendingRevision := none }
    return ()
  else return ()

/-- What recovery does for a creation journal before it removes the journal, with the registry read from
the store. -/
def settleJournal (journal : CreationJournal) : Tx Unit :=
  match journal.kind with
  | .stateTransition => do
    let record ← journalledRecord anp journal
    refreshSummary journal.did record
  | .rootImport => do
    let record ← journalledRecord anp journal
    if rootImportCommitted record then refreshSummary journal.did record else deleteSecrets journal.secretRefs
  | .namespaceDelete => do
    clearIdentity journal
    unregister journal
  | .create => do
    let registry ← readRegistry
    settleCreate anp registry journal

def settleUpdateJournal (journal : UpdateJournal) : Tx Unit :=
  match journal.kind with
  | .prepare => do
    let record ← readIdentity anp journal.identityId
    recoverPrepare record journal
  | .cleanup => do
    clearPending anp journal
    deleteSecrets journal.secretRefs

def settle : CreationJournal ⊕ UpdateJournal → Tx Unit
  | .inl journal => settleJournal anp journal
  | .inr journal => settleUpdateJournal anp journal

def removeEntry : CreationJournal ⊕ UpdateJournal → Write
  | .inl journal => .removeJournal journal.transactionId
  | .inr journal => .removeUpdateJournal journal.revisionId

def settleAndRemove (entry : CreationJournal ⊕ UpdateJournal) : Tx Unit := do
  settle anp entry
  Program.write (removeEntry entry)

/-! ## The files that settling writes -/

/-- The writes that settling a journal is made of: no journal is touched and no secret is stored. -/
def Write.Settles : Write → Prop
  | .registry _ | .identity _ | .removeIdentity _ | .deleteSecret _ => True
  | _ => False

def Write.KeepsRegistry : Write → Prop
  | .registry _ => False
  | _ => True

def Write.KeepsIdentities : Write → Prop
  | .identity _ | .removeIdentity _ => False
  | _ => True

def Write.KeepsSecrets : Write → Prop
  | .seal _ _ | .deleteSecret _ => False
  | _ => True

section
variable {α : Type} {p : Tx α}

theorem registry_kept (issues : Issues Write.KeepsRegistry p) (n : Nat) (s : Store) :
    (p.crash n s).registry = s.registry :=
  issues.frame Store.registry (fun t w kept => by cases w <;> first | exact kept.elim | rfl) n s

theorem identities_kept (issues : Issues Write.KeepsIdentities p) (n : Nat) (s : Store) :
    (p.crash n s).identities = s.identities :=
  issues.frame Store.identities (fun t w kept => by cases w <;> first | exact kept.elim | rfl) n s

theorem secrets_kept (issues : Issues Write.KeepsSecrets p) (n : Nat) (s : Store) :
    (p.crash n s).secrets = s.secrets :=
  issues.frame Store.secrets (fun t w kept => by cases w <;> first | exact kept.elim | rfl) n s

theorem registry_kept_final (issues : Issues Write.KeepsRegistry p) (s : Store) : (p.final s).registry = s.registry := by
  rw [← crash_all (Nat.le_refl _), registry_kept issues]

end

theorem transactions_settles (s : Store) (w : Write) (settles : w.Settles) :
    (Medium.apply s w).transactions = s.transactions := by
  cases w <;> first | exact settles.elim | rfl

theorem outstanding_settles (s : Store) (w : Write) (settles : w.Settles) : (Medium.apply s w).outstanding = s.outstanding := by
  cases w <;> first | exact settles.elim | rfl

section
variable {P : Write → Prop}

theorem deleteSecrets_issues {refs : List SecretRef} (deletes : ∀ ref ∈ refs, P (.deleteSecret ref)) :
    Issues P (deleteSecrets refs) := by
  induction refs with
  | nil => exact .pure ()
  | cons ref rest ih =>
    exact .bind (.write (deletes ref List.mem_cons_self))
      (fun _ => ih (fun r inside => deletes r (List.mem_cons_of_mem _ inside)))

theorem readIdentity_issues (id : String) : Issues P (readIdentity anp id) := .bind .get (fun _ => .lift _)

theorem readRegistry_issues : Issues P readRegistry := .bind .get (fun _ => .pure _)

theorem journalledRecord_issues (journal : CreationJournal) : Issues P (journalledRecord anp journal) :=
  .bind (readIdentity_issues anp _) (fun _ => .bind (.lift _) (fun _ => .pure _))

theorem refreshSummary_issues (registers : ∀ registry, P (.registry registry)) (did : String) (record : IdentityRecord) :
    Issues P (refreshSummary did record) := by
  refine .bind readRegistry_issues (fun registry => .bind ?_ (fun _ => .pure _))
  unfold recoverSummary
  split
  · exact .bind (.lift _) (fun _ => .bind (.write (registers _)) (fun _ => .pure _))
  · exact .pure _

theorem unregister_issues (registers : ∀ registry, P (.registry registry)) (journal : CreationJournal) :
    Issues P (unregister journal) := by
  refine .bind readRegistry_issues (fun registry => .bind ?_ (fun _ => .pure _))
  unfold dropSummary
  split
  · exact .bind (.lift _) (fun _ => .bind (.write (registers _)) (fun _ => .pure _))
  · exact .pure _

theorem clearIdentity_issues {journal : CreationJournal} (deletes : ∀ ref ∈ journal.secretRefs, P (.deleteSecret ref))
    (removes : P (.removeIdentity journal.identityId)) : Issues P (clearIdentity journal) :=
  .bind (deleteSecrets_issues deletes) (fun _ => .write removes)

theorem persistRecord_issues (writes : ∀ record, P (.identity record)) (record : IdentityRecord) :
    Issues P (persistRecord record) :=
  .bind (.lift _) (fun _ => .bind (.write (writes _)) (fun _ => .pure _))

theorem clearPending_issues (writes : ∀ record, P (.identity record)) (journal : UpdateJournal) :
    Issues P (clearPending anp journal) := by
  refine .bind (readIdentity_issues anp _) (fun record => ?_)
  split
  · exact .bind (persistRecord_issues writes _) (fun _ => .pure _)
  · exact .pure _

theorem settleCreate_issues (journal : CreationJournal) (deletes : ∀ ref ∈ journal.secretRefs, P (.deleteSecret ref))
    (removes : P (.removeIdentity journal.identityId)) (writes : ∀ record, P (.identity record))
    (registry : IdentityRegistry) : Issues P (settleCreate anp registry journal) := by
  unfold settleCreate
  split
  · refine .bind (journalledRecord_issues anp _) (fun record => ?_)
    split
    · exact .write (writes _)
    · exact .pure _
  · exact clearIdentity_issues deletes removes

end

theorem settle_issues (entry : CreationJournal ⊕ UpdateJournal) : Issues Write.Settles (settle anp entry) := by
  rcases entry with journal | journal
  · change Issues Write.Settles (settleJournal anp journal)
    unfold settleJournal
    cases journal.kind with
    | stateTransition =>
      exact .bind (journalledRecord_issues anp _) (fun _ => refreshSummary_issues (fun _ => trivial) _ _)
    | rootImport =>
      refine .bind (journalledRecord_issues anp _) (fun record => ?_)
      split
      · exact refreshSummary_issues (fun _ => trivial) _ _
      · exact deleteSecrets_issues (fun _ _ => trivial)
    | namespaceDelete =>
      exact .bind (clearIdentity_issues (fun _ _ => trivial) trivial) (fun _ => unregister_issues (fun _ => trivial) _)
    | create =>
      exact .bind readRegistry_issues
        (fun _ => settleCreate_issues anp _ (fun _ _ => trivial) trivial (fun _ => trivial) _)
  · change Issues Write.Settles (settleUpdateJournal anp journal)
    unfold settleUpdateJournal
    cases journal.kind with
    | prepare =>
      refine .bind (readIdentity_issues anp _) (fun record => ?_)
      unfold recoverPrepare
      split
      · exact .pure _
      · exact deleteSecrets_issues (fun _ _ => trivial)
    | cleanup =>
      exact .bind (clearPending_issues anp (fun _ => trivial) _) (fun _ => deleteSecrets_issues (fun _ _ => trivial))

/-! ## Recovery as a replay -/

section
variable {s : Store} {registry r : IdentityRegistry} {journal : CreationJournal}

private theorem recoverSummary_registry {did : String} {record : IdentityRecord} (current : s.registry = registry)
    (returned : (recoverSummary registry did record).result s = .ok r) :
    ((recoverSummary registry did record).final s).registry = r := by
  unfold recoverSummary at returned ⊢
  split at returned
  · rename_i different
    rw [if_pos different]
    obtain ⟨next, put, rest⟩ := result_bind returned
    rw [final_bind _ put]
    cases rest
    rfl
  · rename_i same
    rw [if_neg same]
    cases returned
    exact current

private theorem dropSummary_registry (current : s.registry = registry)
    (returned : (dropSummary registry journal).result s = .ok r) :
    ((dropSummary registry journal).final s).registry = r := by
  unfold dropSummary at returned ⊢
  split at returned
  · rename_i named
    rw [if_pos named]
    obtain ⟨next, dropped, rest⟩ := result_bind returned
    rw [final_bind _ dropped]
    cases rest
    rfl
  · rename_i absent
    rw [if_neg absent]
    cases returned
    exact current

/-- Reading the registry back gives the value that was carried along. -/
private theorem remove_then_read {p : Tx IdentityRegistry} (id : String)
    (carried : ∀ r, p.result s = .ok r → (p.final s).registry = r) :
    (p >>= fun registry => removeJournal id >>= fun _ => Pure.pure registry) s =
      (p >>= fun _ => Program.write (.removeJournal id) >>= fun _ => readRegistry) s := by
  refine bind_congr rfl (fun r returned => ?_)
  rw [← carried r returned]
  rfl

private theorem recoverJournal_run (s : Store) (journal : CreationJournal) :
    recoverJournal anp s.registry journal s = (settleAndRemove anp (.inl journal) >>= fun _ => readRegistry) s := by
  have read : (journalledRecord anp journal).final s = s :=
    Issues.final_eq (journalledRecord_issues anp journal) s
  cases kind : journal.kind with
  | stateTransition =>
    simp only [recoverJournal, settleAndRemove, settle, settleJournal, kind, bind_assoc, recoverStateTransition,
      refreshSummary, pure_bind]
    refine bind_congr rfl (fun record _ => ?_)
    rw [read]
    exact remove_then_read _ (fun r => recoverSummary_registry rfl)
  | rootImport =>
    simp only [recoverJournal, settleAndRemove, settle, settleJournal, kind, bind_assoc, recoverRootImport,
      settleRootImport]
    refine bind_congr rfl (fun record _ => ?_)
    rw [read]
    by_cases committed : rootImportCommitted record
    · simp only [committed, if_true, refreshSummary, bind_assoc, pure_bind]
      exact remove_then_read _ (fun r => recoverSummary_registry rfl)
    · simp only [committed, Bool.false_eq_true, if_false, bind_assoc, pure_bind]
      refine bind_congr rfl (fun _ _ => ?_)
      rw [← registry_kept_final (deleteSecrets_issues (fun _ _ => trivial)) s]
      rfl
  | namespaceDelete =>
    simp only [recoverJournal, settleAndRemove, settle, settleJournal, kind, bind_assoc, recoverNamespaceDelete,
      clearIdentity, unregister, pure_bind]
    refine bind_congr rfl (fun _ _ => ?_)
    rw [← registry_kept_final (deleteSecrets_issues (fun _ _ => trivial)) s]
    refine bind_congr rfl (fun _ _ => ?_)
    exact remove_then_read _ (fun r => dropSummary_registry rfl)
  | create =>
    simp only [recoverJournal, settleAndRemove, settle, settleJournal, kind, bind_assoc, recoverCreate]
    have kept := registry_kept_final (settleCreate_issues anp journal (fun _ _ => trivial) trivial
      (fun _ => trivial) s.registry) s
    refine (bind_congr rfl (fun _ _ => ?_)).trans (rfl : _ = (settleCreate anp s.registry journal >>= _) s)
    generalize (settleCreate anp s.registry journal).final s = t at kept ⊢
    rw [← kept]
    rfl

end

private theorem recoverUpdateJournal_run (s : Store) (journal : UpdateJournal) :
    recoverUpdateJournal anp journal s = settleAndRemove anp (.inr journal) s := by
  have read : (readIdentity anp journal.identityId).final s = s :=
    Issues.final_eq (readIdentity_issues anp journal.identityId) s
  cases kind : journal.kind with
  | prepare =>
    simp only [recoverUpdateJournal, settleAndRemove, settle, settleUpdateJournal, settleUpdate, kind, bind_assoc]
    rfl
  | cleanup =>
    simp only [recoverUpdateJournal, settleAndRemove, settle, settleUpdateJournal, settleUpdate, clearPending, kind,
      bind_assoc]
    refine bind_congr rfl (fun record _ => ?_)
    rw [read]
    unfold recoverCleanup
    by_cases pends : record.Pends journal.revisionId
    · simp only [pends, if_true, bind_assoc, pure_bind]
      rfl
    · simp only [pends, if_false, pure_bind]
      rfl

private theorem recoverJournals_run (s : Store) (journals : List CreationJournal) :
    recoverJournals anp s.registry journals s = replay (settleAndRemove anp) (journals.map .inl) s := by
  induction journals generalizing s with
  | nil => rfl
  | cons journal rest ih =>
    unfold recoverJournals
    rw [bind_congr (g := fun registry => recoverJournals anp registry rest) (recoverJournal_run anp s journal)
      (fun _ _ => rfl), bind_assoc]
    exact bind_congr rfl (fun _ _ => ih _)

private theorem recoverUpdateJournalList_run (s : Store) (journals : List UpdateJournal) :
    recoverUpdateJournalList anp journals s = replay (settleAndRemove anp) (journals.map .inr) s := by
  induction journals generalizing s with
  | nil => rfl
  | cons journal rest ih =>
    unfold recoverUpdateJournalList
    exact bind_congr (recoverUpdateJournal_run anp s journal) (fun _ _ => ih _)

/-- A creation journal is settled without touching the update journals. -/
private theorem updates_kept (journals : List CreationJournal) (s : Store) :
    ((replay (settleAndRemove anp) (journals.map .inl)).final s).updateTransactions = s.updateTransactions := by
  have issues : Issues (fun w => w.Settles ∨ ∃ id, w = .removeJournal id)
      (replay (settleAndRemove anp) (journals.map .inl)) := by
    refine Issues.replay (fun entry inside => ?_)
    obtain ⟨journal, -, rfl⟩ := List.mem_map.mp inside
    exact .bind ((settle_issues anp _).mono (fun _ => .inl)) (fun _ => .write (.inr ⟨_, rfl⟩))
  refine issues.frame_final Store.updateTransactions (fun t w kind => ?_) s
  rcases kind with settles | ⟨id, rfl⟩
  · cases w <;> first | exact settles.elim | rfl
  · rfl

theorem recover_run (s : Store) :
    recover anp s = (drain Store.outstanding (settleAndRemove anp) >>= fun _ => readRegistry) s := by
  change (recoverJournals anp s.registry s.transactions.entries >>= fun _ =>
    recoverUpdateJournals anp >>= fun _ => readRegistry) s =
      (replay (settleAndRemove anp) s.outstanding >>= fun _ => readRegistry) s
  unfold Store.outstanding
  rw [replay_append, bind_assoc]
  refine bind_congr (recoverJournals_run anp s _) (fun _ _ => ?_)
  have kept := updates_kept anp s.transactions.entries s
  rw [show (recoverJournals anp s.registry s.transactions.entries).final s = _ from
    congrArg (fun o : Outcome Write DidError Unit => applyAll s o.writes) (recoverJournals_run anp s _)]
  refine bind_congr ?_ (fun _ _ => rfl)
  rw [← kept]
  exact recoverUpdateJournalList_run anp _ _

/-! ## Settling a journal again -/

/-- The store without the secrets of a list. -/
def Store.eraseSecrets (s : Store) (refs : List SecretRef) : Store :=
  { s with secrets := fun ref => if ref ∈ refs then none else s.secrets ref }

theorem applyAll_deleteSecrets (s : Store) (refs : List SecretRef) :
    applyAll s (refs.map Write.deleteSecret) = s.eraseSecrets refs := by
  induction refs generalizing s with
  | nil => simp [Store.eraseSecrets]
  | cons ref rest ih =>
    rw [List.map_cons, applyAll_cons, ih]
    simp only [apply_deleteSecret, Store.eraseSecrets]
    congr 1
    funext other
    by_cases same : other = ref <;> simp [same, Function.update]

theorem deleteSecrets_run (refs : List SecretRef) (s : Store) :
    (deleteSecrets refs).writes s = refs.map .deleteSecret ∧ (deleteSecrets refs).result s = .ok () := by
  induction refs generalizing s with
  | nil => exact ⟨rfl, rfl⟩
  | cons ref rest ih =>
    obtain ⟨writes, result⟩ := ih (Medium.apply s (.deleteSecret ref))
    exact ⟨congrArg (Write.deleteSecret ref :: ·) writes, result⟩

theorem deleteSecrets_final (refs : List SecretRef) (s : Store) : (deleteSecrets refs).final s = s.eraseSecrets refs := by
  rw [Program.final, (deleteSecrets_run refs s).1, applyAll_deleteSecrets]

@[simp] theorem writes_deleteSecrets_bind {α : Type} (refs : List SecretRef) (f : Unit → Tx α) (s : Store) :
    (deleteSecrets refs >>= f).writes s = refs.map .deleteSecret ++ (f ()).writes (s.eraseSecrets refs) := by
  rw [(bind_ok f (deleteSecrets_run refs s).2).1, (deleteSecrets_run refs s).1, deleteSecrets_final]

@[simp] theorem result_deleteSecrets_bind {α : Type} (refs : List SecretRef) (f : Unit → Tx α) (s : Store) :
    (deleteSecrets refs >>= f).result s = (f ()).result (s.eraseSecrets refs) := by
  rw [(bind_ok f (deleteSecrets_run refs s).2).2, deleteSecrets_final]

theorem clearIdentity_run (journal : CreationJournal) (s : Store) :
    (clearIdentity journal).writes s = journal.secretRefs.map .deleteSecret ++ [.removeIdentity journal.identityId] ∧
      (clearIdentity journal).result s = .ok () := by
  obtain ⟨writes, result⟩ := deleteSecrets_run journal.secretRefs s
  obtain ⟨whole, returned⟩ := bind_ok (fun _ => removeIdentity journal.identityId) result
  exact ⟨by rw [clearIdentity, whole, writes]; rfl, returned⟩

/-- A write that removes a secret or an identity file. -/
def Write.Erases : Write → Prop
  | .deleteSecret _ | .removeIdentity _ => True
  | _ => False

private theorem erases_idempotent {w : Write} (erases : w.Erases) (s : Store) :
    Medium.apply (Medium.apply s w) w = Medium.apply s w := by
  cases w with
  | deleteSecret ref | removeIdentity id => simp
  | _ => exact erases.elim

private theorem update_none_comm {α β : Type} [DecidableEq α] (f : α → Option β) (a b : α) :
    Function.update (Function.update f a none) b none = Function.update (Function.update f b none) a none := by
  by_cases same : a = b
  · rw [same]
  · exact Function.update_comm same none none f

private theorem erases_commute {v w : Write} (left : v.Erases) (right : w.Erases) (s : Store) :
    Medium.apply (Medium.apply s v) w = Medium.apply (Medium.apply s w) v := by
  cases v with
  | deleteSecret ref =>
    cases w with
    | deleteSecret other =>
      simp only [apply_deleteSecret]
      rw [update_none_comm]
    | removeIdentity id => rfl
    | _ => exact right.elim
  | removeIdentity id =>
    cases w with
    | deleteSecret other => rfl
    | removeIdentity other =>
      simp only [apply_removeIdentity]
      rw [update_none_comm]
    | _ => exact right.elim
  | _ => exact left.elim

private theorem erasing_stable {p : Tx Unit} {ws : List Write} (run : ∀ t, p.writes t = ws ∧ p.result t = .ok ())
    (erases : ∀ w ∈ ws, w.Erases) (s : Store) : Stable p s :=
  .of_absorbing (fun t => (run t).1) (fun t => (run t).2) (fun w inside => erases_idempotent (erases w inside))
    (fun v left w right => erases_commute (erases v left) (erases w right))

private theorem deleteSecrets_stable (refs : List SecretRef) (s : Store) : Stable (deleteSecrets refs) s := by
  refine erasing_stable (deleteSecrets_run refs) (fun w inside => ?_) s
  obtain ⟨ref, -, rfl⟩ := List.mem_map.mp inside
  trivial

private theorem clearIdentity_stable (journal : CreationJournal) (s : Store) : Stable (clearIdentity journal) s := by
  refine erasing_stable (clearIdentity_run journal) (fun w inside => ?_) s
  rcases List.mem_append.mp inside with secret | file
  · obtain ⟨ref, -, rfl⟩ := List.mem_map.mp secret
    trivial
  · rw [List.mem_singleton.mp file]
    trivial

/-- One write at most, after which the program finds nothing left to do. -/
private theorem settled_stable {p : Tx Unit} {s : Store} (returned : p.result s = .ok ())
    (short : (p.writes s).length ≤ 1) (again : p.writes (p.final s) = [] ∧ p.result (p.final s) = .ok ()) :
    Stable p s := by
  refine .of_short short (again.2.trans returned.symm) ?_
  rw [Program.final, again.1, applyAll_nil]

section
variable {anp} {s : Store}

variable {did : String} {record : IdentityRecord} {journal : CreationJournal} {registry : IdentityRegistry}

theorem refreshSummary_current (current : s.registry.identities did = some record.summary) :
    (refreshSummary did record).writes s = [] ∧ (refreshSummary did record).result s = .ok () := by
  have still : recoverSummary s.registry did record = Pure.pure s.registry := by
    unfold recoverSummary
    rw [if_neg (not_not.mpr current)]
  change (recoverSummary s.registry did record >>= fun _ => Pure.pure ()).writes s = [] ∧
    (recoverSummary s.registry did record >>= fun _ => Pure.pure ()).result s = .ok ()
  rw [still]
  exact ⟨rfl, rfl⟩

theorem refreshSummary_moved (moved : s.registry.identities did ≠ some record.summary)
    (returned : (refreshSummary did record).result s = .ok ()) :
    ∃ registry, s.registry.put did record.summary = .ok registry ∧
      (refreshSummary did record).writes s = [.registry registry] := by
  have run : refreshSummary did record s = ((lift (s.registry.put did record.summary) >>= fun registry =>
      writeRegistry registry >>= fun _ => Pure.pure registry) >>= fun _ => Pure.pure ()) s := by
    change (recoverSummary s.registry did record >>= fun _ => Pure.pure ()) s = _
    unfold recoverSummary
    rw [if_pos moved]
    rfl
  simp only [Program.result, Program.writes] at returned ⊢
  rw [run] at returned ⊢
  cases put : s.registry.put did record.summary with
  | error e => rw [put] at returned; cases returned
  | ok registry => exact ⟨registry, rfl, rfl⟩

private theorem refreshSummary_stable (returned : (refreshSummary did record).result s = .ok ()) :
    Stable (refreshSummary did record) s := by
  by_cases current : s.registry.identities did = some record.summary
  · exact .of_silent (refreshSummary_current current).1
  · obtain ⟨registry, put, writes⟩ := refreshSummary_moved current returned
    refine settled_stable returned (by simp [writes]) (refreshSummary_current ?_)
    simp only [IdentityRegistry.put, except_bind_ok, Except.ok.injEq] at put
    obtain ⟨generation, -, rfl⟩ := put
    simp [Program.final, writes]

theorem unregister_absent (absent : ¬ s.registry.Names journal.did journal.identityId) :
    (unregister journal).writes s = [] ∧ (unregister journal).result s = .ok () := by
  have still : dropSummary s.registry journal = Pure.pure s.registry := by
    unfold dropSummary
    rw [if_neg absent]
  change (dropSummary s.registry journal >>= fun _ => Pure.pure ()).writes s = [] ∧
    (dropSummary s.registry journal >>= fun _ => Pure.pure ()).result s = .ok ()
  rw [still]
  exact ⟨rfl, rfl⟩

theorem unregister_named (named : s.registry.Names journal.did journal.identityId)
    (returned : (unregister journal).result s = .ok ()) :
    ∃ registry, s.registry.drop journal.did = .ok registry ∧ (unregister journal).writes s = [.registry registry] := by
  have run : unregister journal s = ((lift (s.registry.drop journal.did) >>= fun registry =>
      writeRegistry registry >>= fun _ => Pure.pure registry) >>= fun _ => Pure.pure ()) s := by
    change (dropSummary s.registry journal >>= fun _ => Pure.pure ()) s = _
    unfold dropSummary
    rw [if_pos named]
    rfl
  simp only [Program.result, Program.writes] at returned ⊢
  rw [run] at returned ⊢
  cases dropped : s.registry.drop journal.did with
  | error e => rw [dropped] at returned; cases returned
  | ok registry => exact ⟨registry, rfl, rfl⟩

private theorem unregister_stable (returned : (unregister journal).result s = .ok ()) :
    Stable (unregister journal) s := by
  by_cases named : s.registry.Names journal.did journal.identityId
  · obtain ⟨registry, dropped, writes⟩ := unregister_named named returned
    refine settled_stable returned (by simp [writes]) (unregister_absent ?_)
    simp only [IdentityRegistry.drop, except_bind_ok, Except.ok.injEq] at dropped
    obtain ⟨generation, -, rfl⟩ := dropped
    rintro ⟨summary, found, -⟩
    simp [Program.final, writes] at found
  · exact .of_silent (unregister_absent named).1

theorem clearPending_clear {journal : UpdateJournal} (read : s.readIdentity anp journal.identityId = .ok record)
    (clear : ¬ record.Pends journal.revisionId) :
    (clearPending anp journal).writes s = [] ∧ (clearPending anp journal).result s = .ok () := by
  simp only [clearPending, Program.writes, Program.result]
  rw [readIdentity_bind read, if_neg clear]
  exact ⟨rfl, rfl⟩

theorem clearPending_pending {journal : UpdateJournal} (read : s.readIdentity anp journal.identityId = .ok record)
    (pends : record.Pends journal.revisionId) (returned : (clearPending anp journal).result s = .ok ()) :
    (clearPending anp journal).writes s =
      [.identity { record with pendingRevision := none, generation := record.generation + 1 }] := by
  simp only [clearPending, Program.writes, Program.result] at returned ⊢
  rw [readIdentity_bind read, if_pos pends] at returned ⊢
  unfold persistRecord checkedSucc at returned ⊢
  by_cases room : record.generation + 1 < 2 ^ 64
  · rw [if_pos room]
    rfl
  · rw [if_neg room] at returned
    cases returned

private theorem clearPending_done {journal : UpdateJournal} (returned : (clearPending anp journal).result s = .ok ()) :
    ∃ record, ((clearPending anp journal).final s).readIdentity anp journal.identityId = .ok record ∧
      ¬ record.Pends journal.revisionId := by
  obtain ⟨record, read, -⟩ := result_bind returned
  change s.readIdentity anp journal.identityId = .ok record at read
  by_cases pends : record.Pends journal.revisionId
  · have writes := clearPending_pending read pends returned
    refine ⟨_, readIdentity_again { record with pendingRevision := none, generation := record.generation + 1 } read
      (by constructor <;> rfl) rfl (.inl rfl) (by simp [Program.final, writes, readIdentity_named read]), ?_⟩
    rintro ⟨pending, found, -⟩
    cases found
  · have still : (clearPending anp journal).final s = s := by simp [Program.final, (clearPending_clear read pends).1]
    exact ⟨record, by rw [still]; exact read, pends⟩

private theorem clearPending_stable {journal : UpdateJournal} (returned : (clearPending anp journal).result s = .ok ()) :
    Stable (clearPending anp journal) s := by
  obtain ⟨record, reread, clear⟩ := clearPending_done returned
  refine settled_stable returned ?_ (clearPending_clear reread clear)
  obtain ⟨before, read, -⟩ := result_bind returned
  by_cases pends : before.Pends journal.revisionId
  · simp [clearPending_pending read pends returned]
  · simp [(clearPending_clear read pends).1]

theorem journalledRecord_bind {α : Type} (read : s.readIdentity anp journal.identityId = .ok record)
    (same : record.did = journal.did) (f : IdentityRecord → Tx α) : (journalledRecord anp journal >>= f) s = f record s := by
  simp only [journalledRecord, bind_assoc]
  rw [readIdentity_bind read]
  simp only [reject, same, ne_eq, not_true_eq_false, if_false]
  rfl

theorem journalledRecord_ok : (journalledRecord anp journal).result s = .ok record ↔
      s.readIdentity anp journal.identityId = .ok record ∧ record.did = journal.did := by
  constructor
  · intro returned
    obtain ⟨found, read, rest⟩ := result_bind returned
    obtain ⟨⟨⟩, checked, rest⟩ := result_bind rest
    cases rest
    exact ⟨read, by simpa using checked⟩
  · rintro ⟨read, same⟩
    have run := journalledRecord_bind read same Pure.pure
    simp only [bind_pure] at run
    rw [Program.result, run]
    rfl

private theorem settleCreate_active (named : registry.Names journal.did journal.identityId)
    (read : s.readIdentity anp journal.identityId = .ok record) (same : record.did = journal.did)
    (active : record.state ≠ .creating) :
    (settleCreate anp registry journal).writes s = [] ∧ (settleCreate anp registry journal).result s = .ok () := by
  simp only [settleCreate, named, if_true, Program.writes, Program.result]
  rw [journalledRecord_bind read same, if_neg active]
  exact ⟨rfl, rfl⟩

private theorem settleCreate_creating (named : registry.Names journal.did journal.identityId)
    (read : s.readIdentity anp journal.identityId = .ok record) (same : record.did = journal.did)
    (creating : record.state = .creating) :
    (settleCreate anp registry journal).writes s = [.identity { record with state := .active }] := by
  simp only [settleCreate, named, if_true, Program.writes]
  rw [journalledRecord_bind read same, if_pos creating]
  rfl

private theorem settleCreate_stable (returned : (settleCreate anp registry journal).result s = .ok ()) :
    Stable (settleCreate anp registry journal) s := by
  by_cases named : registry.Names journal.did journal.identityId
  · have start := returned
    unfold settleCreate at start
    rw [if_pos named] at start
    obtain ⟨record, journalled, -⟩ := result_bind start
    obtain ⟨read, same⟩ := journalledRecord_ok.mp journalled
    by_cases creating : record.state = .creating
    · have writes := settleCreate_creating named read same creating
      have reread : ((settleCreate anp registry journal).final s).readIdentity anp journal.identityId =
          .ok { record with state := .active } :=
        readIdentity_again _ read (by constructor <;> rfl) rfl (.inr rfl)
          (by simp [Program.final, writes, readIdentity_named read])
      exact settled_stable returned (by simp [writes]) (settleCreate_active named reread same (by simp))
    · exact .of_silent (settleCreate_active named read same creating).1
  · unfold settleCreate
    rw [if_neg named]
    exact clearIdentity_stable journal s

/-- What was read before is read again, wherever the rest of the program stops. -/
private theorem read_stable {α : Type} {p : Tx α} {f : α → Tx Unit} {a : α} (silent : Issues (fun _ => False) p)
    (returned : p.result s = .ok a) (rest : Stable (f a) s) (reread : ∀ m, p.result ((f a).crash m s) = .ok a) :
    Stable (p >>= f) s := by
  refine .bind returned (.of_silent (silent.writes_nil s)) (by rwa [silent.final_eq]) (fun m => ?_)
  rw [silent.final_eq]
  exact ⟨reread m, silent.final_eq _⟩

theorem clearIdentity_final (journal : CreationJournal) (s : Store) : (clearIdentity journal).final s =
    { s.eraseSecrets journal.secretRefs with identities := Function.update s.identities journal.identityId none } := by
  rw [Program.final, (clearIdentity_run journal s).1, applyAll_append, applyAll_deleteSecrets]
  rfl

private theorem clearIdentity_again {t : Store} (secrets : t.secrets = ((clearIdentity journal).final s).secrets)
    (identities : t.identities = ((clearIdentity journal).final s).identities) : (clearIdentity journal).final t = t := by
  rw [clearIdentity_final] at secrets identities ⊢
  apply Store.ext
  · rfl
  · simp [identities]
  · funext ref
    by_cases listed : ref ∈ journal.secretRefs <;> simp [secrets, Store.eraseSecrets, listed]
  all_goals rfl

private theorem journalled_stable {f : IdentityRecord → Tx Unit}
    (files : ∀ record, Issues Write.KeepsIdentities (f record))
    (stable : ∀ record, (f record).result s = .ok () → Stable (f record) s)
    (returned : (journalledRecord anp journal >>= f).result s = .ok ()) : Stable (journalledRecord anp journal >>= f) s := by
  obtain ⟨record, journalled, rest⟩ := result_bind returned
  rw [Issues.final_eq (journalledRecord_issues anp journal)] at rest
  refine read_stable (journalledRecord_issues anp journal) journalled (stable record rest) (fun m => ?_)
  obtain ⟨read, same⟩ := journalledRecord_ok.mp journalled
  refine journalledRecord_ok.mpr ⟨?_, same⟩
  rw [readIdentity_congr anp (congrFun (identities_kept (files record) m s) _), read]

private theorem settleJournal_stable (returned : (settleJournal anp journal).result s = .ok ()) :
    Stable (settleJournal anp journal) s := by
  unfold settleJournal at returned ⊢
  cases kind : journal.kind with
  | stateTransition =>
    rw [kind] at returned
    exact journalled_stable (fun record => refreshSummary_issues (fun _ => trivial) _ _)
      (fun record => refreshSummary_stable) returned
  | rootImport =>
    rw [kind] at returned
    refine journalled_stable (fun record => ?_) (fun record => ?_) returned
    · split
      · exact refreshSummary_issues (fun _ => trivial) _ _
      · exact deleteSecrets_issues (fun _ _ => trivial)
    · split
      · exact refreshSummary_stable
      · exact fun _ => deleteSecrets_stable _ s
  | namespaceDelete =>
    rw [kind] at returned
    obtain ⟨⟨⟩, cleared, rest⟩ := result_bind returned
    refine .bind cleared (clearIdentity_stable journal s) (unregister_stable rest) (fun m => ?_)
    exact ⟨(clearIdentity_run journal _).2, clearIdentity_again
      (secrets_kept (unregister_issues (fun _ => trivial) journal) m _)
      (identities_kept (unregister_issues (fun _ => trivial) journal) m _)⟩
  | create =>
    rw [kind] at returned
    refine read_stable readRegistry_issues rfl (settleCreate_stable returned) (fun m => ?_)
    exact congrArg Except.ok
      (registry_kept (settleCreate_issues anp _ (fun _ _ => trivial) trivial (fun _ => trivial) _) m s)

private theorem settleUpdateJournal_stable {journal : UpdateJournal}
    (returned : (settleUpdateJournal anp journal).result s = .ok ()) : Stable (settleUpdateJournal anp journal) s := by
  unfold settleUpdateJournal at returned ⊢
  cases kind : journal.kind with
  | prepare =>
    rw [kind] at returned
    obtain ⟨record, read, -⟩ := result_bind returned
    have issues : Issues Write.KeepsIdentities (recoverPrepare record journal) := by
      unfold recoverPrepare
      split
      · exact .pure _
      · exact deleteSecrets_issues (fun _ _ => trivial)
    refine read_stable (readIdentity_issues anp _) read ?_ (fun m => ?_)
    · unfold recoverPrepare
      split
      · exact .of_silent rfl
      · exact deleteSecrets_stable _ s
    · exact (readIdentity_congr anp (congrFun (identities_kept issues m s) _)).trans read
  | cleanup =>
    rw [kind] at returned
    obtain ⟨⟨⟩, cleared, -⟩ := result_bind returned
    obtain ⟨record, read, clear⟩ := clearPending_done cleared
    refine .bind cleared (clearPending_stable cleared) (deleteSecrets_stable _ _) (fun m => ?_)
    have issues : Issues Write.KeepsIdentities (deleteSecrets journal.secretRefs) :=
      deleteSecrets_issues (fun _ _ => trivial)
    have reread := (readIdentity_congr anp (congrFun (identities_kept issues m _) _)).trans read
    obtain ⟨silent, result⟩ := clearPending_clear reread clear
    exact ⟨result, by rw [Program.final, silent, applyAll_nil]⟩

end

/-! ## Restarting -/

/-- Removing the journal listed first leaves the rest of the list. -/
theorem outstanding_removeEntry {s : Store} {entry : CreationJournal ⊕ UpdateJournal}
    {rest : List (CreationJournal ⊕ UpdateJournal)} (listed : s.outstanding = entry :: rest) :
    (Medium.apply s (removeEntry entry)).outstanding = rest := by
  unfold Store.outstanding at listed ⊢
  cases files : s.transactions.entries with
  | cons journal more =>
    rw [files] at listed
    cases listed
    simp only [removeEntry, apply_removeJournal, Directory.erase_head files]
    rfl
  | nil =>
    rw [files, List.map_nil, List.nil_append] at listed
    cases updates : s.updateTransactions.entries with
    | nil => rw [updates] at listed; cases listed
    | cons journal more =>
      rw [updates] at listed
      cases listed
      simp only [removeEntry, apply_removeUpdateJournal, Directory.erase_head updates, files, List.map_nil, List.nil_append]

theorem settle_resumable : Resumable Store.outstanding (settleAndRemove anp) := by
  refine Resumable.of_stable (fun entry n s => ?_) (fun {s entry rest} listed => ?_) (fun entry s returned => ?_)
  · exact (settle_issues anp entry).frame Store.outstanding outstanding_settles n s
  · exact outstanding_removeEntry listed
  · cases entry with
    | inl journal => exact settleJournal_stable returned
    | inr journal => exact settleUpdateJournal_stable returned

/-- The journals of a store, settled one after another. -/
abbrev settleAll : Tx Unit := drain Store.outstanding (settleAndRemove anp)

/-- The writes that recovery is made of. -/
def Write.Recovers : Write → Prop
  | .registry _ | .identity _ | .removeIdentity _ | .deleteSecret _ | .removeJournal _ | .removeUpdateJournal _ => True
  | _ => False

theorem settleAndRemove_issues (entry : CreationJournal ⊕ UpdateJournal) :
    Issues Write.Recovers (settleAndRemove anp entry) := by
  refine .bind ((settle_issues anp entry).mono (fun w settles => ?_)) (fun _ => .write ?_)
  · cases w <;> first | exact settles.elim | trivial
  · cases entry <;> trivial

theorem settleAll_issues : Issues Write.Recovers (settleAll anp) :=
  .bind .get (fun _ => .replay (fun entry _ => settleAndRemove_issues anp entry))

theorem recover_writes (s : Store) : (recover anp).writes s = (settleAll anp).writes s := by
  rw [Program.writes, recover_run]
  change (settleAll anp >>= fun _ => readRegistry).writes s = _
  cases settled : (settleAll anp).result s with
  | error e => exact (bind_error _ settled).1
  | ok u => rw [(bind_ok _ settled).1]; exact List.append_nil _

theorem recover_final (s : Store) : (recover anp).final s = (settleAll anp).final s := by
  simp only [Program.final, recover_writes]

theorem recover_crash (n : Nat) (s : Store) : (recover anp).crash n s = (settleAll anp).crash n s := by
  simp only [Program.crash, recover_writes]

variable {anp} in
theorem recover_ok {s : Store} {registry : IdentityRegistry} : (recover anp).result s = .ok registry ↔
    (settleAll anp).result s = .ok () ∧ ((settleAll anp).final s).registry = registry := by
  rw [Program.result, recover_run]
  change (settleAll anp >>= fun _ => readRegistry).result s = _ ↔ _
  constructor
  · intro returned
    obtain ⟨⟨⟩, settled, rest⟩ := result_bind returned
    cases rest
    exact ⟨settled, rfl⟩
  · rintro ⟨settled, rfl⟩
    rw [(bind_ok _ settled).2]
    rfl

/-- Recovery that succeeds can be stopped after any of its writes, any number of times: run again it
returns the same registry and ends in the same store. -/
theorem recover_restartable (s : Store) (registry : IdentityRegistry) (stops : List Nat)
    (recovered : (recover anp).result s = .ok registry) :
    (recover anp).result (crashes (recover anp) stops s) = .ok registry ∧
      (recover anp).final (crashes (recover anp) stops s) = (recover anp).final s := by
  have restartable : Restartable (recover anp) := by
    intro t found n returned
    obtain ⟨settled, rfl⟩ := recover_ok.mp returned
    obtain ⟨again, same⟩ := (settle_resumable anp).restartable t () n settled
    rw [recover_crash, recover_final, recover_final, same]
    exact ⟨recover_ok.mpr ⟨again, by rw [same]⟩, rfl⟩
  exact restartable.crashes stops recovered

/-- An enrollment that stopped before its identity file was written. -/
def interruptedEnrollment : Store :=
  let ref : SecretRef := { identityId := "i", keyId := "did:web:a.b#k", role := .requestSigning, version := 1 }
  applyAll .empty [
    .journal { kind := .create, transactionId := "t", identityId := "i", did := "did:web:a.b", secretRefs := [ref],
               createdAt := "now" },
    .seal ref (Plain.key 1).val]

theorem recover_restartable_enrollment :
    (recover Plain.anp).result interruptedEnrollment = .ok interruptedEnrollment.registry ∧
      (recover Plain.anp).final (crashes (recover Plain.anp) [1, 2] interruptedEnrollment) =
        (recover Plain.anp).final interruptedEnrollment :=
  ⟨rfl, (recover_restartable Plain.anp interruptedEnrollment interruptedEnrollment.registry [1, 2] rfl).2⟩

end AnpIdentity
