import AnpIdentity.World

/-! Which secrets a deletion leaves behind. -/

namespace AnpIdentity
open Durable Program
variable (anp : Anp)

/-- The three ways to delete the identity of a DID. -/
inductive Deletion where
  | discardUnpublishedEnrollment (identityId : String)
  | deleteIdentityNamespace
  | deleteIdentityNamespaceDiscardingPending
  deriving Repr, DecidableEq

def Deletion.run (deletion : Deletion) (self : DidStore) (entropy : Entropy) (did : String) (generation : Nat) :
    Tx DidStore :=
  match deletion with
  | .discardUnpublishedEnrollment identityId => self.discardUnpublishedEnrollment anp entropy did identityId generation
  | .deleteIdentityNamespace => self.deleteIdentityNamespace anp entropy did generation
  | .deleteIdentityNamespaceDiscardingPending => self.deleteIdentityNamespaceDiscardingPending anp entropy did generation

/-- No secret of the identity is stored. -/
def Store.Erased (s : Store) (id : String) : Prop := ∀ ref, ref.identityId = id → s.secrets ref = none

/-! ## Recovery erases what a deletion journal lists -/

/-- A write that stores no secret. -/
def Write.SealsNothing : Write → Prop
  | .seal _ _ => False
  | _ => True

variable {ref : SecretRef} {journal : CreationJournal}

private theorem absent_kept (s : Store) (w : Write) (nothing : w.SealsNothing) (absent : s.secrets ref = none) :
    (Medium.apply s w).secrets ref = none := by
  cases w with
  | deleteSecret other =>
    by_cases same : ref = other
    · simp [same]
    · simpa [Function.update, same] using absent
  | «seal» => exact nothing.elim
  | _ => exact absent

private theorem recovers_sealsNothing (w : Write) (recovers : w.Recovers) : w.SealsNothing := by
  cases w <;> first | exact recovers.elim | trivial

/-- Recovery stores no secret. -/
theorem recover_absent {s : Store} (absent : s.secrets ref = none) : ((recover anp).final s).secrets ref = none := by
  rw [recover_final]
  exact ((settleAll_issues anp).mono recovers_sealsNothing).preserves_final (I := fun t => t.secrets ref = none)
    absent_kept absent

private theorem settle_erases (kind : journal.kind = .namespaceDelete) (listed : ref ∈ journal.secretRefs) {s : Store}
    (returned : (settleAndRemove anp (.inl journal)).result s = .ok ()) :
    ((settleAndRemove anp (.inl journal)).final s).secrets ref = none := by
  have shape : settle anp (.inl journal) = (clearIdentity journal >>= fun _ => unregister journal) := by
    simp only [settle, settleJournal, kind]
  obtain ⟨⟨⟩, settled, -⟩ := result_bind returned
  unfold settleAndRemove
  rw [final_bind _ settled, shape, final_bind _ (clearIdentity_run journal s).2]
  change ((unregister journal).final ((clearIdentity journal).final s)).secrets ref = none
  rw [← crash_all (Nat.le_refl _), secrets_kept (unregister_issues (fun _ => trivial) journal), clearIdentity_final]
  simp [Store.eraseSecrets, listed]

/-- Recovery that succeeds has erased every secret that a deletion journal lists. -/
theorem recover_erases {s : Store} {registry : IdentityRegistry} (recovered : (recover anp).result s = .ok registry)
    (outstanding : journal ∈ s.transactions) (kind : journal.kind = .namespaceDelete) (listed : ref ∈ journal.secretRefs) :
    ((recover anp).final s).secrets ref = none := by
  have inside : Sum.inl journal ∈ s.outstanding := List.mem_append_left _ (List.mem_map_of_mem outstanding)
  rw [recover_final]
  refine replay_establishes (G := fun t => t.secrets ref = none) inside
    (fun t returned => settle_erases anp kind listed returned) (fun entry t absent => ?_) (recover_ok.mp recovered).1
  exact ((settleAndRemove_issues anp entry).mono recovers_sealsNothing).preserves_final
    (I := fun t => t.secrets ref = none) absent_kept absent

/-! ## Deletions -/

section
variable {anp} {s : Store} {entropy : Entropy} {did : String} {record : IdentityRecord}

variable {registry : IdentityRegistry} {self : DidStore}

/-- The writes of a deletion that returns. -/
theorem deleteNamespace_ok (deleted : (deleteNamespace entropy registry did record).result s = .ok self) :
    ∃ next, registry.drop did = .ok next ∧ (deleteNamespace entropy registry did record).writes s =
      .journal (deletionJournal entropy record) :: (record.managedRefs.map .deleteSecret ++
        [.removeIdentity record.identityId, .registry next, .removeJournal entropy.transactionId]) := by
  simp only [deleteNamespace, writeJournal, removeIdentity, writeRegistry, removeJournal, result_write_bind,
    writes_write_bind, result_deleteSecrets_bind, writes_deleteSecrets_bind] at deleted ⊢
  cases dropped : registry.drop did with
  | error e => rw [dropped] at deleted; cases deleted
  | ok next => exact ⟨next, rfl, rfl⟩

/-- A deletion that returns has deleted the identity that the registry named. -/
theorem Deletion.run_ok {deletion : Deletion} {after : DidStore} {generation : Nat} {summary : IdentitySummary}
    (named : s.registry.identities did = some summary)
    (deleted : (deletion.run anp self entropy did generation).result s = .ok after) :
    ∃ record, s.readIdentity anp summary.identityId = .ok record ∧ record.did = did ∧
      deletion.run anp self entropy did generation s = deleteNamespace entropy s.registry did record s := by
  have inner : ∀ discard, (self.deleteIdentityNamespaceInner anp entropy did generation discard).result s = .ok after →
      ∃ record, s.readIdentity anp summary.identityId = .ok record ∧ record.did = did ∧
        self.deleteIdentityNamespaceInner anp entropy did generation discard s =
          deleteNamespace entropy s.registry did record s := by
    intro discard returned
    obtain ⟨registry, read, returned, run⟩ := Issues.peel readRegistry_issues returned
    cases read
    unfold DidStore.deleteIdentityNamespaceInner
    rw [run]
    split at returned
    · obtain ⟨⟨⟩, checked, -, -⟩ := Issues.peel (.lift _) returned
      simp [named, reject] at checked
    · rename_i current
      rw [if_neg current]
      obtain ⟨found, present, returned, run⟩ := Issues.peel (.lift _) returned
      obtain ⟨record, read, returned, next⟩ := Issues.peel (readIdentity_issues anp _) returned
      obtain ⟨⟨⟩, checked, -, last⟩ := Issues.peel (.lift _) returned
      have same : summary = found := by simpa [named] using present
      subst same
      refine ⟨record, read, ?_, run.trans (next.trans last)⟩
      by_contra different
      simp [reject, different] at checked
  cases deletion with
  | discardUnpublishedEnrollment identityId =>
    obtain ⟨registry, read, deleted, first⟩ := Issues.peel readRegistry_issues deleted
    cases read
    obtain ⟨⟨⟩, -, deleted, second⟩ := Issues.peel (.lift _) deleted
    obtain ⟨found, present, deleted, third⟩ := Issues.peel (.lift _) deleted
    obtain ⟨record, read, deleted, fourth⟩ := Issues.peel (readIdentity_issues anp _) deleted
    obtain ⟨⟨⟩, checked, -, last⟩ := Issues.peel (.lift _) deleted
    have same : summary = found := by simpa [named] using present
    subst same
    refine ⟨record, read, ?_, first.trans (second.trans (third.trans (fourth.trans last)))⟩
    by_contra different
    simp [reject, different] at checked
  | deleteIdentityNamespace => exact inner false deleted
  | deleteIdentityNamespaceDiscardingPending => exact inner true deleted

/-- Completing a record leaves its keys alone. -/
theorem readIdentity_keys {id : String} {stored : IdentityRecord} (found : s.identities id = some stored)
    (read : s.readIdentity anp id = .ok record) : record.keys = stored.keys ∧ record.managedRefs = stored.managedRefs := by
  obtain ⟨file, present, -, completed⟩ := readIdentity_ok.mp read
  cases found.symm.trans present
  obtain ⟨_, _, _, -, -, -, rfl⟩ := completeRecord_ok.mp completed
  exact ⟨rfl, rfl⟩

theorem managedRefs_named {record : IdentityRecord} {ref : SecretRef} (managed : ref ∈ record.managedRefs) :
    ref.identityId = record.identityId := by
  simp only [IdentityRecord.managedRefs, List.mem_map, List.mem_filter] at managed
  obtain ⟨key, -, rfl⟩ := managed
  rfl

private theorem deleteNamespace_secrets (deleted : (deleteNamespace entropy registry did record).result s = .ok self)
    (ref : SecretRef) : ((deleteNamespace entropy registry did record).final s).secrets ref =
      if ref ∈ record.managedRefs then none else s.secrets ref := by
  obtain ⟨next, -, writes⟩ := deleteNamespace_ok deleted
  rw [Program.final, writes, applyAll_cons, applyAll_append, applyAll_deleteSecrets]
  rfl

private theorem deleteNamespace_absent {ref : SecretRef} (absent : s.secrets ref = none) (n : Nat) :
    ((deleteNamespace entropy registry did record).crash n s).secrets ref = none := by
  have issues : Issues Write.SealsNothing (deleteNamespace entropy registry did record) :=
    .bind (.write trivial) (fun _ => .bind (deleteSecrets_issues (fun _ _ => trivial)) (fun _ =>
      .bind (.write trivial) (fun _ => .bind (.lift _) (fun _ => .bind (.write trivial) (fun _ =>
        .bind (.write trivial) (fun _ => .pure _))))))
  exact issues.preserves (I := fun t => t.secrets ref = none) absent_kept absent n

/-- Wherever a deletion is stopped after its first write, it has returned or its journal is outstanding. -/
private theorem deleteNamespace_crash (deleted : (deleteNamespace entropy registry did record).result s = .ok self)
    {n : Nat} (started : 1 ≤ n) :
    (deleteNamespace entropy registry did record).crash n s = (deleteNamespace entropy registry did record).final s ∨
      deletionJournal entropy record ∈ ((deleteNamespace entropy registry did record).crash n s).transactions := by
  obtain ⟨next, -, writes⟩ := deleteNamespace_ok deleted
  obtain ⟨m, rfl⟩ : ∃ m, n = m + 1 := ⟨n - 1, by omega⟩
  have split : record.managedRefs.map Write.deleteSecret ++
      [.removeIdentity record.identityId, .registry next, .removeJournal entropy.transactionId] =
      (record.managedRefs.map Write.deleteSecret ++ [.removeIdentity record.identityId, .registry next]) ++
        [.removeJournal entropy.transactionId] := by simp
  unfold Program.crash Program.final
  rw [writes, List.take_succ_cons, split, List.take_append]
  generalize before : record.managedRefs.map Write.deleteSecret ++
    [.removeIdentity record.identityId, .registry next] = middle
  have settles : ∀ w ∈ middle, w.Settles := by
    subst before
    intro w inside
    simp only [List.mem_append, List.mem_map, List.mem_cons, List.not_mem_nil, or_false] at inside
    rcases inside with ⟨ref, -, rfl⟩ | rfl | rfl <;> trivial
  by_cases all : middle.length < m
  · left
    rw [List.take_of_length_le (by omega), List.take_of_length_le (by simp; omega)]
  · right
    have none : [Write.removeJournal entropy.transactionId].take (m - middle.length) = [] := by
      rw [show m - middle.length = 0 by omega]
      rfl
    rw [none, List.append_nil, applyAll_cons,
      applyAll_view Store.transactions transactions_settles (fun w inside => settles w (List.mem_of_mem_take inside))]
    simp

end

/-- Exactly the secrets of managed keys are erased, also by a deletion that is interrupted once recovery succeeds. -/
theorem deletion_erases_managed (deletion : Deletion) (self after : DidStore) (entropy : Entropy) (did : String)
    (generation : Nat) (s : Store) (summary : IdentitySummary) (record : IdentityRecord)
    (named : s.registry.identities did = some summary) (stored : s.identities summary.identityId = some record)
    (deleted : (deletion.run anp self entropy did generation).result s = .ok after) :
    (((deletion.run anp self entropy did generation).final s).Erased summary.identityId ∧
      ∀ n registry, 1 ≤ n →
        (recover anp).result ((deletion.run anp self entropy did generation).crash n s) = .ok registry →
        ((recover anp).final ((deletion.run anp self entropy did generation).crash n s)).Erased summary.identityId) ↔
      ∀ ref, ref.identityId = summary.identityId → s.secrets ref ≠ none → ref ∈ record.managedRefs := by
  obtain ⟨current, read, -, same⟩ := Deletion.run_ok named deleted
  have returned : (deleteNamespace entropy s.registry did current).result s = .ok after := by
    rw [← deleted, Program.result, Program.result, same]
  have final : (deletion.run anp self entropy did generation).final s =
      (deleteNamespace entropy s.registry did current).final s := by
    simp only [Program.final, Program.writes, same]
  have crash : ∀ n, (deletion.run anp self entropy did generation).crash n s =
      (deleteNamespace entropy s.registry did current).crash n s := by
    intro n
    simp only [Program.crash, Program.writes, same]
  have refs := (readIdentity_keys stored read).2
  simp only [final, crash]
  constructor
  · rintro ⟨erased, -⟩ ref own present
    have gone := erased ref own
    rw [deleteNamespace_secrets returned, refs] at gone
    by_contra other
    rw [if_neg other] at gone
    exact present gone
  · intro managed
    have outside : ∀ ref, ref.identityId = summary.identityId → ref ∉ current.managedRefs → s.secrets ref = none := by
      intro ref own other
      by_contra present
      exact other (refs ▸ managed ref own present)
    have erased : ((deleteNamespace entropy s.registry did current).final s).Erased summary.identityId := by
      intro ref own
      rw [deleteNamespace_secrets returned]
      by_cases listed : ref ∈ current.managedRefs
      · rw [if_pos listed]
      · rw [if_neg listed, outside ref own listed]
    refine ⟨erased, fun n registry started recovered ref own => ?_⟩
    rcases deleteNamespace_crash returned started with finished | outstanding
    · rw [finished]
      exact recover_absent anp (erased ref own)
    · by_cases listed : ref ∈ current.managedRefs
      · exact recover_erases anp recovered outstanding rfl listed
      · exact recover_absent anp (deleteNamespace_absent (outside ref own listed) n)

end AnpIdentity
