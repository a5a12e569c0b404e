import AnpIdentity.Material
import AnpIdentity.Subjects

/-! The registry and the identity files. They are written in separate steps, and each operation writes them in an
order of its own; the journal that is outstanding meanwhile says how the two differ. -/

namespace AnpIdentity
open Durable Program

/-- Settling the journal brings the registry entry and the file together again. -/
def CreationJournal.Repairs (j : CreationJournal) (file : IdentityRecord) (entry : IdentitySummary) : Prop :=
  match j.kind with
  | .stateTransition => True
  | .rootImport => rootImportCommitted file = true
  | .create => file.state = .creating ∧ entry = { file.summary with state := .active }
  | .namespaceDelete => False

/-- The journal belongs to an identity that was registered when it was written. -/
def CreationJournal.Changes (j : CreationJournal) : Prop := j.kind = .stateTransition ∨ j.kind = .rootImport

theorem CreationJournal.Changes.kind {j : CreationJournal} (changes : j.Changes) :
    j.kind ≠ .namespaceDelete ∧ j.kind ≠ .create := by
  rcases changes with kind | kind <;> simp [kind]

/-- What stands behind a registry entry. -/
inductive Store.Backs (s : Store) (did : String) (entry : IdentitySummary) : Prop
  | current {file : IdentityRecord} (found : s.identities entry.identityId = some file) (named : file.did = did)
      (same : entry = file.summary)
  | stale {file : IdentityRecord} {j : CreationJournal} (found : s.identities entry.identityId = some file)
      (named : file.did = did) (outstanding : j ∈ s.transactions) (is : j.identityId = entry.identityId)
      (repairs : j.Repairs file entry)
  | deleting {j : CreationJournal} (gone : s.identities entry.identityId = none) (outstanding : j ∈ s.transactions)
      (kind : j.kind = .namespaceDelete) (is : j.identityId = entry.identityId) (named : j.did = did)

/-- The registry names the identity while it has a file. -/
def Store.Lists (s : Store) (id : String) : Prop :=
  ∀ file, s.identities id = some file → s.registry.Names file.did id

/-- The registry and the identity files agree, up to what the outstanding journals account for. -/
structure Store.Accounted (s : Store) : Prop where
  entries : ∀ did entry, s.registry.identities did = some entry → s.Backs did entry
  created : ∀ did entry, s.registry.identities did = some entry → entry.state ≠ .creating
  files : ∀ id file, s.identities id = some file →
    s.registry.Names file.did id ∨ ∃ j ∈ s.transactions, j.kind = .create ∧ j.identityId = id
  journals : ∀ j ∈ s.transactions, ∀ file, s.identities j.identityId = some file → file.did = j.did ∧
    (j.Changes → s.registry.Names file.did j.identityId ∧ file.state ≠ .creating)

/-- Nothing is left to be done under the journal. -/
structure CreationJournal.Done (j : CreationJournal) (s : Store) : Prop where
  repaired : ∀ did entry file, s.registry.identities did = some entry → entry.identityId = j.identityId →
    s.identities j.identityId = some file → j.Repairs file entry → entry = file.summary
  deleted : j.kind = .namespaceDelete → ¬ s.registry.Names j.did j.identityId
  listed : j.kind = .create → s.Lists j.identityId

/-- The writes that keep the registry and the files accounted for, each with what it rests on. -/
inductive Bookkeeping (s : Store) : Write → Prop
  | other {v : Write} (registry : (Medium.apply s v).registry = s.registry)
      (identities : (Medium.apply s v).identities = s.identities)
      (transactions : (Medium.apply s v).transactions = s.transactions) : Bookkeeping s v
  | announce {j : CreationJournal} (fresh : ∀ other ∈ s.transactions, other.transactionId ≠ j.transactionId)
      (fits : ∀ file, s.identities j.identityId = some file → file.did = j.did ∧
        (j.Changes → s.registry.Names file.did j.identityId ∧ file.state ≠ .creating)) : Bookkeeping s (.journal j)
  | close {name : String} (done : ∀ j ∈ s.transactions, j.transactionId = name → j.Done s) : Bookkeeping s (.removeJournal name)
  | enter {did : String} {entry : IdentitySummary} {registry : IdentityRegistry} {file : IdentityRecord}
      (entered : s.registry.put did entry = .ok registry) (found : s.identities entry.identityId = some file)
      (named : file.did = did)
      (vacant : ∀ old, s.registry.identities did = some old → old.identityId = entry.identityId)
      (created : entry.state ≠ .creating)
      (fits : entry = file.summary ∨
        ∃ j ∈ s.transactions, j.identityId = entry.identityId ∧ j.Repairs file entry) :
      Bookkeeping s (.registry registry)
  | leave {did : String} {registry : IdentityRegistry} (left : s.registry.drop did = .ok registry)
      (gone : ∀ old, s.registry.identities did = some old → s.identities old.identityId = none) :
      Bookkeeping s (.registry registry)
  | introduce {record : IdentityRecord} {j : CreationJournal} (absent : s.identities record.identityId = none)
      (unnamed : ∀ did entry, s.registry.identities did = some entry → entry.identityId ≠ record.identityId)
      (outstanding : j ∈ s.transactions) (kind : j.kind = .create) (is : j.identityId = record.identityId)
      (alone : ∀ other ∈ s.transactions, other.identityId = record.identityId → other.kind = .create ∧ other.did = record.did) :
      Bookkeeping s (.identity record)
  | replace {file record : IdentityRecord} (found : s.identities record.identityId = some file)
      (did : record.did = file.did) (created : file.state ≠ .creating → record.state ≠ .creating)
      (committed : rootImportCommitted file = true → rootImportCommitted record = true)
      (summary : record.summary = file.summary ∨
        (∃ j ∈ s.transactions, j.identityId = record.identityId ∧
          (j.kind = .stateTransition ∨ j.kind = .rootImport ∧ rootImportCommitted record = true)) ∨
        file.state = .creating ∧ record.summary = { file.summary with state := .active }) :
      Bookkeeping s (.identity record)
  | remove {id : String} {j : CreationJournal} (outstanding : j ∈ s.transactions) (is : j.identityId = id)
      (kind : j.kind = .namespaceDelete ∨ ¬ s.registry.Names j.did id) : Bookkeeping s (.removeIdentity id)

section
variable {s : Store} {v : Write} {did id : String} {entry : IdentitySummary}

variable {file : IdentityRecord} {registry next : IdentityRegistry}

/-- The identity that an entry names has at most one DID. -/
theorem Store.Backs.named (backs : s.Backs did entry) (found : s.identities entry.identityId = some file) : file.did = did := by
  cases backs with
  | current there named same | stale there named _ _ _ => exact Option.some.inj (there.symm.trans found) ▸ named
  | deleting gone =>
    rw [gone] at found
    cases found

theorem Store.Backs.mono {t : Store} (backs : s.Backs did entry)
    (files : t.identities entry.identityId = s.identities entry.identityId)
    (journals : ∀ j ∈ s.transactions, j.identityId = entry.identityId → j ∈ t.transactions) : t.Backs did entry := by
  cases backs with
  | current found named same => exact .current (files.trans found) named same
  | stale found named outstanding is repairs => exact .stale (files.trans found) named (journals _ outstanding is) is repairs
  | deleting gone outstanding kind is named => exact .deleting (files.trans gone) (journals _ outstanding is) kind is named

theorem names_put (entered : registry.put did entry = .ok next)
    (vacant : ∀ old, registry.identities did = some old → old.identityId = entry.identityId) {other : String}
    (names : registry.Names other id) : next.Names other id := by
  obtain ⟨-, rfl⟩ := IdentityRegistry.put_ok.mp entered
  obtain ⟨old, listed, is⟩ := names
  by_cases same : other = did
  · subst same
    exact ⟨entry, Function.update_self .., (vacant old listed).symm.trans is⟩
  · exact ⟨old, (Function.update_of_ne same ..).trans listed, is⟩

theorem names_drop (left : registry.drop did = .ok next) {other : String}
    (kept : ∀ old, registry.identities did = some old → old.identityId ≠ id) (names : registry.Names other id) :
    next.Names other id := by
  obtain ⟨-, rfl⟩ := IdentityRegistry.drop_ok.mp left
  obtain ⟨old, listed, is⟩ := names
  by_cases same : other = did
  · subst same
    exact absurd is (kept old listed)
  · exact ⟨old, (Function.update_of_ne same ..).trans listed, is⟩

/-- An identity that has a file keeps its entry. -/
theorem Bookkeeping.names (step : Bookkeeping s v) (there : s.identities id ≠ none) (names : s.registry.Names did id) :
    (Medium.apply s v).registry.Names did id := by
  cases step with
  | other registry _ _ => rwa [registry]
  | enter entered _ _ vacant => exact names_put entered vacant names
  | leave left gone => exact names_drop left (fun old listed is => there (is ▸ gone old listed)) names
  | announce | close | introduce | replace | remove => exact names

/-- Where a file after the write comes from. -/
private theorem Bookkeeping.origin (step : Bookkeeping s v) (found : (Medium.apply s v).identities id = some file) :
    (∃ old, s.identities id = some old ∧ file.did = old.did ∧ (old.state ≠ .creating → file.state ≠ .creating)) ∨
      v = .identity file ∧ file.identityId = id ∧ s.identities id = none := by
  have kept (same : (Medium.apply s v).identities id = s.identities id) : ∃ old, s.identities id = some old ∧
      file.did = old.did ∧ (old.state ≠ .creating → file.state ≠ .creating) :=
    ⟨file, same ▸ found, rfl, fun created => created⟩
  cases step with
  | other _ identities _ => exact .inl (kept (by rw [identities]))
  | announce | close | enter | leave => exact .inl (kept rfl)
  | @introduce record j absent =>
    by_cases same : id = record.identityId
    · subst same
      rw [identities_put_self, Option.some.injEq] at found
      subst found
      exact .inr ⟨rfl, rfl, absent⟩
    · exact .inl (kept (identities_put_ne s same))
  | @replace old record there did created =>
    by_cases same : id = record.identityId
    · subst same
      rw [identities_put_self, Option.some.injEq] at found
      subst found
      exact .inl ⟨old, there, did, created⟩
    · exact .inl (kept (identities_put_ne s same))
  | @remove gone =>
    by_cases same : id = gone
    · rw [same, identities_remove_self] at found
      cases found
    · exact .inl (kept (identities_remove_ne s same))

theorem Bookkeeping.lists (step : Bookkeeping s v) (lists : s.Lists id)
    (old : s.identities id = none → (Medium.apply s v).identities id = none) : (Medium.apply s v).Lists id := by
  intro file found
  rcases step.origin found with ⟨earlier, before, same, -⟩ | ⟨-, -, absent⟩
  · rw [same]
    exact step.names (by rw [before]; simp) (lists earlier before)
  · rw [old absent] at found
    cases found

/-- A journal repairs a file that was rewritten, unless the file has caught up with the entry. -/
private theorem CreationJournal.Repairs.rewritten {j : CreationJournal} {record : IdentityRecord} (repairs : j.Repairs file entry)
    (committed : rootImportCommitted file = true → rootImportCommitted record = true)
    (summary : record.summary = file.summary ∨ record.summary = { file.summary with state := .active }) :
    j.Repairs record entry ∨ entry = record.summary := by
  unfold CreationJournal.Repairs at repairs ⊢
  split at repairs
  · exact .inl trivial
  · exact .inl (committed repairs)
  · rcases summary with kept | activated
    · have state : record.state = file.state := congrArg IdentitySummary.state kept
      rw [kept, state]
      exact .inl repairs
    · exact .inr (repairs.2.trans activated.symm)
  · exact repairs.elim

/-- A file that was rewritten stands behind the same entry. -/
private theorem Store.Backs.replace {record : IdentityRecord} (backs : s.Backs did entry)
    (open' : entry.state ≠ .creating) (found : s.identities record.identityId = some file)
    (named : entry.identityId = record.identityId) (same : record.did = file.did)
    (committed : rootImportCommitted file = true → rootImportCommitted record = true)
    (summary : record.summary = file.summary ∨
        (∃ j ∈ s.transactions, j.identityId = record.identityId ∧
          (j.kind = .stateTransition ∨ j.kind = .rootImport ∧ rootImportCommitted record = true)) ∨
        file.state = .creating ∧ record.summary = { file.summary with state := .active }) :
    (Medium.apply s (.identity record)).Backs did entry := by
  have now : (Medium.apply s (.identity record)).identities entry.identityId = some record := by
    rw [named, identities_put_self]
  have did' : record.did = did := same.trans (backs.named (named ▸ found))
  rw [← named] at found
  rcases summary with kept | ⟨j, outstanding, is, kind⟩ | ⟨creating, activated⟩
  · cases backs with
    | current there _ equal =>
      rw [found, Option.some.injEq] at there
      exact .current now did' (by rw [equal, kept, there])
    | stale there _ outstanding is repairs =>
      rw [found, Option.some.injEq] at there
      subst there
      exact (repairs.rewritten committed (.inl kept)).elim (.stale now did' outstanding is) (.current now did')
    | deleting gone =>
      rw [found] at gone
      cases gone
  · refine .stale now did' outstanding (is.trans named.symm) ?_
    unfold CreationJournal.Repairs
    rcases kind with kind | ⟨kind, done⟩
    · rw [kind]
      trivial
    · rw [kind]
      exact done
  · cases backs with
    | current there _ equal =>
      rw [found, Option.some.injEq] at there
      subst there
      exact absurd (equal ▸ creating) open'
    | stale there _ outstanding is repairs =>
      rw [found, Option.some.injEq] at there
      subst there
      exact (repairs.rewritten committed (.inr activated)).elim (.stale now did' outstanding is) (.current now did')
    | deleting gone =>
      rw [found] at gone
      cases gone

private theorem Store.Backs.close {name : String} (backs : s.Backs did entry)
    (listed : s.registry.identities did = some entry) (done : ∀ j ∈ s.transactions, j.transactionId = name → j.Done s) :
    (Medium.apply s (.removeJournal name)).Backs did entry := by
  have kept : ∀ j ∈ s.transactions, j.transactionId ≠ name → j ∈ (Medium.apply s (.removeJournal name)).transactions :=
    fun j outstanding other => Directory.mem_erase.mpr ⟨outstanding, other⟩
  cases backs with
  | current found named same => exact .current found named same
  | @stale file j found named outstanding is repairs =>
    by_cases closed : j.transactionId = name
    · exact .current found named ((done j outstanding closed).repaired did entry file listed is.symm (is ▸ found) repairs)
    · exact .stale found named (kept j outstanding closed) is repairs
  | @deleting j gone outstanding kind is named =>
    by_cases closed : j.transactionId = name
    · exact absurd ⟨entry, named ▸ listed, is.symm⟩ ((done j outstanding closed).deleted kind)
    · exact .deleting gone (kept j outstanding closed) kind is named

private theorem Store.Backs.remove {j : CreationJournal} (backs : s.Backs did entry)
    (listed : s.registry.identities did = some entry) (outstanding : j ∈ s.transactions)
    (fits : ∀ file, s.identities j.identityId = some file → file.did = j.did) (is : entry.identityId = j.identityId)
    (kind : j.kind = .namespaceDelete ∨ ¬ s.registry.Names j.did j.identityId) :
    (Medium.apply s (.removeIdentity j.identityId)).Backs did entry := by
  have gone : (Medium.apply s (.removeIdentity j.identityId)).identities entry.identityId = none := by
    rw [is, identities_remove_self]
  have still : ∀ file, s.identities entry.identityId = some file →
      (Medium.apply s (.removeIdentity j.identityId)).Backs did entry := by
    intro file found
    have named : j.did = did := (fits file (is ▸ found)).symm.trans (backs.named found)
    rcases kind with deletes | unnamed
    · exact .deleting gone outstanding deletes is.symm named
    · exact absurd ⟨entry, named ▸ listed, is⟩ unnamed
  cases backs with
  | current found | stale found => exact still _ found
  | deleting _ open' kind same named => exact .deleting gone open' kind same named

private theorem Bookkeeping.entries (step : Bookkeeping s v) (accounted : s.Accounted)
    (listed : (Medium.apply s v).registry.identities did = some entry) : (Medium.apply s v).Backs did entry := by
  cases step with
  | other registry identities transactions =>
    rw [registry] at listed
    exact (accounted.entries did entry listed).mono (by rw [identities]) (fun j outstanding _ => by rwa [transactions])
  | announce fresh =>
    exact (accounted.entries did entry listed).mono rfl
      (fun other outstanding _ => Directory.mem_insert.mpr (.inr ⟨outstanding, fresh other outstanding⟩))
  | close done => exact (accounted.entries did entry listed).close listed done
  | enter entered found named _ _ fits =>
    obtain ⟨rfl, rfl⟩ | ⟨-, listed⟩ := IdentityRegistry.put_listed entered listed
    · rcases fits with equal | ⟨j, outstanding, is, repairs⟩
      · exact .current found named equal
      · exact .stale found named outstanding is repairs
    · exact (accounted.entries did entry listed).mono rfl (fun _ outstanding _ => outstanding)
  | leave left =>
    exact (accounted.entries did entry (IdentityRegistry.drop_listed left listed).2).mono rfl (fun _ outstanding _ => outstanding)
  | introduce absent unnamed =>
    exact (accounted.entries did entry listed).mono (identities_put_ne s (unnamed did entry listed)) (fun _ outstanding _ => outstanding)
  | @replace file record found same created committed summary =>
    by_cases named : entry.identityId = record.identityId
    · exact (accounted.entries did entry listed).replace (accounted.created did entry listed) found named same committed summary
    · exact (accounted.entries did entry listed).mono (identities_put_ne s named) (fun _ outstanding _ => outstanding)
  | @remove id j outstanding is kind =>
    subst is
    by_cases named : entry.identityId = j.identityId
    · exact (accounted.entries did entry listed).remove listed outstanding
        (fun file found => (accounted.journals j outstanding file found).1) named kind
    · exact (accounted.entries did entry listed).mono (identities_remove_ne s named) (fun _ outstanding _ => outstanding)

private theorem Bookkeeping.created (step : Bookkeeping s v) (accounted : s.Accounted)
    (listed : (Medium.apply s v).registry.identities did = some entry) : entry.state ≠ .creating := by
  cases step with
  | other registry =>
    rw [registry] at listed
    exact accounted.created did entry listed
  | enter entered _ _ _ created =>
    obtain ⟨-, rfl⟩ | ⟨-, listed⟩ := IdentityRegistry.put_listed entered listed
    · exact created
    · exact accounted.created did entry listed
  | leave left => exact accounted.created did entry (IdentityRegistry.drop_listed left listed).2
  | announce | close | introduce | replace | remove => exact accounted.created did entry listed

private theorem Bookkeeping.files (step : Bookkeeping s v) (accounted : s.Accounted)
    (found : (Medium.apply s v).identities id = some file) : (Medium.apply s v).registry.Names file.did id ∨
      ∃ j ∈ (Medium.apply s v).transactions, j.kind = .create ∧ j.identityId = id := by
  rcases step.origin found with ⟨old, before, same, -⟩ | ⟨is, named, absent⟩
  · rcases accounted.files id old before with names | ⟨j, outstanding, kind, belongs⟩
    · exact .inl (same ▸ step.names (by rw [before]; simp) names)
    · cases step with
      | other _ _ transactions => exact .inr ⟨j, by rwa [transactions], kind, belongs⟩
      | announce fresh =>
        exact .inr ⟨j, Directory.mem_insert.mpr (.inr ⟨outstanding, fresh j outstanding⟩), kind, belongs⟩
      | @close name done =>
        by_cases closed : j.transactionId = name
        · have lists := (done j outstanding closed).listed kind
          rw [belongs] at lists
          exact .inl (same ▸ lists old before)
        · exact .inr ⟨j, Directory.mem_erase.mpr ⟨outstanding, closed⟩, kind, belongs⟩
      | enter | leave | introduce | replace | remove => exact .inr ⟨j, outstanding, kind, belongs⟩
  · subst is
    cases step with
    | other _ identities _ =>
      rw [identities, absent] at found
      cases found
    | introduce _ _ outstanding kind is => exact .inr ⟨_, outstanding, kind, is.trans named⟩
    | replace there =>
      rw [named, absent] at there
      cases there

private theorem Bookkeeping.journals (step : Bookkeeping s v) (accounted : s.Accounted) {j : CreationJournal}
    (outstanding : j ∈ (Medium.apply s v).transactions) (found : (Medium.apply s v).identities j.identityId = some file) :
    file.did = j.did ∧ (j.Changes → (Medium.apply s v).registry.Names file.did j.identityId ∧ file.state ≠ .creating) := by
  rcases step.origin found with ⟨old, before, same, created⟩ | ⟨is, named, absent⟩
  · suffices fits : old.did = j.did ∧ (j.Changes → s.registry.Names old.did j.identityId ∧ old.state ≠ .creating) by
      refine ⟨same.trans fits.1, fun changes => ?_⟩
      obtain ⟨names, settled⟩ := fits.2 changes
      exact ⟨same ▸ step.names (by rw [before]; simp) names, created settled⟩
    cases step with
    | other _ _ transactions => exact accounted.journals j (by rwa [transactions] at outstanding) old before
    | announce fresh fits =>
      rcases Directory.mem_insert.mp outstanding with rfl | ⟨listed, -⟩
      · exact fits old before
      · exact accounted.journals j listed old before
    | close => exact accounted.journals j (Directory.mem_erase.mp outstanding).1 old before
    | enter | leave | introduce | replace | remove => exact accounted.journals j outstanding old before
  · subst is
    cases step with
    | other _ identities _ =>
      rw [identities, absent] at found
      cases found
    | introduce _ _ _ _ _ alone =>
      obtain ⟨kind, did⟩ := alone j outstanding named.symm
      exact ⟨did.symm, fun changes => absurd kind changes.kind.2⟩
    | replace there =>
      rw [named, absent] at there
      cases there

theorem Store.Accounted.step (accounted : s.Accounted) (step : Bookkeeping s v) : (Medium.apply s v).Accounted where
  entries _ _ listed := step.entries accounted listed
  created _ _ listed := step.created accounted listed
  files _ _ found := step.files accounted found
  journals _ outstanding _ found := step.journals accounted outstanding found

end

/-! ## Calls on identities -/

section
variable {anp : Anp} {s start : Store} {v : Write} {entropy : Entropy} {self : DidIdentity} {action : IdentityAction}

variable {keys others : List KeyMetadata} {seen next record file : IdentityRecord}

private theorem sameKeys_any (same : SameKeys others keys) {p : KeyMetadata → Bool}
    (stateless : ∀ key, p key.stateless = p key) : others.any p = keys.any p := by
  have lists := congrArg (List.any · p) same
  simpa [List.any_map, Function.comp_def, stateless] using lists

private theorem rootImportCommitted_sameKeys (same : SameKeys next.keys seen.keys)
    (capability : seen.rootCapability ≠ .absent → next.rootCapability ≠ .absent) (done : rootImportCommitted seen = true) :
    rootImportCommitted next = true := by
  unfold rootImportCommitted at done ⊢
  rw [sameKeys_any same (fun _ => rfl)]
  rw [Bool.and_eq_true] at done ⊢
  refine ⟨?_, done.2⟩
  have present := capability (by intro absent; simp [absent] at done)
  cases state : next.rootCapability with
  | absent => exact absurd state present
  | pending | active => rfl

/-- A root import that went through stays one. -/
theorem Justified.committed_import (justified : Justified anp start self entropy action)
    (stores : action.Stores anp entropy record) (done : rootImportCommitted action.seen = true) :
    rootImportCommitted record = true := by
  have capability := (justified.keeping stores).capability
  cases justified.rekeys stores with
  | planned _ _ _ keys | moved _ _ keys | cleared keys =>
    exact rootImportCommitted_sameKeys (by rw [keys]; exact .refl _) capability done
  | kept same => exact rootImportCommitted_sameKeys same capability done
  | @committed _ keys _ same is =>
    have kept : rootImportCommitted { record with keys } = true := rootImportCommitted_sameKeys same capability done
    unfold rootImportCommitted at kept ⊢
    rw [Bool.and_eq_true] at kept ⊢
    refine ⟨kept.1, ?_⟩
    rw [is, List.any_append, kept.2, Bool.true_or]
  | imported _ _ absent => simp [rootImportCommitted, absent] at done

private theorem adoptRootKey_managed {rootKid : String} {root : KeyMetadata}
    (adopted : adoptRootKey rootKid keys = some (root, others)) (material : ∀ key ∈ keys, key.materialErased = false) :
    others.any (fun key => key.role == .rootControl && key.origin == .managed && !key.materialErased) = true := by
  induction keys generalizing others with
  | nil => cases adopted
  | cons first rest ih =>
    unfold adoptRootKey at adopted
    split at adopted
    · rename_i found
      cases adopted
      simp [found.1, material root List.mem_cons_self]
    · obtain ⟨⟨found, more⟩, later, same⟩ := Option.map_eq_some_iff.mp adopted
      cases same
      rw [List.any_cons, ih later (fun key inside => material key (List.mem_cons_of_mem _ inside)), Bool.or_true]

private theorem Justified.importsCommitted {transfer : RootTransfer} {ref : SecretRef}
    (justified : Justified anp start self entropy (.importRoot transfer ref seen next))
    (material : ∀ key ∈ seen.keys, key.materialErased = false) : rootImportCommitted next = true := by
  cases justified with
  | imported _ transfers =>
    cases transfers with
    | imported _ _ _ _ adopted =>
      unfold rootImportCommitted
      rw [Bool.and_eq_true]
      exact ⟨rfl, adoptRootKey_managed adopted material⟩

/-- An edit without a journal leaves the summary of the record. -/
private theorem Justified.unjournaled {change : Edit}
    (justified : Justified anp start self entropy (.edit change seen next)) (unjournaled : change.journaled = false) :
    next.summary = seen.summary := by
  cases justified with
  | moved _ _ moves =>
    obtain ⟨-, -, -, rfl⟩ := moves
    rfl
  | committed _ commits =>
    obtain ⟨keys, authorization, retired, checkpoint, -, -, -, -, -, rfl⟩ := commits.committed
    rfl
  | @adopted _ _ spec siblingOnly _ _ adoptable adopts =>
    cases siblingOnly with
    | false => cases unjournaled
    | true =>
      obtain ⟨changed, authorization, retired, readjusts, -, rfl⟩ := adopts.adopted
      cases readjusts with
      | activated enrolling =>
        rw [(adoptable.sibling rfl).1] at enrolling
        cases enrolling
      | revoked _ refused =>
        rw [adopts.sibling rfl] at refused
        cases refused
      | unchanged => rfl
  | promoted | replayed => cases unjournaled

/-- The record that a call works on: that of a registered identity. -/
structure Enlisted (anp : Anp) (start : Store) (seen file : IdentityRecord) : Prop where
  found : start.identities seen.identityId = some file
  completed : completeRecord anp file = .ok seen
  names : start.registry.Names seen.did seen.identityId
  created : seen.state ≠ .creating
  material : ∀ key ∈ seen.keys, key.materialErased = false

theorem completeRecord_summary (completed : completeRecord anp file = .ok seen) :
    seen.summary = file.summary ∧ rootImportCommitted seen = rootImportCommitted file := by
  obtain ⟨_, _, _, rfl⟩ := completeRecord_same completed
  exact ⟨rfl, rfl⟩

/-- The step that replaces the file of a registered identity by the record of an action. -/
private theorem Enlisted.replace (enlisted : Enlisted anp start seen file) (files : s.identities = start.identities)
    (keeping : Keeping seen next) (is : record = next.raised)
    (committed : rootImportCommitted seen = true → rootImportCommitted next = true)
    (summary : next.summary = seen.summary ∨ ∃ j ∈ s.transactions, j.identityId = next.identityId ∧
      (j.kind = .stateTransition ∨ j.kind = .rootImport ∧ rootImportCommitted next = true)) :
    Bookkeeping s (.identity record) := by
  subst is
  obtain ⟨same, done⟩ := completeRecord_summary enlisted.completed
  have did : seen.did = file.did := congrArg IdentitySummary.did same
  have state : seen.state = file.state := congrArg IdentitySummary.state same
  refine .replace ?_ (keeping.did.trans did) (fun created => keeping.created (by rwa [state])) ?_ ?_
  · rw [files, IdentityRecord.raised_identityId, keeping.identityId]
    exact enlisted.found
  · intro old
    exact committed (done.trans old)
  · rcases summary with kept | journalled
    · exact .inl (kept.trans same)
    · exact .inr (.inl journalled)

section
variable {next : IdentityRecord} {j : CreationJournal}

/-- The steps after the journal of a call was written. -/
private theorem RegisterStep.bookkeeping {seen file : IdentityRecord} (step : RegisterStep entropy start next s v)
    (enlisted : Enlisted anp start seen file) (keeping : Keeping seen next)
    (committed : rootImportCommitted seen = true → rootImportCommitted next = true) (outstanding : j ∈ start.transactions)
    (is : j.identityId = next.identityId) (named : j.transactionId = entropy.transactionId)
    (kind : j.kind = .stateTransition ∨ j.kind = .rootImport ∧ rootImportCommitted next = true)
    (accounted : s.Accounted) : Bookkeeping s v := by
  have stored : (start.putIdentity next.raised).identities next.identityId = some next.raised := Function.update_self ..
  have changes : j.Changes := kind.imp_right And.left
  cases step with
  | store => exact enlisted.replace rfl keeping rfl committed (.inr ⟨j, outstanding, is, kind⟩)
  | refresh names entered =>
    refine .enter entered stored rfl (fun old listed => ?_) (keeping.created enlisted.created) (.inl rfl)
    obtain ⟨entry, found, same⟩ := names
    have equal : entry = old := Option.some.inj (found.symm.trans listed)
    exact equal ▸ same
  | @close registry names entered =>
    refine .close (fun other there closes => ?_)
    obtain rfl : other = j := Directory.key_injective there outstanding (closes.trans named.symm)
    refine ⟨fun did entry found listed belongs there' _ => ?_, (absurd · changes.kind.1), (absurd · changes.kind.2)⟩
    rw [is] at belongs there'
    have now : some next.raised = some found := stored.symm.trans there'
    have backed : (start.putIdentity next.raised).identities entry.identityId = some next.raised := by
      rw [belongs]
      exact stored
    have here : next.raised.did = did := (accounted.entries did entry listed).named backed
    change next.did = did at here
    obtain ⟨-, rfl⟩ | ⟨elsewhere, -⟩ := IdentityRegistry.put_listed entered listed
    · rw [← Option.some.inj now]
      rfl
    · exact absurd here.symm elsewhere

end

theorem IdentityStep.bookkeeping (step : IdentityStep anp entropy start action s v)
    (justified : Justified anp start self entropy action) (enlisted : Enlisted anp start action.seen file)
    (fresh : ∀ j ∈ start.transactions, j.transactionId ≠ entropy.transactionId) (accounted : s.Accounted) :
    Bookkeeping s v := by
  have kept := fun record (stores : action.Stores anp entropy record) => justified.keeping stores
  have done := fun record (stores : action.Stores anp entropy record) => justified.committed_import stores
  -- the journal of the call fits the file of the identity
  have fits : ∀ {j : CreationJournal} {next : IdentityRecord}, Keeping action.seen next → j.identityId = next.identityId →
      j.did = next.did → ∀ found, start.identities j.identityId = some found → found.did = j.did ∧
        (j.Changes → start.registry.Names found.did j.identityId ∧ found.state ≠ .creating) := by
    intro j next keeping is did found there
    rw [is, keeping.identityId, enlisted.found, Option.some.injEq] at there
    subst there
    obtain ⟨same, -⟩ := completeRecord_summary enlisted.completed
    have here : action.seen.did = file.did := congrArg IdentitySummary.did same
    have state : action.seen.state = file.state := congrArg IdentitySummary.state same
    refine ⟨by rw [did, keeping.did, here], fun _ => ⟨?_, state ▸ enlisted.created⟩⟩
    rw [is, keeping.identityId, ← here]
    exact enlisted.names
  cases step with
  | @prepare seen plan _ _ step =>
    cases step with
    | @store secrets digest onto held hashed room =>
      have stores : (IdentityAction.prepare seen plan).Stores anp entropy (preparedRecord entropy seen plan digest) :=
        ⟨digest, hashed, rfl⟩
      exact enlisted.replace rfl (kept _ stores) rfl (done _ stores) (.inl rfl)
    | announce | keep | close => exact .other rfl rfl rfl
  | discard step =>
    cases step with
    | store => exact enlisted.replace rfl (kept _ rfl) rfl (done _ rfl) (.inl rfl)
    | announce | erase | close => exact .other rfl rfl rfl
  | @edit change seen next _ _ step =>
    cases step with
    | plain unjournaled => exact enlisted.replace rfl (kept _ rfl) rfl (done _ rfl) (.inl (justified.unjournaled unjournaled))
    | announce => exact .announce fresh (fits (kept next rfl) rfl rfl)
    | register _ step =>
      have listed : Enlisted anp
          { start with transactions := start.transactions.insert (transitionJournal entropy next) } seen file := ⟨enlisted.found,
        enlisted.completed, enlisted.names, enlisted.created, enlisted.material⟩
      exact step.bookkeeping listed (kept next rfl) (done next rfl) (Directory.mem_insert.mpr (.inl rfl)) rfl rfl (.inl rfl) accounted
  | @importRoot transfer ref seen next _ _ step =>
    cases step with
    | announce => exact .announce fresh (fits (kept next rfl) rfl rfl)
    | keep => exact .other rfl rfl rfl
    | @register secrets _ _ onto held step =>
      have listed : Enlisted anp
          { start with transactions := start.transactions.insert (rootImportJournal entropy ref next), secrets } seen file :=
        ⟨enlisted.found, enlisted.completed, enlisted.names, enlisted.created, enlisted.material⟩
      exact step.bookkeeping listed (kept next rfl) (done next rfl) (Directory.mem_insert.mpr (.inl rfl)) rfl rfl
        (.inr ⟨rfl, justified.importsCommitted enlisted.material⟩) accounted

end

/-! ## Calls on stores -/

section
variable {anp : Anp} {s start : Store} {v : Write} {entropy : Entropy} {self : DidStore} {call : StoreCall} {action : StoreAction}
  {j : CreationJournal}

/-- A creation is done when the new identity is registered and active. -/
private theorem CreationJournal.done_created {file : IdentityRecord} (kind : j.kind = .create)
    (found : s.identities j.identityId = some file) (created : file.state ≠ .creating)
    (names : s.registry.Names file.did j.identityId) : j.Done s where
  repaired did entry other _ _ there repairs := by
    rw [found, Option.some.injEq] at there
    subst there
    unfold CreationJournal.Repairs at repairs
    rw [kind] at repairs
    exact absurd repairs.1 created
  deleted deletes := by
    rw [kind] at deletes
    cases deletes
  listed _ other there := by
    rw [found, Option.some.injEq] at there
    exact there ▸ names

/-- Nothing is left to do for an identity that is gone from the files and from the registry. -/
private theorem CreationJournal.done_gone (gone : s.identities j.identityId = none)
    (unnamed : ¬ s.registry.Names j.did j.identityId) : j.Done s where
  repaired did entry file _ _ there _ := by
    rw [gone] at there
    cases there
  deleted _ := unnamed
  listed _ file there := by
    rw [gone] at there
    cases there

/-- The store knows nothing of the identity. -/
structure Store.Lacks (s : Store) (id : String) : Prop where
  absent : s.identities id = none
  unnamed : ∀ did entry, s.registry.identities did = some entry → entry.identityId ≠ id
  unjournaled : ∀ j ∈ s.transactions, j.identityId ≠ id

private theorem IntroduceStep.bookkeeping {keys : List SealedKey} {record : DidResult IdentityRecord}
    (step : IntroduceStep anp start j keys record s v) (kind : j.kind = .create) (lacks : start.Lacks j.identityId)
    (fresh : ∀ other ∈ start.transactions, other.transactionId ≠ j.transactionId)
    (named : ∀ made, record = .ok made → made.identityId = j.identityId ∧ made.did = j.did) : Bookkeeping s v := by
  cases step with
  | announce =>
    refine .announce fresh (fun file found => ?_)
    rw [lacks.absent] at found
    cases found
  | keep => exact .other rfl rfl rfl
  | @store secrets made _ _ built =>
    obtain ⟨is, did⟩ := named made built
    refine .introduce (is ▸ lacks.absent) (is ▸ lacks.unnamed) (Directory.mem_insert.mpr (.inl rfl)) kind is.symm ?_
    intro other outstanding same
    rcases Directory.mem_insert.mp outstanding with rfl | ⟨listed, -⟩
    · exact ⟨kind, did.symm⟩
    · exact absurd (same.trans is) (lacks.unjournaled other listed)

private theorem createdRecord_creating {spec : DidCreateSpec} {built : BuiltIdentity} {made : IdentityRecord}
    (makes : createdRecord anp entropy spec built = .ok made) : made.state = .creating := by
  simp only [createdRecord, except_bind_ok] at makes
  obtain ⟨_, -, _, -, _, -, same⟩ := makes
  cases same
  rfl

private theorem DeleteStep.bookkeeping {did : String} {record : IdentityRecord}
    (step : DeleteStep entropy start did record s v) (deletes : Deletes anp start self did record)
    (fresh : ∀ other ∈ start.transactions, other.transactionId ≠ entropy.transactionId) : Bookkeeping s v := by
  obtain ⟨summary, listed, read⟩ := deletes.registered
  obtain ⟨file, found, -, completed⟩ := readIdentity_ok.mp read
  have named : record.identityId = summary.identityId := readIdentity_named read
  cases step with
  | announce =>
    refine .announce fresh (fun other there => ?_)
    rw [show (deletionJournal entropy record).identityId = record.identityId from rfl, named, found, Option.some.injEq] at there
    subst there
    exact ⟨(congrArg IdentitySummary.did (completeRecord_summary completed).1).symm, fun changes => absurd rfl changes.kind.1⟩
  | erase => exact .other rfl rfl rfl
  | remove => exact .remove (Directory.mem_insert.mpr (.inl rfl)) rfl (.inl rfl)
  | delist _ _ left =>
    refine .leave left (fun old there => ?_)
    have same : old = summary := Option.some.inj (there.symm.trans listed)
    change Function.update start.identities record.identityId none old.identityId = none
    rw [same, ← named, Function.update_self]
  | @close secrets registry _ _ left =>
    refine .close (fun other outstanding closes => ?_)
    obtain rfl : other = deletionJournal entropy record :=
      Directory.key_injective outstanding (Directory.mem_insert.mpr (.inl rfl)) closes
    refine CreationJournal.done_gone (Function.update_self ..) ?_
    rintro ⟨entry, there, -⟩
    exact (IdentityRegistry.drop_listed left there).1 deletes.named

/-- The new identity of a creation, written under its journal. -/
private structure Introduced (start : Store) (j : CreationJournal) (did : String) (made : IdentityRecord) : Prop where
  kind : j.kind = .create
  is : made.identityId = j.identityId
  named : made.did = did
  vacant : start.registry.identities did = none

section
variable {did : String} {made : IdentityRecord} {secrets : SecretRef → Option Bytes} {registry : IdentityRegistry}

variable {entry : IdentitySummary}

private theorem StoreCall.Starts.introduced (started : call.Starts anp start self entropy action)
    (makes : action.Makes anp entropy made) (kind : j.kind = .create) (is : j.identityId = entropy.identityId) :
    Introduced start j action.did made := by
  refine ⟨kind, (started.isNew makes).identityId.trans is.symm, (started.isNew makes).did, ?_⟩
  cases started.planned with
  | introduce registrable | create registrable => exact registrable.absent
  | delete => exact makes.elim

private theorem Introduced.enter (introduced : Introduced start j did made)
    (entered : start.registry.put did entry = .ok registry) (is : entry.identityId = made.identityId)
    (created : entry.state ≠ .creating)
    (fits : entry = made.summary ∨ made.state = .creating ∧ entry = { made.summary with state := .active }) :
    Bookkeeping (start.introduced j secrets made) (.registry registry) := by
  refine .enter entered (is ▸ Function.update_self ..) introduced.named (fun old listed => ?_) created ?_
  · change start.registry.identities did = some old at listed
    rw [introduced.vacant] at listed
    cases listed
  · refine fits.imp_right (fun repairs => ⟨j, Directory.mem_insert.mpr (.inl rfl), introduced.is.symm.trans is.symm, ?_⟩)
    unfold CreationJournal.Repairs
    rw [introduced.kind]
    exact repairs

private theorem Introduced.close {file : IdentityRecord} {name : String} (introduced : Introduced start j did made)
    (entered : start.registry.put did entry = .ok registry) (is : entry.identityId = made.identityId)
    (lists : j ∈ s.transactions) (registered : s.registry = registry) (found : s.identities made.identityId = some file)
    (same : file.did = made.did) (created : file.state ≠ .creating) (closes : j.transactionId = name) :
    Bookkeeping s (.removeJournal name) := by
  refine .close (fun other outstanding named => ?_)
  obtain rfl : other = j := Directory.key_injective outstanding lists (named.trans closes.symm)
  refine CreationJournal.done_created introduced.kind (introduced.is ▸ found) created ⟨entry, ?_, is.trans introduced.is⟩
  obtain ⟨-, rfl⟩ := IdentityRegistry.put_ok.mp entered
  rw [registered, same, introduced.named]
  exact Function.update_self ..

end

theorem StoreStep.bookkeeping (step : StoreStep anp entropy start action s v) (started : call.Starts anp start self entropy action)
    (lacks : start.Lacks entropy.identityId)
    (fresh : ∀ other ∈ start.transactions, other.transactionId ≠ entropy.transactionId) : Bookkeeping s v := by
  have new := fun made (makes : action.Makes anp entropy made) => started.isNew makes
  have introduced := fun j made (makes : action.Makes anp entropy made) => started.introduced (j := j) makes
  have planned := started.planned
  cases step with
  | @introduce did keys record _ _ step =>
    exact step.bookkeeping rfl lacks fresh (fun made built => ⟨(new made built).identityId, (new made built).did⟩)
  | @create spec built _ _ step =>
    exact step.bookkeeping rfl lacks fresh (fun made built => ⟨(new made built).identityId, (new made built).did⟩)
  | @enlist did keys record secrets made registry ready entered =>
    exact (introduced _ made ready.built rfl rfl).enter entered rfl
      (fun creating => nomatch ((new made ready.built).creating creating).choose_spec) (.inl rfl)
  | @close did keys record secrets made registry ready entered =>
    exact (introduced _ made ready.built rfl rfl).close entered rfl (Directory.mem_insert.mpr (.inl rfl)) rfl
      (Function.update_self ..) rfl (fun creating => nomatch ((new made ready.built).creating creating).choose_spec) rfl
  | @enlistCreated spec built secrets made registry ready entered =>
    exact (introduced _ made ready.built rfl rfl).enter entered rfl (by simp) (.inr ⟨createdRecord_creating ready.built, rfl⟩)
  | @activate spec built secrets made registry ready entered =>
    have there : (start.introduced (createJournal anp entropy built) secrets made).identities made.identityId = some made :=
      Function.update_self ..
    exact .replace there rfl (fun _ => by simp) (fun done => done) (.inr (.inr ⟨createdRecord_creating ready.built, rfl⟩))
  | @closeCreated spec built secrets made registry ready entered =>
    exact (introduced _ made ready.built rfl rfl).close entered rfl (Directory.mem_insert.mpr (.inl rfl)) rfl
      (Function.update_self ..) rfl (by simp) rfl
  | @delete did record _ _ step =>
    cases planned with
    | delete deletes => exact step.bookkeeping deletes fresh

end

/-! ## Recovery -/

section
variable {anp : Anp} {s : Store} {v : Write} {j : CreationJournal}

variable {record : IdentityRecord}

private theorem Journalled.file (journalled : Journalled anp s j record) :
    ∃ file, s.identities j.identityId = some file ∧ record.summary = file.summary ∧
      rootImportCommitted record = rootImportCommitted file := by
  obtain ⟨file, found, -, completed⟩ := readIdentity_ok.mp journalled.read
  exact ⟨file, found, completeRecord_summary completed⟩

/-- A journal of a change is done when the entry is the summary of the file. -/
private theorem Store.Accounted.done_changed (accounted : s.Accounted) (outstanding : j ∈ s.transactions)
    (changes : j.Changes) (journalled : Journalled anp s j record)
    (entered : s.registry.identities j.did = some record.summary) : j.Done s := by
  obtain ⟨file, found, same, -⟩ := journalled.file
  refine ⟨fun did entry other listed is there _ => ?_, (absurd · changes.kind.1), (absurd · changes.kind.2)⟩
  rw [found, Option.some.injEq] at there
  subst there
  have here : file.did = did := (accounted.entries did entry listed).named (is ▸ found)
  rw [← here, (accounted.journals j outstanding file found).1, entered, Option.some.injEq] at listed
  rw [← listed, same]

private theorem CreationJournal.Settled.done (settled : j.Settled anp s) (accounted : s.Accounted)
    (outstanding : j ∈ s.transactions) : j.Done s := by
  unfold CreationJournal.Settled at settled
  split at settled
  · rename_i kind
    obtain ⟨record, journalled, entered⟩ := settled
    exact accounted.done_changed outstanding (.inl kind) journalled entered
  · rename_i kind
    obtain ⟨record, journalled, ⟨-, entered⟩ | ⟨uncommitted, -⟩⟩ := settled
    · exact accounted.done_changed outstanding (.inr kind) journalled entered
    · obtain ⟨file, found, -, same⟩ := journalled.file
      have changes : j.Changes := .inr kind
      refine ⟨fun did entry other listed is there repairs => ?_, (absurd · changes.kind.1), (absurd · changes.kind.2)⟩
      rw [found, Option.some.injEq] at there
      subst there
      unfold CreationJournal.Repairs at repairs
      rw [kind] at repairs
      rw [same] at uncommitted
      rw [uncommitted] at repairs
      cases repairs
  · exact done_gone settled.2.1 settled.2.2
  · rename_i kind
    obtain ⟨names, file, found, created⟩ | ⟨unnamed, -, gone⟩ := settled
    · exact done_created kind found created (by rwa [(accounted.journals j outstanding file found).1])
    · exact done_gone gone unnamed

private theorem SettleStep.bookkeeping (step : SettleStep anp s j v) (accounted : s.Accounted)
    (outstanding : j ∈ s.transactions) : Bookkeeping s v := by
  cases step with
  | @refresh record registry journalled kind entered =>
    obtain ⟨file, found, same, -⟩ := journalled.file
    have changes : j.Changes := kind.imp_right And.left
    obtain ⟨did, rest⟩ := accounted.journals j outstanding file found
    obtain ⟨names, created⟩ := rest changes
    have is : record.summary.identityId = j.identityId := readIdentity_named journalled.read
    rw [same] at entered is
    refine .enter entered (is ▸ found) did (fun old listed => ?_) created (.inl rfl)
    obtain ⟨entry, there, named⟩ := names
    rw [did, listed, Option.some.injEq] at there
    rw [there, named, is]
  | undoImport | eraseDeleted => exact .other rfl rfl rfl
  | removeDeleted kind => exact .remove outstanding rfl (.inl kind)
  | delist kind _ removed named left =>
    refine .leave left (fun old listed => ?_)
    obtain ⟨entry, there, is⟩ := named
    rw [listed, Option.some.injEq] at there
    rw [there, is]
    exact removed
  | @activate record journalled kind named creating =>
    obtain ⟨file, found, same, done⟩ := journalled.file
    have is : record.identityId = j.identityId := readIdentity_named journalled.read
    have state : record.state = file.state := congrArg IdentitySummary.state same
    refine .replace (is ▸ found) (congrArg IdentitySummary.did same) (fun _ => by simp) (fun old => ?_) (.inr (.inr ⟨state ▸ creating, ?_⟩))
    · exact done.trans old
    · rw [← same]
      rfl
  | eraseCreated => exact .other rfl rfl rfl
  | removeCreated kind unnamed => exact .remove outstanding rfl (.inr unnamed)
  | close settled =>
    refine .close (fun other there closes => ?_)
    obtain rfl : other = j := Directory.key_injective there outstanding closes
    exact settled.done accounted outstanding

theorem RecoveryStep.bookkeeping (step : RecoveryStep anp s v) (accounted : s.Accounted) : Bookkeeping s v := by
  cases step with
  | creation outstanding step => exact step.bookkeeping accounted outstanding
  | update outstanding step =>
    cases step with
    | @clear record read =>
      obtain ⟨file, found, -, completed⟩ := readIdentity_ok.mp read
      obtain ⟨same, done⟩ := completeRecord_summary completed
      have is : record.identityId = _ := readIdentity_named read
      have state : record.state = file.state := congrArg IdentitySummary.state same
      exact .replace (is ▸ found) (congrArg IdentitySummary.did same) (fun created => by rwa [← state] at created)
        (fun old => done.trans old) (.inl same)
    | undoPrepare | eraseCleared | close => exact .other rfl rfl rfl

end

/-! ## Runs -/

/-- The registry and the files of a world are accounted for, and the registry names what handles are held on. -/
structure World.Accounted (w : World) : Prop where
  store : w.store.Accounted
  journals : ∀ j ∈ w.store.transactions, j.transactionId ∈ w.issued ∧ j.identityId ∈ w.issued
  handles : ∀ (i : Nat) self, w.identities[i]? = some self → w.store.Lists self.identityId

section
variable {anp : Anp} {w : World} {event : Event} {s : Store} {v : Write}

/-- A journal gets a new id, and is about an identity of the run. -/
private theorem Event.Permits.announces {j : CreationJournal} (permits : event.Permits anp w s (.journal j)) (filed : w.Filed)
    (agreed : w.Agreed anp) : j.transactionId ∈ event.ids ∧ (j.identityId ∈ event.ids ∨ j.identityId ∈ w.issued) := by
  cases permits with
  | recovery recovers step =>
    cases step with
    | creation outstanding step | update outstanding step => cases step
  | @store handle call entropy fault self action is held started step =>
    have drawn : entropy.transactionId ∈ event.ids ∧ entropy.identityId ∈ event.ids := by
      rw [is]
      exact ⟨List.mem_cons_of_mem _ List.mem_cons_self, List.mem_cons_self⟩
    have planned := started.planned
    cases step with
    | introduce step =>
      cases step
      exact ⟨drawn.1, .inl drawn.2⟩
    | create step =>
      cases step
      exact ⟨drawn.1, .inl drawn.2⟩
    | delete step =>
      cases planned with
      | delete deletes =>
        cases step
        obtain ⟨summary, -, read⟩ := deletes.registered
        obtain ⟨file, found, -⟩ := readIdentity_ok.mp read
        refine ⟨drawn.1, .inr ?_⟩
        rw [show (deletionJournal entropy _).identityId = _ from readIdentity_named read]
        exact filed.drawn _ _ found
  | @identity handle call entropy fault self action is held started step =>
    have drawn : entropy.transactionId ∈ event.ids := by
      rw [is]
      exact List.mem_cons_of_mem _ List.mem_cons_self
    obtain ⟨current, justified⟩ := started.started
    have known : action.seen.identityId ∈ w.issued := by
      rw [readIdentity_named current.read]
      exact (agreed _ _ held).1
    cases step with
    | prepare step | discard step => cases step
    | @edit change seen next _ _ step =>
      have also : next.identityId ∈ w.issued := by
        rw [(justified.keeping rfl : Keeping seen next).identityId]
        exact known
      cases step with
      | announce => exact ⟨drawn, .inr also⟩
      | register _ step => cases step
    | @importRoot transfer ref seen next _ _ step =>
      have also : next.identityId ∈ w.issued := by
        rw [(justified.keeping rfl : Keeping seen next).identityId]
        exact known
      cases step with
      | announce => exact ⟨drawn, .inr also⟩
      | register _ _ step => cases step

/-- What the steps of an event rest on. -/
structure World.Sound (anp : Anp) (w : World) : Prop where
  filed : w.Filed
  agreed : w.Agreed anp
  registers : w.Registers
  material : ∀ id file, w.store.identities id = some file → ∀ key ∈ file.keys, key.materialErased = false

theorem Event.Permits.bookkeeping (permits : event.Permits anp w s v) (fresh : event.Fresh w) (sound : w.Sound anp)
    (before : w.Accounted) (accounted : s.Accounted) : Bookkeeping s v := by
  cases permits with
  | recovery recovers step => exact step.bookkeeping accounted
  | @store handle call entropy fault self action is held started step =>
    have drawn : ∀ id ∈ entropy.ids, id ∉ w.issued := by
      intro id listed
      exact fresh.2 id (by rw [is]; exact listed)
    have new : entropy.identityId ∉ w.issued := drawn _ List.mem_cons_self
    refine step.bookkeeping started ⟨?_, fun did entry listed is => ?_, fun j outstanding is => ?_⟩ (fun j outstanding is => ?_)
    · cases there : w.store.identities entropy.identityId with
      | none => rfl
      | some file => exact absurd (sound.filed.drawn _ _ there) new
    · exact new (is ▸ sound.registers.known did entry listed)
    · exact new (is ▸ (before.journals j outstanding).2)
    · exact drawn entropy.transactionId (List.mem_cons_of_mem _ List.mem_cons_self) (is ▸ (before.journals j outstanding).1)
  | @identity handle call entropy fault self action is held started step =>
    obtain ⟨current, justified⟩ := started.started
    obtain ⟨file, found, shown, completed⟩ := current.agrees (sound.agreed _ _ held).2
    have named : action.seen.identityId = self.identityId := readIdentity_named current.read
    have mirrors := Shown.mirrors (.inr completed : Shown anp file action.seen)
    have enlisted : Enlisted anp w.store action.seen file := by
      refine ⟨named ▸ found, completed, ?_, ?_, ?_⟩
      · rw [named, mirrors.did]
        exact before.handles _ _ held file found
      · rw [mirrors.state, ← shown.mirrors.state]
        exact (sound.agreed _ _ held).2.created
      · rw [mirrors.keys]
        exact sound.material _ _ found
    refine step.bookkeeping justified enlisted (fun j outstanding same => ?_) accounted
    refine fresh.2 entropy.transactionId ?_ (same ▸ (before.journals j outstanding).1)
    rw [is]
    exact List.mem_cons_of_mem _ List.mem_cons_self

/-- The DID of a handle that an action returns. -/
private theorem StoreCall.Starts.returns_did {self : DidStore} {call : StoreCall} {entropy : Entropy} {action : StoreAction}
    {shown : IdentityRecord} (started : call.Starts anp s self entropy action) (returns : action.Returns anp entropy shown) :
    shown.did = action.did := by
  cases action with
  | introduce did keys record => exact (started.isNew returns).did
  | create spec built =>
    obtain ⟨made, makes, rfl⟩ := returns
    exact (started.isNew makes).did
  | delete did record => exact returns.elim

theorem Store.Accounted.congr {t : Store} (accounted : s.Accounted) (registry : t.registry = s.registry)
    (identities : t.identities = s.identities) (transactions : t.transactions = s.transactions) : t.Accounted where
  entries did entry listed := (accounted.entries did entry (registry ▸ listed)).mono (by rw [identities])
    (fun _ outstanding _ => transactions ▸ outstanding)
  created did entry listed := accounted.created did entry (registry ▸ listed)
  files id file found := by
    rw [registry, transactions]
    exact accounted.files id file (identities ▸ found)
  journals j outstanding file found := by
    rw [registry]
    exact accounted.journals j (transactions ▸ outstanding) file (identities ▸ found)

/-- A file that is gone does not come back during an event that has not drawn its id. -/
private theorem FileMove.gone {id : String} (move : FileMove anp w event s v) (old : id ∉ event.ids)
    (gone : s.identities id = none) : (Medium.apply s v).identities id = none := by
  have older := move.age_le old
  rw [Store.age_none gone] at older
  cases there : (Medium.apply s v).identities id with
  | none => rfl
  | some file =>
    rw [Store.age_some there] at older
    exact absurd older (by simp)

/-- What holds at every point of an event. -/
private theorem World.Accounted.during (before : w.Accounted) (sound : w.Sound anp) (fresh : event.Fresh w) :
    (applyAll w.store (event.writes anp w)).Accounted ∧
      (∀ j ∈ (applyAll w.store (event.writes anp w)).transactions,
        (j.transactionId ∈ event.ids ∨ j.transactionId ∈ w.issued) ∧ (j.identityId ∈ event.ids ∨ j.identityId ∈ w.issued)) ∧
      ∀ id ∈ w.issued, w.store.Lists id → (applyAll w.store (event.writes anp w)).Lists id := by
  have traced : Traced (event.Permits anp w) w.store (event.writes anp w) := event.traced
  refine traced.invariant (I := fun s => s.Accounted ∧ (∀ j ∈ s.transactions,
    (j.transactionId ∈ event.ids ∨ j.transactionId ∈ w.issued) ∧ (j.identityId ∈ event.ids ∨ j.identityId ∈ w.issued)) ∧
      ∀ id ∈ w.issued, w.store.Lists id → s.Lists id) ?_ ⟨before.store, ?_, fun _ _ lists => lists⟩
  · rintro s v ⟨accounted, known, lists⟩ permits
    have keeps := permits.bookkeeping fresh sound before accounted
    refine ⟨accounted.step keeps, fun j outstanding => ?_, fun id issued listed => ?_⟩
    · cases v with
      | journal new =>
        rcases Directory.mem_insert.mp outstanding with rfl | ⟨old, -⟩
        · exact ⟨.inl (permits.announces sound.filed sound.agreed).1, (permits.announces sound.filed sound.agreed).2⟩
        · exact known j old
      | removeJournal name => exact known j (Directory.mem_erase.mp outstanding).1
      | _ => exact known j outstanding
    · exact keeps.lists (lists id issued listed) (permits.fileMove.gone (fun drawn => fresh.2 id drawn issued))
  · intro j outstanding
    exact ⟨.inr (before.journals j outstanding).1, .inr (before.journals j outstanding).2⟩

theorem World.Accounted.step (before : w.Accounted) (sound : w.Sound anp) (fresh : event.Fresh w) :
    (w.step anp event).Accounted := by
  have steps : w.Steps anp event (w.step anp event) := World.steps event
  obtain ⟨accounted, known, lists⟩ := before.during sound fresh
  obtain ⟨transitions, same⟩ := steps.store
  have listed : ∀ id ∈ w.issued, w.store.Lists id → (w.step anp event).store.Lists id := by
    intro id issued old
    rw [same]
    exact lists id issued old
  refine ⟨accounted.congr (by rw [same]) (by rw [same]) (by rw [same]), fun j outstanding => ?_, fun i self held => ?_⟩
  · by_cases wrote : event.writes anp w = []
    · rw [same, wrote] at outstanding
      exact ⟨steps.kept _ (before.journals j outstanding).1, steps.kept _ (before.journals j outstanding).2⟩
    · rw [same] at outstanding
      have drawn := steps.drawn wrote
      exact ⟨(known j outstanding).1.elim (drawn _) (steps.kept _), (known j outstanding).2.elim (drawn _) (steps.kept _)⟩
  · rcases steps.identities i self held with old | presents
    · exact listed _ (sound.agreed i self old).1 (before.handles i self old)
    · obtain ⟨file, found, shown⟩ := presents.shown
      have names : (w.step anp event).store.registry.Names self.did self.identityId → (w.step anp event).store.Lists self.identityId := by
        intro names other there
        rw [found, Option.some.injEq] at there
        rw [← there, ← shown.mirrors.did]
        exact names
      cases presents with
      | @acted entropy former call action record began stores is shows =>
        obtain ⟨-, heldBefore, started⟩ := began
        obtain ⟨current, justified⟩ := started.started
        have id : self.identityId = former.identityId := by
          rw [DidIdentity.identityId, is, IdentityRecord.raised_identityId, (justified.keeping stores).identityId]
          exact readIdentity_named current.read
        rw [id]
        exact listed _ (sound.agreed _ _ heldBefore).1 (before.handles _ _ heldBefore)
      | brought brought returns _ named =>
        obtain ⟨-, -, started⟩ := brought
        refine names ?_
        rwa [DidIdentity.did, started.returns_did returns]
      | opened opens => exact names opens.registered

theorem World.accounted_initial : World.initial.Accounted where
  store := ⟨fun _ _ listed => (nomatch listed), fun _ _ listed => (nomatch listed), fun _ _ found => (nomatch found),
    fun _ outstanding => (nomatch outstanding)⟩
  journals _ outstanding := nomatch outstanding
  handles _ _ held := nomatch held

section
variable {condition : World → Event → Prop} {events : List Event}

theorem World.sound_run (meets : World.initial.Meets anp condition events) : (World.initial.run anp events).Sound anp where
  filed := World.filed_run meets
  agreed := World.agreed_run meets
  registers := by
    have both := World.run_induction (I := fun w => w.Filed ∧ w.Registers)
      (fun w event now fresh _ => ⟨now.1.step event, now.2.step now.1 fresh⟩)
      ⟨World.filed_initial, fun _ _ listed => (nomatch listed), fun _ _ _ listed => (nomatch listed)⟩ meets
    exact both.2
  material id file found key listed := (inherent_material.run meets found key (List.mem_append_left _ listed)).1

theorem World.accounted_run (meets : World.initial.Meets anp condition events) : (World.initial.run anp events).Accounted := by
  induction events using List.reverseRecOn with
  | nil => exact World.accounted_initial
  | append_singleton events event ih =>
    obtain ⟨before, fresh, -⟩ := World.meets_append.mp meets
    rw [World.run_snoc]
    exact (ih before).step (World.sound_run before) fresh

end

namespace Plain

/-- The process that creates an identity stops after the registry was written; another opens the store. -/
def stoppedCreation : List Event :=
  [.openStore none, .store 0 (.createIdentity webSpec) (entropy "0" 1) (some 4), .openStore none]

end Plain

/-- The registry lists the identity files, each under its DID and with its summary. -/
structure Store.Matched (s : Store) : Prop where
  entries : ∀ did entry, s.registry.identities did = some entry →
    ∃ file, s.identities entry.identityId = some file ∧ file.did = did ∧ file.summary = entry
  files : ∀ id file, s.identities id = some file → file.identityId = id ∧ s.registry.identities file.did = some file.summary

theorem World.matched_run {condition : World → Event → Prop} {events : List Event}
    (meets : World.initial.Meets anp condition events)
    (settled : (World.initial.run anp events).store.transactions.entries = []) : (World.initial.run anp events).store.Matched := by
  have accounted := (World.accounted_run meets).store
  have none : ∀ j, j ∉ (World.initial.run anp events).store.transactions := by
    intro j outstanding
    have listed : j ∈ (World.initial.run anp events).store.transactions.entries := outstanding
    rw [settled] at listed
    cases listed
  have backed : ∀ did entry, (World.initial.run anp events).store.registry.identities did = some entry →
      ∃ file, (World.initial.run anp events).store.identities entry.identityId = some file ∧ file.did = did ∧ file.summary = entry := by
    intro did entry listed
    cases accounted.entries did entry listed with
    | current found named same => exact ⟨_, found, named, same.symm⟩
    | stale _ _ outstanding | deleting _ outstanding => exact absurd outstanding (none _)
  refine ⟨backed, fun id file found => ⟨(World.filed_run meets).named id file found, ?_⟩⟩
  rcases accounted.files id file found with ⟨entry, listed, is⟩ | ⟨j, outstanding, -⟩
  · obtain ⟨other, there, -, same⟩ := backed file.did entry listed
    rw [is, found, Option.some.injEq] at there
    rw [listed, there, same]
  · exact absurd outstanding (none j)

theorem registry_matches_files {events : List Event} (meets : World.initial.Meets anp (fun _ _ => True) events)
    (settled : (World.initial.run anp events).store.transactions.entries = []) : (World.initial.run anp events).store.Matched :=
  World.matched_run meets settled

/-- A creation whose process stops after the registry was written, and the recovery that ends it. -/
theorem registry_matches_files_recovered :
    (World.initial.run Plain.anp Plain.stoppedCreation).store.registry.Names "did:web:a.b" "i0" ∧
      (World.initial.run Plain.anp Plain.stoppedCreation).store.Matched := by
  have meets : World.initial.Meets Plain.anp (fun _ _ => True) Plain.stoppedCreation := by decide +kernel
  have named : ((World.initial.run Plain.anp Plain.stoppedCreation).store.registry.identities "did:web:a.b").any
      (fun entry => entry.identityId = "i0") = true := by decide +kernel
  obtain ⟨entry, listed, is⟩ := Option.any_eq_true _ _ |>.mp named
  exact ⟨⟨entry, listed, by simpa using is⟩, registry_matches_files meets (by decide +kernel)⟩

/-- What every process can rely on once a store was opened again, wherever the others had stopped. -/
theorem reopened_stores_coherent {events : List Event} {registry : IdentityRegistry}
    (meets : World.initial.Meets anp (fun _ _ => True) events)
    (recovered : (recover anp).result (World.initial.run anp events).store = .ok registry) :
    let before := World.initial.run anp events
    let after := before.step anp (.openStore none)
    after.store.outstanding = [] ∧ after.store.Matched ∧
      ∀ (i : Nat) self file, after.identities[i]? = some self → after.store.identities self.identityId = some file →
        self.record.generation ≤ file.generation ∧ (file.generation = self.record.generation → Mirrors file self.record) := by
  intro before after
  have opened : before.Meets anp (fun _ _ => True) [.openStore none] := ⟨⟨List.nodup_nil, by simp [Event.ids]⟩, trivial, trivial⟩
  have reached : World.initial.run anp (events ++ [.openStore none]) = after := World.run_snoc
  have whole := World.meets_append.mpr ⟨meets, opened⟩
  have settled : after.store.outstanding = [] := by
    have same : after.store = (recover anp).final before.store := by
      change applyAll before.store ((recover anp >>= _).writes before.store) = _
      rw [(bind_ok _ recovered).1]
      exact congrArg _ (List.append_nil _)
    rw [same, recover_final]
    exact (settle_resumable anp).drained (recover_ok.mp recovered).1
  refine ⟨settled, ?_, ?_⟩
  · have none : after.store.transactions.entries = [] := List.map_eq_nil_iff.mp (List.append_eq_nil_iff.mp settled).1
    rw [← reached] at none ⊢
    exact World.matched_run whole none
  · intro i self file held found
    have agreed := World.agreed_run whole
    rw [reached] at agreed
    obtain ⟨-, agrees⟩ := agreed i self held
    exact ⟨agrees.behind file found, fun same => (agrees.shown file found same).mirrors⟩

/-- A creation that stops half-way, and the process that opens the store next. -/
theorem reopened_stores_coherent_stopped :
    let after := World.initial.run Plain.anp Plain.stoppedCreation
    after.store.outstanding = [] ∧ after.store.Matched := by
  have meets : World.initial.Meets Plain.anp (fun _ _ => True) (Plain.stoppedCreation.take 2) := by decide +kernel
  have ok : ((recover Plain.anp).result (World.initial.run Plain.anp (Plain.stoppedCreation.take 2)).store).isOk = true := by
    decide +kernel
  cases recovered : (recover Plain.anp).result (World.initial.run Plain.anp (Plain.stoppedCreation.take 2)).store with
  | error e => rw [recovered] at ok; cases ok
  | ok registry => exact (reopened_stores_coherent meets recovered).imp id And.left

end
end AnpIdentity
