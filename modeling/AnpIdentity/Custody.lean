import AnpIdentity.Isolation
import AnpIdentity.Session

/-! Where secrets are named. A secret is sealed for a key of the record, or for an update: then the journal of the update
names it, and the pending revision after that. What a deletion leaves behind are secrets that no managed key names. -/

namespace AnpIdentity
open Durable Program

/-- The references of the keys of a record, wherever their secrets are. -/
def IdentityRecord.keyRefs (record : IdentityRecord) : List SecretRef := record.keys.map record.secretRef

/-- The secrets that the pending revision of a record brings. -/
def IdentityRecord.pendingRefs (record : IdentityRecord) : List SecretRef :=
  record.pendingRevision.elim [] (·.pendingSecretRefs)

/-- The journal of an outstanding update names the secret. -/
def Store.Updates (s : Store) (ref : SecretRef) : Prop := ∃ j ∈ s.updateTransactions, ref ∈ j.secretRefs

/-- The record or the journal of an update names the secret. -/
def Store.Names (s : Store) (record : IdentityRecord) (ref : SecretRef) : Prop :=
  ref ∈ record.keyRefs ∨ ref ∈ record.pendingRefs ∨ s.Updates ref

/-- The journal names the secrets of the revision. -/
def UpdateJournal.Fits (j : UpdateJournal) (id : String) (pending : PendingRevisionRecord) : Prop :=
  pending.revisionId = j.revisionId → j.identityId = id ∧ j.secretRefs = pending.pendingSecretRefs

/-- Every secret of an identity that has a file is named, and its ids and those of updates were drawn. -/
structure Store.Custody (known : String → Prop) (s : Store) : Prop where
  named : ∀ ref file, s.secrets ref ≠ none → s.identities ref.identityId = some file → s.Names file ref
  fits : ∀ j ∈ s.updateTransactions, ∀ id file pending, s.identities id = some file → file.pendingRevision = some pending →
    j.Fits id pending
  owners : ∀ ref, s.secrets ref ≠ none → known ref.identityId
  drawn : ∀ j ∈ s.updateTransactions, known j.revisionId

/-- Writes that neither seal a secret nor touch files and update journals, except that they may remove a file. -/
def Write.Quiet : Write → Prop
  | .seal .. | .updateJournal _ | .removeUpdateJournal _ | .identity _ => False
  | _ => True

section
variable {known : String → Prop} {s t : Store} {v : Write} {record file : IdentityRecord} {ref : SecretRef}

theorem Store.Custody.mono {more : String → Prop} (custody : s.Custody known) (weaker : ∀ id, known id → more id) : s.Custody more :=
  ⟨custody.named, custody.fits, fun ref there => weaker _ (custody.owners ref there), fun j listed => weaker _ (custody.drawn j listed)⟩

/-! ## Writes -/

theorem Store.Custody.quiet (custody : s.Custody known) (quiet : v.Quiet) : (Medium.apply s v).Custody known := by
  have files : ∀ gone id file, (Medium.apply s (.removeIdentity gone)).identities id = some file → s.identities id = some file := by
    intro gone id file found
    by_cases same : id = gone
    · rw [same, identities_remove_self] at found
      cases found
    · rwa [identities_remove_ne s same] at found
  have kept : ∀ gone ref, (Medium.apply s (.deleteSecret gone)).secrets ref ≠ none → s.secrets ref ≠ none := by
    intro gone ref there
    by_cases same : ref = gone
    · exact absurd (by rw [same]; exact Function.update_self ..) there
    · rwa [show (Medium.apply s (.deleteSecret gone)).secrets ref = s.secrets ref from Function.update_of_ne same ..] at there
  cases v with
  | «seal» | updateJournal | removeUpdateJournal | identity => exact quiet.elim
  | removeIdentity gone =>
    exact ⟨fun ref file there found => custody.named ref file there (files gone _ file found),
      fun j listed id file pending found => custody.fits j listed id file pending (files gone id file found),
      custody.owners, custody.drawn⟩
  | deleteSecret gone =>
    exact ⟨fun ref file there => custody.named ref file (kept gone ref there), custody.fits,
      fun ref there => custody.owners ref (kept gone ref there), custody.drawn⟩
  | _ => exact ⟨custody.named, custody.fits, custody.owners, custody.drawn⟩

theorem Store.Custody.keep {plaintext : Bytes} (custody : s.Custody known) (owner : known ref.identityId)
    (names : ∀ file, s.identities ref.identityId = some file → s.Names file ref) :
    (Medium.apply s (.seal ref plaintext)).Custody known := by
  have before : ∀ other, other ≠ ref → (Medium.apply s (.seal ref plaintext)).secrets other = s.secrets other :=
    fun other apart => Function.update_of_ne apart ..
  refine ⟨fun other file there found => ?_, custody.fits, fun other there => ?_, custody.drawn⟩
  · by_cases same : other = ref
    · subst same
      exact names file found
    · exact custody.named other file (before other same ▸ there) found
  · by_cases same : other = ref
    · exact same ▸ owner
    · exact custody.owners other (before other same ▸ there)

theorem Store.Custody.announce {j : UpdateJournal} (custody : s.Custody known) (drawn : known j.revisionId)
    (fits : ∀ id file pending, s.identities id = some file → file.pendingRevision = some pending → j.Fits id pending)
    (same : ∀ old ∈ s.updateTransactions, old.revisionId = j.revisionId → ∀ ref ∈ old.secretRefs, ref ∈ j.secretRefs) :
    (Medium.apply s (.updateJournal j)).Custody known := by
  refine ⟨fun ref file there found => ?_, fun k listed id file pending found pends => ?_, custody.owners, fun k listed => ?_⟩
  · refine (custody.named ref file there found).imp_right (Or.imp_right ?_)
    rintro ⟨old, listed, inside⟩
    by_cases replaced : old.revisionId = j.revisionId
    · exact ⟨j, Directory.mem_insert.mpr (.inl rfl), same old listed replaced ref inside⟩
    · exact ⟨old, Directory.mem_insert.mpr (.inr ⟨listed, replaced⟩), inside⟩
  · rcases Directory.mem_insert.mp listed with rfl | ⟨listed, -⟩
    · exact fits id file pending found pends
    · exact custody.fits k listed id file pending found pends
  · rcases Directory.mem_insert.mp listed with rfl | ⟨listed, -⟩
    · exact drawn
    · exact custody.drawn k listed

/-- A journal may go when the record names its secrets or they are gone. -/
theorem Store.Custody.close {name : String} (custody : s.Custody known)
    (done : ∀ j ∈ s.updateTransactions, j.revisionId = name → ∀ ref ∈ j.secretRefs, s.secrets ref ≠ none →
      ∀ file, s.identities ref.identityId = some file → ref ∈ file.pendingRefs) :
    (Medium.apply s (.removeUpdateJournal name)).Custody known := by
  have earlier : ∀ j ∈ s.updateTransactions.erase name, j ∈ s.updateTransactions := fun j listed => (Directory.mem_erase.mp listed).1
  refine ⟨fun ref file there found => ?_, fun j listed => custody.fits j (earlier j listed), custody.owners,
    fun j listed => custody.drawn j (earlier j listed)⟩
  rcases custody.named ref file there found with key | pending | ⟨j, listed, inside⟩
  · exact .inl key
  · exact .inr (.inl pending)
  · by_cases closed : j.revisionId = name
    · exact .inr (.inl (done j listed closed ref inside there file found))
    · exact .inr (.inr ⟨j, Directory.mem_erase.mpr ⟨listed, closed⟩, inside⟩)

/-- A file may be written that names the secrets of its identity. -/
theorem Store.Custody.store (custody : s.Custody known)
    (names : ∀ ref, ref.identityId = record.identityId → s.secrets ref ≠ none → s.Names record ref)
    (fits : ∀ j ∈ s.updateTransactions, ∀ pending, record.pendingRevision = some pending → j.Fits record.identityId pending) :
    (Medium.apply s (.identity record)).Custody known := by
  refine ⟨fun ref file there found => ?_, fun j listed id file pending found => ?_, custody.owners, custody.drawn⟩
  · by_cases own : ref.identityId = record.identityId
    · rw [own, identities_put_self, Option.some.injEq] at found
      exact found ▸ names ref own there
    · rw [identities_put_ne s own] at found
      exact custody.named ref file there found
  · by_cases own : id = record.identityId
    · rw [own, identities_put_self, Option.some.injEq] at found
      exact own ▸ found ▸ fits j listed pending
    · rw [identities_put_ne s own] at found
      exact custody.fits j listed id file pending found

/-- A file may be replaced by one that still names what it named. -/
theorem Store.Custody.replace (custody : s.Custody known) (record : IdentityRecord) (found : s.identities record.identityId = some file)
    (keys : ∀ ref ∈ file.keyRefs, ref ∈ record.keyRefs) (pending : ∀ ref ∈ file.pendingRefs, s.Names record ref)
    (fits : ∀ j ∈ s.updateTransactions, ∀ pending, record.pendingRevision = some pending → j.Fits record.identityId pending) :
    (Medium.apply s (.identity record)).Custody known := by
  refine custody.store (fun ref own there => ?_) fits
  rcases custody.named ref file there (own ▸ found) with key | pends | updates
  · exact .inl (keys ref key)
  · exact pending ref pends
  · exact .inr (.inr updates)

end

/-! ## Records -/

/-- What is left of the references of a record that was edited. -/
structure KeepsRefs (seen next : IdentityRecord) : Prop where
  keys : ∀ ref ∈ seen.keyRefs, ref ∈ next.keyRefs
  pending : ∀ ref ∈ seen.pendingRefs, ref ∈ next.keyRefs ∨ ref ∈ next.pendingRefs
  revision : ∀ pending, next.pendingRevision = some pending → ∃ old, seen.pendingRevision = some old ∧
    pending.revisionId = old.revisionId ∧ pending.pendingSecretRefs = old.pendingSecretRefs

/-- The secrets of a revision are those of keys that it adds. -/
def ListsRefs (id : String) (pending : PendingRevisionRecord) : Prop :=
  ∀ ref ∈ pending.pendingSecretRefs, ∃ key ∈ pending.newKeyMetadata,
    ({ identityId := id, keyId := key.kid, role := key.role, version := key.version } : SecretRef) = ref

section
variable {anp : Anp} {s : Store} {self : DidIdentity} {entropy : Entropy} {seen next file : IdentityRecord}

theorem inheres_listsRefs : Inheres anp ListsRefs where
  planned planned ref inside := (planUpdate_ok planned).listed ref inside
  moved holds := holds

theorem KeepsRefs.same (keys : next.keyRefs = seen.keyRefs) (pending : next.pendingRevision = seen.pendingRevision) :
    KeepsRefs seen next := by
  refine ⟨fun ref inside => keys ▸ inside, fun ref inside => .inr ?_, fun revision found => ⟨revision, pending ▸ found, rfl, rfl⟩⟩
  rw [IdentityRecord.pendingRefs, pending]
  exact inside

theorem keyRefs_same (next : IdentityRecord) (same : SameKeys next.keys seen.keys) (id : next.identityId = seen.identityId) :
    next.keyRefs = seen.keyRefs := by
  have lists := congrArg (List.map seen.secretRef) same
  rw [List.map_map, List.map_map] at lists
  have refs : next.secretRef = seen.secretRef := by
    funext key
    rw [IdentityRecord.secretRef, IdentityRecord.secretRef, id]
  rw [IdentityRecord.keyRefs, refs]
  exact lists

theorem completeRecord_refs (completed : completeRecord anp file = .ok seen) :
    seen.keyRefs = file.keyRefs ∧ seen.pendingRevision = file.pendingRevision := by
  obtain ⟨_, _, _, rfl⟩ := completeRecord_same completed
  exact ⟨rfl, rfl⟩

private theorem adoptRootKey_refs (seen : IdentityRecord) {rootKid : String} {root : KeyMetadata} {keys others : List KeyMetadata}
    (adopted : adoptRootKey rootKid keys = some (root, others)) :
    others.map seen.secretRef = keys.map seen.secretRef ∧ root ∈ keys ∧ root.role = .rootControl ∧ root.kid = rootKid := by
  induction keys generalizing others with
  | nil => cases adopted
  | cons first rest ih =>
    unfold adoptRootKey at adopted
    split at adopted
    · rename_i found
      cases adopted
      exact ⟨rfl, List.mem_cons_self, found⟩
    · obtain ⟨⟨found, more⟩, later, same⟩ := Option.map_eq_some_iff.mp adopted
      cases same
      obtain ⟨refs, inside, role⟩ := ih later
      exact ⟨by rw [List.map_cons, List.map_cons, refs], List.mem_cons_of_mem _ inside, role⟩

/-- An edit leaves all references; a commit makes those of the revision references of keys. -/
theorem Justified.keepsRefs {change : Edit} (justified : Justified anp s self entropy (.edit change seen next))
    (lists : seen.Pending ListsRefs) : KeepsRefs seen next := by
  cases justified with
  | moved _ _ moves =>
    obtain ⟨found, -, -, rfl⟩ := moves
    refine ⟨fun _ inside => inside, fun ref inside => .inr ?_, fun pending same => ?_⟩
    · rw [IdentityRecord.pendingRefs, found] at inside
      exact inside
    · cases same
      exact ⟨_, found, rfl, rfl⟩
  | committed _ commits =>
    obtain ⟨keys, authorization, retired, checkpoint, same, -, -, -, -, rfl⟩ := commits.committed
    have refs : keys.map seen.secretRef = seen.keyRefs := keyRefs_same { seen with keys } same rfl
    refine ⟨fun ref inside => ?_, fun ref inside => .inl ?_, fun pending found => by cases found⟩
    · rw [← refs] at inside
      obtain ⟨key, listed, rfl⟩ := List.mem_map.mp inside
      exact List.mem_map.mpr ⟨key, List.mem_append_left _ listed, rfl⟩
    · rw [IdentityRecord.pendingRefs, commits.found] at inside
      obtain ⟨key, listed, rfl⟩ := lists _ commits.found ref inside
      exact List.mem_map.mpr ⟨key, List.mem_append_right _ listed, rfl⟩
  | adopted _ _ _ adopts =>
    obtain ⟨changed, authorization, retired, readjusts, -, rfl⟩ := adopts.adopted
    exact .same (keyRefs_same changed readjusts.sameKeys readjusts.keeping.identityId) readjusts.pendingRevision
  | promoted _ _ promotes =>
    obtain ⟨keys, activated, rfl⟩ := promotes.promoted
    exact .same (keyRefs_same { seen with keys } (activateRootKey_same activated) rfl) rfl
  | replayed _ transfers =>
    cases transfers
    exact .same (keyRefs_same _ (SameKeys.refl seen.keys) rfl) rfl

/-- A root import seals the secret of a key that the record has. -/
theorem Justified.importsRef {transfer : RootTransfer} {ref : SecretRef}
    (justified : Justified anp s self entropy (.importRoot transfer ref seen next)) : KeepsRefs seen next ∧ ref ∈ seen.keyRefs := by
  cases justified with
  | imported _ transfers =>
    cases transfers with
    | @imported root keys _ _ _ _ adopted =>
      obtain ⟨refs, inside, role, kid⟩ := adoptRootKey_refs seen adopted
      refine ⟨.same refs rfl, List.mem_map.mpr ⟨root, inside, ?_⟩⟩
      rw [IdentityRecord.secretRef, role, kid]

end

/-! ## Calls on identities -/

/-- What an action on an identity rests on: the record is the one in the store, and the id of a new revision is new. -/
structure Working (anp : Anp) (known : String → Prop) (entropy : Entropy) (start : Store) (seen file : IdentityRecord) : Prop where
  found : start.identities seen.identityId = some file
  completed : completeRecord anp file = .ok seen
  owner : known seen.identityId
  revision : known entropy.revisionId
  pending : ∀ pending, seen.pendingRevision = some pending → known pending.revisionId ∧
    ∀ id other revision, start.identities id = some other → other.pendingRevision = some revision →
      revision.revisionId = pending.revisionId → seen.identityId = id
  fresh : ∀ j ∈ start.updateTransactions, j.revisionId ≠ entropy.revisionId
  new : ∀ id other revision, start.identities id = some other → other.pendingRevision = some revision →
    revision.revisionId ≠ entropy.revisionId
  lists : seen.Pending ListsRefs

section
variable {anp : Anp} {known : String → Prop} {entropy : Entropy} {start s : Store} {self : DidIdentity} {seen next file : IdentityRecord}
  {v : Write} {action : IdentityAction}

/-- The record of an edit takes the place of the one that it was made from. -/
private theorem Working.edit (working : Working anp known entropy start seen file) (custody : s.Custody known)
    (keeps : KeepsRefs seen next) (id : next.identityId = seen.identityId) (files : s.identities = start.identities) :
    (Medium.apply s (.identity next.raised)).Custody known := by
  obtain ⟨refs, pending⟩ := completeRecord_refs working.completed
  have found : s.identities next.raised.identityId = some file := by
    rw [IdentityRecord.raised_identityId, id, files]
    exact working.found
  refine custody.replace _ found (fun ref inside => keeps.keys ref (refs ▸ inside)) (fun ref inside => ?_)
    (fun j listed revision pends => ?_)
  · rw [IdentityRecord.pendingRefs, ← pending] at inside
    exact (keeps.pending ref inside).imp_right .inl
  · obtain ⟨old, before, same, equal⟩ := keeps.revision revision pends
    rw [UpdateJournal.Fits, same, equal]
    exact custody.fits j listed _ file old found (pending ▸ before)

private theorem RegisterStep.custody {begun : Store} (step : RegisterStep entropy begun next s v)
    (working : Working anp known entropy start seen file) (custody : s.Custody known) (keeps : KeepsRefs seen next)
    (id : next.identityId = seen.identityId) (files : begun.identities = start.identities) : (Medium.apply s v).Custody known := by
  cases step with
  | store => exact working.edit custody keeps id files
  | refresh | close => exact custody.quiet trivial

private theorem PrepareStep.custody {plan : UpdatePlan} (step : PrepareStep anp entropy start seen plan s v)
    (planned : Planned anp seen plan) (working : Working anp known entropy start seen file) (custody : s.Custody known) :
    (Medium.apply s v).Custody known := by
  have inserted : prepareJournal entropy seen plan ∈ start.updateTransactions.insert (prepareJournal entropy seen plan) :=
    Directory.mem_insert.mpr (.inl rfl)
  cases step with
  | announce =>
    refine custody.announce working.revision (fun id other revision found pends same => ?_) (fun old listed same => ?_)
    · exact absurd same (working.new id other revision found pends)
    · exact absurd same (working.fresh old listed)
  | keep _ inside =>
    have listed := planned.sealed ▸ List.mem_map_of_mem inside
    refine custody.keep ?_ (fun _ _ => .inr (.inr ⟨_, inserted, listed⟩))
    rw [(planned.refs _ listed).1]
    exact working.owner
  | @store secrets digest =>
    obtain ⟨refs, pending⟩ := completeRecord_refs working.completed
    refine custody.replace (preparedRecord entropy seen plan digest).raised working.found
      (fun ref inside => refs ▸ inside) (fun ref inside => ?_) (fun j listed revision pends same => ?_)
    · rw [IdentityRecord.pendingRefs, ← pending, planned.clear] at inside
      cases inside
    · cases pends
      obtain rfl : j = prepareJournal entropy seen plan := Directory.key_injective listed inserted same.symm
      exact ⟨rfl, rfl⟩
  | @close secrets digest =>
    refine custody.close (fun j listed same ref inside _ other found => ?_)
    obtain rfl : j = prepareJournal entropy seen plan := Directory.key_injective listed inserted same
    rw [(planned.refs ref inside).1] at found
    obtain rfl : (preparedRecord entropy seen plan digest).raised = other :=
      Option.some.inj ((identities_put_self start (preparedRecord entropy seen plan digest).raised).symm.trans found)
    exact inside

private theorem DiscardStep.custody {pending : PendingRevisionRecord} (step : DiscardStep entropy start seen pending s v)
    (pends : seen.pendingRevision = some pending) (working : Working anp known entropy start seen file) (custody : s.Custody known) :
    (Medium.apply s v).Custody known := by
  obtain ⟨refs, same⟩ := completeRecord_refs working.completed
  have inserted : cleanupJournal entropy seen pending ∈ start.updateTransactions.insert (cleanupJournal entropy seen pending) :=
    Directory.mem_insert.mpr (.inl rfl)
  obtain ⟨drawn, only⟩ := working.pending pending pends
  cases step with
  | announce =>
    refine custody.announce drawn (fun id other revision found has named => ?_) (fun old listed named ref inside => ?_)
    · obtain rfl := only id other revision found has named
      rw [working.found, Option.some.injEq] at found
      rw [← found, ← same, pends, Option.some.injEq] at has
      exact ⟨rfl, by rw [← has]; rfl⟩
    · rw [(custody.fits old listed _ file pending working.found (same ▸ pends) named.symm).2] at inside
      exact inside
  | store =>
    refine custody.replace (clearedRecord seen).raised working.found (fun ref inside => refs ▸ inside)
      (fun ref inside => .inr (.inr ⟨_, inserted, ?_⟩)) (fun j listed revision has => by cases has)
    rw [IdentityRecord.pendingRefs, ← same, pends] at inside
    exact inside
  | erase => exact custody.quiet trivial
  | close _ gone =>
    refine custody.close (fun j listed named ref inside there => ?_)
    obtain rfl : j = cleanupJournal entropy seen pending := Directory.key_injective listed inserted named
    exact absurd (gone ref inside) there

theorem IdentityStep.custody (step : IdentityStep anp entropy start action s v) (justified : Justified anp start self entropy action)
    (working : Working anp known entropy start action.seen file) (custody : s.Custody known) : (Medium.apply s v).Custody known := by
  cases step with
  | prepare step =>
    cases justified with
    | prepare _ planned => exact step.custody (planUpdate_ok planned) working custody
  | discard step =>
    cases justified with
    | discard _ found => exact step.custody found working custody
  | @edit change seen next _ _ step =>
    have keeps := justified.keepsRefs working.lists
    have id : next.identityId = seen.identityId := (justified.keeping rfl).identityId
    cases step with
    | plain => exact working.edit custody keeps id rfl
    | announce => exact custody.quiet trivial
    | register _ step => exact step.custody working custody keeps id rfl
  | @importRoot transfer ref seen next _ _ step =>
    obtain ⟨keeps, listed⟩ := justified.importsRef
    have id : next.identityId = seen.identityId := (justified.keeping rfl).identityId
    cases step with
    | announce => exact custody.quiet trivial
    | keep =>
      obtain ⟨key, -, rfl⟩ := List.mem_map.mp listed
      refine custody.keep working.owner (fun other found => .inl ?_)
      obtain rfl : file = other := Option.some.inj (working.found.symm.trans found)
      exact (completeRecord_refs working.completed).1 ▸ listed
    | register _ _ step => exact step.custody working custody keeps id rfl

end

/-! ## Calls on stores -/

section
variable {anp : Anp} {known : String → Prop} {entropy : Entropy} {start s : Store} {self : DidStore} {v : Write} {call : StoreCall}
  {action : StoreAction}

/-- The store has no file and no secret of the identity. -/
structure Store.Bare (s : Store) (id : String) : Prop where
  absent : s.identities id = none
  secrets : ∀ ref, ref.identityId = id → s.secrets ref = none

private theorem IntroduceStep.custody {j : CreationJournal} {keys : List NewKey} {record : DidResult IdentityRecord}
    (step : IntroduceStep anp start j (sealedKeys entropy keys) record s v) (bare : start.Bare entropy.identityId)
    (owner : known entropy.identityId) (custody : s.Custody known)
    (new : ∀ made, record = .ok made → made.identityId = entropy.identityId ∧ made.pendingRevision = none ∧ DescribesKeys keys made.keys) :
    (Medium.apply s v).Custody known := by
  cases step with
  | announce => exact custody.quiet trivial
  | keep _ inside =>
    obtain ⟨key, -, rfl⟩ := List.mem_map.mp inside
    exact custody.keep owner (fun file found => absurd (bare.absent.symm.trans found) (Option.some_ne_none file).symm)
  | @store secrets made onto _ built =>
    obtain ⟨id, clear, described⟩ := new made built
    refine custody.store (fun ref own there => .inl ?_) (fun j listed pending pends => by rw [clear] at pends; cases pends)
    obtain ⟨secret, sealed⟩ := Option.ne_none_iff_exists'.mp there
    obtain ⟨key, inside, rfl, -⟩ := onto.new ref secret (bare.secrets ref (own.trans id)) sealed
    obtain ⟨source, listed, rfl⟩ := List.mem_map.mp inside
    obtain ⟨metadata, inside, describes⟩ := described source listed
    refine List.mem_map.mpr ⟨metadata, inside, ?_⟩
    rw [IdentityRecord.secretRef, id, describes.kid, describes.role, describes.version]
    rfl

theorem StoreStep.custody (step : StoreStep anp entropy start action s v) (started : call.Starts anp start self entropy action)
    (bare : start.Bare entropy.identityId) (owner : known entropy.identityId) (custody : s.Custody known) :
    (Medium.apply s v).Custody known := by
  have new : ∀ made, action.Makes anp entropy made →
      made.identityId = entropy.identityId ∧ made.pendingRevision = none ∧ DescribesKeys (action.newKeys anp) made.keys :=
    fun made makes => ⟨(started.isNew makes).identityId, (started.isNew makes).pendingRevision, (started.described makes).2⟩
  cases step with
  | introduce step | create step => exact step.custody bare owner custody new
  | enlist | close | enlistCreated | closeCreated => exact custody.quiet trivial
  | @activate spec built secrets made registry ready =>
    refine custody.replace { made with state := .active } (identities_put_self start made) (fun _ inside => inside)
      (fun _ inside => .inr (.inl inside)) (fun j listed pending pends => ?_)
    rw [show made.pendingRevision = none from (new made ready.built).2.1] at pends
    cases pends
  | delete step => cases step <;> exact custody.quiet trivial

/-! ## Recovery -/

theorem RecoveryStep.custody (step : RecoveryStep anp s v) (owned : s.Owned) (custody : s.Custody known) :
    (Medium.apply s v).Custody known := by
  cases step with
  | creation outstanding step =>
    cases step with
    | @activate record journalled =>
      obtain ⟨file, found, -, completed⟩ := readIdentity_ok.mp journalled.read
      rw [← readIdentity_named journalled.read] at found
      obtain ⟨refs, same⟩ := completeRecord_refs completed
      refine custody.replace { record with state := .active } found (fun ref inside => ?_) (fun ref inside => .inr (.inl ?_))
        (fun j listed pending pends => custody.fits j listed _ file pending found (same ▸ pends))
      · exact refs ▸ inside
      · rw [IdentityRecord.pendingRefs, ← same] at inside
        exact inside
    | _ => exact custody.quiet trivial
  | @update j outstanding step =>
    cases step with
    | undoPrepare | eraseCleared => exact custody.quiet trivial
    | @clear record read _ pends =>
      obtain ⟨file, found, -, completed⟩ := readIdentity_ok.mp read
      rw [← readIdentity_named read] at found
      obtain ⟨refs, same⟩ := completeRecord_refs completed
      obtain ⟨pending, has, named⟩ := pends
      refine custody.replace (clearedRecord record).raised found (fun ref inside => refs ▸ inside)
        (fun ref inside => .inr (.inr ⟨j, outstanding, ?_⟩)) (fun j listed revision has => by cases has)
      rw [(custody.fits j outstanding _ file pending found (same ▸ has) named).2]
      rw [IdentityRecord.pendingRefs, ← same, has] at inside
      exact inside
    | close settled =>
      refine custody.close (fun k listed same ref inside there file found => ?_)
      obtain rfl : k = j := Directory.key_injective listed outstanding same
      obtain ⟨record, read, rest⟩ := settled
      split at rest
      · rcases rest with ⟨pending, has, named⟩ | gone
        · obtain ⟨other, stored, -, completed⟩ := readIdentity_ok.mp read
          rw [owned.updates k outstanding ref inside, stored, Option.some.injEq] at found
          subst found
          have pends := (completeRecord_refs completed).2 ▸ has
          rw [(custody.fits k outstanding _ other pending stored pends named).2] at inside
          rw [IdentityRecord.pendingRefs, pends]
          exact inside
        · exact absurd (gone ref inside) there
      · exact absurd (rest.2 ref inside) there

end

/-! ## Runs -/

section
variable {anp : Anp} {w : World} {event : Event} {s : Store} {v : Write} {condition : World → Event → Prop} {events : List Event}

/-- What the custody of secrets rests on in the world before an event. -/
structure World.Keeper (anp : Anp) (w : World) : Prop where
  orderly : w.Orderly anp
  distinct : w.Distinct
  lists : ∀ id file, w.store.identities id = some file → file.Pending ListsRefs
  custody : w.store.Custody (· ∈ w.issued)

theorem Event.Permits.custody (permits : event.Permits anp w s v) (keeper : w.Keeper anp) (fresh : event.Fresh w) (owned : s.Owned)
    (custody : s.Custody (fun id => id ∈ event.ids ∨ id ∈ w.issued)) :
    (Medium.apply s v).Custody (fun id => id ∈ event.ids ∨ id ∈ w.issued) := by
  cases permits with
  | recovery _ step => exact step.custody owned custody
  | @store handle call entropy fault self action is held started step =>
    have drawn : entropy.identityId ∈ event.ids := by
      rw [is]
      exact List.mem_cons_self
    have new := fresh.2 _ drawn
    refine step.custody started ⟨?_, fun ref own => ?_⟩ (.inl drawn) custody
    · by_contra there
      obtain ⟨file, found⟩ := Option.ne_none_iff_exists'.mp there
      exact new (keeper.orderly.sound.filed.drawn _ _ found)
    · by_contra there
      exact new (own ▸ keeper.custody.owners ref there)
  | @identity handle call entropy fault self action is held started step =>
    obtain ⟨current, justified⟩ := started.started
    obtain ⟨file, found, -, completed⟩ := readIdentity_ok.mp current.read
    have named := readIdentity_named current.read
    have same := (completeRecord_refs completed).2
    have drawn : entropy.revisionId ∈ event.ids := by
      rw [is]
      simp [Event.ids, Entropy.ids]
    have new := fresh.2 _ drawn
    refine step.custody justified ⟨named ▸ found, completed, ?_, .inl drawn, fun pending pends => ?_, fun j listed equal => ?_,
      fun id other revision there has equal => ?_, (keeper.lists _ file found).completed completed⟩ custody
    · rw [named]
      exact .inr (keeper.orderly.sound.agreed _ _ held).1
    · have before := same ▸ pends
      refine ⟨.inr (keeper.distinct.known _ file pending found before), fun id other revision there has equal => ?_⟩
      rw [named]
      exact keeper.distinct.owned _ file pending id other revision found before there has equal.symm
    · exact new (equal ▸ keeper.custody.drawn j listed)
    · exact new (equal ▸ keeper.distinct.known id other revision there has)

theorem World.Keeper.step (keeper : w.Keeper anp) (fresh : event.Fresh w) :
    (w.step anp event).store.Custody (· ∈ (w.step anp event).issued) := by
  have steps : w.Steps anp event (w.step anp event) := World.steps event
  obtain ⟨journals, same⟩ := steps.store
  have traced : Traced (event.Permits anp w) w.store (event.writes anp w) := event.traced
  have after := traced.invariant
    (I := fun s => s.Accounted ∧ s.Owned ∧ s.Custody (fun id => id ∈ event.ids ∨ id ∈ w.issued))
    (fun s v now permits => by
      obtain ⟨accounted, owned, custody⟩ := now
      obtain ⟨about, -, confined⟩ := permits.confined keeper.orderly.pending accounted owned
      exact ⟨accounted.step (permits.bookkeeping fresh keeper.orderly.sound keeper.orderly.accounted accounted),
        confined.owned owned, permits.custody keeper fresh owned custody⟩)
    ⟨keeper.orderly.accounted.store, keeper.orderly.owned, keeper.custody.mono (fun _ => .inr)⟩
  rw [same]
  by_cases wrote : event.writes anp w = []
  · rw [wrote]
    have kept := keeper.custody.mono steps.kept
    exact ⟨kept.named, kept.fits, kept.owners, kept.drawn⟩
  · have known := after.2.2.mono (fun id drawn => drawn.elim (steps.drawn wrote id) (steps.kept id))
    exact ⟨known.named, known.fits, known.owners, known.drawn⟩

theorem World.distinct_run (meets : World.initial.Meets anp condition events) : (World.initial.run anp events).Distinct :=
  World.run_induction (I := World.Distinct) (fun _ _ now fresh _ => now.step fresh)
    ⟨fun _ _ _ found => (by cases found), fun _ _ _ _ _ _ found => (by cases found)⟩ meets

/-- In every run the secrets of identities that have files are named. -/
theorem World.custody_run (meets : World.initial.Meets anp condition events) :
    (World.initial.run anp events).store.Custody (· ∈ (World.initial.run anp events).issued) := by
  induction events using List.reverseRecOn with
  | nil => exact ⟨fun _ _ there => absurd rfl there, fun _ listed => (by cases listed), fun _ there => absurd rfl there,
      fun _ listed => (by cases listed)⟩
  | append_singleton events event ih =>
    obtain ⟨before, fresh, -⟩ := World.meets_append.mp meets
    rw [World.run_snoc]
    exact World.Keeper.step ⟨World.orderly_run before, World.distinct_run before, fun _ _ => inheres_listsRefs.run before, ih before⟩ fresh

end

/-! ## Deletions -/

/-- The secret is in the store for the pending revision, for an update that was not finished or for a key that the record
does not manage, and for no key that it manages. -/
structure Store.Stray (s : Store) (record : IdentityRecord) (ref : SecretRef) : Prop where
  stored : s.secrets ref ≠ none
  named : ref ∈ record.pendingRefs ∨ s.Updates ref ∨ ∃ key ∈ record.keys, key.origin ≠ .managed ∧ record.secretRef key = ref
  unmanaged : ∀ key ∈ record.keys, key.origin = .managed → record.secretRef key ≠ ref

/-- Of the secrets of a reachable identity a deletion leaves exactly those behind that were sealed for a pending revision, an
unfinished update or a key that the record does not manage. A deletion that returns leaves no secret of the identity, and
neither does an interrupted one once recovery succeeds, exactly when there is no such secret. -/
theorem deletion_erases_iff (anp : Anp) {events : List Event} (meets : World.initial.Meets anp (fun _ _ => True) events)
    (deletion : Deletion) (self after : DidStore) (entropy : Entropy) (did : String) (generation : Nat)
    {summary : IdentitySummary} {record : IdentityRecord}
    (named : (World.initial.run anp events).store.registry.identities did = some summary)
    (stored : (World.initial.run anp events).store.identities summary.identityId = some record)
    (deleted : (deletion.run anp self entropy did generation).result (World.initial.run anp events).store = .ok after) :
    (((deletion.run anp self entropy did generation).final (World.initial.run anp events).store).Erased summary.identityId ∧
      ∀ n registry, 1 ≤ n →
        (recover anp).result ((deletion.run anp self entropy did generation).crash n (World.initial.run anp events).store) =
          .ok registry →
        ((recover anp).final ((deletion.run anp self entropy did generation).crash n
          (World.initial.run anp events).store)).Erased summary.identityId) ↔
      ∀ ref, ref.identityId = summary.identityId → ¬ (World.initial.run anp events).store.Stray record ref := by
  have material := (World.sound_run meets).material _ record stored
  have managed : ∀ ref, ref ∈ record.managedRefs ↔ ∃ key ∈ record.keys, key.origin = .managed ∧ record.secretRef key = ref := by
    intro ref
    simp only [IdentityRecord.managedRefs, List.mem_map, List.mem_filter, Bool.and_eq_true, Bool.not_eq_true', beq_iff_eq]
    constructor
    · rintro ⟨key, ⟨inside, origin, -⟩, same⟩
      exact ⟨key, inside, origin, same⟩
    · rintro ⟨key, inside, origin, same⟩
      exact ⟨key, ⟨inside, origin, material key inside⟩, same⟩
  rw [deletion_erases_managed anp deletion self after entropy did generation _ summary record named stored deleted]
  refine forall₂_congr (fun ref own => ⟨fun all stray => ?_, fun none there => ?_⟩)
  · obtain ⟨key, inside, origin, same⟩ := (managed ref).mp (all stray.stored)
    exact stray.unmanaged key inside origin same
  · by_contra outside
    have unmanaged : ∀ key ∈ record.keys, key.origin = .managed → record.secretRef key ≠ ref :=
      fun key inside origin same => outside ((managed ref).mpr ⟨key, inside, origin, same⟩)
    refine none ⟨there, ?_, unmanaged⟩
    rcases (World.custody_run meets).named ref record there (own ▸ stored) with listed | pending | updates
    · obtain ⟨key, inside, same⟩ := List.mem_map.mp listed
      exact .inr (.inr ⟨key, inside, fun origin => unmanaged key inside origin same, same⟩)
    · exact .inl pending
    · exact .inr (.inl updates)

namespace Plain

/-- The rotation of the created identity is prepared and aborted. -/
def abortedRotation : List Event :=
  creation ++ [.identity 0 (.prepareUpdate rotation) (entropy "1" 5) none, .identity 0 (.abortUpdate "r1") (entropy "2" 9) none]

/-- No revision is pending, no update is outstanding and all keys are managed. -/
def Settled (s : Store) (id : String) : Prop :=
  s.updateTransactions.entries = [] ∧
    ∃ record ∈ s.identities id, record.pendingRevision = none ∧ ∀ key ∈ record.keys, key.origin = .managed

instance (s : Store) (id : String) : Decidable (Settled s id) := inferInstanceAs (Decidable (_ ∧ _))

end Plain

/-- Once the rotation is aborted, a deletion leaves no secret. -/
theorem deletion_erases_aborted :
    ((Deletion.deleteIdentityNamespace.run Plain.anp ⟨1⟩ (Plain.entropy "3" 13) "did:web:a.b" 1).final
      (World.initial.run Plain.anp Plain.abortedRotation).store).Erased "i0" := by
  have meets : World.initial.Meets Plain.anp (fun _ _ => True) Plain.abortedRotation := by decide +kernel
  have listed : ((World.initial.run Plain.anp Plain.abortedRotation).store.registry.identities "did:web:a.b").map (·.identityId) =
    some "i0" := by decide +kernel
  have settled : Plain.Settled (World.initial.run Plain.anp Plain.abortedRotation).store "i0" := by decide +kernel
  have deleted : (Deletion.deleteIdentityNamespace.run Plain.anp ⟨1⟩ (Plain.entropy "3" 13) "did:web:a.b" 1).result
      (World.initial.run Plain.anp Plain.abortedRotation).store = .ok ⟨2⟩ := by decide +kernel
  obtain ⟨summary, named, id⟩ := Option.map_eq_some_iff.mp listed
  obtain ⟨idle, record, stored, clear, managed⟩ := settled
  rw [← id] at stored ⊢
  refine ((deletion_erases_iff Plain.anp meets .deleteIdentityNamespace ⟨1⟩ ⟨2⟩ (Plain.entropy "3" 13) "did:web:a.b" 1 named stored
    deleted).mpr (fun ref _ stray => ?_)).1
  rcases stray.named with pending | ⟨j, outstanding, -⟩ | ⟨key, inside, external, -⟩
  · rw [IdentityRecord.pendingRefs, clear] at pending
    cases pending
  · have inside : j ∈ (World.initial.run Plain.anp Plain.abortedRotation).store.updateTransactions.entries := outstanding
    rw [idle] at inside
    cases inside
  · exact external (managed key inside)

/-- Deleting an identity whose rotation is prepared leaves the secret of the new key behind. -/
theorem deletion_leaves_rotated_secret :
    let s := (World.initial.run Plain.anp
      (Plain.creation ++ [.identity 0 (.prepareUpdate Plain.rotation) (Plain.entropy "1" 5) none])).store
    let deletion := Deletion.deleteIdentityNamespaceDiscardingPending.run Plain.anp ⟨1⟩ (Plain.entropy "2" 9) "did:web:a.b" 1
    (s.registry.identities "did:web:a.b").map (·.identityId) = some Plain.rotatedRef.identityId ∧
      (deletion.result s).isOk = true ∧ ((deletion.final s).secrets Plain.rotatedRef).isSome = true := by
  decide +kernel

end AnpIdentity
