import AnpIdentity.History

/-! What all keys of all records have in common. Every key is described once, when it enters a record or a pending
revision; later calls change its state, and the root key of a transfer becomes a managed one. -/

namespace AnpIdentity
open Durable Program

/-- The keys of a record and those that its pending revision adds. -/
def IdentityRecord.allKeys (record : IdentityRecord) : List KeyMetadata :=
  record.keys ++ record.pendingRevision.elim [] (·.newKeyMetadata)

/-- A property of keys that descriptions have and that no call takes away. -/
structure Inherent (P : KeyMetadata → Prop) : Prop where
  described : ∀ key kid role origin, key.Describes kid role origin → P key
  stateless : ∀ key other, key.stateless = other.stateless → P other → P key
  managed : ∀ key, P key → P { key with origin := .managed, state := .pending }

section
variable {anp : Anp} {w : World} {event : Event} {s : Store} {entropy : Entropy} {P : KeyMetadata → Prop}

def AllDescribed (keys : List KeyMetadata) : Prop := ∀ key ∈ keys, ∃ kid role origin, key.Describes kid role origin

/-- The keys whose secrets an action seals for a new identity. -/
def StoreAction.newKeys (anp : Anp) : StoreAction → List NewKey
  | .introduce _ keys _ => keys
  | .create _ built => built.newKeys anp
  | .delete .. => []

/-- Every new key has its description, as a managed key. -/
def DescribesKeys (new : List NewKey) (keys : List KeyMetadata) : Prop :=
  ∀ key ∈ new, ∃ metadata ∈ keys, metadata.Describes key.kid key.role .managed

variable {keys others metadata : List KeyMetadata} {document : Value} {createdAt : String} {record file : IdentityRecord}

theorem AllDescribed.append (first : AllDescribed keys) (second : AllDescribed others) : AllDescribed (keys ++ others) :=
  fun key inside => (List.mem_append.mp inside).elim (first key) (second key)

theorem AllDescribed.cons {key : KeyMetadata} {kid : String} {role : KeyRole} {origin : KeyOrigin}
    (first : key.Describes kid role origin) (second : AllDescribed keys) : AllDescribed (key :: keys) := by
  intro other inside
  rcases List.mem_cons.mp inside with rfl | later
  · exact ⟨kid, role, origin, first⟩
  · exact second other later

theorem AllDescribed.nil : AllDescribed [] := fun _ inside => nomatch inside

theorem AllDescribed.of_mapM {α : Type} {f : α → DidResult KeyMetadata} {source : List α}
    (made : source.mapM f = .ok keys) (each : ∀ a key, f a = .ok key → ∃ kid role origin, key.Describes kid role origin) :
    AllDescribed keys := by
  intro key inside
  obtain ⟨a, -, makes⟩ := mapM_ok made key inside
  exact each a key makes

private theorem optionalRootMetadata_described {root : Option KeyMetadata}
    (made : optionalRootMetadata anp document createdAt = .ok root) : AllDescribed root.toList := by
  simp only [optionalRootMetadata, except_bind_ok] at made
  obtain ⟨profile, -, made⟩ := made
  split at made
  · simp only [except_bind_ok] at made
    obtain ⟨rootKid, -, key, described, same⟩ := made
    cases same
    exact .cons (keyMetadata_ok described) .nil
  · cases made
    exact .nil

private theorem builtMetadata_described {spec : DidCreateSpec} {did : String} {keys : List ManagedPrivateKey}
    (made : builtMetadata anp spec did document keys createdAt = .ok metadata) : AllDescribed metadata ∧
      ∀ key ∈ keys, ∃ new ∈ metadata, new.Describes (did ++ "#" ++ key.fragment) key.role .managed := by
  simp only [builtMetadata, except_bind_ok] at made
  obtain ⟨managed, first, external, second, same⟩ := made
  cases same
  refine ⟨.append (.of_mapM first (fun _ _ described => ⟨_, _, _, keyMetadata_ok described⟩)) (.of_mapM second ?_),
    fun key inside => ?_⟩
  · intro key metadata described
    obtain ⟨_, -, described⟩ := except_bind_ok.mp described
    exact ⟨_, _, _, keyMetadata_ok described⟩
  · obtain ⟨new, listed, described⟩ := mapM_made first key inside
    exact ⟨new, List.mem_append_left _ listed, keyMetadata_ok described⟩

private theorem buildIdentity_described {spec : DidCreateSpec} {built : BuiltIdentity}
    (builds : buildIdentity anp entropy spec = .ok built) :
    AllDescribed built.metadata ∧ DescribesKeys (built.newKeys anp) built.metadata := by
  obtain ⟨described, managed⟩ := builtMetadata_described (buildIdentity_keys builds).2.2
  refine ⟨described, fun key inside => ?_⟩
  obtain ⟨new, listed, rfl⟩ := List.mem_map.mp inside
  exact managed new listed

private theorem importedMetadata_described {keys : List NewKey}
    (made : importedMetadata anp document createdAt keys = .ok metadata) : AllDescribed metadata ∧ DescribesKeys keys metadata := by
  refine ⟨.of_mapM made (fun _ _ described => ⟨_, _, _, keyMetadata_ok described⟩), fun key inside => ?_⟩
  obtain ⟨new, listed, described⟩ := mapM_made made key inside
  exact ⟨new, listed, keyMetadata_ok described⟩

theorem StoreCall.Starts.described {self : DidStore} {call : StoreCall} {action : StoreAction}
    (started : call.Starts anp s self entropy action) (makes : action.Makes anp entropy record) :
    AllDescribed record.keys ∧ DescribesKeys (action.newKeys anp) record.keys := by
  cases call with
  | createIdentity spec =>
    obtain ⟨built, -, -, builds, rfl⟩ := started
    simp only [StoreAction.Makes, createdRecord, except_bind_ok] at makes
    obtain ⟨_, -, _, -, _, -, same⟩ := makes
    cases same
    exact buildIdentity_described builds
  | prepareEnrollment spec =>
    obtain ⟨did, signingKid, e2eeKid, -, -, -, -, -, -, -, -, rfl⟩ := started
    simp only [StoreAction.Makes, enrolledRecord, except_bind_ok] at makes
    obtain ⟨root, first, signing, second, e2ee, third, _, -, same⟩ := makes
    cases same
    have signs := keyMetadataFromPublic_ok second
    have agrees := keyMetadataFromPublic_ok third
    refine ⟨.append (optionalRootMetadata_described first) (.cons signs (.cons agrees .nil)), fun key inside => ?_⟩
    rcases List.mem_pair.mp inside with rfl | rfl
    · exact ⟨signing, by simp [newIdentityRecord], signs⟩
    · exact ⟨e2ee, by simp [newIdentityRecord], agrees⟩
  | prepareRequestSigningEnrollment spec =>
    obtain ⟨did, kid, -, -, -, -, -, rfl⟩ := started
    simp only [StoreAction.Makes, requestSigningEnrolledRecord, except_bind_ok] at makes
    obtain ⟨root, first, request, second, _, -, same⟩ := makes
    cases same
    have signs := keyMetadataFromPublic_ok second
    refine ⟨.append (optionalRootMetadata_described first) (.cons signs .nil), fun key inside => ?_⟩
    rw [List.mem_singleton.mp inside]
    exact ⟨request, by simp [newIdentityRecord], signs⟩
  | importIdentity spec =>
    obtain ⟨did, imported, -, -, -, rfl⟩ := started
    simp only [StoreAction.Makes, importedRecord, except_bind_ok] at makes
    obtain ⟨metadata, all, _, -, _, -, same⟩ := makes
    cases same
    exact importedMetadata_described all
  | importDeviceIdentity spec =>
    obtain ⟨did, imported, rootKid, -, -, -, -, rfl⟩ := started
    simp only [StoreAction.Makes, importedDeviceRecord, except_bind_ok] at makes
    obtain ⟨root, described, metadata, all, _, -, _, -, _, -, same⟩ := makes
    cases same
    obtain ⟨described', sealed⟩ := importedMetadata_described all
    refine ⟨.cons (keyMetadata_ok described) described', fun key inside => ?_⟩
    obtain ⟨new, listed, describes⟩ := sealed key inside
    exact ⟨new, List.mem_cons_of_mem _ listed, describes⟩
  | importRequestSigningIdentity spec =>
    obtain ⟨did, imported, request, rootKid, -, -, -, role, -, rfl⟩ := started
    simp only [StoreAction.Makes, importedRequestSigningRecord, except_bind_ok] at makes
    obtain ⟨root, described, metadata, requests, _, -, same⟩ := makes
    cases same
    have signs := keyMetadata_ok requests
    refine ⟨.cons (keyMetadata_ok described) (.cons signs .nil), fun key inside => ?_⟩
    rw [List.mem_singleton.mp inside, role]
    exact ⟨metadata, by simp [newIdentityRecord], signs⟩
  | discardUnpublishedEnrollment did identityId generation
  | deleteIdentityNamespace did generation
  | deleteIdentityNamespaceDiscardingPending did generation =>
    obtain ⟨_, -, rfl⟩ := started
    exact makes.elim
  | openIdentity did | reload => exact started.elim

theorem planUpdate_described {spec : DocumentUpdateSpec} {plan : UpdatePlan}
    (planned : planUpdate anp entropy s record spec = .ok plan) : AllDescribed plan.newMetadata := by
  obtain ⟨added, turned, plans⟩ := planUpdate_plans planned
  rw [plans.metadata]
  refine .append (.of_mapM plans.described (fun _ _ described => ⟨_, _, _, keyMetadata_ok described⟩)) (fun key inside => ?_)
  obtain ⟨_, -, described⟩ := plans.turns key inside
  exact ⟨_, _, _, described⟩

theorem Inherent.described_all (inherent : Inherent P) (all : AllDescribed keys) : ∀ key ∈ keys, P key := by
  intro key inside
  obtain ⟨kid, role, origin, described⟩ := all key inside
  exact inherent.described key kid role origin described

theorem Inherent.sameKeys (inherent : Inherent P) (same : SameKeys others keys) (all : ∀ key ∈ keys, P key) :
    ∀ key ∈ others, P key := by
  intro key inside
  have listed : key.stateless ∈ keys.map (·.stateless) := by
    rw [← show others.map (·.stateless) = keys.map (·.stateless) from same]
    exact List.mem_map_of_mem inside
  obtain ⟨old, there, equal⟩ := List.mem_map.mp listed
  exact inherent.stateless key old equal.symm (all old there)

theorem Inherent.adoptRootKey (inherent : Inherent P) {rootKid : String} {root : KeyMetadata}
    (adopted : adoptRootKey rootKid keys = some (root, others)) (all : ∀ key ∈ keys, P key) : ∀ key ∈ others, P key := by
  induction keys generalizing others with
  | nil => cases adopted
  | cons first rest ih =>
    unfold AnpIdentity.adoptRootKey at adopted
    split at adopted
    · cases adopted
      intro key inside
      rcases List.mem_cons.mp inside with rfl | later
      · exact inherent.managed root (all root List.mem_cons_self)
      · exact all key (List.mem_cons_of_mem _ later)
    · obtain ⟨⟨found, more⟩, later, same⟩ := Option.map_eq_some_iff.mp adopted
      cases same
      intro key inside
      rcases List.mem_cons.mp inside with rfl | inside
      · exact all key List.mem_cons_self
      · exact ih later (fun key there => all key (List.mem_cons_of_mem _ there)) key inside

private theorem allKeys_clear (clear : record.pendingRevision = none) : record.allKeys = record.keys := by
  simp [IdentityRecord.allKeys, clear]

private theorem allKeys_pending {pending : PendingRevisionRecord} (found : record.pendingRevision = some pending) :
    record.allKeys = record.keys ++ pending.newKeyMetadata := by
  simp [IdentityRecord.allKeys, found]

private theorem keys_of_allKeys (all : ∀ key ∈ record.allKeys, P key) : ∀ key ∈ record.keys, P key :=
  fun key inside => all key (List.mem_append_left _ inside)

private theorem allKeys_rekeyed {other : IdentityRecord} (all : ∀ key ∈ other.allKeys, P key)
    (keys : ∀ key ∈ record.keys, P key) (pending : record.pendingRevision = other.pendingRevision) :
    ∀ key ∈ record.allKeys, P key := by
  intro key inside
  rcases List.mem_append.mp inside with old | new
  · exact keys key old
  · rw [pending] at new
    exact all key (List.mem_append_right _ new)

section
variable {self : DidIdentity} {action : IdentityAction} {record : IdentityRecord}

private theorem Justified.inherent (justified : Justified anp s self entropy action) (inherent : Inherent P)
    (stores : action.Stores anp entropy record) (all : ∀ key ∈ action.seen.allKeys, P key) : ∀ key ∈ record.allKeys, P key := by
  have keys := keys_of_allKeys all
  cases justified.rekeys stores with
  | planned _ planned _ same pending =>
    rw [allKeys_pending pending, same]
    intro key inside
    rcases List.mem_append.mp inside with old | new
    · exact keys key old
    · exact inherent.described_all (planUpdate_described planned) key new
  | cleared same clear =>
    rw [allKeys_clear clear, same]
    exact keys
  | moved found _ same pending =>
    rw [allKeys_pending found] at all
    rw [allKeys_pending pending, same]
    exact all
  | committed found same is clear =>
    rw [allKeys_pending found] at all
    rw [allKeys_clear clear, is]
    intro key inside
    rcases List.mem_append.mp inside with old | new
    · exact inherent.sameKeys same keys key old
    · exact all key (List.mem_append_right _ new)
  | kept same pending => exact allKeys_rekeyed all (inherent.sameKeys same keys) pending
  | imported adopted pending => exact allKeys_rekeyed all (inherent.adoptRootKey adopted keys) pending

end

private theorem completeRecord_allKeys {seen : IdentityRecord} (completed : completeRecord anp file = .ok seen) :
    seen.allKeys = file.allKeys := by
  obtain ⟨_, _, _, rfl⟩ := completeRecord_same completed
  rfl

private theorem Rewrite.inherent (rewrites : Rewrite anp w event s file record) (inherent : Inherent P)
    (all : ∀ key ∈ file.allKeys, P key) : ∀ key ∈ record.allKeys, P key := by
  cases rewrites with
  | @activate record shown creating =>
    have same : record.allKeys = file.allKeys := by
      rcases shown with rfl | completed
      · rfl
      · exact completeRecord_allKeys completed
    rw [← same] at all
    exact all
  | @act entropy self call action record began completed stores room =>
    obtain ⟨-, -, started⟩ := began
    rw [← completeRecord_allKeys completed] at all
    have next := started.started.2.inherent inherent stores all
    exact next
  | @clear j record outstanding kind completed pends named room =>
    rw [← completeRecord_allKeys completed] at all
    have keys : ∀ key ∈ record.keys, P key := keys_of_allKeys all
    rw [allKeys_clear rfl]
    exact keys

/-- An inherent property is one of every key in every record of a run. -/
theorem Inherent.run (inherent : Inherent P) {condition : World → Event → Prop} {events : List Event}
    (meets : World.initial.Meets anp condition events) {id : String}
    (found : (World.initial.run anp events).store.identities id = some file) : ∀ key ∈ file.allKeys, P key := by
  refine World.file_invariant (P := fun record => ∀ key ∈ record.allKeys, P key) ?_
    (fun _ _ _ _ _ _ all rewrites => rewrites.inherent inherent all) meets found
  intro w event entropy self call action made _ brought makes
  obtain ⟨-, -, started⟩ := brought
  rw [allKeys_clear (started.isNew makes).pendingRevision]
  exact inherent.described_all (started.described makes).1

/-- No call erases the material of a key, and keys are never given a second version. -/
theorem inherent_material : Inherent (fun key => key.materialErased = false ∧ key.version = 1) where
  described _ _ _ _ describes := ⟨describes.materialErased, describes.version⟩
  stateless key other same holds := by
    have erased : key.stateless.materialErased = other.stateless.materialErased := by rw [same]
    have version : key.stateless.version = other.stateless.version := by rw [same]
    exact ⟨erased.trans holds.1, version.trans holds.2⟩
  managed _ holds := holds

end
end AnpIdentity
