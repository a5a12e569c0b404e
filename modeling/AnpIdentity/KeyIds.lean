import AnpIdentity.Candidates
import AnpIdentity.Kids
import AnpIdentity.Lives

/-! Key ids are unique: no two keys of a record have the same kid, as long as one update gives every kid to one key
at most and an identity without the root is not brought in with the root key as a key of its own. -/

namespace AnpIdentity
open Durable Program Text

/-- The kids of a list in canonical form, without those that have none. -/
def canonicalKids (did : String) (kids : List String) : List String :=
  kids.filterMap (fun kid => (canonicalizeKid did kid).toOption)

def RequestSigningMutationSpec.newKids : RequestSigningMutationSpec → List String
  | .add key => [key.kid]
  | .remove _ => []

def DeviceMutationSpec.newKids : DeviceMutationSpec → List String
  | .add device => [device.signingKey.kid, device.e2eeKey.kid]
  | .addProfiles .. | .remove _ => []

/-- The kids that an update gives to new keys, as the request writes them. -/
def DocumentUpdateSpec.newKids (spec : DocumentUpdateSpec) : List String :=
  spec.requestSigningMutations.flatMap (·.newKids) ++ spec.deviceMutations.flatMap (·.newKids) ++
    (spec.requestSigningRotation.map (·.newFragment)).toList

/-- An update gives no kid to two new keys. -/
def NamesKeysOnce (_ : DidIdentity) (call : IdentityCall) (seen : IdentityRecord) : Prop :=
  match call with
  | .prepareUpdate spec => (canonicalKids seen.did spec.newKids).Nodup
  | _ => True

instance (self : DidIdentity) (seen : IdentityRecord) : ∀ call : IdentityCall, Decidable (NamesKeysOnce self call seen)
  | .prepareUpdate spec => inferInstanceAs (Decidable (canonicalKids seen.did spec.newKids).Nodup)
  | .beginPublication _ | .markPublicationUncertain _ | .rejectPublicationBeforeAcceptance _
  | .commitVerifiedUpdate .. | .reconcileUpdate .. | .abortUpdate _ | .reconcileRejectedUpdate .. | .adoptVerifiedDocument _
  | .adoptVerifiedSiblingDocument _ | .importWrappedRoot .. | .importLegacyRootTransfer _ | .confirmRootPromotion _ | .reload => isTrue trivial

/-- The event gives every kid to one key at most. -/
def GivesKidsOnce (anp : Anp) (w : World) (event : Event) : Prop :=
  Calls anp NamesKeysOnce w event ∧
    match event with
    | .store _ call _ _ => call.SparesRoot
    | _ => True

instance (anp : Anp) (w : World) : ∀ event : Event, Decidable (GivesKidsOnce anp w event)
  | .store _ call _ _ => inferInstanceAs (Decidable (_ ∧ call.SparesRoot))
  | .openStore _ | .identity .. | .identityTransitions _ => inferInstanceAs (Decidable (_ ∧ True))

/-- The kids of the keys of a record and of the keys that its pending revision adds. -/
def IdentityRecord.kids (record : IdentityRecord) : List String :=
  record.keys.map (·.kid) ++ (record.pendingRevision.elim [] (·.newKeyMetadata.map (·.kid)))

section
variable {anp : Anp} {w : World} {event : Event} {s : Store} {entropy : Entropy} {did : String}

theorem mapM_filterMap {ε α β γ : Type} {f : α → Except ε β} {g : β → γ} {h : α → Option γ} {source : List α}
    {made : List β} (each : ∀ a b, f a = .ok b → h a = some (g b)) (returned : source.mapM f = .ok made) :
    source.filterMap h = made.map g := by
  induction source generalizing made with
  | nil =>
    cases returned
    rfl
  | cons first rest ih =>
    rw [List.mapM_cons] at returned
    obtain ⟨head, one, returned⟩ := except_bind_ok.mp returned
    obtain ⟨tail, more, returned⟩ := except_bind_ok.mp returned
    cases returned
    rw [List.filterMap_cons_some (each first head one), ih more, List.map_cons]

theorem mapM_map {ε α β γ : Type} {f : α → Except ε β} {g : β → γ} {h : α → γ} {source : List α} {made : List β}
    (each : ∀ a b, f a = .ok b → g b = h a) (returned : source.mapM f = .ok made) : made.map g = source.map h := by
  rw [← mapM_filterMap (h := some ∘ h) (fun a b maps => congrArg some (each a b maps).symm) returned, List.filterMap_eq_map]

theorem canonicalKids_append (kids others : List String) :
    canonicalKids did (kids ++ others) = canonicalKids did kids ++ canonicalKids did others := List.filterMap_append

/-! ## Created identities -/

theorem validateUniqueKids_ok {seen kids : List String} (unique : validateUniqueKids did seen kids = .ok ()) :
    (canonicalKids did kids).Nodup ∧ ∀ kid ∈ canonicalKids did kids, kid ∉ seen := by
  induction kids generalizing seen with
  | nil => exact ⟨List.nodup_nil, fun _ listed => nomatch listed⟩
  | cons kid rest ih =>
    simp only [validateUniqueKids, except_bind_ok, reject_ok] at unique
    obtain ⟨canonical, named, _, new, later⟩ := unique
    obtain ⟨nodup, unseen⟩ := ih later
    have listed : canonicalKids did (kid :: rest) = canonical :: canonicalKids did rest :=
      List.filterMap_cons_some (by rw [named]; rfl)
    rw [listed]
    refine ⟨List.nodup_cons.mpr ⟨fun again => unseen canonical again List.mem_cons_self, nodup⟩, ?_⟩
    intro other inside
    rcases List.mem_cons.mp inside with rfl | later
    · exact new
    · exact fun before => unseen other later (List.mem_cons_of_mem _ before)

private theorem validateManagedFragments_ok {seen : List String} {keys : List ManagedKeySpec}
    (valid : validateManagedFragments seen keys = .ok ()) : ∀ key ∈ keys, validateFragment key.fragment = .ok () := by
  induction keys generalizing seen with
  | nil => exact fun _ listed => nomatch listed
  | cons key rest ih =>
    simp only [validateManagedFragments, except_bind_ok] at valid
    obtain ⟨_, first, _, -, later⟩ := valid
    intro other inside
    rcases List.mem_cons.mp inside with rfl | inside
    · exact first
    · exact ih later other inside

private theorem canonicalKids_fragments {fragments : List String}
    (valid : ∀ fragment ∈ fragments, validateFragment fragment = .ok ()) :
    canonicalKids did fragments = fragments.map (did ++ "#" ++ ·) := by
  unfold canonicalKids
  rw [← List.filterMap_eq_map]
  refine List.filterMap_congr (fun fragment inside => ?_)
  rw [canonicalizeKid_fragment (valid fragment inside)]
  rfl

theorem generateKeys_fragments (keys : List ManagedKeySpec) :
    (generateKeys entropy keys).map (·.fragment) = keys.map (·.fragment) := by
  unfold generateKeys
  rw [List.map_map]
  change keys.zipIdx.map ((·.fragment) ∘ Prod.fst) = _
  rw [← List.map_map, List.zipIdx_map_fst]

variable {keys metadata others : List KeyMetadata} {document : Value} {imported : List NewKey}
  {sources : List ImportedPrivateKey} {record : IdentityRecord}

private theorem builtMetadata_unique {spec : DidCreateSpec} {createdAt : String}
    (valid : spec.validateForDid anp did = .ok ())
    (made : builtMetadata anp spec did document (generateKeys entropy spec.managedKeys) createdAt = .ok metadata) :
    (metadata.map (·.kid)).Nodup := by
  simp only [DidCreateSpec.validateForDid, except_bind_ok] at valid
  obtain ⟨_, checked, unique⟩ := valid
  simp only [DidCreateSpec.validate, except_bind_ok] at checked
  obtain ⟨_, -, _, -, _, -, _, -, _, -, _, -, _, fragments, -⟩ := checked
  have fits : ∀ fragment ∈ spec.managedKeys.map (·.fragment), validateFragment fragment = .ok () := by
    intro fragment inside
    obtain ⟨key, listed, rfl⟩ := List.mem_map.mp inside
    exact validateManagedFragments_ok fragments key listed
  simp only [builtMetadata, except_bind_ok] at made
  obtain ⟨managed, first, external, second, same⟩ := made
  cases same
  have here : managed.map (·.kid) = canonicalKids did (spec.managedKeys.map (·.fragment)) := by
    rw [canonicalKids_fragments fits, ← generateKeys_fragments, List.map_map]
    exact mapM_map (fun key metadata described => (keyMetadata_ok described).kid) first
  have away : external.map (·.kid) = canonicalKids did (spec.externalKeys.map (·.kid)) := by
    unfold canonicalKids
    rw [List.filterMap_map]
    refine (mapM_filterMap (fun key metadata described => ?_) second).symm
    obtain ⟨kid, named, described⟩ := except_bind_ok.mp described
    simp [named, Except.toOption, (keyMetadata_ok described).kid]
  rw [List.map_append, here, away, ← canonicalKids_append]
  exact (validateUniqueKids_ok unique).1

theorem buildIdentity_unique {spec : DidCreateSpec} {built : BuiltIdentity}
    (builds : buildIdentity anp entropy spec = .ok built) : (built.metadata.map (·.kid)).Nodup := by
  obtain ⟨valid, managed, made⟩ := buildIdentity_keys builds
  rw [managed] at made
  exact builtMetadata_unique valid made

/-! ## Identities that are brought in -/

private theorem prepareImportedKeyList_unique {before : List NewKey}
    (made : prepareImportedKeyList anp did document before sources = .ok imported) (unique : (before.map (·.kid)).Nodup) :
    (imported.map (·.kid)).Nodup := by
  induction sources generalizing before with
  | nil =>
    cases made
    exact unique
  | cons source rest ih =>
    obtain ⟨prepared, first, later⟩ := except_bind_ok.mp made
    refine ih later ?_
    simp only [prepareImportedKey, except_bind_ok, reject_ok, Bool.not_eq_true, List.any_eq_false] at first
    obtain ⟨kid, -, _, new, _, -, _, -, _, -, _, -, same⟩ := first
    cases same
    rw [List.map_append, List.nodup_append]
    refine ⟨unique, List.nodup_singleton _, ?_⟩
    intro old inside kid' single
    obtain ⟨key, listed, rfl⟩ := List.mem_map.mp inside
    obtain rfl := List.mem_singleton.mp single
    simpa using new key listed

theorem Imports.unique {evidence : VerifiedDocumentEvidence}
    (imports : Imports anp document evidence did sources imported) : (imported.map (·.kid)).Nodup := by
  obtain ⟨-, -, made⟩ := imports
  obtain ⟨_, -, made⟩ := except_bind_ok.mp made
  exact prepareImportedKeyList_unique made List.nodup_nil

theorem importedMetadata_kids {createdAt : String} {keys : List NewKey}
    (made : importedMetadata anp document createdAt keys = .ok metadata) : metadata.map (·.kid) = keys.map (·.kid) :=
  mapM_map (fun _ _ described => (keyMetadata_ok described).kid) made

theorem StoreCall.Starts.unique {self : DidStore} {call : StoreCall} {action : StoreAction}
    (started : call.Starts anp s self entropy action) (makes : action.Makes anp entropy record) (spares : call.SparesRoot) :
    (record.keys.map (·.kid)).Nodup := by
  cases call with
  | createIdentity spec =>
    obtain ⟨built, -, -, builds, rfl⟩ := started
    simp only [StoreAction.Makes, createdRecord, except_bind_ok] at makes
    obtain ⟨_, -, _, -, _, -, same⟩ := makes
    cases same
    exact buildIdentity_unique builds
  | prepareEnrollment spec =>
    obtain ⟨did, signingKid, e2eeKid, -, -, -, -, -, distinct, noSigning, noE2ee, rfl⟩ := started
    simp only [StoreAction.Makes, enrolledRecord, except_bind_ok] at makes
    obtain ⟨root, first, signing, second, e2ee, third, _, -, same⟩ := makes
    cases same
    have roots := optionalRootMetadata_root first
    obtain ⟨rfl, -⟩ := keyMetadataFromPublic_generated second
    obtain ⟨rfl, -⟩ := keyMetadataFromPublic_generated third
    change ((root.toList ++ [signing, e2ee]).map (·.kid)).Nodup
    cases root with
    | none => simpa using distinct
    | some root =>
      obtain ⟨-, -, found⟩ := roots root rfl
      have other : root.kid ≠ signing.kid ∧ root.kid ≠ e2ee.kid :=
        ⟨fun same => found (same ▸ noSigning), fun same => found (same ▸ noE2ee)⟩
      simpa [other.1, other.2] using distinct
  | prepareRequestSigningEnrollment spec =>
    obtain ⟨did, kid, -, -, -, -, absent, rfl⟩ := started
    simp only [StoreAction.Makes, requestSigningEnrolledRecord, except_bind_ok] at makes
    obtain ⟨root, first, request, second, _, -, same⟩ := makes
    cases same
    have roots := optionalRootMetadata_root first
    obtain ⟨rfl, -⟩ := keyMetadataFromPublic_generated second
    change ((root.toList ++ [request]).map (·.kid)).Nodup
    cases root with
    | none => simp
    | some root =>
      obtain ⟨-, -, found⟩ := roots root rfl
      have other : root.kid ≠ request.kid := fun same => found (same ▸ absent)
      simpa using other
  | importIdentity spec =>
    obtain ⟨did, imported, -, imports, -, rfl⟩ := started
    simp only [StoreAction.Makes, importedRecord, except_bind_ok] at makes
    obtain ⟨metadata, all, _, -, _, -, same⟩ := makes
    cases same
    change (metadata.map (·.kid)).Nodup
    rw [importedMetadata_kids all]
    exact imports.unique
  | importDeviceIdentity spec =>
    obtain ⟨did, imported, rootKid, -, imports, -, root, rfl⟩ := started
    simp only [StoreAction.Makes, importedDeviceRecord, except_bind_ok] at makes
    obtain ⟨rootMetadata, described, metadata, all, _, -, _, -, _, -, same⟩ := makes
    cases same
    change ((rootMetadata :: metadata).map (·.kid)).Nodup
    rw [List.map_cons, importedMetadata_kids all, (keyMetadata_ok described).kid]
    refine List.nodup_cons.mpr ⟨fun again => ?_, imports.unique⟩
    obtain ⟨key, listed, same⟩ := List.mem_map.mp again
    exact imports_spare imports root spares key listed same
  | importRequestSigningIdentity spec =>
    obtain ⟨did, imported, request, rootKid, -, imports, last, -, root, rfl⟩ := started
    simp only [StoreAction.Makes, importedRequestSigningRecord, except_bind_ok] at makes
    obtain ⟨rootMetadata, described, metadata, requests, _, -, same⟩ := makes
    cases same
    change ([rootMetadata, metadata].map (·.kid)).Nodup
    have other := imports_spare imports root spares request (List.mem_of_getLast? last)
    simpa [(keyMetadata_ok described).kid, (keyMetadata_ok requests).kid] using other.symm
  | discardUnpublishedEnrollment did identityId generation
  | deleteIdentityNamespace did generation
  | deleteIdentityNamespaceDiscardingPending did generation =>
    obtain ⟨_, -, rfl⟩ := started
    exact makes.elim
  | openIdentity did | reload => exact started.elim

/-! ## Updates -/

/-- The keys that are added on the way from one list to another: they have these kids, and the record has none of them. -/
structure AddsKeys (record : IdentityRecord) (before after : List (String × KeyRole)) (kids : List String) : Prop where
  listed : after.map Prod.fst = before.map Prod.fst ++ canonicalKids record.did kids
  unused : ∀ kid ∈ canonicalKids record.did kids, kid ∉ record.keys.map (·.kid)

section
variable {record : IdentityRecord} {before middle after : List (String × KeyRole)} {kids others : List String}

theorem AddsKeys.none (record : IdentityRecord) (before : List (String × KeyRole)) : AddsKeys record before before [] :=
  ⟨(List.append_nil _).symm, fun _ listed => nomatch listed⟩

theorem AddsKeys.append (first : AddsKeys record before middle kids) (second : AddsKeys record middle after others) :
    AddsKeys record before after (kids ++ others) := by
  refine ⟨?_, ?_⟩
  · rw [canonicalKids_append, second.listed, first.listed, List.append_assoc]
  · intro kid inside
    rw [canonicalKids_append] at inside
    exact (List.mem_append.mp inside).elim (first.unused kid) (second.unused kid)

private theorem unused_kid {kid : String} (unused : record.keys.any (·.kid == kid) = false) : kid ∉ record.keys.map (·.kid) := by
  intro listed
  obtain ⟨key, inside, rfl⟩ := List.mem_map.mp listed
  have other := List.any_eq_false.mp unused key inside
  simp at other

theorem AddsKeys.one {kid canonical : String} {role : KeyRole} (named : canonicalizeKid record.did kid = .ok canonical)
    (unused : record.keys.any (·.kid == canonical) = false) : AddsKeys record before (before ++ [(canonical, role)]) [kid] := by
  have listed : canonicalKids record.did [kid] = [canonical] := by simp [canonicalKids, named, Except.toOption]
  refine ⟨by rw [listed, List.map_append]; rfl, ?_⟩
  rw [listed]
  intro other inside
  rw [List.mem_singleton.mp inside]
  exact unused_kid unused

end

section
variable {record : IdentityRecord}

variable {changes next : DocumentChanges}

private theorem applyRequestSigningMutation_adds {mutation : RequestSigningMutationSpec}
    (made : applyRequestSigningMutation anp record changes mutation = .ok next) :
    AddsKeys record changes.addedKeys next.addedKeys mutation.newKids := by
  cases mutation with
  | add key =>
    simp only [applyRequestSigningMutation, except_bind_ok, reject_ok, Bool.or_eq_true, not_or, Bool.not_eq_true] at made
    obtain ⟨kid, named, _, ⟨unused, -⟩, _, -, object, -, other, -, same⟩ := made
    cases same
    exact .one named unused
  | remove kid =>
    simp only [applyRequestSigningMutation, except_bind_ok] at made
    obtain ⟨_, -, _, -, _, -, _, -, _, -, _, -, same⟩ := made
    cases same
    exact .none record _

private theorem applyRequestSigningMutations_adds {mutations : List RequestSigningMutationSpec}
    (made : applyRequestSigningMutations anp record changes mutations = .ok next) :
    AddsKeys record changes.addedKeys next.addedKeys (mutations.flatMap (·.newKids)) := by
  induction mutations generalizing changes with
  | nil =>
    cases made
    exact .none record _
  | cons mutation rest ih =>
    obtain ⟨middle, first, later⟩ := except_bind_ok.mp made
    exact (applyRequestSigningMutation_adds first).append (ih later)

private theorem applyDeviceMutation_adds {state next : DeviceChanges} {mutation : DeviceMutationSpec}
    (made : applyDeviceMutation anp record state mutation = .ok next) :
    AddsKeys record state.changes.addedKeys next.changes.addedKeys mutation.newKids := by
  cases mutation with
  | addProfiles deviceId profiles =>
    simp only [applyDeviceMutation, addDeviceProfiles, except_bind_ok] at made
    obtain ⟨_, -, _, -, _, -, same⟩ := made
    cases same
    exact .none record _
  | add device =>
    simp only [applyDeviceMutation, addDevice, except_bind_ok, reject_ok, not_or] at made
    obtain ⟨_, -, signing, signs, e2ee, agrees, _, ⟨-, -, unused, -⟩, _, -, _, -, _, -, _, -, _, -, _, -, same⟩ := made
    cases same
    simp only [Bool.not_eq_true, List.any_eq_false, Bool.or_eq_true, not_or] at unused
    have first : AddsKeys record state.changes.addedKeys (state.changes.addedKeys ++ [(signing, .deviceSigning)])
        [device.signingKey.kid] := .one signs (List.any_eq_false.mpr (by simpa using fun key inside => (unused key inside).1))
    have second : AddsKeys record (state.changes.addedKeys ++ [(signing, .deviceSigning)])
        (state.changes.addedKeys ++ [(signing, .deviceSigning)] ++ [(e2ee, .e2eeAgreement)]) [device.e2eeKey.kid] :=
      .one agrees (List.any_eq_false.mpr (by simpa using fun key inside => (unused key inside).2))
    have both := first.append second
    rwa [List.append_assoc] at both
  | remove deviceId =>
    simp only [applyDeviceMutation, removeDevice, except_bind_ok] at made
    obtain ⟨_, -, _, -, _, -, _, -, _, -, _, -, _, -, _, -, same⟩ := made
    cases same
    exact .none record _

private theorem applyDeviceMutationList_adds {state next : DeviceChanges} {mutations : List DeviceMutationSpec}
    (made : applyDeviceMutationList anp record state mutations = .ok next) :
    AddsKeys record state.changes.addedKeys next.changes.addedKeys (mutations.flatMap (·.newKids)) := by
  induction mutations generalizing state with
  | nil =>
    cases made
    exact .none record _
  | cons mutation rest ih =>
    obtain ⟨middle, first, later⟩ := except_bind_ok.mp made
    exact (applyDeviceMutation_adds first).append (ih later)

private theorem planRotation_adds {request : Option RequestSigningRotation} {rotation : Option PreparedRotation}
    (planned : planRotation entropy record request = .ok rotation) (before : List (String × KeyRole)) :
    AddsKeys record before (before ++ (rotation.map (fun prepared => (prepared.newKid, KeyRole.requestSigning))).toList)
      (request.map (·.newFragment)).toList := by
  cases request with
  | none =>
    cases planned
    simpa using AddsKeys.none record before
  | some request =>
    obtain ⟨prepared, prepares, same⟩ := except_bind_ok.mp planned
    cases same
    simp only [prepareRotation, except_bind_ok, reject_ok, Bool.not_eq_true] at prepares
    obtain ⟨_, -, _, -, _, -, _, -, _, -, _, -, _, -, newKid, named, _, unused, same⟩ := prepares
    cases same
    exact .one named unused

/-- The keys that an update adds have the kids that the request gives to new keys, and the record has none of them. -/
theorem planUpdate_adds {spec : DocumentUpdateSpec} {plan : UpdatePlan}
    (planned : planUpdate anp entropy s record spec = .ok plan) :
    plan.newMetadata.map (·.kid) = canonicalKids record.did spec.newKids ∧
      ∀ kid ∈ canonicalKids record.did spec.newKids, kid ∉ record.keys.map (·.kid) := by
  obtain ⟨added, turned, plans⟩ := planUpdate_plans planned
  obtain ⟨_, _, _, _, _, _, stages⟩ := buildCandidateDocument_ok plans.built
  have kids : added.map (·.kid) = plan.changes.addedKeys.map Prod.fst :=
    mapM_map (fun _ _ described => (keyMetadata_ok described).kid) plans.described
  have adds := ((applyRequestSigningMutations_adds stages.requests).append (applyDeviceMutationList_adds stages.devices)).append
    (planRotation_adds plans.rotated _)
  refine ⟨?_, adds.unused⟩
  have listed := adds.listed
  rw [List.map_append, ← stages.added, ← kids] at listed
  refine Eq.trans ?_ (listed.trans (List.nil_append _))
  rw [plans.metadata, List.map_append, plans.kids]
  cases plan.rotation <;> rfl

end

/-! ## Runs -/

theorem SameKeys.kids (same : SameKeys keys others) : keys.map (·.kid) = others.map (·.kid) := by
  have kids := congrArg (List.map (·.kid)) same
  simpa [KeyMetadata.stateless, List.map_map, Function.comp_def] using kids

private theorem adoptRootKey_kids {rootKid : String} {root : KeyMetadata}
    (adopted : adoptRootKey rootKid keys = some (root, others)) : others.map (·.kid) = keys.map (·.kid) := by
  induction keys generalizing others with
  | nil => cases adopted
  | cons key rest ih =>
    unfold adoptRootKey at adopted
    split at adopted
    · cases adopted
      rfl
    · obtain ⟨⟨found, more⟩, later, same⟩ := Option.map_eq_some_iff.mp adopted
      cases same
      rw [List.map_cons, List.map_cons, ih later]

private theorem completeRecord_kids {file seen : IdentityRecord} (completed : completeRecord anp file = .ok seen) :
    seen.kids = file.kids := by
  obtain ⟨_, _, _, rfl⟩ := completeRecord_same completed
  rfl

theorem IdentityRecord.kids_clear (unique : record.kids.Nodup) : (record.keys.map (·.kid)).Nodup :=
  (List.nodup_append.mp unique).1

private theorem kids_of_clear (clear : record.pendingRevision = none) : record.kids = record.keys.map (·.kid) := by
  simp [IdentityRecord.kids, clear]

private theorem kids_of_pending {pending : PendingRevisionRecord} (found : record.pendingRevision = some pending) :
    record.kids = record.keys.map (·.kid) ++ pending.newKeyMetadata.map (·.kid) := by
  simp [IdentityRecord.kids, found]

private theorem rekeyed {other : IdentityRecord} (unique : other.kids.Nodup)
    (keys : record.keys.map (·.kid) = other.keys.map (·.kid)) (pending : record.pendingRevision = other.pendingRevision) :
    record.kids.Nodup := by
  unfold IdentityRecord.kids
  rw [keys, pending]
  exact unique

section
variable {self : DidIdentity} {call : IdentityCall} {action : IdentityAction} {record : IdentityRecord}

private theorem IdentityAction.unique (began : event.Begins anp w entropy self call action)
    (stores : action.Stores anp entropy record) (calls : Calls anp NamesKeysOnce w event) (unique : action.seen.kids.Nodup) :
    record.kids.Nodup := by
  have once := calls.holds began
  obtain ⟨is, held, started⟩ := began
  have does := started.does
  have keys := IdentityRecord.kids_clear unique
  cases started.started.2.rekeys stores with
  | planned is _ _ same pending =>
    rw [is] at does
    cases does with
    | prepare planned =>
      obtain ⟨listed, unused⟩ := planUpdate_adds planned
      rw [kids_of_pending pending, same, show (UpdatePlan.pending ..).newKeyMetadata.map (·.kid) = _ from listed, List.nodup_append]
      refine ⟨keys, once, fun kid old other new same => ?_⟩
      subst same
      exact unused kid new old
  | cleared same clear =>
    rw [kids_of_clear clear, same]
    exact keys
  | moved found _ same pending =>
    rw [kids_of_pending found] at unique
    rw [kids_of_pending pending, same]
    exact unique
  | committed found same is clear =>
    rw [kids_of_pending found] at unique
    rw [kids_of_clear clear, is, List.map_append, same.kids]
    exact unique
  | kept same pending => exact rekeyed unique same.kids pending
  | imported adopted pending => exact rekeyed unique (adoptRootKey_kids adopted) pending

end

theorem Rewrite.unique {file : IdentityRecord} (rewrites : Rewrite anp w event s file record)
    (gives : GivesKidsOnce anp w event) (unique : file.kids.Nodup) : record.kids.Nodup := by
  cases rewrites with
  | @activate record shown creating =>
    have same : record.kids = file.kids := by
      rcases shown with rfl | completed
      · rfl
      · exact completeRecord_kids completed
    rw [← same] at unique
    exact unique
  | @act entropy self call action record began completed stores room =>
    have next : record.kids.Nodup :=
      IdentityAction.unique began stores gives.1 (by rw [completeRecord_kids completed]; exact unique)
    exact next
  | @clear j record outstanding kind completed pends named room =>
    have keys : (record.keys.map (·.kid)).Nodup := by
      rw [← completeRecord_kids completed] at unique
      exact IdentityRecord.kids_clear unique
    rw [kids_of_clear rfl]
    exact keys

/-- No two keys of a record have the same kid. -/
theorem key_ids_unique {events : List Event} (meets : World.initial.Meets anp (GivesKidsOnce anp) events) {id : String}
    {file : IdentityRecord} (found : (World.initial.run anp events).store.identities id = some file) :
    (file.keys.map (·.kid)).Nodup := by
  refine IdentityRecord.kids_clear (World.file_invariant (P := fun record => record.kids.Nodup) ?_
    (fun _ _ _ _ _ gives unique rewrites => rewrites.unique gives unique) meets found)
  intro w event entropy self call action made gives brought makes
  obtain ⟨rfl, -, started⟩ := brought
  rw [kids_of_clear (started.isNew makes).pendingRevision]
  exact started.unique makes gives.2

end

namespace Plain

def peerDevice (deviceId : String) : DeviceAddSpec where
  deviceId
  signingKey := { kid := "s", publicKeyMultibase := multibase (.ed25519 [3, 3]) }
  e2eeKey := { kid := "e", publicKeyMultibase := multibase (.x25519 [4, 4]) }
  profiles := ["p"]

/-- An update of the devices of a created identity goes all the way to its commit. -/
def committedDevices (mutations : List DeviceMutationSpec) : List Event :=
  let prepared := creation ++ [.identity 0 (.prepareUpdate { deviceMutations := mutations }) (entropy "1" 1) none]
  prepared ++ [.identity 0 (.beginPublication "r1") (entropy "2" 1) none,
    .identity 0 (.commitVerifiedUpdate "r1" false (evidence 2 (candidate prepared))) (entropy "3" 1) none]

def devices : List DeviceMutationSpec := [.add (peerDevice "d1")]

/-- A device is added, removed and added again under another id. -/
def returningDevice : List DeviceMutationSpec := [.add (peerDevice "d1"), .remove "d1", .add (peerDevice "d2")]

end Plain

theorem key_ids_unique_device :
    World.initial.Meets Plain.anp (GivesKidsOnce Plain.anp) (Plain.committedDevices Plain.devices) ∧
      ∃ file, (World.initial.run Plain.anp (Plain.committedDevices Plain.devices)).store.identities "i0" = some file ∧
        file.keys.length = 3 ∧ (file.keys.map (·.kid)).Nodup := by
  have meets : World.initial.Meets Plain.anp (GivesKidsOnce Plain.anp) (Plain.committedDevices Plain.devices) := by
    decide +kernel
  have stored : ((World.initial.run Plain.anp (Plain.committedDevices Plain.devices)).store.identities "i0").any
      (fun file => file.keys.length = 3) = true := by decide +kernel
  obtain ⟨file, found, three⟩ := Option.any_eq_true _ _ |>.mp stored
  exact ⟨meets, file, found, by simpa using three, key_ids_unique meets found⟩

/-- A device that comes back within one update has both of its keys listed twice. -/
theorem returning_device_listed_twice :
    World.initial.Meets Plain.anp (fun _ _ => True) (Plain.committedDevices Plain.returningDevice) ∧
      ∃ file, (World.initial.run Plain.anp (Plain.committedDevices Plain.returningDevice)).store.identities "i0" = some file ∧
        ¬ (file.keys.map (·.kid)).Nodup := by
  have stored : ((World.initial.run Plain.anp (Plain.committedDevices Plain.returningDevice)).store.identities "i0").any
      (fun file => ¬ (file.keys.map (·.kid)).Nodup) = true := by decide +kernel
  obtain ⟨file, found, twice⟩ := Option.any_eq_true _ _ |>.mp stored
  exact ⟨by decide +kernel, file, found, by simpa using twice⟩

end AnpIdentity
