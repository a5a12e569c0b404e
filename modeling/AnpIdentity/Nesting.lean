import AnpIdentity.Candidates
import AnpIdentity.Creation

/-! How deep documents are nested. `serde_json` reads back what it wrote only up to its recursion limit. The documents that
the crate builds itself stay far below it; those that it is given need not. -/

namespace AnpIdentity
open Text

/-- A document that can be read back, also as the candidate of a pending revision. -/
def Value.Shallow (document : Value) : Prop := document.levels + 2 < recursionLimit

instance (document : Value) : Decidable document.Shallow := inferInstanceAs (Decidable (_ < _))

/-- What the `anp` crate builds is not deep: an E1 document is no deeper than its services make it, a proof stands at the
top of a document, and so does a manifest. -/
structure Anp.Flat (anp : Anp) : Prop where
  builds : ∀ domain options document, anp.buildUnsignedE1DidDocument domain options = .ok document →
    (∀ service ∈ options.services, service.levels ≤ 2) → document.Shallow
  proves : ∀ document key kid options prepared signature signed, anp.prepareW3cProof document key kid options = .ok prepared →
    anp.completeW3cProof prepared signature = .ok signed → document.Shallow → signed.Shallow
  lists : ∀ manifest value, anp.deviceManifestToValue manifest = .ok value → value.levels + 3 < recursionLimit

/-! ## Values -/

/-- No field is nested deeper than `n`. -/
def Object.Within (n : Nat) (object : Object) : Prop := ∀ field ∈ object, field.2.levels ≤ n

section
variable {n : Nat} {object next : Object} {items : List Value} {fields : List (String × Value)} {name : String} {value : Value}

@[simp] theorem Value.levels_string (s : String) : (Value.string s).levels = 0 := rfl

theorem Value.levels_array : (Value.array items).levels ≤ n + 1 ↔ ∀ item ∈ items, item.levels ≤ n := by
  rw [Value.levels, Nat.add_le_add_iff_right]
  induction items with
  | nil => simp [Value.itemLevels]
  | cons item rest ih => simp [Value.itemLevels, ih]

theorem Value.levels_object : (Value.object object).levels ≤ n + 1 ↔ object.Within n := by
  rw [Value.levels, Nat.add_le_add_iff_right]
  induction object with
  | nil => simp [Value.fieldLevels, Object.Within]
  | cons field rest ih =>
    obtain ⟨name, value⟩ := field
    unfold Object.Within at ih ⊢
    simp only [Value.fieldLevels, Value.valueLevels, Nat.max_le, ih, List.forall_mem_cons]

theorem Value.shallow_object : (Value.object object).Shallow ↔ object.Within 124 := by
  rw [← Value.levels_object]
  unfold Value.Shallow recursionLimit
  omega

theorem Object.mem_insert {field : String × Value} (inside : field ∈ Object.insert name value object) :
    field = (name, value) ∨ field ∈ object := by
  induction object with
  | nil => simpa [Object.insert] using inside
  | cons first rest ih =>
    obtain ⟨key, old⟩ := first
    unfold Object.insert at inside
    split at inside
    · simpa using inside
    · split at inside
      · rcases List.mem_cons.mp inside with rfl | later
        · exact .inr List.mem_cons_self
        · exact (ih later).imp_right (List.mem_cons_of_mem _)
      · exact (List.mem_cons.mp inside).imp_right (List.mem_cons_of_mem _)

theorem Object.Within.insert (within : object.Within n) (few : value.levels ≤ n) : (Object.insert name value object).Within n := by
  intro field inside
  rcases Object.mem_insert inside with rfl | old
  · exact few
  · exact within field old

theorem Object.Within.remove (within : object.Within n) : (object.remove name).Within n :=
  fun field inside => within field (List.mem_of_mem_filter inside)

theorem Object.Within.get (within : object.Within n) (found : object.get name = some value) : value.levels ≤ n := by
  obtain ⟨field, first, rfl⟩ := Option.map_eq_some_iff.mp found
  exact within field (List.mem_of_find?_eq_some first)

theorem Object.within_of (few : ∀ field ∈ fields, field.2.levels ≤ n) : (Object.of fields).Within n := by
  have fold : ∀ start : Object, start.Within n →
      (fields.foldl (fun object field => Object.insert field.1 field.2 object) start).Within n := by
    induction fields with
    | nil => exact fun start within => within
    | cons field rest ih =>
      intro start within
      rw [List.forall_mem_cons] at few
      exact ih few.2 _ (within.insert few.1)
  exact fold [] (by simp [Object.Within])

/-! ## Services -/

theorem serviceJson_levels (service : ServiceSpec) : (serviceJson service).levels ≤ 2 := by
  have texts : ∀ list : List String, (Value.array (list.map .string)).levels ≤ 1 := by
    intro list
    rw [Value.levels_array]
    intro item inside
    obtain ⟨_, -, rfl⟩ := List.mem_map.mp inside
    simp
  have withField_within : ∀ {object : Object} {present : Bool} {name : String} {value : Value}, object.Within 1 →
      value.levels ≤ 1 → (withField object present name value).Within 1 := by
    intro object present name value within few
    unfold withField
    split
    · exact within.insert few
    · exact within
  unfold serviceJson
  refine Value.levels_object.mpr (withField_within (withField_within ?_ (texts _)) (texts _))
  have base : (Object.of [("id", .string (if startsWith service.id "#" then service.id else "#" ++ service.id)),
      ("type", .string service.serviceType), ("serviceEndpoint", .string service.serviceEndpoint)]).Within 1 :=
    Object.within_of (by simp)
  split
  · exact base.insert (by simp)
  · exact base

theorem absoluteService_levels {did : String} {service : Value} (few : service.levels ≤ n + 1) :
    (absoluteService did service).levels ≤ n + 1 := by
  unfold absoluteService
  split
  · rename_i object _ is
    split
    · cases service with
      | object fields =>
        cases is
        exact Value.levels_object.mpr ((Value.levels_object.mp few).insert (by simp))
      | _ => cases is
    · exact few
  · exact few

end

/-! ## Identities that are created -/

section
variable {anp : Anp} {n : Nat} {object next : Object} {entropy : Entropy} {did : String}

theorem applyExtensions_within {extensions : List DidExtensionSpec} (flat : anp.Flat) (within : object.Within 124)
    (made : applyExtensions anp did object extensions = .ok next) : next.Within 124 := by
  induction extensions generalizing object with
  | nil =>
    cases made
    exact within
  | cons extension rest ih =>
    obtain ⟨devices⟩ := extension
    simp only [applyExtensions, except_bind_ok, mapErr_ok] at made
    obtain ⟨_, -, _, -, value, rendered, made⟩ := made
    have few := flat.lists _ _ rendered
    unfold recursionLimit at few
    exact ih (within.insert (by omega)) made

theorem methodJson_levels (type kid did multibase : String) : (methodJson type kid did multibase).levels ≤ 1 :=
  Value.levels_object.mpr (Object.within_of (by simp))

private theorem webObject_within {methods services : List Value} {keys : List (String × KeyRole × PublicKeyMaterial)}
    (methodsFew : ∀ method ∈ methods, method.levels ≤ 2) (servicesFew : ∀ service ∈ services, service.levels ≤ 2) :
    (webObject did methods keys services).Within 3 := by
  have relationship : ∀ relationship, (webRelationship relationship keys).levels ≤ 3 := by
    intro relationship
    refine Value.levels_array.mpr (fun item inside => ?_)
    obtain ⟨_, -, rfl⟩ := List.mem_map.mp inside
    simp
  have context : (Value.array
      [.string "https://www.w3.org/ns/did/v1", .string "https://w3id.org/security/multikey/v1"]).levels ≤ 3 :=
    Value.levels_array.mpr (by simp)
  have methodsLevels : (Value.array methods).levels ≤ 3 := Value.levels_array.mpr methodsFew
  unfold webObject withField
  split
  · refine (Object.within_of ?_).insert (Value.levels_array.mpr servicesFew)
    simp [relationship, methodsLevels, context]
  · refine Object.within_of ?_
    simp [relationship, methodsLevels, context]

theorem buildIdentity_shallow {spec : DidCreateSpec} {built : BuiltIdentity} (flat : anp.Flat)
    (made : buildIdentity anp entropy spec = .ok built) : built.document.Shallow := by
  simp only [buildIdentity, except_bind_ok] at made
  obtain ⟨_, -, made⟩ := made
  split at made
  · simp only [buildWebIdentity, except_bind_ok, mapErr_ok] at made
    obtain ⟨_, -, _, -, external, -, methods, described, object, extended, _, -, _, -, metadata, -, same⟩ := made
    cases same
    have small : ∀ keys, (webObject (webDid spec) methods keys (webServices (webDid spec) spec)).Within 3 := by
      intro keys
      refine webObject_within (fun method inside => ?_) (fun service inside => ?_)
      · obtain ⟨key, -, made⟩ := mapM_ok described method inside
        simp only [webMethod, except_bind_ok] at made
        obtain ⟨multibase, -, same⟩ := made
        cases same
        exact (methodJson_levels "Multikey" key.1 (webDid spec) multibase).trans (by decide)
      · obtain ⟨source, listed, rfl⟩ := List.mem_map.mp inside
        refine absoluteService_levels ?_
        rcases List.mem_append.mp listed with given | url
        · obtain ⟨service, -, rfl⟩ := List.mem_map.mp given
          exact serviceJson_levels service
        · obtain ⟨_, -, rfl⟩ := List.mem_map.mp url
          exact Value.levels_object.mpr (Object.within_of (by simp))
    exact Value.shallow_object.mpr (applyExtensions_within flat (fun field inside => (small _ field inside).trans (by decide)) extended)
  · simp only [buildE1Identity, except_bind_ok, mapErr_ok, okOr_ok] at made
    obtain ⟨rootKey, -, rootOnly, -, did, -, _, -, external, -, unsigned, builds, object, isObject, extended, extensions, prepared,
      prepares, signature, -, document, completes, _, -, _, -, metadata, -, same⟩ := made
    cases same
    have shallow := flat.builds _ _ _ builds (fun service inside => by
      obtain ⟨source, -, rfl⟩ := List.mem_map.mp inside
      exact serviceJson_levels source)
    cases unsigned with
    | object fields =>
      cases isObject
      exact flat.proves _ _ _ _ _ _ _ prepares completes
        (Value.shallow_object.mpr (applyExtensions_within flat (Value.shallow_object.mp shallow) extensions))
    | _ => cases isObject

/-! ## Candidates -/

/-- A change to an array that brings in nothing deeper. -/
def Contained (n : Nat) (change : List Value → List Value) : Prop :=
  ∀ items, (∀ item ∈ items, item.levels ≤ n) → ∀ item ∈ change items, item.levels ≤ n

variable {change : List Value → List Value}

theorem Contained.append {more : List Value} (contained : Contained n change) (few : ∀ item ∈ more, item.levels ≤ n) :
    Contained n (fun items => change items ++ more) := by
  intro items within item inside
  exact (List.mem_append.mp inside).elim (contained items within item) (few item)

theorem contained_same : Contained n (fun items => items) := fun _ within => within

theorem contained_filter (p : Value → Bool) : Contained n (List.filter p) :=
  fun _ within item inside => within item (List.mem_of_mem_filter inside)

theorem modifyArray_within {name : String} (contained : Contained n change)
    (made : modifyArray object name change = .ok next) (within : object.Within (n + 1)) : next.Within (n + 1) := by
  simp only [modifyArray, except_bind_ok, okOr_ok] at made
  obtain ⟨items, found, same⟩ := made
  cases same
  obtain ⟨value, present, array⟩ := Option.bind_eq_some_iff.mp found
  cases value with
  | array list =>
    cases array
    exact within.insert (Value.levels_array.mpr (contained _ (Value.levels_array.mp (within.get present))))
  | _ => cases array

variable {record : IdentityRecord}

private theorem append_method {type kid multibase : String} :
    Contained (n + 1) (· ++ [methodJson type kid did multibase]) :=
  contained_same.append (by simp [(methodJson_levels type kid did multibase).trans (Nat.le_add_left 1 n)])

private theorem append_string {s : String} (contained : Contained n change) :
    Contained n (fun items => change items ++ [.string s]) :=
  contained.append (by simp)

private theorem applyRotation_within {rotation : PreparedRotation}
    (made : applyRotation anp record rotation object = .ok next) (within : object.Within (n + 2)) : next.Within (n + 2) := by
  simp only [applyRotation, except_bind_ok] at made
  obtain ⟨_, -, middle, first, second⟩ := made
  exact modifyArray_within (append_string (contained_filter _)) second (modifyArray_within append_method first within)

private theorem applyRequestSigningMutations_within {mutations : List RequestSigningMutationSpec}
    {changes after : DocumentChanges} (made : applyRequestSigningMutations anp record changes mutations = .ok after)
    (within : changes.object.Within (n + 2)) : after.object.Within (n + 2) := by
  induction mutations generalizing changes with
  | nil =>
    cases made
    exact within
  | cons mutation rest ih =>
    obtain ⟨next, first, made⟩ := except_bind_ok.mp made
    refine ih made ?_
    cases mutation with
    | add key =>
      simp only [applyRequestSigningMutation, except_bind_ok] at first
      obtain ⟨_, -, _, -, _, -, middle, one, object, two, same⟩ := first
      cases same
      exact modifyArray_within (append_string contained_same) two (modifyArray_within append_method one within)
    | remove kid =>
      simp only [applyRequestSigningMutation, except_bind_ok] at first
      obtain ⟨_, -, _, -, _, -, _, -, middle, one, object, two, same⟩ := first
      cases same
      exact modifyArray_within (contained_filter _) two (modifyArray_within (contained_filter _) one within)

private theorem applyDeviceMutationList_within {mutations : List DeviceMutationSpec} {state after : DeviceChanges}
    (made : applyDeviceMutationList anp record state mutations = .ok after) (within : state.changes.object.Within (n + 2)) :
    after.changes.object.Within (n + 2) := by
  induction mutations generalizing state with
  | nil =>
    cases made
    exact within
  | cons mutation rest ih =>
    obtain ⟨next, first, made⟩ := except_bind_ok.mp made
    refine ih made ?_
    cases mutation with
    | addProfiles deviceId profiles =>
      simp only [applyDeviceMutation, addDeviceProfiles, except_bind_ok] at first
      obtain ⟨_, -, _, -, _, -, same⟩ := first
      cases same
      exact within
    | add device =>
      simp only [applyDeviceMutation, addDevice, except_bind_ok] at first
      obtain ⟨_, -, signingKid, -, e2eeKid, -, _, -, _, -, _, -, one, first, two, second, three, third, four, fourth, same⟩ := first
      cases same
      have methods : Contained (n + 1) (· ++ [methodJson "Multikey" signingKid record.did device.signingKey.publicKeyMultibase,
          methodJson "X25519KeyAgreementKey2019" e2eeKid record.did device.e2eeKey.publicKeyMultibase]) :=
        contained_same.append (by simp [(methodJson_levels _ _ _ _).trans (Nat.le_add_left 1 n)])
      exact modifyArray_within (append_string contained_same) fourth (modifyArray_within (append_string contained_same) third
        (modifyArray_within (append_string contained_same) second (modifyArray_within methods first within)))
    | remove deviceId =>
      simp only [applyDeviceMutation, removeDevice, except_bind_ok] at first
      obtain ⟨_, -, _, -, _, -, _, -, one, first, two, second, three, third, four, fourth, same⟩ := first
      cases same
      exact modifyArray_within (contained_filter _) fourth (modifyArray_within (contained_filter _) third
        (modifyArray_within (contained_filter _) second (modifyArray_within (contained_filter _) first within)))

/-- The candidate of an update is no deeper than its document may be. -/
theorem buildCandidateDocument_shallow {s : Store} {rotation : Option PreparedRotation} {spec : DocumentUpdateSpec}
    {candidate : CandidateChanges} (flat : anp.Flat) (shallow : record.document.Shallow)
    (made : buildCandidateDocument anp entropy s record rotation spec = .ok candidate) : candidate.document.Shallow := by
  obtain ⟨stored, rotated, requested, manifest, changed, written, stages⟩ := buildCandidateDocument_ok made
  have start : stored.Within 124 := by
    have is := stages.is
    cases document : record.document with
    | object fields =>
      rw [document] at is shallow
      cases is
      exact Value.shallow_object.mp shallow
    | _ => simp [document, Value.asObject] at is
  have turned : rotated.Within 124 := by
    cases stages.rotates with
    | none => exact start.remove
    | some applied => exact applyRotation_within applied start.remove
  have devices : changed.changes.object.Within 124 :=
    applyDeviceMutationList_within stages.devices (applyRequestSigningMutations_within stages.requests turned)
  have final : written.Within 124 := by
    cases stages.writes with
    | absent => exact devices
    | removed => exact devices.remove
    | written _ _ rendered =>
      have few := flat.lists _ _ rendered
      unfold recursionLimit at few
      exact devices.insert (by omega)
  have serves : (withServices record spec.services written).Within 124 := by
    unfold withServices
    split
    · refine final.insert (Value.levels_array.mpr (fun item inside => ?_))
      rcases List.mem_append.mp inside with kept | new
      · have old := List.mem_of_mem_filter kept
        cases found : (written.get "service").bind Value.asArray with
        | none => simp [found] at old
        | some items =>
          rw [found] at old
          obtain ⟨value, present, array⟩ := Option.bind_eq_some_iff.mp found
          cases value with
          | array list =>
            cases array
            exact Value.levels_array.mp (final.get present) item old
          | _ => cases array
      · obtain ⟨service, -, rfl⟩ := List.mem_map.mp new
        exact (absoluteService_levels (serviceJson_levels service)).trans (by decide)
    · exact final
  have signs := stages.signs
  generalize candidate.document = document at signs
  cases signs with
  | plain => exact Value.shallow_object.mpr serves
  | signed _ _ _ _ signs =>
    unfold signRootDocument at signs
    split at signs
    · simp only [except_bind_ok, mapErr_ok] at signs
      obtain ⟨prepared, prepares, signature, -, completes⟩ := signs
      exact flat.proves _ _ _ _ _ _ _ prepares completes (Value.shallow_object.mpr serves)
    · cases signs

end
end AnpIdentity
