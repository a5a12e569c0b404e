import AnpIdentity.KeyEdits
import AnpIdentity.Authority

/-! Candidate documents and key metadata. A candidate lists the keys that a plan adds as their roles ask, and the keys that
it retires nowhere, exactly if the document lists no key of the request where the edits do not reach it. -/

namespace AnpIdentity

/-- The entry of a relationship is the kid, or a method with it. -/
def Mentions (kid : String) (entry : Value) : Bool := entry.asStr == some kid || entry.getStr "id" == some kid

/-- The manifest that a document has. -/
def storedManifest (anp : Anp) (document : Value) : Option DeviceManifest :=
  (document.get "deviceManifest").bind (fun value => (anp.deviceManifestFromValue value).toOption)

/-- The entry is about none of the keys that the plan adds or retires. -/
def UpdatePlan.leaves (plan : UpdatePlan) (entry : Value) : Bool :=
  !plan.added.any (fun key => Mentions key.1 entry) && !plan.retired.any (fun kid => Mentions kid entry)

/-- The candidate document and the keys of a plan agree. -/
structure CandidateAgrees (anp : Anp) (record : IdentityRecord) (spec : DocumentUpdateSpec) (plan : UpdatePlan) : Prop where
  added : ∀ kid role, (kid, role) ∈ plan.added →
    (plan.changes.document.entries methodsName).countP (fun method => method.getStr "id" == some kid) = 1 ∧
      ∀ relationship : DidVerificationRelationship,
        relationshipContains plan.changes.document relationship.name kid = true ↔ relationship ∈ relationships role
  retired : ∀ kid ∈ plan.retired, (∀ role, (kid, role) ∉ plan.added) → ∀ relationship : DidVerificationRelationship,
    relationshipContains plan.changes.document relationship.name kid = false
  devices : ManifestLists anp (((storedManifest anp record.document).map (·.manifestType)).getD anp.deviceManifestType)
    (requestedDevices record.did (manifestDevices (storedManifest anp record.document)) spec.deviceMutations)
    plan.changes.document
  methodsOrder : (plan.changes.document.entries methodsName).filter plan.leaves =
    (record.document.entries methodsName).filter plan.leaves
  relationshipsOrder : ∀ relationship : DidVerificationRelationship,
    (plan.changes.document.entries relationship.name).filter plan.leaves =
      (record.document.entries relationship.name).filter plan.leaves

def AddsKid (edits : List KeyEdit) (kid : String) (role : KeyRole) : Prop := ∃ method, .add kid role method ∈ edits

def RetiresKid (edits : List KeyEdit) (kid : String) (role : KeyRole) : Prop := ∃ drop, .retire kid role drop ∈ edits

/-- A request that the edits of its keys carry out in full: a kid is added in one role and is not retired after that, no
method of the document has it, and where the role of a key does not put it the document has it only as a string in a
relationship that a retirement of the key clears. -/
structure CleanRequest (document : Value) (edits : List KeyEdit) : Prop where
  roles : ∀ kid role other, AddsKid edits kid role → AddsKid edits kid other → role = other
  last : ∀ before kid role drop after, edits = before ++ .retire kid role drop :: after →
    (∃ role, AddsKid before kid role) → ∃ role, AddsKid after kid role
  unused : ∀ kid role, AddsKid edits kid role → (∃ role, .retire kid role true ∈ edits) ∨
    ∀ method ∈ document.entries methodsName, method.getStr "id" ≠ some kid
  mentions : ∀ kid (relationship : DidVerificationRelationship),
    (∃ role, AddsKid edits kid role) ∨ (∃ role, RetiresKid edits kid role) →
    (∀ role, AddsKid edits kid role → relationship ∉ relationships role) →
    ∀ entry ∈ document.entries relationship.name, Mentions kid entry = true →
      entry = .string kid ∧ ∃ role, RetiresKid edits kid role ∧ relationship ∈ relationships role

section
variable {edits later : List KeyEdit} {kid : String} {role : KeyRole}

theorem mem_added {key : String × KeyRole} : key ∈ edits.filterMap KeyEdit.added ↔ AddsKid edits key.1 key.2 := by
  rw [List.mem_filterMap]
  constructor
  · rintro ⟨edit, inside, same⟩
    cases edit with
    | add kid role method =>
      cases same
      exact ⟨method, inside⟩
    | retire => cases same
  · rintro ⟨method, inside⟩
    exact ⟨_, inside, rfl⟩

theorem mem_retired : kid ∈ edits.filterMap KeyEdit.retired ↔ ∃ role, RetiresKid edits kid role := by
  rw [List.mem_filterMap]
  constructor
  · rintro ⟨edit, inside, same⟩
    cases edit with
    | add => cases same
    | retire kid role drop =>
      cases same
      exact ⟨role, drop, inside⟩
  · rintro ⟨role, drop, inside⟩
    exact ⟨_, inside, rfl⟩

/-- The last edit that adds the kid. -/
private theorem last_add (adds : ∃ role, AddsKid edits kid role) : ∃ before role method after,
    edits = before ++ .add kid role method :: after ∧ ∀ other, ¬ AddsKid after kid other := by
  induction edits with
  | nil =>
    obtain ⟨role, method, inside⟩ := adds
    cases inside
  | cons edit rest ih =>
    by_cases more : ∃ role, AddsKid rest kid role
    · obtain ⟨before, role, method, after, rfl, none⟩ := ih more
      exact ⟨edit :: before, role, method, after, rfl, none⟩
    · obtain ⟨role, method, inside⟩ := adds
      rcases List.mem_cons.mp inside with rfl | later
      · exact ⟨[], role, method, rest, rfl, fun other adds => more ⟨other, adds⟩⟩
      · exact absurd ⟨role, method, later⟩ more

/-! ## Methods -/

private def hasId (kid : String) (method : Value) : Bool := method.getStr "id" == some kid

variable {edit : KeyEdit}

/-- An edit of another key leaves the methods of this one. -/
private theorem onMethods_spares (proper : edit.Proper) (other : ∀ role method, edit ≠ .add kid role method)
    (kept : ∀ role, edit ≠ .retire kid role true) : edit.onMethods.Spares (hasId kid) := by
  cases edit with
  | add added role method =>
    have apart : added ≠ kid := by
      rintro rfl
      exact other role method rfl
    change hasId kid method = false
    simpa [hasId, proper.1] using apart
  | retire gone role drop =>
    cases drop with
    | false => exact fun _ _ => rfl
    | true =>
      have apart : gone ≠ kid := by
        rintro rfl
        exact kept role rfl
      intro method named
      have named : method.getStr "id" = some kid := by simpa [hasId] using named
      simpa [named] using apart.symm

private theorem onMethods_withholds (proper : edit.Proper) (other : ∀ role method, edit ≠ .add kid role method) :
    edit.onMethods.Withholds (hasId kid) := by
  cases edit with
  | add added role method =>
    have apart : added ≠ kid := by
      rintro rfl
      exact other role method rfl
    change hasId kid method = false
    simpa [hasId, proper.1] using apart
  | retire gone role drop => cases drop <;> trivial

private theorem onMethods_keeps (kept : ∀ role, edit ≠ .retire kid role true) (method : Value)
    (named : hasId kid method = true) : edit.onMethods.Keeps method := by
  cases edit with
  | add added role new => trivial
  | retire gone role drop =>
    cases drop with
    | false => rfl
    | true =>
      have apart : gone ≠ kid := by
        rintro rfl
        exact kept role rfl
      have named : method.getStr "id" = some kid := by simpa [hasId] using named
      change (method.getStr "id" != some gone) = true
      simpa [named] using apart.symm

section
variable {methods : List Value} {before after : List KeyEdit} {method : Value}

/-- One method has a kid that was added where no method had it, if no later edit is about the kid. -/
private theorem count_added (proper : ∀ edit ∈ before ++ .add kid role method :: after, edit.Proper)
    (absent : (Script.run methods (before.map KeyEdit.onMethods)).filter (hasId kid) = [])
    (none : ∀ other, ¬ AddsKid after kid other) (stays : ∀ role, .retire kid role true ∉ after) :
    (Script.run methods ((before ++ .add kid role method :: after).map KeyEdit.onMethods)).countP (hasId kid) = 1 := by
  have named : hasId kid method = true := by
    have here : method.getStr "id" = some kid := (proper (.add kid role method) (by simp)).1
    simp [hasId, here]
  have spares : ∀ step ∈ after.map KeyEdit.onMethods, step.Spares (hasId kid) := by
    intro step inside
    obtain ⟨edit, there, rfl⟩ := List.mem_map.mp inside
    refine onMethods_spares (proper edit (by simp [there])) (fun role method same => ?_) (fun role same => ?_)
    · exact none role ⟨method, same ▸ there⟩
    · exact stays role (same ▸ there)
  rw [List.countP_eq_length_filter, List.map_append, Script.run_append, List.map_cons]
  change ((Script.run (Script.run methods (before.map KeyEdit.onMethods) ++ [method]) _).filter _).length = 1
  rw [Script.filter_run spares, List.filter_append, absent]
  simp [named]

/-- No method has a kid that was dropped and not added again. -/
private theorem count_dropped (proper : ∀ edit ∈ after, edit.Proper) (none : ∀ other, ¬ AddsKid after kid other) :
    (Script.run methods ((before ++ .retire kid role true :: after).map KeyEdit.onMethods)).countP (hasId kid) = 0 := by
  rw [List.countP_eq_length_filter, List.map_append, Script.run_append, List.map_cons]
  change ((Script.run ((Script.run methods (before.map KeyEdit.onMethods)).filter _) _).filter _).length = 0
  rw [Script.filter_run_nil, List.length_nil]
  · intro step inside
    obtain ⟨edit, there, rfl⟩ := List.mem_map.mp inside
    refine onMethods_withholds (proper edit there) (fun role method same => none role ⟨method, same ▸ there⟩)
  · rw [List.filter_filter]
    refine List.filter_eq_nil_iff.mpr (fun method _ => ?_)
    simp [hasId]

/-- A kid that a method of the document has and that is never dropped is there twice once it was added. -/
private theorem count_twice {present : Value} (inside : present ∈ methods) (has : hasId kid present = true)
    (adds : AddsKid edits kid role) (proper : ∀ edit ∈ edits, edit.Proper) (stays : ∀ role, .retire kid role true ∉ edits) :
    1 < (Script.run methods (edits.map KeyEdit.onMethods)).countP (hasId kid) := by
  obtain ⟨method, added⟩ := adds
  obtain ⟨before, after, rfl⟩ := List.append_of_mem added
  have named : hasId kid method = true := by
    have here : method.getStr "id" = some kid := (proper _ added).1
    simp [hasId, here]
  have keeps : ∀ part : List KeyEdit, (∀ edit ∈ part, edit ∈ before ++ .add kid role method :: after) →
      ∀ step ∈ part.map KeyEdit.onMethods, ∀ x, hasId kid x = true → step.Keeps x := by
    intro part all step inside x selected
    obtain ⟨edit, there, rfl⟩ := List.mem_map.mp inside
    exact onMethods_keeps (fun role same => stays role (same ▸ all edit there)) x selected
  have first : 1 ≤ (Script.run methods (before.map KeyEdit.onMethods)).countP (hasId kid) :=
    Nat.le_trans (List.countP_pos_iff.mpr ⟨present, inside, has⟩)
      (Script.countP_le_run (keeps before (fun edit there => List.mem_append_left _ there)))
  rw [List.map_append, Script.run_append, List.map_cons]
  change 1 < (Script.run (Script.run methods (before.map KeyEdit.onMethods) ++ [method]) _).countP _
  refine Nat.lt_of_lt_of_le ?_
    (Script.countP_le_run (keeps after (fun edit there => List.mem_append_right _ (List.mem_cons_of_mem _ there))))
  rw [List.countP_append, List.countP_singleton, if_pos named]
  omega

end

/-! ## Relationships -/

section
variable {relationship : DidVerificationRelationship} {items : List Value} {entry : Value}

private theorem onRelationship_keeps {edit : KeyEdit}
    (spared : ∀ kid role drop, edit = .retire kid role drop → relationship ∈ relationships role → entry.asStr ≠ some kid) :
    (edit.onRelationship relationship).Keeps entry := by
  cases edit with
  | add kid role method =>
    rw [KeyEdit.onRelationship]
    split
    · trivial
    · rfl
  | retire kid role drop =>
    rw [KeyEdit.onRelationship]
    split
    · rename_i here
      change (entry.asStr != some kid) = true
      simpa using spared kid role drop rfl here
    · rfl

/-- Only the kids of added keys are appended. -/
private theorem onRelationship_append {edit : KeyEdit} (appends : edit.onRelationship relationship = .append entry) :
    ∃ kid role method, edit = .add kid role method ∧ relationship ∈ relationships role ∧ entry = .string kid := by
  cases edit with
  | add kid role method =>
    rw [KeyEdit.onRelationship] at appends
    split at appends
    · rename_i here
      cases appends
      exact ⟨kid, role, method, rfl, here, rfl⟩
    · cases appends
  | retire kid role drop =>
    rw [KeyEdit.onRelationship] at appends
    split at appends <;> cases appends

theorem mentions_string {other : String} : Mentions kid (.string other) = true ↔ other = kid := by
  simp [Mentions, Value.asStr, Value.getStr, Value.get, Value.asObject]

private theorem asStr_some {entry : Value} {text : String} (same : entry.asStr = some text) : entry = .string text := by
  cases entry with
  | string other =>
    cases same
    rfl
  | _ => cases same

/-- A key that no edit puts into a relationship is missing there in the end exactly if the relationship had its kid only as
a string, and a retirement clears that. -/
private theorem mentions_gone (elsewhere : ∀ role, AddsKid edits kid role → relationship ∉ relationships role) :
    (Script.run items (edits.map (KeyEdit.onRelationship relationship))).any (Mentions kid) = false ↔
      ∀ entry ∈ items, Mentions kid entry = true →
        entry = .string kid ∧ ∃ role, RetiresKid edits kid role ∧ relationship ∈ relationships role := by
  rw [List.any_eq_false]
  constructor
  · intro none entry there mentions
    by_contra wrong
    refine none entry (Script.mem_run.mpr (.inl ⟨there, fun step inside => ?_⟩)) mentions
    obtain ⟨edit, listed, rfl⟩ := List.mem_map.mp inside
    refine onRelationship_keeps (fun gone role drop same here text => wrong ?_)
    subst same
    have is := asStr_some text
    subst is
    obtain rfl := mentions_string.mp mentions
    exact ⟨rfl, role, ⟨drop, listed⟩, here⟩
  · intro cleared entry inside mentions
    rcases Script.mem_run.mp inside with ⟨there, kept⟩ | ⟨before, after, split, -⟩
    · obtain ⟨rfl, role, ⟨drop, listed⟩, here⟩ := cleared entry there mentions
      have keeps := kept _ (List.mem_map_of_mem listed)
      rw [KeyEdit.onRelationship, if_pos here] at keeps
      have keeps : ((Value.string kid).asStr != some kid) = true := keeps
      simp [Value.asStr] at keeps
    · have added : .append entry ∈ edits.map (KeyEdit.onRelationship relationship) := by rw [split]; simp
      obtain ⟨edit, listed, appends⟩ := List.mem_map.mp added
      obtain ⟨other, role, method, rfl, here, rfl⟩ := onRelationship_append appends
      obtain rfl := mentions_string.mp mentions
      exact elsewhere role ⟨method, listed⟩ here

/-- A key that no later edit retires is where the last edit that adds it puts it. -/
private theorem mentions_added {before after : List KeyEdit} {method : Value} (here : relationship ∈ relationships role)
    (stays : ∀ role drop, .retire kid role drop ∉ after) :
    (Script.run items ((before ++ .add kid role method :: after).map (KeyEdit.onRelationship relationship))).any (Mentions kid) =
      true := by
  refine List.any_eq_true.mpr ⟨.string kid, Script.mem_run.mpr (.inr ?_), mentions_string.mpr rfl⟩
  refine ⟨before.map (KeyEdit.onRelationship relationship), after.map (KeyEdit.onRelationship relationship), ?_,
    fun step inside => ?_⟩
  · rw [List.map_append, List.map_cons, KeyEdit.onRelationship, if_pos here]
  · obtain ⟨edit, listed, rfl⟩ := List.mem_map.mp inside
    refine onRelationship_keeps (fun gone role drop same _ text => ?_)
    subst same
    cases text
    exact stays role drop listed

end

/-! ## The order of the edits -/

/-- A rotation comes first and keeps the old method; the other edits check that a new kid is unused. -/
structure EditsOrdered (methods : List Value) (opening later : List KeyEdit) : Prop where
  opens : opening = [] ∨ ∃ old new method, opening = [.retire old .requestSigning false, .add new .requestSigning method]
  drops : ∀ kid role, .retire kid role false ∉ later
  absent : AddsAbsent (Script.run methods (opening.map KeyEdit.onMethods)) later
  proper : ∀ edit ∈ opening ++ later, edit.Proper

section
variable {did : String} {devices : List DeviceManifestEntry}

private theorem deviceEdits_drop {mutations : List DeviceMutationSpec} : .retire kid role false ∉ deviceEdits did devices mutations := by
  induction mutations generalizing devices with
  | nil => exact List.not_mem_nil
  | cons mutation rest ih =>
    rw [deviceEdits, List.mem_append, not_or]
    refine ⟨?_, ih⟩
    cases mutation with
    | add device => simp [DeviceMutationSpec.edits]
    | remove deviceId =>
      rw [DeviceMutationSpec.edits]
      split <;> simp
    | addProfiles deviceId profiles => exact List.not_mem_nil

private theorem laterEdits_drop {spec : DocumentUpdateSpec} : .retire kid role false ∉ spec.laterEdits did devices := by
  rw [DocumentUpdateSpec.laterEdits, List.mem_append, not_or, List.mem_flatMap]
  refine ⟨?_, deviceEdits_drop⟩
  rintro ⟨mutation, -, inside⟩
  cases mutation <;> simp [RequestSigningMutationSpec.edits] at inside

end

theorem Drafts.ordered {anp : Anp} {entropy : Entropy} {record : IdentityRecord} {spec : DocumentUpdateSpec}
    {manifest : Option DeviceManifest} {plan : UpdatePlan} (drafts : Drafts anp entropy record spec manifest plan) :
    EditsOrdered (record.document.entries methodsName) ((spec.requestSigningRotation.map (·.edits record.did anp entropy)).getD [])
      (spec.laterEdits record.did (manifestDevices manifest)) where
  opens := by
    cases spec.requestSigningRotation with
    | none => exact .inl rfl
    | some rotation => exact .inr ⟨_, _, _, rfl⟩
  drops _ _ := laterEdits_drop
  absent := drafts.absent
  proper := drafts.proper

section
variable {document : Value} {opening : List KeyEdit}

private theorem AddsKid.mono {other : List KeyEdit} (adds : AddsKid edits kid role) (all : ∀ edit ∈ edits, edit ∈ other) :
    AddsKid other kid role :=
  adds.imp (fun _ inside => all _ inside)

/-- After the last edit that adds a key no edit retires it. -/
private theorem CleanRequest.stays (clean : CleanRequest document edits) {before after : List KeyEdit} {method : Value}
    (split : edits = before ++ .add kid role method :: after) (none : ∀ other, ¬ AddsKid after kid other) :
    ∀ role drop, .retire kid role drop ∉ after := by
  intro gone drop inside
  obtain ⟨between, rest, rfl⟩ := List.append_of_mem inside
  obtain ⟨other, adds⟩ := clean.last (before ++ .add kid role method :: between) kid gone drop rest
    (by rw [split, List.append_assoc, List.cons_append]) ⟨role, method, by simp⟩
  exact none other (adds.mono (fun edit there => by simp [there]))

private theorem CleanRequest.count (clean : CleanRequest document (opening ++ later))
    (ordered : EditsOrdered (document.entries methodsName) opening later) (adds : AddsKid (opening ++ later) kid role) :
    (Script.run (document.entries methodsName) ((opening ++ later).map KeyEdit.onMethods)).countP (hasId kid) = 1 := by
  have proper := ordered.proper
  by_cases more : ∃ role, AddsKid later kid role
  · obtain ⟨before, role, method, after, rfl, none⟩ := last_add more
    have split : opening ++ (before ++ .add kid role method :: after) = (opening ++ before) ++ .add kid role method :: after :=
      (List.append_assoc ..).symm
    rw [split] at proper ⊢
    refine count_added proper ?_ none (fun role => clean.stays split none role true)
    rw [List.map_append, Script.run_append]
    refine List.filter_eq_nil_iff.mpr (fun present inside => ?_)
    have apart := ordered.absent before kid role method after rfl present inside
    simpa [hasId] using apart
  · -- the rotation adds the key, and nothing after it is about the kid
    obtain ⟨method, inside⟩ := adds
    have first : .add kid role method ∈ opening :=
      (List.mem_append.mp inside).resolve_right (fun there => more ⟨role, method, there⟩)
    rcases ordered.opens with rfl | ⟨old, new, added, rfl⟩
    · cases first
    · have same : KeyEdit.add kid role method = .add new .requestSigning added := by simpa using first
      cases same
      have split : [.retire old .requestSigning false, .add kid .requestSigning method] ++ later =
        [.retire old .requestSigning false] ++ .add kid .requestSigning method :: later := rfl
      have none : ∀ other, ¬ AddsKid later kid other := fun other adds => more ⟨other, adds⟩
      have stays := clean.stays split none
      rw [split] at proper ⊢
      refine count_added proper (List.filter_eq_nil_iff.mpr (fun present there => ?_)) none (fun role => stays role true)
      have there : present ∈ document.entries methodsName := (List.mem_filter.mp there).1
      rcases clean.unused kid .requestSigning ⟨method, by simp⟩ with ⟨role, dropped⟩ | unused
      · have dropped : .retire kid role true ∈ later := by simpa using dropped
        exact absurd dropped (stays role true)
      · simpa [hasId] using unused present there

/-- Only the edit that opens a rotation retires a key and keeps its method. -/
private theorem EditsOrdered.first {methods : List Value} (ordered : EditsOrdered methods opening later)
    {before after : List KeyEdit} (split : opening ++ later = before ++ .retire kid role false :: after) : before = [] := by
  cases before with
  | nil => rfl
  | cons edit rest =>
    have inside : .retire kid role false ∈ (opening ++ later).tail := by rw [split]; simp
    rcases ordered.opens with rfl | ⟨old, new, method, rfl⟩
    · exact absurd (List.mem_of_mem_tail inside) (ordered.drops kid role)
    · have inside : .retire kid role false ∈ later := by simpa using inside
      exact absurd inside (ordered.drops kid role)

end
end

/-! ## Agreement -/

private theorem relationships_injective {role other : KeyRole} (apart : role ≠ .rootControl) (otherApart : other ≠ .rootControl)
    (same : ∀ relationship : DidVerificationRelationship, relationship ∈ relationships role ↔ relationship ∈ relationships other) :
    role = other := by
  have authentication := same .authentication
  have assertion := same .assertionMethod
  have agreement := same .keyAgreement
  cases role <;> cases other <;> simp_all [relationships]

section
variable {anp : Anp} {entropy : Entropy} {s : Store} {record : IdentityRecord} {spec : DocumentUpdateSpec} {plan : UpdatePlan}
  {manifest : Option DeviceManifest}

theorem Drafts.storedManifest (drafts : Drafts anp entropy record spec manifest plan) :
    storedManifest anp record.document = manifest := by
  obtain ⟨stored, is, reads⟩ := drafts.reads
  rw [AnpIdentity.storedManifest, Value.get, is, Option.bind_some]
  cases reads with
  | absent absent => rw [absent, Option.bind_none]
  | present found parsed =>
    rw [found, Option.bind_some, parsed]
    rfl

theorem Drafts.adds_iff (drafts : Drafts anp entropy record spec manifest plan) {kid : String} {role : KeyRole} :
    (kid, role) ∈ plan.added ↔ AddsKid (spec.edits record.did anp entropy (manifestDevices manifest)) kid role :=
  (drafts.added _).trans mem_added

theorem Drafts.retires_iff (drafts : Drafts anp entropy record spec manifest plan) {kid : String} :
    kid ∈ plan.retired ↔ ∃ role, RetiresKid (spec.edits record.did anp entropy (manifestDevices manifest)) kid role :=
  (drafts.retired kid).trans mem_retired

private theorem Drafts.contains (drafts : Drafts anp entropy record spec manifest plan)
    (relationship : DidVerificationRelationship) (kid : String) :
    relationshipContains plan.changes.document relationship.name kid =
      (Script.run (record.document.entries relationship.name) ((spec.edits record.did anp entropy (manifestDevices manifest)).map
        (KeyEdit.onRelationship relationship))).any (Mentions kid) := by
  rw [← drafts.relationship relationship]
  rfl

private theorem Drafts.clean (drafts : Drafts anp entropy record spec manifest plan)
    (agrees : CandidateAgrees anp record spec plan) :
    CleanRequest record.document (spec.edits record.did anp entropy (manifestDevices manifest)) := by
  have added := fun kid role adds => agrees.added kid role (drafts.adds_iff.mpr adds)
  have count : ∀ kid role, AddsKid (spec.edits record.did anp entropy (manifestDevices manifest)) kid role →
      (Script.run (record.document.entries methodsName) ((spec.edits record.did anp entropy (manifestDevices manifest)).map
        KeyEdit.onMethods)).countP (hasId kid) = 1 := by
    intro kid role adds
    rw [← drafts.methods]
    exact (added kid role adds).1
  refine ⟨fun kid role other adds also => ?_, fun before kid role drop after split adds => ?_, fun kid role adds => ?_,
    fun kid relationship touched elsewhere => ?_⟩
  · obtain ⟨method, inside⟩ := adds
    obtain ⟨otherMethod, otherInside⟩ := also
    refine relationships_injective (drafts.proper _ inside).2 (drafts.proper _ otherInside).2 (fun relationship => ?_)
    rw [← (added kid role ⟨method, inside⟩).2 relationship, ← (added kid other ⟨otherMethod, otherInside⟩).2 relationship]
  · by_contra gone
    obtain ⟨first, method, inside⟩ := adds
    cases drop with
    | false =>
      rw [drafts.ordered.first split] at inside
      cases inside
    | true =>
      have one := count kid first ⟨method, by rw [split]; exact List.mem_append_left _ inside⟩
      rw [split, count_dropped (fun edit there => drafts.proper edit (by rw [split]; simp [there]))
        (fun other adds => gone ⟨other, adds⟩)] at one
      cases one
  · by_contra wrong
    obtain ⟨kept, used⟩ := not_or.mp wrong
    push Not at used
    obtain ⟨present, there, named⟩ := used
    have twice := count_twice there (by simp [hasId, named]) adds drafts.proper (fun role inside => kept ⟨role, inside⟩)
    rw [count kid role adds] at twice
    exact absurd twice (Nat.lt_irrefl 1)
  · refine (mentions_gone elsewhere).mp ?_
    rw [← drafts.contains]
    by_cases adds : ∃ role, AddsKid (spec.edits record.did anp entropy (manifestDevices manifest)) kid role
    · obtain ⟨role, adds⟩ := adds
      rw [Bool.eq_false_iff, Ne, (added kid role adds).2 relationship]
      exact elsewhere role adds
    · refine agrees.retired kid (drafts.retires_iff.mpr (touched.resolve_left adds)) (fun role inside => ?_) relationship
      exact adds ⟨role, drafts.adds_iff.mp inside⟩

/-- An entry about none of the keys is neither added nor removed. -/
private theorem Drafts.leaves (drafts : Drafts anp entropy record spec manifest plan) {entry : Value}
    (left : plan.leaves entry = true) {edit : KeyEdit}
    (inside : edit ∈ spec.edits record.did anp entropy (manifestDevices manifest)) :
    (∀ kid role method, edit = .add kid role method → Mentions kid entry = false) ∧
      ∀ kid role drop, edit = .retire kid role drop → Mentions kid entry = false := by
  simp only [UpdatePlan.leaves, Bool.and_eq_true, Bool.not_eq_true', List.any_eq_false] at left
  constructor
  · rintro kid role method rfl
    simpa using left.1 (kid, role) (drafts.adds_iff.mpr ⟨method, inside⟩)
  · rintro kid role drop rfl
    simpa using left.2 kid (drafts.retires_iff.mpr ⟨role, drop, inside⟩)

theorem Drafts.methodsOrder (drafts : Drafts anp entropy record spec manifest plan) :
    (plan.changes.document.entries methodsName).filter plan.leaves = (record.document.entries methodsName).filter plan.leaves := by
  rw [drafts.methods]
  refine Script.filter_run (fun step inside => ?_)
  obtain ⟨edit, listed, rfl⟩ := List.mem_map.mp inside
  cases edit with
  | add kid role method =>
    change plan.leaves method = false
    rw [Bool.eq_false_iff]
    intro left
    have apart := (drafts.leaves left listed).1 kid role method rfl
    simp [Mentions, (drafts.proper _ listed).1] at apart
  | retire kid role drop =>
    cases drop with
    | false => exact fun _ _ => rfl
    | true =>
      intro entry left
      have apart := (drafts.leaves left listed).2 kid role true rfl
      simp only [Mentions, Bool.or_eq_false_iff] at apart
      simpa [bne] using apart.2

theorem Drafts.relationshipsOrder (drafts : Drafts anp entropy record spec manifest plan)
    (relationship : DidVerificationRelationship) : (plan.changes.document.entries relationship.name).filter plan.leaves =
      (record.document.entries relationship.name).filter plan.leaves := by
  rw [drafts.relationship]
  refine Script.filter_run (fun step inside => ?_)
  obtain ⟨edit, listed, rfl⟩ := List.mem_map.mp inside
  cases edit with
  | add kid role method =>
    rw [KeyEdit.onRelationship]
    split
    · change plan.leaves (.string kid) = false
      rw [Bool.eq_false_iff]
      intro left
      have apart := (drafts.leaves left listed).1 kid role method rfl
      rw [mentions_string.mpr rfl] at apart
      cases apart
    · exact fun _ _ => rfl
  | retire kid role drop =>
    rw [KeyEdit.onRelationship]
    split
    · intro entry left
      have apart := (drafts.leaves left listed).2 kid role drop rfl
      simp only [Mentions, Bool.or_eq_false_iff] at apart
      simpa [bne] using apart.1
    · exact fun _ _ => rfl

private theorem Drafts.agrees (drafts : Drafts anp entropy record spec manifest plan)
    (clean : CleanRequest record.document (spec.edits record.did anp entropy (manifestDevices manifest))) :
    CandidateAgrees anp record spec plan := by
  have gone : ∀ kid relationship, (∃ role, AddsKid (spec.edits record.did anp entropy (manifestDevices manifest)) kid role) ∨
      (∃ role, RetiresKid (spec.edits record.did anp entropy (manifestDevices manifest)) kid role) →
      (∀ role, AddsKid (spec.edits record.did anp entropy (manifestDevices manifest)) kid role → relationship ∉ relationships role) →
      relationshipContains plan.changes.document relationship.name kid = false := by
    intro kid relationship touched elsewhere
    rw [drafts.contains]
    exact (mentions_gone elsewhere).mpr (clean.mentions kid relationship touched elsewhere)
  refine ⟨fun kid role inside => ⟨?_, fun relationship => ⟨fun contained => ?_, fun here => ?_⟩⟩, fun kid inside none relationship => ?_,
    ?_, drafts.methodsOrder, drafts.relationshipsOrder⟩
  · rw [drafts.methods]
    exact clean.count drafts.ordered (drafts.adds_iff.mp inside)
  · by_contra elsewhere
    have adds := drafts.adds_iff.mp inside
    rw [gone kid relationship (.inl ⟨role, adds⟩) (fun other also => clean.roles kid role other adds also ▸ elsewhere)] at contained
    cases contained
  · have adds := drafts.adds_iff.mp inside
    obtain ⟨before, last, method, after, split, none⟩ := last_add ⟨role, adds⟩
    have same : role = last := clean.roles kid role last adds ⟨method, by rw [split]; simp⟩
    subst same
    rw [drafts.contains, split]
    exact mentions_added here (clean.stays split none)
  · exact gone kid relationship (.inr (drafts.retires_iff.mp inside))
      (fun role adds => absurd (drafts.adds_iff.mpr adds) (none role))
  · rw [drafts.storedManifest]
    exact drafts.devices

theorem candidate_agrees_iff (proofs : anp.AddsProof) (planned : planUpdate anp entropy s record spec = .ok plan) :
    CandidateAgrees anp record spec plan ↔ CleanRequest record.document
      (spec.edits record.did anp entropy (manifestDevices (storedManifest anp record.document))) := by
  obtain ⟨manifest, drafts⟩ := planUpdate_drafts proofs planned
  rw [drafts.storedManifest]
  exact ⟨drafts.clean, drafts.agrees⟩

end

namespace Plain

theorem addsProof : anp.AddsProof where
  proves document _ kid _ prepared _ signed prepares completes name other := by
    change prepareProof document kid = .ok prepared at prepares
    cases completes
    cases document with
    | object fields =>
      cases prepares
      exact Object.get_insert_of_ne other ..
    | _ => cases prepares

/-- A document whose `authentication` holds the method of the key itself. -/
def embeddedDocument : Value :=
  let key := method "did:web:a.b#k" (.ed25519 [1, 1])
  .object (Object.of [("id", .string "did:web:a.b"), ("verificationMethod", .array [key]), ("authentication", .array [key])])

/-- The Web identity adopts the document with the embedded method. -/
def embedded : List Event :=
  creation ++ [.identity 0 (.adoptVerifiedDocument ⟨embeddedDocument, evidence 2 embeddedDocument⟩) (entropy "1" 1) none]

end Plain

/-- A rotation leaves the old key in `authentication` where the document embeds its method there. -/
theorem embedded_key_outlives_rotation :
    let w := World.initial.run Plain.anp Plain.embedded
    ∃ record plan, w.store.readIdentity Plain.anp "i0" = .ok record ∧
      planUpdate Plain.anp (Plain.entropy "2" 5) w.store record Plain.rotation = .ok plan ∧
      ¬ CandidateAgrees Plain.anp record Plain.rotation plan := by
  intro w
  have run : (w.store.readIdentity Plain.anp "i0").toOption.any (fun record =>
      (planUpdate Plain.anp (Plain.entropy "2" 5) w.store record Plain.rotation).toOption.any (fun plan =>
        plan.retired.contains "did:web:a.b#k" && !(plan.added.map (·.1)).contains "did:web:a.b#k" &&
        relationshipContains plan.changes.document "authentication" "did:web:a.b#k")) = true := by
    decide +kernel
  obtain ⟨record, read, found⟩ := of_any run
  obtain ⟨plan, planned, facts⟩ := of_any found
  simp only [Bool.and_eq_true, Bool.not_eq_true', List.contains_iff_mem] at facts
  obtain ⟨⟨retired, absent⟩, listed⟩ := facts
  refine ⟨record, plan, read, planned, fun agrees => ?_⟩
  have gone := agrees.retired _ retired (fun role inside => ?_) .authentication
  · rw [DidVerificationRelationship.name, listed] at gone
    cases gone
  · have there : "did:web:a.b#k" ∈ plan.added.map (·.1) := List.mem_map_of_mem inside
    rw [← List.contains_iff_mem, absent] at there
    cases there

/-- A rotation is clean where the old key is only a string of `authentication` and no method has the new kid. -/
private theorem clean_rotation {document : Value} {old new : String} {method : Value}
    (unused : ∀ method ∈ document.entries methodsName, method.getStr "id" ≠ some new)
    (listed : document.entries "authentication" = [.string old]) (assertion : document.entries "assertionMethod" = [])
    (agreement : document.entries "keyAgreement" = []) :
    CleanRequest document [.retire old .requestSigning false, .add new .requestSigning method] where
  roles kid role other adds also := by
    obtain ⟨_, one⟩ := adds
    obtain ⟨_, two⟩ := also
    simp_all
  last before kid role drop after split adds := by
    obtain ⟨other, _, inside⟩ := adds
    cases before with
    | nil => cases inside
    | cons edit rest =>
      have later : .retire kid role drop ∈ [KeyEdit.add new .requestSigning method] := by
        rw [(List.cons.inj split).2]
        simp
      simp at later
  unused kid role adds := by
    obtain ⟨_, inside⟩ := adds
    simp only [List.mem_cons, reduceCtorEq, KeyEdit.add.injEq, List.not_mem_nil, or_false, false_or] at inside
    rw [inside.1]
    exact .inr unused
  mentions kid relationship touched elsewhere entry there mentions := by
    cases relationship with
    | authentication =>
      rw [DidVerificationRelationship.name, listed, List.mem_singleton] at there
      subst there
      obtain rfl := mentions_string.mp mentions
      exact ⟨rfl, .requestSigning, ⟨false, by simp⟩, by decide⟩
    | assertionMethod =>
      rw [DidVerificationRelationship.name, assertion] at there
      cases there
    | keyAgreement =>
      rw [DidVerificationRelationship.name, agreement] at there
      cases there

theorem candidate_agrees_rotated :
    let w := World.initial.run Plain.anp Plain.creation
    ∃ record plan, w.store.readIdentity Plain.anp "i0" = .ok record ∧
      planUpdate Plain.anp (Plain.entropy "2" 5) w.store record Plain.rotation = .ok plan ∧
      CandidateAgrees Plain.anp record Plain.rotation plan := by
  intro w
  have run : (w.store.readIdentity Plain.anp "i0").toOption.any (fun record =>
      (planUpdate Plain.anp (Plain.entropy "2" 5) w.store record Plain.rotation).toOption.any (fun _ => true) &&
      record.did == "did:web:a.b" &&
      (record.document.entries methodsName).all (fun method => method.getStr "id" != some "did:web:a.b#n") &&
      record.document.entries "authentication" == [.string "did:web:a.b#k"] &&
      record.document.entries "assertionMethod" == [] && record.document.entries "keyAgreement" == []) = true := by
    decide +kernel
  obtain ⟨record, read, facts⟩ := of_any run
  simp only [Bool.and_eq_true, beq_iff_eq, List.all_eq_true, bne_iff_ne] at facts
  obtain ⟨⟨⟨⟨⟨plans, did⟩, unused⟩, listed⟩, assertion⟩, agreement⟩ := facts
  obtain ⟨plan, planned, -⟩ := of_any plans
  refine ⟨record, plan, read, planned, (candidate_agrees_iff Plain.addsProof planned).mpr ?_⟩
  have old : canonicalKid "did:web:a.b" "k" = "did:web:a.b#k" := by decide +kernel
  have new : canonicalKid "did:web:a.b" "n" = "did:web:a.b#n" := by decide +kernel
  simp only [DocumentUpdateSpec.edits, Plain.rotation, Option.map_some, Option.getD_some, RequestSigningRotation.edits,
    DocumentUpdateSpec.laterEdits, deviceEdits, List.flatMap_nil, List.append_nil, did, old, new]
  exact clean_rotation unused listed assertion agreement

end AnpIdentity
