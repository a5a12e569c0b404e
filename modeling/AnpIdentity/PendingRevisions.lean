import AnpIdentity.Handles

/-! Pending revisions. `prepare_update` plans a revision from the record; until the revision is committed or discarded
only its publication state and its generation change. -/

namespace AnpIdentity
open Durable Program
variable {anp : Anp} {R : String → PendingRevisionRecord → Prop} {record seen : IdentityRecord}

/-- A property that planned revisions have and that their publication leaves them. -/
structure Inheres (anp : Anp) (R : String → PendingRevisionRecord → Prop) : Prop where
  planned : ∀ {entropy s seen spec plan digest}, planUpdate anp entropy s seen spec = .ok plan →
    R seen.identityId (plan.pending entropy seen digest)
  moved : ∀ {id pending state generation}, R id pending → R id { pending with state, generation }

/-- The pending revision of the record has the property. -/
def IdentityRecord.Pending (R : String → PendingRevisionRecord → Prop) (record : IdentityRecord) : Prop :=
  ∀ pending, record.pendingRevision = some pending → R record.identityId pending

theorem IdentityRecord.Pending.kept {other : IdentityRecord} (holds : other.Pending R)
    (id : record.identityId = other.identityId) (pending : record.pendingRevision = other.pendingRevision) :
    record.Pending R := by
  unfold IdentityRecord.Pending
  rw [id, pending]
  exact holds

theorem IdentityRecord.Pending.of_clear (clear : record.pendingRevision = none) : record.Pending R := by
  intro pending found
  rw [clear] at found
  cases found

variable {file : IdentityRecord}

theorem IdentityRecord.Pending.completed (holds : file.Pending R) (completed : completeRecord anp file = .ok seen) :
    seen.Pending R := by
  have mirrors := Shown.mirrors (.inr completed : Shown anp file seen)
  exact holds.kept mirrors.identityId mirrors.pendingRevision

private theorem Justified.pending {s : Store} {self : DidIdentity} {entropy : Entropy} {action : IdentityAction}
    (justified : Justified anp s self entropy action) (inheres : Inheres anp R)
    (stores : action.Stores anp entropy record) (holds : action.seen.Pending R) : record.Pending R := by
  intro pending found
  rw [(justified.keeping stores).identityId]
  cases justified.rekeys stores with
  | planned _ planned _ _ is =>
    cases is.symm.trans found
    exact inheres.planned planned
  | moved was _ _ is =>
    cases is.symm.trans found
    exact inheres.moved (holds _ was)
  | cleared _ clear | committed _ _ _ clear => cases clear.symm.trans found
  | kept _ same | imported _ same => exact holds pending (same.symm.trans found)

theorem Rewrite.pending {w : World} {event : Event} {s : Store} (rewrites : Rewrite anp w event s file record)
    (inheres : Inheres anp R) (holds : file.Pending R) : record.Pending R := by
  cases rewrites with
  | activate shown =>
    rcases shown with rfl | completed
    · exact holds.kept rfl rfl
    · exact (holds.completed completed).kept rfl rfl
  | act began completed stores =>
    obtain ⟨-, -, started⟩ := began
    exact (started.started.2.pending inheres stores (holds.completed completed)).kept rfl rfl
  | clear => exact .of_clear rfl

/-- In every run the pending revisions of all files have the property. -/
theorem Inheres.run (inheres : Inheres anp R) {condition : World → Event → Prop} {events : List Event}
    (meets : World.initial.Meets anp condition events) {id : String}
    (found : (World.initial.run anp events).store.identities id = some file) : file.Pending R := by
  refine World.file_invariant (P := IdentityRecord.Pending R) ?_
    (fun _ _ _ _ _ _ holds rewrites => rewrites.pending inheres holds) meets found
  intro w event entropy self call action made _ brought makes
  obtain ⟨-, -, started⟩ := brought
  exact .of_clear (started.isNew makes).pendingRevision

end AnpIdentity
