import Mathlib.Data.List.TakeWhile
import AnpIdentity.Handles

/-! Replays of root transfers. An identity keeps the nonces of the transfers that it accepted, the newest 256 of them,
whatever their envelopes' time of expiry. -/

namespace AnpIdentity
open Durable Program

/-- How many transfers the record lists after the one with this nonce; none if it does not list that one. -/
def newerTransfers (record : IdentityRecord) (nonce : String) : Nat :=
  (record.rootTransferReplays.dropWhile (·.nonce ≠ nonce)).tail.length

/-- How many transfers the file of an identity lists after the one with this nonce. -/
def World.newerTransfers (w : World) (identityId nonce : String) : Nat :=
  (w.store.identities identityId).elim 0 (AnpIdentity.newerTransfers · nonce)

/-- The event adds a transfer to the list in the file of an identity. -/
def World.recordsTransfer (anp : Anp) (w : World) (identityId : String) (event : Event) : Bool :=
  match w.store.identities identityId, (w.step anp event).store.identities identityId with
  | some before, some after => after.rootTransferReplays != before.rootTransferReplays
  | _, _ => false

/-- How many transfers a run adds to the list in the file of an identity. -/
def World.transfersRecorded (anp : Anp) (identityId : String) : World → List Event → Nat
  | _, [] => 0
  | w, event :: rest =>
    (w.recordsTransfer anp identityId event).toNat + transfersRecorded anp identityId (w.step anp event) rest

/-- Transfers with the same digest have the same nonce: digests do not collide, and the nonce is part of what is hashed. -/
def Anp.DistinctTransfers (anp : Anp) : Prop :=
  ∀ call call' transfer transfer', IdentityCall.Imports anp call transfer → IdentityCall.Imports anp call' transfer' →
    transfer.digest = transfer'.digest → transfer.nonce = transfer'.nonce

/-- The envelope may still be imported at this time, as far as its time of expiry goes. -/
def WithinWindow (anp : Anp) (envelope : WrappedRootEnvelope) (now : Int) : Prop :=
  ∀ expires, anp.parseTimestamp envelope.context.expiresAt = .ok expires →
    now ≤ expires + clockSkewSeconds * nanosPerSecond

/-- The call returns without an error. -/
def Accepts (anp : Anp) (w : World) (handle : Nat) (envelope : WrappedRootEnvelope) (now : Int) (entropy : Entropy) : Prop :=
  ∃ self returned, w.identities[handle]? = some self ∧
    ((IdentityCall.importWrappedRoot envelope now).run anp self entropy).result w.store = .ok returned

/-- While its time has not passed, importing the envelope again changes no file, and no other envelope with its nonce
is accepted. -/
def RefusesReplay (anp : Anp) (w : World) (identityId : String) (envelope : WrappedRootEnvelope) : Prop :=
  ∀ handle self now entropy, w.identities[handle]? = some self → self.identityId = identityId → WithinWindow anp envelope now →
    (∀ fault, (w.step anp (.identity handle (.importWrappedRoot envelope now) entropy fault)).store.identities =
      w.store.identities) ∧
    ∀ other, other.nonce = envelope.nonce →
      digestSerialized anp (envelopeJson other) ≠ digestSerialized anp (envelopeJson envelope) →
      ¬ Accepts anp w handle other now entropy

section
variable {anp : Anp} {w : World} {event : Event} {s : Store} {v : Write} {file record seen : IdentityRecord}
  {entropy : Entropy} {self : DidIdentity} {action : IdentityAction} {call : IdentityCall} {transfer : RootTransfer}
  {nonce digest : String} {newer : Nat}

/-! ## The list of replays -/

/-- The transfer is listed, with at most `newer` transfers after it. -/
def Recorded (nonce digest : String) (newer : Nat) (record : IdentityRecord) : Prop :=
  ∃ older entry later, record.rootTransferReplays = older ++ entry :: later ∧ entry.nonce = nonce ∧
    entry.transferDigest = digest ∧ later.length ≤ newer

theorem pushReplay_eq {replays : List RootTransferReplayRecord} : pushReplay replays transfer =
    replays.drop (replays.length + 1 - maxReplayRecords) ++ [⟨transfer.nonce, transfer.digest, transfer.expiresAt⟩] := by
  have short : replays.length + 1 - maxReplayRecords ≤ replays.length := by
    unfold maxReplayRecords
    omega
  simp [pushReplay, List.drop_append_of_le_length short]

theorem Recorded.mono {more : Nat} (recorded : Recorded nonce digest newer record) (fewer : newer ≤ more) :
    Recorded nonce digest more record := by
  obtain ⟨older, entry, later, split, named, hashed, few⟩ := recorded
  exact ⟨older, entry, later, split, named, hashed, few.trans fewer⟩

private theorem Recorded.push {next : IdentityRecord} (recorded : Recorded nonce digest newer record)
    (pushed : next.rootTransferReplays = pushReplay record.rootTransferReplays transfer)
    (room : newer + 1 < maxReplayRecords) : Recorded nonce digest (newer + 1) next := by
  obtain ⟨older, entry, later, split, named, hashed, few⟩ := recorded
  rw [pushReplay_eq, split] at pushed
  generalize maxReplayRecords = bound at room pushed
  have kept : (older ++ entry :: later).length + 1 - bound ≤ older.length := by
    simp only [List.length_append, List.length_cons]
    omega
  rw [List.drop_append_of_le_length kept, List.append_assoc] at pushed
  refine ⟨_, entry, later ++ [⟨transfer.nonce, transfer.digest, transfer.expiresAt⟩], pushed, named, hashed, ?_⟩
  simp only [List.length_append, List.length_cons, List.length_nil]
  omega

theorem pushReplay_distinct {replays : List RootTransferReplayRecord} (distinct : (replays.map (·.nonce)).Nodup)
    (unknown : replays.find? (·.nonce == transfer.nonce) = none) : ((pushReplay replays transfer).map (·.nonce)).Nodup := by
  unfold pushReplay
  refine List.Nodup.sublist ((List.drop_sublist _ _).map _) ?_
  rw [List.map_append, List.nodup_append]
  refine ⟨distinct, by simp, ?_⟩
  intro a known b new same
  obtain ⟨replay, listed, rfl⟩ := List.mem_map.mp known
  have is : b = transfer.nonce := by simpa using new
  have other := List.find?_eq_none.mp unknown replay listed
  simp [same, is] at other

/-- The first record with the nonce of a recorded transfer is its own. -/
theorem Recorded.found (recorded : Recorded nonce digest newer record)
    (distinct : (record.rootTransferReplays.map (·.nonce)).Nodup) :
    ∃ replay, record.rootTransferReplays.find? (·.nonce == nonce) = some replay ∧ replay.transferDigest = digest := by
  obtain ⟨older, entry, later, split, rfl, rfl, -⟩ := recorded
  refine ⟨entry, ?_, rfl⟩
  rw [split] at distinct ⊢
  rw [List.map_append, List.map_cons, List.nodup_append] at distinct
  refine List.find?_eq_some_iff_append.mpr ⟨by simp, older, later, rfl, fun replay listed => ?_⟩
  have apart := distinct.2.2 replay.nonce (List.mem_map.mpr ⟨replay, listed, rfl⟩) entry.nonce List.mem_cons_self
  simpa using apart

theorem newerTransfers_unlisted (unlisted : nonce ∉ record.rootTransferReplays.map (·.nonce)) :
    newerTransfers record nonce = 0 := by
  have other : ∀ replay ∈ record.rootTransferReplays, decide (replay.nonce ≠ nonce) = true := by
    intro replay listed
    simpa using fun same => unlisted (List.mem_map.mpr ⟨replay, listed, same⟩)
  rw [newerTransfers, List.dropWhile_eq_nil_iff.mpr other]
  rfl

private theorem recorded_newer {replay : RootTransferReplayRecord} (listed : replay ∈ record.rootTransferReplays)
    (distinct : (record.rootTransferReplays.map (·.nonce)).Nodup) :
    Recorded replay.nonce replay.transferDigest (newerTransfers record replay.nonce) record := by
  obtain ⟨older, later, split⟩ := List.append_of_mem listed
  refine ⟨older, replay, later, split, rfl, rfl, ?_⟩
  rw [split, List.map_append, List.map_cons] at distinct
  have other : ∀ entry ∈ older, entry.nonce ≠ replay.nonce := by
    intro entry inside
    exact (List.nodup_append.mp distinct).2.2 _ (List.mem_map.mpr ⟨entry, inside, rfl⟩) _ List.mem_cons_self
  unfold newerTransfers
  rw [split, List.dropWhile_append_of_pos]
  · simp
  · intro entry inside
    simpa using other entry inside

/-! ## Files -/

/-- The record that a call stores lists the transfer that it has imported. -/
structure Lists (anp : Anp) (w : World) (event : Event) (file record : IdentityRecord) (transfer : RootTransfer) : Prop where
  began : ∃ entropy self call action, event.Begins anp w entropy self call action ∧
    completeRecord anp file = .ok action.seen ∧ call.Imports anp transfer
  unknown : file.rootTransferReplays.find? (·.nonce == transfer.nonce) = none
  pushed : record.rootTransferReplays = pushReplay file.rootTransferReplays transfer
  raised : record.generation = file.generation + 1

/-- What becomes of the transfers in a file that is replaced. -/
inductive Relists (anp : Anp) (w : World) (event : Event) (file record : IdentityRecord) : Prop
  | kept (same : record.rootTransferReplays = file.rootTransferReplays)
      (waits : record.pendingRootTransfer = file.pendingRootTransfer) (capability : record.rootCapability = file.rootCapability)
  | promoted (same : record.rootTransferReplays = file.rootTransferReplays) (settled : record.pendingRootTransfer = none)
  | active {transfer : RootTransfer} (lists : Lists anp w event file record transfer) (active : file.rootCapability = .active)
      (waits : record.pendingRootTransfer = file.pendingRootTransfer)
  | pending {transfer : RootTransfer} (lists : Lists anp w event file record transfer)
      (waits : ∃ pending, record.pendingRootTransfer = some pending ∧ pending.transferDigest = transfer.digest)
      (capability : record.rootCapability = .pending)

theorem Relists.replays (relists : Relists anp w event file record) :
    record.rootTransferReplays = file.rootTransferReplays ∨ ∃ transfer, Lists anp w event file record transfer := by
  cases relists with
  | kept same | promoted same => exact .inl same
  | active lists | pending lists => exact .inr ⟨_, lists⟩

theorem Rewrite.relists (rewrites : Rewrite anp w event s file record) : Relists anp w event file record := by
  cases rewrites with
  | activate shown creating =>
    rcases shown with rfl | completed
    · exact .kept rfl rfl rfl
    · obtain ⟨_, _, _, rfl⟩ := completeRecord_same completed
      exact .kept rfl rfl rfl
  | @act entropy self call action record began completed stores room =>
    obtain ⟨_, _, _, same⟩ := completeRecord_same completed
    have listed : action.seen.rootTransferReplays = file.rootTransferReplays := by rw [same]
    have waits : action.seen.pendingRootTransfer = file.pendingRootTransfer := by rw [same]
    have capability : action.seen.rootCapability = file.rootCapability := by rw [same]
    obtain ⟨is, held, started⟩ := began
    have pushes : ∀ {transfer}, call.Imports anp transfer →
        action.seen.rootTransferReplays.find? (·.nonce == transfer.nonce) = none →
        record.rootTransferReplays = pushReplay action.seen.rootTransferReplays transfer →
        Lists anp w event file record.raised transfer := by
      intro transfer imports unknown pushed
      rw [listed] at unknown pushed
      refine ⟨⟨entropy, self, call, action, .call is held started, completed, imports⟩, unknown, pushed, ?_⟩
      change record.generation + 1 = _
      rw [(started.started.2.keeping stores).generation, same]
    cases started.started.2 with
    | prepare =>
      obtain ⟨_, -, rfl⟩ := stores
      exact .kept listed waits capability
    | discard =>
      cases stores
      exact .kept listed waits capability
    | moved _ _ moves =>
      cases stores
      rw [moves.moved]
      exact .kept listed waits capability
    | committed _ commits =>
      cases stores
      obtain ⟨_, _, _, _, -, -, -, -, -, rfl⟩ := commits.committed
      exact .kept listed waits capability
    | adopted _ _ _ adopts =>
      cases stores
      obtain ⟨_, _, _, readjusts, -, rfl⟩ := adopts.adopted
      cases readjusts <;> exact .kept listed waits capability
    | promoted _ _ promotes =>
      cases stores
      obtain ⟨_, -, rfl⟩ := promotes.promoted
      exact .promoted listed rfl
    | replayed _ transfers =>
      cases stores
      cases started.edits with
      | replay imports =>
        cases transfers with
        | replayed unknown active =>
          exact .active (pushes imports unknown (by simp only [IdentityAction.seen])) (capability.symm.trans active) waits
    | imported _ transfers =>
      cases stores
      cases transfers with
      | imported unknown =>
        exact .pending (pushes started.imports unknown (by simp only [IdentityAction.seen])) ⟨_, rfl, rfl⟩ rfl
  | clear _ _ completed =>
    obtain ⟨_, _, _, rfl⟩ := completeRecord_same completed
    exact .kept rfl rfl rfl

/-- The nonces of a file differ, and the transfer that it waits for is among them. -/
structure Remembering (anp : Anp) (file : IdentityRecord) : Prop where
  distinct : (file.rootTransferReplays.map (·.nonce)).Nodup
  awaited : ∀ pending, file.pendingRootTransfer = some pending → file.rootCapability = .pending ∧
    ∃ replay ∈ file.rootTransferReplays, ∃ call transfer, IdentityCall.Imports anp call transfer ∧
      transfer.nonce = replay.nonce ∧ transfer.digest = pending.transferDigest

private theorem Rewrite.remembering (rewrites : Rewrite anp w event s file record) (remembering : Remembering anp file) :
    Remembering anp record := by
  have relists := rewrites.relists
  refine ⟨?_, fun pending waiting => ?_⟩
  · rcases relists.replays with same | ⟨transfer, lists⟩
    · rw [same]
      exact remembering.distinct
    · rw [lists.pushed]
      exact pushReplay_distinct remembering.distinct lists.unknown
  · cases relists with
    | kept same waits capability =>
      rw [same, capability]
      exact remembering.awaited pending (waits.symm.trans waiting)
    | promoted _ settled => cases settled.symm.trans waiting
    | active _ active waits =>
      have still := (remembering.awaited pending (waits.symm.trans waiting)).1
      rw [active] at still
      cases still
    | @pending transfer lists waits capability =>
      obtain ⟨_, found, digest⟩ := waits
      cases found.symm.trans waiting
      obtain ⟨_, _, call, _, -, -, imports⟩ := lists.began
      have last : ⟨transfer.nonce, transfer.digest, transfer.expiresAt⟩ ∈ record.rootTransferReplays := by
        rw [lists.pushed, pushReplay_eq]
        exact List.mem_append_right _ (List.mem_singleton_self _)
      exact ⟨capability, _, last, call, _, imports, rfl, digest.symm⟩

variable {condition : World → Event → Prop} {events : List Event} {id : String}

theorem remembering_run (meets : World.initial.Meets anp condition events)
    (found : (World.initial.run anp events).store.identities id = some file) : Remembering anp file := by
  refine World.file_invariant (P := Remembering anp) ?_ (fun _ _ _ _ _ _ now rewrites => rewrites.remembering now) meets found
  intro w event entropy self call action made _ brought makes
  obtain ⟨-, -, started⟩ := brought
  have new := started.isNew makes
  refine ⟨by simp [new.rootTransferReplays], fun pending waits => ?_⟩
  rw [new.pendingRootTransfer] at waits
  cases waits

/-! ## Runs -/

/-- The list of the file that the event found, or that list and one transfer more in a later file. -/
private def Shifts (w : World) (id : String) (file : IdentityRecord) : Prop :=
  ∃ old, w.store.identities id = some old ∧ (file.rootTransferReplays = old.rootTransferReplays ∨
    old.generation < file.generation ∧ ∃ transfer : RootTransfer,
      old.rootTransferReplays.find? (·.nonce == transfer.nonce) = none ∧
      file.rootTransferReplays = pushReplay old.rootTransferReplays transfer)

private theorem Rewrite.shifts (rewrites : Rewrite anp w event s file record) (now : Shifts w record.identityId file) :
    Shifts w record.identityId record := by
  obtain ⟨old, stored, now⟩ := now
  refine ⟨old, stored, ?_⟩
  rcases rewrites.relists.replays with equal | ⟨transfer, lists⟩
  · have raised := rewrites.identityId.2
    rw [equal]
    exact now.imp_right (fun later => ⟨by omega, later.2⟩)
  · obtain ⟨entropy, self, call, action, ⟨is, held, started⟩, completed, imports⟩ := lists.began
    obtain ⟨read, filed, -, reads⟩ := readIdentity_ok.mp started.started.1.read
    have shown : Shown anp read action.seen := .inr reads
    have here : Shown anp file action.seen := .inr completed
    have named : self.identityId = record.identityId := by
      rw [rewrites.identityId.1, ← here.mirrors.identityId]
      exact (readIdentity_named started.started.1.read).symm
    rw [named] at filed
    cases stored.symm.trans filed
    -- the call saw the file that the event found, so nothing has been listed yet
    have level : old.generation = file.generation := by rw [← shown.mirrors.generation, here.mirrors.generation]
    have raised := lists.raised
    rcases now with same | ⟨newer, -⟩
    · rw [← same]
      exact .inr ⟨by omega, transfer, lists.unknown, lists.pushed⟩
    · omega

private theorem shifts_step (known : id ∈ w.issued) (fresh : event.Fresh w)
    (found : (w.step anp event).store.identities id = some file) : Shifts w id file := by
  rw [World.identities_step] at found
  have moves : Traced (FileMove anp w event) w.store (event.writes anp w) := event.fileMoves
  refine moves.invariant (I := fun t => ∀ other file, t.identities other = some file → other = id → Shifts w other file)
    (fun t v now move => ?_) ?_ id file found rfl
  · refine move.files now ?_ (fun file record _ now rewrites same => rewrites.shifts (now same))
    intro entropy self call action made brought makes same
    exact absurd (same ▸ brought.drawn makes) (fun drawn => fresh.2 _ drawn known)
  · intro other file found _
    exact ⟨file, found, .inl rfl⟩

private theorem pushReplay_ne {replays : List RootTransferReplayRecord}
    (unknown : replays.find? (·.nonce == transfer.nonce) = none) : pushReplay replays transfer ≠ replays := by
  intro same
  have last : ⟨transfer.nonce, transfer.digest, transfer.expiresAt⟩ ∈ replays := by
    rw [← same, pushReplay_eq]
    exact List.mem_append_right _ (List.mem_singleton_self _)
  simpa using List.find?_eq_none.mp unknown _ last

/-- Every transfer that an event records pushes the others one place on, and an event records at most one. -/
private theorem recorded_step (known : id ∈ w.issued) (fresh : event.Fresh w)
    (room : newer + (w.recordsTransfer anp id event).toNat < maxReplayRecords)
    (before : ∀ file, w.store.identities id = some file → Recorded nonce digest newer file) :
    ∀ file, (w.step anp event).store.identities id = some file →
      Recorded nonce digest (newer + (w.recordsTransfer anp id event).toNat) file := by
  intro file found
  obtain ⟨old, stored, same | ⟨-, transfer, unknown, pushed⟩⟩ := shifts_step known fresh found
  · have kept : Recorded nonce digest newer file := by
      rw [Recorded, same]
      exact before old stored
    exact kept.mono (Nat.le_add_right _ _)
  · have records : w.recordsTransfer anp id event = true := by
      simp only [World.recordsTransfer, stored, found, pushed, bne_iff_ne]
      exact pushReplay_ne unknown
    rw [records, Bool.toNat_true] at room ⊢
    exact (before old stored).push pushed room

theorem recorded_run (known : id ∈ w.issued) (meets : w.Meets anp condition events)
    (few : newer + w.transfersRecorded anp id events < maxReplayRecords)
    (before : ∀ file, w.store.identities id = some file → Recorded nonce digest newer file) :
    ∀ file, (w.run anp events).store.identities id = some file →
      Recorded nonce digest (newer + w.transfersRecorded anp id events) file := by
  induction events generalizing w newer with
  | nil => exact before
  | cons event rest ih =>
    rw [World.transfersRecorded, ← Nat.add_assoc] at few ⊢
    have steps : w.Steps anp event (w.step anp event) := World.steps event
    exact ih (steps.kept _ known) meets.2.2 few
      (recorded_step known meets.1 (Nat.lt_of_le_of_lt (Nat.le_add_right _ _) few) before)

theorem World.transfersRecorded_le : w.transfersRecorded anp id events ≤ events.length := by
  induction events generalizing w with
  | nil => exact Nat.le_refl 0
  | cons event rest ih =>
    have one := Bool.toNat_le (w.recordsTransfer anp id event)
    have more : (w.step anp event).transfersRecorded anp id rest ≤ rest.length := ih
    rw [World.transfersRecorded, List.length_cons]
    omega

/-! ## Imports -/

variable {envelope : WrappedRootEnvelope} {now : Int} {handle : Nat}

/-- A transfer that changes the record was not listed before, and is listed then. -/
private theorem ImportsTransfer.lists (imports : ImportsTransfer anp s self entropy transfer action) :
    Current anp s self action.seen ∧ action.seen.rootTransferReplays.find? (·.nonce == transfer.nonce) = none ∧
      ∀ record, action.Stores anp entropy record → record.identityId = action.seen.identityId ∧
        record.rootTransferReplays = pushReplay action.seen.rootTransferReplays transfer := by
  obtain ⟨seen, current, ⟨next, decided, rfl⟩ | ⟨ref, next, decided, rfl⟩⟩ := imports
  · cases decideRootImport_transfers decided with
    | replayed unknown =>
      refine ⟨current, unknown, fun record stores => ?_⟩
      cases stores
      simp only [IdentityAction.seen, and_self]
  · cases decideRootImport_transfers decided with
    | imported unknown =>
      refine ⟨current, unknown, fun record stores => ?_⟩
      cases stores
      simp only [IdentityAction.seen, and_self]

/-- A file that lists the nonce of an envelope is left alone by its import, and the digest has to be the one listed. -/
private theorem recorded_import (held : w.identities[handle]? = some self) (agreed : w.Agreed anp)
    (remembering : ∀ file, w.store.identities self.identityId = some file → Remembering anp file)
    (recorded : ∀ file, w.store.identities self.identityId = some file → Recorded envelope.nonce digest newer file) :
    (∀ fault, (Event.identity handle (.importWrappedRoot envelope now) entropy fault).writes anp w = []) ∧
      (Accepts anp w handle envelope now entropy → digestSerialized anp (envelopeJson envelope) = .ok digest) := by
  have found : ∀ seen, Current anp w.store self seen →
      ∃ replay, seen.rootTransferReplays.find? (·.nonce == envelope.nonce) = some replay ∧ replay.transferDigest = digest := by
    intro seen current
    obtain ⟨file, filed, -, completed⟩ := current.agrees (agreed _ _ held).2
    obtain ⟨_, _, _, rfl⟩ := completeRecord_same completed
    exact (recorded file filed).found (remembering file filed).distinct
  have refused : ∀ action, ¬ IdentityCall.Starts anp w.store self entropy (.importWrappedRoot envelope now) action := by
    rintro action ⟨raw, digest, -, -, -, imports⟩
    obtain ⟨current, unknown, -⟩ := imports.lists
    obtain ⟨replay, known, -⟩ := found _ current
    cases unknown.symm.trans known
  have calls : IdentityCall.importWrappedRoot envelope now ≠ .reload := by simp
  refine ⟨fun fault => ?_, ?_⟩
  · have writes : (Event.identity handle (.importWrappedRoot envelope now) entropy fault).writes anp w = [] ∨ _ :=
      Event.writes_action held calls
    rcases writes with nothing | ⟨action, started, -⟩
    · exact nothing
    · exact absurd started (refused action)
  · rintro ⟨other, returned, same, accepted⟩
    cases held.symm.trans same
    have acts : Acts anp (IdentityCall.Starts anp w.store self entropy (.importWrappedRoot envelope now))
        (IdentityCall.Rests anp w.store self (.importWrappedRoot envelope now)) entropy self
        ((IdentityCall.importWrappedRoot envelope now).run anp self entropy) w.store := identityCall_acts _ calls
    cases acts with
    | refused e run =>
      rw [Program.result, run] at accepted
      cases accepted
    | idle rests run =>
      obtain ⟨raw, hash, hashed, seen, entropy, outcome, current, decided⟩ := rests
      obtain ⟨replay, known, listed⟩ := found seen current
      cases decideRootImport_transfers decided with
      | known again same =>
        cases known.symm.trans again
        rw [hashed, ← listed, same]
        rfl
      | waiting unknown => cases unknown.symm.trans known
    | acts action started run => exact absurd started (refused action)

/-- The file of an identity that has accepted an envelope lists it. -/
theorem accepted_recorded (distinct : anp.DistinctTransfers) (held : w.identities[handle]? = some self)
    (agreed : w.Agreed anp) (remembering : ∀ file, w.store.identities self.identityId = some file → Remembering anp file)
    (accepted : Accepts anp w handle envelope now entropy) :
    ∃ digest, digestSerialized anp (envelopeJson envelope) = .ok digest ∧
      ∀ file, (w.step anp (.identity handle (.importWrappedRoot envelope now) entropy none)).store.identities
        self.identityId = some file → Recorded envelope.nonce digest (w.newerTransfers self.identityId envelope.nonce) file := by
  obtain ⟨other, returned, same, accepted⟩ := accepted
  cases held.symm.trans same
  have calls : IdentityCall.importWrappedRoot envelope now ≠ .reload := by simp
  have acts : Acts anp (IdentityCall.Starts anp w.store self entropy (.importWrappedRoot envelope now))
      (IdentityCall.Rests anp w.store self (.importWrappedRoot envelope now)) entropy self
      ((IdentityCall.importWrappedRoot envelope now).run anp self entropy) w.store := identityCall_acts _ calls
  have writes : (Event.identity handle (.importWrappedRoot envelope now) entropy none).writes anp w = _ :=
    Event.writes_identity held
  rw [World.identities_step, writes, performed, Program.writes]
  cases acts with
  | refused e run =>
    rw [Program.result, run] at accepted
    cases accepted
  | idle rests run =>
    obtain ⟨raw, digest, hashed, seen, entropy', outcome, current, decided⟩ := rests
    refine ⟨digest, hashed, fun file found => ?_⟩
    rw [run] at found
    obtain ⟨file', filed, -, completed⟩ := current.agrees (agreed _ _ held).2
    cases filed.symm.trans found
    obtain ⟨_, _, _, rfl⟩ := completeRecord_same completed
    cases decideRootImport_transfers decided with
    | @known replay _ listed same =>
      have named : replay.nonce = envelope.nonce := by simpa [WrappedRootEnvelope.transfer] using List.find?_some listed
      have recorded := recorded_newer (List.mem_of_find?_eq_some listed) (remembering file filed).distinct
      rw [named, same] at recorded
      rw [World.newerTransfers, filed]
      exact recorded
    | @waiting pending unknown waits same =>
      -- the transfer that is waited for is listed, and it is this one
      obtain ⟨-, replay, listed, call, transfer, imports, named, hash⟩ := (remembering file filed).awaited pending waits
      have nonce : transfer.nonce = (envelope.transfer raw digest).nonce :=
        distinct call (.importWrappedRoot envelope now) _ _ imports (.wrapped hashed) (hash.trans same)
      have other := List.find?_eq_none.mp unknown replay listed
      rw [← named, nonce] at other
      simp at other
  | acts action started run =>
    obtain ⟨raw, digest, hashed, -, -, imports⟩ := started
    refine ⟨digest, hashed, fun file found => ?_⟩
    obtain ⟨current, -, lists⟩ := imports.lists
    rw [Program.result, run] at accepted
    obtain ⟨shows, record, stores, is⟩ := (IdentityAction.follows action).returns returned accepted
    obtain ⟨named, pushed⟩ := lists record stores
    have own : returned.identityId = self.identityId := by
      change returned.record.identityId = _
      rw [is]
      exact named.trans (readIdentity_named current.read)
    rw [run, ← own] at found
    cases shows.symm.trans found
    rw [is]
    exact ⟨_, _, [], pushed.trans pushReplay_eq, rfl, rfl, Nat.zero_le _⟩

theorem recorded_refuses (agreed : w.Agreed anp)
    (remembering : ∀ file, w.store.identities id = some file → Remembering anp file)
    (hashed : digestSerialized anp (envelopeJson envelope) = .ok digest)
    (recorded : ∀ file, w.store.identities id = some file → Recorded envelope.nonce digest newer file) :
    RefusesReplay anp w id envelope := by
  intro handle self now entropy held named _
  subst named
  refine ⟨fun fault => ?_, fun other same differs accepted => ?_⟩
  · rw [World.identities_step, (recorded_import held agreed remembering recorded).1 fault]
    rfl
  · rw [← same] at recorded
    exact differs (((recorded_import held agreed remembering recorded).2 accepted).trans hashed.symm)

end
end AnpIdentity
