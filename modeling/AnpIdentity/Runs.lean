import AnpIdentity.Protocol

/-! Runs, write by write. Every write of a run is a step of recovery or a step of the action that a call
started, so what these steps preserve holds at every point of every run. -/

namespace AnpIdentity
open Durable Program
variable (anp : Anp)

/-- The writes that a call makes before it returns or a durable step fails. -/
def performed {α : Type} (p : Tx α) (fault : Option Nat) (s : Store) : List Write :=
  match fault with
  | some n => (p.writes s).take n
  | none => p.writes s

section
variable {α : Type} {p : Tx α} {fault : Option Nat} {s : Store}

theorem perform_store : (perform p fault s).1 = applyAll s (performed p fault s) := by
  cases fault <;> rfl

theorem perform_returned {a : α} (returned : (perform p fault s).2 = some a) : fault = none ∧ p.result s = .ok a := by
  cases fault with
  | some n => cases returned
  | none =>
    refine ⟨rfl, ?_⟩
    cases h : p.result s with
    | error e => simp [perform, h, Except.toOption] at returned
    | ok b =>
      simp only [perform, h, Except.toOption, Option.some.injEq] at returned
      rw [returned]

theorem performed_nil (nothing : p.writes s = []) : performed p fault s = [] := by
  cases fault with
  | some n => simp [performed, nothing]
  | none => exact nothing

theorem performed_congr {β : Type} {q : Tx β} (same : p.writes s = q.writes s) : performed p fault s = performed q fault s := by
  cases fault <;> simp [performed, same]

theorem performed_traced {permitted : Store → Write → Prop} {Q : α → Store → Prop} (follows : Follows permitted p Q s) :
    Traced permitted s (performed p fault s) := by
  cases fault with
  | some n => exact follows.traced.take n
  | none => exact follows.traced

end

def Event.writes (w : World) : Event → List Write
  | .openStore fault => performed (DidStore.fromRuntime anp) fault w.store
  | .store handle call entropy fault =>
    match w.stores[handle]? with
    | none => []
    | some self => performed (call.run anp self entropy) fault w.store
  | .identity handle call entropy fault =>
    match w.identities[handle]? with
    | none => []
    | some self => performed (call.run anp self entropy) fault w.store
  | .identityTransitions _ => []

/-- The events that recover the store. -/
def Event.Recovers : Event → Prop
  | .openStore _ | .store _ .reload _ _ | .identity _ .reload _ _ => True
  | _ => False

/-- The writes that an event may make. -/
inductive Event.Permits (w : World) (event : Event) (s : Store) (write : Write) : Prop
  | recovery (recovers : event.Recovers) (step : RecoveryStep anp s write)
  | store {handle : Nat} {call : StoreCall} {entropy : Entropy} {fault : Option Nat} {self : DidStore} {action : StoreAction}
      (is : event = .store handle call entropy fault) (held : w.stores[handle]? = some self)
      (started : call.Starts anp w.store self entropy action) (step : StoreStep anp entropy w.store action s write)
  | identity {handle : Nat} {call : IdentityCall} {entropy : Entropy} {fault : Option Nat} {self : DidIdentity}
      {action : IdentityAction} (is : event = .identity handle call entropy fault)
      (held : w.identities[handle]? = some self) (started : call.Starts anp w.store self entropy action)
      (step : IdentityStep anp entropy w.store action s write)

/-- The event is a call on an identity that starts this action. -/
inductive Event.Begins (w : World) (event : Event) (entropy : Entropy) (self : DidIdentity) (call : IdentityCall)
    (action : IdentityAction) : Prop
  | call {handle : Nat} {fault : Option Nat} (is : event = .identity handle call entropy fault)
      (held : w.identities[handle]? = some self) (started : call.Starts anp w.store self entropy action)

/-- The event is a call on a store that starts this action. -/
inductive Event.Brings (w : World) (event : Event) (entropy : Entropy) (self : DidStore) (call : StoreCall)
    (action : StoreAction) : Prop
  | call {handle : Nat} {fault : Option Nat} (is : event = .store handle call entropy fault)
      (held : w.stores[handle]? = some self) (started : call.Starts anp w.store self entropy action)

/-- A handle as an event leaves it: it shows the record that a call stored, or what reading the file gives. -/
inductive Presents (w : World) (event : Event) (handle : DidIdentity) (s : Store) : Prop
  | acted {entropy : Entropy} {self : DidIdentity} {call : IdentityCall} {action : IdentityAction} {record : IdentityRecord}
      (began : event.Begins anp w entropy self call action) (stores : action.Stores anp entropy record)
      (is : handle.record = record.raised) (shows : Shows handle s)
  | brought {entropy : Entropy} {self : DidStore} {call : StoreCall} {action : StoreAction}
      (brought : event.Brings anp w entropy self call action) (returns : action.Returns anp entropy handle.record)
      (shows : Shows handle s) (named : s.registry.Names action.did handle.identityId)
  | opened (opens : Opens anp s handle)

/-- What a call on an identity returns. -/
inductive Answers (start : Store) (entropy : Entropy) (self : DidIdentity) (call : IdentityCall) (returned : DidIdentity)
    (s : Store) : Prop
  | unchanged (same : returned = self)
  | acted {action : IdentityAction} {record : IdentityRecord} (started : call.Starts anp start self entropy action)
      (stores : action.Stores anp entropy record) (is : returned.record = record.raised) (shows : Shows returned s)
  | opened (opens : Opens anp s returned)

/-- A handle that a call on a store opens. -/
inductive Handed (start : Store) (entropy : Entropy) (self : DidStore) (call : StoreCall) (opened : DidIdentity)
    (s : Store) : Prop
  | brought {action : StoreAction} (started : call.Starts anp start self entropy action)
      (returns : action.Returns anp entropy opened.record) (shows : Shows opened s)
      (named : s.registry.Names action.did opened.identityId)
  | opened (opens : Opens anp s opened)

section
variable {anp} {entropy : Entropy} {s : Store}

theorem fromRuntime_follows :
    Follows (RecoveryStep anp) (DidStore.fromRuntime anp) (fun self t => self.registryGeneration = t.registry.generation) s :=
  .bind (recover_follows.mono (fun _ _ same => .pure (by rw [same])))

variable {self : DidIdentity}

private theorem reload_follows :
    Follows (RecoveryStep anp) (self.reload anp) (fun returned t => Opens anp t returned) s := by
  refine .bind (recover_follows.mono (fun registry t same => ?_))
  subst same
  refine .bind (.lift (fun summary found => ?_))
  obtain ⟨registered, named⟩ := Option.filter_eq_some_iff.mp (okOr_ok.mp found)
  refine .bind (.silent ((readIdentity_issues anp _).writes_nil t) (fun record read => .bind (.lift (fun _ checked => ?_))))
  have same : record.identityId = self.identityId := readIdentity_named read
  obtain ⟨did, created⟩ := checkOpened_ok checked
  refine .pure ⟨created, ⟨summary, ?_, ?_⟩, ?_⟩
  · exact (congrArg t.registry.identities did).trans registered
  · exact (beq_iff_eq.mp named).trans same.symm
  · change t.readIdentity anp record.identityId = .ok record
    rw [same]
    exact read

/-- A call on an identity makes the writes of an action that it started. -/
theorem IdentityCall.follows_action {call : IdentityCall} (calls : call ≠ .reload) :
    Follows (fun t v => ∃ action, call.Starts anp s self entropy action ∧ IdentityStep anp entropy s action t v)
      (call.run anp self entropy) (Answers anp s entropy self call) s := by
  have acts : Acts anp (call.Starts anp s self entropy) (call.Rests anp s self) entropy self (call.run anp self entropy) s :=
    identityCall_acts call calls
  cases acts with
  | refused e run =>
    refine .silent (by rw [Program.writes, run]) (fun a returned => ?_)
    rw [Program.result, run] at returned
    cases returned
  | idle _ run =>
    refine .silent (by rw [Program.writes, run]) (fun a returned => ?_)
    rw [Program.result, run] at returned
    cases returned
    exact .unchanged rfl
  | acts action started run =>
    refine .of_run run ((IdentityAction.follows action).weaken (fun _ _ step => ⟨action, started, step⟩)
      (fun _ _ shown => ?_))
    obtain ⟨shows, record, stores, is⟩ := shown
    exact .acted started stores is shows

theorem IdentityCall.follows (call : IdentityCall) :
    Follows (fun t v => call = .reload ∧ RecoveryStep anp t v ∨ ∃ action, call.Starts anp s self entropy action ∧
        IdentityStep anp entropy s action t v)
      (call.run anp self entropy) (Answers anp s entropy self call) s := by
  by_cases reload : call = .reload
  · subst reload
    exact reload_follows.weaken (fun _ _ step => .inl ⟨rfl, step⟩) (fun _ _ opens => .opened opens)
  · exact (follows_action reload).weaken (fun _ _ step => .inr step) (fun _ _ answers => answers)

/-- A call on a store makes the writes of an action that it started. -/
theorem StoreCall.follows_action {self : DidStore} {call : StoreCall} (calls : call ≠ .reload) :
    Follows (fun t v => ∃ action, call.Starts anp s self entropy action ∧ StoreStep anp entropy s action t v)
      (call.run anp self entropy) (fun returned t => ∀ opened ∈ returned.2, Handed anp s entropy self call opened t) s := by
  have acts : StoreActs anp (call.Starts anp s self entropy) entropy (call.run anp self entropy) s := storeCall_acts call calls
  cases acts with
  | silent nothing opens =>
    refine .silent nothing (fun returned result opened found => .opened (opens returned.1 opened ?_))
    rw [result, ← Option.mem_def.mp found]
  | acts action started run =>
    exact .of_run run ((StoreAction.follows action).weaken (fun _ _ step => ⟨action, started, step⟩)
      (fun _ _ shown opened found => .brought started (shown.2 opened found).2.1 (shown.2 opened found).1 (shown.2 opened found).2.2))

theorem StoreCall.follows {self : DidStore} (call : StoreCall) :
    Follows (fun t v => call = .reload ∧ RecoveryStep anp t v ∨ ∃ action, call.Starts anp s self entropy action ∧
        StoreStep anp entropy s action t v)
      (call.run anp self entropy) (fun returned t => ∀ opened ∈ returned.2, Handed anp s entropy self call opened t) s := by
  by_cases reload : call = .reload
  · subst reload
    refine .bind (fromRuntime_follows.weaken (fun _ _ step => .inl ⟨rfl, step⟩) (fun _ _ _ => .pure ?_))
    intro opened none
    cases none
  · exact (follows_action reload).weaken (fun _ _ step => .inr step) (fun _ _ handed => handed)

end

section
variable {anp} {w : World}

variable {handle : Nat} {call : IdentityCall} {entropy : Entropy} {fault : Option Nat} {self : DidIdentity}

theorem Event.writes_store {call : StoreCall} {self : DidStore} (held : w.stores[handle]? = some self) :
    (Event.store handle call entropy fault).writes anp w = performed (call.run anp self entropy) fault w.store := by
  simp only [Event.writes, held]

theorem Event.writes_identity (held : w.identities[handle]? = some self) :
    (Event.identity handle call entropy fault).writes anp w = performed (call.run anp self entropy) fault w.store := by
  simp only [Event.writes, held]

/-- A call on an identity writes nothing or makes the writes of an action that it started. -/
theorem Event.writes_action (held : w.identities[handle]? = some self) (calls : call ≠ .reload) :
    (Event.identity handle call entropy fault).writes anp w = [] ∨ ∃ action, call.Starts anp w.store self entropy action ∧
      (Event.identity handle call entropy fault).writes anp w = performed (action.execute anp entropy) fault w.store := by
  have acts : Acts anp (call.Starts anp w.store self entropy) (call.Rests anp w.store self) entropy self
      (call.run anp self entropy) w.store := identityCall_acts call calls
  rw [writes_identity held]
  cases acts with
  | refused e run | idle _ run => exact .inl (performed_nil (by rw [Program.writes, run]))
  | acts action started run => exact .inr ⟨action, started, performed_congr (by rw [Program.writes, Program.writes, run])⟩

theorem Event.traced (event : Event) : Traced (event.Permits anp w) w.store (event.writes anp w) := by
  cases event with
  | openStore fault => exact performed_traced (fromRuntime_follows.weaken (fun _ _ step => .recovery trivial step) (fun _ _ same => same))
  | store handle call entropy fault =>
    cases held : w.stores[handle]? with
    | none => simp only [Event.writes, held]; trivial
    | some self =>
      rw [writes_store held]
      refine performed_traced (call.follows.weaken (fun t v step => ?_) (fun _ _ answers => answers))
      rcases step with ⟨rfl, step⟩ | ⟨action, started, step⟩
      · exact .recovery trivial step
      · exact .store rfl held started step
  | identity handle call entropy fault =>
    cases held : w.identities[handle]? with
    | none => simp only [Event.writes, held]; trivial
    | some self =>
      rw [writes_identity held]
      refine performed_traced (call.follows.weaken (fun t v step => ?_) (fun _ _ answers => answers))
      rcases step with ⟨rfl, step⟩ | ⟨action, started, step⟩
      · exact .recovery trivial step
      · exact .identity rfl held started step
  | identityTransitions journals => trivial

variable (anp w) in
/-- What an event makes of the world: the store that its writes leave, and handles that are those from before
or present that store. -/
structure World.Steps (event : Event) (after : World) : Prop where
  store : ∃ journals, after.store = { applyAll w.store (event.writes anp w) with identityTransitions := journals }
  identities : ∀ (i : Nat) self, after.identities[i]? = some self →
    w.identities[i]? = some self ∨ Presents anp w event self after.store
  issued : ∀ id, id ∈ after.issued → id ∈ event.ids ∨ id ∈ w.issued
  kept : ∀ id ∈ w.issued, id ∈ after.issued
  drawn : event.writes anp w ≠ [] → ∀ id ∈ event.ids, id ∈ after.issued

private theorem steps_self {event : Event} (nothing : event.writes anp w = []) : w.Steps anp event w where
  store := ⟨w.store.identityTransitions, by rw [nothing]; rfl⟩
  identities _ _ held := .inl held
  issued _ listed := .inr listed
  kept _ listed := listed
  drawn wrote := absurd nothing wrote

private theorem drawn_issued {id : String} :
    id ∈ entropy.ids ++ w.issued → id ∈ entropy.ids ∨ id ∈ w.issued := List.mem_append.mp

private theorem store_steps {call : StoreCall} {self : DidStore} (held : w.stores[handle]? = some self) :
    w.Steps anp (.store handle call entropy fault) (w.step anp (.store handle call entropy fault)) := by
  have writes : (Event.store handle call entropy fault).writes anp w = _ := Event.writes_store held
  have store : (perform (call.run anp self entropy) fault w.store).1 = applyAll w.store _ := perform_store
  rw [← writes] at store
  simp only [World.step, held]
  cases returned : (perform (call.run anp self entropy) fault w.store).2 with
  | none =>
    exact ⟨⟨_, store⟩, fun _ _ held => .inl held, fun _ => drawn_issued, fun _ listed => List.mem_append_right _ listed,
      fun _ _ listed => List.mem_append_left _ listed⟩
  | some pair =>
    obtain ⟨self, opened⟩ := pair
    refine ⟨⟨_, store⟩, fun i other found => ?_, fun _ => drawn_issued, fun _ listed => List.mem_append_right _ listed,
      fun _ _ listed => List.mem_append_left _ listed⟩
    obtain ⟨rfl, result⟩ := perform_returned returned
    by_cases old : i < w.identities.length
    · left
      rwa [List.getElem?_append_left old] at found
    · right
      rw [List.getElem?_append_right (by omega)] at found
      have opens : other ∈ opened := Option.mem_toList.mp (List.mem_of_getElem? found)
      cases (call.follows).returns _ result other opens with
      | brought started returns shows named => exact .brought (.call rfl held started) returns shows named
      | opened opens => exact .opened opens

private theorem identity_steps (held : w.identities[handle]? = some self) :
    w.Steps anp (.identity handle call entropy fault) (w.step anp (.identity handle call entropy fault)) := by
  have writes : (Event.identity handle call entropy fault).writes anp w = _ := Event.writes_identity held
  have store : (perform (call.run anp self entropy) fault w.store).1 = applyAll w.store _ := perform_store
  rw [← writes] at store
  simp only [World.step, held]
  cases returned : (perform (call.run anp self entropy) fault w.store).2 with
  | none =>
    exact ⟨⟨_, store⟩, fun _ _ held => .inl held, fun _ => drawn_issued, fun _ listed => List.mem_append_right _ listed,
      fun _ _ listed => List.mem_append_left _ listed⟩
  | some now =>
    refine ⟨⟨_, store⟩, fun i other found => ?_, fun _ => drawn_issued, fun _ listed => List.mem_append_right _ listed,
      fun _ _ listed => List.mem_append_left _ listed⟩
    obtain ⟨rfl, result⟩ := perform_returned returned
    by_cases same : i = handle
    · subst same
      obtain ⟨inside, -⟩ := List.getElem?_eq_some_iff.mp held
      rw [List.getElem?_set_self inside, Option.some.injEq] at found
      subst found
      cases (call.follows).returns _ result with
      | unchanged same => exact .inl (by rw [held, same])
      | acted started stores is shows => exact .inr (.acted (.call rfl held started) stores is shows)
      | opened opens => exact .inr (.opened opens)
    · left
      rwa [List.getElem?_set_ne (fun equal => same equal.symm)] at found

theorem World.steps (event : Event) : w.Steps anp event (w.step anp event) := by
  cases event with
  | openStore fault =>
    exact ⟨⟨_, perform_store⟩, fun _ _ held => .inl held, fun _ listed => .inr listed, fun _ listed => listed,
      fun _ _ listed => by cases listed⟩
  | store handle call entropy fault =>
    cases held : w.stores[handle]? with
    | none =>
      have same : w.step anp (.store handle call entropy fault) = w := by simp only [World.step, held]
      rw [same]
      exact steps_self (by simp only [Event.writes, held])
    | some self => exact store_steps held
  | identity handle call entropy fault =>
    cases held : w.identities[handle]? with
    | none =>
      have same : w.step anp (.identity handle call entropy fault) = w := by simp only [World.step, held]
      rw [same]
      exact steps_self (by simp only [Event.writes, held])
    | some self => exact identity_steps held
  | identityTransitions journals =>
    exact ⟨⟨journals, rfl⟩, fun _ _ held => .inl held, fun _ listed => .inr listed, fun _ listed => listed,
      fun _ _ listed => by cases listed⟩

end
end AnpIdentity
