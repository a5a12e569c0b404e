import AnpIdentity.Provider

/-! Threads that consume tokens of one authority. A consume call reads the clock and checks its token before it takes
the mutex. While it waits, time passes and other calls go first; then it prunes the consumed tokens by the time that it
has read before. -/

namespace AnpIdentity

/-- A consume call that waits for the mutex, with the time that it has read. -/
structure Waiting where
  token : String
  claims : TokenClaims
  now : Int

/-- An authority that threads share, the calls that wait, and the tokens that were issued and accepted. -/
structure ProviderThreads where
  authority : ProviderAuthorization
  clock : Int
  waiting : List Waiting
  issued : List String
  accepted : List String

/-- `age` is the time since a call that acquires or issues has read the clock. -/
inductive ThreadEvent where
  | pass (seconds : Nat)
  | acquire (leaseId consumer : String) (capabilities : List String) (storeId : String) (ttlSeconds : Int) (age : Nat)
  | dispose (lease : ProviderCapabilityLease)
  | issue (lease : ProviderCapabilityLease) (binding : OneTimeOperationBinding) (ttlSeconds : Int) (age : Nat)
  | check (token : String) (expected : OneTimeOperationBinding)
  | enter (position : Nat)

namespace ProviderThreads

def new (providerInstanceId : String) (hmacKey : Key32) (clock : Int) : ProviderThreads where
  authority := .new providerInstanceId hmacKey
  clock := clock
  waiting := []
  issued := []
  accepted := []

variable (primitives : TokenPrimitives)

def step (t : ProviderThreads) : ThreadEvent → ProviderThreads
  | .pass seconds => { t with clock := t.clock + seconds }
  | .acquire leaseId consumer capabilities storeId ttlSeconds age =>
    match t.authority.acquireLeaseAt leaseId consumer capabilities storeId ttlSeconds (t.clock - age) with
    | .error _ => t
    | .ok (authority, _) => { t with authority }
  | .dispose lease =>
    match t.authority.disposeLease lease with
    | .error _ => t
    | .ok authority => { t with authority }
  | .issue lease binding ttlSeconds age =>
    match t.authority.issueOneTimeWithContextAt primitives lease binding ttlSeconds (t.clock - age) with
    | .error _ => t
    | .ok returned => { t with issued := t.issued ++ [returned.token] }
  | .check token expected =>
    match t.authority.checkToken primitives token expected t.clock with
    | .error _ => t
    | .ok claims => { t with waiting := t.waiting ++ [{ token, claims, now := t.clock }] }
  | .enter position =>
    match t.waiting[position]? with
    | none => t
    | some call =>
      let (authority, result) := t.authority.consumeLocked call.claims (primitives.sha256 call.token) call.now
      { t with
        authority
        waiting := t.waiting.eraseIdx position
        accepted := t.accepted ++ (result.toOption.map (fun _ => call.token)).toList }

def run (t : ProviderThreads) (events : List ThreadEvent) : ProviderThreads := events.foldl (step primitives) t

/-- A call takes the mutex before its token has expired. -/
def Timely (t : ProviderThreads) : ThreadEvent → Prop
  | .enter position => ∀ call ∈ t.waiting[position]?, t.clock < call.claims.expiresAt
  | _ => True

instance (t : ProviderThreads) : ∀ event, Decidable (t.Timely event)
  | .enter _ => inferInstanceAs (Decidable (∀ call ∈ _, _))
  | .pass _ | .acquire _ _ _ _ _ _ | .dispose _ | .issue _ _ _ _ | .check _ _ => isTrue trivial

def Meets : ProviderThreads → List ThreadEvent → Prop
  | _, [] => True
  | t, event :: rest => t.Timely event ∧ Meets (t.step primitives event) rest

instance decidableMeets : ∀ t events, Decidable (Meets primitives t events)
  | _, [] => isTrue trivial
  | t, event :: rest =>
    have := decidableMeets (t.step primitives event) rest
    inferInstanceAs (Decidable (_ ∧ _))

end ProviderThreads

section
variable {primitives : TokenPrimitives} {t : ProviderThreads} {event : ThreadEvent}

/-- The claims that a token carries. -/
def Carries (primitives : TokenPrimitives) (token : String) (claims : TokenClaims) : Prop :=
  ∃ payload tag, primitives.decodeToken token = some (payload, tag) ∧ primitives.parse payload = some claims

variable {token : String} {authority : ProviderAuthorization}

theorem Carries.unique {claims other : TokenClaims} (carries : Carries primitives token claims)
    (again : Carries primitives token other) : claims = other := by
  obtain ⟨payload, tag, decoded, parsed⟩ := carries
  obtain ⟨_, _, decoded', parsed'⟩ := again
  cases decoded.symm.trans decoded'
  exact Option.some.inj (parsed.symm.trans parsed')

/-- A token that was accepted is remembered until it expires. -/
def Remembers (primitives : TokenPrimitives) (authority : ProviderAuthorization) (clock : Int) (token : String) : Prop :=
  ∀ claims, Carries primitives token claims →
    authority.consumedTokens (primitives.sha256 token) = some claims.expiresAt ∨ claims.expiresAt ≤ clock

structure ProviderThreads.Sound (primitives : TokenPrimitives) (t : ProviderThreads) : Prop where
  waiting : ∀ call ∈ t.waiting, call.now ≤ t.clock ∧ Carries primitives call.token call.claims
  remembered : ∀ token ∈ t.accepted, Remembers primitives t.authority t.clock token
  once : t.accepted.Nodup

theorem Remembers.later {clock later : Int} (remembers : Remembers primitives authority clock token) (le : clock ≤ later) :
    Remembers primitives authority later token := by
  intro claims carries
  exact (remembers claims carries).imp_right (fun expired => expired.trans le)

/-- Pruning by a time that has passed forgets only tokens that have expired. -/
theorem Remembers.remember {clock now : Int} {call : TokenClaims} {other : String}
    (collisionFree : Function.Injective primitives.sha256) (past : now ≤ clock) (carries : Carries primitives other call)
    (remembers : Remembers primitives authority clock token) :
    Remembers primitives (authority.remember (primitives.sha256 other) call.expiresAt now) clock token := by
  intro claims carried
  by_cases same : token = other
  · subst same
    left
    rw [remember_self, carries.unique carried]
  · rw [remember_of_ne (fun equal => same (collisionFree equal))]
    rcases remembers claims carried with known | expired
    · by_cases passed : claims.expiresAt ≤ now
      · exact .inr (passed.trans past)
      · left
        rw [known, Option.filter_some, if_pos (by simpa using passed)]
    · exact .inr expired

private theorem enter_sound {position : Nat} (collisionFree : Function.Injective primitives.sha256)
    (sound : t.Sound primitives) (timely : t.Timely (.enter position)) :
    (t.step primitives (.enter position)).Sound primitives := by
  simp only [ProviderThreads.step]
  cases found : t.waiting[position]? with
  | none => exact sound
  | some call =>
    dsimp only
    obtain ⟨past, carries⟩ := sound.waiting call (List.mem_of_getElem? found)
    have unexpired : t.clock < call.claims.expiresAt := timely call found
    have waiting : ∀ call ∈ t.waiting.eraseIdx position, call.now ≤ t.clock ∧ Carries primitives call.token call.claims :=
      fun call listed => sound.waiting call (List.mem_of_mem_eraseIdx listed)
    have admits : Admits t.authority call.claims (primitives.sha256 call.token) call.now _ := consumeLocked_admits
    generalize t.authority.consumeLocked call.claims (primitives.sha256 call.token) call.now = outcome at admits ⊢
    have kept : ∀ token ∈ t.accepted, Remembers primitives
        (t.authority.remember (primitives.sha256 call.token) call.claims.expiresAt call.now) t.clock token :=
      fun token listed => (sound.remembered token listed).remember collisionFree past carries
    cases admits with
    | denied =>
      refine ⟨waiting, ?_, ?_⟩
      · simpa [Except.toOption] using sound.remembered
      · simpa [Except.toOption] using sound.once
    | consumed =>
      refine ⟨waiting, ?_, ?_⟩
      · simpa [Except.toOption] using kept
      · simpa [Except.toOption] using sound.once
    | accepted _ unknown =>
      refine ⟨waiting, fun token listed => ?_, ?_⟩
      · rcases List.mem_append.mp listed with before | now
        · exact kept token before
        · rw [List.mem_singleton.mp now]
          intro claims carried
          left
          rw [remember_self, carries.unique carried]
      · -- a token that was accepted before is still remembered, because it has not expired
        have new : call.token ∉ t.accepted := by
          intro listed
          rcases sound.remembered call.token listed call.claims carries with known | expired
          · have passed := unknown _ known
            omega
          · omega
        refine List.nodup_append.mpr ⟨sound.once, by simp [Except.toOption], ?_⟩
        intro a before b now same
        rw [same, List.mem_singleton.mp now] at before
        exact new before

theorem ProviderThreads.Sound.step (collisionFree : Function.Injective primitives.sha256) (sound : t.Sound primitives)
    (timely : t.Timely event) : (t.step primitives event).Sound primitives := by
  cases event with
  | pass seconds =>
    have later : t.clock ≤ t.clock + seconds := by omega
    exact ⟨fun call listed => ⟨(sound.waiting call listed).1.trans later, (sound.waiting call listed).2⟩,
      fun token listed => (sound.remembered token listed).later later, sound.once⟩
  | acquire leaseId consumer capabilities storeId ttlSeconds age =>
    simp only [ProviderThreads.step]
    split
    · exact sound
    · rename_i returned
      have is := acquireLeaseAt_ok returned
      simp only at is
      subst is
      exact ⟨sound.waiting, sound.remembered, sound.once⟩
  | dispose lease =>
    simp only [ProviderThreads.step]
    split
    · exact sound
    · rename_i returned
      obtain ⟨-, rfl⟩ := disposeLease_ok returned
      exact ⟨sound.waiting, sound.remembered, sound.once⟩
  | issue lease binding ttlSeconds age =>
    simp only [ProviderThreads.step]
    split
    · exact sound
    · exact ⟨sound.waiting, sound.remembered, sound.once⟩
  | check token expected =>
    simp only [ProviderThreads.step]
    split
    · exact sound
    · rename_i claims checked
      refine ⟨fun call listed => ?_, sound.remembered, sound.once⟩
      rcases List.mem_append.mp listed with before | now
      · exact sound.waiting call before
      · obtain ⟨payload, decoded, parsed⟩ := (checkToken_ok checked).signed
        rw [List.mem_singleton.mp now]
        exact ⟨le_rfl, payload, _, decoded, parsed⟩
  | enter position => exact enter_sound collisionFree sound timely

theorem ProviderThreads.Sound.run {events : List ThreadEvent} (collisionFree : Function.Injective primitives.sha256)
    (sound : t.Sound primitives) (meets : t.Meets primitives events) : (t.run primitives events).Sound primitives := by
  induction events generalizing t with
  | nil => exact sound
  | cons event rest ih => exact ih (sound.step collisionFree meets.1) meets.2

/-- In every run whose consume calls take the mutex before their tokens expire, no token is accepted twice. -/
theorem tokens_consumed_once (collisionFree : Function.Injective primitives.sha256) {providerInstanceId : String}
    {hmacKey : Key32} {start : Int} {events : List ThreadEvent}
    (meets : (ProviderThreads.new providerInstanceId hmacKey start).Meets primitives events) :
    ((ProviderThreads.new providerInstanceId hmacKey start).run primitives events).accepted.Nodup := by
  have initial : (ProviderThreads.new providerInstanceId hmacKey start).Sound primitives :=
    ⟨fun _ listed => (nomatch listed), fun _ listed => (nomatch listed), List.nodup_nil⟩
  exact (initial.run collisionFree meets).once

end

namespace Plain

theorem collisionFree : Function.Injective primitives.sha256 := by
  intro a b same
  apply String.toByteArray_inj.mp
  apply ByteArray.ext
  exact Array.toList_inj.mp same

/-- Two threads check the same token and one of them consumes it. -/
def contention : List ThreadEvent :=
  [.acquire "l" "c" ["IDENTITY_ECDH_SEALED"] "s" 600 0, .issue lease (operation "1") 10 0,
   .issue lease (operation "2") 60 0, .check (tokenFor 0) (operation "1"), .check (tokenFor 0) (operation "1"), .enter 1]

end Plain

theorem tokens_consumed_once_contention :
    let start := ProviderThreads.new "p" (Plain.key 9) 1000
    let events := Plain.contention ++ [.enter 0]
    start.Meets Plain.primitives events ∧ (start.run Plain.primitives events).accepted = [Plain.tokenFor 0] ∧
      (start.run Plain.primitives events).accepted.Nodup := by
  intro start events
  have meets : start.Meets Plain.primitives events := by decide +kernel
  exact ⟨meets, by decide +kernel, tokens_consumed_once Plain.collisionFree meets⟩

/-- While a thread waits, its token expires and another thread forgets that it was consumed. -/
theorem waiting_call_consumes_again :
    let start := ProviderThreads.new "p" (Plain.key 9) 1000
    let after := start.run Plain.primitives
      (Plain.contention ++ [.pass 11, .check (Plain.tokenFor 1) (Plain.operation "2"), .enter 1, .enter 0])
    after.issued = [Plain.tokenFor 0, Plain.tokenFor 1] ∧
      after.accepted = [Plain.tokenFor 0, Plain.tokenFor 1, Plain.tokenFor 0] ∧ ¬ after.accepted.Nodup := by
  decide +kernel

end AnpIdentity
