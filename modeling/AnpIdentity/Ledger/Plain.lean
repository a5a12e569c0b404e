import AnpIdentity.Ledger.Engine

/-! A plain platform, and a short run on it: a consumer asks for one operation, the user allows it, and it is admitted. -/

namespace AnpIdentity.Ledger.Plain

def randomUUID (n : Nat) : String := String.ofList (List.replicate (n + 1) 'u')

theorem randomUUID_injective : Function.Injective randomUUID := by
  intro n m same
  have lengths : (randomUUID n).toList.length = (randomUUID m).toList.length := by rw [same]
  simpa [randomUUID] using lengths

def platform : Platform where
  parseUrl _ := none
  toLowerCase text := text
  digest _ := "digest"
  byteLength _ := 0
  randomUUID := randomUUID
  randomUUID_injective := randomUUID_injective

def options : AuthorizationOptions where
  requestTtlMs := none
  onceTtlMs := none
  leaseTtlMs := none
  positive := by simp

def consumer : VerifiedCaller := ⟨"consumer", "Consumer"⟩
def identity : IdentityReference := ⟨"store", "identity", "did:wba:example.com"⟩

def policy : CapabilitySnapshot where
  version := "1"
  capabilities := ordinary
  signingPurposes := []
  httpOrigins := []

def reading : ControlledOperation where
  capability := .read
  fingerprint := String.ofList (List.replicate 64 'f')
  summary := "read the document"
  signingPurpose := none
  httpOrigin := none

def answers : Answers where
  now _ := 0
  uuid := ""
  validateCaller _ := true
  resolveSnapshot _ _ := some policy
  isAbsent _ := some false
  returns := true
  created := none
  reconciled := none

/-- A call from its start to its end: a snapshot, an evaluation and a commit, or one transaction. -/
def complete (thread : Nat) (call : Call) : List Event :=
  [.call options call, .advance thread answers none, .advance thread answers none, .advance thread answers none]

def request : RequestAccessInput := ⟨"request", "to read", some identity, some reading⟩
def decision : AuthorizationDecision := ⟨"request", 1, true, none, none, some policy⟩
def lease : AuthorizedLease := ⟨randomUUID 7, "consumer", identity, 1, fiveMinutes⟩

def granting : List Event :=
  complete 0 .initializeLedger ++ complete 1 (.requestAccess consumer request) ++ complete 2 (.decideRequest decision)

def admitting : List Event := granting ++ complete 3 (.admitOperation consumer lease reading "execution")

end AnpIdentity.Ledger.Plain
