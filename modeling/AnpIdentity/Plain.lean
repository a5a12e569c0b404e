import AnpIdentity.Document

/-! A stand-in for the code outside the crate, for runs on concrete inputs: documents are read and built as
the `anp` crate does it, while keys and signatures are plain text and hashes are checksums. -/

namespace AnpIdentity.Plain
open Text

def text (bytes : Bytes) : String := String.ofList (bytes.map (fun b => Char.ofNat b.toNat))

mutual
def render : Value → List Char
  | .null => ['n']
  | .bool b => if b then ['t'] else ['f']
  | .number n => (toString n).toList
  | .string s => '"' :: s.toList ++ ['"']
  | .array items => '[' :: renderItems items ++ [']']
  | .object fields => '(' :: renderFields fields ++ [')']
termination_by structural value => value

def renderItems : List Value → List Char
  | [] => []
  | item :: rest => render item ++ ',' :: renderItems rest
termination_by structural items => items

def renderField : String × Value → List Char
  | (name, value) => name.toList ++ ':' :: render value
termination_by structural field => field

def renderFields : List (String × Value) → List Char
  | [] => []
  | field :: rest => renderField field ++ ',' :: renderFields rest
termination_by structural fields => fields
end

def strings (value : Option Value) : List String := ((value.bind Value.asArray).getD []).filterMap Value.asStr

def manifestEntryOf (value : Value) : Option DeviceManifestEntry := do
  let deviceId ← value.getStr "device_id"
  let signingKeyId ← value.getStr "signing_key_id"
  let e2eeKeyId ← value.getStr "e2ee_key_id"
  some { deviceId, signingKeyId, e2eeKeyId, profiles := strings (value.get "profiles") }

def manifestOf (value : Value) : Except Unit DeviceManifest :=
  match value.getStr "type", (value.get "devices").bind Value.asArray with
  | some manifestType, some devices =>
    match devices.mapM manifestEntryOf with
    | some devices => .ok { manifestType, devices }
    | none => .error ()
  | _, _ => .error ()

def entryValue (entry : DeviceManifestEntry) : Value :=
  .object (Object.of [("device_id", .string entry.deviceId), ("signing_key_id", .string entry.signingKeyId),
    ("e2ee_key_id", .string entry.e2eeKeyId), ("profiles", .array (entry.profiles.map .string))])

def manifestValue (manifest : DeviceManifest) : Value :=
  .object (Object.of [("type", .string manifest.manifestType), ("devices", .array (manifest.devices.map entryValue))])

def validateManifest (document : Value) : Except Unit (Option DeviceManifest) :=
  match document.get "deviceManifest" with
  | none => .ok none
  | some value =>
    match manifestOf value with
    | .ok manifest => .ok (some manifest)
    | .error e => .error e

def findMethod (document : Value) (kid : String) : Option Value :=
  (((document.get "verificationMethod").bind Value.asArray).getD []).find? (fun method => method.getStr "id" == some kid)

/-- The two multicodec bytes of a key type come first. -/
def publicKeyOf (method : Value) : Except Unit PublicKeyMaterial :=
  match (method.getStr "publicKeyMultibase").map (fun s => s.toList.map (·.toNat)) with
  | some (122 :: 237 :: 1 :: rest) => .ok (.ed25519 (rest.map UInt8.ofNat))
  | some (122 :: 236 :: 1 :: rest) => .ok (.x25519 (rest.map UInt8.ofNat))
  | _ => .error ()

def lists (name : String) (document : Value) (kid : String) : Bool := kid ∈ strings (document.get name)

def multibase : PublicKeyMaterial → String
  | .ed25519 bytes => "z" ++ text ([237, 1] ++ bytes)
  | .x25519 bytes => "z" ++ text ([236, 1] ++ bytes)
  | .other _ bytes => text bytes

def methodOf (did : String) (key : SuppliedDidKey) : Value :=
  .object (Object.of [("id", .string (did ++ "#" ++ key.fragment)), ("type", .string "Multikey"),
    ("controller", .string did), ("publicKeyMultibase", .string (multibase key.publicKey))])

def checksum (bytes : Bytes) : Nat := bytes.foldl (fun sum byte => (31 * sum + byte.toNat) % 1000000007) 1

/-- The last segment of an E1 DID is a hash of the root key. -/
def e1Segment : PublicKeyMaterial → String
  | .ed25519 bytes | .x25519 bytes | .other _ bytes => "e1_" ++ toString (checksum bytes)

def buildE1 (domain : String) (options : SuppliedE1DidDocumentOptions) : Except Unit Value :=
  let segments := options.pathSegments ++ [e1Segment options.rootKey.publicKey]
  let did := segments.foldl (fun did segment => did ++ ":" ++ segment) ("did:wba:" ++ domain)
  let keys := options.rootKey :: options.additionalKeys
  let listed (relationship : DidVerificationRelationship) : Value :=
    .array ((keys.filter (relationship ∈ ·.relationships)).map (fun key => .string (did ++ "#" ++ key.fragment)))
  .ok (.object (Object.of [("id", .string did), ("verificationMethod", .array (keys.map (methodOf did))),
    ("authentication", listed .authentication), ("assertionMethod", listed .assertionMethod),
    ("keyAgreement", listed .keyAgreement), ("service", .array options.services)]))

def prepareProof (document : Value) (kid : String) : Except Unit PreparedProof :=
  match document with
  | .object fields =>
    .ok { document := .object (Object.insert "proof" (.object [("verificationMethod", .string kid)]) fields)
          signingInput := [] }
  | _ => .error ()

def anp : Anp where
  buildDidWebResolutionUrl did := .ok did
  validateDidDocumentMethod _ := true
  validateDidDocumentBinding _ := true
  validateDeviceManifest := validateManifest
  deviceManifestFromValue := manifestOf
  deviceManifestToValue manifest := .ok (manifestValue manifest)
  deviceManifestType := "DeviceManifest"
  findVerificationMethod := findMethod
  extractPublicKey := publicKeyOf
  isAuthenticationAuthorized := lists "authentication"
  isAssertionMethodAuthorized := lists "assertionMethod"
  buildUnsignedE1DidDocument := buildE1
  prepareW3cProof document _ kid _ := prepareProof document kid
  completeW3cProof prepared _ := .ok prepared.document
  proofTypeDataIntegrity := "DataIntegrityProof"
  cryptosuiteEddsaJcs2022 := "eddsa-jcs-2022"
  ed25519Public key := key.val.take 2
  ed25519Sign _ input := .ok input
  x25519Public key := key.val.take 2
  verifyMessage _ _ _ := .ok ()
  diffieHellman _ peer := peer
  privateKeyFromPkcs8Der _ := .error ()
  canonicalJson value := .ok ((render value).map (fun c => UInt8.ofNat c.toNat))
  sha256 bytes := toString (checksum bytes)
  base58 := text
  decodeBase64 s := .ok (ascii s)
  encodeBase64 := text
  deriveTransferKey _ _ := .error ()
  decrypt _ _ ciphertext _ := .ok ciphertext
  parseTimestamp _ := .ok 0

def key (seed : Nat) : Key32 := ⟨List.replicate 32 (UInt8.ofNat seed), List.length_replicate⟩

/-- Identifiers and keys drawn from a seed. -/
def entropy (seed : String) (keys : Nat) : Entropy where
  identityId := "i" ++ seed
  transactionId := "t" ++ seed
  enrollmentId := "e" ++ seed
  revisionId := "r" ++ seed
  challenge := "c" ++ seed
  key n := key (keys + n)
  now := "now"
  signedAt := "now"

end AnpIdentity.Plain
