import AnpIdentity.Basic
import AnpIdentity.Text

/-! `input.rs`: the shape of requests, the checks made on them and key identifiers. -/

namespace AnpIdentity
open Text

def maxDomainLen : Nat := 253
def maxPathSegmentLen : Nat := 128
def maxKidFragmentLen : Nat := 128
def maxServiceValueLen : Nat := 2048

/-- A key that the crate is to create. -/
structure ManagedKeySpec where
  fragment : String
  role : KeyRole
  deriving Repr, DecidableEq

/-- A public key in JWK form. -/
structure PublicOkpJwk where
  kty : String
  crv : String
  x : String
  deriving Repr, DecidableEq

inductive ExternalPublicKeyMaterial where
  | multibase (value : String)
  | jwk (publicKeyJwk : PublicOkpJwk)
  deriving Repr, DecidableEq

/-- A key that someone else holds. -/
structure ExternalPublicKeySpec where
  kid : String
  role : KeyRole
  material : ExternalPublicKeyMaterial
  deriving Repr, DecidableEq

/-- A service entry of the document. -/
structure ServiceSpec where
  id : String
  serviceType : String
  serviceEndpoint : String
  serviceDid : Option String
  profiles : List String := []
  securityProfiles : List String := []
  deriving Repr, DecidableEq

/-- A device that the document is to list. -/
structure DeviceManifestEntrySpec where
  deviceId : String
  signingKeyId : String
  e2eeKeyId : String
  profiles : List String := []
  deriving Repr, DecidableEq

/-- The one extension there is, a device manifest with these devices. -/
inductive DidExtensionSpec where
  | deviceManifest (devices : List DeviceManifestEntrySpec)
  deriving Repr, DecidableEq

/-- The request to create an identity. -/
structure DidCreateSpec where
  profile : DidProfile
  domain : String
  port : Option Nat
  pathSegments : List String
  capabilities : Capabilities := {}
  managedKeys : List ManagedKeySpec
  externalKeys : List ExternalPublicKeySpec := []
  services : List ServiceSpec := []
  agentDescriptionUrl : Option String
  extensions : List DidExtensionSpec := []
  deriving Repr, DecidableEq

def isIdentifierByte (c : Char) : Bool := c.isAlphanum || c == '-' || c == '_' || c == '.' || c == '~'

/-- A fragment is a short identifier. -/
def validateFragment (fragment : String) : DidResult Unit :=
  reject (fragment.isEmpty || len fragment > maxKidFragmentLen || !fragment.toList.all isIdentifierByte)
    .invalidKidFragment

/-- A path segment is a short identifier. -/
def validatePathSegment (segment : String) : DidResult Unit :=
  reject (segment.isEmpty || len segment > maxPathSegmentLen || !segment.toList.all isIdentifierByte)
    .invalidPathSegment

/-- A label of a host name. -/
def isDomainLabel (label : List Char) : Bool :=
  !label.isEmpty && label.length ≤ 63 && label.all (fun c => c.isAlphanum || c == '-') &&
    label.head?.any Char.isAlphanum && label.getLast?.any Char.isAlphanum

/-- An IPv6 address holds a colon, so the check of the labels refuses it as well. -/
def validateDomain (domain : String) : DidResult Unit :=
  reject (domain.isEmpty || len domain > maxDomainLen || trim domain != domain || isIpv4 domain ||
    !(domain.toList.splitOn '.').all isDomainLabel) .invalidDomain

def ServiceSpec.validate (service : ServiceSpec) : DidResult Unit := do
  let fragment := (strip service.id "#").getD service.id
  reject (startsWith fragment "#") .invalidService
  mapErr (validateFragment fragment) .invalidService
  reject (isBlank service.serviceType || isBlank service.serviceEndpoint ||
    len service.serviceType > maxServiceValueLen || len service.serviceEndpoint > maxServiceValueLen) .invalidService
  reject (service.serviceDid.any
    (fun value => isBlank value || trim value != value || len value > maxServiceValueLen)) .invalidService

def DidExtensionSpec.validate : DidExtensionSpec → DidResult Unit
  | .deviceManifest devices => do
    reject devices.isEmpty .invalidExtension
    reject (devices.any (fun device =>
      isBlank device.deviceId || len device.deviceId > maxKidFragmentLen ||
      isBlank device.signingKeyId || len device.signingKeyId > maxServiceValueLen ||
      isBlank device.e2eeKeyId || len device.e2eeKeyId > maxServiceValueLen ||
      device.profiles.isEmpty || device.profiles.any isBlank)) .invalidExtension

/-- The full kid; a bare fragment is one of this DID. -/
def canonicalizeKid (did kid : String) : DidResult String := do
  let head := did ++ "#"
  let fragment ←
    match strip kid "#" with
    | some fragment => .ok fragment
    | none =>
      match strip kid head with
      | some fragment => .ok fragment
      | none => if !contains kid ':' && !contains kid '#' then .ok kid else .error .foreignKid
  validateFragment fragment
  .ok (head ++ fragment)

/-- The kids in canonical form, none of them twice. -/
def validateUniqueKids (did : String) : List String → List String → DidResult Unit
  | _, [] => .ok ()
  | seen, kid :: rest => do
    let canonical ← canonicalizeKid did kid
    reject (canonical ∈ seen) .duplicateKid
    validateUniqueKids did (canonical :: seen) rest

end AnpIdentity
