import Astrcode.Library.Json
import Astrcode.Library.Runs
import Mathlib.Data.Finset.Sort
import Mathlib.Data.String.Basic

/-!
# The wire protocol of extension workers

`astrcode-extension-sdk/src/wire/protocol.rs` and `error.rs`: feature names, error payloads and
the messages of the handshake and of the running connection. A message is modelled as the value
it carries; its JSON text is left out.
-/
namespace Astrcode.Wire

open Library (Json ensure)

def s5rVersion : String := "3.0"

/-! ### Features -/

def validFeatureName (value : String) : Bool :=
  value ≠ "" && value.utf8ByteSize ≤ 64 &&
    value.toList.all fun c => c.isLower || c.isDigit || c = '_'

structure FeatureName where
  name : String
  valid : validFeatureName name = true
  deriving DecidableEq

theorem FeatureName.name_injective : Function.Injective FeatureName.name := by
  rintro ⟨name, _⟩ ⟨_, _⟩ rfl
  rfl

instance : LinearOrder FeatureName := LinearOrder.lift' FeatureName.name FeatureName.name_injective

/-- `BTreeSet<FeatureName>`. -/
abbrev FeatureSet := Finset FeatureName

/-- The features of a set in their order. -/
def FeatureSet.names (features : FeatureSet) : List FeatureName := features.sort

/-! ### Errors -/

/-- The codes these modules answer with. Other codes occur as text. -/
inductive WireErrorCode where
  | hostNotReady
  | peerClosed
  | transport
  | invalidResponse
  | unsupportedFeature
  | invalidRequest
  | duplicateRequestId
  | unknownParentInvoke
  | unsupportedProtocolVersion
  | streamClosed
  | backpressureTimeout
  | streamIdleTimeout
  | peerOverloaded
  deriving DecidableEq

def WireErrorCode.asStr : WireErrorCode → String
  | .hostNotReady => "host_not_ready"
  | .peerClosed => "peer_closed"
  | .transport => "transport_error"
  | .invalidResponse => "invalid_host_response"
  | .unsupportedFeature => "unsupported_feature"
  | .invalidRequest => "invalid_request"
  | .duplicateRequestId => "duplicate_request_id"
  | .unknownParentInvoke => "unknown_parent_invoke"
  | .unsupportedProtocolVersion => "unsupported_protocol_version"
  | .streamClosed => "stream_closed"
  | .backpressureTimeout => "backpressure_timeout"
  | .streamIdleTimeout => "stream_idle_timeout"
  | .peerOverloaded => "peer_overloaded"

structure ErrorPayload where
  code : String
  message : String
  hint : Option String
  retryable : Bool
  details : Option Json

def ErrorPayload.new (code : WireErrorCode) (message : String) : ErrorPayload where
  code := code.asStr
  message := message
  hint := none
  retryable := false
  details := none

/-- `PeerError`; a frame error is a transport that is closed or failed. -/
inductive PeerError where
  | frame (message : String)
  | protocol (message : String)
  | unexpectedMessage (expected : String)
  | remote (error : ErrorPayload)

/-! ### Negotiation -/

def ensureUnique (features : List FeatureName) (field : String) : Except ErrorPayload Unit :=
  ensure (features.toFinset.card = features.length)
    (.new .invalidRequest (field ++ " contains duplicate values"))

/-- The check of one feature the other peer requires. -/
def checkRequired (localSupported remoteSupported : FeatureSet) (feature : FeatureName) :
    Except ErrorPayload Unit := do
  ensure (feature ∈ remoteSupported) (.new .invalidRequest
    ("required feature " ++ feature.name ++ " is not declared as supported"))
  ensure (feature ∈ localSupported) (.new .unsupportedFeature
    ("required feature " ++ feature.name ++ " is not supported by this peer"))

def negotiateFeatures (localSupported : FeatureSet)
    (remoteSupported remoteRequired : List FeatureName) : Except ErrorPayload FeatureSet := do
  ensureUnique remoteSupported "supported_features"
  ensureUnique remoteRequired "required_features"
  remoteRequired.forM (checkRequired localSupported remoteSupported.toFinset)
  pure (localSupported ∩ remoteSupported.toFinset)

end Astrcode.Wire
