import Astrcode.Wire.Protocol

/-!
# The handshake of host and worker

`astrcode-s5r-runtime/src/peer.rs`: `initialize` on the host and `accept` on the worker. Each
side checks its own declaration first. The host then sends its request and waits for the result;
the worker waits for the request, checks it and answers with its own declaration, or with the
error it has found. The host checks the answer once more.

Each function is cut at its read: what it does up to there, and what it does with the message.
A side that returns without writing closes its end of the transport, and the other side then
reads an error. The manifest of the worker is carried along.
-/
namespace Astrcode.Wire

open Library (ensure)

structure PeerInfo where
  name : String
  version : Option String
  deriving DecidableEq

def PeerInfo.validate (peer : PeerInfo) : Except ErrorPayload Unit :=
  ensure (peer.name ≠ "") (.new .invalidRequest "peer name must not be empty")

structure HostInitialization where
  requestId : String
  extensionId : String
  supportedFeatures : FeatureSet
  requiredFeatures : FeatureSet
  hostOperations : List String

structure WorkerInitialization (Manifest : Type) where
  supportedFeatures : FeatureSet
  requiredFeatures : FeatureSet
  manifest : Manifest

structure InitializeMsg where
  id : String
  protocolVersion : String
  host : PeerInfo
  extensionId : String
  supportedFeatures : List FeatureName
  requiredFeatures : List FeatureName
  hostOperations : List String

structure InitializeOutput (Manifest : Type) where
  worker : PeerInfo
  protocolVersion : String
  supportedFeatures : List FeatureName
  requiredFeatures : List FeatureName
  negotiatedFeatures : List FeatureName
  manifest : Manifest

inductive ResultKind where
  | initialization
  | activation
  | invocation
  deriving DecidableEq

/-- The messages of the handshake; every other one is refused by both sides. -/
inductive HandshakeMsg (Manifest : Type) where
  | initializeMsg (request : InitializeMsg)
  | result (id : String) (kind : ResultKind)
      (outcome : Except ErrorPayload (InitializeOutput Manifest))
  | other

structure HostInitialized where
  negotiatedFeatures : FeatureSet

structure WorkerInitialized where
  negotiatedFeatures : FeatureSet
  hostOperations : List String

variable {Manifest : Type}

/-! ### Checks -/

def validateFeatureDeclaration (supported required : FeatureSet) : Except PeerError Unit :=
  ensure (required ⊆ supported)
    (.protocol "required features must also be declared as supported")

/-- The names that were seen are those before the operation. -/
def validateHostOperationsFrom (names : List String) : List String → Except ErrorPayload Unit
  | [] => .ok ()
  | operation :: operations =>
    if operation = "" then
      .error (.new .invalidRequest "host operation name must not be empty")
    else if operation ∈ names then
      .error (.new .invalidRequest ("duplicate host operation " ++ operation))
    else validateHostOperationsFrom (operation :: names) operations

def validateHostOperations (operations : List String) : Except ErrorPayload Unit :=
  validateHostOperationsFrom [] operations

def validateHostInitialization (initialization : HostInitialization) : Except PeerError Unit := do
  ensure (initialization.requestId ≠ "") (.protocol "initialize request id must not be empty")
  ensure (initialization.extensionId ≠ "") (.protocol "expected extension id must not be empty")
  validateFeatureDeclaration initialization.supportedFeatures initialization.requiredFeatures
  (validateHostOperations initialization.hostOperations).mapError .remote

def validateInitialize (request : InitializeMsg) (localPeer : PeerInfo)
    (localSupported localRequired : FeatureSet) : Except ErrorPayload FeatureSet := do
  ensure (request.id ≠ "") (.new .invalidRequest "initialize request id must not be empty")
  ensure (request.protocolVersion = s5rVersion) (.new .unsupportedProtocolVersion
    ("unsupported S5R version " ++ request.protocolVersion ++ "; expected " ++ s5rVersion))
  request.host.validate
  ensure (request.extensionId = localPeer.name) (.new .invalidRequest
    ("host expected extension " ++ request.extensionId.quote ++ ", worker identity is " ++
      localPeer.name.quote))
  validateHostOperations request.hostOperations
  let negotiated ← negotiateFeatures localSupported request.supportedFeatures
    request.requiredFeatures
  let missing := FeatureSet.names (localRequired \ negotiated)
  ensure (localRequired ⊆ negotiated) (.new .unsupportedFeature
    ("host does not support required features: " ++ ", ".intercalate (missing.map (·.name))))
  pure negotiated

def validateInitializeOutput (output : InitializeOutput Manifest) (expectedExtensionId : String)
    (supportedFeatures requiredFeatures : FeatureSet) : Except PeerError Unit := do
  ensure (output.protocolVersion = s5rVersion) (.protocol
    ("worker selected S5R " ++ output.protocolVersion ++ "; expected " ++ s5rVersion))
  output.worker.validate.mapError .remote
  ensure (output.worker.name = expectedExtensionId) (.protocol
    ("expected extension " ++ expectedExtensionId.quote ++ ", worker identified as " ++
      output.worker.name.quote))
  let remoteSupported := output.supportedFeatures.toFinset
  let remoteRequired := output.requiredFeatures.toFinset
  ensure (remoteSupported.card = output.supportedFeatures.length ∧
      remoteRequired.card = output.requiredFeatures.length ∧ remoteRequired ⊆ remoteSupported)
    (.protocol "worker returned an invalid feature catalog")
  let negotiated := output.negotiatedFeatures.toFinset
  ensure (negotiated.card = output.negotiatedFeatures.length)
    (.protocol "worker returned duplicate negotiated features")
  ensure (negotiated = supportedFeatures ∩ remoteSupported ∧ requiredFeatures ⊆ negotiated ∧
      remoteRequired ⊆ negotiated)
    (.protocol "worker returned an invalid negotiated feature set")

/-! ### The host -/

variable (localPeer : PeerInfo)

/-- `initialize` up to its read: the request, or the error it returns at once. -/
def initializeRequest (initialization : HostInitialization) :
    Except PeerError InitializeMsg := do
  localPeer.validate.mapError fun error => .protocol (error.code ++ ": " ++ error.message)
  validateHostInitialization initialization
  pure
    { id := initialization.requestId
      protocolVersion := s5rVersion
      host := localPeer
      extensionId := initialization.extensionId
      supportedFeatures := initialization.supportedFeatures.names
      requiredFeatures := initialization.requiredFeatures.names
      hostOperations := initialization.hostOperations }

/-- `initialize` after its read; nothing is read from a transport that was closed. -/
def initializeResult (initialization : HostInitialization) :
    Option (HandshakeMsg Manifest) → Except PeerError (HostInitialized × PeerInfo × Manifest)
  | none => .error (.frame "transport closed")
  | some (.result id kind outcome) => do
    ensure (id = initialization.requestId ∧ kind = .initialization)
      (.unexpectedMessage "matching initialize result")
    let output ← outcome.mapError .remote
    validateInitializeOutput output initialization.extensionId initialization.supportedFeatures
      initialization.requiredFeatures
    pure (⟨output.negotiatedFeatures.toFinset⟩, output.worker, output.manifest)
  | some _ => .error (.unexpectedMessage "initialize result")

/-! ### The worker -/

variable (initialization : WorkerInitialization Manifest)

/-- `accept` up to its read. -/
def acceptChecks :
    Except PeerError Unit := do
  localPeer.validate.mapError fun error => .protocol (error.code ++ ": " ++ error.message)
  validateFeatureDeclaration initialization.supportedFeatures initialization.requiredFeatures

/-- `accept` after its read: the message it writes, and what it returns. -/
def acceptRequest :
    Option (HandshakeMsg Manifest) →
      Option (HandshakeMsg Manifest) × Except PeerError WorkerInitialized
  | none => (none, .error (.frame "transport closed"))
  | some (.initializeMsg request) =>
    match validateInitialize request localPeer initialization.supportedFeatures
        initialization.requiredFeatures with
    | .ok negotiated =>
      (some (.result request.id .initialization (.ok
          { worker := localPeer
            protocolVersion := s5rVersion
            supportedFeatures := initialization.supportedFeatures.names
            requiredFeatures := initialization.requiredFeatures.names
            negotiatedFeatures := negotiated.names
            manifest := initialization.manifest })),
        .ok ⟨negotiated, request.hostOperations⟩)
    | .error error =>
      (some (.result request.id .initialization (.error error)), .error (.remote error))
  | some _ => (none, .error (.unexpectedMessage "initialize request"))

/-- `accept`: what it writes and what it returns, for what the transport delivers. -/
def accept (received : Option (HandshakeMsg Manifest)) :
    Option (HandshakeMsg Manifest) × Except PeerError WorkerInitialized :=
  match acceptChecks localPeer initialization with
  | .error error => (none, .error error)
  | .ok _ => acceptRequest localPeer initialization received

/-- `initialize`, for an answer of the other side to what it writes. -/
def initializePeer (initialization : HostInitialization)
    (answer : Option (HandshakeMsg Manifest) → Option (HandshakeMsg Manifest)) :
    Except PeerError (HostInitialized × PeerInfo × Manifest) :=
  match initializeRequest localPeer initialization with
  | .error error => .error error
  | .ok request => initializeResult initialization (answer (some (.initializeMsg request)))

/-- What the host writes. -/
def initializeWrites (initialization : HostInitialization) :
    Option (HandshakeMsg Manifest) :=
  match initializeRequest localPeer initialization with
  | .error _ => none
  | .ok request => some (.initializeMsg request)

/-- Both sides over a transport that delivers what is written: what they return. -/
def handshake (host worker : PeerInfo) (hostInitialization : HostInitialization)
    (workerInitialization : WorkerInitialization Manifest) :
    Except PeerError (HostInitialized × PeerInfo × Manifest) ×
      Except PeerError WorkerInitialized :=
  (initializePeer host hostInitialization fun request =>
      (accept worker workerInitialization request).1,
    (accept worker workerInitialization (initializeWrites host hostInitialization)).2)

end Astrcode.Wire
