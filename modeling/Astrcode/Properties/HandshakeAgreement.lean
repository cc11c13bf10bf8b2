import Astrcode.Wire.Handshake

/-!
# Host and worker agree on the handshake

The worker decides: what it has accepted, the host accepts, because every check of the host on
the answer follows from a check the worker has made on the request or on its own declaration.
Whatever fails before, on either side, the other side learns of by the error in the result or by
a transport that was closed.
-/
namespace Astrcode.Wire

variable {supported required : FeatureSet}

open Library (ensure bind_ok_iff ensure_ok_iff forM_ok mapError_ok_iff)

variable {Manifest : Type} {initialization : HostInitialization} {request : InitializeMsg}

/-! ### Feature sets as lists -/

theorem names_toFinset (features : FeatureSet) : features.names.toFinset = features :=
  Finset.sort_toFinset features _

theorem names_length (features : FeatureSet) : features.names.length = features.card :=
  Finset.length_sort _

/-! ### What the checks of the worker say -/

theorem checkRequired_ok {localSupported remoteSupported : FeatureSet} {feature : FeatureName}
    (passed : checkRequired localSupported remoteSupported feature = .ok ()) :
    feature ∈ localSupported ∩ remoteSupported := by
  obtain ⟨_, declared, supported⟩ := bind_ok_iff.mp passed
  exact Finset.mem_inter.mpr ⟨ensure_ok_iff.mp supported, ensure_ok_iff.mp declared⟩

theorem negotiateFeatures_ok {localSupported negotiated : FeatureSet}
    (agreed : negotiateFeatures localSupported supported.names required.names = .ok negotiated) :
    negotiated = localSupported ∩ supported ∧ required ⊆ negotiated := by
  obtain ⟨_, -, agreed⟩ := bind_ok_iff.mp agreed
  obtain ⟨_, -, agreed⟩ := bind_ok_iff.mp agreed
  obtain ⟨_, checked, agreed⟩ := bind_ok_iff.mp agreed
  rw [names_toFinset] at checked agreed
  cases agreed
  refine ⟨rfl, fun feature member => checkRequired_ok (forM_ok checked feature ?_)⟩
  rw [← List.mem_toFinset, names_toFinset]
  exact member

/-- A request the worker accepts is one for it, and both sides have what the other requires. -/
theorem validateInitialize_ok {host worker : PeerInfo} {negotiated : FeatureSet}
    (sent : initializeRequest host initialization = .ok request)
    (accepted : validateInitialize request worker supported required = .ok negotiated) :
    initialization.extensionId = worker.name ∧
      negotiated = supported ∩ initialization.supportedFeatures ∧
      initialization.requiredFeatures ⊆ negotiated ∧ required ⊆ negotiated := by
  -- the request carries the declaration of the host
  obtain ⟨_, -, sent⟩ := bind_ok_iff.mp sent
  obtain ⟨_, -, sent⟩ := bind_ok_iff.mp sent
  cases sent
  -- identity and version were checked before
  simp only [validateInitialize, bind_ok_iff] at accepted
  obtain ⟨_, -, _, -, _, -, _, sameExtension, _, -, agreed, negotiates, _, workerRequires,
    accepted⟩ := accepted
  cases accepted
  obtain ⟨intersection, hostRequires⟩ := negotiateFeatures_ok negotiates
  exact ⟨ensure_ok_iff.mp sameExtension, intersection, hostRequires,
    ensure_ok_iff.mp workerRequires⟩

/-! ### What the host finds in the answer -/

theorem ensure_bind {ε β : Type} {holds : Prop} [Decidable holds] {error : ε}
    {next : Unit → Except ε β} (passes : holds) : (ensure holds error >>= next) = next () := by
  rw [ensure_ok_iff.mpr passes]
  rfl

/-- The answer to an accepted request passes every check of the host. -/
theorem validateInitializeOutput_answer {worker : PeerInfo} {extensionId : String}
    {hostSupported hostRequired : FeatureSet} (manifest : Manifest)
    (named : worker.validate = .ok ()) (isWorker : extensionId = worker.name)
    (declared : required ⊆ supported) (hostRequires : hostRequired ⊆ supported ∩ hostSupported)
    (workerRequires : required ⊆ supported ∩ hostSupported) :
    validateInitializeOutput
      { worker
        protocolVersion := s5rVersion
        supportedFeatures := supported.names
        requiredFeatures := required.names
        negotiatedFeatures := FeatureSet.names (supported ∩ hostSupported)
        manifest } extensionId hostSupported hostRequired = .ok () := by
  have checked : worker.validate.mapError PeerError.remote = .ok () := mapError_ok_iff.mpr named
  simp only [validateInitializeOutput, names_toFinset, names_length, checked, isWorker]
  -- version, name and identity; then the two feature lists, the intersection and the requirements
  rw [ensure_bind trivial]
  show (ensure _ _ >>= _) = _
  rw [ensure_bind trivial, ensure_bind ⟨trivial, trivial, declared⟩]
  exact ensure_ok_iff.mpr ⟨Finset.inter_comm _ _, hostRequires, workerRequires⟩

/-! ### Both sides -/

/-- The host returns an error for a result that carries one. -/
theorem initializeResult_error (initialization : HostInitialization) (id : String)
    (kind : ResultKind) (error : ErrorPayload) :
    ∃ e, initializeResult initialization
      (some (@HandshakeMsg.result Manifest id kind (.error error))) = .error e := by
  rw [initializeResult]
  by_cases matching : id = initialization.requestId ∧ kind = .initialization
  · rw [ensure_bind matching]
    exact ⟨_, rfl⟩
  · rw [ensure, if_neg matching]
    exact ⟨_, rfl⟩

/-- The host returns what a result to its request carries, once that has passed its checks. -/
theorem initializeResult_answer {host : PeerInfo} {output : InitializeOutput Manifest}
    (sent : initializeRequest host initialization = .ok request)
    (passes : validateInitializeOutput output initialization.extensionId
      initialization.supportedFeatures initialization.requiredFeatures = .ok ()) :
    initializeResult initialization (some (.result request.id .initialization (.ok output))) =
      .ok (⟨output.negotiatedFeatures.toFinset⟩, output.worker, output.manifest) := by
  obtain ⟨_, -, sent⟩ := bind_ok_iff.mp sent
  obtain ⟨_, -, sent⟩ := bind_ok_iff.mp sent
  cases sent
  rw [initializeResult, ensure_bind ⟨rfl, rfl⟩]
  simp [Except.mapError, passes]

/-- What the worker has checked of itself when it reads. -/
theorem acceptChecks_ok {localPeer : PeerInfo} {initialization : WorkerInitialization Manifest}
    {u : Unit} (checks : acceptChecks localPeer initialization = .ok u) :
    localPeer.validate = .ok () ∧
      initialization.requiredFeatures ⊆ initialization.supportedFeatures := by
  obtain ⟨_, named, declared⟩ := bind_ok_iff.mp checks
  exact ⟨mapError_ok_iff.mp named, ensure_ok_iff.mp declared⟩

/-- A worker that reads nothing returns an error. -/
theorem accept_closed (localPeer : PeerInfo) (initialization : WorkerInitialization Manifest) :
    ∃ e, (accept localPeer initialization none).2 = .error e := by
  rw [accept]
  split
  all_goals exact ⟨_, rfl⟩

/-- Either both sides are initialised with the same features, those that both support and among
them all that either requires, or both return an error. -/
theorem handshake_agrees (host worker : PeerInfo) (hostInitialization : HostInitialization)
    (workerInitialization : WorkerInitialization Manifest) :
    (∃ initialized manifest accepted,
      handshake host worker hostInitialization workerInitialization =
        (.ok (initialized, worker, manifest), .ok accepted) ∧
      initialized.negotiatedFeatures = accepted.negotiatedFeatures ∧
      accepted.negotiatedFeatures =
        hostInitialization.supportedFeatures ∩ workerInitialization.supportedFeatures ∧
      hostInitialization.requiredFeatures ⊆ accepted.negotiatedFeatures ∧
      workerInitialization.requiredFeatures ⊆ accepted.negotiatedFeatures) ∨
    ∃ hostError workerError,
      handshake host worker hostInitialization workerInitialization =
        (.error hostError, .error workerError) := by
  simp only [handshake, initializePeer, initializeWrites]
  cases sent : initializeRequest host hostInitialization with
  | error hostError =>
    -- the host writes nothing
    obtain ⟨workerError, closed⟩ := accept_closed worker workerInitialization
    exact .inr ⟨hostError, workerError, Prod.ext rfl closed⟩
  | ok request =>
    cases checks : acceptChecks worker workerInitialization with
    | error workerError =>
      -- the worker closes the transport before it reads
      exact .inr ⟨.frame "transport closed", workerError,
        by simp only [accept, checks, initializeResult]⟩
    | ok _ =>
      cases decision : validateInitialize request worker workerInitialization.supportedFeatures
          workerInitialization.requiredFeatures with
      | error error =>
        obtain ⟨hostError, refused⟩ := @initializeResult_error Manifest
          hostInitialization request.id .initialization error
        exact .inr ⟨hostError, .remote error,
          by simp only [accept, checks, acceptRequest, decision, refused]⟩
      | ok negotiated =>
        obtain ⟨isWorker, rfl, hostRequires, workerRequires⟩ :=
          validateInitialize_ok sent decision
        obtain ⟨named, declared⟩ := acceptChecks_ok checks
        have passes := validateInitializeOutput_answer workerInitialization.manifest named isWorker
          declared hostRequires workerRequires
        refine .inl ⟨⟨_⟩, workerInitialization.manifest, ⟨_, request.hostOperations⟩, ?_, rfl,
          Finset.inter_comm _ _, hostRequires, workerRequires⟩
        simp [accept, checks, acceptRequest, decision, initializeResult_answer sent passes, names_toFinset]

end Astrcode.Wire
