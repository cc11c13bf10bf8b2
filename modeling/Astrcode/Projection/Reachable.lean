import Astrcode.Projection.Reducer

/-!
# What the reducer accepts

Inversion lemmas for the validating functions, and the induction rule every
statement about replayed models rests on: a property of the model a session starts
with that accepted events preserve holds of every model a log replays to.
-/
namespace Astrcode

open SessionReadModelProjection

variable {event : StoredEvent} {sessionId : SessionId} {model model' : SessionReadModel}
  {events : List StoredEvent} {projection : SessionReadModelProjection}
  {payloads : List DurableEventPayload}

open Library (bind_ok_iff runAll_nil runAll_cons runAll_append)

/-! ### One event -/

/-- The event may follow an event numbered `currentSeq` in the given session. -/
structure NextEvent (seq : Nat) (event : DurableEvent) (sessionId : SessionId)
    (currentSeq : Nat) : Prop where
  session : event.sessionId = sessionId
  notStarted : event.payload.isSessionStarted = false
  audience : event.payload.isGlobalCustomEvent = false
  source : ∀ sourceSeq, event.payload.rewriteSource? = some sourceSeq → sourceSeq ≤ currentSeq
  room : currentSeq + 1 < u64Limit
  contiguous : seq = currentSeq + 1

/-- A rewrite names the fingerprint of the prefix it replaces. -/
def RewriteMatches (payload : DurableEventPayload) (systemPrompt : String)
    (messages : List SequencedLlmMessage) : Prop :=
  ∀ sourceSeq expected rewritten reason,
    payload = .transcriptRewritten sourceSeq expected rewritten reason →
      transcriptPrefixFingerprint systemPrompt (rewritePrefix messages sourceSeq) = expected

private theorem validateContiguous_ok_iff {seq currentSeq : Nat} :
    validateContiguous seq currentSeq = .ok () ↔ currentSeq + 1 < u64Limit ∧ seq = currentSeq + 1 := by
  unfold validateContiguous
  cases checked : checkedAdd currentSeq 1 with
  | none =>
    have full : ¬ currentSeq + 1 < u64Limit := by
      intro room
      simp [checkedAdd_of_lt room] at checked
    simp [full]
  | some expected =>
    obtain ⟨room, rfl⟩ := checkedAdd_eq_some.mp checked
    simp [room]

theorem validateNextEventDetails_ok_iff {seq currentSeq : Nat} {event : DurableEvent} :
    validateNextEventDetails seq event sessionId currentSeq = .ok () ↔
      NextEvent seq event sessionId currentSeq := by
  unfold validateNextEventDetails
  constructor
  · intro valid
    split at valid
    · cases valid
    next same =>
      split at valid
      · cases valid
      next notStarted =>
        split at valid
        · cases valid
        next audience =>
          -- left: the source of a rewrite and the number, in both branches of the match
          refine ⟨by simpa using same, by simpa using notStarted, by simpa using audience, ?_, ?_, ?_⟩
          all_goals
            split at valid
            · split at valid
              · cases valid
              · simp_all [validateContiguous_ok_iff]
            · simp_all [validateContiguous_ok_iff]
  · intro next
    simp only [next.session, ne_eq, not_true_eq_false, if_false, next.notStarted, next.audience,
      Bool.false_eq_true]
    split
    · next sourceSeq source =>
      have bound := next.source sourceSeq source
      rw [if_neg (by omega)]
      exact validateContiguous_ok_iff.mpr ⟨next.room, next.contiguous⟩
    · exact validateContiguous_ok_iff.mpr ⟨next.room, next.contiguous⟩

theorem validateRewriteFingerprintAgainst_ok_iff {event : DurableEvent} {systemPrompt : String}
    {messages : List SequencedLlmMessage} :
    validateRewriteFingerprintAgainst event systemPrompt messages = .ok () ↔
      RewriteMatches event.payload systemPrompt messages := by
  unfold validateRewriteFingerprintAgainst RewriteMatches
  cases event.payload with
  | transcriptRewritten sourceSeq expected rewritten reason =>
    simp only [ite_eq_left_iff, reduceCtorEq, imp_false, not_not]
    constructor
    · rintro same _ _ _ _ ⟨⟩
      exact same
    · intro all
      exact all _ _ _ _ rfl
  | _ => simp

theorem reduce_ok_iff :
    reduce event model = .ok model' ↔
      NextEvent event.seq event.event model.identity.sessionId model.stats.lastSeq ∧
      RewriteMatches event.event.payload model.systemPrompt.text model.modelContext.messages ∧
      model' = applyValidatedEvent event model := by
  simp only [reduce, validateNextEvent, bind_ok_iff, pure, Except.pure, Except.ok.injEq]
  constructor
  · rintro ⟨⟨⟩, ⟨⟨⟩, details, fingerprint⟩, rfl⟩
    exact ⟨validateNextEventDetails_ok_iff.mp details,
      validateRewriteFingerprintAgainst_ok_iff.mp fingerprint, rfl⟩
  · rintro ⟨next, matching, rfl⟩
    exact ⟨(), ⟨(), validateNextEventDetails_ok_iff.mpr next,
      validateRewriteFingerprintAgainst_ok_iff.mpr matching⟩, rfl⟩

variable (event)

@[simp] theorem identityAfter_sessionId (identity : SessionIdentity) :
    (identityAfter event identity).sessionId = identity.sessionId := by
  unfold identityAfter
  split <;> rfl

@[simp] theorem applyValidatedEvent_sessionId (model : SessionReadModel) :
    (applyValidatedEvent event model).identity.sessionId = model.identity.sessionId :=
  identityAfter_sessionId event model.identity

@[simp] theorem applyValidatedEvent_lastSeq (model : SessionReadModel) :
    (applyValidatedEvent event model).stats.lastSeq = event.seq := rfl

variable {event}

theorem reduce_sessionId (accepted : reduce event model = .ok model') :
    model'.identity.sessionId = model.identity.sessionId := by
  obtain ⟨-, -, rfl⟩ := reduce_ok_iff.mp accepted
  exact applyValidatedEvent_sessionId event model

section

variable (run : reduceAll events model = .ok model')

include run

theorem reduceAll_eq_foldl :
    model' = events.foldl (fun model event => applyValidatedEvent event model) model := by
  induction events generalizing model with
  | nil => exact runAll_nil.mp run
  | cons event events ih =>
    obtain ⟨mid, first, rest⟩ := runAll_cons.mp run
    obtain ⟨-, -, rfl⟩ := reduce_ok_iff.mp first
    exact ih rest

omit run in
/-- A run that is accepted applies every event. -/
theorem reduceAll_eq_of_isOk (ok : (reduceAll events model).isOk = true) :
    reduceAll events model =
      .ok (events.foldl (fun model event => applyValidatedEvent event model) model) := by
  obtain ⟨final, run⟩ := Library.exists_of_isOk ok
  rw [run, reduceAll_eq_foldl run]

theorem reduceAll_lastSeq : model'.stats.lastSeq = model.stats.lastSeq + events.length := by
  induction events generalizing model with
  | nil =>
    rw [runAll_nil.mp run]
    rfl
  | cons event events ih =>
    obtain ⟨mid, first, rest⟩ := runAll_cons.mp run
    obtain ⟨next, -, rfl⟩ := reduce_ok_iff.mp first
    rw [ih rest, applyValidatedEvent_lastSeq, next.contiguous, List.length_cons]
    omega

/-- An accepted run is numbered in order. -/
theorem reduceAll_numbers :
    events.map (·.seq) = List.range' (model.stats.lastSeq + 1) events.length := by
  induction events generalizing model with
  | nil => rfl
  | cons event events ih =>
    obtain ⟨mid, first, rest⟩ := runAll_cons.mp run
    obtain ⟨next, -, rfl⟩ := reduce_ok_iff.mp first
    have tail := ih rest
    rw [applyValidatedEvent_lastSeq, next.contiguous] at tail
    rw [List.map_cons, tail, next.contiguous, List.length_cons, List.range'_succ]

theorem reduceAll_getLast {last : StoredEvent} (ends : events.getLast? = some last) :
    last.seq = model'.stats.lastSeq := by
  have numbers := congrArg List.getLast? (reduceAll_numbers run)
  have total := reduceAll_lastSeq run
  rw [List.getLast?_map, ends, Option.map_some, List.getLast?_range'] at numbers
  split at numbers
  · cases numbers
  · rw [Option.some.inj numbers]
    omega

end

/-! ### Whole logs -/

@[simp] theorem fromStarted_sessionId (sessionId : SessionId) (started : SessionStarted)
    (timestamp : Timestamp) :
    (SessionReadModel.fromStarted sessionId started timestamp).identity.sessionId = sessionId :=
  rfl

private theorem apply_started :
    apply event ⟨sessionId, none⟩ = .ok projection ↔
      event.event.sessionId = sessionId ∧ ∃ started, validateFirstEvent event = .ok started ∧
        projection = ⟨sessionId, some (.fromStarted sessionId started event.event.timestamp)⟩ := by
  unfold apply
  by_cases same : event.event.sessionId = sessionId
  · simp only [same, ne_eq, not_true_eq_false, if_false, true_and, bind_ok_iff, pure, Except.pure,
      Except.ok.injEq]
    simp [eq_comm]
  · simp [same]

private theorem apply_running (own : model.identity.sessionId = sessionId) :
    apply event ⟨sessionId, some model⟩ = .ok projection ↔
      ∃ model', reduce event model = .ok model' ∧ projection = ⟨sessionId, some model'⟩ := by
  unfold apply
  by_cases same : event.event.sessionId = sessionId
  · simp only [same, ne_eq, not_true_eq_false, if_false, bind_ok_iff, pure, Except.pure,
      Except.ok.injEq]
    simp [eq_comm]
  · simp only [same, ne_eq, not_false_eq_true, if_true, false_iff, reduceCtorEq]
    -- the reducer checks the session again, so it refuses the event as well
    rintro ⟨model', accepted, -⟩
    have next := (reduce_ok_iff.mp accepted).1
    exact same (next.session.trans own)

private theorem runAll_running (own : model.identity.sessionId = sessionId) :
    Library.runAll apply events ⟨sessionId, some model⟩ = .ok projection ↔
      ∃ model', reduceAll events model = .ok model' ∧ projection = ⟨sessionId, some model'⟩ := by
  induction events generalizing model with
  | nil => simp [reduceAll, runAll_nil]
  | cons event events ih =>
    simp only [reduceAll, runAll_cons, apply_running own]
    constructor
    · rintro ⟨_, ⟨mid, first, rfl⟩, rest⟩
      obtain ⟨model', run, rfl⟩ := (ih ((reduce_sessionId first).trans own)).mp rest
      exact ⟨model', ⟨mid, first, run⟩, rfl⟩
    · rintro ⟨model', ⟨mid, first, run⟩, rfl⟩
      exact ⟨_, ⟨mid, first, rfl⟩,
        (ih ((reduce_sessionId first).trans own)).mpr ⟨model', run, rfl⟩⟩

/-- A log replays when its first event starts the session and the reducer accepts the rest. -/
theorem replay_ok_iff :
    replay sessionId events = .ok model ↔
      ∃ first rest started, events = first :: rest ∧ first.event.sessionId = sessionId ∧
        validateFirstEvent first = .ok started ∧
        reduceAll rest (.fromStarted sessionId started first.event.timestamp) = .ok model := by
  simp only [replay, bind_ok_iff]
  cases events with
  | nil =>
    simp [runAll_nil, snapshot]
  | cons first rest =>
    simp only [runAll_cons, apply_started]
    constructor
    · rintro ⟨projection, ⟨_, ⟨same, started, valid, rfl⟩, run⟩, taken⟩
      obtain ⟨model', reduced, rfl⟩ := (runAll_running (fromStarted_sessionId ..)).mp run
      cases taken
      exact ⟨first, rest, started, rfl, same, valid, reduced⟩
    · rintro ⟨_, _, started, equal, same, valid, reduced⟩
      cases equal
      exact ⟨⟨sessionId, some model⟩, ⟨_, ⟨same, started, valid, rfl⟩,
        (runAll_running (fromStarted_sessionId ..)).mpr ⟨model, reduced, rfl⟩⟩, rfl⟩

theorem validateFirstEvent_ok {started : SessionStarted}
    (valid : validateFirstEvent event = .ok started) :
    event.seq = 0 ∧ event.event.payload = .sessionStarted started := by
  rw [validateFirstEvent] at valid
  split at valid
  · cases valid
  · next zero =>
    split at valid
    · cases valid
    · split at valid
      · next first =>
        cases valid
        exact ⟨not_not.mp zero, first⟩
      · cases valid

namespace ReplayReachable

theorem reduceAll_of {model model' : SessionReadModel} {events : List StoredEvent}
    (reachable : ReplayReachable model) (run : reduceAll events model = .ok model') :
    ReplayReachable model' := by
  obtain ⟨sessionId, log, replayed⟩ := reachable
  obtain ⟨first, rest, started, rfl, same, valid, reduced⟩ := replay_ok_iff.mp replayed
  -- the log that replays to the later model is the earlier log and the events after it
  refine ⟨sessionId, first :: (rest ++ events), replay_ok_iff.mpr ?_⟩
  exact ⟨first, rest ++ events, started, rfl, same, valid, runAll_append.mpr ⟨model, reduced, run⟩⟩

theorem start (sessionId : SessionId) (started : SessionStarted) (timestamp : Timestamp) :
    ReplayReachable (.fromStarted sessionId started timestamp) :=
  ⟨sessionId, [⟨0, "", sessionId, none, timestamp, .sessionStarted started⟩],
    replay_ok_iff.mpr ⟨_, _, started, rfl, rfl, rfl, runAll_nil.mpr rfl⟩⟩

/-- Induction over the events of a log. -/
theorem induction {P : SessionReadModel → Prop}
    (started : ∀ sessionId started timestamp, P (.fromStarted sessionId started timestamp))
    (reduced : ∀ event model model', reduce event model = .ok model' → P model → P model')
    {model : SessionReadModel} (reachable : ReplayReachable model) : P model := by
  obtain ⟨sessionId, log, replayed⟩ := reachable
  obtain ⟨first, rest, begin, rfl, -, -, run⟩ := replay_ok_iff.mp replayed
  exact Library.runAll_invariant reduced run (started sessionId begin first.event.timestamp)

end ReplayReachable

/-! ### A small session

The concrete runs of later modules start from here. -/

def sampleStarted : SessionStarted where
  workingDir := "/work"
  modelId := "model"
  parent := none
  toolSelection := .all []
  sourceExtension := none
  initialSystemPrompt := ⟨"system", "", none, .native⟩

def sampleModel : SessionReadModel := .fromStarted "session" sampleStarted ⟨0⟩

def sampleEvent (payload : DurableEventPayload) : DurableEvent :=
  ⟨"event", "session", none, ⟨0⟩, payload⟩

def sampleTurnEvent (payload : DurableEventPayload) : DurableEvent :=
  { sampleEvent payload with turnId := some "turn" }

/-- The model after the given payloads, each taken as the next event. -/
def sampleRun (payloads : List DurableEventPayload) : SessionReadModel :=
  (numberFrom 1 (payloads.map sampleEvent)).foldl
    (fun model event => applyValidatedEvent event model) sampleModel

theorem sampleRun_reachable
    (ok : (reduceAll (numberFrom 1 (payloads.map sampleEvent)) sampleModel).isOk = true) :
    ReplayReachable (sampleRun payloads) :=
  (ReplayReachable.start "session" sampleStarted ⟨0⟩).reduceAll_of (reduceAll_eq_of_isOk ok)

/-- The same within a turn. -/
def sampleTurn (payloads : List DurableEventPayload) : SessionReadModel :=
  (numberFrom 1 (payloads.map sampleTurnEvent)).foldl
    (fun model event => applyValidatedEvent event model) sampleModel

theorem sampleTurn_reachable
    (ok : (reduceAll (numberFrom 1 (payloads.map sampleTurnEvent)) sampleModel).isOk = true) :
    ReplayReachable (sampleTurn payloads) :=
  (ReplayReachable.start "session" sampleStarted ⟨0⟩).reduceAll_of (reduceAll_eq_of_isOk ok)

end Astrcode
