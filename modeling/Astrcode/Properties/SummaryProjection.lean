import Astrcode.Projection.Reachable
import Astrcode.Projection.Summary

/-!
# The summary projection refines the reducer

A projection of the summary follows a read model when it agrees with it on all that it keeps.
Every event that the reducer accepts keeps the two together, so that a log which replays has the
summary of its read model. The summary projection checks less than the reducer, and may accept
more.
-/
namespace Astrcode

open Library (runAll_cons runAll_nil)

namespace SessionSummaryProjection

variable {model model' : SessionReadModel} {projection : SessionSummaryProjection}
  {events : List StoredEvent}

/-- The projection agrees with the read model. -/
structure Follows (projection : SessionSummaryProjection) (model : SessionReadModel) : Prop where
  sessionId : projection.sessionId = model.identity.sessionId
  summary : projection.summary = some model.toSummary
  execution : projection.execution = model.execution
  lastSeq : projection.lastSeq = model.stats.lastSeq

theorem identityAfter_summary (event : StoredEvent) (identity : SessionIdentity) :
    (identityAfter event identity).workingDir = identity.workingDir ∧
      (identityAfter event identity).parent = identity.parent ∧
      (identityAfter event identity).sourceExtension = identity.sourceExtension := by
  rw [identityAfter]
  split <;> exact ⟨rfl, rfl, rfl⟩

/-- The short way and the long way to the summary after an event. -/
theorem summaryAfter_toSummary (event : StoredEvent) (model : SessionReadModel) :
    summaryAfter event (Execution.applyEvent event model.execution) model.toSummary =
      (applyValidatedEvent event model).toSummary := by
  obtain ⟨workingDir, parent, extension⟩ := identityAfter_summary event model.identity
  simp only [SessionReadModel.toSummary, SessionReadModel.parentSessionId, SessionReadModel.cursor,
    applyValidatedEvent, identityAfter_sessionId, workingDir, parent, extension]
  cases payload : event.event.payload with
  | userMessage messageId text attachments acceptedSeq =>
    -- only the first message of the user is kept
    cases first : model.presentation.firstUserMessage <;>
      simp [summaryAfter, identityAfter, Presentation.applyEvent, payload, first]
  | _ => simp [summaryAfter, identityAfter, Presentation.applyEvent, payload]

theorem Follows.reduce {event : StoredEvent} (follows : Follows projection model)
    (accepted : reduce event model = .ok model') :
    ∃ projection', apply event projection = .ok projection' ∧ Follows projection' model' := by
  obtain ⟨next, -, rfl⟩ := reduce_ok_iff.mp accepted
  have checked := validateNextEventDetails_ok_iff.mpr next
  rw [← follows.sessionId, ← follows.lastSeq] at checked
  have own : event.event.sessionId = projection.sessionId := by
    rw [follows.sessionId]
    exact next.session
  let model' := applyValidatedEvent event model
  refine ⟨⟨projection.sessionId, some model'.toSummary, model'.execution, event.seq⟩, ?_, ?_⟩
  · rw [apply, if_neg (not_not.mpr own), follows.summary]
    simp only [checked, follows.execution, summaryAfter_toSummary]
    rfl
  · refine ⟨?_, rfl, rfl, rfl⟩
    rw [applyValidatedEvent_sessionId]
    exact follows.sessionId

theorem Follows.reduceAll (follows : Follows projection model)
    (accepted : reduceAll events model = .ok model') :
    ∃ projection', Library.runAll apply events projection = .ok projection' ∧
      Follows projection' model' := by
  induction events generalizing projection model with
  | nil =>
    rw [runAll_nil.mp accepted]
    exact ⟨projection, rfl, follows⟩
  | cons event events ih =>
    obtain ⟨mid, first, rest⟩ := runAll_cons.mp accepted
    obtain ⟨next, applied, follows'⟩ := follows.reduce first
    obtain ⟨last, run, followsLast⟩ := ih follows' rest
    exact ⟨last, runAll_cons.mpr ⟨next, applied, run⟩, followsLast⟩

/-- A log that replays is accepted by the summary projection, event by event. -/
theorem replayed {sessionId : SessionId} (accepted : replay sessionId events = .ok model) :
    ∃ projection, Library.runAll apply events (new sessionId) = .ok projection ∧
      Follows projection model := by
  obtain ⟨first, rest, started, rfl, own, valid, reduced⟩ := replay_ok_iff.mp accepted
  let model := SessionReadModel.fromStarted sessionId started first.event.timestamp
  have opened : apply first (new sessionId) =
      .ok ⟨sessionId, some model.toSummary, .default, first.seq⟩ := by
    rw [apply, new, if_neg (not_not.mpr own)]
    simp only [valid]
    rfl
  have follows : Follows ⟨sessionId, some model.toSummary, .default, first.seq⟩ model :=
    ⟨rfl, rfl, rfl, (validateFirstEvent_ok valid).1⟩
  obtain ⟨projection, run, follows'⟩ := follows.reduceAll reduced
  exact ⟨projection, runAll_cons.mpr ⟨_, opened, run⟩, follows'⟩

/-- Whenever a log replays, the summary projection accepts each of its events and ends with the
summary of the read model. What the summary projection refuses does not replay. -/
theorem summary_refines_replay (sessionId : SessionId) (events : List StoredEvent) :
    (∀ model, replay sessionId events = .ok model →
      ∃ projection, Library.runAll apply events (new sessionId) = .ok projection ∧
        projection.snapshot = .ok model.toSummary) ∧
    (∀ error, Library.runAll apply events (new sessionId) = .error error →
      ∃ refusal, replay sessionId events = .error refusal) := by
  constructor
  · intro model accepted
    obtain ⟨projection, run, follows⟩ := replayed accepted
    refine ⟨projection, run, ?_⟩
    rw [snapshot, follows.summary]
  · intro error refused
    cases accepted : replay sessionId events with
    | error refusal => exact ⟨refusal, rfl⟩
    | ok model =>
      obtain ⟨projection, run, -⟩ := replayed accepted
      exact nomatch refused.symm.trans run

theorem sample_summary_agrees :
    ∃ projection, Library.runAll apply [⟨0, sampleEvent (.sessionStarted sampleStarted)⟩,
        ⟨1, sampleEvent (.recapGenerated "text" "manual")⟩] (new "session") = .ok projection ∧
      projection.snapshot =
        .ok (sampleRun [.recapGenerated "text" "manual"]).toSummary :=
  (summary_refines_replay "session" _).1 _ (by decide +kernel)

end SessionSummaryProjection

end Astrcode
