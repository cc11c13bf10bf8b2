import Astrcode.Library.Lineage
import Astrcode.Projection.Summary
import Astrcode.Properties.BatchProjection
import Astrcode.Storage.Journal
import Mathlib.Data.List.AList
import Mathlib.Data.List.Sort

/-!
# All sessions of a store

`session_repo/{reader,store}.rs` from the outside: the logs of the active sessions and
of those that were recycled, by session id. A read model is what the log replays to.
Reads and writes of the file system succeed here; what a single log does when they fail
is the subject of the journal.
-/
namespace Astrcode

open Library

/-! ### Tables of logs -/

abbrev SessionTable := AList fun _ : SessionId => List StoredEvent

structure SessionRepository where
  active : SessionTable
  recycled : SessionTable

namespace SessionRepository

variable (repository : SessionRepository)

/-- The events of a log that has to be there. -/
def tableEvents (table : SessionTable) (sessionId : SessionId) :
    Except StorageError (List StoredEvent) := do
  validateStorageSessionId sessionId
  match table.lookup sessionId with
  | some events => .ok events
  | none => .error (.notFound sessionId)

def tableModel (table : SessionTable) (sessionId : SessionId) :
    Except StorageError SessionReadModel := do
  let events ← tableEvents table sessionId
  (replay sessionId events).mapError corruptProjection

def replayEvents (sessionId : SessionId) : Except StorageError (List StoredEvent) :=
  tableEvents repository.active sessionId

def sessionReadModel (sessionId : SessionId) : Except StorageError SessionReadModel :=
  tableModel repository.active sessionId

def recycledSessionReadModel (sessionId : SessionId) : Except StorageError SessionReadModel :=
  tableModel repository.recycled sessionId

/-- The active sessions, in the order of their ids. A log that cannot be decoded is passed over. -/
def listAllSessionSummaries : List SessionSummary :=
  (repository.active.keys.filterMap fun sessionId =>
    (repository.sessionReadModel sessionId).toOption.map (·.toSummary)).insertionSort
      fun left right => left.sessionId ≤ right.sessionId

/-- A child is kept below its parent, in the directory of the extension it comes from. -/
def newSessionDir (started : SessionStarted) : Except StorageError Unit :=
  match started.parent with
  | none => .ok ()
  | some parent =>
    match started.sourceExtension with
    | none => .error
        (.invalidId "child session requires source_extension to choose subagents directory")
    | some extension =>
      if parent.sessionId ∉ repository.active then .error (.notFound parent.sessionId)
      else if extension.isEmpty then .error (.invalidId "source_extension cannot be empty")
      else .ok ()

/-- `create_session`: a new log with its first event. -/
def create (event : DurableEvent) : Except StorageError SessionRepository := do
  validateStorageSessionId event.sessionId
  if event.turnId.isSome then .error (.invalidId "SessionStarted must be a session-level event")
  else match event.payload with
    | .sessionStarted started => do
      repository.newSessionDir started
      if event.sessionId ∈ repository.active then .error (.alreadyExists event.sessionId)
      else .ok { repository with active := repository.active.insert event.sessionId [⟨0, event⟩] }
    | _ => .error (.invalidId "create_session requires SessionStarted")

/-- Appends one event to the log of its session. -/
def append (event : DurableEvent) : Except StorageError SessionRepository := do
  let events ← repository.replayEvents event.sessionId
  let model ← repository.sessionReadModel event.sessionId
  let batch ← SessionMeta.prepareBatch [event] model
  return { repository with
    active := repository.active.insert event.sessionId (events ++ batch.events) }

/-! ### Reads after writes -/

variable {repository} {repository' : SessionRepository} {event : DurableEvent}
  {sessionId : SessionId} {model : SessionReadModel} {table : SessionTable}

theorem tableModel_ok_iff :
    tableModel table sessionId = .ok model ↔
      validateStorageSessionId sessionId = .ok () ∧
        ∃ events, table.lookup sessionId = some events ∧ replay sessionId events = .ok model := by
  simp only [tableModel, tableEvents, bind_ok_iff]
  constructor
  · rintro ⟨events, ⟨⟨⟩, valid, found⟩, replayed⟩
    refine ⟨valid, events, ?_, mapError_ok replayed⟩
    cases looked : table.lookup sessionId with
    | none => rw [looked] at found; cases found
    | some other => rw [looked] at found; cases found; rfl
  · rintro ⟨valid, events, looked, replayed⟩
    exact ⟨events, ⟨(), valid, by rw [looked]⟩, by rw [replayed]; rfl⟩

/-- The model of a session is the model of that id. -/
theorem tableModel_sessionId (read : tableModel table sessionId = .ok model) :
    model.identity.sessionId = sessionId := by
  obtain ⟨-, events, -, replayed⟩ := tableModel_ok_iff.mp read
  obtain ⟨first, rest, started, -, -, -, run⟩ := replay_ok_iff.mp replayed
  refine runAll_invariant (P := fun model => model.identity.sessionId = sessionId) ?_ run rfl
  intro event model model' reduced same
  exact (reduce_sessionId reduced).trans same

section

variable (created : repository.create event = .ok repository')

include created

theorem create_ok :
    validateStorageSessionId event.sessionId = .ok () ∧ event.turnId = none ∧
      event.sessionId ∉ repository.active ∧
      repository' = { repository with
        active := repository.active.insert event.sessionId [⟨0, event⟩] } := by
  obtain ⟨⟨⟩, valid, created⟩ := bind_ok_iff.mp created
  split at created
  · cases created
  · next session =>
    split at created
    · obtain ⟨⟨⟩, -, created⟩ := bind_ok_iff.mp created
      split at created
      · cases created
      · next fresh =>
        cases created
        exact ⟨valid, by simpa using session, fresh, rfl⟩
    · cases created

theorem sessionReadModel_create_other (other : sessionId ≠ event.sessionId) :
    repository'.sessionReadModel sessionId = repository.sessionReadModel sessionId := by
  obtain ⟨-, -, -, rfl⟩ := create_ok created
  simp [sessionReadModel, tableModel, tableEvents, AList.lookup_insert_ne other]

/-- A new session is what its first event says. -/
theorem sessionReadModel_create_self {started : SessionStarted}
    (first : event.payload = .sessionStarted started) :
    repository'.sessionReadModel event.sessionId =
      .ok (.fromStarted event.sessionId started event.timestamp) := by
  obtain ⟨valid, session, -, rfl⟩ := create_ok created
  refine tableModel_ok_iff.mpr ⟨valid, _, AList.lookup_insert _, replay_ok_iff.mpr ?_⟩
  refine ⟨_, [], started, rfl, rfl, ?_, rfl⟩
  simp [validateFirstEvent, session, first]

end

section

variable (appended : repository.append event = .ok repository')

include appended

theorem append_ok :
    ∃ events model batch, repository.active.lookup event.sessionId = some events ∧
      repository.sessionReadModel event.sessionId = .ok model ∧
      PreparedProjectionBatch.prepare model [event] = .ok batch ∧
      repository' = { repository with
        active := repository.active.insert event.sessionId (events ++ batch.events) } := by
  obtain ⟨events, found, appended⟩ := bind_ok_iff.mp appended
  obtain ⟨model, read, appended⟩ := bind_ok_iff.mp appended
  obtain ⟨batch, prepared, appended⟩ := bind_ok_iff.mp appended
  cases appended
  obtain ⟨⟨⟩, -, found⟩ := bind_ok_iff.mp found
  refine ⟨events, model, batch, ?_, read, mapError_ok prepared, rfl⟩
  cases looked : repository.active.lookup event.sessionId with
  | none => rw [looked] at found; cases found
  | some other => rw [looked] at found; cases found; rfl

theorem sessionReadModel_append_other (other : sessionId ≠ event.sessionId) :
    repository'.sessionReadModel sessionId = repository.sessionReadModel sessionId := by
  obtain ⟨_, _, _, -, -, -, rfl⟩ := append_ok appended
  simp [sessionReadModel, tableModel, tableEvents, AList.lookup_insert_ne other]

/-- The model after an append is the model before with the event applied. -/
theorem sessionReadModel_append_self :
    ∃ model seq, repository.sessionReadModel event.sessionId = .ok model ∧
      repository'.sessionReadModel event.sessionId = .ok (applyValidatedEvent ⟨seq, event⟩ model) := by
  obtain ⟨events, model, batch, found, read, prepared, rfl⟩ := append_ok appended
  obtain ⟨-, -, numbered, reduced⟩ := prepare_ok prepared
  obtain ⟨valid, events', found', replayed⟩ := tableModel_ok_iff.mp read
  obtain rfl := Option.some_inj.mp (found.symm.trans found')
  have applied : batch.applyToModel model =
      applyValidatedEvent ⟨model.stats.lastSeq + 1, event⟩ model := by
    simp [PreparedProjectionBatch.applyToModel, numbered]
  refine ⟨model, model.stats.lastSeq + 1, read, ?_⟩
  rw [← applied]
  refine tableModel_ok_iff.mpr ⟨valid, _, AList.lookup_insert _, replay_ok_iff.mpr ?_⟩
  obtain ⟨first, rest, started, rfl, same, checked, run⟩ := replay_ok_iff.mp replayed
  exact ⟨first, rest ++ batch.events, started, rfl, same, checked,
    runAll_append.mpr ⟨model, run, reduced⟩⟩

end

theorem mem_active_of_read (read : repository.sessionReadModel sessionId = .ok model) :
    sessionId ∈ repository.active := by
  obtain ⟨-, events, found, -⟩ := tableModel_ok_iff.mp read
  exact AList.lookup_isSome.mp (by simp [found])

/-- The listing holds the summary of every active session that can be read. -/
theorem mem_listAllSessionSummaries {summary : SessionSummary} :
    summary ∈ repository.listAllSessionSummaries ↔
      ∃ model, repository.sessionReadModel summary.sessionId = .ok model ∧
        summary = model.toSummary := by
  simp only [listAllSessionSummaries, List.mem_insertionSort, List.mem_filterMap,
    Option.map_eq_some_iff]
  constructor
  · rintro ⟨sessionId, -, model, found, rfl⟩
    have read : repository.sessionReadModel sessionId = .ok model := by
      cases result : repository.sessionReadModel sessionId with
      | error e => rw [result] at found; cases found
      | ok other => rw [result] at found; cases found; rfl
    have same : model.toSummary.sessionId = sessionId := tableModel_sessionId read
    exact ⟨model, by rw [same, read], rfl⟩
  · rintro ⟨model, read, same⟩
    refine ⟨summary.sessionId, AList.mem_keys.mp (mem_active_of_read read), model, ?_, same.symm⟩
    rw [read]
    rfl

private theorem summaryIds_sublist (sessionIds : List SessionId) :
    ((sessionIds.filterMap fun sessionId =>
      (repository.sessionReadModel sessionId).toOption.map (·.toSummary)).map (·.sessionId)).Sublist
        sessionIds := by
  induction sessionIds with
  | nil => simp
  | cons sessionId sessionIds ih =>
    rw [List.filterMap_cons]
    cases read : repository.sessionReadModel sessionId with
    | error e => exact .cons _ ih
    | ok model =>
      have same : model.toSummary.sessionId = sessionId := tableModel_sessionId read
      simp only [Except.toOption, Option.map_some, List.map_cons, same]
      exact .cons_cons _ ih

variable (repository) in
theorem nodup_listAllSessionSummaries :
    (repository.listAllSessionSummaries.map (·.sessionId)).Nodup := by
  have sorted := (List.perm_insertionSort
    (fun left right : SessionSummary => left.sessionId ≤ right.sessionId)
    (repository.active.keys.filterMap fun sessionId =>
      (repository.sessionReadModel sessionId).toOption.map (·.toSummary))).map (·.sessionId)
  exact sorted.nodup_iff.mpr ((summaryIds_sublist _).nodup repository.active.keys_nodup)

/-! ### Parents -/

variable (repository)

/-- The active sessions with their parents. -/
@[simp] def genealogy : Genealogy SessionId SessionReadModel StorageError where
  read := repository.sessionReadModel
  parent := SessionReadModel.parentSessionId
  linked := repository.active.keys
  linked_of_parent := by
    intro sessionId model _ read _
    exact AList.mem_keys.mp (mem_active_of_read read)

end SessionRepository

end Astrcode
