import Astrcode.Properties.BatchProjection
import Astrcode.Session.Turn

/-!
# What a session program appends

A program that succeeds is described by the events it appends, in order, as pairs of a
turn id and a payload (`Appends`). What the events do to the model is then a matter of the
reducer alone, one component at a time.
-/
namespace Astrcode

open List SessionModelContext

variable {session session' mid : Session} {model : SessionReadModel} {finishReason : String}
  {entries : List Entry} {cost : Nat}

open Library hiding bind_ok_iff

/-! ### Appended events -/

abbrev Entry := Option TurnId × DurableEventPayload

def StoredEvent.entry (event : StoredEvent) : Entry := (event.event.turnId, event.event.payload)

/-- The session went on with exactly these events. -/
def Appends (entries : List Entry) (session session' : Session) : Prop :=
  ∃ stored : List StoredEvent, stored.map StoredEvent.entry = entries ∧
    reduceAll stored session.model = .ok session'.model ∧
    session'.appended = session.appended ++ stored

theorem Appends.refl (session : Session) : Appends [] session session :=
  ⟨[], rfl, runAll_nil.mpr rfl, (append_nil _).symm⟩

theorem Appends.trans {first second : List Entry}
    (before : Appends first session mid) (after : Appends second mid session') :
    Appends (first ++ second) session session' := by
  obtain ⟨stored, rfl, run, appended⟩ := before
  obtain ⟨more, rfl, run', appended'⟩ := after
  refine ⟨stored ++ more, map_append, runAll_append.mpr ⟨_, run, run'⟩, ?_⟩
  rw [appended', appended, append_assoc]

/-- The entries can be appended in two parts. -/
theorem Appends.split {first second : List Entry}
    (appends : Appends (first ++ second) session session') :
    ∃ mid, Appends first session mid ∧ Appends second mid session' := by
  obtain ⟨stored, entries, run, appended⟩ := appends
  obtain ⟨before, after, rfl, rfl, rfl⟩ := map_eq_append_iff.mp entries
  obtain ⟨model, run, run'⟩ := runAll_append.mp run
  refine ⟨⟨model, 0, session.appended ++ before⟩, ⟨before, rfl, run, rfl⟩, after, rfl, run', ?_⟩
  rw [appended, append_assoc]

theorem Appends.lastSeq (appends : Appends entries session session') :
    session'.model.stats.lastSeq = session.model.stats.lastSeq + entries.length := by
  obtain ⟨stored, rfl, run, -⟩ := appends
  rw [reduceAll_lastSeq run, length_map]

section Programs

variable {journal : SessionJournal} {session session' : Session} {turnId : Option TurnId}
  {payload : DurableEventPayload}

theorem emitDurable_ok {stored : StoredEvent}
    (done : emitDurable journal turnId payload session = (.ok stored, session')) :
    Appends [(turnId, payload)] session session' := by
  simp only [emitDurable] at done
  split at done
  · cases done
  · split at done
    · cases done
    · next batch prepared =>
      obtain ⟨-, -, numbered, run⟩ := prepare_ok (mapError_ok prepared)
      cases done
      refine ⟨batch.events, ?_, run, rfl⟩
      rw [numbered]
      rfl

theorem syncDurableEvents_ok (done : Session.syncDurableEvents journal session = (.ok (), session')) :
    Appends [] session session' := by
  simp only [Session.syncDurableEvents] at done
  split at done
  · cases done
  · cases done
    exact .refl _

theorem readModel_bind {ε α : Type} (rest : SessionReadModel → Program ε Session α) :
    (readModel >>= rest) session = rest session.model session :=
  rfl

/-- Drops the stored event an emission returns. -/
theorem emit_ok
    (done : (emitDurable journal turnId payload >>= fun _ => pure ()) session = (.ok (), session')) :
    Appends [(turnId, payload)] session session' := by
  obtain ⟨stored, mid, emitted, rest⟩ := Program.bind_ok_iff.mp done
  obtain ⟨-, rfl⟩ := Program.pure_ok_iff.mp rest
  exact emitDurable_ok emitted

theorem emitTurnAbortedContext_ok
    (done : emitTurnAbortedContext journal turnId session = (.ok (), session')) :
    Appends [(turnId, .turnAbortedContext)] session session' :=
  emit_ok done

theorem emitTurnCompleted_ok {turn : TurnId}
    (done : emitTurnCompleted journal turn finishReason session = (.ok (), session')) :
    session.model.toolCallsNeedingInterruption = [] ∧
      Appends [(some turn, .turnCompleted finishReason)] session session' := by
  rw [emitTurnCompleted, readModel_bind] at done
  split at done
  · cases done
  · next settled => exact ⟨by simpa using settled, emit_ok done⟩

end Programs

/-! ### Operations and failures -/

/-- From one session to a later one: at most `cost` operations were tried, and no more events
appended than operations. -/
structure Within (cost : Nat) (session session' : Session) : Prop where
  later : session.operations ≤ session'.operations
  bounded : session'.operations ≤ session.operations + cost
  pace : session'.model.stats.lastSeq + session.operations ≤
    session.model.stats.lastSeq + session'.operations

theorem Within.refl (session : Session) : Within 0 session session :=
  ⟨Nat.le_refl _, Nat.le_refl _, Nat.le_refl _⟩

theorem Within.trans {first second : Nat} (before : Within first session mid)
    (after : Within second mid session') :
    Within (first + second) session session' := by
  obtain ⟨later, bounded, pace⟩ := before
  obtain ⟨later', bounded', pace'⟩ := after
  exact ⟨by omega, by omega, by omega⟩

theorem Within.mono {more : Nat} (within : Within cost session session') (less : cost ≤ more) :
    Within more session session' :=
  ⟨within.later, by have := within.bounded; omega, within.pace⟩

/-- The last operation tried failed, or there was no sequence number left. -/
def Blamed (journal : SessionJournal) (session session' : Session) : Prop :=
  ∃ n, session.operations ≤ n ∧ session'.operations = n + 1 ∧
    (journal.outcome n ≠ none ∨ u64Limit ≤ session'.model.stats.lastSeq + 1)

theorem Blamed.earlier {journal : SessionJournal}
    (blamed : Blamed journal mid session') (before : Within cost session mid) :
    Blamed journal session session' := by
  obtain ⟨n, later, last, cause⟩ := blamed
  exact ⟨n, Nat.le_trans before.later later, last, cause⟩

/-- A session program from `P`: it ends in `Q`, or fails in the journal and leaves `E`. -/
def Leads (journal : SessionJournal) (cost : Nat) (P Q E : Session → Prop) {ε α : Type}
    (x : Program ε Session α) : Prop :=
  ∀ session, P session → Within cost session (x session).2 ∧
    (∀ a, (x session).1 = .ok a → Q (x session).2) ∧
    ∀ e, (x session).1 = .error e → E (x session).2 ∧ Blamed journal session (x session).2

namespace Leads

variable {ε α β : Type} {x : Program ε Session α} {journal : SessionJournal}
  {P Q R E : Session → Prop}

theorem of_pure (a : α) : Leads journal 0 Q Q E (pure a : Program ε Session α) :=
  fun session held => ⟨.refl session, fun _ _ => held, fun _ failed => nomatch failed⟩

theorem bind {first second : Nat} {f : α → Program ε Session β}
    (leads : Leads journal first P Q E x) (rest : ∀ a, Leads journal second Q R E (f a)) :
    Leads journal (first + second) P R E (x >>= f) := by
  intro session held
  obtain ⟨within, ended, failed⟩ := leads session held
  simp only [Bind.bind]
  cases step : x session with
  | mk result mid =>
    rw [step] at within ended failed
    cases result with
    | error e =>
      refine ⟨within.mono (Nat.le_add_right _ _), ?_, fun _ _ => failed e rfl⟩
      intro _ ok
      cases ok
    | ok a =>
      -- a failure of the rest is blamed on an operation after the first part
      obtain ⟨more, ended', failed'⟩ := rest a mid (ended a rfl)
      exact ⟨within.trans more, ended',
        fun e error => ⟨(failed' e error).1, (failed' e error).2.earlier within⟩⟩

theorem mapError {δ : Type} {f : ε → δ}
    (leads : Leads journal cost P Q E x) : Leads journal cost P Q E (Program.mapError f x) := by
  intro session held
  obtain ⟨within, ended, failed⟩ := leads session held
  simp only [Program.mapError]
  cases step : x session with
  | mk result mid =>
    rw [step] at within ended failed
    cases result with
    | error e =>
      refine ⟨within, ?_, fun _ _ => failed e rfl⟩
      intro _ ok
      cases ok
    | ok a =>
      refine ⟨within, fun _ _ => ended a rfl, ?_⟩
      intro _ error
      cases error

theorem mono {more : Nat} (leads : Leads journal cost P Q E x) (less : cost ≤ more) :
    Leads journal more P Q E x :=
  fun session held => ⟨(leads session held).1.mono less, (leads session held).2⟩

end Leads

/-- Nothing but its place in the log can be wrong with such an event. -/
def Plain (payload : DurableEventPayload) : Prop :=
  payload.isSessionStarted = false ∧ payload.isGlobalCustomEvent = false ∧
    payload.rewriteSource? = none

section Operations

variable {payload : DurableEventPayload} {journal : SessionJournal} {turnId : Option TurnId}

private theorem prepareBatch_plain {event : DurableEvent}
    (plain : Plain event.payload) (own : event.sessionId = model.identity.sessionId)
    (room : model.stats.lastSeq + 1 < u64Limit) :
    ∃ batch, SessionMeta.prepareBatch [event] model = .ok batch := by
  obtain ⟨notStarted, audience, noRewrite⟩ := plain
  -- all the checks a plain event has to pass, the last of them the room for its number
  have next : NextEvent (model.stats.lastSeq + 1) event model.identity.sessionId
      model.stats.lastSeq := by
    refine ⟨own, notStarted, audience, ?_, room, rfl⟩
    intro sourceSeq source
    rw [noRewrite] at source
    cases source
  have matching : RewriteMatches event.payload model.systemPrompt.text
      model.modelContext.messages := by
    rintro sourceSeq expected rewritten reason same
    rw [same] at noRewrite
    cases noRewrite
  have reduced : reduceAll (numberFrom (model.stats.lastSeq + 1) [event]) model =
      .ok (applyValidatedEvent ⟨model.stats.lastSeq + 1, event⟩ model) :=
    runAll_cons.mpr ⟨_, reduce_ok_iff.mpr ⟨next, matching, rfl⟩, runAll_nil.mpr rfl⟩
  rw [SessionMeta.prepareBatch, prepare_eq model [event] (by simp) room, reduced]
  exact ⟨_, rfl⟩

/-- A refused event changes nothing but the number of operations tried. -/
theorem emitDurable_error {session session' : Session} {e : SessionError} (plain : Plain payload)
    (done : emitDurable journal turnId payload session = (.error e, session')) :
    session' = { session with operations := session.operations + 1 } ∧
      (journal.outcome session.operations ≠ none ∨
        u64Limit ≤ session.model.stats.lastSeq + 1) := by
  simp only [emitDurable] at done
  split at done
  · next reason failed =>
    cases done
    exact ⟨rfl, .inl (by simp [failed])⟩
  · split at done
    · next reason refused =>
      cases done
      -- refused without a failure of the journal: only the number can have been the reason
      refine ⟨rfl, .inr (Nat.le_of_not_lt fun room => ?_)⟩
      let event : DurableEvent := ⟨(journal.stamp session.operations).1,
        session.model.identity.sessionId, turnId, (journal.stamp session.operations).2, payload⟩
      have accepted : ∃ batch, SessionMeta.prepareBatch [event] session.model = .ok batch :=
        prepareBatch_plain plain rfl room
      obtain ⟨batch, prepared⟩ := accepted
      rw [prepared] at refused
      cases refused
    · cases done

private theorem emitDurable_operations (session : Session) :
    (emitDurable journal turnId payload session).2.operations = session.operations + 1 := by
  simp only [emitDurable]
  split
  · rfl
  · split <;> rfl

theorem syncDurableEvents_ran (session : Session) :
    Within 1 session (Session.syncDurableEvents journal session).2 ∧
      ∀ e, (Session.syncDurableEvents journal session).1 = .error e →
        Blamed journal session (Session.syncDurableEvents journal session).2 := by
  simp only [Session.syncDurableEvents]
  split
  · next reason failed =>
    exact ⟨⟨by simp, by simp, by simp⟩,
      fun _ _ => ⟨_, Nat.le_refl _, rfl, .inl (by simp [failed])⟩⟩
  · refine ⟨⟨by simp, by simp, by simp⟩, ?_⟩
    rintro _ ⟨⟩

/-- A program that appends the entries one by one, up to the first that is refused. -/
def Sends (journal : SessionJournal) (entries : List Entry) {ε α : Type}
    (x : Program ε Session α) (session : Session) : Prop :=
  ∃ sent rest, entries = sent ++ rest ∧ Appends sent session (x session).2 ∧
    ((∃ a, (x session).1 = .ok a) ∧ rest = [] ∧
        (x session).2.operations = session.operations + sent.length ∨
      (∃ e, (x session).1 = .error e) ∧ rest ≠ [] ∧
        (x session).2.operations = session.operations + sent.length + 1 ∧
        (journal.outcome (session.operations + sent.length) ≠ none ∨
          u64Limit ≤ (x session).2.model.stats.lastSeq + 1))

namespace Sends

variable {ε δ α β : Type} {entries first second : List Entry} {x : Program ε Session α}

theorem of_pure (a : α) : Sends journal [] (pure a : Program ε Session α) session :=
  ⟨[], [], rfl, .refl session, .inl ⟨⟨a, rfl⟩, rfl, rfl⟩⟩

theorem bind {f : α → Program ε Session β} (head : Sends journal first x session)
    (tail : ∀ a mid, x session = (.ok a, mid) → Appends first session mid →
      Sends journal second (f a) mid) : Sends journal (first ++ second) (x >>= f) session := by
  obtain ⟨sent, rest, rfl, appends, outcome⟩ := head
  rw [Sends]
  cases step : x session with
  | mk result mid =>
    simp only [step] at appends outcome
    rcases outcome with ⟨⟨a, rfl⟩, rfl, tried⟩ | ⟨⟨e, rfl⟩, refused, tried, cause⟩
    · rw [append_nil] at tail ⊢
      obtain ⟨sent', rest', rfl, more, outcome⟩ := tail a mid step appends
      rw [Program.bind_eq step]
      rw [tried, Nat.add_assoc, ← length_append] at outcome
      exact ⟨sent ++ sent', rest', (append_assoc ..).symm, appends.trans more, outcome⟩
    · rw [Program.bind_error step]
      exact ⟨sent, rest ++ second, append_assoc .., appends,
        .inr ⟨⟨e, rfl⟩, by simp [refused], tried, cause⟩⟩

theorem mapError {f : ε → δ} (sends : Sends journal entries x session) :
    Sends journal entries (Program.mapError f x) session := by
  obtain ⟨sent, rest, split, appends, outcome⟩ := sends
  refine ⟨sent, rest, split, ?_⟩
  rw [Program.mapError_snd]
  refine ⟨appends, outcome.imp (And.imp_left ?_) (And.imp_left ?_)⟩
  · rintro ⟨a, ok⟩
    exact ⟨a, congrArg Prod.fst (Program.mapError_ok_iff.mpr (Prod.ext ok rfl))⟩
  · rintro ⟨e, failed⟩
    exact ⟨f e, congrArg Prod.fst (Program.mapError_error (Prod.ext failed rfl))⟩

theorem when {x : Program ε Session Unit} (sends : Sends journal entries x session)
    (condition : Bool) :
    Sends journal (if condition then entries else []) (Program.when condition x) session := by
  cases condition with
  | true => exact sends
  | false => exact .of_pure ()

theorem forEach {body : α → Program ε Session Unit} {entry : α → Entry}
    (each : ∀ a session, Sends journal [entry a] (body a) session) (as : List α)
    (session : Session) : Sends journal (as.map entry) (Program.forEach body as) session := by
  induction as generalizing session with
  | nil => exact .of_pure ()
  | cons a as ih => exact (each a session).bind fun _ mid _ _ => ih mid

/-- A program that succeeds has appended all entries. -/
theorem ok {a : α} (sends : Sends journal entries x session)
    (done : x session = (.ok a, session')) : Appends entries session session' := by
  obtain ⟨sent, rest, rfl, appends, ⟨-, rfl, -⟩ | ⟨⟨e, failed⟩, -⟩⟩ := sends
  · rw [done] at appends
    rwa [append_nil]
  · rw [done] at failed
    cases failed

theorem ran {result : Except ε α} (sends : Sends journal entries x session)
    (run : x session = (result, session')) :
    Within entries.length session session' ∧
      ∀ e, result = .error e → Blamed journal session session' := by
  obtain ⟨sent, rest, rfl, appends, outcome⟩ := sends
  simp only [run] at appends outcome
  have counted := appends.lastSeq
  rw [length_append]
  rcases outcome with ⟨⟨a, rfl⟩, -, tried⟩ | ⟨-, refused, tried, cause⟩
  · refine ⟨⟨by omega, by omega, by omega⟩, ?_⟩
    rintro _ ⟨⟩
  · have some := length_pos_iff.mpr refused
    exact ⟨⟨by omega, by omega, by omega⟩, fun _ _ => ⟨_, Nat.le_add_right _ _, tried, cause⟩⟩

end Sends

theorem emitDurable_sends (plain : Plain payload) (session : Session) :
    Sends journal [(turnId, payload)] (emitDurable journal turnId payload) session := by
  rw [Sends]
  have operations := @emitDurable_operations payload journal turnId session
  cases done : emitDurable journal turnId payload session with
  | mk result session' =>
    rw [done] at operations
    cases result with
    | ok stored =>
      exact ⟨_, [], rfl, emitDurable_ok done, .inl ⟨⟨stored, rfl⟩, rfl, operations⟩⟩
    | error e =>
      obtain ⟨rfl, cause⟩ := emitDurable_error plain done
      exact ⟨[], _, rfl, .refl session, .inr ⟨⟨e, rfl⟩, cons_ne_nil _ _, operations, cause⟩⟩

theorem emit_sends (plain : Plain payload) (session : Session) :
    Sends journal [(turnId, payload)] (emitDurable journal turnId payload >>= fun _ => pure ())
      session :=
  (emitDurable_sends plain session).bind fun _ _ _ _ => .of_pure ()

/-- The entries that answer the given calls. -/
def answers (turnId : Option TurnId) (outcome : InterruptedToolOutcome)
    (calls : List UnansweredToolCall) : List Entry :=
  calls.map fun call => (turnId, interruptedPayload outcome call)

theorem emitInterruptedToolResults_sends (state : SessionReadModel)
    (outcome : InterruptedToolOutcome) (session : Session) :
    Sends journal (answers turnId outcome state.toolCallsNeedingInterruption)
      (emitInterruptedToolResults journal state turnId outcome) session := by
  rw [← append_nil (answers ..)]
  refine (Sends.forEach (fun call session => emit_sends ?_ session) _ session).bind
    fun _ _ _ _ => .of_pure _
  cases outcome <;> exact ⟨rfl, rfl, rfl⟩

theorem emitInterruptedToolResults_ok {state : SessionReadModel}
    {outcome : InterruptedToolOutcome} {count : Nat}
    (done : emitInterruptedToolResults journal state turnId outcome session =
      (.ok count, session')) :
    count = state.toolCallsNeedingInterruption.length ∧
      Appends (answers turnId outcome state.toolCallsNeedingInterruption) session session' := by
  obtain ⟨_, _, -, rest⟩ := Program.bind_ok_iff.mp done
  exact ⟨(Program.pure_ok_iff.mp rest).1,
    (emitInterruptedToolResults_sends state outcome session).ok done⟩

end Operations

/-! ### Appended events and the model -/

section Model

variable {session session' : Session} {α : Type} {entry : α → Entry} {as : List α}

/-- What one of the events does to a part of the model, the events do in order. -/
theorem Appends.view {τ : Type} (view : SessionReadModel → τ) {act : α → τ → τ}
    (step : ∀ a, ∀ event : StoredEvent, event.entry = entry a → ∀ model,
      view (applyValidatedEvent event model) = act a (view model))
    (appends : Appends (as.map entry) session session') :
    view session'.model = as.foldl (fun t a => act a t) (view session.model) := by
  obtain ⟨stored, entries, run, -⟩ := appends
  rw [reduceAll_eq_foldl run]
  generalize session.model = before
  clear run
  -- over the entries; the stored events follow them one by one
  induction as generalizing stored before with
  | nil =>
    obtain rfl : stored = [] := by simpa using entries
    rfl
  | cons a as ih =>
    obtain ⟨event, rest, rfl, same, entries⟩ := map_eq_cons_iff.mp entries
    rw [foldl_cons, foldl_cons, ← step a event same before]
    exact ih rest entries _

/-- A part of the model that none of the events touches stays. -/
theorem Appends.frame {τ : Type} (view : SessionReadModel → τ)
    (step : ∀ event : StoredEvent, event.entry ∈ entries → ∀ model,
      view (applyValidatedEvent event model) = view model)
    (appends : Appends entries session session') : view session'.model = view session.model := by
  obtain ⟨stored, rfl, run, -⟩ := appends
  rw [reduceAll_eq_foldl run]
  generalize session.model = before
  clear run
  induction stored generalizing before with
  | nil => rfl
  | cons event stored ih =>
    rw [← step event (by simp) before]
    exact ih (fun later member => step later (mem_cons_of_mem _ member)) _

theorem appends_single {e : Entry} (appends : Appends [e] session session') :
    ∃ event : StoredEvent, event.entry = e ∧
      session'.model = applyValidatedEvent event session.model := by
  obtain ⟨stored, entries, run, -⟩ := appends
  obtain ⟨event, rfl, same⟩ := map_eq_singleton_iff.mp entries
  exact ⟨event, same, reduceAll_eq_foldl run⟩

/-- Events that each add one message add them in order. -/
theorem Appends.messages {message : α → LlmMessage}
    (step : ∀ a, ∀ event : StoredEvent, event.entry = entry a → ∀ messages,
      ∃ m, applyProviderMessages event messages = messages ++ [m] ∧ m.message = message a)
    (appends : Appends (as.map entry) session session') :
    ∃ added, session'.model.modelContext.messages = session.model.modelContext.messages ++ added ∧
      added.map (·.message) = as.map message := by
  obtain ⟨stored, entries, run, -⟩ := appends
  rw [reduceAll_eq_foldl run]
  generalize session.model = before
  clear run
  induction as generalizing stored before with
  | nil =>
    obtain rfl : stored = [] := by simpa using entries
    exact ⟨[], (append_nil _).symm, rfl⟩
  | cons a as ih =>
    obtain ⟨event, rest, rfl, same, entries⟩ := map_eq_cons_iff.mp entries
    obtain ⟨m, one, isMessage⟩ := step a event same before.modelContext.messages
    obtain ⟨added, more, texts⟩ := ih rest entries (applyValidatedEvent event before)
    refine ⟨m :: added, ?_, by simp [isMessage, texts]⟩
    have first : (applyValidatedEvent event before).modelContext.messages =
        before.modelContext.messages ++ [m] := one
    rw [first] at more
    rw [append_cons]
    exact more

end Model

/-! ### Calls left without a result -/

/-- Leaving out ids before or after the first call with each id is chosen makes no difference. -/
theorem firstOfEach_filter {ids seen seen' : List String} (calls : List UnansweredToolCall)
    (same : ∀ id ∉ ids, id ∈ seen' ↔ id ∈ seen) :
    firstOfEach seen' (calls.filter (·.callId ∉ ids)) =
      (firstOfEach seen calls).filter (·.callId ∉ ids) := by
  induction calls generalizing seen seen' with
  | nil => rfl
  | cons call calls ih =>
    by_cases out : call.callId ∈ ids
    · by_cases known : call.callId ∈ seen
      · simpa [out, known] using ih same
      · -- a call that is left out in the end still counts as seen
        have later : ∀ id ∉ ids, id ∈ seen' ↔ id ∈ call.callId :: seen := by
          intro id other
          have different : id ≠ call.callId := fun equal => other (equal ▸ out)
          simp [same id other, different]
        simpa [out, known] using ih later
    · by_cases known : call.callId ∈ seen
      · simpa [out, known, same _ out] using ih same
      · have later : ∀ id ∉ ids, id ∈ call.callId :: seen' ↔ id ∈ call.callId :: seen := by
          intro id other
          simp [same id other]
        simpa [out, known, same _ out] using ih later

/-- Nothing needs an answer exactly when no pending call stands in the transcript and the last
round of calls is answered. -/
theorem toolCallsNeedingInterruption_eq_nil_iff :
    model.toolCallsNeedingInterruption = [] ↔
      model.modelContext.requestedToolCalls model.execution.pendingToolCalls = [] ∧
        model.modelContext.tailUnansweredToolCalls = [] := by
  simp only [SessionReadModel.toolCallsNeedingInterruption, append_eq_nil_iff]
  constructor
  · rintro ⟨requested, tail⟩
    refine ⟨requested, ?_⟩
    rw [requested] at tail
    cases found : model.modelContext.tailUnansweredToolCalls with
    | nil => rfl
    | cons call calls =>
      rw [found] at tail
      simp at tail
  · rintro ⟨requested, tail⟩
    simp [requested, tail]

theorem requestedToolCalls_nil (context : SessionModelContext) :
    context.requestedToolCalls [] = [] := by
  simp [requestedToolCalls]

private theorem lastToolCallMessage_plain {messages : List SequencedLlmMessage}
    (plain : ∀ m ∈ messages, m.message.hasToolCalls = false) :
    lastToolCallMessage messages = none := by
  induction messages with
  | nil => rfl
  | cons m messages ih =>
    obtain ⟨head, tail⟩ := forall_mem_cons.mp plain
    simp [lastToolCallMessage, ih tail, head]

theorem lastToolCallMessage_append (messages : List SequencedLlmMessage)
    {added : List SequencedLlmMessage} (plain : ∀ m ∈ added, m.message.hasToolCalls = false) :
    lastToolCallMessage (messages ++ added) =
      (lastToolCallMessage messages).map fun found =>
        (found.1, found.2 ++ added) := by
  induction messages with
  | nil => simp [lastToolCallMessage, lastToolCallMessage_plain plain]
  -- a later message with calls stays the last one, as nothing appended has calls
  | cons m messages ih =>
    simp only [cons_append, lastToolCallMessage, ih]
    cases lastToolCallMessage messages with
    | some found => rfl
    | none =>
      simp only [Option.map_none]
      split <;> rfl

/-- Text after the last round closes it. -/
theorem tailUnansweredToolCalls_closed {context : SessionModelContext}
    {messages : List SequencedLlmMessage} {m : SequencedLlmMessage}
    (ends : context.messages = messages ++ [m]) (text : m.message.role = .user) :
    context.tailUnansweredToolCalls = [] := by
  have plain : ∀ added ∈ [m], added.message.hasToolCalls = false := by
    simp [LlmMessage.hasToolCalls, text]
  simp only [tailUnansweredToolCalls, ends, lastToolCallMessage_append _ plain]
  cases lastToolCallMessage messages with
  | none => rfl
  -- text in the tail: the round is closed whatever its results are
  | some found => simp [text]

/-! ### Answered tool calls -/

section Answers

variable {session session' : Session} {turnId : Option TurnId} {outcome : InterruptedToolOutcome}
  {calls : List UnansweredToolCall}
  (appends : Appends (answers turnId outcome calls) session session')

include appends

theorem answers_execution :
    session'.model.execution =
      calls.foldl (fun execution call => Execution.removeCall call.callId execution)
        session.model.execution := by
  refine appends.view SessionReadModel.execution ?_
  intro call event same model
  obtain ⟨-, payload⟩ := Prod.mk.inj same
  cases outcome <;>
    simp [Execution.applyEvent, payload]

/-- An answered call leaves the turn under way. -/
theorem answers_phase (some : calls ≠ []) :
    session'.model.execution.phase = .thinking ∨ session'.model.execution.phase = .callingTool := by
  rw [answers_execution appends]
  -- the last answer decides
  induction calls using reverseRecOn with
  | nil => contradiction
  | append_singleton calls last _ =>
    rw [foldl_append]
    simp only [foldl_cons, foldl_nil, Execution.removeCall]
    split
    · exact .inl rfl
    · exact .inr rfl

theorem answers_agentSessions : session'.model.agentSessions = session.model.agentSessions := by
  refine appends.frame SessionReadModel.agentSessions ?_
  intro event member model
  obtain ⟨call, -, same⟩ := mem_map.mp member
  obtain ⟨-, payload⟩ := Prod.mk.inj same
  cases outcome <;> simp [Agents.applyEvent, ← payload]

end Answers

/-! ### The end of a turn -/

section TurnEnd

variable {session session' : Session} {turnId : Option TurnId}

theorem assistantToolCalls_append {messages added : List SequencedLlmMessage}
    (others : ∀ m ∈ added, m.message.role ≠ .assistant) :
    assistantToolCalls (messages ++ added) =
      assistantToolCalls messages := by
  unfold assistantToolCalls
  rw [flatMap_append, append_right_eq_self, flatMap_eq_nil_iff]
  intro m member
  rw [if_neg (others m member)]

/-- The context of an aborted turn closes the last round and asks for nothing. -/
theorem turnAbortedContext_closes
    (appends : Appends [(turnId, .turnAbortedContext)] session session') :
    session'.model.modelContext.tailUnansweredToolCalls = [] ∧
      assistantToolCalls session'.model.modelContext.messages =
        assistantToolCalls session.model.modelContext.messages ∧
      session'.model.execution = session.model.execution ∧
      session'.model.agentSessions = session.model.agentSessions := by
  obtain ⟨event, same, model⟩ := appends_single appends
  obtain ⟨-, payload⟩ := Prod.mk.inj same
  rw [model]
  have messages : (applyValidatedEvent event session.model).modelContext.messages =
      session.model.modelContext.messages ++
        [⟨turnAbortedContextMessage, event.seq, some .turnAborted⟩] := by
    simp [ModelContext.applyEvent, payload]
  refine ⟨tailUnansweredToolCalls_closed messages rfl, ?_, ?_, ?_⟩
  · rw [messages]
    exact assistantToolCalls_append (by simp [turnAbortedContextMessage, LlmMessage.user])
  · simp [Execution.applyEvent, payload]
  · simp [Agents.applyEvent, payload]

/-- A completion under no turn id, or under that of the unsettled turn, settles the turn. -/
theorem turnCompleted_settles
    (appends : Appends [(turnId, .turnCompleted finishReason)] session session')
    (own : turnId = none ∨ turnId = session.model.execution.unsettledTurnId)
    (tail : session.model.modelContext.tailUnansweredToolCalls = []) :
    session'.model.execution = Execution.settle session.model.execution .idle ∧
      session'.model.toolCallsNeedingInterruption = [] ∧
      session'.model.agentSessions = session.model.agentSessions := by
  obtain ⟨event, same, model⟩ := appends_single appends
  obtain ⟨turn, payload⟩ := Prod.mk.inj same
  have execution : session'.model.execution = Execution.settle session.model.execution .idle := by
    rw [model]
    -- the two ways a completion can be meant for the unsettled turn
    rcases own with rfl | own
    · simp [Execution.applyEvent, payload, turn]
    · simp [Execution.applyEvent, payload, turn, own]
  have kept : session'.model.modelContext.tailUnansweredToolCalls =
      session.model.modelContext.tailUnansweredToolCalls := by
    rw [model]
    simp [ModelContext.applyEvent, payload, tailUnansweredToolCalls]
  refine ⟨execution, ?_, ?_⟩
  · rw [toolCallsNeedingInterruption_eq_nil_iff, kept, execution]
    exact ⟨requestedToolCalls_nil _, tail⟩
  · rw [model]
    simp [Agents.applyEvent, payload]

end TurnEnd

/-- A journal whose first operations fail, for the concrete runs of later modules. -/
def sampleJournal (failures : Nat) : SessionJournal where
  stamp _ := ("event", ⟨1⟩)
  files n := if n < failures then some (.io "disk full") else none
  begun _ := false

end Astrcode
