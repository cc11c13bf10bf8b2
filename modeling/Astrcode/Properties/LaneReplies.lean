import Astrcode.Properties.LaneOrder
import Mathlib.Data.List.Perm.Lattice

/-!
# Every command of a lane gets its reply

The channel is first in, first out, so that what the lane has accepted is what the task has come
to, the command it has put aside and what is still in the channel. Taking `Shutdown` closes the
channel; what is in it by then is still processed, and only then comes the reply to `Shutdown`.
-/
namespace Astrcode

open List

namespace EventLane

variable {request : LaneRequest}

/-- The tickets of the batch that is being collected. -/
def collected (lane : EventLane) : List Nat :=
  match lane.collecting with
  | none => []
  | some (_, batch) => batch.map (·.1)

/-- The tickets that are to be replied to among the commands. -/
def ticketsOf (requests : List LaneRequest) : List Nat :=
  (requests.filter (·.command.wantsReply)).map (·.ticket)

@[simp] theorem ticketsOf_append (first second : List LaneRequest) :
    ticketsOf (first ++ second) = ticketsOf first ++ ticketsOf second := by
  simp [ticketsOf]

/-- What the task owes a reply, and what it has replied to. -/
def answerable (lane : EventLane) : List Nat :=
  lane.state.repliedTo ++ lane.collected ++ lane.shutdownReply.toList

/-- The bookkeeping of the channel, with the commands that the task has come to. -/
structure Accounted (lane : EventLane) (waiting : List LaneRequest) : Prop where
  queue : lane.accepted = lane.processed ++ waiting
  tickets : lane.accepted.map (·.ticket) = range lane.accepted.length
  routed : ∀ request ∈ lane.accepted, request.command.isFor lane.sessionId = true
  answered : lane.answerable.Perm (ticketsOf lane.processed)
  shutdowns : lane.accepted.countP (·.command.isShutdown) + (if lane.listed then 1 else 0) ≤ 1
  closing : lane.closed = true ↔ ∃ request ∈ lane.processed, request.command.isShutdown = true
  asked : lane.closed = false → lane.shutdownReply = none
  room : lane.commands.length ≤ eventPublishCapacity

structure Sound (codec : RecordCodec) (start : Option SessionMeta) (lane : EventLane) : Prop where
  published : Published codec lane.sessionId start lane.state
  accounted : lane.Accounted (lane.pending.toList ++ lane.commands)
  alone : lane.collecting.isSome = true → lane.pending = none
  stopped : lane.stopped = true → lane.closed = true ∧ lane.shutdownReply = none ∧
    lane.collecting = none ∧ lane.pending = none ∧ lane.commands = []

variable {codec : RecordCodec} {outcome : JournalOutcome} {start : Option SessionMeta}
  {lane : EventLane} {events : List StoredEvent} {sessionId : SessionId}

theorem sound_start (sessionId : SessionId) (path : String)
    (published : Published codec sessionId start ⟨start, [], []⟩) :
    Sound codec start (EventLane.start sessionId path start) where
  published := published
  accounted :=
    { queue := rfl
      tickets := rfl
      routed := fun _ none => nomatch none
      answered := List.Perm.refl _
      shutdowns := Nat.le_refl _
      closing := by simp [EventLane.start]
      asked := fun _ => rfl
      room := Nat.zero_le _ }
  alone := fun none => nomatch none
  stopped := fun none => nomatch none

/-! ### Sending -/

theorem Accounted.enqueue {waiting : List LaneRequest} (accounted : lane.Accounted waiting)
    {command : PublishCommand} (routed : command.isFor lane.sessionId = true)
    (space : lane.commands.length < eventPublishCapacity)
    (single : lane.accepted.countP (·.command.isShutdown) +
      (if command.isShutdown then 1 else 0) + (if lane.listed then 1 else 0) ≤ 1) :
    (lane.enqueue command).Accounted (waiting ++ [⟨lane.accepted.length, command⟩]) where
  queue := by
    rw [EventLane.enqueue, accounted.queue, append_assoc]
  tickets := by
    have before := accounted.tickets
    simp [EventLane.enqueue, before, range_succ]
  routed := by
    intro request member
    rcases mem_append.mp member with earlier | only
    · exact accounted.routed request earlier
    · rw [mem_singleton.mp only]
      exact routed
  answered := accounted.answered
  shutdowns := by
    simp only [EventLane.enqueue, countP_append, countP_singleton]
    exact single
  closing := accounted.closing
  asked := accounted.asked
  room := by
    simp only [EventLane.enqueue, length_append, length_singleton]
    exact space

theorem Sound.send (sound : Sound codec start lane) (command : PublishCommand) :
    Sound codec start (lane.send command) := by
  rw [EventLane.send]
  split
  · exact sound
  · next admitted =>
    simp only [not_or, Bool.not_eq_true, Nat.not_le, Bool.not_eq_false] at admitted
    obtain ⟨notClosed, space, routed⟩ := admitted
    have running : lane.stopped = false := by
      cases stopped : lane.stopped with
      | false => rfl
      | true =>
        rw [(sound.stopped stopped).1] at notClosed
        cases notClosed
    have single := sound.accounted.shutdowns
    have enqueued : ∀ {listed}, ({ lane with listed }.enqueue command).Accounted
        (lane.pending.toList ++ lane.commands ++ [LaneRequest.mk lane.accepted.length command]) →
        Sound codec start ({ lane with listed }.enqueue command) := by
      intro listed counted
      rw [append_assoc] at counted
      exact ⟨sound.published, counted, sound.alone, fun stopped =>
        nomatch running.symm.trans stopped⟩
    split
    · next shutdown =>
      split
      · next listed =>
        -- the lane leaves the table with its one `Shutdown`
        rw [if_pos listed] at single
        have unlisted : ({ lane with listed := false } : EventLane).Accounted
            (lane.pending.toList ++ lane.commands) := by
          have kept := sound.accounted
          exact { kept with shutdowns := Nat.le_trans (Nat.le_add_right _ 1) single }
        exact enqueued (unlisted.enqueue routed space (by
          simp only [shutdown, if_true, Bool.false_eq_true, if_false, Nat.add_zero]
          exact single))
      · exact sound
    · next other =>
      exact enqueued (sound.accounted.enqueue routed space (by
        rw [if_neg other, Nat.add_zero]
        exact single))

/-! ### The task -/

/-- What the task has still to come to. -/
def waiting (lane : EventLane) : List LaneRequest := lane.pending.toList ++ lane.commands

/-- The batch that the task hands to the journal when it goes on, if it does. -/
def handsOver (lane : EventLane) : Option (List DurableEvent) :=
  match lane.collecting with
  | none => none
  | some (kind, batch) =>
    if maxDurableBatchSize ≤ batch.length then some (batch.map (·.2))
    else match lane.commands with
      | [] => some (batch.map (·.2))
      | ⟨_, .durable nextKind _⟩ :: _ => if nextKind = kind then none else some (batch.map (·.2))
      | _ :: _ => some (batch.map (·.2))

/-- What the task does when it goes on. -/
inductive WentOn (codec : RecordCodec) (outcome : JournalOutcome) (lane : EventLane) :
    EventLane → Prop where
  | handled (request : LaneRequest) (rest : List LaneRequest) (idle : lane.collecting = none)
      (waiting : lane.waiting = request :: rest) (fewer : rest.length ≤ lane.commands.length) :
      WentOn codec outcome lane
        ({ lane with commands := rest, pending := none }.handle codec outcome request)
  | added (kind : DurableCommit) (batch : List (Nat × DurableEvent)) (ticket : Nat)
      (event : DurableEvent) (rest : List LaneRequest)
      (collecting : lane.collecting = some (kind, batch)) (keeps : lane.handsOver = none)
      (commands : lane.commands = ⟨ticket, .durable kind event⟩ :: rest) :
      WentOn codec outcome lane
        { lane with
          commands := rest
          processed := lane.processed ++ [⟨ticket, .durable kind event⟩]
          collecting := some (kind, batch ++ [(ticket, event)]) }
  -- a command that does not belong to the batch is put aside
  | committed (kind : DurableCommit) (batch : List (Nat × DurableEvent))
      (rest : List LaneRequest) (pending : Option LaneRequest)
      (collecting : lane.collecting = some (kind, batch))
      (hands : lane.handsOver = some (batch.map (·.2)))
      (waiting : lane.pending = none → pending.toList ++ rest = lane.commands)
      (fewer : rest.length ≤ lane.commands.length) :
      WentOn codec outcome lane
        ({ lane with commands := rest, pending := pending }.commit codec outcome kind batch)
  | finished (idle : lane.collecting = none) (closed : lane.closed = true)
      (waiting : lane.waiting = []) : WentOn codec outcome lane (lane.finish codec outcome)
  | nothing (still : lane.stopped = true ∨
      lane.collecting = none ∧ lane.closed = false ∧ lane.waiting = []) :
      WentOn codec outcome lane lane

variable (codec outcome lane) in
theorem work_wentOn : WentOn codec outcome lane (lane.work codec outcome) := by
  rw [work]
  split
  · next stopped => exact .nothing (.inl stopped)
  · split
    · next kind batch collecting =>
      have aside : ∀ request rest, lane.commands = request :: rest →
          lane.handsOver = some (batch.map (·.2)) →
          WentOn codec outcome lane ({ lane with commands := rest, pending := some request }.commit
            codec outcome kind batch) := by
        intro request rest commands hands
        refine .committed kind batch rest (some request) collecting hands ?_ ?_
        · exact fun _ => commands.symm
        · rw [commands]
          exact Nat.le_succ _
      have whole : lane.handsOver = some (batch.map (·.2)) →
          WentOn codec outcome lane (lane.commit codec outcome kind batch) := by
        intro hands
        refine .committed kind batch lane.commands lane.pending collecting hands ?_ (Nat.le_refl _)
        intro clear
        rw [clear]
        rfl
      rw [collect]
      split
      · next full => exact whole (by rw [handsOver, collecting]; exact if_pos full)
      · next space =>
        split
        · next empty => exact whole (by simp [handsOver, collecting, empty])
        · next ticket nextKind event rest commands =>
          split
          · next same =>
            subst same
            exact .added nextKind batch ticket event rest collecting
              (by simp [handsOver, collecting, if_neg space, commands]) commands
          · next other =>
            exact aside _ rest commands (by simp [handsOver, collecting, commands, other])
        · next request rest notDurable commands =>
          apply aside request rest commands
          obtain ⟨ticket, command⟩ := request
          cases command with
          | durable nextKind event => exact (notDurable ticket nextKind event rfl).elim
          | _ => simp [handsOver, collecting, commands]
    · next idle =>
      split
      · next request pending =>
        exact .handled request lane.commands idle (by rw [waiting, pending]; rfl) (Nat.le_refl _)
      · next clear =>
        split
        · next request rest commands =>
          have taken := @WentOn.handled codec outcome lane request rest idle
            (by rw [waiting, clear, commands]; rfl) (by rw [commands]; exact Nat.le_succ _)
          rw [← clear] at taken
          exact taken
        · next empty =>
          have done : lane.waiting = [] := by rw [waiting, clear, empty]; rfl
          split
          · next closed => exact .finished idle closed done
          · next unclosed => exact .nothing (.inr ⟨idle, Bool.not_eq_true _ ▸ unclosed, done⟩)

theorem perm_later (before behind : List Nat) (ticket : Nat) :
    (before ++ ([ticket] ++ behind)).Perm (before ++ behind ++ [ticket]) := by
  rw [append_assoc]
  exact perm_append_comm.append_left _

theorem ticketsOf_wanting (wants : request.command.wantsReply = true) :
    ticketsOf [request] = [request.ticket] := by
  rw [ticketsOf, filter_singleton, wants]
  rfl

/-- What `Accounted` looks at, apart from the replies, after a command has been come to. -/
structure CameTo (request : LaneRequest) (lane lane' : EventLane) : Prop where
  sessionId : lane'.sessionId = lane.sessionId
  listed : lane'.listed = lane.listed
  accepted : lane'.accepted = lane.accepted
  processed : lane'.processed = lane.processed ++ [request]
  commands : lane'.commands.length ≤ lane.commands.length
  closed : lane'.closed = lane.closed
  shutdownReply : lane'.shutdownReply = lane.shutdownReply

theorem Accounted.process {waiting : List LaneRequest} {lane' : EventLane}
    (accounted : lane.Accounted (request :: waiting)) (other : request.command.isShutdown = false)
    (came : CameTo request lane lane')
    (answered : lane'.answerable.Perm (lane.answerable ++ ticketsOf [request])) :
    lane'.Accounted waiting where
  queue := by
    rw [came.accepted, came.processed, accounted.queue, append_assoc]
    rfl
  tickets := by
    rw [came.accepted]
    exact accounted.tickets
  routed := by
    rw [came.accepted, came.sessionId]
    exact accounted.routed
  answered := by
    rw [came.processed, ticketsOf_append]
    exact answered.trans (accounted.answered.append_right _)
  shutdowns := by
    rw [came.accepted, came.listed]
    exact accounted.shutdowns
  closing := by
    rw [came.closed, accounted.closing, came.processed]
    constructor
    · rintro ⟨earlier, member, shutdown⟩
      exact ⟨earlier, mem_append_left _ member, shutdown⟩
    · rintro ⟨earlier, member, shutdown⟩
      rcases mem_append.mp member with before | only
      · exact ⟨earlier, before, shutdown⟩
      · rw [mem_singleton.mp only, other] at shutdown
        cases shutdown
  asked := by
    rw [came.closed, came.shutdownReply]
    exact accounted.asked
  room := Nat.le_trans came.commands accounted.room

/-- `Shutdown` comes once. -/
theorem Accounted.not_closed {waiting : List LaneRequest}
    (accounted : lane.Accounted (request :: waiting)) (shutdown : request.command.isShutdown = true) :
    lane.closed = false := by
  cases closed : lane.closed with
  | false => rfl
  | true =>
    obtain ⟨earlier, member, again⟩ := accounted.closing.mp closed
    have one : 0 < lane.processed.countP (·.command.isShutdown) :=
      countP_pos_iff.mpr ⟨earlier, member, again⟩
    have few := accounted.shutdowns
    rw [accounted.queue, countP_append, countP_cons, if_pos shutdown] at few
    omega

theorem Accounted.shutdown {waiting : List LaneRequest}
    (accounted : lane.Accounted (request :: waiting)) (shutdown : request.command = .shutdown) :
    ({ lane with
        processed := lane.processed ++ [request]
        closed := true
        shutdownReply := some request.ticket } : EventLane).Accounted waiting where
  queue := by
    rw [accounted.queue, append_assoc]
    rfl
  tickets := accounted.tickets
  routed := accounted.routed
  answered := by
    have isShutdown : request.command.isShutdown = true := by rw [shutdown]; rfl
    have unasked := accounted.asked (accounted.not_closed isShutdown)
    have before := accounted.answered
    rw [answerable, unasked, Option.toList_none, append_nil] at before
    rw [ticketsOf_append, ticketsOf_wanting (by rw [shutdown]; rfl)]
    exact before.append_right _
  shutdowns := accounted.shutdowns
  closing := by
    refine ⟨fun _ => ⟨request, by simp, by rw [shutdown]; rfl⟩, fun _ => rfl⟩
  asked := fun none => nomatch none
  room := accounted.room

/-- The task handles a command that it has taken from the channel or had put aside. -/
theorem Sound.handle (published : Published codec lane.sessionId start lane.state)
    (accounted : lane.Accounted (request :: lane.commands)) (clear : lane.pending = none)
    (idle : lane.collecting = none) (running : lane.stopped = false) :
    Sound codec start (lane.handle codec outcome request) := by
  obtain ⟨ticket, command⟩ := request
  have processes : ∀ state collecting, command.isShutdown = false →
      Published codec lane.sessionId start state →
      ({ lane with state, collecting } : EventLane).answerable.Perm
        (lane.answerable ++ ticketsOf [⟨ticket, command⟩]) →
      Sound codec start { lane with
        processed := lane.processed ++ [⟨ticket, command⟩], state, collecting } := by
    intro state collecting other published answered
    refine ⟨published, ?_, fun _ => clear, fun stopped => nomatch running.symm.trans stopped⟩
    simp only [clear, Option.toList_none, nil_append]
    exact accounted.process other ⟨rfl, rfl, rfl, rfl, Nat.le_refl _, rfl, rfl⟩ answered
  -- a command with its reply given at once
  have replied : ∀ state : LaneState, command.isShutdown = false → command.wantsReply = true →
      Published codec lane.sessionId start state ∧
        state.repliedTo = lane.state.repliedTo ++ [ticket] →
      Sound codec start { lane with processed := lane.processed ++ [⟨ticket, command⟩], state } := by
    intro state other wants done
    refine processes state lane.collecting other done.1 ?_
    rw [ticketsOf_wanting wants]
    simpa [answerable, done.2, collected, idle] using
      perm_later lane.state.repliedTo lane.shutdownReply.toList ticket
  -- the first command of a batch
  have begun : ∀ kind event, command = .durable kind event →
      Sound codec start { lane with
        processed := lane.processed ++ [⟨ticket, command⟩]
        collecting := some (kind, [(ticket, event)]) } := by
    rintro kind event rfl
    refine processes lane.state _ rfl published ?_
    rw [ticketsOf_wanting rfl]
    simpa [answerable, collected, idle] using
      perm_later lane.state.repliedTo lane.shutdownReply.toList ticket
  cases command with
  | durable kind event =>
    cases kind with
    | create =>
      have own : event.sessionId = lane.sessionId := by
        have routed := accounted.routed ⟨ticket, .durable .create event⟩ (by
          rw [accounted.queue]
          simp)
        simpa [PublishCommand.isFor] using routed
      exact replied _ rfl rfl (LaneState.create_eq published lane.path ticket own)
    | append => exact begun .append event rfl
    | appendAndSync => exact begun .appendAndSync event rfl
  | live event =>
    refine processes _ lane.collecting rfl
      (published.congr rfl (LaneState.delivered_publish_live event)) ?_
    have silent : ticketsOf [⟨ticket, .live event⟩] = [] := rfl
    rw [silent, append_nil]
    exact List.Perm.refl _
  | sync => exact replied _ rfl rfl (LaneState.syncLane_eq outcome published ticket)
  | retryUncertainSync expectedThroughSeq =>
    exact replied _ rfl rfl (LaneState.retryUncertainSync_eq published ticket expectedThroughSeq)
  | shutdown =>
    refine ⟨published, ?_, fun _ => clear, fun stopped => nomatch running.symm.trans stopped⟩
    have kept := accounted.shutdown rfl
    rw [clear] at kept
    rw [handle]
    rw [clear, Option.toList_none, nil_append]
    exact kept

section

variable {batch : List (Nat × DurableEvent)} {rest : List LaneRequest} {kind : DurableCommit}
  (sound : Sound codec start lane)

include sound

/-- The batch goes to the journal; all of it is replied to. -/
theorem Sound.commit (collecting : lane.collecting = some (kind, batch))
    {pending : Option LaneRequest} (waiting : pending.toList ++ rest = lane.commands)
    (fewer : rest.length ≤ lane.commands.length) :
    Sound codec start ({ lane with commands := rest, pending := pending }.commit codec outcome
      kind batch) := by
  have clear : lane.pending = none := sound.alone (by rw [collecting]; rfl)
  obtain ⟨published, replied⟩ :=
    LaneState.commitBatch_eq outcome sound.published kind batch
  have accounted := sound.accounted
  rw [clear, Option.toList_none, nil_append, ← waiting] at accounted
  refine ⟨published, ?_, (fun none => nomatch none), ?_⟩
  · refine { accounted with answered := ?_, room := Nat.le_trans fewer accounted.room }
    have before := accounted.answered
    rw [answerable, collected, collecting] at before
    rw [answerable, EventLane.commit]
    rw [replied, collected]
    simp only [append_nil]
    exact before
  · intro stopped
    have idle := (sound.stopped stopped).2.2.1
    exact nomatch idle.symm.trans collecting

theorem Sound.add
    (collecting : lane.collecting = some (kind, batch)) {ticket : Nat} {event : DurableEvent}
    (commands : lane.commands = ⟨ticket, .durable kind event⟩ :: rest) :
    Sound codec start { lane with
      commands := rest
      processed := lane.processed ++ [⟨ticket, .durable kind event⟩]
      collecting := some (kind, batch ++ [(ticket, event)]) } := by
  have clear : lane.pending = none := sound.alone (by rw [collecting]; rfl)
  have accounted := sound.accounted
  rw [clear, commands, Option.toList_none, nil_append] at accounted
  refine ⟨sound.published, ?_, fun _ => clear, ?_⟩
  · simp only [clear, Option.toList_none, nil_append]
    have fewer : rest.length ≤ lane.commands.length := by
      rw [commands]
      exact Nat.le_succ _
    refine accounted.process rfl ⟨rfl, rfl, rfl, rfl, fewer, rfl, rfl⟩ ?_
    rw [ticketsOf_wanting rfl, answerable, answerable, collected, collected, collecting]
    simpa using perm_later (lane.state.repliedTo ++ batch.map (·.1)) lane.shutdownReply.toList ticket
  · intro stopped
    have idle := (sound.stopped stopped).2.2.1
    exact nomatch idle.symm.trans collecting

theorem Sound.finish (closed : lane.closed = true) (idle : lane.collecting = none)
    (clear : lane.pending = none) (empty : lane.commands = []) :
    Sound codec start (lane.finish codec outcome) := by
  rw [EventLane.finish]
  have accounted := sound.accounted
  split
  · next unasked =>
    exact ⟨sound.published, { accounted with }, sound.alone,
      fun _ => ⟨closed, unasked, idle, clear, empty⟩⟩
  · next ticket asked =>
    obtain ⟨published, replied⟩ := LaneState.syncLane_eq outcome sound.published ticket
    refine ⟨published, ?_, sound.alone, fun _ => ⟨closed, rfl, idle, clear, empty⟩⟩
    refine { accounted with answered := ?_, asked := fun _ => rfl }
    have before := accounted.answered
    have nothing : lane.collected = [] := by rw [collected, idle]
    rw [answerable, asked, nothing] at before
    rw [answerable, collected, idle]
    rw [replied]
    simpa using before

theorem Sound.work (outcome : JournalOutcome) : Sound codec start (lane.work codec outcome) := by
  by_cases stopped : lane.stopped = true
  · rw [EventLane.work, if_pos stopped]
    exact sound
  have running : lane.stopped = false := Bool.not_eq_true _ ▸ stopped
  have accounted := sound.accounted
  have went := work_wentOn codec outcome lane
  generalize lane.work codec outcome = lane' at went
  cases went with
  | handled request rest idle waiting fewer =>
    rw [show lane.pending.toList ++ lane.commands = request :: rest from waiting] at accounted
    refine Sound.handle sound.published ?_ rfl idle running
    exact { accounted with room := Nat.le_trans fewer accounted.room }
  | added kind batch ticket event rest collecting keeps commands =>
    exact sound.add collecting commands
  | committed kind batch rest pending collecting hands waiting fewer =>
    have clear : lane.pending = none := sound.alone (by rw [collecting]; rfl)
    exact sound.commit collecting (waiting clear) fewer
  | finished idle closed waiting =>
    obtain ⟨clear, empty⟩ := append_eq_nil_iff.mp waiting
    exact sound.finish closed idle (Option.toList_eq_nil_iff.mp clear) empty
  | nothing => exact sound

theorem Sound.run (actions : List Action) : Sound codec start (lane.run codec actions) := by
  induction actions generalizing lane with
  | nil => exact sound
  | cons action rest ih =>
    cases action with
    | send command => exact ih (sound.send command)
    | work outcome => exact ih (sound.work outcome)

end

/-! ### The task comes to its end -/

def isShutdown (request : LaneRequest) : Bool := request.command.isShutdown

variable (codec outcome) in
theorem handle_eq (request : LaneRequest) (lane : EventLane) :
    ∃ state collecting shutdownReply, lane.handle codec outcome request =
      { lane with
        processed := lane.processed ++ [request]
        closed := isShutdown request || lane.closed
        state, collecting, shutdownReply } := by
  obtain ⟨ticket, command⟩ := request
  cases command with
  | durable kind event =>
    cases kind with
    | create | append | appendAndSync => exact ⟨_, _, _, rfl⟩
  | live | sync | retryUncertainSync | shutdown => exact ⟨_, _, _, rfl⟩

/-- What the task does in one step: it hands its batch over, adds to it, comes to the next
command, ends, or has nothing to do. -/
inductive Worked (lane : EventLane) : EventLane → Prop where
  | committed {lane' : EventLane} (collecting : lane.collecting.isSome = true)
      (idle : lane'.collecting = none) (waiting : lane'.waiting = lane.waiting)
      (accepted : lane'.accepted = lane.accepted) (closed : lane'.closed = lane.closed)
      (stopped : lane'.stopped = lane.stopped) : Worked lane lane'
  | cameTo {lane' : EventLane} {request : LaneRequest}
      (waiting : lane.waiting = request :: lane'.waiting)
      (accepted : lane'.accepted = lane.accepted)
      (closed : lane'.closed = (isShutdown request || lane.closed))
      (stopped : lane'.stopped = lane.stopped)
      (busy : lane.collecting.isSome = true → isShutdown request = false) : Worked lane lane'
  | finished {lane' : EventLane} (closed : lane.closed = true) (still : lane'.closed = true)
      (accepted : lane'.accepted = lane.accepted) (stopped : lane'.stopped = true)
      (waiting : lane'.waiting = []) (idle : lane'.collecting = none)
      (drained : lane.waiting = [] ∧ lane.collecting = none) : Worked lane lane'
  | nothing (closed : lane.closed = false) (waiting : lane.waiting = [])
      (idle : lane.collecting = none) : Worked lane lane

section

variable (sound : Sound codec start lane)

include sound

theorem Sound.worked (running : lane.stopped = false) (outcome : JournalOutcome) :
    Worked lane (lane.work codec outcome) := by
  have went := work_wentOn codec outcome lane
  generalize lane.work codec outcome = lane' at went
  cases went with
  | handled request rest idle waiting =>
    obtain ⟨state, collecting, shutdownReply, handled⟩ :=
      handle_eq codec outcome request { lane with commands := rest, pending := none }
    rw [handled]
    refine .cameTo waiting rfl rfl rfl fun busy => ?_
    rw [idle] at busy
    cases busy
  | added kind batch ticket event rest collecting keeps commands =>
    have clear : lane.pending = none := sound.alone (by rw [collecting]; rfl)
    refine @Worked.cameTo lane _ ⟨ticket, .durable kind event⟩ ?_ rfl rfl rfl fun _ => rfl
    simp only [waiting, clear, commands]
    rfl
  | committed kind batch rest pending collecting hands same =>
    have busy : lane.collecting.isSome = true := by rw [collecting]; rfl
    refine .committed busy rfl ?_ rfl rfl rfl
    have clear : lane.pending = none := sound.alone busy
    rw [show lane.waiting = lane.commands by rw [waiting, clear]; rfl]
    exact same clear
  | finished idle closed waiting =>
    rw [EventLane.finish]
    split
    all_goals exact .finished closed closed rfl rfl waiting idle ⟨waiting, idle⟩
  | nothing still =>
    rcases still with stopped | ⟨idle, unclosed, done⟩
    · exact nomatch running.symm.trans stopped
    · exact .nothing unclosed done idle

/-- `Shutdown` has been sent. -/
def AwaitsEnd (lane : EventLane) : Prop :=
  lane.closed = true ∨ ∃ request ∈ lane.waiting, isShutdown request = true

/-- How many steps the task needs at most: two for each command up to `Shutdown`, one for its
batch, and as much again for what the channel can hold behind `Shutdown`. -/
def rank (lane : EventLane) : Nat :=
  (if lane.collecting.isSome then 1 else 0) +
    if lane.closed then 2 * lane.waiting.length + if lane.stopped then 0 else 1
    else 2 * lane.waiting.findIdx isShutdown + 2 * eventPublishCapacity + 5

theorem Sound.rank_work (running : lane.stopped = false) (awaits : lane.AwaitsEnd)
    (outcome : JournalOutcome) :
    (lane.work codec outcome).AwaitsEnd ∧ (lane.work codec outcome).rank < lane.rank := by
  have next := sound.work outcome
  have worked := sound.worked running outcome
  generalize lane.work codec outcome = lane' at next worked
  cases worked with
  | committed collecting idle waiting accepted closed stopped =>
    constructor
    · rw [AwaitsEnd, closed, waiting]
      exact awaits
    · simp only [rank, collecting, idle, waiting, closed, stopped, Option.isSome_none,
        Bool.false_eq_true, if_true, if_false]
      omega
  | cameTo waiting accepted closed stopped busy =>
    next request =>
      have atMost : (if lane'.collecting.isSome then 1 else 0) ≤ 1 := by
        split
        · exact Nat.le_refl _
        · exact Nat.zero_le _
      cases shutdown : isShutdown request with
      | false =>
        rw [shutdown, Bool.false_or] at closed
        constructor
        · rw [AwaitsEnd, closed]
          refine awaits.imp id ?_
          rintro ⟨found, member, isShutdown⟩
          rw [waiting] at member
          rcases mem_cons.mp member with rfl | later
          · exact nomatch shutdown.symm.trans isShutdown
          · exact ⟨found, later, isShutdown⟩
        · simp only [rank, waiting, closed, stopped, length_cons, findIdx_cons, shutdown,
            cond_false]
          split <;> split <;> omega
      | true =>
        -- the channel closes with what it holds by now
        rw [shutdown, Bool.true_or] at closed
        refine ⟨.inl closed, ?_⟩
        have unclosed : lane.closed = false := by
          have accounted := sound.accounted
          rw [show lane.pending.toList ++ lane.commands = lane.waiting from rfl, waiting] at accounted
          exact accounted.not_closed shutdown
        have room := next.accounted.room
        have held : lane'.waiting.length ≤ eventPublishCapacity + 1 := by
          rw [EventLane.waiting, length_append]
          have one : lane'.pending.toList.length ≤ 1 := Option.length_toList_le
          omega
        have taken : lane.waiting.findIdx isShutdown = 0 := by
          rw [waiting, findIdx_cons, shutdown, cond_true]
        simp only [rank, closed, unclosed, taken, Bool.false_eq_true, if_true, if_false]
        have running : (if lane'.stopped = true then 0 else 1) ≤ 1 := by
          split
          · exact Nat.zero_le _
          · exact Nat.le_refl _
        omega
  | finished closed still accepted stopped waiting idle =>
    refine ⟨.inl still, ?_⟩
    simp only [rank, closed, still, stopped, running, waiting, idle, length_nil,
      Option.isSome_none, Bool.false_eq_true, if_true, if_false]
    omega
  | nothing closed waiting =>
    rcases awaits with already | ⟨found, member, -⟩
    · exact nomatch closed.symm.trans already
    · rw [waiting] at member
      cases member

omit sound in
theorem rank_send (awaits : lane.AwaitsEnd) (command : PublishCommand) :
    (lane.send command).AwaitsEnd ∧ (lane.send command).rank ≤ lane.rank := by
  -- a new command stands behind `Shutdown`
  have behind : ∀ listed, lane.closed = false →
      ({ lane with listed }.enqueue command).AwaitsEnd ∧
        ({ lane with listed }.enqueue command).rank ≤ lane.rank := by
    intro listed unclosed
    rcases awaits with closed | ⟨found, member, shutdown⟩
    · exact nomatch unclosed.symm.trans closed
    · have longer : ({ lane with listed }.enqueue command).waiting =
          lane.waiting ++ [⟨lane.accepted.length, command⟩] := by
        simp [waiting, EventLane.enqueue]
      have early : lane.waiting.findIdx isShutdown < lane.waiting.length :=
        findIdx_lt_length_of_exists ⟨found, member, shutdown⟩
      constructor
      · refine .inr ⟨found, ?_, shutdown⟩
        rw [longer]
        exact mem_append_left _ member
      · rw [rank, rank, longer, findIdx_append, if_pos early]
        simp only [EventLane.enqueue, unclosed, Bool.false_eq_true, if_false]
        exact Nat.le_refl _
  rw [EventLane.send]
  split
  · exact ⟨awaits, Nat.le_refl _⟩
  · next admitted =>
    simp only [not_or, Bool.not_eq_true] at admitted
    split
    · split
      · exact behind false admitted.1
      · exact ⟨awaits, Nat.le_refl _⟩
    · exact behind lane.listed admitted.1

/-- A task that has ended stays as it is. -/
theorem Sound.run_stopped (stopped : lane.stopped = true) (actions : List Action) :
    lane.run codec actions = lane := by
  induction actions with
  | nil => rfl
  | cons action rest ih =>
    have same : lane.step codec action = lane := by
      cases action with
      | send command => rw [step, EventLane.send, if_pos (.inl (sound.stopped stopped).1)]
      | work outcome => rw [step, EventLane.work, if_pos stopped]
    rw [EventLane.run, foldl_cons, same]
    exact ih

def Action.isWork : Action → Bool
  | .send _ => false
  | .work _ => true

theorem Sound.stops {actions : List Action} (awaits : lane.AwaitsEnd)
    (enough : lane.rank ≤ actions.countP Action.isWork) :
    (lane.run codec actions).stopped = true := by
  induction actions generalizing lane with
  | nil =>
    -- a rank of zero is that of a task that has ended
    rw [countP_nil, Nat.le_zero, rank] at enough
    show lane.stopped = true
    by_contra running
    split at enough <;> split at enough <;> omega
  | cons action rest ih =>
    by_cases stopped : lane.stopped = true
    · rw [sound.run_stopped stopped]
      exact stopped
    · have running : lane.stopped = false := Bool.not_eq_true _ ▸ stopped
      cases action with
      | send command =>
        obtain ⟨still, notMore⟩ := rank_send awaits command
        exact ih (sound.send command) still (Nat.le_trans notMore enough)
      | work outcome =>
        obtain ⟨still, fewer⟩ := sound.rank_work running awaits outcome
        rw [countP_cons_of_pos (by simp [Action.isWork])] at enough
        exact ih (sound.work outcome) still
          (Nat.le_of_lt_succ (Nat.lt_of_lt_of_le fewer enough))

/-- Taking `Shutdown` closes the channel for good. -/
theorem Sound.run_closed {actions : List Action} (closed : lane.closed = true) :
    (lane.run codec actions).accepted = lane.accepted := by
  induction actions generalizing lane with
  | nil => rfl
  | cons action rest ih =>
    cases action with
    | send command =>
      have same : lane.send command = lane := by rw [EventLane.send, if_pos (.inl closed)]
      have later := ih (sound.send command) (by rw [same]; exact closed)
      exact later.trans (congrArg accepted same)
    | work outcome =>
      by_cases stopped : lane.stopped = true
      · rw [sound.run_stopped stopped]
      · have kept : (lane.work codec outcome).accepted = lane.accepted ∧
            (lane.work codec outcome).closed = true := by
          have worked := sound.worked (Bool.not_eq_true _ ▸ stopped) outcome
          generalize lane.work codec outcome = lane' at worked
          cases worked with
          | committed collecting idle waiting accepted same stopped =>
            exact ⟨accepted, same.trans closed⟩
          | cameTo waiting accepted same stopped busy =>
            rw [closed, Bool.or_true] at same
            exact ⟨accepted, same⟩
          | finished _ still accepted => exact ⟨accepted, still⟩
          | nothing => exact ⟨rfl, closed⟩
        exact (ih (sound.work outcome) kept.2).trans kept.1

end

/-! ### Replies -/

section

variable (sound : Sound codec start lane)

include sound

theorem Sound.distinct : (ticketsOf lane.accepted).Nodup := by
  have all : (lane.accepted.map (·.ticket)).Nodup := by
    rw [sound.accounted.tickets]
    exact nodup_range
  exact all.sublist (filter_sublist.map _)

theorem Sound.replied_once (ticket : Nat) : lane.state.repliedTo.count ticket ≤ 1 := by
  have processed : (ticketsOf lane.processed).Nodup := by
    have distinct := sound.distinct
    rw [sound.accounted.queue, ticketsOf_append] at distinct
    exact distinct.of_append_left
  have answerable := sound.accounted.answered.nodup_iff.mpr processed
  rw [EventLane.answerable, append_assoc] at answerable
  exact nodup_iff_count_le_one.mp answerable.of_append_left ticket

theorem Sound.replied_all (stopped : lane.stopped = true) (member : request ∈ lane.accepted)
    (wants : request.command.wantsReply = true) :
    lane.state.repliedTo.count request.ticket = 1 := by
  obtain ⟨-, unasked, idle, clear, empty⟩ := sound.stopped stopped
  have answered := sound.accounted.answered
  have queue := sound.accounted.queue
  rw [clear, empty, Option.toList_none, append_nil, append_nil] at queue
  rw [answerable, collected, idle, unasked, Option.toList_none, append_nil, append_nil,
    ← queue] at answered
  rw [answered.count_eq]
  apply count_eq_one_of_mem sound.distinct
  exact mem_map.mpr ⟨request, mem_filter.mpr ⟨member, wants⟩, rfl⟩

theorem Sound.awaitsEnd (shutdown : ∃ request ∈ lane.accepted, request.command.isShutdown = true) :
    lane.AwaitsEnd := by
  obtain ⟨request, member, isShutdown⟩ := shutdown
  rw [sound.accounted.queue] at member
  rcases mem_append.mp member with before | later
  · exact .inl (sound.accounted.closing.mpr ⟨request, before, isShutdown⟩)
  · exact .inr ⟨request, later, isShutdown⟩

end

/-! ### The open session a lane starts with -/

theorem reduceAll_sessionId {model model' : SessionReadModel}
    (run : reduceAll events model = .ok model') :
    model'.identity.sessionId = model.identity.sessionId :=
  Library.runAll_invariant
    (fun _ _ _ accepted same => (reduce_sessionId accepted).trans same) run rfl

theorem replay_sessionId
    {model : SessionReadModel} (replayed : replay sessionId events = .ok model) :
    model.identity.sessionId = sessionId := by
  obtain ⟨first, rest, started, rfl, -, -, reduced⟩ := replay_ok_iff.mp replayed
  exact reduceAll_sessionId reduced

theorem replayed_of_run {base : SessionReadModel} {history : List StoredEvent} {state : SessionMeta}
    (run : JournalRun codec base history state) :
    ∃ events, replay state.projection.identity.sessionId events = .ok state.projection := by
  have opening : ∃ events, replay base.identity.sessionId events = .ok base := by
    induction run with
    | created made =>
      have replayed := (createSession_replayed made).1
      rw [replay_sessionId replayed]
      exact ⟨_, replayed⟩
    | opened made =>
      obtain ⟨⟨events, replayed⟩, -⟩ := openMeta_replayed made
      rw [replay_sessionId replayed]
      exact ⟨events, replayed⟩
    | called run call ih => exact ih
  obtain ⟨events, replayed⟩ := opening
  obtain ⟨visible, -, shown⟩ := run.consistent.visible
  rw [reduceAll_sessionId shown]
  exact ⟨events ++ visible, replay_append replayed shown⟩

/-- A lane of a session that is not open, or as a run of the journal has left it. -/
def Startable (codec : RecordCodec) (sessionId : SessionId) (start : Option SessionMeta) : Prop :=
  ∀ state, start = some state → state.projection.identity.sessionId = sessionId ∧
    ∃ base history, JournalRun codec base history state

theorem Startable.sound (startable : Startable codec sessionId start)
    (path : String) : Sound codec start (EventLane.start sessionId path start) := by
  apply sound_start
  cases start with
  | none => exact ⟨rfl, rfl⟩
  | some state =>
    obtain ⟨own, base, history, run⟩ := startable state rfl
    obtain ⟨events, replayed⟩ := replayed_of_run run
    rw [own] at replayed
    refine ⟨⟨base, history, run.consistent⟩, events, .running replayed, ?_⟩
    rw [show (⟨some state, [], []⟩ : LaneState).delivered = [] from rfl, append_nil]
    exact replayed

/-- Whatever is sent and however the files behave: the events that the lane publishes are
numbered without a gap, and the read model is that of the events before the lane and exactly
those. No command is replied to twice. Once `Shutdown` has been sent, the task comes to its end,
and then every command that the channel has taken has its reply. Once the task has taken
`Shutdown`, nothing is processed that was not in the channel by then. -/
theorem lane_publishes_committed_order {sessionId : SessionId} (path : String)
    (startable : Startable codec sessionId start) (actions : List Action) :
    let lane := (EventLane.start sessionId path start).run codec actions
    (∃ first, lane.state.delivered.map (·.seq) = range' first lane.state.delivered.length) ∧
    (match lane.state.journal with
      | none => lane.state.delivered = []
      | some state => ∃ earlier, VisibleBefore codec lane.sessionId start earlier ∧
        replay lane.sessionId (earlier ++ lane.state.delivered) = .ok state.projection) ∧
    (∀ ticket, lane.state.repliedTo.count ticket ≤ 1) ∧
    ((∃ request ∈ lane.accepted, request.command.isShutdown = true) →
      ∃ steps, ∀ more : List Action, steps ≤ more.countP Action.isWork →
        ∀ request ∈ (lane.run codec more).accepted, request.command.wantsReply = true →
          (lane.run codec more).state.repliedTo.count request.ticket = 1) ∧
    (lane.closed = true → ∀ more, ∀ request ∈ (lane.run codec more).processed,
      request ∈ lane.accepted) := by
  have sound := (startable.sound path).run actions
  generalize (EventLane.start sessionId path start).run codec actions = lane at sound
  have published := sound.published
  refine ⟨?_, ?_, sound.replied_once, ?_, ?_⟩
  · rw [Published] at published
    cases present : lane.state.journal with
    | none =>
      rw [present] at published
      exact ⟨0, by rw [published.2]; rfl⟩
    | some state =>
      rw [present] at published
      obtain ⟨-, earlier, -, replayed⟩ := published
      have numbers := replay_numbers replayed
      -- the numbers of the later part of the log
      rw [map_append, length_append, ← range'_append_1] at numbers
      have lengths : (earlier.map (·.seq)).length = (range' 0 earlier.length).length := by
        simp
      exact ⟨_, (append_inj numbers lengths).2⟩
  · rw [Published] at published
    split
    · next absent =>
      rw [absent] at published
      exact published.2
    · next state present =>
      rw [present] at published
      exact published.2
  · intro shutdown
    refine ⟨lane.rank, fun more enough request member wants => ?_⟩
    have stopped := sound.stops (sound.awaitsEnd shutdown) enough
    exact (sound.run more).replied_all stopped member wants
  · intro closed more request member
    rw [← sound.run_closed closed, (sound.run more).accounted.queue]
    exact mem_append_left _ member

def workingFiles : JournalOutcome :=
  { found := .error (.notFound "session"), createError := none, write := .complete, sync := .synced }

/-- A lane of the small session, with working files. -/
def sampleLane (commands : List PublishCommand) (steps : Nat) : EventLane :=
  (EventLane.start "session" "log" (some sampleMeta)).run sampleCodec
    (commands.map .send ++ replicate steps (.work workingFiles))

theorem sampleLane_startable : Startable sampleCodec "session" (some sampleMeta) := by
  rintro state ⟨⟩
  exact ⟨by decide +kernel, sampleModel, [], sampleMeta_run⟩

theorem append_published_in_order :
    (sampleLane [.durable .append sampleRecap.event, .shutdown] 4).state.delivered = [sampleRecap] ∧
      ∃ first, (sampleLane [.durable .append sampleRecap.event, .shutdown] 4).state.delivered.map
        (·.seq) = range' first 1 := by
  have delivered : (sampleLane [.durable .append sampleRecap.event, .shutdown] 4).state.delivered =
      [sampleRecap] := by decide +kernel
  obtain ⟨numbered, -⟩ := lane_publishes_committed_order "log" sampleLane_startable
    ([.durable .append sampleRecap.event, .shutdown].map .send ++
      replicate 4 (.work workingFiles))
  refine ⟨delivered, ?_⟩
  obtain ⟨first, numbers⟩ := numbered
  refine ⟨first, numbers.trans ?_⟩
  exact congrArg (fun events => range' first events.length) delivered

/-- An append that is sent after `Shutdown`, but before the task takes it, is carried out. -/
theorem append_after_shutdown_processed :
    (sampleLane [.shutdown, .durable .append sampleRecap.event] 4).processed =
        [⟨0, .shutdown⟩, ⟨1, .durable .append sampleRecap.event⟩] ∧
      (sampleLane [.shutdown, .durable .append sampleRecap.event] 4).state.delivered =
        [sampleRecap] ∧
      (sampleLane [.shutdown, .durable .append sampleRecap.event] 4).state.repliedTo = [1, 0] := by
  decide +kernel

end EventLane

end Astrcode
