import Astrcode.Properties.PublicationLines
import Mathlib.Data.List.Nodup

/-!
# Deferred publications reach the observer once, or never

The lines of all publishers stay in order over every run, nothing that the observer has got or
that has become of a guard is taken back, and a thread in `commit` brings the events of its line
to the observer whatever the others do.
-/
namespace Astrcode

open List

namespace PublicationSystem

variable {own : Nat} {sessionId : SessionId} {pending : List Publication}
  {publication earlier later : Publication} {system : PublicationSystem}

/-! ## Runs -/

section

variable (sound : Sound system)

include sound

variable (events : Nat)

/-- What the thread in `commit` does when it moves: it takes the vector, or publishes the next
event it has taken, or leaves because nothing is left. -/
theorem commit_cases :
    (system.commit events = system ∧
        ∀ guard, system.guards events = some guard → guard.state.isActive = false) ∨
      ∃ sessionId state, system.guards events = some ⟨sessionId, state⟩ ∧ state.isActive = true ∧
        ((system.waiting sessionId = [] ∧
            system.commit events = system.closed events sessionId .committed) ∨
          (state.pending = [] ∧ system.commit events =
            system.moved events sessionId [] (system.publication.events events) []) ∨
          ∃ next rest, state.pending = next :: rest ∧ system.commit events =
            system.moved events sessionId [next] rest (system.publication.events events)) := by
  have round : ∀ sessionId state, system.guards events = some ⟨sessionId, state⟩ →
      state.isActive = true → state.pending = [] →
      (system.waiting sessionId = [] ∧ system.commitRound events sessionId =
          system.closed events sessionId .committed) ∨
        system.commitRound events sessionId =
          system.moved events sessionId [] (system.publication.events events) [] := by
    intro sessionId state guard active nothing
    have present := sound.listed events _ guard active
    cases vector : system.publication.events events with
    | nil =>
      left
      constructor
      · rw [waiting_some present, vector, pendingAt, guard]
        simpa using nothing
      · simp only [commitRound, PublicationState.takeDeferred, present, ne_eq, not_true_eq_false,
          ↓reduceIte, vector, isEmpty_nil]
        rfl
    | cons first more =>
      right
      simp [commitRound, PublicationState.takeDeferred, present, vector, isEmpty_cons,
        setGuard, moved]
  cases guard : system.guards events with
  | none =>
    left
    constructor
    · rw [commit, guard]
    · intro other present
      cases present
  | some found =>
    obtain ⟨sessionId, state⟩ := found
    cases state with
    | held =>
      refine .inr ⟨sessionId, .held, rfl, rfl, ?_⟩
      rw [commit, guard]
      rcases round sessionId .held guard rfl rfl with ⟨nobody, last⟩ | taken
      · exact .inl ⟨nobody, last⟩
      · exact .inr (.inl ⟨rfl, taken⟩)
    | committing pending =>
      refine .inr ⟨sessionId, .committing pending, rfl, rfl, ?_⟩
      rw [commit, guard]
      cases pending with
      | nil =>
        rcases round sessionId _ guard rfl rfl with ⟨nobody, last⟩ | taken
        · exact .inl ⟨nobody, last⟩
        · exact .inr (.inl ⟨rfl, taken⟩)
      | cons next rest =>
        refine .inr (.inr ⟨next, rest, rfl, ?_⟩)
        simp only [moved, Function.update_eq_self]
        rfl
    | committed | discarded =>
      left
      constructor
      · rw [commit, guard]
      · intro other present
        cases present
        rfl

theorem drop_cases :
    system.drop events = system ∨
      ∃ sessionId, system.guards events = some ⟨sessionId, .held⟩ ∧
        system.drop events = system.closed events sessionId .discarded := by
  cases guard : system.guards events with
  | none => exact .inl (by rw [drop, guard])
  | some found =>
    obtain ⟨sessionId, state⟩ := found
    cases state with
    | held =>
      have present := sound.listed events _ guard rfl
      refine .inr ⟨sessionId, rfl, ?_⟩
      simp only [drop, guard, PublicationState.discardDeferred, present, ne_eq,
        not_true_eq_false, ↓reduceIte]
      rfl
    | committing pending | committed | discarded => exact .inl (by rw [drop, guard])

/-- All that a step can do. -/
inductive Move (system : PublicationSystem) (action : Action) : PublicationSystem → Prop where
  | stays : Move system action system
  | picks {publication : Publication}
      (absent : system.publication.deferred publication.sessionId = none)
      (last : publication.ticket = system.sent.length) (deferral : publication.deferral = none)
      (idle : system.publishers publication.publisher = none) :
      Move system action (system.picked publication)
  | pushes {publication : Publication} {events : Nat}
      (present : system.publication.deferred publication.sessionId = some events)
      (last : publication.ticket = system.sent.length)
      (deferral : publication.deferral = some events)
      (idle : system.publishers publication.publisher = none) :
      Move system action (system.pushed publication events)
  | reaches {publication : Publication}
      (held : system.publishers publication.publisher = some publication) :
      Move system action (system.reached publication)
  | opens {sessionId : SessionId} (absent : system.publication.deferred sessionId = none) :
      Move system action (system.opened sessionId)
  | changes {events : Nat} {sessionId : SessionId} {before after : GuardState}
      {shown rest : List Publication} {next : PublicationSystem}
      (mine : action = .commit events ∨ before = .held)
      (guard : system.guards events = some ⟨sessionId, before⟩) (active : before.isActive = true)
      (line : LineMoves (system.waiting sessionId) before after shown rest)
      (moves : GuardMoves system next events sessionId after shown rest) :
      Move system action next

theorem Sound.commit_move : Move system (.commit events) (system.commit events) := by
  rcases commit_cases sound events with ⟨same, -⟩ | ⟨sessionId, state, guard, active, outcome⟩
  · rw [same]
    exact .stays
  have present := sound.listed events _ guard active
  have whole : system.waiting sessionId = state.pending ++ system.publication.events events := by
    rw [waiting_some present, pendingAt, guard]
  rcases outcome with ⟨nobody, same⟩ | ⟨nothing, same⟩ | ⟨next, rest, taken, same⟩
  · rw [same]
    exact .changes (.inl rfl) guard active (.ended _ nobody) (closed_guardMoves sound present rfl)
  · rw [same]
    refine .changes (.inl rfl) guard active (.taken _ _ ?_) (moved_guardMoves sound present _ _ _)
    rw [whole, nothing, append_nil]
  · rw [same]
    refine .changes (.inl rfl) guard active (.taken _ _ ?_) (moved_guardMoves sound present _ _ _)
    rw [whole, taken]
    rfl

theorem Sound.step_move (action : Action) : Move system action (system.step action) := by
  cases action with
  | publish publisher event =>
    rw [PublicationSystem.step]
    cases hand : system.publishers publisher with
    | some busy => exact .stays
    | none =>
      rw [publish]
      cases met : system.publication.deferred event.sessionId with
      | none =>
        show Move system _ (system.picked ⟨system.sent.length, publisher, event, none⟩)
        exact .picks met rfl rfl hand
      | some events =>
        show Move system _ (system.pushed ⟨system.sent.length, publisher, event, some events⟩ events)
        exact .pushes met rfl rfl hand
  | reachObserver publisher =>
    rw [PublicationSystem.step]
    cases hand : system.publishers publisher with
    | none => exact .stays
    | some publication =>
      obtain ⟨-, rfl, -⟩ := sound.inHand publisher publication hand
      exact .reaches hand
  | deferPublication sessionId =>
    rw [PublicationSystem.step, deferPublication]
    cases present : system.publication.deferred sessionId with
    | none => exact .opens present
    | some events => exact .stays
  | commit events => exact sound.commit_move events
  | drop events =>
    rw [PublicationSystem.step]
    rcases drop_cases sound events with same | ⟨sessionId, guard, same⟩
    · rw [same]
      exact .stays
    · rw [same]
      have present := sound.listed events _ guard rfl
      exact .changes (.inr rfl) guard rfl .lost (closed_guardMoves sound present rfl)

theorem Sound.step (action : Action) : Sound (system.step action) := by
  have move := sound.step_move action
  generalize system.step action = next at move
  cases move with
  | stays => exact sound
  | picks absent last deferral idle => exact sound.picked absent last deferral idle
  | pushes present last deferral idle => exact sound.pushed present last deferral idle
  | reaches held => exact sound.reached held
  | opens absent => exact sound.opened absent
  | changes _ guard active line moves => exact sound.guardMoves guard active line moves

theorem Sound.run (actions : List Action) : Sound (system.run actions) := by
  induction actions generalizing system with
  | nil => exact sound
  | cons action rest ih => exact ih (sound.step action)

/-- Later states of a run: nothing is taken back. -/
structure Extends (old new : PublicationSystem) : Prop where
  observer : old.publication.observer <+: new.publication.observer
  sent : old.sent <+: new.sent
  settled : ∀ events guard, old.guards events = some guard → guard.state.isActive = false →
    new.guards events = some guard

omit sound in
theorem Extends.refl (system : PublicationSystem) : Extends system system :=
  ⟨prefix_rfl, prefix_rfl, fun _ _ present _ => present⟩

omit sound in
theorem Extends.trans {first second third : PublicationSystem} (one : Extends first second)
    (two : Extends second third) : Extends first third where
  observer := one.observer.trans two.observer
  sent := one.sent.trans two.sent
  settled := fun events guard present ended =>
    two.settled events guard (one.settled events guard present ended) ended

omit sound in
/-- Only an active guard changes. -/
theorem settled_of_update {guards : Nat → Option SessionEventPublicationGuard} {state : GuardState}
    (guard : guards own = some ⟨sessionId, state⟩) (active : state.isActive = true)
    (new : SessionEventPublicationGuard) :
    ∀ events other, guards events = some other → other.state.isActive = false →
      Function.update guards own (some new) events = some other := by
  intro events other present ended
  by_cases same : events = own
  · subst same
    rw [guard] at present
    cases present
    exact nomatch active.symm.trans ended
  · rw [Function.update_of_ne same, present]

theorem Sound.extends_step (action : Action) : Extends system (system.step action) := by
  have kept := Extends.refl system
  have move := sound.step_move action
  generalize system.step action = next at move
  cases move with
  | stays => exact kept
  | picks | pushes => exact ⟨kept.observer, prefix_append _ _, kept.settled⟩
  | reaches held => exact ⟨prefix_append _ _, kept.sent, kept.settled⟩
  | opens absent =>
    exact ⟨kept.observer, kept.sent, fun _ _ present _ => opened_guards sound _ present⟩
  | changes _ guard active _ moves =>
    refine ⟨moves.observer ▸ prefix_append _ _, moves.sent ▸ prefix_rfl, ?_⟩
    rw [moves.guards]
    exact settled_of_update guard active _

theorem Sound.extends_run (actions : List Action) : Extends system (system.run actions) := by
  induction actions generalizing system with
  | nil => exact Extends.refl system
  | cons action rest ih => exact (sound.extends_step action).trans (ih (sound.step action))

/-! ## Progress of a commit -/

section

variable (guard : system.guards own = some ⟨sessionId, .committing pending⟩)

include guard

/-- While a guard is in `commit`, only its own thread takes events out of the line. -/
theorem Sound.line_stands {action : Action} (others : action ≠ .commit own) :
    (system.step action).guards own = some ⟨sessionId, .committing pending⟩ ∧
      system.waiting sessionId <+: (system.step action).waiting sessionId := by
  have stays : system.guards own = some ⟨sessionId, .committing pending⟩ ∧
      system.waiting sessionId <+: system.waiting sessionId := ⟨guard, prefix_rfl⟩
  have move := sound.step_move action
  generalize system.step action = next at move
  cases move with
  | stays | picks | reaches => exact stays
  | pushes present =>
    refine ⟨guard, ?_⟩
    rw [waiting_pushed sound present]
    split
    · exact prefix_append _ _
    · exact prefix_rfl
  | opens absent =>
    refine ⟨opened_guards sound _ guard, ?_⟩
    rw [waiting_opened sound absent]
  | @changes events other before _ _ _ _ mine theirs active _ moves =>
    have apart : events ≠ own := by
      rintro rfl
      rcases mine with same | rfl
      · exact others same
      · cases guard.symm.trans theirs
    -- two active guards are of two sessions
    have different : sessionId ≠ other := by
      rintro rfl
      have listed := sound.listed own _ guard rfl
      rw [sound.listed events _ theirs active] at listed
      exact apart (Option.some.inj listed)
    rw [moves.guards, Function.update_of_ne apart.symm, moves.lines, if_neg different]
    exact stays

/-- How many steps of the committing thread it takes to publish the event behind `ahead`: one
for each event up to it, and one more to take it out of the vector. -/
def stepsTo (pending ahead : List Publication) : Nat :=
  if ahead.length < pending.length then ahead.length + 1 else ahead.length + 2

/-- A step of the committing thread brings an event of the line nearer to the observer. -/
theorem Sound.commit_nearer {ahead behind : List Publication}
    (place : system.waiting sessionId = ahead ++ publication :: behind) :
    publication ∈ (system.commit own).publication.observer ∨
      ∃ taken rest, (system.commit own).guards own = some ⟨sessionId, .committing taken⟩ ∧
        (system.commit own).waiting sessionId = rest ++ publication :: behind ∧
        stepsTo taken rest + 1 ≤ stepsTo pending ahead := by
  have present : system.publication.deferred sessionId = some own :=
    sound.listed own _ guard rfl
  have whole : pending ++ system.publication.events own = ahead ++ publication :: behind := by
    rw [← place, waiting_some present, pendingAt, guard]
    rfl
  have updated : ∀ shown taken vector, (system.moved own sessionId shown taken vector).guards own =
      some ⟨sessionId, .committing taken⟩ := by
    intro shown taken vector
    exact Function.update_self ..
  rcases commit_cases sound own with ⟨-, inactive⟩ | ⟨other, state, theirs, -, outcome⟩
  · cases inactive _ guard
  · rw [guard] at theirs
    cases theirs
    rcases outcome with ⟨nobody, -⟩ | ⟨nothing, same⟩ | ⟨next, rest, taken, same⟩
    · rw [place] at nobody
      simp at nobody
    · -- the vector becomes what has been taken
      right
      subst nothing
      rw [nil_append] at whole
      refine ⟨_, ahead, by rw [same, updated], ?_, ?_⟩
      · rw [same, waiting_moved sound present, if_pos rfl, append_nil, whole]
      · simp only [stepsTo, whole, length_append, length_cons, length_nil,
          Nat.not_lt_zero, ↓reduceIte]
        rw [if_pos (by omega)]
    · subst taken
      cases ahead with
      | nil =>
        left
        obtain ⟨rfl, -⟩ := cons.inj whole
        rw [same]
        exact mem_append_right _ (mem_singleton_self _)
      | cons first ahead =>
        right
        obtain ⟨rfl, tails⟩ := cons.inj whole
        refine ⟨rest, ahead, by rw [same, updated], ?_, ?_⟩
        · rw [same, waiting_moved sound present, if_pos rfl]
          exact tails
        · simp only [stepsTo, length_cons, Nat.add_lt_add_iff_right]
          split
          all_goals exact Nat.le_refl _

/-- Whatever the other threads do, the committing thread publishes an event of its line after
as many steps as it has to take. -/
theorem Sound.commit_reaches {actions : List Action} {ahead behind : List Publication}
    (place : system.waiting sessionId = ahead ++ publication :: behind)
    (enough : stepsTo pending ahead ≤ actions.count (.commit own)) :
    publication ∈ (system.run actions).publication.observer := by
  induction actions generalizing system pending ahead behind with
  | nil =>
    simp only [stepsTo, count_nil, Nat.le_zero] at enough
    split at enough <;> omega
  | cons action rest ih =>
    have next := sound.step action
    by_cases own' : action = .commit own
    · subst own'
      rw [count_cons_self] at enough
      rcases sound.commit_nearer guard place with shown | ⟨taken, fewer, guard', place', nearer⟩
      · exact (next.extends_run rest).observer.subset shown
      · exact ih next guard' place' (by omega)
    · rw [count_cons_of_ne own'] at enough
      obtain ⟨guard', more, longer⟩ := sound.line_stands guard own'
      rw [place, append_assoc] at longer
      exact ih next guard' longer.symm enough

end

/-! ## Once, in order, or never -/

omit sound in
theorem sublist_of_ticket_lt {publications : List Publication}
    (ordered : publications.Pairwise (fun one two => one.ticket < two.ticket))
    (first : earlier ∈ publications) (second : later ∈ publications)
    (before : earlier.ticket < later.ticket) : List.Sublist [earlier, later] publications := by
  induction publications with
  | nil => cases first
  | cons head rest ih =>
    obtain ⟨below, ordered⟩ := pairwise_cons.mp ordered
    rcases mem_cons.mp second with rfl | behind
    · -- nothing stands before the head
      rcases mem_cons.mp first with rfl | later
      · exact absurd before (Nat.lt_irrefl _)
      · exact absurd (below earlier later) (Nat.lt_asymm before)
    · rcases mem_cons.mp first with rfl | later
      · exact (singleton_sublist.mpr behind).cons_cons earlier
      · exact (ih ordered later behind).cons head

omit sound in
theorem isFrom_self (publication : Publication) :
    isFrom publication.publisher publication.sessionId publication = true := by
  simp [isFrom]

theorem Sound.ordered_observer (publisher : Nat) (sessionId : SessionId) :
    (system.publication.observer.filter (isFrom publisher sessionId)).Pairwise
      (fun earlier later => earlier.ticket < later.ticket) := by
  refine (sound.ordered publisher sessionId).sublist (List.Sublist.filter _ ?_)
  rw [append_assoc]
  exact sublist_append_left _ _

theorem Sound.observed_once (member : publication ∈ system.publication.observer) :
    system.publication.observer.count publication = 1 := by
  have ordered := sound.ordered_observer publication.publisher publication.sessionId
  have distinct : (system.publication.observer.filter
      (isFrom publication.publisher publication.sessionId)).Nodup := by
    apply ordered.imp
    rintro earlier later before rfl
    exact Nat.lt_irrefl _ before
  have there : publication ∈ system.publication.observer.filter
      (isFrom publication.publisher publication.sessionId) :=
    mem_filter.mpr ⟨member, isFrom_self publication⟩
  rw [← count_filter (isFrom_self publication)]
  exact count_eq_one_of_mem distinct there

/-- Of two events that a publisher has sent to one session, the one that came first to the
observer was sent first. -/
theorem Sound.observed_in_order (publisher : later.publisher = earlier.publisher)
    (session : later.sessionId = earlier.sessionId) (before : earlier.ticket < later.ticket)
    (first : earlier ∈ system.publication.observer) (second : later ∈ system.publication.observer) :
    List.Sublist [earlier, later] system.publication.observer := by
  have ordered := sound.ordered_observer earlier.publisher earlier.sessionId
  have fromLater : isFrom earlier.publisher earlier.sessionId later = true := by
    rw [← publisher, ← session]
    exact isFrom_self later
  refine (sublist_of_ticket_lt ordered ?_ ?_ before).trans filter_sublist
  · exact mem_filter.mpr ⟨first, isFrom_self earlier⟩
  · exact mem_filter.mpr ⟨second, fromLater⟩

/-- An event that waits has not been overtaken. -/
theorem Sound.not_overtaken (publisher : later.publisher = earlier.publisher)
    (session : later.sessionId = earlier.sessionId) (before : earlier.ticket < later.ticket)
    (waits : earlier ∈ system.waiting earlier.sessionId) : later ∉ system.publication.observer := by
  intro second
  have ordered := sound.ordered earlier.publisher earlier.sessionId
  rw [line, filter_append] at ordered
  have fromLater : isFrom earlier.publisher earlier.sessionId later = true := by
    rw [← publisher, ← session]
    exact isFrom_self later
  have reversed := (pairwise_append.mp ordered).2.2 later
    (mem_filter.mpr ⟨mem_append_left _ second, fromLater⟩) earlier
    (mem_filter.mpr ⟨waits, isFrom_self earlier⟩)
  exact Nat.lt_asymm before reversed

end

def guardState (system : PublicationSystem) (events : Nat) : Option GuardState :=
  (system.guards events).map (·.state)

/-- An event that was published under a deferral. Once the deferral is committed, the event has
come to the observer exactly once, before everything that is sent after the commit, and the
commit brings it there in as many steps as there are events before it; under a deferral that is
discarded it never comes there; and events of one publisher come in the order in which they
were sent. -/
theorem deferred_exactly_once_or_never (actions : List Action) :
    ∀ publication ∈ (empty.run actions).sent, ∀ events, publication.deferral = some events →
      ((empty.run actions).guardState events = some .committed →
        ∀ more, ((empty.run actions).run more).publication.observer.count publication = 1 ∧
          ∀ later ∈ ((empty.run actions).run more).publication.observer,
            later ∉ (empty.run actions).sent →
              List.Sublist [publication, later]
                ((empty.run actions).run more).publication.observer) ∧
      (∀ pending, (empty.run actions).guardState events = some (.committing pending) →
        ∀ more, ((empty.run actions).waiting publication.sessionId).length + 1 ≤
            more.count (.commit events) →
          ((empty.run actions).run more).publication.observer.count publication = 1) ∧
      ((empty.run actions).guardState events = some .discarded →
        ∀ more, publication ∉ ((empty.run actions).run more).publication.observer) ∧
      ∀ later ∈ (empty.run actions).publication.observer, later.deferral = some events →
        later.publisher = publication.publisher → publication.ticket < later.ticket →
          List.Sublist [publication, later] (empty.run actions).publication.observer := by
  have sound := sound_empty.run actions
  generalize empty.run actions = system at sound ⊢
  intro publication member events deferral
  obtain ⟨state, guard, place⟩ := sound.deferred publication member events deferral
  have current : system.guardState events = some state := by
    rw [guardState, guard]
    rfl
  refine ⟨?_, ?_, ?_, ?_⟩
  · intro committed more
    obtain rfl : state = .committed := Option.some.inj (current.symm.trans committed)
    have extended := sound.extends_run more
    refine ⟨(sound.run more).observed_once (extended.observer.subset place), ?_⟩
    intro later observed new
    -- what the observer has got since the commit stands behind the event
    obtain ⟨since, split⟩ := extended.observer
    rw [← split] at observed ⊢
    have recent : later ∈ since := by
      rcases mem_append.mp observed with old | recent
      · exact absurd (sound.observed later old).1 new
      · exact recent
    exact (singleton_sublist.mpr place).append (singleton_sublist.mpr recent)
  · intro pending committing more enough
    obtain rfl : state = .committing pending := Option.some.inj (current.symm.trans committing)
    apply (sound.run more).observed_once
    rcases place with observed | waits
    · exact (sound.extends_run more).observer.subset observed
    · obtain ⟨ahead, behind, split⟩ := append_of_mem waits
      apply sound.commit_reaches guard split
      rw [split, length_append, length_cons] at enough
      rw [stepsTo]
      split <;> omega
  · intro discarded more observed
    obtain rfl : state = .discarded := Option.some.inj (current.symm.trans discarded)
    obtain ⟨-, met⟩ := (sound.run more).observed publication observed
    obtain ⟨found, present, commit⟩ := met events deferral
    have settled := (sound.extends_run more).settled events _ guard rfl
    rw [settled] at present
    cases present
    cases commit
  · intro later observed same publisher before
    obtain ⟨sent, met⟩ := sound.observed later observed
    obtain ⟨found, present, commit⟩ := met events same
    obtain ⟨_, again, -⟩ := sound.deferred later sent events same
    rw [guard] at again present
    cases present
    have session : later.sessionId = publication.sessionId :=
      (SessionEventPublicationGuard.mk.inj (Option.some.inj again)).1.symm
    have first : publication ∈ system.publication.observer := by
      cases state with
      | held | discarded => cases commit
      | committing pending =>
        exact place.resolve_right fun waits =>
          sound.not_overtaken publisher session before waits observed
      | committed => exact place
    exact sound.observed_in_order publisher session before first observed

def runStarted (id : EventId) : Event :=
  .live ⟨id, "session", none, ⟨0⟩, .agentRunStarted⟩

/-- A publisher goes on while a commit publishes what it has taken. -/
def busyCommit : List Action :=
  [.deferPublication "session", .publish 0 (runStarted "first"), .commit 0,
    .publish 0 (runStarted "second"), .commit 0, .commit 0, .commit 0, .commit 0]

/-- The event that came while the commit was busy. -/
def meanwhile : Publication := ⟨1, 0, runStarted "second", some 0⟩

theorem busy_commit_publishes_once :
    meanwhile ∈ (empty.run busyCommit).sent ∧
      (empty.run busyCommit).publication.observer.count meanwhile = 1 := by
  have sent : meanwhile ∈ (empty.run busyCommit).sent := by decide
  have committed : (empty.run busyCommit).guardState 0 = some .committed := by decide
  have once := (deferred_exactly_once_or_never busyCommit meanwhile sent 0 rfl).1 committed []
  exact ⟨sent, once.1⟩

theorem lines_stay_ordered (actions : List Action) (publisher : Nat) (sessionId : SessionId) :
    ((empty.run actions).line publisher sessionId).Pairwise (·.ticket < ·.ticket) :=
  (sound_empty.run actions).ordered publisher sessionId

end PublicationSystem

end Astrcode
