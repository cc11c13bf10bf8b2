import Astrcode.Session.EventSink
import Mathlib.Data.List.Infix

/-!
# Where a publication is

A session with a deferral has a waiting line: the events its commit has taken, and behind them
those in the vector. Every step either leaves that line and the observer as they are, moves an
event along them, or appends one at the end. What a publisher has sent to a session is therefore
at all times in the order in which it was sent, first at the observer, then in the hand of the
publisher, then in the line.
-/
namespace Astrcode

open List Function

namespace GuardState

def pending : GuardState → List Publication
  | .committing pending => pending
  | _ => []

/-- The table refers to the guard's events. -/
def isActive : GuardState → Bool
  | .held => true
  | .committing _ => true
  | _ => false

/-- `commit` has been called. -/
def isCommit : GuardState → Bool
  | .committing _ => true
  | .committed => true
  | _ => false

end GuardState

namespace PublicationSystem

variable {publication : Publication} {sessionId : SessionId} {events publisher : Nat}
  {other : PublicationSystem} (system : PublicationSystem)

def pendingAt (events : Nat) : List Publication :=
  match system.guards events with
  | none => []
  | some guard => guard.state.pending

/-- The events of a session that its deferral still holds back, oldest first. -/
def waiting (sessionId : SessionId) : List Publication :=
  match system.publication.deferred sessionId with
  | none => []
  | some events => system.pendingAt events ++ system.publication.events events

def isFrom (publisher : Nat) (sessionId : SessionId) (publication : Publication) : Bool :=
  publication.publisher = publisher && publication.sessionId = sessionId

def inHand (publisher : Nat) : List Publication :=
  (system.publishers publisher).toList

/-- What a publisher has sent to a session and has not been discarded. -/
def line (publisher : Nat) (sessionId : SessionId) :
    List Publication :=
  (system.publication.observer ++ system.inHand publisher ++ system.waiting sessionId).filter
    (isFrom publisher sessionId)

/-- Where an event is that met a deferral, by what has become of the guard. -/
def Deferred (publication : Publication) : GuardState → Prop
  | .held => publication ∈ system.waiting publication.sessionId
  | .committing _ =>
    publication ∈ system.publication.observer ∨ publication ∈ system.waiting publication.sessionId
  | .committed => publication ∈ system.publication.observer
  | .discarded => True

variable {system}

theorem Deferred.imp {state : GuardState} (place : system.Deferred publication state)
    (observed : publication ∈ system.publication.observer →
      publication ∈ other.publication.observer)
    (waits : publication ∈ system.waiting publication.sessionId →
      publication ∈ other.waiting publication.sessionId) : other.Deferred publication state := by
  cases state with
  | held => exact waits place
  | committing pending => exact Or.imp observed waits place
  | committed => exact observed place
  | discarded => trivial

structure Sound (system : PublicationSystem) : Prop where
  guarded : ∀ sessionId events, system.publication.deferred sessionId = some events →
    ∃ state, system.guards events = some ⟨sessionId, state⟩ ∧ state.isActive = true
  listed : ∀ events guard, system.guards events = some guard → guard.state.isActive = true →
    system.publication.deferred guard.sessionId = some events
  fresh : ∀ events, system.allocated ≤ events → system.guards events = none
  tickets : ∀ publication ∈ system.sent, publication.ticket < system.sent.length
  inHand : ∀ publisher publication, system.publishers publisher = some publication →
    publication ∈ system.sent ∧ publication.publisher = publisher ∧ publication.deferral = none
  /-- A publisher that is busy with an event of a session has nothing behind it in the line. -/
  busy : ∀ publisher publication, system.publishers publisher = some publication →
    ∀ later ∈ system.waiting publication.sessionId, later.publisher ≠ publisher
  waiting : ∀ sessionId, ∀ publication ∈ system.waiting sessionId,
    publication ∈ system.sent ∧ publication.sessionId = sessionId ∧
      publication.deferral = system.publication.deferred sessionId
  observed : ∀ publication ∈ system.publication.observer, publication ∈ system.sent ∧
    ∀ events, publication.deferral = some events →
      ∃ guard, system.guards events = some guard ∧ guard.state.isCommit = true
  direct : ∀ publication ∈ system.sent, publication.deferral = none →
    publication ∈ system.publication.observer ∨
      system.publishers publication.publisher = some publication
  deferred : ∀ publication ∈ system.sent, ∀ events, publication.deferral = some events →
    ∃ state, system.guards events = some ⟨publication.sessionId, state⟩ ∧
      system.Deferred publication state
  ordered : ∀ publisher sessionId,
    (system.line publisher sessionId).Pairwise (fun earlier later => earlier.ticket < later.ticket)

theorem sound_empty : Sound empty where
  guarded := fun _ _ none => nomatch none
  listed := fun _ _ none => nomatch none
  fresh := fun _ _ => rfl
  tickets := fun _ none => nomatch none
  inHand := fun _ _ none => nomatch none
  busy := fun _ _ none => nomatch none
  waiting := fun _ _ none => nomatch none
  observed := fun _ none => nomatch none
  direct := fun _ none => nomatch none
  deferred := fun _ none => nomatch none
  ordered := fun _ _ => List.Pairwise.nil

/-! ## The waiting lines after a step -/

theorem waiting_none (absent : system.publication.deferred sessionId = none) :
    system.waiting sessionId = [] := by
  rw [waiting, absent]

theorem waiting_some (present : system.publication.deferred sessionId = some events) :
    system.waiting sessionId = system.pendingAt events ++ system.publication.events events := by
  rw [waiting, present]

theorem waiting_congr
    (table : other.publication.deferred sessionId = system.publication.deferred sessionId)
    (content : ∀ events, system.publication.deferred sessionId = some events →
      other.guards events = system.guards events ∧
        other.publication.events events = system.publication.events events) :
    other.waiting sessionId = system.waiting sessionId := by
  cases present : system.publication.deferred sessionId with
  | none => rw [waiting_none present, waiting_none (table.trans present)]
  | some events =>
    obtain ⟨guards, vectors⟩ := content events present
    rw [waiting_some present, waiting_some (table.trans present), pendingAt, pendingAt, guards,
      vectors]

/-- The entries of a table after one of them has changed. -/
theorem of_update_eq_some {α β : Type} [DecidableEq α] {table : α → Option β} {own a : α}
    {new b : β} (present : update table own (some new) a = some b) :
    (a = own ∧ b = new) ∨ (a ≠ own ∧ table a = some b) := by
  by_cases same : a = own
  · subst same
    rw [update_self] at present
    exact .inl ⟨rfl, (Option.some.inj present).symm⟩
  · rw [update_of_ne same] at present
    exact .inr ⟨same, present⟩

variable (sound : Sound system)

include sound

/-- Two sessions never share a deferral. -/
theorem Sound.ne_of_deferred {other : SessionId} {current : Nat}
    (own : system.publication.deferred sessionId = some events)
    (theirs : system.publication.deferred other = some current) (different : other ≠ sessionId) :
    current ≠ events := by
  rintro rfl
  obtain ⟨_, guard, -⟩ := sound.guarded sessionId current own
  obtain ⟨_, again, -⟩ := sound.guarded other current theirs
  rw [guard] at again
  cases again
  exact different rfl

/-! ## `publish` -/

theorem Sound.sent_of_mem_line (member : publication ∈ system.line publisher sessionId) :
    publication ∈ system.sent := by
  simp only [line, PublicationSystem.inHand, mem_filter, mem_append,
    Option.mem_toList] at member
  obtain ⟨(observed | hand) | waits, -⟩ := member
  · exact (sound.observed publication observed).1
  · exact (sound.inHand publisher publication hand).1
  · exact (sound.waiting sessionId publication waits).1

/-- Sending adds an event with the greatest ticket, so that the line it comes to the end of
stays in order. -/
theorem Sound.ordered_sent (publisher : Nat) (sessionId : SessionId)
    (last : publication.ticket = system.sent.length) :
    (system.line publisher sessionId ++ [publication]).Pairwise
      (fun earlier later => earlier.ticket < later.ticket) := by
  refine pairwise_append.mpr ⟨sound.ordered publisher sessionId, by simp, ?_⟩
  intro earlier member later only
  rw [mem_singleton.mp only, last]
  exact sound.tickets earlier (sound.sent_of_mem_line member)

theorem Sound.tickets_sent (last : publication.ticket = system.sent.length) :
    ∀ sent ∈ system.sent ++ [publication], sent.ticket < (system.sent ++ [publication]).length := by
  intro sent member
  rw [length_append, length_singleton]
  rcases mem_append.mp member with earlier | only
  · exact Nat.lt_succ_of_lt (sound.tickets sent earlier)
  · rw [mem_singleton.mp only, last]
    exact Nat.lt_succ_self _

/-- The state after a publisher has met a deferral. -/
def pushed (system : PublicationSystem) (publication : Publication) (events : Nat) :
    PublicationSystem :=
  { system with
    sent := system.sent ++ [publication]
    publication := system.publication.push publication events }

theorem waiting_pushed (present : system.publication.deferred publication.sessionId = some events)
    (sessionId : SessionId) :
    (system.pushed publication events).waiting sessionId =
      if sessionId = publication.sessionId then system.waiting sessionId ++ [publication]
      else system.waiting sessionId := by
  split
  · next own =>
    subst own
    have same : (system.pushed publication events).publication.deferred publication.sessionId =
        some events := present
    rw [waiting_some same, waiting_some present, append_assoc]
    simp [pushed, pendingAt]
  · next other =>
    apply waiting_congr
    · simp [pushed]
    · intro current theirs
      have apart := sound.ne_of_deferred present theirs other
      simp [pushed, apart]

theorem Sound.pushed (present : system.publication.deferred publication.sessionId = some events)
    (last : publication.ticket = system.sent.length) (deferral : publication.deferral = some events)
    (idle : system.publishers publication.publisher = none) :
    Sound (system.pushed publication events) := by
  have lines := waiting_pushed sound present
  have waits : ∀ sessionId, ∀ earlier ∈ system.waiting sessionId,
      earlier ∈ (system.pushed publication events).waiting sessionId := by
    intro sessionId earlier member
    rw [lines]
    split
    · exact mem_append_left _ member
    · exact member
  exact { sound with
    tickets := sound.tickets_sent last
    inHand := fun publisher hand held =>
      (sound.inHand publisher hand held).imp_left (mem_append_left _)
    busy := by
      intro publisher hand held later member
      rw [lines] at member
      split at member
      · rcases mem_append.mp member with earlier | only
        · exact sound.busy publisher hand held later earlier
        · rintro rfl
          rw [mem_singleton.mp only] at held
          exact nomatch idle.symm.trans held
      · exact sound.busy publisher hand held later member
    waiting := by
      intro sessionId sent member
      rw [lines] at member
      split at member
      · next own =>
        rcases mem_append.mp member with earlier | only
        · exact (sound.waiting sessionId sent earlier).imp_left (mem_append_left _)
        · rw [mem_singleton.mp only, own]
          exact ⟨by simp [PublicationSystem.pushed], rfl, deferral.trans present.symm⟩
      · exact (sound.waiting sessionId sent member).imp_left (mem_append_left _)
    observed := fun sent member => (sound.observed sent member).imp_left (mem_append_left _)
    direct := by
      intro sent member straight
      rcases mem_append.mp member with earlier | only
      · exact sound.direct sent earlier straight
      · rw [mem_singleton.mp only, deferral] at straight
        cases straight
    deferred := by
      intro sent member address met
      rcases mem_append.mp member with earlier | only
      · obtain ⟨state, guard, place⟩ := sound.deferred sent earlier address met
        exact ⟨state, guard, place.imp id (waits _ sent)⟩
      · -- the new event stands at the end of the line of a guard that is still active
        rw [mem_singleton.mp only] at met ⊢
        obtain rfl : events = address := Option.some.inj (deferral.symm.trans met)
        obtain ⟨state, guard, active⟩ := sound.guarded _ events present
        have place : publication ∈ (system.pushed publication events).waiting
            publication.sessionId := by
          rw [lines, if_pos rfl]
          simp
        refine ⟨state, guard, ?_⟩
        cases state with
        | held => exact place
        | committing pending => exact .inr place
        | committed | discarded => cases active
    ordered := by
      intro publisher sessionId
      have before := sound.ordered publisher sessionId
      have after := sound.ordered_sent publisher sessionId last
      have same : (system.pushed publication events).line publisher sessionId =
          (system.publication.observer ++ system.inHand publisher ++
            (system.pushed publication events).waiting sessionId).filter
              (isFrom publisher sessionId) := rfl
      rw [same, lines]
      split
      · rw [← append_assoc, filter_append]
        refine after.sublist (List.Sublist.append_left ?_ _)
        exact filter_sublist
      · exact before }

/-- The state after a publisher has met no deferral. -/
@[simps] def picked (system : PublicationSystem) (publication : Publication) : PublicationSystem :=
  { system with
    sent := system.sent ++ [publication]
    publishers := update system.publishers publication.publisher (some publication) }

theorem Sound.picked (absent : system.publication.deferred publication.sessionId = none)
    (last : publication.ticket = system.sent.length) (deferral : publication.deferral = none)
    (idle : system.publishers publication.publisher = none) :
    Sound (system.picked publication) := by
  exact { sound with
    tickets := sound.tickets_sent last
    inHand := by
      intro publisher hand held
      obtain ⟨rfl, rfl⟩ | ⟨-, earlier⟩ := of_update_eq_some held
      · exact ⟨by simp, rfl, deferral⟩
      · exact (sound.inHand publisher hand earlier).imp_left (mem_append_left _)
    busy := by
      intro publisher hand held later member
      obtain ⟨rfl, rfl⟩ | ⟨-, earlier⟩ := of_update_eq_some held
      · -- no deferral, so nobody waits
        have nobody : system.waiting hand.sessionId = [] := waiting_none absent
        have there : later ∈ system.waiting hand.sessionId := member
        rw [nobody] at there
        cases there
      · exact sound.busy publisher hand earlier later member
    waiting := fun sessionId sent member =>
      (sound.waiting sessionId sent member).imp_left (mem_append_left _)
    observed := fun sent member => (sound.observed sent member).imp_left (mem_append_left _)
    direct := by
      intro sent member straight
      rcases mem_append.mp member with earlier | only
      · refine (sound.direct sent earlier straight).imp id ?_
        intro held
        have apart : sent.publisher ≠ publication.publisher := by
          intro same
          rw [same, idle] at held
          cases held
        simp [apart, held]
      · rw [mem_singleton.mp only]
        right
        simp
    deferred := by
      intro sent member address met
      rcases mem_append.mp member with earlier | only
      · exact sound.deferred sent earlier address met
      · rw [mem_singleton.mp only, deferral] at met
        cases met
    ordered := by
      intro publisher sessionId
      by_cases own : publisher = publication.publisher
      · subst own
        have after := sound.ordered_sent publication.publisher sessionId last
        have same : (system.picked publication).line publication.publisher sessionId =
            (system.publication.observer ++ [publication] ++ system.waiting sessionId).filter
              (isFrom publication.publisher sessionId) := by
          simp only [line, PublicationSystem.inHand, PublicationSystem.picked,
            update_self, Option.toList_some]
          rfl
        by_cases here : sessionId = publication.sessionId
        · -- the line is empty, so that the hand is its end
          subst here
          rw [same, waiting_none absent, append_nil, filter_append]
          refine after.sublist (List.Sublist.append ?_ filter_sublist)
          apply List.Sublist.filter
          rw [append_assoc]
          exact sublist_append_left _ _
        · have skipped : isFrom publication.publisher sessionId publication = false := by
            simp only [isFrom, decide_true, Bool.true_and, decide_eq_false_iff_not]
            exact fun equal => here equal.symm
          rw [same, filter_append, filter_append, filter_singleton, skipped]
          have before := sound.ordered publication.publisher sessionId
          refine before.sublist ?_
          rw [line, filter_append, filter_append]
          exact List.Sublist.append_right (List.Sublist.append_left (nil_sublist _) _) _
      · have same : (system.picked publication).line publisher sessionId =
            system.line publisher sessionId := by
          simp only [line, PublicationSystem.inHand, PublicationSystem.picked, update_of_ne own]
          rfl
        rw [same]
        exact sound.ordered publisher sessionId }

/-! ## Reaching the observer -/

/-- The state after a publisher has reached the observer. -/
def reached (system : PublicationSystem) (publication : Publication) : PublicationSystem :=
  { system with
    publication := system.publication.observe publication
    publishers := update system.publishers publication.publisher none }

theorem Sound.reached (held : system.publishers publication.publisher = some publication) :
    Sound (system.reached publication) := by
  obtain ⟨wasSent, -, straight⟩ := sound.inHand _ publication held
  have hands : ∀ publisher hand, (system.reached publication).publishers publisher = some hand →
      publisher ≠ publication.publisher ∧ system.publishers publisher = some hand := by
    intro publisher hand after
    by_cases own : publisher = publication.publisher
    · subst own
      simp only [PublicationSystem.reached, update_self, reduceCtorEq] at after
    · simp only [PublicationSystem.reached, update_of_ne own] at after
      exact ⟨own, after⟩
  exact { sound with
    inHand := fun publisher hand after => sound.inHand publisher hand (hands publisher hand after).2
    busy := fun publisher hand after => sound.busy publisher hand (hands publisher hand after).2
    observed := by
      intro sent member
      rcases mem_append.mp member with earlier | only
      · exact sound.observed sent earlier
      · rw [mem_singleton.mp only]
        refine ⟨wasSent, fun events met => ?_⟩
        rw [straight] at met
        cases met
    direct := by
      intro sent member without
      rcases sound.direct sent member without with observed | hand
      · exact .inl (mem_append_left _ observed)
      · by_cases own : sent.publisher = publication.publisher
        · rw [own, held] at hand
          cases hand
          exact .inl (mem_append_right _ (mem_singleton_self _))
        · right
          simp [PublicationSystem.reached, own, hand]
    deferred := by
      intro sent member events met
      obtain ⟨state, guard, place⟩ := sound.deferred sent member events met
      exact ⟨state, guard, place.imp (mem_append_left _) id⟩
    ordered := by
      intro publisher sessionId
      have before := sound.ordered publisher sessionId
      have same : (system.reached publication).line publisher sessionId =
          system.line publisher sessionId := by
        by_cases own : publisher = publication.publisher
        · subst own
          simp only [line, PublicationSystem.inHand, PublicationSystem.reached, held,
            update_self, Option.toList_some, Option.toList_none, append_nil,
            PublicationState.observe]
          rfl
        · have foreign : [publication].filter (isFrom publisher sessionId) = [] := by
            simp [isFrom, Ne.symm own]
          simp only [line, PublicationSystem.inHand, PublicationSystem.reached, update_of_ne own, PublicationState.observe,
            filter_append, foreign, append_nil]
          rfl
      rw [same]
      exact before }

/-! ## `defer_publication` -/

theorem Sound.ne_allocated {guard : SessionEventPublicationGuard}
    (present : system.guards events = some guard) : events ≠ system.allocated := by
  rintro rfl
  rw [sound.fresh system.allocated (Nat.le_refl _)] at present
  cases present

/-- The state after a session without a deferral has got one. -/
def opened (system : PublicationSystem) (sessionId : SessionId) : PublicationSystem :=
  { system with
    publication := { system.publication with
      deferred := update system.publication.deferred sessionId (some system.allocated)
      events := update system.publication.events system.allocated [] }
    guards := update system.guards system.allocated (some ⟨sessionId, .held⟩)
    allocated := system.allocated + 1 }

theorem opened_guards (sessionId : SessionId) {events : Nat} {guard : SessionEventPublicationGuard}
    (present : system.guards events = some guard) :
    (system.opened sessionId).guards events = some guard := by
  have apart := sound.ne_allocated present
  simp [opened, apart, present]

section

variable (absent : system.publication.deferred sessionId = none)

include absent

theorem waiting_opened (other : SessionId) :
    (system.opened sessionId).waiting other = system.waiting other := by
  by_cases own : other = sessionId
  · -- the new line is as empty as the missing one
    subst own
    have present : (system.opened other).publication.deferred other = some system.allocated := by
      simp [opened]
    rw [waiting_none absent, waiting_some present]
    simp [pendingAt, opened, GuardState.pending]
  · apply waiting_congr
    · simp [opened, own]
    · intro events theirs
      obtain ⟨state, guard, -⟩ := sound.guarded other events theirs
      have apart := sound.ne_allocated guard
      simp [opened, apart]

theorem Sound.opened : Sound (system.opened sessionId) := by
  have lines := waiting_opened sound absent
  have keeps := @opened_guards system sound sessionId
  exact { sound with
    guarded := by
      intro other events present
      obtain ⟨rfl, rfl⟩ | ⟨-, present⟩ := of_update_eq_some present
      · exact ⟨.held, by simp [PublicationSystem.opened], rfl⟩
      · obtain ⟨state, guard, active⟩ := sound.guarded other events present
        exact ⟨state, keeps guard, active⟩
    listed := by
      intro events guard present active
      obtain ⟨rfl, rfl⟩ | ⟨-, present⟩ := of_update_eq_some present
      · simp [PublicationSystem.opened]
      · have was := sound.listed events guard present active
        have apart : guard.sessionId ≠ sessionId := by
          intro same
          rw [same, absent] at was
          cases was
        simp [PublicationSystem.opened, apart, was]
    fresh := by
      intro events above
      have above : system.allocated + 1 ≤ events := above
      have apart : events ≠ system.allocated := by omega
      simp only [PublicationSystem.opened, update_of_ne apart]
      exact sound.fresh events (by omega)
    busy := by
      intro publisher hand held later member
      rw [lines] at member
      exact sound.busy publisher hand held later member
    waiting := by
      intro other publication member
      rw [lines] at member
      obtain ⟨sent, same, met⟩ := sound.waiting other publication member
      have apart : other ≠ sessionId := by
        rintro rfl
        rw [waiting_none absent] at member
        cases member
      refine ⟨sent, same, ?_⟩
      simp [PublicationSystem.opened, apart, met]
    observed := by
      intro publication member
      obtain ⟨sent, met⟩ := sound.observed publication member
      refine ⟨sent, fun events deferral => ?_⟩
      obtain ⟨guard, present, commit⟩ := met events deferral
      exact ⟨guard, keeps present, commit⟩
    deferred := by
      intro publication member events met
      obtain ⟨state, guard, place⟩ := sound.deferred publication member events met
      exact ⟨state, keeps guard, place.imp id fun waits => (lines _).symm ▸ waits⟩
    ordered := by
      intro publisher other
      have same : (system.opened sessionId).line publisher other =
          (system.publication.observer ++ system.inHand publisher ++
            (system.opened sessionId).waiting other).filter (isFrom publisher other) := rfl
      rw [same, lines]
      exact sound.ordered publisher other }

end

/-! ## `commit` and dropping the guard -/

/-- The state after a guard has left the table. -/
def closed (system : PublicationSystem) (events : Nat) (sessionId : SessionId)
    (state : GuardState) : PublicationSystem :=
  { system with
    publication := { system.publication with
      deferred := update system.publication.deferred sessionId none }
    guards := update system.guards events (some ⟨sessionId, state⟩) }

variable (present : system.publication.deferred sessionId = some events)

include present

theorem waiting_closed (state : GuardState) (other : SessionId) :
    (system.closed events sessionId state).waiting other =
      if other = sessionId then [] else system.waiting other := by
  split
  · next own =>
    subst own
    apply waiting_none
    simp [closed]
  · next different =>
    apply waiting_congr
    · simp [closed, different]
    · intro current theirs
      have apart := sound.ne_of_deferred present theirs different
      simp [closed, apart]

/-- The state after `commit` has moved the line of its session: it has published `shown`, has
taken `pending` and has left `vector` in the table. -/
def moved (system : PublicationSystem) (events : Nat) (sessionId : SessionId)
    (shown pending vector : List Publication) : PublicationSystem :=
  { system with
    publication := { system.publication with
      observer := system.publication.observer ++ shown
      events := update system.publication.events events vector }
    guards := update system.guards events (some ⟨sessionId, .committing pending⟩) }

theorem waiting_moved (shown pending vector : List Publication) (other : SessionId) :
    (system.moved events sessionId shown pending vector).waiting other =
      if other = sessionId then pending ++ vector else system.waiting other := by
  split
  · next own =>
    subst own
    have same : (system.moved events other shown pending vector).publication.deferred other =
        some events := present
    rw [waiting_some same]
    simp [moved, pendingAt, GuardState.pending]
  · next different =>
    apply waiting_congr
    · simp [moved]
    · intro current theirs
      have apart := sound.ne_of_deferred present theirs different
      simp [moved, apart]

omit present in
/-- What a commit publishes goes before what the publisher has in hand, but a publisher has
nothing in hand for a session in whose line it stands. -/
theorem Sound.line_shown {shown rest : List Publication}
    (split : system.waiting sessionId = shown ++ rest) (publisher : Nat) :
    (system.publication.observer ++ shown ++ system.inHand publisher ++ rest).filter
      (isFrom publisher sessionId) = system.line publisher sessionId := by
  have either : shown.filter (isFrom publisher sessionId) = [] ∨
      (system.inHand publisher).filter (isFrom publisher sessionId) = [] := by
    cases held : system.publishers publisher with
    | none => exact .inr (by simp [PublicationSystem.inHand, held])
    | some hand =>
      by_cases here : hand.sessionId = sessionId
      · left
        apply filter_eq_nil_iff.mpr
        intro publication member fromPublisher
        have waits : publication ∈ system.waiting hand.sessionId := by
          rw [here, split]
          exact mem_append_left _ member
        simp only [isFrom, Bool.and_eq_true, decide_eq_true_eq] at fromPublisher
        exact sound.busy publisher hand held publication waits fromPublisher.1
      · right
        rw [PublicationSystem.inHand, held]
        simp [isFrom, here]
  rw [line, split]
  rcases either with nothing | nothing
  all_goals simp [nothing]

/-- What becomes of the line of a guard that changes: its front is published, or, when the guard
is dropped before `commit`, all of it is lost. -/
inductive LineMoves (line : List Publication) : GuardState → GuardState → List Publication →
    List Publication → Prop where
  | taken (before : GuardState) (pending : List Publication) {shown rest : List Publication}
      (split : line = shown ++ rest) : LineMoves line before (.committing pending) shown rest
  | ended (before : GuardState) (nobody : line = []) : LineMoves line before .committed [] []
  | lost : LineMoves line .held .discarded [] []

/-- The state after a guard has changed. The session keeps its deferral as long as the guard is
active. -/
structure GuardMoves (system next : PublicationSystem) (events : Nat) (sessionId : SessionId)
    (after : GuardState) (shown rest : List Publication) : Prop where
  publishers : next.publishers = system.publishers
  sent : next.sent = system.sent
  allocated : next.allocated = system.allocated
  observer : next.publication.observer = system.publication.observer ++ shown
  guards : next.guards = update system.guards events (some ⟨sessionId, after⟩)
  table : ∀ other, next.publication.deferred other =
    if other = sessionId ∧ after.isActive = false then none else system.publication.deferred other
  lines : ∀ other, next.waiting other = if other = sessionId then rest else system.waiting other

omit present in
theorem Sound.guardMoves {next : PublicationSystem} {before after : GuardState}
    {shown rest : List Publication} (guard : system.guards events = some ⟨sessionId, before⟩)
    (active : before.isActive = true)
    (line : LineMoves (system.waiting sessionId) before after shown rest)
    (moves : GuardMoves system next events sessionId after shown rest) : Sound next := by
  have present : system.publication.deferred sessionId = some events :=
    sound.listed events _ guard active
  have own : next.guards events = some ⟨sessionId, after⟩ := by rw [moves.guards, update_self]
  have theirs : ∀ {current found}, current ≠ events → system.guards current = some found →
      next.guards current = some found := by
    intro current found apart was
    rw [moves.guards, update_of_ne apart, was]
  -- another guard that is active belongs to another session
  have different : ∀ {current found}, current ≠ events → system.guards current = some found →
      found.state.isActive = true → found.sessionId ≠ sessionId := by
    intro current found apart was stillActive same
    have listed := sound.listed current found was stillActive
    rw [same, present] at listed
    exact apart (Option.some.inj listed).symm
  have fewer : ∀ other, next.waiting other <+ system.waiting other := by
    intro other
    rw [moves.lines]
    split
    · next same =>
      cases line with
      | taken _ _ split =>
        rw [same, split]
        exact sublist_append_right _ _
      | ended | lost => exact nil_sublist _
    · exact Sublist.refl _
  exact {
    guarded := by
      intro other current listed
      rw [moves.table] at listed
      split at listed
      · cases listed
      · next stays =>
        obtain ⟨state, was, stillActive⟩ := sound.guarded other current listed
        by_cases same : current = events
        · subst same
          rw [guard] at was
          cases was
          exact ⟨after, own, by simpa using stays⟩
        · exact ⟨state, theirs same was, stillActive⟩
    listed := by
      intro current found was stillActive
      rw [moves.table]
      rw [moves.guards] at was
      obtain ⟨rfl, rfl⟩ | ⟨apart, was⟩ := of_update_eq_some was
      · rw [if_neg (by simp [stillActive]), present]
      · rw [if_neg fun gone => different apart was stillActive gone.1]
        exact sound.listed current found was stillActive
    fresh := by
      intro current above
      rw [moves.allocated] at above
      have apart : current ≠ events := by
        rintro rfl
        rw [sound.fresh current above] at guard
        cases guard
      rw [moves.guards, update_of_ne apart]
      exact sound.fresh current above
    tickets := by
      rw [moves.sent]
      exact sound.tickets
    inHand := by
      rw [moves.sent, moves.publishers]
      exact sound.inHand
    busy := by
      rw [moves.publishers]
      exact fun publisher hand held later member =>
        sound.busy publisher hand held later ((fewer _).subset member)
    waiting := by
      intro other publication member
      have was := sound.waiting other publication ((fewer _).subset member)
      rw [moves.sent, moves.table, if_neg]
      · exact was
      · rintro ⟨rfl, inactive⟩
        rw [moves.lines, if_pos rfl] at member
        cases line with
        | taken => cases inactive
        | ended | lost => cases member
    observed := by
      intro publication member
      rw [moves.sent]
      rw [moves.observer] at member
      rcases mem_append.mp member with earlier | new
      · obtain ⟨sent, met⟩ := sound.observed publication earlier
        refine ⟨sent, fun current deferral => ?_⟩
        obtain ⟨found, was, commit⟩ := met current deferral
        by_cases same : current = events
        · subst same
          rw [guard] at was
          cases was
          refine ⟨_, own, ?_⟩
          -- a guard that is dropped has published nothing
          cases line with
          | taken | ended => rfl
          | lost => cases commit
        · exact ⟨found, theirs same was, commit⟩
      · cases line with
        | ended | lost => cases new
        | taken _ _ split =>
          have waits : publication ∈ system.waiting sessionId := by
            rw [split]
            exact mem_append_left _ new
          obtain ⟨sent, -, met⟩ := sound.waiting sessionId publication waits
          refine ⟨sent, fun current deferral => ?_⟩
          rw [met, present] at deferral
          cases deferral
          exact ⟨_, own, rfl⟩
    direct := by
      rw [moves.sent, moves.observer, moves.publishers]
      exact fun publication member straight =>
        (sound.direct publication member straight).imp (mem_append_left _) id
    deferred := by
      intro publication member current met
      rw [moves.sent] at member
      have seen : publication ∈ system.publication.observer →
          publication ∈ next.publication.observer := by
        rw [moves.observer]
        exact mem_append_left _
      obtain ⟨state, was, place⟩ := sound.deferred publication member current met
      by_cases same : current = events
      · subst same
        rw [guard] at was
        cases was
        refine ⟨after, own, ?_⟩
        cases line with
        | lost => trivial
        | ended _ nobody =>
          -- nobody waits, so that the event has been published
          have nowhere : publication ∉ system.waiting publication.sessionId := by
            rw [nobody]
            exact not_mem_nil
          cases before with
          | held => exact absurd place nowhere
          | committing pending => exact seen (place.resolve_right nowhere)
          | committed | discarded => cases active
        | taken _ pending split =>
          -- what leaves the line has come to the observer
          have passed : publication ∈ system.waiting publication.sessionId →
              publication ∈ next.publication.observer ∨
                publication ∈ next.waiting publication.sessionId := by
            intro waits
            rw [split] at waits
            rw [moves.observer, moves.lines, if_pos rfl]
            exact (mem_append.mp waits).imp (mem_append_right _) id
          cases before with
          | held => exact passed place
          | committing taken => exact place.elim (fun old => .inl (seen old)) passed
          | committed | discarded => cases active
      · refine ⟨state, theirs same was, ?_⟩
        cases state with
        | held | committing taken =>
          -- the line of another deferral stands
          refine place.imp seen fun waits => ?_
          rw [moves.lines, if_neg (different same was rfl)]
          exact waits
        | committed => exact seen place
        | discarded => trivial
    ordered := by
      intro publisher other
      have before := sound.ordered publisher other
      have same : next.line publisher other = (system.publication.observer ++ shown ++
          system.inHand publisher ++ next.waiting other).filter (isFrom publisher other) := by
        rw [PublicationSystem.line, moves.observer, PublicationSystem.inHand, moves.publishers]
        rfl
      rw [same]
      cases line with
      | ended | lost =>
        rw [append_nil]
        exact before.sublist (Sublist.filter _ (Sublist.append_left (fewer other) _))
      | taken _ _ split =>
        rw [moves.lines]
        split
        · next here =>
          subst here
          rw [sound.line_shown split]
          exact before
        · next elsewhere =>
          have foreign : shown.filter (isFrom publisher other) = [] := by
            apply List.filter_eq_nil_iff.mpr
            intro publication member fromPublisher
            have waits : publication ∈ system.waiting sessionId := by
              rw [split]
              exact mem_append_left _ member
            simp only [isFrom, Bool.and_eq_true, decide_eq_true_eq] at fromPublisher
            obtain ⟨-, whose, -⟩ := sound.waiting sessionId publication waits
            exact elsewhere (fromPublisher.2.symm.trans whose)
          rw [PublicationSystem.line] at before
          simp only [filter_append, foreign, append_nil] at before ⊢
          exact before }

theorem closed_guardMoves {after : GuardState} (inactive : after.isActive = false) :
    GuardMoves system (system.closed events sessionId after) events sessionId after [] [] := by
  refine ⟨rfl, rfl, rfl, (append_nil _).symm, rfl, ?_, waiting_closed sound present after⟩
  intro other
  by_cases same : other = sessionId
  · simp [closed, same, inactive]
  · simp [closed, same]

theorem moved_guardMoves (shown pending vector : List Publication) :
    GuardMoves system (system.moved events sessionId shown pending vector) events sessionId
      (.committing pending) shown (pending ++ vector) :=
  ⟨rfl, rfl, rfl, rfl, rfl, fun _ => (if_neg (by simp [GuardState.isActive])).symm,
    waiting_moved sound present shown pending vector⟩

end PublicationSystem

end Astrcode
