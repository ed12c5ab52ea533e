import Tern.Session.Steps

/-! The lifecycle of a session: the order of its events, and what closing it rules out. -/

namespace Tern.Session

open Desktop (Decision Jitter ReconnectPolicy)

section Events

/-- Only attempts to reconnect are reported. -/
def Retries (events : List SessionEvent) : Prop :=
  ∀ event ∈ events, ∃ attempt maxAttempts delayMs,
    event = .reconnecting attempt maxAttempts delayMs

/-- A first connection, and rounds of retries that each end in another one. -/
inductive Alternates : List SessionEvent → Prop where
  | first : Alternates [.connected]
  | again {events retries : List SessionEvent} (before : Alternates events)
      (some : retries ≠ []) (only : Retries retries) :
      Alternates (events ++ retries ++ [.connected])

/-- The events of a session so far are the beginning of an orderly life. -/
inductive WellFormed : List SessionEvent → Prop where
  | nothing : WellFormed []
  -- A round of retries may be under way, and need not have ended.
  | running {events retries : List SessionEvent} (before : Alternates events)
      (only : Retries retries) : WellFormed (events ++ retries)
  | disconnected {events retries : List SessionEvent} (before : Alternates events)
      (only : Retries retries) (reason : String) :
      WellFormed (events ++ retries ++ [.disconnected reason])
  | exited {events : List SessionEvent} (before : Alternates events) (code : Option UInt32) :
      WellFormed (events ++ [.exited code])

/-- The first event of a session that was ever connected says so. -/
theorem Alternates.head {events : List SessionEvent} (alternates : Alternates events) :
    events.head? = some .connected := by
  induction alternates with
  | first => rfl
  | again before _ _ ih => simp [List.head?_append, ih]

/-- An orderly life starts with a connection. -/
theorem WellFormed.head {events : List SessionEvent} (wellFormed : WellFormed events)
    (spoken : events ≠ []) : events.head? = some .connected := by
  -- Every kind of life begins with the first connection of its alternation.
  cases wellFormed with
  | nothing => exact absurd rfl spoken
  | running before only => simp [List.head?_append, before.head]
  | disconnected before only reason => simp [List.head?_append, before.head]
  | exited before code => simp [List.head?_append, before.head]

/-- The session is connected, or was and tries to be again. -/
def Running (events : List SessionEvent) : Prop :=
  ∃ before retries, Alternates before ∧ Retries retries ∧ events = before ++ retries

/-- The session was connected and has tried to be again. -/
def Retrying (events : List SessionEvent) : Prop :=
  ∃ before retries, Alternates before ∧ retries ≠ [] ∧ Retries retries ∧
    events = before ++ retries

/-- A connected session has nothing to retry yet. -/
theorem Alternates.running {events : List SessionEvent} (alternates : Alternates events) :
    Running events :=
  ⟨events, [], alternates, by simp [Retries], by simp⟩

/-- A session that retries is running. -/
theorem Retrying.running {events : List SessionEvent} (retrying : Retrying events) :
    Running events := by
  obtain ⟨before, retries, alternates, _, only, rfl⟩ := retrying
  exact ⟨before, retries, alternates, only, rfl⟩

/-- A running session has an orderly life so far. -/
theorem Running.wellFormed {events : List SessionEvent} (running : Running events) :
    WellFormed events := by
  obtain ⟨before, retries, alternates, only, rfl⟩ := running
  exact .running alternates only

/-- One more attempt is one more retry. -/
theorem Running.retry {events : List SessionEvent} (running : Running events)
    (attempt maxAttempts : UInt32) (delayMs : Nat) :
    Retrying (events ++ [.reconnecting attempt maxAttempts delayMs]) := by
  obtain ⟨before, retries, alternates, only, rfl⟩ := running
  -- The attempt goes into the round that is open, if there is one.
  refine ⟨before, retries ++ [.reconnecting attempt maxAttempts delayMs], alternates, by simp, ?_,
    by simp⟩
  intro event member
  rcases List.mem_append.mp member with earlier | last
  · exact only event earlier
  · exact ⟨attempt, maxAttempts, delayMs, List.mem_singleton.mp last⟩

/-- Giving up ends an orderly life. -/
theorem Running.giveUp {events : List SessionEvent} (running : Running events) (reason : String) :
    WellFormed (events ++ [.disconnected reason]) := by
  obtain ⟨before, retries, alternates, only, rfl⟩ := running
  exact .disconnected alternates only reason

/-- A connection ends a round of retries. -/
theorem Retrying.connect {events : List SessionEvent} (retrying : Retrying events) :
    Alternates (events ++ [.connected]) := by
  obtain ⟨before, retries, alternates, some, only, rfl⟩ := retrying
  exact .again alternates some only

end Events

section Narration

variable {setup : Setup} {state next : State}

/-- What the supervisor has made known where it stands, if the session was announced first. -/
def Spoken : Phase → List SessionEvent → Prop
  -- Up to the decision nothing was said since the last connection.
  | .pumping, events => Alternates events
  | .forwarding _, events => Alternates events
  | .ended, events => Alternates events
  | .classifying, events => Alternates events
  | .exiting _, events => Alternates events
  | .losing, events => Alternates events
  | .dropped, events => Alternates events
  -- The first decision comes before any retry of its round, the later ones behind some.
  | .deciding _ decision, events => Running events ∧ ∀ code, decision ≠ .exit code
  | .backingOff _, events => Retrying events
  | .awake _, events => Retrying events
  | .clear _, events => Retrying events
  | .sizing _ _, events => Retrying events
  | .attempting _ _, events => Retrying events
  | .established, events => Retrying events
  | .installed, events => Retrying events
  | .reopened, events => Retrying events
  -- It may have stopped anywhere, with or without a last word.
  | .stopped, events => WellFormed events

/-- The events as they stand once the session is announced. -/
def State.heard (self : State) : List SessionEvent :=
  if self.opening = .spawned then .connected :: self.events else self.events

/-- The supervisor speaks only after the session was announced, and in order. -/
structure Narrates (state : State) : Prop where
  unannounced : state.opening = .spawned → state.events = []
  spoken : Spoken state.phase state.heard

/-- The next thing the supervisor does is to report something. -/
def Phase.reports : Phase → Bool
  | .exiting _ => true
  | .losing => true
  | .deciding _ _ => true
  | .reopened => true
  | _ => false

/-- The supervisor reports something only once the session is announced. -/
def ReportsAnnounced (state : State) : Action → Prop
  | .supervise .next => state.phase.reports = true → state.opening ≠ .spawned
  | _ => True

/-- Whatever was spoken is an orderly life. -/
theorem Spoken.wellFormed {phase : Phase} {events : List SessionEvent}
    (spoken : Spoken phase events) : WellFormed events := by
  -- Before a drop the life is a connection, behind it a round of retries.
  cases phase with
  | pumping => exact Alternates.running spoken |>.wellFormed
  | forwarding chunk => exact Alternates.running spoken |>.wellFormed
  | ended => exact Alternates.running spoken |>.wellFormed
  | classifying => exact Alternates.running spoken |>.wellFormed
  | exiting code => exact Alternates.running spoken |>.wellFormed
  | losing => exact Alternates.running spoken |>.wellFormed
  | dropped => exact Alternates.running spoken |>.wellFormed
  | deciding reason decision => exact spoken.1.wellFormed
  | backingOff attempt => exact Retrying.running spoken |>.wellFormed
  | awake attempt => exact Retrying.running spoken |>.wellFormed
  | clear attempt => exact Retrying.running spoken |>.wellFormed
  | sizing attempt cols => exact Retrying.running spoken |>.wellFormed
  | attempting attempt size => exact Retrying.running spoken |>.wellFormed
  | established => exact Retrying.running spoken |>.wellFormed
  | installed => exact Retrying.running spoken |>.wellFormed
  | reopened => exact Retrying.running spoken |>.wellFormed
  | stopped => exact spoken

/-- The events so far are an orderly life when the supervisor kept to its turn. -/
theorem Narrates.wellFormed (narrates : Narrates state) : WellFormed state.events := by
  by_cases spawned : state.opening = .spawned
  · -- Before the announcement nothing was said at all.
    rw [narrates.unannounced spawned]
    exact .nothing
  · have spoken := narrates.spoken.wellFormed
    rwa [State.heard, if_neg spawned] at spoken

/-- A policy never decides on an exit after a drop. -/
theorem decide_dropped_ne_exit (policy : ReconnectPolicy) (attempt : UInt32) (rand01 : Jitter)
    (code : Option UInt32) : policy.decide .dropped attempt rand01 ≠ .exit code := by
  -- A drop is answered by another attempt or by giving up, whatever the policy says.
  simp only [ReconnectPolicy.decide, ReconnectPolicy.reconnectOrGiveUp]
  split
  · simp
  · split
    · simp
    · simp

/-- A policy never decides on an exit after a failed attempt. -/
theorem afterFailedAttempt_ne_exit (policy : ReconnectPolicy) (attempt : UInt32)
    (retryable : Bool) (rand01 : Jitter) (code : Option UInt32) :
    policy.afterFailedAttempt attempt retryable rand01 ≠ .exit code := by
  unfold ReconnectPolicy.afterFailedAttempt
  split
  · simp
  · exact decide_dropped_ne_exit policy _ rand01 code

/-- Where nothing is reported, the supervisor has said what it had said before. -/
theorem narrates_silent (narrates : Narrates state) (events : next.events = state.events)
    (opening : next.opening = state.opening) (spoken : Spoken next.phase state.heard) :
    Narrates next := by
  refine ⟨?_, ?_⟩
  · rw [events, opening]
    exact narrates.unannounced
  · simpa only [State.heard, events, opening] using spoken

/-- What is reported after the announcement comes behind everything before it. -/
theorem narrates_report {event : SessionEvent}
    (events : next.events = state.events ++ [event]) (opening : next.opening = state.opening)
    (announced : state.opening ≠ .spawned)
    (spoken : Spoken next.phase (state.heard ++ [event])) : Narrates next := by
  -- Once the session is announced, what is heard is what was sent.
  refine ⟨?_, ?_⟩
  · intro spawned
    rw [opening] at spawned
    exact absurd spawned announced
  · simpa only [State.heard, events, opening, if_neg announced] using spoken

/-- From one phase to the next nothing is reported, and what was spoken so far still fits. -/
theorem narrates_onward (narrates : Narrates state) {phase onto : Phase}
    (stands : state.phase = phase) (reaches : next.phase = onto)
    (events : next.events = state.events) (opening : next.opening = state.opening)
    (fits : Spoken phase state.heard → Spoken onto state.heard) : Narrates next := by
  subst stands reaches
  exact narrates_silent narrates events opening (fits narrates.spoken)

/-- A decision is acted on by announcing the next attempt or by giving up. -/
theorem narrates_acted (narrates : Narrates state) {reason : String} {decision : Decision}
    (deciding : state.phase = .deciding reason decision) (announced : state.opening ≠ .spawned) :
    Narrates (state.act setup reason decision) := by
  have spoken := narrates.spoken
  rw [deciding] at spoken
  obtain ⟨running, unexited⟩ := spoken
  cases decision with
  -- The branch for an exit is never taken.
  | exit code => exact absurd rfl (unexited code)
  | reconnect attempt delay => exact narrates_report rfl rfl announced (running.retry _ _ _)
  | giveUp => exact narrates_report rfl rfl announced (running.giveUp _)

/-- A move of the supervisor keeps to the order when it reports after the announcement. -/
theorem narrates_moves {input : Input} (narrates : Narrates state)
    (moves : Moves setup state input next)
    (allowed : ReportsAnnounced state (.supervise input)) : Narrates next := by
  have spoken := narrates.spoken
  cases moves with
  -- A stop leaves the life as far as it got.
  | stopped waits shut => exact narrates_silent narrates rfl rfl spoken.wellFormed
  | refused forwarding gone => exact narrates_silent narrates rfl rfl spoken.wellFormed
  | endedShut ended shut => exact narrates_silent narrates rfl rfl spoken.wellFormed
  | awakeShut awake shut => exact narrates_silent narrates rfl rfl spoken.wellFormed
  -- Between two reports the phase moves on within the same part of the life.
  | received pumping reads queued => exact narrates_onward narrates pumping rfl rfl rfl id
  | drained pumping reads empty done => exact narrates_onward narrates pumping rfl rfl rfl id
  | forwarded forwarding takes room => exact narrates_onward narrates forwarding rfl rfl rfl id
  | endedOpen ended unshut => exact narrates_onward narrates ended rfl rfl rfl id
  | finished classifying reads final =>
    exact narrates_onward narrates classifying rfl rfl rfl id
  | broken classifying reads lost =>
    cases setup.reconnector with
    | false => exact narrates_onward narrates classifying rfl rfl rfl id
    | true => exact narrates_onward narrates classifying rfl rfl rfl id
  | elapsed backingOff => exact narrates_onward narrates backingOff rfl rfl rfl id
  | awakeOpen awake unshut => exact narrates_onward narrates awake rfl rfl rfl id
  | readCols clear => exact narrates_onward narrates clear rfl rfl rfl id
  | readRows sizing => exact narrates_onward narrates sizing rfl rfl rfl id
  | succeeded attempting => exact narrates_onward narrates attempting rfl rfl rfl id
  | installed established => exact narrates_onward narrates established rfl rfl rfl id
  | reset installed => exact narrates_onward narrates installed rfl rfl rfl id
  -- A decision is made here, and not yet acted on.
  | drawn dropped =>
    exact narrates_onward narrates dropped rfl rfl rfl fun before =>
      ⟨Alternates.running before, decide_dropped_ne_exit _ _ _⟩
  | failed attempting =>
    exact narrates_onward narrates attempting rfl rfl rfl fun before =>
      ⟨Retrying.running before, afterFailedAttempt_ne_exit _ _ _ _⟩
  | acted deciding => exact narrates_acted narrates deciding (allowed (by rw [deciding]; rfl))
  -- An exit comes directly behind a connection.
  | exited exiting =>
    rw [exiting] at spoken
    exact narrates_report rfl rfl (allowed (by rw [exiting]; rfl)) (.exited spoken _)
  | abandoned losing =>
    rw [losing] at spoken
    have announced := allowed (by rw [losing]; rfl)
    exact narrates_report rfl rfl announced (Alternates.running spoken |>.giveUp _)
  -- The new connection closes the round of retries.
  | connected reopened =>
    rw [reopened] at spoken
    have announced := allowed (by rw [reopened]; rfl)
    exact narrates_report rfl rfl announced (Retrying.connect spoken)

/-- One action keeps to the order when the supervisor reports after the announcement. -/
theorem narrates_step {action : Action} (narrates : Narrates state)
    (taken : step setup state action = some next) (allowed : ReportsAnnounced state action) :
    Narrates next := by
  cases takes_step taken with
  | supervise moves => exact narrates_moves narrates moves allowed
  | announce spawned =>
    -- The announcement takes the place that was kept for it.
    have spoken := narrates.spoken
    rw [State.heard, if_pos spawned, narrates.unannounced spawned] at spoken
    refine ⟨by simp, ?_⟩
    simpa [State.heard, State.send, narrates.unannounced spawned] using spoken
  -- Registering says nothing, and the announcement stays where it is.
  | register announced =>
    have spoken := narrates.spoken
    rw [State.heard, if_neg (by simp [announced])] at spoken
    exact ⟨by simp, by simpa [State.heard] using spoken⟩
  | shell reads stepped => exact narrates_silent narrates rfl rfl narrates.spoken
  | path stepped => exact narrates_silent narrates rfl rfl narrates.spoken
  | invoke command => exact narrates_silent narrates rfl rfl narrates.spoken
  | began idle queued found => exact narrates_silent narrates rfl rfl narrates.spoken
  | unknown idle queued lost => exact narrates_silent narrates rfl rfl narrates.spoken
  | grasped runs => exact narrates_silent narrates rfl rfl narrates.spoken
  | paused runs => exact narrates_silent narrates rfl rfl narrates.spoken
  | resize found => exact narrates_silent narrates rfl rfl narrates.spoken
  | setCols flies => exact narrates_silent narrates rfl rfl narrates.spoken
  | setRows flies => exact narrates_silent narrates rfl rfl narrates.spoken
  | handled flies => exact narrates_silent narrates rfl rfl narrates.spoken
  | changed flies => exact narrates_silent narrates rfl rfl narrates.spoken
  | remove found => exact narrates_silent narrates rfl rfl narrates.spoken
  | shutdown removed => exact narrates_silent narrates rfl rfl narrates.spoken

/-- Only a report of the supervisor can come too early. -/
theorem reports_of_early {action : Action} (early : ¬ReportsAnnounced state action) :
    action = .supervise .next ∧ state.phase.reports = true ∧ state.opening = .spawned := by
  -- The condition is about nothing else, so it can fail for nothing else.
  cases action with
  | supervise input =>
    cases input with
    | next =>
      obtain ⟨reports, spawned⟩ := Classical.not_imp.mp early
      exact ⟨rfl, reports, not_not.mp spawned⟩
    | _ => exact absurd trivial early
  | _ => exact absurd trivial early

/-- A report before the announcement is a first event that does not say the session connected. -/
theorem disorder_of_early_report {action : Action} (narrates : Narrates state)
    (taken : step setup state action = some next) (early : ¬ReportsAnnounced state action) :
    ¬WellFormed next.events := by
  obtain ⟨rfl, reports, spawned⟩ := reports_of_early early
  -- Only an event other than a connection can come first here.
  have disorder (event : SessionEvent) (other : event ≠ .connected)
      (events : next.events = state.events ++ [event]) : ¬WellFormed next.events := by
    intro wellFormed
    rw [events, narrates.unannounced spawned, List.nil_append] at wellFormed
    have first := wellFormed.head (List.cons_ne_nil _ _)
    simp only [List.head?_cons, Option.some.injEq] at first
    exact other first
  have spoken := narrates.spoken
  -- Each reporting phase is looked at in turn, and what it sends comes first of all.
  change superviseStep setup state .next = some next at taken
  unfold superviseStep at taken
  cases phase : state.phase with
  | exiting code =>
    rw [phase] at taken
    cases taken
    exact disorder (.exited code) (by simp) rfl
  | losing =>
    rw [phase] at taken
    cases taken
    exact disorder (.disconnected "connection lost") (by simp) rfl
  | deciding reason decision =>
    rw [phase] at taken
    cases taken
    cases decision with
    | exit code => exact disorder (.exited code) (by simp) rfl
    | reconnect attempt delay =>
      exact disorder (.reconnecting attempt setup.policy.maxAttempts (millisU64 delay))
        (by simp) rfl
    | giveUp => exact disorder (.disconnected reason) (by simp) rfl
  | reopened =>
    -- The supervisor is not there before it has reported a retry.
    rw [phase, State.heard, if_pos spawned, narrates.unannounced spawned] at spoken
    obtain ⟨before, retries, alternates, nonempty, _, split⟩ := spoken
    have lengths := congrArg List.length split
    have longer := List.length_pos_iff.mpr nonempty
    have opened : 0 < before.length := by
      cases before with
      | nil => cases alternates.head
      | cons _ _ => simp
    simp only [List.length_cons, List.length_nil, List.length_append] at lengths
    omega
  | _ =>
    rw [phase] at reports
    cases reports

/--
The events of a session are in order in every state of a run
exactly when the supervisor reports nothing before the session is announced.
-/
theorem lifecycle_events_ordered_iff (setup : Setup) (actions : List Action) :
    System.Throughout (step setup) (fun state => WellFormed state.events) (State.init setup)
        actions ↔
      System.Meets (step setup) ReportsAnnounced (State.init setup) actions := by
  apply System.throughout_iff_meets Narrates.wellFormed narrates_step disorder_of_early_report
  · intro state action refused
    by_contra early
    -- A report is never held up, so it is not what was refused here.
    obtain ⟨rfl, reports, _⟩ := reports_of_early early
    change superviseStep setup state .next = none at refused
    unfold superviseStep at refused
    cases phase : state.phase with
    | exiting code =>
      rw [phase] at refused
      cases refused
    | losing =>
      rw [phase] at refused
      cases refused
    | deciding reason decision =>
      rw [phase] at refused
      cases refused
    | reopened =>
      rw [phase] at refused
      cases refused
    | _ =>
      rw [phase] at reports
      cases reports
  · exact ⟨fun _ => rfl, .first⟩

/-- The shell ends at once, and the supervisor sees it before the session is announced. -/
def endsAtOnce : List Action :=
  [.shell 0 (.arrive (.exitStatus 0)), .shell 0 .hangUp, .shell 0 .check, .shell 0 .take,
    .shell 0 .check, .shell 0 .take, .supervise .next, .supervise .next, .supervise .next,
    .supervise .next, .announce]

/-- The session is announced as connected behind its own exit. -/
theorem connected_after_exited :
    (∃ final, System.run (step savedHost) (State.init savedHost) endsAtOnce = some final ∧
      final.events = [.exited (some 0), .connected]) ∧
    ¬System.Throughout (step savedHost) (fun state => WellFormed state.events)
      (State.init savedHost) endsAtOnce := by
  -- The life that was told starts with an exit, and no orderly one does.
  have ends : ∃ final, System.run (step savedHost) (State.init savedHost) endsAtOnce =
      some final ∧ final.events = [.exited (some 0), .connected] := ⟨_, rfl, rfl⟩
  refine ⟨ends, ?_⟩
  intro throughout
  obtain ⟨final, ran, events⟩ := ends
  have wellFormed := throughout.final ran
  rw [events] at wellFormed
  cases wellFormed.head (List.cons_ne_nil _ _)

end Narration

section Closing

variable {setup : Setup} {state next : State}

/-- The supervisor goes on from here to a connection without looking for a close again. -/
def Phase.committed : Phase → Bool
  | .clear _ => true
  | .sizing _ _ => true
  | .established => true
  | .installed => true
  | .reopened => true
  | _ => false

/-- A close finds the supervisor where it still looks, and no attempt succeeds behind it. -/
def ClosesInTime (state : State) : Action → Prop
  | .shutdown => state.phase.committed = false
  | .supervise .succeed => state.isShutdown = false
  | _ => True

/-- A supervisor that was told to shut down is not on its way to a connection. -/
structure Yields (state : State) : Prop where
  registered : state.closing ≠ .open → state.opening = .registered
  uncommitted : state.isShutdown = true → state.phase.committed = false

/-- Nothing that a close rules out happened between two states. -/
structure Unmoved (earlier later : State) : Prop where
  attempts : later.attempts = earlier.attempts
  conn : later.conn = earlier.conn
  connected : later.events.count .connected = earlier.events.count .connected

/-- A move of the supervisor past its last look finds no close, or was on its way already. -/
theorem yields_moves {input : Input} (allowed : ClosesInTime state (.supervise input))
    (yields : Yields state) (moves : Moves setup state input next) : Yields next := by
  obtain ⟨registered, uncommitted⟩ := yields
  -- A supervisor that is on its way already has not been told.
  have unheard (before : state.phase.committed = true) (shut : state.isShutdown = true) :
      next.phase.committed = false := by
    rw [uncommitted shut] at before
    cases before
  cases moves with
  -- The supervisor has just looked, and found no close.
  | awakeOpen awake unshut =>
    refine ⟨registered, fun shut => ?_⟩
    have told : state.isShutdown = true := shut
    rw [unshut] at told
    cases told
  | readCols clear => exact ⟨registered, unheard (by rw [clear]; rfl)⟩
  -- An attempt that succeeds behind the close is what the condition rules out.
  | succeeded attempting =>
    refine ⟨registered, fun shut => ?_⟩
    have told : state.isShutdown = true := shut
    rw [show state.isShutdown = false from allowed] at told
    cases told
  | installed established => exact ⟨registered, unheard (by rw [established]; rfl)⟩
  | reset installed => exact ⟨registered, unheard (by rw [installed]; rfl)⟩
  | broken classifying reads lost =>
    refine ⟨registered, fun _ => ?_⟩
    cases setup.reconnector with
    | false => rfl
    | true => rfl
  | @acted reason decision deciding =>
    cases decision with
    | exit code => exact ⟨registered, fun _ => rfl⟩
    | reconnect attempt delay => exact ⟨registered, fun _ => rfl⟩
    | giveUp => exact ⟨registered, fun _ => rfl⟩
  -- Every other move leads to where the supervisor still looks.
  | _ => exact ⟨registered, fun _ => rfl⟩

/-- A close that comes in time stays ahead of the supervisor. -/
theorem yields_step {action : Action} (allowed : ClosesInTime state action)
    (yields : Yields state) (taken : step setup state action = some next) : Yields next := by
  obtain ⟨registered, uncommitted⟩ := yields
  cases takes_step taken with
  | supervise moves => exact yields_moves allowed ⟨registered, uncommitted⟩ moves
  -- A session is closed only after it was registered.
  | announce spawned =>
    refine ⟨fun closes => ?_, uncommitted⟩
    rw [registered closes] at spawned
    cases spawned
  | register announced => exact ⟨fun _ => rfl, uncommitted⟩
  | remove found =>
    refine ⟨fun _ => ?_, fun shut => by cases shut⟩
    simp only [State.found, Bool.and_eq_true, beq_iff_eq] at found
    exact found.1
  -- The close itself finds the supervisor uncommitted.
  | shutdown removed => exact ⟨fun _ => registered (by simp [removed]), fun _ => allowed⟩
  | _ => exact ⟨registered, uncommitted⟩

/-- Behind a close that came in time, no action does what the close rules out. -/
theorem unmoved_step {action : Action} (yields : Yields state) (shut : state.isShutdown = true)
    (taken : step setup state action = some next) :
    next.isShutdown = true ∧ Unmoved state next := by
  have uncommitted := yields.uncommitted shut
  have closes : state.closing = .shutdown := by simpa [State.isShutdown] using shut
  cases takes_step taken with
  | supervise moves =>
    cases moves with
    -- The three moves that a close rules out start from where the supervisor is committed.
    | readRows sizing =>
      rw [sizing] at uncommitted
      cases uncommitted
    | installed established =>
      rw [established] at uncommitted
      cases uncommitted
    | connected reopened =>
      rw [reopened] at uncommitted
      cases uncommitted
    | exited => exact ⟨shut, rfl, rfl, by simp [State.send]⟩
    | abandoned => exact ⟨shut, rfl, rfl, by simp [State.send]⟩
    | @acted reason decision =>
      cases decision with
      | exit code => exact ⟨shut, rfl, rfl, by simp [State.act, State.send]⟩
      | reconnect attempt delay => exact ⟨shut, rfl, rfl, by simp [State.act, State.send]⟩
      | giveUp => exact ⟨shut, rfl, rfl, by simp [State.act, State.send]⟩
    | _ => exact ⟨shut, rfl, rfl, rfl⟩
  -- The first connection was announced long before.
  | announce spawned =>
    rw [yields.registered (by simp [closes])] at spawned
    cases spawned
  | remove found => simp [State.found, closes] at found
  | shutdown removed =>
    rw [closes] at removed
    cases removed
  | _ => exact ⟨shut, rfl, rfl, rfl⟩

/--
Once a close has told the supervisor, in a run where closes come in time,
no attempt is started, nothing is installed and no connection is announced.
-/
theorem closing_wins (setup : Setup) {before after : List Action} {closed final : State}
    (meets : System.Meets (step setup) ClosesInTime (State.init setup) (before ++ after))
    (reached : System.run (step setup) (State.init setup) before = some closed)
    (shut : closed.isShutdown = true)
    (onward : System.run (step setup) closed after = some final) : Unmoved closed final := by
  -- The condition is used up to the close for the state it finds.
  have yields : Yields closed := by
    apply System.run_invariant yields_step meets.left ⟨?_, ?_⟩ reached
    · intro closes
      exact absurd rfl closes
    · intro shut
      cases shut
  -- From there on, each state is as the closed one was.
  have still : Yields final ∧ final.isShutdown = true ∧ Unmoved closed final := by
    apply System.run_invariant ?_ (meets.of_append reached) ⟨yields, shut, rfl, rfl, rfl⟩ onward
    rintro state next action allowed ⟨yields, shut, unmoved⟩ taken
    obtain ⟨shut', kept⟩ := unmoved_step yields shut taken
    exact ⟨yields_step allowed yields taken, shut', kept.attempts.trans unmoved.attempts,
      kept.conn.trans unmoved.conn, kept.connected.trans unmoved.connected⟩
  exact still.2.2

/-- A session that drops, whose tab is closed while it waits for the first attempt. -/
def closedWhileWaiting : List Action × List Action :=
  ([.announce, .register, .shell 0 .lose, .shell 0 .check, .shell 0 .take, .supervise .next,
      .supervise .next, .supervise .next, .supervise (.draw none), .supervise .next, .remove,
      .shutdown],
    [.supervise .next, .supervise .next])

/-- The supervisor wakes up once more, and stops. -/
theorem closing_wins_while_waiting :
    ∃ closed final,
      System.Meets (step savedHost) ClosesInTime (State.init savedHost)
        (closedWhileWaiting.1 ++ closedWhileWaiting.2) ∧
      System.run (step savedHost) (State.init savedHost) closedWhileWaiting.1 = some closed ∧
      closed.isShutdown = true ∧
      System.run (step savedHost) closed closedWhileWaiting.2 = some final ∧
      final.phase = .stopped ∧ Unmoved closed final := by
  have meets : System.Meets (step savedHost) ClosesInTime (State.init savedHost)
      (closedWhileWaiting.1 ++ closedWhileWaiting.2) := by
    -- Only the close itself is guarded here, and it finds the supervisor waiting.
    simp only [closedWhileWaiting, List.cons_append, List.nil_append]
    iterate 11 refine .cons trivial rfl ?_
    refine .cons rfl rfl ?_
    iterate 2 refine .cons trivial rfl ?_
    trivial
  have reached : ∃ closed,
      System.run (step savedHost) (State.init savedHost) closedWhileWaiting.1 = some closed ∧
      closed.isShutdown = true ∧
      ∃ final, System.run (step savedHost) closed closedWhileWaiting.2 = some final ∧
        final.phase = .stopped := ⟨_, rfl, rfl, _, rfl, rfl⟩
  obtain ⟨closed, reached, shut, final, onward, stopped⟩ := reached
  exact ⟨closed, final, meets, reached, shut, onward, stopped,
    closing_wins savedHost meets reached shut onward⟩

/-- A session that drops, whose tab is closed while the first attempt is in flight. -/
def closedWhileAttempting : List Action × List Action :=
  ([.announce, .register, .shell 0 .lose, .shell 0 .check, .shell 0 .take, .supervise .next,
      .supervise .next, .supervise .next, .supervise (.draw none), .supervise .next,
      .supervise .next, .supervise .next, .supervise .next, .supervise .next, .remove, .shutdown],
    [.supervise .succeed, .supervise .next, .supervise .next, .supervise .next])

/-- The attempt succeeds, is installed into the closed session and announced as connected. -/
theorem closed_session_reconnects :
    ∃ closed final,
      System.run (step savedHost) (State.init savedHost) closedWhileAttempting.1 = some closed ∧
      closed.isShutdown = true ∧
      System.run (step savedHost) closed closedWhileAttempting.2 = some final ∧
      closed.conn = 0 ∧ final.conn = 1 ∧ closed.events.count .connected = 1 ∧
      final.events.count .connected = 2 ∧ ¬Unmoved closed final := by
  refine ⟨_, _, rfl, rfl, rfl, rfl, rfl, by decide, by decide, ?_⟩
  intro unmoved
  cases unmoved.conn

end Closing

end Tern.Session
