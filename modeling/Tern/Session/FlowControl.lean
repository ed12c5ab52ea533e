import Tern.Session.Delivery

/-! Flow control from end to end: the webview's idea of being paused against the desktop's gate. -/

namespace Tern.Session

open TermStream (Coalescer CoalescerConfig StreamStats)
open Webview (FlowCommand FlowStats TermSession highWatermark)

section Tab

/-- A session together with the webview's end of it. -/
structure Tab where
  session : State
  term : TermSession
  /-- The controller has the session on record. -/
  listed : Bool
  /-- How many of the session's events were handled. -/
  handled : Nat
  /-- How many of the frames sent were taken in. -/
  ingested : Nat

/-- A tab whose call to open a session has just spawned the supervisor. -/
def Tab.init (setup : Setup) : Tab := ⟨.init setup, .new, false, 0, 0⟩

/-- The webview goes on, and whatever it invoked meanwhile is queued for execution. -/
def Tab.relay (self : Tab) (term : TermSession) : Tab :=
  { self with
    term
    session := { self.session with
      commands := self.session.commands ++ term.invoked.drop self.term.invoked.length } }

/-- The controller's handling of one event. -/
def Tab.handle (self : Tab) : SessionEvent → Tab
  | .connected => self
  | .reconnecting _ _ _ =>
    -- An event for a session that is not on record is passed over.
    if self.listed then self.relay self.term.resetFlowState.resetJsStats else self
  -- The record is dropped, and the flag is left as it was.
  | .disconnected _ => { self with listed := false }
  | .exited _ => { self with listed := false }

/-- What can happen to an open tab. -/
inductive TabAction where
  | session (action : Action)
  /-- The next frame reaches the webview, and callbacks at some places fire while it is written. -/
  | frame (fired : List Nat)
  | parsed (index : Nat)
  /-- The next event reaches the controller. -/
  | event
  /-- The call that opens the session returns its id. -/
  | opened (id : String)

/-- The actions of a session that come from nowhere else: not its webview, and not a close. -/
def Action.isOwn : Action → Bool
  | .invoke _ => false
  | .remove => false
  | .shutdown => false
  | _ => true

/-- The tab after one action. -/
def tabStep (setup : Setup) (tab : Tab) : TabAction → Option Tab
  | .session action =>
    -- Commands enter through the webview only.
    if action.isOwn then (step setup tab.session action).map fun session => { tab with session }
    else none
  | .frame fired =>
    match tab.session.path.sent[tab.ingested]? with
    | none => none
    | some bytes =>
      (tab.term.ingest bytes fired).map fun term =>
        { tab.relay term with ingested := tab.ingested + 1 }
  | .parsed index => (tab.term.fire index).map tab.relay
  | .event =>
    match tab.session.events[tab.handled]? with
    | none => none
    | some event => some { tab.handle event with handled := tab.handled + 1 }
  | .opened id =>
    -- The id is known only once the call has returned, and events can come before that.
    if tab.session.opening = .registered ∧ tab.term.id = "" ∧ id ≠ "" then
      some { tab with term := { tab.term with id }, listed := true }
    else none

/-- No command and no event is in flight. -/
def Tab.Settled (self : Tab) : Prop :=
  self.session.commands = [] ∧ self.session.running = none ∧
    self.handled = self.session.events.length

end Tab

section Commands

/-- What a flag is once some commands have written it. -/
def settle (paused : Bool) (commands : List FlowCommand) : Bool :=
  commands.foldl (fun _ command => pauses command) paused

/-- Commands write one after another. -/
@[simp] theorem settle_append (paused : Bool) (before after : List FlowCommand) :
    settle paused (before ++ after) = settle (settle paused before) after := by
  simp [settle]

/-- Without commands a flag stays as it is. -/
@[simp] theorem settle_nil (paused : Bool) : settle paused [] = paused := rfl

/-- The webview went on and invoked commands that say what its flag has become. -/
structure Invokes (before after : TermSession) (commands : List FlowCommand) : Prop where
  id : after.id = before.id
  invoked : after.invoked = before.invoked ++ commands
  named : before.id ≠ "" → after.flow.paused = settle before.flow.paused commands
  unnamed : before.id = "" → commands = []

variable {before middle after : TermSession} {first second : List FlowCommand}

/-- A webview that stands still invokes nothing. -/
theorem Invokes.refl (session : TermSession) : Invokes session session [] where
  id := rfl
  invoked := by simp
  named := fun _ => rfl
  unnamed := fun _ => rfl

/-- What is invoked one after another is invoked in all. -/
theorem Invokes.trans (begins : Invokes before middle first) (ends : Invokes middle after second) :
    Invokes before after (first ++ second) where
  -- The commands of both are settled one after the other.
  id := ends.id.trans begins.id
  invoked := by rw [ends.invoked, begins.invoked, List.append_assoc]
  named := by
    intro named
    rw [ends.named (begins.id ▸ named), begins.named named, settle_append]
  unnamed := by
    intro unnamed
    rw [begins.unnamed unnamed, ends.unnamed (begins.id.trans unnamed), List.append_nil]

/-- Setting the flag and invoking the command for it goes together. -/
theorem invokes_flag (session : TermSession) (flow : FlowStats) (command : FlowCommand)
    (flag : flow.paused = pauses command) :
    ∃ commands, Invokes session ({ session with flow }.invoke command) commands := by
  unfold TermSession.invoke
  by_cases unnamed : session.id = ""
  · -- Under an empty id nothing is invoked, so the flag changes alone.
    refine ⟨[], ?_⟩
    rw [if_pos unnamed]
    exact ⟨rfl, by simp, fun named => absurd unnamed named, fun _ => rfl⟩
  · refine ⟨[command], ?_⟩
    rw [if_neg unnamed]
    exact ⟨rfl, rfl, fun _ => flag, fun named => absurd named unnamed⟩

/-- A write callback resumes the producer or leaves the flag alone. -/
theorem invokes_parsed (session : TermSession) (bytes : Bytes) :
    ∃ commands, Invokes session (session.parsed bytes) commands := by
  unfold TermSession.parsed
  dsimp only
  split
  · -- The backlog fell below the lower mark.
    exact invokes_flag session _ .resume rfl
  · exact ⟨[], rfl, by simp, fun _ => rfl, fun _ => rfl⟩

/-- A callback that fires invokes what its write callback does. -/
theorem invokes_fire {index : Nat} (fired : before.fire index = some after) :
    ∃ commands, Invokes before after commands := by
  obtain ⟨bytes, _, rfl⟩ := Option.map_eq_some_iff.mp fired
  obtain ⟨commands, id, invoked, named, unnamed⟩ :=
    invokes_parsed { before with unparsed := before.unparsed.eraseIdx index } bytes
  exact ⟨commands, id, invoked, named, unnamed⟩

/-- The callbacks that fire during a write invoke their commands in turn. -/
theorem invokes_fires {fired : List Nat}
    (fires : fired.foldlM TermSession.fire before = some after) :
    ∃ commands, Invokes before after commands := by
  induction fired generalizing before with
  | nil =>
    cases fires
    exact ⟨[], .refl _⟩
  | cons index rest ih =>
    rw [List.foldlM_cons] at fires
    -- Each callback sees the flag as the one before it left it.
    obtain ⟨middle, one, onward⟩ := Option.bind_eq_some_iff.mp fires
    obtain ⟨first, begins⟩ := invokes_fire one
    obtain ⟨second, ends⟩ := ih onward
    exact ⟨first ++ second, begins.trans ends⟩

/-- A backlog above the mark pauses the producer, and anything else leaves the flag alone. -/
theorem invokes_throttle (session : TermSession) :
    ∃ commands, Invokes session session.throttle commands := by
  unfold TermSession.throttle
  split
  · exact invokes_flag session _ .pause rfl
  · exact ⟨[], .refl _⟩

/-- Taking a frame in invokes what the callbacks and the backlog ask for. -/
theorem invokes_ingest {bytes : Bytes} {fired : List Nat}
    (taken : before.ingest bytes fired = some after) :
    ∃ commands, Invokes before after commands := by
  obtain ⟨written, fires, rfl⟩ := Option.map_eq_some_iff.mp taken
  -- Handing the frame over invokes nothing, and the throttle looks at what the callbacks left.
  have handed : Invokes before (before.hand bytes) [] :=
    ⟨rfl, by simp [TermSession.hand], fun _ => rfl, fun _ => rfl⟩
  obtain ⟨first, begins⟩ := invokes_fires fires
  obtain ⟨second, ends⟩ := invokes_throttle written
  exact ⟨[] ++ first ++ second, (handed.trans begins).trans ends⟩

/-- A callback does not pause a producer that was not paused, and lowers the backlog. -/
theorem unpaused_fire {index : Nat} (unpaused : before.flow.paused = false)
    (fired : before.fire index = some after) :
    after.flow.paused = false ∧ after.flow.pendingBytes ≤ before.flow.pendingBytes := by
  -- A callback takes its bytes off the backlog, which only ever lifts a pause.
  obtain ⟨bytes, _, rfl⟩ := Option.map_eq_some_iff.mp fired
  refine ⟨?_, ?_⟩
  · simp [TermSession.parsed, unpaused]
  · rw [Webview.pendingBytes_parsed]
    simp

/-- Nor do the callbacks that fire during a write. -/
theorem unpaused_fires {fired : List Nat} (unpaused : before.flow.paused = false)
    (fires : fired.foldlM TermSession.fire before = some after) :
    after.flow.paused = false ∧ after.flow.pendingBytes ≤ before.flow.pendingBytes := by
  -- Each callback leaves a lower backlog to the next one.
  induction fired generalizing before with
  | nil =>
    cases fires
    exact ⟨unpaused, le_rfl⟩
  | cons index rest ih =>
    rw [List.foldlM_cons] at fires
    obtain ⟨middle, one, onward⟩ := Option.bind_eq_some_iff.mp fires
    obtain ⟨still, lower⟩ := unpaused_fire unpaused one
    obtain ⟨end_, lowest⟩ := ih still onward
    exact ⟨end_, le_trans lowest lower⟩

/-- A frame that stays below the mark does not pause the producer. -/
theorem unpaused_ingest {bytes : Bytes} {fired : List Nat} (unpaused : before.flow.paused = false)
    (below : before.flow.pendingBytes + bytes.length ≤ highWatermark)
    (taken : before.ingest bytes fired = some after) : after.flow.paused = false := by
  obtain ⟨written, fires, rfl⟩ := Option.map_eq_some_iff.mp taken
  obtain ⟨still, lower⟩ :=
    unpaused_fires (show (before.hand bytes).flow.paused = false from unpaused) fires
  -- The callbacks only lower the backlog, so the bound on the whole frame is enough.
  have under : ¬highWatermark < written.flow.pendingBytes := by
    have handed : (before.hand bytes).flow.pendingBytes =
        before.flow.pendingBytes + bytes.length := rfl
    omega
  simp [TermSession.throttle, still, under]

end Commands

section Agreement

variable {setup : Setup} {tab next : Tab}

/--
The webview crosses its mark only under a known id, resets its flag only while it is down,
and the supervisor resets the gate only when it is open or a command is about to write it.
-/
def ResetsNothing (tab : Tab) : TabAction → Prop
  | .session (.supervise .next) =>
    tab.session.phase = .installed → tab.session.gate = false ∨ tab.session.commands ≠ []
  | .frame _ =>
    tab.term.id = "" → ∀ bytes, tab.session.path.sent[tab.ingested]? = some bytes →
      tab.term.flow.pendingBytes + bytes.length ≤ highWatermark
  | .event =>
    ∀ attempt maxAttempts delayMs,
      tab.session.events[tab.handled]? = some (.reconnecting attempt maxAttempts delayMs) →
      tab.listed = true → tab.term.flow.paused = false
  | _ => True

/-- The gate is what the webview believes once the commands on their way have written it. -/
structure Agrees (tab : Tab) : Prop where
  flag : settle tab.session.gate tab.session.commands = tab.term.flow.paused
  registered : tab.term.id ≠ "" → tab.session.opening = .registered
  unclosed : tab.session.closing = .open
  unnamed : tab.term.id = "" → tab.term.flow.paused = false ∧ tab.session.commands = []

/-- What the webview invokes carries its flag over to the gate. -/
theorem agrees_relay (agrees : Agrees tab) {after : TermSession} {commands : List FlowCommand}
    (invokes : Invokes tab.term after commands)
    (unpaused : tab.term.id = "" → after.flow.paused = false) : Agrees (tab.relay after) := by
  have queued : (tab.relay after).session.commands = tab.session.commands ++ commands := by
    simp [Tab.relay, invokes.invoked]
  refine ⟨?_, ?_, agrees.unclosed, ?_⟩
  · rw [queued, settle_append]
    change settle (settle tab.session.gate tab.session.commands) commands = after.flow.paused
    rw [agrees.flag]
    -- Under an empty id the flag stays down, since no command could carry it over.
    by_cases unnamed : tab.term.id = ""
    · rw [invokes.unnamed unnamed, unpaused unnamed]
      exact (agrees.unnamed unnamed).1
    · rw [invokes.named unnamed]
  · intro named
    exact agrees.registered (invokes.id ▸ named)
  · intro unnamed
    have same : tab.term.id = "" := invokes.id ▸ unnamed
    rw [queued, invokes.unnamed same, (agrees.unnamed same).2]
    exact ⟨unpaused same, rfl⟩

/-- A session's own step writes the gate only as a command says, or resets nothing. -/
theorem agrees_session (agrees : Agrees tab) {action : Action} {session : State}
    (own : action.isOwn = true) (allowed : ResetsNothing tab (.session action))
    (takes : Takes setup tab.session action session) : Agrees { tab with session } := by
  obtain ⟨flag, registered, unclosed, unnamed⟩ := agrees
  cases takes with
  | supervise moves =>
    cases moves with
    | reset installed =>
      refine ⟨?_, registered, unclosed, unnamed⟩
      rw [← flag]
      -- An open gate is left open, and a command on its way has the last word.
      rcases allowed installed with opened | pending
      · rw [opened]
      · cases queued : tab.session.commands with
        | nil => exact absurd queued pending
        | cons command rest => rfl
    | @acted reason decision deciding =>
      cases decision with
      | exit code => exact ⟨flag, registered, unclosed, unnamed⟩
      | reconnect attempt delay => exact ⟨flag, registered, unclosed, unnamed⟩
      | giveUp => exact ⟨flag, registered, unclosed, unnamed⟩
    | _ => exact ⟨flag, registered, unclosed, unnamed⟩
  -- The id is known only after the session was announced.
  | announce spawned =>
    refine ⟨flag, fun named => ?_, unclosed, unnamed⟩
    rw [registered named] at spawned
    cases spawned
  | register announced => exact ⟨flag, fun _ => rfl, unclosed, unnamed⟩
  -- The gate takes on what the first command in the queue says.
  | began idle queued found =>
    rw [queued] at flag unnamed
    refine ⟨flag, registered, unclosed, fun unknown => ?_⟩
    cases (unnamed unknown).2
  | unknown idle queued lost =>
    -- A command was invoked under the id, and so finds its session.
    rw [queued] at unnamed
    have named : tab.term.id ≠ "" := fun unknown => by cases (unnamed unknown).2
    simp [State.found, registered named, unclosed] at lost
  | invoke command => cases own
  | remove found => cases own
  | shutdown removed => cases own
  | _ => exact ⟨flag, registered, unclosed, unnamed⟩

/-- One action keeps the two sides in agreement when it resets nothing. -/
theorem agrees_step {action : TabAction} (allowed : ResetsNothing tab action)
    (agrees : Agrees tab) (taken : tabStep setup tab action = some next) : Agrees next := by
  cases action with
  | session action =>
    simp only [tabStep] at taken
    split at taken
    · -- The session acts by itself.
      rename_i own
      obtain ⟨session, stepped, rfl⟩ := Option.map_eq_some_iff.mp taken
      exact agrees_session agrees own allowed (takes_step stepped)
    · cases taken
  | frame fired =>
    simp only [tabStep] at taken
    split at taken
    · cases taken
    · rename_i bytes reached
      obtain ⟨term, ingests, rfl⟩ := Option.map_eq_some_iff.mp taken
      -- The frame may ask for a pause, which the session is sent.
      obtain ⟨commands, invokes⟩ := invokes_ingest ingests
      obtain ⟨flag, registered, unclosed, unnamed⟩ := agrees_relay agrees invokes fun unknown =>
        unpaused_ingest (agrees.unnamed unknown).1 (allowed unknown bytes reached) ingests
      exact ⟨flag, registered, unclosed, unnamed⟩
  | parsed index =>
    obtain ⟨term, fired, rfl⟩ := Option.map_eq_some_iff.mp taken
    -- The callback may ask for a resume.
    obtain ⟨commands, invokes⟩ := invokes_fire fired
    exact agrees_relay agrees invokes fun unknown =>
      (unpaused_fire (agrees.unnamed unknown).1 fired).1
  | event =>
    simp only [tabStep] at taken
    split at taken
    · cases taken
    · rename_i event reached
      cases taken
      -- Only a reconnect is answered by writing the flag.
      cases event with
      | connected => exact ⟨agrees.flag, agrees.registered, agrees.unclosed, agrees.unnamed⟩
      | disconnected reason =>
        exact ⟨agrees.flag, agrees.registered, agrees.unclosed, agrees.unnamed⟩
      | exited code => exact ⟨agrees.flag, agrees.registered, agrees.unclosed, agrees.unnamed⟩
      | reconnecting attempt maxAttempts delayMs =>
        simp only [Tab.handle]
        split
        · rename_i listed
          -- The flag that is reset was down already.
          have down := allowed attempt maxAttempts delayMs reached listed
          have invokes : Invokes tab.term tab.term.resetFlowState.resetJsStats [] :=
            ⟨rfl, by simp [TermSession.resetFlowState, TermSession.resetJsStats],
              fun _ => down.symm, fun _ => rfl⟩
          obtain ⟨flag, registered, unclosed, unnamed⟩ := agrees_relay agrees invokes fun _ => rfl
          exact ⟨flag, registered, unclosed, unnamed⟩
        · exact ⟨agrees.flag, agrees.registered, agrees.unclosed, agrees.unnamed⟩
  | opened id =>
    simp only [tabStep] at taken
    split at taken
    · -- From now on the webview knows which session to send its commands to.
      rename_i returned
      cases taken
      exact ⟨agrees.flag, fun _ => returned.1, agrees.unclosed,
        fun unknown => absurd unknown returned.2.2⟩
    · cases taken

/-- The actions that open a tab. -/
def openTab : List TabAction := [.session .announce, .session .register, .opened "1", .event]

/-- A data path that holds nothing. -/
def restingPath (stats : StreamStats) (sent : List Bytes) : DataPath where
  input := []
  coalescer := ⟨[], .waiting, stats⟩
  frames := []
  sender := .waiting
  sent

/-- An open tab whose first generation sent some messages. -/
def quietTab (arrived : List ChannelMsg) (path : DataPath) (ingested : Nat) (term : TermSession) :
    Tab where
  session := { State.init savedHost with
    shells := [{ Shell.open savedHost.size with arrived }]
    path
    opening := .registered
    events := [.connected] }
  term
  listed := true
  handled := 1
  ingested

/-- The actions that bring one chunk of output into the webview, where it waits to be parsed. -/
def deliverFrame (chunk : Bytes) : List TabAction :=
  (deliver 0 chunk).map .session ++ [.frame []]

variable {chunk : Bytes}

/-- A chunk that comes after an idle gap is a frame at once. -/
theorem receive_idle (cfg : CoalescerConfig) (stats : StreamStats) (nonempty : chunk ≠ []) :
    Coalescer.receive cfg true chunk ⟨[], .waiting, stats⟩ =
      ⟨[], .sending chunk false, (stats.recordIn chunk).recordOut chunk.length⟩ := by
  simp [Coalescer.receive, Coalescer.flush, nonempty]

/-- A chunk that waits in front of an idle coalescer becomes its frame. -/
theorem step_receive (arrived : List ChannelMsg) (stats : StreamStats) (sent : List Bytes)
    (term : TermSession) (nonempty : chunk ≠ []) :
    tabStep savedHost
        (quietTab arrived { restingPath stats sent with input := [chunk] } sent.length term)
        (.session (.path (.receive true))) =
      some (quietTab arrived
        { restingPath stats sent with
          coalescer :=
            ⟨[], .sending chunk false, (stats.recordIn chunk).recordOut chunk.length⟩ }
        sent.length term) := by
  rw [← receive_idle savedHost.cfg stats nonempty]
  rfl

/-- A chunk passes through a quiet session into the webview. -/
theorem run_deliverFrame (arrived : List ChannelMsg) (stats : StreamStats) (sent : List Bytes)
    (term : TermSession) (nonempty : chunk ≠ []) :
    ∃ after, System.run (tabStep savedHost)
        (quietTab arrived (restingPath stats sent) sent.length term) (deliverFrame chunk) =
      some ((quietTab (arrived ++ [.data chunk]) (restingPath after (sent ++ [chunk]))
        (sent ++ [chunk]).length term).relay (term.hand chunk).throttle) := by
  -- Six steps bring the chunk from the wire to the coalescer.
  have feeds : System.run (tabStep savedHost)
      (quietTab arrived (restingPath stats sent) sent.length term)
      ((deliver 0 chunk).map .session |>.take 6) =
      some (quietTab (arrived ++ [.data chunk])
        { restingPath stats sent with input := [chunk] } sent.length term) := rfl
  -- Four more bring the frame from the coalescer to the webview.
  have sends (after : StreamStats) : System.run (tabStep savedHost)
      (quietTab (arrived ++ [.data chunk])
        { restingPath stats sent with coalescer := ⟨[], .sending chunk false, after⟩ }
        sent.length term)
      ((deliver 0 chunk).map .session |>.drop 7) =
      some (quietTab (arrived ++ [.data chunk]) (restingPath after (sent ++ [chunk]))
        sent.length term) := rfl
  have taken (after : StreamStats) : tabStep savedHost
      (quietTab (arrived ++ [.data chunk]) (restingPath after (sent ++ [chunk]))
        sent.length term) (.frame []) =
      some ((quietTab (arrived ++ [.data chunk]) (restingPath after (sent ++ [chunk]))
        (sent ++ [chunk]).length term).relay (term.hand chunk).throttle) := by
    simp [tabStep, quietTab, restingPath, TermSession.ingest, Tab.relay]
  have parts : deliverFrame chunk =
      ((deliver 0 chunk).map .session |>.take 6) ++ .session (.path (.receive true)) ::
        (((deliver 0 chunk).map .session |>.drop 7) ++ [.frame []]) := rfl
  refine ⟨(stats.recordIn chunk).recordOut chunk.length, ?_⟩
  rw [parts, System.run_append, feeds, Option.bind_some,
    System.run_cons (step_receive _ _ _ _ nonempty), System.run_append, sends, Option.bind_some,
    System.run_cons (taken _), System.run]

/-- A chunk that passes through a quiet session resets nothing. -/
theorem meets_deliverFrame (arrived : List ChannelMsg) (stats : StreamStats) (sent : List Bytes)
    (term : TermSession) (nonempty : chunk ≠ []) (named : term.id ≠ "") :
    System.Meets (tabStep savedHost) ResetsNothing
      (quietTab arrived (restingPath stats sent) sent.length term) (deliverFrame chunk) := by
  iterate 4 refine .cons trivial rfl ?_
  -- The supervisor only pumps, and has no gate to reset.
  iterate 2 refine .cons nofun rfl ?_
  refine .cons trivial (step_receive _ _ _ _ nonempty) ?_
  iterate 4 refine .cons trivial rfl ?_
  exact ⟨fun unnamed => absurd unnamed named, fun _ _ => trivial⟩

/-- A pause is executed, its frame is parsed, and the resume is executed. -/
def pausedOnce : List TabAction :=
  [.session .command, .session .command, .session .command, .parsed 0,
    .session .command, .session .command, .session .command]

/-- The flow state of a session whose first chunk was above the mark. -/
def aboveMark (chunk : Bytes) : FlowStats :=
  { (TermSession.hand ⟨"1", TermSession.new.flow, [], []⟩ chunk).flow with
    paused := true, pauseCount := 1 }

/-- Once the chunk is parsed nothing is pending. -/
def emptied (chunk : Bytes) : FlowStats :=
  { aboveMark chunk with pendingBytes := 0, parsedBytes := 400000, paused := false }

/-- A chunk above the mark pauses its session. -/
theorem run_aboveMark (long : chunk.length = 400000) : ∃ stats,
    System.run (tabStep savedHost) (Tab.init savedHost) (openTab ++ deliverFrame chunk) =
      some (Tab.relay (quietTab [.data chunk] (restingPath stats [chunk]) 1
        ⟨"1", TermSession.new.flow, [], []⟩) ⟨"1", aboveMark chunk, [chunk], [.pause]⟩) ∧
    System.Meets (tabStep savedHost) ResetsNothing (Tab.init savedHost)
      (openTab ++ deliverFrame chunk) := by
  -- The tab is opened by evaluation, and the chunk is followed for any content of its length.
  have nonempty : chunk ≠ [] := List.ne_nil_of_length_eq_add_one long
  have opens : System.run (tabStep savedHost) (Tab.init savedHost) openTab =
      some (quietTab [] (restingPath .new []) 0 ⟨"1", TermSession.new.flow, [], []⟩) := rfl
  have opened : System.Meets (tabStep savedHost) ResetsNothing (Tab.init savedHost) openTab := by
    iterate 3 refine .cons trivial rfl ?_
    exact .cons nofun rfl trivial
  obtain ⟨stats, passed⟩ :=
    run_deliverFrame [] .new [] ⟨"1", TermSession.new.flow, [], []⟩ nonempty
  have meets := meets_deliverFrame [] .new [] ⟨"1", TermSession.new.flow, [], []⟩ nonempty
    (by decide)
  have throttled : (TermSession.hand ⟨"1", TermSession.new.flow, [], []⟩ chunk).throttle =
      ⟨"1", aboveMark chunk, [chunk], [.pause]⟩ := by
    simp [TermSession.throttle, TermSession.hand, TermSession.invoke, TermSession.new, long,
      highWatermark, aboveMark]
  rw [throttled] at passed
  refine ⟨stats, ?_, .append opened opens meets⟩
  rw [System.run_append, opens, Option.bind_some]
  exact passed

/-- Its callback takes the whole frame off, which leads below the low mark. -/
theorem fire_aboveMark (long : chunk.length = 400000) :
    TermSession.fire ⟨"1", aboveMark chunk, [chunk], [.pause]⟩ 0 =
      some ⟨"1", emptied chunk, [], [.pause, .resume]⟩ := by
  simp [TermSession.fire, TermSession.parsed, TermSession.hand, TermSession.invoke,
    TermSession.new, long, Webview.lowWatermark, aboveMark, emptied]

/-- A pause and a resume are executed, and leave the session as it was. -/
theorem run_pausedOnce (long : chunk.length = 400000) : ∃ stats,
    System.run (tabStep savedHost) (Tab.init savedHost)
      (openTab ++ deliverFrame chunk ++ pausedOnce) =
        some (quietTab [.data chunk] (restingPath stats [chunk]) 1
          ⟨"1", emptied chunk, [], [.pause, .resume]⟩) ∧
    System.Meets (tabStep savedHost) ResetsNothing (Tab.init savedHost)
      (openTab ++ deliverFrame chunk ++ pausedOnce) := by
  obtain ⟨stats, flooded, meets⟩ := run_aboveMark long
  -- Each of the two commands takes three steps.
  obtain ⟨halted, stopped, meetsStop, held, goesOn, meetsOn⟩ : ∃ halted,
      System.run (tabStep savedHost)
        (Tab.relay (quietTab [.data chunk] (restingPath stats [chunk]) 1
          ⟨"1", TermSession.new.flow, [], []⟩) ⟨"1", aboveMark chunk, [chunk], [.pause]⟩)
        (pausedOnce.take 3) = some halted ∧
      System.Meets (tabStep savedHost) ResetsNothing (Tab.relay (quietTab [.data chunk]
        (restingPath stats [chunk]) 1 ⟨"1", TermSession.new.flow, [], []⟩)
          ⟨"1", aboveMark chunk, [chunk], [.pause]⟩) (pausedOnce.take 3) ∧
      halted.term = ⟨"1", aboveMark chunk, [chunk], [.pause]⟩ ∧
      System.run (tabStep savedHost)
        (halted.relay ⟨"1", emptied chunk, [], [.pause, .resume]⟩) (pausedOnce.drop 4) =
          some (quietTab [.data chunk] (restingPath stats [chunk]) 1
            ⟨"1", emptied chunk, [], [.pause, .resume]⟩) ∧
      System.Meets (tabStep savedHost) ResetsNothing
        (halted.relay ⟨"1", emptied chunk, [], [.pause, .resume]⟩) (pausedOnce.drop 4) := by
    refine ⟨_, rfl, ?_, rfl, rfl, ?_⟩
    · exact .cons trivial rfl (.cons trivial rfl (.cons trivial rfl trivial))
    · exact .cons trivial rfl (.cons trivial rfl (.cons trivial rfl trivial))
  -- Between them the terminal takes the chunk, which brings the resume.
  have parsed : tabStep savedHost halted (.parsed 0) =
      some (halted.relay ⟨"1", emptied chunk, [], [.pause, .resume]⟩) := by
    rw [tabStep, held, fire_aboveMark long, Option.map_some]
  have parts : pausedOnce = pausedOnce.take 3 ++ .parsed 0 :: pausedOnce.drop 4 := rfl
  rw [parts]
  refine ⟨stats, ?_, meets.append flooded (meetsStop.append stopped (.cons trivial parsed meetsOn))⟩
  -- The parts are run one after another.
  rw [System.run_append, flooded, Option.bind_some, System.run_append, stopped, Option.bind_some,
    System.run_cons parsed, goesOn]

/-- A session is paused and resumed, and drops and reconnects behind that. -/
def pausedThenDropped (chunk : Bytes) : List TabAction :=
  openTab ++ deliverFrame chunk ++ pausedOnce ++ ((reconnect 0).map .session ++ [.event, .event])

/-- The actions that bring a number of equal chunks there. -/
def flood (chunk : Bytes) : Nat → List TabAction
  | 0 => []
  | n + 1 => flood chunk n ++ deliverFrame chunk

/-- A pause is executed while its transport drops, and the webview hears of the drop. -/
def pauseInDrop : List TabAction :=
  [.session (.shell 0 .lose), .session (.shell 0 .check), .session (.shell 0 .take),
    .session .command, .session .command, .session .command, .session (.supervise .next),
    .session (.supervise .next), .session (.supervise .next), .session (.supervise (.draw none)),
    .session (.supervise .next), .event]

/-- While the backlog stays below the mark, chunks pile up in the webview. -/
theorem run_flood (full : chunk.length = 32768) (n : Nat) (few : n ≤ 12) :
    ∃ arrived stats sent flow unparsed,
      System.run (tabStep savedHost) (Tab.init savedHost) (openTab ++ flood chunk n) =
        some (quietTab arrived (restingPath stats sent) sent.length ⟨"1", flow, unparsed, []⟩) ∧
      flow.pendingBytes = n * 32768 ∧ flow.paused = false := by
  induction n with
  | zero => exact ⟨[], .new, [], TermSession.new.flow, [], rfl, rfl, rfl⟩
  | succ n ih =>
    obtain ⟨arrived, stats, sent, flow, unparsed, ran, pending, unpaused⟩ := ih (by omega)
    have nonempty : chunk ≠ [] := List.ne_nil_of_length_eq_add_one full
    obtain ⟨after, passed⟩ :=
      run_deliverFrame arrived stats sent ⟨"1", flow, unparsed, []⟩ nonempty
    -- Twelve packets are exactly at the mark, and none of them goes above it.
    have below : ¬highWatermark < flow.pendingBytes + chunk.length := by
      rw [pending, full, highWatermark]
      omega
    refine ⟨arrived ++ [.data chunk], after, sent ++ [chunk],
      (TermSession.hand ⟨"1", flow, unparsed, []⟩ chunk).flow, unparsed ++ [chunk], ?_, ?_,
        unpaused⟩
    · rw [flood, ← List.append_assoc, System.run_append, ran, Option.bind_some, passed]
      simp [TermSession.throttle, TermSession.hand, below, Tab.relay, quietTab]
    · simp only [TermSession.hand, pending, full]
      push_cast
      ring

end Agreement

end Tern.Session
