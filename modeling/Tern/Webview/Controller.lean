import Mathlib.Logic.Function.Basic
import Tern.Base.System

/-! Which tab owns which session: the controller, the tab store, and the backend's table. -/

namespace Tern.Webview

/-- How far a tab is with its connection. -/
inductive ConnState where
  | idle
  | connecting
  | connected
  | reconnecting
  | disconnected
  | error
  deriving DecidableEq, Repr

/-- The progress of a reconnect, with the time its next attempt is due. -/
structure ReconnectInfo where
  attempt : Nat
  max : Nat
  dueAt : Nat
  deriving DecidableEq, Repr

/-- A tab as the store holds it. -/
structure Tab where
  hostId : Option Int
  conn : ConnState
  /-- The backend's id of the session, once it has answered. -/
  rustSessionId : Option Nat
  detail : Option String
  exitCode : Option Int
  reconnect : Option ReconnectInfo
  deriving DecidableEq, Repr

/-- What the backend reports about a session. -/
inductive SessionEvent where
  | connected
  | reconnecting (attempt maxAttempts delayMs : Nat)
  | exited (code : Option Int)
  | disconnected (reason : String)
  | error (message : String)
  | hostKeyChanged (host : String) (port : Nat)
  | hostKeyRevoked (host : String) (port : Nat)
  | hostKeyPrompt
  | warning (message : String)
  deriving DecidableEq, Repr

/-- The events by which a session ends. -/
def SessionEvent.ends : SessionEvent → Bool
  | .exited _ => true
  | .disconnected _ => true
  | _ => false

/-- Where a call that opens a session stands. -/
inductive OpenStage where
  | pending
  | resolved
  | failed
  deriving DecidableEq, Repr

/-- One call that opens a session for a tab. -/
structure OpenCall where
  tab : Nat
  stage : OpenStage
  /-- Whether the event by which the session ends was handled. -/
  ended : Bool
  deriving DecidableEq, Repr

/-- The calls made so far, by their numbers. -/
abbrev Calls := Nat → Option OpenCall

section Calls

/-- A call was made for a tab. -/
def Calls.MadeFor (calls : Calls) (id tab : Nat) : Prop :=
  ∃ call, calls id = some call ∧ call.tab = tab

/-- A call for a tab has not been answered yet. -/
def Calls.InFlight (calls : Calls) (id tab : Nat) : Prop :=
  ∃ call, calls id = some call ∧ call.tab = tab ∧ call.stage = .pending

/-- A call was answered with a session. -/
def Calls.Answered (calls : Calls) (id : Nat) : Prop :=
  ∃ call, calls id = some call ∧ call.stage = .resolved

variable {calls : Calls} {id other tab : Nat} {call : OpenCall}

/-- What is in flight for a tab was called for it. -/
theorem Calls.InFlight.madeFor (flight : calls.InFlight id tab) : calls.MadeFor id tab := by
  obtain ⟨call, made, onTab, _⟩ := flight
  exact ⟨call, made, onTab⟩

/-- What was answered is not in flight. -/
theorem Calls.Answered.not_inFlight (answered : calls.Answered id) : ¬calls.InFlight id tab := by
  rintro ⟨call, made, -, pending⟩
  obtain ⟨same, found, resolved⟩ := answered
  cases made.symm.trans found
  simp [resolved] at pending

/-- A new call is one more call for its tab. -/
theorem madeFor_add (fresh : calls id = none) :
    Calls.MadeFor (Function.update calls id (some call)) other tab ↔
      calls.MadeFor other tab ∨ (other = id ∧ call.tab = tab) := by
  by_cases same : other = id
  · subst same
    simp [Calls.MadeFor, fresh]
  · simp [Calls.MadeFor, same]

/-- A new call is one more in flight. -/
theorem inFlight_add (fresh : calls id = none) (pending : call.stage = .pending) :
    Calls.InFlight (Function.update calls id (some call)) other tab ↔
      calls.InFlight other tab ∨ (other = id ∧ call.tab = tab) := by
  by_cases same : other = id
  · subst same
    simp [Calls.InFlight, fresh, pending]
  · simp [Calls.InFlight, same]

/-- A new call is not answered yet. -/
theorem answered_add (fresh : calls id = none) (pending : call.stage = .pending) :
    Calls.Answered (Function.update calls id (some call)) other ↔ calls.Answered other := by
  by_cases same : other = id
  · subst same
    simp [Calls.Answered, fresh, pending]
  · simp [Calls.Answered, Function.update_of_ne same]

variable {now : OpenCall}

/-- Whatever becomes of a call, it was made for its tab. -/
theorem madeFor_change (made : calls id = some call) (same : now.tab = call.tab) :
    Calls.MadeFor (Function.update calls id (some now)) other tab ↔ calls.MadeFor other tab := by
  by_cases this : other = id
  · subst this
    simp [Calls.MadeFor, made, same]
  · simp [Calls.MadeFor, Function.update_of_ne this]

/-- An answer takes its call out of flight, and no other. -/
theorem inFlight_settle (settled : now.stage ≠ .pending) :
    Calls.InFlight (Function.update calls id (some now)) other tab ↔
      other ≠ id ∧ calls.InFlight other tab := by
  by_cases same : other = id
  · subst same
    simp [Calls.InFlight, settled]
  · simp [Calls.InFlight, same]

/-- What was answered with a session stays so, whatever becomes of the calls in flight. -/
theorem Calls.Answered.settle (answered : calls.Answered other) (made : calls id = some call)
    (pending : call.stage = .pending) :
    Calls.Answered (Function.update calls id (some now)) other := by
  -- A call that was answered is not the one that is still in flight.
  obtain ⟨found, there, resolved⟩ := answered
  have apart : other ≠ id := by
    rintro rfl
    cases made.symm.trans there
    simp [resolved] at pending
  exact ⟨found, by rw [Function.update_of_ne apart, there], resolved⟩

/-- What happens on a call's channel does not answer it. -/
theorem inFlight_change (made : calls id = some call) (same : now.tab = call.tab)
    (stage : now.stage = call.stage) :
    Calls.InFlight (Function.update calls id (some now)) other tab ↔
      calls.InFlight other tab := by
  by_cases this : other = id
  · subst this
    simp [Calls.InFlight, made, same, stage]
  · simp [Calls.InFlight, Function.update_of_ne this]

/-- What happens on a call's channel leaves its answer as it is. -/
theorem answered_change (made : calls id = some call) (stage : now.stage = call.stage) :
    Calls.Answered (Function.update calls id (some now)) other ↔ calls.Answered other := by
  by_cases this : other = id
  · subst this
    simp [Calls.Answered, made, stage]
  · simp [Calls.Answered, Function.update_of_ne this]

end Calls

/-- What goes on once a closing of a session, if there is one to close, has come back. -/
inductive Task where
  | closeLate (id : Nat)
  | disconnecting (tab id : Nat)
  | destroying (tab : Nat) (id : Option Nat)
  deriving DecidableEq, Repr

/--
The webview's side of every session, and the backend's table.

A session's id is the number of the call that opened it, as the backend counts them.
-/
structure Controller where
  nextTabId : Nat
  byId : Nat → Option Tab
  pool : Nat → Bool
  /-- The session each tab owns. -/
  sessions : Nat → Option Nat
  /-- The tabs whose sessions are not wanted any more. -/
  closing : Nat → Bool
  nextId : Nat
  calls : Calls
  tasks : List Task
  /-- The backend's table, which only a closing takes sessions out of. -/
  rust : Nat → Bool
  /-- The sessions the backend was asked to close. -/
  invoked : List Nat
  /-- The tabs whose teardown has begun, and those it is done for. -/
  teardown : Nat → Bool
  destroyed : Nat → Bool

/-- The webview before its first tab. -/
def Controller.init : Controller where
  nextTabId := 0
  byId := fun _ => none
  pool := fun _ => false
  sessions := fun _ => none
  closing := fun _ => false
  nextId := 0
  calls := fun _ => none
  tasks := []
  rust := fun _ => false
  invoked := []
  teardown := fun _ => false
  destroyed := fun _ => false

section Store

/-- A change to a tab, which a tab that is gone ignores. -/
def Controller.modifyTab (self : Controller) (tab : Nat) (change : Tab → Tab) : Controller :=
  { self with byId := Function.update self.byId tab ((self.byId tab).map change) }

/-- Any state but a reconnect ends the reconnect's progress. -/
def Controller.setConn (self : Controller) (tab : Nat) (conn : ConnState)
    (detail : Option String) : Controller :=
  self.modifyTab tab fun t => { t with conn := conn, detail := detail, reconnect := none }

/-- Show the progress of a reconnect. -/
def Controller.setReconnecting (self : Controller) (tab : Nat) (info : ReconnectInfo) :
    Controller :=
  self.modifyTab tab fun t =>
    { t with conn := .reconnecting, reconnect := some info, detail := none }

/-- Record the backend's id of a tab's session. -/
def Controller.setRustSessionId (self : Controller) (tab : Nat) (id : Option Nat) : Controller :=
  self.modifyTab tab fun t => { t with rustSessionId := id }

/-- Record how a tab's shell ended. -/
def Controller.setExit (self : Controller) (tab : Nat) (code : Option Int) : Controller :=
  self.modifyTab tab fun t =>
    { t with conn := .disconnected, exitCode := code, rustSessionId := none }

/-- A tab no longer owns a session. -/
def Controller.dropSession (self : Controller) (tab : Nat) : Controller :=
  { self with sessions := Function.update self.sessions tab none }

/-- The backend is asked to close a session, and something goes on once it has. -/
def Controller.invokeClose (self : Controller) (id : Nat) (task : Task) : Controller :=
  { self with tasks := self.tasks ++ [task], invoked := self.invoked ++ [id] }

end Store

/-- What can happen next: a call to the controller, an answer, an event, or the end of a closing. -/
inductive Action where
  | openTab (hostId : Option Int)
  | connect (tab : Nat)
  | opened (id : Nat)
  | openFailed (id : Nat) (reason : String)
  | event (id : Nat) (ev : SessionEvent) (now : Nat)
  | disconnect (tab : Nat)
  | destroy (tab : Nat)
  | closeTab (tab : Nat)
  | finish (task : Task)
  deriving DecidableEq, Repr

section Steps

/-- A tab enters the store, and gets a terminal. -/
def Controller.openTab (self : Controller) (hostId : Option Int) : Controller :=
  let id := self.nextTabId + 1
  { self with
    nextTabId := id
    byId := Function.update self.byId id (some ⟨hostId, .idle, none, none, none, none⟩)
    pool := Function.update self.pool id true }

/-- Connect a tab up to the call that opens its session. -/
def Controller.connect (self : Controller) (tab : Nat) : Controller :=
  if !self.pool tab || (self.sessions tab).isSome then self
  else
    let connecting := self.setConn tab .connecting none
    { connecting with
      closing := Function.update connecting.closing tab false
      calls := Function.update connecting.calls connecting.nextId (some ⟨tab, .pending, false⟩)
      nextId := connecting.nextId + 1 }

/-- The answer to a call, which a call in flight gets once. -/
def Controller.answer (self : Controller) (id : Nat) (react : OpenCall → Controller) :
    Option Controller :=
  (self.calls id).bind fun call => if call.stage = .pending then some (react call) else none

/-- What a connect does once its session is open. -/
def Controller.opened (self : Controller) (id : Nat) (call : OpenCall) : Controller :=
  let answered := { self with
    rust := Function.update self.rust id true
    calls := Function.update self.calls id (some { call with stage := .resolved }) }
  -- The user may have closed the tab while the connect was in flight.
  if answered.closing call.tab then answered.invokeClose id (.closeLate id)
  else
    let registered := { answered with
      sessions := Function.update answered.sessions call.tab (some id) }
    (registered.setRustSessionId call.tab (some id)).setConn call.tab .connected none

/-- What a connect does when its session could not be opened. -/
def Controller.openFailed (self : Controller) (id : Nat) (call : OpenCall) (reason : String) :
    Controller :=
  let failed := { self with
    calls := Function.update self.calls id (some { call with stage := .failed }) }
  failed.setConn call.tab .error (some reason)

/-- The message of an error about a host key. -/
def hostKeyMessage (what host : String) (port : Nat) : String :=
  "host key " ++ what ++ " for " ++ host ++ ":" ++ toString port

/-- The controller's reaction to an event of a tab's session. -/
def Controller.handleEvent (self : Controller) (tab : Nat) (now : Nat) :
    SessionEvent → Controller
  | .connected => self.setConn tab .connected none
  -- The session stays put, since the backend retries under the same id.
  | .reconnecting attempt maxAttempts delayMs =>
    self.setReconnecting tab ⟨attempt, maxAttempts, now + delayMs⟩
  | .exited code => (self.dropSession tab).setExit tab code
  | .disconnected reason =>
    ((self.dropSession tab).setConn tab .disconnected (some reason)).setRustSessionId tab none
  | .error message => self.setConn tab .error (some message)
  | .hostKeyChanged host port => self.setConn tab .error (some (hostKeyMessage "changed" host port))
  | .hostKeyRevoked host port => self.setConn tab .error (some (hostKeyMessage "revoked" host port))
  -- A warning is not fatal, and a prompt is answered elsewhere.
  | .hostKeyPrompt => self
  | .warning _ => self

/-- An event arrives on the channel of the call it belongs to. -/
def Controller.event (self : Controller) (id : Nat) (call : OpenCall) (ev : SessionEvent)
    (now : Nat) : Controller :=
  let handled := self.handleEvent call.tab now ev
  { handled with calls :=
      Function.update handled.calls id (some { call with ended := call.ended || ev.ends }) }

/-- Mark a tab as closing, and take its session from it. -/
def Controller.release (self : Controller) (tab : Nat) : Controller :=
  { self.dropSession tab with closing := Function.update self.closing tab true }

/-- Close a tab's session. -/
def Controller.disconnect (self : Controller) (tab : Nat) : Controller :=
  match self.sessions tab with
  | some id => (self.release tab).invokeClose id (.disconnecting tab id)
  | none => (self.release tab).setRustSessionId tab none

/-- Begin the teardown of a tab the user closed. -/
def Controller.destroy (self : Controller) (tab : Nat) : Controller :=
  let released := { self.release tab with teardown := Function.update self.teardown tab true }
  match self.sessions tab with
  | some id => released.invokeClose id (.destroying tab (some id))
  -- Nothing has to be closed, and the rest follows by itself.
  | none =>
    let cleared := released.setRustSessionId tab none
    { cleared with tasks := cleared.tasks ++ [.destroying tab none] }

/-- A tab leaves the store. -/
def Controller.closeTab (self : Controller) (tab : Nat) : Controller :=
  { self with byId := Function.update self.byId tab none }

/-- The backend has closed a session. -/
def Controller.closed (self : Controller) (id : Nat) : Controller :=
  { self with rust := Function.update self.rust id false }

/-- The end of a teardown: the terminal is released, and the tab is forgotten. -/
def Controller.torn (self : Controller) (tab : Nat) : Controller :=
  { self with
    pool := Function.update self.pool tab false
    closing := Function.update self.closing tab false
    destroyed := Function.update self.destroyed tab true }

/-- What goes on once a closing has come back. -/
def Controller.finish (self : Controller) : Task → Controller
  | .closeLate id => self.closed id
  | .disconnecting tab id => (self.closed id).setRustSessionId tab none
  | .destroying tab none => self.torn tab
  | .destroying tab (some id) => ((self.closed id).setRustSessionId tab none).torn tab

/-- One step of the webview. -/
def controllerStep (state : Controller) : Action → Option Controller
  | .openTab hostId => some (state.openTab hostId)
  | .connect tab => some (state.connect tab)
  | .opened id => state.answer id (state.opened id)
  | .openFailed id reason => state.answer id fun call => state.openFailed id call reason
  | .event id ev now => (state.calls id).map fun call => state.event id call ev now
  | .disconnect tab => some (state.disconnect tab)
  | .destroy tab => some (state.destroy tab)
  | .closeTab tab => some (state.closeTab tab)
  | .finish task =>
    if task ∈ state.tasks then
      some ({ state with tasks := state.tasks.erase task }.finish task)
    else none

end Steps

section Inversion

variable {state next : Controller} {id : Nat}

/-- Apart from the tabs' own records, an event only drops a session that has ended. -/
theorem Controller.handleEvent_eq (self : Controller) (tab now : Nat) (ev : SessionEvent) :
    ∃ byId, self.handleEvent tab now ev =
      { (if ev.ends then self.dropSession tab else self) with byId := byId } := by
  cases ev <;> exact ⟨_, rfl⟩

/-- Only a call in flight is answered. -/
theorem Controller.answer_eq_some {react : OpenCall → Controller} :
    state.answer id react = some next ↔
      ∃ call, state.calls id = some call ∧ call.stage = .pending ∧ react call = next := by
  simp [Controller.answer, Option.bind_eq_some_iff]

/-- An event comes on the channel of a call that was made. -/
theorem controllerStep_event {ev : SessionEvent} {now : Nat}
    (taken : controllerStep state (.event id ev now) = some next) :
    ∃ call, state.calls id = some call ∧ state.event id call ev now = next := by
  unfold controllerStep at taken
  exact Option.map_eq_some_iff.mp taken

/-- Only what was begun comes back. -/
theorem controllerStep_finish {task : Task}
    (taken : controllerStep state (.finish task) = some next) :
    task ∈ state.tasks ∧ { state with tasks := state.tasks.erase task }.finish task = next := by
  unfold controllerStep at taken
  by_cases begun : task ∈ state.tasks
  · exact ⟨begun, by simpa [begun] using taken⟩
  · simp [begun] at taken

end Inversion

end Tern.Webview
