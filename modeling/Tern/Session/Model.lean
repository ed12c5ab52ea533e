import Tern.Base.System
import Tern.Ssh.Authenticate
import Tern.Webview.TermSession

/-! A live session: the tasks, queues and commands that share it, one atomic step at a time. -/

namespace Tern.Session

open Desktop (Decision Duration Jitter PumpEnd ReconnectPolicy)
open Ssh (ReconnectError)
open TermStream (Coalescer CoalescerConfig)
open Webview (FlowCommand)

/-- How many chunks or frames a queue between two tasks holds. -/
def queueDepth : Nat := 32

/-- The size of a terminal. -/
structure Size where
  cols : UInt16
  rows : UInt16
  deriving DecidableEq, Repr

section Shell

/-- A message of a shell's channel, other than the one that closes it. -/
inductive ChannelMsg where
  | data (bytes : Bytes)
  | extendedData (bytes : Bytes) (ext : UInt32)
  | exitStatus (code : UInt32)
  /-- An end of file, a window adjustment and the like. -/
  | other
  deriving DecidableEq, Repr

/-- The output a message carries. -/
def ChannelMsg.payload : ChannelMsg → Bytes
  | .data bytes => bytes
  | .extendedData bytes _ => bytes
  | .exitStatus _ => []
  | .other => []

/-- Where a shell's pump stands. -/
inductive Pump where
  /-- At the flow gate, which it passes unless the shell is paused. -/
  | checking
  /-- Waiting for a message, or for the gate to change. -/
  | selecting
  /-- Waiting for room to pass a chunk on. -/
  | sending (chunk : Bytes)
  | done
  deriving DecidableEq, Repr

/-- One transport generation: a remote shell, its pump and the queue behind it. -/
structure Shell where
  /-- The size of the remote terminal. -/
  size : Size
  /-- Every message that arrived, in order. -/
  arrived : List ChannelMsg
  /-- Those of them that the pump has not taken yet. -/
  inbox : List ChannelMsg
  /-- No message follows, because the channel was closed or its transport is gone. -/
  ended : Bool
  /-- The transport is gone. -/
  lost : Bool
  paused : Bool
  pump : Pump
  exitCode : Option UInt32
  out : List Bytes
  deriving DecidableEq, Repr

/-- A shell that was just opened. -/
def Shell.open (size : Size) : Shell where
  size
  arrived := []
  inbox := []
  ended := false
  lost := false
  paused := false
  pump := .checking
  exitCode := none
  out := []

/-- What can happen at a shell. -/
inductive ShellAction where
  | arrive (msg : ChannelMsg)
  | hangUp
  | lose
  /-- The pump's wait is cut short by a change of the flow gate. -/
  | wake
  | check
  | take
  | send
  /-- A paused pump notices that nobody can resume it any more. -/
  | cut
  deriving DecidableEq, Repr

/-- The pump takes the next message, or finds that there is none. -/
def Shell.take (self : Shell) : Option Shell :=
  match self.inbox with
  -- An empty inbox keeps the pump waiting until the channel ends.
  | [] => if self.ended then some { self with pump := .done } else none
  | .data bytes :: inbox => some { self with inbox, pump := .sending bytes }
  | .extendedData bytes _ :: inbox => some { self with inbox, pump := .sending bytes }
  -- A status is kept for the end, and the pump goes on.
  | .exitStatus code :: inbox =>
    some { self with inbox, pump := .checking, exitCode := some code }
  | .other :: inbox => some { self with inbox, pump := .checking }

/-- One step at a shell, whose reader may be gone and whose handles may all be dropped. -/
def shellStep (unread orphaned : Bool) (shell : Shell) : ShellAction → Option Shell
  | .arrive msg =>
    if shell.ended then none
    else some { shell with arrived := shell.arrived ++ [msg], inbox := shell.inbox ++ [msg] }
  | .hangUp => some { shell with ended := true }
  | .lose => some { shell with ended := true, lost := true }
  | .wake => if shell.pump = .selecting then some { shell with pump := .checking } else none
  | .check =>
    if shell.pump = .checking ∧ shell.paused = false then some { shell with pump := .selecting }
    else none
  -- The pump looks at the gate before each message, and waits for both at once.
  | .take => if shell.pump = .selecting then shell.take else none
  | .send =>
    match shell.pump with
    | .sending chunk =>
      -- A chunk nobody takes ends the pump, and the chunk is lost.
      if unread then some { shell with pump := .done }
      else if shell.out.length < queueDepth then
        some { shell with out := shell.out ++ [chunk], pump := .checking }
      else none
    | _ => none
  | .cut =>
    if shell.pump = .checking ∧ shell.paused = true ∧ orphaned then
      some { shell with pump := .done }
    else none

end Shell

section DataPath

/-- Where the gated sender stands. -/
inductive Sender where
  | waiting
  /-- It holds a frame at the gate. -/
  | gated (frame : Bytes)
  /-- It holds a frame that the gate let through. -/
  | cleared (frame : Bytes)
  | ended
  /-- The webview's channel took a frame no more, which ends it too. -/
  | refused
  deriving DecidableEq, Repr

/-- The shared tail of the data path, from the transport's output to the webview. -/
structure DataPath where
  input : List Bytes
  coalescer : Coalescer
  frames : List Bytes
  sender : Sender
  /-- The frames that the webview's channel took, in order. -/
  sent : List Bytes
  deriving DecidableEq, Repr

/-- A data path that carries nothing yet. -/
def DataPath.new : DataPath := ⟨[], Coalescer.start, [], .waiting, []⟩

/-- What can happen on the data path. -/
inductive PathAction where
  /-- The coalescer takes a chunk, with the tick since the last flush elapsed or not. -/
  | receive (elapsed : Bool)
  | tick
  /-- The coalescer finds its input closed. -/
  | inputClosed
  /-- The coalescer hands a frame on, or finds that nobody takes it. -/
  | flush
  | senderTake
  | senderCheck
  | senderSend
  /-- The webview's channel refuses a frame. -/
  | senderRefused
  /-- The sender finds its queue or its gate closed. -/
  | senderEnd
  deriving DecidableEq, Repr

/-- One step on the data path, given its gate and whether anyone still feeds or gates it. -/
def pathStep (cfg : CoalescerConfig) (gate unfed ungated : Bool) (path : DataPath) :
    PathAction → Option DataPath
  | .receive elapsed =>
    match path.coalescer.phase, path.input with
    | .waiting, chunk :: input =>
      some { path with input, coalescer := path.coalescer.receive cfg elapsed chunk }
    | _, _ => none
  | .tick =>
    if path.coalescer.phase = .waiting ∧ path.coalescer.buf ≠ [] then
      some { path with coalescer := path.coalescer.flush }
    else none
  | .inputClosed =>
    if path.coalescer.phase = .waiting ∧ path.input = [] ∧ unfed then
      some { path with coalescer := path.coalescer.inputClosed }
    else none
  | .flush =>
    match path.coalescer.phase with
    | .sending frame _ =>
      -- The queue behind the coalescer is closed once the sender has ended.
      if path.sender = .ended ∨ path.sender = .refused then
        some { path with coalescer := { path.coalescer with phase := .stopped } }
      else if path.frames.length < queueDepth then
        some { path with frames := path.frames ++ [frame], coalescer := path.coalescer.sent }
      else none
    | _ => none
  | .senderTake =>
    match path.sender, path.frames with
    | .waiting, frame :: frames => some { path with frames, sender := .gated frame }
    | _, _ => none
  | .senderCheck =>
    match path.sender with
    -- The gate is read once, and a frame that was let through is not called back.
    | .gated frame => if gate then none else some { path with sender := .cleared frame }
    | _ => none
  | .senderSend =>
    match path.sender with
    | .cleared frame => some { path with sent := path.sent ++ [frame], sender := .waiting }
    | _ => none
  | .senderRefused =>
    match path.sender with
    | .cleared _ => some { path with sender := .refused }
    | _ => none
  | .senderEnd =>
    match path.sender with
    | .waiting =>
      if path.frames = [] ∧ path.coalescer.phase = .stopped then
        some { path with sender := .ended }
      else none
    -- A closed gate that nobody can open any more drops the frame it holds.
    | .gated _ => if gate && ungated then some { path with sender := .ended } else none
    | _ => none

end DataPath

/-- The lifecycle events of a session. -/
inductive SessionEvent where
  | connected
  | reconnecting (attempt maxAttempts : UInt32) (delayMs : Nat)
  | disconnected (reason : String)
  | exited (code : Option UInt32)
  deriving DecidableEq, Repr

/-- A span in whole milliseconds, clamped to 64 bits. -/
def millisU64 (span : Duration) : Nat := min (span.nanos / 10 ^ 6) (2 ^ 64 - 1)

/-- Where the supervisor stands, in the order it gets there. -/
inductive Phase where
  /-- Waiting for output or for the tab to close. -/
  | pumping
  /-- Waiting for room to pass a chunk on to the data path. -/
  | forwarding (chunk : Bytes)
  /-- The output has ended. -/
  | ended
  | classifying
  /-- About to report an exit. -/
  | exiting (code : Option UInt32)
  /-- About to report a drop that nothing can be done about. -/
  | losing
  /-- About to decide on the first attempt. -/
  | dropped
  /-- About to act on a decision. -/
  | deciding (reason : String) (decision : Decision)
  /-- Waiting for the delay to pass or for the tab to close. -/
  | backingOff (attempt : UInt32)
  /-- The delay has passed. -/
  | awake (attempt : UInt32)
  /-- The tab was not closed, and the size is read next. -/
  | clear (attempt : UInt32)
  /-- The first half of the size is read. -/
  | sizing (attempt : UInt32) (cols : UInt16)
  /-- Waiting for a connection at a size. -/
  | attempting (attempt : UInt32) (size : Size)
  /-- The connection is there and not installed. -/
  | established
  /-- It is installed, and the pause gate is reset next. -/
  | installed
  /-- The pause gate is reset, and the connection is announced next. -/
  | reopened
  | stopped
  deriving DecidableEq, Repr

/-- How far a call that opens the session has come since it spawned the supervisor. -/
inductive Opening where
  | spawned
  | announced
  | registered
  deriving DecidableEq, Repr

/-- How far a call that closes the session has come. -/
inductive Closing where
  | open
  /-- The session is no longer found under its id. -/
  | removed
  /-- The supervisor was told to shut down. -/
  | shutdown
  deriving DecidableEq, Repr

/-- How far a flow command has come since it found its session. -/
inductive CommandStage where
  | gateWritten
  /-- It holds the control handle of a generation. -/
  | holding (index : Nat)
  deriving DecidableEq, Repr

/-- How far a resize has come since it found its session. -/
inductive ResizeStage where
  | found
  | colsSet
  | rowsSet
  /-- It holds the control handle of a generation. -/
  | holding (index : Nat)
  deriving DecidableEq, Repr

/-- A resize in flight. -/
structure Resize where
  size : Size
  stage : ResizeStage
  deriving DecidableEq, Repr

/-- What a session is opened with. -/
structure Setup where
  size : Size
  cfg : CoalescerConfig
  policy : ReconnectPolicy
  /-- There is a way to establish the connection again. -/
  reconnector : Bool

/-- A session with the default policy on a terminal of the usual size. -/
def savedHost : Setup := ⟨⟨80, 24⟩, ⟨131072, 8⟩, .default, true⟩

/-- The state that a session's tasks and commands share. -/
structure State where
  /-- The transport generations, oldest first. -/
  shells : List Shell
  /-- The generation whose control handle is installed. -/
  conn : Nat
  /-- The generation whose output the supervisor reads. -/
  reading : Nat
  phase : Phase
  path : DataPath
  /-- The desktop's pause gate is closed. -/
  gate : Bool
  /-- The recorded size of the terminal. -/
  dims : Size
  opening : Opening
  closing : Closing
  /-- The events sent so far. -/
  events : List SessionEvent
  /-- The sizes of the reconnect attempts started so far. -/
  attempts : List Size
  /-- The flow commands invoked and not begun. -/
  commands : List FlowCommand
  /-- The flow command that is being executed. -/
  running : Option (FlowCommand × CommandStage)
  /-- The resizes in flight, the newest first. -/
  resizes : List Resize
  /-- The size requested last. -/
  requested : Size
  deriving DecidableEq, Repr

/-- The state right after the supervisor was spawned. -/
def State.init (setup : Setup) : State where
  shells := [.open setup.size]
  conn := 0
  reading := 0
  phase := .pumping
  path := .new
  gate := false
  dims := setup.size
  opening := .spawned
  closing := .open
  events := []
  attempts := []
  commands := []
  running := none
  resizes := []
  requested := setup.size

/-- A command finds the session under its id. -/
def State.found (self : State) : Bool :=
  self.opening == .registered && self.closing == .open

/-- The supervisor was told to shut down. -/
def State.isShutdown (self : State) : Bool := self.closing == .shutdown

/-- The state after one more event. -/
def State.send (self : State) (event : SessionEvent) : State :=
  { self with events := self.events ++ [event] }

/-- What moves the supervisor on. -/
inductive Input where
  /-- Whatever comes next where it stands. -/
  | next
  /-- The shutdown signal wins a wait. -/
  | stop
  /-- A jitter value is drawn for the first decision. -/
  | draw (rand01 : Jitter)
  /-- The attempt in flight succeeds. -/
  | succeed
  /-- The attempt in flight fails, and a jitter value is drawn for the decision after it. -/
  | fail (error : ReconnectError) (rand01 : Jitter)
  deriving DecidableEq, Repr

/-- The supervisor waits for output. -/
def State.recv (self : State) : Option State :=
  match self.shells[self.reading]? with
  | none => none
  | some shell =>
    match shell.out with
    | chunk :: out =>
      some { self with
        phase := .forwarding chunk
        shells := self.shells.set self.reading { shell with out } }
    | [] => if shell.pump = .done then some { self with phase := .ended } else none

/-- The supervisor passes a chunk on, unless the data path is gone or full. -/
def State.forward (self : State) (chunk : Bytes) : Option State :=
  if self.path.coalescer.phase = .stopped then some { self with phase := .stopped }
  -- A full queue holds the supervisor up, which fills the queue behind it in turn.
  else if self.path.input.length < queueDepth then
    some { self with
      phase := .pumping
      path := { self.path with input := self.path.input ++ [chunk] } }
  else none

/-- The supervisor tells an exit from a drop. -/
def State.classify (setup : Setup) (self : State) : Option State :=
  match self.shells[self.reading]? with
  | none => none
  | some shell =>
    -- A status is an exit even when the transport is gone by now.
    let ended :=
      match shell.exitCode with
      | some code => PumpEnd.exited (some code)
      | none => if shell.lost then .dropped else .exited none
    match ended with
    | .exited code => some { self with phase := .exiting code }
    | .dropped => some { self with phase := if setup.reconnector then .dropped else .losing }

/-- The supervisor acts on a decision. -/
def State.act (setup : Setup) (self : State) (reason : String) : Decision → State
  | .reconnect attempt delay =>
    { self.send (.reconnecting attempt setup.policy.maxAttempts (millisU64 delay)) with
      phase := .backingOff attempt }
  | .giveUp => { self.send (.disconnected reason) with phase := .stopped }
  -- No decision after a drop is an exit.
  | .exit code => { self.send (.exited code) with phase := .stopped }

/-- One step of the supervisor. -/
def superviseStep (setup : Setup) (state : State) (input : Input) : Option State :=
  match state.phase, input with
  -- The waits are biased towards the signal, but a close can fall between two of their polls.
  | .pumping, .stop => if state.isShutdown then some { state with phase := .stopped } else none
  | .pumping, .next => state.recv
  | .forwarding chunk, .next => state.forward chunk
  | .ended, .next =>
    some { state with phase := if state.isShutdown then .stopped else .classifying }
  | .classifying, .next => state.classify setup
  | .exiting code, .next => some { state.send (.exited code) with phase := .stopped }
  | .losing, .next => some { state.send (.disconnected "connection lost") with phase := .stopped }
  | .dropped, .draw rand01 =>
    some { state with
      phase := .deciding "connection lost" (setup.policy.decide .dropped 1 rand01) }
  | .deciding reason decision, .next => some (state.act setup reason decision)
  | .backingOff _, .stop =>
    if state.isShutdown then some { state with phase := .stopped } else none
  | .backingOff attempt, .next => some { state with phase := .awake attempt }
  | .awake attempt, .next =>
    some { state with phase := if state.isShutdown then .stopped else .clear attempt }
  | .clear attempt, .next => some { state with phase := .sizing attempt state.dims.cols }
  | .sizing attempt cols, .next =>
    let size : Size := ⟨cols, state.dims.rows⟩
    some { state with phase := .attempting attempt size, attempts := state.attempts ++ [size] }
  -- An attempt in flight is not interrupted by a close.
  | .attempting _ size, .succeed =>
    some { state with phase := .established, shells := state.shells ++ [.open size] }
  | .attempting attempt _, .fail error rand01 =>
    some { state with
      phase := .deciding error.message
        (setup.policy.afterFailedAttempt attempt error.retryable rand01) }
  -- The new control handle goes in first, then the gate is reset, then the webview hears of it.
  | .established, .next => some { state with phase := .installed, conn := state.reading + 1 }
  | .installed, .next => some { state with phase := .reopened, gate := false }
  | .reopened, .next =>
    some { state.send .connected with phase := .pumping, reading := state.reading + 1 }
  | _, _ => none

/-- What a flow command sets a pause flag to. -/
def pauses : FlowCommand → Bool
  | .pause => true
  | .resume => false

/-- The flow command at the head of the queue takes its next step. -/
def commandStep (state : State) : Option State :=
  match state.running with
  | none =>
    match state.commands with
    | [] => none
    | command :: commands =>
      -- An unknown session fails the command before it has touched anything.
      if state.found then
        some { state with
          commands
          gate := pauses command
          running := some (command, .gateWritten) }
      else some { state with commands }
  -- The handle is looked up under the lock, and used after the lock is let go.
  | some (command, .gateWritten) =>
    some { state with running := some (command, .holding state.conn) }
  | some (command, .holding index) =>
    some { state with
      running := none
      shells := state.shells.modify index fun shell => { shell with paused := pauses command } }

/-- The remote terminal takes a size on, unless its transport is gone. -/
def Shell.resized (self : Shell) (size : Size) : Shell :=
  -- Over a transport that is gone the request reaches nobody.
  if self.lost then self else { self with size }

/-- A resize in flight takes its next step. -/
def resizeStep (state : State) (index : Nat) : Option State :=
  match state.resizes[index]? with
  | none => none
  | some resize =>
    let at_ (stage : ResizeStage) := state.resizes.set index { resize with stage }
    match resize.stage with
    -- The two halves of the size are stored one after the other.
    | .found =>
      some { state with
        dims := { state.dims with cols := resize.size.cols }
        resizes := at_ .colsSet }
    | .colsSet =>
      some { state with
        dims := { state.dims with rows := resize.size.rows }
        resizes := at_ .rowsSet }
    | .rowsSet => some { state with resizes := at_ (.holding state.conn) }
    | .holding shell =>
      some { state with
        resizes := state.resizes.eraseIdx index
        shells := state.shells.modify shell fun shell => shell.resized resize.size }

/-- What can happen to a session. -/
inductive Action where
  | shell (index : Nat) (action : ShellAction)
  | path (action : PathAction)
  | supervise (input : Input)
  /-- The call that opens the session announces it. -/
  | announce
  /-- That call puts the session under its id. -/
  | register
  | invoke (command : FlowCommand)
  | command
  | resize (size : Size)
  | resizing (index : Nat)
  /-- The call that closes the session takes it from its id. -/
  | remove
  /-- That call tells the supervisor. -/
  | shutdown
  deriving DecidableEq, Repr

/-- Nobody reads a generation's output any more. -/
def State.unread (self : State) (index : Nat) : Bool :=
  self.phase == .stopped || decide (index < self.reading)

/-- Nobody is left to resume a generation. -/
def State.orphaned (self : State) (index : Nat) : Bool :=
  -- A handle is dropped with its session, or when the next generation takes its place.
  self.isShutdown || decide (index < self.conn)

/-- Nobody feeds the data path any more. -/
def State.unfed (self : State) : Bool := self.phase == .stopped

/-- The session after one action. -/
def step (setup : Setup) (state : State) : Action → Option State
  | .shell index action =>
    match state.shells[index]? with
    | none => none
    | some shell =>
      (shellStep (state.unread index) (state.orphaned index) shell action).map fun shell =>
        { state with shells := state.shells.set index shell }
  | .path action =>
    (pathStep setup.cfg state.gate state.unfed (state.unfed && state.isShutdown) state.path
      action).map fun path => { state with path }
  | .supervise input => superviseStep setup state input
  | .announce =>
    if state.opening = .spawned then some { state.send .connected with opening := .announced }
    else none
  | .register =>
    if state.opening = .announced then some { state with opening := .registered } else none
  -- Flow commands run in the order they were invoked, while resizes overlap.
  | .invoke command => some { state with commands := state.commands ++ [command] }
  | .command => commandStep state
  | .resize size =>
    if state.found then
      some { state with requested := size, resizes := ⟨size, .found⟩ :: state.resizes }
    else none
  | .resizing index => resizeStep state index
  | .remove => if state.found then some { state with closing := .removed } else none
  | .shutdown =>
    if state.closing = .removed then some { state with closing := .shutdown } else none

end Tern.Session
