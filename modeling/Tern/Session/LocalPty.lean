import Tern.Session.Model

/-! A local shell: the threads and queues between its terminal and the webview, both ways. -/

namespace Tern.Session

open TermStream (CoalescerConfig)
open Webview (FlowCommand)

/-- Depth of the queue between the reader thread and its consumer. -/
def outputQueueDepth : Nat := 32

/-- The largest chunk the reader thread reads at once. -/
def readChunk : Nat := 8 * 1024

/-- Depth of the queue in front of the writer thread. -/
def inputQueueDepth : Nat := 16

section Output

/-- Where the reader thread stands. -/
inductive Reader where
  | reading
  /-- Waiting for room to pass a chunk on. -/
  | sending (chunk : Bytes)
  | done
  deriving DecidableEq, Repr

/-- The chunk the reader thread holds. -/
def Reader.inHand : Reader → Bytes
  | .reading => []
  | .sending chunk => chunk
  | .done => []

/-- The output side of a terminal. -/
structure PtyOutput where
  /-- All the output that was read so far. -/
  produced : Bytes
  reader : Reader
  queue : List Bytes
  deriving DecidableEq, Repr

/-- What can happen on the output side. -/
inductive OutputAction where
  | read (chunk : Bytes)
  /-- A read finds the end of the output, or fails. -/
  | readEnd
  | send
  deriving DecidableEq, Repr

/-- One step of the reader thread, whose consumer may be gone. -/
def outputStep (unread : Bool) (output : PtyOutput) : OutputAction → Option PtyOutput
  | .read chunk =>
    -- A read of nothing is the end of the output.
    if output.reader = .reading ∧ chunk ≠ [] ∧ chunk.length ≤ readChunk then
      some { output with produced := output.produced ++ chunk, reader := .sending chunk }
    else none
  | .readEnd => if output.reader = .reading then some { output with reader := .done } else none
  | .send =>
    match output.reader with
    | .sending chunk =>
      if unread then some { output with reader := .done }
      else if output.queue.length < outputQueueDepth then
        some { output with reader := .reading, queue := output.queue ++ [chunk] }
      -- A full queue blocks the thread, and what it does not read stalls the child.
      else none
    | _ => none

/-- The output of a terminal that its consumer has not taken, in order. -/
def PtyOutput.rest (self : PtyOutput) : Bytes := self.queue.flatten ++ self.reader.inHand

end Output

section Input

/-- Where the writer thread stands. -/
inductive Writer where
  | waiting
  | writing (data : Bytes)
  /-- The terminal has refused input. -/
  | done
  deriving DecidableEq, Repr

/-- The input the writer thread holds. -/
def Writer.inHand : Writer → Bytes
  | .waiting => []
  | .writing data => data
  | .done => []

/-- The input side of a terminal. -/
structure PtyInput where
  /-- The writes that wait for room in the queue. -/
  pending : List Bytes
  queue : List Bytes
  writer : Writer
  /-- All the input that the queue took, in order. -/
  accepted : Bytes
  /-- The input that the terminal took. -/
  typed : Bytes
  deriving DecidableEq, Repr

/-- What can happen on the input side. -/
inductive InputAction where
  | write (data : Bytes)
  /-- A write that waits gets its place in the queue. -/
  | enqueue (index : Nat)
  /-- A write that waits learns that nobody reads the queue. -/
  | fail (index : Nat)
  | take
  | wrote
  /-- The terminal takes a part of the input, and then refuses the rest. -/
  | refused (count : Nat)
  deriving DecidableEq, Repr

/-- One step on the input side, where writes overlap and the thread takes them one by one. -/
def inputStep (input : PtyInput) : InputAction → Option PtyInput
  | .write data => some { input with pending := input.pending ++ [data] }
  | .enqueue index =>
    match input.pending[index]? with
    | none => none
    | some data =>
      if input.writer ≠ .done ∧ input.queue.length < inputQueueDepth then
        some { input with
          pending := input.pending.eraseIdx index
          queue := input.queue ++ [data]
          accepted := input.accepted ++ data }
      else none
  | .fail index =>
    if input.writer = .done then some { input with pending := input.pending.eraseIdx index }
    else none
  | .take =>
    match input.writer, input.queue with
    | .waiting, data :: queue => some { input with queue, writer := .writing data }
    | _, _ => none
  | .wrote =>
    match input.writer with
    | .writing data => some { input with writer := .waiting, typed := input.typed ++ data }
    | _ => none
  | .refused count =>
    match input.writer with
    | .writing data =>
      some { input with writer := .done, typed := input.typed ++ data.take count }
    | _ => none

end Input

/-- Where the pump between the reader thread and the data path stands. -/
inductive LocalPump where
  | receiving
  | forwarding (chunk : Bytes)
  /-- The output is over, and the child's status is waited for. -/
  | awaiting
  | done
  deriving DecidableEq, Repr

/-- The chunk the pump holds. -/
def LocalPump.inHand : LocalPump → Bytes
  | .receiving => []
  | .forwarding chunk => chunk
  | .awaiting => []
  | .done => []

/-- A local shell and the session around it. -/
structure LocalPty where
  output : PtyOutput
  input : PtyInput
  /-- The child's exit status, once it was seen. -/
  exit : Option UInt32
  pump : LocalPump
  path : DataPath
  /-- The desktop's pause gate is closed. -/
  gate : Bool
  opening : Opening
  /-- The session is no longer found under its id. -/
  closed : Bool
  events : List SessionEvent
  deriving DecidableEq, Repr

/-- The shell right after it was spawned. -/
def LocalPty.spawn : LocalPty where
  output := ⟨[], .reading, []⟩
  input := ⟨[], [], .waiting, [], []⟩
  exit := none
  pump := .receiving
  path := .new
  gate := false
  opening := .spawned
  closed := false
  events := []

/-- A command finds the session under its id. -/
def LocalPty.found (self : LocalPty) : Bool := self.opening == .registered && !self.closed

/-- The pump's task is over, which closes the queues on both sides of it. -/
def LocalPty.over (self : LocalPty) : Bool := self.pump == .done

/-- One step of the pump. -/
def LocalPty.pumpStep (self : LocalPty) : Option LocalPty :=
  match self.pump with
  | .receiving =>
    match self.output.queue with
    | chunk :: queue =>
      some { self with pump := .forwarding chunk, output := { self.output with queue } }
    | [] => if self.output.reader = .done then some { self with pump := .awaiting } else none
  | .forwarding chunk =>
    -- A data path that is gone ends the loop, but the exit is still reported.
    if self.path.coalescer.phase = .stopped then some { self with pump := .awaiting }
    else if self.path.input.length < queueDepth then
      some { self with
        pump := .receiving
        path := { self.path with input := self.path.input ++ [chunk] } }
    else none
  -- Nothing was lost in transport, so there is nothing to tell apart and nothing to reconnect.
  | .awaiting =>
    if self.exit.isSome then
      some { self with pump := .done, events := self.events ++ [.exited self.exit] }
    else none
  | .done => none

/-- What can happen to a local shell. -/
inductive LocalAction where
  | output (action : OutputAction)
  | input (action : InputAction)
  /-- The child exits. -/
  | exit (code : UInt32)
  | pump
  | path (action : PathAction)
  | announce
  | register
  | command (command : FlowCommand)
  /-- The call that closes the session takes it from its id. -/
  | remove
  deriving DecidableEq, Repr

/-- The local shell after one action. -/
def localStep (cfg : CoalescerConfig) (shell : LocalPty) : LocalAction → Option LocalPty
  | .output action =>
    (outputStep shell.over shell.output action).map fun output => { shell with output }
  | .input (.write data) =>
    if shell.found then (inputStep shell.input (.write data)).map fun input => { shell with input }
    else none
  | .input action => (inputStep shell.input action).map fun input => { shell with input }
  | .exit code => if shell.exit = none then some { shell with exit := some code } else none
  | .pump => shell.pumpStep
  | .path action =>
    (pathStep cfg shell.gate shell.over shell.closed shell.path action).map fun path =>
      { shell with path }
  | .announce =>
    if shell.opening = .spawned then
      some { shell with opening := .announced, events := shell.events ++ [.connected] }
    else none
  | .register =>
    if shell.opening = .announced then some { shell with opening := .registered } else none
  -- A local shell has no gate of its own, so a flow command moves the desktop's gate alone.
  | .command command =>
    if shell.found then some { shell with gate := pauses command } else none
  | .remove => if shell.found then some { shell with closed := true } else none

section Steps

variable {cfg : CoalescerConfig} {shell next : LocalPty}

/-- Everything an action on a local shell can do, with what it found before. -/
inductive LocalTakes (cfg : CoalescerConfig) (shell : LocalPty) : LocalPty → Prop where
  | output {action : OutputAction} {output : PtyOutput}
      (stepped : outputStep shell.over shell.output action = some output) :
      LocalTakes cfg shell { shell with output }
  | input {action : InputAction} {input : PtyInput}
      (stepped : inputStep shell.input action = some input) :
      LocalTakes cfg shell { shell with input }
  | exit {code : UInt32} (running : shell.exit = none) :
      LocalTakes cfg shell { shell with exit := some code }
  | received {chunk : Bytes} {queue : List Bytes} (receiving : shell.pump = .receiving)
      (queued : shell.output.queue = chunk :: queue) :
      LocalTakes cfg shell { shell with
        pump := .forwarding chunk, output := { shell.output with queue } }
  | drained (receiving : shell.pump = .receiving) (empty : shell.output.queue = [])
      (done : shell.output.reader = .done) : LocalTakes cfg shell { shell with pump := .awaiting }
  | refused {chunk : Bytes} (forwarding : shell.pump = .forwarding chunk)
      (gone : shell.path.coalescer.phase = .stopped) :
      LocalTakes cfg shell { shell with pump := .awaiting }
  | forwarded {chunk : Bytes} (forwarding : shell.pump = .forwarding chunk)
      (takes : shell.path.coalescer.phase ≠ .stopped)
      (room : shell.path.input.length < queueDepth) :
      LocalTakes cfg shell { shell with
        pump := .receiving
        path := { shell.path with input := shell.path.input ++ [chunk] } }
  | exited (awaiting : shell.pump = .awaiting) (status : shell.exit.isSome = true) :
      LocalTakes cfg shell { shell with
        pump := .done, events := shell.events ++ [.exited shell.exit] }
  | path {action : PathAction} {path : DataPath}
      (stepped : pathStep cfg shell.gate shell.over shell.closed shell.path action = some path) :
      LocalTakes cfg shell { shell with path }
  | announced : LocalTakes cfg shell { shell with
      opening := .announced, events := shell.events ++ [.connected] }
  | registered : LocalTakes cfg shell { shell with opening := .registered }
  | flow {command : FlowCommand} (found : shell.found = true) :
      LocalTakes cfg shell { shell with gate := pauses command }
  | removed : LocalTakes cfg shell { shell with closed := true }

/-- A step of the pump is one of its moves. -/
theorem takes_pumpStep (stepped : shell.pumpStep = some next) : LocalTakes cfg shell next := by
  -- The pump stands in one of four phases, and at its end it takes no step.
  unfold LocalPty.pumpStep at stepped
  split at stepped
  · rename_i receiving
    split at stepped
    · rename_i chunk queue queued
      cases stepped
      exact .received receiving queued
    · -- An empty queue is the end only once the reader is done.
      rename_i empty
      split at stepped
      · rename_i done
        cases stepped
        exact .drained receiving empty done
      · cases stepped
  · rename_i chunk forwarding
    split at stepped
    · -- A data path that is gone is the end of forwarding.
      rename_i gone
      cases stepped
      exact .refused forwarding gone
    · rename_i takes
      split at stepped
      · rename_i room
        cases stepped
        exact .forwarded forwarding takes room
      · cases stepped
  · -- All output is through, and the child's status is waited for.
    rename_i awaiting
    split at stepped
    · rename_i status
      cases stepped
      exact .exited awaiting status
    · cases stepped
  · cases stepped

/-- An action on a local shell does nothing else. -/
theorem takes_localStep {action : LocalAction} (stepped : localStep cfg shell action = some next) :
    LocalTakes cfg shell next := by
  -- Each action is guarded once, and what it does is written out behind its guard.
  cases action with
  | output action =>
    obtain ⟨output, moved, rfl⟩ := Option.map_eq_some_iff.mp stepped
    exact .output moved
  | input action =>
    cases action with
    | write data =>
      simp only [localStep] at stepped
      split at stepped
      · -- Only a session that is found is written to.
        obtain ⟨input, moved, rfl⟩ := Option.map_eq_some_iff.mp stepped
        exact .input moved
      · cases stepped
    | _ =>
      obtain ⟨input, moved, rfl⟩ := Option.map_eq_some_iff.mp stepped
      exact .input moved
  | exit code =>
    obtain ⟨running, rfl⟩ := by simpa [localStep] using stepped
    exact .exit running
  | pump => exact takes_pumpStep stepped
  | path action =>
    obtain ⟨path, moved, rfl⟩ := Option.map_eq_some_iff.mp stepped
    exact .path moved
  | announce =>
    obtain ⟨-, rfl⟩ := by simpa [localStep] using stepped
    exact .announced
  | register =>
    obtain ⟨-, rfl⟩ := by simpa [localStep] using stepped
    exact .registered
  | command command =>
    -- A command for a session that is not found does nothing.
    obtain ⟨found, rfl⟩ := by simpa [localStep] using stepped
    exact .flow found
  | remove =>
    obtain ⟨-, rfl⟩ := by simpa [localStep] using stepped
    exact .removed

end Steps

end Tern.Session
