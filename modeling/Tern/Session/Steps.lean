import Tern.Session.Model

/-! What the steps of a session can do, said once: the supervisor's moves and every other action. -/

namespace Tern.Session

open Desktop (Decision Jitter)
open Ssh (ReconnectError)
open TermStream (CoalescerConfig)
open Webview (FlowCommand)

section Shells

/-- Everything that can happen at a shell, with what it found before. -/
inductive ShellMoves (unread orphaned : Bool) (shell : Shell) : ShellAction → Shell → Prop where
  | arrived {msg : ChannelMsg} (running : shell.ended = false) :
      ShellMoves unread orphaned shell (.arrive msg) { shell with
        arrived := shell.arrived ++ [msg], inbox := shell.inbox ++ [msg] }
  | hungUp : ShellMoves unread orphaned shell .hangUp { shell with ended := true }
  | lost : ShellMoves unread orphaned shell .lose { shell with ended := true, lost := true }
  | woken (selecting : shell.pump = .selecting) :
      ShellMoves unread orphaned shell .wake { shell with pump := .checking }
  | checked (checking : shell.pump = .checking) (flowing : shell.paused = false) :
      ShellMoves unread orphaned shell .check { shell with pump := .selecting }
  | exhausted (selecting : shell.pump = .selecting) (empty : shell.inbox = [])
      (ended : shell.ended = true) :
      ShellMoves unread orphaned shell .take { shell with pump := .done }
  | tookOutput {msg : ChannelMsg} {inbox : List ChannelMsg} (selecting : shell.pump = .selecting)
      (queued : shell.inbox = msg :: inbox) :
      ShellMoves unread orphaned shell .take { shell with inbox, pump := .sending msg.payload }
  | tookStatus {code : UInt32} {inbox : List ChannelMsg} (selecting : shell.pump = .selecting)
      (queued : shell.inbox = .exitStatus code :: inbox) :
      ShellMoves unread orphaned shell .take { shell with
        inbox, pump := .checking, exitCode := some code }
  | tookOther {inbox : List ChannelMsg} (selecting : shell.pump = .selecting)
      (queued : shell.inbox = .other :: inbox) :
      ShellMoves unread orphaned shell .take { shell with inbox, pump := .checking }
  | thrown {chunk : Bytes} (sending : shell.pump = .sending chunk) (gone : unread = true) :
      ShellMoves unread orphaned shell .send { shell with pump := .done }
  | passed {chunk : Bytes} (sending : shell.pump = .sending chunk) (read : unread = false)
      (room : shell.out.length < queueDepth) :
      ShellMoves unread orphaned shell .send { shell with
        out := shell.out ++ [chunk], pump := .checking }
  | cut (checking : shell.pump = .checking) (paused : shell.paused = true)
      (alone : orphaned = true) :
      ShellMoves unread orphaned shell .cut { shell with pump := .done }

variable {unread orphaned : Bool} {shell moved : Shell}

/-- The pump takes a message by what it bears, or finds that there will be none. -/
theorem shellMoves_take (selecting : shell.pump = .selecting) (taken : shell.take = some moved) :
    ShellMoves unread orphaned shell .take moved := by
  unfold Shell.take at taken
  split at taken
  · rename_i empty
    split at taken
    · rename_i ended
      cases taken
      exact .exhausted selecting empty ended
    · cases taken
  -- Both kinds of output go the same way.
  · rename_i queued
    cases taken
    exact .tookOutput selecting queued
  · rename_i queued
    cases taken
    exact .tookOutput selecting queued
  · rename_i queued
    cases taken
    exact .tookStatus selecting queued
  · rename_i queued
    cases taken
    exact .tookOther selecting queued

/-- The pump passes a chunk on, or throws it away when nobody reads. -/
theorem shellMoves_send (stepped : shellStep unread orphaned shell .send = some moved) :
    ShellMoves unread orphaned shell .send moved := by
  -- Whether anyone reads is asked before there is room.
  simp only [shellStep] at stepped
  split at stepped
  · rename_i chunk sending
    split at stepped
    · rename_i gone
      cases stepped
      exact .thrown sending gone
    · rename_i read
      split at stepped
      · rename_i room
        cases stepped
        exact .passed sending (Bool.not_eq_true _ ▸ read) room
      · cases stepped
  · cases stepped

/-- A step at a shell is one of these. -/
theorem shellMoves_shellStep {action : ShellAction}
    (stepped : shellStep unread orphaned shell action = some moved) :
    ShellMoves unread orphaned shell action moved := by
  -- Most steps have one guard, which the step is named after.
  cases action with
  | arrive msg =>
    simp only [shellStep] at stepped
    split at stepped
    · cases stepped
    · -- Nothing arrives on a channel that has ended.
      rename_i running
      cases stepped
      exact .arrived (Bool.not_eq_true _ ▸ running)
  | hangUp =>
    cases stepped
    exact .hungUp
  | lose =>
    cases stepped
    exact .lost
  | wake =>
    obtain ⟨selecting, rfl⟩ := by simpa [shellStep] using stepped
    exact .woken selecting
  | check =>
    obtain ⟨⟨checking, flowing⟩, rfl⟩ := by simpa [shellStep] using stepped
    exact .checked checking flowing
  | take =>
    simp only [shellStep] at stepped
    split at stepped
    · rename_i selecting
      exact shellMoves_take selecting stepped
    · cases stepped
  | send => exact shellMoves_send stepped
  | cut =>
    -- A pump that is paused ends when nobody holds its handle any more.
    obtain ⟨⟨checking, paused, alone⟩, rfl⟩ := by simpa [shellStep] using stepped
    exact .cut checking paused alone

end Shells

section Paths

/-- Everything that can happen on a data path, with what it found before. -/
inductive PathMoves (cfg : CoalescerConfig) (gate unfed ungated : Bool) (path : DataPath) :
    PathAction → DataPath → Prop where
  | received {elapsed : Bool} {chunk : Bytes} {input : List Bytes}
      (waiting : path.coalescer.phase = .waiting) (queued : path.input = chunk :: input) :
      PathMoves cfg gate unfed ungated path (.receive elapsed) { path with
        input, coalescer := path.coalescer.receive cfg elapsed chunk }
  | ticked (waiting : path.coalescer.phase = .waiting) (holds : path.coalescer.buf ≠ []) :
      PathMoves cfg gate unfed ungated path .tick { path with coalescer := path.coalescer.flush }
  | closed (waiting : path.coalescer.phase = .waiting) (empty : path.input = [])
      (ended : unfed = true) :
      PathMoves cfg gate unfed ungated path .inputClosed { path with
        coalescer := path.coalescer.inputClosed }
  | dropped {frame : Bytes} {last : Bool} (sending : path.coalescer.phase = .sending frame last)
      (gone : path.sender = .ended ∨ path.sender = .refused) :
      PathMoves cfg gate unfed ungated path .flush { path with
        coalescer := { path.coalescer with phase := .stopped } }
  | flushed {frame : Bytes} {last : Bool} (sending : path.coalescer.phase = .sending frame last)
      (present : ¬(path.sender = .ended ∨ path.sender = .refused))
      (room : path.frames.length < queueDepth) :
      PathMoves cfg gate unfed ungated path .flush { path with
        frames := path.frames ++ [frame], coalescer := path.coalescer.sent }
  | took {frame : Bytes} {frames : List Bytes} (waiting : path.sender = .waiting)
      (queued : path.frames = frame :: frames) :
      PathMoves cfg gate unfed ungated path .senderTake { path with
        frames, sender := .gated frame }
  | cleared {frame : Bytes} (gated : path.sender = .gated frame) (opened : gate = false) :
      PathMoves cfg gate unfed ungated path .senderCheck { path with sender := .cleared frame }
  | sent {frame : Bytes} (cleared : path.sender = .cleared frame) :
      PathMoves cfg gate unfed ungated path .senderSend { path with
        sent := path.sent ++ [frame], sender := .waiting }
  | refused {frame : Bytes} (cleared : path.sender = .cleared frame) :
      PathMoves cfg gate unfed ungated path .senderRefused { path with sender := .refused }
  | ended (waiting : path.sender = .waiting) (empty : path.frames = [])
      (stopped : path.coalescer.phase = .stopped) :
      PathMoves cfg gate unfed ungated path .senderEnd { path with sender := .ended }
  | abandoned {frame : Bytes} (gated : path.sender = .gated frame) (shut : gate = true)
      (alone : ungated = true) :
      PathMoves cfg gate unfed ungated path .senderEnd { path with sender := .ended }

variable {cfg : CoalescerConfig} {gate unfed ungated : Bool} {path moved : DataPath}

/-- The coalescer hands its frame on, or drops it when nobody is left to take it. -/
theorem pathMoves_flush (stepped : pathStep cfg gate unfed ungated path .flush = some moved) :
    PathMoves cfg gate unfed ungated path .flush moved := by
  -- Whether the sender is there is asked before there is room.
  simp only [pathStep] at stepped
  split at stepped
  · rename_i frame last sending
    split at stepped
    · rename_i gone
      cases stepped
      exact .dropped sending gone
    · rename_i present
      split at stepped
      · rename_i room
        cases stepped
        exact .flushed sending present room
      · cases stepped
  · cases stepped

/-- The sender ends behind the last frame, or at a gate that stays closed. -/
theorem pathMoves_senderEnd
    (stepped : pathStep cfg gate unfed ungated path .senderEnd = some moved) :
    PathMoves cfg gate unfed ungated path .senderEnd moved := by
  -- A sender that waits ends behind the last frame, and one at a gate only without hope.
  simp only [pathStep] at stepped
  split at stepped
  · rename_i waiting
    split at stepped
    · rename_i finished
      cases stepped
      exact .ended waiting finished.1 finished.2
    · cases stepped
  · rename_i frame gated
    split at stepped
    · rename_i unopened
      cases stepped
      obtain ⟨shut, alone⟩ := Bool.and_eq_true_iff.mp unopened
      exact .abandoned gated shut alone
    · cases stepped
  · cases stepped

/-- A step on the data path is one of these. -/
theorem pathMoves_pathStep {action : PathAction}
    (stepped : pathStep cfg gate unfed ungated path action = some moved) :
    PathMoves cfg gate unfed ungated path action moved := by
  -- Each step finds the coalescer or the sender in one phase, or it is not taken.
  cases action with
  | receive elapsed =>
    simp only [pathStep] at stepped
    split at stepped
    · -- A chunk is taken while the coalescer waits and one is there.
      rename_i chunk input waiting queued
      cases stepped
      exact .received waiting queued
    · cases stepped
  | tick =>
    obtain ⟨⟨waiting, holds⟩, rfl⟩ := by simpa [pathStep] using stepped
    exact .ticked waiting holds
  | inputClosed =>
    obtain ⟨⟨waiting, empty, ended⟩, rfl⟩ := by simpa [pathStep] using stepped
    exact .closed waiting empty ended
  | flush => exact pathMoves_flush stepped
  | senderTake =>
    simp only [pathStep] at stepped
    split at stepped
    · -- So is a frame by the sender.
      rename_i frame frames waiting queued
      cases stepped
      exact .took waiting queued
    · cases stepped
  | senderCheck =>
    simp only [pathStep] at stepped
    split at stepped
    · -- A frame that was taken waits for the gate.
      rename_i frame gated
      split at stepped
      · cases stepped
      · rename_i opened
        cases stepped
        exact .cleared gated (Bool.not_eq_true _ ▸ opened)
    · cases stepped
  | senderSend =>
    simp only [pathStep] at stepped
    split at stepped
    · -- Past the gate it is delivered, or refused by a webview that is gone.
      rename_i frame cleared
      cases stepped
      exact .sent cleared
    · cases stepped
  | senderRefused =>
    simp only [pathStep] at stepped
    split at stepped
    · rename_i frame cleared
      cases stepped
      exact .refused cleared
    · cases stepped
  | senderEnd => exact pathMoves_senderEnd stepped

/-- A channel that refused a frame is not asked again. -/
theorem refused_pathStep {action : PathAction}
    (stepped : pathStep cfg gate unfed ungated path action = some moved)
    (refused : path.sender = .refused) : moved.sender = .refused := by
  -- The steps in front of the sender leave it alone, and its own find it elsewhere.
  cases pathMoves_pathStep stepped with
  | received waiting queued => exact refused
  | ticked waiting holds => exact refused
  | closed waiting empty ended => exact refused
  | dropped sending gone => exact refused
  | flushed sending present room => exact refused
  | took waiting queued => cases refused.symm.trans waiting
  | cleared gated opened => cases refused.symm.trans gated
  | sent cleared => cases refused.symm.trans cleared
  | refused cleared => rfl
  | ended waiting empty stopped => cases refused.symm.trans waiting
  | abandoned gated shut alone => cases refused.symm.trans gated

end Paths

section Supervising

/-- Everything a step of the supervisor can do, with what it found before. -/
inductive Moves (setup : Setup) (state : State) : Input → State → Prop where
  | stopped (waits : state.phase = .pumping ∨ ∃ attempt, state.phase = .backingOff attempt)
      (shut : state.isShutdown = true) : Moves setup state .stop { state with phase := .stopped }
  | received {shell : Shell} {chunk : Bytes} {out : List Bytes} (pumping : state.phase = .pumping)
      (reads : state.shells[state.reading]? = some shell) (queued : shell.out = chunk :: out) :
      Moves setup state .next { state with
        phase := .forwarding chunk
        shells := state.shells.set state.reading { shell with out } }
  | drained {shell : Shell} (pumping : state.phase = .pumping)
      (reads : state.shells[state.reading]? = some shell) (empty : shell.out = [])
      (done : shell.pump = .done) : Moves setup state .next { state with phase := .ended }
  | refused {chunk : Bytes} (forwarding : state.phase = .forwarding chunk)
      (gone : state.path.coalescer.phase = .stopped) :
      Moves setup state .next { state with phase := .stopped }
  | forwarded {chunk : Bytes} (forwarding : state.phase = .forwarding chunk)
      (takes : state.path.coalescer.phase ≠ .stopped)
      (room : state.path.input.length < queueDepth) :
      Moves setup state .next { state with
        phase := .pumping
        path := { state.path with input := state.path.input ++ [chunk] } }
  | endedShut (ended : state.phase = .ended) (shut : state.isShutdown = true) :
      Moves setup state .next { state with phase := .stopped }
  | endedOpen (ended : state.phase = .ended) (unshut : state.isShutdown = false) :
      Moves setup state .next { state with phase := .classifying }
  | finished {shell : Shell} {code : Option UInt32} (classifying : state.phase = .classifying)
      (reads : state.shells[state.reading]? = some shell)
      (final : code.isSome ∨ shell.lost = false) :
      Moves setup state .next { state with phase := .exiting code }
  | broken {shell : Shell} (classifying : state.phase = .classifying)
      (reads : state.shells[state.reading]? = some shell) (lost : shell.lost = true) :
      Moves setup state .next { state with
        phase := if setup.reconnector then .dropped else .losing }
  | exited {code : Option UInt32} (exiting : state.phase = .exiting code) :
      Moves setup state .next { state.send (.exited code) with phase := .stopped }
  | abandoned (losing : state.phase = .losing) :
      Moves setup state .next { state.send (.disconnected "connection lost") with
        phase := .stopped }
  | drawn {rand01 : Jitter} (dropped : state.phase = .dropped) :
      Moves setup state (.draw rand01) { state with
        phase := .deciding "connection lost" (setup.policy.decide .dropped 1 rand01) }
  | acted {reason : String} {decision : Decision}
      (deciding : state.phase = .deciding reason decision) :
      Moves setup state .next (state.act setup reason decision)
  | elapsed {attempt : UInt32} (backingOff : state.phase = .backingOff attempt) :
      Moves setup state .next { state with phase := .awake attempt }
  | awakeShut {attempt : UInt32} (awake : state.phase = .awake attempt)
      (shut : state.isShutdown = true) : Moves setup state .next { state with phase := .stopped }
  | awakeOpen {attempt : UInt32} (awake : state.phase = .awake attempt)
      (unshut : state.isShutdown = false) :
      Moves setup state .next { state with phase := .clear attempt }
  | readCols {attempt : UInt32} (clear : state.phase = .clear attempt) :
      Moves setup state .next { state with phase := .sizing attempt state.dims.cols }
  | readRows {attempt : UInt32} {cols : UInt16} (sizing : state.phase = .sizing attempt cols) :
      Moves setup state .next { state with
        phase := .attempting attempt ⟨cols, state.dims.rows⟩
        attempts := state.attempts ++ [⟨cols, state.dims.rows⟩] }
  | succeeded {attempt : UInt32} {size : Size}
      (attempting : state.phase = .attempting attempt size) :
      Moves setup state .succeed { state with
        phase := .established, shells := state.shells ++ [.open size] }
  | failed {attempt : UInt32} {size : Size} {error : ReconnectError} {rand01 : Jitter}
      (attempting : state.phase = .attempting attempt size) :
      Moves setup state (.fail error rand01) { state with
        phase := .deciding error.message
          (setup.policy.afterFailedAttempt attempt error.retryable rand01) }
  | installed (established : state.phase = .established) :
      Moves setup state .next { state with phase := .installed, conn := state.reading + 1 }
  | reset (installed : state.phase = .installed) :
      Moves setup state .next { state with phase := .reopened, gate := false }
  | connected (reopened : state.phase = .reopened) :
      Moves setup state .next { state.send .connected with
        phase := .pumping, reading := state.reading + 1 }

variable {setup : Setup} {state next : State}

/-- Waiting for output ends with a chunk or with the end of it. -/
theorem moves_recv (pumping : state.phase = .pumping) (taken : state.recv = some next) :
    Moves setup state .next next := by
  -- What is queued goes first, and the end is seen only once the queue is empty.
  unfold State.recv at taken
  split at taken
  · cases taken
  · rename_i shell reads
    split at taken
    · rename_i chunk out queued
      cases taken
      exact .received pumping reads queued
    · rename_i empty
      split at taken
      · rename_i done
        cases taken
        exact .drained pumping reads empty done
      · cases taken

/-- Passing a chunk on finds room, or finds the data path gone. -/
theorem moves_forward {chunk : Bytes} (forwarding : state.phase = .forwarding chunk)
    (taken : state.forward chunk = some next) : Moves setup state .next next := by
  -- A path that is gone is told from one that is full.
  unfold State.forward at taken
  split at taken
  · rename_i gone
    cases taken
    exact .refused forwarding gone
  · rename_i takes
    split at taken
    · rename_i room
      cases taken
      exact .forwarded forwarding takes room
    · cases taken

/-- Classifying tells an exit from a drop by the status and the transport. -/
theorem moves_classify (classifying : state.phase = .classifying)
    (taken : state.classify setup = some next) : Moves setup state .next next := by
  unfold State.classify at taken
  split at taken
  · cases taken
  · rename_i shell reads
    -- The status is looked at before the transport.
    cases status : shell.exitCode with
    | some code =>
      simp only [status, Option.some.injEq] at taken
      exact taken ▸ .finished classifying reads (.inl rfl)
    | none =>
      cases lost : shell.lost with
      | true =>
        simp only [status, lost, if_true, Option.some.injEq] at taken
        exact taken ▸ .broken classifying reads lost
      | false =>
        simp only [status, lost, Bool.false_eq_true, if_false, Option.some.injEq] at taken
        exact taken ▸ .finished classifying reads (.inr lost)

/-- The signal is heeded while the supervisor waits for output or for the next attempt. -/
theorem moves_stop (taken : superviseStep setup state .stop = some next) :
    Moves setup state .stop next := by
  unfold superviseStep at taken
  -- In every other phase the signal is not waited for.
  cases phase : state.phase <;> simp only [phase, reduceCtorEq] at taken
  case pumping =>
    split at taken
    · rename_i shut
      cases taken
      exact .stopped (.inl phase) shut
    · cases taken
  case backingOff attempt =>
    split at taken
    · rename_i shut
      cases taken
      exact .stopped (.inr ⟨attempt, phase⟩) shut
    · cases taken

/-- Behind a wait the signal is read once more, in case it came in between. -/
theorem moves_heeding {onward : Phase} (waited : state.phase = .ended ∧ onward = .classifying ∨
      ∃ attempt, state.phase = .awake attempt ∧ onward = .clear attempt)
    (moved : { state with phase := if state.isShutdown then .stopped else onward } = next) :
    Moves setup state .next next := by
  -- The signal is off when the wait ends, or it is on and the supervisor stops here.
  cases shut : state.isShutdown with
  | true =>
    rw [shut, if_pos rfl] at moved
    subst moved
    rcases waited with ⟨ended, _⟩ | ⟨attempt, awake, _⟩
    · exact .endedShut ended shut
    · exact .awakeShut awake shut
  | false =>
    rw [shut, if_neg Bool.false_ne_true] at moved
    subst moved
    rcases waited with ⟨ended, rfl⟩ | ⟨attempt, awake, rfl⟩
    · exact .endedOpen ended shut
    · exact .awakeOpen awake shut

/-- Whatever comes next is settled by the phase alone. -/
theorem moves_next (taken : superviseStep setup state .next = some next) :
    Moves setup state .next next := by
  unfold superviseStep at taken
  -- The phases that wait for a draw or for an attempt have no next step of their own.
  cases phase : state.phase <;> simp only [phase, Option.some.injEq, reduceCtorEq] at taken
  case pumping => exact moves_recv phase taken
  case forwarding chunk => exact moves_forward phase taken
  case ended => exact moves_heeding (.inl ⟨phase, rfl⟩) taken
  case classifying => exact moves_classify phase taken
  case exiting code => exact taken ▸ .exited phase
  case losing => exact taken ▸ .abandoned phase
  case deciding reason decision => exact taken ▸ .acted phase
  case backingOff attempt => exact taken ▸ .elapsed phase
  case awake attempt => exact moves_heeding (.inr ⟨attempt, phase, rfl⟩) taken
  case clear attempt => exact taken ▸ .readCols phase
  case sizing attempt cols => exact taken ▸ .readRows phase
  case established => exact taken ▸ .installed phase
  case installed => exact taken ▸ .reset phase
  case reopened => exact taken ▸ .connected phase

/-- A step of the supervisor is one of its moves. -/
theorem moves_superviseStep {input : Input} (taken : superviseStep setup state input = some next) :
    Moves setup state input next := by
  cases input with
  | stop => exact moves_stop taken
  | next => exact moves_next taken
  -- The other inputs are each waited for in one phase.
  | draw rand01 =>
    unfold superviseStep at taken
    cases phase : state.phase <;> simp only [phase, Option.some.injEq, reduceCtorEq] at taken
    case dropped => exact taken ▸ .drawn phase
  | succeed =>
    unfold superviseStep at taken
    cases phase : state.phase <;> simp only [phase, Option.some.injEq, reduceCtorEq] at taken
    case attempting attempt size => exact taken ▸ .succeeded phase
  | fail error rand01 =>
    unfold superviseStep at taken
    cases phase : state.phase <;> simp only [phase, Option.some.injEq, reduceCtorEq] at taken
    case attempting attempt size => exact taken ▸ .failed phase

end Supervising

section Stepping

/-- Everything an action can do, with what it found before. -/
inductive Takes (setup : Setup) (state : State) : Action → State → Prop where
  | shell {index : Nat} {action : ShellAction} {shell moved : Shell}
      (reads : state.shells[index]? = some shell)
      (stepped : shellStep (state.unread index) (state.orphaned index) shell action = some moved) :
      Takes setup state (.shell index action) { state with shells := state.shells.set index moved }
  | path {action : PathAction} {moved : DataPath}
      (stepped : pathStep setup.cfg state.gate state.unfed (state.unfed && state.isShutdown)
        state.path action = some moved) :
      Takes setup state (.path action) { state with path := moved }
  | supervise {input : Input} {next : State} (moves : Moves setup state input next) :
      Takes setup state (.supervise input) next
  | announce (spawned : state.opening = .spawned) :
      Takes setup state .announce { state.send .connected with opening := .announced }
  | register (announced : state.opening = .announced) :
      Takes setup state .register { state with opening := .registered }
  | invoke (command : FlowCommand) :
      Takes setup state (.invoke command) { state with commands := state.commands ++ [command] }
  | began {command : FlowCommand} {commands : List FlowCommand} (idle : state.running = none)
      (queued : state.commands = command :: commands) (found : state.found = true) :
      Takes setup state .command { state with
        commands
        gate := pauses command
        running := some (command, .gateWritten) }
  | unknown {command : FlowCommand} {commands : List FlowCommand} (idle : state.running = none)
      (queued : state.commands = command :: commands) (lost : state.found = false) :
      Takes setup state .command { state with commands }
  | grasped {command : FlowCommand} (runs : state.running = some (command, .gateWritten)) :
      Takes setup state .command { state with running := some (command, .holding state.conn) }
  | paused {command : FlowCommand} {index : Nat}
      (runs : state.running = some (command, .holding index)) :
      Takes setup state .command { state with
        running := none
        shells := state.shells.modify index fun shell => { shell with paused := pauses command } }
  | resize {size : Size} (found : state.found = true) :
      Takes setup state (.resize size) { state with
        requested := size, resizes := ⟨size, .found⟩ :: state.resizes }
  | setCols {newer older : List Resize} {size : Size}
      (flies : state.resizes = newer ++ ⟨size, .found⟩ :: older) :
      Takes setup state (.resizing newer.length) { state with
        dims := { state.dims with cols := size.cols }
        resizes := newer ++ ⟨size, .colsSet⟩ :: older }
  | setRows {newer older : List Resize} {size : Size}
      (flies : state.resizes = newer ++ ⟨size, .colsSet⟩ :: older) :
      Takes setup state (.resizing newer.length) { state with
        dims := { state.dims with rows := size.rows }
        resizes := newer ++ ⟨size, .rowsSet⟩ :: older }
  | handled {newer older : List Resize} {size : Size}
      (flies : state.resizes = newer ++ ⟨size, .rowsSet⟩ :: older) :
      Takes setup state (.resizing newer.length) { state with
        resizes := newer ++ ⟨size, .holding state.conn⟩ :: older }
  | changed {newer older : List Resize} {index : Nat} {size : Size}
      (flies : state.resizes = newer ++ ⟨size, .holding index⟩ :: older) :
      Takes setup state (.resizing newer.length) { state with
        resizes := newer ++ older
        shells := state.shells.modify index fun shell => shell.resized size }
  | remove (found : state.found = true) :
      Takes setup state .remove { state with closing := .removed }
  | shutdown (removed : state.closing = .removed) :
      Takes setup state .shutdown { state with closing := .shutdown }

variable {setup : Setup} {state next : State}

/-- A step of a flow command writes the gate, takes its handle or writes the shell's flag. -/
theorem takes_command (taken : commandStep state = some next) :
    Takes setup state .command next := by
  unfold commandStep at taken
  split at taken
  · -- With nothing running the next command in the queue begins, if its session is found.
    rename_i idle
    split at taken
    · cases taken
    · rename_i command commands queued
      split at taken
      · rename_i found
        cases taken
        exact .began idle queued found
      · rename_i lost
        cases taken
        exact .unknown idle queued (by simpa using lost)
  · -- The command that runs has its session, and takes its handle next.
    rename_i command runs
    cases taken
    exact .grasped runs
  · rename_i command index runs
    cases taken
    exact .paused runs

/-- A step of a resize records the size, takes its handle or tells the remote terminal. -/
theorem takes_resizing {index : Nat} (taken : resizeStep state index = some next) :
    Takes setup state (.resizing index) next := by
  unfold resizeStep at taken
  split at taken
  · cases taken
  · rename_i resize flies
    -- The resizes before and after the one that moves are what the later proofs speak of.
    obtain ⟨newer, older, split, rfl⟩ : ∃ newer older,
        state.resizes = newer ++ resize :: older ∧ newer.length = index := by
      obtain ⟨inside, rfl⟩ := List.getElem?_eq_some_iff.mp flies
      refine ⟨state.resizes.take index, state.resizes.drop (index + 1), ?_, ?_⟩
      · rw [← List.drop_eq_getElem_cons, List.take_append_drop]
      · rw [List.length_take]
        omega
    obtain ⟨size, stage⟩ := resize
    simp only [split, List.set_append_right _ _ le_rfl, Nat.sub_self, List.set_cons_zero,
      List.eraseIdx_append_of_length_le le_rfl, List.eraseIdx_cons_zero] at taken
    -- The step is told by how far the resize has come.
    cases stage with
    | found =>
      cases taken
      exact .setCols split
    | colsSet =>
      cases taken
      exact .setRows split
    | rowsSet =>
      cases taken
      exact .handled split
    | holding shell =>
      cases taken
      exact .changed split

/-- Whatever an action does is one of these. -/
theorem takes_step {action : Action} (taken : step setup state action = some next) :
    Takes setup state action next := by
  -- Each action has one guard, and what it does is written out behind it.
  cases action with
  | shell index action =>
    simp only [step] at taken
    split at taken
    · cases taken
    · -- Only a generation that is open has a shell.
      rename_i shell reads
      obtain ⟨moved, stepped, rfl⟩ := Option.map_eq_some_iff.mp taken
      exact .shell reads stepped
  | path action =>
    obtain ⟨moved, stepped, rfl⟩ := Option.map_eq_some_iff.mp taken
    exact .path stepped
  -- What the supervisor does is split further in a lemma of its own.
  | supervise input => exact .supervise (moves_superviseStep taken)
  | announce =>
    simp only [step] at taken
    split at taken
    · rename_i spawned
      cases taken
      exact .announce spawned
    · cases taken
  | register =>
    simp only [step] at taken
    split at taken
    · rename_i announced
      cases taken
      exact .register announced
    · cases taken
  | invoke command =>
    cases taken
    exact .invoke command
  | command => exact takes_command taken
  | resize size =>
    simp only [step] at taken
    split at taken
    · -- A resize begins only for a session that is found.
      rename_i found
      cases taken
      exact .resize found
    · cases taken
  | resizing index => exact takes_resizing taken
  | remove =>
    simp only [step] at taken
    split at taken
    · rename_i found
      cases taken
      exact .remove found
    · cases taken
  | shutdown =>
    simp only [step] at taken
    split at taken
    · rename_i removed
      cases taken
      exact .shutdown removed
    · cases taken

end Stepping

section Generations

variable {setup : Setup} {state next : State}

/-- How many generations are open beyond the one whose output is read. -/
def Phase.opened : Phase → Nat
  | .established => 1
  | .installed => 1
  | .reopened => 1
  | _ => 0

/-- How many generations the installed one is ahead of the one whose output is read. -/
def Phase.ahead : Phase → Nat
  | .installed => 1
  | .reopened => 1
  | _ => 0

/-- The supervisor is past the output of the generation it read, and goes on. -/
def Phase.past : Phase → Bool
  | .pumping => false
  | .forwarding _ => false
  | .stopped => false
  | _ => true

/-- Past its output, the supervisor goes on or stops, and all generations are as they were. -/
structure Idles (state next : State) : Prop where
  shells : next.shells = state.shells
  path : next.path = state.path
  reading : next.reading = state.reading
  conn : next.conn = state.conn
  opened : next.phase.opened = state.phase.opened
  ahead : next.phase.ahead = state.phase.ahead
  past : state.phase.past = true
  onward : next.phase.past = true ∨ next.phase = .stopped

/-- What a move of the supervisor does to the generations and to the data path. -/
inductive Carries (state : State) : State → Prop where
  | received {shell : Shell} {chunk : Bytes} {out : List Bytes} (pumping : state.phase = .pumping)
      (reads : state.shells[state.reading]? = some shell) (queued : shell.out = chunk :: out) :
      Carries state { state with
        phase := .forwarding chunk
        shells := state.shells.set state.reading { shell with out } }
  | drained {shell : Shell} (pumping : state.phase = .pumping)
      (reads : state.shells[state.reading]? = some shell) (empty : shell.out = [])
      (done : shell.pump = .done) : Carries state { state with phase := .ended }
  | forwarded {chunk : Bytes} (forwarding : state.phase = .forwarding chunk)
      (takes : state.path.coalescer.phase ≠ .stopped)
      (room : state.path.input.length < queueDepth) :
      Carries state { state with
        phase := .pumping
        path := { state.path with input := state.path.input ++ [chunk] } }
  | stopped (pumping : state.phase = .pumping) (shut : state.isShutdown = true) :
      Carries state { state with phase := .stopped }
  | refused {chunk : Bytes} (forwarding : state.phase = .forwarding chunk)
      (gone : state.path.coalescer.phase = .stopped) :
      Carries state { state with phase := .stopped }
  | succeeded {attempt : UInt32} {size : Size}
      (attempting : state.phase = .attempting attempt size) :
      Carries state { state with
        phase := .established, shells := state.shells ++ [.open size] }
  | installed (established : state.phase = .established) :
      Carries state { state with phase := .installed, conn := state.reading + 1 }
  | connected (reopened : state.phase = .reopened) :
      Carries state { state.send .connected with
        phase := .pumping, reading := state.reading + 1 }
  | idle {next : State} (idles : Idles state next) : Carries state next

/-- Acting on a decision changes neither a generation nor the data path. -/
theorem idles_act {reason : String} {decision : Decision}
    (deciding : state.phase = .deciding reason decision) :
    Idles state (state.act setup reason decision) := by
  have opened : state.phase.opened = 0 := by rw [deciding]; rfl
  have ahead : state.phase.ahead = 0 := by rw [deciding]; rfl
  have past : state.phase.past = true := by rw [deciding]; rfl
  cases decision with
  | exit code => exact ⟨rfl, rfl, rfl, rfl, opened.symm, ahead.symm, past, .inr rfl⟩
  | reconnect attempt delay => exact ⟨rfl, rfl, rfl, rfl, opened.symm, ahead.symm, past, .inl rfl⟩
  | giveUp => exact ⟨rfl, rfl, rfl, rfl, opened.symm, ahead.symm, past, .inr rfl⟩

/-- Past its output, the supervisor goes from one phase to the next and opens nothing. -/
theorem Carries.onward {phase onto : Phase} (stands : state.phase = phase)
    (reaches : next.phase = onto)
    (same : next.shells = state.shells ∧ next.path = state.path ∧ next.reading = state.reading ∧
      next.conn = state.conn)
    (opened : onto.opened = phase.opened) (ahead : onto.ahead = phase.ahead)
    (past : phase.past = true) (onward : onto.past = true ∨ onto = .stopped) :
    Carries state next := by
  subst stands reaches
  obtain ⟨shells, path, reading, conn⟩ := same
  exact .idle ⟨shells, path, reading, conn, opened, ahead, past, onward⟩

/-- All but a few of the supervisor's moves leave the generations and the data path alone. -/
theorem carries_moves {input : Input} (moves : Moves setup state input next) :
    Carries state next := by
  cases moves with
  | received pumping reads queued => exact .received pumping reads queued
  | drained pumping reads empty done => exact .drained pumping reads empty done
  | forwarded forwarding takes room => exact .forwarded forwarding takes room
  | succeeded attempting => exact .succeeded attempting
  | installed established => exact .installed established
  | connected reopened => exact .connected reopened
  -- Most of the others leave output alone: the supervisor idles, or goes on to its next phase.
  | acted deciding => exact .idle (idles_act deciding)
  | stopped waits shut =>
    rcases waits with pumping | ⟨attempt, backingOff⟩
    · exact .stopped pumping shut
    · exact .onward backingOff rfl ⟨rfl, rfl, rfl, rfl⟩ rfl rfl rfl (.inr rfl)
  | refused forwarding gone => exact .refused forwarding gone
  | endedShut ended shut => exact .onward ended rfl ⟨rfl, rfl, rfl, rfl⟩ rfl rfl rfl (.inr rfl)
  | endedOpen ended unshut => exact .onward ended rfl ⟨rfl, rfl, rfl, rfl⟩ rfl rfl rfl (.inl rfl)
  | finished classifying reads final =>
    exact .onward classifying rfl ⟨rfl, rfl, rfl, rfl⟩ rfl rfl rfl (.inl rfl)
  | broken classifying reads lost =>
    cases setup.reconnector with
    | false => exact .onward classifying rfl ⟨rfl, rfl, rfl, rfl⟩ rfl rfl rfl (.inl rfl)
    | true => exact .onward classifying rfl ⟨rfl, rfl, rfl, rfl⟩ rfl rfl rfl (.inl rfl)
  | exited exiting => exact .onward exiting rfl ⟨rfl, rfl, rfl, rfl⟩ rfl rfl rfl (.inr rfl)
  | abandoned losing => exact .onward losing rfl ⟨rfl, rfl, rfl, rfl⟩ rfl rfl rfl (.inr rfl)
  | drawn dropped => exact .onward dropped rfl ⟨rfl, rfl, rfl, rfl⟩ rfl rfl rfl (.inl rfl)
  | elapsed backingOff => exact .onward backingOff rfl ⟨rfl, rfl, rfl, rfl⟩ rfl rfl rfl (.inl rfl)
  | awakeShut awake shut => exact .onward awake rfl ⟨rfl, rfl, rfl, rfl⟩ rfl rfl rfl (.inr rfl)
  | awakeOpen awake unshut => exact .onward awake rfl ⟨rfl, rfl, rfl, rfl⟩ rfl rfl rfl (.inl rfl)
  | readCols clear => exact .onward clear rfl ⟨rfl, rfl, rfl, rfl⟩ rfl rfl rfl (.inl rfl)
  | readRows sizing => exact .onward sizing rfl ⟨rfl, rfl, rfl, rfl⟩ rfl rfl rfl (.inl rfl)
  | failed attempting => exact .onward attempting rfl ⟨rfl, rfl, rfl, rfl⟩ rfl rfl rfl (.inl rfl)
  | reset installed => exact .onward installed rfl ⟨rfl, rfl, rfl, rfl⟩ rfl rfl rfl (.inl rfl)

/-- The generations follow the supervisor, which opens and installs one at a time. -/
structure Placed (state : State) : Prop where
  shells : state.shells.length = state.reading + 1 + state.phase.opened
  conn : state.conn = state.reading + state.phase.ahead

/-- A move of the supervisor opens, installs and reads one generation after another. -/
theorem placed_moves {input : Input} (placed : Placed state)
    (moves : Moves setup state input next) : Placed next := by
  -- Only the moves behind a successful attempt shift the counts.
  obtain ⟨shells, conn⟩ := placed
  cases carries_moves moves with
  -- Taking a chunk changes a generation in place.
  | received pumping reads queued =>
    rw [pumping] at shells conn
    refine ⟨?_, conn⟩
    rw [List.length_set]
    exact shells
  | drained pumping reads empty done =>
    rw [pumping] at shells conn
    exact ⟨shells, conn⟩
  | forwarded forwarding takes room =>
    rw [forwarding] at shells conn
    exact ⟨shells, conn⟩
  | stopped pumping shut =>
    rw [pumping] at shells conn
    exact ⟨shells, conn⟩
  | refused forwarding gone =>
    rw [forwarding] at shells conn
    exact ⟨shells, conn⟩
  -- The connection is opened one move before it is installed.
  | succeeded attempting =>
    rw [attempting] at shells conn
    refine ⟨?_, conn⟩
    rw [List.length_append]
    exact congrArg (· + 1) shells
  -- Installing names the newest generation by the one that is read.
  | installed established =>
    rw [established] at shells
    exact ⟨shells, rfl⟩
  -- Reading catches up, and nothing is ahead of it any more.
  | connected reopened =>
    rw [reopened] at shells conn
    exact ⟨shells, conn⟩
  | idle idles =>
    refine ⟨?_, ?_⟩
    · rw [idles.shells, idles.reading, idles.opened]
      exact shells
    · rw [idles.conn, idles.reading, idles.ahead]
      exact conn

/-- Every action leaves the generations where the supervisor put them. -/
theorem placed_step {action : Action} (placed : Placed state)
    (taken : step setup state action = some next) : Placed next := by
  obtain ⟨shells, conn⟩ := placed
  cases takes_step taken with
  | supervise moves => exact placed_moves ⟨shells, conn⟩ moves
  | shell reads stepped => exact ⟨by simpa using shells, conn⟩
  | paused runs => exact ⟨by simpa using shells, conn⟩
  | changed flies => exact ⟨by simpa using shells, conn⟩
  -- No other action touches the list of generations.
  | _ => exact ⟨shells, conn⟩

/-- The installed generation is one of those there are. -/
theorem Placed.conn_lt (placed : Placed state) : state.conn < state.shells.length := by
  -- A generation is opened before it is installed, so no more are ahead than open.
  rw [placed.conn, placed.shells]
  cases state.phase <;> simp only [Phase.ahead, Phase.opened] <;> omega

/-- At first there is one generation, which is installed and read. -/
theorem placed_init (setup : Setup) : Placed (State.init setup) := ⟨rfl, rfl⟩

end Generations

end Tern.Session
