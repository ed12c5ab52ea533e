import Tern.Session.Backlog
import Tern.Session.LocalPty

/-! A local shell loses nothing in either direction, reports its exit once, and holds little. -/

namespace Tern.Session

open TermStream (CoalescerConfig)

section Typing

variable {input moved : PtyInput}

/-- What the terminal took is what the queue took, up to what is still on its way. -/
structure Typing (input : PtyInput) : Prop where
  short : input.queue.length ≤ inputQueueDepth
  total : input.writer ≠ .done →
    input.typed ++ (input.writer.inHand ++ input.queue.flatten) = input.accepted
  /-- A terminal that refuses input cuts it off, and takes nothing out of turn. -/
  early : input.typed <+: input.accepted

/-- A step on the input side keeps it in order. -/
theorem Typing.step (typing : Typing input) {action : InputAction}
    (stepped : inputStep input action = some moved) : Typing moved := by
  -- Writes are accepted when they find room in the queue, and typed when they leave it.
  cases action with
  | write data =>
    cases stepped
    exact ⟨typing.short, typing.total, typing.early⟩
  | enqueue index =>
    simp only [inputStep] at stepped
    split at stepped
    · cases stepped
    · rename_i data waits
      split at stepped
      · rename_i ready
        cases stepped
        -- The write goes to the end of the queue and to the end of what was accepted.
        refine ⟨?_, ?_, typing.early.trans (List.prefix_append _ _)⟩
        · simp only [List.length_append, List.length_singleton]
          omega
        · intro runs
          simp [← typing.total runs]
      · cases stepped
  | fail index =>
    simp only [inputStep] at stepped
    split at stepped
    · cases stepped
      exact ⟨typing.short, typing.total, typing.early⟩
    · cases stepped
  | take =>
    simp only [inputStep] at stepped
    split at stepped
    · rename_i data queue waiting queued
      cases stepped
      -- It moves from the queue into the writer's hands.
      have total := typing.total (by simp [waiting])
      have short := typing.short
      simp only [waiting, queued, Writer.inHand, List.nil_append, List.length_cons] at total short
      refine ⟨?_, fun _ => by simpa [Writer.inHand] using total, typing.early⟩
      dsimp only
      omega
    · cases stepped
  | wrote =>
    simp only [inputStep] at stepped
    split at stepped
    · rename_i data writing
      cases stepped
      have total := typing.total (by simp [writing])
      simp only [writing, Writer.inHand] at total
      -- It was typed in full, so nothing of it is on its way any more.
      have onward : (input.typed ++ data) ++ input.queue.flatten = input.accepted := by
        simpa using total
      exact ⟨typing.short, fun _ => onward, ⟨_, onward⟩⟩
    · cases stepped
  | refused count =>
    simp only [inputStep] at stepped
    split at stepped
    · rename_i data writing
      cases stepped
      have total := typing.total (by simp [writing])
      simp only [writing, Writer.inHand] at total
      refine ⟨typing.short, fun runs => absurd rfl runs, ?_⟩
      -- What was taken of the last write is the front of it.
      refine ⟨data.drop count ++ input.queue.flatten, ?_⟩
      rw [← total, List.append_assoc, ← List.append_assoc (data.take count),
        List.take_append_drop]
    · cases stepped

end Typing

section Delivery

variable {cfg : CoalescerConfig} {shell next : LocalPty}

/-- The webview's channel takes every frame, and the tab was not closed while it was paused. -/
structure LocalPty.Kept (shell : LocalPty) : Prop where
  accepts : shell.path.sender ≠ .refused
  /-- A close drops the sender of the gate, and a gate that stays shut then ends the tasks early. -/
  open_ : ¬(shell.closed = true ∧ shell.gate = true)

/-- All output that was read and has not reached the webview, in order. -/
def LocalPty.onTheWay (self : LocalPty) : Bytes :=
  self.path.held ++ (self.pump.inHand ++ self.output.rest)

/-- Every byte that was read is delivered or on its way, and the tasks end one after another. -/
structure LocalFlows (shell : LocalPty) : Prop where
  ends : EndsInOrder shell.over shell.path
  finished : shell.pump = .awaiting ∨ shell.pump = .done →
    shell.output.reader = .done ∧ shell.output.queue = []
  total : shell.path.delivered ++ shell.onTheWay = shell.output.produced

/-- The exit is reported once, by the pump's last step, with the child's own status. -/
structure Reported (shell : LocalPty) : Prop where
  status : shell.pump = .done → shell.exit.isSome = true
  exits : shell.events.filter (· != .connected) =
    if shell.pump = .done then [.exited shell.exit] else []

/-- A shell that is kept in the end was so all the time. -/
theorem kept_of_step {action : LocalAction} (stepped : localStep cfg shell action = some next)
    (kept : next.Kept) : shell.Kept := by
  obtain ⟨accepts, open_⟩ := kept
  cases takes_localStep stepped with
  | path moved => exact ⟨fun refused => accepts (refused_pathStep moved refused), open_⟩
  -- No command reaches a session that is closed.
  | flow found =>
    refine ⟨accepts, fun shut => ?_⟩
    simp [LocalPty.found, shut.1] at found
  | removed => exact ⟨accepts, fun shut => open_ ⟨rfl, shut.2⟩⟩
  | _ => exact ⟨accepts, open_⟩

/-- What an action leaves that moves no output. -/
theorem LocalFlows.frame (flows : LocalFlows shell) (output : next.output = shell.output)
    (pump : next.pump = shell.pump) (path : next.path = shell.path) : LocalFlows next := by
  -- Each clause is about the output, the pump and the path, which are the same.
  refine ⟨?_, ?_, ?_⟩
  · rw [LocalPty.over, pump, path]
    exact flows.ends
  · rw [pump, output]
    exact flows.finished
  · rw [LocalPty.onTheWay, pump, path, output]
    exact flows.total

/-- The reader thread takes output in at the end, and passes it on in order. -/
theorem localFlows_output (flows : LocalFlows shell) {action : OutputAction} {output : PtyOutput}
    (stepped : outputStep shell.over shell.output action = some output) :
    LocalFlows { shell with output } := by
  have total := flows.total
  simp only [LocalPty.onTheWay, PtyOutput.rest] at total
  -- What the reader thread takes in is added at the far end of what is on its way.
  cases action with
  | read chunk =>
    simp only [outputStep] at stepped
    split at stepped
    · rename_i ready
      cases stepped
      -- The chunk was not read before, and nothing is on its way behind it.
      refine ⟨flows.ends, fun ended => ?_, ?_⟩
      · cases (flows.finished ended).1.symm.trans ready.1
      · simp only [LocalPty.onTheWay, PtyOutput.rest, ← total, ready.1, Reader.inHand]
        simp
    · cases stepped
  | readEnd =>
    simp only [outputStep] at stepped
    split at stepped
    · rename_i reading
      cases stepped
      -- A thread that ends has nothing in hand.
      refine ⟨flows.ends, fun ended => ⟨rfl, (flows.finished ended).2⟩, ?_⟩
      simpa [LocalPty.onTheWay, PtyOutput.rest, reading, Reader.inHand] using total
    · cases stepped
  | send =>
    simp only [outputStep] at stepped
    split at stepped
    · rename_i chunk sending
      have running : ¬(shell.pump = .awaiting ∨ shell.pump = .done) := fun ended => by
        cases (flows.finished ended).1.symm.trans sending
      split at stepped
      · -- The consumer does not leave while a chunk is in hand.
        rename_i ended
        exact absurd (.inr (by simpa [LocalPty.over] using ended)) running
      · split at stepped
        · cases stepped
          -- The chunk goes from the reader's hands to the end of the queue.
          refine ⟨flows.ends, fun ended => absurd ended running, ?_⟩
          simpa [LocalPty.onTheWay, PtyOutput.rest, sending, Reader.inHand] using total
        · cases stepped
    · cases stepped

/-- A sender whose gate is open does not ask whether someone could open it. -/
theorem pathStep_ungated {gate unfed ungated : Bool} {path : DataPath} (action : PathAction)
    (open_ : ¬(ungated = true ∧ gate = true)) :
    pathStep cfg gate unfed ungated path action = pathStep cfg gate unfed false path action := by
  -- Only the end of a sender at a closed gate asks who could open it.
  have passes : (gate && ungated) = false := by
    rw [Bool.and_comm, Bool.and_eq_false_iff]
    simpa [imp_iff_not_or] using open_
  cases action with
  | senderEnd => simp only [pathStep, passes, Bool.and_false]
  | _ => rfl

/-- Output that was read stays in order, and none of it is lost. -/
theorem localFlows_step {action : LocalAction} (flows : LocalFlows shell)
    (stepped : localStep cfg shell action = some next) (kept : next.Kept) : LocalFlows next := by
  have total := flows.total
  simp only [LocalPty.onTheWay, PtyOutput.rest] at total
  -- Output only moves on from one place to the next.
  cases takes_localStep stepped with
  | output moved => exact localFlows_output flows moved
  | received receiving queued =>
    refine ⟨flows.ends.unfed (by simp [LocalPty.over, receiving]), by simp, ?_⟩
    simpa [LocalPty.onTheWay, PtyOutput.rest, receiving, queued, LocalPump.inHand] using total
  | drained receiving empty done =>
    refine ⟨flows.ends.unfed (by simp [LocalPty.over, receiving]), fun _ => ⟨done, empty⟩, ?_⟩
    simpa [LocalPty.onTheWay, PtyOutput.rest, receiving, LocalPump.inHand] using total
  | refused forwarding gone =>
    -- The coalescer does not stop before the pump is done.
    have ended := (flows.ends.coalescer gone).2.2
    simp [LocalPty.over, forwarding] at ended
  | forwarded forwarding takes room =>
    -- The data path was open while the pump had a chunk for it.
    refine ⟨⟨?_, ?_, ?_⟩, by simp, ?_⟩
    · exact fun ended => absurd (flows.ends.sender ended).1 takes
    · exact fun stopped => absurd stopped takes
    · intro frame sending
      have ended := (flows.ends.lastFrame frame sending).2.2
      simp [LocalPty.over, forwarding] at ended
    · simpa [LocalPty.onTheWay, PtyOutput.rest, forwarding, LocalPump.inHand, DataPath.held,
        DataPath.delivered] using total
  | exited awaiting status =>
    refine ⟨flows.ends.unfed fun _ => rfl, fun _ => flows.finished (.inl awaiting), ?_⟩
    simpa [LocalPty.onTheWay, PtyOutput.rest, awaiting, LocalPump.inHand] using total
  | path moved =>
    -- With the gate open or the tab there, nothing is cut off on the data path.
    rw [pathStep_ungated _ kept.open_] at moved
    obtain ⟨ends, conserved⟩ := conserves_pathStep flows.ends moved kept.accepts
    refine ⟨ends, flows.finished, ?_⟩
    simp only [LocalPty.onTheWay, PtyOutput.rest]
    rw [← List.append_assoc, conserved, List.append_assoc]
    exact total
  | _ => exact flows.frame rfl rfl rfl

/-- The exit is only ever added by the step that ends the pump. -/
theorem Reported.step {action : LocalAction} (reported : Reported shell)
    (stepped : localStep cfg shell action = some next) : Reported next := by
  cases takes_localStep stepped with
  | exit running =>
    -- A pump that is done has seen the status, so the child does not exit after it.
    have waits : shell.pump ≠ .done := fun ended => by
      have status := reported.status ended
      simp [running] at status
    refine ⟨fun ended => absurd ended waits, ?_⟩
    simpa [waits] using reported.exits
  | received receiving queued =>
    -- While output is moved, nothing is reported.
    refine ⟨by simp, ?_⟩
    simpa [receiving] using reported.exits
  | drained receiving empty done =>
    refine ⟨by simp, ?_⟩
    simpa [receiving] using reported.exits
  | refused forwarding gone =>
    refine ⟨by simp, ?_⟩
    simpa [forwarding] using reported.exits
  | forwarded forwarding takes room =>
    refine ⟨by simp, ?_⟩
    simpa [forwarding] using reported.exits
  | exited awaiting status =>
    refine ⟨fun _ => status, ?_⟩
    -- The pump reports once, and is done then.
    have before := reported.exits
    simp only [awaiting, reduceCtorEq, if_false] at before
    simp [List.filter_append, before]
  | announced =>
    refine ⟨reported.status, ?_⟩
    simpa [List.filter_append] using reported.exits
  | _ => exact ⟨reported.status, reported.exits⟩

/-- A pump that is over has left everything that was read to the data path. -/
theorem LocalFlows.settled (flows : LocalFlows shell) (ended : shell.pump = .done) :
    shell.path.delivered ++ shell.path.held = shell.output.produced := by
  obtain ⟨done, empty⟩ := flows.finished (.inr ended)
  have total := flows.total
  simpa [LocalPty.onTheWay, PtyOutput.rest, ended, done, empty, LocalPump.inHand, Reader.inHand]
    using total

/-- A sender that came to its end has delivered everything. -/
theorem LocalFlows.complete (flows : LocalFlows shell) (ended : shell.path.sender = .ended) :
    shell.path.delivered = shell.output.produced := by
  -- The end of the sender means the end of all before it, so nothing is held anywhere.
  obtain ⟨stopped, frames⟩ := flows.ends.sender ended
  obtain ⟨buf, input, finished⟩ := flows.ends.coalescer stopped
  have nothing : shell.path.held = [] := by
    simp [DataPath.held, ended, frames, input, TermStream.Coalescer.held,
      TermStream.Coalescer.inHand, stopped, buf, Sender.inHand]
  have settled := flows.settled (by simpa [LocalPty.over] using finished)
  rwa [nothing, List.append_nil] at settled

/-- What the input side keeps in order, a whole shell does. -/
theorem typing_step {action : LocalAction} (typing : Typing shell.input)
    (stepped : localStep cfg shell action = some next) : Typing next.input := by
  cases takes_localStep stepped with
  | input moved => exact typing.step moved
  | _ => exact typing

/--
A local shell's output reaches the webview whole and in order, and so does its input the terminal.

As long as the webview takes frames and the tab is not closed while it is paused,
what was read is at every moment what was delivered with what is still on its way behind it.
The exit is reported at most once, with the child's status, when nothing that was read is
outside the data path any more. What was typed is what the writes put in the queue,
up to what has not got there yet.
-/
theorem local_shell_lossless (cfg : CoalescerConfig) {actions : List LocalAction} {final : LocalPty}
    (ran : System.run (localStep cfg) LocalPty.spawn actions = some final) :
    (final.Kept → final.path.delivered ++ final.onTheWay = final.output.produced ∧
      (final.path.sender = .ended → final.path.delivered = final.output.produced) ∧
      ∀ code, .exited code ∈ final.events →
        final.path.delivered ++ final.path.held = final.output.produced) ∧
    (final.events.filter (· != .connected) = [] ∨
      ∃ code, final.exit = some code ∧
        final.events.filter (· != .connected) = [.exited (some code)]) ∧
    final.input.typed <+: final.input.accepted ∧
    (final.input.writer ≠ .done → final.input.typed ++
      (final.input.writer.inHand ++ final.input.queue.flatten) = final.input.accepted) := by
  have reported := System.run_preserves Reported.step
    (⟨nofun, rfl⟩ : Reported LocalPty.spawn) ran
  have typing := System.run_preserves typing_step
    (⟨Nat.zero_le _, fun _ => rfl, List.prefix_refl _⟩) ran
  refine ⟨fun kept => ?_, ?_, typing.early, typing.total⟩
  · -- What is kept in the end was kept all the time.
    have preserved {shell next : LocalPty} {action : LocalAction}
        (flows : shell.Kept → LocalFlows shell) (taken : localStep cfg shell action = some next)
        (kept : next.Kept) : LocalFlows next :=
      localFlows_step (flows (kept_of_step taken kept)) taken kept
    have initial : LocalFlows LocalPty.spawn := by
      refine ⟨⟨nofun, nofun, nofun⟩, by simp [LocalPty.spawn], ?_⟩
      simp [LocalPty.spawn, LocalPty.onTheWay, PtyOutput.rest, DataPath.new, DataPath.held,
        DataPath.delivered, LocalPump.inHand, Reader.inHand, Sender.inHand,
        TermStream.Coalescer.start, TermStream.Coalescer.held, TermStream.Coalescer.inHand]
    have flows := System.run_preserves preserved (fun _ => initial) ran kept
    refine ⟨flows.total, flows.complete, fun code sent => flows.settled ?_⟩
    -- Only a pump that is over has reported an exit.
    by_contra running
    have none_ := reported.exits
    rw [if_neg running, List.filter_eq_nil_iff] at none_
    simpa using none_ _ sent
  · by_cases ended : final.pump = .done
    · obtain ⟨code, status⟩ := Option.isSome_iff_exists.mp (reported.status ended)
      refine .inr ⟨code, status, ?_⟩
      rw [reported.exits, if_pos ended, status]
    · exact .inl (by rw [reported.exits, if_neg ended])

/-- A chunk of output, a frame of it, the exit, and a line of input: the whole life of a shell. -/
def localEcho : List LocalAction :=
  [.announce, .register, .input (.write [0x6c, 0x73]), .input (.enqueue 0), .input .take,
    .input .wrote, .output (.read [0x61, 0x62]), .output .send, .pump, .pump,
    .path (.receive true), .path .flush, .exit 0, .output .readEnd, .pump, .pump, .path .senderTake,
    .path .senderCheck, .path .senderSend, .path .inputClosed, .path .senderEnd]

/-- Everything has been delivered both ways when the exit was reported and the tasks ended. -/
theorem local_shell_lossless_echo :
    ∃ final, System.run (localStep savedHost.cfg) LocalPty.spawn localEcho = some final ∧
      final.path.delivered = [0x61, 0x62] ∧ final.path.delivered = final.output.produced ∧
      .exited (some 0) ∈ final.events ∧ final.input.typed <+: [0x6c, 0x73] := by
  -- The run is evaluated up to its end, where the theorem says what was delivered.
  obtain ⟨final, ran, delivered, ended, exit, open_, accepted⟩ :
      ∃ final, System.run (localStep savedHost.cfg) LocalPty.spawn localEcho = some final ∧
        final.path.delivered = [0x61, 0x62] ∧ final.path.sender = .ended ∧
        .exited (some 0) ∈ final.events ∧ final.gate = false ∧
        final.input.accepted = [0x6c, 0x73] :=
    ⟨_, rfl, rfl, rfl, by decide, rfl, rfl⟩
  obtain ⟨flows, -, early, -⟩ := local_shell_lossless savedHost.cfg ran
  have complete := (flows ⟨by simp [ended], by simp [open_]⟩).2.1 ended
  exact ⟨final, ran, delivered, complete, exit, accepted ▸ early⟩

end Delivery

section Bounds

variable {cfg : CoalescerConfig} {shell next : LocalPty}

/-- Everything a local shell holds of its output is within its bounds. -/
structure LocalBounded (cfg : CoalescerConfig) (shell : LocalPty) : Prop where
  reader : shell.output.reader.inHand.length ≤ readChunk
  queue : QueueFits outputQueueDepth readChunk shell.output.queue
  pump : shell.pump.inHand.length ≤ readChunk
  path : PathFits cfg readChunk shell.path

/-- The reader thread reads no more than a chunk at once, and waits for room to pass it on. -/
theorem localBounded_output (bounded : LocalBounded cfg shell) {action : OutputAction}
    {output : PtyOutput} (stepped : outputStep shell.over shell.output action = some output) :
    LocalBounded cfg { shell with output } := by
  -- The reader holds a chunk only between a read and the room to pass it on.
  cases action with
  | read chunk =>
    simp only [outputStep] at stepped
    split at stepped
    · -- It reads as much as a chunk holds, and no more.
      rename_i ready
      cases stepped
      exact { bounded with reader := ready.2.2 }
    · cases stepped
  | readEnd =>
    simp only [outputStep] at stepped
    split at stepped
    · cases stepped
      exact { bounded with reader := Nat.zero_le _ }
    · cases stepped
  | send =>
    simp only [outputStep] at stepped
    split at stepped
    · rename_i chunk sending
      have small := bounded.reader
      rw [sending] at small
      split at stepped
      · cases stepped
        exact { bounded with reader := Nat.zero_le _ }
      · split at stepped
        · -- A full queue makes it wait, so the queue keeps its bound.
          rename_i room
          cases stepped
          exact { bounded with reader := Nat.zero_le _, queue := bounded.queue.push room small }
        · cases stepped
    · cases stepped

/-- Every action keeps a local shell within its bounds. -/
theorem localBounded_step {action : LocalAction} (bounded : LocalBounded cfg shell)
    (stepped : localStep cfg shell action = some next) : LocalBounded cfg next := by
  -- A chunk moves from place to place, and each place has room before it comes.
  cases takes_localStep stepped with
  | output moved => exact localBounded_output bounded moved
  | received receiving queued =>
    have queue := bounded.queue
    rw [queued] at queue
    exact { bounded with queue := queue.tail, pump := queue.small _ List.mem_cons_self }
  | drained receiving empty done => exact { bounded with pump := Nat.zero_le _ }
  | refused forwarding gone => exact { bounded with pump := Nat.zero_le _ }
  | forwarded forwarding takes room =>
    have small := bounded.pump
    rw [forwarding] at small
    exact { bounded with
      pump := Nat.zero_le _
      path := { bounded.path with input := bounded.path.input.push room small } }
  | exited awaiting status => exact { bounded with pump := Nat.zero_le _ }
  | path moved => exact { bounded with path := bounded.path.step moved }
  | _ => exact { bounded with }

/--
However much a child writes, and whether its tab is paused, closed or deaf,
the program holds no more of its output than its queues of chunks and frames take.
-/
theorem local_shell_bounded (cfg : CoalescerConfig) {actions : List LocalAction} {final : LocalPty}
    (ran : System.run (localStep cfg) LocalPty.spawn actions = some final) :
    final.onTheWay.length ≤ (outputQueueDepth + queueDepth + 2) * readChunk +
      (queueDepth + 2) * (cfg.maxFrame - 1 + readChunk) := by
  -- At the start every place is empty, and at the end their bounds are added up.
  have initial : LocalBounded cfg LocalPty.spawn :=
    ⟨Nat.zero_le _, queueFits_nil, Nat.zero_le _,
      queueFits_nil, coalescerFits_idle (Nat.zero_le _) rfl, queueFits_nil, Nat.zero_le _⟩
  have bounded := System.run_preserves localBounded_step initial ran
  have reader := bounded.reader
  have queue := bounded.queue.bytes
  have pump := bounded.pump
  have path := bounded.path.held
  simp only [LocalPty.onTheWay, PtyOutput.rest, List.length_append, longestFrame, Nat.add_mul,
    outputQueueDepth, queueDepth] at *
  omega

/-- A paused shell holds what the reader thread has read of an endless output. -/
theorem local_shell_bounded_while_paused :
    ∃ final, System.run (localStep savedHost.cfg) LocalPty.spawn
        [.announce, .register, .command .pause, .output (.read [0x79, 0x0a]), .output .send,
          .output (.read [0x79, 0x0a])] = some final ∧
      final.onTheWay.length = 4 ∧
      final.onTheWay.length ≤ 66 * 8192 + 34 * (131071 + 8192) := by
  -- Neither of the two chunks that were read has got past the pause.
  obtain ⟨final, ran, held⟩ : ∃ final, System.run (localStep savedHost.cfg) LocalPty.spawn
      [.announce, .register, .command .pause, .output (.read [0x79, 0x0a]), .output .send,
        .output (.read [0x79, 0x0a])] = some final ∧ final.onTheWay.length = 4 :=
    ⟨_, rfl, rfl⟩
  exact ⟨final, ran, held, local_shell_bounded savedHost.cfg ran⟩

end Bounds

end Tern.Session
