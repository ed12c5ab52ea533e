import Tern.TermStream.Framing

/-! Cadence: the coalescer on a clock, how many frames it makes and how long it holds a byte
back. -/

namespace Tern.TermStream

/-- A coalescer with the clock it reads. -/
structure Timed where
  run : Coalescing
  /-- The instant it is now. -/
  now : Nat
  /-- The instant of the last flush. -/
  lastFlush : Nat
  /-- The instant at which the oldest byte in the buffer came in. -/
  since : Nat
  deriving DecidableEq, Repr

/-- The last flush is set a tick back, so that the very first chunk is sent at once. -/
def Timed.start (cfg : CoalescerConfig) : Timed := ⟨.start, cfg.tick, 0, cfg.tick⟩

/-- What can happen to a coalescer on a clock. -/
inductive TimedEvent where
  /-- Time passes. -/
  | pass (span : Nat)
  | chunk (bytes : Bytes)
  | tick
  | inputClosed
  | sent
  | dropped
  deriving DecidableEq, Repr

/-- The clock after a step of the loop, which is read again when a frame was made. -/
def Timed.clocked (self : Timed) (next : Coalescing) : Timed :=
  { self with
    run := next
    lastFlush := if self.run.frames.length < next.frames.length then self.now else self.lastFlush }

/-- The coalescer after one event, with the clock read where the loop reads it. -/
def timedStep (cfg : CoalescerConfig) (timed : Timed) : TimedEvent → Option Timed
  | .pass span => some { timed with now := timed.now + span }
  | .chunk bytes =>
    let elapsed := decide (timed.lastFlush + cfg.tick ≤ timed.now)
    let since := if timed.run.coalescer.buf = [] then timed.now else timed.since
    (coalesceStep cfg timed.run (.chunk bytes elapsed)).map fun next =>
      { timed.clocked next with since := since }
  | .tick =>
    -- The timer never fires early.
    if timed.lastFlush + cfg.tick ≤ timed.now then
      (coalesceStep cfg timed.run .tick).map timed.clocked
    else none
  -- Behind the end of the input there is no cadence to keep.
  | .inputClosed => (coalesceStep cfg timed.run .inputClosed).map fun next =>
    { timed with run := next }
  | .sent => (coalesceStep cfg timed.run .sent).map fun next => { timed with run := next }
  | .dropped => (coalesceStep cfg timed.run .dropped).map fun next => { timed with run := next }

/-- Time does not pass over a deadline while the loop waits for it. -/
def Punctual (cfg : CoalescerConfig) (timed : Timed) : TimedEvent → Prop
  | .pass span => timed.run.coalescer.phase = .waiting → timed.run.coalescer.buf ≠ [] →
    timed.now + span ≤ timed.lastFlush + cfg.tick
  | _ => True

section Steps

variable {cfg : CoalescerConfig} {timed next : Timed} {event : TimedEvent}

/-- What a step does to the frames, with the reason for each frame it makes. -/
inductive Makes (cfg : CoalescerConfig) (timed next : Timed) : Prop where
  /-- No frame is made, and the last flush stays where it was. -/
  | nothing (frames : next.run.frames = timed.run.frames)
      (lastFlush : next.lastFlush = timed.lastFlush)
  /-- A tick has passed since the last flush. -/
  | timely (frame : Bytes) (frames : next.run.frames = timed.run.frames ++ [frame])
      (passed : timed.lastFlush + cfg.tick ≤ timed.now) (lastFlush : next.lastFlush = timed.now)
  /-- The buffer was full. -/
  | full (frame : Bytes) (frames : next.run.frames = timed.run.frames ++ [frame])
      (long : cfg.maxFrame ≤ frame.length) (lastFlush : next.lastFlush = timed.now)
  /-- The input has closed. -/
  | final (frame : Bytes) (frames : next.run.frames = timed.run.frames ++ [frame])
      (open_ : timed.run.closed = false) (closed : next.run.closed = true)
      (lastFlush : next.lastFlush = timed.lastFlush)

/-- A flush on the clock makes no frame, or one that is timely or full. -/
theorem makes_flush {run : Coalescing} (waiting : run.coalescer.phase = .waiting)
    (frames : run.frames = timed.run.frames)
    (reason : timed.lastFlush + cfg.tick ≤ timed.now ∨ cfg.maxFrame ≤ run.coalescer.buf.length) :
    Makes cfg timed (timed.clocked (run.turn run.coalescer.flush)) := by
  rcases flush_cases run.coalescer with ⟨-, idle⟩ | ⟨-, shipped⟩
  · -- An empty buffer makes no frame, and the clock is not read.
    rw [idle, turn_waiting waiting]
    exact .nothing frames (by simp [Timed.clocked, frames])
  · have grown : (run.turn run.coalescer.flush).frames =
        timed.run.frames ++ [run.coalescer.buf] := by
      rw [shipped, ← frames]
      rfl
    have read : (timed.clocked (run.turn run.coalescer.flush)).lastFlush = timed.now := by
      simp [Timed.clocked, grown]
    rcases reason with passed | long
    · exact .timely _ grown passed read
    · exact .full _ grown long read

/-- When the oldest byte came in has nothing to do with the reason for a frame. -/
theorem Makes.at_ (makes : Makes cfg timed next) (since : Nat) :
    Makes cfg timed { next with since := since } := by
  -- Each reason is about the frames and the last flush, and stays the same one.
  cases makes with
  | nothing frames lastFlush => exact .nothing frames lastFlush
  | timely frame frames passed lastFlush => exact .timely frame frames passed lastFlush
  | full frame frames long lastFlush => exact .full frame frames long lastFlush
  | final frame frames open_ closed lastFlush => exact .final frame frames open_ closed lastFlush

/-- Whatever happens, each frame has one of the three reasons. -/
theorem makes_step (framed : Framed cfg timed.run)
    (taken : timedStep cfg timed event = some next) : Makes cfg timed next := by
  cases event with
  | pass span =>
    cases taken
    exact .nothing rfl rfl
  | chunk bytes =>
    obtain ⟨run, stepped, rfl⟩ := Option.map_eq_some_iff.mp taken
    obtain ⟨waiting, same⟩ := Option.ite_none_right_eq_some.mp stepped
    cases same
    -- The chunk only comes while nothing else is in hand.
    have pending : (timed.run.take bytes).coalescer.phase = .waiting := waiting
    apply Makes.at_
    show Makes cfg timed (timed.clocked ((timed.run.take bytes).turn
      (timed.run.coalescer.receive cfg _ bytes)))
    -- A chunk that is not flushed waits for the deadline, and makes no frame.
    unfold Coalescer.receive
    dsimp only
    split
    · rename_i reason
      rw [Bool.or_eq_true, Bool.and_eq_true, decide_eq_true_iff, decide_eq_true_iff] at reason
      -- The frame is due, or full.
      exact makes_flush pending rfl (reason.symm.imp And.right id)
    · rw [show (timed.run.take bytes).turn _ = timed.run.take bytes from turn_waiting pending]
      exact .nothing rfl (by simp [Timed.clocked, Coalescing.take])
  | tick =>
    obtain ⟨passed, stepped⟩ := Option.ite_none_right_eq_some.mp taken
    obtain ⟨run, ticked, rfl⟩ := Option.map_eq_some_iff.mp stepped
    obtain ⟨⟨waiting, -⟩, same⟩ := Option.ite_none_right_eq_some.mp ticked
    cases same
    -- The tick has passed since the last flush.
    exact makes_flush waiting rfl (.inl passed)
  | inputClosed =>
    obtain ⟨run, stepped, rfl⟩ := Option.map_eq_some_iff.mp taken
    obtain ⟨waiting, same⟩ := Option.ite_none_right_eq_some.mp stepped
    cases same
    -- What is left in the buffer goes out as the last frame, once.
    have open_ := framed.settled.open_ waiting
    rcases inputClosed_cases timed.run.coalescer with ⟨-, stopped⟩ | ⟨-, shipped⟩
    · exact .nothing (by simp [Coalescing.turn, stopped, Coalescer.made]) rfl
    · exact .final _ (by rw [shipped]; rfl) open_ rfl rfl
  | sent =>
    obtain ⟨run, stepped, rfl⟩ := Option.map_eq_some_iff.mp taken
    simp only [coalesceStep] at stepped
    split at stepped
    · cases stepped
      exact .nothing rfl rfl
    · cases stepped
    · cases stepped
  | dropped =>
    obtain ⟨run, stepped, rfl⟩ := Option.map_eq_some_iff.mp taken
    simp only [coalesceStep] at stepped
    split at stepped
    · cases stepped
      exact .nothing rfl rfl
    · cases stepped
    · cases stepped

/-- A step on the clock is a step of the loop, or leaves it alone. -/
theorem coalesces_step (taken : timedStep cfg timed event = some next) :
    next.run = timed.run ∨ ∃ action, coalesceStep cfg timed.run action = some next.run := by
  -- Passing time is no step of the loop, and every other event is its own.
  cases event with
  | pass span =>
    cases taken
    exact .inl rfl
  | tick =>
    obtain ⟨-, stepped⟩ := Option.ite_none_right_eq_some.mp taken
    obtain ⟨run, ticked, rfl⟩ := Option.map_eq_some_iff.mp stepped
    exact .inr ⟨_, ticked⟩
  | chunk bytes =>
    obtain ⟨run, stepped, rfl⟩ := Option.map_eq_some_iff.mp taken
    exact .inr ⟨_, stepped⟩
  | inputClosed =>
    obtain ⟨run, stepped, rfl⟩ := Option.map_eq_some_iff.mp taken
    exact .inr ⟨_, stepped⟩
  | sent =>
    obtain ⟨run, stepped, rfl⟩ := Option.map_eq_some_iff.mp taken
    exact .inr ⟨_, stepped⟩
  | dropped =>
    obtain ⟨run, stepped, rfl⟩ := Option.map_eq_some_iff.mp taken
    exact .inr ⟨_, stepped⟩

/-- An input that has closed stays closed. -/
theorem closed_step {run after : Coalescing} {action : CoalescingEvent}
    (taken : coalesceStep cfg run action = some after) (closed : run.closed = true) :
    after.closed = true := by
  -- No step opens an input, and the end of it can only close one.
  cases action with
  | chunk bytes elapsed =>
    obtain ⟨-, same⟩ := Option.ite_none_right_eq_some.mp taken
    cases same
    exact closed
  | tick =>
    obtain ⟨-, same⟩ := Option.ite_none_right_eq_some.mp taken
    cases same
    exact closed
  | inputClosed =>
    obtain ⟨-, same⟩ := Option.ite_none_right_eq_some.mp taken
    cases same
    rfl
  | sent =>
    simp only [coalesceStep] at taken
    split at taken
    · cases taken
      -- Sending changes the phase alone.
      exact closed
    · cases taken
    · cases taken
  | dropped =>
    simp only [coalesceStep] at taken
    split at taken
    · cases taken
      exact closed
    · cases taken
    · cases taken

end Steps

section Counting

variable {cfg : CoalescerConfig} {timed next final : Timed} {event : TimedEvent}

/-- Every frame is charged to a tick that has passed, to a buffer that was full, or to the end. -/
structure Charged (cfg : CoalescerConfig) (timed : Timed) : Prop where
  framed : Framed cfg timed.run
  started : cfg.tick ≤ timed.now
  behind : timed.lastFlush ≤ timed.now
  frames : ∃ timely full last, timed.run.frames.length = timely + full + last ∧
    timely * cfg.tick ≤ timed.lastFlush ∧
    full * cfg.maxFrame ≤ timed.run.frames.flatten.length ∧
    last ≤ 1 ∧ (timed.run.closed = false → last = 0)

/-- At first there is no frame to charge. -/
theorem charged_start (valid : 1 ≤ cfg.maxFrame) : Charged cfg (Timed.start cfg) where
  framed := framed_start valid
  started := Nat.le_refl cfg.tick
  behind := Nat.zero_le _
  frames := ⟨0, 0, 0, by simp [Timed.start, Coalescing.start], by simp, by simp, by omega, by simp⟩

/-- The clock does not go back. -/
theorem now_step (taken : timedStep cfg timed event = some next) : timed.now ≤ next.now := by
  -- Only passing time moves the clock, and it moves it on.
  cases event with
  | pass span =>
    cases taken
    exact Nat.le_add_right _ _
  | tick =>
    obtain ⟨-, stepped⟩ := Option.ite_none_right_eq_some.mp taken
    obtain ⟨run, -, rfl⟩ := Option.map_eq_some_iff.mp stepped
    exact Nat.le_refl _
  | chunk bytes =>
    obtain ⟨run, -, rfl⟩ := Option.map_eq_some_iff.mp taken
    exact Nat.le_refl _
  | inputClosed =>
    obtain ⟨run, -, rfl⟩ := Option.map_eq_some_iff.mp taken
    exact Nat.le_refl _
  | sent =>
    obtain ⟨run, -, rfl⟩ := Option.map_eq_some_iff.mp taken
    exact Nat.le_refl _
  | dropped =>
    obtain ⟨run, -, rfl⟩ := Option.map_eq_some_iff.mp taken
    exact Nat.le_refl _

/-- One event leaves every frame charged. -/
theorem charged_step (valid : 1 ≤ cfg.maxFrame) (charged : Charged cfg timed)
    (taken : timedStep cfg timed event = some next) : Charged cfg next := by
  have later := now_step taken
  have started := Nat.le_trans charged.started later
  have behind := charged.behind
  have framed : Framed cfg next.run := by
    rcases coalesces_step taken with same | ⟨action, stepped⟩
    · exact same ▸ charged.framed
    · exact framed_step valid charged.framed stepped
  -- An input that is open now was open before.
  have opened : next.run.closed = false → timed.run.closed = false := by
    intro open_
    rcases coalesces_step taken with same | ⟨action, stepped⟩
    · rwa [same] at open_
    · by_contra closed
      rw [closed_step stepped (by simpa using closed)] at open_
      cases open_
  have longer : ∀ frame : Bytes, (timed.run.frames ++ [frame]).flatten.length =
      timed.run.frames.flatten.length + frame.length := by
    intro frame
    rw [List.flatten_append, List.length_append, List.flatten_singleton]
  obtain ⟨timely, full, last, total, ticks, bytes, once, none_⟩ := charged.frames
  cases makes_step charged.framed taken with
  | nothing frames lastFlush =>
    refine ⟨framed, started, by omega, timely, full, last, ?_⟩
    rw [frames, lastFlush]
    exact ⟨total, ticks, bytes, once, fun open_ => none_ (opened open_)⟩
  | timely frame frames passed lastFlush =>
    -- The tick that has passed pays for the frame.
    refine ⟨framed, started, by omega, timely + 1, full, last, ?_⟩
    rw [frames, lastFlush, Nat.succ_mul]
    exact ⟨by simp; omega, by omega, by rw [longer]; omega, once,
      fun open_ => none_ (opened open_)⟩
  | full frame frames long lastFlush =>
    -- The bytes of the frame itself pay for it.
    refine ⟨framed, started, by omega, timely, full + 1, last, ?_⟩
    rw [frames, lastFlush, Nat.succ_mul]
    exact ⟨by simp; omega, by omega, by rw [longer]; omega, once,
      fun open_ => none_ (opened open_)⟩
  | final frame frames open_ closed lastFlush =>
    refine ⟨framed, started, by omega, timely, full, 1, ?_⟩
    rw [frames, lastFlush]
    have unused := none_ open_
    refine ⟨by simp; omega, ticks, by rw [longer]; omega, Nat.le_refl 1, ?_⟩
    intro still
    rw [closed] at still
    cases still

/--
However the input is cut and whenever it comes,
a coalescer makes no more frames than ticks have passed and full frames have come in, and two more.
-/
theorem frames_bounded_by_cadence (cfg : CoalescerConfig) (ticks : 0 < cfg.tick)
    (valid : 1 ≤ cfg.maxFrame) {events : List TimedEvent}
    (ran : System.run (timedStep cfg) (Timed.start cfg) events = some final) :
    final.run.frames.length ≤
      (final.now - cfg.tick) / cfg.tick + final.run.received.flatten.length / cfg.maxFrame + 2 := by
  have charged : Charged cfg final :=
    System.run_preserves (charged_step valid) (charged_start valid) ran
  obtain ⟨timely, full, last, total, passed, bytes, once, -⟩ := charged.frames
  have started := charged.started
  have behind := charged.behind
  -- The ticks fit into the time since one tick before the start.
  have few : timely ≤ (final.now - cfg.tick) / cfg.tick + 1 := by
    have fits : timely ≤ final.now / cfg.tick :=
      (Nat.le_div_iff_mul_le ticks).mpr (Nat.le_trans passed behind)
    rwa [← Nat.sub_add_cancel started, Nat.add_div_right _ ticks] at fits
  -- The full frames fit into what came in.
  have dense : full ≤ final.run.received.flatten.length / cfg.maxFrame := by
    rw [Nat.le_div_iff_mul_le (by omega), ← charged.framed.cut.conserved, List.length_append]
    omega
  omega

end Counting

section Latency

variable {cfg : CoalescerConfig} {timed next final : Timed} {event : TimedEvent}

/-- What keeps a byte from waiting longer than a tick. -/
structure Prompt (cfg : CoalescerConfig) (timed : Timed) : Prop where
  behind : timed.lastFlush ≤ timed.now
  /-- Only a loop that waits has anything in its buffer. -/
  busy : timed.run.coalescer.phase ≠ .waiting → timed.run.coalescer.buf = []
  /-- Bytes in the buffer came in after the last flush, and their deadline has not passed. -/
  pending : timed.run.coalescer.phase = .waiting → timed.run.coalescer.buf ≠ [] →
    timed.lastFlush ≤ timed.since ∧ timed.since ≤ timed.now ∧
      timed.now ≤ timed.lastFlush + cfg.tick

/-- At first the buffer is empty. -/
theorem prompt_start (cfg : CoalescerConfig) : Prompt cfg (Timed.start cfg) where
  behind := Nat.zero_le _
  busy := by simp [Timed.start, Coalescing.start, Coalescer.start]
  pending := by simp [Timed.start, Coalescing.start, Coalescer.start]

/-- A loop with an empty buffer keeps nobody waiting. -/
theorem prompt_of_empty (behind : timed.lastFlush ≤ timed.now)
    (empty : timed.run.coalescer.buf = []) : Prompt cfg timed :=
  ⟨behind, fun _ => empty, fun _ some_ => absurd empty some_⟩

/-- A flush empties the buffer. -/
theorem buf_flush (self : Coalescer) : self.flush.buf = [] := by
  rcases flush_cases self with ⟨empty, idle⟩ | ⟨-, shipped⟩
  · rw [idle, empty]
  · rw [shipped]
    rfl

/-- The last flush is never in the future. -/
theorem clocked_behind (behind : timed.lastFlush ≤ timed.now) (run : Coalescing) :
    (timed.clocked run).lastFlush ≤ timed.now := by
  -- A flush is stamped with the present, and any other step keeps the stamp.
  unfold Timed.clocked
  dsimp only
  split
  · exact Nat.le_refl _
  · exact behind

/-- A chunk joins bytes that wait already, or begins to wait before the deadline. -/
theorem prompt_chunk (prompt : Prompt cfg timed) {bytes : Bytes}
    (taken : timedStep cfg timed (.chunk bytes) = some next) : Prompt cfg next := by
  obtain ⟨run, stepped, rfl⟩ := Option.map_eq_some_iff.mp taken
  obtain ⟨waiting, same⟩ := Option.ite_none_right_eq_some.mp stepped
  cases same
  have behind := prompt.behind
  unfold Coalescer.receive
  dsimp only
  split
  · exact prompt_of_empty (clocked_behind behind _) (buf_flush _)
  · rename_i short
    rw [Bool.or_eq_true, Bool.and_eq_true, not_or, not_and, decide_eq_true_iff,
      decide_eq_true_iff] at short
    -- No frame is made, so the last flush stays where it was.
    have frames : (timed.run.turn { timed.run.coalescer with
        buf := timed.run.coalescer.buf ++ bytes
        stats := timed.run.coalescer.stats.recordIn bytes }).frames = timed.run.frames := by
      simp [Coalescing.turn, Coalescer.made, waiting]
    refine ⟨clocked_behind behind _, fun stuck => absurd waiting stuck, ?_⟩
    intro _ _
    simp only [Timed.clocked, frames, Nat.lt_irrefl, if_false]
    by_cases empty : timed.run.coalescer.buf = []
    · -- The first byte to wait came in before a tick had passed.
      have early := short.2 (by simp [empty])
      simp only [empty, if_true]
      omega
    · simp only [empty, if_false]
      exact prompt.pending waiting empty

/-- One event on time keeps every byte that waits within its tick. -/
theorem prompt_step (punctual : Punctual cfg timed event) (prompt : Prompt cfg timed)
    (taken : timedStep cfg timed event = some next) : Prompt cfg next := by
  have behind := prompt.behind
  cases event with
  | pass span =>
    cases taken
    refine ⟨by simp; omega, prompt.busy, ?_⟩
    -- The time that passes ends before the tick of what waits.
    intro waiting some_
    have deadline := punctual waiting some_
    obtain ⟨after, before, -⟩ := prompt.pending waiting some_
    exact ⟨after, Nat.le_trans before (Nat.le_add_right _ _), deadline⟩
  | chunk bytes => exact prompt_chunk prompt taken
  | tick =>
    obtain ⟨-, stepped⟩ := Option.ite_none_right_eq_some.mp taken
    obtain ⟨run, ticked, rfl⟩ := Option.map_eq_some_iff.mp stepped
    obtain ⟨-, same⟩ := Option.ite_none_right_eq_some.mp ticked
    cases same
    -- A flush leaves the buffer empty, so nothing waits.
    exact prompt_of_empty (clocked_behind behind _) (buf_flush _)
  | inputClosed =>
    obtain ⟨run, stepped, rfl⟩ := Option.map_eq_some_iff.mp taken
    obtain ⟨-, same⟩ := Option.ite_none_right_eq_some.mp stepped
    cases same
    -- The end of the input empties it too.
    exact prompt_of_empty behind (buf_inputClosed _)
  | sent =>
    obtain ⟨run, stepped, rfl⟩ := Option.map_eq_some_iff.mp taken
    simp only [coalesceStep] at stepped
    split at stepped
    · rename_i frame last sending
      cases stepped
      -- The frame took the whole buffer with it.
      have empty := prompt.busy (by simp [sending])
      exact prompt_of_empty behind (by simp [Coalescer.sent, sending, empty])
    · cases stepped
    · cases stepped
  | dropped =>
    obtain ⟨run, stepped, rfl⟩ := Option.map_eq_some_iff.mp taken
    simp only [coalesceStep] at stepped
    split at stepped
    · rename_i frame last sending
      cases stepped
      exact prompt_of_empty behind (prompt.busy (by simp [sending]))
    · cases stepped
    · cases stepped

/--
As long as the timer fires on time and the consumer takes the frames,
no byte waits in the buffer for longer than a tick after it came in.
-/
theorem byte_waits_one_tick (cfg : CoalescerConfig) {events : List TimedEvent}
    (punctual : System.Meets (timedStep cfg) (Punctual cfg) (Timed.start cfg) events)
    (ran : System.run (timedStep cfg) (Timed.start cfg) events = some final)
    (some_ : final.run.coalescer.buf ≠ []) : final.now ≤ final.since + cfg.tick := by
  -- A loop that is busy holds no byte back, so what is pending waits for the next tick.
  have prompt : Prompt cfg final := System.run_invariant prompt_step punctual (prompt_start cfg) ran
  have waiting : final.run.coalescer.phase = .waiting := by
    by_contra stuck
    exact some_ (prompt.busy stuck)
  obtain ⟨after, -, deadline⟩ := prompt.pending waiting some_
  omega

end Latency

/-- An echo after an idle gap, output within a tick of it, and the tick that ships that output. -/
def echoThenOutput : List TimedEvent :=
  [.pass 100, .chunk [0x61], .sent, .pass 3, .chunk [0x62], .pass 2, .chunk [0x63], .pass 3, .tick,
    .sent, .chunk [0x64]]

/-- Two frames in eight milliseconds after the gap, as the bound allows. -/
theorem frames_of_echo :
    ∃ final, System.run (timedStep ⟨4, 8⟩) (Timed.start ⟨4, 8⟩) echoThenOutput = some final ∧
      final.run.frames = [[0x61], [0x62, 0x63]] ∧
      final.run.frames.length ≤ 108 / 8 + 4 / 4 + 2 := by
  -- The run is evaluated, and its numbers are put into the bound.
  obtain ⟨final, ran, frames, now, received⟩ : ∃ final, System.run (timedStep ⟨4, 8⟩)
      (Timed.start ⟨4, 8⟩) echoThenOutput = some final ∧ final.run.frames = [[0x61], [0x62, 0x63]] ∧
        final.now = 116 ∧ final.run.received.flatten.length = 4 :=
    ⟨_, rfl, rfl, rfl, rfl⟩
  refine ⟨final, ran, frames, ?_⟩
  have bounded := frames_bounded_by_cadence ⟨4, 8⟩ (by decide) (by decide) ran
  rwa [now, received] at bounded

/-- An echo after an idle gap, and output that waits behind it. -/
def outputBehindEcho : List TimedEvent := [.chunk [0x61], .sent, .pass 3, .chunk [0x62], .pass 2]

/-- The output has waited for two of the eight milliseconds. -/
theorem output_waits_behind_echo :
    ∃ final, System.run (timedStep ⟨4, 8⟩) (Timed.start ⟨4, 8⟩) outputBehindEcho = some final ∧
      final.run.coalescer.buf = [0x62] ∧ final.since + 2 = final.now ∧
      final.now ≤ final.since + 8 := by
  obtain ⟨final, ran, pending, waited⟩ : ∃ final, System.run (timedStep ⟨4, 8⟩)
      (Timed.start ⟨4, 8⟩) outputBehindEcho = some final ∧ final.run.coalescer.buf = [0x62] ∧
        final.since + 2 = final.now :=
    ⟨_, rfl, rfl, rfl⟩
  refine ⟨final, ran, pending, waited, byte_waits_one_tick ⟨4, 8⟩ ?_ ran (by simp [pending])⟩
  -- Nothing is pending behind the echo, and the output's deadline is six milliseconds away.
  refine .cons trivial rfl
    (.cons trivial rfl (.cons ?_ rfl (.cons trivial rfl (.cons ?_ rfl trivial))))
  · exact fun _ some_ => absurd rfl some_
  · exact fun _ _ => by decide

end Tern.TermStream
