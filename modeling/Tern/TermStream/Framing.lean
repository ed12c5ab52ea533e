import Mathlib.Algebra.BigOperators.Group.List.Basic
import Mathlib.Algebra.GroupWithZero.Nat
import Mathlib.Data.List.Induction
import Tern.Base.System
import Tern.TermStream.Coalescer

/-! Framing: every frame is a run of whole chunks, and the counters tell what went through. -/

namespace Tern.TermStream

/-- A coalescer between the chunks that came in and the frames that went out. -/
structure Coalescing where
  coalescer : Coalescer
  /-- The chunks received so far. -/
  received : List Bytes
  /-- The frames made so far, the one in hand included. -/
  frames : List Bytes
  /-- The frames that the consumer has taken. -/
  delivered : List Bytes
  /-- The input has closed. -/
  closed : Bool
  /-- The consumer was gone when a frame was handed on. -/
  abandoned : Bool
  deriving DecidableEq, Repr

/-- A coalescer before its first chunk. -/
def Coalescing.start : Coalescing := ⟨.start, [], [], [], false, false⟩

/-- What can happen to a coalescer. -/
inductive CoalescingEvent where
  /-- A chunk arrives, with the tick since the last flush elapsed or not. -/
  | chunk (bytes : Bytes) (elapsed : Bool)
  /-- The tick expires. -/
  | tick
  | inputClosed
  /-- The consumer has room for the frame in hand. -/
  | sent
  /-- The consumer is gone, and the frame in hand is dropped. -/
  | dropped
  deriving DecidableEq, Repr

/-- The frame in hand, as a list of at most one. -/
def Coalescer.made (self : Coalescer) : List Bytes :=
  match self.phase with
  | .waiting => []
  | .sending frame _ => [frame]
  | .stopped => []

/-- The coalescer moves on, and a frame that it made on the way is noted. -/
def Coalescing.turn (self : Coalescing) (coalescer : Coalescer) : Coalescing :=
  { self with coalescer, frames := self.frames ++ coalescer.made }

/-- The coalescer after one event, unless the event cannot happen where its loop stands. -/
def coalesceStep (cfg : CoalescerConfig) (run : Coalescing) : CoalescingEvent → Option Coalescing
  | .chunk bytes elapsed =>
    if run.coalescer.phase = .waiting then
      some { run.turn (run.coalescer.receive cfg elapsed bytes) with
        received := run.received ++ [bytes] }
    else none
  | .tick =>
    -- There is a deadline only while data is pending.
    if run.coalescer.phase = .waiting ∧ run.coalescer.buf ≠ [] then
      some (run.turn run.coalescer.flush)
    else none
  | .inputClosed =>
    if run.coalescer.phase = .waiting then
      some { run.turn run.coalescer.inputClosed with closed := true }
    else none
  | .sent =>
    match run.coalescer.phase with
    | .sending frame _ =>
      some { run with coalescer := run.coalescer.sent, delivered := run.delivered ++ [frame] }
    | .waiting => none
    | .stopped => none
  | .dropped =>
    match run.coalescer.phase with
    | .sending _ _ =>
      some { run with coalescer := { run.coalescer with phase := .stopped }, abandoned := true }
    | .waiting => none
    | .stopped => none

/-- Some chunks make a frame that was below the limit before its last byte came in. -/
def MakesFrame (cfg : CoalescerConfig) (chunks : List Bytes) : Prop :=
  ∃ before last after, chunks = before ++ last :: after ∧ last ≠ [] ∧
    (∀ chunk ∈ after, chunk = []) ∧ before.flatten.length < cfg.maxFrame

/-- The frames are cut out of the chunks in order, and the chunks that are left are in the
buffer. -/
def Cut (cfg : CoalescerConfig) (run : Coalescing) : Prop :=
  ∃ (groups : List (List Bytes)) (rest : List Bytes), run.received = groups.flatten ++ rest ∧
    run.frames = groups.map List.flatten ∧ run.coalescer.buf = rest.flatten ∧
    (∀ group ∈ groups, MakesFrame cfg group) ∧ (rest.flatten ≠ [] → MakesFrame cfg rest)

/-- The counters tell what came in and what went out. -/
structure Counted (run : Coalescing) : Prop where
  bytesIn : run.coalescer.stats.bytesIn = run.received.flatten.length
  newlinesIn : run.coalescer.stats.newlinesIn = run.received.flatten.count 0x0a
  bytesOut : run.coalescer.stats.bytesOut = (run.frames.map List.length).sum
  framesOut : run.coalescer.stats.framesOut = run.frames.length
  maxFrameBytes : run.coalescer.stats.maxFrameBytes = (run.frames.map List.length).foldl max 0

/-- What the coalescer owes its consumer. -/
structure Settled (run : Coalescing) : Prop where
  /-- A consumer that stays has every frame but the one in hand. -/
  delivered : run.abandoned = false → run.delivered ++ run.coalescer.made = run.frames
  /-- A closed input leaves nothing in the buffer, and one more frame at most. -/
  closed : run.closed = true → run.coalescer.buf = [] ∧
    (run.coalescer.phase = .stopped ∨ ∃ frame, run.coalescer.phase = .sending frame true)
  /-- An open one leaves the loop running for as long as the consumer stays. -/
  running : run.closed = false → run.abandoned = false →
    run.coalescer.phase = .waiting ∨ ∃ frame, run.coalescer.phase = .sending frame false

section Frames

variable {cfg : CoalescerConfig} {run : Coalescing} {chunks : List Bytes}

/-- A run of chunks that holds any byte ends in its last chunk that holds one. -/
theorem exists_last (some_ : chunks.flatten ≠ []) :
    ∃ before last after, chunks = before ++ last :: after ∧ last ≠ [] ∧
      ∀ chunk ∈ after, chunk = [] := by
  -- The induction is from the last chunk back.
  induction chunks using List.reverseRecOn with
  | nil => exact absurd rfl some_
  | append_singleton chunks chunk ih =>
    by_cases empty : chunk = []
    · subst empty
      obtain ⟨before, last, after, rfl, visible, blank⟩ := ih (by simpa using some_)
      refine ⟨before, last, after ++ [[]], by simp, visible, ?_⟩
      intro other member
      rcases List.mem_append.mp member with inside | final
      · exact blank other inside
      · exact List.mem_singleton.mp final
    · exact ⟨chunks, chunk, [], rfl, empty, by simp⟩

/-- Chunks that stay below the limit make a frame, if they hold any byte. -/
theorem makesFrame_of_short (some_ : chunks.flatten ≠ [])
    (short : chunks.flatten.length < cfg.maxFrame) : MakesFrame cfg chunks := by
  -- What is in front of the last chunk with a byte is shorter still.
  obtain ⟨before, last, after, rfl, visible, blank⟩ := exists_last some_
  refine ⟨before, last, after, rfl, visible, blank, ?_⟩
  rw [List.flatten_append, List.length_append] at short
  omega

/-- A frame is not empty, and below the limit without the last chunk that holds a byte. -/
theorem MakesFrame.flatten_ne_nil (makes : MakesFrame cfg chunks) : chunks.flatten ≠ [] := by
  obtain ⟨before, last, after, rfl, visible, -, -⟩ := makes
  simp [visible]

end Frames

section Shipping

variable {cfg : CoalescerConfig} {run : Coalescing}

/-- The coalescer with its whole buffer in hand. -/
def Coalescer.ship (self : Coalescer) (last : Bool) : Coalescer where
  buf := []
  phase := .sending self.buf last
  stats := self.stats.recordOut self.buf.length

/-- The run with one more chunk in the buffer. -/
def Coalescing.take (self : Coalescing) (chunk : Bytes) : Coalescing :=
  { self with
    coalescer := { self.coalescer with
      buf := self.coalescer.buf ++ chunk
      stats := self.coalescer.stats.recordIn chunk }
    received := self.received ++ [chunk] }

/-- A flush ships what there is to ship. -/
theorem flush_cases (self : Coalescer) :
    self.buf = [] ∧ self.flush = self ∨ self.buf ≠ [] ∧ self.flush = self.ship false := by
  -- Whether there is anything is all that a flush asks.
  unfold Coalescer.flush
  split
  · rename_i empty
    exact .inl ⟨List.isEmpty_iff.mp empty, rfl⟩
  · rename_i some_
    exact .inr ⟨fun empty => some_ (List.isEmpty_iff.mpr empty), rfl⟩

/-- The end of the input ships what is left, or stops at once. -/
theorem inputClosed_cases (self : Coalescer) :
    self.buf = [] ∧ self.inputClosed = { self with phase := .stopped } ∨
      self.buf ≠ [] ∧ self.inputClosed = self.ship true := by
  -- Whether anything is left is all that the end of the input asks.
  unfold Coalescer.inputClosed
  split
  · rename_i empty
    exact .inl ⟨List.isEmpty_iff.mp empty, rfl⟩
  · rename_i some_
    exact .inr ⟨fun empty => some_ (List.isEmpty_iff.mpr empty), rfl⟩

/-- A chunk goes behind the ones that are pending. -/
theorem Cut.take (cut : Cut cfg run) (short : run.coalescer.buf.length < cfg.maxFrame)
    (chunk : Bytes) : Cut cfg (run.take chunk) := by
  -- The chunk joins those that are not in a frame yet.
  obtain ⟨groups, rest, received, frames, buf, bounded, -⟩ := cut
  rw [buf] at short
  refine ⟨groups, rest ++ [chunk], ?_, frames, ?_, bounded, ?_⟩
  · show run.received ++ [chunk] = _
    rw [received, List.append_assoc]
  · show run.coalescer.buf ++ chunk = _
    simp [buf]
  · intro some_
    by_cases empty : chunk = []
    · -- A chunk without bytes leaves the buffer as short as it was.
      refine makesFrame_of_short some_ ?_
      simpa [empty] using short
    · exact ⟨rest, chunk, [], rfl, empty, by simp, short⟩

/-- The pending chunks become the next frame. -/
theorem Cut.ship (cut : Cut cfg run) (some_ : run.coalescer.buf ≠ []) (last : Bool) :
    Cut cfg (run.turn (run.coalescer.ship last)) := by
  -- The chunks that were pending are the newest group, and none is pending then.
  obtain ⟨groups, rest, received, frames, buf, bounded, pending⟩ := cut
  refine ⟨groups ++ [rest], [], ?_, ?_, rfl, ?_, fun none_ => absurd rfl none_⟩
  · show run.received = _
    simpa using received
  · show run.frames ++ [run.coalescer.buf] = _
    simp [frames, buf]
  · intro group member
    rcases List.mem_append.mp member with earlier | newest
    · exact bounded group earlier
    · rw [List.mem_singleton.mp newest]
      exact pending (buf ▸ some_)

/-- A chunk that is taken is counted. -/
theorem Counted.take (counted : Counted run) (chunk : Bytes) : Counted (run.take chunk) := by
  -- Counting over all chunks adds what is counted in the last one.
  refine ⟨?_, ?_, counted.bytesOut, counted.framesOut, counted.maxFrameBytes⟩
  · show run.coalescer.stats.bytesIn + chunk.length = (run.received ++ [chunk]).flatten.length
    simp [counted.bytesIn]
  · show run.coalescer.stats.newlinesIn + chunk.count 0x0a =
      (run.received ++ [chunk]).flatten.count 0x0a
    simp [counted.newlinesIn]

/-- The counters are right as long as neither they nor what they count change. -/
theorem Counted.frame {other : Coalescing} (counted : Counted run)
    (stats : other.coalescer.stats = run.coalescer.stats) (received : other.received = run.received)
    (frames : other.frames = run.frames) : Counted other := by
  -- Each counter is compared with the same sum as before.
  refine ⟨?_, ?_, ?_, ?_, ?_⟩
  · rw [stats, received, counted.bytesIn]
  · rw [stats, received, counted.newlinesIn]
  · rw [stats, frames, counted.bytesOut]
  · rw [stats, frames, counted.framesOut]
  · rw [stats, frames, counted.maxFrameBytes]

/-- A frame that is shipped is counted. -/
theorem Counted.ship (counted : Counted run) (last : Bool) :
    Counted (run.turn (run.coalescer.ship last)) := by
  -- One frame more goes out, of as many bytes as were in the buffer.
  have frames : (run.turn (run.coalescer.ship last)).frames = run.frames ++ [run.coalescer.buf] :=
    rfl
  refine ⟨counted.bytesIn, counted.newlinesIn, ?_, ?_, ?_⟩
  · show run.coalescer.stats.bytesOut + run.coalescer.buf.length = _
    simp [frames, counted.bytesOut]
  · show run.coalescer.stats.framesOut + 1 = _
    simp [frames, counted.framesOut]
  · show max run.coalescer.stats.maxFrameBytes run.coalescer.buf.length = _
    simp [frames, counted.maxFrameBytes]

end Shipping

section Runs

variable {cfg : CoalescerConfig} {run next : Coalescing}

/-- What holds between two steps of the loop. -/
structure Framed (cfg : CoalescerConfig) (run : Coalescing) : Prop where
  cut : Cut cfg run
  counted : Counted run
  settled : Settled run
  /-- The buffer stays below the limit, for it is flushed as soon as it gets there. -/
  short : run.coalescer.buf.length < cfg.maxFrame

/-- While the loop waits, no frame is in hand. -/
theorem Settled.all_delivered (settled : Settled run) (waiting : run.coalescer.phase = .waiting)
    (kept : run.abandoned = false) : run.delivered = run.frames := by
  have delivered := settled.delivered kept
  unfold Coalescer.made at delivered
  rwa [waiting, List.append_nil] at delivered

/-- A loop that waits has not seen the end of its input. -/
theorem Settled.open_ (settled : Settled run) (waiting : run.coalescer.phase = .waiting) :
    run.closed = false := by
  -- A loop whose input is closed has stopped, or sends its last frame.
  by_contra closed
  rw [Bool.not_eq_false] at closed
  rcases (settled.closed closed).2 with stopped | ⟨frame, sending⟩
  · rw [stopped] at waiting
    cases waiting
  · rw [sending] at waiting
    cases waiting

/-- Shipping the buffer of a waiting loop leaves its consumer one frame behind. -/
theorem Settled.ship (settled : Settled run) (waiting : run.coalescer.phase = .waiting) :
    Settled (run.turn (run.coalescer.ship false)) := by
  -- Before, the consumer had everything, so it lacks the one frame that is shipped.
  refine ⟨?_, ?_, ?_⟩
  · intro kept
    show run.delivered ++ [run.coalescer.buf] = run.frames ++ [run.coalescer.buf]
    rw [settled.all_delivered waiting kept]
  · intro closed
    have same : run.closed = true := closed
    rw [settled.open_ waiting] at same
    cases same
  · exact fun _ _ => .inr ⟨run.coalescer.buf, rfl⟩

/-- A loop that goes on waiting has made no frame. -/
theorem turn_waiting {coalescer : Coalescer} (waiting : coalescer.phase = .waiting) :
    run.turn coalescer = { run with coalescer } := by
  unfold Coalescing.turn Coalescer.made
  rw [waiting]
  simp

/-- The buffer of a waiting loop is shipped, if there is anything in it. -/
theorem framed_flush (valid : 1 ≤ cfg.maxFrame) (cut : Cut cfg run) (counted : Counted run)
    (settled : Settled run) (waiting : run.coalescer.phase = .waiting) :
    Framed cfg (run.turn run.coalescer.flush) := by
  -- An empty buffer makes no frame, and any other is shipped as a whole.
  rcases flush_cases run.coalescer with ⟨empty, idle⟩ | ⟨some_, shipped⟩
  · rw [idle, turn_waiting waiting]
    exact ⟨cut, counted, settled, by rw [empty]; exact valid⟩
  · rw [shipped]
    exact ⟨cut.ship some_ false, counted.ship false, settled.ship waiting, valid⟩

/-- A chunk is taken, and shipped with what was pending if the buffer is full or was idle. -/
theorem framed_receive (valid : 1 ≤ cfg.maxFrame) (framed : Framed cfg run)
    (waiting : run.coalescer.phase = .waiting) (chunk : Bytes) (elapsed : Bool) :
    Framed cfg { run.turn (run.coalescer.receive cfg elapsed chunk) with
      received := run.received ++ [chunk] } := by
  have cut := framed.cut.take framed.short chunk
  have counted := framed.counted.take chunk
  -- The loop waits as it did, and owes its consumer no frame yet.
  have settled : Settled (run.take chunk) :=
    ⟨fun kept => by
      show run.delivered ++ Coalescer.made { run.coalescer with
        buf := run.coalescer.buf ++ chunk,
        stats := run.coalescer.stats.recordIn chunk } = run.frames
      unfold Coalescer.made
      rw [waiting, List.append_nil]
      exact framed.settled.all_delivered waiting kept,
    fun closed => absurd closed (by rw [show (run.take chunk).closed = run.closed from rfl,
      framed.settled.open_ waiting]; decide),
    fun _ _ => .inl waiting⟩
  have taken : (run.take chunk).coalescer.phase = .waiting := waiting
  show Framed cfg ((run.take chunk).turn (run.coalescer.receive cfg elapsed chunk))
  unfold Coalescer.receive
  dsimp only
  -- A full buffer and an idle one are shipped at once, and any other waits for its deadline.
  split
  · exact framed_flush valid cut counted settled taken
  · rename_i short
    rw [show (run.take chunk).turn _ = run.take chunk from turn_waiting taken]
    rw [Bool.or_eq_true, not_or, decide_eq_true_iff] at short
    exact ⟨cut, counted, settled, Nat.lt_of_not_le short.1⟩

/-- The input closes, and what is left becomes the last frame. -/
theorem framed_inputClosed (valid : 1 ≤ cfg.maxFrame) (framed : Framed cfg run)
    (waiting : run.coalescer.phase = .waiting) :
    Framed cfg { run.turn run.coalescer.inputClosed with closed := true } := by
  rcases inputClosed_cases run.coalescer with ⟨empty, stopped⟩ | ⟨some_, shipped⟩
  · rw [stopped]
    -- With nothing left, no frame is made any more.
    have same : run.turn { run.coalescer with phase := .stopped } =
        { run with coalescer := { run.coalescer with phase := .stopped } } := by
      simp [Coalescing.turn, Coalescer.made]
    rw [same]
    refine ⟨framed.cut, framed.counted.frame rfl rfl rfl, ⟨?_, ?_, ?_⟩, framed.short⟩
    · intro kept
      show run.delivered ++ [] = run.frames
      rw [List.append_nil]
      exact framed.settled.all_delivered waiting kept
    · exact fun _ => ⟨empty, .inl rfl⟩
    · intro open_
      cases open_
  · -- The rest is shipped as the last frame, behind which the loop stops.
    rw [shipped]
    have ships := framed.cut.ship some_ true
    refine ⟨ships, (framed.counted.ship true).frame rfl rfl rfl, ⟨?_, ?_, ?_⟩, valid⟩
    · exact (framed.settled.ship waiting).delivered
    · exact fun _ => ⟨rfl, .inr ⟨run.coalescer.buf, rfl⟩⟩
    · intro open_
      cases open_

/-- A consumer that takes the frame in hand has all of them. -/
theorem framed_sent (framed : Framed cfg run) {frame : Bytes} {last : Bool}
    (sending : run.coalescer.phase = .sending frame last) :
    Framed cfg { run with
      coalescer := run.coalescer.sent, delivered := run.delivered ++ [frame] } := by
  have sent : run.coalescer.sent =
      { run.coalescer with phase := if last then .stopped else .waiting } := by
    unfold Coalescer.sent
    rw [sending]
  rw [sent]
  refine ⟨framed.cut, framed.counted.frame rfl rfl rfl, ⟨?_, ?_, ?_⟩, framed.short⟩
  · intro kept
    -- The frame moves from the hand to the consumer, and nothing is in hand then.
    have inHand : run.coalescer.made = [frame] := by
      unfold Coalescer.made
      rw [sending]
    have delivered := framed.settled.delivered kept
    rw [inHand] at delivered
    show (run.delivered ++ [frame]) ++ _ = run.frames
    rw [delivered]
    cases last with
    | false => exact List.append_nil _
    | true => exact List.append_nil _
  · intro closed
    -- The frame that was sent was the last one of a closed input.
    obtain ⟨empty, stopped | ⟨other, final⟩⟩ := framed.settled.closed closed
    · rw [stopped] at sending
      cases sending
    · rw [sending] at final
      cases final
      exact ⟨empty, .inl rfl⟩
  · intro open_ kept
    obtain waiting | ⟨other, more⟩ := framed.settled.running open_ kept
    · rw [waiting] at sending
      cases sending
    · rw [sending] at more
      cases more
      exact .inl rfl

/-- A consumer that is gone is owed nothing more. -/
theorem framed_dropped (framed : Framed cfg run) :
    Framed cfg { run with
      coalescer := { run.coalescer with phase := .stopped }, abandoned := true } := by
  -- What is asked for the consumer's sake is asked only while there is one.
  refine ⟨framed.cut, framed.counted.frame rfl rfl rfl, ⟨?_, ?_, ?_⟩, framed.short⟩
  · intro kept
    cases kept
  · exact fun closed => ⟨(framed.settled.closed closed).1, .inl rfl⟩
  · intro _ kept
    cases kept

/-- One event keeps the frames, the counters and what is owed to the consumer. -/
theorem framed_step (valid : 1 ≤ cfg.maxFrame) {event : CoalescingEvent}
    (framed : Framed cfg run) (taken : coalesceStep cfg run event = some next) :
    Framed cfg next := by
  -- Each event is one of the cases above, in the phase in which it can happen.
  cases event with
  | chunk bytes elapsed =>
    obtain ⟨waiting, same⟩ := Option.ite_none_right_eq_some.mp taken
    cases same
    exact framed_receive valid framed waiting bytes elapsed
  | tick =>
    obtain ⟨⟨waiting, -⟩, same⟩ := Option.ite_none_right_eq_some.mp taken
    cases same
    exact framed_flush valid framed.cut framed.counted framed.settled waiting
  | inputClosed =>
    obtain ⟨waiting, same⟩ := Option.ite_none_right_eq_some.mp taken
    cases same
    exact framed_inputClosed valid framed waiting
  | sent =>
    simp only [coalesceStep] at taken
    split at taken
    · rename_i frame last sending
      cases taken
      -- A frame that was taken is one of those delivered.
      exact framed_sent framed sending
    · cases taken
    · cases taken
  | dropped =>
    simp only [coalesceStep] at taken
    split at taken
    · cases taken
      -- A frame that nobody takes ends the loop with nothing in the buffer.
      exact framed_dropped framed
    · cases taken
    · cases taken

/-- A coalescer begins with nothing cut, counted or owed. -/
theorem framed_start (valid : 1 ≤ cfg.maxFrame) : Framed cfg Coalescing.start := by
  refine ⟨⟨[], [], rfl, rfl, rfl, by simp, fun none_ => absurd rfl none_⟩,
    ⟨rfl, rfl, rfl, rfl, rfl⟩, ⟨fun _ => rfl, ?_, fun _ _ => .inl rfl⟩, valid⟩
  intro closed
  cases closed

/-- No frame is empty. -/
theorem Cut.frame_ne_nil (cut : Cut cfg run) {frame : Bytes} (member : frame ∈ run.frames) :
    frame ≠ [] := by
  obtain ⟨groups, rest, -, frames, -, bounded, -⟩ := cut
  rw [frames] at member
  obtain ⟨group, inside, rfl⟩ := List.mem_map.mp member
  exact (bounded group inside).flatten_ne_nil

/-- The frames and the buffer are the chunks, joined. -/
theorem Cut.conserved (cut : Cut cfg run) :
    run.frames.flatten ++ run.coalescer.buf = run.received.flatten := by
  obtain ⟨groups, rest, received, frames, buf, -, -⟩ := cut
  rw [received, frames, buf, List.flatten_append, List.flatten_flatten]

/--
For every limit of at least one byte and every order of events,
the frames are cut out of the chunks, the counters are true,
and a closed input leaves nothing behind for a consumer that stays.
-/
theorem coalesce_framing (cfg : CoalescerConfig) (valid : 1 ≤ cfg.maxFrame)
    (events : List CoalescingEvent) (final : Coalescing)
    (ran : System.run (coalesceStep cfg) .start events = some final) :
    Cut cfg final ∧
    (∀ frame ∈ final.frames, frame ≠ []) ∧
    final.frames.flatten ++ final.coalescer.buf = final.received.flatten ∧
    (final.closed = true → final.abandoned = false →
      final.coalescer.buf = [] ∧
      final.delivered.flatten ++ final.coalescer.inHand = final.received.flatten ∧
      (final.coalescer.phase = .stopped ∨ ∃ frame, final.coalescer.phase = .sending frame true)) ∧
    Counted final := by
  have framed : Framed cfg final :=
    System.run_preserves (framed_step valid) (framed_start valid) ran
  refine ⟨framed.cut, fun _ => framed.cut.frame_ne_nil, framed.cut.conserved, ?_, framed.counted⟩
  intro closed kept
  obtain ⟨empty, over_⟩ := framed.settled.closed closed
  refine ⟨empty, ?_, over_⟩
  -- What the consumer has and what is in hand are all the frames, and the buffer is empty.
  have all := framed.cut.conserved
  rw [empty, List.append_nil, ← framed.settled.delivered kept, List.flatten_append] at all
  rw [← all]
  congr 1
  unfold Coalescer.inHand Coalescer.made
  cases final.coalescer.phase with
  | waiting => rfl
  | sending frame last => simp
  | stopped => rfl

/-- A chunk after an idle gap, an empty one, a burst over the limit and a rest at the end. -/
def burst : List CoalescingEvent :=
  [.chunk [0x61, 0x0a] true, .sent, .chunk [] true, .chunk [0x62, 0x63, 0x64] false,
    .chunk [0x65, 0x66] false, .sent, .chunk [0x67] false, .inputClosed, .sent]

/-- The burst comes out in three frames, the middle one longer than the limit of four. -/
theorem coalesce_framing_burst :
    ∃ final, System.run (coalesceStep ⟨4, 8⟩) .start burst = some final ∧
      final.delivered = [[0x61, 0x0a], [0x62, 0x63, 0x64, 0x65, 0x66], [0x67]] ∧
      Cut ⟨4, 8⟩ final ∧ Counted final := by
  refine ⟨_, rfl, rfl, ?_, ?_⟩
  · exact (coalesce_framing ⟨4, 8⟩ (by decide) burst _ rfl).1
  · exact (coalesce_framing ⟨4, 8⟩ (by decide) burst _ rfl).2.2.2.2

end Runs

end Tern.TermStream
