import Mathlib.Data.List.Basic

/-! The coalescer: chunks of output in, fewer and larger frames out. -/

namespace Tern

/-- A run of bytes, as chunks and frames carry them. -/
abbrev Bytes := List UInt8

namespace TermStream

/-- The tuning of a coalescer. -/
structure CoalescerConfig where
  /-- The buffer is flushed as soon as it holds this many bytes. -/
  maxFrame : Nat
  /-- The time after which waiting data is flushed, in milliseconds. -/
  tick : Nat
  deriving DecidableEq, Repr

/-- The counters of a stream. -/
structure StreamStats where
  bytesIn : Nat
  newlinesIn : Nat
  framesOut : Nat
  bytesOut : Nat
  maxFrameBytes : Nat
  deriving DecidableEq, Repr

/-- Counters at zero. -/
def StreamStats.new : StreamStats := ⟨0, 0, 0, 0, 0⟩

/-- How many line feeds a chunk holds. -/
def countNewlines (chunk : Bytes) : Nat := chunk.count 0x0a

/-- The counters after one more chunk. -/
def StreamStats.recordIn (stats : StreamStats) (chunk : Bytes) : StreamStats :=
  { stats with
    bytesIn := stats.bytesIn + chunk.length
    newlinesIn := stats.newlinesIn + countNewlines chunk }

/-- The counters after one more frame. -/
def StreamStats.recordOut (stats : StreamStats) (frameLen : Nat) : StreamStats :=
  { stats with
    framesOut := stats.framesOut + 1
    bytesOut := stats.bytesOut + frameLen
    maxFrameBytes := max stats.maxFrameBytes frameLen }

/-- Where the coalescing loop stands. -/
inductive CoalescerPhase where
  /-- Waiting for a chunk, and for the tick when data is pending. -/
  | waiting
  /-- Waiting for room to send a frame, which is the last one once the input has closed. -/
  | sending (frame : Bytes) (last : Bool)
  | stopped
  deriving DecidableEq, Repr

/-- The state of a coalescer between two steps. -/
structure Coalescer where
  buf : Bytes
  phase : CoalescerPhase
  stats : StreamStats
  deriving DecidableEq, Repr

/-- A coalescer before its first chunk. -/
def Coalescer.start : Coalescer := ⟨[], .waiting, StreamStats.new⟩

/-- The whole buffer becomes a frame, unless it is empty. -/
def Coalescer.flush (self : Coalescer) : Coalescer :=
  if self.buf.isEmpty then self
  else
    -- The counters are written before the frame is handed on.
    { buf := []
      phase := .sending self.buf false
      stats := self.stats.recordOut self.buf.length }

/-- One chunk arrives, with the tick since the last flush elapsed or not. -/
def Coalescer.receive (cfg : CoalescerConfig) (elapsed : Bool) (chunk : Bytes) (self : Coalescer) :
    Coalescer :=
  let idle := self.buf.isEmpty
  let taken : Coalescer :=
    { self with buf := self.buf ++ chunk, stats := self.stats.recordIn chunk }
  -- Output after an idle gap ships at once, so that an echo never pays the tick.
  if cfg.maxFrame ≤ taken.buf.length || idle && elapsed then taken.flush else taken

/-- The input has closed, and whatever is left is shipped. -/
def Coalescer.inputClosed (self : Coalescer) : Coalescer :=
  -- There is no loop to go back to, so the frame is marked as the last.
  if self.buf.isEmpty then { self with phase := .stopped }
  else
    { buf := []
      phase := .sending self.buf true
      stats := self.stats.recordOut self.buf.length }

/-- The frame in hand, if there is one. -/
def Coalescer.inHand (self : Coalescer) : Bytes :=
  match self.phase with
  | .waiting => []
  | .sending frame _ => frame
  | .stopped => []

/-- The loop after its frame was sent. -/
def Coalescer.sent (self : Coalescer) : Coalescer :=
  match self.phase with
  | .sending _ last => { self with phase := if last then .stopped else .waiting }
  | .waiting => self
  | .stopped => self

/-- Everything that was received and not sent yet, in order. -/
def Coalescer.held (self : Coalescer) : Bytes := self.inHand ++ self.buf

section Laws

variable {self : Coalescer}

/-- Flushing moves bytes from the buffer to the hand. -/
theorem held_flush (waiting : self.phase = .waiting) : self.flush.held = self.held := by
  unfold Coalescer.flush
  split
  · rfl
  · simp [Coalescer.held, Coalescer.inHand, waiting]

/-- A chunk is held behind everything before it. -/
theorem held_receive (cfg : CoalescerConfig) (elapsed : Bool) (chunk : Bytes)
    (waiting : self.phase = .waiting) :
    (self.receive cfg elapsed chunk).held = self.held ++ chunk := by
  -- The chunk goes to the end of the buffer, whether or not the buffer is flushed then.
  have taken : Coalescer.held { self with
      buf := self.buf ++ chunk, stats := self.stats.recordIn chunk } = self.held ++ chunk := by
    simp [Coalescer.held, Coalescer.inHand, waiting]
  unfold Coalescer.receive
  dsimp only
  split
  · rw [held_flush]
    · exact taken
    · exact waiting
  · exact taken

/-- Closing the input loses nothing of what is held. -/
theorem held_inputClosed (waiting : self.phase = .waiting) :
    self.inputClosed.held = self.held := by
  unfold Coalescer.inputClosed
  split
  · simp [Coalescer.held, Coalescer.inHand, waiting]
  · simp [Coalescer.held, Coalescer.inHand, waiting]

/-- Closing the input empties the buffer. -/
theorem buf_inputClosed (self : Coalescer) : self.inputClosed.buf = [] := by
  -- What is left is shipped, and if nothing is left the buffer is empty.
  unfold Coalescer.inputClosed
  split
  · rename_i empty
    exact List.isEmpty_iff.mp empty
  · rfl

/-- A frame that is sent was the first of what was held. -/
theorem held_sent {frame : Bytes} {last : Bool} (sending : self.phase = .sending frame last) :
    self.held = frame ++ self.sent.held := by
  cases last with
  | false => simp [Coalescer.held, Coalescer.inHand, Coalescer.sent, sending]
  | true => simp [Coalescer.held, Coalescer.inHand, Coalescer.sent, sending]

end Laws

end TermStream

end Tern
