import Mathlib.Algebra.BigOperators.Group.List.Basic
import Mathlib.Algebra.GroupWithZero.Nat
import Tern.Base.System
import Tern.TermStream.Coalescer

/-! The webview's end of a session: flow control by counting the bytes that are not parsed yet. -/

namespace Tern.Webview

open TermStream (countNewlines)

/-- Above this many pending bytes the producer is paused. -/
def highWatermark : Int := 384 * 1024

/-- Below this many pending bytes a paused producer is resumed. -/
def lowWatermark : Int := 64 * 1024

/-- The flow state of a session, and the counters beside it. -/
structure FlowStats where
  pendingBytes : Int
  maxPending : Int
  pauseCount : Nat
  recvBytes : Nat
  recvFrames : Nat
  parsedBytes : Nat
  jsNewlines : Nat
  paused : Bool
  deriving DecidableEq, Repr

/-- The commands by which the webview throttles the producer. -/
inductive FlowCommand where
  | pause
  | resume
  deriving DecidableEq, Repr

/-- A session as the webview holds it. -/
structure TermSession where
  /-- Empty until the call that opens the session has returned. -/
  id : String
  flow : FlowStats
  /-- The frames given to the terminal whose write callback has not fired yet. -/
  unparsed : List Bytes
  /-- The commands invoked so far, in order. -/
  invoked : List FlowCommand
  deriving DecidableEq, Repr

/-- A session before its first frame. -/
def TermSession.new : TermSession where
  id := ""
  flow := ⟨0, 0, 0, 0, 0, 0, 0, false⟩
  unparsed := []
  invoked := []

/-- A command is only invoked once the session's id is known. -/
def TermSession.invoke (self : TermSession) (command : FlowCommand) : TermSession :=
  if self.id = "" then self else { self with invoked := self.invoked ++ [command] }

/-- The write callback of a frame. -/
def TermSession.parsed (self : TermSession) (bytes : Bytes) : TermSession :=
  let flow := { self.flow with
    pendingBytes := self.flow.pendingBytes - bytes.length
    parsedBytes := self.flow.parsedBytes + bytes.length }
  -- A resume is due only below the lower mark, so that the two do not alternate per frame.
  if flow.paused ∧ flow.pendingBytes < lowWatermark then
    { self with flow := { flow with paused := false } }.invoke .resume
  else { self with flow := flow }

/-- The callback of the frame at a place among the unparsed ones fires. -/
def TermSession.fire (self : TermSession) (index : Nat) : Option TermSession :=
  self.unparsed[index]?.map fun bytes =>
    { self with unparsed := self.unparsed.eraseIdx index }.parsed bytes

/-- The first half of taking a frame in: it is counted and handed to the terminal. -/
def TermSession.hand (self : TermSession) (bytes : Bytes) : TermSession :=
  let pending := self.flow.pendingBytes + bytes.length
  { self with
    flow := { self.flow with
      recvBytes := self.flow.recvBytes + bytes.length
      recvFrames := self.flow.recvFrames + 1
      jsNewlines := self.flow.jsNewlines + countNewlines bytes
      pendingBytes := pending
      maxPending := if self.flow.maxPending < pending then pending else self.flow.maxPending }
    unparsed := self.unparsed ++ [bytes] }

/-- The second half: a backlog above the mark pauses the producer. -/
def TermSession.throttle (self : TermSession) : TermSession :=
  if self.flow.paused = false ∧ highWatermark < self.flow.pendingBytes then
    { self with
      flow := { self.flow with
        paused := true, pauseCount := self.flow.pauseCount + 1 } }.invoke .pause
  else self

/-- A frame is taken in, while the terminal may fire callbacks from inside its write. -/
def TermSession.ingest (self : TermSession) (bytes : Bytes) (fired : List Nat) :
    Option TermSession :=
  (fired.foldlM TermSession.fire (self.hand bytes)).map TermSession.throttle

/-- The live flow state is cleared. -/
def TermSession.resetFlowState (self : TermSession) : TermSession :=
  -- Frames in the terminal are left there, and their callbacks still fire.
  { self with flow := { self.flow with pendingBytes := 0, paused := false } }

/-- The counters are cleared, and the live state is left. -/
def TermSession.resetJsStats (self : TermSession) : TermSession :=
  { self with
    flow := { self.flow with
      maxPending := 0
      pauseCount := 0
      recvBytes := 0
      recvFrames := 0
      parsedBytes := 0
      jsNewlines := 0 } }

section Accounting

/-- What can happen to a session's counters. -/
inductive FlowAction where
  /-- The call that opens the session returns its id. -/
  | opened (id : String)
  /-- A frame arrives, and the callbacks at some places fire while it is written. -/
  | frame (bytes : Bytes) (fired : List Nat)
  /-- A write callback fires. -/
  | parsed (index : Nat)
  | resetJsStats
  /-- The event that a reconnect is under way resets both parts. -/
  | reconnecting

/-- The session after one action. -/
def flowStep (session : TermSession) : FlowAction → Option TermSession
  | .opened id => some { session with id }
  | .frame bytes fired => session.ingest bytes fired
  | .parsed index => session.fire index
  | .resetJsStats => some session.resetJsStats
  | .reconnecting => some session.resetFlowState.resetJsStats

/-- The total length of the frames whose callback has not fired yet. -/
def TermSession.backlog (self : TermSession) : Int :=
  ((self.unparsed.map List.length).sum : Nat)

/-- The counter is the true backlog, and so never negative. -/
def Accounted (session : TermSession) : Prop :=
  session.flow.pendingBytes = session.backlog ∧ 0 ≤ session.flow.pendingBytes

/-- A reconnect finds no byte that still waits to be parsed. -/
def ResetsIdle (session : TermSession) : FlowAction → Prop
  | .reconnecting => session.backlog = 0
  | _ => True

/-- Invoking a command leaves the counters and the frames alone. -/
@[simp] theorem flow_invoke (session : TermSession) (command : FlowCommand) :
    (session.invoke command).flow = session.flow := by
  unfold TermSession.invoke
  split
  · rfl
  · rfl

/-- Invoking a command leaves the frames alone. -/
@[simp] theorem unparsed_invoke (session : TermSession) (command : FlowCommand) :
    (session.invoke command).unparsed = session.unparsed := by
  unfold TermSession.invoke
  split
  · rfl
  · rfl

/-- A callback takes its frame's length off the counter, resumed or not. -/
@[simp] theorem pendingBytes_parsed (session : TermSession) (bytes : Bytes) :
    (session.parsed bytes).flow.pendingBytes = session.flow.pendingBytes - bytes.length := by
  -- The command that may be sent does not count.
  unfold TermSession.parsed
  dsimp only
  split
  · rw [flow_invoke]
  · rfl

/-- A callback touches no other frame. -/
@[simp] theorem unparsed_parsed (session : TermSession) (bytes : Bytes) :
    (session.parsed bytes).unparsed = session.unparsed := by
  -- The command that may be sent is no frame.
  unfold TermSession.parsed
  dsimp only
  split
  · rw [unparsed_invoke]
  · rfl

/-- Pausing leaves the counter alone. -/
@[simp] theorem pendingBytes_throttle (session : TermSession) :
    session.throttle.flow.pendingBytes = session.flow.pendingBytes := by
  unfold TermSession.throttle
  split
  · rw [flow_invoke]
  · rfl

/-- Pausing leaves the frames alone. -/
@[simp] theorem unparsed_throttle (session : TermSession) :
    session.throttle.unparsed = session.unparsed := by
  unfold TermSession.throttle
  split
  · rw [unparsed_invoke]
  · rfl

/-- A true backlog is never negative, so that equality is all there is to check. -/
theorem accounted_iff (session : TermSession) :
    Accounted session ↔ session.flow.pendingBytes = session.backlog := by
  refine ⟨And.left, fun same => ⟨same, ?_⟩⟩
  rw [same]
  exact Int.natCast_nonneg _

/-- A frame that is handed to the terminal is counted. -/
theorem accounted_hand {session : TermSession} (accounted : Accounted session) (bytes : Bytes) :
    Accounted (session.hand bytes) := by
  rw [accounted_iff] at accounted ⊢
  -- The frame is added to both sides at once.
  simp only [TermSession.hand, TermSession.backlog] at accounted ⊢
  rw [accounted]
  simp

/-- A callback that fires takes off what its frame had added. -/
theorem accounted_fire {session next : TermSession} {index : Nat} (accounted : Accounted session)
    (fired : session.fire index = some next) : Accounted next := by
  obtain ⟨bytes, found, rfl⟩ := Option.map_eq_some_iff.mp fired
  obtain ⟨inside, same⟩ := List.getElem?_eq_some_iff.mp found
  rw [accounted_iff] at accounted ⊢
  simp only [TermSession.backlog, pendingBytes_parsed, unparsed_parsed] at accounted ⊢
  -- The lengths before are those of the frames that stay, and the one that was parsed.
  have lengths : (session.unparsed.map List.length).sum =
      ((session.unparsed.eraseIdx index).map List.length).sum + bytes.length := by
    have split := List.CommMonoid.add_sum_eraseIdx (l := session.unparsed.map List.length)
      (i := index) (by simpa using inside)
    rw [List.eraseIdx_map, List.getElem_map, same] at split
    omega
  rw [accounted, lengths]
  push_cast
  omega

/-- A frame is taken in, and whatever fires meanwhile is taken off. -/
theorem accounted_ingest {session next : TermSession} {bytes : Bytes} {fired : List Nat}
    (accounted : Accounted session) (taken : session.ingest bytes fired = some next) :
    Accounted next := by
  obtain ⟨written, fires, rfl⟩ := Option.map_eq_some_iff.mp taken
  have all : Accounted written := by
    -- The induction is on the callbacks that fire from inside the write.
    have start := accounted_hand accounted bytes
    clear taken
    generalize session.hand bytes = handed at fires start
    induction fired generalizing handed with
    | nil =>
      cases fires
      exact start
    | cons index rest ih =>
      rw [List.foldlM_cons] at fires
      obtain ⟨middle, first, onward⟩ := Option.bind_eq_some_iff.mp fires
      exact ih middle onward (accounted_fire start first)
  rw [accounted_iff] at all ⊢
  simpa [TermSession.backlog] using all

/-- A reset keeps the count true exactly when there is nothing left to parse. -/
theorem accounted_reconnecting {session : TermSession} :
    Accounted session.resetFlowState.resetJsStats ↔ session.backlog = 0 := by
  rw [accounted_iff]
  exact eq_comm

/-- One action keeps the count true exactly when it resets no backlog. -/
theorem accounted_step {session next : TermSession} {action : FlowAction}
    (accounted : Accounted session) (taken : flowStep session action = some next) :
    Accounted next ↔ ResetsIdle session action := by
  -- Only a reset puts the counter back while frames may still be on their way.
  cases action with
  | opened id =>
    cases taken
    exact iff_of_true accounted trivial
  | frame bytes fired => exact iff_of_true (accounted_ingest accounted taken) trivial
  | parsed index => exact iff_of_true (accounted_fire accounted taken) trivial
  | resetJsStats =>
    cases taken
    exact iff_of_true accounted trivial
  | reconnecting =>
    cases taken
    exact accounted_reconnecting

/--
The counter is the true backlog in every state of a run
exactly when every reconnect finds all bytes parsed.
-/
theorem pending_accounted_iff (actions : List FlowAction) :
    System.Throughout flowStep Accounted TermSession.new actions ↔
      System.Meets flowStep ResetsIdle TermSession.new actions := by
  apply System.throughout_iff_meets id
  · exact fun accounted taken allowed => (accounted_step accounted taken).mpr allowed
  · exact fun accounted taken outside => mt (accounted_step accounted taken).mp outside
  · intro session action refused
    -- A reset is never refused, and nothing else is guarded.
    cases action with
    | opened id => trivial
    | frame bytes fired => trivial
    | parsed index => trivial
    | resetJsStats => trivial
    | reconnecting => cases refused
  · exact (accounted_iff _).mpr rfl

/-- A reconnect while a frame of one byte is on its way through the terminal. -/
def resetInFlight : List FlowAction := [.frame [0x61] [], .reconnecting, .parsed 0]

/-- The late callback takes its byte off a counter that no longer holds it. -/
theorem pending_negative_after_reset :
    (∃ final, System.run flowStep TermSession.new resetInFlight = some final ∧
      final.flow.pendingBytes = -1 ∧ final.backlog = 0) ∧
    ¬System.Throughout flowStep Accounted TermSession.new resetInFlight := by
  refine ⟨⟨_, rfl, rfl, rfl⟩, ?_⟩
  intro throughout
  -- Already the reset itself leaves a counter below the backlog.
  have after := (((throughout.2 _ rfl).2 _ rfl).1).1
  exact absurd after (by decide)

end Accounting

end Tern.Webview
