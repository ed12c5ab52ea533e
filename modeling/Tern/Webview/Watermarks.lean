import Mathlib.Data.Int.Order.Basic
import Tern.Base.Hysteresis
import Tern.Webview.TermSession

/-! The two watermarks: while a transport lives, the backlog switches the producer off and on. -/

namespace Tern.Webview

open Hysteresis (Latch Reading)

/-- A session on one transport, between two entries of the terminal into it. -/
structure Streaming where
  session : TermSession
  /-- A frame has been handed to the terminal, whose write has not returned. -/
  writing : Bool
  deriving DecidableEq, Repr

/-- A session whose id is known, before the first frame of its transport. -/
def Streaming.start (id : String) : Streaming := ⟨{ TermSession.new with id }, false⟩

/-- What happens to a session while its transport lives. -/
inductive Moment where
  /-- A frame arrives, and the terminal is told to write it. -/
  | write (bytes : Bytes)
  /-- A write callback fires, from inside a write or between two of them. -/
  | parsed (index : Nat)
  /-- The write returns, and the rest of the frame's ingest runs. -/
  | written
  deriving DecidableEq, Repr

/-- The session after one moment. -/
def momentStep (state : Streaming) : Moment → Option Streaming
  | .write bytes =>
    -- Frames are taken in one at a time.
    if state.writing then none else some ⟨state.session.hand bytes, true⟩
  | .parsed index => (state.session.fire index).map fun session => { state with session }
  | .written => if state.writing then some ⟨state.session.throttle, false⟩ else none

/-- The command that is due at a moment, by the backlog that it leaves. -/
def dueCommand (paused : Bool) (pending : Int) : Moment → List FlowCommand
  | .write _ => []
  | .parsed _ => if paused = true ∧ pending < lowWatermark then [.resume] else []
  | .written => if paused = false ∧ highWatermark < pending then [.pause] else []

/-- Taking a frame in is a write, the callbacks that fire in it, and the rest. -/
theorem ingest_eq_run (session : TermSession) (bytes : Bytes) (fired : List Nat) :
    System.run momentStep ⟨session, false⟩ (.write bytes :: fired.map .parsed ++ [.written]) =
      (session.ingest bytes fired).map fun next => ⟨next, false⟩ := by
  have written (handed : TermSession) :
      System.run momentStep ⟨handed, true⟩ (fired.map .parsed ++ [.written]) =
        (fired.foldlM TermSession.fire handed).map fun next =>
          (⟨next.throttle, false⟩ : Streaming) := by
    -- The induction is on the callbacks that fire from inside the write.
    induction fired generalizing handed with
    | nil => rfl
    | cons index rest ih =>
      rw [List.map_cons, List.cons_append, System.run, List.foldlM_cons]
      cases parsed : handed.fire index with
      | none => simp [momentStep, parsed]
      | some next => simp [momentStep, parsed, ih]
  show System.run momentStep ⟨session.hand bytes, true⟩ (fired.map .parsed ++ [.written]) = _
  rw [written, TermSession.ingest, Option.map_map]
  rfl

section Latching

variable {session : TermSession}

/-- Whether a command switches the producer off. -/
def FlowCommand.isPause : FlowCommand → Bool
  | .pause => true
  | .resume => false

/-- The latch of a session: what it believes, and what it has told the producer. -/
def TermSession.latch (self : TermSession) : Latch where
  on := self.flow.paused
  switched := self.invoked.map FlowCommand.isPause

/-- A session whose id is known sends its commands. -/
theorem invoked_invoke (known : session.id ≠ "") (command : FlowCommand) :
    (session.invoke command).invoked = session.invoked ++ [command] := by
  unfold TermSession.invoke
  rw [if_neg known]

/-- A command that is sent is the latest switch of the latch. -/
theorem latch_invoke (known : session.id ≠ "") (command : FlowCommand) :
    (session.invoke command).latch =
      ⟨session.flow.paused, session.latch.switched ++ [command.isPause]⟩ := by
  simp [TermSession.latch, invoked_invoke known]

/-- A command leaves the id alone. -/
@[simp] theorem id_invoke (session : TermSession) (command : FlowCommand) :
    (session.invoke command).id = session.id := by
  unfold TermSession.invoke
  split
  · rfl
  · rfl

/-- A callback sends the command that is due, and reads the backlog that it leaves. -/
theorem latch_parsed (known : session.id ≠ "") (bytes : Bytes) :
    (session.parsed bytes).latch = session.latch.read lowWatermark highWatermark
      (.falling (session.flow.pendingBytes - bytes.length)) := by
  -- The resume is due in just the case in which the latch goes off.
  unfold TermSession.parsed
  simp only [Latch.read]
  split
  · rename_i due
    rw [if_pos (show session.latch.on = true ∧ _ from due)]
    refine latch_invoke ?_ .resume
    exact known
  · rename_i idle
    rw [if_neg (show ¬(session.latch.on = true ∧ _) from idle)]
    rfl

/-- The end of a frame's ingest sends the command that is due, and reads the backlog. -/
theorem latch_throttle (known : session.id ≠ "") :
    session.throttle.latch = session.latch.read lowWatermark highWatermark
      (.rising session.flow.pendingBytes) := by
  -- The pause is due in just the case in which the latch goes on.
  unfold TermSession.throttle
  simp only [Latch.read]
  split
  · rename_i due
    rw [if_pos (show session.latch.on = false ∧ _ from due)]
    refine latch_invoke ?_ .pause
    exact known
  · rename_i idle
    rw [if_neg (show ¬(session.latch.on = false ∧ _) from idle)]

/-- A callback counts its frame as parsed, and keeps the id and the frames received. -/
theorem parsed_counters (session : TermSession) (bytes : Bytes) :
    (session.parsed bytes).id = session.id ∧
    (session.parsed bytes).flow.parsedBytes = session.flow.parsedBytes + bytes.length ∧
    (session.parsed bytes).flow.recvBytes = session.flow.recvBytes := by
  -- The command that may be sent changes none of these.
  unfold TermSession.parsed
  dsimp only
  split
  · simp
  · exact ⟨rfl, rfl, rfl⟩

/-- The end of a frame's ingest counts nothing. -/
theorem throttle_counters (session : TermSession) :
    session.throttle.id = session.id ∧
    session.throttle.flow.parsedBytes = session.flow.parsedBytes ∧
    session.throttle.flow.recvBytes = session.flow.recvBytes := by
  unfold TermSession.throttle
  split
  · simp
  · exact ⟨rfl, rfl, rfl⟩

end Latching

section Streams

/-- What holds of a session for as long as its transport lives. -/
structure Latched (state : Streaming) : Prop where
  known : state.session.id ≠ ""
  regular : state.session.latch.Regular
  accounted : Accounted state.session
  balanced : state.session.flow.parsedBytes + state.session.flow.pendingBytes =
    state.session.flow.recvBytes
  /-- A producer that is off waits for a backlog that has still to fall. -/
  held : state.session.flow.paused = true → lowWatermark ≤ state.session.flow.pendingBytes

variable {state next : Streaming} {moment : Moment}

/-- A latch that is on after a level fell was on before, and the level is not below the mark. -/
theorem on_of_falling {latch : Latch} {level : Int}
    (on : (latch.read lowWatermark highWatermark (.falling level)).on = true) :
    lowWatermark ≤ level := by
  -- A latch that is still on was not below the mark.
  simp only [Latch.read] at on
  split at on
  · cases on
  · rename_i idle
    exact not_lt.mp fun below => idle ⟨on, below⟩

/-- A latch that is on after a level rose was on before, or the level is above the other mark. -/
theorem on_of_rising {latch : Latch} {level : Int}
    (on : (latch.read lowWatermark highWatermark (.rising level)).on = true) :
    latch.on = true ∨ highWatermark < level := by
  -- A latch goes on only above the mark.
  simp only [Latch.read] at on
  split at on
  · rename_i due
    exact .inr due.2
  · exact .inl on

/-- Every moment sends exactly the command that is due at it. -/
theorem invoked_step (known : state.session.id ≠ "")
    (taken : momentStep state moment = some next) :
    next.session.invoked = state.session.invoked ++
      dueCommand state.session.flow.paused next.session.flow.pendingBytes moment := by
  cases moment with
  | write bytes =>
    obtain ⟨-, same⟩ := Option.ite_none_left_eq_some.mp taken
    cases same
    exact (List.append_nil _).symm
  | parsed index =>
    obtain ⟨session, fired, rfl⟩ := Option.map_eq_some_iff.mp taken
    obtain ⟨bytes, -, rfl⟩ := Option.map_eq_some_iff.mp fired
    rw [pendingBytes_parsed]
    -- Only a resume can be due here, with the backlog down at the low mark.
    unfold TermSession.parsed dueCommand
    dsimp only
    split
    · refine invoked_invoke ?_ .resume
      exact known
    · exact (List.append_nil _).symm
  | written =>
    obtain ⟨-, same⟩ := Option.ite_none_right_eq_some.mp taken
    cases same
    rw [pendingBytes_throttle]
    -- Only a pause can be due here, above the high mark.
    unfold TermSession.throttle dueCommand
    dsimp only
    split
    · refine invoked_invoke ?_ .pause
      exact known
    · exact (List.append_nil _).symm

/-- One moment keeps the latch, and the balance of the bytes. -/
theorem latched_step (latched : Latched state) (taken : momentStep state moment = some next) :
    Latched next := by
  have balanced := latched.balanced
  cases moment with
  | write bytes =>
    obtain ⟨-, same⟩ := Option.ite_none_left_eq_some.mp taken
    cases same
    -- A frame that comes in only raises the backlog.
    have pending : (state.session.hand bytes).flow.pendingBytes =
        state.session.flow.pendingBytes + bytes.length := rfl
    have received : (state.session.hand bytes).flow.recvBytes =
        state.session.flow.recvBytes + bytes.length := rfl
    refine ⟨latched.known, latched.regular, accounted_hand latched.accounted bytes, ?_, ?_⟩
    · show (state.session.flow.parsedBytes : Int) + _ = _
      rw [pending, received]
      omega
    · intro paused
      -- The backlog of a paused session was at the low mark or above, and only grows here.
      have held := latched.held paused
      rw [pending]
      omega
  | parsed index =>
    obtain ⟨session, fired, rfl⟩ := Option.map_eq_some_iff.mp taken
    have accounted := accounted_fire latched.accounted fired
    obtain ⟨bytes, -, rfl⟩ := Option.map_eq_some_iff.mp fired
    -- The bytes of the frame go from the backlog to those that are parsed.
    obtain ⟨id_, parsed, received⟩ := parsed_counters
      { state.session with unparsed := state.session.unparsed.eraseIdx index } bytes
    have latch := @latch_parsed { state.session with
      unparsed := state.session.unparsed.eraseIdx index } latched.known bytes
    refine ⟨?_, ?_, accounted, ?_, ?_⟩
    · rw [id_]
      exact latched.known
    · rw [latch]
      -- The latch is read again, and a reading keeps it regular.
      exact latched.regular.read _ _ _
    · rw [parsed, received, pendingBytes_parsed]
      push_cast
      omega
    · intro paused
      rw [pendingBytes_parsed]
      have on : (TermSession.latch _).on = true := paused
      rw [latch] at on
      -- The flag is still on only while the backlog is not below the low mark.
      exact on_of_falling on
  | written =>
    obtain ⟨-, same⟩ := Option.ite_none_right_eq_some.mp taken
    cases same
    -- The throttle moves no bytes, so that only the latch is to be looked at.
    obtain ⟨id_, parsed, received⟩ := throttle_counters state.session
    have latch := latch_throttle latched.known
    refine ⟨?_, ?_, ?_, ?_, ?_⟩
    · rw [id_]
      exact latched.known
    · rw [latch]
      exact latched.regular.read _ _ _
    · rw [accounted_iff, pendingBytes_throttle, TermSession.backlog, unparsed_throttle]
      exact (accounted_iff _).mp latched.accounted
    · rw [parsed, received, pendingBytes_throttle]
      exact balanced
    · intro paused
      rw [pendingBytes_throttle]
      have on : (TermSession.latch _).on = true := paused
      rw [latch] at on
      -- A backlog above the high mark is above the low one too.
      rcases on_of_rising on with before | above
      · exact latched.held before
      · exact le_of_lt (lt_of_le_of_lt (by decide) above)

/-- A transport begins with an empty backlog and a producer that is on. -/
theorem latched_start {id : String} (known : id ≠ "") : Latched (.start id) := by
  refine ⟨known, Hysteresis.Latch.regular_off, (accounted_iff _).mpr rfl, rfl, ?_⟩
  intro paused
  cases paused

/-- The first command that a latch stands for is a pause. -/
theorem Latched.first_pause (latched : Latched state) {command : FlowCommand}
    (first : state.session.invoked.head? = some command) : command = .pause := by
  have on := latched.regular.first command.isPause (by simp [TermSession.latch, first])
  cases command with
  | pause => rfl
  | resume => cases on

/-- No command is sent twice in a row. -/
theorem Latched.turns (latched : Latched state) : state.session.invoked.IsChain (· ≠ ·) := by
  have turns := latched.regular.turns
  rw [TermSession.latch, List.isChain_map] at turns
  exact turns.imp fun _ _ apart same => apart (by rw [same])

/-- The session is paused exactly while its last command is a pause. -/
theorem Latched.paused_iff (latched : Latched state) :
    state.session.flow.paused = true ↔ state.session.invoked.getLast? = some .pause := by
  -- The latch is the flag, and its last turn is the last command.
  have last := latched.regular.last
  rw [TermSession.latch, List.getLast?_map] at last
  rw [show state.session.flow.paused = _ from last.symm]
  cases state.session.invoked.getLast? with
  | none => simp
  | some command =>
    cases command with
    | pause => simp [FlowCommand.isPause]
    | resume => simp [FlowCommand.isPause]

/-- Once every frame is parsed, the producer is on. -/
theorem Latched.resumed (latched : Latched state) (parsed : state.session.unparsed = []) :
    state.session.flow.paused = false := by
  -- The backlog is empty then, and a paused session has more than the low mark in it.
  by_contra paused
  rw [Bool.not_eq_false] at paused
  have held := latched.held paused
  rw [latched.accounted.1, TermSession.backlog, parsed] at held
  exact absurd held (by decide)

/--
For every order of frames and callbacks on a transport whose session id is known,
pauses and resumes take turns, each is sent exactly when its watermark asks for it,
and a stream that is fully parsed is not paused.
-/
theorem watermark_hysteresis (id : String) (known : id ≠ "") (moments : List Moment)
    (final : Streaming) (ran : System.run momentStep (.start id) moments = some final) :
    (∀ command, final.session.invoked.head? = some command → command = .pause) ∧
    final.session.invoked.IsChain (· ≠ ·) ∧
    (∀ moment next, momentStep final moment = some next →
      next.session.invoked = final.session.invoked ++
        dueCommand final.session.flow.paused next.session.flow.pendingBytes moment) ∧
    (final.session.flow.paused = true ↔ final.session.invoked.getLast? = some .pause) ∧
    (final.session.unparsed = [] → final.session.flow.paused = false) ∧
    final.session.flow.parsedBytes + final.session.flow.pendingBytes =
      final.session.flow.recvBytes := by
  -- One invariant carries all six facts, and holds after every run.
  have latched : Latched final := System.run_preserves latched_step (latched_start known) ran
  exact ⟨fun _ => latched.first_pause, latched.turns, fun _ _ => invoked_step latched.known,
    latched.paused_iff, latched.resumed, latched.balanced⟩

/-- A long frame, parsed while a short one is written, and another short one. -/
def flooded (long : Bytes) : List Moment :=
  [.write long, .written, .write [0x62], .parsed 0, .written, .write [0x63], .parsed 0,
    .parsed 0, .written]

/-- The long frame pauses the producer, and its callback resumes it from inside the next write. -/
theorem run_flooded {long : Bytes} (above : long.length = 400000) :
    ∃ final, System.run momentStep (.start "session") (flooded long) = some final ∧
      final.session.invoked = [.pause, .resume] ∧ final.session.unparsed = [] := by
  simp [flooded, System.run, momentStep, Streaming.start, TermSession.new, TermSession.hand,
    TermSession.fire, TermSession.parsed, TermSession.throttle, TermSession.invoke,
    highWatermark, lowWatermark, above]

/-- A flood of 400000 bytes is not paused any more once it is parsed. -/
theorem watermark_hysteresis_flooded :
    ∃ final,
      System.run momentStep (.start "session") (flooded (List.replicate 400000 0x61)) =
        some final ∧
      final.session.invoked = [.pause, .resume] ∧ final.session.flow.paused = false := by
  obtain ⟨final, ran, invoked, parsed⟩ :=
    @run_flooded (List.replicate 400000 0x61) List.length_replicate
  refine ⟨final, ran, invoked, ?_⟩
  exact (watermark_hysteresis "session" (by decide) _ final ran).2.2.2.2.1 parsed

end Streams

end Tern.Webview
