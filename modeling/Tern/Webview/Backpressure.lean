import Tern.Webview.TermSession

/-! A session whose frames arrive before the call that opens it returns: what its backlog is
told. -/

namespace Tern.Webview

section Opening

/--
The session after one action, where the call that opens it returns once.

The id it returns is never empty, and it is the id that every later command carries.
-/
def sessionStep (session : TermSession) (action : FlowAction) : Option TermSession :=
  match action with
  | .opened id => if session.id = "" ∧ id ≠ "" then some { session with id } else none
  | action => flowStep session action

/-- A session that is paused has told the backend so, and has not taken it back. -/
def PauseStands (session : TermSession) : Prop :=
  session.flow.paused = true → ∃ earlier later,
    session.invoked = earlier ++ .pause :: later ∧ .resume ∉ later

/-- The bytes of the frames at some places, which leave their places one after another. -/
def firedBytes : List Bytes → List Nat → Option Nat
  | _, [] => some 0
  | frames, index :: rest =>
    frames[index]?.bind fun bytes =>
      (firedBytes (frames.eraseIdx index) rest).map fun others => bytes.length + others

/-- No frame ends its ingest with a backlog above the mark while the id is not known. -/
def KnownWhenFull (session : TermSession) : FlowAction → Prop
  | .frame bytes fired =>
    session.id = "" → ∀ parsed ∈ firedBytes (session.unparsed ++ [bytes]) fired,
      session.flow.pendingBytes + bytes.length - parsed ≤ highWatermark
  | _ => True

/-- What holds of a session whose backlog never filled up unheard. -/
structure Informed (session : TermSession) : Prop where
  /-- The last command tells whether the session is paused. -/
  latest : session.flow.paused = true → session.invoked.getLast? = some .pause
  /-- Without an id nothing was sent. -/
  silent : session.id = "" → session.invoked = []

variable {session next : TermSession}

/-- A session whose last command is a pause has a pause that stands. -/
theorem Informed.stands (informed : Informed session) : PauseStands session := by
  intro paused
  obtain ⟨earlier, split⟩ := List.getLast?_eq_some_iff.mp (informed.latest paused)
  exact ⟨earlier, [], split, List.not_mem_nil⟩

/-- Before its id is known, a session is not paused. -/
theorem Informed.unpaused (informed : Informed session) (unknown : session.id = "") :
    session.flow.paused = false := by
  by_contra paused
  rw [Bool.not_eq_false] at paused
  -- A pause would have to be the last of no commands at all.
  have last := informed.latest paused
  rw [informed.silent unknown] at last
  cases last

/-- A callback either leaves the latch and the commands alone, or switches the producer on. -/
theorem parsed_cases (session : TermSession) (bytes : Bytes) :
    (session.parsed bytes).id = session.id ∧
      ((session.parsed bytes).flow.paused = false ∧ session.flow.paused = true ∨
        (session.parsed bytes).flow.paused = session.flow.paused ∧
          (session.parsed bytes).invoked = session.invoked) := by
  unfold TermSession.parsed TermSession.invoke
  dsimp only
  split
  · rename_i due
    -- Whether or not the resume is sent, the latch is off.
    split
    · exact ⟨rfl, .inl ⟨rfl, due.1⟩⟩
    · exact ⟨rfl, .inl ⟨rfl, due.1⟩⟩
  · exact ⟨rfl, .inr ⟨rfl, rfl⟩⟩

/-- A callback keeps a session informed, and its id. -/
theorem Informed.fire {index : Nat} (informed : Informed session)
    (fired : session.fire index = some next) : Informed next ∧ next.id = session.id := by
  obtain ⟨bytes, -, rfl⟩ := Option.map_eq_some_iff.mp fired
  obtain ⟨id_, cases_⟩ :=
    parsed_cases { session with unparsed := session.unparsed.eraseIdx index } bytes
  refine ⟨⟨?_, ?_⟩, id_⟩
  · rcases cases_ with ⟨off, -⟩ | ⟨same, sent⟩
    · intro paused
      rw [off] at paused
      cases paused
    · -- Where the flag stays, nothing is sent either.
      rw [same, sent]
      exact informed.latest
  · intro unknown
    rw [id_] at unknown
    rcases cases_ with ⟨-, on⟩ | ⟨-, sent⟩
    · -- Only a paused session is resumed, and without an id none is.
      exact absurd (informed.unpaused unknown) (by simp [show session.flow.paused = true from on])
    · rw [sent]
      exact informed.silent unknown

/-- The callbacks that fire inside a write keep a session informed, and count their bytes. -/
theorem Informed.fires {fired : List Nat} (informed : Informed session)
    (done : fired.foldlM TermSession.fire session = some next) :
    Informed next ∧ next.id = session.id ∧ ∃ parsed,
      firedBytes session.unparsed fired = some parsed ∧
      next.flow.pendingBytes = session.flow.pendingBytes - parsed := by
  -- The induction is on the callbacks, and the frames that are left move along with it.
  induction fired generalizing session with
  | nil =>
    cases done
    exact ⟨informed, rfl, 0, rfl, (sub_zero _).symm⟩
  | cons index rest ih =>
    rw [List.foldlM_cons] at done
    obtain ⟨middle, first, onward⟩ := Option.bind_eq_some_iff.mp done
    obtain ⟨between, named⟩ := informed.fire first
    -- What is parsed by one callback and by the rest adds up.
    obtain ⟨final, same, parsed, counted, pending⟩ := ih between onward
    obtain ⟨bytes, found, rfl⟩ := Option.map_eq_some_iff.mp first
    rw [unparsed_parsed] at counted
    rw [pendingBytes_parsed] at pending
    refine ⟨final, same.trans named, bytes.length + parsed, ?_, ?_⟩
    · rw [firedBytes, found, Option.bind_some, counted]
      rfl
    · rw [pending]
      push_cast
      omega

/-- Callbacks whose places hold frames can fire. -/
theorem fires_of_counted {fired : List Nat} {parsed : Nat}
    (counted : firedBytes session.unparsed fired = some parsed) :
    ∃ next, fired.foldlM TermSession.fire session = some next := by
  induction fired generalizing session parsed with
  | nil => exact ⟨session, rfl⟩
  | cons index rest ih =>
    obtain ⟨bytes, found, others⟩ := Option.bind_eq_some_iff.mp counted
    obtain ⟨left, onward, -⟩ := Option.map_eq_some_iff.mp others
    have first : session.fire index = some
        ({ session with unparsed := session.unparsed.eraseIdx index }.parsed bytes) := by
      rw [TermSession.fire, found]
      rfl
    rw [List.foldlM_cons, first]
    -- The callback leaves the frames that the others are counted among.
    exact ih (by rw [unparsed_parsed]; exact onward)

/-- Handing a frame to the terminal changes neither the latch nor the commands. -/
theorem Informed.hand (informed : Informed session) (bytes : Bytes) :
    Informed (session.hand bytes) :=
  ⟨informed.latest, informed.silent⟩

/-- The end of a frame's ingest pauses a full session, and says so when there is an id. -/
theorem throttle_of_full (off : session.flow.paused = false)
    (full : highWatermark < session.flow.pendingBytes) :
    session.throttle.id = session.id ∧ session.throttle.flow.paused = true ∧
      session.throttle.invoked =
        if session.id = "" then session.invoked else session.invoked ++ [.pause] := by
  -- The session has just gone above the mark while it was not paused, so it is paused now.
  unfold TermSession.throttle TermSession.invoke
  rw [if_pos ⟨off, full⟩]
  dsimp only
  split
  · exact ⟨rfl, rfl, rfl⟩
  · exact ⟨rfl, rfl, rfl⟩

/-- The end of a frame's ingest keeps a session informed when it has an id, or nothing to tell. -/
theorem Informed.throttle (informed : Informed session)
    (heard : session.id = "" → session.flow.pendingBytes ≤ highWatermark) :
    Informed session.throttle := by
  -- A pause that is due is sent, for a session without an id is not above the mark.
  by_cases due : session.flow.paused = false ∧ highWatermark < session.flow.pendingBytes
  · have known : session.id ≠ "" := by
      intro unknown
      have := heard unknown
      omega
    obtain ⟨id_, -, sent⟩ := throttle_of_full due.1 due.2
    rw [if_neg known] at sent
    refine ⟨fun _ => ?_, fun unknown => absurd (id_ ▸ unknown) known⟩
    rw [sent]
    exact List.getLast?_concat
  · rw [TermSession.throttle, if_neg due]
    exact informed

/-- A backlog above the mark that nobody is told of pauses the session all the same. -/
theorem Informed.unheard (informed : Informed session) (unknown : session.id = "")
    (full : highWatermark < session.flow.pendingBytes) : ¬PauseStands session.throttle := by
  obtain ⟨-, on, sent⟩ := throttle_of_full (informed.unpaused unknown) full
  intro stands
  obtain ⟨earlier, later, pause, -⟩ := stands on
  -- Nothing was sent at all, and so no pause either.
  rw [sent, if_pos unknown, informed.silent unknown] at pause
  exact absurd pause (by simp)

/-- Taking a frame in keeps a session informed exactly when the backlog is heard of. -/
theorem informed_ingest {bytes : Bytes} {fired : List Nat} (informed : Informed session)
    (taken : session.ingest bytes fired = some next) :
    (KnownWhenFull session (.frame bytes fired) → Informed next) ∧
      (¬KnownWhenFull session (.frame bytes fired) → ¬PauseStands next) := by
  obtain ⟨written, done, rfl⟩ := Option.map_eq_some_iff.mp taken
  obtain ⟨between, named, parsed, counted, pending⟩ := (informed.hand bytes).fires done
  -- The guard looks at the very backlog that the end of the ingest finds.
  have same : written.flow.pendingBytes = session.flow.pendingBytes + bytes.length - parsed :=
    pending
  have guard : KnownWhenFull session (.frame bytes fired) ↔
      (written.id = "" → written.flow.pendingBytes ≤ highWatermark) := by
    show (session.id = "" → ∀ some_ ∈ firedBytes (session.unparsed ++ [bytes]) fired, _) ↔ _
    rw [show firedBytes (session.unparsed ++ [bytes]) fired = some parsed from counted, same,
      show written.id = session.id from named]
    simp
  rw [guard]
  refine ⟨between.throttle, ?_⟩
  intro outside
  rw [Classical.not_imp, Int.not_le] at outside
  exact between.unheard outside.1 outside.2

/-- One action keeps a session informed when the guard allows it. -/
theorem informed_step {action : FlowAction} (informed : Informed session)
    (taken : sessionStep session action = some next) (heard : KnownWhenFull session action) :
    Informed next := by
  cases action with
  | opened id =>
    obtain ⟨⟨unknown, known⟩, same⟩ := Option.ite_none_right_eq_some.mp taken
    cases same
    -- The session was not paused before it had an id, so it has nothing to catch up on.
    refine ⟨?_, fun nameless => absurd nameless known⟩
    intro paused
    exact absurd paused (by simp [informed.unpaused unknown])
  | frame bytes fired => exact (informed_ingest informed taken).1 heard
  | parsed index => exact (informed.fire taken).1
  | resetJsStats =>
    cases taken
    exact ⟨informed.latest, informed.silent⟩
  | reconnecting =>
    cases taken
    -- A reset forgets the pause, and leaves the commands as they were sent.
    refine ⟨?_, informed.silent⟩
    intro paused
    cases paused

/--
In every interleaving of frames and callbacks with the return of the call that opens the session,
a session that is paused has told the backend so
exactly when no frame fills up its backlog while the id is still unknown.
-/
theorem backpressure_never_skipped_iff (actions : List FlowAction) :
    System.Throughout sessionStep PauseStands TermSession.new actions ↔
      System.Meets sessionStep KnownWhenFull TermSession.new actions := by
  apply System.throughout_iff_meets Informed.stands
  · exact fun informed taken heard => informed_step informed taken heard
  · intro session next action informed taken outside
    -- Only a frame can be outside the guard.
    cases action with
    | frame bytes fired => exact (informed_ingest informed taken).2 outside
    | opened id => exact absurd trivial outside
    | parsed index => exact absurd trivial outside
    | resetJsStats => exact absurd trivial outside
    | reconnecting => exact absurd trivial outside
  · intro session action refused
    cases action with
    | frame bytes fired =>
      -- A frame is refused only when a callback has no frame, and then nothing was counted.
      intro _ parsed counted
      obtain ⟨written, done⟩ := @fires_of_counted (session.hand bytes) _ _ counted
      have taken : session.ingest bytes fired = some written.throttle :=
        Option.map_eq_some_iff.mpr ⟨written, done, rfl⟩
      exact absurd (taken.symm.trans refused) (by simp)
    | opened id => trivial
    | parsed index => trivial
    | resetJsStats => trivial
    | reconnecting => trivial
  · refine ⟨?_, fun _ => rfl⟩
    intro paused
    cases paused

/-- A frame that leaves the backlog at or below the mark is only handed to the terminal. -/
theorem sessionStep_below {bytes : Bytes}
    (below : session.flow.pendingBytes + bytes.length ≤ highWatermark) :
    sessionStep session (.frame bytes []) = some (session.hand bytes) := by
  -- The backlog is not above the mark afterwards, so no command is due.
  have idle : ¬(session.flow.paused = false ∧
      highWatermark < (session.hand bytes).flow.pendingBytes) :=
    fun due => absurd due.2 (Int.not_lt.mpr below)
  show some (session.hand bytes).throttle = _
  rw [TermSession.throttle, if_neg (by exact idle)]

/-- Four long frames arrive before the call returns. -/
def floodBeforeOpening (long : Bytes) : List FlowAction :=
  [.frame long [], .frame long [], .frame long [], .frame long [], .opened "s-1"]

/-- The session ends up paused, and the backend was told nothing. -/
theorem run_floodBeforeOpening {long : Bytes} (full : long.length = 131072) :
    ∃ final, System.run sessionStep TermSession.new (floodBeforeOpening long) = some final ∧
      final.flow.paused = true ∧ final.invoked = [] := by
  have mark : highWatermark = 393216 := rfl
  -- Each frame adds its length to the backlog.
  have handed (before : TermSession) :
      (before.hand long).flow.pendingBytes = before.flow.pendingBytes + 131072 := by
    have counted : (before.hand long).flow.pendingBytes =
        before.flow.pendingBytes + long.length := rfl
    omega
  have start : TermSession.new.flow.pendingBytes = 0 := rfl
  -- Three frames fill the backlog up to the mark, and the fourth goes above it.
  rw [floodBeforeOpening, System.run_cons (sessionStep_below (by rw [full]; omega)),
    System.run_cons (sessionStep_below (by rw [full, handed]; omega)),
    System.run_cons (sessionStep_below (by rw [full, handed, handed]; omega))]
  obtain ⟨id_, on, sent⟩ := @throttle_of_full
    (((TermSession.new.hand long).hand long).hand long |>.hand long) rfl
    (by rw [handed, handed, handed, handed]; omega)
  have nameless : (((TermSession.new.hand long).hand long).hand long |>.hand long).id = "" := rfl
  -- Without an id the pause is not sent, and the id comes too late for it.
  rw [if_pos nameless] at sent
  refine ⟨{ (TermSession.hand _ long).throttle with id := "s-1" }, ?_, on, sent⟩
  rw [@System.run_cons _ _ sessionStep _ (TermSession.hand _ long).throttle _ _ rfl]
  show (if _ ∧ _ then _ else none : Option TermSession).bind _ = _
  rw [if_pos ⟨id_, by decide⟩]
  rfl

/-- The pause that was never sent is missing where the run ends. -/
theorem pause_lost_of_flood {long : Bytes} (full : long.length = 131072) :
    ¬System.Throughout sessionStep PauseStands TermSession.new (floodBeforeOpening long) := by
  -- The session ends up paused and has sent nothing at all.
  intro throughout
  obtain ⟨final, ran, paused, silent⟩ := run_floodBeforeOpening full
  obtain ⟨earlier, later, sent, -⟩ := throughout.final ran paused
  rw [silent] at sent
  exact absurd sent (by simp)

/-- A backlog of half a megabyte pauses nobody when the id comes late. -/
theorem pause_lost_before_opening :
    ¬System.Throughout sessionStep PauseStands TermSession.new
      (floodBeforeOpening (List.replicate 131072 0x61)) :=
  pause_lost_of_flood List.length_replicate

end Opening

end Tern.Webview
