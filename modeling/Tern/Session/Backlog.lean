import Tern.Session.Delivery

/-! Backpressure: how much output a session holds, whatever arrives and however long it is
paused. -/

namespace Tern.Session

open TermStream (Coalescer CoalescerConfig)

section Queues

variable {depth size : Nat} {queue : List Bytes} {chunk : Bytes}

/-- A queue holds no more entries than its depth, and none of them is longer than a size. -/
structure QueueFits (depth size : Nat) (queue : List Bytes) : Prop where
  short : queue.length ≤ depth
  small : ∀ chunk ∈ queue, chunk.length ≤ size

/-- An empty queue fits. -/
theorem queueFits_nil : QueueFits depth size [] := ⟨Nat.zero_le _, by simp⟩

/-- A queue with room takes one more entry. -/
theorem QueueFits.push (fits : QueueFits depth size queue) (room : queue.length < depth)
    (small : chunk.length ≤ size) : QueueFits depth size (queue ++ [chunk]) := by
  -- There is room for one more, and every entry is the new one or an old one.
  refine ⟨by simp; omega, ?_⟩
  intro other member
  rcases List.mem_append.mp member with earlier | last
  · exact fits.small other earlier
  · rw [List.mem_singleton.mp last]
    exact small

/-- What is left behind an entry fits as well. -/
theorem QueueFits.tail (fits : QueueFits depth size (chunk :: queue)) :
    QueueFits depth size queue := by
  have short := fits.short
  rw [List.length_cons] at short
  exact ⟨by omega, fun other member => fits.small other (List.mem_cons_of_mem _ member)⟩

/-- The bytes of a queue that fits are bounded by its depth times the size. -/
theorem QueueFits.bytes (fits : QueueFits depth size queue) :
    queue.flatten.length ≤ depth * size := by
  -- Entry by entry the size is an upper bound, and the depth bounds how many there are.
  have each : queue.flatten.length ≤ queue.length * size := by
    have small := fits.small
    clear fits
    induction queue with
    | nil => simp
    | cons chunk rest ih =>
      have first := small chunk List.mem_cons_self
      have others := ih fun other member => small other (List.mem_cons_of_mem _ member)
      rw [List.flatten_cons, List.length_append, List.length_cons, Nat.succ_mul]
      omega
  exact le_trans each (Nat.mul_le_mul_right size fits.short)

end Queues

section Bounds

/-- The longest frame: a buffer just below the limit with one more chunk of the given size. -/
def longestFrame (cfg : CoalescerConfig) (size : Nat) : Nat := cfg.maxFrame - 1 + size

/-- A coalescer whose buffer and whose frame are as short as its limit makes them. -/
structure CoalescerFits (cfg : CoalescerConfig) (size : Nat) (coalescer : Coalescer) : Prop where
  buffer : coalescer.buf.length ≤ cfg.maxFrame - 1
  hand : coalescer.inHand.length ≤ longestFrame cfg size
  /-- A frame takes the whole buffer with it. -/
  alone : coalescer.inHand ≠ [] → coalescer.buf = []

/-- A data path within its bounds. -/
structure PathFits (cfg : CoalescerConfig) (size : Nat) (path : DataPath) : Prop where
  input : QueueFits queueDepth size path.input
  coalescer : CoalescerFits cfg size path.coalescer
  frames : QueueFits queueDepth (longestFrame cfg size) path.frames
  sender : path.sender.inHand.length ≤ longestFrame cfg size

/-- A shell within its bounds, as long as its channel delivers no more than a size at once. -/
structure ShellFits (size : Nat) (shell : Shell) : Prop where
  inbox : ∀ msg ∈ shell.inbox, msg.payload.length ≤ size
  out : QueueFits queueDepth size shell.out
  hand : shell.pump.inHand.length ≤ size

/-- A shell whose pump is done and whose output was taken. -/
def Shell.Drained (shell : Shell) : Prop := shell.pump = .done ∧ shell.out = []

/-- The bytes of a shell that the program holds, those the library still has not counted. -/
def Shell.buffered (self : Shell) : Nat := self.out.flatten.length + self.pump.inHand.length

/-- The bytes of a session's output that the program holds. -/
def State.buffered (self : State) : Nat :=
  (self.shells.map Shell.buffered).sum + self.phase.inHand.length + self.path.held.length

/-- An action delivers no more than a size at once. -/
def Action.Within (size : Nat) (action : Action) : Prop :=
  ∀ index msg, action = .shell index (.arrive msg) → msg.payload.length ≤ size

/-- Everything that is held is within its bounds, and only the last generation holds anything. -/
structure Bounded (setup : Setup) (size : Nat) (state : State) : Prop where
  placed : Placed state
  shells : ∀ shell ∈ state.shells, ShellFits size shell
  drained : ∀ (index : Nat) (shell : Shell), state.shells[index]? = some shell →
    index < state.reading ∨ index = state.reading ∧ state.phase.past = true → shell.Drained
  hand : state.phase.inHand.length ≤ size
  path : PathFits setup.cfg size state.path

end Bounds

section Path

variable {cfg : CoalescerConfig} {size : Nat} {coalescer : Coalescer} {path moved : DataPath}
  {gate unfed ungated : Bool}

/-- A coalescer that makes no frame holds none. -/
theorem coalescerFits_idle (short : coalescer.buf.length ≤ cfg.maxFrame - 1)
    (idle : coalescer.inHand = []) : CoalescerFits cfg size coalescer :=
  ⟨short, by simp [idle], fun busy => absurd idle busy⟩

/-- A flush moves a buffer no longer than a frame into the hand. -/
theorem coalescerFits_flush (waiting : coalescer.phase = .waiting)
    (short : coalescer.buf.length ≤ longestFrame cfg size) :
    CoalescerFits cfg size coalescer.flush := by
  -- An empty buffer makes no frame, and any other moves into the hand as a whole.
  unfold Coalescer.flush
  by_cases empty : coalescer.buf = []
  · simp only [empty, List.isEmpty_nil, if_true]
    exact coalescerFits_idle (by simp [empty]) (by simp [Coalescer.inHand, waiting])
  · simp only [List.isEmpty_iff, empty, if_false]
    exact ⟨by simp, by simpa [Coalescer.inHand] using short, fun _ => rfl⟩

/-- A chunk stays below the limit, or makes a frame at once. -/
theorem CoalescerFits.receive (fits : CoalescerFits cfg size coalescer)
    (waiting : coalescer.phase = .waiting) (elapsed : Bool) {chunk : Bytes}
    (small : chunk.length ≤ size) :
    CoalescerFits cfg size (coalescer.receive cfg elapsed chunk) := by
  have short := fits.buffer
  unfold Coalescer.receive
  dsimp only
  split
  · refine coalescerFits_flush ?_ ?_
    · exact waiting
    · simp only [List.length_append, longestFrame]
      omega
  · rename_i below
    -- A buffer that is not flushed is below the limit.
    refine coalescerFits_idle ?_ (by simp [Coalescer.inHand, waiting])
    simp only [Bool.or_eq_true, decide_eq_true_eq, not_or, not_le] at below
    simp only [List.length_append] at below ⊢
    omega

/-- Closing the input makes a frame of what is left. -/
theorem CoalescerFits.inputClosed (fits : CoalescerFits cfg size coalescer) :
    CoalescerFits cfg size coalescer.inputClosed := by
  -- What is left in the buffer is below the limit, and makes the last frame if there is any.
  have short := fits.buffer
  unfold Coalescer.inputClosed
  by_cases empty : coalescer.buf = []
  · simp only [empty, List.isEmpty_nil, if_true]
    exact coalescerFits_idle (by simp) rfl
  · simp only [List.isEmpty_iff, empty, if_false]
    refine ⟨by simp, ?_, fun _ => rfl⟩
    simp only [Coalescer.inHand, longestFrame]
    omega

/-- A frame that is handed on leaves the hand empty. -/
theorem CoalescerFits.sent (fits : CoalescerFits cfg size coalescer) {frame : Bytes} {last : Bool}
    (sending : coalescer.phase = .sending frame last) : CoalescerFits cfg size coalescer.sent := by
  refine coalescerFits_idle ?_ ?_
  · simpa [Coalescer.sent, sending] using fits.buffer
  · cases last <;> simp [Coalescer.sent, Coalescer.inHand, sending]

/-- Every step on the data path stays within its bounds. -/
theorem PathFits.step (fits : PathFits cfg size path) {action : PathAction}
    (stepped : pathStep cfg gate unfed ungated path action = some moved) :
    PathFits cfg size moved := by
  cases pathMoves_pathStep stepped with
  | @received elapsed chunk input waiting queued =>
    have queue := fits.input
    rw [queued] at queue
    have small := queue.small chunk List.mem_cons_self
    exact ⟨queue.tail, fits.coalescer.receive waiting elapsed small, fits.frames, fits.sender⟩
  | ticked waiting holds =>
    have short : path.coalescer.buf.length ≤ longestFrame cfg size :=
      le_trans fits.coalescer.buffer (Nat.le_add_right _ _)
    exact { fits with coalescer := coalescerFits_flush waiting short }
  | closed waiting empty ended => exact { fits with coalescer := fits.coalescer.inputClosed }
  -- The frame is dropped when nobody is left to take it.
  | dropped sending gone =>
    exact { fits with coalescer := coalescerFits_idle fits.coalescer.buffer rfl }
  | @flushed frame last sending present room =>
    have small : frame.length ≤ longestFrame cfg size := by
      simpa [Coalescer.inHand, sending] using fits.coalescer.hand
    exact { fits with
      coalescer := fits.coalescer.sent sending
      frames := fits.frames.push room small }
  -- The sender holds one frame at most, which it has from the queue.
  | @took frame frames waiting queued =>
    have queue := fits.frames
    rw [queued] at queue
    exact { fits with frames := queue.tail, sender := queue.small frame List.mem_cons_self }
  | cleared gated opened =>
    exact { fits with sender := by simpa [Sender.inHand, gated] using fits.sender }
  | sent cleared => exact { fits with sender := by simp [Sender.inHand] }
  | refused cleared => exact { fits with sender := by simp [Sender.inHand] }
  | ended waiting empty stopped => exact { fits with sender := by simp [Sender.inHand] }
  | abandoned gated shut alone => exact { fits with sender := by simp [Sender.inHand] }

end Path

section Shells

variable {size : Nat} {shell moved : Shell} {unread orphaned : Bool}

/-- Taking a message leaves the rest of the inbox as it was. -/
theorem ShellFits.taken (fits : ShellFits size shell) {msg : ChannelMsg} {inbox : List ChannelMsg}
    (queued : shell.inbox = msg :: inbox) :
    msg.payload.length ≤ size ∧ ∀ later ∈ inbox, later.payload.length ≤ size := by
  have within := fits.inbox
  rw [queued] at within
  exact ⟨within msg List.mem_cons_self, fun later member =>
    within later (List.mem_cons_of_mem _ member)⟩

/-- Every step at a shell stays within its bounds, as long as what arrives does. -/
theorem ShellFits.step (fits : ShellFits size shell) {action : ShellAction}
    (within : ∀ msg, action = .arrive msg → msg.payload.length ≤ size)
    (stepped : shellStep unread orphaned shell action = some moved) : ShellFits size moved := by
  cases shellMoves_shellStep stepped with
  | @arrived msg running =>
    refine ⟨?_, fits.out, fits.hand⟩
    intro queued member
    rcases List.mem_append.mp member with earlier | last
    · exact fits.inbox queued earlier
    · rw [List.mem_singleton.mp last]
      exact within msg rfl
  | hungUp => exact ⟨fits.inbox, fits.out, fits.hand⟩
  | lost => exact ⟨fits.inbox, fits.out, fits.hand⟩
  | woken selecting => exact ⟨fits.inbox, fits.out, by simp [Pump.inHand]⟩
  | checked checking flowing => exact ⟨fits.inbox, fits.out, by simp [Pump.inHand]⟩
  | exhausted selecting empty ended => exact ⟨fits.inbox, fits.out, by simp [Pump.inHand]⟩
  -- The message that is taken leaves the inbox, with its payload in hand.
  | tookOutput selecting queued => exact ⟨(fits.taken queued).2, fits.out, (fits.taken queued).1⟩
  | tookStatus selecting queued =>
    exact ⟨(fits.taken queued).2, fits.out, by simp [Pump.inHand]⟩
  | tookOther selecting queued =>
    exact ⟨(fits.taken queued).2, fits.out, by simp [Pump.inHand]⟩
  | thrown sending gone => exact ⟨fits.inbox, fits.out, by simp [Pump.inHand]⟩
  -- A chunk from the hand of the pump is as small as what arrived.
  | @passed chunk sending read room =>
    have small : chunk.length ≤ size := by simpa [Pump.inHand, sending] using fits.hand
    exact ⟨fits.inbox, fits.out.push room small, by simp [Pump.inHand]⟩
  | cut checking paused alone => exact ⟨fits.inbox, fits.out, by simp [Pump.inHand]⟩

/-- A drained shell stays drained. -/
theorem drained_shellStep {action : ShellAction} (drained : shell.Drained)
    (stepped : shellStep unread orphaned shell action = some moved) : moved.Drained := by
  obtain ⟨done, empty⟩ := drained
  -- A pump that is done takes no step, so only the channel can still change.
  cases shellMoves_shellStep stepped with
  | arrived running => exact ⟨done, empty⟩
  | hungUp => exact ⟨done, empty⟩
  | lost => exact ⟨done, empty⟩
  | woken selecting => cases done.symm.trans selecting
  | checked checking flowing => cases done.symm.trans checking
  | exhausted selecting _ ended => cases done.symm.trans selecting
  | tookOutput selecting queued => cases done.symm.trans selecting
  | tookStatus selecting queued => cases done.symm.trans selecting
  | tookOther selecting queued => cases done.symm.trans selecting
  | thrown sending gone => cases done.symm.trans sending
  | passed sending read room => cases done.symm.trans sending
  | cut checking paused alone => cases done.symm.trans checking

end Shells

section Runs

variable {setup : Setup} {size : Nat} {state next : State}

/-- A session that was just opened holds nothing. -/
theorem bounded_init (setup : Setup) (size : Nat) : Bounded setup size (State.init setup) where
  -- All queues are empty and there is one generation, which has no output yet.
  placed := ⟨rfl, rfl⟩
  shells := by
    intro shell member
    rw [List.mem_singleton.mp member]
    exact ⟨by simp [Shell.open], queueFits_nil, by simp [Shell.open, Pump.inHand]⟩
  drained := by
    intro index shell _ past
    simp [State.init, Phase.past] at past
  hand := by simp [State.init, Phase.inHand]
  path := ⟨queueFits_nil, coalescerFits_idle (by simp [State.init, DataPath.new, Coalescer.start])
    rfl, queueFits_nil, by simp [State.init, DataPath.new, Sender.inHand]⟩

/-- A move that touches neither a shell nor the path stays within the bounds. -/
theorem Bounded.frame (bounded : Bounded setup size state) (placed : Placed next)
    (shells : next.shells = state.shells) (path : next.path = state.path)
    (reading : next.reading = state.reading)
    (past : next.phase.past = true → state.phase.past = true)
    (hand : next.phase.inHand = [] ∨ next.phase.inHand = state.phase.inHand) :
    Bounded setup size next := by
  -- Each bound is on something that has not changed, but for the chunk that may be gone.
  refine ⟨placed, shells ▸ bounded.shells, ?_, ?_, path ▸ bounded.path⟩
  · rw [shells, reading]
    intro index shell reads behind
    exact bounded.drained index shell reads (behind.imp id (And.imp id past))
  · rcases hand with empty | same
    · simp [empty]
    · rw [same]
      exact bounded.hand

/-- The supervisor takes the next chunk into its hand. -/
theorem bounded_received (bounded : Bounded setup size state) {shell : Shell} {chunk : Bytes}
    {out : List Bytes} (reads : state.shells[state.reading]? = some shell)
    (queued : shell.out = chunk :: out) (placed : Placed next)
    (same : next = { state with
      phase := .forwarding chunk, shells := state.shells.set state.reading { shell with out } }) :
    Bounded setup size next := by
  subst same
  have fits := bounded.shells shell (List.mem_of_getElem? reads)
  have queue := fits.out
  rw [queued] at queue
  -- The chunk comes from a queue of small ones, and the rest of the queue is shorter.
  refine ⟨placed, ?_, ?_, queue.small chunk List.mem_cons_self, bounded.path⟩
  · intro other member
    rcases List.mem_or_eq_of_mem_set member with old | rfl
    · exact bounded.shells other old
    · exact ⟨fits.inbox, queue.tail, fits.hand⟩
  · intro index other finds past
    rcases past with earlier | ⟨_, past⟩
    · have apart : state.reading ≠ index := Nat.ne_of_gt earlier
      rw [List.getElem?_set_ne apart] at finds
      exact bounded.drained index other finds (.inl earlier)
    · cases past

/-- A generation whose pump is done and whose queue is empty is drained like those before it. -/
theorem bounded_drained (bounded : Bounded setup size state) {shell : Shell}
    (reads : state.shells[state.reading]? = some shell) (empty : shell.out = [])
    (done : shell.pump = .done) (placed : Placed { state with phase := .ended }) :
    Bounded setup size { state with phase := .ended } := by
  -- Only the generation that is read joins those that are behind it.
  refine ⟨placed, bounded.shells, ?_, by simp [Phase.inHand], bounded.path⟩
  intro index shell finds past
  rcases past with earlier | ⟨rfl, _⟩
  · exact bounded.drained index shell finds (.inl earlier)
  · rw [reads, Option.some.injEq] at finds
    exact finds ▸ ⟨done, empty⟩

/-- A chunk that is passed on was small in the supervisor's hand, and found room. -/
theorem bounded_forwarded (bounded : Bounded setup size state) {chunk : Bytes}
    (forwarding : state.phase = .forwarding chunk) (room : state.path.input.length < queueDepth)
    (placed : Placed { state with
      phase := .pumping, path := { state.path with input := state.path.input ++ [chunk] } }) :
    Bounded setup size { state with
      phase := .pumping, path := { state.path with input := state.path.input ++ [chunk] } } := by
  have small := bounded.hand
  rw [forwarding] at small
  refine ⟨placed, bounded.shells, ?_, by simp [Phase.inHand],
    { bounded.path with input := bounded.path.input.push room small }⟩
  -- Reading goes on, so the generation that is read is not behind.
  intro index shell reads past
  rcases past with earlier | ⟨_, past⟩
  · exact bounded.drained index shell reads (.inl earlier)
  · cases past

/-- A new generation is empty, and comes behind all those that are drained. -/
theorem bounded_succeeded (bounded : Bounded setup size state) {attempt : UInt32} {opened : Size}
    (attempting : state.phase = .attempting attempt opened)
    (placed : Placed { state with
      phase := .established, shells := state.shells ++ [.open opened] }) :
    Bounded setup size { state with
      phase := .established, shells := state.shells ++ [.open opened] } := by
  have length : state.shells.length = state.reading + 1 := by
    have shells := bounded.placed.shells
    rwa [attempting] at shells
  refine ⟨placed, ?_, ?_, by simp [Phase.inHand], bounded.path⟩
  · intro shell member
    rcases List.mem_append.mp member with earlier | last
    · exact bounded.shells shell earlier
    · rw [List.mem_singleton.mp last]
      exact ⟨by simp [Shell.open], queueFits_nil, by simp [Shell.open, Pump.inHand]⟩
  -- Those that are drained come before the one that was opened.
  · intro index shell reads past
    have inside : index < state.shells.length := by
      rcases past with earlier | ⟨here, _⟩
      · exact length ▸ Nat.lt_succ_of_lt earlier
      · exact length ▸ here ▸ Nat.lt_succ_self _
    rw [List.getElem?_append_left inside] at reads
    refine bounded.drained index shell reads (past.imp id (And.imp id fun _ => ?_))
    rw [attempting]
    rfl

/-- The generation that is no longer read was drained before the next one is. -/
theorem bounded_connected (bounded : Bounded setup size state) (reopened : state.phase = .reopened)
    (placed : Placed { state.send .connected with
      phase := .pumping, reading := state.reading + 1 }) :
    Bounded setup size { state.send .connected with
      phase := .pumping, reading := state.reading + 1 } := by
  -- The one that was read becomes one of those behind, and was past its output already.
  refine ⟨placed, bounded.shells, ?_, by simp [Phase.inHand], bounded.path⟩
  intro index shell reads past
  rcases past with earlier | ⟨_, past⟩
  · apply bounded.drained index shell reads
    rcases Nat.lt_succ_iff_lt_or_eq.mp earlier with before | here
    · exact .inl before
    · exact .inr ⟨here, by rw [reopened]; rfl⟩
  · cases past

/-- A move of the supervisor stays within the bounds. -/
theorem bounded_moves {input : Input} (bounded : Bounded setup size state) (placed : Placed next)
    (moves : Moves setup state input next) : Bounded setup size next := by
  cases carries_moves moves with
  | received pumping reads queued => exact bounded_received bounded reads queued placed rfl
  | drained pumping reads empty done => exact bounded_drained bounded reads empty done placed
  | forwarded forwarding takes room => exact bounded_forwarded bounded forwarding room placed
  | succeeded attempting => exact bounded_succeeded bounded attempting placed
  | connected reopened => exact bounded_connected bounded reopened placed
  -- A supervisor that stops lets go of the chunk it holds.
  | stopped pumping shut => exact bounded.frame placed rfl rfl rfl nofun (.inl rfl)
  | refused forwarding gone => exact bounded.frame placed rfl rfl rfl nofun (.inl rfl)
  | installed established =>
    exact bounded.frame placed rfl rfl rfl (fun _ => by rw [established]; rfl) (.inl rfl)
  | idle idles =>
    have hand : next.phase.inHand = [] :=
      inHand_of_finished (finished_of_past idles.onward)
    exact bounded.frame placed idles.shells idles.path idles.reading (fun _ => idles.past)
      (.inl hand)

/-- A change of one generation that has nothing to do with output stays within the bounds. -/
theorem Bounded.modify (bounded : Bounded setup size state) {index : Nat} {change : Shell → Shell}
    (unchanged : ∀ shell : Shell, shell.SameOutput (change shell)) (placed : Placed next)
    (shells : next.shells = state.shells.modify index change) (path : next.path = state.path)
    (reading : next.reading = state.reading) (phase : next.phase = state.phase) :
    Bounded setup size next := by
  -- The changed generation has the output of the one it stands for, which is found first.
  have found {other : Nat} {moved : Shell}
      (finds : (state.shells.modify index change)[other]? = some moved) :
      ∃ shell, state.shells[other]? = some shell ∧ shell.SameOutput moved := by
    rw [List.getElem?_modify] at finds
    obtain ⟨shell, reads, rfl⟩ := Option.map_eq_some_iff.mp finds
    refine ⟨shell, reads, ?_⟩
    by_cases here : index = other
    · simpa [here] using unchanged shell
    · simpa [here] using ⟨rfl, rfl, rfl, rfl, rfl⟩
  refine ⟨placed, ?_, ?_, phase ▸ bounded.hand, path ▸ bounded.path⟩
  · rw [shells]
    intro moved member
    obtain ⟨other, finds⟩ := List.getElem?_of_mem member
    obtain ⟨shell, reads, same⟩ := found finds
    have fits := bounded.shells shell (List.mem_of_getElem? reads)
    exact ⟨same.inbox ▸ fits.inbox, same.out ▸ fits.out, same.pump ▸ fits.hand⟩
  · rw [shells, reading, phase]
    intro other moved finds past
    obtain ⟨shell, reads, same⟩ := found finds
    obtain ⟨done, empty⟩ := bounded.drained other shell reads past
    exact ⟨same.pump.trans done, same.out.trans empty⟩

/-- Every action stays within the bounds, as long as what it delivers does. -/
theorem bounded_step {action : Action} (within : action.Within size)
    (bounded : Bounded setup size state) (taken : step setup state action = some next) :
    Bounded setup size next := by
  have placed := placed_step bounded.placed taken
  cases takes_step taken with
  | supervise moves => exact bounded_moves bounded placed moves
  | path stepped => exact { bounded with placed := placed, path := bounded.path.step stepped }
  | @shell index action shell moved reads stepped =>
    have inside := (List.getElem?_eq_some_iff.mp reads).1
    refine { bounded with placed := placed, shells := ?_, drained := ?_ }
    · -- A shell of another generation is as it was, and the one that moved is bounded after it.
      intro other member
      rcases List.mem_or_eq_of_mem_set member with old | rfl
      · exact bounded.shells other old
      · refine (bounded.shells shell (List.mem_of_getElem? reads)).step ?_ stepped
        exact fun msg same => within index msg (by rw [same])
    · -- A drained generation stays drained, whichever of them moved.
      intro other found finds past
      by_cases here : index = other
      · subst here
        rw [List.getElem?_set_self inside, Option.some.injEq] at finds
        exact finds ▸ drained_shellStep (bounded.drained index shell reads past) stepped
      · rw [List.getElem?_set_ne here] at finds
        exact bounded.drained other found finds past
  | paused runs =>
    -- Neither the flag nor the size of a terminal is output.
    refine bounded.modify ?_ placed rfl rfl rfl rfl
    intro shell
    exact ⟨rfl, rfl, rfl, rfl, rfl⟩
  | @changed newer older index size flies =>
    refine bounded.modify ?_ placed rfl rfl rfl rfl
    intro shell
    unfold Shell.resized
    split
    · exact ⟨rfl, rfl, rfl, rfl, rfl⟩
    · exact ⟨rfl, rfl, rfl, rfl, rfl⟩
  -- No other action moves output, or the supervisor.
  | _ => exact bounded.frame placed rfl rfl rfl id (.inr rfl)

/-- A generation beyond the one that is read is only open while the supervisor moves on to it. -/
theorem opened_cases (phase : Phase) :
    phase.opened = 0 ∨ phase.opened = 1 ∧ phase.past = true := by
  cases phase <;> simp [Phase.opened, Phase.past]

/-- A shell within its bounds holds a full queue and one chunk at most. -/
theorem ShellFits.buffered {shell : Shell} (fits : ShellFits size shell) :
    shell.buffered ≤ (queueDepth + 1) * size := by
  have queue := fits.out.bytes
  have hand := fits.hand
  rw [Shell.buffered, Nat.succ_mul]
  omega

/-- A data path within its bounds holds two full queues, a buffer and two frames at most. -/
theorem PathFits.held {cfg : CoalescerConfig} {path : DataPath} (fits : PathFits cfg size path) :
    path.held.length ≤ queueDepth * size + (queueDepth + 2) * longestFrame cfg size := by
  have input := fits.input.bytes
  have frames := fits.frames.bytes
  have sender := fits.sender
  -- A buffer beside a frame in hand is empty.
  have coalescer : path.coalescer.held.length ≤ longestFrame cfg size := by
    have hand := fits.coalescer.hand
    have buffer := fits.coalescer.buffer
    by_cases idle : path.coalescer.inHand = []
    · simp only [Coalescer.held, idle, List.nil_append, longestFrame]
      omega
    · simpa [Coalescer.held, fits.coalescer.alone idle] using hand
  simp only [DataPath.held, List.length_append, Nat.add_mul]
  omega

/-- Only the last generation holds anything. -/
theorem Bounded.generations (bounded : Bounded setup size state) :
    (state.shells.map Shell.buffered).sum ≤ (queueDepth + 1) * size := by
  have length := bounded.placed.shells
  -- There is a generation from the start on.
  have some_ : state.shells ≠ [] := by
    intro empty
    rw [empty] at length
    simp at length
    omega
  have idle : ∀ shell ∈ state.shells.dropLast, shell.buffered = 0 := by
    intro shell member
    obtain ⟨index, reads⟩ := List.getElem?_of_mem member
    have inside := (List.getElem?_eq_some_iff.mp reads).1
    rw [List.length_dropLast] at inside
    rw [List.getElem?_dropLast, if_pos (by omega)] at reads
    -- A generation before the last was read to its end, or is being left.
    have drained : shell.Drained := by
      apply bounded.drained index shell reads
      by_cases earlier : index < state.reading
      · exact .inl earlier
      · rcases opened_cases state.phase with none_ | ⟨one, past⟩
        · omega
        · exact .inr ⟨by omega, past⟩
    simp [Shell.buffered, drained.1, drained.2, Pump.inHand]
  -- So the sum over the others is nothing.
  have zero : (state.shells.dropLast.map Shell.buffered).sum = 0 := by
    rw [List.sum_eq_zero]
    intro held member
    obtain ⟨shell, inside, rfl⟩ := List.mem_map.mp member
    exact idle shell inside
  have last := (bounded.shells _ (List.getLast_mem some_)).buffered
  -- The last one holds no more than its inbox and one chunk in hand.
  rw [← List.dropLast_append_getLast some_, List.map_append, List.sum_append, zero]
  simpa using last

/--
Whatever arrives in portions of a given size, and however long the session is paused,
the program holds no more of its output than two queues of portions and one of frames take.
-/
theorem backlog_bounded (setup : Setup) (size : Nat) {actions : List Action} {final : State}
    (within : ∀ action ∈ actions, action.Within size)
    (ran : System.run (step setup) (State.init setup) actions = some final) :
    final.buffered ≤ (2 * queueDepth + 2) * size +
      (queueDepth + 2) * (setup.cfg.maxFrame - 1 + size) := by
  -- Each place has its own bound, and what is left is to add them up.
  have bounded : Bounded setup size final :=
    System.run_invariant (fun allowed held taken => bounded_step allowed held taken)
      (System.meets_of_mem (fun _ action member => within action member) _)
      (bounded_init setup size) ran
  have generations := bounded.generations
  have hand := bounded.hand
  have path := bounded.path.held
  simp only [State.buffered, longestFrame, Nat.add_mul, queueDepth] at *
  omega

/-- Two chunks that reach a paused session: one stays in the library, the other one behind it. -/
def arriveWhilePaused : List Action :=
  [.announce, .register, .shell 0 (.arrive (.data [0x61, 0x62])),
    .shell 0 (.arrive (.data [0x63])), .shell 0 .check, .shell 0 .take, .invoke .pause, .command,
    .command, .command, .shell 0 .send]

/-- The paused session holds the one chunk that its pump had taken already. -/
theorem backlog_bounded_while_paused :
    ∃ final, System.run (step savedHost) (State.init savedHost) arriveWhilePaused = some final ∧
      final.buffered = 2 ∧ final.buffered ≤ 66 * 2 + 34 * (131071 + 2) := by
  -- Both chunks that arrive are two bytes long, and the run is evaluated.
  obtain ⟨final, ran, held⟩ : ∃ final, System.run (step savedHost) (State.init savedHost)
      arriveWhilePaused = some final ∧ final.buffered = 2 :=
    ⟨_, rfl, rfl⟩
  refine ⟨final, ran, held, backlog_bounded savedHost 2 ?_ ran⟩
  intro action member index msg same
  subst same
  simp only [arriveWhilePaused, List.mem_cons, Action.shell.injEq, ShellAction.arrive.injEq,
    reduceCtorEq, false_or, List.not_mem_nil, or_false, and_false] at member
  rcases member with ⟨-, rfl⟩ | ⟨-, rfl⟩
  · decide
  · decide

end Runs

end Tern.Session
