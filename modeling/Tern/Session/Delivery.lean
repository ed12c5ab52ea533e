import Tern.Session.Steps

/-! Delivery: what the webview gets is what the shells sent, in order and across reconnects. -/

namespace Tern.Session

open TermStream (Coalescer CoalescerConfig CoalescerPhase)

section Path

/-- The frame a sender holds. -/
def Sender.inHand : Sender → Bytes
  | .waiting => []
  | .gated frame => frame
  | .cleared frame => frame
  | .ended => []
  | .refused => []

/-- The bytes the webview's channel took. -/
def DataPath.delivered (self : DataPath) : Bytes := self.sent.flatten

/-- The bytes on the data path, those that leave it first in front. -/
def DataPath.held (self : DataPath) : Bytes :=
  self.sender.inHand ++ (self.frames.flatten ++ (self.coalescer.held ++ self.input.flatten))

/-- The tasks of the data path end one after another, and each with nothing left to do. -/
structure EndsInOrder (unfed : Bool) (path : DataPath) : Prop where
  -- A sender ends by itself only behind a coalescer that has stopped.
  sender : path.sender = .ended → path.coalescer.phase = .stopped ∧ path.frames = []
  coalescer : path.coalescer.phase = .stopped →
    path.coalescer.buf = [] ∧ path.input = [] ∧ unfed = true
  lastFrame : ∀ frame, path.coalescer.phase = .sending frame true →
    path.coalescer.buf = [] ∧ path.input = [] ∧ unfed = true

variable {cfg : CoalescerConfig} {gate unfed : Bool} {path moved : DataPath}

/-- A flush leaves a coalescer waiting, or sending a frame that is not the last. -/
theorem phase_flush {self : Coalescer} (waiting : self.phase = .waiting) :
    self.flush.phase = .waiting ∨ ∃ frame, self.flush.phase = .sending frame false := by
  unfold Coalescer.flush
  split
  · exact .inl waiting
  · exact .inr ⟨_, rfl⟩

/-- A chunk leaves a coalescer waiting, or sending a frame that is not the last. -/
theorem phase_receive {self : Coalescer} (elapsed : Bool) (chunk : Bytes)
    (waiting : self.phase = .waiting) :
    (self.receive cfg elapsed chunk).phase = .waiting ∨
      ∃ frame, (self.receive cfg elapsed chunk).phase = .sending frame false := by
  -- The buffer is flushed once it is long enough or late enough, and waits otherwise.
  unfold Coalescer.receive
  dsimp only
  split
  · exact phase_flush waiting
  · exact .inl waiting

/-- A coalescer that is busy as usual has not come to its end. -/
theorem endsInOrder_busy (ends : EndsInOrder unfed path) {coalescer : Coalescer}
    (running : path.coalescer.phase = .waiting)
    (busy : coalescer.phase = .waiting ∨ ∃ frame, coalescer.phase = .sending frame false)
    (input : List Bytes) :
    EndsInOrder unfed { path with input, coalescer } := by
  refine ⟨?_, ?_, ?_⟩
  · -- The sender cannot have ended before a coalescer that still waits.
    intro ended
    have stopped := (ends.sender ended).1
    rw [running] at stopped
    cases stopped
  · intro stopped
    rcases busy with waiting | ⟨frame, sending⟩
    · cases waiting.symm.trans stopped
    · cases sending.symm.trans stopped
  · intro frame last
    rcases busy with waiting | ⟨other, sending⟩
    · cases waiting.symm.trans last
    · cases sending.symm.trans last

/-- The end of the input turns what is left into a last frame. -/
theorem conserves_inputClosed (ends : EndsInOrder unfed path)
    (waiting : path.coalescer.phase = .waiting) (empty : path.input = []) (ended : unfed = true) :
    EndsInOrder unfed { path with coalescer := path.coalescer.inputClosed } ∧
      DataPath.held { path with coalescer := path.coalescer.inputClosed } = path.held := by
  refine ⟨⟨?_, ?_, ?_⟩, ?_⟩
  · intro ended
    have stopped := (ends.sender ended).1
    rw [waiting] at stopped
    cases stopped
  -- The input is empty and nobody feeds it, so what is in the buffer is all there will be.
  · exact fun _ => ⟨TermStream.buf_inputClosed _, empty, ended⟩
  · exact fun _ _ => ⟨TermStream.buf_inputClosed _, empty, ended⟩
  · simp [DataPath.held, TermStream.held_inputClosed waiting]

/-- A frame moves from the coalescer into the queue behind it. -/
theorem conserves_flush (ends : EndsInOrder unfed path) {frame : Bytes} {last : Bool}
    (sending : path.coalescer.phase = .sending frame last)
    (present : ¬(path.sender = .ended ∨ path.sender = .refused)) :
    EndsInOrder unfed { path with
      frames := path.frames ++ [frame], coalescer := path.coalescer.sent } ∧
      DataPath.held { path with
        frames := path.frames ++ [frame], coalescer := path.coalescer.sent } = path.held := by
  refine ⟨⟨?_, ?_, ?_⟩, ?_⟩
  · exact fun ended => absurd (.inl ended) present
  · intro stopped
    -- Behind its last frame the coalescer stops, with nothing left in front of it.
    cases last with
    | false => simp [Coalescer.sent, sending] at stopped
    | true =>
      obtain ⟨buf, input, closed⟩ := ends.lastFrame frame sending
      exact ⟨by simpa [Coalescer.sent, sending] using buf, input, closed⟩
  · intro other sends
    cases last with
    | false => simp [Coalescer.sent, sending] at sends
    | true => simp [Coalescer.sent, sending] at sends
  · simp [DataPath.held, TermStream.held_sent sending]

/-- Whatever happens on the path, no byte is lost, doubled or moved while the channel accepts. -/
theorem conserves_pathStep (ends : EndsInOrder unfed path) {action : PathAction}
    (stepped : pathStep cfg gate unfed false path action = some moved)
    (accepts : moved.sender ≠ .refused) :
    EndsInOrder unfed moved ∧ moved.delivered ++ moved.held = path.delivered ++ path.held := by
  cases pathMoves_pathStep stepped with
  -- A chunk comes in behind everything on the path.
  | @received elapsed chunk input waiting queued =>
    refine ⟨endsInOrder_busy ends waiting (phase_receive elapsed chunk waiting) input, ?_⟩
    simp [DataPath.delivered, DataPath.held, TermStream.held_receive _ _ _ waiting, queued]
  | ticked waiting holds =>
    refine ⟨endsInOrder_busy ends waiting (phase_flush waiting) path.input, ?_⟩
    simp [DataPath.delivered, DataPath.held, TermStream.held_flush waiting]
  | closed waiting empty ended =>
    obtain ⟨ordered, held⟩ := conserves_inputClosed ends waiting empty ended
    exact ⟨ordered, congrArg (path.delivered ++ ·) held⟩
  | dropped sending gone =>
    -- A sender that ended had nothing left to come.
    rcases gone with ended | refused
    · have stopped := (ends.sender ended).1
      rw [sending] at stopped
      cases stopped
    · exact absurd refused accepts
  | flushed sending present room =>
    obtain ⟨ordered, held⟩ := conserves_flush ends sending present
    exact ⟨ordered, congrArg (path.delivered ++ ·) held⟩
  -- The sender's steps pass frames on in the order of their queue.
  | took waiting queued =>
    refine ⟨⟨nofun, ends.coalescer, ends.lastFrame⟩, ?_⟩
    simp [DataPath.delivered, DataPath.held, Sender.inHand, waiting, queued]
  | cleared gated opened =>
    refine ⟨⟨nofun, ends.coalescer, ends.lastFrame⟩, ?_⟩
    simp [DataPath.delivered, DataPath.held, Sender.inHand, gated]
  | sent cleared =>
    refine ⟨⟨nofun, ends.coalescer, ends.lastFrame⟩, ?_⟩
    simp [DataPath.delivered, DataPath.held, Sender.inHand, cleared]
  -- A refusal is what the channel does not do here.
  | refused cleared => exact absurd rfl accepts
  | ended waiting empty stopped =>
    refine ⟨⟨fun _ => ⟨stopped, empty⟩, ends.coalescer, ends.lastFrame⟩, ?_⟩
    simp [DataPath.delivered, DataPath.held, Sender.inHand, waiting]
  -- Nobody is told that the gate will not open again while the session is there.
  | abandoned gated shut alone => cases alone

end Path

section Shells

/-- The output that has reached a shell's channel. -/
def Shell.received (self : Shell) : Bytes := self.arrived.flatMap ChannelMsg.payload

/-- The chunk a pump holds. -/
def Pump.inHand : Pump → Bytes
  | .checking => []
  | .selecting => []
  | .sending chunk => chunk
  | .done => []

/-- The output of a shell that the supervisor has not taken yet, in order. -/
def Shell.rest (self : Shell) : Bytes :=
  -- The queue behind the pump was filled before the pump took its chunk from the inbox.
  self.out.flatten ++ (self.pump.inHand ++ self.inbox.flatMap ChannelMsg.payload)

/-- The pump is done only when there is nothing left to take. -/
def Shell.Finishes (self : Shell) : Prop :=
  self.pump = .done → self.ended = true ∧ self.inbox = []

/-- Everything the shell will ever send has been taken. -/
structure Shell.Spent (shell : Shell) : Prop where
  ended : shell.ended = true
  done : shell.pump = .done
  inbox : shell.inbox = []
  out : shell.out = []

/-- A spent shell has nothing left. -/
theorem Shell.Spent.rest {shell : Shell} (spent : shell.Spent) : shell.rest = [] := by
  simp [Shell.rest, spent.done, spent.inbox, spent.out, Pump.inHand]

variable {unread orphaned : Bool} {shell moved : Shell}

/-- Output moves from the inbox to the queue behind the pump, and nowhere else. -/
inductive Conserves (shell moved : Shell) : Prop where
  | arrived (payload : Bytes) (open_ : shell.ended = false)
      (received : moved.received = shell.received ++ payload)
      (rest : moved.rest = shell.rest ++ payload)
  | inside (received : moved.received = shell.received) (rest : moved.rest = shell.rest)

/-- A step at a shell keeps its output in order while someone reads and can resume it. -/
theorem conserves_shellStep {action : ShellAction} (finishes : shell.Finishes)
    (attended : shell.Spent ∨ unread = false ∧ orphaned = false)
    (stepped : shellStep unread orphaned shell action = some moved) :
    moved.Finishes ∧ Conserves shell moved := by
  cases shellMoves_shellStep stepped with
  | @arrived msg running =>
    refine ⟨?_, .arrived msg.payload running ?_ ?_⟩
    · intro done
      have ended := (finishes done).1
      rw [running] at ended
      cases ended
    · simp [Shell.received]
    · simp [Shell.rest]
  | hungUp => exact ⟨fun done => ⟨rfl, (finishes done).2⟩, .inside rfl rfl⟩
  | lost => exact ⟨fun done => ⟨rfl, (finishes done).2⟩, .inside rfl rfl⟩
  | woken selecting => exact ⟨nofun, .inside rfl (by simp [Shell.rest, selecting, Pump.inHand])⟩
  | checked checking flowing =>
    exact ⟨nofun, .inside rfl (by simp [Shell.rest, checking, Pump.inHand])⟩
  | exhausted selecting empty ended =>
    refine ⟨fun _ => ⟨ended, empty⟩, .inside rfl ?_⟩
    simp [Shell.rest, selecting, Pump.inHand]
  -- Each message leaves the inbox, and its payload is in the hand of the pump.
  | tookOutput selecting queued =>
    exact ⟨nofun, .inside rfl (by simp [Shell.rest, selecting, queued, Pump.inHand])⟩
  | tookStatus selecting queued =>
    refine ⟨nofun, .inside rfl ?_⟩
    simp [Shell.rest, selecting, queued, Pump.inHand, ChannelMsg.payload]
  | tookOther selecting queued =>
    refine ⟨nofun, .inside rfl ?_⟩
    simp [Shell.rest, selecting, queued, Pump.inHand, ChannelMsg.payload]
  -- A chunk is thrown away only when nobody reads, which is then too late to matter.
  | thrown sending gone =>
    rcases attended with spent | ⟨read, _⟩
    · cases spent.done.symm.trans sending
    · cases read.symm.trans gone
  | passed sending read room =>
    exact ⟨nofun, .inside rfl (by simp [Shell.rest, sending, Pump.inHand])⟩
  -- Nor is a paused pump cut off while its handle is held.
  | cut checking paused alone =>
    rcases attended with spent | ⟨_, held⟩
    · cases spent.done.symm.trans checking
    · cases held.symm.trans alone

/-- A spent shell stays spent. -/
theorem spent_shellStep {action : ShellAction} (spent : shell.Spent)
    (stepped : shellStep unread orphaned shell action = some moved) : moved.Spent := by
  -- Its channel is closed and its pump is done, so only the transport can still go.
  cases shellMoves_shellStep stepped with
  | arrived running => cases spent.ended.symm.trans running
  | hungUp => exact ⟨rfl, spent.done, spent.inbox, spent.out⟩
  | lost => exact ⟨rfl, spent.done, spent.inbox, spent.out⟩
  | woken selecting => cases spent.done.symm.trans selecting
  | checked checking flowing => cases spent.done.symm.trans checking
  | exhausted selecting empty ended => cases spent.done.symm.trans selecting
  | tookOutput selecting queued => cases spent.done.symm.trans selecting
  | tookStatus selecting queued => cases spent.done.symm.trans selecting
  | tookOther selecting queued => cases spent.done.symm.trans selecting
  | thrown sending gone => cases spent.done.symm.trans sending
  | passed sending read room => cases spent.done.symm.trans sending
  | cut checking paused alone => cases spent.done.symm.trans checking

end Shells

section Lists

variable {shells : List Shell} {index : Nat} {shell moved : Shell} {measure : Shell → Bytes}

/-- Replacing one shell by one of the same measure leaves the whole measure alone. -/
theorem flatMap_set_same (reads : shells[index]? = some shell)
    (same : measure moved = measure shell) :
    (shells.set index moved).flatMap measure = shells.flatMap measure := by
  obtain ⟨inside, rfl⟩ := List.getElem?_eq_some_iff.mp reads
  rw [List.set_eq_take_append_cons_drop, if_pos inside]
  conv_rhs => rw [← List.take_append_drop index shells, List.drop_eq_getElem_cons inside]
  simp only [List.flatMap_append, List.flatMap_cons, same]

/-- Lengthening the measure of the last shell lengthens the whole measure at its end. -/
theorem flatMap_set_last (reads : shells[index]? = some shell) (last : index + 1 = shells.length)
    {more : Bytes} (longer : measure moved = measure shell ++ more) :
    (shells.set index moved).flatMap measure = shells.flatMap measure ++ more := by
  obtain ⟨inside, rfl⟩ := List.getElem?_eq_some_iff.mp reads
  -- Behind the last shell there is nothing that its output could come before.
  have nothing : shells.drop (index + 1) = [] := List.drop_eq_nil_of_le (by omega)
  rw [List.set_eq_take_append_cons_drop, if_pos inside]
  conv_rhs => rw [← List.take_append_drop index shells, List.drop_eq_getElem_cons inside]
  simp only [List.flatMap_append, List.flatMap_cons, nothing, List.flatMap_nil, List.append_nil,
    longer, List.append_assoc]

end Lists

section Flow

variable {setup : Setup} {state next : State}

/-- The chunk the supervisor holds. -/
def Phase.inHand : Phase → Bytes
  | .forwarding chunk => chunk
  | _ => []

/-- The supervisor has seen the end of the output it reads. -/
def Phase.finished : Phase → Bool
  | .pumping => false
  | .forwarding _ => false
  | _ => true

/-- All output that has arrived, one generation after the other. -/
def State.received (self : State) : Bytes := self.shells.flatMap Shell.received

/-- All output that has arrived and not reached the webview, in order. -/
def State.onTheWay (self : State) : Bytes :=
  self.path.held ++ (self.phase.inHand ++ (self.shells.drop self.reading).flatMap Shell.rest)

/-- The session is not closed, and the webview's channel has taken every frame. -/
structure Intact (state : State) : Prop where
  unshut : state.isShutdown = false
  accepts : state.path.sender ≠ .refused

/-- Every byte that arrived is delivered or on its way, in the order it came. -/
structure Flows (state : State) : Prop where
  placed : Placed state
  ends : EndsInOrder state.unfed state.path
  finishes : ∀ (index : Nat) (shell : Shell), state.shells[index]? = some shell → shell.Finishes
  spent : ∀ (index : Nat) (shell : Shell), state.shells[index]? = some shell →
    index < state.reading ∨ index = state.reading ∧ state.phase.finished = true → shell.Spent
  total : state.path.delivered ++ state.onTheWay = state.received

/-- A path that ends in order with nobody told of it still does so when nobody feeds it. -/
theorem EndsInOrder.unfed {unfed later : Bool} {path : DataPath} (ends : EndsInOrder unfed path)
    (stays : unfed = true → later = true) : EndsInOrder later path := by
  -- Whoever was told that nobody feeds the path is still right.
  refine ⟨ends.sender, ?_, ?_⟩
  · intro stopped
    obtain ⟨buf, input, closed⟩ := ends.coalescer stopped
    exact ⟨buf, input, stays closed⟩
  · intro frame sending
    obtain ⟨buf, input, closed⟩ := ends.lastFrame frame sending
    exact ⟨buf, input, stays closed⟩

/-- What an action leaves that moves no byte and no generation. -/
theorem Flows.frame (flows : Flows state) (placed : Placed next)
    (shells : next.shells = state.shells) (path : next.path = state.path)
    (reading : next.reading = state.reading) (inHand : next.phase.inHand = state.phase.inHand)
    (finished : next.phase.finished = true → state.phase.finished = true)
    (unfed : state.unfed = true → next.unfed = true) : Flows next := by
  -- No byte and no generation moves, so every clause is about the same things as before.
  refine ⟨placed, ?_, ?_, ?_, ?_⟩
  · rw [path]
    exact flows.ends.unfed unfed
  · rw [shells]
    exact flows.finishes
  · rw [shells, reading]
    intro index shell reads past
    exact flows.spent index shell reads (past.imp id (And.imp id finished))
  · simpa only [State.onTheWay, State.received, shells, path, reading, inHand] using flows.total

/-- Only the last generation can still receive anything. -/
theorem Flows.last (flows : Flows state) {index : Nat} {shell : Shell}
    (reads : state.shells[index]? = some shell) (running : shell.ended = false) :
    state.reading ≤ index ∧ index + 1 = state.shells.length := by
  have inside := (List.getElem?_eq_some_iff.mp reads).1
  have shells := flows.placed.shells
  -- A generation that is past has ended, which one that still receives has not.
  have open_ (past : index < state.reading ∨ index = state.reading ∧ state.phase.finished = true) :
      False := by
    have ended := (flows.spent index shell reads past).ended
    rw [running] at ended
    cases ended
  have behind : ¬index < state.reading := fun earlier => open_ (.inl earlier)
  refine ⟨by omega, ?_⟩
  by_cases same : index = state.reading
  · -- A second generation is only open once the first one is over.
    cases phase : state.phase with
    | pumping => simp only [phase, Phase.opened] at shells; omega
    | forwarding chunk => simp only [phase, Phase.opened] at shells; omega
    | _ => exact absurd (.inr ⟨same, by rw [phase]; rfl⟩) open_
  · -- The generation that is opened next is the only one ahead.
    cases phase : state.phase with
    | established => simp only [phase, Phase.opened] at shells; omega
    | installed => simp only [phase, Phase.opened] at shells; omega
    | reopened => simp only [phase, Phase.opened] at shells; omega
    | _ => simp only [phase, Phase.opened] at shells; omega

/-- Whoever may be cut off is spent already. -/
theorem Flows.attended (flows : Flows state) (unshut : state.isShutdown = false) {index : Nat}
    {shell : Shell} (reads : state.shells[index]? = some shell) :
    shell.Spent ∨ state.unread index = false ∧ state.orphaned index = false := by
  by_cases past : index < state.reading ∨ index = state.reading ∧ state.phase.finished = true
  · exact .inl (flows.spent index shell reads past)
  · right
    -- The generation is read, or is still to be read.
    push Not at past
    have inside := (List.getElem?_eq_some_iff.mp reads).1
    have shells := flows.placed.shells
    have conn := flows.placed.conn
    refine ⟨?_, ?_⟩
    · -- A supervisor that stopped has finished with the generation it read.
      have running : state.phase ≠ .stopped := by
        intro stopped
        rw [stopped] at shells
        simp only [Phase.opened] at shells
        have finished := past.2 (by omega)
        rw [stopped] at finished
        exact finished rfl
      simp only [State.unread, Bool.or_eq_false_iff, beq_eq_false_iff_ne, ne_eq,
        decide_eq_false_iff_not]
      exact ⟨running, by omega⟩
    · simp only [State.orphaned, unshut, Bool.false_or, decide_eq_false_iff_not]
      rw [conn]
      -- The handle in use is not one of a later generation.
      cases phase : state.phase with
      -- The handle was replaced, but the output of the generation before it is at its end.
      | installed =>
        have apart : index ≠ state.reading := by
          intro same
          have finished := past.2 same
          rw [phase] at finished
          exact finished rfl
        simp only [Phase.ahead]
        omega
      | reopened =>
        have apart : index ≠ state.reading := by
          intro same
          have finished := past.2 same
          rw [phase] at finished
          exact finished rfl
        simp only [Phase.ahead]
        omega
      | _ => simp only [Phase.ahead]; omega

/-- A step at a shell moves its output along, or adds what arrived at the very end. -/
theorem flows_shell (flows : Flows state) (unshut : state.isShutdown = false) {index : Nat}
    {action : ShellAction} {shell moved : Shell} (placed : Placed next)
    (reads : state.shells[index]? = some shell)
    (stepped : shellStep (state.unread index) (state.orphaned index) shell action = some moved)
    (same : next = { state with shells := state.shells.set index moved }) : Flows next := by
  subst same
  have inside := (List.getElem?_eq_some_iff.mp reads).1
  obtain ⟨finishes, conserves⟩ :=
    conserves_shellStep (flows.finishes index shell reads) (flows.attended unshut reads) stepped
  refine ⟨placed, flows.ends, ?_, ?_, ?_⟩
  · -- Only the generation that moved finishes anew.
    intro other found finds
    by_cases here : index = other
    · subst here
      rw [List.getElem?_set_self inside, Option.some.injEq] at finds
      exact finds ▸ finishes
    · rw [List.getElem?_set_ne here] at finds
      exact flows.finishes other found finds
  · -- A generation that is spent stays so, whatever its shell does.
    intro other found finds past
    by_cases here : index = other
    · subst here
      rw [List.getElem?_set_self inside, Option.some.injEq] at finds
      exact finds ▸ spent_shellStep (flows.spent index shell reads past) stepped
    · rw [List.getElem?_set_ne here] at finds
      exact flows.spent other found finds past
  · have total := flows.total
    simp only [State.onTheWay, State.received] at total ⊢
    -- Of the output on its way, only generations from the one that is read count.
    have shifted (ahead : state.reading ≤ index) :
        (state.shells.drop state.reading)[index - state.reading]? = some shell := by
      rw [List.getElem?_drop, show state.reading + (index - state.reading) = index by omega]
      exact reads
    cases conserves with
    | arrived payload running received rest =>
      obtain ⟨ahead, last⟩ := flows.last reads running
      rw [flatMap_set_last reads last received, List.drop_set, if_neg (Nat.not_lt.mpr ahead),
        flatMap_set_last (shifted ahead) (by simp; omega) rest]
      simpa only [List.append_assoc] using congrArg (· ++ payload) total
    | inside received rest =>
      -- Nothing arrived, so the sums are made of the same output.
      rw [flatMap_set_same reads received]
      by_cases ahead : state.reading ≤ index
      · rw [List.drop_set, if_neg (Nat.not_lt.mpr ahead), flatMap_set_same (shifted ahead) rest]
        exact total
      · rw [List.drop_set_of_lt (by omega)]
        exact total

/-- A supervisor that is past the end of the output holds no chunk. -/
theorem inHand_of_finished {phase : Phase} (finished : phase.finished = true) :
    phase.inHand = [] := by
  cases phase with
  | forwarding chunk => cases finished
  | _ => rfl

/-- Past its output, the supervisor has seen the end of it. -/
theorem finished_of_past {phase : Phase} (past : phase.past = true ∨ phase = .stopped) :
    phase.finished = true := by
  -- The phases that are not finished are the two in which output is read.
  rcases past with past | rfl
  · cases phase with
    | pumping => cases past
    | forwarding chunk => cases past
    | _ => rfl
  · rfl

/-- The supervisor's moves between two outputs leave every byte where it is. -/
theorem Flows.onward (flows : Flows state) (placed : Placed next)
    (shells : next.shells = state.shells) (path : next.path = state.path)
    (reading : next.reading = state.reading) {phase : Phase} (stands : state.phase = phase)
    (finished : phase.finished = true) (running : phase ≠ .stopped)
    (still : next.phase.finished = true) :
    Flows next := by
  -- Neither phase holds a chunk, and one that is past its output is not the stop itself.
  subst stands
  refine flows.frame placed shells path reading ?_ (fun _ => finished) ?_
  · rw [inHand_of_finished finished, inHand_of_finished still]
  · intro unfed
    exact absurd (by simpa [State.unfed] using unfed) running

/-- The supervisor takes the next chunk of the output it reads. -/
theorem flows_received (flows : Flows state) {shell : Shell} {chunk : Bytes} {out : List Bytes}
    (pumping : state.phase = .pumping) (reads : state.shells[state.reading]? = some shell)
    (queued : shell.out = chunk :: out)
    (placed : Placed next)
    (same : next = { state with
      phase := .forwarding chunk, shells := state.shells.set state.reading { shell with out } }) :
    Flows next := by
  subst same
  have inside := (List.getElem?_eq_some_iff.mp reads).1
  refine ⟨placed, flows.ends.unfed ?_, ?_, ?_, ?_⟩
  · simp [State.unfed, pumping]
  · intro other found finds
    by_cases here : state.reading = other
    · subst here
      rw [List.getElem?_set_self inside, Option.some.injEq] at finds
      exact finds ▸ flows.finishes _ shell reads
    · rw [List.getElem?_set_ne here] at finds
      exact flows.finishes other found finds
  · intro other found finds past
    rcases past with earlier | ⟨_, finished⟩
    · have apart : state.reading ≠ other := Nat.ne_of_gt earlier
      rw [List.getElem?_set_ne apart] at finds
      exact flows.spent other found finds (.inl earlier)
    · cases finished
  · have received : Shell.received { shell with out } = shell.received := rfl
    have total := flows.total
    simp only [State.onTheWay, State.received, pumping, Phase.inHand, List.nil_append] at total ⊢
    rw [flatMap_set_same reads received, List.drop_set, if_neg (Nat.lt_irrefl _), Nat.sub_self]
    rw [← total, List.append_cancel_left_eq, List.append_cancel_left_eq]
    -- The chunk moves from the front of the queue into the supervisor's hand.
    obtain ⟨_, rfl⟩ := List.getElem?_eq_some_iff.mp reads
    rw [List.drop_eq_getElem_cons inside, List.set_cons_zero]
    simp only [List.flatMap_cons, Shell.rest, queued, List.flatten_cons, List.append_assoc]

/-- At the end of a generation's output its pump is done and its queue is empty. -/
theorem flows_drained (flows : Flows state) {shell : Shell} (pumping : state.phase = .pumping)
    (reads : state.shells[state.reading]? = some shell) (empty : shell.out = [])
    (done : shell.pump = .done) (placed : Placed { state with phase := .ended }) :
    Flows { state with phase := .ended } := by
  obtain ⟨ended, inbox⟩ := flows.finishes _ _ reads done
  refine ⟨placed, flows.ends.unfed (by simp [State.unfed, pumping]), flows.finishes, ?_, ?_⟩
  -- The generation that is read joins those that are spent.
  · intro index shell finds past
    rcases past with earlier | ⟨rfl, _⟩
    · exact flows.spent index shell finds (.inl earlier)
    · rw [reads, Option.some.injEq] at finds
      exact finds ▸ ⟨ended, done, inbox, empty⟩
  · simpa [State.onTheWay, State.received, pumping, Phase.inHand] using flows.total

/-- The chunk in the supervisor's hand goes behind everything on the data path. -/
theorem flows_forwarded (flows : Flows state) {chunk : Bytes}
    (forwarding : state.phase = .forwarding chunk)
    (takes : state.path.coalescer.phase ≠ .stopped)
    (placed : Placed { state with
      phase := .pumping, path := { state.path with input := state.path.input ++ [chunk] } }) :
    Flows { state with
      phase := .pumping, path := { state.path with input := state.path.input ++ [chunk] } } := by
  refine ⟨placed, ⟨?_, ?_, ?_⟩, flows.finishes, ?_, ?_⟩
  · exact fun ended => absurd (flows.ends.sender ended).1 takes
  · exact fun stopped => absurd stopped takes
  · intro frame sending
    -- The last frame is made once the supervisor feeds the path no more.
    have unfed := (flows.ends.lastFrame frame sending).2.2
    simp [State.unfed, forwarding] at unfed
  · intro index shell reads past
    rcases past with earlier | ⟨_, finished⟩
    · exact flows.spent index shell reads (.inl earlier)
    · cases finished
  · have total := flows.total
    simp only [State.onTheWay, State.received, forwarding, Phase.inHand] at total ⊢
    simpa [DataPath.held, DataPath.delivered] using total

/-- A generation that was just opened has sent nothing. -/
theorem flows_succeeded (flows : Flows state) {attempt : UInt32} {size : Size}
    (attempting : state.phase = .attempting attempt size)
    (placed : Placed { state with
      phase := .established, shells := state.shells ++ [.open size] }) :
    Flows { state with phase := .established, shells := state.shells ++ [.open size] } := by
  have length : state.shells.length = state.reading + 1 := by
    have shells := flows.placed.shells
    rwa [attempting] at shells
  refine ⟨placed, flows.ends.unfed (by simp [State.unfed, attempting]), ?_, ?_, ?_⟩
  · intro index shell reads
    rcases List.mem_append.mp (List.mem_of_getElem? reads) with earlier | opened
    · obtain ⟨other, finds⟩ := List.getElem?_of_mem earlier
      exact flows.finishes other shell finds
    · rw [List.mem_singleton.mp opened]
      exact nofun
  · intro index shell reads past
    -- Those that are spent come before the one that was opened.
    have inside : index < state.shells.length := by
      rcases past with earlier | ⟨here, _⟩
      · exact length ▸ Nat.lt_succ_of_lt earlier
      · exact length ▸ here ▸ Nat.lt_succ_self _
    rw [List.getElem?_append_left inside] at reads
    refine flows.spent index shell reads (past.imp id (And.imp id fun _ => ?_))
    rw [attempting]
    rfl
  · have total := flows.total
    simp only [State.onTheWay, State.received, attempting, Phase.inHand] at total ⊢
    rw [List.drop_append_of_le_length (by omega)]
    simpa [Shell.open, Shell.rest, Shell.received, Pump.inHand] using total

/-- Nothing was left of the generation that is no longer read. -/
theorem flows_connected (flows : Flows state) (reopened : state.phase = .reopened)
    (placed : Placed { state.send .connected with
      phase := .pumping, reading := state.reading + 1 }) :
    Flows { state.send .connected with phase := .pumping, reading := state.reading + 1 } := by
  have inside : state.reading < state.shells.length := by
    rw [flows.placed.shells]
    omega
  have spent : (state.shells.get ⟨state.reading, inside⟩).Spent :=
    flows.spent _ _ (List.getElem?_eq_getElem inside) (.inr ⟨rfl, by rw [reopened]; rfl⟩)
  refine ⟨placed, flows.ends.unfed (by simp [State.unfed, reopened]), flows.finishes, ?_, ?_⟩
  · intro index shell reads past
    rcases past with earlier | ⟨_, finished⟩
    · apply flows.spent index shell reads
      rcases Nat.lt_succ_iff_lt_or_eq.mp earlier with before | here
      · exact .inl before
      · exact .inr ⟨here, by rw [reopened]; rfl⟩
    · cases finished
  · have total := flows.total
    simp only [State.onTheWay, State.received, reopened, Phase.inHand] at total ⊢
    -- The first generation of the rest drops out, and had nothing to give.
    rw [List.drop_eq_getElem_cons inside, List.flatMap_cons] at total
    rw [show (state.shells[state.reading]).rest = [] from spent.rest] at total
    exact total

/-- A move of the supervisor passes output on in order, one generation after the other. -/
theorem flows_moves {input : Input} (flows : Flows state) (intact : Intact next)
    (placed : Placed next) (moves : Moves setup state input next) : Flows next := by
  cases carries_moves moves with
  | received pumping reads queued => exact flows_received flows pumping reads queued placed rfl
  | drained pumping reads empty done => exact flows_drained flows pumping reads empty done placed
  | forwarded forwarding takes room => exact flows_forwarded flows forwarding takes placed
  | succeeded attempting => exact flows_succeeded flows attempting placed
  | connected reopened => exact flows_connected flows reopened placed
  -- The session is not closed, so the supervisor does not stop for a signal.
  | stopped pumping shut => cases shut.symm.trans intact.unshut
  | refused forwarding gone =>
    -- The coalescer does not stop before it is unfed.
    have unfed := (flows.ends.coalescer gone).2.2
    simp [State.unfed, forwarding] at unfed
  | installed established => exact flows.onward placed rfl rfl rfl established rfl nofun rfl
  | idle idles =>
    refine flows.onward placed idles.shells idles.path idles.reading rfl
      (finished_of_past (.inl idles.past)) ?_ (finished_of_past idles.onward)
    intro stopped
    have past := idles.past
    rw [stopped] at past
    cases past

/-- The two differ in nothing that has to do with output. -/
structure Shell.SameOutput (shell other : Shell) : Prop where
  arrived : other.arrived = shell.arrived
  inbox : other.inbox = shell.inbox
  ended : other.ended = shell.ended
  pump : other.pump = shell.pump
  out : other.out = shell.out

/-- A change of one generation that has nothing to do with output moves no byte. -/
theorem Flows.modify (flows : Flows state) {index : Nat} {change : Shell → Shell}
    (unchanged : ∀ shell : Shell, shell.SameOutput (change shell)) (placed : Placed next)
    (shells : next.shells = state.shells.modify index change) (path : next.path = state.path)
    (reading : next.reading = state.reading) (phase : next.phase = state.phase) : Flows next := by
  -- Every generation after the change was one before it, with the same output.
  have found {other : Nat} {moved : Shell}
      (finds : (state.shells.modify index change)[other]? = some moved) :
      ∃ shell, state.shells[other]? = some shell ∧ shell.SameOutput moved := by
    rw [List.getElem?_modify] at finds
    obtain ⟨shell, reads, rfl⟩ := Option.map_eq_some_iff.mp finds
    refine ⟨shell, reads, ?_⟩
    by_cases here : index = other
    · simpa [here] using unchanged shell
    · simpa [here] using ⟨rfl, rfl, rfl, rfl, rfl⟩
  -- Neither what arrived nor what is left depends on the fields that changed.
  have measured (measure : Shell → Bytes)
      (blind : ∀ shell : Shell, measure (change shell) = measure shell) :
      (state.shells.modify index change).map measure = state.shells.map measure := by
    apply List.ext_getElem?
    intro other
    rw [List.getElem?_map, List.getElem?_map, List.getElem?_modify]
    cases state.shells[other]? with
    | none => rfl
    | some shell =>
      by_cases here : index = other
      · simp [here, blind]
      · simp [here]
  refine ⟨placed, ?_, ?_, ?_, ?_⟩
  · rw [path, State.unfed, phase]
    exact flows.ends
  · -- What the shells owe to the end of their output is about the fields that stayed.
    rw [shells]
    intro other moved finds done
    obtain ⟨shell, reads, same⟩ := found finds
    rw [same.pump] at done
    rw [same.ended, same.inbox]
    exact flows.finishes other shell reads done
  · rw [shells, reading, phase]
    intro other moved finds past
    obtain ⟨shell, reads, same⟩ := found finds
    obtain ⟨ended, done, inbox, out⟩ := flows.spent other shell reads past
    exact ⟨same.ended.trans ended, same.pump.trans done, same.inbox.trans inbox, same.out.trans out⟩
  · have total := flows.total
    simp only [State.onTheWay, State.received, List.flatMap_def, shells, path, reading, phase]
      at total ⊢
    -- Both totals are sums over the generations of such fields.
    have received (shell : Shell) : (change shell).received = shell.received := by
      rw [Shell.received, (unchanged shell).arrived, Shell.received]
    have rest (shell : Shell) : (change shell).rest = shell.rest := by
      rw [Shell.rest, (unchanged shell).out, (unchanged shell).pump, (unchanged shell).inbox,
        Shell.rest]
    rw [measured Shell.received received, List.map_drop, measured Shell.rest rest, ← List.map_drop]
    exact total

/-- A session that is intact after an action was so before it. -/
theorem intact_of_step {action : Action} (taken : step setup state action = some next)
    (intact : Intact next) : Intact state := by
  obtain ⟨unshut, accepts⟩ := intact
  cases takes_step taken with
  | supervise moves =>
    cases moves with
    | @acted reason decision deciding =>
      cases decision with
      | exit code => exact ⟨unshut, accepts⟩
      | reconnect attempt delay => exact ⟨unshut, accepts⟩
      | giveUp => exact ⟨unshut, accepts⟩
    | _ => exact ⟨unshut, accepts⟩
  -- A sender that was refused stays so.
  | path stepped => exact ⟨unshut, fun refused => accepts (refused_pathStep stepped refused)⟩
  | remove found =>
    refine ⟨?_, accepts⟩
    simp only [State.found, Bool.and_eq_true, beq_iff_eq] at found
    simp [State.isShutdown, found.2]
  | shutdown removed => cases unshut
  | _ => exact ⟨unshut, accepts⟩

/-- No action of an intact session loses, doubles or moves a byte. -/
theorem flows_step {action : Action} (flows : Flows state)
    (taken : step setup state action = some next) (intact : Intact next) : Flows next := by
  have before := intact_of_step taken intact
  have placed := placed_step flows.placed taken
  cases takes_step taken with
  | supervise moves => exact flows_moves flows intact placed moves
  | shell reads stepped => exact flows_shell flows before.unshut placed reads stepped rfl
  -- The session is open, so the sender is never told to give its frame up.
  | path stepped =>
    rw [before.unshut, Bool.and_false] at stepped
    obtain ⟨ends, conserved⟩ := conserves_pathStep flows.ends stepped intact.accepts
    refine ⟨placed, ends, flows.finishes, flows.spent, ?_⟩
    have total := flows.total
    simp only [State.onTheWay, State.received] at total ⊢
    rw [← List.append_assoc, conserved, List.append_assoc]
    exact total
  | paused runs =>
    refine flows.modify ?_ placed rfl rfl rfl rfl
    exact fun _ => ⟨rfl, rfl, rfl, rfl, rfl⟩
  | changed flies =>
    refine flows.modify (fun shell => ?_) placed rfl rfl rfl rfl
    unfold Shell.resized
    split
    · exact ⟨rfl, rfl, rfl, rfl, rfl⟩
    · exact ⟨rfl, rfl, rfl, rfl, rfl⟩
  | _ => exact flows.frame placed rfl rfl rfl rfl id id

/-- A session starts with nothing received and nothing on its way. -/
theorem flows_init (setup : Setup) : Flows (State.init setup) where
  -- There is one generation, and it has sent nothing.
  placed := placed_init setup
  ends := ⟨nofun, nofun, nofun⟩
  finishes := by
    intro index shell reads
    rw [List.mem_singleton.mp (List.mem_of_getElem? reads)]
    exact nofun
  spent := by
    intro index shell reads past
    rcases past with earlier | ⟨_, finished⟩
    · cases earlier
    · cases finished
  total := rfl

end Flow

section Delivering

variable {setup : Setup} {state : State}

/-- The supervisor has taken and passed on everything the generations sent. -/
def State.Consumed (self : State) : Prop :=
  self.phase.inHand = [] ∧ ∀ shell ∈ self.shells, shell.rest = []

/-- No task of the data path can move a byte on. -/
def State.Quiet (setup : Setup) (self : State) : Prop :=
  ∀ action ∈ [PathAction.receive false, .tick, .flush, .senderTake, .senderCheck, .senderSend],
    step setup self (.path action) = none

instance (setup : Setup) (state : State) : Decidable (state.Quiet setup) :=
  inferInstanceAs (Decidable (∀ action ∈ [PathAction.receive false, .tick, .flush, .senderTake,
    .senderCheck, .senderSend], step setup state (.path action) = none))

/-- A data path with an open gate whose tasks cannot move holds nothing. -/
theorem held_of_quiet (flows : Flows state) (intact : Intact state) (opened : state.gate = false)
    (quiet : state.Quiet setup) : state.path.held = [] := by
  -- With the gate open, a sender that holds a frame can move.
  have idle : state.path.sender = .waiting ∨ state.path.sender = .ended := by
    cases sender : state.path.sender with
    | waiting => exact .inl rfl
    | gated frame =>
      have check := quiet .senderCheck (by simp)
      simp [step, pathStep, sender, opened] at check
    | cleared frame =>
      have send := quiet .senderSend (by simp)
      simp [step, pathStep, sender] at send
    | ended => exact .inr rfl
    | refused => exact absurd sender intact.accepts
  -- A waiting sender would take a frame that is queued.
  have frames : state.path.frames = [] := by
    rcases idle with waiting | ended
    · cases queued : state.path.frames with
      | nil => rfl
      | cons frame rest =>
        have take := quiet .senderTake (by simp)
        simp [step, pathStep, waiting, queued] at take
    · exact (flows.ends.sender ended).2
  have coalesced : state.path.coalescer.held = [] ∧ state.path.input = [] := by
    cases phase : state.path.coalescer.phase with
    | stopped =>
      obtain ⟨buf, input, _⟩ := flows.ends.coalescer phase
      exact ⟨by simp [Coalescer.held, Coalescer.inHand, phase, buf], input⟩
    | sending frame last =>
      -- There is room for its frame, and the sender has not ended before it.
      rcases idle with waiting | ended
      · have flush := quiet .flush (by simp)
        simp [step, pathStep, phase, waiting, frames, queueDepth] at flush
      · cases phase.symm.trans (flows.ends.sender ended).1
    | waiting =>
      -- A waiting coalescer would flush its buffer or take a chunk.
      have tick := quiet .tick (by simp)
      have receive := quiet (.receive false) (by simp)
      have buf : state.path.coalescer.buf = [] := by
        simpa [step, pathStep, phase] using tick
      refine ⟨by simp [Coalescer.held, Coalescer.inHand, phase, buf], ?_⟩
      cases queued : state.path.input with
      | nil => rfl
      | cons chunk rest => simp [step, pathStep, phase, queued] at receive
  have inHand : state.path.sender.inHand = [] := by
    rcases idle with waiting | ended
    · rw [waiting]
      rfl
    · rw [ended]
      rfl
  simp [DataPath.held, inHand, frames, coalesced.1, coalesced.2]

/--
While the session is open and the webview's channel accepts frames,
what was delivered is at every moment a prefix of the output of all generations in their order,
and it is the whole of it once all is consumed and the data path, with its gate open, is quiet.
-/
theorem delivery_lossless (setup : Setup) {actions : List Action} {final : State}
    (ran : System.run (step setup) (State.init setup) actions = some final)
    (unshut : final.isShutdown = false) (accepts : final.path.sender ≠ .refused) :
    final.path.delivered <+: final.received ∧
      (final.Consumed → final.gate = false → final.Quiet setup →
        final.path.delivered = final.received) := by
  -- A session that is intact in the end was so all the time.
  have preserved {state next : State} {action : Action} (flows : Intact state → Flows state)
      (taken : step setup state action = some next) (intact : Intact next) : Flows next :=
    flows_step (flows (intact_of_step taken intact)) taken intact
  have flows := System.run_preserves preserved (fun _ => flows_init setup) ran ⟨unshut, accepts⟩
  refine ⟨⟨final.onTheWay, flows.total⟩, ?_⟩
  intro consumed opened quiet
  have nothing : final.onTheWay = [] := by
    rw [State.onTheWay, held_of_quiet flows ⟨unshut, accepts⟩ opened quiet, consumed.1]
    simp only [List.nil_append, List.flatMap_eq_nil_iff]
    exact fun shell member => consumed.2 shell (List.mem_of_mem_drop member)
  have total := flows.total
  rwa [nothing, List.append_nil] at total

/-- The actions that bring one chunk of a generation to the webview. -/
def deliver (index : Nat) (chunk : Bytes) : List Action :=
  [.shell index (.arrive (.data chunk)), .shell index .check, .shell index .take,
    .shell index .send, .supervise .next, .supervise .next, .path (.receive true), .path .flush,
    .path .senderTake, .path .senderCheck, .path .senderSend]

/-- The actions by which a drop is noticed and an attempt to reconnect succeeds. -/
def reconnect (index : Nat) : List Action :=
  [.shell index .lose, .shell index .check, .shell index .take, .supervise .next,
    .supervise .next, .supervise .next, .supervise (.draw none), .supervise .next,
    .supervise .next, .supervise .next, .supervise .next, .supervise .next, .supervise .succeed,
    .supervise .next, .supervise .next, .supervise .next]

/-- One byte of each of two generations. -/
theorem delivery_lossless_twice :
    ∃ final, System.run (step savedHost) (State.init savedHost)
        (.announce :: .register :: (deliver 0 [0x61] ++ reconnect 0 ++ deliver 1 [0x62])) =
          some final ∧
      final.isShutdown = false ∧ final.path.sender ≠ .refused ∧ final.Consumed ∧
      final.gate = false ∧ final.Quiet savedHost ∧ final.received = [0x61, 0x62] ∧
      final.path.delivered = final.received := by
  -- The run is evaluated, and its final state meets what the theorem asks of it.
  have ends : ∃ final, System.run (step savedHost) (State.init savedHost)
        (.announce :: .register :: (deliver 0 [0x61] ++ reconnect 0 ++ deliver 1 [0x62])) =
          some final ∧
      final.isShutdown = false ∧ final.path.sender ≠ .refused ∧ final.Consumed ∧
      final.gate = false ∧ final.Quiet savedHost ∧ final.received = [0x61, 0x62] := by
    refine ⟨_, rfl, rfl, nofun, ⟨rfl, by decide⟩, rfl, by decide, rfl⟩
  obtain ⟨final, ran, unshut, accepts, consumed, opened, quiet, received⟩ := ends
  exact ⟨final, ran, unshut, accepts, consumed, opened, quiet, received,
    (delivery_lossless savedHost ran unshut accepts).2 consumed opened quiet⟩

end Delivering

end Tern.Session
