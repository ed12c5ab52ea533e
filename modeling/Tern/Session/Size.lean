import Tern.Session.Steps

/-! The size of the remote terminal across reconnects, against the size that was asked for last. -/

namespace Tern.Session

variable {setup : Setup} {state next : State}

section Turns

/-- How far a resize has come, as a number. -/
def ResizeStage.rank : ResizeStage → Nat
  | .found => 0
  | .colsSet => 1
  | .rowsSet => 2
  | .holding _ => 3

/-- A resize has not overtaken an older one. -/
def InTurn (newer older : Resize) : Prop :=
  newer.stage.rank ≤ older.stage.rank ∧
    ∀ later earlier, newer.stage = .holding later → older.stage = .holding earlier →
      earlier ≤ later

/-- How far the newest resize has come, where one that is over has come as far as can be. -/
def State.progress (self : State) : Nat :=
  match self.resizes with
  | [] => 3
  | newest :: _ => newest.stage.rank

/-- The size a reconnect has read, or is reading, is the given one. -/
def ReadSize (state : State) (size : Size) : Prop :=
  match state.phase with
  | .sizing _ cols => cols = size.cols
  | .attempting _ read => read = size
  -- The terminal is open at the size it was asked for, and no handle reaches it yet.
  | .established =>
    ∃ shell, state.shells[state.reading + 1]? = some shell ∧
      (shell.size = size ∨ shell.lost = true)
  | _ => True

/--
A resize takes each step after the older ones took it,
and the newest takes its handle while no reconnect is under way at another size.
-/
def ResizesInTurn (state : State) : Action → Prop
  | .resizing index =>
    (∀ moving older, state.resizes[index]? = some moving →
      older ∈ state.resizes.drop (index + 1) → moving.stage.rank < older.stage.rank) ∧
    ∀ size, index = 0 → state.resizes.head? = some ⟨size, .rowsSet⟩ → ReadSize state size
  | _ => True

/-- The resizes in flight keep their turns, and what they have recorded is there. -/
structure Queued (state : State) : Prop where
  inTurn : state.resizes.Pairwise InTurn
  held : ∀ resize ∈ state.resizes, ∀ index, resize.stage = .holding index → index ≤ state.conn
  newest : ∀ resize, state.resizes.head? = some resize → resize.size = state.requested
  cols : 1 ≤ state.progress → state.dims.cols = state.requested.cols
  rows : 2 ≤ state.progress → state.dims.rows = state.requested.rows

/-- What an action that touches no resize leaves of the queue. -/
theorem Queued.frame (queued : Queued state) (resizes : next.resizes = state.resizes)
    (requested : next.requested = state.requested) (dims : next.dims = state.dims)
    (conn : state.conn ≤ next.conn) : Queued next := by
  -- The queue and what was recorded are the same, and handles are never newer than before.
  have progress : next.progress = state.progress := by rw [State.progress, resizes, State.progress]
  refine ⟨resizes ▸ queued.inTurn, ?_, ?_, ?_, ?_⟩
  · intro resize member index holds
    rw [resizes] at member
    exact le_trans (queued.held resize member index holds) conn
  · rw [resizes, requested]
    exact queued.newest
  · rw [progress, dims, requested]
    exact queued.cols
  · rw [progress, dims, requested]
    exact queued.rows

/-- One resize moves on in its place, without overtaking an older one. -/
theorem Queued.moved {newer older : List Resize} {size : Size} {stage moved : ResizeStage}
    (queued : Queued state) (flies : state.resizes = newer ++ ⟨size, stage⟩ :: older)
    (resizes : next.resizes = newer ++ ⟨size, moved⟩ :: older)
    (requested : next.requested = state.requested) (conn : next.conn = state.conn)
    (further : stage.rank ≤ moved.rank)
    (behind : ∀ resize ∈ older, moved.rank ≤ resize.stage.rank)
    (holding : ∀ index, moved = .holding index → index = state.conn ∧ stage.rank < 3)
    (cols : 1 ≤ next.progress → next.dims.cols = next.requested.cols)
    (rows : 2 ≤ next.progress → next.dims.rows = next.requested.rows) : Queued next := by
  have inTurn := queued.inTurn
  have held := queued.held
  rw [flies] at inTurn held
  -- The resize that moves is compared with those behind it, and those before with it.
  obtain ⟨turns, behindTurns, across⟩ := List.pairwise_append.mp inTurn
  obtain ⟨behindMoving, turns'⟩ := List.pairwise_cons.mp behindTurns
  refine ⟨?_, ?_, ?_, cols, rows⟩
  · rw [resizes]
    refine List.pairwise_append.mpr ⟨turns, List.pairwise_cons.mpr ⟨?_, turns'⟩, ?_⟩
    · intro resize member
      refine ⟨behind resize member, ?_⟩
      intro later earlier holds held'
      -- A handle taken now is of the generation that is installed now.
      rw [(holding later holds).1]
      exact held resize (by simp [member]) earlier held'
    · intro resize member other listed
      rcases List.mem_cons.mp listed with rfl | behindOther
      · have turn := across resize member ⟨size, stage⟩ (by simp)
        refine ⟨le_trans turn.1 further, ?_⟩
        intro later earlier holds held'
        -- Nobody newer holds a handle before this one does.
        have low := (holding earlier held').2
        have high := turn.1
        rw [holds] at high
        simp only [ResizeStage.rank] at high low
        omega
      · exact across resize member other (by simp [behindOther])
  · rw [resizes, conn]
    intro resize member index holds
    rcases List.mem_append.mp member with front | back
    · exact held resize (by simp [front]) index holds
    · rcases List.mem_cons.mp back with rfl | rest
      · exact le_of_eq (holding index holds).1
      · exact held resize (by simp [rest]) index holds
  · rw [requested]
    intro resize head
    have newest := queued.newest
    rw [flies] at newest
    rw [resizes] at head
    cases newer with
    | nil =>
      cases head
      exact newest ⟨size, stage⟩ rfl
    | cons first rest =>
      cases head
      exact newest _ rfl

/-- Whoever is older than the resize that moves is further than it. -/
theorem ahead_of_inTurn {newer older : List Resize} {moving : Resize}
    (flies : state.resizes = newer ++ moving :: older)
    (allowed : ResizesInTurn state (.resizing newer.length)) :
    ∀ resize ∈ older, moving.stage.rank < resize.stage.rank := by
  -- Its place in the queue is the number of newer ones, so the older ones come behind it.
  intro resize member
  apply allowed.1 moving resize
  · rw [flies]
    simp
  · rw [flies, List.drop_length_add_append]
    exact member

/-- Whoever is newer than a resize is not further than it. -/
theorem Queued.behind {newer older : List Resize} {moving : Resize} (queued : Queued state)
    (flies : state.resizes = newer ++ moving :: older) :
    ∀ resize ∈ newer, resize.stage.rank ≤ moving.stage.rank := by
  intro resize member
  have inTurn := queued.inTurn
  rw [flies] at inTurn
  exact ((List.pairwise_append.mp inTurn).2.2 resize member moving (by simp)).1

/-- The resize that moves last in turn is the oldest one. -/
theorem oldest_of_holding {newer older : List Resize} {index : Nat} {size : Size}
    (flies : state.resizes = newer ++ ⟨size, .holding index⟩ :: older)
    (allowed : ResizesInTurn state (.resizing newer.length)) : older = [] := by
  cases older with
  | nil => rfl
  | cons resize rest =>
    have further := ahead_of_inTurn flies allowed resize List.mem_cons_self
    -- Nobody can be further than a resize that holds its handle.
    cases stage : resize.stage <;> simp [stage, ResizeStage.rank] at further

/-- Only the newest resize is ever further than the one that moves was. -/
theorem Queued.newest_of_ahead {newer older : List Resize} {moving moved : Resize}
    (queued : Queued state) (flies : state.resizes = newer ++ moving :: older)
    (resizes : next.resizes = newer ++ moved :: older)
    (come : moving.stage.rank < next.progress) : newer = [] := by
  -- A newer one would be the newest, and it is not further than the one that moves was.
  cases newer with
  | nil => rfl
  | cons first rest =>
    have low := queued.behind flies first List.mem_cons_self
    rw [State.progress, resizes] at come
    have high : moving.stage.rank < first.stage.rank := come
    omega

/-- When the newest resize has its handle, one that had none yet is the newest itself. -/
theorem Queued.newest_of_settled {newer older : List Resize} {moving moved : Resize}
    (queued : Queued state) (flies : state.resizes = newer ++ moving :: older)
    (settled : next.progress = 3) (resizes : next.resizes = newer ++ moved :: older)
    (early : moving.stage.rank < 3) : newer = [] :=
  queued.newest_of_ahead flies resizes (settled ▸ early)

/-- A resize that comes after the older ones has the last word on the columns. -/
theorem queued_setCols {newer older : List Resize} {size : Size}
    (allowed : ResizesInTurn state (.resizing newer.length)) (queued : Queued state)
    (flies : state.resizes = newer ++ ⟨size, .found⟩ :: older) :
    Queued { state with
      dims := { state.dims with cols := size.cols }
      resizes := newer ++ ⟨size, .colsSet⟩ :: older } := by
  have ahead := ahead_of_inTurn flies allowed
  refine queued.moved flies rfl rfl rfl (by decide) (fun resize member => ahead resize member)
    (by simp) ?_ ?_
  · intro progress
    obtain rfl := queued.newest_of_ahead flies rfl progress
    have newest : size = state.requested := queued.newest ⟨size, .found⟩ (by rw [flies]; rfl)
    change size.cols = state.requested.cols
    rw [newest]
  · -- Nobody has recorded rows, neither this resize nor a newer one.
    intro progress
    obtain rfl := queued.newest_of_ahead flies rfl (Nat.lt_of_succ_lt progress)
    have come : 2 ≤ 1 := progress
    omega

/-- Likewise for the rows, while the columns are left alone. -/
theorem queued_setRows {newer older : List Resize} {size : Size}
    (allowed : ResizesInTurn state (.resizing newer.length)) (queued : Queued state)
    (flies : state.resizes = newer ++ ⟨size, .colsSet⟩ :: older) :
    Queued { state with
      dims := { state.dims with rows := size.rows }
      resizes := newer ++ ⟨size, .rowsSet⟩ :: older } := by
  have ahead := ahead_of_inTurn flies allowed
  refine queued.moved flies rfl rfl rfl (by decide) (fun resize member => ahead resize member)
    (by simp) ?_ ?_
  -- The columns were recorded when the resize came to where it stands.
  · intro progress
    apply queued.cols
    rw [State.progress, flies]
    cases newer with
    | nil => exact le_rfl
    | cons first rest => exact progress
  · intro progress
    obtain rfl := queued.newest_of_ahead flies rfl progress
    have newest : size = state.requested := queued.newest ⟨size, .colsSet⟩ (by rw [flies]; rfl)
    change size.rows = state.requested.rows
    rw [newest]

/-- Taking the handle of the installed generation records nothing. -/
theorem queued_handled {newer older : List Resize} {size : Size}
    (allowed : ResizesInTurn state (.resizing newer.length)) (queued : Queued state)
    (flies : state.resizes = newer ++ ⟨size, .rowsSet⟩ :: older) :
    Queued { state with resizes := newer ++ ⟨size, .holding state.conn⟩ :: older } := by
  have ahead := ahead_of_inTurn flies allowed
  refine queued.moved flies rfl rfl rfl (Nat.le_succ 2)
    (fun resize member => ahead resize member) ?_ ?_ ?_
  · intro index holds
    cases holds
    exact ⟨rfl, by decide⟩
  -- Whatever the newest resize has recorded by now, it had recorded before.
  · intro progress
    apply queued.cols
    rw [State.progress, flies]
    cases newer with
    | nil => exact Nat.le_succ 1
    | cons first rest => exact progress
  · intro progress
    apply queued.rows
    rw [State.progress, flies]
    cases newer with
    | nil => exact le_rfl
    | cons first rest => exact progress

/-- When the oldest resize is over, the newest one is over too, or it is where it was. -/
theorem progress_changed {newer : List Resize} {index : Nat} {size : Size}
    (flies : state.resizes = newer ++ [⟨size, .holding index⟩]) (resizes : next.resizes = newer) :
    next.progress = state.progress := by
  rw [State.progress, State.progress, flies, resizes]
  cases newer with
  | nil => rfl
  | cons first rest => rfl

/-- The oldest resize leaves the queue when its terminal is told the size. -/
theorem queued_changed {newer : List Resize} {index : Nat} {size : Size} (queued : Queued state)
    (flies : state.resizes = newer ++ [⟨size, .holding index⟩]) :
    Queued { state with
      resizes := newer
      shells := state.shells.modify index fun shell => shell.resized size } := by
  -- The others keep their places, and the newest one is among them or was the only one.
  have before := @progress_changed state { state with resizes := newer } _ _ _ flies rfl
  have sublist : newer.Sublist state.resizes := by
    rw [flies]
    exact List.sublist_append_left _ _
  refine ⟨queued.inTurn.sublist sublist, ?_, ?_, ?_, ?_⟩
  · exact fun resize member => queued.held resize (sublist.subset member)
  · intro resize head
    apply queued.newest resize
    rw [flies]
    cases newer with
    | nil => cases head
    | cons first rest => exact head
  · intro progress
    exact queued.cols (before ▸ progress)
  · intro progress
    exact queued.rows (before ▸ progress)

/-- A queue of resizes in turn stays one whatever happens in turn. -/
theorem queued_resizing {index : Nat} (allowed : ResizesInTurn state (.resizing index))
    (queued : Queued state) (takes : Takes setup state (.resizing index) next) : Queued next := by
  -- A resize has four stages, and the last one is the oldest when it moves.
  cases takes with
  | setCols flies => exact queued_setCols allowed queued flies
  | setRows flies => exact queued_setRows allowed queued flies
  | handled flies => exact queued_handled allowed queued flies
  | changed flies =>
    have last := oldest_of_holding flies allowed
    subst last
    rw [List.append_nil]
    exact queued_changed queued flies

/-- A queue of resizes in turn stays one. -/
theorem queued_step {action : Action} (allowed : ResizesInTurn state action) (placed : Placed state)
    (queued : Queued state) (taken : step setup state action = some next) : Queued next := by
  have takes := takes_step taken
  cases action with
  | resizing index => exact queued_resizing allowed queued takes
  | resize size =>
    cases takes with
    | resize found =>
      -- A new resize is the newest and has recorded nothing.
      refine ⟨List.pairwise_cons.mpr ⟨?_, queued.inTurn⟩, ?_, ?_, ?_, ?_⟩
      · intro resize member
        exact ⟨Nat.zero_le _, fun later earlier holds => by cases holds⟩
      · intro resize member index holds
        rcases List.mem_cons.mp member with rfl | earlier
        · cases holds
        · exact queued.held resize earlier index holds
      · intro resize head
        cases head
        rfl
      · intro progress
        have come : 1 ≤ 0 := progress
        omega
      · intro progress
        have come : 2 ≤ 0 := progress
        omega
  | supervise input =>
    cases takes with
    | supervise moves =>
      cases moves with
      -- A newer generation is installed, and the handles taken so far are older.
      | installed established =>
        refine queued.frame rfl rfl rfl ?_
        rw [placed.conn, established]
        exact Nat.le_succ _
      | @acted reason decision deciding =>
        cases decision with
        | exit code => exact queued.frame rfl rfl rfl le_rfl
        | reconnect attempt delay => exact queued.frame rfl rfl rfl le_rfl
        | giveUp => exact queued.frame rfl rfl rfl le_rfl
      | _ => exact queued.frame rfl rfl rfl le_rfl
  | _ =>
    -- Nothing else touches a resize, a recorded size or the installed generation.
    cases takes with
    | _ => exact queued.frame rfl rfl rfl le_rfl

end Turns

section Terminals

/-- A remote terminal keeps its size, and its transport does not come back. -/
def Shell.Kept (before after : Shell) : Prop :=
  after.size = before.size ∧ (before.lost = true → after.lost = true)

/-- The remote terminals keep their sizes, though there may be more of them. -/
def Kept (before after : List Shell) : Prop :=
  ∀ (index : Nat) (shell : Shell), before[index]? = some shell →
    ∃ moved, after[index]? = some moved ∧ shell.Kept moved

/-- What is left alone is kept. -/
theorem kept_refl (shells : List Shell) : Kept shells shells :=
  fun _ shell reads => ⟨shell, reads, rfl, id⟩

/-- More terminals leave those there are alone. -/
theorem kept_append (shells more : List Shell) : Kept shells (shells ++ more) := by
  intro index shell reads
  obtain ⟨inside, _⟩ := List.getElem?_eq_some_iff.mp reads
  exact ⟨shell, by rw [List.getElem?_append_left inside, reads], rfl, id⟩

/-- Replacing one terminal by one that keeps its size keeps all sizes. -/
theorem kept_set {shells : List Shell} {index : Nat} {shell moved : Shell}
    (reads : shells[index]? = some shell) (keeps : shell.Kept moved) :
    Kept shells (shells.set index moved) := by
  intro other found finds
  obtain ⟨inside, _⟩ := List.getElem?_eq_some_iff.mp reads
  -- Only the terminal that is replaced needs to be compared.
  by_cases same : index = other
  · subst same
    rw [reads, Option.some.injEq] at finds
    subst finds
    exact ⟨moved, List.getElem?_set_self inside, keeps⟩
  · exact ⟨found, by rw [List.getElem?_set_ne same, finds], rfl, id⟩

/-- Changing one terminal in a way that keeps sizes keeps all sizes. -/
theorem kept_modify {shells : List Shell} {index : Nat} {change : Shell → Shell}
    (keeps : ∀ shell : Shell, shell.Kept (change shell)) :
    Kept shells (shells.modify index change) := by
  -- The terminal that is changed keeps its size, and the others are not touched.
  intro other found finds
  rw [List.getElem?_modify, finds]
  by_cases same : index = other
  · exact ⟨change found, by simp [same], keeps found⟩
  · exact ⟨found, by simp [same], rfl, id⟩

/-- No step at a shell changes the size of its terminal. -/
theorem kept_shellStep {unread orphaned : Bool} {shell moved : Shell} {action : ShellAction}
    (stepped : shellStep unread orphaned shell action = some moved) : shell.Kept moved := by
  cases shellMoves_shellStep stepped with
  -- A transport is lost for good.
  | lost => exact ⟨rfl, fun _ => rfl⟩
  | _ => exact ⟨rfl, id⟩

/-- A terminal has the size asked for, or will be told it, or is lost. -/
def Shows (state : State) (index : Nat) : Prop :=
  ∃ shell, state.shells[index]? = some shell ∧
    (shell.size = state.requested ∨ shell.lost = true ∨
      ∃ older, state.resizes = ⟨state.requested, .holding index⟩ :: older)

/-- Once the newest resize has its handle, the size asked for is on its way everywhere. -/
structure Covered (state : State) : Prop where
  read : state.progress = 3 → ReadSize state state.requested
  shown : state.progress = 3 → Shows state state.conn

/-- What was read stays read while the supervisor stands still and terminals keep their sizes. -/
theorem ReadSize.frame {size : Size} (read : ReadSize state size) (phase : next.phase = state.phase)
    (reading : next.reading = state.reading) (kept : Kept state.shells next.shells) :
    ReadSize next size := by
  unfold ReadSize at read ⊢
  rw [phase, reading]
  cases stands : state.phase with
  -- Only here does the size read depend on a terminal.
  | established =>
    rw [stands] at read
    obtain ⟨shell, reads, shown⟩ := read
    obtain ⟨moved, finds, same, lost⟩ := kept _ shell reads
    exact ⟨moved, finds, shown.imp (fun sized => same.trans sized) lost⟩
  | _ =>
    rw [stands] at read
    exact read

/-- A terminal shows what it did while it keeps its size and the resizes stand still. -/
theorem Shows.frame {index : Nat} (shows_ : Shows state index)
    (resizes : next.resizes = state.resizes) (requested : next.requested = state.requested)
    (kept : Kept state.shells next.shells) : Shows next index := by
  -- The terminal is where it was, at the size it had, and lost if it was lost.
  obtain ⟨shell, reads, shown⟩ := shows_
  obtain ⟨moved, finds, same, lost⟩ := kept _ shell reads
  refine ⟨moved, finds, ?_⟩
  rw [resizes, requested, same]
  exact shown.imp id (Or.imp lost id)

/-- What an action leaves covered that touches neither resizes nor sizes. -/
theorem Covered.frame (covered : Covered state) (resizes : next.resizes = state.resizes)
    (requested : next.requested = state.requested) (conn : next.conn = state.conn)
    (kept : Kept state.shells next.shells)
    (read : state.progress = 3 → ReadSize state state.requested → ReadSize next state.requested) :
    Covered next := by
  -- How far the newest resize has come decides what has to be covered, and it stands still.
  have progress : next.progress = state.progress := by rw [State.progress, resizes, State.progress]
  refine ⟨?_, ?_⟩
  · rw [progress, requested]
    exact fun come => read come (covered.read come)
  · rw [progress, conn]
    exact fun come => (covered.shown come).frame resizes requested kept

/-- A move of the supervisor reads, opens and installs the size asked for. -/
theorem covered_moves {input : Input} (placed : Placed state) (queued : Queued state)
    (covered : Covered state) (moves : Moves setup state input next) : Covered next := by
  cases moves with
  | received pumping reads queuedOut =>
    exact covered.frame rfl rfl rfl (kept_set reads ⟨rfl, id⟩) fun _ _ => trivial
  | broken classifying reads lost =>
    refine covered.frame rfl rfl rfl (kept_refl _) fun _ _ => ?_
    cases setup.reconnector with
    | false => trivial
    | true => trivial
  | @acted reason decision deciding =>
    cases decision with
    | exit code => exact covered.frame rfl rfl rfl (kept_refl _) fun _ _ => trivial
    | reconnect attempt delay => exact covered.frame rfl rfl rfl (kept_refl _) fun _ _ => trivial
    | giveUp => exact covered.frame rfl rfl rfl (kept_refl _) fun _ _ => trivial
  -- The newest resize is through, so the columns recorded are the ones asked for.
  | readCols clear =>
    refine covered.frame rfl rfl rfl (kept_refl _) fun come _ => ?_
    exact queued.cols (by omega)
  -- The columns were read under the same condition, and the rows complete them.
  | @readRows attempt cols sizing =>
    refine covered.frame rfl rfl rfl (kept_refl _) fun come read => ?_
    have first : cols = state.requested.cols := by simpa [ReadSize, sizing] using read
    have second : state.dims.rows = state.requested.rows := queued.rows (by omega)
    change (⟨cols, state.dims.rows⟩ : Size) = state.requested
    rw [first, second]
  | @succeeded attempt size attempting =>
    refine covered.frame rfl rfl rfl (kept_append _ _) fun come read => ?_
    have same : size = state.requested := by simpa [ReadSize, attempting] using read
    -- The generation that was opened comes right behind the one that is read.
    have opened : state.shells.length = state.reading + 1 := by
      have shells := placed.shells
      rwa [attempting] at shells
    exact ⟨.open size, by simp [← opened], .inl same⟩
  -- From now on the terminal that was opened is the one a resize would reach.
  | installed established =>
    refine ⟨fun _ => trivial, fun come => ?_⟩
    have read := covered.read come
    simp only [ReadSize, established] at read
    obtain ⟨shell, reads, shown⟩ := read
    exact ⟨shell, reads, shown.imp id .inl⟩
  | _ => exact covered.frame rfl rfl rfl (kept_refl _) fun _ _ => trivial

/-- The terminal that is told a size is lost, or has that size then. -/
theorem resized_shown (shell : Shell) (size : Size) :
    (shell.resized size).size = size ∨ (shell.resized size).lost = true := by
  -- A terminal that is lost is told nothing.
  unfold Shell.resized
  split
  · rename_i lost
    exact .inr lost
  · exact .inl rfl

/-- No generation that a reconnect has only just opened is told anything yet. -/
theorem readSize_changed {index : Nat} {size : Size} (placed : Placed state)
    (within : index ≤ state.conn) (phase : next.phase = state.phase)
    (reading : next.reading = state.reading)
    (shells : next.shells = state.shells.modify index fun shell => shell.resized size)
    (read : ReadSize state state.requested) : ReadSize next state.requested := by
  unfold ReadSize at read ⊢
  rw [phase, reading]
  cases stands : state.phase with
  | established =>
    -- A generation that is not installed has no handle to be told anything by.
    rw [stands] at read
    obtain ⟨shell, reads, shown⟩ := read
    have apart : index ≠ state.reading + 1 := by
      have installed := placed.conn
      rw [stands] at installed
      simp only [Phase.ahead] at installed
      omega
    exact ⟨shell, by simp [shells, apart, reads], shown⟩
  | _ =>
    rw [stands] at read
    exact read

/-- A newer resize that has come as far holds the handle of the installed generation too. -/
theorem holds_of_behind {first : Resize} {rest : List Resize} {size : Size} (queued : Queued state)
    (flies : state.resizes = first :: rest ++ [⟨size, .holding state.conn⟩])
    (settled : state.progress = 3) : first = ⟨state.requested, .holding state.conn⟩ := by
  have newest : first.size = state.requested := queued.newest first (by rw [flies]; rfl)
  have held := queued.held first (by simp [flies])
  have rank : first.stage.rank = 3 := by
    rw [State.progress, flies] at settled
    exact settled
  have inTurn := queued.inTurn
  rw [flies, List.cons_append, List.pairwise_cons] at inTurn
  obtain ⟨_, turn⟩ := inTurn.1 ⟨size, .holding state.conn⟩ (by simp)
  obtain ⟨firstSize, stage⟩ := first
  cases stage with
  | found => cases rank
  | colsSet => cases rank
  | rowsSet => cases rank
  | holding later =>
    -- Handles are taken in turn, and there is none newer than the installed one.
    have above := turn later state.conn rfl rfl
    have below := held later rfl
    obtain rfl : later = state.conn := by omega
    rw [show firstSize = state.requested from newest]

/-- Telling the size asked for last keeps what is covered. -/
theorem covered_changed {newer : List Resize} {index : Nat} {size : Size} (placed : Placed state)
    (queued : Queued state) (covered : Covered state)
    (flies : state.resizes = newer ++ [⟨size, .holding index⟩])
    (resizes : next.resizes = newer) (requested : next.requested = state.requested)
    (conn : next.conn = state.conn) (phase : next.phase = state.phase)
    (reading : next.reading = state.reading)
    (shells : next.shells = state.shells.modify index fun shell => shell.resized size) :
    Covered next := by
  have within : index ≤ state.conn :=
    queued.held ⟨size, .holding index⟩ (by simp [flies]) index rfl
  have progress : next.progress = state.progress := progress_changed flies resizes
  refine ⟨?_, ?_⟩
  · rw [progress, requested]
    exact fun come => readSize_changed placed within phase reading shells (covered.read come)
  · rw [progress, conn]
    intro come
    obtain ⟨shell, reads, shown⟩ := covered.shown come
    -- The handle may be that of an earlier generation, which then is told in vain.
    by_cases same : index = state.conn
    · refine ⟨shell.resized size, by simp [shells, same, reads], ?_⟩
      rw [requested, resizes]
      cases newer with
      | nil =>
        have newest : size = state.requested := queued.newest _ (by rw [flies]; rfl)
        rcases resized_shown shell size with sized | lost
        · exact .inl (sized.trans newest)
        · exact .inr (.inl lost)
      | cons first rest =>
        subst same
        exact .inr (.inr ⟨rest, by rw [holds_of_behind queued flies come]⟩)
    · refine ⟨shell, by simp [shells, same, reads], ?_⟩
      rw [requested, resizes]
      rcases shown with sized | lost | ⟨older, head⟩
      · exact .inl sized
      · exact .inr (.inl lost)
      · cases newer with
        | nil =>
          -- The newest resize is the one that was told, which holds another generation.
          rw [flies, List.nil_append, List.cons.injEq] at head
          exact absurd (by simpa using congrArg Resize.stage head.1) same
        | cons first rest =>
          rw [flies, List.cons_append, List.cons.injEq] at head
          exact .inr (.inr ⟨rest, by rw [head.1]⟩)

/-- The size asked for stays on its way everywhere while resizes keep their turns. -/
theorem covered_step {action : Action} (allowed : ResizesInTurn state action)
    (placed : Placed state) (queued : Queued state) (covered : Covered state)
    (taken : step setup state action = some next) : Covered next := by
  cases takes_step taken with
  | supervise moves => exact covered_moves placed queued covered moves
  | shell reads stepped =>
    have kept := kept_set reads (kept_shellStep stepped)
    exact covered.frame rfl rfl rfl kept fun _ read => read.frame rfl rfl kept
  | @paused command index runs =>
    have kept : Kept state.shells
        (state.shells.modify index fun shell => { shell with paused := pauses command }) :=
      kept_modify fun shell => ⟨rfl, id⟩
    exact covered.frame rfl rfl rfl kept fun _ read => read.frame rfl rfl kept
  | resize found =>
    -- The size asked for now has not gone anywhere yet.
    have fresh : (0 : Nat) ≠ 3 := by decide
    exact ⟨fun come => absurd come fresh, fun come => absurd come fresh⟩
  | @setCols newer older size flies =>
    -- The newest resize has not got its handle yet.
    refine ⟨fun come => ?_, fun come => ?_⟩
    · obtain rfl := queued.newest_of_settled flies come rfl (by simp [ResizeStage.rank])
      cases come
    · obtain rfl := queued.newest_of_settled flies come rfl (by simp [ResizeStage.rank])
      cases come
  | @setRows newer older size flies =>
    -- The newest resize has not got its handle yet.
    refine ⟨fun come => ?_, fun come => ?_⟩
    · obtain rfl := queued.newest_of_settled flies come rfl (by simp [ResizeStage.rank])
      cases come
    · obtain rfl := queued.newest_of_settled flies come rfl (by simp [ResizeStage.rank])
      cases come
  -- The condition on handles is for this step: a reconnect under way has the same size.
  | @handled newer older size flies =>
    have same (empty : newer = []) : size = state.requested :=
      queued.newest ⟨size, .rowsSet⟩ (by rw [flies, empty]; rfl)
    refine ⟨fun come => ?_, fun come => ?_⟩
    · obtain rfl := queued.newest_of_settled flies come rfl (by simp [ResizeStage.rank])
      have read := allowed.2 size rfl (by rw [flies]; rfl)
      rw [same rfl] at read
      exact read.frame rfl rfl (kept_refl _)
    · obtain rfl := queued.newest_of_settled flies come rfl (by simp [ResizeStage.rank])
      refine ⟨state.shells.get ⟨state.conn, placed.conn_lt⟩,
        List.getElem?_eq_getElem placed.conn_lt, .inr (.inr ⟨older, ?_⟩)⟩
      rw [same rfl]
      rfl
  | changed flies =>
    have last := oldest_of_holding flies allowed
    subst last
    exact covered_changed placed queued covered flies (by simp) rfl rfl rfl rfl rfl
  | _ => exact covered.frame rfl rfl rfl (kept_refl _) fun _ read =>
    read.frame rfl rfl (kept_refl _)

end Terminals

section Resizing

/-- The generations, the resizes and the sizes fit together. -/
structure Sized (state : State) : Prop where
  placed : Placed state
  queued : Queued state
  covered : Covered state

/-- One action keeps everything together while resizes keep their turns. -/
theorem sized_step {action : Action} (allowed : ResizesInTurn state action) (sized : Sized state)
    (taken : step setup state action = some next) : Sized next where
  placed := placed_step sized.placed taken
  queued := queued_step allowed sized.placed sized.queued taken
  covered := covered_step allowed sized.placed sized.queued sized.covered taken

/-- A session starts at the size it was opened with. -/
theorem sized_init (setup : Setup) : Sized (State.init setup) where
  placed := placed_init setup
  queued := ⟨.nil, by simp [State.init], by simp [State.init], fun _ => rfl, fun _ => rfl⟩
  covered := ⟨fun _ => trivial, fun _ => ⟨.open setup.size, rfl, .inl rfl⟩⟩

/-- The session is up: its output is read, and the transport is there. -/
def State.Connected (self : State) : Prop :=
  (self.phase = .pumping ∨ ∃ chunk, self.phase = .forwarding chunk) ∧
    ∃ shell, self.shells[self.reading]? = some shell ∧ shell.lost = false

/--
A session that is up shows the size asked for last once no resize is in flight,
in every run whose resizes keep their turns and take no handle during a reconnect at another size.
-/
theorem resize_survives_reconnect (setup : Setup) {actions : List Action} {final : State}
    (inTurn : System.Meets (step setup) ResizesInTurn (State.init setup) actions)
    (ran : System.run (step setup) (State.init setup) actions = some final)
    (connected : final.Connected) (idle : final.resizes = []) :
    ∃ shell, final.shells[final.reading]? = some shell ∧ shell.size = final.requested := by
  obtain ⟨placed, _, covered⟩ := System.run_invariant sized_step inTurn (sized_init setup) ran
  obtain ⟨up, shell, reads, found⟩ := connected
  -- While output is read the generation that is read is the installed one.
  have installed : final.conn = final.reading := by
    rw [placed.conn]
    rcases up with pumping | ⟨chunk, forwarding⟩
    · rw [pumping]
      rfl
    · rw [forwarding]
      rfl
  have settled : final.progress = 3 := by rw [State.progress, idle]
  obtain ⟨other, finds, shown⟩ := covered.shown settled
  rw [installed, reads, Option.some.injEq] at finds
  subst finds
  refine ⟨shell, reads, ?_⟩
  -- The transport is there and no resize is left, so the terminal has the size itself.
  rcases shown with sized | lost | ⟨older, flies⟩
  · exact sized
  · rw [found] at lost
    cases lost
  · rw [idle] at flies
    cases flies

/-- A session is resized, reconnects, and is resized again. -/
def resizedAround : List Action :=
  [.announce, .register, .resize ⟨100, 40⟩, .resizing 0, .resizing 0, .resizing 0, .resizing 0,
    .shell 0 .lose, .shell 0 .check, .shell 0 .take, .supervise .next,
    .supervise .next, .supervise .next, .supervise (.draw none), .supervise .next,
    .supervise .next, .supervise .next, .supervise .next, .supervise .next,
    .supervise .succeed, .supervise .next, .supervise .next, .supervise .next,
    .resize ⟨90, 30⟩, .resizing 0, .resizing 0, .resizing 0, .resizing 0]

/-- The new terminal is opened at the first size, and takes the second one on. -/
theorem resize_survives_reconnect_once :
    ∃ final, System.Meets (step savedHost) ResizesInTurn (State.init savedHost) resizedAround ∧
      System.run (step savedHost) (State.init savedHost) resizedAround = some final ∧
      final.Connected ∧ final.resizes = [] ∧ final.requested = ⟨90, 30⟩ ∧
      final.shells.map Shell.size = [⟨100, 40⟩, ⟨90, 30⟩] ∧
      ∃ shell, final.shells[final.reading]? = some shell ∧ shell.size = final.requested := by
  have inTurn : System.Meets (step savedHost) ResizesInTurn (State.init savedHost)
      resizedAround := by
    iterate 3 refine .cons trivial rfl ?_
    -- There is no older resize, and no reconnect under way.
    iterate 4 refine .cons ⟨fun _ _ _ older => (by cases older), fun _ _ _ => trivial⟩ rfl ?_
    -- The reconnect asks nothing of the resizes, and it is over before the next one.
    iterate 17 refine .cons trivial rfl ?_
    iterate 4 refine .cons ⟨fun _ _ _ older => (by cases older), fun _ _ _ => trivial⟩ rfl ?_
    trivial
  have ends : ∃ final, System.run (step savedHost) (State.init savedHost) resizedAround =
      some final ∧ final.Connected ∧ final.resizes = [] ∧ final.requested = ⟨90, 30⟩ ∧
        final.shells.map Shell.size = [⟨100, 40⟩, ⟨90, 30⟩] :=
    ⟨_, rfl, ⟨.inl rfl, _, rfl, rfl⟩, rfl, rfl, rfl⟩
  obtain ⟨final, ran, connected, idle, requested, sizes⟩ := ends
  exact ⟨final, inTurn, ran, connected, idle, requested, sizes,
    resize_survives_reconnect savedHost inTurn ran connected idle⟩

/-- A resize from beginning to end while a reconnect waits with the old size. -/
def resizedMeanwhile : List Action :=
  [.announce, .register, .shell 0 .lose, .shell 0 .check, .shell 0 .take, .supervise .next,
    .supervise .next, .supervise .next, .supervise (.draw none), .supervise .next,
    .supervise .next, .supervise .next, .supervise .next, .supervise .next,
    .resize ⟨100, 40⟩, .resizing 0, .resizing 0, .resizing 0, .resizing 0,
    .supervise .succeed, .supervise .next, .supervise .next, .supervise .next]

/-- The new terminal has the size from before the resize. -/
theorem resize_lost_in_reconnect :
    ∃ final shell,
      System.run (step savedHost) (State.init savedHost) resizedMeanwhile = some final ∧
      final.Connected ∧ final.resizes = [] ∧ final.requested = ⟨100, 40⟩ ∧
      final.shells[final.reading]? = some shell ∧ shell.size = ⟨80, 24⟩ ∧
      shell.size ≠ final.requested :=
  ⟨_, _, rfl, ⟨.inl rfl, _, rfl, rfl⟩, rfl, rfl, rfl, rfl, by decide⟩

end Resizing

end Tern.Session
