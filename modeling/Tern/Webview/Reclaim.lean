import Tern.Webview.Bookkeeping

/-! When the backend gets every session back once all tabs are closed. -/

namespace Tern.Webview

section Properties

/-- Every tab that was opened is closed for good, and nothing is in flight any more. -/
structure Controller.Quiet (state : Controller) : Prop where
  answered : ∀ id tab, ¬state.calls.InFlight id tab
  finished : state.tasks = []
  gone : ∀ tab, state.Opened tab → state.destroyed tab = true

/-- Once all is quiet, the backend keeps no session, and was asked to close every one. -/
def SessionsReclaimed (state : Controller) : Prop :=
  state.Quiet → ∀ id, state.rust id = false ∧ (state.calls.Answered id → id ∈ state.invoked)

/-- Every session the backend keeps is being closed, or is one that a closing tab will find. -/
def SessionsOwned (state : Controller) : Prop :=
  ∀ id, state.rust id = true →
    (∃ task ∈ state.tasks, task.closes = some id) ∨
      ∃ tab, state.sessions tab = some id ∧ state.teardown tab = false

/--
No session is taken out of a tab's hands without being closed.

The event of an end takes the session from its tab, and so does another session that resolves.
-/
def KeepsOwners (state : Controller) : Action → Prop
  | .opened id => ∀ tab, state.calls.InFlight id tab → state.closing tab = false →
    state.sessions tab = none ∧ state.teardown tab = false
  | .event id ev _ => ev.ends = true → ∀ tab, state.calls.MadeFor id tab →
    state.sessions tab = none
  | _ => True

/-- What a tab owns is kept by the backend and not being closed, and all else is being closed. -/
structure Tracked (state : Controller) : Prop where
  books : Consistent state
  owned : SessionsOwned state
  held : ∀ {tab id}, state.sessions tab = some id →
    state.rust id = true ∧ ∀ task ∈ state.tasks, task.closes ≠ some id

end Properties

section Steps

variable {state next : Controller} {action : Action} {tab id : Nat} {call : OpenCall}

/-- The webview starts with nothing to track. -/
theorem tracked_init : Tracked Controller.init where
  books := consistent_init
  owned := by simp [SessionsOwned, Controller.init]
  held := by simp [Controller.init]

/-- What was not answered yet is no session of a tab's, and nothing waits for its closing. -/
theorem Consistent.unknown (books : Consistent state) (flight : state.calls.InFlight id tab) :
    (∀ other, state.sessions other ≠ some id) ∧ ∀ task ∈ state.tasks, task.closes ≠ some id :=
  ⟨fun _ held => (books.owned held).2.not_inFlight flight,
    fun _ begun closes => books.unasked flight (books.begun begun closes)⟩

/-- A session that resolves goes to its tab, which has none, or is closed at once. -/
theorem Tracked.opened (tracked : Tracked state) (made : state.calls id = some call)
    (pending : call.stage = .pending) (keeps : KeepsOwners state (.opened id))
    (books : Consistent (state.opened id call)) : Tracked (state.opened id call) := by
  have flight : state.calls.InFlight id call.tab := ⟨call, made, rfl, pending⟩
  obtain ⟨nowhere, unclosed⟩ := tracked.books.unknown flight
  unfold Controller.opened at books ⊢
  cases mark : state.closing call.tab with
  | true =>
    simp only [mark, if_true] at books ⊢
    -- The session is closed as soon as it is there, and no tab takes it.
    refine ⟨books, ?_, ?_⟩
    · intro other there
      obtain rfl | there := of_update_true there
      · exact .inl ⟨_, List.mem_append_right _ (List.mem_singleton_self _), rfl⟩
      · obtain ⟨task, begun, closes⟩ | owned := tracked.owned other there
        · exact .inl ⟨task, List.mem_append_left _ begun, closes⟩
        · exact .inr owned
    · intro other held there
      obtain ⟨live, free⟩ := tracked.held there
      refine ⟨update_true live, ?_⟩
      intro task begun closes
      obtain begun | rfl := List.mem_append.mp begun |>.imp_right List.mem_singleton.mp
      · exact free task begun closes
      · cases closes
        exact nowhere other there
  | false =>
    simp only [mark, Bool.false_eq_true, if_false] at books ⊢
    obtain ⟨free, wanted⟩ := keeps call.tab flight mark
    -- Otherwise the tab takes it, and it is the tab's only one.
    refine ⟨books, ?_, ?_⟩
    · intro other there
      obtain rfl | there := of_update_true there
      · exact .inr ⟨call.tab, Function.update_self .., wanted⟩
      · obtain begun | ⟨tab, held, wanted⟩ := tracked.owned other there
        · exact .inl begun
        · -- The tab that takes the new session held none before.
          have apart : tab ≠ call.tab := by
            rintro rfl
            cases free.symm.trans held
          exact .inr ⟨tab, (Function.update_of_ne apart ..).trans held, wanted⟩
    · intro other held there
      by_cases same : other = call.tab
      · have same : id = held := by
          simpa [Controller.setConn, Controller.setRustSessionId, Controller.modifyTab, same]
            using there
        exact ⟨same ▸ Function.update_self .., same ▸ unclosed⟩
      · -- The sessions of the other tabs are as live as before.
        obtain ⟨live, free⟩ := tracked.held ((Function.update_of_ne same ..).symm.trans there)
        exact ⟨update_true live, free⟩

/-- A tab gives up its session to a closing. -/
theorem Tracked.handOver (tracked : Tracked state) (holds : state.sessions tab = some id)
    {task : Task} (closes : task.closes = some id) (books : Consistent next)
    (rust : next.rust = state.rust) (tasks : next.tasks = state.tasks ++ [task])
    (sessions : next.sessions = Function.update state.sessions tab none)
    (teardown : ∀ {other}, other ≠ tab → state.teardown other = false →
      next.teardown other = false) : Tracked next := by
  refine ⟨books, ?_, ?_⟩
  · intro other there
    rw [tasks, sessions]
    obtain ⟨begun, at_, waits⟩ | ⟨owner, held, wanted⟩ := tracked.owned other (rust ▸ there)
    · exact .inl ⟨begun, List.mem_append_left _ at_, waits⟩
    · by_cases same : owner = tab
      · -- The session of the tab itself has a task now that closes it.
        subst same
        cases holds.symm.trans held
        exact .inl ⟨task, List.mem_append_right _ (List.mem_singleton_self _), closes⟩
      · exact .inr ⟨owner, (Function.update_of_ne same ..).trans held, teardown same wanted⟩
  · intro owner other held
    rw [sessions] at held
    rw [rust, tasks]
    by_cases same : owner = tab
    · simp [same] at held
    · rw [Function.update_of_ne same] at held
      obtain ⟨live, free⟩ := tracked.held held
      refine ⟨live, ?_⟩
      intro begun at_ waits
      obtain at_ | rfl := List.mem_append.mp at_ |>.imp_right List.mem_singleton.mp
      · exact free begun at_ waits
      · -- One session cannot have been opened for two tabs.
        cases closes.symm.trans waits
        exact same (tracked.books.owner_unique held holds)

/-- A tab without a session gives up none. -/
theorem Tracked.release (tracked : Tracked state) (free : state.sessions tab = none)
    (books : Consistent next) (rust : next.rust = state.rust)
    (tasks : next.tasks = state.tasks ∨ next.tasks = state.tasks ++ [.destroying tab none])
    (sessions : next.sessions = Function.update state.sessions tab none)
    (teardown : ∀ {other}, other ≠ tab → state.teardown other = false →
      next.teardown other = false) : Tracked next := by
  rw [Function.update_eq_self_iff.mpr free.symm] at sessions
  -- A teardown without a session waits for none to be closed.
  have waiting : ∀ {other}, (∃ task ∈ next.tasks, task.closes = some other) ↔
      ∃ task ∈ state.tasks, task.closes = some other := by
    intro other
    obtain same | more := tasks
    · rw [same]
    · simp [more, Task.closes, or_and_right, exists_or]
  refine ⟨books, ?_, ?_⟩
  · intro other there
    obtain begun | ⟨owner, held, wanted⟩ := tracked.owned other (rust ▸ there)
    · exact .inl (waiting.mpr begun)
    · -- The owner of a session is another tab.
      have apart : owner ≠ tab := by
        rintro rfl
        cases free.symm.trans held
      exact .inr ⟨owner, sessions ▸ held, teardown apart wanted⟩
  · intro owner other held
    obtain ⟨live, unclosed⟩ := tracked.held (sessions ▸ held)
    refine ⟨rust ▸ live, ?_⟩
    intro task begun closes
    obtain ⟨begun, at_, waits⟩ := waiting.mp ⟨task, begun, closes⟩
    exact unclosed begun at_ waits

/-- What comes back takes at most the session it waited for from the backend. -/
theorem Tracked.finish (tracked : Tracked state) {task : Task} (begun : task ∈ state.tasks)
    (books : Consistent next) (tasks : next.tasks = state.tasks.erase task)
    (sessions : next.sessions = state.sessions) (teardown : next.teardown = state.teardown)
    (rust : ∀ {other}, next.rust other = true ↔
      task.closes ≠ some other ∧ state.rust other = true) : Tracked next := by
  refine ⟨books, ?_, ?_⟩
  · intro other there
    obtain ⟨unclosed, live⟩ := rust.mp there
    rw [tasks, sessions, teardown]
    obtain ⟨waiting, at_, closes⟩ | owned := tracked.owned other live
    · -- What is still live was not what the task waited for.
      have apart : waiting ≠ task := by
        rintro rfl
        exact unclosed closes
      exact .inl ⟨waiting, (List.mem_erase_of_ne apart).mpr at_, closes⟩
    · exact .inr owned
  · intro owner other held
    -- What a tab holds is closed by no task, and so not by this one.
    obtain ⟨live, unclosed⟩ := tracked.held (sessions ▸ held)
    refine ⟨rust.mpr ⟨unclosed task begun, live⟩, ?_⟩
    rw [tasks]
    exact fun waiting at_ => unclosed waiting (List.mem_of_mem_erase at_)

/-- Every step that leaves each session in the hands of its tab keeps the invariant. -/
theorem Tracked.step (tracked : Tracked state) (taken : controllerStep state action = some next)
    (keeps : KeepsOwners state action) : Tracked next := by
  have books := tracked.books.step taken
  cases action with
  | openTab hostId =>
    cases taken
    -- A tab that opens has no session.
    exact { tracked with books := books }
  | connect tab =>
    cases taken
    obtain ⟨stays, -⟩ | ⟨-, -, goes⟩ := connect_cases state tab
    · rw [stays]
      exact tracked
    · rw [goes] at books ⊢
      exact { tracked with books := books }
  | opened id =>
    obtain ⟨call, made, pending, rfl⟩ := Controller.answer_eq_some.mp taken
    -- The tab of an open is free, as the condition says, or marked.
    exact tracked.opened made pending keeps books
  | openFailed id reason =>
    obtain ⟨call, made, pending, rfl⟩ := Controller.answer_eq_some.mp taken
    exact { tracked with books := books }
  | event id ev now =>
    obtain ⟨call, made, rfl⟩ := controllerStep_event taken
    -- An event changes records alone, unless it ends the session.
    obtain ⟨byId, handled⟩ := state.handleEvent_eq call.tab now ev
    unfold Controller.event at books ⊢
    rw [handled] at books ⊢
    cases ends : ev.ends with
    | true =>
      simp only [ends, if_true] at books ⊢
      exact tracked.release (keeps ends call.tab ⟨call, made, rfl⟩) books rfl (.inl rfl) rfl
        fun _ wanted => wanted
    | false =>
      simp only [ends, Bool.false_eq_true, if_false] at books ⊢
      exact { tracked with books := books }
  | disconnect tab =>
    cases taken
    unfold Controller.disconnect at books ⊢
    cases held : state.sessions tab with
    | none =>
      rw [held] at books
      exact tracked.release held books rfl (.inl rfl) rfl fun _ wanted => wanted
    | some id =>
      rw [held] at books
      exact tracked.handOver held rfl books rfl rfl rfl fun _ wanted => wanted
  | destroy tab =>
    cases taken
    have others : ∀ {other}, other ≠ tab → state.teardown other = false →
        Function.update state.teardown tab true other = false :=
      fun apart wanted => (Function.update_of_ne apart ..).trans wanted
    unfold Controller.destroy at books ⊢
    cases held : state.sessions tab with
    | none =>
      rw [held] at books
      exact tracked.release held books rfl (.inr rfl) rfl others
    | some id =>
      rw [held] at books
      exact tracked.handOver held rfl books rfl rfl rfl others
  | closeTab tab =>
    cases taken
    exact { tracked with books := books }
  | finish task =>
    obtain ⟨begun, rfl⟩ := controllerStep_finish taken
    -- What was asked to be closed goes, and nothing else.
    have closed : ∀ {id other}, Function.update state.rust id false other = true ↔
        (some id : Option Nat) ≠ some other ∧ state.rust other = true := by
      intro id other
      by_cases same : other = id
      · simp [same]
      · simp [same, Ne.symm same]
    cases task with
    | closeLate id => exact tracked.finish begun books rfl rfl rfl closed
    | disconnecting tab id => exact tracked.finish begun books rfl rfl rfl closed
    | destroying tab session =>
      cases session with
      | none =>
        refine tracked.finish begun books rfl rfl rfl ?_
        simp [Task.closes, Controller.finish, Controller.torn]
      | some id => exact tracked.finish begun books rfl rfl rfl closed

/-- A session taken out of its tab's hands is owned by nobody. -/
theorem Tracked.broken (tracked : Tracked state) (taken : controllerStep state action = some next)
    (loses : ¬KeepsOwners state action) : ¬SessionsOwned next := by
  intro owned
  cases action with
  | opened id =>
    obtain ⟨call, made, pending, rfl⟩ := Controller.answer_eq_some.mp taken
    have flight : state.calls.InFlight id call.tab := ⟨call, made, rfl, pending⟩
    obtain ⟨nowhere, unclosed⟩ := tracked.books.unknown flight
    simp only [KeepsOwners, not_forall] at loses
    obtain ⟨tab, there, unmarked, loses⟩ := loses
    cases madeFor_inj there.madeFor flight.madeFor
    simp only [Controller.opened, unmarked, Bool.false_eq_true, if_false] at owned
    -- Either the tab is being closed, or it had a session already.
    by_cases free : state.sessions call.tab = none
    · -- The tab is being closed, and nothing will look for its session again.
      obtain ⟨task, begun, closes⟩ | ⟨tab, held, wanted⟩ := owned id (Function.update_self ..)
      · exact unclosed task begun closes
      · by_cases same : tab = call.tab
        · subst same
          exact loses ⟨free, wanted⟩
        · exact nowhere tab ((Function.update_of_ne same ..).symm.trans held)
    · -- The session the tab had is forgotten.
      obtain ⟨old, holds⟩ := Option.ne_none_iff_exists'.mp free
      obtain ⟨live, free⟩ := tracked.held holds
      obtain ⟨task, begun, closes⟩ | ⟨tab, held, wanted⟩ := owned old (update_true live)
      · exact free task begun closes
      · by_cases same : tab = call.tab
        · have same : id = old := by
            simpa [Controller.setConn, Controller.setRustSessionId, Controller.modifyTab, same]
              using held
          exact nowhere call.tab (same ▸ holds)
        · have held : state.sessions tab = some old :=
            (Function.update_of_ne same ..).symm.trans held
          exact same (tracked.books.owner_unique held holds)
  | event id ev now =>
    obtain ⟨call, made, rfl⟩ := controllerStep_event taken
    simp only [KeepsOwners, not_forall] at loses
    obtain ⟨ends, tab, onTab, loses⟩ := loses
    -- The end of one session takes the tab's other one along.
    cases madeFor_inj onTab ⟨call, made, rfl⟩
    obtain ⟨old, holds⟩ := Option.ne_none_iff_exists'.mp loses
    obtain ⟨live, free⟩ := tracked.held holds
    obtain ⟨byId, handled⟩ := state.handleEvent_eq call.tab now ev
    simp only [Controller.event, handled, ends, if_true] at owned
    obtain ⟨task, begun, closes⟩ | ⟨tab, held, wanted⟩ := owned old live
    · exact free task begun closes
    · by_cases same : tab = call.tab
      · simp [Controller.dropSession, same] at held
      · have held : state.sessions tab = some old :=
          (Function.update_of_ne same ..).symm.trans held
        exact same (tracked.books.owner_unique held holds)
  | _ => exact loses trivial

/-- What is refused takes no session from anybody. -/
theorem keepsOwners_of_refused (refused : controllerStep state action = none) :
    KeepsOwners state action := by
  -- What is asked of an answer or an event is asked of one that is not refused.
  cases action with
  | opened id =>
    rintro tab ⟨call, made, -, pending⟩
    simp [controllerStep, Controller.answer, made, pending] at refused
  | event id ev now =>
    rintro - tab ⟨call, made, -⟩
    simp [controllerStep, made] at refused
  | _ => trivial

/-- With every session owned, quiet means that the backend keeps none. -/
theorem Tracked.reclaimed (tracked : Tracked state) : SessionsReclaimed state := by
  intro quiet id
  have gone : state.rust id = false := by
    by_contra live
    obtain ⟨task, begun, -⟩ | ⟨tab, held, wanted⟩ :=
      tracked.owned id (Bool.not_eq_false _ ▸ live)
    · simp [quiet.finished] at begun
    · -- A tab that owns a session was opened, so that it is closed by now.
      have there := tracked.books.placed (tracked.books.owned held).1
      have closed := tracked.books.torn (quiet.gone tab there)
      exact absurd (wanted.symm.trans closed) (by decide)
  refine ⟨gone, ?_⟩
  intro answered
  -- An open that was answered is live or was closed.
  exact (tracked.books.closed answered).resolve_left (by simp [gone])

/-- Every session stays owned throughout exactly the runs that take none from its tab. -/
theorem sessions_owned_iff (actions : List Action) :
    System.Throughout controllerStep SessionsOwned Controller.init actions ↔
      System.Meets controllerStep KeepsOwners Controller.init actions :=
  System.throughout_iff_meets Tracked.owned Tracked.step Tracked.broken keepsOwners_of_refused
    tracked_init

/-- In every run that takes no session from its tab, the backend gets all of them back. -/
theorem sessions_reclaimed {actions : List Action}
    (keeps : System.Meets controllerStep KeepsOwners Controller.init actions) :
    System.Throughout controllerStep SessionsReclaimed Controller.init actions :=
  System.throughout_of_meets Tracked.reclaimed Tracked.step tracked_init keeps

end Steps

section Runs

/-- A tab that is connected and closed again while its shell still runs. -/
def closedWhileRunning : List Action :=
  [.openTab (some 7), .connect 1, .opened 0, .destroy 1, .closeTab 1,
    .finish (.destroying 1 (some 0))]

/-- The same tab, with its shell left before it is closed. -/
def closedAfterExit : List Action :=
  [.openTab (some 7), .connect 1, .opened 0, .event 0 (.exited (some 0)) 0, .destroy 1,
    .closeTab 1, .finish (.destroying 1 none)]

/-- A run that closes its one tab while the shell runs, with the session given back. -/
theorem sessions_reclaimed_closedWhileRunning :
    System.Throughout controllerStep SessionsReclaimed Controller.init closedWhileRunning := by
  apply sessions_reclaimed
  refine .cons trivial rfl <| .cons trivial rfl <| .cons ?_ rfl <| .cons trivial rfl <|
    .cons trivial rfl <| .cons trivial rfl trivial
  exact fun _ _ _ => ⟨rfl, rfl⟩

/-- The session of a shell that was left before its tab was closed is kept for ever. -/
theorem session_kept_after_exit :
    ∃ final, System.run controllerStep Controller.init closedAfterExit = some final ∧
      final.Quiet ∧ final.rust 0 = true ∧ final.invoked = [] ∧
      ¬System.Throughout controllerStep SessionsReclaimed Controller.init closedAfterExit := by
  -- The run is evaluated once, and only what is used of it is kept.
  obtain ⟨final, ran, call, count, tasks, tabs, gone, live, unasked⟩ : ∃ final,
      System.run controllerStep Controller.init closedAfterExit = some final ∧
      final.calls 0 = some ⟨1, .resolved, true⟩ ∧ final.nextId = 1 ∧ final.tasks = [] ∧
      final.nextTabId = 1 ∧ final.destroyed 1 = true ∧ final.rust 0 = true ∧
      final.invoked = [] :=
    ⟨_, rfl, rfl, rfl, rfl, rfl, rfl, rfl, rfl⟩
  have books : Consistent final := System.run_preserves Consistent.step consistent_init ran
  have quiet : final.Quiet := by
    refine ⟨?_, tasks, ?_⟩
    · rintro id tab ⟨other, made, -, pending⟩
      -- Only one call was ever made, and it is answered.
      have only : id = 0 := by
        have numbered : id < final.nextId := books.counted (by simp [made])
        omega
      subst only
      cases call.symm.trans made
      cases pending
    · rintro tab ⟨low, high⟩
      have only : tab = 1 := by omega
      exact only ▸ gone
  refine ⟨final, ran, quiet, live, unasked, fun throughout => ?_⟩
  have reclaimed := ((throughout.final ran) quiet 0).1
  exact absurd (live.symm.trans reclaimed) (by decide)

end Runs

end Tern.Webview
