import Tern.Webview.Bookkeeping

/-! When a closed tab owns no session, and a late open for it is closed. -/

namespace Tern.Webview

section Properties

/-- Nobody wants a session any more: its tab is closed, or was connected once more. -/
def Controller.Unwanted (self : Controller) (id tab : Nat) : Prop :=
  self.teardown tab = true ∨ ∃ later, id < later ∧ self.calls.MadeFor later tab

/-- No closed tab owns a session, and an open nobody wants is closed as soon as it resolves. -/
structure ClosedTabsOwnNothing (state : Controller) : Prop where
  owns : ∀ tab, state.destroyed tab = true → state.sessions tab = none
  late : ∀ id tab, state.calls.InFlight id tab → state.Unwanted id tab →
    ∀ next, controllerStep state (.opened id) = some next → id ∈ next.invoked

/--
No mark that a tab is closing goes while an open is in flight for the tab.

A connect takes the mark away, and so does the end of a teardown.
-/
def KeepsMarks (state : Controller) : Action → Prop
  | .connect tab => state.pool tab = true → state.sessions tab = none →
    state.teardown tab = false ∧ ∀ id, ¬state.calls.InFlight id tab
  | .finish (.destroying tab session) => .destroying tab session ∈ state.tasks →
    ∀ id, ¬state.calls.InFlight id tab
  | _ => True

/-- Every open in flight is the newest of its tab, and marked if the tab is closed. -/
structure Marked (state : Controller) : Prop where
  books : Consistent state
  newest : ∀ {id tab later}, state.calls.InFlight id tab → id < later →
    ¬state.calls.MadeFor later tab
  marked : ∀ {id tab}, state.calls.InFlight id tab → state.teardown tab = true →
    state.closing tab = true
  released : ∀ {tab}, state.teardown tab = true → state.sessions tab = none

end Properties

section Steps

variable {state next : Controller} {action : Action} {tab id : Nat} {call : OpenCall}

/-- The webview starts with nothing in flight. -/
theorem marked_init : Marked Controller.init where
  books := consistent_init
  newest := by simp [Controller.init, Calls.InFlight]
  marked := by simp [Controller.init]
  released := by simp [Controller.init]

/-- A tab that is not closed, with nothing in flight, may be connected. -/
theorem Marked.connect (marked : Marked state) (books : Consistent (state.connect tab))
    (keeps : KeepsMarks state (.connect tab)) : Marked (state.connect tab) := by
  obtain ⟨stays, -⟩ | ⟨pooled, free, goes⟩ := connect_cases state tab
  · rw [stays]
    exact marked
  · obtain ⟨wanted, idle⟩ := keeps pooled free
    have fresh := marked.books.fresh
    rw [goes] at books ⊢
    -- The new call is the newest, and nothing of the tab was in flight.
    refine ⟨books, ?_, ?_, marked.released⟩
    · intro id other later flight after made
      obtain flight | ⟨rfl, rfl⟩ := (inFlight_add fresh rfl).mp flight
      · obtain made | ⟨rfl, rfl⟩ := (madeFor_add fresh).mp made
        · exact marked.newest flight after made
        · exact idle id flight
      · -- No call is numbered above the newest one.
        obtain ⟨call, made, -⟩ | ⟨same, -⟩ := (madeFor_add fresh).mp made
        · exact absurd (marked.books.counted (by simp [made])) (Nat.lt_asymm after)
        · exact absurd after (same ▸ Nat.lt_irrefl _)
    · intro id other flight closed
      obtain flight | ⟨rfl, rfl⟩ := (inFlight_add fresh rfl).mp flight
      · -- The mark that goes is of a tab with nothing in flight.
        have apart : other ≠ tab := fun same => idle id (same ▸ flight)
        exact (Function.update_of_ne apart ..).trans (marked.marked flight closed)
      · exact absurd (wanted.symm.trans closed) (by decide)

/-- What becomes of a call puts nothing new in flight. -/
theorem Marked.change (marked : Marked state) (made : state.calls id = some call)
    {now : OpenCall} (onTab : now.tab = call.tab)
    (flights : ∀ {other tab}, Calls.InFlight (Function.update state.calls id (some now)) other tab →
      state.calls.InFlight other tab)
    (books : Consistent next) (calls : next.calls = Function.update state.calls id (some now))
    (closing : next.closing = state.closing) (teardown : next.teardown = state.teardown)
    (released : ∀ {tab}, state.teardown tab = true → next.sessions tab = none) :
    Marked next := by
  -- The call was in flight before if it is now, and the marks are the same ones.
  refine ⟨books, ?_, ?_, fun closed => released (teardown ▸ closed)⟩
  · intro other tab later flight after there
    rw [calls] at flight there
    exact marked.newest (flights flight) after ((madeFor_change made onTab).mp there)
  · intro other tab flight closed
    rw [calls] at flight
    rw [closing]
    exact marked.marked (flights flight) (teardown ▸ closed)

/-- An answer to a call leaves what is in flight otherwise as it was. -/
theorem Marked.settle (marked : Marked state) (made : state.calls id = some call)
    {now : OpenCall} (onTab : now.tab = call.tab) (settled : now.stage ≠ .pending)
    (books : Consistent next) (calls : next.calls = Function.update state.calls id (some now))
    (closing : next.closing = state.closing) (teardown : next.teardown = state.teardown)
    (released : ∀ {tab}, state.teardown tab = true → next.sessions tab = none) :
    Marked next :=
  marked.change made onTab (fun flight => ((inFlight_settle settled).mp flight).2) books calls
    closing teardown released

/-- A session that resolves is closed at once if its tab is marked, and else goes to its tab. -/
theorem Marked.opened (marked : Marked state) (made : state.calls id = some call)
    (pending : call.stage = .pending) (books : Consistent (state.opened id call)) :
    Marked (state.opened id call) := by
  have flight : state.calls.InFlight id call.tab := ⟨call, made, rfl, pending⟩
  unfold Controller.opened at books ⊢
  cases mark : state.closing call.tab with
  | true =>
    simp only [mark, if_true] at books ⊢
    exact marked.settle made (by rfl) (by simp) books rfl rfl rfl marked.released
  | false =>
    simp only [mark, Bool.false_eq_true, if_false] at books ⊢
    refine marked.settle made (by rfl) (by simp) books rfl rfl rfl ?_
    intro other closed
    -- An unmarked tab with an open in flight is not closed.
    have apart : other ≠ call.tab := by
      rintro rfl
      exact absurd (mark.symm.trans (marked.marked flight closed)) (by decide)
    exact (Function.update_of_ne apart ..).trans (marked.released closed)

/-- An event neither answers a call nor takes a mark away. -/
theorem Marked.event (marked : Marked state) (made : state.calls id = some call)
    {ev : SessionEvent} {now : Nat} (books : Consistent (state.event id call ev now)) :
    Marked (state.event id call ev now) := by
  obtain ⟨byId, handled⟩ := state.handleEvent_eq call.tab now ev
  -- The note on the call is no answer.
  have noted : ∀ {ended other tab}, Calls.InFlight
      (Function.update state.calls id (some { call with ended := ended })) other tab →
      state.calls.InFlight other tab := (inFlight_change made (by rfl) (by rfl)).mp
  unfold Controller.event at books ⊢
  rw [handled] at books ⊢
  cases ends : ev.ends with
  | true =>
    -- The last event of a session takes it from its tab.
    simp only [ends, if_true] at books ⊢
    exact marked.change made (by rfl) noted books rfl rfl rfl
      fun closed => dropped_none (marked.released closed)
  | false =>
    simp only [ends, Bool.false_eq_true, if_false] at books ⊢
    exact marked.change made (by rfl) noted books rfl rfl rfl marked.released

/-- A tab that gives up its session, and is marked, may be closed. -/
theorem Marked.release (marked : Marked state) (books : Consistent next)
    (calls : next.calls = state.calls)
    (closing : next.closing = Function.update state.closing tab true)
    (sessions : next.sessions = Function.update state.sessions tab none)
    (teardown : ∀ {other}, next.teardown other = true →
      other = tab ∨ state.teardown other = true) : Marked next := by
  -- The mark is set for the tab that gives up its session, and others keep theirs.
  refine ⟨books, ?_, ?_, ?_⟩
  · rw [calls]
    exact marked.newest
  · intro id other flight closed
    rw [calls] at flight
    rw [closing]
    obtain rfl | closed := teardown closed
    · exact Function.update_self ..
    · exact update_true (marked.marked flight closed)
  · intro other closed
    rw [sessions]
    obtain rfl | closed := teardown closed
    · exact Function.update_self ..
    · exact dropped_none (marked.released closed)

/-- What comes back keeps the marks, a teardown when nothing is in flight for its tab. -/
theorem Marked.finish (marked : Marked state) {task : Task} (begun : task ∈ state.tasks)
    (keeps : KeepsMarks state (.finish task))
    (books : Consistent ({ state with tasks := state.tasks.erase task }.finish task)) :
    Marked ({ state with tasks := state.tasks.erase task }.finish task) := by
  cases task with
  | closeLate id => exact { marked with books := books }
  | disconnecting tab id => exact { marked with books := books }
  | destroying tab session =>
    -- Only the mark of this tab goes, for which nothing is in flight.
    have idle := keeps begun
    have kept : ∀ {id other}, state.calls.InFlight id other → state.teardown other = true →
        Function.update state.closing tab false other = true := by
      intro id other flight closed
      have apart : other ≠ tab := fun same => idle id (same ▸ flight)
      exact (Function.update_of_ne apart ..).trans (marked.marked flight closed)
    cases session with
    | none => exact ⟨books, marked.newest, kept, marked.released⟩
    | some id => exact ⟨books, marked.newest, kept, marked.released⟩

/-- Every step that takes no mark too early keeps the invariant. -/
theorem Marked.step (marked : Marked state) (taken : controllerStep state action = some next)
    (keeps : KeepsMarks state action) : Marked next := by
  -- A mark is taken off by a connect alone, and each other action keeps or sets it.
  have books := marked.books.step taken
  cases action with
  | openTab hostId =>
    cases taken
    exact { marked with books := books }
  | connect tab =>
    cases taken
    exact marked.connect books keeps
  | opened id =>
    obtain ⟨call, made, pending, rfl⟩ := Controller.answer_eq_some.mp taken
    exact marked.opened made pending books
  | openFailed id reason =>
    obtain ⟨call, made, pending, rfl⟩ := Controller.answer_eq_some.mp taken
    -- A call that failed is in flight no more.
    exact marked.settle made (by rfl) (by simp) books rfl rfl rfl marked.released
  | event id ev now =>
    obtain ⟨call, made, rfl⟩ := controllerStep_event taken
    exact marked.event made books
  | disconnect tab =>
    cases taken
    unfold Controller.disconnect at books ⊢
    -- A disconnect and a teardown set the mark of their tab.
    cases held : state.sessions tab <;> rw [held] at books <;>
      exact marked.release books rfl rfl rfl .inr
  | destroy tab =>
    cases taken
    unfold Controller.destroy at books ⊢
    cases held : state.sessions tab <;> rw [held] at books <;>
      exact marked.release books rfl rfl rfl of_update_true
  | closeTab tab =>
    cases taken
    exact { marked with books := books }
  | finish task =>
    obtain ⟨begun, rfl⟩ := controllerStep_finish taken
    exact marked.finish begun keeps books

/-- Where every mark is kept, no closed tab owns a session, now or later. -/
theorem Marked.ownsNothing (marked : Marked state) : ClosedTabsOwnNothing state where
  owns := fun _ gone => marked.released (marked.books.torn gone)
  late := by
    intro id tab flight unwanted next taken
    obtain ⟨call, made, pending, rfl⟩ := Controller.answer_eq_some.mp taken
    obtain ⟨same, found, rfl, -⟩ := flight
    -- The answer is to the very call that is in flight.
    cases made.symm.trans found
    have flight : state.calls.InFlight id call.tab := ⟨call, made, rfl, pending⟩
    obtain closed | ⟨later, after, there⟩ := unwanted
    · -- The open finds its tab marked, and is closed at once.
      have mark := marked.marked flight closed
      simp [Controller.opened, mark, Controller.invokeClose]
    · exact absurd there (marked.newest flight after)

/-- An open in flight that nobody wants and that finds no mark is not closed. -/
theorem not_ownsNothing {id tab : Nat} (flight : state.calls.InFlight id tab)
    (unmarked : state.closing tab = false) (unwanted : state.Unwanted id tab)
    (unasked : id ∉ state.invoked) : ¬ClosedTabsOwnNothing state := by
  intro holds
  -- The open resolves next, and is not among those that are closed then.
  have found := flight
  obtain ⟨call, made, rfl, pending⟩ := found
  have taken : controllerStep state (.opened id) = some (state.opened id call) :=
    Controller.answer_eq_some.mpr ⟨call, made, pending, rfl⟩
  have invoked := holds.late id call.tab flight unwanted _ taken
  simp only [Controller.opened, unmarked] at invoked
  exact unasked invoked

/-- A mark that goes too early leaves an open in flight that nobody wants and nothing closes. -/
theorem Marked.broken (marked : Marked state) (taken : controllerStep state action = some next)
    (loses : ¬KeepsMarks state action) : ¬ClosedTabsOwnNothing next := by
  cases action with
  | connect tab =>
    -- The connect takes off the mark of a tab under teardown, or of one with an open in flight.
    simp only [KeepsMarks, Classical.not_imp] at loses
    obtain ⟨pooled, free, loses⟩ := loses
    cases taken
    obtain ⟨-, blocked⟩ | ⟨-, -, goes⟩ := connect_cases state tab
    · exact absurd ⟨pooled, free⟩ blocked
    rw [goes]
    have added := fun id => @inFlight_add state.calls state.nextId id tab ⟨tab, .pending, false⟩
      marked.books.fresh rfl
    by_cases idle : ∃ id, state.calls.InFlight id tab
    · -- The open that was in flight is not the newest any more.
      obtain ⟨id, flight⟩ := idle
      refine not_ownsNothing ((added id).mpr (.inl flight)) (Function.update_self ..) (.inr ?_)
        (marked.books.unasked flight)
      obtain ⟨call, made, -⟩ := flight
      exact ⟨state.nextId, marked.books.counted (by simp [made]),
        (madeFor_add marked.books.fresh).mpr (.inr ⟨rfl, rfl⟩)⟩
    · -- The new open is for a tab that is being closed.
      have closed : state.teardown tab = true := by
        by_contra wanted
        exact loses ⟨Bool.not_eq_true _ ▸ wanted, not_exists.mp idle⟩
      refine not_ownsNothing ((added state.nextId).mpr (.inr ⟨rfl, rfl⟩))
        (Function.update_self ..) (.inl closed) ?_
      intro invoked
      obtain ⟨call, made, -⟩ := marked.books.asked invoked
      simp [marked.books.fresh] at made
  | finish task =>
    obtain ⟨begun, rfl⟩ := controllerStep_finish taken
    cases task with
    | closeLate id => exact absurd trivial loses
    | disconnecting tab id => exact absurd trivial loses
    | destroying tab session =>
      simp only [KeepsMarks, Classical.not_imp, not_forall, not_not] at loses
      obtain ⟨-, id, flight⟩ := loses
      have closed := marked.books.tearing begun
      -- The mark of the tab goes while an open for it is still in flight.
      have unasked := marked.books.unasked flight
      cases session with
      | none => exact not_ownsNothing flight (Function.update_self ..) (.inl closed) unasked
      | some other => exact not_ownsNothing flight (Function.update_self ..) (.inl closed) unasked
  | _ => exact absurd trivial loses

/-- A step that is refused takes no mark. -/
theorem keepsMarks_of_refused (refused : controllerStep state action = none) :
    KeepsMarks state action := by
  -- The actions that are never refused ask nothing, and the others ask what lets them through.
  cases action with
  | connect tab => simp [controllerStep] at refused
  | finish task =>
    cases task with
    | destroying tab session =>
      intro begun
      simp [controllerStep, begun] at refused
    | _ => trivial
  | _ => trivial

/--
Throughout exactly the runs that take no mark early,
no closed tab owns a session, and an open nobody wants is closed as it resolves.
-/
theorem closed_tabs_own_nothing_iff (actions : List Action) :
    System.Throughout controllerStep ClosedTabsOwnNothing Controller.init actions ↔
      System.Meets controllerStep KeepsMarks Controller.init actions :=
  System.throughout_iff_meets Marked.ownsNothing Marked.step Marked.broken keepsMarks_of_refused
    marked_init

/-- A tab closed while its open is in flight owns the session that resolves afterwards. -/
theorem late_open_owned_by_closed_tab :
    ∃ final, System.run controllerStep Controller.init
      [.openTab (some 7), .connect 1, .destroy 1, .closeTab 1, .finish (.destroying 1 none),
        .opened 0] = some final ∧
      final.destroyed 1 = true ∧ final.sessions 1 = some 0 ∧ 0 ∉ final.invoked ∧
      ¬System.Throughout controllerStep ClosedTabsOwnNothing Controller.init
        [.openTab (some 7), .connect 1, .destroy 1, .closeTab 1, .finish (.destroying 1 none),
          .opened 0] := by
  -- The run is evaluated, and its last state shows the tab closed and its session open.
  obtain ⟨final, ran, gone, held, unasked⟩ : ∃ final, System.run controllerStep Controller.init
      [.openTab (some 7), .connect 1, .destroy 1, .closeTab 1, .finish (.destroying 1 none),
        .opened 0] = some final ∧
      final.destroyed 1 = true ∧ final.sessions 1 = some 0 ∧ 0 ∉ final.invoked :=
    ⟨_, rfl, rfl, rfl, by decide⟩
  refine ⟨final, ran, gone, held, unasked, fun throughout => ?_⟩
  have free := (throughout.final ran).owns 1 gone
  rw [held] at free
  cases free

end Steps

end Tern.Webview
