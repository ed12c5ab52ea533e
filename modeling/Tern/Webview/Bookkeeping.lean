import Tern.Webview.Controller

/-! What the webview's books agree on in every run, whatever the order of its steps. -/

namespace Tern.Webview

/-- The session a task waits for the closing of. -/
def Task.closes : Task → Option Nat
  | .closeLate id => some id
  | .disconnecting _ id => some id
  | .destroying _ id => id

/-- A tab was opened at some time. -/
def Controller.Opened (self : Controller) (tab : Nat) : Prop :=
  1 ≤ tab ∧ tab ≤ self.nextTabId

/-- Calls are numbered, sessions are known to the backend, and teardowns run for closed tabs. -/
structure Consistent (state : Controller) : Prop where
  counted : ∀ {id}, state.calls id ≠ none → id < state.nextId
  pooled : ∀ {tab}, state.pool tab = true → state.Opened tab
  placed : ∀ {id tab}, state.calls.MadeFor id tab → state.Opened tab
  owned : ∀ {tab id}, state.sessions tab = some id →
    state.calls.MadeFor id tab ∧ state.calls.Answered id
  live : ∀ {id}, state.rust id = true → state.calls.Answered id
  asked : ∀ {id}, id ∈ state.invoked → state.calls.Answered id
  closed : ∀ {id}, state.calls.Answered id → state.rust id = true ∨ id ∈ state.invoked
  begun : ∀ {task id}, task ∈ state.tasks → task.closes = some id → id ∈ state.invoked
  torn : ∀ {tab}, state.destroyed tab = true → state.teardown tab = true
  tearing : ∀ {tab session}, .destroying tab session ∈ state.tasks → state.teardown tab = true

section Operations

variable {state : Controller} {tab id : Nat} {call : OpenCall} {task : Task}

/-- A set that grows keeps what is in it. -/
theorem update_true {marks : Nat → Bool} {other : Nat} (marked : marks other = true) :
    Function.update marks tab true other = true := by
  by_cases same : other = tab
  · rw [same]
    exact Function.update_self ..
  · exact (Function.update_of_ne same ..).trans marked

/-- What is in a set that has grown was there before, or is what was added. -/
theorem of_update_true {marks : Nat → Bool} {other : Nat}
    (marked : Function.update marks tab true other = true) : other = tab ∨ marks other = true := by
  by_cases same : other = tab
  · exact .inl same
  · exact .inr ((Function.update_of_ne same ..).symm.trans marked)

/-- What is in a set that has shrunk was there before, and is not what was taken. -/
theorem of_update_false {marks : Nat → Bool} {other : Nat}
    (marked : Function.update marks tab false other = true) :
    other ≠ tab ∧ marks other = true := by
  by_cases same : other = tab
  · simp [same] at marked
  · exact ⟨same, (Function.update_of_ne same ..).symm.trans marked⟩

/-- A tab without a session is without one when another gives its own up. -/
theorem dropped_none {sessions : Nat → Option Nat} {other : Nat} (free : sessions other = none) :
    Function.update sessions tab none other = none := by
  by_cases same : other = tab
  · rw [same]
    exact Function.update_self ..
  · exact (Function.update_of_ne same ..).trans free

/-- A call was made for one tab only. -/
theorem madeFor_inj {calls : Calls} {other : Nat} (made : calls.MadeFor id tab)
    (there : calls.MadeFor id other) : tab = other := by
  obtain ⟨call, found, rfl⟩ := made
  obtain ⟨same, there, rfl⟩ := there
  cases found.symm.trans there
  rfl

/-- The webview starts with nothing in its books. -/
theorem consistent_init : Consistent Controller.init where
  -- There is no tab, no call and no session yet.
  counted := by simp [Controller.init]
  pooled := by simp [Controller.init]
  placed := by simp [Controller.init, Calls.MadeFor]
  owned := by simp [Controller.init]
  live := by simp [Controller.init]
  asked := by simp [Controller.init]
  closed := by simp [Controller.init, Calls.Answered]
  begun := by simp [Controller.init]
  torn := by simp [Controller.init]
  tearing := by simp [Controller.init]

namespace Consistent

/-- The next call has a number of its own. -/
theorem fresh (books : Consistent state) : state.calls state.nextId = none := by
  by_contra made
  exact absurd (books.counted made) (Nat.lt_irrefl _)

/-- What is in flight is in nobody's books yet. -/
theorem unasked (books : Consistent state) (flight : state.calls.InFlight id tab) :
    id ∉ state.invoked :=
  fun invoked => (books.asked invoked).not_inFlight flight

/-- No session is owned by two tabs. -/
theorem owner_unique (books : Consistent state) {other : Nat}
    (held : state.sessions tab = some id) (holds : state.sessions other = some id) :
    tab = other :=
  madeFor_inj (books.owned held).1 (books.owned holds).1

/-- A new tab has the next number. -/
theorem openTab (books : Consistent state) (hostId : Option Int) :
    Consistent (state.openTab hostId) := by
  -- The new number is above all those that are in use.
  refine { books with pooled := ?_, placed := ?_ }
  · intro tab there
    obtain rfl | there := of_update_true there
    · exact ⟨Nat.le_add_left .., Nat.le_refl _⟩
    · exact (books.pooled there).imp_right Nat.le_succ_of_le
  · exact fun made => (books.placed made).imp_right Nat.le_succ_of_le

/-- What a tab's record says is not looked at. -/
theorem modifyTab (books : Consistent state) (tab : Nat) (change : Tab → Tab) :
    Consistent (state.modifyTab tab change) :=
  { books with }

/-- Neither is whether a tab is marked. -/
theorem remark (books : Consistent state) (closing : Nat → Bool) :
    Consistent { state with closing := closing } :=
  { books with }

/-- A tab that gives up its session is one less to look at. -/
theorem dropSession (books : Consistent state) (tab : Nat) :
    Consistent (state.dropSession tab) := by
  -- The other tabs hold what they held.
  refine { books with owned := ?_ }
  intro other id held
  by_cases same : other = tab
  · simp [Controller.dropSession, same] at held
  · exact books.owned ((Function.update_of_ne same ..).symm.trans held)

/-- A tab takes a session that was opened for it. -/
theorem register (books : Consistent state) (made : state.calls.MadeFor id tab)
    (answered : state.calls.Answered id) :
    Consistent { state with sessions := Function.update state.sessions tab (some id) } := by
  -- The tab holds the session from now on, and the others hold what they held.
  refine { books with owned := ?_ }
  intro other held there
  by_cases same : other = tab
  · simp only [same, Function.update_self, Option.some.injEq] at there
    exact ⟨there ▸ same ▸ made, there ▸ answered⟩
  · exact books.owned ((Function.update_of_ne same ..).symm.trans there)

/-- What goes on afterwards waits for a closing that was asked for. -/
theorem start (books : Consistent state) (asked : ∀ id, task.closes = some id → id ∈ state.invoked)
    (tearing : ∀ tab session, task = .destroying tab session → state.teardown tab = true) :
    Consistent { state with tasks := state.tasks ++ [task] } := by
  -- What goes on is one more entry, which closes what was asked for.
  refine { books with begun := ?_, tearing := ?_ }
  · intro other id begun closes
    obtain begun | same := List.mem_append.mp begun |>.imp_right List.mem_singleton.mp
    · exact books.begun begun closes
    · exact asked id (same ▸ closes)
  · intro tab session begun
    obtain begun | same := List.mem_append.mp begun |>.imp_right List.mem_singleton.mp
    · exact books.tearing begun
    · exact tearing tab session same.symm

/-- Only sessions the backend has named are closed. -/
theorem invokeClose (books : Consistent state) (answered : state.calls.Answered id)
    (closes : task.closes = some id)
    (tearing : ∀ tab session, task = .destroying tab session → state.teardown tab = true) :
    Consistent (state.invokeClose id task) := by
  -- The closing is noted first, and then what waits for it.
  have noted : Consistent { state with invoked := state.invoked ++ [id] } := by
    refine { books with asked := ?_, closed := ?_, begun := ?_ }
    · intro other invoked
      obtain invoked | rfl := List.mem_append.mp invoked |>.imp_right List.mem_singleton.mp
      · exact books.asked invoked
      · exact answered
    · exact fun answered => (books.closed answered).imp_right (List.mem_append_left _)
    · exact fun begun closes => List.mem_append_left _ (books.begun begun closes)
  refine noted.start ?_ tearing
  intro other this
  cases this.symm.trans closes
  exact List.mem_append_right _ (List.mem_singleton_self _)

/-- A task that comes back is one less to look at. -/
theorem erase (books : Consistent state) (task : Task) :
    Consistent { state with tasks := state.tasks.erase task } :=
  { books with
    begun := fun begun => books.begun (List.mem_of_mem_erase begun)
    tearing := fun begun => books.tearing (List.mem_of_mem_erase begun) }

/-- The backend closes what it was asked to. -/
theorem closed_ (books : Consistent state) (invoked : id ∈ state.invoked) :
    Consistent (state.closed id) := by
  -- The session that goes was asked for, and the others stay.
  refine { books with live := ?_, closed := ?_ }
  · exact fun there => books.live (of_update_false there).2
  · intro other answered
    by_cases same : other = id
    · exact .inr (same ▸ invoked)
    · exact (books.closed answered).imp_left (Function.update_of_ne same ..).trans

/-- A tab that is closed is torn down. -/
theorem torn_ (books : Consistent state) (closed : state.teardown tab = true) :
    Consistent (state.torn tab) := by
  -- The tab leaves the pool and the closed ones together.
  refine { books with pooled := ?_, torn := ?_ }
  · exact fun there => books.pooled (of_update_false there).2
  · intro other gone
    obtain rfl | gone := of_update_true gone
    · exact closed
    · exact books.torn gone

/-- The teardown of a tab may begin at any time. -/
theorem beginTeardown (books : Consistent state) (tab : Nat) :
    Consistent { state with teardown := Function.update state.teardown tab true } :=
  { books with
    torn := fun gone => update_true (books.torn gone)
    tearing := fun begun => update_true (books.tearing begun) }

/-- A session is opened for a tab that is there. -/
theorem add (books : Consistent state) (there : state.Opened tab) : Consistent { state with
      calls := Function.update state.calls state.nextId (some ⟨tab, .pending, false⟩)
      nextId := state.nextId + 1 } := by
  -- The id of the call is new, so nothing in the books is about it yet.
  have fresh := books.fresh
  refine { books with
    counted := ?_, placed := ?_, owned := ?_, live := ?_, asked := ?_, closed := ?_ }
  · intro id made
    by_cases same : id = state.nextId
    · exact same ▸ Nat.lt_succ_self _
    · exact Nat.lt_succ_of_lt (books.counted ((Function.update_of_ne same ..).symm.trans_ne made))
  · intro id other made
    obtain made | ⟨-, rfl⟩ := (madeFor_add fresh).mp made
    · exact books.placed made
    · exact there
  · exact fun held => ⟨(madeFor_add fresh).mpr (.inl (books.owned held).1),
      (answered_add fresh rfl).mpr (books.owned held).2⟩
  · exact fun there => (answered_add fresh rfl).mpr (books.live there)
  · exact fun invoked => (answered_add fresh rfl).mpr (books.asked invoked)
  · exact fun answered => books.closed ((answered_add fresh rfl).mp answered)

/-- A call may change as long as no answer is taken back, and the backend's table follows. -/
theorem change (books : Consistent state) {now : OpenCall} {rust : Nat → Bool}
    (made : state.calls id = some call) (onTab : now.tab = call.tab)
    (kept : ∀ {other}, state.calls.Answered other →
      Calls.Answered (Function.update state.calls id (some now)) other)
    (live : ∀ {other}, rust other = true →
      Calls.Answered (Function.update state.calls id (some now)) other)
    (closed : ∀ {other}, Calls.Answered (Function.update state.calls id (some now)) other →
      rust other = true ∨ other ∈ state.invoked) : Consistent { state with
        rust := rust
        calls := Function.update state.calls id (some now) } := by
  -- Only this call is rewritten, and it stays the call of its tab.
  refine { books with
    counted := ?_, placed := ?_, owned := ?_, live := live, asked := ?_, closed := closed }
  · intro other there
    by_cases same : other = id
    · exact books.counted (by simp [same, made])
    · exact books.counted ((Function.update_of_ne same ..).symm.trans_ne there)
  · exact fun there => books.placed ((madeFor_change made onTab).mp there)
  · exact fun held => ⟨(madeFor_change made onTab).mpr (books.owned held).1,
      kept (books.owned held).2⟩
  · exact fun invoked => kept (books.asked invoked)

/-- A call that fails leaves no session behind. -/
theorem fail (books : Consistent state) (made : state.calls id = some call)
    (pending : call.stage = .pending) : Consistent { state with
      calls := Function.update state.calls id (some { call with stage := .failed }) } := by
  have kept : ∀ {other}, state.calls.Answered other → Calls.Answered
      (Function.update state.calls id (some { call with stage := .failed })) other :=
    fun answered => answered.settle made pending
  refine books.change made rfl kept (fun there => kept (books.live there)) ?_
  -- A call that failed is not among those that were answered.
  rintro other ⟨found, there, resolved⟩
  by_cases same : other = id
  · simp only [same, Function.update_self, Option.some.injEq] at there
    simp [← there] at resolved
  · exact books.closed ⟨found, (Function.update_of_ne same ..).symm.trans there, resolved⟩

/-- A call that is answered with a session has the backend keep the session. -/
theorem answer (books : Consistent state) (made : state.calls id = some call)
    (pending : call.stage = .pending) : Consistent { state with
      rust := Function.update state.rust id true
      calls := Function.update state.calls id (some { call with stage := .resolved }) } := by
  have kept : ∀ {other}, state.calls.Answered other → Calls.Answered
      (Function.update state.calls id (some { call with stage := .resolved })) other :=
    fun answered => answered.settle made pending
  -- The call's own session is answered and live now, and every other is as it was.
  refine books.change made rfl kept ?_ ?_
  · intro other there
    obtain rfl | there := of_update_true there
    · exact ⟨_, Function.update_self .., rfl⟩
    · exact kept (books.live there)
  · rintro other ⟨found, there, resolved⟩
    by_cases same : other = id
    · exact .inl (same ▸ Function.update_self ..)
    · exact (books.closed ⟨found, (Function.update_of_ne same ..).symm.trans there,
        resolved⟩).imp_left update_true

/-- What happens on a call's channel leaves the books as they are. -/
theorem note (books : Consistent state) (made : state.calls id = some call) (ended : Bool) :
    Consistent { state with
      calls := Function.update state.calls id (some { call with ended := ended }) } := by
  -- Whether a channel has ended is nothing that the books keep.
  have same : ∀ {other}, Calls.Answered
      (Function.update state.calls id (some { call with ended := ended })) other ↔
      state.calls.Answered other := answered_change made rfl
  exact books.change made rfl same.mpr (fun there => same.mpr (books.live there))
    fun answered => books.closed (same.mp answered)

/-- A tab is marked, and gives up its session. -/
theorem release (books : Consistent state) (tab : Nat) : Consistent (state.release tab) :=
  (books.dropSession tab).remark _

/-- What comes back was begun. -/
theorem finish (books : Consistent state) (begun : task ∈ state.tasks) :
    Consistent ({ state with tasks := state.tasks.erase task }.finish task) := by
  -- What comes back tells which session was closed, and which tab was torn down.
  have erased := books.erase task
  cases task with
  | closeLate id => exact erased.closed_ (books.begun begun rfl)
  | disconnecting tab id => exact (erased.closed_ (books.begun begun rfl)).modifyTab tab _
  | destroying tab session =>
    have closed := books.tearing begun
    cases session with
    | none => exact erased.torn_ closed
    | some id => exact ((erased.closed_ (books.begun begun rfl)).modifyTab tab _).torn_ closed

end Consistent

end Operations

section Steps

variable {state next : Controller} {action : Action}

/-- A connect either changes nothing, or a call is made for a tab that is there and has none. -/
theorem connect_cases (state : Controller) (tab : Nat) :
    (state.connect tab = state ∧ ¬(state.pool tab = true ∧ state.sessions tab = none)) ∨
    (state.pool tab = true ∧ state.sessions tab = none ∧
      state.connect tab = { state.setConn tab .connecting none with
        closing := Function.update state.closing tab false
        calls := Function.update state.calls state.nextId (some ⟨tab, .pending, false⟩)
        nextId := state.nextId + 1 }) := by
  -- A tab that is gone, or holds a session already, is left alone.
  unfold Controller.connect
  cases state.pool tab with
  | false => exact .inl ⟨rfl, by simp⟩
  | true =>
    cases state.sessions tab with
    | none => exact .inr ⟨rfl, rfl, rfl⟩
    | some id => exact .inl ⟨rfl, by simp⟩

/-- The books stay in agreement, whatever happens next. -/
theorem Consistent.step (books : Consistent state)
    (taken : controllerStep state action = some next) : Consistent next := by
  cases action with
  | openTab hostId =>
    cases taken
    exact books.openTab hostId
  | connect tab =>
    cases taken
    -- A connect is refused, or makes one call more.
    obtain ⟨stays, -⟩ | ⟨pooled, -, goes⟩ := connect_cases state tab
    · rw [stays]
      exact books
    · rw [goes]
      exact { books.add (books.pooled pooled) with }
  | opened id =>
    obtain ⟨call, made, pending, rfl⟩ := Controller.answer_eq_some.mp taken
    have answered := books.answer made pending
    have named : Calls.Answered
        (Function.update state.calls id (some { call with stage := .resolved })) id :=
      ⟨_, Function.update_self .., rfl⟩
    unfold Controller.opened
    -- A marked tab has the session closed at once, and any other takes it.
    cases mark : state.closing call.tab with
    | true =>
      simp only [mark, if_true]
      exact answered.invokeClose named rfl (by simp)
    | false =>
      simp only [mark, Bool.false_eq_true, if_false]
      have registered :=
        answered.register ((madeFor_change made (by rfl)).mpr ⟨call, made, rfl⟩) named
      exact (registered.modifyTab call.tab _).modifyTab call.tab _
  | openFailed id reason =>
    obtain ⟨call, made, pending, rfl⟩ := Controller.answer_eq_some.mp taken
    -- A call that fails has an answer, and no session.
    exact (books.fail made pending).modifyTab call.tab _
  | event id ev now =>
    obtain ⟨call, made, rfl⟩ := controllerStep_event taken
    obtain ⟨byId, handled⟩ := state.handleEvent_eq call.tab now ev
    unfold Controller.event
    rw [handled]
    -- Only whether the session goes depends on the event.
    cases ev.ends with
    | true => exact { (books.dropSession call.tab).note made _ with }
    | false => exact { books.note made _ with }
  | disconnect tab =>
    cases taken
    -- The tab gives up its session, which is closed if there is one.
    have released := books.release tab
    unfold Controller.disconnect
    cases held : state.sessions tab with
    | none => exact released.modifyTab tab _
    | some id => exact released.invokeClose (books.owned held).2 rfl (by simp)
  | destroy tab =>
    cases taken
    -- It is under teardown from here on.
    have begun := (books.release tab).beginTeardown tab
    have closing : Function.update state.teardown tab true tab = true := Function.update_self ..
    unfold Controller.destroy
    cases held : state.sessions tab with
    | none =>
      refine Consistent.start (begun.modifyTab tab fun t => { t with rustSessionId := none })
        (fun id closes => nomatch closes) ?_
      rintro other session ⟨⟩
      exact closing
    | some id =>
      refine begun.invokeClose (books.owned held).2 rfl ?_
      rintro other session ⟨⟩
      exact closing
  | closeTab tab =>
    cases taken
    exact { books with }
  | finish task =>
    -- What comes back had been begun.
    obtain ⟨begun, rfl⟩ := controllerStep_finish taken
    exact books.finish begun

end Steps

end Tern.Webview
