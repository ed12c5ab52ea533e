import Tern.Webview.Bookkeeping

/-! When a session that has ended is not shown as connected. -/

namespace Tern.Webview

section Properties

/-- A tab is shown as connected. -/
def Controller.Shows (self : Controller) (tab : Nat) : Prop :=
  ∃ shown, self.byId tab = some shown ∧ shown.conn = .connected

/-- The newest session of a tab has ended, and the controller has handled that event. -/
def Controller.Finished (self : Controller) (id tab : Nat) : Prop :=
  (∃ call, self.calls id = some call ∧ call.tab = tab ∧ call.ended = true) ∧
    ∀ later, id < later → ¬self.calls.MadeFor later tab

/-- A finished session is not shown as connected, and no tab owns it. -/
def FinishedNotConnected (state : Controller) : Prop :=
  ∀ id tab, state.Finished id tab → ¬state.Shows tab ∧ state.sessions tab ≠ some id

/--
No step brings a finished session back.

An open that resolves does, and so does the event of a connection.
-/
def KeepsEnd (state : Controller) : Action → Prop
  | .opened id => ∀ tab last, state.calls.InFlight id tab → state.closing tab = false →
    state.Finished last tab → id ≠ last ∧ state.byId tab = none
  | .event id .connected _ => ∀ tab last, state.calls.MadeFor id tab →
    state.Finished last tab → state.byId tab = none
  | _ => True

end Properties

section Steps

variable {state next : Controller} {action : Action} {tab other id : Nat} {call now : OpenCall}

/-- A change that connects no tab shows no tab as connected that was not. -/
theorem shows_modifyTab {change : Tab → Tab}
    (keeps : ∀ t, (change t).conn = .connected → t.conn = .connected)
    (there : (state.modifyTab tab change).Shows other) : state.Shows other := by
  -- The change is of one tab, and connects none that was not connected.
  obtain ⟨shown, found, connected⟩ := there
  by_cases same : other = tab
  · subst same
    simp only [Controller.modifyTab, Function.update_self, Option.map_eq_some_iff] at found
    obtain ⟨before, found, rfl⟩ := found
    exact ⟨before, found, keeps before connected⟩
  · exact ⟨shown, (Function.update_of_ne same ..).symm.trans found, connected⟩

/-- A change that ends the connection leaves its tab not connected. -/
theorem not_shows_modifyTab {change : Tab → Tab} (ends : ∀ t, (change t).conn ≠ .connected) :
    ¬(state.modifyTab tab change).Shows tab := by
  rintro ⟨shown, found, connected⟩
  simp only [Controller.modifyTab, Function.update_self, Option.map_eq_some_iff] at found
  obtain ⟨before, -, rfl⟩ := found
  exact ends before connected

/-- Which session a tab's record names has no part in it. -/
theorem shows_setRustSessionId {named : Option Nat}
    (there : (state.setRustSessionId tab named).Shows other) : state.Shows other :=
  shows_modifyTab (by simp) there

/-- A tab that is in the store is shown as connected once that is set. -/
theorem shows_setConn (there : state.byId tab ≠ none) (detail : Option String) :
    (state.setConn tab .connected detail).Shows tab := by
  obtain ⟨shown, found⟩ := Option.ne_none_iff_exists'.mp there
  refine ⟨{ shown with conn := .connected, detail := detail, reconnect := none }, ?_, rfl⟩
  simp [Controller.setConn, Controller.modifyTab, found]

/-- Another call for its tab leaves no session of the tab the newest. -/
theorem Consistent.finished_add (books : Consistent state)
    (calls : next.calls = Function.update state.calls state.nextId (some ⟨tab, .pending, false⟩))
    (finished : next.Finished id other) : state.Finished id other ∧ other ≠ tab := by
  obtain ⟨⟨call, made, rfl, ended⟩, newest⟩ := finished
  rw [calls] at made newest
  -- The new call is pending, so that it is not the one that ended.
  have older : id ≠ state.nextId := by
    rintro rfl
    simp only [Function.update_self, Option.some.injEq] at made
    simp [← made] at ended
  rw [Function.update_of_ne older] at made
  refine ⟨⟨⟨call, made, rfl, ended⟩, ?_⟩, ?_⟩
  · exact fun later after there => newest later after ((madeFor_add books.fresh).mpr (.inl there))
  · intro same
    exact newest state.nextId (books.counted (by simp [made]))
      ((madeFor_add books.fresh).mpr (.inr ⟨rfl, same.symm⟩))

/-- Whatever becomes of a call, a session is finished if it was, or if the call has ended now. -/
theorem finished_change (made : state.calls id = some call) (onTab : now.tab = call.tab)
    (keeps : call.ended = true → now.ended = true)
    (calls : next.calls = Function.update state.calls id (some now)) {last : Nat} :
    next.Finished last other ↔ state.Finished last other ∨
      (last = id ∧ other = call.tab ∧ now.ended = true ∧
        ∀ later, last < later → ¬state.calls.MadeFor later other) := by
  unfold Controller.Finished
  rw [calls]
  simp only [madeFor_change made onTab]
  -- Only for the call itself can it have ended now.
  by_cases same : last = id
  · subst same
    simp only [Function.update_self, Option.some.injEq, exists_eq_left', made, onTab, true_and]
    grind
  · simp [same]

/-- An answer finishes no session. -/
theorem finished_answer (made : state.calls id = some call) {stage : OpenStage}
    (calls : next.calls = Function.update state.calls id (some { call with stage := stage }))
    {last : Nat} : next.Finished last other ↔ state.Finished last other := by
  rw [finished_change made (by rfl) (by simp) calls, or_iff_left_iff_imp]
  rintro ⟨rfl, rfl, ended, newest⟩
  exact ⟨⟨call, made, rfl, ended⟩, newest⟩

/-- What was calm stays so when nothing finishes, nothing connects, and no tab takes a session. -/
theorem FinishedNotConnected.mono (calm : FinishedNotConnected state)
    (finished : ∀ {id tab}, next.Finished id tab → state.Finished id tab)
    (shows_ : ∀ {tab}, next.Shows tab → state.Shows tab)
    (owns : ∀ {id tab}, next.sessions tab = some id → state.sessions tab = some id) :
    FinishedNotConnected next := by
  intro id tab ended
  obtain ⟨hidden, free⟩ := calm id tab (finished ended)
  exact ⟨fun there => hidden (shows_ there), fun held => free (owns held)⟩

/-- A tab that gives up its session takes none. -/
theorem of_dropped {sessions : Nat → Option Nat} {held : Nat}
    (there : Function.update sessions tab none other = some held) : sessions other = some held := by
  by_cases same : other = tab
  · simp [same] at there
  · exact (Function.update_of_ne same ..).symm.trans there

/-- An event but a connection leaves the tabs' records, or its tab's not connected. -/
theorem handleEvent_byId (self : Controller) (tab now : Nat) {ev : SessionEvent}
    (other : ev ≠ .connected) :
    (self.handleEvent tab now ev).byId = self.byId ∧ ev.ends = false ∨
      ∃ change : Tab → Tab, (∀ t, (change t).conn ≠ .connected) ∧
        (self.handleEvent tab now ev).byId = (self.modifyTab tab change).byId := by
  -- Each other event writes a state that is not connected, or no state at all.
  cases ev with
  | connected => exact absurd rfl other
  | reconnecting attempt maxAttempts delayMs => exact .inr ⟨_, by simp, rfl⟩
  | exited code => exact .inr ⟨_, by simp, rfl⟩
  | disconnected reason =>
    refine .inr ⟨fun t => { t with
      conn := .disconnected, detail := some reason, reconnect := none, rustSessionId := none },
      by simp, ?_⟩
    simp [Controller.handleEvent, Controller.setConn, Controller.setRustSessionId,
      Controller.modifyTab, Controller.dropSession, Function.comp_def]
  | error message => exact .inr ⟨_, by simp, rfl⟩
  | hostKeyChanged host port => exact .inr ⟨_, by simp, rfl⟩
  | hostKeyRevoked host port => exact .inr ⟨_, by simp, rfl⟩
  | hostKeyPrompt => exact .inl ⟨rfl, rfl⟩
  | warning message => exact .inl ⟨rfl, rfl⟩

/-- An event is noted on its call. -/
theorem event_calls (state : Controller) (id : Nat) (call : OpenCall) (ev : SessionEvent)
    (now : Nat) : (state.event id call ev now).calls =
      Function.update state.calls id (some { call with ended := call.ended || ev.ends }) := by
  cases ev <;> rfl

/-- A session that resolves is registered only when that brings nothing back. -/
theorem FinishedNotConnected.opened (calm : FinishedNotConnected state)
    (made : state.calls id = some call) (pending : call.stage = .pending)
    (keeps : KeepsEnd state (.opened id)) : FinishedNotConnected (state.opened id call) := by
  -- The call has been in flight until now, which is where the condition applies.
  have flight : state.calls.InFlight id call.tab := ⟨call, made, rfl, pending⟩
  unfold Controller.opened
  cases mark : state.closing call.tab with
  | true =>
    -- A marked tab does not take the session.
    simp only [mark, if_true]
    exact calm.mono (finished_answer made rfl).mp (fun there => there) (fun held => held)
  | false =>
    simp only [mark, Bool.false_eq_true, if_false]
    intro last tab ended
    have ended := (finished_answer made rfl).mp ended
    by_cases same : tab = call.tab
    · subst same
      obtain ⟨apart, gone⟩ := keeps call.tab last flight mark ended
      constructor
      · -- The tab is not in the store any more, so that it is shown nowhere.
        rintro ⟨shown, found, -⟩
        simp [Controller.setConn, Controller.setRustSessionId, Controller.modifyTab, gone] at found
      · simpa [Controller.setConn, Controller.setRustSessionId, Controller.modifyTab] using apart
    · -- The other tabs are shown, and own their sessions, as before.
      obtain ⟨hidden, free⟩ := calm last tab ended
      constructor
      · rintro ⟨shown, found, connected⟩
        refine hidden ⟨shown, ?_, connected⟩
        simpa [Controller.setConn, Controller.setRustSessionId, Controller.modifyTab, same]
          using found
      · exact fun held => free ((Function.update_of_ne same ..).symm.trans held)

/-- An event that ends its session takes it from its tab, and any other finishes none. -/
theorem FinishedNotConnected.event (calm : FinishedNotConnected state)
    (made : state.calls id = some call) {ev : SessionEvent} {now : Nat}
    (keeps : KeepsEnd state (.event id ev now)) :
    FinishedNotConnected (state.event id call ev now) := by
  obtain ⟨byId, handled⟩ := state.handleEvent_eq call.tab now ev
  -- No event gives a tab a session.
  have owns : ∀ {held tab}, (state.event id call ev now).sessions tab = some held →
      state.sessions tab = some held := by
    intro held tab there
    simp only [Controller.event, handled] at there
    cases ends : ev.ends with
    | true => exact of_dropped (by simpa [ends, Controller.dropSession] using there)
    | false => simpa [ends] using there
  -- A session is finished if it was, or if this event is its end.
  have finished : ∀ {last tab}, (state.event id call ev now).Finished last tab →
      state.Finished last tab ∨ (tab = call.tab ∧ ev.ends = true) := by
    intro last tab ended
    have noted := event_calls state id call ev now
    obtain ended | ⟨rfl, rfl, ended, newest⟩ :=
      (finished_change made (by rfl) (by simp +contextual) noted).mp ended
    · exact .inl ended
    · obtain ended | ends := Bool.or_eq_true _ _ |>.mp ended
      · exact .inl ⟨⟨call, made, rfl, ended⟩, newest⟩
      · exact .inr ⟨rfl, ends⟩
  intro last tab ended
  constructor
  · -- A tab that the event is not about is shown as before.
    have elsewhere : ∀ {change : Tab → Tab}, tab ≠ call.tab →
        (state.modifyTab call.tab change).Shows tab → False := by
      rintro change apart ⟨shown, found, connected⟩
      have old := (finished ended).resolve_right fun this => apart this.1
      exact (calm last tab old).1
        ⟨shown, (Function.update_of_ne apart ..).symm.trans found, connected⟩
    -- Only a connection shows its tab as connected.
    by_cases connects : ev = .connected
    · subst connects
      -- The tab of a session that was finished is not in the store, as the condition says.
      by_cases same : tab = call.tab
      · have old := (finished ended).resolve_right fun this => absurd this.2 (by decide)
        have gone := keeps tab last ⟨call, made, same.symm⟩ old
        rintro ⟨shown, found, -⟩
        simp [Controller.event, Controller.handleEvent, Controller.setConn, Controller.modifyTab,
          ← same, gone] at found
      · exact elsewhere same
    · obtain ⟨kept, stays⟩ | ⟨change, hides, changed⟩ :=
        handleEvent_byId state call.tab now connects
      · have old := (finished ended).resolve_right fun this => by simp [stays] at this
        rintro ⟨shown, found, connected⟩
        exact (calm last tab old).1 ⟨shown, kept ▸ found, connected⟩
      · rintro ⟨shown, found, connected⟩
        have there : (state.modifyTab call.tab change).Shows tab :=
          ⟨shown, changed ▸ found, connected⟩
        by_cases same : tab = call.tab
        · exact not_shows_modifyTab hides (same ▸ there)
        · exact elsewhere same there
  · intro held
    obtain old | ⟨rfl, ends⟩ := finished ended
    · exact (calm last tab old).2 (owns held)
    · simp [Controller.event, handled, ends, Controller.dropSession] at held

/-- Every step that brings no finished session back keeps them apart. -/
theorem FinishedNotConnected.step (calm : FinishedNotConnected state) (books : Consistent state)
    (taken : controllerStep state action = some next) (keeps : KeepsEnd state action) :
    FinishedNotConnected next := by
  cases action with
  | openTab hostId =>
    cases taken
    refine calm.mono (fun ended => ended) ?_ (fun held => held)
    rintro tab ⟨shown, found, connected⟩
    by_cases same : tab = state.nextTabId + 1
    · -- A new tab is idle.
      simp only [Controller.openTab, same, Function.update_self, Option.some.injEq] at found
      simp [← found] at connected
    · exact ⟨shown, (Function.update_of_ne same ..).symm.trans found, connected⟩
  | connect tab =>
    cases taken
    obtain ⟨stays, -⟩ | ⟨-, -, goes⟩ := connect_cases state tab
    · rw [stays]
      exact calm
    · rw [goes]
      -- A new call finishes no session.
      refine calm.mono (fun ended => (books.finished_add rfl ended).1) ?_ (fun held => held)
      exact fun there => shows_modifyTab (by simp) there
  | opened id =>
    obtain ⟨call, made, pending, rfl⟩ := Controller.answer_eq_some.mp taken
    exact calm.opened made pending keeps
  | openFailed id reason =>
    obtain ⟨call, made, pending, rfl⟩ := Controller.answer_eq_some.mp taken
    exact calm.mono (finished_answer made rfl).mp (fun there => shows_modifyTab (by simp) there)
      (fun held => held)
  | event id ev now =>
    obtain ⟨call, made, rfl⟩ := controllerStep_event taken
    exact calm.event made keeps
  | disconnect tab =>
    cases taken
    unfold Controller.disconnect
    -- A disconnect gives no tab a session, and shows none as connected.
    cases state.sessions tab with
    | none =>
      exact calm.mono (fun ended => ended) (fun there => shows_setRustSessionId there) of_dropped
    | some id => exact calm.mono (fun ended => ended) (fun there => there) of_dropped
  | destroy tab =>
    cases taken
    unfold Controller.destroy
    cases state.sessions tab with
    | none =>
      exact calm.mono (fun ended => ended) (fun there => shows_setRustSessionId there) of_dropped
    | some id => exact calm.mono (fun ended => ended) (fun there => there) of_dropped
  | closeTab tab =>
    cases taken
    refine calm.mono (fun ended => ended) ?_ (fun held => held)
    rintro other ⟨shown, found, connected⟩
    -- A tab that goes is shown nowhere, and the others are shown as before.
    by_cases same : other = tab
    · simp [Controller.closeTab, same] at found
    · exact ⟨shown, (Function.update_of_ne same ..).symm.trans found, connected⟩
  | finish task =>
    obtain ⟨-, rfl⟩ := controllerStep_finish taken
    have cleared : ∀ {other tab}, (state.setRustSessionId tab none).Shows other →
        state.Shows other := shows_setRustSessionId
    cases task with
    | closeLate id => exact calm.mono (fun ended => ended) (fun there => there) (fun held => held)
    | disconnecting tab id => exact calm.mono (fun ended => ended) cleared (fun held => held)
    | destroying tab session =>
      cases session with
      | none => exact calm.mono (fun ended => ended) (fun there => there) (fun held => held)
      | some id => exact calm.mono (fun ended => ended) cleared (fun held => held)

/-- A step that brings a finished session back shows it as connected, or has a tab own it. -/
theorem finished_broken (taken : controllerStep state action = some next)
    (loses : ¬KeepsEnd state action) : ¬FinishedNotConnected next := by
  intro calm
  cases action with
  | opened id =>
    obtain ⟨call, made, pending, rfl⟩ := Controller.answer_eq_some.mp taken
    simp only [KeepsEnd, not_forall] at loses
    obtain ⟨tab, last, flight, unmarked, ended, loses⟩ := loses
    cases madeFor_inj flight.madeFor ⟨call, made, rfl⟩
    simp only [Controller.opened, unmarked, Bool.false_eq_true, if_false] at calm
    -- Behind this step the tab owns the session that resolved.
    obtain ⟨hidden, free⟩ := calm last call.tab ((finished_answer made rfl).mpr ended)
    refine loses ⟨?_, ?_⟩
    · rintro rfl
      exact free (Function.update_self ..)
    · -- A tab that is still in the store is shown as connected from now on.
      by_contra there
      refine hidden (shows_setConn ?_ none)
      simpa [Controller.setRustSessionId, Controller.modifyTab] using there
  | event id ev now =>
    obtain ⟨call, made, rfl⟩ := controllerStep_event taken
    cases ev with
    | connected =>
      simp only [KeepsEnd, not_forall] at loses
      obtain ⟨tab, last, onTab, ended, loses⟩ := loses
      cases madeFor_inj onTab ⟨call, made, rfl⟩
      -- The session was finished before the event, and is so behind it.
      have kept : (state.event id call .connected now).Finished last call.tab :=
        (finished_change made (by rfl) (by simp +contextual) (event_calls ..)).mpr (.inl ended)
      exact (calm last call.tab kept).1 (shows_setConn loses none)
    | _ => exact loses trivial
  | _ => exact loses trivial

/-- What is refused brings nothing back. -/
theorem keepsEnd_of_refused (refused : controllerStep state action = none) :
    KeepsEnd state action := by
  -- The steps that could bring a session back are those of a call that was made.
  cases action with
  | opened id =>
    rintro tab last ⟨call, made, -, pending⟩
    simp [controllerStep, Controller.answer, made, pending] at refused
  | event id ev now =>
    cases ev with
    | connected =>
      rintro tab last ⟨call, made, -⟩
      simp [controllerStep, made] at refused
    | _ => trivial
  | _ => trivial

/--
Throughout exactly the runs that bring no finished session back,
a finished session is not shown as connected, and no tab owns it.
-/
theorem finished_not_connected_iff (actions : List Action) :
    System.Throughout controllerStep FinishedNotConnected Controller.init actions ↔
      System.Meets controllerStep KeepsEnd Controller.init actions := by
  -- The books are kept by every step, and the property by those that meet the condition.
  refine @System.throughout_iff_meets _ _ controllerStep KeepsEnd
    (fun state => Consistent state ∧ FinishedNotConnected state) _ And.right ?_ ?_
    keepsEnd_of_refused _ _ ⟨consistent_init, ?_⟩
  · exact fun ⟨books, calm⟩ taken keeps => ⟨books.step taken, calm.step books taken keeps⟩
  · exact fun _ taken loses => finished_broken taken loses
  · rintro id tab ⟨⟨call, made, -⟩, -⟩
    cases made

/-- A shell that ends before its open resolves is shown as connected from then on. -/
theorem finished_session_connected :
    ∃ final, System.run controllerStep Controller.init
      [.openTab (some 7), .connect 1, .event 0 (.exited (some 0)) 0, .opened 0] = some final ∧
      final.Finished 0 1 ∧ final.Shows 1 ∧ final.sessions 1 = some 0 ∧
      ¬System.Throughout controllerStep FinishedNotConnected Controller.init
        [.openTab (some 7), .connect 1, .event 0 (.exited (some 0)) 0, .opened 0] := by
  obtain ⟨final, ran, call, count, shown, held⟩ : ∃ final,
      System.run controllerStep Controller.init
        [.openTab (some 7), .connect 1, .event 0 (.exited (some 0)) 0, .opened 0] = some final ∧
      final.calls 0 = some ⟨1, .resolved, true⟩ ∧ final.nextId = 1 ∧ final.Shows 1 ∧
      final.sessions 1 = some 0 :=
    ⟨_, rfl, rfl, rfl, ⟨_, rfl, rfl⟩, rfl⟩
  have books : Consistent final := System.run_preserves Consistent.step consistent_init ran
  have ended : final.Finished 0 1 := by
    refine ⟨⟨_, call, rfl, rfl⟩, ?_⟩
    rintro later after ⟨other, made, -⟩
    -- Only one call was ever made.
    have numbered : later < final.nextId := books.counted (by simp [made])
    omega
  exact ⟨final, ran, ended, shown, held, fun throughout =>
    (throughout.final ran 0 1 ended).2 held⟩

end Steps

end Tern.Webview
