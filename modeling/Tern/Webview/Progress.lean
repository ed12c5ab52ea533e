import Tern.Webview.Tabs

/-! The progress of a reconnect in the tabs' records: when it outlives the reconnect. -/

namespace Tern.Tabs

open Webview (ConnState ReconnectInfo)

/-- A record shows the progress of a reconnect only while it says that there is one. -/
def Tab.ShowsProgressRightly (tab : Tab) : Prop :=
  tab.reconnect ≠ none → tab.conn = some .reconnecting

/-- No record shows the progress of a reconnect that is over. -/
def NoneLingers (state : Sessions) : Prop :=
  ∀ id tab, state.byId id = some tab → tab.ShowsProgressRightly

/-- A shell's end is recorded only in a record without the progress of a reconnect. -/
def EndsNoReconnect (state : Sessions) : Action → Prop
  | .setExit id _ => ∀ tab, state.read id = some tab → tab.reconnect = none
  | _ => True

variable {state : Sessions} {id : TabId}

/-- Whatever a change finds under a name shows no progress wrongly. -/
theorem NoneLingers.read {tab : Tab} (right : NoneLingers state)
    (found : state.read id = some tab) : tab.ShowsProgressRightly := by
  rw [Sessions.read] at found
  split at found
  · next own present =>
    cases found
    exact right id tab present
  · -- What every object has is copied as a record without any field.
    split at found
    · cases found
      exact fun shown => absurd rfl shown
    · cases found

/-- A change that leaves its record right leaves them all right. -/
theorem NoneLingers.modify {change : Tab → Tab} (right : NoneLingers state)
    (kept : ∀ tab, state.read id = some tab → (change tab).ShowsProgressRightly) :
    NoneLingers (state.modify id change) := by
  -- A record that is not there is not changed, and the others are left alone.
  unfold Sessions.modify
  split
  · exact right
  · next tab found =>
    intro other changed
    by_cases this : other = id
    · subst this
      intro now
      simp only [Function.update_self, Option.some.injEq] at now
      exact now ▸ kept tab found
    · dsimp only
      rw [Function.update_of_ne this]
      exact right other changed

/-- Closing a tab makes no other record wrong. -/
theorem NoneLingers.closeTab (right : NoneLingers state) (id : TabId) :
    NoneLingers (state.closeTab id) := by
  -- The record goes with its tab.
  unfold Sessions.closeTab
  split
  · exact right
  · intro other tab found
    by_cases this : other = id
    · subst this
      simp at found
    · dsimp only at found
      rw [Function.update_of_ne this] at found
      exact right other tab found

/-- Opening a tab adds a record without the progress of any reconnect. -/
theorem NoneLingers.openTab {hostId : Option Int} {title : String} (right : NoneLingers state) :
    NoneLingers (state.openTab hostId title) := by
  -- The new record shows no reconnect, and the others are left alone.
  intro other tab found
  by_cases this : other = tabName (increment state.nextTabId)
  · subst this
    simp only [Sessions.openTab, Function.update_self, Option.some.injEq] at found
    exact fun shown => absurd (by rw [← found]) shown
  · simp only [Sessions.openTab] at found
    rw [Function.update_of_ne this] at found
    exact right other tab found

/-- One allowed call leaves no progress behind. -/
theorem noneLingers_step {next : Sessions} {action : Action} (right : NoneLingers state)
    (taken : storeStep state action = some next) (allowed : EndsNoReconnect state action) :
    NoneLingers next := by
  cases taken
  cases action with
  | openTab hostId title => exact right.openTab
  | closeTab id => exact right.closeTab id
  | setActive id =>
    rw [Sessions.call, Sessions.setActive]
    split
    · exact right
    · exact right
  | moveTab id toIndex =>
    rw [Sessions.call, Sessions.moveTab]
    split
    · exact right
    · exact right
  -- Setting a connection state clears the progress.
  | setConn id conn detail => exact right.modify fun _ _ shown => absurd rfl shown
  | setReconnecting id info => exact right.modify fun _ _ _ => rfl
  -- Neither field is touched by these two.
  | setRustSessionId id sessionId =>
    apply right.modify
    intro tab found
    have before := right.read found
    exact before
  | renameTab id title =>
    apply right.modify
    intro tab found
    have before := right.read found
    exact before
  -- An exit leaves the progress, which the condition says there is none of.
  | setExit id code => exact right.modify fun tab found shown => absurd (allowed tab found) shown

/-- The end of a shell that a reconnect was under way for leaves the progress behind. -/
theorem lingers_step {next : Sessions} {action : Action}
    (taken : storeStep state action = some next) (outside : ¬EndsNoReconnect state action) :
    ¬NoneLingers next := by
  cases taken
  cases action with
  | setExit id code =>
    obtain ⟨tab, others⟩ := Classical.not_forall.mp outside
    obtain ⟨found, shown⟩ := Classical.not_imp.mp others
    intro right
    rw [Sessions.call, Sessions.setExit, Sessions.modify, found] at right
    -- The record says that the tab is disconnected, and keeps the progress it had.
    have wrong := right id _ (Function.update_self _ _ _) shown
    cases wrong
  | openTab hostId title => exact absurd trivial outside
  | closeTab id => exact absurd trivial outside
  | setActive id => exact absurd trivial outside
  | moveTab id toIndex => exact absurd trivial outside
  | setConn id conn detail => exact absurd trivial outside
  | setReconnecting id info => exact absurd trivial outside
  | setRustSessionId id sessionId => exact absurd trivial outside
  | renameTab id title => exact absurd trivial outside

/--
Over every sequence of calls, a tab shows the progress of a reconnect only while it is reconnecting,
exactly when no shell's end is recorded in a tab that shows such progress.
-/
theorem progress_lingers_never_iff (actions : List Action) :
    System.Throughout storeStep NoneLingers Sessions.init actions ↔
      System.Meets storeStep EndsNoReconnect Sessions.init actions := by
  -- At the start there is no record, and no action of the store is refused.
  apply System.throughout_iff_meets fun right : NoneLingers _ => right
  · exact fun right taken allowed => noneLingers_step right taken allowed
  · exact fun _ taken outside => lingers_step taken outside
  · exact fun refused => by cases refused
  · intro id tab found
    cases found

/-- A shell that ends during a reconnect leaves its tab disconnected and still counting down. -/
theorem progress_kept_by_exit :
    ¬System.Throughout storeStep NoneLingers Sessions.init
      [.openTab (some 1) "web", .setReconnecting "t-1" ⟨2, 5, 1000⟩, .setExit "t-1" (some 0)] := by
  rintro ⟨-, opened⟩
  obtain ⟨-, reconnecting⟩ := opened _ rfl
  obtain ⟨-, exited⟩ := reconnecting _ rfl
  -- The record is the tab's own, with the end of its shell and the progress that it showed before.
  have wrong := exited _ rfl "t-1" ⟨some "t-1", some 1, some "web", some .disconnected, none, none,
    some 0, some ⟨2, 5, 1000⟩⟩ (by decide) (by decide)
  cases wrong

end Tern.Tabs
