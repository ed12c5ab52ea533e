import Tern.Webview.Tabs

/-! The pool of terminals: which of them hold a context for drawing, and which one should. -/

namespace Tern.Terminals

open Tabs (TabId)

/-- What a terminal is drawn with. -/
inductive Renderer where
  | webgl
  | dom
  deriving DecidableEq, Repr

/-- A terminal of the pool, with what its addons and its loads have come to. -/
structure TerminalHandle where
  renderer : Renderer
  visible : Bool
  /-- The addon that a later deactivation disposes of. -/
  webgl : Option Nat
  /-- The addons on the terminal that nothing has disposed of yet. -/
  undisposed : List Nat
  /-- How many loads of an addon have begun and not ended. -/
  loading : Nat
  deriving DecidableEq, Repr

/-- A terminal that was just made. -/
def TerminalHandle.new : TerminalHandle := ⟨.dom, false, none, [], 0⟩

/-- The pool, with the tab that was shown last and a number for the next addon. -/
structure Pool where
  ids : List TabId
  /-- The terminals by their tabs, those that were torn down among them. -/
  handle : TabId → TerminalHandle
  released : List TabId
  active : Option TabId
  nextAddon : Nat

/-- The pool before the first terminal. -/
def Pool.new : Pool := ⟨[], fun _ => .new, [], none, 0⟩

section Handles

/-- Make a terminal visible, and begin to load an addon unless it has one. -/
def TerminalHandle.activate (self : TerminalHandle) : TerminalHandle :=
  { self with
    visible := true
    -- The load goes on in the background, and what it finds then is not asked again.
    loading := if self.webgl = none then self.loading + 1 else self.loading }

/-- Hide a terminal, and dispose of its addon. -/
def TerminalHandle.deactivate (self : TerminalHandle) : TerminalHandle :=
  { self with
    undisposed := match self.webgl with
      | some addon => self.undisposed.erase addon
      | none => self.undisposed
    webgl := none
    renderer := .dom
    visible := false }

/-- A load of an addon ends with the addon on the terminal. -/
def TerminalHandle.attach (self : TerminalHandle) (addon : Nat) : TerminalHandle :=
  { self with
    loading := self.loading - 1
    undisposed := self.undisposed ++ [addon]
    webgl := some addon
    renderer := .webgl }

/-- A load of an addon ends without one. -/
def TerminalHandle.fallBack (self : TerminalHandle) : TerminalHandle :=
  { self with loading := self.loading - 1, renderer := .dom }

/-- Tear a terminal down, which disposes of the addons on it. -/
def TerminalHandle.dispose (self : TerminalHandle) : TerminalHandle :=
  { self with undisposed := [] }

/-- An addon has lost its context, and disposes of itself. -/
def TerminalHandle.onContextLoss (self : TerminalHandle) (addon : Nat) : TerminalHandle :=
  { self with undisposed := self.undisposed.erase addon, webgl := none, renderer := .dom }

end Handles

section Pools

/-- One terminal of the pool is replaced. -/
def Pool.modify (self : Pool) (id : TabId) (change : TerminalHandle → TerminalHandle) : Pool :=
  { self with handle := Function.update self.handle id (change (self.handle id)) }

/-- Make a terminal for a tab that has none. -/
def Pool.acquire (self : Pool) (id : TabId) : Pool :=
  if id ∈ self.ids then self
  else { self with ids := self.ids ++ [id], handle := Function.update self.handle id .new }

/-- Tear a tab's terminal down for good, where it has one. -/
def Pool.release (self : Pool) (id : TabId) : Pool :=
  if id ∈ self.ids then
    -- A load that is under way goes on, and ends on the terminal that is gone.
    { self.modify id .dispose with
      ids := self.ids.filter (· ≠ id), released := self.released ++ [id] }
  else self

/-- Show a tab's terminal if its tab is the active one, and hide it otherwise. -/
def showOrHide (activeId : Option TabId) (id : TabId) (handle : TerminalHandle) : TerminalHandle :=
  if activeId = some id then handle.activate else handle.deactivate

/-- Show or hide a tab's terminal, where the tab has one already. -/
def Pool.mountOne (activeId : Option TabId) (self : Pool) (id : TabId) : Pool :=
  if id ∈ self.ids then self.modify id (showOrHide activeId id) else self

/-- Show one of the tabs, and hide the others one after another. -/
def Pool.terminalMount (self : Pool) (order : List TabId) (activeId : Option TabId) : Pool :=
  order.foldl (Pool.mountOne activeId) { self with active := activeId }

end Pools

/-- Something that happens to the pool. -/
inductive Action where
  | acquire (id : TabId)
  | terminalMount (order : List TabId) (activeId : Option TabId)
  /-- The session of a closed tab is over, and its terminal goes. -/
  | release (id : TabId)
  | loaded (id : TabId)
  | failed (id : TabId)
  | contextLost (id : TabId) (addon : Nat)
  deriving DecidableEq, Repr

/-- The pool after one action, of which only a load that has begun can end. -/
def poolStep (state : Pool) : Action → Option Pool
  -- The id of a tab is never handed out again.
  | .acquire id => if id ∈ state.released then none else some (state.acquire id)
  -- A closed tab is out of the order at once, and its terminal stays until its session is over.
  | .terminalMount order activeId => some (state.terminalMount order activeId)
  | .release id => some (state.release id)
  | .loaded id =>
    if 0 < (state.handle id).loading then
      some { state.modify id (.attach · state.nextAddon) with nextAddon := state.nextAddon + 1 }
    else none
  | .failed id => if 0 < (state.handle id).loading then some (state.modify id .fallBack) else none
  | .contextLost id addon =>
    if addon ∈ (state.handle id).undisposed then some (state.modify id (.onContextLoss · addon))
    else none

/-- Only the active tab's terminal holds an addon, and no more than one. -/
structure Exclusive (state : Pool) : Prop where
  /-- No two terminals hold an addon. -/
  alone : ∀ id other, (state.handle id).undisposed ≠ [] → (state.handle other).undisposed ≠ [] →
    id = other
  active : ∀ id, (state.handle id).undisposed ≠ [] → state.active = some id
  atMostOne : ∀ id, (state.handle id).undisposed.length ≤ 1

/-- While no load is under way, only the active tab's terminal holds an addon. -/
def ExclusiveWhenSettled (state : Pool) : Prop :=
  (∀ id, (state.handle id).loading = 0) → Exclusive state

/--
A load ends with an addon only on the active tab's terminal, and only if that has none yet,
and no tab is shown while a terminal that is not among those to be hidden holds an addon.
-/
def LoadsInPlace (state : Pool) : Action → Prop
  | .loaded id =>
    0 < (state.handle id).loading → state.active = some id ∧ (state.handle id).undisposed = []
  | .terminalMount order activeId =>
    ∀ id, (state.handle id).undisposed ≠ [] → activeId = some id ∨ id ∈ state.ids ∧ id ∈ order
  | _ => True

/-- The addons of a terminal are those that a deactivation disposes of. -/
def TerminalHandle.Matched (handle : TerminalHandle) : Prop :=
  handle.undisposed = handle.webgl.toList

/-- Every addon is known to its terminal, which is the active tab's. -/
structure Held (state : Pool) : Prop where
  matched : ∀ id ∈ state.ids, (state.handle id).Matched
  elsewhere : ∀ id, state.active ≠ some id → (state.handle id).undisposed = []
  room : ∀ id, (state.handle id).undisposed.length ≤ 1
  /-- For a tab that has had no terminal nothing was ever loaded. -/
  absent : ∀ id, id ∉ state.ids → id ∉ state.released → state.handle id = .new

section OneHandle

variable {handle : TerminalHandle} {activeId : Option TabId} {id : TabId}

/-- A terminal whose addon is known has one at most. -/
theorem TerminalHandle.Matched.room (matched : handle.Matched) : handle.undisposed.length ≤ 1 := by
  rw [matched]
  cases handle.webgl with
  | none => exact Nat.zero_le 1
  | some addon => exact Nat.le_refl 1

/-- Hiding a terminal whose addon is known leaves it without any. -/
theorem TerminalHandle.Matched.deactivate (matched : handle.Matched) :
    handle.deactivate.Matched ∧ handle.deactivate.undisposed = [] := by
  have free : handle.deactivate.undisposed = [] := by
    rw [TerminalHandle.deactivate]
    dsimp only
    rw [matched]
    -- What is disposed of is all there is.
    cases handle.webgl with
    | none => rfl
    | some addon => simp
  exact ⟨free, free⟩

/-- Showing or hiding a terminal keeps its addon known, and adds none. -/
theorem TerminalHandle.Matched.showOrHide (matched : handle.Matched) :
    (showOrHide activeId id handle).Matched ∧
      (handle.undisposed = [] → (Terminals.showOrHide activeId id handle).undisposed = []) := by
  rw [Terminals.showOrHide]
  split
  · -- A load that begins has not added anything yet.
    exact ⟨matched, fun free => free⟩
  · exact ⟨matched.deactivate.1, fun _ => matched.deactivate.2⟩

/-- However often a terminal is shown or hidden, its addon stays known, and none is added. -/
theorem TerminalHandle.Matched.iterate (matched : handle.Matched) (times : Nat) :
    ((Terminals.showOrHide activeId id)^[times] handle).Matched ∧
      (handle.undisposed = [] →
        ((Terminals.showOrHide activeId id)^[times] handle).undisposed = []) := by
  -- Showing and hiding keep the addon known, however often they come in turn.
  induction times with
  | zero => exact ⟨matched, fun free => free⟩
  | succ times ih =>
    rw [Function.iterate_succ_apply']
    obtain ⟨kept, free⟩ := @TerminalHandle.Matched.showOrHide _ activeId id ih.1
    exact ⟨kept, fun before => free (ih.2 before)⟩

/-- A terminal that is hidden at least once ends without an addon. -/
theorem TerminalHandle.Matched.hidden (matched : handle.Matched) (inactive : activeId ≠ some id)
    {times : Nat} (some_ : 0 < times) :
    ((Terminals.showOrHide activeId id)^[times] handle).undisposed = [] := by
  obtain ⟨before, rfl⟩ := Nat.exists_eq_add_one.mpr some_
  rw [Function.iterate_succ_apply', Terminals.showOrHide, if_neg inactive]
  exact (matched.iterate before).1.deactivate.2

end OneHandle

section Mounting

variable {state next : Pool} {order : List TabId} {activeId : Option TabId} {id : TabId}

/-- A change of one terminal leaves the others as they are. -/
theorem handle_modify {change : TerminalHandle → TerminalHandle} (other : TabId) :
    (state.modify id change).handle other =
      if other = id then change (state.handle id) else state.handle other :=
  Function.update_apply _ _ _ _

/-- Showing or hiding one terminal changes that one alone. -/
theorem handle_mountOne (other : TabId) :
    (state.mountOne activeId id).handle other =
      if other = id ∧ id ∈ state.ids then showOrHide activeId id (state.handle id)
      else state.handle other := by
  -- A terminal that is not in the pool is not mounted at all.
  unfold Pool.mountOne
  split
  · next present =>
    rw [handle_modify]
    simp [present]
  · next missing => simp [missing]

/-- Showing or hiding one terminal adds none, and keeps the tab that is active. -/
theorem mountOne_frame :
    (state.mountOne activeId id).ids = state.ids ∧
      (state.mountOne activeId id).released = state.released ∧
      (state.mountOne activeId id).active = state.active := by
  unfold Pool.mountOne
  split
  · exact ⟨rfl, rfl, rfl⟩
  · exact ⟨rfl, rfl, rfl⟩

/-- One tab after another, a terminal is shown or hidden as often as its tab is in the order. -/
theorem foldl_mountOne (order : List TabId) (state : Pool) :
    (order.foldl (Pool.mountOne activeId) state).ids = state.ids ∧
      (order.foldl (Pool.mountOne activeId) state).released = state.released ∧
      (order.foldl (Pool.mountOne activeId) state).active = state.active ∧
      ∀ other, (order.foldl (Pool.mountOne activeId) state).handle other =
        if other ∈ state.ids then
          (showOrHide activeId other)^[order.count other] (state.handle other)
        else state.handle other := by
  -- The induction is on the order, and the terminals change along with it.
  induction order generalizing state with
  | nil => simp
  | cons head rest ih =>
    rw [List.foldl_cons]
    obtain ⟨ids, released, active, handles⟩ := ih (state.mountOne activeId head)
    obtain ⟨idsOne, releasedOne, activeOne⟩ := @mountOne_frame state activeId head
    refine ⟨ids.trans idsOne, released.trans releasedOne, active.trans activeOne, ?_⟩
    intro other
    rw [handles, idsOne, handle_mountOne]
    by_cases same : other = head
    · subst same
      -- The first of the turns is this tab's own.
      by_cases present : other ∈ state.ids
      · simp [present, Function.iterate_succ_apply]
      · simp [present]
    · simp [same, Ne.symm same]

/-- Mounting shows and hides the terminals of the order, and leaves all the rest. -/
theorem handle_terminalMount (id : TabId) :
    (state.terminalMount order activeId).handle id =
      if id ∈ state.ids then (showOrHide activeId id)^[order.count id] (state.handle id)
      else state.handle id := by
  obtain ⟨-, -, -, handles⟩ := @foldl_mountOne activeId order { state with active := activeId }
  exact handles id

/-- Mounting adds and releases no terminal, and says which tab is active. -/
theorem terminalMount_frame :
    (state.terminalMount order activeId).ids = state.ids ∧
      (state.terminalMount order activeId).released = state.released ∧
      (state.terminalMount order activeId).active = activeId := by
  obtain ⟨ids, released, active, -⟩ :=
    @foldl_mountOne activeId order { state with active := activeId }
  exact ⟨ids, released, active⟩

/-- Mounting keeps every addon known, and leaves one to the active tab's terminal alone. -/
theorem Held.terminalMount (held : Held state)
    (covers : ∀ id, (state.handle id).undisposed ≠ [] →
      activeId = some id ∨ id ∈ state.ids ∧ id ∈ order) :
    Held (state.terminalMount order activeId) := by
  obtain ⟨ids, released, active⟩ := @terminalMount_frame state order activeId
  refine ⟨?_, ?_, ?_, ?_⟩
  · intro id present
    rw [ids] at present
    rw [handle_terminalMount, if_pos present]
    -- Showing and hiding keep a terminal and its addons matched.
    exact ((held.matched id present).iterate _).1
  · intro id inactive
    rw [active] at inactive
    rw [handle_terminalMount]
    by_cases free : (state.handle id).undisposed = []
    · -- Neither showing nor hiding adds anything.
      split
      · next present => exact ((held.matched id present).iterate _).2 free
      · exact free
    · -- The tab is in the order, and so its terminal was hidden.
      obtain ⟨present, listed⟩ := (covers id free).resolve_left inactive
      rw [if_pos present]
      exact (held.matched id present).hidden inactive (List.count_pos_iff.mpr listed)
  · intro id
    rw [handle_terminalMount]
    split
    · next present => exact ((held.matched id present).iterate _).1.room
    · -- A tab without a terminal is not mounted.
      exact held.room id
  · intro id missing unreleased
    rw [ids] at missing
    rw [released] at unreleased
    rw [handle_terminalMount, if_neg missing]
    exact held.absent id missing unreleased

/-- A pool without addons has none that is unknown or out of place. -/
theorem held_new : Held .new where
  matched := fun _ _ => rfl
  elsewhere := fun _ _ => rfl
  room := fun _ => Nat.zero_le 1
  absent := fun _ _ _ => rfl

/-- Held addons are exclusive. -/
theorem Held.exclusive (held : Held state) : Exclusive state := by
  have active : ∀ id, (state.handle id).undisposed ≠ [] → state.active = some id :=
    fun id holds => Classical.byContradiction fun inactive => holds (held.elsewhere id inactive)
  refine ⟨?_, active, held.room⟩
  -- Two terminals that hold addons are both the active tab's.
  intro id other holds otherHolds
  exact Option.some.inj ((active id holds).symm.trans (active other otherHolds))

/-- A change of one terminal keeps the addons held, when it keeps them known and in place. -/
theorem Held.modify {change : TerminalHandle → TerminalHandle} (held : Held state)
    (had : id ∈ state.ids ∨ id ∈ state.released)
    (matched : (state.handle id).Matched → (change (state.handle id)).Matched)
    (inPlace : state.active ≠ some id → (change (state.handle id)).undisposed = [])
    (room : (change (state.handle id)).undisposed.length ≤ 1) :
    Held (state.modify id change) := by
  -- The clauses on other terminals are untouched, and those on this one are given.
  refine ⟨?_, ?_, ?_, ?_⟩
  · intro other present
    rw [handle_modify]
    split
    · next same => exact matched (held.matched id (same ▸ present))
    · exact held.matched other present
  · intro other inactive
    rw [handle_modify]
    split
    · next same =>
      -- On the terminal itself the addons are where they were asked to be.
      rw [same] at inactive
      exact inPlace inactive
    · exact held.elsewhere other inactive
  · intro other
    rw [handle_modify]
    split
    · exact room
    · exact held.room other
  · intro other missing unreleased
    have apart : other ≠ id := by
      rintro rfl
      exact had.elim missing unreleased
    rw [handle_modify, if_neg apart]
    exact held.absent other missing unreleased

/-- A new terminal has no addon. -/
theorem Held.acquire (held : Held state) (unreleased : id ∉ state.released) :
    Held (state.acquire id) := by
  unfold Pool.acquire
  split
  · -- A terminal that is there is taken as it is.
    exact held
  · next missing =>
    -- The terminal begins as what there is without one.
    have bare := held.absent id missing unreleased
    have same : Function.update state.handle id .new = state.handle :=
      Function.update_eq_self_iff.mpr bare.symm
    rw [same]
    refine ⟨?_, held.elsewhere, held.room, ?_⟩
    · intro other present
      rcases List.mem_append.mp present with old | new
      · exact held.matched other old
      · rw [List.mem_singleton.mp new]
        dsimp only
        rw [bare]
        rfl
    · intro other absent
      exact held.absent other fun inside => absent (List.mem_append_left _ inside)

/-- A terminal that is torn down takes its addons along. -/
theorem Held.release (held : Held state) (id : TabId) : Held (state.release id) := by
  unfold Pool.release
  split
  · refine ⟨?_, ?_, ?_, ?_⟩
    · intro other present
      -- Every other terminal stays matched.
      obtain ⟨there, apart⟩ := List.mem_filter.mp present
      dsimp only
      rw [handle_modify, if_neg (of_decide_eq_true apart)]
      exact held.matched other there
    · intro other inactive
      dsimp only
      rw [handle_modify]
      split
      · -- The one that is torn down holds no addon any more.
        rfl
      · exact held.elsewhere other inactive
    · intro other
      dsimp only
      rw [handle_modify]
      split
      · exact Nat.zero_le 1
      · exact held.room other
    · -- Its tab has had a terminal, and all the others stay as they are.
      intro other missing unreleased
      dsimp only at missing unreleased ⊢
      rw [List.mem_append, List.mem_singleton, not_or] at unreleased
      rw [handle_modify, if_neg unreleased.2]
      refine held.absent other ?_ unreleased.1
      exact fun there => missing (List.mem_filter.mpr ⟨there, decide_eq_true unreleased.2⟩)
  · exact held

/-- What is loading or loaded is on a terminal that is there or was there. -/
theorem Held.present (held : Held state)
    (something : 0 < (state.handle id).loading ∨ (state.handle id).undisposed ≠ []) :
    id ∈ state.ids ∨ id ∈ state.released := by
  by_contra missing
  rw [not_or] at missing
  rw [held.absent id missing.1 missing.2, TerminalHandle.new] at something
  simp at something

/-- One allowed action keeps every addon known and in place. -/
theorem held_step {action : Action} (held : Held state)
    (taken : poolStep state action = some next) (allowed : LoadsInPlace state action) :
    Held next := by
  cases action with
  | acquire id =>
    -- A tab that was closed gets no other terminal.
    obtain ⟨unreleased, same⟩ := Option.ite_none_left_eq_some.mp taken
    cases same
    exact held.acquire unreleased
  | terminalMount order activeId =>
    -- Every terminal that holds an addon has its tab among those that are mounted.
    cases taken
    exact held.terminalMount allowed
  | release id =>
    cases taken
    exact held.release id
  | loaded id =>
    obtain ⟨pending, same⟩ := Option.ite_none_right_eq_some.mp taken
    cases same
    obtain ⟨active, free⟩ := allowed pending
    -- The new addon is the terminal's only one.
    have single : ((state.handle id).attach state.nextAddon).undisposed = [state.nextAddon] := by
      rw [TerminalHandle.attach]
      dsimp only
      rw [free]
      rfl
    have attached : Held (state.modify id (.attach · state.nextAddon)) := by
      apply held.modify (held.present (.inl pending))
      · exact fun _ => single
      · exact fun inactive => absurd active inactive
      · rw [single]
        exact Nat.le_refl 1
    exact ⟨attached.matched, attached.elsewhere, attached.room, attached.absent⟩
  | failed id =>
    obtain ⟨pending, same⟩ := Option.ite_none_right_eq_some.mp taken
    cases same
    -- A load that fails leaves the addons alone.
    exact held.modify (held.present (.inl pending)) (fun matched => matched) (held.elsewhere id)
      (held.room id)
  | contextLost id addon =>
    obtain ⟨lost, same⟩ := Option.ite_none_right_eq_some.mp taken
    cases same
    -- The addon that is lost is the only one there is.
    have known : (state.handle id).undisposed = [addon] := by
      have room := held.room id
      obtain ⟨one, single⟩ := List.length_eq_one_iff.mp
        (Nat.le_antisymm room (List.length_pos_of_mem lost))
      rw [single, List.mem_singleton] at lost
      rw [single, lost]
    have free : ((state.handle id).onContextLoss addon).undisposed = [] := by
      rw [TerminalHandle.onContextLoss]
      dsimp only
      rw [known]
      exact List.erase_cons_head ..
    refine held.modify (held.present (.inr (List.ne_nil_of_mem lost))) (fun _ => free)
      (fun _ => free) ?_
    rw [free]
    exact Nat.zero_le 1

/-- A load that ends out of place leaves an addon where none should be. -/
theorem not_exclusive_loaded (outside : ¬LoadsInPlace state (.loaded id)) :
    ¬Exclusive { state.modify id (.attach · state.nextAddon) with
      nextAddon := state.nextAddon + 1 } := by
  intro exclusive
  have attached : ((state.modify id (.attach · state.nextAddon)).handle id).undisposed =
      (state.handle id).undisposed ++ [state.nextAddon] := by
    rw [handle_modify, if_pos rfl]
    rfl
  -- Had it been exclusive, the load would have ended in place.
  apply outside
  intro _
  constructor
  · -- The terminal holds the addon now, so it is the active tab's.
    apply exclusive.active id
    dsimp only
    rw [attached]
    exact List.append_ne_nil_of_right_ne_nil _ (List.cons_ne_nil _ _)
  · -- There is room for the new addon alone.
    have room := exclusive.atMostOne id
    dsimp only at room
    rw [attached, List.length_append, List.length_singleton] at room
    exact List.length_eq_zero_iff.mp (by omega)

/-- A tab that is shown while a terminal goes without being hidden is not the only one. -/
theorem not_exclusive_terminalMount
    (outside : ¬LoadsInPlace state (.terminalMount order activeId)) :
    ¬Exclusive (state.terminalMount order activeId) := by
  intro exclusive
  obtain ⟨-, -, active⟩ := @terminalMount_frame state order activeId
  apply outside
  intro id holds
  rw [or_iff_not_imp_right]
  intro apart
  -- The terminal is not hidden, so that it holds what it held before.
  have same : (state.terminalMount order activeId).handle id = state.handle id := by
    rw [handle_terminalMount]
    split
    · next present =>
      rw [List.count_eq_zero_of_not_mem fun listed => apart ⟨present, listed⟩]
      rfl
    · rfl
  rw [← active]
  exact exclusive.active id (by rwa [same])

/-- An action that is not allowed leaves an addon where none should be. -/
theorem not_exclusive_step {action : Action}
    (taken : poolStep state action = some next) (outside : ¬LoadsInPlace state action) :
    ¬Exclusive next := by
  -- Only a load and a mount can be outside the condition.
  cases action with
  | loaded id =>
    obtain ⟨-, same⟩ := Option.ite_none_right_eq_some.mp taken
    cases same
    exact not_exclusive_loaded outside
  | terminalMount order activeId =>
    cases taken
    exact not_exclusive_terminalMount outside
  | acquire id => exact absurd trivial outside
  | release id => exact absurd trivial outside
  | failed id => exact absurd trivial outside
  | contextLost id addon => exact absurd trivial outside

/--
Over every interleaving of tabs that are opened, switched and closed with the ends of the loads
that they begin, only the active tab's terminal holds an addon, and no more than one,
exactly when every load that ends with an addon does so in place,
and a terminal that is to go has gone before the next tab is shown.
In such a run this holds in particular wherever no load is under way.
-/
theorem webgl_exclusive_iff (actions : List Action) :
    (System.Throughout poolStep Exclusive .new actions ↔
      System.Meets poolStep LoadsInPlace .new actions) ∧
    (System.Meets poolStep LoadsInPlace .new actions →
      System.Throughout poolStep ExclusiveWhenSettled .new actions) := by
  constructor
  · apply System.throughout_iff_meets Held.exclusive
    · -- What is held is exclusive, allowed actions keep it, and no other does.
      exact fun held taken allowed => held_step held taken allowed
    · exact fun _ taken outside => not_exclusive_step taken outside
    · intro state action refused
      cases action with
      | loaded id =>
        -- Nothing is under way where the end of a load is refused.
        intro pending
        rw [poolStep, if_pos pending] at refused
        cases refused
      | terminalMount order activeId => cases refused
      | acquire id => trivial
      | release id => trivial
      | failed id => trivial
      | contextLost id addon => trivial
    · exact held_new
  · have safe : ∀ {state : Pool}, Held state → ExclusiveWhenSettled state :=
      fun held _ => held.exclusive
    exact System.throughout_of_meets safe held_step held_new

/-- A tab that was left before its addon was loaded keeps the addon next to the active tab's. -/
theorem two_contexts_after_switch :
    ¬System.Throughout poolStep ExclusiveWhenSettled .new
      [.acquire "t-1", .terminalMount ["t-1"] (some "t-1"), .acquire "t-2",
        .terminalMount ["t-1", "t-2"] (some "t-2"), .loaded "t-1", .loaded "t-2"] := by
  intro throughout
  have settled := throughout.final rfl
  have exclusive : Exclusive _ := settled (by
    intro id
    by_cases first : id = "t-1"
    · subst first
      rfl
    by_cases second : id = "t-2"
    · subst second
      rfl
    -- No other tab has ever had a terminal.
    simp [Pool.acquire, Pool.terminalMount, Pool.mountOne, Pool.modify, Pool.new,
      TerminalHandle.new, first, second])
  exact absurd (exclusive.active "t-1" (by decide)) (by decide)

/-- A closed tab keeps its addon beside the next one's while its session is being closed. -/
example : (System.run poolStep .new
    [.acquire "t-1", .acquire "t-2", .terminalMount ["t-1", "t-2"] (some "t-1"), .loaded "t-1",
      .terminalMount ["t-2"] (some "t-2"), .loaded "t-2"]).map
        (fun state => ["t-1", "t-2"].map fun id => (state.handle id).undisposed) =
          some [[0], [1]] := by decide

end Mounting

end Tern.Terminals
