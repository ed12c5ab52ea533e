import Mathlib.Data.List.Nodup
import Mathlib.Data.Rat.Floor
import Mathlib.Logic.Function.Basic
import Tern.Base.Text
import Tern.Webview.Controller

/-! The store of the tabs: their order, their records, and which of them is active. -/

namespace Tern.Tabs

open Webview (ConnState ReconnectInfo)

/-- The name a tab goes by. -/
abbrev TabId := String

/--
A tab's record.

A field is absent from a record that a change made out of something that is no tab.
-/
structure Tab where
  id : Option TabId
  hostId : Option Int
  title : Option String
  conn : Option ConnState
  /-- The backend's id of the session, once it has answered. -/
  rustSessionId : Option String
  /-- Why the connection has ended, if it has. -/
  detail : Option String
  exitCode : Option Int
  /-- The progress of a reconnect, while there is one. -/
  reconnect : Option ReconnectInfo
  deriving DecidableEq, Repr

/-- A record without any field. -/
def Tab.empty : Tab := ⟨none, none, none, none, none, none, none, none⟩

/-- The properties that every object has, whatever its own keys are. -/
def objectPrototype : List String :=
  ["constructor", "__defineGetter__", "__defineSetter__", "hasOwnProperty", "__lookupGetter__",
    "__lookupSetter__", "isPrototypeOf", "propertyIsEnumerable", "toString", "valueOf",
    "__proto__", "toLocaleString"]

/-- A number that a caller hands over as an index. -/
inductive Index where
  | nan
  | infinite (negative : Bool)
  | finite (value : Rat)
  deriving DecidableEq, Repr

/-- The tabs of the window. -/
structure Sessions where
  order : List TabId
  /-- The records by their keys, without what every object has. -/
  byId : TabId → Option Tab
  activeId : Option TabId
  /-- How many ids were issued, and which. -/
  nextTabId : Nat
  issued : List TabId

/-- The store before the first tab. -/
def Sessions.init : Sessions where
  order := []
  byId := fun _ => none
  activeId := none
  nextTabId := 0
  issued := []

section Store

/-- The counter of the tabs after one more, which is a double and stops where those get sparse. -/
def increment (counter : Nat) : Nat :=
  if counter < 2 ^ 53 then counter + 1 else counter

/-- The id of the tab that is opened as the one with this number. -/
def tabName (number : Nat) : TabId := "t-" ++ number.repr

/-- The record found under an id, as a change copies it. -/
def Sessions.read (self : Sessions) (id : TabId) : Option Tab :=
  match self.byId id with
  | some tab => some tab
  -- A name that every object has is found too, and none of its fields are copied.
  | none => if id ∈ objectPrototype then some .empty else none

/-- Which tab should take focus when one goes away. -/
def neighbourOf (order : List TabId) (closing : TabId) : Option TabId :=
  match order.idxOf? closing with
  | none => none
  | some index => order[index + 1]?.or (if index = 0 then none else order[index - 1]?)

/-- Open a tab behind the others, and make it the active one. -/
def Sessions.openTab (self : Sessions) (hostId : Option Int) (title : String) : Sessions :=
  let id := tabName (increment self.nextTabId)
  { order := self.order ++ [id]
    byId := Function.update self.byId id
      (some ⟨some id, hostId, some title, some .idle, none, none, none, none⟩)
    activeId := some id
    nextTabId := increment self.nextTabId
    issued := self.issued ++ [id] }

/-- Close a tab, and pass the focus on if it had it. -/
def Sessions.closeTab (self : Sessions) (id : TabId) : Sessions :=
  if (self.read id).isNone then self
  else
    { self with
      order := self.order.filter fun other => other ≠ id
      byId := Function.update self.byId id none
      activeId := if self.activeId = some id then neighbourOf self.order id else self.activeId }

/-- Make a tab the active one. -/
def Sessions.setActive (self : Sessions) (id : TabId) : Sessions :=
  if (self.read id).isSome then { self with activeId := some id } else self

/-- The place at which a list of some length is spliced. -/
def spliceIndex (toIndex : Index) (length : Nat) : Nat :=
  match toIndex with
  | .nan => 0
  | .infinite negative => if negative then 0 else length
  -- The index is clamped first, and what is left behind its point is dropped.
  | .finite value => ⌊max 0 (min value length)⌋.toNat

/-- Move a tab to another place in the order. -/
def Sessions.moveTab (self : Sessions) (id : TabId) (toIndex : Index) : Sessions :=
  match self.order.idxOf? id with
  | none => self
  | some index =>
    let others := self.order.eraseIdx index
    let place := spliceIndex toIndex others.length
    { self with order := others.take place ++ id :: others.drop place }

/-- A record is replaced by a copy that differs in some fields. -/
def Sessions.modify (self : Sessions) (id : TabId) (change : Tab → Tab) : Sessions :=
  match self.read id with
  | none => self
  | some tab => { self with byId := Function.update self.byId id (some (change tab)) }

/-- Show how far a connection is, which ends the progress of a reconnect. -/
def Sessions.setConn (self : Sessions) (id : TabId) (conn : ConnState) (detail : Option String) :
    Sessions :=
  self.modify id fun tab => { tab with conn := some conn, detail, reconnect := none }

/-- Show the progress of a reconnect. -/
def Sessions.setReconnecting (self : Sessions) (id : TabId) (info : ReconnectInfo) : Sessions :=
  self.modify id fun tab =>
    { tab with conn := some .reconnecting, reconnect := some info, detail := none }

/-- Record the backend's id of a tab's session. -/
def Sessions.setRustSessionId (self : Sessions) (id : TabId) (sessionId : Option String) :
    Sessions :=
  self.modify id fun tab => { tab with rustSessionId := sessionId }

/-- Record how a tab's shell ended. -/
def Sessions.setExit (self : Sessions) (id : TabId) (code : Option Int) : Sessions :=
  self.modify id fun tab =>
    { tab with conn := some .disconnected, exitCode := code, rustSessionId := none }

/-- Give a tab another title. -/
def Sessions.renameTab (self : Sessions) (id : TabId) (title : String) : Sessions :=
  self.modify id fun tab => { tab with title := some title }

end Store

/-- One call to the store. -/
inductive Action where
  | openTab (hostId : Option Int) (title : String)
  | closeTab (id : TabId)
  | setActive (id : TabId)
  | moveTab (id : TabId) (toIndex : Index)
  | setConn (id : TabId) (conn : ConnState) (detail : Option String)
  | setReconnecting (id : TabId) (info : ReconnectInfo)
  | setRustSessionId (id : TabId) (sessionId : Option String)
  | setExit (id : TabId) (code : Option Int)
  | renameTab (id : TabId) (title : String)
  deriving DecidableEq, Repr

/-- The store after one call, none of which is ever refused. -/
def Sessions.call (state : Sessions) : Action → Sessions
  | .openTab hostId title => state.openTab hostId title
  | .closeTab id => state.closeTab id
  | .setActive id => state.setActive id
  | .moveTab id toIndex => state.moveTab id toIndex
  | .setConn id conn detail => state.setConn id conn detail
  | .setReconnecting id info => state.setReconnecting id info
  | .setRustSessionId id sessionId => state.setRustSessionId id sessionId
  | .setExit id code => state.setExit id code
  | .renameTab id title => state.renameTab id title

/-- The store's step, as a run takes it. -/
def storeStep (state : Sessions) (action : Action) : Option Sessions :=
  some (state.call action)

section Orders

variable {order left right : List TabId} {id : TabId}

/-- A tab that is not to the left of a place is found at it. -/
theorem idxOf?_split (once : id ∉ left) : (left ++ id :: right).idxOf? id = some left.length := by
  -- The induction is on the tabs to the left, none of which is the one looked for.
  induction left with
  | nil => simp [List.idxOf?_cons]
  | cons head rest ih =>
    obtain ⟨other, once⟩ := not_or.mp (mt List.mem_cons.mpr once)
    rw [List.cons_append, List.idxOf?_cons, if_neg (by simpa using Ne.symm other), ih once]
    rfl

/-- The neighbour of a tab is the one to its right, or else the one to its left. -/
theorem neighbourOf_split (once : id ∉ left) :
    neighbourOf (left ++ id :: right) id = right.head?.or left.getLast? := by
  -- The tab's place in the order is the number of those to its left.
  rw [neighbourOf, idxOf?_split once]
  have next : (left ++ id :: right)[left.length + 1]? = right.head? := by
    rw [List.getElem?_append_right (by omega)]
    simp [List.head?_eq_getElem?]
  dsimp only
  rw [next]
  congr 1
  split
  · next empty => rw [List.length_eq_zero_iff.mp empty, List.getLast?_nil]
  · next filled =>
    rw [List.getElem?_append_left (by omega), List.getLast?_eq_getElem?]

/-- What is left of an order without one of its tabs. -/
theorem filter_split (atLeft : id ∉ left) (atRight : id ∉ right) :
    (left ++ id :: right).filter (fun other => other ≠ id) = left ++ right := by
  -- Neither side holds the tab, so neither loses anything.
  have whole : ∀ side : List TabId, id ∉ side → side.filter (fun other => other ≠ id) = side := by
    intro side free
    rw [List.filter_eq_self]
    exact fun other member => decide_eq_true (fun same => free (same ▸ member))
  rw [List.filter_append, List.filter_cons_of_neg (by simp), whole left atLeft, whole right atRight]

/-- A tab of an order without duplicates stands between the others. -/
theorem split_of_mem (once : order.Nodup) (member : id ∈ order) :
    ∃ left right, order = left ++ id :: right ∧ id ∉ left ∧ id ∉ right := by
  obtain ⟨left, right, rfl⟩ := List.append_of_mem member
  refine ⟨left, right, rfl, ?_, (List.nodup_cons.mp (List.nodup_append.mp once).2.1).1⟩
  intro twice
  exact (List.nodup_append.mp once).2.2 id twice id List.mem_cons_self rfl

/-- A splice is within the list. -/
theorem spliceIndex_le (toIndex : Index) (length : Nat) : spliceIndex toIndex length ≤ length := by
  unfold spliceIndex
  split
  · exact Nat.zero_le _
  · split
    · exact Nat.zero_le _
    · exact Nat.le_refl _
  · next value =>
    -- The clamp bounds the value before it is rounded down.
    have bound : max 0 (min value (length : Rat)) ≤ ((length : Int) : Rat) :=
      max_le (by exact_mod_cast Nat.zero_le length) (min_le_right _ _)
    have := Int.floor_le_iff.mpr (lt_of_le_of_lt bound (lt_add_one _))
    omega

/-- A whole number is clamped to the list. -/
theorem spliceIndex_int (place : Int) (length : Nat) :
    spliceIndex (.finite place) length = (max 0 (min place length)).toNat := by
  have whole : max 0 (min (place : Rat) length) = ((max 0 (min place length) : Int) : Rat) := by
    push_cast
    rfl
  rw [spliceIndex, whole, Int.floor_intCast]

end Orders

section Names

/-- No tab goes by the name of something that every object has. -/
theorem tabName_not_inherited (number : Nat) : tabName number ∉ objectPrototype := by
  -- A tab's name has a dash behind its first letter.
  have dashed : (tabName number).toList.take 2 = ['t', '-'] := by
    rw [tabName, String.toList_append]
    rfl
  intro inherited
  have plain : ∀ name ∈ objectPrototype, name.toList.take 2 ≠ ['t', '-'] := by decide
  exact plain _ inherited dashed

/-- The name of a tab tells its number. -/
theorem tabName_inj {left right : Nat} (same : tabName left = tabName right) : left = right := by
  have letters := congrArg String.toList same
  rw [tabName, tabName, String.toList_append, String.toList_append,
    List.append_cancel_left_eq] at letters
  exact Text.repr_inj letters

/-- The names of the tabs that a counter has numbered. -/
def namesUpTo (counter : Nat) : List TabId :=
  (List.range counter).map fun earlier => tabName (earlier + 1)

/-- A name is among those when its number is. -/
theorem mem_namesUpTo {counter number : Nat} :
    tabName (number + 1) ∈ namesUpTo counter ↔ number < counter := by
  -- Names tell numbers apart.
  rw [namesUpTo, List.mem_map]
  constructor
  · rintro ⟨earlier, below, same⟩
    have := tabName_inj same
    rw [List.mem_range] at below
    omega
  · exact fun below => ⟨number, List.mem_range.mpr below, rfl⟩

/-- One more tab has one more name. -/
theorem namesUpTo_succ (counter : Nat) :
    namesUpTo (counter + 1) = namesUpTo counter ++ [tabName (counter + 1)] := by
  rw [namesUpTo, List.range_succ, List.map_append]
  rfl

end Names

section Consistency

/-- The pieces of the store agree with each other. -/
structure Consistent (state : Sessions) : Prop where
  distinct : state.order.Nodup
  /-- The tabs of the order are those that have a record. -/
  keys : ∀ id, id ∈ state.order ↔ (state.byId id).isSome
  own : ∀ id tab, state.byId id = some tab → tab.id = some id
  idle : state.activeId = none ↔ state.order = []
  focused : ∀ id, state.activeId = some id → id ∈ state.order
  /-- No id was issued twice. -/
  fresh : state.issued.Nodup

/-- When the active tab is closed, the tab to its right gets the focus, or else the one to its
left. -/
def ClosesToNeighbour (state : Sessions) : Prop :=
  ∀ left id right, state.order = left ++ id :: right → state.activeId = some id →
    (state.closeTab id).activeId = right.head?.or left.getLast?

/-- A move changes the order alone, and puts the tab at the clamped index among the others. -/
structure MovesOnly (state : Sessions) (id : TabId) (toIndex : Index) : Prop where
  unknown : id ∉ state.order → state.moveTab id toIndex = state
  others : state.moveTab id toIndex =
    { state with order := (state.moveTab id toIndex).order }
  permuted : (state.moveTab id toIndex).order.Perm state.order
  relative : (state.moveTab id toIndex).order.filter (fun other => other ≠ id) =
    state.order.filter fun other => other ≠ id
  placed : id ∈ state.order → (state.moveTab id toIndex).order.idxOf? id =
    some (spliceIndex toIndex (state.order.length - 1))
  /-- A whole number is clamped to the places that there are. -/
  clamped : ∀ place : Int, toIndex = .finite place → id ∈ state.order →
    (state.moveTab id toIndex).order.idxOf? id =
      some (max 0 (min place (state.order.length - 1))).toNat

/-- What is asked of the store in every state. -/
structure Lawful (state : Sessions) : Prop extends Consistent state where
  closes : ClosesToNeighbour state
  moves : ∀ id toIndex, MovesOnly state id toIndex

/--
A call names no property that every object has where a record would be looked up by it,
and a tab is opened while the counter still counts.
-/
def Known (state : Sessions) : Action → Prop
  | .openTab _ _ => state.nextTabId < 2 ^ 53
  | .closeTab _ => True
  | .moveTab _ _ => True
  | .setActive id => id ∉ objectPrototype
  | .setConn id _ _ => id ∉ objectPrototype
  | .setReconnecting id _ => id ∉ objectPrototype
  | .setRustSessionId id _ => id ∉ objectPrototype
  | .setExit id _ => id ∉ objectPrototype
  | .renameTab id _ => id ∉ objectPrototype

/-- The store agrees with itself, and its ids are those that the counter has numbered. -/
structure Tracked (state : Sessions) : Prop extends Consistent state where
  counted : state.issued = namesUpTo state.nextTabId
  known : ∀ id ∈ state.order, id ∈ state.issued

variable {state : Sessions} {id : TabId} {toIndex : Index}

/-- The store begins consistent. -/
theorem tracked_init : Tracked Sessions.init where
  -- There is no tab, and no name has been given out.
  distinct := List.nodup_nil
  keys := fun _ => by simp [Sessions.init]
  own := fun _ _ found => by cases found
  idle := by simp [Sessions.init]
  focused := fun _ active => by cases active
  fresh := List.nodup_nil
  counted := rfl
  known := fun _ member => by cases member

/-- A tab that is there is found under its id. -/
theorem Consistent.read_isSome (consistent : Consistent state) (member : id ∈ state.order) :
    (state.read id).isSome := by
  obtain ⟨tab, found⟩ := Option.isSome_iff_exists.mp ((consistent.keys id).mp member)
  rw [Sessions.read, found]
  rfl

/-- An id without a tab has no record. -/
theorem Consistent.byId_eq_none (consistent : Consistent state) (stranger : id ∉ state.order) :
    state.byId id = none := by
  rw [consistent.keys, Option.not_isSome_iff_eq_none] at stranger
  exact stranger

/-- Closing what is no tab changes nothing. -/
theorem Consistent.closeTab_of_not_mem (consistent : Consistent state)
    (stranger : id ∉ state.order) : state.closeTab id = state := by
  have absent := consistent.byId_eq_none stranger
  have unfocused : state.activeId ≠ some id := fun active => stranger (consistent.focused id active)
  have kept : state.order.filter (fun other => other ≠ id) = state.order := by
    rw [List.filter_eq_self]
    exact fun other member => decide_eq_true (fun same => stranger (same ▸ member))
  unfold Sessions.closeTab
  split
  · rfl
  · -- A name that every object has gets past the guard, and there is nothing to remove.
    rw [kept, Function.update_eq_self_iff.mpr absent.symm]

/-- Closing a tab leaves the tabs on both sides, and the focus on one of them. -/
theorem Consistent.closeTab_split (consistent : Consistent state) {left right : List TabId}
    (place : state.order = left ++ id :: right) (atLeft : id ∉ left) (atRight : id ∉ right) :
    state.closeTab id = { state with
      order := left ++ right
      byId := Function.update state.byId id none
      activeId := if state.activeId = some id then right.head?.or left.getLast?
        else state.activeId } := by
  -- The tab is in the order once, so filtering it out joins both sides.
  have found : (state.read id).isSome := by
    apply consistent.read_isSome
    rw [place]
    exact List.mem_append_right _ List.mem_cons_self
  have present : ¬(state.read id).isNone := by
    rw [Option.isNone_iff_eq_none]
    exact Option.isSome_iff_ne_none.mp found
  rw [Sessions.closeTab, if_neg present, place, filter_split atLeft atRight,
    neighbourOf_split atLeft]

/-- A consistent store hands the focus of a closed tab to its neighbour. -/
theorem Consistent.closes (consistent : Consistent state) : ClosesToNeighbour state := by
  -- The tab that is closed is the active one, so its neighbour takes the focus.
  intro left id right place active
  have once := consistent.distinct
  rw [place] at once
  obtain ⟨-, rightOnce, apart⟩ := List.nodup_append.mp once
  rw [consistent.closeTab_split place (fun twice => apart id twice id List.mem_cons_self rfl)
    (List.nodup_cons.mp rightOnce).1]
  exact if_pos active

/-- A move of a tab takes it out from between the others and splices it back in. -/
theorem moveTab_split {left right : List TabId} (place : state.order = left ++ id :: right)
    (atLeft : id ∉ left) :
    state.moveTab id toIndex = { state with
      order := (left ++ right).take (spliceIndex toIndex (left ++ right).length) ++
        id :: (left ++ right).drop (spliceIndex toIndex (left ++ right).length) } := by
  -- The tab is in the order once, so taking it out joins both sides.
  have others : (left ++ id :: right).eraseIdx left.length = left ++ right := by
    rw [List.eraseIdx_append_of_length_le (Nat.le_refl _), Nat.sub_self, List.eraseIdx_cons_zero]
  rw [Sessions.moveTab, place, idxOf?_split atLeft]
  dsimp only
  rw [others]

/-- A move in a consistent store only moves. -/
theorem Consistent.movesOnly (consistent : Consistent state) (id : TabId) (toIndex : Index) :
    MovesOnly state id toIndex := by
  -- A tab that is not in the order is not moved at all.
  by_cases member : id ∈ state.order
  · obtain ⟨left, right, place, atLeft, atRight⟩ := split_of_mem consistent.distinct member
    have moved := @moveTab_split state id toIndex left right place atLeft
    have free : id ∉ left ++ right := fun inside => (List.mem_append.mp inside).elim atLeft atRight
    have within := spliceIndex_le toIndex (left ++ right).length
    have size : state.order.length - 1 = (left ++ right).length := by
      simp only [place, List.length_append, List.length_cons]
      omega
    have placed : (state.moveTab id toIndex).order.idxOf? id =
        some (spliceIndex toIndex (state.order.length - 1)) := by
      rw [moved, size]
      dsimp only
      -- What comes before the splice is as long as the splice is far in.
      rw [idxOf?_split (fun inside => free (List.mem_of_mem_take inside)), List.length_take,
        Nat.min_eq_left within]
    refine ⟨fun stranger => absurd member stranger, by rw [moved], ?_, ?_, fun _ => placed, ?_⟩
    · rw [moved, place]
      dsimp only
      -- Both orders are the tab and all the others.
      refine List.perm_middle.trans ?_
      rw [List.take_append_drop]
      exact List.perm_middle.symm
    · rw [moved, place]
      dsimp only
      rw [filter_split (fun inside => free (List.mem_of_mem_take inside))
        (fun inside => free (List.mem_of_mem_drop inside)), filter_split atLeft atRight,
        List.take_append_drop]
    · rintro whole rfl -
      rw [placed, spliceIndex_int]
      have : 1 ≤ state.order.length := List.length_pos_of_mem member
      push_cast [this]
      rfl
  · have still : state.moveTab id toIndex = state := by
      rw [Sessions.moveTab, List.idxOf?_eq_none_iff.mpr member]
    refine ⟨fun _ => still, by rw [still], by rw [still], by rw [still], ?_, ?_⟩
    · exact fun inside => absurd inside member
    · exact fun _ _ inside => absurd inside member

/-- A consistent store is all that is asked of it. -/
theorem Consistent.lawful (consistent : Consistent state) : Lawful state :=
  ⟨consistent, consistent.closes, consistent.movesOnly⟩

/-- Records keep their own ids where one is put in or taken out. -/
theorem own_update {byId : TabId → Option Tab} {value : Option Tab}
    (own : ∀ id tab, byId id = some tab → tab.id = some id)
    (fits : ∀ tab, value = some tab → tab.id = some id) (other : TabId) (tab : Tab)
    (found : Function.update byId id value other = some tab) : tab.id = some other := by
  -- The record under the name is the new one, and the others are what they were.
  by_cases this : other = id
  · subst this
    rw [Function.update_self] at found
    exact fits tab found
  · rw [Function.update_of_ne this] at found
    exact own other tab found

/-- A change of a record keeps a store tracked, when it is a tab's and keeps its id. -/
theorem Tracked.modify {change : Tab → Tab} (tracked : Tracked state)
    (known : id ∉ objectPrototype) (same : ∀ tab, (change tab).id = tab.id) :
    Tracked (state.modify id change) := by
  unfold Sessions.modify
  split
  · -- Without a record nothing is written.
    exact tracked
  · next tab found =>
    -- The record that was found is the tab's own.
    have present : state.byId id = some tab := by
      rw [Sessions.read] at found
      split at found
      · next own present => rw [present, ← found]
      · rw [if_neg known] at found
        cases found
    refine { tracked with keys := ?_, own := own_update tracked.own ?_ }
    · intro other
      by_cases this : other = id
      · subst this
        simp [tracked.keys, present]
      · simp [tracked.keys, this]
    · rintro changed ⟨⟩
      rw [same]
      exact tracked.own id tab present

/-- Opening a tab keeps a store tracked while the counter counts. -/
theorem Tracked.openTab {hostId : Option Int} {title : String} (tracked : Tracked state)
    (counts : state.nextTabId < 2 ^ 53) : Tracked (state.openTab hostId title) := by
  have next : increment state.nextTabId = state.nextTabId + 1 := if_pos counts
  have unissued : tabName (state.nextTabId + 1) ∉ state.issued := by
    rw [tracked.counted, mem_namesUpTo]
    exact Nat.lt_irrefl _
  -- All names in the order were issued, and this one was not.
  have unknown : tabName (state.nextTabId + 1) ∉ state.order :=
    fun member => unissued (tracked.known _ member)
  unfold Sessions.openTab
  rw [next]
  dsimp only
  exact {
    distinct := by simpa using tracked.distinct.concat unknown
    keys := by
      intro other
      by_cases this : other = tabName (state.nextTabId + 1)
      · simp [this]
      · simp [this, tracked.keys]
    own := own_update tracked.own (by rintro tab ⟨⟩; rfl)
    -- The new tab is in the order, and has the focus.
    idle := by simp
    focused := by
      rintro other active
      cases active
      exact List.mem_append_right _ List.mem_cons_self
    fresh := by simpa using tracked.fresh.concat unissued
    counted := by rw [tracked.counted, namesUpTo_succ]
    known := by
      intro other member
      rcases List.mem_append.mp member with old | isNew
      · exact List.mem_append_left _ (tracked.known other old)
      · exact List.mem_append_right _ isNew }

/-- Closing a tab keeps a store tracked, whatever is closed. -/
theorem Tracked.closeTab (tracked : Tracked state) (id : TabId) :
    Tracked (state.closeTab id) := by
  by_cases member : id ∈ state.order
  · obtain ⟨left, right, place, atLeft, atRight⟩ := split_of_mem tracked.distinct member
    have once := tracked.distinct
    have keys := tracked.keys
    have known := tracked.known
    have focused := tracked.focused
    rw [tracked.closeTab_split place atLeft atRight]
    rw [place] at once keys known focused
    exact {
      -- The order only loses one of its names.
      distinct := once.sublist ((List.sublist_cons_self id right).append_left left)
      keys := by
        intro other
        by_cases this : other = id
        · subst this
          simp [atLeft, atRight]
        · dsimp only
          rw [Function.update_of_ne this, ← keys]
          simp [this]
      own := own_update tracked.own (by rintro tab ⟨⟩)
      idle := by
        dsimp only
        split
        · -- There is a neighbour unless nothing is left.
          cases right with
          | nil => simp [List.getLast?_eq_none_iff]
          | cons head rest => simp
        · next elsewhere =>
          -- The focus is on another tab, which is still there.
          have active := tracked.idle.not.mpr (List.ne_nil_of_mem member)
          refine iff_of_false active ?_
          intro empty
          obtain ⟨other, focus⟩ := Option.ne_none_iff_exists'.mp active
          have inside := focused other focus
          rw [List.append_eq_nil_iff] at empty
          rw [empty.1, empty.2, List.nil_append, List.mem_singleton] at inside
          exact elsewhere (inside ▸ focus)
      focused := by
        intro other active
        dsimp only at active ⊢
        split at active
        · -- A neighbour stood on one of the two sides.
          rcases Option.or_eq_some_iff.mp active with next | ⟨-, last⟩
          · exact List.mem_append_right _ (List.mem_of_mem_head? next)
          · exact List.mem_append_left _ (List.mem_of_mem_getLast? last)
        · next elsewhere =>
          -- The focus stays where it is, on a tab that stays.
          have inside := focused other active
          have apart : other ≠ id := fun same => elsewhere (same ▸ active)
          simpa [apart] using inside
      fresh := tracked.fresh
      counted := tracked.counted
      known := by
        intro other inside
        exact known other ((List.sublist_cons_self id right).append_left left |>.subset inside) }
  · rw [tracked.closeTab_of_not_mem member]
    exact tracked

/-- A move keeps a store tracked, whatever is moved. -/
theorem Tracked.moveTab (tracked : Tracked state) (id : TabId) (toIndex : Index) :
    Tracked (state.moveTab id toIndex) := by
  obtain ⟨-, others, permuted, -, -, -⟩ := tracked.movesOnly id toIndex
  rw [others]
  -- The order holds the same tabs as before.
  exact { tracked with
    distinct := permuted.symm.nodup tracked.distinct
    keys := fun other => permuted.mem_iff.trans (tracked.keys other)
    idle := by
      rw [tracked.idle]
      constructor
      · intro empty
        exact (empty ▸ permuted).eq_nil
      · intro empty
        exact (empty ▸ permuted.symm).eq_nil
    focused := fun other active => permuted.mem_iff.mpr (tracked.focused other active)
    known := fun other inside => tracked.known other (permuted.mem_iff.mp inside) }

/-- What every object has is no tab. -/
theorem Tracked.not_mem_order (tracked : Tracked state) (inherited : id ∈ objectPrototype) :
    id ∉ state.order := by
  -- Tabs have names with numbers, and no inherited name has one.
  intro member
  have issued := tracked.known id member
  rw [tracked.counted, namesUpTo, List.mem_map] at issued
  obtain ⟨earlier, -, named⟩ := issued
  exact tabName_not_inherited _ (named ▸ inherited)

/-- A name that every object has is read as an empty record. -/
theorem Tracked.read_inherited (tracked : Tracked state) (inherited : id ∈ objectPrototype) :
    state.read id = some .empty := by
  rw [Sessions.read, tracked.byId_eq_none (tracked.not_mem_order inherited)]
  exact if_pos inherited

/-- A name that every object has gets a record when one is changed under it, and no tab. -/
theorem Tracked.modify_inherited {change : Tab → Tab} (tracked : Tracked state)
    (inherited : id ∈ objectPrototype) : ¬Consistent (state.modify id change) := by
  -- The change writes a record of its own under the name, and no tab has that name.
  intro consistent
  have stranger := tracked.not_mem_order inherited
  have keys := consistent.keys id
  rw [Sessions.modify, tracked.read_inherited inherited] at keys
  exact stranger (keys.mpr (by simp))

/-- One allowed call keeps the store tracked. -/
theorem tracked_step {next : Sessions} {action : Action} (tracked : Tracked state)
    (taken : storeStep state action = some next) (known : Known state action) : Tracked next := by
  cases taken
  cases action with
  | openTab hostId title => exact tracked.openTab known
  | closeTab id => exact tracked.closeTab id
  | moveTab id toIndex => exact tracked.moveTab id toIndex
  | setActive id =>
    rw [Sessions.call, Sessions.setActive]
    split
    · next found =>
      -- What is found under an own name is a tab of the order.
      have member : id ∈ state.order := by
        by_contra stranger
        rw [Sessions.read, tracked.byId_eq_none stranger] at found
        simp [show id ∉ objectPrototype from known] at found
      exact { tracked with
        idle := iff_of_false (by simp) (List.ne_nil_of_mem member)
        focused := by
          intro other active
          cases active
          exact member }
    · exact tracked
  -- The remaining calls change one record, and never its id.
  | setConn id conn detail => exact tracked.modify known fun _ => rfl
  | setReconnecting id info => exact tracked.modify known fun _ => rfl
  | setRustSessionId id sessionId => exact tracked.modify known fun _ => rfl
  | setExit id code => exact tracked.modify known fun _ => rfl
  | renameTab id title => exact tracked.modify known fun _ => rfl

/-- Any other call leaves the store at odds with itself. -/
theorem inconsistent_step {next : Sessions} {action : Action} (tracked : Tracked state)
    (taken : storeStep state action = some next) (unknown : ¬Known state action) :
    ¬Consistent next := by
  cases taken
  cases action with
  | openTab hostId title =>
    -- A counter that has stopped issues its last id once more.
    intro consistent
    have many : ¬state.nextTabId < 2 ^ 53 := unknown
    obtain ⟨earlier, count⟩ : ∃ earlier, state.nextTabId = earlier + 1 :=
      Nat.exists_eq_succ_of_ne_zero (by omega)
    have fresh := consistent.fresh
    rw [Sessions.call, Sessions.openTab, increment, if_neg many] at fresh
    have again : tabName state.nextTabId ∈ state.issued := by
      rw [tracked.counted, count, mem_namesUpTo]
      exact Nat.lt_succ_self earlier
    exact (List.nodup_append.mp fresh).2.2 _ again _ List.mem_cons_self rfl
  | closeTab id => exact absurd trivial unknown
  | moveTab id toIndex => exact absurd trivial unknown
  | setActive id =>
    intro consistent
    -- What is found under an inherited name gets the focus, and is no tab.
    have inherited : id ∈ objectPrototype := not_not.mp unknown
    have focused := consistent.focused id
    rw [Sessions.call, Sessions.setActive, tracked.read_inherited inherited] at focused
    exact tracked.not_mem_order inherited (focused rfl)
  | setConn id conn detail => exact tracked.modify_inherited (not_not.mp unknown)
  | setReconnecting id info => exact tracked.modify_inherited (not_not.mp unknown)
  | setRustSessionId id sessionId => exact tracked.modify_inherited (not_not.mp unknown)
  | setExit id code => exact tracked.modify_inherited (not_not.mp unknown)
  | renameTab id title => exact tracked.modify_inherited (not_not.mp unknown)

/--
Over every sequence of calls, the order, the records and the focus of the tabs agree,
no id is issued twice, a closed tab's focus goes to its neighbour and a move only moves,
exactly when no call looks up a record by the name of something that every object has
and no tab is opened once the counter has stopped counting.
-/
theorem tabs_lawful_iff (actions : List Action) :
    System.Throughout storeStep Lawful Sessions.init actions ↔
      System.Meets storeStep Known Sessions.init actions := by
  -- The names given out are tracked along, and a name that was not given out breaks the store.
  apply System.throughout_iff_meets fun tracked : Tracked _ => tracked.toConsistent.lawful
  · exact fun tracked taken known => tracked_step tracked taken known
  · exact fun tracked taken unknown lawful =>
      inconsistent_step tracked taken unknown lawful.toConsistent
  · exact fun refused => by cases refused
  · exact tracked_init

/-- A window without tabs can be made to show the constructor of all objects. -/
theorem constructor_made_active :
    ¬System.Throughout storeStep Lawful Sessions.init [.setActive "constructor"] := by
  rintro ⟨-, onward⟩
  -- The guard finds the constructor, and the order has no tab that could be shown.
  have shown := (onward _ rfl).focused "constructor" rfl
  cases shown

end Consistency

end Tern.Tabs
