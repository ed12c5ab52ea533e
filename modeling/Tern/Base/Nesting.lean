import Mathlib.Data.List.Basic

/-! Texts that nest other texts, read in text order and in the order in which their scopes close. -/

namespace Nesting

variable {P S : Type*}

/-- One event of a text with the texts it nests written out in place. -/
inductive Event (P S : Type*) where
  | enter
  | leave
  /-- The scope of the current text changes, possibly to none at all. -/
  | scope (pattern : Option P)
  | item (value : S)

/-- One text under way, with the items of its open scope. -/
structure Frame (P S : Type*) where
  scope : Option P
  items : List S

/-- The block that a text's open scope leaves behind. -/
def Frame.block (frame : Frame P S) : List (P × List S) :=
  match frame.scope with
  | none => []
  | some pattern => [(pattern, frame.items)]

/-- The texts under way, innermost first, and the blocks closed so far. -/
structure State (P S : Type*) where
  stack : List (Frame P S)
  closed : List (P × List S)

/-- A scope is closed by the next one of its own text, or by the end of that text. -/
def step : State P S → Event P S → State P S
  | ⟨stack, closed⟩, .enter => ⟨⟨none, []⟩ :: stack, closed⟩
  | ⟨[], closed⟩, _ => ⟨[], closed⟩
  | ⟨top :: outer, closed⟩, .leave => ⟨outer, closed ++ top.block⟩
  | ⟨top :: outer, closed⟩, .scope pattern => ⟨⟨pattern, []⟩ :: outer, closed ++ top.block⟩
  | ⟨top :: outer, closed⟩, .item value => ⟨⟨top.scope, top.items ++ [value]⟩ :: outer, closed⟩

/-- The state after a whole list of events. -/
def run (state : State P S) (events : List (Event P S)) : State P S :=
  events.foldl step state

/-- The items of blocks, each with the scope it stands in. -/
def entriesOf (blocks : List (P × List S)) : List (P × S) :=
  blocks.flatMap fun block => block.2.map fun value => (block.1, value)

/-- The items of a state, closed blocks first and open scopes from the inside out. -/
def closingOrder (state : State P S) : List (P × S) :=
  entriesOf (state.closed ++ state.stack.flatMap Frame.block)

/-- The scopes that have been opened, whether they are closed by now or not. -/
def scopesOf (state : State P S) : List P :=
  state.closed.map Prod.fst ++ state.stack.flatMap fun frame => frame.scope.toList

/-- The scopes of the texts under way after one event. -/
def scopesAfter : List (Option P) → Event P S → List (Option P)
  | scopes, .enter => none :: scopes
  | scopes, .leave => scopes.tail
  | [], .scope _ => []
  | _ :: outer, .scope pattern => pattern :: outer
  | scopes, .item _ => scopes

/-- An item with the scope it stands in, if it stands in one. -/
def placed : Option (Option P) → S → List (P × S)
  | some (some pattern), value => [(pattern, value)]
  | _, _ => []

/-- The items in text order, each with the scope it stands in. -/
def textOrder : List (Option P) → List (Event P S) → List (P × S)
  | _, [] => []
  | scopes, .item value :: rest => placed scopes.head? value ++ textOrder scopes rest
  | scopes, event :: rest => textOrder (scopesAfter scopes event) rest

/-- All items of a list of events. -/
def items : List (Event P S) → List S
  | [] => []
  | .item value :: rest => value :: items rest
  | _ :: rest => items rest

section First

variable (hit : P × S → Bool)

/-- Until the scope outside the given inner ones closes, no nested item is a hit. -/
def Quiet : List (Option P) → List (Event P S) → Prop
  | _, [] => True
  | inner, .enter :: rest => Quiet (none :: inner) rest
  -- The outer scope closes here, and what follows no longer concerns it.
  | [], .leave :: _ => True
  | [], .scope _ :: _ => True
  -- Further items of the outer scope itself are not nested ones.
  | [], .item _ :: rest => Quiet [] rest
  | _ :: inner, .leave :: rest => Quiet inner rest
  | _ :: inner, .scope pattern :: rest => Quiet (pattern :: inner) rest
  | scope :: inner, .item value :: rest =>
    (placed (some scope) value).find? hit = none ∧ Quiet (scope :: inner) rest

/-- The first hit in text order is not overtaken by one nested in the rest of its scope. -/
def Undisturbed : List (Option P) → List (Event P S) → Prop
  | _, [] => True
  | scopes, .item value :: rest =>
    match (placed scopes.head? value).find? hit with
    | some _ => Quiet hit [] rest
    | none => Undisturbed scopes rest
  | scopes, event :: rest => Undisturbed (scopesAfter scopes event) rest

end First

section Laws

/-- The items of two runs of blocks are those of the first, then those of the second. -/
@[simp]
theorem entriesOf_append (front back : List (P × List S)) :
    entriesOf (front ++ back) = entriesOf front ++ entriesOf back := by
  simp [entriesOf]

/-- The items of one open scope are those placed in it. -/
theorem entriesOf_block (frame : Frame P S) :
    entriesOf frame.block = frame.items.flatMap fun value => placed (some frame.scope) value := by
  obtain ⟨scope, values⟩ := frame
  cases scope with
  | none => simp [Frame.block, entriesOf, placed]
  | some pattern => simp [Frame.block, entriesOf, placed, List.map_eq_flatMap]

/-- One more item comes behind the others of its scope. -/
theorem entriesOf_block_item (scope : Option P) (values : List S) (value : S) :
    entriesOf (Frame.block ⟨scope, values ++ [value]⟩) =
      entriesOf (Frame.block ⟨scope, values⟩) ++ placed (some scope) value := by
  simp [entriesOf_block]

/-- An event that is no item leaves the closing order as it is. -/
theorem closingOrder_step (state : State P S) {event : Event P S}
    (silent : ∀ value, event ≠ .item value) :
    closingOrder (step state event) = closingOrder state := by
  obtain ⟨stack, closed⟩ := state
  cases event with
  | enter => simp [step, closingOrder, Frame.block]
  | leave => cases stack <;> simp [step, closingOrder]
  | scope pattern =>
    cases stack with
    | nil => rfl
    | cons top outer =>
      -- The new scope is still without items, and the old block moves to the closed ones.
      have fresh : entriesOf (Frame.block (⟨pattern, []⟩ : Frame P S)) = [] := by
        simp [entriesOf_block]
      simp [step, closingOrder, fresh]
  | item value => exact absurd rfl (silent value)

/-- The scopes under way move as the frames do. -/
theorem scopes_step (state : State P S) (event : Event P S) :
    (step state event).stack.map Frame.scope =
      scopesAfter (state.stack.map Frame.scope) event := by
  obtain ⟨stack, closed⟩ := state
  cases event <;> cases stack <;> rfl

/-- Only a change of scope opens a scope, and only within a text. -/
theorem mem_scopesOf_step (state : State P S) (event : Event P S) (pattern : P) :
    pattern ∈ scopesOf (step state event) ↔
      pattern ∈ scopesOf state ∨ (event = .scope (some pattern) ∧ state.stack ≠ []) := by
  obtain ⟨stack, closed⟩ := state
  cases stack with
  | nil => cases event <;> simp [step, scopesOf]
  | cons top outer =>
    -- The block that a scope leaves behind bears the scope's name.
    have named : top.block.map Prod.fst = top.scope.toList := by
      unfold Frame.block
      split <;> simp_all
    cases event with
    | enter => simp [step, scopesOf]
    | item value => simp [step, scopesOf]
    | leave => simp [step, scopesOf, named]
    | scope next =>
      simp only [step, scopesOf, named, List.map_append, List.flatMap_cons, List.mem_append,
        Option.mem_toList, Event.scope.injEq, ne_eq, reduceCtorEq,
        not_false_eq_true, and_true]
      rw [← or_assoc, ← or_assoc]
      exact or_right_comm

/-- Closed blocks stay in front of everything that closes later. -/
theorem closed_prefix (state : State P S) (events : List (Event P S)) :
    ∃ later, (run state events).closed = state.closed ++ later := by
  -- An event adds to what is closed or leaves it alone, and the events after it do as well.
  induction events generalizing state with
  | nil => exact ⟨[], by simp [run]⟩
  | cons event rest ih =>
    obtain ⟨later, grown⟩ := ih (step state event)
    have once : ∃ added, (step state event).closed = state.closed ++ added := by
      obtain ⟨stack, closed⟩ := state
      cases event <;> cases stack <;> simp [step]
    obtain ⟨added, once⟩ := once
    exact ⟨added ++ later, by rw [run, List.foldl_cons, ← run, grown, once, List.append_assoc]⟩

/-- The items of two runs of events are those of the first, then those of the second. -/
theorem items_append (front back : List (Event P S)) :
    items (front ++ back) = items front ++ items back := by
  induction front with
  | nil => rfl
  | cons event rest ih => cases event <;> simp [items, ih]

/-- The items behind an event are items of the whole. -/
theorem mem_items_cons {value : S} {rest : List (Event P S)} (member : value ∈ items rest)
    (event : Event P S) : value ∈ items (event :: rest) := by
  cases event <;> simp [items, member]

/-- Without nested texts the items close in the order they are written. -/
theorem closingOrder_flat {events : List (Event P S)}
    (flat : ∀ event ∈ events, event ≠ .enter ∧ event ≠ .leave) (top : Frame P S)
    (closed : List (P × List S)) :
    closingOrder (run ⟨[top], closed⟩ events) =
      closingOrder ⟨[top], closed⟩ ++ textOrder [top.scope] events := by
  -- Without nested texts there is one frame throughout, and its order is that of the text.
  induction events generalizing top closed with
  | nil => simp [run, textOrder]
  | cons event rest ih =>
    have later := fun event member => flat event (List.mem_cons_of_mem _ member)
    rw [run, List.foldl_cons, ← run]
    cases event with
    | enter => exact absurd rfl (flat .enter List.mem_cons_self).1
    | leave => exact absurd rfl (flat .leave List.mem_cons_self).2
    | scope pattern =>
      have same : closingOrder (step ⟨[top], closed⟩ (.scope pattern)) =
          closingOrder ⟨[top], closed⟩ := closingOrder_step _ (by simp)
      rw [step] at same ⊢
      rw [ih later, same]
      rfl
    | item value =>
      rw [step, ih later, textOrder, ← List.append_assoc]
      simp [closingOrder, entriesOf_block_item]

variable {hit : P × S → Bool}

/-- A hit among the closed blocks stays the first one for good. -/
theorem find_closed {state : State P S} {found : P × S}
    (first : (entriesOf state.closed).find? hit = some found) (events : List (Event P S)) :
    (closingOrder (run state events)).find? hit = some found := by
  obtain ⟨later, grown⟩ := closed_prefix state events
  simp [closingOrder, grown, first]

/-- An item enters the closing order under the innermost scope, and nothing else changes. -/
theorem mem_closingOrder_item (state : State P S) (value : S) (entry : P × S) :
    entry ∈ closingOrder (step state (.item value)) ↔
      entry ∈ closingOrder state ∨ entry ∈ placed (state.stack.map Frame.scope).head? value := by
  -- Only the innermost frame takes the item, under the scope that is open there.
  obtain ⟨stack, closed⟩ := state
  cases stack with
  | nil => simp [step, placed]
  | cons top outer =>
    simp only [step, closingOrder, List.flatMap_cons, entriesOf_append, entriesOf_block_item,
      List.mem_append, List.map_cons, List.head?_cons]
    tauto

/-- What is placed for an item is that item. -/
theorem snd_of_mem_placed {scope : Option (Option P)} {value : S} {entry : P × S}
    (member : entry ∈ placed scope value) : entry.2 = value := by
  -- An item is placed once at most, and always with its own value.
  rcases scope with _ | _ | pattern
  · simp [placed] at member
  · simp [placed] at member
  · rw [placed, List.mem_singleton] at member
    rw [member]

/-- The state with further texts under way around it. -/
def State.over (state : State P S) (outer : List (Frame P S)) : State P S :=
  ⟨state.stack ++ outer, state.closed⟩

/-- Texts further out come last. -/
theorem closingOrder_over (state : State P S) (outer : List (Frame P S)) :
    closingOrder (state.over outer) =
      closingOrder state ++ entriesOf (outer.flatMap Frame.block) := by
  simp [State.over, closingOrder]

/-- While a text is under way, the ones around it take no part. -/
theorem step_over {state : State P S} (occupied : state.stack ≠ []) (event : Event P S)
    (outer : List (Frame P S)) :
    step (state.over outer) event = (step state event).over outer := by
  obtain ⟨stack, closed⟩ := state
  cases stack with
  | nil => exact absurd rfl occupied
  | cons top inner => cases event <;> rfl

/-- Where every hit differs from a given item, so does the first one. -/
theorem find_apart {entries : List (P × S)} {watched : S}
    (present : ∃ entry ∈ entries, hit entry = true)
    (apart : ∀ entry ∈ entries, hit entry = true → entry.2 ≠ watched) :
    ∃ found, entries.find? hit = some found ∧ found.2 ≠ watched := by
  -- The first hit is a hit like the others, so what is said of all of them holds of it.
  obtain ⟨entry, member, isHit⟩ := present
  cases first : entries.find? hit with
  | none => exact absurd isHit (List.find?_eq_none.mp first entry member)
  | some found =>
    exact ⟨found, rfl, apart found (List.mem_of_find?_eq_some first) (List.find?_some first)⟩

/-- Once a nested item is a hit, an item outside that does not come up again is not the first. -/
theorem overtaken {pattern : P} {watched : S} (outer : List (Frame P S))
    (events : List (Event P S)) (state : State P S) (unrepeated : watched ∉ items events)
    (present : ∃ entry ∈ closingOrder state, hit entry = true)
    (apart : ∀ entry ∈ closingOrder state, hit entry = true → entry.2 ≠ watched) :
    (closingOrder (run (state.over outer) events)).find? hit ≠ some (pattern, watched) := by
  induction events generalizing state with
  | nil =>
    -- The first hit is one of the nested ones, which are not the watched item.
    obtain ⟨found, first, other⟩ := find_apart present apart
    rw [run, List.foldl_nil, closingOrder_over, List.find?_append, first]
    intro same
    exact other (congrArg Prod.snd (Option.some.inj same))
  | cons event rest ih =>
    by_cases bare : state.stack = []
    · -- All of the inner part is closed, so its first hit is final.
      obtain ⟨found, first, other⟩ := find_apart present apart
      have closed : (entriesOf (state.over outer).closed).find? hit = some found := by
        simpa [closingOrder, bare, State.over] using first
      rw [find_closed closed]
      intro same
      exact other (congrArg Prod.snd (Option.some.inj same))
    · rw [run, List.foldl_cons, ← run, step_over bare]
      by_cases isItem : ∃ value, event = .item value
      · -- A new item adds at most another hit that is not the watched item.
        obtain ⟨value, rfl⟩ := isItem
        simp only [items, List.mem_cons, not_or] at unrepeated
        apply ih (step state (.item value)) unrepeated.2
        · obtain ⟨entry, member, isHit⟩ := present
          exact ⟨entry, (mem_closingOrder_item state value entry).mpr (.inl member), isHit⟩
        · intro entry member isHit
          rcases (mem_closingOrder_item state value entry).mp member with old | fresh
          · exact apart entry old isHit
          · rw [snd_of_mem_placed fresh]
            exact fun same => unrepeated.1 same.symm
      · -- Any other event leaves the nested hits as they are.
        have silent : ∀ value, event ≠ .item value := fun value same => isItem ⟨value, same⟩
        have later : watched ∉ items rest := fun member => unrepeated (mem_items_cons member event)
        apply ih (step state event) later
        · simpa only [closingOrder_step state silent] using present
        · simpa only [closingOrder_step state silent] using apart

/-- A first hit stays first exactly while nothing nested in its open scope is a hit. -/
theorem find_quiet {pattern : P} {watched : S} (outer : List (Frame P S))
    (events : List (Event P S)) (state : State P S) (holder : Frame P S)
    (unrepeated : watched ∉ items events)
    (unhit : (closingOrder state).find? hit = none)
    (held : (entriesOf holder.block).find? hit = some (pattern, watched)) :
    (closingOrder (run (state.over (holder :: outer)) events)).find? hit =
        some (pattern, watched) ↔ Quiet hit (state.stack.map Frame.scope) events := by
  induction events generalizing state holder with
  | nil => simp [run, closingOrder_over, unhit, held, Quiet]
  | cons event rest ih =>
    have later : watched ∉ items rest := fun member => unrepeated (mem_items_cons member event)
    obtain ⟨stack, closed⟩ := state
    rw [run, List.foldl_cons, ← run]
    cases stack with
    | nil =>
      -- The scope itself is innermost, so its own text decides what happens to it.
      have front : (entriesOf closed).find? hit = none := by simpa [closingOrder] using unhit
      have ended : (entriesOf (closed ++ holder.block)).find? hit = some (pattern, watched) := by
        simp [front, held]
      cases event with
      | enter =>
        apply ih (step ⟨[], closed⟩ .enter) holder later _ held
        rw [closingOrder_step _ (by simp)]
        exact unhit
      | leave => exact iff_of_true (find_closed ended rest) trivial
      | scope next => exact iff_of_true (find_closed ended rest) trivial
      | item value =>
        apply ih ⟨[], closed⟩ ⟨holder.scope, holder.items ++ [value]⟩ later unhit
        rw [entriesOf_block_item, List.find?_append, held, Option.some_or]
    | cons top inner =>
      -- Something is nested in the scope, and the event happens to that.
      rw [step_over (by simp)]
      have silent : (∀ value, event ≠ .item value) →
          (closingOrder (step ⟨top :: inner, closed⟩ event)).find? hit = none := by
        intro silent
        rw [closingOrder_step _ silent]
        exact unhit
      cases event with
      | enter => exact ih _ holder later (silent (by simp)) held
      | leave => exact ih _ holder later (silent (by simp)) held
      | scope next => exact ih _ holder later (silent (by simp)) held
      | item value =>
        -- An item inside is quiet as long as it is no hit.
        rw [List.map_cons, Quiet]
        by_cases plain : (placed (some top.scope) value).find? hit = none
        · rw [← List.map_cons, and_iff_right plain]
          apply ih (step ⟨top :: inner, closed⟩ (.item value)) holder later _ held
          rw [List.find?_eq_none] at unhit plain ⊢
          intro entry member
          rcases (mem_closingOrder_item _ _ _).mp member with old | fresh
          · exact unhit entry old
          · exact plain entry fresh
        · -- The nested hit now stands before the watched item for good.
          apply iff_of_false _ (fun quiet => plain quiet.1)
          simp only [items, List.mem_cons, not_or] at unrepeated
          obtain ⟨nested, found⟩ := Option.ne_none_iff_exists'.mp plain
          apply overtaken (holder :: outer) rest _ later
          · exact ⟨nested, (mem_closingOrder_item _ _ _).mpr
              (.inr (List.mem_of_find?_eq_some found)), List.find?_some found⟩
          · intro entry member isHit
            rcases (mem_closingOrder_item _ _ _).mp member with old | fresh
            · exact absurd isHit (List.find?_eq_none.mp unhit entry old)
            · rw [snd_of_mem_placed fresh]
              exact fun same => unrepeated.1 same.symm

/-- Reading by closing finds the first hit of the text order unless a nested one overtakes it. -/
theorem find_closingOrder_iff (events : List (Event P S)) (state : State P S)
    (distinct : (items events).Nodup) (unhit : (closingOrder state).find? hit = none) :
    (closingOrder (run state events)).find? hit =
        (textOrder (state.stack.map Frame.scope) events).find? hit ↔
      Undisturbed hit (state.stack.map Frame.scope) events := by
  induction events generalizing state with
  | nil => simp [run, textOrder, unhit, Undisturbed]
  | cons event rest ih =>
    -- An event that is no item adds nothing that could be a hit.
    have onward : (∀ value, event ≠ .item value) → (items rest).Nodup →
        ((closingOrder (run (step state event) rest)).find? hit =
            (textOrder (scopesAfter (state.stack.map Frame.scope) event) rest).find? hit ↔
          Undisturbed hit (scopesAfter (state.stack.map Frame.scope) event) rest) := by
      intro silent others
      rw [← scopes_step]
      apply ih (step state event) others
      rw [closingOrder_step state silent]
      exact unhit
    rw [run, List.foldl_cons, ← run]
    cases event with
    | enter => exact onward (by simp) distinct
    | leave => exact onward (by simp) distinct
    | scope next => exact onward (by simp) distinct
    | item value =>
      rw [items, List.nodup_cons] at distinct
      rw [textOrder, List.find?_append, Undisturbed]
      cases first : (placed (state.stack.map Frame.scope).head? value).find? hit with
      | none =>
        -- An item that is no hit changes neither of the two searches.
        rw [Option.none_or]
        have scopes := scopes_step state (.item value)
        rw [scopesAfter] at scopes
        rw [← scopes]
        apply ih (step state (.item value)) distinct.2
        rw [List.find?_eq_none] at unhit first ⊢
        intro entry member
        rcases (mem_closingOrder_item _ _ _).mp member with old | fresh
        · exact unhit entry old
        · exact first entry fresh
      | some found =>
        -- From here on the item is watched until its scope closes.
        obtain ⟨stack, closed⟩ := state
        cases stack with
        | nil => simp [placed] at first
        | cons top outer =>
          have named : found = (found.1, value) := by
            rw [← snd_of_mem_placed (List.mem_of_find?_eq_some first)]
          rw [Option.some_or, named]
          simp only [closingOrder, List.flatMap_cons, entriesOf_append, List.find?_append,
            Option.or_eq_none_iff] at unhit
          apply find_quiet outer rest ⟨[], closed⟩ ⟨top.scope, top.items ++ [value]⟩ distinct.1
          · simpa [closingOrder] using unhit.1
          · rw [entriesOf_block_item, List.find?_append, unhit.2.1, Option.none_or, ← named]
            exact first

end Laws

end Nesting
