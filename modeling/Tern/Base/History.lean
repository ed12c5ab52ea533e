import Mathlib.Data.List.Induction
import Mathlib.Tactic.ByContra

/-! What a history of additions and removals leaves, and what a record written from it owes to
it. -/

namespace History

variable {ε α : Type*} {adds drops : ε → α → Prop}

/-- What is held after a list of events, each of which adds some items and drops others. -/
def held (adds drops : ε → α → Prop) (initial : α → Prop) (events : List ε) : α → Prop :=
  events.foldl
    (fun before event item => adds event item ∨ (before item ∧ ¬drops event item)) initial

/-- Later events go on from what earlier ones left. -/
theorem held_append (initial : α → Prop) (earlier since : List ε) :
    held adds drops initial (earlier ++ since) =
      held adds drops (held adds drops initial earlier) since := by
  rw [held, List.foldl_append]
  rfl

/-- The last event decides about what it adds or drops, and leaves the rest. -/
theorem held_concat (initial : α → Prop) (events : List ε) (last : ε) (item : α) :
    held adds drops initial (events ++ [last]) item ↔
      adds last item ∨ (held adds drops initial events item ∧ ¬drops last item) := by
  rw [held_append]
  rfl

/-- An event of a history that was prolonged is the new one or is followed by it. -/
theorem concat_split {events before after : List ε} {last event : ε}
    (split : events ++ [last] = before ++ event :: after) :
    (after = [] ∧ event = last) ∨
      ∃ rest, after = rest ++ [last] ∧ events = before ++ event :: rest := by
  rcases List.eq_nil_or_concat after with rfl | ⟨rest, final, rfl⟩
  · obtain ⟨-, same⟩ := List.append_inj' split rfl
    exact .inl ⟨rfl, (List.cons.inj same).1.symm⟩
  · -- Both sides end in one event behind what came before it.
    rw [List.concat_eq_append, ← List.cons_append, ← List.append_assoc] at split
    obtain ⟨front, same⟩ := List.append_inj' split rfl
    exact .inr ⟨rest, by rw [List.concat_eq_append, same], front⟩

/-- What is held was there at first or was added, and has not been dropped since. -/
theorem origin_of_held {initial : α → Prop} {events : List ε} {item : α}
    (present : held adds drops initial events item) :
    initial item ∨ ∃ before event after, events = before ++ event :: after ∧ adds event item ∧
      ∀ later ∈ after, ¬drops later item := by
  -- The last event comes first: it brought the item, or the item is older than it.
  induction events using List.reverseRecOn with
  | nil => exact .inl present
  | append_singleton events last ih =>
    rw [held_concat] at present
    rcases present with added | ⟨older, kept⟩
    · exact .inr ⟨events, last, [], rfl, added, by simp⟩
    · rcases ih older with first | ⟨before, event, after, rfl, added, undropped⟩
      · exact .inl first
      · refine .inr ⟨before, event, after ++ [last], by simp, added, ?_⟩
        intro later member
        rcases List.mem_append.mp member with early | final
        · exact undropped later early
        · exact List.mem_singleton.mp final ▸ kept

/-- What was there and is no longer held was dropped, and has not been added since. -/
theorem end_of_not_held {initial : α → Prop} {events : List ε} {item : α} (first : initial item)
    (absent : ¬held adds drops initial events item) :
    ∃ before event after, events = before ++ event :: after ∧ drops event item ∧
      ∀ later ∈ after, ¬adds later item := by
  -- Either the last event dropped the item, or the item was gone before and was not brought back.
  induction events using List.reverseRecOn with
  | nil => exact absurd first absent
  | append_singleton events last ih =>
    rw [held_concat, not_or, not_and_not_right] at absent
    obtain ⟨unadded, unkept⟩ := absent
    by_cases older : held adds drops initial events item
    · exact ⟨events, last, [], rfl, unkept older, by simp⟩
    · obtain ⟨before, event, after, rfl, dropped, unadded'⟩ := ih older
      refine ⟨before, event, after ++ [last], by simp, dropped, ?_⟩
      intro later member
      rcases List.mem_append.mp member with early | final
      · exact unadded' later early
      · exact List.mem_singleton.mp final ▸ unadded

/--
A record owes two things to a history of events.

It has every item that was added and not dropped since,
and an item that was dropped is only in it if it was added again.
-/
structure Respects (adds drops : ε → α → Prop) (events : List ε) (record : α → Prop) : Prop where
  kept : ∀ before event after item, events = before ++ event :: after → adds event item →
    (∀ later ∈ after, ¬drops later item) → record item
  gone : ∀ before event after item, events = before ++ event :: after → drops event item →
    record item → ∃ later ∈ after, adds later item

/-- What is held respects the history, if no event drops what it adds. -/
theorem respects_held (disjoint : ∀ event item, adds event item → ¬drops event item)
    (initial : α → Prop) (events : List ε) :
    Respects adds drops events (held adds drops initial events) := by
  -- The induction is from the last event back.
  induction events using List.reverseRecOn with
  | nil =>
    refine ⟨?_, ?_⟩
    · intro before event after item split
      simp at split
    · intro before event after item split
      simp at split
  | append_singleton events last ih =>
    refine ⟨?_, ?_⟩
    · intro before event after item split added undropped
      rw [held_concat]
      rcases concat_split split with ⟨rfl, rfl⟩ | ⟨rest, rfl, front⟩
      · exact .inl added
      · right
        refine ⟨ih.kept before event rest item front added ?_, undropped last (by simp)⟩
        exact fun later member => undropped later (List.mem_append_left _ member)
    · intro before event after item split dropped present
      rw [held_concat] at present
      rcases concat_split split with ⟨rfl, rfl⟩ | ⟨rest, rfl, front⟩
      · rcases present with added | ⟨-, kept⟩
        · exact absurd dropped (disjoint _ _ added)
        · exact absurd dropped kept
      · rcases present with added | ⟨older, -⟩
        · exact ⟨last, by simp, added⟩
        · obtain ⟨later, member, added⟩ := ih.gone before event rest item front dropped older
          exact ⟨later, List.mem_append_left _ member, added⟩

/-- An event is current if nothing it leaves alone has changed since the history it knows of. -/
def Current (adds drops : ε → α → Prop) (last : ε) (known now : α → Prop) : Prop :=
  ∀ item, ¬drops last item →
    (now item → known item ∨ adds last item) ∧ (known item → now item)

/-- A current event may be applied to what it knows of. -/
theorem held_of_current {initial : α → Prop} {earlier since : List ε} {last : ε}
    (current : Current adds drops last (held adds drops initial earlier)
      (held adds drops initial (earlier ++ since))) (item : α) :
    adds last item ∨ (held adds drops initial earlier item ∧ ¬drops last item) ↔
      held adds drops initial (earlier ++ since ++ [last]) item := by
  rw [held_concat]
  by_cases dropped : drops last item
  · simp [dropped]
  -- What the event leaves alone is read off what it knows, which is still so.
  · obtain ⟨gained, lost⟩ := current item dropped
    simp only [dropped, not_false_eq_true, and_true]
    constructor
    · intro present
      rcases present with added | known
      · exact .inl added
      · exact .inr (lost known)
    · intro present
      rcases present with added | now
      · exact .inl added
      · exact (gained now).symm

/--
An event that is applied to what was held earlier respects the whole history
exactly when it is current, provided it adds nothing that it knows of already.
-/
theorem respects_stale_iff (disjoint : ∀ event item, adds event item → ¬drops event item)
    {initial : α → Prop} {earlier since : List ε} {last : ε}
    (fresh : ∀ item, adds last item → ¬held adds drops initial earlier item) :
    Respects adds drops (earlier ++ since ++ [last])
        (fun item => adds last item ∨ (held adds drops initial earlier item ∧ ¬drops last item)) ↔
      Current adds drops last (held adds drops initial earlier)
        (held adds drops initial (earlier ++ since)) := by
  constructor
  · -- A record of what was held earlier is right about what is held now.
    intro respects item undropped
    refine ⟨?_, ?_⟩
    · intro now
      rw [held_append] at now
      rcases origin_of_held now with known | ⟨before, event, after, rfl, added, kept⟩
      · exact .inl known
      · -- What was added meanwhile has to be in the record.
        have recorded := respects.kept (earlier ++ before) event (after ++ [last]) item (by simp)
          added ?_
        · rcases recorded with again | ⟨known, -⟩
          · exact .inr again
          · exact .inl known
        · intro later member
          rcases List.mem_append.mp member with early | final
          · exact kept later early
          · exact List.mem_singleton.mp final ▸ undropped
    · intro known
      by_contra absent
      rw [held_append] at absent
      obtain ⟨before, event, after, rfl, dropped, unadded⟩ := end_of_not_held known absent
      -- What was dropped meanwhile may only be in the record if something adds it again.
      obtain ⟨later, member, added⟩ :=
        respects.gone (earlier ++ before) event (after ++ [last]) item
        (by simp) dropped (.inr ⟨known, undropped⟩)
      rcases List.mem_append.mp member with early | final
      · exact unadded later early added
      · exact fresh item (List.mem_singleton.mp final ▸ added) known
  · -- When nothing has changed since, the record is one of the present.
    intro current
    have same := funext fun item => propext (held_of_current current item)
    rw [same]
    exact respects_held disjoint initial _

end History
