import Mathlib.Data.List.Basic

/-! De-duplication by a key, keeping what was seen first. -/

namespace FirstSeen

variable {α κ : Type*} [DecidableEq κ] (key : α → κ)

/-- The elements whose key is new, in order, given the keys seen before. -/
def keep : List κ → List α → List α
  | _, [] => []
  | seen, item :: rest =>
    if key item ∈ seen then keep seen rest
    -- A kept element makes its own key a seen one.
    else item :: keep (seen ++ [key item]) rest

/-- An element is kept when its key is new and it is the first to bring it. -/
theorem mem_keep {seen : List κ} {items : List α} {item : α} :
    item ∈ keep key seen items ↔
      key item ∉ seen ∧ items.find? (fun other => key other = key item) = some item := by
  -- The seen keys grow along the list, so they stay quantified over.
  induction items generalizing seen with
  | nil => simp [keep]
  | cons head rest ih =>
    rw [keep]
    split
    · -- A seen key cannot belong to a kept element.
      rename_i known
      rw [ih]
      by_cases same : key head = key item
      · rw [same] at known
        simp [known]
      · simp [same]
    · rename_i fresh
      rw [List.mem_cons, ih]
      by_cases same : key head = key item
      · -- The head brings this key, so nothing after it is kept under the same one.
        rw [same] at fresh ⊢
        simp [fresh, same, eq_comm]
      · have other : item ≠ head := fun equal => same (by rw [equal])
        simp [same, other, Ne.symm same]

/-- Without a key of their own, all elements are kept, each of them once. -/
theorem mem_keep_id {β : Type*} [DecidableEq β] {items : List β} {item : β} :
    item ∈ keep id [] items ↔ item ∈ items := by
  -- With the element as its own key, the first of its kind is the element itself.
  rw [mem_keep]
  constructor
  · rintro ⟨-, found⟩
    exact List.mem_of_find?_eq_some found
  · intro member
    refine ⟨List.not_mem_nil, ?_⟩
    cases found : items.find? fun other => id other = id item with
    | none => exact absurd (List.find?_eq_none.mp found item member) (by simp)
    | some other =>
      have same := List.find?_some found
      simp only [id_eq, decide_eq_true_eq] at same
      rw [same]

/-- No two elements that are kept have the same key. -/
theorem nodup_keep (seen : List κ) (items : List α) : ((keep key seen items).map key).Nodup := by
  induction items generalizing seen with
  | nil => exact List.nodup_nil
  | cons head rest ih =>
    rw [keep]
    split
    · exact ih seen
    · rw [List.map_cons, List.nodup_cons]
      refine ⟨?_, ih _⟩
      -- The key of the head is a seen one for all that follows.
      intro again
      obtain ⟨item, kept, same⟩ := List.mem_map.mp again
      have unseen := ((mem_keep key).mp kept).1
      rw [same] at unseen
      exact unseen (List.mem_append_right _ (List.mem_singleton_self _))

/-- A search finds an element that is a hit and has no hit before it. -/
theorem find_eq_some_iff {β : Type*} [DecidableEq β] {items : List β} {hit : β → Bool} {item : β} :
    items.find? hit = some item ↔
      item ∈ items ∧ hit item = true ∧
        ∀ early ∈ items.takeWhile (· ≠ item), ¬hit early = true := by
  induction items with
  | nil => simp
  | cons head rest ih =>
    by_cases same : head = item
    · subst same
      cases struck : hit head with
      | true => simp [struck]
      | false =>
        -- A later hit is another element, since this one is no hit.
        simp only [List.find?_cons, struck, Bool.false_eq_true, false_and, and_false, iff_false]
        intro found
        rw [List.find?_some found] at struck
        cases struck
    · cases struck : hit head <;> simp [struck, same, Ne.symm same, ih]

end FirstSeen
