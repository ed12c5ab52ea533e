import Mathlib.Data.List.Chain
import Mathlib.Order.Lattice

/-! A latch with two thresholds, which is switched on above one and off below the other. -/

namespace Tern.Hysteresis

variable {α : Type*} [LinearOrder α]

/-- A level that is shown to a latch, on the way up or on the way down. -/
inductive Reading (α : Type*) where
  | rising (level : α)
  | falling (level : α)

/-- A latch and everything it was switched to so far, in order. -/
structure Latch where
  on : Bool
  switched : List Bool
  deriving DecidableEq, Repr

/-- The latch is switched. -/
def Latch.set (self : Latch) (on : Bool) : Latch := ⟨on, self.switched ++ [on]⟩

/-- The latch reads a level. -/
def Latch.read (low high : α) (self : Latch) : Reading α → Latch
  | .rising level => if self.on = false ∧ high < level then self.set true else self
  | .falling level => if self.on = true ∧ level < low then self.set false else self

/-- The switches go on and off in turn, beginning with on, and the last one still holds. -/
structure Latch.Regular (latch : Latch) : Prop where
  first : ∀ on ∈ latch.switched.head?, on = true
  turns : latch.switched.IsChain (· ≠ ·)
  last : latch.switched.getLast?.getD false = latch.on

/-- A latch that was never switched is off. -/
theorem Latch.regular_off : Latch.Regular ⟨false, []⟩ := by
  refine ⟨?_, List.isChain_nil, rfl⟩
  intro on member
  cases member

/-- Switching a latch over keeps the turns. -/
theorem Latch.Regular.set {latch : Latch} (regular : latch.Regular) (on : Bool)
    (over_ : latch.on ≠ on) : (latch.set on).Regular := by
  refine ⟨?_, ?_, by simp [Latch.set]⟩
  · intro first member
    -- Only the very first switch of all is at the head, and then the latch was off before.
    cases switched : latch.switched with
    | nil =>
      have off := regular.last
      rw [switched] at off
      simp only [Latch.set, switched, List.nil_append, List.head?_cons, Option.mem_some_iff]
        at member
      rw [← member]
      simpa [← off] using over_
    | cons head rest =>
      refine regular.first first ?_
      simpa [Latch.set, switched] using member
  · show (latch.switched ++ [on]).IsChain (· ≠ ·)
    rw [List.isChain_append]
    refine ⟨regular.turns, List.isChain_singleton on, ?_⟩
    intro last member next first
    have held := regular.last
    rw [Option.mem_def] at member
    rw [member, Option.getD_some] at held
    rw [List.head?_cons, Option.mem_some_iff] at first
    rw [held, ← first]
    exact over_

/-- Reading a level keeps the turns. -/
theorem Latch.Regular.read {latch : Latch} (regular : latch.Regular) (low high : α)
    (reading : Reading α) : (latch.read low high reading).Regular := by
  -- A rising reading can only switch on what is off, and a falling one only off what is on.
  cases reading with
  | rising level =>
    simp only [Latch.read]
    split
    · rename_i above
      exact regular.set true (by simp [above.1])
    · exact regular
  | falling level =>
    simp only [Latch.read]
    split
    · rename_i below
      exact regular.set false (by simp [below.1])
    · exact regular

end Tern.Hysteresis
