import Mathlib.Data.List.Nodup
import Mathlib.Logic.Relation

/-! Queries that feed their own rows back through a queue, keeping duplicates. -/

namespace RecursiveQuery

variable {α : Type*} (expand : α → List α)

/-- The rows of a query, each taken from the front of the queue and its own rows put at the end. -/
def run : Nat → List α → Option (List α)
  | _, [] => some []
  -- A query that still has rows to take when its fuel is gone has not answered.
  | 0, _ :: _ => none
  | fuel + 1, row :: queue => (run fuel (queue ++ expand row)).map (row :: ·)

/-- The rows that are as many expansions away from the queue. -/
def level : List α → Nat → List α
  | queue, 0 => queue
  | queue, depth + 1 => level (queue.flatMap expand) depth

/-- The rows of the first levels, in the order of the levels. -/
def levels (queue : List α) : Nat → List α
  | 0 => []
  | depth + 1 => queue ++ levels (queue.flatMap expand) depth

/-- The query ends, and with enough fuel it is seen to. -/
def Terminates (queue : List α) : Prop :=
  ∃ rows, ∀ fuel, rows.length ≤ fuel → run expand fuel queue = some rows

variable {expand}

/-- A whole queue is taken before anything that was expanded from it. -/
theorem run_append (queue waiting : List α) (fuel : Nat) :
    run expand (fuel + queue.length) (queue ++ waiting) =
      (run expand fuel (waiting ++ queue.flatMap expand)).map (queue ++ ·) := by
  -- The head of the queue is answered first, and what it expands to waits behind all the rest.
  induction queue generalizing waiting with
  | nil => simp
  | cons row queue ih =>
    rw [List.length_cons, ← Nat.add_assoc, List.cons_append, run, List.append_assoc, ih,
      List.flatMap_cons, List.append_assoc, Option.map_map]
    rfl

/-- A query whose levels give out answers with their rows. -/
theorem run_levels {queue : List α} {depth : Nat} (ends : level expand queue depth = [])
    {fuel : Nat} (enough : (levels expand queue depth).length ≤ fuel) :
    run expand fuel queue = some (levels expand queue depth) := by
  -- The induction is on the levels, and each of them is taken as a whole.
  induction depth generalizing queue fuel with
  | zero =>
    obtain rfl : queue = [] := ends
    cases fuel with
    | zero => rfl
    | succ fuel => rfl
  | succ depth ih =>
    rw [levels, List.length_append] at enough
    obtain ⟨left, rfl⟩ := Nat.exists_eq_add_of_le' (Nat.le_trans (Nat.le_add_right _ _) enough)
    have onward := @ih (queue.flatMap expand) ends left (by omega)
    have whole := @run_append α expand queue [] left
    rw [List.append_nil, List.nil_append, onward] at whole
    exact whole

/-- A query whose levels give out terminates. -/
theorem terminates_of_level {queue : List α} {depth : Nat}
    (ends : level expand queue depth = []) : Terminates expand queue :=
  ⟨levels expand queue depth, fun _ enough => run_levels ends enough⟩

/-- A level is expanded from the one before it. -/
theorem level_succ (queue : List α) (depth : Nat) :
    level expand queue (depth + 1) = (level expand queue depth).flatMap expand := by
  induction depth generalizing queue with
  | zero => rfl
  | succ depth ih => exact ih (queue.flatMap expand)

/-- Behind an empty level there are only empty ones. -/
theorem level_of_empty {queue : List α} {depth : Nat} (ends : level expand queue depth = [])
    (more : Nat) : level expand queue (depth + more) = [] := by
  induction more with
  | zero => exact ends
  | succ more ih => rw [← Nat.add_assoc, level_succ, ih, List.flatMap_nil]

/-- The rows of the first levels are those of one of them. -/
theorem mem_levels {queue : List α} {depth : Nat} {row : α} :
    row ∈ levels expand queue depth ↔ ∃ d < depth, row ∈ level expand queue d := by
  -- The first level is the queue, and the others are the levels of what it expands to.
  induction depth generalizing queue with
  | zero => simp [levels]
  | succ depth ih =>
    rw [levels, List.mem_append, ih]
    refine ⟨?_, ?_⟩
    · rintro (here | ⟨d, below, later⟩)
      · exact ⟨0, by omega, here⟩
      · exact ⟨d + 1, by omega, later⟩
    · rintro ⟨d, below, member⟩
      cases d with
      | zero => exact .inl member
      | succ d => exact .inr ⟨d, by omega, member⟩

/-- A row leads to another one in a single expansion. -/
def Leads (expand : α → List α) (row next : α) : Prop := next ∈ expand row

/-- Once the levels give out, their rows are all that the queue leads to. -/
theorem mem_levels_iff_leads {queue : List α} {depth : Nat}
    (ends : level expand queue depth = []) {row : α} :
    row ∈ levels expand queue depth ↔
      ∃ start ∈ queue, Relation.ReflTransGen (Leads expand) start row := by
  rw [mem_levels]
  refine ⟨?_, ?_⟩
  · rintro ⟨d, -, member⟩
    induction d generalizing row with
    | zero => exact ⟨row, member, .refl⟩
    | succ d ih =>
      rw [level_succ, List.mem_flatMap] at member
      obtain ⟨before, earlier, step⟩ := member
      obtain ⟨start, queued, path⟩ := ih earlier
      exact ⟨start, queued, path.tail step⟩
  · rintro ⟨start, queued, path⟩
    -- The path is as long as the level is deep, and no row is on a level that does not exist.
    obtain ⟨d, member⟩ : ∃ d, row ∈ level expand queue d := by
      induction path with
      | refl => exact ⟨0, queued⟩
      | tail _ step ih =>
        obtain ⟨d, member⟩ := ih
        exact ⟨d + 1, by rw [level_succ]; exact List.mem_flatMap.mpr ⟨_, member, step⟩⟩
    refine ⟨d, ?_, member⟩
    by_contra beyond
    obtain ⟨more, rfl⟩ := Nat.exists_eq_add_of_le (Nat.not_lt.mp beyond)
    rw [level_of_empty ends] at member
    exact absurd member List.not_mem_nil

/-- No level repeats a row when each row is expanded from one row only, and only once. -/
theorem nodup_level {queue : List α} (start : queue.Nodup) (each : ∀ row, (expand row).Nodup)
    (single : ∀ depth row other next, row ∈ level expand queue depth →
      other ∈ level expand queue depth → next ∈ expand row → next ∈ expand other → row = other)
    (depth : Nat) : (level expand queue depth).Nodup := by
  -- Two rows of a level that expand to the same one are the same row.
  induction depth with
  | zero => exact start
  | succ depth ih =>
    rw [level_succ, List.nodup_flatMap]
    refine ⟨fun row _ => each row, ?_⟩
    refine (List.pairwise_iff_forall_sublist.mpr ?_)
    intro row other sub next inRow inOther
    obtain rfl := single depth row other next (sub.subset (by simp)) (sub.subset (by simp))
      inRow inOther
    exact absurd (sub.nodup ih) (by simp)

/-- A query that never branches has one row on a level at most. -/
theorem length_level {queue : List α} (start : queue.length ≤ 1)
    (each : ∀ row, (expand row).length ≤ 1) (depth : Nat) :
    (level expand queue depth).length ≤ 1 := by
  -- A queue of one row expands to one row at most, which is then the next queue.
  induction depth generalizing queue with
  | zero => exact start
  | succ depth ih =>
    apply ih
    match queue, start with
    | [], _ => simp
    | [row], _ =>
      rw [List.flatMap_singleton]
      exact each row

/-- The levels repeat no row when none of them does and no two of them share one. -/
theorem nodup_levels {queue : List α} {depth : Nat}
    (each : ∀ d, (level expand queue d).Nodup)
    (apart : ∀ d e row, row ∈ level expand queue d → row ∈ level expand queue e → d = e) :
    (levels expand queue depth).Nodup := by
  -- The levels behind the first are those of another queue, one level further down.
  induction depth generalizing queue with
  | zero => exact List.nodup_nil
  | succ depth ih =>
    refine List.nodup_append.mpr ⟨each 0, ih (fun d => each (d + 1)) ?_, ?_⟩
    · intro d e row inD inE
      have same := apart (d + 1) (e + 1) row inD inE
      omega
    · rintro row here _ later rfl
      obtain ⟨d, -, member⟩ := mem_levels.mp later
      exact absurd (apart 0 (d + 1) row here member) (by omega)

/-- A query that leads back to its own row never answers. -/
theorem run_of_loop {row : α} (loop : expand row = [row]) (fuel : Nat) :
    run expand fuel [row] = none := by
  -- After its one row is answered, the queue is what it was, with less fuel.
  induction fuel with
  | zero => rfl
  | succ fuel ih =>
    rw [run, List.nil_append, loop, ih]
    rfl

end RecursiveQuery
