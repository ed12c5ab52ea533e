import Mathlib.Data.Finset.Card
import Mathlib.Data.List.Count
import Mathlib.Data.List.Forall2
import Mathlib.Data.List.Perm.Basic
import Mathlib.Logic.Relation

/-! Objects that refer to one another, read as trees: when that ends, and shows each object once. -/

namespace Unfolding

variable {ι δ τ : Type*}

section Reading

variable (view : ι → Option (δ × List ι)) (build : ι → δ → List τ → τ)

/--
The tree that an object is read as, from the object's data and the trees of what it refers to.

It is missing where a reference leads nowhere, or where the depth does not suffice.
-/
def unfold : Nat → ι → Option τ
  | 0, _ => none
  | depth + 1, i => (view i).bind fun seen => (seen.2.mapM (unfold depth)).map (build i seen.1)

/-- What an object refers to, in order. -/
def next (i : ι) : List ι := ((view i).map Prod.snd).getD []

/-- An object refers to another one. -/
def Leads (i j : ι) : Prop := j ∈ next view i

/-- Every object that a tree shows, from the top down. -/
def listing : Nat → ι → Option (List ι) := unfold view fun i _ parts => i :: parts.flatten

variable {view build}

/-- Each member of a list is read in turn. -/
theorem mapM_eq_some_iff {κ : Type*} {read : ι → Option κ} {members : List ι} {results : List κ} :
    members.mapM read = some results ↔
      List.Forall₂ (fun member result => read member = some result) members results := by
  -- The list is read when its head is read and its tail is, in the same order.
  induction members generalizing results with
  | nil => simp [eq_comm]
  | cons member members ih =>
    rw [List.mapM_cons]
    simp only [Option.bind_eq_bind, Option.pure_def, Option.bind_eq_some_iff, ih,
      Option.some.injEq, List.forall₂_cons_left_iff]
    constructor
    · rintro ⟨result, here, rest, there, rfl⟩
      exact ⟨result, rest, here, there, rfl⟩
    · rintro ⟨result, rest, here, there, rfl⟩
      exact ⟨result, here, rest, there, rfl⟩

/-- Where each member has a result, they have one after the other. -/
theorem exists_forall₂ {κ : Type*} {result : ι → κ → Prop} {members : List ι}
    (each : ∀ member ∈ members, ∃ value, result member value) :
    ∃ values, List.Forall₂ result members values := by
  -- A result is picked for the head and put before those of the tail.
  induction members with
  | nil => exact ⟨[], .nil⟩
  | cons member members ih =>
    obtain ⟨value, here⟩ := each member List.mem_cons_self
    obtain ⟨values, there⟩ := ih fun later inside => each later (List.mem_cons_of_mem _ inside)
    exact ⟨value :: values, .cons here there⟩

/-- The results for two lists in a row are those for the first, and behind them the others. -/
theorem split_forall₂ {κ : Type*} {result : ι → κ → Prop} {front back : List ι} {values : List κ}
    (each : List.Forall₂ result (front ++ back) values) :
    ∃ first second, values = first ++ second ∧ List.Forall₂ result front first ∧
      List.Forall₂ result back second := by
  have first := List.forall₂_take_append values front back each.flip
  have second := List.forall₂_drop_append values front back each.flip
  exact ⟨_, _, (List.take_append_drop _ values).symm, first.flip, second.flip⟩

/-- An object is read as its data over what it refers to, one level less deep. -/
theorem unfold_succ_iff {depth : Nat} {i : ι} {tree : τ} :
    unfold view build (depth + 1) i = some tree ↔
      ∃ data parts, view i = some (data, next view i) ∧ tree = build i data parts ∧
        List.Forall₂ (fun j part => unfold view build depth j = some part) (next view i) parts := by
  rw [unfold]
  cases seen : view i with
  | none => simp
  | some shown =>
    obtain ⟨data, refs⟩ := shown
    -- The view names the parts, which are read with one level less.
    simp only [Option.bind_some, Option.map_eq_some_iff, mapM_eq_some_iff, next, seen,
      Option.map_some, Option.getD_some, Option.some.injEq, Prod.mk.injEq, and_true]
    constructor
    · rintro ⟨parts, read, rfl⟩
      exact ⟨data, parts, rfl, rfl, read⟩
    · rintro ⟨_, parts, rfl, rfl, read⟩
      exact ⟨parts, read, rfl⟩

/-- A deeper look shows the same tree. -/
theorem unfold_mono {depth deeper : Nat} (more : depth ≤ deeper) {i : ι} {tree : τ}
    (read : unfold view build depth i = some tree) : unfold view build deeper i = some tree := by
  induction depth generalizing deeper i tree with
  | zero => cases read
  | succ depth ih =>
    -- The deeper look has a level left wherever the other one has.
    obtain ⟨deeper, rfl⟩ := Nat.exists_eq_add_of_le' (Nat.le_of_add_left_le more)
    obtain ⟨data, parts, seen, rfl, below⟩ := unfold_succ_iff.mp read
    exact unfold_succ_iff.mpr ⟨data, parts, seen, rfl, below.imp fun _ _ => ih (by omega)⟩

section Labels

variable {κ : Type*} {labels : τ → List κ} {label : ι → κ}

/-- Side by side, trees have the labels of what each of them shows. -/
theorem listings_of_each {depth : Nat}
    (each : ∀ {i tree}, unfold view build depth i = some tree →
      ∃ shown, listing view depth i = some shown ∧ labels tree = shown.map label)
    {roots : List ι} {trees : List τ}
    (read : List.Forall₂ (fun i tree => unfold view build depth i = some tree) roots trees) :
    ∃ lists, List.Forall₂ (fun i list => listing view depth i = some list) roots lists ∧
      (trees.map labels).flatten = lists.flatten.map label := by
  induction read with
  | nil => exact ⟨[], .nil, rfl⟩
  | cons here _ rest =>
    -- The first tree has its listing, and the others have theirs.
    obtain ⟨shown, listed, same⟩ := each here
    obtain ⟨lists, others, likewise⟩ := rest
    exact ⟨shown :: lists, .cons listed others, by simp [same, likewise]⟩

/-- A tree that is labelled by its objects has the labels of what it shows. -/
theorem listing_of_unfold
    (labelled : ∀ {i data parts}, view i = some (data, next view i) →
      (next view i).length = parts.length →
        labels (build i data parts) = label i :: (parts.map labels).flatten)
    {depth : Nat} {i : ι} {tree : τ} (read : unfold view build depth i = some tree) :
    ∃ shown, listing view depth i = some shown ∧ labels tree = shown.map label := by
  induction depth generalizing i tree with
  | zero => cases read
  | succ depth ih =>
    obtain ⟨data, parts, seen, rfl, below⟩ := unfold_succ_iff.mp read
    -- The parts have their listings, which stand behind the object itself.
    obtain ⟨lists, listed, same⟩ := listings_of_each ih below
    refine ⟨i :: lists.flatten, unfold_succ_iff.mpr ⟨data, lists, seen, rfl, listed⟩, ?_⟩
    rw [labelled seen below.length_eq, same, List.map_cons]

end Labels

end Reading

section Counting

variable [DecidableEq ι] {view : ι → Option (δ × List ι)}

/-- What a tree or some trees show is what they are of, and whatever that refers to. -/
def Accounts (view : ι → Option (δ × List ι)) (roots shown : List ι) : Prop :=
  ∀ x, shown.count x = roots.count x + (shown.flatMap (next view)).count x

/-- Side by side, trees show what each of them shows. -/
theorem accounts_forest {depth : Nat}
    (each : ∀ {i shown}, listing view depth i = some shown → Accounts view [i] shown)
    {roots : List ι} {lists : List (List ι)}
    (listed : List.Forall₂ (fun i list => listing view depth i = some list) roots lists) :
    Accounts view roots lists.flatten := by
  intro x
  induction listed with
  | nil => rfl
  | @cons root list roots lists here _ rest =>
    -- The first root accounts for itself and for what its own tree refers to.
    have first := each here x
    rw [List.flatten_cons, List.count_append, List.flatMap_append, List.count_append,
      ← List.singleton_append, List.count_append]
    omega

/-- What a tree shows is its object, and whatever is referred to by what it shows. -/
theorem accounts_listing {depth : Nat} {i : ι} {shown : List ι}
    (listed : listing view depth i = some shown) : Accounts view [i] shown := by
  induction depth generalizing i shown with
  | zero => cases listed
  | succ depth ih =>
    obtain ⟨data, lists, -, rfl, below⟩ := unfold_succ_iff.mp listed
    intro x
    -- The parts account for what the object refers to, and the object for itself.
    have whole := accounts_forest ih below x
    rw [List.flatMap_cons, List.count_append, ← List.singleton_append, List.count_append]
    omega

/-- What occurs behind some members depends on how often those occur that it is behind. -/
theorem count_flatMap_congr {f : ι → List ι} {x : ι} {members others : List ι}
    (alike : ∀ p, x ∈ f p → members.count p = others.count p) :
    (members.flatMap f).count x = (others.flatMap f).count x := by
  -- Members that it is not behind may as well be left out.
  have kept (list : List ι) :
      (list.flatMap f).count x = ((list.filter fun p => x ∈ f p).flatMap f).count x := by
    induction list with
    | nil => rfl
    | cons p list ih =>
      by_cases behind : x ∈ f p
      · simp [behind, ih]
      · simp [behind, ih, List.count_eq_zero_of_not_mem behind]
  rw [kept members, kept others]
  refine (List.Perm.flatMap_right f (List.perm_iff_count.mpr fun p => ?_)).count_eq x
  by_cases behind : x ∈ f p
  · simpa [List.count_filter, behind] using alike p behind
  · rw [List.count_eq_zero_of_not_mem (by simp [behind]),
      List.count_eq_zero_of_not_mem (by simp [behind])]

end Counting

section Covering

variable (view : ι → Option (δ × List ι))

/-- Everything there is can be looked at, and is referred to once: from the top or from there. -/
structure Covered (roots everything : List ι) : Prop where
  seen : ∀ i ∈ everything, (view i).isSome
  within : ∀ {i j}, Leads view i j → i ∈ everything
  acyclic : ∀ i, ¬Relation.TransGen (Leads view) i i
  once : (roots ++ everything.flatMap (next view)).Perm everything

variable {view} {build : ι → δ → List τ → τ} {roots everything : List ι}

/-- What is referred to is there. -/
theorem Covered.inside (covered : Covered view roots everything) {i j : ι}
    (leads : Leads view i j) : j ∈ everything := by
  refine covered.once.mem_iff.mp (List.mem_append_right _ ?_)
  exact List.mem_flatMap.mpr ⟨i, covered.within leads, leads⟩

open Classical in
/-- How many things a relation leads to from an object. -/
noncomputable def behind (r : ι → ι → Prop) (everything : List ι) (i : ι) : Nat :=
  (everything.toFinset.filter (Relation.TransGen r i)).card

/-- Where nothing leads back to itself, fewer things are behind what is further along. -/
theorem behind_lt {r : ι → ι → Prop} (acyclic : ∀ i, ¬Relation.TransGen r i i) {i j : ι}
    (leads : r i j) (inside : j ∈ everything) :
    behind r everything j < behind r everything i := by
  classical
  -- What is behind the one is behind the other too, and the one itself is besides.
  refine Finset.card_lt_card ((Finset.ssubset_iff_of_subset ?_).mpr ⟨j, ?_, ?_⟩)
  · exact Finset.monotone_filter_right _ fun k _ onward => .head leads onward
  · exact Finset.mem_filter.mpr ⟨List.mem_toFinset.mpr inside, .single leads⟩
  · exact fun back => acyclic j (Finset.mem_filter.mp back).2

/-- Not everything is behind something that is there. -/
theorem behind_lt_length {r : ι → ι → Prop} (acyclic : ∀ i, ¬Relation.TransGen r i i) {i : ι}
    (inside : i ∈ everything) : behind r everything i < everything.length := by
  classical
  -- The object itself is there and not behind itself.
  refine lt_of_lt_of_le (Finset.card_lt_card ?_) (List.toFinset_card_le everything)
  refine Finset.filter_ssubset.mpr ⟨i, List.mem_toFinset.mpr inside, acyclic i⟩

/-- Everything there is can be read, to a depth that exceeds what is behind it. -/
theorem Covered.unfold_isSome (covered : Covered view roots everything) {depth : Nat} {i : ι}
    (inside : i ∈ everything) (deep : behind (Leads view) everything i < depth) :
    ∃ tree, unfold view build depth i = some tree := by
  -- The depth goes down along each reference, and so does what is behind.
  induction depth generalizing i with
  | zero => omega
  | succ depth ih =>
    obtain ⟨⟨data, refs⟩, shown⟩ := Option.isSome_iff_exists.mp (covered.seen i inside)
    have same : next view i = refs := by simp [next, shown]
    -- Less is behind each reference, so the induction reads it.
    have below : ∀ j ∈ next view i, ∃ tree, unfold view build depth j = some tree := by
      intro j leads
      have less := behind_lt covered.acyclic leads (covered.inside leads)
      exact ih (covered.inside leads) (by omega)
    obtain ⟨parts, read⟩ := exists_forall₂ below
    exact ⟨build i data parts, unfold_succ_iff.mpr ⟨data, parts, by rw [shown, same], rfl, read⟩⟩

variable (build) in
/-- The top of everything can be read, to a depth of as many levels as there are things. -/
theorem Covered.exists_forest (covered : Covered view roots everything) {depth : Nat}
    (deep : everything.length ≤ depth) :
    ∃ trees, List.Forall₂ (fun i tree => unfold view build depth i = some tree) roots trees := by
  refine exists_forall₂ fun i top => ?_
  have inside := covered.once.mem_iff.mp (List.mem_append_left _ top)
  exact covered.unfold_isSome inside
    (lt_of_lt_of_le (behind_lt_length covered.acyclic inside) deep)

/-- What is accounted for from the top of everything is everything, as often as it is there. -/
theorem Covered.perm [DecidableEq ι] (covered : Covered view roots everything) {shown : List ι}
    (accounts : Accounts view roots shown) : shown.Perm everything := by
  -- A relation without cycles has none when it is read backwards.
  have flipped : ∀ i, ¬Relation.TransGen (Function.swap (Leads view)) i i := fun i =>
    mt Relation.transGen_swap.mp (covered.acyclic i)
  refine List.perm_iff_count.mpr fun x => ?_
  -- The induction is on how much leads to the object, so that it goes down from the top.
  induction rank : behind (Function.swap (Leads view)) everything x using Nat.strong_induction_on
    generalizing x with
  | _ rank ih =>
    subst rank
    -- It is there as often as it is at the top and referred to by what is there.
    have once := covered.once.count_eq x
    rw [List.count_append] at once
    rw [accounts x, ← once, Nat.add_left_cancel_iff]
    refine count_flatMap_congr fun p leads => ?_
    exact ih _ (behind_lt flipped leads (covered.within leads)) p rfl

/-- The labels of the trees at the top are those of everything there is, each as often. -/
theorem Covered.labels_perm {κ : Type*} {labels : τ → List κ} {label : ι → κ}
    (covered : Covered view roots everything)
    (labelled : ∀ {i data parts}, view i = some (data, next view i) →
      (next view i).length = parts.length →
        labels (build i data parts) = label i :: (parts.map labels).flatten)
    {depth : Nat} {trees : List τ}
    (read : List.Forall₂ (fun i tree => unfold view build depth i = some tree) roots trees) :
    ((trees.map labels).flatten).Perm (everything.map label) := by
  classical
  obtain ⟨lists, listed, same⟩ := listings_of_each (listing_of_unfold labelled) read
  rw [same]
  exact (covered.perm (accounts_forest accounts_listing listed)).map label

end Covering

end Unfolding
