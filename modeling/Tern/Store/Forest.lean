import Tern.Base.System
import Tern.Store.Folders

/-! Folders form a forest as long as no folder is created inside itself. -/

namespace Tern.Store

/-- A folder lies directly in another one. -/
def ParentOf (folders : List Folder) (child parent : Int) : Prop :=
  ∃ folder ∈ folders, folder.id = child ∧ folder.parentId = some parent

/-- A folder lies so many steps below the root. -/
inductive RootedAt (folders : List Folder) : Nat → Int → Prop where
  | root {folder : Folder} (member : folder ∈ folders) (top : folder.parentId = none) :
      RootedAt folders 0 folder.id
  | child {folder : Folder} {parent : Int} {depth : Nat} (member : folder ∈ folders)
      (inside : folder.parentId = some parent) (rooted : RootedAt folders depth parent) :
      RootedAt folders (depth + 1) folder.id

/-- What every call keeps of a table that is a forest. -/
structure Grown (folders : List Folder) : Prop where
  unique : (folders.map Folder.id).Nodup
  positive : ∀ folder ∈ folders, 0 < folder.id
  rooted : ∀ folder ∈ folders, ∃ depth, RootedAt folders depth folder.id
  siblings : ∀ folder ∈ folders, ∀ other ∈ folders,
    siblingKey folder.parentId = siblingKey other.parentId →
    nocase folder.name = nocase other.name → folder.id = other.id

section Depth

variable {folders : List Folder}

/-- A folder that lies below the root is in the table. -/
theorem RootedAt.exists_folder {depth : Nat} {id : Int} (rooted : RootedAt folders depth id) :
    ∃ folder ∈ folders, folder.id = id := by
  cases rooted with
  | root member top => exact ⟨_, member, rfl⟩
  | child member inside rooted => exact ⟨_, member, rfl⟩

/-- Only one folder has an id. -/
theorem Grown.folder_inj (grown : Grown folders) {folder other : Folder} (here : folder ∈ folders)
    (there : other ∈ folders) (same : folder.id = other.id) : folder = other :=
  List.inj_on_of_nodup_map grown.unique here there same

/-- A folder without a parent lies at the root, and only there. -/
theorem Grown.rootedAt_top (grown : Grown folders) {folder : Folder} (member : folder ∈ folders)
    (top : folder.parentId = none) {depth : Nat} :
    RootedAt folders depth folder.id ↔ depth = 0 := by
  refine ⟨?_, ?_⟩
  · generalize named : folder.id = id
    -- A folder that lies deeper has a parent, and an id has only one folder.
    rintro (⟨other, _⟩ | ⟨other, inside, _⟩)
    · rfl
    · rw [← grown.folder_inj member other named, top] at inside
      cases inside
  · rintro rfl
    exact .root member top

/-- A folder with a parent lies a step below it. -/
theorem Grown.rootedAt_inside (grown : Grown folders) {folder : Folder} (member : folder ∈ folders)
    {parent : Int} (inside : folder.parentId = some parent) {depth : Nat} :
    RootedAt folders depth folder.id ↔
      ∃ above, depth = above + 1 ∧ RootedAt folders above parent := by
  refine ⟨?_, ?_⟩
  · generalize named : folder.id = id
    -- A folder at the root has no parent, and one that lies deeper has this one.
    rintro (⟨other, top⟩ | ⟨other, within, rooted⟩)
    · rw [← grown.folder_inj member other named, inside] at top
      cases top
    · rw [← grown.folder_inj member other named, inside, Option.some.injEq] at within
      exact ⟨_, rfl, within ▸ rooted⟩
  · rintro ⟨above, rfl, rooted⟩
    exact .child member inside rooted

/-- A folder lies at one depth only. -/
theorem Grown.depth_unique (grown : Grown folders) {depth other : Nat} {id : Int}
    (rooted : RootedAt folders depth id) (likewise : RootedAt folders other id) :
    depth = other := by
  -- Going up from a folder there is one way to go, and so one depth to find.
  induction rooted generalizing other with
  | root member top => exact ((grown.rootedAt_top member top).mp likewise).symm
  | child member inside _ ih =>
    obtain ⟨above, rfl, rooted⟩ := (grown.rootedAt_inside member inside).mp likewise
    rw [ih rooted]

/-- A folder lies a step below the one it lies in. -/
theorem Grown.depth_parentOf (grown : Grown folders) {child parent : Int}
    (lies : ParentOf folders child parent) {depth : Nat} :
    RootedAt folders depth child ↔ ∃ above, depth = above + 1 ∧ RootedAt folders above parent := by
  obtain ⟨folder, member, rfl, inside⟩ := lies
  exact grown.rootedAt_inside member inside

/-- Going up from a folder leads to smaller depths. -/
theorem Grown.depth_transGen (grown : Grown folders) {child ancestor : Int}
    (lies : Relation.TransGen (ParentOf folders) child ancestor) {depth : Nat}
    (rooted : RootedAt folders depth child) :
    ∃ above, above < depth ∧ RootedAt folders above ancestor := by
  -- The induction is on the steps, each of which leads one level up.
  induction lies with
  | single lies =>
    obtain ⟨above, rfl, higher⟩ := (grown.depth_parentOf lies).mp rooted
    exact ⟨above, by omega, higher⟩
  | tail _ lies ih =>
    obtain ⟨middle, below, between⟩ := ih
    obtain ⟨above, rfl, higher⟩ := (grown.depth_parentOf lies).mp between
    exact ⟨above, by omega, higher⟩

/-- No folder of such a table lies inside itself. -/
theorem Grown.acyclic (grown : Grown folders) (id : Int) :
    ¬Relation.TransGen (ParentOf folders) id id := by
  -- Coming round to itself, a folder would lie deeper than it lies.
  intro cycle
  obtain ⟨_, ⟨folder, member, rfl, -⟩, -⟩ := Relation.TransGen.head'_iff.mp cycle
  obtain ⟨depth, rooted⟩ := grown.rooted folder member
  obtain ⟨above, below, again⟩ := grown.depth_transGen cycle rooted
  rw [grown.depth_unique again rooted] at below
  omega

/-- Every parent of such a table exists. -/
theorem Grown.parent_exists (grown : Grown folders) {folder : Folder} (member : folder ∈ folders)
    {parent : Int} (inside : folder.parentId = some parent) :
    ∃ above ∈ folders, above.id = parent := by
  obtain ⟨depth, rooted⟩ := grown.rooted folder member
  obtain ⟨above, -, rooted⟩ := (grown.rootedAt_inside member inside).mp rooted
  exact rooted.exists_folder

/-- A table has no folder at or below some depth. -/
theorem Grown.depth_bound (grown : Grown folders) :
    ∃ bound, ∀ folder ∈ folders, ∀ depth, RootedAt folders depth folder.id → depth < bound := by
  -- One folder after another, the bound is raised above its depth.
  have each : ∀ some_ : List Folder, some_ ⊆ folders → ∃ bound, ∀ folder ∈ some_, ∀ depth,
      RootedAt folders depth folder.id → depth < bound := by
    intro some_ sub
    induction some_ with
    | nil => exact ⟨0, by simp⟩
    | cons folder rest ih =>
      obtain ⟨bound, below⟩ := ih (List.subset_of_cons_subset sub)
      obtain ⟨own, rooted⟩ := grown.rooted folder (sub List.mem_cons_self)
      refine ⟨max bound (own + 1), ?_⟩
      intro other member depth likewise
      rcases List.mem_cons.mp member with rfl | later
      · rw [grown.depth_unique likewise rooted]
        omega
      · have := below other later depth likewise
        omega
  exact each folders (fun _ member => member)

end Depth

section Ancestors

variable {folders : List Folder}

/-- The ancestry query adds a folder's parent and nothing else. -/
theorem leads_parentsOf {child parent : Int} :
    RecursiveQuery.Leads (parentsOf folders) child parent ↔ ParentOf folders child parent := by
  -- The query looks the folder up by its id and takes the parent of each it finds.
  simp only [RecursiveQuery.Leads, parentsOf, List.mem_filterMap, ParentOf]
  refine exists_congr fun folder => and_congr_right fun _ => ?_
  by_cases same : folder.id = child
  · simp [same]
  · simp [same]

/-- Nothing is added for an id that no folder has. -/
theorem parentsOf_missing {id : Int} (missing : ∀ folder ∈ folders, folder.id ≠ id) :
    parentsOf folders id = [] := by
  rw [parentsOf, List.filterMap_eq_nil_iff]
  intro folder member
  rw [if_neg (missing folder member)]

/-- A folder's parent is all that is added for it. -/
theorem Grown.parentsOf_eq (grown : Grown folders) {folder : Folder} (member : folder ∈ folders) :
    parentsOf folders folder.id = folder.parentId.toList := by
  have unique := grown.unique
  obtain ⟨before, after, rfl⟩ := List.append_of_mem member
  rw [List.map_append, List.map_cons, List.nodup_append] at unique
  obtain ⟨-, rest, apart⟩ := unique
  -- The folders in front of it and behind it have other ids.
  have front : parentsOf before folder.id = [] := by
    refine parentsOf_missing fun other early => ?_
    exact apart other.id (List.mem_map_of_mem early) folder.id List.mem_cons_self
  have back : parentsOf after folder.id = [] := by
    refine parentsOf_missing fun other late same => ?_
    exact (List.nodup_cons.mp rest).1 (same ▸ List.mem_map_of_mem late)
  unfold parentsOf at front back ⊢
  rw [List.filterMap_append, List.filterMap_cons, front, back, if_pos rfl]
  cases folder.parentId <;> rfl

/-- Going up from a folder, the levels give out at the root. -/
theorem Grown.level_ancestors (grown : Grown folders) {depth : Nat} {id : Int}
    (rooted : RootedAt folders depth id) :
    RecursiveQuery.level (parentsOf folders) [id] (depth + 1) = [] := by
  -- The induction goes down from the root, whose level above is empty.
  induction rooted with
  | root member top =>
    rw [RecursiveQuery.level, List.flatMap_singleton, grown.parentsOf_eq member, top]
    rfl
  | child member inside _ ih =>
    rw [RecursiveQuery.level, List.flatMap_singleton, grown.parentsOf_eq member, inside]
    exact ih

/-- What is met on a level above a folder lies as many steps higher. -/
theorem Grown.mem_level_ancestors (grown : Grown folders) {depth d : Nat} {id row : Int}
    (rooted : RootedAt folders depth id)
    (met : row ∈ RecursiveQuery.level (parentsOf folders) [id] d) :
    ∃ above, above + d = depth ∧ RootedAt folders above row := by
  induction d generalizing row with
  | zero =>
    rw [List.mem_singleton.mp met]
    exact ⟨depth, rfl, rooted⟩
  | succ d ih =>
    rw [RecursiveQuery.level_succ, List.mem_flatMap] at met
    -- The row is the parent of one on the level before.
    obtain ⟨before, earlier, step⟩ := met
    obtain ⟨lower, sum, between⟩ := ih earlier
    obtain ⟨above, rfl, higher⟩ :=
      (grown.depth_parentOf (leads_parentsOf.mp step)).mp between
    exact ⟨above, by omega, higher⟩

/-- At most one parent is added at a time. -/
theorem Grown.length_parentsOf (grown : Grown folders) (id : Int) :
    (parentsOf folders id).length ≤ 1 := by
  -- An id names one folder at most, which has one parent at most.
  by_cases known : ∃ folder ∈ folders, folder.id = id
  · obtain ⟨folder, member, rfl⟩ := known
    rw [grown.parentsOf_eq member]
    cases folder.parentId <;> simp
  · rw [parentsOf_missing fun folder member same => known ⟨folder, member, same⟩]
    simp

/-- A list of one row at most has no repetition. -/
theorem nodup_of_le_one {α : Type} {rows : List α} (short : rows.length ≤ 1) : rows.Nodup := by
  match rows, short with
  | [], _ => exact List.nodup_nil
  | [row], _ => exact List.nodup_singleton row

/-- A table with a target and its ancestors answers the query for them. -/
theorem Grown.ancestors_eq (grown : Grown folders) (target : Int) :
    ∃ rows, ancestors folders target = some rows ∧
      RecursiveQuery.Terminates (parentsOf folders) [target] ∧
      ∀ id, id ∈ rows ↔ Relation.ReflTransGen (ParentOf folders) target id := by
  have leads : RecursiveQuery.Leads (parentsOf folders) = ParentOf folders := by
    funext child parent
    exact propext leads_parentsOf
  by_cases known : ∃ folder ∈ folders, folder.id = target
  · obtain ⟨folder, member, rfl⟩ := known
    obtain ⟨depth, rooted⟩ := grown.rooted folder member
    -- The levels give out, so that the query ends with all that was met until then.
    have ends := grown.level_ancestors rooted
    refine ⟨_, RecursiveQuery.run_levels ends ?_, RecursiveQuery.terminates_of_level ends, ?_⟩
    · -- The rows are ids of the table without repetition.
      have each : ∀ d, (RecursiveQuery.level (parentsOf folders) [folder.id] d).Nodup := by
        intro d
        have start : [folder.id].length ≤ 1 := Nat.le_refl 1
        exact nodup_of_le_one (RecursiveQuery.length_level start grown.length_parentsOf d)
      -- A row on two levels would lie at two depths.
      have apart : ∀ d e row, row ∈ RecursiveQuery.level (parentsOf folders) [folder.id] d →
          row ∈ RecursiveQuery.level (parentsOf folders) [folder.id] e → d = e := by
        intro d e row onD onE
        obtain ⟨above, sum, higher⟩ := grown.mem_level_ancestors rooted onD
        obtain ⟨other, likewise, again⟩ := grown.mem_level_ancestors rooted onE
        have same := grown.depth_unique higher again
        omega
      have nodup : (RecursiveQuery.levels (parentsOf folders) [folder.id] (depth + 1)).Nodup :=
        RecursiveQuery.nodup_levels each apart
      have sub : RecursiveQuery.levels (parentsOf folders) [folder.id] (depth + 1) ⊆
          folders.map Folder.id := by
        intro row met
        obtain ⟨d, -, onLevel⟩ := RecursiveQuery.mem_levels.mp met
        obtain ⟨above, -, higher⟩ := grown.mem_level_ancestors rooted onLevel
        obtain ⟨other, stored, rfl⟩ := higher.exists_folder
        exact List.mem_map_of_mem stored
      -- Without repetition the rows are no more than the folders, which is what they are allowed.
      have short := (List.subperm_of_subset nodup sub).length_le
      rw [List.length_map] at short
      omega
    · intro id
      -- To be met on some level is to be led to.
      rw [RecursiveQuery.mem_levels_iff_leads ends, leads]
      simp
  · -- Nothing lies above an id that no folder has.
    have ends : RecursiveQuery.level (parentsOf folders) [target] 1 = [] := by
      rw [RecursiveQuery.level, List.flatMap_singleton]
      exact parentsOf_missing fun folder member same => known ⟨folder, member, same⟩
    refine ⟨_, RecursiveQuery.run_levels ends ?_, RecursiveQuery.terminates_of_level ends, ?_⟩
    · simp [RecursiveQuery.levels]
    · intro id
      rw [RecursiveQuery.mem_levels_iff_leads ends, leads]
      simp

end Ancestors

section Tree

variable {folders : List Folder}

/-- A level of the walk holds the folders of its depth. -/
theorem Grown.mem_level_tree (grown : Grown folders) {depth : Nat} {row : Folder × Nat} :
    row ∈ RecursiveQuery.level (childrenOf folders) (roots folders) depth ↔
      row.2 = depth ∧ row.1 ∈ folders ∧ RootedAt folders depth row.1.id := by
  obtain ⟨folder, d⟩ := row
  -- The induction is on the level, where the first one holds the folders at the root.
  induction depth generalizing folder d with
  | zero =>
    simp only [RecursiveQuery.level, roots, List.mem_map, List.mem_filter, decide_eq_true_eq,
      Prod.mk.injEq]
    refine ⟨?_, ?_⟩
    · rintro ⟨other, ⟨member, top⟩, rfl, rfl⟩
      exact ⟨rfl, member, .root member top⟩
    · rintro ⟨rfl, member, rooted⟩
      cases inside : folder.parentId with
      | none => exact ⟨folder, ⟨member, inside⟩, rfl, rfl⟩
      | some parent =>
        obtain ⟨above, sum, -⟩ := (grown.rootedAt_inside member inside).mp rooted
        omega
  | succ depth ih =>
    rw [RecursiveQuery.level_succ, List.mem_flatMap]
    simp only [childrenOf, List.mem_map, List.mem_filter, decide_eq_true_eq, Prod.mk.injEq]
    refine ⟨?_, ?_⟩
    · -- What is expanded from a folder of the level lies one deeper.
      rintro ⟨⟨above, e⟩, onLevel, other, ⟨member, inside⟩, rfl, rfl⟩
      obtain ⟨rfl, -, rooted⟩ := (ih above e).mp onLevel
      exact ⟨rfl, member, .child member inside rooted⟩
    · rintro ⟨rfl, member, rooted⟩
      cases inside : folder.parentId with
      | none =>
        have := (grown.rootedAt_top member inside).mp rooted
        omega
      | some parent =>
        -- The folder's parent is on the level above, by the induction.
        obtain ⟨_, ⟨⟩, higher⟩ := (grown.rootedAt_inside member inside).mp rooted
        obtain ⟨above, stored, rfl⟩ := higher.exists_folder
        exact ⟨(above, depth), (ih above depth).mpr ⟨rfl, stored, higher⟩, folder,
          ⟨member, inside⟩, rfl, rfl⟩

/-- The table holds no folder twice. -/
theorem Grown.nodup (grown : Grown folders) : folders.Nodup := grown.unique.of_map _

/-- The walk answers, and its rows are the folders with their depths. -/
theorem Grown.walk_eq (grown : Grown folders) :
    ∃ rows, RecursiveQuery.run (childrenOf folders) folders.length (roots folders) = some rows ∧
      (rows.map Prod.fst).Perm folders ∧
      ∀ row ∈ rows, RootedAt folders row.2 row.1.id := by
  obtain ⟨bound, below⟩ := grown.depth_bound
  -- Below the bound there is no level any more.
  have ends : RecursiveQuery.level (childrenOf folders) (roots folders) bound = [] := by
    rw [List.eq_nil_iff_forall_not_mem]
    intro row onLevel
    obtain ⟨-, member, rooted⟩ := grown.mem_level_tree.mp onLevel
    exact Nat.lt_irrefl _ (below row.1 member bound rooted)
  -- Every folder is on the level of its depth.
  have mem : ∀ row, row ∈ RecursiveQuery.levels (childrenOf folders) (roots folders) bound ↔
      row.1 ∈ folders ∧ RootedAt folders row.2 row.1.id := by
    intro row
    rw [RecursiveQuery.mem_levels]
    refine ⟨?_, ?_⟩
    · rintro ⟨d, -, onLevel⟩
      obtain ⟨rfl, member, rooted⟩ := grown.mem_level_tree.mp onLevel
      exact ⟨member, rooted⟩
    · rintro ⟨member, rooted⟩
      exact ⟨row.2, below row.1 member row.2 rooted, grown.mem_level_tree.mpr ⟨rfl, member, rooted⟩⟩
  -- No row is met twice, as a folder is expanded from its parent alone.
  have nodup : (RecursiveQuery.levels (childrenOf folders) (roots folders) bound).Nodup := by
    refine RecursiveQuery.nodup_levels (RecursiveQuery.nodup_level ?_ ?_ ?_) ?_
    · exact (grown.nodup.filter _).map fun _ _ same => (Prod.mk.inj same).1
    · intro row
      exact (grown.nodup.filter _).map fun _ _ same => (Prod.mk.inj same).1
    · -- A child has one parent, so it is expanded from one row of a level.
      intro depth row other next onLevel likewise inRow inOther
      obtain ⟨rfl, member, -⟩ := grown.mem_level_tree.mp onLevel
      obtain ⟨same, stored, -⟩ := grown.mem_level_tree.mp likewise
      simp only [childrenOf, List.mem_map, List.mem_filter, decide_eq_true_eq] at inRow inOther
      obtain ⟨child, ⟨-, inside⟩, rfl⟩ := inRow
      obtain ⟨_, ⟨-, within⟩, again⟩ := inOther
      obtain ⟨rfl, -⟩ := Prod.mk.inj again
      rw [inside, Option.some.injEq] at within
      exact Prod.ext (grown.folder_inj member stored within) same.symm
    · intro d e row onD onE
      exact (grown.mem_level_tree.mp onD).1.symm.trans (grown.mem_level_tree.mp onE).1
  have perm : ((RecursiveQuery.levels (childrenOf folders) (roots folders) bound).map
      Prod.fst).Perm folders := by
    refine (List.perm_ext_iff_of_nodup (List.Nodup.map_on ?_ nodup) grown.nodup).mpr ?_
    · -- A folder has one depth, so it is in one row.
      intro row met other likewise same
      refine Prod.ext same (grown.depth_unique ((mem row).mp met).2 ?_)
      rw [same]
      exact ((mem other).mp likewise).2
    · intro folder
      rw [List.mem_map]
      refine ⟨?_, ?_⟩
      · rintro ⟨row, met, rfl⟩
        exact ((mem row).mp met).1
      · intro member
        obtain ⟨depth, rooted⟩ := grown.rooted folder member
        exact ⟨(folder, depth), (mem _).mpr ⟨member, rooted⟩, rfl⟩
  refine ⟨_, RecursiveQuery.run_levels ends ?_, perm, fun row met => ((mem row).mp met).2⟩
  -- So there are as many rows as folders, which is what they are allowed.
  have length := perm.length_eq
  rw [List.length_map] at length
  omega

/-- A folder in front of another one is not deeper. -/
theorem depth_le_of_treeOrder {row other : Folder × Nat} (ordered : treeOrder row other = true) :
    row.2 ≤ other.2 := by
  rcases Prod.Lex.le_iff.mp (of_decide_eq_true ordered) with below | ⟨same, -⟩
  · exact Nat.le_of_lt below
  · exact Nat.le_of_eq same

/-- The rows of the tree come in its order. -/
theorem pairwise_treeOrder (rows : List (Folder × Nat)) :
    (rows.mergeSort treeOrder).Pairwise fun row other => treeOrder row other = true := by
  -- The order compares keys of a linear order, so it is transitive and total.
  apply List.pairwise_mergeSort
  · intro row middle other first second
    exact decide_eq_true ((of_decide_eq_true first).trans (of_decide_eq_true second))
  · intro row other
    simpa [treeOrder] using le_total (treeKey row) (treeKey other)

/-- The tree lists every folder once, and each behind the folder it lies in. -/
theorem Grown.tree_eq (grown : Grown folders) :
    ∃ listed, tree folders = some listed ∧ listed.Perm folders ∧
      ∀ before folder after, listed = before ++ folder :: after →
        ∀ parent, folder.parentId = some parent → ∃ above ∈ before, above.id = parent := by
  obtain ⟨rows, walked, perm, depths⟩ := grown.walk_eq
  unfold tree
  rw [walked, Option.map_some]
  refine ⟨_, rfl, ((List.mergeSort_perm rows _).map Prod.fst).trans perm, ?_⟩
  -- The rows are listed in the order of their depths.
  have sorted := pairwise_treeOrder rows
  have same := List.mergeSort_perm rows treeOrder
  generalize rows.mergeSort _ = ordered at sorted same
  intro before folder after split parent inside
  obtain ⟨front, rest, rfl, rfl, behind⟩ := List.map_eq_append_iff.mp split
  obtain ⟨row, back, rfl, rfl, rfl⟩ := List.map_eq_cons_iff.mp behind
  have rooted := depths row (same.subset (by simp))
  have member : row.1 ∈ folders :=
    perm.subset (List.mem_map_of_mem (same.subset (by simp)))
  obtain ⟨higher, deeper, above⟩ := (grown.rootedAt_inside member inside).mp rooted
  obtain ⟨found, stored, rfl⟩ := above.exists_folder
  -- Every folder is in some row, and the parent's row cannot be this one or behind it.
  obtain ⟨own, listed, rfl⟩ := List.mem_map.mp (perm.symm.subset stored)
  have depth := grown.depth_unique (depths own listed) above
  rcases List.mem_append.mp (same.symm.subset listed) with front' | behind'
  · exact ⟨own.1, List.mem_map_of_mem front', rfl⟩
  · rcases List.mem_cons.mp behind' with rfl | later
    · omega
    · -- Behind this row the depths do not fall, and the parent's is smaller.
      have ordered := (List.pairwise_cons.mp (List.pairwise_append.mp sorted).2.1).1 own later
      have := depth_le_of_treeOrder ordered
      omega

end Tree

section Calls

variable {now : Int} {db after : Database}

/-- The schema accepts a folder whose name is free among its siblings and whose parent exists. -/
theorem checkFolder_eq_ok_iff {folder : Folder} :
    checkFolder db folder = .ok () ↔
      (∀ other ∈ db.folders, siblingKey other.parentId = siblingKey folder.parentId →
        nocase other.name = nocase folder.name → other.id = folder.id) ∧
      ∀ parent, folder.parentId = some parent →
        parent = folder.id ∨ ∃ known ∈ db.folders, known.id = parent := by
  -- The two guards are about the siblings and about the parent.
  unfold checkFolder
  rw [ite_error_eq_ok, ite_error_eq_ok, and_iff_left rfl]
  refine and_congr ?_ ?_
  · simp only [List.any_eq_true, Bool.and_eq_true, bne_iff_ne, beq_iff_eq, not_exists, not_and,
      and_imp]
    refine forall₂_congr fun other _ => ?_
    exact ⟨fun apart key name => not_not.mp fun differs => apart differs key name,
      fun same differs key name => differs (same key name)⟩
  · cases folder.parentId with
    | none => simp
    | some parent => simp [or_iff_not_imp_left]

/-- A folder lies as deep in another table that keeps the parents of its own. -/
theorem RootedAt.transfer {folders others : List Folder} {depth : Nat} {id : Int}
    (kept : ∀ folder ∈ folders, ∃ other ∈ others, other.id = folder.id ∧
      other.parentId = folder.parentId) (rooted : RootedAt folders depth id) :
    RootedAt others depth id := by
  -- Each folder on the way up has its counterpart with the same parent.
  induction rooted with
  | root member top =>
    obtain ⟨other, there, same, parent⟩ := kept _ member
    rw [← same]
    exact .root there (parent.trans top)
  | child member inside _ ih =>
    obtain ⟨other, there, same, parent⟩ := kept _ member
    rw [← same]
    exact .child there (parent.trans inside) ih

/-- The id of an insert is above every id there is. -/
theorem lt_nextFolderId (folders : List Folder) :
    0 < nextFolderId folders ∧ ∀ folder ∈ folders, folder.id < nextFolderId folders := by
  -- The next id is one above the largest, or above zero in an empty table.
  obtain ⟨low, high⟩ := le_foldl_max Folder.id folders 0
  unfold nextFolderId
  refine ⟨by omega, ?_⟩
  intro folder member
  have := high folder member
  omega

/-- A table whose ids are unique stays so with a folder under the next id. -/
theorem nodup_ids_append {folders : List Folder} {folder : Folder}
    (unique : (folders.map Folder.id).Nodup) (new : folder.id = nextFolderId folders) :
    ((folders ++ [folder]).map Folder.id).Nodup := by
  rw [List.map_append, List.nodup_append]
  refine ⟨unique, List.nodup_singleton _, ?_⟩
  -- The new id is above every one that is there.
  intro id stored other last same
  obtain ⟨old, member, rfl⟩ := List.mem_map.mp stored
  rw [List.map_singleton, List.mem_singleton] at last
  have := (lt_nextFolderId folders).2 old member
  omega

/-- A creation inserts a folder that the schema accepts, under the name without its blanks. -/
theorem createFolder_eq {parent : Option Int} {name : String} {id : Int}
    (created : createFolder now db parent name = .ok (id, after)) :
    ∃ folder : Folder, folder.id = nextFolderId db.folders ∧ folder.parentId = parent ∧
      checkFolder db folder = .ok () ∧ after = { db with folders := db.folders ++ [folder] } := by
  obtain ⟨trimmed, -, created⟩ := bind_eq_ok created
  obtain ⟨_, accepted, created⟩ := bind_eq_ok created
  cases created
  exact ⟨_, rfl, rfl, accepted, rfl⟩

/-- A new folder in another one, or at the root, keeps the forest. -/
theorem Grown.append {folder : Folder} (grown : Grown db.folders)
    (new : folder.id = nextFolderId db.folders) (elsewhere : folder.parentId ≠ some folder.id)
    (accepted : checkFolder db folder = .ok ()) : Grown (db.folders ++ [folder]) := by
  obtain ⟨free, known⟩ := checkFolder_eq_ok_iff.mp accepted
  have kept : ∀ old ∈ db.folders, ∃ other ∈ db.folders ++ [folder], other.id = old.id ∧
      other.parentId = old.parentId :=
    fun old member => ⟨old, List.mem_append_left _ member, rfl, rfl⟩
  constructor
  case unique => exact nodup_ids_append grown.unique new
  case positive =>
    intro old member
    -- The new id is above all the others, and above zero.
    rcases List.mem_append.mp member with earlier | last
    · exact grown.positive old earlier
    · rw [List.mem_singleton.mp last, new]
      exact (lt_nextFolderId db.folders).1
  case rooted =>
    intro old member
    rcases List.mem_append.mp member with earlier | last
    · -- An older folder lies where it did, among more.
      obtain ⟨depth, rooted⟩ := grown.rooted old earlier
      exact ⟨depth, rooted.transfer kept⟩
    · obtain rfl := List.mem_singleton.mp last
      cases inside : old.parentId with
      | none => exact ⟨0, .root member inside⟩
      | some parent =>
        -- The new folder's parent is an older one, and lies at some depth.
        rcases known parent inside with own | ⟨above, stored, rfl⟩
        · exact absurd (own ▸ inside) elsewhere
        · obtain ⟨depth, rooted⟩ := grown.rooted above stored
          exact ⟨depth + 1, .child member inside (rooted.transfer kept)⟩
  case siblings =>
    intro old member other also key name
    -- Two older folders were siblings before, and the new name is free.
    rcases List.mem_append.mp member with earlier | last
    · rcases List.mem_append.mp also with likewise | last
      · exact grown.siblings old earlier other likewise key name
      · obtain rfl := List.mem_singleton.mp last
        exact free old earlier key name
    · obtain rfl := List.mem_singleton.mp last
      rcases List.mem_append.mp also with likewise | last
      · exact (free other likewise key.symm name.symm).symm
      · rw [List.mem_singleton.mp last]

/-- A successful update found its folder, was accepted, and rewrote that folder alone. -/
theorem updateFolder_eq {id : Int} {rewrite : Folder → Folder}
    (updated : updateFolder db id rewrite = .ok after) :
    ∃ folder ∈ db.folders, folder.id = id ∧ checkFolder db (rewrite folder) = .ok () ∧
      after = { db with
        folders := db.folders.map fun other =>
          if other.id = id then rewrite other else other } := by
  unfold updateFolder at updated
  split at updated
  · cases updated
  · -- The folder is there, and only the schema can refuse the rewriting.
    rename_i folder found
    obtain ⟨_, accepted, updated⟩ := bind_eq_ok updated
    cases updated
    exact ⟨folder, List.mem_of_find?_eq_some found, by simpa using List.find?_some found,
      accepted, rfl⟩

/-- The table with one folder rewritten. -/
def rewritten (folders : List Folder) (id : Int) (rewrite : Folder → Folder) : List Folder :=
  folders.map fun other => if other.id = id then rewrite other else other

/-- A rewritten table holds its old folders, with one of them rewritten. -/
theorem mem_rewritten {folders : List Folder} {id : Int} {rewrite : Folder → Folder}
    {folder : Folder} :
    folder ∈ rewritten folders id rewrite ↔
      (∃ old ∈ folders, old.id = id ∧ folder = rewrite old) ∨
      (folder ∈ folders ∧ folder.id ≠ id) := by
  unfold rewritten
  rw [List.mem_map]
  refine ⟨?_, ?_⟩
  · rintro ⟨old, member, rfl⟩
    -- Every old folder is either rewritten or kept.
    by_cases same : old.id = id
    · exact .inl ⟨old, member, same, if_pos same⟩
    · rw [if_neg same]
      exact .inr ⟨member, same⟩
  · rintro (⟨old, member, same, rfl⟩ | ⟨member, differs⟩)
    · exact ⟨old, member, if_pos same⟩
    · exact ⟨folder, member, if_neg differs⟩

/-- Folders that are rewritten under their own ids leave the list of ids as it was. -/
theorem ids_rewritten {folders : List Folder} {id : Int} {rewrite : Folder → Folder}
    (named : ∀ other, (rewrite other).id = other.id) :
    (rewritten folders id rewrite).map Folder.id = folders.map Folder.id := by
  -- Whether a folder is the one that is rewritten or not, its id stays.
  unfold rewritten
  rw [List.map_map]
  refine List.map_congr_left fun other _ => ?_
  show (if other.id = id then rewrite other else other).id = other.id
  split
  · exact named other
  · rfl

/-- A folder that is rewritten under its own id keeps the forest, if all stay below the root. -/
theorem Grown.rewrite {folder : Folder} {rewrite : Folder → Folder} (grown : Grown db.folders)
    (member : folder ∈ db.folders) (named : ∀ other, (rewrite other).id = other.id)
    (accepted : checkFolder db (rewrite folder) = .ok ())
    (rooted : ∀ other ∈ db.folders,
      ∃ depth, RootedAt (rewritten db.folders folder.id rewrite) depth other.id) :
    Grown (rewritten db.folders folder.id rewrite) := by
  obtain ⟨free, -⟩ := checkFolder_eq_ok_iff.mp accepted
  rw [named] at free
  -- The rewritten folder is one folder, since ids are unique.
  have split : ∀ other ∈ rewritten db.folders folder.id rewrite,
      other = rewrite folder ∨ (other ∈ db.folders ∧ other.id ≠ folder.id) := by
    intro other there
    rcases mem_rewritten.mp there with ⟨old, stored, same, rfl⟩ | kept
    · exact .inl (congrArg rewrite (grown.folder_inj stored member same))
    · exact .inr kept
  constructor
  case unique =>
    rw [ids_rewritten named]
    exact grown.unique
  case positive =>
    intro other there
    rcases split other there with rfl | ⟨stored, -⟩
    · rw [named]
      exact grown.positive folder member
    · exact grown.positive other stored
  case rooted =>
    intro other there
    rcases split other there with rfl | ⟨stored, -⟩
    · rw [named]
      exact rooted folder member
    · exact rooted other stored
  case siblings =>
    intro left here right there key name
    -- The rewritten folder was accepted beside its siblings, and the others were so before.
    rcases split left here with rfl | ⟨storedLeft, apartLeft⟩
    · rcases split right there with rfl | ⟨storedRight, apartRight⟩
      · rfl
      · exact absurd (free right storedRight key.symm name.symm) apartRight
    · rcases split right there with rfl | ⟨storedRight, apartRight⟩
      · exact absurd (free left storedLeft key name) apartLeft
      · exact grown.siblings left storedLeft right storedRight key name

/-- A rename keeps the forest. -/
theorem Grown.rename {id : Int} {name : String} (grown : Grown db.folders)
    (renamed : renameFolder now db id name = .ok after) : Grown after.folders := by
  obtain ⟨trimmed, -, updated⟩ := bind_eq_ok renamed
  obtain ⟨folder, member, rfl, accepted, rfl⟩ := updateFolder_eq updated
  refine grown.rewrite member (fun _ => rfl) accepted ?_
  -- Every folder keeps its parent, so all lie as deep as before.
  have kept : ∀ old ∈ db.folders, ∃ other ∈ rewritten db.folders folder.id
      fun other => other.renamed now trimmed,
      other.id = old.id ∧ other.parentId = old.parentId := by
    intro old stored
    by_cases same : old.id = folder.id
    · exact ⟨_, mem_rewritten.mpr (.inl ⟨old, stored, same, rfl⟩), rfl, rfl⟩
    · exact ⟨old, mem_rewritten.mpr (.inr ⟨stored, same⟩), rfl, rfl⟩
  intro other stored
  obtain ⟨depth, rooted⟩ := grown.rooted other stored
  exact ⟨depth, rooted.transfer kept⟩

/-- A folder that does not lie in the moved one lies where it did. -/
theorem RootedAt.beside {folders : List Folder} {id : Int} {rewrite : Folder → Folder}
    {depth : Nat} {other : Int} (rooted : RootedAt folders depth other)
    (beside : ¬Relation.ReflTransGen (ParentOf folders) other id) :
    RootedAt (rewritten folders id rewrite) depth other := by
  -- The induction goes down from the root, past folders that are not rewritten.
  induction rooted with
  | @root folder member top =>
    have differs : folder.id ≠ id := fun same => beside (same ▸ .refl)
    exact .root (mem_rewritten.mpr (.inr ⟨member, differs⟩)) top
  | @child folder parent depth member inside _ ih =>
    have differs : folder.id ≠ id := fun same => beside (same ▸ .refl)
    refine .child (mem_rewritten.mpr (.inr ⟨member, differs⟩)) inside (ih ?_)
    exact fun above => beside (.head ⟨folder, member, rfl, inside⟩ above)

/-- A folder that is moved to the root, or into one that does not lie in it, keeps the forest. -/
theorem Grown.move {id : Int} {to_ : Option Int} (grown : Grown db.folders)
    (outside : ∀ target, to_ = some target → ¬Relation.ReflTransGen (ParentOf db.folders) target id)
    (moved : updateFolder db id (fun folder => folder.moved now to_) = .ok after) :
    Grown after.folders := by
  obtain ⟨folder, member, rfl, accepted, rfl⟩ := updateFolder_eq moved
  refine grown.rewrite member (fun _ => rfl) accepted ?_
  -- The moved folder comes to lie in its new parent, which lies where it did.
  have placed : ∃ depth, RootedAt
      (rewritten db.folders folder.id fun other => other.moved now to_) depth folder.id := by
    have there : folder.moved now to_ ∈
        rewritten db.folders folder.id fun other => other.moved now to_ :=
      mem_rewritten.mpr (.inl ⟨folder, member, rfl, rfl⟩)
    cases to_ with
    | none => exact ⟨0, @RootedAt.root _ (folder.moved now none) there rfl⟩
    | some target =>
      have apart := outside target rfl
      obtain ⟨-, known⟩ := checkFolder_eq_ok_iff.mp accepted
      -- The new parent is another folder, as the moved one does not lie in itself.
      rcases known target rfl with own | ⟨above, stored, rfl⟩
      · have own : target = folder.id := own
        exact absurd (own ▸ .refl) apart
      · obtain ⟨depth, rooted⟩ := grown.rooted above stored
        exact ⟨depth + 1, @RootedAt.child _ (folder.moved now (some above.id)) _ _ there rfl
          (rooted.beside apart)⟩
  -- The induction goes down from the root, and below the moved folder all follows it.
  have follows : ∀ {depth : Nat} {id : Int}, RootedAt db.folders depth id → ∃ depth, RootedAt
      (rewritten db.folders folder.id fun other => other.moved now to_) depth id := by
    intro depth id rooted
    induction rooted with
    | @root other stored top =>
      by_cases same : other.id = folder.id
      · exact same ▸ placed
      · exact ⟨0, .root (mem_rewritten.mpr (.inr ⟨stored, same⟩)) top⟩
    | @child other parent depth stored inside _ ih =>
      by_cases same : other.id = folder.id
      · exact same ▸ placed
      · obtain ⟨above, rooted⟩ := ih
        exact ⟨above + 1, .child (mem_rewritten.mpr (.inr ⟨stored, same⟩)) inside rooted⟩
  intro other stored
  obtain ⟨depth, rooted⟩ := grown.rooted other stored
  exact follows rooted

/-- Dropping elements until nothing more is dropped takes no more rounds than there are elements. -/
theorem iterate_sublist_fixed {α : Type} {drop : List α → List α}
    (shrinks : ∀ rows, (drop rows).Sublist rows) (rounds : Nat) (rows : List α)
    (enough : rows.length ≤ rounds) : drop (drop^[rounds] rows) = drop^[rounds] rows := by
  induction rounds generalizing rows with
  | zero =>
    obtain rfl : rows = [] := List.length_eq_zero_iff.mp (by omega)
    exact List.sublist_nil.mp (shrinks [])
  | succ rounds ih =>
    rw [Function.iterate_succ_apply]
    -- A round that drops nothing is the last one that matters.
    by_cases shorter : (drop rows).length < rows.length
    · exact ih (drop rows) (by omega)
    · have same : drop rows = rows :=
        (shrinks rows).eq_of_length_le (Nat.not_lt.mp shorter)
      rw [same, Function.iterate_fixed same]
      exact same

/-- Dropping elements leaves some of them in their order. -/
theorem iterate_sublist {α : Type} {drop : List α → List α}
    (shrinks : ∀ rows, (drop rows).Sublist rows) (rounds : Nat) (rows : List α) :
    (drop^[rounds] rows).Sublist rows := by
  -- Each round leaves some of what the rounds before it left.
  induction rounds generalizing rows with
  | zero => exact List.Sublist.refl rows
  | succ rounds ih =>
    rw [Function.iterate_succ_apply]
    exact (ih (drop rows)).trans (shrinks rows)

/-- A cascade drops folders, and leaves none whose parent it dropped. -/
theorem cascade_closed (folders : List Folder) (id : Int) :
    (cascade folders id).Sublist folders ∧
      ∀ folder ∈ cascade folders id, ∀ parent, folder.parentId = some parent →
        ∃ known ∈ cascade folders id, known.id = parent := by
  have shrinks : ∀ rows, (dropOrphans rows).Sublist rows := fun rows => List.filter_sublist
  have kept : (folders.filter fun folder => folder.id ≠ id).Sublist folders := List.filter_sublist
  refine ⟨(iterate_sublist shrinks _ _).trans kept, ?_⟩
  -- As many rounds as there are folders leave nothing to drop.
  have fixed := iterate_sublist_fixed shrinks folders.length _ kept.length_le
  intro folder member parent inside
  change folder ∈ dropOrphans^[folders.length] _ at member
  rw [← fixed, dropOrphans, List.mem_filter, inside, Option.all_some, List.any_eq_true] at member
  obtain ⟨-, known, stored, same⟩ := member
  exact ⟨known, stored, by simpa using same⟩

/-- A deletion keeps the forest. -/
theorem Grown.delete {id : Int} (grown : Grown db.folders)
    (deleted : deleteFolder db id = .ok after) : Grown after.folders := by
  unfold deleteFolder at deleted
  split at deleted
  · cases deleted
    obtain ⟨sub, closed⟩ := cascade_closed db.folders id
    refine ⟨grown.unique.sublist (sub.map _), fun folder member => grown.positive folder
      (sub.subset member), ?_, fun folder member other likewise => grown.siblings folder
      (sub.subset member) other (sub.subset likewise)⟩
    -- A folder that is left has its parents left, all the way up to the root.
    have left : ∀ {depth : Nat} {id' : Int}, RootedAt db.folders depth id' →
        ∀ folder ∈ cascade db.folders id, folder.id = id' →
          RootedAt (cascade db.folders id) depth id' := by
      intro depth id' rooted
      induction rooted with
      | root stored top =>
        intro folder member same
        obtain rfl := grown.folder_inj (sub.subset member) stored same
        exact .root member top
      | child stored inside _ ih =>
        intro folder member same
        -- A folder goes with its parent, so one that is left has its parent left.
        obtain rfl := grown.folder_inj (sub.subset member) stored same
        obtain ⟨above, known, named⟩ := closed folder member _ inside
        exact .child member inside (ih above known named)
    intro folder member
    obtain ⟨depth, rooted⟩ := grown.rooted folder (sub.subset member)
    exact ⟨depth, left rooted folder member rfl⟩
  · cases deleted

end Calls

section Forests

variable {db : Database}

/-- The folders of a store form a forest, and every walk over it ends as it should. -/
structure Forest (db : Database) : Prop where
  /-- No folder lies inside itself. -/
  acyclic : ∀ id, ¬Relation.TransGen (ParentOf db.folders) id id
  parents : ∀ folder ∈ db.folders, ∀ parent, folder.parentId = some parent →
    ∃ above ∈ db.folders, above.id = parent
  /-- Siblings differ in more than the case of their names, at the root as well. -/
  siblings : db.folders.Pairwise fun folder other =>
    folder.parentId = other.parentId → nocase folder.name ≠ nocase other.name
  /-- The ancestors of any target are found in finitely many steps. -/
  ancestry : ∀ target, RecursiveQuery.Terminates (parentsOf db.folders) [target]
  /-- A move is refused as a cycle exactly when it would make one. -/
  cycles : ∀ now id to_, ∃ result, reparent now db id to_ = some result ∧
    ((∃ target, result = .error (.folderCycle id target)) ↔
      to_ = some id ∨ ∃ target, to_ = some target ∧
      Relation.TransGen (ParentOf db.folders) target id)
  /-- A move that is refused changes nothing. -/
  unmoved : ∀ now id to_ reason, reparent now db id to_ = some (.error reason) →
    folderStep db (now, .reparent id to_) = some db
  /-- The tree lists every folder once, and each behind its parent. -/
  listing : ∃ listed, tree db.folders = some listed ∧ listed.Perm db.folders ∧
    ∀ before folder after, listed = before ++ folder :: after →
      ∀ parent, folder.parentId = some parent → ∃ above ∈ before, above.id = parent

/-- No folder is created in the one that the creation itself is about to make. -/
def OutsideItself (db : Database) (call : Int × FolderCall) : Prop :=
  ∀ parent name, call.2 = .create (some parent) name → parent = nextFolderId db.folders →
    (Text.trim name).isEmpty = true

/-- Moving a folder never reports a cycle by itself. -/
theorem updateFolder_not_cycle {id other target : Int} {rewrite : Folder → Folder} :
    updateFolder db id rewrite ≠ .error (.folderCycle other target) := by
  unfold updateFolder
  split
  · simp
  · intro failed
    rename_i folder _
    -- The schema complains of names and of parents alone.
    unfold checkFolder at failed
    split at failed
    · cases failed
    · split at failed
      · cases failed
      · cases failed

/-- A move answers, and reports exactly the moves that would make a cycle. -/
theorem Grown.reparent_eq (grown : Grown db.folders) (now id : Int) (to_ : Option Int) :
    ∃ result, reparent now db id to_ = some result ∧
      ((∃ target, result = .error (.folderCycle id target)) ↔
        to_ = some id ∨
          ∃ target, to_ = some target ∧ Relation.TransGen (ParentOf db.folders) target id) ∧
      ((¬∃ target, result = .error (.folderCycle id target)) →
        result = updateFolder db id fun folder => folder.moved now to_) := by
  unfold reparent
  by_cases itself : some id = to_
  · rw [if_pos itself]
    exact ⟨_, rfl, iff_of_true ⟨id, rfl⟩ (.inl itself.symm), fun never => absurd ⟨id, rfl⟩ never⟩
  · rw [if_neg itself]
    have other : to_ ≠ some id := fun same => itself same.symm
    cases to_ with
    | none =>
      -- Moving to the root makes no cycle.
      refine ⟨_, rfl, iff_of_false ?_ ?_, fun _ => rfl⟩
      · rintro ⟨target, failed⟩
        exact updateFolder_not_cycle failed
      · simp
    | some target =>
      -- The target's ancestors are asked for, and the query answers.
      obtain ⟨rows, found, -, mem⟩ := grown.ancestors_eq target
      dsimp only
      rw [found]
      have differs : target ≠ id := fun same => other (congrArg some same)
      -- As the target is another folder, it lies in the moved one by a step at least.
      have inside : id ∈ rows ↔ Relation.TransGen (ParentOf db.folders) target id := by
        rw [mem, Relation.reflTransGen_iff_eq_or_transGen]
        exact or_iff_right fun same => differs same.symm
      by_cases lies : id ∈ rows
      · refine ⟨_, by rw [Option.map_some, if_pos lies], ?_,
          fun never => absurd ⟨target, rfl⟩ never⟩
        exact iff_of_true ⟨target, rfl⟩ (.inr ⟨target, rfl, inside.mp lies⟩)
      · refine ⟨_, by rw [Option.map_some, if_neg lies], iff_of_false ?_ ?_, fun _ => rfl⟩
        · rintro ⟨_, failed⟩
          exact updateFolder_not_cycle failed
        · rintro (same | ⟨_, ⟨⟩, within⟩)
          · exact other same
          · exact lies (inside.mpr within)

/-- A table that every call has kept is a forest. -/
theorem Grown.forest (grown : Grown db.folders) : Forest db where
  -- Each part of being a forest has its own lemma about a table that grew.
  acyclic := grown.acyclic
  parents _ member _ inside := grown.parent_exists member inside
  siblings := by
    refine grown.nodup.pairwise_of_forall_ne ?_
    intro folder member other likewise differs parent name
    exact differs (grown.folder_inj member likewise
      (grown.siblings folder member other likewise (congrArg siblingKey parent) name))
  ancestry target := by
    obtain ⟨-, -, ends, -⟩ := grown.ancestors_eq target
    exact ends
  cycles now id to_ := by
    obtain ⟨result, moved, iff, -⟩ := grown.reparent_eq now id to_
    exact ⟨result, moved, iff⟩
  unmoved now id to_ reason failed := by
    simp [folderStep, failed, settle]
  listing := grown.tree_eq

/-- A store without folders is a forest. -/
theorem grown_fresh : Grown Database.fresh.folders :=
  ⟨List.nodup_nil, by simp [Database.fresh], by simp [Database.fresh], by simp [Database.fresh]⟩

/-- A call that creates nothing inside itself keeps the forest. -/
theorem Grown.step {now : Int} {call : FolderCall} {after : Database} (grown : Grown db.folders)
    (taken : folderStep db (now, call) = some after) (outside : OutsideItself db (now, call)) :
    Grown after.folders := by
  -- A call that fails leaves the table, and one that goes through keeps the forest.
  cases call with
  | create parent name =>
    obtain rfl := Option.some.inj taken
    cases created : createFolder now db parent name with
    | error reason => exact grown
    | ok result =>
      obtain ⟨id, after⟩ := result
      obtain ⟨folder, new, inside, accepted, rfl⟩ := createFolder_eq created
      refine grown.append new ?_ accepted
      rw [inside, new]
      rintro rfl
      -- A name that was stored is not blank.
      have blank := outside _ name rfl rfl
      simp [createFolder, folderName, blank, bind, Except.bind] at created
  | rename id name =>
    obtain rfl := Option.some.inj taken
    cases renamed : renameFolder now db id name with
    | error reason => exact grown
    | ok after => exact grown.rename renamed
  | reparent id to_ =>
    -- A move is answered, and refused exactly when it would make a cycle.
    obtain ⟨result, moved, iff, otherwise⟩ := grown.reparent_eq now id to_
    simp only [folderStep, moved, Option.map_some, Option.some.injEq] at taken
    subst taken
    cases result with
    | error reason => exact grown
    | ok after =>
      have done := otherwise (by simp)
      refine grown.move ?_ done.symm
      rintro target rfl above
      -- Had the target lain in the folder, the move would have been refused.
      have refused := iff.mpr (by
        rcases Relation.reflTransGen_iff_eq_or_transGen.mp above with same | within
        · exact .inl (congrArg some same.symm)
        · exact .inr ⟨target, rfl, within⟩)
      obtain ⟨_, failed⟩ := refused
      cases failed
  | delete id =>
    obtain rfl := Option.some.inj taken
    cases deleted : deleteFolder db id with
    | error reason => exact grown
    | ok after => exact grown.delete deleted

/-- A folder that is created inside itself lies inside itself. -/
theorem Grown.not_forest {now : Int} {call : FolderCall} {after : Database}
    (grown : Grown db.folders) (taken : folderStep db (now, call) = some after)
    (itself : ¬OutsideItself db (now, call)) : ¬Forest after := by
  simp only [OutsideItself, not_forall] at itself
  obtain ⟨parent, name, rfl, rfl, named⟩ := itself
  obtain rfl := Option.some.inj taken
  obtain ⟨positive, fresh⟩ := lt_nextFolderId db.folders
  -- Nothing lies in the new folder yet, so its name is free, and its own row is its parent.
  have accepted : ∀ folder : Folder, folder.id = nextFolderId db.folders →
      folder.parentId = some (nextFolderId db.folders) → checkFolder db folder = .ok () := by
    intro folder new inside
    refine checkFolder_eq_ok_iff.mpr ⟨?_, ?_⟩
    · intro other member key
      rw [inside] at key
      cases within : other.parentId with
      | none =>
        simp only [within, siblingKey, Option.getD_none, Option.getD_some] at key
        omega
      | some above =>
        simp only [within, siblingKey, Option.getD_some] at key
        obtain ⟨known, stored, rfl⟩ := grown.parent_exists member within
        have := fresh known stored
        omega
    · intro parent same
      rw [inside, Option.some.injEq] at same
      exact .inl (same ▸ new.symm)
  cases created : createFolder now db (some (nextFolderId db.folders)) name with
  | error reason =>
    -- The name is not blank, and the row is accepted, so the creation succeeds.
    have trimmed : folderName name = .ok (Text.trim name) := if_neg named
    simp only [createFolder, trimmed, bind, Except.bind] at created
    rw [accepted _ rfl rfl] at created
    cases created
  | ok result =>
    obtain ⟨id, after⟩ := result
    -- The folder that was stored is its own parent.
    obtain ⟨folder, new, inside, -, rfl⟩ := createFolder_eq created
    intro forest
    have stored : folder ∈ db.folders ++ [folder] := by simp
    refine forest.acyclic folder.id (.single ⟨folder, stored, rfl, ?_⟩)
    rw [inside, new]

/-- The folders form a forest all along exactly the runs that create no folder inside itself. -/
theorem folders_form_forest_iff (calls : List (Int × FolderCall)) :
    System.Throughout folderStep Forest Database.fresh calls ↔
      System.Meets folderStep OutsideItself Database.fresh calls := by
  refine @System.throughout_iff_meets _ _ folderStep OutsideItself (fun db => Grown db.folders)
    Forest ?_ ?_ ?_ ?_ Database.fresh calls grown_fresh
  · exact fun grown => grown.forest
  · exact fun grown taken outside => Grown.step grown taken outside
  · exact fun grown taken itself => Grown.not_forest grown taken itself
  · -- Only a move can fail to return.
    rintro db ⟨now, call⟩ never parent name rfl
    cases never

/-- The first folder of a store, created in the folder that it becomes. -/
def firstInItself : List (Int × FolderCall) := [(0, .create (some 1) "Servers")]

/--
The folder lies inside itself: it is not in the tree,
and moving another folder into it never returns.
-/
theorem first_folder_inside_itself :
    ∃ final, System.run folderStep Database.fresh firstInItself = some final ∧
      final.folders.map (fun folder => (folder.id, folder.parentId)) = [(1, some 1)] ∧
      tree final.folders = some [] ∧
      (∀ fuel, RecursiveQuery.run (parentsOf final.folders) fuel [1] = none) ∧
      reparent 1 final 2 (some 1) = none ∧
      ¬System.Throughout folderStep Forest Database.fresh firstInItself := by
  refine ⟨_, rfl, rfl, ?_, fun fuel => RecursiveQuery.run_of_loop rfl fuel, rfl, ?_⟩
  · -- The walk starts from no root at all.
    change some ((List.mergeSort [] treeOrder).map Prod.fst) = some []
    rw [List.mergeSort_nil]
    rfl
  intro throughout
  have forest := throughout.final rfl
  exact forest.acyclic 1 (.single ⟨_, List.mem_singleton_self _, rfl, rfl⟩)

end Forests

end Tern.Store
