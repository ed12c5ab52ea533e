import Mathlib.Logic.Function.Basic
import Tern.Base.Text
import Tern.Base.Unfolding

/-! The sidebar's tree: how its nodes are linked, and that it shows every folder and host once. -/

namespace Tern.Sidebar

/-- A folder of hosts. -/
structure Folder where
  id : Int
  parentId : Option Int
  name : String
  deriving DecidableEq, Repr

/-- A saved host. -/
structure Host where
  id : Int
  folderId : Option Int
  name : String
  deriving DecidableEq, Repr

/-- A node of the tree, which is a branch when it has a list of children, even an empty one. -/
inductive TreeNode where
  | leaf (value label : String)
  | branch (value label : String) (children : List TreeNode)

/-- What stands in a list of nodes: a folder's node by the id it is kept under, or a host's node. -/
inductive NodeRef where
  | folder (id : Int)
  | host (value label : String)
  deriving DecidableEq, Repr

/-- The node of a folder while the tree is built, with the children it has so far. -/
structure FolderNode where
  value : String
  label : String
  children : List NodeRef
  deriving DecidableEq, Repr

/-- What is kept while the tree is built. -/
structure Building where
  folderNodes : Int → Option FolderNode
  roots : List NodeRef

/-- What the tree knows a folder by. -/
def folderValue (id : Int) : String := "folder:" ++ toString id

/-- What the tree knows a host by. -/
def hostValue (id : Int) : String := "host:" ++ toString id

/-- The node of a host. -/
def hostNode (host : Host) : NodeRef := .host (hostValue host.id) host.name

/-- A node for each folder, under its id. -/
def folderNodes (folders : List Folder) : Int → Option FolderNode :=
  folders.foldl
    (fun nodes folder =>
      Function.update nodes folder.id (some ⟨folderValue folder.id, folder.name, []⟩))
    fun _ => none

/-- A node goes into the parent that is kept, or to the roots. -/
def Building.place (self : Building) (parentId : Option Int) (node : NodeRef) : Building :=
  match parentId.bind fun id => (self.folderNodes id).map fun parent => (id, parent) with
  | some (id, parent) =>
    { self with
      folderNodes := Function.update self.folderNodes id
        (some { parent with children := parent.children ++ [node] }) }
  -- What has no parent there surfaces at the root rather than disappearing.
  | none => { self with roots := self.roots ++ [node] }

/-- A folder's node goes where the folder does. -/
def Building.placeFolder (self : Building) (folder : Folder) : Building :=
  match self.folderNodes folder.id with
  | none => self
  | some _ => self.place folder.parentId (.folder folder.id)

/-- The nodes of the tree, linked from flat lists: first the folders, then the hosts. -/
def buildTree (hosts : List Host) (folders : List Folder) : Building :=
  hosts.foldl (fun built host => built.place host.folderId (hostNode host))
    (folders.foldl Building.placeFolder ⟨folderNodes folders, []⟩)

/-- What a node shows of itself. -/
inductive NodeData where
  | leaf (value label : String)
  | branch (value label : String)

/-- What stands in a list of nodes, looked up: the node's own data, and its children. -/
def Building.view (self : Building) : NodeRef → Option (NodeData × List NodeRef)
  | .folder id =>
    (self.folderNodes id).map fun node => (.branch node.value node.label, node.children)
  | .host value label => some (.leaf value label, [])

/-- A node over the nodes below it. -/
def TreeNode.over (_ : NodeRef) (data : NodeData) (children : List TreeNode) : TreeNode :=
  match data with
  | .leaf value label => .leaf value label
  | .branch value label => .branch value label children

/-- The tree that the linked nodes are, if it is no deeper than so many levels. -/
def Building.tree (self : Building) (depth : Nat) : Option (List TreeNode) :=
  self.roots.mapM (Unfolding.unfold self.view TreeNode.over depth)

mutual

/-- The values of a node and of all nodes below it. -/
def TreeNode.values : TreeNode → List String
  | .leaf value _ => [value]
  | .branch value _ children => value :: valuesOf children

/-- The values of some nodes and of all nodes below them. -/
def valuesOf : List TreeNode → List String
  | [] => []
  | node :: nodes => node.values ++ valuesOf nodes

end

/-- A folder lies directly in another one. -/
def ParentOf (folders : List Folder) (child parent : Int) : Prop :=
  ∃ folder ∈ folders, folder.id = child ∧ folder.parentId = some parent

/-- No folder of the list is the one that is named. -/
def orphaned (folders : List Folder) (parentId : Option Int) : Bool :=
  folders.all fun folder => parentId ≠ some folder.id

/-- The leaf that shows a host. -/
def hostLeaf (host : Host) : TreeNode := .leaf (hostValue host.id) host.name

/-- A node shows a folder with what lies in it: the folders in their order, then the hosts. -/
inductive Shows (hosts : List Host) (folders : List Folder) : Folder → TreeNode → Prop where
  | branch {folder : Folder} {nodes : List TreeNode}
      (inside : List.Forall₂ (Shows hosts folders)
        (folders.filter fun child => child.parentId = some folder.id) nodes) :
      Shows hosts folders folder (.branch (folderValue folder.id) folder.name
        (nodes ++ (hosts.filter fun host => host.folderId = some folder.id).map hostLeaf))

/-- A tree shows all folders and hosts, each where it belongs and nowhere else. -/
structure ShowsAll (hosts : List Host) (folders : List Folder) (tree : List TreeNode) : Prop where
  once : (valuesOf tree).Perm
    (folders.map (fun folder => folderValue folder.id) ++ hosts.map fun host => hostValue host.id)
  distinct : (valuesOf tree).Nodup
  /-- What lies in no folder of the list is at the top, and the rest where its folder is. -/
  placed : ∃ nodes, List.Forall₂ (Shows hosts folders)
      (folders.filter fun folder => orphaned folders folder.parentId) nodes ∧
    tree = nodes ++ (hosts.filter fun host => orphaned folders host.folderId).map hostLeaf

section Placing

variable {built : Building}

/-- What goes into the tree: where to, and its node. -/
abbrev Entry := Option Int × NodeRef

/-- Some nodes are placed one after the other. -/
def Building.placeAll (self : Building) (entries : List Entry) : Building :=
  entries.foldl (fun built entry => built.place entry.1 entry.2) self

/-- A node that finds its parent is the last of its children. -/
theorem place_kept {id : Int} {parent : FolderNode} (kept : built.folderNodes id = some parent)
    (node : NodeRef) : built.place (some id) node =
      { built with
        folderNodes := Function.update built.folderNodes id
          (some { parent with children := parent.children ++ [node] }) } := by
  simp [Building.place, kept]

/-- A node that finds no parent is the last root. -/
theorem place_missing {parentId : Option Int}
    (missing : ∀ id, parentId = some id → built.folderNodes id = none) (node : NodeRef) :
    built.place parentId node = { built with roots := built.roots ++ [node] } := by
  cases parentId with
  | none => rfl
  | some id => simp [Building.place, missing id rfl]

/-- Placing a node gives it to the children of its parent, and leaves every other node alone. -/
theorem folderNodes_place (parentId : Option Int) (node : NodeRef) (id : Int) :
    (built.place parentId node).folderNodes id = (built.folderNodes id).map fun parent =>
      { parent with children := parent.children ++ if parentId = some id then [node] else [] } := by
  cases parentId with
  | none => simp [Building.place]
  | some target =>
    cases found : built.folderNodes target with
    | none =>
      rw [place_missing (by simpa using found)]
      -- Only a parent that is not there has nothing to be given.
      by_cases same : target = id
      · simp [← same, found]
      · simp [same]
    | some parent =>
      rw [place_kept found]
      by_cases same : target = id
      · subst same
        simp [found]
      · simp [same, Function.update_of_ne (Ne.symm same)]

/-- Placing a node gives it to the roots when its parent is not there. -/
theorem roots_place (parentId : Option Int) (node : NodeRef) :
    (built.place parentId node).roots =
      built.roots ++ if (parentId.bind built.folderNodes).isNone then [node] else [] := by
  -- A node without a parent, and one whose parent is unknown, goes to the roots.
  cases parentId with
  | none => simp [Building.place]
  | some target =>
    cases found : built.folderNodes target with
    | none =>
      simp [place_missing (show ∀ id, some target = some id → _ by simpa using found), found]
    | some parent => simp [place_kept found, found]

/-- Placing nodes gives them to the children of their parents, in their order. -/
theorem folderNodes_placeAll (entries : List Entry) (id : Int) :
    (built.placeAll entries).folderNodes id = (built.folderNodes id).map fun parent =>
      { parent with
        children := parent.children ++ (entries.filter (·.1 = some id)).map Prod.snd } := by
  -- The first entry is placed, and the others behind it into what that leaves.
  induction entries generalizing built with
  | nil => simp [Building.placeAll]
  | cons entry entries ih =>
    have onward := @ih (built.place entry.1 entry.2)
    rw [folderNodes_place, Option.map_map] at onward
    refine onward.trans (congrFun (congrArg Option.map (funext fun parent => ?_)) _)
    by_cases here : entry.1 = some id <;> simp [here]

/-- Placing nodes gives those to the roots whose parents are not there, in their order. -/
theorem roots_placeAll (entries : List Entry) :
    (built.placeAll entries).roots = built.roots ++
      (entries.filter fun entry => (entry.1.bind built.folderNodes).isNone).map Prod.snd := by
  induction entries generalizing built with
  | nil => simp [Building.placeAll]
  | cons entry entries ih =>
    -- Whether a parent is there does not depend on what was placed before.
    have same (other : Entry) : (other.1.bind (built.place entry.1 entry.2).folderNodes).isNone =
        (other.1.bind built.folderNodes).isNone := by
      cases other.1 with
      | none => rfl
      | some id => simp [folderNodes_place]
    have onward := @ih (built.place entry.1 entry.2)
    rw [roots_place] at onward
    simp only [same] at onward
    refine onward.trans ?_
    rw [List.filter_cons, List.append_assoc]
    -- The entry in front is a root when its parent is missing.
    by_cases missing : (entry.1.bind built.folderNodes).isNone = true
    · rw [if_pos missing, if_pos missing]
      rfl
    · rw [if_neg missing, if_neg missing]
      rfl

/-- Folders whose nodes are there are placed like any other node. -/
theorem foldl_placeFolder {folders : List Folder}
    (kept : ∀ folder ∈ folders, (built.folderNodes folder.id).isSome) :
    folders.foldl Building.placeFolder built =
      built.placeAll (folders.map fun folder => (folder.parentId, .folder folder.id)) := by
  induction folders generalizing built with
  | nil => rfl
  | cons folder folders ih =>
    -- A folder is only left out when it has no node, and placing others takes none away.
    obtain ⟨node, found⟩ := Option.isSome_iff_exists.mp (kept folder List.mem_cons_self)
    have placed : built.placeFolder folder = built.place folder.parentId (.folder folder.id) := by
      rw [Building.placeFolder, found]
    rw [List.foldl_cons, placed, ih]
    · rfl
    · intro later member
      rw [folderNodes_place, Option.isSome_map]
      exact kept later (List.mem_cons_of_mem _ member)

/-- Hosts are placed like any other node. -/
theorem foldl_hosts (hosts : List Host) :
    hosts.foldl (fun built host => built.place host.folderId (hostNode host)) built =
      built.placeAll (hosts.map fun host => (host.folderId, hostNode host)) := by
  rw [Building.placeAll, List.foldl_map]

end Placing

section Building

variable {hosts : List Host} {folders : List Folder}

/-- Every folder of the list has a node, which has its name, and no other folder has one. -/
theorem folderNodes_eq (unique : (folders.map Folder.id).Nodup) (id : Int) :
    folderNodes folders id = (folders.find? (·.id = id)).map fun folder =>
      ⟨folderValue folder.id, folder.name, []⟩ := by
  -- The induction is on the last folder, since it is the one that the map was updated with last.
  induction folders using List.reverseRecOn with
  | nil => rfl
  | append_singleton folders folder ih =>
    rw [List.map_append, List.nodup_append'] at unique
    obtain ⟨earlier, -, apart⟩ := unique
    rw [folderNodes, List.foldl_append, List.foldl_cons, List.foldl_nil, List.find?_append]
    by_cases same : id = folder.id
    · -- No earlier folder has the id of a later one.
      subst same
      have first : folders.find? (·.id = folder.id) = none := by
        rw [List.find?_eq_none]
        intro other member named
        exact apart (List.mem_map_of_mem member) (by simpa using of_decide_eq_true named)
      rw [Function.update_self, first]
      simp
    · rw [Function.update_of_ne same]
      refine (ih earlier).trans ?_
      -- Another id is looked up among the earlier ones.
      cases folders.find? (·.id = id) with
      | some found => rfl
      | none => simp [Ne.symm same]

/-- The nodes of the folders that lie directly in a folder. -/
def foldersIn (folders : List Folder) (id : Int) : List NodeRef :=
  (folders.filter fun folder => folder.parentId = some id).map fun folder => .folder folder.id

/-- The nodes of the hosts that lie directly in a folder. -/
def hostsIn (hosts : List Host) (id : Int) : List NodeRef :=
  (hosts.filter fun host => host.folderId = some id).map hostNode

/-- Only one folder of the list has an id. -/
theorem find_folder (unique : (folders.map Folder.id).Nodup) {folder : Folder}
    (member : folder ∈ folders) : folders.find? (·.id = folder.id) = some folder := by
  have found : (folders.find? (·.id = folder.id)).isSome := by
    rw [List.find?_isSome]
    exact ⟨folder, member, by simp⟩
  obtain ⟨other, found⟩ := Option.isSome_iff_exists.mp found
  -- What is found has the same id, and so is the same folder.
  have named : other.id = folder.id := by simpa using List.find?_some found
  rw [found, List.inj_on_of_nodup_map unique (List.mem_of_find?_eq_some found) member named]

/-- A parent has no node when none of the folders is it. -/
theorem isNone_folderNodes (unique : (folders.map Folder.id).Nodup) (parentId : Option Int) :
    (parentId.bind (folderNodes folders)).isNone = orphaned folders parentId := by
  cases parentId with
  | none => simp [orphaned]
  | some id =>
    -- A folder has a node when it is found in the list.
    rw [Option.bind_some, folderNodes_eq unique, Option.isNone_map, Bool.eq_iff_iff,
      Option.isNone_iff_eq_none, List.find?_eq_none]
    simp only [orphaned, List.all_eq_true, decide_eq_true_eq, ne_eq, Option.some.injEq]
    exact forall₂_congr fun folder _ => not_congr eq_comm

/-- The tree is built by placing the folders, and then the hosts. -/
theorem buildTree_eq (unique : (folders.map Folder.id).Nodup) :
    buildTree hosts folders =
      Building.placeAll ⟨folderNodes folders, []⟩
        (folders.map (fun folder => (folder.parentId, NodeRef.folder folder.id)) ++
          hosts.map fun host => (host.folderId, hostNode host)) := by
  -- Both loops place nodes, and the second one goes on where the first one ends.
  rw [buildTree, foldl_hosts, foldl_placeFolder]
  · rw [Building.placeAll, Building.placeAll, Building.placeAll, List.foldl_append]
  · intro folder member
    dsimp only
    rw [folderNodes_eq unique, find_folder unique member]
    rfl

/-- In the end a folder's node has what lies in the folder: its folders, then its hosts. -/
theorem folderNodes_buildTree (unique : (folders.map Folder.id).Nodup) (id : Int) :
    (buildTree hosts folders).folderNodes id = (folders.find? (·.id = id)).map fun folder =>
      ⟨folderValue folder.id, folder.name, foldersIn folders id ++ hostsIn hosts id⟩ := by
  -- A folder collects the nodes that name it, in the order in which they are placed.
  rw [buildTree_eq unique, folderNodes_placeAll]
  dsimp only
  rw [folderNodes_eq unique, Option.map_map]
  refine congrFun (congrArg Option.map (funext fun folder => ?_)) _
  simp [foldersIn, hostsIn, List.filter_map, Function.comp_def]

/-- In the end the roots are what lies in no folder of the list. -/
theorem roots_buildTree (unique : (folders.map Folder.id).Nodup) :
    (buildTree hosts folders).roots =
      ((folders.filter fun folder => orphaned folders folder.parentId).map fun folder =>
        .folder folder.id) ++
      (hosts.filter fun host => orphaned folders host.folderId).map hostNode := by
  rw [buildTree_eq unique, roots_placeAll]
  simp [isNone_folderNodes unique, List.filter_map, Function.comp_def]

/-- A folder of the list is seen as a branch over what lies in it. -/
theorem view_folder (unique : (folders.map Folder.id).Nodup) {folder : Folder}
    (member : folder ∈ folders) :
    (buildTree hosts folders).view (.folder folder.id) =
      some (.branch (folderValue folder.id) folder.name,
        foldersIn folders folder.id ++ hostsIn hosts folder.id) := by
  rw [Building.view, folderNodes_buildTree unique, find_folder unique member]
  rfl

/-- A folder's node leads to what lies in the folder. -/
theorem next_folder (unique : (folders.map Folder.id).Nodup) {folder : Folder}
    (member : folder ∈ folders) :
    Unfolding.next (buildTree hosts folders).view (.folder folder.id) =
      foldersIn folders folder.id ++ hostsIn hosts folder.id := by
  rw [Unfolding.next, view_folder unique member]
  rfl

/-- Only a folder of the list is seen under a folder's id. -/
theorem exists_of_view (unique : (folders.map Folder.id).Nodup) {id : Int}
    {shown : NodeData × List NodeRef}
    (seen : (buildTree hosts folders).view (.folder id) = some shown) :
    ∃ folder ∈ folders, folder.id = id := by
  rw [Building.view, folderNodes_buildTree unique, Option.map_map] at seen
  obtain ⟨folder, found, -⟩ := Option.map_eq_some_iff.mp seen
  exact ⟨folder, List.mem_of_find?_eq_some found, by simpa using List.find?_some found⟩

/-- What a node leads to lies in the folder that it is of. -/
theorem leads_iff (unique : (folders.map Folder.id).Nodup) {node below : NodeRef} :
    Unfolding.Leads (buildTree hosts folders).view node below ↔
      ∃ folder ∈ folders, node = .folder folder.id ∧
        below ∈ foldersIn folders folder.id ++ hostsIn hosts folder.id := by
  constructor
  · intro leads
    -- A host's node has nothing below it, and a folder's node has what lies in the folder.
    cases node with
    | host value label => cases leads
    | folder id =>
      cases seen : (buildTree hosts folders).view (.folder id) with
      | none =>
        rw [Unfolding.Leads, Unfolding.next, seen] at leads
        cases leads
      | some shown =>
        obtain ⟨folder, member, rfl⟩ := exists_of_view unique seen
        rw [Unfolding.Leads, next_folder unique member] at leads
        exact ⟨folder, member, rfl, leads⟩
  · rintro ⟨folder, member, rfl, inside⟩
    rwa [Unfolding.Leads, next_folder unique member]

end Building

section Everything

variable {hosts : List Host} {folders : List Folder}

/-- The nodes of all folders and hosts. -/
def everything (hosts : List Host) (folders : List Folder) : List NodeRef :=
  (folders.map fun folder => .folder folder.id) ++ hosts.map hostNode

/-- What is kept under no key, and what is kept under one after the other, is all there is. -/
theorem sorted_perm {α : Type} (key : α → Option Int) {ids : List Int} (unique : ids.Nodup)
    (members : List α) :
    ((members.filter fun member => ids.all fun id => key member ≠ some id) ++
      ids.flatMap fun id => members.filter fun member => key member = some id).Perm members := by
  -- The induction takes one key after the other out of what is kept under none.
  induction ids with
  | nil => simp
  | cons id ids ih =>
    obtain ⟨fresh, unique⟩ := List.nodup_cons.mp unique
    -- Of what was kept under no later key, some is kept under this one.
    have split := List.filter_append_perm (fun member => key member = some id)
      (members.filter fun member => ids.all fun id => key member ≠ some id)
    have here : (members.filter fun member => ids.all fun id => key member ≠ some id).filter
        (fun member => key member = some id) =
          members.filter fun member => key member = some id := by
      rw [List.filter_filter]
      refine List.filter_congr fun member _ => ?_
      by_cases named : key member = some id
      · have others : ∀ other ∈ ids, id ≠ other := fun other inside same => fresh (same ▸ inside)
        simpa [named] using others
      · simp [named]
    have rest : (members.filter fun member => ids.all fun id => key member ≠ some id).filter
        (fun member => !decide (key member = some id)) =
          members.filter fun member => (id :: ids).all fun id => key member ≠ some id := by
      rw [List.filter_filter]
      exact List.filter_congr fun member _ => by simp
    rw [here, rest] at split
    rw [List.flatMap_cons, ← List.append_assoc]
    exact ((List.perm_append_comm.trans split).append_right _).trans (ih unique)

/-- Whether a parent is none of the folders depends on their ids alone. -/
theorem orphaned_eq (parentId : Option Int) :
    orphaned folders parentId = (folders.map Folder.id).all fun id => parentId ≠ some id := by
  rw [orphaned, List.all_map]
  rfl

/-- Every node is a root, or among the children of one folder. -/
theorem once_buildTree (unique : (folders.map Folder.id).Nodup) :
    ((buildTree hosts folders).roots ++
      (everything hosts folders).flatMap (Unfolding.next (buildTree hosts folders).view)).Perm
        (everything hosts folders) := by
  -- The folders and the hosts are sorted into the folders separately.
  have below : (everything hosts folders).flatMap (Unfolding.next (buildTree hosts folders).view) =
      folders.flatMap fun folder => foldersIn folders folder.id ++ hostsIn hosts folder.id := by
    rw [everything, List.flatMap_append, List.flatMap_map, List.flatMap_map]
    have leaves : (hosts.flatMap fun host =>
        Unfolding.next (buildTree hosts folders).view (hostNode host)) = [] :=
      List.flatMap_eq_nil_iff.mpr fun _ _ => rfl
    rw [leaves, List.append_nil]
    exact List.flatMap_congr fun folder member => next_folder unique member
  -- Each folder and each host lies in one folder, or else is at the top.
  have sortedFolders := (sorted_perm Folder.parentId unique folders).map fun folder =>
    NodeRef.folder folder.id
  have sortedHosts := (sorted_perm Host.folderId unique hosts).map hostNode
  rw [List.map_append, List.map_flatMap, List.flatMap_map] at sortedFolders sortedHosts
  rw [below, roots_buildTree unique]
  simp only [orphaned_eq]
  refine ((List.flatMap_append_perm folders (fun folder => foldersIn folders folder.id)
    fun folder => hostsIn hosts folder.id).symm.append_left _).trans ?_
  refine List.Perm.trans ?_ (sortedFolders.append sortedHosts)
  simp only [foldersIn, hostsIn, List.append_assoc]
  refine List.Perm.append_left _ ?_
  rw [← List.append_assoc, ← List.append_assoc]
  exact List.perm_append_comm.append_right _

/-- One folder's node leads to another's only if the other folder lies in it. -/
theorem transGen_leads (unique : (folders.map Folder.id).Nodup) {start finish : NodeRef}
    (leads : Relation.TransGen (Unfolding.Leads (buildTree hosts folders).view) start finish) :
    ∃ parent, start = .folder parent ∧ ∀ child, finish = .folder child →
      Relation.TransGen (ParentOf folders) child parent := by
  -- One step down from a folder's node goes to a folder that lies directly in it.
  have direct {parent child : Int}
      (member : .folder child ∈ foldersIn folders parent ++ hostsIn hosts parent) :
      ParentOf folders child parent := by
    rcases List.mem_append.mp member with inside | other
    · obtain ⟨folder, kept, same⟩ := List.mem_map.mp inside
      obtain ⟨listed, lies⟩ := List.mem_filter.mp kept
      exact ⟨folder, listed, NodeRef.folder.inj same, by simpa using lies⟩
    · obtain ⟨host, -, same⟩ := List.mem_map.mp other
      cases same
  -- The induction is on the last step of the way, which begins at a folder as well.
  induction leads with
  | single leads =>
    obtain ⟨folder, -, rfl, inside⟩ := (leads_iff unique).mp leads
    refine ⟨folder.id, rfl, ?_⟩
    rintro child rfl
    exact .single (direct inside)
  | tail _ leads ih =>
    obtain ⟨folder, -, rfl, inside⟩ := (leads_iff unique).mp leads
    obtain ⟨parent, rfl, above⟩ := ih
    refine ⟨parent, rfl, ?_⟩
    rintro child rfl
    exact .head (direct inside) (above folder.id rfl)

variable (hosts) in
/-- Everything is reached from the roots once, unless a folder lies in itself. -/
theorem covered_buildTree (unique : (folders.map Folder.id).Nodup)
    (acyclic : ∀ id, ¬Relation.TransGen (ParentOf folders) id id) :
    Unfolding.Covered (buildTree hosts folders).view (buildTree hosts folders).roots
      (everything hosts folders) where
  seen := by
    intro node member
    rcases List.mem_append.mp member with folder | host
    · obtain ⟨folder, listed, rfl⟩ := List.mem_map.mp folder
      rw [view_folder unique listed]
      rfl
    · obtain ⟨host, -, rfl⟩ := List.mem_map.mp host
      rfl
  within := by
    intro node below leads
    obtain ⟨folder, member, rfl, -⟩ := (leads_iff unique).mp leads
    exact List.mem_append_left _ (List.mem_map_of_mem member)
  acyclic := by
    -- A way from a node back to itself is one from a folder to itself.
    intro node cycle
    obtain ⟨parent, rfl, above⟩ := transGen_leads unique cycle
    exact acyclic parent (above parent rfl)
  once := once_buildTree unique

end Everything

section Showing

variable {hosts : List Host} {folders : List Folder} {depth : Nat}

/-- The tree below something that stands in a list of nodes, to a depth. -/
abbrev Reads (hosts : List Host) (folders : List Folder) (depth : Nat) (node : NodeRef)
    (tree : TreeNode) : Prop :=
  Unfolding.unfold (buildTree hosts folders).view TreeNode.over depth node = some tree

/-- Hosts are read as their leaves. -/
theorem eq_leaves {listed : List Host} {trees : List TreeNode}
    (read : List.Forall₂ (Reads hosts folders depth) (listed.map hostNode) trees) :
    trees = listed.map hostLeaf := by
  rw [List.forall₂_map_left_iff] at read
  -- The induction is on the hosts, and a leaf is read at any depth but none.
  induction read with
  | nil => rfl
  | @cons host tree listed trees here _ ih =>
    cases depth with
    | zero => cases here
    | succ depth =>
      obtain ⟨data, parts, seen, rfl, -⟩ := Unfolding.unfold_succ_iff.mp here
      cases seen
      rw [List.map_cons, ← ih]
      rfl

/-- What a folder's node is read as shows the folder. -/
theorem shows_of_reads (unique : (folders.map Folder.id).Nodup) {folder : Folder} {tree : TreeNode}
    (member : folder ∈ folders) (read : Reads hosts folders depth (.folder folder.id) tree) :
    Shows hosts folders folder tree := by
  -- The induction is on the depth, which goes down by one from a folder to what is in it.
  induction depth generalizing folder tree with
  | zero => cases read
  | succ depth ih =>
    obtain ⟨data, parts, seen, rfl, below⟩ := Unfolding.unfold_succ_iff.mp read
    have same := (view_folder unique member).symm.trans seen
    rw [next_folder unique member] at below same
    obtain rfl := (Prod.mk.inj (Option.some.inj same)).1
    obtain ⟨nodes, leaves, rfl, inside, others⟩ := Unfolding.split_forall₂ below
    rw [eq_leaves others]
    -- Each folder inside is one of the list, so that its own node shows it.
    refine .branch ?_
    rw [foldersIn, List.forall₂_map_left_iff] at inside
    have listed : ∀ child ∈ folders.filter fun child => child.parentId = some folder.id,
        child ∈ folders := fun _ => List.mem_of_mem_filter
    exact ((List.forall₂_and_left _ _).mpr ⟨listed, inside⟩).imp fun _ _ => fun both =>
      ih both.1 both.2

/-- The values of some nodes are those of each of them, one after the other. -/
theorem valuesOf_eq (nodes : List TreeNode) :
    valuesOf nodes = (nodes.map TreeNode.values).flatten := by
  induction nodes with
  | nil => rfl
  | cons node nodes ih => rw [valuesOf, ih, List.map_cons, List.flatten_cons]

/-- What the tree knows a node by. -/
def NodeRef.value : NodeRef → String
  | .folder id => folderValue id
  | .host value _ => value

/-- A node has its own value, and those of the nodes below it. -/
theorem values_over (unique : (folders.map Folder.id).Nodup) {node : NodeRef} {data : NodeData}
    {parts : List TreeNode}
    (seen : (buildTree hosts folders).view node =
      some (data, Unfolding.next (buildTree hosts folders).view node))
    (many : (Unfolding.next (buildTree hosts folders).view node).length = parts.length) :
    (TreeNode.over node data parts).values =
      node.value :: (parts.map TreeNode.values).flatten := by
  cases node with
  | host value label =>
    cases seen
    -- A leaf has nothing below it.
    obtain rfl := List.eq_nil_of_length_eq_zero many.symm
    rfl
  | folder id =>
    obtain ⟨folder, member, rfl⟩ := exists_of_view unique seen
    obtain rfl := (Prod.mk.inj (Option.some.inj ((view_folder unique member).symm.trans seen))).1
    rw [TreeNode.over, TreeNode.values, valuesOf_eq]
    rfl

/-- No two folders or hosts go by one value. -/
theorem nodup_values (hostIds : (hosts.map Host.id).Nodup)
    (folderIds : (folders.map Folder.id).Nodup) :
    (folders.map (fun folder => folderValue folder.id) ++
      hosts.map fun host => hostValue host.id).Nodup := by
  -- A value keeps the whole number behind its kind.
  have number {kind : String} : Function.Injective fun id : Int => kind ++ toString id := by
    intro id other same
    exact Text.toString_int_inj (by simpa using congrArg String.toList same)
  refine List.nodup_append'.mpr ⟨?_, ?_, ?_⟩
  · have distinct := folderIds.map (@number "folder:")
    rwa [List.map_map] at distinct
  · have distinct := hostIds.map (@number "host:")
    rwa [List.map_map] at distinct
  · -- The kind is what a value begins with.
    intro value folder host
    obtain ⟨_, -, rfl⟩ := List.mem_map.mp folder
    obtain ⟨_, -, same⟩ := List.mem_map.mp host
    simpa [folderValue, hostValue] using congrArg String.toList same

/-- Where ids go down from a folder to the one it lies in, no folder lies in itself. -/
theorem acyclic_of_lt (below : ∀ {child parent}, ParentOf folders child parent → parent < child)
    (id : Int) : ¬Relation.TransGen (ParentOf folders) id id := by
  -- Along a cycle the ids would go down and come back to where they were.
  have descends {child parent : Int} (lies : Relation.TransGen (ParentOf folders) child parent) :
      parent < child := by
    induction lies with
    | single lies => exact below lies
    | tail _ lies ih => exact (below lies).trans ih
  exact fun cycle => lt_irrefl id (descends cycle)

/--
The tree shows every folder and every host once, in the folder it lies in or else at the top.

The ids are distinct, and no folder lies in itself, however the lists are ordered.
-/
theorem sidebar_shows_all_once (hosts : List Host) (folders : List Folder)
    (hostIds : (hosts.map Host.id).Nodup) (folderIds : (folders.map Folder.id).Nodup)
    (acyclic : ∀ id, ¬Relation.TransGen (ParentOf folders) id id) :
    ∃ tree, (∀ depth, folders.length + hosts.length ≤ depth →
      (buildTree hosts folders).tree depth = some tree) ∧ ShowsAll hosts folders tree := by
  -- As everything is reached once from the roots, they can be read to the end.
  have covered := covered_buildTree hosts folderIds acyclic
  have enough : (everything hosts folders).length ≤ folders.length + hosts.length := by
    simp [everything]
  obtain ⟨tree, read⟩ := covered.exists_forest TreeNode.over enough
  -- What is read shows the values of everything, in some order.
  have once : (valuesOf tree).Perm (folders.map (fun folder => folderValue folder.id) ++
      hosts.map fun host => hostValue host.id) := by
    have values := covered.labels_perm (values_over folderIds) read
    rw [everything, List.map_append, List.map_map, List.map_map] at values
    rw [valuesOf_eq]
    exact values
  refine ⟨tree, ?_, once, once.nodup_iff.mpr (nodup_values hostIds folderIds), ?_⟩
  · intro depth deep
    -- Looking deeper than needed shows the same tree.
    rw [Building.tree, Unfolding.mapM_eq_some_iff]
    exact read.imp fun _ _ => Unfolding.unfold_mono deep
  · rw [roots_buildTree folderIds] at read
    obtain ⟨nodes, leaves, rfl, inside, others⟩ := Unfolding.split_forall₂ read
    refine ⟨nodes, ?_, by rw [eq_leaves others]⟩
    -- The folders at the top are some of the list, so that their own nodes show them.
    rw [List.forall₂_map_left_iff] at inside
    have listed : ∀ folder ∈ folders.filter fun folder => orphaned folders folder.parentId,
        folder ∈ folders := fun _ => List.mem_of_mem_filter
    exact ((List.forall₂_and_left _ _).mpr ⟨listed, inside⟩).imp fun _ _ => fun both =>
      shows_of_reads folderIds both.1 both.2

/-- Here a folder is listed before the one it lies in, and a host is in a folder that is gone. -/
theorem sidebar_shows_all_once_unordered :
    ∃ tree, (∀ depth, 4 ≤ depth →
      (buildTree [⟨1, some 11, "web"⟩, ⟨2, some 999, "orphan"⟩]
        [⟨11, some 10, "eu"⟩, ⟨10, none, "prod"⟩]).tree depth = some tree) ∧
      ShowsAll [⟨1, some 11, "web"⟩, ⟨2, some 999, "orphan"⟩]
        [⟨11, some 10, "eu"⟩, ⟨10, none, "prod"⟩] tree := by
  -- The ids go down along the one nesting there is, so there is no cycle.
  refine sidebar_shows_all_once [⟨1, some 11, "web"⟩, ⟨2, some 999, "orphan"⟩]
    [⟨11, some 10, "eu"⟩, ⟨10, none, "prod"⟩] ?_ ?_ (acyclic_of_lt ?_)
  · decide
  · decide
  · rintro child parent ⟨folder, member, rfl, lies⟩
    simp only [List.mem_cons, List.not_mem_nil, or_false] at member
    rcases member with rfl | rfl
    · obtain rfl := Option.some.inj lies
      decide
    · cases lies

end Showing

end Tern.Sidebar
