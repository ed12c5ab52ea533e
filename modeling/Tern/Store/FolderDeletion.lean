import Tern.Store.Calls

/-! Deleting a folder takes what lies in it along, and only unfiles the hosts. -/

namespace Tern.Store

/-- A folder is another one, or lies in it at some depth. -/
def Inside (folders : List Folder) (id outer : Int) : Prop :=
  Relation.ReflTransGen (ParentOf folders) id outer

section Cascades

variable {folders : List Folder} {id : Int}

/-- A folder is in what its parent is in. -/
theorem Inside.of_parent {folder : Folder} {parent : Int} (member : folder ∈ folders)
    (parented : folder.parentId = some parent) (inside : Inside folders parent id) :
    Inside folders folder.id id :=
  .head ⟨folder, member, rfl, parented⟩ inside

/-- The folder that goes is not left. -/
theorem ne_of_mem_cascade {folder : Folder} (left : folder ∈ cascade folders id) :
    folder.id ≠ id := by
  have shrinks : ∀ rows, (dropOrphans rows).Sublist rows := fun rows => List.filter_sublist
  have kept := (iterate_sublist shrinks folders.length _).subset left
  simpa using (List.mem_filter.mp kept).2

/-- A folder that is left lies in none that went. -/
theorem FolderKeys.outside_of_mem_cascade {folder : Folder} (keys : FolderKeys folders)
    (left : folder ∈ Store.cascade folders id) : ¬Inside folders folder.id id := by
  obtain ⟨sub, closed⟩ := cascade_closed folders id
  -- Up the path to the folder that went, no folder is left.
  have gone : ∀ other, Inside folders other id →
      ∀ known ∈ Store.cascade folders id, known.id ≠ other := by
    intro other inside
    induction inside using Relation.ReflTransGen.head_induction_on with
    | refl => exact fun known there => ne_of_mem_cascade there
    | head step _ ih =>
      intro known there same
      obtain ⟨child, member, named, parented⟩ := step
      obtain rfl := keys.folder_inj (sub.subset there) member (same.trans named.symm)
      obtain ⟨above, stored, is_parent⟩ := closed known there _ parented
      exact ih above stored is_parent
  exact fun inside => gone folder.id inside folder left rfl

/-- A round of dropping keeps every folder outside the one that goes. -/
theorem FolderKeys.mem_dropOrphans {rows : List Folder} (keys : FolderKeys folders)
    (held : ∀ folder ∈ folders, ¬Inside folders folder.id id → folder ∈ rows) :
    ∀ folder ∈ folders, ¬Inside folders folder.id id → folder ∈ dropOrphans rows := by
  intro folder member outside
  refine List.mem_filter.mpr ⟨held folder member outside, ?_⟩
  cases parented : folder.parentId with
  | none => rfl
  | some parent =>
    -- The parent is outside as well, or else the folder would be in what the parent is in.
    obtain ⟨above, stored, rfl⟩ := keys.parents folder member parent parented
    have beyond : ¬Inside folders above.id id := fun inside =>
      outside (inside.of_parent member parented)
    rw [Option.all_some, List.any_eq_true]
    exact ⟨above, held above stored beyond, beq_self_eq_true above.id⟩

/-- What is left is what does not lie in the folder that goes. -/
theorem FolderKeys.mem_cascade {folder : Folder} (keys : FolderKeys folders) :
    folder ∈ Store.cascade folders id ↔ folder ∈ folders ∧ ¬Inside folders folder.id id := by
  constructor
  · intro left
    exact ⟨(cascade_closed folders id).1.subset left, keys.outside_of_mem_cascade left⟩
  · rintro ⟨member, outside⟩
    -- No round of the cascade drops a folder outside, however many there are.
    have rounds : ∀ count, ∀ folder ∈ folders, ¬Inside folders folder.id id →
        folder ∈ dropOrphans^[count] (folders.filter fun folder => folder.id ≠ id) := by
      intro count
      induction count with
      | zero =>
        intro other stored beyond
        refine List.mem_filter.mpr ⟨stored, decide_eq_true fun same => ?_⟩
        exact beyond (same ▸ .refl)
      | succ count ih =>
        rw [Function.iterate_succ_apply']
        exact keys.mem_dropOrphans ih
    exact rounds folders.length folder member outside

end Cascades

section Hosts

variable {db after : Database} {id : Int}

/-- A host as the deletion of a folder is to leave it. -/
def Unfiled (folders : List Folder) (id : Int) (row left : HostRow) : Prop :=
  ((∃ filed, row.folderId = some filed ∧ Inside folders filed id) →
      left = { row with folderId := none }) ∧
    ((∀ filed, row.folderId = some filed → ¬Inside folders filed id) → left = row)

/-- A host whose folder is left keeps it, and any other loses only that. -/
theorem Intact.unfiled (intact : Intact db) {row : HostRow} (member : row ∈ db.hosts) :
    Unfiled db.folders id row (unfile (cascade db.folders id) row) := by
  refine ⟨?_, ?_⟩
  · rintro ⟨filed, inside, within⟩
    -- No folder of that id is left, so the foreign key is set to null.
    have gone : (cascade db.folders id).any (fun folder => folder.id == filed) = false := by
      rw [List.any_eq_false]
      intro folder left same
      obtain rfl : folder.id = filed := by simpa using same
      exact (intact.keys.mem_cascade.mp left).2 within
    simp [unfile, inside, gone]
  · intro beyond
    cases inside : row.folderId with
    | none => simp [unfile, inside]
    | some filed =>
      -- The folder of a host exists, and is left as it lies outside.
      obtain ⟨known, there, rfl⟩ := (intact.consistent.valid row member).folder filed inside
      have left := intact.keys.mem_cascade.mpr ⟨there, beyond known.id inside⟩
      have found : (cascade db.folders id).any (fun folder => folder.id == known.id) = true :=
        List.any_eq_true.mpr ⟨known, left, beq_self_eq_true known.id⟩
      simp [unfile, inside, found]

/-- Deleting a folder drops it with all that lies in it, and only unfiles the hosts filed there. -/
theorem deleting_folder_spares_hosts (reachable : Reachable db) (id : Int) :
    ((∀ folder ∈ db.folders, folder.id ≠ id) →
        deleteFolder db id = .error (.notFound "folder" id) ∧
          storeStep db (0, .folder (.delete id)) = some db) ∧
      ((∃ folder ∈ db.folders, folder.id = id) →
        ∃ after, deleteFolder db id = .ok after ∧
          after.folders.Sublist db.folders ∧
          (∀ folder ∈ db.folders,
            folder ∈ after.folders ↔ ¬Inside db.folders folder.id id) ∧
          List.Forall₂ (Unfiled db.folders id) db.hosts after.hosts ∧
          after.tags = db.tags ∧ after.hostTags = db.hostTags) := by
  have intact := reachable.intact
  refine ⟨?_, ?_⟩
  -- A folder that is not there is not found, and the call settles for the store as it was.
  · intro missing
    have failed : deleteFolder db id = .error (.notFound "folder" id) := by
      unfold deleteFolder
      rw [if_neg]
      simpa using missing
    refine ⟨failed, ?_⟩
    show some (settle db (deleteFolder db id)) = some db
    rw [failed]
    rfl
  -- What goes is what lies inside the folder, and each row looks its own folder up.
  · rintro ⟨folder, member, rfl⟩
    have found : (db.folders.any fun other => other.id == folder.id) = true :=
      List.any_eq_true.mpr ⟨folder, member, beq_self_eq_true folder.id⟩
    refine ⟨_, if_pos found, (cascade_closed db.folders folder.id).1, ?_, ?_, rfl, rfl⟩
    · intro other stored
      constructor
      · exact fun left => (intact.keys.mem_cascade.mp left).2
      · exact fun outside => intact.keys.mem_cascade.mpr ⟨stored, outside⟩
    · show List.Forall₂ _ db.hosts (db.hosts.map (unfile (cascade db.folders folder.id)))
      rw [List.forall₂_map_right_iff, List.forall₂_same]
      exact fun row stored => intact.unfiled stored

/-- Two hosts, one of them in a folder inside another one, and one of them tagged. -/
def filedHosts : List (Int × StoreCall) :=
  [(0, .folder (.create none "Servers")), (1, .folder (.create (some 1) "Staging")),
    (2, .folder (.create none "Home")),
    (3, .importHosts [candidateOn "web" 22, candidateOn "nas" 22]),
    (4, .moveHost 1 (some 2)), (5, .moveHost 2 (some 3)), (6, .createTag "prod" none),
    (7, .setHostTags 1 [1])]

/-- The outer folder goes with the inner one, and the host filed there stays with its tag. -/
theorem deleting_folder_spares_tagged_host :
    ∃ db after, Reachable db ∧ db.hosts.map (·.folderId) = [some 2, some 3] ∧
      deleteFolder db 1 = .ok after ∧ after.folders.map (·.id) = [3] ∧
      List.Forall₂ (Unfiled db.folders 1) db.hosts after.hosts ∧
      after.hosts.map (·.folderId) = [none, some 3] ∧ after.hostTags = [(1, 1)] := by
  -- The store is reached by its calls, and the deletion is evaluated on it.
  have ran : Reachable _ := ⟨filedHosts, rfl⟩
  obtain ⟨after, deleted, -, -, hosts, -, tags⟩ :=
    (deleting_folder_spares_hosts ran 1).2 ⟨_, List.mem_cons_self, rfl⟩
  refine ⟨_, after, ran, rfl, deleted, ?_, hosts, ?_, tags.trans rfl⟩
  · cases deleted
    rfl
  · cases deleted
    rfl

end Hosts

end Tern.Store
