import Tern.Store.Forest
import Tern.Store.Rewriting

/-! Every call that writes a store, and what holds of the stores that such calls lead to. -/

namespace Tern.Store

section Tags

/-- The rowid an insert is given: one above the largest in the table. -/
def nextTagId (tags : List Tag) : Int :=
  tags.foldl (fun largest tag => max largest tag.id) 0 + 1

/-- Create a tag, or answer with the one that has the name already. -/
def getOrCreateTag (now : Int) (db : Database) (name : String) (color : Option String) :
    Except StoreError (Int × Database) :=
  let name := Text.trim name
  if name.isEmpty then .error (.invalid "tag name cannot be empty")
  else
    match db.tags.find? fun tag => nocase tag.name == nocase name with
    -- A name that is taken is no error worth surfacing.
    | some tag => .ok (tag.id, db)
    | none =>
      let tag : Tag := { id := nextTagId db.tags, name := name, color := color, createdAt := now }
      .ok (tag.id, { db with tags := db.tags ++ [tag] })

/-- Delete a tag, and with it the pairs that attach it. -/
def deleteTag (db : Database) (id : Int) : Except StoreError Database :=
  if db.tags.any fun tag => tag.id == id then
    .ok { db with
      tags := db.tags.filter fun tag => tag.id ≠ id
      hostTags := db.hostTags.filter fun pair => pair.2 ≠ id }
  else .error (.notFound "tag" id)

end Tags

/-- One call that writes the store. -/
inductive StoreCall where
  | createHost (draft : NewHost)
  | updateHost (host : Host)
  | deleteHost (id : Int)
  | moveHost (id : Int) (to_ : Option Int)
  | setHostTags (id : Int) (tags : List Int)
  | recordConnection (id at_ : Int)
  | importHosts (chosen : List Candidate)
  | folder (call : FolderCall)
  | createTag (name : String) (color : Option String)
  | deleteTag (id : Int)
  deriving DecidableEq, Repr

/-- The store after one call at a time, unless the call never returns. -/
def storeStep (db : Database) (call : Int × StoreCall) : Option Database :=
  match call.2 with
  | .createHost draft => some (settle db ((create call.1 db draft).map Prod.snd))
  | .updateHost host => some (settle db (update call.1 db host))
  | .deleteHost id => some (settle db (delete db id))
  | .moveHost id to_ => some (settle db (moveToFolder call.1 db id to_))
  | .setHostTags id tags => some (settle db (setTags db id tags))
  | .recordConnection id at_ => some (recordConnection db id at_)
  -- An import that fails keeps what its earlier turns wrote.
  | .importHosts chosen => some (apply call.1 db ⟨0, 0⟩ chosen).1
  | .folder folderCall => folderStep db (call.1, folderCall)
  | .createTag name color => some (settle db ((getOrCreateTag call.1 db name color).map Prod.snd))
  | .deleteTag id => some (settle db (deleteTag db id))

/-- The store was led to by calls, from the one that was just created. -/
def Reachable (db : Database) : Prop :=
  ∃ calls, System.run storeStep Database.fresh calls = some db

/-- The keys of the folders hold: ids are unique, and every parent is there. -/
structure FolderKeys (folders : List Folder) : Prop where
  unique : (folders.map Folder.id).Nodup
  parents : ∀ folder ∈ folders, ∀ parent, folder.parentId = some parent →
    ∃ known ∈ folders, known.id = parent

/-- What holds of every store that calls lead to. -/
structure Intact (db : Database) : Prop where
  consistent : Consistent db
  /-- Every row of the hosts can be read as a record. -/
  readable : ∀ row ∈ db.hosts, ∃ host, rowToHost row = .ok host
  keys : FolderKeys db.folders

section Folders

variable {now : Int} {db after : Database} {folders : List Folder}

/-- Only one folder has an id. -/
theorem FolderKeys.folder_inj (keys : FolderKeys folders) {folder other : Folder}
    (here : folder ∈ folders) (there : other ∈ folders) (same : folder.id = other.id) :
    folder = other :=
  List.inj_on_of_nodup_map keys.unique here there same

/-- A new folder keeps the keys. -/
theorem FolderKeys.append {folder : Folder} (keys : FolderKeys db.folders)
    (new : folder.id = nextFolderId db.folders) (accepted : checkFolder db folder = .ok ()) :
    FolderKeys (db.folders ++ [folder]) := by
  refine ⟨nodup_ids_append keys.unique new, ?_⟩
  intro old member parent inside
  rcases List.mem_append.mp member with earlier | last
  · obtain ⟨known, there, same⟩ := keys.parents old earlier parent inside
    exact ⟨known, List.mem_append_left _ there, same⟩
  · obtain rfl := List.mem_singleton.mp last
    -- The foreign key lets a folder in that is its own parent.
    rcases (checkFolder_eq_ok_iff.mp accepted).2 parent inside with own | ⟨known, there, same⟩
    · exact ⟨old, member, own.symm⟩
    · exact ⟨known, List.mem_append_left _ there, same⟩

/-- A folder that is rewritten under its own id, as the schema accepts, keeps the keys. -/
theorem FolderKeys.rewrite {folder : Folder} {rewrite : Folder → Folder}
    (keys : FolderKeys db.folders) (member : folder ∈ db.folders)
    (named : ∀ other, (rewrite other).id = other.id)
    (accepted : checkFolder db (rewrite folder) = .ok ()) :
    FolderKeys (rewritten db.folders folder.id rewrite) := by
  -- A folder that was there is there under its id.
  have still : ∀ id, (∃ known ∈ db.folders, known.id = id) →
      ∃ known ∈ rewritten db.folders folder.id rewrite, known.id = id := by
    rintro id ⟨known, there, rfl⟩
    have kept : known.id ∈ (rewritten db.folders folder.id rewrite).map Folder.id := by
      rw [ids_rewritten named]
      exact List.mem_map_of_mem there
    obtain ⟨later, stored, same⟩ := List.mem_map.mp kept
    exact ⟨later, stored, same⟩
  refine ⟨(ids_rewritten named).symm ▸ keys.unique, ?_⟩
  intro other there parent inside
  -- The rewritten folder's parent was checked, and the others keep theirs.
  rcases mem_rewritten.mp there with ⟨old, stored, same, rfl⟩ | ⟨stored, -⟩
  · obtain rfl := keys.folder_inj stored member same
    rcases (checkFolder_eq_ok_iff.mp accepted).2 parent inside with own | known
    · rw [named] at own
      exact still parent ⟨old, member, own.symm⟩
    · exact still parent known
  · exact still parent (keys.parents other stored parent inside)

/-- A cascade keeps the keys. -/
theorem FolderKeys.cascade (keys : FolderKeys folders) (id : Int) :
    FolderKeys (cascade folders id) := by
  obtain ⟨sub, closed⟩ := cascade_closed folders id
  exact ⟨keys.unique.sublist (sub.map _), closed⟩

end Folders

section Deletions

variable {db after : Database} {id : Int}

/-- A host whose folder is gone is filed at the root. -/
def unfile (folders : List Folder) (row : HostRow) : HostRow :=
  if row.folderId.any fun filed => !folders.any fun folder => folder.id == filed then
    { row with folderId := none }
  else row

/-- A successful deletion of a folder found it, and left what the schema says. -/
theorem deleteFolder_eq (deleted : deleteFolder db id = .ok after) :
    (∃ folder ∈ db.folders, folder.id = id) ∧
      after = { db with
        folders := cascade db.folders id
        hosts := db.hosts.map (unfile (cascade db.folders id)) } := by
  -- The statement is made when some folder has the id, and fails otherwise.
  unfold deleteFolder at deleted
  split at deleted
  · rename_i found
    cases deleted
    exact ⟨by simpa using found, rfl⟩
  · cases deleted

/-- A host that is unfiled keeps its origin. -/
theorem origin_unfile (folders : List Folder) (row : HostRow) :
    origin (unfile folders row) = origin row := by
  unfold unfile
  split
  · rfl
  · rfl

/-- A host that is unfiled is left in a folder that is there, if in any. -/
theorem unfile_filed {folders : List Folder} {row : HostRow} {filed : Int}
    (inside : (unfile folders row).folderId = some filed) :
    row.folderId = some filed ∧ ∃ known ∈ folders, known.id = filed := by
  -- A host whose folder went is filed nowhere, and any other keeps its folder.
  unfold unfile at inside
  split at inside
  · cases inside
  · rename_i kept
    rw [inside] at kept
    exact ⟨inside, by simpa using kept⟩

/-- A host that is unfiled can be read if it could before. -/
theorem readable_unfile {folders : List Folder} {row : HostRow}
    (readable : ∃ host, rowToHost row = .ok host) :
    ∃ host, rowToHost (unfile folders row) = .ok host := by
  -- The folder is one of the columns that are not converted.
  obtain ⟨host, read⟩ := readable
  unfold unfile
  split
  · have moved := rowToHost_unconverted row none row.lastConnectedAt row.connectCount row.updatedAt
    rw [read] at moved
    exact ⟨_, moved⟩
  · exact ⟨host, read⟩

end Deletions

section Steps

variable {now id : Int} {db after : Database}

/-- Other folders keep a store consistent as long as every host is filed in one of them. -/
theorem Consistent.of_folders (consistent : Consistent db) (hosts : after.hosts = db.hosts)
    (filed : ∀ row ∈ db.hosts, ∀ id, row.folderId = some id →
      ∃ known ∈ after.folders, known.id = id) : Consistent after := by
  refine ⟨hosts ▸ consistent.unique, ?_, ?_⟩
  · intro row member
    rw [hosts] at member
    -- A row's folder is the one column that depends on the folders.
    obtain ⟨port, keepalive, reconnect, -⟩ := consistent.valid row member
    exact ⟨port, keepalive, reconnect, filed row member⟩
  · intro row member
    rw [hosts] at member ⊢
    exact consistent.free row member

/-- A store is intact when its rows and its folders are as in one that is. -/
theorem Intact.of_same (intact : Intact db) (hosts : after.hosts = db.hosts)
    (folders : after.folders = db.folders) : Intact after := by
  refine ⟨intact.consistent.of_folders hosts ?_, hosts ▸ intact.readable, folders ▸ intact.keys⟩
  intro row member id inside
  rw [folders]
  exact (intact.consistent.valid row member).folder id inside

/-- A creation keeps a store intact. -/
theorem Intact.create {draft : NewHost} (intact : Intact db)
    (created : create now db draft = .ok (id, after)) : Intact after := by
  refine ⟨intact.consistent.create created, ?_, ?_⟩
  · -- The row of a draft reads back as the record that it is of.
    obtain ⟨-, rfl⟩ := create_eq created
    intro row member
    rcases List.mem_append.mp member with earlier | last
    · exact intact.readable row earlier
    · rw [List.mem_singleton.mp last]
      exact ⟨_, rowToHost_rowOf _⟩
  · obtain ⟨-, rfl⟩ := create_eq created
    exact intact.keys

/-- An update keeps a store intact. -/
theorem Intact.update {host : Host} (intact : Intact db)
    (updated : update now db host = .ok after) : Intact after := by
  refine ⟨intact.consistent.update updated, ?_, ?_⟩
  · obtain ⟨-, -, rfl⟩ := update_eq updated
    intro row member
    -- What an update writes can be read.
    obtain ⟨old, there, rfl⟩ := List.mem_map.mp member
    split
    · exact readable_overwrite now host old
    · exact intact.readable old there
  · obtain ⟨-, -, rfl⟩ := update_eq updated
    exact intact.keys

/-- A deletion keeps a store intact. -/
theorem Intact.delete (intact : Intact db) (deleted : delete db id = .ok after) :
    Intact after := by
  -- The rows that are left are some of those before, and the folders are not touched.
  refine ⟨intact.consistent.delete deleted, ?_, ?_⟩
  · obtain ⟨-, rfl⟩ := delete_eq deleted
    exact fun row member => intact.readable row (List.mem_of_mem_filter member)
  · obtain ⟨-, rfl⟩ := delete_eq deleted
    exact intact.keys

/-- A move keeps a store intact. -/
theorem Intact.moveToFolder {to_ : Option Int} (intact : Intact db)
    (moved : moveToFolder now db id to_ = .ok after) : Intact after := by
  refine ⟨intact.consistent.moveToFolder moved, ?_, ?_⟩
  · obtain ⟨-, rfl⟩ := moveToFolder_eq moved
    intro row member
    obtain ⟨old, there, rfl⟩ := List.mem_map.mp member
    -- What is converted when a row is read is not what a move writes.
    split
    · obtain ⟨host, read⟩ := intact.readable old there
      have filed := rowToHost_unconverted old to_ old.lastConnectedAt old.connectCount now
      rw [read] at filed
      exact ⟨_, filed⟩
    · exact intact.readable old there
  · obtain ⟨-, rfl⟩ := moveToFolder_eq moved
    exact intact.keys

/-- Counting a connection keeps a store intact. -/
theorem Intact.recordConnection (intact : Intact db) (id at_ : Int) :
    Intact (recordConnection db id at_) := by
  refine ⟨intact.consistent.recordConnection id at_, ?_, intact.keys⟩
  intro row member
  obtain ⟨old, there, rfl⟩ := List.mem_map.mp member
  split
  · -- The counters are read as they are stored.
    obtain ⟨host, read⟩ := intact.readable old there
    have counted := rowToHost_stats old (some at_) (old.connectCount + 1)
    rw [read] at counted
    exact ⟨_, counted⟩
  · exact intact.readable old there

/-- One turn of an import keeps a store intact. -/
theorem Intact.upsertStep {c : Candidate} (intact : Intact db)
    (taken : upsertStep now db c = some after) : Intact after := by
  rcases upsertStep_cases taken with ⟨existing, -, updated⟩ | ⟨-, id, created⟩
  · exact intact.update updated
  · exact intact.create created

/-- Rewriting a folder under its own id keeps a store intact. -/
theorem Intact.updateFolder {rewrite : Folder → Folder} (intact : Intact db)
    (named : ∀ other, (rewrite other).id = other.id)
    (updated : updateFolder db id rewrite = .ok after) : Intact after := by
  obtain ⟨folder, member, rfl, accepted, rfl⟩ := updateFolder_eq updated
  have keys : FolderKeys (rewritten db.folders folder.id rewrite) :=
    intact.keys.rewrite member named accepted
  refine ⟨intact.consistent.of_folders rfl ?_, intact.readable, keys⟩
  intro row filed id inside
  -- The folder of a host is there under its id, rewritten or not.
  obtain ⟨known, there, same⟩ := (intact.consistent.valid row filed).folder id inside
  by_cases hit : known.id = folder.id
  · exact ⟨rewrite known, mem_rewritten.mpr (.inl ⟨known, there, hit, rfl⟩),
      (named known).trans same⟩
  · exact ⟨known, mem_rewritten.mpr (.inr ⟨there, hit⟩), same⟩

/-- A move that succeeds is a rewriting of the folder that is moved. -/
theorem updateFolder_of_reparent {to_ : Option Int}
    (moved : reparent now db id to_ = some (.ok after)) :
    updateFolder db id (fun folder => folder.moved now to_) = .ok after := by
  unfold reparent at moved
  split at moved
  · cases moved
  · dsimp only at moved
    split at moved
    · exact Option.some.inj moved
    · -- The ancestors of the target were looked through, without the folder among them.
      obtain ⟨rows, -, done⟩ := Option.map_eq_some_iff.mp moved
      split at done
      · cases done
      · exact done

/-- A deletion of a folder keeps a store intact. -/
theorem Intact.deleteFolder (intact : Intact db) (deleted : deleteFolder db id = .ok after) :
    Intact after := by
  obtain ⟨-, rfl⟩ := deleteFolder_eq deleted
  -- The hosts are unfiled first, and then the folders that went leave none of them behind.
  have unfiled : Consistent
      { db with hosts := db.hosts.map (unfile (cascade db.folders id)) } := by
    refine intact.consistent.of_rewriting (fun row _ => origin_unfile _ row) rfl rfl ?_
    intro row member
    obtain ⟨port, keepalive, reconnect, folder⟩ := intact.consistent.valid row member
    unfold unfile
    split
    · exact ⟨port, keepalive, reconnect, fun id inside => nomatch inside⟩
    · exact ⟨port, keepalive, reconnect, folder⟩
  refine ⟨unfiled.of_folders rfl ?_, ?_, intact.keys.cascade id⟩
  · intro row member filed inside
    obtain ⟨old, -, rfl⟩ := List.mem_map.mp member
    exact (unfile_filed inside).2
  · intro row member
    obtain ⟨old, there, rfl⟩ := List.mem_map.mp member
    exact readable_unfile (intact.readable old there)

/-- A creation of a folder keeps a store intact. -/
theorem Intact.createFolder {parent : Option Int} {name : String} (intact : Intact db)
    (created : createFolder now db parent name = .ok (id, after)) : Intact after := by
  -- A folder that is added leaves every other one where a row may be filed.
  obtain ⟨folder, new, -, accepted, rfl⟩ := createFolder_eq created
  refine ⟨intact.consistent.of_folders rfl ?_, intact.readable, intact.keys.append new accepted⟩
  intro row member id inside
  obtain ⟨known, there, same⟩ := (intact.consistent.valid row member).folder id inside
  exact ⟨known, List.mem_append_left _ there, same⟩

/-- A call that fails keeps what holds of a store, and one that succeeds may not break it. -/
theorem settle_preserves {Holds : Database → Prop} {result : Except StoreError Database}
    (before : Holds db) (kept : ∀ after, result = .ok after → Holds after) :
    Holds (settle db result) := by
  cases result with
  | error reason => exact before
  | ok after => exact kept after rfl

/-- The same for a call that answers with an id besides. -/
theorem settle_snd_preserves {Holds : Database → Prop}
    {result : Except StoreError (Int × Database)} (before : Holds db)
    (kept : ∀ id after, result = .ok (id, after) → Holds after) :
    Holds (settle db (result.map Prod.snd)) := by
  cases result with
  | error reason => exact before
  | ok answer => exact kept answer.1 answer.2 rfl

/-- A call on the folders keeps a store intact. -/
theorem Intact.folderStep {call : Int × FolderCall} (intact : Intact db)
    (taken : folderStep db call = some after) : Intact after := by
  -- A call that fails leaves the store, and each of the four has its lemma.
  obtain ⟨now, call⟩ := call
  cases call with
  | create parent name =>
    cases taken
    exact settle_snd_preserves intact fun _ _ created => intact.createFolder created
  | rename id name =>
    cases taken
    refine settle_preserves intact fun after renamed => ?_
    obtain ⟨trimmed, -, updated⟩ := bind_eq_ok renamed
    refine intact.updateFolder ?_ updated
    -- A folder keeps its id under a new name, and in a new place.
    exact fun _ => rfl
  | reparent id to_ =>
    obtain ⟨result, moved, rfl⟩ := Option.map_eq_some_iff.mp taken
    refine settle_preserves intact fun after done => ?_
    subst done
    refine intact.updateFolder ?_ (updateFolder_of_reparent moved)
    exact fun _ => rfl
  | delete id =>
    cases taken
    exact settle_preserves intact fun _ deleted => intact.deleteFolder deleted

/-- Creating a tag changes neither the rows nor the folders, and attaches it to none. -/
theorem getOrCreateTag_frame {name : String} {color : Option String}
    (created : getOrCreateTag now db name color = .ok (id, after)) :
    after.hosts = db.hosts ∧ after.folders = db.folders ∧ after.hostTags = db.hostTags := by
  -- A new tag goes into the table of tags, and a known one goes nowhere.
  unfold getOrCreateTag at created
  dsimp only at created
  split at created
  · cases created
  · split at created
    · cases created
      exact ⟨rfl, rfl, rfl⟩
    · cases created
      exact ⟨rfl, rfl, rfl⟩

/-- One call keeps a store intact. -/
theorem intact_step {call : Int × StoreCall} (intact : Intact db)
    (taken : storeStep db call = some after) : Intact after := by
  obtain ⟨now, call⟩ := call
  -- A call that fails leaves the store, and the rest is one lemma for each call.
  cases call with
  | createHost draft =>
    cases taken
    exact settle_snd_preserves intact fun _ _ created => intact.create created
  | updateHost host =>
    cases taken
    exact settle_preserves intact fun _ updated => intact.update updated
  | deleteHost id =>
    cases taken
    exact settle_preserves intact fun _ deleted => intact.delete deleted
  | moveHost id to_ =>
    cases taken
    exact settle_preserves intact fun _ moved => intact.moveToFolder moved
  | setHostTags id tags =>
    cases taken
    -- Tags belong to no row, so that the rows and the folders stay.
    refine settle_preserves intact fun after done => ?_
    exact intact.of_same (hosts_setTags done) (frame_setTags done).1
  | recordConnection id at_ =>
    cases taken
    exact intact.recordConnection id at_
  | importHosts chosen =>
    cases taken
    show Intact (apply now db ⟨0, 0⟩ chosen).1
    -- An import that fails ends behind the last turn that was taken.
    rw [apply_store]
    exact System.runWhile_invariant Intact (fun _ intact taken => intact.upsertStep taken)
      (@System.meets_of_forall _ _ _ (fun _ _ => True) (fun _ _ => trivial) db chosen) intact
  | folder call => exact intact.folderStep taken
  | createTag name color =>
    cases taken
    refine settle_snd_preserves intact fun _ _ created => ?_
    obtain ⟨hosts, folders, -⟩ := getOrCreateTag_frame created
    exact intact.of_same hosts folders
  | deleteTag id =>
    cases taken
    refine settle_preserves intact fun after deleted => ?_
    unfold deleteTag at deleted
    split at deleted
    · cases deleted
      exact intact.of_same rfl rfl
    · cases deleted

/-- A store that was just created is intact. -/
theorem intact_fresh : Intact Database.fresh :=
  ⟨consistent_fresh, fun _ member => absurd member List.not_mem_nil,
    List.nodup_nil, fun _ member => absurd member List.not_mem_nil⟩

/-- Every store that calls lead to is intact. -/
theorem Reachable.intact (reachable : Reachable db) : Intact db := by
  obtain ⟨calls, ran⟩ := reachable
  exact System.run_preserves intact_step intact_fresh ran

end Steps

end Tern.Store
