import Mathlib.Data.Prod.Lex
import Mathlib.Data.String.Basic
import Tern.Base.RecursiveQuery
import Tern.Store.Hosts

/-! The table of folders: its constraints, its operations, and the queries that walk it. -/

namespace Tern.Store

section Table

/-- A name as the collation compares it, with the case of ASCII letters dropped. -/
def nocase (name : String) : String := String.ofList (name.toList.map Char.toLower)

/-- The parent of a folder as the index sees it, where the root has a number of its own. -/
def siblingKey (parent : Option Int) : Int := parent.getD (-1)

/-- What the schema demands of a folder, given the other folders. -/
def checkFolder (db : Database) (folder : Folder) : Except StoreError Unit :=
  if db.folders.any fun other => other.id != folder.id &&
      siblingKey other.parentId == siblingKey folder.parentId &&
      nocase other.name == nocase folder.name then
    .error (.constraint "folders_parent_name")
  -- A row that refers to itself satisfies its own foreign key.
  else if folder.parentId.any fun parent =>
      parent != folder.id && !db.folders.any fun known => known.id == parent then
    .error (.constraint "parent_id")
  else .ok ()

/-- The rowid an insert is given: one above the largest in the table. -/
def nextFolderId (folders : List Folder) : Int :=
  folders.foldl (fun largest folder => max largest folder.id) 0 + 1

/-- The place behind the last sibling. -/
def nextPosition (folders : List Folder) (parent : Option Int) : Int :=
  let siblings := folders.filter fun folder => siblingKey folder.parentId == siblingKey parent
  (siblings.map Folder.position).max?.getD (-1) + 1

/-- The folders whose parent is still there. -/
def dropOrphans (folders : List Folder) : List Folder :=
  folders.filter fun folder => folder.parentId.all fun parent =>
    folders.any fun known => known.id == parent

/-- The folders that are left when one goes, and with it all that was below it. -/
def cascade (folders : List Folder) (id : Int) : List Folder :=
  -- Every round that drops something shortens the table.
  dropOrphans^[folders.length] (folders.filter fun folder => folder.id ≠ id)

end Table

section Queries

/-- The parents that the ancestry query adds for one folder. -/
def parentsOf (folders : List Folder) (id : Int) : List Int :=
  folders.filterMap fun folder => if folder.id = id then folder.parentId else none

/-- A folder and all that it lies in, unless that goes on forever. -/
def ancestors (folders : List Folder) (target : Int) : Option (List Int) :=
  -- More rows than there are folders besides the target would repeat themselves.
  RecursiveQuery.run (parentsOf folders) (folders.length + 1) [target]

/-- The folders that lie directly in one, a step deeper. -/
def childrenOf (folders : List Folder) (row : Folder × Nat) : List (Folder × Nat) :=
  (folders.filter fun folder => folder.parentId = some row.1.id).map fun folder =>
    (folder, row.2 + 1)

/-- The folders at the root. -/
def roots (folders : List Folder) : List (Folder × Nat) :=
  (folders.filter fun folder => folder.parentId = none).map fun folder => (folder, 0)

/-- What the rows of the tree are ordered by. -/
def treeKey (row : Folder × Nat) : Nat ×ₗ Int ×ₗ String :=
  toLex (row.2, toLex (row.1.position, nocase row.1.name))

/-- A row of the tree may come in front of another one. -/
def treeOrder (row other : Folder × Nat) : Bool := decide (treeKey row ≤ treeKey other)

/-- Every folder below the root, ordered so that a parent always precedes its children. -/
def tree (folders : List Folder) : Option (List Folder) :=
  (RecursiveQuery.run (childrenOf folders) folders.length (roots folders)).map fun rows =>
    (rows.mergeSort treeOrder).map Prod.fst

end Queries

section Repository

/-- A name that is not blank. -/
def folderName (name : String) : Except StoreError String :=
  let name := Text.trim name
  if name.isEmpty then .error (.invalid "folder name cannot be empty") else .ok name

/-- Create a folder behind its siblings, answering with its id. -/
def createFolder (now : Int) (db : Database) (parent : Option Int) (name : String) :
    Except StoreError (Int × Database) := do
  let name ← folderName name
  let folder : Folder := {
    id := nextFolderId db.folders
    parentId := parent
    name := name
    position := nextPosition db.folders parent
    createdAt := now
    updatedAt := now }
  checkFolder db folder
  return (folder.id, { db with folders := db.folders ++ [folder] })

/-- Write new columns to the folder of an id. -/
def updateFolder (db : Database) (id : Int) (rewrite : Folder → Folder) :
    Except StoreError Database :=
  match db.folders.find? fun folder => folder.id = id with
  | none => .error (.notFound "folder" id)
  | some folder => do
    checkFolder db (rewrite folder)
    return { db with
      folders := db.folders.map fun other => if other.id = id then rewrite other else other }

/-- A folder under a new name. -/
def Folder.renamed (self : Folder) (now : Int) (name : String) : Folder :=
  { self with name := name, updatedAt := now }

/-- A folder in a new place. -/
def Folder.moved (self : Folder) (now : Int) (to_ : Option Int) : Folder :=
  { self with parentId := to_, updatedAt := now }

/-- Rename a folder. -/
def renameFolder (now : Int) (db : Database) (id : Int) (name : String) :
    Except StoreError Database := do
  let name ← folderName name
  updateFolder db id fun folder => folder.renamed now name

/-- Move a folder under a new parent, unless the query for that parent's ancestors never ends. -/
def reparent (now : Int) (db : Database) (id : Int) (to_ : Option Int) :
    Option (Except StoreError Database) :=
  if some id = to_ then some (.error (.folderCycle id id))
  else
    let move := updateFolder db id fun folder => folder.moved now to_
    match to_ with
    | none => some move
    | some target =>
      (ancestors db.folders target).map fun rows =>
        if id ∈ rows then .error (.folderCycle id target) else move

/-- Delete a folder with all that lies in it, and file the hosts of those folders at the root. -/
def deleteFolder (db : Database) (id : Int) : Except StoreError Database :=
  if db.folders.any fun folder => folder.id == id then
    let folders := cascade db.folders id
    .ok { db with
      folders := folders
      hosts := db.hosts.map fun row =>
        if row.folderId.any fun filed => !folders.any fun folder => folder.id == filed then
          { row with folderId := none }
        else row }
  else .error (.notFound "folder" id)

/-- One call of the repository that writes. -/
inductive FolderCall where
  | create (parent : Option Int) (name : String)
  | rename (id : Int) (name : String)
  | reparent (id : Int) (to_ : Option Int)
  | delete (id : Int)
  deriving DecidableEq, Repr

/-- The store a call leaves, where a call that fails leaves it as it was. -/
def settle (db : Database) : Except StoreError Database → Database
  | .ok after => after
  | .error _ => db

/-- The store after one call, unless the call never returns. -/
def folderStep (db : Database) (call : Int × FolderCall) : Option Database :=
  match call.2 with
  | .create parent name =>
    some (settle db ((createFolder call.1 db parent name).map Prod.snd))
  | .rename id name => some (settle db (renameFolder call.1 db id name))
  | .reparent id to_ => (Store.reparent call.1 db id to_).map (settle db)
  | .delete id => some (settle db (deleteFolder db id))

end Repository

end Tern.Store
