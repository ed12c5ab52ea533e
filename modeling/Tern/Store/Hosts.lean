import Mathlib.Data.List.Sort
import Tern.Store.Model

/-! The table of hosts: its rows, its constraints, and the operations that read and write it. -/

namespace Tern.Store

/-- A row of the table, column by column. -/
structure HostRow where
  id : Int
  folderId : Option Int
  name : String
  hostname : String
  port : Int
  username : String
  authMethod : String
  secretRef : Option String
  keyPath : Option String
  term : Option String
  keepaliveSecs : Option Int
  keepaliveMax : Option Int
  connectTimeoutSecs : Option Int
  windowSize : Option Int
  reconnectEnabled : Option Int
  reconnectMaxAttempts : Option Int
  proxyJump : Option String
  source : String
  sourceAlias : Option String
  color : Option String
  notes : Option String
  lastConnectedAt : Option Int
  connectCount : Int
  createdAt : Int
  updatedAt : Int
  authFallbacks : Option String
  deriving DecidableEq, Repr

/-- The tables that host records live in and refer to. -/
structure Database where
  hosts : List HostRow
  folders : List Folder
  tags : List Tag
  /-- Pairs of a host and a tag it carries. -/
  hostTags : List (Int × Int)
  deriving DecidableEq, Repr

/-- A store that was just created. -/
def Database.fresh : Database := ⟨[], [], [], []⟩

section Rows

/-- An integer column read into sixteen bits. -/
def readU16 (column : String) (value : Int) : Except StoreError UInt16 :=
  if 0 ≤ value ∧ value < 65536 then .ok (UInt16.ofNat value.toNat) else .error (.conversion column)

/-- A nullable integer column read into thirty-two bits. -/
def readU32 (column : String) : Option Int → Except StoreError (Option UInt32)
  | none => .ok none
  | some value =>
    if 0 ≤ value ∧ value < 4294967296 then .ok (some (UInt32.ofNat value.toNat))
    else .error (.conversion column)

/-- A row as a record, with the tags still to be attached. -/
def rowToHost (row : HostRow) : Except StoreError Host := do
  let port ← readU16 "port" row.port
  let auth ← AuthKind.tryFrom row.authMethod
  let keepaliveSecs ← readU32 "keepalive_secs" row.keepaliveSecs
  let keepaliveMax ← readU32 "keepalive_max" row.keepaliveMax
  let connectTimeoutSecs ← readU32 "connect_timeout_secs" row.connectTimeoutSecs
  let windowSize ← readU32 "window_size" row.windowSize
  let reconnectMaxAttempts ← readU32 "reconnect_max_attempts" row.reconnectMaxAttempts
  let source ← HostSource.tryFrom row.source
  return {
    id := row.id
    folderId := row.folderId
    name := row.name
    hostname := row.hostname
    port := port
    username := row.username
    auth := auth
    authFallbacks := decodeAuthFallbacks row.authFallbacks
    secretRef := row.secretRef
    keyPath := row.keyPath
    overrides := {
      term := row.term
      keepaliveSecs := keepaliveSecs
      keepaliveMax := keepaliveMax
      connectTimeoutSecs := connectTimeoutSecs
      windowSize := windowSize
      reconnectEnabled := row.reconnectEnabled.map fun value => decide (value ≠ 0)
      reconnectMaxAttempts := reconnectMaxAttempts }
    proxyJump := row.proxyJump
    source := source
    sourceAlias := row.sourceAlias
    color := row.color
    notes := row.notes
    lastConnectedAt := row.lastConnectedAt
    connectCount := row.connectCount
    createdAt := row.createdAt
    updatedAt := row.updatedAt
    tags := [] }

/-- An unsigned field as it is bound to a statement. -/
def writeU32 (value : Option UInt32) : Option Int :=
  value.map fun number => (number.toNat : Int)

/-- A record as the row it is stored in. -/
def rowOf (host : Host) : HostRow where
  id := host.id
  folderId := host.folderId
  name := host.name
  hostname := host.hostname
  port := host.port.toNat
  username := host.username
  authMethod := host.auth.asStr
  secretRef := host.secretRef
  keyPath := host.keyPath
  term := host.overrides.term
  keepaliveSecs := writeU32 host.overrides.keepaliveSecs
  keepaliveMax := writeU32 host.overrides.keepaliveMax
  connectTimeoutSecs := writeU32 host.overrides.connectTimeoutSecs
  windowSize := writeU32 host.overrides.windowSize
  reconnectEnabled := host.overrides.reconnectEnabled.map fun enabled => if enabled then 1 else 0
  reconnectMaxAttempts := writeU32 host.overrides.reconnectMaxAttempts
  proxyJump := host.proxyJump
  source := host.source.asStr
  sourceAlias := host.sourceAlias
  color := host.color
  notes := host.notes
  lastConnectedAt := host.lastConnectedAt
  connectCount := host.connectCount
  createdAt := host.createdAt
  updatedAt := host.updatedAt
  authFallbacks := encodeAuthFallbacks host.authFallbacks

/-- A port always fits its column and comes back. -/
@[simp] theorem readU16_toNat (column : String) (value : UInt16) :
    readU16 column value.toNat = .ok value := by
  have bound := value.toNat_lt
  rw [readU16, if_pos (by omega)]
  simp

/-- An unsigned field always fits its column and comes back. -/
@[simp] theorem readU32_writeU32 (column : String) (value : Option UInt32) :
    readU32 column (writeU32 value) = .ok value := by
  -- The column holds any number of 32 bits, and reading checks just that bound.
  cases value with
  | none => rfl
  | some number =>
    have bound := number.toNat_lt
    rw [writeU32, Option.map_some, readU32, if_pos (by omega)]
    simp

/-- A switch comes back from its integer. -/
@[simp] theorem reconnectEnabled_roundtrip (value : Option Bool) :
    (value.map fun enabled => if enabled then (1 : Int) else 0).map
      (fun stored => decide (stored ≠ 0)) = value := by
  -- A switch is written as one or zero, and read as whether it is zero.
  cases value with
  | none => rfl
  | some enabled =>
    cases enabled with
    | true => rfl
    | false => rfl

/-- A stored record reads back whole, but for the tags it is joined with. -/
theorem rowToHost_rowOf (host : Host) : rowToHost (rowOf host) = .ok { host with tags := [] } := by
  -- Every column that is converted comes back, so no step of the reading fails.
  unfold rowToHost rowOf
  rw [readU16_toNat, AuthKind.tryFrom_asStr]
  simp only [readU32_writeU32, HostSource.tryFrom_asStr, decode_encodeAuthFallbacks,
    reconnectEnabled_roundtrip]
  rfl

/-- A sequence that succeeds succeeds in both its parts. -/
theorem bind_eq_ok {ε α β : Type} {first : Except ε α} {next : α → Except ε β} {result : β}
    (succeeded : first >>= next = .ok result) :
    ∃ value, first = .ok value ∧ next value = .ok result := by
  cases first with
  | error reason => cases succeeded
  | ok value => exact ⟨value, rfl, succeeded⟩

/-- A check passes when it has nothing to object and what follows it passes. -/
theorem ite_error_eq_ok {objection : Prop} [Decidable objection] {reason : StoreError}
    {rest : Except StoreError Unit} :
    (if objection then .error reason else rest) = .ok () ↔ ¬objection ∧ rest = .ok () := by
  by_cases objects : objection
  · simp [objects]
  · simp [objects]

/-- A record read from a row takes over every column that needs no conversion. -/
theorem rowToHost_eq {row : HostRow} {host : Host} (read : rowToHost row = .ok host) :
    ∃ port auth overrides source, HostSource.tryFrom row.source = .ok source ∧
      host = {
        id := row.id
        folderId := row.folderId
        name := row.name
        hostname := row.hostname
        port := port
        username := row.username
        auth := auth
        authFallbacks := decodeAuthFallbacks row.authFallbacks
        secretRef := row.secretRef
        keyPath := row.keyPath
        overrides := overrides
        proxyJump := row.proxyJump
        source := source
        sourceAlias := row.sourceAlias
        color := row.color
        notes := row.notes
        lastConnectedAt := row.lastConnectedAt
        connectCount := row.connectCount
        createdAt := row.createdAt
        updatedAt := row.updatedAt
        tags := [] } := by
  unfold rowToHost at read
  -- Each conversion that can fail is taken off in turn, and the last one is kept.
  obtain ⟨port, -, read⟩ := bind_eq_ok read
  obtain ⟨auth, -, read⟩ := bind_eq_ok read
  obtain ⟨_, -, read⟩ := bind_eq_ok read
  obtain ⟨_, -, read⟩ := bind_eq_ok read
  obtain ⟨_, -, read⟩ := bind_eq_ok read
  obtain ⟨_, -, read⟩ := bind_eq_ok read
  obtain ⟨_, -, read⟩ := bind_eq_ok read
  obtain ⟨source, known, read⟩ := bind_eq_ok read
  cases read
  exact ⟨port, auth, _, source, known, rfl⟩

/-- A record read from a row carries what the row says of its id, its history and its origin. -/
theorem rowToHost_shows {row : HostRow} {host : Host} (read : rowToHost row = .ok host) :
    host.id = row.id ∧ host.folderId = row.folderId ∧ host.updatedAt = row.updatedAt ∧
      host.lastConnectedAt = row.lastConnectedAt ∧ host.connectCount = row.connectCount ∧
      host.createdAt = row.createdAt ∧ host.sourceAlias = row.sourceAlias ∧
      HostSource.tryFrom row.source = .ok host.source := by
  obtain ⟨port, auth, overrides, source, known, rfl⟩ := rowToHost_eq read
  exact ⟨rfl, rfl, rfl, rfl, rfl, rfl, rfl, known⟩

/-- A record read from a row carries the row's id. -/
theorem rowToHost_id {row : HostRow} {host : Host} (read : rowToHost row = .ok host) :
    host.id = row.id :=
  (rowToHost_shows read).1

end Rows

section Operations

/-- What the schema demands of a row, given the other rows. -/
def checkRow (db : Database) (row : HostRow) : Except StoreError Unit :=
  if ¬(1 ≤ row.port ∧ row.port ≤ 65535) then .error (.constraint "port")
  else if row.keepaliveSecs.any fun value => decide (value < 0) then
    .error (.constraint "keepalive_secs")
  else if row.reconnectEnabled.any fun value => decide (value ≠ 0 ∧ value ≠ 1) then
    .error (.constraint "reconnect_enabled")
  else if row.folderId.any fun folder => !db.folders.any fun known => known.id == folder then
    .error (.constraint "folder_id")
  -- Only rows from an ssh_config are keyed by their alias, and nulls never collide.
  else if row.source = "ssh_config" ∧ row.sourceAlias.isSome ∧ db.hosts.any fun other =>
      other.id != row.id && other.source == "ssh_config" &&
        other.sourceAlias == row.sourceAlias then
    .error (.constraint "hosts_source_alias")
  else .ok ()

/-- The rowid an insert is given: one above the largest in the table. -/
def nextId (db : Database) : Int :=
  db.hosts.foldl (fun largest row => max largest row.id) 0 + 1

/-- The record an insert makes of a draft. -/
def hostOfDraft (id now : Int) (draft : NewHost) : Host where
  id := id
  folderId := draft.folderId
  name := draft.name
  hostname := draft.hostname
  port := draft.port
  username := draft.username
  auth := draft.auth
  authFallbacks := draft.authFallbacks
  secretRef := draft.secretRef
  keyPath := draft.keyPath
  overrides := draft.overrides
  proxyJump := draft.proxyJump
  source := draft.source
  sourceAlias := draft.sourceAlias
  color := draft.color
  notes := draft.notes
  lastConnectedAt := none
  connectCount := 0
  createdAt := now
  updatedAt := now
  tags := []

/-- Insert a host, answering with its id. -/
def create (now : Int) (db : Database) (draft : NewHost) :
    Except StoreError (Int × Database) := do
  let id := nextId db
  let row := rowOf (hostOfDraft id now draft)
  checkRow db row
  return (id, { db with hosts := db.hosts ++ [row] })

/-- The row under an id. -/
def lookup (db : Database) (id : Int) : Option HostRow :=
  db.hosts.find? fun row => row.id = id

/-- The tags a host carries, in the order of their ids. -/
def tagsFor (db : Database) (id : Int) : List Int :=
  ((db.hostTags.filter fun pair => pair.1 = id).map Prod.snd).insertionSort (· ≤ ·)

/-- A row as a record with its tags. -/
def attachTags (db : Database) (row : HostRow) : Except StoreError Host :=
  (rowToHost row).map fun host => { host with tags := tagsFor db row.id }

/-- The host under an id. -/
def get (db : Database) (id : Int) : Except StoreError (Option Host) :=
  match lookup db id with
  | none => .ok none
  | some row => (attachTags db row).map some

/-- The row an update leaves: the record's columns, and what no statement sets. -/
def overwrite (now : Int) (host : Host) (row : HostRow) : HostRow :=
  { rowOf host with
    lastConnectedAt := row.lastConnectedAt
    connectCount := row.connectCount
    createdAt := row.createdAt
    updatedAt := now }

/-- Replace a whole record, keeping its connection history and its time of creation. -/
def update (now : Int) (db : Database) (host : Host) : Except StoreError Database :=
  match lookup db host.id with
  | none => .error (.notFound "host" host.id)
  | some row => do
    checkRow db (overwrite now host row)
    return { db with
      hosts := db.hosts.map fun other =>
        if other.id = host.id then overwrite now host other else other }

/-- Delete a host, and with it the pairs that tag it. -/
def delete (db : Database) (id : Int) : Except StoreError Database :=
  match lookup db id with
  | none => .error (.notFound "host" id)
  | some _ => .ok
      { db with
        hosts := db.hosts.filter fun row => row.id ≠ id
        hostTags := db.hostTags.filter fun pair => pair.1 ≠ id }

/-- File a host under a folder, or under none. -/
def moveToFolder (now : Int) (db : Database) (id : Int) (to_ : Option Int) :
    Except StoreError Database :=
  match lookup db id with
  | none => .error (.notFound "host" id)
  | some _ =>
    -- Of the constraints on a row, a move can only violate the foreign key.
    if to_.any fun folder => !db.folders.any fun known => known.id == folder then
      .error (.constraint "folder_id")
    else .ok { db with
      hosts := db.hosts.map fun row =>
        if row.id = id then { row with folderId := to_, updatedAt := now } else row }

/-- The pairs after one tag was inserted, which an existing pair ignores. -/
def insertTag (db : Database) (id : Int) (pairs : List (Int × Int)) (tag : Int) :
    Except StoreError (List (Int × Int)) :=
  -- A foreign key is not a conflict that the insert may ignore.
  if ¬(db.tags.any fun known => known.id == tag) ∨ (lookup db id).isNone then
    .error (.constraint "host_tags")
  else if (id, tag) ∈ pairs then .ok pairs
  else .ok (pairs ++ [(id, tag)])

/-- Replace a host's tags in one transaction, which an unknown tag rolls back. -/
def setTags (db : Database) (id : Int) (tags : List Int) : Except StoreError Database := do
  let kept := db.hostTags.filter fun pair => pair.1 ≠ id
  let pairs ← tags.foldlM (insertTag db id) kept
  return { db with hostTags := pairs }

/-- Count a successful connection. -/
def recordConnection (db : Database) (id at_ : Int) : Database :=
  { db with
    hosts := db.hosts.map fun row =>
      if row.id = id then
        { row with lastConnectedAt := some at_, connectCount := row.connectCount + 1 }
      else row }

/-- The host that was imported under an alias. -/
def findBySourceAlias (db : Database) (alias_ : String) : Except StoreError (Option Host) :=
  match db.hosts.find? fun row => row.source == "ssh_config" && row.sourceAlias == some alias_ with
  | none => .ok none
  | some row => (attachTags db row).map some

end Operations

section Laws

/-- A host is in the table. -/
def Present (db : Database) (id : Int) : Prop :=
  ∃ row, lookup db id = some row

/-- What is found under an id is a row of that id. -/
theorem lookup_id {db : Database} {id : Int} {row : HostRow} (found : lookup db id = some row) :
    row.id = id := by
  simpa using List.find?_some found

/-- A table whose rows are rewritten under their own ids is searched row by row. -/
theorem lookup_map {db : Database} {rewrite : HostRow → HostRow}
    (same : ∀ row, (rewrite row).id = row.id) (id : Int) :
    lookup { db with hosts := db.hosts.map rewrite } id = (lookup db id).map rewrite := by
  unfold lookup
  rw [List.find?_map]
  -- The search only looks at ids, which the rewriting keeps.
  simp only [Function.comp_def, same]

/-- Rewriting some rows of a table leaves it as it was when each of them stays what it was. -/
theorem map_eq_self_iff {rows : List HostRow} {hits : HostRow → Prop} [DecidablePred hits]
    {rewrite : HostRow → HostRow} :
    rows.map (fun row => if hits row then rewrite row else row) = rows ↔
      ∀ row ∈ rows, hits row → rewrite row = row := by
  -- A table is its own image under the rewriting that does nothing.
  conv_lhs => rhs; rw [← List.map_id rows]
  rw [List.map_inj_left]
  refine forall₂_congr fun row _ => ?_
  by_cases hit : hits row
  · simp [hit]
  · simp [hit]

/-- The running maximum is at least where it starts and at least every key. -/
theorem le_foldl_max {α : Type} (key : α → Int) (rows : List α) (start : Int) :
    start ≤ rows.foldl (fun largest row => max largest (key row)) start ∧
      ∀ row ∈ rows, key row ≤ rows.foldl (fun largest row => max largest (key row)) start := by
  induction rows generalizing start with
  | nil => simp
  | cons head rest ih =>
    -- The rest starts from the larger one of the start and the first key.
    obtain ⟨low, each⟩ := ih (max start (key head))
    rw [List.foldl_cons]
    refine ⟨by omega, ?_⟩
    intro row member
    rcases List.mem_cons.mp member with rfl | later
    · omega
    · exact each row later

/-- The id an insert is given is not in the table yet. -/
theorem lookup_nextId (db : Database) : lookup db (nextId db) = none := by
  -- The new id is above all ids there are.
  rw [lookup, List.find?_eq_none]
  intro row member
  have below := (le_foldl_max HostRow.id db.hosts 0).2 row member
  have above : row.id < nextId db := by
    unfold nextId
    omega
  simpa using Int.ne_of_lt above

/-- What is shown under an id is its row as a record, with the tags of the id. -/
theorem get_eq_some {db : Database} {id : Int} {host : Host} :
    get db id = .ok (some host) ↔
      ∃ row bare, lookup db id = some row ∧ rowToHost row = .ok bare ∧
        host = { bare with tags := tagsFor db id } := by
  unfold get
  -- Without a row nothing is shown, and a row is shown if it can be read.
  cases found : lookup db id with
  | none => simp
  | some row =>
    have named := lookup_id found
    cases read : rowToHost row with
    | error reason => simp [attachTags, read, Except.map]
    | ok bare => simp [attachTags, read, named, eq_comm, Except.map]

/-- A host that is shown is in the table. -/
theorem present_of_get {db : Database} {id : Int} {host : Host}
    (shown : get db id = .ok (some host)) : Present db id := by
  obtain ⟨row, _, found, -⟩ := get_eq_some.mp shown
  exact ⟨row, found⟩

/-- A record that is shown under an id carries the id. -/
theorem get_id {db : Database} {id : Int} {host : Host} (shown : get db id = .ok (some host)) :
    host.id = id := by
  obtain ⟨row, bare, found, read, rfl⟩ := get_eq_some.mp shown
  exact (rowToHost_id read).trans (lookup_id found)

/-- A successful insert adds one row under a new id. -/
theorem create_eq {now id : Int} {db after : Database} {draft : NewHost}
    (created : create now db draft = .ok (id, after)) :
    id = nextId db ∧
      after = { db with hosts := db.hosts ++ [rowOf (hostOfDraft id now draft)] } := by
  obtain ⟨_, -, created⟩ := bind_eq_ok created
  cases created
  exact ⟨rfl, rfl⟩

/-- After an insert the new id holds the draft, and every other id what it held. -/
theorem lookup_create {now id : Int} {db after : Database} {draft : NewHost}
    (created : create now db draft = .ok (id, after)) (other : Int) :
    lookup after other =
      if other = id then some (rowOf (hostOfDraft id now draft)) else lookup db other := by
  obtain ⟨rfl, rfl⟩ := create_eq created
  unfold lookup
  rw [List.find?_append]
  by_cases same : other = nextId db
  · -- No older row has the new id.
    have fresh := lookup_nextId db
    unfold lookup at fresh
    simp [same, fresh, rowOf, hostOfDraft]
  · have missed : ¬(nextId db = other) := fun equal => same equal.symm
    simp [same, missed, rowOf, hostOfDraft]

/-- A successful update found its host, was accepted, and rewrote the rows of its id alone. -/
theorem update_eq {now : Int} {db after : Database} {host : Host}
    (updated : update now db host = .ok after) :
    Present db host.id ∧ checkRow db (rowOf host) = .ok () ∧
      after = { db with
        hosts := db.hosts.map fun other =>
          if other.id = host.id then overwrite now host other else other } := by
  unfold update at updated
  split at updated
  · -- Nothing is there to update.
    cases updated
  · rename_i row found
    obtain ⟨_, accepted, updated⟩ := bind_eq_ok updated
    cases updated
    -- The schema does not look at the history that the row keeps.
    exact ⟨⟨row, found⟩, accepted, rfl⟩

/-- After an update the id holds the new record, and every other id what it held. -/
theorem lookup_update {now : Int} {db after : Database} {host : Host}
    (updated : update now db host = .ok after) (other : Int) :
    lookup after other =
      if other = host.id then (lookup db other).map (overwrite now host)
      else lookup db other := by
  obtain ⟨-, -, rfl⟩ := update_eq updated
  have same : ∀ row : HostRow,
      (if row.id = host.id then overwrite now host row else row).id = row.id := by
    intro row
    split
    · -- The record that replaces the row carries the same id.
      rename_i same
      exact same.symm
    · rfl
  rw [lookup_map same]
  cases found : lookup db other with
  | none => simp
  | some row =>
    have named := lookup_id found
    -- What is looked up is the row that was written, or one that was left alone.
    by_cases same : other = host.id
    · simp [named, same]
    · simp [named, same]

/-- A successful deletion found its host, and dropped its rows and the pairs that tag it. -/
theorem delete_eq {id : Int} {db after : Database} (deleted : delete db id = .ok after) :
    Present db id ∧ after = { db with
      hosts := db.hosts.filter fun row => row.id ≠ id
      hostTags := db.hostTags.filter fun pair => pair.1 ≠ id } := by
  -- The statement is made when the look-up finds a row, and fails otherwise.
  unfold delete at deleted
  split at deleted
  · cases deleted
  · rename_i row found
    cases deleted
    exact ⟨⟨row, found⟩, rfl⟩

/-- A deletion drops the rows of its id. -/
theorem hosts_delete {id : Int} {db after : Database} (deleted : delete db id = .ok after) :
    after.hosts = db.hosts.filter fun row => row.id ≠ id := by
  obtain ⟨-, rfl⟩ := delete_eq deleted
  rfl

/-- A deletion leaves nothing under its id, and every other id what it held. -/
theorem lookup_delete {id : Int} {db after : Database} (deleted : delete db id = .ok after)
    (other : Int) : lookup after other = if other = id then none else lookup db other := by
  unfold lookup
  rw [hosts_delete deleted, List.find?_filter]
  -- The rows of the id are filtered out before the search.
  by_cases same : other = id
  · simp only [same, if_true, List.find?_eq_none]
    intro row _
    simp
  · simp only [same, if_false]
    congr 1
    funext row
    by_cases hit : row.id = other
    · simp [hit, same]
    · simp [hit]

/-- A move succeeds when its host and its folder are there, and files the rows of its id. -/
theorem moveToFolder_eq {now id : Int} {db after : Database} {folderId : Option Int}
    (moved : moveToFolder now db id folderId = .ok after) :
    (∀ folder, folderId = some folder → ∃ known ∈ db.folders, known.id = folder) ∧
      after = { db with
        hosts := db.hosts.map fun row =>
          if row.id = id then { row with folderId := folderId, updatedAt := now } else row } := by
  unfold moveToFolder at moved
  split at moved
  · cases moved
  · split at moved
    · cases moved
    · -- Neither the host nor the folder is missing.
      rename_i filed
      cases moved
      refine ⟨?_, rfl⟩
      rintro folder rfl
      simpa using filed

/-- A host that is there can be moved to a folder that is there, or to none. -/
theorem moveToFolder_of_filed {now id : Int} {db : Database} {folderId : Option Int}
    (present : Present db id)
    (filed : ∀ folder, folderId = some folder → ∃ known ∈ db.folders, known.id = folder) :
    ∃ after, moveToFolder now db id folderId = .ok after := by
  -- The two checks are that the row is there and that the folder is.
  obtain ⟨row, found⟩ := present
  unfold moveToFolder
  simp only [found]
  cases folderId with
  | none => exact ⟨_, rfl⟩
  | some folder =>
    have known := filed folder rfl
    exact ⟨_, if_neg (by simpa using known)⟩

/-- Tagging changes no row. -/
theorem hosts_setTags {id : Int} {tags : List Int} {db after : Database}
    (done : setTags db id tags = .ok after) : after.hosts = db.hosts := by
  obtain ⟨pairs, -, done⟩ := bind_eq_ok done
  cases done
  rfl

/-- Tagging leaves the folders and the tags that there are. -/
theorem frame_setTags {id : Int} {tags : List Int} {db after : Database}
    (done : setTags db id tags = .ok after) :
    after.folders = db.folders ∧ after.tags = db.tags := by
  obtain ⟨pairs, -, done⟩ := bind_eq_ok done
  cases done
  exact ⟨rfl, rfl⟩

/-- Tagging changes nothing that is found under an id. -/
theorem lookup_setTags {id : Int} {tags : List Int} {db after : Database}
    (done : setTags db id tags = .ok after) (other : Int) :
    lookup after other = lookup db other := by
  rw [lookup, hosts_setTags done, lookup]

/-- Whether a row is accepted does not depend on its history. -/
theorem checkRow_overwrite (now : Int) (db : Database) (host : Host) (row : HostRow) :
    checkRow db (overwrite now host row) = checkRow db (rowOf host) := rfl

/-- An update succeeds on a host that is there and that the schema accepts. -/
theorem update_of_accepted {db : Database} {host : Host} (now : Int)
    (present : Present db host.id) (accepted : checkRow db (rowOf host) = .ok ()) :
    ∃ after, update now db host = .ok after := by
  obtain ⟨row, found⟩ := present
  rw [update, found]
  simp only [checkRow_overwrite, accepted]
  exact ⟨_, rfl⟩

/-- The schema looks at the folders, and at the rows of other ids. -/
theorem checkRow_congr {db other : Database} {row : HostRow} (folders : other.folders = db.folders)
    (others : other.hosts.filter (fun known => known.id != row.id) =
      db.hosts.filter fun known => known.id != row.id) :
    checkRow other row = checkRow db row := by
  -- The search for a taken alias can be made among the rows of other ids.
  have searched : ∀ database : Database, (database.hosts.any fun known =>
      known.id != row.id && known.source == "ssh_config" && known.sourceAlias == row.sourceAlias) =
      (database.hosts.filter fun known => known.id != row.id).any fun known =>
        known.source == "ssh_config" && known.sourceAlias == row.sourceAlias := by
    intro database
    rw [List.any_filter]
    congr 1
    funext known
    rw [Bool.and_assoc]
  simp only [checkRow, folders, searched, others]

/-- A row that was accepted is accepted again once it is in the table. -/
theorem accepted_of_update {now : Int} {db after : Database} {host : Host}
    (updated : update now db host = .ok after) : checkRow after (rowOf host) = .ok () := by
  obtain ⟨-, accepted, rfl⟩ := update_eq updated
  rw [← accepted]
  refine checkRow_congr rfl ?_
  -- Only rows of this id were rewritten, and they keep it.
  induction db.hosts with
  | nil => rfl
  | cons row rest ih =>
    rw [List.map_cons]
    by_cases same : row.id = host.id
    · simpa [same, overwrite, rowOf] using ih
    · simpa [same, rowOf] using ih

/-- After an update its id shows the new record, with the history of the old one. -/
theorem get_update {now : Int} {db after : Database} {host : Host}
    (updated : update now db host = .ok after) :
    ∃ row : HostRow, get after host.id = .ok (some
      { host with
        lastConnectedAt := row.lastConnectedAt
        connectCount := row.connectCount
        createdAt := row.createdAt
        updatedAt := now
        tags := tagsFor after host.id }) := by
  obtain ⟨⟨row, found⟩, -, -⟩ := update_eq updated
  -- The row that is written reads back as the record, with its own history.
  refine ⟨row, get_eq_some.mpr ⟨overwrite now host row, _, ?_, rowToHost_rowOf
    { host with
      lastConnectedAt := row.lastConnectedAt
      connectCount := row.connectCount
      createdAt := row.createdAt
      updatedAt := now }, rfl⟩⟩
  rw [lookup_update updated, if_pos rfl, found]
  rfl

/-- After an insert the new id shows the draft, which nothing tags yet. -/
theorem get_create {now id : Int} {db after : Database} {draft : NewHost}
    (created : create now db draft = .ok (id, after)) :
    get after id = .ok (some { hostOfDraft id now draft with tags := tagsFor after id }) :=
  get_eq_some.mpr ⟨_, _, by rw [lookup_create created, if_pos rfl], rowToHost_rowOf _, rfl⟩

/-- An insert that was accepted is accepted again once it is in the table. -/
theorem accepted_of_create {now id : Int} {db after : Database} {draft : NewHost}
    (created : create now db draft = .ok (id, after)) :
    checkRow after (rowOf (hostOfDraft id now draft)) = .ok () := by
  obtain ⟨rfl, rfl⟩ := create_eq created
  obtain ⟨_, accepted, -⟩ := bind_eq_ok created
  rw [← accepted]
  refine checkRow_congr rfl ?_
  -- The row itself is not among the rows of other ids.
  simp [rowOf, hostOfDraft]

/-- Tagging changes nothing but the tags a record shows. -/
theorem get_setTags {id : Int} {tags : List Int} {db after : Database} {host : Host}
    (done : setTags db id tags = .ok after) (shown : get db id = .ok (some host)) :
    get after id = .ok (some { host with tags := tagsFor after id }) := by
  obtain ⟨row, bare, found, read, rfl⟩ := get_eq_some.mp shown
  exact get_eq_some.mpr ⟨row, bare, by rw [lookup_setTags done, found], read, rfl⟩

/-- Tagging leaves what the schema accepts. -/
theorem checkRow_setTags {id : Int} {tags : List Int} {db after : Database}
    (done : setTags db id tags = .ok after) (row : HostRow) :
    checkRow after row = checkRow db row := by
  obtain ⟨pairs, -, done⟩ := bind_eq_ok done
  cases done
  rfl

/-- Every tag exists. -/
def TagsKnown (db : Database) (tags : List Int) : Prop :=
  ∀ tag ∈ tags, (db.tags.any fun known => known.id == tag) = true

/-- Whether tags exist depends on the tags that there are. -/
theorem TagsKnown.congr {db other : Database} {tags : List Int} (known : TagsKnown db tags)
    (same : other.tags = db.tags) : TagsKnown other tags := by
  unfold TagsKnown
  rw [same]
  exact known

/-- Tags can be inserted for a host that is there exactly when they all exist. -/
theorem foldlM_insertTag_iff {db : Database} {id : Int} (present : Present db id)
    (tags : List Int) (pairs : List (Int × Int)) :
    (∃ result, tags.foldlM (insertTag db id) pairs = .ok result) ↔ TagsKnown db tags := by
  obtain ⟨row, found⟩ := present
  -- Each insert adds a pair or ignores it, so the pairs stay quantified over.
  induction tags generalizing pairs with
  | nil => exact ⟨fun _ tag member => absurd member List.not_mem_nil, fun _ => ⟨pairs, rfl⟩⟩
  | cons tag rest ih =>
    rw [List.foldlM_cons]
    by_cases known : (db.tags.any fun known => known.id == tag) = true
    · obtain ⟨next, inserted⟩ : ∃ next, insertTag db id pairs tag = .ok next := by
        unfold insertTag
        rw [if_neg (by simp [known, found])]
        split
        · exact ⟨pairs, rfl⟩
        · exact ⟨_, rfl⟩
      have onward := ih next
      rw [inserted]
      -- What is left to insert decides, since the head is known.
      have all : TagsKnown db (tag :: rest) ↔ TagsKnown db rest := by
        simp only [TagsKnown, List.forall_mem_cons, known, true_and]
      rw [all]
      exact onward
    · -- A tag that is not there refuses the insert, and with it all the rest.
      have refused : insertTag db id pairs tag = .error (.constraint "host_tags") := by
        unfold insertTag
        rw [if_pos (.inl known)]
      rw [refused]
      apply iff_of_false
      · intro ⟨result, impossible⟩
        cases impossible
      · intro all
        exact known (all tag List.mem_cons_self)

/-- A host that is there is tagged exactly when the tags all exist. -/
theorem setTags_iff {db : Database} {id : Int} (present : Present db id) (tags : List Int) :
    (∃ after, setTags db id tags = .ok after) ↔ TagsKnown db tags := by
  rw [← foldlM_insertTag_iff present tags (db.hostTags.filter fun pair => pair.1 ≠ id)]
  apply Iff.intro
  · intro ⟨after, done⟩
    obtain ⟨pairs, inserted, -⟩ := bind_eq_ok done
    exact ⟨pairs, inserted⟩
  · intro ⟨pairs, inserted⟩
    -- Only the inserts can fail, behind a deletion of the old pairs that cannot.
    refine ⟨{ db with hostTags := pairs }, ?_⟩
    unfold setTags
    dsimp only
    rw [inserted]
    rfl

/-- Inserting tags adds a pair for each of them, and drops none. -/
theorem mem_foldlM_insertTag {db : Database} {id : Int} {tags : List Int}
    {pairs result : List (Int × Int)} (inserted : tags.foldlM (insertTag db id) pairs = .ok result)
    (pair : Int × Int) : pair ∈ result ↔ pair ∈ pairs ∨ pair.1 = id ∧ pair.2 ∈ tags := by
  induction tags generalizing pairs with
  | nil =>
    cases inserted
    simp
  | cons tag rest ih =>
    obtain ⟨next, head, onward⟩ := bind_eq_ok inserted
    have added : pair ∈ next ↔ pair ∈ pairs ∨ pair = (id, tag) := by
      unfold insertTag at head
      split at head
      · cases head
      · split at head
        · -- A pair that is there already is not inserted twice.
          rename_i member
          cases head
          exact ⟨.inl, fun either => either.elim (·) (· ▸ member)⟩
        · cases head
          simp
    -- The pair is there, is the first tag's, or is one of the others'.
    rw [ih onward, added, Prod.ext_iff, List.mem_cons]
    grind

/-- Tagging replaces the links of its host, and touches no others. -/
theorem mem_setTags {db after : Database} {id : Int} {tags : List Int}
    (done : setTags db id tags = .ok after) (pair : Int × Int) :
    pair ∈ after.hostTags ↔
      (pair ∈ db.hostTags ∧ pair.1 ≠ id) ∨ (pair.1 = id ∧ pair.2 ∈ tags) := by
  obtain ⟨pairs, inserted, done⟩ := bind_eq_ok done
  cases done
  simpa using mem_foldlM_insertTag inserted pair

/-- An update leaves the tags that exist. -/
theorem tagsKnown_update {now : Int} {db after : Database} {host : Host}
    (updated : update now db host = .ok after) (tags : List Int) :
    TagsKnown after tags ↔ TagsKnown db tags := by
  obtain ⟨-, -, rfl⟩ := update_eq updated
  rfl

/-- Columns that are read as they are stored show up in the record, and nowhere else. -/
theorem rowToHost_unconverted (row : HostRow) (folderId at_ : Option Int) (count updated : Int) :
    rowToHost { row with
        folderId := folderId, lastConnectedAt := at_, connectCount := count,
        updatedAt := updated } =
      (rowToHost row).map fun host => { host with
        folderId := folderId, lastConnectedAt := at_, connectCount := count,
        updatedAt := updated } := by
  unfold rowToHost
  -- The two readings fail at the same column, or not at all.
  cases readU16 "port" row.port with
  | error reason => rfl
  | ok port =>
    cases AuthKind.tryFrom row.authMethod with
    | error reason => rfl
    | ok auth =>
      cases readU32 "keepalive_secs" row.keepaliveSecs with
      | error reason => rfl
      | ok keepaliveSecs =>
        cases readU32 "keepalive_max" row.keepaliveMax with
        | error reason => rfl
        | ok keepaliveMax =>
          cases readU32 "connect_timeout_secs" row.connectTimeoutSecs with
          | error reason => rfl
          | ok connectTimeoutSecs =>
            cases readU32 "window_size" row.windowSize with
            | error reason => rfl
            | ok windowSize =>
              cases readU32 "reconnect_max_attempts" row.reconnectMaxAttempts with
              | error reason => rfl
              | ok reconnectMaxAttempts =>
                cases HostSource.tryFrom row.source with
                | error reason => rfl
                | ok source => rfl

/-- Counting a connection changes nothing else a record shows. -/
theorem rowToHost_stats (row : HostRow) (at_ : Option Int) (count : Int) :
    rowToHost { row with lastConnectedAt := at_, connectCount := count } =
      (rowToHost row).map fun host =>
        { host with lastConnectedAt := at_, connectCount := count } := by
  rw [show ({ row with lastConnectedAt := at_, connectCount := count } : HostRow) = { row with
    folderId := row.folderId, lastConnectedAt := at_, connectCount := count,
    updatedAt := row.updatedAt } from rfl, rowToHost_unconverted]
  cases read : rowToHost row with
  | error reason => rfl
  | ok host =>
    -- The folder and the time of the row are shown as they are.
    obtain ⟨-, folder, updated, -⟩ := rowToHost_shows read
    rw [← folder, ← updated]
    rfl

/-- Counting a connection touches the row of its host alone. -/
theorem lookup_recordConnection (db : Database) (id at_ other : Int) :
    lookup (recordConnection db id at_) other = (lookup db other).map fun row =>
      if row.id = id then
        { row with lastConnectedAt := some at_, connectCount := row.connectCount + 1 }
      else row := by
  -- The row keeps its id, so every look-up finds the same row as before.
  unfold recordConnection
  apply lookup_map
  intro row
  split
  · rfl
  · rfl

end Laws

end Tern.Store
