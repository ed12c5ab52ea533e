import Tern.Store.Calls

/-! The statements on the table of hosts, whose values are told apart by their positions alone. -/

namespace Tern.Store

/-- A column of the table of hosts. -/
inductive HostColumn where
  | id
  | folderId
  | name
  | hostname
  | port
  | username
  | authMethod
  | secretRef
  | keyPath
  | term
  | keepaliveSecs
  | keepaliveMax
  | connectTimeoutSecs
  | windowSize
  | reconnectEnabled
  | reconnectMaxAttempts
  | proxyJump
  | source
  | sourceAlias
  | color
  | notes
  | lastConnectedAt
  | connectCount
  | createdAt
  | updatedAt
  | authFallbacks
  deriving DecidableEq, Repr

/-- A value in a column, or bound to a statement. -/
inductive SqlValue where
  | null
  | integer (value : Int)
  | text (value : String)
  deriving DecidableEq, Repr

section Values

/-- A number that may be missing. -/
def SqlValue.ofInt : Option Int → SqlValue
  | none => .null
  | some value => .integer value

/-- A text that may be missing. -/
def SqlValue.ofText : Option String → SqlValue
  | none => .null
  | some value => .text value

/-- The number in a column. -/
def SqlValue.toInt : SqlValue → Option Int
  | .integer value => some value
  | _ => none

/-- The text in a column. -/
def SqlValue.toText : SqlValue → Option String
  | .text value => some value
  | _ => none

/-- The number in a column that may hold none. -/
def SqlValue.toNullable (read : SqlValue → Option α) : SqlValue → Option (Option α)
  | .null => some none
  | value => (read value).map some

/-- A number that may be missing comes back. -/
@[simp] theorem toInt_ofInt (value : Option Int) :
    SqlValue.toNullable SqlValue.toInt (.ofInt value) = some value := by
  cases value with
  | none => rfl
  | some number => rfl

/-- A text that may be missing comes back. -/
@[simp] theorem toText_ofText (value : Option String) :
    SqlValue.toNullable SqlValue.toText (.ofText value) = some value := by
  cases value with
  | none => rfl
  | some text => rfl

end Values

section Rows

/-- What a row holds in a column. -/
def HostRow.column (row : HostRow) : HostColumn → SqlValue
  | .id => .integer row.id
  | .folderId => .ofInt row.folderId
  | .name => .text row.name
  | .hostname => .text row.hostname
  | .port => .integer row.port
  | .username => .text row.username
  | .authMethod => .text row.authMethod
  | .secretRef => .ofText row.secretRef
  | .keyPath => .ofText row.keyPath
  | .term => .ofText row.term
  | .keepaliveSecs => .ofInt row.keepaliveSecs
  | .keepaliveMax => .ofInt row.keepaliveMax
  | .connectTimeoutSecs => .ofInt row.connectTimeoutSecs
  | .windowSize => .ofInt row.windowSize
  | .reconnectEnabled => .ofInt row.reconnectEnabled
  | .reconnectMaxAttempts => .ofInt row.reconnectMaxAttempts
  | .proxyJump => .ofText row.proxyJump
  | .source => .text row.source
  | .sourceAlias => .ofText row.sourceAlias
  | .color => .ofText row.color
  | .notes => .ofText row.notes
  | .lastConnectedAt => .ofInt row.lastConnectedAt
  | .connectCount => .integer row.connectCount
  | .createdAt => .integer row.createdAt
  | .updatedAt => .integer row.updatedAt
  | .authFallbacks => .ofText row.authFallbacks

/-- The row with some values in its columns, if they are of the kinds that the columns take. -/
def HostRow.ofColumns (columns : HostColumn → SqlValue) : Option HostRow := do
  let id ← (columns .id).toInt
  let folderId ← (columns .folderId).toNullable SqlValue.toInt
  let name ← (columns .name).toText
  let hostname ← (columns .hostname).toText
  let port ← (columns .port).toInt
  let username ← (columns .username).toText
  let authMethod ← (columns .authMethod).toText
  let secretRef ← (columns .secretRef).toNullable SqlValue.toText
  let keyPath ← (columns .keyPath).toNullable SqlValue.toText
  let term ← (columns .term).toNullable SqlValue.toText
  let keepaliveSecs ← (columns .keepaliveSecs).toNullable SqlValue.toInt
  let keepaliveMax ← (columns .keepaliveMax).toNullable SqlValue.toInt
  let connectTimeoutSecs ← (columns .connectTimeoutSecs).toNullable SqlValue.toInt
  let windowSize ← (columns .windowSize).toNullable SqlValue.toInt
  let reconnectEnabled ← (columns .reconnectEnabled).toNullable SqlValue.toInt
  let reconnectMaxAttempts ← (columns .reconnectMaxAttempts).toNullable SqlValue.toInt
  let proxyJump ← (columns .proxyJump).toNullable SqlValue.toText
  let source ← (columns .source).toText
  let sourceAlias ← (columns .sourceAlias).toNullable SqlValue.toText
  let color ← (columns .color).toNullable SqlValue.toText
  let notes ← (columns .notes).toNullable SqlValue.toText
  let lastConnectedAt ← (columns .lastConnectedAt).toNullable SqlValue.toInt
  let connectCount ← (columns .connectCount).toInt
  let createdAt ← (columns .createdAt).toInt
  let updatedAt ← (columns .updatedAt).toInt
  let authFallbacks ← (columns .authFallbacks).toNullable SqlValue.toText
  return ⟨id, folderId, name, hostname, port, username, authMethod, secretRef, keyPath, term,
    keepaliveSecs, keepaliveMax, connectTimeoutSecs, windowSize, reconnectEnabled,
    reconnectMaxAttempts, proxyJump, source, sourceAlias, color, notes, lastConnectedAt,
    connectCount, createdAt, updatedAt, authFallbacks⟩

/-- A row is told by its columns. -/
@[simp] theorem ofColumns_column (row : HostRow) : HostRow.ofColumns row.column = some row := by
  simp [HostRow.ofColumns, HostRow.column, SqlValue.toInt, SqlValue.toText]

end Rows

section Reading

/-- The columns of every query for hosts, in the order of their values. -/
def hostColumns : List HostColumn :=
  [.id, .folderId, .name, .hostname, .port, .username, .authMethod,
    .secretRef, .keyPath, .term, .keepaliveSecs, .keepaliveMax, .connectTimeoutSecs,
    .windowSize, .reconnectEnabled, .reconnectMaxAttempts, .proxyJump, .source,
    .sourceAlias, .color, .notes, .lastConnectedAt, .connectCount, .createdAt, .updatedAt,
    .authFallbacks]

/-- The values that a query for some columns finds in a row. -/
def select (columns : List HostColumn) (row : HostRow) : List SqlValue :=
  columns.map row.column

variable (values : List SqlValue)

/-- The value at a position, read as something, or nothing where it is nothing of the kind. -/
def getAs (read : SqlValue → Option α) (position : Nat) : Except StoreError α :=
  match values[position]?.bind read with
  | some value => .ok value
  | none => .error (.conversion "column type")

/-- A row of a query as a record, by the positions of its values. -/
def rowToHostAt : Except StoreError Host := do
  let auth ← getAs values SqlValue.toText 6
  let source ← getAs values SqlValue.toText 17
  let id ← getAs values SqlValue.toInt 0
  let folderId ← getAs values (SqlValue.toNullable SqlValue.toInt) 1
  let name ← getAs values SqlValue.toText 2
  let hostname ← getAs values SqlValue.toText 3
  let port ← readU16 "port" (← getAs values SqlValue.toInt 4)
  let username ← getAs values SqlValue.toText 5
  let auth ← AuthKind.tryFrom auth
  let secretRef ← getAs values (SqlValue.toNullable SqlValue.toText) 7
  let keyPath ← getAs values (SqlValue.toNullable SqlValue.toText) 8
  let term ← getAs values (SqlValue.toNullable SqlValue.toText) 9
  let keepaliveSecs ←
    readU32 "keepalive_secs" (← getAs values (SqlValue.toNullable SqlValue.toInt) 10)
  let keepaliveMax ←
    readU32 "keepalive_max" (← getAs values (SqlValue.toNullable SqlValue.toInt) 11)
  let connectTimeoutSecs ←
    readU32 "connect_timeout_secs" (← getAs values (SqlValue.toNullable SqlValue.toInt) 12)
  let windowSize ←
    readU32 "window_size" (← getAs values (SqlValue.toNullable SqlValue.toInt) 13)
  let reconnectEnabled ← getAs values (SqlValue.toNullable SqlValue.toInt) 14
  let reconnectMaxAttempts ←
    readU32 "reconnect_max_attempts" (← getAs values (SqlValue.toNullable SqlValue.toInt) 15)
  let proxyJump ← getAs values (SqlValue.toNullable SqlValue.toText) 16
  let source ← HostSource.tryFrom source
  let sourceAlias ← getAs values (SqlValue.toNullable SqlValue.toText) 18
  let color ← getAs values (SqlValue.toNullable SqlValue.toText) 19
  let notes ← getAs values (SqlValue.toNullable SqlValue.toText) 20
  let lastConnectedAt ← getAs values (SqlValue.toNullable SqlValue.toInt) 21
  let connectCount ← getAs values SqlValue.toInt 22
  let createdAt ← getAs values SqlValue.toInt 23
  let updatedAt ← getAs values SqlValue.toInt 24
  -- The last column was added later, so that the positions of the others stay.
  let authFallbacks ← getAs values (SqlValue.toNullable SqlValue.toText) 25
  return {
    id, folderId, name, hostname, port, username, auth
    authFallbacks := decodeAuthFallbacks authFallbacks
    secretRef, keyPath
    overrides := {
      term, keepaliveSecs, keepaliveMax, connectTimeoutSecs, windowSize
      reconnectEnabled := reconnectEnabled.map fun value => decide (value ≠ 0)
      reconnectMaxAttempts }
    proxyJump, source, sourceAlias, color, notes, lastConnectedAt, connectCount, createdAt,
    updatedAt
    tags := [] }

/-- Reading a row by the positions of its values reads each column as its own field. -/
theorem rowToHostAt_select (row : HostRow) :
    rowToHostAt (select hostColumns row) = rowToHost row := by
  -- Every position holds the column that its field is named after, and of the kind it asks for.
  simp [rowToHostAt, getAs, select, hostColumns, HostRow.column, SqlValue.toText, SqlValue.toInt,
    rowToHost]
  rfl

end Reading

section Writing

/-- The columns that an insert sets, in the order of its values. -/
def insertColumns : List HostColumn :=
  [.folderId, .name, .hostname, .port, .username, .authMethod, .secretRef, .keyPath,
    .term, .keepaliveSecs, .keepaliveMax, .connectTimeoutSecs, .windowSize,
    .reconnectEnabled, .reconnectMaxAttempts, .proxyJump, .source, .sourceAlias,
    .color, .notes, .createdAt, .updatedAt, .authFallbacks]

/-- The parameters that an insert's values are, by their numbers. -/
def insertValues : List Nat :=
  [1, 2, 3, 4, 5, 6, 7, 8,
    9, 10, 11, 12, 13,
    14, 15, 16, 17, 18,
    -- Both times are the one time of the insert.
    19, 20, 21, 21, 22]

/-- What an insert binds. -/
def insertParams (now : Int) (draft : NewHost) : List SqlValue :=
  [.ofInt draft.folderId,
    .text draft.name,
    .text draft.hostname,
    .integer draft.port.toNat,
    .text draft.username,
    .text draft.auth.asStr,
    .ofText draft.secretRef,
    .ofText draft.keyPath,
    .ofText draft.overrides.term,
    .ofInt (writeU32 draft.overrides.keepaliveSecs),
    .ofInt (writeU32 draft.overrides.keepaliveMax),
    .ofInt (writeU32 draft.overrides.connectTimeoutSecs),
    .ofInt (writeU32 draft.overrides.windowSize),
    .ofInt (draft.overrides.reconnectEnabled.map fun enabled => if enabled then 1 else 0),
    .ofInt (writeU32 draft.overrides.reconnectMaxAttempts),
    .ofText draft.proxyJump,
    .text draft.source.asStr,
    .ofText draft.sourceAlias,
    .ofText draft.color,
    .ofText draft.notes,
    .integer now,
    .ofText (encodeAuthFallbacks draft.authFallbacks)]

/-- What an update sets its columns to, by the numbers of its parameters. -/
def updateAssignments : List (HostColumn × Nat) :=
  [(.folderId, 2), (.name, 3), (.hostname, 4), (.port, 5), (.username, 6),
    (.authMethod, 7), (.secretRef, 8), (.keyPath, 9), (.term, 10),
    (.keepaliveSecs, 11), (.keepaliveMax, 12), (.connectTimeoutSecs, 13),
    (.windowSize, 14), (.reconnectEnabled, 15), (.reconnectMaxAttempts, 16),
    (.proxyJump, 17), (.source, 18), (.sourceAlias, 19), (.color, 20),
    (.notes, 21), (.updatedAt, 22), (.authFallbacks, 23)]

/-- What an update binds. -/
def updateParams (now : Int) (host : Host) : List SqlValue :=
  [.integer host.id,
    .ofInt host.folderId,
    .text host.name,
    .text host.hostname,
    .integer host.port.toNat,
    .text host.username,
    .text host.auth.asStr,
    .ofText host.secretRef,
    .ofText host.keyPath,
    .ofText host.overrides.term,
    .ofInt (writeU32 host.overrides.keepaliveSecs),
    .ofInt (writeU32 host.overrides.keepaliveMax),
    .ofInt (writeU32 host.overrides.connectTimeoutSecs),
    .ofInt (writeU32 host.overrides.windowSize),
    .ofInt (host.overrides.reconnectEnabled.map fun enabled => if enabled then 1 else 0),
    .ofInt (writeU32 host.overrides.reconnectMaxAttempts),
    .ofText host.proxyJump,
    .text host.source.asStr,
    .ofText host.sourceAlias,
    .ofText host.color,
    .ofText host.notes,
    .integer now,
    .ofText (encodeAuthFallbacks host.authFallbacks)]

/-- The value of a numbered parameter, of which the first has the number one. -/
def param (params : List SqlValue) (number : Nat) : SqlValue :=
  (params[number - 1]?).getD .null

/-- The columns after some of them are set to parameters. -/
def assign (params : List SqlValue) (assignments : List (HostColumn × Nat))
    (columns : HostColumn → SqlValue) (column : HostColumn) : SqlValue :=
  match assignments.find? fun assignment => assignment.1 = column with
  | some assignment => param params assignment.2
  | none => columns column

/-- What the columns of a new row hold that an insert does not set. -/
def defaults (id : Int) : HostColumn → SqlValue
  | .id => .integer id
  | .port => .integer 22
  | .username => .text ""
  | .authMethod => .text "agent"
  | .source => .text "manual"
  | .connectCount => .integer 0
  | _ => .null

/-- A row that takes the values of its columns, or the complaint that one of them may not be
null. -/
def typed (columns : HostColumn → SqlValue) : Except StoreError HostRow :=
  match HostRow.ofColumns columns with
  | some row => .ok row
  | none => .error (.constraint "not null")

/-- Insert a host, as its statement is written. -/
def createAt (now : Int) (db : Database) (draft : NewHost) :
    Except StoreError (Int × Database) := do
  let id := nextId db
  let row ← typed (assign (insertParams now draft) (insertColumns.zip insertValues) (defaults id))
  checkRow db row
  return (id, { db with hosts := db.hosts ++ [row] })

/-- Look a host up, as its query is written. -/
def getAt (db : Database) (id : Int) : Except StoreError (Option Host) :=
  match lookup db id with
  | none => .ok none
  | some row =>
    (rowToHostAt (select hostColumns row)).map fun host => some { host with tags := tagsFor db id }

/-- Replace a host, as its statement is written. -/
def updateAt (now : Int) (db : Database) (host : Host) : Except StoreError Database :=
  match lookup db host.id with
  | none => .error (.notFound "host" host.id)
  | some row => do
    let set := fun other : HostRow =>
      typed (assign (updateParams now host) updateAssignments other.column)
    checkRow db (← set row)
    let hosts ← db.hosts.mapM fun other => if other.id = host.id then set other else .ok other
    return { db with hosts }

/-- The insert sets each of its columns to the draft's own field. -/
theorem assign_insert (id now : Int) (draft : NewHost) :
    assign (insertParams now draft) (insertColumns.zip insertValues) (defaults id) =
      (rowOf (hostOfDraft id now draft)).column := by
  -- Column by column, the number of the value is the place of the draft's own field.
  funext column
  cases column <;> rfl

/-- The update sets each of its columns to the record's own field, and leaves the others. -/
theorem assign_update (now : Int) (host : Host) {row : HostRow} (named : row.id = host.id) :
    assign (updateParams now host) updateAssignments row.column =
      (overwrite now host row).column := by
  -- The id is not set, and it is the record's because the row was found by it.
  funext column
  cases column
  case id => exact congrArg SqlValue.integer named
  all_goals rfl

/-- A row that is given by its columns takes the values of them. -/
theorem typed_column (row : HostRow) : typed row.column = .ok row := by
  rw [typed, ofColumns_column]

/-- Inserting by position is inserting the draft as a record. -/
theorem createAt_eq (now : Int) (db : Database) (draft : NewHost) :
    createAt now db draft = create now db draft := by
  rw [createAt, assign_insert, typed_column]
  rfl

/-- Looking up by position is looking up the record. -/
theorem getAt_eq (db : Database) (id : Int) : getAt db id = get db id := by
  -- The columns are read in the order in which they are selected.
  unfold getAt get
  cases found : lookup db id with
  | none => rfl
  | some row =>
    dsimp only
    rw [rowToHostAt_select, attachTags, lookup_id found]
    cases rowToHost row with
    | error reason => rfl
    | ok host => rfl

/-- Where every member is taken over, the list is, in its order. -/
theorem mapM_eq_ok {α β ε : Type} {read : α → Except ε β} {shown : α → β} {members : List α}
    (readable : ∀ member ∈ members, read member = .ok (shown member)) :
    members.mapM read = .ok (members.map shown) := by
  -- No member fails, so none cuts the rest off.
  induction members with
  | nil => rfl
  | cons member members ih =>
    rw [List.mapM_cons, readable member List.mem_cons_self,
      ih fun later inside => readable later (List.mem_cons_of_mem _ inside)]
    rfl

/-- Updating by position is replacing the record. -/
theorem updateAt_eq (now : Int) (db : Database) (host : Host) :
    updateAt now db host = update now db host := by
  -- Assigned by position, the columns of a row make the row that replaces it.
  have set : ∀ row : HostRow, row.id = host.id →
      typed (assign (updateParams now host) updateAssignments row.column) =
        .ok (overwrite now host row) := by
    intro row named
    rw [assign_update now host named, typed_column]
  unfold updateAt update
  cases found : lookup db host.id with
  | none => rfl
  | some row =>
    dsimp only
    rw [set row (lookup_id found)]
    -- The rows of other ids are not assigned to.
    have rows : (db.hosts.mapM fun other => if other.id = host.id then
        typed (assign (updateParams now host) updateAssignments other.column) else .ok other) =
        .ok (db.hosts.map fun other =>
          if other.id = host.id then overwrite now host other else other) := by
      refine mapM_eq_ok fun other _ => ?_
      split
      · next named => exact set other named
      · rfl
    rw [rows]
    rfl

end Writing

end Tern.Store
