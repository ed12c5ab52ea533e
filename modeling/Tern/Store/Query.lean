import Mathlib.Data.Prod.Lex
import Tern.Base.Like
import Tern.Base.Placeholder
import Tern.Store.Layout

/-! The statement that a search for hosts is put together from, and what the database takes it
for. -/

namespace Tern.Store

open Placeholder

/-- What hosts are asked for. -/
structure HostFilter where
  query : Option String
  folderId : Option Int
  tagIds : List Int
  limit : Option UInt32
  deriving DecidableEq, Repr

section Building

/-- The characters with a role in a pattern. -/
def likeSigns : Like.Signs Char := ⟨'%', '_', '\\'⟩

/-- A text with every character escaped that has a role in a pattern. -/
def escapeLike (input : String) : String :=
  String.ofList (input.toList.flatMap fun ch =>
    if ch = '%' ∨ ch = '_' ∨ ch = '\\' then ['\\', ch] else [ch])

/-- A statement with its markers replaced by the numbers of its parameters. -/
def numberPlaceholders (sql : String) : String :=
  String.ofList (numberFrom 0 sql.toList)

/-- The columns of every query for hosts, as they are written. -/
def hostColumnsText : String :=
  "id, folder_id, name, hostname, port, username, auth_method, " ++
    "secret_ref, key_path, term, keepalive_secs, keepalive_max, connect_timeout_secs, " ++
    "window_size, reconnect_enabled, reconnect_max_attempts, proxy_jump, source, " ++
    "source_alias, color, notes, last_connected_at, connect_count, created_at, updated_at, " ++
    "auth_fallbacks"

/-- A statement under construction, with the values bound to it so far. -/
structure Query where
  sql : String
  args : List SqlValue

/-- A statement with more text, and more values. -/
def Query.push (query : Query) (text : String) (values : List SqlValue) : Query :=
  ⟨query.sql ++ text, query.args ++ values⟩

/-- The same where something is asked for, and otherwise the statement as it is. -/
def Query.pushSome (query : Query) (asked : Option α) (text : String)
    (values : α → List SqlValue) : Query :=
  match asked with
  | some value => query.push text (values value)
  | none => query

/-- The statement that finds the hosts of a filter. -/
def listQuery (filter : HostFilter) : Query :=
  let start : Query := ⟨"SELECT " ++ hostColumnsText ++ " FROM hosts WHERE 1 = 1", []⟩
  let searched := start.pushSome (filter.query.filter fun q => Text.trim q ≠ "")
    (" AND (name LIKE ?* ESCAPE '\\' OR hostname LIKE ?* ESCAPE '\\' " ++
      "OR username LIKE ?* ESCAPE '\\')")
    fun q =>
      let pattern := "%" ++ escapeLike (Text.trim q) ++ "%"
      [.text pattern, .text pattern, .text pattern]
  let filed := searched.pushSome filter.folderId " AND folder_id = ?*" fun folder =>
    [.integer folder]
  -- Every tag has a clause of its own.
  let tagged := filter.tagIds.foldl (fun query tag => query.push (" AND EXISTS (SELECT 1 FROM " ++
    "host_tags ht WHERE ht.host_id = hosts.id AND ht.tag_id = ?*)") [.integer tag]) filed
  let ordered := tagged.push
    " ORDER BY last_connected_at DESC NULLS LAST, name COLLATE NOCASE ASC" []
  ordered.pushSome filter.limit " LIMIT ?*" fun limit => [.integer limit.toNat]

end Building

section Reading

/-- A column's name in a statement. -/
def HostColumn.sqlName : HostColumn → String
  | .id => "id"
  | .folderId => "folder_id"
  | .name => "name"
  | .hostname => "hostname"
  | .port => "port"
  | .username => "username"
  | .authMethod => "auth_method"
  | .secretRef => "secret_ref"
  | .keyPath => "key_path"
  | .term => "term"
  | .keepaliveSecs => "keepalive_secs"
  | .keepaliveMax => "keepalive_max"
  | .connectTimeoutSecs => "connect_timeout_secs"
  | .windowSize => "window_size"
  | .reconnectEnabled => "reconnect_enabled"
  | .reconnectMaxAttempts => "reconnect_max_attempts"
  | .proxyJump => "proxy_jump"
  | .source => "source"
  | .sourceAlias => "source_alias"
  | .color => "color"
  | .notes => "notes"
  | .lastConnectedAt => "last_connected_at"
  | .connectCount => "connect_count"
  | .createdAt => "created_at"
  | .updatedAt => "updated_at"
  | .authFallbacks => "auth_fallbacks"

/-- A kind of condition on a host. -/
inductive Clause where
  /-- One of three texts matches a pattern. -/
  | matching
  /-- The folder is a given one. -/
  | folder
  /-- A given tag is attached. -/
  | tag
  deriving DecidableEq, Repr

/-- How a condition is written, around its parameters. -/
def Clause.fragments : Clause → List (List Char)
  | .matching =>
    [" AND (name LIKE ".toList, " ESCAPE '\\' OR hostname LIKE ".toList,
      " ESCAPE '\\' OR username LIKE ".toList, " ESCAPE '\\')".toList]
  | .folder => [" AND folder_id = ".toList, []]
  | .tag =>
    [(" AND EXISTS (SELECT 1 FROM host_tags ht WHERE ht.host_id = hosts.id " ++
      "AND ht.tag_id = ").toList, ")".toList]

/-- What every query for hosts begins with. -/
def selectFragment : List Char :=
  ("SELECT " ++ ", ".intercalate (hostColumns.map HostColumn.sqlName) ++
    " FROM hosts WHERE 1 = 1").toList

/-- The order that is asked for. -/
def orderFragment : List Char :=
  " ORDER BY last_connected_at DESC NULLS LAST, name COLLATE NOCASE ASC".toList

/-- How a limit is written, around its parameter. -/
def limitFragments : List (List Char) := [" LIMIT ".toList, []]

/-- A query for hosts as the database takes it, with the parameters told by their numbers. -/
structure Selection where
  clauses : List (Clause × List Nat)
  limit : Option Nat
  deriving DecidableEq, Repr

/-- The condition in front of a text. -/
def readClause (text : List Char) : Option ((Clause × List Nat) × List Char) :=
  [Clause.matching, .folder, .tag].findSome? fun clause =>
    (read clause.fragments text).map fun found => ((clause, found.1), found.2)

/-- The conditions in front of a text, of which there are no more than the fuel says. -/
def readClauses : Nat → List Char → List (Clause × List Nat) × List Char
  | 0, text => ([], text)
  | fuel + 1, text =>
    match readClause text with
    | none => ([], text)
    | some (clause, rest) => ((clause :: (readClauses fuel rest).1), (readClauses fuel rest).2)

/-- The query that a text is, if it is one. -/
def readSelection (sql : List Char) : Option Selection :=
  (sql.dropPrefix? selectFragment).bind fun body =>
    -- A condition takes at least one character of the text.
    ((readClauses body.length body).2.dropPrefix? orderFragment).bind fun
      | [] => some ⟨(readClauses body.length body).1, none⟩
      | tail => match read limitFragments tail with
        | some ([number], []) => some ⟨(readClauses body.length body).1, some number⟩
        | _ => none

/-- How many parameters a query has: the largest number of one. -/
def Selection.parameterCount (selection : Selection) : Nat :=
  (selection.clauses.flatMap Prod.snd ++ selection.limit.toList).foldl max 0

end Reading

section Running

variable (db : Database)

/-- Whether two values are equal, as no null is to anything. -/
def SqlValue.equals (left right : SqlValue) : Bool := left != .null && left == right

/-- Whether a text matches a pattern, whatever the case of its letters. -/
def SqlValue.like (value pattern : SqlValue) : Bool :=
  match value, pattern with
  | .text value, .text pattern => Like.like likeSigns Char.toLower pattern.toList value.toList
  | _, _ => false

/-- Whether a condition holds of a host, with the values of its parameters. -/
def Clause.holds (row : HostRow) (values : List SqlValue) : Clause → Bool
  | .matching => ([HostColumn.name, .hostname, .username].zip values).any fun compared =>
      (row.column compared.1).like compared.2
  | .folder => values.all fun value => (row.column .folderId).equals value
  | .tag => values.all fun value => db.hostTags.any fun pair =>
      pair.1 == row.id && (SqlValue.integer pair.2).equals value

/-- What found hosts are ordered by. -/
def listKey (row : HostRow) : Bool ×ₗ Int ×ₗ String :=
  -- A host that was never connected to comes after the others.
  toLex (row.lastConnectedAt.isNone, toLex (-row.lastConnectedAt.getD 0, nocase row.name))

/-- A host may come in front of another one. -/
def listOrder (row other : HostRow) : Bool := decide (listKey row ≤ listKey other)

/-- The rows that a query finds among those it looks at, one after the other. -/
def Selection.rows (scan : List HostRow) (params : List SqlValue) (selection : Selection) :
    Except StoreError (List HostRow) :=
  let found := (scan.filter fun row => selection.clauses.all fun clause =>
    clause.1.holds db row (clause.2.map (param params))).mergeSort listOrder
  match selection.limit with
  | none => .ok found
  | some number =>
    match param params number with
    -- A negative limit is none.
    | .integer count => .ok (if count < 0 then found else found.take count.toNat)
    | _ => .error (.invalid "datatype mismatch")

/-- The rows that a statement finds with some values bound to it. -/
def queryRows (scan : List HostRow) (query : Query) : Except StoreError (List HostRow) :=
  match readSelection (numberPlaceholders query.sql).toList with
  | none => .error (.invalid "syntax error")
  | some selection =>
    if selection.parameterCount = query.args.length then selection.rows db scan query.args
    else .error (.invalid "wrong number of parameters")

/-- The first values of a list, up to a limit. -/
def truncated (limit : Option UInt32) (found : List α) : List α :=
  match limit with
  | none => found
  | some count => found.take count.toNat

end Running

section Text

variable {query : Query} {pieces : List (List (List Char) × List SqlValue)}

/-- A statement is written from some pieces, each with its own values. -/
structure Query.Written (query : Query) (pieces : List (List (List Char) × List SqlValue)) :
    Prop where
  sql : query.sql.toList = fillAll marker 0 (pieces.map Prod.fst)
  args : query.args = pieces.flatMap Prod.snd

/-- One more piece is written behind the others. -/
theorem Query.Written.push {text : String} {fragments : List (List Char)} (values : List SqlValue)
    (written : query.Written pieces) (piece : text.toList = fill marker 0 fragments) :
    (query.push text values).Written (pieces ++ [(fragments, values)]) where
  sql := by
    rw [Query.push, String.toList_append, written.sql, piece, List.map_append, fillAll_append,
      List.map_singleton, fillAll, fillAll, List.append_nil, fill_marker]
  args := by simp [Query.push, written.args]

/-- The columns are written by their names, in the order of their values. -/
theorem hostColumnsText_eq :
    hostColumnsText = ", ".intercalate (hostColumns.map HostColumn.sqlName) := by
  decide +kernel

/-- A query for hosts begins with the columns as they are written. -/
theorem selectFragment_eq :
    selectFragment = ("SELECT " ++ hostColumnsText ++ " FROM hosts WHERE 1 = 1").toList :=
  congrArg (fun columns => ("SELECT " ++ columns ++ " FROM hosts WHERE 1 = 1").toList)
    hostColumnsText_eq.symm

/-- A piece that an option asks for is written if the option is there. -/
theorem Query.Written.pushSome {text : String} {fragments : List (List Char)} (asked : Option α)
    (values : α → List SqlValue) (written : query.Written pieces)
    (piece : text.toList = fill marker 0 fragments) :
    (query.pushSome asked text values).Written
      (pieces ++ (asked.map fun value => (fragments, values value)).toList) := by
  cases asked with
  | none => simpa [Query.pushSome] using written
  | some value => exact written.push (values value) piece

/-- A piece that every member of a list asks for is written once for each. -/
theorem Query.Written.foldl {text : String} {fragments : List (List Char)} (asked : List α)
    (values : α → List SqlValue) (written : query.Written pieces)
    (piece : text.toList = fill marker 0 fragments) :
    (asked.foldl (fun query value => query.push text (values value)) query).Written
      (pieces ++ asked.map fun value => (fragments, values value)) := by
  -- The pieces are written one behind the other, each with its own values.
  induction asked generalizing query pieces with
  | nil => simpa using written
  | cons value asked ih =>
    have onward := ih (written.push (values value) piece)
    rwa [List.append_assoc] at onward

/-- What a typed text is searched by. -/
def patternOf (q : String) : SqlValue := .text ("%" ++ escapeLike (Text.trim q) ++ "%")

/-- The conditions of a filter, each with its own values. -/
def conditions (filter : HostFilter) : List (Clause × List SqlValue) :=
  ((filter.query.filter fun q => Text.trim q ≠ "").map fun q =>
    (Clause.matching, [patternOf q, patternOf q, patternOf q])).toList ++
  ((filter.folderId.map fun folder => (Clause.folder, [SqlValue.integer folder])).toList ++
    filter.tagIds.map fun tag => (Clause.tag, [SqlValue.integer tag]))

/-- A condition as a piece of a statement. -/
def piece (condition : Clause × List SqlValue) : List (List Char) × List SqlValue :=
  (condition.1.fragments, condition.2)

/-- What stands behind the conditions of a filter. -/
def ending (filter : HostFilter) : List (List (List Char) × List SqlValue) :=
  ([orderFragment], []) ::
    (filter.limit.map fun limit => (limitFragments, [SqlValue.integer limit.toNat])).toList

/-- The pieces that the statement for a filter is written from. -/
def piecesOf (filter : HostFilter) : List (List (List Char) × List SqlValue) :=
  ([selectFragment], []) :: ((conditions filter).map piece ++ ending filter)

/-- The statement for a filter is written from its conditions, with the order and the limit. -/
theorem written_listQuery (filter : HostFilter) : (listQuery filter).Written (piecesOf filter) := by
  have started : Query.Written ⟨"SELECT " ++ hostColumnsText ++ " FROM hosts WHERE 1 = 1", []⟩
      [([selectFragment], [])] := by
    refine ⟨?_, rfl⟩
    rw [List.map_singleton, fillAll_text, fillAll, List.append_nil, selectFragment_eq]
  -- Each piece is written behind those before it, in the order of the source.
  have searched := started.pushSome (filter.query.filter fun q => Text.trim q ≠ "")
    (fun q => [patternOf q, patternOf q, patternOf q])
    (show (" AND (name LIKE ?* ESCAPE '\\' OR hostname LIKE ?* ESCAPE '\\' " ++
      "OR username LIKE ?* ESCAPE '\\')").toList = fill marker 0 Clause.matching.fragments from rfl)
  have filed := searched.pushSome filter.folderId (fun folder => [.integer folder])
    (show " AND folder_id = ?*".toList = fill marker 0 Clause.folder.fragments from rfl)
  have tagged := filed.foldl filter.tagIds (fun tag => [.integer tag])
    (show (" AND EXISTS (SELECT 1 FROM " ++
      "host_tags ht WHERE ht.host_id = hosts.id AND ht.tag_id = ?*)").toList =
        fill marker 0 Clause.tag.fragments from rfl)
  have ordered := tagged.push []
    (show " ORDER BY last_connected_at DESC NULLS LAST, name COLLATE NOCASE ASC".toList =
      fill marker 0 [orderFragment] from rfl)
  have limited := ordered.pushSome filter.limit (fun limit => [.integer limit.toNat])
    (show " LIMIT ?*".toList = fill marker 0 limitFragments from rfl)
  have pieces : piecesOf filter =
      [([selectFragment], [])] ++ ((filter.query.filter fun q => Text.trim q ≠ "").map fun q =>
          (Clause.matching.fragments, [patternOf q, patternOf q, patternOf q])).toList ++
        (filter.folderId.map fun folder =>
          (Clause.folder.fragments, [SqlValue.integer folder])).toList ++
        (filter.tagIds.map fun tag => (Clause.tag.fragments, [SqlValue.integer tag])) ++
        [([orderFragment], [])] ++
        (filter.limit.map fun limit =>
          (limitFragments, [SqlValue.integer limit.toNat])).toList := by
    simp [piecesOf, conditions, ending, piece, ← Option.toList_map, Function.comp_def]
  rw [pieces]
  exact limited

/-- No condition is written with a question mark of its own. -/
theorem whole_clause (clause : Clause) : ∀ fragment ∈ clause.fragments, '?' ∉ fragment := by
  cases clause with
  | matching => decide
  | folder => decide
  | tag => decide

/-- Two texts without question marks are one text without. -/
theorem whole_append {left right : String} (first : '?' ∉ left.toList)
    (second : '?' ∉ right.toList) : '?' ∉ (left ++ right).toList := by
  rw [String.toList_append]
  exact List.not_mem_append first second

/-- No column is written with a question mark. -/
theorem whole_hostColumnsText : '?' ∉ hostColumnsText.toList :=
  whole_append (whole_append (whole_append (whole_append (by decide) (by decide)) (by decide))
    (by decide)) (by decide)

/-- No piece of a statement is written with a question mark of its own. -/
theorem whole_piecesOf (filter : HostFilter) :
    ∀ fragments ∈ (piecesOf filter).map Prod.fst, ∀ fragment ∈ fragments, '?' ∉ fragment := by
  -- The fixed texts are searched by evaluation, and the conditions have their lemma.
  have select : '?' ∉ selectFragment := by
    rw [selectFragment_eq]
    exact whole_append (whole_append (by decide) whole_hostColumnsText) (by decide)
  have order : '?' ∉ orderFragment := by decide
  have limit : ∀ fragment ∈ limitFragments, '?' ∉ fragment := by decide
  intro fragments member
  obtain ⟨whole, inside, rfl⟩ := List.mem_map.mp member
  rcases List.mem_cons.mp inside with rfl | inside
  · simpa using select
  · rcases List.mem_append.mp inside with middle | last
    · obtain ⟨condition, -, rfl⟩ := List.mem_map.mp middle
      exact whole_clause condition.1
    · rcases List.mem_cons.mp last with rfl | last
      · simpa using order
      · obtain ⟨count, -, rfl⟩ := Option.map_eq_some_iff.mp (Option.mem_toList.mp last)
        exact limit

/-- The statement for a filter, once its parameters have their numbers. -/
theorem numberPlaceholders_listQuery (filter : HostFilter) :
    (numberPlaceholders (listQuery filter).sql).toList =
      fillAll numbered 0 ((piecesOf filter).map Prod.fst) := by
  rw [numberPlaceholders, String.toList_ofList, (written_listQuery filter).sql,
    numberFrom_fillAll (whole_piecesOf filter)]

end Text

section Numbers

variable {number : Nat} {rest : List Char}

/-- Some conditions with the numbers of their parameters, from a number on. -/
def numberClauses : Nat → List Clause → List (Clause × List Nat)
  | _, [] => []
  | number, clause :: clauses =>
    (clause, List.range' (number + 1) (holes clause.fragments)) ::
      numberClauses (number + holes clause.fragments) clauses

/-- What follows a condition's parameters is no digit, if nothing behind the condition is. -/
theorem ended_clause (clause : Clause) (ended : Ended rest) :
    ∀ fragment ∈ clause.fragments.tail, Ended (fragment ++ rest) := by
  cases clause with
  | matching => simp [Clause.fragments, Ended]
  | folder => simpa [Clause.fragments] using ended
  | tag => simp [Clause.fragments, Ended]

/-- A condition is read as itself, and as no other. -/
theorem readClause_fill (clause : Clause) (ended : Ended rest) :
    readClause (fill numbered number clause.fragments ++ rest) =
      some ((clause, List.range' (number + 1) (holes clause.fragments)), rest) := by
  have own := @read_fill number rest _ (ended_clause clause ended)
  cases clause with
  | matching => simp only [readClause, List.findSome?_cons, own, Option.map_some]
  | folder =>
    -- The texts part at the first letter of the column.
    have other : read Clause.matching.fragments
        (fill numbered number Clause.folder.fragments ++ rest) = none := rfl
    simp only [readClause, List.findSome?_cons, other, own, Option.map_some, Option.map_none]
  | tag =>
    have first : read Clause.matching.fragments
        (fill numbered number Clause.tag.fragments ++ rest) = none := rfl
    have second : read Clause.folder.fragments
        (fill numbered number Clause.tag.fragments ++ rest) = none := rfl
    simp only [readClause, List.findSome?_cons, first, second, own, Option.map_some,
      Option.map_none]

/-- What a condition is written from begins with a blank. -/
theorem head_fill (clause : Clause) :
    ∃ text, fill numbered number clause.fragments = ' ' :: text := by
  cases clause with
  | matching => exact ⟨_, rfl⟩
  | folder => exact ⟨_, rfl⟩
  | tag => exact ⟨_, rfl⟩

/-- Conditions begin with no digit, if nothing behind them does. -/
theorem ended_fillAll (clauses : List Clause) (ended : Ended rest) :
    Ended (fillAll numbered number (clauses.map Clause.fragments) ++ rest) := by
  -- A condition begins with a blank, which is no digit.
  cases clauses with
  | nil => exact ended
  | cons clause clauses =>
    obtain ⟨text, first⟩ := @head_fill number clause
    rw [List.map_cons, fillAll, first]
    intro c blank
    cases blank
    rfl

/-- There are no more conditions than characters that they are written with. -/
theorem length_le_fillAll (clauses : List Clause) :
    clauses.length ≤ (fillAll numbered number (clauses.map Clause.fragments)).length := by
  -- Every condition is written with one character at least, its leading blank.
  induction clauses generalizing number with
  | nil => exact Nat.zero_le _
  | cons clause clauses ih =>
    obtain ⟨text, first⟩ := @head_fill number clause
    have onward := @ih (number + holes clause.fragments)
    rw [List.map_cons, fillAll, first, List.length_append, List.length_cons, List.length_cons]
    omega

/-- Conditions are read one after the other, up to what is none. -/
theorem readClauses_fillAll (clauses : List Clause) (ended : Ended rest)
    (stop : readClause rest = none) {fuel : Nat} (enough : clauses.length ≤ fuel) :
    readClauses fuel (fillAll numbered number (clauses.map Clause.fragments) ++ rest) =
      (numberClauses number clauses, rest) := by
  induction clauses generalizing number fuel with
  | nil =>
    cases fuel with
    | zero => rfl
    | succ fuel =>
      -- Nothing is left but what is no condition.
      rw [List.map_nil, fillAll, List.nil_append, readClauses, stop]
      rfl
  | cons clause clauses ih =>
    cases fuel with
    | zero => exact absurd enough (Nat.not_succ_le_zero _)
    | succ fuel =>
      -- The fuel pays for one condition, and the rest of it for the others.
      have first := @readClause_fill number _ clause
        (@ended_fillAll (number + holes clause.fragments) rest clauses ended)
      rw [List.map_cons, fillAll, List.append_assoc, readClauses, first]
      dsimp only
      rw [ih (Nat.le_of_succ_le_succ enough), numberClauses]

/-- What begins like the order is no condition, and no digit. -/
theorem readClause_order (more : List Char) :
    readClause (orderFragment ++ more) = none ∧ Ended (orderFragment ++ more) := by
  -- Behind the blank stands a letter that begins none of the conditions.
  obtain ⟨text, order⟩ : ∃ text, orderFragment = ' ' :: 'O' :: text := ⟨_, rfl⟩
  rw [order]
  refine ⟨rfl, ?_⟩
  intro c blank
  cases blank
  rfl

/-- The last number that some conditions take. -/
def lastNumber (clauses : List Clause) : Nat :=
  holesIn (clauses.map Clause.fragments)

/-- What the statement for a filter is written from, piece by piece. -/
theorem fillAll_piecesOf (filter : HostFilter) :
    fillAll numbered 0 ((piecesOf filter).map Prod.fst) =
      selectFragment ++
        (fillAll numbered 0 (((conditions filter).map Prod.fst).map Clause.fragments) ++
          (orderFragment ++ fillAll numbered (lastNumber ((conditions filter).map Prod.fst))
            (filter.limit.map fun _ => limitFragments).toList)) := by
  -- The pieces come in the order of the statement, and only the conditions take numbers.
  have pieces : (piecesOf filter).map Prod.fst =
      [selectFragment] :: (((conditions filter).map Prod.fst).map Clause.fragments ++
        [orderFragment] :: (filter.limit.map fun _ => limitFragments).toList) := by
    simp [piecesOf, piece, ending, ← Option.toList_map, Function.comp_def]
  rw [pieces, fillAll_text, fillAll_append, fillAll_text, Nat.zero_add, lastNumber]

/-- The text in front of the order is taken as the conditions it is written from. -/
theorem readClauses_body (clauses : List Clause) (more : List Char) :
    readClauses
        (fillAll numbered 0 (clauses.map Clause.fragments) ++ (orderFragment ++ more)).length
        (fillAll numbered 0 (clauses.map Clause.fragments) ++ (orderFragment ++ more)) =
      (numberClauses 0 clauses, orderFragment ++ more) := by
  obtain ⟨stop, ended⟩ := readClause_order more
  -- Every condition takes at least its blank, so that the fuel lasts for all of them.
  have enough := @length_le_fillAll 0 clauses
  refine readClauses_fillAll clauses ended stop ?_
  rw [List.length_append]
  omega

/-- A limit is read as its own number, and is not the end of the statement. -/
theorem read_limit (number : Nat) :
    ∃ text, fillAll numbered number [limitFragments] = ' ' :: text ∧
      read limitFragments (' ' :: text) = some ([number + 1], []) := by
  -- Nothing stands behind the limit, so its number is read in full.
  have ended : ∀ fragment ∈ limitFragments.tail, Ended (fragment ++ []) := by
    simp [limitFragments, Ended]
  have found := @read_fill number _ _ ended
  have single : fillAll numbered number [limitFragments] = fill numbered number limitFragments :=
    List.append_nil _
  obtain ⟨text, first⟩ : ∃ text, fill numbered number limitFragments = ' ' :: text := by
    rw [limitFragments, fill]
    exact ⟨_, rfl⟩
  rw [List.append_nil, first] at found
  exact ⟨text, single.trans first, found⟩

/-- The statement for a filter is taken as its own conditions, with the numbers in order. -/
theorem readSelection_listQuery (filter : HostFilter) :
    readSelection (numberPlaceholders (listQuery filter).sql).toList =
      some ⟨numberClauses 0 ((conditions filter).map Prod.fst),
        filter.limit.map fun _ => lastNumber ((conditions filter).map Prod.fst) + 1⟩ := by
  rw [numberPlaceholders_listQuery, fillAll_piecesOf, readSelection, dropPrefix?_append,
    Option.bind_some, readClauses_body, dropPrefix?_append, Option.bind_some]
  cases filter.limit with
  | none => rfl
  | some limit =>
    -- What is left behind the order is the limit.
    obtain ⟨text, first, found⟩ := read_limit (lastNumber ((conditions filter).map Prod.fst))
    rw [Option.map_some, Option.toList_some, first]
    simp only [found, Option.map_some]

end Numbers

section Values

variable {asked : List (Clause × List SqlValue)}

/-- Every condition of a filter comes with as many values as it has parameters. -/
theorem length_values (filter : HostFilter) :
    ∀ condition ∈ conditions filter, condition.2.length = holes condition.1.fragments := by
  -- Each kind of condition is written with the values it was made for.
  intro condition member
  rcases List.mem_append.mp member with searched | member
  · obtain ⟨q, -, rfl⟩ := Option.map_eq_some_iff.mp (Option.mem_toList.mp searched)
    rfl
  · rcases List.mem_append.mp member with filed | tagged
    · obtain ⟨folder, -, rfl⟩ := Option.map_eq_some_iff.mp (Option.mem_toList.mp filed)
      rfl
    · obtain ⟨tag, -, rfl⟩ := List.mem_map.mp tagged
      rfl

/-- The numbers behind some values name the values that come next. -/
theorem param_range' (before own after : List SqlValue) :
    (List.range' (before.length + 1) own.length).map (param (before ++ (own ++ after))) = own := by
  -- The first number is one above the count of the values in front.
  apply List.ext_getElem
  · simp
  · intro position short inside
    have behind : before.length ≤ before.length + position := Nat.le_add_right _ _
    simp [param, Nat.add_right_comm before.length 1 position, List.getElem?_append_right behind,
      List.getElem?_append_left inside, List.getElem?_eq_getElem inside]

/-- The numbers of conditions name the conditions' own values. -/
theorem values_numberClauses
    (counted : ∀ condition ∈ asked, condition.2.length = holes condition.1.fragments)
    (before after : List SqlValue) :
    ((numberClauses before.length (asked.map Prod.fst)).map fun clause =>
      (clause.1, clause.2.map (param (before ++ (asked.flatMap Prod.snd ++ after))))) = asked := by
  induction asked generalizing before with
  | nil => rfl
  | cons condition asked ih =>
    have own := counted condition List.mem_cons_self
    -- The values of the others come behind this one's.
    have onward := ih (fun later member => counted later (List.mem_cons_of_mem _ member))
      (before ++ condition.2)
    rw [List.length_append, own] at onward
    rw [List.map_cons, numberClauses, List.map_cons, List.flatMap_cons, ← own, List.append_assoc,
      param_range', own]
    rw [List.append_assoc] at onward
    rw [onward]

/-- The numbers of conditions are consecutive. -/
theorem numbers_numberClauses (number : Nat) (clauses : List Clause) :
    (numberClauses number clauses).flatMap Prod.snd =
      List.range' (number + 1) (lastNumber clauses) := by
  -- Each condition takes as many numbers as it has holes and hands the count on.
  induction clauses generalizing number with
  | nil => rfl
  | cons clause clauses ih =>
    have total : lastNumber (clause :: clauses) = holes clause.fragments + lastNumber clauses := rfl
    rw [numberClauses, List.flatMap_cons, ih, total, ← List.range'_append_1, Nat.add_right_comm]

/-- The largest of consecutive numbers is the last. -/
theorem foldl_max_range' (count : Nat) : (List.range' 1 count).foldl max 0 = count := by
  induction count with
  | zero => rfl
  | succ count ih =>
    -- The number that comes last is above all before it.
    rw [List.range'_concat, List.foldl_append, ih]
    simp
    omega

/-- The last number that conditions take is the number of their values. -/
theorem lastNumber_eq
    (counted : ∀ condition ∈ asked, condition.2.length = holes condition.1.fragments) :
    lastNumber (asked.map Prod.fst) = (asked.flatMap Prod.snd).length := by
  -- Conditions have as many holes as values, one after the other.
  induction asked with
  | nil => rfl
  | cons condition asked ih =>
    have own := counted condition List.mem_cons_self
    have onward := ih fun later member => counted later (List.mem_cons_of_mem _ member)
    have total : lastNumber ((condition :: asked).map Prod.fst) =
        holes condition.1.fragments + lastNumber (asked.map Prod.fst) := rfl
    rw [total, onward, List.flatMap_cons, List.length_append, own]

/-- The values of the statement for a filter: those of its conditions, and its limit. -/
theorem args_listQuery (filter : HostFilter) :
    (listQuery filter).args = (conditions filter).flatMap Prod.snd ++
      (filter.limit.map fun limit => SqlValue.integer limit.toNat).toList := by
  -- The values are collected in the order of the pieces, and the fixed pieces bring none.
  rw [(written_listQuery filter).args, piecesOf, List.flatMap_cons, List.nil_append,
    List.flatMap_append, List.flatMap_map]
  congr 1
  rw [ending, List.flatMap_cons, List.nil_append]
  cases filter.limit <;> rfl

/-- As many values are bound to the statement for a filter as it has parameters. -/
theorem parameterCount_listQuery (filter : HostFilter) {selection : Selection}
    (taken : readSelection (numberPlaceholders (listQuery filter).sql).toList = some selection) :
    selection.parameterCount = (listQuery filter).args.length := by
  -- The numbers go up without a gap, so the largest is how many there are.
  rw [readSelection_listQuery, Option.some.injEq] at taken
  rw [← taken, Selection.parameterCount, numbers_numberClauses,
    lastNumber_eq (length_values filter), args_listQuery, List.length_append]
  cases filter.limit with
  | none => simpa using foldl_max_range' _
  | some limit =>
    rw [Option.map_some, Option.toList_some, List.foldl_append, foldl_max_range']
    simp

/-- The rows that meet the conditions of a filter, in their order. -/
def foundRows (db : Database) (scan : List HostRow) (filter : HostFilter) : List HostRow :=
  (scan.filter fun row => (conditions filter).all fun condition =>
    condition.1.holds db row condition.2).mergeSort listOrder

/-- The statement for a filter finds the rows that meet its conditions, up to its limit. -/
theorem queryRows_listQuery (db : Database) (scan : List HostRow) (filter : HostFilter) :
    queryRows db scan (listQuery filter) =
      .ok (truncated filter.limit (foundRows db scan filter)) := by
  have counted := parameterCount_listQuery filter (readSelection_listQuery filter)
  have values := values_numberClauses (length_values filter) []
    (filter.limit.map fun limit => SqlValue.integer limit.toNat).toList
  rw [List.nil_append, ← args_listQuery, List.length_nil] at values
  rw [queryRows, readSelection_listQuery]
  dsimp only
  rw [if_pos counted, Selection.rows]
  -- The numbers lead every condition back to its own values.
  have rows : (fun row : HostRow =>
      (numberClauses 0 ((conditions filter).map Prod.fst)).all fun clause =>
        clause.1.holds db row (clause.2.map (param (listQuery filter).args))) =
      fun row => (conditions filter).all fun condition => condition.1.holds db row condition.2 := by
    funext row
    conv_rhs => rw [← values, List.all_map]
    rfl
  rw [rows, args_listQuery, ← foundRows]
  cases filter.limit with
  | none => rfl
  | some limit =>
    -- The limit is the value behind those of the conditions.
    have last : param ((conditions filter).flatMap Prod.snd ++ [SqlValue.integer limit.toNat])
        (lastNumber ((conditions filter).map Prod.fst) + 1) = .integer limit.toNat := by
      rw [lastNumber_eq (length_values filter), param, Nat.add_sub_cancel]
      simp
    rw [Option.map_some, Option.map_some, Option.toList_some]
    dsimp only
    rw [last]
    simp [truncated]

end Values

end Tern.Store
