import Tern.Store.Query

/-! The search for hosts: what a filter asks for, and what it is answered with. -/

namespace Tern.Store

/-- The hosts that a filter asks for, found in the order that the database looks at them. -/
def list (db : Database) (scan : List HostRow) (filter : HostFilter) :
    Except StoreError (List Host) := do
  let rows ← queryRows db scan (listQuery filter)
  let hosts ← rows.mapM fun row => rowToHostAt (select hostColumns row)
  return hosts.map fun host => { host with tags := tagsFor db host.id }

section Matching

variable {db : Database} {row : HostRow} {host bare : Host} {filter : HostFilter}

/-- A text occurs in another one, whatever the case of their letters. -/
def OccursIn (text whole : String) : Prop :=
  (text.toList.map Char.toLower).IsInfix (whole.toList.map Char.toLower)

/-- A host is one that a filter asks for. -/
structure Matches (filter : HostFilter) (host : Host) : Prop where
  /-- A text that is not blank occurs in one of the three texts that show a host. -/
  query : ∀ q, filter.query = some q → Text.trim q ≠ "" →
    OccursIn (Text.trim q) host.name ∨ OccursIn (Text.trim q) host.hostname ∨
      OccursIn (Text.trim q) host.username
  folderId : ∀ folder, filter.folderId = some folder → host.folderId = some folder
  tags : ∀ tag ∈ filter.tagIds, tag ∈ host.tags

/-- A typed text loses the role of each of its characters. -/
theorem toList_escapeLike (input : String) :
    (escapeLike input).toList = Like.escaped likeSigns input.toList := by
  rw [escapeLike, String.toList_ofList]
  rfl

/-- A typed text is searched for as it is, whatever characters it holds. -/
theorem like_patternOf (q value : String) :
    (SqlValue.text value).like (patternOf q) = true ↔ OccursIn (Text.trim q) value := by
  -- The pattern is the escaped text between two signs for any run.
  have pattern : ("%" ++ escapeLike (Text.trim q) ++ "%").toList =
      '%' :: (Like.escaped likeSigns (Text.trim q).toList ++ ['%']) := by
    rw [String.toList_append, String.toList_append, toList_escapeLike]
    generalize Like.escaped likeSigns (Text.trim q).toList = text
    rfl
  unfold patternOf SqlValue.like
  dsimp only
  rw [pattern]
  have apart : likeSigns.many ≠ likeSigns.escape := by decide
  exact Like.like_infix apart (Text.trim q).toList value.toList

/-- The tags of a host are those that the pairs attach to it. -/
theorem mem_tagsFor (tag : Int) : tag ∈ tagsFor db row.id ↔ (row.id, tag) ∈ db.hostTags := by
  -- Sorting keeps the tags, and the pairs are filtered by their host.
  rw [tagsFor, List.mem_insertionSort, List.mem_map]
  constructor
  · rintro ⟨⟨owner, _⟩, member, rfl⟩
    obtain ⟨there, own⟩ := List.mem_filter.mp member
    obtain rfl : owner = row.id := by simpa using own
    exact there
  · intro there
    exact ⟨(row.id, tag), List.mem_filter.mpr ⟨there, by simp⟩, rfl⟩

/-- A row meets the first condition when a text that was typed occurs in one of its three. -/
theorem holds_matching (q : String) :
    Clause.matching.holds db row [patternOf q, patternOf q, patternOf q] = true ↔
      OccursIn (Text.trim q) row.name ∨ OccursIn (Text.trim q) row.hostname ∨
        OccursIn (Text.trim q) row.username := by
  simp [Clause.holds, HostRow.column, like_patternOf]

/-- A row meets the second condition when the folder is its own. -/
theorem holds_folder (folder : Int) :
    Clause.folder.holds db row [.integer folder] = true ↔ row.folderId = some folder := by
  cases filed : row.folderId with
  | none => simp [Clause.holds, HostRow.column, filed, SqlValue.ofInt, SqlValue.equals]
  | some own => simp [Clause.holds, HostRow.column, filed, SqlValue.ofInt, SqlValue.equals]

/-- A row meets the third condition when the tag is attached to it. -/
theorem holds_tag (tag : Int) :
    Clause.tag.holds db row [.integer tag] = true ↔ tag ∈ tagsFor db row.id := by
  rw [mem_tagsFor]
  simp [Clause.holds, SqlValue.equals]

/-- A text that is asked for, and is not blank, has to occur in a row. -/
theorem holds_query (asked : Option String) :
    (((asked.filter fun q => Text.trim q ≠ "").map fun q =>
      (Clause.matching, [patternOf q, patternOf q, patternOf q])).toList.all fun condition =>
        condition.1.holds db row condition.2) = true ↔
      ∀ q, asked = some q → Text.trim q ≠ "" →
        OccursIn (Text.trim q) row.name ∨ OccursIn (Text.trim q) row.hostname ∨
          OccursIn (Text.trim q) row.username := by
  cases asked with
  | none => simp
  | some q =>
    by_cases blank : Text.trim q = ""
    · -- A blank text asks for nothing.
      simp [blank]
    · simp [blank, holds_matching]

/-- A folder that is asked for has to be a row's own. -/
theorem holds_folderId (asked : Option Int) :
    ((asked.map fun folder => (Clause.folder, [SqlValue.integer folder])).toList.all
      fun condition => condition.1.holds db row condition.2) = true ↔
      ∀ folder, asked = some folder → row.folderId = some folder := by
  cases asked with
  | none => simp
  | some folder => simp [holds_folder]

/-- A row meets the conditions of a filter when its record is one that the filter asks for. -/
theorem holds_conditions (read : rowToHost row = .ok bare) :
    ((conditions filter).all fun condition => condition.1.holds db row condition.2) = true ↔
      Matches filter { bare with tags := tagsFor db row.id } := by
  obtain ⟨port, auth, overrides, source, -, rfl⟩ := rowToHost_eq read
  -- Each tag that is asked for is a condition of its own.
  have tagged : ((filter.tagIds.map fun tag =>
      (Clause.tag, [SqlValue.integer tag])).all fun condition =>
        condition.1.holds db row condition.2) = true ↔
      ∀ tag ∈ filter.tagIds, tag ∈ tagsFor db row.id := by
    simp [holds_tag]
  rw [conditions, List.all_append, List.all_append, Bool.and_eq_true, Bool.and_eq_true, holds_query,
    holds_folderId, tagged]
  constructor
  · rintro ⟨query, folder, tags⟩
    exact ⟨query, folder, tags⟩
  · rintro ⟨query, folder, tags⟩
    exact ⟨query, folder, tags⟩

end Matching

section Search

variable {db : Database} {row other : HostRow} {filter : HostFilter}

/-- A host may be listed in front of another one: the later connection first, then by the names. -/
def ListedBefore (host other : Host) : Prop :=
  match host.lastConnectedAt, other.lastConnectedAt with
  | some here, some there => there < here ∨ here = there ∧ nocase host.name ≤ nocase other.name
  | some _, none => True
  | none, some _ => False
  | none, none => nocase host.name ≤ nocase other.name

/-- The rows that are found come in their order. -/
theorem pairwise_listOrder (rows : List HostRow) :
    (rows.mergeSort listOrder).Pairwise fun row other => listOrder row other = true := by
  -- The order compares keys of a linear order, so it is transitive and total.
  apply List.pairwise_mergeSort
  · intro row middle other first second
    exact decide_eq_true ((of_decide_eq_true first).trans (of_decide_eq_true second))
  · intro row other
    simpa [listOrder] using le_total (listKey row) (listKey other)

/-- A record with its tags is what its row is read as, with the tags of the id. -/
theorem read_of_attachTags {host : Host} (attached : attachTags db row = .ok host) :
    rowToHost row = .ok { host with tags := [] } ∧ host.tags = tagsFor db row.id := by
  unfold attachTags at attached
  cases read : rowToHost row with
  | error reason =>
    rw [read] at attached
    cases attached
  | ok bare =>
    rw [read] at attached
    cases attached
    -- The record of a row has no tags yet, and those of the id are put in.
    obtain ⟨port, auth, overrides, source, -, rfl⟩ := rowToHost_eq read
    exact ⟨rfl, rfl⟩

/-- A row meets the conditions of a filter when the filter asks for what is shown of it. -/
theorem holds_iff_matches {host : Host} (attached : attachTags db row = .ok host) :
    ((conditions filter).all fun condition => condition.1.holds db row condition.2) = true ↔
      Matches filter host := by
  obtain ⟨read, tags⟩ := read_of_attachTags attached
  have meets := @holds_conditions db row _ filter read
  rwa [← tags] at meets

/-- The host under an id is what its row is read as. -/
theorem get_of_attachTags {id : Int} {host : Host} (found : lookup db id = some row)
    (attached : attachTags db row = .ok host) : get db id = .ok (some host) := by
  rw [get, found]
  dsimp only
  rw [attached]
  rfl

/-- A host that is shown is what a row of the table is read as. -/
theorem attachTags_of_get {id : Int} {host : Host} (held : get db id = .ok (some host)) :
    ∃ row ∈ db.hosts, attachTags db row = .ok host := by
  obtain ⟨row, bare, found, read, rfl⟩ := get_eq_some.mp held
  refine ⟨row, List.mem_of_find?_eq_some found, ?_⟩
  rw [attachTags, read, lookup_id found]
  rfl

/-- A record with its tags carries what its row says. -/
theorem attachTags_shows {host : Host} (attached : attachTags db row = .ok host) :
    host.id = row.id ∧ host.name = row.name ∧ host.lastConnectedAt = row.lastConnectedAt := by
  obtain ⟨port, auth, overrides, source, -, same⟩ := rowToHost_eq (read_of_attachTags attached).1
  exact ⟨congrArg Host.id same, congrArg Host.name same, congrArg Host.lastConnectedAt same⟩

/-- Rows in order are records in order. -/
theorem listedBefore_of_listOrder {host after : Host} (ordered : listOrder row other = true)
    (first : attachTags db row = .ok host) (second : attachTags db other = .ok after) :
    ListedBefore host after := by
  obtain ⟨-, name, connected⟩ := attachTags_shows first
  obtain ⟨-, afterName, afterConnected⟩ := attachTags_shows second
  have keys := Prod.Lex.le_iff.mp (of_decide_eq_true ordered)
  rw [ListedBefore, name, connected, afterName, afterConnected]
  unfold listKey at keys
  cases here : row.lastConnectedAt with
  | none =>
    cases there : other.lastConnectedAt with
    | none => simpa [here, there, Prod.Lex.le_iff] using keys
    | some later =>
      -- A host that was never connected to does not come first.
      have swapped : true < false := by simpa [here, there] using keys
      exact absurd swapped (by decide)
  | some earlier =>
    cases there : other.lastConnectedAt with
    | none => trivial
    | some later => simpa [here, there, Prod.Lex.le_iff] using keys

/-- A limit cuts a list off in the same place whatever is made of its members. -/
theorem truncated_map {α β : Type} (f : α → β) (limit : Option UInt32) (found : List α) :
    truncated limit (found.map f) = (truncated limit found).map f := by
  cases limit with
  | none => rfl
  | some count => exact List.map_take.symm

/-- What is left of a list was in it. -/
theorem mem_of_mem_truncated {α : Type} {limit : Option UInt32} {found : List α} {value : α}
    (member : value ∈ truncated limit found) : value ∈ found := by
  cases limit with
  | none => exact member
  | some count => exact List.mem_of_mem_take member

/-- A list of hosts is read row by row, each with its tags. -/
theorem list_eq (scan : List HostRow) {rows : List HostRow} {shown : HostRow → Host}
    (found : queryRows db scan (listQuery filter) = .ok rows)
    (readable : ∀ row ∈ rows, attachTags db row = .ok (shown row)) :
    list db scan filter = .ok (rows.map shown) := by
  have bare : rows.mapM (fun row => rowToHostAt (select hostColumns row)) =
      .ok (rows.map fun row => { shown row with tags := [] }) :=
    mapM_eq_ok fun row member => by
      rw [rowToHostAt_select]
      exact (read_of_attachTags (readable row member)).1
  -- Each record is given the tags of its own id.
  have tagged : (rows.map fun row => { shown row with tags := [] }).map
      (fun host => { host with tags := tagsFor db host.id }) = rows.map shown := by
    rw [List.map_map]
    refine List.map_congr_left fun row member => ?_
    have tags := (read_of_attachTags (readable row member)).2
    rw [← (attachTags_shows (readable row member)).1] at tags
    exact congrArg (fun tags => { shown row with tags }) tags.symm
  unfold list
  rw [found]
  -- The values are read by their positions, which is reading the row.
  show ((rows.mapM fun row => rowToHostAt (select hostColumns row)) >>= _) = _
  rw [bare]
  exact congrArg Except.ok tagged

/-- Every row of an intact store is there to be shown, and as one host. -/
theorem Intact.shown (intact : Intact db) :
    ∃ shown : HostRow → Host, ∀ row ∈ db.hosts, attachTags db row = .ok (shown row) := by
  -- Each row can be read, and its host is chosen once for all uses.
  have readable : ∀ row ∈ db.hosts, ∃ host, attachTags db row = .ok host := by
    intro row member
    obtain ⟨bare, read⟩ := intact.readable row member
    exact ⟨_, by rw [attachTags, read]; rfl⟩
  have _ : Nonempty Host := ⟨hostOfDraft 0 0
    ⟨none, "", "", 22, "", .agent, [], none, none, .default, none, .manual, none, none, none⟩⟩
  choose! shown attached using readable
  exact ⟨shown, attached⟩

section Found

variable {scan : List HostRow} (visited : scan.Perm db.hosts)
include visited

/-- The rows that are found are those of the table that meet the conditions. -/
theorem mem_foundRows :
    row ∈ foundRows db scan filter ↔ row ∈ db.hosts ∧
      ((conditions filter).all fun condition => condition.1.holds db row condition.2) = true := by
  rw [foundRows, List.mem_mergeSort, List.mem_filter, visited.mem_iff]

/-- No two of the rows that are found have one id. -/
theorem nodup_foundRows (unique : (db.hosts.map HostRow.id).Nodup) :
    ((foundRows db scan filter).map HostRow.id).Nodup := by
  have scanned : (scan.map HostRow.id).Nodup := (visited.map _).nodup_iff.mpr unique
  rw [foundRows, ((List.mergeSort_perm _ listOrder).map _).nodup_iff]
  exact (List.filter_sublist.map _).nodup scanned

end Found

/--
In every store that calls lead to, and in whatever order the database looks at its rows,
a filter is answered with the hosts that it asks for and no others,
each once and as it is shown under its id,
in the order of their last connections and then of their names, and cut off at the limit.
-/
theorem list_finds_matches (reachable : Reachable db) (scan : List HostRow)
    (visited : scan.Perm db.hosts) (filter : HostFilter) :
    ∃ found, list db scan filter = .ok (truncated filter.limit found) ∧
      (found.map Host.id).Nodup ∧ found.Pairwise ListedBefore ∧
        ∀ host, host ∈ found ↔ get db host.id = .ok (some host) ∧ Matches filter host := by
  have unique := reachable.intact.consistent.unique
  obtain ⟨shown, readable⟩ := reachable.intact.shown
  -- Every row that is found can be read.
  have attached : ∀ row ∈ foundRows db scan filter, attachTags db row = .ok (shown row) :=
    fun row inside => readable row ((mem_foundRows visited).mp inside).1
  refine ⟨(foundRows db scan filter).map shown, ?_, ?_, ?_, ?_⟩
  · rw [truncated_map]
    exact list_eq scan (queryRows_listQuery db scan filter) fun row inside =>
      attached row (mem_of_mem_truncated inside)
  · -- The hosts have the ids of their rows.
    have ids : ((foundRows db scan filter).map shown).map Host.id =
        (foundRows db scan filter).map HostRow.id := by
      rw [List.map_map]
      exact List.map_congr_left fun row inside => (attachTags_shows (attached row inside)).1
    rw [ids]
    exact nodup_foundRows visited unique
  · rw [List.pairwise_map]
    -- The order of the hosts is that of their rows.
    exact (pairwise_listOrder _).imp_of_mem fun here there before =>
      listedBefore_of_listOrder before (attached _ here) (attached _ there)
  · intro host
    rw [List.mem_map]
    constructor
    · rintro ⟨row, inside, rfl⟩
      obtain ⟨there, meets⟩ := (mem_foundRows visited).mp inside
      refine ⟨?_, (holds_iff_matches (readable row there)).mp meets⟩
      rw [(attachTags_shows (readable row there)).1]
      exact get_of_attachTags (lookup_of_mem unique there) (readable row there)
    · rintro ⟨held, asked⟩
      -- The row under the host's id is the one that the host is shown of.
      obtain ⟨row, there, read⟩ := attachTags_of_get held
      have same : shown row = host := Except.ok.inj ((readable row there).symm.trans read)
      exact ⟨row, (mem_foundRows visited).mpr ⟨there, (holds_iff_matches read).mpr asked⟩, same⟩

/-- A percent sign that was typed finds the host that has it in its name. -/
theorem list_finds_percent :
    ∃ db found, System.run storeStep Database.fresh
      [(7, .createHost ⟨none, "100% up", "web.example", 22, "me", .agent, [], none, none, .default,
        none, .manual, none, none, none⟩)] = some db ∧
      list db db.hosts ⟨some " 100% ", none, [], none⟩ = .ok found ∧
        ∃ host ∈ found, host.name = "100% up" := by
  obtain ⟨db, ran, host, held, id, name⟩ : ∃ db, System.run storeStep Database.fresh
      [(7, .createHost ⟨none, "100% up", "web.example", 22, "me", .agent, [], none, none, .default,
        none, .manual, none, none, none⟩)] = some db ∧
      ∃ host, get db 1 = .ok (some host) ∧ host.id = 1 ∧ host.name = "100% up" :=
    ⟨_, rfl, _, rfl, rfl, rfl⟩
  obtain ⟨found, listed, -, -, exactly⟩ :=
    list_finds_matches ⟨_, ran⟩ db.hosts (.refl _) ⟨some " 100% ", none, [], none⟩
  refine ⟨db, found, ran, listed, host, (exactly host).mpr ⟨id.symm ▸ held, ?_, ?_, ?_⟩, name⟩
  · rintro q ⟨⟩ -
    -- The text that was typed is the beginning of the name, without the blanks around it.
    exact .inl ⟨[], " up".toList, by rw [name]; rfl⟩
  · rintro folder ⟨⟩
  · rintro tag ⟨⟩

end Search

end Tern.Store
