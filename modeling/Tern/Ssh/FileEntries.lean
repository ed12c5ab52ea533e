import Tern.Base.FirstSeen
import Tern.Ssh.KnownHosts

/-! The file as a list of entries, and what each rewriting operation does to that list. -/

namespace Tern.KnownHosts

open Text

variable {Key : Type} (crates : Crates Key)

/-- The entries a text holds, in line order. -/
def entriesOf (contents : String) : List (Entry Key) :=
  (lines contents).filterMap (parseEntry crates)

/-- The entries a path holds. -/
def fileEntries : Disk → List (Entry Key)
  | .missing => []
  | .unreadable _ => []
  | .text contents => entriesOf crates contents

/-- White space around a line does not change its entry. -/
theorem parseEntry_trim (line : String) :
    parseEntry crates (trim line) = parseEntry crates line := by
  simp [parseEntry]

/-- Lines that agree up to surrounding white space hold the same entries. -/
theorem filterMap_parseEntry_congr {left right : List String}
    (same : left.map trim = right.map trim) :
    left.filterMap (parseEntry crates) = right.filterMap (parseEntry crates) := by
  -- Both sides only ever look at the trimmed lines.
  have through : ∀ texts : List String, texts.filterMap (parseEntry crates) =
      (texts.map trim).filterMap (parseEntry crates) := by
    intro texts
    induction texts with
    | nil => rfl
    | cons line rest ih =>
      rw [List.map_cons, List.filterMap_cons, List.filterMap_cons, parseEntry_trim, ih]
  rw [through left, through right, same]

/-- The verdict's numbered entries are the file's entries with their lines. -/
theorem parsedEntries_entries (contents : String) :
    (parsedEntries crates contents).map Prod.snd = entriesOf crates contents := by
  unfold parsedEntries entriesOf
  -- Numbering the lines adds nothing to what they parse to.
  have general : ∀ (texts : List String) (start : Nat),
      ((texts.zipIdx start).filterMap fun indexed =>
        (parseEntry crates indexed.1).map fun entry => (indexed.2 + 1, entry)).map Prod.snd =
        texts.filterMap (parseEntry crates) := by
    intro texts
    induction texts with
    | nil => simp
    | cons line rest ih =>
      intro start
      rw [List.zipIdx_cons, List.filterMap_cons, List.filterMap_cons]
      cases parseEntry crates line with
      | none => simp [ih]
      | some entry => simp [ih]
  exact general (lines contents) 0

/-- Reading a file and listing its entries agree. -/
theorem fileEntries_of_read {file : Disk} {contents : String}
    (readable : read file = .ok contents) :
    fileEntries crates file = entriesOf crates contents := by
  cases file with
  | missing =>
    cases readable
    rfl
  -- A path that cannot be read answers no contents to compare with.
  | unreadable reason => cases readable
  | text existing =>
    cases readable
    rfl

section Closing

/-- A closed text is empty or stops at a line feed. -/
theorem closeLastLine_closed (existing : String) :
    (closeLastLine existing).toList = [] ∨
      (closeLastLine existing).toList.getLast? = some '\n' := by
  unfold closeLastLine
  split
  · simp
  · -- What needed no closing was empty or closed already.
    rename_i settled
    by_cases empty : existing.toList = []
    · exact .inl empty
    · right
      simpa [empty, endsWithNewline] using settled

/-- Closing the last line changes no entry. -/
theorem entriesOf_closeLastLine (existing : String) :
    entriesOf crates (closeLastLine existing) = entriesOf crates existing := by
  unfold closeLastLine
  split
  · rename_i pending
    -- The added line feed closes a line that trims to what it was before.
    have occupied : existing.toList ≠ [] := by
      intro empty
      simp [empty] at pending
    have opened : existing.toList.getLast? ≠ some '\n' := by
      simpa [occupied, endsWithNewline] using pending
    exact filterMap_parseEntry_congr crates (trim_lines_close occupied opened)
  · rfl

/-- What is appended after closing the last line adds exactly its own entries. -/
theorem entriesOf_append (existing addition : String) :
    entriesOf crates (closeLastLine existing ++ addition) =
      entriesOf crates existing ++ entriesOf crates addition := by
  -- The first part is closed, so no line runs across the seam.
  have split : lines (closeLastLine existing ++ addition) =
      lines (closeLastLine existing) ++ lines addition :=
    lines_append addition (closeLastLine_closed existing)
  rw [← entriesOf_closeLastLine crates existing]
  simp [entriesOf, split]

/-- Written-out lines hold the entries the lines parse to. -/
theorem entriesOf_unlines {texts : List String} (single : ∀ line ∈ texts, '\n' ∉ line.toList) :
    entriesOf crates (unlines texts) = texts.filterMap (parseEntry crates) :=
  filterMap_parseEntry_congr crates (trim_lines_unlines single)

end Closing

section Operations

/-- Learning adds the entry its line parses to, and changes no other. -/
theorem learn_entries {file after : Disk} {host : String} {port : UInt16} {key : PublicKey Key}
    {hashed : Bool} {salt : Option (List UInt8)} {part : String}
    (encoded : opensshKeyPart crates key = .ok part)
    (single : '\n' ∉ (learnedPattern crates host port hashed salt ++ " " ++ part).toList)
    (learned : learn crates file host port key hashed salt = .ok after) :
    fileEntries crates after = fileEntries crates file ++
      (parseEntry crates (learnedPattern crates host port hashed salt ++ " " ++ part)).toList := by
  cases readable : read file with
  | error reason =>
    simp [learn, encoded, readable, Bind.bind, Except.bind] at learned
  | ok existing =>
    simp only [learn, encoded, readable, Bind.bind, Except.bind, Pure.pure, Except.pure,
      Except.ok.injEq] at learned
    -- The new contents are the closed old ones with one line behind them.
    subst learned
    rw [fileEntries_of_read crates readable, fileEntries, entriesOf_append]
    -- The addition is one written-out line.
    have one := @entriesOf_unlines Key crates
      [learnedPattern crates host port hashed salt ++ " " ++ part] (by simpa using single)
    simp only [unlines, String.append_empty] at one
    rw [one, List.filterMap_cons, List.filterMap_nil]
    cases parseEntry crates (learnedPattern crates host port hashed salt ++ " " ++ part) with
    | none => rfl
    | some entry => rfl

/-- The test by which removal drops a line, read on the line's entry. -/
def entryMatches (host : String) (port : UInt16) (entry : Entry Key) : Bool :=
  patternsMatch crates entry.hostPatterns (matchTarget host port) host

/-- Filtering lines by whether their entry matches filters the entries themselves. -/
theorem filterMap_kept (host : String) (port : UInt16) (texts : List String) :
    (texts.filter (!lineMatches crates host port ·)).filterMap (parseEntry crates) =
      (texts.filterMap (parseEntry crates)).filter (!entryMatches crates host port ·) := by
  induction texts with
  | nil => rfl
  | cons line rest ih =>
    rw [List.filter_cons, List.filterMap_cons]
    cases parsed : parseEntry crates line with
    | none =>
      -- A line without an entry is always kept, and adds nothing.
      have kept : lineMatches crates host port line = false := by simp [lineMatches, parsed]
      simp only [kept, Bool.not_false, if_true, List.filterMap_cons, parsed]
      exact ih
    | some entry =>
      -- A line matches when the entry it holds does.
      have same : lineMatches crates host port line = entryMatches crates host port entry := by
        simp [lineMatches, entryMatches, parsed]
      by_cases hit : entryMatches crates host port entry = true
      · simp [same, hit, ih]
      · simp [same, hit, parsed, ih]

/-- Removal drops exactly the matching entries. -/
theorem remove_entries {file after : Disk} {host : String} {port : UInt16} {removed : Nat}
    (done : remove crates file host port = .ok (removed, after)) :
    fileEntries crates after =
      (fileEntries crates file).filter (!entryMatches crates host port ·) := by
  cases readable : read file with
  | error reason =>
    simp [remove, readable, Bind.bind, Except.bind] at done
  | ok contents =>
    simp only [remove, readable, Bind.bind, Except.bind, Pure.pure, Except.pure, Except.ok.injEq,
      Prod.mk.injEq] at done
    obtain ⟨rfl, rfl⟩ := done
    -- What the kept lines hold are the entries that do not match.
    have kept := filterMap_kept crates host port (lines contents)
    rw [fileEntries_of_read crates readable]
    split
    · -- The rewritten file holds the kept lines, none of which contains a line feed.
      rw [fileEntries, entriesOf_unlines crates, kept]
      · rfl
      · intro line member
        exact feed_notMem_lines (List.mem_filter.mp member).1
    · -- Nothing matched, so the untouched file is already the filtered one.
      rename_i none_
      rw [fileEntries_of_read crates readable]
      unfold entriesOf
      rw [← kept, List.filter_eq_self.mpr]
      intro line member
      have zero : (lines contents).countP (lineMatches crates host port) = 0 := by omega
      simpa using List.countP_eq_zero.mp zero line member

/-- The source entries an import considers: every parsed one but certificate authorities. -/
def offered (entries : List (Entry Key)) : List (Entry Key) :=
  entries.filter fun entry => decide (entry.marker ≠ some .certAuthority)

/-- The fold over the source keeps the first offered entry of every new identity. -/
theorem importLines_fold (texts : List String) (state : ImportState) :
    ((texts.foldl (importLine crates) state).appended).filterMap (parseEntry crates) =
      state.appended.filterMap (parseEntry crates) ++
        FirstSeen.keep (entryIdentity crates) state.known
          (offered (texts.filterMap (parseEntry crates))) := by
  induction texts generalizing state with
  | nil => simp [offered, FirstSeen.keep]
  | cons line rest ih =>
    rw [List.foldl_cons, ih, List.filterMap_cons]
    cases parsed : parseEntry crates line with
    | none =>
      -- Blank, comment and malformed lines leave both lists alone.
      by_cases skipped : ((trim line).toList.isEmpty || (trim line).toList.head? == some '#') = true
      · simp [importLine, skipped]
      · simp [importLine, skipped, parsed]
    | some entry =>
      -- A line that holds an entry was not skipped as a blank or a comment.
      have visible :
          ¬((trim line).toList.isEmpty || (trim line).toList.head? == some '#') = true := by
        intro skipped
        simp [parseEntry, skipped] at parsed
      by_cases authority : entry.marker = some .certAuthority
      · -- Certificate authorities are counted and left out on both sides.
        simp [importLine, visible, parsed, authority, offered]
      · by_cases known : entryIdentity crates entry ∈ state.known
        · -- A known identity is a duplicate, and the file keeps what it has.
          simp [importLine, visible, parsed, authority, known, offered, FirstSeen.keep]
        · -- A new identity is appended in its trimmed form, which parses to the same entry.
          simp [importLine, visible, parsed, authority, known, offered, FirstSeen.keep,
            parseEntry_trim]

/-- Every appended line is a trimmed line of the source. -/
theorem mem_appended {texts : List String} {state : ImportState} {line : String}
    (member : line ∈ (texts.foldl (importLine crates) state).appended) :
    line ∈ state.appended ∨ ∃ text ∈ texts, line = trim text := by
  induction texts generalizing state with
  | nil => exact .inl member
  | cons text rest ih =>
    rw [List.foldl_cons] at member
    rcases ih member with early | ⟨other, inside, same⟩
    · -- One step appends nothing, or its own trimmed line.
      have grown : (importLine crates state text).appended = state.appended ∨
          (importLine crates state text).appended = state.appended ++ [trim text] := by
        unfold importLine
        dsimp only
        split
        · exact .inl rfl
        · split
          · exact .inl rfl
          · split
            · exact .inl rfl
            · split
              · exact .inl rfl
              · exact .inr rfl
      -- The line was there before this step, or it is the one this step appended.
      rcases grown with same | same
      · exact .inl (same ▸ early)
      · rw [same, List.mem_append, List.mem_singleton] at early
        rcases early with early | rfl
        · exact .inl early
        · exact .inr ⟨text, by simp, rfl⟩
    · -- A line that a later step appended is of the rest of the source.
      exact .inr ⟨other, List.mem_cons_of_mem _ inside, same⟩

/-- The identities a file already holds are those of its entries. -/
theorem knownIdentities_eq (existing : String) :
    knownIdentities crates existing = (entriesOf crates existing).map (entryIdentity crates) := by
  rw [knownIdentities, entriesOf, List.map_filterMap]

/-- An import appends the first offered entry of every identity the file does not hold yet. -/
theorem import_entries {file source after : Disk} {report : ImportReport}
    (imported : importFrom crates file source = .ok (report, after)) :
    fileEntries crates after = fileEntries crates file ++
      FirstSeen.keep (entryIdentity crates)
        ((fileEntries crates file).map (entryIdentity crates))
        (offered (fileEntries crates source)) := by
  cases source with
  | missing =>
    -- A source that does not exist offers nothing.
    simp only [importFrom, Except.ok.injEq, Prod.mk.injEq] at imported
    simp [← imported.2, fileEntries, offered, FirstSeen.keep]
  | unreadable reason => simp [importFrom] at imported
  | text incoming =>
    cases readable : read file with
    | error reason => simp [importFrom, readable, Bind.bind, Except.bind] at imported
    | ok existing =>
      simp only [importFrom, readable, Bind.bind, Except.bind, Pure.pure, Except.pure,
        Except.ok.injEq, Prod.mk.injEq] at imported
      obtain ⟨-, rfl⟩ := imported
      -- The appended lines hold the first offered entry of each identity that is new.
      have folded := importLines_fold crates (lines incoming)
        ⟨knownIdentities crates existing, ImportReport.default, []⟩
      rw [fileEntries_of_read crates readable, ← knownIdentities_eq]
      change (importLines crates existing incoming).appended.filterMap (parseEntry crates) = _
        at folded
      rw [List.filterMap_nil, List.nil_append] at folded
      rw [show fileEntries crates (.text incoming) =
        (lines incoming).filterMap (parseEntry crates) from rfl, ← folded]
      split
      · -- With nothing appended the file is left as it is.
        rename_i empty
        rw [List.isEmpty_iff.mp empty, fileEntries_of_read crates readable]
        simp
      · rw [fileEntries, entriesOf_append, entriesOf_unlines crates]
        intro line member
        -- A trimmed source line holds no line feed.
        rcases mem_appended crates member with early | ⟨text, inside, rfl⟩
        · simp at early
        · intro feed
          rw [trim, String.toList_ofList] at feed
          exact feed_notMem_lines inside (mem_trimChars feed)

end Operations

end Tern.KnownHosts
