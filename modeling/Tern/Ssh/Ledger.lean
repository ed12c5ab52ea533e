import Tern.Ssh.Import

/-! The books of an import: every line is accounted for, and a second import adds nothing. -/

namespace Tern.KnownHosts

open Text

variable {Key : Type} {crates : Crates Key}

/-- A line that is neither blank nor a comment. -/
def isContent (line : String) : Bool :=
  !((trim line).toList.isEmpty || (trim line).toList.head? == some '#')

/-- Every counted line is under exactly one of the four heads. -/
def ImportReport.Balanced (report : ImportReport) : Prop :=
  report.total =
    report.imported + report.duplicates + report.skippedCertAuthority + report.malformed

/-- What one source line does to an import. -/
inductive LineOutcome (state : ImportState) (line : String) : ImportState → Prop where
  | skipped (blank : isContent line = false) (none_ : parseEntry crates line = none) :
      LineOutcome state line state
  | malformed (content : isContent line = true) (none_ : parseEntry crates line = none) :
      LineOutcome state line { state with
        report := { state.report with
          total := state.report.total + 1, malformed := state.report.malformed + 1 } }
  | authority (content : isContent line = true) {entry : Entry Key}
      (parsed : parseEntry crates line = some entry)
      (marked : entry.marker = some .certAuthority) :
      LineOutcome state line { state with
        report := { state.report with
          total := state.report.total + 1
          skippedCertAuthority := state.report.skippedCertAuthority + 1 } }
  | duplicate (content : isContent line = true) {entry : Entry Key}
      (parsed : parseEntry crates line = some entry)
      (plain : entry.marker ≠ some .certAuthority)
      (known : entryIdentity crates entry ∈ state.known) :
      LineOutcome state line { state with
        report := { state.report with
          total := state.report.total + 1, duplicates := state.report.duplicates + 1 } }
  | imported (content : isContent line = true) {entry : Entry Key}
      (parsed : parseEntry crates line = some entry)
      (plain : entry.marker ≠ some .certAuthority)
      (fresh : entryIdentity crates entry ∉ state.known) :
      LineOutcome state line
        { known := state.known ++ [entryIdentity crates entry]
          report := { state.report with
            total := state.report.total + 1, imported := state.report.imported + 1 }
          appended := state.appended ++ [trim line] }

/-- One source line has one of the five outcomes. -/
theorem importLine_outcome (state : ImportState) (line : String) :
    @LineOutcome Key crates state line (importLine crates state line) := by
  -- The cases follow the order in which the source decides on a line.
  cases blank : isContent line with
  | false =>
    have skips : ((trim line).toList.isEmpty || (trim line).toList.head? == some '#') = true := by
      have flipped := congrArg (!·) blank
      simpa only [isContent, Bool.not_not, Bool.not_false] using flipped
    have none_ : parseEntry crates line = none := by
      unfold parseEntry
      exact if_pos skips
    have same : importLine crates state line = state := by
      unfold importLine
      exact if_pos skips
    rw [same]
    exact .skipped blank none_
  | true =>
    have stays : ¬((trim line).toList.isEmpty || (trim line).toList.head? == some '#') = true := by
      simpa [isContent] using blank
    unfold importLine
    dsimp only
    rw [if_neg stays]
    -- A line with content is parsed, and then judged by its marker and its identity.
    cases parsed : parseEntry crates line with
    | none => exact .malformed blank parsed
    | some entry =>
      dsimp only
      split
      · rename_i marked
        exact .authority blank parsed marked
      · rename_i plain
        split
        · rename_i known
          exact .duplicate blank parsed plain (by simpa using known)
        · rename_i fresh
          exact .imported blank parsed plain (by simpa using fresh)

/-- What the books of an import say about the lines it has read. -/
structure Books (texts : List String) (before after : ImportState) : Prop where
  balanced : before.report.Balanced → after.report.Balanced
  total : after.report.total = before.report.total + texts.countP isContent
  /-- The lines that hold an entry an import considers are new or known. -/
  offered : after.report.imported + after.report.duplicates =
    before.report.imported + before.report.duplicates +
      (offered (texts.filterMap (parseEntry crates))).length
  appended : after.appended.length + before.report.imported =
    before.appended.length + after.report.imported

/-- The books of some lines and of further ones are the books of all of them. -/
theorem Books.trans {texts further : List String} {before middle after : ImportState}
    (books : @Books Key crates texts before middle)
    (onward : @Books Key crates further middle after) :
    @Books Key crates (texts ++ further) before after := by
  obtain ⟨balanced, total, considered, appended⟩ := books
  obtain ⟨balancedLater, totalLater, consideredLater, appendedLater⟩ := onward
  refine ⟨fun start => balancedLater (balanced start), ?_, ?_, by omega⟩
  · -- The lines with content of both texts are those of each.
    rw [List.countP_append]
    omega
  · -- What both texts offer is what each of them offers.
    have split : KnownHosts.offered ((texts ++ further).filterMap (parseEntry crates)) =
        KnownHosts.offered (texts.filterMap (parseEntry crates)) ++
          KnownHosts.offered (further.filterMap (parseEntry crates)) := by
      rw [KnownHosts.offered, List.filterMap_append, List.filter_append, ← KnownHosts.offered,
        ← KnownHosts.offered]
    rw [split, List.length_append]
    omega

section Outcomes

variable {state next : ImportState} {line : String}

/-- The heads of a report stay balanced, as a line is counted under one of them. -/
theorem LineOutcome.balanced (outcome : @LineOutcome Key crates state line next)
    (before : state.report.Balanced) : next.report.Balanced := by
  -- Every outcome adds one to a head and one to the sum, or neither.
  unfold ImportReport.Balanced at before ⊢
  cases outcome with
  | skipped blank none_ => exact before
  | malformed content none_ => dsimp only; omega
  | authority content parsed marked => dsimp only; omega
  | duplicate content parsed plain known => dsimp only; omega
  | imported content parsed plain fresh => dsimp only; omega

/-- A line is counted when it has any content. -/
theorem LineOutcome.total (outcome : @LineOutcome Key crates state line next) :
    next.report.total = state.report.total + [line].countP isContent := by
  -- Only a line without content goes uncounted.
  rw [List.countP_singleton]
  cases outcome with
  | skipped blank none_ => simp [blank]
  | malformed content none_ => rw [if_pos content]
  | authority content parsed marked => rw [if_pos content]
  | duplicate content parsed plain known => rw [if_pos content]
  | imported content parsed plain fresh => rw [if_pos content]

/-- A line with an entry that an import considers is new or known. -/
theorem LineOutcome.offered (outcome : @LineOutcome Key crates state line next) :
    next.report.imported + next.report.duplicates = state.report.imported +
      state.report.duplicates +
        (KnownHosts.offered ([line].filterMap (parseEntry crates))).length := by
  cases outcome with
  | skipped blank none_ => simp [KnownHosts.offered, none_]
  | malformed content none_ => simp [KnownHosts.offered, none_]
  -- A certificate authority is an entry, but none that an import considers.
  | authority content parsed marked => simp [KnownHosts.offered, parsed, marked]
  | duplicate content parsed plain known => simp [KnownHosts.offered, parsed, plain]; omega
  | imported content parsed plain fresh => simp [KnownHosts.offered, parsed, plain]; omega

/-- As many lines are appended as are reported. -/
theorem LineOutcome.appended (outcome : @LineOutcome Key crates state line next) :
    next.appended.length + state.report.imported =
      state.appended.length + next.report.imported := by
  -- Only an import adds to the report, and it appends one line.
  cases outcome with
  | skipped blank none_ => rfl
  | malformed content none_ => rfl
  | authority content parsed marked => rfl
  | duplicate content parsed plain known => rfl
  | imported content parsed plain fresh =>
    rw [List.length_append, List.length_singleton]
    dsimp only
    omega

end Outcomes

/-- The books are right after any number of lines. -/
theorem importLines_books (texts : List String) (state : ImportState) :
    @Books Key crates texts state (texts.foldl (importLine crates) state) := by
  -- The books of the first line and those of the rest are one after the other.
  induction texts generalizing state with
  | nil => exact ⟨id, rfl, rfl, rfl⟩
  | cons line rest ih =>
    have outcome := @importLine_outcome Key crates state line
    have books : @Books Key crates [line] state (importLine crates state line) :=
      ⟨outcome.balanced, outcome.total, outcome.offered, outcome.appended⟩
    exact books.trans (ih (importLine crates state line))

/-- Lines whose identities are all known add nothing. -/
theorem importLines_known {texts : List String} {state : ImportState}
    (known : ∀ entry ∈ offered (texts.filterMap (parseEntry crates)),
      entryIdentity crates entry ∈ state.known) :
    (texts.foldl (importLine crates) state).appended = state.appended ∧
      (texts.foldl (importLine crates) state).report.imported = state.report.imported := by
  induction texts generalizing state with
  | nil => exact ⟨rfl, rfl⟩
  | cons line rest ih =>
    rw [List.foldl_cons]
    have outcome := @importLine_outcome Key crates state line
    generalize importLine crates state line = next at outcome
    -- What the rest offers is offered by the whole.
    have later : ∀ entry ∈ offered (rest.filterMap (parseEntry crates)),
        entryIdentity crates entry ∈ state.known := by
      intro entry member
      refine known entry ?_
      obtain ⟨inside, plain⟩ := List.mem_filter.mp member
      refine List.mem_filter.mpr ⟨?_, plain⟩
      rw [List.filterMap_cons]
      split
      · exact inside
      · exact List.mem_cons_of_mem _ inside
    cases outcome with
    | skipped blank none_ => exact ih later
    | malformed content none_ => exact ih later
    | authority content parsed marked => exact ih later
    | duplicate content parsed plain known => exact ih later
    | imported content parsed plain fresh =>
      -- A line that is offered is known, and so is not imported.
      refine absurd (known _ ?_) fresh
      refine List.mem_filter.mpr ⟨?_, by simpa using plain⟩
      rw [List.filterMap_cons, parsed]
      exact List.mem_cons_self

/-- After an import, the file knows every identity that the source offers. -/
theorem identities_known {file source after : Disk} {report : ImportReport}
    (imported : importFrom crates file source = .ok (report, after)) {entry : Entry Key}
    (considered : entry ∈ offered (fileEntries crates source)) :
    entryIdentity crates entry ∈ (fileEntries crates after).map (entryIdentity crates) := by
  rw [import_entries crates imported, List.map_append, List.mem_append]
  by_cases known : entryIdentity crates entry ∈
      (fileEntries crates file).map (entryIdentity crates)
  · -- An identity that was known is still known.
    exact .inl known
  · -- The first offered entry of a new identity was appended.
    right
    have exists_ : ((offered (fileEntries crates source)).find? fun other =>
        entryIdentity crates other = entryIdentity crates entry).isSome := by
      rw [List.find?_isSome]
      exact ⟨entry, considered, by simp⟩
    obtain ⟨first, found⟩ := Option.isSome_iff_exists.mp exists_
    have same : entryIdentity crates first = entryIdentity crates entry := by
      simpa using List.find?_some found
    refine List.mem_map.mpr ⟨first, ?_, same⟩
    rw [FirstSeen.mem_keep, same]
    exact ⟨known, found⟩

/-- What an import from a text leaves, and what it reports. -/
theorem importFrom_text {file after : Disk} {incoming : String} {report : ImportReport}
    (imported : importFrom crates file (.text incoming) = .ok (report, after)) :
    ∃ existing, read file = .ok existing ∧ report = (importLines crates existing incoming).report ∧
      after = if (importLines crates existing incoming).appended.isEmpty then file
        else .text (closeLastLine existing ++
          unlines (importLines crates existing incoming).appended) := by
  -- Both files are read before anything is written.
  cases readable : read file with
  | error reason => simp [importFrom, readable, Bind.bind, Except.bind] at imported
  | ok existing =>
    simp only [importFrom, readable, Bind.bind, Except.bind, Pure.pure, Except.pure,
      Except.ok.injEq, Prod.mk.injEq] at imported
    exact ⟨existing, rfl, imported.1.symm, imported.2.symm⟩

/-- The books of a whole import begin with nothing on them. -/
theorem importLines_report (existing incoming : String) :
    (importLines crates existing incoming).report.Balanced ∧
    (importLines crates existing incoming).report.total = (lines incoming).countP isContent ∧
    (importLines crates existing incoming).report.imported +
        (importLines crates existing incoming).report.duplicates =
      (offered (entriesOf crates incoming)).length ∧
    (importLines crates existing incoming).appended.length =
      (importLines crates existing incoming).report.imported := by
  -- The books start empty, so what they have gained is what they show.
  have books : @Books Key crates (lines incoming)
      ⟨knownIdentities crates existing, ImportReport.default, []⟩
      (importLines crates existing incoming) := importLines_books _ _
  refine ⟨books.balanced rfl, ?_, ?_, ?_⟩
  · rw [books.total]
    exact Nat.zero_add _
  · rw [books.offered]
    exact Nat.zero_add _
  · have appended := books.appended
    rwa [ImportReport.default, Nat.add_zero, List.length_nil, Nat.zero_add] at appended

/-- Each line an import appends is one line. -/
theorem feed_notMem_appended {existing incoming line : String}
    (member : line ∈ (importLines crates existing incoming).appended) : '\n' ∉ line.toList := by
  -- What is appended is a line of the text, trimmed.
  intro feed
  rcases mem_appended crates member with early | ⟨text, inside, rfl⟩
  · cases early
  · rw [trim, String.toList_ofList] at feed
    exact feed_notMem_lines inside (mem_trimChars feed)

/--
An import that reports nothing leaves the file alone, and any other extends it.
The file can be read again either way.
-/
theorem importFrom_leaves {file after : Disk} {existing incoming : String}
    (readable : read file = .ok existing)
    (left : after = if (importLines crates existing incoming).appended.isEmpty then file
      else .text (closeLastLine existing ++
        unlines (importLines crates existing incoming).appended)) :
    ((importLines crates existing incoming).report.imported = 0 → after = file) ∧
    (0 < (importLines crates existing incoming).report.imported →
      after = .text (closeLastLine existing ++
        unlines (importLines crates existing incoming).appended)) ∧
    ∃ contents, read after = .ok contents := by
  have count := (@importLines_report Key crates existing incoming).2.2.2
  -- Something was appended exactly when something was counted as imported.
  rcases Nat.eq_zero_or_pos (importLines crates existing incoming).report.imported with
    none_ | some_
  · have untouched : after = file := by
      rw [left, List.length_eq_zero_iff.mp (count.trans none_)]
      rfl
    refine ⟨fun _ => untouched, fun some_ => by omega, ?_⟩
    rw [untouched]
    exact ⟨existing, readable⟩
  · -- An import of something writes the file anew, with what is appended at its end.
    have extended : after = .text (closeLastLine existing ++
        unlines (importLines crates existing incoming).appended) := by
      rw [left, if_neg]
      rw [List.isEmpty_iff]
      intro empty
      rw [empty, List.length_nil] at count
      omega
    refine ⟨fun none_ => by omega, fun _ => extended, ?_⟩
    rw [extended]
    exact ⟨_, rfl⟩

/-- An import whose source is known finds nothing to add. -/
theorem importFrom_known {file : Disk} {contents incoming : String}
    (readable : read file = .ok contents)
    (known : ∀ entry ∈ offered (entriesOf crates incoming),
      entryIdentity crates entry ∈ (fileEntries crates file).map (entryIdentity crates)) :
    ∃ again, importFrom crates file (.text incoming) = .ok (again, file) ∧ again.imported = 0 ∧
      again.duplicates = (offered (entriesOf crates incoming)).length := by
  -- The import starts out from the identities that the file knows.
  have nothing := @importLines_known Key crates (lines incoming)
    ⟨knownIdentities crates contents, ImportReport.default, []⟩ (by
      rw [knownIdentities_eq, ← fileEntries_of_read crates readable]
      exact known)
  have imported : (importLines crates contents incoming).report.imported = 0 := nothing.2
  have considered := (@importLines_report Key crates contents incoming).2.2.1
  refine ⟨(importLines crates contents incoming).report, ?_, imported, ?_⟩
  · have empty : (importLines crates contents incoming).appended = [] := nothing.1
    simp [importFrom, readable, empty, Bind.bind, Except.bind, Pure.pure, Except.pure]
  · rw [imported, Nat.zero_add] at considered
    exact considered

/--
An import only adds lines behind what the file held, as many as it reports,
accounts for every line of its source,
and finds nothing left to add when it is run again.
-/
theorem import_additive_and_idempotent {file source after : Disk} {report : ImportReport}
    (imported : importFrom crates file source = .ok (report, after)) :
    (report.imported = 0 → after = file) ∧
    (0 < report.imported → ∃ existing appended, read file = .ok existing ∧
      after = .text (closeLastLine existing ++ unlines appended) ∧
      appended.length = report.imported ∧ ∀ line ∈ appended, '\n' ∉ line.toList) ∧
    report.Balanced ∧
    (∀ incoming, read source = .ok incoming →
      report.total = (lines incoming).countP isContent) ∧
    ∃ again, importFrom crates after source = .ok (again, after) ∧ again.imported = 0 ∧
      again.duplicates = report.imported + report.duplicates := by
  cases source with
  | missing =>
    -- A source that does not exist reports nothing, and the file is not even read.
    simp only [importFrom, Except.ok.injEq, Prod.mk.injEq] at imported
    obtain ⟨rfl, rfl⟩ := imported
    refine ⟨fun _ => rfl, fun some_ => absurd some_ (by decide), rfl, ?_, _, rfl, rfl, rfl⟩
    intro incoming empty
    cases empty
    rfl
  | unreadable reason => cases imported
  | text incoming =>
    have known := fun entry => @identities_known Key crates file _ after report imported entry
    obtain ⟨existing, readable, rfl, left⟩ := importFrom_text imported
    obtain ⟨untouched, extended, contents, reread⟩ := importFrom_leaves readable left
    obtain ⟨balanced, total, considered, count⟩ :=
      @importLines_report Key crates existing incoming
    refine ⟨untouched, ?_, balanced, ?_, ?_⟩
    · intro some_
      exact ⟨existing, _, readable, extended some_, count, fun _ => feed_notMem_appended⟩
    · intro source same
      cases same
      exact total
    · -- A second import finds every identity known.
      rw [considered]
      exact importFrom_known reread known

/-- A line that is imported into an empty file is a duplicate the second time. -/
theorem import_twice :
    ∃ report after again,
      importFrom Reference.crates .missing (.text Reference.trustingLine) = .ok (report, after) ∧
      importFrom Reference.crates after (.text Reference.trustingLine) = .ok (again, after) ∧
      again.imported = 0 ∧ again.duplicates = 1 := by
  obtain ⟨⟨report, after⟩, imported⟩ : ∃ result,
      importFrom Reference.crates .missing (.text Reference.trustingLine) = .ok result := ⟨_, rfl⟩
  obtain ⟨-, -, -, -, again, second, none_, duplicates⟩ :=
    import_additive_and_idempotent imported
  refine ⟨report, after, again, imported, second, none_, ?_⟩
  -- The first import brought the one entry of the line.
  obtain ⟨existing, -, rfl, -⟩ := importFrom_text imported
  rw [duplicates, (@importLines_report _ Reference.crates existing Reference.trustingLine).2.2.1]
  rw [show entriesOf Reference.crates Reference.trustingLine = _ from trustingLine_entries]
  rfl

end Tern.KnownHosts
