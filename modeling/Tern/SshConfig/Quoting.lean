import Tern.SshConfig.Lex

/-! Config lines as they are written, with quotes and separators, and what the tokenizer reads
back. -/

namespace Tern.SshConfig

section Writing

/-- White space within a line. -/
structure Spacing where
  chars : List Char
  blank : ∀ c ∈ chars, Text.isWhitespace c = true
  single : '\n' ∉ chars

/-- A remark at the end of a line. -/
structure Comment where
  text : List Char
  single : '\n' ∉ text

/-- A comment with the sign that starts it. -/
def Comment.print (self : Comment) : List Char := '#' :: self.text

/-- An argument in one of the two ways to write it. -/
inductive Argument where
  | quoted (text : List Char) (unquoted : '\x22' ∉ text) (single : '\n' ∉ text)
  | bare (text : List Char) (filled : text ≠ [])
      (plain : ∀ c ∈ text, Text.isWhitespace c = false ∧ c ≠ '\x22' ∧ c ≠ '#')

/-- The argument that is meant. -/
def Argument.value : Argument → List Char
  | .quoted text _ _ => text
  | .bare text _ _ => text

/-- The argument as it is written. -/
def Argument.print : Argument → List Char
  | .quoted text _ _ => '\x22' :: text ++ ['\x22']
  | .bare text _ _ => text

/-- The argument begins with an equals sign that nothing protects. -/
def Argument.IsSign : Argument → Prop
  | .quoted _ _ _ => False
  | .bare text _ _ => text.head? = some '='

/-- What stands between a keyword and its arguments. -/
inductive Separator where
  | blank (space : Spacing)
  | equals (before after : Spacing)

/-- The separator as it is written. -/
def Separator.print : Separator → List Char
  | .blank space => space.chars
  | .equals before after => before.chars ++ '=' :: after.chars

/-- A line that holds a directive. -/
structure Line where
  lead : Spacing
  keyword : List Char
  named : keyword ≠ []
  plain : ∀ c ∈ keyword, Text.isWhitespace c = false ∧ c ≠ '\x22' ∧ c ≠ '=' ∧ c ≠ '#'
  separator : Separator
  args : List Argument
  /-- The white space in front of each argument behind the first. -/
  gap : Nat → Spacing
  gapped : ∀ index, (gap index).chars ≠ []
  /-- Only a keyword without arguments does without a separator. -/
  separated : separator.print = [] → args = []
  /-- Behind white space alone, a first argument with an equals sign in front has to be quoted. -/
  told : ∀ space, separator = .blank space → ∀ first, args.head? = some first → ¬first.IsSign
  trail : Spacing
  comment : Option Comment

/-- Arguments with the white space in front of each of them. -/
def printMore (gap : Nat → Spacing) : Nat → List Argument → List Char
  | _, [] => []
  | index, arg :: rest => (gap index).chars ++ (arg.print ++ printMore gap (index + 1) rest)

/-- Arguments with the white space between them. -/
def printArgs (gap : Nat → Spacing) : List Argument → List Char
  | [] => []
  | first :: rest => first.print ++ printMore gap 0 rest

/-- The end of a line behind its directive, if it has one. -/
def printEnd (trail : Spacing) (comment : Option Comment) : List Char :=
  trail.chars ++ (comment.map Comment.print).getD []

/-- The line as it is written. -/
def Line.print (self : Line) : List Char :=
  self.lead.chars ++ (self.keyword ++ (self.separator.print ++
    (printArgs self.gap self.args ++ printEnd self.trail self.comment)))

/-- A line of a file. -/
inductive Row where
  | line (written : Line)
  | blank (trail : Spacing) (comment : Option Comment)

/-- The row as it is written. -/
def Row.print : Row → List Char
  | .line written => written.print
  | .blank trail comment => printEnd trail comment

/-- The fields that a row is made of. -/
def Row.fields : Row → List String
  | .line written =>
    String.ofList written.keyword :: written.args.map fun arg => String.ofList arg.value
  | .blank _ _ => []

/-- How a line of a file is closed. -/
inductive Ending where
  | lf
  | crlf
  deriving DecidableEq, Repr

/-- The characters that close a line. -/
def Ending.print : Ending → List Char
  | .lf => ['\n']
  | .crlf => ['\x0d', '\n']

/-- A file of closed lines, and possibly one behind them that is not closed. -/
def printFile (rows : List (Row × Ending)) (last : Option Row) : List Char :=
  rows.flatMap (fun row => row.1.print ++ row.2.print) ++ (last.map Row.print).getD []

/-- The directives of rows whose first has a given number. -/
def directivesFrom (platform : Platform) : Nat → List Row → List Directive
  | _, [] => []
  | number, row :: rest =>
    match row with
    | .line written =>
      ⟨number, toLowercase platform (String.ofList written.keyword),
        written.args.map fun arg => String.ofList arg.value⟩ ::
          directivesFrom platform (number + 1) rest
    -- A row without a directive still counts.
    | .blank _ _ => directivesFrom platform (number + 1) rest

end Writing

section Scanning

variable {state next : FieldScan} {ch : Char} {chars : List Char}

/-- The scan behind some characters of which none starts a comment. -/
def FieldScan.pass (state : FieldScan) (chars : List Char) : Option FieldScan :=
  chars.foldlM FieldScan.step state

/-- The fields of a line that ends here. -/
def FieldScan.fields (state : FieldScan) : List String :=
  if state.current.isEmpty then state.out else state.pushCurrent.out

/-- A line's fields are those of its scan at the end. -/
theorem splitFields_eq (raw : String) :
    splitFields raw = (FieldScan.start.run raw.toList).fields := rfl

/-- A scan goes on behind the characters that it has passed. -/
theorem run_of_pass (passed : state.pass chars = some next) (rest : List Char) :
    state.run (chars ++ rest) = next.run rest := by
  -- Passing is scanning with every character taken, so the scan is where the passing ended.
  induction chars generalizing state with
  | nil =>
    cases passed
    rfl
  | cons ch others ih =>
    rw [FieldScan.pass, List.foldlM_cons] at passed
    obtain ⟨middle, taken, onward⟩ := Option.bind_eq_some_iff.mp passed
    rw [List.cons_append, FieldScan.run, taken]
    exact ih onward

/-- A scan passes what is behind its first character from where that one leads. -/
theorem pass_cons {rest : List Char} (taken : state.step ch = some next) :
    state.pass (ch :: rest) = next.pass rest := by
  rw [FieldScan.pass, List.foldlM_cons, taken]
  rfl

/-- Characters are passed one part after the other. -/
theorem pass_append {middle : FieldScan} {rest : List Char} (first : state.pass chars = some middle)
    (onward : middle.pass rest = some next) : state.pass (chars ++ rest) = some next := by
  rw [FieldScan.pass] at first
  rw [FieldScan.pass, List.foldlM_append, first]
  exact onward

/-- White space is none of the signs. -/
theorem isWhitespace_sign (blank : Text.isWhitespace ch = true) :
    ch ≠ '\x22' ∧ ch ≠ '=' ∧ ch ≠ '#' := by
  -- Each of the signs is looked up in the list of blanks.
  refine ⟨?_, ?_, ?_⟩
  · rintro rfl
    exact absurd blank (by decide)
  · rintro rfl
    exact absurd blank (by decide)
  · rintro rfl
    exact absurd blank (by decide)

/-- Outside of quotes, white space ends the field under way. -/
theorem step_blank (outside : state.inQuotes = false) (blank : Text.isWhitespace ch = true) :
    state.step ch = some (if state.current.isEmpty then state else state.pushCurrent) := by
  obtain ⟨noQuote, noEquals, noHash⟩ := isWhitespace_sign blank
  simp [FieldScan.step, noQuote, noEquals, noHash, outside, blank]

/-- Within quotes, everything but a quote is part of the field. -/
theorem step_inside (inside : state.inQuotes = true) (other : ch ≠ '\x22') :
    state.step ch = some { state with current := state.current ++ [ch] } := by
  simp [FieldScan.step, other, inside]

/-- An equals sign would not end the keyword, or be the separator behind it. -/
def FieldScan.Separated (state : FieldScan) : Prop :=
  state.separatorUsed = true ∨ 2 ≤ state.out.length ∨
    (state.out ≠ [] ∧ state.current ≠ [])

/-- Outside of quotes, a character without a role of its own is part of the field. -/
theorem step_plain (outside : state.inQuotes = false) (visible : Text.isWhitespace ch = false)
    (noQuote : ch ≠ '\x22') (noHash : ch ≠ '#') (separated : ch = '=' → state.Separated) :
    state.step ch = some { state with current := state.current ++ [ch] } := by
  by_cases sign : ch = '='
  · subst sign
    have blank : Text.isWhitespace '=' = false := by decide
    -- The sign has lost its role, for one of three reasons.
    obtain used | many | ⟨named, pending⟩ := separated rfl
    · simp [FieldScan.step, outside, used, blank]
    · have count : state.out.length ≠ 1 := by omega
      have filled : state.out ≠ [] := by
        rintro empty
        simp [empty] at many
      simp [FieldScan.step, outside, count, filled, blank]
    · simp [FieldScan.step, outside, named, pending, blank]
  · simp [FieldScan.step, noQuote, noHash, sign, outside, visible]

/-- White space is passed outside of quotes, and ends the field under way. -/
theorem pass_blank (outside : state.inQuotes = false)
    (blank : ∀ c ∈ chars, Text.isWhitespace c = true) :
    state.pass chars =
      some (if chars = [] ∨ state.current = [] then state else state.pushCurrent) := by
  induction chars generalizing state with
  | nil => rfl
  | cons ch rest ih =>
    rw [pass_cons (step_blank outside (blank ch List.mem_cons_self))]
    have others : ∀ c ∈ rest, Text.isWhitespace c = true :=
      fun c member => blank c (List.mem_cons_of_mem _ member)
    by_cases empty : state.current = []
    · simpa [empty] using ih outside others
    · -- The field is closed by the first blank, and the others find none.
      have closed := @ih state.pushCurrent outside others
      simpa [empty, FieldScan.pushCurrent] using closed

/-- Within quotes, everything up to the next quote is part of the field. -/
theorem pass_inside (inside : state.inQuotes = true) (unquoted : '\x22' ∉ chars) :
    state.pass chars = some { state with current := state.current ++ chars } := by
  -- Every character up to the quote goes into the field, be it a blank or a sign.
  induction chars generalizing state with
  | nil => simp [FieldScan.pass]
  | cons ch rest ih =>
    obtain ⟨other, unquoted⟩ := not_or.mp (mt List.mem_cons.mpr unquoted)
    rw [pass_cons (step_inside inside (Ne.symm other))]
    have onward := @ih { state with current := state.current ++ [ch] } inside unquoted
    simpa using onward

/-- Outside of quotes, characters without a role of their own are part of the field. -/
theorem pass_plain (outside : state.inQuotes = false)
    (plain : ∀ c ∈ chars, Text.isWhitespace c = false ∧ c ≠ '\x22' ∧ c ≠ '#')
    (separated : (∀ c ∈ chars, c ≠ '=') ∨
      state.out ≠ [] ∧ (state.current = [] → chars.head? = some '=' → state.Separated)) :
    state.pass chars = some { state with current := state.current ++ chars } := by
  -- The induction is on the characters, and behind the first of them the field is not empty.
  induction chars generalizing state with
  | nil => simp [FieldScan.pass]
  | cons ch rest ih =>
    obtain ⟨visible, noQuote, noHash⟩ := plain ch List.mem_cons_self
    have first : ch = '=' → state.Separated := by
      rintro rfl
      rcases separated with free | ⟨named, told⟩
      · exact absurd rfl (free _ List.mem_cons_self)
      · by_cases empty : state.current = []
        · exact told empty rfl
        · exact .inr (.inr ⟨named, empty⟩)
    rw [pass_cons (step_plain outside visible noQuote noHash first)]
    -- The rest follows with one character more under way.
    have onward := @ih { state with current := state.current ++ [ch] } outside
      (fun c member => plain c (List.mem_cons_of_mem _ member)) (by
        rcases separated with free | ⟨named, -⟩
        · exact .inl fun c member => free c (List.mem_cons_of_mem _ member)
        · exact .inr ⟨named, fun empty => absurd empty (by simp)⟩)
    simpa using onward

end Scanning

section Reading

variable {state : FieldScan}

/-- A scan that stands behind its keyword, and may have fields behind that. -/
structure FieldScan.Named (state : FieldScan) : Prop where
  outside : state.inQuotes = false
  named : state.out ≠ []

/-- An argument is passed as one more field. -/
theorem pass_argument (named : state.Named) (free : state.current = []) (arg : Argument)
    (told : arg.IsSign → state.separatorUsed = true ∨ 2 ≤ state.out.length) :
    ∃ next, state.pass arg.print = some next ∧ next.Named ∧
      next.fields = state.out ++ [String.ofList arg.value] := by
  cases arg with
  -- A bare argument is text outside of quotes.
  | bare text filled plain =>
    have passed := pass_plain named.outside plain (.inr ⟨named.named, fun _ sign =>
      (told sign).elim .inl fun many => .inr (.inl many)⟩)
    refine ⟨_, passed, ⟨named.outside, named.named⟩, ?_⟩
    simp [FieldScan.fields, FieldScan.pushCurrent, free, filled, Argument.value]
  | quoted text unquoted single =>
    -- A quoted argument opens a quote, in which every other character is text.
    have opened : state.step '\x22' = some { state with inQuotes := true } := by
      simp [FieldScan.step, named.outside]
    have inner : FieldScan.pass { state with inQuotes := true } text =
        some { state with inQuotes := true, current := text } := by
      rw [pass_inside rfl unquoted]
      simp [free]
    rw [Argument.print, List.cons_append, pass_cons opened]
    -- The closing quote makes a field of nothing, and leaves any other text under way.
    by_cases empty : text = []
    · subst empty
      refine ⟨{ state with out := state.out ++ [""], separatorUsed := true }, ?_,
        ⟨named.outside, by simp⟩, ?_⟩
      · simp [FieldScan.pass, FieldScan.step, free, named.outside]
      · simp [FieldScan.fields, free, Argument.value]
    · refine ⟨{ state with current := text }, ?_, ⟨named.outside, named.named⟩, ?_⟩
      · refine pass_append inner ?_
        simp [FieldScan.pass, FieldScan.step, empty, named.outside]
      · simp [FieldScan.fields, FieldScan.pushCurrent, empty, Argument.value]

/-- White space in front of an argument closes the field before it. -/
theorem pass_gap (outside : state.inQuotes = false) {gap : Spacing} (gapped : gap.chars ≠ []) :
    ∃ next, state.pass gap.chars = some next ∧ next.inQuotes = false ∧ next.current = [] ∧
      next.out = state.fields ∧ next.separatorUsed = state.separatorUsed := by
  refine ⟨_, pass_blank outside gap.blank, ?_⟩
  by_cases empty : state.current = []
  · simp [empty, outside, FieldScan.fields]
  · simp [gapped, empty, outside, FieldScan.fields, FieldScan.pushCurrent]

/-- The arguments behind the first are passed as one more field each. -/
theorem pass_more {gap : Nat → Spacing} (gapped : ∀ index, (gap index).chars ≠ [])
    (args : List Argument) (index : Nat) (outside : state.inQuotes = false)
    (many : 2 ≤ state.fields.length) :
    ∃ next, state.pass (printMore gap index args) = some next ∧ next.inQuotes = false ∧
      next.fields = state.fields ++ args.map fun arg => String.ofList arg.value := by
  induction args generalizing state index with
  | nil => exact ⟨state, rfl, outside, (List.append_nil _).symm⟩
  | cons arg rest ih =>
    obtain ⟨closed, passed, closedOutside, free, out, -⟩ := pass_gap outside (gapped index)
    -- Two fields are there already, so no equals sign has a role any more.
    have count : 2 ≤ closed.out.length := by rw [out]; exact many
    have named : closed.Named := ⟨closedOutside, fun empty => by simp [empty] at count⟩
    obtain ⟨behind, taken, behindNamed, fields⟩ :=
      pass_argument named free arg fun _ => .inr count
    have more : 2 ≤ behind.fields.length := by
      rw [fields, List.length_append]
      omega
    obtain ⟨next, onward, nextOutside, all⟩ := ih (index + 1) behindNamed.outside more
    refine ⟨next, pass_append passed (pass_append taken onward), nextOutside, ?_⟩
    rw [all, fields, out, List.map_cons, List.append_assoc]
    rfl

/-- A scan that has read a keyword, which nothing has ended yet. -/
def FieldScan.ofKeyword (keyword : List Char) : FieldScan :=
  { FieldScan.start with current := keyword }

/-- A keyword is passed as the field under way. -/
theorem pass_keyword (line : Line) :
    FieldScan.start.pass (line.lead.chars ++ line.keyword) =
      some (.ofKeyword line.keyword) := by
  -- The blanks in front are skipped, and the keyword has no sign to end it.
  have lead : FieldScan.start.pass line.lead.chars = some .start := by
    rw [pass_blank rfl line.lead.blank, if_pos (.inr rfl)]
  refine pass_append lead ?_
  exact pass_plain rfl (fun c member => ⟨(line.plain c member).1, (line.plain c member).2.1,
    (line.plain c member).2.2.2⟩) (.inl fun c member => (line.plain c member).2.2.1)

/-- An equals sign with white space around it ends the keyword once and for all. -/
theorem pass_equals {keyword : List Char} (named : keyword ≠ []) (before after : Spacing) :
    (FieldScan.ofKeyword keyword).pass (before.chars ++ '=' :: after.chars) =
      some ⟨[String.ofList keyword], [], false, true⟩ := by
  have ended : FieldScan.pass ⟨[String.ofList keyword], [], false, true⟩ after.chars =
      some ⟨[String.ofList keyword], [], false, true⟩ := by
    rw [pass_blank rfl after.blank, if_pos (.inr rfl)]
  refine pass_append (pass_blank rfl before.blank) ?_
  -- The sign itself ends the keyword where white space has not.
  by_cases empty : before.chars = []
  · rw [if_pos (.inl empty), pass_cons, ended]
    simp [FieldScan.step, FieldScan.ofKeyword, FieldScan.start, FieldScan.pushCurrent, named]
  · have pending : (FieldScan.ofKeyword keyword).current ≠ [] := named
    rw [if_neg (not_or.mpr ⟨empty, pending⟩), pass_cons, ended]
    simp [FieldScan.step, FieldScan.ofKeyword, FieldScan.start, FieldScan.pushCurrent]

/-- White space behind a keyword ends it. -/
theorem pass_space {keyword : List Char} (named : keyword ≠ []) {space : Spacing}
    (filled : space.chars ≠ []) :
    (FieldScan.ofKeyword keyword).pass space.chars =
      some ⟨[String.ofList keyword], [], false, false⟩ := by
  have pending : (FieldScan.ofKeyword keyword).current ≠ [] := named
  rw [pass_blank rfl space.blank, if_neg (not_or.mpr ⟨filled, pending⟩)]
  rfl

/-- The arguments are passed as one more field each. -/
theorem pass_args (line : Line) {state : FieldScan} (named : state.Named)
    (free : state.current = [])
    (told : ∀ first, line.args.head? = some first → first.IsSign → state.separatorUsed = true) :
    ∃ next, state.pass (printArgs line.gap line.args) = some next ∧ next.inQuotes = false ∧
      next.fields = state.out ++ line.args.map fun arg => String.ofList arg.value := by
  -- The first argument may stand behind a separator, the others behind a gap.
  cases args : line.args with
  | nil =>
    refine ⟨state, rfl, named.outside, ?_⟩
    simp [FieldScan.fields, free]
  | cons first rest =>
    obtain ⟨behind, taken, behindNamed, fields⟩ :=
      pass_argument named free first fun sign => .inl (told first (by rw [args]; rfl) sign)
    have many : 2 ≤ behind.fields.length := by
      have := List.length_pos_iff.mpr named.named
      rw [fields, List.length_append, List.length_singleton]
      omega
    obtain ⟨next, onward, outside, all⟩ := pass_more line.gapped rest 0 behindNamed.outside many
    refine ⟨next, pass_append taken onward, outside, ?_⟩
    rw [all, fields, List.map_cons, List.append_assoc]
    rfl

/-- All of a line up to its end is passed as the fields that it is made of. -/
theorem pass_line (line : Line) :
    ∃ next, FieldScan.start.pass (line.lead.chars ++ (line.keyword ++ (line.separator.print ++
        printArgs line.gap line.args))) = some next ∧ next.inQuotes = false ∧
      next.fields = (Row.line line).fields := by
  -- The arguments follow once the separator is behind.
  have finish : ∀ (used : Bool), (∀ first, line.args.head? = some first → first.IsSign →
      used = true) → ∃ next,
        FieldScan.pass ⟨[String.ofList line.keyword], [], false, used⟩
          (printArgs line.gap line.args) = some next ∧ next.inQuotes = false ∧
        next.fields = (Row.line line).fields := by
    intro used told
    exact pass_args line ⟨rfl, List.cons_ne_nil _ _⟩ rfl told
  rw [← List.append_assoc]
  -- An equals sign is used up by the separator itself, if that has one.
  cases separator : line.separator with
  | equals before after =>
    obtain ⟨next, passed, outside, fields⟩ := finish true fun _ _ _ => rfl
    exact ⟨next, pass_append (pass_keyword line)
      (pass_append (pass_equals line.named before after) passed), outside, fields⟩
  | blank space =>
    by_cases filled : space.chars = []
    · -- The keyword stands alone, and the end of the line ends it.
      have alone : line.args = [] := line.separated (by rw [separator]; exact filled)
      have nothing : (Separator.blank space).print ++ printArgs line.gap line.args = [] := by
        rw [alone]
        exact List.append_eq_nil_iff.mpr ⟨filled, rfl⟩
      refine ⟨.ofKeyword line.keyword, ?_, rfl, ?_⟩
      · rw [nothing, List.append_nil]
        exact pass_keyword line
      · simp [FieldScan.fields, FieldScan.ofKeyword, FieldScan.pushCurrent, FieldScan.start,
          Row.fields, alone, line.named]
    · obtain ⟨next, passed, outside, fields⟩ := finish false fun first head sign =>
        absurd sign (line.told space separator first head)
      exact ⟨next, pass_append (pass_keyword line)
        (pass_append (pass_space line.named filled) passed), outside, fields⟩

/-- The end of a line adds no field, and leaves no quote open. -/
theorem run_end (outside : state.inQuotes = false) (trail : Spacing) (comment : Option Comment) :
    (state.run (printEnd trail comment)).inQuotes = false ∧
      (state.run (printEnd trail comment)).fields = state.fields := by
  rw [printEnd, run_of_pass (pass_blank outside trail.blank)]
  have same : ∀ reached : FieldScan, reached.inQuotes = false →
      reached.run ((comment.map Comment.print).getD []) = reached := by
    intro reached unquoted
    cases comment with
    | none => rfl
    | some comment =>
      -- The scan stops where the comment starts.
      have stops : reached.step '#' = none := by simp [FieldScan.step, unquoted]
      rw [Option.map_some, Option.getD_some, Comment.print, FieldScan.run, stops]
  split
  · rw [same state outside]
    exact ⟨outside, rfl⟩
  · next closing =>
    rw [same state.pushCurrent outside]
    have pending := (not_or.mp closing).2
    refine ⟨outside, ?_⟩
    simp [FieldScan.fields, FieldScan.pushCurrent, pending]

/-- A row is read as the fields that it is made of. -/
theorem run_row (row : Row) :
    (FieldScan.start.run row.print).inQuotes = false ∧
      (FieldScan.start.run row.print).fields = row.fields := by
  -- A written line is passed up to its end, where only blanks and a comment are left.
  cases row with
  | blank trail comment => exact run_end rfl trail comment
  | line written =>
    obtain ⟨next, passed, outside, fields⟩ := pass_line written
    have whole : (Row.line written).print = (written.lead.chars ++ (written.keyword ++
        (written.separator.print ++ printArgs written.gap written.args))) ++
          printEnd written.trail written.comment := by
      simp [Row.print, Line.print]
    rw [whole, run_of_pass passed, ← fields]
    exact run_end outside written.trail written.comment

/-- One more blank at the end of a line adds no field, unless a quote is open. -/
theorem run_concat_blank {ch : Char} (blank : Text.isWhitespace ch = true) (chars : List Char)
    (outside : (state.run (chars ++ [ch])).inQuotes = false) :
    (state.run (chars ++ [ch])).fields = (state.run chars).fields := by
  induction chars generalizing state with
  | nil =>
    rw [List.nil_append] at outside ⊢
    cases inside : state.inQuotes with
    | true =>
      -- Within quotes the blank would be text, and the quote would still be open.
      rw [FieldScan.run, step_inside inside (isWhitespace_sign blank).1] at outside
      exact absurd (outside.symm.trans inside) (by decide)
    | false =>
      rw [show state.run [ch] = (if state.current.isEmpty then state else state.pushCurrent) by
        rw [FieldScan.run, step_blank inside blank]
        rfl]
      split
      · rfl
      · next pending => simp [FieldScan.fields, FieldScan.pushCurrent, FieldScan.run, pending]
  | cons head rest ih =>
    rw [List.cons_append, FieldScan.run] at outside ⊢
    rw [FieldScan.run]
    -- A character that ends the scan ends it in both.
    cases taken : state.step head with
    | none => rfl
    | some next =>
      rw [taken] at outside
      exact ih outside

end Reading

section Files

variable {platform : Platform}

/-- A row holds no line feed. -/
theorem single_row (row : Row) : '\n' ∉ row.print := by
  have ends : ∀ (trail : Spacing) (comment : Option Comment), '\n' ∉ printEnd trail comment := by
    intro trail comment inside
    rcases List.mem_append.mp inside with early | late
    · exact trail.single early
    · cases comment with
      | none => cases late
      | some comment =>
        rcases List.mem_cons.mp late with sign | later
        · exact absurd sign (by decide)
        · exact comment.single later
  have arg : ∀ arg : Argument, '\n' ∉ arg.print := by
    intro arg inside
    cases arg with
    | quoted text unquoted single =>
      simp [Argument.print, single] at inside
    | bare text filled plain =>
      -- A line feed is white space, which a bare argument has none of.
      exact absurd (plain _ inside).1 (by decide)
  -- Neither the gaps nor the arguments have one.
  have more : ∀ (gap : Nat → Spacing) (args : List Argument) (index : Nat),
      '\n' ∉ printMore gap index args := by
    intro gap args
    induction args with
    | nil => exact fun _ => List.not_mem_nil
    | cons first rest ih =>
      intro index inside
      rcases List.mem_append.mp inside with early | late
      · exact (gap index).single early
      · exact (List.mem_append.mp late).elim (arg first) (ih (index + 1))
  cases row with
  | blank trail comment => exact ends trail comment
  | line written =>
    have args : '\n' ∉ printArgs written.gap written.args := by
      cases written.args with
      | nil => exact List.not_mem_nil
      | cons first rest =>
        intro inside
        exact (List.mem_append.mp inside).elim (arg first) (more written.gap rest 0)
    have separator : '\n' ∉ written.separator.print := by
      cases written.separator with
      | blank space => exact space.single
      | equals before after => simp [Separator.print, before.single, after.single]
    have keyword : '\n' ∉ written.keyword := fun inside =>
      absurd (written.plain _ inside).1 (by decide)
    simp [Row.print, Line.print, written.lead.single, keyword, separator, args,
      ends written.trail written.comment]

/-- A row is read as its fields, even where its last character counts as part of its ending. -/
theorem splitFields_closed (row : Row) (ending : Ending) :
    splitFields (String.ofList (Text.stripEnding (row.print ++ ending.print))) = row.fields := by
  obtain ⟨outside, fields⟩ := run_row row
  rw [splitFields_eq, String.toList_ofList]
  cases ending with
  | crlf =>
    have stripped : Text.stripEnding (row.print ++ Ending.crlf.print) = row.print := by
      simp [Text.stripEnding, Ending.print]
    rw [stripped, fields]
  | lf =>
    by_cases returned : row.print.getLast? = some '\x0d'
    · obtain ⟨body, whole⟩ := List.getLast?_eq_some_iff.mp returned
      have stripped : Text.stripEnding (row.print ++ Ending.lf.print) = body := by
        simp [Text.stripEnding, Ending.print, whole]
      rw [whole] at outside fields
      -- The row loses a blank, which closes no field that its end does not close.
      rw [stripped, ← run_concat_blank (by decide) body outside, fields]
    · have stripped : Text.stripEnding (row.print ++ Ending.lf.print) = row.print := by
        simp [Text.stripEnding, Ending.print, returned]
      rw [stripped, fields]

/-- A line with the fields of a row adds the directive of the row to those behind it. -/
theorem tokenizeFrom_row (lower : ∀ text, text ≠ "" → platform.unicodeLowercase text ≠ "")
    (row : Row) (raw : String) (fields : splitFields raw = row.fields) (number : Nat)
    (rest : List String) (rows : List Row)
    (others : tokenizeFrom platform (number + 1) rest = directivesFrom platform (number + 1) rows) :
    tokenizeFrom platform number (raw :: rest) = directivesFrom platform number (row :: rows) := by
  -- A row with a keyword is a directive, and lowering the keyword does not empty it.
  rw [tokenizeFrom, tokenizeLine, fields]
  cases row with
  | blank trail comment => exact others
  | line written =>
    have filled : String.ofList written.keyword ≠ "" := by
      simpa [String.ext_iff] using written.named
    have named : (toLowercase platform (String.ofList written.keyword)).isEmpty = false := by
      rw [String.isEmpty_eq_false_iff, toLowercase]
      split
      · simpa [String.ext_iff] using written.named
      · exact lower _ filled
    simp [Row.fields, named, others, directivesFrom]

/-- A file is read row by row. -/
theorem tokenizeFrom_printFile (lower : ∀ text, text ≠ "" → platform.unicodeLowercase text ≠ "")
    (rows : List (Row × Ending)) (last : Option Row) (number : Nat) :
    tokenizeFrom platform number (Text.lines (String.ofList (printFile rows last))) =
      directivesFrom platform number (rows.map Prod.fst ++ last.toList) := by
  induction rows generalizing number with
  | nil =>
    cases last with
    | none => rfl
    | some row =>
      have whole : printFile [] (some row) = row.print := rfl
      rw [whole]
      by_cases empty : row.print = []
      · -- A row that leaves no trace has no directive either.
        cases row with
        | line written => exact absurd empty (by simp [Row.print, Line.print, written.named])
        | blank trail comment =>
          rw [empty]
          rfl
      · -- The last row has no ending, so that it is the one line left.
        have only : Text.lines (String.ofList row.print) = [String.ofList row.print] := by
          have unfed : row.print.getLast? ≠ some '\n' :=
            fun fed => single_row row (List.mem_of_getLast? fed)
          rw [Text.lines, String.toList_ofList, Text.lineChunks_open (single_row row) empty,
            List.map_singleton, Text.stripEnding, if_neg unfed]
        have fields : splitFields (String.ofList row.print) = row.fields := by
          rw [splitFields_eq, String.toList_ofList]
          exact (run_row row).2
        rw [only]
        exact tokenizeFrom_row lower row _ fields number [] [] rfl
  | cons row rest ih =>
    obtain ⟨row, ending⟩ := row
    have whole : String.ofList (printFile ((row, ending) :: rest) last) =
        String.ofList (row.print ++ ending.print) ++ String.ofList (printFile rest last) := by
      simp [printFile, String.append_assoc]
    -- Whichever way the row is closed, the last character of it is a line feed.
    obtain ⟨body, fed, single⟩ : ∃ body, row.print ++ ending.print = body ++ ['\n'] ∧
        '\n' ∉ body := by
      cases ending with
      | lf => exact ⟨row.print, rfl, single_row row⟩
      | crlf =>
        refine ⟨row.print ++ ['\x0d'], by simp [Ending.print], ?_⟩
        simp [single_row row]
    have closed : (String.ofList (row.print ++ ending.print)).toList.getLast? = some '\n' := by
      simp [fed]
    have first : Text.lines (String.ofList (row.print ++ ending.print)) =
        [String.ofList (Text.stripEnding (row.print ++ ending.print))] := by
      rw [fed, Text.lines, String.toList_ofList, Text.lineChunks_line single]
      rfl
    rw [whole, Text.lines_append _ (.inr closed), first]
    exact tokenizeFrom_row lower row _ (splitFields_closed row ending) number _ _ (ih (number + 1))

/-- The directives of lines are told by the lines' places. -/
theorem mem_tokenizeFrom {raws : List String} {number : Nat} {d : Directive} :
    d ∈ tokenizeFrom platform number raws ↔ ∃ index raw, raws[index]? = some raw ∧
      tokenizeLine platform raw = some (d.keyword, d.args) ∧ d.line = number + index := by
  induction raws generalizing number with
  | nil => simp [tokenizeFrom]
  | cons raw rest ih =>
    -- Either the directive is the first line's, or it is one of the others', one further on.
    have others : d ∈ tokenizeFrom platform (number + 1) rest ↔ ∃ index raw_,
        (raw :: rest)[index + 1]? = some raw_ ∧
          tokenizeLine platform raw_ = some (d.keyword, d.args) ∧
          d.line = number + (index + 1) := by
      rw [ih]
      simp only [List.getElem?_cons_succ, Nat.add_assoc, Nat.add_comm 1]
    have own : (∃ raw_, (raw :: rest)[0]? = some raw_ ∧
        tokenizeLine platform raw_ = some (d.keyword, d.args) ∧ d.line = number + 0) ↔
        tokenizeLine platform raw = some (d.keyword, d.args) ∧ d.line = number := by
      simp
    rw [← Nat.or_exists_add_one, ← others, own, tokenizeFrom]
    -- A line has at most one directive, with the number of its place.
    cases tokenizeLine platform raw with
    | none => simp
    | some fields =>
      obtain ⟨keyword, args⟩ := fields
      rw [List.mem_cons]
      refine or_congr_left ?_
      cases d
      simp only [Directive.mk.injEq, Option.some.injEq, Prod.mk.injEq]
      constructor
      · rintro ⟨rfl, rfl, rfl⟩
        exact ⟨⟨rfl, rfl⟩, rfl⟩
      · rintro ⟨⟨rfl, rfl⟩, rfl⟩
        exact ⟨rfl, rfl, rfl⟩

/--
A line that is written from a keyword, a separator and arguments, quoted or bare,
is read back as one directive with that keyword in lower case and those arguments.
In a file of such lines and of blank ones every directive carries the number of its line,
and so it does in any other text.
-/
theorem tokenize_inverts_quoting (platform : Platform)
    (lower : ∀ text, text ≠ "" → platform.unicodeLowercase text ≠ "") :
    (∀ line : Line, tokenize platform (String.ofList line.print) =
      [⟨1, toLowercase platform (String.ofList line.keyword),
        line.args.map fun arg => String.ofList arg.value⟩]) ∧
    (∀ (rows : List (Row × Ending)) (last : Option Row),
      tokenize platform (String.ofList (printFile rows last)) =
        directivesFrom platform 1 (rows.map Prod.fst ++ last.toList)) ∧
    ∀ (input : String) (d : Directive), d ∈ tokenize platform input ↔
      ∃ index raw, (Text.lines input)[index]? = some raw ∧
        tokenizeLine platform raw = some (d.keyword, d.args) ∧ d.line = index + 1 := by
  have files : ∀ (rows : List (Row × Ending)) (last : Option Row),
      tokenize platform (String.ofList (printFile rows last)) =
        directivesFrom platform 1 (rows.map Prod.fst ++ last.toList) :=
    fun rows last => tokenizeFrom_printFile lower rows last 1
  refine ⟨?_, files, ?_⟩
  · -- A line is a file of its own.
    intro line
    exact files [] (some (.line line))
  · intro input d
    simp only [tokenize, mem_tokenizeFrom, Nat.add_comm 1]

/-- A line with its arguments written in both ways, behind an equals sign. -/
def hostLine : Line where
  lead := ⟨['\t'], by simp [Text.isWhitespace], by decide⟩
  keyword := ['H', 'o', 's', 't']
  named := by decide
  plain := by simp [Text.isWhitespace]
  separator := .equals ⟨[], by simp, by decide⟩ ⟨[' '], by simp [Text.isWhitespace], by decide⟩
  args := [.quoted ['a', ' ', '#'] (by decide) (by decide), .quoted [] (by decide) (by decide),
    .bare ['c'] (by decide) (by simp [Text.isWhitespace])]
  gap := fun _ => ⟨[' '], by simp [Text.isWhitespace], by decide⟩
  gapped := fun _ => by decide
  separated := fun empty => absurd empty (by decide)
  told := fun _ other => by cases other
  trail := ⟨[' '], by simp [Text.isWhitespace], by decide⟩
  comment := some ⟨[' ', 'd'], by decide⟩

/-- The arguments of such a line come back without their quotes. -/
theorem tokenize_hostLine :
    String.ofList hostLine.print = "\tHost= \"a #\" \"\" c # d" ∧
      tokenize ⟨none, none, id, fun _ => none, fun _ => none, fun _ => false, fun _ => none⟩
        (String.ofList hostLine.print) = [⟨1, "host", ["a #", "", "c"]⟩] := by
  -- Lowering leaves no text empty here, and the line is printed by evaluation.
  refine ⟨by decide, ?_⟩
  rw [(tokenize_inverts_quoting
    ⟨none, none, id, fun _ => none, fun _ => none, fun _ => false, fun _ => none⟩
    (fun _ filled => filled)).1]
  decide

end Files

end Tern.SshConfig
