import Tern.SshConfig.Platform

/-! The tokenizer of OpenSSH client configs: one directive for each line that holds one. -/

namespace Tern.SshConfig

/-- One line's keyword and arguments, with its number in the file. -/
structure Directive where
  line : Nat
  /-- In lower case, so that it compares against lower-case literals. -/
  keyword : String
  args : List String
  deriving DecidableEq, Repr

/-- Where the splitting of a line stands. -/
structure FieldScan where
  out : List String
  current : List Char
  inQuotes : Bool
  /-- Whether an equals sign has lost its role of separating the keyword. -/
  separatorUsed : Bool

/-- A scan before its first character. -/
def FieldScan.start : FieldScan where
  out := []
  current := []
  inQuotes := false
  separatorUsed := false

/-- The scan with the field under way put among the finished ones. -/
def FieldScan.pushCurrent (state : FieldScan) : FieldScan :=
  { state with out := state.out ++ [String.ofList state.current], current := [] }

/-- The scan after one more character, or nothing where a comment starts. -/
def FieldScan.step (state : FieldScan) (ch : Char) : Option FieldScan :=
  if ch = '\x22' then
    -- A quoted empty string is a real, if odd, argument.
    if state.inQuotes && state.current.isEmpty then
      some { state with out := state.out ++ [""], inQuotes := false, separatorUsed := true }
    else some { state with inQuotes := !state.inQuotes }
  else if ch = '#' && !state.inQuotes then none
  else if ch = '=' && !state.inQuotes && !state.separatorUsed && state.out.length == 1 &&
      state.current.isEmpty then
    -- The space already ended the keyword, so this sign is just the separator.
    some { state with separatorUsed := true }
  else if ch = '=' && !state.inQuotes && !state.separatorUsed && state.out.isEmpty &&
      !state.current.isEmpty then
    some { state.pushCurrent with separatorUsed := true }
  else if Text.isWhitespace ch && !state.inQuotes then
    some (if state.current.isEmpty then state else state.pushCurrent)
  else some { state with current := state.current ++ [ch] }

/-- The scan at the end of the line, or at its comment. -/
def FieldScan.run : FieldScan → List Char → FieldScan
  | state, [] => state
  | state, ch :: rest =>
    match state.step ch with
    | none => state
    | some next => next.run rest

/-- One line's fields, honouring quotes, equals signs and comments. -/
def splitFields (raw : String) : List String :=
  let state := FieldScan.start.run raw.toList
  if state.current.isEmpty then state.out else state.pushCurrent.out

/-- The keyword and the arguments of a line that has them. -/
def tokenizeLine (platform : Platform) (raw : String) : Option (String × List String) :=
  match splitFields raw with
  | [] => none
  | first :: args =>
    let keyword := toLowercase platform first
    if keyword.isEmpty then none else some (keyword, args)

/-- The directives of lines whose first has a given number. -/
def tokenizeFrom (platform : Platform) : Nat → List String → List Directive
  | _, [] => []
  | number, raw :: rest =>
    match tokenizeLine platform raw with
    -- A line without a directive still advances the count.
    | none => tokenizeFrom platform (number + 1) rest
    | some (keyword, args) => ⟨number, keyword, args⟩ :: tokenizeFrom platform (number + 1) rest

/-- The directives of a text, with blanks and comments skipped. -/
def tokenize (platform : Platform) (input : String) : List Directive :=
  tokenizeFrom platform 1 (Text.lines input)

end Tern.SshConfig
