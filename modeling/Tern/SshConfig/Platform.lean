import Tern.Base.Text

/-! What reading an ssh_config asks of the machine: case folding, numbers, paths and files. -/

namespace Tern.SshConfig

/-- The environment and the file tree that a parse reads. -/
structure Platform where
  home : Option String
  userProfile : Option String
  /-- Lowercasing of a text that holds characters beyond ASCII. -/
  unicodeLowercase : String → String
  canonicalize : String → Option String
  readToString : String → Option String
  isFile : String → Bool
  /-- The names of a directory's readable entries, in the order the system lists them. -/
  readDir : String → Option (List String)

/-- The text in lower case. -/
def toLowercase (platform : Platform) (text : String) : String :=
  if text.toList.all fun c => decide (c.toNat < 128) then
    String.ofList (text.toList.map Char.toLower)
  else platform.unicodeLowercase text

/-- An unsigned decimal number below a bound, read as the standard library reads one. -/
def parseUnsigned (bound : Nat) (text : String) : Option Nat :=
  -- One leading plus sign is accepted, and a minus sign is not a digit.
  let digits := match text.toList with
    | '+' :: rest => rest
    | chars => chars
  if digits.isEmpty || !digits.all Char.isDigit then none
  else
    let value := digits.foldl (fun total c => 10 * total + (c.toNat - '0'.toNat)) 0
    if value < bound then some value else none

/-- A number that fits sixteen bits. -/
def parseU16 (text : String) : Option UInt16 :=
  (parseUnsigned UInt16.size text).map UInt16.ofNat

/-- A number that fits thirty-two bits. -/
def parseU32 (text : String) : Option UInt32 :=
  (parseUnsigned UInt32.size text).map UInt32.ofNat

section Paths

/-- One step of a path. -/
inductive Component where
  | rootDir
  | curDir
  | parentDir
  | normal (name : String)
  deriving DecidableEq, Repr

/-- The pieces of a text between its slashes. -/
def splitSlash : List Char → List (List Char)
  | [] => [[]]
  | c :: rest =>
    if c = '/' then [] :: splitSlash rest
    else match splitSlash rest with
      | [] => [[c]]
      | piece :: pieces => (c :: piece) :: pieces

/-- Pieces put back together with slashes. -/
def joinSlash : List (List Char) → List Char
  | [] => []
  | [piece] => piece
  | piece :: pieces => piece ++ '/' :: joinSlash pieces

/-- Whether a path starts at the root. -/
def isAbsolute (path : String) : Bool :=
  path.toList.head? == some '/'

/-- The pieces behind the root of a path, if it has one. -/
def bodyPieces (path : String) : List (List Char) :=
  let pieces := splitSlash path.toList
  if isAbsolute path then pieces.tail else pieces

/-- The component a piece stands for, where a dot counts only in front of a relative path. -/
def pieceComponent (leading : Bool) (piece : List Char) : Option Component :=
  -- Doubled and trailing slashes separate nothing.
  if piece = [] then none
  else if piece = ['.'] then if leading then some .curDir else none
  else if piece = ['.', '.'] then some .parentDir
  else some (.normal (String.ofList piece))

/-- The steps of a path, by which two spellings of one path compare equal. -/
def components (path : String) : List Component :=
  let absolute := isAbsolute path
  let front := if absolute then [Component.rootDir] else []
  match bodyPieces path with
  | [] => front
  | first :: rest =>
    front ++ (pieceComponent (!absolute) first).toList ++ rest.filterMap (pieceComponent false)

/-- Reversed pieces from the last one that is a component on. -/
def trimBack (absolute : Bool) : List (List Char) → List (List Char)
  | [] => []
  | piece :: before =>
    match pieceComponent (!absolute && before.isEmpty) piece with
    | none => trimBack absolute before
    | some _ => piece :: before

/-- The path without its last component. -/
def parent (path : String) : Option String :=
  let absolute := isAbsolute path
  match trimBack absolute (bodyPieces path).reverse with
  -- A root and an empty path have nothing around them.
  | [] => none
  | _ :: before =>
    let body := joinSlash (trimBack absolute before).reverse
    some (String.ofList (if absolute then '/' :: body else body))

/-- The last component of a path, when that is a name. -/
def fileName (path : String) : Option String :=
  match (components path).getLast? with
  | some (.normal name) => some name
  | _ => none

/-- A path continued by another, which replaces it when absolute. -/
def join (base path : String) : String :=
  if isAbsolute path then path
  else if base.isEmpty || base.toList.getLast? == some '/' then base ++ path
  else base ++ "/" ++ path

/-- A leading tilde replaced by the home directory, where there is one. -/
def expandTildeStr (platform : Platform) (input : String) : String :=
  match input.toList with
  | '~' :: '/' :: rest =>
    match platform.home.or platform.userProfile with
    -- Without a home directory the text stays as it was written.
    | none => input
    | some home => join home (String.ofList rest)
  | _ => input

end Paths

end Tern.SshConfig
