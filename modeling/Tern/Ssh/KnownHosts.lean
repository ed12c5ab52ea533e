import Tern.Base.Text
import Tern.Base.Wildcard

/-! The client's own `known_hosts` file: matching, the verdict, and the operations that rewrite
it. -/

namespace Tern.KnownHosts

open Text

/-- The marker that may open a line. -/
inductive Marker where
  | certAuthority
  | revoked
  deriving DecidableEq, Repr

/-- The hosts a line names, as the `ssh-key` crate reads them. -/
inductive HostPatterns where
  | patterns (list : List String)
  | hashedName (salt hash : List UInt8)
  deriving DecidableEq, Repr

/-- A public key: its material, and a comment that carries no trust. -/
structure PublicKey (Key : Type) where
  keyData : Key
  comment : String
  deriving DecidableEq, Repr

/-- One line that parses. -/
structure Entry (Key : Type) where
  marker : Option Marker
  hostPatterns : HostPatterns
  publicKey : PublicKey Key
  deriving DecidableEq, Repr

/--
What the file code calls in the `ssh-key`, `hmac` and `base64ct` crates.

Key material is any type, so nothing here depends on how keys are encoded.
-/
structure Crates (Key : Type) where
  /-- The algorithm name of a key. -/
  algorithm : Key → String
  /-- The SHA-256 fingerprint of a key. -/
  fingerprint : Key → String
  /-- Reading one trimmed line as an entry, without the reason for a failure. -/
  parse : String → Option (Entry Key)
  /-- Writing a key in the OpenSSH one-line form. -/
  toOpenssh : PublicKey Key → Except String String
  /-- Host patterns in the form a line holds them. -/
  patternsToString : HostPatterns → String
  /-- The keyed hash that hides a host name, from its salt and the name's bytes. -/
  hmacSha1 : List UInt8 → ByteArray → List UInt8
  /-- Base64 with padding. -/
  base64 : List UInt8 → String

/-- What can go wrong with the file. -/
inductive KnownHostsError where
  | io (reason : String)
  | encode (reason : String)
  deriving DecidableEq, Repr

/-- What reading a path as text answers. -/
inductive Disk where
  | missing
  | unreadable (reason : String)
  | text (contents : String)
  deriving DecidableEq, Repr

/-- What the file says about an offered key. -/
inductive HostKeyVerdict where
  | trusted
  | unknown
  | changed (line : Nat) (recordedAlgorithm recordedFingerprint : String)
  | revoked (line : Nat)
  deriving DecidableEq, Repr

/-- What an import did with each line of its source. -/
structure ImportReport where
  total : Nat
  imported : Nat
  duplicates : Nat
  skippedCertAuthority : Nat
  malformed : Nat
  deriving DecidableEq, Repr

/-- The report before any line is read. -/
def ImportReport.default : ImportReport := ⟨0, 0, 0, 0, 0⟩

/-- The file's contents, where a file that does not exist yet knows no hosts. -/
def read : Disk → Except KnownHostsError String
  | .missing => .ok ""
  | .unreadable reason => .error (.io reason)
  | .text contents => .ok contents

/-- Host-pattern globbing: `*` spans any run of characters, `?` exactly one. -/
def globMatch (pattern value : String) : Bool :=
  Wildcard.isMatch '*' '?' pattern.toList value.toList

/-- The name a host is recorded under: a non-default port puts the host in brackets. -/
def matchTarget (host : String) (port : UInt16) : String :=
  if port = 22 then host else "[" ++ host ++ "]:" ++ toString port.toNat

/-- Matching a pattern list, where a single negation disqualifies the whole line. -/
def patternListMatch (target host : String) : List String → Bool → Bool
  | [], matched => matched
  | pattern :: rest, matched =>
    match stripPrefix '!' pattern with
    | some negated =>
      -- The loop leaves the line at once, whatever matched before.
      if globMatch negated target || globMatch negated host then false
      else patternListMatch target host rest matched
    | none =>
      -- A bare host pattern also matches when a port made the target bracketed.
      if globMatch pattern target || globMatch pattern host then
        patternListMatch target host rest true
      else patternListMatch target host rest matched

section Operations

variable {Key : Type} (crates : Crates Key)

/-- Does any pattern on this line name our target? -/
def patternsMatch (patterns : HostPatterns) (target host : String) : Bool :=
  match patterns with
  | .hashedName salt hash => crates.hmacSha1 salt target.toUTF8 == hash
  | .patterns list => patternListMatch target host list false

/-- One line as an entry, skipping blanks, comments and lines that do not parse. -/
def parseEntry (line : String) : Option (Entry Key) :=
  let trimmed := trim line
  if trimmed.toList.isEmpty || trimmed.toList.head? == some '#' then none
  else crates.parse trimmed

/-- Line number, from one, with each entry that parses. -/
def parsedEntries (contents : String) : List (Nat × Entry Key) :=
  (lines contents).zipIdx.filterMap fun indexed =>
    (parseEntry crates indexed.1).map fun entry => (indexed.2 + 1, entry)

/-- The verdict's loop over the entries, carrying the first changed key it saw. -/
def verifyEntries [DecidableEq Key] (target host : String) (key : PublicKey Key) :
    List (Nat × Entry Key) → Option HostKeyVerdict → HostKeyVerdict
  | [], changed => changed.getD .unknown
  | (line, entry) :: rest, changed =>
    if !patternsMatch crates entry.hostPatterns target host then
      verifyEntries target host key rest changed
    else match entry.marker with
      | some .revoked => .revoked line
      -- Certificate authorities are not supported and say nothing here.
      | some .certAuthority => verifyEntries target host key rest changed
      | none =>
        -- Key material is compared, not the comment beside it.
        if entry.publicKey.keyData = key.keyData then .trusted
        else
          let recordedAlg := crates.algorithm entry.publicKey.keyData
          -- Only a mismatch under the same algorithm is a changed key.
          if recordedAlg == crates.algorithm key.keyData && changed.isNone then
            verifyEntries target host key rest (some (.changed line recordedAlg
              (crates.fingerprint entry.publicKey.keyData)))
          else verifyEntries target host key rest changed

/-- Decide whether `key` is the key expected for `host:port`. -/
def verify [DecidableEq Key] (file : Disk) (host : String) (port : UInt16) (key : PublicKey Key) :
    Except KnownHostsError HostKeyVerdict := do
  let contents ← read file
  return verifyEntries crates (matchTarget host port) host key (parsedEntries crates contents) none

/-- The algorithm and the encoded key, dropping any comment. -/
def opensshKeyPart (key : PublicKey Key) : Except KnownHostsError String :=
  match crates.toOpenssh key with
  | .error reason => .error (.encode reason)
  | .ok line =>
    -- The comment is whatever stands behind the first two fields.
    match splitWhitespace line with
    | alg :: data :: _ => .ok (alg ++ " " ++ data)
    | _ => .error (.encode "malformed public key")

/--
The hashed form of a target.

No salt stands for an unavailable random generator, and then the target is written plainly.
-/
def hashPattern (target : String) (salt : Option (List UInt8)) : String :=
  match salt with
  | none => target
  | some salt =>
    "|1|" ++ crates.base64 salt ++ "|" ++ crates.base64 (crates.hmacSha1 salt target.toUTF8)

/-- Contents with a line feed added where the last line lacks one. -/
def closeLastLine (existing : String) : String :=
  if !existing.toList.isEmpty && !endsWithNewline existing then existing ++ "\n" else existing

/-- The name a learned line opens with. -/
def learnedPattern (host : String) (port : UInt16) (hashed : Bool) (salt : Option (List UInt8)) :
    String :=
  let target := matchTarget host port
  if hashed then hashPattern crates target salt else target

/-- Append a trusted key, answering with the file's new contents. -/
def learn (file : Disk) (host : String) (port : UInt16) (key : PublicKey Key) (hashed : Bool)
    (salt : Option (List UInt8)) : Except KnownHostsError Disk := do
  let pattern := learnedPattern crates host port hashed salt
  let keyPart ← opensshKeyPart crates key
  let existing ← read file
  return .text (closeLastLine existing ++ (pattern ++ " " ++ keyPart ++ "\n"))

/-- Whether a line is one that removing this host drops. -/
def lineMatches (host : String) (port : UInt16) (line : String) : Bool :=
  match parseEntry crates line with
  | some entry => patternsMatch crates entry.hostPatterns (matchTarget host port) host
  | none => false

/-- Drop every entry matching `host:port`, answering with how many there were. -/
def remove (file : Disk) (host : String) (port : UInt16) :
    Except KnownHostsError (Nat × Disk) := do
  let contents ← read file
  let kept := (lines contents).filter (!lineMatches crates host port ·)
  let removed := (lines contents).countP (lineMatches crates host port)
  -- The file is only rewritten when something was dropped.
  return (removed, if 0 < removed then .text (unlines kept) else file)

/-- Host patterns, algorithm and key fingerprint, ignoring the comment. -/
def entryIdentity (entry : Entry Key) : String :=
  crates.patternsToString entry.hostPatterns ++ "|" ++
    crates.algorithm entry.publicKey.keyData ++ "|" ++
    crates.fingerprint entry.publicKey.keyData

/-- What an import carries from line to line. -/
structure ImportState where
  known : List String
  report : ImportReport
  appended : List String

/-- One source line of an import. -/
def importLine (state : ImportState) (line : String) : ImportState :=
  let trimmed := trim line
  if trimmed.toList.isEmpty || trimmed.toList.head? == some '#' then state
  else
    let report := { state.report with total := state.report.total + 1 }
    match parseEntry crates line with
    | none => { state with report := { report with malformed := report.malformed + 1 } }
    | some entry =>
      if entry.marker = some .certAuthority then
        { state with report :=
          { report with skippedCertAuthority := report.skippedCertAuthority + 1 } }
      else
        let identity := entryIdentity crates entry
        -- The identity leaves the marker out, so a revocation counts as a duplicate of a trust.
        if state.known.contains identity then
          { state with report := { report with duplicates := report.duplicates + 1 } }
        else
          { known := state.known ++ [identity]
            report := { report with imported := report.imported + 1 }
            appended := state.appended ++ [trimmed] }

/-- The identities an existing file already holds. -/
def knownIdentities (existing : String) : List String :=
  (lines existing).filterMap fun line => (parseEntry crates line).map (entryIdentity crates)

/-- All source lines of an import, over what the file holds already. -/
def importLines (existing incoming : String) : ImportState :=
  (lines incoming).foldl (importLine crates)
    ⟨knownIdentities crates existing, ImportReport.default, []⟩

/-- Copy entries in from another file, which is only read. -/
def importFrom (file source : Disk) : Except KnownHostsError (ImportReport × Disk) :=
  match source with
  | .missing => .ok (ImportReport.default, file)
  | .unreadable reason => .error (.io reason)
  | .text incoming => do
    let existing ← read file
    let state := importLines crates existing incoming
    -- A file that gains nothing is not rewritten.
    return (state.report,
      if state.appended.isEmpty then file
      else .text (closeLastLine existing ++ unlines state.appended))

end Operations

end Tern.KnownHosts
