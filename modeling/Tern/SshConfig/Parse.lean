import Mathlib.Data.List.Sort
import Tern.Base.FirstSeen
import Tern.Base.Wildcard
import Tern.SshConfig.Lex

/-! Directives turned into host stanzas, following the files that a config includes. -/

namespace Tern.SshConfig

/-- The keywords that map onto a stored host. -/
def understood : List String :=
  ["hostname", "port", "user", "identityfile", "proxyjump", "serveraliveinterval",
    "connecttimeout", "forwardagent"]

/-- What a parse reports as not brought across. -/
inductive Warning where
  /-- A `Match` block was found, and the stanza it interrupted stops there. -/
  | matchUnsupported (file : String) (line : Nat)
  /-- The recursion hit the depth cap or revisited a file. -/
  | includeCycle (file : String) (line : Nat)
  /-- An include pattern matched nothing. -/
  | includeUnreadable (file : String) (line : Nat) (pattern : String)
  | unsupportedKeyword (file : String) (line : Nat) (keyword : String)
  deriving DecidableEq, Repr

/-- The settings of one `Host` stanza. -/
structure Stanza where
  /-- The patterns as written. -/
  patterns : List String
  hostname : Option String
  port : Option UInt16
  user : Option String
  identityFile : Option String
  proxyJump : Option String
  serverAliveInterval : Option UInt32
  connectTimeout : Option UInt32
  forwardAgent : Option Bool
  deriving DecidableEq, Repr

/-- A stanza that sets nothing yet. -/
def Stanza.ofPatterns (patterns : List String) : Stanza where
  patterns := patterns
  hostname := none
  port := none
  user := none
  identityFile := none
  proxyJump := none
  serverAliveInterval := none
  connectTimeout := none
  forwardAgent := none

/-- Host-pattern globbing, where a star spans any run of characters and a question mark one. -/
def globMatch (pattern value : String) : Bool :=
  Wildcard.isMatch '*' '?' pattern.toList value.toList

/-- Whether patterns still to come apply to an alias, given whether an earlier one matched. -/
def matchesFrom (alias_ : String) : Bool → List String → Bool
  | matched, [] => matched
  | matched, pattern :: rest =>
    match Text.stripPrefix '!' pattern with
    -- A negated pattern that matches settles the question at once.
    | some negated => if globMatch negated alias_ then false else matchesFrom alias_ matched rest
    | none => matchesFrom alias_ (matched || globMatch pattern alias_) rest

/-- Whether the stanza applies to an alias. -/
def Stanza.matches (self : Stanza) (alias_ : String) : Bool :=
  matchesFrom alias_ false self.patterns

/-- The stanza with every unset field filled from another. -/
def Stanza.inheritFrom (self other : Stanza) : Stanza where
  patterns := self.patterns
  hostname := self.hostname.or other.hostname
  port := self.port.or other.port
  user := self.user.or other.user
  identityFile := self.identityFile.or other.identityFile
  proxyJump := self.proxyJump.or other.proxyJump
  serverAliveInterval := self.serverAliveInterval.or other.serverAliveInterval
  connectTimeout := self.connectTimeout.or other.connectTimeout
  forwardAgent := self.forwardAgent.or other.forwardAgent

/-- The stanzas and the warnings of a parse. -/
structure ParsedConfig where
  stanzas : List Stanza
  warnings : List Warning
  deriving DecidableEq, Repr

/-- Whether a pattern names one host. -/
def isConcrete (pattern : String) : Bool :=
  !((Text.stripPrefix '!' pattern).isSome || pattern.toList.contains '*' ||
    pattern.toList.contains '?')

/-- Every alias worth offering as an importable host, in order and without repetition. -/
def ParsedConfig.aliases (self : ParsedConfig) : List String :=
  FirstSeen.keep id [] (self.stanzas.flatMap fun stanza => stanza.patterns.filter isConcrete)

/-- Every setting that applies to an alias, the first value winning. -/
def ParsedConfig.resolve (self : ParsedConfig) (alias_ : String) : Stanza :=
  self.stanzas.foldl
    -- Stanzas are merged in the order they were closed.
    (fun resolved stanza =>
      if stanza.matches alias_ then resolved.inheritFrom stanza else resolved)
    (Stanza.ofPatterns [alias_])

/-- The stanza after one understood directive, where a later duplicate is ignored. -/
def apply (platform : Platform) (stanza : Stanza) (keyword : String) (args : List String) :
    Stanza :=
  match args with
  | [] => stanza
  | first :: _ =>
    -- Each keyword is guarded by its own empty field, so the first value stays.
    if keyword = "hostname" && stanza.hostname.isNone then
      { stanza with hostname := some first }
    else if keyword = "port" && stanza.port.isNone then
      { stanza with port := parseU16 first }
    else if keyword = "user" && stanza.user.isNone then
      { stanza with user := some first }
    else if keyword = "identityfile" && stanza.identityFile.isNone then
      { stanza with identityFile := some (expandTildeStr platform first) }
    else if keyword = "proxyjump" && stanza.proxyJump.isNone then
      -- Only here do the arguments behind the first one count.
      { stanza with proxyJump := some (",".intercalate args) }
    else if keyword = "serveraliveinterval" && stanza.serverAliveInterval.isNone then
      { stanza with serverAliveInterval := parseU32 first }
    else if keyword = "connecttimeout" && stanza.connectTimeout.isNone then
      { stanza with connectTimeout := parseU32 first }
    else if keyword = "forwardagent" && stanza.forwardAgent.isNone then
      let word := toLowercase platform first
      { stanza with forwardAgent := some (word == "yes" || word == "true" || word == "on") }
    else stanza

section Files

/-- Whether one step of a path sorts before another, different one. -/
def Component.before : Component → Component → Bool
  | .rootDir, _ => true
  | _, .rootDir => false
  | .curDir, _ => true
  | _, .curDir => false
  | .parentDir, _ => true
  | _, .parentDir => false
  | .normal left, .normal right => decide (left < right)

/-- The order of paths, step by step. -/
def componentsLe : List Component → List Component → Bool
  | [], _ => true
  | _ :: _, [] => false
  | left :: lefts, right :: rights =>
    if left = right then componentsLe lefts rights else left.before right

/-- The files that a pattern names, where only its last component may hold stars. -/
def globPaths (platform : Platform) (pattern : String) : List String :=
  if !pattern.toList.contains '*' then
    if platform.isFile pattern then [pattern] else []
  else match parent pattern with
    | none => []
    | some directory =>
      let name := (fileName pattern).getD ""
      match platform.readDir directory with
      | none => []
      | some names =>
        let files := (names.map (join directory)).filter fun path =>
          platform.isFile path && (fileName path).any (globMatch name)
        -- Directory order is not stable across platforms, and imports must be.
        files.insertionSort fun left right => componentsLe (components left) (components right)

/-- Where an include pattern points, as seen from a file in a directory. -/
def includeTarget (platform : Platform) (base pattern : String) : String :=
  let expanded := expandTildeStr platform pattern
  if isAbsolute expanded then expanded else join base expanded

end Files

section Recursion

/-- What a parse has gathered so far, and the files it has entered. -/
structure Progress where
  cfg : ParsedConfig
  visited : List (List Component)
  deriving DecidableEq, Repr

/-- The progress with one more warning. -/
def Progress.warn (progress : Progress) (warning : Warning) : Progress :=
  { progress with cfg := { progress.cfg with warnings := progress.cfg.warnings ++ [warning] } }

/-- The config with the open stanza put among the finished ones, unless it has no pattern. -/
def flush (current : Option Stanza) (cfg : ParsedConfig) : ParsedConfig :=
  match current with
  | none => cfg
  | some stanza =>
    -- A stanza without patterns could apply to nothing.
    if stanza.patterns.isEmpty then cfg else { cfg with stanzas := cfg.stanzas ++ [stanza] }

/-- Where the reading of one file stands. -/
structure Absorbing where
  progress : Progress
  current : Option Stanza
  /-- Set by a `Match`, after which everything until the next `Host` is unattributable. -/
  inMatch : Bool
  deriving DecidableEq, Repr

/-- The progress once the open stanza is closed. -/
def Absorbing.flushed (state : Absorbing) : Progress :=
  { state.progress with cfg := flush state.current state.progress.cfg }

variable (platform : Platform) (parseEntry : String → Progress → Progress)

/-- The progress after the files that one include pattern names. -/
def include_ (pattern base : String) (line : Nat) (file : String) (progress : Progress) :
    Progress :=
  match globPaths platform (includeTarget platform base pattern) with
  -- A pattern that finds no file is reported, and the parse goes on.
  | [] => progress.warn (.includeUnreadable file line pattern)
  | entries => entries.foldl (fun reached entry => parseEntry entry reached) progress

/-- The reading of a file after one more directive. -/
def absorbStep (file : String) (base : Option String) (state : Absorbing) (d : Directive) :
    Absorbing :=
  if d.keyword = "host" then
    { progress := state.flushed
      current := some (Stanza.ofPatterns d.args)
      inMatch := false }
  else if d.keyword = "match" then
    -- The stanza ends here, so that the directives below cannot land on it.
    { progress := state.flushed.warn (.matchUnsupported file d.line)
      current := none
      inMatch := true }
  else if d.keyword = "include" then
    match base with
    | some base =>
      { state with
        progress := d.args.foldl
          (fun reached pattern => include_ platform parseEntry pattern base d.line file reached)
          state.progress }
    | none =>
      { state with
        progress := state.progress.warn
          (.includeUnreadable file d.line (" ".intercalate d.args)) }
  -- Settings below a `Match` or above the first `Host` are dropped.
  else if state.inMatch then state
  else match state.current with
    | none => state
    | some stanza =>
      if understood.contains d.keyword then
        { state with current := some (apply platform stanza d.keyword d.args) }
      else
        { state with progress := state.progress.warn (.unsupportedKeyword file d.line d.keyword) }

/-- The progress after all directives of one file. -/
def absorb (directives : List Directive) (file : String) (base : Option String)
    (progress : Progress) : Progress :=
  (directives.foldl (absorbStep platform parseEntry file base) ⟨progress, none, false⟩).flushed

end Recursion

/-- How deep includes may nest before they count as a cycle. -/
def maxIncludeDepth : Nat := 16

/-- The name under which an entered file is remembered. -/
def visitKey (platform : Platform) (path : String) : List Component :=
  components ((platform.canonicalize path).getD path)

/-- The progress after one file that may itself nest includes as often as the budget allows. -/
def parseWithin (platform : Platform) : Nat → String → Progress → Progress
  -- The depth cap is checked first, and a file beyond it does not count as visited.
  | 0, path, progress => progress.warn (.includeCycle path 0)
  | budget + 1, path, progress =>
    if visitKey platform path ∈ progress.visited then progress.warn (.includeCycle path 0)
    else
      let entered := { progress with visited := visitKey platform path :: progress.visited }
      match platform.readToString path with
      | none => entered
      | some text =>
        absorb platform (parseWithin platform budget) (tokenize platform text) path (parent path)
          entered

/-- The progress after the file at a path, entered at a nesting depth. -/
def parseInto (platform : Platform) (path : String) (depth : Nat) (progress : Progress) :
    Progress :=
  parseWithin platform (maxIncludeDepth + 1 - depth) path progress

/-- A config file parsed, with the files it includes. -/
def parseFile (platform : Platform) (path : String) : ParsedConfig :=
  (parseInto platform path 0 ⟨⟨[], []⟩, []⟩).cfg

end Tern.SshConfig
