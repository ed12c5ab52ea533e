import Tern.Base.Nesting
import Tern.SshConfig.Settings

/-! A config with its included files written out in place, and the parser as a reading of that. -/

namespace Tern.SshConfig

open Nesting (Event Frame State)

/-- A directive at its place in the file tree. -/
structure Setting where
  file : String
  directive : Directive
  deriving DecidableEq, Repr

/-- The patterns of a `Host` line as a scope, which a line without patterns does not open. -/
def scopeOf (patterns : List String) : Option (List String) :=
  if patterns.isEmpty then none else some patterns

/-- The files that the arguments of an include name, as seen from a file in a directory. -/
def includedFiles (platform : Platform) (base : Option String) (patterns : List String) :
    List String :=
  match base with
  | none => []
  | some base =>
    patterns.flatMap fun pattern => globPaths platform (includeTarget platform base pattern)

/-- The events of the files entered so far. -/
structure Trail where
  events : List (Event (List String) Setting)
  visited : List (List Component)

/-- The trail with one more event. -/
def Trail.push (trail : Trail) (event : Event (List String) Setting) : Trail :=
  { trail with events := trail.events ++ [event] }

/-- The trail after one more directive of a file. -/
def expandStep (platform : Platform) (expandEntry : String → Trail → Trail) (file : String)
    (trail : Trail) (d : Directive) : Trail :=
  if d.keyword = "host" then trail.push (.scope (scopeOf d.args))
  -- A `Match` block is a scope that keeps nothing.
  else if d.keyword = "match" then trail.push (.scope none)
  else if d.keyword = "include" then
    (includedFiles platform (parent file) d.args).foldl
      (fun reached entry => expandEntry entry reached) trail
  else trail.push (.item ⟨file, d⟩)

/-- The trail after one file, with the files it includes written out in place. -/
def expandWithin (platform : Platform) : Nat → String → Trail → Trail
  | 0, _, trail => trail
  | budget + 1, path, trail =>
    -- The guards are those of the parse, so both enter the same files.
    if trail.visited.contains (visitKey platform path) then trail
    else
      let entered := { trail with visited := visitKey platform path :: trail.visited }
      match platform.readToString path with
      | none => entered
      | some text =>
        ((tokenize platform text).foldl (expandStep platform (expandWithin platform budget) path)
          (entered.push .enter)).push .leave

/-- A config file with the files it includes written out in place. -/
def expand (platform : Platform) (path : String) : List (Event (List String) Setting) :=
  (expandWithin platform (maxIncludeDepth + 1) path ⟨[], []⟩).events

/-- The directives of every stanza that a config gives rise to, in the order they are listed. -/
def blocks (platform : Platform) (path : String) : List (List String × List Setting) :=
  (Nesting.run ⟨[], []⟩ (expand platform path)).closed

/-- The stanza that patterns and the directives under them make. -/
def stanzaOf (platform : Platform) (block : List String × List Setting) : Stanza :=
  block.2.foldl (fun stanza setting =>
    apply platform stanza setting.directive.keyword setting.directive.args)
    (Stanza.ofPatterns block.1)

section Tracking

variable (platform : Platform)

/-- The patterns of a block's stanza are the block's own. -/
theorem patterns_stanzaOf (block : List String × List Setting) :
    (stanzaOf platform block).patterns = block.1 := by
  -- Applying settings to a stanza touches its fields only.
  have general : ∀ (settings : List Setting) (start : Stanza),
      (settings.foldl (fun stanza setting =>
        apply platform stanza setting.directive.keyword setting.directive.args) start).patterns =
        start.patterns := by
    intro settings
    induction settings with
    | nil => intro start; rfl
    | cons setting rest ih => intro start; rw [List.foldl_cons, ih, patterns_apply]
  exact general block.2 (Stanza.ofPatterns block.1)

/-- The trail's texts under way and closed blocks. -/
def Trail.state (trail : Trail) : State (List String) Setting :=
  Nesting.run ⟨[], []⟩ trail.events

/-- One more event is one more step. -/
theorem state_push (trail : Trail) (event : Event (List String) Setting) :
    (trail.push event).state = Nesting.step trail.state event := by
  simp [Trail.state, Trail.push, Nesting.run, List.foldl_append]

/-- The parse has gathered the stanzas of the trail's closed blocks and entered its files. -/
structure Tracks (progress : Progress) (trail : Trail)
    (stack : List (Frame (List String) Setting)) : Prop where
  visited : progress.visited = trail.visited
  stack : trail.state.stack = stack
  stanzas : progress.cfg.stanzas = trail.state.closed.map (stanzaOf platform)

/-- The open stanza is the one the innermost open scope makes, as far as it will be kept. -/
def Holds (current : Option Stanza) (frame : Frame (List String) Setting) : Prop :=
  match frame.scope with
  | none => ∀ stanza, current = some stanza → stanza.patterns = []
  | some patterns => patterns ≠ [] ∧ current = some (stanzaOf platform (patterns, frame.items))

/-- The reading of one file and the trail of its events agree on the file under way. -/
structure Reads (state : Absorbing) (trail : Trail) (stack : List (Frame (List String) Setting))
    (frame : Frame (List String) Setting) : Prop where
  tracks : Tracks platform state.progress trail (frame :: stack)
  holds : Holds platform state.current frame
  closed : state.inMatch = true → state.current = none

variable {platform}

/-- A warning leaves the gathered stanzas alone. -/
theorem Tracks.warn {progress : Progress} {trail : Trail}
    {stack : List (Frame (List String) Setting)} (tracks : Tracks platform progress trail stack)
    (warning : Warning) : Tracks platform (progress.warn warning) trail stack :=
  ⟨tracks.visited, tracks.stack, tracks.stanzas⟩

/-- Closing the open stanza closes the innermost scope. -/
theorem flush_eq {current : Option Stanza} {frame : Frame (List String) Setting}
    (holds : Holds platform current frame) (cfg : ParsedConfig) :
    (flush current cfg).stanzas = cfg.stanzas ++ frame.block.map (stanzaOf platform) := by
  obtain ⟨scope, settings⟩ := frame
  cases scope with
  -- Outside all scopes a stanza may be open, but only one without patterns.
  | none =>
    cases current with
    | none => simp [flush, Frame.block]
    | some stanza => simp [flush, Frame.block, holds stanza rfl]
  | some patterns =>
    obtain ⟨occupied, rfl⟩ := holds
    simp [flush, Frame.block, patterns_stanzaOf, occupied]

/-- Entering the files an include names keeps the parse and the trail together. -/
theorem Tracks.includes {parseEntry : String → Progress → Progress}
    {expandEntry : String → Trail → Trail}
    (entries : ∀ entry progress trail stack, Tracks platform progress trail stack →
      Tracks platform (parseEntry entry progress) (expandEntry entry trail) stack)
    {progress : Progress} {trail : Trail} {stack : List (Frame (List String) Setting)}
    (tracks : Tracks platform progress trail stack) (base : String) (patterns : List String)
    (line : Nat) (file : String) :
    Tracks platform
      (patterns.foldl (fun reached pattern =>
        include_ platform parseEntry pattern base line file reached) progress)
      ((includedFiles platform (some base) patterns).foldl
        (fun reached entry => expandEntry entry reached) trail) stack := by
  -- The patterns are resolved one by one, and the files of each are entered in turn.
  rw [includedFiles, List.foldl_flatMap]
  apply List.foldl_rel (r := fun progress trail => Tracks platform progress trail stack) tracks
  intro pattern _ reached trail tracks
  unfold include_
  generalize globPaths platform (includeTarget platform base pattern) = files
  cases files with
  | nil =>
    -- A pattern that names no file only leaves a warning behind.
    exact tracks.warn _
  | cons first rest =>
    apply List.foldl_rel (r := fun progress trail => Tracks platform progress trail stack) tracks
    intro entry _ reached trail tracks
    exact entries entry reached trail stack tracks

variable (platform) in
/-- A directive that is no `Host`, `Match` or `Include` touches only the open stanza. -/
theorem absorbStep_setting {state : Absorbing} (parseEntry : String → Progress → Progress)
    (file : String) (base : Option String) {d : Directive} (host : d.keyword ≠ "host")
    (match_ : d.keyword ≠ "match") (include_ : d.keyword ≠ "include")
    (closed : state.inMatch = true → state.current = none) :
    ∃ progress, absorbStep platform parseEntry file base state d =
        ⟨progress, state.current.map fun stanza => apply platform stanza d.keyword d.args,
          state.inMatch⟩ ∧
      (progress = state.progress ∨ ∃ warning, progress = state.progress.warn warning) := by
  obtain ⟨progress, current, inMatch⟩ := state
  simp only [absorbStep, if_neg host, if_neg match_, if_neg include_]
  cases current with
  | none => exact ⟨progress, by simp, .inl rfl⟩
  | some stanza =>
    -- With a stanza open the reading is not inside a `Match` block.
    have outside : inMatch = false := by
      cases inMatch with
      | false => rfl
      | true => exact absurd (closed rfl) (by simp)
    simp only [outside, Bool.false_eq_true, if_false, Option.map_some]
    -- An unknown keyword would set nothing anyway, so both cases come to the same stanza.
    by_cases known : understood.contains d.keyword = true
    · exact ⟨progress, by rw [if_pos known], .inl rfl⟩
    · refine ⟨progress.warn (.unsupportedKeyword file d.line d.keyword), ?_, .inr ⟨_, rfl⟩⟩
      rw [if_neg known, apply_unknown platform known]

/-- A directive more under some patterns is one more applied to their stanza. -/
theorem stanzaOf_append (patterns : List String) (settings : List Setting) (setting : Setting) :
    stanzaOf platform (patterns, settings ++ [setting]) =
      apply platform (stanzaOf platform (patterns, settings)) setting.directive.keyword
        setting.directive.args := by
  simp [stanzaOf, List.foldl_append]

/-- Applying a directive to the open stanza adds it to the open scope. -/
theorem Holds.setting {current : Option Stanza} {frame : Frame (List String) Setting}
    (holds : Holds platform current frame) (setting : Setting) :
    Holds platform
      (current.map fun stanza =>
        apply platform stanza setting.directive.keyword setting.directive.args)
      ⟨frame.scope, frame.items ++ [setting]⟩ := by
  -- Without a scope the stanza has no pattern, and within one it takes the setting.
  obtain ⟨scope, settings⟩ := frame
  cases scope with
  | none =>
    intro stanza found
    obtain ⟨before, held, rfl⟩ := Option.map_eq_some_iff.mp found
    rw [patterns_apply]
    exact holds before held
  | some patterns =>
    obtain ⟨occupied, rfl⟩ := holds
    exact ⟨occupied, by rw [Option.map_some, stanzaOf_append]⟩

/-- A fresh stanza is the open scope of its patterns. -/
theorem holds_fresh (patterns : List String) :
    Holds platform (some (Stanza.ofPatterns patterns)) ⟨scopeOf patterns, []⟩ := by
  -- A line without patterns opens a stanza that nothing matches, which is no scope.
  cases patterns with
  | nil =>
    intro stanza found
    rw [← Option.some.inj found]
    rfl
  | cons pattern rest => exact ⟨by simp, rfl⟩

/-- Closing the open stanza adds the block of the file's open scope to the closed ones. -/
theorem Reads.flushed {state : Absorbing} {trail : Trail}
    {stack : List (Frame (List String) Setting)} {frame : Frame (List String) Setting}
    (reads : Reads platform state trail stack frame) :
    state.flushed.cfg.stanzas = (trail.state.closed ++ frame.block).map (stanzaOf platform) := by
  rw [Absorbing.flushed, flush_eq reads.holds, reads.tracks.stanzas, List.map_append]

/-- At the end of a file its open stanza closes, and the files around it are as before. -/
theorem Reads.leave {state : Absorbing} {trail : Trail}
    {stack : List (Frame (List String) Setting)} {frame : Frame (List String) Setting}
    (reads : Reads platform state trail stack frame) :
    Tracks platform state.flushed (trail.push .leave) stack := by
  -- Leaving a file closes its frame, which is what closing its stanza does.
  have next : (trail.push .leave).state = ⟨stack, trail.state.closed ++ frame.block⟩ := by
    rw [state_push, show trail.state = ⟨frame :: stack, trail.state.closed⟩ by
      rw [← reads.tracks.stack]]
    rfl
  exact ⟨reads.tracks.visited, by rw [next], by rw [next]; exact reads.flushed⟩

/-- One directive keeps the reading of a file and the trail of its events together. -/
theorem Reads.step {state : Absorbing} {trail : Trail}
    {stack : List (Frame (List String) Setting)}
    (reads : ∃ frame, Reads platform state trail stack frame)
    {parseEntry : String → Progress → Progress} {expandEntry : String → Trail → Trail}
    (entries : ∀ entry progress trail stack, Tracks platform progress trail stack →
      Tracks platform (parseEntry entry progress) (expandEntry entry trail) stack)
    (file : String) (d : Directive) :
    ∃ frame, Reads platform (absorbStep platform parseEntry file (parent file) state d)
      (expandStep platform expandEntry file trail d) stack frame := by
  obtain ⟨frame, reads⟩ := reads
  have flushed := reads.flushed
  obtain ⟨tracks, holds, closed⟩ := reads
  -- The frame of the file lies on top of those around it.
  have now : trail.state = ⟨frame :: stack, trail.state.closed⟩ := by rw [← tracks.stack]
  by_cases host : d.keyword = "host"
  · -- The stanza under way closes and the scope changes to the new patterns.
    have next : (trail.push (.scope (scopeOf d.args))).state =
        ⟨⟨scopeOf d.args, []⟩ :: stack, trail.state.closed ++ frame.block⟩ := by
      rw [state_push, now]
      rfl
    refine ⟨⟨scopeOf d.args, []⟩, ?_⟩
    simp only [absorbStep, expandStep, if_pos host]
    exact ⟨⟨tracks.visited, by rw [next], by rw [next]; exact flushed⟩, holds_fresh d.args, by simp⟩
  by_cases match_ : d.keyword = "match"
  · -- Below a `Match` no stanza is open, and the scope keeps nothing.
    have next : (trail.push (.scope none)).state =
        ⟨⟨none, []⟩ :: stack, trail.state.closed ++ frame.block⟩ := by
      rw [state_push, now]
      rfl
    refine ⟨⟨none, []⟩, ?_⟩
    simp only [absorbStep, expandStep, if_neg host, if_pos match_]
    exact ⟨⟨tracks.visited, by rw [next], by rw [next]; exact flushed⟩, by simp [Holds], by simp⟩
  by_cases include_ : d.keyword = "include"
  · -- Included files are entered with this file's open stanza left as it is.
    refine ⟨frame, ?_⟩
    simp only [absorbStep, expandStep, if_neg host, if_neg match_, if_pos include_]
    cases parent file with
    | none => exact ⟨tracks.warn _, holds, closed⟩
    | some base => exact ⟨tracks.includes entries base d.args d.line file, holds, closed⟩
  · -- A setting joins the scope that is open, whether or not that scope is kept.
    obtain ⟨progress, after, quiet⟩ := absorbStep_setting platform parseEntry file (parent file)
      host match_ include_ closed
    have next : (trail.push (.item ⟨file, d⟩)).state =
        ⟨⟨frame.scope, frame.items ++ [⟨file, d⟩]⟩ :: stack, trail.state.closed⟩ := by
      rw [state_push, now]
      rfl
    refine ⟨⟨frame.scope, frame.items ++ [⟨file, d⟩]⟩, ?_⟩
    rw [after]
    simp only [expandStep, if_neg host, if_neg match_, if_neg include_]
    refine ⟨⟨?_, by rw [next], ?_⟩, holds.setting ⟨file, d⟩, ?_⟩
    · rcases quiet with rfl | ⟨warning, rfl⟩ <;> exact tracks.visited
    · rw [next]
      rcases quiet with rfl | ⟨warning, rfl⟩ <;> exact tracks.stanzas
    · intro inside
      simp [closed inside]

/-- Parsing a file keeps up with the trail of its events, whatever files are under way around it. -/
theorem tracks_parseWithin (budget : Nat) :
    ∀ path progress trail stack, Tracks platform progress trail stack →
      Tracks platform (parseWithin platform budget path progress)
        (expandWithin platform budget path trail) stack := by
  -- The induction is on the depth left, for any files under way around the file.
  induction budget with
  | zero =>
    intro path progress trail stack tracks
    exact tracks.warn _
  | succ budget ih =>
    intro path progress trail stack tracks
    rw [parseWithin, expandWithin, tracks.visited]
    by_cases seen : visitKey platform path ∈ trail.visited
    · rw [if_pos seen, if_pos (List.contains_iff_mem.mpr seen)]
      exact tracks.warn _
    · -- A file that is new is entered in both, even if it cannot be read.
      rw [if_neg seen, if_neg (mt List.contains_iff_mem.mp seen)]
      cases platform.readToString path with
      | none => exact ⟨rfl, tracks.stack, tracks.stanzas⟩
      | some text =>
        let entered : Trail := { trail with visited := visitKey platform path :: trail.visited }
        have opened : (entered.push .enter).state =
            ⟨⟨none, []⟩ :: stack, trail.state.closed⟩ := by
          rw [state_push, ← tracks.stack]
          rfl
        -- The file's own directives are read one by one above the files around it.
        have start : ∃ frame, Reads platform
            ⟨{ progress with visited := visitKey platform path :: trail.visited }, none, false⟩
            (entered.push .enter) stack frame :=
          ⟨⟨none, []⟩, ⟨rfl, by rw [opened], by rw [opened]; exact tracks.stanzas⟩,
            by simp [Holds], by simp⟩
        obtain ⟨frame, reads⟩ := List.foldl_rel
          (r := fun state trail => ∃ frame, Reads platform state trail stack frame)
          (l := tokenize platform text) start
          fun d _ state trail reads => Reads.step reads ih path d
        exact reads.leave

/-- Parsing a config keeps up with the trail of its events from the start. -/
theorem tracks_parseFile (path : String) :
    Tracks platform (parseInto platform path 0 ⟨⟨[], []⟩, []⟩)
      (expandWithin platform (maxIncludeDepth + 1) path ⟨[], []⟩) [] :=
  tracks_parseWithin _ path _ _ _ ⟨rfl, rfl, rfl⟩

/-- The stanzas of a parse are those of the blocks that the written-out config closes. -/
theorem stanzas_parseFile (path : String) :
    (parseFile platform path).stanzas = (blocks platform path).map (stanzaOf platform) :=
  (tracks_parseFile path).stanzas

/-- At the end of a written-out config no file is left open. -/
theorem closingOrder_expand (path : String) :
    Nesting.closingOrder (Nesting.run ⟨[], []⟩ (expand platform path)) =
      Nesting.entriesOf (blocks platform path) := by
  have ended : (Nesting.run ⟨[], []⟩ (expand platform path)).stack = [] :=
    (tracks_parseFile path).stack
  rw [Nesting.closingOrder, ended, List.flatMap_nil, List.append_nil, blocks]

end Tracking

section Places

variable (platform : Platform)

/-- The trail has grown by distinct directives of files that were not entered before. -/
structure Grows (before after : Trail) : Prop where
  visited : before.visited ⊆ after.visited
  added : ∃ added, after.events = before.events ++ added ∧ (Nesting.items added).Nodup ∧
    ∀ setting ∈ Nesting.items added, visitKey platform setting.file ∉ before.visited ∧
      visitKey platform setting.file ∈ after.visited

variable {platform}

/-- A trail grows by nothing into itself. -/
theorem Grows.refl (trail : Trail) : Grows platform trail trail :=
  ⟨List.Subset.refl _, [], by simp, List.nodup_nil, by simp [Nesting.items]⟩

/-- What is added later comes from other files than what was added before. -/
theorem Grows.trans {first second third : Trail} (early : Grows platform first second)
    (late : Grows platform second third) : Grows platform first third := by
  obtain ⟨front, frontEvents, frontDistinct, frontFiles⟩ := early.added
  obtain ⟨back, backEvents, backDistinct, backFiles⟩ := late.added
  refine ⟨List.Subset.trans early.visited late.visited, front ++ back, ?_, ?_, ?_⟩
  · rw [backEvents, frontEvents, List.append_assoc]
  · rw [Nesting.items_append, List.nodup_append]
    refine ⟨frontDistinct, backDistinct, ?_⟩
    -- A directive on both sides would be of a file that was entered before.
    intro setting inFront other inBack same
    rw [← same] at inBack
    exact (backFiles setting inBack).1 (frontFiles setting inFront).2
  · intro setting member
    rw [Nesting.items_append, List.mem_append] at member
    rcases member with inFront | inBack
    · exact ⟨(frontFiles setting inFront).1, late.visited (frontFiles setting inFront).2⟩
    · exact ⟨fun old => (backFiles setting inBack).1 (early.visited old),
        (backFiles setting inBack).2⟩

/-- Files entered one after the other grow the trail together. -/
theorem grows_entries {expandEntry : String → Trail → Trail}
    (entries : ∀ entry trail, Grows platform trail (expandEntry entry trail))
    (files : List String) (trail : Trail) :
    Grows platform trail (files.foldl (fun reached entry => expandEntry entry reached) trail) := by
  induction files generalizing trail with
  | nil => exact Grows.refl trail
  | cons entry rest ih => exact (entries entry trail).trans (ih (expandEntry entry trail))

variable (platform) in
/-- The directives of a text come in the order of their line numbers. -/
theorem pairwise_tokenizeFrom (raw : List String) (number : Nat) :
    (tokenizeFrom platform number raw).Pairwise (fun early late => early.line < late.line) ∧
      ∀ d ∈ tokenizeFrom platform number raw, number ≤ d.line := by
  -- The number goes up with every line, whether the line is a directive or not.
  induction raw generalizing number with
  | nil => simp [tokenizeFrom]
  | cons line rest ih =>
    obtain ⟨ordered, later⟩ := ih (number + 1)
    rw [tokenizeFrom]
    cases tokenizeLine platform line with
    | none => exact ⟨ordered, fun d member => by have := later d member; omega⟩
    | some fields =>
      refine ⟨List.pairwise_cons.mpr ⟨later, ordered⟩, ?_⟩
      intro d member
      rcases List.mem_cons.mp member with rfl | member
      · exact Nat.le_refl number
      · have := later d member
        omega

/-- Line numbers do not repeat, so no directive does. -/
theorem nodup_tokenize (text : String) : (tokenize platform text).Nodup :=
  (pairwise_tokenizeFrom platform (Text.lines text) 1).1.imp fun early same => by
    rw [same] at early
    exact Nat.lt_irrefl _ early

variable (platform) in
/-- Since a file was entered, only its own directives and those of new files have been added. -/
structure Fills (path : String) (entered trail : Trail) (read : List Directive) : Prop where
  visited : entered.visited ⊆ trail.visited
  added : ∃ added, trail.events = entered.events ++ added ∧ (Nesting.items added).Nodup ∧
    ∀ setting ∈ Nesting.items added, (setting.file = path ∧ setting.directive ∈ read) ∨
      (visitKey platform setting.file ∉ entered.visited ∧
        visitKey platform setting.file ∈ trail.visited)

/-- An event that is no directive adds none. -/
theorem Fills.scope {path : String} {entered trail : Trail} {read : List Directive}
    (fills : Fills platform path entered trail read) (scope : Option (List String))
    (d : Directive) : Fills platform path entered (trail.push (.scope scope)) (read ++ [d]) := by
  -- Opening a scope is an event of its own, and the items stay what they were.
  obtain ⟨added, events, distinct, files⟩ := fills.added
  have same : Nesting.items (added ++ [Event.scope scope]) = Nesting.items added := by
    simp [Nesting.items_append, Nesting.items]
  refine ⟨fills.visited, added ++ [.scope scope], ?_, ?_, ?_⟩
  · rw [Trail.push, events, List.append_assoc]
  · rw [same]
    exact distinct
  · intro setting member
    rw [same] at member
    rcases files setting member with ⟨file, earlier⟩ | other
    · exact .inl ⟨file, List.mem_append_left _ earlier⟩
    · exact .inr other

/-- The file's next directive is none of those it has read. -/
theorem Fills.setting {path : String} {entered trail : Trail} {read : List Directive}
    (fills : Fills platform path entered trail read)
    (inside : visitKey platform path ∈ entered.visited) {d : Directive} (fresh : d ∉ read) :
    Fills platform path entered (trail.push (.item ⟨path, d⟩)) (read ++ [d]) := by
  obtain ⟨added, events, distinct, files⟩ := fills.added
  have more : Nesting.items (added ++ [Event.item ⟨path, d⟩]) =
      Nesting.items added ++ [⟨path, d⟩] := by
    rw [Nesting.items_append]
    rfl
  refine ⟨fills.visited, added ++ [.item ⟨path, d⟩], ?_, ?_, ?_⟩
  · rw [Trail.push, events, List.append_assoc]
  · rw [more, List.nodup_append]
    refine ⟨distinct, List.nodup_singleton _, ?_⟩
    intro setting member other last same
    rw [List.mem_singleton.mp last] at same
    -- A repetition would be a line read before, or a line of a file entered later.
    rcases files setting member with ⟨_, earlier⟩ | ⟨outside, _⟩
    · exact fresh (by rw [same] at earlier; exact earlier)
    · exact outside (by rw [same]; exact inside)
  · intro setting member
    rw [more, List.mem_append, List.mem_singleton] at member
    rcases member with old | rfl
    · rcases files setting old with ⟨file, earlier⟩ | other
      · exact .inl ⟨file, List.mem_append_left _ earlier⟩
      · exact .inr other
    · exact .inl ⟨rfl, by simp⟩

/-- What included files add is none of the file's own directives. -/
theorem Fills.grow {path : String} {entered trail after : Trail} {read : List Directive}
    (fills : Fills platform path entered trail read)
    (inside : visitKey platform path ∈ entered.visited) (grows : Grows platform trail after)
    (d : Directive) : Fills platform path entered after (read ++ [d]) := by
  obtain ⟨front, frontEvents, frontDistinct, frontFiles⟩ := fills.added
  obtain ⟨back, backEvents, backDistinct, backFiles⟩ := grows.added
  refine ⟨List.Subset.trans fills.visited grows.visited, front ++ back, ?_, ?_, ?_⟩
  · rw [backEvents, frontEvents, List.append_assoc]
  · rw [Nesting.items_append, List.nodup_append]
    refine ⟨frontDistinct, backDistinct, ?_⟩
    intro setting inFront other inBack same
    rw [← same] at inBack
    apply (backFiles setting inBack).1
    -- Its own file was entered first of all, and so is none of those added.
    rcases frontFiles setting inFront with ⟨file, _⟩ | ⟨_, entered⟩
    · rw [file]
      exact fills.visited inside
    · exact entered
  · -- Each directive is of the file itself, or of one entered since.
    intro setting member
    rw [Nesting.items_append, List.mem_append] at member
    rcases member with inFront | inBack
    · rcases frontFiles setting inFront with ⟨file, earlier⟩ | ⟨outside, reached⟩
      · exact .inl ⟨file, List.mem_append_left _ earlier⟩
      · exact .inr ⟨outside, grows.visited reached⟩
    · exact .inr ⟨fun old => (backFiles setting inBack).1 (fills.visited old),
        (backFiles setting inBack).2⟩

/-- Reading on in a file adds each of its directives at most once. -/
theorem Fills.run {path : String} {entered : Trail}
    (inside : visitKey platform path ∈ entered.visited)
    {expandEntry : String → Trail → Trail}
    (entries : ∀ entry trail, Grows platform trail (expandEntry entry trail))
    (rest : List Directive) :
    ∀ (read : List Directive) (trail : Trail), (read ++ rest).Nodup →
      Fills platform path entered trail read →
      Fills platform path entered (rest.foldl (expandStep platform expandEntry path) trail)
        (read ++ rest) := by
  induction rest with
  | nil =>
    intro read trail _ fills
    rw [List.append_nil]
    exact fills
  | cons d rest ih =>
    intro read trail distinct fills
    -- A file is read once, so each of its lines comes up once.
    have fresh : d ∉ read := fun earlier =>
      (List.nodup_append.mp distinct).2.2 d earlier d List.mem_cons_self rfl
    rw [List.append_cons] at distinct ⊢
    rw [List.foldl_cons]
    apply ih (read ++ [d]) _ distinct
    rw [expandStep]
    -- Only an include adds more than the line itself.
    split
    · exact fills.scope _ d
    split
    · exact fills.scope _ d
    split
    · exact fills.grow inside (grows_entries entries _ trail) d
    · exact fills.setting inside fresh

/-- Writing a file out adds distinct directives of files that were not entered before. -/
theorem grows_expandWithin (budget : Nat) :
    ∀ path trail, Grows platform trail (expandWithin platform budget path trail) := by
  induction budget with
  | zero => exact fun _ trail => Grows.refl trail
  | succ budget ih =>
    intro path trail
    rw [expandWithin]
    by_cases seen : visitKey platform path ∈ trail.visited
    · rw [if_pos (List.contains_iff_mem.mpr seen)]
      exact Grows.refl trail
    rw [if_neg (mt List.contains_iff_mem.mp seen)]
    cases platform.readToString path with
    | none =>
      exact ⟨List.subset_cons_self _ _, [], by simp, List.nodup_nil, by simp [Nesting.items]⟩
    | some text =>
      -- The file counts as entered before its first line is read.
      let entered : Trail := { trail with visited := visitKey platform path :: trail.visited }
      have start : Fills platform path entered (entered.push .enter) [] :=
        ⟨List.Subset.refl _, [.enter], rfl, List.nodup_nil, by simp [Nesting.items]⟩
      have inside : visitKey platform path ∈ entered.visited := List.mem_cons_self
      -- From there each directive is added at most once.
      have filled := Fills.run inside ih (tokenize platform text) [] _
        (nodup_tokenize text) start
      obtain ⟨added, events, distinct, files⟩ := filled.added
      have same : Nesting.items (added ++ [Event.leave]) = Nesting.items added := by
        simp [Nesting.items_append, Nesting.items]
      refine ⟨fun key old => filled.visited (List.mem_cons_of_mem _ old), added ++ [.leave], ?_,
        ?_, ?_⟩
      · rw [← List.append_assoc]
        exact congrArg (fun front => front ++ [Event.leave]) events
      · rw [same]
        exact distinct
      · intro setting member
        rw [same] at member
        -- What was added is this file's own, or of one entered within it.
        rcases files setting member with ⟨file, _⟩ | ⟨outside, reached⟩
        · rw [file]
          exact ⟨seen, filled.visited inside⟩
        · exact ⟨fun old => outside (List.mem_cons_of_mem _ old), reached⟩

/-- No directive of a written-out config stands in it twice. -/
theorem nodup_expand (path : String) : (Nesting.items (expand platform path)).Nodup := by
  -- The trail starts empty, so all its items were added by the one call.
  have grown : Grows platform ⟨[], []⟩
      (expandWithin platform (maxIncludeDepth + 1) path ⟨[], []⟩) := grows_expandWithin _ path _
  obtain ⟨added, events, distinct, _⟩ := grown.added
  rw [List.nil_append] at events
  rw [expand, events]
  exact distinct

end Places

end Tern.SshConfig
