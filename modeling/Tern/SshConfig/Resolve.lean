import Tern.SshConfig.Expand

/-! What resolution yields for an alias, against the directives of the files in their order. -/

namespace Tern.SshConfig

open Nesting (Event Frame)

variable (platform : Platform)

section Winning

/-- The value that a directive under some patterns gives an alias for a setting. -/
def given (alias_ : String) (field : Field) (entry : List String × Setting) : Option field.Value :=
  if matchesFrom alias_ false entry.1 then field.obtained platform entry.2.directive else none

/-- Whether a directive under some patterns gives an alias a value for a setting. -/
def gives (alias_ : String) (field : Field) (entry : List String × Setting) : Bool :=
  (given platform alias_ field entry).isSome

/-- The directive that resolution takes a setting from, the first in the order of the stanzas. -/
def winning (path alias_ : String) (field : Field) : Option (List String × Setting) :=
  (Nesting.entriesOf (blocks platform path)).find? (gives platform alias_ field)

/-- The first directive to give a setting in file order, included files standing in place. -/
def firstInFileOrder (path alias_ : String) (field : Field) : Option (List String × Setting) :=
  (Nesting.textOrder [] (expand platform path)).find? (gives platform alias_ field)

/-- A block's stanza holds the first value that its directives give. -/
theorem get_stanzaOf (block : List String × List Setting) (field : Field) :
    (stanzaOf platform block).get field =
      block.2.findSome? fun setting => field.obtained platform setting.directive := by
  -- The fold starts from any stanza, whose own value comes first.
  have general : ∀ (settings : List Setting) (start : Stanza),
      (settings.foldl (fun stanza setting =>
        apply platform stanza setting.directive.keyword setting.directive.args) start).get field =
        (start.get field).or
          (settings.findSome? fun setting => field.obtained platform setting.directive) := by
    intro settings
    induction settings with
    | nil => intro start; simp
    | cons setting rest ih =>
      intro start
      rw [List.foldl_cons, ih, get_apply, List.findSome?_cons, Option.or_assoc]
      cases field.obtained platform setting.directive <;> rfl
  rw [stanzaOf, general, get_ofPatterns, Option.none_or]

/-- Merging within stanzas and then across them is one scan over the directives of all. -/
theorem get_resolve_entries (path alias_ : String) (field : Field) :
    ((parseFile platform path).resolve alias_).get field =
      (Nesting.entriesOf (blocks platform path)).findSome? (given platform alias_ field) := by
  rw [get_resolve, stanzas_parseFile, List.findSome?_map]
  -- Block by block, a stanza that matches contributes the first of its own values.
  induction blocks platform path with
  | nil => rfl
  | cons block rest ih =>
    have own : (block.2.map fun setting => (block.1, setting)).findSome?
        (given platform alias_ field) =
          if matchesFrom alias_ false block.1 then (stanzaOf platform block).get field
          else none := by
      rw [List.findSome?_map, get_stanzaOf]
      split
      · rename_i matched
        simp only [Function.comp_def, given, matched, if_true]
      · rename_i unmatched
        simp [Function.comp_def, given, unmatched]
    rw [List.findSome?_cons, Nesting.entriesOf, List.flatMap_cons, List.findSome?_append, own, ih]
    simp only [Function.comp_apply, Stanza.matches, patterns_stanzaOf]
    split <;> simp_all [Nesting.entriesOf]

/-- A first value is the value of the first entry that has one. -/
theorem findSome_given (alias_ : String) (field : Field) (entries : List (List String × Setting)) :
    entries.findSome? (given platform alias_ field) =
      (entries.find? (gives platform alias_ field)).bind (given platform alias_ field) := by
  -- An entry that gives nothing is passed over by both sides.
  induction entries with
  | nil => rfl
  | cons entry rest ih =>
    rw [List.findSome?_cons, List.find?_cons, gives]
    cases value : given platform alias_ field entry <;> simp [value, ih]

end Winning

section Flat

/-- The directives inside `Host` stanzas, each with the patterns of the line above it. -/
def enclosed : Option (List String) → List Directive → List (List String × Directive)
  | _, [] => []
  | current, d :: rest =>
    if d.keyword = "host" then enclosed (some d.args) rest
    -- A directive above the first `Host` line stands in no stanza.
    else (current.toList.map fun patterns => (patterns, d)) ++ enclosed current rest

open Classical in
/-- The value of the first directive that gives a setting under patterns that apply. -/
noncomputable def firstObtained (directives : List Directive) (alias_ : String) (field : Field) :
    Option field.Value :=
  (enclosed none directives).findSome? fun entry =>
    if Applies entry.1 alias_ then field.obtained platform entry.2 else none

/-- The event of a directive that includes nothing. -/
def eventOf (file : String) (d : Directive) : Event (List String) Setting :=
  if d.keyword = "host" then .scope (scopeOf d.args) else .item ⟨file, d⟩

/-- A text without `Include` and `Match` is written out directive by directive. -/
theorem expand_flat {path text : String} (readable : platform.readToString path = some text)
    (flat : ∀ d ∈ tokenize platform text, d.keyword ≠ "include" ∧ d.keyword ≠ "match") :
    expand platform path =
      .enter :: (tokenize platform text).map (eventOf path) ++ [.leave] := by
  -- Without includes each directive is one event, behind those of the lines above.
  have general : ∀ (directives : List Directive) (trail : Trail),
      (∀ d ∈ directives, d.keyword ≠ "include" ∧ d.keyword ≠ "match") →
      (directives.foldl (expandStep platform (expandWithin platform maxIncludeDepth) path)
        trail).events = trail.events ++ directives.map (eventOf path) := by
    intro directives
    induction directives with
    | nil => intro trail _; simp
    | cons d rest ih =>
      intro trail flat
      have own := flat d List.mem_cons_self
      have step : expandStep platform (expandWithin platform maxIncludeDepth) path trail d =
          trail.push (eventOf path d) := by
        rw [expandStep, if_neg own.1, if_neg own.2, eventOf]
        split <;> rfl
      rw [List.foldl_cons, ih _ fun d member => flat d (List.mem_cons_of_mem _ member), step]
      simp [Trail.push]
  -- The file itself is bracketed by its being entered and left.
  rw [expand, expandWithin, if_neg (by simp), readable]
  simp [Trail.push, general _ _ flat]

open Classical in
/-- Scanning the written-out text is scanning its enclosed directives. -/
theorem findSome_textOrder {alias_ : String} (starless : '*' ∉ alias_.toList) (path : String)
    (field : Field) (directives : List Directive) (current : Option (List String)) :
    (Nesting.textOrder [current.bind scopeOf] (directives.map (eventOf path))).findSome?
        (given platform alias_ field) =
      (enclosed current directives).findSome? fun entry =>
        if Applies entry.1 alias_ then field.obtained platform entry.2 else none := by
  induction directives generalizing current with
  | nil => rfl
  | cons d rest ih =>
    rw [List.map_cons, enclosed, eventOf]
    -- A `Host` line changes the scope on both sides, and any other line is looked at in it.
    by_cases host : d.keyword = "host"
    · rw [if_pos host, if_pos host, ← ih]
      rfl
    · rw [if_neg host, if_neg host, Nesting.textOrder, List.findSome?_append,
        List.findSome?_append, ih]
      congr 1
      cases current with
      | none => rfl
      | some patterns =>
        cases patterns with
        | nil =>
          -- A line without patterns opens no scope, and no alias falls under it.
          simp [scopeOf, Nesting.placed, Applies]
        | cons pattern others =>
          have own : given platform alias_ field (pattern :: others, ⟨path, d⟩) =
              if Applies (pattern :: others) alias_ then field.obtained platform d else none := by
            simp only [given, matchesFrom_iff starless]
          simp [scopeOf, Nesting.placed, own]

/-- Resolution is first-obtained-value-wins over the directives of the whole text. -/
theorem resolve_first_obtained (path text alias_ : String)
    (readable : platform.readToString path = some text)
    (flat : ∀ d ∈ tokenize platform text, d.keyword ≠ "include" ∧ d.keyword ≠ "match")
    (offered : alias_ ∈ (parseFile platform path).aliases) (field : Field) :
    ((parseFile platform path).resolve alias_).get field =
      firstObtained platform (tokenize platform text) alias_ field := by
  have silent : ∀ event ∈ (tokenize platform text).map (eventOf path),
      event ≠ .enter ∧ event ≠ .leave := by
    intro event member
    obtain ⟨d, _, rfl⟩ := List.mem_map.mp member
    rw [eventOf]
    split <;> simp
  -- The file is one text, so its directives close in the order they are written.
  have order : Nesting.entriesOf (blocks platform path) =
      Nesting.textOrder [none] ((tokenize platform text).map (eventOf path)) := by
    rw [← closingOrder_expand, expand_flat platform readable flat, List.cons_append, Nesting.run,
      List.foldl_cons, List.foldl_append, List.foldl_cons, List.foldl_nil, ← Nesting.run,
      Nesting.closingOrder_step _ (by simp)]
    exact Nesting.closingOrder_flat silent ⟨none, []⟩ []
  rw [get_resolve_entries, order, firstObtained,
    ← findSome_textOrder platform (starless_of_offered offered) path field _ none]
  rfl

/-- Two stanzas that both apply to one alias. -/
def overlappingStanzas : Platform where
  home := none
  userProfile := none
  unicodeLowercase := id
  canonicalize := some
  readToString path :=
    if path = "/c/config" then some "Host web\nPort x\nUser a\nHost *\nUser b\nPort 7\n" else none
  isFile path := path == "/c/config"
  readDir _ := none

/-- The unparsable port is passed over, and the wildcard stanza supplies one. -/
theorem resolve_first_obtained_overlapping :
    firstObtained overlappingStanzas
      (tokenize overlappingStanzas "Host web\nPort x\nUser a\nHost *\nUser b\nPort 7\n")
      "web" .port = some 7 := by
  rw [← resolve_first_obtained overlappingStanzas "/c/config" _ "web" rfl (by decide +kernel)
    (by decide +kernel) .port]
  decide +kernel

end Flat

section Order

/-- Included files keep their place for a setting exactly when none overtakes an open stanza. -/
theorem include_order_iff (path alias_ : String) (field : Field) :
    ((parseFile platform path).resolve alias_).get field =
        (winning platform path alias_ field).bind (given platform alias_ field) ∧
      (winning platform path alias_ field = firstInFileOrder platform path alias_ field ↔
        Nesting.Undisturbed (gives platform alias_ field) [] (expand platform path)) := by
  refine ⟨?_, ?_⟩
  · rw [get_resolve_entries, findSome_given, winning]
  · rw [winning, firstInFileOrder, ← closingOrder_expand]
    -- No directive stands twice in the text, which is what the general law asks for.
    exact Nesting.find_closingOrder_iff (expand platform path) ⟨[], []⟩ (nodup_expand path) rfl

/-- Two files, the second included from within a stanza of the first. -/
def nestedFiles : Platform where
  home := none
  userProfile := none
  unicodeLowercase := id
  canonicalize := some
  readToString path :=
    if path = "/c/config" then some "Host web\nUser a\nInclude extra\n"
    else if path = "/c/extra" then some "Host *\nUser b\n"
    else none
  isFile path := path == "/c/config" || path == "/c/extra"
  readDir _ := none

/-- The user set before the include loses to the one in the included file. -/
theorem include_overtakes_open_stanza :
    ((parseFile nestedFiles "/c/config").resolve "web").user = some "b" ∧
      (firstInFileOrder nestedFiles "/c/config" "web" .user).bind
        (given nestedFiles "web" .user) = some "a" := by
  decide +kernel

end Order

end Tern.SshConfig
