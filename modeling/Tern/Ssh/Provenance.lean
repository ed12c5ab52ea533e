import Tern.Ssh.FileEntries
import Tern.Ssh.Verdict

/-! Where trust comes from: every trusted key was learned or imported, and not removed since. -/

namespace Tern.KnownHosts

open Text

/-- A DNS name or an IP literal. -/
def ValidHost (host : String) : Prop :=
  host.toList ≠ [] ∧ ∀ c ∈ host.toList, hostChar c = true

/-- One call that may rewrite the file. -/
inductive FileOp (Key : Type) where
  | learn (host : String) (port : UInt16) (key : PublicKey Key) (hashed : Bool)
      (salt : Option (List UInt8))
  | remove (host : String) (port : UInt16)
  | importFrom (source : Disk)

/-- A key is only ever learned for a host that was connected to by name or address. -/
def FileOp.Valid {Key : Type} : FileOp Key → Prop
  | .learn host _ _ _ _ => ValidHost host
  | .remove _ _ => True
  | .importFrom _ => True

section Names

/-- A host character is a name character. -/
theorem nameChar_of_hostChar {c : Char} (valid : hostChar c = true) : nameChar c = true := by
  simp [nameChar, valid]

/-- No host holds a bracket. -/
theorem bracket_notMem {host : String} (valid : ValidHost host) :
    '[' ∉ host.toList ∧ ']' ∉ host.toList := by
  -- Neither bracket is a character that a host may have.
  refine ⟨?_, ?_⟩
  · intro inside
    exact absurd (valid.2 _ inside) (by decide)
  · intro inside
    exact absurd (valid.2 _ inside) (by decide)

/-- The characters of a bracketed name. -/
theorem matchTarget_bracketed (host : String) {port : UInt16} (custom : port ≠ 22) :
    (matchTarget host port).toList =
      '[' :: (host.toList ++ ']' :: ':' :: (toString port.toNat).toList) := by
  simp [matchTarget, custom]

/-- A valid host is recorded under a plain name, whatever its port. -/
theorem plainName_matchTarget {host : String} (valid : ValidHost host) (port : UInt16) :
    PlainName (matchTarget host port) := by
  by_cases standard : port = 22
  · -- On the standard port the recorded name is the host itself.
    rw [matchTarget, if_pos standard]
    exact ⟨valid.1, fun c inside => nameChar_of_hostChar (valid.2 c inside)⟩
  · -- Otherwise brackets, a colon and the port surround the host.
    rw [PlainName, matchTarget_bracketed host standard]
    refine ⟨by simp, ?_⟩
    intro c inside
    simp only [List.mem_cons, List.mem_append] at inside
    rcases inside with rfl | inHost | rfl | rfl | digit
    · decide
    · exact nameChar_of_hostChar (valid.2 c inHost)
    · decide
    · decide
    · -- The port is written in decimal digits.
      have isDigit : c.isDigit = true := isDigit_of_mem_repr digit
      simp [nameChar, hostChar, Char.isAlphanum, isDigit]

/-- A recorded name tells its host and its port. -/
theorem matchTarget_inj {left right : String} {leftPort rightPort : UInt16}
    (leftValid : ValidHost left) (rightValid : ValidHost right)
    (same : matchTarget left leftPort = matchTarget right rightPort) :
    left = right ∧ leftPort = rightPort := by
  by_cases leftStandard : leftPort = 22
  · by_cases rightStandard : rightPort = 22
    · -- Two bare names are equal hosts on the standard port.
      rw [matchTarget, matchTarget, if_pos leftStandard, if_pos rightStandard] at same
      exact ⟨same, leftStandard.trans rightStandard.symm⟩
    · -- A bare name cannot be a bracketed one.
      have chars := congrArg String.toList same
      rw [matchTarget, if_pos leftStandard, matchTarget_bracketed right rightStandard] at chars
      exact absurd (by rw [chars]; exact List.mem_cons_self) (bracket_notMem leftValid).1
  · by_cases rightStandard : rightPort = 22
    · have chars := congrArg String.toList same
      rw [matchTarget_bracketed left leftStandard, matchTarget, if_pos rightStandard] at chars
      -- Nor the other way round.
      exact absurd (by rw [← chars]; exact List.mem_cons_self) (bracket_notMem rightValid).1
    · have chars := congrArg String.toList same
      rw [matchTarget_bracketed left leftStandard, matchTarget_bracketed right rightStandard,
        List.cons.injEq] at chars
      -- Both hosts end at their first closing bracket, and the ports follow it.
      obtain ⟨hosts, ports⟩ := append_cons_inj (bracket_notMem leftValid).2
        (bracket_notMem rightValid).2 chars.2
      have numbers := repr_inj (List.cons.inj ports).2
      exact ⟨String.toList_injective hosts, UInt16.toNat_inj.mp numbers⟩

/-- A bare host is a recorded name only for the standard port. -/
theorem host_eq_matchTarget {host other : String} {port : UInt16} (valid : ValidHost host)
    (same : host = matchTarget other port) : host = other ∧ port = 22 := by
  by_cases standard : port = 22
  · rw [matchTarget, if_pos standard] at same
    exact ⟨same, standard⟩
  · -- A bracketed name starts with a character that no host holds.
    have chars := congrArg String.toList same
    rw [matchTarget_bracketed other standard] at chars
    exact absurd (by rw [chars]; exact List.mem_cons_self) (bracket_notMem valid).1

/-- A plain pattern names exactly the host it spells. -/
theorem namesList_plain {name target host : String} (plain : PlainName name)
    (names : NamesList target host [name]) : target = name ∨ host = name := by
  obtain ⟨⟨pattern, member, -, globs⟩, -⟩ := names
  rw [List.mem_singleton] at member
  subst member
  -- Neither wildcard can stand in a plain name.
  have star : '*' ∉ pattern.toList := by
    intro inside
    exact (nameChar_plain (plain.2 _ inside)).2 (by decide)
  have any : '?' ∉ pattern.toList := by
    intro inside
    exact (nameChar_plain (plain.2 _ inside)).2 (by decide)
  -- Without wildcards the glob is an equality test.
  have literal : ∀ value : String, globMatch pattern value = true → value = pattern := by
    intro value matched
    exact String.toList_injective ((Wildcard.isMatch_literal (by decide) star any).mp matched)
  rcases globs with bracketed | bare
  · exact .inl (literal target bracketed)
  · exact .inr (literal host bare)

end Names

section Learned

variable {Key : Type} {crates : Crates Key}

/-- The encoded key ends a line visibly, and holds no line feed. -/
theorem keyPart_visible {key : PublicKey Key} {part : String}
    (encoded : opensshKeyPart crates key = .ok part) :
    '\n' ∉ part.toList ∧ ∃ last, part.toList.getLast? = some last ∧ isWhitespace last = false := by
  unfold opensshKeyPart at encoded
  split at encoded
  · cases encoded
  · rename_i line _
    split at encoded
    · rename_i alg data rest fields
      cases encoded
      -- Both parts are white-space separated fields, so neither holds a blank or a line feed.
      have first : alg ∈ splitWhitespace line := by simp [fields]
      have second : data ∈ splitWhitespace line := by simp [fields]
      obtain ⟨_, algVisible⟩ := visible_of_mem_splitWhitespace first
      obtain ⟨occupied, dataVisible⟩ := visible_of_mem_splitWhitespace second
      refine ⟨?_, data.toList.getLast occupied, ?_, dataVisible _ (List.getLast_mem occupied)⟩
      · intro feed
        simp only [String.toList_append, List.mem_append] at feed
        rcases feed with (inAlg | blank) | inData
        · exact absurd (algVisible _ inAlg) (by decide)
        · exact absurd blank (by decide)
        · exact absurd (dataVisible _ inData) (by decide)
      · -- The part ends as its second field does.
        rw [String.toList_append, List.getLast?_append_of_ne_nil _ occupied,
          List.getLast?_eq_getLast_of_ne_nil occupied]
    · cases encoded

/-- A learned line opens visibly, is no comment, and holds no line feed. -/
theorem learnedPattern_visible (laws : CrateLaws crates) {host : String} (valid : ValidHost host)
    (port : UInt16) (hashed : Bool) (salt : Option (List UInt8)) :
    '\n' ∉ (learnedPattern crates host port hashed salt).toList ∧
      ∃ first, (learnedPattern crates host port hashed salt).toList.head? = some first ∧
        isWhitespace first = false ∧ first ≠ '#' := by
  have plain := plainName_matchTarget valid port
  -- The plain form is a name, whose characters are all harmless.
  have bare : '\n' ∉ (matchTarget host port).toList ∧
      ∃ first, (matchTarget host port).toList.head? = some first ∧
        isWhitespace first = false ∧ first ≠ '#' := by
    refine ⟨fun feed => absurd (nameChar_plain (plain.2 _ feed)).1 (by decide), ?_⟩
    obtain ⟨first, rest, chars⟩ := List.exists_cons_of_ne_nil plain.1
    -- A name opens with a character of a name, which is no comment sign.
    have named := nameChar_plain (plain.2 first (by simp [chars]))
    refine ⟨first, by simp [chars], named.1, ?_⟩
    intro comment
    exact named.2 (by simp [comment, specialChars])
  unfold learnedPattern
  dsimp only
  split
  · -- Hashing replaces the name unless there is no salt to hash with.
    cases salt with
    | none => exact bare
    | some salt =>
      refine ⟨?_, '|', by simp [hashPattern], by decide, by decide⟩
      intro feed
      simp only [hashPattern, String.toList_append, List.mem_append] at feed
      rcases feed with ((opening | salted) | bar) | digest
      · exact absurd opening (by decide)
      · exact absurd (laws.visibleBase64 _ _ salted) (by decide)
      · exact absurd bar (by decide)
      · exact absurd (laws.visibleBase64 _ _ digest) (by decide)
  · exact bare

/-- A learned line is one line, and reaches the parser as it was written. -/
theorem learnedLine_parse (laws : CrateLaws crates) {host : String} (valid : ValidHost host)
    (port : UInt16) {key : PublicKey Key} (hashed : Bool) (salt : Option (List UInt8))
    {part : String} (encoded : opensshKeyPart crates key = .ok part) :
    '\n' ∉ (learnedPattern crates host port hashed salt ++ " " ++ part).toList ∧
      parseEntry crates (learnedPattern crates host port hashed salt ++ " " ++ part) =
        crates.parse (learnedPattern crates host port hashed salt ++ " " ++ part) := by
  obtain ⟨patternSingle, first, front, visible, uncommented⟩ :=
    learnedPattern_visible laws valid port hashed salt
  obtain ⟨partSingle, last, back, lastVisible⟩ := keyPart_visible encoded
  refine ⟨by simp [patternSingle, partSingle], ?_⟩
  have head : (learnedPattern crates host port hashed salt ++ " " ++ part).toList.head? =
      some first := by
    simp [front]
  have tail : (learnedPattern crates host port hashed salt ++ " " ++ part).toList.getLast? =
      some last := by
    have occupied : part.toList ≠ [] := by
      intro empty
      simp [empty] at back
    rw [String.toList_append, List.getLast?_append_of_ne_nil _ occupied, back]
  -- Visible at both ends, the line is not shortened before it is parsed.
  have trimmed : trim (learnedPattern crates host port hashed salt ++ " " ++ part) =
      learnedPattern crates host port hashed salt ++ " " ++ part := by
    rw [trim, trimChars_eq_self head tail visible lastVisible, String.ofList_toList]
  unfold parseEntry
  dsimp only
  rw [trimmed, head, if_neg]
  -- The first character is there, and does not start a comment.
  simp [uncommented]

/-- The entry a learned line holds names its host alone, and carries its key. -/
theorem learnedEntry_names (laws : CrateLaws crates) {host : String} (valid : ValidHost host)
    {port : UInt16} {key : PublicKey Key} {hashed : Bool} {salt : Option (List UInt8)}
    {part : String} (encoded : opensshKeyPart crates key = .ok part) {entry : Entry Key}
    (parsed :
      crates.parse (learnedPattern crates host port hashed salt ++ " " ++ part) = some entry)
    {other : String} {otherPort : UInt16} (otherValid : ValidHost other)
    (names : Names crates (matchTarget other otherPort) other entry) :
    host = other ∧ (port = otherPort ∨ port = 22) ∧ entry.publicKey.keyData = key.keyData := by
  have plain := plainName_matchTarget valid port
  -- A plain line names its own target, or the bare host of the standard port.
  have bare : crates.parse (matchTarget host port ++ " " ++ part) = some entry →
      host = other ∧ (port = otherPort ∨ port = 22) ∧ entry.publicKey.keyData = key.keyData := by
    intro parsed
    obtain ⟨comment, reads⟩ := laws.readsPlain _ key part plain encoded
    rw [reads, Option.some.injEq] at parsed
    subst parsed
    -- The pattern equals the full target, or the bare host beside it.
    rcases namesList_plain plain names with target | host'
    · obtain ⟨same, ports⟩ := matchTarget_inj otherValid valid target
      exact ⟨same.symm, .inl ports.symm, rfl⟩
    · obtain ⟨same, standard⟩ := host_eq_matchTarget otherValid host'
      exact ⟨same.symm, .inr standard, rfl⟩
  unfold learnedPattern at parsed
  dsimp only at parsed
  split at parsed
  · cases salt with
    | none => exact bare parsed
    | some salt =>
      -- A hashed line names only the target whose hash it holds.
      obtain ⟨comment, reads⟩ := laws.readsHashed (matchTarget host port) salt key part encoded
      rw [reads, Option.some.injEq] at parsed
      subst parsed
      have target := laws.hmacInjective _ _ _ names
      obtain ⟨same, ports⟩ := matchTarget_inj otherValid valid target
      exact ⟨same.symm, .inl ports.symm, rfl⟩
  · exact bare parsed

end Learned

section History

variable {Key : Type} (crates : Crates Key)

/-- The file after one call, where a failed call leaves it as it was. -/
def exec (file : Disk) (op : FileOp Key) : Disk :=
  match op with
  | .learn host port key hashed salt =>
    match learn crates file host port key hashed salt with
    | .ok after => after
    | .error _ => file
  | .remove host port =>
    match remove crates file host port with
    | .ok (_, after) => after
    | .error _ => file
  | .importFrom source =>
    match importFrom crates file source with
    | .ok (_, after) => after
    | .error _ => file

/-- The file after a sequence of calls. -/
def run (start : Disk) (ops : List (FileOp Key)) : Disk :=
  ops.foldl (exec crates) start

/-- A call wrote a line that holds this entry. -/
def Wrote (op : FileOp Key) (entry : Entry Key) : Prop :=
  match op with
  | .learn host port key hashed salt => ∃ part, opensshKeyPart crates key = .ok part ∧
      crates.parse (learnedPattern crates host port hashed salt ++ " " ++ part) = some entry
  | .remove _ _ => False
  | .importFrom source => entry ∈ fileEntries crates source

/-- A call removes every line that holds this entry. -/
def Drops (op : FileOp Key) (entry : Entry Key) : Prop :=
  match op with
  | .learn _ _ _ _ _ => False
  | .remove host port => Names crates (matchTarget host port) host entry
  | .importFrom _ => False

/-- One call keeps an entry it does not drop, and brings only entries it wrote. -/
theorem exec_entries (laws : CrateLaws crates) {op : FileOp Key} (valid : op.Valid) {file : Disk}
    {entry : Entry Key} (member : entry ∈ fileEntries crates (exec crates file op)) :
    (entry ∈ fileEntries crates file ∧ ¬Drops crates op entry) ∨ Wrote crates op entry := by
  cases op with
  -- Learning keeps what was there and adds one line.
  | learn host port key hashed salt =>
    cases learned : learn crates file host port key hashed salt with
    | error reason =>
      simp only [exec, learned] at member
      exact .inl ⟨member, id⟩
    | ok after =>
      simp only [exec, learned] at member
      cases encoded : opensshKeyPart crates key with
      | error reason => simp [learn, encoded, Bind.bind, Except.bind] at learned
      | ok part =>
        obtain ⟨single, parses⟩ := learnedLine_parse laws valid port hashed salt encoded
        rw [learn_entries crates encoded single learned, List.mem_append] at member
        rcases member with old | new
        · exact .inl ⟨old, id⟩
        · -- The one new line is the one this call wrote.
          rw [parses, Option.mem_toList] at new
          exact .inr ⟨part, encoded, new⟩
  | remove host port =>
    cases done : remove crates file host port with
    | error reason =>
      -- Removal only fails on a file that cannot be read, which shows no entries.
      simp only [exec, done] at member
      cases file with
      | missing => simp [fileEntries] at member
      | unreadable reason => simp [fileEntries] at member
      | text contents => simp [remove, read, Bind.bind, Except.bind, Pure.pure, Except.pure] at done
    | ok result =>
      simp only [exec, done] at member
      rw [remove_entries crates done, List.mem_filter] at member
      refine .inl ⟨member.1, ?_⟩
      -- What removal drops is exactly what the host names.
      intro names
      have kept := member.2
      rw [entryMatches, (patternsMatch_iff crates _ _ entry).mpr names] at kept
      cases kept
  | importFrom source =>
    cases imported : importFrom crates file source with
    | error reason =>
      simp only [exec, imported] at member
      exact .inl ⟨member, id⟩
    | ok result =>
      simp only [exec, imported] at member
      rw [import_entries crates imported, List.mem_append] at member
      rcases member with old | new
      · -- An import leaves all that was there.
        exact .inl ⟨old, id⟩
      · -- What an import appends stands in its source.
        have first := ((FirstSeen.mem_keep _).mp new).2
        exact .inr (List.mem_filter.mp (List.mem_of_find?_eq_some first)).1

/-- Every entry of the file was written by some call, and dropped by none after it. -/
theorem run_origin (laws : CrateLaws crates) {start : Disk} (empty : read start = .ok "")
    {ops : List (FileOp Key)} (valid : ∀ op ∈ ops, op.Valid) {entry : Entry Key}
    (member : entry ∈ fileEntries crates (run crates start ops)) :
    ∃ before op after, ops = before ++ op :: after ∧ Wrote crates op entry ∧
      ∀ later ∈ after, ¬Drops crates later entry := by
  -- The induction is on the calls from the last one back.
  induction ops using List.reverseRecOn with
  | nil =>
    -- An empty file has no entry.
    rw [run, List.foldl_nil, fileEntries_of_read crates empty] at member
    simp [entriesOf, lines, lineChunks] at member
  | append_singleton ops op ih =>
    rw [run, List.foldl_append, List.foldl_cons, List.foldl_nil] at member
    rcases exec_entries crates laws (valid op (by simp)) member with ⟨old, kept⟩ | wrote
    · -- An older entry keeps its origin, and the last call did not drop it.
      obtain ⟨before, origin, after, split, wrote, undropped⟩ :=
        ih (fun earlier inside => valid earlier (by simp [inside])) old
      refine ⟨before, origin, after ++ [op], by simp [split], wrote, ?_⟩
      intro later inside
      rcases List.mem_append.mp inside with early | last
      · exact undropped later early
      · rw [List.mem_singleton.mp last]
        exact kept
    · -- A new entry was written by the last call itself.
      exact ⟨ops, op, [], by simp, wrote, by simp⟩

/-- A call that grants trust in a key for a host, through the entry it wrote. -/
def Grants (op : FileOp Key) (host : String) (port : UInt16) (key : PublicKey Key)
    (entry : Entry Key) : Prop :=
  Wrote crates op entry ∧
    match op with
    | .learn learnedHost learnedPort learnedKey _ _ =>
      learnedHost = host ∧ (learnedPort = port ∨ learnedPort = 22) ∧
        learnedKey.keyData = key.keyData
    | .remove _ _ => False
    | .importFrom _ => Trusts crates (matchTarget host port) host key entry

/-- A trusting verdict rests on an entry that trusts the offered key. -/
theorem exists_trusts_of_verify [DecidableEq Key] {file : Disk} {host : String} {port : UInt16}
    {key : PublicKey Key} (trusted : verify crates file host port key = .ok .trusted) :
    ∃ entry ∈ fileEntries crates file, Trusts crates (matchTarget host port) host key entry := by
  cases readable : read file with
  | error reason => simp [verify, readable, Bind.bind, Except.bind] at trusted
  | ok contents =>
    simp only [verify, readable, Bind.bind, Except.bind, Pure.pure, Except.pure, Except.ok.injEq]
      at trusted
    -- The verdict is the loop's over the entries of the file.
    rw [fileEntries_of_read crates readable, ← parsedEntries_entries]
    rw [verifyEntries_eq] at trusted
    split at trusted
    · rename_i entry found
      -- The entry that ended the loop is not a revocation, so it holds the offered key.
      have decided := (decisive_iff crates _ _ _ entry).mp (List.find?_some found)
      rcases decided with revokes | trusts
      · simp [decisiveVerdict, revokes.2] at trusted
      · exact ⟨entry.2, List.mem_map.mpr ⟨entry, List.mem_of_find?_eq_some found, rfl⟩, trusts⟩
    · -- Without such an entry the loop only ever answers changed or unknown.
      cases found : (parsedEntries crates contents).find?
          (contradicting crates (matchTarget host port) host key) with
      | none => simp [found] at trusted
      | some entry => simp [found, changedVerdict] at trusted

/--
Every trusted key was granted, by learning it or by importing a line that trusts it,
and no removal since then names the line that was written.
-/
theorem trusted_provenance [DecidableEq Key] (laws : CrateLaws crates) {start : Disk}
    (empty : read start = .ok "") {ops : List (FileOp Key)} (valid : ∀ op ∈ ops, op.Valid)
    {host : String} (hostValid : ValidHost host) {port : UInt16} {key : PublicKey Key}
    (trusted : verify crates (run crates start ops) host port key = .ok .trusted) :
    ∃ before op after entry, ops = before ++ op :: after ∧
      Grants crates op host port key entry ∧ ∀ later ∈ after, ¬Drops crates later entry := by
  -- The verdict points at an entry, and the history at the call that wrote it.
  obtain ⟨entry, member, trusts⟩ := exists_trusts_of_verify crates trusted
  obtain ⟨before, op, after, split, wrote, undropped⟩ := run_origin crates laws empty valid member
  refine ⟨before, op, after, entry, split, ⟨wrote, ?_⟩, undropped⟩
  have opValid := valid op (by simp [split])
  cases op with
  | learn learnedHost learnedPort learnedKey hashed salt =>
    -- The learned line names one host, and the verdict found it under the offered one.
    obtain ⟨part, encoded, parsed⟩ := wrote
    obtain ⟨hosts, ports, keys⟩ :=
      learnedEntry_names laws opValid encoded parsed hostValid trusts.1
    exact ⟨hosts, ports, keys.symm.trans trusts.2.2⟩
  | remove _ _ => exact wrote
  | importFrom source => exact trusts

end History

/-- Learning the fixture key into a file that is not there yet writes the trusting line. -/
theorem learn_trustingLine : run Reference.crates .missing
    [.learn "plain.example.com" 22 ⟨Reference.hostKeyA, "host-a"⟩ false none,
      .importFrom .missing] = .text Reference.trustingLine := by
  decide +kernel

/-- The fixture key is trusted after it was learned, and the learning is what granted it. -/
theorem trusted_provenance_learned :
    ∃ before op after entry,
      [.learn "plain.example.com" 22 ⟨Reference.hostKeyA, "host-a"⟩ false none,
        .importFrom .missing] = before ++ op :: after ∧
      Grants Reference.crates op "plain.example.com" 2222 ⟨Reference.hostKeyA, ""⟩ entry ∧
      ∀ later ∈ after, ¬Drops Reference.crates later entry := by
  apply trusted_provenance Reference.crates Reference.laws (rfl : read .missing = .ok "")
  · simp [FileOp.Valid, ValidHost, hostChar]
  · simp [ValidHost, hostChar]
  · -- A bare line also matches the host on another port.
    rw [learn_trustingLine]
    simp only [verify, read, Bind.bind, Except.bind, Reference.trustingLine_parsed]
    decide

end Tern.KnownHosts
