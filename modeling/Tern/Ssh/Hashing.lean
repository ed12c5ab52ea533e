import Tern.Ssh.Provenance

/-! Hashed names: when hiding the hosts of the file leaves every verdict as it was. -/

namespace Tern.KnownHosts

open Text

/-- One accepted key, with the salt that a hashed line would draw for it. -/
structure Learning (Key : Type) where
  host : String
  port : UInt16
  key : PublicKey Key
  salt : List UInt8

/-- The call that records an accepted key in one of the two forms. -/
def Learning.op {Key : Type} (hashed : Bool) (learning : Learning Key) : FileOp Key :=
  .learn learning.host learning.port learning.key hashed (some learning.salt)

/-- What a verdict says, without the line and the key it points at. -/
inductive VerdictKind where
  | trusted
  | unknown
  | changed
  | revoked
  deriving DecidableEq, Repr

/-- The kind of a verdict. -/
def HostKeyVerdict.kind : HostKeyVerdict → VerdictKind
  | .trusted => .trusted
  | .unknown => .unknown
  | .changed _ _ _ => .changed
  | .revoked _ => .revoked

section Lines

variable {Key : Type} {crates : Crates Key}

/-- Which queries the line of a learning answers: a hashed one only those of its own port. -/
def Learning.Answers (hashed : Bool) (learning : Learning Key) (host : String) (port : UInt16) :
    Prop :=
  learning.host = host ∧ (learning.port = port ∨ hashed = false ∧ learning.port = 22)

/-- A plain name is no negation. -/
theorem stripPrefix_plain {name : String} (plain : PlainName name) :
    stripPrefix '!' name = none := by
  unfold stripPrefix
  split
  · rfl
  · rename_i first rest chars
    rw [if_neg]
    -- The sign would have to be one of the name's characters.
    intro sign
    exact absurd (plain.2 '!' (by simp [chars, sign])) (by decide)

/-- A plain pattern names a query exactly when it spells its target or its bare host. -/
theorem namesList_plain_iff {name target host : String} (plain : PlainName name) :
    NamesList target host [name] ↔ target = name ∨ host = name := by
  refine ⟨namesList_plain plain, ?_⟩
  intro spelled
  have star : '*' ∉ name.toList := by
    intro inside
    exact (nameChar_plain (plain.2 _ inside)).2 (by decide)
  have any : '?' ∉ name.toList := by
    intro inside
    exact (nameChar_plain (plain.2 _ inside)).2 (by decide)
  -- Without wildcards a pattern matches its own text.
  have itself : globMatch name name = true :=
    (Wildcard.isMatch_literal (by decide) star any).mpr rfl
  refine ⟨⟨name, List.mem_singleton_self name, stripPrefix_plain plain, ?_⟩, ?_⟩
  · rcases spelled with rfl | rfl
    · exact .inl itself
    · exact .inr itself
  · intro pattern member negated negation
    rw [List.mem_singleton.mp member, stripPrefix_plain plain] at negation
    cases negation

/-- The line of a learning holds its key, unmarked, and answers the queries of its form. -/
theorem learning_entry (laws : CrateLaws crates) {learning : Learning Key}
    (valid : ValidHost learning.host) (hashed : Bool) {part : String}
    (encoded : opensshKeyPart crates learning.key = .ok part) :
    ∃ entry, crates.parse (learnedPattern crates learning.host learning.port hashed
        (some learning.salt) ++ " " ++ part) = some entry ∧
      entry.marker = none ∧ entry.publicKey.keyData = learning.key.keyData ∧
      ∀ host port, ValidHost host →
        (Names crates (matchTarget host port) host entry ↔ learning.Answers hashed host port) := by
  have plain := plainName_matchTarget valid learning.port
  cases hashed with
  | false =>
    -- The line in plain form is read back with the name as its only pattern.
    obtain ⟨comment, reads⟩ := laws.readsPlain _ learning.key part plain encoded
    refine ⟨_, reads, rfl, rfl, ?_⟩
    intro host port hostValid
    refine (namesList_plain_iff plain).trans ⟨?_, ?_⟩
    · -- The pattern is compared with the full target and with the bare host.
      intro spelled
      rcases spelled with target | bare
      · obtain ⟨hosts, ports⟩ := matchTarget_inj hostValid valid target
        exact ⟨hosts.symm, .inl ports.symm⟩
      · obtain ⟨hosts, standard⟩ := host_eq_matchTarget hostValid bare
        exact ⟨hosts.symm, .inr ⟨rfl, standard⟩⟩
    · intro answers
      rcases answers with ⟨rfl, rfl | ⟨-, standard⟩⟩
      · exact .inl rfl
      · right
        rw [matchTarget, if_pos standard]
  | true =>
    obtain ⟨comment, reads⟩ :=
      laws.readsHashed (matchTarget learning.host learning.port) learning.salt learning.key part
        encoded
    refine ⟨_, reads, rfl, rfl, ?_⟩
    intro host port hostValid
    refine ⟨?_, ?_⟩
    · -- A hash is only ever compared with that of the full target.
      intro names
      obtain ⟨hosts, ports⟩ := matchTarget_inj hostValid valid (laws.hmacInjective _ _ _ names)
      exact ⟨hosts.symm, .inl ports.symm⟩
    · intro answers
      rcases answers with ⟨rfl, rfl | ⟨plainly, -⟩⟩
      · exact (rfl : crates.hmacSha1 learning.salt _ = _)
      · cases plainly

end Lines

section Files

variable {Key : Type} (crates : Crates Key)

/-- The file that a sequence of learnings leaves, where none was before. -/
def learnedFile (hashed : Bool) (learnings : List (Learning Key)) : Disk :=
  run crates .missing (learnings.map (Learning.op hashed))

/-- The key of a learning could be encoded, so that its line was written. -/
def Learning.Recorded (learning : Learning Key) : Prop :=
  ∃ part, opensshKeyPart crates learning.key = .ok part

/-- The entry is what a learning's line holds. -/
structure LineOf (hashed : Bool) (learning : Learning Key) (entry : Entry Key) : Prop where
  recorded : learning.Recorded crates
  unmarked : entry.marker = none
  key : entry.publicKey.keyData = learning.key.keyData
  names : ∀ host port, ValidHost host →
    (Names crates (matchTarget host port) host entry ↔ learning.Answers hashed host port)

variable {crates}

/-- Learning writes a file that can be read again. -/
theorem learnedFile_readable (crates : Crates Key) (hashed : Bool)
    (learnings : List (Learning Key)) :
    ∃ contents, read (learnedFile crates hashed learnings) = .ok contents := by
  unfold learnedFile run
  -- The last learning is the one that wrote the file.
  induction learnings using List.reverseRecOn with
  | nil => exact ⟨"", rfl⟩
  | append_singleton learnings last ih =>
    rw [List.map_append, List.foldl_append]
    obtain ⟨contents, readable⟩ := ih
    simp only [List.map_cons, List.map_nil, List.foldl_cons, List.foldl_nil, Learning.op, exec]
    unfold learn
    cases opensshKeyPart crates last.key with
    | error reason => exact ⟨contents, readable⟩
    | ok part =>
      -- A call that succeeds leaves a text.
      simp only [readable, Bind.bind, Except.bind]
      exact ⟨_, rfl⟩

/-- A call adds the line of its learning, when its key can be encoded, and nothing else. -/
theorem exec_learning (laws : CrateLaws crates) {learning : Learning Key}
    (valid : ValidHost learning.host) (hashed : Bool) {file : Disk} {contents : String}
    (readable : read file = .ok contents) :
    (¬learning.Recorded crates ∧ exec crates file (learning.op hashed) = file) ∨
      ∃ entry, LineOf crates hashed learning entry ∧
        fileEntries crates (exec crates file (learning.op hashed)) =
          fileEntries crates file ++ [entry] := by
  -- A key that cannot be encoded is refused before anything is written.
  cases encoded : opensshKeyPart crates learning.key with
  | error reason =>
    left
    refine ⟨?_, ?_⟩
    · intro ⟨part, written⟩
      rw [encoded] at written
      cases written
    · simp [Learning.op, exec, learn, encoded, Bind.bind, Except.bind]
  | ok part =>
    right
    obtain ⟨entry, parsed, unmarked, key, names⟩ := learning_entry laws valid hashed encoded
    obtain ⟨single, parses⟩ :=
      learnedLine_parse laws valid learning.port hashed (some learning.salt) encoded
    -- With the key encoded and the file readable, learning succeeds.
    have learned : ∃ after, learn crates file learning.host learning.port learning.key hashed
        (some learning.salt) = .ok after := by
      simp [learn, encoded, readable, Bind.bind, Except.bind, Pure.pure, Except.pure]
    obtain ⟨after, learned⟩ := learned
    refine ⟨entry, ⟨⟨part, encoded⟩, unmarked, key, names⟩, ?_⟩
    simp only [Learning.op, exec, learned]
    rw [learn_entries crates encoded single learned, parses, parsed, Option.toList_some]

/-- The file of a sequence of learnings holds the lines of those that were recorded. -/
theorem mem_learnedFile (laws : CrateLaws crates) (hashed : Bool)
    (learnings : List (Learning Key)) (valid : ∀ learning ∈ learnings, ValidHost learning.host) :
    (∀ entry ∈ fileEntries crates (learnedFile crates hashed learnings),
      ∃ learning ∈ learnings, LineOf crates hashed learning entry) ∧
    ∀ learning ∈ learnings, learning.Recorded crates →
      ∃ entry ∈ fileEntries crates (learnedFile crates hashed learnings),
        LineOf crates hashed learning entry := by
  -- The induction is on the learnings from the last one back.
  induction learnings using List.reverseRecOn with
  | nil => simp [learnedFile, run, fileEntries]
  | append_singleton learnings last ih =>
    obtain ⟨origin, kept⟩ := ih fun learning inside => valid learning (by simp [inside])
    obtain ⟨contents, readable⟩ := learnedFile_readable crates hashed learnings
    have step : learnedFile crates hashed (learnings ++ [last]) =
        exec crates (learnedFile crates hashed learnings) (last.op hashed) := by
      simp [learnedFile, run]
    rw [step]
    rcases exec_learning laws (valid last (by simp)) hashed readable with
      ⟨unrecorded, same⟩ | ⟨entry, line, added⟩
    · rw [same]
      refine ⟨?_, ?_⟩
      · intro entry member
        obtain ⟨learning, inside, line⟩ := origin entry member
        exact ⟨learning, by simp [inside], line⟩
      · intro learning inside recorded
        rcases List.mem_append.mp inside with earlier | newest
        · exact kept learning earlier recorded
        · rw [List.mem_singleton.mp newest] at recorded
          exact absurd recorded unrecorded
    · rw [added]
      refine ⟨?_, ?_⟩
      · intro other member
        rcases List.mem_append.mp member with earlier | newest
        · -- An older line is of an older learning, and the new one of the last.
          obtain ⟨learning, inside, line⟩ := origin other earlier
          exact ⟨learning, by simp [inside], line⟩
        · rw [List.mem_singleton.mp newest]
          exact ⟨last, by simp, line⟩
      · intro learning inside recorded
        rcases List.mem_append.mp inside with earlier | newest
        · obtain ⟨other, member, line⟩ := kept learning earlier recorded
          exact ⟨other, List.mem_append_left _ member, line⟩
        · rw [List.mem_singleton.mp newest]
          exact ⟨entry, by simp, line⟩

end Files

section Verdicts

variable {Key : Type} (crates : Crates Key)

/-- Some recorded learning whose line answers the query has the property. -/
def Learned (hashed : Bool) (learnings : List (Learning Key)) (host : String) (port : UInt16)
    (stated : Learning Key → Prop) : Prop :=
  ∃ learning ∈ learnings, learning.Recorded crates ∧ learning.Answers hashed host port ∧
    stated learning

/-- The learning holds the offered key. -/
def Learning.SameKey (key : PublicKey Key) (learning : Learning Key) : Prop :=
  learning.key.keyData = key.keyData

/-- The learning holds a key of the offered algorithm. -/
def Learning.SameAlgorithm (key : PublicKey Key) (learning : Learning Key) : Prop :=
  crates.algorithm learning.key.keyData = crates.algorithm key.keyData

variable {crates}

/-- The numbered entries say of themselves what the learnings say. -/
theorem holds_learned_iff (laws : CrateLaws crates) {hashed : Bool}
    {learnings : List (Learning Key)} (valid : ∀ learning ∈ learnings, ValidHost learning.host)
    {contents : String} (readable : read (learnedFile crates hashed learnings) = .ok contents)
    {host : String} (hostValid : ValidHost host) (port : UInt16) {stated : Entry Key → Prop}
    {learned : Learning Key → Prop}
    (agrees : ∀ learning entry, LineOf crates hashed learning entry →
      (stated entry ↔ Names crates (matchTarget host port) host entry ∧ learned learning)) :
    Holds (parsedEntries crates contents) stated ↔
      Learned crates hashed learnings host port learned := by
  -- Every entry is the line of a learning that was recorded, and every such learning has its line.
  obtain ⟨origin, kept⟩ := mem_learnedFile laws hashed learnings valid
  rw [fileEntries_of_read crates readable, ← parsedEntries_entries] at origin kept
  refine ⟨?_, ?_⟩
  · intro ⟨numbered, member, holds⟩
    obtain ⟨learning, inside, line⟩ := origin numbered.2 (List.mem_map_of_mem member)
    obtain ⟨names, held⟩ := (agrees learning _ line).mp holds
    exact ⟨learning, inside, line.recorded, (line.names host port hostValid).mp names, held⟩
  · intro ⟨learning, inside, recorded, answers, holds⟩
    obtain ⟨entry, member, line⟩ := kept learning inside recorded
    obtain ⟨numbered, listed, rfl⟩ := List.mem_map.mp member
    exact ⟨numbered, listed, (agrees learning _ line).mpr
      ⟨(line.names host port hostValid).mpr answers, holds⟩⟩

/-- What a file of learnings answers a query, by the learnings whose lines answer it. -/
theorem verify_learnedFile [DecidableEq Key] (laws : CrateLaws crates) (hashed : Bool)
    {learnings : List (Learning Key)} (valid : ∀ learning ∈ learnings, ValidHost learning.host)
    {host : String} (hostValid : ValidHost host) (port : UInt16) (key : PublicKey Key) :
    ∃ verdict, verify crates (learnedFile crates hashed learnings) host port key = .ok verdict ∧
      (verdict.kind = .trusted ↔
        Learned crates hashed learnings host port (Learning.SameKey key)) ∧
      (verdict.kind = .changed ↔
        ¬Learned crates hashed learnings host port (Learning.SameKey key) ∧
          Learned crates hashed learnings host port (Learning.SameAlgorithm crates key)) ∧
      verdict.kind ≠ .revoked := by
  obtain ⟨contents, readable⟩ := learnedFile_readable crates hashed learnings
  have holds (stated : Entry Key → Prop) (learned : Learning Key → Prop)
      (agrees : ∀ learning entry, LineOf crates hashed learning entry →
        (stated entry ↔ Names crates (matchTarget host port) host entry ∧ learned learning)) :
      Holds (parsedEntries crates contents) stated ↔
        Learned crates hashed learnings host port learned :=
    holds_learned_iff laws valid readable hostValid port agrees
  -- No learned line carries a marker, so nothing is revoked.
  have unrevoked : ¬Holds (parsedEntries crates contents)
      (Revokes crates (matchTarget host port) host) := by
    rw [holds _ fun _ => False]
    · rintro ⟨learning, _, _, _, impossible⟩
      exact impossible
    · intro learning entry line
      simp [Revokes, line.unmarked]
  -- An entry of the offered key trusts it.
  have trusts : Holds (parsedEntries crates contents)
      (Trusts crates (matchTarget host port) host key) ↔
        Learned crates hashed learnings host port (Learning.SameKey key) := by
    apply holds
    intro learning entry line
    simp [Trusts, line.unmarked, line.key, Learning.SameKey]
  -- An entry of another key of the algorithm contradicts it.
  have contradicts : Holds (parsedEntries crates contents)
      (Contradicts crates (matchTarget host port) host key) ↔
        Learned crates hashed learnings host port fun learning =>
          learning.SameAlgorithm crates key ∧ ¬learning.SameKey key := by
    apply holds
    intro learning entry line
    simp [Contradicts, line.unmarked, line.key, Learning.SameKey, Learning.SameAlgorithm]
  -- Without revocations the order of the lines does not matter.
  have contract := (verifyEntries_contract_iff crates (matchTarget host port) host key
    (parsedEntries crates contents)).mpr fun _ entry after split _ later =>
      absurd (by
        obtain ⟨other, inside, revokes⟩ := later
        exact ⟨other, by simp [split, inside], revokes⟩) unrevoked
  refine ⟨_, by simp only [verify, readable, Bind.bind, Except.bind]; rfl, ?_, ?_, ?_⟩
  · rw [← trusts]
    refine Iff.trans ?_ (contract.trusted.trans (and_iff_right unrevoked))
    cases verifyEntries crates (matchTarget host port) host key (parsedEntries crates contents)
      none <;> simp [HostKeyVerdict.kind]
  · -- With no line for the offered key, every other of its algorithm contradicts it.
    have others : ¬Learned crates hashed learnings host port (Learning.SameKey key) →
        ((Learned crates hashed learnings host port fun learning =>
          learning.SameAlgorithm crates key ∧ ¬learning.SameKey key) ↔
        Learned crates hashed learnings host port (Learning.SameAlgorithm crates key)) := by
      intro absent
      refine ⟨?_, ?_⟩
      · rintro ⟨learning, inside, recorded, answers, same, _⟩
        exact ⟨learning, inside, recorded, answers, same⟩
      · rintro ⟨learning, inside, recorded, answers, same⟩
        refine ⟨learning, inside, recorded, answers, same, ?_⟩
        intro offered
        exact absent ⟨learning, inside, recorded, answers, offered⟩
    rw [← and_congr_right others, ← trusts, ← contradicts]
    refine Iff.trans ?_ (contract.changed.trans (and_iff_right unrevoked))
    cases verifyEntries crates (matchTarget host port) host key (parsedEntries crates contents)
      none <;> simp [HostKeyVerdict.kind]
  · intro revoked
    apply unrevoked
    apply contract.revoked.mp
    revert revoked
    cases verifyEntries crates (matchTarget host port) host key (parsedEntries crates contents)
      none <;> simp [HostKeyVerdict.kind]

variable (crates) in
/-- A learning for exactly this host and port was recorded and has the property. -/
def RecordedFor (learnings : List (Learning Key)) (host : String) (port : UInt16)
    (stated : Learning Key → Prop) : Prop :=
  ∃ learning ∈ learnings, learning.Recorded crates ∧ learning.host = host ∧
    learning.port = port ∧ stated learning

/-- Hashed lines answer for their own port alone. -/
theorem learned_hashed_iff (learnings : List (Learning Key)) (host : String) (port : UInt16)
    (stated : Learning Key → Prop) :
    Learned crates true learnings host port stated ↔
      RecordedFor crates learnings host port stated := by
  simp [Learned, RecordedFor, Learning.Answers, and_assoc]

/-- Plain lines of the default port answer for every port beside their own. -/
theorem learned_plain_iff (learnings : List (Learning Key)) (host : String) (port : UInt16)
    (stated : Learning Key → Prop) :
    Learned crates false learnings host port stated ↔
      RecordedFor crates learnings host port stated ∨
        RecordedFor crates learnings host 22 stated := by
  -- A plain name stands for its own port, and without a port for the default one.
  refine ⟨?_, ?_⟩
  · intro ⟨learning, inside, recorded, ⟨hosts, ports⟩, holds⟩
    rcases ports with own | ⟨-, standard⟩
    · exact .inl ⟨learning, inside, recorded, hosts, own, holds⟩
    · exact .inr ⟨learning, inside, recorded, hosts, standard, holds⟩
  · intro either
    rcases either with ⟨learning, inside, recorded, hosts, own, holds⟩ |
      ⟨learning, inside, recorded, hosts, standard, holds⟩
    · exact ⟨learning, inside, recorded, ⟨hosts, .inl own⟩, holds⟩
    · exact ⟨learning, inside, recorded, ⟨hosts, .inr ⟨rfl, standard⟩⟩, holds⟩

variable (crates) in
/-- The plain and the hashed file of the same learnings give verdicts of the same kind. -/
def SameVerdict [DecidableEq Key] (learnings : List (Learning Key)) (host : String)
    (port : UInt16) (key : PublicKey Key) : Prop :=
  ∃ plain hidden,
    verify crates (learnedFile crates false learnings) host port key = .ok plain ∧
    verify crates (learnedFile crates true learnings) host port key = .ok hidden ∧
    plain.kind = hidden.kind

/-- What the default port adds to trust and to change, as a matter of logic alone. -/
theorem port_alone_iff {key standardKey algorithm standardAlgorithm : Prop}
    (keyed : key → algorithm) :
    ((key ∨ standardKey ↔ key) ∧
        (¬(key ∨ standardKey) ∧ (algorithm ∨ standardAlgorithm) ↔ ¬key ∧ algorithm)) ↔
      (standardKey → key) ∧ (standardAlgorithm → algorithm) := by
  -- Where the key is trusted already, nothing that is added changes either verdict.
  by_cases trusted : key
  · simp [trusted, keyed trusted]
  · by_cases standardTrusted : standardKey
    · simp [trusted, standardTrusted]
    · simp [trusted, standardTrusted]

/--
Hashing the names keeps a verdict exactly when port 22 has nothing to add to the queried port:
neither the offered key nor a key of its algorithm was recorded for the host on port 22 alone.
-/
theorem hashing_keeps_verdict_iff [DecidableEq Key] (laws : CrateLaws crates)
    {learnings : List (Learning Key)} (valid : ∀ learning ∈ learnings, ValidHost learning.host)
    {host : String} (hostValid : ValidHost host) (port : UInt16) (key : PublicKey Key) :
    SameVerdict crates learnings host port key ↔
      (RecordedFor crates learnings host 22 (Learning.SameKey key) →
        RecordedFor crates learnings host port (Learning.SameKey key)) ∧
      (RecordedFor crates learnings host 22 (Learning.SameAlgorithm crates key) →
        RecordedFor crates learnings host port (Learning.SameAlgorithm crates key)) := by
  obtain ⟨plain, plainly, plainTrusted, plainChanged, plainUnrevoked⟩ :=
    verify_learnedFile laws false valid hostValid port key
  obtain ⟨hidden, hashed, hiddenTrusted, hiddenChanged, hiddenUnrevoked⟩ :=
    verify_learnedFile laws true valid hostValid port key
  simp only [learned_plain_iff] at plainTrusted plainChanged
  simp only [learned_hashed_iff] at hiddenTrusted hiddenChanged
  -- A key that is on file under a port is on file there under its algorithm too.
  have algorithm : ∀ port, RecordedFor crates learnings host port (Learning.SameKey key) →
      RecordedFor crates learnings host port (Learning.SameAlgorithm crates key) := by
    intro port ⟨learning, inside, recorded, hosts, ports, same⟩
    exact ⟨learning, inside, recorded, hosts, ports, congrArg crates.algorithm same⟩
  -- Verdicts that are never a revocation agree once they agree on trust and on change.
  have kinds : plain.kind = hidden.kind ↔
      ((plain.kind = .trusted ↔ hidden.kind = .trusted) ∧
        (plain.kind = .changed ↔ hidden.kind = .changed)) := by
    revert plainUnrevoked hiddenUnrevoked
    cases plain.kind <;> cases hidden.kind <;> decide
  have answers : SameVerdict crates learnings host port key ↔ plain.kind = hidden.kind := by
    refine ⟨?_, fun same => ⟨plain, hidden, plainly, hashed, same⟩⟩
    intro ⟨first, second, firstAnswer, secondAnswer, same⟩
    rw [plainly, Except.ok.injEq] at firstAnswer
    rw [hashed, Except.ok.injEq] at secondAnswer
    rw [firstAnswer, secondAnswer]
    exact same
  rw [answers, kinds, plainTrusted, hiddenTrusted, plainChanged, hiddenChanged]
  exact port_alone_iff (algorithm port)

end Verdicts

/-- The fixture key accepted for its host on the default port. -/
def learnedOnDefault : Learning Reference.EncodedKey :=
  ⟨"plain.example.com", 22, ⟨Reference.hostKeyA, ""⟩, [1, 2, 3]⟩

/-- The fixture key can be encoded. -/
theorem learnedOnDefault_recorded : learnedOnDefault.Recorded Reference.crates :=
  ⟨"ssh-ed25519 AAAAC3NzaC1lZDI1NTE5AAAAIBafBvkEp3yDaHJuOCYn0eBYToa0SymKUTE/3CDxKjuw",
    by decide +kernel⟩

/-- The fixture host is a valid one. -/
theorem learnedOnDefault_valid :
    ∀ learning ∈ [learnedOnDefault], ValidHost learning.host := by
  simp [learnedOnDefault, ValidHost, hostChar]

/-- On the port it was learned for, the fixture key gets the same verdict from both files. -/
theorem hashing_keeps_verdict_on_default :
    SameVerdict Reference.crates [learnedOnDefault] "plain.example.com" 22
      ⟨Reference.hostKeyA, ""⟩ := by
  apply (hashing_keeps_verdict_iff Reference.laws learnedOnDefault_valid
    (learnedOnDefault_valid learnedOnDefault List.mem_cons_self) 22 _).mpr
  exact ⟨id, id⟩

/-- On another port the plain file trusts the key, and the hashed file does not know the host. -/
theorem hashing_forgets_default_port :
    (∃ plain hidden,
      verify Reference.crates (learnedFile Reference.crates false [learnedOnDefault])
        "plain.example.com" 2222 ⟨Reference.hostKeyA, ""⟩ = .ok plain ∧
      verify Reference.crates (learnedFile Reference.crates true [learnedOnDefault])
        "plain.example.com" 2222 ⟨Reference.hostKeyA, ""⟩ = .ok hidden ∧
      plain.kind = .trusted ∧ hidden.kind = .unknown) ∧
    ¬SameVerdict Reference.crates [learnedOnDefault] "plain.example.com" 2222
      ⟨Reference.hostKeyA, ""⟩ := by
  have hostValid : ValidHost "plain.example.com" :=
    learnedOnDefault_valid learnedOnDefault List.mem_cons_self
  obtain ⟨plain, plainly, plainTrusted, -, -⟩ := verify_learnedFile Reference.laws false
    learnedOnDefault_valid hostValid 2222 ⟨Reference.hostKeyA, ""⟩
  obtain ⟨hidden, hashed, hiddenTrusted, hiddenChanged, unrevoked⟩ :=
    verify_learnedFile Reference.laws true learnedOnDefault_valid hostValid 2222
      ⟨Reference.hostKeyA, ""⟩
  -- The plain line answers for every port, and the hashed one only for its own.
  have reached : Learned Reference.crates false [learnedOnDefault] "plain.example.com" 2222
      (Learning.SameKey ⟨Reference.hostKeyA, ""⟩) :=
    ⟨learnedOnDefault, List.mem_cons_self, learnedOnDefault_recorded,
      ⟨rfl, .inr ⟨rfl, rfl⟩⟩, rfl⟩
  have missed : ∀ stated, ¬Learned Reference.crates true [learnedOnDefault] "plain.example.com"
      2222 stated := by
    intro stated ⟨learning, inside, _, ⟨_, ports⟩, _⟩
    rw [List.mem_singleton.mp inside] at ports
    rcases ports with own | ⟨plainly, _⟩
    · exact absurd own (by decide)
    · cases plainly
  -- So one of the files trusts the key, and the other has never seen the host.
  have trusted : plain.kind = .trusted := plainTrusted.mpr reached
  have unknown : hidden.kind = .unknown := by
    have untrusted := mt hiddenTrusted.mp (missed _)
    have unchanged := mt hiddenChanged.mp fun both => missed _ both.2
    revert untrusted unchanged unrevoked
    cases hidden.kind <;> simp
  refine ⟨⟨plain, hidden, plainly, hashed, trusted, unknown⟩, ?_⟩
  intro ⟨first, second, firstAnswer, secondAnswer, same⟩
  rw [plainly, Except.ok.injEq] at firstAnswer
  rw [hashed, Except.ok.injEq] at secondAnswer
  rw [← firstAnswer, ← secondAnswer, trusted, unknown] at same
  cases same

end Tern.KnownHosts
