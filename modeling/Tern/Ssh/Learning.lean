import Tern.Ssh.Hashing
import Tern.Ssh.Numbering

/-! Learning a key: exactly what was accepted is trusted afterwards. -/

namespace Tern.KnownHosts

open Text

section Undecided

variable {Key : Type} [DecidableEq Key] {crates : Crates Key} {target host : String}
  {key : PublicKey Key}

/-- Nothing is known about a key when no entry decides about it and none contradicts it. -/
theorem verifyEntries_unknown_iff (entries : List (Nat × Entry Key)) :
    verifyEntries crates target host key entries none = .unknown ↔
      ∀ entry ∈ entries, ¬decisive crates target host key entry ∧
        ¬contradicting crates target host key entry := by
  rw [verifyEntries_eq]
  constructor
  · intro unknown entry member
    cases decided : entries.find? (decisive crates target host key) with
    | some first =>
      -- An entry that ends the loop never answers that nothing is known.
      rw [decided] at unknown
      dsimp only [decisiveVerdict] at unknown
      split at unknown
      · cases unknown
      · cases unknown
    | none =>
      cases remembered : entries.find? (contradicting crates target host key) with
      | some first =>
        rw [decided, remembered] at unknown
        cases unknown
      | none =>
        exact ⟨List.find?_eq_none.mp decided entry member,
          List.find?_eq_none.mp remembered entry member⟩
  · intro silent
    -- Where no entry says anything, the loop runs to its end.
    rw [List.find?_eq_none.mpr fun entry member => (silent entry member).1,
      List.find?_eq_none.mpr fun entry member => (silent entry member).2]
    rfl

variable {entries : List (Nat × Entry Key)} {line : Nat} {entry : Entry Key}

/-- Behind entries that say nothing about a key, a line that holds the key is what trusts it. -/
theorem verifyEntries_trusted
    (unknown : verifyEntries crates target host key entries none = .unknown)
    (names : Names crates target host entry) (unmarked : entry.marker = none)
    (same : entry.publicKey.keyData = key.keyData) :
    verifyEntries crates target host key (entries ++ [(line, entry)]) none = .trusted := by
  -- The line decides, and none of those in front of it does.
  have silent := (verifyEntries_unknown_iff entries).mp unknown
  have decides : decisive crates target host key (line, entry) = true :=
    (decisive_iff crates target host key (line, entry)).mpr (.inr ⟨names, unmarked, same⟩)
  rw [verifyEntries_eq, List.find?_append,
    List.find?_eq_none.mpr fun earlier member => (silent earlier member).1, Option.none_or,
    List.find?_cons_of_pos decides]
  dsimp only [decisiveVerdict]
  rw [unmarked, if_neg (by decide)]

/-- Behind such entries, every other key of the algorithm is a changed one. -/
theorem verifyEntries_changed {other : PublicKey Key}
    (unknown : verifyEntries crates target host key entries none = .unknown)
    (names : Names crates target host entry) (unmarked : entry.marker = none)
    (same : entry.publicKey.keyData = key.keyData) (different : other.keyData ≠ key.keyData)
    (algorithm : crates.algorithm other.keyData = crates.algorithm key.keyData) :
    verifyEntries crates target host other (entries ++ [(line, entry)]) none =
      .changed line (crates.algorithm key.keyData) (crates.fingerprint key.keyData) := by
  have silent := (verifyEntries_unknown_iff entries).mp unknown
  -- What an earlier entry said about the other key, it would have said about the learned one.
  have undecided : ∀ earlier ∈ entries, ¬decisive crates target host other earlier := by
    intro earlier member decided
    rcases (decisive_iff crates target host other earlier).mp decided with revokes | trusts
    · exact (silent earlier member).1
        ((decisive_iff crates target host key earlier).mpr (.inl revokes))
    · refine (silent earlier member).2
        ((contradicting_iff crates target host key earlier).mpr ⟨trusts.1, trusts.2.1, ?_, ?_⟩)
      · rw [trusts.2.2, algorithm]
      · rw [trusts.2.2]
        exact different
  have uncontradicted : ∀ earlier ∈ entries, ¬contradicting crates target host other earlier := by
    intro earlier member remembered
    have contradicts := (contradicting_iff crates target host other earlier).mp remembered
    by_cases learned : earlier.2.publicKey.keyData = key.keyData
    · exact (silent earlier member).1 ((decisive_iff crates target host key earlier).mpr
        (.inr ⟨contradicts.1, contradicts.2.1, learned⟩))
    · exact (silent earlier member).2 ((contradicting_iff crates target host key earlier).mpr
        ⟨contradicts.1, contradicts.2.1, contradicts.2.2.1.trans algorithm, learned⟩)
  -- The learned entry is unmarked and holds another key, so it ends no loop.
  have passes : ¬decisive crates target host other (line, entry) = true := by
    intro decided
    rcases (decisive_iff crates target host other (line, entry)).mp decided with revokes | trusts
    · have marked := revokes.2
      rw [unmarked] at marked
      cases marked
    · exact different (trusts.2.2.symm.trans same)
  have contradicts : contradicting crates target host other (line, entry) = true :=
    (contradicting_iff crates target host other (line, entry)).mpr
      ⟨names, unmarked, by rw [same, algorithm], by rw [same]; exact Ne.symm different⟩
  -- So the loop ends with the one contradiction, which is that of the learned entry.
  rw [verifyEntries_eq, List.find?_append, List.find?_eq_none.mpr undecided, Option.none_or,
    List.find?_cons_of_neg passes, List.find?_nil]
  dsimp only
  rw [List.find?_append, List.find?_eq_none.mpr uncontradicted, Option.none_or,
    List.find?_cons_of_pos contradicts, Option.none_or, Option.map_some, Option.getD_some,
    changedVerdict, same]

/-- A last line that does not name the host leaves the verdict. -/
theorem verifyEntries_append_apart
    (apart : patternsMatch crates entry.hostPatterns target host = false)
    (entries : List (Nat × Entry Key)) (changed : Option HostKeyVerdict) :
    verifyEntries crates target host key (entries ++ [(line, entry)]) changed =
      verifyEntries crates target host key entries changed := by
  induction entries generalizing changed with
  | nil => exact verifyEntries_skip crates apart [] changed
  | cons numbered rest ih => exact verifyEntries_cons_congr crates ih numbered changed

end Undecided

section Learned

variable {Key : Type} {crates : Crates Key}

/-- A learned line parses to an unmarked entry that holds the key and names the host. -/
theorem learnedLine_entry (laws : CrateLaws crates) {host : String} (valid : ValidHost host)
    (port : UInt16) {key : PublicKey Key} (hashed : Bool) (salt : Option (List UInt8))
    {part : String} (encoded : opensshKeyPart crates key = .ok part) :
    ∃ entry, parseEntry crates (learnedPattern crates host port hashed salt ++ " " ++ part) =
        some entry ∧
      entry.marker = none ∧ entry.publicKey.keyData = key.keyData ∧
      Names crates (matchTarget host port) host entry := by
  rw [(learnedLine_parse laws valid port hashed salt encoded).2]
  -- Without a salt the hashed form falls back on the plain one.
  have form : learnedPattern crates host port hashed salt =
      learnedPattern crates host port (hashed && salt.isSome) (some (salt.getD [])) := by
    unfold learnedPattern
    cases hashed with
    | false => rfl
    | true =>
      cases salt with
      | none => rfl
      | some salt => rfl
  obtain ⟨entry, reads, unmarked, same, answers⟩ :=
    @learning_entry Key crates laws ⟨host, port, key, salt.getD []⟩ valid
      (hashed && salt.isSome) part encoded
  rw [form]
  exact ⟨entry, reads, unmarked, same, (answers host port valid).mpr ⟨rfl, .inl rfl⟩⟩

/-- Learning leaves every entry on its line, and adds one behind them. -/
theorem learn_numbered (laws : CrateLaws crates) {file after : Disk} {host : String}
    (valid : ValidHost host) {port : UInt16} {key : PublicKey Key} {hashed : Bool}
    {salt : Option (List UInt8)}
    (learned : learn crates file host port key hashed salt = .ok after) :
    ∃ line entry, numberedEntries crates after =
        numberedEntries crates file ++ [(line, entry)] ∧
      (∃ contents, read file = .ok contents) ∧ (∃ contents, read after = .ok contents) ∧
      entry.marker = none ∧ entry.publicKey.keyData = key.keyData ∧
      Names crates (matchTarget host port) host entry := by
  -- The key is encoded before the file is read, and both may fail.
  cases encoded : opensshKeyPart crates key with
  | error reason => simp [learn, encoded, Bind.bind, Except.bind] at learned
  | ok part =>
    cases readable : read file with
    | error reason => simp [learn, encoded, readable, Bind.bind, Except.bind] at learned
    | ok existing =>
      simp only [learn, encoded, readable, Bind.bind, Except.bind, Pure.pure, Except.pure,
        Except.ok.injEq] at learned
      subst learned
      obtain ⟨entry, parsed, unmarked, same, names⟩ :=
        learnedLine_entry laws valid port hashed salt encoded
      refine ⟨(lines existing).length + 1, entry, ?_, ⟨existing, rfl⟩, ⟨_, rfl⟩, unmarked, same,
        names⟩
      -- The addition is one written-out line, and it is numbered behind the others.
      obtain ⟨single, -⟩ := learnedLine_parse laws valid port hashed salt encoded
      have one := @trim_lines_unlines
        [learnedPattern crates host port hashed salt ++ " " ++ part] (by simpa using single)
      simp only [unlines, String.append_empty] at one
      rw [numberedEntries_of_read crates readable]
      show numberFrom crates 0 _ = _
      rw [numberFrom_close, numberFrom_congr crates one]
      simp [numberFrom, parsed]

/--
A key that was unknown and is then learned is trusted for its host and port,
any other key of its algorithm counts as changed there,
and nothing else that the file said is affected.
-/
theorem learn_establishes_trust [DecidableEq Key] (laws : CrateLaws crates) {file after : Disk}
    {host : String} (valid : ValidHost host) {port : UInt16} {key : PublicKey Key} {hashed : Bool}
    {salt : Option (List UInt8)}
    (unknown : verify crates file host port key = .ok .unknown)
    (learned : learn crates file host port key hashed salt = .ok after) :
    verify crates after host port key = .ok .trusted ∧
    ∃ line entry,
      numberedEntries crates after = numberedEntries crates file ++ [(line, entry)] ∧
      (∀ other : PublicKey Key, other.keyData ≠ key.keyData →
        crates.algorithm other.keyData = crates.algorithm key.keyData →
        verify crates after host port other = .ok (.changed line
          (crates.algorithm key.keyData) (crates.fingerprint key.keyData))) ∧
      ∀ (otherHost : String) (otherPort : UInt16) (other : PublicKey Key),
        entryMatches crates otherHost otherPort entry = false →
        verify crates after otherHost otherPort other =
          verify crates file otherHost otherPort other := by
  -- The new line comes last, so it speaks only where the ones before it are silent.
  obtain ⟨line, entry, numbered, ⟨existing, before⟩, ⟨contents, readable⟩, unmarked, same, names⟩ :=
    learn_numbered laws valid learned
  rw [verify_of_read crates before, Except.ok.injEq] at unknown
  refine ⟨?_, line, entry, numbered, ?_, ?_⟩
  · rw [verify_of_read crates readable, numbered]
    exact congrArg _ (verifyEntries_trusted unknown names unmarked same)
  · intro other different algorithm
    rw [verify_of_read crates readable, numbered]
    exact congrArg _ (verifyEntries_changed unknown names unmarked same different algorithm)
  · intro otherHost otherPort other apart
    rw [verify_of_read crates readable, verify_of_read crates before, numbered]
    exact congrArg _ (verifyEntries_append_apart apart _ none)

end Learned

/-- A gateway on a port of its own is learned beside a host that was trusted before. -/
theorem learn_establishes_trust_beside :
    ∃ after, learn Reference.crates (.text Reference.trustingLine) "gw.example.com" 2222
        ⟨Reference.hostKeyB, "gw"⟩ false none = .ok after ∧
      verify Reference.crates after "gw.example.com" 2222 ⟨Reference.hostKeyB, "gw"⟩ =
        .ok .trusted ∧
      ∃ line, verify Reference.crates after "gw.example.com" 2222 ⟨Reference.hostKeyA, ""⟩ =
        .ok (.changed line "ssh-ed25519" (Reference.crates.fingerprint Reference.hostKeyB)) := by
  -- Before the learning the file is silent about the gateway, which is evaluated.
  obtain ⟨after, learned⟩ : ∃ after, learn Reference.crates (.text Reference.trustingLine)
      "gw.example.com" 2222 ⟨Reference.hostKeyB, "gw"⟩ false none = .ok after := ⟨_, rfl⟩
  have valid : ValidHost "gw.example.com" := by simp [ValidHost, hostChar]
  have unknown : verify Reference.crates (.text Reference.trustingLine) "gw.example.com" 2222
      ⟨Reference.hostKeyB, "gw"⟩ = .ok .unknown := by
    simp only [verify, read, Bind.bind, Except.bind, Reference.trustingLine_parsed]
    decide
  obtain ⟨trusted, line, entry, -, changed, -⟩ :=
    learn_establishes_trust Reference.laws valid unknown learned
  refine ⟨after, learned, trusted, line, ?_⟩
  exact changed ⟨Reference.hostKeyA, ""⟩ (by decide) rfl

end Tern.KnownHosts
