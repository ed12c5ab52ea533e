import Tern.Ssh.Crates

/-! The verdict on an offered key, against what the set of matching entries should decide. -/

namespace Tern.KnownHosts

open Text

/-- A pattern names the target, or the bare host beside it. -/
def Globs (pattern target host : String) : Prop :=
  globMatch pattern target = true ∨ globMatch pattern host = true

/-- The line names a host: some positive pattern does, and no negated one. -/
def NamesList (target host : String) (list : List String) : Prop :=
  (∃ pattern ∈ list, stripPrefix '!' pattern = none ∧ Globs pattern target host) ∧
    ∀ pattern ∈ list, ∀ negated, stripPrefix '!' pattern = some negated →
      ¬Globs negated target host

/-- The loop's flag remembers whether an earlier pattern on the line already matched. -/
theorem patternListMatch_iff (target host : String) (list : List String) (matched : Bool) :
    patternListMatch target host list matched = true ↔
      (matched = true ∨ ∃ pattern ∈ list, stripPrefix '!' pattern = none ∧
        Globs pattern target host) ∧
      ∀ pattern ∈ list, ∀ negated, stripPrefix '!' pattern = some negated →
        ¬Globs negated target host := by
  -- Each pattern either disqualifies the line, raises the flag, or leaves it alone.
  induction list generalizing matched with
  | nil => simp [patternListMatch]
  | cons pattern rest ih =>
    cases negation : stripPrefix '!' pattern with
    | some negated =>
      by_cases globs : Globs negated target host
      · -- A negated match ends the loop with no.
        have hit : (globMatch negated target || globMatch negated host) = true := by
          simpa [Globs] using globs
        simp only [patternListMatch, negation, hit, if_true, Bool.false_eq_true, false_iff]
        exact fun holds => holds.2 pattern (by simp) negated negation globs
      · -- A negated pattern that misses leaves the flag to the rest of the list.
        have miss : ¬(globMatch negated target || globMatch negated host) = true := by
          simpa [Globs] using globs
        simp only [patternListMatch, negation, if_neg miss, ih]
        simp [negation, globs]
    | none =>
      by_cases globs : Globs pattern target host
      · -- A positive match raises the flag, and only later negations can still lower it.
        have hit : (globMatch pattern target || globMatch pattern host) = true := by
          simpa [Globs] using globs
        simp only [patternListMatch, negation, hit, if_true, ih]
        simp [negation, globs]
      · have miss : ¬(globMatch pattern target || globMatch pattern host) = true := by
          simpa [Globs] using globs
        simp only [patternListMatch, negation, if_neg miss, ih]
        simp [negation, globs]

section Contract

variable {Key : Type} [DecidableEq Key] (crates : Crates Key)

/-- An entry names a host: its hash is the target's, or its pattern list names it. -/
def Names (target host : String) (entry : Entry Key) : Prop :=
  match entry.hostPatterns with
  | .hashedName salt hash => crates.hmacSha1 salt target.toUTF8 = hash
  | .patterns list => NamesList target host list

omit [DecidableEq Key] in
/-- The code's matcher decides which entries name a host. -/
theorem patternsMatch_iff (target host : String) (entry : Entry Key) :
    patternsMatch crates entry.hostPatterns target host = true ↔
      Names crates target host entry := by
  unfold patternsMatch Names
  cases entry.hostPatterns with
  | hashedName salt hash => simp
  | patterns list => simp [NamesList, patternListMatch_iff]

/-- A matching entry that revokes. -/
def Revokes (target host : String) (entry : Entry Key) : Prop :=
  Names crates target host entry ∧ entry.marker = some .revoked

/-- A matching entry, unmarked, that holds the offered key material. -/
def Trusts (target host : String) (key : PublicKey Key) (entry : Entry Key) : Prop :=
  Names crates target host entry ∧ entry.marker = none ∧ entry.publicKey.keyData = key.keyData

/-- A matching entry, unmarked, that holds other material of the offered algorithm. -/
def Contradicts (target host : String) (key : PublicKey Key) (entry : Entry Key) : Prop :=
  Names crates target host entry ∧ entry.marker = none ∧
    crates.algorithm entry.publicKey.keyData = crates.algorithm key.keyData ∧
    entry.publicKey.keyData ≠ key.keyData

/-- Some entry of the file says so. -/
def Holds (entries : List (Nat × Entry Key)) (stated : Entry Key → Prop) : Prop :=
  ∃ entry ∈ entries, stated entry.2

/--
What the matching entries should decide, whatever order their lines stand in.

A revocation wins, then the same key, then another key of the same algorithm.
-/
structure VerdictContract (target host : String) (key : PublicKey Key)
    (entries : List (Nat × Entry Key)) (verdict : HostKeyVerdict) : Prop where
  revoked : (∃ line, verdict = .revoked line) ↔ Holds entries (Revokes crates target host)
  trusted : verdict = .trusted ↔
    ¬Holds entries (Revokes crates target host) ∧
      Holds entries (Trusts crates target host key)
  changed : (∃ line algorithm fingerprint, verdict = .changed line algorithm fingerprint) ↔
    ¬Holds entries (Revokes crates target host) ∧
      ¬Holds entries (Trusts crates target host key) ∧
      Holds entries (Contradicts crates target host key)
  unknown : verdict = .unknown ↔
    ¬Holds entries (Revokes crates target host) ∧
      ¬Holds entries (Trusts crates target host key) ∧
      ¬Holds entries (Contradicts crates target host key)
  revokedLine : ∀ line, verdict = .revoked line →
    ∃ entry, (line, entry) ∈ entries ∧ Revokes crates target host entry
  changedLine : ∀ line algorithm fingerprint, verdict = .changed line algorithm fingerprint →
    ∃ entry, (line, entry) ∈ entries ∧ Contradicts crates target host key entry ∧
      algorithm = crates.algorithm entry.publicKey.keyData ∧
      fingerprint = crates.fingerprint entry.publicKey.keyData

/-- An entry that ends the loop at once. -/
def decisive (target host : String) (key : PublicKey Key) (entry : Nat × Entry Key) : Bool :=
  patternsMatch crates entry.2.hostPatterns target host &&
    (entry.2.marker == some .revoked ||
      entry.2.marker == none && decide (entry.2.publicKey.keyData = key.keyData))

/-- An entry the loop remembers as a changed key. -/
def contradicting (target host : String) (key : PublicKey Key) (entry : Nat × Entry Key) : Bool :=
  patternsMatch crates entry.2.hostPatterns target host &&
    (entry.2.marker == none && decide (entry.2.publicKey.keyData ≠ key.keyData) &&
      crates.algorithm entry.2.publicKey.keyData == crates.algorithm key.keyData)

/-- The verdict an entry that ends the loop gives. -/
def decisiveVerdict (entry : Nat × Entry Key) : HostKeyVerdict :=
  if entry.2.marker = some .revoked then .revoked entry.1 else .trusted

/-- The verdict an entry remembered as changed gives. -/
def changedVerdict (entry : Nat × Entry Key) : HostKeyVerdict :=
  .changed entry.1 (crates.algorithm entry.2.publicKey.keyData)
    (crates.fingerprint entry.2.publicKey.keyData)

/-- The loop answers with the first entry that ends it, else with the first changed key. -/
theorem verifyEntries_eq (target host : String) (key : PublicKey Key)
    (entries : List (Nat × Entry Key)) (changed : Option HostKeyVerdict) :
    verifyEntries crates target host key entries changed =
      match entries.find? (decisive crates target host key) with
      | some entry => decisiveVerdict entry
      | none => (changed.or ((entries.find? (contradicting crates target host key)).map
          (changedVerdict crates))).getD .unknown := by
  induction entries generalizing changed with
  | nil => simp [verifyEntries]
  | cons numbered rest ih =>
    obtain ⟨line, entry⟩ := numbered
    -- The cases are those of the loop's body.
    by_cases names : patternsMatch crates entry.hostPatterns target host = true
    · cases marked : entry.marker with
      | some marker =>
        cases marker with
        | revoked =>
          -- A revocation ends the loop with its own line.
          simp [verifyEntries, names, marked, decisive, decisiveVerdict]
        | certAuthority =>
          -- Certificate authorities are passed over.
          simp [verifyEntries, names, marked, decisive, contradicting, ih]
      | none =>
        by_cases same : entry.publicKey.keyData = key.keyData
        · -- The offered key itself ends the loop with trust.
          simp [verifyEntries, names, marked, same, decisive, decisiveVerdict]
        · by_cases algorithm : crates.algorithm entry.publicKey.keyData =
              crates.algorithm key.keyData
          · -- The first mismatch of the offered algorithm is remembered, later ones are not.
            cases changed with
            | none =>
              simp [verifyEntries, names, marked, same, algorithm, decisive, contradicting, ih,
                changedVerdict]
            | some first =>
              simp [verifyEntries, names, marked, same, algorithm, decisive, contradicting, ih]
          · -- A key of another algorithm says nothing about the offered one.
            simp [verifyEntries, names, marked, same, algorithm, decisive, contradicting, ih]
    · -- An entry for other hosts takes no part.
      simp [verifyEntries, names, decisive, contradicting, ih]

/-- What ends the loop is a revocation or the offered key. -/
theorem decisive_iff (target host : String) (key : PublicKey Key) (entry : Nat × Entry Key) :
    decisive crates target host key entry = true ↔
      Revokes crates target host entry.2 ∨ Trusts crates target host key entry.2 := by
  simp only [decisive, Bool.and_eq_true, Bool.or_eq_true, patternsMatch_iff, beq_iff_eq,
    decide_eq_true_eq, Revokes, Trusts, ← and_or_left]

/-- What the loop remembers is another key of the offered algorithm. -/
theorem contradicting_iff (target host : String) (key : PublicKey Key)
    (entry : Nat × Entry Key) :
    contradicting crates target host key entry = true ↔
      Contradicts crates target host key entry.2 := by
  simp only [contradicting, Bool.and_eq_true, patternsMatch_iff, beq_iff_eq, decide_eq_true_eq,
    Contradicts, and_assoc]
  -- Only the order of the last two tests differs.
  exact and_congr_right fun _ => and_congr_right fun _ => and_comm

/-- No line that trusts the offered key stands before every line that revokes the host. -/
def RevocationFirst (target host : String) (key : PublicKey Key)
    (entries : List (Nat × Entry Key)) : Prop :=
  ∀ before entry after, entries = before ++ entry :: after →
    Trusts crates target host key entry.2 →
    Holds after (Revokes crates target host) → Holds before (Revokes crates target host)

omit [DecidableEq Key] in
/-- A marked entry is never one that trusts. -/
theorem not_trusts_of_revokes {target host : String} {key : PublicKey Key} {entry : Entry Key}
    (revokes : Revokes crates target host entry) : ¬Trusts crates target host key entry := by
  intro trusts
  -- Trusting needs an unmarked line, and this one carries a marker.
  have unmarked := trusts.2.1
  rw [revokes.2] at unmarked
  exact Option.some_ne_none _ unmarked

omit [DecidableEq Key] in
/-- A revocation always meets the contract. -/
theorem contract_of_revoked {target host : String} {key : PublicKey Key}
    {entries : List (Nat × Entry Key)} {line : Nat} {entry : Entry Key}
    (member : (line, entry) ∈ entries) (revokes : Revokes crates target host entry) :
    VerdictContract crates target host key entries (.revoked line) := by
  -- There is a revocation, which every other verdict would have to rule out.
  have exists_ : Holds entries (Revokes crates target host) := ⟨_, member, revokes⟩
  refine ⟨by simp [exists_], by simp [exists_], by simp [exists_], by simp [exists_], ?_, by simp⟩
  intro other same
  cases same
  exact ⟨entry, member, revokes⟩

omit [DecidableEq Key] in
/-- A trusting verdict meets the contract when nothing revokes the host. -/
theorem contract_of_trusted {target host : String} {key : PublicKey Key}
    {entries : List (Nat × Entry Key)} {entry : Nat × Entry Key} (member : entry ∈ entries)
    (trusts : Trusts crates target host key entry.2)
    (unrevoked : ¬Holds entries (Revokes crates target host)) :
    VerdictContract crates target host key entries .trusted := by
  have exists_ : Holds entries (Trusts crates target host key) := ⟨_, member, trusts⟩
  exact ⟨by simpa using unrevoked, by simpa [exists_] using unrevoked, by simp [exists_],
    by simp [exists_], by simp, by simp⟩

/-- Without a revocation or the offered key, the first changed key or none at all decides. -/
theorem contract_of_undecided {target host : String} {key : PublicKey Key}
    {entries : List (Nat × Entry Key)}
    (unrevoked : ¬Holds entries (Revokes crates target host))
    (untrusted : ¬Holds entries (Trusts crates target host key)) :
    VerdictContract crates target host key entries
      (((entries.find? (contradicting crates target host key)).map
        (changedVerdict crates)).getD .unknown) := by
  cases found : entries.find? (contradicting crates target host key) with
  | none =>
    -- Nothing was remembered, so no entry contradicts.
    have agreed : ¬Holds entries (Contradicts crates target host key) := by
      rintro ⟨entry, member, contradicts⟩
      exact List.find?_eq_none.mp found entry member
        ((contradicting_iff crates target host key entry).mpr contradicts)
    exact ⟨by simpa using unrevoked, by simpa using fun _ => untrusted,
      by simpa using fun _ _ => agreed,
      by simpa using ⟨unrevoked, untrusted, agreed⟩, by simp, by simp⟩
  | some entry =>
    -- The first remembered entry is the contradiction the contract asks for.
    have member := List.mem_of_find?_eq_some found
    have contradicts := (contradicting_iff crates target host key entry).mp (List.find?_some found)
    have exists_ : Holds entries (Contradicts crates target host key) :=
      ⟨entry, member, contradicts⟩
    refine ⟨by simpa [changedVerdict] using unrevoked, ?_, ?_, ?_, by simp [changedVerdict], ?_⟩
    · simpa [changedVerdict] using fun _ => untrusted
    · simpa [changedVerdict] using ⟨unrevoked, untrusted, exists_⟩
    · simpa [changedVerdict] using fun _ _ => exists_
    · -- The remembered line is the entry's own, with its algorithm and fingerprint.
      intro line algorithm fingerprint same
      simp only [changedVerdict, Option.map_some, Option.getD_some,
        HostKeyVerdict.changed.injEq] at same
      obtain ⟨rfl, rfl, rfl⟩ := same
      exact ⟨entry.2, member, contradicts, rfl, rfl⟩

/-- The loop meets the contract exactly when no trusting line hides a later revocation. -/
theorem verifyEntries_contract_iff (target host : String) (key : PublicKey Key)
    (entries : List (Nat × Entry Key)) :
    VerdictContract crates target host key entries
        (verifyEntries crates target host key entries none) ↔
      RevocationFirst crates target host key entries := by
  rw [verifyEntries_eq]
  cases found : entries.find? (decisive crates target host key) with
  | none =>
    -- Nothing ends the loop, so there is no revocation to hide.
    have undecided : ∀ entry ∈ entries, ¬(Revokes crates target host entry.2 ∨
        Trusts crates target host key entry.2) := by
      intro entry member either
      exact List.find?_eq_none.mp found entry member
        ((decisive_iff crates target host key entry).mpr either)
    simp only [Option.none_or]
    constructor
    · intro _ before entry after split trusts
      exact absurd (.inr trusts) (undecided entry (by simp [split]))
    · intro _
      exact contract_of_undecided crates (fun ⟨entry, member, revokes⟩ =>
          undecided entry member (.inl revokes))
        (fun ⟨entry, member, trusts⟩ => undecided entry member (.inr trusts))
  | some first =>
    -- The loop ends at a first decisive entry, and nothing before it is decisive.
    obtain ⟨ends, before, after, split, quiet⟩ := List.find?_eq_some_iff_append.mp found
    have quiet : ∀ entry ∈ before, ¬(Revokes crates target host entry.2 ∨
        Trusts crates target host key entry.2) := by
      intro entry member either
      have undecided := quiet entry member
      rw [(decisive_iff crates target host key entry).mpr either] at undecided
      simp at undecided
    have member : first ∈ entries := by simp [split]
    rcases (decisive_iff crates target host key first).mp ends with revokes | trusts
    · -- The loop stopped at a revocation, and every trusting line comes after it.
      have verdict : decisiveVerdict first = .revoked first.1 := by
        simp [decisiveVerdict, revokes.2]
      simp only [verdict]
      refine ⟨fun _ => ?_, fun _ => contract_of_revoked crates member revokes⟩
      intro front entry back other trusts _
      -- The two ways to cut the file agree on which of the two lines comes first.
      have cuts := List.append_eq_append_iff.mp (split.symm.trans other)
      rcases cuts with ⟨between, rfl, tail⟩ | ⟨between, rfl, tail⟩
      · cases between with
        | nil =>
          obtain ⟨rfl, _⟩ := List.cons.inj tail
          exact absurd trusts (not_trusts_of_revokes crates revokes)
        | cons head rest =>
          obtain ⟨rfl, _⟩ := List.cons.inj tail
          exact ⟨first, by simp, revokes⟩
      · cases between with
        | nil =>
          obtain ⟨rfl, _⟩ := List.cons.inj tail
          exact absurd trusts (not_trusts_of_revokes crates revokes)
        | cons head rest =>
          obtain ⟨rfl, _⟩ := List.cons.inj tail
          exact absurd (.inr trusts) (quiet entry (by simp))
    · -- The loop stopped at the offered key, so a revocation can only follow.
      have verdict : decisiveVerdict first = .trusted := by
        simp [decisiveVerdict, trusts.2.1]
      simp only [verdict]
      constructor
      · -- The contract rules out any revocation, so there is nothing to be first.
        intro contract front entry back other _ revoked
        obtain ⟨later, inBack, revokes⟩ := revoked
        exact absurd ⟨later, by simp [other, inBack], revokes⟩ (contract.trusted.mp rfl).1
      · intro ordered
        refine contract_of_trusted crates member trusts ?_
        rintro ⟨entry, inside, revokes⟩
        rw [split, List.mem_append, List.mem_cons] at inside
        rcases inside with early | rfl | late
        · exact quiet entry early (.inl revokes)
        · exact not_trusts_of_revokes crates revokes trusts
        · -- A later revocation would need an earlier one, which the loop would have met first.
          obtain ⟨earlier, inBefore, revokes⟩ := ordered before first after split trusts
            ⟨entry, late, revokes⟩
          exact quiet earlier inBefore (.inl revokes)

/--
The verdict is what the matching entries should decide, whatever their order,
exactly when no line trusting the offered key stands before every line revoking the host.
-/
theorem verify_contract_iff (contents host : String) (port : UInt16) (key : PublicKey Key) :
    (∃ verdict, verify crates (.text contents) host port key = .ok verdict ∧
        VerdictContract crates (matchTarget host port) host key (parsedEntries crates contents)
          verdict) ↔
      RevocationFirst crates (matchTarget host port) host key (parsedEntries crates contents) := by
  rw [← verifyEntries_contract_iff]
  -- A readable file always gets a verdict, the loop's own.
  have answered : verify crates (.text contents) host port key =
      .ok (verifyEntries crates (matchTarget host port) host key (parsedEntries crates contents)
        none) := rfl
  rw [answered]
  simp

end Contract

/-- A file that trusts the fixture key on its first line and revokes it on its second. -/
def revokedBelow : String :=
  "plain.example.com ssh-ed25519 AAAAC3NzaC1lZDI1NTE5AAAAIBafBvkEp3yDaHJuOCYn0eBYToa0SymKUTE/3CDxKjuw
@revoked plain.example.com ssh-ed25519 AAAAC3NzaC1lZDI1NTE5AAAAIBafBvkEp3yDaHJuOCYn0eBYToa0SymKUTE/3CDxKjuw\n"

set_option maxRecDepth 10000 in
/-- The two lines name the same host and hold the same key. -/
theorem revokedBelow_entries : parsedEntries Reference.crates revokedBelow =
    [(1, Reference.trustingEntry), (2, Reference.revokingEntry)] :=
  (Reference.parsedEntries_ofList _).trans rfl

/-- A revoked key is trusted when the line that trusts it stands first. -/
theorem verify_trusts_revoked :
    verify Reference.crates (.text revokedBelow) "plain.example.com" 22
        ⟨Reference.hostKeyA, "host-a"⟩ = .ok .trusted ∧
      ¬∃ verdict, verify Reference.crates (.text revokedBelow) "plain.example.com" 22
          ⟨Reference.hostKeyA, "host-a"⟩ = .ok verdict ∧
        VerdictContract Reference.crates (matchTarget "plain.example.com" 22) "plain.example.com"
          ⟨Reference.hostKeyA, "host-a"⟩ (parsedEntries Reference.crates revokedBelow) verdict := by
  -- The loop stops at the first line, whose name and key are the offered ones.
  have answer : verify Reference.crates (.text revokedBelow) "plain.example.com" 22
      ⟨Reference.hostKeyA, "host-a"⟩ = .ok .trusted := by
    simp only [verify, read, Bind.bind, Except.bind, revokedBelow_entries]
    decide
  refine ⟨answer, ?_⟩
  intro ⟨verdict, same, contract⟩
  rw [answer] at same
  cases same
  -- The second line revokes the host, so the contract leaves no room for trust.
  apply (contract.trusted.mp rfl).1
  rw [revokedBelow_entries]
  refine ⟨_, List.mem_cons_of_mem _ List.mem_cons_self, ?_, rfl⟩
  rw [← patternsMatch_iff]
  decide

end Tern.KnownHosts
