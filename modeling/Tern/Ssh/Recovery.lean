import Tern.Ssh.Learning
import Tern.Ssh.Removal

/-! The way out of a changed key: forget the host, connect again, accept what is offered. -/

namespace Tern.KnownHosts

open Text

section Alone

variable {Key : Type} [DecidableEq Key] {crates : Crates Key} {target host : String}
  {key : PublicKey Key}

/-- Entries that name other hosts leave the verdict to what stands behind them. -/
theorem verifyEntries_behind {entries : List (Nat × Entry Key)}
    (apart : ∀ entry ∈ entries, patternsMatch crates entry.2.hostPatterns target host = false)
    (back : List (Nat × Entry Key)) :
    verifyEntries crates target host key (entries ++ back) none =
      verifyEntries crates target host key back none := by
  -- The loop passes each of them over with nothing remembered.
  induction entries with
  | nil => rfl
  | cons numbered rest ih =>
    rw [List.cons_append, verifyEntries_skip crates (apart numbered List.mem_cons_self)]
    exact ih fun entry member => apart entry (List.mem_cons_of_mem _ member)

/-- What a host's only line says about an offered key. -/
def loneVerdict (crates : Crates Key) (line : Nat) (recorded offered : PublicKey Key) :
    HostKeyVerdict :=
  if recorded.keyData = offered.keyData then .trusted
  else if crates.algorithm recorded.keyData = crates.algorithm offered.keyData then
    .changed line (crates.algorithm recorded.keyData) (crates.fingerprint recorded.keyData)
  else .unknown

/-- The verdict's loop over a single unmarked line that names the host. -/
theorem verifyEntries_lone {line : Nat} {entry : Entry Key}
    (names : Names crates target host entry) (unmarked : entry.marker = none) :
    verifyEntries crates target host key [(line, entry)] none =
      loneVerdict crates line entry.publicKey key := by
  -- One line gives one verdict, by its key first and its algorithm second.
  have matched := (patternsMatch_iff crates target host entry).mpr names
  by_cases same : entry.publicKey.keyData = key.keyData
  · simp [verifyEntries, loneVerdict, matched, unmarked, same]
  · by_cases algorithm :
        crates.algorithm entry.publicKey.keyData = crates.algorithm key.keyData
    · simp [verifyEntries, loneVerdict, matched, unmarked, same, algorithm]
    · simp [verifyEntries, loneVerdict, matched, unmarked, same, algorithm]

end Alone

section Recovery

variable {Key : Type} {crates : Crates Key} {file cleared after : Disk} {host : String}
  {port : UInt16} {removed : Nat}

/-- No line that is left after a removal names the host. -/
theorem cleared_apart (done : remove crates file host port = .ok (removed, cleared)) :
    ∀ numbered ∈ numberedEntries crates cleared,
      patternsMatch crates numbered.2.hostPatterns (matchTarget host port) host = false := by
  -- What is left are the entries that did not match, in their order.
  intro numbered member
  have inside : numbered.2 ∈ fileEntries crates cleared := by
    rw [← numberedEntries_entries]
    exact List.mem_map_of_mem member
  rw [remove_entries crates done, List.mem_filter] at inside
  simpa [entryMatches] using inside.2

variable [DecidableEq Key]

/-- Only a removal that drops nothing leaves a verdict of first contact to be found before it. -/
theorem removed_pos {key : PublicKey Key} {verdict : HostKeyVerdict}
    (done : remove crates file host port = .ok (removed, cleared))
    (judged : verify crates file host port key = .ok verdict) (known : verdict ≠ .unknown) :
    0 < removed := by
  obtain ⟨contents, readable, count, -⟩ := remove_eq done
  rw [verify_of_read crates readable, Except.ok.injEq] at judged
  by_contra none_
  refine known (judged ▸ verifyEntries_unknown crates fun numbered member => ?_)
  -- A count of nothing means that no entry names the host.
  have inside : numbered.2 ∈ fileEntries crates file := by
    rw [← numberedEntries_entries]
    exact List.mem_map_of_mem member
  have missed := List.countP_eq_zero.mp (count.symm.trans (Nat.eq_zero_of_not_pos none_))
  simpa [entryMatches] using missed numbered.2 inside

/-- A file that could be judged can be rewritten. -/
theorem remove_of_judged {key : PublicKey Key} {verdict : HostKeyVerdict}
    (judged : verify crates file host port key = .ok verdict) :
    ∃ removed cleared, remove crates file host port = .ok (removed, cleared) := by
  -- Both commands read the file first, and rewriting it cannot fail.
  cases readable : read file with
  | error reason => simp [verify, readable, Bind.bind, Except.bind] at judged
  | ok contents =>
    simp only [remove, readable, Bind.bind, Except.bind, Pure.pure, Except.pure, Except.ok.injEq,
      Prod.mk.injEq]
    exact ⟨_, _, rfl, rfl⟩

/-- What is learned for a host that was just removed is all the file says about it. -/
theorem verify_relearned (laws : CrateLaws crates) (valid : ValidHost host)
    {key : PublicKey Key} {hashed : Bool} {salt : Option (List UInt8)}
    (done : remove crates file host port = .ok (removed, cleared))
    (learned : learn crates cleared host port key hashed salt = .ok after) :
    ∃ line, ∀ offered : PublicKey Key,
      verify crates after host port offered = .ok (loneVerdict crates line key offered) := by
  -- What was there names other hosts, so the loop comes to the new line with nothing remembered.
  obtain ⟨line, entry, numbered, -, ⟨contents, readable⟩, unmarked, same, names⟩ :=
    learn_numbered laws valid learned
  refine ⟨line, fun offered => ?_⟩
  rw [verify_of_read crates readable, numbered, verifyEntries_behind (cleared_apart done),
    verifyEntries_lone names unmarked, loneVerdict, loneVerdict, same]

omit [DecidableEq Key] in
/-- Learning adds one entry, which answers the queries of the form it was written in. -/
theorem learned_answers (laws : CrateLaws crates) (valid : ValidHost host) {key : PublicKey Key}
    {hashed : Bool} {salt : Option (List UInt8)}
    (learned : learn crates cleared host port key hashed salt = .ok after) :
    ∃ entry, fileEntries crates after = fileEntries crates cleared ++ [entry] ∧
      ∀ otherHost otherPort, ValidHost otherHost →
        (entryMatches crates otherHost otherPort entry = true ↔
          (⟨host, port, key, salt.getD []⟩ : Learning Key).Answers (hashed && salt.isSome)
            otherHost otherPort) := by
  cases encoded : opensshKeyPart crates key with
  | error reason => simp [learn, encoded, Bind.bind, Except.bind] at learned
  | ok part =>
    obtain ⟨single, parses⟩ := learnedLine_parse laws valid port hashed salt encoded
    obtain ⟨entry, reads, -, -, answers⟩ :=
      @learning_entry Key crates laws ⟨host, port, key, salt.getD []⟩ valid
        (hashed && salt.isSome) part encoded
    -- Without a salt the name is written plainly, whatever was asked for.
    have form : learnedPattern crates host port hashed salt =
        learnedPattern crates host port (hashed && salt.isSome) (some (salt.getD [])) := by
      cases hashed with
      | false => rfl
      | true =>
        cases salt with
        | none => rfl
        | some salt => rfl
    refine ⟨entry, ?_, fun otherHost otherPort otherValid =>
      (patternsMatch_iff crates _ _ entry).trans (answers otherHost otherPort otherValid)⟩
    -- The line that is written is read back as that entry.
    rw [learn_entries crates encoded single learned, parses, form, reads]
    rfl

/-- A verdict, up to its line, rests on the entries that name the host. -/
theorem unnumbered_verify_named {contents : String} (readable : read file = .ok contents)
    (offered : PublicKey Key) :
    (verify crates file host port offered).map HostKeyVerdict.unnumbered =
      .ok (verifyEntries crates (matchTarget host port) host offered
        (((fileEntries crates file).filter (entryMatches crates host port)).map
          fun entry => (0, entry)) none) := by
  -- Without numbers, entries that name other hosts can be left out of the loop.
  have filtered := @verifyEntries_filter Key crates _ (matchTarget host port) host offered
    ((fileEntries crates file).map fun entry => (0, entry)) (entryMatches crates host port)
    (fun numbered _ apart => apart) none
  rw [unnumbered_verify readable, ← filtered, List.filter_map]
  rfl

/-- Forgetting one host and learning it anew leaves the verdicts on the hosts it has no line
with. -/
theorem verify_apart_relearned (laws : CrateLaws crates) (valid : ValidHost host)
    {key : PublicKey Key} {hashed : Bool} {salt : Option (List UInt8)}
    (done : remove crates file host port = .ok (removed, cleared))
    (learned : learn crates cleared host port key hashed salt = .ok after)
    {otherHost : String} {otherPort : UInt16} (otherValid : ValidHost otherHost)
    (unanswered : ¬(⟨host, port, key, salt.getD []⟩ : Learning Key).Answers
      (hashed && salt.isSome) otherHost otherPort)
    (apart : ∀ entry ∈ fileEntries crates file, entryMatches crates host port entry = true →
      entryMatches crates otherHost otherPort entry = false) (offered : PublicKey Key) :
    (verify crates after otherHost otherPort offered).map HostKeyVerdict.unnumbered =
      (verify crates file otherHost otherPort offered).map HostKeyVerdict.unnumbered := by
  obtain ⟨entry, entries, answers⟩ := learned_answers laws valid learned
  obtain ⟨-, -, -, -, ⟨rest, readable⟩, -⟩ := learn_numbered laws valid learned
  obtain ⟨contents, before, -⟩ := remove_eq done
  have silent : entryMatches crates otherHost otherPort entry = false :=
    Bool.eq_false_iff.mpr fun matched =>
      unanswered ((answers otherHost otherPort otherValid).mp matched)
  -- The lines that name the other host are the same ones before and after.
  have named : (fileEntries crates after).filter (entryMatches crates otherHost otherPort) =
      (fileEntries crates file).filter (entryMatches crates otherHost otherPort) := by
    rw [entries, remove_entries crates done, List.filter_append, List.filter_filter,
      List.filter_singleton, silent, Bool.cond_false, List.append_nil]
    refine List.filter_congr fun listed member => ?_
    by_cases dropped : entryMatches crates host port listed = true
    · simp [apart listed member dropped]
    · simp [dropped]
  rw [unnumbered_verify_named readable, unnumbered_verify_named before, named]

/--
A changed key is recovered from in two steps, and there is no shorter way.

Forgetting the host succeeds and drops at least one line, after which every key is a first
contact again. Once one is accepted, the reported one or yet another, it is the one key of its
algorithm the host is trusted with, the other algorithms are back at first contact, and no other
host is judged differently unless one of the dropped lines spoke of it too.
-/
theorem changed_key_recovered (laws : CrateLaws crates) (valid : ValidHost host)
    {key : PublicKey Key} {line : Nat} {algorithm fingerprint : String}
    (shown : verify crates file host port key = .ok (.changed line algorithm fingerprint)) :
    ∃ removed cleared, remove crates file host port = .ok (removed, cleared) ∧ 0 < removed ∧
      ∀ accepted : PublicKey Key, verify crates cleared host port accepted = .ok .unknown ∧
      ∀ hashed salt after, learn crates cleared host port accepted hashed salt = .ok after →
        (∃ line, ∀ offered : PublicKey Key, verify crates after host port offered =
          .ok (loneVerdict crates line accepted offered)) ∧
        ∀ otherHost otherPort, ValidHost otherHost →
          ¬(⟨host, port, accepted, salt.getD []⟩ : Learning Key).Answers (hashed && salt.isSome)
            otherHost otherPort →
          (∀ entry ∈ fileEntries crates file, entryMatches crates host port entry = true →
            entryMatches crates otherHost otherPort entry = false) →
          ∀ offered, (verify crates after otherHost otherPort offered).map
              HostKeyVerdict.unnumbered =
            (verify crates file otherHost otherPort offered).map HostKeyVerdict.unnumbered := by
  obtain ⟨removed, cleared, done⟩ := remove_of_judged shown
  obtain ⟨rest, readable⟩ := remove_readable done
  refine ⟨removed, cleared, done, removed_pos done shown nofun, fun accepted => ⟨?_, ?_⟩⟩
  · -- No line that is left speaks of the host.
    rw [verify_of_read crates readable, verifyEntries_unknown crates (cleared_apart done)]
  · intro hashed salt after learned
    exact ⟨verify_relearned laws valid done learned,
      fun otherHost otherPort otherValid unanswered apart =>
        verify_apart_relearned laws valid done learned otherValid unanswered apart⟩

end Recovery

/-- A host that was set up anew: its old key is forgotten, the new one accepted. -/
theorem changed_key_recovered_plain :
    ∃ cleared after, remove Reference.crates (.text Reference.trustingLine) "plain.example.com" 22 =
        .ok (1, cleared) ∧
      learn Reference.crates cleared "plain.example.com" 22 ⟨Reference.hostKeyB, ""⟩ false none =
        .ok after ∧
      verify Reference.crates after "plain.example.com" 22 ⟨Reference.hostKeyB, ""⟩ =
        .ok .trusted ∧
      ∃ line, verify Reference.crates after "plain.example.com" 22 ⟨Reference.hostKeyA, ""⟩ =
        .ok (.changed line "ssh-ed25519" (Reference.crates.fingerprint Reference.hostKeyB)) := by
  have valid : ValidHost "plain.example.com" := by simp [ValidHost, hostChar]
  have shown : verify Reference.crates (.text Reference.trustingLine) "plain.example.com" 22
      ⟨Reference.hostKeyB, ""⟩ = .ok (.changed 1 "ssh-ed25519"
        (Reference.crates.fingerprint Reference.hostKeyA)) := by
    simp only [verify, read, Bind.bind, Except.bind, Reference.trustingLine_parsed]
    decide
  obtain ⟨removed, cleared, done, -, recovers⟩ :=
    changed_key_recovered Reference.laws valid shown
  -- The dropped line was the only one of the file.
  have emptied : remove Reference.crates (.text Reference.trustingLine) "plain.example.com" 22 =
      .ok (1, .text "") := by
    decide +kernel
  rw [emptied] at done
  cases done
  obtain ⟨after, learned⟩ : ∃ after, learn Reference.crates (.text "") "plain.example.com" 22
      ⟨Reference.hostKeyB, ""⟩ false none = .ok after := ⟨_, rfl⟩
  obtain ⟨⟨line, judged⟩, -⟩ := (recovers ⟨Reference.hostKeyB, ""⟩).2 false none after learned
  exact ⟨.text "", after, emptied, learned, judged _, line, judged _⟩

end Tern.KnownHosts
