import Tern.Ssh.Import
import Tern.Ssh.Numbering

/-! Removing a host: it is back at first contact, and the rest of the file stays. -/

namespace Tern.KnownHosts

open Text

variable {Key : Type} {crates : Crates Key}

/-- The lines that removal drops are as many as the entries that match. -/
theorem countP_lineMatches (host : String) (port : UInt16) (texts : List String) :
    texts.countP (lineMatches crates host port) =
      (texts.filterMap (parseEntry crates)).countP (entryMatches crates host port) := by
  -- A line matches when it has an entry that does.
  induction texts with
  | nil => rfl
  | cons line rest ih =>
    rw [List.countP_cons, ih, List.filterMap_cons]
    cases parsed : parseEntry crates line with
    | none => simp [lineMatches, parsed]
    | some entry =>
      have same : lineMatches crates host port line = entryMatches crates host port entry := by
        simp [lineMatches, entryMatches, parsed]
      dsimp only
      rw [List.countP_cons, same]

/-- What a removal did to the file, byte for byte. -/
theorem remove_eq {file after : Disk} {host : String} {port : UInt16} {removed : Nat}
    (done : remove crates file host port = .ok (removed, after)) :
    ∃ contents, read file = .ok contents ∧
      removed = (fileEntries crates file).countP (entryMatches crates host port) ∧
      (removed = 0 → after = file) ∧
      (0 < removed → after = .text (unlines
        ((lines contents).filter (!lineMatches crates host port ·)))) := by
  -- The file is read, and written again only when something was dropped.
  cases readable : read file with
  | error reason => simp [remove, readable, Bind.bind, Except.bind] at done
  | ok contents =>
    simp only [remove, readable, Bind.bind, Except.bind, Pure.pure, Except.pure, Except.ok.injEq,
      Prod.mk.injEq] at done
    obtain ⟨rfl, rfl⟩ := done
    refine ⟨contents, rfl, ?_, ?_, ?_⟩
    · rw [fileEntries_of_read crates readable, entriesOf, countP_lineMatches]
    · intro none_
      rw [if_neg (by omega)]
    · intro some_
      rw [if_pos some_]

/-- A file that was read and rewritten can be read again. -/
theorem remove_readable {file after : Disk} {host : String} {port : UInt16} {removed : Nat}
    (done : remove crates file host port = .ok (removed, after)) :
    ∃ contents, read after = .ok contents := by
  -- What was written is a text, and what was not written is what was read.
  obtain ⟨contents, readable, -, untouched, rewritten⟩ := remove_eq done
  rcases Nat.eq_zero_or_pos removed with none_ | some_
  · rw [untouched none_]
    exact ⟨contents, readable⟩
  · rw [rewritten some_]
    exact ⟨_, rfl⟩

/-- The numbered entries of a path are its entries. -/
theorem numberedEntries_entries (file : Disk) :
    (numberedEntries crates file).map Prod.snd = fileEntries crates file := by
  cases file with
  | missing => rfl
  | unreadable reason => rfl
  | text contents => exact parsedEntries_entries crates contents

variable [DecidableEq Key]

/-- A verdict up to its line depends on the entries alone. -/
theorem unnumbered_verify {file : Disk} {contents : String} (readable : read file = .ok contents)
    (host : String) (port : UInt16) (key : PublicKey Key) :
    (verify crates file host port key).map HostKeyVerdict.unnumbered =
      .ok (verifyEntries crates (matchTarget host port) host key
        ((fileEntries crates file).map fun entry => (0, entry)) none) := by
  rw [verify_of_read crates readable, Except.map, unnumbered_verifyEntries,
    ← numberedEntries_entries, List.map_map]
  rfl

/--
After a removal the host is unknown whatever key it offers,
the count is that of the entries that matched,
the other lines stand as they were in a file that is only rewritten if there were any,
and a host none of whose entries were removed is judged as before.
-/
theorem remove_returns_to_first_contact {file after : Disk} {host : String} {port : UInt16}
    {removed : Nat} (done : remove crates file host port = .ok (removed, after)) :
    (∀ key : PublicKey Key, verify crates after host port key = .ok .unknown) ∧
    removed = (fileEntries crates file).countP (entryMatches crates host port) ∧
    (removed = 0 → after = file) ∧
    (0 < removed → ∃ contents, read file = .ok contents ∧
      after = .text (unlines ((lines contents).filter (!lineMatches crates host port ·)))) ∧
    ∀ (otherHost : String) (otherPort : UInt16) (key : PublicKey Key),
      (∀ entry ∈ fileEntries crates file, entryMatches crates host port entry = true →
        entryMatches crates otherHost otherPort entry = false) →
      (verify crates after otherHost otherPort key).map HostKeyVerdict.unnumbered =
        (verify crates file otherHost otherPort key).map HostKeyVerdict.unnumbered := by
  obtain ⟨contents, before, count, untouched, rewritten⟩ := remove_eq done
  obtain ⟨rest, readable⟩ := remove_readable done
  have kept := remove_entries crates done
  refine ⟨?_, count, untouched, fun some_ => ⟨contents, before, rewritten some_⟩, ?_⟩
  · intro key
    rw [verify_of_read crates readable]
    refine congrArg _ (verifyEntries_unknown crates ?_)
    intro numbered member
    -- Whatever matched is not among the entries any more.
    have inside : numbered.2 ∈ fileEntries crates after := by
      rw [← numberedEntries_entries]
      exact List.mem_map_of_mem member
    rw [kept, List.mem_filter] at inside
    simpa [entryMatches] using inside.2
  · intro otherHost otherPort key apart
    rw [unnumbered_verify readable, unnumbered_verify before, kept]
    refine congrArg _ ?_
    -- An entry that says nothing of the other host may be dropped before its loop.
    have filtered := @verifyEntries_filter Key crates _ (matchTarget otherHost otherPort) otherHost
      key ((fileEntries crates file).map fun entry => (0, entry))
      (!entryMatches crates host port ·) ?_ none
    · rw [← filtered, List.filter_map]
      rfl
    · intro numbered member dropped
      obtain ⟨entry, inside, rfl⟩ := List.mem_map.mp member
      exact apart entry inside (by simpa using dropped)

/-- The host of the trusting line is unknown again once it is removed. -/
theorem remove_returns_trusted_host :
    ∃ after, remove Reference.crates (.text Reference.trustingLine) "plain.example.com" 22 =
        .ok (1, after) ∧
      verify Reference.crates after "plain.example.com" 22 ⟨Reference.hostKeyB, ""⟩ =
        .ok .unknown := by
  -- The file is parsed to its one entry, which is the one that goes.
  obtain ⟨⟨removed, after⟩, done⟩ : ∃ result, remove Reference.crates
      (.text Reference.trustingLine) "plain.example.com" 22 = .ok result := ⟨_, rfl⟩
  obtain ⟨unknown, count, -⟩ := remove_returns_to_first_contact done
  have one : removed = 1 := by
    rw [count, trustingLine_entries]
    decide
  rw [one] at done
  exact ⟨after, done, unknown _⟩

end Tern.KnownHosts
