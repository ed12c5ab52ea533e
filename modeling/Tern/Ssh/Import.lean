import Tern.Ssh.Crates
import Tern.Ssh.FileEntries

/-! Importing another file: which of its trust statements survive the removal of duplicates. -/

namespace Tern.KnownHosts

open Text

section Kept

variable {Key : Type} (crates : Crates Key)

/-- What a line says: its marker, the hosts it names, and the key material. -/
def trustOf (entry : Entry Key) : Option Marker × HostPatterns × Key :=
  (entry.marker, entry.hostPatterns, entry.publicKey.keyData)

/-- Entries that say the same have the same identity, though the identity leaves the marker out. -/
theorem entryIdentity_congr {left right : Entry Key} (same : trustOf left = trustOf right) :
    entryIdentity crates left = entryIdentity crates right := by
  simp only [trustOf, Prod.mk.injEq] at same
  simp only [entryIdentity, same.2.1, same.2.2]

/-- After the import, the file says everything the source said. -/
def KeepsTrust (incoming after : List (Entry Key)) : Prop :=
  ∀ entry ∈ incoming, entry.marker ≠ some .certAuthority →
    ∃ kept ∈ after, trustOf kept = trustOf entry

/--
No entry of another meaning takes this entry's place.

Either the file says the same already, or it holds nothing of this identity
and the first source entry of the identity says the same.
-/
def Unshadowed (existing incoming : List (Entry Key)) (entry : Entry Key) : Prop :=
  (∃ old ∈ existing, trustOf old = trustOf entry) ∨
    ((∀ old ∈ existing, entryIdentity crates old ≠ entryIdentity crates entry) ∧
      ∃ first, (offered incoming).find?
          (fun other => entryIdentity crates other = entryIdentity crates entry) = some first ∧
        trustOf first = trustOf entry)

/-- What an import leaves says an entry's meaning exactly when nothing shadows the entry. -/
theorem kept_iff_unshadowed (existing incoming : List (Entry Key)) (entry : Entry Key) :
    (∃ kept ∈ existing ++ FirstSeen.keep (entryIdentity crates)
        (existing.map (entryIdentity crates)) (offered incoming),
      trustOf kept = trustOf entry) ↔ Unshadowed crates existing incoming entry := by
  apply Iff.intro
  · intro ⟨kept, member, same⟩
    have identity := entryIdentity_congr crates same
    rcases List.mem_append.mp member with old | new
    · -- The file said so before the import.
      exact .inl ⟨kept, old, same⟩
    · -- Otherwise the kept entry is the first offered one of an identity the file lacked.
      obtain ⟨fresh, first⟩ := (FirstSeen.mem_keep _).mp new
      rw [identity] at fresh first
      refine .inr ⟨?_, kept, first, same⟩
      -- No entry of the file has the identity, which was fresh.
      intro old member equal
      exact fresh (List.mem_map.mpr ⟨old, member, equal⟩)
  · intro unshadowed
    rcases unshadowed with ⟨old, member, same⟩ | ⟨fresh, first, found, same⟩
    · -- An entry that was there stays there.
      exact ⟨old, List.mem_append_left _ member, same⟩
    · -- The first offered entry of a new identity is the one that gets appended.
      refine ⟨first, List.mem_append_right _ ?_, same⟩
      have identity := entryIdentity_congr crates same
      rw [FirstSeen.mem_keep, identity]
      refine ⟨?_, found⟩
      intro known
      obtain ⟨old, member, equal⟩ := List.mem_map.mp known
      exact fresh old member equal

/-- An import loses no trust statement exactly when no line of the source is shadowed. -/
theorem import_keeps_trust_iff {file source after : Disk} {report : ImportReport}
    (imported : importFrom crates file source = .ok (report, after)) :
    KeepsTrust (fileEntries crates source) (fileEntries crates after) ↔
      ∀ entry ∈ fileEntries crates source, entry.marker ≠ some .certAuthority →
        Unshadowed crates (fileEntries crates file) (fileEntries crates source) entry := by
  unfold KeepsTrust
  rw [import_entries crates imported]
  -- Both sides speak of the same source lines, one line at a time.
  apply forall_congr'
  intro entry
  apply imp_congr_right
  intro _
  apply imp_congr_right
  intro _
  exact kept_iff_unshadowed crates (fileEntries crates file) (fileEntries crates source) entry

end Kept

/-- The trusting line is one unmarked entry. -/
theorem trustingLine_entries :
    fileEntries Reference.crates (.text Reference.trustingLine) = [Reference.trustingEntry] := by
  rw [fileEntries, ← parsedEntries_entries, Reference.trustingLine_parsed]
  rfl

/-- The revoking line is one marked entry, of the same host and key. -/
theorem revokingLine_entries :
    fileEntries Reference.crates (.text Reference.revokingLine) = [Reference.revokingEntry] := by
  rw [fileEntries, ← parsedEntries_entries, Reference.revokingLine_parsed]
  rfl

/-- A revocation imported into an empty file arrives as one. -/
theorem import_keeps_trust_into_empty :
    ∃ report after, importFrom Reference.crates .missing (.text Reference.revokingLine) =
        .ok (report, after) ∧
      KeepsTrust (fileEntries Reference.crates (.text Reference.revokingLine))
        (fileEntries Reference.crates after) := by
  obtain ⟨⟨report, after⟩, imported⟩ : ∃ result,
      importFrom Reference.crates .missing (.text Reference.revokingLine) = .ok result := ⟨_, rfl⟩
  refine ⟨report, after, imported, (import_keeps_trust_iff Reference.crates imported).mpr ?_⟩
  -- The file holds nothing, so the only source line is the first of its identity.
  intro entry member _
  rw [revokingLine_entries, List.mem_singleton] at member
  refine .inr ⟨fun old held => absurd held List.not_mem_nil, entry, ?_, rfl⟩
  rw [revokingLine_entries, member]
  decide

/-- A revocation is lost when the file trusts the same key for the same host. -/
theorem import_loses_revocation :
    ∃ report after,
      importFrom Reference.crates (.text Reference.trustingLine) (.text Reference.revokingLine) =
        .ok (report, after) ∧
      ¬KeepsTrust (fileEntries Reference.crates (.text Reference.revokingLine))
        (fileEntries Reference.crates after) := by
  obtain ⟨⟨report, after⟩, imported⟩ : ∃ result,
      importFrom Reference.crates (.text Reference.trustingLine) (.text Reference.revokingLine) =
        .ok result := ⟨_, rfl⟩
  refine ⟨report, after, imported, ?_⟩
  intro keeps
  -- After the import the file holds what it held and what was appended.
  have entries := import_entries Reference.crates imported
  rw [trustingLine_entries, revokingLine_entries] at entries
  rw [entries, revokingLine_entries] at keeps
  -- Nothing is appended, because the two lines have one identity.
  obtain ⟨kept, member, same⟩ := keeps _ List.mem_cons_self (by decide)
  have alone : kept = Reference.trustingEntry := by
    simpa [offered, FirstSeen.keep, entryIdentity, Reference.trustingEntry,
      Reference.revokingEntry] using member
  rw [alone] at same
  simp [trustOf, Reference.trustingEntry, Reference.revokingEntry] at same

end Tern.KnownHosts
