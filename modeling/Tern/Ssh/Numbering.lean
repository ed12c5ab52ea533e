import Tern.Ssh.FileEntries
import Tern.Ssh.Verdict

/-! The numbered entries of a file, and how little of them a verdict depends on. -/

namespace Tern.KnownHosts

open Text

variable {Key : Type} (crates : Crates Key)

/-- The entries of some lines, numbered on from a number. -/
def numberFrom (start : Nat) (texts : List String) : List (Nat × Entry Key) :=
  (texts.zipIdx start).filterMap fun indexed =>
    (parseEntry crates indexed.1).map fun entry => (indexed.2 + 1, entry)

/-- The entries a path holds, with their lines. -/
def numberedEntries : Disk → List (Nat × Entry Key)
  | .missing => []
  | .unreadable _ => []
  | .text contents => parsedEntries crates contents

/-- The lines after others are numbered on. -/
theorem numberFrom_append (start : Nat) (front back : List String) :
    numberFrom crates start (front ++ back) =
      numberFrom crates start front ++ numberFrom crates (start + front.length) back := by
  unfold numberFrom
  rw [List.zipIdx_append, List.filterMap_append]

/-- White space around the lines changes neither the entries nor their numbers. -/
theorem numberFrom_congr {left right : List String} (same : left.map trim = right.map trim)
    (start : Nat) : numberFrom crates start left = numberFrom crates start right := by
  -- The two lists are walked side by side.
  induction left generalizing right start with
  | nil =>
    rw [List.map_nil] at same
    rw [List.map_eq_nil_iff.mp same.symm]
  | cons line rest ih =>
    cases right with
    | nil => cases same
    | cons other others =>
      rw [List.map_cons, List.map_cons, List.cons.injEq] at same
      have parsed : parseEntry crates line = parseEntry crates other := by
        rw [← parseEntry_trim, same.1, parseEntry_trim]
      have onward := ih same.2 (start + 1)
      unfold numberFrom at onward ⊢
      rw [List.zipIdx_cons, List.zipIdx_cons, List.filterMap_cons, List.filterMap_cons, onward]
      dsimp only
      rw [parsed]

/-- A readable file is judged by its numbered entries. -/
theorem verify_of_read [DecidableEq Key] {file : Disk} {contents : String}
    (readable : read file = .ok contents) (host : String) (port : UInt16) (key : PublicKey Key) :
    verify crates file host port key = .ok (verifyEntries crates (matchTarget host port) host key
      (numberedEntries crates file) none) := by
  -- A file that is missing is judged like an empty one.
  cases file with
  | missing =>
    cases readable
    rfl
  | unreadable reason => cases readable
  | text existing => rfl

/-- Reading a file and numbering its entries agree. -/
theorem numberedEntries_of_read {file : Disk} {contents : String}
    (readable : read file = .ok contents) :
    numberedEntries crates file = numberFrom crates 0 (lines contents) := by
  -- A file that is missing has no line to number.
  cases file with
  | missing =>
    cases readable
    rfl
  | unreadable reason => cases readable
  | text existing =>
    cases readable
    rfl

/-- What is appended after closing the last line leaves every entry on its line. -/
theorem numberFrom_close (existing addition : String) :
    numberFrom crates 0 (lines (closeLastLine existing ++ addition)) =
      numberFrom crates 0 (lines existing) ++
        numberFrom crates (lines existing).length (lines addition) := by
  -- Closing the last line changes neither the number of lines nor what is on them.
  have closed : (lines (closeLastLine existing)).map trim = (lines existing).map trim := by
    unfold closeLastLine
    split
    · rename_i pending
      have occupied : existing.toList ≠ [] := by
        intro empty
        simp [empty] at pending
      have opened : existing.toList.getLast? ≠ some '\n' := by
        simpa [occupied, endsWithNewline] using pending
      exact trim_lines_close occupied opened
    · rfl
  have count : (lines (closeLastLine existing)).length = (lines existing).length := by
    simpa using congrArg List.length closed
  rw [lines_append addition (closeLastLine_closed existing), numberFrom_append,
    numberFrom_congr crates closed, Nat.zero_add, count]

section Verdicts

variable [DecidableEq Key] {target host : String} {key : PublicKey Key}

/-- An entry that does not name the host takes no part in the verdict. -/
theorem verifyEntries_skip {numbered : Nat × Entry Key}
    (apart : patternsMatch crates numbered.2.hostPatterns target host = false)
    (rest : List (Nat × Entry Key)) (changed : Option HostKeyVerdict) :
    verifyEntries crates target host key (numbered :: rest) changed =
      verifyEntries crates target host key rest changed := by
  obtain ⟨line, entry⟩ := numbered
  simp only [verifyEntries]
  rw [if_pos (by simpa using apart)]

/-- What follows an entry enters the verdict only through the rest of the loop. -/
theorem verifyEntries_cons_congr {left right : List (Nat × Entry Key)}
    (same : ∀ changed, verifyEntries crates target host key left changed =
      verifyEntries crates target host key right changed)
    (numbered : Nat × Entry Key) (changed : Option HostKeyVerdict) :
    verifyEntries crates target host key (numbered :: left) changed =
      verifyEntries crates target host key (numbered :: right) changed := by
  obtain ⟨line, entry⟩ := numbered
  simp only [verifyEntries, same]

/-- Leaving out entries that do not name the host leaves the verdict. -/
theorem verifyEntries_filter {entries : List (Nat × Entry Key)} {keep : Entry Key → Bool}
    (apart : ∀ entry ∈ entries, keep entry.2 = false →
      patternsMatch crates entry.2.hostPatterns target host = false)
    (changed : Option HostKeyVerdict) :
    verifyEntries crates target host key (entries.filter fun entry => keep entry.2) changed =
      verifyEntries crates target host key entries changed := by
  -- The loop passes an entry of another host over, as if it were not there.
  induction entries generalizing changed with
  | nil => rfl
  | cons numbered rest ih =>
    have onward := ih fun entry member => apart entry (List.mem_cons_of_mem _ member)
    rw [List.filter_cons]
    split
    · exact verifyEntries_cons_congr crates onward numbered changed
    · rename_i dropped
      rw [onward, verifyEntries_skip]
      exact apart numbered List.mem_cons_self (by simpa using dropped)

/-- A file whose entries all name other hosts says nothing. -/
theorem verifyEntries_unknown {entries : List (Nat × Entry Key)}
    (apart : ∀ entry ∈ entries,
      patternsMatch crates entry.2.hostPatterns target host = false) :
    verifyEntries crates target host key entries none = .unknown := by
  have none_ := @verifyEntries_filter Key crates _ target host key entries (fun _ => false)
    (fun entry member _ => apart entry member) none
  rw [← none_, List.filter_eq_nil_iff.mpr (by simp)]
  rfl

/-- A verdict without the line it points at. -/
def HostKeyVerdict.unnumbered : HostKeyVerdict → HostKeyVerdict
  | .trusted => .trusted
  | .unknown => .unknown
  | .changed _ recordedAlgorithm recordedFingerprint =>
    .changed 0 recordedAlgorithm recordedFingerprint
  | .revoked _ => .revoked 0

/-- The numbers of the entries only end up in the line of the verdict. -/
theorem unnumbered_verifyEntries (entries : List (Nat × Entry Key))
    (changed : Option HostKeyVerdict) :
    (verifyEntries crates target host key entries changed).unnumbered =
      verifyEntries crates target host key (entries.map fun entry => (0, entry.2))
        (changed.map HostKeyVerdict.unnumbered) := by
  induction entries generalizing changed with
  | nil =>
    cases changed with
    | none => rfl
    | some verdict => rfl
  | cons numbered rest ih =>
    obtain ⟨line, entry⟩ := numbered
    simp only [List.map_cons, verifyEntries]
    -- Every branch of the loop is decided by the entry alone.
    split
    · -- An entry for another host leaves the rest to decide.
      exact ih changed
    · split
      · rfl
      · exact ih changed
      · split
        · rfl
        · rw [Option.isNone_map]
          split
          · exact ih _
          · exact ih changed

end Verdicts

end Tern.KnownHosts
