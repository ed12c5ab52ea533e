import Tern.Base.History
import Tern.Base.System
import Tern.Ssh.Provenance

/-! Calls that rewrite the file at the same time, and which trust decisions they lose to each
other. -/

namespace Tern.KnownHosts

open Text

/-- What an operation still has to do to the file once it has read it. -/
inductive Write where
  | append (addition : String)
  | replace (contents : String)
  deriving DecidableEq, Repr

/-- What an operation answers when it succeeds. -/
inductive Answer where
  | learned
  | removed (count : Nat)
  | imported (report : ImportReport)
  deriving DecidableEq, Repr

/-- One write, which is never seen halfway. -/
def Write.apply : Write → Disk → Disk
  | .append addition, .missing => .text addition
  | .append addition, .text contents => .text (contents ++ addition)
  -- More bytes do not make an unreadable file readable.
  | .append _, .unreadable reason => .unreadable reason
  | .replace contents, _ => .text contents

/-- Whether an entry appended to a text would be glued to its last line. -/
def needsNewline (existing : String) : Bool :=
  !existing.toList.isEmpty && !endsWithNewline existing

/-- A call in progress: what it was asked, what it read, and what it is about to write. -/
structure Call (Key : Type) where
  op : FileOp Key
  seen : Disk

/-- A call that has read the file and has not written it yet. -/
structure Pending (Key : Type) extends Call Key where
  answer : Answer
  write : Write

/-- The file, the calls that are between their read and their write, and those that succeeded. -/
structure FileState (Key : Type) where
  file : Disk
  pending : Nat → Option (Pending Key)
  completed : List (Call Key)

/-- A file that nobody is working on. -/
def FileState.idle {Key : Type} (file : Disk) : FileState Key := ⟨file, fun _ => none, []⟩

/-- One step of one call: its read, or its write, which may fail. -/
inductive FileStep (Key : Type) where
  | start (id : Nat) (op : FileOp Key)
  | finish (id : Nat) (failure : Option String)

section Steps

variable {Key : Type} (crates : Crates Key)

/-- What an operation does up to and including its read of the file. -/
def beginOp (file : Disk) : FileOp Key → Except KnownHostsError (Answer × Option Write)
  | .learn host port key hashed salt => do
    let pattern := learnedPattern crates host port hashed salt
    let keyPart ← opensshKeyPart crates key
    -- The contents are only looked at for the end of their last line.
    let existing ← read file
    let line := (if needsNewline existing then "\n" else "") ++ (pattern ++ " " ++ keyPart ++ "\n")
    return (.learned, some (.append line))
  | .remove host port => do
    let contents ← read file
    let kept := (lines contents).filter (!lineMatches crates host port ·)
    let removed := (lines contents).countP (lineMatches crates host port)
    return (.removed removed, if 0 < removed then some (.replace (unlines kept)) else none)
  | .importFrom .missing => .ok (.imported ImportReport.default, none)
  | .importFrom (.unreadable reason) => .error (.io reason)
  | .importFrom (.text incoming) => do
    let existing ← read file
    let state := importLines crates existing incoming
    return (.imported state.report,
      if state.appended.isEmpty then none
      else some (.replace (closeLastLine existing ++ unlines state.appended)))

/-- The step of a call, taken in whatever state the other calls have left. -/
def fileStep (state : FileState Key) : FileStep Key → Option (FileState Key)
  | .start id op =>
    match state.pending id with
    | some _ => none
    | none =>
      match beginOp crates state.file op with
      | .error _ => some state
      -- A call that has nothing to write is done.
      | .ok (_, none) => some { state with completed := state.completed ++ [⟨op, state.file⟩] }
      | .ok (answer, some write) => some { state with
          pending := Function.update state.pending id (some ⟨⟨op, state.file⟩, answer, write⟩) }
  | .finish id failure =>
    match state.pending id with
    | none => none
    | some call =>
      let pending := Function.update state.pending id none
      match failure with
      | some _ => some { state with pending := pending }
      | none => some ⟨call.write.apply state.file, pending, state.completed ++ [call.toCall]⟩

/-- Closing the last line adds a line feed where one is needed. -/
theorem closeLastLine_eq (existing : String) :
    closeLastLine existing = if needsNewline existing then existing ++ "\n" else existing := rfl

/-- A call that nothing comes in between does what it does alone. -/
theorem exec_eq_beginOp (file : Disk) (op : FileOp Key) : exec crates file op =
    match beginOp crates file op with
    | .ok (_, some write) => write.apply file
    | .ok (_, none) => file
    | .error _ => file := by
  -- Each operation reads, decides and writes, with or without anything in between.
  cases op with
  | learn host port key hashed salt =>
    simp only [exec, learn, beginOp]
    cases encoded : opensshKeyPart crates key with
    | error reason => rfl
    | ok part =>
      cases file with
      | missing => rfl
      | unreadable reason => rfl
      | text contents =>
        simp only [read, Bind.bind, Except.bind, Pure.pure, Except.pure, Write.apply,
          closeLastLine_eq]
        -- A last line that is open is closed first.
        by_cases pending : needsNewline contents = true
        · simp [pending, String.append_assoc]
        · simp [pending]
  | remove host port =>
    simp only [exec, remove, beginOp]
    cases readable : read file with
    | error reason => rfl
    | ok contents =>
      simp only [Bind.bind, Except.bind, Pure.pure, Except.pure]
      split
      · rfl
      · rfl
  | importFrom source =>
    cases source with
    | missing => rfl
    | unreadable reason => rfl
    | text incoming =>
      simp only [exec, importFrom, beginOp]
      cases readable : read file with
      | error reason => rfl
      | ok existing =>
        simp only [Bind.bind, Except.bind, Pure.pure, Except.pure]
        split
        · rfl
        · rfl

end Steps

section Texts

variable {Key : Type} (crates : Crates Key)

/-- A text to which a line can be appended as it is. -/
def Closed (text : String) : Prop :=
  text.toList = [] ∨ text.toList.getLast? = some '\n'

/-- A text needs a line feed unless it is closed. -/
theorem needsNewline_eq_false {text : String} : needsNewline text = false ↔ Closed text := by
  unfold needsNewline Closed endsWithNewline
  by_cases empty : text.toList = []
  · simp [empty]
  · simp [empty]

/-- What is written behind a closed text adds exactly its own entries. -/
theorem entriesOf_append_closed {front : String} (closed : Closed front) (back : String) :
    entriesOf crates (front ++ back) = entriesOf crates front ++ entriesOf crates back := by
  simp [entriesOf, lines_append back closed]

/-- A line feed is closed. -/
theorem closed_feed : Closed "\n" := .inr rfl

/-- Whatever is behind it, a closed text ends closed. -/
theorem closed_append (front : String) {back : String} (occupied : back.toList ≠ [])
    (closed : Closed back) : Closed (front ++ back) := by
  right
  rw [String.toList_append, List.getLast?_append_of_ne_nil _ occupied]
  exact closed.resolve_left occupied

/-- A line feed by itself holds no entry, and separates what stands on its sides. -/
theorem entriesOf_append_feed (front back : String) :
    entriesOf crates (front ++ ("\n" ++ back)) =
      entriesOf crates front ++ entriesOf crates back := by
  have blank : entriesOf crates "\n" = [] := by
    simp [entriesOf, lines, lineChunks, stripEnding, parseEntry, trim, trimChars]
  have alone := entriesOf_append_closed crates closed_feed back
  rw [blank, List.nil_append] at alone
  by_cases pending : needsNewline front = true
  · -- The line feed closes the last line.
    have closing := entriesOf_append crates front back
    rw [closeLastLine_eq, if_pos pending, String.append_assoc] at closing
    exact closing
  · -- The line feed is an empty line of its own.
    rw [entriesOf_append_closed crates (needsNewline_eq_false.mp (by simpa using pending)), alone]

/-- Written-out lines are closed. -/
theorem closed_unlines (texts : List String) : Closed (unlines texts) := by
  induction texts with
  | nil => exact .inl rfl
  | cons line rest ih =>
    rw [unlines]
    -- The last line ends in a line feed, whether or not there are lines behind the first.
    by_cases empty : (unlines rest).toList = []
    · right
      simp [empty]
    · exact closed_append _ empty ih

/-- Written-out lines behind a closed last line are closed. -/
theorem closed_close_unlines (existing : String) (texts : List String) :
    Closed (closeLastLine existing ++ unlines texts) := by
  -- Without lines to write, it is the closed last line that ends the text.
  by_cases empty : (unlines texts).toList = []
  · have front : Closed (closeLastLine existing) := closeLastLine_closed existing
    rwa [String.toList_inj.mp (empty.trans String.toList_empty.symm), String.append_empty]
  · exact closed_append _ empty (closed_unlines texts)

end Texts

section Effects

variable {Key : Type} (crates : Crates Key)

/-- The entries a call adds: the learned one, or those of the source that were not there yet. -/
def additions (call : Call Key) : List (Entry Key) :=
  match call.op with
  | .learn host port key hashed salt =>
    match opensshKeyPart crates key with
    | .ok keyPart =>
      entriesOf crates (learnedPattern crates host port hashed salt ++ " " ++ keyPart ++ "\n")
    | .error _ => []
  | .remove _ _ => []
  | .importFrom source =>
    FirstSeen.keep (entryIdentity crates)
      ((fileEntries crates call.seen).map (entryIdentity crates))
      (offered (fileEntries crates source))

/-- A call adds an entry to the file. -/
def CallAdds (call : Call Key) (entry : Entry Key) : Prop := entry ∈ additions crates call

/-- A call takes an entry out of the file. -/
def CallDrops (call : Call Key) (entry : Entry Key) : Prop := Drops crates call.op entry

/-- No call takes out what it adds. -/
theorem not_drops_of_adds {call : Call Key} {entry : Entry Key}
    (adds : CallAdds crates call entry) : ¬CallDrops crates call entry := by
  -- A call either adds lines or drops some, and never both.
  obtain ⟨op, seen⟩ := call
  cases op with
  | learn host port key hashed salt => exact id
  | remove host port => exact absurd adds List.not_mem_nil
  | importFrom source => exact id

/-- What a call leaves of the entries it read, and what it adds to them. -/
def Leaves (call : Call Key) (entry : Entry Key) : Prop :=
  CallAdds crates call entry ∨ (entry ∈ fileEntries crates call.seen ∧ ¬CallDrops crates call entry)

/-- Reading succeeded if the operation got past its read. -/
theorem read_of_write {file : Disk} {op : FileOp Key} {answer : Answer} {write : Write}
    (begun : beginOp crates file op = .ok (answer, some write)) :
    ∃ existing, read file = .ok existing := by
  cases readable : read file with
  | ok existing => exact ⟨existing, rfl⟩
  | error reason =>
    -- Every operation reads before it has anything to write.
    cases op with
    | learn host port key hashed salt =>
      cases encoded : opensshKeyPart crates key with
      | error refused => simp [beginOp, encoded, Bind.bind, Except.bind] at begun
      | ok part => simp [beginOp, encoded, readable, Bind.bind, Except.bind] at begun
    | remove host port => simp [beginOp, readable, Bind.bind, Except.bind] at begun
    | importFrom source =>
      cases source with
      | missing => simp [beginOp] at begun
      | unreadable refused => simp [beginOp] at begun
      | text incoming => simp [beginOp, readable, Bind.bind, Except.bind] at begun

/-- Alone, a removal or an import leaves the entries it read, without those it drops and with its
own. -/
theorem exec_leaves {file : Disk} {op : FileOp Key} {outcome : Answer × Option Write}
    (begun : beginOp crates file op = .ok outcome)
    (rewrites : ∀ host port key hashed salt, op ≠ .learn host port key hashed salt)
    (entry : Entry Key) :
    entry ∈ fileEntries crates (exec crates file op) ↔ Leaves crates ⟨op, file⟩ entry := by
  cases op with
  | learn host port key hashed salt => exact absurd rfl (rewrites host port key hashed salt)
  | remove host port =>
    cases done : remove crates file host port with
    | error reason =>
      -- A removal only fails where it would not have begun.
      cases readable : read file with
      | error refused => simp [beginOp, readable, Bind.bind, Except.bind] at begun
      | ok existing =>
        simp [remove, readable, Bind.bind, Except.bind, Pure.pure, Except.pure] at done
    | ok result =>
      simp only [exec, done]
      rw [remove_entries crates done, List.mem_filter]
      -- What a removal takes out is what its patterns match.
      have matched := patternsMatch_iff crates (matchTarget host port) host entry
      unfold Leaves CallAdds CallDrops additions
      simp only [List.not_mem_nil, false_or, Drops, ← matched, entryMatches, Bool.not_eq_true',
        Bool.not_eq_true]
  | importFrom source =>
    cases imported : importFrom crates file source with
    | error reason =>
      cases source with
      | missing => simp [importFrom] at imported
      | unreadable refused => simp [beginOp] at begun
      | text incoming =>
        -- Neither does an import fail behind its reads.
        cases readable : read file with
        | error refused => simp [beginOp, readable, Bind.bind, Except.bind] at begun
        | ok existing =>
          simp [importFrom, readable, Bind.bind, Except.bind, Pure.pure, Except.pure] at imported
    | ok result =>
      simp only [exec, imported]
      rw [import_entries crates imported, List.mem_append]
      unfold Leaves CallAdds CallDrops additions
      simp only [Drops, not_false_eq_true, and_true]
      exact Or.comm

/-- Learning always has a line to append, and nothing else ever appends. -/
theorem learn_begun {file : Disk} {host : String} {port : UInt16} {key : PublicKey Key}
    {hashed : Bool} {salt : Option (List UInt8)} {answer : Answer} {write : Option Write}
    (begun : beginOp crates file (.learn host port key hashed salt) = .ok (answer, write)) :
    ∃ existing line, read file = .ok existing ∧
      write = some (.append ((if needsNewline existing then "\n" else "") ++ line)) ∧
      entriesOf crates line = additions crates ⟨.learn host port key hashed salt, file⟩ ∧
      line.toList ≠ [] ∧ Closed line := by
  -- A key that cannot be encoded and a file that cannot be read end the call.
  cases encoded : opensshKeyPart crates key with
  | error refused => simp [beginOp, encoded, Bind.bind, Except.bind] at begun
  | ok part =>
    cases readable : read file with
    | error refused => simp [beginOp, encoded, readable, Bind.bind, Except.bind] at begun
    | ok existing =>
      simp only [beginOp, encoded, readable, Bind.bind, Except.bind, Pure.pure, Except.pure,
        Except.ok.injEq, Prod.mk.injEq] at begun
      refine ⟨existing, _, rfl, begun.2.symm, ?_, by simp, closed_append _ (by simp) closed_feed⟩
      simp [additions, encoded]

/-- Only a learning appends what it writes. -/
theorem rewrites_of_begun {file : Disk} {op : FileOp Key} {answer : Answer} {write : Option Write}
    (begun : beginOp crates file op = .ok (answer, write))
    (other : ∀ addition, write ≠ some (.append addition)) :
    ∀ host port key hashed salt, op ≠ .learn host port key hashed salt := by
  rintro host port key hashed salt rfl
  obtain ⟨_, _, _, appended, -⟩ := learn_begun crates begun
  exact other _ appended

/-- A removal and an import write a whole file, which is closed. -/
theorem replace_begun {file : Disk} {op : FileOp Key} {answer : Answer} {write : Write}
    (begun : beginOp crates file op = .ok (answer, some write))
    (rewrites : ∀ host port key hashed salt, op ≠ .learn host port key hashed salt) :
    ∃ contents, write = .replace contents ∧ Closed contents := by
  -- With nothing removed or nothing new, there is nothing to write.
  obtain ⟨existing, readable⟩ := read_of_write crates begun
  cases op with
  | learn host port key hashed salt => exact absurd rfl (rewrites host port key hashed salt)
  | remove host port =>
    simp only [beginOp, readable, Bind.bind, Except.bind, Pure.pure, Except.pure, Except.ok.injEq,
      Prod.mk.injEq] at begun
    obtain ⟨-, written⟩ := begun
    split at written
    · -- A removal that matches writes the lines that are left, each closed.
      cases written
      exact ⟨_, rfl, closed_unlines _⟩
    · cases written
  | importFrom source =>
    cases source with
    | missing => simp [beginOp] at begun
    | unreadable refused => simp [beginOp] at begun
    | text incoming =>
      simp only [beginOp, readable, Bind.bind, Except.bind, Pure.pure, Except.pure,
        Except.ok.injEq, Prod.mk.injEq] at begun
      obtain ⟨-, written⟩ := begun
      split at written
      · cases written
      · cases written
        exact ⟨_, rfl, closed_close_unlines existing _⟩

/-- What is appended is a learned line, behind a line feed if the text that was read needs one. -/
theorem append_begun {file : Disk} {op : FileOp Key} {answer : Answer} {addition : String}
    (begun : beginOp crates file op = .ok (answer, some (.append addition))) :
    ∃ existing line, read file = .ok existing ∧
      addition = (if needsNewline existing then "\n" else "") ++ line ∧
      entriesOf crates line = additions crates ⟨op, file⟩ ∧ line.toList ≠ [] ∧ Closed line ∧
      ∀ entry, ¬CallDrops crates ⟨op, file⟩ entry := by
  cases op with
  | learn host port key hashed salt =>
    -- A learning takes nothing out of the file.
    obtain ⟨existing, line, same, appended, entries, occupied, closed⟩ := learn_begun crates begun
    cases appended
    exact ⟨existing, line, same, rfl, entries, occupied, closed, fun _ drops => drops⟩
  | remove host port =>
    obtain ⟨_, replaced, -⟩ := replace_begun crates begun (by rintro _ _ _ _ _ ⟨⟩)
    cases replaced
  | importFrom source =>
    obtain ⟨_, replaced, -⟩ := replace_begun crates begun (by rintro _ _ _ _ _ ⟨⟩)
    cases replaced

/-- An operation that rewrites the file writes back what it leaves of what it read. -/
theorem mem_replaced {file : Disk} {op : FileOp Key} {answer : Answer} {contents : String}
    (begun : beginOp crates file op = .ok (answer, some (.replace contents))) (entry : Entry Key) :
    entry ∈ entriesOf crates contents ↔ Leaves crates ⟨op, file⟩ entry := by
  have rewrites := rewrites_of_begun crates begun (by rintro _ ⟨⟩)
  -- Alone, the operation would leave the file as it is written here.
  have alone := exec_eq_beginOp crates file op
  rw [begun] at alone
  rw [← exec_leaves crates begun rewrites, alone]
  rfl

/-- An operation with nothing to write leaves just what it read. -/
theorem mem_unwritten {file : Disk} {op : FileOp Key} {answer : Answer}
    (begun : beginOp crates file op = .ok (answer, none)) (entry : Entry Key) :
    entry ∈ fileEntries crates file ↔ Leaves crates ⟨op, file⟩ entry := by
  have rewrites := rewrites_of_begun crates begun (by rintro _ ⟨⟩)
  have alone := exec_eq_beginOp crates file op
  rw [begun] at alone
  rw [← exec_leaves crates begun rewrites, alone]

/-- A call that rewrites the file adds nothing that it read there. -/
theorem not_seen_of_adds {call : Call Key} {answer : Answer} {contents : String}
    (begun : beginOp crates call.seen call.op = .ok (answer, some (.replace contents)))
    {entry : Entry Key} (adds : CallAdds crates call entry) :
    entry ∉ fileEntries crates call.seen := by
  obtain ⟨op, seen⟩ := call
  cases op with
  | learn host port key hashed salt =>
    obtain ⟨_, _, _, appended, -⟩ := learn_begun crates begun
    cases appended
  | remove host port => exact absurd adds List.not_mem_nil
  | importFrom source =>
    -- An import leaves out every identity it has seen.
    intro present
    have fresh := ((FirstSeen.mem_keep _).mp adds).1
    exact fresh (List.mem_map_of_mem present)

/-- What an operation writes in place of the file is closed. -/
theorem closed_replaced {file : Disk} {op : FileOp Key} {answer : Answer} {contents : String}
    (begun : beginOp crates file op = .ok (answer, some (.replace contents))) :
    Closed contents := by
  obtain ⟨_, same, closed⟩ :=
    replace_begun crates begun (rewrites_of_begun crates begun (by rintro _ ⟨⟩))
  cases same
  exact closed

end Effects

section Runs

variable {Key : Type} (crates : Crates Key)

/-- No decision of a call that succeeded is lost. -/
def KeepsDecisions (state : FileState Key) : Prop :=
  History.Respects (CallAdds crates) (CallDrops crates) state.completed
    fun entry => entry ∈ fileEntries crates state.file

/--
Nobody disturbs a removal or an import.

When one of them writes the file, the file has gained no entry since it was read,
and none is gone that is to be written back.
-/
def Undisturbed (state : FileState Key) (step : FileStep Key) : Prop :=
  ∀ id call contents, step = .finish id none → state.pending id = some call →
    call.write = .replace contents →
    History.Current (CallAdds crates) (CallDrops crates) call.toCall
      (fun entry => entry ∈ fileEntries crates call.seen)
      (fun entry => entry ∈ fileEntries crates state.file)

/-- The entries that the calls leave, one after another, of those that were there at first. -/
def heldAfter (initial : List (Entry Key)) (calls : List (Call Key)) : Entry Key → Prop :=
  History.held (CallAdds crates) (CallDrops crates) (fun entry => entry ∈ initial) calls

/--
What every state satisfies as long as no removal or import is disturbed.

The file holds what the calls left in the order they succeeded in,
and a call that is still to write read what some of them left.
-/
structure Sound (initial : List (Entry Key)) (state : FileState Key) : Prop where
  entries : ∀ entry, entry ∈ fileEntries crates state.file ↔
    heldAfter crates initial state.completed entry
  begun : ∀ id call, state.pending id = some call →
    beginOp crates call.seen call.op = .ok (call.answer, some call.write)
  known : ∀ id call, state.pending id = some call → ∃ earlier since,
    state.completed = earlier ++ since ∧
      ∀ entry, entry ∈ fileEntries crates call.seen ↔ heldAfter crates initial earlier entry
  closed : ∀ id call, state.pending id = some call → ∃ existing contents,
    read call.seen = .ok existing ∧ read state.file = .ok contents ∧
      (Closed existing → Closed contents)

variable {crates} {initial : List (Entry Key)} {state : FileState Key}

/-- A file that nobody works on holds what it holds. -/
theorem sound_idle (file : Disk) : Sound crates (fileEntries crates file) (.idle file) where
  -- No call has begun, so there is nothing to say about one.
  entries := fun _ => Iff.rfl
  begun := by
    intro id call absent
    cases absent
  known := by
    intro id call absent
    cases absent
  closed := by
    intro id call absent
    cases absent

/-- What the calls left is respected by the file. -/
theorem Sound.keeps (sound : Sound crates initial state) : KeepsDecisions crates state := by
  unfold KeepsDecisions
  rw [funext fun entry => propext (sound.entries entry)]
  exact History.respects_held (fun _ _ => not_drops_of_adds crates) _ _

/-- A call that has nothing to write goes by unnoticed. -/
theorem Sound.unwritten (sound : Sound crates initial state) {op : FileOp Key} {answer : Answer}
    (begun : beginOp crates state.file op = .ok (answer, none)) :
    Sound crates initial { state with completed := state.completed ++ [⟨op, state.file⟩] } where
  entries := by
    intro entry
    rw [heldAfter, History.held_concat]
    exact (mem_unwritten crates begun entry).trans
      (or_congr_right (and_congr_left' (sound.entries entry)))
  begun := sound.begun
  known := by
    intro id call waiting
    -- What the waiting calls have read is as long ago as before, and one call more.
    obtain ⟨earlier, since, split, seen⟩ := sound.known id call waiting
    exact ⟨earlier, since ++ [⟨op, state.file⟩], by simp [split], seen⟩
  closed := sound.closed

/-- A call that is waiting is the one that began last, or was waiting before. -/
theorem waiting_of_start {pending : Nat → Option (Pending Key)} {id other : Nat}
    {begun call : Pending Key}
    (waiting : Function.update pending id (some begun) other = some call) :
    call = begun ∨ pending other = some call := by
  -- Only one call is entered, under its own number.
  by_cases same : other = id
  · rw [same, Function.update_self] at waiting
    exact .inl (Option.some.inj waiting).symm
  · rw [Function.update_of_ne same] at waiting
    exact .inr waiting

/-- A call that has read the file knows what the calls before it left. -/
theorem Sound.start (sound : Sound crates initial state) (id : Nat) {op : FileOp Key}
    {answer : Answer} {write : Write}
    (begun : beginOp crates state.file op = .ok (answer, some write)) :
    Sound crates initial { state with
      pending := Function.update state.pending id (some ⟨⟨op, state.file⟩, answer, write⟩) } where
  entries := sound.entries
  begun := by
    intro other call waiting
    rcases waiting_of_start waiting with rfl | earlier
    · exact begun
    · -- The calls that wait are as they were.
      exact sound.begun other call earlier
  known := by
    intro other call waiting
    rcases waiting_of_start waiting with rfl | earlier
    · exact ⟨state.completed, [], by simp, sound.entries⟩
    · exact sound.known other call earlier
  closed := by
    intro other call waiting
    rcases waiting_of_start waiting with rfl | earlier
    · -- It has read the very text that the file still holds.
      obtain ⟨existing, readable⟩ := read_of_write crates begun
      exact ⟨existing, existing, readable, readable, fun closed => closed⟩
    · exact sound.closed other call earlier

/-- A call that is no longer waiting was none of the others. -/
theorem waiting_of_update {pending : Nat → Option (Pending Key)} {id other : Nat}
    {call : Pending Key} (waiting : Function.update pending id none other = some call) :
    pending other = some call := by
  by_cases same : other = id
  · rw [same, Function.update_self] at waiting
    cases waiting
  · rwa [Function.update_of_ne same] at waiting

/-- A call whose write fails changes nothing. -/
theorem Sound.failed (sound : Sound crates initial state) (id : Nat) :
    Sound crates initial { state with pending := Function.update state.pending id none } where
  entries := sound.entries
  begun := fun other call waiting => sound.begun other call (waiting_of_update waiting)
  known := fun other call waiting => sound.known other call (waiting_of_update waiting)
  closed := fun other call waiting => sound.closed other call (waiting_of_update waiting)

/-- A call that writes a closed text with what the calls left, its own effect included, is sound. -/
theorem Sound.written (sound : Sound crates initial state) (id : Nat) {call : Call Key}
    {contents : String} (closed : Closed contents)
    (left : ∀ entry, entry ∈ entriesOf crates contents ↔
      heldAfter crates initial (state.completed ++ [call]) entry) :
    Sound crates initial ⟨.text contents, Function.update state.pending id none,
      state.completed ++ [call]⟩ where
  entries := left
  begun := fun other call waiting => sound.begun other call (waiting_of_update waiting)
  known := by
    intro other waitingCall waiting
    obtain ⟨earlier, since, split, seen⟩ :=
      sound.known other waitingCall (waiting_of_update waiting)
    exact ⟨earlier, since ++ [call], by simp [split], seen⟩
  closed := by
    intro other waitingCall waiting
    -- Whatever a waiting call has read, the file is closed now.
    obtain ⟨existing, _, readable, -⟩ := sound.closed other waitingCall (waiting_of_update waiting)
    exact ⟨existing, contents, readable, rfl, fun _ => closed⟩

/-- Appending to a readable file leaves both texts in it. -/
theorem apply_append {file : Disk} {contents : String} (readable : read file = .ok contents)
    (addition : String) : (Write.append addition).apply file = .text (contents ++ addition) := by
  -- A file that is missing is created, and is read as an empty one before.
  cases file with
  | missing =>
    cases readable
    simp [Write.apply]
  | unreadable reason => cases readable
  | text existing =>
    cases readable
    rfl

/-- A learned line may be appended whatever the other calls did meanwhile. -/
theorem Sound.append (sound : Sound crates initial state) {id : Nat} {call : Pending Key}
    (waiting : state.pending id = some call) {addition : String}
    (appends : call.write = .append addition) :
    Sound crates initial ⟨call.write.apply state.file, Function.update state.pending id none,
      state.completed ++ [call.toCall]⟩ := by
  have begun := sound.begun id call waiting
  rw [appends] at begun ⊢
  obtain ⟨existing, line, seen, rfl, entries, occupied, ends, keeps⟩ := append_begun crates begun
  -- The file may have changed since the call read it, but was not left open.
  obtain ⟨other, contents, same, readable, closed⟩ := sound.closed id call waiting
  rw [seen, Except.ok.injEq] at same
  subst same
  rw [apply_append readable]
  -- Every other call leaves a closed text, so the line is not glued to anything.
  have together : entriesOf crates
      (contents ++ ((if needsNewline existing then "\n" else "") ++ line)) =
        fileEntries crates state.file ++ additions crates call.toCall := by
    rw [fileEntries_of_read crates readable, ← entries]
    cases pending : needsNewline existing with
    | true => exact entriesOf_append_feed crates contents line
    | false =>
      have closed := closed (needsNewline_eq_false.mp pending)
      simpa using entriesOf_append_closed crates closed line
  apply sound.written id
  · apply closed_append
    · simp [occupied]
    · exact closed_append _ occupied ends
  · intro entry
    -- What the file holds is what it held and what the call adds.
    rw [together, List.mem_append, heldAfter, History.held_concat]
    refine or_comm.trans (or_congr_right ?_)
    rw [sound.entries entry, and_iff_left (keeps entry)]
    rfl

/-- A removal or an import may write back what it left, if nobody disturbed it. -/
theorem Sound.replace (sound : Sound crates initial state) {id : Nat} {call : Pending Key}
    (waiting : state.pending id = some call) {contents : String}
    (replaces : call.write = .replace contents)
    (current : History.Current (CallAdds crates) (CallDrops crates) call.toCall
      (fun entry => entry ∈ fileEntries crates call.seen)
      (fun entry => entry ∈ fileEntries crates state.file)) :
    Sound crates initial ⟨call.write.apply state.file, Function.update state.pending id none,
      state.completed ++ [call.toCall]⟩ := by
  have begun := sound.begun id call waiting
  rw [replaces] at begun ⊢
  obtain ⟨earlier, since, split, seen⟩ := sound.known id call waiting
  -- The file holds what the earlier calls left, and then those since the read.
  have now := sound.entries
  rw [split] at now
  rw [funext fun entry => propext (seen entry), funext fun entry => propext (now entry)] at current
  apply sound.written id (closed_replaced crates begun)
  intro entry
  rw [mem_replaced crates begun, split]
  -- Undisturbed, what it writes is what comes of the whole history.
  exact (or_congr_right (and_congr_left' (seen entry))).trans
    (History.held_of_current current entry)

/-- A removal or an import that was disturbed loses somebody's decision. -/
theorem Sound.disturbed (sound : Sound crates initial state) {id : Nat} {call : Pending Key}
    (waiting : state.pending id = some call) {contents : String}
    (replaces : call.write = .replace contents)
    (stale : ¬History.Current (CallAdds crates) (CallDrops crates) call.toCall
      (fun entry => entry ∈ fileEntries crates call.seen)
      (fun entry => entry ∈ fileEntries crates state.file)) :
    ¬KeepsDecisions crates ⟨call.write.apply state.file, Function.update state.pending id none,
      state.completed ++ [call.toCall]⟩ := by
  have begun := sound.begun id call waiting
  rw [replaces] at begun ⊢
  obtain ⟨earlier, since, split, seen⟩ := sound.known id call waiting
  have now := sound.entries
  rw [split] at now
  rw [funext fun entry => propext (seen entry), funext fun entry => propext (now entry)] at stale
  -- What it writes is what it leaves of an older state of the file.
  have written : (fun entry =>
    entry ∈ fileEntries crates ((Write.replace contents).apply state.file)) =
      fun entry => CallAdds crates call.toCall entry ∨
        (heldAfter crates initial earlier entry ∧ ¬CallDrops crates call.toCall entry) := by
    funext entry
    apply propext
    exact (mem_replaced crates begun entry).trans (or_congr_right (and_congr_left' (seen entry)))
  intro keeps
  unfold KeepsDecisions at keeps
  rw [written, split] at keeps
  -- Respecting every decision would mean that it was not disturbed.
  refine stale ((History.respects_stale_iff (fun _ _ => not_drops_of_adds crates) ?_).mp keeps)
  intro entry adds known
  exact not_seen_of_adds crates begun adds ((seen entry).mpr known)

/-- One step keeps the file sound when it disturbs nothing. -/
theorem sound_step {next : FileState Key} {step : FileStep Key} (sound : Sound crates initial state)
    (taken : fileStep crates state step = some next) (undisturbed : Undisturbed crates state step) :
    Sound crates initial next := by
  cases step with
  | start id op =>
    unfold fileStep at taken
    cases idle : state.pending id with
    | some call => simp [idle] at taken
    | none =>
      -- A call that fails at its read leaves nothing behind.
      cases begun : beginOp crates state.file op with
      | error reason =>
        simp only [idle, begun, Option.some.injEq] at taken
        exact taken ▸ sound
      | ok outcome =>
        obtain ⟨answer, write⟩ := outcome
        cases write with
        | none =>
          simp only [idle, begun, Option.some.injEq] at taken
          -- One with nothing to write is done with its read.
          exact taken ▸ sound.unwritten begun
        | some write =>
          simp only [idle, begun, Option.some.injEq] at taken
          exact taken ▸ sound.start id begun
  | finish id failure =>
    unfold fileStep at taken
    cases waiting : state.pending id with
    | none => simp [waiting] at taken
    | some call =>
      -- So does one whose write fails.
      cases failure with
      | some reason =>
        simp only [waiting, Option.some.injEq] at taken
        exact taken ▸ sound.failed id
      | none =>
        simp only [waiting, Option.some.injEq] at taken
        subst taken
        -- A line may be appended at any time, and a file only replaced undisturbed.
        cases written : call.write with
        | append addition =>
          rw [← written]
          exact sound.append waiting written
        | replace contents =>
          rw [← written]
          exact sound.replace waiting written (undisturbed id call contents rfl waiting written)

/--
For every interleaving of calls that learn, remove and import, on whatever file they start from,
no decision is ever lost exactly if no removal or import is ever disturbed between its read and
its write.
-/
theorem trust_decisions_kept_iff (crates : Crates Key) (file : Disk) (steps : List (FileStep Key)) :
    System.Throughout (fileStep crates) (KeepsDecisions crates) (.idle file) steps ↔
      System.Meets (fileStep crates) (Undisturbed crates) (.idle file) steps := by
  refine @System.throughout_iff_meets _ _ (fileStep crates) (Undisturbed crates)
    (Sound crates (fileEntries crates file)) (KeepsDecisions crates) ?_ ?_ ?_ ?_ _ steps
    (sound_idle file)
  · exact fun sound => sound.keeps
  · exact fun sound taken undisturbed => sound_step sound taken undisturbed
  · intro state next step sound taken disturbed
    simp only [Undisturbed, not_forall] at disturbed
    -- The step replaces a file that changed since it was read.
    obtain ⟨id, call, contents, rfl, waiting, replaces, stale⟩ := disturbed
    simp only [fileStep, waiting, Option.some.injEq] at taken
    exact taken ▸ sound.disturbed waiting replaces stale
  · -- A call that is waiting can always go on.
    rintro state step refused id call contents rfl waiting -
    simp [fileStep, waiting] at refused

end Runs

/-- A removal reads the file, another key is learned, and then the removal writes the file. -/
def learnedDuringRemoval : List (FileStep Reference.EncodedKey) :=
  [.start 0 (.remove "plain.example.com" 22),
    .start 1 (.learn "other.example.com" 22 ⟨Reference.hostKeyB, "host-b"⟩ false none),
    .finish 1 none, .finish 0 none]

/-- The line that learning the other key appends. -/
def learnedLine : String :=
  "other.example.com ssh-ed25519 AAAAC3NzaC1lZDI1NTE5AAAAIAH9vuNTw1q4zuAJCy1tb22F4ORqLKOgojxAlE3FapCx\n"

/-- What the learned line says. -/
def learnedEntry : Entry Reference.EncodedKey :=
  ⟨none, .patterns ["other.example.com"], ⟨Reference.hostKeyB, ""⟩⟩

set_option maxRecDepth 10000 in
/-- The learned line is one entry. -/
theorem learnedLine_parsed : parsedEntries Reference.crates learnedLine = [(1, learnedEntry)] :=
  (Reference.parsedEntries_ofList _).trans rfl

/-- The removal is about to write an empty file. -/
theorem removal_begun :
    beginOp Reference.crates (.text Reference.trustingLine) (.remove "plain.example.com" 22) =
      .ok (.removed 1, some (.replace "")) := by
  decide +kernel

/-- The other key is about to be appended. -/
theorem learning_begun :
    beginOp Reference.crates (.text Reference.trustingLine)
        (.learn "other.example.com" 22 ⟨Reference.hostKeyB, "host-b"⟩ false none) =
      .ok (.learned, some (.append learnedLine)) := by
  decide +kernel

/-- Both calls succeed, and the key that was learned is nowhere in the file. -/
theorem removal_loses_learned_key :
    ∃ final, System.run (fileStep Reference.crates) (.idle (.text Reference.trustingLine))
        learnedDuringRemoval = some final ∧
      final.file = .text "" ∧
      final.completed.map (·.op) =
        [.learn "other.example.com" 22 ⟨Reference.hostKeyB, "host-b"⟩ false none,
          .remove "plain.example.com" 22] ∧
      ¬System.Throughout (fileStep Reference.crates) (KeepsDecisions Reference.crates)
        (.idle (.text Reference.trustingLine)) learnedDuringRemoval := by
  obtain ⟨final, ran, emptied, done⟩ : ∃ final,
      System.run (fileStep Reference.crates) (.idle (.text Reference.trustingLine))
        learnedDuringRemoval = some final ∧ final.file = .text "" ∧
      final.completed =
        [⟨.learn "other.example.com" 22 ⟨Reference.hostKeyB, "host-b"⟩ false none,
            .text Reference.trustingLine⟩,
          ⟨.remove "plain.example.com" 22, .text Reference.trustingLine⟩] := by
    simp [learnedDuringRemoval, System.run, fileStep, FileState.idle, removal_begun,
      learning_begun, Write.apply]
  refine ⟨final, ran, emptied, by rw [done]; rfl, ?_⟩
  intro throughout
  have keeps := throughout.final ran
  -- The learned entry was added before the removal, which names another host.
  have kept := keeps.kept [] _ _ learnedEntry (by rw [done]; rfl) ?_ ?_
  · rw [emptied] at kept
    simp [fileEntries, entriesOf, lines, lineChunks] at kept
  · have part : opensshKeyPart Reference.crates ⟨Reference.hostKeyB, "host-b"⟩ = .ok
        "ssh-ed25519 AAAAC3NzaC1lZDI1NTE5AAAAIAH9vuNTw1q4zuAJCy1tb22F4ORqLKOgojxAlE3FapCx" := by
      decide +kernel
    have line : entriesOf Reference.crates learnedLine = [learnedEntry] := by
      rw [← parsedEntries_entries, learnedLine_parsed]
      rfl
    simp only [CallAdds, additions, part]
    exact line ▸ List.mem_cons_self
  · intro later member
    rw [List.mem_singleton.mp member]
    intro drops
    -- The removal drops only what its own host names.
    have named := (patternsMatch_iff Reference.crates (matchTarget "plain.example.com" 22)
      "plain.example.com" learnedEntry).mpr drops
    exact absurd named (by decide +kernel)

end Tern.KnownHosts
