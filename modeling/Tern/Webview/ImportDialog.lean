import Mathlib.Algebra.Group.Nat.Even
import Tern.SshConfig.Commit

/-! The dialog that imports from a config: nothing is written that was not checked in it. -/

namespace Tern.ImportDialog

open Tern.Store Tern.SshConfig

/-- What the dialog holds. -/
structure Dialog where
  scan : Option Scan
  /-- The aliases that are checked, in the order in which they became so. -/
  chosen : List String
  error : Option StoreError
  busy : Bool
  /-- The rows that were toggled so far, kept to state what is checked. -/
  clicks : List String
  deriving DecidableEq

/-- The dialog before its preview is read. -/
def Dialog.opened : Dialog := ⟨none, [], none, false, []⟩

/-- The aliases that the dialog has rows for. -/
def Dialog.shown (self : Dialog) : List String :=
  (self.scan.map fun scan => scan.candidates.map Candidate.alias_).getD []

/-- The preview arrives, with every row checked. -/
def Dialog.scanned (self : Dialog) : Except StoreError Scan → Dialog
  | .error reason => { self with error := some reason }
  | .ok scan =>
    { self with
      scan := some scan
      chosen := FirstSeen.keep id [] (scan.candidates.map Candidate.alias_)
      clicks := [] }

/-- A row is checked, or no longer is. -/
def Dialog.toggle (self : Dialog) (alias_ : String) : Dialog :=
  { self with
    chosen := if self.chosen.contains alias_ then self.chosen.erase alias_
      else self.chosen ++ [alias_]
    clicks := self.clicks ++ [alias_] }

/-- An import that was asked for: the opening of the dialog, and what it held at the click. -/
structure Request where
  opening : Nat
  clicked : Dialog

/-- An import that was run, with the config and the store it found. -/
structure Import where
  request : Request
  files : Platform
  now : Int
  before : Database
  after : Database
  answer : Except StoreError ImportOutcome

/-- The window with its dialog, beside the config and the store. -/
structure Desk where
  dialog : Option Dialog
  /-- How often the dialog was opened. -/
  openings : Nat
  files : Platform
  db : Database
  /-- The imports that were asked for and were not run yet. -/
  asked : List Request
  /-- The imports that were run and not answered yet. -/
  answers : List (Nat × Except StoreError ImportOutcome)
  notice : Option ImportOutcome
  /-- The imports that were run, kept to state what they wrote. -/
  log : List Import

/-- What can happen. -/
inductive Action where
  | open_
  /-- The preview that was asked for on opening is read. -/
  | scan
  | toggle (alias_ : String)
  | commit
  | cancel
  /-- One of the imports runs. -/
  | run (index : Nat) (now : Int)
  /-- The dialog hears of one of the imports. -/
  | answer (index : Nat)
  /-- The config is edited outside. -/
  | edit (files : Platform)
  /-- Another command writes the store. -/
  | call (call : Int × StoreCall)

/-- The dialog once an import of one of its openings has been answered. -/
def Desk.settled (self : Desk) (opening : Nat) : Except StoreError ImportOutcome → Desk
  -- Whichever dialog is open closes.
  | .ok outcome => { self with dialog := none, notice := some outcome }
  | .error reason =>
    { self with
      dialog := self.dialog.map fun dialog =>
        if opening = self.openings then { dialog with error := some reason, busy := false }
        else dialog }

/-- One step of the window and what is around it. -/
def deskStep (path : String) (desk : Desk) : Action → Option Desk
  | .open_ =>
    match desk.dialog with
    | some _ => none
    | none => some { desk with dialog := some .opened, openings := desk.openings + 1 }
  | .scan =>
    desk.dialog.bind fun dialog =>
      -- The preview is read once for each opening.
      if dialog.scan.isSome || dialog.error.isSome then none
      else some { desk with dialog := some (dialog.scanned (scan desk.files path desk.db)) }
  | .toggle alias_ =>
    desk.dialog.bind fun dialog =>
      if alias_ ∈ dialog.shown then some { desk with dialog := some (dialog.toggle alias_) }
      else none
  | .commit =>
    desk.dialog.bind fun dialog =>
      if dialog.busy || dialog.chosen.isEmpty then none
      else some { desk with
        dialog := some { dialog with busy := true }
        asked := desk.asked ++ [⟨desk.openings, dialog⟩] }
  | .cancel => some { desk with dialog := none }
  | .run index now =>
    desk.asked[index]?.map fun request =>
      let (after, answer) := importSshConfig desk.files path now desk.db request.clicked.chosen
      { desk with
        db := after
        asked := desk.asked.eraseIdx index
        answers := desk.answers ++ [(request.opening, answer)]
        log := desk.log ++ [⟨request, desk.files, now, desk.db, after, answer⟩] }
  | .answer index =>
    desk.answers[index]?.map fun (opening, answer) =>
      { desk with answers := desk.answers.eraseIdx index }.settled opening answer
  | .edit files => some { desk with files := files }
  | .call call => (storeStep desk.db call).map fun after => { desk with db := after }

section Dialogs

variable {dialog : Dialog} {alias_ : String}

/-- A row is checked when it was toggled an even number of times. -/
structure Dialog.Honest (dialog : Dialog) : Prop where
  distinct : dialog.chosen.Nodup
  checked : ∀ alias_, alias_ ∈ dialog.chosen ↔
    alias_ ∈ dialog.shown ∧ Even (dialog.clicks.count alias_)

/-- The dialog that was just opened shows no rows. -/
theorem honest_opened : Dialog.opened.Honest := by
  -- No row is checked, since there is none.
  refine ⟨List.nodup_nil, fun alias_ => ?_⟩
  simp [Dialog.opened, Dialog.shown]

/-- The preview that arrives is checked throughout. -/
theorem Dialog.Honest.scanned (honest : dialog.Honest) (read : Except StoreError Scan) :
    (dialog.scanned read).Honest := by
  cases read with
  | error reason => exact ⟨honest.distinct, honest.checked⟩
  | ok scan =>
    -- An alias of two candidates has one place among those that are checked.
    have distinct := FirstSeen.nodup_keep id [] (scan.candidates.map Candidate.alias_)
    rw [List.map_id] at distinct
    refine ⟨distinct, fun alias_ => ?_⟩
    simp [Dialog.scanned, Dialog.shown, FirstSeen.mem_keep_id]

/-- A click turns its own alias over, and leaves the others. -/
theorem mem_toggle (distinct : dialog.chosen.Nodup) (other : String) :
    other ∈ (dialog.toggle alias_).chosen ↔
      if other = alias_ then alias_ ∉ dialog.chosen else other ∈ dialog.chosen := by
  unfold Dialog.toggle
  -- A checked row leaves the list, and an unchecked one goes to its end.
  by_cases on : alias_ ∈ dialog.chosen
  · rw [if_pos (List.contains_iff_mem.mpr on), distinct.mem_erase_iff]
    by_cases same : other = alias_
    · simp [same, on]
    · simp [same]
  · rw [if_neg (mt List.contains_iff_mem.mp on), List.mem_append, List.mem_singleton]
    by_cases same : other = alias_
    · simp [same, on]
    · simp [same]

/-- A click counts for the row that was clicked. -/
theorem Dialog.Honest.toggle (honest : dialog.Honest) (there : alias_ ∈ dialog.shown) :
    (dialog.toggle alias_).Honest := by
  obtain ⟨distinct, checked⟩ := honest
  refine ⟨?_, fun other => ?_⟩
  · unfold Dialog.toggle
    dsimp only
    split
    · exact distinct.erase alias_
    · -- A row that was off was not among the checked ones.
      rename_i off
      rw [List.contains_iff_mem] at off
      exact List.nodup_append.mpr ⟨distinct, List.nodup_singleton _, fun one here two new same =>
        off (List.mem_singleton.mp new ▸ same ▸ here)⟩
  · have counted : (dialog.toggle alias_).clicks.count other =
        dialog.clicks.count other + if alias_ = other then 1 else 0 := by
      simp [Dialog.toggle, List.count_append, List.count_singleton]
    rw [mem_toggle distinct, counted]
    by_cases same : other = alias_
    · -- One more click turns the parity over, like the row.
      subst same
      rw [if_pos rfl, if_pos rfl, checked, Nat.even_add_one]
      exact ⟨fun off => ⟨there, fun even => off ⟨there, even⟩⟩, fun odd on => odd.2 on.2⟩
    · -- The clicks of the other rows are as many as before.
      rw [if_neg same, if_neg (Ne.symm same), checked]
      rfl

/-- Whether it is busy or failed does not tell what a dialog checks. -/
theorem Dialog.Honest.status (honest : dialog.Honest) (error : Option StoreError) (busy : Bool) :
    { dialog with error, busy }.Honest := ⟨honest.distinct, honest.checked⟩

end Dialogs

section Runs

variable {path : String} {desk next : Desk}

/-- What an import that was run did. -/
structure Import.Faithful (path : String) (run : Import) : Prop where
  intact : Intact run.before
  ran : importSshConfig run.files path run.now run.before run.request.clicked.chosen =
    (run.after, run.answer)

/-- What was asked for was checked when it was. -/
structure Request.Checked (request : Request) : Prop where
  honest : request.clicked.Honest
  some_ : request.clicked.chosen ≠ []

/-- What holds between any two steps. -/
structure Sound (path : String) (desk : Desk) : Prop where
  intact : Intact desk.db
  dialog : ∀ dialog, desk.dialog = some dialog → dialog.Honest
  asked : ∀ request ∈ desk.asked, request.Checked
  log : ∀ run ∈ desk.log, run.request.Checked ∧ run.Faithful path

/-- Every step keeps what holds. -/
theorem sound_step {action : Action} (sound : Sound path desk)
    (taken : deskStep path desk action = some next) : Sound path next := by
  obtain ⟨intact, dialog, asked, log⟩ := sound
  cases action with
  | open_ =>
    -- A dialog that opens shows no rows yet, and only one is open at a time.
    simp only [deskStep] at taken
    split at taken
    · cases taken
    · cases taken
      exact ⟨intact, fun _ here => Option.some.inj here ▸ honest_opened, asked, log⟩
  | scan =>
    -- The preview reads the store and writes nothing.
    obtain ⟨open_, here, taken⟩ := Option.bind_eq_some_iff.mp taken
    obtain ⟨-, taken⟩ := Option.ite_none_left_eq_some.mp taken
    cases taken
    exact ⟨intact, fun _ there => Option.some.inj there ▸ (dialog open_ here).scanned _, asked, log⟩
  | toggle alias_ =>
    -- Only a row that is shown can be clicked.
    obtain ⟨open_, here, taken⟩ := Option.bind_eq_some_iff.mp taken
    obtain ⟨shown, taken⟩ := Option.ite_none_right_eq_some.mp taken
    cases taken
    exact ⟨intact, fun _ there => Option.some.inj there ▸ (dialog open_ here).toggle shown, asked,
      log⟩
  | commit =>
    -- The request takes along what is checked now, however the dialog goes on.
    obtain ⟨open_, here, taken⟩ := Option.bind_eq_some_iff.mp taken
    obtain ⟨ready, taken⟩ := Option.ite_none_left_eq_some.mp taken
    cases taken
    have honest := dialog open_ here
    refine ⟨intact, fun _ there => ?_, ?_, log⟩
    · exact Option.some.inj there ▸ ⟨honest.distinct, honest.checked⟩
    · intro request member
      rcases List.mem_append.mp member with earlier | new
      · exact asked request earlier
      · -- The button is only there while something is checked.
        rw [List.mem_singleton.mp new]
        exact ⟨honest, by simp_all⟩
  | cancel =>
    cases taken
    exact ⟨intact, fun _ here => absurd here (by simp), asked, log⟩
  | run index now =>
    -- The store is the only thing an import writes, and its request leaves those that wait.
    obtain ⟨request, chosen, rfl⟩ := Option.map_eq_some_iff.mp taken
    refine ⟨?_, dialog, ?_, ?_⟩
    · exact intact_importSshConfig intact desk.files path now request.clicked.chosen
    · exact fun other member => asked other (List.mem_of_mem_eraseIdx member)
    · intro run member
      rcases List.mem_append.mp member with earlier | new
      · exact log run earlier
      · rw [List.mem_singleton.mp new]
        exact ⟨asked request (List.mem_of_getElem? chosen), intact, rfl⟩
  | answer index =>
    -- Success closes the dialog, and an error is only shown in it.
    obtain ⟨⟨opening, answer⟩, chosen, rfl⟩ := Option.map_eq_some_iff.mp taken
    cases answer with
    | ok outcome => exact ⟨intact, fun _ here => absurd here (by simp [Desk.settled]), asked, log⟩
    | error reason =>
      refine ⟨intact, fun later here => ?_, asked, log⟩
      obtain ⟨open_, there, rfl⟩ := Option.map_eq_some_iff.mp here
      have honest := dialog open_ there
      split
      · exact honest.status _ _
      · exact honest
  | edit files =>
    cases taken
    -- The config may change at any time, since each import is judged by what it read.
    exact ⟨intact, dialog, asked, log⟩
  | call call =>
    obtain ⟨after, done, rfl⟩ := Option.map_eq_some_iff.mp taken
    -- So may the store, which every call leaves intact.
    exact ⟨intact_step intact done, dialog, asked, log⟩

/-- Whether an action is a click on the button that imports. -/
def Action.isCommit : Action → Bool
  | .commit => true
  | _ => false

/-- One step runs no import that was not asked for, and asks for none without a click. -/
theorem requests_step {action : Action} (taken : deskStep path desk action = some next) :
    next.log.length + next.asked.length =
      desk.log.length + desk.asked.length + if action.isCommit then 1 else 0 := by
  cases action with
  | open_ =>
    simp only [deskStep] at taken
    split at taken
    · cases taken
    · cases taken
      rfl
  | scan =>
    obtain ⟨open_, -, taken⟩ := Option.bind_eq_some_iff.mp taken
    obtain ⟨-, taken⟩ := Option.ite_none_left_eq_some.mp taken
    cases taken
    rfl
  | toggle alias_ =>
    obtain ⟨open_, -, taken⟩ := Option.bind_eq_some_iff.mp taken
    obtain ⟨-, taken⟩ := Option.ite_none_right_eq_some.mp taken
    cases taken
    rfl
  | commit =>
    obtain ⟨open_, -, taken⟩ := Option.bind_eq_some_iff.mp taken
    obtain ⟨-, taken⟩ := Option.ite_none_left_eq_some.mp taken
    cases taken
    -- A commit adds one request to those that wait.
    simp [Action.isCommit]
    omega
  | cancel =>
    cases taken
    rfl
  | run index now =>
    obtain ⟨request, chosen, rfl⟩ := Option.map_eq_some_iff.mp taken
    obtain ⟨within, -⟩ := List.getElem?_eq_some_iff.mp chosen
    -- The request moves from those that wait to those that were run.
    simp only [List.length_append, List.length_singleton, List.length_eraseIdx, if_pos within,
      Action.isCommit, Bool.false_eq_true, if_false]
    omega
  | answer index =>
    obtain ⟨⟨opening, answer⟩, -, rfl⟩ := Option.map_eq_some_iff.mp taken
    cases answer <;> rfl
  | edit files =>
    cases taken
    rfl
  | call call =>
    obtain ⟨after, -, rfl⟩ := Option.map_eq_some_iff.mp taken
    rfl

/-- Over a run, every click on the button has led to one import, or to one that waits. -/
theorem requests_run {start final : Desk} {actions : List Action}
    (ran : System.run (deskStep path) start actions = some final) :
    final.log.length + final.asked.length =
      start.log.length + start.asked.length + actions.countP Action.isCommit := by
  -- Every step adds to both sides what its own action counts for.
  induction actions generalizing start with
  | nil =>
    cases ran
    rfl
  | cons action rest ih =>
    obtain ⟨next, taken, onward⟩ := Option.bind_eq_some_iff.mp ran
    rw [ih onward, requests_step taken, List.countP_cons]
    omega

/-- An import wrote what was checked in the dialog when it was asked for, and nothing else. -/
structure Import.Confined (path : String) (run : Import) : Prop where
  /-- What is checked is what the preview showed and was not clicked away. -/
  checked : ∀ alias_, alias_ ∈ run.request.clicked.chosen ↔
    alias_ ∈ run.request.clicked.shown ∧ Even (run.request.clicked.clicks.count alias_)
  some_ : run.request.clicked.chosen ≠ []
  spared : ∀ id host, get run.before id = .ok (some host) →
    (∀ alias_ ∈ run.request.clicked.chosen, ¬host.ImportOf alias_) →
      get run.after id = .ok (some host)
  /-- No host that is there goes away, or loses what no import may change. -/
  kept : ∀ id host, get run.before id = .ok (some host) →
    ∃ later, get run.after id = .ok (some later) ∧ Keeps host later
  /-- What is written are hosts of the aliases that the config still has. -/
  written : ∀ id host, get run.after id = .ok (some host) → get run.before id = .ok (some host) ∨
    ∃ alias_ ∈ run.request.clicked.chosen, alias_ ∈ (parseFile run.files path).aliases ∧
      host.ImportOf alias_
  /-- What was checked and is still in the config was updated if it was imported before. -/
  updated : ∀ outcome, run.answer = .ok outcome →
    outcome.updated = run.request.clicked.chosen.countP fun alias_ =>
      (importedRow run.before alias_).isSome &&
        decide (alias_ ∈ (parseFile run.files path).aliases)
  /-- Else it was created, and nothing else was. -/
  created : ∀ outcome, run.answer = .ok outcome →
    (outcome.created = run.request.clicked.chosen.countP fun alias_ =>
      (importedRow run.before alias_).isNone &&
        decide (alias_ ∈ (parseFile run.files path).aliases)) ∧
    run.after.hosts.length = run.before.hosts.length + outcome.created
  /-- The hosts are written as the config is when the import runs. -/
  upserted : ∀ outcome, run.answer = .ok outcome → ∀ alias_ ∈ run.request.clicked.chosen,
    alias_ ∈ (parseFile run.files path).aliases → ∃ id host existing,
      get run.after id = .ok (some host) ∧ host.ImportOf alias_ ∧
        Carries host (candidateOf (parseFile run.files path) alias_ existing)

/-- An import that was run as it was asked for is confined to what was checked. -/
theorem Import.Faithful.confined {run : Import} (faithful : run.Faithful path)
    (asked : run.request.Checked) : run.Confined path := by
  obtain ⟨request, files, now, before, after, answer⟩ := run
  obtain ⟨intact, ran⟩ := faithful
  dsimp only at intact ran
  refine ⟨asked.honest.checked, asked.some_, ?_, ?_, ?_, ?_, ?_, ?_⟩
  · -- Hosts of other aliases are as they were, and none goes away, also when the import fails.
    intro id host shown spared
    have kept := @importSshConfig_spares files path now before _ intact id host shown spared
    rw [ran] at kept
    exact kept
  · intro id host shown
    have kept := @importSshConfig_keeps files path now before request.clicked.chosen intact id host
      shown
    rw [ran] at kept
    exact kept
  · intro id host shown
    -- What is new is the import of an alias that was checked.
    refine @shown_of_importSshConfig files path now before _ intact id host ?_
    rw [ran]
    exact shown
  · -- An alias is checked once, so that none is counted twice.
    rintro outcome rfl
    exact (importSshConfig_counts intact asked.honest.distinct ran).2.1
  · rintro outcome rfl
    obtain ⟨created, -, length⟩ := importSshConfig_counts intact asked.honest.distinct ran
    exact ⟨created, length⟩
  · rintro outcome rfl alias_ chosen named
    -- Each alias that was checked and offered has its record, with what the config offers.
    obtain ⟨c, id, host, -, ⟨existing, -, same⟩, rfl, shown, own, carries, -⟩ :=
      importSshConfig_upserts intact ran chosen named
    exact ⟨id, host, existing, shown, own, same ▸ carries⟩

/--
Every click on the button runs one import at most, and nothing else runs any:
each writes what was checked at the click, whatever happens to the config, the store
and the dialog until it runs, and whether it succeeds or fails on the way.
-/
theorem import_confined_to_checked {start final : Desk} {actions : List Action}
    (reachable : Store.Reachable start.db)
    (idle : start.dialog = none ∧ start.asked = [] ∧ start.log = [])
    (ran : System.run (deskStep path) start actions = some final) :
    final.log.length + final.asked.length = actions.countP Action.isCommit ∧
      ∀ run ∈ final.log, run.Confined path := by
  obtain ⟨closed, quiet, unrun⟩ := idle
  have initial : Sound path start := by
    refine ⟨reachable.intact, ?_, ?_, ?_⟩
    · simp [closed]
    · simp [quiet]
    · simp [unrun]
  -- What was run was checked when it was asked for, and the clicks are counted beside it.
  have sound := System.run_preserves sound_step initial ran
  have requests := requests_run ran
  rw [unrun, quiet] at requests
  refine ⟨by simpa using requests, fun run member => ?_⟩
  obtain ⟨asked, faithful⟩ := sound.log run member
  exact faithful.confined asked

/-- A config of two hosts. -/
def twoHosts (port : String) : Platform where
  home := none
  userProfile := none
  unicodeLowercase := id
  canonicalize := some
  readToString path :=
    if path = "/c/config" then some ("Host web\nPort " ++ port ++ "\nHost db\nUser root\n")
    else none
  isFile path := path == "/c/config"
  readDir _ := none

/-- One host is clicked away, and the port of the other changes before the import runs. -/
theorem import_confined_to_first :
    ∃ final run, System.run (deskStep "/c/config")
        ⟨none, 0, twoHosts "2222", Database.fresh, [], [], none, []⟩
        [.open_, .scan, .toggle "db", .commit, .edit (twoHosts "2223"), .run 0 5, .answer 0] =
        some final ∧
      final.log = [run] ∧ run.request.clicked.chosen = ["web"] ∧ run.Confined "/c/config" ∧
      final.db.hosts.map (fun row => (row.name, row.port)) = [("web", 2223)] ∧
      final.notice = some ⟨1, 0⟩ := by
  -- The run is evaluated, and the theorem says what its one import was confined to.
  obtain ⟨final, ran, run, log, chosen, written⟩ : ∃ final, System.run (deskStep "/c/config")
        ⟨none, 0, twoHosts "2222", Database.fresh, [], [], none, []⟩
        [.open_, .scan, .toggle "db", .commit, .edit (twoHosts "2223"), .run 0 5, .answer 0] =
        some final ∧ ∃ run, final.log = [run] ∧ run.request.clicked.chosen = ["web"] ∧
      final.db.hosts.map (fun row => (row.name, row.port)) = [("web", 2223)] ∧
      final.notice = some ⟨1, 0⟩ := ⟨_, rfl, _, rfl, by decide +kernel⟩
  have confined := (import_confined_to_checked reachable_fresh ⟨rfl, rfl, rfl⟩ ran).2
  exact ⟨final, run, ran, log, chosen, confined run (by simp [log]), written⟩

end Runs

end Tern.ImportDialog
