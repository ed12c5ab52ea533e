import Tern.Desktop.Steady
import Tern.Store.Calls

/-! The connections of a host: none is lost and none counted twice, in whatever order calls run. -/

namespace Tern.Desktop

open Tern.Store

section Tallies

/-- What happens to the count of an id. -/
inductive Mark where
  /-- A new host takes the id, perhaps that of one that is gone. -/
  | inserted (id : Int)
  | counted (id at_ : Int)
  deriving DecidableEq, Repr

/-- How often a host was connected to, and when it was for the last time. -/
abbrev Tally := Int × Option Int

/-- The tally of an id after one mark. -/
def Tally.after (id : Int) (tally : Tally) : Mark → Tally
  | .inserted new => if new = id then (0, none) else tally
  | .counted one at_ => if one = id then (tally.1 + 1, some at_) else tally

/-- The tally of an id after some marks. -/
def Tally.afterAll (id : Int) (tally : Tally) (marks : List Mark) : Tally :=
  marks.foldl (Tally.after id) tally

/-- The tally that a row keeps. -/
def tallyOf (row : HostRow) : Tally := (row.connectCount, row.lastConnectedAt)

/-- The mark that an insert leaves, if it succeeds. -/
def insertion (created : Except StoreError (Int × Database)) : Option Mark :=
  created.toOption.map fun answer => .inserted answer.1

/-- The mark that a repository call leaves. -/
def markOf (job : Job) (db : Database) : Phase → Option Mark
  | .inserting dto _ => insertion (create job.now db (draftOfDto dto))
  | .importing _ c _ => insertion (create job.now db (draftOf c))
  | .counting id at_ => some (.counted id at_)
  | _ => none

/-- The commands that run beside each other, and the marks they have left. -/
structure Marked where
  system : Concurrent
  marks : List Mark

/-- One step of the commands, with the mark that its call leaves. -/
def markedStep (marked : Marked) (step : Scheduled) : Option Marked :=
  (concurrentStep marked.system step).map fun system =>
    { system
      marks := marked.marks ++ match step with
        | .start _ => []
        | .call index => (marked.system.running[index]?.bind fun worker =>
            markOf worker.job marked.system.state.db worker.phase).toList }

/-- The tally of an id that a store begins with: nothing, where it has no row of it. -/
def begun (db : Database) (id : Int) : Tally :=
  ((lookup db id).map tallyOf).getD (0, none)

/-- The connection that a mark counts: the host's id, and the time. -/
def Mark.connection : Mark → Option (Int × Int)
  | .counted id at_ => some (id, at_)
  | .inserted _ => none

/-- The connection that a command counts. -/
def StoreCommand.connection : StoreCommand → Option (Int × Int)
  | .recordConnection id at_ => some (id, at_)
  | _ => none

/-- The connection that a phase counts. -/
def Phase.connection : Phase → Option (Int × Int)
  | .counting id at_ => some (id, at_)
  | _ => none

end Tallies

section Marks

variable {id : Int} {marks : List Mark}

/-- The count of an id that no new host took is one more for each of its connections. -/
theorem afterAll_count (tally : Tally) (kept : .inserted id ∉ marks) :
    (Tally.afterAll id tally marks).1 =
      tally.1 + (marks.filterMap Mark.connection).countP fun connection => connection.1 = id := by
  -- Only a new host under the id starts a count anew, and there is none among the marks.
  induction marks generalizing tally with
  | nil => simp [Tally.afterAll]
  | cons mark marks ih =>
    have later := ih (tally.after id mark) fun among => kept (List.mem_cons_of_mem _ among)
    dsimp only [Tally.afterAll, List.foldl_cons] at later ⊢
    rw [later]
    cases mark with
    | inserted new =>
      have apart : ¬new = id := by
        rintro rfl
        exact kept List.mem_cons_self
      rw [List.filterMap_cons_none (f := Mark.connection) rfl]
      simp [Tally.after, apart]
    | counted one at_ =>
      rw [List.filterMap_cons_some (f := Mark.connection) rfl]
      by_cases own : one = id
      · simp only [Tally.after, List.countP_cons, own, decide_true, if_true]
        omega
      · simp [Tally.after, own]

end Marks

section Rows

variable {now id : Int} {db after : Database}

/-- Every row keeps the tally that a function tells of its id. -/
def Keeps (expected : Int → Tally) (db : Database) : Prop :=
  ∀ row ∈ db.hosts, tallyOf row = expected row.id

/-- Rows that keep their ids and tallies keep what was expected of them. -/
theorem Keeps.rewrite {expected : Int → Tally} {rewrite : HostRow → HostRow}
    (keeps : Keeps expected db) (hosts : after.hosts = db.hosts.map rewrite)
    (same : ∀ row, (rewrite row).id = row.id ∧ tallyOf (rewrite row) = tallyOf row) :
    Keeps expected after := by
  -- The rewritten row stands for the old one, whose tally and id it has.
  intro row member
  rw [hosts] at member
  obtain ⟨old, there, rfl⟩ := List.mem_map.mp member
  obtain ⟨named, kept⟩ := same old
  rw [kept, named]
  exact keeps old there

/-- An update keeps the tallies: its statement sets neither column. -/
theorem Keeps.update {expected : Int → Tally} {host : Host} (keeps : Keeps expected db)
    (updated : update now db host = .ok after) : Keeps expected after := by
  -- The row that is written keeps its counters, and the others are left alone.
  obtain ⟨-, -, rfl⟩ := update_eq updated
  refine keeps.rewrite rfl fun row => ?_
  split
  · rename_i same
    exact ⟨same.symm, rfl⟩
  · exact ⟨rfl, rfl⟩

/-- An insert adds a row that was never connected to, under an id of its own. -/
theorem Keeps.create {expected : Int → Tally} {draft : NewHost} (keeps : Keeps expected db)
    (created : create now db draft = .ok (id, after)) :
    Keeps (fun other => (expected other).after other (.inserted id)) after := by
  -- The new id belongs to no row of the table, so no other count starts anew.
  have fresh := lookup_nextId db
  obtain ⟨named, rfl⟩ := create_eq created
  intro row member
  rcases List.mem_append.mp member with old | new
  · have apart : ¬id = row.id := by
      intro same
      rw [← named, lookup, List.find?_eq_none] at fresh
      exact fresh row old (by simp [same])
    simp only [Tally.after, if_neg apart]
    exact keeps row old
  · rw [List.mem_singleton.mp new]
    simp [Tally.after, tallyOf, rowOf, hostOfDraft]

/-- A connection is counted on its own host, and only there. -/
theorem Keeps.recordConnection {expected : Int → Tally} (keeps : Keeps expected db) (at_ : Int) :
    Keeps (fun other => (expected other).after other (.counted id at_))
      (recordConnection db id at_) := by
  -- The row of the host gains one, and the expectation for that id gains the same.
  intro row member
  obtain ⟨old, there, rfl⟩ := List.mem_map.mp member
  have kept := keeps old there
  by_cases own : old.id = id
  · rw [if_pos own]
    dsimp only [Tally.after]
    rw [if_pos own.symm, ← kept]
    rfl
  · rw [if_neg own]
    dsimp only [Tally.after]
    rw [if_neg fun same => own same.symm]
    exact kept

/-- Tagging leaves the rows. -/
theorem Keeps.setTags {expected : Int → Tally} {tags : List Int} (keeps : Keeps expected db)
    (done : setTags db id tags = .ok after) : Keeps expected after := by
  unfold Keeps
  rw [hosts_setTags done]
  exact keeps

/-- A deletion takes rows away. -/
theorem Keeps.delete {expected : Int → Tally} (keeps : Keeps expected db)
    (deleted : delete db id = .ok after) : Keeps expected after := by
  intro row member
  rw [hosts_delete deleted] at member
  exact keeps row (List.mem_of_mem_filter member)

/-- A move sets the folder alone. -/
theorem Keeps.moveToFolder {expected : Int → Tally} {folderId : Option Int}
    (keeps : Keeps expected db) (moved : moveToFolder now db id folderId = .ok after) :
    Keeps expected after := by
  -- Whether a row is the one that moves or not, its counters are what they were.
  obtain ⟨-, rfl⟩ := moveToFolder_eq moved
  refine keeps.rewrite rfl fun row => ?_
  split
  · exact ⟨rfl, rfl⟩
  · exact ⟨rfl, rfl⟩

end Rows

section Runs

variable {job : Job} {state : AppState} {expected : Int → Tally}

/-- What a call that only writes the store leaves, once it succeeded. -/
theorem Keeps.proceed {turn : Turn} {result : Except StoreError Database}
    (keeps : Keeps expected state.db) (kept : ∀ after, result = .ok after → Keeps expected after) :
    Keeps expected (proceed state turn result).1.db := by
  cases result with
  | error reason => exact keeps
  | ok after => exact kept after rfl

/-- The tallies after the mark of an insert are those of the store after it. -/
theorem Keeps.insertion {draft : NewHost} {db : Database} {now : Int} (keeps : Keeps expected db) :
    Keeps (fun id => Tally.afterAll id (expected id) (insertion (Store.create now db draft)).toList)
      (Store.settle db ((Store.create now db draft).map Prod.snd)) := by
  cases created : Store.create now db draft with
  | error reason => exact keeps
  | ok answer => exact keeps.create created

/-- One call leaves the tallies that its mark says. -/
theorem Keeps.call (keeps : Keeps expected state.db) (phase : Phase) :
    Keeps (fun id => Tally.afterAll id (expected id) (markOf job state.db phase).toList)
      (call job state phase).1.db := by
  -- Only an insert and a count leave a mark, and every other phase keeps the tallies.
  cases phase with
  | inserting dto secret =>
    have inserted := @Keeps.insertion expected (draftOfDto dto) state.db job.now keeps
    simp only [markOf, Desktop.call]
    cases created : Store.create job.now state.db (draftOfDto dto) with
    | error reason => exact keeps
    | ok answer => simpa [created, Except.map, Store.settle] using inserted
  | importing handled c rest =>
    have inserted := @Keeps.insertion expected (draftOf c) state.db job.now keeps
    simp only [markOf, Desktop.call]
    cases created : Store.create job.now state.db (draftOf c) with
    | error reason => exact keeps
    | ok answer => simpa [created, Except.map, Store.settle, Desktop.proceed] using inserted
  | counting id at_ => exact keeps.recordConnection at_
  | fetching dto secret =>
    simp only [Desktop.call]
    split <;> exact keeps
  | saving existing dto secret => exact keeps.proceed fun _ updated => keeps.update updated
  | tagging id tags secret => exact keeps.proceed fun _ done => keeps.setTags done
  | readingSecret id secret =>
    simp only [Desktop.call, markOf, treatSecret_db]
    exact keeps
  | writingSecret record => exact keeps.proceed fun _ updated => keeps.update updated
  | deleting id =>
    -- With the host its expected count goes, too, if it goes at all.
    simp only [Desktop.call, deleteHost]
    cases deleted : Store.delete state.db id with
    | error reason => exact keeps
    | ok after => exact keeps.delete deleted
  | moving id folderId => exact keeps.proceed fun _ moved => keeps.moveToFolder moved
  | settingTags id tags => exact keeps.proceed fun _ done => keeps.setTags done
  | finding handled rest =>
    cases rest with
    | nil => exact keeps
    | cons c rest =>
      simp only [Desktop.call]
      -- Looking a host up writes nothing.
      split <;> exact keeps
  | refreshing existing handled c rest => exact keeps.proceed fun _ updated => keeps.update updated

/-- The tallies of the store are those that the marks say, from where they began. -/
def Exact (begun : Int → Tally) (marked : Marked) : Prop :=
  Keeps (fun id => Tally.afterAll id (begun id) marked.marks) marked.system.state.db

/-- One step keeps the tallies exact. -/
theorem exact_step {begun : Int → Tally} {marked next : Marked} {step : Scheduled}
    (exact_ : Exact begun marked) (taken : markedStep marked step = some next) :
    Exact begun next := by
  obtain ⟨system, stepped, rfl⟩ := Option.map_eq_some_iff.mp taken
  cases step with
  | start job =>
    cases stepped
    dsimp only [Exact]
    rw [List.append_nil]
    exact exact_
  | call index =>
    obtain ⟨before, after, job, phase, -, chosen, -, rfl⟩ := concurrentStep_call stepped
    have called : Keeps _ (Desktop.call job marked.system.state phase).1.db :=
      Keeps.call exact_ phase
    -- The marks so far come before the one of the call.
    dsimp only [Exact]
    rw [chosen, state_landed]
    simp only [Option.bind_some, Tally.afterAll, List.foldl_append]
    exact called

/-- A call counts what its phase says. -/
theorem markOf_connection (job : Job) (db : Database) (phase : Phase) :
    (markOf job db phase).bind Mark.connection = phase.connection := by
  -- The mark of an insert is never a connection, whether the row went in or not.
  have uncounted : ∀ created : Except StoreError (Int × Database),
      (Desktop.insertion created).bind Mark.connection = none := by
    intro created
    cases created <;> rfl
  cases phase with
  | inserting dto secret => exact uncounted _
  | importing handled c rest => exact uncounted _
  | _ => rfl

/-- Only a phase that counts a connection does, and its call ends its command with success. -/
theorem call_of_connection {phase : Phase} {connection : Int × Int}
    (counts : phase.connection = some connection) :
    (Desktop.call job state phase).2 = .done (.ok ()) := by
  cases phase with
  | counting id at_ => rfl
  | _ => cases counts

/-- No call leads to one that counts a connection. -/
theorem connection_of_next {phase following : Phase}
    (called : (Desktop.call job state phase).2 = .next following) :
    following.connection = none := by
  cases leads_of_call called <;> rfl

/-- Every command that runs is still to count its connection, and each that succeeded has. -/
structure Credited (marked : Marked) : Prop where
  running : ∀ worker ∈ marked.system.running,
    worker.phase.connection = worker.job.command.connection
  succeeded : marked.marks.filterMap Mark.connection =
    marked.system.succeeded.filterMap fun job => job.command.connection

/-- One step keeps the connections credited. -/
theorem credited_step {marked next : Marked} {step : Scheduled} (credited : Credited marked)
    (taken : markedStep marked step = some next) : Credited next := by
  obtain ⟨system, stepped, rfl⟩ := Option.map_eq_some_iff.mp taken
  cases step with
  | start job =>
    cases stepped
    refine ⟨?_, ?_⟩
    · intro worker member
      rcases List.mem_append.mp member with old | new
      · exact credited.running worker old
      · rw [List.mem_singleton.mp new]
        -- A command that starts has counted nothing yet.
        cases job.command <;> rfl
    · simpa using credited.succeeded
  | call index =>
    obtain ⟨before, after, job, phase, split, chosen, -, rfl⟩ := concurrentStep_call stepped
    obtain ⟨running, succeeded⟩ := credited
    rw [split] at running
    have mine := running ⟨job, phase⟩ (by simp)
    -- A command whose call does not end it with success counts nothing.
    have idle : (Desktop.call job marked.system.state phase).2 ≠ .done (.ok ()) →
        job.command.connection = none := by
      intro unfinished
      cases counted : phase.connection with
      | none => exact mine.symm.trans counted
      | some connection => exact absurd (call_of_connection counted) unfinished
    refine ⟨?_, ?_⟩
    · intro worker member
      rcases mem_landed member with beside | ⟨following, called, rfl⟩
      · refine running worker ?_
        -- The others run on as they did.
        simp only [List.mem_append] at beside ⊢
        tauto
      · exact (connection_of_next called).trans (idle (by simp [called])).symm
    · -- The mark of the call counts what the command does, if anything.
      have left := markOf_connection job marked.system.state.db phase
      have grown : (marked.marks ++ (markOf job marked.system.state.db phase).toList).filterMap
          Mark.connection =
            (marked.system.succeeded.filterMap fun job => job.command.connection) ++
              job.command.connection.toList := by
        rw [List.filterMap_append, succeeded, ← mine, ← left]
        cases markOf job marked.system.state.db phase with
        | none => rfl
        | some mark => cases mark <;> rfl
      dsimp only
      rw [chosen]
      refine grown.trans ?_
      -- The command goes on, or is over with success or without.
      cases called : Desktop.call job marked.system.state phase with
      | mk reached turn =>
        rw [called] at idle
        cases turn with
        | next following => simp [landed, idle (by simp)]
        | done result =>
          cases result with
          | ok _ => cases ends : job.command.connection <;> simp [landed, ends]
          | error reason => simp [landed, idle (by simp)]

/-- Where the hosts have ids of their own, every row begins with its own tally. -/
theorem keeps_begun {db : Database} (unique : (db.hosts.map HostRow.id).Nodup) :
    Keeps (begun db) db := by
  intro row member
  rw [begun, lookup_of_mem unique member]
  rfl

end Runs

end Tern.Desktop
