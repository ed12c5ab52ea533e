import Mathlib.Algebra.Order.Group.Int
import Mathlib.Order.MinMax
import Tern.Base.System

/-! The numbered migrations of the store: what a run leaves behind, wherever it fails. -/

namespace Tern.Store.Migrate

variable {σ : Type}

/-- One statement of a migration, over a database whose other tables are of any kind. -/
inductive Statement (σ : Type) where
  /-- The statement that creates the table of versions itself. -/
  | createVersionTable
  /-- Any other statement, which the database may refuse. -/
  | change (effect : σ → Option σ)

/-- A numbered migration. -/
structure Migration (σ : Type) where
  version : Int
  statements : List (Statement σ)

/-- A database with the versions it has recorded, if there is a table for them yet. -/
structure Versioned (σ : Type) where
  schema : σ
  recorded : Option (List Int)
  deriving DecidableEq, Repr

/-- A database that no migration has touched. -/
def Versioned.fresh (blank : σ) : Versioned σ := ⟨blank, none⟩

/-- The versions a database has recorded. -/
def Versioned.versions (db : Versioned σ) : List Int := db.recorded.getD []

/-- The database after one statement. -/
def Statement.exec (statement : Statement σ) (db : Versioned σ) : Option (Versioned σ) :=
  match statement with
  | .createVersionTable => if db.recorded.isSome then none else some { db with recorded := some [] }
  | .change effect => (effect db.schema).map fun schema => { db with schema }

/-- The database with one more version, which is its table's primary key. -/
def Versioned.record (db : Versioned σ) (version : Int) : Option (Versioned σ) :=
  db.recorded.bind fun versions =>
    if version ∈ versions then none else some { db with recorded := some (versions ++ [version]) }

/-- What a run of the migrations can fail with. -/
inductive MigrateError where
  | sqlite
  | schemaAhead (db app : Int)
  deriving DecidableEq, Repr

/-- The places where a run can fail, whatever the database would have answered. -/
inductive Point where
  | reading
  | begin_ (version : Int)
  | statement (version : Int) (index : Nat)
  | recording (version : Int)
  | commit (version : Int)
  deriving DecidableEq, Repr

/-- The highest version that a list of migrations leads to. -/
def targetVersion (migrations : List (Migration σ)) : Int :=
  (migrations.getLast?.map Migration.version).getD 0

/-- The version a database has reached. -/
def appliedVersion (db : Versioned σ) : Int :=
  match db.recorded with
  -- A database without the table is at version zero, and so is one with an empty table.
  | none => 0
  | some versions => versions.max?.getD 0

section Running

variable (fails : Point → Bool)

/-- The database after statements of one migration, from one of them on. -/
def execBatch (version : Int) : Nat → List (Statement σ) → Versioned σ → Option (Versioned σ)
  | _, [], db => some db
  | index, statement :: rest, db =>
    if fails (.statement version index) then none
    else (statement.exec db).bind fun next => execBatch version (index + 1) rest next

/-- The database that a migration's transaction commits, if it gets there. -/
def transaction (migration : Migration σ) (db : Versioned σ) : Option (Versioned σ) :=
  if fails (.begin_ migration.version) then none
  else (execBatch fails migration.version 0 migration.statements db).bind fun changed =>
    if fails (.recording migration.version) then none
    else (changed.record migration.version).bind fun recorded =>
      if fails (.commit migration.version) then none else some recorded

/-- What a run answers, what it leaves, and the versions whose transactions it committed. -/
structure Outcome (σ : Type) where
  result : Except MigrateError Unit
  db : Versioned σ
  committed : List Int

/-- Apply the migrations that are newer than the version read at the start. -/
def applyFrom (current : Int) : List (Migration σ) → Versioned σ → Outcome σ
  | [], db => ⟨.ok (), db, []⟩
  | migration :: rest, db =>
    if migration.version ≤ current then applyFrom current rest db
    else match transaction fails migration db with
      -- A transaction that is not committed is rolled back.
      | none => ⟨.error .sqlite, db, []⟩
      | some next =>
        let onward := applyFrom current rest next
        { onward with committed := migration.version :: onward.committed }

/-- Apply every migration newer than the database's current version. -/
def run (migrations : List (Migration σ)) (db : Versioned σ) : Outcome σ :=
  if fails .reading then ⟨.error .sqlite, db, []⟩
  else
    let current := appliedVersion db
    let target := targetVersion migrations
    if target < current then ⟨.error (.schemaAhead current target), db, []⟩
    else applyFrom fails current migrations db

end Running

/-- Nothing fails but what the database refuses. -/
def calm : Point → Bool := fun _ => false

section Commits

/-- The database after statements that nothing disturbs. -/
def execAll (db : Versioned σ) (statements : List (Statement σ)) : Option (Versioned σ) :=
  statements.foldlM (fun (db : Versioned σ) (statement : Statement σ) => statement.exec db) db

/-- The database after a whole migration, with its version recorded. -/
def commitAll (db : Versioned σ) (migration : Migration σ) : Option (Versioned σ) :=
  (execAll db migration.statements).bind fun changed => changed.record migration.version

/-- What one statement makes of everything but the table of versions. -/
def Statement.effect (schema : σ) : Statement σ → Option σ
  | .createVersionTable => some schema
  | .change effect => effect schema

/-- What migrations make of everything but the table of versions, one after another. -/
def schemaAfter (migrations : List (Migration σ)) (blank : σ) : Option σ :=
  (migrations.flatMap Migration.statements).foldlM Statement.effect blank

variable {fails : Point → Bool} {migration : Migration σ} {db next : Versioned σ}

/-- A statement has its effect, and leaves the versions that are recorded. -/
theorem Statement.exec_eq {statement : Statement σ} (done : statement.exec db = some next) :
    statement.effect db.schema = some next.schema ∧ next.versions = db.versions := by
  cases statement with
  | createVersionTable =>
    obtain ⟨missing, same⟩ := Option.ite_none_left_eq_some.mp done
    cases same
    -- A table that was just created holds no version, and neither does one that is not there.
    rw [Option.not_isSome_iff_eq_none] at missing
    exact ⟨rfl, by rw [Versioned.versions, Versioned.versions, missing]; rfl⟩
  | change effect =>
    obtain ⟨schema, accepted, rfl⟩ := Option.map_eq_some_iff.mp done
    exact ⟨accepted, rfl⟩

/-- Statements have their effects in order, and leave the versions that are recorded. -/
theorem execAll_eq {statements : List (Statement σ)} (done : execAll db statements = some next) :
    statements.foldlM Statement.effect db.schema = some next.schema ∧
      next.versions = db.versions := by
  induction statements generalizing db with
  | nil =>
    cases done
    exact ⟨rfl, rfl⟩
  | cons statement rest ih =>
    rw [execAll, List.foldlM_cons] at done
    obtain ⟨middle, first, onward⟩ := Option.bind_eq_some_iff.mp done
    -- The first statement has its effect, and the rest follow from there.
    obtain ⟨effect, versions⟩ := Statement.exec_eq first
    obtain ⟨effects, later⟩ := ih onward
    rw [List.foldlM_cons, effect]
    exact ⟨effects, later.trans versions⟩

/-- A version is recorded behind those that were there, and is none of them. -/
theorem record_eq {version : Int} (recorded : db.record version = some next) :
    next.schema = db.schema ∧ next.versions = db.versions ++ [version] ∧
      next.recorded = some next.versions := by
  -- The row is inserted only if there is a table and no such version in it.
  obtain ⟨versions, table, inserted⟩ := Option.bind_eq_some_iff.mp recorded
  obtain ⟨-, same⟩ := Option.ite_none_left_eq_some.mp inserted
  cases same
  refine ⟨rfl, ?_, rfl⟩
  rw [Versioned.versions, Versioned.versions, table]
  rfl

/-- A migration has the effects of its statements, and records its version. -/
theorem commitAll_eq (done : commitAll db migration = some next) :
    migration.statements.foldlM Statement.effect db.schema = some next.schema ∧
      next.versions = db.versions ++ [migration.version] ∧
      next.recorded = some next.versions := by
  obtain ⟨changed, executed, recorded⟩ := Option.bind_eq_some_iff.mp done
  obtain ⟨effects, before⟩ := execAll_eq executed
  obtain ⟨schema, versions, table⟩ := record_eq recorded
  exact ⟨by rw [schema]; exact effects, by rw [versions, before], table⟩

/-- Statements that get through have done what they do undisturbed. -/
theorem execBatch_eq {version : Int} {index : Nat} {statements : List (Statement σ)}
    (done : execBatch fails version index statements db = some next) :
    execAll db statements = some next := by
  -- A statement that was disturbed would have ended the batch.
  induction statements generalizing index db with
  | nil => exact done
  | cons statement rest ih =>
    obtain ⟨-, onward⟩ := Option.ite_none_left_eq_some.mp done
    obtain ⟨middle, first, later⟩ := Option.bind_eq_some_iff.mp onward
    rw [execAll, List.foldlM_cons, first]
    exact ih later

/-- Undisturbed statements do what they do. -/
theorem execBatch_calm (version : Int) (index : Nat) (statements : List (Statement σ)) :
    execBatch calm version index statements db = execAll db statements := by
  -- Nothing is ever disturbed, so the batch runs its statements one by one.
  induction statements generalizing index db with
  | nil => rfl
  | cons statement rest ih =>
    rw [execAll, List.foldlM_cons, execBatch, calm, if_neg Bool.false_ne_true]
    exact congrArg _ (funext fun next => ih (index + 1))

/-- A transaction commits the whole migration or nothing. -/
theorem transaction_eq (committed : transaction fails migration db = some next) :
    commitAll db migration = some next := by
  -- Four things could have failed, and then nothing would have been committed.
  obtain ⟨-, begun⟩ := Option.ite_none_left_eq_some.mp committed
  obtain ⟨changed, executed, recording⟩ := Option.bind_eq_some_iff.mp begun
  obtain ⟨-, inserting⟩ := Option.ite_none_left_eq_some.mp recording
  obtain ⟨recorded, inserted, committing⟩ := Option.bind_eq_some_iff.mp inserting
  obtain ⟨-, same⟩ := Option.ite_none_left_eq_some.mp committing
  cases same
  rw [commitAll, execBatch_eq executed, Option.bind_some]
  exact inserted

/-- An undisturbed transaction commits what its migration does. -/
theorem transaction_calm (migration : Migration σ) (db : Versioned σ) :
    transaction calm migration db = commitAll db migration := by
  simp [transaction, commitAll, execBatch_calm, calm]

end Commits

section Prefixes

variable {blank : σ} {fails : Point → Bool} {done todo migrations : List (Migration σ)}
  {db next : Versioned σ} {current : Int}

/-- Migrations have the effects of all their statements, and record their versions in order. -/
theorem foldlM_commitAll {start : Versioned σ} (applied : done.foldlM commitAll start = some db) :
    schemaAfter done start.schema = some db.schema ∧
      db.versions = start.versions ++ done.map Migration.version ∧
      (done ≠ [] → db.recorded = some db.versions) := by
  induction done generalizing start with
  | nil =>
    cases applied
    exact ⟨rfl, (List.append_nil _).symm, fun some_ => absurd rfl some_⟩
  | cons migration rest ih =>
    rw [List.foldlM_cons] at applied
    obtain ⟨middle, first, onward⟩ := Option.bind_eq_some_iff.mp applied
    -- The first migration is recorded in front of the versions of the others.
    obtain ⟨effects, versions, table⟩ := commitAll_eq first
    obtain ⟨others, later, kept⟩ := ih onward
    refine ⟨?_, by rw [later, versions, List.append_assoc]; rfl, fun _ => ?_⟩
    · rw [schemaAfter, List.flatMap_cons, List.foldlM_append, effects]
      exact others
    · -- The last migration of all wrote to the table, whichever it was.
      cases rest with
      | nil =>
        cases onward
        exact table
      | cons _ _ => exact kept (List.cons_ne_nil _ _)

/-- What is recorded are the versions that were applied. -/
theorem versions_applied (applied : done.foldlM commitAll (.fresh blank) = some db) :
    db.versions = done.map Migration.version :=
  (foldlM_commitAll applied).2.1

/-- The version a database has reached is the largest it has applied, or zero. -/
theorem appliedVersion_eq (applied : done.foldlM commitAll (.fresh blank) = some db) :
    appliedVersion db = (done.map Migration.version).max?.getD 0 := by
  -- The table is there once a migration has been applied, with the versions that were.
  cases done with
  | nil =>
    cases applied
    rfl
  | cons migration rest =>
    have table := (foldlM_commitAll applied).2.2 (List.cons_ne_nil _ _)
    rw [appliedVersion, table, versions_applied applied]

/-- The version reached lies between the migrations that were applied and those that were not. -/
theorem appliedVersion_between
    (ascending : ((done ++ todo).map Migration.version).Pairwise (· < ·))
    (positive : ∀ migration ∈ done ++ todo, 0 < migration.version)
    (applied : done.foldlM commitAll (.fresh blank) = some db) :
    (∀ migration ∈ done, migration.version ≤ appliedVersion db) ∧
      ∀ migration ∈ todo, appliedVersion db < migration.version := by
  rw [appliedVersion_eq applied]
  rw [List.map_append, List.pairwise_append] at ascending
  cases largest : (done.map Migration.version).max? with
  | none =>
    rw [List.max?_eq_none_iff, List.map_eq_nil_iff] at largest
    subst largest
    -- Nothing was applied, and zero is below every version.
    exact ⟨fun _ member => absurd member List.not_mem_nil, positive⟩
  | some version =>
    -- The largest version that was applied bounds those before it, and the list ascends.
    obtain ⟨reached, bound⟩ := List.max?_eq_some_iff.mp largest
    refine ⟨fun migration member => bound _ (List.mem_map_of_mem member), ?_⟩
    intro migration member
    exact ascending.2.2 version reached migration.version (List.mem_map_of_mem member)

/-- In an ascending list no version is above the target. -/
theorem le_targetVersion (ascending : (migrations.map Migration.version).Pairwise (· < ·))
    {migration : Migration σ} (member : migration ∈ migrations) :
    migration.version ≤ targetVersion migrations := by
  -- The target is the version of the last migration.
  obtain ⟨front, last, rfl⟩ :=
    (List.eq_nil_or_concat migrations).resolve_left (List.ne_nil_of_mem member)
  rw [List.concat_eq_append] at ascending member ⊢
  rw [targetVersion, List.getLast?_concat, Option.map_some, Option.getD_some]
  rw [List.map_append, List.pairwise_append] at ascending
  rcases List.mem_append.mp member with early | same
  · exact le_of_lt (ascending.2.2 _ (List.mem_map_of_mem early) _ List.mem_cons_self)
  · rw [List.mem_singleton.mp same]

/-- Migrations that are not newer are passed over. -/
theorem applyFrom_skip (old : ∀ migration ∈ done, migration.version ≤ current) :
    applyFrom fails current (done ++ todo) db = applyFrom fails current todo db := by
  -- Each of them is compared with the version that was reached and passed over.
  induction done with
  | nil => rfl
  | cons migration rest ih =>
    rw [List.cons_append, applyFrom, if_pos (old migration List.mem_cons_self)]
    exact ih fun later member => old later (List.mem_cons_of_mem _ member)

/-- Of newer migrations, a run commits the first ones, and all of them when it succeeds. -/
theorem applyFrom_newer (newer : ∀ migration ∈ todo, current < migration.version) :
    ∃ more rest, todo = more ++ rest ∧
      more.foldlM commitAll db = some (applyFrom fails current todo db).db ∧
      (applyFrom fails current todo db).committed = more.map Migration.version ∧
      ((applyFrom fails current todo db).result = .ok () → rest = []) := by
  -- The induction is on the migrations, each of which is due.
  induction todo generalizing db with
  | nil => exact ⟨[], [], rfl, rfl, rfl, fun _ => rfl⟩
  | cons migration others ih =>
    have due : ¬migration.version ≤ current := not_le.mpr (newer migration List.mem_cons_self)
    rw [applyFrom, if_neg due]
    cases committed : transaction fails migration db with
    | none =>
      -- The run stops here, with everything before this migration committed.
      refine ⟨[], migration :: others, rfl, rfl, rfl, ?_⟩
      intro succeeded
      cases succeeded
    | some next =>
      -- This one is committed, and the run goes on from the next database.
      obtain ⟨more, rest, split, folded, named, ended⟩ :=
        @ih next fun later member => newer later (List.mem_cons_of_mem _ member)
      refine ⟨migration :: more, rest, by rw [split, List.cons_append], ?_, ?_, ended⟩
      · rw [List.foldlM_cons, transaction_eq committed]
        exact folded
      · show migration.version :: _ = _
        rw [named, List.map_cons]

/-- An undisturbed run commits all newer migrations, if the database takes them. -/
theorem applyFrom_calm (newer : ∀ migration ∈ todo, current < migration.version)
    (taken : todo.foldlM commitAll db = some next) :
    applyFrom calm current todo db = ⟨.ok (), next, todo.map Migration.version⟩ := by
  induction todo generalizing db with
  | nil =>
    cases taken
    rfl
  | cons migration others ih =>
    -- A newer migration is never skipped.
    have due : ¬migration.version ≤ current := not_le.mpr (newer migration List.mem_cons_self)
    obtain ⟨middle, first, onward⟩ := Option.bind_eq_some_iff.mp taken
    rw [applyFrom, if_neg due, transaction_calm, first]
    dsimp only
    rw [ih (fun later member => newer later (List.mem_cons_of_mem _ member)) onward,
      List.map_cons]

end Prefixes

section Calls

/-- A database, and the versions whose transactions were committed on it so far. -/
structure History (σ : Type) where
  db : Versioned σ
  committed : List Int

/-- One call that runs the migrations, and that may fail at any of the points. -/
def callStep (migrations : List (Migration σ)) (history : History σ) (fails : Point → Bool) :
    Option (History σ) :=
  let outcome := run fails migrations history.db
  some ⟨outcome.db, history.committed ++ outcome.committed⟩

/-- The first migrations were committed, each of them once, and nothing else happened. -/
def Resumed (blank : σ) (migrations : List (Migration σ)) (history : History σ) : Prop :=
  ∃ done todo, migrations = done ++ todo ∧
    done.foldlM commitAll (.fresh blank) = some history.db ∧
    history.committed = done.map Migration.version

variable {blank : σ} {migrations : List (Migration σ)} {fails : Point → Bool}
  {history next : History σ}

/-- A run that can read goes on behind the migrations that were committed. -/
theorem run_of_applied (ascending : (migrations.map Migration.version).Pairwise (· < ·))
    (positive : ∀ migration ∈ migrations, 0 < migration.version)
    {done todo : List (Migration σ)} {db : Versioned σ} (split : migrations = done ++ todo)
    (applied : done.foldlM commitAll (.fresh blank) = some db)
    (readable : fails .reading = false) :
    run fails migrations db = applyFrom fails (appliedVersion db) todo db := by
  obtain ⟨old, -⟩ := appliedVersion_between (split ▸ ascending) (split ▸ positive) applied
  -- What was reached is one of the versions of the list, or zero.
  have reached : appliedVersion db ≤ targetVersion migrations := by
    rw [appliedVersion_eq applied]
    cases largest : (done.map Migration.version).max? with
    | none =>
      cases migrations with
      | nil => exact le_rfl
      | cons migration rest =>
        exact le_of_lt (lt_of_lt_of_le (positive migration List.mem_cons_self)
          (le_targetVersion ascending List.mem_cons_self))
    | some version =>
      obtain ⟨member, -⟩ := List.max?_eq_some_iff.mp largest
      -- The largest of those committed is the version of one in the list.
      obtain ⟨migration, there, rfl⟩ := List.mem_map.mp member
      exact le_targetVersion ascending (split ▸ List.mem_append_left _ there)
  unfold run
  rw [if_neg (by simp [readable])]
  dsimp only
  rw [if_neg (not_lt.mpr reached), split, applyFrom_skip old]

/-- One call leaves the first migrations committed, each of them once. -/
theorem resumed_step (ascending : (migrations.map Migration.version).Pairwise (· < ·))
    (positive : ∀ migration ∈ migrations, 0 < migration.version)
    (resumed : Resumed blank migrations history)
    (taken : callStep migrations history fails = some next) : Resumed blank migrations next := by
  obtain ⟨done, todo, split, applied, committed⟩ := resumed
  cases taken
  cases readable : fails .reading with
  | true =>
    -- A call that cannot even read commits nothing.
    refine ⟨done, todo, split, ?_, ?_⟩
    · rw [run, if_pos readable]
      exact applied
    · rw [run, if_pos readable, List.append_nil]
      exact committed
  | false =>
    obtain ⟨-, newer⟩ := appliedVersion_between (split ▸ ascending) (split ▸ positive) applied
    obtain ⟨more, rest, onward, folded, named, -⟩ :=
      @applyFrom_newer _ fails todo history.db _ newer
    rw [run_of_applied ascending positive split applied readable]
    -- What this call committed follows on what was committed before.
    refine ⟨done ++ more, rest, by rw [split, onward, List.append_assoc], ?_, ?_⟩
    · rw [List.foldlM_append, applied]
      exact folded
    · show history.committed ++ _ = _
      rw [named, committed, List.map_append]

/-- A call that succeeds has committed every migration. -/
theorem resumed_ok (ascending : (migrations.map Migration.version).Pairwise (· < ·))
    (positive : ∀ migration ∈ migrations, 0 < migration.version)
    (resumed : Resumed blank migrations history)
    (succeeded : (run fails migrations history.db).result = .ok ()) :
    migrations.foldlM commitAll (.fresh blank) = some (run fails migrations history.db).db := by
  obtain ⟨done, todo, split, applied, -⟩ := resumed
  cases readable : fails .reading with
  | true =>
    -- A call that cannot read does not succeed.
    rw [run, if_pos readable] at succeeded
    cases succeeded
  | false =>
    obtain ⟨-, newer⟩ := appliedVersion_between (split ▸ ascending) (split ▸ positive) applied
    obtain ⟨more, rest, onward, folded, -, ended⟩ :=
      @applyFrom_newer _ fails todo history.db _ newer
    rw [run_of_applied ascending positive split applied readable] at succeeded ⊢
    -- Nothing is left behind what this call committed.
    have all : todo = more := by rw [onward, ended succeeded, List.append_nil]
    subst all
    rw [split, List.foldlM_append, applied]
    exact folded

/--
However often the migrations are run on a database, and wherever the runs fail,
the versions recorded are the first ones of the list, the schema is what these migrations make,
none of them is committed twice, and a run that succeeds ends where an undisturbed one would have;
a database from a newer list is refused and left as it is.
-/
theorem migrations_resumable (blank : σ) (migrations : List (Migration σ))
    (ascending : (migrations.map Migration.version).Pairwise (· < ·))
    (positive : ∀ migration ∈ migrations, 0 < migration.version)
    (attempts : List (Point → Bool)) (final : History σ)
    (ran : System.run (callStep migrations) ⟨.fresh blank, []⟩ attempts = some final) :
    (∃ done, done <+: migrations ∧ final.db.versions = done.map Migration.version ∧
      schemaAfter done blank = some final.db.schema) ∧
    final.committed = final.db.versions ∧ final.committed.Nodup ∧
    (∀ fails, (run fails migrations final.db).result = .ok () →
      run calm migrations (.fresh blank) =
        ⟨.ok (), (run fails migrations final.db).db, migrations.map Migration.version⟩) ∧
    ∀ (db : Versioned σ) fails, targetVersion migrations < appliedVersion db →
      fails .reading = false → run fails migrations db =
        ⟨.error (.schemaAhead (appliedVersion db) (targetVersion migrations)), db, []⟩ := by
  -- In every history the first migrations have been committed, each of them once.
  have resumed : Resumed blank migrations final :=
    System.run_preserves (fun resumed taken => resumed_step ascending positive resumed taken)
      ⟨[], migrations, rfl, rfl, rfl⟩ ran
  obtain ⟨done, todo, split, applied, committed⟩ := id resumed
  obtain ⟨effects, versions, -⟩ := foldlM_commitAll applied
  refine ⟨⟨done, ⟨todo, split.symm⟩, versions, effects⟩, committed.trans versions.symm, ?_, ?_, ?_⟩
  · rw [committed]
    rw [split, List.map_append, List.pairwise_append] at ascending
    exact ascending.1.imp ne_of_lt
  · intro fails succeeded
    have whole := resumed_ok ascending positive resumed succeeded
    -- The undisturbed run starts from nothing, where every migration is newer.
    rw [run_of_applied ascending positive (List.nil_append migrations).symm rfl rfl]
    exact applyFrom_calm positive whole
  · intro db fails ahead readable
    unfold run
    rw [if_neg (by simp [readable])]
    exact if_pos ahead

end Calls

section Lists

/-- A table or an index is created once. -/
def createObject (name : String) : Statement (List String) :=
  .change fun objects => if name ∈ objects then none else some (objects ++ [name])

/-- A column is added once, to a table that is there. -/
def addColumn (table column : String) : Statement (List String) :=
  .change fun objects =>
    if table ∈ objects ∧ table ++ "." ++ column ∉ objects then
      some (objects ++ [table ++ "." ++ column])
    else none

/-- The migrations of the store, by the names of what they create. -/
def migrations : List (Migration (List String)) :=
  [⟨1, .createVersionTable ::
      ["folders", "folders_parent_name", "hosts", "hosts_folder", "hosts_last_connected",
        "hosts_source_alias", "tags", "tags_name_nocase", "host_tags", "host_tags_tag",
        "settings"].map createObject⟩,
    ⟨2, [addColumn "hosts" "auth_fallbacks"]⟩]

/-- A run that is cut off in the second migration, and the next one, end where a single run does. -/
theorem migrations_resumable_interrupted :
    ∃ final, System.run (callStep migrations) ⟨.fresh [], []⟩
        [fun point => point == .statement 2 0] = some final ∧
      final.db.versions = [1] ∧
      run calm migrations (.fresh []) =
        ⟨.ok (), (run calm migrations final.db).db, [1, 2]⟩ := by
  refine ⟨_, rfl, rfl, ?_⟩
  exact (migrations_resumable [] migrations (by decide) (by decide)
    [fun point => point == .statement 2 0] _ rfl).2.2.2.1 calm rfl

/-- A list that is numbered from zero. -/
def numberedFromZero : List (Migration Unit) := [⟨0, []⟩, ⟨1, [.createVersionTable]⟩]

/-- The migration numbered zero is never applied, so that what is recorded is no prefix. -/
theorem migration_zero_never_applied :
    (numberedFromZero.map Migration.version).Pairwise (· < ·) ∧
    ∃ final, System.run (callStep numberedFromZero) ⟨.fresh (), []⟩ [calm] = some final ∧
      ¬∃ done, done <+: numberedFromZero ∧ final.db.versions = done.map Migration.version := by
  refine ⟨by decide, _, rfl, ?_⟩
  rintro ⟨done, ⟨todo, split⟩, versions⟩
  -- Only the version one is recorded, with which no prefix begins.
  have recorded : [1] = done.map Migration.version := versions
  cases done with
  | nil => cases recorded
  | cons first rest =>
    have named : first.version = 0 := congrArg Migration.version (List.cons.inj split).1
    have same : 1 = first.version := (List.cons.inj recorded).1
    omega

end Lists

end Tern.Store.Migrate
