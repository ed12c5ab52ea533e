import Tern.Desktop.Stranded

/-! The store commands as they run beside each other, one repository call at a time. -/

namespace Tern.Desktop

open Tern.Store

/-- A command that writes the store, from the webview or from a connection. -/
inductive StoreCommand where
  | createHost (dto : NewHostDto) (secret : Option String)
  | updateHost (dto : HostDto) (secret : SecretUpdateDto)
  | deleteHost (id : Int)
  | moveHost (id : Int) (folderId : Option Int)
  | setHostTags (id : Int) (tagIds : List Int)
  | importSshConfig (chosen : List Candidate)
  | recordConnection (id at_ : Int)

/-- A command with the calls to the keyring that fail while it runs, and the time it writes. -/
structure Job where
  command : StoreCommand
  faults : Faults
  now : Int

section Alone

/-- The outcome of a call to the store as a command reports it. -/
def report (state : AppState) : Except StoreError Database → AppState × Except CommandError Unit
  | .error reason => (state, .error (.store reason))
  | .ok db => ({ state with db := db }, .ok ())

/-- A command that runs with no other beside it. -/
def execute (job : Job) (state : AppState) : AppState × Except CommandError Unit :=
  match job.command with
  | .createHost dto secret =>
    let (state, result) := createHost job.now job.faults state dto secret
    (state, result.map fun _ => ())
  | .updateHost dto secret => updateHost job.now job.faults state dto secret
  | .deleteHost id => deleteHost job.faults state id
  | .moveHost id folderId => report state (moveToFolder job.now state.db id folderId)
  | .setHostTags id tagIds => report state (setTags state.db id tagIds)
  | .importSshConfig chosen =>
    let (db, result) := apply job.now state.db ⟨0, 0⟩ chosen
    ({ state with db := db }, match result with
      | .error reason => .error (.store reason)
      | .ok _ => .ok ())
  | .recordConnection id at_ => ({ state with db := recordConnection state.db id at_ }, .ok ())

end Alone

section Calls

/-- Where a command stands: the repository call it makes next, with what it has read so far. -/
inductive Phase where
  | inserting (dto : NewHostDto) (secret : Option String)
  | fetching (dto : HostDto) (secret : SecretUpdateDto)
  | saving (existing : Host) (dto : HostDto) (secret : SecretUpdateDto)
  | tagging (id : Int) (tags : List Int) (secret : SecretUpdateDto)
  | readingSecret (id : Int) (secret : SecretUpdateDto)
  | writingSecret (record : Host)
  | deleting (id : Int)
  | moving (id : Int) (folderId : Option Int)
  | settingTags (id : Int) (tagIds : List Int)
  | counting (id at_ : Int)
  /-- The candidates that were handled, and those that are left. -/
  | finding (handled rest : List Candidate)
  | refreshing (existing : Host) (handled : List Candidate) (c : Candidate)
    (rest : List Candidate)
  | importing (handled : List Candidate) (c : Candidate) (rest : List Candidate)

/-- What a call leads to: the command's next call, or its end. -/
inductive Turn where
  | next (phase : Phase)
  | done (result : Except CommandError Unit)

/-- The first call of a command. -/
def StoreCommand.first : StoreCommand → Phase
  | .createHost dto secret => .inserting dto secret
  | .updateHost dto secret => .fetching dto secret
  | .deleteHost id => .deleting id
  | .moveHost id folderId => .moving id folderId
  | .setHostTags id tagIds => .settingTags id tagIds
  | .importSshConfig chosen => .finding [] chosen
  | .recordConnection id at_ => .counting id at_

/-- What a creation does with the secret of its form, where an empty field is none. -/
def secretOf (secret : Option String) : SecretUpdateDto :=
  match secret.filter (· ≠ "") with
  | none => .unchanged
  | some text => .set text

/-- Past the tags, only the secret is left to treat. -/
def secretTurn (id : Int) : SecretUpdateDto → Turn
  | .unchanged => .done (.ok ())
  | secret => .next (.readingSecret id secret)

/-- Past a candidate, the rest of them is left. -/
def importTurn (handled : List Candidate) : List Candidate → Turn
  | [] => .done (.ok ())
  | rest => .next (.finding handled rest)

/-- Read the record a secret belongs to, and treat the secret itself in the keyring. -/
def treatSecret (faults : Faults) (state : AppState) (id : Int) (secret : SecretUpdateDto) :
    AppState × Turn :=
  match get state.db id with
  | .error reason => (state, .done (.error (.store reason)))
  | .ok none => (state, .done (.error (.noSuchHost id)))
  | .ok (some host) =>
    match secret with
    | .unchanged => (state, .done (.ok ()))
    | .set text =>
      match accountFor host with
      | none => (state, .done (.ok ()))
      | some account =>
        match setSecret faults state.keyring account text with
        | .error reason => (state, .done (.error (.vault reason)))
        | .ok keyring =>
          ({ state with
            keyring := keyring
            history := state.history ++
              (credentialRole (chain host)).toList.map fun role => .stored id role text },
            -- The record that is written back is the one that was read here.
            .next (.writingSecret { host with secretRef := some account }))
    | .clear =>
      match host.secretRef with
      | none => (state, .done (.ok ()))
      | some account =>
        match clearSecret faults state.keyring account with
        | .error reason => (state, .done (.error (.vault reason)))
        | .ok keyring =>
          ({ state with keyring := keyring },
            .next (.writingSecret { host with secretRef := none }))

/-- The outcome of a call that ends its command when it fails. -/
def proceed (state : AppState) (turn : Turn) : Except StoreError Database → AppState × Turn
  | .error reason => (state, .done (.error (.store reason)))
  | .ok db => ({ state with db := db }, turn)

/-- One repository call, and the work up to the next one. -/
def call (job : Job) (state : AppState) : Phase → AppState × Turn
  | .inserting dto secret =>
    match create job.now state.db (draftOfDto dto) with
    | .error reason => (state, .done (.error (.store reason)))
    | .ok (id, db) =>
      ({ state with db := db },
        if dto.tags.isEmpty then secretTurn id (secretOf secret)
        else .next (.tagging id dto.tags (secretOf secret)))
  | .fetching dto secret =>
    match get state.db dto.id with
    | .error reason => (state, .done (.error (.store reason)))
    | .ok none => (state, .done (.error (.noSuchHost dto.id)))
    | .ok (some existing) => (state, .next (.saving existing dto secret))
  | .saving existing dto secret =>
    proceed state (.next (.tagging dto.id dto.tags secret))
      (update job.now state.db (edited existing dto))
  | .tagging id tags secret => proceed state (secretTurn id secret) (setTags state.db id tags)
  | .readingSecret id secret => treatSecret job.faults state id secret
  | .writingSecret record => proceed state (.done (.ok ())) (update job.now state.db record)
  | .deleting id =>
    let (state, result) := deleteHost job.faults state id
    (state, .done result)
  | .moving id folderId =>
    proceed state (.done (.ok ())) (moveToFolder job.now state.db id folderId)
  | .settingTags id tagIds => proceed state (.done (.ok ())) (setTags state.db id tagIds)
  | .counting id at_ => ({ state with db := recordConnection state.db id at_ }, .done (.ok ()))
  | .finding _ [] => (state, .done (.ok ()))
  | .finding handled (c :: rest) =>
    match findBySourceAlias state.db c.alias_ with
    | .error reason => (state, .done (.error (.store reason)))
    | .ok (some existing) => (state, .next (.refreshing existing handled c rest))
    | .ok none => (state, .next (.importing handled c rest))
  | .refreshing existing handled c rest =>
    proceed state (importTurn (handled ++ [c]) rest)
      (update job.now state.db (refreshed existing c))
  | .importing handled c rest =>
    proceed state (importTurn (handled ++ [c]) rest)
      ((create job.now state.db (draftOf c)).map Prod.snd)

end Calls

section Uninterrupted

/-- The calls of a command from one of its phases on, with no other command's between them. -/
inductive Uninterrupted (job : Job) : AppState → Phase → AppState × Except CommandError Unit → Prop
  | done {state after : AppState} {phase : Phase} {result : Except CommandError Unit}
    (called : call job state phase = (after, .done result)) :
    Uninterrupted job state phase (after, result)
  | next {state middle : AppState} {phase following : Phase}
    {outcome : AppState × Except CommandError Unit}
    (called : call job state phase = (middle, .next following))
    (onward : Uninterrupted job middle following outcome) :
    Uninterrupted job state phase outcome

variable {job : Job} {state middle : AppState} {phase : Phase}

/-- The secret of a command is treated in its last two calls. -/
theorem Uninterrupted.readingSecret {id : Int} {secret : SecretUpdateDto}
    (asked : secret ≠ .unchanged) : Uninterrupted job state (.readingSecret id secret)
      (secretStep job.now job.faults state id secret) := by
  -- The first call ends the command, or asks the keyring and leaves the second one to write.
  cases secret with
  | unchanged => exact absurd rfl asked
  | set text =>
    unfold secretStep storeSecretFor
    cases shown : get state.db id with
    | error reason => exact .done (by simp [call, treatSecret, shown])
    | ok found =>
      cases found with
      | none => exact .done (by simp [call, treatSecret, shown])
      | some host =>
        cases owned : accountFor host with
        | none => exact .done (by simp [call, treatSecret, shown, owned])
        | some account =>
          cases kept : setSecret job.faults state.keyring account text with
          | error reason => exact .done (by simp [call, treatSecret, shown, owned, kept])
          | ok keyring =>
            -- The keyring has the secret, and the record is still to be written.
            simp only [owned, kept]
            refine .next (by simp only [call, treatSecret, shown, owned, kept]; rfl) (.done ?_)
            simp only [call]
            cases update job.now state.db { host with secretRef := some account } with
            | error reason => rfl
            | ok db => rfl
  | clear =>
    unfold secretStep clearSecretFor
    cases shown : get state.db id with
    | error reason => exact .done (by simp [call, treatSecret, shown])
    | ok found =>
      cases found with
      | none => exact .done (by simp [call, treatSecret, shown])
      | some host =>
        cases owned : host.secretRef with
        | none => exact .done (by simp [call, treatSecret, shown, owned])
        | some account =>
          cases kept : clearSecret job.faults state.keyring account with
          | error reason => exact .done (by simp [call, treatSecret, shown, owned, kept])
          | ok keyring =>
            -- The keyring has let go of it, and the record is still to be written.
            simp only [owned, kept]
            refine .next (by simp only [call, treatSecret, shown, owned, kept]; rfl) (.done ?_)
            simp only [call]
            cases update job.now state.db { host with secretRef := none } with
            | error reason => rfl
            | ok db => rfl

/-- Past the tags, a command treats its secret. -/
theorem Uninterrupted.secretTurn {id : Int} {secret : SecretUpdateDto}
    (called : call job state phase = (middle, secretTurn id secret)) :
    Uninterrupted job state phase (secretStep job.now job.faults middle id secret) := by
  cases secret with
  | unchanged => exact .done called
  | set text => exact .next called (.readingSecret (by simp))
  | clear => exact .next called (.readingSecret (by simp))

/-- Past its row, a creation does what an update does past the fields. -/
theorem createHost_eq (now : Int) (faults : Faults) (state : AppState) (dto : NewHostDto)
    (secret : Option String) :
    ((createHost now faults state dto secret).1,
      (createHost now faults state dto secret).2.map fun _ => ()) =
      match create now state.db (draftOfDto dto) with
      | .error reason => (state, .error (.store reason))
      | .ok (id, db) =>
        if dto.tags.isEmpty then secretStep now faults { state with db := db } id (secretOf secret)
        else match setTags db id dto.tags with
          | .error reason => ({ state with db := db }, .error (.store reason))
          | .ok db => secretStep now faults { state with db := db } id (secretOf secret) := by
  -- An answer without the id is the answer of the secret's step.
  have forgets : ∀ (outcome : AppState × Except CommandError Unit) (id : Int),
      (outcome.1, (outcome.2.map fun _ => id).map fun _ => ()) = outcome := by
    rintro ⟨reached, result⟩ id
    cases result <;> rfl
  -- Then both sides branch alike: on the row, on the tags, and on whether a secret is given.
  unfold createHost secretOf
  cases create now state.db (draftOfDto dto) with
  | error reason => rfl
  | ok result =>
    obtain ⟨id, db⟩ := result
    by_cases untagged : dto.tags.isEmpty = true
    · simp only [untagged, if_true]
      cases secret.filter (· ≠ "") with
      | none => rfl
      | some text => exact forgets _ id
    · simp only [untagged, Bool.false_eq_true, if_false]
      cases setTags db id dto.tags with
      | error reason => rfl
      | ok after =>
        cases secret.filter (· ≠ "") with
        | none => rfl
        | some text => exact forgets _ id

/-- What an update does past the fields: its tags, and then its secret. -/
theorem Uninterrupted.tagging {id : Int} {tags : List Int} {secret : SecretUpdateDto} :
    Uninterrupted job state (.tagging id tags secret)
      (match setTags state.db id tags with
      | .error reason => (state, .error (.store reason))
      | .ok db => secretStep job.now job.faults { state with db := db } id secret) := by
  cases tagged : setTags state.db id tags with
  | error reason => exact .done (by simp [call, proceed, tagged])
  | ok db => exact .secretTurn (by simp [call, proceed, tagged])

/-- The candidates of an import are handled one after the other. -/
theorem Uninterrupted.finding (handled rest : List Candidate) (outcome : ImportOutcome) :
    Uninterrupted job state (.finding handled rest)
      ({ state with db := (apply job.now state.db outcome rest).1 },
        match (apply job.now state.db outcome rest).2 with
        | .error reason => .error (.store reason)
        | .ok _ => .ok ()) := by
  induction rest generalizing state handled outcome with
  | nil => exact .done rfl
  | cons c rest ih =>
    -- What follows a candidate that was handled is the rest, or the end.
    have onward : ∀ {middle : AppState} {phase : Phase} {after : ImportOutcome},
        call job state phase = (middle, importTurn (handled ++ [c]) rest) →
        Uninterrupted job state phase ({ middle with db := (apply job.now middle.db after rest).1 },
          match (apply job.now middle.db after rest).2 with
          | .error reason => .error (.store reason)
          | .ok _ => .ok ()) := by
      intro middle phase after called
      cases rest with
      | nil => exact .done called
      | cons d more => exact .next called (ih (handled ++ [c]) after)
    unfold apply upsert
    -- The first call looks the alias up, and the second one refreshes or inserts.
    cases found : findBySourceAlias state.db c.alias_ with
    | error reason => exact .done (by simp [call, found])
    | ok known =>
      cases known with
      | some existing =>
        refine .next (by simp only [call, found]; rfl) ?_
        cases updated : update job.now state.db (refreshed existing c) with
        | error reason => exact .done (by simp [call, proceed, updated])
        | ok db =>
          have called : call job state (.refreshing existing handled c rest) =
              ({ state with db := db }, importTurn (handled ++ [c]) rest) := by
            simp [call, proceed, updated]
          simp only [updated]
          -- The host that was imported before is refreshed, and the rest follows.
          exact onward called
      | none =>
        refine .next (by simp only [call, found]; rfl) ?_
        cases created : create job.now state.db (draftOf c) with
        | error reason => exact .done (by simp [call, proceed, created, Except.map])
        | ok result =>
          have called : call job state (.importing handled c rest) =
              ({ state with db := result.2 }, importTurn (handled ++ [c]) rest) := by
            simp [call, proceed, created, Except.map]
          -- A host of that alias is new, and the rest follows.
          exact onward called

/-- The calls of a command with none of others between them do what the command does alone. -/
theorem uninterrupted_execute (job : Job) (state : AppState) :
    Uninterrupted job state job.command.first (execute job state) := by
  obtain ⟨command, faults, now⟩ := job
  -- Each command is followed call by call, and past its fields it is one of the cases above.
  cases command with
  | createHost dto secret =>
    simp only [StoreCommand.first, execute, createHost_eq]
    cases created : create now state.db (draftOfDto dto) with
    | error reason => exact .done (by simp [call, created])
    | ok result =>
      obtain ⟨id, db⟩ := result
      by_cases untagged : dto.tags.isEmpty = true
      · simp only [untagged, if_true]
        exact .secretTurn (by simp [call, created, untagged])
      · simp only [untagged, Bool.false_eq_true, if_false]
        -- With tags to set, the secret is treated a call later.
        have called : call ⟨.createHost dto secret, faults, now⟩ state (.inserting dto secret) =
            ({ state with db := db }, .next (.tagging id dto.tags (secretOf secret))) := by
          simp only [call, created, untagged, Bool.false_eq_true, if_false]
        exact .next called .tagging
  | updateHost dto secret =>
    simp only [StoreCommand.first, execute]
    unfold updateHost
    cases shown : get state.db dto.id with
    | error reason => exact .done (by simp [call, shown])
    | ok found =>
      cases found with
      | none => exact .done (by simp [call, shown])
      | some existing =>
        -- The record is read in one call and written in the next.
        refine .next (by simp only [call, shown]; rfl) ?_
        cases updated : update now state.db (edited existing dto) with
        | error reason => exact .done (by simp [call, proceed, updated])
        | ok db =>
          refine .next (by simp only [call, proceed, updated]; rfl) ?_
          -- What is left are the tags and the secret, under either kind of result.
          have tagged := @Uninterrupted.tagging ⟨.updateHost dto secret, faults, now⟩
            { state with db := db } dto.id dto.tags secret
          cases done : setTags db dto.id dto.tags with
          | error reason =>
            simp only [updated, done] at tagged ⊢
            exact tagged
          | ok after =>
            simp only [updated, done] at tagged ⊢
            cases secret <;> exact tagged
  -- The commands that are left take one call, or were followed above.
  | deleteHost id => exact .done rfl
  | moveHost id folderId =>
    refine .done ?_
    simp only [StoreCommand.first, call]
    cases moveToFolder now state.db id folderId <;> rfl
  | setHostTags id tagIds =>
    refine .done ?_
    simp only [StoreCommand.first, call]
    cases setTags state.db id tagIds <;> rfl
  | importSshConfig chosen => exact .finding [] chosen ⟨0, 0⟩
  | recordConnection id at_ => exact .done rfl

end Uninterrupted

section Concurrency

/-- A command that runs, and where it stands. -/
structure Worker where
  job : Job
  phase : Phase

/-- The commands that run beside each other, and those that have succeeded. -/
structure Concurrent where
  state : AppState
  running : List Worker
  succeeded : List Job

/-- What happens next: a command comes in, or one that runs gets the store for a call. -/
inductive Scheduled where
  | start (job : Job)
  | call (index : Nat)

/-- One step of the commands that run. -/
def concurrentStep (system : Concurrent) : Scheduled → Option Concurrent
  | .start job =>
    some { system with running := system.running ++ [⟨job, job.command.first⟩] }
  | .call index =>
    system.running[index]?.map fun worker =>
      let (state, turn) := call worker.job system.state worker.phase
      match turn with
      | .next phase =>
        { system with state := state, running := system.running.set index ⟨worker.job, phase⟩ }
      | .done (.ok ()) =>
        { state := state
          running := system.running.eraseIdx index
          succeeded := system.succeeded ++ [worker.job] }
      | .done (.error _) =>
        { system with state := state, running := system.running.eraseIdx index }

/-- A command of a sequential run, which goes on only if the command succeeds. -/
def serialStep (state : AppState) (job : Job) : Option AppState :=
  match execute job state with
  | (after, .ok ()) => some after
  | (_, .error _) => none

/--
Once no command runs any more,
the hosts are those that the commands which succeeded leave in some sequential order.
-/
def Serializable (start : AppState) (system : Concurrent) : Prop :=
  system.running = [] → ∃ order final, order.Perm system.succeeded ∧
    System.run serialStep start order = some final ∧ final.db.hosts = system.state.db.hosts

end Concurrency

end Tern.Desktop
