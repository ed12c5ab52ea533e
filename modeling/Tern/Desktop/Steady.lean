import Tern.Desktop.Serializable

/-! What stays of a host while commands run that are about others. -/

namespace Tern.Desktop

open Tern.Store

section Writes

/-- What one call of a phase can make of the store. -/
inductive Written (now : Int) (db : Database) : Phase → Database → Prop
  | nothing {phase : Phase} : Written now db phase db
  | created {phase : Phase} {draft : NewHost} {id : Int} {after : Database}
    (created : create now db draft = .ok (id, after)) : Written now db phase after
  | saved {existing : Host} {dto : HostDto} {secret : SecretUpdateDto} {after : Database}
    (updated : update now db (edited existing dto) = .ok after) :
    Written now db (.saving existing dto secret) after
  | recorded {record : Host} {after : Database} (updated : update now db record = .ok after) :
    Written now db (.writingSecret record) after
  | refreshed {existing : Host} {handled rest : List Candidate} {c : Candidate} {after : Database}
    (updated : update now db (refreshed existing c) = .ok after) :
    Written now db (.refreshing existing handled c rest) after
  | tagged {phase : Phase} {id : Int} {tags : List Int} {after : Database}
    (done : setTags db id tags = .ok after) : Written now db phase after
  | deleted {id : Int} {after : Database} (deleted : delete db id = .ok after) :
    Written now db (.deleting id) after
  | moved {id : Int} {folderId : Option Int} {after : Database}
    (moved : moveToFolder now db id folderId = .ok after) :
    Written now db (.moving id folderId) after
  | counted {id at_ : Int} : Written now db (.counting id at_) (recordConnection db id at_)

variable {now : Int} {db : Database} {job : Job} {state : AppState} {phase : Phase}

/-- A call that fails on the store leaves it. -/
theorem Written.proceed {turn : Turn} {result : Except StoreError Database}
    (written : ∀ after, result = .ok after → Written now state.db phase after) :
    Written now state.db phase (proceed state turn result).1.db := by
  cases result with
  | error reason => exact .nothing
  | ok after => exact written after rfl

/-- Treating a secret in the keyring leaves the store. -/
theorem treatSecret_db (faults : Faults) (state : AppState) (id : Int) (secret : SecretUpdateDto) :
    (treatSecret faults state id secret).1.db = state.db := by
  unfold treatSecret
  repeat' split
  all_goals rfl

/-- One call does to the store what its phase says, or nothing. -/
theorem written_call (job : Job) (state : AppState) (phase : Phase) :
    Written job.now state.db phase (call job state phase).1.db := by
  -- A phase makes one statement at most, and one that fails writes nothing.
  cases phase with
  | inserting dto secret =>
    simp only [call]
    -- A refused insert leaves the store, and an accepted one is the creation.
    cases created : create job.now state.db (draftOfDto dto) with
    | error reason => exact .nothing
    | ok answer => exact .created created
  | fetching dto secret =>
    simp only [call]
    split <;> exact .nothing
  | saving existing dto secret => exact .proceed fun _ updated => .saved updated
  | tagging id tags secret => exact .proceed fun _ done => .tagged done
  | readingSecret id secret =>
    -- The keyring is asked, and the store is only read.
    simp only [call, treatSecret_db]
    exact .nothing
  | writingSecret record => exact .proceed fun _ updated => .recorded updated
  | deleting id =>
    simp only [call, deleteHost]
    cases deleted : delete state.db id with
    | error reason => exact .nothing
    | ok after => exact .deleted deleted
  | moving id folderId => exact .proceed fun _ moved => .moved moved
  | settingTags id tags => exact .proceed fun _ done => .tagged done
  | counting id at_ => exact .counted
  | finding handled rest =>
    cases rest with
    | nil => exact .nothing
    | cons c rest =>
      simp only [call]
      -- The look-up of an alias writes nothing.
      split <;> exact .nothing
  | refreshing existing handled c rest => exact .proceed fun _ updated => .refreshed updated
  | importing handled c rest =>
    simp only [call]
    cases created : create job.now state.db (draftOf c) with
    | error reason => exact .nothing
    | ok answer => exact .created created

/-- One call keeps what the schema demands. -/
theorem Written.consistent {after : Database} (consistent : Consistent db)
    (written : Written now db phase after) : Consistent after := by
  -- Each statement keeps what the schema demands.
  cases written with
  | nothing => exact consistent
  | created created => exact consistent.create created
  | saved updated => exact consistent.update updated
  | recorded updated => exact consistent.update updated
  | refreshed updated => exact consistent.update updated
  | tagged done => exact consistent.setTags done
  | deleted deleted => exact consistent.delete deleted
  | moved moved => exact consistent.moveToFolder moved
  | counted => exact consistent.recordConnection _ _

/-- Where one call of a phase can lead. -/
inductive Leads (db : Database) : Phase → Phase → Prop
  | tagsOfNew {dto : NewHostDto} {secret : Option String} :
    Leads db (.inserting dto secret) (.tagging (nextId db) dto.tags (secretOf secret))
  | secretOfNew {dto : NewHostDto} {secret : Option String} :
    Leads db (.inserting dto secret) (.readingSecret (nextId db) (secretOf secret))
  | fetched {dto : HostDto} {secret : SecretUpdateDto} {existing : Host}
    (shown : get db dto.id = .ok (some existing)) :
    Leads db (.fetching dto secret) (.saving existing dto secret)
  | saved {existing : Host} {dto : HostDto} {secret : SecretUpdateDto} :
    Leads db (.saving existing dto secret) (.tagging dto.id dto.tags secret)
  | tagged {id : Int} {tags : List Int} {secret : SecretUpdateDto} :
    Leads db (.tagging id tags secret) (.readingSecret id secret)
  | treated {id : Int} {secret : SecretUpdateDto} {record : Host} (own : record.id = id) :
    Leads db (.readingSecret id secret) (.writingSecret record)
  | known {handled rest : List Candidate} {c : Candidate} {existing : Host}
    (found : findBySourceAlias db c.alias_ = .ok (some existing)) :
    Leads db (.finding handled (c :: rest)) (.refreshing existing handled c rest)
  | new {handled rest : List Candidate} {c : Candidate} :
    Leads db (.finding handled (c :: rest)) (.importing handled c rest)
  | refreshed {existing : Host} {handled rest : List Candidate} {c : Candidate} :
    Leads db (.refreshing existing handled c rest) (.finding (handled ++ [c]) rest)
  | imported {handled rest : List Candidate} {c : Candidate} :
    Leads db (.importing handled c rest) (.finding (handled ++ [c]) rest)

/-- Only a call that succeeded on the store leads on. -/
theorem next_of_proceed {turn : Turn} {result : Except StoreError Database} {following : Phase}
    (leads : (proceed state turn result).2 = .next following) : turn = .next following := by
  cases result with
  | error reason => cases leads
  | ok db => exact leads

/-- A secret is read next if there is one to treat. -/
theorem next_of_secretTurn {id : Int} {secret : SecretUpdateDto} {following : Phase}
    (leads : secretTurn id secret = .next following) : following = .readingSecret id secret := by
  cases secret <;> cases leads <;> rfl

/-- The next candidate is looked for if there is one. -/
theorem next_of_importTurn {handled rest : List Candidate} {following : Phase}
    (leads : importTurn handled rest = .next following) : following = .finding handled rest := by
  cases rest <;> cases leads
  rfl

/-- A secret that the keyring took is recorded with the host that was read for it. -/
theorem next_of_treatSecret {faults : Faults} {id : Int} {secret : SecretUpdateDto}
    {following : Phase} (leads : (treatSecret faults state id secret).2 = .next following) :
    ∃ record, following = .writingSecret record ∧ record.id = id := by
  -- The record is written back only behind a read that found it, under the id it was asked for.
  unfold treatSecret at leads
  cases shown : get state.db id with
  | error reason =>
    rw [shown] at leads
    cases leads
  | ok host =>
    rw [shown] at leads
    cases host with
    | none => cases leads
    | some host =>
      have own := get_id shown
      dsimp only at leads
      repeat' split at leads
      all_goals cases leads
      · exact ⟨_, rfl, own⟩
      · exact ⟨_, rfl, own⟩

/-- One call leads where its phase says, if anywhere. -/
theorem leads_of_call {following : Phase} (called : (call job state phase).2 = .next following) :
    Leads state.db phase following := by
  -- Every phase has one way on, behind the read or the statement it makes.
  cases phase with
  | inserting dto secret =>
    simp only [call] at called
    cases created : create job.now state.db (draftOfDto dto) with
    | error reason =>
      rw [created] at called
      cases called
    | ok answer =>
      obtain ⟨id, db⟩ := answer
      rw [created] at called
      obtain ⟨rfl, -⟩ := create_eq created
      dsimp only at called
      split at called
      -- A creation knows the id of its row from here on.
      · rw [next_of_secretTurn called]
        exact .secretOfNew
      · cases called
        exact .tagsOfNew
  | fetching dto secret =>
    simp only [call] at called
    -- An update goes on only behind a record that it could read.
    cases shown : get state.db dto.id with
    | error reason =>
      rw [shown] at called
      cases called
    | ok host =>
      rw [shown] at called
      cases host <;> cases called
      exact .fetched shown
  | saving existing dto secret =>
    -- The tags are given behind the fields.
    cases next_of_proceed called
    exact .saved
  | tagging id tags secret =>
    rw [next_of_secretTurn (next_of_proceed called)]
    exact .tagged
  | readingSecret id secret =>
    -- What is written back is the record that was read, under its own id.
    obtain ⟨record, rfl, own⟩ := next_of_treatSecret called
    exact .treated own
  | writingSecret record => cases next_of_proceed called
  | deleting id => cases called
  | moving id folderId => cases next_of_proceed called
  | settingTags id tags => cases next_of_proceed called
  | counting id at_ => cases called
  | finding handled rest =>
    cases rest with
    | nil => cases called
    | cons c rest =>
      simp only [call] at called
      -- A turn of an import goes by whether the alias is known.
      cases known : findBySourceAlias state.db c.alias_ with
      | error reason =>
        rw [known] at called
        cases called
      | ok host =>
        rw [known] at called
        cases host <;> cases called
        · exact .new
        · exact .known known
  -- Both statements of an import lead to its next candidate.
  | refreshing existing handled c rest =>
    rw [next_of_importTurn (next_of_proceed called)]
    exact .refreshed
  | importing handled c rest =>
    rw [next_of_importTurn (next_of_proceed called)]
    exact .imported

end Writes

section Rows

/-- A row is the same but for where it is filed, how often it was connected to, and its time. -/
def Aside (row later : HostRow) : Prop :=
  ∃ folderId lastConnectedAt connectCount updatedAt,
    later = { row with folderId, lastConnectedAt, connectCount, updatedAt }

/-- A phase is about other hosts than that of a row. -/
def Phase.Spares (row : HostRow) : Phase → Prop
  | .fetching dto _ => dto.id ≠ row.id
  | .saving existing dto _ => existing.id ≠ row.id ∧ dto.id ≠ row.id
  | .tagging id _ _ => id ≠ row.id
  | .readingSecret id _ => id ≠ row.id
  | .writingSecret record => record.id ≠ row.id
  | .deleting id => id ≠ row.id
  | .finding _ rest => ∀ c ∈ rest, ¬ImportedAs c row
  | .refreshing existing _ _ rest => existing.id ≠ row.id ∧ ∀ c ∈ rest, ¬ImportedAs c row
  | .importing _ _ rest => ∀ c ∈ rest, ¬ImportedAs c row
  -- A new host is another one, and filing, tagging and counting are not about what a row says.
  | _ => True

/-- A command is about other hosts than that of a row. -/
def StoreCommand.Spares (row : HostRow) : StoreCommand → Prop
  | .updateHost dto _ => dto.id ≠ row.id
  | .deleteHost id => id ≠ row.id
  | .importSshConfig chosen => ∀ c ∈ chosen, ¬ImportedAs c row
  | _ => True

variable {now : Int} {db after : Database} {row later last : HostRow} {phase following : Phase}
  {job : Job} {state : AppState}

/-- A row is the same as itself. -/
theorem Aside.refl (row : HostRow) : Aside row row :=
  ⟨row.folderId, row.lastConnectedAt, row.connectCount, row.updatedAt, rfl⟩

/-- What was set aside once and again is set aside. -/
theorem Aside.trans (here : Aside row later) (there : Aside later last) : Aside row last := by
  obtain ⟨folderId, lastConnectedAt, connectCount, updatedAt, rfl⟩ := there
  obtain ⟨-, -, -, -, rfl⟩ := here
  exact ⟨folderId, lastConnectedAt, connectCount, updatedAt, rfl⟩

/-- What a phase is about does not depend on what is set aside. -/
theorem Aside.spares_iff (aside : Aside row later) : phase.Spares later ↔ phase.Spares row := by
  obtain ⟨-, -, -, -, rfl⟩ := aside
  cases phase <;> rfl

/-- A command begins with a call about what it is about. -/
theorem StoreCommand.Spares.first {command : StoreCommand} (spares : command.Spares row) :
    command.first.Spares row := by
  cases command <;> exact spares

/-- An update of another host leaves the row. -/
theorem lookup_update_apart {host : Host} (updated : update now db host = .ok after)
    (apart : host.id ≠ row.id) (found : lookup db row.id = some row) :
    lookup after row.id = some row := by
  rw [lookup_update updated, if_neg (Ne.symm apart), found]

/-- A move to a folder writes one row over, under its own id. -/
theorem lookup_moveToFolder {id : Int} {folderId : Option Int}
    (moved : moveToFolder now db id folderId = .ok after) (hostId : Int) :
    lookup after hostId = (lookup db hostId).map fun row =>
      if row.id = id then { row with folderId := folderId, updatedAt := now } else row := by
  obtain ⟨-, rfl⟩ := moveToFolder_eq moved
  refine lookup_map ?_ hostId
  intro row
  split <;> rfl

/-- The id of a new host is that of no row. -/
theorem nextId_apart (found : lookup db row.id = some row) : nextId db ≠ row.id := by
  intro same
  have fresh := lookup_nextId db
  rw [same, found] at fresh
  cases fresh

/-- A call about others leaves a row, but for what is set aside. -/
theorem Written.aside (written : Written now db phase after) (spares : phase.Spares row)
    (found : lookup db row.id = some row) :
    ∃ later, lookup after row.id = some later ∧ Aside row later := by
  -- A statement about another id leaves the row as it is, and the rest set it aside.
  cases written with
  | nothing => exact ⟨row, found, .refl row⟩
  | @created _ draft id _ created =>
    have apart : ¬row.id = id := fun same =>
      nextId_apart found ((create_eq created).1.symm.trans same.symm)
    exact ⟨row, by rw [lookup_create created, if_neg apart, found], .refl row⟩
  | saved updated => exact ⟨row, lookup_update_apart updated spares.1 found, .refl row⟩
  | recorded updated => exact ⟨row, lookup_update_apart updated spares found, .refl row⟩
  | refreshed updated => exact ⟨row, lookup_update_apart updated spares.1 found, .refl row⟩
  | tagged done => exact ⟨row, by rw [lookup_setTags done, found], .refl row⟩
  | deleted deleted =>
    exact ⟨row, by rw [lookup_delete deleted, if_neg (Ne.symm spares), found], .refl row⟩
  | @moved id folderId _ moved =>
    have later := lookup_moveToFolder moved row.id
    rw [found] at later
    refine ⟨_, later, ?_⟩
    dsimp only
    by_cases own : row.id = id
    · -- Moving writes the folder and the time of the update, which are set aside.
      rw [if_pos own]
      exact ⟨folderId, row.lastConnectedAt, row.connectCount, now, rfl⟩
    · rw [if_neg own]
      exact .refl row
  | @counted id at_ =>
    have later := lookup_recordConnection db id at_ row.id
    rw [found] at later
    refine ⟨_, later, ?_⟩
    dsimp only
    by_cases own : row.id = id
    · rw [if_pos own]
      exact ⟨row.folderId, some at_, row.connectCount + 1, row.updatedAt, rfl⟩
    · rw [if_neg own]
      exact .refl row

/-- A call about others leads to a call about others. -/
theorem Leads.spares (leads : Leads db phase following) (consistent : Consistent db)
    (found : lookup db row.id = some row) (spares : phase.Spares row) :
    following.Spares row := by
  -- A creation goes on with the id that the store gives next, which no row has.
  cases leads with
  | tagsOfNew => exact nextId_apart found
  | secretOfNew => exact nextId_apart found
  | fetched shown => exact ⟨fun same => spares ((get_id shown).symm.trans same), spares⟩
  | saved => exact spares.2
  | tagged => exact spares
  | treated own => exact fun same => spares (own.symm.trans same)
  | known known =>
    obtain ⟨own, others⟩ := List.forall_mem_cons.mp spares
    obtain ⟨same, bare, there, read, rfl⟩ := findBySourceAlias_eq_some.mp known
    obtain ⟨member, source, alias_⟩ := importedRow_eq_some there
    refine ⟨fun equal => ?_, others⟩
    -- The host of the candidate's alias is not the row, which goes by another alias.
    have named : same.id = row.id := (rowToHost_id read).symm.trans equal
    obtain rfl : same = row := List.inj_on_of_nodup_map consistent.unique member
      (List.mem_of_find?_eq_some found) named
    exact own ⟨source, alias_⟩
  | new => exact (List.forall_mem_cons.mp spares).2
  | refreshed => exact spares.2
  | imported => exact spares

end Rows

section Landing

variable {before after : List Worker} {succeeded : List Job} {job : Job}
  {called : AppState × Turn}

/-- Whatever a call leads to, the state after it is the system's. -/
theorem state_landed : (landed before after succeeded job called).state = called.1 := by
  obtain ⟨state, turn⟩ := called
  cases turn with
  | next phase => rfl
  | done result => cases result <;> rfl

/-- Behind a call, what runs is what ran beside it, and its own command where it led on. -/
theorem mem_landed {worker : Worker}
    (member : worker ∈ (landed before after succeeded job called).running) :
    worker ∈ before ++ after ∨
      ∃ following, called.2 = .next following ∧ worker = ⟨job, following⟩ := by
  -- A command that leads on stands where it stood, and one that is done stands nowhere.
  obtain ⟨state, turn⟩ := called
  cases turn with
  | next phase =>
    simp only [landed, List.mem_append, List.mem_singleton] at member
    rcases member with earlier | own | later
    · exact .inl (List.mem_append_left _ earlier)
    · exact .inr ⟨phase, rfl, own⟩
    · exact .inl (List.mem_append_right _ later)
  | done result => cases result <;> exact .inl member

end Landing

section Runs

variable {row : HostRow} {system next : Concurrent}

/-- Nothing that runs is about a row, which is there but for what is set aside. -/
structure Untouched (row : HostRow) (system : Concurrent) : Prop where
  consistent : Consistent system.state.db
  spared : ∀ worker ∈ system.running, worker.phase.Spares row
  there : ∃ later, lookup system.state.db row.id = some later ∧ Aside row later

/-- A step that starts no command about a row leaves the row. -/
theorem untouched_step {action : Scheduled} (untouched : Untouched row system)
    (taken : concurrentStep system action = some next)
    (apart : ∀ job, action = .start job → job.command.Spares row) : Untouched row next := by
  obtain ⟨consistent, spared, later, found, aside⟩ := untouched
  cases action with
  | start job =>
    cases taken
    refine ⟨consistent, ?_, later, found, aside⟩
    intro worker member
    rcases List.mem_append.mp member with old | new
    · exact spared worker old
    · rw [List.mem_singleton.mp new]
      exact (apart job rfl).first
  | call index =>
    -- A call is one statement of a command that is about others.
    obtain ⟨before, after, job, phase, split, chosen, -, rfl⟩ := concurrentStep_call taken
    rw [split] at spared
    have own := spared ⟨job, phase⟩ (by simp)
    have written := written_call job system.state phase
    have apart := aside.spares_iff.mpr own
    have same : later.id = row.id := by
      obtain ⟨-, -, -, -, rfl⟩ := aside
      rfl
    -- The row has kept its id, under which the call leaves it.
    rw [← same] at found
    obtain ⟨last, kept, further⟩ := written.aside apart found
    rw [same] at kept
    refine ⟨?_, ?_, last, ?_, aside.trans further⟩
    · rw [state_landed]
      exact written.consistent consistent
    · intro worker member
      rcases mem_landed member with beside | ⟨following, called, rfl⟩
      · refine spared worker ?_
        simp only [List.mem_append] at beside ⊢
        tauto
      · -- The next call is about what the command was about before.
        have still := (leads_of_call called).spares consistent found apart
        exact aside.spares_iff.mp still
    · rw [state_landed]
      exact kept

/-- While no command about a row is started, the row stays, but for what is set aside. -/
theorem untouched_run {start : AppState} {final : Concurrent} {steps : List Scheduled}
    (consistent : Consistent start.db) (found : lookup start.db row.id = some row)
    (apart : ∀ job, .start job ∈ steps → job.command.Spares row)
    (ran : System.run concurrentStep ⟨start, [], []⟩ steps = some final) :
    Untouched row final := by
  -- Whatever is started spares the row, and so does every call it makes.
  have initial : Untouched row ⟨start, [], []⟩ :=
    ⟨consistent, fun _ member => absurd member List.not_mem_nil, row, found, .refl row⟩
  refine System.run_invariant
    (fun allowed untouched taken => untouched_step untouched taken allowed)
    (System.meets_of_mem ?_ _) initial ran
  rintro state action member job rfl
  exact apart job member

end Runs

end Tern.Desktop
