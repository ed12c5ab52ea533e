import Tern.Desktop.Ownership

/-! When a command that fails halfway leaves the records as they were. -/

namespace Tern.Desktop

open Tern.Store

/-- Two stores hold the same host records and the same tag links. -/
structure SameRecords (before after : Database) : Prop where
  hosts : after.hosts = before.hosts
  links : ∀ pair, pair ∈ after.hostTags ↔ pair ∈ before.hostTags

/-- If the command failed, the records are as they were. -/
def LeavesRecords {α : Type} (state : AppState) (outcome : AppState × Except CommandError α) :
    Prop :=
  ∀ error, outcome.2 = .error error → SameRecords state.db outcome.1.db

/-- The keyring refuses the secret that a chain would store for a host. -/
def RefusesSet (faults : Faults) (kinds : List AuthKind) (id : Int) : Prop :=
  ∃ role, credentialRole kinds = some role ∧ faults (.set (accountOf role id)) ≠ none

/-- The keyring refuses what an update asks of it. -/
def Refuses (faults : Faults) (existing : Host) (dto : HostDto) : SecretUpdateDto → Prop
  | .unchanged => False
  | .set _ => RefusesSet faults dto.chain dto.id
  | .clear => ∃ account, existing.secretRef = some account ∧ faults (.delete account) ≠ none

/-- The schema refuses the row a creation would insert. -/
def RefusedRow (now : Int) (db : Database) (dto : NewHostDto) : Prop :=
  checkRow db (rowOf (hostOfDraft (nextId db) now (draftOfDto dto))) ≠ .ok ()

/-- The form says what the row says already, down to the time of the last change. -/
def NothingNew (now : Int) (db : Database) (existing : Host) (dto : HostDto) : Prop :=
  ∀ row ∈ db.hosts, row.id = dto.id → overwrite now (edited existing dto) row = row

/-- The form names the tags the host carries already. -/
def SameTags (db : Database) (dto : HostDto) : Prop :=
  ∀ tag, tag ∈ dto.tags ↔ (dto.id, tag) ∈ db.hostTags

section Secrets

variable {now : Int} {faults : Faults} {state : AppState} {id : Int} {host : Host}

/-- Storing a secret for a record the schema accepts fails exactly when the keyring refuses it. -/
theorem storeSecretFor_of_accepted (shown : get state.db id = .ok (some host))
    (accepted : checkRow state.db (rowOf host) = .ok ()) (secret : String) :
    (RefusesSet faults (chain host) id → ∃ error,
      storeSecretFor now faults state id secret = (state, .error error)) ∧
    (¬RefusesSet faults (chain host) id →
      (storeSecretFor now faults state id secret).2 = .ok ()) := by
  have named := get_id shown
  subst named
  unfold storeSecretFor RefusesSet
  simp only [shown, accountFor_eq]
  cases roled : credentialRole (chain host) with
  | none => simp
  | some role =>
    simp only [Option.map_some, setSecret]
    cases failing : faults (.set (accountOf role host.id)) with
    | some reason => simp [failing]
    | none =>
      -- The new reference is no reason for the schema to refuse the record.
      obtain ⟨after, updated⟩ := @update_of_accepted state.db
        { host with secretRef := some (accountOf role host.id) } now (present_of_get shown) accepted
      simp [failing, updated]

/-- Clearing a secret fails exactly when the keyring refuses to, likewise. -/
theorem clearSecretFor_of_accepted (shown : get state.db id = .ok (some host))
    (accepted : checkRow state.db (rowOf host) = .ok ()) :
    ((∃ account, host.secretRef = some account ∧ faults (.delete account) ≠ none) → ∃ error,
      clearSecretFor now faults state id = (state, .error error)) ∧
    ((¬∃ account, host.secretRef = some account ∧ faults (.delete account) ≠ none) →
      (clearSecretFor now faults state id).2 = .ok ()) := by
  have named := get_id shown
  subst named
  unfold clearSecretFor
  simp only [shown]
  cases referred : host.secretRef with
  | none => simp
  | some account =>
    simp only [clearSecret]
    cases failing : faults (.delete account) with
    | some reason => simp [failing]
    | none =>
      -- Without its reference the record is as acceptable as with it.
      obtain ⟨after, updated⟩ := @update_of_accepted state.db
        { host with secretRef := none } now (present_of_get shown) accepted
      simp [failing, updated]

end Secrets

section Commands

variable {now : Int} {faults : Faults} {state : AppState}

/-- A command that succeeds owes nothing. -/
theorem leavesRecords_of_ok {α : Type} {outcome : AppState × Except CommandError α} {value : α}
    (succeeded : outcome.2 = .ok value) : LeavesRecords state outcome := by
  intro error failed
  rw [succeeded] at failed
  cases failed

/-- A command that fails owes the records as they were. -/
theorem leavesRecords_of_error {α : Type} {outcome : AppState × Except CommandError α}
    {error : CommandError} (failed : outcome.2 = .error error) :
    LeavesRecords state outcome ↔ SameRecords state.db outcome.1.db :=
  ⟨fun leaves => leaves error failed, fun same _ _ => same⟩

/-- Nothing has happened to the records yet. -/
theorem SameRecords.refl (db : Database) : SameRecords db db := ⟨rfl, fun _ => Iff.rfl⟩

/-- A row more is a change of the records. -/
theorem not_sameRecords_create {id : Int} {db after later : Database} {draft : NewHost}
    (created : create now db draft = .ok (id, after)) (hosts : later.hosts = after.hosts) :
    ¬SameRecords db later := by
  obtain ⟨-, rfl⟩ := create_eq created
  intro same
  -- The lists would have to be equally long.
  have longer := same.hosts
  rw [hosts] at longer
  simp at longer

/-- Once the row is in, a creation leaves the records only if the keyring takes its secret. -/
theorem storing_leaves_iff {reached : AppState} {id : Int} {host : Host}
    (changed : ¬SameRecords state.db reached.db) (shown : get reached.db id = .ok (some host))
    (accepted : checkRow reached.db (rowOf host) = .ok ()) (secret : Option String) :
    LeavesRecords state (match secret.filter (· ≠ "") with
      | none => (reached, .ok id)
      | some secret =>
        let (state, result) := storeSecretFor now faults reached id secret
        (state, result.map fun _ => id)) ↔
      ∀ text, secret = some text → text ≠ "" → ¬RefusesSet faults (chain host) id := by
  -- A blank secret is not stored, and cannot be refused either.
  cases given : secret.filter (· ≠ "") with
  | none =>
    refine iff_of_true (leavesRecords_of_ok rfl) ?_
    rintro text rfl filled
    simp [Option.filter, filled] at given
  | some text =>
    obtain ⟨rfl, filled⟩ := Option.filter_eq_some_iff.mp given
    obtain ⟨refused, taken⟩ :=
      @storeSecretFor_of_accepted now faults reached id host shown accepted text
    dsimp only
    -- Only the keyring can refuse, and by then the row is in.
    by_cases refuses : RefusesSet faults (chain host) id
    · obtain ⟨error, failed⟩ := refused refuses
      rw [failed]
      refine iff_of_false (fun leaves => changed (leaves error rfl)) ?_
      exact fun all => all text rfl (by simpa using filled) refuses
    · have succeeded :
          (storeSecretFor now faults reached id text).2.map (fun _ => id) = .ok id := by
        rw [taken refuses]
        rfl
      exact iff_of_true (leavesRecords_of_ok succeeded) (fun _ _ _ => refuses)

/-- A creation that the schema accepts leaves the records only if it goes through. -/
theorem createHost_leaves_iff_of_accepted {dto : NewHostDto} {id : Int} {db : Database}
    (created : create now state.db (draftOfDto dto) = .ok (id, db)) (secret : Option String) :
    LeavesRecords state (createHost now faults state dto secret) ↔
      TagsKnown state.db dto.tags ∧
        ∀ text, secret = some text → text ≠ "" →
        ¬RefusesSet faults dto.chain (nextId state.db) := by
  have shown := get_create created
  have accepted := accepted_of_create created
  obtain ⟨rfl, added⟩ := create_eq created
  unfold createHost
  simp only [created]
  -- Tags are only set if there are any, and each of them has to exist.
  by_cases untagged : dto.tags = []
  · rw [if_pos (by simp [untagged])]
    have known : TagsKnown state.db dto.tags := by simp [TagsKnown, untagged]
    rw [and_iff_right known]
    exact @storing_leaves_iff now faults state { state with db := db } _ _
      (not_sameRecords_create created rfl) shown accepted secret
  · rw [if_neg (by simp [untagged])]
    have tags : TagsKnown db dto.tags ↔ TagsKnown state.db dto.tags := by
      rw [added]
      rfl
    cases done : setTags db (nextId state.db) dto.tags with
    | error reason =>
      refine iff_of_false ?_ ?_
      · exact fun leaves => not_sameRecords_create created rfl (leaves _ rfl)
      · rintro ⟨known, -⟩
        obtain ⟨after, succeeded⟩ := (setTags_iff (present_of_get shown) _).mpr (tags.mpr known)
        rw [done] at succeeded
        cases succeeded
    | ok after =>
      have known := (setTags_iff (present_of_get shown) _).mp ⟨after, done⟩
      rw [and_iff_right (tags.mp known)]
      -- The tags do not make the row any less acceptable.
      have still : checkRow after (rowOf (hostOfDraft (nextId state.db) now (draftOfDto dto))) =
          .ok () := by
        rw [checkRow_setTags done]
        exact accepted
      exact @storing_leaves_iff now faults state { state with db := after } _ _
        (not_sameRecords_create created (hosts_setTags done)) (get_setTags done shown) still secret

/-- Writing the form's fields leaves the records exactly when they say nothing new. -/
theorem sameRecords_update_iff {dto : HostDto} {existing : Host} {db : Database}
    (shown : get state.db dto.id = .ok (some existing))
    (updated : update now state.db (edited existing dto) = .ok db) :
    SameRecords state.db db ↔ NothingNew now state.db existing dto := by
  have named : (edited existing dto).id = dto.id := (get_id shown : existing.id = dto.id)
  obtain ⟨-, -, rfl⟩ := update_eq updated
  simp only [named]
  -- An update touches the hosts alone, and the links not at all.
  rw [NothingNew, ← map_eq_self_iff]
  exact ⟨fun same => same.hosts, fun hosts => ⟨hosts, fun _ => Iff.rfl⟩⟩

/-- Writing the form's tags as well leaves the records exactly when they are the same ones too. -/
theorem sameRecords_setTags_iff {dto : HostDto} {existing : Host} {db after : Database}
    (shown : get state.db dto.id = .ok (some existing))
    (updated : update now state.db (edited existing dto) = .ok db)
    (done : setTags db dto.id dto.tags = .ok after) :
    SameRecords state.db after ↔ NothingNew now state.db existing dto ∧ SameTags state.db dto := by
  rw [← sameRecords_update_iff shown updated]
  -- The links are those from before the update until the tags are set.
  have links : db.hostTags = state.db.hostTags := by
    obtain ⟨-, -, rfl⟩ := update_eq updated
    rfl
  have each := mem_setTags done
  rw [links] at each
  refine ⟨?_, ?_⟩
  · intro same
    refine ⟨⟨(hosts_setTags done).symm.trans same.hosts, fun _ => by rw [links]⟩, ?_⟩
    intro tag
    rw [← same.links, each]
    simp
  · rintro ⟨same, tags⟩
    refine ⟨(hosts_setTags done).trans same.hosts, ?_⟩
    rintro ⟨id, tag⟩
    rw [each]
    -- Only the links of the record itself can be others.
    by_cases own : id = dto.id
    · subst own
      simpa using tags tag
    · simp [own]

/-- The secret step of an update fails exactly when the keyring refuses, and then changes
nothing. -/
theorem secretStep_leaves_iff {reached : AppState} {existing : Host} {dto : HostDto} {host : Host}
    (shown : get reached.db dto.id = .ok (some host))
    (accepted : checkRow reached.db (rowOf host) = .ok ()) (methods : chain host = dto.chain)
    (referred : host.secretRef = existing.secretRef) (secret : SecretUpdateDto) :
    LeavesRecords state (match secret with
      | .unchanged => (reached, .ok ())
      | .set secret => storeSecretFor now faults reached dto.id secret
      | .clear => clearSecretFor now faults reached dto.id) ↔
      (Refuses faults existing dto secret → SameRecords state.db reached.db) := by
  -- Either the keyring refuses and nothing was written, or the whole command goes through.
  cases secret with
  | unchanged => exact iff_of_true (leavesRecords_of_ok rfl) False.elim
  | set text =>
    obtain ⟨refused, taken⟩ :=
      @storeSecretFor_of_accepted now faults reached dto.id host shown accepted text
    rw [methods] at refused taken
    by_cases refuses : RefusesSet faults dto.chain dto.id
    · obtain ⟨error, failed⟩ := refused refuses
      dsimp only
      rw [failed, leavesRecords_of_error rfl]
      exact ⟨fun same _ => same, fun same => same refuses⟩
    · exact iff_of_true (leavesRecords_of_ok (taken refuses)) fun other => absurd other refuses
  | clear =>
    obtain ⟨refused, taken⟩ :=
      @clearSecretFor_of_accepted now faults reached dto.id host shown accepted
    rw [referred] at refused taken
    by_cases refuses : Refuses faults existing dto .clear
    · obtain ⟨error, failed⟩ := refused refuses
      dsimp only
      rw [failed, leavesRecords_of_error rfl]
      exact ⟨fun same _ => same, fun same => same refuses⟩
    · exact iff_of_true (leavesRecords_of_ok (taken refuses)) fun other => absurd other refuses

/-- An update that the schema accepts leaves the records if it goes through or says nothing new. -/
theorem updateHost_leaves_iff_of_accepted {dto : HostDto} {existing : Host} {db : Database}
    (shown : get state.db dto.id = .ok (some existing))
    (updated : update now state.db (edited existing dto) = .ok db) (secret : SecretUpdateDto) :
    LeavesRecords state (updateHost now faults state dto secret) ↔
      (TagsKnown state.db dto.tags ∧ ¬Refuses faults existing dto secret) ∨
        NothingNew now state.db existing dto ∧
          (TagsKnown state.db dto.tags → SameTags state.db dto) := by
  unfold updateHost
  simp only [shown, updated]
  have named : (edited existing dto).id = dto.id := (get_id shown : existing.id = dto.id)
  -- Once the fields are in, the record reads back with them and is still acceptable.
  obtain ⟨host, fields, methods, referred, accepted⟩ : ∃ host, get db dto.id = .ok (some host) ∧
      chain host = dto.chain ∧ host.secretRef = existing.secretRef ∧
      checkRow db (rowOf host) = .ok () := by
    obtain ⟨row, fields⟩ := get_update updated
    rw [← named]
    exact ⟨_, fields, rfl, rfl, accepted_of_update updated⟩
  -- A tag that does not exist fails the command behind the fields.
  cases done : setTags db dto.id dto.tags with
  | error reason =>
    have unknown : ¬TagsKnown state.db dto.tags := by
      intro known
      obtain ⟨after, succeeded⟩ :=
        (setTags_iff (present_of_get fields) _).mpr ((tagsKnown_update updated _).mpr known)
      rw [done] at succeeded
      cases succeeded
    rw [leavesRecords_of_error rfl, sameRecords_update_iff shown updated]
    simp [unknown]
  | ok after =>
    have known := (tagsKnown_update updated _).mp
      ((setTags_iff (present_of_get fields) _).mp ⟨after, done⟩)
    rw [← checkRow_setTags done] at accepted
    -- What is left is the secret, and the records are by then as the form says.
    have step := @secretStep_leaves_iff now faults state { state with db := after } existing dto _
      (get_setTags done fields) accepted methods referred secret
    rw [sameRecords_setTags_iff shown updated done] at step
    simp only [known, true_and, forall_const]
    rw [← imp_iff_not_or]
    exact step

/--
A command that fails leaves the records exactly when the schema refused its row,
or it could not fail any later: every tag exists and the keyring takes what it is asked to.
An update may also fail late when it says nothing new.
-/
theorem failed_command_leaves_records_iff (now : Int) (faults : Faults) (state : AppState) :
    (∀ (dto : NewHostDto) (secret : Option String),
      LeavesRecords state (createHost now faults state dto secret) ↔
        RefusedRow now state.db dto ∨
          TagsKnown state.db dto.tags ∧ ∀ text, secret = some text → text ≠ "" →
            ¬RefusesSet faults dto.chain (nextId state.db)) ∧
    (∀ (dto : HostDto) (secret : SecretUpdateDto),
      LeavesRecords state (updateHost now faults state dto secret) ↔
        ∀ existing, get state.db dto.id = .ok (some existing) →
          checkRow state.db (rowOf (edited existing dto)) = .ok () →
          (TagsKnown state.db dto.tags ∧ ¬Refuses faults existing dto secret) ∨
            NothingNew now state.db existing dto ∧
              (TagsKnown state.db dto.tags → SameTags state.db dto)) := by
  refine ⟨?_, ?_⟩
  · intro dto secret
    cases created : create now state.db (draftOfDto dto) with
    | error reason =>
      -- Nothing was inserted, so nothing is left behind.
      have refused : RefusedRow now state.db dto := by
        intro accepted
        simp [create, accepted, bind, Except.bind, pure, Except.pure] at created
      refine iff_of_true ?_ (.inl refused)
      intro error _
      -- A creation that fails at its insert has done nothing else.
      simp only [createHost, created]
      exact SameRecords.refl _
    | ok result =>
      obtain ⟨id, db⟩ := result
      obtain ⟨_, accepted, -⟩ := bind_eq_ok created
      -- The row was accepted, so that only the later steps decide.
      have taken : ¬RefusedRow now state.db dto := fun refused => refused accepted
      rw [createHost_leaves_iff_of_accepted created, or_iff_right taken]
  · intro dto secret
    -- A record that cannot be read, or is not there, is not written either.
    cases shown : get state.db dto.id with
    | error reason =>
      refine iff_of_true ?_ (by simp)
      intro error _
      simp only [updateHost, shown]
      exact SameRecords.refl _
    | ok found =>
      cases found with
      | none =>
        refine iff_of_true ?_ (by simp)
        intro error _
        -- Without the record nothing is attempted.
        simp only [updateHost, shown]
        exact SameRecords.refl _
      | some existing =>
        simp only [Except.ok.injEq, Option.some.injEq, forall_eq']
        cases updated : update now state.db (edited existing dto) with
        | error reason =>
          refine iff_of_true ?_ ?_
          · intro error _
            simp only [updateHost, shown, updated]
            exact SameRecords.refl _
          · -- The record is there, so it was the schema that refused.
            intro accepted
            have present : Present state.db (edited existing dto).id :=
              (get_id shown : existing.id = dto.id) ▸ present_of_get shown
            obtain ⟨after, succeeded⟩ := update_of_accepted now present accepted
            rw [updated] at succeeded
            cases succeeded
        | ok db =>
          obtain ⟨-, accepted, -⟩ := update_eq updated
          -- Once the row is written, the tags and the secret decide.
          rw [updateHost_leaves_iff_of_accepted shown updated]
          simp [accepted]

/-- A machine without a credential store. -/
def noKeyring : Faults := fun _ => some "no Secret Service"

/-- The host that a first attempt to save it left behind. -/
def leftBehind : AppState :=
  (createHost 0 noKeyring AppState.fresh passwordHost (some "s3cret")).1

/-- Saving a host fails at its password, and saving it again leaves it there twice. -/
theorem failed_creation_leaves_host :
    (createHost 0 noKeyring AppState.fresh passwordHost (some "s3cret")).2 =
        .error (.vault (.store "no Secret Service")) ∧
      (createHost 1 noKeyring leftBehind passwordHost (some "s3cret")).2 =
        .error (.vault (.store "no Secret Service")) ∧
      (createHost 1 noKeyring leftBehind passwordHost (some "s3cret")).1.db.hosts.map (·.name) =
        ["web", "web"] ∧
      ¬LeavesRecords AppState.fresh
        (createHost 0 noKeyring AppState.fresh passwordHost (some "s3cret")) := by
  refine ⟨rfl, rfl, rfl, ?_⟩
  intro leaves
  have same := (leaves _ rfl).hosts
  cases same

end Commands

end Tern.Desktop
