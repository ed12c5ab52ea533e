import Tern.Desktop.StoreCommands

/-! Whose secret is whose: every secret supplied for a host record was stored for that record. -/

namespace Tern.Desktop

open Tern.Store

section View

/-- Some row shows this id with this chain and this account of its secret. -/
def CredentialsIn (db : Database) (id : Int) (kinds : List AuthKind) (ref : Option String) : Prop :=
  ∃ row ∈ db.hosts, ∃ host, rowToHost row = .ok host ∧
    host.id = id ∧ chain host = kinds ∧ host.secretRef = ref

/-- What a record shows of its credentials. -/
theorem credentialsIn_of_get {db : Database} {id : Int} {host : Host}
    (shown : get db id = .ok (some host)) : CredentialsIn db id (chain host) host.secretRef := by
  have named := get_id shown
  obtain ⟨row, bare, found, read, rfl⟩ := get_eq_some.mp shown
  exact ⟨row, List.mem_of_find?_eq_some found, bare, read, named, rfl, rfl⟩

/-- What a record found by its alias shows of its credentials. -/
theorem credentialsIn_of_alias {db : Database} {alias_ : String} {host : Host}
    (found : findBySourceAlias db alias_ = .ok (some host)) :
    CredentialsIn db host.id (chain host) host.secretRef := by
  -- The host that is found is read from a row of the table, and shows that row's credentials.
  unfold findBySourceAlias at found
  split at found
  · cases found
  · rename_i row located
    cases read : rowToHost row with
    | error reason => simp [attachTags, read, Except.map] at found
    | ok bare =>
      simp only [attachTags, read, Except.map, Except.ok.injEq, Option.some.injEq] at found
      subst found
      exact ⟨row, List.mem_of_find?_eq_some located, bare, read, rfl, rfl, rfl⟩

/-- A host that shows credentials is in the table. -/
theorem present_of_credentialsIn {db : Database} {id : Int} {kinds : List AuthKind}
    {ref : Option String} (shown : CredentialsIn db id kinds ref) : Present db id := by
  -- The row it is read from bears its id, so a look-up by that id finds one.
  obtain ⟨row, member, host, read, named, -⟩ := shown
  have found : (lookup db id).isSome = true := by
    rw [lookup, List.find?_isSome]
    exact ⟨row, member, by rw [← named, rowToHost_id read]; simp⟩
  exact Option.isSome_iff_exists.mp found

/-- After an insert, credentials are the draft's or were there before. -/
theorem credentialsIn_create {now id other : Int} {db after : Database} {draft : NewHost}
    {kinds : List AuthKind} {ref : Option String}
    (created : create now db draft = .ok (id, after))
    (shown : CredentialsIn after other kinds ref) :
    (other = id ∧ kinds = draft.auth :: draft.authFallbacks ∧ ref = draft.secretRef) ∨
      CredentialsIn db other kinds ref := by
  obtain ⟨rfl, rfl⟩ := create_eq created
  obtain ⟨row, member, host, read, rfl, rfl, rfl⟩ := shown
  rcases List.mem_append.mp member with old | new
  · exact .inr ⟨row, old, host, read, rfl, rfl, rfl⟩
  · -- The one new row is the draft's.
    rw [List.mem_singleton.mp new, rowToHost_rowOf, Except.ok.injEq] at read
    subst read
    exact .inl ⟨rfl, rfl, rfl⟩

/-- After an update, credentials are the new record's or those of another id as before. -/
theorem credentialsIn_update {now other : Int} {db after : Database} {host : Host}
    {kinds : List AuthKind} {ref : Option String}
    (updated : update now db host = .ok after) (shown : CredentialsIn after other kinds ref) :
    (other = host.id ∧ kinds = chain host ∧ ref = host.secretRef) ∨
      (other ≠ host.id ∧ CredentialsIn db other kinds ref) := by
  obtain ⟨-, -, rfl⟩ := update_eq updated
  obtain ⟨row, member, read⟩ := shown
  obtain ⟨old, inside, rfl⟩ := List.mem_map.mp member
  obtain ⟨found, read, rfl, rfl, rfl⟩ := read
  split at read
  · -- The row that is left is a record's own, with another history.
    have written : overwrite now host old = rowOf
        { host with
          lastConnectedAt := old.lastConnectedAt
          connectCount := old.connectCount
          createdAt := old.createdAt
          updatedAt := now } := rfl
    rw [written, rowToHost_rowOf, Except.ok.injEq] at read
    subst read
    exact .inl ⟨rfl, rfl, rfl⟩
  · -- A row of another id shows what it showed before.
    rename_i different
    refine .inr ⟨?_, old, inside, found, read, rfl, rfl, rfl⟩
    rw [rowToHost_id read]
    exact different

/-- Tagging changes no credentials. -/
theorem credentialsIn_setTags {id other : Int} {tags : List Int} {db after : Database}
    {kinds : List AuthKind} {ref : Option String} (done : setTags db id tags = .ok after)
    (shown : CredentialsIn after other kinds ref) : CredentialsIn db other kinds ref := by
  -- Credentials are read from the rows, which tagging leaves alone.
  unfold CredentialsIn at shown
  rw [hosts_setTags done] at shown
  exact shown

/-- After a deletion, credentials are those of other ids as before. -/
theorem credentialsIn_delete {id other : Int} {db after : Database} {kinds : List AuthKind}
    {ref : Option String} (deleted : delete db id = .ok after)
    (shown : CredentialsIn after other kinds ref) : CredentialsIn db other kinds ref := by
  obtain ⟨row, member, read⟩ := shown
  rw [hosts_delete deleted] at member
  exact ⟨row, (List.mem_filter.mp member).1, read⟩

/-- Counting a connection changes no credentials. -/
theorem credentialsIn_recordConnection {db : Database} {id at_ other : Int} {kinds : List AuthKind}
    {ref : Option String} (shown : CredentialsIn (recordConnection db id at_) other kinds ref) :
    CredentialsIn db other kinds ref := by
  obtain ⟨row, member, host, read, rfl, rfl, rfl⟩ := shown
  obtain ⟨old, inside, rfl⟩ := List.mem_map.mp member
  -- Only the row of the host that was connected to has changed, and only in its counters.
  split at read
  · rw [rowToHost_stats] at read
    cases older : rowToHost old with
    | error reason => simp [older, Except.map] at read
    | ok bare =>
      simp only [older, Except.map, Except.ok.injEq] at read
      subst read
      exact ⟨old, inside, bare, older, rfl, rfl, rfl⟩
  · exact ⟨old, inside, host, read, rfl, rfl, rfl⟩

end View

section Supply

/-- What the keyring answers when a connect asks for the secret a host refers to. -/
def connectSecret (faults : Faults) (keyring : Keyring) (host : Host) : Option String :=
  host.secretRef.bind fun account => (getPassword faults keyring account).toOption

/--
A connect hands a secret from the keyring to a method, in the role the method uses it in.

Where the keyring answers nothing, an empty password stands in and no secret is handed over.
-/
def Hands (faults : Faults) (keyring : Keyring) (host : Host) (role : Role) (secret : String) :
    Prop :=
  connectSecret faults keyring host ≠ none ∧
    ∃ method ∈ (authForHost faults keyring host).methods, carries method = some (role, secret)

/-- A secret is still the one that was stored for the record that now has the id. -/
def StoredFor (history : List Event) (id : Int) (role : Role) (secret : String) : Prop :=
  ∃ before after, history = before ++ .stored id role secret :: after ∧ .deleted id ∉ after

/-- Every secret supplied for a record was stored for that record. -/
def SuppliesOwn (state : AppState) : Prop :=
  ∀ host, get state.db host.id = .ok (some host) → ∀ faults,
    (∀ role secret, Hands faults state.keyring host role secret →
      ∃ stored, StoredFor state.history host.id stored secret) ∧
    ∀ secret, storedSecret faults state.keyring host = some secret →
      ∃ stored, StoredFor state.history host.id stored secret

/-- The methods of a connect are the chain's, all given what the keyring answered. -/
theorem mem_methods {faults : Faults} {keyring : Keyring} {host : Host} {method : AuthMethod}
    (member : method ∈ (authForHost faults keyring host).methods) :
    ∃ kind ∈ chain host, method = buildMethod host (connectSecret faults keyring host) kind := by
  -- Reading a secret answers what the keyring has, whatever note comes with it.
  have read : ∀ account,
      (readSecret faults keyring account).1 = (getPassword faults keyring account).toOption := by
    intro account
    unfold readSecret
    cases getPassword faults keyring account with
    | ok secret => rfl
    | error reason =>
      cases reason with
      | notFound => rfl
      | store text => rfl
  -- The chain is built with that one answer, fallbacks included.
  have methods : (authForHost faults keyring host).methods =
      buildMethod host (connectSecret faults keyring host) host.auth ::
        (host.authFallbacks.filter fun kind => kind ≠ host.auth).map
          (buildMethod host (connectSecret faults keyring host)) := by
    unfold authForHost connectSecret
    cases host.secretRef with
    | none => rfl
    | some account =>
      rw [Option.bind_some, ← read account]
  rw [methods] at member
  simp only [List.mem_cons, List.mem_map, List.mem_filter] at member
  rcases member with primary | ⟨kind, ⟨fallback, -⟩, same⟩
  · exact ⟨host.auth, List.mem_cons_self, primary⟩
  · exact ⟨kind, List.mem_cons_of_mem _ fallback, same.symm⟩

/-- What is handed over is the keyring's answer, to a method of the chain that has the role. -/
theorem hands_inv {faults : Faults} {keyring : Keyring} {host : Host} {role : Role}
    {secret : String} (hands : Hands faults keyring host role secret) :
    connectSecret faults keyring host = some secret ∧
      ∃ kind ∈ chain host, roleOf kind = some role := by
  obtain ⟨answered, method, member, carried⟩ := hands
  obtain ⟨kind, inChain, rfl⟩ := mem_methods member
  obtain ⟨found, answer⟩ := Option.ne_none_iff_exists'.mp answered
  rw [answer] at carried ⊢
  -- An agent is handed nothing, and the other two are handed the one answer.
  cases kind with
  | agent => cases carried
  | password =>
    cases carried
    exact ⟨rfl, .password, inChain, rfl⟩
  | keyFile =>
    cases carried
    exact ⟨rfl, .keyFile, inChain, rfl⟩

/-- What can be read under an account is its entry. -/
theorem entry_of_getPassword {faults : Faults} {keyring : Keyring} {account secret : String}
    (answered : (getPassword faults keyring account).toOption = some secret) :
    keyring account = some secret := by
  unfold getPassword at answered
  -- A call that fails answers nothing, and so does an account without an entry.
  cases failing : faults (.get account) with
  | some reason => simp [failing, Except.toOption] at answered
  | none =>
    cases entry : keyring account with
    | none => simp [failing, entry, Except.toOption] at answered
    | some found => simpa [failing, entry, Except.toOption] using answered

/-- A later event that is not the record's deletion keeps a secret the record's own. -/
theorem StoredFor.concat {history : List Event} {id : Int} {role : Role} {secret : String}
    (stored : StoredFor history id role secret) {event : Event} (kept : event ≠ .deleted id) :
    StoredFor (history ++ [event]) id role secret := by
  obtain ⟨before, after, split, undeleted⟩ := stored
  refine ⟨before, after ++ [event], by simp [split], ?_⟩
  -- The deletion would have to be among the earlier events, or be the last one.
  intro member
  rcases List.mem_append.mp member with early | last
  · exact undeleted early
  · exact kept (List.mem_singleton.mp last).symm

/-- What was stored last is stored. -/
theorem storedFor_last (history : List Event) (id : Int) (role : Role) (secret : String) :
    StoredFor (history ++ [.stored id role secret]) id role secret :=
  ⟨history, [], rfl, List.not_mem_nil⟩

end Supply

section Owned

/--
What makes every secret its record's own.

Records refer to accounts of their own id, and those accounts hold only what was stored for them.
-/
structure Owned (state : AppState) : Prop where
  referenced : ∀ id kinds account, CredentialsIn state.db id kinds (some account) →
    ∃ role, account = accountOf role id
  entries : ∀ id, Present state.db id → ∀ role secret,
    state.keyring (accountOf role id) = some secret → StoredFor state.history id role secret

variable {state : AppState}

/-- A fresh installation holds nothing that could be another's. -/
theorem owned_fresh : Owned AppState.fresh where
  -- There is no row to refer to an account, and no entry in the keyring.
  referenced := by
    intro id kinds account ⟨row, member, _⟩
    cases member
  entries := by
    intro id _ role secret entry
    cases entry

/-- Owned secrets are all that is ever supplied. -/
theorem Owned.supplies (owned : Owned state) : SuppliesOwn state := by
  intro host shown faults
  have present := present_of_get shown
  -- Whatever is read under an account of the record's id was stored for the record.
  have read : ∀ role secret, (getPassword faults state.keyring (accountOf role host.id)).toOption =
      some secret → StoredFor state.history host.id role secret := by
    intro role secret answered
    exact owned.entries host.id present role secret (entry_of_getPassword answered)
  refine ⟨?_, ?_⟩
  · -- A connect asks under the account that the record refers to.
    intro role secret hands
    obtain ⟨answer, -⟩ := hands_inv hands
    unfold connectSecret at answer
    obtain ⟨account, referred, answered⟩ := Option.bind_eq_some_iff.mp answer
    have shownCredentials := credentialsIn_of_get shown
    rw [referred] at shownCredentials
    obtain ⟨stored, rfl⟩ := owned.referenced _ _ _ shownCredentials
    exact ⟨stored, read stored secret answered⟩
  · -- A test asks under the account of the chain, which bears the id of the record.
    intro secret answer
    unfold storedSecret at answer
    rw [accountFor_eq] at answer
    obtain ⟨account, named, answered⟩ := Option.bind_eq_some_iff.mp answer
    obtain ⟨stored, -, rfl⟩ := Option.map_eq_some_iff.mp named
    exact ⟨stored, read stored secret answered⟩

/-- A store that shows fewer hosts, all referring to their own accounts, stays owned. -/
theorem Owned.redb (owned : Owned state) {db : Database}
    (present : ∀ id, Present db id → Present state.db id)
    (referenced : ∀ id kinds account, CredentialsIn db id kinds (some account) →
      ∃ role, account = accountOf role id) : Owned { state with db := db } where
  referenced := referenced
  entries := fun id there => owned.entries id (present id there)

/-- Entering a secret for a host makes it the host's own. -/
theorem Owned.entered (owned : Owned state) (id : Int) (role : Role) (secret : String) :
    Owned (entered state id role secret) where
  referenced := owned.referenced
  entries := by
    intro other there stored found entry
    by_cases same : accountOf stored other = accountOf role id
    · -- The account is the one just written, so the secret is the new one.
      obtain ⟨rfl, rfl⟩ := accountOf_inj same
      have written : found = secret := by
        simpa [Desktop.entered] using entry.symm
      rw [written]
      exact storedFor_last state.history other stored secret
    · have older : state.keyring (accountOf stored other) = some found := by
        simpa [Desktop.entered, Function.update_of_ne same] using entry
      exact (owned.entries other there stored found older).concat (by simp)

/-- Emptying an account takes nobody's secret to anybody. -/
theorem Owned.emptied (owned : Owned state) (account : String) :
    Owned { state with keyring := Function.update state.keyring account none } where
  referenced := owned.referenced
  entries := by
    intro id there role secret entry
    apply owned.entries id there role secret
    dsimp only at entry
    -- The account that was emptied answers nothing.
    by_cases same : accountOf role id = account
    · rw [same, Function.update_self] at entry
      cases entry
    · rw [Function.update_of_ne same] at entry
      exact entry

/-- An update shows the same hosts as before. -/
theorem present_update {now : Int} {db after : Database} {host : Host}
    (updated : update now db host = .ok after) (id : Int) : Present after id ↔ Present db id := by
  -- The row that is written stays under its id, and no other one moves.
  unfold Present
  rw [lookup_update updated]
  split
  · simp
  · rfl

/-- A record that is written back may refer to any account of its own. -/
theorem Owned.update (owned : Owned state) {now : Int} {host : Host} {db : Database}
    (updated : update now state.db host = .ok db)
    (own : ∀ account, host.secretRef = some account → ∃ role, account = accountOf role host.id) :
    Owned { state with db := db } := by
  apply owned.redb
  · intro id there
    exact (present_update updated id).mp there
  · intro id kinds account shown
    -- The record that was written has the new reference, and the others have their old ones.
    rcases credentialsIn_update updated shown with ⟨same, -, referred⟩ | ⟨-, older⟩
    · rw [same]
      exact own account referred.symm
    · exact owned.referenced id kinds account older

/-- An insert shows the new host beside those that were there. -/
theorem present_create {now id : Int} {db after : Database} {draft : NewHost}
    (created : create now db draft = .ok (id, after)) (other : Int) :
    Present after other ↔ other = id ∨ Present db other := by
  -- The new row is found under its own id, and every other look-up is as before.
  unfold Present
  rw [lookup_create created]
  split
  · rename_i same
    simp [same]
  · rename_i different
    simp [different]

/-- No credential stands under an account of this id. -/
def Unclaimed (keyring : Keyring) (id : Int) : Prop :=
  ∀ role, keyring (accountOf role id) = none

/-- A host inserted under an id that no credential claims owns nothing yet. -/
theorem Owned.insert (owned : Owned state) {now id : Int} {draft : NewHost} {db : Database}
    (created : create now state.db draft = .ok (id, db)) (bare : draft.secretRef = none)
    (unclaimed : Unclaimed state.keyring id) : Owned { state with db := db } where
  referenced := by
    intro other kinds account shown
    -- The new record refers to nothing, and the others to what they did.
    rcases credentialsIn_create created shown with ⟨-, -, referred⟩ | older
    · rw [bare] at referred
      cases referred
    · exact owned.referenced other kinds account older
  entries := by
    intro other there role secret entry
    -- The new host owns nothing, so what stands under its id would be another's.
    rcases (present_create created other).mp there with rfl | older
    · rw [unclaimed role] at entry
      cases entry
    · exact owned.entries other older role secret entry

/-- Tagging concerns no credentials. -/
theorem Owned.setTags (owned : Owned state) {id : Int} {tags : List Int} {db : Database}
    (done : setTags state.db id tags = .ok db) : Owned { state with db := db } := by
  -- Tags are in a table of their own, which no credential is read from.
  apply owned.redb
  · intro other ⟨row, found⟩
    exact ⟨row, by rw [← lookup_setTags done]; exact found⟩
  · intro other kinds account shown
    exact owned.referenced other kinds account (credentialsIn_setTags done shown)

/-- Storing a secret for a host keeps every secret its record's own. -/
theorem Owned.storeSecretFor (owned : Owned state) (now : Int) (faults : Faults) (id : Int)
    (secret : String) : Owned (storeSecretFor now faults state id secret).1 := by
  apply storeSecretFor_rule
  · intro _
    exact owned
  · intro host role reason _ _ _
    exact owned.entered id role secret
  · intro host role db shown _ updated
    -- The reference that is written is to the account just entered.
    have named := get_id shown
    apply (owned.entered id role secret).update updated
    intro account referred
    exact ⟨role, by rw [← Option.some.inj referred, named]⟩

/-- Clearing a secret of a host keeps every secret its record's own. -/
theorem Owned.clearSecretFor (owned : Owned state) (now : Int) (faults : Faults) (id : Int) :
    Owned (clearSecretFor now faults state id).1 := by
  -- The entry is gone before the reference is, and a record without one refers to nothing.
  apply clearSecretFor_rule
  · intro _
    exact owned
  · intro host account reason _ _ _
    exact owned.emptied account
  · intro host account db _ _ updated
    apply (owned.emptied account).update updated
    intro other referred
    cases referred

/-- A best-effort clearing leaves an account as it was or empty. -/
theorem Owned.tryClear (owned : Owned state) (faults : Faults) (account : String) :
    Owned { state with keyring := tryClear faults state.keyring account } := by
  unfold Desktop.tryClear clearSecret
  cases faults (.delete account) with
  | some reason => exact owned
  | none => exact owned.emptied account

/-- A deletion takes its record's history with it, and no other's. -/
theorem Owned.delete (owned : Owned state) {id : Int} {db : Database}
    (deleted : delete state.db id = .ok db) :
    Owned { state with db := db, history := state.history ++ [.deleted id] } where
  referenced := by
    intro other kinds account shown
    exact owned.referenced other kinds account (credentialsIn_delete deleted shown)
  entries := by
    intro other ⟨row, found⟩ role secret entry
    rw [lookup_delete deleted] at found
    -- The deleted record is gone, and of the others no event speaks.
    split at found
    · cases found
    · rename_i different
      apply (owned.entries other ⟨row, found⟩ role secret entry).concat
      intro same
      exact different (Event.deleted.inj same).symm

/-- A chain that is edited refers to the account the record referred to. -/
theorem Owned.edited (owned : Owned state) {existing : Host} {dto : HostDto}
    (shown : get state.db dto.id = .ok (some existing)) (account : String)
    (referred : (edited existing dto).secretRef = some account) :
    ∃ role, account = accountOf role (edited existing dto).id := by
  -- The edit keeps both the id and the reference, so whose account it is does not change.
  have credentials := credentialsIn_of_get shown
  have same : existing.secretRef = some account := referred
  have named : (Desktop.edited existing dto).id = dto.id :=
    show existing.id = dto.id from get_id shown
  rw [same] at credentials
  rw [named]
  exact owned.referenced _ _ _ credentials

end Owned

section Runs

/-- One command at a time of the clock, with the calls to the keyring that fail meanwhile. -/
structure Action where
  now : Int
  faults : Faults
  command : Command

/-- The step of a command, which always leaves some state. -/
def step (state : AppState) (action : Action) : Option AppState :=
  some (exec action.now action.faults state action.command)

/-- Every row a command inserts gets an id under which the keyring holds nothing. -/
def InsertsUnclaimed (state : AppState) (action : Action) : Prop :=
  match action.command with
  | .createHost dto _ => ∀ id db, create action.now state.db (draftOfDto dto) = .ok (id, db) →
      Unclaimed state.keyring id
  | .importSshConfig chosen =>
    System.Meets (upsertStep action.now)
      (fun db c => ∀ id after, create action.now db (draftOf c) = .ok (id, after) →
        findBySourceAlias db c.alias_ = .ok none → Unclaimed state.keyring id)
      state.db chosen
  | _ => True

/-- Creating a host keeps every secret its record's own when the new id is unclaimed. -/
theorem Owned.createHost {state : AppState} (owned : Owned state) {now : Int} {faults : Faults}
    {dto : NewHostDto} {secret : Option String}
    (unclaimed : ∀ id db, create now state.db (draftOfDto dto) = .ok (id, db) →
      Unclaimed state.keyring id) : Owned (createHost now faults state dto secret).1 := by
  -- The row goes in first, then its tags and its secret, each under the new id.
  refine createHost_rule (fun _ reached => Owned reached) owned ?_ ?_ ?_ ?_
  · intro id db created
    exact owned.insert created rfl (unclaimed id db created)
  · intro id reached db held done
    exact held.setTags done
  · intro id reached held
    exact held
  · intro id reached text held _ _
    exact held.storeSecretFor now faults id text

/-- Updating a host keeps every secret its record's own. -/
theorem Owned.updateHost {state : AppState} (owned : Owned state) (now : Int) (faults : Faults)
    (dto : HostDto) (secret : SecretUpdateDto) :
    Owned (updateHost now faults state dto secret).1 := by
  -- The fields go in first, then the tags and the secret, and each may be where it ends.
  refine updateHost_rule Owned owned ?_ ?_ ?_ ?_ ?_
  · intro existing db reason shown updated _
    exact owned.update updated (owned.edited shown)
  · intro existing db after shown updated done
    exact (owned.update updated (owned.edited shown)).setTags done
  · intro reached held _
    exact held
  · intro reached text held _
    exact held.storeSecretFor now faults dto.id text
  · intro reached held _
    exact held.clearSecretFor now faults dto.id

/-- Deleting a host keeps every secret its record's own, whatever the keyring refuses. -/
theorem Owned.deleteHost {state : AppState} (owned : Owned state) (faults : Faults) (id : Int) :
    Owned (deleteHost faults state id).1 := by
  -- Both accounts of the id are tried, and whatever the keyring refuses stays behind.
  have cleared :=
    (owned.tryClear faults (passwordAccount id)).tryClear faults (passphraseAccount id)
  unfold Desktop.deleteHost
  dsimp only
  cases deleted : Store.delete state.db id with
  | error reason => exact cleared
  | ok db => exact cleared.delete deleted

/-- Importing hosts keeps every secret its record's own when the new ids are unclaimed. -/
theorem Owned.importSshConfig {state : AppState} (owned : Owned state) {now : Int}
    {chosen : List Candidate}
    (unclaimed : System.Meets (upsertStep now)
      (fun db c => ∀ id after, create now db (draftOf c) = .ok (id, after) →
        findBySourceAlias db c.alias_ = .ok none → Unclaimed state.keyring id) state.db chosen) :
    Owned { state with db := (apply now state.db ⟨0, 0⟩ chosen).1 } := by
  rw [apply_store]
  -- The loop only touches the store, so the invariant is read as one of the store alone.
  refine System.runWhile_invariant (fun db => Owned { state with db := db }) ?_ unclaimed owned
  intro db after c fresh held taken
  -- A refreshed host keeps its reference, and an inserted one has none.
  rcases upsertStep_cases taken with ⟨existing, found, updated⟩ | ⟨missing, id, created⟩
  · apply held.update updated
    intro account referred
    have shown := credentialsIn_of_alias found
    have same : existing.secretRef = some account := referred
    rw [same] at shown
    exact held.referenced _ _ _ shown
  · exact held.insert created rfl (fresh id after created missing)

/-- Counting a connection shows the same hosts as before. -/
theorem present_recordConnection (db : Database) (id at_ other : Int) :
    Present (recordConnection db id at_) other ↔ Present db other := by
  -- Counting rewrites a row in place.
  unfold Present
  rw [lookup_recordConnection]
  cases lookup db other with
  | none => simp
  | some row => simp

/-- Connecting to a host changes nobody's secrets. -/
theorem Owned.connectHost {state : AppState} (owned : Owned state) (faults : Faults) (id : Int)
    (established : Option Int) : Owned (connectHost faults state id established).1 := by
  -- A connection is counted in the record at most, and the count is no credential.
  rcases connectHost_cases faults state id established with same | ⟨at_, counted⟩
  · rw [same]
    exact owned
  · rw [counted]
    apply owned.redb
    · intro other there
      exact (present_recordConnection state.db id at_ other).mp there
    · intro other kinds account shown
      exact owned.referenced other kinds account (credentialsIn_recordConnection shown)

/-- One command keeps every secret its record's own when the rows it inserts are unclaimed. -/
theorem owned_step {state next : AppState} {action : Action}
    (unclaimed : InsertsUnclaimed state action) (owned : Owned state)
    (taken : step state action = some next) : Owned next := by
  cases taken
  obtain ⟨now, faults, command⟩ := action
  cases command with
  | createHost dto secret => exact owned.createHost unclaimed
  | updateHost dto secret => exact owned.updateHost now faults dto secret
  | deleteHost id => exact owned.deleteHost faults id
  | importSshConfig chosen => exact owned.importSshConfig unclaimed
  | connectHost id established => exact owned.connectHost faults id established
  -- A test writes nothing.
  | testConnection hostId form => exact owned

/--
In every run in which each new row gets an id under which the keyring holds nothing,
every secret that is supplied for a record was stored for that record.
-/
theorem supplies_own_of_unclaimed {actions : List Action} {final : AppState}
    (unclaimed : System.Meets step InsertsUnclaimed AppState.fresh actions)
    (ran : System.run step AppState.fresh actions = some final) : SuppliesOwn final :=
  (System.run_invariant owned_step unclaimed owned_fresh ran).supplies

/-- A host that logs in with a password. -/
def passwordHost : NewHostDto where
  folderId := none
  name := "web"
  hostname := "web.example.com"
  port := 22
  username := "deploy"
  auth := .password
  authFallbacks := []
  keyPath := none
  overrides := HostOverrides.default
  proxyJump := none
  color := none
  notes := none
  tags := []

/-- A host with a saved password is deleted, and another one is created and connected to. -/
def replacedAndConnected : List Action :=
  [⟨0, Faults.none, .createHost passwordHost (some "s3cret")⟩,
    ⟨1, Faults.none, .deleteHost 1⟩,
    ⟨2, Faults.none, .createHost passwordHost (some "hunter2")⟩,
    ⟨3, Faults.none, .connectHost 1 (some 3)⟩]

/-- The second host gets the first one's id, and only the password that was stored for itself. -/
theorem supplies_own_of_first_host :
    ∃ final, System.run step AppState.fresh replacedAndConnected = some final ∧
      final.history =
        [.stored 1 .password "s3cret", .deleted 1, .stored 1 .password "hunter2"] ∧
      storedSecret Faults.none final.keyring (hostOfDraft 1 2 (draftOfDto passwordHost)) =
        some "hunter2" ∧
      SuppliesOwn final := by
  obtain ⟨final, ran, history, supplied⟩ : ∃ final,
      System.run step AppState.fresh replacedAndConnected = some final ∧
      final.history =
        [.stored 1 .password "s3cret", .deleted 1, .stored 1 .password "hunter2"] ∧
      storedSecret Faults.none final.keyring (hostOfDraft 1 2 (draftOfDto passwordHost)) =
        some "hunter2" := ⟨_, rfl, rfl, by decide⟩
  -- The condition is checked at each of the five actions.
  refine ⟨final, ran, history, supplied, supplies_own_of_unclaimed ?_ ran⟩
  refine .cons ?_ rfl (.cons trivial rfl (.cons ?_ rfl (.cons trivial rfl trivial)))
  · -- The keyring of a fresh installation holds nothing.
    intro id db _ role
    rfl
  · -- The deletion has cleared both accounts of the id that the second host gets.
    intro id db created role
    have freed : id = 1 := (create_eq created).1
    rw [freed]
    cases role with
    | password => rfl
    | passphrase => rfl

/-- A keyring that cannot delete anything. -/
def undeletable : Faults
  | .delete _ => some "the keychain is locked"
  | _ => none

/-- A host is deleted while the keyring is locked, and another one is created after it. -/
def deletedAndRecreated : List Action :=
  [⟨0, Faults.none, .createHost passwordHost (some "s3cret")⟩,
    ⟨1, undeletable, .deleteHost 1⟩,
    ⟨2, Faults.none, .createHost passwordHost none⟩]

/-- The second host gets the first one's id, and with it the first one's password. -/
theorem supplies_deleted_hosts_secret :
    ∃ final, System.run step AppState.fresh deletedAndRecreated = some final ∧
      storedSecret Faults.none final.keyring (hostOfDraft 1 2 (draftOfDto passwordHost)) =
        some "s3cret" ∧
      ¬SuppliesOwn final := by
  refine ⟨_, rfl, by decide, ?_⟩
  intro own
  obtain ⟨-, stored⟩ := own (hostOfDraft 1 2 (draftOfDto passwordHost)) rfl Faults.none
  obtain ⟨role, before, after, split, undeleted⟩ := stored "s3cret" (by decide)
  -- The only secret ever stored was stored before the deletion.
  have history : [Event.stored 1 .password "s3cret", .deleted 1] =
      before ++ .stored 1 role "s3cret" :: after := split
  cases before with
  | nil =>
    obtain ⟨-, rest⟩ := List.cons.inj history
    exact undeleted (by rw [← rest]; exact List.mem_cons_self)
  | cons first rest =>
    obtain ⟨-, tail⟩ := List.cons.inj history
    cases rest with
    | nil => cases (List.cons.inj tail).1
    | cons second rest =>
      have none_ := (List.cons.inj tail).2
      simp at none_

end Runs

end Tern.Desktop
