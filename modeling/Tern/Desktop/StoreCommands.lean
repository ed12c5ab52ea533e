import Tern.Desktop.Auth
import Tern.Store.Apply

/-! The commands that write host records and their credentials, with every way they can fail. -/

namespace Tern.Desktop

open Tern.Store

/-- What a command can fail with. -/
inductive CommandError where
  | store (reason : StoreError)
  | vault (reason : VaultError)
  | noSuchHost (id : Int)
  deriving DecidableEq, Repr

/-- What happened to credentials and records, kept to state where a secret came from. -/
inductive Event where
  | stored (id : Int) (role : Role) (secret : String)
  | deleted (id : Int)
  deriving DecidableEq, Repr

/-- The store and the credential store, with the history of what was put there. -/
structure AppState where
  db : Database
  keyring : Keyring
  history : List Event

/-- A fresh installation on a machine that holds no credentials of it. -/
def AppState.fresh : AppState := ⟨Database.fresh, fun _ => none, []⟩

/-- A host as the form submits it for creation. -/
structure NewHostDto where
  folderId : Option Int
  name : String
  hostname : String
  port : UInt16
  username : String
  auth : AuthKind
  authFallbacks : List AuthKind
  keyPath : Option String
  overrides : HostOverrides
  proxyJump : Option String
  color : Option String
  notes : Option String
  tags : List Int

/-- A host as the form submits it for an update, which never carries the secret's account. -/
structure HostDto extends NewHostDto where
  id : Int

/-- What an update does with the stored secret. -/
inductive SecretUpdateDto where
  | unchanged
  | set (secret : String)
  | clear
  deriving DecidableEq, Repr

/-- The methods a submitted host is to try. -/
def NewHostDto.chain (dto : NewHostDto) : List AuthKind := dto.auth :: dto.authFallbacks

section Commands

/-- The draft a creation stores. -/
def draftOfDto (dto : NewHostDto) : NewHost where
  folderId := dto.folderId
  name := dto.name
  hostname := dto.hostname
  port := dto.port
  username := dto.username
  auth := dto.auth
  authFallbacks := dto.authFallbacks
  secretRef := none
  keyPath := dto.keyPath
  overrides := dto.overrides
  proxyJump := dto.proxyJump
  source := .manual
  sourceAlias := none
  color := dto.color
  notes := dto.notes

/-- The record an update stores, whose secret reference stays the stored one. -/
def edited (existing : Host) (dto : HostDto) : Host :=
  { existing with
    folderId := dto.folderId
    name := dto.name
    hostname := dto.hostname
    port := dto.port
    username := dto.username
    auth := dto.auth
    authFallbacks := dto.authFallbacks
    keyPath := dto.keyPath
    overrides := dto.overrides
    proxyJump := dto.proxyJump
    color := dto.color
    notes := dto.notes }

/-- Store a secret under the account of the host's chain, and then record the account. -/
def storeSecretFor (now : Int) (faults : Faults) (state : AppState) (id : Int) (secret : String) :
    AppState × Except CommandError Unit :=
  match get state.db id with
  | .error reason => (state, .error (.store reason))
  | .ok none => (state, .error (.noSuchHost id))
  | .ok (some host) =>
    match accountFor host with
    -- An agent has nothing to store, and a secret left in the form is ignored.
    | none => (state, .ok ())
    | some account =>
      match setSecret faults state.keyring account secret with
      | .error reason => (state, .error (.vault reason))
      | .ok keyring =>
        let stored := { state with
          keyring := keyring
          history := state.history ++
            (credentialRole (chain host)).toList.map fun role => .stored id role secret }
        -- The keyring is written before the record, so a failure here leaves the secret behind.
        match update now state.db { host with secretRef := some account } with
        | .error reason => (stored, .error (.store reason))
        | .ok db => ({ stored with db := db }, .ok ())

/-- Clear the secret a host refers to, and then the reference. -/
def clearSecretFor (now : Int) (faults : Faults) (state : AppState) (id : Int) :
    AppState × Except CommandError Unit :=
  match get state.db id with
  | .error reason => (state, .error (.store reason))
  | .ok none => (state, .error (.noSuchHost id))
  | .ok (some host) =>
    match host.secretRef with
    | none => (state, .ok ())
    | some account =>
      match clearSecret faults state.keyring account with
      | .error reason => (state, .error (.vault reason))
      | .ok keyring =>
        let cleared := { state with keyring := keyring }
        -- Likewise the secret is gone before the reference is.
        match update now state.db { host with secretRef := none } with
        | .error reason => (cleared, .error (.store reason))
        | .ok db => ({ cleared with db := db }, .ok ())

/-- Create a host, tag it, and store its secret once its id is known. -/
def createHost (now : Int) (faults : Faults) (state : AppState) (dto : NewHostDto)
    (secret : Option String) : AppState × Except CommandError Int :=
  match create now state.db (draftOfDto dto) with
  | .error reason => (state, .error (.store reason))
  | .ok (id, db) =>
    let inserted := { state with db := db }
    let tagged : AppState × Except CommandError Unit :=
      if dto.tags.isEmpty then (inserted, .ok ())
      else match setTags db id dto.tags with
        -- The row stays when a tag does not exist.
        | .error reason => (inserted, .error (.store reason))
        | .ok db => ({ state with db := db }, .ok ())
    match tagged with
    | (state, .error reason) => (state, .error reason)
    | (state, .ok ()) =>
      -- An empty field of the form is no secret.
      match secret.filter (· ≠ "") with
      | none => (state, .ok id)
      | some secret =>
        let (state, result) := storeSecretFor now faults state id secret
        (state, result.map fun _ => id)

/-- Replace a host's fields and tags, and then treat its secret as asked. -/
def updateHost (now : Int) (faults : Faults) (state : AppState) (dto : HostDto)
    (secret : SecretUpdateDto) : AppState × Except CommandError Unit :=
  match get state.db dto.id with
  | .error reason => (state, .error (.store reason))
  | .ok none => (state, .error (.noSuchHost dto.id))
  | .ok (some existing) =>
    match update now state.db (edited existing dto) with
    | .error reason => (state, .error (.store reason))
    | .ok db =>
      let updated := { state with db := db }
      match setTags db dto.id dto.tags with
      -- The fields stay updated when a tag does not exist.
      | .error reason => (updated, .error (.store reason))
      | .ok db =>
        let tagged := { state with db := db }
        match secret with
        | .unchanged => (tagged, .ok ())
        | .set secret => storeSecretFor now faults tagged dto.id secret
        | .clear => clearSecretFor now faults tagged dto.id

/-- Clear a secret on a best-effort basis. -/
def tryClear (faults : Faults) (keyring : Keyring) (account : String) : Keyring :=
  match clearSecret faults keyring account with
  | .ok cleared => cleared
  | .error _ => keyring

/-- Delete a host, after clearing both accounts of its id as far as the keyring allows. -/
def deleteHost (faults : Faults) (state : AppState) (id : Int) :
    AppState × Except CommandError Unit :=
  let keyring := tryClear faults state.keyring (passwordAccount id)
  let keyring := tryClear faults keyring (passphraseAccount id)
  let cleared := { state with keyring := keyring }
  -- A keyring that refuses does not stop the deletion.
  match delete state.db id with
  | .error reason => (cleared, .error (.store reason))
  | .ok db => ({ cleared with db := db, history := state.history ++ [.deleted id] }, .ok ())

/-- Connect to a saved host, counting the connection when it is established. -/
def connectHost (faults : Faults) (state : AppState) (id : Int) (established : Option Int) :
    AppState × Except CommandError ResolvedAuth :=
  match get state.db id with
  | .error reason => (state, .error (.store reason))
  | .ok none => (state, .error (.noSuchHost id))
  | .ok (some host) =>
    let auth := authForHost faults state.keyring host
    match established with
    | none => (state, .ok auth)
    | some at_ => ({ state with db := recordConnection state.db id at_ }, .ok auth)

/-- One command, with the calls to the keyring that fail while it runs. -/
inductive Command where
  | createHost (dto : NewHostDto) (secret : Option String)
  | updateHost (dto : HostDto) (secret : SecretUpdateDto)
  | deleteHost (id : Int)
  | importSshConfig (chosen : List Candidate)
  | connectHost (id : Int) (established : Option Int)
  | testConnection (hostId : Option Int) (form : List AuthMethodDto)

/-- The state a command leaves, whether it succeeds or fails. -/
def exec (now : Int) (faults : Faults) (state : AppState) : Command → AppState
  | .createHost dto secret => (createHost now faults state dto secret).1
  | .updateHost dto secret => (updateHost now faults state dto secret).1
  | .deleteHost id => (deleteHost faults state id).1
  | .importSshConfig chosen => { state with db := (apply now state.db ⟨0, 0⟩ chosen).1 }
  | .connectHost id established => (connectHost faults state id established).1
  -- A test reads the record and the keyring, and writes neither.
  | .testConnection _ _ => state

end Commands

section Rules

variable {now : Int} {faults : Faults} {state : AppState} {post : AppState → Prop}

/-- The state after a secret went into the keyring under its host's account. -/
def entered (state : AppState) (id : Int) (role : Role) (secret : String) : AppState :=
  { state with
    keyring := Function.update state.keyring (accountOf role id) (some secret)
    history := state.history ++ [.stored id role secret] }

/--
What holds after storing a secret.

It may store nothing, it may enter the secret and then fail to record the account,
and it may do both.
-/
theorem storeSecretFor_rule {id : Int} {secret : String}
    (nothing : (∀ host role, get state.db id = .ok (some host) →
      credentialRole (chain host) = some role → faults (.set (accountOf role id)) ≠ none) →
      post state)
    (unrecorded : ∀ host role reason, get state.db id = .ok (some host) →
      credentialRole (chain host) = some role →
      update now state.db { host with secretRef := some (accountOf role id) } = .error reason →
      post (entered state id role secret))
    (recorded : ∀ host role db, get state.db id = .ok (some host) →
      credentialRole (chain host) = some role →
      update now state.db { host with secretRef := some (accountOf role id) } = .ok db →
      post { entered state id role secret with db := db }) :
    post (storeSecretFor now faults state id secret).1 := by
  unfold storeSecretFor
  -- The cases follow the command from its first read to its last write.
  cases shown : get state.db id with
  | error reason => exact nothing (by simp [shown])
  | ok found =>
    cases found with
    | none => exact nothing (by simp [shown])
    | some host =>
      have named := get_id shown
      subst named
      cases roled : credentialRole (chain host) with
      | none =>
        simp only [accountFor_eq, roled, Option.map_none]
        -- A chain of agents has no account, and asks the keyring for nothing.
        apply nothing
        intro other role same stored
        rw [shown] at same
        cases same
        rw [roled] at stored
        cases stored
      | some role =>
        simp only [accountFor_eq, roled, Option.map_some, setSecret]
        cases failing : faults (.set (accountOf role host.id)) with
        | some reason =>
          -- A keyring that refuses leaves the record unwritten.
          apply nothing
          intro other stored same own
          rw [shown] at same
          cases same
          rw [roled] at own
          cases own
          rw [failing]
          exact Option.some_ne_none _
        | none =>
          dsimp only
          -- From here on the keyring holds the secret, whatever becomes of the record.
          cases updated : update now state.db
              { host with secretRef := some (accountOf role host.id) } with
          | error reason => exact unrecorded host role reason shown roled updated
          | ok db => exact recorded host role db shown roled updated

/-- What holds after clearing a secret, which fails and half-succeeds in the same places. -/
theorem clearSecretFor_rule {id : Int}
    (nothing : (∀ host account, get state.db id = .ok (some host) →
      host.secretRef = some account → faults (.delete account) ≠ none) → post state)
    (unrecorded : ∀ host account reason, get state.db id = .ok (some host) →
      host.secretRef = some account →
      update now state.db { host with secretRef := none } = .error reason →
      post { state with keyring := Function.update state.keyring account none })
    (recorded : ∀ host account db, get state.db id = .ok (some host) →
      host.secretRef = some account →
      update now state.db { host with secretRef := none } = .ok db →
      post { state with db := db, keyring := Function.update state.keyring account none }) :
    post (clearSecretFor now faults state id).1 := by
  unfold clearSecretFor
  -- The cases follow the command, as they do for storing.
  cases shown : get state.db id with
  | error reason => exact nothing (by simp [shown])
  | ok found =>
    cases found with
    | none => exact nothing (by simp [shown])
    | some host =>
      cases referred : host.secretRef with
      | none =>
        simp only [referred]
        -- A record without a reference has nothing to clear.
        apply nothing
        intro other account same own
        rw [shown] at same
        cases same
        rw [referred] at own
        cases own
      | some account =>
        simp only [referred, clearSecret]
        cases failing : faults (.delete account) with
        | some reason =>
          -- A keyring that refuses stops the command before the record.
          apply nothing
          intro other named same own
          rw [shown] at same
          cases same
          rw [referred] at own
          cases own
          rw [failing]
          exact Option.some_ne_none _
        | none =>
          dsimp only
          -- The account is empty by now, also when the reference stays.
          cases updated : update now state.db { host with secretRef := none } with
          | error reason => exact unrecorded host account reason shown referred updated
          | ok db => exact recorded host account db shown referred updated

/-- What holds after creating a host, from what holds once the row is in and tagged. -/
theorem createHost_rule {dto : NewHostDto} {secret : Option String}
    (mid : Int → AppState → Prop) (refused : post state)
    (inserted : ∀ id db, create now state.db (draftOfDto dto) = .ok (id, db) →
      mid id { state with db := db })
    (tagged : ∀ id reached db, mid id reached → setTags reached.db id dto.tags = .ok db →
      mid id { reached with db := db })
    (settled : ∀ id reached, mid id reached → post reached)
    (stored : ∀ id reached text, mid id reached → secret = some text → text ≠ "" →
      post (storeSecretFor now faults reached id text).1) :
    post (createHost now faults state dto secret).1 := by
  -- Past the tags, only the secret is left to store.
  have finish : ∀ id reached text, mid id reached → secret.filter (· ≠ "") = some text →
      post (storeSecretFor now faults reached id text).1 := by
    intro id reached text held given
    obtain ⟨same, filled⟩ := Option.filter_eq_some_iff.mp given
    exact stored id reached text held same (by simpa using filled)
  unfold createHost
  cases created : create now state.db (draftOfDto dto) with
  | error reason => exact refused
  | ok result =>
    obtain ⟨id, db⟩ := result
    have held := inserted id db created
    dsimp only
    -- With and without tags the same is left to do.
    by_cases untagged : dto.tags.isEmpty = true
    · rw [if_pos untagged]
      cases given : secret.filter (· ≠ "") with
      | none => exact settled id _ held
      | some text => exact finish id _ text held given
    · rw [if_neg untagged]
      cases done : setTags db id dto.tags with
      | error reason => exact settled id _ held
      | ok after =>
        have kept := tagged id { state with db := db } after held done
        cases given : secret.filter (· ≠ "") with
        | none => exact settled id _ kept
        | some text => exact finish id _ text kept given

/-- What holds after updating a host, from what holds once the fields and the tags are in. -/
theorem updateHost_rule {dto : HostDto} {secret : SecretUpdateDto} (mid : AppState → Prop)
    (refused : post state)
    (untagged : ∀ existing db reason, get state.db dto.id = .ok (some existing) →
      update now state.db (edited existing dto) = .ok db →
      setTags db dto.id dto.tags = .error reason → post { state with db := db })
    (tagged : ∀ existing db after, get state.db dto.id = .ok (some existing) →
      update now state.db (edited existing dto) = .ok db →
      setTags db dto.id dto.tags = .ok after → mid { state with db := after })
    (unchanged : ∀ reached, mid reached → secret = .unchanged → post reached)
    (stored : ∀ reached text, mid reached → secret = .set text →
      post (storeSecretFor now faults reached dto.id text).1)
    (cleared : ∀ reached, mid reached → secret = .clear →
      post (clearSecretFor now faults reached dto.id).1) :
    post (updateHost now faults state dto secret).1 := by
  -- The command stops at the first step that fails, and the rule has a clause for each.
  unfold updateHost
  cases shown : get state.db dto.id with
  | error reason => exact refused
  | ok found =>
    cases found with
    | none => exact refused
    | some existing =>
      dsimp only
      cases updated : update now state.db (edited existing dto) with
      | error reason => exact refused
      | ok db =>
        dsimp only
        cases done : setTags db dto.id dto.tags with
        | error reason => exact untagged existing db reason shown updated done
        | ok after =>
          -- Fields and tags are in, and the secret comes last.
          have held := tagged existing db after shown updated done
          cases secret with
          | unchanged => exact unchanged _ held rfl
          | set text => exact stored _ text held rfl
          | clear => exact cleared _ held rfl

/-- A connect leaves the state as it was, or counts the connection. -/
theorem connectHost_cases (faults : Faults) (state : AppState) (id : Int)
    (established : Option Int) :
    (connectHost faults state id established).1 = state ∨
      ∃ at_, (connectHost faults state id established).1 =
        { state with db := recordConnection state.db id at_ } := by
  -- The host is shown first, and counted only once a connection is established.
  unfold connectHost
  cases Store.get state.db id with
  | error reason => exact .inl rfl
  | ok found =>
    cases found with
    | none => exact .inl rfl
    | some host =>
      cases established with
      | none => exact .inl rfl
      | some at_ => exact .inr ⟨at_, rfl⟩

end Rules

end Tern.Desktop
