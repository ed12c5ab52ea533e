import Tern.Desktop.Ownership

/-! In which role a secret is used: a password is never a passphrase, nor the other way round. -/

namespace Tern.Desktop

open Tern.Store

section Roles

/-- Every secret a connect hands over was stored for the record, and in the role it is used in. -/
def RightRoles (state : AppState) : Prop :=
  ∀ host, get state.db host.id = .ok (some host) → ∀ faults role secret,
    Hands faults state.keyring host role secret → StoredFor state.history host.id role secret

/-- No method of a chain would use the referenced secret in another role than its account's. -/
def AgreesWith (kinds : List AuthKind) (id : Int) (ref : Option String) : Prop :=
  ∀ role, ref = some (accountOf role id) →
    ∀ kind ∈ kinds, ∀ used, roleOf kind = some used → used = role

/-- A chain holds at most one kind of method that takes a secret. -/
def SingleRole (kinds : List AuthKind) : Prop :=
  ∀ left ∈ kinds, ∀ right ∈ kinds, ∀ first second,
    roleOf left = some first → roleOf right = some second → first = second

/-- A chain without a reference disagrees with nothing. -/
theorem agreesWith_none (kinds : List AuthKind) (id : Int) : AgreesWith kinds id none := by
  intro role referred
  cases referred

/-- A chain that takes no secret disagrees with nothing. -/
theorem agreesWith_of_no_role {kinds : List AuthKind} (agent : credentialRole kinds = none)
    (id : Int) (ref : Option String) : AgreesWith kinds id ref := by
  intro role _ kind member used takes
  -- The search for a role would have stopped at this method.
  have missed := List.findSome?_eq_none_iff.mp agent kind member
  rw [takes] at missed
  cases missed

/-- A chain of one role agrees with the account of its credential. -/
theorem agreesWith_own {kinds : List AuthKind} (single : SingleRole kinds) {role : Role}
    (own : credentialRole kinds = some role) (id : Int) :
    AgreesWith kinds id (some (accountOf role id)) := by
  -- In a chain of one role, whatever takes a credential takes the one that is stored.
  intro other referred kind member used takes
  obtain ⟨found, inside, taken⟩ := List.exists_of_findSome?_eq_some own
  have same : role = other := (accountOf_inj (Option.some.inj referred)).1
  rw [← same]
  exact single kind member found inside used role takes taken

/--
What keeps every secret in its role.

Chains agree with the accounts they refer to, apart from one record that may be under edit,
and ids that are in no row have no credentials left.
-/
structure Separated (edited : Option Int) (state : AppState) : Prop extends Owned state where
  agrees : ∀ id kinds ref, edited ≠ some id → CredentialsIn state.db id kinds ref →
    AgreesWith kinds id ref
  clean : ∀ id, ¬Present state.db id → Unclaimed state.keyring id

variable {state : AppState} {edited : Option Int}

/-- A fresh installation has nothing to confuse. -/
theorem separated_fresh : Separated none AppState.fresh where
  -- There is no record that could disagree, and the keyring is empty.
  toOwned := owned_fresh
  agrees := by
    intro id kinds ref _ ⟨row, member, _⟩
    cases member
  clean := by
    intro id _ role
    rfl

/-- Separated secrets are only handed over in their roles. -/
theorem Separated.rightRoles (separated : Separated none state) : RightRoles state := by
  intro host shown faults role secret hands
  obtain ⟨answer, kind, inChain, takes⟩ := hands_inv hands
  obtain ⟨account, referred, answered⟩ := Option.bind_eq_some_iff.mp answer
  have credentials := credentialsIn_of_get shown
  rw [referred] at credentials
  obtain ⟨stored, rfl⟩ := separated.referenced _ _ _ credentials
  -- The chain agrees with the account, so the method's role is the account's.
  have same := separated.agrees _ _ _ (by simp) credentials stored rfl kind inChain role takes
  rw [same]
  exact separated.entries host.id (present_of_get shown) stored secret
    (entry_of_getPassword answered)

/-- A rewritten record leaves every other one separated. -/
theorem Separated.update (separated : Separated edited state) {now : Int} {host : Host}
    {db : Database} (updated : update now state.db host = .ok db)
    (own : ∀ account, host.secretRef = some account → ∃ role, account = accountOf role host.id)
    (alone : edited = none ∨ edited = some host.id) :
    Separated (some host.id) { state with db := db } where
  toOwned := separated.toOwned.update updated own
  -- The record that is written is the one under edit, and owes nothing yet.
  agrees := by
    intro id kinds ref other shown
    rcases credentialsIn_update updated shown with ⟨same, -⟩ | ⟨different, older⟩
    · exact absurd (congrArg some same.symm) other
    · apply separated.agrees id kinds ref _ older
      rcases alone with none_ | one
      · simp [none_]
      · rw [one]
        exact other
  -- An update makes no record present or absent.
  clean := by
    intro id absent
    apply separated.clean id
    intro there
    exact absent ((present_update updated id).mpr there)

/-- The edit is over once the record agrees with what it refers to. -/
theorem Separated.settle {id : Int} (separated : Separated (some id) state)
    (agrees : ∀ kinds ref, CredentialsIn state.db id kinds ref → AgreesWith kinds id ref) :
    Separated none state where
  -- The record under edit agrees by now, and the others did all along.
  toOwned := separated.toOwned
  agrees := by
    intro other kinds ref _ shown
    by_cases same : id = other
    · subst same
      exact agrees kinds ref shown
    · exact separated.agrees other kinds ref (by simpa using same) shown
  clean := separated.clean

/-- A rewritten record that agrees with its reference is not under edit, even if it was. -/
theorem Separated.rewrite (separated : Separated edited state) {now : Int} {host : Host}
    {db : Database} (updated : Store.update now state.db host = .ok db)
    (alone : edited = none ∨ edited = some host.id)
    (own : ∀ account, host.secretRef = some account → ∃ role, account = accountOf role host.id)
    (agrees : AgreesWith (chain host) host.id host.secretRef) :
    Separated none { state with db := db } := by
  -- The record that is written is the one under edit, and it is written in agreement.
  apply (separated.update updated own alone).settle
  intro kinds ref shown
  rcases credentialsIn_update updated shown with ⟨-, rfl, rfl⟩ | ⟨different, -⟩
  · exact agrees
  · exact absurd rfl different

/-- An inserted host refers to nothing, and nothing is stored under its id. -/
theorem Separated.insert (separated : Separated none state) {now id : Int} {draft : NewHost}
    {db : Database} (created : create now state.db draft = .ok (id, db))
    (bare : draft.secretRef = none) : Separated none { state with db := db } where
  toOwned := by
    apply separated.toOwned.insert created bare
    apply separated.clean id
    intro ⟨row, found⟩
    -- The id of an insert is new.
    rw [(create_eq created).1, lookup_nextId] at found
    cases found
  agrees := by
    intro other kinds ref _ shown
    rcases credentialsIn_create created shown with ⟨-, -, rfl⟩ | older
    · rw [bare]
      exact agreesWith_none kinds other
    · exact separated.agrees other kinds ref (by simp) older
  clean := by
    intro other absent
    apply separated.clean other
    intro there
    exact absent ((present_create created other).mpr (.inr there))

/-- Tagging concerns no credentials. -/
theorem Separated.setTags (separated : Separated edited state) {id : Int} {tags : List Int}
    {db : Database} (done : setTags state.db id tags = .ok db) :
    Separated edited { state with db := db } where
  -- Tags are in a table of their own, which no credential is read from.
  toOwned := separated.toOwned.setTags done
  agrees := by
    intro other kinds ref different shown
    exact separated.agrees other kinds ref different (credentialsIn_setTags done shown)
  clean := by
    intro other absent
    apply separated.clean other
    intro ⟨row, found⟩
    exact absent ⟨row, by rw [← found]; exact lookup_setTags done other⟩

/-- A secret entered for a host that is there leaves no credential to an id that is not. -/
theorem Separated.entered (separated : Separated edited state) {id : Int}
    (present : Present state.db id) (role : Role) (secret : String) :
    Separated edited (entered state id role secret) where
  toOwned := separated.toOwned.entered id role secret
  agrees := separated.agrees
  clean := by
    intro other absent stored
    -- The accounts of two ids differ, so that the other one is as empty as before.
    have different : accountOf stored other ≠ accountOf role id := by
      intro same
      obtain ⟨-, rfl⟩ := accountOf_inj same
      exact absent present
    have older := separated.clean other absent stored
    simpa [Desktop.entered, Function.update_of_ne different] using older

/-- Emptying an account leaves nothing new anywhere. -/
theorem Separated.emptied (separated : Separated edited state) (account : String) :
    Separated edited { state with keyring := Function.update state.keyring account none } where
  -- An account that is emptied is one fewer that could be taken for another's.
  toOwned := separated.toOwned.emptied account
  agrees := separated.agrees
  clean := by
    intro id absent role
    dsimp only
    by_cases same : accountOf role id = account
    · rw [same, Function.update_self]
    · rw [Function.update_of_ne same]
      exact separated.clean id absent role

end Roles

section Commands

variable {state : AppState}

/-- A record whose fields and tags are in, and whose secret is still to be treated. -/
structure UnderEdit (dto : HostDto) (ref : Option String) (state : AppState) : Prop where
  separated : Separated (some dto.id) state
  shown : ∃ host, get state.db dto.id = .ok (some host) ∧ checkRow state.db (rowOf host) = .ok ()
  only : ∀ kinds found, CredentialsIn state.db dto.id kinds found → kinds = dto.chain ∧ found = ref

/-- Writing a submitted record over a stored one puts the record under edit. -/
theorem Separated.edit (separated : Separated none state) {now : Int} {dto : HostDto}
    {existing : Host} {db : Database} (shown : get state.db dto.id = .ok (some existing))
    (updated : Store.update now state.db (edited existing dto) = .ok db) :
    UnderEdit dto existing.secretRef { state with db := db } := by
  have named : (edited existing dto).id = dto.id := show existing.id = dto.id from get_id shown
  obtain ⟨row, after⟩ := get_update updated
  -- Only the history and the tags differ from what was just accepted.
  refine ⟨?_, ⟨_, (congrArg (get db) named).symm.trans after, accepted_of_update updated⟩, ?_⟩
  · rw [← named]
    exact separated.update updated (separated.toOwned.edited shown) (.inl rfl)
  · intro kinds found credentials
    rcases credentialsIn_update updated credentials with ⟨-, rfl, rfl⟩ | ⟨different, -⟩
    · exact ⟨rfl, rfl⟩
    · exact absurd named.symm different

/-- Tagging leaves a record under edit. -/
theorem UnderEdit.setTags {dto : HostDto} {ref : Option String} (edit : UnderEdit dto ref state)
    {db : Database} (done : setTags state.db dto.id dto.tags = .ok db) :
    UnderEdit dto ref { state with db := db } := by
  -- The tags change what is shown of the record, but not its chain or its reference.
  obtain ⟨host, shown, accepted⟩ := edit.shown
  refine ⟨edit.separated.setTags done, ⟨_, get_setTags done shown, ?_⟩, ?_⟩
  · rw [checkRow_setTags done]
    exact accepted
  · intro kinds found credentials
    exact edit.only kinds found (credentialsIn_setTags done credentials)

/-- A record under edit that agrees with its reference is edited. -/
theorem UnderEdit.settle {dto : HostDto} {ref : Option String} (edit : UnderEdit dto ref state)
    (agrees : AgreesWith dto.chain dto.id ref) : Separated none state := by
  apply edit.separated.settle
  intro kinds found credentials
  obtain ⟨rfl, rfl⟩ := edit.only kinds found credentials
  exact agrees

/-- Writing the reference of a record under edit cannot fail. -/
theorem UnderEdit.recorded {dto : HostDto} {ref : Option String} (edit : UnderEdit dto ref state)
    {host : Host} (shown : get state.db dto.id = .ok (some host)) (now : Int)
    (account : Option String) :
    ∃ db, Store.update now state.db { host with secretRef := account } = .ok db := by
  obtain ⟨other, same, accepted⟩ := edit.shown
  rw [shown] at same
  cases same
  have named : host.id = dto.id := get_id shown
  -- The schema looks at everything but the reference, and has accepted the record.
  apply update_of_accepted
  · rw [← named] at shown
    exact present_of_get shown
  · exact accepted

/-- Storing a secret ends the edit of a record whose chain has a single role. -/
theorem UnderEdit.storeSecretFor {dto : HostDto} {ref : Option String}
    (edit : UnderEdit dto ref state) (single : SingleRole dto.chain) (now : Int) (secret : String) :
    Separated none (storeSecretFor now Faults.none state dto.id secret).1 := by
  -- What is read under the id has the chain that was submitted.
  have chained : ∀ host, get state.db dto.id = .ok (some host) → chain host = dto.chain := by
    intro host shown
    exact (edit.only _ _ (credentialsIn_of_get shown)).1
  apply storeSecretFor_rule
  · -- Without a failing keyring, only a chain of agents stores nothing.
    intro refused
    obtain ⟨host, shown, -⟩ := edit.shown
    apply edit.settle
    apply agreesWith_of_no_role
    cases roled : credentialRole dto.chain with
    | none => rfl
    | some role => exact absurd rfl (refused host role shown (by rw [chained host shown, roled]))
  · -- Writing the reference does not fail.
    intro host role reason shown _ failed
    obtain ⟨db, updated⟩ := edit.recorded shown now (some (accountOf role dto.id))
    rw [failed] at updated
    cases updated
  · -- The account is the one for the only role of the chain.
    intro host role db shown roled updated
    have named : host.id = dto.id := get_id shown
    refine (edit.separated.entered (present_of_get shown) role secret).rewrite updated
      (.inr (congrArg some named.symm)) ?_ ?_
    · intro account referred
      exact ⟨role, by rw [← Option.some.inj referred, named]⟩
    · dsimp only
      rw [named]
      exact agreesWith_own (by rw [← chained host shown] at single; exact single) roled dto.id

/-- Clearing a secret ends the edit of a record, which then refers to nothing. -/
theorem UnderEdit.clearSecretFor {dto : HostDto} {ref : Option String}
    (edit : UnderEdit dto ref state) (now : Int) :
    Separated none (clearSecretFor now Faults.none state dto.id).1 := by
  apply clearSecretFor_rule
  · -- Without a failing keyring, only a record without a reference clears nothing.
    intro refused
    obtain ⟨host, shown, -⟩ := edit.shown
    have referred := (edit.only _ _ (credentialsIn_of_get shown)).2
    apply edit.settle
    cases account : host.secretRef with
    | none =>
      rw [← referred, account]
      exact agreesWith_none dto.chain dto.id
    | some account' => exact absurd rfl (refused host account' shown account)
  · -- Nor does taking the reference out.
    intro host account reason shown _ failed
    obtain ⟨db, updated⟩ := edit.recorded shown now none
    rw [failed] at updated
    cases updated
  · -- A record without a reference agrees with any chain.
    intro host account db shown _ updated
    have named : host.id = dto.id := get_id shown
    refine (edit.separated.emptied account).rewrite updated (.inr (congrArg some named.symm)) ?_ ?_
    · intro other referred
      cases referred
    · exact agreesWith_none _ _

/-- Creating a host keeps the roles apart when a secret comes with a chain of a single role. -/
theorem Separated.createHost (separated : Separated none state) {now : Int} {dto : NewHostDto}
    {secret : Option String}
    (single : (∃ text, secret = some text ∧ text ≠ "") → SingleRole dto.chain) :
    Separated none (createHost now Faults.none state dto secret).1 := by
  -- Between the insert and the secret, the record shows the submitted chain.
  refine createHost_rule (fun id reached => Separated none reached ∧
    ∀ kinds ref, CredentialsIn reached.db id kinds ref → kinds = dto.chain) separated ?_ ?_ ?_ ?_
  · intro id db created
    refine ⟨separated.insert created rfl, ?_⟩
    intro kinds ref shown
    rcases credentialsIn_create created shown with ⟨-, same, -⟩ | older
    · exact same
    · -- No older row has the id of the insert.
      obtain ⟨row, found⟩ := present_of_credentialsIn older
      rw [(create_eq created).1, lookup_nextId] at found
      cases found
  · -- Tags are no credentials, so they change neither.
    intro id reached db held done
    refine ⟨held.1.setTags done, ?_⟩
    intro kinds ref shown
    exact held.2 kinds ref (credentialsIn_setTags done shown)
  · intro id reached held
    exact held.1
  · intro id reached text held given filled
    have single := single ⟨text, given, filled⟩
    apply storeSecretFor_rule
    · intro _
      exact held.1
    · -- A secret whose reference could not be written stays under an account of its role.
      intro host role reason shown _ _
      exact held.1.entered (present_of_get shown) role text
    · -- The reference goes to the account of the chain's one role.
      intro host role db shown roled updated
      have named : host.id = id := get_id shown
      have chained := held.2 _ _ (credentialsIn_of_get shown)
      apply (held.1.entered (present_of_get shown) role text).rewrite updated (.inl rfl)
      · intro account referred
        exact ⟨role, by rw [← Option.some.inj referred, named]⟩
      · dsimp only
        rw [named]
        exact agreesWith_own (by rw [← chained] at single; exact single) roled id

/--
What an update may do to a record without confusing its secret.

An update that keeps the reference, because it leaves the secret or names an unknown tag,
needs a chain that agrees with it, and one that stores a secret needs a chain of a single role.
-/
def KeepsRole (now : Int) (db : Database) (dto : HostDto) (secret : SecretUpdateDto) : Prop :=
  ∀ existing after, get db dto.id = .ok (some existing) →
    Store.update now db (edited existing dto) = .ok after →
    (secret = .unchanged ∨ ¬TagsKnown db dto.tags →
      AgreesWith dto.chain dto.id existing.secretRef) ∧
    (TagsKnown db dto.tags → ∀ text, secret = .set text → SingleRole dto.chain)

/-- Updating a host keeps the roles apart under its condition. -/
theorem Separated.updateHost (separated : Separated none state) {now : Int} {dto : HostDto}
    {secret : SecretUpdateDto} (keeps : KeepsRole now state.db dto secret) :
    Separated none (updateHost now Faults.none state dto secret).1 := by
  -- Whether the tags go in is decided by whether they exist.
  have tagging : ∀ {existing db}, get state.db dto.id = .ok (some existing) →
      Store.update now state.db (edited existing dto) = .ok db →
      ((∃ after, Store.setTags db dto.id dto.tags = .ok after) ↔ TagsKnown state.db dto.tags) := by
    intro existing db shown updated
    rw [← tagsKnown_update updated]
    apply setTags_iff
    exact (present_update updated dto.id).mpr (present_of_get shown)
  refine updateHost_rule (fun reached => ∃ existing after,
    get state.db dto.id = .ok (some existing) ∧
      Store.update now state.db (edited existing dto) = .ok after ∧
      TagsKnown state.db dto.tags ∧ UnderEdit dto existing.secretRef reached)
    separated ?_ ?_ ?_ ?_ ?_
  · -- A tag that is unknown leaves the record with its old reference.
    intro existing db reason shown updated failed
    apply (separated.edit shown updated).settle
    apply (keeps existing db shown updated).1
    right
    intro known
    obtain ⟨after, done⟩ := (tagging shown updated).mpr known
    rw [failed] at done
    cases done
  · -- With its tags the record is under edit, whatever was read of it before.
    intro existing db after shown updated done
    exact ⟨existing, db, shown, updated, (tagging shown updated).mp ⟨after, done⟩,
      (separated.edit shown updated).setTags done⟩
  · -- So does an update that leaves the secret alone.
    intro reached ⟨existing, db, shown, updated, known, edit⟩ unchanged
    exact edit.settle ((keeps existing db shown updated).1 (.inl unchanged))
  · -- A secret that is set or cleared ends the edit.
    intro reached text ⟨existing, db, shown, updated, known, edit⟩ set
    exact edit.storeSecretFor ((keeps existing db shown updated).2 known text set) now text
  · intro reached ⟨existing, db, shown, updated, known, edit⟩ clear
    exact edit.clearSecretFor now

/-- Deleting a host with a working keyring leaves nothing under its id. -/
theorem Separated.deleteHost (separated : Separated none state) (id : Int) :
    Separated none (deleteHost Faults.none state id).1 := by
  -- Both accounts are cleared before the row goes.
  have cleared := (separated.emptied (passwordAccount id)).emptied (passphraseAccount id)
  unfold Desktop.deleteHost
  dsimp only
  cases deleted : Store.delete state.db id with
  | error reason => exact cleared
  | ok db =>
    refine ⟨cleared.toOwned.delete deleted, ?_, ?_⟩
    · -- The records that stay are those there were, with the references they had.
      intro other kinds ref _ shown
      exact separated.agrees other kinds ref (by simp) (credentialsIn_delete deleted shown)
    · intro other absent role
      -- No account of an id that is gone is left.
      by_cases same : other = id
      · -- Both accounts of the id were cleared before the row went.
        subst same
        cases role with
        | password =>
          have different : accountOf .password other ≠ accountOf .passphrase other := by
            intro equal
            cases (accountOf_inj equal).1
          have first : Function.update (Function.update state.keyring
              (accountOf .password other) none) (accountOf .passphrase other) none
              (accountOf .password other) = none := by
            rw [Function.update_of_ne different, Function.update_self]
          exact first
        | passphrase => exact Function.update_self _ _ _
      · -- Under another id the accounts are as clean as they were.
        apply cleared.clean other
        intro ⟨row, found⟩
        apply absent
        exact ⟨row, by rw [lookup_delete deleted, if_neg same]; exact found⟩

/-- Importing hosts keeps the roles apart when every refreshed chain agrees with its reference. -/
theorem Separated.importSshConfig (separated : Separated none state) {now : Int}
    {chosen : List Candidate}
    (agrees : System.Meets (upsertStep now)
      (fun db c => ∀ existing, findBySourceAlias db c.alias_ = .ok (some existing) →
        AgreesWith (c.auth :: existing.authFallbacks) existing.id existing.secretRef)
      state.db chosen) :
    Separated none { state with db := (apply now state.db ⟨0, 0⟩ chosen).1 } := by
  rw [apply_store]
  refine System.runWhile_invariant (fun db => Separated none { state with db := db }) ?_ agrees
    separated
  intro db after c agreed held taken
  -- A turn rewrites a record that refers to what it did, or inserts one without a reference.
  rcases upsertStep_cases taken with ⟨existing, found, updated⟩ | ⟨missing, id, created⟩
  · apply held.rewrite updated (.inl rfl)
    · intro account referred
      have shown := credentialsIn_of_alias found
      have same : existing.secretRef = some account := referred
      rw [same] at shown
      exact held.referenced _ _ _ shown
    · exact agreed existing found
  · exact held.insert created rfl

/-- Connecting to a host changes nobody's secrets. -/
theorem Separated.connectHost (separated : Separated none state) (faults : Faults) (id : Int)
    (established : Option Int) : Separated none (connectHost faults state id established).1 := by
  -- A connection is counted in the record at most, and the count is no credential.
  have owned := separated.toOwned.connectHost faults id established
  rcases connectHost_cases faults state id established with same | ⟨at_, counted⟩
  · rw [same]
    exact separated
  · rw [counted] at owned ⊢
    refine ⟨owned, ?_, ?_⟩
    · intro other kinds ref _ shown
      exact separated.agrees other kinds ref (by simp) (credentialsIn_recordConnection shown)
    · intro other absent
      apply separated.clean other
      intro there
      exact absent ((present_recordConnection state.db id at_ other).mpr there)

end Commands

section Runs

/-- The step of a command while every call to the keyring works. -/
def workingStep (state : AppState) (action : Int × Command) : Option AppState :=
  some (exec action.1 Faults.none state action.2)

/-- A command leaves no chain that would use a stored secret in another role. -/
def KeepsRoles (state : AppState) (action : Int × Command) : Prop :=
  match action.2 with
  | .createHost dto secret => (∃ text, secret = some text ∧ text ≠ "") → SingleRole dto.chain
  | .updateHost dto secret => KeepsRole action.1 state.db dto secret
  | .importSshConfig chosen =>
    System.Meets (upsertStep action.1)
      (fun db c => ∀ existing, findBySourceAlias db c.alias_ = .ok (some existing) →
        AgreesWith (c.auth :: existing.authFallbacks) existing.id existing.secretRef)
      state.db chosen
  | _ => True

/-- One command keeps the roles apart under its condition. -/
theorem separated_step {state next : AppState} {action : Int × Command}
    (keeps : KeepsRoles state action) (separated : Separated none state)
    (taken : workingStep state action = some next) : Separated none next := by
  cases taken
  obtain ⟨now, command⟩ := action
  -- Each command keeps the roles apart, the two last ones under no condition.
  cases command with
  | createHost dto secret => exact separated.createHost keeps
  | updateHost dto secret => exact separated.updateHost keeps
  | deleteHost id => exact separated.deleteHost id
  | importSshConfig chosen => exact separated.importSshConfig keeps
  | connectHost id established => exact separated.connectHost Faults.none id established
  | testConnection hostId form => exact separated

/--
In every run whose commands leave no chain at odds with the secret it refers to,
a connect hands every secret over in the role it was stored in.
-/
theorem right_roles_of_kept {actions : List (Int × Command)} {final : AppState}
    (keeps : System.Meets workingStep KeepsRoles AppState.fresh actions)
    (ran : System.run workingStep AppState.fresh actions = some final) : RightRoles final :=
  (System.run_invariant separated_step keeps separated_fresh ran).rightRoles

/-- A host that logs in with a key file. -/
def keyFileHost : NewHostDto :=
  { passwordHost with auth := .keyFile, keyPath := some "/home/me/.ssh/id_ed25519" }

/-- The key's passphrase is saved, and then replaced. -/
def passphraseReplaced : List (Int × Command) :=
  [(0, .createHost keyFileHost (some "correct horse")),
    (1, .updateHost { keyFileHost with id := 1 } (.set "battery staple"))]

/-- A chain of one method has a single role. -/
theorem singleRole_singleton (kind : AuthKind) : SingleRole [kind] := by
  -- Both methods are the only one, and one method takes one role.
  intro left leftIn right rightIn first second takesFirst takesSecond
  rw [List.mem_singleton] at leftIn rightIn
  rw [leftIn] at takesFirst
  rw [rightIn, takesFirst] at takesSecond
  exact Option.some.inj takesSecond

/-- A replaced passphrase is handed to the key it belongs to. -/
theorem right_roles_of_replaced_passphrase :
    ∃ final, System.run workingStep AppState.fresh passphraseReplaced = some final ∧
      final.history =
        [.stored 1 .passphrase "correct horse", .stored 1 .passphrase "battery staple"] ∧
      RightRoles final := by
  -- Both writes are of a chain of one key, so the condition holds at each of them.
  obtain ⟨final, ran, history⟩ : ∃ final,
      System.run workingStep AppState.fresh passphraseReplaced = some final ∧
        final.history =
          [.stored 1 .passphrase "correct horse", .stored 1 .passphrase "battery staple"] :=
    ⟨_, rfl, rfl⟩
  refine ⟨final, ran, history, right_roles_of_kept ?_ ran⟩
  refine .cons (fun _ => singleRole_singleton .keyFile) rfl (.cons ?_ rfl trivial)
  intro existing after _ _
  refine ⟨?_, fun _ _ _ => singleRole_singleton .keyFile⟩
  intro kept
  rcases kept with unchanged | unknown
  · cases unchanged
  · exact absurd (fun tag member => absurd member List.not_mem_nil) unknown

/-- The host is switched to a password, and its secret left as it is. -/
def methodSwitched : List (Int × Command) :=
  [(0, .createHost keyFileHost (some "correct horse")),
    (1, .updateHost { passwordHost with id := 1 } .unchanged)]

/-- The record the switch leaves, which still refers to the passphrase. -/
def switchedHost : Host :=
  { hostOfDraft 1 0 (draftOfDto passwordHost) with
    secretRef := some (passphraseAccount 1), updatedAt := 1 }

/-- The passphrase of the key is handed over as the password of the server. -/
theorem hands_passphrase_as_password :
    ∃ final, System.run workingStep AppState.fresh methodSwitched = some final ∧
      get final.db 1 = .ok (some switchedHost) ∧
      (authForHost Faults.none final.keyring switchedHost).methods =
        [.password "correct horse"] ∧
      ¬RightRoles final := by
  refine ⟨_, rfl, rfl, by decide, ?_⟩
  intro right
  have stored := right switchedHost rfl Faults.none .password "correct horse"
    ⟨by decide, .password "correct horse", by decide, rfl⟩
  obtain ⟨before, after, split, -⟩ := stored
  -- The only secret ever stored was stored as a passphrase.
  have member : Event.stored 1 .password "correct horse" ∈
      [Event.stored 1 .passphrase "correct horse"] := by
    have whole : [Event.stored 1 .passphrase "correct horse"] =
        before ++ .stored 1 .password "correct horse" :: after := split
    rw [whole]
    exact List.mem_append_right _ List.mem_cons_self
  exact absurd member (by decide)

end Runs

end Tern.Desktop
