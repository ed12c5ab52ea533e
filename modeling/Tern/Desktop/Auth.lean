import Tern.Store.Hosts

/-! Credential resolution: from a host record through the keyring to the methods of a connect. -/

namespace Tern.Desktop

open Tern.Store

/-- What the credential store can answer instead of a credential. -/
inductive VaultError where
  | notFound
  | store (reason : String)
  deriving DecidableEq, Repr

/-- The operating system's credential store, as a map from account to secret. -/
abbrev Keyring := String → Option String

/-- One call into the credential store. -/
inductive KeyringCall where
  | get (account : String)
  | set (account : String)
  | delete (account : String)
  deriving DecidableEq, Repr

/-- Which calls fail during a command, and with what reason. -/
abbrev Faults := KeyringCall → Option String

/-- Every call works. -/
def Faults.none : Faults := fun _ => Option.none

section Keyring

/-- Read a secret. -/
def getPassword (faults : Faults) (keyring : Keyring) (account : String) :
    Except VaultError String :=
  match faults (.get account) with
  | some reason => .error (.store reason)
  | none =>
    match keyring account with
    | some secret => .ok secret
    | none => .error .notFound

/-- Store or replace a secret. -/
def setSecret (faults : Faults) (keyring : Keyring) (account secret : String) :
    Except VaultError Keyring :=
  match faults (.set account) with
  | some reason => .error (.store reason)
  | none => .ok (Function.update keyring account (some secret))

/-- Remove a secret, where a missing entry counts as removed. -/
def clearSecret (faults : Faults) (keyring : Keyring) (account : String) :
    Except VaultError Keyring :=
  match faults (.delete account) with
  | some reason => .error (.store reason)
  | none => .ok (Function.update keyring account none)

end Keyring

section Accounts

/-- The account of a host's password. -/
def passwordAccount (hostId : Int) : String :=
  "host/" ++ toString hostId ++ "/password"

/-- The account of a host's key passphrase. -/
def passphraseAccount (hostId : Int) : String :=
  "host/" ++ toString hostId ++ "/passphrase"

/-- The two roles a stored secret may play. -/
inductive Role where
  | password
  | passphrase
  deriving DecidableEq, Repr

/-- The role of the secret a method takes, if it takes one. -/
def roleOf : AuthKind → Option Role
  | .password => some .password
  | .keyFile => some .passphrase
  | .agent => none

/-- The account under which a host's secret of a role is stored. -/
def accountOf (role : Role) (hostId : Int) : String :=
  match role with
  | .password => passwordAccount hostId
  | .passphrase => passphraseAccount hostId

/-- The methods of a host in the order they are tried. -/
def chain (host : Host) : List AuthKind := host.auth :: host.authFallbacks

/-- The role of a chain's credential: that of the first method that takes one. -/
def credentialRole (kinds : List AuthKind) : Option Role := kinds.findSome? roleOf

/-- The account a host stores its single credential under. -/
def accountFor (host : Host) : Option String :=
  (chain host).findSome? fun kind =>
    match kind with
    | .password => some (passwordAccount host.id)
    | .keyFile => some (passphraseAccount host.id)
    | .agent => none

/-- The account is that of the chain's credential role. -/
theorem accountFor_eq (host : Host) :
    accountFor host = (credentialRole (chain host)).map fun role => accountOf role host.id := by
  unfold accountFor credentialRole
  -- Along the chain, both searches stop at the same method.
  induction chain host with
  | nil => rfl
  | cons kind rest ih =>
    cases kind with
    | agent =>
      simp only [List.findSome?_cons, roleOf]
      exact ih
    | keyFile => rfl
    | password => rfl

/-- An account is its id between a common beginning and the name of its role. -/
theorem accountOf_toList (role : Role) (id : Int) :
    (accountOf role id).toList = "host/".toList ++ ((toString id).toList ++
      '/' :: (match role with | .password => "password" | .passphrase => "passphrase").toList) := by
  cases role with
  | password => simp [accountOf, passwordAccount]
  | passphrase => simp [accountOf, passphraseAccount]

/-- An account tells the role and the host it is for. -/
theorem accountOf_inj {left right : Role} {leftId rightId : Int}
    (same : accountOf left leftId = accountOf right rightId) : left = right ∧ leftId = rightId := by
  have chars := congrArg String.toList same
  rw [accountOf_toList, accountOf_toList] at chars
  -- The id ends at the first slash behind the common beginning.
  obtain ⟨ids, names⟩ := Text.append_cons_inj
    (Text.notMem_toString_int (by decide) (by decide) leftId)
    (Text.notMem_toString_int (by decide) (by decide) rightId) (List.append_cancel_left chars)
  refine ⟨?_, Text.toString_int_inj ids⟩
  cases left with
  | password =>
    cases right with
    | password => rfl
    | passphrase => exact absurd names (by decide)
  | passphrase =>
    cases right with
    | password => exact absurd names (by decide)
    | passphrase => rfl

end Accounts

section Resolution

/-- A method of the transport, with the credential it is to use. -/
inductive AuthMethod where
  | password (secret : String)
  | keyFile (path : String) (passphrase : Option String)
  | agent
  deriving DecidableEq, Repr

/-- The methods to attempt, and what the user needs told about how they were assembled. -/
structure ResolvedAuth where
  methods : List AuthMethod
  degraded : Option String
  deriving DecidableEq, Repr

/-- A host's stored secret, if the credential store holds one that can be read. -/
def storedSecret (faults : Faults) (keyring : Keyring) (host : Host) : Option String :=
  (accountFor host).bind fun account => (getPassword faults keyring account).toOption

/-- A secret to connect with, telling nothing saved from a store that could not be asked. -/
def readSecret (faults : Faults) (keyring : Keyring) (account : String) :
    Option String × Option String :=
  match getPassword faults keyring account with
  | .ok secret => (some secret, none)
  | .error .notFound => (none, none)
  | .error (.store reason) =>
    (none, some ("a credential is saved for this host but the credential store could " ++
      "not be read (" ++ reason ++ "); connecting without it"))

/-- One method of a host's chain, given whatever secret was read for the host. -/
def buildMethod (host : Host) (stored : Option String) : AuthKind → AuthMethod
  | .agent => .agent
  | .password => .password (stored.getD "")
  | .keyFile => .keyFile (host.keyPath.getD "") stored

/-- The transport methods of a host, pulling its credential at the last moment. -/
def authForHost (faults : Faults) (keyring : Keyring) (host : Host) : ResolvedAuth :=
  let (stored, degraded) :=
    match host.secretRef with
    | none => (none, none)
    | some account => readSecret faults keyring account
  -- A fallback that repeats the primary would spend an attempt proving the same thing twice.
  let fallbacks := host.authFallbacks.filter fun kind => kind ≠ host.auth
  ⟨buildMethod host stored host.auth :: fallbacks.map (buildMethod host stored), degraded⟩

/-- A method as the form sends it, with its credential field. -/
inductive AuthMethodDto where
  | password (password : String)
  | keyFile (path : String) (passphrase : Option String)
  | agent
  deriving DecidableEq, Repr

/-- A form's method as it stands. -/
def authFromDto : AuthMethodDto → AuthMethod
  | .password password => .password password
  | .keyFile path passphrase => .keyFile path passphrase
  | .agent => .agent

/-- A form's method, where a blank credential field is filled from the stored secret. -/
def authFromDtoOrStored (dto : AuthMethodDto) (stored : Option String) : AuthMethod :=
  match dto with
  | .password password =>
    if password = "" then .password (stored.getD "") else authFromDto (.password password)
  | .keyFile path passphrase =>
    if passphrase = none ∨ passphrase = some "" then .keyFile path stored
    else authFromDto (.keyFile path passphrase)
  | .agent => authFromDto .agent

/-- The methods a connection test tries: the form's, over what is saved for the host it edits. -/
def testConnectionAuth (faults : Faults) (keyring : Keyring) (db : Database) (hostId : Option Int)
    (form : List AuthMethodDto) : List AuthMethod :=
  let stored : Option String :=
    match hostId with
    | none => none
    | some id =>
      match get db id with
      | .ok (some host) => storedSecret faults keyring host
      | .ok none => none
      | .error _ => none
  form.map fun dto => authFromDtoOrStored dto stored

end Resolution

section ConnectionTest

/-- The user left this method's credential field empty. -/
def Blank : AuthMethodDto → Prop
  | .password password => password = ""
  | .keyFile _ passphrase => passphrase = none ∨ passphrase = some ""
  | .agent => False

/-- The role in which a form's method would use a secret. -/
def dtoRole : AuthMethodDto → Option Role
  | .password _ => some .password
  | .keyFile _ _ => some .passphrase
  | .agent => none

/-- The secret a method carries, with the role in which it uses it. -/
def carries : AuthMethod → Option (Role × String)
  | .password secret => some (.password, secret)
  | .keyFile _ passphrase => passphrase.map fun secret => (.passphrase, secret)
  | .agent => none

/--
A stored secret that stands in for a blank field is used in the role it is stored for.

Each of the form's methods is looked at beside the method the test makes of it.
-/
def SubstitutedInRole (faults : Faults) (keyring : Keyring) (db : Database) (host : Host)
    (form : List AuthMethodDto) : Prop :=
  ∀ dto method,
    (dto, method) ∈ form.zip (testConnectionAuth faults keyring db (some host.id) form) →
    Blank dto → ∀ secret role, storedSecret faults keyring host = some secret →
      carries method = some (role, secret) → credentialRole (chain host) = some role

/-- A blank field carries the stored secret, in the role of the form's own method. -/
theorem carries_of_blank {dto : AuthMethodDto} (blank : Blank dto) (secret : String) :
    carries (authFromDtoOrStored dto (some secret)) =
      (dtoRole dto).map fun role => (role, secret) := by
  -- A blank field is one without text, and the agent has no field that could be blank.
  cases dto with
  | password password =>
    have empty : password = "" := blank
    simp [authFromDtoOrStored, empty, carries, dtoRole]
  | keyFile path passphrase =>
    have empty : passphrase = none ∨ passphrase = some "" := blank
    simp [authFromDtoOrStored, empty, carries, dtoRole]
  | agent => exact absurd blank id

/-- What the test pairs with each of the form's methods. -/
theorem mem_zip_testConnectionAuth {faults : Faults} {keyring : Keyring} {db : Database}
    {host : Host} {form : List AuthMethodDto} (saved : get db host.id = .ok (some host))
    {dto : AuthMethodDto} {method : AuthMethod} :
    (dto, method) ∈ form.zip (testConnectionAuth faults keyring db (some host.id) form) ↔
      dto ∈ form ∧ method = authFromDtoOrStored dto (storedSecret faults keyring host) := by
  simp only [testConnectionAuth, saved]
  -- Zipping a list with its own image pairs every element with what it became.
  induction form with
  | nil => simp
  | cons head rest ih =>
    rw [List.map_cons, List.zip_cons_cons, List.mem_cons, ih, List.mem_cons, Prod.mk.injEq]
    by_cases same : dto = head
    · simp only [same, true_and, true_or]
      exact ⟨fun either => either.elim id And.right, .inl⟩
    · simp [same]

/--
A connection test uses a saved secret in its own role exactly when there is none to use,
or every blank field of the form is of the kind the saved chain stores a secret for.
-/
theorem test_substitutes_in_role_iff (faults : Faults) (keyring : Keyring) (db : Database)
    {host : Host} (form : List AuthMethodDto) (saved : get db host.id = .ok (some host)) :
    SubstitutedInRole faults keyring db host form ↔
      storedSecret faults keyring host = none ∨
        ∀ dto ∈ form, Blank dto → dtoRole dto = credentialRole (chain host) := by
  unfold SubstitutedInRole
  cases found : storedSecret faults keyring host with
  | none =>
    -- Nothing is read, so nothing is substituted.
    simp
  | some secret =>
    have pairs := fun dto method => @mem_zip_testConnectionAuth faults keyring db host form saved
      dto method
    simp only [pairs, found, reduceCtorEq, false_or]
    apply Iff.intro
    · intro inRole dto member blank
      have carried := carries_of_blank blank secret
      -- A blank field is only ever one of a method that takes a secret.
      cases role : dtoRole dto with
      | none =>
        cases dto with
        | password _ => cases role
        | keyFile _ _ => cases role
        | agent => exact absurd blank id
      | some role' =>
        rw [role, Option.map_some] at carried
        exact (inRole dto _ ⟨member, rfl⟩ blank secret role' rfl carried).symm
    · intro agrees dto method paired blank other role same carried
      obtain ⟨member, rfl⟩ := paired
      rw [carries_of_blank blank secret] at carried
      obtain ⟨role', own, equal⟩ := Option.map_eq_some_iff.mp carried
      rw [← agrees dto member blank, own, (Prod.mk.inj equal).1]

/-- A saved host that authenticates with a key file. -/
def keyHost : Host where
  id := 1
  folderId := none
  name := "web"
  hostname := "web.example.com"
  port := 22
  username := "deploy"
  auth := .keyFile
  authFallbacks := []
  secretRef := some (passphraseAccount 1)
  keyPath := some "/home/me/.ssh/id_ed25519"
  overrides := HostOverrides.default
  proxyJump := none
  source := .manual
  sourceAlias := none
  color := none
  notes := none
  lastConnectedAt := none
  connectCount := 0
  createdAt := 0
  updatedAt := 0
  tags := []

/-- A store that holds only this host. -/
def keyHostStore : Database := { Database.fresh with hosts := [rowOf keyHost] }

/-- A credential store that holds only this host's passphrase. -/
def keyHostKeyring : Keyring :=
  Function.update (fun _ => none) (passphraseAccount 1) (some "correct horse")

/-- The store shows the host as it was saved. -/
theorem get_keyHost : get keyHostStore keyHost.id = .ok (some keyHost) := by
  decide

/-- A test of the host as it was saved uses the passphrase for the key. -/
theorem test_of_saved_chain_in_role :
    storedSecret Faults.none keyHostKeyring keyHost = some "correct horse" ∧
      SubstitutedInRole Faults.none keyHostKeyring keyHostStore keyHost
        [.keyFile "/home/me/.ssh/id_ed25519" none] := by
  -- The form tests the key the record was saved with, so the stored passphrase is in its role.
  refine ⟨by decide, ?_⟩
  apply (test_substitutes_in_role_iff Faults.none keyHostKeyring keyHostStore _ get_keyHost).mpr
  right
  intro dto member _
  rw [List.mem_singleton.mp member]
  rfl

/-- Switching the form to a password sends the saved passphrase to the server. -/
theorem test_sends_passphrase_as_password :
    testConnectionAuth Faults.none keyHostKeyring keyHostStore (some keyHost.id) [.password ""] =
        [.password "correct horse"] ∧
      ¬SubstitutedInRole Faults.none keyHostKeyring keyHostStore keyHost [.password ""] := by
  have methods : testConnectionAuth Faults.none keyHostKeyring keyHostStore (some keyHost.id)
      [.password ""] = [.password "correct horse"] := by
    decide
  refine ⟨methods, ?_⟩
  intro inRole
  -- The blank password field received a secret that is stored as a passphrase.
  have role := inRole (.password "") (.password "correct horse") (by rw [methods]; decide) rfl
    "correct horse" .password (by decide) rfl
  exact absurd role (by decide)

end ConnectionTest

end Tern.Desktop
