import Tern.Desktop.Steady
import Tern.Ssh.Authenticate
import Tern.SshConfig.Commit
import Tern.Store.RoundTrip

/-! What a saved host is connected with, from the config it was imported from to the transport. -/

namespace Tern.SessionCfg

open Store Desktop SshConfig

section Configs

/-- Everything needed to establish a session. -/
structure SessionConfig extends Ssh.SessionConfig where
  host : String
  port : UInt16
  /-- The kind of terminal that is asked for. -/
  term : String
  /-- How often the transport is probed, if at all. -/
  keepaliveInterval : Option Duration
  keepaliveMax : Nat
  windowSize : UInt32
  channelBufferSize : Nat
  deriving DecidableEq

/-- A config with the defaults. -/
def SessionConfig.new (host username : String) (auth : AuthMethod) : SessionConfig where
  host
  port := 22
  username
  auth := [auth]
  term := "xterm-256color"
  keepaliveInterval := some (.fromSecs 15)
  keepaliveMax := 3
  connectTimeout := .fromSecs 10
  windowSize := 512 * 1024
  channelBufferSize := 16

/-- Build the config of a stored host: the defaults, then its overrides, then the request. -/
def forHost (host : Host) (auth : List AuthMethod) (reqWindow : Option UInt32) : SessionConfig :=
  let cfg := SessionConfig.new host.hostname host.username .agent
  let cfg := { cfg with auth, port := host.port }
  let o := host.overrides
  let cfg := match o.term with
    | some term => { cfg with term }
    | none => cfg
  let cfg := match o.keepaliveSecs with
    -- Zero disables the probes, instead of sending them all the time.
    | some secs =>
      { cfg with keepaliveInterval := if secs = 0 then none else some (.fromSecs secs.toNat) }
    | none => cfg
  let cfg := match o.keepaliveMax with
    | some most => { cfg with keepaliveMax := most.toNat }
    | none => cfg
  let cfg := match o.connectTimeoutSecs with
    | some secs => { cfg with connectTimeout := .fromSecs secs.toNat }
    | none => cfg
  let cfg := match o.windowSize with
    | some window => { cfg with windowSize := window }
    | none => cfg
  match reqWindow with
  | some window => { cfg with windowSize := window }
  | none => cfg

/-- What a saved host is connected with, first and at every reconnect: all of it is read anew. -/
def savedHostConfig (faults : Faults) (keyring : Keyring) (db : Database) (hostId : Int)
    (window : Option UInt32) : Except CommandError SessionConfig :=
  match get db hostId with
  | .error reason => .error (.store reason)
  | .ok none => .error (.noSuchHost hostId)
  | .ok (some host) => .ok (forHost host (authForHost faults keyring host).methods window)

/-- Each setting is that of the request, else that of the host, else the default. -/
theorem forHost_layers (host : Host) (auth : List AuthMethod) (reqWindow : Option UInt32) :
    forHost host auth reqWindow =
      { host := host.hostname
        port := host.port
        username := host.username
        auth
        term := host.overrides.term.getD "xterm-256color"
        keepaliveInterval := match host.overrides.keepaliveSecs with
          | none => some (.fromSecs 15)
          | some secs => if secs = 0 then none else some (.fromSecs secs.toNat)
        keepaliveMax := (host.overrides.keepaliveMax.map UInt32.toNat).getD 3
        connectTimeout := .fromSecs ((host.overrides.connectTimeoutSecs.map UInt32.toNat).getD 10)
        windowSize := (reqWindow.or host.overrides.windowSize).getD (512 * 1024)
        channelBufferSize := 16 } := by
  -- Each setting is a chain of its own, so every one is decided by whether its parts are there.
  unfold forHost
  generalize host.overrides = overrides
  obtain ⟨term, keepaliveSecs, keepaliveMax, connectTimeoutSecs, windowSize, -, -⟩ := overrides
  cases term <;> cases keepaliveSecs <;> cases keepaliveMax <;> cases connectTimeoutSecs <;>
    cases windowSize <;> cases reqWindow <;> simp [SessionConfig.new]

end Configs

section Rows

variable {row later : HostRow} {db after : Database}

/-- What is set aside of a row is set aside of its record. -/
theorem rowToHost_aside (aside : Aside row later) :
    rowToHost later = (rowToHost row).map fun host =>
      { host with
        folderId := later.folderId
        lastConnectedAt := later.lastConnectedAt
        connectCount := later.connectCount
        updatedAt := later.updatedAt } := by
  obtain ⟨folderId, lastConnectedAt, connectCount, updatedAt, rfl⟩ := aside
  change _ =
    (fun host : Host => { host with folderId, lastConnectedAt, connectCount, updatedAt }) <$>
      rowToHost row
  -- The columns that can be refused are the same in both rows.
  simp only [rowToHost, map_bind, map_pure]

/-- What is set aside of a row does not reach the transport. -/
theorem savedHostConfig_aside (found : lookup db row.id = some row)
    (kept : lookup after row.id = some later) (aside : Aside row later) (faults : Faults)
    (keyring : Keyring) (window : Option UInt32) :
    savedHostConfig faults keyring after row.id window =
      savedHostConfig faults keyring db row.id window := by
  -- The host that is read differs in nothing that the config is made of.
  unfold savedHostConfig Store.get
  rw [found, kept]
  simp only [attachTags, rowToHost_aside aside]
  cases rowToHost row with
  | error reason => rfl
  | ok host => rfl

end Rows

section Runs

/-- A config of one host, with all that is brought across. -/
def keyed : Platform where
  home := none
  userProfile := none
  unicodeLowercase := id
  canonicalize := some
  readToString path :=
    if path = "/c/config" then
      some "Host web\nHostName 10.0.0.7\nPort 2222\nIdentityFile /k\nServerAliveInterval 0\n"
    else none
  isFile path := path == "/c/config"
  readDir _ := none

/-- A move of the first host, and a connection to it that is recorded before the move is written. -/
def beside : List Scheduled :=
  [.start ⟨.moveHost 1 none, fun _ => none, 7⟩, .start ⟨.recordConnection 1 8, fun _ => none, 8⟩,
    .call 1, .call 0]

/-- Neither command is about what a row says. -/
theorem beside_spares (row : HostRow) : ∀ job, .start job ∈ beside → job.command.Spares row := by
  intro job member
  simp only [beside, List.mem_cons, Scheduled.start.injEq, reduceCtorEq, List.not_mem_nil,
    or_false] at member
  rcases member with rfl | rfl <;> trivial

/--
However commands about others run beside each other, a saved host is connected with the same
config, at the first connect and at every reconnect.
-/
theorem saved_host_dials_steadily {start : AppState} {steps : List Scheduled} {final : Concurrent}
    {row : HostRow} (consistent : Consistent start.db)
    (found : lookup start.db row.id = some row)
    (apart : ∀ job, .start job ∈ steps → job.command.Spares row)
    (ran : System.run concurrentStep ⟨start, [], []⟩ steps = some final) (faults : Faults)
    (keyring : Keyring) (window : Option UInt32) :
    savedHostConfig faults keyring final.state.db row.id window =
      savedHostConfig faults keyring start.db row.id window := by
  obtain ⟨-, -, later, kept, aside⟩ := untouched_run consistent found apart ran
  exact savedHostConfig_aside found kept aside faults keyring window

/-- The host is moved and connected to, and is connected with the same config afterwards. -/
theorem saved_host_dials_beside :
    ∃ start final row, System.run concurrentStep ⟨start, [], []⟩ beside = some final ∧
      lookup (AppState.db start) (HostRow.id row) = some row ∧
      final.state.db.hosts.map (fun row => (row.connectCount, row.updatedAt)) = [(1, 7)] ∧
      savedHostConfig Faults.none (fun _ => none) final.state.db row.id none =
        savedHostConfig Faults.none (fun _ => none) start.db row.id none := by
  -- The host is in the table from an import, and the two commands beside it spare its settings.
  have intact := intact_importSshConfig reachable_fresh.intact keyed "/c/config" 5 ["web"]
  obtain ⟨start, same, final, ran, row, found, changed⟩ : ∃ start : AppState,
      start.db = (importSshConfig keyed "/c/config" 5 Database.fresh ["web"]).1 ∧
      ∃ final, System.run concurrentStep ⟨start, [], []⟩ beside = some final ∧
        ∃ row, lookup start.db 1 = some row ∧
          final.state.db.hosts.map (fun row => (row.connectCount, row.updatedAt)) = [(1, 7)] :=
    ⟨⟨_, fun _ => none, []⟩, rfl, _, rfl, _, rfl, rfl⟩
  rw [← same] at intact
  rw [← lookup_id found] at found
  exact ⟨start, final, row, ran, found, changed, saved_host_dials_steadily intact.consistent found
    (beside_spares row) ran Faults.none (fun _ => none) none⟩

end Runs

section Imports

/-- What a config says of an alias for a setting: the first stanza that matches and sets it. -/
def setting (parsed : ParsedConfig) (alias_ : String) (field : Field) : Option field.Value :=
  parsed.stanzas.findSome? fun stanza => if stanza.matches alias_ then stanza.get field else none

/-- The methods of an imported host: its key or else the agent, and then its fallbacks. -/
def importedMethods (identity : Option String) (fallbacks : List AuthKind)
    (secret : Option String) : List AuthMethod :=
  let primary : AuthKind := if identity.isSome then .keyFile else .agent
  (primary :: fallbacks.filter fun kind => kind ≠ primary).map fun
    | .agent => .agent
    | .password => .password (secret.getD "")
    | .keyFile => .keyFile (identity.getD "") secret

/-- The fallbacks that an import finds: those of an earlier import of the alias, if there is one. -/
def fallbacksOf (earlier : Option Host) : List AuthKind := (earlier.map Host.authFallbacks).getD []

/-- The secret that is stored for an earlier import of the alias, if there is one to read. -/
def secretOf (faults : Faults) (keyring : Keyring) (earlier : Option Host) : Option String :=
  (earlier.bind Host.secretRef).bind fun account => (readSecret faults keyring account).1

/-- A session is what a config says of an alias, and the defaults where it says nothing. -/
structure Dials (parsed : ParsedConfig) (alias_ : String) (fallbacks : List AuthKind)
    (secret : Option String) (window : Option UInt32) (cfg : SessionConfig) : Prop where
  host : cfg.host = (setting parsed alias_ .hostname).getD alias_
  port : cfg.port = (setting parsed alias_ .port).getD 22 ∧ cfg.port ≠ 0
  username : cfg.username = (setting parsed alias_ .user).getD ""
  /-- The whole chain, in which only the fallbacks and the secret are not the config's. -/
  auth : cfg.auth = importedMethods (setting parsed alias_ .identityFile) fallbacks secret
  keepalive : cfg.keepaliveInterval = match setting parsed alias_ .serverAliveInterval with
    | none => some (.fromSecs 15)
    | some secs => if secs = 0 then none else some (.fromSecs secs.toNat)
  timeout : cfg.connectTimeout =
    .fromSecs (((setting parsed alias_ .connectTimeout).map UInt32.toNat).getD 10)
  window : cfg.windowSize = window.getD (512 * 1024)
  rest : cfg.term = "xterm-256color" ∧ cfg.keepaliveMax = 3 ∧ cfg.channelBufferSize = 16

/-- A host with the kind and the key of an import is tried with the methods of one. -/
theorem methods_of_imported {host : Host} {identity : Option String}
    (kind : host.auth = if identity.isSome then .keyFile else .agent)
    (key : host.keyPath = identity) (faults : Faults) (keyring : Keyring) :
    (authForHost faults keyring host).methods = importedMethods identity host.authFallbacks
      (host.secretRef.bind fun account => (readSecret faults keyring account).1) := by
  -- Every method is built from the key of the config and the one stored secret.
  have each : ∀ stored, buildMethod host stored = fun
      | .agent => .agent
      | .password => .password (stored.getD "")
      | .keyFile => .keyFile (identity.getD "") stored := by
    intro stored
    funext method
    cases method with
    | agent => rfl
    | password => rfl
    | keyFile => rw [← key, buildMethod]
  unfold authForHost importedMethods
  dsimp only
  -- The secret is read once, and every method of the chain is given it.
  cases host.secretRef with
  | none =>
    rw [each, kind]
    rfl
  | some account =>
    rw [each, kind]
    rfl

/-- What an import goes on from decides the fallbacks and the secret of its methods. -/
theorem fallbacks_of_continues {earlier : Option Host} {host : Host}
    (continues : Continues earlier host) (faults : Faults) (keyring : Keyring) :
    host.authFallbacks = fallbacksOf earlier ∧
      (host.secretRef.bind fun account => (readSecret faults keyring account).1) =
        secretOf faults keyring earlier := by
  cases earlier with
  | none =>
    -- A first import has no fallbacks, and no credential is stored for it.
    obtain ⟨bare, unstored⟩ := continues
    exact ⟨bare, by rw [unstored]; rfl⟩
  | some before => exact ⟨continues.authFallbacks, by rw [continues.secretRef]; rfl⟩

/-- A host that carries what a config offers for an alias is connected with it. -/
theorem dials_of_carries {parsed : ParsedConfig} {alias_ : String} {host : Host}
    {existing earlier : Option Host}
    (carries : Carries host (candidateOf parsed alias_ existing))
    (continues : Continues earlier host) (port : host.port ≠ 0) (faults : Faults)
    (keyring : Keyring) (window : Option UInt32) :
    Dials parsed alias_ (fallbacksOf earlier) (secretOf faults keyring earlier) window
      (forHost host (authForHost faults keyring host).methods window) := by
  -- What the resolver offers is what the config says of each field.
  have resolved : ∀ field, setting parsed alias_ field = (parsed.resolve alias_).get field :=
    fun field => (get_resolve parsed alias_ field).symm
  rw [forHost_layers, carries.overrides]
  refine ⟨?_, ?_, ?_, ?_, ?_, ?_, ?_, ?_⟩
  · rw [resolved]
    exact carries.hostname
  · rw [resolved]
    exact ⟨carries.port, port⟩
  · rw [resolved]
    exact carries.username
  · -- The chain is the config's, but for what the import goes on from.
    obtain ⟨fallbacks, secret⟩ := fallbacks_of_continues continues faults keyring
    rw [resolved, ← fallbacks, ← secret]
    exact methods_of_imported carries.auth carries.keyPath faults keyring
  · rw [resolved]
    rfl
  · rw [resolved]
    rfl
  · -- A config has no window size, so the default of the settings stands.
    rw [show (candidateOf parsed alias_ existing).overrides.windowSize = none from rfl,
      Option.or_none]
  · exact ⟨rfl, rfl, rfl⟩

/--
A host that was imported is connected with what the config says of its alias,
until a command is about the host: its key first, its own probes and time limits.

Of an earlier record of the host only the fallbacks and the stored secret are left,
and a host that is imported for the first time has neither.
-/
theorem imported_host_dials_config {platform : Platform} {path : String} {now : Int}
    {db : Database} {aliases : List String} {start : AppState} {outcome : ImportOutcome}
    (reachable : Store.Reachable db)
    (imported : importSshConfig platform path now db aliases = (start.db, .ok outcome))
    {alias_ : String} (asked : alias_ ∈ aliases)
    (named : alias_ ∈ (parseFile platform path).aliases) :
    ∃ earlier row, findBySourceAlias db alias_ = .ok earlier ∧
      (∀ before, earlier = some before → row.id = before.id) ∧
      lookup start.db row.id = some row ∧ row.source = "ssh_config" ∧
      row.sourceAlias = some alias_ ∧
      ∀ steps final, (∀ job, .start job ∈ steps → job.command.Spares row) →
        System.run concurrentStep ⟨start, [], []⟩ steps = some final →
        ∀ faults keyring window, ∃ cfg,
          savedHostConfig faults keyring final.state.db row.id window = .ok cfg ∧
            Dials (parseFile platform path) alias_ (fallbacksOf earlier)
              (secretOf faults keyring earlier) window cfg := by
  -- The import leaves a record that carries the candidate, under an id of its own or the earlier.
  obtain ⟨c, id, host, earlier, ⟨existing, -, same⟩, rfl, shown, own, carries, known, continues⟩ :=
    importSshConfig_upserts reachable.intact imported asked named
  have intact := intact_importSshConfig reachable.intact platform path now aliases
  rw [imported] at intact
  -- It is read from the row of that id.
  obtain ⟨row, bare, found, read, rfl⟩ := get_eq_some.mp shown
  obtain ⟨source, under⟩ := (importOf_iff read _).mp own
  have key := lookup_id found
  refine ⟨earlier, row, known, ?_, key ▸ found, source, under, ?_⟩
  · -- The import of a host that is there goes on under its id.
    rintro before rfl
    exact (rowToHost_id read).symm.trans continues.id
  intro steps final apart ran faults keyring window
  -- The interleaving leaves all of the row that a connect reads.
  obtain ⟨-, -, later, kept, aside⟩ := untouched_run intact.consistent (key ▸ found) apart ran
  refine ⟨_, ?_, dials_of_carries (same ▸ carries) continues ?_ faults keyring window⟩
  · rw [savedHostConfig_aside (key ▸ found) kept aside faults keyring window, savedHostConfig, key,
      shown]
  · -- The store has no host of port zero.
    exact (rowValid_rowOf_iff.mp (checkRow_eq_ok_iff.mp (intact.accepted shown).2).1).1

/-- An earlier import of the alias, with a password to fall back on and its own time limit. -/
def earlierImport : NewHost where
  folderId := none
  name := "web"
  hostname := "10.0.0.1"
  port := 22
  username := "root"
  auth := .agent
  authFallbacks := [.password]
  secretRef := some (passwordAccount 1)
  keyPath := none
  overrides := { HostOverrides.default with connectTimeoutSecs := some 3 }
  proxyJump := none
  source := .sshConfig
  sourceAlias := some "web"
  color := none
  notes := none

/-- The keyring in which the host's password is stored. -/
def savedPassword : Keyring := fun account =>
  if account = passwordAccount 1 then some "pw" else none

/-- The host is imported again, moved and connected to meanwhile, and stays what the config says. -/
theorem imported_host_dials_first :
    ∃ db start row final cfg,
      System.run storeStep Database.fresh [(1, .createHost earlierImport)] = some db ∧
      importSshConfig keyed "/c/config" 5 db ["web"] = (AppState.db start, .ok ⟨0, 1⟩) ∧
      System.run concurrentStep ⟨start, [], []⟩ beside = some final ∧
      savedHostConfig Faults.none savedPassword final.state.db (HostRow.id row) none = .ok cfg ∧
      cfg.auth = [.keyFile "/k" (some "pw"), .password "pw"] ∧
      cfg.port = 2222 ∧ cfg.connectTimeout = .fromSecs 10 ∧
      final.state.db.hosts.map HostRow.connectCount = [1] := by
  obtain ⟨db, made, start, imported, final, ran, counts, known⟩ : ∃ db,
      System.run storeStep Database.fresh [(1, .createHost earlierImport)] = some db ∧
      ∃ start, importSshConfig keyed "/c/config" 5 db ["web"] =
        (AppState.db start, .ok ⟨0, 1⟩) ∧
      ∃ final, System.run concurrentStep ⟨start, [], []⟩ beside = some final ∧
        final.state.db.hosts.map HostRow.connectCount = [1] ∧
        ((findBySourceAlias db "web").map fun earlier =>
          (fallbacksOf earlier, secretOf Faults.none savedPassword earlier)) =
            .ok ([.password], some "pw") :=
    ⟨_, rfl, ⟨_, fun _ => none, []⟩, rfl, _, rfl, rfl, by decide +kernel⟩
  have listed : "web" ∈ (parseFile keyed "/c/config").aliases := by decide +kernel
  -- The import and the interleaving are those of the theorem.
  obtain ⟨earlier, row, under, -, -, -, -, dials⟩ :=
    imported_host_dials_config ⟨_, made⟩ imported List.mem_cons_self listed
  obtain ⟨cfg, told, dialled⟩ :=
    dials beside final (beside_spares row) ran Faults.none savedPassword none
  -- The earlier record brings its fallback and its secret, and the config all the rest.
  rw [under] at known
  obtain ⟨fallbacks, secret⟩ := Prod.mk.inj (Except.ok.inj known)
  rw [fallbacks, secret] at dialled
  have said : setting (parseFile keyed "/c/config") "web" .identityFile = some "/k" ∧
      setting (parseFile keyed "/c/config") "web" .port = some 2222 ∧
      setting (parseFile keyed "/c/config") "web" .connectTimeout = none := by decide +kernel
  obtain ⟨identity, port, timeout⟩ := said
  refine ⟨db, start, row, final, cfg, made, imported, ran, told, ?_, ?_, ?_, counts⟩
  · rw [dialled.auth, identity]
    rfl
  · rw [dialled.port.1, port]
    rfl
  · rw [dialled.timeout, timeout]
    rfl

end Imports

end Tern.SessionCfg
