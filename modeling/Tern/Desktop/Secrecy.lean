import Mathlib.Data.List.InsertIdx
import Tern.Desktop.SessionCfg
import Tern.Ssh.Opaque
import Tern.Store.Search

/-! What the webview is told: secrets are passed on unread, in whatever order calls run. -/

namespace Tern.Desktop

open Store
open SessionCfg (SessionConfig forHost)
open Ssh (AnswersAlike Handshake Peer SshError renamedMethod)

section Replies

/-- A saved host as the webview is shown it, with neither its secret nor the secret's account. -/
structure ShownHost extends HostDto where
  hasSecret : Bool
  source : String
  lastConnectedAt : Option Int
  connectCount : Int

/-- Map a stored host onto what the webview is shown. -/
def hostDto (host : Host) : ShownHost where
  id := host.id
  folderId := host.folderId
  name := host.name
  hostname := host.hostname
  port := host.port
  username := host.username
  auth := host.auth
  authFallbacks := host.authFallbacks
  hasSecret := host.secretRef.isSome
  keyPath := host.keyPath
  overrides := host.overrides
  proxyJump := host.proxyJump
  source := host.source.asStr
  color := host.color
  notes := host.notes
  lastConnectedAt := host.lastConnectedAt
  connectCount := host.connectCount
  tags := host.tags

/-- Why a saved host was not opened. -/
inductive OpenError where
  | command (error : CommandError)
  /-- The message of the transport's error. -/
  | transport (text : String)
  deriving DecidableEq

/-- What the webview is told. -/
inductive Reply where
  | listed (hosts : Except StoreError (List ShownHost))
  | shown (host : Except StoreError (Option ShownHost))
  /-- A connect has to do without a saved credential, and says why. -/
  | warning (note : String)
  /-- What the opening of a saved host came to. -/
  | opened (result : Except OpenError Unit)
  | finished (result : Except CommandError Unit)

/-- What the webview does, and what the servers and key files make of it. -/
inductive Interaction (Key : Type) where
  /-- The search finds the rows in whatever order the database looks at them. -/
  | listHosts (order : List HostRow → List HostRow) (filter : HostFilter)
  | getHost (id : Int)
  /-- A saved host is opened: its record and its credential are read. -/
  | openSession (faults : Faults) (id : Int) (window : Option UInt32)
  /-- A connect comes to its end, and so does the request for a shell if there is one. -/
  | connected (index : Nat) (peer : Peer Key) (handshake : Handshake)
    (shell : SessionConfig → Except SshError Unit) (at_ : Int)
  | scheduled (step : Scheduled)

/-- The commands that run beside each other, the connects under way, and all that was told. -/
structure Desk where
  system : Concurrent
  dialling : List (Int × SessionConfig)
  told : List Reply

/-- The desk with more told. -/
def Desk.tell (desk : Desk) (replies : List Reply) : Desk :=
  { desk with told := desk.told ++ replies }

/-- The reply a step of a command brings, which is its result once it has one. -/
def replyTo (system : Concurrent) : Scheduled → Option Reply
  | .start _ => none
  | .call index =>
    system.running[index]?.bind fun worker =>
      match (call worker.job system.state worker.phase).2 with
      | .next _ => none
      | .done result => some (.finished result)

/-- Open a saved host, up to the connect. -/
def openSavedHost (desk : Desk) (faults : Faults) (id : Int) (window : Option UInt32) : Desk :=
  match get desk.system.state.db id with
  | .error reason => desk.tell [.opened (.error (.command (.store reason)))]
  | .ok none => desk.tell [.opened (.error (.command (.noSuchHost id)))]
  | .ok (some host) =>
    let resolved := authForHost faults desk.system.state.keyring host
    -- The note comes before the connect, which may well succeed without the credential.
    let desk := desk.tell (resolved.degraded.toList.map .warning)
    { desk with dialling := desk.dialling ++ [(id, forHost host resolved.methods window)] }

/-- A connect that was under way comes to its end. -/
def settleConnect {Key : Type} (desk : Desk) (id : Int) (cfg : SessionConfig) (peer : Peer Key)
    (handshake : Handshake) (shell : SessionConfig → Except SshError Unit) (at_ : Int) : Desk :=
  match (Ssh.connect peer cfg.toSessionConfig handshake).result with
  | .error error => desk.tell [.opened (.error (.transport error.display))]
  | .ok () =>
    match shell cfg with
    | .error error => desk.tell [.opened (.error (.transport error.display))]
    | .ok () =>
      -- Only a connect that succeeds counts, and nobody waits for it to be counted.
      let counting : Worker := ⟨⟨.recordConnection id at_, Faults.none, at_⟩, .counting id at_⟩
      let desk := desk.tell [.opened (.ok ())]
      { desk with system := { desk.system with running := desk.system.running ++ [counting] } }

/-- One interaction, with what the webview is told on it. -/
def deskStep {Key : Type} (desk : Desk) : Interaction Key → Option Desk
  | .listHosts order filter =>
    let db := desk.system.state.db
    let hosts := list db (order db.hosts) filter
    some (desk.tell [.listed (hosts.map fun found => found.map hostDto)])
  | .getHost id =>
    let host := get desk.system.state.db id
    some (desk.tell [.shown (host.map fun found => found.map hostDto)])
  | .openSession faults id window => some (openSavedHost desk faults id window)
  | .connected index peer handshake shell at_ =>
    desk.dialling[index]?.map fun (id, cfg) =>
      settleConnect { desk with dialling := desk.dialling.eraseIdx index } id cfg peer handshake
        shell at_
  | .scheduled step =>
    (concurrentStep desk.system step).map fun system =>
      { desk with system := system, told := desk.told ++ (replyTo desk.system step).toList }

end Replies

section Renaming

variable (rename : String → String)

/-- A secret's use with the secret under another text. -/
def SecretUpdateDto.renamed : SecretUpdateDto → SecretUpdateDto
  | .set secret => .set (rename secret)
  | update => update

/-- A command with its secret under another text. -/
def StoreCommand.renamed : StoreCommand → StoreCommand
  | .createHost dto secret => .createHost dto (secret.map rename)
  | .updateHost dto secret => .updateHost dto (secret.renamed rename)
  | command => command

/-- A command with its surroundings, and its secret under another text. -/
def Job.renamed (job : Job) : Job := { job with command := job.command.renamed rename }

/-- Where a command stands, with its secret under another text. -/
def Phase.renamed : Phase → Phase
  | .inserting dto secret => .inserting dto (secret.map rename)
  | .fetching dto secret => .fetching dto (secret.renamed rename)
  | .saving existing dto secret => .saving existing dto (secret.renamed rename)
  | .tagging id tags secret => .tagging id tags (secret.renamed rename)
  | .readingSecret id secret => .readingSecret id (secret.renamed rename)
  | phase => phase

/-- A command that runs, with its secret under another text. -/
def Worker.renamed (worker : Worker) : Worker :=
  ⟨worker.job.renamed rename, worker.phase.renamed rename⟩

/-- What a call leads to, with the command's secret under another text. -/
def Turn.renamed : Turn → Turn
  | .next phase => .next (phase.renamed rename)
  | .done result => .done result

/-- An event with its secret under another text. -/
def Event.renamed : Event → Event
  | .stored id role secret => .stored id role (rename secret)
  | .deleted id => .deleted id

/-- A credential store whose secrets are under other texts. -/
def renamedKeyring (keyring : Keyring) : Keyring := fun account => (keyring account).map rename

/-- The same records, with all secrets under other texts. -/
def AppState.renamed (state : AppState) : AppState where
  db := state.db
  keyring := renamedKeyring rename state.keyring
  history := state.history.map (Event.renamed rename)

/-- The same records and commands, with all secrets under other texts. -/
def Concurrent.renamed (system : Concurrent) : Concurrent where
  state := system.state.renamed rename
  running := system.running.map (Worker.renamed rename)
  succeeded := system.succeeded.map (Job.renamed rename)

/-- A config with its secrets under other texts. -/
def renamedConfig (cfg : SessionConfig) : SessionConfig :=
  { cfg with auth := cfg.auth.map (renamedMethod rename) }

/-- A desk with all secrets under other texts, at which the same was told. -/
def Desk.renamed (desk : Desk) : Desk where
  system := desk.system.renamed rename
  dialling := desk.dialling.map fun (id, cfg) => (id, renamedConfig rename cfg)
  told := desk.told

/--
What happens with the secrets under other texts, and how the other side takes it.

Commands carry the renamed secrets, and the credential store refuses the same calls. Servers and
key files answer each renamed secret as the first ones answer the secret itself.
-/
inductive Alike {Key : Type} : Interaction Key → Interaction Key → Prop
  | listHosts (order : List HostRow → List HostRow) (filter : HostFilter) :
      Alike (.listHosts order filter) (.listHosts order filter)
  | getHost (id : Int) : Alike (.getHost id) (.getHost id)
  | openSession (faults : Faults) (id : Int) (window : Option UInt32) :
      Alike (.openSession faults id window) (.openSession faults id window)
  | connected {peer other : Peer Key} {shell counterpart : SessionConfig → Except SshError Unit}
      (index : Nat) (handshake : Handshake) (at_ : Int) : AnswersAlike rename peer other →
        (∀ cfg, counterpart (renamedConfig rename cfg) = shell cfg) →
          Alike (.connected index peer handshake shell at_)
            (.connected index other handshake counterpart at_)
  | start (job : Job) : Alike (.scheduled (.start job)) (.scheduled (.start (job.renamed rename)))
  | call (index : Nat) : Alike (.scheduled (.call index)) (.scheduled (.call index))

end Renaming

section Calls

variable {rename : String → String} {state : AppState}

/-- A command starts alike, whatever its secret. -/
theorem StoreCommand.first_renamed (command : StoreCommand) :
    (command.renamed rename).first = command.first.renamed rename := by
  cases command <;> rfl

/-- A creation's field is a secret to set exactly when it is not blank. -/
theorem secretOf_renamed (blank : ∀ text, rename text = "" ↔ text = "") (secret : Option String) :
    secretOf (secret.map rename) = (secretOf secret).renamed rename := by
  -- Only a blank text is taken for none, and blank texts stay blank under the other names.
  cases secret with
  | none => rfl
  | some text =>
    by_cases empty : text = ""
    · have stays := (blank text).mpr empty
      simp [secretOf, SecretUpdateDto.renamed, empty, Option.filter]
      rw [← empty, stays]
      simp [empty]
    · have stays : rename text ≠ "" := mt (blank text).mp empty
      simp [secretOf, SecretUpdateDto.renamed, empty, stays, Option.filter]

/-- Past the tags, whether anything is left depends on the use of the secret alone. -/
theorem secretTurn_renamed (id : Int) (secret : SecretUpdateDto) :
    secretTurn id (secret.renamed rename) = (secretTurn id secret).renamed rename := by
  cases secret <;> rfl

/-- Past a candidate, no secret is left. -/
theorem importTurn_renamed (handled rest : List Candidate) :
    (importTurn handled rest).renamed rename = importTurn handled rest := by
  cases rest <;> rfl

/-- An account that changes does so under the other texts too. -/
theorem renamedKeyring_update (keyring : Keyring) (account : String) (secret : Option String) :
    renamedKeyring rename (Function.update keyring account secret) =
      Function.update (renamedKeyring rename keyring) account (secret.map rename) := by
  -- One account holds the new text, and all others hold what they held, under either name.
  funext other
  by_cases same : other = account
  · subst same
    simp [renamedKeyring]
  · simp [renamedKeyring, Function.update_of_ne same]

/-- An account is cleared alike, as far as the credential store allows. -/
theorem tryClear_renamed (faults : Faults) (keyring : Keyring) (account : String) :
    tryClear faults (renamedKeyring rename keyring) account =
      renamedKeyring rename (tryClear faults keyring account) := by
  unfold tryClear clearSecret
  cases faults (.delete account) with
  | some reason => rfl
  | none => exact (renamedKeyring_update keyring account none).symm

/-- The outcome of a call with all secrets under other texts. -/
def renamedOutcome (rename : String → String) (outcome : AppState × Turn) : AppState × Turn :=
  (outcome.1.renamed rename, outcome.2.renamed rename)

/-- A call that writes the records does so whatever the secrets are. -/
theorem proceed_renamed {turn other : Turn} (same : other = turn.renamed rename)
    (result : Except StoreError Database) :
    proceed (state.renamed rename) other result =
      renamedOutcome rename (proceed state turn result) := by
  rw [same]
  cases result <;> rfl

/-- The account a secret goes to, and whether it can, do not depend on its text. -/
theorem treatSecret_renamed (faults : Faults) (id : Int) (secret : SecretUpdateDto) :
    treatSecret faults (state.renamed rename) id (secret.renamed rename) =
      renamedOutcome rename (treatSecret faults state id secret) := by
  unfold treatSecret
  simp only [AppState.renamed]
  -- The record is the same in both runs, and so is the account it names.
  cases shown : get state.db id with
  | error reason => rfl
  | ok found =>
    cases found with
    | none => rfl
    | some host =>
      cases secret with
      | unchanged => rfl
      | set text =>
        simp only [SecretUpdateDto.renamed]
        cases accountFor host with
        | none => rfl
        | some account =>
          -- Whether the store refuses is said of the command, whose only secret this is.
          simp only [setSecret]
          cases faults (.set account) with
          | some reason => rfl
          | none =>
            simp only [renamedOutcome, AppState.renamed, renamedKeyring_update, List.map_append,
              List.map_map, Turn.renamed, Phase.renamed, Option.map_some]
            rfl
      | clear =>
        simp only [SecretUpdateDto.renamed]
        cases host.secretRef with
        | none => rfl
        | some account =>
          -- What is deleted has no text left to differ in.
          simp only [clearSecret]
          cases faults (.delete account) with
          | some reason => rfl
          | none =>
            simp only [renamedOutcome, AppState.renamed, renamedKeyring_update, Turn.renamed,
              Phase.renamed, Option.map_none]

/-- One call writes the same and leads to the same, whatever the texts of the secrets. -/
theorem call_renamed (blank : ∀ text, rename text = "" ↔ text = "") (job : Job) (state : AppState)
    (phase : Phase) :
    call (job.renamed rename) (state.renamed rename) (phase.renamed rename) =
      renamedOutcome rename (call job state phase) := by
  cases phase with
  | inserting dto secret =>
    simp only [Phase.renamed, call, Job.renamed, AppState.renamed]
    -- The row is the draft's, which carries no secret.
    cases create job.now state.db (draftOfDto dto) with
    | error reason => rfl
    | ok result =>
      obtain ⟨id, db⟩ := result
      simp only [renamedOutcome, AppState.renamed, secretOf_renamed blank]
      by_cases untagged : dto.tags.isEmpty = true
      · simp only [untagged, if_true, secretTurn_renamed]
      · simp only [untagged, Turn.renamed, Phase.renamed]
        rfl
  | fetching dto secret =>
    simp only [Phase.renamed, call, AppState.renamed]
    -- Reading a record does not look at any secret.
    cases get state.db dto.id with
    | error reason => rfl
    | ok found => cases found <;> rfl
  | saving existing dto secret =>
    apply proceed_renamed
    rfl
  | tagging id tags secret =>
    apply proceed_renamed
    exact secretTurn_renamed id secret
  | readingSecret id secret => exact treatSecret_renamed job.faults id secret
  | writingSecret record =>
    apply proceed_renamed
    rfl
  | deleting id =>
    -- Deleting clears accounts by their names.
    simp only [Phase.renamed, call, deleteHost, AppState.renamed, Job.renamed, tryClear_renamed]
    cases delete state.db id with
    | error reason => rfl
    | ok db =>
      simp only [renamedOutcome, AppState.renamed, List.map_append, Turn.renamed]
      rfl
  | moving id folderId =>
    apply proceed_renamed
    rfl
  | settingTags id tagIds =>
    apply proceed_renamed
    rfl
  | counting id at_ => rfl
  | finding handled rest =>
    cases rest with
    | nil => rfl
    | cons c rest =>
      simp only [Phase.renamed, call, AppState.renamed]
      -- A candidate brings no secret along, and its look-up reads none.
      cases findBySourceAlias state.db c.alias_ with
      | error reason => rfl
      | ok found => cases found <;> rfl
  | refreshing existing handled c rest =>
    apply proceed_renamed
    exact (importTurn_renamed _ rest).symm
  | importing handled c rest =>
    apply proceed_renamed
    exact (importTurn_renamed _ rest).symm

end Calls

section Connects

variable {rename : String → String}

/-- A method is built alike from a secret under another text. -/
theorem buildMethod_renamed (blank : ∀ text, rename text = "" ↔ text = "") (host : Host)
    (stored : Option String) (kind : AuthKind) :
    buildMethod host (stored.map rename) kind =
      renamedMethod rename (buildMethod host stored kind) := by
  cases kind with
  | agent => rfl
  | keyFile => rfl
  | password =>
    -- A password that is missing is sent as a blank one.
    cases stored with
    | none => simp [buildMethod, renamedMethod, (blank "").mpr rfl]
    | some secret => rfl

/-- A credential is read alike, and what is said about the credential store is the same. -/
theorem readSecret_renamed (faults : Faults) (keyring : Keyring) (account : String) :
    readSecret faults (renamedKeyring rename keyring) account =
      ((readSecret faults keyring account).1.map rename,
        (readSecret faults keyring account).2) := by
  -- Whether the store fails is settled by the account, before any text is seen.
  unfold readSecret getPassword
  cases faults (.get account) with
  | some reason => rfl
  | none =>
    simp only [renamedKeyring]
    cases keyring account <;> rfl

/-- A host's methods are resolved alike, with the same note. -/
theorem authForHost_renamed (blank : ∀ text, rename text = "" ↔ text = "") (faults : Faults)
    (keyring : Keyring) (host : Host) :
    authForHost faults (renamedKeyring rename keyring) host =
      ⟨(authForHost faults keyring host).methods.map (renamedMethod rename),
        (authForHost faults keyring host).degraded⟩ := by
  have build : ∀ stored, buildMethod host (stored.map rename) =
      fun kind => renamedMethod rename (buildMethod host stored kind) :=
    fun stored => funext (buildMethod_renamed blank host stored)
  -- The chain is built method by method, each from the same stored text.
  unfold authForHost
  cases host.secretRef with
  | none =>
    have bare := buildMethod_renamed blank host none
    rw [Option.map_none] at bare
    simp only [List.map_cons, List.map_map, Function.comp_def, ← bare]
  | some account =>
    simp only [readSecret_renamed, build, List.map_cons, List.map_map]
    rfl

/-- A host is opened alike, up to the connect. -/
theorem openSavedHost_renamed (blank : ∀ text, rename text = "" ↔ text = "") (desk : Desk)
    (faults : Faults) (id : Int) (window : Option UInt32) :
    openSavedHost (desk.renamed rename) faults id window =
      (openSavedHost desk faults id window).renamed rename := by
  -- The record is read before any secret is, and decides the same in both.
  unfold openSavedHost
  simp only [Desk.renamed, Concurrent.renamed, AppState.renamed]
  cases get desk.system.state.db id with
  | error reason => rfl
  | ok found =>
    cases found with
    | none => rfl
    | some host =>
      simp only [authForHost_renamed blank, Desk.tell, List.map_append, List.map_cons, List.map_nil,
        SessionCfg.forHost_layers]
      rfl

/-- A connect comes to the same end, and tells the same. -/
theorem settleConnect_renamed {Key : Type} {peer other : Peer Key}
    {shell counterpart : SessionConfig → Except SshError Unit}
    (alike : AnswersAlike rename peer other)
    (shells : ∀ cfg, counterpart (renamedConfig rename cfg) = shell cfg) (desk : Desk) (id : Int)
    (cfg : SessionConfig) (handshake : Handshake) (at_ : Int) :
    settleConnect (desk.renamed rename) id (renamedConfig rename cfg)
      other handshake counterpart at_ =
      (settleConnect desk id cfg peer handshake shell at_).renamed rename := by
  -- Both servers give the same answers, so the connects come to the same end.
  have same := Ssh.connect_renamed alike cfg.toSessionConfig handshake
  unfold settleConnect
  rw [show (renamedConfig rename cfg).toSessionConfig = cfg.toSessionConfig.renamed rename from rfl,
    same]
  cases (Ssh.connect peer cfg.toSessionConfig handshake).result with
  | error error => rfl
  | ok _ =>
    simp only [shells]
    cases shell cfg with
    | error error => rfl
    | ok _ =>
      simp only [Desk.renamed, Desk.tell, Concurrent.renamed, List.map_append, List.map_cons,
        List.map_nil]
      rfl

end Connects

section Runs

variable {rename : String → String} {Key : Type}

/-- A command answers the same with its secret under another text. -/
theorem replyTo_renamed (blank : ∀ text, rename text = "" ↔ text = "") (system : Concurrent)
    (index : Nat) :
    replyTo (system.renamed rename) (.call index) = replyTo system (.call index) := by
  -- A reply names the outcome of a call, and the outcomes are the same.
  simp only [replyTo, Concurrent.renamed, List.getElem?_map]
  cases system.running[index]? with
  | none => rfl
  | some worker =>
    simp only [Option.map_some, Option.bind_some, Worker.renamed, call_renamed blank,
      renamedOutcome]
    cases (call worker.job system.state worker.phase).2 <;> rfl

/-- A command that has the store for a call uses it alike. -/
theorem call_step_renamed (blank : ∀ text, rename text = "" ↔ text = "") (system : Concurrent)
    (index : Nat) :
    concurrentStep (system.renamed rename) (.call index) =
      (concurrentStep system (.call index)).map (Concurrent.renamed rename) := by
  simp only [concurrentStep, Concurrent.renamed, List.getElem?_map]
  cases system.running[index]? with
  | none => rfl
  | some worker =>
    simp only [Option.map_some, Worker.renamed, call_renamed blank, renamedOutcome]
    -- A command that goes on keeps its place, and one that ends leaves the list.
    obtain ⟨state, turn⟩ := call worker.job system.state worker.phase
    cases turn with
    | next phase => simp [Turn.renamed, Concurrent.renamed, List.map_set, Worker.renamed]
    | done result =>
      cases result with
      | ok _ => simp [Turn.renamed, Concurrent.renamed, List.eraseIdx_map]
      | error reason => simp [Turn.renamed, Concurrent.renamed, List.eraseIdx_map]

/-- One interaction tells the same with the secrets under other texts. -/
theorem deskStep_renamed (blank : ∀ text, rename text = "" ↔ text = "") {desk : Desk}
    {interaction other : Interaction Key} (alike : Alike rename interaction other) :
    deskStep (desk.renamed rename) other =
      (deskStep desk interaction).map (Desk.renamed rename) := by
  -- Each interaction is followed in both desks, which differ in nothing but the texts.
  cases alike with
  | listHosts order filter => rfl
  | getHost id => rfl
  | openSession faults id window =>
    exact congrArg some (openSavedHost_renamed blank desk faults id window)
  | connected index handshake at_ peers shells =>
    simp only [deskStep, Desk.renamed, List.getElem?_map]
    cases desk.dialling[index]? with
    | none => rfl
    | some dialled =>
      obtain ⟨id, cfg⟩ := dialled
      have settled := settleConnect_renamed peers shells
        { desk with dialling := desk.dialling.eraseIdx index } id cfg handshake at_
      simp only [Option.map_some, Desk.renamed, List.eraseIdx_map] at settled ⊢
      rw [settled]
  | start job =>
    have first : (job.command.renamed rename).first = job.command.first.renamed rename :=
      StoreCommand.first_renamed job.command
    simp only [deskStep, concurrentStep, replyTo, Desk.renamed, Concurrent.renamed, Option.map_some,
      List.map_append, List.map_cons, List.map_nil, Worker.renamed, Job.renamed, first]
  | call index =>
    simp only [deskStep]
    rw [show (desk.renamed rename).system = desk.system.renamed rename from rfl,
      call_step_renamed blank, replyTo_renamed blank]
    cases concurrentStep desk.system (.call index) <;> rfl

/-- A desk on a fresh installation. -/
def freshDesk : Desk := ⟨⟨AppState.fresh, [], []⟩, [], []⟩

/-- A server that takes one password, and no other method. -/
def acceptsOnly (password : String) : Peer Unit where
  platform := .other
  loadSecretKey _ _ := .error "no such file"
  password
    | .password _ sent :: _ =>
      .ok (if sent = password then .success else .failure [.password] false)
    | _ => .ok (.failure [.password] false)
  rsaHash _ := .ok none
  publickey _ := .ok (.failure [.password] false)
  connectEnv _ := .error "no agent"
  connectNamedPipe _ := .error "no agent"
  connectPageant _ := .error "no agent"
  identities _ := .ok []
  publickeyWith _ := .error "no agent"

/--
Saving a host with a password, and connecting to it twice.

The server takes the password the first time, and another one the second time.
-/
def savingWith (password afterwards : String) : List (Interaction Unit) :=
  [.scheduled (.start ⟨.createHost passwordHost (some password), Faults.none, 0⟩),
    .scheduled (.call 0), .scheduled (.call 0), .scheduled (.call 0),
    .openSession Faults.none 1 none, .connected 0 (acceptsOnly password) .up (fun _ => .ok ()) 5,
    .openSession Faults.none 1 none, .connected 0 (acceptsOnly afterwards) .up (fun _ => .ok ()) 6,
    .listHosts id ⟨none, none, [], none⟩]

/-- Two passwords change places. -/
def swapped (text : String) : String :=
  if text = "hunter2" then "correct horse" else if text = "correct horse" then "hunter2" else text

/-- Two texts stay apart when passwords change places. -/
theorem swapped_inj {text other : String} : swapped text = swapped other ↔ text = other := by
  -- Swapping twice brings every text back.
  have back : ∀ text, swapped (swapped text) = text := by
    intro text
    unfold swapped
    split_ifs <;> simp_all
  constructor
  · intro same
    rw [← back text, same, back]
  · rintro rfl
    rfl

/-- A server that takes the password in the other's place answers the other passwords alike. -/
theorem acceptsOnly_alike (password : String) :
    AnswersAlike swapped (acceptsOnly password) (acceptsOnly (swapped password)) := by
  -- The server compares one text only, and the other names keep that comparison.
  refine ⟨rfl, fun _ _ => rfl, ?_, fun _ => rfl, fun _ => rfl, fun _ => rfl, fun _ => rfl,
    fun _ => rfl, fun _ => rfl, fun _ => rfl⟩
  intro history
  cases history with
  | nil => rfl
  | cons call rest =>
    cases call with
    | password user sent => simp [acceptsOnly, Ssh.Call.renamed, swapped_inj]
    | _ => rfl

end Runs

end Tern.Desktop
