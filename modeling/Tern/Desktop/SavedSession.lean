import Tern.Desktop.SessionCfg
import Tern.Session.AttemptCap

/-! The session of a saved host beside the store that its host lives in. -/

namespace Tern.SavedSession

open Store SessionCfg
open Desktop hiding Action step
open Session (Moves Setup Size State Takes takes_step)
open Ssh (ReconnectError SshError)
open TermStream (CoalescerConfig)

/-- The policy of a host: its own override, else the setting, else the default. -/
def reconnectPolicyFor (enabledSetting : Option Bool) (maxSetting : Option UInt32) (host : Host) :
    ReconnectPolicy where
  enabled := host.overrides.reconnectEnabled.getD (enabledSetting.getD true)
  maxAttempts := host.overrides.reconnectMaxAttempts.getD
    (maxSetting.getD ReconnectPolicy.default.maxAttempts)
  backoff := .default

/-- The setup of a session with a saved host. -/
def savedSetup (size : Size) (cfg : CoalescerConfig) (policy : ReconnectPolicy) : Setup where
  size
  cfg
  policy
  -- Nothing reconnects a session whose policy never asks for it.
  reconnector := policy.enabled

/-- How far an attempt to reach the host again has come. -/
inductive Establishing where
  | idle
  /-- The record of the host is read. -/
  | fetched (host : Host)
  /-- The credential is read too, and the transport is opened. -/
  | connecting (cfg : SessionConfig)

/-- A session and the commands that run beside it. -/
structure Live where
  session : State
  system : Concurrent
  establishing : Establishing
  /-- The records that attempts have read so far. -/
  fetched : List Host
  /-- The configs that attempts have come to since the session was opened. -/
  dialled : List SessionConfig

/-- What can happen. -/
inductive LiveAction where
  /-- Any step of the session, but for what an attempt comes to. -/
  | session (action : Session.Action)
  /-- The attempt reads the record of its host. -/
  | fetch (rand01 : Jitter)
  /-- It reads the credential. -/
  | resolve (faults : Faults)
  /-- The transport is up and has a shell. -/
  | connect
  | refuse (error : SshError) (rand01 : Jitter)
  | store (step : Scheduled)

/-- Whether a step of a session is what an attempt comes to. -/
def settlesAttempt : Session.Action → Bool
  | .supervise .succeed => true
  | .supervise (.fail _ _) => true
  | _ => false

/-- What an attempt reports when its host is gone. -/
def removedText (hostId : Int) : String := "host " ++ toString hostId ++ " was removed"

section Steps

variable (display : StoreError → String) (setup : Setup) (hostId : Int) (window : Option UInt32)

/-- The attempt in flight fails. -/
def Live.fail (live : Live) (error : ReconnectError) (rand01 : Jitter) : Option Live :=
  (Session.step setup live.session (.supervise (.fail error rand01))).map fun session =>
    { live with session, establishing := .idle }

/-- One step of a session and of the commands beside it. -/
def liveStep (live : Live) : LiveAction → Option Live
  | .session action =>
    if settlesAttempt action then none
    else (Session.step setup live.session action).map fun session => { live with session }
  | .fetch rand01 =>
    match live.session.phase, live.establishing with
    | .attempting _ _, .idle =>
      match get live.system.state.db hostId with
      | .error reason => live.fail setup ⟨false, display reason⟩ rand01
      -- There is nothing to reconnect to.
      | .ok none => live.fail setup ⟨false, removedText hostId⟩ rand01
      | .ok (some host) =>
        some { live with establishing := .fetched host, fetched := live.fetched ++ [host] }
    | _, _ => none
  | .resolve faults =>
    match live.establishing with
    | .fetched host =>
      let resolved := authForHost faults live.system.state.keyring host
      let cfg := forHost host resolved.methods window
      some { live with establishing := .connecting cfg, dialled := live.dialled ++ [cfg] }
    | _ => none
  | .connect =>
    match live.establishing with
    | .connecting _ =>
      (Session.step setup live.session (.supervise .succeed)).map fun session =>
        { live with session, establishing := .idle }
    | _ => none
  | .refuse error rand01 =>
    match live.establishing with
    | .connecting _ => live.fail setup (.ofSshError error) rand01
    | _ => none
  | .store step => (concurrentStep live.system step).map fun system => { live with system }

end Steps

/-- A session that was just opened, beside a store that no command runs on. -/
def Live.opened (setup : Setup) (state : AppState) : Live :=
  ⟨State.init setup, ⟨state, [], []⟩, .idle, [], []⟩

section Hosts

variable {now hostId created : Int} {db after : Database} {row : HostRow}
  {phase : Desktop.Phase} {system next : Concurrent}

/-- A call that does not delete a host leaves it, with the time it was created at. -/
theorem written_created (written : Written now db phase after)
    (undeleted : phase ≠ .deleting hostId) (found : lookup db hostId = some row) :
    ∃ later, lookup after hostId = some later ∧ later.createdAt = row.createdAt := by
  have rewritten : ∀ {host : Host}, update now db host = .ok after →
      ∃ later, lookup after hostId = some later ∧ later.createdAt = row.createdAt := by
    intro host updated
    have later := lookup_update updated hostId
    rw [found] at later
    -- Writing a record over the row keeps the time, which no statement sets.
    by_cases own : hostId = host.id
    · rw [if_pos own] at later
      exact ⟨_, later, rfl⟩
    · rw [if_neg own] at later
      exact ⟨row, later, rfl⟩
  cases written with
  | nothing => exact ⟨row, found, rfl⟩
  | @created _ draft id _ created =>
    have named := lookup_id found
    -- The id of a new row is one that no row has.
    have apart : ¬hostId = id := by
      intro same
      refine nextId_apart (named.symm ▸ found) ?_
      rw [named, same]
      exact (create_eq created).1.symm
    exact ⟨row, by rw [lookup_create created, if_neg apart, found], rfl⟩
  | saved updated => exact rewritten updated
  | recorded updated => exact rewritten updated
  | refreshed updated => exact rewritten updated
  | tagged done => exact ⟨row, by rw [lookup_setTags done, found], rfl⟩
  | @deleted id _ deleted =>
    -- Only the deletion of the host itself would take its row.
    have apart : ¬hostId = id := by
      rintro rfl
      exact undeleted rfl
    exact ⟨row, by rw [lookup_delete deleted, if_neg apart, found], rfl⟩
  | @moved id folderId _ moved =>
    -- Moving writes the folder, and counting writes the count.
    have later := lookup_moveToFolder moved hostId
    rw [found] at later
    refine ⟨_, later, ?_⟩
    dsimp only
    split <;> rfl
  | @counted id at_ =>
    have later := lookup_recordConnection db id at_ hostId
    rw [found] at later
    refine ⟨_, later, ?_⟩
    dsimp only
    split <;> rfl

/-- A host is there that was created at a time, and no command is about to delete it. -/
structure Alive (hostId created : Int) (system : Concurrent) : Prop where
  there : ∃ row, lookup system.state.db hostId = some row ∧ row.createdAt = created
  undeleted : ∀ worker ∈ system.running, worker.phase ≠ .deleting hostId

/-- A step that starts no deletion of a host leaves it there. -/
theorem alive_step {action : Scheduled} (alive : Alive hostId created system)
    (taken : concurrentStep system action = some next)
    (spared : ∀ job, action = .start job → job.command ≠ .deleteHost hostId) :
    Alive hostId created next := by
  obtain ⟨⟨row, found, same⟩, undeleted⟩ := alive
  cases action with
  | start job =>
    cases taken
    refine ⟨⟨row, found, same⟩, ?_⟩
    intro worker member
    rcases List.mem_append.mp member with old | new
    · exact undeleted worker old
    · rw [List.mem_singleton.mp new]
      -- The command that starts is none that deletes the host.
      have other := spared job rfl
      intro deleting
      cases named : job.command <;> simp_all [StoreCommand.first]
  | call index =>
    obtain ⟨before, after, job, phase, split, chosen, -, rfl⟩ := concurrentStep_call taken
    rw [split] at undeleted
    have own := undeleted ⟨job, phase⟩ (by simp)
    -- The row is found after the call, too, under the same time.
    obtain ⟨later, kept, still⟩ := written_created (written_call job system.state phase) own found
    refine ⟨⟨later, ?_, still.trans same⟩, ?_⟩
    · rw [state_landed]
      exact kept
    · intro worker member
      rcases mem_landed member with beside | ⟨following, called, rfl⟩
      · refine undeleted worker ?_
        simp only [List.mem_append] at beside ⊢
        tauto
      · -- No call leads to a deletion, which is a command of one call.
        cases leads_of_call called <;> simp

end Hosts

section Sessions

variable {setup : Setup} {state next : State}

/-- A step that settles no attempt opens no transport. -/
theorem shells_step {action : Session.Action} (unsettled : settlesAttempt action = false)
    (taken : Session.step setup state action = some next) :
    next.shells.length = state.shells.length := by
  -- Every other step changes a generation in place or none at all.
  cases takes_step taken with
  | shell reads stepped => exact List.length_set
  | supervise moves =>
    cases moves with
    | received pumping reads queued => exact List.length_set
    | succeeded attempting => cases unsettled
    | @acted reason decision deciding => cases decision <;> rfl
    | _ => rfl
  | paused runs => exact List.length_modify ..
  | changed flies => exact List.length_modify ..
  | _ => rfl

/-- A supervisor that gives up reports why, and stops. -/
theorem moves_of_givingUp {reason : String} {input : Session.Input}
    (deciding : state.phase = .deciding reason .giveUp) (moves : Moves setup state input next) :
    next = { state.send (.disconnected reason) with phase := .stopped } := by
  -- The decision is made, and the supervisor has no other move in that phase.
  cases moves with
  | acted decided =>
    rw [deciding] at decided
    cases decided
    rfl
  | stopped waits => simp [deciding] at waits
  | _ => simp_all

/-- A supervisor that has stopped does nothing any more. -/
theorem not_moves_of_stopped {input : Session.Input} (stopped : state.phase = .stopped) :
    ¬Moves setup state input next := by
  intro moves
  cases moves with
  | stopped waits => simp [stopped] at waits
  | _ => simp_all

/-- A session gives up for a reason, or has done so and reported it. -/
def GivenUp (reason : String) (state : State) : Prop :=
  state.phase = .deciding reason .giveUp ∨
    state.phase = .stopped ∧ .disconnected reason ∈ state.events

/-- A session that gives up attempts nothing any more, whatever else happens to it. -/
theorem givenUp_step {reason : String} {action : Session.Action} (ended : GivenUp reason state)
    (taken : Session.step setup state action = some next) :
    GivenUp reason next ∧ next.attempts = state.attempts := by
  cases takes_step taken with
  | supervise moves =>
    rcases ended with deciding | ⟨stopped, -⟩
    · rw [moves_of_givingUp deciding moves]
      exact ⟨.inr ⟨rfl, by simp [State.send]⟩, rfl⟩
    · exact absurd moves (not_moves_of_stopped stopped)
  | announce spawned =>
    -- An event that is sent beside the supervisor takes none of its events back.
    exact ⟨ended.imp_right fun told => ⟨told.1, List.mem_append_left _ told.2⟩, rfl⟩
  | _ => exact ⟨ended, rfl⟩

/-- An attempt that fails for good is the last one. -/
theorem givenUp_of_fail {error : ReconnectError} {rand01 : Jitter} (fatal : error.retryable = false)
    (taken : Session.step setup state (.supervise (.fail error rand01)) = some next) :
    GivenUp error.message next ∧ next.attempts = state.attempts ∧ next.shells = state.shells := by
  -- A failure that cannot be retried is decided to be the end.
  cases takes_step taken with
  | supervise moves =>
    cases moves with
    | failed attempting =>
      refine ⟨.inl ?_, rfl, rfl⟩
      simp [ReconnectPolicy.afterFailedAttempt, fatal]

end Sessions

section Runs

variable {display : StoreError → String} {setup : Setup} {hostId : Int} {window : Option UInt32}
  {live next final : Live} {start : AppState} {actions : List LiveAction}

/-- A session has given up after some attempts, and none is in flight. -/
structure Finished (reason : String) (before live : Live) : Prop where
  ended : GivenUp reason live.session
  attempts : live.session.attempts = before.session.attempts
  shells : live.session.shells.length = before.session.shells.length
  idle : live.establishing = .idle
  fetched : live.fetched = before.fetched
  dialled : live.dialled = before.dialled

/-- A session that has given up stays so. -/
theorem finished_step {reason : String} {before : Live} {action : LiveAction}
    (finished : Finished reason before live)
    (taken : liveStep display setup hostId window live action = some next) :
    Finished reason before next := by
  -- The supervisor has no attempt in flight, so no look-up, config or transport can follow.
  obtain ⟨ended, attempts, shells, idle, fetched, dialled⟩ := finished
  cases action with
  | session action =>
    obtain ⟨unsettled, taken⟩ := Option.ite_none_left_eq_some.mp taken
    obtain ⟨session, stepped, rfl⟩ := Option.map_eq_some_iff.mp taken
    obtain ⟨still, same⟩ := givenUp_step ended stepped
    have kept := shells_step (by simpa using unsettled) stepped
    exact ⟨still, same.trans attempts, kept.trans shells, idle, fetched, dialled⟩
  | fetch rand01 =>
    simp only [liveStep] at taken
    split at taken
    · rename_i attempting _
      rcases ended with deciding | ⟨stopped, -⟩
      · simp [deciding] at attempting
      · simp [stopped] at attempting
    · cases taken
  | resolve faults => simp [liveStep, idle] at taken
  | connect => simp [liveStep, idle] at taken
  | refuse error rand01 => simp [liveStep, idle] at taken
  | store step =>
    obtain ⟨system, -, rfl⟩ := Option.map_eq_some_iff.mp taken
    exact ⟨ended, attempts, shells, idle, fetched, dialled⟩

/--
An attempt that finds its host gone is the last one of its session: whatever happens afterwards,
even if another host takes the id, the session attempts nothing more and opens no transport,
and the supervisor stops with the removal as its reason.
-/
theorem removed_host_ends_session {rand01 : Jitter}
    (gone : lookup live.system.state.db hostId = none)
    (fetched : liveStep display setup hostId window live (.fetch rand01) = some next)
    (ran : System.run (liveStep display setup hostId window) next actions = some final) :
    Finished (removedText hostId) live final := by
  -- The look-up finds no record, and the attempt fails for good.
  have missing : get live.system.state.db hostId = .ok none := by
    unfold Store.get
    rw [gone]
  have first : Finished (removedText hostId) live next := by
    simp only [liveStep, missing] at fetched
    split at fetched
    · rename_i idle
      obtain ⟨session, stepped, rfl⟩ := Option.map_eq_some_iff.mp fetched
      obtain ⟨ended, attempts, shells⟩ := givenUp_of_fail rfl stepped
      exact ⟨ended, attempts, congrArg List.length shells, rfl, rfl, rfl⟩
    · cases fetched
  exact System.run_preserves finished_step first ran

/-- A session whose transport is lost, up to its first attempt. -/
def dropped : List LiveAction :=
  [.announce, .register, .shell 0 .lose, .shell 0 .check, .shell 0 .take, .supervise .next,
    .supervise .next, .supervise .next, .supervise (.draw none), .supervise .next,
    .supervise .next, .supervise .next, .supervise .next, .supervise .next].map .session

/-- The store of a host that logs in with a key. -/
def keyHostState : AppState := ⟨keyHostStore, keyHostKeyring, []⟩

/-- The host is deleted while the supervisor waits, and another one is created under its id. -/
theorem removed_host_ends_session_though_replaced :
    ∃ live next final,
      System.run (liveStep (fun _ => "") Session.savedHost keyHost.id none)
          (.opened Session.savedHost keyHostState)
          (dropped ++ [.store (.start ⟨.deleteHost keyHost.id, Faults.none, 3⟩),
            .store (.call 0)]) = some live ∧
        liveStep (fun _ => "") Session.savedHost keyHost.id none live (.fetch none) = some next ∧
        System.run (liveStep (fun _ => "") Session.savedHost keyHost.id none) next
          [.store (.start (creation "other")), .store (.call 0), .session (.supervise .next)] =
            some final ∧
        final.system.state.db.hosts.map HostRow.id = [keyHost.id] ∧
        final.session.phase = .stopped ∧ Finished (removedText keyHost.id) live final := by
  -- The id is taken again after the look-up, which comes too late for the session.
  obtain ⟨live, reached, gone, next, fetched, final, ran, replaced, stopped⟩ : ∃ live,
      System.run (liveStep (fun _ => "") Session.savedHost keyHost.id none)
          (.opened Session.savedHost keyHostState)
          (dropped ++ [.store (.start ⟨.deleteHost keyHost.id, Faults.none, 3⟩),
            .store (.call 0)]) = some live ∧
        lookup live.system.state.db keyHost.id = none ∧ ∃ next,
        liveStep (fun _ => "") Session.savedHost keyHost.id none live (.fetch none) = some next ∧
        ∃ final, System.run (liveStep (fun _ => "") Session.savedHost keyHost.id none) next
          [.store (.start (creation "other")), .store (.call 0), .session (.supervise .next)] =
            some final ∧
        final.system.state.db.hosts.map HostRow.id = [keyHost.id] ∧
        final.session.phase = .stopped := ⟨_, rfl, rfl, _, rfl, _, rfl, rfl, rfl⟩
  exact ⟨live, next, final, reached, fetched, ran, replaced, stopped,
    removed_host_ends_session gone fetched ran⟩

/-- Whether an action opens a transport. -/
def LiveAction.isConnect : LiveAction → Bool
  | .connect => true
  | _ => false

/-- Whether an action is none of those that an attempt consists of. -/
def LiveAction.isBeside : LiveAction → Bool
  | .session _ => true
  | .store _ => true
  | _ => false

section Attempts

variable (display : StoreError → String) (setup : Setup) (window : Option UInt32)
  (start : AppState) (hostId created : Int)

/-- The attempt in flight has read a record, and it was the one that the store then had. -/
def ReadAnew (before : List LiveAction) (host : Host) : Prop :=
  ∃ first rand01 since reading, before = first ++ .fetch rand01 :: since ∧
    (∀ action ∈ since, action.isBeside) ∧
    System.run (liveStep display setup hostId window) (.opened setup start) first =
      some reading ∧
    get reading.system.state.db hostId = .ok (some host) ∧
    host.id = hostId ∧ host.createdAt = created

/-- The attempt in flight has come to a config: from its record, and the keyring as it then was. -/
def DialledAnew (before : List LiveAction) (cfg : SessionConfig) : Prop :=
  ∃ first faults since resolving host, before = first ++ .resolve faults :: since ∧
    (∀ action ∈ since, action.isBeside) ∧
    ReadAnew display setup window start hostId created first host ∧
    System.run (liveStep display setup hostId window) (.opened setup start) first =
      some resolving ∧
    cfg = forHost host (authForHost faults resolving.system.state.keyring host).methods window

/-- A session has reached no host but its own, and read it anew for every transport. -/
structure Own (before : List LiveAction) (live : Live) : Prop where
  alive : Alive hostId created live.system
  fetched : ∀ host ∈ live.fetched, host.id = hostId ∧ host.createdAt = created
  reading : ∀ host, live.establishing = .fetched host →
    ReadAnew display setup window start hostId created before host
  dialling : ∀ cfg, live.establishing = .connecting cfg →
    DialledAnew display setup window start hostId created before cfg
  /-- Every transport that was opened was opened with the config of its own attempt. -/
  connected : ∀ earlier later, before = earlier ++ .connect :: later → ∃ opening cfg,
    System.run (liveStep display setup hostId window) (.opened setup start) earlier =
      some opening ∧ opening.establishing = .connecting cfg ∧
      DialledAnew display setup window start hostId created earlier cfg
  /-- There is no transport beside these and the first. -/
  shells : live.session.shells.length = 1 + before.countP LiveAction.isConnect

end Attempts

section Steps

variable {created : Int} {before : List LiveAction} {action : LiveAction}

/-- What an attempt has read stays what it has read, whatever happens beside it. -/
theorem ReadAnew.beside {host : Host}
    (anew : ReadAnew display setup window start hostId created before host)
    (apart : action.isBeside) :
    ReadAnew display setup window start hostId created (before ++ [action]) host := by
  -- The reading stays the last one, with one more action behind it that reads nothing.
  obtain ⟨first, rand01, since, reading, rfl, quiet, rest⟩ := anew
  refine ⟨first, rand01, since ++ [action], reading, by simp, ?_, rest⟩
  intro other member
  rcases List.mem_append.mp member with earlier | last
  · exact quiet other earlier
  · rw [List.mem_singleton.mp last]
    exact apart

/-- What an attempt has come to stays what it has come to, whatever happens beside it. -/
theorem DialledAnew.beside {cfg : SessionConfig}
    (anew : DialledAnew display setup window start hostId created before cfg)
    (apart : action.isBeside) :
    DialledAnew display setup window start hostId created (before ++ [action]) cfg := by
  -- The config stays the last one, with one more action behind it that makes none.
  obtain ⟨first, faults, since, resolving, host, rfl, quiet, rest⟩ := anew
  refine ⟨first, faults, since ++ [action], resolving, host, by simp, ?_, rest⟩
  intro other member
  rcases List.mem_append.mp member with earlier | last
  · exact quiet other earlier
  · rw [List.mem_singleton.mp last]
    exact apart

/-- An action that opens no transport leaves the ones that were opened. -/
theorem Own.still_connected (own : Own display setup window start hostId created before live)
    (apart : action.isConnect = false) (earlier later : List LiveAction)
    (split : before ++ [action] = earlier ++ .connect :: later) : ∃ opening cfg,
      System.run (liveStep display setup hostId window) (.opened setup start) earlier =
        some opening ∧ opening.establishing = .connecting cfg ∧
        DialledAnew display setup window start hostId created earlier cfg := by
  -- The last action is not the connect, so the connect has one behind it.
  induction later using List.reverseRecOn with
  | nil =>
    obtain ⟨-, same⟩ := List.append_inj' split rfl
    cases same
    cases apart
  | append_singleton later last _ =>
    rw [← List.cons_append, ← List.append_assoc] at split
    exact own.connected earlier later (List.append_inj' split rfl).1

/-- An attempt that fails leaves a session with its own host. -/
theorem Own.fail {error : ReconnectError} {rand01 : Jitter}
    (own : Own display setup window start hostId created before live)
    (apart : action.isConnect = false) (taken : live.fail setup error rand01 = some next) :
    Own display setup window start hostId created (before ++ [action]) next := by
  obtain ⟨session, stepped, rfl⟩ := Option.map_eq_some_iff.mp taken
  have same : session.shells = live.session.shells := by
    cases takes_step stepped with
    | supervise moves => cases moves with | failed attempting => rfl
  -- The session is idle again, and has as many transports as before.
  refine ⟨own.alive, own.fetched, fun _ here => absurd here (by simp),
    fun _ here => absurd here (by simp), own.still_connected apart, ?_⟩
  simp [same, own.shells, apart]

/-- What happens beside an attempt leaves it where it is. -/
theorem Own.beside {session : State} {system : Concurrent}
    (own : Own display setup window start hostId created before live)
    (apart : action.isBeside) (alive : Alive hostId created system)
    (same : session.shells.length = live.session.shells.length) :
    Own display setup window start hostId created (before ++ [action])
      { live with session, system } := by
  -- What happens beside is not the attempt's connect, so neither count moves.
  have unconnected : action.isConnect = false := by
    cases action with
    | connect => cases apart
    | _ => rfl
  refine ⟨alive, own.fetched, fun host here => (own.reading host here).beside apart,
    fun cfg here => (own.dialling cfg here).beside apart, own.still_connected unconnected, ?_⟩
  simp [same, own.shells, unconnected]

/-- An attempt that finds its host reads the record that is there. -/
theorem Own.fetch {rand01 : Jitter} {host : Host}
    (own : Own display setup window start hostId created before live)
    (reached : System.run (liveStep display setup hostId window) (.opened setup start) before =
      some live)
    (shown : get live.system.state.db hostId = .ok (some host)) :
    Own display setup window start hostId created (before ++ [.fetch rand01])
      { live with establishing := .fetched host, fetched := live.fetched ++ [host] } := by
  -- The host is there, and it is the one that was there when the session was opened.
  have its : host.id = hostId ∧ host.createdAt = created := by
    obtain ⟨row, there, same⟩ := own.alive.there
    obtain ⟨_, bare, found, read, rfl⟩ := get_eq_some.mp shown
    obtain rfl := Option.some.inj (there.symm.trans found)
    obtain ⟨named, -, -, -, -, time, -⟩ := rowToHost_shows read
    exact ⟨named.trans (lookup_id there), time.trans same⟩
  refine ⟨own.alive, ?_, ?_, fun _ here => absurd here (by simp), own.still_connected rfl, ?_⟩
  · intro other member
    rcases List.mem_append.mp member with earlier | new
    · exact own.fetched other earlier
    · rw [List.mem_singleton.mp new]
      exact its
  · intro other here
    obtain rfl := Establishing.fetched.inj here
    exact ⟨before, rand01, [], live, rfl, by simp, reached, shown, its⟩
  · simp [own.shells, LiveAction.isConnect]

/-- An attempt that has its record comes to a config of it. -/
theorem Own.resolve {faults : Faults} {host : Host}
    (own : Own display setup window start hostId created before live)
    (reached : System.run (liveStep display setup hostId window) (.opened setup start) before =
      some live)
    (reading : live.establishing = .fetched host) :
    let cfg := forHost host (authForHost faults live.system.state.keyring host).methods window
    Own display setup window start hostId created (before ++ [.resolve faults])
      { live with establishing := .connecting cfg, dialled := live.dialled ++ [cfg] } := by
  -- The config is of the record that was read, with the keyring as it is in this state.
  refine ⟨own.alive, own.fetched, fun _ here => absurd here (by simp), ?_,
    own.still_connected rfl, ?_⟩
  · intro cfg here
    obtain rfl := Establishing.connecting.inj here
    exact ⟨before, faults, [], live, host, rfl, by simp, own.reading host reading, reached, rfl⟩
  · simp [own.shells, LiveAction.isConnect]

/-- A transport that comes up is the one that the attempt dialled. -/
theorem Own.connect {session : State} {cfg : SessionConfig}
    (own : Own display setup window start hostId created before live)
    (reached : System.run (liveStep display setup hostId window) (.opened setup start) before =
      some live)
    (connecting : live.establishing = .connecting cfg)
    (grown : session.shells.length = live.session.shells.length + 1) :
    Own display setup window start hostId created (before ++ [.connect])
      { live with session, establishing := .idle } := by
  refine ⟨own.alive, own.fetched, fun _ here => absurd here (by simp),
    fun _ here => absurd here (by simp), ?_, ?_⟩
  · intro earlier later split
    -- The connect is the last one, or one of those before.
    induction later using List.reverseRecOn with
    | nil =>
      obtain ⟨rfl, -⟩ := List.append_inj' split rfl
      exact ⟨live, cfg, reached, connecting, own.dialling cfg connecting⟩
    | append_singleton later last _ =>
      rw [← List.cons_append, ← List.append_assoc] at split
      exact own.connected earlier later (List.append_inj' split rfl).1
  · simp [grown, own.shells, LiveAction.isConnect]
    omega

/-- A step that starts no deletion of the host leaves a session with its own host. -/
theorem own_step (own : Own display setup window start hostId created before live)
    (reached : System.run (liveStep display setup hostId window) (.opened setup start) before =
      some live)
    (taken : liveStep display setup hostId window live action = some next)
    (spared : ∀ job, action = .store (.start job) → job.command ≠ .deleteHost hostId) :
    Own display setup window start hostId created (before ++ [action]) next := by
  cases action with
  | session action =>
    -- A step of the session itself opens no transport.
    obtain ⟨unsettled, taken⟩ := Option.ite_none_left_eq_some.mp taken
    obtain ⟨session, stepped, rfl⟩ := Option.map_eq_some_iff.mp taken
    exact own.beside rfl own.alive (shells_step (by simpa using unsettled) stepped)
  | store step =>
    obtain ⟨system, stepped, rfl⟩ := Option.map_eq_some_iff.mp taken
    -- The store moves on beside it, and keeps the host.
    have alive := alive_step own.alive stepped fun job started => spared job (by rw [started])
    exact own.beside rfl alive rfl
  | fetch rand01 =>
    simp only [liveStep] at taken
    -- A record that is gone or cannot be read fails the attempt.
    split at taken
    · cases shown : get live.system.state.db hostId with
      | error reason =>
        rw [shown] at taken
        exact own.fail rfl taken
      | ok found =>
        rw [shown] at taken
        cases found with
        | none => exact own.fail rfl taken
        | some host =>
          cases taken
          exact own.fetch reached shown
    · cases taken
  | resolve faults =>
    simp only [liveStep] at taken
    split at taken
    · rename_i host reading
      cases taken
      -- The config is built from the record the attempt read, with the keyring of now.
      exact own.resolve reached reading
    · cases taken
  | connect =>
    simp only [liveStep] at taken
    split at taken
    · rename_i cfg connecting
      obtain ⟨session, stepped, rfl⟩ := Option.map_eq_some_iff.mp taken
      refine own.connect reached connecting ?_
      -- An attempt that succeeds brings one transport.
      cases takes_step stepped with
      | supervise moves => cases moves with | succeeded attempting => simp
    · cases taken
  | refuse error rand01 =>
    simp only [liveStep] at taken
    split at taken
    · exact own.fail rfl taken
    · cases taken

end Steps

/--
While nobody deletes its host, every attempt of a session finds it, whatever else is done to the
store: each transport after the first is opened with the config that its own attempt came to,
from the record as it read it then and the keyring as it was then,
and the record is of the host that was there when the session was opened.
-/
theorem session_keeps_to_its_host {row : HostRow} (found : lookup start.db hostId = some row)
    (spared : ∀ job, .store (.start job) ∈ actions → job.command ≠ .deleteHost hostId)
    (ran : System.run (liveStep display setup hostId window) (.opened setup start) actions =
      some final) : Own display setup window start hostId row.createdAt actions final := by
  have initial : Own display setup window start hostId row.createdAt [] (.opened setup start) := by
    refine ⟨⟨⟨row, found, rfl⟩, ?_⟩, ?_, ?_, ?_, ?_, rfl⟩
    · exact fun worker member => absurd member List.not_mem_nil
    · exact fun host member => absurd member List.not_mem_nil
    · exact fun host here => absurd here (by simp [Live.opened])
    · exact fun cfg here => absurd here (by simp [Live.opened])
    · exact fun earlier later split => absurd split (by simp)
  -- Each step is looked at behind the whole history that led to it.
  refine System.run_history initial ?_ ran
  intro before action live next member reached own taken
  refine own_step own reached taken ?_
  rintro job rfl
  exact spared job member

/-- The host is moved while the session waits, and the session comes back with its new record. -/
theorem session_keeps_to_moved_host :
    ∃ final, System.run (liveStep (fun _ => "") Session.savedHost keyHost.id none)
        (.opened Session.savedHost keyHostState)
        (dropped ++ [.store (.start ⟨.moveHost keyHost.id none, Faults.none, 3⟩),
          .store (.call 0), .fetch none, .resolve Faults.none, .connect]) = some final ∧
      final.fetched.map Host.updatedAt = [3] ∧ final.session.shells.length = 2 ∧
      Own (fun _ => "") Session.savedHost none keyHostState keyHost.id (rowOf keyHost).createdAt
        (dropped ++ [.store (.start ⟨.moveHost keyHost.id none, Faults.none, 3⟩),
          .store (.call 0), .fetch none, .resolve Faults.none, .connect]) final := by
  -- The run is evaluated, and its only job moves the host.
  obtain ⟨final, ran, fetched, shells⟩ : ∃ final,
      System.run (liveStep (fun _ => "") Session.savedHost keyHost.id none)
        (.opened Session.savedHost keyHostState)
        (dropped ++ [.store (.start ⟨.moveHost keyHost.id none, Faults.none, 3⟩),
          .store (.call 0), .fetch none, .resolve Faults.none, .connect]) = some final ∧
      final.fetched.map Host.updatedAt = [3] ∧ final.session.shells.length = 2 :=
    ⟨_, rfl, rfl, rfl⟩
  have found : lookup keyHostState.db keyHost.id = some (rowOf keyHost) := rfl
  refine ⟨final, ran, fetched, shells, session_keeps_to_its_host found ?_ ran⟩
  intro job member
  simp only [dropped, List.mem_append, List.mem_map, reduceCtorEq, and_false, exists_false,
    List.mem_cons, LiveAction.store.injEq, Scheduled.start.injEq, List.not_mem_nil, or_false,
    false_or] at member
  rw [member]
  simp

/-- Where the id is taken before the attempt, the session comes back on another host. -/
example : (System.run (liveStep (fun _ => "") Session.savedHost keyHost.id none)
    (.opened Session.savedHost keyHostState)
    (dropped ++ [.store (.start ⟨.deleteHost keyHost.id, Faults.none, 3⟩), .store (.call 0),
      .store (.start (creation "other")), .store (.call 0), .fetch none])).map
        (fun live => live.fetched.map Host.name) = some ["other"] := rfl

end Runs

section Policies

variable {display : StoreError → String} {setup : Setup} {hostId : Int} {window : Option UInt32}
  {state : State} {live next : Live}

/-- A policy that never asks for an attempt. -/
def Off (policy : ReconnectPolicy) : Prop := policy.enabled = false ∨ policy.maxAttempts = 0

/-- A policy that is off gives up instead. -/
theorem giveUp_of_off {policy : ReconnectPolicy} (off : Off policy) (attempt : UInt32)
    (rand01 : Jitter) : policy.reconnectOrGiveUp attempt rand01 = .giveUp := by
  unfold ReconnectPolicy.reconnectOrGiveUp
  rcases off with disabled | none_
  · simp [disabled]
  · simp [none_]

/-- A session is not about to make an attempt, and has made none. -/
structure Resting (live : Live) : Prop where
  phase : live.session.phase.retries = false
  attempts : live.session.attempts = []

/-- A step of a session whose policy is off leads to no attempt. -/
theorem resting_moves {after : State} {input : Session.Input} (off : Off setup.policy)
    (phase : state.phase.retries = false) (moves : Moves setup state input after) :
    after.phase.retries = false ∧ after.attempts = state.attempts := by
  -- A policy that is off decides to give up at once, and no later phase is ever reached.
  cases moves with
  | broken classifying reads lost => cases setup.reconnector <;> exact ⟨rfl, rfl⟩
  | drawn dropped =>
    refine ⟨?_, rfl⟩
    dsimp only [ReconnectPolicy.decide]
    rw [giveUp_of_off off]
    rfl
  | @acted reason decision deciding =>
    cases decision with
    | exit code => exact ⟨rfl, rfl⟩
    | giveUp => exact ⟨rfl, rfl⟩
    | reconnect attempt delay => simp [deciding, Session.Phase.retries] at phase
  | elapsed backingOff => simp [backingOff, Session.Phase.retries] at phase
  | awakeOpen awake => simp [awake, Session.Phase.retries] at phase
  | readCols clear => simp [clear, Session.Phase.retries] at phase
  | readRows sizing => simp [sizing, Session.Phase.retries] at phase
  | failed attempting => simp [attempting, Session.Phase.retries] at phase
  | _ => exact ⟨rfl, rfl⟩

/-- Neither does any other step of such a session. -/
theorem resting_session {after : State} {action : Session.Action} (off : Off setup.policy)
    (phase : state.phase.retries = false) (taken : Session.step setup state action = some after) :
    after.phase.retries = false ∧ after.attempts = state.attempts := by
  cases takes_step taken with
  | supervise moves => exact resting_moves off phase moves
  | _ => exact ⟨phase, rfl⟩

/-- Nor does what happens beside it. -/
theorem resting_step {action : LiveAction} (off : Off setup.policy) (resting : Resting live)
    (taken : liveStep display setup hostId window live action = some next) : Resting next := by
  obtain ⟨phase, attempts⟩ := resting
  -- A policy that is off never leads the session to an attempt.
  have moved : ∀ {action : Session.Action} {after : State},
      Session.step setup live.session action = some after →
        after.phase.retries = false ∧ after.attempts = [] := by
    intro action after stepped
    obtain ⟨still, same⟩ := resting_session off phase stepped
    exact ⟨still, same.trans attempts⟩
  cases action with
  | session action =>
    obtain ⟨-, taken⟩ := Option.ite_none_left_eq_some.mp taken
    obtain ⟨session, stepped, rfl⟩ := Option.map_eq_some_iff.mp taken
    -- The session goes on without one.
    exact ⟨(moved stepped).1, (moved stepped).2⟩
  | fetch rand01 =>
    simp only [liveStep] at taken
    split at taken
    · -- A record is read in an attempt alone.
      rename_i attempting _
      simp [attempting, Session.Phase.retries] at phase
    · cases taken
  | resolve faults =>
    simp only [liveStep] at taken
    split at taken <;> cases taken
    exact ⟨phase, attempts⟩
  | connect =>
    simp only [liveStep] at taken
    split at taken
    · obtain ⟨session, stepped, rfl⟩ := Option.map_eq_some_iff.mp taken
      exact ⟨(moved stepped).1, (moved stepped).2⟩
    · cases taken
  | refuse error rand01 =>
    simp only [liveStep] at taken
    split at taken
    · obtain ⟨session, stepped, rfl⟩ := Option.map_eq_some_iff.mp taken
      exact ⟨(moved stepped).1, (moved stepped).2⟩
    · cases taken
  | store step =>
    obtain ⟨system, -, rfl⟩ := Option.map_eq_some_iff.mp taken
    -- The store is another part of the state.
    exact ⟨phase, attempts⟩

/-- A session that has decided on an attempt makes it, unless it is closed. -/
theorem attempts_of_decided {reason : String} {attempt : UInt32} {delay : Desktop.Duration}
    (deciding : live.session.phase = .deciding reason (.reconnect attempt delay))
    (unshut : live.session.isShutdown = false) : ∃ final,
      System.run (liveStep display setup hostId window) live
        (List.replicate 5 (.session (.supervise .next))) = some final ∧
      final.session.attempts ≠ [] := by
  -- From the decision the supervisor waits, wakes, reads the size and attempts, in five moves.
  obtain ⟨session, system, establishing, fetched, dialled⟩ := live
  obtain ⟨shells, conn, reading, phase, path, gate, dims, opening, closing⟩ := session
  obtain rfl := deciding
  cases closing with
  | «open» => exact ⟨_, rfl, by simp⟩
  | removed => exact ⟨_, rfl, by simp⟩
  | shutdown => cases unshut

/-- A session whose policy is on gets to an attempt once its transport is lost. -/
theorem redials_of_on (on : ¬Off setup.policy) (reconnector : setup.reconnector = true)
    (start : AppState) : ∃ actions final,
      System.run (liveStep display setup hostId window) (.opened setup start) actions = some final ∧
        final.session.attempts ≠ [] := by
  obtain ⟨size, cfg, policy, way⟩ := setup
  obtain ⟨enabled, room⟩ : policy.enabled = true ∧ policy.maxAttempts ≠ 0 := by
    simpa [Off] using on
  cases reconnector
  have decided : policy.decide .dropped 1 none = .reconnect 1 (policy.backoff.delay 1 none) := by
    have one : (1 : UInt32).toNat ≤ policy.maxAttempts.toNat := by
      have positive : policy.maxAttempts.toNat ≠ 0 := fun zero => room (UInt32.toNat.inj zero)
      have single : (1 : UInt32).toNat = 1 := rfl
      omega
    rw [ReconnectPolicy.decide, reconnectOrGiveUp_enabled enabled (by decide), if_pos one]
  -- The run comes to the decision whatever it is, and this one leads on to an attempt.
  obtain ⟨middle, reached, deciding, unshut⟩ : ∃ middle,
      System.run (liveStep display ⟨size, cfg, policy, true⟩ hostId window)
        (.opened ⟨size, cfg, policy, true⟩ start) (dropped.take 9) = some middle ∧
      middle.session.phase = .deciding "connection lost" (policy.decide .dropped 1 none) ∧
      middle.session.isShutdown = false := ⟨_, rfl, rfl, rfl⟩
  rw [decided] at deciding
  obtain ⟨final, ran, attempted⟩ := attempts_of_decided deciding unshut
  refine ⟨dropped.take 9 ++ List.replicate 5 (.session (.supervise .next)), final, ?_, attempted⟩
  rw [System.run_append, reached, Option.bind_some, ran]

/-- The policy of a host is off when it is disabled, or when it has no attempts. -/
theorem off_reconnectPolicyFor (enabledSetting : Option Bool) (maxSetting : Option UInt32)
    (host : Host) : Off (reconnectPolicyFor enabledSetting maxSetting host) ↔
      ¬(host.overrides.reconnectEnabled.getD (enabledSetting.getD true) = true ∧
        host.overrides.reconnectMaxAttempts.getD (maxSetting.getD 10) ≠ 0) := by
  simp only [Off, reconnectPolicyFor, not_and_or, Bool.not_eq_true, not_not]
  rfl

/--
A session with a saved host makes an attempt in some run exactly when its host's override,
else the setting, else the default asks for one, and the number of attempts is not zero.
-/
theorem session_redials_iff (display : StoreError → String) (size : Size) (cfg : CoalescerConfig)
    (enabledSetting : Option Bool) (maxSetting window : Option UInt32) (host : Host)
    (start : AppState) :
    (∃ actions final, System.run (liveStep display
        (savedSetup size cfg (reconnectPolicyFor enabledSetting maxSetting host)) host.id window)
        (.opened (savedSetup size cfg (reconnectPolicyFor enabledSetting maxSetting host)) start)
        actions = some final ∧ final.session.attempts ≠ []) ↔
      host.overrides.reconnectEnabled.getD (enabledSetting.getD true) = true ∧
        host.overrides.reconnectMaxAttempts.getD (maxSetting.getD 10) ≠ 0 := by
  rw [← not_iff_not, ← off_reconnectPolicyFor]
  constructor
  · intro never
    by_contra on
    -- A policy that is on is enabled, so that the session has a way to reconnect.
    have enabled := (not_or.mp on).1
    exact never (redials_of_on on (Bool.not_eq_false _ ▸ enabled) start)
  · rintro off ⟨actions, final, ran, attempted⟩
    exact attempted (System.run_preserves (resting_step off) ⟨rfl, rfl⟩ ran).attempts

end Policies

end Tern.SavedSession
