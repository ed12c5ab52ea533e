import Tern.Desktop.Deferral

/-! When store commands that run beside each other leave what some sequential order leaves. -/

namespace Tern.Desktop

open Tern.Store

section Tails

/-- The row that a command which has written still looks at. -/
def Phase.tail : Phase → Option Int
  | .tagging id _ _ => some id
  | .readingSecret id _ => some id
  | .writingSecret record => some record.id
  | _ => none

/-- The row whose secret a command is still to treat. -/
def Phase.owned : Phase → Option Int
  | .tagging id _ secret => if secret = .unchanged then none else some id
  | .readingSecret id _ => some id
  | .writingSecret record => some record.id
  | _ => none

/-- What is left of a command makes of the row it owns. -/
def Phase.effect (now : Int) : Phase → HostRow → HostRow
  | .tagging _ _ secret => secretEffect now secret
  | .readingSecret _ secret => secretEffect now secret
  | .writingSecret record => overwrite now record
  | _ => fun row => row

/-- The candidates that an import has written so far. -/
def Phase.handled : Phase → List Candidate
  | .finding handled _ => handled
  | .refreshing _ handled _ _ => handled
  | .importing handled _ _ => handled
  | _ => []

/-- The candidates that an import has not written yet. -/
def Phase.left : Phase → List Candidate
  | .finding _ rest => rest
  | .refreshing _ _ c rest => c :: rest
  | .importing _ c rest => c :: rest
  | _ => []

/-- The rows as they will be once every secret that is still to be treated is. -/
def settle (running : List Worker) (row : HostRow) : HostRow :=
  match running.find? fun worker => worker.phase.owned = some row.id with
  | none => row
  | some worker => worker.phase.effect worker.job.now row

/-- What the imports that are under way have written so far. -/
def writtenBy (running : List Worker) : List (Int × Candidate) :=
  running.flatMap fun worker => worker.phase.handled.map fun c => (worker.job.now, c)

/-- What the imports that have begun to write are still to write. -/
def awaitedBy (running : List Worker) : List (Int × Candidate) :=
  running.flatMap fun worker =>
    if worker.phase.handled.isEmpty then [] else worker.phase.left.map fun c => (worker.job.now, c)

/-- The commands that have written what they write, up to a secret or the tags. -/
def committed (running : List Worker) : List Job :=
  (running.filter fun worker => worker.phase.tail.isSome).map Worker.job

end Tails

section Guard

/-- An import under way has written the row, and is to write it again. -/
def Revisited (others : List Worker) (row : HostRow) : Prop :=
  ImportedIn (writtenBy others) row ∧ ImportedIn (awaitedBy others) row

/-- Nobody else is to treat the row's secret, and no import comes back to it. -/
structure Free (others : List Worker) (row : HostRow) : Prop where
  unowned : ∀ worker ∈ others, worker.phase.owned ≠ some row.id
  unvisited : ¬Revisited others row

/-- An edit would keep the same columns of two records. -/
structure SameUnedited (existing current : Host) : Prop where
  secretRef : current.secretRef = existing.secretRef
  source : current.source = existing.source
  sourceAlias : current.sourceAlias = existing.sourceAlias

/-- A repeated import would keep the same columns of two records. -/
structure SameUnimported (existing current : Host) : Prop extends
    SameUnedited existing current where
  folderId : current.folderId = existing.folderId
  name : current.name = existing.name
  authFallbacks : current.authFallbacks = existing.authFallbacks
  color : current.color = existing.color
  notes : current.notes = existing.notes

/-- The next call of a command neither undoes what another wrote nor comes between its writes. -/
def Undisturbed (db : Database) (others : List Worker) (job : Job) : Phase → Prop
  | .inserting dto secret =>
    checkRow db (rowOf (hostOfDraft (nextId db) job.now (draftOfDto dto))) = .ok () →
      writtenBy others = [] ∧ TagsKnown db dto.tags ∧
        Takes job.faults (hostOfDraft (nextId db) job.now (draftOfDto dto)) (secretOf secret)
  | .saving existing dto secret =>
    ∀ row, lookup db existing.id = some row → checkRow db (rowOf (edited existing dto)) = .ok () →
      Free others row ∧ TagsKnown db dto.tags ∧ Takes job.faults (edited existing dto) secret ∧
        ∃ current, rowToHost row = .ok current ∧ SameUnedited existing current
  | .deleting id =>
    Present db id → writtenBy others = [] ∧ ∀ worker ∈ others, worker.phase.tail ≠ some id
  | .moving id folderId =>
    ∀ row, lookup db id = some row →
      (∀ folder, folderId = some folder → ∃ known ∈ db.folders, known.id = folder) →
      Free others row
  | .settingTags id _ => ∀ row, lookup db id = some row → ¬Revisited others row
  | .counting id _ => ∀ row, lookup db id = some row → ¬Revisited others row
  | .finding handled (c :: _) =>
    handled ≠ [] → ∀ row, importedRow db c.alias_ = some row → ∃ host, rowToHost row = .ok host
  | .refreshing existing handled c _ =>
    (handled ≠ [] →
      Present db existing.id ∧ checkRow db (rowOf (refreshed existing c)) = .ok ()) ∧
    ∀ row, lookup db existing.id = some row → checkRow db (rowOf (refreshed existing c)) = .ok () →
      writtenBy others = [] ∧ (∀ worker ∈ others, worker.phase.owned ≠ some row.id) ∧
        ∃ current, rowToHost row = .ok current ∧ SameUnimported existing current
  | .importing handled c _ =>
    (handled ≠ [] →
      checkRow db (rowOf (hostOfDraft (nextId db) job.now (draftOf c))) = .ok ()) ∧
    (checkRow db (rowOf (hostOfDraft (nextId db) job.now (draftOf c))) = .ok () →
      writtenBy others = [])
  | _ => True

/-- A step leaves the other commands undisturbed. -/
def LeavesUndisturbed (system : Concurrent) : Scheduled → Prop
  | .start _ => True
  | .call index => ∀ worker, system.running[index]? = some worker →
    Undisturbed system.state.db (system.running.eraseIdx index) worker.job worker.phase

end Guard

section Invariant

/-- The record of a row can be read, is valid, and has its secret taken. -/
def Treatable (db : Database) (faults : Faults) (id : Int) (secret : SecretUpdateDto) : Prop :=
  ∃ row host, lookup db id = some row ∧ rowToHost row = .ok host ∧ Takes faults host secret ∧
    RowValid db.folders (rowOf host)

/-- A command stands where its calls have brought it, and nothing it relies on is gone. -/
def Sound (db : Database) (job : Job) : Phase → Prop
  | .inserting dto secret => job.command = .createHost dto secret
  | .fetching dto secret => job.command = .updateHost dto secret
  | .saving existing dto secret => job.command = .updateHost dto secret ∧ existing.id = dto.id
  | .tagging id tags secret =>
    Present db id ∧ TagsKnown db tags ∧ (secret ≠ .unchanged → Treatable db job.faults id secret)
  | .readingSecret id secret => Treatable db job.faults id secret
  | .writingSecret record =>
    ∃ row, lookup db record.id = some row ∧ origin (rowOf record) = origin row ∧
      RowValid db.folders (rowOf record)
  | .deleting id => job.command = .deleteHost id
  | .moving id folderId => job.command = .moveHost id folderId
  | .settingTags id tagIds => job.command = .setHostTags id tagIds
  | .counting id at_ => job.command = .recordConnection id at_
  | .finding handled rest => job.command = .importSshConfig (handled ++ rest)
  | .refreshing existing handled c rest =>
    job.command = .importSshConfig (handled ++ c :: rest) ∧ existing.source = .sshConfig ∧
      existing.sourceAlias = some c.alias_
  | .importing handled c rest => job.command = .importSshConfig (handled ++ c :: rest)

/-- Two commands own no row in common, and are not both imports under way. -/
structure Apart (one other : Worker) : Prop where
  owned : ∀ id, one.phase.owned = some id → other.phase.owned ≠ some id
  handled : one.phase.handled = [] ∨ other.phase.handled = []

/--
A sequential run has led to the hosts as they will be once the secrets are treated.

What the imports under way have written comes in between, before the commands that are deferred.
-/
structure Matches (db : Database) (running : List Worker) (reached : AppState)
    (imported : Database) (deferred : List Job) (ids : List Int) (late : HostRow → HostRow) :
    Prop where
  consistent : Consistent reached.db
  ran : System.run timedUpsert reached.db (writtenBy running) = some imported
  deferral : Deferral imported deferred ids late
  spared : ∀ id ∈ ids, ∀ row, lookup imported id = some row → ¬ImportedIn (awaitedBy running) row
  hosts : imported.hosts.map late = db.hosts.map (settle running)
  folders : imported.folders = db.folders
  tags : imported.tags = db.tags

/-- A sequential run of what has succeeded and what is committed explains the hosts. -/
def Explained (start : AppState) (db : Database) (running : List Worker) (succeeded : List Job) :
    Prop :=
  ∃ order deferred reached imported ids late, System.run serialStep start order = some reached ∧
    (order ++ deferred).Perm (succeeded ++ committed running) ∧
    Matches db running reached imported deferred ids late

/-- What holds of the commands that run as long as none is disturbed. -/
structure Accounted (start : AppState) (system : Concurrent) : Prop where
  consistent : Consistent system.state.db
  sound : ∀ worker ∈ system.running, Sound system.state.db worker.job worker.phase
  apart : system.running.Pairwise Apart
  explained : Explained start system.state.db system.running system.succeeded

end Invariant

section Lists

variable {before after new others : List Worker} {worker : Worker} {row : HostRow} {id : Int}

@[simp] theorem writtenBy_append (some_ more : List Worker) :
    writtenBy (some_ ++ more) = writtenBy some_ ++ writtenBy more := List.flatMap_append

@[simp] theorem writtenBy_cons (worker : Worker) (more : List Worker) :
    writtenBy (worker :: more) =
      (worker.phase.handled.map fun c => (worker.job.now, c)) ++ writtenBy more :=
  List.flatMap_cons

@[simp] theorem writtenBy_nil : writtenBy [] = [] := rfl

@[simp] theorem awaitedBy_append (some_ more : List Worker) :
    awaitedBy (some_ ++ more) = awaitedBy some_ ++ awaitedBy more := List.flatMap_append

@[simp] theorem awaitedBy_cons (worker : Worker) (more : List Worker) :
    awaitedBy (worker :: more) =
      (if worker.phase.handled.isEmpty then []
        else worker.phase.left.map fun c => (worker.job.now, c)) ++ awaitedBy more :=
  List.flatMap_cons

@[simp] theorem awaitedBy_nil : awaitedBy [] = [] := rfl

@[simp] theorem committed_append (some_ more : List Worker) :
    committed (some_ ++ more) = committed some_ ++ committed more := by
  simp [committed]

/-- A command with a tail is committed, and any other is not. -/
@[simp] theorem committed_cons (worker : Worker) (more : List Worker) :
    committed (worker :: more) =
      if worker.phase.tail.isSome then worker.job :: committed more else committed more := by
  unfold committed
  rw [List.filter_cons]
  split <;> rfl

@[simp] theorem committed_nil : committed [] = [] := rfl

/-- Nothing was written by imports under way when none is. -/
theorem writtenBy_eq_nil : writtenBy others = [] ↔ ∀ other ∈ others, other.phase.handled = [] := by
  simp [writtenBy]

/-- A row that nobody owns is settled. -/
theorem settle_of_unowned (unowned : ∀ other ∈ others, other.phase.owned ≠ some row.id) :
    settle others row = row := by
  -- No command is found that has a write to the row before it.
  have missed : others.find? (fun other => other.phase.owned = some row.id) = none := by
    rw [List.find?_eq_none]
    intro other member
    simpa using unowned other member
  unfold settle
  rw [missed]

/-- Commands that own no row of an id do not settle it. -/
theorem settle_insert (unowned : ∀ other ∈ new, other.phase.owned ≠ some row.id) :
    settle (before ++ (new ++ after)) row = settle (before ++ after) row := by
  -- Searching for the owner passes the new commands over.
  have missed : new.find? (fun other => other.phase.owned = some row.id) = none := by
    rw [List.find?_eq_none]
    intro other member
    simpa using unowned other member
  unfold settle
  rw [List.find?_append, List.find?_append, missed, List.find?_append, Option.none_or]

/-- A row is settled by the command that owns it. -/
theorem settle_of_owned (unowned : ∀ other ∈ before ++ after, other.phase.owned ≠ some row.id)
    (owned : worker.phase.owned = some row.id) :
    settle (before ++ worker :: after) row = worker.phase.effect worker.job.now row := by
  -- The commands in front do not own the row, so the search ends at this one.
  have missed : before.find? (fun other => other.phase.owned = some row.id) = none := by
    rw [List.find?_eq_none]
    intro other member
    simpa using unowned other (List.mem_append_left _ member)
  unfold settle
  rw [List.find?_append, missed, Option.none_or, List.find?_cons_of_pos (by simpa using owned)]

/-- Every command is apart from the others. -/
theorem apart_of_middle (apart : (before ++ worker :: after).Pairwise Apart) :
    ∀ other ∈ before ++ after, Apart worker other := by
  have symm : ∀ one other : Worker, Apart one other → Apart other one := fun one other this =>
    ⟨fun id owned same => this.owned id same owned, this.handled.symm⟩
  -- Being apart is symmetric, so that the command may be moved to the front.
  have moved := (List.perm_middle.pairwise_iff (fun {one other} => symm one other)).mp apart
  exact (List.pairwise_cons.mp moved).1

/-- Commands stay apart when some of them are exchanged for others that are apart from the rest. -/
theorem apart_exchange {old : List Worker} (apart : (before ++ (old ++ after)).Pairwise Apart)
    (fresh : ∀ one ∈ new, ∀ other ∈ before ++ after, Apart one other)
    (alone : new.Pairwise Apart) : (before ++ (new ++ after)).Pairwise Apart := by
  have symm : ∀ one other : Worker, Apart one other → Apart other one := fun one other this =>
    ⟨fun id owned same => this.owned id same owned, this.handled.symm⟩
  have rest : (before ++ after).Pairwise Apart :=
    apart.sublist (List.Sublist.append_left (List.sublist_append_right old after) before)
  -- At the front the new commands are apart from each other and from all the rest.
  have moved : (new ++ (before ++ after)).Pairwise Apart :=
    List.pairwise_append.mpr ⟨alone, rest, fresh⟩
  exact ((List.perm_append_comm_assoc before new after).pairwise_iff
    (fun {one other} => symm one other)).mpr moved

end Lists

section Settled

variable {db after : Database} {running : List Worker} {row : HostRow}

/-- The row a command owns is there, and what is left of the command keeps its origin. -/
theorem Sound.owned {job : Job} {phase : Phase} {id : Int} (sound : Sound db job phase)
    (owned : phase.owned = some id) : ∃ row, lookup db id = some row ∧
      origin (phase.effect job.now row) = origin row := by
  -- Only a command with a secret to treat, or a record of one to write, owns a row.
  cases phase with
  | tagging host tags secret =>
    by_cases left : secret = .unchanged
    · simp [Phase.owned, left] at owned
    · simp only [Phase.owned, left, if_false, Option.some.injEq] at owned
      subst owned
      obtain ⟨row, -, found, -⟩ := sound.2.2 left
      exact ⟨row, found, origin_secretEffect ..⟩
  | readingSecret host secret =>
    cases owned
    obtain ⟨row, -, found, -⟩ := sound
    exact ⟨row, found, origin_secretEffect ..⟩
  | writingSecret record =>
    cases owned
    obtain ⟨row, found, same, -⟩ := sound
    exact ⟨row, found, same⟩
  | _ => cases owned

/-- Settling the rows of a table keeps their origins. -/
theorem keepsOrigins_settle (unique : (db.hosts.map HostRow.id).Nodup)
    (sound : ∀ worker ∈ running, Sound db worker.job worker.phase) :
    KeepsOrigins (settle running) db.hosts := by
  intro row member
  unfold settle
  cases owner : running.find? fun worker => worker.phase.owned = some row.id with
  | none => rfl
  | some worker =>
    -- The command that settles the row owns it, and finds it under its id.
    have owned : worker.phase.owned = some row.id := by simpa using List.find?_some owner
    obtain ⟨known, found, same⟩ := (sound worker (List.mem_of_find?_eq_some owner)).owned owned
    rw [lookup_of_mem unique member] at found
    cases found
    exact same

/-- What a command relies on stays when its row does, but for the count of its connections. -/
theorem Sound.kept {job : Job} {phase : Phase} (sound : Sound db job phase)
    (folders : after.folders = db.folders) (tags : after.tags = db.tags)
    (present : ∀ id, phase.tail = some id → Present db id → Present after id)
    (rows : ∀ id row, phase.owned = some id → lookup db id = some row → ∃ at_ count,
      lookup after id = some { row with lastConnectedAt := at_, connectCount := count }) :
    Sound after job phase := by
  -- A record with another count reads as before, but for the count.
  have treatable : ∀ {id secret}, phase.owned = some id → Treatable db job.faults id secret →
      Treatable after job.faults id secret := by
    rintro id secret owned ⟨row, host, found, read, takes, valid⟩
    obtain ⟨at_, count, kept⟩ := rows id row owned found
    refine ⟨_, { host with lastConnectedAt := at_, connectCount := count }, kept, ?_,
      takes.congr rfl rfl, ?_⟩
    · rw [rowToHost_stats, read]
      rfl
    · have plain := rowValid_rowOf_iff.mp valid
      rw [folders]
      exact rowValid_rowOf_iff.mpr plain
  -- The other commands rely on no row at all.
  cases phase with
  | tagging id names secret =>
    refine ⟨present id rfl sound.1, sound.2.1.congr tags, ?_⟩
    intro left
    exact treatable (by simp [Phase.owned, left]) (sound.2.2 left)
  | readingSecret id secret => exact treatable rfl sound
  | writingSecret record =>
    obtain ⟨row, found, same, valid⟩ := sound
    obtain ⟨at_, count, kept⟩ := rows record.id row rfl found
    exact ⟨_, kept, same, folders ▸ valid⟩
  | _ => exact sound

end Settled

section Explaining

variable {start : AppState} {db db' : Database} {running running' : List Worker}
  {succeeded succeeded' : List Job} {reached : AppState} {imported : Database}
  {deferred : List Job} {ids : List Int} {late : HostRow → HostRow} {row after : HostRow}
  {job : Job}

/-- Several turns of imports keep a store consistent. -/
theorem consistent_upserts {items : List (Int × Candidate)} {table : Database}
    (consistent : Consistent table) (ran : System.run timedUpsert table items = some imported) :
    Consistent imported :=
  @System.run_preserves _ _ timedUpsert Consistent (fun held taken => held.upsertStep taken) _ _ _
    consistent ran

/-- What was deferred leads from what was imported to the hosts. -/
theorem Matches.replay (same : Matches db running reached imported deferred ids late) :
    ∃ final, System.run serialStep { reached with db := imported } deferred = some final ∧
      Consistent final.db ∧ final.db.hosts = db.hosts.map (settle running) ∧
      final.db.folders = db.folders ∧ final.db.tags = db.tags := by
  -- What was deferred is replayed on the rows as the import has left them.
  have consistent := consistent_upserts same.consistent same.ran
  obtain ⟨final, ran, hosts, folders, tags⟩ := same.deferral.replays { reached with db := imported }
    consistent rfl rfl fun _ _ => rfl
  exact ⟨final, ran, @consistent_run { reached with db := imported } _ _ consistent ran,
    hosts.trans same.hosts, folders.trans same.folders, tags.trans same.tags⟩

/-- While no import is under way, a sequential run has led to the hosts. -/
theorem Explained.flat (explained : Explained start db running succeeded)
    (idle : writtenBy running = []) :
    ∃ order reached, System.run serialStep start order = some reached ∧
      order.Perm (succeeded ++ committed running) ∧ Consistent reached.db ∧
      reached.db.hosts = db.hosts.map (settle running) ∧ reached.db.folders = db.folders ∧
      reached.db.tags = db.tags := by
  obtain ⟨order, deferred, reached, imported, ids, late, ran, perm, same⟩ := explained
  -- Without an import under way, what is deferred follows what is there.
  have nothing := same.ran
  rw [idle] at nothing
  cases nothing
  obtain ⟨final, onward, rest⟩ := same.replay
  refine ⟨order ++ deferred, final, ?_, perm, rest⟩
  rw [System.run_append, ran]
  exact onward

/-- A sequential run that has led to the hosts needs no import and nothing that is deferred. -/
theorem matches_of_flat (consistent : Consistent reached.db)
    (hosts : reached.db.hosts = db.hosts.map (settle running))
    (folders : reached.db.folders = db.folders) (tags : reached.db.tags = db.tags)
    (idle : writtenBy running = []) :
    Matches db running reached reached.db [] [] fun row => row := by
  -- Nothing is under way, so nothing is imported and nothing is deferred.
  refine ⟨consistent, ?_, .nil reached.db, ?_, ?_, folders, tags⟩
  · rw [idle]
    rfl
  · intro id among
    exact absurd among List.not_mem_nil
  · rw [List.map_id']
    exact hosts

/-- A sequential run that has led to the hosts explains them while no import is under way. -/
theorem explained_of_run {order : List Job} (ran : System.run serialStep start order = some reached)
    (perm : order.Perm (succeeded ++ committed running)) (consistent : Consistent reached.db)
    (hosts : reached.db.hosts = db.hosts.map (settle running))
    (folders : reached.db.folders = db.folders) (tags : reached.db.tags = db.tags)
    (idle : writtenBy running = []) : Explained start db running succeeded := by
  refine ⟨order, [], reached, reached.db, [], fun row => row, ran, ?_,
    matches_of_flat consistent hosts folders tags idle⟩
  rw [List.append_nil]
  exact perm

/-- A change of neither rows nor imports leaves the hosts explained. -/
theorem Explained.quiet (explained : Explained start db running succeeded)
    (hosts : db'.hosts.map (settle running') = db.hosts.map (settle running))
    (folders : db'.folders = db.folders) (tags : db'.tags = db.tags)
    (written : writtenBy running' = writtenBy running)
    (awaited : awaitedBy running' = awaitedBy running)
    (jobs : (succeeded ++ committed running).Perm (succeeded' ++ committed running')) :
    Explained start db' running' succeeded' := by
  -- The same order explains the hosts, with the same commands deferred.
  obtain ⟨order, deferred, reached, imported, ids, late, ran, perm, same⟩ := explained
  refine ⟨order, deferred, reached, imported, ids, late, ran, perm.trans jobs, same.consistent, ?_,
    same.deferral, ?_, same.hosts.trans hosts.symm, same.folders.trans folders.symm,
    same.tags.trans tags.symm⟩
  · rw [written]
    exact same.ran
  · rw [awaited]
    exact same.spared

/-- A command that rewrites a row that no import under way has written is taken before them. -/
theorem Matches.before (same : Matches db running reached imported deferred ids late)
    (member : row ∈ imported.hosts) (unwritten : ¬ImportedIn (writtenBy running) row)
    (rewrites : Rewrites db job row after) :
    ∃ next imported', serialStep reached job = some next ∧
      System.run timedUpsert next.db (writtenBy running) = some imported' ∧
      imported'.hosts = imported.hosts.map (rewriteAt row.id fun _ => after) ∧
      imported'.folders = imported.folders ∧ imported'.tags = imported.tags := by
  obtain ⟨folders, tags⟩ := upserts_frame same.ran
  -- No import wrote the row, so that it was there before them.
  have first := (mem_upserts same.ran member).resolve_right unwritten
  have only : ∀ other ∈ reached.db.hosts, other.id = row.id → other = row :=
    fun other among named => List.inj_on_of_nodup_map same.consistent.unique among first named
  -- The command succeeds there as well, and writes the same row.
  obtain ⟨next, taken, rows, filed, tagged⟩ := rewrites.succeeds reached same.consistent
    (folders.symm.trans same.folders) (tags.symm.trans same.tags) first
  -- Behind it the imports lead to the same rows, but for the one.
  obtain ⟨imported', ran, hosts⟩ := upserts_rewriteAt same.ran
    (by
      intro other among
      by_cases here : other.id = row.id
      · rw [rewriteAt_of_eq here, only other among here]
        exact rewrites.origin
      · rw [rewriteAt_of_ne here])
    rows (filed.trans (folders.symm.trans same.folders).symm) ⟨row, first, rfl⟩
    (by
      intro other among here
      rw [only other among here]
      exact unwritten)
  obtain ⟨keptFolders, keptTags⟩ := upserts_frame ran
  exact ⟨next, imported', taken, ran, hosts,
    keptFolders.trans (filed.trans same.folders.symm), keptTags.trans (tagged.trans same.tags.symm)⟩

/-- A command may be taken before the imports under way, if what follows it is left as it is. -/
theorem Matches.insert {next : AppState} {imported' : Database} {order : List Job}
    (same : Matches db running reached imported deferred ids late)
    (ran : System.run serialStep start order = some reached)
    (perm : (order ++ deferred).Perm (succeeded ++ committed running))
    (taken : serialStep reached job = some next)
    (again : System.run timedUpsert next.db (writtenBy running) = some imported')
    (lookups : ∀ id ∈ ids, lookup imported' id = lookup imported id)
    (filed : imported'.folders = imported.folders) (tagged : imported'.tags = imported.tags)
    (hosts : imported'.hosts.map late = db'.hosts.map (settle running'))
    (folders : db'.folders = db.folders) (tags : db'.tags = db.tags)
    (written : writtenBy running' = writtenBy running)
    (awaited : awaitedBy running' = awaitedBy running)
    (jobs : (succeeded ++ committed running ++ [job]).Perm (succeeded' ++ committed running')) :
    Explained start db' running' succeeded' := by
  have onward : System.run serialStep reached [job] = some next := System.run_cons taken
  have later := consistent_run same.consistent onward
  refine ⟨order ++ [job], deferred, next, imported', ids, late, ?_, ?_, later, ?_,
    same.deferral.transfer (consistent_upserts later again).unique filed tagged lookups,
    ?_, hosts, (filed.trans same.folders).trans folders.symm,
    (tagged.trans same.tags).trans tags.symm⟩
  · -- The sequential run goes on by the command, and then by what was deferred.
    rw [System.run_append, ran, Option.bind_some]
    exact onward
  · refine List.Perm.trans ?_ ((perm.append_right [job]).trans jobs)
    rw [List.append_assoc, List.append_assoc]
    exact List.perm_append_comm.append_left order
  · rw [written]
    exact again
  · intro key among other found
    rw [awaited]
    exact same.spared key among other ((lookups key among).symm.trans found)

/-- A command that finds nothing to change may be taken before the imports that are under way. -/
theorem Explained.idle (explained : Explained start db running succeeded) {id : Int}
    (keeps : KeepsOrigins (settle running) db.hosts) (missing : lookup db id = none)
    (succeeds : ∀ state : AppState, lookup state.db id = none →
      ∃ next, serialStep state job = some next ∧ next.db.hosts = state.db.hosts ∧
        next.db.folders = state.db.folders ∧ next.db.tags = state.db.tags)
    (hosts : db'.hosts.map (settle running') = db.hosts.map (settle running))
    (folders : db'.folders = db.folders) (tags : db'.tags = db.tags)
    (written : writtenBy running' = writtenBy running)
    (awaited : awaitedBy running' = awaitedBy running)
    (jobs : (succeeded ++ committed running ++ [job]).Perm (succeeded' ++ committed running')) :
    Explained start db' running' succeeded' := by
  obtain ⟨order, deferred, reached, imported, ids, late, ran, perm, same⟩ := explained
  -- Every id of the sequential run is one of the table.
  have absent : lookup reached.db id = none := by
    refine List.find?_eq_none.mpr fun row member named => ?_
    have listed := (upserts_ids same.ran).subset (List.mem_map_of_mem (f := HostRow.id) member)
    rw [← same.deferral.keeps.ids, same.hosts, keeps.ids] at listed
    obtain ⟨known, among, equal⟩ := List.mem_map.mp listed
    refine List.find?_eq_none.mp missing known among (decide_eq_true ?_)
    exact equal.trans (of_decide_eq_true named)
  obtain ⟨next, taken, rows, filed, tagged⟩ := succeeds reached absent
  -- The imports go on from the same rows as before.
  obtain ⟨imported', again, kept⟩ := upserts_congr same.ran rows filed
  obtain ⟨keptFolders, keptTags⟩ := upserts_frame same.ran
  obtain ⟨againFolders, againTags⟩ := upserts_frame again
  refine same.insert ran perm taken again ?_ ((againFolders.trans filed).trans keptFolders.symm)
    ((againTags.trans tagged).trans keptTags.symm) ?_ folders tags written awaited jobs
  · intro key _
    unfold lookup
    rw [kept]
  · rw [kept, same.hosts, hosts]

/-- A command that rewrites one row is taken last, or before the imports that are under way. -/
theorem Explained.commit (explained : Explained start db running succeeded)
    (member : row ∈ db.hosts) (kept : origin (settle running row) = origin row)
    (unvisited : ¬Revisited running row) (rewrites : Rewrites db job (settle running row) after)
    (hosts : db'.hosts.map (settle running') =
      (db.hosts.map (settle running)).map (rewriteAt row.id fun _ => after))
    (folders : db'.folders = db.folders) (tags : db'.tags = db.tags)
    (written : writtenBy running' = writtenBy running)
    (awaited : awaitedBy running' = awaitedBy running)
    (jobs : (succeeded ++ committed running ++ [job]).Perm (succeeded' ++ committed running')) :
    Explained start db' running' succeeded' := by
  obtain ⟨order, deferred, reached, imported, ids, late, ran, perm, same⟩ := explained
  have consistent := consistent_upserts same.consistent same.ran
  -- The row as it was imported, which what is deferred makes what it will be.
  obtain ⟨old, there, equal⟩ : ∃ old ∈ imported.hosts, late old = settle running row :=
    List.mem_map.mp (same.hosts ▸ List.mem_map_of_mem member)
  have origins : origin old = origin row := by
    rw [← same.deferral.keeps old there, equal, kept]
  have named : old.id = row.id := congrArg Prod.fst origins
  -- A row that is deferred, or was imported under way, is written behind the imports.
  by_cases deferring : row.id ∈ ids ∨ ImportedIn (writtenBy running) row
  · refine ⟨order, deferred ++ [job], reached, imported, old.id :: ids, _, ran, ?_,
      same.consistent, ?_, same.deferral.commit consistent there
        (equal ▸ rewrites.congr same.folders same.tags), ?_, ?_,
      same.folders.trans folders.symm, same.tags.trans tags.symm⟩
    · rw [← List.append_assoc]
      exact (perm.append_right [job]).trans jobs
    · rw [written]
      exact same.ran
    · intro id among other found
      rw [awaited]
      rcases List.mem_cons.mp among with rfl | among
      · rcases deferring with before | visited
        · exact same.spared old.id (named ▸ before) other found
        · rw [lookup_of_mem consistent.unique there] at found
          cases found
          exact fun again => unvisited ⟨visited, (importedIn_congr origins).mp again⟩
      · exact same.spared id among other found
    · rw [hosts, ← same.hosts, List.map_map, named]
      rfl
  · obtain ⟨early, unwritten⟩ := not_or.mp deferring
    -- Nothing that was deferred touches the row.
    have unchanged : late old = old := same.deferral.spares old (named ▸ early)
    rw [← equal, unchanged] at rewrites
    obtain ⟨next, imported', taken, again, rows, filed, tagged⟩ := same.before there
      (fun visited => unwritten ((importedIn_congr origins).mp visited)) rewrites
    have afterwards : after.id = old.id := congrArg Prod.fst rewrites.origin
    refine same.insert ran perm taken again ?_ filed tagged ?_ folders tags written awaited jobs
    · intro id among
      refine lookup_rewriteAt_of_ne afterwards rows ?_
      rintro rfl
      exact early (named ▸ among)
    · rw [hosts, ← same.hosts, rows, List.map_map, List.map_map, named]
      refine List.map_congr_left fun other among => ?_
      by_cases here : other.id = row.id
      · -- What is deferred keeps the ids, so that it is this row that is rewritten.
        have there' : (late other).id = row.id := (same.deferral.keeps.id_eq among).trans here
        rw [Function.comp_apply, Function.comp_apply, rewriteAt_of_eq here, rewriteAt_of_eq there']
        exact same.deferral.spares after (fun listed => early (named ▸ afterwards ▸ listed))
      · have apart : (late other).id ≠ row.id := fun equal =>
          here ((same.deferral.keeps.id_eq among).symm.trans equal)
        rw [Function.comp_apply, Function.comp_apply, rewriteAt_of_ne here, rewriteAt_of_ne apart]

/-- The next turn of the import that is under way comes before what is deferred. -/
theorem Matches.turn {c : Candidate} {now : Int}
    (same : Matches db running reached imported deferred ids late)
    (spared : ∀ id ∈ ids, ∀ row, lookup imported id = some row → ¬ImportedAs c row)
    (keeps : KeepsOrigins (settle running) db.hosts) (taken : upsertStep now db c = some db')
    (known : ∀ row, importedRow db c.alias_ = some row →
      ∀ other ∈ running, other.phase.owned ≠ some row.id)
    (new : ∀ other ∈ running, other.phase.owned ≠ some (nextId db)) :
    ∃ imported', upsertStep now imported c = some imported' ∧
      Deferral imported' deferred ids late ∧
      (∀ id ∈ ids, ∀ row, lookup imported' id = some row → lookup imported id = some row) ∧
      imported'.hosts.map late = db'.hosts.map (settle running) ∧
      imported'.folders = db'.folders ∧ imported'.tags = db'.tags := by
  have consistent := consistent_upserts same.consistent same.ran
  obtain ⟨final, -, later, hosts, folders, tags⟩ := same.replay
  -- The turn is taken on the rows as they will be, and from there before what is deferred.
  obtain ⟨result, again, settled⟩ := upsertStep_map keeps hosts folders taken
    (fun row found other named => settle_of_unowned (named ▸ known row found))
    (fun _ other named => settle_of_unowned (named ▸ new))
  -- What is deferred touches no row of the candidate.
  obtain ⟨imported', early, mapped⟩ := same.deferral.upsertStep_before consistent later
    (hosts.trans same.hosts.symm) (folders.trans same.folders.symm) again spared
  obtain ⟨filed, tagged⟩ := upsertStep_frame early
  obtain ⟨filed', tagged'⟩ := upsertStep_frame taken
  refine ⟨imported', early, same.deferral.upsert consistent early spared, ?_,
    mapped.symm.trans settled, (filed.trans same.folders).trans filed'.symm,
    (tagged.trans same.tags).trans tagged'.symm⟩
  intro id among row found
  exact (same.deferral.lookup_upsert consistent early spared id among).symm.trans found

/-- A turn of the import that is under way, or of one that begins, leaves the hosts explained. -/
theorem Explained.turn {c : Candidate} {now : Int}
    (explained : Explained start db running succeeded)
    (keeps : KeepsOrigins (settle running) db.hosts) (taken : upsertStep now db c = some db')
    (known : ∀ row, importedRow db c.alias_ = some row →
      ∀ other ∈ running, other.phase.owned ≠ some row.id)
    (new : ∀ other ∈ running, other.phase.owned ≠ some (nextId db))
    (settled : settle running' = settle running) (jobs : committed running' = committed running)
    (written : writtenBy running' = writtenBy running ++ [(now, c)])
    (awaited : writtenBy running = [] ∨
      ((now, c) ∈ awaitedBy running ∧ ∀ item ∈ awaitedBy running', item ∈ awaitedBy running)) :
    Explained start db' running' succeeded := by
  -- What is deferred spares the candidate, as it is still to be written, or there is nothing.
  obtain ⟨order, deferred, reached, imported, ids, late, ran, perm, same, spared, left⟩ :
      ∃ order deferred reached imported ids late,
      System.run serialStep start order = some reached ∧
      (order ++ deferred).Perm (succeeded ++ committed running) ∧
      Matches db running reached imported deferred ids late ∧
      (∀ id ∈ ids, ∀ row, lookup imported id = some row → ¬ImportedAs c row) ∧
      ∀ id ∈ ids, ∀ row, lookup imported id = some row →
        ¬ImportedIn (awaitedBy running') row := by
    rcases awaited with idle | ⟨among, fewer⟩
    · obtain ⟨order, reached, ran, perm, consistent, hosts, folders, tags⟩ := explained.flat idle
      refine ⟨order, [], reached, reached.db, [], fun row => row, ran, ?_,
        matches_of_flat consistent hosts folders tags idle, ?_, ?_⟩
      · rw [List.append_nil]
        exact perm
      · intro id among
        exact absurd among List.not_mem_nil
      · intro id among
        exact absurd among List.not_mem_nil
    · obtain ⟨order, deferred, reached, imported, ids, late, ran, perm, same⟩ := explained
      refine ⟨order, deferred, reached, imported, ids, late, ran, perm, same, ?_, ?_⟩
      · -- A candidate that is awaited was promised to be spared.
        intro id listed row found imports
        exact same.spared id listed row found ⟨(now, c), among, imports⟩
      · rintro id listed row found ⟨item, still, imports⟩
        exact same.spared id listed row found ⟨item, fewer item still, imports⟩
  obtain ⟨imported', turned, deferral, lookups, hosts, folders, tags⟩ :=
    same.turn spared keeps taken known new
  refine ⟨order, deferred, reached, imported', ids, late, ran, ?_, same.consistent, ?_, deferral,
    ?_, ?_, folders, tags⟩
  · rw [jobs]
    exact perm
  · -- The imports under way go one turn further.
    have stepped : timedUpsert imported (now, c) = some imported' := turned
    rw [written, System.run_append, same.ran, Option.bind_some, System.run_cons stepped]
    rfl
  · intro id among row found
    exact left id among row (lookups id among row found)
  · rw [settled]
    exact hosts

/-- An import that has written all of its candidates is taken where they were written. -/
theorem Explained.finish {before after : List Worker} {handled : List Candidate}
    (explained : Explained start db (before ++ ⟨job, .finding handled []⟩ :: after) succeeded)
    (asked : job.command = .importSshConfig handled) (idle : writtenBy (before ++ after) = []) :
    Explained start db (before ++ after) (succeeded ++ [job]) := by
  obtain ⟨order, deferred, reached, imported, ids, late, ran, perm, same⟩ := explained
  obtain ⟨final, onward, consistent, hosts, folders, tags⟩ := same.replay
  obtain ⟨command, faults, now⟩ := job
  cases asked
  have upserts := same.ran
  rw [writtenBy_append] at idle
  obtain ⟨first, last⟩ := List.append_eq_nil_iff.mp idle
  rw [writtenBy_append, writtenBy_cons, first, last, List.nil_append, List.append_nil] at upserts
  -- Alone, the import writes the very candidates that it has written here.
  have taken : serialStep reached ⟨.importSshConfig handled, faults, now⟩ =
      some { reached with db := imported } :=
    serialStep_eq_some.mpr (importSshConfig_of_run upserts)
  -- What was deferred comes behind the whole import.
  have led : System.run serialStep start
      (order ++ ⟨.importSshConfig handled, faults, now⟩ :: deferred) = some final := by
    rw [System.run_append, ran, Option.bind_some, System.run_cons taken]
    exact onward
  refine explained_of_run led ?_ consistent ?_ folders tags
    (by rw [writtenBy_append, first, last]; rfl)
  · refine List.perm_middle.trans ?_
    rw [List.append_assoc]
    refine (List.Perm.cons _ perm).trans ?_
    simp only [committed_append, committed_cons, Phase.tail, Option.isSome_none,
      Bool.false_eq_true, if_false]
    exact List.perm_middle.symm
  · rw [hosts]
    refine List.map_congr_left fun row _ => ?_
    exact @settle_insert before after
      [⟨⟨.importSshConfig handled, faults, now⟩, .finding handled []⟩] row (by simp [Phase.owned])

end Explaining

end Tern.Desktop
