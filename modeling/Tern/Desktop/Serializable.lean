import Mathlib.Data.List.Permutation
import Tern.Desktop.Serial

/-! Every call keeps the sequential run that explains the hosts, as long as none is disturbed. -/

namespace Tern.Desktop

open Tern.Store

section Exchanges

variable {start state state' : AppState} {db : Database} {before after old new rest : List Worker}
  {succeeded succeeded' : List Job} {one other : Worker} {job : Job} {id : Int}
  {secret : SecretUpdateDto} {row : HostRow}

/-- A command that owns a row has a tail. -/
theorem Phase.tail_of_owned {phase : Phase} (owned : phase.owned = some id) :
    phase.tail = some id := by
  -- The phases that own a row are those behind its first write.
  cases phase with
  | tagging host tags secret =>
    by_cases left : secret = .unchanged
    · simp [Phase.owned, left] at owned
    · simp only [Phase.owned, left, if_false] at owned
      exact owned
  | readingSecret host secret => exact owned
  | writingSecret record => exact owned
  | _ => cases owned

/-- A command that has written nothing yet is apart from any other. -/
theorem apart_of_idle (idle : one.phase.tail = none) (unwritten : one.phase.handled = []) :
    Apart one other := by
  refine ⟨?_, .inl unwritten⟩
  intro id owned
  rw [Phase.tail_of_owned owned] at idle
  cases idle

/-- Commands that may run beside others, as far as what they rely on goes. -/
structure Fits (db : Database) (rest new : List Worker) : Prop where
  kept : ∀ other ∈ rest, Sound db other.job other.phase
  fresh : ∀ one ∈ new, Sound db one.job one.phase
  alone : new.Pairwise Apart
  apart : ∀ one ∈ new, ∀ other ∈ rest, Apart one other

/-- What runs on without a command fits when the others do. -/
theorem fits_nil (kept : ∀ other ∈ rest, Sound db other.job other.phase) : Fits db rest [] :=
  ⟨kept, fun _ member => absurd member List.not_mem_nil, .nil,
    fun _ member => absurd member List.not_mem_nil⟩

/-- One command fits beside others that it is apart from. -/
theorem fits_singleton (kept : ∀ other ∈ rest, Sound db other.job other.phase)
    (fresh : Sound db one.job one.phase) (apart : ∀ other ∈ rest, Apart one other) :
    Fits db rest [one] :=
  ⟨kept, List.forall_mem_singleton.mpr fresh, List.pairwise_singleton Apart one,
    List.forall_mem_singleton.mpr apart⟩

/-- The others among the commands that run are sound. -/
theorem Accounted.others
    (accounted : Accounted start ⟨state, before ++ (old ++ after), succeeded⟩) :
    ∀ other ∈ before ++ after, Sound state.db other.job other.phase := by
  -- A command before or after this one is one of all that run.
  intro other member
  refine accounted.sound other ?_
  rcases List.mem_append.mp member with first | last
  · exact List.mem_append_left _ first
  · exact List.mem_append_right _ (List.mem_append_right _ last)

/-- A command that runs is sound. -/
theorem Accounted.mine
    (accounted : Accounted start ⟨state, before ++ ([one] ++ after), succeeded⟩) :
    Sound state.db one.job one.phase :=
  accounted.sound one
    (List.mem_append_right _ (List.mem_append_left _ (List.mem_singleton_self one)))

/-- A command is exchanged for what fits beside the others, if that is explained. -/
theorem Accounted.exchange
    (accounted : Accounted start ⟨state, before ++ (old ++ after), succeeded⟩)
    (consistent : Consistent state'.db) (fits : Fits state'.db (before ++ after) new)
    (explained : Explained start state'.db (before ++ (new ++ after)) succeeded') :
    Accounted start ⟨state', before ++ (new ++ after), succeeded'⟩ := by
  refine ⟨consistent, ?_, ?_, explained⟩
  · -- Each command is one of those that stay or one of the new ones.
    intro one member
    rcases List.mem_append.mp member with first | rest
    · exact fits.kept one (List.mem_append_left _ first)
    · rcases List.mem_append.mp rest with fresh | last
      · exact fits.fresh one fresh
      · exact fits.kept one (List.mem_append_right _ last)
  · exact apart_exchange accounted.apart fits.apart fits.alone

/-- A call that leaves the rows as they will be is accounted for by the same sequential run. -/
theorem Accounted.quiet
    (accounted : Accounted start ⟨state, before ++ (old ++ after), succeeded⟩)
    (consistent : Consistent state'.db) (fits : Fits state'.db (before ++ after) new)
    (hosts : state'.db.hosts.map (settle (before ++ (new ++ after))) =
      state.db.hosts.map (settle (before ++ (old ++ after))))
    (folders : state'.db.folders = state.db.folders) (tags : state'.db.tags = state.db.tags)
    (written : writtenBy new = writtenBy old) (awaited : awaitedBy new = awaitedBy old)
    (jobs : (succeeded ++ committed old).Perm (succeeded' ++ committed new)) :
    Accounted start ⟨state', before ++ (new ++ after), succeeded'⟩ := by
  refine accounted.exchange consistent fits ?_
  refine accounted.explained.quiet hosts folders tags ?_ ?_ ?_
  · simp only [writtenBy_append, written]
  · simp only [awaitedBy_append, awaited]
  · -- The commands beside it come after it on both sides.
    have aside : ∀ (done : List Job) (middle : List Worker),
        (done ++ committed (before ++ (middle ++ after))).Perm
          (done ++ committed middle ++ committed (before ++ after)) := by
      intro done middle
      simp only [committed_append, List.append_assoc]
      exact (List.perm_append_comm_assoc ..).append_left done
    exact (aside succeeded old).trans ((jobs.append_right _).trans (aside succeeded' new).symm)

/-- Rows are settled alike with and without commands that own none. -/
theorem map_settle_unowned {hosts : List HostRow} (unowned : ∀ one ∈ old, one.phase.owned = none)
    (likewise : ∀ one ∈ new, one.phase.owned = none) :
    hosts.map (settle (before ++ (new ++ after))) =
      hosts.map (settle (before ++ (old ++ after))) := by
  -- Commands that own no row may as well be left out.
  have spared : ∀ (some_ : List Worker) (row : HostRow), (∀ one ∈ some_, one.phase.owned = none) →
      settle (before ++ (some_ ++ after)) row = settle (before ++ after) row := by
    intro some_ row nothing
    refine settle_insert fun one member => ?_
    rw [nothing one member]
    exact (Option.some_ne_none row.id).symm
  exact List.map_congr_left fun row _ =>
    (spared new row likewise).trans (spared old row unowned).symm

/-- A command that has written nothing yet explains nothing. -/
theorem Explained.without (explained : Explained start db (before ++ ([one] ++ after)) succeeded)
    (idle : one.phase.tail = none) (unwritten : one.phase.handled = []) :
    Explained start db (before ++ after) succeeded := by
  -- A command that is not past its first write owns nothing.
  have unowned : one.phase.owned = none := by
    cases owned : one.phase.owned with
    | none => rfl
    | some id =>
      rw [Phase.tail_of_owned owned] at idle
      cases idle
  refine explained.quiet ?_ rfl rfl ?_ ?_ ?_
  · exact @map_settle_unowned before after [one] [] db.hosts (by simpa using unowned) (by simp)
  · simp [unwritten]
  · simp [unwritten]
  · simp [idle]

end Exchanges

section Commits

variable {start state : AppState} {db db' : Database} {before after new : List Worker}
  {succeeded succeeded' : List Job} {one : Worker} {job : Job} {phase : Phase} {id : Int}
  {secret : SecretUpdateDto} {row : HostRow}

/-- What is left of a command that has written: to treat the secret of its row, at most. -/
structure Leftover (before after : List Worker) (now id : Int) (secret : SecretUpdateDto)
    (new : List Worker) : Prop where
  owned : ∀ one ∈ new, ∀ key, one.phase.owned = some key → key = id ∧ secret ≠ .unchanged
  handled : ∀ one ∈ new, one.phase.handled = []
  alone : new.Pairwise Apart
  settles : (∀ other ∈ before ++ after, other.phase.owned ≠ some id) → ∀ row : HostRow,
    row.id = id → settle (before ++ (new ++ after)) row = secretEffect now secret row

/-- Nothing is left of a command that leaves the secret alone. -/
theorem leftover_nil (now id : Int) : Leftover before after now id .unchanged [] := by
  -- No command is left, so it owns no row and nobody has to wait for it.
  refine ⟨?_, ?_, .nil, ?_⟩
  · intro one member
    exact absurd member List.not_mem_nil
  · intro one member
    exact absurd member List.not_mem_nil
  · intro unowned row named
    rw [secretEffect_unchanged]
    exact settle_of_unowned (named ▸ unowned)

/-- One command is left that owns its row when there is a secret to treat. -/
theorem leftover_singleton {now : Int}
    (owned : one.phase.owned = if secret = .unchanged then none else some id)
    (handled : one.phase.handled = [])
    (effect : secret ≠ .unchanged → one.phase.effect one.job.now = secretEffect now secret) :
    Leftover before after now id secret [one] := by
  refine ⟨?_, List.forall_mem_singleton.mpr handled, List.pairwise_singleton Apart one, ?_⟩
  · intro other member key has
    rw [List.mem_singleton.mp member, owned] at has
    split at has
    · cases has
    · rename_i left
      exact ⟨(Option.some.inj has).symm, left⟩
  · intro unowned row named
    -- Without a secret to treat the row is settled as it is, and else by this command.
    by_cases left : secret = .unchanged
    · rw [if_pos left] at owned
      rw [left, secretEffect_unchanged, settle_insert, settle_of_unowned (named ▸ unowned)]
      intro other member
      rw [List.mem_singleton.mp member, owned]
      exact (Option.some_ne_none row.id).symm
    · rw [if_neg left] at owned
      rw [← effect left]
      exact settle_of_owned (named ▸ unowned) (named ▸ owned)

/-- What is left of a command fits beside others when they do not own its row. -/
theorem Leftover.fits {now : Int} (leftover : Leftover before after now id secret new)
    (kept : ∀ other ∈ before ++ after, Sound db other.job other.phase)
    (fresh : ∀ one ∈ new, Sound db one.job one.phase)
    (unowned : secret ≠ .unchanged → ∀ other ∈ before ++ after, other.phase.owned ≠ some id) :
    Fits db (before ++ after) new := by
  -- Who is left owns at most the one row, which by assumption nobody else does.
  refine ⟨kept, fresh, leftover.alone, ?_⟩
  intro one member other among
  refine ⟨?_, .inl (leftover.handled one member)⟩
  intro key owned
  obtain ⟨rfl, left⟩ := leftover.owned one member key owned
  exact unowned left other among

/-- What is left of a command settles the rows of other ids as before. -/
theorem Leftover.spares {now : Int} (leftover : Leftover before after now id secret new)
    (apart : ¬(row.id = id ∧ secret ≠ .unchanged)) :
    settle (before ++ (new ++ after)) row = settle (before ++ after) row :=
  settle_insert fun one member owned => apart (leftover.owned one member row.id owned)

/-- What is left of a command is no import. -/
theorem Leftover.written {now : Int} (leftover : Leftover before after now id secret new) :
    writtenBy new = [] ∧ awaitedBy new = [] := by
  refine ⟨writtenBy_eq_nil.mpr leftover.handled, List.flatMap_eq_nil_iff.mpr ?_⟩
  intro one member
  rw [leftover.handled one member]
  rfl

/-- Exchanging a command for what is left of it commits its job. -/
theorem committed_perm (jobs : (succeeded ++ [job]).Perm (succeeded' ++ committed new)) :
    (succeeded ++ committed (before ++ after) ++ [job]).Perm
      (succeeded' ++ committed (before ++ (new ++ after))) := by
  -- The other commands that are past their write stand between, and are moved aside.
  refine List.Perm.trans ?_ ((jobs.append_right (committed (before ++ after))).trans ?_)
  · rw [List.append_assoc, List.append_assoc]
    exact List.perm_append_comm.append_left succeeded
  · simp only [committed_append, List.append_assoc]
    exact (List.perm_append_comm_assoc ..).symm.append_left succeeded'

/-- The rows that the others own are there. -/
theorem Accounted.owned_ne
    (accounted : Accounted start ⟨state, before ++ ([one] ++ after), succeeded⟩)
    (missing : lookup state.db id = none) :
    ∀ other ∈ before ++ after, other.phase.owned ≠ some id := by
  intro other member owned
  -- A sound command finds the row that it owns.
  obtain ⟨row, found, -⟩ := (accounted.others other member).owned owned
  rw [missing] at found
  cases found

/-- An insert is taken last, with the secret that is to be treated. -/
theorem Accounted.insert {dto : NewHostDto} {submitted : Option String}
    (accounted : Accounted start ⟨state, before ++ ([⟨job, phase⟩] ++ after), succeeded⟩)
    (idle : phase.tail = none) (unwritten : phase.handled = [])
    (asked : job.command = .createHost dto submitted)
    (created : create job.now state.db (draftOfDto dto) = .ok (id, db'))
    (quiet : writtenBy (before ++ after) = []) (known : TagsKnown state.db dto.tags)
    (takes : Takes job.faults (hostOfDraft (nextId state.db) job.now (draftOfDto dto))
      (secretOf submitted))
    (leftover : Leftover before after job.now id (secretOf submitted) new)
    (fresh : ∀ one ∈ new, Sound db' one.job one.phase)
    (jobs : (succeeded ++ [job]).Perm (succeeded' ++ committed new)) :
    Accounted start ⟨{ state with db := db' }, before ++ (new ++ after), succeeded'⟩ := by
  have consistent : Consistent state.db := accounted.consistent
  have accepted : checkRow state.db (rowOf (hostOfDraft (nextId state.db) job.now
      (draftOfDto dto))) = .ok () := by
    obtain ⟨_, accepted, -⟩ := bind_eq_ok created
    exact accepted
  obtain ⟨rfl, inserted⟩ := create_eq created
  have unowned := accounted.owned_ne (lookup_nextId state.db)
  have others := accounted.others
  have keeps := keepsOrigins_settle consistent.unique others
  refine accounted.exchange (consistent.create created) (leftover.fits ?_ fresh fun _ => unowned) ?_
  · -- The other commands find their rows as they were.
    have same : ∀ key row, lookup state.db key = some row → lookup db' key = some row := by
      intro key row found
      rw [lookup_create created, if_neg ?_]
      · exact found
      · rintro rfl
        rw [lookup_nextId] at found
        cases found
    intro other member
    refine (others other member).kept (by rw [inserted]) (by rw [inserted]) ?_ ?_
    · rintro key - ⟨row, found⟩
      exact ⟨row, same key row found⟩
    · intro key row _ found
      exact ⟨_, _, same key row found⟩
  · obtain ⟨order, reached, ran, perm, stable, hosts, folders, tags⟩ :=
      (accounted.explained.without idle unwritten).flat quiet
    -- The sequential run has the same ids, so that the insert is given the same one.
    have ids : nextId reached.db = nextId state.db := nextId_congr (hosts ▸ keeps.ids)
    have likewise : TagsKnown reached.db dto.tags := known.congr tags
    have welcome : checkRow reached.db (rowOf (hostOfDraft (nextId reached.db) job.now
        (draftOfDto dto))) = .ok () := by
      obtain ⟨valid, -⟩ := checkRow_eq_ok_iff.mp accepted
      rw [ids]
      refine checkRow_eq_ok_iff.mpr ⟨folders ▸ valid, ?_⟩
      -- What is created by hand has no alias to clash.
      rintro ⟨-, given, -⟩
      cases given
    -- Alone, the creation succeeds on the sequential store, with the same row.
    obtain ⟨next, taken, rows, filed, tagged⟩ := @createHost_of_accepted job.now job.faults reached
      dto submitted welcome likewise (ids ▸ takes) stable.unique
    -- The clock and the faults are those of the job.
    have step : serialStep reached job = some next := by
      obtain ⟨command, faults, now⟩ := job
      cases asked
      exact serialStep_eq_some.mpr taken
    -- The creation goes behind everything that was taken before.
    have onward : System.run serialStep start (order ++ [job]) = some next := by
      rw [System.run_append, ran, Option.bind_some, System.run_cons step]
      rfl
    rw [writtenBy_append] at quiet
    refine explained_of_run onward ?_ ?_ ?_ ?_ ?_ (by simpa [leftover.written] using quiet)
    · exact (perm.append_right [job]).trans (committed_perm jobs)
    · exact @consistent_run reached [job] next stable (System.run_cons step)
    · -- The new row is settled by what is left of its command, and no other row is.
      rw [rows, hosts, inserted, List.map_append, List.map_singleton, ids,
        leftover.settles unowned _ rfl]
      refine congrArg (fun rows => rows ++ _) (List.map_congr_left fun row member => ?_)
      refine (leftover.spares fun same => ?_).symm
      exact List.find?_eq_none.mp (lookup_nextId state.db) row member (decide_eq_true same.1)
    · rw [filed, folders, inserted]
    · rw [tagged, tags, inserted]

/-- Writing one row changes one row of those that are settled. -/
theorem map_settle_write {written : HostRow} {write : HostRow → HostRow}
    {running running' : List Worker} (unique : (db.hosts.map HostRow.id).Nodup)
    (member : row ∈ db.hosts) (keeps : KeepsOrigins (settle running) db.hosts)
    (hosts : db'.hosts = db.hosts.map (rewriteAt row.id write))
    (settled : settle running' (write row) = written)
    (others : ∀ other : HostRow, other.id ≠ row.id → settle running' other = settle running other) :
    db'.hosts.map (settle running') =
      (db.hosts.map (settle running)).map (rewriteAt row.id fun _ => written) := by
  rw [hosts, List.map_map, List.map_map]
  refine List.map_congr_left fun other among => ?_
  have named := keeps.id_eq among
  -- The row that is written settles to what the command makes of it, and the others are spared.
  by_cases same : other.id = row.id
  · obtain rfl : other = row := List.inj_on_of_nodup_map unique among member same
    rw [Function.comp_apply, Function.comp_apply, rewriteAt_of_eq rfl, rewriteAt_of_eq named,
      settled]
  · rw [Function.comp_apply, Function.comp_apply, rewriteAt_of_ne same,
      rewriteAt_of_ne (fun equal => same (named.symm.trans equal)), others other same]

/-- A write to one row is taken as late as the imports that are under way allow. -/
theorem Accounted.write {written : HostRow} {write : HostRow → HostRow}
    (accounted : Accounted start ⟨state, before ++ ([⟨job, phase⟩] ++ after), succeeded⟩)
    (idle : phase.tail = none) (unwritten : phase.handled = [])
    (member : row ∈ state.db.hosts) (unvisited : ¬Revisited (before ++ after) row)
    (rewrites : Rewrites state.db job (settle (before ++ after) row) written)
    (hosts : db'.hosts = state.db.hosts.map (rewriteAt row.id write))
    (folders : db'.folders = state.db.folders) (tags : db'.tags = state.db.tags)
    (settled : settle (before ++ (new ++ after)) (write row) = written)
    (leftover : Leftover before after job.now row.id secret new)
    (consistent : Consistent db') (fits : Fits db' (before ++ after) new)
    (jobs : (succeeded ++ [job]).Perm (succeeded' ++ committed new)) :
    Accounted start ⟨{ state with db := db' }, before ++ (new ++ after), succeeded'⟩ := by
  -- The command had written nothing, so it is taken out and put back with its write.
  have keeps := keepsOrigins_settle accounted.consistent.unique accounted.others
  refine accounted.exchange consistent fits ?_
  exact (accounted.explained.without idle unwritten).commit member (keeps row member) unvisited
    rewrites
    (map_settle_write accounted.consistent.unique member keeps hosts settled
      fun other apart => leftover.spares fun here => apart here.1)
    folders tags (by simp [leftover.written]) (by simp [leftover.written]) (committed_perm jobs)

/-- A command relies on nothing but the count in a row that it does not own. -/
theorem Sound.rewritten {write : HostRow → HostRow} (sound : Sound db job phase)
    (keeps : KeepsOrigins (rewriteAt id write) db.hosts)
    (hosts : db'.hosts = db.hosts.map (rewriteAt id write)) (folders : db'.folders = db.folders)
    (tags : db'.tags = db.tags)
    (spared : phase.owned ≠ some id ∨ ∀ row, ∃ at_ count,
      write row = { row with lastConnectedAt := at_, connectCount := count }) :
    Sound db' job phase := by
  have lookups := lookup_rewrite keeps hosts
  refine sound.kept folders tags ?_ ?_
  · rintro key - ⟨row, found⟩
    exact ⟨_, by rw [lookups, found]; rfl⟩
  · intro key row owned found
    rw [lookups, found, Option.map_some]
    -- The row that is written is not owned, or only its count is another.
    by_cases same : row.id = id
    · rw [rewriteAt_of_eq same]
      rcases spared with apart | counts
      · exact absurd ((lookup_id found).symm.trans same ▸ owned) apart
      · obtain ⟨at_, count, written⟩ := counts row
        exact ⟨at_, count, congrArg some written⟩
    · rw [rewriteAt_of_ne same]
      exact ⟨_, _, rfl⟩

/-- Commands that own the same row, and make the same of it, settle rows alike. -/
theorem settle_exchange {two : Worker} (owned : two.phase.owned = one.phase.owned)
    (effect : one.phase.owned = some row.id →
      two.phase.effect two.job.now row = one.phase.effect one.job.now row) :
    settle (before ++ ([two] ++ after)) row = settle (before ++ ([one] ++ after)) row := by
  unfold settle
  rw [List.find?_append, List.find?_append, List.find?_append, List.find?_append]
  -- A row that an earlier command owns is settled by that one.
  cases before.find? fun other => other.phase.owned = some row.id with
  | some other => rfl
  | none =>
    by_cases here : one.phase.owned = some row.id
    · simp only [Option.none_or, List.find?_cons, owned, here, decide_true, Option.some_or]
      exact effect here
    · simp only [Option.none_or, List.find?_cons, owned, here, decide_false, List.find?_nil]

/-- Settling a row and counting its connections may change places. -/
theorem settle_stats {running : List Worker} (row : HostRow) (at_ : Option Int) (count : Int) :
    settle running { row with lastConnectedAt := at_, connectCount := count } =
      { settle running row with lastConnectedAt := at_, connectCount := count } := by
  unfold settle
  dsimp only
  cases running.find? fun worker => worker.phase.owned = some row.id with
  | none => rfl
  | some worker =>
    dsimp only
    -- Only commands with a secret to treat change the row, and not in its count.
    cases worker.phase with
    | tagging host tags secret => exact secretEffect_stats ..
    | readingSecret host secret => exact secretEffect_stats ..
    | _ => rfl

/-- A settled row counts the connections of the row. -/
theorem settle_connectCount (running : List Worker) (row : HostRow) :
    (settle running row).connectCount = row.connectCount := by
  have counted : settle running row = { settle running row with
      lastConnectedAt := row.lastConnectedAt, connectCount := row.connectCount } :=
    settle_stats row row.lastConnectedAt row.connectCount
  rw [counted]

end Commits

section Calls

variable {start state state' : AppState} {before after : List Worker} {succeeded : List Job}
  {one : Worker} {job : Job} {phase following : Phase} {id : Int} {secret : SecretUpdateDto}

/-- The commands once a call has led to its turn. -/
def landed (before after : List Worker) (succeeded : List Job) (job : Job) :
    AppState × Turn → Concurrent
  | (state, .next phase) => ⟨state, before ++ ([⟨job, phase⟩] ++ after), succeeded⟩
  | (state, .done (.ok ())) => ⟨state, before ++ ([] ++ after), succeeded ++ [job]⟩
  | (state, .done (.error _)) => ⟨state, before ++ ([] ++ after), succeeded⟩

/-- A command that has written nothing may fail. -/
theorem Accounted.fail
    (accounted : Accounted start ⟨state, before ++ ([⟨job, phase⟩] ++ after), succeeded⟩)
    (idle : phase.tail = none) (unwritten : phase.handled = []) (same : state'.db = state.db) :
    Accounted start ⟨state', before ++ ([] ++ after), succeeded⟩ := by
  refine accounted.exchange (same ▸ accounted.consistent) (fits_nil (same ▸ accounted.others)) ?_
  exact same ▸ accounted.explained.without idle unwritten

/-- A command that has written nothing yet owns nothing. -/
theorem Phase.owned_of_idle (idle : phase.tail = none) : phase.owned = none := by
  -- A command owns a row only behind its first write.
  cases owned : phase.owned with
  | none => rfl
  | some id =>
    rw [Phase.tail_of_owned owned] at idle
    cases idle

/-- A command that only reads leaves the others where they are. -/
theorem Accounted.read
    (accounted : Accounted start ⟨state, before ++ ([⟨job, phase⟩] ++ after), succeeded⟩)
    (idle : phase.tail = none) (still : following.tail = none)
    (handled : following.handled = phase.handled) (left : following.left = phase.left)
    (sound : Sound state.db job following) :
    Accounted start ⟨state, before ++ ([⟨job, following⟩] ++ after), succeeded⟩ := by
  -- Reading changes no row, and the command owns none before or after.
  have apart := apart_of_middle accounted.apart
  refine accounted.quiet accounted.consistent (fits_singleton accounted.others sound ?_) ?_ rfl rfl
    ?_ ?_ ?_
  · intro other member
    refine ⟨?_, ?_⟩
    · intro id owned
      rw [Phase.owned_of_idle still] at owned
      cases owned
    · have unwritten := (apart other member).handled
      rw [← handled] at unwritten
      exact unwritten
  · exact map_settle_unowned (by simpa using Phase.owned_of_idle idle)
      (by simpa using Phase.owned_of_idle still)
  · simp [handled]
  · simp [handled, left]
  · simp [idle, still]

/-- A move is taken as one write. -/
theorem Accounted.moving {folderId : Option Int}
    (accounted :
      Accounted start ⟨state, before ++ ([⟨job, .moving id folderId⟩] ++ after), succeeded⟩)
    (undisturbed : Undisturbed state.db (before ++ after) job (.moving id folderId)) :
    Accounted start (landed before after succeeded job (call job state (.moving id folderId))) := by
  have asked : job.command = .moveHost id folderId := accounted.mine
  simp only [call]
  cases moved : moveToFolder job.now state.db id folderId with
  | error reason => exact accounted.fail rfl rfl rfl
  | ok db =>
    have consistent := accounted.consistent.moveToFolder moved
    obtain ⟨filed, rfl⟩ := moveToFolder_eq moved
    cases found : lookup state.db id with
    | none => simp [moveToFolder, found] at moved
    | some row =>
      have free := undisturbed row found filed
      have member := List.mem_of_find?_eq_some found
      obtain rfl := lookup_id found
      have settled := settle_of_unowned free.unowned
      -- Nobody owns the row, so that it is settled already and the move writes it alone.
      have rewrites : Rewrites state.db job row
          { row with folderId := folderId, updatedAt := job.now } := by
        obtain ⟨command, faults, now⟩ := job
        cases asked
        exact rewrites_moveHost filed
      -- Filing a row keeps what says where it is from.
      have keeps : KeepsOrigins (rewriteAt row.id fun row =>
          { row with folderId := folderId, updatedAt := job.now }) state.db.hosts := by
        intro other _
        unfold rewriteAt
        split <;> rfl
      refine accounted.write rfl rfl member free.unvisited (settled.symm ▸ rewrites) rfl rfl rfl
        (settle_of_unowned free.unowned) (leftover_nil job.now row.id) consistent (fits_nil ?_)
        (by simp)
      intro other among
      exact (accounted.others other among).rewritten keeps rfl rfl rfl
        (.inl (free.unowned other among))

/-- A command that finds no row to change succeeds without a trace. -/
theorem Accounted.nothing {db : Database}
    (accounted : Accounted start ⟨state, before ++ ([⟨job, phase⟩] ++ after), succeeded⟩)
    (idle : phase.tail = none) (unwritten : phase.handled = [])
    (missing : lookup state.db id = none)
    (succeeds : ∀ state : AppState, lookup state.db id = none →
      ∃ next, serialStep state job = some next ∧ next.db.hosts = state.db.hosts ∧
        next.db.folders = state.db.folders ∧ next.db.tags = state.db.tags)
    (hosts : db.hosts = state.db.hosts) (folders : db.folders = state.db.folders)
    (tags : db.tags = state.db.tags) :
    Accounted start ⟨{ state with db := db }, before ++ ([] ++ after), succeeded ++ [job]⟩ := by
  have consistent : Consistent state.db := accounted.consistent
  have lookups : ∀ key, lookup db key = lookup state.db key := by
    intro key
    unfold lookup
    rw [hosts]
  -- The rows stay, so that the others find theirs as before.
  refine accounted.exchange ?_ (fits_nil ?_) ?_
  · exact ⟨hosts ▸ consistent.unique, folders ▸ hosts ▸ consistent.valid, hosts ▸ consistent.free⟩
  · intro other member
    refine (accounted.others other member).kept folders tags ?_ ?_
    · rintro key - ⟨row, found⟩
      exact ⟨row, (lookups key).trans found⟩
    · intro key row _ found
      exact ⟨_, _, (lookups key).trans found⟩
  · refine (accounted.explained.without idle unwritten).idle
      (keepsOrigins_settle consistent.unique accounted.others) missing succeeds ?_ folders tags
        rfl rfl
      (committed_perm (by simp))
    rw [hosts]
    rfl

/-- Giving a host its tags changes no row. -/
theorem Accounted.settingTags {tagIds : List Int}
    (accounted :
      Accounted start ⟨state, before ++ ([⟨job, .settingTags id tagIds⟩] ++ after), succeeded⟩)
    (undisturbed : Undisturbed state.db (before ++ after) job (.settingTags id tagIds)) :
    Accounted start
      (landed before after succeeded job (call job state (.settingTags id tagIds))) := by
  have asked : job.command = .setHostTags id tagIds := accounted.mine
  simp only [call]
  cases done : setTags state.db id tagIds with
  | error reason => exact accounted.fail rfl rfl rfl
  | ok db =>
    have hosts := hosts_setTags done
    obtain ⟨folders, tags⟩ := frame_setTags done
    cases found : lookup state.db id with
    | none =>
      -- A host that is not there can be given no tag, so there is none to give.
      obtain rfl : tagIds = [] := by
        cases tagIds with
        | nil => rfl
        | cons tag rest =>
          obtain ⟨pairs, inserted, -⟩ := bind_eq_ok done
          obtain ⟨next, first, -⟩ := bind_eq_ok inserted
          simp [insertTag, found] at first
      refine accounted.nothing rfl rfl found ?_ hosts folders tags
      intro other _
      obtain ⟨command, faults, now⟩ := job
      cases asked
      exact ⟨_, rfl, rfl, rfl, rfl⟩
    | some row =>
      -- Tags that could be given exist, so that the command alone gives them, too.
      have known := (setTags_iff ⟨row, found⟩ tagIds).mp ⟨db, done⟩
      have member := List.mem_of_find?_eq_some found
      have keeps := keepsOrigins_settle accounted.consistent.unique accounted.others
      have named := (keeps.id_eq member).trans (lookup_id found)
      have rewrites : Rewrites state.db job (settle (before ++ after) row)
          (settle (before ++ after) row) := by
        obtain ⟨command, faults, now⟩ := job
        cases asked
        exact named ▸ rewrites_setHostTags known
      -- In terms of rows, tagging writes each of them back as it is.
      have same : db.hosts = state.db.hosts.map (rewriteAt row.id fun row => row) :=
        hosts.trans (map_eq_self_iff.mpr fun _ _ _ => rfl).symm
      -- The row is written back as it is, so that every other command still finds its own.
      refine accounted.write rfl rfl member (undisturbed row found) rewrites same folders tags rfl
        (leftover_nil job.now row.id) (accounted.consistent.setTags done) (fits_nil ?_) (by simp)
      intro other among
      refine (accounted.others other among).rewritten (fun row _ => ?_) same folders tags
        (.inr fun row => ⟨_, _, rfl⟩)
      unfold rewriteAt
      split <;> rfl

/-- Counting a connection commutes with what is left to be done. -/
theorem Accounted.counting {at_ : Int}
    (accounted :
      Accounted start ⟨state, before ++ ([⟨job, .counting id at_⟩] ++ after), succeeded⟩)
    (undisturbed : Undisturbed state.db (before ++ after) job (.counting id at_)) :
    Accounted start (landed before after succeeded job (call job state (.counting id at_))) := by
  have asked : job.command = .recordConnection id at_ := accounted.mine
  show Accounted start ⟨{ state with db := recordConnection state.db id at_ },
    before ++ ([] ++ after), succeeded ++ [job]⟩
  cases found : lookup state.db id with
  | none =>
    -- Without a row of the id there is none whose count would be written.
    have unchanged : ∀ db : Database, lookup db id = none →
        (recordConnection db id at_).hosts = db.hosts := by
      intro db missing
      refine map_eq_self_iff.mpr fun row member named => ?_
      exact absurd (decide_eq_true named) (List.find?_eq_none.mp missing row member)
    refine accounted.nothing rfl rfl found ?_ (unchanged state.db found) rfl rfl
    intro other missing
    obtain ⟨command, faults, now⟩ := job
    cases asked
    exact ⟨_, rfl, unchanged other.db missing, rfl, rfl⟩
  | some row =>
    have member := List.mem_of_find?_eq_some found
    have keeps := keepsOrigins_settle accounted.consistent.unique accounted.others
    have named := (keeps.id_eq member).trans (lookup_id found)
    -- The count is of the settled row, which counts what the row itself does.
    have rewrites : Rewrites state.db job (settle (before ++ after) row)
        { settle (before ++ after) row with
          lastConnectedAt := some at_
          connectCount := (settle (before ++ after) row).connectCount + 1 } := by
      obtain ⟨command, faults, now⟩ := job
      cases asked
      exact named ▸ rewrites_recordConnection at_
    obtain rfl := lookup_id found
    -- Nothing is left of the command behind this call.
    refine accounted.write rfl rfl member (undisturbed row found) rewrites rfl rfl rfl ?_
      (leftover_nil job.now row.id) (accounted.consistent.recordConnection row.id at_)
      (fits_nil ?_) (by simp)
    · -- Settling and counting may change places.
      rw [settle_connectCount]
      exact settle_stats row (some at_) (row.connectCount + 1)
    · intro other among
      refine (accounted.others other among).rewritten (fun row _ => ?_) rfl rfl rfl
        (.inr fun row => ⟨_, _, rfl⟩)
      unfold rewriteAt
      split <;> rfl

/-- A deletion of a row that nobody looks at any more is taken last. -/
theorem Accounted.deleting
    (accounted : Accounted start ⟨state, before ++ ([⟨job, .deleting id⟩] ++ after), succeeded⟩)
    (undisturbed : Undisturbed state.db (before ++ after) job (.deleting id)) :
    Accounted start (landed before after succeeded job (call job state (.deleting id))) := by
  have asked : job.command = .deleteHost id := accounted.mine
  simp only [call, deleteHost]
  cases deleted : delete state.db id with
  | error reason => exact accounted.fail rfl rfl rfl
  | ok db =>
    obtain ⟨present, removed⟩ := delete_eq deleted
    obtain ⟨quiet, untouched⟩ := undisturbed present
    have keeps := keepsOrigins_settle accounted.consistent.unique accounted.others
    refine accounted.exchange (accounted.consistent.delete deleted) (fits_nil ?_) ?_
    · intro other member
      -- No other command has the row in hand, so that each finds its own.
      have lookups : ∀ key, other.phase.tail = some key → lookup db key = lookup state.db key := by
        intro key tail
        rw [lookup_delete deleted, if_neg ?_]
        rintro rfl
        exact untouched other member tail
      refine (accounted.others other member).kept (by rw [removed]) (by rw [removed]) ?_ ?_
      · rintro key tail ⟨row, found⟩
        exact ⟨row, (lookups key tail).trans found⟩
      · intro key row owned found
        exact ⟨_, _, (lookups key (Phase.tail_of_owned owned)).trans found⟩
    · obtain ⟨order, reached, ran, perm, stable, hosts, folders, tags⟩ :=
        (accounted.explained.without rfl rfl).flat quiet
      -- The host is there in the sequential run, too.
      obtain ⟨row, found⟩ := present
      have there : lookup reached.db id = some (settle (before ++ after) row) := by
        rw [lookup_rewrite keeps hosts, found]
        rfl
      obtain ⟨next, taken, rows, filed, tagged⟩ : ∃ next, serialStep reached job = some next ∧
          next.db.hosts = (reached.db.hosts.filter fun row => row.id ≠ id) ∧
          next.db.folders = reached.db.folders ∧ next.db.tags = reached.db.tags := by
        obtain ⟨command, faults, now⟩ := job
        cases asked
        obtain ⟨next, taken, left⟩ := @deleteHost_of_present now faults reached id ⟨_, there⟩
        exact ⟨next, serialStep_eq_some.mpr taken, left⟩
      -- The deletion goes behind everything that was taken before.
      have onward : System.run serialStep reached [job] = some next := System.run_cons taken
      refine explained_of_run (by rw [System.run_append, ran, Option.bind_some]; exact onward)
        ((perm.append_right [job]).trans (committed_perm (by simp)))
        (consistent_run stable onward) ?_ ?_ ?_ quiet
      · -- Settling keeps the ids, so the same row is taken out of both lists.
        rw [rows, hosts, removed, List.filter_map]
        refine congrArg (List.map _) (List.filter_congr fun row member => ?_)
        rw [Function.comp_apply, keeps.id_eq member]
      · rw [filed, folders, removed]
      · rw [tagged, tags, removed]

/-- What is left of a command past its tags. -/
theorem secretTurn_lands (state : AppState) (id : Int) (secret : SecretUpdateDto) :
    ∃ new succeeded', landed before after succeeded job (state, secretTurn id secret) =
        ⟨state, before ++ (new ++ after), succeeded'⟩ ∧
      Leftover before after job.now id secret new ∧
      (succeeded ++ [job]).Perm (succeeded' ++ committed new) ∧
      ∀ db, (secret ≠ .unchanged → Treatable db job.faults id secret) →
        ∀ one ∈ new, Sound db one.job one.phase := by
  -- The command is done when it leaves the secret alone, and else treats it next.
  by_cases left : secret = .unchanged
  · subst left
    refine ⟨[], succeeded ++ [job], rfl, leftover_nil job.now id, by simp, ?_⟩
    intro db _ one member
    exact absurd member List.not_mem_nil
  · refine ⟨[⟨job, .readingSecret id secret⟩], succeeded, ?_, ?_, by simp [Phase.tail], ?_⟩
    · cases secret with
      | unchanged => exact absurd rfl left
      | set text => rfl
      | clear => rfl
    · exact leftover_singleton (if_neg left).symm rfl fun _ => rfl
    · intro db treatable
      exact List.forall_mem_singleton.mpr (treatable left)

/-- A record that an update wrote can have its secret treated. -/
theorem treatable_of_update {now : Int} {faults : Faults} {db after : Database} {host : Host}
    (updated : update now db host = .ok after) (takes : Takes faults host secret) :
    Treatable after faults host.id secret := by
  obtain ⟨⟨row, found⟩, accepted, rfl⟩ := update_eq updated
  have plain := rowValid_rowOf_iff.mp (checkRow_eq_ok_iff.mp accepted).1
  -- What was written reads back as the record, with the row's own history.
  refine ⟨overwrite now host row, _, ?_, rowToHost_rowOf
    { host with
      lastConnectedAt := row.lastConnectedAt
      connectCount := row.connectCount
      createdAt := row.createdAt
      updatedAt := now }, takes.congr rfl rfl, rowValid_rowOf_iff.mpr plain⟩
  rw [lookup_update updated, if_pos rfl, found]
  rfl

/-- A record that was inserted can have its secret treated. -/
theorem treatable_of_create {now : Int} {faults : Faults} {db after : Database} {draft : NewHost}
    (created : create now db draft = .ok (id, after))
    (takes : Takes faults (hostOfDraft (nextId db) now draft) secret) :
    Treatable after faults id secret := by
  -- The row that went in is found under the new id, and was accepted by the schema.
  have accepted := accepted_of_create created
  have found := lookup_create created id
  obtain ⟨rfl, -⟩ := create_eq created
  rw [if_pos rfl] at found
  exact ⟨_, _, found, rowToHost_rowOf _, takes.congr rfl rfl, (checkRow_eq_ok_iff.mp accepted).1⟩

/-- A creation inserts its row. -/
theorem Accounted.inserting {dto : NewHostDto} {submitted : Option String}
    (accounted :
      Accounted start ⟨state, before ++ ([⟨job, .inserting dto submitted⟩] ++ after), succeeded⟩)
    (undisturbed : Undisturbed state.db (before ++ after) job (.inserting dto submitted)) :
    Accounted start
      (landed before after succeeded job (call job state (.inserting dto submitted))) := by
  have asked : job.command = .createHost dto submitted := accounted.mine
  simp only [call]
  cases created : create job.now state.db (draftOfDto dto) with
  | error reason => exact accounted.fail rfl rfl rfl
  | ok result =>
    obtain ⟨id, db⟩ := result
    -- What the store accepted was undisturbed, and its secret can be treated.
    obtain ⟨_, accepted, -⟩ := bind_eq_ok created
    obtain ⟨quiet, known, takes⟩ := undisturbed accepted
    have treatable := treatable_of_create created takes
    -- The tags come before the secret, if there are any.
    by_cases untagged : dto.tags.isEmpty = true
    · -- Without tags the secret's turn comes at once, if there is a secret.
      obtain ⟨new, succeeded', lands, leftover, jobs, fresh⟩ := @secretTurn_lands before after
        succeeded job { state with db := db } id (secretOf submitted)
      simp only [untagged, if_true, lands]
      exact accounted.insert rfl rfl asked created quiet known takes leftover
        (fresh db fun _ => treatable) jobs
    · simp only [untagged, Bool.false_eq_true, if_false]
      -- With them, both are left to be done.
      have leftover : Leftover before after job.now id (secretOf submitted)
          [⟨job, .tagging id dto.tags (secretOf submitted)⟩] :=
        leftover_singleton rfl rfl fun _ => rfl
      refine accounted.insert rfl rfl asked created quiet known takes leftover
        (List.forall_mem_singleton.mpr ⟨?_, ?_, fun _ => treatable⟩) (by simp [Phase.tail])
      · obtain ⟨row, host, found, -⟩ := treatable
        exact ⟨row, found⟩
      · rw [(create_eq created).2]
        exact known

/-- An update reads the record. -/
theorem Accounted.fetching {dto : HostDto}
    (accounted :
      Accounted start ⟨state, before ++ ([⟨job, .fetching dto secret⟩] ++ after), succeeded⟩) :
    Accounted start
      (landed before after succeeded job (call job state (.fetching dto secret))) := by
  have asked : job.command = .updateHost dto secret := accounted.mine
  simp only [call]
  cases shown : get state.db dto.id with
  | error reason => exact accounted.fail rfl rfl rfl
  | ok found =>
    -- A record that is read is kept in hand, and nothing is written yet.
    cases found with
    | none => exact accounted.fail rfl rfl rfl
    | some existing => exact accounted.read rfl rfl rfl rfl ⟨asked, get_id shown⟩

/-- An edit writes the same row of two records that agree in what it keeps. -/
theorem overwrite_edited {existing current : Host} (now : Int) (dto : HostDto)
    (same : SameUnedited existing current) (named : existing.id = current.id) :
    overwrite now (edited existing dto) = overwrite now (edited current dto) := by
  funext row
  simp only [overwrite, rowOf, edited, same.secretRef, same.source, same.sourceAlias, named]

/-- An update writes the fields of its form. -/
theorem Accounted.saving {existing : Host} {dto : HostDto}
    (accounted : Accounted start
      ⟨state, before ++ ([⟨job, .saving existing dto secret⟩] ++ after), succeeded⟩)
    (undisturbed : Undisturbed state.db (before ++ after) job (.saving existing dto secret)) :
    Accounted start
      (landed before after succeeded job (call job state (.saving existing dto secret))) := by
  obtain ⟨asked, named⟩ : job.command = .updateHost dto secret ∧ existing.id = dto.id :=
    accounted.mine
  simp only [call]
  cases updated : update job.now state.db (edited existing dto) with
  | error reason => exact accounted.fail rfl rfl rfl
  | ok db =>
    have consistent : Consistent state.db := accounted.consistent
    obtain ⟨⟨row, found⟩, accepted, inserted⟩ := update_eq updated
    obtain ⟨free, known, takes, current, read, same⟩ := undisturbed row found accepted
    have treatable := treatable_of_update updated takes
    have member := List.mem_of_find?_eq_some found
    have ids : row.id = existing.id := lookup_id found
    have agree : existing.id = current.id := ids.symm.trans (rowToHost_id read).symm
    have settled := settle_of_unowned free.unowned
    have plain := rowValid_rowOf_iff.mp (checkRow_eq_ok_iff.mp accepted).1
    -- Alone, the update would read the record that is there now, and write the same row.
    have rewrites : Rewrites state.db job (settle (before ++ after) row)
        (secretEffect job.now secret (overwrite job.now (edited current dto) row)) := by
      have takes' : Takes job.faults (edited current dto) secret := by
        refine takes.congr ?_ same.secretRef
        unfold accountFor
        simp only [edited, agree]
        rfl
      have valid : RowValid state.db.folders (rowOf (edited current dto)) :=
        rowValid_rowOf_iff.mpr plain
      rw [settled]
      obtain ⟨command, faults, now⟩ := job
      cases asked
      exact rewrites_updateHost (ids.trans named) read valid known takes'
    -- The record in hand agrees with that one in all that the form leaves alone.
    have write : overwrite job.now (edited existing dto) = overwrite job.now (edited current dto) :=
      overwrite_edited job.now dto same agree
    -- The form has no field for where a host comes from.
    have keeps : KeepsOrigins (rewriteAt row.id (overwrite job.now (edited existing dto)))
        state.db.hosts := by
      intro other among
      by_cases here : other.id = row.id
      · obtain rfl : other = row :=
          List.inj_on_of_nodup_map consistent.unique among member here
        obtain ⟨-, source, alias_⟩ := rowToHost_origin read
        have mine : current.id = other.id := rowToHost_id read
        rw [rewriteAt_of_eq here, write]
        exact Prod.ext mine (Prod.ext source alias_)
      · rw [rewriteAt_of_ne here]
    -- The statement writes the one row of its id.
    have hosts : db.hosts =
        state.db.hosts.map (rewriteAt row.id (overwrite job.now (edited existing dto))) := by
      rw [inserted, ids]
      rfl
    -- What is left are the tags and the secret of that row.
    have leftover : Leftover before after job.now row.id secret
        [⟨job, .tagging dto.id dto.tags secret⟩] := by
      rw [ids, named]
      exact leftover_singleton rfl rfl fun _ => rfl
    refine accounted.write rfl rfl member free.unvisited rewrites hosts (by rw [inserted])
      (by rw [inserted]) ?_ leftover (consistent.update updated)
      (leftover.fits ?_ (List.forall_mem_singleton.mpr ⟨?_, ?_, fun _ => ?_⟩)
        fun _ => free.unowned) (by simp [Phase.tail])
    · -- Once the secret is treated the row is what the whole update writes.
      rw [leftover.settles free.unowned _ ids.symm, write]
    · intro other among
      exact (accounted.others other among).rewritten keeps hosts (by rw [inserted])
        (by rw [inserted]) (.inl (free.unowned other among))
    · rw [← named]
      obtain ⟨later, _, there, -⟩ := treatable
      exact ⟨later, there⟩
    · -- Tags that exist are not affected by an update.
      rw [inserted]
      exact known
    · rw [← named]
      exact treatable

/-- Giving the host its tags leaves its secret to be treated. -/
theorem Accounted.tagging {tags : List Int}
    (accounted :
      Accounted start ⟨state, before ++ ([⟨job, .tagging id tags secret⟩] ++ after), succeeded⟩) :
    Accounted start
      (landed before after succeeded job (call job state (.tagging id tags secret))) := by
  obtain ⟨present, known, -⟩ := accounted.mine
  obtain ⟨db, done⟩ := (setTags_iff present tags).mpr known
  have hosts := hosts_setTags done
  obtain ⟨folders, same⟩ := frame_setTags done
  -- Tagging changes no row, so that what was sound is sound still.
  have kept : ∀ {worker : Worker}, Sound state.db worker.job worker.phase →
      Sound db worker.job worker.phase := by
    intro worker sound
    refine sound.kept folders same ?_ ?_
    · rintro key - ⟨row, found⟩
      exact ⟨row, (lookup_setTags done key).trans found⟩
    · intro key row _ found
      exact ⟨_, _, (lookup_setTags done key).trans found⟩
  have unowned : secret ≠ .unchanged → ∀ other ∈ before ++ after, other.phase.owned ≠ some id :=
    fun left other member => (apart_of_middle accounted.apart other member).owned id (if_neg left)
  -- What follows is the turn of the secret, or the end.
  obtain ⟨new, succeeded', lands, leftover, jobs, fresh⟩ := @secretTurn_lands before after
    succeeded job { state with db := db } id secret
  simp only [call, proceed, done, lands]
  refine accounted.quiet (accounted.consistent.setTags done)
    (leftover.fits (fun other member => kept (accounted.others other member))
      (fresh db (kept accounted.mine).2.2) unowned) ?_ folders same ?_ ?_ ?_
  · rw [hosts]
    refine List.map_congr_left fun row _ => ?_
    -- Before and after the call, the same secret is left to be treated.
    have mine : Leftover before after job.now id secret [⟨job, .tagging id tags secret⟩] :=
      leftover_singleton rfl rfl fun _ => rfl
    by_cases here : row.id = id ∧ secret ≠ .unchanged
    · rw [leftover.settles (unowned here.2) row here.1, mine.settles (unowned here.2) row here.1]
    · rw [leftover.spares here, mine.spares here]
  · exact leftover.written.1
  · exact leftover.written.2
  · simpa [Phase.tail] using jobs

/-- The rows of an id are one row, when there is one. -/
theorem row_of_lookup {db : Database} {row other : HostRow} (consistent : Consistent db)
    (found : lookup db id = some row) (member : other ∈ db.hosts) (named : other.id = id) :
    other = row := by
  have listed := lookup_of_mem consistent.unique member
  rw [named, found] at listed
  exact (Option.some.inj listed).symm

/-- Treating the secret in the keyring leaves its record to be written, or nothing. -/
theorem Accounted.readingSecret
    (accounted :
      Accounted start ⟨state, before ++ ([⟨job, .readingSecret id secret⟩] ++ after), succeeded⟩) :
    Accounted start
      (landed before after succeeded job (call job state (.readingSecret id secret))) := by
  obtain ⟨row, bare, found, read, takes, valid⟩ := accounted.mine
  have apart := apart_of_middle accounted.apart
  have unowned : ∀ other ∈ before ++ after, other.phase.owned ≠ some id :=
    fun other member => (apart other member).owned id rfl
  have consistent : Consistent state.db := accounted.consistent
  have named : bare.id = id := (rowToHost_id read).trans (lookup_id found)
  -- The record is found, since the phase stands for one that is there.
  have shown : get state.db id = .ok (some { bare with tags := tagsFor state.db id }) :=
    get_eq_some.mpr ⟨row, bare, found, read, rfl⟩
  have effect := @secretEffect_eq job.now bare row secret read (tagsFor state.db id)
  simp only [call]
  rcases treatSecret_cases shown (takes.congr rfl rfl) with
    ⟨nothing, treated⟩ | ⟨record, keyring, history, wrote, treated⟩
  · -- Nothing is recorded, so that the row is settled as it is.
    rw [treated]
    refine accounted.quiet consistent (fits_nil accounted.others) ?_ rfl rfl rfl rfl
      (by simp [Phase.tail])
    refine List.map_congr_left fun other member => ?_
    by_cases here : other.id = id
    · obtain rfl := row_of_lookup consistent found member here
      rw [nothing] at effect
      have mine : settle (before ++ ([⟨job, .readingSecret id secret⟩] ++ after)) other =
          secretEffect job.now secret other :=
        settle_of_owned (here ▸ unowned) (congrArg some here.symm)
      exact (settle_of_unowned (here ▸ unowned)).trans (mine.trans effect).symm
    · refine (settle_insert fun one among owned => ?_).symm
      rw [List.mem_singleton.mp among] at owned
      exact here (Option.some.inj owned).symm
  · rw [treated]
    -- The record that is to be written settles the row as its secret did.
    obtain ⟨reference, rfl⟩ := recorded_eq wrote
    have plain := rowValid_rowOf_iff.mp valid
    obtain ⟨-, source, alias_⟩ := rowToHost_origin read
    rw [wrote] at effect
    -- Beside it, the others have what they had.
    refine accounted.quiet consistent (fits_singleton accounted.others ⟨row, ?_, ?_, ?_⟩ ?_) ?_ rfl
      rfl rfl rfl (by simp [Phase.tail])
    · exact named.symm ▸ found
    · have ids : bare.id = row.id := rowToHost_id read
      exact Prod.ext ids (Prod.ext source alias_)
    · exact rowValid_rowOf_iff.mpr plain
    · intro other member
      refine ⟨?_, .inl rfl⟩
      rintro key owned
      obtain rfl : bare.id = key := Option.some.inj owned
      rw [named]
      exact unowned other member
    · refine List.map_congr_left fun other member => ?_
      refine settle_exchange (congrArg some named) fun owned => ?_
      -- The row is the one that the record was read from.
      obtain rfl := row_of_lookup consistent found member (Option.some.inj owned).symm
      exact effect.symm

/-- Writing the record of a treated secret is what was left to be done. -/
theorem Accounted.writingSecret {record : Host}
    (accounted :
      Accounted start ⟨state, before ++ ([⟨job, .writingSecret record⟩] ++ after), succeeded⟩) :
    Accounted start
      (landed before after succeeded job (call job state (.writingSecret record))) := by
  obtain ⟨row, found, same, valid⟩ := accounted.mine
  have consistent : Consistent state.db := accounted.consistent
  have unowned : ∀ other ∈ before ++ after, other.phase.owned ≠ some record.id :=
    fun other member => (apart_of_middle accounted.apart other member).owned record.id rfl
  have accepted := accepted_of_origin consistent (List.mem_of_find?_eq_some found) same valid
  -- The record is accepted, as it differs from the row in its reference alone.
  obtain ⟨db, updated⟩ := update_of_accepted job.now ⟨row, found⟩ accepted
  simp only [call, proceed, updated]
  have later := consistent.update updated
  obtain ⟨-, -, rfl⟩ := update_eq updated
  -- The record was read from the row, so that it is from the same place.
  have keeps : KeepsOrigins (rewriteAt record.id (overwrite job.now record)) state.db.hosts := by
    intro other among
    by_cases here : other.id = record.id
    · rw [rewriteAt_of_eq here, row_of_lookup consistent found among here]
      exact same
    · rw [rewriteAt_of_ne here]
  refine accounted.quiet later (fits_nil fun other member => ?_) ?_ rfl rfl rfl rfl
    (by simp [Phase.tail])
  · -- No other command has that row in hand.
    exact (accounted.others other member).rewritten keeps rfl rfl rfl (.inl (unowned other member))
  · show (state.db.hosts.map (rewriteAt record.id (overwrite job.now record))).map _ = _
    rw [List.map_map]
    refine List.map_congr_left fun other member => ?_
    rw [Function.comp_apply]
    by_cases here : other.id = record.id
    · -- The row was settled by the very record that is written now.
      have mine : settle (before ++ ([⟨job, .writingSecret record⟩] ++ after)) other =
          overwrite job.now record other :=
        settle_of_owned (here ▸ unowned) (congrArg some here.symm)
      rw [rewriteAt_of_eq here, mine]
      exact settle_of_unowned unowned
    · rw [rewriteAt_of_ne here]
      refine (settle_insert fun one among owned => ?_).symm
      rw [List.mem_singleton.mp among] at owned
      exact here (Option.some.inj owned).symm

end Calls

section Imports

variable {start state : AppState} {before after : List Worker} {succeeded : List Job} {job : Job}
  {phase : Phase} {handled rest : List Candidate} {c : Candidate} {db : Database}

/-- A turn of an import leaves what the commands beside it rely on. -/
theorem Sound.upserted {now : Int} (sound : Sound state.db job phase)
    (consistent : Consistent state.db) (taken : upsertStep now state.db c = some db)
    (unowned : ∀ row, importedRow state.db c.alias_ = some row → phase.owned ≠ some row.id) :
    Sound db job phase := by
  obtain ⟨folders, tags⟩ := upsertStep_frame taken
  refine sound.kept folders tags ?_ ?_
  · rintro key - ⟨row, found⟩
    have listed : key ∈ state.db.hosts.map HostRow.id :=
      List.mem_map.mpr ⟨row, List.mem_of_find?_eq_some found, lookup_id found⟩
    obtain ⟨later, there, named⟩ := List.mem_map.mp ((upsertStep_ids taken).subset listed)
    exact present_of_mem there named.symm
  · intro key row owned found
    have member := List.mem_of_find?_eq_some found
    -- A row that is owned is not the one that is imported again.
    have spared : ∀ other ∈ state.db.hosts, other.id = key → ¬ImportedAs c other := by
      intro other among named imported
      exact unowned other (importedRow_of_imported consistent among imported) (named ▸ owned)
    have kept := (upsertStep_spares taken ⟨row, member, lookup_id found⟩ spared row
      (lookup_id found)).mpr member
    have there := lookup_of_mem (consistent.upsertStep taken).unique kept
    rw [lookup_id found] at there
    exact ⟨_, _, there⟩

/-- An import that has written all of its candidates has succeeded. -/
theorem Accounted.finish
    (accounted : Accounted start
      ⟨state, before ++ ([⟨job, .finding handled []⟩] ++ after), succeeded⟩)
    (quiet : writtenBy (before ++ after) = []) :
    Accounted start ⟨state, before ++ ([] ++ after), succeeded ++ [job]⟩ := by
  have asked : job.command = .importSshConfig (handled ++ []) := accounted.mine
  rw [List.append_nil] at asked
  exact accounted.exchange accounted.consistent (fits_nil accounted.others)
    (accounted.explained.finish asked quiet)

/-- A turn of an import is taken where the import is. -/
theorem Accounted.turn
    (accounted : Accounted start ⟨state, before ++ ([⟨job, phase⟩] ++ after), succeeded⟩)
    (idle : phase.tail = none) (hand : phase.handled = handled) (left : phase.left = c :: rest)
    (asked : job.command = .importSshConfig (handled ++ c :: rest))
    (quiet : writtenBy (before ++ after) = []) (taken : upsertStep job.now state.db c = some db)
    (unowned : ∀ row, importedRow state.db c.alias_ = some row →
      ∀ other ∈ before ++ after, other.phase.owned ≠ some row.id) :
    Accounted start (landed before after succeeded job
      ({ state with db := db }, importTurn (handled ++ [c]) rest)) := by
  have consistent : Consistent state.db := accounted.consistent
  have mine := Phase.owned_of_idle idle
  -- The import itself owns no row either.
  have among : ∀ {id : Int}, (∀ other ∈ before ++ after, other.phase.owned ≠ some id) →
      ∀ other ∈ before ++ ([⟨job, phase⟩] ++ after), other.phase.owned ≠ some id := by
    intro id none_ other member
    rcases List.mem_append.mp member with first | rest
    · exact none_ other (List.mem_append_left _ first)
    · rcases List.mem_append.mp rest with here | last
      · rw [List.mem_singleton.mp here, mine]
        exact (Option.some_ne_none id).symm
      · exact none_ other (List.mem_append_right _ last)
  have keeps := keepsOrigins_settle consistent.unique accounted.sound
  obtain ⟨first, last⟩ : writtenBy before = [] ∧ writtenBy after = [] := by
    rw [writtenBy_append] at quiet
    exact List.append_eq_nil_iff.mp quiet
  -- The import goes on with the rest, even if that is nothing.
  have onward : Accounted start ⟨{ state with db := db },
      before ++ ([⟨job, .finding (handled ++ [c]) rest⟩] ++ after), succeeded⟩ := by
    refine accounted.exchange (consistent.upsertStep taken) (fits_singleton ?_ ?_ ?_) ?_
    · intro other member
      exact (accounted.others other member).upserted consistent taken
        fun row found => unowned row found other member
    · show job.command = .importSshConfig (handled ++ [c] ++ rest)
      rw [asked, List.append_assoc]
      rfl
    · intro other member
      refine ⟨?_, .inr (writtenBy_eq_nil.mp quiet other member)⟩
      intro id owned
      cases owned
    · refine accounted.explained.turn keeps taken (fun row found => among (unowned row found))
        (among (accounted.owned_ne (lookup_nextId state.db))) ?_ ?_ ?_ ?_
      · -- An import owns no row, neither before nor after its turn.
        funext row
        refine settle_exchange mine.symm fun owned => ?_
        rw [show Worker.phase ⟨job, phase⟩ = phase from rfl, mine] at owned
        cases owned
      · have still : (Phase.finding (handled ++ [c]) rest).tail = none := rfl
        simp [idle, still]
      · have more : (Phase.finding (handled ++ [c]) rest).handled = handled ++ [c] := rfl
        simp [first, last, hand, more]
      · -- The first candidate is not announced before, and a later one is among those awaited.
        by_cases begun : handled = []
        · refine .inl ?_
          simp [first, last, hand, begun]
        · refine .inr ⟨?_, ?_⟩
          · simp [hand, begun, left]
          · have fewer : (Phase.finding (handled ++ [c]) rest).left = rest := rfl
            have more : (Phase.finding (handled ++ [c]) rest).handled = handled ++ [c] := rfl
            simp only [awaitedBy_append, awaitedBy_cons, awaitedBy_nil, hand, left, fewer, more,
              List.mem_append]
            simp only [List.isEmpty_iff, begun, List.append_eq_nil_iff, List.cons_ne_nil, and_false,
              if_false, List.map_cons, List.mem_cons]
            tauto
  cases rest with
  | nil => exact onward.finish quiet
  | cons d more => exact onward

/-- An import looks for the host of its next candidate, or has handled all of them. -/
theorem Accounted.finding
    (accounted : Accounted start
      ⟨state, before ++ ([⟨job, .finding handled rest⟩] ++ after), succeeded⟩)
    (undisturbed : Undisturbed state.db (before ++ after) job (.finding handled rest)) :
    Accounted start
      (landed before after succeeded job (call job state (.finding handled rest))) := by
  have asked : job.command = .importSshConfig (handled ++ rest) := accounted.mine
  cases rest with
  | nil =>
    show Accounted start ⟨state, before ++ ([] ++ after), succeeded ++ [job]⟩
    -- An import that has written nothing yet may fail, and one under way meets no unreadable row.
    cases handled with
    | nil =>
      -- An import of nothing changes nothing, whatever else is under way.
      refine accounted.nothing rfl rfl (lookup_nextId state.db) ?_ rfl rfl rfl
      intro other _
      obtain ⟨command, faults, now⟩ := job
      cases asked
      exact ⟨_, rfl, rfl, rfl, rfl⟩
    | cons d more =>
      refine accounted.finish (writtenBy_eq_nil.mpr fun other member => ?_)
      exact (apart_of_middle accounted.apart other member).handled.resolve_left
        (List.cons_ne_nil d more)
  | cons c rest =>
    simp only [call]
    cases found : findBySourceAlias state.db c.alias_ with
    | error reason =>
      cases handled with
      | nil => exact accounted.fail rfl rfl rfl
      | cons d more =>
        obtain ⟨row, cause, imported, unread⟩ := findBySourceAlias_eq_error.mp ⟨reason, found⟩
        obtain ⟨host, read⟩ := undisturbed (List.cons_ne_nil d more) row imported
        rw [unread] at read
        cases read
    | ok known =>
      cases known with
      | none => exact accounted.read rfl rfl rfl rfl asked
      | some existing =>
        refine accounted.read rfl rfl rfl rfl ⟨asked, ?_⟩
        obtain ⟨row, bare, imported, read, rfl⟩ := findBySourceAlias_eq_some.mp found
        obtain ⟨-, source, alias_⟩ := importedRow_eq_some imported
        obtain ⟨-, sources, aliases⟩ := rowToHost_origin read
        refine ⟨?_, aliases.trans alias_⟩
        -- Only the text of an import names an import.
        have same : bare.source.asStr = "ssh_config" := sources.trans source
        cases origin : bare.source with
        | manual =>
          rw [origin] at same
          simp [HostSource.asStr] at same
        | sshConfig => rfl

/-- A repeated import writes the same row of two records that agree in what it keeps. -/
theorem overwrite_refreshed {existing current : Host} (now : Int) (c : Candidate)
    (same : SameUnimported existing current) (named : existing.id = current.id) :
    overwrite now (refreshed existing c) = overwrite now (refreshed current c) := by
  funext row
  simp only [overwrite, rowOf, refreshed, same.secretRef, same.source, same.sourceAlias,
    same.folderId, same.name, same.authFallbacks, same.color, same.notes, named]

/-- A repeated import that was not disturbed writes what it writes alone. -/
theorem upsertStep_of_refreshing {now : Int} {existing current : Host} {row : HostRow}
    (consistent : Consistent state.db) (source : existing.source = .sshConfig)
    (alias_ : existing.sourceAlias = some c.alias_)
    (updated : update now state.db (refreshed existing c) = .ok db)
    (found : lookup state.db existing.id = some row) (read : rowToHost row = .ok current)
    (same : SameUnimported existing current) :
    upsertStep now state.db c = some db ∧ importedRow state.db c.alias_ = some row := by
  have member := List.mem_of_find?_eq_some found
  obtain ⟨-, sources, aliases⟩ := rowToHost_origin read
  have named : existing.id = current.id := (lookup_id found).symm.trans (rowToHost_id read).symm
  -- The row that is found under the id is the import of the alias.
  have imported : importedRow state.db c.alias_ = some row := by
    refine importedRow_of_imported consistent member ⟨?_, ?_⟩
    · rw [← sources, same.source, source]
      rfl
    · rw [← aliases, same.sourceAlias, alias_]
  have known : findBySourceAlias state.db c.alias_ =
      .ok (some { current with tags := tagsFor state.db row.id }) :=
    findBySourceAlias_eq_some.mpr ⟨row, current, imported, read, rfl⟩
  -- Its tags play no part in what is written.
  have agree : SameUnimported existing { current with tags := tagsFor state.db row.id } :=
    ⟨⟨same.secretRef, same.source, same.sourceAlias⟩, same.folderId, same.name, same.authFallbacks,
      same.color, same.notes⟩
  have write := overwrite_refreshed now c agree named
  -- The update looks at its record through the id and the row it writes.
  have again : update now state.db (refreshed { current with tags := tagsFor state.db row.id } c) =
      update now state.db (refreshed existing c) := by
    have ids : (refreshed { current with tags := tagsFor state.db row.id } c).id =
        (refreshed existing c).id := named.symm
    unfold update
    rw [ids, write]
  refine ⟨?_, imported⟩
  rw [upsertStep_of_known known, again, updated]
  rfl

/-- A repeated import is a turn of its import. -/
theorem Accounted.refreshing {existing : Host}
    (accounted : Accounted start
      ⟨state, before ++ ([⟨job, .refreshing existing handled c rest⟩] ++ after), succeeded⟩)
    (undisturbed :
      Undisturbed state.db (before ++ after) job (.refreshing existing handled c rest)) :
    Accounted start
      (landed before after succeeded job
        (call job state (.refreshing existing handled c rest))) := by
  obtain ⟨asked, source, alias_⟩ : job.command = .importSshConfig (handled ++ c :: rest) ∧
      existing.source = .sshConfig ∧ existing.sourceAlias = some c.alias_ := accounted.mine
  obtain ⟨completes, keeps⟩ := undisturbed
  simp only [call]
  cases updated : update job.now state.db (refreshed existing c) with
  | error reason =>
    cases handled with
    | nil => exact accounted.fail rfl rfl rfl
    | cons d more =>
      -- Under way, the row is there and still acceptable.
      obtain ⟨present, accepted⟩ := completes (List.cons_ne_nil d more)
      have present' : Present state.db (refreshed existing c).id := present
      obtain ⟨after', works⟩ := update_of_accepted job.now present' accepted
      rw [updated] at works
      cases works
  | ok db =>
    obtain ⟨⟨row, found⟩, accepted, -⟩ := update_eq updated
    obtain ⟨quiet, unowned, current, read, same⟩ := keeps row found accepted
    obtain ⟨taken, imported⟩ := upsertStep_of_refreshing accounted.consistent source alias_ updated
      found read same
    refine accounted.turn rfl rfl rfl asked quiet taken fun other found' => ?_
    rw [imported] at found'
    cases found'
    exact unowned

/-- A first import is a turn of its import. -/
theorem Accounted.importing
    (accounted : Accounted start
      ⟨state, before ++ ([⟨job, .importing handled c rest⟩] ++ after), succeeded⟩)
    (undisturbed : Undisturbed state.db (before ++ after) job (.importing handled c rest)) :
    Accounted start
      (landed before after succeeded job (call job state (.importing handled c rest))) := by
  have asked : job.command = .importSshConfig (handled ++ c :: rest) := accounted.mine
  obtain ⟨completes, keeps⟩ := undisturbed
  simp only [call]
  cases created : create job.now state.db (draftOf c) with
  | error reason =>
    cases handled with
    | nil => exact accounted.fail rfl rfl rfl
    | cons d more =>
      -- Under way, the candidate is still acceptable.
      have accepted := completes (List.cons_ne_nil d more)
      simp [create, accepted, bind, Except.bind, pure, Except.pure] at created
  | ok result =>
    obtain ⟨id, db⟩ := result
    obtain ⟨_, accepted, -⟩ := bind_eq_ok created
    have quiet := keeps accepted
    refine accounted.turn rfl rfl rfl asked quiet (upsertStep_of_create created) ?_
    intro row found
    -- What was imported before would clash with what was inserted.
    obtain ⟨member, source, alias_⟩ := importedRow_eq_some found
    refine absurd ⟨rfl, rfl, row, member, fun same => ?_, source, alias_⟩
      (checkRow_eq_ok_iff.mp accepted).2
    exact List.find?_eq_none.mp (lookup_nextId state.db) row member (decide_eq_true same)

end Imports

section Runs

variable {start : AppState} {system next : Concurrent}

/-- Every call of a command that is not disturbed is accounted for. -/
theorem Accounted.call {state : AppState} {before after : List Worker} {succeeded : List Job}
    {job : Job} {phase : Phase}
    (accounted : Accounted start ⟨state, before ++ ([⟨job, phase⟩] ++ after), succeeded⟩)
    (undisturbed : Undisturbed state.db (before ++ after) job phase) :
    Accounted start (landed before after succeeded job (call job state phase)) := by
  -- Each phase has its lemma, and only those that write ask not to be disturbed.
  cases phase with
  | inserting dto secret => exact accounted.inserting undisturbed
  | fetching dto secret => exact accounted.fetching
  | saving existing dto secret => exact accounted.saving undisturbed
  | tagging id tags secret => exact accounted.tagging
  | readingSecret id secret => exact accounted.readingSecret
  | writingSecret record => exact accounted.writingSecret
  | deleting id => exact accounted.deleting undisturbed
  | moving id folderId => exact accounted.moving undisturbed
  | settingTags id tagIds => exact accounted.settingTags undisturbed
  | counting id at_ => exact accounted.counting undisturbed
  | finding handled rest => exact accounted.finding undisturbed
  | refreshing existing handled c rest => exact accounted.refreshing undisturbed
  | importing handled c rest => exact accounted.importing undisturbed

/-- A call gets the store for one of the commands, and exchanges that command alone. -/
theorem concurrentStep_call {index : Nat}
    (taken : concurrentStep system (.call index) = some next) :
    ∃ before after job phase, system.running = before ++ ([⟨job, phase⟩] ++ after) ∧
      system.running[index]? = some ⟨job, phase⟩ ∧
      system.running.eraseIdx index = before ++ after ∧
      next = landed before after system.succeeded job (Desktop.call job system.state phase) := by
  obtain ⟨state, running, succeeded⟩ := system
  obtain ⟨⟨job, phase⟩, chosen, rfl⟩ := Option.map_eq_some_iff.mp taken
  obtain ⟨within, named⟩ := List.getElem?_eq_some_iff.mp chosen
  -- Setting the command's phase leaves what stands before and after it.
  have exchanged : ∀ worker : Worker, running.set index worker =
      running.take index ++ ([worker] ++ running.drop (index + 1)) := by
    intro worker
    rw [List.set_eq_take_append_cons_drop, if_pos within]
    rfl
  have split := exchanged running[index]
  rw [List.set_getElem_self, named] at split
  have without := List.eraseIdx_eq_take_drop_succ running index
  refine ⟨running.take index, running.drop (index + 1), job, phase, split, chosen, without, ?_⟩
  dsimp only
  rcases Desktop.call job state phase with ⟨reached, turn⟩
  cases turn with
  | next following =>
    dsimp only [landed]
    rw [exchanged]
  | done result =>
    cases result with
    | error reason =>
      dsimp only [landed]
      rw [without]
      rfl
    | ok _ =>
      dsimp only [landed]
      rw [without]
      rfl

/-- A command that comes in has written nothing yet. -/
theorem StoreCommand.first_idle (command : StoreCommand) :
    command.first.tail = none ∧ command.first.handled = [] := by
  cases command <;> exact ⟨rfl, rfl⟩

/-- A step that leaves the others undisturbed is accounted for. -/
theorem accounted_step {action : Scheduled} (accounted : Accounted start system)
    (taken : concurrentStep system action = some next)
    (undisturbed : LeavesUndisturbed system action) : Accounted start next := by
  cases action with
  | start job =>
    cases taken
    obtain ⟨idle, unwritten⟩ := job.command.first_idle
    have joined :
        Accounted start ⟨system.state, system.running ++ ([] ++ []), system.succeeded⟩ := by
      rw [List.append_nil, List.append_nil]
      exact accounted
    -- A command that comes in relies on nothing yet.
    have sound : Sound system.state.db job job.command.first := by
      obtain ⟨command, faults, now⟩ := job
      cases command <;> rfl
    have fits : Fits system.state.db (system.running ++ []) [⟨job, job.command.first⟩] :=
      fits_singleton joined.others sound fun other _ => apart_of_idle idle unwritten
    have entered : Accounted start ⟨system.state,
        system.running ++ ([⟨job, job.command.first⟩] ++ []), system.succeeded⟩ :=
      joined.quiet accounted.consistent fits
        (map_settle_unowned (by simp) (by simpa using Phase.owned_of_idle idle)) rfl rfl
        (by simp [unwritten]) (by simp [unwritten]) (by simp [idle])
    rw [List.append_nil] at entered
    exact entered
  | call index =>
    obtain ⟨before, after, job, phase, split, chosen, without, rfl⟩ := concurrentStep_call taken
    have allowed := undisturbed _ chosen
    rw [without] at allowed
    obtain ⟨state, running, succeeded⟩ := system
    cases split
    exact accounted.call allowed

/-- Before any command has come in, nothing has to be accounted for. -/
theorem accounted_start (consistent : Consistent start.db) : Accounted start ⟨start, [], []⟩ := by
  -- The empty order leads to the start itself.
  refine ⟨consistent, ?_, .nil, ?_⟩
  · intro worker member
    exact absurd member List.not_mem_nil
  · have nothing : System.run serialStep start [] = some start := rfl
    refine explained_of_run nothing List.Perm.nil consistent ?_ rfl rfl rfl
    exact (List.map_congr_left fun row _ => rfl).trans (List.map_id' _) |>.symm

/-- Once no command runs any more, the sequential run that explains the hosts has led to them. -/
theorem Accounted.serializable (accounted : Accounted start system) :
    Serializable start system := by
  -- Nobody runs, so what the explanation leaves open is nothing.
  intro idle
  obtain ⟨consistent, sound, apart, explained⟩ := accounted
  rw [idle] at explained
  obtain ⟨order, reached, ran, perm, -, hosts, -, -⟩ := explained.flat rfl
  refine ⟨order, reached, ?_, ran, ?_⟩
  · rw [committed_nil, List.append_nil] at perm
    exact perm
  · exact hosts.trans ((List.map_congr_left fun row _ => rfl).trans (List.map_id' _))

/--
Store commands that run beside each other leave the hosts of some sequential order
as long as no call undoes what another wrote or comes between its writes.
-/
theorem store_commands_serializable (consistent : Consistent start.db) {actions : List Scheduled}
    (meets : System.Meets concurrentStep LeavesUndisturbed ⟨start, [], []⟩ actions) :
    System.Throughout concurrentStep (Serializable start) ⟨start, [], []⟩ actions :=
  System.throughout_of_meets Accounted.serializable
    (fun accounted taken undisturbed => accounted_step accounted taken undisturbed)
    (accounted_start consistent) meets

/-- A host as the form submits it, with a password to log in with. -/
def newHost (name : String) : NewHostDto where
  folderId := none
  name := name
  hostname := name ++ ".example.com"
  port := 22
  username := "deploy"
  auth := .password
  authFallbacks := []
  keyPath := none
  overrides := HostOverrides.default
  proxyJump := none
  color := none
  notes := none
  tags := []

/-- A creation of a host together with its password, with a keyring that takes it. -/
def creation (name : String) : Job := ⟨.createHost (newHost name) (some "secret"), fun _ => none, 0⟩

/-- A second host is created while the password of the first one goes into the keyring. -/
theorem store_commands_serializable_creations :
    Consistent AppState.fresh.db ∧
      System.Throughout concurrentStep (Serializable AppState.fresh) ⟨AppState.fresh, [], []⟩
        [.start (creation "web"), .start (creation "db"), .call 0, .call 1, .call 0, .call 0,
          .call 0, .call 0] := by
  -- The two creations only meet in the table, under ids of their own.
  refine ⟨consistent_fresh, store_commands_serializable consistent_fresh ?_⟩
  refine .cons trivial rfl (.cons trivial rfl (.cons ?_ rfl (.cons ?_ rfl (.cons ?_ rfl
    (.cons ?_ rfl (.cons ?_ rfl (.cons ?_ rfl trivial)))))))
  · rintro worker ⟨⟩ _
    exact ⟨rfl, fun tag member => absurd member List.not_mem_nil, fun _ _ => rfl⟩
  · rintro worker ⟨⟩ _
    exact ⟨rfl, fun tag member => absurd member List.not_mem_nil, fun _ _ => rfl⟩
  all_goals
    rintro worker ⟨⟩
    trivial

/-- A store with a folder that hosts can be moved to. -/
def foldered : AppState :=
  { AppState.fresh with db := { Database.fresh with folders := [⟨7, none, "servers", 0, 0, 0⟩] } }

/-- A move of the first host into the folder. -/
def moving : Job := ⟨.moveHost 1 (some 7), fun _ => none, 0⟩

/-- A host is moved while its password goes into the keyring, and storing the account moves it
back. -/
theorem stored_secret_reverts_move :
    Consistent foldered.db ∧
      (∃ final, System.run concurrentStep ⟨foldered, [], []⟩ [.start (creation "web"),
          .start moving, .call 0, .call 0, .call 1, .call 0] = some final ∧
        final.running = [] ∧ final.succeeded = [moving, creation "web"] ∧
        final.state.db.hosts.map HostRow.folderId = [none]) ∧
      ¬System.Throughout concurrentStep (Serializable foldered) ⟨foldered, [], []⟩
        [.start (creation "web"), .start moving, .call 0, .call 0, .call 1, .call 0] := by
  have consistent : Consistent foldered.db :=
    ⟨List.nodup_nil, fun _ member => absurd member List.not_mem_nil,
      fun _ member => absurd member List.not_mem_nil⟩
  have raced : ∃ final, System.run concurrentStep ⟨foldered, [], []⟩ [.start (creation "web"),
        .start moving, .call 0, .call 0, .call 1, .call 0] = some final ∧
      final.running = [] ∧ final.succeeded = [moving, creation "web"] ∧
      final.state.db.hosts.map HostRow.folderId = [none] := ⟨_, rfl, rfl, rfl, rfl⟩
  refine ⟨consistent, raced, ?_⟩
  obtain ⟨final, ran, idle, done, folders⟩ := raced
  intro throughout
  obtain ⟨order, reached, perm, alone, hosts⟩ := throughout.final ran idle
  rw [done, List.perm_pair] at perm
  -- Both sequential orders leave other hosts than the race did.
  rcases perm with rfl | rfl
  · -- There is no host to move before it is created.
    have refused : System.run serialStep foldered [moving, creation "web"] = none := rfl
    rw [refused] at alone
    cases alone
  · have kept : ∃ after, System.run serialStep foldered [creation "web", moving] = some after ∧
        after.db.hosts.map HostRow.folderId = [some 7] := ⟨_, rfl, rfl⟩
    obtain ⟨after, again, filed⟩ := kept
    rw [again] at alone
    cases alone
    rw [hosts, folders] at filed
    cases filed

end Runs

end Tern.Desktop
