import Tern.Desktop.Phases
import Tern.Store.Rewriting

/-! What a command that succeeds makes of the rows, in one piece. -/

namespace Tern.Desktop

open Tern.Store

section Secrets

/-- The record that treating a secret writes back, if it writes one. -/
def recorded (host : Host) : SecretUpdateDto → Option Host
  | .unchanged => none
  | .set _ => (accountFor host).map fun account => { host with secretRef := some account }
  | .clear => host.secretRef.map fun _ => { host with secretRef := none }

/-- What treating a secret makes of a row. -/
def secretEffect (now : Int) (secret : SecretUpdateDto) (row : HostRow) : HostRow :=
  match rowToHost row with
  | .error _ => row
  | .ok host => (recorded host secret).elim row fun record => overwrite now record row

/-- The keyring takes what treating a secret asks of it. -/
def Takes (faults : Faults) (host : Host) : SecretUpdateDto → Prop
  | .unchanged => True
  | .set _ => ∀ account, accountFor host = some account → faults (.set account) = none
  | .clear => ∀ account, host.secretRef = some account → faults (.delete account) = none

variable {now : Int} {faults : Faults} {state : AppState} {id : Int} {host : Host} {row : HostRow}
  {secret : SecretUpdateDto}

/-- Whether the keyring takes a secret depends on its account and on the reference. -/
theorem Takes.congr {other : Host} (takes : Takes faults host secret)
    (account : accountFor other = accountFor host) (referred : other.secretRef = host.secretRef) :
    Takes faults other secret := by
  cases secret with
  | unchanged => trivial
  | set text => exact fun given same => takes given (account ▸ same)
  | clear => exact fun given same => takes given (referred ▸ same)

/-- A secret that is left alone changes no row. -/
@[simp] theorem secretEffect_unchanged (now : Int) (row : HostRow) :
    secretEffect now .unchanged row = row := by
  unfold secretEffect
  cases rowToHost row <;> rfl

/-- A record that is written back differs from the one that was read in its reference alone. -/
theorem recorded_eq {record : Host} (wrote : recorded host secret = some record) :
    ∃ reference, record = { host with secretRef := reference } := by
  -- Storing and clearing both write the record back with another reference.
  cases secret with
  | unchanged => cases wrote
  | set text =>
    obtain ⟨account, -, rfl⟩ := Option.map_eq_some_iff.mp wrote
    exact ⟨_, rfl⟩
  | clear =>
    obtain ⟨account, -, rfl⟩ := Option.map_eq_some_iff.mp wrote
    exact ⟨_, rfl⟩

/-- What is written back does not depend on the tags that were read. -/
theorem recorded_tags (host : Host) (tags : List Int) (secret : SecretUpdateDto) :
    recorded { host with tags := tags } secret =
      (recorded host secret).map fun record => { record with tags := tags } := by
  -- Neither the account nor the reference depends on tags.
  cases secret with
  | unchanged => rfl
  | set text =>
    have same : accountFor { host with tags := tags } = accountFor host := rfl
    simp only [recorded, same, Option.map_map]
    rfl
  | clear =>
    simp only [recorded, Option.map_map]
    rfl

/-- Treating a secret rewrites the row that was read, if it writes at all. -/
theorem secretEffect_eq (read : rowToHost row = .ok host) (tags : List Int) :
    secretEffect now secret row =
      (recorded { host with tags := tags } secret).elim row fun record =>
        overwrite now record row := by
  simp only [recorded_tags, secretEffect, read]
  cases recorded host secret <;> rfl

/-- Treating a secret leaves where a row is from. -/
theorem origin_secretEffect (now : Int) (secret : SecretUpdateDto) (row : HostRow) :
    origin (secretEffect now secret row) = origin row := by
  -- A record is written back with the id, the source and the alias it was read with.
  cases read : rowToHost row with
  | error reason => simp only [secretEffect, read]
  | ok host =>
    simp only [secretEffect, read]
    cases wrote : recorded host secret with
    | none => rfl
    | some record =>
      obtain ⟨reference, rfl⟩ := recorded_eq wrote
      obtain ⟨-, source, alias_⟩ := rowToHost_origin read
      exact Prod.ext (rowToHost_id read) (Prod.ext source alias_)

/-- Counting a connection and treating a secret may change places. -/
theorem secretEffect_stats (now : Int) (secret : SecretUpdateDto) (row : HostRow)
    (at_ : Option Int) (count : Int) :
    secretEffect now secret { row with lastConnectedAt := at_, connectCount := count } =
      { secretEffect now secret row with lastConnectedAt := at_, connectCount := count } := by
  unfold secretEffect
  -- What is read of the row differs in the two columns alone, and its account in nothing.
  rw [rowToHost_stats]
  cases rowToHost row with
  | error reason => rfl
  | ok host =>
    cases secret with
    | unchanged => rfl
    | set text =>
      have same : accountFor { host with lastConnectedAt := at_, connectCount := count } =
          accountFor host := rfl
      simp only [Except.map, recorded, same]
      cases accountFor host with
      | none => rfl
      | some account => rfl
    | clear =>
      simp only [Except.map, recorded]
      cases host.secretRef with
      | none => rfl
      | some account => rfl

/-- The keyring's part of treating a secret, for a record that can be read. -/
theorem treatSecret_cases (shown : get state.db id = .ok (some host))
    (takes : Takes faults host secret) :
    (recorded host secret = none ∧ treatSecret faults state id secret = (state, .done (.ok ()))) ∨
      ∃ record keyring history, recorded host secret = some record ∧
        treatSecret faults state id secret =
          (⟨state.db, keyring, history⟩, .next (.writingSecret record)) := by
  unfold treatSecret
  simp only [shown]
  -- There is nothing to write when no secret is given, or when the record has no account for it.
  cases secret with
  | unchanged => exact .inl ⟨rfl, rfl⟩
  | set text =>
    cases owned : accountFor host with
    | none => exact .inl ⟨by simp [recorded, owned], rfl⟩
    | some account =>
      -- The keyring takes the secret before the record is written.
      have taken := takes account owned
      simp only [setSecret, taken]
      exact .inr ⟨_, _, _, by simp [recorded, owned], rfl⟩
  | clear =>
    cases owned : host.secretRef with
    | none => exact .inl ⟨by simp [recorded, owned], rfl⟩
    | some account =>
      -- The keyring lets go of it in the same place.
      have taken := takes account owned
      simp only [clearSecret, taken]
      exact .inr ⟨_, _, _, by simp [recorded, owned], rfl⟩

/-- Treating a secret that the keyring takes rewrites the row of its record. -/
theorem secretStep_of_takes (shown : get state.db id = .ok (some host))
    (accepted : checkRow state.db (rowOf host) = .ok ()) (takes : Takes faults host secret)
    (unique : (state.db.hosts.map HostRow.id).Nodup) :
    ∃ after, secretStep now faults state id secret = (after, .ok ()) ∧
      after.db.hosts = state.db.hosts.map (rewriteAt id (secretEffect now secret)) ∧
      after.db.folders = state.db.folders ∧ after.db.tags = state.db.tags := by
  obtain ⟨row, bare, found, read, rfl⟩ := get_eq_some.mp shown
  have named := lookup_id found
  -- What happens to that row is decided by what is recorded of the record it reads as.
  have effect := @secretEffect_eq now bare row secret read (tagsFor state.db id)
  -- The rows that are rewritten are the one that was read.
  have only : ∀ other ∈ state.db.hosts, other.id = id → other = row := by
    intro other member same
    exact List.inj_on_of_nodup_map unique member (List.mem_of_find?_eq_some found)
      (same.trans named.symm)
  -- Where nothing is recorded, the row stays as it is, and so do all others.
  have untouched : recorded { bare with tags := tagsFor state.db id } secret = none →
      state.db.hosts = state.db.hosts.map (rewriteAt id (secretEffect now secret)) := by
    intro none
    refine (map_eq_self_iff.mpr fun other member same => ?_).symm
    rw [only other member same, effect, none]
    rfl
  -- Where a record is written, its row is accepted, since only its reference is another.
  have written : ∀ record, recorded { bare with tags := tagsFor state.db id } secret = some record →
      ∃ db, update now state.db record = .ok db ∧
        db.hosts = state.db.hosts.map (rewriteAt id (secretEffect now secret)) ∧
        db.folders = state.db.folders ∧ db.tags = state.db.tags := by
    intro record wrote
    obtain ⟨reference, same⟩ := recorded_eq wrote
    have ids : record.id = id := by
      rw [same]
      exact (rowToHost_id read).trans named
    obtain ⟨db, updated⟩ := @update_of_accepted state.db record now
      (ids ▸ present_of_get shown) (same ▸ accepted)
    refine ⟨db, updated, ?_⟩
    obtain ⟨-, -, rfl⟩ := update_eq updated
    refine ⟨List.map_congr_left fun other member => ?_, rfl, rfl⟩
    -- The update writes its record to the row that was read, and to no other.
    by_cases this : other.id = id
    · rw [rewriteAt_of_eq this, if_pos (this.trans ids.symm), only other member this, effect, wrote]
      rfl
    · rw [rewriteAt_of_ne this, if_neg (fun equal => this (equal.trans ids))]
  -- Each kind of update does one of the two.
  cases secret with
  | unchanged => exact ⟨state, rfl, untouched rfl, rfl, rfl⟩
  | set text =>
    unfold secretStep storeSecretFor
    simp only [shown]
    cases owned : accountFor { bare with tags := tagsFor state.db id } with
    | none => exact ⟨state, rfl, untouched (by simp [recorded, owned]), rfl, rfl⟩
    | some account =>
      obtain ⟨db, updated, hosts, frame⟩ := written _ (by simp [recorded, owned]; rfl)
      simp only [setSecret, takes account owned, updated]
      exact ⟨_, rfl, hosts, frame⟩
  | clear =>
    unfold secretStep clearSecretFor
    simp only [shown]
    cases owned : bare.secretRef with
    | none => exact ⟨state, rfl, untouched (by simp [recorded, owned]), rfl, rfl⟩
    | some account =>
      obtain ⟨db, updated, hosts, frame⟩ := written _ (by simp [recorded, owned]; rfl)
      simp only [clearSecret, takes account owned, updated]
      exact ⟨_, rfl, hosts, frame⟩

end Secrets

section Commands

variable {now : Int} {faults : Faults} {state : AppState}

/-- Rewriting the rows of an id twice is rewriting them by both. -/
theorem map_rewriteAt {id : Int} {first second : HostRow → HostRow} {hosts : List HostRow}
    (keeps : ∀ row ∈ hosts, row.id = id → (first row).id = id) :
    (hosts.map (rewriteAt id first)).map (rewriteAt id second) =
      hosts.map (rewriteAt id fun row => second (first row)) := by
  rw [List.map_map]
  refine List.map_congr_left fun row member => ?_
  -- The first rewriting keeps the id, so that the second one hits the same rows.
  by_cases same : row.id = id
  · rw [Function.comp_apply, rewriteAt_of_eq same, rewriteAt_of_eq same,
      rewriteAt_of_eq (keeps row member same)]
  · rw [Function.comp_apply, rewriteAt_of_ne same, rewriteAt_of_ne same, rewriteAt_of_ne same]

/-- An update that the schema and the keyring take rewrites its row, fields and secret. -/
theorem updateHost_of_accepted {dto : HostDto} {secret : SecretUpdateDto} {existing : Host}
    (shown : get state.db dto.id = .ok (some existing))
    (accepted : checkRow state.db (rowOf (edited existing dto)) = .ok ())
    (known : TagsKnown state.db dto.tags) (takes : Takes faults (edited existing dto) secret)
    (unique : (state.db.hosts.map HostRow.id).Nodup) :
    ∃ after, updateHost now faults state dto secret = (after, .ok ()) ∧
      after.db.hosts = state.db.hosts.map (rewriteAt dto.id fun row =>
        secretEffect now secret (overwrite now (edited existing dto) row)) ∧
      after.db.folders = state.db.folders ∧ after.db.tags = state.db.tags := by
  have named : (edited existing dto).id = dto.id := (get_id shown : existing.id = dto.id)
  obtain ⟨db, edits⟩ := edits_of_accepted now shown accepted known
  obtain ⟨middle, updated, done⟩ := edits.written
  -- Once the fields and the tags are in, the record reads back with its chain and its reference.
  obtain ⟨host, still, again, account, referred⟩ : ∃ host, get db dto.id = .ok (some host) ∧
      checkRow db (rowOf host) = .ok () ∧ accountFor host = accountFor (edited existing dto) ∧
      host.secretRef = (edited existing dto).secretRef := by
    obtain ⟨row, fields⟩ := get_update updated
    rw [← named] at done ⊢
    exact ⟨_, get_setTags done fields,
      (checkRow_setTags done _).trans (accepted_of_update updated), rfl, rfl⟩
  -- The tags are kept elsewhere, so that the hosts are those of the update alone.
  have hosts : db.hosts =
      state.db.hosts.map (rewriteAt dto.id (overwrite now (edited existing dto))) := by
    rw [hosts_setTags done]
    obtain ⟨-, -, rfl⟩ := update_eq updated
    simp only [named]
    rfl
  have frame : db.folders = state.db.folders ∧ db.tags = state.db.tags := by
    obtain ⟨filed, tagged⟩ := frame_setTags done
    obtain ⟨-, -, rfl⟩ := update_eq updated
    exact ⟨filed, tagged⟩
  -- The secret's step is about one row again, as the update keeps every id.
  have ids : (db.hosts.map HostRow.id).Nodup := by
    rw [hosts, List.map_map]
    convert unique using 2
    funext other
    by_cases same : other.id = dto.id
    · rw [Function.comp_apply, rewriteAt_of_eq same, same]
      exact named
    · rw [Function.comp_apply, rewriteAt_of_ne same]
  obtain ⟨after, treated, rows, folders, tags⟩ := @secretStep_of_takes now faults
    { state with db := db } dto.id host secret still again (takes.congr account referred) ids
  refine ⟨after, by rw [edits.updateHost_eq, treated], ?_, folders.trans frame.1,
    tags.trans frame.2⟩
  rw [rows, hosts]
  exact map_rewriteAt fun _ _ _ => named

/-- Rewriting the rows of an id that no row has changes nothing. -/
theorem map_rewriteAt_of_fresh {db : Database} {rewrite : HostRow → HostRow} :
    db.hosts.map (rewriteAt (nextId db) rewrite) = db.hosts := by
  refine map_eq_self_iff.mpr fun row member same => ?_
  exact absurd (decide_eq_true same) (List.find?_eq_none.mp (lookup_nextId db) row member)

/-- A creation that the schema and the keyring take inserts its row, with the secret's reference. -/
theorem createHost_of_accepted {dto : NewHostDto} {secret : Option String}
    (accepted : checkRow state.db (rowOf (hostOfDraft (nextId state.db) now (draftOfDto dto))) =
      .ok ())
    (known : TagsKnown state.db dto.tags)
    (takes : Takes faults (hostOfDraft (nextId state.db) now (draftOfDto dto)) (secretOf secret))
    (unique : (state.db.hosts.map HostRow.id).Nodup) :
    ∃ after, execute ⟨.createHost dto secret, faults, now⟩ state = (after, .ok ()) ∧
      after.db.hosts = state.db.hosts ++ [secretEffect now (secretOf secret)
        (rowOf (hostOfDraft (nextId state.db) now (draftOfDto dto)))] ∧
      after.db.folders = state.db.folders ∧ after.db.tags = state.db.tags := by
  obtain ⟨db, created⟩ : ∃ db, create now state.db (draftOfDto dto) = .ok (nextId state.db, db) :=
    ⟨_, by simp [create, accepted, bind, Except.bind, pure, Except.pure]; rfl⟩
  -- With and without tags, the row that was inserted is there and accepted.
  obtain ⟨tagged, host, asked, hosts, folders, tags, shown, passed, account, referred⟩ :
      ∃ (tagged : Database) (host : Host),
      execute ⟨.createHost dto secret, faults, now⟩ state =
        secretStep now faults { state with db := tagged } (nextId state.db) (secretOf secret) ∧
      tagged.hosts =
        state.db.hosts ++ [rowOf (hostOfDraft (nextId state.db) now (draftOfDto dto))] ∧
      tagged.folders = state.db.folders ∧ tagged.tags = state.db.tags ∧
      get tagged (nextId state.db) = .ok (some host) ∧
      checkRow tagged (rowOf host) = .ok () ∧
      accountFor host = accountFor (hostOfDraft (nextId state.db) now (draftOfDto dto)) ∧
      host.secretRef = (hostOfDraft (nextId state.db) now (draftOfDto dto)).secretRef := by
    have shown := get_create created
    have passed := accepted_of_create created
    simp only [execute, createHost_eq, created]
    have inserted := (create_eq created).2
    by_cases untagged : dto.tags.isEmpty = true
    · -- Without tags nothing happens between the insert and the secret.
      refine ⟨db, _, by rw [if_pos untagged], ?_, ?_, ?_, shown, passed, rfl, rfl⟩ <;> rw [inserted]
    · -- With tags that exist, giving them succeeds and writes no row.
      obtain ⟨after, done⟩ := (setTags_iff (present_of_get shown) dto.tags).mpr
        (by rw [inserted]; exact known)
      refine ⟨after, _, by rw [if_neg untagged, done], ?_, ?_, ?_, get_setTags done shown,
        (checkRow_setTags done _).trans passed, rfl, rfl⟩
      · rw [hosts_setTags done, inserted]
      · rw [(frame_setTags done).1, inserted]
      · rw [(frame_setTags done).2, inserted]
  -- The new row has an id that none of the others has.
  have ids : (tagged.hosts.map HostRow.id).Nodup := by
    rw [hosts, List.map_append, List.map_singleton, List.nodup_append]
    refine ⟨unique, List.nodup_singleton _, ?_⟩
    intro id known other new same
    obtain ⟨row, member, rfl⟩ := List.mem_map.mp known
    have fresh := List.find?_eq_none.mp (lookup_nextId state.db) row member
    exact fresh (decide_eq_true (same.trans (List.mem_singleton.mp new)))
  -- The secret is treated on a store whose last row is the new one.
  obtain ⟨after, treated, rows, frame⟩ := @secretStep_of_takes now faults
    { state with db := tagged } _ host _ shown passed (takes.congr account referred) ids
  refine ⟨after, asked.trans treated, ?_, frame.1.trans folders, frame.2.trans tags⟩
  rw [rows, hosts, List.map_append, map_rewriteAt_of_fresh, List.map_singleton]
  exact congrArg (fun row => state.db.hosts ++ [row]) (rewriteAt_of_eq rfl)

/-- A deletion of a host that is there drops its rows. -/
theorem deleteHost_of_present {id : Int} (present : Present state.db id) :
    ∃ after, execute ⟨.deleteHost id, faults, now⟩ state = (after, .ok ()) ∧
      after.db.hosts = (state.db.hosts.filter fun row => row.id ≠ id) ∧
      after.db.folders = state.db.folders ∧ after.db.tags = state.db.tags := by
  obtain ⟨db, deleted⟩ : ∃ db, delete state.db id = .ok db := by
    obtain ⟨row, found⟩ := present
    exact ⟨_, by simp only [delete, found]; rfl⟩
  -- What the keyring says to a deletion is not looked at.
  have succeeds : (execute ⟨.deleteHost id, faults, now⟩ state).2 = .ok () := by
    simp only [execute, deleteHost, deleted]
  have leaves : (execute ⟨.deleteHost id, faults, now⟩ state).1.db = db := by
    simp only [execute, deleteHost, deleted]
  refine ⟨_, Prod.ext rfl succeeds, ?_⟩
  obtain ⟨-, rfl⟩ := delete_eq deleted
  rw [leaves]
  exact ⟨rfl, rfl, rfl⟩

/-- The turns of an import, timed, are the turns of an import at its time. -/
theorem run_timedUpsert (now : Int) (db : Database) (chosen : List Candidate) :
    System.run timedUpsert db (chosen.map fun c => (now, c)) =
      System.run (upsertStep now) db chosen := by
  -- All turns of one import take place at the same time.
  induction chosen generalizing db with
  | nil => rfl
  | cons c rest ih =>
    simp only [List.map_cons, System.run]
    exact congrArg _ (funext ih)

/-- An import whose turns all succeed leaves what they lead to. -/
theorem importSshConfig_of_run {chosen : List Candidate} {after : Database}
    (ran : System.run timedUpsert state.db (chosen.map fun c => (now, c)) = some after) :
    execute ⟨.importSshConfig chosen, faults, now⟩ state =
      ({ state with db := after }, .ok ()) := by
  rw [run_timedUpsert] at ran
  have stored : (apply now state.db ⟨0, 0⟩ chosen).1 = after := by
    rw [apply_store]
    exact System.runWhile_of_run ran
  -- An import whose turns all went through cannot have failed.
  cases result : (apply now state.db ⟨0, 0⟩ chosen).2 with
  | error reason =>
    have failed := (apply_fails_iff ⟨0, 0⟩ chosen).mp ⟨reason, result⟩
    rw [ran] at failed
    cases failed
  | ok outcome => simp only [execute, stored, result]

end Commands

section Consistency

variable {now : Int} {faults : Faults} {state : AppState} {job : Job}

/-- Storing a secret keeps the store consistent. -/
theorem consistent_storeSecretFor (consistent : Consistent state.db) (id : Int) (secret : String) :
    Consistent (storeSecretFor now faults state id secret).1.db :=
  @storeSecretFor_rule now faults state (fun reached => Consistent reached.db) id secret
    (fun _ => consistent) (fun _ _ _ _ _ _ => consistent) fun _ _ _ _ _ updated =>
      consistent.update updated

/-- Clearing a secret keeps the store consistent. -/
theorem consistent_clearSecretFor (consistent : Consistent state.db) (id : Int) :
    Consistent (clearSecretFor now faults state id).1.db :=
  @clearSecretFor_rule now faults state (fun reached => Consistent reached.db) id
    (fun _ => consistent) (fun _ _ _ _ _ _ => consistent) fun _ _ _ _ _ updated =>
      consistent.update updated

/-- An import keeps the store consistent, wherever it stops. -/
theorem consistent_apply (consistent : Consistent state.db) (outcome : ImportOutcome)
    (chosen : List Candidate) : Consistent (apply now state.db outcome chosen).1 := by
  rw [apply_store]
  exact System.runWhile_invariant Consistent (fun _ held taken => held.upsertStep taken)
    (@System.meets_of_forall _ _ _ (fun _ _ => True) (fun _ _ => trivial) state.db chosen)
    consistent

/-- Every command keeps the store consistent, whether it succeeds or fails. -/
theorem consistent_execute (consistent : Consistent state.db) :
    Consistent (execute job state).1.db := by
  -- Each command is followed through the statements it may stop behind.
  obtain ⟨command, faults, now⟩ := job
  cases command with
  | createHost dto secret =>
    exact @createHost_rule now faults state (fun reached => Consistent reached.db) dto secret
      (fun _ reached => Consistent reached.db) consistent
      (fun _ _ created => consistent.create created) (fun _ _ _ held done => held.setTags done)
      (fun _ _ held => held) fun id _ text held _ _ => consistent_storeSecretFor held id text
  | updateHost dto secret =>
    exact @updateHost_rule now faults state (fun reached => Consistent reached.db) dto secret
      (fun reached => Consistent reached.db) consistent
      (fun _ _ _ _ updated _ => consistent.update updated)
      (fun _ _ _ _ updated done => (consistent.update updated).setTags done)
      (fun _ held _ => held) (fun _ text held _ => consistent_storeSecretFor held dto.id text)
      fun _ held _ => consistent_clearSecretFor held dto.id
  | deleteHost id =>
    -- The keyring is no part of the store, so only the statement counts.
    simp only [execute, deleteHost]
    cases deleted : delete state.db id with
    | error reason => exact consistent
    | ok db => exact consistent.delete deleted
  | moveHost id folderId =>
    simp only [execute]
    cases moved : moveToFolder now state.db id folderId with
    | error reason => exact consistent
    | ok db => exact consistent.moveToFolder moved
  | setHostTags id tagIds =>
    simp only [execute]
    cases done : setTags state.db id tagIds with
    | error reason => exact consistent
    | ok db => exact consistent.setTags done
  -- An import writes candidate by candidate, and each keeps the store consistent.
  | importSshConfig chosen => exact consistent_apply consistent ⟨0, 0⟩ chosen
  | recordConnection id at_ => exact consistent.recordConnection id at_

/-- A command of a sequential run succeeds, and leaves what it leaves. -/
theorem serialStep_eq_some {next : AppState} :
    serialStep state job = some next ↔ execute job state = (next, .ok ()) := by
  unfold serialStep
  cases execute job state with
  | mk after result => cases result <;> simp

/-- A sequential run keeps the store consistent. -/
theorem consistent_run {order : List Job} {final : AppState} (consistent : Consistent state.db)
    (ran : System.run serialStep state order = some final) : Consistent final.db :=
  -- A job that fails is no step of a sequential run, and one that succeeds keeps the store.
  @System.run_preserves _ _ serialStep (fun reached => Consistent reached.db)
    (fun {_ _ job} held taken => by
      have kept := @consistent_execute _ job held
      rw [serialStep_eq_some.mp taken] at kept
      exact kept)
    _ _ _ consistent ran

end Consistency

section Rewritings

/-- Wherever a row is, a command succeeds, makes another row of it, and touches no other row. -/
structure Rewrites (db : Database) (job : Job) (before after : HostRow) : Prop where
  origin : origin after = origin before
  succeeds : ∀ state : AppState, Consistent state.db → state.db.folders = db.folders →
    state.db.tags = db.tags → before ∈ state.db.hosts →
    ∃ next, serialStep state job = some next ∧
      next.db.hosts = state.db.hosts.map (rewriteAt before.id fun _ => after) ∧
      next.db.folders = db.folders ∧ next.db.tags = db.tags

variable {db : Database} {job : Job} {faults : Faults} {now : Int} {row : HostRow}

/-- Whether a command rewrites a row depends on the folders and the tags that there are. -/
theorem Rewrites.congr {other : Database} {before after : HostRow}
    (rewrites : Rewrites db job before after) (folders : other.folders = db.folders)
    (tags : other.tags = db.tags) : Rewrites other job before after := by
  refine ⟨rewrites.origin, ?_⟩
  rw [folders, tags]
  exact rewrites.succeeds

/-- Rewriting the one row of an id is writing what it becomes. -/
theorem map_rewriteAt_of_mem {hosts : List HostRow} {rewrite : HostRow → HostRow}
    (unique : (hosts.map HostRow.id).Nodup) (member : row ∈ hosts) :
    hosts.map (rewriteAt row.id rewrite) = hosts.map (rewriteAt row.id fun _ => rewrite row) := by
  refine List.map_congr_left fun other among => ?_
  -- No other row has the id, so that only one row counts.
  by_cases same : other.id = row.id
  · obtain rfl : other = row := List.inj_on_of_nodup_map unique among member same
    rw [rewriteAt_of_eq rfl, rewriteAt_of_eq rfl]
  · rw [rewriteAt_of_ne same, rewriteAt_of_ne same]

/-- A move files the row, if its folder exists. -/
theorem rewrites_moveHost {folderId : Option Int}
    (filed : ∀ folder, folderId = some folder → ∃ known ∈ db.folders, known.id = folder) :
    Rewrites db ⟨.moveHost row.id folderId, faults, now⟩ row
      { row with folderId := folderId, updatedAt := now } := by
  refine ⟨rfl, ?_⟩
  intro state consistent folders tags member
  -- The move is accepted wherever the folders are the same.
  obtain ⟨after, moved⟩ := @moveToFolder_of_filed now row.id state.db folderId
    ⟨row, lookup_of_mem consistent.unique member⟩ (folders ▸ filed)
  refine ⟨{ state with db := after }, serialStep_eq_some.mpr ?_, ?_⟩
  · simp only [execute, moved, report]
  · obtain ⟨-, rfl⟩ := moveToFolder_eq moved
    exact ⟨map_rewriteAt_of_mem consistent.unique member, folders, tags⟩

/-- Tags that exist are given to a row without changing it. -/
theorem rewrites_setHostTags {tagIds : List Int} (known : TagsKnown db tagIds) :
    Rewrites db ⟨.setHostTags row.id tagIds, faults, now⟩ row row := by
  refine ⟨rfl, ?_⟩
  intro state consistent folders tags member
  have found := lookup_of_mem consistent.unique member
  -- In any store with the same tags, giving them succeeds.
  obtain ⟨after, done⟩ := (setTags_iff ⟨row, found⟩ tagIds).mpr (known.congr tags)
  refine ⟨{ state with db := after }, serialStep_eq_some.mpr ?_, ?_, ?_⟩
  · simp only [execute, done, report]
  · -- The row is rewritten to itself, since the tags are not part of it.
    have kept : state.db.hosts.map (rewriteAt row.id fun row => row) = state.db.hosts :=
      map_eq_self_iff.mpr fun _ _ _ => rfl
    rw [← @map_rewriteAt_of_mem row _ (fun row => row) consistent.unique member, kept]
    exact hosts_setTags done
  · obtain ⟨filed, tagged⟩ := frame_setTags done
    exact ⟨filed.trans folders, tagged.trans tags⟩

/-- A connection is counted in the row. -/
theorem rewrites_recordConnection (at_ : Int) :
    Rewrites db ⟨.recordConnection row.id at_, faults, now⟩ row
      { row with lastConnectedAt := some at_, connectCount := row.connectCount + 1 } := by
  refine ⟨rfl, ?_⟩
  intro state consistent folders tags member
  exact ⟨_, serialStep_eq_some.mpr rfl, map_rewriteAt_of_mem consistent.unique member, folders,
    tags⟩

/-- An update writes the fields of its form, and then treats the secret. -/
theorem rewrites_updateHost {dto : HostDto} {secret : SecretUpdateDto} {bare : Host}
    (named : row.id = dto.id) (read : rowToHost row = .ok bare)
    (valid : RowValid db.folders (rowOf (edited bare dto))) (known : TagsKnown db dto.tags)
    (takes : Takes faults (edited bare dto) secret) :
    Rewrites db ⟨.updateHost dto secret, faults, now⟩ row
      (secretEffect now secret (overwrite now (edited bare dto) row)) := by
  obtain ⟨-, source, alias_⟩ := rowToHost_origin read
  -- The fields are not those that say where a row is from.
  have same : origin (rowOf (edited bare dto)) = origin row :=
    have named : bare.id = row.id := rowToHost_id read
    Prod.ext named (Prod.ext source alias_)
  refine ⟨(origin_secretEffect ..).trans same, ?_⟩
  intro state consistent folders tags member
  have found := lookup_of_mem consistent.unique member
  -- In any such state the record reads as the row does, with the tags it has there.
  have shown : get state.db dto.id = .ok (some { bare with tags := tagsFor state.db dto.id }) :=
    get_eq_some.mpr ⟨row, bare, named ▸ found, read, rfl⟩
  obtain ⟨after, done, rows, filed, tagged⟩ := @updateHost_of_accepted now faults state dto secret _
    shown (accepted_of_origin consistent member same (folders ▸ valid)) (known.congr tags) takes
    consistent.unique
  refine ⟨after, serialStep_eq_some.mpr done, ?_, filed.trans folders, tagged.trans tags⟩
  rw [rows, ← named]
  exact map_rewriteAt_of_mem consistent.unique member

end Rewritings

end Tern.Desktop
