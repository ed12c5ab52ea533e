import Tern.Desktop.Roles

/-! Which credentials a cleared or deleted host leaves behind in the keyring. -/

namespace Tern.Desktop

open Tern.Store

section Edits

/-- An update gets its fields and its tags into the store, and only the secret is left to treat. -/
structure Edits (now : Int) (db : Database) (dto : HostDto) (existing : Host) (after : Database) :
    Prop where
  shown : get db dto.id = .ok (some existing)
  written : ∃ middle, update now db (edited existing dto) = .ok middle ∧
    setTags middle dto.id dto.tags = .ok after

/-- The secret of an update is treated as it asks. -/
def secretStep (now : Int) (faults : Faults) (state : AppState) (id : Int) :
    SecretUpdateDto → AppState × Except CommandError Unit
  | .unchanged => (state, .ok ())
  | .set secret => storeSecretFor now faults state id secret
  | .clear => clearSecretFor now faults state id

variable {now : Int} {faults : Faults} {state : AppState} {dto : HostDto} {existing : Host}
  {after : Database}

/-- Past its fields and tags, an update is its secret step. -/
theorem Edits.updateHost_eq (edits : Edits now state.db dto existing after)
    (secret : SecretUpdateDto) : updateHost now faults state dto secret =
      secretStep now faults { state with db := after } dto.id secret := by
  -- The record was shown and both statements went through, so what is left is the secret.
  obtain ⟨middle, updated, done⟩ := edits.written
  simp only [updateHost, edits.shown, updated, done]
  cases secret with
  | unchanged => rfl
  | set text => rfl
  | clear => rfl

/-- An update that succeeds got its fields and its tags in. -/
theorem edits_of_ok {secret : SecretUpdateDto}
    (succeeded : (updateHost now faults state dto secret).2 = .ok ()) :
    ∃ existing after, Edits now state.db dto existing after := by
  -- Success leaves one way through: the record was shown, and both statements went in.
  unfold updateHost at succeeded
  cases shown : get state.db dto.id with
  | error reason => simp [shown] at succeeded
  | ok found =>
    cases found with
    | none => simp [shown] at succeeded
    | some existing =>
      cases updated : update now state.db (edited existing dto) with
      | error reason => simp [shown, updated] at succeeded
      | ok middle =>
        cases done : setTags middle dto.id dto.tags with
        | error reason => simp [shown, updated, done] at succeeded
        | ok after => exact ⟨existing, after, shown, middle, updated, done⟩

/-- Fields that the schema accepts go in, with tags that exist. -/
theorem edits_of_accepted {db : Database} (now : Int) (shown : get db dto.id = .ok (some existing))
    (accepted : checkRow db (rowOf (edited existing dto)) = .ok ())
    (known : TagsKnown db dto.tags) : ∃ after, Edits now db dto existing after := by
  -- The row is there and accepted, and stays there for the tags.
  have named : (edited existing dto).id = dto.id := (get_id shown : existing.id = dto.id)
  have present := present_of_get shown
  obtain ⟨middle, updated⟩ := update_of_accepted now (named ▸ present) accepted
  have still := (present_update updated dto.id).mpr present
  obtain ⟨after, done⟩ := (setTags_iff still _).mpr ((tagsKnown_update updated _).mpr known)
  exact ⟨after, shown, middle, updated, done⟩

/-- The record an edit leaves has the form's chain, and still its own reference. -/
theorem Edits.record {db : Database} (edits : Edits now db dto existing after) :
    ∃ host, get after dto.id = .ok (some host) ∧ host.secretRef = existing.secretRef ∧
      chain host = dto.chain ∧ checkRow after (rowOf host) = .ok () := by
  -- What is read back has the form's fields, and the reference no form can change.
  obtain ⟨middle, updated, done⟩ := edits.written
  have named : (edited existing dto).id = dto.id := (get_id edits.shown : existing.id = dto.id)
  have accepted := accepted_of_update updated
  obtain ⟨row, fields⟩ := get_update updated
  rw [named] at fields
  refine ⟨_, get_setTags done fields, rfl, rfl, ?_⟩
  rw [checkRow_setTags done]
  exact named ▸ accepted

/-- The form as a stored record fills it. -/
def formOf (host : Host) : HostDto where
  id := host.id
  folderId := host.folderId
  name := host.name
  hostname := host.hostname
  port := host.port
  username := host.username
  auth := host.auth
  authFallbacks := host.authFallbacks
  keyPath := host.keyPath
  overrides := host.overrides
  proxyJump := host.proxyJump
  color := host.color
  notes := host.notes
  tags := []

end Edits

section Secrets

variable {now : Int} {state : AppState} {id : Int} {host : Host}

/-- With a working keyring, a record the schema accepts gets its secret stored. -/
theorem storeSecretFor_eq (shown : get state.db id = .ok (some host))
    (accepted : checkRow state.db (rowOf host) = .ok ()) {role : Role}
    (roled : credentialRole (chain host) = some role) (secret : String) :
    ∃ db, update now state.db { host with secretRef := some (accountOf role id) } = .ok db ∧
      storeSecretFor now Faults.none state id secret =
        ({ entered state id role secret with db := db }, .ok ()) := by
  have named := get_id shown
  subst named
  -- The schema looks at no reference.
  obtain ⟨db, updated⟩ := @update_of_accepted state.db
    { host with secretRef := some (accountOf role host.id) } now (present_of_get shown) accepted
  refine ⟨db, updated, ?_⟩
  simp [storeSecretFor, shown, accountFor_eq, roled, setSecret, Faults.none, updated, entered]

/-- Clearing a secret empties the one account the record refers to. -/
theorem clearSecretFor_keyring (shown : get state.db id = .ok (some host)) :
    (clearSecretFor now Faults.none state id).1.keyring =
      host.secretRef.elim state.keyring fun account =>
        Function.update state.keyring account none := by
  unfold clearSecretFor
  simp only [shown]
  cases referred : host.secretRef with
  | none => rfl
  | some account =>
    simp only [clearSecret, Faults.none, Option.elim]
    -- Whether or not the reference can be dropped, the entry is gone.
    cases update now state.db { host with secretRef := none } with
    | error reason => rfl
    | ok db => rfl

/-- Clearing the secret of a record the schema accepts succeeds. -/
theorem clearSecretFor_ok (shown : get state.db id = .ok (some host))
    (accepted : checkRow state.db (rowOf host) = .ok ()) :
    (clearSecretFor now Faults.none state id).2 = .ok () := by
  have named := get_id shown
  subst named
  unfold clearSecretFor
  cases referred : host.secretRef with
  | none => simp [shown, referred]
  | some account =>
    -- A record is as acceptable without its reference as with it.
    obtain ⟨db, updated⟩ := @update_of_accepted state.db
      { host with secretRef := none } now (present_of_get shown) accepted
    simp [shown, referred, clearSecret, Faults.none, updated]

/-- A deletion empties both accounts of its id, whether or not there is a record to delete. -/
theorem deleteHost_keyring (state : AppState) (id : Int) :
    (deleteHost Faults.none state id).1.keyring =
      Function.update (Function.update state.keyring (passwordAccount id) none)
        (passphraseAccount id) none := by
  unfold deleteHost
  cases delete state.db id with
  | error reason => rfl
  | ok db => rfl

/-- With both accounts of an id emptied, nothing stands under it. -/
theorem unclaimed_of_both (keyring : Keyring) (id : Int) :
    Unclaimed (Function.update (Function.update keyring (passwordAccount id) none)
      (passphraseAccount id) none) id := by
  intro role
  cases role with
  | password =>
    -- The later of the two writes does not fill the first account again.
    have different : accountOf .password id ≠ accountOf .passphrase id := by
      intro same
      cases (accountOf_inj same).1
    exact (Function.update_of_ne different _ _).trans (Function.update_self _ _ _)
  | passphrase => exact Function.update_self _ _ _

/-- An emptied account is the only one that changes. -/
theorem entry_of_emptied {keyring : Keyring} {account other : String}
    (entry : Function.update keyring account none other ≠ none) : keyring other ≠ none := by
  by_cases same : other = account
  · subst same
    exact absurd (Function.update_self _ _ _) entry
  · rwa [Function.update_of_ne same] at entry

end Secrets

section Tracked

/--
What a record remembers of its credentials.

Whatever stands in the keyring under an id stands under the one account its record refers to,
and under an id that is in no row stands nothing.
-/
structure Tracked (db : Database) (keyring : Keyring) : Prop where
  referenced : ∀ id kinds ref, CredentialsIn db id kinds ref → ∀ role,
    keyring (accountOf role id) ≠ none → ref = some (accountOf role id)
  clean : ∀ id, ¬Present db id → Unclaimed keyring id

variable {db after : Database} {keyring : Keyring}

/-- A fresh installation has nothing to remember. -/
theorem tracked_fresh : Tracked Database.fresh AppState.fresh.keyring where
  -- There is no record to remember anything, and the keyring is empty.
  referenced := by
    intro id kinds ref ⟨row, member, _⟩
    cases member
  clean := by
    intro id _ role
    rfl

/-- A record is written back with the reference to what stands under its id. -/
theorem Tracked.write (tracked : Tracked db keyring) {now : Int} {host : Host}
    (updated : update now db host = .ok after) {later : Keyring}
    (others : ∀ id role, id ≠ host.id → later (accountOf role id) = keyring (accountOf role id))
    (own : ∀ role, later (accountOf role host.id) ≠ none →
      host.secretRef = some (accountOf role host.id)) : Tracked after later where
  referenced := by
    intro id kinds ref shown role entry
    -- The record that was written is answered for, and the others are as they were.
    rcases credentialsIn_update updated shown with ⟨rfl, -, rfl⟩ | ⟨different, older⟩
    · exact own role entry
    · rw [others id role different] at entry
      exact tracked.referenced id kinds ref older role entry
  clean := by
    intro id absent role
    have missing : ¬Present db id := fun there => absent ((present_update updated id).mpr there)
    -- The record that was written is there.
    have different : id ≠ host.id := by
      rintro rfl
      exact missing (update_eq updated).1
    rw [others id role different]
    exact tracked.clean id missing role

/-- A record that keeps its reference remembers as much as before. -/
theorem Tracked.rewrite (tracked : Tracked db keyring) {now : Int} {host : Host}
    (updated : update now db host = .ok after) {kinds : List AuthKind}
    (older : CredentialsIn db host.id kinds host.secretRef) : Tracked after keyring :=
  tracked.write updated (fun _ _ _ => rfl) (tracked.referenced host.id kinds host.secretRef older)

/-- A new record has nothing to refer to. -/
theorem Tracked.insert (tracked : Tracked db keyring) {now id : Int} {draft : NewHost}
    (created : create now db draft = .ok (id, after)) : Tracked after keyring where
  referenced := by
    intro other kinds ref shown role entry
    rcases credentialsIn_create created shown with ⟨rfl, -, -⟩ | older
    · -- Nothing stands under the id of an insert, which is new.
      have missing : ¬Present db other := by
        intro ⟨row, found⟩
        rw [(create_eq created).1, lookup_nextId] at found
        cases found
      exact absurd (tracked.clean other missing role) entry
    · exact tracked.referenced other kinds ref older role entry
  clean := by
    intro other absent
    apply tracked.clean other
    intro there
    exact absent ((present_create created other).mpr (.inr there))

/-- Tagging concerns no credentials. -/
theorem Tracked.setTags (tracked : Tracked db keyring) {id : Int} {tags : List Int}
    (done : setTags db id tags = .ok after) : Tracked after keyring where
  -- Tags are in a table of their own, which no credential is read from.
  referenced := by
    intro other kinds ref shown
    exact tracked.referenced other kinds ref (credentialsIn_setTags done shown)
  clean := by
    intro other absent
    apply tracked.clean other
    intro ⟨row, found⟩
    exact absent ⟨row, by rw [← found]; exact lookup_setTags done other⟩

/-- Counting a connection concerns no credentials either. -/
theorem Tracked.recordConnection (tracked : Tracked db keyring) (id at_ : Int) :
    Tracked (recordConnection db id at_) keyring where
  -- Counting rewrites neither a chain nor a reference.
  referenced := by
    intro other kinds ref shown
    exact tracked.referenced other kinds ref (credentialsIn_recordConnection shown)
  clean := by
    intro other absent
    apply tracked.clean other
    intro there
    exact absent ((present_recordConnection db id at_ other).mpr there)

/-- With fewer entries there is less to remember. -/
theorem Tracked.fewer (tracked : Tracked db keyring) {later : Keyring}
    (fewer : ∀ account, later account ≠ none → keyring account ≠ none) : Tracked db later where
  -- An entry that is left was there before, and was remembered then.
  referenced := fun id kinds ref shown role entry =>
    tracked.referenced id kinds ref shown role (fewer _ entry)
  clean := by
    intro id absent role
    by_contra entry
    exact fewer _ entry (tracked.clean id absent role)

/-- A deleted record takes nothing away that another one remembers. -/
theorem Tracked.delete (tracked : Tracked db keyring) {id : Int}
    (bare : Unclaimed keyring id) (deleted : delete db id = .ok after) : Tracked after keyring where
  referenced := by
    intro other kinds ref shown
    exact tracked.referenced other kinds ref (credentialsIn_delete deleted shown)
  clean := by
    intro other absent
    -- The id that was deleted joins those in no row, with nothing under it.
    by_cases same : other = id
    · exact same ▸ bare
    · apply tracked.clean other
      intro ⟨row, found⟩
      exact absent ⟨row, by rw [lookup_delete deleted, if_neg same]; exact found⟩

end Tracked

section Commands

variable {now : Int} {state : AppState}

/-- Every secret of a record that can still be cleared or deleted goes when it is. -/
def ClearsBoth (state : AppState) : Prop :=
  (∀ now dto, (updateHost now Faults.none state dto .clear).2 = .ok () →
    Unclaimed (updateHost now Faults.none state dto .clear).1.keyring dto.id) ∧
  ∀ id, (deleteHost Faults.none state id).2 = .ok () →
    Unclaimed (deleteHost Faults.none state id).1.keyring id

/--
Storing a secret finds nothing beside it.

An update that gets as far as its secret stores it under the account of its chain's role,
and the other account of the host is empty.
-/
def SetsAlone (state : AppState) (action : Int × Command) : Prop :=
  ∀ dto secret existing, action.2 = .updateHost dto (.set secret) →
    get state.db dto.id = .ok (some existing) →
    checkRow state.db (rowOf (edited existing dto)) = .ok () → TagsKnown state.db dto.tags →
    ∀ role, credentialRole dto.chain = some role →
      ∀ other, state.keyring (accountOf other dto.id) ≠ none → other = role

/-- What every record remembers is all there is to clear. -/
theorem Tracked.clearsBoth (tracked : Tracked state.db state.keyring) : ClearsBoth state := by
  refine ⟨?_, ?_⟩
  · intro now dto succeeded role
    -- An update that succeeded has written its fields and its tags, and then cleared the secret.
    obtain ⟨existing, after, edits⟩ := edits_of_ok succeeded
    obtain ⟨host, shown, kept, -, -⟩ := edits.record
    have cleared := @clearSecretFor_keyring now { state with db := after } dto.id host shown
    rw [edits.updateHost_eq]
    refine (congrFun cleared (accountOf role dto.id)).trans ?_
    -- If there is an entry, then the reference is to it.
    have remembered := tracked.referenced _ _ _ (credentialsIn_of_get edits.shown) role
    rw [kept]
    by_cases entry : state.keyring (accountOf role dto.id) = none
    · cases existing.secretRef with
      | none => exact entry
      | some account =>
        by_cases same : accountOf role dto.id = account
        · simp [same]
        · simp [Function.update_of_ne same, entry]
    · rw [remembered entry]
      exact Function.update_self _ _ _
  · intro id _
    rw [deleteHost_keyring]
    exact unclaimed_of_both state.keyring id

/-- An entry that its record does not refer to stays behind when the record is cleared. -/
theorem not_clearsBoth_of_forgotten {id : Int} {host : Host}
    (shown : get state.db id = .ok (some host)) (accepted : checkRow state.db (rowOf host) = .ok ())
    {role : Role} (entry : state.keyring (accountOf role id) ≠ none)
    (forgotten : host.secretRef ≠ some (accountOf role id)) : ¬ClearsBoth state := by
  intro clears
  have named := get_id shown
  subst named
  -- The form is saved just as the record filled it, with the secret to be cleared.
  have untagged : TagsKnown state.db (formOf host).tags :=
    fun tag member => absurd member List.not_mem_nil
  obtain ⟨after, edits⟩ :=
    @edits_of_accepted (formOf host) host state.db 0 shown accepted untagged
  obtain ⟨saved, found, kept, -, still⟩ := edits.record
  have step := @Edits.updateHost_eq 0 Faults.none state (formOf host) host after edits .clear
  have empty := clears.1 0 (formOf host)
  rw [step] at empty
  have succeeded :=
    @clearSecretFor_ok 0 { state with db := after } (formOf host).id saved found still
  -- The update succeeds, so that by assumption nothing is left under the id.
  have gone := empty succeeded role
  have cleared := @clearSecretFor_keyring 0 { state with db := after } (formOf host).id saved found
  rw [secretStep, cleared, kept] at gone
  -- What was cleared is another account, if anything was.
  cases referred : host.secretRef with
  | none =>
    rw [referred] at gone
    exact entry gone
  | some account =>
    rw [referred] at gone forgotten
    have different : accountOf role host.id ≠ account :=
      fun same => forgotten (congrArg some same.symm)
    exact entry ((Function.update_of_ne different _ _).symm.trans gone)

/-- A stored secret is remembered, when nothing else stands under the id. -/
theorem Tracked.storeSecretFor (tracked : Tracked state.db state.keyring) {id : Int} {host : Host}
    (shown : get state.db id = .ok (some host))
    (accepted : checkRow state.db (rowOf host) = .ok ())
    (alone : ∀ role, credentialRole (chain host) = some role →
      ∀ other, state.keyring (accountOf other id) ≠ none → other = role) (secret : String) :
    Tracked (storeSecretFor now Faults.none state id secret).1.db
      (storeSecretFor now Faults.none state id secret).1.keyring := by
  cases roled : credentialRole (chain host) with
  | none =>
    -- A chain of agents has no account, and nothing is stored.
    have nothing : (Desktop.storeSecretFor now Faults.none state id secret).1 = state := by
      simp [Desktop.storeSecretFor, shown, accountFor_eq, roled]
    rw [nothing]
    exact tracked
  | some role =>
    -- With one, the account is filled and the record refers to it.
    obtain ⟨db, updated, stored⟩ := @storeSecretFor_eq now state id host shown accepted role roled
      secret
    rw [stored]
    have named := get_id shown
    subst named
    refine tracked.write updated ?_ ?_
    · -- The accounts of other records are as they were.
      intro other otherRole different
      apply Function.update_of_ne
      intro same
      exact different (accountOf_inj same).2
    · intro other entry
      by_cases same : other = role
      · exact same ▸ rfl
      · -- The other account held nothing, and holds nothing now.
        have apart : accountOf other host.id ≠ accountOf role host.id :=
          fun equal => same (accountOf_inj equal).1
        have older : state.keyring (accountOf other host.id) ≠ none := by
          rw [← Function.update_of_ne apart (some secret) state.keyring]
          exact entry
        exact absurd (alone role roled other older) same

/-- A cleared secret leaves nothing to remember. -/
theorem Tracked.clearSecretFor (tracked : Tracked state.db state.keyring) (now id : Int) :
    Tracked (clearSecretFor now Faults.none state id).1.db
      (clearSecretFor now Faults.none state id).1.keyring := by
  refine @clearSecretFor_rule now Faults.none state
    (fun reached => Tracked reached.db reached.keyring) id ?_ ?_ ?_
  · intro _
    exact tracked
  · intro host account reason _ _ _
    -- A reference that stays remembers more than there is.
    exact tracked.fewer fun _ entry => entry_of_emptied entry
  · intro host account db shown referred updated
    have named := get_id shown
    refine (tracked.fewer fun _ entry => entry_of_emptied entry).write updated
      (fun _ _ _ => rfl) ?_
    intro role entry
    have still : Function.update state.keyring account none (accountOf role id) ≠ none :=
      named ▸ entry
    -- All that stood under the id stood under the account that was emptied.
    have remembered := tracked.referenced _ _ _ (credentialsIn_of_get shown) role
      (entry_of_emptied still)
    rw [referred] at remembered
    rw [Option.some.inj remembered, Function.update_self] at still
    exact absurd rfl still

/-- A created host remembers the secret it was created with. -/
theorem Tracked.createHost (tracked : Tracked state.db state.keyring) (now : Int)
    (dto : NewHostDto) (secret : Option String) :
    Tracked (createHost now Faults.none state dto secret).1.db
      (createHost now Faults.none state dto secret).1.keyring := by
  -- Between the insert and the secret, nothing stands under the id of the new row.
  refine @createHost_rule now Faults.none state
    (fun reached => Tracked reached.db reached.keyring) dto secret
    (fun id reached => Tracked reached.db reached.keyring ∧ Unclaimed reached.keyring id ∧
      ∃ host, get reached.db id = .ok (some host) ∧ checkRow reached.db (rowOf host) = .ok ())
    tracked ?_ ?_ ?_ ?_
  · intro id db created
    refine ⟨tracked.insert created, ?_, _, get_create created, accepted_of_create created⟩
    -- The id of the new row was in no row before.
    apply tracked.clean
    intro ⟨row, found⟩
    rw [(create_eq created).1, lookup_nextId] at found
    cases found
  · intro id reached db ⟨held, bare, host, shown, accepted⟩ done
    refine ⟨held.setTags done, bare, _, get_setTags done shown, ?_⟩
    rw [checkRow_setTags done]
    exact accepted
  · intro id reached held
    exact held.1
  · intro id reached text ⟨held, bare, host, shown, accepted⟩ _ _
    exact held.storeSecretFor shown accepted
      (fun _ _ other entry => absurd (bare other) entry) text

/-- An updated host remembers its secret, when the update finds nothing beside it. -/
theorem Tracked.updateHost (tracked : Tracked state.db state.keyring) {now : Int} {dto : HostDto}
    {secret : SecretUpdateDto} (alone : SetsAlone state (now, .updateHost dto secret)) :
    Tracked (updateHost now Faults.none state dto secret).1.db
      (updateHost now Faults.none state dto secret).1.keyring := by
  -- The fields go in under the old reference.
  have edit : ∀ {existing db}, get state.db dto.id = .ok (some existing) →
      update now state.db (edited existing dto) = .ok db → Tracked db state.keyring := by
    intro existing db shown updated
    have named : (edited existing dto).id = dto.id := (get_id shown : existing.id = dto.id)
    have credentials := credentialsIn_of_get shown
    rw [← named] at credentials
    exact tracked.rewrite updated credentials
  refine @updateHost_rule now Faults.none state
    (fun reached => Tracked reached.db reached.keyring) dto secret
    (fun reached => Tracked reached.db reached.keyring ∧
      ∃ existing after, Edits now state.db dto existing after ∧
        reached = { state with db := after }) tracked ?_ ?_ ?_ ?_ ?_
  · intro existing db reason shown updated _
    exact edit shown updated
  · intro existing db after shown updated done
    -- Tags are no secrets.
    exact ⟨(edit shown updated).setTags done, existing, after, ⟨shown, db, updated, done⟩, rfl⟩
  · intro reached held _
    exact held.1
  · rintro reached text ⟨held, existing, after, edits, rfl⟩ rfl
    -- The secret goes beside nothing, as the update got as far as this.
    obtain ⟨host, shown, -, methods, accepted⟩ := edits.record
    apply held.storeSecretFor shown accepted
    rw [methods]
    obtain ⟨middle, updated, done⟩ := edits.written
    have known := (tagsKnown_update updated dto.tags).mp
      ((setTags_iff ((present_update updated dto.id).mpr (present_of_get edits.shown)) _).mp
        ⟨after, done⟩)
    exact alone dto text existing rfl edits.shown (update_eq updated).2.1 known
  · intro reached held _
    exact held.1.clearSecretFor now dto.id

/-- An update that stores its secret beside another one leaves what no clearing finds. -/
theorem not_clearsBoth_of_beside {action : Int × Command} (beside : ¬SetsAlone state action) :
    ¬ClearsBoth (exec action.1 Faults.none state action.2) := by
  simp only [SetsAlone, not_forall] at beside
  obtain ⟨dto, secret, existing, commanded, shown, accepted, known, role, roled, other, entry,
    different⟩ := beside
  -- The update is accepted up to its secret, which is then stored.
  obtain ⟨after, edits⟩ := edits_of_accepted action.1 shown accepted known
  obtain ⟨host, found, -, methods, still⟩ := edits.record
  rw [← methods] at roled
  obtain ⟨db, updated, stored⟩ := @storeSecretFor_eq action.1 { state with db := after } dto.id host
    found still role roled secret
  rw [commanded, exec, edits.updateHost_eq, secretStep, stored]
  -- The record now refers to the account just filled.
  obtain ⟨saved, reads, referred, kept⟩ : ∃ saved, get db dto.id = .ok (some saved) ∧
      saved.secretRef = some (accountOf role dto.id) ∧ checkRow db (rowOf saved) = .ok () := by
    obtain ⟨row, reads⟩ := get_update updated
    exact ⟨_, (congrArg (get db) (get_id found)).symm.trans reads, rfl, accepted_of_update updated⟩
  have apart : accountOf other dto.id ≠ accountOf role dto.id :=
    fun same => different (accountOf_inj same).1
  apply not_clearsBoth_of_forgotten reads kept
  · -- The other account is as full as before.
    change Function.update state.keyring (accountOf role dto.id) (some secret)
      (accountOf other dto.id) ≠ none
    rw [Function.update_of_ne apart]
    exact entry
  · rw [referred]
    exact fun same => apart (Option.some.inj same).symm

/-- Deleting a host forgets what stands under its id, because nothing does. -/
theorem Tracked.deleteHost (tracked : Tracked state.db state.keyring) (id : Int) :
    Tracked (deleteHost Faults.none state id).1.db (deleteHost Faults.none state id).1.keyring := by
  -- Both accounts are emptied before the row goes, so nothing is left under its id.
  have cleared : Tracked state.db (Function.update (Function.update state.keyring
      (passwordAccount id) none) (passphraseAccount id) none) :=
    tracked.fewer fun _ entry => entry_of_emptied (entry_of_emptied entry)
  rw [deleteHost_keyring]
  unfold Desktop.deleteHost
  cases deleted : Store.delete state.db id with
  | error reason => exact cleared
  | ok db => exact cleared.delete (unclaimed_of_both state.keyring id) deleted

/-- Importing hosts leaves every reference as it is. -/
theorem Tracked.importSshConfig (tracked : Tracked state.db state.keyring) (now : Int)
    (chosen : List Candidate) : Tracked (apply now state.db ⟨0, 0⟩ chosen).1 state.keyring := by
  rw [apply_store]
  refine @System.runWhile_invariant _ _ (upsertStep now) (fun _ _ => True)
    (fun db => Tracked db state.keyring) ?_ state.db chosen ?_ tracked
  · intro db after c _ held taken
    rcases upsertStep_cases taken with ⟨existing, found, updated⟩ | ⟨missing, id, created⟩
    · -- A refreshed host keeps its reference.
      have credentials := credentialsIn_of_alias found
      exact held.rewrite updated credentials
    · exact held.insert created
  · -- Nothing is asked of the candidates.
    exact System.meets_of_forall (fun _ _ => trivial) _ _

/-- One command keeps every record's memory when it stores nothing beside another secret. -/
theorem tracked_step {state next : AppState} {action : Int × Command}
    (tracked : Tracked state.db state.keyring) (taken : workingStep state action = some next)
    (alone : SetsAlone state action) : Tracked next.db next.keyring := by
  -- Only an update can set one secret beside another, which is what the condition rules out.
  cases taken
  obtain ⟨now, command⟩ := action
  cases command with
  | createHost dto secret => exact tracked.createHost now dto secret
  | updateHost dto secret => exact tracked.updateHost alone
  | deleteHost id => exact tracked.deleteHost id
  | importSshConfig chosen => exact tracked.importSshConfig now chosen
  | connectHost id established =>
    rcases connectHost_cases Faults.none state id established with same | ⟨at_, counted⟩
    · simp only [exec, same]
      exact tracked
    · simp only [exec, counted]
      exact tracked.recordConnection id at_
  | testConnection hostId form => exact tracked

end Commands

section Runs

/--
Every clearing and every deletion leaves nothing of its host in the keyring
in exactly the runs in which no update stores a secret beside one of the other role.
-/
theorem no_stranded_credentials_iff (actions : List (Int × Command)) :
    System.Throughout workingStep ClearsBoth AppState.fresh actions ↔
      System.Meets workingStep SetsAlone AppState.fresh actions := by
  refine @System.throughout_iff_meets _ _ workingStep SetsAlone
    (fun state => Tracked state.db state.keyring) ClearsBoth ?_ ?_ ?_ ?_ AppState.fresh actions
    tracked_fresh
  · exact fun tracked => tracked.clearsBoth
  · exact fun tracked taken alone => tracked_step tracked taken alone
  · intro state next action _ taken beside
    cases taken
    exact not_clearsBoth_of_beside beside
  · -- A command always leaves some state.
    intro state action refused
    cases refused

/-- A key's passphrase is saved, and then the host is switched to a password of its own. -/
def passwordBesidePassphrase : List (Int × Command) :=
  [(0, .createHost keyFileHost (some "correct horse")),
    (1, .updateHost { passwordHost with id := 1 } (.set "s3cret"))]

/-- The password is cleared, and the passphrase is still in the keyring. -/
theorem cleared_host_leaves_passphrase :
    ∃ final, System.run workingStep AppState.fresh passwordBesidePassphrase = some final ∧
      (updateHost 2 Faults.none final { passwordHost with id := 1 } .clear).2 = .ok () ∧
      (updateHost 2 Faults.none final { passwordHost with id := 1 } .clear).1.keyring
        (passphraseAccount 1) = some "correct horse" ∧
      ¬System.Throughout workingStep ClearsBoth AppState.fresh passwordBesidePassphrase := by
  -- The run ends with a passphrase that clearing the password does not reach.
  refine ⟨_, rfl, rfl, by decide, ?_⟩
  intro throughout
  have clears := throughout.final rfl
  have gone := clears.1 2 { passwordHost with id := 1 } rfl .passphrase
  exact absurd gone (by decide)

end Runs

end Tern.Desktop
