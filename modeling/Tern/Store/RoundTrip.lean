import Tern.Store.Layout

/-! What is stored of a host, and what comes back of it. -/

namespace Tern.Store

/-- Every pair that tags a host names one that is there. -/
def TagsOwned (db : Database) : Prop :=
  ∀ pair ∈ db.hostTags, pair.1 ∈ db.hosts.map HostRow.id

section Tags

variable {now id : Int} {db after : Database}

/-- Where no host goes and no pair comes, every pair still names a host that is there. -/
theorem TagsOwned.mono (owned : TagsOwned db)
    (hosts : db.hosts.map HostRow.id ⊆ after.hosts.map HostRow.id)
    (pairs : after.hostTags ⊆ db.hostTags) : TagsOwned after :=
  fun pair member => hosts (owned pair (pairs member))

/-- Rewriting some of the hosts under their ids takes none of them away. -/
theorem TagsOwned.rewrite {chosen : HostRow → Prop} [DecidablePred chosen]
    {rewrite : HostRow → HostRow} (owned : TagsOwned db)
    (named : ∀ row, chosen row → (rewrite row).id = row.id)
    (hosts : after.hosts = db.hosts.map fun row => if chosen row then rewrite row else row)
    (pairs : after.hostTags = db.hostTags) : TagsOwned after := by
  refine owned.mono ?_ (by rw [pairs]; exact List.Subset.refl _)
  rw [hosts, List.map_map]
  intro known member
  -- A host is there under its id whether it was chosen or not.
  obtain ⟨row, there, rfl⟩ := List.mem_map.mp member
  refine List.mem_map.mpr ⟨row, there, ?_⟩
  rw [Function.comp_apply]
  split
  · next rewritten => exact named row rewritten
  · rfl

/-- An insert takes no host away. -/
theorem TagsOwned.create {draft : NewHost} (owned : TagsOwned db)
    (created : create now db draft = .ok (id, after)) : TagsOwned after := by
  obtain ⟨-, rfl⟩ := create_eq created
  refine owned.mono ?_ (List.Subset.refl _)
  rw [List.map_append]
  exact List.subset_append_left _ _

/-- An update takes no host away. -/
theorem TagsOwned.update {host : Host} (owned : TagsOwned db)
    (updated : update now db host = .ok after) : TagsOwned after := by
  obtain ⟨-, -, rfl⟩ := update_eq updated
  refine owned.rewrite ?_ rfl rfl
  exact fun _ same => same.symm

/-- A deletion takes the pairs of its host along. -/
theorem TagsOwned.delete (owned : TagsOwned db) (deleted : delete db id = .ok after) :
    TagsOwned after := by
  -- A pair that is left is of another host, whose row is left too.
  obtain ⟨-, rfl⟩ := delete_eq deleted
  intro pair member
  obtain ⟨old, other⟩ := List.mem_filter.mp member
  obtain ⟨row, there, named⟩ := List.mem_map.mp (owned pair old)
  refine List.mem_map.mpr ⟨row, List.mem_filter.mpr ⟨there, ?_⟩, named⟩
  rw [named]
  exact other

/-- A tag that is inserted is one of a host that is there. -/
theorem present_of_insertTag {pairs next : List (Int × Int)} {tag : Int}
    (inserted : insertTag db id pairs tag = .ok next) : id ∈ db.hosts.map HostRow.id := by
  -- The pair refers to the row of the host, which the schema looks up.
  unfold insertTag at inserted
  split at inserted
  · cases inserted
  · next accepted =>
    have there : lookup db id ≠ none := by simpa using (not_or.mp accepted).2
    obtain ⟨row, found⟩ := Option.ne_none_iff_exists'.mp there
    exact List.mem_map.mpr ⟨row, List.mem_of_find?_eq_some found, lookup_id found⟩

/-- Tagging adds pairs of a host that is there. -/
theorem TagsOwned.setTags {tags : List Int} (owned : TagsOwned db)
    (done : setTags db id tags = .ok after) : TagsOwned after := by
  intro pair member
  rw [hosts_setTags done]
  rcases (mem_setTags done pair).mp member with ⟨old, -⟩ | ⟨rfl, tag⟩
  · exact owned pair old
  · -- The first of the tags was only inserted because the host is there.
    obtain ⟨_, inserted, -⟩ := bind_eq_ok done
    cases tags with
    | nil => cases tag
    | cons first rest =>
      obtain ⟨next, head, -⟩ := bind_eq_ok inserted
      exact present_of_insertTag head

/-- One turn of an import keeps every pair with its host. -/
theorem TagsOwned.upsertStep {c : Candidate} (owned : TagsOwned db)
    (taken : upsertStep now db c = some after) : TagsOwned after := by
  rcases upsertStep_cases taken with ⟨existing, -, updated⟩ | ⟨-, id, created⟩
  · exact owned.update updated
  · exact owned.create created

/-- A call on the folders keeps every pair with its host. -/
theorem TagsOwned.folderStep {call : Int × FolderCall} (owned : TagsOwned db)
    (taken : folderStep db call = some after) : TagsOwned after := by
  -- A folder's own calls leave the hosts and the pairs as they are.
  have same : ∀ {id : Int} {rewrite : Folder → Folder} {reached : Database},
      updateFolder db id rewrite = .ok reached → TagsOwned reached := by
    intro id rewrite reached updated
    obtain ⟨folder, -, -, -, rfl⟩ := updateFolder_eq updated
    exact owned
  obtain ⟨now, call⟩ := call
  cases call with
  | create parent name =>
    cases taken
    refine settle_snd_preserves owned fun _ _ created => ?_
    obtain ⟨folder, -, -, -, rfl⟩ := createFolder_eq created
    exact owned
  | rename id name =>
    cases taken
    refine settle_preserves owned fun after renamed => ?_
    obtain ⟨trimmed, -, updated⟩ := bind_eq_ok renamed
    exact same updated
  | reparent id to_ =>
    obtain ⟨result, moved, rfl⟩ := Option.map_eq_some_iff.mp taken
    refine settle_preserves owned fun after done => ?_
    subst done
    exact same (updateFolder_of_reparent moved)
  | delete id =>
    cases taken
    refine settle_preserves owned fun after deleted => ?_
    obtain ⟨-, rfl⟩ := deleteFolder_eq deleted
    -- A host whose folder goes is filed elsewhere under its own id.
    refine owned.rewrite ?_ rfl rfl
    exact fun _ _ => rfl

/-- One call keeps every pair with its host. -/
theorem tagsOwned_step {call : Int × StoreCall} (owned : TagsOwned db)
    (taken : storeStep db call = some after) : TagsOwned after := by
  obtain ⟨now, call⟩ := call
  -- A call that fails leaves the store, and one that succeeds takes no host from its pairs.
  cases call with
  | createHost draft =>
    cases taken
    exact settle_snd_preserves owned fun _ _ created => owned.create created
  | updateHost host =>
    cases taken
    exact settle_preserves owned fun _ updated => owned.update updated
  | deleteHost id =>
    cases taken
    exact settle_preserves owned fun _ deleted => owned.delete deleted
  | moveHost id to_ =>
    cases taken
    refine settle_preserves owned fun after moved => ?_
    obtain ⟨-, rfl⟩ := moveToFolder_eq moved
    -- A row that is rewritten keeps its id, and so its tags.
    refine owned.rewrite ?_ rfl rfl
    exact fun _ _ => rfl
  | setHostTags id tags =>
    cases taken
    exact settle_preserves owned fun _ done => owned.setTags done
  | recordConnection id at_ =>
    cases taken
    refine owned.rewrite ?_ rfl rfl
    exact fun _ _ => rfl
  | importHosts chosen =>
    cases taken
    show TagsOwned (apply now db ⟨0, 0⟩ chosen).1
    -- An import that fails ends behind the last turn that was taken.
    rw [apply_store]
    exact System.runWhile_invariant TagsOwned (fun _ owned taken => owned.upsertStep taken)
      (@System.meets_of_forall _ _ _ (fun _ _ => True) (fun _ _ => trivial) db chosen) owned
  | folder call => exact owned.folderStep taken
  | createTag name color =>
    cases taken
    refine settle_snd_preserves owned fun _ _ created => ?_
    obtain ⟨hosts, -, pairs⟩ := getOrCreateTag_frame created
    refine owned.mono ?_ (by rw [pairs]; exact List.Subset.refl _)
    rw [hosts]
    exact List.Subset.refl _
  | deleteTag id =>
    cases taken
    refine settle_preserves owned fun after deleted => ?_
    unfold deleteTag at deleted
    split at deleted
    · -- The pairs of a tag go with it, and no host does.
      cases deleted
      exact owned.mono (List.Subset.refl _) (List.filter_subset_self _)
    · cases deleted

/-- In every store that calls lead to, only hosts that are there are tagged. -/
theorem Reachable.tagsOwned (reachable : Reachable db) : TagsOwned db := by
  obtain ⟨calls, ran⟩ := reachable
  exact System.run_preserves tagsOwned_step (fun _ member => absurd member List.not_mem_nil) ran

end Tags

section RoundTrip

variable {db after : Database} {now id : Int} {draft : NewHost} {host before : Host}

/-- Two stores agree on everything but the host under an id. -/
structure SameBut (id : Int) (db after : Database) : Prop where
  others : after.hosts.filter (fun row => row.id ≠ id) = db.hosts.filter fun row => row.id ≠ id
  folders : after.folders = db.folders
  tags : after.tags = db.tags
  hostTags : after.hostTags = db.hostTags

/-- What is stored of a draft under a new id, as it comes back. -/
structure HoldsDraft (id now : Int) (draft : NewHost) (host : Host) : Prop where
  id : host.id = id
  folderId : host.folderId = draft.folderId
  name : host.name = draft.name
  hostname : host.hostname = draft.hostname
  port : host.port = draft.port
  username : host.username = draft.username
  auth : host.auth = draft.auth
  authFallbacks : host.authFallbacks = draft.authFallbacks
  secretRef : host.secretRef = draft.secretRef
  keyPath : host.keyPath = draft.keyPath
  overrides : host.overrides = draft.overrides
  proxyJump : host.proxyJump = draft.proxyJump
  source : host.source = draft.source
  sourceAlias : host.sourceAlias = draft.sourceAlias
  color : host.color = draft.color
  notes : host.notes = draft.notes
  lastConnectedAt : host.lastConnectedAt = none
  connectCount : host.connectCount = 0
  createdAt : host.createdAt = now
  updatedAt : host.updatedAt = now
  tags : host.tags = []

/-- The record an insert makes of a draft holds the draft. -/
theorem holdsDraft_hostOfDraft (id now : Int) (draft : NewHost) :
    HoldsDraft id now draft (hostOfDraft id now draft) := by
  constructor <;> rfl

/-- Nothing tags a host that is not there. -/
theorem TagsOwned.tagsFor_eq_nil (owned : TagsOwned db) (missing : lookup db id = none) :
    tagsFor db id = [] := by
  -- A pair of this host would have a row to refer to.
  have unpaired : db.hostTags.filter (fun pair => pair.1 = id) = [] := by
    rw [List.filter_eq_nil_iff]
    intro pair member
    obtain ⟨row, there, named⟩ := List.mem_map.mp (owned pair member)
    have other := List.find?_eq_none.mp missing row there
    simpa [named] using other
  rw [tagsFor, unpaired]
  rfl

/-- The port of a record is the one in its row. -/
theorem rowToHost_port {row : HostRow} (read : rowToHost row = .ok host) :
    (host.port.toNat : Int) = row.port := by
  -- The port is the first column that is converted, and the range check lets nothing change.
  unfold rowToHost at read
  obtain ⟨port, first, read⟩ := bind_eq_ok read
  obtain ⟨_, -, read⟩ := bind_eq_ok read
  obtain ⟨_, -, read⟩ := bind_eq_ok read
  obtain ⟨_, -, read⟩ := bind_eq_ok read
  obtain ⟨_, -, read⟩ := bind_eq_ok read
  obtain ⟨_, -, read⟩ := bind_eq_ok read
  obtain ⟨_, -, read⟩ := bind_eq_ok read
  obtain ⟨_, -, read⟩ := bind_eq_ok read
  cases read
  unfold readU16 at first
  split at first
  · rename_i bounds
    cases first
    -- Within the bounds the conversion loses nothing.
    have small : row.port.toNat < UInt16.size := by
      rw [UInt16.size]
      omega
    have same : (UInt16.ofNat row.port.toNat).toNat = row.port.toNat :=
      UInt16.toNat_ofNat_of_lt small
    dsimp only
    rw [same]
    omega
  · cases first

/-- A record that a store shows is one that its schema accepts. -/
theorem Intact.accepted (intact : Intact db) (shown : get db id = .ok (some host)) :
    host.id = id ∧ checkRow db (rowOf host) = .ok () := by
  obtain ⟨row, bare, found, read, rfl⟩ := get_eq_some.mp shown
  have member : row ∈ db.hosts := List.mem_of_find?_eq_some found
  have named := rowToHost_id read
  have port := rowToHost_port read
  obtain ⟨folder, source, alias_⟩ := rowToHost_origin read
  refine ⟨named.trans (lookup_id found),
    checkRow_eq_ok_iff.mpr ⟨rowValid_rowOf_iff.mpr ⟨?_, ?_⟩, ?_⟩⟩
  · intro zero
    -- A row with port zero would not have been accepted.
    have served := (intact.consistent.valid row member).port
    simp only at zero
    rw [zero] at port
    simp at port
    omega
  · have filed := (intact.consistent.valid row member).folder
    rwa [← folder] at filed
  · -- The row of the record clashes with none that its own does not clash with.
    have own := intact.consistent.free row member
    rwa [Clashes, ← named, ← source, ← alias_] at own

/-- A host is stored under an id that no row has. -/
theorem sameBut_create (created : create now db draft = .ok (id, after)) :
    lookup db id = none ∧ SameBut id db after := by
  obtain ⟨rfl, rfl⟩ := create_eq created
  refine ⟨lookup_nextId db, ?_, rfl, rfl, rfl⟩
  rw [List.filter_append]
  simp [rowOf, hostOfDraft]

/-- An update rewrites the row of its id alone. -/
theorem sameBut_update (updated : update now db host = .ok after) : SameBut host.id db after := by
  obtain ⟨-, -, rfl⟩ := update_eq updated
  refine ⟨?_, rfl, rfl, rfl⟩
  dsimp only
  induction db.hosts with
  | nil => rfl
  | cons row rest ih =>
    rw [List.map_cons]
    by_cases same : row.id = host.id
    · -- The row is left out on both sides, rewritten or not.
      simpa [same, overwrite, rowOf] using ih
    · simpa [same] using ih

end RoundTrip

end Tern.Store
