import Tern.Store.RoundTrip

/-! The tags of a store: one for each name, and attached to nothing that is gone. -/

namespace Tern.Store

/-- What holds of the tags and of the pairs that attach them. -/
structure TagKeys (db : Database) : Prop where
  unique : (db.tags.map Tag.id).Nodup
  /-- No two tags have one name, whatever the case of its letters. -/
  distinct : (db.tags.map fun tag => nocase tag.name).Nodup
  named : ∀ tag ∈ db.tags, tag.name ≠ "" ∧ Text.trim tag.name = tag.name
  once : db.hostTags.Nodup
  known : ∀ pair ∈ db.hostTags, ∃ tag ∈ db.tags, tag.id = pair.2

section Keys

variable {now id : Int} {db after : Database}

/-- The keys hold where the tags are as before, with all their pairs or fewer of them. -/
theorem TagKeys.of_sublist (keys : TagKeys db) (tags : after.tags = db.tags)
    (pairs : after.hostTags.Sublist db.hostTags) : TagKeys after := by
  refine ⟨tags ▸ keys.unique, tags ▸ keys.distinct, tags ▸ keys.named,
    keys.once.sublist pairs, fun pair inside => ?_⟩
  rw [tags]
  exact keys.known pair (pairs.subset inside)

/-- The id of a new tag is above every one that is there. -/
theorem lt_nextTagId {tag : Tag} (member : tag ∈ tags) : tag.id < nextTagId tags := by
  have bound : ∀ (tags : List Tag) (start : Int),
      start ≤ tags.foldl (fun largest tag => max largest tag.id) start ∧
        ∀ tag ∈ tags, tag.id ≤ tags.foldl (fun largest tag => max largest tag.id) start := by
    intro tags
    -- The largest so far only grows, so it stays quantified over.
    induction tags with
    | nil => exact fun start => ⟨le_rfl, fun _ member => absurd member List.not_mem_nil⟩
    | cons first rest ih =>
      intro start
      obtain ⟨grown, above⟩ := ih (max start first.id)
      refine ⟨le_trans (le_max_left _ _) grown, fun tag member => ?_⟩
      rcases List.mem_cons.mp member with rfl | later
      · exact le_trans (le_max_right _ _) grown
      · exact above tag later
  have := (bound tags 0).2 tag member
  rw [nextTagId]
  omega

/-- A tag that is created is a new one under a new name, or the one that has the name. -/
theorem getOrCreateTag_cases {name : String} {color : Option String}
    (created : getOrCreateTag now db name color = .ok (id, after)) :
    Text.trim name ≠ "" ∧
      ((∃ tag ∈ db.tags, tag.id = id ∧ nocase tag.name = nocase (Text.trim name) ∧ after = db) ∨
        (∀ tag ∈ db.tags, nocase tag.name ≠ nocase (Text.trim name)) ∧ id = nextTagId db.tags ∧
          after = { db with tags := db.tags ++ [⟨id, Text.trim name, color, now⟩] }) := by
  -- The name is trimmed, refused when blank, looked up, and inserted when it is new.
  unfold getOrCreateTag at created
  dsimp only at created
  split at created
  · cases created
  · rename_i filled
    refine ⟨fun blank => filled (by simp [blank]), ?_⟩
    split at created
    · rename_i tag found
      cases created
      exact .inl ⟨tag, List.mem_of_find?_eq_some found, rfl,
        by simpa using List.find?_some found, rfl⟩
    · rename_i missing
      cases created
      exact .inr ⟨fun tag member => by simpa using List.find?_eq_none.mp missing tag member,
        rfl, rfl⟩

/-- A creation keeps the keys: only a name that is free makes a tag. -/
theorem TagKeys.getOrCreateTag {name : String} {color : Option String}
    (keys : TagKeys db) (created : getOrCreateTag now db name color = .ok (id, after)) :
    TagKeys after := by
  -- The new id is above the others, and the new name is none of theirs.
  obtain ⟨filled, ⟨tag, -, -, -, rfl⟩ | ⟨free, rfl, rfl⟩⟩ := getOrCreateTag_cases created
  · exact keys
  · refine ⟨?_, ?_, ?_, keys.once, ?_⟩
    · rw [List.map_append, List.nodup_append]
      refine ⟨keys.unique, List.nodup_singleton _, fun old stored new last same => ?_⟩
      obtain ⟨tag, member, rfl⟩ := List.mem_map.mp stored
      have below := lt_nextTagId member
      simp only [List.map_cons, List.map_nil, List.mem_singleton] at last
      omega
    · rw [List.map_append, List.nodup_append]
      refine ⟨keys.distinct, List.nodup_singleton _, fun old stored new last same => ?_⟩
      obtain ⟨tag, member, rfl⟩ := List.mem_map.mp stored
      rw [List.map_singleton, List.mem_singleton] at last
      -- The name was looked for without regard to case, and not found.
      exact free tag member (same.trans last)
    · intro tag member
      rcases List.mem_append.mp member with old | new
      · exact keys.named tag old
      · rw [List.mem_singleton.mp new]
        exact ⟨filled, Text.trim_trim name⟩
    · intro pair inside
      obtain ⟨tag, member, same⟩ := keys.known pair inside
      exact ⟨tag, List.mem_append_left _ member, same⟩

/-- A deletion takes the pairs of its tag with it. -/
theorem TagKeys.deleteTag (keys : TagKeys db) (deleted : deleteTag db id = .ok after) :
    TagKeys after := by
  -- What is left of the tags and of the pairs is some of each, in their order.
  unfold Store.deleteTag at deleted
  split at deleted
  · cases deleted
    have sub : (db.tags.filter fun tag => tag.id ≠ id).Sublist db.tags := List.filter_sublist
    refine ⟨keys.unique.sublist (sub.map _), keys.distinct.sublist (sub.map _),
      fun tag member => keys.named tag (sub.subset member), keys.once.filter _, ?_⟩
    intro pair inside
    obtain ⟨inside, other⟩ := List.mem_filter.mp inside
    obtain ⟨tag, member, same⟩ := keys.known pair inside
    exact ⟨tag, List.mem_filter.mpr ⟨member, by rw [same]; exact other⟩, same⟩
  · cases deleted

/-- Inserting tags attaches each of them once, and only tags that are there. -/
theorem TagKeys.insertTags {tags : List Int} {pairs result : List (Int × Int)}
    (keys : TagKeys { db with hostTags := pairs })
    (inserted : tags.foldlM (insertTag db id) pairs = .ok result) :
    TagKeys { db with hostTags := result } := by
  -- A pair that is there already is left, and a new one is put behind the others.
  induction tags generalizing pairs with
  | nil =>
    cases inserted
    exact keys
  | cons tag rest ih =>
    obtain ⟨next, head, onward⟩ := bind_eq_ok inserted
    refine ih ?_ onward
    unfold insertTag at head
    split at head
    · cases head
    · next accepted =>
      split at head
      · cases head
        exact keys
      · next fresh =>
        cases head
        -- The foreign key lets only tags in that are there.
        have there : ∃ known ∈ db.tags, known.id = tag := by simpa using (not_or.mp accepted).1
        refine ⟨keys.unique, keys.distinct, keys.named, ?_, ?_⟩
        · exact keys.once.append (List.nodup_singleton _) (by simpa using fresh)
        · intro pair inside
          rcases List.mem_append.mp inside with old | new
          · exact keys.known pair old
          · rw [List.mem_singleton.mp new]
            exact there

/-- Tagging a host keeps the keys. -/
theorem TagKeys.setTags {tags : List Int} (keys : TagKeys db)
    (done : setTags db id tags = .ok after) : TagKeys after := by
  -- The old pairs of the host go first, and the new ones are inserted into what is left.
  obtain ⟨pairs, inserted, done⟩ := bind_eq_ok done
  cases done
  have kept : TagKeys { db with hostTags := db.hostTags.filter fun pair => pair.1 ≠ id } :=
    keys.of_sublist rfl List.filter_sublist
  exact kept.insertTags inserted

end Keys

section Runs

variable {now id : Int} {db after : Database}

/-- A creation of a host tags nothing. -/
theorem TagKeys.create {draft : NewHost} (keys : TagKeys db)
    (created : create now db draft = .ok (id, after)) : TagKeys after := by
  obtain ⟨-, rfl⟩ := create_eq created
  exact keys.of_sublist rfl (List.Sublist.refl _)

/-- An update of a host's own columns tags nothing. -/
theorem TagKeys.update {host : Host} (keys : TagKeys db)
    (updated : update now db host = .ok after) : TagKeys after := by
  obtain ⟨-, -, rfl⟩ := update_eq updated
  exact keys.of_sublist rfl (List.Sublist.refl _)

/-- A call on the folders tags nothing. -/
theorem TagKeys.folderStep {call : Int × FolderCall} (keys : TagKeys db)
    (taken : folderStep db call = some after) : TagKeys after := by
  -- Each of the calls writes to the folders and to the rows, and to nothing of the tags.
  have same : ∀ {id : Int} {rewrite : Folder → Folder} {reached : Database},
      updateFolder db id rewrite = .ok reached → TagKeys reached := by
    intro id rewrite reached updated
    obtain ⟨folder, -, -, -, rfl⟩ := updateFolder_eq updated
    exact keys.of_sublist rfl (List.Sublist.refl _)
  obtain ⟨now, call⟩ := call
  cases call with
  | create parent name =>
    cases taken
    refine settle_snd_preserves keys fun _ _ created => ?_
    obtain ⟨folder, -, -, -, rfl⟩ := createFolder_eq created
    exact keys.of_sublist rfl (List.Sublist.refl _)
  | rename id name =>
    cases taken
    refine settle_preserves keys fun after renamed => ?_
    obtain ⟨trimmed, -, updated⟩ := bind_eq_ok renamed
    exact same updated
  | reparent id to_ =>
    obtain ⟨result, moved, rfl⟩ := Option.map_eq_some_iff.mp taken
    refine settle_preserves keys fun after done => ?_
    subst done
    exact same (updateFolder_of_reparent moved)
  | delete id =>
    cases taken
    refine settle_preserves keys fun after deleted => ?_
    -- The hosts of a folder that goes stay, and so do their tags.
    obtain ⟨-, rfl⟩ := deleteFolder_eq deleted
    exact keys.of_sublist rfl (List.Sublist.refl _)

/-- One call keeps the keys of the tags. -/
theorem tagKeys_step {call : Int × StoreCall} (keys : TagKeys db)
    (taken : storeStep db call = some after) : TagKeys after := by
  obtain ⟨now, call⟩ := call
  -- A call that fails leaves the store, and the rest is one lemma for each call.
  cases call with
  | createHost draft =>
    cases taken
    exact settle_snd_preserves keys fun _ _ created => keys.create created
  | updateHost host =>
    cases taken
    exact settle_preserves keys fun _ updated => keys.update updated
  | deleteHost id =>
    cases taken
    refine settle_preserves keys fun after deleted => ?_
    -- The pairs of a host go with it.
    obtain ⟨-, rfl⟩ := delete_eq deleted
    exact keys.of_sublist rfl List.filter_sublist
  | moveHost id to_ =>
    cases taken
    refine settle_preserves keys fun after moved => ?_
    obtain ⟨-, rfl⟩ := moveToFolder_eq moved
    exact keys.of_sublist rfl (List.Sublist.refl _)
  | setHostTags id tags =>
    cases taken
    exact settle_preserves keys fun _ done => keys.setTags done
  | recordConnection id at_ =>
    cases taken
    exact keys.of_sublist rfl (List.Sublist.refl _)
  | importHosts chosen =>
    cases taken
    show TagKeys (apply now db ⟨0, 0⟩ chosen).1
    -- An import that fails ends behind the last turn that was taken.
    rw [apply_store]
    refine System.runWhile_invariant TagKeys (fun _ keys taken => ?_)
      (@System.meets_of_forall _ _ _ (fun _ _ => True) (fun _ _ => trivial) db chosen) keys
    rcases upsertStep_cases taken with ⟨existing, -, updated⟩ | ⟨-, id, created⟩
    · exact keys.update updated
    · exact keys.create created
  | folder call => exact keys.folderStep taken
  | createTag name color =>
    cases taken
    exact settle_snd_preserves keys fun _ _ created => keys.getOrCreateTag created
  | deleteTag id =>
    cases taken
    exact settle_preserves keys fun _ deleted => keys.deleteTag deleted

/-- In every store that calls lead to, the keys of the tags hold. -/
theorem Reachable.tagKeys (reachable : Reachable db) : TagKeys db := by
  -- In a fresh store there is neither a tag nor a pair.
  obtain ⟨calls, ran⟩ := reachable
  have fresh : TagKeys Database.fresh :=
    ⟨List.nodup_nil, List.nodup_nil, fun _ member => absurd member List.not_mem_nil,
      List.nodup_nil, fun _ member => absurd member List.not_mem_nil⟩
  exact System.run_preserves tagKeys_step fresh ran

end Runs

section Shown

variable {now id : Int} {db after : Database}

/-- What is shown under an id, with the tags that are attached to it. -/
theorem get_attached (db : Database) (id : Int) :
    get db id = match lookup db id with
      | none => .ok none
      | some row => (rowToHost row).map fun host => some { host with tags := tagsFor db id } := by
  -- The tags are those of the id, which is that of the row that is found.
  unfold get
  cases found : lookup db id with
  | none => rfl
  | some row =>
    simp only [attachTags, lookup_id found]
    cases rowToHost row <;> rfl

/-- An update leaves whatever another id shows. -/
theorem get_update_apart {host : Host} (updated : update now db host = .ok after)
    (apart : id ≠ host.id) : get after id = get db id := by
  have rows : lookup after id = lookup db id := by rw [lookup_update updated, if_neg apart]
  have pairs : tagsFor after id = tagsFor db id := by
    rw [tagsFor, (sameBut_update updated).hostTags, tagsFor]
  rw [get_attached, get_attached, rows, pairs]

/-- A record that is shown has the tags that are attached to it. -/
theorem tags_of_get {host : Host} (shown : get db id = .ok (some host)) :
    host.tags = tagsFor db id := by
  obtain ⟨row, bare, -, -, rfl⟩ := get_eq_some.mp shown
  rfl

/-- No tag is attached to one host twice. -/
theorem TagKeys.nodup_attached (keys : TagKeys db) (id : Int) :
    ((db.hostTags.filter fun pair => pair.1 = id).map Prod.snd).Nodup := by
  refine (keys.once.filter _).map_on ?_
  intro pair here other there same
  -- Two pairs of one host differ in their tags.
  have first : pair.1 = id := by simpa using (List.mem_filter.mp here).2
  have second : other.1 = id := by simpa using (List.mem_filter.mp there).2
  exact Prod.ext (first.trans second.symm) same

/-- The tags of a host are in ascending order. -/
theorem sorted_tagsFor (db : Database) (id : Int) : (tagsFor db id).Pairwise (· ≤ ·) :=
  List.pairwise_insertionSort _ _

/-- The tags of a host are the ones that the pairs attach. -/
theorem mem_tagsFor_iff {tag : Int} : tag ∈ tagsFor db id ↔ (id, tag) ∈ db.hostTags := by
  simp [tagsFor]

/-- The tags of a host, each once. -/
theorem TagKeys.nodup_tagsFor (keys : TagKeys db) (id : Int) : (tagsFor db id).Nodup :=
  (List.perm_insertionSort _ _).nodup_iff.mpr (keys.nodup_attached id)

/-- A list of tags in ascending order, each of them once, is known by what is in it. -/
theorem TagKeys.tagsFor_eq {tags : List Int} (keys : TagKeys db) (sorted : tags.Pairwise (· ≤ ·))
    (nodup : tags.Nodup) (attached : ∀ tag, (id, tag) ∈ db.hostTags ↔ tag ∈ tags) :
    tagsFor db id = tags := by
  have members : (tagsFor db id).Perm tags :=
    (List.perm_ext_iff_of_nodup (keys.nodup_tagsFor id) nodup).mpr fun tag =>
      mem_tagsFor_iff.trans (attached tag)
  exact members.eq_of_pairwise' (r := (· ≤ ·)) (sorted_tagsFor db id) sorted

/-- A deletion takes one tag off every host. -/
theorem TagKeys.tagsFor_deleteTag (keys : TagKeys db)
    (deleted : Store.deleteTag db id = .ok after) (host : Int) :
    tagsFor after host = (tagsFor db host).filter (· ≠ id) := by
  -- Both lists are sorted and without repetition, so it is enough to compare their members.
  refine (keys.deleteTag deleted).tagsFor_eq ((sorted_tagsFor db host).filter _)
    ((keys.nodup_tagsFor host).filter _) fun tag => ?_
  unfold Store.deleteTag at deleted
  split at deleted
  · cases deleted
    simp [mem_tagsFor_iff]
  · cases deleted

/-- Tagging a host with the tags that it has changes none. -/
theorem TagKeys.tagsFor_setTags (keys : TagKeys db)
    (done : Store.setTags db id (tagsFor db id) = .ok after) (host : Int) :
    tagsFor after host = tagsFor db host := by
  -- Both lists are sorted and without repetition, so it is enough to compare their members.
  refine (keys.setTags done).tagsFor_eq (sorted_tagsFor db host) (keys.nodup_tagsFor host) ?_
  intro tag
  rw [mem_setTags done, mem_tagsFor_iff, mem_tagsFor_iff]
  by_cases own : host = id
  · simp [own]
  · simp [own]

/-- Tagging a host with the tags that it has leaves every record as it is shown. -/
theorem TagKeys.get_setTags (keys : TagKeys db)
    (done : Store.setTags db id (tagsFor db id) = .ok after) (host : Int) :
    get after host = get db host := by
  simp only [get_attached, lookup_setTags done, keys.tagsFor_setTags done]

/-- A deletion of a tag leaves the rows. -/
theorem lookup_deleteTag (deleted : deleteTag db id = .ok after) (host : Int) :
    lookup after host = lookup db host := by
  -- The deletion writes to the tags and their pairs only.
  unfold deleteTag at deleted
  split at deleted
  · cases deleted
    rfl
  · cases deleted

/-- Another spelling of a tag's name finds the tag. -/
theorem TagKeys.getOrCreateTag_again {tag : Tag} {name : String} (keys : TagKeys db)
    (member : tag ∈ db.tags) (same : nocase tag.name = nocase (Text.trim name))
    (filled : Text.trim name ≠ "") (later : Int) (color : Option String) :
    Store.getOrCreateTag later db name color = .ok (tag.id, db) := by
  have taken : (nocase tag.name == nocase (Text.trim name)) = true := beq_iff_eq.mpr same
  have hit : (db.tags.find? fun known => nocase known.name == nocase (Text.trim name)).isSome :=
    List.find?_isSome.mpr ⟨tag, member, taken⟩
  obtain ⟨known, found⟩ := Option.isSome_iff_exists.mp hit
  have hold := List.find?_some found
  have named : nocase known.name = nocase (Text.trim name) := beq_iff_eq.mp hold
  -- Only one tag has the name.
  obtain rfl : known = tag :=
    List.inj_on_of_nodup_map keys.distinct (List.mem_of_find?_eq_some found) member
      (named.trans same.symm)
  have open_ : ¬(Text.trim name).isEmpty = true := fun empty => filled (by simpa using empty)
  unfold Store.getOrCreateTag
  dsimp only
  rw [if_neg open_, found]

end Shown

section Vocabulary

variable {now id : Int} {db after : Database} {name : String} {color : Option String}

/-- What asking for a tag by its name comes to. -/
structure Answered (db : Database) (name : String) (id : Int) (after : Database) : Prop where
  /-- Every spelling of the name is answered with the tag, and changes nothing any more. -/
  settled : ∀ later respelled other, Text.trim respelled ≠ "" →
    nocase (Text.trim respelled) = nocase (Text.trim name) →
    getOrCreateTag later after respelled other = .ok (id, after)
  shown : ∀ host, get after host = get db host
  /-- A tag that is new is on no host, also when its id was another tag's before. -/
  unattached : (∀ tag ∈ db.tags, tag.id ≠ id) →
    ∀ host record, get after host = .ok (some record) → id ∉ record.tags

/--
Tags are one vocabulary in every store that calls lead to.

No name is there twice, asking for one in any spelling is answered alike and touches no host,
a deleted tag is taken off every host, and a new tag is on none.
-/
theorem tags_are_one_vocabulary (reachable : Reachable db) :
    TagKeys db ∧
      (∀ now name color id after, getOrCreateTag now db name color = .ok (id, after) →
        Answered db name id after) ∧
      ∀ id after, deleteTag db id = .ok after → ∀ host, get after host =
        (get db host).map (Option.map fun record =>
          { record with tags := record.tags.filter (· ≠ id) }) := by
  have keys := reachable.tagKeys
  refine ⟨keys, ?_, ?_⟩
  · intro now name color id after created
    obtain ⟨hosts, -, pairs⟩ := getOrCreateTag_frame created
    have frame : ∀ host, tagsFor after host = tagsFor db host := fun host => by
      rw [tagsFor, pairs, tagsFor]
    have rows : ∀ host, lookup after host = lookup db host := fun host => by
      rw [lookup, hosts, lookup]
    refine ⟨?_, fun host => by simp only [get_attached, frame, rows], ?_⟩
    · intro later respelled other filled alike
      -- The tag that is answered with goes by the name that was asked for.
      have held : ∃ tag ∈ after.tags, tag.id = id ∧ nocase tag.name = nocase (Text.trim name) := by
        obtain ⟨-, ⟨tag, member, same, named, rfl⟩ | ⟨-, rfl, rfl⟩⟩ := getOrCreateTag_cases created
        · exact ⟨tag, member, same, named⟩
        · exact ⟨_, List.mem_append_right _ (List.mem_singleton_self _), rfl, rfl⟩
      obtain ⟨tag, member, rfl, named⟩ := held
      exact (keys.getOrCreateTag created).getOrCreateTag_again member (named.trans alike.symm)
        filled later other
    · intro new host record found attached
      obtain ⟨row, bare, -, -, rfl⟩ := get_eq_some.mp found
      rw [frame] at attached
      -- A pair names a tag that is there.
      obtain ⟨tag, member, same⟩ := keys.known _ (mem_tagsFor_iff.mp attached)
      exact new tag member same
  · intro id after deleted host
    rw [get_attached, get_attached, lookup_deleteTag deleted, keys.tagsFor_deleteTag deleted]
    cases lookup db host with
    | none => rfl
    | some row =>
      dsimp only
      cases rowToHost row <;> rfl

/-- A tag that was deleted comes back under its old id, and not on the host that had it. -/
theorem deleted_tag_returns_unattached :
    ∃ db after record, System.run storeStep Database.fresh
        [(7, .createHost ⟨none, "web", "web.example", 22, "me", .agent, [], none, none, .default,
          none, .manual, none, none, none⟩),
          (7, .createTag "prod" none), (7, .setHostTags 1 [1]), (8, .deleteTag 1)] = some db ∧
      getOrCreateTag 9 db " Prod " none = .ok (1, after) ∧
      getOrCreateTag 10 after "PROD" (some "red") = .ok (1, after) ∧
      get after 1 = .ok (some record) ∧ 1 ∉ record.tags := by
  -- The store is reached by its calls, and the rest is the theorem on a new tag.
  obtain ⟨db, after, record, ran, created, shown⟩ :
      ∃ db after record, System.run storeStep Database.fresh
        [(7, .createHost ⟨none, "web", "web.example", 22, "me", .agent, [], none, none, .default,
          none, .manual, none, none, none⟩),
          (7, .createTag "prod" none), (7, .setHostTags 1 [1]), (8, .deleteTag 1)] = some db ∧
        getOrCreateTag 9 db " Prod " none = .ok (1, after) ∧
        get after 1 = .ok (some record) ∧ db.tags = [] := ⟨_, _, _, rfl, rfl, rfl, rfl⟩
  obtain ⟨shown, free⟩ := shown
  have answered := (tags_are_one_vocabulary ⟨_, ran⟩).2.1 9 " Prod " none 1 after created
  have again := answered.settled 10 "PROD" (some "red") (by decide) (by decide)
  refine ⟨db, after, record, ran, created, again, shown, answered.unattached ?_ 1 record shown⟩
  rw [free]
  exact fun tag member => absurd member List.not_mem_nil

end Vocabulary

end Tern.Store
