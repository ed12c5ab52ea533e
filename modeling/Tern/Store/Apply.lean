import Tern.Base.System
import Tern.Store.Hosts

/-! Committing the hosts chosen from an ssh_config, keyed by their aliases. -/

namespace Tern.Store

/-- What committing a candidate would do. -/
inductive Disposition where
  | new
  | update
  deriving DecidableEq, Repr

/-- One importable host. -/
structure Candidate where
  alias_ : String
  hostname : String
  port : UInt16
  username : String
  auth : AuthKind
  keyPath : Option String
  proxyJump : Option String
  overrides : HostOverrides
  disposition : Disposition
  deriving DecidableEq, Repr

/-- How many hosts an import created and updated. -/
structure ImportOutcome where
  created : Nat
  updated : Nat
  deriving DecidableEq, Repr

/-- An earlier import of the alias, brought up to date without undoing a rename. -/
def refreshed (existing : Host) (c : Candidate) : Host :=
  { existing with
    hostname := c.hostname
    port := c.port
    username := c.username
    auth := c.auth
    keyPath := c.keyPath
    proxyJump := c.proxyJump
    overrides := c.overrides }

/-- A first import of the alias, which brings no fallbacks and no credential. -/
def draftOf (c : Candidate) : NewHost where
  folderId := none
  name := c.alias_
  hostname := c.hostname
  port := c.port
  username := c.username
  auth := c.auth
  authFallbacks := []
  secretRef := none
  keyPath := c.keyPath
  overrides := c.overrides
  proxyJump := c.proxyJump
  source := .sshConfig
  sourceAlias := some c.alias_
  color := none
  notes := none

/-- One turn of the import loop. -/
def upsert (now : Int) (db : Database) (outcome : ImportOutcome) (c : Candidate) :
    Except StoreError (Database × ImportOutcome) :=
  match findBySourceAlias db c.alias_ with
  | .error reason => .error reason
  -- An alias that was imported before is found again by its alias, not by its name.
  | .ok (some existing) =>
    match update now db (refreshed existing c) with
    | .error reason => .error reason
    | .ok after => .ok (after, { outcome with updated := outcome.updated + 1 })
  | .ok none =>
    match create now db (draftOf c) with
    | .error reason => .error reason
    | .ok (_, after) => .ok (after, { outcome with created := outcome.created + 1 })

/-- Commit the chosen candidates, answering with the store as the loop leaves it. -/
def apply (now : Int) (db : Database) (outcome : ImportOutcome) :
    List Candidate → Database × Except StoreError ImportOutcome
  | [] => (db, .ok outcome)
  | c :: rest =>
    match upsert now db outcome c with
    -- What earlier turns wrote is not taken back.
    | .error reason => (db, .error reason)
    | .ok (after, outcome) => apply now after outcome rest

/-- The store after one turn, if the turn succeeds. -/
def upsertStep (now : Int) (db : Database) (c : Candidate) : Option Database :=
  (upsert now db ⟨0, 0⟩ c).toOption.map Prod.fst

/-- The counts of an import do not decide what it writes. -/
theorem upsert_outcome (now : Int) (db : Database) (outcome : ImportOutcome) (c : Candidate) :
    (upsert now db outcome c).toOption.map Prod.fst = upsertStep now db c := by
  -- The counts are carried along on every path and decide nothing.
  unfold upsertStep upsert
  cases findBySourceAlias db c.alias_ with
  | error reason => rfl
  | ok found =>
    cases found with
    | some existing =>
      dsimp only
      cases update now db (refreshed existing c) with
      | error reason => rfl
      | ok after => rfl
    | none =>
      dsimp only
      cases create now db (draftOf c) with
      | error reason => rfl
      | ok result => rfl

/-- The import loop is a run of its turns up to the first that fails. -/
theorem apply_store (now : Int) (db : Database) (outcome : ImportOutcome)
    (chosen : List Candidate) :
    (apply now db outcome chosen).1 = System.runWhile (upsertStep now) db chosen := by
  induction chosen generalizing db outcome with
  | nil => rfl
  | cons c rest ih =>
    have turn := upsert_outcome now db outcome c
    rw [apply, System.runWhile, ← turn]
    -- A turn that fails ends the loop with the store as it was before it.
    cases upsert now db outcome c with
    | error reason => rfl
    | ok result => exact ih result.1 result.2

/-- A turn refreshes the host of an earlier import, or inserts a host under a new id. -/
theorem upsertStep_cases {now : Int} {db after : Database} {c : Candidate}
    (taken : upsertStep now db c = some after) :
    (∃ existing, findBySourceAlias db c.alias_ = .ok (some existing) ∧
        update now db (refreshed existing c) = .ok after) ∨
      (findBySourceAlias db c.alias_ = .ok none ∧
        ∃ id, create now db (draftOf c) = .ok (id, after)) := by
  -- The look-up decides which of the two statements is made.
  unfold upsertStep upsert at taken
  cases found : findBySourceAlias db c.alias_ with
  | error reason => simp [found, Except.toOption] at taken
  | ok result =>
    cases result with
    | some existing =>
      left
      -- A turn that is taken has its statement accepted.
      cases updated : update now db (refreshed existing c) with
      | error reason => simp [found, updated, Except.toOption] at taken
      | ok database =>
        simp only [found, updated, Except.toOption, Option.map_some, Option.some.injEq] at taken
        exact ⟨existing, rfl, taken ▸ updated⟩
    | none =>
      right
      cases created : create now db (draftOf c) with
      | error reason => simp [found, created, Except.toOption] at taken
      | ok result =>
        simp only [found, created, Except.toOption, Option.map_some, Option.some.injEq] at taken
        exact ⟨rfl, result.1, by rw [← taken]⟩

end Tern.Store
