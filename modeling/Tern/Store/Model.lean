import Tern.Base.Text

/-! The records of the store, and the text forms that some of their columns take. -/

namespace Tern.Store

open Text

/-- What a store operation can fail with. -/
inductive StoreError where
  /-- A constraint of the schema refused the write. -/
  | constraint (name : String)
  /-- A column held a value its field has no room for. -/
  | conversion (column : String)
  /-- No row has the id. -/
  | notFound (entity : String) (id : Int)
  /-- The text names no authentication method. -/
  | unknownAuthMethod (value : String)
  /-- The text names no source of host records. -/
  | unknownHostSource (value : String)
  /-- The input is none the store takes. -/
  | invalid (reason : String)
  /-- The folder would come to lie inside itself. -/
  | folderCycle (id target : Int)
  deriving DecidableEq, Repr

/-- How a host authenticates. -/
inductive AuthKind where
  | agent
  | keyFile
  | password
  deriving DecidableEq, Repr

/-- The text a method is stored as. -/
def AuthKind.asStr : AuthKind → String
  | .agent => "agent"
  | .keyFile => "key_file"
  | .password => "password"

/-- The method a stored text names. -/
def AuthKind.tryFrom (value : String) : Except StoreError AuthKind :=
  if value = "agent" then .ok .agent
  else if value = "key_file" then .ok .keyFile
  else if value = "password" then .ok .password
  else .error (.unknownAuthMethod value)

/-- A stored method reads back. -/
@[simp] theorem AuthKind.tryFrom_asStr (kind : AuthKind) : tryFrom kind.asStr = .ok kind := by
  cases kind with
  | agent => rfl
  | keyFile => rfl
  | password => rfl

/-- Where a host record came from. -/
inductive HostSource where
  | manual
  | sshConfig
  deriving DecidableEq, Repr

/-- The text a source is stored as. -/
def HostSource.asStr : HostSource → String
  | .manual => "manual"
  | .sshConfig => "ssh_config"

/-- The source a stored text names. -/
def HostSource.tryFrom (value : String) : Except StoreError HostSource :=
  if value = "manual" then .ok .manual
  else if value = "ssh_config" then .ok .sshConfig
  else .error (.unknownHostSource value)

/-- A stored source reads back. -/
@[simp] theorem HostSource.tryFrom_asStr (source : HostSource) :
    tryFrom source.asStr = .ok source := by
  cases source with
  | manual => rfl
  | sshConfig => rfl

/-- A fallback chain as it is stored, where an empty one is no value at all. -/
def encodeAuthFallbacks (kinds : List AuthKind) : Option String :=
  if kinds.isEmpty then none
  else some (String.ofList (List.intercalate [','] (kinds.map fun kind => kind.asStr.toList)))

/-- A stored fallback chain, without the entries this build does not know. -/
def decodeAuthFallbacks (raw : Option String) : List AuthKind :=
  (List.splitOn ',' (raw.getD "").toList).filterMap fun piece =>
    (AuthKind.tryFrom (trim (String.ofList piece))).toOption

/-- A stored fallback chain reads back. -/
@[simp] theorem decode_encodeAuthFallbacks (kinds : List AuthKind) :
    decodeAuthFallbacks (encodeAuthFallbacks kinds) = kinds := by
  by_cases empty : kinds = []
  · rw [empty]
    rfl
  · -- No method's text holds a comma, so the pieces are the texts that were joined.
    have commaless : ∀ piece ∈ kinds.map (fun kind => kind.asStr.toList), ',' ∉ piece := by
      intro piece member
      obtain ⟨kind, -, rfl⟩ := List.mem_map.mp member
      cases kind with
      | agent => decide
      | keyFile => decide
      | password => decide
    have pieces := List.splitOn_intercalate ',' commaless (by simpa using empty)
    -- A method's text has no blanks to be trimmed, and reads back as the method.
    have each : ∀ kind : AuthKind,
        (AuthKind.tryFrom (trim (String.ofList kind.asStr.toList))).toOption = some kind := by
      intro kind
      cases kind with
      | agent => decide
      | keyFile => decide
      | password => decide
    have text : encodeAuthFallbacks kinds =
        some (String.ofList (List.intercalate [',']
          (kinds.map fun kind => kind.asStr.toList))) := by
      simp [encodeAuthFallbacks, empty]
    rw [decodeAuthFallbacks, text, Option.getD_some, String.toList_ofList, pieces]
    -- Every piece names its own method.
    clear pieces text commaless empty
    induction kinds with
    | nil => rfl
    | cons kind rest ih => rw [List.map_cons, List.filterMap_cons, each kind, ih]

/-- Per-host connection settings, where nothing means to inherit the global one. -/
structure HostOverrides where
  term : Option String
  keepaliveSecs : Option UInt32
  keepaliveMax : Option UInt32
  connectTimeoutSecs : Option UInt32
  windowSize : Option UInt32
  reconnectEnabled : Option Bool
  reconnectMaxAttempts : Option UInt32
  deriving DecidableEq, Repr

/-- Everything is inherited. -/
def HostOverrides.default : HostOverrides := ⟨none, none, none, none, none, none, none⟩

/-- A host record. -/
structure Host where
  id : Int
  folderId : Option Int
  name : String
  hostname : String
  port : UInt16
  username : String
  auth : AuthKind
  /-- Methods to try after the primary one fails, in order. -/
  authFallbacks : List AuthKind
  /-- The keyring account of the stored credential, never the credential. -/
  secretRef : Option String
  keyPath : Option String
  overrides : HostOverrides
  proxyJump : Option String
  source : HostSource
  sourceAlias : Option String
  color : Option String
  notes : Option String
  lastConnectedAt : Option Int
  connectCount : Int
  createdAt : Int
  updatedAt : Int
  tags : List Int
  deriving DecidableEq, Repr

/-- A host being created, whose id and timestamps are the store's to assign. -/
structure NewHost where
  folderId : Option Int
  name : String
  hostname : String
  port : UInt16
  username : String
  auth : AuthKind
  authFallbacks : List AuthKind
  secretRef : Option String
  keyPath : Option String
  overrides : HostOverrides
  proxyJump : Option String
  source : HostSource
  sourceAlias : Option String
  color : Option String
  notes : Option String
  deriving DecidableEq, Repr

/-- A folder that hosts may be filed under. -/
structure Folder where
  id : Int
  parentId : Option Int
  name : String
  position : Int
  createdAt : Int
  updatedAt : Int
  deriving DecidableEq, Repr

/-- A tag that hosts may carry. -/
structure Tag where
  id : Int
  name : String
  color : Option String
  createdAt : Int
  deriving DecidableEq, Repr

end Tern.Store
