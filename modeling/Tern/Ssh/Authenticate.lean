import Tern.Desktop.Auth
import Tern.Desktop.Reconnect

/-! Authentication: a chain of methods is tried in order, and what went wrong is folded into one
error. -/

namespace Tern.Ssh

open Tern.Desktop (AuthMethod Duration Jitter ReconnectPolicy)

/-- What the transport library reports when an exchange breaks off. -/
inductive TransportError where
  | unknownKey
  | other (text : String)
  deriving DecidableEq, Repr

/-- The transport library's own words for an error. -/
def TransportError.display : TransportError → String
  | .unknownKey => "Unknown server key"
  | .other text => text

/-- Why managing a session failed. -/
inductive SshError where
  | connectTimeout (after : Duration)
  | hostKeyRejected
  | authFailed (detail : String)
  | agent (detail : String)
  | keyLoad (detail : String)
  | protocol (error : TransportError)
  | io (text : String)
  | notConnected
  deriving DecidableEq, Repr

/-- A whole part and the digits behind the point that are not trailing zeros. -/
def decimal (whole fraction width : Nat) : String :=
  let digits := (toString fraction).toList
  -- A fraction of 5 in a field of three is .005, so its missing digits are zeros in front.
  let padded := List.replicate (width - digits.length) '0' ++ digits
  if fraction = 0 then toString whole
  else toString whole ++ "." ++ String.ofList (padded.reverse.dropWhile (· = '0')).reverse

/-- A span in the largest unit it holds one of. -/
def durationText (span : Duration) : String :=
  let nanos := span.nanos
  if 10 ^ 9 ≤ nanos then decimal (nanos / 10 ^ 9) (nanos % 10 ^ 9) 9 ++ "s"
  else if 10 ^ 6 ≤ nanos then decimal (nanos / 10 ^ 6) (nanos % 10 ^ 6) 6 ++ "ms"
  else if 10 ^ 3 ≤ nanos then decimal (nanos / 10 ^ 3) (nanos % 10 ^ 3) 3 ++ "µs"
  else toString nanos ++ "ns"

/-- The message of an error. -/
def SshError.display : SshError → String
  | .connectTimeout after => "connect timed out after " ++ durationText after
  | .hostKeyRejected => "host key rejected"
  | .authFailed detail => "authentication failed: " ++ detail
  | .agent detail => "ssh-agent: " ++ detail
  | .keyLoad detail => "could not load key: " ++ detail
  | .protocol error => error.display
  | .io text => text
  | .notConnected => "not connected"

/-- Whether another attempt could plausibly succeed. -/
def SshError.isRetryable : SshError → Bool
  | .connectTimeout _ => true
  | .io _ => true
  | .protocol _ => true
  | .hostKeyRejected => false
  | .authFailed _ => false
  | .agent _ => false
  | .keyLoad _ => false
  | .notConnected => false

/-- The authentication methods of the protocol. -/
inductive MethodKind where
  | none
  | password
  | publicKey
  | hostBased
  | keyboardInteractive
  deriving DecidableEq, Repr

/-- A server's verdict on one attempt. -/
inductive AuthResult where
  | success
  | failure (remainingMethods : List MethodKind) (partialSuccess : Bool)
  deriving DecidableEq, Repr

/-- The signature hashes a server may support for an RSA key. -/
inductive HashAlg where
  | sha256
  | sha512
  deriving DecidableEq, Repr

/-- An identity that an agent holds. -/
inductive AgentIdentity where
  | publicKey (algorithm blob : String)
  | certificate (blob : String)
  deriving DecidableEq, Repr

/-- Where agents are looked for. -/
inductive AgentPlatform where
  | unix
  | windows
  | other
  deriving DecidableEq, Repr

/-- One request that leaves the program while it authenticates. -/
inductive Call (Key : Type) where
  | password (user password : String)
  | rsaHash
  | publickey (user : String) (key : Key) (hash : Option HashAlg)
  | connectEnv
  | connectNamedPipe (pipe : String)
  | connectPageant
  | identities
  | publickeyWith (user algorithm blob : String) (hash : Option HashAlg)
  deriving DecidableEq, Repr

/--
The server, the agents and the key files on the other side of the program.
Each answer may depend on every request so far, the newest one first.
-/
structure Peer (Key : Type) where
  platform : AgentPlatform
  loadSecretKey : String → Option String → Except String Key
  password : List (Call Key) → Except TransportError AuthResult
  rsaHash : List (Call Key) → Except TransportError (Option (Option HashAlg))
  publickey : List (Call Key) → Except TransportError AuthResult
  connectEnv : List (Call Key) → Except String Unit
  connectNamedPipe : List (Call Key) → Except String Unit
  connectPageant : List (Call Key) → Except String Unit
  identities : List (Call Key) → Except String (List AgentIdentity)
  publickeyWith : List (Call Key) → Except String AuthResult

section Methods

variable {Key : Type} (peer : Peer Key)

/-- Which method of the protocol a configured one uses. -/
def methodKind : AuthMethod → MethodKind
  | .password _ => .password
  | .keyFile _ _ => .publicKey
  | .agent => .publicKey

/-- The short name of a method in a failure message. -/
def methodLabel : AuthMethod → String
  | .password _ => "password"
  | .keyFile path _ => "key " ++ path
  | .agent => "agent"

/-- Reach an agent, with the requests made so far and this one. -/
def connectAgent (history : List (Call Key)) : Except SshError Unit × List (Call Key) :=
  match peer.platform with
  | .unix =>
    let history := .connectEnv :: history
    ((peer.connectEnv history).mapError .agent, history)
  -- Windows has two agents, and only when both are out of reach does the error name them.
  | .windows =>
    let history := .connectNamedPipe "\\\\.\\pipe\\openssh-ssh-agent" :: history
    match peer.connectNamedPipe history with
    | .ok () => (.ok (), history)
    | .error openssh =>
      let history := .connectPageant :: history
      ((peer.connectPageant history).mapError fun pageant =>
        .agent ("no ssh-agent reachable: OpenSSH named pipe (" ++ openssh ++ "); Pageant (" ++
          pageant ++ ")"), history)
  | .other => (.error (.agent "ssh-agent auth is not supported on this platform"), history)

/-- Offer an agent's identities one after another. -/
def offerIdentities (user : String) (hash : Option HashAlg) : List AgentIdentity →
    Option AuthResult → String → List (Call Key) → Except SshError AuthResult × List (Call Key)
  -- Any verdict outweighs an identity that could not even be offered.
  | [], some last, _, history => (.ok last, history)
  | [], none, lastError, history => (.error (.agent lastError), history)
  -- Certificates are not offered yet.
  | .certificate _ :: rest, last, lastError, history =>
    offerIdentities user hash rest last lastError history
  | .publicKey algorithm blob :: rest, last, lastError, history =>
    let history := .publickeyWith user algorithm blob hash :: history
    match peer.publickeyWith history with
    | .ok .success => (.ok .success, history)
    | .ok (.failure remaining partialSuccess) =>
      offerIdentities user hash rest (some (.failure remaining partialSuccess)) lastError history
    | .error text => offerIdentities user hash rest last (algorithm ++ ": " ++ text) history

/-- Offer every identity the agent holds. -/
def authenticateWithAgent (user : String) (history : List (Call Key)) :
    Except SshError AuthResult × List (Call Key) :=
  match connectAgent peer history with
  | (.error error, history) => (.error error, history)
  | (.ok (), history) =>
    let history := .identities :: history
    match peer.identities history with
    | .error text => (.error (.agent text), history)
    | .ok [] => (.error (.agent "no identities loaded"), history)
    | .ok identities =>
      -- The hash is asked for once, before the first identity is offered.
      let history := .rsaHash :: history
      match peer.rsaHash history with
      | .error error => (.error (.protocol error), history)
      | .ok hash =>
        offerIdentities peer user hash.join identities none "no usable identities" history

/-- Attempt a single method. -/
def tryMethod (user : String) (method : AuthMethod) (history : List (Call Key)) :
    Except SshError AuthResult × List (Call Key) :=
  match method with
  | .password password =>
    let history := .password user password :: history
    ((peer.password history).mapError .protocol, history)
  | .keyFile path passphrase =>
    match peer.loadSecretKey path passphrase with
    -- A key that does not load never reaches the server.
    | .error text => (.error (.keyLoad text), history)
    | .ok key =>
      let history := .rsaHash :: history
      match peer.rsaHash history with
      | .error error => (.error (.protocol error), history)
      | .ok hash =>
        let history := .publickey user key hash.join :: history
        ((peer.publickey history).mapError .protocol, history)
  | .agent => authenticateWithAgent peer user history

/-- What a chain came to, and which of its methods were tried on the way. -/
structure AuthRun where
  result : Except SshError Unit
  tried : List (AuthMethod × Except SshError AuthResult)

/-- One more method that was tried, in front of what followed it. -/
def AuthRun.after (self : AuthRun) (method : AuthMethod) (reply : Except SshError AuthResult) :
    AuthRun :=
  { self with tried := (method, reply) :: self.tried }

/-- Whether the server has ruled a method out. -/
def notOffered (offered : Option (List MethodKind)) (method : AuthMethod) : Bool :=
  match offered with
  | none => false
  -- An empty list carries no information worth breaking a login over.
  | some remaining => !remaining.isEmpty && !remaining.contains (methodKind method)

/-- The detail of an authentication that failed. -/
def failureDetail (attempts : List String) : String :=
  if attempts.isEmpty then "no authentication methods configured" else "; ".intercalate attempts

/-- Work through the rest of a chain, with what the server offers and what was noted so far. -/
def authenticateFrom (user : String) : List AuthMethod → Option (List MethodKind) → List String →
    List (Call Key) → AuthRun
  | [], _, attempts, _ => ⟨.error (.authFailed (failureDetail attempts)), []⟩
  | method :: rest, offered, attempts, history =>
    let label := methodLabel method
    if notOffered offered method then
      authenticateFrom user rest offered (attempts ++ [label ++ ": not offered by server"]) history
    else
      match tryMethod peer user method history with
      | (.ok .success, _) => ⟨.ok (), [(method, .ok .success)]⟩
      -- Each rejection replaces what the server offers.
      | (.ok (.failure remaining partialSuccess), history) =>
        (authenticateFrom user rest (some remaining) (attempts ++ [label ++ ": rejected"])
          history).after method (.ok (.failure remaining partialSuccess))
      -- An error says nothing about the offer, and its kind survives only as text.
      | (.error error, history) =>
        (authenticateFrom user rest offered (attempts ++ [label ++ ": " ++ error.display])
          history).after method (.error error)

/-- Work through a chain. -/
def authenticate (user : String) (auth : List AuthMethod) : AuthRun :=
  authenticateFrom peer user auth none [] []

end Methods

section Connecting

/-- What a connect reads of its configuration. -/
structure SessionConfig where
  username : String
  /-- The methods to try, in order. -/
  auth : List AuthMethod
  connectTimeout : Duration
  deriving DecidableEq, Repr

/-- How the transport's handshake ended. -/
inductive Handshake where
  | timedOut
  | failed (error : SshError)
  | up
  deriving DecidableEq, Repr

/-- Connect and authenticate. -/
def connect {Key : Type} (peer : Peer Key) (cfg : SessionConfig) (handshake : Handshake) :
    AuthRun :=
  match handshake with
  | .timedOut => ⟨.error (.connectTimeout cfg.connectTimeout), []⟩
  -- The library speaks of an unknown key when the verifier turned the key down.
  | .failed (.protocol .unknownKey) => ⟨.error .hostKeyRejected, []⟩
  | .failed error => ⟨.error error, []⟩
  | .up => authenticate peer cfg.username cfg.auth

/-- Why a reconnect attempt failed, and whether another attempt could help. -/
structure ReconnectError where
  retryable : Bool
  message : String
  deriving DecidableEq, Repr

/-- An error of the session as the supervisor sees it. -/
def ReconnectError.ofSshError (error : SshError) : ReconnectError :=
  ⟨error.isRetryable, error.display⟩

end Connecting

section Retrying

variable {Key : Type} {peer : Peer Key} {user : String}

/-- The exchange with the server broke off. -/
def SshError.IsTransport (error : SshError) : Prop :=
  (∃ cause, error = .protocol cause) ∨ ∃ text, error = .io text

/-- A credential could not be used on this side. -/
def SshError.IsLocal (error : SshError) : Prop :=
  (∃ detail, error = .keyLoad detail) ∨ ∃ detail, error = .agent detail

/-- Some method that was tried was rejected by the server. -/
def AuthRun.Rejected (run : AuthRun) : Prop :=
  ∃ method remaining partialSuccess, (method, .ok (.failure remaining partialSuccess)) ∈ run.tried

/-- Some method that was tried failed in a certain way before the server gave a verdict. -/
def AuthRun.Failed (run : AuthRun) (kind : SshError → Prop) : Prop :=
  ∃ method error, (method, .error error) ∈ run.tried ∧ kind error

/-- The supervisor goes on after an error whenever its policy has an attempt left. -/
def GoesOn (error : SshError) : Prop :=
  ∀ (policy : ReconnectPolicy) (attempt : UInt32) (rand01 : Jitter),
    policy.enabled = true → attempt.toNat < policy.maxAttempts.toNat →
    policy.afterFailedAttempt attempt (ReconnectError.ofSshError error).retryable rand01 ≠ .giveUp

/-- What connecting owes to a transport that fails in the middle of authentication. -/
structure StaysRetryable (run : AuthRun) : Prop where
  /-- A transport failure can be retried, unless the server has rejected something. -/
  transport : run.Failed SshError.IsTransport → ¬run.Rejected →
    ∀ error, run.result = .error error → error.isRetryable = true ∧ GoesOn error
  /-- Only a rejection or a failure on this side rules another attempt out. -/
  final : ∀ error, run.result = .error error → error.isRetryable = false →
    run.Rejected ∨ run.Failed SshError.IsLocal

/-- The replies when the methods of a chain are tried one after another, every one of them. -/
def replies (peer : Peer Key) (user : String) : List AuthMethod → List (Call Key) →
    List (Except SshError AuthResult)
  | [], _ => []
  | method :: rest, history =>
    let (reply, history) := tryMethod peer user method history
    reply :: replies peer user rest history

/-- Identities that reach no verdict are a failure on this side. -/
theorem error_offerIdentities {hash : Option HashAlg} {identities : List AgentIdentity}
    {last : Option AuthResult} {lastError : String} {history : List (Call Key)} {error : SshError}
    (failed : (offerIdentities peer user hash identities last lastError history).1 =
      .error error) : error.IsLocal := by
  induction identities generalizing last lastError history with
  | nil =>
    cases last with
    | some verdict => cases failed
    | none =>
      cases failed
      exact .inr ⟨_, rfl⟩
  | cons identity rest ih =>
    cases identity with
    -- A certificate is passed over, so the rest decides.
    | certificate blob => exact ih failed
    | publicKey algorithm blob =>
      rw [offerIdentities] at failed
      -- Only an accepted identity ends the walk early, and that is no error.
      split at failed
      · cases failed
      · exact ih failed
      · exact ih failed

/-- An agent that cannot be reached is a failure on this side. -/
theorem error_connectAgent {history : List (Call Key)} {error : SshError}
    (failed : (connectAgent peer history).1 = .error error) : error.IsLocal := by
  unfold connectAgent at failed
  split at failed
  · -- On Unix the agent of the environment is the only one.
    cases reply : peer.connectEnv (.connectEnv :: history) with
    | ok done => simp [reply, Except.mapError] at failed
    | error text =>
      simp only [reply, Except.mapError, Except.error.injEq] at failed
      exact .inr ⟨text, failed.symm⟩
  · -- On Windows the second agent has the last word.
    dsimp only at failed
    split at failed
    · cases failed
    · rename_i openssh _
      cases reply : peer.connectPageant (.connectPageant ::
        .connectNamedPipe "\\\\.\\pipe\\openssh-ssh-agent" :: history) with
      | ok done => simp [reply, Except.mapError] at failed
      | error text =>
        simp only [reply, Except.mapError, Except.error.injEq] at failed
        exact .inr ⟨_, failed.symm⟩
  · cases failed
    -- Elsewhere there is no agent.
    exact .inr ⟨_, rfl⟩

/-- An agent fails on this side, unless the server does not even name its hashes. -/
theorem error_authenticateWithAgent {history : List (Call Key)} {error : SshError}
    (failed : (authenticateWithAgent peer user history).1 = .error error) :
    error.IsTransport ∨ error.IsLocal := by
  unfold authenticateWithAgent at failed
  split at failed
  · -- No agent was reached.
    rename_i cause _ reached
    obtain rfl : cause = error := by simpa using failed
    exact .inr (error_connectAgent (by rw [reached]))
  · dsimp only at failed
    split at failed
    · cases failed
      exact .inr (.inr ⟨_, rfl⟩)
    · cases failed
      exact .inr (.inr ⟨_, rfl⟩)
    · -- The hashes are asked of the server, the one step here that can lose the transport.
      split at failed
      · cases failed
        exact .inl (.inl ⟨_, rfl⟩)
      · exact .inr (error_offerIdentities failed)

/-- A reply of the transport that is no verdict is a failure of the transport. -/
theorem error_mapError_protocol {reply : Except TransportError AuthResult} {error : SshError}
    (failed : reply.mapError SshError.protocol = .error error) : error.IsTransport := by
  -- A verdict is no error, and any other reply is passed on as what it was.
  cases reply with
  | ok verdict => cases failed
  | error cause =>
    cases failed
    exact .inl ⟨cause, rfl⟩

/-- A method that reaches no verdict failed on this side, or its transport did. -/
theorem error_tryMethod {method : AuthMethod} {history : List (Call Key)} {error : SshError}
    (failed : (tryMethod peer user method history).1 = .error error) :
    error.IsTransport ∨ error.IsLocal := by
  cases method with
  -- A password is sent, so only the transport can fail.
  | password secret => exact .inl (error_mapError_protocol failed)
  | keyFile path passphrase =>
    simp only [tryMethod] at failed
    split at failed
    · cases failed
      exact .inr (.inl ⟨_, rfl⟩)
    · -- Past the loading, both requests go to the server.
      split at failed
      · cases failed
        exact .inl (.inl ⟨_, rfl⟩)
      · exact .inl (error_mapError_protocol failed)
  | agent => exact error_authenticateWithAgent failed

/-- Every reply that is no verdict is a failure of the transport or on this side. -/
theorem error_replies {auth : List AuthMethod} {history : List (Call Key)} {error : SshError}
    (member : .error error ∈ replies peer user auth history) :
    error.IsTransport ∨ error.IsLocal := by
  -- The reply is that of some method, tried with the history the ones before it left.
  induction auth generalizing history with
  | nil => simp [replies] at member
  | cons method rest ih =>
    rcases List.mem_cons.mp member with head | tail
    · exact error_tryMethod head.symm
    · exact ih tail

/-- A chain whose server gives a verdict on some method is accepted or meets a rejection. -/
theorem answered_authenticateFrom {auth : List AuthMethod} (attempts : List String)
    {history : List (Call Key)} {verdict : AuthResult}
    (answered : .ok verdict ∈ replies peer user auth history) :
    (authenticateFrom peer user auth none attempts history).result = .ok () ∨
      (authenticateFrom peer user auth none attempts history).Rejected := by
  induction auth generalizing attempts history with
  | nil => simp [replies] at answered
  | cons method rest ih =>
    rw [replies] at answered
    -- With no offer on record nothing is skipped.
    rw [authenticateFrom, if_neg (by simp [notOffered])]
    cases tried : tryMethod peer user method history with
    | mk reply later =>
      rw [tried] at answered
      rcases reply with error | _ | ⟨remaining, partialSuccess⟩
      · -- Without a verdict nothing is ruled out, and the rest is as if it came first.
        obtain tail : .ok verdict ∈ replies peer user rest later := by simpa using answered
        rcases ih _ tail with accepted | ⟨method, remaining, partialSuccess, member⟩
        · exact .inl accepted
        · exact .inr ⟨method, remaining, partialSuccess, List.mem_cons_of_mem _ member⟩
      · exact .inl rfl
      · -- The verdict is a rejection, whatever the methods behind it come to.
        exact .inr ⟨method, remaining, partialSuccess, List.mem_cons_self⟩

/-- A chain without any verdict tries every method and ends in a failed authentication. -/
theorem unanswered_authenticateFrom {auth : List AuthMethod} (attempts : List String)
    {history : List (Call Key)}
    (unanswered : ∀ verdict, .ok verdict ∉ replies peer user auth history) :
    (∃ detail, (authenticateFrom peer user auth none attempts history).result =
      .error (.authFailed detail)) ∧
    (authenticateFrom peer user auth none attempts history).tried.map Prod.snd =
      replies peer user auth history := by
  induction auth generalizing attempts history with
  | nil => exact ⟨⟨_, rfl⟩, rfl⟩
  | cons method rest ih =>
    rw [replies] at unanswered ⊢
    -- Without a verdict the server never narrows its offer, so no method is skipped.
    rw [authenticateFrom, if_neg (by simp [notOffered])]
    cases tried : tryMethod peer user method history with
    | mk reply later =>
      rw [tried] at unanswered
      cases reply with
      | ok verdict => exact absurd List.mem_cons_self (unanswered verdict)
      | error error =>
        obtain ⟨result, all⟩ := ih (attempts ++ [methodLabel method ++ ": " ++ error.display])
          fun verdict member => unanswered verdict (List.mem_cons_of_mem _ member)
        exact ⟨result, congrArg (_ :: ·) all⟩

/-- A chain without any verdict owes what it does exactly when it failed on this side only. -/
theorem staysRetryable_unanswered {auth : List AuthMethod}
    (unanswered : ∀ verdict, .ok verdict ∉ replies peer user auth []) :
    StaysRetryable (authenticate peer user auth) ↔
      auth ≠ [] ∧ ∀ error, .error error ∈ replies peer user auth [] → error.IsLocal := by
  obtain ⟨⟨detail, result⟩, all⟩ :=
    unanswered_authenticateFrom [] unanswered
  change (authenticate peer user auth).result = _ at result
  change (authenticate peer user auth).tried.map Prod.snd = _ at all
  -- From here on only the result and the replies of the run matter.
  generalize authenticate peer user auth = run at result all
  have notRejected : ¬run.Rejected := by
    rintro ⟨method, remaining, partialSuccess, member⟩
    apply unanswered (.failure remaining partialSuccess)
    rw [← all]
    exact List.mem_map_of_mem member
  have failed (kind : SshError → Prop) :
      run.Failed kind ↔ ∃ error, .error error ∈ replies peer user auth [] ∧ kind error := by
    rw [← all]
    simp only [AuthRun.Failed, List.mem_map, Prod.exists, exists_eq_right]
    exact ⟨fun ⟨method, error, member, holds⟩ => ⟨error, ⟨method, member⟩, holds⟩,
      fun ⟨error, ⟨method, member⟩, holds⟩ => ⟨method, error, member, holds⟩⟩
  refine ⟨?_, ?_⟩
  · intro stays
    refine ⟨?_, ?_⟩
    · -- A failed authentication is final, so something must have failed on this side.
      rintro rfl
      rcases stays.final _ result rfl with rejected | here
      · exact notRejected rejected
      · obtain ⟨error, member, _⟩ := (failed _).mp here
        simp [replies] at member
    · intro error member
      rcases error_replies member with transport | here
      · -- The failed authentication is not retryable, so no transport may have failed.
        have retryable :=
          (stays.transport ((failed _).mpr ⟨error, member, transport⟩) notRejected _ result).1
        cases retryable
      · exact here
  · rintro ⟨configured, here⟩
    refine ⟨?_, ?_⟩
    · intro broke
      obtain ⟨error, member, transport⟩ := (failed _).mp broke
      -- No error is both of the transport and of this side.
      rcases transport with ⟨cause, rfl⟩ | ⟨text, rfl⟩
      · rcases here _ member with ⟨_, other⟩ | ⟨_, other⟩ <;> cases other
      · rcases here _ member with ⟨_, other⟩ | ⟨_, other⟩ <;> cases other
    · intro error _ _
      right
      rw [failed]
      -- The first method of the chain is one that failed here.
      cases auth with
      | nil => exact absurd rfl configured
      | cons method rest =>
        cases reply : (tryMethod peer user method []).1 with
        | ok verdict => exact absurd (by simp [replies, reply]) (unanswered verdict)
        | error cause =>
          have member : .error cause ∈ replies peer user (method :: rest) [] := by
            simp [replies, reply]
          exact ⟨cause, member, here cause member⟩

/--
A failure of the transport stays retryable exactly when the server gave a verdict on some method,
or when there were methods and each of them failed on this side.
-/
theorem transport_failure_retryable_iff (peer : Peer Key) (cfg : SessionConfig) :
    StaysRetryable (connect peer cfg .up) ↔
      (∃ verdict, .ok verdict ∈ replies peer cfg.username cfg.auth []) ∨
      (cfg.auth ≠ [] ∧
        ∀ error, .error error ∈ replies peer cfg.username cfg.auth [] → error.IsLocal) := by
  rw [connect]
  by_cases answered : ∃ verdict, .ok verdict ∈ replies peer cfg.username cfg.auth []
  · refine iff_of_true ?_ (.inl answered)
    obtain ⟨verdict, member⟩ := answered
    -- With a verdict the run either succeeded or has a rejection to point at.
    rcases answered_authenticateFrom [] member with accepted | rejected
    · change (authenticate peer cfg.username cfg.auth).result = _ at accepted
      refine ⟨?_, ?_⟩
      · intro _ _ error failed
        rw [accepted] at failed
        cases failed
      · intro error failed
        rw [accepted] at failed
        cases failed
    · exact ⟨fun _ notRejected => absurd rejected notRejected, fun _ _ _ => .inl rejected⟩
  · rw [or_iff_right answered]
    exact staysRetryable_unanswered fun verdict member => answered ⟨verdict, member⟩

/-- A connection that is gone by the time the first method is tried. -/
def droppedConnection : Peer Unit where
  platform := .unix
  loadSecretKey := fun _ _ => .ok ()
  -- A password whose answer never comes is reported as refused.
  password := fun _ => .ok (.failure [] false)
  rsaHash := fun _ => .error (.other "Channel send error")
  publickey := fun _ => .error (.other "Channel send error")
  connectEnv := fun _ => .error "no agent"
  connectNamedPipe := fun _ => .error "no agent"
  connectPageant := fun _ => .error "no agent"
  identities := fun _ => .error "no agent"
  publickeyWith := fun _ => .error "no agent"

/-- A password as the only method. -/
def passwordOnly : SessionConfig := ⟨"user", [.password "secret"], .fromSecs 10⟩

/-- A key file as the only method. -/
def keyOnly : SessionConfig := ⟨"user", [.keyFile "id_ed25519" none], .fromSecs 10⟩

/-- The dropped connection is reported as a failed authentication, and the supervisor gives up. -/
theorem dropped_connection_gives_up :
    (connect droppedConnection keyOnly .up).tried =
      [(.keyFile "id_ed25519" none, .error (.protocol (.other "Channel send error")))] ∧
    (connect droppedConnection keyOnly .up).result =
      .error (.authFailed "key id_ed25519: Channel send error") ∧
    ReconnectPolicy.default.afterFailedAttempt 1
      (ReconnectError.ofSshError
        (.authFailed "key id_ed25519: Channel send error")).retryable none = .giveUp ∧
    ¬StaysRetryable (connect droppedConnection keyOnly .up) := by
  refine ⟨rfl, rfl, rfl, ?_⟩
  intro stays
  -- Nothing was rejected, and what failed is the transport, yet the error is final.
  have notRejected : ¬(connect droppedConnection keyOnly .up).Rejected := by
    rintro ⟨method, remaining, partialSuccess, member⟩
    cases List.mem_singleton.mp member
  have broke : (connect droppedConnection keyOnly .up).Failed SshError.IsTransport :=
    ⟨_, _, List.mem_singleton_self _, .inl ⟨_, rfl⟩⟩
  exact absurd (stays.transport broke notRejected _ rfl).1 (by decide)

end Retrying

end Tern.Ssh
