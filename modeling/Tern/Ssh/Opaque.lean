import Tern.Ssh.Authenticate

/-! Secrets under other texts: authentication reports the same when the other side answers alike. -/

namespace Tern.Ssh

open Tern.Desktop (AuthMethod)

section Renaming

variable {Key : Type} (rename : String → String)

/-- A method with its secret under another text. -/
def renamedMethod : AuthMethod → AuthMethod
  | .password secret => .password (rename secret)
  | .keyFile path passphrase => .keyFile path (passphrase.map rename)
  | .agent => .agent

/-- A request with its secret under another text. -/
def Call.renamed : Call Key → Call Key
  | .password user secret => .password user (rename secret)
  | call => call

/--
Another side of the program that answers each renamed secret as the first one answers the secret.

A server may so accept one text and a key file open with one, each side its own.
-/
structure AnswersAlike (peer other : Peer Key) : Prop where
  platform : other.platform = peer.platform
  loadSecretKey : ∀ path passphrase,
    other.loadSecretKey path (passphrase.map rename) = peer.loadSecretKey path passphrase
  password : ∀ history, other.password (history.map (Call.renamed rename)) = peer.password history
  rsaHash : ∀ history, other.rsaHash (history.map (Call.renamed rename)) = peer.rsaHash history
  publickey : ∀ history,
    other.publickey (history.map (Call.renamed rename)) = peer.publickey history
  connectEnv : ∀ history,
    other.connectEnv (history.map (Call.renamed rename)) = peer.connectEnv history
  connectNamedPipe : ∀ history,
    other.connectNamedPipe (history.map (Call.renamed rename)) = peer.connectNamedPipe history
  connectPageant : ∀ history,
    other.connectPageant (history.map (Call.renamed rename)) = peer.connectPageant history
  identities : ∀ history,
    other.identities (history.map (Call.renamed rename)) = peer.identities history
  publickeyWith : ∀ history,
    other.publickeyWith (history.map (Call.renamed rename)) = peer.publickeyWith history

variable {rename} {peer other : Peer Key}

/-- A method keeps its kind. -/
theorem methodKind_renamed (method : AuthMethod) :
    methodKind (renamedMethod rename method) = methodKind method := by
  cases method <;> rfl

/-- A method keeps its name in messages, which never tells its secret. -/
theorem methodLabel_renamed (method : AuthMethod) :
    methodLabel (renamedMethod rename method) = methodLabel method := by
  cases method <;> rfl

/-- A step of the authentication comes to the same, after the same requests but for the secrets. -/
def SameReply {α : Type} (rename : String → String) (reply counterpart : α × List (Call Key)) :
    Prop :=
  counterpart = (reply.1, reply.2.map (Call.renamed rename))

/-- An agent is reached alike. -/
theorem connectAgent_renamed (alike : AnswersAlike rename peer other)
    (history : List (Call Key)) :
    SameReply rename (connectAgent peer history)
      (connectAgent other (history.map (Call.renamed rename))) := by
  -- Reaching an agent sends no secret, so each attempt has the same answer.
  unfold SameReply connectAgent
  rw [alike.platform]
  cases peer.platform with
  | unix =>
    have answer := alike.connectEnv (.connectEnv :: history)
    simp only [List.map_cons, Call.renamed] at answer ⊢
    rw [answer]
  | windows =>
    have pipe := alike.connectNamedPipe
      (.connectNamedPipe "\\\\.\\pipe\\openssh-ssh-agent" :: history)
    have pageant := alike.connectPageant
      (.connectPageant :: .connectNamedPipe "\\\\.\\pipe\\openssh-ssh-agent" :: history)
    simp only [List.map_cons, Call.renamed] at pipe pageant ⊢
    rw [pipe, pageant]
    cases peer.connectNamedPipe (.connectNamedPipe "\\\\.\\pipe\\openssh-ssh-agent" :: history) <;>
      rfl
  | other => rfl

/-- Identities are offered alike. -/
theorem offerIdentities_renamed (alike : AnswersAlike rename peer other) (user : String)
    (hash : Option HashAlg) (identities : List AgentIdentity) :
    ∀ last lastError history,
      SameReply rename (offerIdentities peer user hash identities last lastError history)
        (offerIdentities other user hash identities last lastError
          (history.map (Call.renamed rename))) := by
  induction identities with
  | nil =>
    intro last lastError history
    cases last <;> rfl
  | cons identity rest ih =>
    intro last lastError history
    cases identity with
    -- A certificate is passed over.
    | certificate blob => exact ih last lastError history
    | publicKey algorithm blob =>
      have answer := alike.publickeyWith (.publickeyWith user algorithm blob hash :: history)
      simp only [List.map_cons, Call.renamed] at answer
      simp only [offerIdentities]
      rw [answer]
      -- What follows depends on the answer, and on the longer history.
      cases peer.publickeyWith (.publickeyWith user algorithm blob hash :: history) with
      | error text => exact ih last _ _
      | ok result =>
        cases result with
        | success => rfl
        | failure remaining partialSuccess => exact ih _ lastError _

/-- An agent is tried alike. -/
theorem authenticateWithAgent_renamed (alike : AnswersAlike rename peer other) (user : String)
    (history : List (Call Key)) :
    SameReply rename (authenticateWithAgent peer user history)
      (authenticateWithAgent other user (history.map (Call.renamed rename))) := by
  -- The agent is asked for its identities, and each answer decides the same way on.
  have reached := connectAgent_renamed alike history
  unfold SameReply at reached
  unfold authenticateWithAgent
  rw [reached]
  -- No call of an agent carries a secret of the chain.
  obtain ⟨answer, history⟩ := connectAgent peer history
  cases answer with
  | error error => rfl
  | ok _ =>
    have listed := alike.identities (.identities :: history)
    have hashed := alike.rsaHash (.rsaHash :: .identities :: history)
    simp only [List.map_cons, Call.renamed] at listed hashed
    simp only
    rw [listed]
    cases peer.identities (.identities :: history) with
    | error text => rfl
    | ok identities =>
      cases identities with
      | nil => rfl
      | cons identity rest =>
        simp only
        rw [hashed]
        cases peer.rsaHash (.rsaHash :: .identities :: history) with
        | error error => rfl
        | ok hash =>
          exact offerIdentities_renamed alike user hash.join (identity :: rest) none
            "no usable identities" (.rsaHash :: .identities :: history)

/-- A method is tried alike. -/
theorem tryMethod_renamed (alike : AnswersAlike rename peer other) (user : String)
    (method : AuthMethod) (history : List (Call Key)) :
    SameReply rename (tryMethod peer user method history)
      (tryMethod other user (renamedMethod rename method)
        (history.map (Call.renamed rename))) := by
  -- The secret is sent once, and the answer to it is the same.
  cases method with
  | password secret =>
    have answer := alike.password (.password user secret :: history)
    simp only [List.map_cons, Call.renamed] at answer
    simp only [SameReply, tryMethod, renamedMethod, answer, List.map_cons, Call.renamed]
  | keyFile path passphrase =>
    simp only [tryMethod, renamedMethod, alike.loadSecretKey]
    -- The key file is unlocked alike with the renamed passphrase.
    cases peer.loadSecretKey path passphrase with
    | error text => rfl
    | ok key =>
      have hashed := alike.rsaHash (.rsaHash :: history)
      simp only [List.map_cons, Call.renamed] at hashed
      simp only
      rw [hashed]
      cases peer.rsaHash (.rsaHash :: history) with
      | error error => rfl
      | ok hash =>
        have answer := alike.publickey (.publickey user key hash.join :: .rsaHash :: history)
        simp only [List.map_cons, Call.renamed] at answer
        simp only [SameReply, answer, List.map_cons, Call.renamed]
  | agent => exact authenticateWithAgent_renamed alike user history

/-- A chain comes to the same result, down to the texts of its failures. -/
theorem authenticateFrom_renamed (alike : AnswersAlike rename peer other) (user : String)
    (chain : List AuthMethod) :
    ∀ offered attempts history,
      (authenticateFrom other user (chain.map (renamedMethod rename)) offered attempts
          (history.map (Call.renamed rename))).result =
        (authenticateFrom peer user chain offered attempts history).result := by
  induction chain with
  | nil =>
    intro offered attempts history
    rfl
  | cons method rest ih =>
    intro offered attempts history
    have skipped :
        notOffered offered (renamedMethod rename method) = notOffered offered method := by
      simp only [notOffered, methodKind_renamed]
    simp only [List.map_cons, authenticateFrom, skipped, methodLabel_renamed]
    split
    · -- A method that is not offered is skipped under its label, which names no secret.
      exact ih _ _ _
    · have tried := tryMethod_renamed alike user method history
      unfold SameReply at tried
      rw [tried]
      obtain ⟨answer, history⟩ := tryMethod peer user method history
      -- The rest of the chain goes on from the same answer.
      cases answer with
      | error error => exact ih _ _ _
      | ok result =>
        cases result with
        | success => rfl
        | failure remaining partialSuccess => exact ih _ _ _

/-- A config with its secrets under other texts. -/
def SessionConfig.renamed (rename : String → String) (cfg : SessionConfig) : SessionConfig :=
  { cfg with auth := cfg.auth.map (renamedMethod rename) }

/-- A connect comes to the same result, down to the text of its error. -/
theorem connect_renamed (alike : AnswersAlike rename peer other) (cfg : SessionConfig)
    (handshake : Handshake) :
    (connect other (cfg.renamed rename) handshake).result =
      (connect peer cfg handshake).result := by
  -- A handshake that fails does so before any secret is sent.
  cases handshake with
  | timedOut => rfl
  | failed error =>
    cases error with
    | protocol cause => cases cause <;> rfl
    | _ => rfl
  | up => exact authenticateFrom_renamed alike cfg.username cfg.auth none [] []

end Renaming

end Tern.Ssh
