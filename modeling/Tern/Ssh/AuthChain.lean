import Tern.Ssh.Authenticate

/-! What a chain of methods comes to, method by method: which are attempted, and how the rest is
reported. -/

namespace Tern.Ssh

open Tern.Desktop (AuthMethod)

/-- What became of one method of a chain. -/
inductive Fate where
  | skipped
  | attempted (reply : Except SshError AuthResult)
  /-- An earlier method was accepted. -/
  | unreached

/-- The methods that a rejection still allows. -/
def Fate.remaining? : Fate → Option (List MethodKind)
  | .attempted (.ok (.failure remaining _)) => some remaining
  | _ => none

/-- The reply to an attempt. -/
def Fate.reply? : Fate → Option (Except SshError AuthResult)
  | .attempted reply => some reply
  | _ => none

/-- The remaining methods of the most recent rejection. -/
def lastRejection (fates : List Fate) : Option (List MethodKind) :=
  (fates.filterMap Fate.remaining?).getLast?

/-- The list is absent, empty or holds the kind. -/
def Admits (offered : Option (List MethodKind)) (kind : MethodKind) : Prop :=
  ∀ remaining, offered = some remaining → remaining = [] ∨ kind ∈ remaining

/-- The attempt at one method, if there was one. -/
def attemptOf (method : AuthMethod) (fate : Fate) :
    List (AuthMethod × Except SshError AuthResult) :=
  (fate.reply?.map fun reply => (method, reply)).toList

/-- The attempts among the methods of a chain. -/
def attemptsOf : List AuthMethod → List Fate → List (AuthMethod × Except SshError AuthResult)
  | method :: auth, fate :: fates => attemptOf method fate ++ attemptsOf auth fates
  | _, _ => []

/-- What the report says of a method that did not get in. -/
def Describes (method : AuthMethod) : Fate → String → Prop
  | .skipped, item => item = methodLabel method ++ ": not offered by server"
  | .attempted (.ok (.failure _ _)), item => item = methodLabel method ++ ": rejected"
  | .attempted (.error error), item => item = methodLabel method ++ ": " ++ error.display
  -- A chain that reaches its end has neither of these.
  | .attempted (.ok .success), _ => False
  | .unreached, _ => False

/-- The text of an item tells what became of its method. -/
structure Tells (method : AuthMethod) (fate : Fate) (item : String) : Prop where
  skipped : fate = .skipped ↔ item = methodLabel method ++ ": not offered by server"
  rejected : (∃ remaining partialSuccess,
    fate = .attempted (.ok (.failure remaining partialSuccess))) ↔
    item = methodLabel method ++ ": rejected"
  failed : (∃ error, fate = .attempted (.error error)) ↔
    item ≠ methodLabel method ++ ": not offered by server" ∧
    item ≠ methodLabel method ++ ": rejected"

section Requests

variable {Key : Type} (peer : Peer Key) (user : String)

/-- The requests that have gone out once some methods were attempted, the newest one first. -/
def requestsAfter (history : List (Call Key)) (methods : List AuthMethod) : List (Call Key) :=
  methods.foldl (fun history method => (tryMethod peer user method history).2) history

/-- The transport library raises an error in one of the exchanges it is asked for. -/
def Peer.Raises (error : TransportError) : Prop :=
  ∃ history, peer.password history = .error error ∨ peer.rsaHash history = .error error ∨
    peer.publickey history = .error error

/-- No error of the transport library is worded like a verdict on a method. -/
def Peer.OwnWords : Prop :=
  ∀ error, peer.Raises error →
    error.display ≠ "not offered by server" ∧ error.display ≠ "rejected"

/--
A walk along a chain, from what the server offered, what was noted and what was asked before it.
Each method of the chain has a fate, and the fates decide what the walk comes to.
-/
structure ChainSemantics (offered : Option (List MethodKind)) (noted : List String)
    (history : List (Call Key)) (auth : List AuthMethod) (fates : List Fate) (run : AuthRun) :
    Prop where
  length : fates.length = auth.length
  /-- The attempts are made in the order of the chain. -/
  order : run.tried = attemptsOf auth fates
  /-- A method is attempted when nothing was accepted and the last rejection does not rule it
  out. -/
  attempted_iff : ∀ (i : Nat) (method : AuthMethod) (fate : Fate),
    auth[i]? = some method → fates[i]? = some fate →
    ((∃ reply, fate = .attempted reply) ↔ .attempted (.ok .success) ∉ fates.take i ∧
      Admits ((lastRejection (fates.take i)).or offered) (methodKind method))
  /-- Each reply is the one the other side gives after every request so far. -/
  answered : ∀ (i : Nat) (method : AuthMethod) (reply : Except SshError AuthResult),
    auth[i]? = some method → fates[i]? = some (.attempted reply) →
    reply = (tryMethod peer user method (requestsAfter peer user history
      ((attemptsOf (auth.take i) (fates.take i)).map Prod.fst))).1
  /-- The chain succeeds when its last attempt does. -/
  accepted_iff : run.result = .ok () ↔ ∃ method, run.tried.getLast? = some (method, .ok .success)
  /-- Nothing is attempted behind a success. -/
  accepted_last : ∀ before method after,
    run.tried = before ++ (method, .ok .success) :: after → after = []
  /-- A chain that fails reports every method of it. -/
  reported : ∀ error, run.result = .error error → ∃ items,
    error = .authFailed (failureDetail (noted ++ items)) ∧ items.length = auth.length ∧
    ∀ (i : Nat) (method : AuthMethod) (fate : Fate) (item : String),
      auth[i]? = some method → fates[i]? = some fate → items[i]? = some item →
      Describes method fate item

end Requests

section Walk

variable {Key : Type} {peer : Peer Key} {user : String}

/-- The walk rules out exactly what the last rejection does not admit. -/
theorem notOffered_eq_false {offered : Option (List MethodKind)} {method : AuthMethod} :
    notOffered offered method = false ↔ Admits offered (methodKind method) := by
  -- A rejection that lists no method rules none out.
  cases offered with
  | none => simp [notOffered, Admits]
  | some remaining =>
    cases remaining with
    | nil => simp [notOffered, Admits]
    | cons kind kinds => simp [notOffered, Admits, or_iff_not_imp_left]

/-- A rejection in front of others is the last one only when there are no others. -/
theorem lastRejection_cons (fate : Fate) (fates : List Fate) :
    lastRejection (fate :: fates) = (lastRejection fates).or fate.remaining? := by
  -- Whatever follows has the last word, unless it says nothing.
  cases remaining : fate.remaining? with
  | none => simp [lastRejection, remaining]
  | some kinds =>
    cases last : (fates.filterMap Fate.remaining?).getLast? <;>
      simp [lastRejection, remaining, List.getLast?_cons, last]

/-- Nothing is left of a chain that is walked to its end. -/
theorem chainSemantics_nil {offered : Option (List MethodKind)} {noted : List String}
    {history : List (Call Key)} :
    ChainSemantics peer user offered noted history [] []
      ⟨.error (.authFailed (failureDetail noted)), []⟩ := by
  constructor <;> simp [attemptsOf]

/-- A method that does not get in says nothing of a success. -/
theorem Describes.not_accepted {method : AuthMethod} {fate : Fate} {item : String}
    (described : Describes method fate item) : fate ≠ .attempted (.ok .success) := by
  rintro rfl
  exact described

/-- A method that does not get in adds no accepted attempt. -/
theorem Describes.not_mem_attemptOf {method other : AuthMethod} {fate : Fate} {item : String}
    (described : Describes method fate item) : (other, .ok .success) ∉ attemptOf method fate := by
  -- An attempt that succeeded is not described, and one that was not made has no reply.
  intro member
  cases fate with
  | attempted reply =>
    obtain ⟨rfl, rfl⟩ : other = method ∧ .ok .success = reply := by
      simpa [attemptOf, Fate.reply?] using member
    exact described
  | skipped => simp [attemptOf, Fate.reply?] at member
  | unreached => exact described

/-- A method that does not get in hands the walk on to the rest of the chain. -/
theorem ChainSemantics.cons {offered : Option (List MethodKind)} {noted : List String}
    {history : List (Call Key)} {method : AuthMethod} {auth : List AuthMethod}
    {fates : List Fate} {item : String} {run : AuthRun} (fate : Fate)
    (described : Describes method fate item)
    (decided : (∃ reply, fate = .attempted reply) ↔ Admits offered (methodKind method))
    (answered : ∀ reply, fate = .attempted reply →
      reply = (tryMethod peer user method history).1)
    (rest : ChainSemantics peer user (fate.remaining?.or offered) (noted ++ [item])
      (requestsAfter peer user history ((attemptOf method fate).map Prod.fst))
      auth fates run) :
    ChainSemantics peer user offered noted history (method :: auth) (fate :: fates)
      ⟨run.result, attemptOf method fate ++ run.tried⟩ where
  length := congrArg (· + 1) rest.length
  order := congrArg (attemptOf method fate ++ ·) rest.order
  attempted_iff := by
    intro i
    cases i with
    | zero =>
      rintro _ _ ⟨⟩ ⟨⟩
      simpa [lastRejection] using decided
    | succ i =>
      intro other later isMethod isFate
      -- A rejection here counts only where the rest has none of its own.
      rw [rest.attempted_iff i other later isMethod isFate, List.take_succ_cons,
        lastRejection_cons, Option.or_assoc, List.mem_cons, not_or,
        and_iff_right described.not_accepted.symm]
  answered := by
    intro i
    cases i with
    | zero =>
      rintro _ reply ⟨⟩ ⟨⟩
      exact answered reply rfl
    | succ i =>
      intro other reply isMethod isFate
      -- What the others were asked is asked behind this method.
      rw [rest.answered i other reply isMethod isFate, List.take_succ_cons, List.take_succ_cons,
        attemptsOf, List.map_append]
      simp only [requestsAfter, List.foldl_append]
  accepted_iff := by
    rw [rest.accepted_iff, List.getLast?_append]
    cases last : run.tried.getLast? with
    | some attempt => rfl
    | none =>
      -- Without a later attempt this one is the last, and it did not succeed.
      refine iff_of_false (by simp) ?_
      rintro ⟨other, accepted⟩
      exact described.not_mem_attemptOf (List.mem_of_getLast? accepted)
  accepted_last := by
    intro before other after tried
    rcases List.append_eq_append_iff.mp tried with ⟨earlier, rfl, later⟩ | ⟨own, here, later⟩
    · exact rest.accepted_last earlier other after later
    · -- The success would have to be this method's own, unless it is the first of the others.
      cases own with
      | nil => exact rest.accepted_last [] other after later.symm
      | cons attempt own =>
        obtain ⟨rfl, -⟩ : (other, .ok .success) = attempt ∧ _ := by simpa using later
        have member : (other, .ok .success) ∈ attemptOf method fate := by simp [here]
        exact absurd member described.not_mem_attemptOf
  reported := by
    intro error failed
    -- The report gets the item of this method in front.
    obtain ⟨items, detail, length, describes⟩ := rest.reported error failed
    refine ⟨item :: items, by simpa using detail, congrArg (· + 1) length, ?_⟩
    intro i
    cases i with
    | zero =>
      rintro _ _ _ ⟨⟩ ⟨⟩ ⟨⟩
      exact described
    | succ i => exact describes i

/-- No attempt is made at methods out of reach. -/
theorem attemptsOf_unreached (auth : List AuthMethod) (width : Nat) :
    attemptsOf auth (List.replicate width .unreached) = [] := by
  -- Walked together, both lists end without an attempt.
  induction auth generalizing width with
  | nil => rfl
  | cons method auth ih =>
    cases width with
    | zero => rfl
    | succ width => exact ih width

/-- A method that gets in ends the walk. -/
theorem chainSemantics_accepted {offered : Option (List MethodKind)} {noted : List String}
    {history : List (Call Key)} {method : AuthMethod} (auth : List AuthMethod)
    (admitted : Admits offered (methodKind method))
    (accepted : (tryMethod peer user method history).1 = .ok .success) :
    ChainSemantics peer user offered noted history (method :: auth)
      (.attempted (.ok .success) :: List.replicate auth.length .unreached)
      ⟨.ok (), [(method, .ok .success)]⟩ where
  length := by simp
  order := by rw [attemptsOf, attemptsOf_unreached, attemptOf, Fate.reply?]; rfl
  attempted_iff := by
    intro i
    cases i with
    | zero =>
      rintro _ _ ⟨⟩ ⟨⟩
      -- The method itself was tried, as the server admits it.
      simpa [lastRejection] using admitted
    | succ i =>
      intro other fate isMethod isFate
      -- Everything behind the success is out of reach.
      rw [List.getElem?_cons_succ] at isFate
      obtain rfl := List.eq_of_mem_replicate (List.mem_of_getElem? isFate)
      simp
  answered := by
    intro i
    cases i with
    | zero =>
      rintro _ reply ⟨⟩ ⟨⟩
      exact accepted.symm
    | succ i =>
      intro other reply isMethod isFate
      rw [List.getElem?_cons_succ] at isFate
      cases List.eq_of_mem_replicate (List.mem_of_getElem? isFate)
  accepted_iff := by simp
  accepted_last := by
    intro before other after tried
    cases before <;> simp_all
  reported := by simp

/-- An attempt without success hands on what the other side answered. -/
theorem ChainSemantics.attempted {offered : Option (List MethodKind)} {noted : List String}
    {history later : List (Call Key)} {method : AuthMethod} {auth : List AuthMethod}
    {fates : List Fate} {item : String} {run : AuthRun} {reply : Except SshError AuthResult}
    (tried : tryMethod peer user method history = (reply, later))
    (admitted : Admits offered (methodKind method))
    (described : Describes method (.attempted reply) item)
    (rest : ChainSemantics peer user ((Fate.attempted reply).remaining?.or offered)
      (noted ++ [item]) later auth fates run) :
    ChainSemantics peer user offered noted history (method :: auth) (.attempted reply :: fates)
      (run.after method reply) := by
  refine .cons (.attempted reply) described (iff_of_true ⟨reply, rfl⟩ admitted) ?_ ?_
  · rintro _ ⟨⟩
    rw [tried]
  · -- The one request list is what this attempt leaves behind.
    have asked : requestsAfter peer user history
        ((attemptOf method (.attempted reply)).map Prod.fst) = later := by
      simp [requestsAfter, attemptOf, Fate.reply?, tried]
    rw [asked]
    exact rest

/-- Every walk along a chain has its fates. -/
theorem authenticateFrom_semantics (auth : List AuthMethod) (offered : Option (List MethodKind))
    (noted : List String) (history : List (Call Key)) :
    ∃ fates, ChainSemantics peer user offered noted history auth fates
      (authenticateFrom peer user auth offered noted history) := by
  -- The induction is on the chain, and what the walk knows by then moves along with it.
  induction auth generalizing offered noted history with
  | nil => exact ⟨[], chainSemantics_nil⟩
  | cons method rest ih =>
    rw [authenticateFrom]
    split
    · rename_i ruledOut
      obtain ⟨fates, semantics⟩ :=
        ih offered (noted ++ [methodLabel method ++ ": not offered by server"]) history
      have notAdmitted : ¬Admits offered (methodKind method) := by
        rw [← notOffered_eq_false, ruledOut]
        decide
      exact ⟨_, .cons .skipped rfl (iff_of_false (by simp) notAdmitted) (by simp) semantics⟩
    · rename_i open_
      have admitted := notOffered_eq_false.mp (Bool.not_eq_true _ ▸ open_)
      split
      · rename_i tried
        exact ⟨_, chainSemantics_accepted rest admitted (by rw [tried])⟩
      -- A rejection narrows the offer, and an error leaves it as it was.
      · rename_i remaining partialSuccess later tried
        obtain ⟨fates, semantics⟩ :=
          ih (some remaining) (noted ++ [methodLabel method ++ ": rejected"]) later
        exact ⟨_, .attempted tried admitted rfl semantics⟩
      · rename_i error later tried
        obtain ⟨fates, semantics⟩ :=
          ih offered (noted ++ [methodLabel method ++ ": " ++ error.display]) later
        exact ⟨_, .attempted tried admitted rfl semantics⟩

/-- A method without a verdict failed on this side, or the transport library raised its error. -/
theorem raised_tryMethod {method : AuthMethod} {history : List (Call Key)} {error : SshError}
    (failed : (tryMethod peer user method history).1 = .error error) :
    error.IsLocal ∨ ∃ cause, peer.Raises cause ∧ error = .protocol cause := by
  -- Only the requests of a method reach the transport library.
  cases method with
  | password secret =>
    -- A password takes one request, whose error is the library's.
    cases reply : peer.password (.password user secret :: history) with
    | ok verdict => simp [tryMethod, reply, Except.mapError] at failed
    | error cause =>
      refine .inr ⟨cause, ⟨_, .inl reply⟩, ?_⟩
      simpa [tryMethod, reply, Except.mapError, eq_comm] using failed
  | keyFile path passphrase =>
    simp only [tryMethod] at failed
    split at failed
    · cases failed
      -- A key that cannot be loaded is a failure on this side.
      exact .inl (.inl ⟨_, rfl⟩)
    · rename_i key _
      split at failed
      · rename_i cause reply
        cases failed
        exact .inr ⟨cause, ⟨_, .inr (.inl reply)⟩, rfl⟩
      · rename_i hash _
        cases reply : peer.publickey (.publickey user key hash.join :: .rsaHash :: history) with
        | ok verdict => simp [reply, Except.mapError] at failed
        | error cause =>
          refine .inr ⟨cause, ⟨_, .inr (.inr reply)⟩, ?_⟩
          simpa [reply, Except.mapError, eq_comm] using failed
  | agent =>
    simp only [tryMethod, authenticateWithAgent] at failed
    split at failed
    · rename_i cause _ reached
      obtain rfl : cause = error := by simpa using failed
      -- So is an agent that cannot be reached, or that has no identity.
      exact .inl (error_connectAgent (by rw [reached]))
    · split at failed
      · cases failed
        exact .inl (.inr ⟨_, rfl⟩)
      · cases failed
        exact .inl (.inr ⟨_, rfl⟩)
      · split at failed
        · rename_i cause reply
          cases failed
          exact .inr ⟨cause, ⟨_, .inr (.inl reply)⟩, rfl⟩
        · exact .inl (error_offerIdentities failed)

/-- A text that starts otherwise is another text. -/
theorem append_ne_of_take_ne {start text other : String}
    (differs : other.toList.take start.toList.length ≠ start.toList) : start ++ text ≠ other := by
  rintro rfl
  exact differs (by simp)

/-- No failure is worded like a verdict on a method. -/
theorem display_ne_verdict (words : peer.OwnWords) {method : AuthMethod}
    {history : List (Call Key)} {error : SshError}
    (failed : (tryMethod peer user method history).1 = .error error) :
    error.display ≠ "not offered by server" ∧ error.display ≠ "rejected" := by
  rcases raised_tryMethod failed with (⟨detail, rfl⟩ | ⟨detail, rfl⟩) | ⟨cause, raised, rfl⟩
  · exact ⟨append_ne_of_take_ne (by decide), append_ne_of_take_ne (by decide)⟩
  · exact ⟨append_ne_of_take_ne (by decide), append_ne_of_take_ne (by decide)⟩
  · exact words cause raised

/-- What an item says can be told apart from what it would say of another fate. -/
theorem Describes.tells (words : peer.OwnWords) {method : AuthMethod} {history : List (Call Key)}
    {fate : Fate} {item : String} (described : Describes method fate item)
    (answered : ∀ reply, fate = .attempted reply →
      reply = (tryMethod peer user method history).1) :
    Tells method fate item := by
  -- The three kinds of item differ behind the label they share.
  have skippedText : methodLabel method ++ ": not offered by server" =
      methodLabel method ++ ": " ++ "not offered by server" := by
    rw [String.append_assoc]
    rfl
  have rejectedText : methodLabel method ++ ": rejected" =
      methodLabel method ++ ": " ++ "rejected" := by
    rw [String.append_assoc]
    rfl
  match fate, described with
  | .skipped, rfl =>
    constructor <;> simp [skippedText, rejectedText]
  | .attempted (.ok (.failure remaining partialSuccess)), rfl =>
    constructor <;> simp [skippedText, rejectedText]
  | .attempted (.error error), rfl =>
    have differs := display_ne_verdict words (answered _ rfl).symm
    constructor <;> simp [skippedText, rejectedText, differs]

/--
A chain is attempted in its order, each method exactly when nothing was accepted before
and the last rejection does not rule it out, and a chain that fails reports every method of it.
-/
theorem authenticate_chain (peer : Peer Key) (user : String) (auth : List AuthMethod)
    (words : peer.OwnWords) :
    ∃ fates, ChainSemantics peer user none [] [] auth fates (authenticate peer user auth) ∧
      ∀ (i : Nat) (method : AuthMethod) (fate : Fate) (item : String),
        auth[i]? = some method → fates[i]? = some fate → Describes method fate item →
        Tells method fate item := by
  -- The walk gives each method its fate, and each fate is told in the item of its method.
  obtain ⟨fates, semantics⟩ := authenticateFrom_semantics auth none [] []
  refine ⟨fates, semantics, ?_⟩
  intro i method fate item isMethod isFate described
  apply described.tells words
  rintro reply rfl
  exact semantics.answered i method reply isMethod isFate

/-- A server that turns the first method down and then takes passwords only. -/
def passwordsOnly : Peer Unit where
  platform := .unix
  loadSecretKey := fun _ _ => .ok ()
  password := fun _ => .ok (.failure [.password] false)
  rsaHash := fun _ => .ok none
  publickey := fun _ => .ok (.failure [.password] false)
  connectEnv := fun _ => .error "no agent"
  connectNamedPipe := fun _ => .error "no agent"
  connectPageant := fun _ => .error "no agent"
  identities := fun _ => .error "no agent"
  publickeyWith := fun _ => .error "no agent"

/-- An agent that is not there, a key that is rejected, another key that is skipped, and a
password. -/
theorem authenticate_chain_of_four :
    passwordsOnly.OwnWords ∧
    (authenticate passwordsOnly "user"
      [.agent, .keyFile "a" none, .keyFile "b" none, .password "secret"]).result =
      .error (.authFailed ("agent: ssh-agent: no agent; key a: rejected; " ++
        "key b: not offered by server; password: rejected")) ∧
    ∃ fates, ChainSemantics passwordsOnly "user" none [] []
      [.agent, .keyFile "a" none, .keyFile "b" none, .password "secret"] fates
      (authenticate passwordsOnly "user"
        [.agent, .keyFile "a" none, .keyFile "b" none, .password "secret"]) := by
  -- This peer raises no error of its own, and the chain is walked by evaluation.
  have words : passwordsOnly.OwnWords := by
    rintro error ⟨history, raised | raised | raised⟩ <;> cases raised
  refine ⟨words, ?_, ?_⟩
  · rfl
  · obtain ⟨fates, semantics, -⟩ := authenticate_chain passwordsOnly "user"
      [.agent, .keyFile "a" none, .keyFile "b" none, .password "secret"] words
    exact ⟨fates, semantics⟩

end Walk

end Tern.Ssh
