import Mathlib.Logic.Function.Basic
import Tern.Base.System
import Tern.Ssh.Crates

/-! First-contact prompts: the callback, the dialog, and the answers that travel between them. -/

namespace Tern.HostKeyPrompt

open Tern.KnownHosts

/-- What the server presented to the callback of one connect attempt. -/
structure Attempt (Key : Type) where
  -- The id the frontend minted, which a reconnect of the same session uses again.
  sessionId : String
  host : String
  port : UInt16
  publicKey : PublicKey Key

/-- The event that asks the user, carrying the id to answer it with. -/
structure PromptEvent where
  sessionId : String
  host : String
  port : UInt16
  algorithm : String
  fingerprintSha256 : String
  deriving DecidableEq, Repr

/-- A call of `approve_host_key` on its way, with the event its answer was given to. -/
structure Answer where
  id : String
  accept : Bool
  given : PromptEvent
  deriving DecidableEq, Repr

/-- How far the callback of one attempt has come. -/
inductive Phase where
  /-- Blocked on its receiver. -/
  | waiting
  /-- A decision was sent, together with the event it was given to. -/
  | sent (accept : Bool) (given : PromptEvent)
  /-- The sender was dropped without a decision. -/
  | dropped
  /-- The callback returned. -/
  | returned (accepted : Bool)
  /-- The connect timeout dropped the callback. -/
  | abandoned
  deriving DecidableEq, Repr

/-- A key passed on to be learned, with the event the accepting answer was given to. -/
structure Learned (Key : Type) where
  attempt : Attempt Key
  given : PromptEvent

/-- The backend, the webview, and what is in flight between them. -/
structure State (Key : Type) where
  -- The known hosts file, which verdicts read and learned keys are appended to.
  file : Disk
  attempts : List (Attempt Key)
  -- Attempts are numbered in the order their servers presented a key.
  phase : Nat → Phase
  -- The map of prompts that wait, from a session id to the attempt that holds the receiver.
  pending : String → Option Nat
  -- Emitted and not yet seen by the webview.
  events : List PromptEvent
  -- The webview has one dialog for every session.
  prompt : Option PromptEvent
  -- Invoked and not yet handled by the backend.
  answers : List Answer
  learned : List (Learned Key)

/-- Nothing has happened yet. -/
def State.initial (Key : Type) (file : Disk) : State Key where
  file := file
  attempts := []
  phase := fun _ => .waiting
  pending := fun _ => none
  events := []
  prompt := none
  answers := []
  learned := []

/-- One step of a party, in any order. -/
inductive Action (Key : Type) where
  /-- The server of an attempt presents its key, and the callback runs up to its first wait. -/
  | present (attempt : Attempt Key)
  /-- The next event of a session's channel reaches the webview. -/
  | deliver (sessionId : String)
  /-- The user answers the dialog. -/
  | answerPrompt (accept : Bool)
  /-- A call in flight reaches the backend. -/
  | approveHostKey (index : Nat)
  /-- The callback of an attempt wakes up with its decision. -/
  | resume (index : Nat) (hashed : Bool) (salt : Option (List UInt8))
  /-- The connect timeout drops the callback of an attempt. -/
  | abandon (index : Nat)

section Steps

variable {Key : Type} (crates : Crates Key)

/-- The event that shows an attempt's key to the user. -/
def promptEvent (attempt : Attempt Key) : PromptEvent where
  sessionId := attempt.sessionId
  host := attempt.host
  port := attempt.port
  algorithm := crates.algorithm attempt.publicKey.keyData
  fingerprintSha256 := crates.fingerprint attempt.publicKey.keyData

/-- The phases after a pending sender was replaced, which resolves its receiver to no. -/
def dropSender (phase : Nat → Phase) (replaced : Option Nat) : Nat → Phase :=
  match replaced with
  | none => phase
  | some index =>
    -- Dropping a sender wakes only a receiver that still waits on it.
    if phase index = .waiting then Function.update phase index .dropped else phase

/-- The callback from the verdict to its first wait. -/
def present [DecidableEq Key] (state : State Key) (attempt : Attempt Key) : State Key :=
  let index := state.attempts.length
  let attempts := state.attempts ++ [attempt]
  match verify crates state.file attempt.host attempt.port attempt.publicKey with
  -- An unreadable file must not silently become trust in anything.
  | .error _ =>
    { state with
      attempts := attempts, phase := Function.update state.phase index (.returned false) }
  -- A key already on file is accepted without a word to the user.
  | .ok .trusted =>
    { state with
      attempts := attempts, phase := Function.update state.phase index (.returned true) }
  | .ok (.revoked _) =>
    { state with
      attempts := attempts, phase := Function.update state.phase index (.returned false) }
  | .ok (.changed _ _ _) =>
    { state with
      attempts := attempts, phase := Function.update state.phase index (.returned false) }
  | .ok .unknown =>
    -- Inserting under a session id replaces whatever sender stood there.
    { state with
      attempts := attempts
      phase := Function.update (dropSender state.phase (state.pending attempt.sessionId)) index
        .waiting
      pending := Function.update state.pending attempt.sessionId (some index)
      events := state.events ++ [promptEvent crates attempt] }

/-- The next event of one session's channel is shown, in place of any dialog that was open. -/
def deliver (state : State Key) (sessionId : String) : Option (State Key) :=
  -- Events of one session arrive in order, those of different sessions in any.
  (state.events.find? fun event => event.sessionId = sessionId).map fun event =>
    { state with events := state.events.erase event, prompt := some event }

/-- The dialog closes, and its answer is sent under the id its event carried. -/
def answerPrompt (state : State Key) (accept : Bool) : Option (State Key) :=
  state.prompt.map fun event =>
    { state with
      prompt := none
      answers := state.answers ++ [⟨event.sessionId, accept, event⟩] }

/-- The sender registered under the answer's id is taken out, and gets the decision. -/
def approveHostKey (state : State Key) (answer : Answer) : State Key :=
  match state.pending answer.id with
  -- No prompt waits under this id, and the call fails.
  | none => state
  | some index =>
    { state with
      pending := Function.update state.pending answer.id none
      -- A receiver that is gone does not see what is sent.
      phase :=
        if state.phase index = .waiting then
          Function.update state.phase index (.sent answer.accept answer.given)
        else state.phase }

/-- An accepted key is learned, and failing to record it does not take the trust back. -/
def accepted (state : State Key) (index : Nat) (attempt : Attempt Key) (given : PromptEvent)
    (hashed : Bool) (salt : Option (List UInt8)) : State Key :=
  { state with
    file :=
      -- The write is best effort, and its failure is only logged.
      match learn crates state.file attempt.host attempt.port attempt.publicKey hashed salt with
      | .ok after => after
      | .error _ => state.file
    phase := Function.update state.phase index (.returned true)
    learned := state.learned ++ [⟨attempt, given⟩] }

/-- The callback after its wait. -/
def resume (state : State Key) (index : Nat) (hashed : Bool) (salt : Option (List UInt8)) :
    Option (State Key) :=
  state.attempts[index]?.bind fun attempt =>
    match state.phase index with
    | .sent true given => some (accepted crates state index attempt given hashed salt)
    -- A refusal, a sender that is gone and the connect timeout all come to no.
    | .sent false _ =>
      some { state with phase := Function.update state.phase index (.returned false) }
    | .dropped =>
      some { state with phase := Function.update state.phase index (.returned false) }
    -- A callback that waits or has finished does not wake.
    | .waiting => none
    | .returned _ => none
    | .abandoned => none

/-- The step of one party. -/
def step [DecidableEq Key] (state : State Key) : Action Key → Option (State Key)
  | .present attempt => some (present crates state attempt)
  | .deliver sessionId => deliver state sessionId
  | .answerPrompt accept => answerPrompt state accept
  -- Calls in flight may overtake each other.
  | .approveHostKey index =>
    state.answers[index]?.map fun answer =>
      approveHostKey { state with answers := state.answers.eraseIdx index } answer
  | .resume index hashed salt => resume crates state index hashed salt
  | .abandon index =>
    -- The map keeps its entry, since nothing removes it when the callback is dropped.
    if index < state.attempts.length ∧ state.phase index = .waiting then
      some { state with phase := Function.update state.phase index .abandoned }
    else none

end Steps

section Binding

variable {Key : Type} (crates : Crates Key)

/-- Every key passed on to be learned was accepted on an event that showed its fingerprint. -/
def BoundToShown (state : State Key) : Prop :=
  ∀ record ∈ state.learned,
    record.given.fingerprintSha256 = crates.fingerprint record.attempt.publicKey.keyData

/--
When an answer cannot reach a prompt for another key.

A prompt is only registered while no accepting answer to another key is under way for its id,
and a dialog is only accepted while no prompt for another key is registered under its id.
-/
def Unsuperseded [DecidableEq Key] (state : State Key) : Action Key → Prop
  | .present attempt =>
    verify crates state.file attempt.host attempt.port attempt.publicKey = .ok .unknown →
      ∀ answer ∈ state.answers, answer.accept = true → answer.id = attempt.sessionId →
        answer.given.fingerprintSha256 = crates.fingerprint attempt.publicKey.keyData
  | .answerPrompt true =>
    ∀ event, state.prompt = some event →
      ∀ index, state.pending event.sessionId = some index →
        ∀ attempt, state.attempts[index]? = some attempt →
          event.fingerprintSha256 = crates.fingerprint attempt.publicKey.keyData
  | _ => True

/-- What keeps an accepting answer on the key it was given for, all the way to the file. -/
structure Bound (state : State Key) : Prop where
  registered : ∀ id index, state.pending id = some index → index < state.attempts.length
  answered : ∀ answer ∈ state.answers, answer.accept = true →
    ∀ index attempt, state.pending answer.id = some index →
      state.attempts[index]? = some attempt →
        answer.given.fingerprintSha256 = crates.fingerprint attempt.publicKey.keyData
  decided : ∀ index given attempt, state.phase index = .sent true given →
    state.attempts[index]? = some attempt →
      given.fingerprintSha256 = crates.fingerprint attempt.publicKey.keyData
  learned : BoundToShown crates state

/-- Before anything happens there is nothing to bind. -/
theorem bound_initial (file : Disk) : Bound crates (State.initial Key file) where
  registered := by simp [State.initial]
  answered := by simp [State.initial]
  decided := by simp [State.initial]
  learned := by simp [BoundToShown, State.initial]

variable {crates}

/-- Phases in which no new acceptance appears keep the binding. -/
theorem Bound.rephase {state : State Key} (bound : Bound crates state) {phase : Nat → Phase}
    (settled : ∀ index given, phase index = .sent true given →
      state.phase index = .sent true given) :
    Bound crates { state with phase := phase } where
  registered := bound.registered
  answered := bound.answered
  -- Only an acceptance that was there before can be there now.
  decided := fun index given attempt sent => bound.decided index given attempt (settled _ _ sent)
  learned := bound.learned

/-- Moving one callback to a phase that is no acceptance makes none appear. -/
theorem update_settled {phase : Nat → Phase} {moved : Nat} {next : Phase}
    (plain : ∀ given, next ≠ .sent true given) (index : Nat) (given : PromptEvent)
    (sent : Function.update phase moved next index = .sent true given) :
    index ≠ moved ∧ phase index = .sent true given := by
  by_cases same : index = moved
  · -- The moved callback holds the new phase, which accepts nothing.
    rw [same, Function.update_self] at sent
    exact absurd sent (plain given)
  · rw [Function.update_of_ne same] at sent
    exact ⟨same, sent⟩

/-- A replaced sender resolves to no, which is no acceptance. -/
theorem dropSender_settled {phase : Nat → Phase} {replaced : Option Nat} (index : Nat)
    (given : PromptEvent) (sent : dropSender phase replaced index = .sent true given) :
    phase index = .sent true given := by
  unfold dropSender at sent
  -- Either nothing was replaced, or the replaced receiver changed to a refusal.
  split at sent
  · exact sent
  · split at sent
    · exact (update_settled (by simp) index given sent).2
    · exact sent

/-- A further attempt leaves what is bound to the earlier ones alone. -/
theorem Bound.attempt {state : State Key} (bound : Bound crates state) (attempt : Attempt Key)
    {phase : Nat → Phase}
    (settled : ∀ index given, phase index = .sent true given →
      index ≠ state.attempts.length ∧ state.phase index = .sent true given) :
    Bound crates { state with attempts := state.attempts ++ [attempt], phase := phase } where
  registered := by
    intro id index pending
    have inside := bound.registered id index pending
    simp only [List.length_append, List.length_singleton]
    omega
  answered := by
    intro answer member accepts index shown pending found
    -- A registered sender belongs to an earlier attempt, which kept its place.
    rw [List.getElem?_append_left (bound.registered _ _ pending)] at found
    exact bound.answered answer member accepts index shown pending found
  decided := by
    -- The new callback has accepted nothing, so the decision belongs to an earlier attempt.
    intro index given shown sent found
    obtain ⟨other, old⟩ := settled index given sent
    have inside : index < state.attempts.length := by
      have whole := (List.getElem?_eq_some_iff.mp found).1
      simp only [List.length_append, List.length_singleton] at whole
      omega
    rw [List.getElem?_append_left inside] at found
    exact bound.decided index given shown old found
  learned := bound.learned

/-- Running a callback up to its wait keeps the binding when no answer overtakes the prompt. -/
theorem Bound.present [DecidableEq Key] {state : State Key} (bound : Bound crates state)
    {attempt : Attempt Key} (fresh : Unsuperseded crates state (.present attempt)) :
    Bound crates (present crates state attempt) := by
  unfold HostKeyPrompt.present
  dsimp only
  -- Every verdict but first contact ends the callback at once.
  split
  · exact bound.attempt attempt (update_settled (by simp))
  · exact bound.attempt attempt (update_settled (by simp))
  · exact bound.attempt attempt (update_settled (by simp))
  · exact bound.attempt attempt (update_settled (by simp))
  · -- First contact registers the new attempt under its session id.
    rename_i unknown
    -- The new callback waits, and a replaced one resolves to no.
    have settled : ∀ index given, Function.update
        (dropSender state.phase (state.pending attempt.sessionId)) state.attempts.length .waiting
          index = .sent true given →
        index ≠ state.attempts.length ∧ state.phase index = .sent true given := by
      intro index given sent
      obtain ⟨other, old⟩ := update_settled (by simp) index given sent
      exact ⟨other, dropSender_settled index given old⟩
    have extended := bound.attempt attempt settled
    refine ⟨?_, ?_, extended.decided, extended.learned⟩
    · -- The new entry of the map points at the attempt that was just added.
      intro id index pending
      dsimp only at pending ⊢
      by_cases same : id = attempt.sessionId
      · rw [same, Function.update_self, Option.some.injEq] at pending
        simp [← pending]
      · -- Entries under other ids are the ones there were.
        rw [Function.update_of_ne same] at pending
        exact extended.registered id index pending
    · intro answer member accepts index shown pending found
      dsimp only at pending found
      by_cases same : answer.id = attempt.sessionId
      · -- An answer for this id must have been given to the same key.
        rw [same, Function.update_self, Option.some.injEq] at pending
        have this_ : shown = attempt := by
          rw [← pending] at found
          simpa using found.symm
        rw [this_]
        exact fresh unknown answer member accepts same
      · rw [Function.update_of_ne same] at pending
        exact extended.answered answer member accepts index shown pending found

/-- Accepting a dialog keeps the binding when no prompt for another key took its place. -/
theorem Bound.answerPrompt [DecidableEq Key] {state next : State Key} (bound : Bound crates state)
    {accept : Bool} (fresh : Unsuperseded crates state (.answerPrompt accept))
    (taken : answerPrompt state accept = some next) : Bound crates next := by
  obtain ⟨event, shown, rfl⟩ := Option.map_eq_some_iff.mp taken
  -- Only the answers change.
  refine ⟨bound.registered, ?_, bound.decided, bound.learned⟩
  intro answer member accepts index attempt pending found
  rcases List.mem_append.mp member with earlier | last
  · exact bound.answered answer earlier accepts index attempt pending found
  · -- The new answer speaks for the dialog, which still asks about the registered key.
    rw [List.mem_singleton.mp last] at accepts pending ⊢
    cases accepts
    exact fresh event shown index pending attempt found

/-- Delivering a decision hands the answer's key on to the attempt that waits for it. -/
theorem Bound.approveHostKey {state : State Key} (bound : Bound crates state) {answer : Answer}
    (member : answer ∈ state.answers) {rest : List Answer}
    (kept : ∀ other ∈ rest, other ∈ state.answers) :
    Bound crates (approveHostKey { state with answers := rest } answer) := by
  have remaining : Bound crates { state with answers := rest } :=
    ⟨bound.registered, fun other inside => bound.answered other (kept other inside),
      bound.decided, bound.learned⟩
  unfold HostKeyPrompt.approveHostKey
  dsimp only
  split
  · -- Nobody waits under this id, and the answer is lost.
    exact remaining
  · rename_i index pending
    -- The entry is taken out, so nothing is registered under the answer's id any more.
    refine ⟨?_, ?_, ?_, bound.learned⟩
    · intro id other registered
      dsimp only at registered
      by_cases same : id = answer.id
      · -- The entry under the answer's own id is gone.
        rw [same, Function.update_self] at registered
        cases registered
      · rw [Function.update_of_ne same] at registered
        exact bound.registered id other registered
    · intro other inside accepts slot attempt registered found
      dsimp only at registered
      by_cases same : other.id = answer.id
      · rw [same, Function.update_self] at registered
        cases registered
      · rw [Function.update_of_ne same] at registered
        exact bound.answered other (kept other inside) accepts slot attempt registered found
    · intro slot given attempt sent found
      dsimp only at sent
      split at sent
      · by_cases same : slot = index
        · -- The receiver gets this answer, which was given to the attempt's own key.
          rw [same, Function.update_self, Phase.sent.injEq] at sent
          rw [← sent.2]
          exact bound.answered answer member sent.1 index attempt pending (same ▸ found)
        · rw [Function.update_of_ne same] at sent
          exact bound.decided slot given attempt sent found
      · exact bound.decided slot given attempt sent found

/-- A callback that wakes with an acceptance learns the key the acceptance was given to. -/
theorem Bound.resume {state next : State Key} (bound : Bound crates state) {index : Nat}
    {hashed : Bool} {salt : Option (List UInt8)}
    (taken : resume crates state index hashed salt = some next) : Bound crates next := by
  obtain ⟨attempt, found, taken⟩ := Option.bind_eq_some_iff.mp taken
  have plain : ∀ accepted given, Phase.returned accepted ≠ .sent true given := by simp
  split at taken
  · -- An acceptance writes the attempt's key, and what was decided for it carries over.
    rename_i given sent
    cases taken
    have settled : ∀ slot other, Function.update state.phase index (.returned true) slot =
        .sent true other → state.phase slot = .sent true other :=
      fun slot other sent => (update_settled (plain true) slot other sent).2
    have returned := bound.rephase settled
    refine ⟨returned.registered, returned.answered, returned.decided, ?_⟩
    -- What was learned now is the key of the attempt that woke.
    intro record member
    rcases List.mem_append.mp member with earlier | last
    · exact bound.learned record earlier
    · rw [List.mem_singleton.mp last]
      exact bound.decided index given attempt sent found
  · -- A refusal returns without learning.
    cases taken
    exact bound.rephase fun slot other sent => (update_settled (plain false) slot other sent).2
  · cases taken
    exact bound.rephase fun slot other sent => (update_settled (plain false) slot other sent).2
  · cases taken
  · cases taken
  · cases taken

/-- One step keeps the binding when it supersedes no answer. -/
theorem bound_step [DecidableEq Key] {state next : State Key} {action : Action Key}
    (fresh : Unsuperseded crates state action) (bound : Bound crates state)
    (taken : step crates state action = some next) : Bound crates next := by
  cases action with
  | present attempt =>
    cases taken
    exact bound.present fresh
  | deliver sessionId =>
    -- Showing a dialog touches nothing that is bound.
    obtain ⟨event, -, rfl⟩ := Option.map_eq_some_iff.mp taken
    exact ⟨bound.registered, bound.answered, bound.decided, bound.learned⟩
  | answerPrompt accept => exact bound.answerPrompt fresh taken
  | approveHostKey index =>
    obtain ⟨answer, found, rfl⟩ := Option.map_eq_some_iff.mp taken
    -- An answer is handled once, and the others stay in flight.
    exact bound.approveHostKey (List.mem_of_getElem? found)
      fun other inside => List.mem_of_mem_eraseIdx inside
  | resume index hashed salt => exact bound.resume taken
  | abandon index =>
    rw [step] at taken
    -- A callback is only dropped while it waits.
    split at taken
    · cases taken
      exact bound.rephase fun slot given sent => (update_settled (by simp) slot given sent).2
    · cases taken

/--
In every run in which no answer is superseded,
each key that is learned was accepted on an event that showed its fingerprint.
-/
theorem learned_bound_to_shown [DecidableEq Key] {file : Disk} {actions : List (Action Key)}
    {final : State Key}
    (fresh : System.Meets (step crates) (Unsuperseded crates) (State.initial Key file) actions)
    (ran : System.run (step crates) (State.initial Key file) actions = some final) :
    BoundToShown crates final :=
  (System.run_invariant bound_step fresh (bound_initial crates file) ran).learned

end Binding

/-- A connect of the first session to a server that presents one fixture key. -/
def attemptA : Attempt Reference.EncodedKey :=
  ⟨"s-1", "plain.example.com", 22, ⟨Reference.hostKeyA, ""⟩⟩

/-- The next connect of the same session, to a server that presents another key. -/
def attemptB : Attempt Reference.EncodedKey :=
  ⟨"s-1", "plain.example.com", 22, ⟨Reference.hostKeyB, ""⟩⟩

/-- A prompt that is shown, accepted and answered in turn. -/
def promptAnswered : List (Action Reference.EncodedKey) :=
  [.present attemptA, .deliver "s-1", .answerPrompt true, .approveHostKey 0, .resume 0 false none]

/-- The answered prompt learns its key, which is the one that was shown. -/
theorem learned_bound_to_shown_answered :
    ∃ final, System.run (step Reference.crates) (State.initial _ .missing) promptAnswered =
        some final ∧ final.learned.length = 1 ∧ BoundToShown Reference.crates final := by
  obtain ⟨final, ran, once⟩ : ∃ final, System.run (step Reference.crates)
      (State.initial _ .missing) promptAnswered = some final ∧ final.learned.length = 1 :=
    ⟨_, rfl, rfl⟩
  refine ⟨final, ran, once, learned_bound_to_shown ?_ ran⟩
  refine .cons ?_ rfl
    (.cons trivial rfl (.cons ?_ rfl (.cons trivial rfl (.cons trivial rfl trivial))))
  · -- Nothing is in flight when the prompt is raised.
    intro _ answer member
    cases member
  · -- The dialog shows the only attempt there is.
    intro event shown index pending attempt found
    cases shown
    have first : some 0 = some index := pending
    cases first
    have only : some attemptA = some attempt := found
    cases only
    rfl

/-- An accepted prompt that times out while its answer is on the way, and is raised again. -/
def promptSuperseded : List (Action Reference.EncodedKey) :=
  [.present attemptA, .deliver "s-1", .answerPrompt true, .abandon 0, .present attemptB,
    .approveHostKey 0, .resume 1 false none]

/-- A key that was never shown is learned on an answer given to another key. -/
theorem learned_without_being_shown :
    ∃ final, System.run (step Reference.crates) (State.initial _ .missing) promptSuperseded =
        some final ∧ ¬BoundToShown Reference.crates final := by
  refine ⟨_, rfl, ?_⟩
  intro bound
  -- The one learned key is the second server's, and the answer was given to the first.
  have shown := bound _ List.mem_cons_self
  revert shown
  decide

end Tern.HostKeyPrompt
