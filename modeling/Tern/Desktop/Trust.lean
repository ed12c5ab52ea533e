import Tern.Desktop.HostKeyPrompt
import Tern.Ssh.Authenticate

/-! Connects behind their prompts: no credential is used before the server's key is trusted. -/

namespace Tern.HostKeyPrompt

open Tern.KnownHosts Tern.Ssh
open Tern.Desktop (Jitter ReconnectPolicy)

/-- Every connect under way, with what its server's key was found to be and what came of it. -/
structure Connects (Key : Type) where
  prompts : State Key
  /-- What the file said of each presented key at the time. -/
  verdicts : List (Except KnownHostsError HostKeyVerdict)
  /-- The connects that are over, each with its attempt. -/
  runs : List (Nat × AuthRun)

/-- No connect has been made yet. -/
def Connects.initial (Key : Type) (file : Disk) : Connects Key := ⟨State.initial Key file, [], []⟩

/-- One step of a party, another write of the file, or a connect that comes to its end. -/
inductive ConnectAction (Key PrivateKey : Type) where
  | prompts (action : Action Key)
  /-- The file is written from elsewhere: by an import, a removal, or another program. -/
  | write (file : Disk)
  /-- The handshake is over as far as the callback lets it, and the peer answers what follows. -/
  | finish (index : Nat) (cfg : SessionConfig) (peer : Peer PrivateKey) (network : Handshake)

section Steps

variable {Key PrivateKey : Type} (crates : Crates Key) [DecidableEq Key]

/-- How a handshake ends, from where its callback stands and what the network does. -/
def handshakeAfter (phase : Phase) (network : Handshake) : Option Handshake :=
  match phase, network with
  | .returned true, network => some network
  -- The transport does not come up against the callback, though the timer may still be faster.
  | .returned false, .timedOut => some .timedOut
  | .returned false, _ => some (.failed (.protocol .unknownKey))
  -- A callback is only ever dropped by the timer.
  | .abandoned, _ => some .timedOut
  | _, _ => none

/-- The verdict that a step of the prompts brings. -/
def verdictOf (state : State Key) : Action Key → List (Except KnownHostsError HostKeyVerdict)
  | .present attempt => [verify crates state.file attempt.host attempt.port attempt.publicKey]
  | _ => []

/-- One step of the connects. -/
def connectStep (connects : Connects Key) :
    ConnectAction Key PrivateKey → Option (Connects Key)
  | .prompts action =>
    (step crates connects.prompts action).map fun prompts =>
      { connects with
        prompts := prompts
        verdicts := connects.verdicts ++ verdictOf crates connects.prompts action }
  | .write file => some { connects with prompts := { connects.prompts with file := file } }
  | .finish index cfg peer network =>
    if index < connects.prompts.attempts.length then
      (handshakeAfter (connects.prompts.phase index) network).map fun handshake =>
        { connects with runs := connects.runs ++ [(index, connect peer cfg handshake)] }
    else none

end Steps

section Trust

variable {Key PrivateKey : Type} (crates : Crates Key)

/-- An event asked about a key that was not on file, in a prompt of its own session. -/
def Asked (connects : Connects Key) (event : PromptEvent) : Prop :=
  ∃ (index : Nat) (attempt : Attempt Key), connects.prompts.attempts[index]? = some attempt ∧
    connects.verdicts[index]? = some (.ok .unknown) ∧ event = promptEvent crates attempt

/-- The user said yes to an event of the attempt's own session, and the attempt's key was
learned. -/
def Approved (connects : Connects Key) (attempt : Attempt Key) (given : PromptEvent) : Prop :=
  (⟨attempt, given⟩ : Learned Key) ∈ connects.prompts.learned ∧
    given.sessionId = attempt.sessionId ∧ Asked crates connects given

/-- The key of an attempt was on file when it was presented, or new and accepted as it was shown. -/
def KeyTrusted (connects : Connects Key) (index : Nat) (attempt : Attempt Key) : Prop :=
  connects.verdicts[index]? = some (.ok .trusted) ∨
    connects.verdicts[index]? = some (.ok .unknown) ∧ ∃ given,
      Approved crates connects attempt given ∧
        given.fingerprintSha256 = crates.fingerprint attempt.publicKey.keyData

/-- No prompt takes the place of another whose accepting answer is for a different key. -/
def NoneSuperseded [DecidableEq Key] (connects : Connects Key) :
    ConnectAction Key PrivateKey → Prop
  | .prompts action => Unsuperseded crates connects.prompts action
  | _ => True

/-- The supervisor makes no further attempt after an error, whatever its policy. -/
def GivesUp (error : SshError) : Prop :=
  ∀ (policy : ReconnectPolicy) (attempt : UInt32) (rand01 : Jitter),
    policy.afterFailedAttempt attempt (ReconnectError.ofSshError error).retryable rand01 = .giveUp

/-- What a connect that is over shows of the decision about its server's key. -/
structure Vouched (connects : Connects Key) (index : Nat) (run : AuthRun) : Prop where
  made : index < connects.prompts.attempts.length
  /-- A method is only tried with a key that was on file, or that was new and approved. -/
  trusted : run.tried ≠ [] → ∃ attempt, connects.prompts.attempts[index]? = some attempt ∧
    (connects.verdicts[index]? = some (.ok .trusted) ∨
      connects.verdicts[index]? = some (.ok .unknown) ∧
        ∃ given, Approved crates connects attempt given)
  /-- A key that is at odds with the file, or a file that cannot be read, is the end of it. -/
  refused : ∀ verdict, connects.verdicts[index]? = some verdict → verdict ≠ .ok .trusted →
    verdict ≠ .ok .unknown → run.tried = [] ∧ ∃ error, run.result = .error error ∧
      (GivesUp error ∨ ∃ after, error = .connectTimeout after)

/-- What ties every decision to the attempt it was made for. -/
structure Sound (connects : Connects Key) : Prop where
  paired : connects.verdicts.length = connects.prompts.attempts.length
  registered : ∀ id index, connects.prompts.pending id = some index →
    connects.verdicts[index]? = some (.ok .unknown) ∧
      ∃ attempt, connects.prompts.attempts[index]? = some attempt ∧ attempt.sessionId = id
  emitted : ∀ event ∈ connects.prompts.events, Asked crates connects event
  prompted : ∀ event, connects.prompts.prompt = some event → Asked crates connects event
  answered : ∀ answer ∈ connects.prompts.answers, answer.id = answer.given.sessionId ∧
    Asked crates connects answer.given
  /-- A key that is on file or at odds with it is decided about at once. -/
  settled : ∀ (index : Nat) (verdict : Except KnownHostsError HostKeyVerdict),
    connects.verdicts[index]? = some verdict → verdict ≠ .ok .unknown →
      connects.prompts.phase index = .returned (decide (verdict = .ok .trusted))
  decided : ∀ index given, connects.prompts.phase index = .sent true given →
    Asked crates connects given ∧ ∃ attempt, connects.prompts.attempts[index]? = some attempt ∧
      given.sessionId = attempt.sessionId
  returned : ∀ index, connects.verdicts[index]? = some (.ok .unknown) →
    connects.prompts.phase index = .returned true → ∃ attempt,
      connects.prompts.attempts[index]? = some attempt ∧
        ∃ given, Approved crates connects attempt given
  vouched : ∀ index run, (index, run) ∈ connects.runs → Vouched crates connects index run

variable {crates} {connects next : Connects Key}

/-- Before any connect there is nothing to tie. -/
theorem sound_initial (file : Disk) : Sound crates (Connects.initial Key file) := by
  constructor <;> simp [Connects.initial, State.initial]

/-- What a later state still shows of an earlier one. -/
structure Extends (connects next : Connects Key) : Prop where
  attempts : ∀ (index : Nat) (attempt : Attempt Key),
    connects.prompts.attempts[index]? = some attempt →
      next.prompts.attempts[index]? = some attempt
  verdicts : ∀ (index : Nat) (verdict : Except KnownHostsError HostKeyVerdict),
    connects.verdicts[index]? = some verdict → next.verdicts[index]? = some verdict
  learned : ∀ record ∈ connects.prompts.learned, record ∈ next.prompts.learned

/-- What was asked stays asked. -/
theorem Extends.asked (extends_ : Extends connects next) {event : PromptEvent}
    (asked : Asked crates connects event) : Asked crates next event := by
  -- The attempt and its verdict are found at the places they had.
  obtain ⟨index, attempt, found, unknown, rfl⟩ := asked
  exact ⟨index, attempt, extends_.attempts _ _ found, extends_.verdicts _ _ unknown, rfl⟩

/-- What was approved stays approved. -/
theorem Extends.approved (extends_ : Extends connects next) {attempt : Attempt Key}
    (approved : ∃ given, Approved crates connects attempt given) :
    ∃ given, Approved crates next attempt given := by
  -- The same answer still speaks for the attempt.
  obtain ⟨given, member, own, asked⟩ := approved
  exact ⟨given, extends_.learned _ member, own, extends_.asked asked⟩

/-- A connect that was over stays vouched for. -/
theorem Extends.vouched (extends_ : Extends connects next)
    (paired : connects.verdicts.length = connects.prompts.attempts.length) {index : Nat}
    {run : AuthRun} (vouched : Vouched crates connects index run) :
    Vouched crates next index run where
  made := by
    -- The attempt that was there is still found at its place.
    have found := extends_.attempts index _ (List.getElem?_eq_getElem vouched.made)
    exact (List.getElem?_eq_some_iff.mp found).1
  trusted := by
    intro tried
    obtain ⟨attempt, found, known⟩ := vouched.trusted tried
    refine ⟨attempt, extends_.attempts _ _ found, ?_⟩
    rcases known with trusted | ⟨unknown, approved⟩
    · exact .inl (extends_.verdicts _ _ trusted)
    · exact .inr ⟨extends_.verdicts _ _ unknown, extends_.approved approved⟩
  refused := by
    intro verdict found
    -- The verdict of an attempt is the one it was given at first.
    have inside : index < connects.verdicts.length := paired ▸ vouched.made
    have same := extends_.verdicts index _ (List.getElem?_eq_getElem inside)
    rw [found, Option.some.injEq] at same
    exact vouched.refused verdict (same ▸ List.getElem?_eq_getElem inside)

/-- A step that leaves the attempts and what is known of them alone leaves the runs vouched for. -/
theorem Sound.still_vouched (sound : Sound crates connects)
    (attempts : next.prompts.attempts = connects.prompts.attempts)
    (verdicts : next.verdicts = connects.verdicts)
    (learned : next.prompts.learned = connects.prompts.learned)
    (runs : next.runs = connects.runs) :
    ∀ index run, (index, run) ∈ next.runs → Vouched crates next index run := by
  -- What vouches for a run is what is known so far, and none of that is taken away.
  intro index run member
  rw [runs] at member
  refine Extends.vouched ⟨?_, ?_, ?_⟩ sound.paired (sound.vouched index run member)
  · simp [attempts]
  · simp [verdicts]
  · simp [learned]

/-- A callback that has not returned is one that asks about a key that is not on file. -/
theorem Sound.unknown_of_open (sound : Sound crates connects) {index : Nat}
    {verdict : Except KnownHostsError HostKeyVerdict}
    (open_ : ∀ accepted, connects.prompts.phase index ≠ .returned accepted)
    (found : connects.verdicts[index]? = some verdict) : verdict = .ok .unknown := by
  by_contra known
  exact open_ _ (sound.settled index verdict found known)

/-- A callback that has not returned may move on, as far as the new phase is accounted for. -/
theorem Sound.move (sound : Sound crates connects) (index : Nat) (phase : Phase)
    (open_ : ∀ accepted, connects.prompts.phase index ≠ .returned accepted)
    (sent : ∀ given, phase = .sent true given → Asked crates connects given ∧
      ∃ attempt, connects.prompts.attempts[index]? = some attempt ∧
        given.sessionId = attempt.sessionId)
    (returned : phase = .returned true → ∃ attempt,
      connects.prompts.attempts[index]? = some attempt ∧
        ∃ given, Approved crates connects attempt given) :
    Sound crates { connects with
      prompts := { connects.prompts with
        phase := Function.update connects.prompts.phase index phase } } := by
  refine { sound with
    settled := ?_
    decided := ?_
    returned := ?_
    vouched := sound.still_vouched rfl rfl rfl rfl }
  · intro other verdict found known
    -- What is settled has returned, so it is not the callback that moves.
    have different : other ≠ index := by
      intro same
      subst same
      exact known (sound.unknown_of_open open_ found)
    simp only [Function.update_of_ne different]
    exact sound.settled other verdict found known
  · intro other given accepted
    by_cases same : other = index
    · -- The callback that moves brings what is asked of its new phase.
      subst same
      simp only [Function.update_self] at accepted
      exact sent given accepted
    · simp only [Function.update_of_ne same] at accepted
      exact sound.decided other given accepted
  · intro other unknown accepted
    by_cases same : other = index
    · subst same
      simp only [Function.update_self] at accepted
      exact returned accepted
    · simp only [Function.update_of_ne same] at accepted
      exact sound.returned other unknown accepted

/-- A replaced sender moves its callback on to a refusal. -/
theorem Sound.dropSender (sound : Sound crates connects) (replaced : Option Nat) :
    Sound crates { connects with
      prompts := { connects.prompts with
        phase := dropSender connects.prompts.phase replaced } } := by
  -- A sender that is replaced answers its callback with a refusal.
  unfold HostKeyPrompt.dropSender
  cases replaced with
  | none => exact sound
  | some index =>
    by_cases waiting : connects.prompts.phase index = .waiting
    · simp only [waiting, if_true]
      exact sound.move _ _ (by simp [waiting]) (by simp) (by simp)
    · simp only [waiting, if_false]
      exact sound

/-- A further attempt is settled by its verdict, or waits. -/
theorem Sound.attempt (sound : Sound crates connects) (attempt : Attempt Key)
    (verdict : Except KnownHostsError HostKeyVerdict) (phase : Phase)
    (settles : verdict ≠ .ok .unknown → phase = .returned (decide (verdict = .ok .trusted)))
    (waits : verdict = .ok .unknown → phase = .waiting) :
    Sound crates { connects with
      prompts := { connects.prompts with
        attempts := connects.prompts.attempts ++ [attempt]
        phase := Function.update connects.prompts.phase connects.prompts.attempts.length phase }
      verdicts := connects.verdicts ++ [verdict] } := by
  -- The earlier attempts and verdicts keep their places.
  have further : Extends connects { connects with
      prompts := { connects.prompts with
        attempts := connects.prompts.attempts ++ [attempt]
        phase := Function.update connects.prompts.phase connects.prompts.attempts.length phase }
      verdicts := connects.verdicts ++ [verdict] } := by
    refine ⟨?_, ?_, fun _ => id⟩
    · intro index other found
      rw [List.getElem?_append_left (List.getElem?_eq_some_iff.mp found).1]
      exact found
    · intro index other found
      rw [List.getElem?_append_left (List.getElem?_eq_some_iff.mp found).1]
      exact found
  -- The last verdict is the new one.
  have verdicts : ∀ (index : Nat) (other : Except KnownHostsError HostKeyVerdict),
      (connects.verdicts ++ [verdict])[index]? = some other →
      (index ≠ connects.prompts.attempts.length ∧ connects.verdicts[index]? = some other) ∨
        (index = connects.prompts.attempts.length ∧ other = verdict) := by
    intro index other found
    rw [← sound.paired]
    rcases Nat.lt_trichotomy index connects.verdicts.length with earlier | last | beyond
    · rw [List.getElem?_append_left earlier] at found
      exact .inl ⟨Nat.ne_of_lt earlier, found⟩
    · subst last
      simp at found
      exact .inr ⟨rfl, found.symm⟩
    · rw [List.getElem?_eq_none (by simp; omega)] at found
      cases found
  refine ⟨by simp [sound.paired], ?_, ?_, ?_, ?_, ?_, ?_, ?_, ?_⟩
  · intro id index pending
    -- All that was said of earlier callbacks is said of them in the longer lists.
    obtain ⟨unknown, other, found, own⟩ := sound.registered id index pending
    exact ⟨further.verdicts _ _ unknown, other, further.attempts _ _ found, own⟩
  · exact fun event member => further.asked (sound.emitted event member)
  · exact fun event shown => further.asked (sound.prompted event shown)
  · intro answer member
    obtain ⟨own, asked⟩ := sound.answered answer member
    exact ⟨own, further.asked asked⟩
  · intro index other found known
    rcases verdicts index other found with ⟨different, old⟩ | ⟨last, same⟩
    · simp only [Function.update_of_ne different]
      exact sound.settled index other old known
    · subst last same
      simp only [Function.update_self]
      exact settles known
  · intro index given accepted
    by_cases last : index = connects.prompts.attempts.length
    · -- The new callback has returned or waits, and neither is a decision on its way.
      subst last
      simp only [Function.update_self] at accepted
      by_cases unknown : verdict = .ok .unknown
      · rw [waits unknown] at accepted
        cases accepted
      · rw [settles unknown] at accepted
        cases accepted
    · simp only [Function.update_of_ne last] at accepted
      obtain ⟨asked, other, found, own⟩ := sound.decided index given accepted
      exact ⟨further.asked asked, other, further.attempts _ _ found, own⟩
  · intro index unknown accepted
    rcases verdicts index _ unknown with ⟨different, old⟩ | ⟨last, same⟩
    · simp only [Function.update_of_ne different] at accepted
      obtain ⟨other, found, approved⟩ := sound.returned index old accepted
      exact ⟨other, further.attempts _ _ found, further.approved approved⟩
    · subst last
      simp only [Function.update_self, waits same.symm] at accepted
      cases accepted
  · exact fun index run member => further.vouched sound.paired (sound.vouched index run member)

/-- A presented key is settled at once, or asks and is registered under its session. -/
theorem Sound.present [DecidableEq Key] (sound : Sound crates connects) (attempt : Attempt Key) :
    Sound crates { connects with
      prompts := present crates connects.prompts attempt
      verdicts := connects.verdicts ++
        [verify crates connects.prompts.file attempt.host attempt.port attempt.publicKey] } := by
  unfold HostKeyPrompt.present
  dsimp only
  -- Every verdict but first contact settles the callback.
  cases verify crates connects.prompts.file attempt.host attempt.port attempt.publicKey with
  | error reason => exact sound.attempt attempt _ _ (by simp) (by simp)
  | ok verdict =>
    cases verdict with
    | trusted => exact sound.attempt attempt _ _ (by simp) (by simp)
    | revoked line => exact sound.attempt attempt _ _ (by simp) (by simp)
    | changed line algorithm fingerprint => exact sound.attempt attempt _ _ (by simp) (by simp)
    | unknown =>
      -- First contact drops what stood under the session, and then waits.
      have dropped := sound.dropSender (connects.prompts.pending attempt.sessionId)
      have waiting := dropped.attempt attempt (.ok .unknown) .waiting (by simp) (by simp)
      have newest : (connects.prompts.attempts ++ [attempt])[connects.prompts.attempts.length]? =
          some attempt := by
        simp
      have unknown : (connects.verdicts ++ [Except.ok HostKeyVerdict.unknown])[
          connects.prompts.attempts.length]? = some (.ok .unknown) := by
        simp [← sound.paired]
      refine { waiting with
        registered := ?_
        emitted := ?_
        vouched := waiting.still_vouched rfl rfl rfl rfl }
      · intro id index pending
        dsimp only at pending
        by_cases same : id = attempt.sessionId
        · -- The session of the attempt now stands for the newest callback.
          rw [same, Function.update_self, Option.some.injEq] at pending
          subst pending
          exact ⟨unknown, attempt, newest, same.symm⟩
        · rw [Function.update_of_ne same] at pending
          exact waiting.registered id index pending
      · intro event member
        rcases List.mem_append.mp member with earlier | last
        · exact waiting.emitted event earlier
        · exact ⟨_, attempt, newest, unknown, List.mem_singleton.mp last⟩

/-- An answer moves the callback it reaches on to its decision. -/
theorem Sound.approveHostKey (sound : Sound crates connects) {answer : Answer}
    (member : answer ∈ connects.prompts.answers) {rest : List Answer}
    (kept : ∀ other ∈ rest, other ∈ connects.prompts.answers) :
    Sound crates { connects with
      prompts := approveHostKey { connects.prompts with answers := rest } answer } := by
  have remaining : Sound crates { connects with
      prompts := { connects.prompts with answers := rest } } :=
    { sound with
      answered := fun other inside => sound.answered other (kept other inside)
      vouched := sound.still_vouched rfl rfl rfl rfl }
  unfold HostKeyPrompt.approveHostKey
  dsimp only
  cases pending : connects.prompts.pending answer.id with
  | none => exact remaining
  | some index =>
    -- The entry is taken out, so fewer callbacks are registered than before.
    have fewer : ∀ id other, Function.update connects.prompts.pending answer.id none id =
        some other → connects.prompts.pending id = some other := by
      intro id other registered
      by_cases same : id = answer.id
      · rw [same, Function.update_self] at registered
        cases registered
      · rwa [Function.update_of_ne same] at registered
    have taken : Sound crates { connects with
        prompts := { connects.prompts with
          answers := rest
          pending := Function.update connects.prompts.pending answer.id none } } :=
      { remaining with
        registered :=
          fun id other registered => sound.registered id other (fewer id other registered)
        vouched := sound.still_vouched rfl rfl rfl rfl }
    by_cases waiting : connects.prompts.phase index = .waiting
    · simp only [waiting, if_true]
      refine taken.move _ _ (by simp [waiting]) ?_ (by simp)
      -- The answer speaks for an event of the session it is registered under.
      intro given accepted
      rw [Phase.sent.injEq] at accepted
      obtain ⟨-, rfl⟩ := accepted
      obtain ⟨-, attempt, found, own⟩ := sound.registered answer.id index pending
      obtain ⟨same, asked⟩ := sound.answered answer member
      exact ⟨asked, attempt, found, by rw [own, same]⟩
    · simp only [waiting, if_false]
      exact taken

/-- A callback that wakes up returns what was decided, and what it learns was approved. -/
theorem Sound.resume (sound : Sound crates connects) {index : Nat} {hashed : Bool}
    {salt : Option (List UInt8)} {prompts : State Key}
    (taken : resume crates connects.prompts index hashed salt = some prompts) :
    Sound crates { connects with prompts := prompts } := by
  obtain ⟨attempt, found, taken⟩ := Option.bind_eq_some_iff.mp taken
  cases phase : connects.prompts.phase index with
  | waiting => simp [phase] at taken
  | returned accepted => simp [phase] at taken
  | abandoned => simp [phase] at taken
  | dropped =>
    simp only [phase, Option.some.injEq] at taken
    subst taken
    -- A dropped sender returns a refusal, and so does a no.
    exact sound.move _ _ (by simp [phase]) (by simp) (by simp)
  | sent accept given =>
    cases accept with
    | false =>
      simp only [phase, Option.some.injEq] at taken
      subst taken
      exact sound.move _ _ (by simp [phase]) (by simp) (by simp)
    | true =>
      simp only [phase, Option.some.injEq] at taken
      subst taken
      obtain ⟨asked, other, own, session⟩ := sound.decided index given phase
      rw [found, Option.some.injEq] at own
      subst own
      -- First the key is learned, and then the callback returns.
      have further : Extends connects { connects with
          prompts := { connects.prompts with
            learned := connects.prompts.learned ++ [⟨attempt, given⟩] } } :=
        ⟨fun _ _ => id, fun _ _ => id, fun record inside => List.mem_append_left _ inside⟩
      have learned : Sound crates { connects with
          prompts := { connects.prompts with
            learned := connects.prompts.learned ++ [⟨attempt, given⟩] } } :=
        { sound with
          emitted := fun event inside => further.asked (sound.emitted event inside)
          prompted := fun event shown => further.asked (sound.prompted event shown)
          answered := fun answer inside =>
            ⟨(sound.answered answer inside).1, further.asked (sound.answered answer inside).2⟩
          decided := fun slot event sent =>
            ⟨further.asked (sound.decided slot event sent).1, (sound.decided slot event sent).2⟩
          returned := fun slot unknown accepted =>
            (sound.returned slot unknown accepted).imp fun other both =>
              ⟨both.1, further.approved both.2⟩
          vouched := fun slot run inside =>
            further.vouched sound.paired (sound.vouched slot run inside) }
      have moved := learned.move index (.returned true) (by simp [phase]) (by simp)
        fun _ => ⟨attempt, found, given, by simp, session, further.asked asked⟩
      exact { moved with vouched := moved.still_vouched rfl rfl rfl rfl }

/-- Methods are only tried once the transport is up. -/
theorem up_of_tried {peer : Peer PrivateKey} {cfg : SessionConfig} {handshake : Handshake}
    (tried : (connect peer cfg handshake).tried ≠ []) : handshake = .up := by
  cases handshake with
  | up => rfl
  | timedOut => exact absurd rfl tried
  | failed error =>
    -- Whichever way a handshake fails, the chain of methods is not reached.
    unfold connect at tried
    split at tried
    · exact absurd rfl tried
    · exact absurd rfl tried
    · exact absurd rfl tried
    · assumption

/-- The transport only comes up behind a callback that accepted the key. -/
theorem returned_of_up {phase : Phase} {network : Handshake}
    (ended : handshakeAfter phase network = some .up) : phase = .returned true := by
  -- A transport that comes up has its callback behind it, and a refusal ends the handshake.
  cases phase with
  | returned accepted =>
    cases accepted with
    | true => rfl
    | false => cases network <;> cases ended
  | _ => cases network <;> cases ended

/-- A connect that comes to its end is vouched for by what its callback returned. -/
theorem Sound.finish (sound : Sound crates connects) {index : Nat} (cfg : SessionConfig)
    (peer : Peer PrivateKey) {network handshake : Handshake}
    (made : index < connects.prompts.attempts.length)
    (ended : handshakeAfter (connects.prompts.phase index) network = some handshake) :
    Vouched crates connects index (connect peer cfg handshake) := by
  have inside : index < connects.verdicts.length := sound.paired ▸ made
  have found := List.getElem?_eq_getElem made
  have judged := List.getElem?_eq_getElem inside
  refine ⟨made, ?_, ?_⟩
  · intro tried
    rw [up_of_tried tried] at ended
    have accepted := returned_of_up ended
    by_cases unknown : connects.verdicts[index] = .ok .unknown
    · -- A new key was accepted, so it was approved.
      rw [unknown] at judged
      obtain ⟨attempt, own, approved⟩ := sound.returned index judged accepted
      exact ⟨attempt, own, .inr ⟨judged, approved⟩⟩
    · -- Any other key was accepted at once, so it was on file.
      have settled := sound.settled index _ judged unknown
      rw [accepted, Phase.returned.injEq] at settled
      refine ⟨_, found, .inl ?_⟩
      rw [judged, of_decide_eq_true settled.symm]
  · intro verdict same untrusted known
    -- A key that is neither trusted nor new was refused at once.
    have settled := sound.settled index verdict same known
    rw [settled, decide_eq_false untrusted] at ended
    cases network with
    | timedOut =>
      cases ended
      exact ⟨rfl, _, rfl, .inr ⟨_, rfl⟩⟩
    | up =>
      cases ended
      exact ⟨rfl, _, rfl, .inl fun _ _ _ => rfl⟩
    | failed error =>
      cases ended
      exact ⟨rfl, _, rfl, .inl fun _ _ _ => rfl⟩

/-- A connect that comes to its end joins those that are vouched for. -/
theorem Sound.ended (sound : Sound crates connects) {index : Nat} {run : AuthRun}
    (vouched : Vouched crates connects index run) :
    Sound crates { connects with runs := connects.runs ++ [(index, run)] } := by
  -- What is known of the attempts does not change.
  have same : Extends connects { connects with runs := connects.runs ++ [(index, run)] } :=
    ⟨fun _ _ => id, fun _ _ => id, fun _ => id⟩
  refine { sound with vouched := ?_ }
  intro other past member
  rcases List.mem_append.mp member with earlier | last
  · exact same.vouched sound.paired (sound.vouched other past earlier)
  · cases List.mem_singleton.mp last
    exact same.vouched sound.paired vouched

/-- Another write of the file changes neither what was asked nor what was answered. -/
theorem Sound.write (sound : Sound crates connects) (file : Disk) :
    Sound crates { connects with prompts := { connects.prompts with file := file } } :=
  -- A verdict is about the file as it was when the key was presented.
  { sound with vouched := sound.still_vouched rfl rfl rfl rfl }

/-- An event that reaches the webview was asked. -/
theorem Sound.deliver (sound : Sound crates connects) {sessionId : String} {prompts : State Key}
    (taken : deliver connects.prompts sessionId = some prompts) :
    Sound crates { connects with prompts := prompts } := by
  -- The dialog shows the event that leaves the channel, and the others stay.
  obtain ⟨event, shown, rfl⟩ := Option.map_eq_some_iff.mp taken
  have asked := sound.emitted event (List.mem_of_find?_eq_some shown)
  exact { sound with
    emitted := fun other inside => sound.emitted other (List.mem_of_mem_erase inside)
    prompted := fun other same => Option.some.inj same ▸ asked
    vouched := sound.still_vouched rfl rfl rfl rfl }

/-- An answer speaks for the event that the dialog showed. -/
theorem Sound.answerPrompt (sound : Sound crates connects) {accept : Bool} {prompts : State Key}
    (taken : answerPrompt connects.prompts accept = some prompts) :
    Sound crates { connects with prompts := prompts } := by
  -- The dialog is gone, and its event goes on with the answer.
  obtain ⟨event, shown, rfl⟩ := Option.map_eq_some_iff.mp taken
  refine { sound with
    prompted := by simp
    answered := ?_
    vouched := sound.still_vouched rfl rfl rfl rfl }
  intro answer member
  rcases List.mem_append.mp member with earlier | last
  · exact sound.answered answer earlier
  · rw [List.mem_singleton.mp last]
    exact ⟨rfl, sound.prompted event shown⟩

/-- One step of a party keeps every decision tied to its attempt. -/
theorem Sound.step [DecidableEq Key] (sound : Sound crates connects) {action : Action Key}
    {prompts : State Key} (taken : step crates connects.prompts action = some prompts) :
    Sound crates { connects with
      prompts := prompts
      verdicts := connects.verdicts ++ verdictOf crates connects.prompts action } := by
  -- Only a presented key brings a verdict, so every other step leaves the verdicts as they are.
  cases action with
  | present attempt =>
    cases taken
    exact sound.present attempt
  | deliver sessionId =>
    simp only [verdictOf, List.append_nil]
    exact sound.deliver taken
  | answerPrompt accept =>
    simp only [verdictOf, List.append_nil]
    exact sound.answerPrompt taken
  | approveHostKey index =>
    simp only [verdictOf, List.append_nil]
    -- An answer is handled once, and the others stay in flight.
    obtain ⟨answer, found, rfl⟩ := Option.map_eq_some_iff.mp taken
    exact sound.approveHostKey (List.mem_of_getElem? found)
      fun other inside => List.mem_of_mem_eraseIdx inside
  | resume index hashed salt =>
    simp only [verdictOf, List.append_nil]
    exact sound.resume taken
  | abandon index =>
    simp only [verdictOf, List.append_nil]
    rw [HostKeyPrompt.step] at taken
    -- A callback is only dropped while it waits, so it had not returned.
    split at taken
    · rename_i waits
      cases taken
      exact sound.move _ _ (by simp [waits.2]) (by simp) (by simp)
    · cases taken

/-- One step keeps every decision tied to its attempt. -/
theorem sound_step [DecidableEq Key] {action : ConnectAction Key PrivateKey}
    (sound : Sound crates connects) (taken : connectStep crates connects action = some next) :
    Sound crates next := by
  cases action with
  | prompts action =>
    obtain ⟨prompts, stepped, rfl⟩ := Option.map_eq_some_iff.mp taken
    exact sound.step stepped
  | write file =>
    cases taken
    exact sound.write file
  | finish index cfg peer network =>
    rw [connectStep] at taken
    -- Only a connect that was made, and whose callback is through, comes to its end.
    split at taken
    · rename_i made
      obtain ⟨handshake, ended, rfl⟩ := Option.map_eq_some_iff.mp taken
      exact sound.ended (sound.finish cfg peer made ended)
    · cases taken

/-- One step that supersedes no answer keeps every acceptance on the key it was given for. -/
theorem bound_connectStep [DecidableEq Key] {action : ConnectAction Key PrivateKey}
    (fresh : NoneSuperseded crates connects action) (bound : Bound crates connects.prompts)
    (taken : connectStep crates connects action = some next) : Bound crates next.prompts := by
  cases action with
  | prompts action =>
    obtain ⟨prompts, stepped, rfl⟩ := Option.map_eq_some_iff.mp taken
    exact bound_step fresh bound stepped
  | write file =>
    -- What the file says plays no part in which answer reaches which prompt.
    cases taken
    exact ⟨bound.registered, bound.answered, bound.decided, bound.learned⟩
  | finish index cfg peer network =>
    rw [connectStep] at taken
    -- The end of a connect leaves the prompts alone.
    split at taken
    · obtain ⟨handshake, -, rfl⟩ := Option.map_eq_some_iff.mp taken
      exact bound
    · cases taken

/-- What was accepted was accepted as it was shown, where every learned key was. -/
theorem Vouched.keyTrusted {index : Nat} {run : AuthRun}
    (vouched : Vouched crates connects index run) (shown : BoundToShown crates connects.prompts)
    (tried : run.tried ≠ []) : ∃ attempt, connects.prompts.attempts[index]? = some attempt ∧
      KeyTrusted crates connects index attempt := by
  obtain ⟨attempt, found, known⟩ := vouched.trusted tried
  refine ⟨attempt, found, known.imp_right ?_⟩
  -- The learned key carries the event that it was accepted on.
  rintro ⟨unknown, given, approved⟩
  exact ⟨unknown, given, approved, shown _ approved.1⟩

/--
In every interleaving of connects, prompts, answers and other writes of the file, whatever is tried
against a server is tried after its key was found on file, or was new and accepted in its session.

A server with a changed or a revoked key is offered nothing,
and unless the timer was faster no further attempt follows.
Where no answer is superseded, a new key was accepted on an event that showed its own fingerprint.
-/
theorem nothing_tried_before_trust [DecidableEq Key] {file : Disk}
    {actions : List (ConnectAction Key PrivateKey)} {final : Connects Key}
    (ran : System.run (connectStep crates) (Connects.initial Key file) actions = some final) :
    (∀ index run, (index, run) ∈ final.runs → Vouched crates final index run) ∧
      (System.Meets (connectStep crates) (NoneSuperseded crates) (Connects.initial Key file)
          actions →
        ∀ index run, (index, run) ∈ final.runs → run.tried ≠ [] →
          ∃ attempt, final.prompts.attempts[index]? = some attempt ∧
            KeyTrusted crates final index attempt) := by
  have sound := System.run_preserves sound_step (sound_initial file) ran
  refine ⟨sound.vouched, ?_⟩
  intro fresh index run member tried
  -- The invariant of the prompts binds every learned key to what was shown.
  have bound := System.run_invariant bound_connectStep fresh (bound_initial crates file) ran
  exact (sound.vouched index run member).keyTrusted bound.learned tried

/-- A first connect whose prompt is accepted, and which then tries a password. -/
def acceptedConnect : List (ConnectAction Reference.EncodedKey Unit) :=
  promptAnswered.map .prompts ++ [.write .missing, .finish 0 passwordOnly droppedConnection .up]

/-- The prompt of the connect is answered before anything could take its place. -/
theorem acceptedConnect_unsuperseded :
    System.Meets (connectStep Reference.crates) (NoneSuperseded Reference.crates)
      (Connects.initial _ .missing) acceptedConnect := by
  refine .cons ?_ rfl (.cons trivial rfl (.cons ?_ rfl ?_))
  · -- Nothing is in flight when the prompt is raised.
    intro _ answer member
    cases member
  · -- The dialog shows the only attempt there is.
    intro event shown index pending attempt found
    cases shown
    have first : some 0 = some index := pending
    cases first
    have only : some attemptA = some attempt := found
    cases only
    rfl
  · -- Nothing is asked of the steps behind the answer.
    refine .cons trivial rfl (.cons trivial rfl (.cons trivial rfl (.cons trivial rfl trivial)))

/-- The password is tried behind the accepted prompt, which showed the key. -/
theorem password_tried_behind_prompt :
    ∃ final run, System.run (connectStep Reference.crates) (Connects.initial _ .missing)
        acceptedConnect = some final ∧ (0, run) ∈ final.runs ∧ run.tried ≠ [] ∧
      Vouched Reference.crates final 0 run ∧
      ∃ attempt, final.prompts.attempts[0]? = some attempt ∧
        KeyTrusted Reference.crates final 0 attempt := by
  -- The run is evaluated, and the theorem says who accepted the key before the password.
  obtain ⟨final, ran, run, member, tried⟩ : ∃ final, System.run (connectStep Reference.crates)
      (Connects.initial _ .missing) acceptedConnect = some final ∧
        ∃ run, (0, run) ∈ final.runs ∧ run.tried ≠ [] :=
    ⟨_, rfl, _, List.mem_singleton_self _, by simp [connect, authenticate, authenticateFrom,
      passwordOnly, notOffered, tryMethod, droppedConnection, Except.mapError, AuthRun.after]⟩
  obtain ⟨vouched, shown⟩ := nothing_tried_before_trust ran
  exact ⟨final, run, ran, member, tried, vouched 0 run member,
    shown acceptedConnect_unsuperseded 0 run member tried⟩

end Trust

end Tern.HostKeyPrompt
