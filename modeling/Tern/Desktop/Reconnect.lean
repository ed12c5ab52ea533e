import Mathlib.Data.List.Infix
import Tern.Base.Floating

/-! The reconnect policy: whether a dropped session is retried, and how long to wait first. -/

namespace Tern.Desktop

/-- A span of time in whole nanoseconds, with 64 bits of seconds. -/
structure Duration where
  nanos : Nat
  bounded : nanos < 2 ^ 64 * 10 ^ 9
  deriving DecidableEq, Repr

namespace Duration

/-- The longest span. -/
def max : Duration := ⟨2 ^ 64 * 10 ^ 9 - 1, by decide⟩

/-- A number of nanoseconds, or the longest span if that is less. -/
def saturate (nanos : Nat) : Duration :=
  if bounded : nanos < 2 ^ 64 * 10 ^ 9 then ⟨nanos, bounded⟩ else max

/-- A span given in milliseconds. -/
def fromMillis (millis : Nat) : Duration := saturate (millis * 10 ^ 6)

/-- A span given in seconds. -/
def fromSecs (secs : Nat) : Duration := saturate (secs * 10 ^ 9)

/-- A multiple of a span, clamped instead of overflowing. -/
def saturatingMul (self : Duration) (factor : UInt32) : Duration :=
  saturate (self.nanos * factor.toNat)

/-- The shorter of two spans. -/
def min (self other : Duration) : Duration :=
  if self.nanos ≤ other.nanos then self else other

/-- A span of so many nanoseconds in seconds, as a double. -/
def secsF64 (nanos : Nat) : ℚ :=
  let double := Floating.Format.double.round
  -- The whole seconds and the rest of them are converted apart, and their sum is rounded again.
  double (double (nanos / 10 ^ 9 : Nat) + double ((nanos % 10 ^ 9 : Nat) / 10 ^ 9))

/-- A span in seconds, as a double. -/
def asSecsF64 (self : Duration) : ℚ := secsF64 self.nanos

/-- The span of so many seconds, to the nearest nanosecond, or a panic. -/
def fromSecsF64 (secs : ℚ) : Option Duration :=
  let nanos := Floating.roundEven (secs * 10 ^ 9)
  if bounded : 0 ≤ nanos ∧ nanos.toNat < 2 ^ 64 * 10 ^ 9 then some ⟨nanos.toNat, bounded.2⟩
  else none

/-- A multiple of a span by a double, or a panic. -/
def mulF64 (self : Duration) (factor : ℚ) : Option Duration :=
  fromSecsF64 (Floating.Format.double.round (factor * self.asSecsF64))

end Duration

/-- A jitter value, which is a number or not a finite one. -/
abbrev Jitter := Option ℚ

/-- The fraction a jitter value stands for, clamped rather than trusted. -/
def Jitter.fraction : Jitter → ℚ
  | some value => if value < 0 then 0 else if 1 < value then 1 else value
  -- A value that is not finite waits for nothing rather than for ever.
  | none => 0

/-- A power of a 32-bit number, clamped instead of overflowing. -/
def saturatingPow (base : UInt32) (exponent : Nat) : UInt32 :=
  if base.toNat ^ exponent < 2 ^ 32 then UInt32.ofNat (base.toNat ^ exponent)
  else UInt32.ofNat (2 ^ 32 - 1)

/-- Exponential backoff with full jitter, clamped to a ceiling. -/
structure Backoff where
  base : Duration
  cap : Duration
  factor : UInt32
  deriving DecidableEq, Repr

/-- Half a second, doubling, capped at half a minute. -/
def Backoff.default : Backoff where
  base := .fromMillis 500
  cap := .fromSecs 30
  factor := 2

/-- The longest delay before a retry, the first of which is number one. -/
def Backoff.ceiling (self : Backoff) (attempt : UInt32) : Duration :=
  -- The first retry waits for the base itself, so the exponent starts at zero.
  let steps := attempt.toNat - 1
  (self.base.saturatingMul (saturatingPow self.factor steps)).min self.cap

/-- The delay before a retry, or a panic. -/
def Backoff.delay? (self : Backoff) (attempt : UInt32) (rand01 : Jitter) : Option Duration :=
  (self.ceiling attempt).mulF64 rand01.fraction

/-- The delay before a retry, where it is one. -/
def Backoff.delay (self : Backoff) (attempt : UInt32) (rand01 : Jitter) : Duration :=
  -- Only a ceiling of more than five hundred billion years leads to a panic.
  (self.delay? attempt rand01).getD .max

/-- How a session's output ended. -/
inductive PumpEnd where
  /-- The remote shell ended on its own. -/
  | exited (code : Option UInt32)
  /-- The transport died under a live shell. -/
  | dropped
  deriving DecidableEq, Repr

/-- What the supervisor does next. -/
inductive Decision where
  | exit (code : Option UInt32)
  | reconnect (attempt : UInt32) (delay : Duration)
  | giveUp
  deriving DecidableEq, Repr

/-- The reconnect configuration of a session. -/
structure ReconnectPolicy where
  enabled : Bool
  maxAttempts : UInt32
  backoff : Backoff
  deriving DecidableEq, Repr

namespace ReconnectPolicy

/-- Ten attempts with the default backoff. -/
def default : ReconnectPolicy := ⟨true, 10, .default⟩

/-- The policy of targets that have nothing stored to reconnect with. -/
def off : ReconnectPolicy := ⟨false, 0, .default⟩

/-- One more attempt, unless the policy rules it out. -/
def reconnectOrGiveUp (self : ReconnectPolicy) (attempt : UInt32) (rand01 : Jitter) : Decision :=
  if !self.enabled then .giveUp
  -- Zero attempts are the same as a disabled policy.
  else if self.maxAttempts == 0 || attempt > self.maxAttempts then .giveUp
  else .reconnect attempt (self.backoff.delay attempt rand01)

/-- The next step after the output ended. -/
def decide (self : ReconnectPolicy) (ended : PumpEnd) (attempt : UInt32) (rand01 : Jitter) :
    Decision :=
  match ended with
  | .exited code => .exit code
  | .dropped => self.reconnectOrGiveUp attempt rand01

/-- The next step after an attempt failed. -/
def afterFailedAttempt (self : ReconnectPolicy) (attempt : UInt32) (retryable : Bool)
    (rand01 : Jitter) : Decision :=
  if !retryable then .giveUp else self.reconnectOrGiveUp (attempt + 1) rand01

end ReconnectPolicy

/-- What an attempt to establish the connection again came to. -/
inductive Outcome where
  | established
  | failed (retryable : Bool)
  deriving DecidableEq, Repr

/-- How the reconnect loop was left. -/
inductive Ending where
  | established
  | gaveUp
  | exited (code : Option UInt32)
  /-- It was not: the outcome of the last attempt is still awaited. -/
  | waiting
  deriving DecidableEq, Repr

/-- What the reconnect loop did after one drop. -/
structure Episode where
  /-- The decisions it looked at, in order. -/
  decisions : List Decision
  /-- The attempts it made, each with its number and what it came to. -/
  attempts : List (UInt32 × Outcome)
  ending : Ending
  deriving DecidableEq, Repr

/-- One more decision in front of an episode. -/
def Episode.decided (self : Episode) (decision : Decision) : Episode :=
  { self with decisions := decision :: self.decisions }

/-- One more attempt in front of an episode. -/
def Episode.attempted (self : Episode) (attempt : UInt32) (outcome : Outcome) : Episode :=
  { self with attempts := (attempt, outcome) :: self.attempts }

/-- The supervisor's loop after a drop, with the outcome of each attempt and the next jitter. -/
def ReconnectPolicy.reconnectLoop (self : ReconnectPolicy) :
    Decision → List (Outcome × Jitter) → Episode
  | .giveUp, _ => ⟨[.giveUp], [], .gaveUp⟩
  -- No decision after a drop is an exit, but the loop has a branch for it.
  | .exit code, _ => ⟨[.exit code], [], .exited code⟩
  | .reconnect attempt delay, [] => ⟨[.reconnect attempt delay], [], .waiting⟩
  | .reconnect attempt delay, (.established, _) :: _ =>
    ⟨[.reconnect attempt delay], [(attempt, .established)], .established⟩
  -- A failed attempt hands its own number to the decision after it.
  | .reconnect attempt delay, (.failed retryable, rand01) :: outcomes =>
    ((self.reconnectLoop (self.afterFailedAttempt attempt retryable rand01) outcomes).attempted
      attempt (.failed retryable)).decided (.reconnect attempt delay)

/-- One transport generation: how its output ended, and what the attempts after it come to. -/
structure Generation where
  ended : PumpEnd
  rand01 : Jitter
  outcomes : List (Outcome × Jitter)
  deriving DecidableEq, Repr

/-- The supervisor over its transport generations, with one episode for each drop. -/
def ReconnectPolicy.episodes (self : ReconnectPolicy) (reconnector : Bool) :
    List Generation → List Episode
  | [] => []
  | generation :: later =>
    match generation.ended with
    | .exited _ => []
    | .dropped =>
      -- Without a reconnector a drop is the end.
      if !reconnector then []
      else
        -- The count starts over with every drop.
        let episode := self.reconnectLoop (self.decide .dropped 1 generation.rand01)
          generation.outcomes
        match episode.ending with
        -- Only a connection that came back leads to another generation.
        | .established => episode :: self.episodes reconnector later
        | _ => [episode]

section Attempts

variable {policy : ReconnectPolicy}

/-- The outcomes a number of attempts reaches: up to the first that is not a retryable failure. -/
def tried : Nat → List (Outcome × Jitter) → List Outcome
  | 0, _ => []
  | _ + 1, [] => []
  | _ + 1, (.established, _) :: _ => [.established]
  | _ + 1, (.failed false, _) :: _ => [.failed false]
  | left + 1, (.failed true, _) :: outcomes => .failed true :: tried left outcomes

/-- How a loop with a number of attempts left ends. -/
def settled : Nat → List (Outcome × Jitter) → Ending
  | 0, _ => .gaveUp
  | _ + 1, [] => .waiting
  | _ + 1, (.established, _) :: _ => .established
  | _ + 1, (.failed false, _) :: _ => .gaveUp
  | left + 1, (.failed true, _) :: outcomes => settled left outcomes

/-- The numbers of the attempts an episode made. -/
def Episode.numbers (self : Episode) : List Nat :=
  self.attempts.map fun attempt => attempt.1.toNat

/-- What the attempts of an episode came to. -/
def Episode.outcomes (self : Episode) : List Outcome := self.attempts.map Prod.snd

/-- A disabled policy only ever gives up. -/
theorem reconnectOrGiveUp_disabled (disabled : policy.enabled = false) (attempt : UInt32)
    (rand01 : Jitter) : policy.reconnectOrGiveUp attempt rand01 = .giveUp := by
  simp [ReconnectPolicy.reconnectOrGiveUp, disabled]

/-- An enabled policy goes on up to its cap. -/
theorem reconnectOrGiveUp_enabled (enabled : policy.enabled = true) {attempt : UInt32}
    (positive : 1 ≤ attempt.toNat) (rand01 : Jitter) :
    policy.reconnectOrGiveUp attempt rand01 =
      if attempt.toNat ≤ policy.maxAttempts.toNat then
        .reconnect attempt (policy.backoff.delay attempt rand01)
      else .giveUp := by
  by_cases within : attempt.toNat ≤ policy.maxAttempts.toNat
  · -- A cap that leaves room for a numbered attempt is not zero.
    have room : policy.maxAttempts ≠ 0 := by
      intro none
      rw [none] at within
      simp at within
      omega
    have below : ¬attempt > policy.maxAttempts := by
      rw [gt_iff_lt, UInt32.lt_iff_toNat_lt]
      omega
    simp [ReconnectPolicy.reconnectOrGiveUp, enabled, within, room, below]
  · have above : attempt > policy.maxAttempts := by
      rw [gt_iff_lt, UInt32.lt_iff_toNat_lt]
      omega
    simp [ReconnectPolicy.reconnectOrGiveUp, enabled, within, above]

/-- Counting on does not overflow while there are few attempts. -/
theorem toNat_next {attempt : UInt32} (few : attempt.toNat + 1 < 2 ^ 32) :
    (attempt + 1).toNat = attempt.toNat + 1 := by
  rw [UInt32.toNat_add]
  exact Nat.mod_eq_of_lt few

/-- An episode is what so many attempts, numbered from the first on, come to. -/
structure Episode.Follows (episode : Episode) (first left : Nat)
    (outcomes : List (Outcome × Jitter)) : Prop where
  made : episode.outcomes = tried left outcomes
  numbered : episode.numbers = List.range' first episode.attempts.length
  ended : episode.ending = settled left outcomes
  noExit : ∀ code, Decision.exit code ∉ episode.decisions

/-- An attempt that failed retryably stands in front of what follows it. -/
theorem Episode.Follows.attempted {episode : Episode} {attempt : UInt32} {left : Nat}
    {outcomes : List (Outcome × Jitter)}
    (follows : episode.Follows (attempt.toNat + 1) left outcomes) (delay : Duration)
    (rand01 : Jitter) :
    ((episode.attempted attempt (.failed true)).decided (.reconnect attempt delay)).Follows
      attempt.toNat (left + 1) ((.failed true, rand01) :: outcomes) where
  -- The attempt is put in front, and the episode behind it counts on from there.
  made := congrArg (Outcome.failed true :: ·) follows.made
  numbered := by
    calc attempt.toNat :: episode.numbers
      _ = attempt.toNat :: List.range' (attempt.toNat + 1) episode.attempts.length := by
        rw [follows.numbered]
      _ = List.range' attempt.toNat (episode.attempts.length + 1) := by
        rw [List.range'_succ]
  ended := follows.ended
  noExit := by
    intro code member
    rcases List.mem_cons.mp member with head | tail
    · cases head
    · exact follows.noExit code tail

/-- The loop ends where the decision is to give up. -/
@[simp] theorem reconnectLoop_giveUp (outcomes : List (Outcome × Jitter)) :
    policy.reconnectLoop .giveUp outcomes = ⟨[.giveUp], [], .gaveUp⟩ := by
  simp [ReconnectPolicy.reconnectLoop]

/-- Giving up makes no further attempt, whatever the outcomes would have been. -/
theorem follows_giveUp (first : Nat) (outcomes : List (Outcome × Jitter)) :
    (policy.reconnectLoop .giveUp outcomes).Follows first 0 outcomes where
  -- With no attempt left the outcomes are never looked at.
  made := by simp [Episode.outcomes, tried]
  numbered := by simp [Episode.numbers]
  ended := by simp [settled]
  noExit := by simp

/-- An enabled policy makes the attempts its cap leaves, numbered without gaps. -/
theorem follows_reconnectLoop (enabled : policy.enabled = true)
    (outcomes : List (Outcome × Jitter)) (attempt : UInt32) (rand01 : Jitter)
    (positive : 1 ≤ attempt.toNat) (few : attempt.toNat + outcomes.length < 2 ^ 32) :
    (policy.reconnectLoop (policy.reconnectOrGiveUp attempt rand01) outcomes).Follows
      attempt.toNat (policy.maxAttempts.toNat + 1 - attempt.toNat) outcomes := by
  -- The induction is on the outcomes, and the attempt counts up along with it.
  induction outcomes generalizing attempt rand01 with
  | nil =>
    rw [reconnectOrGiveUp_enabled enabled positive]
    split
    · rename_i within
      obtain ⟨left, room⟩ := Nat.exists_eq_add_of_le within
      rw [show policy.maxAttempts.toNat + 1 - attempt.toNat = left + 1 by omega]
      -- The attempt is decided on, and its outcome is still awaited.
      exact ⟨rfl, rfl, rfl, by simp [ReconnectPolicy.reconnectLoop]⟩
    · rw [show policy.maxAttempts.toNat + 1 - attempt.toNat = 0 by omega]
      exact follows_giveUp _ _
  | cons outcome outcomes ih =>
    rw [reconnectOrGiveUp_enabled enabled positive]
    split
    · rename_i within
      obtain ⟨left, room⟩ := Nat.exists_eq_add_of_le within
      rw [show policy.maxAttempts.toNat + 1 - attempt.toNat = left + 1 by omega]
      obtain ⟨came, next⟩ := outcome
      rcases came with _ | _ | _
      · -- An attempt that succeeds is the last of its episode.
        exact ⟨rfl, rfl, rfl, by simp [ReconnectPolicy.reconnectLoop]⟩
      · -- A failure that cannot be retried gives up, whatever the cap leaves.
        have gives : policy.afterFailedAttempt attempt false next = .giveUp := rfl
        rw [ReconnectPolicy.reconnectLoop, gives, reconnectLoop_giveUp]
        exact ⟨rfl, rfl, rfl, by simp [Episode.decided, Episode.attempted]⟩
      · -- Only a retryable failure goes on, with the number after this one.
        have advanced : (attempt + 1).toNat = attempt.toNat + 1 := by
          apply toNat_next
          simp only [List.length_cons] at few
          omega
        have onward := ih (attempt + 1) next (by omega) (by
          simp only [List.length_cons] at few
          omega)
        rw [advanced, show policy.maxAttempts.toNat + 1 - (attempt.toNat + 1) = left by omega]
          at onward
        exact onward.attempted _ next
    · rw [show policy.maxAttempts.toNat + 1 - attempt.toNat = 0 by omega]
      exact follows_giveUp _ _

/-- A failure that cannot be retried is the last attempt. -/
theorem tried_stops {left : Nat} {outcomes : List (Outcome × Jitter)} {before after : List Outcome}
    (split : tried left outcomes = before ++ .failed false :: after) :
    after = [] ∧ settled left outcomes = .gaveUp := by
  induction left, outcomes using tried.induct generalizing before with
  | case1 outcomes => simp [tried] at split
  | case2 left => simp [tried] at split
  | case3 left rand01 outcomes =>
    cases before with
    | nil => simp [tried] at split
    | cons head before => simp [tried] at split
  -- Here the failure in question is the one the list starts with.
  | case4 left rand01 outcomes =>
    cases before with
    | nil => exact ⟨by simpa [tried] using split.symm, rfl⟩
    | cons head before => simp [tried] at split
  | case5 left rand01 outcomes ih =>
    cases before with
    | nil => simp [tried] at split
    | cons head before =>
      rw [tried, List.cons_append, List.cons.injEq] at split
      exact ih split.2

/-- Retryable failures use up all attempts there are. -/
theorem tried_exhausts {left : Nat} {outcomes : List (Outcome × Jitter)}
    (retryable : ∀ outcome ∈ outcomes, outcome.1 = .failed true) (enough : left ≤ outcomes.length) :
    tried left outcomes = List.replicate left (.failed true) ∧
      settled left outcomes = .gaveUp := by
  induction left generalizing outcomes with
  | zero => exact ⟨rfl, by simp [settled]⟩
  | succ left ih =>
    cases outcomes with
    | nil => simp at enough
    | cons outcome outcomes =>
      obtain ⟨came, rand01⟩ := outcome
      -- Every outcome is a retryable failure, so each uses up one attempt.
      obtain rfl : came = .failed true := retryable _ List.mem_cons_self
      obtain ⟨rest, gave⟩ :=
        ih (fun later member => retryable later (List.mem_cons_of_mem _ member))
        (by simpa using enough)
      exact ⟨congrArg (_ :: ·) rest, gave⟩

/-- What the loop owes to one drop, given the outcomes its attempts would have. -/
structure Episode.Consecutive (episode : Episode) (policy : ReconnectPolicy)
    (outcomes : List (Outcome × Jitter)) : Prop where
  /-- A disabled policy makes no attempt. -/
  disabled : policy.enabled = false → episode.attempts = []
  /-- The attempts are numbered from one, without gaps or repeats. -/
  numbered : episode.numbers = List.range' 1 episode.attempts.length
  /-- The first attempt is decided on as soon as the policy allows one at all. -/
  starts : policy.enabled = true → 1 ≤ policy.maxAttempts.toNat →
    ∃ delay, episode.decisions.head? = some (.reconnect 1 delay)
  /-- Each attempt meets the outcome that is its turn. -/
  inOrder : episode.outcomes <+: outcomes.map Prod.fst
  /-- Nothing follows a failure that cannot be retried. -/
  stops : ∀ before after, episode.outcomes = before ++ .failed false :: after →
    after = [] ∧ episode.ending = .gaveUp
  /-- Retryable failures use up exactly the attempts of the policy. -/
  exhausts : policy.enabled = true → 1 ≤ policy.maxAttempts.toNat →
    (∀ outcome ∈ outcomes, outcome.1 = .failed true) →
    policy.maxAttempts.toNat ≤ outcomes.length →
    episode.attempts.length = policy.maxAttempts.toNat ∧ episode.ending = .gaveUp
  /-- An exit is never what is decided. -/
  noExit : ∀ code, Decision.exit code ∉ episode.decisions

/-- The attempts meet the outcomes in order. -/
theorem tried_prefix (left : Nat) (outcomes : List (Outcome × Jitter)) :
    tried left outcomes <+: outcomes.map Prod.fst := by
  -- The attempts stop early or go on with the next outcome, and skip none.
  induction left, outcomes using tried.induct with
  | case1 outcomes => exact List.nil_prefix
  | case2 left => exact List.nil_prefix
  | case3 left rand01 outcomes => simp [tried]
  | case4 left rand01 outcomes => simp [tried]
  | case5 left rand01 outcomes ih => simpa [tried] using ih

/-- The loop after a drop counts its attempts from one up to the cap. -/
theorem consecutive_reconnectLoop (policy : ReconnectPolicy) (rand01 : Jitter)
    (outcomes : List (Outcome × Jitter)) (few : outcomes.length < 2 ^ 32 - 1) :
    (policy.reconnectLoop (policy.decide .dropped 1 rand01) outcomes).Consecutive
      policy outcomes := by
  unfold ReconnectPolicy.decide
  dsimp only
  by_cases enabled : policy.enabled = true
  · -- An enabled policy starts with attempt one and follows its cap from there.
    have follows := follows_reconnectLoop enabled outcomes 1 rand01 (by decide) (by
      simp only [show (1 : UInt32).toNat = 1 from rfl]
      omega)
    rw [show (1 : UInt32).toNat = 1 from rfl, Nat.add_sub_cancel] at follows
    refine ⟨?_, follows.numbered, ?_, ?_, ?_, ?_, follows.noExit⟩
    · intro disabled
      rw [enabled] at disabled
      cases disabled
    · intro _ room
      have allowed : (1 : UInt32).toNat ≤ policy.maxAttempts.toNat := room
      -- Whatever the outcomes are, the loop looks at its first decision before them.
      rw [reconnectOrGiveUp_enabled enabled (by decide), if_pos allowed]
      refine ⟨policy.backoff.delay 1 rand01, ?_⟩
      rcases outcomes with _ | ⟨⟨_ | retryable, next⟩, outcomes⟩
      · rfl
      · rfl
      · rfl
    · rw [follows.made]
      exact tried_prefix _ _
    · -- After a success or a final failure nothing is attempted any more.
      intro before after split
      rw [follows.made] at split
      rw [follows.ended]
      exact tried_stops split
    · intro _ _ retryable enough
      obtain ⟨all, gave⟩ := tried_exhausts retryable enough
      refine ⟨?_, by rw [follows.ended, gave]⟩
      -- As many outcomes were met as there are attempts in the cap.
      have lengths := congrArg List.length (follows.made.trans all)
      simpa [Episode.outcomes] using lengths
  · -- A disabled policy gives up at once, and the rest holds of no attempts at all.
    rw [Bool.not_eq_true] at enabled
    rw [reconnectOrGiveUp_disabled enabled, reconnectLoop_giveUp]
    refine ⟨fun _ => rfl, rfl, ?_, List.nil_prefix, ?_, ?_, by simp⟩
    · simp [enabled]
    · simp [Episode.outcomes]
    · simp [enabled]

/-- The episodes of a supervisor, by the drop each of them answers. -/
theorem episodes_cons (reconnector : Bool) (generation : Generation) (later : List Generation) :
    policy.episodes reconnector (generation :: later) =
      if generation.ended = .dropped ∧ reconnector = true then
        let episode := policy.reconnectLoop (policy.decide .dropped 1 generation.rand01)
          generation.outcomes
        episode ::
          if episode.ending = .established then policy.episodes reconnector later else []
      else [] := by
  rw [ReconnectPolicy.episodes]
  cases ended : generation.ended with
  | exited code => simp
  | dropped =>
    cases reconnector with
    | false => simp
    | true =>
      dsimp only
      -- How the loop got there does not matter, only how it ended.
      generalize policy.reconnectLoop _ generation.outcomes = episode
      obtain ⟨decisions, attempts, ending⟩ := episode
      cases ending with
      | established => simp
      | gaveUp => simp
      | exited code => simp
      | waiting => simp

/-- A drop that the second attempt gets over. -/
def recovered : Generation :=
  ⟨.dropped, none, [(.failed true, none), (.established, none)]⟩

end Attempts

end Tern.Desktop
