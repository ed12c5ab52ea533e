import Tern.Session.Steps
import Tern.Webview.Controller

/-! What the cap on reconnect attempts means: to the policy, to a session's events, to the tab. -/

namespace Tern.Desktop

section Cap

variable {policy : ReconnectPolicy}

/-- When so many attempts have failed as they did, the policy decides on the one after them. -/
def ReconnectPolicy.GoesOn (self : ReconnectPolicy) (rand01 : Jitter)
    (outcomes : List (Outcome × Jitter)) : Prop :=
  ∃ attempt delay, attempt.toNat = outcomes.length + 1 ∧
    (self.reconnectLoop (self.decide .dropped 1 rand01) outcomes).decisions[outcomes.length]? =
      some (.reconnect attempt delay)

/-- The decision behind some retryable failures is the one on the next attempt, if the cap has
it. -/
theorem decisions_reconnectLoop (enabled : policy.enabled = true)
    {outcomes : List (Outcome × Jitter)} (attempt : UInt32) (rand01 : Jitter)
    (retryable : ∀ outcome ∈ outcomes, outcome.1 = .failed true) (positive : 1 ≤ attempt.toNat)
    (few : attempt.toNat + outcomes.length < 2 ^ 32) :
    (∃ next delay, next.toNat = attempt.toNat + outcomes.length ∧
      (policy.reconnectLoop (policy.reconnectOrGiveUp attempt rand01)
        outcomes).decisions[outcomes.length]? = some (.reconnect next delay)) ↔
      attempt.toNat + outcomes.length ≤ policy.maxAttempts.toNat := by
  -- The induction is on the failures, and the attempt counts up along with it.
  induction outcomes generalizing attempt rand01 with
  | nil =>
    rw [reconnectOrGiveUp_enabled enabled positive]
    by_cases within : attempt.toNat ≤ policy.maxAttempts.toNat
    · rw [if_pos within]
      exact iff_of_true ⟨attempt, _, rfl, rfl⟩ within
    · rw [if_neg within, reconnectLoop_giveUp]
      exact iff_of_false (by simp) within
  | cons outcome outcomes ih =>
    obtain ⟨came, drawn⟩ := outcome
    obtain rfl : came = .failed true := retryable _ List.mem_cons_self
    simp only [List.length_cons] at few ⊢
    rw [reconnectOrGiveUp_enabled enabled positive]
    by_cases within : attempt.toNat ≤ policy.maxAttempts.toNat
    · rw [if_pos within, ReconnectPolicy.reconnectLoop, Episode.decided, List.getElem?_cons_succ]
      -- Behind the first failure the loop stands where it would with the next number.
      have onward := ih (attempt + 1) drawn
        (fun later member => retryable later (List.mem_cons_of_mem _ member))
      rw [toNat_next (by omega), show attempt.toNat + 1 + outcomes.length =
        attempt.toNat + (outcomes.length + 1) by omega] at onward
      exact onward (by omega) few
    · rw [if_neg within, reconnectLoop_giveUp]
      exact iff_of_false (by simp) (by omega)

/-- An enabled policy goes on behind fewer failures than its cap, and behind no more. -/
theorem goesOn_iff (enabled : policy.enabled = true) (rand01 : Jitter)
    {outcomes : List (Outcome × Jitter)}
    (retryable : ∀ outcome ∈ outcomes, outcome.1 = .failed true) :
    policy.GoesOn rand01 outcomes ↔ outcomes.length < policy.maxAttempts.toNat := by
  have numbers := policy.maxAttempts.toNat_lt
  -- The attempts are numbered in 32 bits, so that they may run out before the failures do.
  by_cases few : 1 + outcomes.length < 2 ^ 32
  · have behind := decisions_reconnectLoop enabled 1 rand01 retryable (le_refl _) few
    rw [show (1 : UInt32).toNat = 1 from rfl, Nat.add_comm] at behind
    exact behind
  · -- Behind so many failures there is no number left for an attempt.
    refine iff_of_false ?_ (by omega)
    rintro ⟨attempt, delay, number, -⟩
    have small := attempt.toNat_lt
    omega

/-- A cap of zero lets no attempt be decided on, however few have failed. -/
theorem unlimited_never_goes_on (policy : ReconnectPolicy) (enabled : policy.enabled = true)
    (unlimited : policy.maxAttempts = 0) (rand01 : Jitter) (outcomes : List (Outcome × Jitter))
    (retryable : ∀ outcome ∈ outcomes, outcome.1 = .failed true) :
    ¬policy.GoesOn rand01 outcomes := by
  rw [goesOn_iff enabled rand01 retryable, unlimited]
  exact Nat.not_lt_zero _

/-- The default policy without a cap. -/
def withoutCap : ReconnectPolicy := { ReconnectPolicy.default with maxAttempts := 0 }

/-- That policy decides on no attempt behind two that failed. -/
theorem unlimited_never_goes_on_twice :
    ¬withoutCap.GoesOn none [(.failed true, none), (.failed true, none)] :=
  unlimited_never_goes_on withoutCap rfl rfl none _ (by decide)

/-- That policy is enabled, has no cap, and gives up before the first attempt. -/
theorem gives_up_without_cap :
    withoutCap.enabled = true ∧ withoutCap.maxAttempts = 0 ∧
      withoutCap.decide .dropped 1 none = .giveUp ∧ ¬withoutCap.GoesOn none [] := by
  refine ⟨rfl, rfl, rfl, ?_⟩
  rintro ⟨attempt, delay, -, decision⟩
  cases show some Decision.giveUp = some (.reconnect attempt delay) from decision

end Cap

end Tern.Desktop

namespace Tern.Session

open Desktop (Decision Jitter ReconnectPolicy)
open Webview (ReconnectInfo)

section Announcing

variable {setup : Setup} {state next : State}

/-- The supervisor is about to make another attempt, or is making one. -/
def Phase.retries : Phase → Bool
  | .deciding _ (.reconnect _ _) => true
  | .backingOff _ => true
  | .awake _ => true
  | .clear _ => true
  | .sizing _ _ => true
  | .attempting _ _ => true
  | _ => false

/-- A session attempts and announces nothing unless its policy has a cap, which is announced. -/
structure Capped (setup : Setup) (state : State) : Prop where
  announced : ∀ attempt maxAttempts delayMs,
    .reconnecting attempt maxAttempts delayMs ∈ state.events →
      maxAttempts = setup.policy.maxAttempts ∧ 0 < maxAttempts.toNat
  retrying : state.phase.retries = true → 0 < setup.policy.maxAttempts.toNat
  attempted : state.attempts ≠ [] → 0 < setup.policy.maxAttempts.toNat

/-- A policy that decides on an attempt has a cap. -/
theorem cap_of_reconnect {policy : ReconnectPolicy} {attempt number : UInt32} {rand01 : Jitter}
    {delay : Desktop.Duration}
    (decided : policy.reconnectOrGiveUp attempt rand01 = .reconnect number delay) :
    0 < policy.maxAttempts.toNat := by
  -- With a cap of zero the first question of the policy is answered with giving up.
  unfold ReconnectPolicy.reconnectOrGiveUp at decided
  rw [Nat.pos_iff_ne_zero]
  intro zero
  have none : policy.maxAttempts = 0 := UInt32.toNat.inj zero
  rw [none] at decided
  simp at decided

/-- What says nothing, attempts nothing and leads to no attempt keeps to the cap. -/
theorem Capped.quiet (capped : Capped setup state) (events : next.events = state.events)
    (attempts : next.attempts = state.attempts)
    (phase : next.phase.retries = true → state.phase.retries = true) : Capped setup next where
  -- The events and attempts are the old ones, and a phase that retries retried before.
  announced := by
    rw [events]
    exact capped.announced
  retrying := fun retries => capped.retrying (phase retries)
  attempted := by
    rw [attempts]
    exact capped.attempted

/-- An event that announces no attempt keeps to the cap. -/
theorem Capped.report {event : SessionEvent} (capped : Capped setup state)
    (other : ∀ attempt maxAttempts delayMs, event ≠ .reconnecting attempt maxAttempts delayMs)
    (events : next.events = state.events ++ [event]) (attempts : next.attempts = state.attempts)
    (phase : next.phase.retries = false) : Capped setup next where
  -- The new event is the last one, and announces nothing.
  announced := by
    intro attempt maxAttempts delayMs member
    rw [events] at member
    rcases List.mem_append.mp member with before | last
    · exact capped.announced attempt maxAttempts delayMs before
    · exact absurd (List.mem_singleton.mp last).symm (other attempt maxAttempts delayMs)
  retrying := by simp [phase]
  attempted := by
    rw [attempts]
    exact capped.attempted

/-- A decision keeps to the cap if it is on an attempt only where there is a cap. -/
theorem Capped.decide (capped : Capped setup state) {reason : String} {decision : Decision}
    (decided : ∀ number delay, decision = .reconnect number delay →
      0 < setup.policy.maxAttempts.toNat) :
    Capped setup { state with phase := .deciding reason decision } where
  -- Only a decision on an attempt leads on to one, and then there is a cap by assumption.
  announced := capped.announced
  retrying := by
    intro retries
    cases decision with
    | exit code => cases retries
    | giveUp => cases retries
    | reconnect number delay => exact decided number delay rfl
  attempted := capped.attempted

/-- A move of the supervisor keeps to the cap. -/
theorem capped_moves {input : Input} (capped : Capped setup state)
    (moves : Moves setup state input next) : Capped setup next := by
  cases moves with
  | broken classifying reads lost =>
    refine capped.quiet rfl rfl ?_
    cases setup.reconnector <;> nofun
  | exited exiting => exact capped.report (by simp) rfl rfl rfl
  | abandoned losing => exact capped.report (by simp) rfl rfl rfl
  | drawn dropped => exact capped.decide fun _ _ => cap_of_reconnect
  | failed attempting =>
    -- A failure that cannot be retried is answered by giving up.
    refine capped.decide fun number delay decided => ?_
    unfold ReconnectPolicy.afterFailedAttempt at decided
    split at decided
    · cases decided
    · exact cap_of_reconnect decided
  | @acted reason decision deciding =>
    cases decision with
    | exit code => exact capped.report (by simp) rfl rfl rfl
    | giveUp => exact capped.report (by simp) rfl rfl rfl
    | reconnect attempt delay =>
      -- The attempt is announced with the cap that the policy decided by.
      have cap := capped.retrying (by rw [deciding]; rfl)
      refine ⟨?_, fun _ => cap, capped.attempted⟩
      intro number maxAttempts delayMs member
      rcases List.mem_append.mp member with before | last
      · exact capped.announced number maxAttempts delayMs before
      · cases List.mem_singleton.mp last
        exact ⟨rfl, cap⟩
  | elapsed backingOff => exact capped.quiet rfl rfl (by simp [backingOff, Phase.retries])
  | awakeOpen awake unshut => exact capped.quiet rfl rfl (by simp [awake, Phase.retries])
  | readCols clear => exact capped.quiet rfl rfl (by simp [clear, Phase.retries])
  | readRows sizing =>
    have cap := capped.retrying (by rw [sizing]; rfl)
    exact ⟨capped.announced, fun _ => cap, fun _ => cap⟩
  | connected reopened => exact capped.report (by simp) rfl rfl rfl
  -- Every other move neither reports anything nor leads to an attempt.
  | _ => exact capped.quiet rfl rfl nofun

/-- Every action keeps to the cap. -/
theorem capped_step {action : Action} (capped : Capped setup state)
    (taken : step setup state action = some next) : Capped setup next := by
  cases takes_step taken with
  | supervise moves => exact capped_moves capped moves
  | announce spawned =>
    refine ⟨?_, capped.retrying, capped.attempted⟩
    intro attempt maxAttempts delayMs member
    rcases List.mem_append.mp member with before | last
    · exact capped.announced attempt maxAttempts delayMs before
    · cases List.mem_singleton.mp last
  -- Every other action leaves the supervisor and the events alone.
  | _ => exact capped.quiet rfl rfl id

/-- In no run does a session attempt or announce anything that its cap does not allow. -/
theorem capped_run {actions : List Action} {final : State}
    (ran : System.run (step setup) (State.init setup) actions = some final) : Capped setup final :=
  -- A session starts without events or attempts, and not about to make any.
  System.run_preserves capped_step
    ⟨by simp [State.init], by simp [State.init, Phase.retries], by simp [State.init]⟩ ran

/-- A session without a cap never tries to reconnect, and never says that it does. -/
theorem unlimited_session_never_retries (unlimited : setup.policy.maxAttempts = 0)
    {actions : List Action} {final : State}
    (ran : System.run (step setup) (State.init setup) actions = some final) :
    final.attempts = [] ∧ ∀ attempt maxAttempts delayMs,
      .reconnecting attempt maxAttempts delayMs ∉ final.events := by
  -- A cap that is zero is not positive, which is what an attempt would need.
  have capped := capped_run ran
  have none : ¬0 < setup.policy.maxAttempts.toNat := by simp [unlimited]
  refine ⟨?_, ?_⟩
  · by_contra some
    exact none (capped.attempted some)
  · intro attempt maxAttempts delayMs member
    obtain ⟨rfl, cap⟩ := capped.announced attempt maxAttempts delayMs member
    exact none cap

end Announcing

section Showing

variable {setup : Setup}

/-- How long a countdown has left, or that it has run out. -/
def whenText : Option Nat → String
  | some (left + 1) => ", retrying in " ++ toString (left + 1) ++ "s"
  | _ => ", retrying…"

/-- The text that a tab shows while it reconnects. -/
def reconnectText (reconnect : Option ReconnectInfo) (secondsLeft : Option Nat) : String :=
  match reconnect with
  | none => ""
  | some r =>
    -- A cap of zero is left out, as if there were none.
    let ofMax := if 0 < r.max then "/" ++ toString r.max else ""
    "attempt " ++ toString r.attempt ++ ofMax ++ whenText secondsLeft

/-- What a tab keeps of an event that announces an attempt. -/
def progressOf (now : Nat) : SessionEvent → Option ReconnectInfo
  | .reconnecting attempt maxAttempts delayMs =>
    some ⟨attempt.toNat, maxAttempts.toNat, now + delayMs⟩
  | _ => none

/-- Every progress that a tab is told of is shown with the cap of the policy. -/
theorem progress_shown_with_cap {actions : List Action} {final : State}
    (ran : System.run (step setup) (State.init setup) actions = some final) {event : SessionEvent}
    (sent : event ∈ final.events) {now : Nat} {info : ReconnectInfo}
    (kept : progressOf now event = some info) (secondsLeft : Option Nat) :
    reconnectText (some info) secondsLeft =
      "attempt " ++ toString info.attempt ++ ("/" ++ toString setup.policy.maxAttempts.toNat) ++
        whenText secondsLeft := by
  cases event with
  | reconnecting attempt maxAttempts delayMs =>
    -- What was announced has a cap, so that it is not left out.
    obtain ⟨rfl, cap⟩ := (capped_run ran).announced attempt maxAttempts delayMs sent
    cases kept
    rw [reconnectText, if_pos cap]
  | _ => cases kept

end Showing

end Tern.Session
