import Tern.Ssh.Authenticate

/-! The connect timeout: a window that is armed again while a person decides about the host key. -/

namespace Tern.Ssh

open Tern.Desktop (Duration)

/-- How long a decision about a host key may hold a connect open. -/
def maxHostKeyWait : Duration := .fromSecs 180

/-- No waiting at all. -/
def noWait : Duration := ⟨0, by decide⟩

/-- When the parts of a handshake happen, in nanoseconds. -/
structure Timeline where
  /-- The time on the network before the server presents its key. -/
  before : Nat
  /-- The time inside the host-key callback. -/
  deciding : Nat
  /-- The time after the callback returned, until the handshake is over. -/
  after : Nat
  /-- How the handshake ends, if nothing cuts it off. -/
  outcome : Except TransportError Unit
  deriving DecidableEq

/-- The instant at which the callback has returned. -/
def Timeline.decided (self : Timeline) : Nat := self.before + self.deciding

/-- The instant at which the handshake is over. -/
def Timeline.completed (self : Timeline) : Nat := self.decided + self.after

/-- The flag that the callback raises while it is blocked, as it reads at an instant. -/
def Timeline.awaitingUser (self : Timeline) (instant : Nat) : Bool :=
  self.before ≤ instant && instant < self.decided

/-- The handshake that ran to its end. -/
def Timeline.handshake (self : Timeline) : Handshake :=
  match self.outcome with
  | .ok _ => .up
  | .error error => .failed (.protocol error)

/-- The loop around the handshake, at the instant its next window is armed. -/
def awaitHandshake (timeout : Duration) (armed : 0 < timeout.nanos) (timeline : Timeline)
    (now : Nat) (userWaited : Duration) : Handshake :=
  let expiry := now + timeout.nanos
  -- The handshake is polled before the timer, so that it wins at the instant of the expiry.
  if timeline.completed ≤ expiry then timeline.handshake
  else if timeline.awaitingUser expiry && userWaited.nanos < maxHostKeyWait.nanos then
    awaitHandshake timeout armed timeline expiry (.saturate (userWaited.nanos + timeout.nanos))
  else .timedOut
termination_by timeline.completed - now
decreasing_by omega

/-- Connect to a server whose handshake follows a timeline, and authenticate. -/
def connectAlong {Key : Type} (peer : Peer Key) (cfg : SessionConfig)
    (armed : 0 < cfg.connectTimeout.nanos) (timeline : Timeline) : AuthRun :=
  connect peer cfg (awaitHandshake cfg.connectTimeout armed timeline 0 noWait)

/-- An expiry falls between the answer of the callback and the end of the handshake. -/
def Timeline.CutAt (self : Timeline) (instant : Nat) : Prop :=
  self.decided ≤ instant ∧ instant < self.completed

section Windows

variable {timeout : Duration} {armed : 0 < timeout.nanos} {timeline : Timeline}

/-- A handshake that ran to its end did not time out. -/
theorem handshake_ne_timedOut (timeline : Timeline) : timeline.handshake ≠ .timedOut := by
  unfold Timeline.handshake
  split
  · exact Handshake.noConfusion
  · exact Handshake.noConfusion

/-- Clamping a sum only makes it smaller. -/
theorem saturate_le (nanos : Nat) : (Duration.saturate nanos).nanos ≤ nanos := by
  -- A span that is cut short was longer than the longest one.
  unfold Duration.saturate
  split
  · exact le_refl nanos
  · rename_i beyond
    show 2 ^ 64 * 10 ^ 9 - 1 ≤ nanos
    omega

/-- Less network time than one window leaves no expiry before the key is presented. -/
theorem awaitingUser_iff {expiry : Nat} (network : timeline.before + timeline.after < timeout.nanos)
    (elapsed : timeout.nanos ≤ expiry) :
    timeline.awaitingUser expiry = true ↔ expiry < timeline.decided := by
  unfold Timeline.awaitingUser
  rw [Bool.and_eq_true, decide_eq_true_iff, decide_eq_true_iff]
  omega

/--
A loop that waited no longer than the time that passed times out
exactly when one of its later expiries cuts off the network after the answer.
-/
theorem awaitHandshake_timedOut_iff (network : timeline.before + timeline.after < timeout.nanos)
    (human : timeline.deciding < maxHostKeyWait.nanos) (now : Nat) (userWaited : Duration)
    (waited : userWaited.nanos ≤ now) :
    awaitHandshake timeout armed timeline now userWaited = .timedOut ↔
      ∃ windows, timeline.CutAt (now + (windows + 1) * timeout.nanos) := by
  -- The induction is on the windows that fit before the handshake is over.
  induction now, userWaited using awaitHandshake.induct timeout armed timeline with
  | case1 now userWaited expiry over_ =>
    rw [awaitHandshake, if_pos over_]
    refine iff_of_false (handshake_ne_timedOut timeline) ?_
    rintro ⟨windows, -, inside⟩
    have later : timeout.nanos ≤ (windows + 1) * timeout.nanos :=
      Nat.le_mul_of_pos_left _ (Nat.succ_pos windows)
    omega
  | case2 now userWaited expiry open_ rearmed ih =>
    rw [awaitHandshake, if_neg open_, if_pos rearmed]
    -- The window is armed again only while the user is still asked.
    have undecided : expiry < timeline.decided := by
      rw [Bool.and_eq_true] at rearmed
      exact (awaitingUser_iff network (Nat.le_add_left _ _)).mp rearmed.1
    rw [ih (le_trans (saturate_le _) (by omega))]
    -- The window that was armed again expired before the answer, and the others come later.
    constructor
    · rintro ⟨windows, cut⟩
      refine ⟨windows + 1, ?_⟩
      rwa [show now + (windows + 1 + 1) * timeout.nanos =
        expiry + (windows + 1) * timeout.nanos from by rw [Nat.add_mul _ 1]; omega]
    · rintro ⟨windows, cut⟩
      cases windows with
      | zero =>
        have decided := cut.1
        omega
      | succ windows =>
        refine ⟨windows, ?_⟩
        rwa [show now + (windows + 1 + 1) * timeout.nanos =
          expiry + (windows + 1) * timeout.nanos from by rw [Nat.add_mul _ 1]; omega] at cut
  | case3 now userWaited expiry open_ lapsed =>
    rw [awaitHandshake, if_neg open_, if_neg lapsed]
    refine iff_of_true rfl ⟨0, ?_⟩
    -- The cap is out of reach: what was waited before this window is less than the decision.
    have decided : timeline.decided ≤ expiry := by
      by_contra undecided
      have awaiting := (awaitingUser_iff network (Nat.le_add_left _ _)).mpr
        (Nat.lt_of_not_le undecided)
      have below : userWaited.nanos < maxHostKeyWait.nanos := by
        unfold Timeline.decided at undecided
        omega
      exact lapsed (by rw [awaiting, Bool.true_and]; exact decide_eq_true below)
    exact ⟨by omega, by omega⟩

/-- A loop that was not cut off hands on how the handshake ended. -/
theorem awaitHandshake_eq (now : Nat) (userWaited : Duration) :
    awaitHandshake timeout armed timeline now userWaited = .timedOut ∨
      awaitHandshake timeout armed timeline now userWaited = timeline.handshake := by
  -- The loop ends in one of its own two exits, however often it is armed again.
  induction now, userWaited using awaitHandshake.induct timeout armed timeline with
  | case1 now userWaited expiry over_ =>
    rw [awaitHandshake, if_pos over_]
    exact .inr rfl
  | case2 now userWaited expiry open_ rearmed ih =>
    rw [awaitHandshake, if_neg open_, if_pos rearmed]
    exact ih
  | case3 now userWaited expiry open_ lapsed =>
    rw [awaitHandshake, if_neg open_, if_neg lapsed]
    exact .inl rfl

end Windows

section Connecting

variable {Key : Type} (peer : Peer Key)

/-- A chain of methods has no deadline to miss. -/
theorem authenticateFrom_ne_connectTimeout (user : String) (auth : List Desktop.AuthMethod)
    (offered : Option (List MethodKind)) (attempts : List String) (history : List (Call Key))
    (after : Duration) :
    (authenticateFrom peer user auth offered attempts history).result ≠
      .error (.connectTimeout after) := by
  -- The induction is on the methods that are left, the last of which reports the chain.
  induction auth generalizing offered attempts history with
  | nil =>
    intro timedOut
    cases timedOut
  | cons method rest ih =>
    rw [authenticateFrom]
    split
    · exact ih _ _ _
    · split
      · intro timedOut
        cases timedOut
      · exact ih _ _ _
      · exact ih _ _ _

/-- A connect reports a timeout exactly when its handshake was cut off. -/
theorem connect_timedOut_iff (cfg : SessionConfig) (timeline : Timeline)
    (armed : 0 < cfg.connectTimeout.nanos) :
    (∃ after, (connectAlong peer cfg armed timeline).result = .error (.connectTimeout after)) ↔
      awaitHandshake cfg.connectTimeout armed timeline 0 noWait = .timedOut := by
  unfold connectAlong
  constructor
  · rintro ⟨after, timedOut⟩
    rcases @awaitHandshake_eq cfg.connectTimeout armed timeline 0 noWait with cut | ended
    · exact cut
    · -- A handshake that ended by itself carries an error of the transport, or none.
      exfalso
      rw [ended] at timedOut
      unfold Timeline.handshake at timedOut
      split at timedOut
      · exact authenticateFrom_ne_connectTimeout peer _ _ _ _ _ after timedOut
      · rename_i error failed
        cases error with
        | unknownKey => cases timedOut
        | other text => cases timedOut
  · intro cut
    -- A handshake that was cut off is reported under the configured timeout.
    rw [cut]
    exact ⟨cfg.connectTimeout, rfl⟩

/--
For every timeline with less network time than one window and a decision below the cap,
a connect is not cut off exactly when no window expires
between the answer and the end of the handshake.
-/
theorem connect_timeout_spares_decision_iff (cfg : SessionConfig) (timeline : Timeline)
    (armed : 0 < cfg.connectTimeout.nanos)
    (network : timeline.before + timeline.after < cfg.connectTimeout.nanos)
    (human : timeline.deciding < maxHostKeyWait.nanos) :
    (∀ after, (connectAlong peer cfg armed timeline).result ≠ .error (.connectTimeout after)) ↔
      ∀ windows, 0 < windows → ¬timeline.CutAt (windows * cfg.connectTimeout.nanos) := by
  -- The windows are counted from one here, and from the current one in the loop.
  rw [← not_exists, connect_timedOut_iff,
    awaitHandshake_timedOut_iff network human 0 _ (le_refl 0), not_exists]
  constructor
  · intro spared windows positive
    have uncut := spared (windows - 1)
    rwa [Nat.sub_add_cancel positive, Nat.zero_add] at uncut
  · intro spared windows
    rw [Nat.zero_add]
    exact spared (windows + 1) (Nat.succ_pos windows)

/-- A decision as long as three windows of 400 ms, answered within the fourth. -/
def slowDecision : Timeline := ⟨100 * 10 ^ 6, 1200 * 10 ^ 6, 20 * 10 ^ 3, .ok ()⟩

/-- A window of 400 ms. -/
def shortWindow : SessionConfig := ⟨"tern", [], .fromMillis 400⟩

/-- A slow decision is waited for, whatever the server answers afterwards. -/
theorem connect_timeout_spares_slow_decision :
    shortWindow.connectTimeout.nanos < slowDecision.deciding ∧
    ∀ after, (connectAlong droppedConnection shortWindow (by decide) slowDecision).result ≠
      .error (.connectTimeout after) := by
  refine ⟨by decide, (connect_timeout_spares_decision_iff droppedConnection shortWindow slowDecision
    (by decide) (by decide) (by decide)).mpr ?_⟩
  rintro windows - ⟨decided, inside⟩
  -- The answer comes in the fourth window, and so does the end of the handshake.
  have from_ : 1300 * 10 ^ 6 ≤ windows * (400 * 10 ^ 6) := decided
  have until_ : windows * (400 * 10 ^ 6) < 1300 * 10 ^ 6 + 20 * 10 ^ 3 := inside
  omega

/-- An answer just before the first window expires, which ends before the handshake is over. -/
def lateAnswer : Timeline := ⟨10 ^ 9, 9 * 10 ^ 9 - 10 * 10 ^ 3, 20 * 10 ^ 3, .ok ()⟩

/-- One second on the network is cut off by a window of ten, for the answer came last in it. -/
theorem connect_cut_after_answer :
    lateAnswer.before + lateAnswer.after < passwordOnly.connectTimeout.nanos ∧
    lateAnswer.deciding < maxHostKeyWait.nanos ∧
    (connectAlong droppedConnection passwordOnly (by decide) lateAnswer).result =
      .error (.connectTimeout (.fromSecs 10)) := by
  -- The first window ends just there, so the loop finds it lapsed and has no reason to arm it
  -- again.
  refine ⟨by decide, by decide, ?_⟩
  have cut : awaitHandshake passwordOnly.connectTimeout (by decide) lateAnswer 0 noWait =
      .timedOut :=
    (awaitHandshake_timedOut_iff (by decide) (by decide) 0 noWait (le_refl 0)).mpr
      ⟨0, by decide, by decide⟩
  unfold connectAlong
  rw [cut]
  rfl

end Connecting

end Tern.Ssh
