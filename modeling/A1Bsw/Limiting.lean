import A1Bsw.LastGate

/-!
# The limited signals over a run

The steering angle and the acceleration go through a limiter and then through
the clamp. `Axis` names the two, so that a fact about both is stated once.

A cycle sends the clamp of the limiter's output, and the limiter remembers
that output : so what a cycle sends is always the clamp of the memory it
leaves (`Axis.value_sent`).
-/

namespace A1Bsw

/-- The signals that go through a limiter. -/
inductive Axis where
  | eps
  | acc
  deriving DecidableEq

namespace Axis

/-- The limiter of a signal. -/
def limiter : Axis → LoopState → RateLimiter
  | eps => LoopState.epsLimiter
  | acc => LoopState.accLimiter

/-- The configured limit of a signal. -/
def rateLimit : Axis → Args → Option PyFloat
  | eps => Args.epsRateLimit
  | acc => Args.accRateLimit

/-- The signal in a command. -/
def value : Axis → Command → PyFloat
  | eps => Command.epsCmd
  | acc => Command.accCmd

/-- The lower end of the range of a signal. -/
def lo : Axis → ℚ
  | eps => epsCmdMin
  | acc => accCmdMin

/-- The upper end of the range of a signal. -/
def hi : Axis → ℚ
  | eps => epsCmdMax
  | acc => accCmdMax

/-- What the limiter of a signal is asked for in the state the machine has entered. -/
def target : Axis → LoopState → PyFloat
  | eps, s => s.state.epsTarget s.lastValidCmd s.heldEpsCmd
  | acc, s => s.state.accTarget s.lastValidCmd

variable (x : Axis)

theorem lo_neg : x.lo < 0 := by
  cases x <;> decide +kernel

theorem hi_pos : 0 < x.hi := by
  cases x <;> decide +kernel

theorem lo_le_hi : x.lo ≤ x.hi :=
  (x.lo_neg.trans x.hi_pos).le

/-- The clamp cuts each signal to its range. -/
theorem value_clampRange (cmd : Command) :
    x.value (clampRange cmd).1 = pyClamp (.fin x.lo) (.fin x.hi) (x.value cmd) := by
  cases x <;> rfl

/-! ## One cycle -/

section Send

variable {s : LoopState} (period : ℚ)

theorem limiter_afterSend_of_init (h : s.state = .INIT) :
    x.limiter (s.afterSend period) = (x.limiter s).reset (some (.fin 0)) := by
  cases x <;> simp only [limiter, LoopState.afterSend, LoopState.policy, h] <;> rfl

theorem limiter_afterSend_of_following (h : s.state.Following) :
    x.limiter (s.afterSend period) = ((x.limiter s).step (x.target s) (.fin period)).2 := by
  cases x <;> simp only [limiter, LoopState.afterSend, LoopState.policy,
    commandForState_of_following h] <;> rfl

theorem limiter_afterSend_of_stopped (h : s.state = .STOPPED) :
    x.limiter (s.afterSend period) = x.limiter s := by
  cases x <;> simp only [limiter, LoopState.afterSend, LoopState.policy, h] <;> rfl

/-- A following state sends the clamp of what the limiter lets through. -/
theorem value_sending_of_following (h : s.state.Following) :
    x.value (s.sending period).out =
      pyClamp (.fin x.lo) (.fin x.hi) ((x.limiter s).limited (x.target s) (.fin period)) := by
  rw [LoopState.sending_out, value_clampRange, LoopState.policy, commandForState_of_following h]
  cases x <;> rfl

end Send

/-! ## Runs -/

variable {a : Args} (ρ : GuardRun a)

theorem limiter_entered (n : ℕ) : x.limiter (ρ.entered n) = x.limiter (ρ.loop n) := by
  cases x
  · exact LoopState.sense_epsLimiter _ _
  · exact LoopState.sense_accLimiter _ _

/-- A limiter keeps its configured bound. -/
theorem maxDeltaPerS_limiter (n : ℕ) :
    (x.limiter (ρ.loop n)).maxDeltaPerS = x.rateLimit a := by
  induction n with
  | zero =>
    rw [ρ.start]
    cases x <;> rfl
  | succ n ih =>
    rw [ρ.loop_succ, ← ih, ← limiter_entered]
    by_cases hinit : (ρ.entered n).state = .INIT
    · rw [limiter_afterSend_of_init x _ hinit]
      rfl
    by_cases hstop : (ρ.entered n).state = .STOPPED
    · rw [limiter_afterSend_of_stopped x _ hstop]
    · rw [limiter_afterSend_of_following x _ ⟨hinit, hstop⟩]
      rfl

/-- A following cycle leaves what the limiter let through in its memory. -/
theorem lastValue_succ_of_following {n : ℕ} (h : (ρ.state (n + 1)).Following) :
    (x.limiter (ρ.loop (n + 1))).lastValue =
      some ((x.limiter (ρ.loop n)).limited (x.target (ρ.entered n)) (.fin a.period)) := by
  rw [ρ.loop_succ, limiter_afterSend_of_following x _ (by rwa [ρ.entered_state]), limiter_entered]
  rfl

theorem lastValue_succ_of_init {n : ℕ} (h : ρ.state (n + 1) = .INIT) :
    (x.limiter (ρ.loop (n + 1))).lastValue = some (.fin 0) := by
  rw [ρ.loop_succ, limiter_afterSend_of_init x _ (by rwa [ρ.entered_state])]
  rfl

/-- A first cycle that follows a target passes it, since no cycle has set the memory. -/
theorem lastValue_one_of_following (h : (ρ.state 1).Following) :
    (x.limiter (ρ.loop 1)).lastValue = some (x.target (ρ.entered 0)) := by
  have hunset : (x.limiter (ρ.loop 0)).lastValue = none := by
    rw [ρ.start]
    cases x <;> rfl
  rw [x.lastValue_succ_of_following ρ h, RateLimiter.limited_of_unset hunset]

/-- A cycle that does not stop sends the clamp of the memory it leaves. -/
theorem value_sent {n : ℕ} (h : ρ.state (n + 1) ≠ .STOPPED) :
    ∃ memory, (x.limiter (ρ.loop (n + 1))).lastValue = some memory ∧
      x.value (ρ.sent n).out = pyClamp (.fin x.lo) (.fin x.hi) memory := by
  by_cases hinit : ρ.state (n + 1) = .INIT
  · refine ⟨_, x.lastValue_succ_of_init ρ hinit, ?_⟩
    rw [ρ.sent_of_init hinit]
    cases x <;> decide +kernel
  · refine ⟨_, x.lastValue_succ_of_following ρ ⟨hinit, h⟩, ?_⟩
    rw [ρ.sent_eq, value_sending_of_following x _ (by rw [ρ.entered_state]; exact ⟨hinit, h⟩),
      limiter_entered]

/-! ## What requests have in common -/

section Requests

variable {x} {ρ} {P : PyFloat → Prop}

/-- What holds of zero and of every request holds of the last one. -/
theorem value_lastValidCmd_of_requests (h0 : P (.fin 0))
    (h : ∀ {n cmd cmdAge}, (ρ.input n).cmdRead = .ok (some (cmd, cmdAge)) → P (x.value cmd))
    (n : ℕ) :
    P (x.value (ρ.sensed n).lastValidCmd) := by
  unfold GuardRun.sensed
  induction n with
  | zero =>
    obtain ⟨cmd, cmdAge, hr, hc, -⟩ | ⟨-, hc, -⟩ := (ρ.loop 0).sense_command (ρ.input 0)
    · rw [hc]
      exact h hr
    · rw [hc, ρ.start]
      cases x <;> exact h0
  | succ n ih =>
    obtain ⟨cmd, cmdAge, hr, hc, -⟩ | ⟨-, hc, -⟩ := (ρ.loop (n + 1)).sense_command (ρ.input (n + 1))
    · rw [hc]
      exact h hr
    · rw [hc, ρ.loop_succ]
      exact ih

/-- It holds of the frozen angle. -/
theorem heldEpsCmd_of_requests (h0 : P (.fin 0))
    (h : ∀ {n cmd cmdAge}, (ρ.input n).cmdRead = .ok (some (cmd, cmdAge)) → P (eps.value cmd))
    (n : ℕ) : P (ρ.entered n).heldEpsCmd := by
  have hlast := value_lastValidCmd_of_requests (x := eps) h0 h
  unfold GuardRun.entered LoopState.decide LoopState.transition
  induction n with
  | zero =>
    dsimp only
    split_ifs
    · exact hlast 0
    · rw [GuardRun.sensed, LoopState.sense_heldEpsCmd, ρ.start]
      exact h0
  | succ n ih =>
    dsimp only
    split_ifs
    · exact hlast (n + 1)
    · rw [GuardRun.sensed, LoopState.sense_heldEpsCmd, ρ.loop_succ]
      exact ih

/-- It holds of what the limiter is asked for. -/
theorem target_of_requests (h0 : P (.fin 0))
    (h : ∀ {n cmd cmdAge}, (ρ.input n).cmdRead = .ok (some (cmd, cmdAge)) → P (x.value cmd))
    (n : ℕ) :
    P (x.target (ρ.entered n)) := by
  have hlast := value_lastValidCmd_of_requests h0 h n
  cases x
  · show P (State.epsTarget _ _ _)
    unfold State.epsTarget
    split_ifs
    · exact hlast
    · exact heldEpsCmd_of_requests h0 h n
  · show P (State.accTarget _ _)
    unfold State.accTarget
    split_ifs
    · exact hlast
    · exact h0

end Requests

/-! ## Rational requests -/

/-- Every command that is read has a rational in the signal. -/
def FiniteRequests : Prop :=
  ∀ {n cmd cmdAge}, (ρ.input n).cmdRead = .ok (some (cmd, cmdAge)) → ∃ q, x.value cmd = .fin q

section Finite

variable {x} {ρ}

theorem FiniteRequests.lastValidCmd (h : x.FiniteRequests ρ) (n : ℕ) :
    ∃ q, x.value (ρ.sensed n).lastValidCmd = .fin q :=
  value_lastValidCmd_of_requests (P := fun v => ∃ q, v = .fin q) ⟨0, rfl⟩ h n

/-- The targets are rationals as well. -/
theorem FiniteRequests.target (h : x.FiniteRequests ρ) (n : ℕ) :
    ∃ t, x.target (ρ.entered n) = .fin t :=
  target_of_requests (P := fun v => ∃ q, v = .fin q) ⟨0, rfl⟩ h n

/-- A following cycle moves the memory toward the target. -/
theorem lastValue_move {r : ℚ} (hrate : x.rateLimit a = some (.fin r)) (hr : 0 ≤ r)
    (hperiod : 0 < a.period) {n : ℕ} {m t : ℚ} (hfollow : (ρ.state (n + 1)).Following)
    (hm : (x.limiter (ρ.loop n)).lastValue = some (.fin m))
    (ht : x.target (ρ.entered n) = .fin t) :
    (x.limiter (ρ.loop (n + 1))).lastValue = some (.fin (moveToward (r * a.period) m t)) := by
  rw [x.lastValue_succ_of_following ρ hfollow, ht,
    RateLimiter.limited_fin hr hperiod ((x.maxDeltaPerS_limiter ρ n).trans hrate) hm]

/-- With a rational limit the memory is a rational from the first cycle on. -/
theorem FiniteRequests.memory (h : x.FiniteRequests ρ) {r : ℚ}
    (hrate : x.rateLimit a = some (.fin r)) (hr : 0 ≤ r) (hperiod : 0 < a.period) {n : ℕ}
    (hrun : ρ.state (n + 1) ≠ .STOPPED) :
    ∃ m, (x.limiter (ρ.loop (n + 1))).lastValue = some (.fin m) := by
  induction n with
  | zero =>
    by_cases hinit : ρ.state 1 = .INIT
    · exact ⟨0, x.lastValue_succ_of_init ρ hinit⟩
    · obtain ⟨t, ht⟩ := h.target 0
      exact ⟨t, by rw [x.lastValue_one_of_following ρ ⟨hinit, hrun⟩, ht]⟩
  | succ n ih =>
    by_cases hinit : ρ.state (n + 1 + 1) = .INIT
    · exact ⟨0, x.lastValue_succ_of_init ρ hinit⟩
    · obtain ⟨m, hm⟩ := ih (mt ρ.stopped_succ hrun)
      obtain ⟨t, ht⟩ := h.target (n + 1)
      exact ⟨_, lastValue_move hrate hr hperiod ⟨hinit, hrun⟩ hm ht⟩

/-- A cycle that does not stop sends the clamp of the rational it remembers. -/
theorem value_sent_fin {n : ℕ} {m : ℚ} (hrun : ρ.state (n + 1) ≠ .STOPPED)
    (hm : (x.limiter (ρ.loop (n + 1))).lastValue = some (.fin m)) :
    x.value (ρ.sent n).out = .fin (clamp x.lo x.hi m) := by
  obtain ⟨memory, hmem, hout⟩ := x.value_sent ρ hrun
  rw [hm, Option.some.injEq] at hmem
  rw [hout, ← hmem, PyFloat.pyClamp_fin, clamp]

end Finite

end Axis

end A1Bsw
