import A1Bsw.Steering
import Mathlib.Algebra.Order.Floor.Semiring

/-!
# Rate limits on the bus

The limiter runs before the clamp and remembers its own output. So a cycle
moves what the previous cycle sent toward the clamped target unless the
limiter is wound up : its memory lies outside the range, and the move is
spent on the way back (`rate_limit_tracks_iff`).

The bound per cycle always holds from the second cycle on. The first cycle is
not bounded : a limiter that no INIT cycle has reset passes its first request
(`power_up_bound_iff`).
-/

namespace A1Bsw

namespace Axis

variable (x : Axis) {a : Args} (ρ : GuardRun a)

/-! ## Winding up -/

/-- Cycle `n + 1` moves what cycle `n` sent toward the clamped target, by `step` or onto it. -/
def Tracks (step : ℚ) (n : ℕ) : Prop :=
  ∃ before t, x.value (ρ.sent n).out = .fin before ∧ x.target (ρ.entered (n + 1)) = .fin t ∧
    x.value (ρ.sent (n + 1)).out = .fin (moveToward step before (clamp x.lo x.hi t))

/-- Cycle `n + 1` finds the limiter outside the range, and the clamped target short of both the
bound and the point the memory moves to. -/
def WoundUp (step : ℚ) (n : ℕ) : Prop :=
  ∃ m t, (x.limiter (ρ.loop (n + 1))).lastValue = some (.fin m) ∧
    x.target (ρ.entered (n + 1)) = .fin t ∧ WindUp x.lo x.hi step m t

variable {x} {ρ} {r : ℚ}

theorem tracks_iff (hrate : x.rateLimit a = some (.fin r)) (hr : 0 ≤ r) (hperiod : 0 < a.period)
    (hfin : x.FiniteRequests ρ) {n : ℕ} (hfollow : (ρ.state (n + 1 + 1)).Following) :
    x.Tracks ρ (r * a.period) n ↔ ¬x.WoundUp ρ (r * a.period) n := by
  have hrun : ρ.state (n + 1) ≠ .STOPPED := mt ρ.stopped_succ hfollow.2
  obtain ⟨m, hm⟩ := hfin.memory hrate hr hperiod hrun
  obtain ⟨t, ht⟩ := hfin.target (n + 1)
  have hm' := lastValue_move hrate hr hperiod hfollow hm ht
  have hbefore := value_sent_fin hrun hm
  have hafter := value_sent_fin hfollow.2 hm'
  have hwound : x.WoundUp ρ (r * a.period) n ↔ WindUp x.lo x.hi (r * a.period) m t := by
    simp [WoundUp, hm, ht]
  have htracks : x.Tracks ρ (r * a.period) n ↔ clamp x.lo x.hi (moveToward (r * a.period) m t) =
      moveToward (r * a.period) (clamp x.lo x.hi m) (clamp x.lo x.hi t) := by
    simp [Tracks, hbefore, hafter, ht]
  rw [htracks, hwound]
  exact clamp_moveToward_eq_iff (mul_nonneg hr hperiod.le) x.lo_le_hi

/-- A fallback state ramps the acceleration to zero. -/
theorem target_acc {n : ℕ} (h : (ρ.state (n + 1)).Fallback) :
    acc.target (ρ.entered n) = .fin 0 := by
  have hne : (ρ.entered n).state ≠ .ACTIVE := by
    rw [ρ.entered_state]
    rcases h with h | h <;> simp [h]
  exact if_neg hne

/-- The memory after `N` cycles of a fallback stay. -/
theorem lastValue_ramp (hrate : acc.rateLimit a = some (.fin r)) (hr : 0 ≤ r)
    (hperiod : 0 < a.period) {n : ℕ} {m : ℚ}
    (hm : (acc.limiter (ρ.loop (n + 1))).lastValue = some (.fin m)) :
    ∀ N : ℕ, (∀ j < N, (ρ.state (n + 1 + j + 1)).Fallback) →
      (acc.limiter (ρ.loop (n + 1 + N))).lastValue =
        some (.fin ((moveToward (r * a.period) · 0)^[N] m))
  | 0, _ => hm
  | N + 1, hstay => by
    have hprev := lastValue_ramp hrate hr hperiod hm N fun j hj => hstay j (hj.trans N.lt_succ_self)
    have hlast := hstay N N.lt_succ_self
    rw [Function.iterate_succ_apply']
    exact lastValue_move hrate hr hperiod hlast.following hprev (target_acc hlast)

/-- `N` cycles of a fallback stay bring the acceleration to zero exactly when the memory is
within `N` steps of it. -/
theorem ramp_eq_zero_iff (hrate : acc.rateLimit a = some (.fin r)) (hr : 0 ≤ r)
    (hperiod : 0 < a.period) {n : ℕ} {m : ℚ} (hrun : ρ.state (n + 1) ≠ .STOPPED)
    (hm : (acc.limiter (ρ.loop (n + 1))).lastValue = some (.fin m)) {N : ℕ}
    (hstay : ∀ j < N, (ρ.state (n + 1 + j + 1)).Fallback) :
    acc.value (ρ.sent (n + N)).out = .fin 0 ↔ |m| ≤ N * (r * a.period) := by
  have hrun' : ρ.state (n + N + 1) ≠ .STOPPED := by
    rcases N with _ | N
    · exact hrun
    · have hlast := (hstay N N.lt_succ_self).following.2
      rwa [show n + (N + 1) + 1 = n + 1 + N + 1 by omega]
  have hmem := lastValue_ramp hrate hr hperiod hm N hstay
  rw [show n + 1 + N = n + N + 1 by omega] at hmem
  rw [value_sent_fin hrun' hmem, PyFloat.fin.injEq, clamp_eq_iff acc.lo_neg acc.hi_pos,
    moveToward_iterate_eq_target_iff (mul_nonneg hr hperiod.le), zero_sub, abs_neg]

end Axis

open Axis in
/-- A limited signal tracks what was sent exactly when its limiter is not wound up. The
acceleration of a fallback stay is zero after as many cycles as the last one sent needs
exactly when the memory needs no more. -/
theorem rate_limit_tracks_iff {a : Args} {ρ : GuardRun a} {x : Axis} {r : ℚ}
    (hrate : x.rateLimit a = some (.fin r)) (hr : 0 ≤ r) (hperiod : 0 < a.period)
    (hfin : x.FiniteRequests ρ) :
    (∀ n, (ρ.state (n + 1 + 1)).Following →
      (x.Tracks ρ (r * a.period) n ↔ ¬x.WoundUp ρ (r * a.period) n)) ∧
    (x = .acc → ∀ n, ρ.state (n + 1) ≠ .STOPPED →
      ∃ m last, (acc.limiter (ρ.loop (n + 1))).lastValue = some (.fin m) ∧
        acc.value (ρ.sent n).out = .fin last ∧
        ∀ N, N = ⌈|last| / (r * a.period)⌉₊ → (∀ j < N, (ρ.state (n + 1 + j + 1)).Fallback) →
          (acc.value (ρ.sent (n + N)).out = .fin 0 ↔ |m| ≤ N * (r * a.period))) := by
  refine ⟨fun n hfollow => tracks_iff hrate hr hperiod hfin hfollow, ?_⟩
  rintro rfl n hrun
  obtain ⟨m, hm⟩ := hfin.memory hrate hr hperiod hrun
  exact ⟨m, _, hm, value_sent_fin hrun hm,
    fun N _ hstay => ramp_eq_zero_iff hrate hr hperiod hrun hm hstay⟩

/-- A limit of 0.1 m/s² per cycle, an acceleration of 5 m/s² requested in cycles 1 to 20, and
no command after them. -/
def windUpRun : GuardRun { accRateLimit := some (.fin 10) } :=
  .ofInputs _ (fun n =>
    { now := n / 100
      cmdRead := .ok (if 1 ≤ n ∧ n ≤ 20 then some ({ accCmd := .fin 5 }, 0) else none)
      hbAge := .ok (some 0) }) GuardRun.monotone_tick

/-- HOLDING begins in cycle 26 and sends 1 m/s² ten cycles later as well. -/
theorem wound_up_holding :
    ¬Axis.acc.Tracks windUpRun (10 * (1 / 100)) 25 ∧
      Axis.acc.value (windUpRun.sent 25).out = .fin 1 ∧
      (∀ j < 10, (windUpRun.state (25 + 1 + j + 1)).Fallback) ∧
      ⌈|(1 : ℚ)| / (10 * (1 / 100))⌉₊ = 10 ∧
      Axis.acc.value (windUpRun.sent (25 + 10)).out = .fin 1 := by
  have hbefore : Axis.acc.value (windUpRun.sent 25).out = .fin 1 := by decide +kernel
  refine ⟨?_, hbefore, by decide +kernel, by norm_num, by decide +kernel⟩
  rintro ⟨before, t, h1, h2, h3⟩
  have htarget : Axis.acc.target (windUpRun.entered (25 + 1)) = .fin 0 := by decide +kernel
  have hafter : Axis.acc.value (windUpRun.sent (25 + 1)).out = .fin 1 := by decide +kernel
  rw [hbefore, PyFloat.fin.injEq] at h1
  rw [htarget, PyFloat.fin.injEq] at h2
  rw [hafter, ← h1, ← h2] at h3
  revert h3
  decide +kernel

theorem rate_limit_tracks_iff_windUp :
    Axis.acc.Tracks windUpRun (10 * (1 / 100)) 25 ↔
      ¬Axis.acc.WoundUp windUpRun (10 * (1 / 100)) 25 := by
  have hfin : Axis.acc.FiniteRequests windUpRun := by
    intro n cmd cmdAge hread
    change Except.ok
      (if 1 ≤ n ∧ n ≤ 20 then some (({ accCmd := .fin 5 } : Command), (0 : ℚ)) else none)
      = _ at hread
    split_ifs at hread
    · cases hread
      exact ⟨5, rfl⟩
    · cases hread
  have hfollow : (windUpRun.state (25 + 1 + 1)).Following := by decide +kernel
  exact (rate_limit_tracks_iff rfl (by norm_num) (by decide +kernel) hfin).1 25 hfollow

/-! ## The first cycle -/

namespace Axis

variable (x : Axis) {a : Args} (ρ : GuardRun a)

/-- Every cycle that does not stop sends a value within `step` of the one before it, and the
value before the first cycle counts as zero. -/
def BoundedFromPowerUp (step : ℚ) : Prop :=
  (∃ v, x.value (ρ.sent 0).out = .fin v ∧ |v - 0| ≤ step) ∧
  ∀ n, ρ.state (n + 1 + 1) ≠ .STOPPED → ∃ u v, x.value (ρ.sent n).out = .fin u ∧
    x.value (ρ.sent (n + 1)).out = .fin v ∧ |v - u| ≤ step

/-- The first cycle has no fresh command, or it does not follow the request, or the clamped
request is within `step` of zero. -/
def QuietStart (step : ℚ) : Prop :=
  (ρ.observed 0).cmdStale a.toThresholds ∨
  x = acc ∧ (ρ.observed 0).perceptionLost a.toThresholds ∨
  ∃ q, x.value (ρ.sensed 0).lastValidCmd = .fin q ∧ |clamp x.lo x.hi q| ≤ step

variable {x} {ρ} {r : ℚ}

/-- From the second cycle on the bound holds, whatever the first one did. -/
theorem abs_sub_le_step (hrate : x.rateLimit a = some (.fin r)) (hr : 0 ≤ r)
    (hperiod : 0 < a.period) (hfin : x.FiniteRequests ρ) {n : ℕ}
    (hrun : ρ.state (n + 1 + 1) ≠ .STOPPED) :
    ∃ u v, x.value (ρ.sent n).out = .fin u ∧ x.value (ρ.sent (n + 1)).out = .fin v ∧
      |v - u| ≤ r * a.period := by
  have hstep : 0 ≤ r * a.period := mul_nonneg hr hperiod.le
  have hprev : ρ.state (n + 1) ≠ .STOPPED := mt ρ.stopped_succ hrun
  obtain ⟨m, hm⟩ := hfin.memory hrate hr hperiod hprev
  by_cases hinit : ρ.state (n + 1 + 1) = .INIT
  · -- INIT is an initial stretch, so both cycles send the default command.
    have hzero := x.lastValue_succ_of_init ρ hinit
    have hzero' := x.lastValue_succ_of_init ρ (ρ.init_of_succ hinit)
    refine ⟨_, _, value_sent_fin hprev hzero', value_sent_fin hrun hzero, ?_⟩
    rwa [sub_self, abs_zero]
  · obtain ⟨t, ht⟩ := hfin.target (n + 1)
    have hm' := lastValue_move hrate hr hperiod ⟨hinit, hrun⟩ hm ht
    refine ⟨_, _, value_sent_fin hprev hm, value_sent_fin hrun hm', ?_⟩
    exact (abs_clamp_sub_clamp_le _ _).trans (abs_moveToward_sub_le hstep)

/-- The first cycle that leaves INIT asks for the request, or for zero in DEGRADED. -/
theorem target_entered_zero (hfresh : ¬(ρ.observed 0).cmdStale a.toThresholds) :
    x.target (ρ.entered 0) =
      if x = acc ∧ (ρ.observed 0).perceptionLost a.toThresholds then .fin 0
      else x.value (ρ.sensed 0).lastValidCmd := by
  have hstate : ρ.state 1 =
      if (ρ.observed 0).perceptionLost a.toThresholds then .DEGRADED else .ACTIVE := by
    rw [ρ.state_succ, ρ.state_zero, nextState, if_pos rfl, if_neg hfresh]
  by_cases hlost : (ρ.observed 0).perceptionLost a.toThresholds
  · rw [if_pos hlost] at hstate
    have hfall : (ρ.state 1).Fallback := .inr hstate
    cases x
    · -- Entering DEGRADED freezes the request.
      have hentry : ρ.state 1 ≠ ρ.state 0 := by simp [hstate, ρ.state_zero]
      rw [if_neg (by simp), ρ.target_eps hfall]
      exact ρ.frozen_of_entry hfall hentry
    · rw [if_pos ⟨rfl, hlost⟩]
      exact target_acc hfall
  · rw [if_neg hlost, ← ρ.entered_state] at hstate
    rw [if_neg fun h => hlost h.2]
    cases x
    · exact if_pos hstate
    · exact if_pos hstate

/-- The first cycle is within the bound exactly when the start is quiet. -/
theorem quietStart_iff (hfin : x.FiniteRequests ρ) {step : ℚ} (hstep : 0 ≤ step) :
    (∃ v, x.value (ρ.sent 0).out = .fin v ∧ |v - 0| ≤ step) ↔ x.QuietStart ρ step := by
  have hrun : ρ.state 1 ≠ .STOPPED := by
    intro hstop
    rw [ρ.state_succ, nextState_eq_STOPPED_iff, ρ.state_zero] at hstop
    simp at hstop
  by_cases hstale : (ρ.observed 0).cmdStale a.toThresholds
  · have hinit : ρ.state 1 = .INIT := by
      rw [ρ.state_succ, nextState_eq_INIT_iff]
      exact ⟨ρ.state_zero, hstale⟩
    refine iff_of_true ⟨_, value_sent_fin hrun (x.lastValue_succ_of_init ρ hinit), ?_⟩ (.inl hstale)
    rwa [clamp_of_mem x.lo_neg.le x.hi_pos.le, sub_zero, abs_zero]
  have hfollow : (ρ.state 1).Following := by
    refine ⟨?_, hrun⟩
    rw [ne_eq, ρ.state_succ, nextState_eq_INIT_iff]
    exact fun h => hstale h.2
  have hlast := x.lastValue_one_of_following ρ hfollow
  obtain ⟨q, hq⟩ := hfin.lastValidCmd 0
  rw [target_entered_zero hstale, hq] at hlast
  by_cases hlost : x = acc ∧ (ρ.observed 0).perceptionLost a.toThresholds
  · rw [if_pos hlost] at hlast
    refine iff_of_true ⟨_, value_sent_fin hrun hlast, ?_⟩ (.inr (.inl hlost))
    rwa [clamp_of_mem x.lo_neg.le x.hi_pos.le, sub_zero, abs_zero]
  · rw [if_neg hlost] at hlast
    simp [value_sent_fin hrun hlast, QuietStart, hstale, hlost, hq]

end Axis

open Axis in
/-- The bound per cycle holds from power-up exactly when the start is quiet. -/
theorem power_up_bound_iff {a : Args} {ρ : GuardRun a} {x : Axis} {r : ℚ}
    (hrate : x.rateLimit a = some (.fin r)) (hr : 0 ≤ r) (hperiod : 0 < a.period)
    (hfin : x.FiniteRequests ρ) :
    x.BoundedFromPowerUp ρ (r * a.period) ↔ x.QuietStart ρ (r * a.period) := by
  rw [← quietStart_iff hfin (mul_nonneg hr hperiod.le)]
  constructor
  · intro h
    exact h.1
  · intro h
    exact ⟨h, fun n hrun => abs_sub_le_step hrate hr hperiod hfin hrun⟩

/-- A limit of 1 degree per cycle, and an angle of 30 degrees requested before the first
cycle. -/
def leapRun : GuardRun { epsRateLimit := some (.fin 100) } :=
  .ofInputs _ (fun n =>
    { now := n / 100
      cmdRead := .ok (some ({ epsCmd := .fin 30 }, 0))
      hbAge := .ok (some 0) }) GuardRun.monotone_tick

/-- The first cycle sends 30 degrees. -/
theorem leap_not_bounded : ¬Axis.eps.BoundedFromPowerUp leapRun (100 * (1 / 100)) := by
  rintro ⟨⟨v, hv, hle⟩, -⟩
  have hsent : Axis.eps.value (leapRun.sent 0).out = .fin 30 := by decide +kernel
  rw [hsent, PyFloat.fin.injEq] at hv
  rw [← hv] at hle
  revert hle
  decide +kernel

theorem power_up_bound_iff_leap :
    Axis.eps.BoundedFromPowerUp leapRun (100 * (1 / 100)) ↔
      Axis.eps.QuietStart leapRun (100 * (1 / 100)) := by
  refine power_up_bound_iff rfl (by norm_num) (by decide +kernel) ?_
  intro n cmd cmdAge hread
  cases hread
  exact ⟨30, rfl⟩

end A1Bsw
