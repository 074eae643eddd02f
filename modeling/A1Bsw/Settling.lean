import A1Bsw.UntrustedDriving
import A1Bsw.Violations

/-!
# The end of the ramp

In HOLDING and in DEGRADED a limited acceleration goes to zero in steps of
`acc_rate_limit` times the period, one for each cycle, and STOPPED sends zero at
once. So the end of a stay is a jump, unless the ramp is over by then. How many
cycles a stay has depends on how far they are apart, and the ramp is over if the
largest acceleration of the range takes no more of them than the limit of the
stay has (`ramps_out`).
-/

namespace A1Bsw

namespace GuardRun

variable {a : Args} {ρ : GuardRun a} {r : ℚ}

theorem InRangeRequests.finite (h : ρ.InRangeRequests) (x : Axis) : x.FiniteRequests ρ := by
  intro n cmd cmdAge hread
  cases x
  · obtain ⟨q, hq, -⟩ := (h hread).epsCmd
    exact ⟨q, hq⟩
  · obtain ⟨q, hq, -⟩ := (h hread).accCmd
    exact ⟨q, hq⟩

/-- With requests in range the memory of a limiter is what was sent. -/
theorem InRangeRequests.exists_memory (h : ρ.InRangeRequests) {x : Axis}
    (hrate : x.rateLimit a = some (.fin r)) (hr : 0 ≤ r) (hperiod : 0 < a.period) {n : ℕ}
    (hrun : ρ.state (n + 1) ≠ .STOPPED) :
    ∃ m, x.lo ≤ m ∧ m ≤ x.hi ∧ (x.limiter (ρ.loop (n + 1))).lastValue = some (.fin m) ∧
      x.value (ρ.sent n).out = .fin m := by
  have hfin : x.FiniteRequests ρ := h.finite x
  obtain ⟨m, hm⟩ := hfin.memory hrate hr hperiod hrun
  obtain ⟨m', heq, hlo, hhi⟩ := h.memory (x := x) (fun r' hr' _ => by
    rw [hrate, Option.some.injEq] at hr'
    rw [← hr', PyFloat.fin_lt_fin, not_lt]
    exact hr) (n + 1) _ hm
  obtain rfl := PyFloat.fin.inj heq
  refine ⟨m, hlo, hhi, hm, ?_⟩
  rw [Axis.value_sent_fin hrun hm, clamp_of_mem hlo hhi]

/-- What a stay in HOLDING and DEGRADED sends, from what was sent before it. A stay that begins
with the run begins at zero. -/
theorem accCmd_of_stay (h : ρ.InRangeRequests) (hrate : a.accRateLimit = some (.fin r))
    (hr : 0 ≤ r) (hperiod : 0 < a.period) {c n : ℕ} (hcn : c ≤ n)
    (hstay : ∀ k, c ≤ k → k ≤ n → (ρ.state (k + 1)).Fallback) :
    ∃ m, accCmdMin ≤ m ∧ m ≤ accCmdMax ∧ (c = 0 → m = 0) ∧
      (∀ k, c = k + 1 → (ρ.sent k).out.accCmd = .fin m) ∧
      (ρ.sent n).out.accCmd = .fin (moveToward ((n + 1 - c : ℕ) * (r * a.period)) m 0) := by
  have hstep : 0 ≤ r * a.period := mul_nonneg hr hperiod.le
  have hrun : ρ.state (n + 1) ≠ .STOPPED := (hstay n hcn le_rfl).following.2
  -- The values on the way to zero are in range, so the clamp keeps them.
  have hsent {m : ℚ} {N : ℕ} (hlo : accCmdMin ≤ m) (hhi : m ≤ accCmdMax)
      (hm : (Axis.acc.limiter (ρ.loop (n + 1))).lastValue =
        some (.fin ((moveToward (r * a.period) · 0)^[N] m))) :
      (ρ.sent n).out.accCmd = .fin (moveToward (N * (r * a.period)) m 0) := by
    have hzero : accCmdMin ≤ 0 ∧ 0 ≤ accCmdMax := ⟨by decide +kernel, by decide +kernel⟩
    rw [moveToward_iterate hstep] at hm
    refine (Axis.value_sent_fin hrun hm).trans ?_
    have hmem := moveToward_mem_uIcc (x := m) (t := 0) (mul_nonneg N.cast_nonneg hstep)
    rw [Set.mem_uIcc] at hmem
    rw [clamp_of_mem]
    · rcases hmem with hmem | hmem
      · exact hlo.trans hmem.1
      · exact hzero.1.trans hmem.1
    · rcases hmem with hmem | hmem
      · exact hmem.2.trans hzero.2
      · exact hmem.2.trans hhi
  cases c with
  | zero =>
    have hone := Axis.acc.lastValue_one_of_following ρ (hstay 0 le_rfl hcn).following
    rw [Axis.target_acc (hstay 0 le_rfl hcn)] at hone
    have hm := Axis.lastValue_ramp hrate hr hperiod hone n fun j hj =>
      hstay (0 + 1 + j) (Nat.zero_le _) (by omega)
    have hzero (N : ℕ) : moveToward (N * (r * a.period)) 0 0 = 0 :=
      (moveToward_eq_target_iff (mul_nonneg N.cast_nonneg hstep)).2 (by
        rw [sub_zero, abs_zero]
        exact mul_nonneg N.cast_nonneg hstep)
    rw [show 0 + 1 + n = n + 1 by omega] at hm
    refine ⟨0, by decide +kernel, by decide +kernel, fun _ => rfl,
      fun k hk => absurd hk (by omega), ?_⟩
    rw [hsent (by decide +kernel) (by decide +kernel) hm, hzero, hzero]
  | succ k =>
    obtain ⟨N, rfl⟩ := Nat.exists_eq_add_of_le hcn
    have hbefore : ρ.state (k + 1) ≠ .STOPPED :=
      mt ρ.stopped_succ (hstay (k + 1) le_rfl hcn).following.2
    obtain ⟨m, hlo, hhi, hm, hout⟩ := h.exists_memory (x := .acc) hrate hr hperiod hbefore
    have hlast := Axis.lastValue_ramp hrate hr hperiod hm (N + 1) fun j hj =>
      hstay (k + 1 + j) (by omega) (by omega)
    rw [show k + 1 + (N + 1) = k + 1 + N + 1 by omega] at hlast
    refine ⟨m, hlo, hhi, fun hk => absurd hk k.succ_ne_zero, fun j hj => ?_, ?_⟩
    · obtain rfl : k = j := by omega
      exact hout
    · rw [hsent hlo hhi hlast, show k + 1 + N + 1 - (k + 1) = N + 1 by omega]

/-- Cycles that are at most `g` apart add up. -/
theorem now_le_add {g : ℚ} (hgap : ∀ k, ρ.now (k + 1) ≤ ρ.now k + g) {c n : ℕ} (hcn : c ≤ n) :
    ρ.now n ≤ ρ.now c + (n - c : ℕ) * g := by
  induction n, hcn using Nat.le_induction with
  | base => rw [Nat.sub_self, Nat.cast_zero, zero_mul, add_zero]
  | succ n hcn ih =>
    have hstep := hgap n
    rw [Nat.succ_sub hcn]
    push_cast
    linarith

/-- A stay that has lasted as long as the largest acceleration needs sends zero. -/
theorem accCmd_zero_of_long (h : ρ.InRangeRequests) (hrate : a.accRateLimit = some (.fin r))
    (hr : 0 < r) (hperiod : 0 < a.period) {g limit : ℚ}
    (hgap : ∀ k, ρ.now (k + 1) ≤ ρ.now k + g) (hramp : -accCmdMin * g ≤ r * a.period * limit)
    (hlimit : 0 < limit) {q : State} (hq : q.Fallback) {c n : ℕ}
    (hstay : Since (fun k => ρ.state k = q) c n) (hlong : limit ≤ ρ.now (n + 1) - ρ.now c) :
    (ρ.sent n).out.accCmd = .fin 0 := by
  have hstep : 0 < r * a.period := mul_pos hr hperiod
  obtain ⟨m, hlo, hhi, -, -, hsent⟩ := accCmd_of_stay h hrate hr.le hperiod hstay.le
    fun k hck hkn => (hstay.during k hck hkn).symm ▸ hq
  have htime := now_le_add hgap (hstay.le.trans n.le_succ)
  rw [Nat.succ_eq_add_one] at htime
  have hgaps : limit ≤ (n + 1 - c : ℕ) * g := by linarith
  have hg : 0 < g := by
    by_contra hle
    have := mul_nonpos_of_nonneg_of_nonpos (n + 1 - c : ℕ).cast_nonneg (not_lt.1 hle)
    linarith
  -- The stay has more cycles than the ramp has steps.
  have hsteps : -accCmdMin ≤ (n + 1 - c : ℕ) * (r * a.period) := by
    refine le_of_mul_le_mul_right ?_ hg
    have := mul_le_mul_of_nonneg_left hgaps hstep.le
    linarith
  have habs : |0 - m| ≤ (n + 1 - c : ℕ) * (r * a.period) := by
    have hmax : accCmdMax ≤ -accCmdMin := by decide +kernel
    rw [zero_sub, abs_neg, abs_le]
    constructor <;> linarith
  rw [hsent, (moveToward_eq_target_iff (mul_nonneg (Nat.cast_nonneg _) hstep.le)).2 habs]

variable (ρ) in
/-- How a limited acceleration ends. -/
structure RampsOut (r : ℚ) : Prop where
  /-- Every stay goes to zero in equal steps from what was sent before it, and stays there. A stay
  that begins with the run begins at zero. -/
  profile : ∀ {c n}, c ≤ n → (∀ k, c ≤ k → k ≤ n → (ρ.state (k + 1)).Fallback) →
    ∃ m, accCmdMin ≤ m ∧ m ≤ accCmdMax ∧ (c = 0 → m = 0) ∧
      (∀ k, c = k + 1 → (ρ.sent k).out.accCmd = .fin m) ∧
      (ρ.sent n).out.accCmd = .fin (moveToward ((n + 1 - c : ℕ) * (r * a.period)) m 0)
  /-- A stop that is not due to the speed of the vehicle finds the ramp at its end, if the limit
  of the stay has cycles enough for it. -/
  smooth : ∀ {g}, (∀ k, ρ.now (k + 1) ≤ ρ.now k + g) →
    -accCmdMin * g ≤ r * a.period * a.stoppedAfter →
    -accCmdMin * g ≤ r * a.period * a.perceptionLostStoppedAfter → ∀ {n},
      ρ.state (n + 1) ≠ .STOPPED → ρ.state (n + 1 + 1) = .STOPPED →
      ¬(ρ.observed (n + 1)).vehicleNearStop a.toThresholds →
        (ρ.sent n).out.accCmd = .fin 0 ∧ (ρ.sent (n + 1)).out.accCmd = .fin 0

end GuardRun

open GuardRun in
/-- With a limit, and requests in range, the acceleration of every stay goes to zero in equal
steps, and is there when the stay has lasted for its limit. -/
theorem ramps_out {a : Args} {ρ : GuardRun a} {r : ℚ} (h : ρ.InRangeRequests)
    (hrate : a.accRateLimit = some (.fin r)) (hr : 0 < r) (hperiod : 0 < a.period)
    (hS : 0 < a.stoppedAfter) (hP : 0 < a.perceptionLostStoppedAfter) : ρ.RampsOut r where
  profile := accCmd_of_stay h hrate hr.le hperiod
  smooth := by
    intro g hgap hH hD n hrun hstop hmoving
    refine ⟨?_, by rw [ρ.sent_of_stopped hstop]; rfl⟩
    have hlimit {duration : Option ℚ} {limit : ℚ}
        (hdue : dueStop duration limit ((ρ.observed (n + 1)).vehicleNearStop a.toThresholds)) :
        ∃ d, duration = some d ∧ limit ≤ d := by
      cases duration with
      | none => exact absurd hdue Bool.false_ne_true
      | some d =>
        simp only [dueStop, Bool.or_eq_true, decide_eq_true_eq] at hdue
        exact ⟨d, rfl, hdue.resolve_right hmoving⟩
    rw [ρ.state_succ, nextState_eq_STOPPED_iff] at hstop
    rcases (hstop.resolve_left hrun).2 with ⟨-, hdue⟩ | ⟨-, -, hdue⟩
    · obtain ⟨d, hd, hle⟩ := hlimit hdue
      have hstate : ρ.state (n + 1) = .HOLDING := by
        by_contra hne
        rw [ρ.holdingDuration_of_ne hne, Option.some.injEq] at hd
        linarith
      obtain ⟨c, hc⟩ : ∃ c, Since (fun k => ρ.state k = .HOLDING) c n :=
        Since.exists_of_holds (by rw [ρ.state_zero]; decide) hstate
      rw [ρ.holdingDuration_of_since hc, Option.some.injEq] at hd
      exact accCmd_zero_of_long h hrate hr hperiod hgap hH hS (.inl rfl) hc (hd ▸ hle)
    · obtain ⟨d, hd, hle⟩ := hlimit hdue
      have hstate : ρ.state (n + 1) = .DEGRADED := by
        by_contra hne
        rw [ρ.degradedDuration_of_ne hne, Option.some.injEq] at hd
        linarith
      obtain ⟨c, hc⟩ : ∃ c, Since (fun k => ρ.state k = .DEGRADED) c n :=
        Since.exists_of_holds (by rw [ρ.state_zero]; decide) hstate
      rw [ρ.degradedDuration_of_since hc, Option.some.injEq] at hd
      exact accCmd_zero_of_long h hrate hr hperiod hgap hD hP (.inr rfl) hc (hd ▸ hle)

/-- A limit of 0.1 m/s² per cycle, one command of 1 m/s², and half a second to the stop. -/
def brakingRun : GuardRun { accRateLimit := some (.fin 10), stoppedAfter := 1 / 2 } :=
  .ofInputs _ (fun n =>
    { now := n / 100
      cmdRead := .ok (if n = 0 then some ({ accCmd := .fin 1 }, 0) else none)
      hbAge := .ok (some 0) }) GuardRun.monotone_tick

/-- HOLDING begins in cycle 6 and ends in cycle 56. -/
theorem ramps_out_braking :
    brakingRun.RampsOut 10 ∧ brakingRun.state 6 = .ACTIVE ∧ brakingRun.state 56 = .HOLDING ∧
      brakingRun.state 57 = .STOPPED := by
  have hreq : brakingRun.InRangeRequests := by
    intro n cmd cmdAge hread
    have hget : (if n = 0 then some (({ accCmd := .fin 1 } : Command), (0 : ℚ)) else none) =
        some (cmd, cmdAge) := Except.ok.inj hread
    split_ifs at hget
    cases hget
    exact { GuardRun.default_inRange with
      accCmd := ⟨1, rfl, by decide +kernel, by decide +kernel⟩ }
  exact ⟨ramps_out hreq rfl (by norm_num) (by decide +kernel) (by decide +kernel)
    (by decide +kernel), by decide +kernel, by decide +kernel, by decide +kernel⟩

end A1Bsw
