import A1Bsw.RateBound

/-!
# The ramp of the acceleration

In HOLDING and in DEGRADED the limiter of the acceleration is asked for zero,
whatever it remembers : a request out of range, an infinity or a NaN among
them. With a limit that is not negative each cycle of a stay sends a value
between the one before it and zero (`accCmd_step`), counting the last frame
before the stay. With a negative limit the limiter moves away from its target,
and in some run the first frame of a stay accelerates (`ramps_iff`).
-/

namespace A1Bsw

/-! ## One step of the limiter -/

namespace RateLimiter

variable {l : RateLimiter}

/-- A limit that is not negative is a rational, or no difference exceeds it. -/
theorem fin_or_not_exceeded {r : PyFloat} {dt : ℚ} (hr : ¬r < .fin 0) (hdt : 0 < dt) :
    (∃ q, r = .fin q ∧ 0 ≤ q) ∨ ∀ x, ¬r * .fin dt < x := by
  cases r with
  | fin q => exact .inl ⟨q, rfl, not_lt.1 hr⟩
  | inf =>
    refine .inr fun x => ?_
    rw [PyFloat.inf_mul_fin_of_pos hdt]
    exact PyFloat.not_inf_lt x
  | negInf => exact absurd (PyFloat.negInf_lt_fin 0) hr
  | nan => exact .inr fun x => PyFloat.not_nan_lt x

/-- Asked for zero, a limiter gives zero, keeps its memory, or moves it toward zero. -/
theorem limited_zero_cases {memory : PyFloat} {dt : ℚ} (hl : l.lastValue = some memory)
    (hpos : ∀ r, l.maxDeltaPerS = some r → 0 < dt → ¬r < .fin 0) :
    l.limited (.fin 0) (.fin dt) = .fin 0 ∨ l.limited (.fin 0) (.fin dt) = memory ∨
      ∃ q m, memory = .fin q ∧ 0 ≤ m ∧
        l.limited (.fin 0) (.fin dt) = .fin (moveToward m q 0) := by
  rcases hr : l.maxDeltaPerS with _ | r
  · exact .inl (limited_of_unlimited hr _ _)
  rcases le_or_gt dt 0 with hdt | hdt
  · left
    simp only [limited, hr, hl, PyFloat.fin_le_fin, hdt, if_true]
  obtain ⟨q, rfl, hq⟩ | hnot := fin_or_not_exceeded (hpos r hr hdt) hdt
  swap
  · left
    simp only [limited, hr, hl, hnot, if_false, ite_self]
  -- An infinite memory does not move, and a NaN in it is forgotten.
  cases memory with
  | fin x => exact .inr (.inr ⟨x, q * dt, rfl, mul_nonneg hq hdt.le, limited_fin hq hdt hr hl⟩)
  | inf | negInf =>
    right; left
    simp only [limited, hr, hl, PyFloat.fin_le_fin, hdt.not_ge, if_false]
    rfl
  | nan => exact .inl (limited_of_last_nan hl _ _)

/-- A negative limit drives a limiter away from a target it has reached. -/
theorem limited_zero_of_neg {r : PyFloat} {dt : ℚ} (hl : l.lastValue = some (.fin 0))
    (hr : l.maxDeltaPerS = some r) (hneg : r < .fin 0) (hdt : 0 < dt) :
    ¬l.limited (.fin 0) (.fin dt) ≤ .fin 0 := by
  simp only [limited, hr, hl, PyFloat.fin_le_fin, hdt.not_ge, if_false, PyFloat.fin_sub_fin,
    sub_self, PyFloat.abs_fin, abs_zero, PyFloat.fin_lt_fin, lt_irrefl]
  cases r with
  | fin q =>
    have hq : q * dt < 0 := mul_neg_of_neg_of_pos hneg hdt
    rw [PyFloat.fin_mul_fin, if_pos (PyFloat.fin_lt_fin.2 hq), PyFloat.fin_mul_fin,
      PyFloat.fin_add_fin, PyFloat.fin_le_fin]
    linarith
  | negInf =>
    rw [PyFloat.negInf_mul_fin_of_pos hdt, if_pos (PyFloat.negInf_lt_fin 0)]
    exact id
  | inf => exact absurd hneg (PyFloat.not_inf_lt _)
  | nan => exact absurd hneg (PyFloat.not_nan_lt _)

end RateLimiter

namespace GuardRun

variable {a : Args} (ρ : GuardRun a)

/-! ## One cycle -/

/-- A cycle of a stay sends a value between the one before it and zero. -/
theorem accCmd_step (hpos : ∀ r, a.accRateLimit = some r → 0 < a.period → ¬r < .fin 0) {n : ℕ}
    (h : (ρ.state (n + 1 + 1)).Fallback) :
    ∃ u v, (ρ.sent n).out.accCmd = .fin u ∧ (ρ.sent (n + 1)).out.accCmd = .fin v ∧
      v ∈ Set.uIcc u 0 := by
  have hlo : accCmdMin ≤ 0 := by decide +kernel
  have hhi : 0 ≤ accCmdMax := by decide +kernel
  have hrun : ρ.state (n + 1) ≠ .STOPPED := mt ρ.stopped_succ h.following.2
  obtain ⟨memory, hmem, hu⟩ := Axis.acc.value_sent ρ hrun
  obtain ⟨memory', hmem', hv⟩ := Axis.acc.value_sent ρ h.following.2
  obtain ⟨u, hclamp, -⟩ := PyFloat.pyClamp_mem accCmdMin_le_accCmdMax memory
  rw [Axis.acc.lastValue_succ_of_following ρ h.following, Axis.target_acc h,
    Option.some.injEq] at hmem'
  subst hmem'
  have hlimit : (Axis.acc.limiter (ρ.loop (n + 1))).maxDeltaPerS = a.accRateLimit :=
    Axis.acc.maxDeltaPerS_limiter ρ (n + 1)
  refine ⟨u, ?_⟩
  obtain hz | hkeep | ⟨q, m, rfl, hm, hmove⟩ :=
    RateLimiter.limited_zero_cases hmem (hlimit ▸ hpos)
  · refine ⟨0, hu.trans hclamp, hv.trans ?_, Set.right_mem_uIcc⟩
    rw [hz]
    rfl
  · exact ⟨u, hu.trans hclamp, hv.trans (hkeep ▸ hclamp), Set.left_mem_uIcc⟩
  · rw [PyFloat.pyClamp_fin, PyFloat.fin.injEq] at hclamp
    have hmem : clamp accCmdMin accCmdMax (moveToward m q 0) ∈
        Set.uIcc (clamp accCmdMin accCmdMax q) (clamp accCmdMin accCmdMax 0) :=
      clamp_moveToward_mem_uIcc hm
    rw [clamp_of_mem hlo hhi, clamp, clamp, hclamp] at hmem
    refine ⟨_, hu.trans ?_, hv.trans ?_, hmem⟩
    · rw [← hclamp]
      exact PyFloat.pyClamp_fin _ _ _
    · rw [hmove]
      exact PyFloat.pyClamp_fin _ _ _

/-! ## A whole stay -/

/-- In every stay in HOLDING and DEGRADED no later cycle changes the sign or increases the
magnitude of what an earlier one sent. The last frame before the stay counts as well. -/
def Ramps : Prop :=
  ∀ {c n}, Since (fun k => (ρ.state k).Fallback) c n → ∀ i j, c ≤ i + 1 → i ≤ j → j ≤ n →
    ∃ u v, (ρ.sent i).out.accCmd = .fin u ∧ (ρ.sent j).out.accCmd = .fin v ∧
      0 ≤ u * v ∧ |v| ≤ |u|

theorem accCmd_mem_uIcc (hpos : ∀ r, a.accRateLimit = some r → 0 < a.period → ¬r < .fin 0)
    {c n : ℕ} (h : Since (fun k => (ρ.state k).Fallback) c n) {i j : ℕ} (hi : c ≤ i + 1)
    (hij : i ≤ j) (hj : j ≤ n) :
    ∃ u v, (ρ.sent i).out.accCmd = .fin u ∧ (ρ.sent j).out.accCmd = .fin v ∧
      v ∈ Set.uIcc u 0 := by
  induction j, hij using Nat.le_induction with
  | base =>
    have hin := clampRange_inRange (ρ.entered i |>.policy a.period).out
    rw [← LoopState.sending_out, ← sent_eq] at hin
    obtain ⟨u, hu, -⟩ := hin.accCmd
    exact ⟨u, u, hu, hu, Set.left_mem_uIcc⟩
  | succ j hle ih =>
    obtain ⟨u, v, hu, hv, hmem⟩ := ih (j.le_succ.trans hj)
    obtain ⟨v', w, hv', hw, hmem'⟩ :=
      ρ.accCmd_step hpos (h.during (j + 1) (hi.trans (Nat.succ_le_succ hle)) hj)
    obtain rfl : v = v' := PyFloat.fin.inj (hv.symm.trans hv')
    exact ⟨u, w, hu, hw, Set.uIcc_subset_uIcc hmem Set.right_mem_uIcc hmem'⟩

theorem ramps_of_not_neg (hpos : ∀ r, a.accRateLimit = some r → 0 < a.period → ¬r < .fin 0) :
    ρ.Ramps := by
  intro c n h i j hi hij hj
  obtain ⟨u, v, hu, hv, hmem⟩ := ρ.accCmd_mem_uIcc hpos h hi hij hj
  exact ⟨u, v, hu, hv, decay_of_mem_uIcc_zero hmem⟩

/-! ## Negative limits -/

variable (a)

/-- No command in the first cycle, and afterwards a command in time and no heartbeat. -/
def degradedFromInit : GuardRun a :=
  .ofInputs a (fun n =>
    { now := 0
      cmdRead := .ok (if n = 0 then none else some ({}, a.watchdogT)) }) monotone_const

theorem degradedFromInit_state_one : (degradedFromInit a).state 1 = .INIT := by
  rw [state_succ, nextState_eq_INIT_iff]
  exact ⟨state_zero _, rfl⟩

theorem degradedFromInit_state_two : (degradedFromInit a).state 2 = .DEGRADED := by
  have hfresh : ¬((degradedFromInit a).observed 1).cmdStale a.toThresholds := by
    have hage : ((degradedFromInit a).observed 1).cmdAge = some (0 - (0 - a.watchdogT)) := rfl
    simp [Observation.cmdStale, hage, staleAge]
  rw [state_succ, nextState_eq_DEGRADED_iff, degradedFromInit_state_one]
  exact ⟨by decide, hfresh, rfl, .inl rfl⟩

variable {a}

/-- With a negative limit the first frame of a stay can accelerate. -/
theorem not_ramps_of_neg {r : PyFloat} (hr : a.accRateLimit = some r) (hneg : r < .fin 0)
    (hperiod : 0 < a.period) : ¬(degradedFromInit a).Ramps := by
  intro hramps
  have hinit := degradedFromInit_state_one a
  have hdegraded : ((degradedFromInit a).state 2).Fallback := .inr (degradedFromInit_state_two a)
  have hstay : Since (fun k => ((degradedFromInit a).state k).Fallback) 1 1 :=
    .single (by simp [State.Fallback, hinit]) hdegraded
  obtain ⟨u, v, hu, hv, -, hle⟩ := hramps hstay 0 1 le_rfl zero_le_one le_rfl
  -- The frame before the stay is that of INIT, so this one would have to be zero.
  rw [sent_of_init _ hinit] at hu
  obtain rfl : 0 = u := PyFloat.fin.inj hu
  rw [abs_zero, abs_nonpos_iff] at hle
  subst hle
  obtain ⟨memory, hmem, hout⟩ := Axis.acc.value_sent _ hdegraded.following.2
  rw [Axis.acc.lastValue_succ_of_following _ hdegraded.following, Axis.target_acc hdegraded,
    Option.some.injEq] at hmem
  have hzero : memory ≤ .fin 0 :=
    (PyFloat.pyClamp_le_iff Axis.acc.lo_neg.le Axis.acc.hi_pos (hout.symm.trans hv)).1 le_rfl
  rw [← hmem] at hzero
  exact RateLimiter.limited_zero_of_neg (Axis.acc.lastValue_succ_of_init _ hinit)
    ((Axis.acc.maxDeltaPerS_limiter _ 1).trans hr) hneg hperiod hzero

end GuardRun

/-- The acceleration ramps in every run exactly when the limit is not negative. A NaN and an
infinite limit are not, and without a positive period the limit is not used. -/
theorem ramps_iff (a : Args) :
    (∀ ρ : GuardRun a, ρ.Ramps) ↔
      ¬∃ r, a.accRateLimit = some r ∧ r < .fin 0 ∧ 0 < a.period := by
  constructor
  · rintro hramps ⟨r, hr, hneg, hperiod⟩
    exact GuardRun.not_ramps_of_neg hr hneg hperiod (hramps _)
  · intro hnot ρ
    exact ρ.ramps_of_not_neg fun r hr hperiod hneg => hnot ⟨r, hr, hneg, hperiod⟩

/-- A limit of -1 (m/s²)/s. -/
theorem negative_limit_accelerates :
    ¬∀ ρ : GuardRun { accRateLimit := some (.fin (-1)) }, ρ.Ramps := fun hramps =>
  GuardRun.not_ramps_of_neg rfl (by decide +kernel) (by decide +kernel) (hramps _)

end A1Bsw
