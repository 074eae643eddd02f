import A1Bsw.Limiting

/-!
# The frozen steering angle

Entering HOLDING or DEGRADED freezes the angle requested by the last command,
and commands that arrive later in the same state do not change it
(`GuardRun.frozen_of_since`). A switch between the two states freezes the angle
anew, and a limiter that is still moving when the stay begins keeps moving.
Apart from these two the transmitted angle stays what it was in the first
cycle of the stay (`steering_frozen`).
-/

namespace A1Bsw

namespace GuardRun

variable {a : Args} (ρ : GuardRun a)

/-- The angle that cycle `n` follows in a fallback state. -/
def frozen (n : ℕ) : PyFloat :=
  (ρ.entered n).heldEpsCmd

theorem frozen_eq (n : ℕ) :
    ρ.frozen n =
      if ρ.state (n + 1) = .HOLDING ∧ ρ.state n ≠ .HOLDING ∨
        ρ.state (n + 1) = .DEGRADED ∧ ρ.state n ≠ .DEGRADED then
        (ρ.sensed n).lastValidCmd.epsCmd
      else (ρ.loop n).heldEpsCmd := by
  rw [← ρ.entered_state]
  simp only [frozen, entered, sensed, LoopState.decide, LoopState.transition, LoopState.sense_state,
    LoopState.sense_heldEpsCmd, state]

/-- A cycle that enters a fallback state freezes the requested angle. -/
theorem frozen_of_entry {n : ℕ} (h : (ρ.state (n + 1)).Fallback)
    (hne : ρ.state (n + 1) ≠ ρ.state n) :
    ρ.frozen n = (ρ.sensed n).lastValidCmd.epsCmd := by
  rw [frozen_eq, if_pos]
  rcases h with h | h
  · exact .inl ⟨h, fun h' => hne (h.trans h'.symm)⟩
  · exact .inr ⟨h, fun h' => hne (h.trans h'.symm)⟩

/-- A cycle that stays in its state keeps the frozen angle. -/
theorem frozen_succ_of_eq {n : ℕ} (h : ρ.state (n + 1 + 1) = ρ.state (n + 1)) :
    ρ.frozen (n + 1) = ρ.frozen n := by
  rw [frozen_eq, if_neg, loop_succ]
  · rfl
  · rintro (⟨h1, h2⟩ | ⟨h1, h2⟩)
    · exact h2 (h.symm.trans h1)
    · exact h2 (h.symm.trans h1)

/-- In a fallback state the steering limiter is asked for the frozen angle. -/
theorem target_eps {n : ℕ} (h : (ρ.state (n + 1)).Fallback) :
    Axis.eps.target (ρ.entered n) = ρ.frozen n := by
  have hne : (ρ.entered n).state ≠ .ACTIVE := by
    rw [entered_state]
    rcases h with h | h <;> simp [h]
  exact if_neg hne

/-- Within one of the two states the frozen angle is the one requested at the entry. -/
theorem frozen_of_since {q : State} (hq : q.Fallback) {c n : ℕ}
    (h : Since (fun k => ρ.state k = q) c n) : ρ.frozen n = (ρ.sensed c).lastValidCmd.epsCmd := by
  obtain ⟨d, rfl⟩ := Nat.exists_eq_add_of_le h.le
  induction d with
  | zero =>
    have hq' : ρ.state (c + 1) = q := h.during c le_rfl h.le
    exact ρ.frozen_of_entry (hq' ▸ hq) fun heq => h.before (heq.symm.trans hq')
  | succ d ih =>
    have h1 : ρ.state (c + d + 1) = q := h.during _ (Nat.le_add_right _ _) (Nat.le_succ _)
    have h2 : ρ.state (c + d + 1 + 1) = q := h.during _ h.le le_rfl
    rw [← Nat.add_assoc, ρ.frozen_succ_of_eq (h2.trans h1.symm)]
    exact ih (h.restrict (Nat.le_add_right _ _) (Nat.le_succ _))

/-- The limiter lets the frozen angle through in cycle `n`. -/
def PassesFrozen (n : ℕ) : Prop :=
  (ρ.loop n).epsLimiter.limited (ρ.frozen n) (.fin a.period) = ρ.frozen n

/-- Without a limit every angle is let through. -/
theorem passesFrozen_of_unlimited (h : a.epsRateLimit = none) (n : ℕ) : ρ.PassesFrozen n :=
  RateLimiter.limited_of_unlimited ((Axis.eps.maxDeltaPerS_limiter ρ n).trans h) _ _

/-- What a fallback state transmits. -/
theorem epsCmd_sent {n : ℕ} (h : (ρ.state (n + 1)).Fallback) :
    (ρ.sent n).out.epsCmd = pyClamp (.fin epsCmdMin) (.fin epsCmdMax)
      ((ρ.loop n).epsLimiter.limited (ρ.frozen n) (.fin a.period)) := by
  have hfollow : (ρ.entered n).state.Following := by
    rw [ρ.entered_state]
    exact h.following
  have hlimiter : (ρ.entered n).epsLimiter = (ρ.loop n).epsLimiter := Axis.eps.limiter_entered ρ n
  rw [← ρ.target_eps h, ← hlimiter, sent_eq]
  exact Axis.eps.value_sending_of_following _ hfollow

/-- One angle in the command is one angle on the bus. -/
theorem decode_epsCmd_of_eq {m n : ℕ} (h : (ρ.sent m).out.epsCmd = (ρ.sent n).out.epsCmd) :
    EAIT_Control_02.EPS_Cmd.decode (ρ.sent m).frame157 =
      EAIT_Control_02.EPS_Cmd.decode (ρ.sent n).frame157 := by
  obtain ⟨eps, _, he, ha, -⟩ := (ρ.entered m).control02_sending a.period
  obtain ⟨_, _, -, ha', -⟩ := (ρ.entered n).control02_sending a.period
  rw [← sent_eq] at he ha ha'
  rw [(ρ.control02 he ha).epsCmd, (ρ.control02 (h ▸ he) ha').epsCmd]

/-- What stays frozen in a fallback stay, and what may move. -/
structure SteeringFrozen : Prop where
  /-- Commands that arrive within one state do not change the angle it froze on entry. -/
  frozen : ∀ {q : State} {c n}, q.Fallback → Since (fun k => ρ.state k = q) c n →
    ρ.frozen n = (ρ.sensed c).lastValidCmd.epsCmd
  /-- A stay that begins at its frozen angle, and whose switches find that angle requested,
  transmits one angle. -/
  constant : (∀ r, a.epsRateLimit = some r → ¬r * .fin a.period < .fin 0) →
    ∀ {c n}, Since (fun k => (ρ.state k).Fallback) c n → ρ.PassesFrozen c →
    (∀ k, c ≤ k → k < n → ρ.state (k + 1 + 1) ≠ ρ.state (k + 1) →
      (ρ.sensed (k + 1)).lastValidCmd.epsCmd = ρ.frozen c) →
    ∀ k, c ≤ k → k ≤ n → EAIT_Control_02.EPS_Cmd.decode (ρ.sent k).frame157 =
      EAIT_Control_02.EPS_Cmd.decode (ρ.sent c).frame157
  /-- Without a limit every stay begins at its frozen angle. -/
  unlimited : a.epsRateLimit = none → ∀ n, ρ.PassesFrozen n
  /-- With a limit the angle moves toward the frozen one. -/
  toward : ∀ {r : ℚ}, a.epsRateLimit = some (.fin r) → 0 ≤ r → 0 < a.period →
    Axis.eps.FiniteRequests ρ → ∀ {n}, (ρ.state (n + 1 + 1)).Fallback →
      ∃ before after target, (ρ.sent n).out.epsCmd = .fin before ∧
        (ρ.sent (n + 1)).out.epsCmd = .fin after ∧ ρ.frozen (n + 1) = .fin target ∧
        after ∈ Set.uIcc before (clamp epsCmdMin epsCmdMax target)

end GuardRun

open GuardRun in
/-- The frozen angle of a stay changes only at a switch, and the transmitted angle only toward
the frozen one. -/
theorem steering_frozen {a : Args} (ρ : GuardRun a) : ρ.SteeringFrozen where
  frozen hq h := ρ.frozen_of_since hq h
  constant hlimit {c n} hstay hpass hsame k hck hkn := by
    have hkey : ∀ k, c ≤ k → k ≤ n → ρ.frozen k = ρ.frozen c ∧ ρ.PassesFrozen k := by
      intro k hck
      induction k, hck using Nat.le_induction with
      | base => exact fun _ => ⟨rfl, hpass⟩
      | succ k hck ih =>
        intro hkn
        obtain ⟨hfrozen, hthrough⟩ := ih (k.le_succ.trans hkn)
        have hfall : (ρ.state (k + 1)).Fallback := hstay.during k hck (k.le_succ.trans hkn)
        have hfall' : (ρ.state (k + 1 + 1)).Fallback := hstay.during _ (hck.trans k.le_succ) hkn
        have hnext : ρ.frozen (k + 1) = ρ.frozen c := by
          by_cases heq : ρ.state (k + 1 + 1) = ρ.state (k + 1)
          · rw [ρ.frozen_succ_of_eq heq, hfrozen]
          · rw [ρ.frozen_of_entry hfall' heq, hsame k hck hkn heq]
        refine ⟨hnext, RateLimiter.limited_last ?_ fun r hr => hlimit r ?_⟩
        · have hlast := Axis.eps.lastValue_succ_of_following ρ hfall.following
          rw [ρ.target_eps hfall] at hlast
          exact hlast.trans (by rw [hnext, ← hfrozen]; exact congrArg some hthrough)
        · exact (Axis.eps.maxDeltaPerS_limiter ρ (k + 1)).symm.trans hr
    obtain ⟨hfrozen, hthrough⟩ := hkey k hck hkn
    apply ρ.decode_epsCmd_of_eq
    rw [ρ.epsCmd_sent (hstay.during k hck hkn), ρ.epsCmd_sent (hstay.during c le_rfl hstay.le)]
    rw [hthrough, hpass, hfrozen]
  unlimited h n := ρ.passesFrozen_of_unlimited h n
  toward {r} hrate hr hperiod hfin {n} h := by
    have hrun : ρ.state (n + 1) ≠ .STOPPED := mt ρ.stopped_succ h.following.2
    obtain ⟨m, hm⟩ := hfin.memory hrate hr hperiod hrun
    obtain ⟨t, ht⟩ := hfin.target (n + 1)
    have hm' := Axis.lastValue_move (x := .eps) hrate hr hperiod h.following hm ht
    rw [ρ.target_eps h] at ht
    exact ⟨_, _, t, Axis.value_sent_fin hrun hm, Axis.value_sent_fin h.following.2 hm', ht,
      clamp_moveToward_mem_uIcc (mul_nonneg hr hperiod.le)⟩

/-- No heartbeat ever, and two commands with different angles, the second in DEGRADED. -/
def refreezeRun : GuardRun {} :=
  .ofInputs {} (fun n =>
    { now := n / 100
      cmdRead := .ok (if n = 0 then some ({ epsCmd := .fin 10 }, 0)
        else if n = 1 then some ({ epsCmd := .fin 20 }, 0) else none) }) GuardRun.monotone_tick

/-- No heartbeat ever, a limit of 1 degree per cycle, and an angle of 10 degrees requested from
the second cycle on. -/
def slewRun : GuardRun { epsRateLimit := some (.fin 100) } :=
  .ofInputs _ (fun n =>
    { now := n / 100
      cmdRead := .ok (if n = 0 then none else some ({ epsCmd := .fin 10 }, 0)) })
    GuardRun.monotone_tick

/-- The transmitted angle changes within a stay : at a switch, and under a limit. -/
theorem steering_moves_in_stay :
    (¬∀ c n, Since (fun k => (refreezeRun.state k).Fallback) c n →
      EAIT_Control_02.EPS_Cmd.decode (refreezeRun.sent n).frame157 =
        EAIT_Control_02.EPS_Cmd.decode (refreezeRun.sent c).frame157) ∧
    ¬∀ c n, Since (fun k => (slewRun.state k).Fallback) c n →
      EAIT_Control_02.EPS_Cmd.decode (slewRun.sent n).frame157 =
        EAIT_Control_02.EPS_Cmd.decode (slewRun.sent c).frame157 := by
  constructor
  · intro h
    have hstay : ∀ k < 8, (refreezeRun.state (k + 1)).Fallback := by decide +kernel
    have heq := h 0 7 ⟨by omega, by decide +kernel, fun k _ hk => hstay k (by omega)⟩
    revert heq
    decide +kernel
  · intro h
    have hstay : ∀ k < 3, (slewRun.state (k + 1)).Fallback ∨ k = 0 := by decide +kernel
    have heq := h 1 2 ⟨by omega, by decide +kernel,
      fun k h1 h2 => (hstay k (by omega)).resolve_right (by omega)⟩
    revert heq
    decide +kernel

end A1Bsw
