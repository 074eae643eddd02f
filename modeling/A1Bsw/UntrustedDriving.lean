import A1Bsw.GuardLoop

/-!
# Driving without a trusted command

HOLDING and DEGRADED each have a limit on how long they last, and each
measures from its own entry. So one stay outside ACTIVE is bounded by the
two limits together only if no switch between the two comes late
(`untrusted_driving_lt`) : a switch restarts the clock, however long the stay
already is. `intermittentRun` is in DEGRADED for 60 ms and in HOLDING for 40 ms in turn,
and never stops.
-/

namespace A1Bsw

/-- A duration that does not stop the vehicle is under its limit, and the vehicle moves. -/
theorem not_dueStop_iff {d limit : ℚ} {near : Bool} :
    ¬dueStop (some d) limit near ↔ d < limit ∧ ¬near := by
  simp only [dueStop, Bool.or_eq_true, decide_eq_true_eq, not_or, not_le]

namespace GuardRun

variable {a : Args} (ρ : GuardRun a)

/-- A stay in HOLDING alone is shorter than its limit. -/
theorem holding_lt (hS : 0 < a.stoppedAfter) {c n : ℕ}
    (h : Since (fun k => ρ.state k = .HOLDING) c n) : ρ.now n - ρ.now c < a.stoppedAfter := by
  refine h.elapsed_lt hS fun {c m} hstay hnext => ?_
  rw [state_succ, nextState_eq_HOLDING_iff, ρ.holdingDuration_of_since hstay] at hnext
  exact (not_dueStop_iff.1 hnext.2.2.2).1

/-- A stay in DEGRADED alone is shorter than its limit. -/
theorem degraded_lt (hP : 0 < a.perceptionLostStoppedAfter) {c n : ℕ}
    (h : Since (fun k => ρ.state k = .DEGRADED) c n) :
    ρ.now n - ρ.now c < a.perceptionLostStoppedAfter := by
  refine h.elapsed_lt hP fun {c m} hstay hnext => ?_
  have hprev : ρ.state (m + 1) = .DEGRADED := hstay.during m hstay.le le_rfl
  rw [state_succ, nextState_eq_DEGRADED_iff, ρ.degradedDuration_of_since hstay, hprev] at hnext
  exact (not_dueStop_iff.1 (hnext.2.2.2.resolve_left (by simp))).1

/-! ## Switches -/

/-- Every switch between HOLDING and DEGRADED finds the stay no longer than the limit of the
state it leaves. Unless the vehicle is near a stop, the command coming back leads from HOLDING
to DEGRADED while perception is lost, and a stale command leads from DEGRADED to HOLDING. -/
structure SwitchesInTime : Prop where
  toDegraded : ∀ {c n}, Since (fun k => (ρ.state k).Fallback) c n → ρ.state (n + 1) = .HOLDING →
    ¬(ρ.observed (n + 1)).cmdStale a.toThresholds →
    (ρ.observed (n + 1)).perceptionLost a.toThresholds →
    ¬(ρ.observed (n + 1)).vehicleNearStop a.toThresholds →
      ρ.now (n + 1) - ρ.now c ≤ a.stoppedAfter
  toHolding : ∀ {c n}, Since (fun k => (ρ.state k).Fallback) c n → ρ.state (n + 1) = .DEGRADED →
    (ρ.observed (n + 1)).cmdStale a.toThresholds →
    ¬(ρ.observed (n + 1)).vehicleNearStop a.toThresholds →
      ρ.now (n + 1) - ρ.now c ≤ a.perceptionLostStoppedAfter

variable {ρ}

/-- The time before the last entry into HOLDING is within the limit of DEGRADED. -/
theorem SwitchesInTime.before_holding (h : ρ.SwitchesInTime)
    (hP : 0 < a.perceptionLostStoppedAfter) {c d n : ℕ}
    (hc : Since (fun k => (ρ.state k).Fallback) c n)
    (hd : Since (fun k => ρ.state k = .HOLDING) d n) :
    ρ.now d - ρ.now c ≤ a.perceptionLostStoppedAfter := by
  refine Since.elapsed_before .inl hP.le (fun {m} hm hbefore hnext => ?_) hc hd
  have hmode : ρ.state (m + 1) = .DEGRADED := (hm.during m hm.le le_rfl).resolve_left hbefore
  rw [state_succ, nextState_eq_HOLDING_iff, ρ.holdingDuration_of_ne hbefore,
    not_dueStop_iff] at hnext
  exact h.toHolding hm hmode hnext.2.2.1 hnext.2.2.2.2

/-- The time before the last entry into DEGRADED is within the limit of HOLDING. -/
theorem SwitchesInTime.before_degraded (h : ρ.SwitchesInTime) (hS : 0 < a.stoppedAfter) {c d n : ℕ}
    (hc : Since (fun k => (ρ.state k).Fallback) c n)
    (hd : Since (fun k => ρ.state k = .DEGRADED) d n) :
    ρ.now d - ρ.now c ≤ a.stoppedAfter := by
  refine Since.elapsed_before .inr hS.le (fun {m} hm hbefore hnext => ?_) hc hd
  have hmode : ρ.state (m + 1) = .HOLDING := (hm.during m hm.le le_rfl).resolve_right hbefore
  rw [state_succ, nextState_eq_DEGRADED_iff, ρ.degradedDuration_of_ne hbefore, hmode,
    not_dueStop_iff] at hnext
  exact h.toDegraded hm hmode hnext.2.1 hnext.2.2.1 (hnext.2.2.2.resolve_left (by simp)).2

end GuardRun

open GuardRun in
/-- A stay outside ACTIVE whose switches come in time is shorter than the two limits together. -/
theorem untrusted_driving_lt {a : Args} (hS : 0 < a.stoppedAfter)
    (hP : 0 < a.perceptionLostStoppedAfter) (ρ : GuardRun a) (h : ρ.SwitchesInTime) {j i : ℕ}
    (hji : j ≤ i) (hstay : ∀ k, j ≤ k → k ≤ i → (ρ.state (k + 1)).Fallback) :
    ρ.now i - ρ.now j < a.stoppedAfter + a.perceptionLostStoppedAfter := by
  obtain ⟨c, hc⟩ : ∃ c, Since (fun k => (ρ.state k).Fallback) c i :=
    Since.exists_of_holds (by simp [state_zero, State.Fallback]) (hstay i hji le_rfl)
  have hnow := ρ.now_le (hc.le_of_during hstay)
  rcases hstay i hji le_rfl with hmode | hmode
  · obtain ⟨d, hd⟩ : ∃ d, Since (fun k => ρ.state k = .HOLDING) d i :=
      Since.exists_of_holds (by simp [state_zero]) hmode
    have h1 := h.before_holding hP hc hd
    have h2 := ρ.holding_lt hS hd
    linarith
  · obtain ⟨d, hd⟩ : ∃ d, Since (fun k => ρ.state k = .DEGRADED) d i :=
      Since.exists_of_holds (by simp [state_zero]) hmode
    have h1 := h.before_degraded hS hc hd
    have h2 := ρ.degraded_lt hP hd
    linarith

/-- No heartbeat ever, and a command every 100 ms. -/
def intermittentRun : GuardRun {} :=
  .ofInputs {} (fun n =>
    { now := n / 100, cmdRead := .ok (if n % 10 = 0 then some ({}, 0) else none) })
    GuardRun.monotone_tick

set_option maxRecDepth 100000 in
/-- After four seconds the intermittent run is still driving. -/
theorem intermittent_driving_ge :
    ¬∀ j i, j ≤ i → (∀ k, j ≤ k → k ≤ i → (intermittentRun.state (k + 1)).Fallback) →
      intermittentRun.now i - intermittentRun.now j <
        defaultStoppedAfter + defaultPerceptionLostStoppedAfter := by
  intro h
  have hstay : ∀ k < 401, (intermittentRun.state (k + 1)).Fallback := by decide +kernel
  have hlt := h 0 400 (by omega) fun k _ hk => hstay k (by omega)
  revert hlt
  decide +kernel

/-- No heartbeat ever, and two commands 100 ms apart. -/
def twoCommandRun : GuardRun {} :=
  .ofInputs {} (fun n =>
    { now := n / 100
      cmdRead := .ok (if n = 0 ∨ n = 10 then some ({}, 0) else none) })
    GuardRun.monotone_tick

theorem twoCommandRun_lastCmdMono {n : ℕ} (hn : 10 ≤ n) :
    (twoCommandRun.sensed n).lastCmdMono = some (1 / 10) := by
  induction n, hn using Nat.le_induction with
  | base => decide +kernel
  | succ n hn ih =>
    have hread : (twoCommandRun.input (n + 1)).cmdRead = .ok none :=
      congrArg Except.ok (if_neg (by omega))
    obtain ⟨cmd, cmdAge, hr, -⟩ | ⟨-, -, hmono⟩ :=
      (twoCommandRun.loop (n + 1)).sense_command (twoCommandRun.input (n + 1))
    · rw [hread] at hr
      cases hr
    · rw [GuardRun.sensed, hmono, GuardRun.loop_succ]
      exact ih

/-- From cycle 16 on the second command is stale. -/
theorem twoCommandRun_cmdStale {n : ℕ} (hn : 16 ≤ n) :
    (twoCommandRun.observed n).cmdStale {} := by
  have hnow : (16 : ℚ) / 100 ≤ n / 100 := by
    have hcast : (16 : ℚ) ≤ n := by exact_mod_cast hn
    linarith
  have hstale : defaultWatchdogT < twoCommandRun.now n - 1 / 10 := by
    have hlimit : defaultWatchdogT < 16 / 100 - 1 / 10 := by decide +kernel
    exact hlimit.trans_le (sub_le_sub_right hnow _)
  have hmono := twoCommandRun_lastCmdMono (show 10 ≤ n by omega)
  simpa [Observation.cmdStale, GuardRun.observed, LoopState.observe, hmono, staleAge] using hstale

/-- The guard is in DEGRADED, HOLDING, DEGRADED and HOLDING, and every switch comes in time. -/
theorem twoCommandRun_switchesInTime : twoCommandRun.SwitchesInTime := by
  have hearly : ∀ c n : ℕ, n + 1 ≤ 16 →
      twoCommandRun.now (n + 1) - twoCommandRun.now c ≤ 16 / 100 := by
    intro c n hn
    have hcast : ((n + 1 : ℕ) : ℚ) ≤ 16 := by exact_mod_cast hn
    show ((n + 1 : ℕ) : ℚ) / 100 - (c : ℚ) / 100 ≤ 16 / 100
    linarith [(c.cast_nonneg : (0 : ℚ) ≤ c)]
  constructor
  · intro c n _ _ hfresh _ _
    have hn : n + 1 ≤ 16 := by
      by_contra hlate
      exact hfresh (twoCommandRun_cmdStale (by omega))
    exact (hearly c n hn).trans (by decide +kernel)
  · intro c n _ hdegraded _ _
    have hn : n + 1 ≤ 16 := by
      by_contra hlate
      rw [GuardRun.state_succ, nextState_eq_DEGRADED_iff] at hdegraded
      exact hdegraded.2.1 (twoCommandRun_cmdStale (by omega))
    exact (hearly c n hn).trans (by decide +kernel)

theorem untrusted_driving_lt_switching :
    (twoCommandRun.state 6 = .DEGRADED ∧ twoCommandRun.state 7 = .HOLDING ∧
      twoCommandRun.state 11 = .DEGRADED ∧ twoCommandRun.state 17 = .HOLDING) ∧
    twoCommandRun.now 40 - twoCommandRun.now 0 <
      defaultStoppedAfter + defaultPerceptionLostStoppedAfter := by
  have hstay : ∀ k < 41, (twoCommandRun.state (k + 1)).Fallback := by decide +kernel
  exact ⟨by decide +kernel, untrusted_driving_lt (by decide +kernel) (by decide +kernel)
    twoCommandRun twoCommandRun_switchesInTime (by omega) fun k _ hk => hstay k (by omega)⟩

end A1Bsw
