import A1Bsw.LastGate

/-!
# Order of the states and enable flags

Over a run the states are INIT, then any mixture of the three following
states, then STOPPED (`GuardRun.Gated.shape`). An enable flag on the bus
comes from a command that was read while it was fresh, and nothing is
enabled from the first STOPPED cycle on (`enable_gating`).

STOPPED is also entered straight from ACTIVE. In ACTIVE both durations are
zero, so their limits are not reached, but a speed under the stop speed is
enough once the command is stale or perception is lost
(`stop_from_active`).
-/

namespace A1Bsw

namespace GuardRun

variable {a : Args} (ρ : GuardRun a)

/-! ## Shape of a run -/

/-- INIT is an initial stretch, STOPPED is the rest after one. -/
theorem exists_shape :
    ∃ i k : ℕ∞, i ≤ k ∧ ∀ n : ℕ,
      (ρ.state n = .INIT ↔ (n : ℕ∞) < i) ∧ (ρ.state n = .STOPPED ↔ k ≤ n) := by
  obtain ⟨i, hi⟩ := exists_cut (p := fun n => ρ.state n = .INIT) fun _ => ρ.init_of_succ
  obtain ⟨k, hk⟩ := exists_cut (p := fun n => ρ.state n ≠ .STOPPED) fun _ => mt ρ.stopped_succ
  refine ⟨i, k, ?_, fun n => ⟨hi n, by rw [← not_lt, ← hk n, ne_eq, not_not]⟩⟩
  by_contra hlt
  rw [not_le] at hlt
  obtain ⟨n, rfl⟩ := ENat.ne_top_iff_exists.1 hlt.ne_top
  have hinit := (hi n).2 hlt
  have hstop : ρ.state n ≠ .STOPPED := by simp [hinit]
  exact lt_irrefl _ ((hk n).1 hstop)

/-- A cycle that does not end in INIT comes after one that found a fresh command. -/
theorem exists_fresh_of_ne_init {n : ℕ} (h : ρ.state (n + 1) ≠ .INIT) :
    ∃ m ≤ n, ¬(ρ.observed m).cmdStale a.toThresholds := by
  have hleave : ∀ k, ρ.state (k + 1) ≠ .INIT → ρ.state k = .INIT →
      ¬(ρ.observed k).cmdStale a.toThresholds := by
    intro k hk hinit hstale
    rw [ne_eq, state_succ, nextState_eq_INIT_iff] at hk
    exact hk ⟨hinit, hstale⟩
  refine exists_origin (p := fun k => ρ.state (k + 1) ≠ .INIT)
    (fun h0 => hleave 0 h0 ρ.state_zero) (fun k hk => ?_) h
  by_cases hinit : ρ.state (k + 1) = .INIT
  · exact .inl (hleave (k + 1) hk hinit)
  · exact .inr hinit

/-! ## Enable flags -/

/-- A state that sends an enable flag follows a target. -/
theorem following_of_enabled {n : ℕ} (h : (ρ.sent n).out.epsEn ∨ (ρ.sent n).out.accEn) :
    (ρ.state (n + 1)).Following := by
  constructor
  · intro hinit
    rw [ρ.sent_of_init hinit] at h
    simp at h
  · intro hstop
    rw [ρ.sent_of_stopped hstop] at h
    simp [clampRange] at h

/-- What an enabled cycle has behind it : a command read while it was fresh, and no stop. -/
structure Trusted (n : ℕ) : Prop where
  fresh : ∃ m ≤ n, ∃ cmd cmdAge, (ρ.input m).cmdRead = .ok (some (cmd, cmdAge)) ∧
    cmdAge ≤ a.watchdogT
  running : ∀ k ≤ n + 1, ρ.state k ≠ .STOPPED

theorem trusted_of_following {n : ℕ} (h : (ρ.state (n + 1)).Following) : ρ.Trusted n where
  fresh := by
    obtain ⟨m, hmn, hfresh⟩ := ρ.exists_fresh_of_ne_init h.1
    obtain ⟨k, hkm, cmdAge, hage, hread⟩ := ρ.exists_fresh_read hfresh
    have hnow := ρ.now_le hkm
    exact ⟨k, hkm.trans hmn, _, cmdAge, hread, by linarith⟩
  running k hk hstop := h.2 (ρ.stopped_of_le hk hstop)

/-- The frames of a cycle that enable and move nothing. -/
structure SendsNothing (n : ℕ) : Prop where
  epsEn : EAIT_Control_01.EPS_En.decode (ρ.sent n).frame156 = 0
  accEn : EAIT_Control_01.ACC_En.decode (ρ.sent n).frame156 = 0
  epsCmd : EAIT_Control_02.EPS_Cmd.decode (ρ.sent n).frame157 = 0
  accCmd : EAIT_Control_02.ACC_Cmd.decode (ρ.sent n).frame157 = 0

theorem sendsNothing_of_stopped {n : ℕ} (h : ρ.state (n + 1) = .STOPPED) : ρ.SendsNothing n := by
  have hout := ρ.sent_of_stopped h
  have heps : (ρ.sent n).out.epsCmd = .fin 0 := by
    rw [hout]
    rfl
  have hacc : (ρ.sent n).out.accCmd = .fin 0 := by
    rw [hout]
    rfl
  obtain ⟨_, _, -, -, h01⟩ := ρ.control01 n
  have h02 := ρ.control02 heps hacc
  refine ⟨?_, ?_, ?_, ?_⟩
  · rw [h01.epsEn, hout]
    rfl
  · rw [h01.accEn, hout]
    rfl
  · have hraw : roundHalfEven (0 / (1 / 10)) = 0 := by decide +kernel
    rw [h02.epsCmd, hraw]
    norm_num
  · have hraw : roundHalfEven ((0 - accCmdOffset) / (1 / 100)) = 1023 := by decide +kernel
    rw [h02.accCmd, hraw, accCmdOffset]
    norm_num

/-- The guard's gating : the order of the states, the enable flags on the bus, and the stop. -/
structure Gated : Prop where
  shape : ∃ i k : ℕ∞, i ≤ k ∧ ∀ n : ℕ,
    (ρ.state n = .INIT ↔ (n : ℕ∞) < i) ∧ (ρ.state n = .STOPPED ↔ k ≤ n)
  epsEn : ∀ n, EAIT_Control_01.EPS_En.decode (ρ.sent n).frame156 = 1 →
    ρ.Trusted n ∧ (ρ.sensed n).lastValidCmd.epsEn
  accEn : ∀ n, EAIT_Control_01.ACC_En.decode (ρ.sent n).frame156 = 1 →
    ρ.Trusted n ∧ (ρ.sensed n).lastValidCmd.accEn
  stopped : ∀ m n, m ≤ n → ρ.state (m + 1) = .STOPPED → ρ.SendsNothing n

end GuardRun

/-- Every run is gated. -/
theorem enable_gating {a : Args} (ρ : GuardRun a) : ρ.Gated where
  shape := ρ.exists_shape
  epsEn n h := by
    obtain ⟨_, _, -, -, h01⟩ := ρ.control01 n
    have hen : (ρ.sent n).out.epsEn = true := by
      rw [h01.epsEn] at h
      simpa using h
    have hfollow := ρ.following_of_enabled (.inl hen)
    rw [ρ.sent_of_following hfollow] at hen
    exact ⟨ρ.trusted_of_following hfollow, hen⟩
  accEn n h := by
    obtain ⟨_, _, -, -, h01⟩ := ρ.control01 n
    have hen : (ρ.sent n).out.accEn = true := by
      rw [h01.accEn] at h
      simpa using h
    have hfollow := ρ.following_of_enabled (.inr hen)
    rw [ρ.sent_of_following hfollow] at hen
    exact ⟨ρ.trusted_of_following hfollow, hen⟩
  stopped _ _ hle h := ρ.sendsNothing_of_stopped (ρ.stopped_of_le (Nat.succ_le_succ hle) h)

/-! ## Stops straight out of ACTIVE -/

/-- With both durations zero and positive limits, only the speed decides between a stop and
a fallback. -/
theorem nextState_active_of_zero {θ : Thresholds} {o : Observation} (hS : 0 < θ.stoppedAfter)
    (hP : 0 < θ.perceptionLostStoppedAfter) (hh : o.holdingDuration = some 0)
    (hd : o.degradedDuration = some 0) :
    nextState θ .ACTIVE o =
      if ¬o.cmdStale θ ∧ ¬o.perceptionLost θ then .ACTIVE
      else if o.vehicleNearStop θ then .STOPPED
      else if o.cmdStale θ then .HOLDING
      else .DEGRADED := by
  simp only [nextState, hh, hd, dueStop, hS.not_ge, hP.not_ge]
  by_cases hc : o.cmdStale θ <;> by_cases hp : o.perceptionLost θ <;> simp [hc, hp]

namespace GuardRun

variable {a : Args} (ρ : GuardRun a)

/-- STOPPED is entered from HOLDING or DEGRADED only. -/
def StopsAfterFallback : Prop :=
  ∀ n, ρ.state n ≠ .STOPPED → ρ.state (n + 1) = .STOPPED →
    ρ.state n = .HOLDING ∨ ρ.state n = .DEGRADED

/-- The transition of cycle `n`, had the vehicle speed been `v`. -/
def stateAtSpeed (n : ℕ) (v : Option ℚ) : State :=
  nextState a.toThresholds (ρ.state n) { ρ.observed n with vehicleSpeedKph := v }

/-- The command is fresh and perception is there. -/
def Reliable (n : ℕ) : Prop :=
  ¬(ρ.observed n).cmdStale a.toThresholds ∧ ¬(ρ.observed n).perceptionLost a.toThresholds

instance (n : ℕ) : Decidable (ρ.Reliable n) :=
  inferInstanceAs (Decidable (_ ∧ _))

/-- In an ACTIVE cycle that is not reliable, a known speed under the stop speed stops the
vehicle. -/
theorem stateAtSpeed_eq (hS : 0 < a.stoppedAfter) (hP : 0 < a.perceptionLostStoppedAfter) {n : ℕ}
    (h : ρ.state n = .ACTIVE) (v : Option ℚ) :
    ρ.stateAtSpeed n v =
      if ρ.Reliable n then .ACTIVE
      else if nearStop v a.stopSpeedKph then .STOPPED
      else if (ρ.observed n).cmdStale a.toThresholds then .HOLDING
      else .DEGRADED := by
  have hh := ρ.holdingDuration_of_ne (n := n) (by simp [h])
  have hd := ρ.degradedDuration_of_ne (n := n) (by simp [h])
  rw [stateAtSpeed, h]
  exact nextState_active_of_zero hS hP hh hd

/-- An ACTIVE cycle stops the vehicle exactly when it is not reliable and the speed is known
to be under the stop speed. -/
theorem stopped_of_active_iff (hS : 0 < a.stoppedAfter) (hP : 0 < a.perceptionLostStoppedAfter)
    {n : ℕ} (h : ρ.state n = .ACTIVE) :
    ρ.state (n + 1) = .STOPPED ↔
      ¬ρ.Reliable n ∧ (ρ.observed n).vehicleNearStop a.toThresholds := by
  have hstate : ρ.state (n + 1) = ρ.stateAtSpeed n (ρ.observed n).vehicleSpeedKph := ρ.state_succ n
  rw [hstate, ρ.stateAtSpeed_eq hS hP h, Observation.vehicleNearStop]
  split_ifs <;> simp_all

end GuardRun

open GuardRun in
/-- STOPPED is entered from a fallback state only, exactly when no ACTIVE cycle that is not
reliable sees a speed under the stop speed. Two speeds give an ACTIVE cycle the same next
state exactly when it is reliable or they are on one side of the stop speed. -/
theorem stop_from_active {a : Args} (hS : 0 < a.stoppedAfter)
    (hP : 0 < a.perceptionLostStoppedAfter) (ρ : GuardRun a) :
    (ρ.StopsAfterFallback ↔ ∀ n, ρ.state n = .ACTIVE →
      (ρ.observed n).vehicleNearStop a.toThresholds → ρ.Reliable n) ∧
    ∀ n, ρ.state n = .ACTIVE → ∀ v w, ρ.stateAtSpeed n v = ρ.stateAtSpeed n w ↔
      ρ.Reliable n ∨ nearStop v a.stopSpeedKph = nearStop w a.stopSpeedKph := by
  refine ⟨⟨?_, ?_⟩, ?_⟩
  · intro hstops n hactive hnear
    by_contra hrel
    have hstop := (ρ.stopped_of_active_iff hS hP hactive).2 ⟨hrel, hnear⟩
    simpa [hactive] using hstops n (by simp [hactive]) hstop
  · intro hrel n hne hstop
    rcases hstate : ρ.state n with _ | _ | _ | _ | _
    · rw [ρ.state_succ, nextState_eq_STOPPED_iff, hstate] at hstop
      simp at hstop
    · obtain ⟨hnot, hnear⟩ := (ρ.stopped_of_active_iff hS hP hstate).1 hstop
      exact absurd (hrel n hstate hnear) hnot
    · exact .inl rfl
    · exact .inr rfl
    · exact absurd hstate hne
  · intro n hactive v w
    rw [ρ.stateAtSpeed_eq hS hP hactive, ρ.stateAtSpeed_eq hS hP hactive]
    split_ifs <;> simp_all

/-- A vehicle that stands still in ACTIVE, and whose control node falls silent after the first
cycle. -/
def standstillRun : GuardRun {} :=
  .ofInputs {} (fun n =>
    { now := n / 100
      cmdRead := .ok (if n = 0 then some ({}, 0) else none)
      hbAge := .ok (some 0)
      rx := [⟨frameIdInfoAcc, List.replicate 8 0⟩] }) GuardRun.monotone_tick

theorem standstill_stops_from_active :
    standstillRun.state 6 = .ACTIVE ∧ standstillRun.state 7 = .STOPPED ∧
      ¬standstillRun.StopsAfterFallback ∧
      standstillRun.stateAtSpeed 6 none ≠ standstillRun.stateAtSpeed 6 (some 0) := by
  have h6 : standstillRun.state 6 = .ACTIVE := by decide +kernel
  have h7 : standstillRun.state 7 = .STOPPED := by decide +kernel
  refine ⟨h6, h7, ?_, by decide +kernel⟩
  intro hstops
  simpa [h6] using hstops 6 (by simp [h6]) h7

theorem stop_from_active_standstill :
    (standstillRun.StopsAfterFallback ↔ ∀ n, standstillRun.state n = .ACTIVE →
      (standstillRun.observed n).vehicleNearStop {} → standstillRun.Reliable n) ∧
    ∀ n, standstillRun.state n = .ACTIVE → ∀ v w,
      standstillRun.stateAtSpeed n v = standstillRun.stateAtSpeed n w ↔
        standstillRun.Reliable n ∨
          nearStop v defaultStopSpeedKph = nearStop w defaultStopSpeedKph :=
  stop_from_active (by decide +kernel) (by decide +kernel) standstillRun

end A1Bsw
