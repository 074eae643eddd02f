import A1Bsw.LastGate

/-!
# Requests that no limiter touches

The integers of a command cross a byte of shared memory before the guard
clamps them, and the byte wraps. So a speed outside the byte arrives as
another speed, and every value of the three turn signal bits is sent
(`integers_reach_iff`).

The emergency brake keeps its enable flag in every state. Its strength is
that of the last command as well, except in STOPPED, which builds a new
command without it (`aeb_kept_iff`).
-/

namespace A1Bsw

/-! ## Integers -/

/-- The values `turn_signal` is documented with. -/
def turnSignals : List ℤ :=
  [0, 1, 2, 4]

/-- A receiver of the frame decodes the requested integers, the speed clamped to its range. -/
structure Command.IntegersReach (cmd : Command) (b : Bytes) : Prop where
  epsSpeed : EAIT_Control_01.EPS_Speed.decode b =
    (max epsSpeedMin (min epsSpeedMax cmd.epsSpeed) : ℤ)
  legal : ∃ t ∈ turnSignals, EAIT_Control_01.Turn_Signal.decode b = t
  turnSignal : cmd.turnSignal ∈ turnSignals →
    EAIT_Control_01.Turn_Signal.decode b = cmd.turnSignal

/-- A speed that a byte holds, or that wraps to the end of the range it lies beyond. -/
def SpeedSurvives (epsSpeed : ℤ) : Prop :=
  0 ≤ epsSpeed ∧ epsSpeed ≤ 255 ∨ epsSpeed < 0 ∧ epsSpeed % 256 ≤ epsSpeedMin ∨
    255 < epsSpeed ∧ epsSpeedMax ≤ epsSpeed % 256

/-- Wrapping before the clamp changes nothing exactly for the speeds that survive. -/
theorem clamp_emod_eq_iff (epsSpeed : ℤ) :
    max epsSpeedMin (min epsSpeedMax (epsSpeed % 256)) =
      max epsSpeedMin (min epsSpeedMax epsSpeed) ↔ SpeedSurvives epsSpeed := by
  unfold SpeedSurvives epsSpeedMin epsSpeedMax
  omega

/-- The integers a receiver decodes. The speed is clamped after it wrapped. -/
theorem integers_sent (cmd : Command) (heldEpsCmd : PyFloat) (epsLimiter accLimiter : RateLimiter)
    (dt : PyFloat) (alivCnt : ℤ) :
    ∃ b, encode0x156 (clampRange (commandForState .ACTIVE cmd.stored heldEpsCmd epsLimiter
        accLimiter dt).out).1 alivCnt = .ok b ∧
      EAIT_Control_01.EPS_Speed.decode b =
        (max epsSpeedMin (min epsSpeedMax (cmd.epsSpeed % 256)) : ℤ) ∧
      EAIT_Control_01.Turn_Signal.decode b = (cmd.turnSignal % 8 : ℤ) := by
  generalize hout : (clampRange (commandForState .ACTIVE cmd.stored heldEpsCmd epsLimiter accLimiter
    dt).out).1 = out
  have hspeed : out.epsSpeed = max epsSpeedMin (min epsSpeedMax (cmd.epsSpeed % 256)) := by
    rw [← hout, Command.stored_eq]
    exact pyClamp_eq _ _ _
  have hturn : out.turnSignal = cmd.turnSignal % 256 := by
    rw [← hout, Command.stored_eq]
    rfl
  obtain ⟨q, hq, h0, h1⟩ := (hout ▸ clampRange_inRange _ : out.InRange).aebDecelValue
  obtain ⟨b, _, hb, -, -, h01⟩ := encode0x156_spec hq h0 h1 alivCnt
  refine ⟨b, hb, ?_, ?_⟩
  · have hfit : (lowBits 8 out.epsSpeed : ℤ) = out.epsSpeed := by
      refine lowBits_of_lt ?_ ?_ <;> rw [hspeed] <;> unfold epsSpeedMin epsSpeedMax <;> omega
    rw [h01.epsSpeed, ← hspeed]
    exact_mod_cast congrArg (Int.cast (R := ℚ)) hfit
  · have hbits : (lowBits 3 out.turnSignal : ℤ) = cmd.turnSignal % 8 := by
      rw [lowBits, hturn]
      omega
    rw [h01.turnSignal]
    exact_mod_cast congrArg (Int.cast (R := ℚ)) hbits

/-- A command that was written and read back reaches the vehicle with its integers exactly when
its speed survives the byte and the low bits of its turn signal are legal. -/
theorem integers_reach_iff {seg : Seqlock.Segment CommandField.Val} {cmd got : Command}
    {timestampNs nowNs : ℤ} {maxRetries : ℕ} {age : ℚ}
    (hread : CommandChannel.read (CommandChannel.write seg cmd timestampNs) maxRetries nowNs =
      .ok (some (got, age)))
    (heldEpsCmd : PyFloat) (epsLimiter accLimiter : RateLimiter) (dt : PyFloat) (alivCnt : ℤ) :
    ∃ b, encode0x156 (clampRange (commandForState .ACTIVE got heldEpsCmd epsLimiter accLimiter
        dt).out).1 alivCnt = .ok b ∧
      (cmd.IntegersReach b ↔ SpeedSurvives cmd.epsSpeed ∧ cmd.turnSignal % 8 ∈ turnSignals) := by
  obtain rfl : got = cmd.stored := CommandChannel.eq_stored_of_read hread
  obtain ⟨b, hb, hspeed, hturn⟩ := integers_sent cmd heldEpsCmd epsLimiter accLimiter dt alivCnt
  refine ⟨b, hb, ?_⟩
  have hlow : cmd.turnSignal ∈ turnSignals → cmd.turnSignal % 8 = cmd.turnSignal := by
    simp only [turnSignals, List.mem_cons, List.not_mem_nil, or_false]
    omega
  constructor
  · rintro ⟨h1, ⟨t, ht, h2⟩, -⟩
    rw [hspeed, Int.cast_inj, clamp_emod_eq_iff] at h1
    rw [hturn, Int.cast_inj] at h2
    exact ⟨h1, h2 ▸ ht⟩
  · rintro ⟨h1, h2⟩
    refine ⟨?_, ⟨_, h2, hturn⟩, fun hlegal => ?_⟩
    · rw [hspeed, (clamp_emod_eq_iff _).2 h1]
    · rw [hturn, hlow hlegal]

/-- A speed of 300 and a turn signal of 3. -/
def wrappedCommand : Command :=
  { epsSpeed := 300, turnSignal := 3 }

/-- The vehicle receives a speed of 44 instead of 250, and the turn signal 3. -/
theorem integers_not_reached : ∃ got age b,
    CommandChannel.read (CommandChannel.write CommandChannel.fresh wrappedCommand 0) 1 0 =
      .ok (some (got, age)) ∧
    encode0x156 (clampRange (commandForState .ACTIVE got (.fin 0) ⟨none, none⟩ ⟨none, none⟩
      (.fin (1 / 100))).out).1 0 = .ok b ∧
    EAIT_Control_01.EPS_Speed.decode b = 44 ∧ EAIT_Control_01.Turn_Signal.decode b = 3 ∧
    ¬wrappedCommand.IntegersReach b := by
  obtain ⟨b, hb, hspeed, hturn⟩ := integers_sent wrappedCommand (.fin 0) ⟨none, none⟩ ⟨none, none⟩
    (.fin (1 / 100)) 0
  refine ⟨_, _, b, rfl, hb, hspeed.trans ?_, hturn.trans ?_, fun h => ?_⟩
  · decide +kernel
  · decide +kernel
  · have hreach := hspeed.symm.trans h.epsSpeed
    revert hreach
    decide +kernel

/-- A speed of 120 and a turn signal of 2. -/
def turningCommand : Command :=
  { epsSpeed := 120, turnSignal := 2 }

/-- A command in range reaches the vehicle. -/
theorem integers_reach_iff_turning : ∃ b,
    encode0x156 (clampRange (commandForState .ACTIVE turningCommand.stored (.fin 0) ⟨none, none⟩
      ⟨none, none⟩ (.fin (1 / 100))).out).1 0 = .ok b ∧ turningCommand.IntegersReach b := by
  have hread : CommandChannel.read (CommandChannel.write CommandChannel.fresh turningCommand 0) 1
      0 = .ok (some (turningCommand.stored, ageS 0 0)) := rfl
  obtain ⟨b, hb, hiff⟩ := integers_reach_iff hread (.fin 0) ⟨none, none⟩ ⟨none, none⟩
    (.fin (1 / 100)) 0
  refine ⟨b, hb, hiff.2 ⟨.inl ?_, ?_⟩⟩ <;> decide

/-! ## The emergency brake -/

namespace GuardRun

variable {a : Args} (ρ : GuardRun a)

/-- Frame 0x156 of cycle `n` decodes to the brake request of the last command. -/
structure AebKept (n : ℕ) : Prop where
  aebEn : EAIT_Control_01.AEB_En.decode (ρ.sent n).frame156 = (ρ.sensed n).lastValidCmd.aebEn.toNat
  aebDecelValue : ∃ q, .fin q = pyClamp (.fin aebDecelMin) (.fin aebDecelMax)
      (ρ.sensed n).lastValidCmd.aebDecelValue ∧
    EAIT_Control_01.AEB_decel_value.decode (ρ.sent n).frame156 = roundHalfEven (q / (1 / 100)) / 100

variable {ρ}

/-- The frame has the flag and the rounded strength of the command the cycle clamped. -/
theorem aebKept_iff_of_out {n : ℕ} {cmd : Command} (hout : (ρ.sent n).out = (clampRange cmd).1)
    (hen : cmd.aebEn = (ρ.sensed n).lastValidCmd.aebEn) :
    ρ.AebKept n ↔ ∃ p q, .fin p = pyClamp (.fin aebDecelMin) (.fin aebDecelMax) cmd.aebDecelValue ∧
      .fin q = pyClamp (.fin aebDecelMin) (.fin aebDecelMax)
        (ρ.sensed n).lastValidCmd.aebDecelValue ∧
      roundHalfEven (p / (1 / 100)) = roundHalfEven (q / (1 / 100)) := by
  obtain ⟨p, raw, hp, hraw, h01⟩ := ρ.control01 n
  rw [hout] at hp
  have hdecode : EAIT_Control_01.AEB_decel_value.decode (ρ.sent n).frame156 =
      roundHalfEven (p / (1 / 100)) / 100 := by
    rw [h01.aebDecelValue, ← hraw, Int.cast_natCast]
  constructor
  · rintro ⟨-, q, hq, hdecel⟩
    rw [hdecode, div_left_inj' (by norm_num), Int.cast_inj] at hdecel
    exact ⟨p, q, hp.symm, hq, hdecel⟩
  · rintro ⟨p', q, hp', hq, hround⟩
    obtain rfl : p' = p := PyFloat.fin.inj (hp'.trans hp)
    refine ⟨?_, q, hq, by rw [hdecode, hround]⟩
    rw [h01.aebEn, hout, ← hen]
    rfl

end GuardRun

open GuardRun in
/-- A cycle outside INIT keeps the brake request exactly when it is not in STOPPED or the
requested strength is at most what rounds to zero. -/
theorem aeb_kept_iff {a : Args} {ρ : GuardRun a} {n : ℕ} (hinit : ρ.state (n + 1) ≠ .INIT) :
    ρ.AebKept n ↔ (ρ.state (n + 1) = .STOPPED →
      (ρ.sensed n).lastValidCmd.aebDecelValue ≤ .fin (1 / 200)) := by
  obtain ⟨q, hq, h0, -⟩ := PyFloat.pyClamp_mem aebDecelMin_le_aebDecelMax
    (ρ.sensed n).lastValidCmd.aebDecelValue
  by_cases hstop : ρ.state (n + 1) = .STOPPED
  · have hzero : pyClamp (.fin aebDecelMin) (.fin aebDecelMax) (.fin 0) = PyFloat.fin 0 := by
      decide +kernel
    have hround : roundHalfEven 0 = 0 := by decide +kernel
    have hscaled : q / (1 / 100) ≤ 1 / 2 ↔ q ≤ 1 / 200 := by
      rw [div_le_iff₀ (by norm_num)]
      norm_num
    rw [aebKept_iff_of_out (ρ.sent_of_stopped hstop) rfl, forall_prop_of_true hstop,
      ← PyFloat.pyClamp_le_iff (by decide +kernel) (by decide +kernel) hq, ← hscaled,
      ← roundHalfEven_eq_zero_iff (div_nonneg h0 (by norm_num))]
    simp [hzero, hq, hround, eq_comm]
  · refine iff_of_true ?_ fun h => absurd h hstop
    exact (aebKept_iff_of_out (ρ.sent_of_following ⟨hinit, hstop⟩) rfl).2
      ⟨q, q, hq.symm, hq.symm, rfl⟩

/-- One command, which brakes with 0.5 g, and no other. -/
def brakeRun : GuardRun {} :=
  .ofInputs _ (fun n =>
    { now := n / 100
      cmdRead := .ok (if n = 0 then some ({ aebEn := true, aebDecelValue := .fin (1 / 2) }, 0)
        else none)
      hbAge := .ok (some 0) }) GuardRun.monotone_tick

set_option maxRecDepth 100000 in
theorem brakeRun_stopped : brakeRun.state (205 + 1) = .HOLDING ∧
    brakeRun.state (206 + 1) = .STOPPED ∧
    (brakeRun.sensed 206).lastValidCmd = { aebEn := true, aebDecelValue := .fin (1 / 2) } ∧
    EAIT_Control_01.AEB_En.decode (brakeRun.sent 206).frame156 = 1 ∧
    EAIT_Control_01.AEB_decel_value.decode (brakeRun.sent 206).frame156 = 0 := by
  decide +kernel

/-- Cycle 206 is in STOPPED, brakes and sends a strength of zero. -/
theorem aeb_not_kept : brakeRun.state (206 + 1) = .STOPPED ∧
    (brakeRun.sensed 206).lastValidCmd = { aebEn := true, aebDecelValue := .fin (1 / 2) } ∧
    EAIT_Control_01.AEB_En.decode (brakeRun.sent 206).frame156 = 1 ∧
    EAIT_Control_01.AEB_decel_value.decode (brakeRun.sent 206).frame156 = 0 ∧
    ¬brakeRun.AebKept 206 := by
  obtain ⟨-, hstop, hcmd, hen, hsent⟩ := brakeRun_stopped
  refine ⟨hstop, hcmd, hen, hsent, fun h => ?_⟩
  obtain ⟨q, hq, hdecel⟩ := h.aebDecelValue
  have hclamp : pyClamp (.fin aebDecelMin) (.fin aebDecelMax) (.fin (1 / 2)) =
      PyFloat.fin (1 / 2) := by decide +kernel
  rw [hcmd, hclamp, PyFloat.fin.injEq] at hq
  rw [hsent, hq] at hdecel
  revert hdecel
  decide +kernel

theorem aeb_kept_iff_brakeRun : brakeRun.AebKept 205 ∧ ¬brakeRun.AebKept 206 := by
  obtain ⟨hhold, hstop, hcmd, -⟩ := brakeRun_stopped
  refine ⟨(aeb_kept_iff (by simp [hhold])).2 (by simp [hhold]), ?_⟩
  rw [aeb_kept_iff (by simp [hstop]), hcmd]
  intro h
  have hle := h hstop
  revert hle
  decide +kernel

end A1Bsw
