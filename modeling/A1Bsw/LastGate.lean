import A1Bsw.GuardLoop

/-!
# The last gate

A cycle returns from every loop state and for every input, NaN and
infinities in the command, in the frozen angle, in the limiters and in the
rate limits included. The frames it sends decode to the command it clamped
(`LoopState.control01_sending`, `LoopState.control02_sending`), so their
actuator values are in the ranges of the DBC file (`cycle_actuators_inRange`).
-/

namespace A1Bsw

namespace LoopState

variable (s : LoopState) (period : ℚ)

/-- The command a cycle sends is in range. -/
theorem sending_inRange : (s.sending period).out.InRange :=
  clampRange_inRange _

/-- Frame 0x156 carries the flags and integers of the clamped command, and its deceleration
rounded to its scale. -/
theorem control01_sending :
    ∃ (aeb : ℚ) (aebDecelRaw : ℕ), (s.sending period).out.aebDecelValue = .fin aeb ∧
      (aebDecelRaw : ℤ) = roundHalfEven (aeb / (1 / 100)) ∧ aebDecelRaw ≤ 100 ∧
      Control01 (s.sending period).frame156 (s.sending period).out aebDecelRaw s.alivCnt := by
  obtain ⟨q, hq, h0, h1⟩ := (s.sending_inRange period).aebDecelValue
  obtain ⟨b, raw, hb, hraw, hround, hspec⟩ := encode0x156_spec hq h0 h1 s.alivCnt
  rw [encode0x156_sending, Except.ok.injEq] at hb
  exact ⟨q, raw, hq, hround, hraw, hb ▸ hspec⟩

/-- Frame 0x157 carries the clamped angle and acceleration, each rounded to its scale. -/
theorem control02_sending :
    ∃ eps acc : ℚ, (s.sending period).out.epsCmd = .fin eps ∧
      (s.sending period).out.accCmd = .fin acc ∧
      (-5000 ≤ roundHalfEven (eps / (1 / 10)) ∧ roundHalfEven (eps / (1 / 10)) ≤ 5000) ∧
      (723 ≤ roundHalfEven ((acc - accCmdOffset) / (1 / 100)) ∧
        roundHalfEven ((acc - accCmdOffset) / (1 / 100)) ≤ 1123) ∧
      Control02 (s.sending period).frame157 (roundHalfEven (eps / (1 / 10)))
        (roundHalfEven ((acc - accCmdOffset) / (1 / 100))) := by
  obtain ⟨eps, he, he0, he1⟩ := (s.sending_inRange period).epsCmd
  obtain ⟨acc, ha, ha0, ha1⟩ := (s.sending_inRange period).accCmd
  obtain ⟨b, eps', acc', hb, he', ha', hr0, hr1, hs0, hs1, hspec⟩ :=
    encode0x157_spec (s.sending period).out
  rw [encode0x157_sending, Except.ok.injEq] at hb
  rw [he, PyFloat.pyClamp_fin, ← clamp, clamp_of_mem he0 he1, PyFloat.fin.injEq] at he'
  rw [ha, PyFloat.pyClamp_fin, ← clamp, clamp_of_mem ha0 ha1, PyFloat.fin.injEq] at ha'
  subst he' ha'
  exact ⟨eps, acc, he, ha, ⟨hr0, hr1⟩, ⟨hs0, hs1⟩, hb ▸ hspec⟩

end LoopState

/-- Two frames of eight bytes whose actuator values are in the ranges of the DBC file. -/
structure Sent.ActuatorsInRange (sent : Sent) : Prop where
  length156 : sent.frame156.length = 8
  length157 : sent.frame157.length = 8
  epsSpeed : EAIT_Control_01.EPS_Speed.decode sent.frame156 ∈ Set.Icc 10 250
  aebDecelValue : EAIT_Control_01.AEB_decel_value.decode sent.frame156 ∈ Set.Icc 0 1
  epsCmd : EAIT_Control_02.EPS_Cmd.decode sent.frame157 ∈ Set.Icc (-500) 500
  accCmd : EAIT_Control_02.ACC_Cmd.decode sent.frame157 ∈ Set.Icc (-3) 1

/-- Every cycle returns and sends actuator values in range, whatever the loop state and the
inputs are. -/
theorem cycle_actuators_inRange (a : Args) (s : LoopState) (i : CycleInput) :
    ∃ s' sent, cycle a s i = .ok (s', sent) ∧ sent.ActuatorsInRange := by
  refine ⟨_, _, cycle_eq a s i, ?_⟩
  generalize (s.sense i).decide a i.now = s
  obtain ⟨-, aebDecelRaw, -, -, haeb, h01⟩ := s.control01_sending a.period
  obtain ⟨eps, acc, -, -, ⟨he0, he1⟩, ⟨ha0, ha1⟩, h02⟩ := s.control02_sending a.period
  generalize roundHalfEven (eps / (1 / 10)) = epsRaw at *
  generalize roundHalfEven ((acc - accCmdOffset) / (1 / 100)) = accRaw at *
  refine ⟨h01.length, h02.length, ?_, ?_, ?_, ?_⟩
  · obtain ⟨h0, h1⟩ := (s.sending_inRange a.period).epsSpeed
    unfold epsSpeedMin at h0
    unfold epsSpeedMax at h1
    have hfit := lowBits_of_lt (n := 8) (x := (s.sending a.period).out.epsSpeed)
      (by linarith) (by linarith)
    rw [h01.epsSpeed, Set.mem_Icc]
    constructor <;> norm_cast <;> omega
  · have h1 : (aebDecelRaw : ℚ) ≤ 100 := by exact_mod_cast haeb
    rw [h01.aebDecelValue, Set.mem_Icc]
    exact ⟨by positivity, by linarith⟩
  · have h0 : (-5000 : ℚ) ≤ epsRaw := by exact_mod_cast he0
    have h1 : (epsRaw : ℚ) ≤ 5000 := by exact_mod_cast he1
    rw [h02.epsCmd, Set.mem_Icc]
    constructor <;> linarith
  · have h0 : (723 : ℚ) ≤ accRaw := by exact_mod_cast ha0
    have h1 : (accRaw : ℚ) ≤ 1123 := by exact_mod_cast ha1
    rw [h02.accCmd, Set.mem_Icc, accCmdOffset]
    constructor <;> linarith

namespace GuardRun

variable {a : Args} (ρ : GuardRun a)

/-- Frame 0x156 of a cycle. -/
theorem control01 (n : ℕ) :
    ∃ (aeb : ℚ) (aebDecelRaw : ℕ), (ρ.sent n).out.aebDecelValue = .fin aeb ∧
      (aebDecelRaw : ℤ) = roundHalfEven (aeb / (1 / 100)) ∧
      Control01 (ρ.sent n).frame156 (ρ.sent n).out aebDecelRaw (ρ.entered n).alivCnt := by
  obtain ⟨aeb, raw, haeb, hround, -, h01⟩ := (ρ.entered n).control01_sending a.period
  rw [← sent_eq] at haeb h01
  exact ⟨aeb, raw, haeb, hround, h01⟩

/-- Frame 0x157 of a cycle that sends rationals. -/
theorem control02 {n : ℕ} {eps acc : ℚ} (he : (ρ.sent n).out.epsCmd = .fin eps)
    (ha : (ρ.sent n).out.accCmd = .fin acc) :
    Control02 (ρ.sent n).frame157 (roundHalfEven (eps / (1 / 10)))
      (roundHalfEven ((acc - accCmdOffset) / (1 / 100))) := by
  obtain ⟨eps', acc', he', ha', -, -, h02⟩ := (ρ.entered n).control02_sending a.period
  rw [← sent_eq] at he' ha' h02
  rw [he, PyFloat.fin.injEq] at he'
  rw [ha, PyFloat.fin.injEq] at ha'
  rw [he', ha']
  exact h02

end GuardRun

end A1Bsw
