import A1Bsw.TxEncode

/-!
# The deceleration of the emergency brake

The comment of the DBC file on `AEB_decel_value` gives the raw value 0 a
meaning of its own : 1.0 g, where the scale says 0 g. `encode_0x156` follows
the scale, so a request that rounds to 0 brakes at full strength. Every other
request is met to half a step (`brake_strength_iff`), and a smaller request
brakes harder than a larger one exactly when it is among those that round
to 0.
-/

namespace A1Bsw

/-- The deceleration in g that the DBC comment gives a raw `AEB_decel_value`. -/
def decelG (raw : ℕ) : ℚ :=
  if raw = 0 then 1 else raw / 100

/-- The deceleration a vehicle reads from a frame 0x156. -/
def brakeStrength (data8 : Bytes) : ℚ :=
  decelG (EAIT_Control_01.AEB_decel_value.raw data8)

/-- The deceleration the vehicle reads for a command, after the clamp and the encoder. -/
def transmittedStrength (cmd : Command) (alivCnt : ℤ) : Except PyError ℚ :=
  (encode0x156 (clampRange cmd).1 alivCnt).map brakeStrength

/-- The raw value a rational request is sent as. -/
def decelRaw (v : ℚ) : ℕ :=
  (roundHalfEven (clamp aebDecelMin aebDecelMax v / (1 / 100))).toNat

section Raw

variable (v : ℚ)

theorem clamp_decel_mem :
    0 ≤ clamp aebDecelMin aebDecelMax v ∧ clamp aebDecelMin aebDecelMax v ≤ 1 :=
  clamp_mem aebDecelMin_le_aebDecelMax v

theorem roundHalfEven_decel_mem :
    0 ≤ roundHalfEven (clamp aebDecelMin aebDecelMax v / (1 / 100)) ∧
      roundHalfEven (clamp aebDecelMin aebDecelMax v / (1 / 100)) ≤ 100 := by
  obtain ⟨h0, h1⟩ := clamp_decel_mem v
  exact roundHalfEven_mem (by push_cast; linarith) (by push_cast; linarith)

theorem coe_decelRaw :
    (decelRaw v : ℤ) = roundHalfEven (clamp aebDecelMin aebDecelMax v / (1 / 100)) :=
  Int.toNat_of_nonneg (roundHalfEven_decel_mem v).1

theorem decelRaw_le : decelRaw v ≤ 100 := by
  have h := (roundHalfEven_decel_mem v).2
  rw [← coe_decelRaw] at h
  exact_mod_cast h

/-- The raw value is within half a step of the request. -/
theorem abs_decelRaw_sub_le :
    |(decelRaw v : ℚ) / 100 - clamp aebDecelMin aebDecelMax v| ≤ 1 / 200 := by
  have h := abs_roundHalfEven_div_mul_sub_le (c := 1 / 100) (by norm_num)
    (clamp aebDecelMin aebDecelMax v)
  rw [← coe_decelRaw, Int.cast_natCast, mul_one_div] at h
  exact h.trans (by norm_num)

/-- Requests of up to half a step are sent as 0. -/
theorem decelRaw_eq_zero_iff : decelRaw v = 0 ↔ v ≤ 1 / 200 := by
  have h0 := (clamp_decel_mem v).1
  have hcut : clamp aebDecelMin aebDecelMax v ≤ 1 / 200 ↔ v ≤ 1 / 200 := by
    unfold clamp aebDecelMin aebDecelMax
    rw [max_le_iff, min_le_iff]
    norm_num
  rw [← hcut, ← Nat.cast_eq_zero (R := ℤ), coe_decelRaw, roundHalfEven_eq_zero_iff (by linarith),
    div_le_iff₀ (by norm_num)]
  norm_num

/-- Requests from half a step under 1 g are sent as 100. -/
theorem decelRaw_eq_hundred_iff : decelRaw v = 100 ↔ 199 / 200 ≤ v := by
  have hcut : 199 / 200 ≤ clamp aebDecelMin aebDecelMax v ↔ 199 / 200 ≤ v := by
    unfold clamp aebDecelMin aebDecelMax
    rw [le_max_iff, le_min_iff]
    norm_num
  rw [← hcut]
  constructor
  · intro h
    have herr := (abs_le.1 (abs_decelRaw_sub_le v)).2
    rw [h] at herr
    push_cast at herr
    linarith
  · intro h
    have htie : roundHalfEven (199 / 2) = 100 := by decide +kernel
    have hmono := roundHalfEven_mono (p := 199 / 2)
      (q := clamp aebDecelMin aebDecelMax v / (1 / 100)) (by linarith)
    rw [htie, ← coe_decelRaw] at hmono
    exact le_antisymm (decelRaw_le v) (by exact_mod_cast hmono)

end Raw

theorem decelRaw_mono : Monotone decelRaw := by
  intro v w h
  have hle : clamp aebDecelMin aebDecelMax v ≤ clamp aebDecelMin aebDecelMax w := clamp_mono h
  exact Int.toNat_le_toNat (roundHalfEven_mono (div_le_div_of_nonneg_right hle (by norm_num)))

/-- The encoder sends the rounded request. -/
theorem transmittedStrength_eq {cmd : Command} {v : ℚ} (h : cmd.aebDecelValue = .fin v)
    (alivCnt : ℤ) : transmittedStrength cmd alivCnt = .ok (decelG (decelRaw v)) := by
  have hclamp : (clampRange cmd).1.aebDecelValue = .fin (clamp aebDecelMin aebDecelMax v) := by
    show pyClamp _ _ cmd.aebDecelValue = _
    rw [h, PyFloat.pyClamp_fin, clamp]
  obtain ⟨h0, h1⟩ := clamp_decel_mem v
  obtain ⟨b, n, hb, -, hn, hframe⟩ := encode0x156_spec hclamp h0 h1 alivCnt
  have hraw : EAIT_Control_01.AEB_decel_value.raw b = n := by
    refine Signal.raw_of_decode rfl rfl (by decide +kernel) (hframe.aebDecelValue.trans ?_)
    show _ = (n : ℚ) * (1 / 100)
    ring
  have hdecel : n = decelRaw v := by
    have hcoe := coe_decelRaw v
    omega
  rw [transmittedStrength, hb, ← hdecel, ← hraw]
  rfl

/-! ## Accuracy and monotonicity -/

section Strength

variable {v w : ℚ}

theorem decelG_decelRaw_of_le (h : v ≤ 1 / 200) : decelG (decelRaw v) = 1 := by
  rw [decelG, if_pos ((decelRaw_eq_zero_iff v).2 h)]

theorem decelG_decelRaw_of_lt (h : 1 / 200 < v) : decelG (decelRaw v) = decelRaw v / 100 := by
  rw [decelG, if_neg (mt (decelRaw_eq_zero_iff v).1 h.not_ge)]

/-- A request is met to half a step exactly when it does not round to 0. -/
theorem abs_decelG_sub_le_iff :
    |decelG (decelRaw v) - clamp aebDecelMin aebDecelMax v| ≤ 1 / 200 ↔ 1 / 200 < v := by
  rcases le_or_gt v (1 / 200) with h | h
  · have herr := abs_decelRaw_sub_le v
    rw [(decelRaw_eq_zero_iff v).2 h, abs_le] at herr
    rw [decelG_decelRaw_of_le h, iff_false_right h.not_gt, abs_le]
    push_cast at herr
    rintro ⟨-, hle⟩
    linarith
  · rw [decelG_decelRaw_of_lt h, iff_true_right h]
    exact abs_decelRaw_sub_le v

/-- A larger request brakes at least as hard, unless the smaller one rounds to 0 and the larger
one neither to 0 nor to 1 g. -/
theorem decelG_le_iff (hvw : v ≤ w) :
    decelG (decelRaw v) ≤ decelG (decelRaw w) ↔ (v ≤ 1 / 200 → w ≤ 1 / 200 ∨ 199 / 200 ≤ w) := by
  rcases le_or_gt v (1 / 200) with hv | hv
  swap
  · rw [decelG_decelRaw_of_lt hv, decelG_decelRaw_of_lt (hv.trans_le hvw)]
    refine iff_of_true ?_ fun h => absurd h hv.not_ge
    exact div_le_div_of_nonneg_right (Nat.cast_le.2 (decelRaw_mono hvw)) (by norm_num)
  rw [decelG_decelRaw_of_le hv, forall_prop_of_true hv]
  rcases le_or_gt w (1 / 200) with hw | hw
  · rw [decelG_decelRaw_of_le hw]
    exact iff_of_true le_rfl (.inl hw)
  · rw [decelG_decelRaw_of_lt hw, one_le_div (by norm_num), or_iff_right hw.not_ge,
      ← decelRaw_eq_hundred_iff]
    have hle := decelRaw_le w
    constructor
    · intro h
      exact le_antisymm hle (by exact_mod_cast h)
    · intro h
      rw [h]
      norm_num

end Strength

/-- For commands with rational requests : what is transmitted is within half a step of the
clamped request exactly when the request is above half a step, and of two requests the larger
one brakes at least as hard exactly when the smaller one is above half a step, or the larger one
is not, or reaches 1 g. -/
theorem brake_strength_iff {cmd cmd' : Command} {v w : ℚ} (hv : cmd.aebDecelValue = .fin v)
    (hw : cmd'.aebDecelValue = .fin w) (alivCnt alivCnt' : ℤ) :
    ∃ s t, transmittedStrength cmd alivCnt = .ok s ∧ transmittedStrength cmd' alivCnt' = .ok t ∧
      (|s - clamp aebDecelMin aebDecelMax v| ≤ 1 / 200 ↔ 1 / 200 < v) ∧
      (v ≤ w → (s ≤ t ↔ (v ≤ 1 / 200 → w ≤ 1 / 200 ∨ 199 / 200 ≤ w))) :=
  ⟨_, _, transmittedStrength_eq hv alivCnt, transmittedStrength_eq hw alivCnt',
    abs_decelG_sub_le_iff, decelG_le_iff⟩

theorem brake_strength_iff_half :
    ∃ s t,
      transmittedStrength { aebEn := true, aebDecelValue := .fin (1 / 2) } 0 = .ok s ∧
      transmittedStrength { aebEn := true, aebDecelValue := .fin (3 / 4) } 1 = .ok t ∧
      (|s - clamp aebDecelMin aebDecelMax (1 / 2)| ≤ 1 / 200 ↔ 1 / 200 < (1 / 2 : ℚ)) ∧
      ((1 / 2 : ℚ) ≤ 3 / 4 → (s ≤ t ↔
        ((1 / 2 : ℚ) ≤ 1 / 200 → (3 / 4 : ℚ) ≤ 1 / 200 ∨ (199 / 200 : ℚ) ≤ 3 / 4))) :=
  brake_strength_iff rfl rfl 0 1

/-- A request for no deceleration brakes at 1 g, and harder than a request for 0.5 g. -/
theorem zero_brakes_fully :
    transmittedStrength { aebEn := true, aebDecelValue := .fin 0 } 0 = .ok 1 ∧
      transmittedStrength { aebEn := true, aebDecelValue := .fin (1 / 2) } 0 = .ok (1 / 2) ∧
      ¬|(1 : ℚ) - clamp aebDecelMin aebDecelMax 0| ≤ 1 / 200 ∧ ¬(1 : ℚ) ≤ 1 / 2 := by
  refine ⟨?_, ?_, by decide +kernel, by norm_num⟩
  · rw [transmittedStrength_eq rfl, decelG_decelRaw_of_le (by norm_num)]
  · rw [transmittedStrength_eq rfl]
    decide +kernel

end A1Bsw
