import A1Bsw.TxEncode

/-!
# The encoders against the decoder

The encoders place their fields with shifts, masks and a padded layout. The
decoder cuts bit fields out of the payload, and was written apart from them.
The two agree on both control frames for every command : each field reads
back, no other bit is set, and encoding what was decoded from a frame gives
the frame again (`control_frames_agree`).
-/

namespace A1Bsw

/-- The signals of EAIT_Control_01. -/
def EAIT_Control_01.signals : List Signal :=
  [EPS_En, EPS_Override_Ignore, EPS_Speed, ACC_En, AEB_En, Turn_Signal, AEB_decel_value, Aliv_Cnt]

/-- The signals of EAIT_Control_02. -/
def EAIT_Control_02.signals : List Signal :=
  [EPS_Cmd, ACC_Cmd]

/-! ## EAIT_Control_01 -/

/-- The raw signals of a frame 0x156 are the fields of the command at their widths. -/
structure Control01.Carries (b : Bytes) (cmd : Command) (aebDecelValue : ℚ) (alivCnt : ℤ) :
    Prop where
  length : b.length = 8
  epsEn : EAIT_Control_01.EPS_En.raw b = cmd.epsEn.toNat
  epsOverrideIgnore : EAIT_Control_01.EPS_Override_Ignore.raw b = cmd.epsOverrideIgnore.toNat
  epsSpeed : EAIT_Control_01.EPS_Speed.raw b = cmd.epsSpeed % 256
  accEn : EAIT_Control_01.ACC_En.raw b = cmd.accEn.toNat
  aebEn : EAIT_Control_01.AEB_En.raw b = cmd.aebEn.toNat
  turnSignal : EAIT_Control_01.Turn_Signal.raw b = cmd.turnSignal % 8
  aebDecelValue : EAIT_Control_01.AEB_decel_value.raw b = roundHalfEven (aebDecelValue * 100) % 256
  alivCnt : EAIT_Control_01.Aliv_Cnt.raw b = alivCnt % 256
  unowned : UnownedClear EAIT_Control_01.signals b

/-- No field sets a bit outside its signal. -/
theorem control01Raw_unowned (cmd : Command) {aebDecelRaw : ℕ} (haeb : aebDecelRaw < 2 ^ 8)
    (alivCnt : ℤ) :
    UnownedClear EAIT_Control_01.signals (lowBytes (control01Raw cmd aebDecelRaw alivCnt) 8) := by
  intro i hi
  have hfield : ∀ s ∈ EAIT_Control_01.signals, ∀ v < 2 ^ s.length,
      (v <<< s.start).testBit i = false :=
    fun s hs v hv => testBit_shiftLeft_of_not_owns hv (hi s hs)
  simp only [EAIT_Control_01.signals, List.forall_mem_cons] at hfield
  obtain ⟨h1, h2, h3, h4, h5, h6, h7, h8, -⟩ := hfield
  rw [intFromBytes_lowBytes, Nat.mod_eq_of_lt (control01Raw_spec cmd haeb alivCnt).1,
    ← control01Raw_eq_or cmd haeb]
  simp only [Nat.testBit_or, Bool.or_eq_false_iff]
  exact ⟨⟨⟨⟨⟨⟨⟨h1 _ cmd.epsEn.toNat_lt, h2 _ cmd.epsOverrideIgnore.toNat_lt⟩,
    h3 _ (lowBits_lt _ _)⟩, h4 _ cmd.accEn.toNat_lt⟩, h5 _ cmd.aebEn.toNat_lt⟩,
    h6 _ (lowBits_lt _ _)⟩, h7 _ haeb⟩, h8 _ (lowBits_lt _ _)⟩

/-- Every command with a finite deceleration is carried. -/
theorem encode0x156_carries {cmd : Command} {aeb : ℚ} (h : cmd.aebDecelValue = .fin aeb)
    (alivCnt : ℤ) : ∃ b, encode0x156 cmd alivCnt = .ok b ∧ Control01.Carries b cmd aeb alivCnt := by
  have haeb := lowBits_lt 8 (roundHalfEven (aeb / (1 / 100)))
  have hpercent : aeb / (1 / 100) = aeb * 100 := by rw [div_div_eq_mul_div, div_one]
  obtain ⟨hlen, h1, h2, h3, h4, h5, h6, h7, h8⟩ := (control01Raw_spec cmd haeb alivCnt).2
  have hunit : ∀ {s : Signal} {b : Bytes} {n : ℕ}, s.signed = false → s.offset = 0 →
      s.scale = 1 → s.decode b = n → s.raw b = n := by
    intro s b n hsigned hoffset hscale hdecode
    refine Signal.raw_of_decode hsigned hoffset (by simp [hscale]) ?_
    rw [hdecode, hscale, mul_one]
  refine ⟨_, encode0x156_eq h alivCnt, hlen, hunit rfl rfl rfl h1, hunit rfl rfl rfl h2, ?_,
    hunit rfl rfl rfl h4, hunit rfl rfl rfl h5, ?_, ?_, ?_, control01Raw_unowned cmd haeb alivCnt⟩
  · rw [hunit rfl rfl rfl h3, coe_lowBits]
    rfl
  · rw [hunit rfl rfl rfl h6, coe_lowBits]
    rfl
  · rw [Signal.raw_of_decode rfl rfl (by decide +kernel) (h7.trans (mul_one_div _ _).symm),
      coe_lowBits, hpercent]
    rfl
  · rw [hunit rfl rfl rfl h8, coe_lowBits]
    rfl

/-! ## EAIT_Control_02 -/

/-- A frame 0x157 decodes to the clamped angle and acceleration within half a step, and the
integers packed for them fit their fields. -/
structure Control02.Near (b : Bytes) (epsCmd accCmd : ℚ) : Prop where
  length : b.length = 8
  epsCmd : |EAIT_Control_02.EPS_Cmd.decode b - clamp epsCmdMin epsCmdMax epsCmd| ≤ 1 / 20
  accCmd : |EAIT_Control_02.ACC_Cmd.decode b - clamp accCmdMin accCmdMax accCmd| ≤ 1 / 200
  epsFits : ∃ n : ℤ, -2 ^ 15 ≤ n ∧ n < 2 ^ 15 ∧ EAIT_Control_02.EPS_Cmd.decode b = n / 10
  accFits : ∃ n : ℤ, 0 ≤ n ∧ n < 2 ^ 16 ∧
    EAIT_Control_02.ACC_Cmd.decode b = n / 100 + accCmdOffset
  unowned : UnownedClear EAIT_Control_02.signals b

theorem packControl02_unowned (epsRaw accRaw : ℤ) :
    UnownedClear EAIT_Control_02.signals (packControl02 epsRaw accRaw) := by
  intro i hi
  have hfield : ∀ s ∈ EAIT_Control_02.signals, ∀ v < 2 ^ s.length,
      (v <<< s.start).testBit i = false :=
    fun s hs v hv => testBit_shiftLeft_of_not_owns hv (hi s hs)
  simp only [EAIT_Control_02.signals, List.forall_mem_cons] at hfield
  obtain ⟨h1, h2, -⟩ := hfield
  have hlow := lowBits_lt 16 epsRaw
  rw [intFromBytes_packControl02, ← or_shiftLeft (hlow.trans (by norm_num)), Nat.testBit_or,
    Bool.or_eq_false_iff]
  exact ⟨h1 _ hlow, h2 _ (lowBits_lt _ _)⟩

/-- The angle of an encoded command as a receiver decodes it. -/
theorem decode_epsCmd {cmd : Command} {b : Bytes} {eps : ℚ} (hb : encode0x157 cmd = .ok b)
    (h : cmd.epsCmd = .fin eps) : EAIT_Control_02.EPS_Cmd.decode b =
      roundHalfEven (clamp epsCmdMin epsCmdMax eps / (1 / 10)) / 10 := by
  obtain ⟨b', eps', _, hb', he, -, -, -, -, -, hspec⟩ := encode0x157_spec cmd
  rw [hb, Except.ok.injEq] at hb'
  rw [h, PyFloat.pyClamp_fin, ← clamp, PyFloat.fin.injEq] at he
  rw [hb', hspec.epsCmd, he]

/-- The acceleration of an encoded command as a receiver decodes it. -/
theorem decode_accCmd {cmd : Command} {b : Bytes} {acc : ℚ} (hb : encode0x157 cmd = .ok b)
    (h : cmd.accCmd = .fin acc) : EAIT_Control_02.ACC_Cmd.decode b =
      roundHalfEven ((clamp accCmdMin accCmdMax acc - accCmdOffset) / (1 / 100)) / 100 +
        accCmdOffset := by
  obtain ⟨b', _, acc', hb', -, ha, -, -, -, -, hspec⟩ := encode0x157_spec cmd
  rw [hb, Except.ok.injEq] at hb'
  rw [h, PyFloat.pyClamp_fin, ← clamp, PyFloat.fin.injEq] at ha
  rw [hb', hspec.accCmd, ha]

/-- Every command with a finite angle and acceleration is sent within half a step. -/
theorem encode0x157_near {cmd : Command} {eps acc : ℚ} (he : cmd.epsCmd = .fin eps)
    (ha : cmd.accCmd = .fin acc) : ∃ b, encode0x157 cmd = .ok b ∧ Control02.Near b eps acc := by
  have hclamp : ∀ {v : PyFloat} {q lo hi : ℚ}, v = .fin q →
      pyClamp (.fin lo) (.fin hi) v = .fin (clamp lo hi q) := by
    rintro v q lo hi rfl
    exact PyFloat.pyClamp_fin lo hi q
  obtain ⟨⟨hr0, hr1⟩, ⟨hs0, hs1⟩, hb⟩ := encode0x157_eq (hclamp he) (hclamp ha)
  refine ⟨_, hb, by simp [packControl02], ?_, ?_, ?_, ?_, packControl02_unowned _ _⟩
  · have hround := abs_roundHalfEven_div_mul_sub_le (show (0 : ℚ) < 1 / 10 by norm_num)
      (clamp epsCmdMin epsCmdMax eps)
    rw [decode_epsCmd hb he, ← mul_one_div]
    linarith
  · have hround := abs_roundHalfEven_div_mul_sub_le (show (0 : ℚ) < 1 / 100 by norm_num)
      (clamp accCmdMin accCmdMax acc - accCmdOffset)
    rw [decode_accCmd hb ha, ← mul_one_div, ← sub_sub_eq_add_sub]
    linarith
  · exact ⟨_, by linarith, by linarith, decode_epsCmd hb he⟩
  · exact ⟨_, by linarith, by linarith, decode_accCmd hb ha⟩

/-- A frame without stray bits whose values are in range is what its values encode to. -/
theorem encode0x157_decode {b : Bytes} {cmd : Command} (hlen : b.length = 8)
    (hclear : UnownedClear EAIT_Control_02.signals b)
    (heps : EAIT_Control_02.EPS_Cmd.decode b ∈ Set.Icc epsCmdMin epsCmdMax)
    (hacc : EAIT_Control_02.ACC_Cmd.decode b ∈ Set.Icc accCmdMin accCmdMax)
    (he : cmd.epsCmd = .fin (EAIT_Control_02.EPS_Cmd.decode b))
    (ha : cmd.accCmd = .fin (EAIT_Control_02.ACC_Cmd.decode b)) : encode0x157 cmd = .ok b := by
  obtain ⟨b', hb, hnear⟩ := encode0x157_near he ha
  have hepsEq : EAIT_Control_02.EPS_Cmd.decode b' = EAIT_Control_02.EPS_Cmd.decode b := by
    obtain ⟨v, hv, -⟩ := EAIT_Control_02.EPS_Cmd.exists_value b
    have hint : EAIT_Control_02.EPS_Cmd.decode b / (1 / 10) = v := by
      rw [hv]
      simp [EAIT_Control_02.EPS_Cmd]
    rw [decode_epsCmd hb he, clamp_of_mem heps.1 heps.2, hint, roundHalfEven_intCast, ← hint]
    ring
  have haccEq : EAIT_Control_02.ACC_Cmd.decode b' = EAIT_Control_02.ACC_Cmd.decode b := by
    obtain ⟨v, hv, -⟩ := EAIT_Control_02.ACC_Cmd.exists_value b
    have hint : (EAIT_Control_02.ACC_Cmd.decode b - accCmdOffset) / (1 / 100) = v := by
      rw [hv]
      simp [EAIT_Control_02.ACC_Cmd, accCmdOffset]
    rw [decode_accCmd hb ha, clamp_of_mem hacc.1 hacc.2, hint, roundHalfEven_intCast, ← hint]
    ring
  rw [hb, Except.ok.injEq]
  refine eq_of_raw_eq (hnear.length.trans hlen.symm) ?_ hnear.unowned hclear
  simp only [EAIT_Control_02.signals, List.forall_mem_cons]
  exact ⟨Signal.raw_eq_of_decode_eq (by decide +kernel) hepsEq,
    Signal.raw_eq_of_decode_eq (by decide +kernel) haccEq, by simp⟩

/-- What the encoders and the decoder owe each other. -/
structure ControlFramesAgree : Prop where
  control01 : ∀ (cmd : Command) (aeb : ℚ) (alivCnt : ℤ), cmd.aebDecelValue = .fin aeb →
    ∃ b, encode0x156 cmd alivCnt = .ok b ∧ Control01.Carries b cmd aeb alivCnt
  control02 : ∀ (cmd : Command) (eps acc : ℚ), cmd.epsCmd = .fin eps → cmd.accCmd = .fin acc →
    ∃ b, encode0x157 cmd = .ok b ∧ Control02.Near b eps acc
  epsCmd_mono : ∀ (cmd cmd' : Command) (eps eps' : ℚ) (b b' : Bytes), cmd.epsCmd = .fin eps →
    cmd'.epsCmd = .fin eps' → encode0x157 cmd = .ok b → encode0x157 cmd' = .ok b' → eps ≤ eps' →
      EAIT_Control_02.EPS_Cmd.decode b ≤ EAIT_Control_02.EPS_Cmd.decode b'
  accCmd_mono : ∀ (cmd cmd' : Command) (acc acc' : ℚ) (b b' : Bytes), cmd.accCmd = .fin acc →
    cmd'.accCmd = .fin acc' → encode0x157 cmd = .ok b → encode0x157 cmd' = .ok b' → acc ≤ acc' →
      EAIT_Control_02.ACC_Cmd.decode b ≤ EAIT_Control_02.ACC_Cmd.decode b'
  reencode : ∀ (b : Bytes) (cmd : Command), b.length = 8 →
    UnownedClear EAIT_Control_02.signals b →
    EAIT_Control_02.EPS_Cmd.decode b ∈ Set.Icc epsCmdMin epsCmdMax →
    EAIT_Control_02.ACC_Cmd.decode b ∈ Set.Icc accCmdMin accCmdMax →
    cmd.epsCmd = .fin (EAIT_Control_02.EPS_Cmd.decode b) →
    cmd.accCmd = .fin (EAIT_Control_02.ACC_Cmd.decode b) → encode0x157 cmd = .ok b

/-- The encoders and the decoder agree on both control frames. -/
theorem control_frames_agree : ControlFramesAgree where
  control01 _ _ alivCnt h := encode0x156_carries h alivCnt
  control02 _ _ _ he ha := encode0x157_near he ha
  epsCmd_mono cmd cmd' eps eps' b b' he he' hb hb' hle := by
    rw [decode_epsCmd hb he, decode_epsCmd hb' he']
    have hround : roundHalfEven (clamp epsCmdMin epsCmdMax eps / (1 / 10)) ≤
        roundHalfEven (clamp epsCmdMin epsCmdMax eps' / (1 / 10)) :=
      roundHalfEven_mono (div_le_div_of_nonneg_right (clamp_mono hle) (by norm_num))
    exact div_le_div_of_nonneg_right (Int.cast_le.2 hround) (by norm_num)
  accCmd_mono cmd cmd' acc acc' b b' ha ha' hb hb' hle := by
    rw [decode_accCmd hb ha, decode_accCmd hb' ha']
    have hround : roundHalfEven ((clamp accCmdMin accCmdMax acc - accCmdOffset) / (1 / 100)) ≤
        roundHalfEven ((clamp accCmdMin accCmdMax acc' - accCmdOffset) / (1 / 100)) :=
      roundHalfEven_mono (div_le_div_of_nonneg_right (sub_le_sub_right (clamp_mono hle) _)
        (by norm_num))
    exact add_le_add_left (div_le_div_of_nonneg_right (Int.cast_le.2 hround) (by norm_num)) _
  reencode _ _ hlen hclear heps hacc he ha := encode0x157_decode hlen hclear heps hacc he ha

end A1Bsw
