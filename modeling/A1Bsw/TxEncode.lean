import A1Bsw.Dbc
import A1Bsw.Plausibility

/-!
# Frame encoders

`encode0x156` and `encode0x157` of `tx_encode.py`. The first builds a 64-bit
integer field by field, the second packs two 16-bit fields with `struct`.
Both can raise, on a float that does not round to an integer or on a field
that does not fit.

`EAIT_Control_01` and `EAIT_Control_02` of the DBC file are the signals a
receiver decodes. `encode0x156_spec` and `encode0x157_spec` say for a
clamped command that the encoders return eight bytes, and what each signal
of them decodes to.
-/

namespace A1Bsw

/-- `_ACC_CMD_OFFSET`. -/
def accCmdOffset : ℚ := -1023 / 100

/-- `struct.pack('<h', n)`. -/
def packInt16 (n : ℤ) : Except PyError Bytes :=
  if -2 ^ 15 ≤ n ∧ n < 2 ^ 15 then .ok (lowBytes (lowBits 16 n) 2) else .error .structError

/-- `struct.pack('<H', n)`. -/
def packUInt16 (n : ℕ) : Except PyError Bytes :=
  if n < 2 ^ 16 then .ok (lowBytes n 2) else .error .structError

/-- `encode_0x156`. -/
def encode0x156 (cmd : Command) (alivCnt : ℤ) : Except PyError Bytes := do
  let aebDecelRaw := lowBits 8 (← (cmd.aebDecelValue.divLit (1 / 100)).round)
  let raw := 0
  let raw := raw ||| (if cmd.epsEn then 1 else 0) <<< 0
  let raw := raw ||| (if cmd.epsOverrideIgnore then 1 else 0) <<< 2
  let raw := raw ||| lowBits 8 cmd.epsSpeed <<< 8
  let raw := raw ||| (if cmd.accEn then 1 else 0) <<< 16
  let raw := raw ||| (if cmd.aebEn then 1 else 0) <<< 22
  let raw := raw ||| lowBits 3 cmd.turnSignal <<< 40
  let raw := raw ||| aebDecelRaw <<< 48
  let raw := raw ||| lowBits 8 alivCnt <<< 56
  toBytes raw 8

/-- `encode_0x157`. -/
def encode0x157 (cmd : Command) : Except PyError Bytes := do
  let eps := pyClamp (.fin epsCmdMin) (.fin epsCmdMax) cmd.epsCmd
  let acc := pyClamp (.fin accCmdMin) (.fin accCmdMax) cmd.accCmd
  let epsRaw ← (eps.divLit (1 / 10)).round
  let accRaw := lowBits 16 (← ((acc - .fin accCmdOffset).divLit (1 / 100)).round)
  let h ← packInt16 epsRaw
  let H ← packUInt16 accRaw
  return h ++ [0] ++ H ++ [0, 0, 0]

/-! ## The signals of the DBC file -/

namespace EAIT_Control_01

def EPS_En : Signal := { start := 0, length := 1 }

def EPS_Override_Ignore : Signal := { start := 2, length := 1 }

def EPS_Speed : Signal := { start := 8, length := 8 }

def ACC_En : Signal := { start := 16, length := 1 }

def AEB_En : Signal := { start := 22, length := 1 }

def Turn_Signal : Signal := { start := 40, length := 3 }

def AEB_decel_value : Signal := { start := 48, length := 8, scale := 1 / 100 }

def Aliv_Cnt : Signal := { start := 56, length := 8 }

end EAIT_Control_01

namespace EAIT_Control_02

def EPS_Cmd : Signal := { start := 0, length := 16, signed := true, scale := 1 / 10 }

def ACC_Cmd : Signal := { start := 24, length := 16, scale := 1 / 100, offset := -1023 / 100 }

end EAIT_Control_02

/-! ## EAIT_Control_01 -/

/-- The integer `encode_0x156` builds, as a sum of its fields. -/
def control01Raw (cmd : Command) (aebDecelRaw : ℕ) (alivCnt : ℤ) : ℕ :=
  cmd.epsEn.toNat + cmd.epsOverrideIgnore.toNat * 2 ^ 2 + lowBits 8 cmd.epsSpeed * 2 ^ 8 +
    cmd.accEn.toNat * 2 ^ 16 + cmd.aebEn.toNat * 2 ^ 22 + lowBits 3 cmd.turnSignal * 2 ^ 40 +
    aebDecelRaw * 2 ^ 48 + lowBits 8 alivCnt * 2 ^ 56

/-- What a receiver decodes from a frame 0x156. -/
structure Control01 (b : Bytes) (cmd : Command) (aebDecelRaw : ℕ) (alivCnt : ℤ) : Prop where
  length : b.length = 8
  epsEn : EAIT_Control_01.EPS_En.decode b = cmd.epsEn.toNat
  epsOverrideIgnore : EAIT_Control_01.EPS_Override_Ignore.decode b = cmd.epsOverrideIgnore.toNat
  epsSpeed : EAIT_Control_01.EPS_Speed.decode b = lowBits 8 cmd.epsSpeed
  accEn : EAIT_Control_01.ACC_En.decode b = cmd.accEn.toNat
  aebEn : EAIT_Control_01.AEB_En.decode b = cmd.aebEn.toNat
  turnSignal : EAIT_Control_01.Turn_Signal.decode b = lowBits 3 cmd.turnSignal
  aebDecelValue : EAIT_Control_01.AEB_decel_value.decode b = aebDecelRaw / 100
  alivCnt : EAIT_Control_01.Aliv_Cnt.decode b = lowBits 8 alivCnt

/-- The fields of the integer do not overlap, so each of them reads back. -/
theorem control01Raw_spec (cmd : Command) {aebDecelRaw : ℕ} (haeb : aebDecelRaw < 2 ^ 8)
    (alivCnt : ℤ) :
    control01Raw cmd aebDecelRaw alivCnt < 256 ^ 8 ∧
      Control01 (lowBytes (control01Raw cmd aebDecelRaw alivCnt) 8) cmd aebDecelRaw alivCnt := by
  have h1 := cmd.epsEn.toNat_lt
  have h2 := cmd.epsOverrideIgnore.toNat_lt
  have h3 := lowBits_lt 8 cmd.epsSpeed
  have h4 := cmd.accEn.toNat_lt
  have h5 := cmd.aebEn.toNat_lt
  have h6 := lowBits_lt 3 cmd.turnSignal
  have h7 := lowBits_lt 8 alivCnt
  have hlt : control01Raw cmd aebDecelRaw alivCnt < 256 ^ 8 := by
    unfold control01Raw
    omega
  refine ⟨hlt, length_lowBytes _ _, ?_, ?_, ?_, ?_, ?_, ?_, ?_, ?_⟩
  all_goals
    simp only [Signal.decode, unpack, EAIT_Control_01.EPS_En, EAIT_Control_01.EPS_Override_Ignore,
      EAIT_Control_01.EPS_Speed, EAIT_Control_01.ACC_En, EAIT_Control_01.AEB_En,
      EAIT_Control_01.Turn_Signal, EAIT_Control_01.AEB_decel_value, EAIT_Control_01.Aliv_Cnt,
      Bool.false_and, Bool.false_eq_true, if_false, unpackRaw_lowBytes hlt, Int.cast_natCast,
      add_zero, mul_one, mul_one_div]
    unfold control01Raw
    congr 1
    first
      | omega
      | congr 1
        omega

/-- Each field lies above all the bits set before it. -/
theorem control01Raw_eq_or (cmd : Command) {aebDecelRaw : ℕ} (haeb : aebDecelRaw < 2 ^ 8)
    (alivCnt : ℤ) :
    cmd.epsEn.toNat <<< 0 ||| cmd.epsOverrideIgnore.toNat <<< 2 ||| lowBits 8 cmd.epsSpeed <<< 8 |||
      cmd.accEn.toNat <<< 16 ||| cmd.aebEn.toNat <<< 22 ||| lowBits 3 cmd.turnSignal <<< 40 |||
      aebDecelRaw <<< 48 ||| lowBits 8 alivCnt <<< 56 = control01Raw cmd aebDecelRaw alivCnt := by
  have h1 := cmd.epsEn.toNat_lt
  have h2 := cmd.epsOverrideIgnore.toNat_lt
  have h3 := lowBits_lt 8 cmd.epsSpeed
  have h4 := cmd.accEn.toNat_lt
  have h5 := cmd.aebEn.toNat_lt
  have h6 := lowBits_lt 3 cmd.turnSignal
  rw [Nat.shiftLeft_zero, control01Raw, or_shiftLeft (s := 2) (by omega),
    or_shiftLeft (s := 8) (by omega), or_shiftLeft (s := 16) (by omega),
    or_shiftLeft (s := 22) (by omega), or_shiftLeft (s := 40) (by omega),
    or_shiftLeft (s := 48) (by omega), or_shiftLeft (s := 56) (by omega)]

/-- A finite deceleration encodes, whatever the other fields are. -/
theorem encode0x156_eq {cmd : Command} {q : ℚ} (h : cmd.aebDecelValue = .fin q) (alivCnt : ℤ) :
    encode0x156 cmd alivCnt =
      .ok (lowBytes (control01Raw cmd (lowBits 8 (roundHalfEven (q / (1 / 100)))) alivCnt) 8) := by
  have haeb := lowBits_lt 8 (roundHalfEven (q / (1 / 100)))
  have hbit : ∀ b : Bool, (if b = true then 1 else 0) = b.toNat := by decide
  simp only [encode0x156, h, PyFloat.divLit_fin, PyFloat.round_fin, hbit]
  show toBytes _ 8 = _
  rw [Nat.zero_or, control01Raw_eq_or cmd haeb, toBytes,
    if_pos (control01Raw_spec cmd haeb alivCnt).1]

/-- A command whose deceleration is in range is sent as such. -/
theorem encode0x156_spec {cmd : Command} {q : ℚ} (h : cmd.aebDecelValue = .fin q)
    (h0 : aebDecelMin ≤ q) (h1 : q ≤ aebDecelMax) (alivCnt : ℤ) :
    ∃ (b : Bytes) (aebDecelRaw : ℕ), encode0x156 cmd alivCnt = .ok b ∧ aebDecelRaw ≤ 100 ∧
      (aebDecelRaw : ℤ) = roundHalfEven (q / (1 / 100)) ∧ Control01 b cmd aebDecelRaw alivCnt := by
  unfold aebDecelMin at h0
  unfold aebDecelMax at h1
  obtain ⟨hr0, hr1⟩ : 0 ≤ roundHalfEven (q / (1 / 100)) ∧ roundHalfEven (q / (1 / 100)) ≤ 100 :=
    roundHalfEven_mem (by push_cast; linarith) (by push_cast; linarith)
  have hraw := lowBits_of_lt (n := 8) hr0 (by linarith)
  exact ⟨_, _, encode0x156_eq h alivCnt, by omega, hraw,
    (control01Raw_spec cmd (lowBits_lt 8 _) alivCnt).2⟩

/-! ## EAIT_Control_02 -/

/-- What a receiver decodes from a frame 0x157. -/
structure Control02 (b : Bytes) (epsRaw accRaw : ℤ) : Prop where
  length : b.length = 8
  epsCmd : EAIT_Control_02.EPS_Cmd.decode b = epsRaw / 10
  accCmd : EAIT_Control_02.ACC_Cmd.decode b = accRaw / 100 + accCmdOffset

/-- The bytes `struct.pack('<hxH3x', h, H)` lays out. -/
def packControl02 (epsRaw accRaw : ℤ) : Bytes :=
  lowBytes (lowBits 16 epsRaw) 2 ++ [0] ++ lowBytes (lowBits 16 accRaw) 2 ++ [0, 0, 0]

theorem intFromBytes_packControl02 (epsRaw accRaw : ℤ) :
    intFromBytes (packControl02 epsRaw accRaw) =
      lowBits 16 epsRaw + lowBits 16 accRaw * 2 ^ 24 := by
  have hw1 := lowBits_lt 16 epsRaw
  have hw2 := lowBits_lt 16 accRaw
  simp only [packControl02, intFromBytes_append, intFromBytes_lowBytes, intFromBytes,
    List.length_append, length_lowBytes, List.length_singleton, UInt8.toNat_zero]
  omega

/-- The two packed fields read back. -/
theorem control02_spec {epsRaw accRaw : ℤ} (h0 : -2 ^ 15 ≤ epsRaw) (h1 : epsRaw < 2 ^ 15)
    (h2 : 0 ≤ accRaw) (h3 : accRaw < 2 ^ 16) :
    Control02 (packControl02 epsRaw accRaw) epsRaw accRaw := by
  have hw1 := lowBits_lt 16 epsRaw
  have hw2 := lowBits_lt 16 accRaw
  have hfit := lowBits_of_lt h2 h3
  have hword := intFromBytes_packControl02 epsRaw accRaw
  have heps : unpackRaw (packControl02 epsRaw accRaw) 0 16 = lowBits 16 epsRaw := by
    rw [unpackRaw_eq, hword]
    omega
  have hacc : unpackRaw (packControl02 epsRaw accRaw) 24 16 = lowBits 16 accRaw := by
    rw [unpackRaw_eq, hword]
    omega
  refine ⟨by simp [packControl02], ?_, ?_⟩
  · refine (unpack_signed heps h0 h1 _ _).trans ?_
    simp only [EAIT_Control_02.EPS_Cmd]
    ring
  · simp only [Signal.decode, unpack, EAIT_Control_02.ACC_Cmd, Bool.false_and, Bool.false_eq_true,
      if_false, hacc, hfit, accCmdOffset]
    ring

/-- The clamped angle and acceleration round into the ranges of their fields. -/
theorem encode0x157_eq {cmd : Command} {eps acc : ℚ}
    (he : pyClamp (.fin epsCmdMin) (.fin epsCmdMax) cmd.epsCmd = .fin eps)
    (ha : pyClamp (.fin accCmdMin) (.fin accCmdMax) cmd.accCmd = .fin acc) :
    (-5000 ≤ roundHalfEven (eps / (1 / 10)) ∧ roundHalfEven (eps / (1 / 10)) ≤ 5000) ∧
    (723 ≤ roundHalfEven ((acc - accCmdOffset) / (1 / 100)) ∧
      roundHalfEven ((acc - accCmdOffset) / (1 / 100)) ≤ 1123) ∧
    encode0x157 cmd = .ok (packControl02 (roundHalfEven (eps / (1 / 10)))
      (roundHalfEven ((acc - accCmdOffset) / (1 / 100)))) := by
  obtain ⟨eps', he', he0, he1⟩ :=
    PyFloat.pyClamp_mem epsCmdMin_le_epsCmdMax cmd.epsCmd
  obtain ⟨acc', ha', ha0, ha1⟩ :=
    PyFloat.pyClamp_mem accCmdMin_le_accCmdMax cmd.accCmd
  obtain rfl : eps = eps' := PyFloat.fin.inj (he.symm.trans he')
  obtain rfl : acc = acc' := PyFloat.fin.inj (ha.symm.trans ha')
  unfold epsCmdMin at he0
  unfold epsCmdMax at he1
  unfold accCmdMin at ha0
  unfold accCmdMax at ha1
  obtain ⟨hr0, hr1⟩ : -5000 ≤ roundHalfEven (eps / (1 / 10)) ∧
      roundHalfEven (eps / (1 / 10)) ≤ 5000 :=
    roundHalfEven_mem (by push_cast; linarith) (by push_cast; linarith)
  obtain ⟨hs0, hs1⟩ : 723 ≤ roundHalfEven ((acc - accCmdOffset) / (1 / 100)) ∧
      roundHalfEven ((acc - accCmdOffset) / (1 / 100)) ≤ 1123 := by
    unfold accCmdOffset
    exact roundHalfEven_mem (by push_cast; linarith) (by push_cast; linarith)
  refine ⟨⟨hr0, hr1⟩, ⟨hs0, hs1⟩, ?_⟩
  have hfit : lowBits 16 (roundHalfEven ((acc - accCmdOffset) / (1 / 100))) < 2 ^ 16 :=
    lowBits_lt _ _
  simp only [encode0x157, he, ha, PyFloat.fin_sub_fin, PyFloat.divLit_fin, PyFloat.round_fin]
  show (do
    let h ← packInt16 _
    let H ← packUInt16 _
    return h ++ [0] ++ H ++ [0, 0, 0]) = _
  rw [packInt16, if_pos ⟨by linarith, by linarith⟩, packUInt16, if_pos hfit]
  rfl

/-- Every command encodes : the encoder clamps the angle and the acceleration itself. -/
theorem encode0x157_spec (cmd : Command) :
    ∃ (b : Bytes) (eps acc : ℚ), encode0x157 cmd = .ok b ∧
      pyClamp (.fin epsCmdMin) (.fin epsCmdMax) cmd.epsCmd = .fin eps ∧
      pyClamp (.fin accCmdMin) (.fin accCmdMax) cmd.accCmd = .fin acc ∧
      -5000 ≤ roundHalfEven (eps / (1 / 10)) ∧ roundHalfEven (eps / (1 / 10)) ≤ 5000 ∧
      723 ≤ roundHalfEven ((acc - accCmdOffset) / (1 / 100)) ∧
      roundHalfEven ((acc - accCmdOffset) / (1 / 100)) ≤ 1123 ∧
      Control02 b (roundHalfEven (eps / (1 / 10)))
        (roundHalfEven ((acc - accCmdOffset) / (1 / 100))) := by
  obtain ⟨eps, he, -⟩ :=
    PyFloat.pyClamp_mem epsCmdMin_le_epsCmdMax cmd.epsCmd
  obtain ⟨acc, ha, -⟩ :=
    PyFloat.pyClamp_mem accCmdMin_le_accCmdMax cmd.accCmd
  obtain ⟨⟨hr0, hr1⟩, ⟨hs0, hs1⟩, hb⟩ := encode0x157_eq he ha
  exact ⟨_, eps, acc, hb, he, ha, hr0, hr1, hs0, hs1,
    control02_spec (by linarith) (by linarith) (by linarith) (by linarith)⟩

end A1Bsw
