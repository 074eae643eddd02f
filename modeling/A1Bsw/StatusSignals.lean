import Mathlib.Algebra.BigOperators.Group.Finset.Basic
import A1Bsw.StatusDecoders

/-!
# Status messages and the DBC file

The signals of the four `EAIT_INFO` messages, as the rows of the DBC file have
them, and the value the file gives a signal in a payload : its bits weighted
by powers of two, in two's complement if it is signed, scaled and shifted
(`Signal.dbcValue`).

The decoders read them in three ways : by shifts and masks of the whole
payload, by `struct` and by a mask of one byte. Each is the value of the DBC
file, so every field of a status message is, for every payload
(`status_decoders_equal_dbc`).
-/

namespace A1Bsw

/-! ## The bits of a payload -/

/-- Bit `i` of a payload : bit `i % 8` of byte `i / 8`. -/
def payloadBit (data8 : Bytes) (i : ℕ) : Bool :=
  (data8.getD (i / 8) 0).toNat.testBit (i % 8)

theorem testBit_intFromBytes (data8 : Bytes) (i : ℕ) :
    (intFromBytes data8).testBit i = payloadBit data8 i := by
  induction data8 generalizing i with
  | nil => simp [intFromBytes, payloadBit]
  | cons b data8 ih =>
    have hb : b.toNat < 2 ^ 8 := b.toNat_lt
    rw [intFromBytes, Nat.add_comm, show 256 = 2 ^ 8 from rfl, Nat.testBit_two_pow_mul_add _ hb]
    split_ifs with hi
    · rw [payloadBit, Nat.div_eq_of_lt hi, Nat.mod_eq_of_lt hi, List.getD_cons_zero]
    · obtain ⟨k, rfl⟩ := Nat.exists_eq_add_of_le' (not_lt.1 hi)
      rw [Nat.add_sub_cancel, ih, payloadBit, payloadBit, Nat.add_div_right _ (by decide),
        Nat.add_mod_right, List.getD_cons_succ]

/-- The weighted bits of a number. -/
theorem sum_testBit (n k : ℕ) :
    ∑ j ∈ Finset.range k, (n.testBit j).toNat * 2 ^ j = n % 2 ^ k := by
  induction k with
  | zero => rw [Finset.sum_range_zero, pow_zero, Nat.mod_one]
  | succ k ih => rw [Finset.sum_range_succ, ih, Nat.toNat_testBit, Nat.mod_pow_succ, Nat.mul_comm]

/-! ## The value of a signal -/

namespace Signal

variable (s : Signal) (data8 : Bytes)

/-- The bits of a signal, weighted by powers of two. -/
def weightedBits : ℕ :=
  ∑ j ∈ Finset.range s.length, (payloadBit data8 (s.start + j)).toNat * 2 ^ j

/-- The value of a signal by the DBC file. -/
def dbcValue : ℚ :=
  ((s.weightedBits data8 : ℚ) -
    if s.signed ∧ payloadBit data8 (s.start + (s.length - 1)) then 2 ^ s.length else 0) *
      s.scale + s.offset

theorem raw_eq_weightedBits : s.raw data8 = s.weightedBits data8 := by
  rw [← Nat.mod_eq_of_lt (s.raw_lt data8), ← sum_testBit]
  refine Finset.sum_congr rfl fun j hj => ?_
  rw [testBit_raw, decide_eq_true (Finset.mem_range.1 hj), Bool.and_true, testBit_intFromBytes]

/-- The test of the sign bit in `unpack`. -/
theorem and_signBit_ne_zero_iff_payloadBit (hpos : 0 < s.length) :
    s.raw data8 &&& 1 <<< (s.length - 1) ≠ 0 ↔ payloadBit data8 (s.start + (s.length - 1)) := by
  have hlast : s.length - 1 < s.length := by omega
  rw [Nat.one_shiftLeft, Nat.and_two_pow, testBit_raw, decide_eq_true hlast, Bool.and_true,
    testBit_intFromBytes]
  cases payloadBit data8 (s.start + (s.length - 1)) <;> simp

/-- `unpack` gives the value of the DBC file. -/
theorem decode_eq_dbcValue (hpos : 0 < s.length) : s.decode data8 = s.dbcValue data8 := by
  have hsign : (s.signed && s.raw data8 &&& 1 <<< (s.length - 1) != 0) = true ↔
      s.signed ∧ payloadBit data8 (s.start + (s.length - 1)) := by
    rw [Bool.and_eq_true, bne_iff_ne, and_signBit_ne_zero_iff_payloadBit s data8 hpos]
  rw [decode, unpack, dbcValue, ← raw_eq_weightedBits]
  congr 2
  rw [raw] at hsign ⊢
  simp only [hsign]
  split_ifs
  · push_cast [Nat.one_shiftLeft]
    rfl
  · rw [sub_zero, Int.cast_natCast]

/-- The value of a signal depends on its own bits only. -/
theorem dbcValue_congr (hpos : 0 < s.length) {xs ys : Bytes}
    (h : ∀ i, s.Owns i → payloadBit xs i = payloadBit ys i) : s.dbcValue xs = s.dbcValue ys := by
  have hbits : s.weightedBits xs = s.weightedBits ys := by
    refine Finset.sum_congr rfl fun j hj => ?_
    rw [h _ ⟨Nat.le_add_right _ _, Nat.add_lt_add_left (Finset.mem_range.1 hj) _⟩]
  have htop : payloadBit xs (s.start + (s.length - 1)) = payloadBit ys (s.start + (s.length - 1)) :=
    h _ ⟨Nat.le_add_right _ _, by omega⟩
  rw [dbcValue, dbcValue, hbits, htop]

end Signal

/-! ## The signals of the DBC file -/

namespace EAIT_INFO_EPS

def EPS_En_Status : Signal := { start := 0, length := 1 }

def EPS_Control_Board_Status : Signal := { start := 1, length := 3 }

def EPS_Control_Status : Signal := { start := 8, length := 4 }

def EPS_USER_CAN_ERR : Signal := { start := 4, length := 1 }

def EPS_ERR : Signal := { start := 5, length := 1 }

def EPS_Veh_CAN_ERR : Signal := { start := 6, length := 1 }

def EPS_SAS_ERR : Signal := { start := 7, length := 1 }

def Override_Ignore_Status : Signal := { start := 12, length := 1 }

def Override_Status : Signal := { start := 13, length := 1 }

def StrAng : Signal := { start := 16, length := 16, signed := true, scale := 1 / 10 }

def Str_Drv_Tq : Signal := { start := 32, length := 12, scale := 1 / 100, offset := -2048 / 100 }

def Str_Out_Tq : Signal := { start := 44, length := 12, scale := 1 / 10, offset := -2048 / 10 }

def EPS_Alive_Cnt : Signal := { start := 56, length := 8 }

end EAIT_INFO_EPS

namespace EAIT_INFO_ACC

def ACC_En_Status : Signal := { start := 0, length := 1 }

def ACC_Control_Board_Status : Signal := { start := 1, length := 3 }

def ACC_Control_Status : Signal := { start := 8, length := 4 }

def ACC_USER_CAN_ERR : Signal := { start := 4, length := 1 }

def ACC_ERR : Signal := { start := 7, length := 1 }

def VS : Signal := { start := 16, length := 8 }

def Long_Accel : Signal := { start := 32, length := 11, scale := 1 / 100, offset := -1023 / 100 }

def Hazard_En : Signal := { start := 49, length := 1 }

def Turn_Left_En : Signal := { start := 50, length := 1 }

def Turn_Right_En : Signal := { start := 48, length := 1 }

def ACC_Veh_ERR : Signal := { start := 6, length := 1 }

def G_SEL_DISP : Signal := { start := 52, length := 4 }

def ACC_Alive_Cnt : Signal := { start := 56, length := 8 }

end EAIT_INFO_ACC

namespace EAIT_INFO_SPD

def WHEEL_SPD_FR : Signal := { start := 0, length := 16, scale := 1 / 32 }

def WHEEL_SPD_FL : Signal := { start := 16, length := 16, scale := 1 / 32 }

def WHEEL_SPD_RR : Signal := { start := 32, length := 16, scale := 1 / 32 }

def WHEEL_SPD_RL : Signal := { start := 48, length := 16, scale := 1 / 32 }

end EAIT_INFO_SPD

namespace EAIT_INFO_IMU

def LAT_ACCEL : Signal :=
  { start := 0, length := 16, signed := true, scale := 1 / 100, offset := -1023 / 100 }

def YAW_RATE : Signal :=
  { start := 32, length := 16, signed := true, scale := 1 / 100, offset := -4095 / 100 }

def BRK_CYLINDER : Signal := { start := 48, length := 16, scale := 1 / 10 }

def Long_ACCEL : Signal := { start := 16, length := 16, scale := 1 / 100, offset := -1023 / 100 }

end EAIT_INFO_IMU

/-! ## The three extractors -/

section Extractors

variable (data8 : Bytes)

/-- Two bytes read by `struct` are a field of sixteen bits. -/
theorem unpackUInt16_eq (i : ℕ) : unpackUInt16 data8 i = unpackRaw data8 (8 * i) 16 := by
  rw [unpackUInt16, intFromBytes_take, intFromBytes_drop, unpackRaw_eq, pow_mul]
  rfl

variable {data8}

/-- A field without a sign, a scale or an offset. -/
theorem unpackRaw_eq_dbcValue {start length : ℕ} (hpos : 0 < length) :
    (unpackRaw data8 start length : ℚ) =
      Signal.dbcValue { start := start, length := length } data8 := by
  rw [← Signal.decode_eq_dbcValue _ _ hpos]
  simp [Signal.decode, unpack]

/-- A flag, as a number. -/
theorem flag_eq_dbcValue {start : ℕ} :
    ((unpackRaw data8 start 1 != 0).toNat : ℚ) =
      Signal.dbcValue { start := start, length := 1 } data8 := by
  have hbit : ∀ r < 2 ^ 1, (r != 0).toNat = r := by decide
  have hlt : unpackRaw data8 start 1 < 2 ^ 1 := Signal.raw_lt { start := start, length := 1 } data8
  rw [hbit _ hlt, unpackRaw_eq_dbcValue one_pos]

/-- The two formats of `struct` scaled, as `unpack`. -/
theorem unpackUInt16_eq_unpack (i : ℕ) (scale offset : ℚ) :
    unpackUInt16 data8 i * scale + offset = unpack data8 (8 * i) 16 false scale offset := by
  simp [unpack, unpackUInt16_eq]

theorem unpackInt16_eq_unpack (i : ℕ) (scale offset : ℚ) :
    unpackInt16 data8 i * scale + offset = unpack data8 (8 * i) 16 true scale offset := by
  have hlt : unpackRaw data8 (8 * i) 16 < 2 ^ (15 + 1) :=
    Signal.raw_lt { start := 8 * i, length := 16 } data8
  simp only [unpack, unpackInt16, unpackUInt16_eq, Bool.true_and, bne_iff_ne]
  rw [if_congr (and_signBit_ne_zero_iff hlt) rfl rfl]
  rcases lt_or_ge (unpackRaw data8 (8 * i) 16) (2 ^ 15) with h | h
  · rw [if_pos h, if_neg h.not_ge]
  · rw [if_neg h.not_gt, if_pos h]
    rfl

theorem unpackUInt16_eq_dbcValue {i : ℕ} {scale offset : ℚ} :
    unpackUInt16 data8 i * scale + offset =
      Signal.dbcValue { start := 8 * i, length := 16, scale := scale, offset := offset } data8 := by
  rw [← Signal.decode_eq_dbcValue _ _ (Nat.succ_pos 15)]
  exact unpackUInt16_eq_unpack i scale offset

theorem unpackInt16_eq_dbcValue {i : ℕ} {scale offset : ℚ} :
    unpackInt16 data8 i * scale + offset =
      Signal.dbcValue
        { start := 8 * i, length := 16, signed := true, scale := scale, offset := offset }
          data8 := by
  rw [← Signal.decode_eq_dbcValue _ _ (Nat.succ_pos 15)]
  exact unpackInt16_eq_unpack i scale offset

end Extractors

/-! ## The fields of the status messages -/

/-- A field of a decoded payload, as a number, and the signal it stands for. -/
structure StatusField where
  signal : Signal
  value : Bytes → ℚ

open EAIT_INFO_EPS in
/-- The fields of `EpsStatus`. -/
def epsFields : List StatusField :=
  [⟨EPS_En_Status, fun d => (decodeEps d).en.toNat⟩,
    ⟨EPS_Control_Board_Status, fun d => (decodeEps d).controlBoardStatus⟩,
    ⟨EPS_USER_CAN_ERR, fun d => (decodeEps d).userCanErr.toNat⟩,
    ⟨EPS_ERR, fun d => (decodeEps d).err.toNat⟩,
    ⟨EPS_Veh_CAN_ERR, fun d => (decodeEps d).vehCanErr.toNat⟩,
    ⟨EPS_SAS_ERR, fun d => (decodeEps d).sasErr.toNat⟩,
    ⟨EPS_Control_Status, fun d => (decodeEps d).controlStatus⟩,
    ⟨Override_Ignore_Status, fun d => (decodeEps d).ignoreOverride.toNat⟩,
    ⟨Override_Status, fun d => (decodeEps d).override.toNat⟩,
    ⟨StrAng, fun d => (decodeEps d).strAng⟩,
    ⟨Str_Drv_Tq, fun d => (decodeEps d).strDrvTq⟩,
    ⟨Str_Out_Tq, fun d => (decodeEps d).strOutTq⟩,
    ⟨EPS_Alive_Cnt, fun d => (decodeEps d).aliveCnt⟩]

open EAIT_INFO_ACC in
/-- The fields of `AccStatus`, and the speed the guard reads. -/
def accFields : List StatusField :=
  [⟨ACC_En_Status, fun d => (decodeAcc d).en.toNat⟩,
    ⟨ACC_Control_Board_Status, fun d => (decodeAcc d).controlBoardStatus⟩,
    ⟨ACC_USER_CAN_ERR, fun d => (decodeAcc d).userCanErr.toNat⟩,
    ⟨ACC_Veh_ERR, fun d => (decodeAcc d).vehErr.toNat⟩,
    ⟨ACC_ERR, fun d => (decodeAcc d).err.toNat⟩,
    ⟨ACC_Control_Status, fun d => (decodeAcc d).controlStatus⟩,
    ⟨VS, fun d => (decodeAcc d).vs⟩,
    ⟨Long_Accel, fun d => (decodeAcc d).longAccel⟩,
    ⟨Turn_Right_En, fun d => (decodeAcc d).turnRightEn.toNat⟩,
    ⟨Hazard_En, fun d => (decodeAcc d).hazardEn.toNat⟩,
    ⟨Turn_Left_En, fun d => (decodeAcc d).turnLeftEn.toNat⟩,
    ⟨G_SEL_DISP, fun d => (decodeAcc d).gearSel⟩,
    ⟨ACC_Alive_Cnt, fun d => (decodeAcc d).aliveCnt⟩,
    ⟨VS, decodeVsKph⟩]

open EAIT_INFO_SPD in
/-- The fields of `WheelSpeeds`. -/
def spdFields : List StatusField :=
  [⟨WHEEL_SPD_FR, fun d => (decodeSpd d).fr⟩,
    ⟨WHEEL_SPD_FL, fun d => (decodeSpd d).fl⟩,
    ⟨WHEEL_SPD_RR, fun d => (decodeSpd d).rr⟩,
    ⟨WHEEL_SPD_RL, fun d => (decodeSpd d).rl⟩]

open EAIT_INFO_IMU in
/-- The fields of `ImuStatus`. -/
def imuFields : List StatusField :=
  [⟨LAT_ACCEL, fun d => (decodeImu d).latAccel⟩,
    ⟨Long_ACCEL, fun d => (decodeImu d).longAccel⟩,
    ⟨YAW_RATE, fun d => (decodeImu d).yawRate⟩,
    ⟨BRK_CYLINDER, fun d => (decodeImu d).brkCylinder⟩]

/-- The fields of the four status messages. -/
def statusFields : List StatusField :=
  epsFields ++ accFields ++ spdFields ++ imuFields

/-- The field is the value of its signal, for a payload of any length. -/
structure StatusField.Faithful (f : StatusField) : Prop where
  length_pos : 0 < f.signal.length
  value_eq : ∀ data8, f.value data8 = f.signal.dbcValue data8

namespace StatusField.Faithful

theorem flag {start : ℕ} :
    Faithful ⟨{ start := start, length := 1 }, fun d => (unpackRaw d start 1 != 0).toNat⟩ :=
  ⟨one_pos, fun _ => flag_eq_dbcValue⟩

theorem raw {start length : ℕ} (hpos : 0 < length) :
    Faithful ⟨{ start := start, length := length }, fun d => unpackRaw d start length⟩ :=
  ⟨hpos, fun _ => unpackRaw_eq_dbcValue hpos⟩

theorem decoded {s : Signal} (hpos : 0 < s.length) : Faithful ⟨s, s.decode⟩ :=
  ⟨hpos, fun data8 => s.decode_eq_dbcValue data8 hpos⟩

end StatusField.Faithful

open StatusField

theorem epsFields_faithful : ∀ f ∈ epsFields, f.Faithful := by
  simp only [epsFields, List.forall_mem_cons]
  exact ⟨.flag, .raw (by decide), .flag, .flag, .flag, .flag, .raw (by decide), .flag, .flag,
    .decoded (by decide), .decoded (by decide), .decoded (by decide), .raw (by decide),
    List.forall_mem_nil _⟩

/-- The mask of one byte reads a field of eight bits. -/
theorem decodeVsKph_eq_dbcValue (data8 : Bytes) :
    decodeVsKph data8 = EAIT_INFO_ACC.VS.dbcValue data8 := by
  have hraw : (intFromBytes (data8.take 8) >>> 16) &&& 0xFF = unpackRaw data8 16 8 := by
    rw [unpackRaw_eq, intFromBytes_take, Nat.shiftRight_eq_div_pow,
      show 0xFF = 2 ^ 8 - 1 from rfl, Nat.and_two_pow_sub_one_eq_mod]
    omega
  rw [decodeVsKph, hraw, unpackRaw_eq_dbcValue (by decide)]
  rfl

theorem accFields_faithful : ∀ f ∈ accFields, f.Faithful := by
  simp only [accFields, List.forall_mem_cons]
  exact ⟨.flag, .raw (by decide), .flag, .flag, .flag, .raw (by decide), .decoded (by decide),
    .decoded (by decide), .flag, .flag, .flag, .raw (by decide), .raw (by decide),
    ⟨by decide, decodeVsKph_eq_dbcValue⟩, List.forall_mem_nil _⟩

theorem spdFields_faithful : ∀ f ∈ spdFields, f.Faithful := by
  have h : ∀ i, Faithful ⟨{ start := 8 * i, length := 16, scale := 1 / 32 },
      fun d => unpackUInt16 d i * spdScale⟩ := fun i =>
    ⟨Nat.succ_pos 15, fun _ => (add_zero _).symm.trans unpackUInt16_eq_dbcValue⟩
  simp only [spdFields, List.forall_mem_cons]
  exact ⟨h 0, h 2, h 4, h 6, List.forall_mem_nil _⟩

theorem imuFields_faithful : ∀ f ∈ imuFields, f.Faithful := by
  have hoffset : ∀ x c : ℚ, x - c / 100 = x + -c / 100 := fun x c => by ring
  simp only [imuFields, List.forall_mem_cons]
  refine ⟨⟨by decide, fun d => ?_⟩, ⟨by decide, fun d => ?_⟩, ⟨by decide, fun d => ?_⟩,
    ⟨by decide, fun d => ?_⟩, List.forall_mem_nil _⟩
  · exact (hoffset _ 1023).trans unpackInt16_eq_dbcValue
  · exact (hoffset _ 1023).trans unpackUInt16_eq_dbcValue
  · exact (hoffset _ 4095).trans unpackInt16_eq_dbcValue
  · exact (add_zero _).symm.trans unpackUInt16_eq_dbcValue

theorem statusFields_faithful : ∀ f ∈ statusFields, f.Faithful := by
  simp only [statusFields, List.forall_mem_append]
  exact ⟨⟨⟨epsFields_faithful, accFields_faithful⟩, spdFields_faithful⟩, imuFields_faithful⟩

/-- A payload of eight bytes. -/
abbrev Payload := Vector UInt8 8

/-- For every payload of eight bytes each field of the four status messages, and the speed of the
guard, is the value that the DBC file gives its signal. So it depends on the bits of its signal
only, two fields of one signal agree, and the bytes read by `struct` are those of `unpack`. -/
theorem status_decoders_equal_dbc (data8 : Payload) :
    (∀ f ∈ statusFields, f.value data8.toList = f.signal.dbcValue data8.toList) ∧
    (∀ f ∈ statusFields, ∀ other : Payload,
      (∀ i, f.signal.Owns i → payloadBit data8.toList i = payloadBit other.toList i) →
        f.value data8.toList = f.value other.toList) ∧
    (∀ f ∈ statusFields, ∀ g ∈ statusFields, f.signal = g.signal →
      f.value data8.toList = g.value data8.toList) ∧
    ∀ i : Fin 7, (unpackUInt16 data8.toList i : ℚ) = unpack data8.toList (8 * i) 16 ∧
      (unpackInt16 data8.toList i : ℚ) = unpack data8.toList (8 * i) 16 true := by
  refine ⟨fun f hf => (statusFields_faithful f hf).value_eq _, fun f hf other h => ?_,
    fun f hf g hg h => ?_, fun i => ⟨?_, ?_⟩⟩
  · have hfaithful := statusFields_faithful f hf
    rw [hfaithful.value_eq, hfaithful.value_eq]
    exact f.signal.dbcValue_congr hfaithful.length_pos h
  · rw [(statusFields_faithful f hf).value_eq, (statusFields_faithful g hg).value_eq, h]
  · rw [← unpackUInt16_eq_unpack, mul_one, add_zero]
  · rw [← unpackInt16_eq_unpack, mul_one, add_zero]

end A1Bsw
