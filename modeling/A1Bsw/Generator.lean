import A1Bsw.StatusSignals
import Mathlib.Data.Nat.Count

/-!
# The generator of simulated frames

`make_values` of `eait_tx.py` gives every signal of a message a value : 0 for
an enumeration, a rolling count for an alive counter, and for the others a
constant or a sine between the limits of the DBC file. A range on the command
line narrows the limits, and nothing checks that anything is left of them.
When the range misses a signal, its sine leaves the limits and its constant
is cut to the end of the range (`generator_in_range_iff`).

Values are exact rationals. The sine of the time is an argument, any number
from -1 to 1.
-/

namespace A1Bsw

/-! ## The signals of a message -/

/-- What `make_values` reads of a signal : its name, its layout, its limits and the values that
have names. -/
structure SignalSpec where
  name : String
  signal : Signal
  minimum : Option ℚ
  maximum : Option ℚ
  choices : List ℤ

open EAIT_Control_01 in
/-- The signals of EAIT_Control_01. -/
def EAIT_Control_01.specs : List SignalSpec :=
  [⟨"EPS_En", EPS_En, some 0, some 1, [0, 1]⟩,
    ⟨"EPS_Override_Ignore", EPS_Override_Ignore, some 0, some 1, [0, 1]⟩,
    ⟨"EPS_Speed", EPS_Speed, some 10, some 250, []⟩,
    ⟨"ACC_En", ACC_En, some 0, some 1, [0, 1]⟩,
    ⟨"AEB_En", AEB_En, some 0, some 1, [0, 1]⟩,
    ⟨"Aliv_Cnt", Aliv_Cnt, some 0, some 255, []⟩,
    ⟨"AEB_decel_value", AEB_decel_value, some 0, some 1, []⟩,
    ⟨"Turn_Signal", Turn_Signal, some 0, some 1, [1, 2, 4]⟩]

open EAIT_Control_02 in
/-- The signals of EAIT_Control_02. -/
def EAIT_Control_02.specs : List SignalSpec :=
  [⟨"EPS_Cmd", EPS_Cmd, some (-500), some 500, []⟩,
    ⟨"ACC_Cmd", ACC_Cmd, some (-3), some 1, []⟩]

open EAIT_INFO_EPS in
/-- The signals of EAIT_INFO_EPS. -/
def EAIT_INFO_EPS.specs : List SignalSpec :=
  [⟨"EPS_En_Status", EPS_En_Status, some 0, some 1, [0, 1]⟩,
    ⟨"EPS_Control_Board_Status", EPS_Control_Board_Status, some 0, some 2, [0, 1, 2]⟩,
    ⟨"EPS_Control_Status", EPS_Control_Status, some 0, some 15, [0, 1, 2, 3, 4, 7, 9, 8]⟩,
    ⟨"EPS_USER_CAN_ERR", EPS_USER_CAN_ERR, some 0, some 1, [0, 1]⟩,
    ⟨"EPS_ERR", EPS_ERR, some 0, some 1, [0, 1]⟩,
    ⟨"EPS_Veh_CAN_ERR", EPS_Veh_CAN_ERR, some 0, some 1, [0, 1]⟩,
    ⟨"EPS_SAS_ERR", EPS_SAS_ERR, some 0, some 1, [0, 1]⟩,
    ⟨"Override_Ignore_Status", Override_Ignore_Status, some 0, some 1, [0, 1]⟩,
    ⟨"Override_Status", Override_Status, some 0, some 1, [0, 1]⟩,
    ⟨"StrAng", StrAng, some (-500), some 500, []⟩,
    ⟨"Str_Drv_Tq", Str_Drv_Tq, some (-2048 / 100), some (2047 / 100), []⟩,
    ⟨"Str_Out_Tq", Str_Out_Tq, some (-2048 / 10), some (2047 / 10), []⟩,
    ⟨"EPS_Alive_Cnt", EPS_Alive_Cnt, some 0, some 255, []⟩]

open EAIT_INFO_ACC in
/-- The signals of EAIT_INFO_ACC. -/
def EAIT_INFO_ACC.specs : List SignalSpec :=
  [⟨"ACC_En_Status", ACC_En_Status, some 0, some 1, [0, 1]⟩,
    ⟨"ACC_Control_Board_Status", ACC_Control_Board_Status, some 0, some 7, [0, 1, 2]⟩,
    ⟨"ACC_Control_Status", ACC_Control_Status, some 0, some 15, [0, 1, 2, 3, 4, 7, 8, 9]⟩,
    ⟨"ACC_USER_CAN_ERR", ACC_USER_CAN_ERR, some 0, some 1, [0, 1]⟩,
    ⟨"ACC_ERR", ACC_ERR, some 0, some 1, [0, 1]⟩,
    ⟨"VS", VS, some 0, some 255, []⟩,
    ⟨"Long_Accel", Long_Accel, some (-1023 / 100), some (1024 / 100), []⟩,
    ⟨"Hazard_En", Hazard_En, some 0, some 1, [0, 1]⟩,
    ⟨"Turn_Left_En", Turn_Left_En, some 0, some 1, [0, 1]⟩,
    ⟨"Turn_Right_En", Turn_Right_En, some 0, some 1, [0, 1]⟩,
    ⟨"ACC_Veh_ERR", ACC_Veh_ERR, some 0, some 1, [0, 1]⟩,
    ⟨"G_SEL_DISP", G_SEL_DISP, some 0, some 15, [0, 7, 6, 5]⟩,
    ⟨"ACC_Alive_Cnt", ACC_Alive_Cnt, some 0, some 255, []⟩]

open EAIT_INFO_SPD in
/-- The signals of EAIT_INFO_SPD. -/
def EAIT_INFO_SPD.specs : List SignalSpec :=
  [⟨"WHEEL_SPD_FR", WHEEL_SPD_FR, some 0, some (16383 / 32), []⟩,
    ⟨"WHEEL_SPD_FL", WHEEL_SPD_FL, some 0, some (16383 / 32), []⟩,
    ⟨"WHEEL_SPD_RR", WHEEL_SPD_RR, some 0, some (16383 / 32), []⟩,
    ⟨"WHEEL_SPD_RL", WHEEL_SPD_RL, some 0, some (16383 / 32), []⟩]

open EAIT_INFO_IMU in
/-- The signals of EAIT_INFO_IMU. -/
def EAIT_INFO_IMU.specs : List SignalSpec :=
  [⟨"LAT_ACCEL", LAT_ACCEL, some (-1023 / 100), some (1023 / 100), []⟩,
    ⟨"YAW_RATE", YAW_RATE, some (-4095 / 100), some (4094 / 100), []⟩,
    ⟨"BRK_CYLINDER", BRK_CYLINDER, some 0, some (4094 / 10), []⟩,
    ⟨"Long_ACCEL", Long_ACCEL, some (-1023 / 100), some (1023 / 100), []⟩]

/-- The messages of the DBC file whose names begin with EAIT. -/
inductive EaitMessage where
  | Control_01
  | Control_02
  | INFO_EPS
  | INFO_ACC
  | INFO_SPD
  | INFO_IMU

/-- The signals of a message. -/
def EaitMessage.signals : EaitMessage → List SignalSpec
  | Control_01 => EAIT_Control_01.specs
  | Control_02 => EAIT_Control_02.specs
  | INFO_EPS => EAIT_INFO_EPS.specs
  | INFO_ACC => EAIT_INFO_ACC.specs
  | INFO_SPD => EAIT_INFO_SPD.specs
  | INFO_IMU => EAIT_INFO_IMU.specs

/-! ## The values of one call -/

/-- `--pattern`. -/
inductive Pattern where
  | sine
  | const
  deriving DecidableEq

/-- The arguments of a call of `make_values`, with the sine of its time. -/
structure GeneratorCall where
  pattern : Pattern := .sine
  constValue : ℚ := 0
  ampRatio : ℚ := 1 / 2
  sin : ℚ := 0
  rng : Option (ℚ × ℚ) := none
  overrides : String → Option ℚ := fun _ => none
  ampRatio_mem : 0 ≤ ampRatio ∧ ampRatio ≤ 1 := by norm_num
  sin_mem : -1 ≤ sin ∧ sin ≤ 1 := by norm_num
  rng_le : ∀ r ∈ rng, r.1 ≤ r.2 := by simp

namespace SignalSpec

variable (sig : SignalSpec)

/-- `signal_range`. -/
def signalRange : ℚ × ℚ :=
  let lo := sig.minimum.getD 0
  let hi := sig.maximum.getD lo
  if hi ≤ lo then
    let rawMax : ℤ :=
      if sig.signal.signed then (1 <<< (sig.signal.length - 1) : ℕ) - 1
      else (1 <<< sig.signal.length : ℕ) - 1
    (sig.signal.offset, sig.signal.offset + rawMax * sig.signal.scale)
  else (lo, hi)

/-- `"alive" in sig.name.lower() or "cnt" in sig.name.lower()`. -/
def IsCounter : Prop :=
  "alive".toList <:+: sig.name.toLower.toList ∨ "cnt".toList <:+: sig.name.toLower.toList

instance : Decidable sig.IsCounter :=
  inferInstanceAs (Decidable (_ ∨ _))

/-- The value of a signal that follows the pattern. -/
def patternValue (c : GeneratorCall) : ℚ :=
  let (lo, hi) := sig.signalRange
  let (lo, hi) :=
    match c.rng with
    | some rng => (pyMax lo rng.1, pyMin hi rng.2)
    | none => (lo, hi)
  match c.pattern with
  | .const => pyMin (pyMax c.constValue lo) hi
  | .sine =>
    let mid := (lo + hi) / 2
    let half := (hi - lo) / 2 * c.ampRatio
    mid + half * c.sin

/-- One pass of the loop of `make_values` : the value of the signal, and its entry in
`counters`. -/
def makeValue (c : GeneratorCall) (count : Option ℤ) : ℚ × Option ℤ :=
  match c.overrides sig.name with
  | some v => (v, count)
  | none =>
    if sig.choices ≠ [] then
      (if sig.minimum.elim true (· ≤ 0) then 0 else ((sig.choices.min?.getD 0 : ℤ) : ℚ), count)
    else
      let (lo, hi) := sig.signalRange
      if sig.signal.length ≤ 2 then
        ((pyInt (pyMin (pyMax (roundHalfEven c.constValue : ℚ) lo) hi) : ℚ), count)
      else if sig.IsCounter then
        let n := (count.getD (-1) + 1) % (if 0 < hi then pyInt hi + 1 else 256)
        ((n : ℚ), some n)
      else (sig.patternValue c, count)

end SignalSpec

/-- The dictionaries `vals` and `counters`. -/
structure Generated where
  vals : String → Option ℚ := fun _ => none
  counters : String → Option ℤ := fun _ => none

/-- One pass of the loop. -/
def Generated.add (c : GeneratorCall) (g : Generated) (sig : SignalSpec) : Generated :=
  let (v, n) := sig.makeValue c (g.counters sig.name)
  { vals := Function.update g.vals sig.name (some v)
    counters := Function.update g.counters sig.name n }

/-- `make_values`. -/
def makeValues (signals : List SignalSpec) (c : GeneratorCall)
    (counters : String → Option ℤ) : Generated :=
  signals.foldl (Generated.add c) { counters }

/-! ## A sequence of calls -/

/-- What call `n` of a sequence generates. -/
def generate (signals : List SignalSpec) (calls : ℕ → GeneratorCall) : ℕ → Generated
  | 0 => makeValues signals (calls 0) fun _ => none
  | n + 1 => makeValues signals (calls (n + 1)) (generate signals calls n).counters

/-! ### The dictionaries -/

section Dictionaries

variable {c : GeneratorCall} {signals : List SignalSpec}

theorem Generated.foldl_add_of_notMem {name : String} (h : ∀ sig ∈ signals, sig.name ≠ name)
    (g : Generated) :
    (signals.foldl (Generated.add c) g).vals name = g.vals name ∧
      (signals.foldl (Generated.add c) g).counters name = g.counters name := by
  induction signals generalizing g with
  | nil => exact ⟨rfl, rfl⟩
  | cons sig signals ih =>
    obtain ⟨hsig, hrest⟩ := List.forall_mem_cons.1 h
    obtain ⟨hv, hc⟩ := ih hrest (g.add c sig)
    exact ⟨hv.trans (Function.update_of_ne hsig.symm _ _),
      hc.trans (Function.update_of_ne hsig.symm _ _)⟩

/-- With distinct names each signal gets the value of its own pass. -/
theorem Generated.foldl_add_of_mem (hnodup : (signals.map SignalSpec.name).Nodup)
    {sig : SignalSpec} (hsig : sig ∈ signals) (g : Generated) :
    (signals.foldl (Generated.add c) g).vals sig.name =
        some (sig.makeValue c (g.counters sig.name)).1 ∧
      (signals.foldl (Generated.add c) g).counters sig.name =
        (sig.makeValue c (g.counters sig.name)).2 := by
  induction signals generalizing g with
  | nil => cases hsig
  | cons first signals ih =>
    rw [List.map_cons, List.nodup_cons] at hnodup
    have hother : ∀ other ∈ signals, other.name ≠ first.name := fun other hmem heq =>
      hnodup.1 (heq ▸ List.mem_map_of_mem hmem)
    rcases List.mem_cons.1 hsig with rfl | hmem
    · obtain ⟨hv, hc⟩ := Generated.foldl_add_of_notMem (c := c) hother (g.add c sig)
      exact ⟨hv.trans (Function.update_self _ _ _), hc.trans (Function.update_self _ _ _)⟩
    · obtain ⟨hv, hc⟩ := ih hnodup.2 hmem (g.add c first)
      have hkeep : (g.add c first).counters sig.name = g.counters sig.name :=
        Function.update_of_ne (hother sig hmem) _ _
      rw [hkeep] at hv hc
      exact ⟨hv, hc⟩

end Dictionaries

/-! ## Limits -/

namespace SignalSpec

variable (sig : SignalSpec)

/-- The minimum of a signal that has one. -/
def lo : ℚ :=
  sig.minimum.getD 0

/-- The maximum of a signal that has one. -/
def hi : ℚ :=
  sig.maximum.getD 0

/-- The value is between the minimum and the maximum. -/
def InLimits (v : ℚ) : Prop :=
  (∀ m ∈ sig.minimum, m ≤ v) ∧ ∀ m ∈ sig.maximum, v ≤ m

/-- A signal that follows the pattern : neither an enumeration nor a counter. -/
def FollowsPattern : Prop :=
  sig.choices = [] ∧ ¬sig.IsCounter

/-- Both limits are there and apart. An enumeration begins at 0, a flag is an enumeration, and a
counter has the values of a byte. -/
def Regular : Prop :=
  (sig.minimum = some sig.lo ∧ sig.maximum = some sig.hi) ∧ sig.lo < sig.hi ∧
    (sig.choices ≠ [] → sig.lo = 0) ∧ (sig.choices = [] → 2 < sig.signal.length) ∧
      (sig.IsCounter → sig.choices = [] ∧ sig.lo = 0 ∧ sig.hi = 255)

instance : Decidable sig.Regular :=
  inferInstanceAs (Decidable (_ ∧ _))

end SignalSpec

theorem EaitMessage.regular (m : EaitMessage) : ∀ sig ∈ m.signals, sig.Regular := by
  cases m <;> decide +kernel

theorem EaitMessage.nodup_names (m : EaitMessage) : (m.signals.map SignalSpec.name).Nodup := by
  cases m <;> decide +kernel

/-! ### Constants and sines -/

section Pattern

variable {lo hi L H : ℚ}

/-- A constant cut to the narrowed limits is in the limits exactly if the range does not end
below them. -/
theorem const_mem_iff (hle : lo ≤ hi) (v : ℚ) :
    lo ≤ min (max v (max lo L)) (min hi H) ∧ min (max v (max lo L)) (min hi H) ≤ hi ↔ lo ≤ H := by
  have hhi : min (max v (max lo L)) (min hi H) ≤ hi := (min_le_right _ _).trans (min_le_left _ _)
  have hlo : lo ≤ max v (max lo L) := (le_max_left _ _).trans (le_max_right _ _)
  rw [and_iff_left hhi, le_min_iff, le_min_iff, and_iff_right hlo, and_iff_right hle]

/-- A sine stays between its limits, in whichever order they are. -/
theorem sine_mem {p : ℚ} (h0 : -1 ≤ p) (h1 : p ≤ 1) (hle : lo ≤ hi) :
    lo ≤ (lo + hi) / 2 + (hi - lo) / 2 * p ∧ (lo + hi) / 2 + (hi - lo) / 2 * p ≤ hi := by
  have hlo : 0 ≤ (hi - lo) / 2 * (1 + p) := mul_nonneg (by linarith) (by linarith)
  have hhi : 0 ≤ (hi - lo) / 2 * (1 - p) := mul_nonneg (by linarith) (by linarith)
  constructor <;> linarith

/-- A sine between the ends of a gap reaches them at its extremes only. -/
theorem sine_gap {p : ℚ} (h0 : -1 ≤ p) (h1 : p ≤ 1) (hlt : lo < hi) :
    (hi ≤ (hi + lo) / 2 + (lo - hi) / 2 * p ↔ p = -1) ∧
      ((hi + lo) / 2 + (lo - hi) / 2 * p ≤ lo ↔ p = 1) := by
  have hhalf : 0 < (hi - lo) / 2 := by linarith
  constructor
  · constructor
    · intro h
      have hprod : (hi - lo) / 2 * (1 + p) ≤ 0 := by linarith
      linarith [nonpos_of_mul_nonpos_right hprod hhalf]
    · rintro rfl
      linarith
  · constructor
    · intro h
      have hprod : (hi - lo) / 2 * (1 - p) ≤ 0 := by linarith
      linarith [nonpos_of_mul_nonpos_right hprod hhalf]
    · rintro rfl
      linarith

/-- A sine over the narrowed limits stays in the limits exactly if the range meets them, or the
sine is at the extreme next to them. -/
theorem sine_narrowed_mem_iff {p : ℚ} (h0 : -1 ≤ p) (h1 : p ≤ 1) (hle : lo ≤ hi) (hLH : L ≤ H) :
    lo ≤ (max lo L + min hi H) / 2 + (min hi H - max lo L) / 2 * p ∧
        (max lo L + min hi H) / 2 + (min hi H - max lo L) / 2 * p ≤ hi ↔
      lo ≤ H ∧ L ≤ hi ∨ hi < L ∧ p = 1 ∨ H < lo ∧ p = -1 := by
  rcases lt_or_ge H lo with hbelow | hbelow
  · have hnot : ¬hi < L := fun h => by linarith
    obtain ⟨hend, -⟩ := sine_gap h0 h1 hbelow
    obtain ⟨-, hmax⟩ := sine_mem (p := -p) (by linarith) (by linarith) hbelow.le
    rw [max_eq_left (hLH.trans hbelow.le), min_eq_right (hbelow.le.trans hle), hend]
    simp only [hbelow.not_ge, hnot, hbelow, false_and, true_and, false_or]
    exact and_iff_left (by linarith)
  rcases lt_or_ge hi L with habove | habove
  · obtain ⟨-, hend⟩ := sine_gap h0 h1 habove
    obtain ⟨hmin, -⟩ := sine_mem (p := -p) (by linarith) (by linarith) habove.le
    rw [max_eq_right (hle.trans habove.le), min_eq_left (habove.le.trans hLH), hend]
    simp only [habove.not_ge, hbelow.not_gt, habove, and_false, false_and, true_and, false_or,
      or_false]
    exact and_iff_right (by linarith)
  · have hmeet : max lo L ≤ min hi H :=
      max_le (le_min hle hbelow) (le_min habove hLH)
    obtain ⟨h2, h3⟩ := sine_mem h0 h1 hmeet
    exact iff_of_true ⟨(le_max_left _ _).trans h2, h3.trans (min_le_left _ _)⟩
      (.inl ⟨hbelow, habove⟩)

end Pattern

/-! ### The value of a signal -/

/-- The range of the call leaves something of the limits : a constant needs a range that does
not end below them, and a sine one that meets them, or the extreme next to them. -/
def GeneratorCall.Fits (c : GeneratorCall) (lo hi : ℚ) : Prop :=
  ∀ rng ∈ c.rng,
    match c.pattern with
    | .const => lo ≤ rng.2
    | .sine => lo ≤ rng.2 ∧ rng.1 ≤ hi ∨ hi < rng.1 ∧ c.ampRatio * c.sin = 1 ∨
        rng.2 < lo ∧ c.ampRatio * c.sin = -1

namespace SignalSpec

variable {sig : SignalSpec} {c : GeneratorCall} {count : Option ℤ}

theorem Regular.signalRange (h : sig.Regular) : sig.signalRange = (sig.lo, sig.hi) := by
  obtain ⟨⟨hmin, hmax⟩, hlt, -⟩ := h
  rw [SignalSpec.signalRange, hmin, hmax]
  exact if_neg hlt.not_ge

theorem Regular.inLimits_iff (h : sig.Regular) {v : ℚ} :
    sig.InLimits v ↔ sig.lo ≤ v ∧ v ≤ sig.hi := by
  rw [InLimits, h.1.1, h.1.2]
  simp

/-- The amplitude and the sine together are between the extremes. -/
theorem amplitude_mem (c : GeneratorCall) :
    -1 ≤ c.ampRatio * c.sin ∧ c.ampRatio * c.sin ≤ 1 := by
  obtain ⟨h0, h1⟩ := c.ampRatio_mem
  obtain ⟨h2, h3⟩ := c.sin_mem
  rw [← abs_le, abs_mul, abs_of_nonneg h0]
  exact mul_le_one₀ h1 (abs_nonneg _) (abs_le.2 ⟨h2, h3⟩)

/-- A signal that follows the pattern is in its limits exactly if the range fits. -/
theorem Regular.patternValue_inLimits_iff (h : sig.Regular) :
    sig.InLimits (sig.patternValue c) ↔ c.Fits sig.lo sig.hi := by
  have hle : sig.lo ≤ sig.hi := h.2.1.le
  obtain ⟨hamp0, hamp1⟩ := amplitude_mem c
  rw [h.inLimits_iff]
  rcases hrng : c.rng with _ | ⟨L, H⟩
  · have hfits : c.Fits sig.lo sig.hi := by simp [GeneratorCall.Fits, hrng]
    rw [iff_true_right hfits]
    rcases hpat : c.pattern
    · simp only [patternValue, h.signalRange, hrng, hpat, mul_assoc]
      exact sine_mem hamp0 hamp1 hle
    · simp only [patternValue, h.signalRange, hrng, hpat, pyMin_eq_min, pyMax_eq_max]
      exact ⟨le_min (le_max_right _ _) hle, min_le_right _ _⟩
  · rcases hpat : c.pattern
    · simp only [patternValue, h.signalRange, hrng, hpat, pyMin_eq_min, pyMax_eq_max, mul_assoc,
        GeneratorCall.Fits, Option.mem_some_iff, forall_eq']
      exact sine_narrowed_mem_iff hamp0 hamp1 hle (c.rng_le _ hrng)
    · simp only [patternValue, h.signalRange, hrng, hpat, pyMin_eq_min, pyMax_eq_max,
        GeneratorCall.Fits, Option.mem_some_iff, forall_eq']
      exact const_mem_iff hle c.constValue

theorem makeValue_of_overridden {v : ℚ} (h : c.overrides sig.name = some v) :
    sig.makeValue c count = (v, count) := by
  rw [makeValue, h]

theorem Regular.makeValue_of_choices (h : sig.Regular) (ho : c.overrides sig.name = none)
    (hchoices : sig.choices ≠ []) : sig.makeValue c count = (0, count) := by
  have hmin : sig.minimum = some 0 := h.2.2.1 hchoices ▸ h.1.1
  simp only [makeValue, ho, if_pos hchoices, hmin]
  rfl

theorem Regular.makeValue_of_counter (h : sig.Regular) (ho : c.overrides sig.name = none)
    (hcount : sig.IsCounter) :
    sig.makeValue c count =
      ((((count.getD (-1) + 1) % 256 : ℤ) : ℚ), some ((count.getD (-1) + 1) % 256)) := by
  obtain ⟨hchoices, -, hhi⟩ := h.2.2.2.2 hcount
  have hflag : ¬sig.signal.length ≤ 2 := (h.2.2.2.1 hchoices).not_ge
  have hmod : (if (0 : ℚ) < 255 then pyInt 255 + 1 else 256) = 256 := by decide +kernel
  simp only [makeValue, ho, if_neg (not_not.2 hchoices), h.signalRange, if_neg hflag,
    if_pos hcount, hhi, hmod]

theorem Regular.makeValue_of_followsPattern (h : sig.Regular) (ho : c.overrides sig.name = none)
    (hfollows : sig.FollowsPattern) : sig.makeValue c count = (sig.patternValue c, count) := by
  have hflag : ¬sig.signal.length ≤ 2 := (h.2.2.2.1 hfollows.1).not_ge
  simp only [makeValue, ho, if_neg (not_not.2 hfollows.1), if_neg hflag, if_neg hfollows.2]

/-- A signal that is not overridden is in its limits exactly if it does not follow the pattern or
the range fits. -/
theorem Regular.makeValue_inLimits_iff (h : sig.Regular) (ho : c.overrides sig.name = none)
    (count : Option ℤ) :
    sig.InLimits (sig.makeValue c count).1 ↔ (sig.FollowsPattern → c.Fits sig.lo sig.hi) := by
  by_cases hchoices : sig.choices ≠ []
  · have hlo := h.2.2.1 hchoices
    have hhi : 0 < sig.hi := hlo ▸ h.2.1
    rw [h.makeValue_of_choices ho hchoices, h.inLimits_iff]
    exact iff_of_true ⟨hlo.le, hhi.le⟩ fun hfollows => absurd hfollows.1 hchoices
  by_cases hcount : sig.IsCounter
  · obtain ⟨-, hlo, hhi⟩ := h.2.2.2.2 hcount
    have h0 : 0 ≤ (count.getD (-1) + 1) % 256 := by omega
    have h1 : (count.getD (-1) + 1) % 256 ≤ 255 := by omega
    rw [h.makeValue_of_counter ho hcount, h.inLimits_iff, hlo, hhi]
    exact iff_of_true ⟨Int.cast_nonneg h0, Int.cast_le.2 h1⟩ fun hfollows =>
      absurd hcount hfollows.2
  · have hfollows : sig.FollowsPattern := ⟨not_not.1 hchoices, hcount⟩
    rw [h.makeValue_of_followsPattern ho hfollows, h.patternValue_inLimits_iff,
      forall_prop_of_true hfollows]

end SignalSpec

/-! ## Runs of calls -/

section Runs

variable (m : EaitMessage) (calls : ℕ → GeneratorCall)

/-- Call `n` assigns the signal a value of its own. -/
def Assigns (sig : SignalSpec) (n : ℕ) : Prop :=
  (calls n).overrides sig.name = none

instance (sig : SignalSpec) : DecidablePred (Assigns calls sig) := fun _ =>
  inferInstanceAs (Decidable (_ = none))

/-- Every value that is not overridden is in the limits of its signal. -/
def InRange : Prop :=
  ∀ n, ∀ sig ∈ m.signals, Assigns calls sig n →
    ∃ v, (generate m.signals calls n).vals sig.name = some v ∧ sig.InLimits v

/-- From one call that assigns a counter to the next it steps by one, modulo 256. -/
def CountersStep : Prop :=
  ∀ sig ∈ m.signals, sig.IsCounter → ∀ i j, i < j → Assigns calls sig i → Assigns calls sig j →
    (∀ k, i < k → k < j → ¬Assigns calls sig k) →
      ∃ n : ℤ, (generate m.signals calls i).vals sig.name = some (n : ℚ) ∧
        (generate m.signals calls j).vals sig.name = some (((n + 1) % 256 : ℤ) : ℚ)

/-- The counters before call `n`. -/
def countersBefore : ℕ → String → Option ℤ
  | 0 => fun _ => none
  | n + 1 => (generate m.signals calls n).counters

variable {m calls}

theorem generate_of_mem {sig : SignalSpec} (hsig : sig ∈ m.signals) (n : ℕ) :
    (generate m.signals calls n).vals sig.name =
        some (sig.makeValue (calls n) (countersBefore m calls n sig.name)).1 ∧
      (generate m.signals calls n).counters sig.name =
        (sig.makeValue (calls n) (countersBefore m calls n sig.name)).2 := by
  rcases n with _ | n <;> exact Generated.foldl_add_of_mem m.nodup_names hsig _

/-- The values are in range exactly if the range of each call fits each signal that follows the
pattern. -/
theorem inRange_iff :
    InRange m calls ↔ ∀ n, ∀ sig ∈ m.signals, Assigns calls sig n → sig.FollowsPattern →
      (calls n).Fits sig.lo sig.hi := by
  refine forall_congr' fun n => forall₃_congr fun sig hsig ho => ?_
  rw [(generate_of_mem hsig n).1,
    ← (m.regular sig hsig).makeValue_inLimits_iff ho (countersBefore m calls n sig.name)]
  simp

/-- A counter has counted the calls that assigned it. -/
theorem countersBefore_eq {sig : SignalSpec} (hsig : sig ∈ m.signals) (hcount : sig.IsCounter)
    (n : ℕ) :
    ((countersBefore m calls n sig.name).getD (-1) + 1) % 256 =
      (Nat.count (Assigns calls sig) n : ℤ) % 256 := by
  induction n with
  | zero => rw [Nat.count_zero]; rfl
  | succ n ih =>
    rw [countersBefore, (generate_of_mem hsig n).2, Nat.count_succ]
    rcases ho : (calls n).overrides sig.name with _ | v
    · have hassigns : Assigns calls sig n := ho
      rw [(m.regular sig hsig).makeValue_of_counter ho hcount, if_pos hassigns, Option.getD_some]
      push_cast
      omega
    · have hnot : ¬Assigns calls sig n := by
        rw [Assigns, ho]
        exact Option.some_ne_none v
      rw [SignalSpec.makeValue_of_overridden ho, if_neg hnot, Nat.add_zero]
      exact ih

theorem countersStep : CountersStep m calls := by
  intro sig hsig hcount i j hij hi hj hbetween
  have hvalue : ∀ n, Assigns calls sig n → (generate m.signals calls n).vals sig.name =
      some (((Nat.count (Assigns calls sig) n : ℤ) % 256 : ℤ) : ℚ) := by
    intro n ho
    rw [(generate_of_mem hsig n).1, (m.regular sig hsig).makeValue_of_counter ho hcount,
      countersBefore_eq hsig hcount]
  -- No call between the two adds to the count.
  have hone : Nat.count (Assigns calls sig) j = Nat.count (Assigns calls sig) i + 1 := by
    have hsucc : Nat.count (Assigns calls sig) (i + 1) = Nat.count (Assigns calls sig) i + 1 := by
      rw [Nat.count_succ, if_pos hi]
    rw [← hsucc]
    refine Nat.le_induction (P := fun k _ => k ≤ j → Nat.count (Assigns calls sig) k =
      Nat.count (Assigns calls sig) (i + 1)) (fun _ => rfl) (fun k hk ih hkj => ?_) j hij le_rfl
    rw [Nat.count_succ, if_neg (hbetween k hk hkj), Nat.add_zero, ih (Nat.le_of_succ_le hkj)]
  refine ⟨_, hvalue i hi, ?_⟩
  rw [hvalue j hj, hone]
  congr 2
  push_cast
  omega

end Runs

/-- The values of a message are in the limits of its signals and its counters step by one exactly
if the range of each call fits each signal that follows the pattern and is not overridden. -/
theorem generator_in_range_iff (m : EaitMessage) (calls : ℕ → GeneratorCall) :
    InRange m calls ∧ CountersStep m calls ↔
      ∀ n, ∀ sig ∈ m.signals, Assigns calls sig n → sig.FollowsPattern →
        (calls n).Fits sig.lo sig.hi :=
  (and_iff_left countersStep).trans inRange_iff

/-- A sine for a speed from 20 to 60 km/h. -/
def speedRange : GeneratorCall where
  rng := some (20, 60)
  rng_le := by norm_num

/-- The range is also that of the acceleration of the same message, whose maximum is 10.24. -/
theorem speed_range_leaves_limits :
    (generate EaitMessage.INFO_ACC.signals (fun _ => speedRange) 0).vals "Long_Accel" =
        some (1512 / 100) ∧
      ¬(InRange .INFO_ACC (fun _ => speedRange) ∧ CountersStep .INFO_ACC fun _ => speedRange) := by
  have hvalue : (generate EaitMessage.INFO_ACC.signals (fun _ => speedRange) 0).vals "Long_Accel" =
      some (1512 / 100) := by decide +kernel
  refine ⟨hvalue, fun h => ?_⟩
  obtain ⟨v, hv, hin⟩ := h.1 0 ⟨"Long_Accel", EAIT_INFO_ACC.Long_Accel, some (-1023 / 100),
    some (1024 / 100), []⟩ (by simp [EaitMessage.signals, EAIT_INFO_ACC.specs]) rfl
  obtain rfl : 1512 / 100 = v := Option.some.inj (hvalue.symm.trans hv)
  exact absurd (hin.2 _ rfl) (by norm_num)

end A1Bsw
