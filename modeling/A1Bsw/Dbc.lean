import Mathlib.Algebra.Order.Field.Rat
import Mathlib.Data.Nat.Bitwise
import Mathlib.Tactic.Ring
import A1Bsw.PyFloat

/-!
# CAN payloads and DBC signals

A payload is a list of bytes, read as one little-endian integer. `unpackRaw`
and `unpack` of `dbc_bits.py` cut a bit field out of it, `toBytes` is the
built-in that writes it. A `Signal` is a row of the DBC file, and its
`decode` is the physical value an independent receiver reads.
-/

namespace A1Bsw

/-! ## Bytes -/

/-- A CAN payload. -/
abbrev Bytes := List UInt8

/-- `int.from_bytes(data, 'little')`. -/
def intFromBytes : Bytes → ℕ
  | [] => 0
  | b :: data => b.toNat + 256 * intFromBytes data

/-- The `k` low bytes of `n`, least significant first. -/
def lowBytes (n : ℕ) : ℕ → Bytes
  | 0 => []
  | k + 1 => UInt8.ofNat n :: lowBytes (n / 256) k

/-- `n.to_bytes(k, 'little')`. -/
def toBytes (n k : ℕ) : Except PyError Bytes :=
  if n < 256 ^ k then .ok (lowBytes n k) else .error .overflowError

/-- `x & (2 ** n - 1)` of a Python integer. -/
def lowBits (n : ℕ) (x : ℤ) : ℕ :=
  (x % 2 ^ n).toNat

@[simp] theorem length_lowBytes (n : ℕ) : ∀ k, (lowBytes n k).length = k
  | 0 => rfl
  | k + 1 => congrArg (· + 1) (length_lowBytes (n / 256) k)

theorem intFromBytes_append (xs ys : Bytes) :
    intFromBytes (xs ++ ys) = intFromBytes xs + 256 ^ xs.length * intFromBytes ys := by
  induction xs with
  | nil => simp [intFromBytes]
  | cons b xs ih =>
    rw [List.cons_append, intFromBytes, ih, intFromBytes, List.length_cons, pow_succ]
    ring

/-- Reading back the low bytes gives the number modulo their range. -/
theorem intFromBytes_lowBytes (n : ℕ) : ∀ k, intFromBytes (lowBytes n k) = n % 256 ^ k
  | 0 => by simp [lowBytes, intFromBytes, Nat.mod_one]
  | k + 1 => by
    rw [lowBytes, intFromBytes, intFromBytes_lowBytes (n / 256) k, pow_succ', Nat.mod_mul,
      UInt8.toNat_ofNat']

theorem intFromBytes_cons_mod (b : UInt8) (data8 : Bytes) :
    intFromBytes (b :: data8) % 256 = b.toNat := by
  have hb := b.toNat_lt
  rw [intFromBytes]
  omega

theorem intFromBytes_cons_div (b : UInt8) (data8 : Bytes) :
    intFromBytes (b :: data8) / 256 = intFromBytes data8 := by
  have hb := b.toNat_lt
  rw [intFromBytes]
  omega

theorem intFromBytes_take (data8 : Bytes) (k : ℕ) :
    intFromBytes (data8.take k) = intFromBytes data8 % 256 ^ k := by
  induction k generalizing data8 with
  | zero => rw [List.take_zero, pow_zero, Nat.mod_one, intFromBytes]
  | succ k ih =>
    rcases data8 with _ | ⟨b, data8⟩
    · rw [List.take_nil, intFromBytes, Nat.zero_mod]
    · rw [List.take_succ_cons, pow_succ', Nat.mod_mul, intFromBytes_cons_mod,
        intFromBytes_cons_div, intFromBytes, ih]

theorem intFromBytes_drop (data8 : Bytes) (k : ℕ) :
    intFromBytes (data8.drop k) = intFromBytes data8 / 256 ^ k := by
  induction k generalizing data8 with
  | zero => rw [List.drop_zero, pow_zero, Nat.div_one]
  | succ k ih =>
    rcases data8 with _ | ⟨b, data8⟩
    · rw [List.drop_nil, intFromBytes, Nat.zero_div]
    · rw [List.drop_succ_cons, ih, pow_succ', ← Nat.div_div_eq_div_mul, intFromBytes_cons_div]

theorem lowBits_lt (n : ℕ) (x : ℤ) : lowBits n x < 2 ^ n := by
  have h := Int.emod_lt_of_pos x (show (0 : ℤ) < 2 ^ n by positivity)
  zify
  rwa [lowBits, Int.toNat_of_nonneg (Int.emod_nonneg _ (by positivity))]

@[simp] theorem coe_lowBits (n : ℕ) (x : ℤ) : (lowBits n x : ℤ) = x % 2 ^ n :=
  Int.toNat_of_nonneg (Int.emod_nonneg _ (by positivity))

theorem lowBits_of_lt {n : ℕ} {x : ℤ} (h0 : 0 ≤ x) (h : x < 2 ^ n) : (lowBits n x : ℤ) = x := by
  rw [coe_lowBits, Int.emod_eq_of_lt h0 h]

/-- A field set above the bits in use adds to them. -/
theorem or_shiftLeft {n s : ℕ} (h : n < 2 ^ s) (v : ℕ) : n ||| v <<< s = n + v * 2 ^ s := by
  rw [Nat.or_comm, ← Nat.shiftLeft_add_eq_or_of_lt h, Nat.shiftLeft_eq, Nat.add_comm]

/-! ## Bit fields -/

/-- `unpack_raw`. -/
def unpackRaw (data8 : Bytes) (start length : ℕ) : ℕ :=
  (intFromBytes data8 >>> start) &&& ((1 <<< length) - 1)

/-- `unpack`. -/
def unpack (data8 : Bytes) (start length : ℕ) (signed : Bool := false) (scale : ℚ := 1)
    (offset : ℚ := 0) : ℚ :=
  let raw := unpackRaw data8 start length
  let val : ℤ :=
    if signed && raw &&& (1 <<< (length - 1)) != 0 then raw - (1 <<< length : ℕ) else raw
  val * scale + offset

theorem unpackRaw_eq (data8 : Bytes) (start length : ℕ) :
    unpackRaw data8 start length = intFromBytes data8 / 2 ^ start % 2 ^ length := by
  rw [unpackRaw, Nat.shiftRight_eq_div_pow, Nat.one_shiftLeft, Nat.and_two_pow_sub_one_eq_mod]

/-- A bit field of a payload written from a number that fits in it. -/
theorem unpackRaw_lowBytes {n k : ℕ} (h : n < 256 ^ k) (start length : ℕ) :
    unpackRaw (lowBytes n k) start length = n / 2 ^ start % 2 ^ length := by
  rw [unpackRaw_eq, intFromBytes_lowBytes, Nat.mod_eq_of_lt h]

/-- The sign bit of a field of `n + 1` bits. -/
theorem and_signBit_ne_zero_iff {raw n : ℕ} (h : raw < 2 ^ (n + 1)) :
    raw &&& 1 <<< n ≠ 0 ↔ 2 ^ n ≤ raw := by
  have hpos : 0 < 2 ^ n := by positivity
  have hlt : raw / 2 ^ n < 2 := Nat.div_lt_of_lt_mul (by rwa [← pow_succ])
  rw [Nat.one_shiftLeft, Nat.and_two_pow, Nat.testBit_eq_decide_div_mod_eq,
    ← Nat.one_le_div_iff hpos]
  rcases Nat.le_one_iff_eq_zero_or_eq_one.1 (Nat.le_of_lt_succ hlt) with hd | hd
  · simp [hd]
  · simp [hd]

/-- A signed field gives back an integer of its range stored in it. -/
theorem unpack_signed {data8 : Bytes} {start n : ℕ} {x : ℤ}
    (hraw : unpackRaw data8 start (n + 1) = lowBits (n + 1) x) (h0 : -2 ^ n ≤ x) (h1 : x < 2 ^ n)
    (scale offset : ℚ) : unpack data8 start (n + 1) true scale offset = x * scale + offset := by
  have hlt := lowBits_lt (n + 1) x
  have hsize : ((1 <<< (n + 1) : ℕ) : ℤ) = 2 ^ n * 2 := by
    rw [Nat.one_shiftLeft, pow_succ]
    push_cast
    rfl
  have hval : (if 2 ^ n ≤ lowBits (n + 1) x then (lowBits (n + 1) x : ℤ) - (1 <<< (n + 1) : ℕ)
      else lowBits (n + 1) x) = x := by
    rw [hsize]
    rcases le_or_gt 0 x with hx | hx
    · have hfit := lowBits_of_lt (n := n + 1) hx (by rw [pow_succ]; linarith)
      rw [if_neg, hfit]
      zify
      rw [hfit]
      exact h1.not_ge
    · have hfit : (lowBits (n + 1) x : ℤ) = x + 2 ^ n * 2 := by
        rw [coe_lowBits, pow_succ, ← Int.add_emod_right,
          Int.emod_eq_of_lt (by linarith) (by linarith)]
      rw [if_pos, hfit, add_sub_cancel_right]
      zify
      rw [hfit]
      linarith
  simp only [unpack, hraw, Bool.true_and, bne_iff_ne, Nat.add_sub_cancel,
    and_signBit_ne_zero_iff hlt, hval]

/-! ## Signals -/

/-- A row `SG_` of the DBC file. -/
structure Signal where
  start : ℕ
  length : ℕ
  signed : Bool := false
  scale : ℚ := 1
  offset : ℚ := 0

/-- The physical value of a signal in a payload. -/
def Signal.decode (s : Signal) (data8 : Bytes) : ℚ :=
  unpack data8 s.start s.length s.signed s.scale s.offset

/-- The bits of a signal in a payload, as a number. -/
def Signal.raw (s : Signal) (data8 : Bytes) : ℕ :=
  unpackRaw data8 s.start s.length

/-- The signal has bit `i` of the payload. -/
def Signal.Owns (s : Signal) (i : ℕ) : Prop :=
  s.start ≤ i ∧ i < s.start + s.length

instance (s : Signal) (i : ℕ) : Decidable (s.Owns i) :=
  inferInstanceAs (Decidable (_ ∧ _))

/-- Every bit that no signal has is 0. -/
def UnownedClear (signals : List Signal) (data8 : Bytes) : Prop :=
  ∀ i, (∀ s ∈ signals, ¬s.Owns i) → (intFromBytes data8).testBit i = false

theorem Signal.raw_lt (s : Signal) (data8 : Bytes) : s.raw data8 < 2 ^ s.length := by
  rw [Signal.raw, unpackRaw_eq]
  exact Nat.mod_lt _ (by positivity)

theorem Signal.testBit_raw (s : Signal) (data8 : Bytes) (i : ℕ) :
    (s.raw data8).testBit i =
      ((intFromBytes data8).testBit (s.start + i) && decide (i < s.length)) := by
  rw [raw, unpackRaw, Nat.one_shiftLeft, Nat.testBit_and, Nat.testBit_shiftRight,
    Nat.testBit_two_pow_sub_one]

/-- A field shifted to its place is 0 outside it. -/
theorem testBit_shiftLeft_of_not_owns {s : Signal} {i v : ℕ} (hv : v < 2 ^ s.length)
    (h : ¬s.Owns i) : (v <<< s.start).testBit i = false := by
  rw [Nat.testBit_shiftLeft]
  by_cases hi : s.start ≤ i
  · have hlen : s.length ≤ i - s.start := by
      unfold Signal.Owns at h
      omega
    rw [Nat.testBit_lt_two_pow (hv.trans_le (Nat.pow_le_pow_right two_pos hlen)), Bool.and_false]
  · rw [decide_eq_false hi, Bool.false_and]

/-- The physical value is that of an integer which the raw value represents. -/
theorem Signal.exists_value (s : Signal) (data8 : Bytes) :
    ∃ v : ℤ, s.decode data8 = v * s.scale + s.offset ∧ v % 2 ^ s.length = s.raw data8 := by
  have hlt : (s.raw data8 : ℤ) < 2 ^ s.length := by exact_mod_cast s.raw_lt data8
  have hmod : (s.raw data8 : ℤ) % 2 ^ s.length = s.raw data8 :=
    Int.emod_eq_of_lt (by positivity) hlt
  unfold decode unpack
  refine ⟨_, rfl, ?_⟩
  split_ifs
  · rw [Nat.one_shiftLeft, Nat.cast_pow, Nat.cast_ofNat, Int.sub_emod_right]
    exact hmod
  · exact hmod

/-- An unsigned signal without an offset has the raw value `n` if its physical value is `n`
steps. -/
theorem Signal.raw_of_decode {s : Signal} {data8 : Bytes} {n : ℕ} (hsigned : s.signed = false)
    (hoffset : s.offset = 0) (hscale : s.scale ≠ 0) (h : s.decode data8 = n * s.scale) :
    s.raw data8 = n := by
  simp only [decode, unpack, hsigned, Bool.false_and, Bool.false_eq_true, if_false, hoffset,
    add_zero, mul_left_inj' hscale] at h
  exact_mod_cast h

/-- The physical value determines the raw value. -/
theorem Signal.raw_eq_of_decode_eq {s : Signal} (hscale : s.scale ≠ 0) {xs ys : Bytes}
    (h : s.decode xs = s.decode ys) : s.raw xs = s.raw ys := by
  obtain ⟨v, hv, hraw⟩ := s.exists_value xs
  obtain ⟨w, hw, hraw'⟩ := s.exists_value ys
  rw [hv, hw, add_left_inj, mul_left_inj' hscale, Int.cast_inj] at h
  rw [h, hraw'] at hraw
  exact_mod_cast hraw.symm

/-- The bytes of a payload are those of its integer. -/
theorem lowBytes_intFromBytes : ∀ data : Bytes, lowBytes (intFromBytes data) data.length = data
  | [] => rfl
  | b :: data => by
    rw [List.length_cons, lowBytes, intFromBytes_cons_div, lowBytes_intFromBytes data]
    congr 1
    rw [← UInt8.toNat_inj, UInt8.toNat_ofNat']
    exact intFromBytes_cons_mod b data

/-- The signals of a payload and the bits outside them determine it. -/
theorem eq_of_raw_eq {signals : List Signal} {xs ys : Bytes} (hlen : xs.length = ys.length)
    (hraw : ∀ s ∈ signals, s.raw xs = s.raw ys) (hxs : UnownedClear signals xs)
    (hys : UnownedClear signals ys) : xs = ys := by
  have hint : intFromBytes xs = intFromBytes ys := by
    refine Nat.eq_of_testBit_eq fun i => ?_
    by_cases howned : ∃ s ∈ signals, s.Owns i
    · obtain ⟨s, hs, h1, h2⟩ := howned
      have hbit := congrArg (Nat.testBit · (i - s.start)) (hraw s hs)
      have hin : i - s.start < s.length := by omega
      simpa only [Signal.testBit_raw, Nat.add_sub_cancel' h1, hin, decide_true, Bool.and_true]
        using hbit
    · have hfree : ∀ s ∈ signals, ¬s.Owns i := fun s hs h => howned ⟨s, hs, h⟩
      rw [hxs i hfree, hys i hfree]
  rw [← lowBytes_intFromBytes xs, ← lowBytes_intFromBytes ys, hint, hlen]

end A1Bsw
