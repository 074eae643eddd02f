import A1Bsw.Protocol

/-!
# Writes that raise

`write` makes the word odd before it converts the fields, so a value that a
field rejects ends the call under an odd word, with the fields before it
already stored. `tryWrite` is `write` for fields that hold any Python object,
with the exception it raises and the segment it leaves.

There is no rollback : after such a call no read returns, neither the command
that was readable before nor a mixture, until the next write repairs the word
and completes (`failed_write_unreadable`).
-/

namespace A1Bsw

/-! ## Stores up to the first rejected value -/

namespace Seqlock

variable {ι ε : Type*} {V : ι → Type*} [DecidableEq ι]

/-- Store the fields one after the other, up to the first whose value is rejected. -/
def Segment.storeUntil (value : ∀ i, Except ε (V i)) (seg : Segment V) :
    List ι → Segment V × Option ε
  | [] => (seg, none)
  | i :: rest =>
    match value i with
    | .ok v => storeUntil value (seg.storeField i v) rest
    | .error e => (seg, some e)

namespace Segment

variable {value : ∀ i, Except ε (V i)} {seg : Segment V} {i : ι} {rest fields : List ι}

theorem storeUntil_cons_ok {v : V i} (h : value i = .ok v) :
    seg.storeUntil value (i :: rest) = (seg.storeField i v).storeUntil value rest := by
  rw [storeUntil, h]

theorem storeUntil_cons_error {e : ε} (h : value i = .error e) :
    seg.storeUntil value (i :: rest) = (seg, some e) := by
  rw [storeUntil, h]

/-- The word is not stored. -/
theorem storeUntil_seq : (seg.storeUntil value fields).1.seq = seg.seq := by
  induction fields generalizing seg with
  | nil => rfl
  | cons i rest ih =>
    rcases h : value i with e | v
    · rw [storeUntil_cons_error h]
    · rw [storeUntil_cons_ok h, ih]
      rfl

/-- A field that is not stored keeps its value. -/
theorem storeUntil_data_of_notMem (hi : i ∉ fields) :
    (seg.storeUntil value fields).1.data i = seg.data i := by
  induction fields generalizing seg with
  | nil => rfl
  | cons k rest ih =>
    obtain ⟨hik, hrest⟩ := List.ne_and_not_mem_of_not_mem_cons hi
    rcases h : value k with e | v
    · rw [storeUntil_cons_error h]
    · rw [storeUntil_cons_ok h, ih hrest]
      exact Function.update_of_ne hik _ _

/-- What a rejected value leaves : the fields before it hold their new values, and it and the
fields after it their old ones. -/
theorem storeUntil_error {e : ε} (hnodup : fields.Nodup)
    (h : (seg.storeUntil value fields).2 = some e) :
    ∃ before f after, fields = before ++ f :: after ∧ value f = .error e ∧
      (∀ k ∈ before, value k = .ok ((seg.storeUntil value fields).1.data k)) ∧
        ∀ k ∉ before, (seg.storeUntil value fields).1.data k = seg.data k := by
  induction fields generalizing seg with
  | nil => cases h
  | cons i rest ih =>
    obtain ⟨hi, hrest⟩ := List.nodup_cons.1 hnodup
    rcases hv : value i with e' | v
    · rw [storeUntil_cons_error hv] at h ⊢
      obtain rfl : e' = e := Option.some.inj h
      exact ⟨[], i, rest, rfl, hv, by simp, fun _ _ => rfl⟩
    · rw [storeUntil_cons_ok hv] at h ⊢
      obtain ⟨before, f, after, hsplit, hf, hnew, hold⟩ := ih hrest h
      refine ⟨i :: before, f, after, congrArg (i :: ·) hsplit, hf, ?_, fun k hk => ?_⟩
      · refine List.forall_mem_cons.2 ⟨?_, hnew⟩
        rw [storeUntil_data_of_notMem hi, hv]
        exact congrArg Except.ok (Function.update_self _ _ _).symm
      · obtain ⟨hki, hk⟩ := List.ne_and_not_mem_of_not_mem_cons hk
        rw [hold k hk]
        exact Function.update_of_ne hki _ _

variable (seg fields) in
/-- When no value is rejected, every field in the list holds its new value. -/
theorem storeUntil_ok {content : ∀ i, V i} (h : ∀ i, value i = .ok (content i)) :
    (seg.storeUntil value fields).2 = none ∧
      ∀ i ∈ fields, (seg.storeUntil value fields).1.data i = content i := by
  induction fields generalizing seg with
  | nil => exact ⟨rfl, by simp⟩
  | cons i rest ih =>
    obtain ⟨hnone, hdata⟩ := ih (seg.storeField i (content i))
    rw [storeUntil_cons_ok (h i)]
    have hrest : ∀ k, k ∉ rest →
        ((seg.storeField i (content i)).storeUntil value rest).1.data k =
          Function.update seg.data i (content i) k := fun _ => storeUntil_data_of_notMem
    exact ⟨hnone, (eq_content_of_update hdata hrest).1⟩

end Segment

end Seqlock

open Seqlock

/-! ## Commands with any objects in their fields -/

/-- The exceptions of a conversion. -/
inductive ConversionError where
  | typeError
  | valueError
  | overflowError
  deriving DecidableEq

/-- A Python object, by what the conversions make of it. -/
structure PyObject where
  /-- `int(x)`. -/
  asInt : Except ConversionError ℤ
  /-- The value of `x` that a `c_uint8` field takes. -/
  asUInt8 : Except ConversionError ℤ
  /-- The value of `x` that a `c_float` field takes. -/
  asFloat : Except ConversionError PyFloat

namespace PyObject

/-- An integer. One that rounds past the largest float does not convert to one. Any other is
its float, since floats are exact rationals here. -/
def ofInt (n : ℤ) : PyObject where
  asInt := .ok n
  asUInt8 := .ok n
  asFloat := if |n| < 2 ^ 1024 - 2 ^ 970 then .ok (.fin n) else .error .overflowError

/-- A bool is an integer. -/
def ofBool (b : Bool) : PyObject :=
  ofInt b.toInt

/-- A float. It truncates to an integer, but an integer field does not take it. -/
def ofFloat (x : PyFloat) : PyObject where
  asInt :=
    match x with
    | .fin q => .ok (q.num.tdiv q.den)
    | .inf | .negInf => .error .overflowError
    | .nan => .error .valueError
  asUInt8 := .error .typeError
  asFloat := .ok x

/-- `None`. -/
def none : PyObject where
  asInt := .error .typeError
  asUInt8 := .error .typeError
  asFloat := .error .typeError

end PyObject

/-- A `Command` whose fields hold any objects. The annotations of the class check nothing. -/
structure CommandObject where
  epsEn : PyObject
  epsOverrideIgnore : PyObject
  accEn : PyObject
  aebEn : PyObject
  epsSpeed : PyObject
  turnSignal : PyObject
  aebDecelValue : PyObject
  epsCmd : PyObject
  accCmd : PyObject

/-- A command whose fields hold what their annotations say. -/
def Command.toObject (cmd : Command) : CommandObject where
  epsEn := .ofBool cmd.epsEn
  epsOverrideIgnore := .ofBool cmd.epsOverrideIgnore
  accEn := .ofBool cmd.accEn
  aebEn := .ofBool cmd.aebEn
  epsSpeed := .ofInt cmd.epsSpeed
  turnSignal := .ofInt cmd.turnSignal
  aebDecelValue := .ofFloat cmd.aebDecelValue
  epsCmd := .ofFloat cmd.epsCmd
  accCmd := .ofFloat cmd.accCmd

namespace CommandChannel

/-- The value `write` stores in each field, or the exception of its conversion. -/
def tryPayload (o : CommandObject) (timestampNs : ℤ) :
    ∀ f : CommandField, Except ConversionError f.Val
  | .timestampNs => .ok (cInt64 timestampNs)
  | .epsEn => o.epsEn.asInt.map cUInt8
  | .epsOverrideIgnore => o.epsOverrideIgnore.asInt.map cUInt8
  | .accEn => o.accEn.asInt.map cUInt8
  | .aebEn => o.aebEn.asInt.map cUInt8
  | .epsSpeed => o.epsSpeed.asUInt8.map cUInt8
  | .turnSignal => o.turnSignal.asUInt8.map cUInt8
  | .aebDecelValue => o.aebDecelValue.asFloat.map PyFloat.toFloat32
  | .epsCmd => o.epsCmd.asFloat.map PyFloat.toFloat32
  | .accCmd => o.accCmd.asFloat.map PyFloat.toFloat32

/-- `write` with no concurrent step : the segment it leaves, and the exception it raises. -/
def tryWrite (seg : Segment CommandField.Val) (o : CommandObject) (timestampNs : ℤ) :
    Segment CommandField.Val × Option ConversionError :=
  let base := if seg.seq % 2 == 0 then seg.seq else seg.seq + 1
  match (seg.storeSeq (base + 1)).storeUntil (tryPayload o timestampNs) layout.stores with
  | (seg', .none) => (seg'.storeSeq (base + 2), .none)
  | (seg', .some e) => (seg', .some e)

variable {seg : Segment CommandField.Val} {o : CommandObject} {timestampNs : ℤ}

/-- On a command of the annotated types `tryWrite` is `write`, and does not raise. -/
theorem tryWrite_toObject (cmd : Command) :
    tryWrite seg cmd.toObject timestampNs = (write seg cmd timestampNs, .none) := by
  have hok : ∀ f, tryPayload cmd.toObject timestampNs f = .ok (payload ⟨cmd, timestampNs⟩ f) := by
    intro f
    cases f <;> rfl
  generalize hbase : (if seg.seq % 2 == 0 then seg.seq else seg.seq + 1) = base
  have hstored := Segment.storeUntil_ok (seg.storeSeq (base + 1)) layout.stores hok
  rcases hs : (seg.storeSeq (base + 1)).storeUntil (tryPayload cmd.toObject timestampNs)
    layout.stores with ⟨seg', raised⟩
  rw [hs] at hstored
  obtain ⟨rfl, hdata⟩ := hstored
  have hall : seg'.data = payload ⟨cmd, timestampNs⟩ :=
    funext fun f => hdata f (layout.mem_stores f)
  simp only [tryWrite, hbase, hs]
  rw [Segment.storeSeq, hall, write, Layout.write, hbase]
  rfl

/-- A write that raises leaves an odd word, over the fields it stored before. -/
theorem tryWrite_of_error {e : ConversionError} (h : (tryWrite seg o timestampNs).2 = some e) :
    ((tryWrite seg o timestampNs).1.seq % 2 = 1 ∧
      (tryWrite seg o timestampNs).1.seq < wordSize) ∧
    ∃ before f after, layout.stores = before ++ f :: after ∧
      tryPayload o timestampNs f = .error e ∧
      (∀ g ∈ before, tryPayload o timestampNs g = .ok ((tryWrite seg o timestampNs).1.data g)) ∧
      ∀ g ∉ before, (tryWrite seg o timestampNs).1.data g = seg.data g := by
  generalize hbase : (if seg.seq % 2 == 0 then seg.seq else seg.seq + 1) = base
  have heven : base % 2 = 0 := by
    rw [← hbase]
    simp only [beq_iff_eq]
    split_ifs <;> omega
  have hraise : tryWrite seg o timestampNs =
      (seg.storeSeq (base + 1)).storeUntil (tryPayload o timestampNs) layout.stores := by
    rcases hs : (seg.storeSeq (base + 1)).storeUntil (tryPayload o timestampNs) layout.stores
      with ⟨seg', _ | e'⟩
    · simp only [tryWrite, hbase, hs] at h
      cases h
    · simp only [tryWrite, hbase, hs]
  rw [hraise] at h ⊢
  refine ⟨?_, Segment.storeUntil_error (by decide) h⟩
  rw [Segment.storeUntil_seq]
  show (base + 1) % wordSize % 2 = 1 ∧ (base + 1) % wordSize < wordSize
  unfold wordSize
  omega

/-- No read returns under an odd word. -/
theorem read_of_odd (h : seg.seq % 2 = 1) (maxRetries : ℕ) (nowNs : ℤ) :
    read seg maxRetries nowNs = result maxRetries nowNs .torn := by
  have h0 : seg.seq ≠ 0 := by omega
  have hodd : seg.seq % 2 ≠ 0 := by omega
  rw [read, Segment.read, if_neg h0, if_pos hodd, ite_self]

/-- A write over an odd word completes, and is read back unless the word wraps to zero. -/
theorem read_write_of_odd (h : seg.seq % 2 = 1) (hwrap : seg.seq ≠ wordSize - 3)
    (hlt : seg.seq < wordSize) (cmd : Command) (timestampNs : ℤ) {maxRetries : ℕ}
    (hr : 0 < maxRetries) (nowNs : ℤ) :
    read (write seg cmd timestampNs) maxRetries nowNs =
      .ok (some (cmd.stored, ageS nowNs (cInt64 timestampNs))) := by
  have hword : (layout.write seg ⟨cmd, timestampNs⟩).seq ≠ 0 := by
    have hodd : ¬seg.seq % 2 = 0 := by omega
    simp only [Layout.write, beq_iff_eq, if_neg hodd]
    unfold wordSize at hwrap hlt ⊢
    omega
  rw [read, write, read_write _ _ _ hr, if_neg hword]
  rfl

end CommandChannel

open CommandChannel in
/-- There is no rollback. After a write that raises, the fields before the rejected one are the
new ones and the others the old ones, and no read returns any of them. The next write that
completes is read back, unless the word wraps to zero. -/
theorem failed_write_unreadable {seg : Segment CommandField.Val} {o : CommandObject}
    {timestampNs : ℤ} {e : ConversionError} (h : (tryWrite seg o timestampNs).2 = some e) :
    (∀ maxRetries nowNs,
      ∃ torn, read (tryWrite seg o timestampNs).1 maxRetries nowNs = .error torn) ∧
    (∃ before f after, layout.stores = before ++ f :: after ∧
      tryPayload o timestampNs f = .error e ∧
      (∀ g ∈ before, tryPayload o timestampNs g = .ok ((tryWrite seg o timestampNs).1.data g)) ∧
      ∀ g ∉ before, (tryWrite seg o timestampNs).1.data g = seg.data g) ∧
    ((tryWrite seg o timestampNs).1.seq ≠ wordSize - 3 → ∀ cmd timestampNs' maxRetries nowNs,
      0 < maxRetries →
        read (write (tryWrite seg o timestampNs).1 cmd timestampNs') maxRetries nowNs =
          .ok (some (cmd.stored, ageS nowNs (cInt64 timestampNs')))) := by
  obtain ⟨⟨hodd, hlt⟩, hfields⟩ := tryWrite_of_error h
  refine ⟨fun maxRetries nowNs => ⟨_, read_of_odd hodd maxRetries nowNs⟩, hfields, ?_⟩
  intro hwrap cmd timestampNs' maxRetries nowNs hr
  exact read_write_of_odd hodd hwrap hlt cmd timestampNs' hr nowNs

namespace CommandChannel

/-- A channel that holds the default command. -/
def heldChannel : Segment CommandField.Val :=
  write fresh {} 0

/-- The default command with `30.0` for `eps_speed`. -/
def floatSpeed : CommandObject :=
  { Command.toObject {} with epsSpeed := .ofFloat (.fin 30) }

end CommandChannel

open CommandChannel in
/-- The integer field rejects the float, and the command that was readable is not any more. -/
theorem float_speed_hides_command :
    read heldChannel 1000 2 = .ok (some (Command.stored {}, ageS 2 (cInt64 0))) ∧
      (tryWrite heldChannel floatSpeed 1).2 = some .typeError ∧
      ¬∃ out, read (tryWrite heldChannel floatSpeed 1).1 1000 2 = .ok out := by
  refine ⟨rfl, by decide +kernel, ?_⟩
  rintro ⟨out, hout⟩
  rw [read_of_odd (by decide +kernel)] at hout
  cases hout

open CommandChannel in
theorem failed_write_unreadable_float :
    (∀ maxRetries nowNs,
      ∃ torn, read (tryWrite heldChannel floatSpeed 1).1 maxRetries nowNs = .error torn) ∧
    (∃ before f after, layout.stores = before ++ f :: after ∧
      tryPayload floatSpeed 1 f = .error .typeError ∧
      (∀ g ∈ before, tryPayload floatSpeed 1 g =
        .ok ((tryWrite heldChannel floatSpeed 1).1.data g)) ∧
      ∀ g ∉ before, (tryWrite heldChannel floatSpeed 1).1.data g = heldChannel.data g) ∧
    ((tryWrite heldChannel floatSpeed 1).1.seq ≠ wordSize - 3 →
      ∀ cmd timestampNs' maxRetries nowNs, 0 < maxRetries →
        read (write (tryWrite heldChannel floatSpeed 1).1 cmd timestampNs') maxRetries nowNs =
          .ok (some (cmd.stored, ageS nowNs (cInt64 timestampNs')))) :=
  failed_write_unreadable (by decide +kernel)

end A1Bsw
