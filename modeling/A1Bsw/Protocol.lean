import A1Bsw.PyFloat
import A1Bsw.Seqlock

/-!
# The shared-memory channels

`CommandChannel` and `HeartbeatChannel` of `protocol.py` are two seqlocks.
Their payloads are C structures, so a stored field is the C value of the
Python one : a byte wraps, a `float` rounds, and a timestamp is a signed
64-bit integer. `Command.stored` is a command after one write and one read.

`ReadsCompletedWrites` is what a reader relies on. Both channels have it for
every interleaving with one live writer that may be killed at any step
(`channels_read_completed_writes`). Timestamps and ages are taken from one
monotonic clock in nanoseconds; an age is a difference of clock values in
seconds.
-/

namespace A1Bsw

open Seqlock

/-- `protocol.Command`. -/
structure Command where
  epsEn : Bool := false
  epsOverrideIgnore : Bool := false
  accEn : Bool := false
  aebEn : Bool := false
  epsSpeed : ℤ := 10
  turnSignal : ℤ := 0
  aebDecelValue : PyFloat := .fin 0
  epsCmd : PyFloat := .fin 0
  accCmd : PyFloat := .fin 0
  deriving DecidableEq

/-- `TornReadError` : every retry met a write in progress. -/
structure TornReadError where
  message : String

/-- The value a `c_uint8` field holds after an integer is stored in it. -/
def cUInt8 (x : ℤ) : BitVec 8 :=
  BitVec.ofInt 8 x

/-- The value a `c_int64` field holds after an integer is stored in it. -/
def cInt64 (x : ℤ) : ℤ :=
  x.bmod (2 ^ 64)

/-- Storing a clock value does not make it later. -/
theorem cInt64_le {x : ℤ} (h : -2 ^ 63 ≤ x) : cInt64 x ≤ x := by
  rw [cInt64, Int.bmod_eq_emod]
  split_ifs <;> omega

/-- Seconds between two clock values in nanoseconds. -/
def ageS (nowNs tsNs : ℤ) : ℚ :=
  (nowNs - tsNs) / 10 ^ 9

instance : Inhabited PyFloat := ⟨.fin 0⟩

/-! ## The command channel -/

/-- The fields of `_Payload` after `seq`. -/
inductive CommandField where
  | timestampNs
  | epsEn
  | epsOverrideIgnore
  | accEn
  | aebEn
  | epsSpeed
  | turnSignal
  | aebDecelValue
  | epsCmd
  | accCmd
  deriving DecidableEq

/-- The C type of a field. -/
def CommandField.Val : CommandField → Type
  | timestampNs => ℤ
  | epsEn | epsOverrideIgnore | accEn | aebEn | epsSpeed | turnSignal => BitVec 8
  | aebDecelValue | epsCmd | accCmd => PyFloat

/-- A zero-filled field. -/
instance : ∀ f : CommandField, Inhabited f.Val
  | .timestampNs => ⟨(0 : ℤ)⟩
  | .epsEn | .epsOverrideIgnore | .accEn | .aebEn | .epsSpeed | .turnSignal => ⟨(0 : BitVec 8)⟩
  | .aebDecelValue | .epsCmd | .accCmd => ⟨PyFloat.fin 0⟩

/-- A call of `CommandChannel.write`, with the clock value it stores. -/
structure CommandWrite where
  cmd : Command
  timestampNs : ℤ

namespace CommandChannel

/-- The value `write` stores in each field. -/
def payload (w : CommandWrite) : ∀ f : CommandField, f.Val
  | .timestampNs => cInt64 w.timestampNs
  | .epsEn => cUInt8 w.cmd.epsEn.toInt
  | .epsOverrideIgnore => cUInt8 w.cmd.epsOverrideIgnore.toInt
  | .accEn => cUInt8 w.cmd.accEn.toInt
  | .aebEn => cUInt8 w.cmd.aebEn.toInt
  | .epsSpeed => cUInt8 w.cmd.epsSpeed
  | .turnSignal => cUInt8 w.cmd.turnSignal
  | .aebDecelValue => w.cmd.aebDecelValue.toFloat32
  | .epsCmd => w.cmd.epsCmd.toFloat32
  | .accCmd => w.cmd.accCmd.toFloat32

/-- The `Command` that `read` builds from the fields. -/
def commandOf (p : ∀ f : CommandField, f.Val) : Command where
  epsEn := (show BitVec 8 from p .epsEn) != 0
  epsOverrideIgnore := (show BitVec 8 from p .epsOverrideIgnore) != 0
  accEn := (show BitVec 8 from p .accEn) != 0
  aebEn := (show BitVec 8 from p .aebEn) != 0
  epsSpeed := (show BitVec 8 from p .epsSpeed).toNat
  turnSignal := (show BitVec 8 from p .turnSignal).toNat
  aebDecelValue := p .aebDecelValue
  epsCmd := p .epsCmd
  accCmd := p .accCmd

/-- The stores of `write` and the loads of `read`, in the order of the source. -/
def layout : Layout CommandWrite CommandField CommandField.Val where
  content := payload
  stores := [.timestampNs, .epsEn, .epsOverrideIgnore, .accEn, .aebEn, .epsSpeed, .turnSignal,
    .aebDecelValue, .epsCmd, .accCmd]
  loads := [.epsEn, .epsOverrideIgnore, .accEn, .aebEn, .epsSpeed, .turnSignal, .aebDecelValue,
    .epsCmd, .accCmd, .timestampNs]
  mem_stores f := by cases f <;> decide
  mem_loads f := by cases f <;> decide

/-- The outcome of `read`, its age taken at the clock value `nowNs`. -/
def result (maxRetries : ℕ) (nowNs : ℤ) :
    ReadResult CommandField.Val → Except TornReadError (Option (Command × ℚ))
  | .neverWritten => .ok none
  | .value p => .ok (some (commandOf p, ageS nowNs (p .timestampNs)))
  | .torn =>
    .error ⟨s!"CommandChannel: {maxRetries}번 재시도해도 seqlock 이 안정되지 않음 — 쓰기 쪽이 멈췄거나 비정상적으로 빠름"⟩

/-- `create` on a new segment. -/
def fresh : Segment CommandField.Val where
  seq := 0
  data _ := default

/-- `write` with no concurrent step. -/
def write (seg : Segment CommandField.Val) (cmd : Command) (timestampNs : ℤ) :
    Segment CommandField.Val :=
  layout.write seg ⟨cmd, timestampNs⟩

/-- `read` with no concurrent step. -/
def read (seg : Segment CommandField.Val) (maxRetries : ℕ) (nowNs : ℤ) :
    Except TornReadError (Option (Command × ℚ)) :=
  result maxRetries nowNs (seg.read maxRetries)

end CommandChannel

/-- A command as a reader gets it back. -/
def Command.stored (cmd : Command) : Command :=
  CommandChannel.commandOf (CommandChannel.payload ⟨cmd, 0⟩)

/-- The clock value of a write as a reader gets it back. -/
def CommandWrite.storedNs (w : CommandWrite) : ℤ :=
  cInt64 w.timestampNs

/-- A read gives back the command and the timestamp of the write it copied. -/
theorem CommandChannel.result_payload (maxRetries : ℕ) (nowNs : ℤ) (w : CommandWrite) :
    result maxRetries nowNs (.value (payload w)) =
      .ok (some (w.cmd.stored, ageS nowNs w.storedNs)) :=
  rfl

/-- A read after a write gives back the command of the write, if any. -/
theorem CommandChannel.eq_stored_of_read {seg : Segment CommandField.Val} {cmd got : Command}
    {timestampNs nowNs : ℤ} {maxRetries : ℕ} {age : ℚ}
    (h : read (write seg cmd timestampNs) maxRetries nowNs = .ok (some (got, age))) :
    got = cmd.stored := by
  rcases Nat.eq_zero_or_pos maxRetries with rfl | hr
  · simp [read, Segment.read, result] at h
  rw [read, write, read_write _ _ _ hr] at h
  split_ifs at h
  · simp [result] at h
  · cases h
    rfl

/-- Flags survive, integers wrap at 256 and floats round. -/
theorem Command.stored_eq (cmd : Command) :
    cmd.stored = { cmd with
      epsSpeed := cmd.epsSpeed % 256
      turnSignal := cmd.turnSignal % 256
      aebDecelValue := cmd.aebDecelValue.toFloat32
      epsCmd := cmd.epsCmd.toFloat32
      accCmd := cmd.accCmd.toFloat32 } := by
  have hflag : ∀ b : Bool, (cUInt8 b.toInt != 0) = b := by decide
  have hint : ∀ x : ℤ, ((cUInt8 x).toNat : ℤ) = x % 256 := by
    intro x
    rw [cUInt8, BitVec.toNat_ofInt, Int.toNat_of_nonneg (Int.emod_nonneg _ (by decide))]
    rfl
  obtain ⟨epsEn, epsOverrideIgnore, accEn, aebEn, epsSpeed, turnSignal, aeb, eps, acc⟩ := cmd
  simp only [stored, CommandChannel.commandOf, CommandChannel.payload]
  congr 1
  · exact hflag epsEn
  · exact hflag epsOverrideIgnore
  · exact hflag accEn
  · exact hflag aebEn
  · exact hint epsSpeed
  · exact hint turnSignal

/-! ## The heartbeat channel -/

namespace HeartbeatChannel

/-- The store of `beat` and the load of `age` between those of the word. -/
def layout : Layout ℤ Unit (fun _ => ℤ) where
  content timestampNs _ := cInt64 timestampNs
  stores := [()]
  loads := [()]
  mem_stores _ := by simp
  mem_loads _ := by simp

/-- The outcome of `age` at the clock value `nowNs`. -/
def result (maxRetries : ℕ) (nowNs : ℤ) :
    ReadResult (fun _ : Unit => ℤ) → Except TornReadError (Option ℚ)
  | .neverWritten => .ok none
  | .value p => .ok (some (ageS nowNs (p ())))
  | .torn => .error ⟨s!"HeartbeatChannel: {maxRetries}번 재시도해도 seqlock 이 안정되지 않음"⟩

end HeartbeatChannel

/-! ## What the readers rely on -/

section Readers

variable {J ι : Type*} {V : ι → Type*} [DecidableEq ι] [∀ i, Inhabited (V i)] {L : Layout J ι V}
  {α : Type*} (result : ℕ → ℤ → ReadResult V → Except TornReadError (Option α))

/-- The read that step `n` ends has the outcome `out`, its age taken at `nowNs`. -/
def Returns (ρ : Run L) (n : ℕ) (nowNs : ℤ) (out : Except TornReadError (Option α)) : Prop :=
  ∃ maxRetries r, (ρ.state (n + 1)).returned = some r ∧ result maxRetries nowNs r = out

/-- A read started in the state `s` and run alone has the outcome `out`. -/
def ReadsAlone (L : Layout J ι V) (s : St J V) (maxRetries : ℕ) (nowNs : ℤ)
    (out : Except TornReadError (Option α)) : Prop :=
  ∃ steps s' r, exec L s (.beginRead maxRetries :: List.replicate steps .read) = some s' ∧
    s'.returned = some r ∧ result maxRetries nowNs r = out

/-- What a reader relies on. `report nowNs w` carries the fields of the write `w`, its age
taken at `nowNs`, and step `n` of a read that returns is the read's last load. -/
structure ReadsCompletedWrites (ρ : Run L) (report : ℤ → J → α) : Prop where
  /-- What a read returns are the fields of one write that ran to completion, the last one
  completed at an instant of the read. -/
  last_completed : ∀ {n : ℕ} {nowNs : ℤ} {a : α}, (ρ.state n).begun < 2 ^ 62 →
    Returns result ρ n nowNs (.ok (some a)) →
      ∃ w, (ρ.state n).done.getLast? = some w ∧ a = report nowNs w
  /-- A later read does not return an earlier write : with the completed writes numbered in
  order, the two reads return the last ones completed at their last loads. -/
  never_back : ∀ {n₁ n₂ : ℕ} {t₁ t₂ : ℤ} {a₁ a₂ : α}, n₁ ≤ n₂ → (ρ.state n₂).begun < 2 ^ 62 →
    Returns result ρ n₁ t₁ (.ok (some a₁)) → Returns result ρ n₂ t₂ (.ok (some a₂)) →
      ∃ (k₁ k₂ : ℕ) (w₁ w₂ : J), k₁ ≤ k₂ ∧ (ρ.state n₁).done.length = k₁ + 1 ∧
        (ρ.state n₂).done.length = k₂ + 1 ∧ (ρ.state n₂).done[k₁]? = some w₁ ∧
        (ρ.state n₂).done[k₂]? = some w₂ ∧ a₁ = report t₁ w₁ ∧ a₂ = report t₂ w₂
  /-- A write that completes, whatever was killed before it, makes the channel readable with
  its own fields until the next store. -/
  readable : ∀ {n m maxRetries : ℕ} {w : J}, (ρ.state (n + 1)).begun < 2 ^ 62 →
    (ρ.state (n + 1)).done = (ρ.state n).done ++ [w] →
    (ρ.state m).seg = (ρ.state (n + 1)).seg → (ρ.state m).reader = .idle → 0 < maxRetries →
      ∀ nowNs, ReadsAlone result L (ρ.state m) maxRetries nowNs (.ok (some (report nowNs w)))
  /-- So does a writer that starts after a kill at any instant and runs alone. -/
  repairs : ∀ {n maxRetries : ℕ} (w : J), (ρ.state n).begun < 2 ^ 62 →
    (ρ.state n).reader = .idle → 0 < maxRetries →
      ∃ s, exec L (ρ.state n)
          (.kill :: .beginWrite w :: List.replicate (L.stores.length + 4) .write) = some s ∧
        ∀ nowNs, ReadsAlone result L s maxRetries nowNs (.ok (some (report nowNs w)))

variable {result}

/-- A seqlock whose outcome reports the fields of a write reads completed writes. -/
theorem readsCompletedWrites (ρ : Run L) {report : ℤ → J → α}
    (hvalue : ∀ {k t r a}, result k t r = .ok (some a) → ∃ p, r = .value p)
    (hreport : ∀ k t w, result k t (.value (L.content w)) = .ok (some (report t w))) :
    ReadsCompletedWrites result ρ report := by
  have last : ∀ {n nowNs a}, (ρ.state n).begun < 2 ^ 62 →
      Returns result ρ n nowNs (.ok (some a)) →
        ∃ w, (ρ.state n).done.getLast? = some w ∧ a = report nowNs w := by
    rintro n nowNs a hb ⟨k, r, hr, hres⟩
    obtain ⟨p, rfl⟩ := hvalue hres
    obtain ⟨w, hw, rfl⟩ := ρ.value_spec hb hr
    rw [hreport] at hres
    exact ⟨w, hw, by simpa using hres.symm⟩
  have alone : ∀ {s : St J V} {maxRetries : ℕ} {w : J}, s.reader = .idle →
      s.seg.read maxRetries = .value (L.content w) →
        ∀ nowNs, ReadsAlone result L s maxRetries nowNs (.ok (some (report nowNs w))) := by
    intro s maxRetries w hidle hread nowNs
    obtain ⟨steps, hex⟩ := exec_read_alone (L := L) s maxRetries hidle
    refine ⟨steps, _, _, hex, rfl, ?_⟩
    rw [hread]
    exact hreport maxRetries nowNs w
  refine ⟨last, ?_, ?_, ?_⟩
  · intro n₁ n₂ t₁ t₂ a₁ a₂ hle hb h₁ h₂
    obtain ⟨w₁, hw₁, ha₁⟩ := last ((ρ.begun_mono hle).trans_lt hb) h₁
    obtain ⟨w₂, hw₂, ha₂⟩ := last hb h₂
    obtain ⟨later, hlater⟩ := ρ.done_prefix hle
    have hlen := (ρ.done_prefix hle).length_le
    have hlen₁ := List.length_pos_of_mem (List.mem_of_getLast? hw₁)
    rw [List.getLast?_eq_getElem?] at hw₁ hw₂
    refine ⟨(ρ.state n₁).done.length - 1, (ρ.state n₂).done.length - 1, w₁, w₂, by omega,
      by omega, by omega, ?_, hw₂, ha₁, ha₂⟩
    rw [← hlater, List.getElem?_append_left (by omega)]
    exact hw₁
  · intro n m maxRetries w hb hdone hseg hidle hr
    refine alone hidle ?_
    rw [hseg, ρ.read_of_done hb hdone hr]
  · intro n maxRetries w hb hidle hr
    obtain ⟨s, hex, hreader, hread⟩ := ρ.exec_repair hb w
    exact ⟨s, hex, alone (hreader.trans hidle) (hread maxRetries hr)⟩

end Readers

/-- Every command read back is that of a completed write. -/
theorem CommandChannel.readsCompletedWrites (ρ : Run CommandChannel.layout) :
    ReadsCompletedWrites CommandChannel.result ρ
      fun nowNs w => (w.cmd.stored, ageS nowNs w.storedNs) := by
  refine A1Bsw.readsCompletedWrites ρ ?_ CommandChannel.result_payload
  intro k t r a h
  cases r with
  | value p => exact ⟨p, rfl⟩
  | neverWritten => simp [CommandChannel.result] at h
  | torn => simp [CommandChannel.result] at h

/-- Every age read back is that of a completed beat. -/
theorem HeartbeatChannel.readsCompletedWrites (η : Run HeartbeatChannel.layout) :
    ReadsCompletedWrites HeartbeatChannel.result η
      fun nowNs timestampNs => ageS nowNs (cInt64 timestampNs) := by
  refine A1Bsw.readsCompletedWrites η ?_ fun _ _ _ => rfl
  intro k t r a h
  cases r with
  | value p => exact ⟨p, rfl⟩
  | neverWritten => simp [HeartbeatChannel.result] at h
  | torn => simp [HeartbeatChannel.result] at h

/-- Both channels give back completed writes only, for every interleaving of their loads and
stores with writers that may be killed between any two of them. -/
theorem channels_read_completed_writes (ρ : Run CommandChannel.layout)
    (η : Run HeartbeatChannel.layout) :
    ReadsCompletedWrites CommandChannel.result ρ
        (fun nowNs w => (w.cmd.stored, ageS nowNs w.storedNs)) ∧
      ReadsCompletedWrites HeartbeatChannel.result η
        (fun nowNs timestampNs => ageS nowNs (cInt64 timestampNs)) :=
  ⟨CommandChannel.readsCompletedWrites ρ, HeartbeatChannel.readsCompletedWrites η⟩

end A1Bsw
