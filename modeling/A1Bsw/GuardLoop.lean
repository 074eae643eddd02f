import A1Bsw.CommandPolicy
import A1Bsw.Stay
import A1Bsw.TxEncode

/-!
# The main loop of the guard

One cycle of `can_guard.py` reads both channels and the received frames,
moves the state machine, and sends the two control frames. `cycle` is that
cycle as a function of the loop state and of what the cycle reads, in three
parts : `LoopState.sense`, `LoopState.transition` and `LoopState.send`. Only
the last can raise, and it never does (`LoopState.send_eq`), so a run is an
infinite sequence of cycles. A run that is asked to stop is a prefix of one.
Sending and receiving on the bus always return here, and `cycleOnBus` is the
cycle on a bus that may raise.

The statistics, the log and the notifications of the service manager decide
nothing in the loop and are left out, and so is the sleep to the next period :
the times of the cycles are any non-decreasing sequence.
-/

namespace A1Bsw

/-! ## Configuration and inputs -/

/-- The options of `parse_args` that the cycle reads. -/
structure Args extends Thresholds where
  period : ℚ := 1 / 100
  epsRateLimit : Option PyFloat := none
  accRateLimit : Option PyFloat := none

/-- A received CAN frame. -/
structure Message where
  arbitrationId : ℕ
  data : Bytes

/-- What a cycle reads : its time, the outcomes of `read` and of `age`, and the frames that
`recv` would return one after the other. -/
structure CycleInput where
  now : ℚ
  cmdRead : Except TornReadError (Option (Command × ℚ)) := .ok none
  hbAge : Except TornReadError (Option ℚ) := .ok none
  rx : List Message := []

/-! ## Vehicle speed -/

/-- `FRAME_ID_INFO_ACC`. -/
def frameIdInfoAcc : ℕ := 0x711

/-- `VS_MAX_AGE_S`. -/
def vsMaxAge : ℚ := 1

/-- `VS_DRAIN_MAX_PER_CYCLE`. -/
def vsDrainMaxPerCycle : ℕ := 16

/-- `decode_vs_kph`. -/
def decodeVsKph (data : Bytes) : ℚ :=
  ((intFromBytes (data.take 8) >>> 16) &&& 0xFF : ℕ)

/-! ## The loop state -/

/-- The variables that the loop carries from cycle to cycle. -/
structure LoopState where
  state : State := .INIT
  alivCnt : ℤ := 0
  lastValidCmd : Command := {}
  lastCmdMono : Option ℚ := none
  lastHbMono : Option ℚ := none
  holdingEnteredAt : Option ℚ := none
  degradedEnteredAt : Option ℚ := none
  heldEpsCmd : PyFloat := .fin 0
  lastVsKph : Option ℚ := none
  lastVsMono : Option ℚ := none
  epsLimiter : RateLimiter
  accLimiter : RateLimiter

/-- What a cycle sends : the clamped command, the violations it logs, and the two frames. -/
structure Sent where
  out : Command
  violations : List Violation
  frame156 : Bytes
  frame157 : Bytes

namespace LoopState

/-- The variables before the first cycle. -/
def init (a : Args) : LoopState where
  epsLimiter := { maxDeltaPerS := a.epsRateLimit }
  accLimiter := { maxDeltaPerS := a.accRateLimit }

variable (s : LoopState)

/-! ### 1. Reading the channels -/

/-- A torn or empty read leaves the last command and its time. -/
def readCommand (now : ℚ) : Except TornReadError (Option (Command × ℚ)) → LoopState
  | .ok (some (cmd, cmdAge)) => { s with lastValidCmd := cmd, lastCmdMono := some (now - cmdAge) }
  | .ok none => s
  | .error _ => s

/-- A torn or empty read leaves the time of the last heartbeat. -/
def readHeartbeat (now : ℚ) : Except TornReadError (Option ℚ) → LoopState
  | .ok (some hbAge) => { s with lastHbMono := some (now - hbAge) }
  | .ok none => s
  | .error _ => s

/-- One received frame. -/
def recv (now : ℚ) (msg : Message) : LoopState :=
  if msg.arbitrationId = frameIdInfoAcc then
    { s with lastVsKph := some (decodeVsKph msg.data), lastVsMono := some now }
  else s

/-- The received frames, up to the bound of one cycle. -/
def drain (now : ℚ) (rx : List Message) : LoopState :=
  (rx.take vsDrainMaxPerCycle).foldl (fun s msg => s.recv now msg) s

/-- The state after the reads of a cycle. -/
def sense (i : CycleInput) : LoopState :=
  ((s.readCommand i.now i.cmdRead).readHeartbeat i.now i.hbAge).drain i.now i.rx

/-- `vehicle_speed_kph` : the last speed, unknown when it is too old. -/
def vehicleSpeedKph (now : ℚ) : Option ℚ :=
  match s.lastVsMono with
  | some mono => if now - mono ≤ vsMaxAge then s.lastVsKph else none
  | none => none

/-- The arguments of `next_state`. A duration is zero outside its state. -/
def observe (now : ℚ) : Observation where
  cmdAge := s.lastCmdMono.map (now - ·)
  holdingDuration := some (s.holdingEnteredAt.elim 0 (now - ·))
  perceptionAge := s.lastHbMono.map (now - ·)
  degradedDuration := some (s.degradedEnteredAt.elim 0 (now - ·))
  vehicleSpeedKph := s.vehicleSpeedKph now

/-! ### 2. The transition -/

/-- Enter the new state : set or clear the two entry times, and freeze the requested angle
when HOLDING or DEGRADED is entered. -/
def transition (now : ℚ) (new : State) : LoopState :=
  { s with
    state := new
    holdingEnteredAt := entryClock (s.state = .HOLDING) (new = .HOLDING) now s.holdingEnteredAt
    degradedEnteredAt := entryClock (s.state = .DEGRADED) (new = .DEGRADED) now s.degradedEnteredAt
    heldEpsCmd :=
      if new = .HOLDING ∧ s.state ≠ .HOLDING ∨ new = .DEGRADED ∧ s.state ≠ .DEGRADED then
        s.lastValidCmd.epsCmd
      else s.heldEpsCmd }

/-! ### 3. Sending -/

/-- The command of the state, and the limiters after it. -/
def policy (period : ℚ) : Policy :=
  commandForState s.state s.lastValidCmd s.heldEpsCmd s.epsLimiter s.accLimiter (.fin period)

/-- The variables after the frames are sent. -/
def afterSend (period : ℚ) : LoopState :=
  { s with
    alivCnt := (s.alivCnt + 1) % 256
    epsLimiter := (s.policy period).epsLimiter
    accLimiter := (s.policy period).accLimiter }

/-- Clamp, encode and send. -/
def send (period : ℚ) : Except PyError (LoopState × Sent) := do
  let (out, violations) := clampRange (s.policy period).out
  let frame156 ← encode0x156 out s.alivCnt
  let frame157 ← encode0x157 out
  return (s.afterSend period, { out, violations, frame156, frame157 })

end LoopState

/-- The state of the machine after the reads of a cycle and the transition. -/
def LoopState.decide (a : Args) (s : LoopState) (now : ℚ) : LoopState :=
  s.transition now (nextState a.toThresholds s.state (s.observe now))

/-- One cycle of `run`. -/
def cycle (a : Args) (s : LoopState) (i : CycleInput) : Except PyError (LoopState × Sent) :=
  ((s.sense i).decide a i.now).send a.period

/-! ## What the parts do -/

namespace LoopState

variable (s : LoopState)

theorem drain_frame (now : ℚ) (rx : List Message) :
    s.drain now rx = { s with
      lastVsKph := (s.drain now rx).lastVsKph, lastVsMono := (s.drain now rx).lastVsMono } := by
  unfold drain
  generalize rx.take vsDrainMaxPerCycle = msgs
  induction msgs generalizing s with
  | nil => rfl
  | cons msg msgs ih =>
    rw [List.foldl_cons, ih, recv]
    split_ifs <;> rfl

/-- The reads of a cycle leave the variables they are not about. -/
theorem sense_frame (i : CycleInput) :
    s.sense i = { s with
      lastValidCmd := (s.sense i).lastValidCmd
      lastCmdMono := (s.sense i).lastCmdMono
      lastHbMono := (s.sense i).lastHbMono
      lastVsKph := (s.sense i).lastVsKph
      lastVsMono := (s.sense i).lastVsMono } := by
  unfold sense
  rw [drain_frame]
  rcases i.cmdRead with _ | _ | _ <;> rcases i.hbAge with _ | _ | _ <;> rfl

@[simp] theorem sense_state (i : CycleInput) : (s.sense i).state = s.state := by
  rw [sense_frame]

@[simp] theorem sense_alivCnt (i : CycleInput) : (s.sense i).alivCnt = s.alivCnt := by
  rw [sense_frame]

@[simp] theorem sense_holdingEnteredAt (i : CycleInput) :
    (s.sense i).holdingEnteredAt = s.holdingEnteredAt := by
  rw [sense_frame]

@[simp] theorem sense_degradedEnteredAt (i : CycleInput) :
    (s.sense i).degradedEnteredAt = s.degradedEnteredAt := by
  rw [sense_frame]

@[simp] theorem sense_heldEpsCmd (i : CycleInput) : (s.sense i).heldEpsCmd = s.heldEpsCmd := by
  rw [sense_frame]

@[simp] theorem sense_epsLimiter (i : CycleInput) : (s.sense i).epsLimiter = s.epsLimiter := by
  rw [sense_frame]

@[simp] theorem sense_accLimiter (i : CycleInput) : (s.sense i).accLimiter = s.accLimiter := by
  rw [sense_frame]

/-- The command comes from this cycle's read, or the read gave none and nothing changed. -/
theorem sense_command (i : CycleInput) :
    (∃ cmd cmdAge, i.cmdRead = .ok (some (cmd, cmdAge)) ∧ (s.sense i).lastValidCmd = cmd ∧
      (s.sense i).lastCmdMono = some (i.now - cmdAge)) ∨
    ((∀ r, i.cmdRead ≠ .ok (some r)) ∧ (s.sense i).lastValidCmd = s.lastValidCmd ∧
      (s.sense i).lastCmdMono = s.lastCmdMono) := by
  unfold sense
  rw [drain_frame]
  rcases h : i.cmdRead with e | _ | ⟨cmd, cmdAge⟩
  · refine .inr ⟨by simp, ?_⟩
    rcases i.hbAge with _ | _ | _ <;> exact ⟨rfl, rfl⟩
  · refine .inr ⟨by simp, ?_⟩
    rcases i.hbAge with _ | _ | _ <;> exact ⟨rfl, rfl⟩
  · refine .inl ⟨cmd, cmdAge, rfl, ?_⟩
    rcases i.hbAge with _ | _ | _ <;> exact ⟨rfl, rfl⟩

/-- The heartbeat comes from this cycle's read, or the read gave none and nothing changed. -/
theorem sense_heartbeat (i : CycleInput) :
    (∃ hbAge, i.hbAge = .ok (some hbAge) ∧ (s.sense i).lastHbMono = some (i.now - hbAge)) ∨
    ((∀ r, i.hbAge ≠ .ok (some r)) ∧ (s.sense i).lastHbMono = s.lastHbMono) := by
  unfold sense
  rw [drain_frame]
  rcases h : i.hbAge with e | _ | hbAge
  · refine .inr ⟨by simp, ?_⟩
    rcases i.cmdRead with _ | _ | _ <;> rfl
  · refine .inr ⟨by simp, ?_⟩
    rcases i.cmdRead with _ | _ | _ <;> rfl
  · exact .inl ⟨hbAge, rfl, rfl⟩

/-- The speed comes from the last frame of this cycle that carries one, or the cycle took no such
frame. -/
theorem drain_speed (now : ℚ) (rx : List Message) :
    (∃ before msg after, rx.take vsDrainMaxPerCycle = before ++ msg :: after ∧
      msg.arbitrationId = frameIdInfoAcc ∧ (∀ m ∈ after, m.arbitrationId ≠ frameIdInfoAcc) ∧
      (s.drain now rx).lastVsKph = some (decodeVsKph msg.data) ∧
      (s.drain now rx).lastVsMono = some now) ∨
    ((∀ msg ∈ rx.take vsDrainMaxPerCycle, msg.arbitrationId ≠ frameIdInfoAcc) ∧
      (s.drain now rx).lastVsKph = s.lastVsKph ∧ (s.drain now rx).lastVsMono = s.lastVsMono) := by
  unfold drain
  generalize rx.take vsDrainMaxPerCycle = msgs
  induction msgs generalizing s with
  | nil => exact .inr ⟨by simp, rfl, rfl⟩
  | cons msg msgs ih =>
    rw [List.foldl_cons]
    obtain ⟨before, m, after, hmsgs, hspeed⟩ | ⟨hnone, hkph, hmono⟩ := ih (s.recv now msg)
    · exact .inl ⟨msg :: before, m, after, congrArg (msg :: ·) hmsgs, hspeed⟩
    rw [hkph, hmono]
    by_cases hid : msg.arbitrationId = frameIdInfoAcc
    · rw [recv, if_pos hid]
      exact .inl ⟨[], msg, msgs, rfl, hid, hnone, rfl, rfl⟩
    · rw [recv, if_neg hid]
      exact .inr ⟨List.forall_mem_cons.2 ⟨hid, hnone⟩, rfl, rfl⟩

theorem sense_speed (i : CycleInput) :
    (∃ before msg after, i.rx.take vsDrainMaxPerCycle = before ++ msg :: after ∧
      msg.arbitrationId = frameIdInfoAcc ∧ (∀ m ∈ after, m.arbitrationId ≠ frameIdInfoAcc) ∧
      (s.sense i).lastVsKph = some (decodeVsKph msg.data) ∧
      (s.sense i).lastVsMono = some i.now) ∨
    ((∀ msg ∈ i.rx.take vsDrainMaxPerCycle, msg.arbitrationId ≠ frameIdInfoAcc) ∧
      (s.sense i).lastVsKph = s.lastVsKph ∧ (s.sense i).lastVsMono = s.lastVsMono) := by
  have hkeep : ((s.readCommand i.now i.cmdRead).readHeartbeat i.now i.hbAge).lastVsKph =
      s.lastVsKph ∧ ((s.readCommand i.now i.cmdRead).readHeartbeat i.now i.hbAge).lastVsMono =
        s.lastVsMono := by
    rcases i.cmdRead with _ | _ | _ <;> rcases i.hbAge with _ | _ | _ <;> exact ⟨rfl, rfl⟩
  rw [← hkeep.1, ← hkeep.2]
  exact drain_speed _ i.now i.rx

/-- What a cycle sends. The frames are there because both encoders return. -/
def sending (period : ℚ) : Sent :=
  let (out, violations) := clampRange (s.policy period).out
  { out
    violations
    frame156 := (encode0x156 out s.alivCnt).toOption.getD []
    frame157 := (encode0x157 out).toOption.getD [] }

theorem sending_out (period : ℚ) :
    (s.sending period).out = (clampRange (s.policy period).out).1 :=
  rfl

theorem encode0x156_sending (period : ℚ) :
    encode0x156 (s.sending period).out s.alivCnt = .ok (s.sending period).frame156 := by
  obtain ⟨q, hq, h0, h1⟩ := (clampRange_inRange (s.policy period).out).aebDecelValue
  obtain ⟨b, _, hb, -⟩ := encode0x156_spec hq h0 h1 s.alivCnt
  rw [sending, ← Prod.mk.eta (p := clampRange _)]
  simp only [hb]
  rfl

theorem encode0x157_sending (period : ℚ) :
    encode0x157 (s.sending period).out = .ok (s.sending period).frame157 := by
  obtain ⟨b, _, _, hb, -⟩ := encode0x157_spec (clampRange (s.policy period).out).1
  rw [sending, ← Prod.mk.eta (p := clampRange _)]
  simp only [hb]
  rfl

/-- Sending never raises. -/
theorem send_eq (period : ℚ) : s.send period = .ok (s.afterSend period, s.sending period) := by
  have h1 := s.encode0x156_sending period
  have h2 := s.encode0x157_sending period
  rw [sending_out] at h1 h2
  unfold send
  rw [← Prod.mk.eta (p := clampRange _)]
  simp only [h1, h2]
  rfl

end LoopState

theorem cycle_eq (a : Args) (s : LoopState) (i : CycleInput) :
    cycle a s i = .ok (((s.sense i).decide a i.now).afterSend a.period,
      ((s.sense i).decide a i.now).sending a.period) :=
  LoopState.send_eq _ _

/-! ## Runs -/

/-- A run of the loop : cycle `n` leads from the `n`-th loop state to the next one. -/
structure GuardRun (a : Args) where
  input : ℕ → CycleInput
  loop : ℕ → LoopState
  sent : ℕ → Sent
  start : loop 0 = .init a
  next : ∀ n, cycle a (loop n) (input n) = .ok (loop (n + 1), sent n)
  now_mono : Monotone fun n => (input n).now

namespace GuardRun

variable {a : Args}

section OfInputs

variable (a) (input : ℕ → CycleInput)

/-- The loop states that a sequence of inputs leads through. -/
def loopOf : ℕ → LoopState
  | 0 => .init a
  | n + 1 => (((loopOf n).sense (input n)).decide a (input n).now).afterSend a.period

/-- No cycle raises, so every sequence of inputs has a run. -/
def ofInputs (now_mono : Monotone fun n => (input n).now) : GuardRun a where
  input := input
  loop := loopOf a input
  sent n := (((loopOf a input n).sense (input n)).decide a (input n).now).sending a.period
  start := rfl
  next _ := cycle_eq _ _ _
  now_mono := now_mono

end OfInputs

/-- Cycles every 10 ms. -/
theorem monotone_tick : Monotone fun n : ℕ => (n : ℚ) / 100 := by
  intro m n h
  have hcast : (m : ℚ) ≤ n := Nat.cast_le.2 h
  show (m : ℚ) / 100 ≤ n / 100
  linarith

variable (ρ : GuardRun a)

/-- The time of a cycle. -/
def now (n : ℕ) : ℚ :=
  (ρ.input n).now

/-- The state before a cycle. -/
def state (n : ℕ) : State :=
  (ρ.loop n).state

/-- The loop state after the reads of a cycle. -/
def sensed (n : ℕ) : LoopState :=
  (ρ.loop n).sense (ρ.input n)

/-- The arguments a cycle passes to `next_state`. -/
def observed (n : ℕ) : Observation :=
  (ρ.sensed n).observe (ρ.now n)

/-- The loop state from which a cycle sends. -/
def entered (n : ℕ) : LoopState :=
  (ρ.sensed n).decide a (ρ.now n)

theorem loop_succ (n : ℕ) : ρ.loop (n + 1) = (ρ.entered n).afterSend a.period := by
  have h := ρ.next n
  rw [cycle_eq, Except.ok.injEq, Prod.mk.injEq] at h
  exact h.1.symm

theorem sent_eq (n : ℕ) : ρ.sent n = (ρ.entered n).sending a.period := by
  have h := ρ.next n
  rw [cycle_eq, Except.ok.injEq, Prod.mk.injEq] at h
  exact h.2.symm

theorem state_zero : ρ.state 0 = .INIT := by
  rw [state, ρ.start]
  rfl

theorem state_succ (n : ℕ) :
    ρ.state (n + 1) = nextState a.toThresholds (ρ.state n) (ρ.observed n) := by
  rw [state, loop_succ]
  exact congrArg (nextState _ · _) (LoopState.sense_state _ _)

theorem now_le {m n : ℕ} (h : m ≤ n) : ρ.now m ≤ ρ.now n :=
  ρ.now_mono h

theorem entered_state (n : ℕ) : (ρ.entered n).state = ρ.state (n + 1) := by
  rw [state, loop_succ]
  rfl

/-! ### INIT and STOPPED -/

theorem init_of_succ {n : ℕ} (h : ρ.state (n + 1) = .INIT) : ρ.state n = .INIT := by
  rw [state_succ, nextState_eq_INIT_iff] at h
  exact h.1

theorem init_of_le {m n : ℕ} (hle : m ≤ n) (h : ρ.state n = .INIT) : ρ.state m = .INIT := by
  induction n, hle using Nat.le_induction with
  | base => exact h
  | succ n _ ih => exact ih (ρ.init_of_succ h)

theorem stopped_succ {n : ℕ} (h : ρ.state n = .STOPPED) : ρ.state (n + 1) = .STOPPED := by
  rw [state_succ, nextState_eq_STOPPED_iff]
  exact .inl h

theorem stopped_of_le {m n : ℕ} (hle : m ≤ n) (h : ρ.state m = .STOPPED) :
    ρ.state n = .STOPPED :=
  Nat.le_induction h (fun _ _ => ρ.stopped_succ) n hle

/-! ### What a cycle sends -/

theorem sent_of_init {n : ℕ} (h : ρ.state (n + 1) = .INIT) : (ρ.sent n).out = {} := by
  rw [sent_eq, LoopState.sending_out, LoopState.policy, entered_state, h]
  rfl

/-- A following state sends the limited targets. -/
theorem sent_of_following {n : ℕ} (h : (ρ.state (n + 1)).Following) :
    (ρ.sent n).out = (clampRange { (ρ.sensed n).lastValidCmd with
      epsCmd := (ρ.loop n).epsLimiter.limited ((ρ.state (n + 1)).epsTarget
        (ρ.sensed n).lastValidCmd (ρ.entered n).heldEpsCmd) (.fin a.period)
      accCmd := (ρ.loop n).accLimiter.limited ((ρ.state (n + 1)).accTarget
        (ρ.sensed n).lastValidCmd) (.fin a.period) }).1 := by
  rw [sent_eq, LoopState.sending_out, LoopState.policy, entered_state,
    commandForState_of_following h, entered, sensed, LoopState.decide, LoopState.transition,
    LoopState.sense_epsLimiter, LoopState.sense_accLimiter]

theorem sent_of_stopped {n : ℕ} (h : ρ.state (n + 1) = .STOPPED) :
    (ρ.sent n).out = (clampRange {
      aebEn := (ρ.sensed n).lastValidCmd.aebEn
      epsSpeed := (ρ.sensed n).lastValidCmd.epsSpeed }).1 := by
  rw [sent_eq, LoopState.sending_out, LoopState.policy, entered_state, h]
  rfl

/-! ### The last command and the last heartbeat -/

/-- The last command is that of a read of this or an earlier cycle, and so is its time. -/
theorem exists_read {n : ℕ} {mono : ℚ} (h : (ρ.sensed n).lastCmdMono = some mono) :
    ∃ m ≤ n, ∃ cmdAge, mono = ρ.now m - cmdAge ∧
      (ρ.input m).cmdRead = .ok (some ((ρ.sensed n).lastValidCmd, cmdAge)) := by
  generalize hcmd : (ρ.sensed n).lastValidCmd = cmd
  -- The pair of command and time is read in a cycle, or it was in the variables before it.
  have hread : ∀ k, (ρ.sensed k).lastCmdMono = some mono ∧ (ρ.sensed k).lastValidCmd = cmd →
      (∃ cmdAge, mono = ρ.now k - cmdAge ∧ (ρ.input k).cmdRead = .ok (some (cmd, cmdAge))) ∨
        (ρ.loop k).lastCmdMono = some mono ∧ (ρ.loop k).lastValidCmd = cmd := by
    rintro k ⟨hm, rfl⟩
    obtain ⟨cmd, cmdAge, hr, hc, hm'⟩ | ⟨-, hc, hm'⟩ := (ρ.loop k).sense_command (ρ.input k)
    · exact .inl ⟨cmdAge, Option.some.inj (hm.symm.trans hm'), by rw [sensed, hc, hr]⟩
    · exact .inr ⟨hm'.symm.trans hm, hc.symm⟩
  refine exists_origin
    (p := fun k => (ρ.sensed k).lastCmdMono = some mono ∧ (ρ.sensed k).lastValidCmd = cmd)
    (fun h0 => (hread 0 h0).resolve_right ?_) (fun k hk => ?_) ⟨h, hcmd⟩
  · rw [ρ.start]
    rintro ⟨hm, -⟩
    cases hm
  · rw [← show (ρ.loop (k + 1)).lastCmdMono = (ρ.sensed k).lastCmdMono by rw [loop_succ]; rfl,
      ← show (ρ.loop (k + 1)).lastValidCmd = (ρ.sensed k).lastValidCmd by rw [loop_succ]; rfl]
    exact hread (k + 1) hk

/-- The time of the last heartbeat is that of a read of this or an earlier cycle. -/
theorem exists_beat {n : ℕ} {mono : ℚ} (h : (ρ.sensed n).lastHbMono = some mono) :
    ∃ m ≤ n, ∃ hbAge, mono = ρ.now m - hbAge ∧ (ρ.input m).hbAge = .ok (some hbAge) := by
  have hread : ∀ k, (ρ.sensed k).lastHbMono = some mono →
      (∃ hbAge, mono = ρ.now k - hbAge ∧ (ρ.input k).hbAge = .ok (some hbAge)) ∨
        (ρ.loop k).lastHbMono = some mono := by
    intro k hm
    obtain ⟨hbAge, hr, hm'⟩ | ⟨-, hm'⟩ := (ρ.loop k).sense_heartbeat (ρ.input k)
    · exact .inl ⟨hbAge, Option.some.inj (hm.symm.trans hm'), hr⟩
    · exact .inr (hm'.symm.trans hm)
  refine exists_origin (p := fun k => (ρ.sensed k).lastHbMono = some mono)
    (fun h0 => (hread 0 h0).resolve_right ?_) (fun k hk => ?_) h
  · rw [ρ.start]
    intro hm
    cases hm
  · rw [← show (ρ.loop (k + 1)).lastHbMono = (ρ.sensed k).lastHbMono by rw [loop_succ]; rfl]
    exact hread (k + 1) hk

/-- A command that is not stale was read, and its age is within the limit. -/
theorem exists_fresh_read {n : ℕ} (h : ¬(ρ.observed n).cmdStale a.toThresholds) :
    ∃ m ≤ n, ∃ cmdAge, ρ.now n - (ρ.now m - cmdAge) ≤ a.watchdogT ∧
      (ρ.input m).cmdRead = .ok (some ((ρ.sensed n).lastValidCmd, cmdAge)) := by
  rcases hm : (ρ.sensed n).lastCmdMono with _ | mono
  · simp [Observation.cmdStale, observed, LoopState.observe, hm, staleAge] at h
  · obtain ⟨m, hle, cmdAge, rfl, hread⟩ := ρ.exists_read hm
    refine ⟨m, hle, cmdAge, ?_, hread⟩
    simpa [Observation.cmdStale, observed, LoopState.observe, hm, staleAge] using h

/-- Perception that is not lost sent a heartbeat that was read. -/
theorem exists_fresh_beat {n : ℕ} (h : ¬(ρ.observed n).perceptionLost a.toThresholds) :
    ∃ m ≤ n, ∃ hbAge, ρ.now n - (ρ.now m - hbAge) ≤ a.perceptionTimeout ∧
      (ρ.input m).hbAge = .ok (some hbAge) := by
  rcases hm : (ρ.sensed n).lastHbMono with _ | mono
  · simp [Observation.perceptionLost, observed, LoopState.observe, hm, staleAge] at h
  · obtain ⟨m, hle, hbAge, rfl, hread⟩ := ρ.exists_beat hm
    refine ⟨m, hle, hbAge, ?_, hread⟩
    simpa [Observation.perceptionLost, observed, LoopState.observe, hm, staleAge] using h

/-- A cycle that reads a fresh command and a live heartbeat is ACTIVE and has the command. -/
theorem active_of_reads {n : ℕ} {cmd : Command} {cmdAge hbAge : ℚ} (hrun : ρ.state n ≠ .STOPPED)
    (hcmd : (ρ.input n).cmdRead = .ok (some (cmd, cmdAge))) (hcmdAge : cmdAge ≤ a.watchdogT)
    (hhb : (ρ.input n).hbAge = .ok (some hbAge)) (hhbAge : hbAge ≤ a.perceptionTimeout) :
    ρ.state (n + 1) = .ACTIVE ∧ (ρ.sensed n).lastValidCmd = cmd := by
  obtain ⟨_, _, hr, hlast, hcmdMono⟩ | ⟨hr, -⟩ := (ρ.loop n).sense_command (ρ.input n)
  swap
  · exact absurd hcmd (hr _)
  obtain ⟨_, hr', hhbMono⟩ | ⟨hr', -⟩ := (ρ.loop n).sense_heartbeat (ρ.input n)
  swap
  · exact absurd hhb (hr' _)
  rw [hcmd] at hr
  rw [hhb] at hr'
  cases hr
  cases hr'
  refine ⟨?_, hlast⟩
  rw [state_succ, nextState_eq_ACTIVE_iff]
  refine ⟨hrun, ?_, ?_⟩
  · simpa [Observation.cmdStale, observed, LoopState.observe, sensed, hcmdMono, staleAge, now]
      using hcmdAge
  · simpa [Observation.perceptionLost, observed, LoopState.observe, sensed, hhbMono, staleAge, now]
      using hhbAge

section Fresh

variable (a) {now : ℕ → ℚ} (now_mono : Monotone now) (cmd : ℕ → Command)

/-- A run in which every cycle reads a command and a heartbeat that are still in time. -/
def fresh : GuardRun a :=
  .ofInputs a (fun n =>
    { now := now n
      cmdRead := .ok (some (cmd n, a.watchdogT))
      hbAge := .ok (some a.perceptionTimeout) }) now_mono

theorem fresh_active (n : ℕ) : (fresh a now_mono cmd).state (n + 1) = .ACTIVE := by
  induction n with
  | zero => exact (active_of_reads _ (by simp [state_zero]) rfl le_rfl rfl le_rfl).1
  | succ n ih => exact (active_of_reads _ (by simp [ih]) rfl le_rfl rfl le_rfl).1

theorem fresh_lastValidCmd (n : ℕ) : ((fresh a now_mono cmd).sensed n).lastValidCmd = cmd n := by
  refine (active_of_reads _ ?_ rfl le_rfl rfl le_rfl).2
  rcases n with _ | n
  · simp [state_zero]
  · simp [fresh_active]

end Fresh

/-! ### The entry times -/

/-- `holding_entered_at` clocks the stays in HOLDING. -/
theorem holdingClock :
    EntryClock (fun n => ρ.state n = .HOLDING) ρ.now fun n => (ρ.loop n).holdingEnteredAt where
  start := by simp [state_zero]
  unset := by simp [ρ.start, LoopState.init]
  next n := by
    simp only [state, loop_succ, entered, sensed, LoopState.afterSend, LoopState.decide,
      LoopState.transition, LoopState.sense_state, LoopState.sense_holdingEnteredAt]

/-- `degraded_entered_at` clocks the stays in DEGRADED. -/
theorem degradedClock :
    EntryClock (fun n => ρ.state n = .DEGRADED) ρ.now fun n => (ρ.loop n).degradedEnteredAt where
  start := by simp [state_zero]
  unset := by simp [ρ.start, LoopState.init]
  next n := by
    simp only [state, loop_succ, entered, sensed, LoopState.afterSend, LoopState.decide,
      LoopState.transition, LoopState.sense_state, LoopState.sense_degradedEnteredAt]

/-- Inside a stay in HOLDING the next cycle measures the stay. -/
theorem holdingDuration_of_since {c n : ℕ} (h : Since (fun k => ρ.state k = .HOLDING) c n) :
    (ρ.observed (n + 1)).holdingDuration = some (ρ.now (n + 1) - ρ.now c) := by
  simp [observed, sensed, LoopState.observe, ρ.holdingClock.eq_some h]

/-- Outside HOLDING the holding duration is zero. -/
theorem holdingDuration_of_ne {n : ℕ} (h : ρ.state n ≠ .HOLDING) :
    (ρ.observed n).holdingDuration = some 0 := by
  simp [observed, sensed, LoopState.observe, ρ.holdingClock.eq_none h]

/-- Inside a stay in DEGRADED the next cycle measures the stay. -/
theorem degradedDuration_of_since {c n : ℕ} (h : Since (fun k => ρ.state k = .DEGRADED) c n) :
    (ρ.observed (n + 1)).degradedDuration = some (ρ.now (n + 1) - ρ.now c) := by
  simp [observed, sensed, LoopState.observe, ρ.degradedClock.eq_some h]

/-- Outside DEGRADED the degraded duration is zero. -/
theorem degradedDuration_of_ne {n : ℕ} (h : ρ.state n ≠ .DEGRADED) :
    (ρ.observed n).degradedDuration = some 0 := by
  simp [observed, sensed, LoopState.observe, ρ.degradedClock.eq_none h]

end GuardRun

end A1Bsw
