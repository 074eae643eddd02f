import A1Bsw.BusFaults
import A1Bsw.Periodic

/-!
# The program around the loop

`run` puts the cycles on a clock, keeps statistics of how late they are, tells
the service manager what it does, and logs. `Prog` holds its variables and
everything it has done so far, in order, and `Prog.step` is one pass of the
`while`. The loop ends at its condition, or with an exception.

What is left after the clock, the statistics and the notifications are taken
away is the loop of `GuardRun` (`ProgramRun.vars_eq`). The trace of a run is
made of whole cycles, after which an exception leaves the first part of one
more (`ProgramRun.trace_eq`).
-/

namespace A1Bsw

/-! ## Lateness -/

/-- `SPIKE_THRESHOLD_S`. -/
def spikeThreshold : ℚ := 1 / 10000

/-- The sum of the lateness without signs, the worst one, and the number of spikes. -/
structure Lateness where
  errSum : ℚ := 0
  worst : ℚ := 0
  spikes : ℕ := 0

/-- One more cycle. -/
def Lateness.add (l : Lateness) (late : ℚ) : Lateness where
  errSum := l.errSum + |late|
  worst := max l.worst late
  spikes := if spikeThreshold < |late| then l.spikes + 1 else l.spikes

/-- The variables of the window : `win_start_t`, `win_n` and its lateness. -/
structure Window where
  start : ℚ
  n : ℕ := 0
  lateness : Lateness := {}

/-- What a snapshot logs of the window, and of all cycles. The means are in microseconds. -/
structure Snapshot where
  n : ℕ
  elapsed : ℚ
  mean : ℚ
  window : Lateness
  totalMean : ℚ
  total : Lateness

/-! ## The program -/

/-- The options of `parse_args` that `run` reads. -/
structure Options extends Args where
  maxCycles : ℤ := 0
  statsInterval : ℚ := 0
  quiet : Bool := false

/-- What the program does : its notifications, its frames and its log lines. -/
inductive Event where
  | ready
  | snapshot (s : Snapshot)
  | transition (old new : State) (o : Observation)
  | status (s : State)
  | violations (vs : List Violation)
  | frame (id : ℕ) (data : Bytes)
  | watchdog

/-- How the loop ends. -/
inductive Ending where
  | condition
  | exception (e : CycleError)

/-- What a pass of the loop reads besides the clock : the stop flag, the outcomes of `read` and
of `age`, the frames on the bus, and the calls that fail. -/
structure Reads where
  stop : Bool := false
  cmdRead : Except TornReadError (Option (Command × ℚ)) := .ok none
  hbAge : Except TornReadError (Option ℚ) := .ok none
  rx : List Message := []
  fails : BusCall → Bool := fun _ => false

/-- What the cycle reads, at its time. -/
def Reads.input (r : Reads) (now : ℚ) : CycleInput where
  now
  cmdRead := r.cmdRead
  hbAge := r.hbAge
  rx := r.rx

/-- The variables of `run`, and what it has done. -/
structure Prog where
  vars : LoopState
  cycle : ℕ := 0
  nextT : ℚ
  total : Lateness := {}
  window : Window
  trace : List Event
  ending : Option Ending := none

/-- `log`, which does nothing when quiet. -/
def Options.log (o : Options) (e : Event) : List Event :=
  if o.quiet then [] else [e]

namespace Prog

/-- The variables before the loop. -/
def init (o : Options) (start : ℚ) : Prog where
  vars := .init o.toArgs
  nextT := start
  window := { start }
  trace := [.ready]

variable (o : Options) (p : Prog)

def emit (es : List Event) : Prog :=
  { p with trace := p.trace ++ es }

def raise (e : CycleError) : Prog :=
  { p with ending := some (.exception e) }

/-- The statistics of a cycle, and the snapshot when the window is over. -/
def measure (now : ℚ) : Prog :=
  let late := now - p.nextT
  let total := p.total.add late
  if 0 < o.statsInterval then
    let window : Window :=
      { p.window with n := p.window.n + 1, lateness := p.window.lateness.add late }
    if o.statsInterval ≤ now - window.start then
      { p with total, window := { start := now } }.emit <| o.log <| .snapshot
        { n := window.n
          elapsed := now - window.start
          mean := window.lateness.errSum / window.n * 1000000
          window := window.lateness
          totalMean := total.errSum / (p.cycle + 1) * 1000000
          total }
    else { p with total, window }
  else { p with total }

/-- The log line and the notification of a transition. -/
def announce (old new : State) (obs : Observation) : List Event :=
  if new ≠ old then o.log (.transition old new obs) ++ [.status new] else []

/-- Clamp, encode and send, then notify the service manager. -/
def transmit (fails : BusCall → Bool) (s : LoopState) : Prog :=
  let (out, violations) := clampRange (s.policy o.period).out
  let p := if violations ≠ [] ∧ ¬o.quiet then p.emit (o.log (.violations violations)) else p
  match encode0x156 out s.alivCnt with
  | .error e => p.raise (.encodeError e)
  | .ok frame156 =>
    if fails .send156 then p.raise .canError
    else
      let p := p.emit [.frame 0x156 frame156]
      match encode0x157 out with
      | .error e => p.raise (.encodeError e)
      | .ok frame157 =>
        if fails .send157 then p.raise .canError
        else
          { p.emit [.frame 0x157 frame157, .watchdog] with
            vars := s.afterSend o.period
            cycle := p.cycle + 1
            nextT := p.nextT + o.period }

/-- The body of the loop. -/
def body (arrive woken : ℚ) (r : Reads) : Prog :=
  let now := wake p.nextT arrive woken
  let p := p.measure o now
  match ((p.vars.readCommand now r.cmdRead).readHeartbeat now r.hbAge).drainBus r.fails now
      vsDrainMaxPerCycle 0 r.rx with
  | .error e => p.raise e
  | .ok s =>
    let obs := s.observe now
    let new := nextState o.toThresholds s.state obs
    (p.emit (announce o s.state new obs)).transmit o r.fails (s.transition now new)

/-- One pass of the `while`. -/
def step (arrive woken : ℚ) (r : Reads) : Prog :=
  if p.ending.isSome then p
  else if ¬r.stop ∧ (o.maxCycles = 0 ∨ p.cycle < o.maxCycles) then p.body o arrive woken r
  else { p with ending := some .condition }

end Prog

/-! ## One pass -/

/-- A `recv` of the drain fails. -/
def DrainFails (r : Reads) : Prop :=
  ∃ k < vsDrainMaxPerCycle, k ≤ r.rx.length ∧ r.fails (.recv k)

instance (r : Reads) : Decidable (DrainFails r) :=
  inferInstanceAs (Decidable (∃ k, k < vsDrainMaxPerCycle ∧ k ≤ r.rx.length ∧ r.fails (.recv k)))

theorem not_faulty_iff {r : Reads} {now : ℚ} : ¬Faulty r.fails (r.input now) ↔
    ¬DrainFails r ∧ ¬r.fails .send156 ∧ ¬r.fails .send157 := by
  show ¬(DrainFails r ∨ r.fails .send156 ∨ r.fails .send157) ↔ _
  rw [not_or, not_or]

namespace Prog

variable (o : Options) (p : Prog) (now : ℚ) (r : Reads)

/-- The snapshot of a cycle, if it logs one. -/
def snapshots : List Event :=
  (p.measure o now).trace.drop p.trace.length

/-- The variables from which a cycle sends. -/
def entered : LoopState :=
  (p.vars.sense (r.input now)).decide o.toArgs now

/-- The log line of the violations. -/
def violated : List Event :=
  let vs := ((p.entered o now r).sending o.period).violations
  if vs ≠ [] ∧ ¬o.quiet then o.log (.violations vs) else []

/-- What a cycle does, up to the call that fails. -/
def events : List Event :=
  let s := p.vars.sense (r.input now)
  let sent := (p.entered o now r).sending o.period
  p.snapshots o now ++
    if DrainFails r then []
    else announce o s.state (p.entered o now r).state (s.observe now) ++ p.violated o now r ++
      if r.fails .send156 then []
      else if r.fails .send157 then [.frame 0x156 sent.frame156]
      else [.frame 0x156 sent.frame156, .frame 0x157 sent.frame157, .watchdog]

/-- The statistics touch no other variable. -/
theorem measure_frame : (p.measure o now).vars = p.vars ∧ (p.measure o now).cycle = p.cycle ∧
    (p.measure o now).nextT = p.nextT ∧ (p.measure o now).ending = p.ending := by
  unfold measure
  dsimp only
  split_ifs <;> exact ⟨rfl, rfl, rfl, rfl⟩

@[simp] theorem measure_vars : (p.measure o now).vars = p.vars :=
  (measure_frame o p now).1

@[simp] theorem measure_cycle : (p.measure o now).cycle = p.cycle :=
  (measure_frame o p now).2.1

@[simp] theorem measure_nextT : (p.measure o now).nextT = p.nextT :=
  (measure_frame o p now).2.2.1

@[simp] theorem measure_ending : (p.measure o now).ending = p.ending :=
  (measure_frame o p now).2.2.2

theorem measure_trace : (p.measure o now).trace = p.trace ++ p.snapshots o now := by
  obtain ⟨es, h⟩ : ∃ es, (p.measure o now).trace = p.trace ++ es := by
    unfold measure
    dsimp only
    split_ifs
    · exact ⟨_, rfl⟩
    · exact ⟨[], (List.append_nil _).symm⟩
    · exact ⟨[], (List.append_nil _).symm⟩
  rw [snapshots, h, List.drop_left]

/-- The frames and the notification, or the call that raises. -/
theorem transmit_eq (fails : BusCall → Bool) (s : LoopState) :
    let sent := s.sending o.period
    let vs := if sent.violations ≠ [] ∧ ¬o.quiet then o.log (.violations sent.violations) else []
    p.transmit o fails s =
      if fails .send156 then (p.emit vs).raise .canError
      else if fails .send157 then (p.emit (vs ++ [.frame 0x156 sent.frame156])).raise .canError
      else
        { p.emit (vs ++ [.frame 0x156 sent.frame156, .frame 0x157 sent.frame157, .watchdog]) with
          vars := s.afterSend o.period
          cycle := p.cycle + 1
          nextT := p.nextT + o.period } := by
  have h156 := s.encode0x156_sending o.period
  have h157 := s.encode0x157_sending o.period
  rw [LoopState.sending_out] at h156 h157
  have hvs : (s.sending o.period).violations = (clampRange (s.policy o.period).out).2 := rfl
  simp only [transmit, h156, h157, hvs]
  split_ifs <;> simp [emit, raise]

variable {now} {r} {arrive woken : ℚ}

/-- A failing `recv` ends the cycle after its statistics. -/
theorem body_of_drainFails (hnow : wake p.nextT arrive woken = now) (h : DrainFails r) :
    p.body o arrive woken r = ((p.measure o now).emit []).raise .canError := by
  obtain ⟨k, hk, hlen, hfail⟩ := h
  have herror := drainBus_eq_error (k := 0)
    (s := (p.vars.readCommand now r.cmdRead).readHeartbeat now r.hbAge) now hk hlen
    (by rwa [Nat.zero_add])
  simp only [body, hnow, measure_vars, herror]
  rw [emit, List.append_nil]

/-- A cycle in which no `recv` fails goes on to its frames. -/
theorem body_of_drained (hnow : wake p.nextT arrive woken = now) (h : ¬DrainFails r) :
    p.body o arrive woken r = ((p.measure o now).emit (announce o p.vars.state
      (p.entered o now r).state ((p.vars.sense (r.input now)).observe now))).transmit o r.fails
      (p.entered o now r) := by
  have hrecv : ∀ k < vsDrainMaxPerCycle, k ≤ r.rx.length → r.fails (.recv (0 + k)) = false := by
    simpa [DrainFails] using h
  have hdrain := drainBus_eq_ok (k := 0)
    (s := (p.vars.readCommand now r.cmdRead).readHeartbeat now r.hbAge) now hrecv
  have hstate : (p.vars.sense (r.input now)).state = p.vars.state := p.vars.sense_state _
  rw [← hstate]
  simp only [body, hnow, measure_vars, hdrain]
  rfl

/-- A cycle in which no call fails is one of the loop. -/
theorem body_of_not_faulty (hnow : wake p.nextT arrive woken = now)
    (h : ¬Faulty r.fails (r.input now)) : p.body o arrive woken r =
      { p.measure o now with
        vars := (p.entered o now r).afterSend o.period
        cycle := p.cycle + 1
        nextT := p.nextT + o.period
        trace := p.trace ++ p.events o now r } := by
  obtain ⟨hdrain, h156, h157⟩ := not_faulty_iff.1 h
  rw [body_of_drained o p hnow hdrain, transmit_eq]
  simp only [if_neg h156, if_neg h157, events, if_neg hdrain, violated, emit, measure_trace,
    measure_cycle, measure_nextT, List.append_assoc, LoopState.sense_state]

/-- A cycle in which a call fails ends the loop. -/
theorem body_of_faulty (hnow : wake p.nextT arrive woken = now)
    (h : Faulty r.fails (r.input now)) : p.body o arrive woken r =
      { p.measure o now with
        trace := p.trace ++ p.events o now r
        ending := some (.exception .canError) } := by
  by_cases hdrain : DrainFails r
  · rw [body_of_drainFails o p hnow hdrain]
    simp only [emit, raise, events, if_pos hdrain, measure_trace, List.append_nil]
  rw [body_of_drained o p hnow hdrain, transmit_eq]
  have hsend : r.fails .send156 ∨ r.fails .send157 := h.resolve_left hdrain
  by_cases h156 : r.fails .send156
  · simp only [if_pos h156, emit, raise, events, if_neg hdrain, measure_trace, violated,
      List.append_nil, List.append_assoc, LoopState.sense_state]
  · have h157 := hsend.resolve_left h156
    simp only [if_neg h156, if_pos h157, emit, raise, events, if_neg hdrain, measure_trace,
      violated, List.append_assoc, LoopState.sense_state]

/-- The condition of the `while`. -/
def Enters (r : Reads) : Prop :=
  ¬r.stop ∧ (o.maxCycles = 0 ∨ p.cycle < o.maxCycles)

/-- What one pass of the `while` can do. -/
theorem step_cases (hnow : p.ending = none → wake p.nextT arrive woken = now) :
    p.ending ≠ none ∧ p.step o arrive woken r = p ∨
    p.ending = none ∧ ¬p.Enters o r ∧
      p.step o arrive woken r = { p with ending := some .condition } ∨
    p.ending = none ∧ p.Enters o r ∧ ¬Faulty r.fails (r.input now) ∧
      p.step o arrive woken r =
        { p.measure o now with
          vars := (p.entered o now r).afterSend o.period
          cycle := p.cycle + 1
          nextT := p.nextT + o.period
          trace := p.trace ++ p.events o now r } ∨
    p.ending = none ∧ p.Enters o r ∧ Faulty r.fails (r.input now) ∧
      p.step o arrive woken r =
        { p.measure o now with
          trace := p.trace ++ p.events o now r
          ending := some (.exception .canError) } := by
  by_cases hend : p.ending = none
  · by_cases henter : p.Enters o r
    · have hstep : p.step o arrive woken r = p.body o arrive woken r := by
        rw [step, hend, Option.isSome_none, if_neg Bool.false_ne_true]
        exact if_pos henter
      by_cases hfault : Faulty r.fails (r.input now)
      · exact .inr (.inr (.inr
          ⟨hend, henter, hfault, hstep.trans (body_of_faulty o p (hnow hend) hfault)⟩))
      · exact .inr (.inr (.inl
          ⟨hend, henter, hfault, hstep.trans (body_of_not_faulty o p (hnow hend) hfault)⟩))
    · refine .inr (.inl ⟨hend, henter, ?_⟩)
      rw [step, hend, Option.isSome_none, if_neg Bool.false_ne_true]
      exact if_neg henter
  · exact .inl ⟨hend, if_pos (Option.isSome_iff_ne_none.2 hend)⟩

end Prog

/-- A run of the program on a clock. -/
structure ProgramRun (o : Options) where
  pace : Pace ℚ
  reads : ℕ → Reads
  period_eq : pace.period = o.period

namespace ProgramRun

variable {o : Options} (P : ProgramRun o)

/-- The program after `n` passes of the `while`. -/
def prog : ℕ → Prog
  | 0 => .init o P.pace.start
  | n + 1 => (prog n).step o (P.pace.arrive n) (P.pace.woken n) (P.reads n)

/-- What cycle `n` reads. -/
def input (n : ℕ) : CycleInput :=
  (P.reads n).input (P.pace.now n)

/-- A run whose cycles are on time. -/
def onTime (h : 0 ≤ o.period) (reads : ℕ → Reads) : ProgramRun o where
  pace := .onTime 0 h
  reads
  period_eq := rfl

/-- The run of the loop on the same inputs. -/
def guard : GuardRun o.toArgs :=
  .ofInputs o.toArgs P.input P.pace.now_mono

/-- The loop has not ended after `n` passes. -/
def Runs (n : ℕ) : Prop :=
  (P.prog n).ending = none

/-- The condition of the `while` before cycle `n`. -/
def Enters (n : ℕ) : Prop :=
  ¬(P.reads n).stop ∧ (o.maxCycles = 0 ∨ n < o.maxCycles)

/-- A call that cycle `n` makes fails. -/
def FaultyAt (n : ℕ) : Prop :=
  Faulty (P.reads n).fails (P.input n)

/-- What cycle `n` does. -/
def events (n : ℕ) : List Event :=
  (P.prog n).events o (P.pace.now n) (P.reads n)

variable {P}

/-- While the loop runs, each pass is a cycle of the loop, and `next_t` its due time. -/
theorem Runs.aligned {n : ℕ} (h : P.Runs n) : (P.prog n).cycle = n ∧
    (P.prog n).nextT = P.pace.due n ∧ (P.prog n).vars = P.guard.loop n := by
  induction n with
  | zero => exact ⟨rfl, by simp [prog, Prog.init, Pace.due], rfl⟩
  | succ n ih =>
    have hnow : (P.prog n).ending = none → wake (P.prog n).nextT (P.pace.arrive n)
        (P.pace.woken n) = P.pace.now n := by
      intro hn
      rw [(ih hn).2.1, Pace.now]
    rw [Runs, prog] at h
    rcases Prog.step_cases o _ (r := P.reads n) hnow with ⟨hn, hs⟩ | ⟨-, -, hs⟩ |
      ⟨hn, -, -, hs⟩ | ⟨-, -, -, hs⟩
    · exact absurd (hs ▸ h) hn
    · cases hs ▸ h
    · obtain ⟨hcycle, hdue, hvars⟩ := ih hn
      rw [prog, hs]
      refine ⟨congrArg (· + 1) hcycle, ?_, ?_⟩
      · rw [Pace.due_succ, ← hdue, P.period_eq]
      · rw [Prog.entered, hvars]
        rfl
    · cases hs ▸ h

/-- What one pass of the `while` can do in a run. -/
theorem prog_succ (P : ProgramRun o) (n : ℕ) :
    ¬P.Runs n ∧ P.prog (n + 1) = P.prog n ∨
    P.Runs n ∧ ¬P.Enters n ∧
      P.prog (n + 1) = { P.prog n with ending := some .condition } ∨
    P.Runs n ∧ P.Enters n ∧ ¬P.FaultyAt n ∧ P.prog (n + 1) =
      { (P.prog n).measure o (P.pace.now n) with
        vars := P.guard.loop (n + 1)
        cycle := n + 1
        nextT := P.pace.due (n + 1)
        trace := (P.prog n).trace ++ P.events n } ∨
    P.Runs n ∧ P.Enters n ∧ P.FaultyAt n ∧ P.prog (n + 1) =
      { (P.prog n).measure o (P.pace.now n) with
        trace := (P.prog n).trace ++ P.events n
        ending := some (.exception .canError) } := by
  have hnow : (P.prog n).ending = none → wake (P.prog n).nextT (P.pace.arrive n)
      (P.pace.woken n) = P.pace.now n := by
    intro hn
    rw [(Runs.aligned hn).2.1, Pace.now]
  have henters (hn : P.Runs n) : (P.prog n).Enters o (P.reads n) ↔ P.Enters n := by
    rw [Prog.Enters, hn.aligned.1, Enters]
  rcases Prog.step_cases o _ (r := P.reads n) hnow with ⟨hn, hs⟩ | ⟨hn, he, hs⟩ |
    ⟨hn, he, hf, hs⟩ | ⟨hn, he, hf, hs⟩
  · exact .inl ⟨hn, hs⟩
  · exact .inr (.inl ⟨hn, mt (henters hn).2 he, hs⟩)
  · obtain ⟨hcycle, hdue, hvars⟩ := Runs.aligned hn
    refine .inr (.inr (.inl ⟨hn, (henters hn).1 he, hf, ?_⟩))
    rw [prog, hs, hcycle, hdue, Pace.due_succ, P.period_eq, Prog.entered, hvars]
    rfl
  · exact .inr (.inr (.inr ⟨hn, (henters hn).1 he, hf, hs⟩))

/-- The loop gets past a cycle exactly if it enters it and no call fails. -/
theorem runs_succ_iff {n : ℕ} : P.Runs (n + 1) ↔ P.Runs n ∧ P.Enters n ∧ ¬P.FaultyAt n := by
  rcases P.prog_succ n with ⟨hn, h⟩ | ⟨hn, he, h⟩ | ⟨hn, he, hf, h⟩ | ⟨hn, he, hf, h⟩
  · rw [Runs, h]
    exact iff_of_false hn fun hand => hn hand.1
  · rw [Runs, h]
    exact iff_of_false (Option.some_ne_none _) fun hand => he hand.2.1
  · rw [Runs, h]
    exact iff_of_true ((Prog.measure_ending o _ _).trans hn) ⟨hn, he, hf⟩
  · rw [Runs, h]
    exact iff_of_false (Option.some_ne_none _) fun hand => hand.2.2 hf

theorem Runs.of_le {m n : ℕ} (hle : m ≤ n) (h : P.Runs n) : P.Runs m := by
  induction n, hle using Nat.le_induction with
  | base => exact h
  | succ n _ ih => exact ih (runs_succ_iff.1 h).1

theorem runs_of_healthy (henter : ∀ n, P.Enters n) (h : ∀ n call, (P.reads n).fails call = false)
    (n : ℕ) : P.Runs n := by
  induction n with
  | zero => rfl
  | succ n ih =>
    refine runs_succ_iff.2 ⟨ih, henter n, ?_⟩
    rintro (⟨k, -, -, hfail⟩ | hfail | hfail) <;> exact absurd hfail (by rw [h]; decide)

end ProgramRun

/-! ## The trace -/

/-- An exception has ended the loop. -/
def Prog.raised (p : Prog) : Bool :=
  match p.ending with
  | some (.exception _) => true
  | _ => false

/-- The cycles that have begun : an exception leaves one that is not counted. -/
def Prog.begun (p : Prog) : ℕ :=
  p.cycle + p.raised.toNat

namespace ProgramRun

variable {o : Options} {P : ProgramRun o}

theorem Runs.raised {n : ℕ} (h : P.Runs n) : (P.prog n).raised = false := by
  rw [Prog.raised, h]

theorem Runs.begun {n : ℕ} (h : P.Runs n) : (P.prog n).begun = n := by
  rw [Prog.begun, h.raised, h.aligned.1]
  rfl

variable (P)

/-- The loop has run for every complete cycle, and an exception comes from a failing call. -/
theorem runs_cycle (n : ℕ) : P.Runs (P.prog n).cycle ∧
    ((P.prog n).raised = true → P.FaultyAt (P.prog n).cycle) := by
  induction n with
  | zero => exact ⟨rfl, fun h => Bool.noConfusion h⟩
  | succ n ih =>
    rcases P.prog_succ n with ⟨hn, h⟩ | ⟨hn, he, h⟩ | ⟨hn, he, hf, h⟩ | ⟨hn, he, hf, h⟩
    · rwa [h]
    · rw [h]
      exact ⟨ih.1, fun hraised => Bool.noConfusion hraised⟩
    · have hrun : P.Runs (n + 1) := runs_succ_iff.2 ⟨hn, he, hf⟩
      rw [hrun.aligned.1, hrun.raised]
      exact ⟨hrun, fun hraised => Bool.noConfusion hraised⟩
    · have hcycle : (P.prog (n + 1)).cycle = n := by
        rw [h]
        exact (Prog.measure_cycle o _ _).trans hn.aligned.1
      rw [hcycle]
      exact ⟨hn, fun _ => hf⟩

theorem not_faultyAt {n k : ℕ} (hk : k < (P.prog n).cycle) : P.Runs k ∧ ¬P.FaultyAt k := by
  obtain ⟨hrun, -, hfault⟩ := runs_succ_iff.1 (Runs.of_le hk (P.runs_cycle n).1)
  exact ⟨hrun, hfault⟩

/-- A pass of the `while` leaves the trace and the statistics, or begins a cycle. -/
theorem begun_succ (n : ℕ) :
    (P.prog (n + 1)).begun = (P.prog n).begun ∧ (P.prog (n + 1)).trace = (P.prog n).trace ∧
      (P.prog (n + 1)).total = (P.prog n).total ∧ (P.prog (n + 1)).window = (P.prog n).window ∨
    P.Runs n ∧ (P.prog (n + 1)).begun = n + 1 ∧
      (P.prog (n + 1)).trace = (P.prog n).trace ++ P.events n ∧
      (P.prog (n + 1)).total = ((P.prog n).measure o (P.pace.now n)).total ∧
      (P.prog (n + 1)).window = ((P.prog n).measure o (P.pace.now n)).window := by
  rcases P.prog_succ n with ⟨hn, h⟩ | ⟨hn, he, h⟩ | ⟨hn, he, hf, h⟩ | ⟨hn, he, hf, h⟩
  · rw [h]
    exact .inl ⟨rfl, rfl, rfl, rfl⟩
  · rw [h]
    exact .inl ⟨congrArg (fun b => (P.prog n).cycle + b.toNat) hn.raised.symm, rfl, rfl, rfl⟩
  · have hbegun := Runs.begun (runs_succ_iff.2 ⟨hn, he, hf⟩)
    rw [h] at hbegun ⊢
    exact .inr ⟨hn, hbegun, rfl, rfl, rfl⟩
  · rw [h]
    exact .inr ⟨hn, congrArg (· + 1) ((Prog.measure_cycle o _ _).trans hn.aligned.1),
      rfl, rfl, rfl⟩

/-- The trace is made of the cycles that have begun. -/
theorem trace_eq (n : ℕ) :
    (P.prog n).trace = .ready :: (List.range (P.prog n).begun).flatMap P.events := by
  induction n with
  | zero => rfl
  | succ n ih =>
    rcases P.begun_succ n with ⟨hbegun, htrace, -⟩ | ⟨hn, hbegun, htrace, -⟩
    · rw [htrace, hbegun, ih]
    · rw [htrace, hbegun, ih, hn.begun, List.range_succ, List.flatMap_append,
        List.flatMap_singleton, List.cons_append]

/-! ## The events of a cycle -/

/-- What cycle `n` announces. -/
def announced (n : ℕ) : List Event :=
  Prog.announce o (P.guard.state n) (P.guard.state (n + 1)) (P.guard.observed n)

/-- What cycle `n` sends, up to the call that fails. -/
def sends (n : ℕ) : List Event :=
  if (P.reads n).fails .send156 then []
  else if (P.reads n).fails .send157 then [.frame 0x156 (P.guard.sent n).frame156]
  else
    [.frame 0x156 (P.guard.sent n).frame156, .frame 0x157 (P.guard.sent n).frame157, .watchdog]

variable {P}

theorem Runs.entered {n : ℕ} (h : P.Runs n) :
    (P.prog n).entered o (P.pace.now n) (P.reads n) = P.guard.entered n := by
  rw [Prog.entered, h.aligned.2.2]
  rfl

/-- A cycle announces its transition and sends its frames, as far as its calls succeed. -/
theorem Runs.events_eq {n : ℕ} (h : P.Runs n) : P.events n =
    (P.prog n).snapshots o (P.pace.now n) ++
      if DrainFails (P.reads n) then []
      else P.announced n ++ (P.prog n).violated o (P.pace.now n) (P.reads n) ++ P.sends n := by
  have hstate : ((P.prog n).vars.sense ((P.reads n).input (P.pace.now n))).state =
      P.guard.state n := by
    rw [h.aligned.2.2, LoopState.sense_state, GuardRun.state]
  have hobs : ((P.prog n).vars.sense ((P.reads n).input (P.pace.now n))).observe (P.pace.now n) =
      P.guard.observed n := by
    rw [h.aligned.2.2]
    rfl
  rw [events, Prog.events, h.entered]
  simp only [hstate, hobs, GuardRun.entered_state, announced, sends, GuardRun.sent_eq]

/-- A cycle that was begun has been reached. -/
theorem runs_of_lt_begun {k n : ℕ} (h : k < (P.prog n).begun) : P.Runs k := by
  have hraised := Bool.toNat_le (P.prog n).raised
  rw [Prog.begun] at h
  exact .of_le (by omega) (P.runs_cycle n).1

/-- What is found in a run is what is found in its cycles. -/
theorem filterMap_trace {β : Type*} {f : Event → Option β} {n : ℕ} {part : ℕ → List β}
    (h : ∀ k < (P.prog n).begun, (P.events k).filterMap f = part k) :
    (P.prog n).trace.filterMap f =
      [Event.ready].filterMap f ++ (List.range (P.prog n).begun).flatMap part := by
  rw [P.trace_eq, ← List.singleton_append, List.filterMap_append, List.filterMap_flatMap]
  exact congrArg _ (List.flatMap_congr fun k hk => h k (List.mem_range.1 hk))

end ProgramRun

/-! ## Log lines -/

/-- Neither a frame nor a notification. -/
def Event.Log : Event → Prop
  | .snapshot _ => True
  | .transition _ _ _ => True
  | .violations _ => True
  | _ => False

section Lines

variable {o : Options} {β : Type*} {f : Event → Option β}

theorem Options.filterMap_log {e : Event} (hf : f e = none) : (o.log e).filterMap f = [] := by
  unfold log
  split_ifs
  · rfl
  · rw [List.filterMap_cons_none hf, List.filterMap_nil]

/-! What does not look for the events of a part of a cycle finds nothing there. -/

theorem Prog.filterMap_snapshots (hf : ∀ s, f (.snapshot s) = none) (p : Prog) (now : ℚ) :
    (p.snapshots o now).filterMap f = [] := by
  unfold snapshots measure
  dsimp only
  split_ifs
  · rw [emit, List.drop_left, Options.filterMap_log (hf _)]
  · rw [List.drop_length, List.filterMap_nil]
  · rw [List.drop_length, List.filterMap_nil]

theorem Prog.filterMap_violated (hf : ∀ vs, f (.violations vs) = none) (p : Prog) (now : ℚ)
    (r : Reads) : (p.violated o now r).filterMap f = [] := by
  unfold violated
  dsimp only
  split_ifs
  · exact Options.filterMap_log (hf _)
  · rfl

theorem Prog.filterMap_announce (hlog : ∀ old new obs, f (.transition old new obs) = none)
    (hstatus : ∀ s, f (.status s) = none) (old new : State) (obs : Observation) :
    (Prog.announce o old new obs).filterMap f = [] := by
  unfold announce
  split_ifs
  · rw [List.filterMap_append, Options.filterMap_log (hlog _ _ _), List.nil_append,
      List.filterMap_cons_none (hstatus _), List.filterMap_nil]
  · rfl

theorem ProgramRun.filterMap_sends (hframe : ∀ id data, f (.frame id data) = none)
    (hwatchdog : f .watchdog = none) (P : ProgramRun o) (n : ℕ) :
    (P.sends n).filterMap f = [] := by
  unfold sends
  split_ifs <;> simp [hframe, hwatchdog]

end Lines

end A1Bsw
