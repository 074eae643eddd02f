import A1Bsw.AliveCounter
import Mathlib.Data.ENat.Basic

/-!
# Errors of the bus

Every call of `recv` and of `send` may raise `can.CanError`, and `run` catches
none. `cycleOnBus` is one cycle with the calls it makes : a failure in the
drain sends nothing, and a failure of the second `send` comes after the first
frame is on the bus. In each case the exception ends the loop, so a run
survives exactly when no call of a cycle that another one should follow fails
(`survives_iff`).
-/

namespace A1Bsw

/-- The calls of a cycle on the bus. The drain numbers its calls of `recv`. -/
inductive BusCall where
  | recv (k : ℕ)
  | send156
  | send157
  deriving DecidableEq

/-- The exceptions that can leave a cycle. -/
inductive CycleError where
  | canError
  | encodeError (e : PyError)

/-- What a cycle leaves : the frames it has sent, and its variables or the exception. -/
structure BusCycle where
  frame156 : Option Bytes := none
  frame157 : Option Bytes := none
  outcome : Except CycleError LoopState

/-- The last `attempts` calls of the drain, from call `k` on. -/
def LoopState.drainBus (fails : BusCall → Bool) (now : ℚ) :
    (attempts k : ℕ) → LoopState → List Message → Except CycleError LoopState
  | 0, _, s, _ => .ok s
  | attempts + 1, k, s, rx =>
    if fails (.recv k) then .error .canError
    else match rx with
      | [] => .ok s
      | msg :: rx => drainBus fails now attempts (k + 1) (s.recv now msg) rx

/-- One cycle of `run` on a bus whose calls may fail. -/
def cycleOnBus (a : Args) (fails : BusCall → Bool) (s : LoopState) (i : CycleInput) : BusCycle :=
  match ((s.readCommand i.now i.cmdRead).readHeartbeat i.now i.hbAge).drainBus fails i.now
      vsDrainMaxPerCycle 0 i.rx with
  | .error e => { outcome := .error e }
  | .ok s =>
    match (s.decide a i.now).send a.period with
    | .error e => { outcome := .error (.encodeError e) }
    | .ok (s', sent) =>
      if fails .send156 then { outcome := .error .canError }
      else if fails .send157 then
        { frame156 := some sent.frame156, outcome := .error .canError }
      else { frame156 := some sent.frame156, frame157 := some sent.frame157, outcome := .ok s' }

/-- A call that the cycle makes fails. The drain stops at the first empty `recv`. -/
def Faulty (fails : BusCall → Bool) (i : CycleInput) : Prop :=
  (∃ k < vsDrainMaxPerCycle, k ≤ i.rx.length ∧ fails (.recv k)) ∨ fails .send156 ∨ fails .send157

/-! ## One cycle -/

section Cycle

variable {fails : BusCall → Bool}

/-- Without a failing call the drain is that of the loop. -/
theorem drainBus_eq_ok (now : ℚ) {attempts k : ℕ} {s : LoopState} {rx : List Message}
    (h : ∀ j < attempts, j ≤ rx.length → fails (.recv (k + j)) = false) :
    s.drainBus fails now attempts k rx =
      .ok ((rx.take attempts).foldl (fun s msg => s.recv now msg) s) := by
  induction attempts generalizing k s rx with
  | zero => rfl
  | succ attempts ih =>
    have hfirst : fails (.recv k) = false := h 0 (Nat.succ_pos _) (Nat.zero_le _)
    cases rx with
    | nil =>
      rw [LoopState.drainBus, hfirst]
      rfl
    | cons msg rx =>
      rw [LoopState.drainBus, hfirst]
      refine ih fun j hj hlen => ?_
      rw [Nat.add_right_comm]
      exact h (j + 1) (Nat.succ_lt_succ hj) (Nat.succ_le_succ hlen)

/-- A failing call of the drain ends it. -/
theorem drainBus_eq_error (now : ℚ) {attempts k j : ℕ} {s : LoopState} {rx : List Message}
    (hj : j < attempts) (hlen : j ≤ rx.length) (h : fails (.recv (k + j))) :
    s.drainBus fails now attempts k rx = .error .canError := by
  induction attempts generalizing k j s rx with
  | zero => exact absurd hj (Nat.not_lt_zero _)
  | succ attempts ih =>
    by_cases hfirst : fails (.recv k)
    · cases rx <;> rw [LoopState.drainBus, if_pos hfirst]
    rcases j with _ | j
    · exact absurd h hfirst
    cases rx with
    | nil => exact absurd hlen (Nat.not_succ_le_zero _)
    | cons msg rx =>
      rw [LoopState.drainBus, if_neg hfirst]
      refine ih (Nat.lt_of_succ_lt_succ hj) (Nat.le_of_succ_le_succ hlen) ?_
      rwa [Nat.add_right_comm, Nat.add_assoc]

variable (a : Args) (s : LoopState) (i : CycleInput)

/-- A cycle in which the drain does not fail sends what the loop sends. -/
theorem cycleOnBus_of_drained (h : ∀ k < vsDrainMaxPerCycle, k ≤ i.rx.length →
    fails (.recv k) = false) :
    cycleOnBus a fails s i =
      if fails .send156 then { outcome := .error .canError }
      else if fails .send157 then
        { frame156 := some (((s.sense i).decide a i.now).sending a.period).frame156
          outcome := .error .canError }
      else
        { frame156 := some (((s.sense i).decide a i.now).sending a.period).frame156
          frame157 := some (((s.sense i).decide a i.now).sending a.period).frame157
          outcome := .ok (((s.sense i).decide a i.now).afterSend a.period) } := by
  have hdrain := drainBus_eq_ok (k := 0) (s := (s.readCommand i.now i.cmdRead).readHeartbeat i.now
    i.hbAge) i.now fun j hj hlen => (congrArg (fails ∘ .recv) (Nat.zero_add j)).trans (h j hj hlen)
  have hsend := ((s.sense i).decide a i.now).send_eq a.period
  unfold LoopState.sense LoopState.drain at hsend ⊢
  simp only [cycleOnBus, hdrain, hsend]

/-- Without a failing call the cycle is that of the loop. -/
theorem cycleOnBus_of_not_faulty (h : ¬Faulty fails i) :
    cycleOnBus a fails s i =
      { frame156 := some (((s.sense i).decide a i.now).sending a.period).frame156
        frame157 := some (((s.sense i).decide a i.now).sending a.period).frame157
        outcome := .ok (((s.sense i).decide a i.now).afterSend a.period) } := by
  obtain ⟨hrecv, h156, h157⟩ : (∀ k < vsDrainMaxPerCycle, k ≤ i.rx.length →
      fails (.recv k) = false) ∧ fails .send156 = false ∧ fails .send157 = false := by
    simpa [Faulty] using h
  simp only [cycleOnBus_of_drained a s i hrecv, h156, h157, Bool.false_eq_true, if_false]

/-- A failing call raises. The first frame is on the bus only if the second `send` is the
call. -/
theorem cycleOnBus_of_faulty (h : Faulty fails i) :
    (cycleOnBus a fails s i).outcome = .error .canError ∧
      ((cycleOnBus a fails s i).frame156 = none ∨ (cycleOnBus a fails s i).frame156 =
        some (((s.sense i).decide a i.now).sending a.period).frame156) := by
  by_cases hdrain : ∃ k < vsDrainMaxPerCycle, k ≤ i.rx.length ∧ fails (.recv k)
  · obtain ⟨k, hk, hlen, hfail⟩ := hdrain
    have herror := drainBus_eq_error (k := 0)
      (s := (s.readCommand i.now i.cmdRead).readHeartbeat i.now i.hbAge) i.now hk hlen
      (by rwa [Nat.zero_add])
    simp only [cycleOnBus, herror, true_and, true_or]
  · have hsend := h.resolve_left hdrain
    have hrecv : ∀ k < vsDrainMaxPerCycle, k ≤ i.rx.length → fails (.recv k) = false := by
      simpa using hdrain
    rw [cycleOnBus_of_drained a s i hrecv]
    split_ifs with h156 h157
    · exact ⟨rfl, .inl rfl⟩
    · exact ⟨rfl, .inr rfl⟩
    · exact absurd hsend (not_or.2 ⟨h156, h157⟩)

end Cycle

/-! ## Runs -/

/-- A run on a bus whose calls may fail. The stop is requested before cycle `stop`. -/
structure BusRun (a : Args) where
  input : ℕ → CycleInput
  fails : ℕ → BusCall → Bool
  stop : ℕ∞
  now_mono : Monotone fun n => (input n).now

namespace BusRun

variable {a : Args} (ρ : BusRun a)

/-- The variables before cycle `n`, unless an exception has ended the loop. -/
def loop : ℕ → Option LoopState
  | 0 => some (.init a)
  | n + 1 => (loop n).bind fun s => (cycleOnBus a (ρ.fails n) s (ρ.input n)).outcome.toOption

/-- The counter of the frame 0x156 that cycle `n` sends, if it sends one. -/
def alivCnt (n : ℕ) : Option ℕ :=
  (ρ.loop n).bind fun s =>
    (cycleOnBus a (ρ.fails n) s (ρ.input n)).frame156.map (unpackRaw · 56 8)

/-- A call that cycle `n` makes fails. -/
def FaultyAt (n : ℕ) : Prop :=
  Faulty (ρ.fails n) (ρ.input n)

end BusRun

/-- `s'` has the state of the machine, the times and the last command of `s`. -/
structure LoopState.Keeps (s s' : LoopState) : Prop where
  state : s'.state = s.state
  lastValidCmd : s'.lastValidCmd = s.lastValidCmd
  lastCmdMono : s'.lastCmdMono = s.lastCmdMono
  lastHbMono : s'.lastHbMono = s.lastHbMono
  holdingEnteredAt : s'.holdingEnteredAt = s.holdingEnteredAt
  degradedEnteredAt : s'.degradedEnteredAt = s.degradedEnteredAt

namespace BusRun

variable {a : Args} (ρ : BusRun a)

/-- Every cycle before the stop is executed. A cycle with a failing call is followed by one that
has the variables from before it, or those it had come to. Two frames sent in a row differ in
their counter. -/
structure Survives : Prop where
  executes : ∀ n : ℕ, (n : ℕ∞) < ρ.stop → (ρ.loop n).isSome
  keeps : ∀ n : ℕ, ((n + 1 : ℕ) : ℕ∞) < ρ.stop → ρ.FaultyAt n →
    ∃ s s', ρ.loop n = some s ∧ ρ.loop (n + 1) = some s' ∧
      (s.Keeps s' ∨ ((s.sense (ρ.input n)).decide a (ρ.input n).now).Keeps s')
  alivCnt : ∀ m n : ℕ, m < n → (n : ℕ∞) < ρ.stop → (∀ k, m < k → k < n → ρ.alivCnt k = none) →
    ∀ x ∈ ρ.alivCnt m, ∀ y ∈ ρ.alivCnt n, x ≠ y

/-- The run of the loop on the same inputs without failures. -/
def healthy : GuardRun a :=
  .ofInputs a ρ.input ρ.now_mono

variable {ρ}

theorem loop_succ_of_faulty {n : ℕ} (h : ρ.FaultyAt n) : ρ.loop (n + 1) = none := by
  rcases hloop : ρ.loop n with _ | s
  · rw [loop, hloop, Option.bind_none]
  · rw [loop, hloop, Option.bind_some, (cycleOnBus_of_faulty a s (ρ.input n) h).1]
    rfl

/-- Up to the first failing call the run is the one without failures. -/
theorem loop_of_healthy {n : ℕ} (h : ∀ m < n, ¬ρ.FaultyAt m) :
    ρ.loop n = some (ρ.healthy.loop n) := by
  induction n with
  | zero => rfl
  | succ n ih =>
    rw [loop, ih fun m hm => h m (hm.trans n.lt_succ_self), Option.bind_some,
      cycleOnBus_of_not_faulty a _ _ (h n n.lt_succ_self)]
    rfl

/-- Up to the first failing call a cycle that sends a frame counts it. -/
theorem mem_alivCnt {n x : ℕ} (h : ∀ m < n, ¬ρ.FaultyAt m) (hx : x ∈ ρ.alivCnt n) :
    x = n % 256 := by
  have hcount : unpackRaw (ρ.healthy.sent n).frame156 56 8 = n % 256 := by
    exact_mod_cast ρ.healthy.alivCnt_frame156 n
  rw [alivCnt, loop_of_healthy h, Option.bind_some, Option.mem_def] at hx
  by_cases hfault : ρ.FaultyAt n
  · obtain ⟨-, hframe | hframe⟩ := cycleOnBus_of_faulty a (ρ.healthy.loop n) (ρ.input n) hfault
    · rw [hframe] at hx
      cases hx
    · rw [hframe, Option.map_some, Option.some.injEq] at hx
      exact hx.symm.trans hcount
  · rw [cycleOnBus_of_not_faulty a _ _ hfault, Option.map_some, Option.some.injEq] at hx
    exact hx.symm.trans hcount

/-- A cycle without a failing call sends its frame. -/
theorem alivCnt_ne_none {n : ℕ} (h : ∀ m ≤ n, ¬ρ.FaultyAt m) : ρ.alivCnt n ≠ none := by
  rw [alivCnt, loop_of_healthy fun m hm => h m hm.le, Option.bind_some,
    cycleOnBus_of_not_faulty a _ _ (h n le_rfl), Option.map_some]
  exact Option.some_ne_none _

end BusRun

/-- A run survives exactly when no call fails in a cycle that another one should follow. -/
theorem survives_iff {a : Args} (ρ : BusRun a) :
    ρ.Survives ↔ ∀ n : ℕ, ((n + 1 : ℕ) : ℕ∞) < ρ.stop → ¬ρ.FaultyAt n := by
  constructor
  · intro h n hstop hfault
    have hnext := h.executes (n + 1) hstop
    rw [BusRun.loop_succ_of_faulty hfault] at hnext
    cases hnext
  · intro h
    have hhealthy : ∀ n : ℕ, (n : ℕ∞) < ρ.stop → ∀ m < n, ¬ρ.FaultyAt m := fun n hn m hm =>
      h m ((Nat.cast_le.2 (Nat.succ_le_of_lt hm)).trans_lt hn)
    refine ⟨fun n hn => ?_, fun n hn hfault => absurd hfault (h n hn), ?_⟩
    · rw [BusRun.loop_of_healthy (hhealthy n hn)]
      rfl
    · intro m n hmn hn hquiet x hx y hy
      have hbefore := hhealthy n hn
      -- A cycle between the two would have sent a frame.
      obtain rfl : n = m + 1 := by
        by_contra hne
        have hlt : m + 1 < n := by omega
        exact BusRun.alivCnt_ne_none (fun k hk => hbefore k (hk.trans_lt hlt))
          (hquiet (m + 1) m.lt_succ_self hlt)
      rw [BusRun.mem_alivCnt (fun k hk => hbefore k (hk.trans hmn)) hx,
        BusRun.mem_alivCnt hbefore hy]
      omega

/-- The first `send` of cycle 5 finds the transmit queue full. -/
def queueFull : BusRun {} where
  input n := { now := n / 100 }
  fails n call := n = 5 ∧ call = .send156
  stop := ⊤
  now_mono := GuardRun.monotone_tick

/-- Cycle 5 is executed, and no cycle follows it. -/
theorem queueFull_not_survives :
    (queueFull.loop 5).isSome ∧ queueFull.loop 6 = none ∧ ¬queueFull.Survives := by
  have hnone : queueFull.loop 6 = none := by
    refine BusRun.loop_succ_of_faulty (n := 5) (.inr (.inl ?_))
    decide
  refine ⟨by decide +kernel, hnone, fun h => ?_⟩
  have hnext := h.executes 6 (WithTop.coe_lt_top 6)
  rw [hnone] at hnext
  cases hnext

end A1Bsw
