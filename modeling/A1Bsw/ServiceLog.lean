import A1Bsw.Program
import Mathlib.Data.List.Destutter

/-!
# What the program shows to the outside

The bus sees the frames of a run, and the service manager its notifications.
Both are parts of the trace. The frames are those of the loop, in order and in
pairs, and only an exception of the second `send` leaves one alone
(`bus_log`). The statuses are the states of the machine without repetitions,
and a `WATCHDOG` stands for a pair of frames that is on the bus
(`service_log`).
-/

namespace A1Bsw

/-! ## Lists of changes -/

section Changes

variable {α : Type*} [DecidableEq α]

theorem destutter'_concat (a b : α) (l : List α) : (l ++ [b]).destutter' (· ≠ ·) a =
    l.destutter' (· ≠ ·) a ++ if b ≠ (a :: l).getLast (List.cons_ne_nil a l) then [b] else [] := by
  induction l generalizing a with
  | nil =>
    rw [List.nil_append, List.destutter'_singleton, List.destutter'_nil, List.getLast_singleton]
    by_cases h : b = a
    · rw [if_neg (not_not.2 h.symm), if_neg (not_not.2 h), List.append_nil]
    · rw [if_pos (Ne.symm h), if_pos h, List.singleton_append]
  | cons c l ih =>
    rw [List.cons_append, List.destutter'_cons, List.destutter'_cons, ih, ih,
      List.getLast_cons_cons]
    by_cases h : a = c
    · subst h
      rw [if_neg (not_not.2 rfl), if_neg (not_not.2 rfl)]
    · rw [if_pos h, if_pos h, List.cons_append]

/-- The value after step `k`, if it differs from the one before. -/
def change (s : ℕ → α) (k : ℕ) : List α :=
  if s (k + 1) ≠ s k then [s (k + 1)] else []

/-- The first value and the changes are the sequence without repetitions. -/
theorem cons_changes (s : ℕ → α) (n : ℕ) :
    s 0 :: (List.range n).flatMap (change s) =
      ((List.range (n + 1)).map s).destutter (· ≠ ·) := by
  have hcons (m : ℕ) : (List.range (m + 1)).map s = s 0 :: (List.range m).map (s ∘ Nat.succ) := by
    rw [List.range_succ_eq_map, List.map_cons, List.map_map]
  induction n with
  | zero => rfl
  | succ n ih =>
    have hlast : (s 0 :: (List.range n).map (s ∘ Nat.succ)).getLast (List.cons_ne_nil _ _) =
        s n := by
      simp only [← hcons n, List.range_succ, List.map_append, List.map_singleton,
        List.getLast_append_singleton]
    rw [hcons, List.destutter_cons'] at ih ⊢
    rw [List.range_succ, List.flatMap_append, List.flatMap_singleton, ← List.cons_append, ih,
      List.map_append, List.map_singleton, destutter'_concat, hlast]
    rfl

end Changes

/-! ## Frames and notifications -/

/-- A message of `sd_notify`. -/
inductive Notification where
  | ready
  | status (s : State)
  | watchdog
  deriving DecidableEq

def Notification.newState : Notification → Option State
  | .status s => some s
  | _ => none

namespace Event

def notification : Event → Option Notification
  | .ready => some .ready
  | .status s => some (.status s)
  | .watchdog => some .watchdog
  | _ => none

def onBus : Event → Option (ℕ × Bytes)
  | .frame id data => some (id, data)
  | _ => none

theorem notification_log {e : Event} (h : e.Log) : e.notification = none := by
  cases e <;> first | rfl | exact h.elim

theorem onBus_log {e : Event} (h : e.Log) : e.onBus = none := by
  cases e <;> first | rfl | exact h.elim

end Event

namespace ProgramRun

variable {o : Options} {P : ProgramRun o} {n : ℕ}

/-- What a cycle shows to the outside. -/
def shown (P : ProgramRun o) (n : ℕ) : List Event :=
  if DrainFails (P.reads n) then []
  else (change P.guard.state n).map .status ++ P.sends n

section Visible

variable {β : Type*} {f : Event → Option β} (hf : ∀ e : Event, e.Log → f e = none)

include hf

theorem announced_filterMap (P : ProgramRun o) (n : ℕ) : (P.announced n).filterMap f =
    ((change P.guard.state n).map Event.status).filterMap f := by
  unfold announced Prog.announce change
  split_ifs
  · rw [List.filterMap_append, Options.filterMap_log (hf (.transition _ _ _) trivial)]
    rfl
  · rfl

theorem Runs.events_filterMap (h : P.Runs n) :
    (P.events n).filterMap f = (P.shown n).filterMap f := by
  rw [h.events_eq, List.filterMap_append,
    Prog.filterMap_snapshots fun s => hf (.snapshot s) trivial, List.nil_append, shown]
  split_ifs
  · rfl
  · rw [List.filterMap_append, List.filterMap_append, List.filterMap_append,
      Prog.filterMap_violated fun vs => hf (.violations vs) trivial, List.append_nil,
      announced_filterMap hf]

/-- Without the log lines a run is what its cycles show. -/
theorem trace_filterMap (P : ProgramRun o) (n : ℕ) : (P.prog n).trace.filterMap f =
    [Event.ready].filterMap f ++
      (List.range (P.prog n).begun).flatMap fun k => (P.shown k).filterMap f :=
  P.filterMap_trace fun _ hk => Runs.events_filterMap hf (P.runs_of_lt_begun hk)

end Visible

theorem shown_of_not_faulty (h : ¬P.FaultyAt n) : P.shown n =
    (change P.guard.state n).map Event.status ++ [.frame 0x156 (P.guard.sent n).frame156,
      .frame 0x157 (P.guard.sent n).frame157, .watchdog] := by
  obtain ⟨hdrain, h156, h157⟩ := not_faulty_iff.1 h
  rw [shown, if_neg hdrain, sends, if_neg h156, if_neg h157]

variable (P)

/-- The pair of frames of a cycle. -/
def frames (n : ℕ) : List (ℕ × Bytes) :=
  [(0x156, (P.guard.sent n).frame156), (0x157, (P.guard.sent n).frame157)]

/-- The frame that a cycle leaves whose second `send` fails. -/
def loneFrame (n : ℕ) : List (ℕ × Bytes) :=
  if DrainFails (P.reads n) ∨ (P.reads n).fails .send156 then []
  else [(0x156, (P.guard.sent n).frame156)]

variable {P}

theorem shown_onBus (h : ¬P.FaultyAt n) :
    (P.shown n).filterMap Event.onBus = P.frames n := by
  rw [shown_of_not_faulty h, List.filterMap_append, List.filterMap_map]
  have hstatus : (change P.guard.state n).filterMap (Event.onBus ∘ Event.status) = [] :=
    List.filterMap_eq_nil_iff.2 fun _ _ => rfl
  rw [hstatus]
  rfl

theorem shown_onBus_of_faulty (h : P.FaultyAt n) :
    (P.shown n).filterMap Event.onBus = P.loneFrame n := by
  have hstatus : ((change P.guard.state n).map Event.status).filterMap Event.onBus = [] := by
    rw [List.filterMap_map]
    exact List.filterMap_eq_nil_iff.2 fun _ _ => rfl
  rw [shown, loneFrame]
  by_cases hdrain : DrainFails (P.reads n)
  · rw [if_pos hdrain, if_pos (.inl hdrain)]
    rfl
  by_cases h156 : (P.reads n).fails .send156
  · rw [if_neg hdrain, if_pos (.inr h156), sends, if_pos h156, List.append_nil, hstatus]
  · have h157 : (P.reads n).fails .send157 := (h.resolve_left hdrain).resolve_left h156
    rw [if_neg hdrain, if_neg (not_or.2 ⟨hdrain, h156⟩), sends, if_neg h156, if_pos h157,
      List.filterMap_append, hstatus]
    rfl

theorem shown_notification (h : ¬P.FaultyAt n) : (P.shown n).filterMap Event.notification =
    (change P.guard.state n).map .status ++ [.watchdog] := by
  rw [shown_of_not_faulty h, List.filterMap_append, List.filterMap_map]
  congr 1
  exact congrFun List.filterMap_eq_map _

theorem shown_notification_of_faulty (h : P.FaultyAt n) :
    (P.shown n).filterMap Event.notification =
      if DrainFails (P.reads n) then [] else (change P.guard.state n).map .status := by
  have hstatus : ((change P.guard.state n).map Event.status).filterMap Event.notification =
      (change P.guard.state n).map .status := by
    rw [List.filterMap_map]
    exact congrFun List.filterMap_eq_map _
  rw [shown]
  split_ifs with hdrain
  · rfl
  by_cases h156 : (P.reads n).fails .send156
  · rw [sends, if_pos h156, List.append_nil, hstatus]
  · have h157 : (P.reads n).fails .send157 := (h.resolve_left hdrain).resolve_left h156
    rw [sends, if_neg h156, if_pos h157, List.filterMap_append, hstatus]
    exact List.append_nil _

/-- What is visible of the complete cycles, and of the one that an exception has ended. -/
theorem begun_filterMap (P : ProgramRun o) (n : ℕ) {β : Type*} {f : Event → Option β}
    (hf : ∀ e : Event, e.Log → f e = none) {whole part : ℕ → List β}
    (hwhole : ∀ k, ¬P.FaultyAt k → (P.shown k).filterMap f = whole k)
    (hpart : ∀ k, P.FaultyAt k → (P.shown k).filterMap f = part k) :
    (P.prog n).trace.filterMap f = [Event.ready].filterMap f ++
      (List.range (P.prog n).cycle).flatMap whole ++
        if (P.prog n).raised then part (P.prog n).cycle else [] := by
  have hcycles : ∀ k ∈ List.range (P.prog n).cycle, (P.shown k).filterMap f = whole k :=
    fun k hk => hwhole k (P.not_faultyAt (List.mem_range.1 hk)).2
  rw [trace_filterMap hf, List.append_assoc, Prog.begun]
  congr 1
  rcases hraised : (P.prog n).raised with _ | _
  · rw [Bool.toNat_false, Nat.add_zero, List.flatMap_congr hcycles, if_neg Bool.false_ne_true,
      List.append_nil]
  · rw [Bool.toNat_true, List.range_succ, List.flatMap_append, List.flatMap_singleton,
      List.flatMap_congr hcycles, hpart _ ((P.runs_cycle n).2 hraised), if_pos rfl]

end ProgramRun

/-- The bus sees the frames of the loop, in pairs. A second `send` that fails leaves one frame
alone. -/
theorem bus_log {o : Options} (P : ProgramRun o) (n : ℕ) :
    (P.prog n).trace.filterMap Event.onBus = (List.range (P.prog n).cycle).flatMap P.frames ++
      if (P.prog n).raised then P.loneFrame (P.prog n).cycle else [] :=
  P.begun_filterMap n (fun _ => Event.onBus_log) (fun _ => ProgramRun.shown_onBus)
    fun _ => ProgramRun.shown_onBus_of_faulty

/-! ## The service manager -/

namespace ProgramRun

variable {o : Options} (P : ProgramRun o)

/-- The transitions that the program has announced. -/
def transitions (n : ℕ) : ℕ :=
  (P.prog n).cycle +
    if (P.prog n).raised ∧ ¬DrainFails (P.reads (P.prog n).cycle) then 1 else 0

/-- The notifications are one status for each change, and one `WATCHDOG` for each complete
cycle. -/
theorem notifications (n : ℕ) : (P.prog n).trace.filterMap Event.notification =
    [.ready] ++ (List.range (P.prog n).cycle).flatMap (fun k =>
      (change P.guard.state k).map .status ++ [.watchdog]) ++
    if (P.prog n).raised then
      if DrainFails (P.reads (P.prog n).cycle) then []
      else (change P.guard.state (P.prog n).cycle).map .status
    else [] :=
  P.begun_filterMap n (fun _ => Event.notification_log) (fun _ => shown_notification)
    fun _ => shown_notification_of_faulty

end ProgramRun

/-- The statuses are the states of the machine without repetitions, also when an exception ends
the loop. -/
theorem status_log {o : Options} (P : ProgramRun o) (n : ℕ) :
    .INIT :: ((P.prog n).trace.filterMap Event.notification).filterMap Notification.newState =
      ((List.range (P.transitions n + 1)).map P.guard.state).destutter (· ≠ ·) := by
  have hstatus (k : ℕ) : ((change P.guard.state k).map Notification.status).filterMap
      Notification.newState = change P.guard.state k := by
    rw [List.filterMap_map]
    exact List.filterMap_some
  rw [← cons_changes, P.guard.state_zero, P.notifications, List.filterMap_append,
    List.filterMap_append, List.filterMap_flatMap]
  have hwatchdog : [Notification.watchdog].filterMap Notification.newState = [] := rfl
  have hready : [Notification.ready].filterMap Notification.newState = [] := rfl
  simp only [List.filterMap_append, hstatus, hwatchdog, hready, List.append_nil, List.nil_append,
    ProgramRun.transitions]
  congr 1
  by_cases hraised : (P.prog n).raised
  · by_cases hdrain : DrainFails (P.reads (P.prog n).cycle)
    · rw [if_pos hraised, if_pos hdrain, if_neg fun h => h.2 hdrain, Nat.add_zero]
      exact List.append_nil _
    · rw [if_pos hraised, if_neg hdrain, if_pos ⟨hraised, hdrain⟩, hstatus, List.range_succ,
        List.flatMap_append, List.flatMap_singleton]
  · rw [if_neg hraised, if_neg fun h => hraised h.1, Nat.add_zero]
    exact List.append_nil _

/-! ## The order of frames and notifications -/

namespace ProgramRun

variable {o : Options} {P : ProgramRun o} {n : ℕ}

/-- The `WATCHDOG`s among some events. -/
def watchdogs (es : List Event) : ℕ :=
  (es.filterMap Event.notification).count .watchdog

theorem watchdogs_append (es es' : List Event) :
    watchdogs (es ++ es') = watchdogs es + watchdogs es' := by
  rw [watchdogs, List.filterMap_append, List.count_append, watchdogs, watchdogs]

/-- A `WATCHDOG` ends its cycle. -/
theorem events_watchdog (h : P.Runs n) : ∃ es, watchdogs es = 0 ∧
    (P.events n = es ∨ ¬P.FaultyAt n ∧ P.events n = es ++ [.watchdog]) := by
  have hsnap : watchdogs ((P.prog n).snapshots o (P.pace.now n)) = 0 := by
    rw [watchdogs, Prog.filterMap_snapshots fun _ => rfl, List.count_nil]
  have hviol : watchdogs ((P.prog n).violated o (P.pace.now n) (P.reads n)) = 0 := by
    rw [watchdogs, Prog.filterMap_violated fun _ => rfl, List.count_nil]
  have hann : watchdogs (P.announced n) = 0 := by
    rw [watchdogs, announced_filterMap fun _ => Event.notification_log, change]
    split_ifs <;> rfl
  rw [h.events_eq, sends]
  by_cases hdrain : DrainFails (P.reads n)
  · exact ⟨_, hsnap, .inl (by rw [if_pos hdrain, List.append_nil])⟩
  rw [if_neg hdrain]
  have hfront (es : List Event) (hes : watchdogs es = 0) : watchdogs
      ((P.prog n).snapshots o (P.pace.now n) ++ (P.announced n ++
        (P.prog n).violated o (P.pace.now n) (P.reads n) ++ es)) = 0 := by
    simp only [watchdogs_append, hsnap, hann, hviol, hes]
  split_ifs with h156 h157
  · exact ⟨_, hfront [] rfl, .inl rfl⟩
  · exact ⟨_, hfront [.frame 0x156 (P.guard.sent n).frame156] rfl, .inl rfl⟩
  · refine ⟨_, hfront [.frame 0x156 (P.guard.sent n).frame156,
      .frame 0x157 (P.guard.sent n).frame157] rfl, .inr ⟨?_, by simp⟩⟩
    exact not_or.2 ⟨hdrain, not_or.2 ⟨h156, h157⟩⟩

theorem watchdogs_le {es es' : List Event} (h : es <+: es') : watchdogs es ≤ watchdogs es' :=
  (h.sublist.filterMap _).count_le _

variable (P) in
/-- The first `m` cycles. -/
def firstCycles (m : ℕ) : List Event :=
  .ready :: (List.range m).flatMap P.events

theorem firstCycles_succ (m : ℕ) : P.firstCycles (m + 1) = P.firstCycles m ++ P.events m := by
  rw [firstCycles, List.range_succ, List.flatMap_append, List.flatMap_singleton, firstCycles,
    List.cons_append]

/-- Complete cycles have each sent their frames and one `WATCHDOG`. -/
theorem firstCycles_visible {m : ℕ} (h : ∀ k < m, P.Runs k ∧ ¬P.FaultyAt k) :
    watchdogs (P.firstCycles m) = m ∧
      (P.firstCycles m).filterMap Event.onBus = (List.range m).flatMap P.frames := by
  induction m with
  | zero => exact ⟨rfl, rfl⟩
  | succ m ih =>
    obtain ⟨hcount, hframes⟩ := ih fun k hk => h k (hk.trans m.lt_succ_self)
    obtain ⟨hrun, hfault⟩ := h m m.lt_succ_self
    have hone : watchdogs (P.events m) = 1 := by
      rw [watchdogs, hrun.events_filterMap fun _ => Event.notification_log,
        shown_notification hfault, change]
      split_ifs <;> rfl
    rw [firstCycles_succ, watchdogs_append, hcount, hone, List.filterMap_append, hframes,
      hrun.events_filterMap fun _ => Event.onBus_log, shown_onBus hfault, List.range_succ,
      List.flatMap_append, List.flatMap_singleton]
    exact ⟨rfl, rfl⟩

theorem frames_of_watchdogs {m : ℕ} (hrun : ∀ k < m, P.Runs k)
    (h : ∀ k, k + 1 < m → ¬P.FaultyAt k) {es : List Event} (hes : es <+: P.firstCycles m) :
    (List.range (watchdogs es)).flatMap P.frames <+: es.filterMap Event.onBus := by
  induction m generalizing es with
  | zero =>
    have hnone : watchdogs es = 0 := Nat.le_zero.1 (watchdogs_le hes)
    rw [hnone]
    exact List.nil_prefix
  | succ m ih =>
    rw [firstCycles_succ] at hes
    rcases List.prefix_or_prefix_of_prefix hes (List.prefix_append _ _) with hle | ⟨t, rfl⟩
    · exact ih (fun k hk => hrun k (by omega)) (fun k hk => h k (by omega)) hle
    obtain ⟨hcount, hframes⟩ := firstCycles_visible (P := P) (m := m)
      fun k hk => ⟨hrun k (by omega), h k (by omega)⟩
    have ht : t <+: P.events m := (List.prefix_append_right_inj _).1 hes
    obtain ⟨front, hfront, heq | ⟨hfault, heq⟩⟩ := events_watchdog (hrun m m.lt_succ_self)
    · have hnone : watchdogs t = 0 := Nat.le_zero.1 (hfront ▸ watchdogs_le (heq ▸ ht))
      rw [watchdogs_append, hcount, hnone, List.filterMap_append, hframes]
      exact List.prefix_append _ _
    · rcases List.prefix_concat_iff.1 (heq ▸ ht) with hall | hpart
      · obtain ⟨hcount', hframes'⟩ := firstCycles_visible (P := P) (m := m + 1) fun k hk => by
          rcases Nat.lt_succ_iff_lt_or_eq.1 hk with hlt | rfl
          · exact ⟨hrun k hk, h k (by omega)⟩
          · exact ⟨hrun k hk, hfault⟩
        rw [hall, ← heq, ← firstCycles_succ, hcount', hframes']
      · have hnone : watchdogs t = 0 := Nat.le_zero.1 (hfront ▸ watchdogs_le hpart)
        rw [watchdogs_append, hcount, hnone, List.filterMap_append, hframes]
        exact List.prefix_append _ _

end ProgramRun

/-- At any point of a run, the frames of as many cycles are on the bus as there have been
`WATCHDOG`s. -/
theorem watchdog_log {o : Options} (P : ProgramRun o) (n : ℕ) {es : List Event}
    (hes : es <+: (P.prog n).trace) :
    (List.range (ProgramRun.watchdogs es)).flatMap P.frames <+: es.filterMap Event.onBus := by
  have hle : (P.prog n).begun ≤ (P.prog n).cycle + 1 :=
    Nat.add_le_add_left (Bool.toNat_le _) _
  rw [P.trace_eq] at hes
  refine ProgramRun.frames_of_watchdogs (fun k hk => ?_) (fun k hk => ?_) hes
  · exact ProgramRun.Runs.of_le (by omega) (P.runs_cycle n).1
  · exact (P.not_faultyAt (n := n) (by omega)).2

theorem default_period_nonneg : 0 ≤ ({} : Options).period := by
  decide +kernel

/-- A guard that hears nothing. -/
def silentProgram : ProgramRun {} :=
  .onTime default_period_nonneg fun _ => {}

/-- The first seven things that it does are those of two cycles. -/
theorem watchdog_log_silent :
    ProgramRun.watchdogs ((silentProgram.prog 4).trace.take 7) = 2 ∧
      (List.range (ProgramRun.watchdogs ((silentProgram.prog 4).trace.take 7))).flatMap
        silentProgram.frames <+: ((silentProgram.prog 4).trace.take 7).filterMap Event.onBus :=
  ⟨by decide +kernel, watchdog_log _ _ (List.take_prefix _ _)⟩

end A1Bsw
