import Mathlib.Algebra.Order.Archimedean.Basic
import Mathlib.Algebra.Order.Field.Basic
import Mathlib.Tactic.Linarith
import Mathlib.Tactic.Ring

/-!
# Periodic loops

A periodic loop has a due time for each cycle, one period after the last. It
reads the clock when it gets to a cycle, and sleeps until the due time if that
is still to come. A cycle that is late starts at once, and its due time does
not move.

So no cycle starts early (`Pace.due_le_now`) and no delay adds up : the
lateness of a cycle is what the last one left over, or what the sleep overran
(`Pace.late_succ`). Cycles that are shorter than the period work a delay off at
a fixed rate (`Pace.Within.late_le`), and no two cycles are further apart than
one of them takes, or a period and the overrun (`Pace.Within.now_succ_le`).
-/

namespace A1Bsw

variable {T : Type*} [Field T] [LinearOrder T] [IsStrictOrderedRing T]

/-- The time a cycle starts : after a sleep if it came before its due time. -/
def wake (due arrive woken : T) : T :=
  if arrive < due then woken else arrive

/-- The clock readings of a periodic loop, which sleeps at least as long as it asks. -/
structure Pace (T : Type*) [Field T] [LinearOrder T] [IsStrictOrderedRing T] where
  start : T
  period : T
  /-- The first reading of a cycle. -/
  arrive : ℕ → T
  /-- The reading after the sleep. -/
  woken : ℕ → T
  start_le : start ≤ arrive 0
  due_le_woken : ∀ k : ℕ, arrive k < start + k * period → start + k * period ≤ woken k
  wake_le : ∀ k : ℕ, wake (start + k * period) (arrive k) (woken k) ≤ arrive (k + 1)

namespace Pace

variable (p : Pace T)

/-- The due time of a cycle. -/
def due (k : ℕ) : T :=
  p.start + k * p.period

/-- The time of a cycle. -/
def now (k : ℕ) : T :=
  wake (p.due k) (p.arrive k) (p.woken k)

/-- How late a cycle starts. -/
def late (k : ℕ) : T :=
  p.now k - p.due k

/-- How long a cycle takes. -/
def busy (k : ℕ) : T :=
  p.arrive (k + 1) - p.now k

/-- How far a sleep overruns. -/
def overrun (k : ℕ) : T :=
  p.woken k - p.due k

theorem due_succ (k : ℕ) : p.due (k + 1) = p.due k + p.period := by
  unfold due
  push_cast
  ring

/-- A cycle sleeps exactly if it comes before its due time. -/
theorem now_eq (k : ℕ) :
    p.arrive k < p.due k ∧ p.now k = p.woken k ∨ p.due k ≤ p.arrive k ∧ p.now k = p.arrive k := by
  rcases lt_or_ge (p.arrive k) (p.due k) with h | h
  · exact .inl ⟨h, if_pos h⟩
  · exact .inr ⟨h, if_neg h.not_gt⟩

/-- No cycle starts before its due time. -/
theorem due_le_now (k : ℕ) : p.due k ≤ p.now k := by
  rcases p.now_eq k with ⟨h, heq⟩ | ⟨h, heq⟩
  · exact heq ▸ p.due_le_woken k h
  · exact heq ▸ h

theorem late_nonneg (k : ℕ) : 0 ≤ p.late k :=
  sub_nonneg.2 (p.due_le_now k)

theorem arrive_le_now (k : ℕ) : p.arrive k ≤ p.now k := by
  rcases p.now_eq k with ⟨h, -⟩ | ⟨-, heq⟩
  · exact h.le.trans (p.due_le_now k)
  · exact heq.ge

theorem now_le_arrive (k : ℕ) : p.now k ≤ p.arrive (k + 1) :=
  p.wake_le k

theorem now_mono : Monotone p.now :=
  monotone_nat_of_le_succ fun k => (p.now_le_arrive k).trans (p.arrive_le_now (k + 1))

/-- The next cycle is late by what this one leaves of its period, or by what the sleep
overran. -/
theorem late_succ (k : ℕ) :
    p.late k + p.busy k < p.period ∧ p.late (k + 1) = p.overrun (k + 1) ∨
      p.period ≤ p.late k + p.busy k ∧ p.late (k + 1) = p.late k + p.busy k - p.period := by
  have hsum : p.late k + p.busy k - p.period = p.arrive (k + 1) - p.due (k + 1) := by
    rw [due_succ, late, busy]
    ring
  rcases p.now_eq (k + 1) with ⟨h, heq⟩ | ⟨h, heq⟩
  · exact .inl ⟨by linarith, by rw [late, heq, overrun]⟩
  · exact .inr ⟨by linarith, by rw [hsum, late, heq]⟩

/-- Cycle `k` sleeps no more than `e` too long, if it sleeps. -/
def OverrunLe (e : T) (k : ℕ) : Prop :=
  p.arrive k < p.due k → p.overrun k ≤ e

variable {p}

theorem late_succ_le {e : T} {k : ℕ} (he : p.OverrunLe e (k + 1)) :
    p.late (k + 1) ≤ max e (p.late k + p.busy k - p.period) := by
  rcases p.now_eq (k + 1) with ⟨h, heq⟩ | ⟨-, heq⟩
  · exact le_max_of_le_left (by rw [late, heq]; exact he h)
  · refine le_max_of_le_right ?_
    rw [late, heq, late, busy, due_succ]
    linarith

/-- From cycle `k` on, no cycle takes longer than `b`, and no sleep overruns by more than `e`. -/
structure Within (p : Pace T) (b e : T) (k : ℕ) : Prop where
  busy : ∀ i, k ≤ i → p.busy i ≤ b
  overrun : ∀ i, k < i → p.OverrunLe e i

theorem Within.of_le {b e : T} {k m : ℕ} (h : p.Within b e k) (hkm : k ≤ m) : p.Within b e m :=
  ⟨fun i hi => h.busy i (hkm.trans hi), fun i hi => h.overrun i (hkm.trans_lt hi)⟩

/-- Cycles shorter than the period work a delay off. -/
theorem Within.late_le {b e : T} {k : ℕ} (h : p.Within b e k) (hb : b ≤ p.period) (m : ℕ) :
    p.late (k + m) ≤ max e (p.late k - m * (p.period - b)) := by
  induction m with
  | zero => simp
  | succ m ih =>
    have hcycle := h.busy (k + m) (by omega)
    have hnext := late_succ_le (h.overrun (k + m + 1) (by omega))
    refine hnext.trans (max_le (le_max_left _ _) ?_)
    push_cast
    rcases le_max_iff.1 ih with hle | hle
    · exact le_max_of_le_left (by linarith)
    · exact le_max_of_le_right (by linarith)

/-- Two cycles are no further apart than the work of the first one, or a period and the overrun
of the sleep. -/
theorem Within.now_succ_le {b e : T} {k i : ℕ} (h : p.Within b e k) (hki : k ≤ i) :
    p.now (i + 1) ≤ p.now i + max b (p.period + e) := by
  have hlate := late_succ_le (h.overrun (i + 1) (by omega))
  have hcycle := h.busy i hki
  have hdue := p.due_succ i
  have hstart := p.due_le_now i
  rw [late, late] at hlate
  rcases le_max_iff.1 hlate with hle | hle
  · linarith [le_max_right b (p.period + e)]
  · linarith [le_max_left b (p.period + e)]

/-- The loop gets past every time. -/
theorem exists_lt_now [Archimedean T] (hperiod : 0 < p.period) (t : T) : ∃ k, t < p.now k := by
  obtain ⟨k, hk⟩ := exists_lt_nsmul hperiod (t - p.start)
  refine ⟨k, lt_of_lt_of_le ?_ (p.due_le_now k)⟩
  rw [nsmul_eq_mul] at hk
  rw [due]
  linarith

end Pace

namespace Pace

/-- A loop whose cycles each end when the next one is due. -/
def onTime (start : T) {period : T} (h : 0 ≤ period) : Pace T where
  start
  period
  arrive k := start + k * period
  woken k := start + k * period
  start_le := by rw [Nat.cast_zero, zero_mul, add_zero]
  due_le_woken _ _ := le_rfl
  wake_le k := by
    rw [wake, ite_self, Nat.cast_succ, add_one_mul]
    exact add_le_add_right (le_add_of_nonneg_right h) start

variable {start period : T} {h : 0 ≤ period}

theorem onTime_now (k : ℕ) : (onTime start h).now k = start + k * period :=
  ite_self _

theorem onTime_within (k : ℕ) : (onTime start h).Within period 0 k := by
  refine ⟨fun i _ => ?_, fun i _ hlt => absurd hlt (lt_irrefl _)⟩
  rw [busy, onTime_now]
  show start + ((i + 1 : ℕ) : T) * period - (start + i * period) ≤ period
  push_cast
  linarith

end Pace

/-- A sequence that gets past a time crosses it in one step. -/
theorem exists_crossing {α : Type*} [LinearOrder α] {f : ℕ → α} {t : α} {i : ℕ} (hi : f i ≤ t)
    (hpast : ∃ k, i ≤ k ∧ t < f k) : ∃ k, i ≤ k ∧ f k ≤ t ∧ t < f (k + 1) := by
  classical
  obtain ⟨m, hm⟩ : ∃ m, Nat.find hpast = m := ⟨_, rfl⟩
  have hbefore : ∀ k < m, ¬(i ≤ k ∧ t < f k) := fun k hk => Nat.find_min hpast (hm ▸ hk)
  obtain ⟨him, hlt⟩ : i ≤ m ∧ t < f m := hm ▸ Nat.find_spec hpast
  obtain ⟨k, rfl⟩ : ∃ k, m = k + 1 := by
    refine ⟨m - 1, (Nat.succ_pred fun hzero => ?_).symm⟩
    obtain rfl : i = m := by omega
    exact hlt.not_ge hi
  have hik : i ≤ k := by
    rcases him.lt_or_eq with h | rfl
    · exact Nat.lt_succ_iff.1 h
    · exact absurd hi hlt.not_ge
  exact ⟨k, hik, not_lt.1 fun h => hbefore k k.lt_succ_self ⟨hik, h⟩, hlt⟩

end A1Bsw
