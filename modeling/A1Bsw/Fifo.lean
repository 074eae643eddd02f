import Mathlib.Data.List.Range
import Mathlib.Order.Monotone.Basic

/-!
# A queue with a bounded service

Items are numbered in the order in which they arrive, and `arrivedBy n` of
them have arrived when round `n` is served. A round serves the items that
wait, in order and at most `cap` of them. The items served in round `n` are
those from `served n` up to `served (n + 1)` (`take_waiting`).
-/

namespace A1Bsw

namespace Fifo

variable (cap : ℕ) (arrivedBy : ℕ → ℕ)

/-- The number of items served before a round. -/
def served : ℕ → ℕ
  | 0 => 0
  | n + 1 => min (arrivedBy n) (served n + cap)

/-- The items that wait when a round is served. -/
def waiting (n : ℕ) : List ℕ :=
  List.range' (served cap arrivedBy n) (arrivedBy n - served cap arrivedBy n)

variable {cap arrivedBy}

/-- An item is served after it has arrived. -/
theorem served_le_arrivedBy (h : Monotone arrivedBy) (n : ℕ) :
    served cap arrivedBy n ≤ arrivedBy n := by
  rcases n with _ | n
  · exact Nat.zero_le _
  · exact (min_le_left _ _).trans (h n.le_succ)

theorem served_mono (h : Monotone arrivedBy) : Monotone (served cap arrivedBy) :=
  monotone_nat_of_le_succ fun n => le_min (served_le_arrivedBy h n) (Nat.le_add_right _ _)

/-- The items that a round serves. -/
theorem take_waiting (h : Monotone arrivedBy) (n : ℕ) : (waiting cap arrivedBy n).take cap =
    List.range' (served cap arrivedBy n)
      (served cap arrivedBy (n + 1) - served cap arrivedBy n) := by
  have hle : served cap arrivedBy n ≤ arrivedBy n := served_le_arrivedBy h n
  rw [waiting, served]
  rcases le_total (arrivedBy n - served cap arrivedBy n) cap with hcap | hcap
  · rw [List.take_range'_of_length_le hcap, min_eq_left (by omega)]
  · rw [List.take_range'_of_length_ge hcap, min_eq_right (by omega), Nat.add_sub_cancel_left]

theorem mem_take_waiting (h : Monotone arrivedBy) {n k : ℕ} :
    k ∈ (waiting cap arrivedBy n).take cap ↔
      served cap arrivedBy n ≤ k ∧ k < served cap arrivedBy (n + 1) := by
  have hle : served cap arrivedBy n ≤ served cap arrivedBy (n + 1) := served_mono h n.le_succ
  rw [take_waiting h, List.mem_range'_1, Nat.add_sub_cancel' hle]

/-- After an item of a round come the later items of the round. -/
theorem mem_of_take_waiting_eq (h : Monotone arrivedBy) {n k j : ℕ} {before after : List ℕ}
    (heq : (waiting cap arrivedBy n).take cap = before ++ k :: after) (hkj : k < j)
    (hj : j < served cap arrivedBy (n + 1)) : j ∈ after := by
  have hk : k ∈ (waiting cap arrivedBy n).take cap := by simp [heq]
  have hmem : j ∈ (waiting cap arrivedBy n).take cap :=
    (mem_take_waiting h).2 ⟨((mem_take_waiting h).1 hk).1.trans hkj.le, hj⟩
  have hsorted : (before ++ k :: after).Pairwise (· < ·) := by
    rw [← heq, take_waiting h]
    exact List.pairwise_lt_range'
  rw [heq, List.mem_append, List.mem_cons] at hmem
  obtain hbefore | rfl | hafter := hmem
  · have hjk : j < k := (List.pairwise_append.1 hsorted).2.2 j hbefore k (List.mem_cons_self ..)
    exact absurd hjk hkj.asymm
  · exact absurd hkj (lt_irrefl _)
  · exact hafter

end Fifo

end A1Bsw
