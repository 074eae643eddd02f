import A1Bsw.LastGate
import Mathlib.Data.List.Chain
import Mathlib.Order.Interval.Finset.Nat

/-!
# Counting lost frames

`AliveCounter` of `e2e.py` follows the counter of a periodic frame, which
wraps at 256. The counts of two frames determine how many were lost between
them as long as fewer than 256 were (`emod_sub_emod_of_le`). So the counter
returns the losses before each frame it is given, and what it has handed to
the reports and what it still holds are all losses since the first frame
(`alive_counting`).
-/

namespace A1Bsw

/-! ## Gaps of a wrapping counter -/

/-- The distance of the count seen to the count expected is the number of counts in between. -/
theorem emod_sub_emod_of_le {M m n : ℤ} (hlt : m < n) (hle : n ≤ m + M) :
    (n % M - (m % M + 1) % M) % M = n - m - 1 := by
  rw [Int.emod_add_emod, Int.emod_sub_emod, Int.sub_emod_emod, Int.emod_eq_of_lt] <;> omega

/-- The numbers from the first to the last of a list that are not in it. -/
def framesLost (delivered : List ℕ) : ℕ :=
  match delivered.head?, delivered.getLast? with
  | some first, some last => (Finset.Icc first last \ delivered.toFinset).card
  | _, _ => 0

theorem framesLost_singleton (n : ℕ) : framesLost [n] = 0 := by
  simp [framesLost]

/-- A later number adds those between the last one and itself. -/
theorem framesLost_concat {delivered : List ℕ} {m n : ℕ} (hsorted : delivered.Pairwise (· < ·))
    (hlast : delivered.getLast? = some m) (hlt : m < n) :
    framesLost (delivered ++ [n]) = framesLost delivered + (Finset.Ioo m n).card := by
  obtain ⟨init, rfl⟩ := List.getLast?_eq_some_iff.1 hlast
  have hle : ∀ k ∈ init ++ [m], k ≤ m := by
    intro k hk
    rw [List.pairwise_append] at hsorted
    rcases List.mem_append.1 hk with hk | hk
    · exact (hsorted.2.2 k hk m (by simp)).le
    · exact (List.mem_singleton.1 hk).le
  obtain ⟨first, hfirst⟩ : ∃ first, (init ++ [m]).head? = some first :=
    ⟨_, List.head?_eq_some_head (by simp)⟩
  have hfm := hle first (List.mem_of_head? hfirst)
  have hfirst' : (init ++ [m] ++ [n]).head? = some first := by
    rw [List.head?_append, hfirst, Option.some_or]
  rw [framesLost, framesLost, hfirst', hfirst, hlast, List.getLast?_concat]
  dsimp only
  rw [← Finset.card_union_of_disjoint]
  · congr 1
    ext k
    have hk := hle k
    simp only [Finset.mem_sdiff, Finset.mem_Icc, Finset.mem_union, Finset.mem_Ioo,
      List.mem_toFinset, List.mem_append, List.mem_singleton] at hk ⊢
    constructor
    · rintro ⟨⟨h1, h2⟩, h3⟩
      by_cases hkm : k ≤ m
      · exact .inl ⟨⟨h1, hkm⟩, fun h => h3 (.inl h)⟩
      · exact .inr ⟨by omega, by omega⟩
    · rintro (⟨⟨h1, h2⟩, h3⟩ | ⟨h1, h2⟩)
      · refine ⟨⟨h1, by omega⟩, not_or.2 ⟨h3, by omega⟩⟩
      · refine ⟨⟨by omega, h2.le⟩, not_or.2 ⟨fun h => ?_, h2.ne⟩⟩
        exact (hk h).not_gt h1
  · rw [Finset.disjoint_left]
    intro k hk hk'
    rw [Finset.mem_sdiff, Finset.mem_Icc] at hk
    rw [Finset.mem_Ioo] at hk'
    omega

/-! ## The counter -/

/-- `AliveCounter`. -/
structure AliveCounter where
  last : Option ℤ := none
  frames : ℕ := 0
  totalSkips : ℕ := 0
  intervalSkips : ℤ := 0

namespace AliveCounter

/-- `update` : the counter, and whether the frame follows the last one and the gap. -/
def update (c : AliveCounter) (raw : ℤ) : AliveCounter × (Bool × ℤ) :=
  let c := { c with frames := c.frames + 1 }
  match c.last with
  | none => ({ c with last := some raw }, (true, 0))
  | some last =>
    let expected := (last + 1) % 256
    let ok := raw == expected
    let gap := if ok then 0 else (raw - expected) % 256
    let c := if ok then c else
      { c with totalSkips := c.totalSkips + 1, intervalSkips := c.intervalSkips + gap }
    ({ c with last := some raw }, (ok, gap))

/-- `pop_interval_skips`. -/
def popIntervalSkips (c : AliveCounter) : AliveCounter × ℤ :=
  ({ c with intervalSkips := 0 }, c.intervalSkips)

theorem frames_update (c : AliveCounter) (raw : ℤ) : (c.update raw).1.frames = c.frames + 1 := by
  rcases h : c.last with _ | last
  · simp only [update, h]
  · simp only [update, h]
    split_ifs <;> rfl

/-- The first frame is counted and reported as continuous. -/
theorem update_of_unset {c : AliveCounter} (h : c.last = none) (raw : ℤ) :
    c.update raw = ({ c with last := some raw, frames := c.frames + 1 }, (true, 0)) := by
  simp only [update, h]

/-- A later frame adds the frames lost before it. -/
theorem update_of_last {c : AliveCounter} {m n : ℕ} (hlast : c.last = some ((m : ℤ) % 256))
    (hlt : m < n) (hle : (Finset.Ioo m n).card ≤ 255) :
    c.update (n % 256) =
      ({ last := some (n % 256)
         frames := c.frames + 1
         totalSkips := if n = m + 1 then c.totalSkips else c.totalSkips + 1
         intervalSkips := c.intervalSkips + (Finset.Ioo m n).card },
        if n = m + 1 then (true, 0) else (false, ((Finset.Ioo m n).card : ℤ))) := by
  rw [Nat.card_Ioo] at hle ⊢
  have hgap : ((n : ℤ) % 256 - ((m : ℤ) % 256 + 1) % 256) % 256 = ((n - m - 1 : ℕ) : ℤ) := by
    rw [emod_sub_emod_of_le (by omega) (by omega)]
    omega
  have hiff : (n : ℤ) % 256 = ((m : ℤ) % 256 + 1) % 256 ↔ n = m + 1 := by omega
  by_cases h : n = m + 1
  · have hok : ((n : ℤ) % 256 == ((m : ℤ) % 256 + 1) % 256) = true := beq_iff_eq.2 (hiff.2 h)
    have hnone : ((n - m - 1 : ℕ) : ℤ) = 0 := by omega
    simp only [update, hlast, hok, if_true, if_pos h, hnone, add_zero]
  · have hok : ((n : ℤ) % 256 == ((m : ℤ) % 256 + 1) % 256) = false :=
      beq_eq_false_iff_ne.2 (mt hiff.1 h)
    simp only [update, hlast, hok, Bool.false_eq_true, if_false, if_neg h, hgap]

end AliveCounter

/-! ## A receiver -/

/-- What reaches the counter : a frame, by the cycle that sent it, or a report. -/
inductive ReceiverEvent where
  | deliver (n : ℕ)
  | pop
  deriving DecidableEq

/-- The frames among the events. -/
def delivered : List ReceiverEvent → List ℕ
  | [] => []
  | .deliver n :: events => n :: delivered events
  | .pop :: events => delivered events

/-- The counter and the sum of what the reports took from it. -/
structure Receiver where
  counter : AliveCounter := {}
  popped : ℤ := 0

namespace Receiver

/-- A frame goes to `update`, and a report calls `pop_interval_skips`. -/
def step (alivCnt : ℕ → ℤ) (r : Receiver) : ReceiverEvent → Receiver
  | .deliver n => { r with counter := (r.counter.update (alivCnt n)).1 }
  | .pop =>
    { counter := r.counter.popIntervalSkips.1, popped := r.popped + r.counter.popIntervalSkips.2 }

/-- The receiver after some events. -/
def after (alivCnt : ℕ → ℤ) (events : List ReceiverEvent) : Receiver :=
  events.foldl (step alivCnt) {}

end Receiver

/-- At most 255 frames are lost between two deliveries, which come in order. -/
def InOrder (events : List ReceiverEvent) : Prop :=
  (delivered events).IsChain fun m n => m < n ∧ (Finset.Ioo m n).card ≤ 255

/-- Every frame is reported with its exact loss, and after any events the reports and the
pending count together are the losses so far. -/
structure CountsLosses (alivCnt : ℕ → ℤ) (events : List ReceiverEvent) : Prop where
  returned : ∀ before n, before ++ [.deliver n] <+: events →
    ((Receiver.after alivCnt before).counter.update (alivCnt n)).2 =
      match (delivered before).getLast? with
      | none => (true, 0)
      | some m => if n = m + 1 then (true, 0) else (false, (Finset.Ioo m n).card)
  total : ∀ before, before <+: events →
    (Receiver.after alivCnt before).popped + (Receiver.after alivCnt before).counter.intervalSkips =
      framesLost (delivered before)

theorem delivered_append (xs ys : List ReceiverEvent) :
    delivered (xs ++ ys) = delivered xs ++ delivered ys := by
  induction xs with
  | nil => rfl
  | cons e xs ih => cases e <;> simp [delivered, ih]

namespace InOrder

variable {before after : List ReceiverEvent} {n : ℕ}

theorem of_append (h : InOrder (before ++ after)) : InOrder before := by
  rw [InOrder, delivered_append] at h
  exact h.left_of_append

theorem of_initial (h : InOrder after) (hinit : before <+: after) : InOrder before := by
  obtain ⟨later, rfl⟩ := hinit
  exact h.of_append

theorem pairwise (h : InOrder before) : (delivered before).Pairwise (· < ·) :=
  List.isChain_iff_pairwise.1 (h.imp fun _ _ hstep => hstep.1)

/-- The next frame is later, with few losses before it. -/
theorem gap (h : InOrder (before ++ [.deliver n])) :
    ∀ m ∈ (delivered before).getLast?, m < n ∧ (Finset.Ioo m n).card ≤ 255 := by
  intro m hm
  rw [InOrder, delivered_append, List.isChain_append] at h
  exact h.2.2 m hm n rfl

end InOrder

namespace Receiver

/-- The receiver has counted the losses of the frames delivered to it. -/
structure Counted (r : Receiver) (frames : List ℕ) : Prop where
  last : r.counter.last = frames.getLast?.map fun m => (m : ℤ) % 256
  total : r.popped + r.counter.intervalSkips = framesLost frames

variable {alivCnt : ℕ → ℤ} {r : Receiver} {frames : List ℕ}

/-- What `update` returns for the next frame. -/
theorem Counted.returned (hcount : ∀ n, alivCnt n = n % 256) (h : r.Counted frames) {n : ℕ}
    (hgap : ∀ m ∈ frames.getLast?, m < n ∧ (Finset.Ioo m n).card ≤ 255) :
    (r.counter.update (alivCnt n)).2 =
      match frames.getLast? with
      | none => (true, 0)
      | some m => if n = m + 1 then (true, 0) else (false, (Finset.Ioo m n).card) := by
  have hlast := h.last
  rcases hframes : frames.getLast? with _ | m <;> rw [hframes] at hlast hgap
  · rw [AliveCounter.update_of_unset hlast]
  · obtain ⟨hlt, hle⟩ := hgap m rfl
    rw [hcount, AliveCounter.update_of_last hlast hlt hle]

theorem Counted.deliver (hcount : ∀ n, alivCnt n = n % 256) (h : r.Counted frames) {n : ℕ}
    (hsorted : frames.Pairwise (· < ·))
    (hgap : ∀ m ∈ frames.getLast?, m < n ∧ (Finset.Ioo m n).card ≤ 255) :
    (r.step alivCnt (.deliver n)).Counted (frames ++ [n]) := by
  have hlast := h.last
  have htotal := h.total
  rw [step]
  rcases hframes : frames.getLast? with _ | m <;> rw [hframes] at hlast hgap
  · rw [AliveCounter.update_of_unset hlast, hcount]
    obtain rfl := List.getLast?_eq_none_iff.1 hframes
    refine ⟨rfl, ?_⟩
    rw [List.nil_append, framesLost_singleton]
    exact htotal
  · obtain ⟨hlt, hle⟩ := hgap m rfl
    rw [hcount, AliveCounter.update_of_last hlast hlt hle]
    refine ⟨by simp, ?_⟩
    rw [framesLost_concat hsorted hframes hlt]
    push_cast
    linarith

theorem Counted.pop (alivCnt : ℕ → ℤ) (h : r.Counted frames) :
    (r.step alivCnt .pop).Counted frames where
  last := h.last
  total := by
    rw [← h.total]
    exact add_zero _

/-- After any events the receiver has counted the losses. -/
theorem counted_after (hcount : ∀ n, alivCnt n = n % 256) {events : List ReceiverEvent}
    (h : InOrder events) : (after alivCnt events).Counted (delivered events) := by
  induction events using List.reverseRecOn with
  | nil => exact ⟨rfl, rfl⟩
  | append_singleton before e ih =>
    have hbefore := ih h.of_append
    rw [after, List.foldl_append, delivered_append]
    cases e with
    | pop =>
      rw [delivered, delivered, List.append_nil]
      exact Counted.pop alivCnt hbefore
    | deliver n => exact hbefore.deliver hcount h.of_append.pairwise h.gap

end Receiver

/-- A receiver that gets the numbers of the frames modulo 256 counts the losses. -/
theorem countsLosses {alivCnt : ℕ → ℤ} (hcount : ∀ n, alivCnt n = n % 256)
    {events : List ReceiverEvent} (h : InOrder events) : CountsLosses alivCnt events where
  returned _ _ hinit :=
    (Receiver.counted_after hcount (h.of_initial hinit).of_append).returned hcount
      (h.of_initial hinit).gap
  total _ hinit := (Receiver.counted_after hcount (h.of_initial hinit)).total

namespace GuardRun

variable {a : Args} (ρ : GuardRun a)

/-- Every cycle counts its frame. -/
theorem alivCnt_loop (n : ℕ) : (ρ.loop n).alivCnt = n % 256 := by
  induction n with
  | zero =>
    rw [ρ.start]
    rfl
  | succ n ih =>
    have hstep : (ρ.loop (n + 1)).alivCnt = ((ρ.loop n).alivCnt + 1) % 256 := by
      rw [ρ.loop_succ]
      exact congrArg (fun x : ℤ => (x + 1) % 256) (LoopState.sense_alivCnt _ _)
    rw [hstep, ih]
    push_cast
    rw [Int.emod_add_emod]

/-- Frame 0x156 of cycle `n` carries `n` modulo 256, whatever the states and the reads were. -/
theorem alivCnt_frame156 (n : ℕ) : (unpackRaw (ρ.sent n).frame156 56 8 : ℤ) = n % 256 := by
  obtain ⟨_, _, -, -, h01⟩ := ρ.control01 n
  have hentered : (ρ.entered n).alivCnt = n % 256 :=
    (LoopState.sense_alivCnt _ _).trans (ρ.alivCnt_loop n)
  have hdecode := h01.alivCnt
  simp only [Signal.decode, unpack, EAIT_Control_01.Aliv_Cnt, Bool.false_and, Bool.false_eq_true,
    if_false, add_zero, mul_one] at hdecode
  have hraw : unpackRaw (ρ.sent n).frame156 56 8 = lowBits 8 (ρ.entered n).alivCnt := by
    exact_mod_cast hdecode
  rw [hraw, hentered, lowBits]
  omega

end GuardRun

/-- A receiver of the frames 0x156 of any run counts the losses. -/
theorem alive_counting {a : Args} (ρ : GuardRun a) {events : List ReceiverEvent}
    (h : InOrder events) :
    CountsLosses (fun n => unpackRaw (ρ.sent n).frame156 56 8) events :=
  countsLosses ρ.alivCnt_frame156 h

/-- Between the frames of cycles 3 and 259 as many are lost as the counter can tell. -/
theorem alive_counting_burst :
    CountsLosses
      (fun n => unpackRaw ((GuardRun.fresh {} GuardRun.monotone_tick fun _ => {}).sent n).frame156
        56 8)
      [.deliver 3, .deliver 259, .pop, .deliver 260] := by
  refine alive_counting _ ?_
  simp [InOrder, delivered]

end A1Bsw
