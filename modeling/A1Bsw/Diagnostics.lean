import A1Bsw.StatusDecoders

/-!
# The diagnostics of the status nodes

The nodes of EAIT_INFO_EPS and EAIT_INFO_ACC report once a second on the
frames they took. `onDiagTimer` resets the count of skipped frames with each
report, and asks the count of all frames since the start whether any frame
came. A report is about the interval since the last one, so it should be OK
only if a frame was taken in it and every one continued the counter, and
STALE if none was.

Skipped frames never go unreported. But a node that has taken a frame once is
never STALE again : a report is honest exactly when a frame was taken in its
interval, or none ever was (`diagnostics_honest_iff`).
-/

namespace A1Bsw

/-! ## Reports -/

/-- The levels of a `DiagnosticStatus` that the nodes report. -/
inductive DiagnosticLevel where
  | OK
  | WARN
  | STALE
  deriving DecidableEq

/-- `diagnostic_msgs/DiagnosticStatus`. -/
structure DiagnosticStatus where
  hardwareId : String
  name : String
  level : DiagnosticLevel
  message : String
  values : List (String × String)

/-- `_on_diag_timer` : the state after it, and the status it publishes. -/
def AliveNode.onDiagTimer (name : String) (s : AliveNode) : AliveNode × DiagnosticStatus :=
  let (alive, skips) := s.alive.popIntervalSkips
  let (level, message) :=
    if alive.frames = 0 then (DiagnosticLevel.STALE, "수신 없음")
    else if skips ≠ 0 then (.WARN, s!"Alive_Cnt {skips}건 건너뜀(최근 1s)")
    else (.OK, "ok")
  ({ s with alive },
    { hardwareId := "EAIT"
      name, level, message
      values := [("frames", toString alive.frames), ("total_skips", toString alive.totalSkips)] })

/-- What a node handles : a frame from the bridge, or its timer. -/
inductive NodeEvent where
  | frame (frame : CanFrame)
  | tick

/-- A node with an alive counter and a timer. `count` is the counter in a frame. -/
structure DiagNode (τ : Type) where
  decoder : Decoder AliveNode τ
  name : String
  count : CanFrame → ℕ
  count_lt : ∀ frame, count frame < 256
  alive_accept : ∀ s frame,
    (decoder.accept s frame).state.alive = (s.alive.update (count frame)).1

/-- `EpsDecoder` with its timer. -/
def epsNode : DiagNode EpsStatus where
  decoder := epsDecoder
  name := "can/EAIT_INFO_EPS (0x710)"
  count frame := (decodeEps frame.data).aliveCnt
  count_lt frame := Signal.raw_lt { start := 56, length := 8 } frame.data
  alive_accept _ _ := rfl

/-- `AccDecoder` with its timer. -/
def accNode : DiagNode AccStatus where
  decoder := accDecoder
  name := "can/EAIT_INFO_ACC (0x711)"
  count frame := (decodeAcc frame.data).aliveCnt
  count_lt frame := Signal.raw_lt { start := 56, length := 8 } frame.data
  alive_accept _ _ := rfl

namespace DiagNode

variable {τ : Type} (d : DiagNode τ)

/-- The state after one event. -/
def step (s : AliveNode) : NodeEvent → AliveNode
  | .frame frame => (d.decoder.onFrame s frame).state
  | .tick => (s.onDiagTimer d.name).1

/-- The state after some events. -/
def after (events : List NodeEvent) : AliveNode :=
  events.foldl d.step {}

/-- What the timer publishes after some events. -/
def report (events : List NodeEvent) : DiagnosticStatus :=
  ((d.after events).onDiagTimer d.name).2

/-- The frame passes both checks of `_on_frame`. -/
def Takes (frame : CanFrame) : Prop :=
  frame.id = d.decoder.frameId ∧ 8 ≤ frame.dlc

instance (frame : CanFrame) : Decidable (d.Takes frame) :=
  inferInstanceAs (Decidable (_ ∧ _))

/-- The counters of the frames that were taken. -/
def accepted : List NodeEvent → List ℕ
  | [] => []
  | .frame frame :: events =>
    if d.Takes frame then d.count frame :: accepted events else accepted events
  | .tick :: events => accepted events

end DiagNode

/-! ## Honest reports -/

/-- Each frame has the count after that of the frame before it, the last old one included. -/
def Continues (old recent : List ℕ) : Prop :=
  (old.getLast?.toList ++ recent).IsChain fun m n => n = (m + 1) % 256

/-- A report comes after the events, the `recent` of them since the last report. -/
structure Interval (events old recent : List NodeEvent) : Prop where
  initial : old ++ recent ++ [.tick] <+: events
  boundary : old = [] ∨ ∃ earlier, old = earlier ++ [.tick]
  no_tick : .tick ∉ recent

/-- OK means that frames came and that none was skipped, and silence is STALE. -/
structure HonestReport (report : DiagnosticStatus) (old recent : List ℕ) : Prop where
  ok : report.level = .OK → recent ≠ [] ∧ Continues old recent
  silent : recent = [] → report.level = .STALE

/-! ## What the counter holds -/

theorem continues_nil (old : List ℕ) : Continues old [] := by
  rcases h : old.getLast? with _ | m <;> simp [Continues, h]

/-- The chain goes on exactly if the next count follows the last one. -/
theorem continues_concat_iff {old recent : List ℕ} {n : ℕ} :
    Continues old (recent ++ [n]) ↔
      Continues old recent ∧ ∀ m ∈ (old ++ recent).getLast?, n = (m + 1) % 256 := by
  have hlast : (old.getLast?.toList ++ recent).getLast? = (old ++ recent).getLast? := by
    rw [List.getLast?_append, List.getLast?_append]
    congr 1
    rcases old.getLast? with _ | m <;> rfl
  rw [Continues, ← List.append_assoc, List.isChain_append, hlast]
  simp [Continues]

namespace AliveCounter

variable {c : AliveCounter}

theorem last_update (c : AliveCounter) (raw : ℤ) : (c.update raw).1.last = some raw := by
  rcases h : c.last with _ | last <;> simp only [update, h]

/-- A frame adds a gap, which is zero exactly if the frame follows the last one. -/
theorem intervalSkips_update {last : Option ℕ} (hlast : c.last = last.map Nat.cast) {n : ℕ}
    (hn : n < 256) :
    ∃ gap, 0 ≤ gap ∧ (gap = 0 ↔ ∀ m ∈ last, n = (m + 1) % 256) ∧
      (c.update n).1.intervalSkips = c.intervalSkips + gap := by
  rcases last with _ | m
  · exact ⟨0, le_rfl, by simp, by rw [update_of_unset hlast, add_zero]⟩
  have hlast' : c.last = some (m : ℤ) := hlast
  by_cases hok : (n : ℤ) = ((m : ℤ) + 1) % 256
  · refine ⟨0, le_rfl, iff_of_true rfl ?_, ?_⟩
    · rintro _ ⟨⟩
      omega
    · simp only [update, hlast', beq_iff_eq.2 hok, if_true, add_zero]
  · refine ⟨((n : ℤ) - ((m : ℤ) + 1) % 256) % 256, by omega, iff_of_false (by omega) ?_, ?_⟩
    · intro h
      have hm := h m rfl
      omega
    · simp only [update, hlast', beq_eq_false_iff_ne.2 hok, Bool.false_eq_true, if_false]

/-- The counter has been given the counts `old`, then reset by a report, and then given the
counts `recent`. -/
structure Follows (c : AliveCounter) (old recent : List ℕ) : Prop where
  last : c.last = (old ++ recent).getLast?.map Nat.cast
  frames : c.frames = (old ++ recent).length
  nonneg : 0 ≤ c.intervalSkips
  skips : c.intervalSkips = 0 ↔ Continues old recent

namespace Follows

variable {old recent : List ℕ}

theorem update (h : c.Follows old recent) {n : ℕ} (hn : n < 256) :
    (c.update n).1.Follows old (recent ++ [n]) := by
  obtain ⟨gap, hgap, hzero, hskips⟩ := intervalSkips_update h.last hn
  have hnonneg := h.nonneg
  refine ⟨?_, ?_, ?_, ?_⟩
  · rw [last_update, ← List.append_assoc, List.getLast?_concat]
    rfl
  · rw [frames_update, h.frames, ← List.append_assoc]
    simp only [List.length_append, List.length_singleton]
  · rw [hskips]
    exact add_nonneg hnonneg hgap
  · rw [hskips, continues_concat_iff, ← h.skips, ← hzero]
    omega

/-- A report begins a new interval. -/
theorem popIntervalSkips (h : c.Follows old recent) :
    c.popIntervalSkips.1.Follows (old ++ recent) [] where
  last := by
    rw [List.append_nil]
    exact h.last
  frames := by
    rw [List.append_nil]
    exact h.frames
  nonneg := le_rfl
  skips := iff_of_true rfl (continues_nil _)

end Follows

end AliveCounter

namespace DiagNode

variable {τ : Type} {d : DiagNode τ} {old recent : List ℕ}

theorem accepted_append (xs ys : List NodeEvent) :
    d.accepted (xs ++ ys) = d.accepted xs ++ d.accepted ys := by
  induction xs with
  | nil => rfl
  | cons e xs ih =>
    rcases e with frame | _
    · rw [List.cons_append, accepted, accepted, ih]
      split_ifs <;> rfl
    · exact ih

/-- A frame goes into the counter exactly if it is taken. -/
theorem follows_frame {s : AliveNode} (h : s.alive.Follows old recent) (frame : CanFrame) :
    (d.step s (.frame frame)).alive.Follows old (recent ++ d.accepted [.frame frame]) := by
  rw [step, Decoder.onFrame, accepted, accepted]
  by_cases hid : frame.id = d.decoder.frameId
  · by_cases hdlc : frame.dlc < 8
    · have hnot : ¬d.Takes frame := fun htaken => htaken.2.not_gt hdlc
      rw [if_neg (not_not.2 hid), if_pos hdlc, if_neg hnot, List.append_nil]
      exact h
    · have htaken : d.Takes frame := ⟨hid, not_lt.1 hdlc⟩
      rw [if_neg (not_not.2 hid), if_neg hdlc, if_pos htaken, d.alive_accept]
      exact h.update (d.count_lt frame)
  · have hnot : ¬d.Takes frame := fun htaken => hid htaken.1
    rw [if_pos hid, if_neg hnot, List.append_nil]
    exact h

theorem after_concat (events : List NodeEvent) (e : NodeEvent) :
    d.after (events ++ [e]) = d.step (d.after events) e := by
  rw [after, List.foldl_append]
  rfl

/-- After any events the counter has been given the counts of the frames that were taken. -/
theorem follows_after (events : List NodeEvent) :
    ∃ old recent, old ++ recent = d.accepted events ∧
      (d.after events).alive.Follows old recent := by
  induction events using List.reverseRecOn with
  | nil => exact ⟨[], [], rfl, rfl, rfl, le_rfl, iff_of_true rfl (continues_nil _)⟩
  | append_singleton events e ih =>
    obtain ⟨old, recent, heq, h⟩ := ih
    rw [after_concat, accepted_append, ← heq]
    cases e with
    | frame frame => exact ⟨old, _, (List.append_assoc _ _ _).symm, follows_frame h frame⟩
    | tick => exact ⟨old ++ recent, [], rfl, h.popIntervalSkips⟩

/-- At a report the counter has been given the counts before and after the last one. -/
theorem follows_interval {events old recent : List NodeEvent} (h : Interval events old recent) :
    (d.after (old ++ recent)).alive.Follows (d.accepted old) (d.accepted recent) := by
  have hold : (d.after old).alive.Follows (d.accepted old) [] := by
    obtain rfl | ⟨earlier, rfl⟩ := h.boundary
    · exact ⟨rfl, rfl, le_rfl, iff_of_true rfl (continues_nil _)⟩
    · obtain ⟨xs, ys, heq, hfollows⟩ := follows_after (d := d) earlier
      rw [after_concat, accepted_append, ← heq, accepted, accepted, List.append_nil]
      exact hfollows.popIntervalSkips
  have hquiet := h.no_tick
  clear h
  induction recent using List.reverseRecOn with
  | nil =>
    rw [List.append_nil]
    exact hold
  | append_singleton recent e ih =>
    rw [List.mem_append, not_or] at hquiet
    rw [← List.append_assoc, after_concat, accepted_append]
    cases e with
    | frame frame => exact follows_frame (ih hquiet.1) frame
    | tick => exact absurd (List.mem_singleton_self _) hquiet.2

/-- The level of a report. -/
theorem level_report (events : List NodeEvent) :
    (d.report events).level =
      if (d.after events).alive.frames = 0 then .STALE
      else if (d.after events).alive.intervalSkips ≠ 0 then .WARN else .OK := by
  rw [report, AliveNode.onDiagTimer, AliveCounter.popIntervalSkips]
  dsimp only
  split_ifs <;> rfl

/-- A report is honest exactly when a frame was taken in its interval, or none before it. -/
theorem honestReport_iff {events old recent : List NodeEvent} (h : Interval events old recent) :
    HonestReport (d.report (old ++ recent)) (d.accepted old) (d.accepted recent) ↔
      d.accepted recent ≠ [] ∨ d.accepted old = [] := by
  have hfollows := follows_interval (d := d) h
  have hframes : (d.after (old ++ recent)).alive.frames = 0 ↔
      d.accepted old = [] ∧ d.accepted recent = [] := by
    rw [hfollows.frames, List.length_eq_zero_iff, List.append_eq_nil_iff]
  have hlevel := d.level_report (old ++ recent)
  constructor
  · intro hreport
    by_contra hnot
    rw [not_or, not_not] at hnot
    rw [hreport.silent hnot.1, if_neg fun hzero => hnot.2 (hframes.1 hzero).1] at hlevel
    split_ifs at hlevel
  · intro hcond
    by_cases hrecent : d.accepted recent = []
    · have hold := hcond.resolve_left (not_not.2 hrecent)
      rw [if_pos (hframes.2 ⟨hold, hrecent⟩)] at hlevel
      refine ⟨fun hok => ?_, fun _ => hlevel⟩
      rw [hlevel] at hok
      cases hok
    · rw [if_neg fun hzero => hrecent (hframes.1 hzero).2] at hlevel
      refine ⟨fun hok => ⟨hrecent, hfollows.skips.1 ?_⟩, fun h => absurd h hrecent⟩
      by_contra hskips
      rw [if_pos hskips, hok] at hlevel
      cases hlevel

variable (d) in
/-- Every report of a run is honest exactly when in every interval a frame was taken, or none
was before it. -/
theorem honest_run_iff (events : List NodeEvent) :
    (∀ old recent, Interval events old recent →
      HonestReport (d.report (old ++ recent)) (d.accepted old) (d.accepted recent)) ↔
    ∀ old recent, Interval events old recent →
      d.accepted recent ≠ [] ∨ d.accepted old = [] :=
  forall₃_congr fun _ _ => honestReport_iff

end DiagNode

/-- For both nodes and every interleaving of frames and reports, every report is honest exactly
when the bus is never silent for an interval after a frame has been taken. -/
theorem diagnostics_honest_iff (events : List NodeEvent) :
    ((∀ old recent, Interval events old recent →
        HonestReport (epsNode.report (old ++ recent)) (epsNode.accepted old)
          (epsNode.accepted recent)) ↔
      ∀ old recent, Interval events old recent →
        epsNode.accepted recent ≠ [] ∨ epsNode.accepted old = []) ∧
    ((∀ old recent, Interval events old recent →
        HonestReport (accNode.report (old ++ recent)) (accNode.accepted old)
          (accNode.accepted recent)) ↔
      ∀ old recent, Interval events old recent →
        accNode.accepted recent ≠ [] ∨ accNode.accepted old = []) :=
  ⟨epsNode.honest_run_iff events, accNode.honest_run_iff events⟩

/-- One frame 0x710, and then nothing. -/
def oneFrame : NodeEvent :=
  .frame
    { header := {}, id := 0x710, dlc := 8, data := List.replicate 8 0, isExtended := false,
      isError := false }

/-- The second report after the frame is OK, although nothing came in its interval. -/
theorem silent_bus_reported_ok :
    Interval [oneFrame, .tick, .tick] [oneFrame, .tick] [] ∧
      epsNode.accepted [] = [] ∧ (epsNode.report [oneFrame, .tick]).level = .OK ∧
      ¬HonestReport (epsNode.report [oneFrame, .tick]) (epsNode.accepted [oneFrame, .tick])
        (epsNode.accepted []) := by
  have hok : (epsNode.report [oneFrame, .tick]).level = .OK := by decide +kernel
  refine ⟨⟨List.prefix_rfl, .inr ⟨[oneFrame], rfl⟩, List.not_mem_nil⟩, rfl, hok, fun h => ?_⟩
  exact (h.ok hok).1 rfl

end A1Bsw
