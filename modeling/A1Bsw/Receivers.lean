import A1Bsw.Generator
import A1Bsw.SilTests
import A1Bsw.Statistics

/-!
# What the receivers of the bus measure

`eait_rx.py` decodes what it receives and keeps statistics for each id : how
many frames, the time between them, and how often a counter did not step by
one. A frame that is too short ends it. `check_alive_cnt_continuous` of the SIL
tests and `AliveCounter` of the ROS nodes count interruptions in their own ways,
and given the same counters all three agree on every sequence of frames on which
`eait_rx.py` keeps running (`loss_counters_agree`).

`measure_a3_latency.py` measures from outside what the guard measures of
itself : how far its intervals are from the period. The guard's own worst
lateness, with the delay of the reception, bounds every such deviation, and
the deviation of the mean goes to zero (`measured_periods`).
-/

namespace A1Bsw

/-! ## Neighbours in a list -/

section Neighbours

variable {α β : Type*}

theorem consecutivePairs_concat {l : List α} {x : α} (hlast : l.getLast? = some x) (y : α) :
    (l ++ [y]).consecutivePairs = l.consecutivePairs ++ [(x, y)] := by
  obtain ⟨init, rfl⟩ := List.getLast?_eq_some_iff.1 hlast
  clear hlast
  induction init with
  | nil => rfl
  | cons a init ih =>
    cases init with
    | nil => rfl
    | cons b init => exact congrArg ((a, b) :: ·) ih

theorem consecutivePairs_map (f : α → β) (l : List α) :
    (l.map f).consecutivePairs = l.consecutivePairs.map (Prod.map f f) := by
  rw [List.consecutivePairs, ← List.map_tail, List.zip_map]

/-- The differences of neighbours add up to the difference of the ends. -/
theorem sum_consecutivePairs (f : α → ℚ) (a : α) (l : List α) :
    ((a :: l).consecutivePairs.map fun p => f p.2 - f p.1).sum = f (l.getLastD a) - f a := by
  induction l generalizing a with
  | nil => exact (sub_self _).symm
  | cons b l ih =>
    rw [show (a :: b :: l).consecutivePairs = (a, b) :: (b :: l).consecutivePairs from rfl,
      List.map_cons, List.sum_cons, ih b, List.getLastD_cons]
    ring

end Neighbours

/-! ## The statistics of one id -/

/-- `"alive" in k.lower() or "cnt" in k.lower()`. -/
def CountsByName (k : String) : Prop :=
  "alive".toList <:+: k.toLower.toList ∨ "cnt".toList <:+: k.toLower.toList

instance : DecidablePred CountsByName :=
  fun _ => inferInstanceAs (Decidable (_ ∨ _))

/-- `Stats` of `eait_rx.py`. -/
structure Stats where
  n : ℕ := 0
  lastT : Option ℚ := none
  dtSum : ℚ := 0
  dtMax : ℚ := 0
  cntLast : Option ℤ := none
  cntSkips : ℕ := 0

namespace Stats

/-- A value of a counter. -/
def count (st : Stats) (v : ℚ) : Stats :=
  { st with
    cntLast := some (pyInt v)
    cntSkips :=
      match st.cntLast with
      | some last => if (last + 1) % 256 ≠ pyInt v % 256 then st.cntSkips + 1 else st.cntSkips
      | none => st.cntSkips }

/-- `add`. -/
def add (st : Stats) (t : ℚ) (vals : List (String × ℚ)) : Stats :=
  let st : Stats :=
    match st.lastT with
    | some lastT => { st with dtSum := st.dtSum + (t - lastT), dtMax := max st.dtMax (t - lastT) }
    | none => st
  vals.foldl (fun st kv => if CountsByName kv.1 then st.count kv.2 else st)
    { st with n := st.n + 1, lastT := some t }

/-- The frequency that `line` prints. -/
def hz (st : Stats) : ℚ :=
  if 0 < st.dtSum then (st.n - 1) / st.dtSum else 0

/-- The mean interval that `line` prints, in milliseconds. -/
def avg (st : Stats) : ℚ :=
  if 1 < st.n then st.dtSum / (st.n - 1) * 1000 else 0

/-- What the statistics say of the frames added, of which `c` is the counter. -/
structure Of (st : Stats) (c : RecordedFrame → ℤ) (frames : List RecordedFrame) : Prop where
  n : st.n = frames.length
  lastT : st.lastT = frames.getLast?.map RecordedFrame.t
  dtSum : st.dtSum = (frames.consecutivePairs.map fun p => p.2.t - p.1.t).sum
  dtMax : st.dtMax = (frames.consecutivePairs.map fun p => p.2.t - p.1.t).foldl max 0
  cntLast : st.cntLast = frames.getLast?.map c
  cntSkips : st.cntSkips =
    frames.consecutivePairs.countP fun p => (c p.1 + 1) % 256 ≠ c p.2 % 256

variable {st : Stats} {c : RecordedFrame → ℤ} {frames : List RecordedFrame} {f : RecordedFrame}

/-- One more frame, with one counter among its values. -/
theorem Of.add (h : st.Of c frames) {vals : List (String × ℚ)} {name : String} {v : ℚ}
    (hvals : vals.filter (fun kv => CountsByName kv.1) = [(name, v)]) (hc : pyInt v = c f) :
    (st.add f.t vals).Of c (frames ++ [f]) := by
  have hfold (st : Stats) : vals.foldl
      (fun st kv => if CountsByName kv.1 then st.count kv.2 else st) st = st.count v := by
    have hfilter : (vals.filter fun kv => CountsByName kv.1).foldl
        (fun (st : Stats) kv => st.count kv.2) st = _ := List.foldl_filter
    rw [hvals] at hfilter
    simpa using hfilter.symm
  have hlastT := h.lastT
  have hcntLast := h.cntLast
  rw [Stats.add, hfold]
  rcases hlast : frames.getLast? with _ | last <;> rw [hlast] at hlastT hcntLast
  · obtain rfl := List.getLast?_eq_none_iff.1 hlast
    simp only [Option.map_none] at hlastT hcntLast
    simp only [hlastT, count, hcntLast]
    exact ⟨by rw [h.n]; rfl, rfl, h.dtSum, h.dtMax, congrArg some hc, h.cntSkips⟩
  · simp only [Option.map_some] at hlastT hcntLast
    simp only [hlastT, count, hcntLast]
    refine ⟨?_, ?_, ?_, ?_, ?_, ?_⟩
    · rw [h.n, List.length_append, List.length_singleton]
    · rw [List.getLast?_concat, Option.map_some]
    · rw [consecutivePairs_concat hlast, List.map_append, List.sum_append, ← h.dtSum]
      simp
    · rw [consecutivePairs_concat hlast, List.map_append, List.foldl_append, ← h.dtMax]
      rfl
    · rw [List.getLast?_concat, Option.map_some, hc]
    · rw [consecutivePairs_concat hlast, List.countP_append, ← h.cntSkips, hc]
      by_cases hstep : (c last + 1) % 256 = c f % 256 <;> simp [hstep]

theorem of_nil : ({} : Stats).Of c [] :=
  ⟨rfl, rfl, rfl, rfl, rfl, rfl⟩

end Stats

/-! ## The receiver -/

/-- How `decode_message` fails : an id that the database does not have, or data that does not
decode. -/
inductive DecodeFailure where
  | keyError
  | decodeError

/-- `decode_message` of the database. -/
abbrev Database := ℕ → Bytes → Except DecodeFailure (List (String × ℚ))

/-- The values of the signals of a message. -/
def decodeSignals (specs : List SignalSpec) (data : Bytes) : List (String × ℚ) :=
  specs.map fun sig => (sig.name, sig.signal.decode data)

/-- The dictionary and the count of `main`. -/
structure EaitRx where
  stats : ℕ → Stats := fun _ => {}
  total : ℕ := 0

/-- The values that `main` has of a frame. With `--raw` there is no database. Only a `KeyError` is
caught. -/
def decodedVals (db : Option Database) (f : RecordedFrame) :
    Except DecodeFailure (List (String × ℚ)) :=
  match db with
  | some db =>
    match db f.arbitrationId f.data with
    | .error .keyError => .ok [("(DBC에 없는 ID)", 0)]
    | vals => vals
  | none => .ok []

/-- The database has message EAIT_Control_01 : eight bytes decode, and fewer raise. -/
def Database.HasControl01 (db : Database) : Prop :=
  ∀ data : Bytes, db 0x156 data =
    if 8 ≤ data.length then .ok (decodeSignals EAIT_Control_01.specs data) else .error .decodeError

namespace EaitRx

/-- A frame that `main` receives. An exception of the decoder ends it. -/
def recv (db : Option Database) (want : Option ℕ) (r : EaitRx) (f : RecordedFrame) :
    Except DecodeFailure EaitRx :=
  if want = none ∨ want = some f.arbitrationId then do
    let vals ← decodedVals db f
    return {
      stats := Function.update r.stats f.arbitrationId
        ((r.stats f.arbitrationId).add f.t vals)
      total := r.total + 1 }
  else return r

/-- What `main` has after some frames. -/
def after (db : Option Database) (want : Option ℕ) (rx : List RecordedFrame) :
    Except DecodeFailure EaitRx :=
  rx.foldlM (recv db want) {}

variable {db : Option Database} {want : Option ℕ} {r r' : EaitRx} {rx : List RecordedFrame}
  {f : RecordedFrame} {id : ℕ}

theorem recv_of_decoded {vals : List (String × ℚ)}
    (hwant : want = none ∨ want = some f.arbitrationId) (hvals : decodedVals db f = .ok vals) :
    recv db want r f = .ok {
      stats := Function.update r.stats f.arbitrationId
        ((r.stats f.arbitrationId).add f.t vals)
      total := r.total + 1 } := by
  rw [recv, if_pos hwant, hvals]
  rfl

/-- The receiver goes on if and only if a frame that it wants decodes. -/
theorem exists_recv_iff : (∃ r', recv db want r f = .ok r') ↔
    (want = none ∨ want = some f.arbitrationId → ∃ vals, decodedVals db f = .ok vals) := by
  by_cases hwant : want = none ∨ want = some f.arbitrationId
  · rcases hvals : decodedVals db f with e | vals
    · rw [recv, if_pos hwant, hvals]
      exact iff_of_false (fun ⟨_, h⟩ => nomatch h) fun h => nomatch h hwant
    · exact iff_of_true ⟨_, recv_of_decoded hwant hvals⟩ fun _ => ⟨vals, rfl⟩
  · rw [recv, if_neg hwant]
    exact iff_of_true ⟨r, rfl⟩ fun h => absurd h hwant

/-- One more frame. -/
theorem after_concat_iff : after db want (rx ++ [f]) = .ok r' ↔
    ∃ r, after db want rx = .ok r ∧ recv db want r f = .ok r' := by
  rw [after, List.foldlM_append, ← after]
  rcases after db want rx with e | r
  · exact iff_of_false (fun h => nomatch h) fun ⟨_, h, _⟩ => nomatch h
  · have hone : [f].foldlM (recv db want) r = recv db want r f := bind_pure _
    show [f].foldlM (recv db want) r = .ok r' ↔ _
    rw [hone]
    exact ⟨fun h => ⟨r, rfl, h⟩, fun ⟨_, rfl, h⟩ => h⟩

/-- The receiver keeps running if and only if every frame that it wants decodes. -/
theorem exists_after_iff : (∃ r, after db want rx = .ok r) ↔
    ∀ f ∈ rx, want = none ∨ want = some f.arbitrationId → ∃ vals, decodedVals db f = .ok vals := by
  induction rx using List.reverseRecOn with
  | nil => exact iff_of_true ⟨_, rfl⟩ (by simp)
  | append_singleton rx f ih =>
    rw [List.forall_mem_append, ← ih, List.forall_mem_singleton]
    constructor
    · rintro ⟨r', hr'⟩
      obtain ⟨r, hr, hf⟩ := after_concat_iff.1 hr'
      exact ⟨⟨r, hr⟩, exists_recv_iff.1 ⟨r', hf⟩⟩
    · rintro ⟨⟨r, hr⟩, hf⟩
      obtain ⟨r', hr'⟩ := exists_recv_iff.2 hf
      exact ⟨r', after_concat_iff.2 ⟨r, hr, hr'⟩⟩

/-- A frame of a wanted id is added to its statistics, and to no other. -/
theorem stats_recv (hwant : want = none ∨ want = some id) (h : recv db want r f = .ok r') :
    if f.arbitrationId = id then
      ∃ vals, decodedVals db f = .ok vals ∧ r'.stats id = (r.stats id).add f.t vals
    else r'.stats id = r.stats id := by
  split_ifs with hid
  · subst hid
    obtain ⟨vals, hvals⟩ := exists_recv_iff.1 ⟨r', h⟩ hwant
    rw [recv_of_decoded hwant hvals] at h
    cases h
    exact ⟨vals, hvals, Function.update_self ..⟩
  · by_cases hf : want = none ∨ want = some f.arbitrationId
    · obtain ⟨vals, hvals⟩ := exists_recv_iff.1 ⟨r', h⟩ hf
      rw [recv_of_decoded hf hvals] at h
      cases h
      exact Function.update_of_ne (Ne.symm hid) ..
    · rw [recv, if_neg hf] at h
      cases h
      rfl

/-- The statistics of a wanted id whose frames have one counter. -/
theorem stats_after {c : RecordedFrame → ℤ} (hwant : want = none ∨ want = some id)
    (hcount : ∀ f vals, f.arbitrationId = id → decodedVals db f = .ok vals →
      ∃ name v, vals.filter (fun kv => CountsByName kv.1) = [(name, v)] ∧ pyInt v = c f)
    (h : after db want rx = .ok r) :
    (r.stats id).Of c (rx.filter (·.arbitrationId = id)) := by
  induction rx using List.reverseRecOn generalizing r with
  | nil =>
    cases h
    exact Stats.of_nil
  | append_singleton rx f ih =>
    obtain ⟨r₀, hr₀, hf⟩ := after_concat_iff.1 h
    have hstats := stats_recv hwant hf
    rw [List.filter_append]
    split_ifs at hstats with hid
    · obtain ⟨vals, hvals, hadd⟩ := hstats
      obtain ⟨name, v, hone, hv⟩ := hcount f vals hid hvals
      rw [hadd, List.filter_singleton, decide_eq_true hid]
      exact (ih hr₀).add hone hv
    · rw [hstats, List.filter_singleton, decide_eq_false hid, Bool.cond_false, List.append_nil]
      exact ih hr₀

end EaitRx

/-! ## Three counts of the interruptions -/

/-- The counter of a frame 0x156. -/
def aliveCnt (f : RecordedFrame) : ℤ :=
  EAIT_Control_01.Aliv_Cnt.raw f.data

/-- How often the counter of frame 0x156 does not step by one. -/
def interruptions (rx : List RecordedFrame) : ℕ :=
  (rx.filter (·.arbitrationId = 0x156)).consecutivePairs.countP fun p =>
    aliveCnt p.2 ≠ (aliveCnt p.1 + 1) % 256

/-- An `AliveCounter` that is given the counters of the frames 0x156. -/
def aliveCounterAfter (rx : List RecordedFrame) : AliveCounter :=
  ((rx.filter (·.arbitrationId = 0x156)).map aliveCnt).foldl (fun c raw => (c.update raw).1) {}

theorem aliveCnt_mem (f : RecordedFrame) : 0 ≤ aliveCnt f ∧ aliveCnt f < 256 := by
  have hlt : EAIT_Control_01.Aliv_Cnt.raw f.data < 2 ^ 8 := Signal.raw_lt _ _
  exact ⟨Int.natCast_nonneg _, by rw [aliveCnt]; exact_mod_cast hlt⟩

theorem pyInt_intCast (n : ℤ) : pyInt n = n := by
  rw [pyInt, Rat.num_intCast, Rat.den_intCast]
  exact Int.tdiv_one n

theorem pyInt_decode_aliveCnt (f : RecordedFrame) :
    pyInt (EAIT_Control_01.Aliv_Cnt.decode f.data) = aliveCnt f := by
  have hdecode : EAIT_Control_01.Aliv_Cnt.decode f.data = (aliveCnt f : ℚ) := by
    simp [Signal.decode, unpack, aliveCnt, Signal.raw, EAIT_Control_01.Aliv_Cnt]
  rw [hdecode, pyInt_intCast]

/-- Frame 0x156 has one signal that is named as a counter. -/
theorem decodeSignals_counter (data : Bytes) :
    (decodeSignals EAIT_Control_01.specs data).filter (fun kv => CountsByName kv.1) =
      [("Aliv_Cnt", EAIT_Control_01.Aliv_Cnt.decode data)] := by
  have hnames : EAIT_Control_01.specs.map (fun sig => decide (CountsByName sig.name)) =
      [false, false, false, false, false, true, false, false] := by decide +kernel
  simp only [EAIT_Control_01.specs, List.map_cons, List.map_nil, List.cons.injEq, and_true]
    at hnames
  simp only [decodeSignals, EAIT_Control_01.specs, List.map_cons, List.map_nil, List.filter_cons,
    hnames, Bool.false_eq_true, if_false, if_true, List.filter_nil]

theorem decodedVals_0x156 {db : Database} (hdb : db.HasControl01) {f : RecordedFrame}
    (hid : f.arbitrationId = 0x156) {vals : List (String × ℚ)}
    (h : decodedVals (some db) f = .ok vals) :
    8 ≤ f.data.length ∧ vals = decodeSignals EAIT_Control_01.specs f.data := by
  rw [decodedVals, hid, hdb] at h
  split_ifs at h with hlength
  cases h
  exact ⟨hlength, rfl⟩

/-- The statistics of id 0x156. -/
theorem EaitRx.stats_0x156 {db : Database} {want : Option ℕ} (hdb : db.HasControl01)
    (hwant : want = none ∨ want = some 0x156) {rx : List RecordedFrame} {r : EaitRx}
    (h : after (some db) want rx = .ok r) :
    (r.stats 0x156).Of aliveCnt (rx.filter (·.arbitrationId = 0x156)) := by
  refine stats_after hwant (fun f vals hid hvals => ?_) h
  obtain ⟨-, rfl⟩ := decodedVals_0x156 hdb hid hvals
  exact ⟨_, _, decodeSignals_counter f.data, pyInt_decode_aliveCnt f⟩

/-- A receiver of 0x156 that keeps running has been given full frames, which the recorder keeps. -/
theorem EaitRx.record_filter {db : Database} {want : Option ℕ} (hdb : db.HasControl01)
    (hwant : want = none ∨ want = some 0x156) {rx : List RecordedFrame} {r : EaitRx}
    (h : after (some db) want rx = .ok r) :
    (record rx).filter (·.arbitrationId = 0x156) = rx.filter (·.arbitrationId = 0x156) := by
  rw [record, List.filter_filter]
  refine List.filter_congr fun f hf => ?_
  by_cases hid : f.arbitrationId = 0x156
  · obtain ⟨vals, hvals⟩ := exists_after_iff.1 ⟨r, h⟩ f hf (hid ▸ hwant)
    simp [hid, (decodedVals_0x156 hdb hid hvals).1]
  · simp [hid]

theorem length_gaps (rx : List RecordedFrame) :
    (checkAliveCntContinuous rx).2.length = interruptions rx := by
  rw [checkAliveCntContinuous, ← List.countP_eq_length_filter, consecutivePairs_map,
    List.countP_map, interruptions]
  refine List.countP_congr fun p _ => ?_
  rw [Function.comp_apply, decide_eq_true_iff, decide_eq_true_iff, aliveCnt, aliveCnt]
  show ¬EAIT_Control_01.Aliv_Cnt.raw p.2.data =
    (EAIT_Control_01.Aliv_Cnt.raw p.1.data + 1) % 256 ↔ _
  omega

theorem AliveCounter.update_skips {c : AliveCounter} {last : ℤ} (h : c.last = some last)
    (raw : ℤ) : (c.update raw).1.last = some raw ∧ (c.update raw).1.totalSkips =
      c.totalSkips + if raw = (last + 1) % 256 then 0 else 1 := by
  by_cases hstep : raw = (last + 1) % 256 <;> simp [update, h, hstep]

/-- An `AliveCounter` counts the steps that are not by one. -/
theorem AliveCounter.foldl_update (counts : List ℤ) :
    (counts.foldl (fun c raw => (c.update raw).1) ({} : AliveCounter)).last = counts.getLast? ∧
    (counts.foldl (fun c raw => (c.update raw).1) ({} : AliveCounter)).totalSkips =
      counts.consecutivePairs.countP fun p => p.2 ≠ (p.1 + 1) % 256 := by
  induction counts using List.reverseRecOn with
  | nil => exact ⟨rfl, rfl⟩
  | append_singleton counts raw ih =>
    obtain ⟨hlast, hskips⟩ := ih
    rw [List.foldl_append, List.foldl_cons, List.foldl_nil, List.getLast?_concat]
    rcases h : counts.getLast? with _ | last <;> rw [h] at hlast
    · obtain rfl := List.getLast?_eq_none_iff.1 h
      exact ⟨rfl, rfl⟩
    · obtain ⟨hraw, hcount⟩ := update_skips hlast raw
      refine ⟨hraw, hcount.trans ?_⟩
      rw [consecutivePairs_concat h, List.countP_append, ← hskips]
      by_cases hstep : raw = (last + 1) % 256 <;> simp [hstep]

/-- The three programs have counted `k` interruptions. -/
structure CountInterruptions (r : EaitRx) (rx : List RecordedFrame) (k : ℕ) : Prop where
  eaitRx : (r.stats 0x156).cntSkips = k
  recorder : (checkAliveCntContinuous (record rx)).2.length = k
  aliveCounter : (aliveCounterAfter rx).totalSkips = k

/-- The frames 0x156 of some cycles, received at the times `t`. -/
def GuardRun.frames156 {a : Args} (ρ : GuardRun a) (t : ℕ → ℚ) (cycles : List ℕ) :
    List RecordedFrame :=
  cycles.map fun k => ⟨t k, 0x156, (ρ.sent k).frame156⟩

theorem GuardRun.interruptions_eq {a : Args} {ρ : GuardRun a} {t : ℕ → ℚ} {cycles : List ℕ}
    {rx : List RecordedFrame} (hrx : rx.filter (·.arbitrationId = 0x156) = ρ.frames156 t cycles)
    (hcycles : cycles.IsChain fun i j => i < j ∧ (Finset.Ioo i j).card ≤ 255) :
    interruptions rx = cycles.consecutivePairs.countP fun p => p.2 ≠ p.1 + 1 := by
  rw [interruptions, hrx, frames156, consecutivePairs_map, List.countP_map]
  refine List.countP_congr fun p hp => ?_
  obtain ⟨hlt, hle⟩ := forall_consecutivePairs_iff.2 hcycles p hp
  have hcount (k : ℕ) : aliveCnt ⟨t k, 0x156, (ρ.sent k).frame156⟩ = k % 256 :=
    ρ.alivCnt_frame156 k
  rw [Nat.card_Ioo] at hle
  simp only [Function.comp_apply, Prod.map, hcount, ne_eq, decide_eq_true_eq]
  omega

open GuardRun in
/-- The three programs count the same interruptions, whatever they receive, as long as
`eait_rx.py` keeps running. If what is received comes from the guard, and no 256 frames are lost
in a row, they are where frames were lost. -/
theorem loss_counters_agree {db : Database} {want : Option ℕ} (hdb : db.HasControl01)
    (hwant : want = none ∨ want = some 0x156) {rx : List RecordedFrame} {r : EaitRx}
    (hr : EaitRx.after (some db) want rx = .ok r) :
    CountInterruptions r rx (interruptions rx) ∧
    ∀ {a : Args} {ρ : GuardRun a} {t : ℕ → ℚ} {cycles : List ℕ},
      rx.filter (·.arbitrationId = 0x156) = ρ.frames156 t cycles →
      cycles.IsChain (fun i j => i < j ∧ (Finset.Ioo i j).card ≤ 255) →
        interruptions rx = cycles.consecutivePairs.countP fun p => p.2 ≠ p.1 + 1 := by
  refine ⟨⟨?_, ?_, ?_⟩, interruptions_eq⟩
  · rw [(EaitRx.stats_0x156 hdb hwant hr).cntSkips, interruptions]
    refine List.countP_congr fun p _ => ?_
    have hlt := aliveCnt_mem p.2
    simp only [ne_eq, decide_eq_true_eq]
    omega
  · rw [length_gaps, interruptions, EaitRx.record_filter hdb hwant hr, ← interruptions]
  · rw [aliveCounterAfter, (AliveCounter.foldl_update _).2, consecutivePairs_map,
      List.countP_map]
    rfl

/-- Cycles 0, 1 and 4 are received, and a frame of an id that the DBC file does not have. -/
def lossyFrames : List RecordedFrame :=
  (orphanedRun {}).frames156 (fun k => k / 100) [0, 1] ++ ⟨1 / 50, 0x001, []⟩ ::
    (orphanedRun {}).frames156 (fun k => k / 100) [4]

/-- A database of one message. -/
def control01Database : Database := fun id data =>
  if id = 0x156 then
    if 8 ≤ data.length then .ok (decodeSignals EAIT_Control_01.specs data)
    else .error .decodeError
  else .error .keyError

theorem control01Database_hasControl01 : control01Database.HasControl01 :=
  fun _ => rfl

/-- Frames of the guard and unknown ids keep a receiver running. -/
theorem exists_after_control01Database {want : Option ℕ} {rx : List RecordedFrame}
    (h : ∀ f ∈ rx, f.arbitrationId = 0x156 → 8 ≤ f.data.length) :
    ∃ r, EaitRx.after (some control01Database) want rx = .ok r := by
  refine EaitRx.exists_after_iff.2 fun f hf _ => ?_
  by_cases hid : f.arbitrationId = 0x156
  · exact ⟨_, by simp only [decodedVals, control01Database, if_pos hid, if_pos (h f hf hid)]; rfl⟩
  · exact ⟨_, by simp only [decodedVals, control01Database, if_neg hid]; rfl⟩

theorem loss_counters_agree_lossy :
    ∃ r, EaitRx.after (some control01Database) none lossyFrames = .ok r ∧
      CountInterruptions r lossyFrames (interruptions lossyFrames) ∧
      interruptions lossyFrames = 1 := by
  have hrx : lossyFrames.filter (·.arbitrationId = 0x156) =
      (orphanedRun {}).frames156 (fun k => k / 100) [0, 1, 4] := rfl
  obtain ⟨r, hr⟩ : ∃ r, EaitRx.after (some control01Database) none lossyFrames = .ok r :=
    exists_after_control01Database (by decide +kernel)
  obtain ⟨hcount, hlost⟩ := loss_counters_agree control01Database_hasControl01 (.inl rfl) hr
  exact ⟨r, hr, hcount, (hlost hrx (by decide)).trans rfl⟩

/-! ## Measuring the period -/

/-- What `measure_a3_latency.py` reports of the intervals and of their deviations. -/
structure A3Report where
  mean : ℚ
  min : ℚ
  max : ℚ
  devMean : ℚ
  devMax : ℚ

/-- `min(gaps)` of a list that is not empty. -/
def minGap : List ℚ → ℚ
  | [] => 0
  | gap :: gaps => gaps.foldl min gap

/-- The report of `measure_a3_latency.py`, which fails without an interval. -/
def a3Report (period : ℚ) (frames : List RecordedFrame) : Option A3Report :=
  let gaps := interFrameGaps frames
  let dev := gaps.map fun g => |g - period|
  if gaps = [] then none
  else some
    { mean := gaps.sum / gaps.length
      min := minGap gaps
      max := maxGap gaps
      devMean := dev.sum / dev.length
      devMax := maxGap dev }

section Bounds

variable {l : List ℚ} {a b : ℚ}

theorem foldl_max_le (ha : a ≤ b) (h : ∀ x ∈ l, x ≤ b) : l.foldl max a ≤ b := by
  induction l generalizing a with
  | nil => exact ha
  | cons x l ih =>
    exact ih (max_le ha (h x List.mem_cons_self)) fun y hy => h y (List.mem_cons_of_mem _ hy)

theorem maxGap_le (hne : l ≠ []) (h : ∀ x ∈ l, x ≤ b) : maxGap l ≤ b := by
  obtain ⟨x, l, rfl⟩ := List.exists_cons_of_ne_nil hne
  exact foldl_max_le (h x List.mem_cons_self) fun y hy => h y (List.mem_cons_of_mem _ hy)

theorem le_minGap (hne : l ≠ []) (h : ∀ x ∈ l, b ≤ x) : b ≤ minGap l := by
  obtain ⟨x, l, rfl⟩ := List.exists_cons_of_ne_nil hne
  rw [minGap]
  induction l generalizing x with
  | nil => exact h x List.mem_cons_self
  | cons y l ih =>
    refine ih (min x y) (List.cons_ne_nil _ _) fun z hz => ?_
    rcases List.mem_cons.1 hz with rfl | hz
    · exact le_min (h x (by simp)) (h y (by simp))
    · exact h z (by simp [hz])

theorem mean_le (hne : l ≠ []) (h : ∀ x ∈ l, x ≤ b) : l.sum / l.length ≤ b := by
  have hsum := List.sum_le_card_nsmul l b h
  have hlen : (0 : ℚ) < l.length := Nat.cast_pos.2 (List.length_pos_iff.2 hne)
  rw [nsmul_eq_mul] at hsum
  exact (div_le_iff₀ hlen).2 (by linarith)

end Bounds

namespace ProgramRun

variable {o : Options} (P : ProgramRun o)

theorem worst_nonneg (n : ℕ) : 0 ≤ (P.prog n).total.worst := by
  rw [P.total_eq n]
  rcases Nat.eq_zero_or_pos (P.prog n).begun with hzero | hpos
  · rw [hzero, P.latenessOf_self]
  · obtain ⟨k, -, -, hworst⟩ := P.exists_worst hpos
    exact hworst ▸ P.pace.late_nonneg k

/-- Frames 0x156 of some cycles are received within `d` of the start of their cycle, which the
program has begun when its statistics are as after `n` passes. -/
structure Receives (n : ℕ) (d : ℚ) (t : ℕ → ℚ) (cycles : List ℕ) (rx : List RecordedFrame) :
    Prop where
  delay : 0 ≤ d
  frames : rx.filter (·.arbitrationId = 0x156) = P.guard.frames156 t cycles
  begun : ∀ k ∈ cycles, k < (P.prog n).begun
  now_le : ∀ k ∈ cycles, P.pace.now k ≤ t k
  le_now : ∀ k ∈ cycles, t k ≤ P.pace.now k + d

variable {P} {n : ℕ} {d : ℚ} {t : ℕ → ℚ} {cycles : List ℕ} {rx : List RecordedFrame}

/-- Between the frames of two cycles there is a number of periods, give or take the worst
lateness and the delay. -/
theorem Receives.interval (h : P.Receives n d t cycles rx) {i j : ℕ} (hi : i ∈ cycles)
    (hj : j ∈ cycles) :
    |t j - t i - (j - i) * o.period| ≤ (P.prog n).total.worst + d := by
  have hlate (k : ℕ) (hk : k ∈ cycles) : P.pace.late k ≤ (P.prog n).total.worst := by
    rw [P.total_eq n]
    exact P.late_le_worst k.zero_le (h.begun k hk)
  have hdue (k : ℕ) : P.pace.due k = P.pace.start + k * o.period := by
    rw [Pace.due, P.period_eq]
  have hat (k : ℕ) (hk : k ∈ cycles) : P.pace.start + k * o.period ≤ t k ∧
      t k ≤ P.pace.start + k * o.period + ((P.prog n).total.worst + d) := by
    have hnow := P.pace.due_le_now k
    have hle := hlate k hk
    have h0 := h.now_le k hk
    have h1 := h.le_now k hk
    rw [Pace.late] at hle
    rw [hdue] at hnow hle
    exact ⟨hnow.trans h0, by linarith⟩
  obtain ⟨hi0, hi1⟩ := hat i hi
  obtain ⟨hj0, hj1⟩ := hat j hj
  rw [abs_le]
  constructor <;> linarith

theorem Receives.gaps (h : P.Receives n d t cycles rx) :
    interFrameGaps rx = cycles.consecutivePairs.map fun p => t p.2 - t p.1 := by
  rw [interFrameGaps, h.frames, GuardRun.frames156, List.map_map, consecutivePairs_map,
    List.map_map]
  rfl

/-- Without losses the intervals add up to a period each, give or take as much as one of them. -/
theorem Receives.sum_gaps (h : P.Receives n d t cycles rx)
    (hall : cycles.IsChain fun i j => j = i + 1) (hne : cycles ≠ []) :
    |(interFrameGaps rx).sum - (interFrameGaps rx).length * o.period| ≤
      (P.prog n).total.worst + d := by
  obtain ⟨first, later, rfl⟩ := List.exists_cons_of_ne_nil hne
  have hlast : later.getLastD first = first + later.length := by
    clear h hne
    induction later generalizing first with
    | nil => rfl
    | cons next later ih =>
      obtain ⟨rfl, htail⟩ := List.isChain_cons_cons.1 hall
      rw [List.getLastD_cons, ih _ htail, List.length_cons]
      omega
  have hmem : later.getLastD first ∈ first :: later := List.getLastD_mem_cons
  have hinterval := h.interval List.mem_cons_self hmem
  rw [h.gaps, sum_consecutivePairs t, List.length_map, List.length_zip, List.tail_cons,
    List.length_cons, min_eq_right later.length.le_succ]
  rw [hlast] at hinterval ⊢
  push_cast at hinterval
  rwa [add_sub_cancel_left] at hinterval

/-- The mean of intervals without losses is nearer to the period the more of them there are. -/
theorem Receives.mean_gaps (h : P.Receives n d t cycles rx)
    (hall : cycles.IsChain fun i j => j = i + 1) (hne : interFrameGaps rx ≠ []) :
    |(interFrameGaps rx).sum / (interFrameGaps rx).length - o.period| ≤
      ((P.prog n).total.worst + d) / (interFrameGaps rx).length := by
  have hlen : (0 : ℚ) < (interFrameGaps rx).length := Nat.cast_pos.2 (List.length_pos_iff.2 hne)
  have hcycles : cycles ≠ [] := by
    rintro rfl
    rw [h.gaps] at hne
    exact hne rfl
  have hsum := h.sum_gaps hall hcycles
  rw [le_div_iff₀ hlen, ← abs_of_pos hlen, ← abs_mul, abs_of_pos hlen, sub_mul,
    div_mul_cancel₀ _ hlen.ne', mul_comm o.period]
  exact hsum

/-- What is measured of the frames without knowing the program, within `W` of its period. -/
structure MeasuresPeriod (period W : ℚ) (cycles : List ℕ) (rx : List RecordedFrame) (st : Stats) :
    Prop where
  /-- If no frame is lost, every figure of `measure_a3_latency.py` is within `W` of what it
  should be, and its mean by as much as there are intervals. -/
  a3 : cycles.IsChain (fun i j => j = i + 1) → ∀ r, a3Report period (record rx) = some r →
    |r.mean - period| ≤ W / (interFrameGaps rx).length ∧ period - W ≤ r.min ∧
      r.max ≤ period + W ∧ r.devMean ≤ W ∧ r.devMax ≤ W
  /-- So is the mean of `eait_rx.py`, which is in milliseconds. -/
  avg : cycles.IsChain (fun i j => j = i + 1) → 1 < st.n → |st.avg / 1000 - period| ≤ W / (st.n - 1)
  /-- Its longest interval is within `W` of the cycles that were lost. -/
  dtMax : ∀ L : ℕ, cycles.IsChain (fun i j => i < j ∧ j ≤ i + L) → st.dtMax ≤ L * period + W

end ProgramRun

open ProgramRun in
/-- What is measured outside of the guard is within its own worst lateness, and the delay of the
reception, of the period. -/
theorem measured_periods {o : Options} {P : ProgramRun o} (hperiod : 0 ≤ o.period) {n : ℕ} {d : ℚ}
    {t : ℕ → ℚ} {cycles : List ℕ} {rx : List RecordedFrame} (h : P.Receives n d t cycles rx)
    {db : Database} {want : Option ℕ} (hdb : db.HasControl01)
    (hwant : want = none ∨ want = some 0x156) {r : EaitRx}
    (hr : EaitRx.after (some db) want rx = .ok r) :
    MeasuresPeriod o.period ((P.prog n).total.worst + d) cycles rx (r.stats 0x156) := by
  have hst := EaitRx.stats_0x156 hdb hwant hr
  have hdt : ((rx.filter (·.arbitrationId = 0x156)).consecutivePairs.map fun p =>
      p.2.t - p.1.t) = interFrameGaps rx := by
    rw [interFrameGaps, consecutivePairs_map, List.map_map]
    rfl
  have hdtSum := hdt ▸ hst.dtSum
  have hdtMax := hdt ▸ hst.dtMax
  have hgap : cycles.IsChain (fun i j => j = i + 1) → ∀ gap ∈ interFrameGaps rx,
      |gap - o.period| ≤ (P.prog n).total.worst + d := by
    intro hall gap hmem
    rw [h.gaps] at hmem
    obtain ⟨p, hp, rfl⟩ := List.mem_map.1 hmem
    have hnext := forall_consecutivePairs_iff.2 hall p hp
    obtain ⟨hi, hj⟩ := List.of_mem_zip hp
    have hinterval := h.interval hi (List.mem_of_mem_tail hj)
    rw [hnext] at hinterval ⊢
    push_cast at hinterval
    rwa [add_sub_cancel_left, one_mul] at hinterval
  refine ⟨fun hall report hreport => ?_, fun hall hn => ?_, fun L hchain => ?_⟩
  · rw [a3Report, interFrameGaps, EaitRx.record_filter hdb hwant hr, ← interFrameGaps]
      at hreport
    split_ifs at hreport with hne
    cases hreport
    have hdev : ∀ dev ∈ (interFrameGaps rx).map fun g => |g - o.period|,
        dev ≤ (P.prog n).total.worst + d := by
      intro dev hmem
      obtain ⟨gap, hg, rfl⟩ := List.mem_map.1 hmem
      exact hgap hall gap hg
    have hmap : ((interFrameGaps rx).map fun g => |g - o.period|) ≠ [] :=
      mt List.map_eq_nil_iff.1 hne
    refine ⟨h.mean_gaps hall hne, le_minGap hne fun gap hg => ?_, maxGap_le hne fun gap hg => ?_,
      mean_le hmap hdev, maxGap_le hmap hdev⟩
    · linarith [(abs_le.1 (hgap hall gap hg)).1]
    · linarith [(abs_le.1 (hgap hall gap hg)).2]
  · have hcount : (r.stats 0x156).n = cycles.length := by
      rw [hst.n, h.frames, GuardRun.frames156, List.length_map]
    have hlen : (r.stats 0x156).n =
        (interFrameGaps rx).length + 1 := by
      rw [h.gaps, List.length_map, List.length_zip, List.length_tail]
      omega
    have hne : interFrameGaps rx ≠ [] := by
      rintro hnil
      rw [hlen, hnil] at hn
      exact absurd hn (by decide)
    have hmean := h.mean_gaps hall hne
    rw [Stats.avg, if_pos hn, hdtSum, hlen]
    push_cast
    rwa [add_sub_cancel_right, mul_div_cancel_right₀ _ (by norm_num)]
  · have hlimit : 0 ≤ L * o.period + ((P.prog n).total.worst + d) :=
      add_nonneg (mul_nonneg L.cast_nonneg hperiod) (add_nonneg (P.worst_nonneg n) h.delay)
    rw [hdtMax, h.gaps]
    refine foldl_max_le hlimit fun gap hmem => ?_
    obtain ⟨p, hp, rfl⟩ := List.mem_map.1 hmem
    obtain ⟨hlt, hle⟩ := forall_consecutivePairs_iff.2 hchain p hp
    obtain ⟨hi, hj⟩ := List.of_mem_zip hp
    have hinterval := h.interval hi (List.mem_of_mem_tail hj)
    have hcast : (p.2 : ℚ) - p.1 ≤ L := by
      have : (p.2 : ℚ) ≤ p.1 + L := by exact_mod_cast hle
      linarith
    linarith [(abs_le.1 hinterval).2, mul_le_mul_of_nonneg_right hcast hperiod]

/-- Three frames of a program that is on time, received at once. -/
def punctualFrames : List RecordedFrame :=
  (orphanedProgram {} rfl).guard.frames156 (fun k => k / 100) [0, 1, 2]

open ProgramRun in
theorem measured_periods_punctual :
    (a3Report (1 / 100) (record punctualFrames)).isSome ∧
    ∃ r, EaitRx.after (some control01Database) none punctualFrames = .ok r ∧
      MeasuresPeriod (1 / 100) (((orphanedProgram {} rfl).prog 5).total.worst + 0) [0, 1, 2]
        punctualFrames (r.stats 0x156) := by
  obtain ⟨r, hr⟩ : ∃ r, EaitRx.after (some control01Database) none punctualFrames = .ok r :=
    exists_after_control01Database (by decide +kernel)
  exact ⟨by decide +kernel, r, hr, measured_periods (P := orphanedProgram {} rfl)
    (t := fun k => k / 100) (by decide +kernel)
    ⟨le_rfl, rfl, by decide +kernel, fun k _ => (orphanedProgram_now k).le,
      fun k _ => by rw [orphanedProgram_now, add_zero]⟩
    control01Database_hasControl01 (.inl rfl) hr⟩

end A1Bsw
