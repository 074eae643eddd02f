import A1Bsw.Fifo
import A1Bsw.GuardLoop

/-!
# The age of a speed

The socket queues the received frames, and a cycle takes at most 16 of them.
The guard counts the age of a speed from the cycle that took its frame. So a
frame that waited in the queue is older than the guard believes : on a traffic
the speeds are recent, whatever they are, exactly when no frame 0x711 has
waited so long that this matters (`speeds_recent_iff`).
-/

namespace A1Bsw

/-- The times of the cycles, and the times and identifiers of the frames on the bus. When cycle
`n` drains the socket, `arrivedBy n` frames have arrived. -/
structure Traffic where
  now : ℕ → ℚ
  now_mono : Monotone now
  arbitrationId : ℕ → ℕ
  arrivedAt : ℕ → ℚ
  arrivedAt_mono : Monotone arrivedAt
  arrivedBy : ℕ → ℕ
  arrivedBy_mono : Monotone arrivedBy
  /-- A frame that a cycle can take arrived before the next cycle. -/
  arrived : ∀ {k n}, k < arrivedBy n → arrivedAt k ≤ now (n + 1)
  /-- A frame that arrives before a cycle is there when it drains the socket. -/
  queued : ∀ {k m n}, k < arrivedBy m → arrivedAt k < now n → k < arrivedBy n

namespace Traffic

variable (τ : Traffic)

/-- The number of frames taken before a cycle. -/
def taken : ℕ → ℕ :=
  Fifo.served vsDrainMaxPerCycle τ.arrivedBy

/-- Frame `k` with the given contents of the frames. -/
def frame (data : ℕ → Bytes) (k : ℕ) : Message where
  arbitrationId := τ.arbitrationId k
  data := data k

/-- Cycle `m` takes frame `k`, a frame 0x711, and the cycles up to `n` take no later one. -/
structure LastSpeed (m k n : ℕ) : Prop where
  le : m ≤ n
  taken_le : τ.taken m ≤ k
  lt_taken : k < τ.taken (m + 1)
  arbitrationId : τ.arbitrationId k = frameIdInfoAcc
  last : ∀ j, k < j → j < τ.taken (n + 1) → τ.arbitrationId j ≠ frameIdInfoAcc

/-- In every cycle that counts the last frame 0x711 as recent, the frame is. -/
def TakenInTime : Prop :=
  ∀ m k n, τ.LastSpeed m k n → τ.now n ≤ τ.now m + vsMaxAge → τ.now n ≤ τ.arrivedAt k + vsMaxAge

variable {τ}

theorem taken_mono : Monotone τ.taken :=
  Fifo.served_mono τ.arrivedBy_mono

/-- There is one last frame 0x711, and one cycle takes it. -/
theorem LastSpeed.unique {m k n m' k' : ℕ} (h : τ.LastSpeed m k n) (h' : τ.LastSpeed m' k' n) :
    m = m' ∧ k = k' := by
  have hlt : k < τ.taken (n + 1) := h.lt_taken.trans_le (taken_mono (Nat.succ_le_succ h.le))
  have hlt' : k' < τ.taken (n + 1) := h'.lt_taken.trans_le (taken_mono (Nat.succ_le_succ h'.le))
  obtain rfl : k = k' := by
    rcases lt_trichotomy k k' with hkk | hkk | hkk
    · exact absurd h'.arbitrationId (h.last k' hkk hlt')
    · exact hkk
    · exact absurd h.arbitrationId (h'.last k hkk hlt)
  have hm : m < m' + 1 := taken_mono.reflect_lt (h.taken_le.trans_lt h'.lt_taken)
  have hm' : m' < m + 1 := taken_mono.reflect_lt (h'.taken_le.trans_lt h.lt_taken)
  exact ⟨by omega, rfl⟩

end Traffic

/-- A run of the loop on a traffic whose frames have the contents `data 0`, `data 1` and so on. -/
structure SocketRun (a : Args) (τ : Traffic) extends GuardRun a where
  data : ℕ → Bytes
  now_eq : ∀ n, (input n).now = τ.now n
  rx_eq : ∀ n, (input n).rx =
    (Fifo.waiting vsDrainMaxPerCycle τ.arrivedBy n).map (τ.frame data)

namespace SocketRun

variable {a : Args} {τ : Traffic} (ρ : SocketRun a τ)

/-- Every speed that a cycle passes to `next_state` was carried by a frame 0x711 which arrived
at most `VS_MAX_AGE_S` before. -/
def SpeedsRecent : Prop :=
  ∀ n v, (ρ.observed n).vehicleSpeedKph = some v → ∃ k < τ.arrivedBy n,
    τ.arbitrationId k = frameIdInfoAcc ∧ decodeVsKph (ρ.data k) = v ∧
      τ.now n ≤ τ.arrivedAt k + vsMaxAge

/-- The frames a cycle takes. -/
theorem rx_take (n : ℕ) : (ρ.input n).rx.take vsDrainMaxPerCycle =
    ((Fifo.waiting vsDrainMaxPerCycle τ.arrivedBy n).take vsDrainMaxPerCycle).map
      (τ.frame ρ.data) := by
  rw [ρ.rx_eq, List.map_take]

/-- The last speed and its time come from the last frame 0x711 of the cycle. -/
theorem sense_frame (n : ℕ) :
    (∃ k, τ.LastSpeed n k n ∧ (ρ.sensed n).lastVsKph = some (decodeVsKph (ρ.data k)) ∧
      (ρ.sensed n).lastVsMono = some (τ.now n)) ∨
    ((∀ j, τ.taken n ≤ j → j < τ.taken (n + 1) → τ.arbitrationId j ≠ frameIdInfoAcc) ∧
      (ρ.sensed n).lastVsKph = (ρ.loop n).lastVsKph ∧
      (ρ.sensed n).lastVsMono = (ρ.loop n).lastVsMono) := by
  obtain ⟨before, msg, after, hsplit, hid, hafter, hkph, hmono⟩ | ⟨hnone, hkeep⟩ :=
    (ρ.loop n).sense_speed (ρ.input n)
  · rw [ρ.rx_take, List.map_eq_append_iff] at hsplit
    obtain ⟨before, rest, hwait, -, hrest⟩ := hsplit
    obtain ⟨k, after, rfl, rfl, rfl⟩ := List.map_eq_cons_iff.1 hrest
    obtain ⟨hle, hlt⟩ := (Fifo.mem_take_waiting τ.arrivedBy_mono).1
      (hwait ▸ List.mem_append_right before (List.mem_cons_self ..))
    refine .inl ⟨k, ⟨le_rfl, hle, hlt, hid, fun j hkj hj => ?_⟩, hkph, ?_⟩
    · have hmem := Fifo.mem_of_take_waiting_eq τ.arrivedBy_mono hwait hkj hj
      exact hafter (τ.frame ρ.data j) (List.mem_map_of_mem hmem)
    · rw [← ρ.now_eq]
      exact hmono
  · refine .inr ⟨fun j hle hlt => ?_, hkeep⟩
    have hmem := (Fifo.mem_take_waiting τ.arrivedBy_mono).2 ⟨hle, hlt⟩
    exact hnone (τ.frame ρ.data j) (ρ.rx_take n ▸ List.mem_map_of_mem hmem)

/-- The last speed and its time are those of the last frame 0x711 taken so far. -/
theorem sensed_speed (n : ℕ) :
    (∃ m k, τ.LastSpeed m k n ∧ (ρ.sensed n).lastVsKph = some (decodeVsKph (ρ.data k)) ∧
      (ρ.sensed n).lastVsMono = some (τ.now m)) ∨
    ((∀ j < τ.taken (n + 1), τ.arbitrationId j ≠ frameIdInfoAcc) ∧
      (ρ.sensed n).lastVsMono = none) := by
  induction n with
  | zero =>
    obtain ⟨k, hlast, hspeed⟩ | ⟨hnone, -, hmono⟩ := ρ.sense_frame 0
    · exact .inl ⟨0, k, hlast, hspeed⟩
    · rw [ρ.start] at hmono
      exact .inr ⟨fun j => hnone j (Nat.zero_le j), hmono⟩
  | succ n ih =>
    obtain ⟨k, hlast, hspeed⟩ | ⟨hnone, hkph, hmono⟩ := ρ.sense_frame (n + 1)
    · exact .inl ⟨n + 1, k, hlast, hspeed⟩
    have hkph' : (ρ.sensed (n + 1)).lastVsKph = (ρ.sensed n).lastVsKph := by
      rw [hkph, ρ.loop_succ]
      rfl
    have hmono' : (ρ.sensed (n + 1)).lastVsMono = (ρ.sensed n).lastVsMono := by
      rw [hmono, ρ.loop_succ]
      rfl
    rw [hkph', hmono']
    obtain ⟨m, k, hlast, hspeed⟩ | ⟨hbefore, hempty⟩ := ih
    · refine .inl ⟨m, k, { hlast with le := hlast.le.trans n.le_succ, last := ?_ }, hspeed⟩
      intro j hkj hj
      rcases lt_or_ge j (τ.taken (n + 1)) with hold | hnew
      · exact hlast.last j hkj hold
      · exact hnone j hnew hj
    · refine .inr ⟨fun j hj => ?_, hempty⟩
      rcases lt_or_ge j (τ.taken (n + 1)) with hold | hnew
      · exact hbefore j hold
      · exact hnone j hnew hj

variable {ρ}

/-- A speed that a cycle uses is that of the last frame 0x711, taken at most `VS_MAX_AGE_S`
before. -/
theorem exists_lastSpeed {n : ℕ} {v : ℚ} (h : (ρ.observed n).vehicleSpeedKph = some v) :
    ∃ m k, τ.LastSpeed m k n ∧ decodeVsKph (ρ.data k) = v ∧ τ.now n ≤ τ.now m + vsMaxAge := by
  change (ρ.sensed n).vehicleSpeedKph (ρ.now n) = some v at h
  unfold LoopState.vehicleSpeedKph at h
  obtain ⟨m, k, hlast, hkph, hmono⟩ | ⟨-, hmono⟩ := ρ.sensed_speed n
  · rw [hmono, hkph] at h
    dsimp only at h
    split_ifs at h with hage
    rw [GuardRun.now, ρ.now_eq] at hage
    exact ⟨m, k, hlast, Option.some.inj h, by linarith⟩
  · rw [hmono] at h
    cases h

/-- The speed of the last frame 0x711 is used until `VS_MAX_AGE_S` after it was taken. -/
theorem vehicleSpeedKph_of_lastSpeed {m k n : ℕ} (h : τ.LastSpeed m k n)
    (hage : τ.now n ≤ τ.now m + vsMaxAge) :
    (ρ.observed n).vehicleSpeedKph = some (decodeVsKph (ρ.data k)) := by
  obtain ⟨m', k', hlast, hkph, hmono⟩ | ⟨hnone, -⟩ := ρ.sensed_speed n
  · obtain ⟨rfl, rfl⟩ := h.unique hlast
    show (ρ.sensed n).vehicleSpeedKph (ρ.now n) = _
    unfold LoopState.vehicleSpeedKph
    rw [hmono]
    dsimp only
    rw [GuardRun.now, ρ.now_eq, if_pos (by linarith), hkph]
  · have hlt := h.lt_taken.trans_le (Traffic.taken_mono (Nat.succ_le_succ h.le))
    exact absurd h.arbitrationId (hnone k hlt)

/-- A run on the traffic with the given contents and no commands. -/
def ofData (a : Args) (τ : Traffic) (data : ℕ → Bytes) : SocketRun a τ where
  toGuardRun := .ofInputs a (fun n =>
    { now := τ.now n
      rx := (Fifo.waiting vsDrainMaxPerCycle τ.arrivedBy n).map (τ.frame data) }) τ.now_mono
  data := data
  now_eq _ := rfl
  rx_eq _ := rfl

end SocketRun

/-- Contents in which frame `k` says 1 km/h and every other frame 0 km/h. -/
def movingIn (k j : ℕ) : Bytes :=
  [0, 0, if j = k then 1 else 0, 0, 0, 0, 0, 0]

theorem decodeVsKph_movingIn (k j : ℕ) :
    decodeVsKph (movingIn k j) = if j = k then 1 else 0 := by
  by_cases hj : j = k <;> simp only [movingIn, hj, if_true, if_false] <;> decide +kernel

/-- On a traffic the speeds are recent, whatever they are, exactly when every frame 0x711 is
taken in time. -/
theorem speeds_recent_iff (a : Args) (τ : Traffic) :
    (∀ ρ : SocketRun a τ, ρ.SpeedsRecent) ↔ τ.TakenInTime := by
  constructor
  · intro hall m k n hlast hage
    have hspeed := SocketRun.vehicleSpeedKph_of_lastSpeed (ρ := .ofData a τ (movingIn k)) hlast hage
    obtain ⟨j, -, -, hsame, hrecent⟩ := hall (.ofData a τ (movingIn k)) n _ hspeed
    change decodeVsKph (movingIn k j) = decodeVsKph (movingIn k k) at hsame
    rw [decodeVsKph_movingIn, decodeVsKph_movingIn, if_pos rfl] at hsame
    obtain rfl : j = k := by
      by_contra hj
      rw [if_neg hj] at hsame
      exact absurd hsame zero_ne_one
    exact hrecent
  · intro htime ρ n v hv
    obtain ⟨m, k, hlast, hkph, hage⟩ := SocketRun.exists_lastSpeed hv
    have harrived : τ.taken (m + 1) ≤ τ.arrivedBy m := min_le_left _ _
    have hlt : k < τ.arrivedBy n :=
      (hlast.lt_taken.trans_le harrived).trans_le (τ.arrivedBy_mono hlast.le)
    exact ⟨k, hlt, hlast.arbitrationId, hkph, htime m k n hlast hage⟩

/-- 1632 frames arrive before the first of the cycles, which come every 10 ms. The last of them
is a frame 0x711. -/
def burst : Traffic where
  now n := n / 100
  now_mono := GuardRun.monotone_tick
  arbitrationId k := if k = 1631 then 0x711 else 0x712
  arrivedAt _ := 0
  arrivedAt_mono := monotone_const
  arrivedBy _ := 1632
  arrivedBy_mono := monotone_const
  arrived {_ n} _ := by positivity
  queued h _ := h

theorem burst_lastSpeed : burst.LastSpeed 101 1631 200 where
  le := by decide
  taken_le := by decide +kernel
  lt_taken := by decide +kernel
  arbitrationId := rfl
  last j hj hlt := by
    have hle : burst.taken (200 + 1) ≤ 1632 := Fifo.served_le_arrivedBy burst.arrivedBy_mono 201
    omega

/-- Every frame of the burst is filled with zeros. -/
def burstRun : SocketRun {} burst :=
  .ofData {} burst fun _ => List.replicate 8 0

/-- The last frame of the burst, which says that the vehicle stands still, is taken in cycle 101
and used two seconds after it arrived. -/
theorem burst_not_recent :
    (burstRun.observed 200).vehicleSpeedKph = some 0 ∧ ¬burstRun.SpeedsRecent := by
  have hspeed : (burstRun.observed 200).vehicleSpeedKph = some 0 :=
    (SocketRun.vehicleSpeedKph_of_lastSpeed burst_lastSpeed (by decide +kernel)).trans
      (by decide +kernel)
  refine ⟨hspeed, fun h => ?_⟩
  obtain ⟨k, -, -, -, hrecent⟩ := h 200 0 hspeed
  revert hrecent
  show ¬((200 : ℕ) : ℚ) / 100 ≤ 0 + vsMaxAge
  decide +kernel

end A1Bsw
