import A1Bsw.AliveCounter

/-!
# From the socket to the status messages

`can_raw_bridge.py` turns each received frame into a `CanFrame` of eight data
bytes, and four nodes decode one identifier each. The nodes share their
checks (`Decoder.onFrame`) : they look at the identifier and at the length
code only, and the bridge drops the remote flag. So a node takes any frame
that claims eight bytes for one that has them (`genuine_only_iff`).

The guard reads the vehicle speed from the same frames without the length
check (`readers_agree_iff`).

Times of frames are seconds, and the fields of a status message are its
values before serialisation.
-/

namespace A1Bsw

/-! ## The bridge -/

/-- A frame as the CAN library delivers it. -/
structure CanMessage extends Message where
  timestamp : ℚ := 0
  dlc : Option ℕ
  isExtendedId : Bool := false
  isErrorFrame : Bool := false
  isRemoteFrame : Bool := false

/-- `builtin_interfaces/Time`. -/
structure Time where
  sec : ℤ := 0
  nanosec : ℤ := 0

/-- `std_msgs/Header`. -/
structure Header where
  stamp : Time := {}
  frameId : String := ""

/-- `a1_can_msgs/CanFrame`. -/
structure CanFrame where
  header : Header
  id : ℕ
  dlc : ℕ
  data : Bytes
  isExtended : Bool
  isError : Bool

/-- `int(x)`. -/
def pyInt (x : ℚ) : ℤ :=
  x.num.tdiv x.den

/-- `_stamp_from`. -/
def stampFrom (canTs : ℚ) : Time where
  sec := pyInt canTs
  nanosec := roundHalfEven ((canTs - pyInt canTs) * 10 ^ 9)

namespace CanMessage

variable (msg : CanMessage)

/-- `msg.dlc if msg.dlc is not None else len(msg.data)`. -/
def claimedDlc : ℕ :=
  msg.dlc.getD msg.data.length

/-- What `spin_recv` publishes for a received frame. -/
def toFrame : CanFrame where
  header := { stamp := stampFrom msg.timestamp, frameId := "can" }
  id := msg.arbitrationId
  dlc := msg.claimedDlc
  data := (msg.data ++ List.replicate 8 0).take 8
  isExtended := msg.isExtendedId
  isError := msg.isErrorFrame

/-- A data frame with a standard identifier and at least eight bytes. -/
def Genuine (frameId : ℕ) : Prop :=
  msg.arbitrationId = frameId ∧ msg.isExtendedId = false ∧ msg.isRemoteFrame = false ∧
    msg.isErrorFrame = false ∧ 8 ≤ msg.data.length

instance (frameId : ℕ) : Decidable (msg.Genuine frameId) :=
  inferInstanceAs (Decidable (_ ∧ _))

/-- A frame of the identifier that claims eight bytes has a standard identifier, carries data
and has the bytes. A frame that claims fewer lacks one of the three. -/
def Recognizable (frameId : ℕ) : Prop :=
  msg.arbitrationId = frameId →
    if 8 ≤ msg.claimedDlc then
      msg.isExtendedId = false ∧ msg.isRemoteFrame = false ∧ msg.isErrorFrame = false ∧
        8 ≤ msg.data.length
    else
      msg.isExtendedId ∨ msg.isRemoteFrame ∨ msg.isErrorFrame ∨ msg.data.length < 8

end CanMessage

/-! ## The decoders -/

/-- What a node does with a frame : its state after it, the message it publishes, and the
warnings it logs. -/
structure Handled (σ τ : Type) where
  state : σ
  published : Option τ := none
  warnings : List String := []

/-- A node that decodes one identifier. `accept` is the part of `_on_frame` after its checks. -/
structure Decoder (σ τ : Type) where
  frameId : ℕ
  name : String
  accept : σ → CanFrame → Handled σ τ

/-- `_on_frame`. -/
def Decoder.onFrame {σ τ : Type} (d : Decoder σ τ) (s : σ) (frame : CanFrame) : Handled σ τ :=
  if frame.id ≠ d.frameId then { state := s }
  else if frame.dlc < 8 then
    let dlc := frame.dlc
    { state := s, warnings := [d.name ++ s!" DLC 부족: {dlc} (무시)"] }
  else d.accept s frame

/-- The state of a node without an alive counter : `_n`. -/
abbrev PlainNode := ℕ

/-- The state of a node with an alive counter. -/
structure AliveNode where
  alive : AliveCounter := {}
  n : ℕ := 0

/-- A node that publishes what it decodes, with the header of the frame. -/
def plainDecoder {τ : Type} (frameId : ℕ) (name : String) (decode : Bytes → τ)
    (withHeader : τ → Header → τ) : Decoder PlainNode τ where
  frameId := frameId
  name := name
  accept n frame :=
    { state := n + 1, published := some (withHeader (decode frame.data) frame.header) }

/-- A node that also follows the alive counter of its frames. -/
def aliveDecoder {τ : Type} (frameId : ℕ) (name : String) (decode : Bytes → τ)
    (aliveCnt : τ → ℕ) (withHeader : τ → Header → Bool → τ) : Decoder AliveNode τ where
  frameId := frameId
  name := name
  accept s frame :=
    let out := decode frame.data
    let (alive, aliveOk, gap) := s.alive.update (aliveCnt out)
    -- `update` has just remembered the count as the last one.
    let last := aliveCnt out
    { state := { alive, n := s.n + 1 }
      published := some (withHeader out frame.header aliveOk)
      warnings :=
        if aliveOk then [] else [name ++ s!" Alive_Cnt {gap}건 건너뜀 (last={last})"] }

/-- `struct.unpack_from('<H', data, i)`. -/
def unpackUInt16 (data : Bytes) (i : ℕ) : ℕ :=
  intFromBytes ((data.drop i).take 2)

/-- `struct.unpack_from('<h', data, i)`. -/
def unpackInt16 (data : Bytes) (i : ℕ) : ℤ :=
  let n := unpackUInt16 data i
  if n < 2 ^ 15 then n else n - 2 ^ 16

/-! ### EAIT_INFO_EPS -/

/-- `a1_can_msgs/EpsStatus`. -/
structure EpsStatus where
  header : Header := {}
  en : Bool
  controlBoardStatus : ℕ
  userCanErr : Bool
  err : Bool
  vehCanErr : Bool
  sasErr : Bool
  controlStatus : ℕ
  ignoreOverride : Bool
  override : Bool
  strAng : ℚ
  strDrvTq : ℚ
  strOutTq : ℚ
  aliveCnt : ℕ
  aliveOk : Bool := false

/-- `decode_eps`. -/
def decodeEps (d : Bytes) : EpsStatus where
  en := unpackRaw d 0 1 != 0
  controlBoardStatus := unpackRaw d 1 3
  userCanErr := unpackRaw d 4 1 != 0
  err := unpackRaw d 5 1 != 0
  vehCanErr := unpackRaw d 6 1 != 0
  sasErr := unpackRaw d 7 1 != 0
  controlStatus := unpackRaw d 8 4
  ignoreOverride := unpackRaw d 12 1 != 0
  override := unpackRaw d 13 1 != 0
  strAng := unpack d 16 16 true (1 / 10)
  strDrvTq := unpack d 32 12 false (1 / 100) (-2048 / 100)
  strOutTq := unpack d 44 12 false (1 / 10) (-2048 / 10)
  aliveCnt := unpackRaw d 56 8

/-- `EpsDecoder`. -/
def epsDecoder : Decoder AliveNode EpsStatus :=
  aliveDecoder 0x710 "EAIT_INFO_EPS" decodeEps EpsStatus.aliveCnt fun out header aliveOk =>
    { out with header, aliveOk }

/-! ### EAIT_INFO_ACC -/

/-- `a1_can_msgs/AccStatus`. -/
structure AccStatus where
  header : Header := {}
  en : Bool
  controlBoardStatus : ℕ
  userCanErr : Bool
  vehErr : Bool
  err : Bool
  controlStatus : ℕ
  vs : ℚ
  longAccel : ℚ
  turnRightEn : Bool
  hazardEn : Bool
  turnLeftEn : Bool
  gearSel : ℕ
  aliveCnt : ℕ
  aliveOk : Bool := false

/-- `decode_acc`. -/
def decodeAcc (d : Bytes) : AccStatus where
  en := unpackRaw d 0 1 != 0
  controlBoardStatus := unpackRaw d 1 3
  userCanErr := unpackRaw d 4 1 != 0
  vehErr := unpackRaw d 6 1 != 0
  err := unpackRaw d 7 1 != 0
  controlStatus := unpackRaw d 8 4
  vs := unpack d 16 8
  longAccel := unpack d 32 11 false (1 / 100) (-1023 / 100)
  turnRightEn := unpackRaw d 48 1 != 0
  hazardEn := unpackRaw d 49 1 != 0
  turnLeftEn := unpackRaw d 50 1 != 0
  gearSel := unpackRaw d 52 4
  aliveCnt := unpackRaw d 56 8

/-- `AccDecoder`. -/
def accDecoder : Decoder AliveNode AccStatus :=
  aliveDecoder 0x711 "EAIT_INFO_ACC" decodeAcc AccStatus.aliveCnt fun out header aliveOk =>
    { out with header, aliveOk }

/-! ### EAIT_INFO_SPD -/

/-- `a1_can_msgs/WheelSpeeds`. -/
structure WheelSpeeds where
  header : Header := {}
  fr : ℚ
  fl : ℚ
  rr : ℚ
  rl : ℚ

/-- `SCALE` of `spd_decoder.py`. -/
def spdScale : ℚ := 1 / 32

/-- `decode_spd`. -/
def decodeSpd (data8 : Bytes) : WheelSpeeds where
  fr := unpackUInt16 data8 0 * spdScale
  fl := unpackUInt16 data8 2 * spdScale
  rr := unpackUInt16 data8 4 * spdScale
  rl := unpackUInt16 data8 6 * spdScale

/-- `SpdDecoder`. -/
def spdDecoder : Decoder PlainNode WheelSpeeds :=
  plainDecoder 0x712 "EAIT_INFO_SPD" decodeSpd fun out header => { out with header }

/-! ### EAIT_INFO_IMU -/

/-- `a1_can_msgs/ImuStatus`. -/
structure ImuStatus where
  header : Header := {}
  latAccel : ℚ
  longAccel : ℚ
  yawRate : ℚ
  brkCylinder : ℚ

/-- `decode_imu`. -/
def decodeImu (data8 : Bytes) : ImuStatus where
  latAccel := unpackInt16 data8 0 * (1 / 100) - 1023 / 100
  longAccel := unpackUInt16 data8 2 * (1 / 100) - 1023 / 100
  yawRate := unpackInt16 data8 4 * (1 / 100) - 4095 / 100
  brkCylinder := unpackUInt16 data8 6 * (1 / 10)

/-- `ImuDecoder`. -/
def imuDecoder : Decoder PlainNode ImuStatus :=
  plainDecoder 0x713 "EAIT_INFO_IMU" decodeImu fun out header => { out with header }

/-! ## Which frames become messages -/

namespace Decoder

variable {σ τ : Type} {d : Decoder σ τ} {s : σ} {msg : CanMessage}

/-- A frame that passes both checks is accepted. -/
theorem onFrame_of_taken (hid : msg.arbitrationId = d.frameId) (hdlc : 8 ≤ msg.claimedDlc) :
    d.onFrame s msg.toFrame = d.accept s msg.toFrame := by
  have hid' : ¬msg.toFrame.id ≠ d.frameId := not_not.2 hid
  have hdlc' : ¬msg.toFrame.dlc < 8 := hdlc.not_gt
  rw [onFrame, if_neg hid', if_neg hdlc']

/-- Every other frame leaves the state and publishes nothing. -/
theorem onFrame_of_not_taken (h : ¬(msg.arbitrationId = d.frameId ∧ 8 ≤ msg.claimedDlc)) :
    (d.onFrame s msg.toFrame).state = s ∧ (d.onFrame s msg.toFrame).published = none := by
  have hcases : msg.toFrame.id ≠ d.frameId ∨ msg.toFrame.dlc < 8 := by
    rw [← not_le]
    exact not_and_or.1 h
  unfold onFrame
  split_ifs with hid hdlc
  · exact ⟨rfl, rfl⟩
  · exact ⟨rfl, rfl⟩
  · exact absurd hcases (not_or.2 ⟨hid, hdlc⟩)

variable (d s msg) in
/-- The node publishes and counts the frame exactly if it is genuine, and otherwise does
nothing. -/
structure Honest (count : σ → ℕ) : Prop where
  published : (d.onFrame s msg.toFrame).published.isSome ↔ msg.Genuine d.frameId
  counted : count (d.onFrame s msg.toFrame).state = count s + 1 ↔ msg.Genuine d.frameId
  ignored : ¬msg.Genuine d.frameId → (d.onFrame s msg.toFrame).state = s ∧
    (d.onFrame s msg.toFrame).published = none

theorem recognizable_iff : msg.Recognizable d.frameId ↔
    (msg.arbitrationId = d.frameId ∧ 8 ≤ msg.claimedDlc ↔ msg.Genuine d.frameId) := by
  unfold CanMessage.Recognizable CanMessage.Genuine
  by_cases hid : msg.arbitrationId = d.frameId
  · by_cases hdlc : 8 ≤ msg.claimedDlc
    · simp [hid, hdlc]
    · simp only [hid, hdlc, forall_true_left, if_false, and_false, true_and, false_iff, not_and_or,
        not_le, Bool.not_eq_false]
  · simp [hid]

/-- A node whose accepted frames are published and counted is honest about a frame exactly when
it is recognizable. -/
theorem honest_iff {count : σ → ℕ}
    (haccept : ∀ s frame, (d.accept s frame).published.isSome ∧
      count (d.accept s frame).state = count s + 1) :
    d.Honest s msg count ↔ msg.Recognizable d.frameId := by
  rw [recognizable_iff]
  by_cases htaken : msg.arbitrationId = d.frameId ∧ 8 ≤ msg.claimedDlc
  · obtain ⟨hpub, hcount⟩ := haccept s msg.toFrame
    rw [← onFrame_of_taken htaken.1 htaken.2] at hpub hcount
    constructor
    · intro h
      exact iff_of_true htaken (h.published.1 hpub)
    · intro h
      have hgen := h.1 htaken
      exact ⟨iff_of_true hpub hgen, iff_of_true hcount hgen, fun hng => absurd hgen hng⟩
  · obtain ⟨hstate, hpub⟩ := onFrame_of_not_taken (s := s) htaken
    constructor
    · intro h
      refine iff_of_false htaken fun hgen => ?_
      have hsome := h.published.2 hgen
      rw [hpub] at hsome
      cases hsome
    · intro h
      have hng := mt h.2 htaken
      refine ⟨iff_of_false (by simp [hpub]) hng, iff_of_false (by simp [hstate]) hng,
        fun _ => ⟨hstate, hpub⟩⟩

end Decoder

/-- Each of the four nodes is honest about a frame exactly when it is recognizable. -/
theorem genuine_only_iff (msg : CanMessage) :
    (∀ s, epsDecoder.Honest s msg (·.alive.frames) ↔ msg.Recognizable 0x710) ∧
    (∀ s, accDecoder.Honest s msg (·.alive.frames) ↔ msg.Recognizable 0x711) ∧
    (∀ s, spdDecoder.Honest s msg id ↔ msg.Recognizable 0x712) ∧
    (∀ s, imuDecoder.Honest s msg id ↔ msg.Recognizable 0x713) := by
  refine ⟨fun s => ?_, fun s => ?_, fun s => ?_, fun s => ?_⟩
  · exact Decoder.honest_iff fun s frame => ⟨rfl, AliveCounter.frames_update _ _⟩
  · exact Decoder.honest_iff fun s frame => ⟨rfl, AliveCounter.frames_update _ _⟩
  · exact Decoder.honest_iff fun s frame => ⟨rfl, rfl⟩
  · exact Decoder.honest_iff fun s frame => ⟨rfl, rfl⟩

/-- A remote frame that asks for EAIT_INFO_ACC. -/
def remoteRequest : CanMessage where
  arbitrationId := 0x711
  data := []
  dlc := some 8
  isRemoteFrame := true

/-- The node publishes a standstill and counts a frame. -/
theorem remote_not_honest :
    (accDecoder.onFrame {} remoteRequest.toFrame).published.map AccStatus.vs = some 0 ∧
      (accDecoder.onFrame {} remoteRequest.toFrame).state.alive.frames = 1 ∧
      ¬accDecoder.Honest {} remoteRequest (·.alive.frames) := by
  refine ⟨by decide +kernel, by decide +kernel, fun h => ?_⟩
  have hgen := h.published.1 (by decide +kernel)
  revert hgen
  decide

/-! ## The two readers of the vehicle speed -/

/-- Zero bytes at the end do not change the integer of a payload. -/
theorem intFromBytes_append_replicate (data : Bytes) (k : ℕ) :
    intFromBytes (data ++ List.replicate k 0) = intFromBytes data := by
  have hzero : intFromBytes (List.replicate k 0) = 0 := by
    induction k with
    | zero => rfl
    | succ k ih => simp [List.replicate_succ, intFromBytes, ih]
  rw [intFromBytes_append, hzero, mul_zero, add_zero]

/-- The padded payload is the payload cut to eight bytes, and zeros after it. -/
theorem toFrame_data (msg : CanMessage) : ∃ k, msg.toFrame.data =
    msg.data.take 8 ++ List.replicate k 0 := by
  refine ⟨8 - msg.data.length, ?_⟩
  rw [CanMessage.toFrame, List.take_append, List.take_replicate, min_eq_left (Nat.sub_le 8 _)]

/-- The speed of the guard is the one of `decode_acc`. -/
theorem decodeVsKph_eq (msg : CanMessage) :
    decodeVsKph msg.data = (decodeAcc msg.toFrame.data).vs := by
  obtain ⟨k, hdata⟩ := toFrame_data msg
  have hraw : unpackRaw msg.toFrame.data 16 8 =
      (intFromBytes (msg.data.take 8) >>> 16) &&& 0xFF := by
    rw [unpackRaw, hdata, intFromBytes_append_replicate]
    rfl
  simp only [decodeVsKph, decodeAcc, unpack, hraw, Bool.false_and, Bool.false_eq_true, if_false,
    Int.cast_natCast, mul_one, add_zero]

/-- The guard records the speed of a frame at the time it reads it exactly if the node publishes
a status, and that status has the speed. Otherwise the guard changes nothing. -/
def ReadersAgree (s : LoopState) (now : ℚ) (node : AliveNode) (msg : CanMessage) : Prop :=
  match (accDecoder.onFrame node msg.toFrame).published with
  | some status =>
    (s.recv now msg.toMessage).lastVsKph = some status.vs ∧
      (s.recv now msg.toMessage).lastVsMono = some now
  | none => s.recv now msg.toMessage = s

/-- The readers agree on a frame in every state exactly when it has another identifier or claims
eight bytes. -/
theorem readers_agree_iff (msg : CanMessage) :
    (∀ s now node, ReadersAgree s now node msg) ↔
      msg.arbitrationId ≠ frameIdInfoAcc ∨ 8 ≤ msg.claimedDlc := by
  have hrecv : ∀ (s : LoopState) now, msg.arbitrationId = frameIdInfoAcc →
      s.recv now msg.toMessage =
        { s with lastVsKph := some (decodeVsKph msg.data), lastVsMono := some now } :=
    fun s now hid => if_pos hid
  constructor
  · intro hagree
    by_contra hshort
    rw [not_or, not_not] at hshort
    obtain ⟨hid, hdlc⟩ := hshort
    have hnone := hagree (.init {}) 0 {}
    rw [ReadersAgree, (Decoder.onFrame_of_not_taken fun h => hdlc h.2).2, hrecv _ _ hid] at hnone
    cases congrArg LoopState.lastVsMono hnone
  · intro h s now node
    by_cases hid : msg.arbitrationId = frameIdInfoAcc
    · have htaken := Decoder.onFrame_of_taken (d := accDecoder) (s := node) hid
        (h.resolve_left (not_not.2 hid))
      rw [ReadersAgree, htaken, hrecv _ _ hid, decodeVsKph_eq]
      exact ⟨rfl, rfl⟩
    · have hother : s.recv now msg.toMessage = s := if_neg hid
      rwa [ReadersAgree, (Decoder.onFrame_of_not_taken fun h => hid h.1).2]

/-- A frame of two zero bytes. -/
def shortFrame : CanMessage where
  arbitrationId := 0x711
  data := [0, 0]
  dlc := some 2

/-- The node ignores the frame, and the guard records a standstill. -/
theorem short_frame_recorded :
    (accDecoder.onFrame {} shortFrame.toFrame).published.isNone ∧
      ((LoopState.init {}).recv 0 shortFrame.toMessage).lastVsKph = some 0 ∧
      ¬∀ s now node, ReadersAgree s now node shortFrame := by
  refine ⟨by decide +kernel, by decide +kernel, fun h => ?_⟩
  have hmono := congrArg LoopState.lastVsMono (show _ = _ from h (.init {}) 0 {})
  cases hmono

end A1Bsw
