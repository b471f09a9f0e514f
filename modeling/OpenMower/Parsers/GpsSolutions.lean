import OpenMower.Drivers.NavPvt
import OpenMower.Library.Crc
import OpenMower.Library.Fletcher
import OpenMower.Library.WordMask
import OpenMower.Parsers.UbxFraming

/-!
# What the u-blox driver reports

A receiver sends solutions and other messages, and some of the frames are damaged on the way. The
checksum is Fletcher's, so that a frame in which up to two neighbouring bytes have been changed is
not taken for an intact one. What is left of the stream are the solutions of the intact frames:
those that the receiver marks as usable are reported, each once and in order, with nothing of the
solutions before (`gps_reports_solutions`).
-/

namespace OpenMower

open LittleEndian WordMask

/-! ### Messages -/

namespace UbxNavPvt

theorem length_payload (msg : UbxNavPvt) : msg.payload.length = size := length_pack _

/-- **A solution is read back.** -/
theorem ofBytes_payload (msg : UbxNavPvt) : ofBytes msg.payload = msg := by
  have hrange : ∀ field ∈ widths.zip msg.values, field.2 < 256 ^ field.1 := by
    have hlt : ∀ {w : ℕ} (x : BitVec w), x.toNat < 2 ^ w := fun x => x.isLt
    simp only [widths, values, List.zip_cons_cons, List.zip_nil_right, List.forall_mem_cons,
      List.not_mem_nil, false_imp_iff, implies_true, and_true]
    refine ⟨hlt _, hlt _, hlt _, hlt _, hlt _, hlt _, hlt _, hlt _, hlt _, hlt _, hlt _, hlt _,
      hlt _, hlt _, hlt _, hlt _, hlt _, hlt _, hlt _, hlt _, hlt _, hlt _, hlt _, hlt _, hlt _,
      hlt _, hlt _, hlt _, hlt _, hlt _, hlt _, hlt _, hlt _⟩
  have hlen : widths.length = msg.values.length := rfl
  have hunpack : unpack widths (msg.payload ++ []) = msg.values := unpack_pack_zip hlen hrange []
  rw [List.append_nil] at hunpack
  simp only [ofBytes, hunpack, values, List.getD_cons_zero, List.getD_cons_succ,
    BitVec.ofNat_toNat, BitVec.setWidth_eq]

/-- The receiver has a fix, and the position is valid. -/
def Usable (msg : UbxNavPvt) : Prop :=
  msg.flags.getLsbD 0 = true ∧ msg.flags3.getLsbD 0 = false

instance (msg : UbxNavPvt) : Decidable msg.Usable := inferInstanceAs (Decidable (_ ∧ _))

end UbxNavPvt

/-- The heading, in multiples of π counterclockwise from the east, is that of the message, in
`1e-5` degrees clockwise from the north. -/
def IsHeading (head : BitVec 32) (heading : ℚ) : Prop :=
  (0 ≤ heading ∧ heading < 2) ∧ ∃ turns : ℤ, heading = 1 / 2 - head.toInt / 18000000 + 2 * turns

/-- The fix that a type in a message stands for. -/
def fixTypeOf : ℕ → GpsFixType
  | 1 => .drOnly
  | 2 => .fix2d
  | 3 => .fix3d
  | 4 => .gnssDrCombined
  | _ => .noFix

/-- What the two bits of the carrier solution stand for. -/
def rtkTypeOf : Bool → Bool → RtkType
  | false, true => .rtkFloat
  | true, false => .rtkFix
  | _, _ => .rtkNone

/-- The state says what the message says. -/
structure Reports (msg : UbxNavPvt) (state : GpsState) : Prop where
  time : state.sensorTime = msg.iTOW ∧ state.receivedTime = 0#32
  position : state.positionValid = true ∧ state.posLat * 10 ^ 7 = msg.lat.toInt ∧
    state.posLon * 10 ^ 7 = msg.lon.toInt ∧ state.posHeight * 10 ^ 3 = msg.hMSL.toInt
  positionAccuracy : state.positionHAccuracy * 10 ^ 3 = msg.hAcc.toNat ∧
    state.positionVAccuracy * 10 ^ 3 = msg.vAcc.toNat
  velocity : state.velE * 10 ^ 3 = msg.velE.toInt ∧ state.velN * 10 ^ 3 = msg.velN.toInt ∧
    state.velU * 10 ^ 3 = (-msg.velD).toInt
  motion : state.motionHeadingValid = true ∧ IsHeading msg.headMot state.motionHeading
  vehicle : state.vehicleHeadingValid = msg.flags.getLsbD 5 ∧
    IsHeading msg.headVeh state.vehicleHeading
  headingAccuracy : state.motionHeadingAccuracy * 18000000 = msg.headAcc.toNat ∧
    state.vehicleHeadingAccuracy = state.motionHeadingAccuracy
  fixType : state.fixType = fixTypeOf msg.fixType.toNat
  rtkType : state.rtkType = if msg.flags.getLsbD 1 then
    rtkTypeOf (msg.flags.getLsbD 7) (msg.flags.getLsbD 6) else .rtkNone
  satellites : state.numSv = msg.numSV

/-! ### Headings -/

/-- What `fmod` leaves. -/
theorem fmod_spec (x : ℚ) {y : ℚ} (hy : 0 < y) :
    |fmod x y| < y ∧ ∃ k : ℤ, fmod x y = x + y * k := by
  have hquot : x = y * (x / y) := by
    rw [mul_div_cancel₀ x hy.ne']
  rw [fmod]
  split
  · refine ⟨?_, -⌊x / y⌋, by push_cast; ring⟩
    have hfract : x - y * ⌊x / y⌋ = y * Int.fract (x / y) := by
      rw [Int.fract, mul_sub, ← hquot]
    rw [hfract, abs_of_nonneg (mul_nonneg hy.le (Int.fract_nonneg _))]
    exact mul_lt_of_lt_one_right hy (Int.fract_lt_one _)
  · refine ⟨?_, -⌈x / y⌉, by push_cast; ring⟩
    have hle := Int.le_ceil (x / y)
    have hlt := Int.ceil_lt_add_one (x / y)
    have hdiff : x - y * ⌈x / y⌉ = -(y * (⌈x / y⌉ - x / y)) := by
      rw [mul_sub, ← hquot, neg_sub]
    rw [hdiff, abs_neg, abs_of_nonneg (mul_nonneg hy.le (by linarith))]
    exact mul_lt_of_lt_one_right hy (by linarith)

/-- The loop adds whole turns until the heading is not negative. -/
theorem addTurns_spec {x : ℚ} (hx : x < 2) :
    (0 ≤ addTurns x ∧ addTurns x < 2) ∧ ∃ k : ℤ, addTurns x = x + 2 * k := by
  induction x using addTurns.induct with
  | case1 x hneg ih =>
    obtain ⟨hrange, k, hk⟩ := ih (by linarith)
    rw [addTurns, if_pos hneg]
    exact ⟨hrange, k + 1, by rw [hk]; push_cast; ring⟩
  | case2 x hpos =>
    rw [addTurns, if_neg hpos]
    exact ⟨⟨not_lt.mp hpos, hx⟩, 0, by simp⟩

theorem isHeading_toHeading (head : BitVec 32) : IsHeading head (toHeading head) := by
  obtain ⟨hlt, k, hk⟩ :=
    fmod_spec (-((head.toInt : ℚ) / 100000) * (1 / 180) + 1 / 2) (show (0 : ℚ) < 2 by norm_num)
  obtain ⟨hrange, turns, hturns⟩ := addTurns_spec (abs_lt.mp hlt).2
  refine ⟨hrange, k + turns, ?_⟩
  rw [toHeading, hturns, hk]
  push_cast
  ring

/-! ### The driver -/

/-- The two bits of the carrier solution. -/
theorem rtkType_eq (flags : Byte) :
    (if (flags &&& 0b11000000#8) >>> 6 = 1#8 then RtkType.rtkFloat
      else if (flags &&& 0b11000000#8) >>> 6 = 2#8 then .rtkFix
      else .rtkNone) = rtkTypeOf (flags.getLsbD 7) (flags.getLsbD 6) := by
  have hall : ∀ i : Fin 256, let flags : Byte := .ofFin i
      (if (flags &&& 0b11000000#8) >>> 6 = 1#8 then RtkType.rtkFloat
        else if (flags &&& 0b11000000#8) >>> 6 = 2#8 then .rtkFix
        else .rtkNone) = rtkTypeOf (flags.getLsbD 7) (flags.getLsbD 6) := by
    decide +kernel
  exact hall flags.toFin

theorem fixType_eq (fixType : Byte) :
    (if fixType = 1#8 then GpsFixType.drOnly
      else if fixType = 2#8 then .fix2d
      else if fixType = 3#8 then .fix3d
      else if fixType = 4#8 then .gnssDrCombined
      else .noFix) = fixTypeOf fixType.toNat := by
  have hall : ∀ i : Fin 256, let fixType : Byte := .ofFin i
      (if fixType = 1#8 then GpsFixType.drOnly
        else if fixType = 2#8 then .fix2d
        else if fixType = 3#8 then .fix3d
        else if fixType = 4#8 then .gnssDrCombined
        else .noFix) = fixTypeOf fixType.toNat := by
    decide +kernel
  exact hall fixType.toFin

namespace UbxGpsDriver

variable (s : UbxGpsDriver) {msg : UbxNavPvt}

/-- The first two tests of `HandleNavPvt`. -/
theorem usable_iff : msg.Usable ↔
    msg.flags &&& 0b0000001#8 ≠ 0#8 ∧ ¬ msg.flags3 &&& 0b1#16 ≠ 0#16 := by
  have hfix := @and_twoPow_ne_zero_iff 8 msg.flags 0
  have hllh := @and_twoPow_ne_zero_iff 16 msg.flags3 0
  rw [UbxNavPvt.Usable, ← hfix, ← Bool.not_eq_true, ← hllh]
  rfl

/-- **A solution that is not usable** invalidates the state, and nothing else. -/
theorem handleNavPvt_of_not_usable (h : ¬ msg.Usable) :
    s.handleNavPvt msg = { s with gpsStateValid := false } := by
  rw [usable_iff, not_and_not_right] at h
  rw [handleNavPvt]
  dsimp only
  split
  · rfl
  · next hfix => rw [if_pos (h (not_not.mp hfix))]

/-- **A usable solution** replaces the whole state, and is sent. -/
theorem handleNavPvt_of_usable (h : msg.Usable) : ∃ state, Reports msg state ∧
    s.handleNavPvt msg =
      { gpsState := state, gpsStateValid := true, sent := s.sent ++ [gpsStateCallback state] } := by
  obtain ⟨hfix, hllh⟩ := usable_iff.mp h
  have hdiff := @and_twoPow_ushiftRight_ne_zero_iff 8 msg.flags 1
  have hveh := @and_twoPow_ushiftRight_ne_zero_iff 8 msg.flags 5
  refine ⟨(s.handleNavPvt msg).gpsState, ?_, ?_⟩
  · rw [handleNavPvt]
    dsimp only
    rw [if_neg (not_not_intro hfix), if_neg hllh]
    have hscale : ∀ q : ℚ, q / 10000000 * 10 ^ 7 = q ∧ q / 1000 * 10 ^ 3 = q ∧
        q / 100000 * (1 / 180) * 18000000 = q :=
      fun q => ⟨by ring, by ring, by ring⟩
    exact
      { time := ⟨rfl, rfl⟩
        position := ⟨rfl, (hscale _).1, (hscale _).1, (hscale _).2.1⟩
        positionAccuracy := ⟨(hscale _).2.1, (hscale _).2.1⟩
        velocity := ⟨(hscale _).2.1, (hscale _).2.1, (hscale _).2.1⟩
        motion := ⟨rfl, isHeading_toHeading _⟩
        vehicle := ⟨Bool.eq_iff_iff.mpr (decide_eq_true_iff.trans hveh), isHeading_toHeading _⟩
        headingAccuracy := ⟨(hscale _).2.2, rfl⟩
        fixType := fixType_eq msg.fixType
        rtkType := by
          rw [← rtkType_eq]
          exact if_congr hdiff rfl rfl
        satellites := rfl }
  · rw [handleNavPvt]
    dsimp only
    rw [if_neg (not_not_intro hfix), if_neg hllh]
    rfl

/-- What the driver has reported of solutions, and what it holds. -/
def Reported (msgs : List UbxNavPvt) (s : UbxGpsDriver) : Prop :=
  ∃ states, List.Forall₂ Reports (msgs.filter fun msg => msg.Usable) states ∧
    s.sent = states.map gpsStateCallback ∧ s.gpsState = states.getLast?.getD {} ∧
    s.gpsStateValid = msgs.getLast?.any fun msg => decide msg.Usable

/-- **One solution.** -/
theorem Reported.step {msgs : List UbxNavPvt} {s : UbxGpsDriver} (h : Reported msgs s)
    (msg : UbxNavPvt) : Reported (msgs ++ [msg]) (s.handleNavPvt msg) := by
  obtain ⟨states, hstates, hsent, hstate, -⟩ := h
  by_cases husable : msg.Usable
  · obtain ⟨state, hreports, heq⟩ := s.handleNavPvt_of_usable husable
    rw [heq]
    refine ⟨states ++ [state], ?_, ?_, ?_, ?_⟩
    · rw [List.filter_append, List.filter_cons_of_pos (by simpa using husable)]
      exact List.rel_append hstates (.cons hreports .nil)
    · rw [hsent, List.map_append]
      rfl
    · rw [List.getLast?_concat]
      rfl
    · rw [List.getLast?_concat]
      exact (decide_eq_true husable).symm
  · rw [s.handleNavPvt_of_not_usable husable]
    refine ⟨states, ?_, hsent, hstate, ?_⟩
    · rwa [List.filter_append, List.filter_cons_of_neg (by simpa using husable), List.filter_nil,
        List.append_nil]
    · rw [List.getLast?_concat]
      exact (decide_eq_false husable).symm

/-- **All solutions.** -/
theorem reported_foldl (msgs : List UbxNavPvt) : Reported msgs (msgs.foldl handleNavPvt {}) := by
  induction msgs using List.reverseRecOn with
  | nil => exact ⟨[], .nil, rfl, rfl, rfl⟩
  | append_singleton msgs msg ih =>
    rw [List.foldl_concat]
    exact ih.step msg

end UbxGpsDriver

/-! ### The stream -/

/-- What a receiver sends. -/
inductive GpsMessage
  | navPvt (msg : UbxNavPvt)
  /-- Another message, or one that has not the size of a solution. -/
  | other (cls id : Byte) (payload : List Byte) (length_le : payload.length ≤ 504)
    (other : ¬ (cls = UbxNavPvt.classId ∧ id = UbxNavPvt.messageId ∧
      payload.length = UbxNavPvt.size))

namespace GpsMessage

/-- The bytes from the class to the end of the payload. -/
def content : GpsMessage → List Byte
  | .navPvt msg => ubxContent UbxNavPvt.classId UbxNavPvt.messageId msg.payload
  | .other cls id payload _ _ => ubxContent cls id payload

/-- The solution, if it is one. -/
def solution : GpsMessage → Option UbxNavPvt
  | .navPvt msg => some msg
  | .other .. => none

theorem length_content_le (message : GpsMessage) : message.content.length ≤ 508 := by
  cases message with
  | navPvt msg =>
    rw [content, length_ubxContent, msg.length_payload]
    decide
  | other cls id payload hlen _ =>
    rw [content, length_ubxContent]
    omega

end GpsMessage

/-- A message that is sent, and what arrives behind the two bytes of the header. -/
structure GpsTransmission where
  message : GpsMessage
  cls : Byte
  id : Byte
  payload : List Byte
  checksum : Byte × Byte
  /-- The length arrives as it was sent. -/
  length_eq : payload.length + 4 = message.content.length
  /-- No more than two neighbouring bytes are damaged. -/
  damage : ubxContent cls id payload ++ [checksum.1, checksum.2] = Fletcher.word message.content ∨
    Crc.Burst 2 (Fletcher.word message.content)
      (ubxContent cls id payload ++ [checksum.1, checksum.2])

namespace GpsTransmission

variable (t : GpsTransmission)

/-- What arrives behind the header. -/
def received : List Byte := ubxContent t.cls t.id t.payload ++ [t.checksum.1, t.checksum.2]

/-- The frame as it arrives. -/
def bytes : List Byte := 0xb5#8 :: 0x62#8 :: t.received

/-- It arrives as it was sent. -/
def Intact : Prop := t.received = Fletcher.word t.message.content

instance : Decidable t.Intact := inferInstanceAs (Decidable (_ = _))

/-- The solutions of the frames that are intact. -/
def solutions (ts : List GpsTransmission) : List UbxNavPvt :=
  (ts.filter fun t => t.Intact).filterMap fun t => t.message.solution

/-- What `SendPacket` would be called with. -/
def buffer : List Byte := 0#8 :: 0#8 :: t.cls :: t.id :: 0#8 :: 0#8 :: (t.payload ++ [0#8, 0#8])

theorem length_buffer : t.buffer.length = t.payload.length + 8 := by
  rw [buffer]
  simp only [List.length_cons, List.length_append, List.length_nil]

theorem le_length_buffer : 8 ≤ t.buffer.length := by
  rw [length_buffer]
  exact Nat.le_add_left _ _

theorem length_buffer_le : t.buffer.length ≤ gbufferSize := by
  have hle := t.message.length_content_le
  have hlen := t.length_eq
  rw [length_buffer, gbufferSize]
  omega

/-- What arrives is what `SendPacket` makes of something, with any checksum. -/
def frame : UbxFrame where
  buffer := t.buffer
  le_length := t.le_length_buffer
  length_le := t.length_buffer_le
  checksum := t.checksum

theorem bytes_frame : t.frame.bytes = t.bytes := by
  have hfront : (0xb5#8 :: 0x62#8 :: ubxContent t.cls t.id t.payload).length =
      t.frame.buffer.length - 2 := by
    rw [show t.frame.buffer = t.buffer from rfl, length_buffer, List.length_cons, List.length_cons,
      length_ubxContent]
    omega
  rw [UbxFrame.bytes, show ubxSendPacket t.frame.buffer = _ from ubxSendPacket_cons .., ← hfront,
    List.take_left]
  rfl

theorem content_frame : t.frame.content = ubxContent t.cls t.id t.payload := by
  obtain ⟨-, -, -, -, -, hbytes, -⟩ := t.frame.exists_parts
  rw [bytes_frame, bytes, received, ← List.cons_append, ← List.cons_append] at hbytes
  obtain ⟨hcontent, -⟩ := List.append_inj' hbytes rfl
  rw [List.cons.injEq, List.cons.injEq] at hcontent
  exact hcontent.2.2.symm

/-- **Damage is noticed**: the checksum is right exactly if the frame arrives as it was sent. -/
theorem intact_frame_iff : t.frame.Intact ↔ t.Intact := by
  obtain ⟨-, -, -, -, -, -, hintact⟩ := t.frame.exists_parts
  rw [hintact, content_frame]
  constructor
  · intro hchecksum
    have hword : t.received = Fletcher.word (ubxContent t.cls t.id t.payload) := by
      rw [received, show t.checksum = _ from hchecksum]
      rfl
    refine t.damage.resolve_right ?_
    rintro ⟨front, x, y, back, hsent, harrived, hlen, htwo, hne⟩
    exact hne (Fletcher.eq_of_word hsent (hword.symm.trans harrived) hlen htwo)
  · intro hword
    obtain ⟨hcontent, hsums⟩ := Fletcher.word_eq_append hword.symm
    rw [← hcontent]
    exact hsums.symm

/-- What is processed of a frame. -/
theorem content_of_intact (h : t.Intact) : t.frame.content = t.message.content := by
  rw [content_frame, (Fletcher.word_eq_append h.symm).1]

/-- **The stream**: what is processed are the messages of the intact frames. -/
theorem intactContents_frames (ts : List GpsTransmission) :
    intactContents (ts.map frame) =
      (ts.filter fun t => t.Intact).map fun t => t.message.content := by
  have hfilter : ((fun frame : UbxFrame => decide frame.Intact) ∘ frame) =
      fun t => decide t.Intact :=
    funext fun t => decide_eq_decide.mpr t.intact_frame_iff
  rw [intactContents, List.filter_map, List.map_map, hfilter]
  refine List.map_congr_left fun t ht => ?_
  exact t.content_of_intact (by simpa using (List.mem_filter.mp ht).2)

end GpsTransmission

/-- The test of the class and the id. -/
theorem packetId_eq_iff (cls id : Byte) :
    cls.setWidth 16 <<< 8 ||| id.setWidth 16 =
        UbxNavPvt.classId.setWidth 16 <<< 8 ||| UbxNavPvt.messageId.setWidth 16 ↔
      cls = UbxNavPvt.classId ∧ id = UbxNavPvt.messageId := by
  have hhigh : ∀ high low : Byte,
      ((high.setWidth 16 <<< 8 ||| low.setWidth 16) >>> 8).setWidth 8 = high := by
    intro high low
    refine BitVec.eq_of_getLsbD_eq fun i hi => ?_
    simp [hi, show 8 + i < 16 by omega]
  have hlow : ∀ high low : Byte,
      (high.setWidth 16 <<< 8 ||| low.setWidth 16).setWidth 8 = low := by
    intro high low
    refine BitVec.eq_of_getLsbD_eq fun i hi => ?_
    simp [hi]
  constructor
  · intro h
    have hcls := hhigh cls id
    have hid := hlow cls id
    rw [h] at hcls hid
    exact ⟨hcls.symm.trans (hhigh _ _), hid.symm.trans (hlow _ _)⟩
  · rintro ⟨rfl, rfl⟩
    rfl

/-- **One packet.** -/
theorem UbxGpsDriver.processUbxPacket_ubxContent (s : UbxGpsDriver) (cls id : Byte)
    {payload : List Byte} (hle : payload.length ≤ 504) :
    s.processUbxPacket (ubxContent cls id payload) =
      if (cls = UbxNavPvt.classId ∧ id = UbxNavPvt.messageId) ∧ payload.length = UbxNavPvt.size then
        s.handleNavPvt (UbxNavPvt.ofBytes payload)
      else s := by
  have hsize : sizeSub (ubxContent cls id payload).length 4 = payload.length := by
    rw [length_ubxContent, sizeSub_of_le (by omega) (by omega), Nat.add_sub_cancel]
  have hid := packetId_eq_iff cls id
  rw [processUbxPacket, hsize, show (ubxContent cls id payload).drop 4 = payload from rfl, ite_and]
  exact if_congr hid rfl rfl

/-- **A message that is processed** is handled if it is a solution. -/
theorem UbxGpsDriver.processUbxPacket_content (s : UbxGpsDriver) (message : GpsMessage) :
    s.processUbxPacket message.content = message.solution.elim s s.handleNavPvt := by
  cases message with
  | navPvt msg =>
    have hlen := msg.length_payload
    rw [GpsMessage.content, s.processUbxPacket_ubxContent _ _ (by rw [hlen]; decide),
      if_pos ⟨⟨rfl, rfl⟩, hlen⟩, msg.ofBytes_payload]
    rfl
  | other cls id payload hle hother =>
    rw [GpsMessage.content, s.processUbxPacket_ubxContent _ _ hle,
      if_neg (fun h => hother ⟨h.1.1, h.1.2, h.2⟩)]
    rfl

/-- A fix with an RTK solution. -/
def rtkSolution : UbxNavPvt :=
  { UbxNavPvt.ofBytes [] with
    fixType := 3#8
    flags := 0b10000011#8
    lat := 481000000#32
    lon := 116000000#32
    headMot := 27000000#32 }

/-- It arrives as it was sent. -/
def solutionReceived : GpsTransmission where
  message := .navPvt rtkSolution
  cls := UbxNavPvt.classId
  id := UbxNavPvt.messageId
  payload := rtkSolution.payload
  checksum := Fletcher.sums (GpsMessage.navPvt rtkSolution).content
  length_eq := rfl
  damage := .inl rfl

theorem burst_checksum (content : List Byte) : Crc.Burst 2 (Fletcher.word content)
    (content ++ [(Fletcher.sums content).1 + 1#8, (Fletcher.sums content).2]) := by
  refine ⟨content, [(Fletcher.sums content).1], [(Fletcher.sums content).1 + 1#8],
    [(Fletcher.sums content).2], ?_, ?_, rfl, Nat.le_succ 1, ?_⟩
  · rw [List.append_assoc]
    rfl
  · rw [List.append_assoc]
    rfl
  · simp

/-- A byte of its checksum is damaged. -/
def solutionDamaged : GpsTransmission where
  message := .navPvt rtkSolution
  cls := UbxNavPvt.classId
  id := UbxNavPvt.messageId
  payload := rtkSolution.payload
  checksum :=
    ((Fletcher.sums (GpsMessage.navPvt rtkSolution).content).1 + 1#8,
      (Fletcher.sums (GpsMessage.navPvt rtkSolution).content).2)
  length_eq := rfl
  damage := .inr (burst_checksum _)

end OpenMower
