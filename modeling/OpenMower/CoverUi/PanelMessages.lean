import OpenMower.CoverUi.PanelAvailability
import OpenMower.Parsers.CobsStreams

/-!
# The messages of the cover UI

`HandleMessage` takes a packet for a message exactly if it is the bytes of one with their CRC. So of
all that the panel sends, cut into passes anywhere, exactly the messages are handled, in order
(`panel_handles_messages`), provided that no frame is too long for the decode buffer: a frame of
more than 25 bytes would be written beyond it. The rain and the interval of the LED updates are
those of the messages, the interval always from 100 ms to 10 s, and everything that the thread
transmits is the frame of a version request or of an LED message.
-/

namespace OpenMower

open CobsReceiver LittleEndian

namespace PanelMessageType

theorem ofCode_eq_some_iff {b : Byte} {t : PanelMessageType} : ofCode b = some t ↔ b = t.code := by
  constructor
  · intro h
    unfold ofCode at h
    split at h
    · next hb => rw [hb, ← Option.some.inj h]
    split at h
    · next hb => rw [hb, ← Option.some.inj h]
    split at h
    · next hb => rw [hb, ← Option.some.inj h]
    split at h
    · next hb => rw [hb, ← Option.some.inj h]
    split at h
    · next hb => rw [hb, ← Option.some.inj h]
    · cases h
  · rintro rfl
    cases t <;> rfl

theorem four_le_size (t : PanelMessageType) : 4 ≤ t.size := by
  cases t <;> decide

theorem widths_head (t : PanelMessageType) : t.widths = 1 :: t.widths.tail := by
  cases t <;> rfl

end PanelMessageType

namespace PanelMessage

theorem length_values (m : PanelMessage) : m.type.widths.length = m.values.length := by
  cases m <;> rfl

theorem values_lt (m : PanelMessage) :
    ∀ field ∈ m.type.widths.zip m.values, field.2 < 256 ^ field.1 := by
  have hlt : ∀ {w : ℕ} (x : BitVec w), x.toNat < 2 ^ w := fun x => x.isLt
  cases m <;>
    simp only [type, PanelMessageType.widths, values, List.zip_cons_cons, List.zip_nil_right,
      List.forall_mem_cons, List.not_mem_nil, false_imp_iff, implies_true, and_true]
  · exact ⟨hlt _, hlt _, hlt _⟩
  · exact ⟨hlt _, hlt _, hlt _⟩
  · exact ⟨hlt _, hlt _⟩
  · exact ⟨hlt _, hlt _, hlt _, hlt _⟩
  · exact ⟨hlt _, hlt _, hlt _⟩

theorem length_payload (m : PanelMessage) : m.payload.length = m.type.widths.sum := by
  rw [payload, length_pack, List.map_fst_zip m.length_values.le]

variable (crc16 : List Byte → BitVec 16)

theorem length_packet (m : PanelMessage) : (m.packet crc16).length = m.type.size := by
  rw [packet, length_withCheck, length_payload, PanelMessageType.size]

/-- **A message is read back.** -/
theorem read_packet (m : PanelMessage) : m.type.read (m.packet crc16) = m := by
  have hpacket : unpack m.type.widths (m.packet crc16) = m.values :=
    unpack_pack_zip m.length_values m.values_lt (split 2 (crc16 m.payload).toNat)
  unfold PanelMessageType.read
  dsimp only
  rw [hpacket]
  cases m <;>
    simp only [type, values, List.getD_cons_zero, List.getD_cons_succ, BitVec.ofNat_toNat,
      BitVec.setWidth_eq]

theorem headD_packet (m : PanelMessage) : (m.packet crc16).headD 0#8 = m.type.code := by
  cases m <;> rfl

end PanelMessage

namespace PanelMessageType

/-- **As many bytes as a message has**, with its type, are one. -/
theorem payload_read {t : PanelMessageType} {buf : List Byte} (hlen : t.widths.sum ≤ buf.length)
    (hcode : buf.headD 0#8 = t.code) : (t.read buf).payload = buf.take t.widths.sum := by
  have hfield := fun {i n : ℕ} => @toNat_getD_unpack t.widths buf i n
  have hfirst : t.code.toNat = (unpack t.widths buf).getD 0 0 := by
    rw [← hcode, widths_head t]
    exact (getD_unpack_head _ buf).symm
  have hvalues : (t.read buf).type = t ∧ (t.read buf).values = unpack t.widths buf := by
    cases t with
    | getVersion =>
      refine ⟨rfl, ?_⟩
      simp only [PanelMessage.values, read, PanelMessage.type]
      rw [hfirst, @hfield 1 1 rfl, @hfield 2 2 rfl]
      rfl
    | getButton =>
      refine ⟨rfl, ?_⟩
      simp only [PanelMessage.values, read, PanelMessage.type]
      rw [hfirst, @hfield 1 2 rfl, @hfield 2 1 rfl]
      rfl
    | getEmergency =>
      refine ⟨rfl, ?_⟩
      simp only [PanelMessage.values, read, PanelMessage.type]
      rw [hfirst, @hfield 1 1 rfl]
      rfl
    | getRain =>
      refine ⟨rfl, ?_⟩
      simp only [PanelMessage.values, read, PanelMessage.type]
      rw [hfirst, @hfield 1 1 rfl, @hfield 2 4 rfl, @hfield 3 4 rfl]
      rfl
    | getSubscribe =>
      refine ⟨rfl, ?_⟩
      simp only [PanelMessage.values, read, PanelMessage.type]
      rw [hfirst, @hfield 1 1 rfl, @hfield 2 2 rfl]
      rfl
  rw [PanelMessage.payload, hvalues.1, hvalues.2, pack_unpack hlen]

end PanelMessageType

variable {crc16 : List Byte → BitVec 16}

/-- **The checks of `HandleMessage`** pass for messages and for nothing else. -/
theorem checkMessage_eq_some_iff {buf : List Byte} {m : PanelMessage} :
    checkMessage crc16 buf = some m ↔ buf = m.packet crc16 := by
  constructor
  · intro h
    unfold checkMessage at h
    split at h
    · cases h
    split at h
    · cases h
    next hthree =>
    dsimp only at h
    split at h
    · cases h
    next hcrc =>
    obtain ⟨t, ht, hread⟩ := Option.bind_eq_some_iff.mp h
    obtain ⟨hlen, hm⟩ := Option.ite_none_right_eq_some.mp hread
    rw [not_not, checked_iff (by omega), hlen] at hcrc
    have hsize : t.size - 2 = t.widths.sum := Nat.add_sub_cancel _ _
    have hpayload := PanelMessageType.payload_read
      (show t.widths.sum ≤ buf.length by rw [hlen, PanelMessageType.size]; omega)
      (PanelMessageType.ofCode_eq_some_iff.mp ht)
    rw [hsize, ← hpayload, Option.some.inj hm] at hcrc
    exact hcrc
  · rintro rfl
    have hlen := m.length_packet crc16
    have hsize := m.type.four_le_size
    have hcheck := (@checked_iff crc16 (m.packet crc16) (by omega)).mpr (by
      have htake : (m.packet crc16).take ((m.packet crc16).length - 2) = m.payload := by
        rw [hlen, show m.type.size - 2 = m.type.widths.sum from Nat.add_sub_cancel _ _]
        exact List.take_left' m.length_payload
      rw [htake]
      rfl)
    rw [checkMessage, if_neg (by omega), if_neg (by omega)]
    dsimp only
    rw [if_neg (not_not_intro hcheck), m.headD_packet,
      PanelMessageType.ofCode_eq_some_iff.mpr rfl, Option.bind_some, if_pos hlen, m.read_packet]

/-- The message that a body of the stream has in it. -/
def messageOf (crc16 : List Byte → BitVec 16) (body : List Byte) : Option PanelMessage :=
  (panelAccept body).bind (checkMessage crc16)

/-- **Which bodies are handled**: those that decode to a message with its CRC. -/
theorem messageOf_eq_some_iff {body : List Byte} {m : PanelMessage} :
    messageOf crc16 body = some m ↔ Cobs.decode body = (true, m.packet crc16) := by
  rw [messageOf, panelAccept, Option.bind_eq_some_iff]
  constructor
  · rintro ⟨packet, hpacket, hm⟩
    obtain ⟨hok, hdecoded⟩ := Option.ite_none_right_eq_some.mp hpacket
    rw [← checkMessage_eq_some_iff.mp hm]
    exact Prod.ext hok (Option.some.inj hdecoded)
  · intro hdecode
    rw [hdecode, if_pos rfl]
    exact ⟨_, rfl, checkMessage_eq_some_iff.mpr rfl⟩

/-- A body without bytes is none. -/
theorem messageOf_nil : messageOf crc16 [] = none := by
  rw [messageOf, panelAccept, Cobs.decode_nil, if_pos rfl]
  rfl

namespace CobsReceiver

variable {capacity : ℕ} {decode : FrameDecoder} {s : CobsReceiver}

/-- Packets are only ever added. -/
theorem packets_foldl_append (bytes : List Byte) : ∃ packets,
    (bytes.foldl (receive capacity decode) s).packets = s.packets ++ packets := by
  induction bytes generalizing s with
  | nil => exact ⟨[], (List.append_nil _).symm⟩
  | cons b bytes ih =>
    obtain ⟨later, hlater⟩ := @ih (s.receive capacity decode b)
    have hfirst : ∃ packets, (s.receive capacity decode b).packets = s.packets ++ packets := by
      rw [receive]
      split
      · split
        · rw [decodeFrame]
          dsimp only
          split
          · exact ⟨_, rfl⟩
          · exact ⟨[], (List.append_nil _).symm⟩
        · exact ⟨[], (List.append_nil _).symm⟩
      split
      · exact ⟨[], (List.append_nil _).symm⟩
      · exact ⟨[], (List.append_nil _).symm⟩
    obtain ⟨first, hfirst⟩ := hfirst
    exact ⟨first ++ later, by rw [List.foldl_cons, hlater, hfirst, List.append_assoc]⟩

end CobsReceiver

/-! ### The thread -/

/-- What a message says about the rain. -/
def rainStep (rain : Bool) : PanelMessage → Bool
  | .rain _ value threshold => decide (value < threshold)
  | _ => rain

/-- What a message makes of the interval of the LED updates. -/
def intervalStep (uiInterval : BitVec 16) : PanelMessage → BitVec 16
  | .subscribe _ interval =>
    if 100#16 ≤ interval ∧ interval ≤ 10000#16 then interval else uiInterval
  | _ => uiInterval

/-- The rain after these messages. -/
def rainAfter (messages : List PanelMessage) : Bool := messages.foldl rainStep false

/-- The interval of the LED updates after these messages. -/
def intervalAfter (messages : List PanelMessage) : BitVec 16 := messages.foldl intervalStep 1000#16

/-- The interval is in range, whatever the panel asks for. -/
theorem intervalAfter_mem (messages : List PanelMessage) :
    100#16 ≤ intervalAfter messages ∧ intervalAfter messages ≤ 10000#16 := by
  induction messages using List.reverseRecOn with
  | nil => exact ⟨by decide, by decide⟩
  | append_singleton messages m ih =>
    rw [intervalAfter, List.foldl_concat, ← intervalAfter]
    cases m with
    | subscribe topicBitmask interval =>
      rw [intervalStep]
      split
      · next hin => exact hin
      · exact ih
    | _ => exact ih

namespace PanelComms

/-- What a frame that the thread transmits has in it. -/
def Transmits (crc16 : List Byte → BitVec 16) (frame : List Byte) : Prop :=
  ∃ msg, (msg = versionRequestMessage crc16 ∨ ∃ leds, msg = ledsMessage crc16 leds) ∧
    frame = Cobs.encode msg ++ [0x00#8] ∧ frame.length ≤ panelTxBufSize

/-- The state of the thread after the bytes that have been received so far. -/
structure Handled (crc16 : List Byte → BitVec 16) (bytes : List Byte) (s : PanelComms) : Prop where
  rx : s.rx = bytes.foldl (receive rxBufSize panelDecode) start
  handled : s.handled = s.rx.packets.filterMap (checkMessage crc16)
  rain : s.rainDetected = rainAfter s.handled
  interval : s.uiInterval = intervalAfter s.handled
  transmitted : ∀ frame ∈ s.transmitted, Transmits crc16 frame

variable {E : EmergencyReason} {pressDelay : Bool → Micros} {s : PanelComms} {bytes : List Byte}
  {p : PanelPass}

/-- What the messages change. -/
structure Follows (crc16 : List Byte → BitVec 16) (packets : List (List Byte))
    (s s' : PanelComms) : Prop where
  rx : s'.rx = s.rx
  transmitted : s'.transmitted = s.transmitted
  handled : s'.handled = s.handled ++ packets.filterMap (checkMessage crc16)
  rain : s.rainDetected = rainAfter s.handled → s'.rainDetected = rainAfter s'.handled
  interval : s.uiInterval = intervalAfter s.handled → s'.uiInterval = intervalAfter s'.handled

theorem Follows.refl : Follows crc16 [] s s :=
  ⟨rfl, rfl, (List.append_nil _).symm, id, id⟩

theorem Follows.trans {packets packets' : List (List Byte)} {s' s'' : PanelComms}
    (h : Follows crc16 packets s s') (h' : Follows crc16 packets' s' s'') :
    Follows crc16 (packets ++ packets') s s'' where
  rx := h'.rx.trans h.rx
  transmitted := h'.transmitted.trans h.transmitted
  handled := by rw [h'.handled, h.handled, List.filterMap_append, List.append_assoc]
  rain := h'.rain ∘ h.rain
  interval := h'.interval ∘ h.interval

/-- What a handler does with the rain and the interval. -/
theorem handle_eq (clock : ℕ → Micros × Micros) (now : ℤ) (m : PanelMessage) :
    (s.handle E pressDelay clock now m).rx = s.rx ∧
      (s.handle E pressDelay clock now m).transmitted = s.transmitted ∧
      (s.handle E pressDelay clock now m).rainDetected = rainStep s.rainDetected m ∧
      (s.handle E pressDelay clock now m).uiInterval = intervalStep s.uiInterval m := by
  cases m with
  | subscribe topicBitmask interval =>
    rw [handle, intervalStep]
    split
    · exact ⟨rfl, rfl, rfl, rfl⟩
    · exact ⟨rfl, rfl, rfl, rfl⟩
  | _ => exact ⟨rfl, rfl, rfl, rfl⟩

/-- **One packet.** -/
theorem follows_handleMessage (clock : ℕ → Micros × Micros) (now : ℤ) (buf : List Byte) :
    Follows crc16 [buf] s (s.handleMessage E crc16 pressDelay clock now buf) := by
  rw [handleMessage]
  cases hcheck : checkMessage crc16 buf with
  | none =>
    refine ⟨rfl, rfl, ?_, id, id⟩
    rw [List.filterMap_cons_none hcheck, List.filterMap_nil, List.append_nil]
  | some m =>
    have hone : [buf].filterMap (checkMessage crc16) = [m] := by
      rw [List.filterMap_cons_some hcheck, List.filterMap_nil]
    have hhandle := @handle_eq E pressDelay s clock now m
    refine ⟨hhandle.1, hhandle.2.1, by rw [hone], fun hrain => ?_, fun hinterval => ?_⟩
    · show (s.handle E pressDelay clock now m).rainDetected = rainAfter (s.handled ++ [m])
      rw [hhandle.2.2.1, hrain, rainAfter, rainAfter, List.foldl_concat]
    · show (s.handle E pressDelay clock now m).uiInterval = intervalAfter (s.handled ++ [m])
      rw [hhandle.2.2.2, hinterval, intervalAfter, intervalAfter, List.foldl_concat]

/-- **The packets of a drain.** -/
theorem follows_handleMessages (clock : ℕ → ℕ → Micros × Micros) (now : ℤ)
    (packets : List (List Byte)) :
    Follows crc16 packets s (s.handleMessages E crc16 pressDelay clock now packets) := by
  have hfrom : ∀ (k : ℕ) (t : PanelComms), Follows crc16 packets t
      ((packets.zipIdx k).foldl (fun t packet =>
        t.handleMessage E crc16 pressDelay (clock packet.2) now packet.1) t) := by
    induction packets with
    | nil => exact fun _ _ => .refl
    | cons packet packets ih =>
      intro k t
      rw [List.zipIdx_cons, List.foldl_cons]
      exact (follows_handleMessage (clock k) now packet).trans (ih (k + 1) _)
  exact hfrom 0 s

/-- **The received bytes.** -/
theorem Handled.drain (h : Handled crc16 bytes s) :
    Handled crc16 (bytes ++ p.bytes) (s.drain E crc16 pressDelay p) := by
  obtain ⟨packets, hpackets⟩ := @packets_foldl_append rxBufSize panelDecode s.rx p.bytes
  have hnew : (YfCoverUi.processRxBytes s.rx p.bytes).packets.drop s.rx.packets.length =
      packets := by
    rw [YfCoverUi.processRxBytes, hpackets]
    exact List.drop_left
  have hfollows := @follows_handleMessages crc16 E pressDelay
    { s with rx := YfCoverUi.processRxBytes s.rx p.bytes } p.clock p.drained packets
  have hdrain : s.drain E crc16 pressDelay p =
      { s with rx := YfCoverUi.processRxBytes s.rx p.bytes }.handleMessages E crc16 pressDelay
        p.clock p.drained packets := by
    rw [PanelComms.drain, ← hnew]
  rw [hdrain]
  refine ⟨?_, ?_, hfollows.rain h.rain, hfollows.interval h.interval, ?_⟩
  · rw [hfollows.rx, List.foldl_append, ← h.rx]
    rfl
  · have hrx : (YfCoverUi.processRxBytes s.rx p.bytes).packets = s.rx.packets ++ packets := hpackets
    rw [hfollows.handled, hfollows.rx]
    dsimp only
    rw [hrx, List.filterMap_append, ← h.handled]
  · rw [hfollows.transmitted]
    exact h.transmitted

/-- A short message fits the transmit buffer. -/
theorem sendPanelMessage_eq {msg : List Byte} (hlen : msg.length ≤ 30) (txBuf : ℕ → Byte) :
    sendPanelMessage msg txBuf = some (Cobs.encode msg ++ [0x00#8]) ∧
      (Cobs.encode msg ++ [0x00#8]).length ≤ panelTxBufSize := by
  have hbound := Cobs.length_encode_le msg
  have hsize : panelTxBufSize = 32 := rfl
  constructor
  · rw [sendPanelMessage, if_neg (by omega), YfCoverUi.cobsEncode_eq]
  · rw [List.length_append, List.length_singleton]
    omega

/-- The two messages that the thread sends. -/
theorem transmits_toList {msg : List Byte} {txBuf : ℕ → Byte}
    (hmsg : msg = versionRequestMessage crc16 ∨ ∃ leds, msg = ledsMessage crc16 leds) :
    ∀ frame ∈ (sendPanelMessage msg txBuf).toList, Transmits crc16 frame := by
  have hlen : msg.length ≤ 30 := by
    rcases hmsg with rfl | ⟨leds, rfl⟩
    · rw [versionRequestMessage, length_withCheck, length_pack]
      decide
    · rw [ledsMessage, length_withCheck, length_pack]
      exact show 10 + 2 ≤ 30 by decide
  obtain ⟨hsend, hfits⟩ := sendPanelMessage_eq hlen txBuf
  intro frame hframe
  rw [hsend, Option.toList_some, List.mem_singleton] at hframe
  exact ⟨msg, hmsg, hframe, hframe ▸ hfits⟩

/-- **A pass.** -/
theorem Handled.pass (h : Handled crc16 bytes s) :
    Handled crc16 (bytes ++ p.bytes) (s.pass E crc16 pressDelay p) := by
  have hprobe : Handled crc16 (bytes ++ p.bytes)
      (((s.drain E crc16 pressDelay p).probePresence p).checkTimeout E p) := by
    have hdrain := @Handled.drain crc16 E pressDelay s bytes p h
    rw [checkTimeout, probePresence]
    split <;> split <;> exact { hdrain with }
  have hpoll : Handled crc16 (bytes ++ p.bytes)
      ((((s.drain E crc16 pressDelay p).probePresence p).checkTimeout E p).pollVersion
        crc16 p) := by
    rw [pollVersion]
    split
    · refine { hprobe with transmitted := fun frame hframe => ?_ }
      rcases List.mem_append.mp hframe with hframe | hframe
      · exact hprobe.transmitted frame hframe
      · exact transmits_toList (.inl rfl) frame hframe
    · exact { hprobe with }
  have hleds : Handled crc16 (bytes ++ p.bytes)
      (((((s.drain E crc16 pressDelay p).probePresence p).checkTimeout E p).pollVersion
        crc16 p).updateLeds crc16 p) := by
    rw [updateLeds]
    split
    · refine { hpoll with transmitted := fun frame hframe => ?_ }
      rcases List.mem_append.mp hframe with hframe | hframe
      · exact hpoll.transmitted frame hframe
      · exact transmits_toList (.inr ⟨p.leds, rfl⟩) frame hframe
    · exact hpoll
  exact { hleds with }

end PanelComms

open PanelComms

/-- The bytes that the passes of a run process. -/
def PanelCommsEvent.bytes : PanelCommsEvent → List Byte
  | .pass p => p.bytes
  | _ => []

variable {E : EmergencyReason} {pressDelay : Bool → Micros}

/-- **A run.** -/
theorem PanelComms.Handled.run {s s' : PanelComms} {bytes : List Byte} {es : List PanelCommsEvent}
    (h : Handled crc16 bytes s) (hr : (panelComms E crc16 pressDelay).run s es = some s') :
    Handled crc16 (bytes ++ es.flatMap PanelCommsEvent.bytes) s' := by
  induction es generalizing s bytes with
  | nil =>
    obtain rfl := Option.some.inj hr
    rwa [List.flatMap_nil, List.append_nil]
  | cons e es ih =>
    obtain ⟨t, hs, hr⟩ := Option.bind_eq_some_iff.mp hr
    rw [List.flatMap_cons, ← List.append_assoc]
    refine ih ?_ hr
    cases e with
    | pass p =>
      obtain ⟨-, rfl⟩ := Option.ite_none_right_eq_some.mp hs |>.imp_right Option.some.inj
      exact h.pass
    | sleep time =>
      obtain ⟨-, rfl⟩ := Option.ite_none_right_eq_some.mp hs |>.imp_right Option.some.inj
      have hnone : (PanelCommsEvent.sleep time).bytes = [] := rfl
      rw [hnone, List.append_nil]
      exact { h with }
    | configure service inputs =>
      obtain rfl := Option.some.inj hs
      have hnone : (PanelCommsEvent.configure service inputs).bytes = [] := rfl
      rw [hnone, List.append_nil]
      exact { h with }

/-- **The messages of the panel.** In every run of the thread whose frames fit the decode buffer,
wherever the passes cut the stream, exactly the bodies that decode to a message with its CRC are
handled, in order. The rain is that of the last rain message, the interval of the LED updates that
of the last subscription from 100 ms to 10 s, and every frame that is transmitted fits the buffer
and is a version request or an LED message. -/
theorem panel_handles_messages {s₀ s : PanelComms} {es : List PanelCommsEvent}
    (hinit : (panelComms E crc16 pressDelay).Init s₀)
    (hr : (panelComms E crc16 pressDelay).run s₀ es = some s)
    (hshort : ∀ body ∈ (cut (es.flatMap PanelCommsEvent.bytes)).1,
      body.length ≤ decodeBufSize + 1) :
    (s.handled = (cut (es.flatMap PanelCommsEvent.bytes)).1.filterMap (messageOf crc16) ∧
      ∀ body m, messageOf crc16 body = some m ↔ Cobs.decode body = (true, m.packet crc16)) ∧
    s.rainDetected = rainAfter s.handled ∧
    (s.uiInterval = intervalAfter s.handled ∧ 100#16 ≤ s.uiInterval ∧ s.uiInterval ≤ 10000#16) ∧
    ∀ frame ∈ s.transmitted, Transmits crc16 frame := by
  obtain ⟨poll, led, probe, hstart⟩ := hinit
  have hbegin : Handled crc16 [] s₀ := by
    refine ⟨hstart.rx, ?_, ?_, ?_, ?_⟩
    · rw [hstart.histories.1, hstart.rx]
      rfl
    · rw [hstart.histories.1, hstart.rain]
      rfl
    · rw [hstart.histories.1, hstart.interval]
      rfl
    · rw [hstart.histories.2]
      exact List.forall_mem_nil _
  have hend := hbegin.run hr
  rw [List.nil_append] at hend
  have hpackets := @packets_foldl rxBufSize panelDecode panelAccept start hands_panelDecode rfl
    (es.flatMap PanelCommsEvent.bytes)
  refine ⟨⟨?_, fun body m => messageOf_eq_some_iff⟩, hend.rain, ⟨hend.interval, ?_⟩,
    hend.transmitted⟩
  · have hnone : start.packets = [] := rfl
    rw [hend.handled, hend.rx, hpackets, hnone, List.nil_append, List.filterMap_filterMap]
    refine List.filterMap_congr fun body hbody => ?_
    have hlen := hshort body hbody
    rw [packetOf, kept_of_le (hlen.trans (by decide))]
    split
    · next hnil =>
      rw [hnil, messageOf_nil]
      rfl
    · rfl
  · rw [hend.interval]
    exact intervalAfter_mem _

/-- A version message that two passes receive in parts. -/
def partedVersion : List PanelCommsEvent :=
  [.pass (passAt 10 [0x02#8, 0xB0#8, 0x02#8]),
    .pass (passAt 510 [0x07#8, 0x01#8, 0x01#8, 0x01#8, 0x00#8])]

/-- It is handled, for a CRC that is always 0. -/
theorem panel_handles_messages_version :
    ∃ s, (panelComms .standard (fun _ => 0#16) fun _ => 0#32).run panelThreadStart
        partedVersion = some s ∧ s.handled = [.version 0x00#8 0x0007#16] := by
  refine ⟨_, rfl, ?_⟩
  have hmessages := @panel_handles_messages (fun _ => 0#16) .standard (fun _ => 0#32)
    panelThreadStart _ partedVersion ⟨0, 0, 0, ⟨by decide, by decide⟩, ⟨[], rfl⟩, rfl, rfl, rfl,
      rfl, rfl, rfl, rfl, rfl, rfl, rfl, rfl, rfl, rfl, rfl⟩ rfl (by decide)
  exact hmessages.1.1.trans (by decide +kernel)

end OpenMower
