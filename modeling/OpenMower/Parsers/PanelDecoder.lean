import OpenMower.Drivers.CobsReceiver

/-!
# The decode buffer of the cover UI

Frames of up to 32 bytes are collected from the panel, but a frame is decoded into a buffer of
24, and the decoder has no bound of its own. It writes one byte less than it reads, so that the
buffer is left exactly for frames of 26 to 32 bytes, whether they are well formed or not. The
longest message of the panel has 13 bytes on the wire.
-/

namespace OpenMower

open Buffer CobsReceiver

/-- The loop of the cover UI. -/
abbrev panelRxMachine : StateMachine CobsReceiver Byte := machine rxBufSize panelDecode

/-- `ProcessRxBytes` for one piece of the stream after the other. -/
def panelProcessChunks (s : CobsReceiver) (chunks : List (List Byte)) : CobsReceiver :=
  chunks.foldl YfCoverUi.processRxBytes s

/-- After this byte all accesses are in bounds, and the messages fit the decode buffer. -/
def PanelInBounds (_ : CobsReceiver) (_ : Byte) (s' : CobsReceiver) : Prop :=
  InBounds rxBufSize s' decodeBufSize

/-- A delimiter comes after 25 bytes at most. -/
def ShortFrame (s : CobsReceiver) (b : Byte) (_ : CobsReceiver) : Prop :=
  b = 0x00#8 → s.rx.len ≤ decodeBufSize + 1

/-- What the bounds rest on: the buffers have not been left, and the frame has no delimiter. -/
structure DecoderInv (s : CobsReceiver) : Prop where
  inBounds : InBounds rxBufSize s decodeBufSize
  receiving : Receiving rxBufSize s

theorem start_decoderInv : DecoderInv start := ⟨start_inBounds, start_receiving⟩

/-- **One byte.** -/
theorem DecoderInv.panelInBounds_iff {s : CobsReceiver} (h : DecoderInv s) (b : Byte) :
    PanelInBounds s b (s.receive rxBufSize panelDecode b) ↔
      ShortFrame s b (s.receive rxBufSize panelDecode b) :=
  inBounds_receive_iff decodes_panelDecode (by decide) h.inBounds h.receiving b

/-- A run that stays in bounds has only short frames. -/
theorem shortFrame_of_panelInBounds {stream : List Byte}
    (h : panelRxMachine.EveryStep PanelInBounds start stream) :
    panelRxMachine.EveryStep ShortFrame start stream := by
  refine h.imp start_decoderInv ?_
  intro s b s' hs hstep hin
  obtain rfl := Option.some.inj hstep
  exact ⟨⟨hin, hs.receiving.receive b⟩, (hs.panelInBounds_iff b).mp hin⟩

/-- **The decode buffer.** In the run over any stream, however it is cut, every byte leaves the
receiver in its buffers if and only if every delimiter comes after 25 bytes at most. -/
theorem panel_decoder_inBounds_iff (chunks : List (List Byte)) :
    panelRxMachine.EveryStep PanelInBounds start chunks.flatten ↔
      panelRxMachine.EveryStep ShortFrame start chunks.flatten := by
  refine ⟨shortFrame_of_panelInBounds, fun h => h.imp start_decoderInv ?_⟩
  intro s b s' hs hstep hshort
  obtain rfl := Option.some.inj hstep
  have hin := (hs.panelInBounds_iff b).mpr hshort
  exact ⟨⟨hin, hs.receiving.receive b⟩, hin⟩

/-- A frame of 26 bytes. -/
theorem panel_decoder_not_inBounds :
    ¬ panelRxMachine.EveryStep PanelInBounds start
      [List.replicate 26 0x01#8, [0x00#8]].flatten := by
  intro hrun
  have hbefore := @machine_run rxBufSize panelDecode start (List.replicate 26 0x01#8)
  -- the delimiter is the last step
  have hlast := (shortFrame_of_panelInBounds hrun).of_run hbefore rfl rfl
  obtain ⟨rx, heq, hcontents⟩ := @foldl_receive rxBufSize panelDecode start
    (List.replicate 26 0x01#8) (by decide) (by decide)
  have hlen : rx.len = 26 := by
    rw [← Writer.length_contents, hcontents]
    rfl
  rw [heq] at hlast
  dsimp only at hlast
  rw [hlen] at hlast
  exact absurd hlast (by decide)

end OpenMower
