import OpenMower.Drivers.CobsReceiver

/-!
# What a COBS receiver makes of a stream

Every stream is a sequence of bodies with a delimiter behind each of them, and a tail without one.
A body that is too long for the buffer is given up again and again, so that its last bytes are
taken for the frame (`kept`). What is handed on are the packets of these frames, in order, and
nothing that came before a body matters for it (`packets_foldl`).
-/

namespace OpenMower

open Buffer

namespace CobsReceiver

/-- The bytes of a stream: bodies with their delimiters, and a tail. -/
def stream (bodies : List (List Byte)) (tail : List Byte) : List Byte :=
  bodies.flatMap (· ++ [0x00#8]) ++ tail

/-- A stream cut at its delimiters: the bodies, and the tail. -/
def cut : List Byte → List (List Byte) × List Byte
  | [] => ([], [])
  | b :: bytes =>
    if b = 0x00#8 then ([] :: (cut bytes).1, (cut bytes).2)
    else
      match (cut bytes).1 with
      | [] => ([], b :: (cut bytes).2)
      | body :: bodies => ((b :: body) :: bodies, (cut bytes).2)

/-- What is in the buffer at the end of a body. -/
def kept (capacity : ℕ) (body : List Byte) : List Byte :=
  body.drop ((capacity + 1) * (body.length / (capacity + 1)))

/-- The decoder hands on the packet that `accept` makes of a frame. -/
def Hands (decode : FrameDecoder) (accept : List Byte → Option (List Byte)) : Prop :=
  ∀ input output, (decode input output).1.map (slice (decode input output).2.buffer 0) =
    accept input

/-- The packet of a body. -/
def packetOf (capacity : ℕ) (accept : List Byte → Option (List Byte)) (body : List Byte) :
    Option (List Byte) :=
  if kept capacity body = [] then none else accept (kept capacity body)

variable {capacity : ℕ} {decode : FrameDecoder} {accept : List Byte → Option (List Byte)}
  {s : CobsReceiver}

theorem length_kept (body : List Byte) :
    (kept capacity body).length = body.length % (capacity + 1) := by
  rw [kept, List.length_drop]
  have hdiv := Nat.div_add_mod body.length (capacity + 1)
  omega

/-- A body that fits is kept as it is. -/
theorem kept_of_le {body : List Byte} (h : body.length ≤ capacity) : kept capacity body = body := by
  rw [kept, Nat.div_eq_of_lt (by omega), Nat.mul_zero, List.drop_zero]

/-- One more byte is put behind what is kept, or makes the buffer empty. -/
theorem kept_append (body : List Byte) (b : Byte) :
    kept capacity (body ++ [b]) =
      if (kept capacity body).length < capacity then kept capacity body ++ [b] else [] := by
  have hlt : body.length % (capacity + 1) < capacity + 1 := Nat.mod_lt _ (Nat.succ_pos capacity)
  have hdiv := Nat.div_add_mod body.length (capacity + 1)
  rw [length_kept]
  split
  · next hroom =>
    have hquot : (body ++ [b]).length / (capacity + 1) = body.length / (capacity + 1) := by
      rw [List.length_append, List.length_singleton]
      refine Nat.div_eq_of_lt_le ?_ ?_
      · rw [Nat.mul_comm]
        omega
      · rw [Nat.add_mul, Nat.one_mul, Nat.mul_comm]
        omega
    rw [kept, kept, hquot, List.drop_append_of_le_length (by omega)]
  · next hfull =>
    refine List.eq_nil_of_length_eq_zero ?_
    have hmod : body.length % (capacity + 1) = capacity := by omega
    rw [length_kept, List.length_append, List.length_singleton, Nat.add_mod, hmod]
    rcases Nat.eq_zero_or_pos capacity with rfl | hpos
    · omega
    · rw [Nat.mod_eq_of_lt (by omega : 1 < capacity + 1), Nat.mod_self]

/-- **A body** leaves what is kept of it in the buffer. -/
theorem foldl_receive_body (hidle : s.rx.len = 0) {body : List Byte} (hzero : 0#8 ∉ body) :
    (body.foldl (receive capacity decode) s).rx.contents = kept capacity body ∧
      (body.foldl (receive capacity decode) s).packets = s.packets := by
  induction body using List.reverseRecOn with
  | nil =>
    refine ⟨?_, rfl⟩
    rw [kept, List.drop_nil]
    exact List.eq_nil_of_length_eq_zero (s.rx.length_contents.trans hidle)
  | append_singleton body b ih =>
    rw [List.mem_append, List.mem_singleton, not_or] at hzero
    obtain ⟨hcontents, hpackets⟩ := ih hzero.1
    rw [List.foldl_append, List.foldl_cons, List.foldl_nil, kept_append, ← hcontents,
      Writer.length_contents, receive, if_neg (Ne.symm hzero.2)]
    split
    · exact ⟨Writer.contents_put, hpackets⟩
    · refine ⟨?_, hpackets⟩
      exact List.eq_nil_of_length_eq_zero (Writer.length_contents ..)

/-- **The delimiter behind a body.** -/
theorem packets_body (hdecode : Hands decode accept) (hidle : s.rx.len = 0) {body : List Byte}
    (hzero : 0#8 ∉ body) :
    ((body ++ [0x00#8]).foldl (receive capacity decode) s).packets =
        s.packets ++ (packetOf capacity accept body).toList ∧
      ((body ++ [0x00#8]).foldl (receive capacity decode) s).rx.len = 0 := by
  obtain ⟨hcontents, hpackets⟩ := @foldl_receive_body capacity decode s hidle body hzero
  rw [List.foldl_append, List.foldl_cons, List.foldl_nil]
  refine ⟨?_, receive_delimiter_len⟩
  rw [packetOf, ← hcontents, receive, if_pos rfl]
  by_cases hempty : (body.foldl (receive capacity decode) s).rx.contents = []
  · have hlen := Writer.length_contents (w := (body.foldl (receive capacity decode) s).rx)
    rw [hempty, List.length_nil] at hlen
    rw [if_neg (by omega), if_pos hempty, hpackets]
    exact (List.append_nil _).symm
  · have hpos := List.length_pos_iff.mpr hempty
    rw [Writer.length_contents] at hpos
    rw [if_pos hpos, if_neg hempty, ← hdecode _ (body.foldl (receive capacity decode) s).decodeBuf,
      ← hpackets]
    simp only [decodeFrame]
    split
    · next len hsome => rw [hsome]; rfl
    · next hnone => rw [hnone]; exact (List.append_nil _).symm

/-- **What a stream hands on**, given by its bodies. -/
theorem packets_stream (hdecode : Hands decode accept) (hidle : s.rx.len = 0)
    {bodies : List (List Byte)} (hbodies : ∀ body ∈ bodies, 0#8 ∉ body) {tail : List Byte}
    (htail : 0#8 ∉ tail) :
    ((stream bodies tail).foldl (receive capacity decode) s).packets =
      s.packets ++ bodies.filterMap (packetOf capacity accept) := by
  induction bodies generalizing s with
  | nil =>
    rw [stream, List.flatMap_nil, List.nil_append, List.filterMap_nil, List.append_nil]
    exact (foldl_receive_body hidle htail).2
  | cons body bodies ih =>
    obtain ⟨hbody, hbodies⟩ := List.forall_mem_cons.mp hbodies
    obtain ⟨hpackets, hempty⟩ := @packets_body capacity decode accept s hdecode hidle body hbody
    have hrest := ih hempty hbodies
    rw [stream, List.flatMap_cons, List.append_assoc, List.foldl_append]
    rw [stream] at hrest
    rw [hrest, hpackets, List.append_assoc]
    congr 1
    rw [List.filterMap_cons]
    cases packetOf capacity accept body <;> rfl

/-- Cutting leaves no delimiter, and it loses nothing. -/
theorem cut_spec (bytes : List Byte) :
    stream (cut bytes).1 (cut bytes).2 = bytes ∧ (∀ body ∈ (cut bytes).1, 0#8 ∉ body) ∧
      0#8 ∉ (cut bytes).2 := by
  induction bytes with
  | nil => exact ⟨rfl, List.forall_mem_nil _, List.not_mem_nil⟩
  | cons b bytes ih =>
    rcases hcut : cut bytes with ⟨bodies, tail⟩
    rw [hcut, stream] at ih
    obtain ⟨hstream, hbodies, htail⟩ := ih
    by_cases hb : b = 0x00#8
    · rw [cut, if_pos hb, hcut, stream, List.flatMap_cons, List.append_assoc, hstream, hb]
      exact ⟨rfl, List.forall_mem_cons.mpr ⟨List.not_mem_nil, hbodies⟩, htail⟩
    rw [cut, if_neg hb, hcut, stream]
    cases bodies with
    | nil =>
      refine ⟨congrArg (b :: ·) hstream, List.forall_mem_nil _, ?_⟩
      exact fun hmem => (List.mem_cons.mp hmem).elim (Ne.symm hb) htail
    | cons body bodies =>
      obtain ⟨hbody, hbodies⟩ := List.forall_mem_cons.mp hbodies
      refine ⟨congrArg (b :: ·) hstream, List.forall_mem_cons.mpr ⟨?_, hbodies⟩, htail⟩
      exact fun hmem => (List.mem_cons.mp hmem).elim (Ne.symm hb) hbody

/-- A body is cut off with its delimiter. -/
theorem cut_body {body : List Byte} (hzero : 0#8 ∉ body) (rest : List Byte) :
    (cut (body ++ 0x00#8 :: rest)).1 = body :: (cut rest).1 := by
  induction body with
  | nil => rw [List.nil_append, cut, if_pos rfl]
  | cons b body ih =>
    rw [List.mem_cons, not_or] at hzero
    have hrest := ih hzero.2
    rw [List.cons_append, cut, if_neg (Ne.symm hzero.1)]
    split
    · next hnil =>
      rw [hnil] at hrest
      cases hrest
    · next first bodies hcons =>
      rw [hcons, List.cons.injEq] at hrest
      rw [hrest.1, hrest.2]

/-- What is behind a delimiter is cut by itself. -/
theorem cut_append (front back : List Byte) :
    (cut (front ++ 0x00#8 :: back)).1 = (cut (front ++ [0x00#8])).1 ++ (cut back).1 := by
  induction front with
  | nil => simp only [List.nil_append, cut, if_pos, List.cons_append]
  | cons b front ih =>
    rw [List.cons_append, List.cons_append, cut, cut, ih]
    split
    · rfl
    · -- the delimiter is the end of a body
      rcases hfront : (cut (front ++ [0x00#8])).1 with - | ⟨body, bodies⟩
      · exfalso
        obtain ⟨hstream, -, htail⟩ := cut_spec (front ++ [0x00#8])
        rw [hfront, stream, List.flatMap_nil, List.nil_append] at hstream
        rw [hstream] at htail
        exact htail (by simp)
      · rfl

/-- **Every stream** hands on the packets of the bodies that it is cut into. -/
theorem packets_foldl (hdecode : Hands decode accept) (hidle : s.rx.len = 0) (bytes : List Byte) :
    (bytes.foldl (receive capacity decode) s).packets =
      s.packets ++ (cut bytes).1.filterMap (packetOf capacity accept) := by
  obtain ⟨hstream, hbodies, htail⟩ := cut_spec bytes
  have hpackets := @packets_stream capacity decode accept s hdecode hidle _ hbodies _ htail
  rwa [hstream] at hpackets

end CobsReceiver

/-- What `ProcessRxBytes` of the YFR4 driver hands on. -/
def yfr4Accept (frame : List Byte) : Option (List Byte) :=
  if (Cobs.decode frame).1 ∧ 3 ≤ (Cobs.decode frame).2.length then some (Cobs.decode frame).2
  else none

/-- What `ProcessRxBytes` of the cover UI hands on. -/
def panelAccept (frame : List Byte) : Option (List Byte) :=
  if (Cobs.decode frame).1 then some (Cobs.decode frame).2 else none

theorem hands_yfr4Decode : CobsReceiver.Hands yfr4Decode yfr4Accept := by
  intro input output
  obtain ⟨hcontents, hreturned⟩ := cobsDecode_eq input output
  rw [yfr4Accept, yfr4Decode]
  dsimp only
  by_cases hok : (Cobs.decode input).1
  · rw [if_pos hok] at hreturned
    simp only [hreturned, hok, true_and]
    split
    · have hlen : (cobsDecode input output).2.len = (Cobs.decode input).2.length := by
        rw [← hcontents, Writer.length_contents]
      rw [Option.map_some, ← hlen]
      exact congrArg some hcontents
    · rfl
  · rw [if_neg hok] at hreturned
    rw [hreturned, if_neg (by decide), if_neg fun h => hok h.1]
    rfl

theorem hands_panelDecode : CobsReceiver.Hands panelDecode panelAccept := by
  intro src dst
  obtain ⟨hok, hcontents⟩ := YfCoverUi.cobsDecode_eq src dst
  rw [panelAccept, panelDecode]
  dsimp only
  rw [hok]
  split
  · exact congrArg some hcontents
  · rfl

end OpenMower
