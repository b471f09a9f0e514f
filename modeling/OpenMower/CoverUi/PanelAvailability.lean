import OpenMower.Drivers.PanelComms
import Mathlib.Tactic.Linarith

/-!
# The availability of the cover UI

`ui_available_` should be true while the panel answers. The thread asks for the version every five
seconds, and gives a panel up that has not answered for 250 ms. If no pass polls later than a time
`δ` after the pass before it did, and the first pass none later than `δ` after the start of the
thread, then at each timeout check an available panel has answered within the last 5.25 s and `δ`,
and a panel that has answered is only given up over a later request that has been without an answer
for 250 ms (`panel_availability`). The presence is decided three seconds after the start.

What carries this is that a request that is not pending has been answered after it was sent.
`PanelPresence` is the part of the thread that the polling depends on; a pass of the thread is one
of `PanelPresence`, for which it only matters whether the received bytes have an answer in them.
-/

namespace OpenMower

open CobsReceiver ModularClock

/-- What the polling for the version reads and writes, with the histories. -/
structure PanelPresence where
  uiAvailable : Bool
  uiPresent : Bool
  presenceDetermined : Bool
  versionPending : Bool
  lastVersionPoll : BitVec 32
  versionRequest : BitVec 32
  probeStart : BitVec 32
  answered : Option ℤ
  requests : List ℤ
  polled : ℤ
  checked : ℤ
  started : ℤ
  time : ℤ

/-- The presence of the panel as the thread has it. -/
def PanelComms.presence (s : PanelComms) : PanelPresence where
  uiAvailable := s.ui.uiAvailable
  uiPresent := s.ui.uiPresent
  presenceDetermined := s.ui.presenceDetermined
  versionPending := s.ui.versionPending
  lastVersionPoll := s.lastVersionPoll
  versionRequest := s.versionRequest
  probeStart := s.probeStart
  answered := s.answered
  requests := s.requests
  polled := s.polled
  checked := s.checked
  started := s.started
  time := s.time

namespace PanelPresence

variable (v : PanelPresence) (p : PanelPass)

/-- The panel has answered. -/
def answer (now : ℤ) : PanelPresence :=
  { v with
    uiAvailable := true
    uiPresent := true
    presenceDetermined := v.presenceDetermined || !v.uiPresent
    versionPending := false
    answered := some now }

/-- The bytes of a pass, with an answer in them or not. -/
def receive (hasAnswer : Bool) : PanelPresence :=
  if hasAnswer then v.answer p.drained else v

/-- The verdict about the presence. -/
def probe : PanelPresence :=
  if v.presenceDetermined = false ∧ v.uiPresent = false ∧
      elapsed p.probe v.probeStart (timeMs2i PanelComms.presenceProbeMs) then
    { v with presenceDetermined := true }
  else v

/-- The timeout for the version. -/
def giveUp : PanelPresence :=
  if v.versionPending ∧
      elapsed p.timeout v.versionRequest (timeMs2i PanelComms.versionTimeoutMs) then
    { v with uiAvailable := false, versionPending := false }
  else v

/-- The poll for the version. -/
def poll : PanelPresence :=
  if elapsed p.poll v.lastVersionPoll (timeMs2i PanelComms.versionPollMs) then
    { v with
      lastVersionPoll := reading 32 p.requested
      versionRequest := reading 32 p.requested
      versionPending := true
      requests := v.requests ++ [p.requested]
      polled := p.requested
      checked := p.poll }
  else { v with checked := p.poll }

/-- A pass. -/
def pass (hasAnswer : Bool) : PanelPresence :=
  { (((v.receive p hasAnswer).probe p).giveUp p).poll p with time := p.updated }

variable {v p}

theorem answer_answer (now : ℤ) : (v.answer now).answer now = v.answer now := by
  simp [answer]

@[simp]
theorem receive_checked (hasAnswer : Bool) : (v.receive p hasAnswer).checked = v.checked := by
  cases hasAnswer <;> rfl

@[simp]
theorem receive_started (hasAnswer : Bool) : (v.receive p hasAnswer).started = v.started := by
  cases hasAnswer <;> rfl

/-- The verdict changes nothing else. -/
theorem probe_eq : v.probe p = { v with presenceDetermined := (v.probe p).presenceDetermined } := by
  rw [probe]
  split
  · rfl
  · rfl

@[simp] theorem probe_checked : (v.probe p).checked = v.checked := by rw [probe_eq]

@[simp] theorem probe_started : (v.probe p).started = v.started := by rw [probe_eq]

/-- Giving up only concerns the availability and the request. -/
theorem giveUp_eq : v.giveUp p =
    { v with
      uiAvailable := (v.giveUp p).uiAvailable
      versionPending := (v.giveUp p).versionPending } := by
  rw [giveUp]
  split
  · rfl
  · rfl

@[simp] theorem giveUp_checked : (v.giveUp p).checked = v.checked := by rw [giveUp_eq]

@[simp] theorem giveUp_started : (v.giveUp p).started = v.started := by rw [giveUp_eq]

@[simp]
theorem giveUp_presenceDetermined :
    (v.giveUp p).presenceDetermined = v.presenceDetermined := by rw [giveUp_eq]

/-- A request changes nothing about the panel. -/
theorem poll_keeps :
    (v.poll p).uiAvailable = v.uiAvailable ∧ (v.poll p).answered = v.answered ∧
      (v.poll p).presenceDetermined = v.presenceDetermined ∧ (v.poll p).started = v.started := by
  rw [poll]
  split
  · exact ⟨rfl, rfl, rfl, rfl⟩
  · exact ⟨rfl, rfl, rfl, rfl⟩

end PanelPresence

/-! ### The thread -/

namespace PanelComms

open PanelPresence (answer)

variable {E : EmergencyReason} {crc16 : List Byte → BitVec 16} {pressDelay : Bool → Micros}
  {s : PanelComms} {p : PanelPass} {now : ℤ}

/-- A message is an answer or changes nothing. -/
theorem presence_handleMessage (clock : ℕ → Micros × Micros) (buf : List Byte) :
    (s.handleMessage E crc16 pressDelay clock now buf).presence = s.presence ∨
      (s.handleMessage E crc16 pressDelay clock now buf).presence = s.presence.answer now := by
  rw [handleMessage]
  split
  · next m _ =>
    cases m with
    | version reserved firmware => exact .inr rfl
    | button buttonId pressDuration => exact .inl rfl
    | emergency state => exact .inl rfl
    | rain reserved value threshold => exact .inl rfl
    | subscribe topicBitmask interval =>
      rw [handle]
      split
      · exact .inl rfl
      · exact .inl rfl
  · exact .inl rfl

/-- **The messages of a drain** have an answer among them or not. -/
theorem presence_handleMessages (clock : ℕ → ℕ → Micros × Micros) (packets : List (List Byte)) :
    (s.handleMessages E crc16 pressDelay clock now packets).presence = s.presence ∨
      (s.handleMessages E crc16 pressDelay clock now packets).presence =
        s.presence.answer now := by
  rw [handleMessages]
  induction packets.zipIdx generalizing s with
  | nil => exact .inl rfl
  | cons packet packets ih =>
    rw [List.foldl_cons]
    rcases presence_handleMessage (clock packet.2) packet.1 with hfirst | hfirst <;>
      rcases ih with hrest | hrest
    · exact .inl (hrest.trans hfirst)
    · exact .inr (hrest.trans (congrArg (answer · now) hfirst))
    · exact .inr (hrest.trans hfirst)
    · refine .inr (hrest.trans ?_)
      rw [hfirst, PanelPresence.answer_answer]

theorem presence_checkTimeout :
    (s.checkTimeout E p).presence = s.presence.giveUp p := by
  rw [checkTimeout, PanelPresence.giveUp]
  split
  · next h =>
    refine Eq.trans ?_ (if_pos h).symm
    cases havailable : s.ui.uiAvailable with
    | true => simp [YfCoverUi.versionTimeout, presence, havailable]
    | false => simp [YfCoverUi.versionTimeout, presence, havailable]
  · next h => exact (if_neg h).symm

theorem presence_pollVersion :
    (s.pollVersion crc16 p).presence = s.presence.poll p := by
  rw [pollVersion, PanelPresence.poll]
  split
  · next h => exact (if_pos h).symm
  · next h => exact (if_neg h).symm

theorem presence_probePresence : (s.probePresence p).presence = s.presence.probe p := by
  rw [probePresence, PanelPresence.probe]
  split
  · next h => exact (if_pos h).symm
  · next h => exact (if_neg h).symm

theorem presence_updateLeds : (s.updateLeds crc16 p).presence = s.presence := by
  rw [updateLeds]
  split
  · rfl
  · rfl

/-- **A pass of the thread** is one of its presence. -/
theorem presence_pass : ∃ hasAnswer,
    (s.pass E crc16 pressDelay p).presence = s.presence.pass p hasAnswer := by
  have hdrain : ∃ hasAnswer,
      (s.drain E crc16 pressDelay p).presence = s.presence.receive p hasAnswer := by
    rcases presence_handleMessages p.clock _ with h | h
    · exact ⟨false, h⟩
    · exact ⟨true, h⟩
  obtain ⟨hasAnswer, hdrain⟩ := hdrain
  refine ⟨hasAnswer, ?_⟩
  rw [PanelPresence.pass, ← hdrain, ← presence_probePresence, ← @presence_checkTimeout E,
    ← @presence_pollVersion crc16]
  exact congrArg (fun v : PanelPresence => { v with time := p.updated })
    (@presence_updateLeds crc16 _ p)

end PanelComms

/-! ### The invariant -/

namespace PanelPresence

variable {v : PanelPresence} {p : PanelPass} {δ now : ℤ}

/-- Below the wrap of the clock, `elapsed` compares the true times. -/
theorem elapsed_iff {since : ℤ} {interval : BitVec 32} (hle : since ≤ now)
    (hlt : now - since < 2 ^ 32) :
    elapsed now (reading 32 since) interval = true ↔ (interval.toNat : ℤ) ≤ now - since := by
  rw [elapsed, decide_eq_true_iff, le_reading_sub_iff, Int.emod_eq_of_lt (by omega) hlt]

/-- What holds at a time of a thread whose passes are at most `δ` apart. -/
structure Inv (δ now : ℤ) (v : PanelPresence) : Prop where
  lastVersionPoll : v.lastVersionPoll = reading 32 v.polled
  probeStart : v.probeStart = reading 32 v.started
  age : v.checked - v.polled ≤ 50000
  polled_le : v.polled ≤ now
  checked_le : v.checked ≤ now
  started_le : v.started ≤ now
  answered_le : ∀ r, v.answered = some r → r ≤ now
  /-- A pending request is the last one, and nothing has been answered since. -/
  pending : v.versionPending = true → v.versionRequest = reading 32 v.polled ∧
    v.polled ∈ v.requests ∧ ∀ r, v.answered = some r → r ≤ v.polled
  /-- A request that is not pending has been answered. -/
  available : v.uiAvailable = true → ∃ r, v.answered = some r ∧ v.polled - 50000 - δ ≤ r ∧
    (v.versionPending = false → v.polled ≤ r)
  gone : v.uiAvailable = false → ∀ r, v.answered = some r →
    ∃ q ∈ v.requests, r ≤ q ∧ q + 2500 ≤ now
  present : v.uiPresent = v.answered.isSome
  undetermined : v.presenceDetermined = false →
    v.uiPresent = false ∧ v.checked - v.started ≤ 30000 + δ

/-- Time passes. -/
theorem Inv.wait (h : Inv δ now v) {later : ℤ} (hle : now ≤ later) : Inv δ later v :=
  { h with
    polled_le := h.polled_le.trans hle
    checked_le := h.checked_le.trans hle
    started_le := h.started_le.trans hle
    answered_le := fun r hr => (h.answered_le r hr).trans hle
    gone := fun hgone r hr => by
      obtain ⟨q, hq, hrq, hage⟩ := h.gone hgone r hr
      exact ⟨q, hq, hrq, hage.trans hle⟩ }

/-- **An answer** comes after the last request. -/
theorem Inv.receive (hδ : 0 ≤ δ) (h : Inv δ p.drained v) (hasAnswer : Bool) :
    Inv δ p.drained (v.receive p hasAnswer) := by
  cases hasAnswer with
  | false => exact h
  | true =>
    have hpolled := h.polled_le
    refine
      { h with
        answered_le := fun r hr => (Option.some.inj hr).ge
        pending := nofun
        available := fun _ => ⟨p.drained, rfl, ?_, fun _ => hpolled⟩
        gone := nofun
        present := rfl
        undetermined := fun hundetermined => ?_ }
    · show v.polled - 50000 - δ ≤ p.drained
      omega
    · have hboth := Bool.or_eq_false_iff.mp hundetermined
      have hpresent := (h.undetermined hboth.1).1
      rw [hpresent] at hboth
      cases hboth.2

/-- **The verdict** is reached in time. -/
theorem Inv.probe (hδ : δ ≤ 47500) (h : Inv δ p.probe v)
    (hprompt : p.probe - v.checked ≤ δ) :
    Inv δ p.probe (v.probe p) ∧ (30000 ≤ p.probe - v.started →
        (v.probe p).presenceDetermined = true) ∧
      ((v.probe p).presenceDetermined = false → p.probe - v.started < 30000) := by
  have hstarted := h.started_le
  rw [PanelPresence.probe]
  split
  · exact ⟨{ h with undetermined := nofun }, fun _ => rfl, nofun⟩
  · next hnot =>
    have hearly : v.presenceDetermined = false → p.probe - v.started < 30000 := by
      intro hundetermined
      obtain ⟨hpresent, hage⟩ := h.undetermined hundetermined
      by_contra hlate
      refine hnot ⟨hundetermined, hpresent, ?_⟩
      rw [h.probeStart]
      refine (elapsed_iff hstarted (by omega)).mpr ?_
      exact Int.not_lt.mp hlate
    refine ⟨h, fun hlate => ?_, hearly⟩
    by_contra hundetermined
    exact absurd (hearly (Bool.not_eq_true _ ▸ hundetermined)) (by omega)

/-- **The timeout.** After it, an available panel has answered not long ago. -/
theorem Inv.giveUp (hδ : δ ≤ 47500) (h : Inv δ p.timeout v)
    (hprompt : p.timeout - v.checked ≤ δ) :
    Inv δ p.timeout (v.giveUp p) ∧ ((v.giveUp p).versionPending = true →
        p.timeout - (v.giveUp p).polled < 2500) ∧
      ((v.giveUp p).uiAvailable = true → ∃ r, (v.giveUp p).answered = some r ∧
        p.timeout - r < 52500 + δ) := by
  have hpolled := h.polled_le
  have hage := h.age
  rw [PanelPresence.giveUp]
  split
  · next hexpired =>
    obtain ⟨hpending, helapsed⟩ := hexpired
    obtain ⟨hrequest, hmem, hafter⟩ := h.pending hpending
    rw [hrequest, elapsed_iff hpolled (by omega)] at helapsed
    refine ⟨{ h with
      pending := nofun
      available := nofun
      gone := fun _ r hr => ⟨v.polled, hmem, hafter r hr, ?_⟩ }, nofun, nofun⟩
    exact le_sub_iff_add_le'.mp helapsed
  · next hnot =>
    have hrecent : v.versionPending = true → p.timeout - v.polled < 2500 := by
      intro hpending
      obtain ⟨hrequest, -, -⟩ := h.pending hpending
      by_contra hlate
      refine hnot ⟨hpending, ?_⟩
      rw [hrequest]
      refine (elapsed_iff hpolled (by omega)).mpr ?_
      exact Int.not_lt.mp hlate
    refine ⟨h, hrecent, fun havailable => ?_⟩
    obtain ⟨r, hr, hlow, hanswered⟩ := h.available havailable
    refine ⟨r, hr, ?_⟩
    cases hpending : v.versionPending with
    | true =>
      have hrequest := hrecent hpending
      omega
    | false =>
      have hle := hanswered hpending
      omega

/-- **The poll.** The request before it has been answered or given up. -/
theorem Inv.poll (hδ : δ ≤ 47500) (h : Inv δ p.poll v) (horder : p.poll ≤ p.requested)
    (hprompt : p.requested - v.checked ≤ δ)
    (hrecent : v.versionPending = true → v.checked - v.polled < 2500)
    (hearly : v.presenceDetermined = false → v.checked - v.started < 30000) :
    Inv δ p.requested (v.poll p) := by
  have hpolled := h.polled_le
  have hchecked := h.checked_le
  have hage := h.age
  have hlater := h.wait horder
  have hundetermined : v.presenceDetermined = false →
      v.uiPresent = false ∧ p.poll - v.started ≤ 30000 + δ := by
    intro hnone
    have hstarted := hearly hnone
    exact ⟨(h.undetermined hnone).1, by omega⟩
  rw [PanelPresence.poll]
  split
  · next helapsed =>
    rw [h.lastVersionPoll, elapsed_iff hpolled (by omega)] at helapsed
    have hdue : 50000 ≤ p.poll - v.polled := helapsed
    refine { hlater with
      lastVersionPoll := rfl
      age := ?_
      polled_le := le_refl p.requested
      checked_le := horder
      pending := fun _ => ⟨rfl, List.mem_append_right _ (List.mem_singleton_self _),
        hlater.answered_le⟩
      available := fun havailable => ?_
      gone := fun hgone r hr => ?_
      undetermined := hundetermined }
    · show p.poll - p.requested ≤ 50000
      omega
    · obtain ⟨r, hr, -, hanswered⟩ := h.available havailable
      refine ⟨r, hr, ?_, nofun⟩
      have hnotpending : v.versionPending = false := by
        rw [← Bool.not_eq_true]
        intro hpending
        have hrequest := hrecent hpending
        omega
      have hle := hanswered hnotpending
      show p.requested - 50000 - δ ≤ r
      omega
    · obtain ⟨q, hq, hrq, hold⟩ := hlater.gone hgone r hr
      exact ⟨q, List.mem_append_left _ hq, hrq, hold⟩
  · next hnot =>
    have hnotdue : p.poll - v.polled < 50000 := by
      by_contra hdue
      refine hnot ?_
      rw [h.lastVersionPoll]
      refine (elapsed_iff hpolled (by omega)).mpr ?_
      exact Int.not_lt.mp hdue
    exact { hlater with
      age := hnotdue.le
      checked_le := horder
      undetermined := hundetermined }

/-- What a pass makes true, at its timeout check and behind it. -/
structure Honest (δ : ℤ) (p : PanelPass) (v : PanelPresence) : Prop where
  /-- An available panel has answered not long ago. -/
  available : v.uiAvailable = true → ∃ r, v.answered = some r ∧ p.timeout - r < 52500 + δ
  /-- A panel is given up over a request that has not been answered. -/
  gone : v.uiAvailable = false → ∀ r, v.answered = some r →
    ∃ q ∈ v.requests, r ≤ q ∧ q + 2500 ≤ v.time
  /-- It is present once it has answered. -/
  present : v.uiPresent = v.answered.isSome
  /-- Three seconds after the start there is a verdict. -/
  determined : 30000 ≤ p.probe - v.started → v.presenceDetermined = true

/-- **A pass.** -/
theorem Inv.pass (hδ₀ : 0 ≤ δ) (hδ : δ ≤ 47500) (h : Inv δ v.time v) (horder : p.InOrder v.time)
    (hprompt : p.requested - v.checked ≤ δ) (hasAnswer : Bool) :
    Inv δ (v.pass p hasAnswer).time (v.pass p hasAnswer) ∧ Honest δ p (v.pass p hasAnswer) := by
  have hprobed := horder.probe
  have htimeout := horder.timeout
  have hpoll := horder.poll
  have hrequested := horder.requested
  have hreceived : Inv δ p.drained (v.receive p hasAnswer) :=
    (h.wait horder.drained).receive hδ₀ hasAnswer
  have hreached := hreceived.checked_le
  rw [receive_checked] at hreached
  obtain ⟨hprobe, hdetermined, hearly⟩ := (hreceived.wait hprobed).probe hδ
    (by rw [receive_checked]; omega)
  rw [receive_started] at hdetermined hearly
  obtain ⟨hgiveUp, hrecent, havailable⟩ := (hprobe.wait htimeout).giveUp hδ
    (by rw [probe_checked, receive_checked]; omega)
  have hpolled := (hgiveUp.wait hpoll).poll hδ hrequested ?_ ?_ ?_
  · obtain ⟨hkeepsAvailable, hkeepsAnswered, hkeepsDetermined, hkeepsStarted⟩ :=
      @poll_keeps (((v.receive p hasAnswer).probe p).giveUp p) p
    have hend := hpolled.wait (horder.led.trans horder.updated)
    -- the state at the end only has another time
    have hpass : Inv δ p.updated (v.pass p hasAnswer) := { hend with }
    refine ⟨hpass, ?_, hpass.gone, hpass.present, fun hlate => ?_⟩
    · intro hstill
      obtain ⟨r, hr, hage⟩ := havailable (hkeepsAvailable.symm.trans hstill)
      exact ⟨r, hkeepsAnswered.trans hr, hage⟩
    · refine hkeepsDetermined.trans ?_
      rw [giveUp_presenceDetermined]
      refine hdetermined ?_
      have hstarted : (v.pass p hasAnswer).started = v.started := by
        refine hkeepsStarted.trans ?_
        rw [giveUp_started, probe_started, receive_started]
      rwa [hstarted] at hlate
  · rw [giveUp_checked, probe_checked, receive_checked]
    exact hprompt
  · intro hpending
    have hrequest := hrecent hpending
    rw [giveUp_checked, probe_checked, receive_checked]
    omega
  · rw [giveUp_presenceDetermined, giveUp_checked, probe_checked, receive_checked, giveUp_started,
      probe_started, receive_started]
    intro hundetermined
    have hstarted := hearly hundetermined
    omega

end PanelPresence

/-! ### Runs -/

open PanelComms PanelPresence

variable {E : EmergencyReason} {crc16 : List Byte → BitVec 16} {pressDelay : Bool → Micros}

theorem PanelComms.IsStart.inv {s : PanelComms} {δ poll led probe : ℤ} (hδ : 0 ≤ δ)
    (h : s.IsStart poll led probe) : Inv δ s.time s.presence := by
  obtain ⟨inputs, hui⟩ := h.ui
  have horder := h.order
  have hpolled : s.presence.polled = poll - 50000 := h.polled
  have hchecked : s.presence.checked = poll := h.checked
  have hstarted : s.presence.started = probe := h.started
  have hanswered : s.presence.answered = none := h.answered
  have htime := h.time
  refine
    { lastVersionPoll := ?_
      probeStart := by rw [hstarted]; exact h.probeStart
      age := by rw [hchecked, hpolled]; omega
      polled_le := by rw [hpolled, htime]; omega
      checked_le := by rw [hchecked, htime]; omega
      started_le := by rw [hstarted, htime]
      answered_le := by rw [hanswered]; nofun
      pending := fun hpending => ?_
      available := fun havailable => ?_
      gone := by rw [hanswered]; nofun
      present := by rw [hanswered, presence, hui]; rfl
      undetermined := fun _ => ⟨by rw [presence, hui], by rw [hchecked, hstarted]; omega⟩ }
  · rw [hpolled, presence, h.lastVersionPoll, reading_sub_eq]
    rfl
  · rw [presence, hui] at hpending
    cases hpending
  · rw [presence, hui] at havailable
    cases havailable

/-- The poll of a pass comes at most `δ` after that of the pass before, and the poll of the first
pass at most `δ` after the start of the thread. -/
def PromptPass (δ : ℤ) (s : PanelComms) (e : PanelCommsEvent) (_ : PanelComms) : Prop :=
  ∀ p, e = .pass p → p.requested - s.checked ≤ δ

/-- After a pass the presence is what it should be. -/
def HonestPass (δ : ℤ) (_ : PanelComms) (e : PanelCommsEvent) (s' : PanelComms) : Prop :=
  ∀ p, e = .pass p → Honest δ p s'.presence

/-- **The availability of the panel.** Along every run of the thread whose passes follow the start
of the thread and one another within `δ`, whatever bytes it receives, each pass leaves a panel
available only if it has answered less than 5.25 s and `δ` before the timeout check, gives it up
only over a request that has been without an answer for 250 ms, and has reached the verdict about
its presence after three seconds. -/
theorem panel_availability {δ : ℤ} (hδ₀ : 0 ≤ δ) (hδ : δ ≤ 47500) {s₀ : PanelComms}
    (hinit : (panelComms E crc16 pressDelay).Init s₀) {es : List PanelCommsEvent}
    (hprompt : (panelComms E crc16 pressDelay).EveryStep (PromptPass δ) s₀ es) :
    (panelComms E crc16 pressDelay).EveryStep (HonestPass δ) s₀ es := by
  obtain ⟨poll, led, probe, hstart⟩ := hinit
  refine hprompt.imp (I := fun s => Inv δ s.time s.presence) (hstart.inv hδ₀) ?_
  intro s e s' hI hs hprompt
  cases e with
  | pass p =>
    obtain ⟨horder, rfl⟩ := Option.ite_none_right_eq_some.mp hs |>.imp_right Option.some.inj
    obtain ⟨hasAnswer, hpass⟩ := @presence_pass E crc16 pressDelay s p
    obtain ⟨hI', hhonest⟩ := @Inv.pass s.presence p δ hδ₀ hδ hI horder (hprompt p rfl) hasAnswer
    rw [← hpass] at hI' hhonest
    refine ⟨hI', fun q hq => ?_⟩
    obtain rfl := PanelCommsEvent.pass.inj hq
    exact hhonest
  | sleep time =>
    obtain ⟨hle, rfl⟩ := Option.ite_none_right_eq_some.mp hs |>.imp_right Option.some.inj
    exact ⟨{ hI.wait hle with }, nofun⟩
  | configure service inputs =>
    obtain rfl := Option.some.inj hs
    exact ⟨{ hI with }, nofun⟩

/-- The thread begins at the time 0. -/
def panelThreadStart : PanelComms where
  service :=
    { allInputs := []
      numActiveLift := 0#8
      numActiveCollision := 0#8
      liftMultipleInput := 0
      collisionMultipleInput := 0
      redundancyGroupRefcount := fun _ => 0#8
      inputsConfigured := false }
  lastVersionPoll := reading 32 0 - timeMs2i versionPollMs
  lastLedUpdate := reading 32 0 - timeMs2i 500
  probeStart := reading 32 0
  polled := -50000
  checked := 0
  started := 0
  time := 0

/-- A pass that takes no time. -/
def passAt (time : ℤ) (bytes : List Byte) : PanelPass where
  bytes := bytes
  drained := time
  clock := fun _ _ => (0#32, 0#32)
  probe := time
  timeout := time
  timeoutClock := fun _ => 0#32
  poll := time
  requested := time
  led := time
  updated := time
  leds := 0#64
  txBuf := fun _ => 0#8

/-- A panel that answers the first request, for a CRC that is always 0. -/
theorem panel_availability_answer :
    (panelComms .standard (fun _ => 0#16) fun _ => 0#32).EveryStep (HonestPass 1000)
      panelThreadStart
      [.pass (passAt 10 []), .pass (passAt 510 [0x02#8, 0xB0#8, 0x02#8, 0x07#8, 0x01#8, 0x01#8,
        0x01#8, 0x00#8])] := by
  refine panel_availability (by decide) (by decide)
    ⟨0, 0, 0, ⟨by decide, by decide⟩, ⟨[], rfl⟩, rfl, rfl, rfl, rfl, rfl, rfl, rfl, rfl, rfl, rfl,
      rfl, rfl, rfl, rfl⟩ ?_
  intro s hs
  obtain rfl := Option.some.inj hs
  refine ⟨fun p hp => ?_, fun s' hs' => ⟨fun p hp => ?_, trivial⟩⟩
  · obtain rfl := PanelCommsEvent.pass.inj hp
    decide
  · obtain rfl := PanelCommsEvent.pass.inj hp
    decide

end OpenMower
