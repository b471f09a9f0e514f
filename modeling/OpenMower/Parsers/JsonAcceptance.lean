import OpenMower.Services.InputConfig

/-!
# Which configurations are accepted

`lwjson` is known by two things (`LwjsonContract`): it reports the end of the document at the byte
that completes it, and an error at a byte with which no document goes on. `ProcessJson` then accepts
every complete document on which no callback fails (`processJson_accepts_iff`), but also a source
that ends before the document does, a document on which a callback fails at the last byte only, and
one that is followed by a NUL (`processJson_complete_iff`).
-/

namespace OpenMower

/-- The JSON documents, without what may follow them. -/
structure JsonGrammar where
  Document : CString → Prop
  not_nil : ¬ Document []

namespace JsonGrammar

variable (G : JsonGrammar)

/-- A document goes on like this. -/
def Viable (w : CString) : Prop := ∃ v, G.Document (w ++ v)

/-- A document can go on like this, and none has been completed. -/
def Unfinished (w : CString) : Prop := (∀ u, u <+: w → ¬ G.Document u) ∧ (w ≠ [] → G.Viable w)

/-- The byte at the end completes the first document. -/
def First (doc : CString) : Prop := G.Document doc ∧ ∀ u, u <+: doc → G.Document u → u = doc

variable {G} {w doc doc' : CString} {c : Char}

theorem Viable.mono {w' : CString} (h : G.Viable w') (hw : w <+: w') : G.Viable w := by
  obtain ⟨rest, rfl⟩ := hw
  obtain ⟨v, hdoc⟩ := h
  exact ⟨rest ++ v, by rwa [← List.append_assoc]⟩

theorem Unfinished.nil : G.Unfinished [] := by
  refine ⟨fun u hu hdoc => G.not_nil ?_, fun h => absurd rfl h⟩
  rwa [List.prefix_nil.mp hu] at hdoc

/-- What begins with what is unfinished, and is no document itself, has no document before. -/
theorem Unfinished.not_document_of_prefix_concat (h : G.Unfinished w) (hc : ¬ G.Document (w ++ [c]))
    {u : CString} (hu : u <+: w ++ [c]) : ¬ G.Document u := by
  rcases List.prefix_concat_iff.mp hu with rfl | hu
  · exact hc
  · exact h.1 u hu

theorem Unfinished.concat (h : G.Unfinished w) (hc : ¬ G.Document (w ++ [c]))
    (hviable : G.Viable (w ++ [c])) : G.Unfinished (w ++ [c]) :=
  ⟨fun _ hu => h.not_document_of_prefix_concat hc hu, fun _ => hviable⟩

theorem Unfinished.first_concat (h : G.Unfinished w) (hc : G.Document (w ++ [c])) :
    G.First (w ++ [c]) := by
  refine ⟨hc, fun u hu hdoc => ?_⟩
  rcases List.prefix_concat_iff.mp hu with rfl | hu
  · rfl
  · exact absurd hdoc (h.1 u hu)

/-- A source has at most one first document. -/
theorem First.unique (h : G.First doc) (h' : G.First doc') {rest rest' : CString}
    (heq : doc ++ rest = doc' ++ rest') : doc = doc' ∧ rest = rest' := by
  have hdoc : doc = doc' := by
    rcases List.prefix_or_prefix_of_prefix (List.prefix_append doc rest)
      (heq ▸ List.prefix_append doc' rest') with hle | hle
    · exact h'.2 doc hle h.1
    · exact (h.2 doc' hle h'.1).symm
  subst hdoc
  exact ⟨rfl, List.append_cancel_left heq⟩

/-- What is unfinished and goes on with another byte without a document is before the end of a
document that comes later. -/
theorem First.prefix_dropLast (h : G.First doc) (hw : ∀ u, u <+: w → ¬ G.Document u)
    {rest rest' : CString} (heq : w ++ rest = doc ++ rest') : w <+: doc.dropLast := by
  have hfront : w <+: doc := by
    refine (List.prefix_or_prefix_of_prefix (List.prefix_append w rest)
      (heq ▸ List.prefix_append doc rest')).resolve_right fun hle => hw doc hle h.1
  rcases List.eq_nil_or_concat doc with rfl | ⟨init, c, rfl⟩
  · exact absurd h.1 G.not_nil
  · rw [List.concat_eq_append] at *
    rw [List.dropLast_concat]
    refine (List.prefix_concat_iff.mp hfront).resolve_left ?_
    rintro rfl
    exact hw _ List.prefix_rfl h.1

end JsonGrammar

namespace JsonParser

variable (parser : JsonParser) {σ : Type} (callback : σ → JsonEvent → Bool × σ)

/-- The parser after some bytes. -/
def stateAfter (w : CString) : parser.State := w.foldl (fun p c => (parser.parse p c).1) parser.init

/-- The parser and the callbacks take a byte. -/
def feed (t : parser.State × JsonData σ) (c : Char) : parser.State × JsonData σ :=
  ((parser.parse t.1 c).1, (parser.parse t.1 c).2.1.foldl (jsonCallback callback) t.2)

/-- What the callbacks have made of these bytes. -/
def dataAfter (s : σ) (w : CString) : JsonData σ :=
  (w.foldl (parser.feed callback) (parser.init, { data := s })).2

/-- A call of the callback has returned `false`. -/
def CallbackFailed (s : σ) (w : CString) : Prop := (parser.dataAfter callback s w).failed = true

variable {parser callback} {s : σ} {w : CString} {c : Char}

theorem stateAfter_concat :
    parser.stateAfter (w ++ [c]) = (parser.parse (parser.stateAfter w) c).1 :=
  List.foldl_concat _ _ _ _

theorem foldl_feed_fst (t : JsonData σ) (w : CString) :
    (w.foldl (parser.feed callback) (parser.init, t)).1 = parser.stateAfter w := by
  induction w using List.reverseRecOn with
  | nil => rfl
  | append_singleton w c ih => rw [List.foldl_concat, stateAfter_concat, ← ih, feed]

theorem dataAfter_concat : parser.dataAfter callback s (w ++ [c]) =
    (parser.parse (parser.stateAfter w) c).2.1.foldl (jsonCallback callback)
      (parser.dataAfter callback s w) := by
  rw [dataAfter, List.foldl_concat, feed, foldl_feed_fst]
  rfl

/-- A failed call is remembered. -/
theorem failed_foldl {t : JsonData σ} (h : t.failed = true) (events : List JsonEvent) :
    (events.foldl (jsonCallback callback) t).failed = true := by
  induction events generalizing t with
  | nil => exact h
  | cons event events ih =>
    refine ih ?_
    rw [jsonCallback]
    dsimp only
    rw [h, Bool.true_or]

theorem CallbackFailed.mono {w' : CString} (h : parser.CallbackFailed callback s w)
    (hw : w <+: w') : parser.CallbackFailed callback s w' := by
  obtain ⟨rest, rfl⟩ := hw
  induction rest using List.reverseRecOn with
  | nil => rwa [List.append_nil]
  | append_singleton rest c ih =>
    rw [← List.append_assoc, CallbackFailed, dataAfter_concat]
    exact failed_foldl ih _

end JsonParser

/-- What is assumed of `lwjson_stream_parse`. -/
structure LwjsonContract (parser : JsonParser) (G : JsonGrammar) : Prop where
  streamDone_iff : ∀ w c, G.Unfinished w →
    ((parser.parse (parser.stateAfter w) c).2.2 = .streamDone ↔ G.Document (w ++ [c]))
  error_iff : ∀ w c, G.Unfinished w →
    ((parser.parse (parser.stateAfter w) c).2.2 = .error ↔ ¬ G.Viable (w ++ [c]))

section

variable (G : JsonGrammar) (parser : JsonParser) {σ : Type} (callback : σ → JsonEvent → Bool × σ)
  (s : σ)

/-- What is to be accepted: a complete document, on which no callback fails, and only spaces,
tabs, carriage returns and line feeds behind it. -/
def CompleteConfiguration (json : CString) : Prop :=
  ∃ doc rest, json = doc ++ rest ∧ G.First doc ∧ ¬ parser.CallbackFailed callback s doc ∧
    ∀ c ∈ rest, c ∈ [' ', '\t', '\r', '\n']

/-- What is accepted although it is none. -/
inductive WronglyAccepted (json : CString) : Prop
  /-- The source ends before the document does. -/
  | truncated (h : G.Unfinished json) (hok : ¬ parser.CallbackFailed callback s json)
  /-- A callback fails for the first time at the byte that completes the document. -/
  | failedAtEnd (doc rest : CString) (heq : json = doc ++ rest) (hdoc : G.First doc)
      (hok : ¬ parser.CallbackFailed callback s doc.dropLast)
      (hfailed : parser.CallbackFailed callback s doc) (hrest : onlyWhitespaceRemaining rest = true)
  /-- A NUL is taken for whitespace. -/
  | nul (doc rest : CString) (heq : json = doc ++ rest) (hdoc : G.First doc)
      (hok : ¬ parser.CallbackFailed callback s doc) (hrest : onlyWhitespaceRemaining rest = true)
      (hnul : Char.ofNat 0 ∈ rest)

end

section

variable {G : JsonGrammar} {parser : JsonParser} {σ : Type} {callback : σ → JsonEvent → Bool × σ}
  {s : σ}

open JsonGrammar JsonParser

/-- A pass of the loop. -/
theorem processJson_cons {w : CString} (c : Char) (json : CString) :
    processJson callback parser (parser.stateAfter w) (c :: json)
        (parser.dataAfter callback s w) =
      if (parser.parse (parser.stateAfter w) c).2.2 = .streamDone then
        (onlyWhitespaceRemaining json, (parser.dataAfter callback s (w ++ [c])).data)
      else if (parser.dataAfter callback s (w ++ [c])).failed = true ∨
          (parser.parse (parser.stateAfter w) c).2.2 = .error then
        (false, (parser.dataAfter callback s (w ++ [c])).data)
      else
        processJson callback parser (parser.stateAfter (w ++ [c])) json
          (parser.dataAfter callback s (w ++ [c])) := by
  rw [processJson, stateAfter_concat, dataAfter_concat]

/-- **The loop**, from what is unfinished on: the source ends before the document does, or the
document has been completed and only separators follow. -/
theorem processJson_after (h : LwjsonContract parser G) {w : CString} (hw : G.Unfinished w)
    (hok : ¬ parser.CallbackFailed callback s w) (json : CString) :
    (processJson callback parser (parser.stateAfter w) json (parser.dataAfter callback s w)).1 =
        true ↔
      (G.Unfinished (w ++ json) ∧ ¬ parser.CallbackFailed callback s (w ++ json)) ∨
        ∃ doc rest, w ++ json = doc ++ rest ∧ G.First doc ∧
          ¬ parser.CallbackFailed callback s doc.dropLast ∧
            onlyWhitespaceRemaining rest = true := by
  induction json generalizing w with
  | nil =>
    rw [List.append_nil, processJson]
    exact ⟨fun _ => .inl ⟨hw, hok⟩, fun _ => rfl⟩
  | cons c json ih =>
    have hcons : w ++ c :: json = (w ++ [c]) ++ json := by simp
    have hfront : w ++ [c] <+: w ++ c :: json := hcons ▸ List.prefix_append _ _
    have hdone := h.streamDone_iff w c hw
    have herror := h.error_iff w c hw
    rw [processJson_cons]
    split
    · next hresult =>
      have hdoc := hdone.mp hresult
      have hfirst := hw.first_concat hdoc
      constructor
      · intro hrest
        refine .inr ⟨w ++ [c], json, hcons, hfirst, ?_, hrest⟩
        rwa [List.dropLast_concat]
      · rintro (⟨hunfinished, -⟩ | ⟨doc, rest, heq, hfirst', -, hrest⟩)
        · exact absurd hdoc (hunfinished.1 _ hfront)
        · obtain ⟨-, rfl⟩ := hfirst.unique hfirst' (hcons.symm.trans heq)
          exact hrest
    · next hresult =>
      have hdoc : ¬ G.Document (w ++ [c]) := mt hdone.mpr hresult
      have hnone : ∀ u, u <+: w ++ [c] → ¬ G.Document u :=
        fun u hu => hw.not_document_of_prefix_concat hdoc hu
      split
      · next hstop =>
        -- the loop is left, and neither goes on
        refine ⟨fun hfalse => absurd hfalse Bool.false_ne_true, ?_⟩
        rintro (⟨hunfinished, hok'⟩ | ⟨doc, rest, heq, hfirst, hok', -⟩)
        · rcases hstop with hfailed | hresult
          · exact absurd (CallbackFailed.mono hfailed hfront) hok'
          · exact absurd ((hunfinished.2 (by simp)).mono hfront) (herror.mp hresult)
        · have hdrop := hfirst.prefix_dropLast hnone (hcons.symm.trans heq)
          rcases hstop with hfailed | hresult
          · exact absurd (CallbackFailed.mono hfailed hdrop) hok'
          · refine absurd (Viable.mono ⟨[], ?_⟩ (hdrop.trans (List.dropLast_prefix doc)))
              (herror.mp hresult)
            rw [List.append_nil]
            exact hfirst.1
      · next hgoes =>
        rw [not_or] at hgoes
        have hviable : G.Viable (w ++ [c]) := not_not.mp (mt herror.mpr hgoes.2)
        rw [ih (hw.concat hdoc hviable) hgoes.1, ← hcons]

/-- **What is accepted.** -/
theorem processJson_accepts_iff (h : LwjsonContract parser G) (json : CString) :
    (processJson callback parser parser.init json { data := s }).1 = true ↔
      (G.Unfinished json ∧ ¬ parser.CallbackFailed callback s json) ∨
        ∃ doc rest, json = doc ++ rest ∧ G.First doc ∧
          ¬ parser.CallbackFailed callback s doc.dropLast ∧
            onlyWhitespaceRemaining rest = true :=
  processJson_after h .nil Bool.false_ne_true json

/-- A NUL is the only separator that is not whitespace. -/
theorem onlyWhitespaceRemaining_iff {rest : CString} :
    (∀ c ∈ rest, c ∈ [' ', '\t', '\r', '\n']) ↔
      onlyWhitespaceRemaining rest = true ∧ Char.ofNat 0 ∉ rest := by
  rw [onlyWhitespaceRemaining, List.all_eq_true]
  constructor
  · refine fun h => ⟨fun c hc => ?_, fun hnul => absurd (h _ hnul) (by decide)⟩
    exact decide_eq_true (List.mem_append_left [Char.ofNat 0] (h c hc))
  · rintro ⟨h, hnul⟩ c hc
    have hmem := of_decide_eq_true (h c hc)
    have hne : c ≠ Char.ofNat 0 := fun heq => hnul (heq ▸ hc)
    simpa [hne] using hmem

/-- A complete configuration is accepted. -/
theorem CompleteConfiguration.accepted (h : LwjsonContract parser G) {json : CString}
    (hjson : CompleteConfiguration G parser callback s json) :
    (processJson callback parser parser.init json { data := s }).1 = true := by
  obtain ⟨doc, rest, heq, hfirst, hok, hrest⟩ := hjson
  refine (processJson_accepts_iff h json).mpr (.inr ⟨doc, rest, heq, hfirst, ?_, ?_⟩)
  · exact fun hfailed => hok (hfailed.mono (List.dropLast_prefix doc))
  · exact (onlyWhitespaceRemaining_iff.mp hrest).1

/-- What is wrongly accepted is accepted, and is not a complete configuration. -/
theorem WronglyAccepted.not_complete {json : CString}
    (hjson : WronglyAccepted G parser callback s json) :
    ¬ CompleteConfiguration G parser callback s json := by
  rintro ⟨doc, rest, heq, hfirst, hok, hrest⟩
  cases hjson with
  | truncated h _ => exact h.1 doc (heq ▸ List.prefix_append doc rest) hfirst.1
  | failedAtEnd doc' rest' heq' hfirst' _ hfailed _ =>
    obtain ⟨rfl, -⟩ := hfirst.unique hfirst' (heq.symm.trans heq')
    exact hok hfailed
  | nul doc' rest' heq' hfirst' _ _ hnul =>
    obtain ⟨-, rfl⟩ := hfirst.unique hfirst' (heq.symm.trans heq')
    exact (onlyWhitespaceRemaining_iff.mp hrest).2 hnul

/-- What is accepted is a complete configuration or wrongly accepted. -/
theorem accepted_cases (h : LwjsonContract parser G) {json : CString}
    (hjson : (processJson callback parser parser.init json { data := s }).1 = true) :
    CompleteConfiguration G parser callback s json ∨
      WronglyAccepted G parser callback s json := by
  rcases (processJson_accepts_iff h json).mp hjson with
    ⟨hunfinished, hok⟩ | ⟨doc, rest, heq, hfirst, hok, hrest⟩
  · exact .inr (.truncated hunfinished hok)
  · by_cases hfailed : parser.CallbackFailed callback s doc
    · exact .inr (.failedAtEnd doc rest heq hfirst hok hfailed hrest)
    · by_cases hnul : Char.ofNat 0 ∈ rest
      · exact .inr (.nul doc rest heq hfirst hfailed hrest hnul)
      · exact .inl ⟨doc, rest, heq, hfirst, hfailed, onlyWhitespaceRemaining_iff.mpr ⟨hrest, hnul⟩⟩

theorem WronglyAccepted.accepted (h : LwjsonContract parser G) {json : CString}
    (hjson : WronglyAccepted G parser callback s json) :
    (processJson callback parser parser.init json { data := s }).1 = true := by
  rw [processJson_accepts_iff h]
  cases hjson with
  | truncated hunfinished hok => exact .inl ⟨hunfinished, hok⟩
  | failedAtEnd doc rest heq hfirst hok _ hrest => exact .inr ⟨doc, rest, heq, hfirst, hok, hrest⟩
  | nul doc rest heq hfirst hok hrest _ =>
    refine .inr ⟨doc, rest, heq, hfirst, ?_, hrest⟩
    exact fun hfailed => hok (hfailed.mono (List.dropLast_prefix doc))

/-- **Accepted configurations.** `ProcessJson` returns `true` for exactly the complete
configurations, and `inputs_configured_` says that a configuration is complete, if and only if the
source is none of those that are wrongly accepted. -/
theorem processJson_complete_iff (h : LwjsonContract parser G) :
    (∀ (σ : Type) (callback : σ → JsonEvent → Bool × σ) (s : σ) (json : CString),
        ((processJson callback parser parser.init json { data := s }).1 = true ↔
            CompleteConfiguration G parser callback s json) ↔
          ¬ WronglyAccepted G parser callback s json) ∧
      ∀ (env : InputConfigEnv) (json : CString),
        ((onRegisterInputConfigsChanged env parser json).2.service.inputsConfigured = true →
            CompleteConfiguration G parser (InputConfig.inputConfigsJsonCallback env)
              (InputConfig.start env) json) ↔
          ¬ WronglyAccepted G parser (InputConfig.inputConfigsJsonCallback env)
            (InputConfig.start env) json := by
  constructor
  · refine fun σ callback s json => ⟨fun hiff hwrong => ?_, fun hnot => ?_⟩
    · exact hwrong.not_complete (hiff.mp (hwrong.accepted h))
    · exact ⟨fun hok => (accepted_cases h hok).resolve_right hnot, fun hjson => hjson.accepted h⟩
  · refine fun env json => ⟨fun hcomplete hwrong => ?_, fun hnot hok => ?_⟩
    · exact hwrong.not_complete (hcomplete (hwrong.accepted h))
    · exact (accepted_cases h hok).resolve_right hnot

end

/-- The event at the start or the end of a document. -/
def rootEvent (type : JsonType) : JsonEvent where
  stackPos := 0
  type := type
  buff := []
  buffPos := 0
  key := []
  innerKey := []
  length_le := Nat.le_refl _

/-- The empty object. -/
def emptyObject : CString := [Char.ofNat 0x7B, Char.ofNat 0x7D]

/-- `lwjson` on the empty object. -/
def emptyObjectParser : JsonParser where
  State := ℕ
  init := 0
  parse
    | 0, c => if c = Char.ofNat 0x7B then (1, [rootEvent .object], .inProgress)
      else (2, [], .error)
    | 1, c => if c = Char.ofNat 0x7D then (2, [rootEvent .objectEnd], .streamDone)
      else (2, [], .error)
    | _, _ => (2, [], .error)

/-- The empty object is the only document. -/
def emptyObjectGrammar : JsonGrammar where
  Document w := w = emptyObject
  not_nil := by decide

theorem emptyObjectGrammar_viable {w : CString} :
    emptyObjectGrammar.Viable w ↔ w <+: emptyObject := Iff.rfl

theorem emptyObjectGrammar_unfinished {w : CString} (h : emptyObjectGrammar.Unfinished w) :
    w = [] ∨ w = [Char.ofNat 0x7B] := by
  by_cases hnil : w = []
  · exact .inl hnil
  · have hfront : w <+: [Char.ofNat 0x7B] ++ [Char.ofNat 0x7D] := h.2 hnil
    rcases List.prefix_concat_iff.mp hfront with heq | hle
    · exact absurd heq (h.1 w List.prefix_rfl)
    · have hle' : w <+: [] ++ [Char.ofNat 0x7B] := hle
      exact .inr ((List.prefix_concat_iff.mp hle').resolve_right
        fun hle => hnil (List.prefix_nil.mp hle))

theorem emptyObjectParser_contract : LwjsonContract emptyObjectParser emptyObjectGrammar := by
  constructor <;> intro w c hw
  · rcases emptyObjectGrammar_unfinished hw with rfl | rfl
    · have hdoc : ¬ emptyObjectGrammar.Document ([] ++ [c]) :=
        fun h => by simpa [emptyObject] using congrArg List.length h
      refine ⟨fun hresult => ?_, fun h => absurd h hdoc⟩
      change (ite (c = Char.ofNat 0x7B) _ _ : ℕ × List JsonEvent × JsonResult).2.2 = _ at hresult
      split at hresult <;> cases hresult
    · change (ite (c = Char.ofNat 0x7D) _ _ : ℕ × List JsonEvent × JsonResult).2.2 = _ ↔ _
      have hdoc : emptyObjectGrammar.Document ([Char.ofNat 0x7B] ++ [c]) ↔ c = Char.ofNat 0x7D := by
        simp [emptyObjectGrammar, emptyObject]
      rw [hdoc]
      split <;> simp [*]
  · rw [emptyObjectGrammar_viable]
    rcases emptyObjectGrammar_unfinished hw with rfl | rfl
    · change (ite (c = Char.ofNat 0x7B) _ _ : ℕ × List JsonEvent × JsonResult).2.2 = _ ↔ _
      rw [emptyObject]
      split <;> simp [*]
    · change (ite (c = Char.ofNat 0x7D) _ _ : ℕ × List JsonEvent × JsonResult).2.2 = _ ↔ _
      rw [emptyObject]
      split <;> simp [*]

/-- A callback that never fails, on the empty object and a space. -/
theorem processJson_complete_emptyObject :
    ((processJson (fun _ _ => (true, ())) emptyObjectParser emptyObjectParser.init
          (emptyObject ++ [' ']) { data := () }).1 = true ↔
        CompleteConfiguration emptyObjectGrammar emptyObjectParser (fun _ _ => (true, ())) ()
          (emptyObject ++ [' '])) ↔
      ¬ WronglyAccepted emptyObjectGrammar emptyObjectParser (fun _ _ => (true, ())) ()
        (emptyObject ++ [' ']) :=
  (processJson_complete_iff emptyObjectParser_contract).1 _ _ _ _

/-- A document that breaks off is accepted. -/
theorem processJson_truncated :
    LwjsonContract emptyObjectParser emptyObjectGrammar ∧
      (processJson (fun _ _ => (true, ())) emptyObjectParser emptyObjectParser.init
          [Char.ofNat 0x7B] { data := () }).1 = true ∧
      ¬ CompleteConfiguration emptyObjectGrammar emptyObjectParser (fun _ _ => (true, ())) ()
          [Char.ofNat 0x7B] := by
  refine ⟨emptyObjectParser_contract, by decide, ?_⟩
  rintro ⟨doc, rest, heq, ⟨hdoc, -⟩, -⟩
  have hlen := congrArg List.length heq
  rw [List.length_append, (hdoc : doc = emptyObject)] at hlen
  simp only [emptyObject, List.length_cons, List.length_nil] at hlen
  omega

end OpenMower
