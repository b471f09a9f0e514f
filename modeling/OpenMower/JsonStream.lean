import Mathlib.Data.BitVec
import Mathlib.Tactic.Common

/-!
# Streaming JSON

From `json_stream`. The parser `lwjson` is not part of the repository, so it is a parameter
here: a `JsonParser` takes the document character by character and reports, for each
character, the callbacks that it makes and its result. `processJson` feeds it and decides
whether the document is accepted.

`processJson_invariant` is the induction over a document: what every call of the callback
keeps holds when the document has been processed.
-/

namespace OpenMower

/-- A C string, one character for each byte, without the final NUL. -/
abbrev CString := List Char

/-- `lwjson_stream_type_t`. -/
inductive JsonType
  | none
  | object
  | objectEnd
  | array
  | arrayEnd
  | key
  | string
  | true
  | false
  | null
  | number
  deriving DecidableEq, Repr

/-- What the callbacks read from the parser: the depth and the type of the event, the text in
the buffer, `str.buff_pos`, and the names of the keys at the depths 4 and 6. -/
structure JsonEvent where
  stackPos : ℕ
  type : JsonType
  buff : CString
  buffPos : ℕ
  key : CString
  innerKey : CString
  /-- The text ends at the write position, or before that if it contains a NUL. -/
  length_le : buff.length ≤ buffPos

/-- The results of `lwjson_stream_parse` that are told apart: `lwjsonSTREAMDONE`, the errors of
`IsError`, and all others. -/
inductive JsonResult
  | inProgress
  | streamDone
  | error
  deriving DecidableEq, Repr

/-- `lwjson_stream_parse`, for one character. -/
structure JsonParser where
  State : Type
  init : State
  parse : State → Char → State × List JsonEvent × JsonResult

/-- `json_data_t`: what the callback works on, and whether a call has failed. -/
structure JsonData (σ : Type) where
  data : σ
  failed : Bool := false

/-- `JsonGetBool`; `none` where it returns `false`. -/
def jsonGetBool (type : JsonType) : Option Bool :=
  match type with
  | .true => some true
  | .false => some false
  | _ => none

/-- `JsonGetNumber`, for the conversion to the type of the value; `none` where it returns
`false`. -/
def jsonGetNumber {α : Type} (toArithmetic : CString → Option α) (event : JsonEvent) : Option α :=
  if event.type = .number then toArithmetic event.buff else none

/-- `OnlyWhitespaceRemaining`. The search in the list of separators also finds the NUL at its
end. -/
def onlyWhitespaceRemaining (json : CString) : Bool :=
  json.all fun c => decide (c ∈ [' ', '\t', '\r', '\n', Char.ofNat 0])

variable {σ : Type} (callback : σ → JsonEvent → Bool × σ)

/-- `Callback`: a failed call is remembered. -/
def jsonCallback (s : JsonData σ) (event : JsonEvent) : JsonData σ :=
  let (ok, data) := callback s.data event
  { data := data, failed := s.failed || !ok }

/-- `ProcessJson`, from a state of the parser on: whether the document is accepted, and what
the callbacks have made of it. -/
def processJson (parser : JsonParser) : parser.State → CString → JsonData σ → Bool × σ
  -- the end has not been found, which is logged, but the source returns `true`
  | _, [], s => (true, s.data)
  | p, c :: json, s =>
    let (p', events, result) := parser.parse p c
    let s' := events.foldl (jsonCallback callback) s
    if result = .streamDone then (onlyWhitespaceRemaining json, s'.data)
    else if s'.failed ∨ result = .error then (false, s'.data)
    else processJson parser p' json s'

variable {callback} {I : σ → Prop}

theorem jsonCallback_invariant (hstep : ∀ s event, I s → I (callback s event).2)
    {events : List JsonEvent} {s : JsonData σ} (h : I s.data) :
    I (events.foldl (jsonCallback callback) s).data := by
  induction events generalizing s with
  | nil => exact h
  | cons event events ih => exact ih (hstep s.data event h)

/-- **Induction over a document.** What every call of the callback keeps, failed or not, holds
of the result. -/
theorem processJson_invariant (hstep : ∀ s event, I s → I (callback s event).2)
    {parser : JsonParser} {p : parser.State} {json : CString} {s : JsonData σ} (h : I s.data) :
    I (processJson callback parser p json s).2 := by
  induction json generalizing p s with
  | nil => exact h
  | cons c json ih =>
    rcases hparse : parser.parse p c with ⟨p', events, result⟩
    have hevents : I (events.foldl (jsonCallback callback) s).data :=
      jsonCallback_invariant hstep h
    simp only [processJson, hparse]
    split
    · exact hevents
    split
    · exact hevents
    · exact ih hevents

/-- **Two callbacks side by side.** If a part of what a callback works on is treated as by
another callback, then so it is by the whole document. -/
theorem processJson_map {τ : Type} {callback' : τ → JsonEvent → Bool × τ} {part : τ → σ}
    (hpart : ∀ t event, callback (part t) event =
      ((callback' t event).1, part (callback' t event).2))
    (parser : JsonParser) (p : parser.State) (json : CString) (t : JsonData τ) :
    processJson callback parser p json { data := part t.data, failed := t.failed } =
      ((processJson callback' parser p json t).1,
        part (processJson callback' parser p json t).2) := by
  have hevents : ∀ (events : List JsonEvent) (t : JsonData τ),
      events.foldl (jsonCallback callback) { data := part t.data, failed := t.failed } =
        { data := part (events.foldl (jsonCallback callback') t).data
          failed := (events.foldl (jsonCallback callback') t).failed } := by
    intro events
    induction events with
    | nil => exact fun t => rfl
    | cons event events ih =>
      intro t
      rw [List.foldl_cons, List.foldl_cons, ← ih]
      simp only [jsonCallback, hpart]
  induction json generalizing p t with
  | nil => rfl
  | cons c json ih =>
    rcases hparse : parser.parse p c with ⟨p', events, result⟩
    simp only [processJson, hparse, hevents]
    split
    · rfl
    split
    · rfl
    · exact ih p' _

end OpenMower
