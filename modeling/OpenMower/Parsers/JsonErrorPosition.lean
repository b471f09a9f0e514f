import Mathlib.Data.List.TakeWhile
import OpenMower.Library.Buffer

/-!
# Reporting the position of a JSON error

From `json_stream`. `LogErrorPosition` logs the document again, line by line, with a marker behind
the character at which parsing has failed. Lines are collected in `line_buf` and split when they
come near to its end. `DataSource` is not part of the repository; `Delivers` is what is used of it.

Without the marker a line is split at 121 characters, which leaves room for the split marker.
The error marker is put in before the line is split, so that from column 115 on the two of them
exceed the buffer (`error_report_inBounds_iff`).
-/

namespace OpenMower

open Buffer

/-- `DataSource`. -/
structure DataSource where
  State : Type
  hasNext : State → Bool
  next : State → Char × State
  position : State → ℕ
  rewind : State → State

/-- The source delivers the characters of a document from a rewind on, and counts them. -/
structure DataSource.Delivers (source : DataSource) (document : List Char)
    (At : source.State → ℕ → Prop) : Prop where
  rewind : ∀ s, At (source.rewind s) 0
  hasNext : ∀ s i, At s i → source.hasNext s = decide (i < document.length)
  next : ∀ s before c after, At s before.length → document = before ++ c :: after →
    (source.next s).1 = c ∧ At (source.next s).2 (before.length + 1)
  position : ∀ s i, At s i → source.position s = i

/-- `sizeof(line_buf)`. -/
def lineBufSize : ℕ := 128

/-- `line_buf` and `line_pos`. -/
structure ErrorReport where
  line : Writer Char
  /-- History: the indices at which `line_buf` has been written. -/
  writes : List ℕ
  /-- History: the lines that have been logged. -/
  logged : List (List Char)

namespace ErrorReport

variable (r : ErrorReport)

/-- `line_buf[line_pos++] = c`. -/
def put (c : Char) : ErrorReport :=
  { r with line := r.line.put c, writes := r.writes ++ [r.line.len] }

/-- One character of a text after the other. -/
def puts (text : List Char) : ErrorReport := text.foldl put r

/-- `ULOG_ERROR("%.*s", line_pos, line_buf)`, and the next line begins. -/
def log : ErrorReport :=
  { r with
    line := .ofBuffer r.line.buffer
    logged := r.logged ++ [r.line.contents.takeWhile fun c => decide (c ≠ Char.ofNat 0)] }

/-- Newlines are left out. -/
def putChar (c : Char) : ErrorReport := if c ≠ '\n' then r.put c else r

/-- The marker behind the character at the error. -/
def markError (atError : Bool) : ErrorReport :=
  if atError then r.puts ['<', 'E', 'R', 'R', 'O', 'R', '>'] else r

/-- `split_line`. -/
def splitLine : Bool := decide (lineBufSize - 7 ≤ r.line.len)

/-- The marker at the end of a line that is split. -/
def markSplit : ErrorReport :=
  if r.splitLine then r.puts ['<', 'S', 'P', 'L', 'I', 'T', '>'] else r

/-- What a pass of the loop makes of a character: whether it is the one at the error, and whether
there are more. -/
def take (c : Char) (atError more : Bool) : ErrorReport :=
  let r := (r.putChar c).markError atError
  if c = '\n' ∨ more = false ∨ r.splitLine then r.markSplit.log else r.markSplit

/-- Nothing has been written outside of the buffer, and no more than the buffer logged. -/
structure InBounds : Prop where
  writes : ∀ i ∈ r.writes, i < lineBufSize
  logged : ∀ line ∈ r.logged, line.length ≤ lineBufSize

variable {r}

theorem puts_len (text : List Char) : (r.puts text).line.len = r.line.len + text.length := by
  induction text generalizing r with
  | nil => rfl
  | cons c text ih =>
    have hnext : (r.put c).line.len = r.line.len + 1 := rfl
    rw [puts, List.foldl_cons, ← puts, ih, hnext, List.length_cons]
    omega

/-- A text fits, or its end is written outside. -/
theorem puts_inBounds_iff (h : r.InBounds) (hlen : r.line.len ≤ lineBufSize) (text : List Char) :
    (r.puts text).InBounds ↔ r.line.len + text.length ≤ lineBufSize := by
  have hwrites : (r.puts text).writes = r.writes ++ List.range' r.line.len text.length := by
    clear h hlen
    induction text generalizing r with
    | nil => simp [puts]
    | cons c text ih =>
      have hnext : (r.put c).line.len = r.line.len + 1 := rfl
      rw [puts, List.foldl_cons, ← puts, ih, hnext, put, List.length_cons, List.range'_succ]
      simp
  have hlogged : (r.puts text).logged = r.logged := by
    clear h hlen hwrites
    induction text generalizing r with
    | nil => rfl
    | cons c text ih => exact ih
  constructor
  · intro hbounds
    by_cases hnil : text.length = 0
    · omega
    have hlast := hbounds.writes (r.line.len + text.length - 1) (by
      rw [hwrites, List.mem_append, List.mem_range'_1]
      omega)
    omega
  · intro hroom
    refine ⟨fun i hi => ?_, by rw [hlogged]; exact h.logged⟩
    rw [hwrites, List.mem_append, List.mem_range'_1] at hi
    rcases hi with hi | ⟨-, hi⟩
    · exact h.writes i hi
    · omega

/-- What is logged is in the buffer if what is in the line is. -/
theorem log_inBounds_iff (hlen : r.line.len ≤ lineBufSize) : r.log.InBounds ↔ r.InBounds := by
  constructor
  · intro h
    exact ⟨h.writes, fun line hline => h.logged line (List.mem_append_left _ hline)⟩
  · intro h
    refine ⟨h.writes, fun line hline => ?_⟩
    rcases List.mem_append.mp hline with hline | hline
    · exact h.logged line hline
    · rw [List.mem_singleton.mp hline]
      refine Nat.le_trans (List.takeWhile_sublist _).length_le ?_
      rwa [Writer.length_contents]

/-! ### A pass -/

theorem putChar_len (c : Char) :
    (r.putChar c).line.len = r.line.len + if c = '\n' then 0 else 1 := by
  by_cases hc : c = '\n'
  · rw [putChar, if_neg (not_not.mpr hc), if_pos hc, Nat.add_zero]
  · rw [putChar, if_pos hc, if_neg hc]
    rfl

theorem putChar_inBounds (h : r.InBounds) (hlen : r.line.len ≤ 120) (c : Char) :
    (r.putChar c).InBounds := by
  rw [putChar]
  split
  · refine (@puts_inBounds_iff r h (by rw [lineBufSize]; omega) [c]).mpr ?_
    rw [lineBufSize, List.length_singleton]
    omega
  · exact h

theorem markError_len (atError : Bool) :
    (r.markError atError).line.len = r.line.len + if atError then 7 else 0 := by
  rw [markError]
  split
  · exact puts_len _
  · rfl

theorem markError_inBounds (h : r.InBounds) (hlen : r.line.len ≤ 121) (atError : Bool) :
    (r.markError atError).InBounds := by
  rw [markError]
  split
  · exact (puts_inBounds_iff h (by rw [lineBufSize]; omega) _).mpr (Nat.add_le_add_right hlen 7)
  · exact h

theorem splitLine_iff : r.splitLine = true ↔ 121 ≤ r.line.len := decide_eq_true_iff

/-- A line that is not split has room for a character and the error marker. -/
theorem markSplit_of_le (h : r.line.len ≤ 120) : r.markSplit = r :=
  if_neg fun hsplit => absurd (splitLine_iff.mp hsplit) (by omega)

theorem markSplit_len (h : 121 ≤ r.line.len) : r.markSplit.line.len = r.line.len + 7 := by
  rw [markSplit, if_pos (splitLine_iff.mpr h)]
  exact puts_len _

/-- **The split marker fits** behind at most 121 characters. -/
theorem markSplit_inBounds_iff (h : r.InBounds) (hlen : r.line.len ≤ lineBufSize) :
    r.markSplit.InBounds ↔ r.line.len ≤ 121 := by
  by_cases hshort : r.line.len ≤ 120
  · rw [markSplit_of_le hshort]
    exact iff_of_true h (by omega)
  · have hsplit : r.splitLine = true := splitLine_iff.mpr (by omega)
    rw [markSplit, if_pos hsplit, puts_inBounds_iff h hlen, lineBufSize]
    exact Nat.add_le_add_iff_right (n := 7) (k := 121)

theorem markSplit_len_le (hlen : r.line.len ≤ 121) : r.markSplit.line.len ≤ lineBufSize := by
  by_cases hshort : r.line.len ≤ 120
  · rw [markSplit_of_le hshort, lineBufSize]
    omega
  · rw [markSplit_len (by omega)]
    exact Nat.add_le_add_right hlen 7

/-- **A pass stays in the buffer** unless the error is too far in the line. -/
theorem take_inBounds_iff (h : r.InBounds) (hlen : r.line.len ≤ 120) (c : Char)
    (atError more : Bool) : (r.take c atError more).InBounds ↔
      (atError = true → (r.line.len + if c = '\n' then 0 else 1) ≤ 114) := by
  have hchar := @putChar_len r c
  have hle : (r.putChar c).line.len ≤ 121 := by
    rw [hchar]
    split <;> omega
  have hmarked := @markError_len (r.putChar c) atError
  have hbounds := markError_inBounds (putChar_inBounds h hlen c) hle atError
  have hmarkedLe : ((r.putChar c).markError atError).line.len ≤ lineBufSize := by
    rw [hmarked, lineBufSize]
    split <;> omega
  have hsplit := markSplit_inBounds_iff hbounds hmarkedLe
  have htake : (r.take c atError more).InBounds ↔
      ((r.putChar c).markError atError).line.len ≤ 121 := by
    rw [take]
    split
    · constructor
      · intro hlog
        exact hsplit.mp ⟨hlog.writes, fun line hline =>
          hlog.logged line (List.mem_append_left _ hline)⟩
      · intro hroom
        exact (log_inBounds_iff (markSplit_len_le hroom)).mpr (hsplit.mpr hroom)
    · exact hsplit
  rw [htake, hmarked, hchar]
  cases atError
  · simp only [Bool.false_eq_true, if_false, false_imp_iff, iff_true]
    rw [← hchar]
    exact hle
  · simp only [if_true, true_imp_iff]
    omega

/-- After a pass a character and the error marker fit. -/
theorem take_len_le (c : Char) (atError more : Bool) :
    (r.take c atError more).line.len ≤ 120 := by
  rw [take]
  split
  · exact Nat.zero_le _
  · next hcontinue =>
    have hshort : ((r.putChar c).markError atError).line.len ≤ 120 := by
      by_contra hlong
      exact hcontinue (.inr (.inr (splitLine_iff.mpr (by omega))))
    rwa [markSplit_of_le hshort]

/-- Before the error a line grows by its characters, and is split after 121 of them. -/
theorem take_len (hlen : r.line.len ≤ 120) (c : Char) :
    (r.take c false true).line.len = if c = '\n' then 0 else (r.line.len + 1) % 121 := by
  have hchar := @putChar_len r c
  have hunmarked : (r.putChar c).markError false = r.putChar c := rfl
  rw [take, hunmarked]
  by_cases hc : c = '\n'
  · rw [if_pos (.inl hc), if_pos hc]
    rfl
  · rw [if_neg hc] at hchar ⊢
    by_cases hfull : r.line.len = 120
    · rw [if_pos (.inr (.inr (splitLine_iff.mpr (by omega)))), hfull]
      rfl
    · have hshort : (r.putChar c).line.len ≤ 120 := by omega
      have hcontinue : ¬ (c = '\n' ∨ true = false ∨ (r.putChar c).splitLine = true) := by
        rintro (heq | htrue | hsplit)
        · exact hc heq
        · cases htrue
        · have hlong := splitLine_iff.mp hsplit
          omega
      rw [if_neg hcontinue, markSplit_of_le hshort, hchar]
      omega

end ErrorReport

section

variable (source : DataSource) (errorPos : ℕ)

/-- A pass of the loop. -/
def reportPass (p : source.State × ErrorReport) : source.State × ErrorReport :=
  let (c, s) := source.next p.1
  (s, p.2.take c (decide (source.position s = errorPos)) (source.hasNext s))

/-- The first passes of the loop, or all of them if there are fewer. -/
def reportPasses (p : source.State × ErrorReport) : ℕ → source.State × ErrorReport
  | 0 => p
  | n + 1 =>
    let p' := reportPasses p n
    if source.hasNext p'.1 then reportPass source errorPos p' else p'

end

/-- The state before the loop; the buffer may hold anything. -/
def reportStart (source : DataSource) (json : source.State) (lineBuf : ℕ → Char) :
    source.State × ErrorReport :=
  (source.rewind json, { line := .ofBuffer lineBuf, writes := [], logged := [] })

/-- `LogErrorPosition`, up to some pass. -/
def logErrorPosition (source : DataSource) (json : source.State) (lineBuf : ℕ → Char) (n : ℕ) :
    source.State × ErrorReport :=
  let errorPos := source.position json
  reportPasses source errorPos (reportStart source json lineBuf) n

/-- The number of characters behind the last newline. -/
def lineTail (text : List Char) : ℕ := (text.reverse.takeWhile fun c => decide (c ≠ '\n')).length

/-- The characters of the current line up to a position, without those that have been split off. -/
def column (before : List Char) (c : Char) : ℕ :=
  lineTail before % 121 + if c = '\n' then 0 else 1

/-- The character at the error, if there is one, is among the first 114 columns. -/
def EarlyInLine (document : List Char) (errorPos : ℕ) : Prop :=
  ∀ before c after, document = before ++ c :: after → errorPos = before.length + 1 →
    column before c ≤ 114

/-! ### The run -/

theorem lineTail_concat (text : List Char) (c : Char) :
    lineTail (text ++ [c]) = if c = '\n' then 0 else lineTail text + 1 := by
  rw [lineTail, List.reverse_append, List.reverse_singleton, List.singleton_append,
    List.takeWhile_cons]
  by_cases hc : c = '\n'
  · simp [hc]
  · simp [hc, lineTail]

theorem lineTail_of_notMem {text : List Char} (h : '\n' ∉ text) : lineTail text = text.length := by
  rw [lineTail, List.takeWhile_eq_self_iff.mpr, List.length_reverse]
  intro c hc
  exact decide_eq_true fun heq => h (heq ▸ List.mem_reverse.mp hc)

namespace DataSource

variable {source : DataSource} {document : List Char} {At : source.State → ℕ → Prop}

/-- A pass with a character of the document. -/
theorem Delivers.reportPasses_succ (h : source.Delivers document At) (errorPos : ℕ)
    (p : source.State × ErrorReport) {before after : List Char} {c : Char}
    (hdocument : document = before ++ c :: after)
    (hat : At (reportPasses source errorPos p before.length).1 before.length) :
    At (reportPasses source errorPos p (before.length + 1)).1 (before.length + 1) ∧
      (reportPasses source errorPos p (before.length + 1)).2 =
        (reportPasses source errorPos p before.length).2.take c
          (decide (before.length + 1 = errorPos)) (decide (after ≠ [])) := by
  obtain ⟨hc, hat'⟩ := h.next _ before c after hat hdocument
  have hlength : document.length = before.length + (after.length + 1) := by
    rw [hdocument, List.length_append, List.length_cons]
  have hlt : before.length < document.length := by omega
  have hhere : source.hasNext (reportPasses source errorPos p before.length).1 = true := by
    rw [h.hasNext _ _ hat, decide_eq_true_eq]
    exact hlt
  have hmore := h.hasNext _ _ hat'
  have hafter : decide (before.length + 1 < document.length) = decide (after ≠ []) := by
    rw [decide_eq_decide, ← List.length_pos_iff]
    omega
  have hposition := h.position _ _ hat'
  rw [reportPasses, if_pos hhere]
  simp only [reportPass, hposition, hmore, hafter, hc]
  exact ⟨hat', trivial⟩

/-- Where the loop is after some passes: in the document, with less than a line in the buffer, and
before the error with what has not been split off. -/
structure ReportInv (At : source.State → ℕ → Prop) (document : List Char) (errorPos n : ℕ)
    (p : source.State × ErrorReport) : Prop where
  at_n : At p.1 n
  len_le : p.2.line.len ≤ 120
  len_eq : n < errorPos → n < document.length → p.2.line.len = lineTail (document.take n) % 121

/-- **Every pass keeps the invariant.** -/
theorem Delivers.reportInv (h : source.Delivers document At) (errorPos : ℕ)
    {p : source.State × ErrorReport} (hat : At p.1 0) (hlen : p.2.line.len = 0) {n : ℕ}
    (hn : n ≤ document.length) :
    ReportInv At document errorPos n (reportPasses source errorPos p n) := by
  induction n with
  | zero => exact ⟨hat, by rw [reportPasses, hlen]; omega, fun _ _ => hlen⟩
  | succ n ih =>
    have hinv := ih (Nat.le_of_succ_le hn)
    have hlt : n < document.length := hn
    have hbefore : (document.take n).length = n := by
      rw [List.length_take]
      omega
    have hsplit : document = document.take n ++ document[n] :: document.drop (n + 1) := by simp
    have hstep := h.reportPasses_succ errorPos p hsplit
    rw [hbefore] at hstep
    obtain ⟨hat', htake⟩ := hstep hinv.at_n
    refine ⟨hat', ?_, fun herror hmore => ?_⟩
    · rw [htake]
      exact ErrorReport.take_len_le _ _ _
    · have hnot : decide (n + 1 = errorPos) = false := decide_eq_false (by omega)
      have hrest : decide (document.drop (n + 1) ≠ []) = true := by
        simp only [ne_eq, List.drop_eq_nil_iff, decide_eq_true_eq]
        omega
      have htail : lineTail (document.take (n + 1)) =
          if document[n] = '\n' then 0 else lineTail (document.take n) + 1 := by
        rw [List.take_succ_eq_append_getElem hlt, lineTail_concat]
      rw [htake, hnot, hrest, ErrorReport.take_len hinv.len_le,
        hinv.len_eq (by omega) hlt, htail]
      split
      · rfl
      · rw [Nat.mod_add_mod]

/-- After the end of the document there are no more passes. -/
theorem Delivers.logErrorPosition_end (h : source.Delivers document At) (json : source.State)
    (lineBuf : ℕ → Char) {n : ℕ} (hn : document.length ≤ n) :
    logErrorPosition source json lineBuf n =
      logErrorPosition source json lineBuf document.length := by
  induction hn with
  | refl => rfl
  | step _ ih =>
    have hinv := h.reportInv (source.position json) (p := reportStart source json lineBuf)
      (h.rewind json) rfl (Nat.le_refl _)
    rw [logErrorPosition] at ih
    rw [logErrorPosition, reportPasses, ih, logErrorPosition, h.hasNext _ _ hinv.at_n,
      if_neg (by simp)]

/-- **One pass** leaves the buffer exactly if it is that of the error, too far in the line. -/
theorem Delivers.logErrorPosition_succ (h : source.Delivers document At) (json : source.State)
    (lineBuf : ℕ → Char) {before after : List Char} {c : Char}
    (hdocument : document = before ++ c :: after)
    (hbounds : (logErrorPosition source json lineBuf before.length).2.InBounds) :
    (logErrorPosition source json lineBuf (before.length + 1)).2.InBounds ↔
      (source.position json = before.length + 1 → column before c ≤ 114) := by
  have hlt : before.length < document.length := by
    rw [hdocument, List.length_append, List.length_cons]
    omega
  have hinv := h.reportInv (source.position json) (p := reportStart source json lineBuf)
    (h.rewind json) rfl (Nat.le_of_lt hlt)
  obtain ⟨-, htake⟩ := h.reportPasses_succ _ _ hdocument hinv.at_n
  rw [logErrorPosition] at hbounds
  rw [logErrorPosition, htake, ErrorReport.take_inBounds_iff hbounds hinv.len_le,
    decide_eq_true_eq, eq_comm]
  refine forall_congr' fun herror => ?_
  have htaken : document.take before.length = before := by rw [hdocument, List.take_left]
  rw [hinv.len_eq (by omega) hlt, htaken, column]

/-- An error in one of the first columns. -/
theorem Delivers.inBounds_of_earlyInLine (h : source.Delivers document At) {json : source.State}
    (hearly : EarlyInLine document (source.position json)) (lineBuf : ℕ → Char) {n : ℕ}
    (hn : n ≤ document.length) : (logErrorPosition source json lineBuf n).2.InBounds := by
  induction n with
  | zero => exact ⟨fun _ hi => absurd hi List.not_mem_nil, fun _ hi => absurd hi List.not_mem_nil⟩
  | succ n ih =>
    have hlt : n < document.length := hn
    have hbefore : (document.take n).length = n := by
      rw [List.length_take]
      omega
    have hsplit : document = document.take n ++ document[n] :: document.drop (n + 1) := by simp
    have hstep := h.logErrorPosition_succ json lineBuf hsplit
    rw [hbefore] at hstep
    refine (hstep (ih (Nat.le_of_succ_le hn))).mpr fun herror => ?_
    exact hearly _ _ _ hsplit (by rw [hbefore, herror])

end DataSource

/-- No write is outside of `line_buf` and no more of it is logged, in any pass. -/
def ReportInBounds (source : DataSource) (json : source.State) : Prop :=
  ∀ lineBuf n, (logErrorPosition source json lineBuf n).2.InBounds

/-- The buffer is left if the error is too far in its line. -/
theorem DataSource.Delivers.earlyInLine_of_inBounds {source : DataSource} {document : List Char}
    {At : source.State → ℕ → Prop} (h : source.Delivers document At) {json : source.State}
    (hbounds : ReportInBounds source json) : EarlyInLine document (source.position json) := by
  intro before c after hdocument herror
  have hspace := hbounds fun _ => ' '
  exact (h.logErrorPosition_succ json _ hdocument (hspace _)).mp (hspace _) herror

/-- **The report of an error stays in its buffer** if and only if the character at the error is in
one of the first 114 columns of its line, or of what is left of the line after it has been split.
-/
theorem error_report_inBounds_iff (source : DataSource) (document : List Char)
    (At : source.State → ℕ → Prop) (hsource : source.Delivers document At) (json : source.State) :
    ReportInBounds source json ↔ EarlyInLine document (source.position json) := by
  refine ⟨hsource.earlyInLine_of_inBounds, fun hearly lineBuf n => ?_⟩
  by_cases hn : n ≤ document.length
  · exact hsource.inBounds_of_earlyInLine hearly lineBuf hn
  · rw [hsource.logErrorPosition_end json lineBuf (by omega)]
    exact hsource.inBounds_of_earlyInLine hearly lineBuf (Nat.le_refl _)

/-- A document in memory, with the number of characters that have been read. -/
def memorySource (document : List Char) : DataSource where
  State := ℕ
  hasNext i := decide (i < document.length)
  next i := (document.getD i (Char.ofNat 0), i + 1)
  position i := i
  rewind _ := 0

theorem memorySource_delivers (document : List Char) :
    (memorySource document).Delivers document Eq where
  rewind _ := rfl
  hasNext s i h := by rw [← h]; rfl
  next s before c after h hdocument := by
    subst h hdocument
    refine ⟨?_, rfl⟩
    have hchar : (before ++ c :: after).getD before.length (Char.ofNat 0) = c := by simp
    exact hchar
  position s i h := h

/-- An opening brace and a letter: the letter is reported in the second column. -/
theorem error_report_inBounds_letter : ReportInBounds (memorySource ['{', 'x']) (2 : ℕ) := by
  refine (error_report_inBounds_iff _ _ _ (memorySource_delivers ['{', 'x']) (2 : ℕ)).mpr ?_
  intro before c after hdocument herror
  have hsplit : ['{'] ++ 'x' :: [] = before ++ c :: after := hdocument
  obtain ⟨rfl, hrest⟩ := List.append_inj hsplit (Nat.succ.inj herror)
  obtain ⟨rfl, -⟩ := List.cons.inj hrest
  decide

/-- A letter in column 115, behind a brace and blanks: the last character of the split marker is
written at index 128. -/
theorem error_report_not_inBounds :
    ¬ ReportInBounds (memorySource ('{' :: List.replicate 113 ' ' ++ ['x'])) (115 : ℕ) := by
  intro hbounds
  have hcolumn := (memorySource_delivers _).earlyInLine_of_inBounds hbounds
    ('{' :: List.replicate 113 ' ') 'x' [] rfl rfl
  have hline : '\n' ∉ '{' :: List.replicate 113 ' ' := by simp
  rw [column, lineTail_of_notMem hline, List.length_cons, List.length_replicate] at hcolumn
  exact absurd hcolumn (by decide)

end OpenMower
