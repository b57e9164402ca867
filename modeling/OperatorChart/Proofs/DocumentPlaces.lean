import Mathlib.Data.List.Pairwise
import OperatorChart.Proofs.Blocks
import OperatorChart.Proofs.DocumentLines
/-!
# Where the lines of a manifest go

A manifest is cut into its documents with one pass over its lines. The lines between two separator
lines are a span, and the documents are the texts of the spans that have content. Main statement:
each line with content stands in one document, in order and once, two of them stand in one document
if no separator line is between them, and a document is the text of its span as it is in the
manifest. For the lines that hold nothing but three dashes, white space and a comment instead of the
separator lines this is so if both are the same lines of the manifest.
-/

namespace OperatorChart

open Text

namespace Manifest

/-! ## Spans of lines -/

/-- The lines `start`, …, `stop - 1` of a manifest. -/
structure Span where
  start : Nat
  stop : Nat
  deriving DecidableEq, Repr, Inhabited

/-- The lines of a text as they stand in it: each but the last one with its line break. -/
def broken : List Line → List Text
  | [] => []
  | [line] => [line]
  | line :: rest => (line ++ ['\n']) :: broken rest

def Span.text (span : Span) (ls : List Line) : Text :=
  ((broken ls).extract span.start span.stop).flatten

/-- Whether a span is what stands between two markers, or between a marker and an end of the
manifest. -/
structure IsPart (isMarker : Line → Bool) (ls : List Line) (span : Span) : Prop where
  le : span.start ≤ span.stop
  le_length : span.stop ≤ ls.length
  opens : 0 < span.start → isMarker (lineAt ls (span.start - 1)) = true
  closes : span.stop < ls.length → isMarker (lineAt ls span.stop) = true
  unmarked : ∀ i, span.start ≤ i → i < span.stop → isMarker (lineAt ls i) = false

section Broken

theorem exists_broken_cons (line : Line) (rest : List Line) :
    ∃ s, broken (line :: rest) = s :: broken rest ∧
      (rest = [] ∧ s = line ∨ rest ≠ [] ∧ s = line ++ ['\n']) := by
  cases rest with
  | nil => exact ⟨line, rfl, .inl ⟨rfl, rfl⟩⟩
  | cons next rest => exact ⟨line ++ ['\n'], rfl, .inr ⟨List.cons_ne_nil next rest, rfl⟩⟩

theorem drop_broken (ls : List Line) (n : Nat) : (broken ls).drop n = broken (ls.drop n) := by
  induction ls generalizing n with
  | nil => simp [broken]
  | cons line rest ih =>
      cases n with
      | zero => rfl
      | succ n =>
          obtain ⟨s, hs, -⟩ := exists_broken_cons line rest
          rw [hs, List.drop_succ_cons, ih]
          rfl

theorem lines_flatten_take_broken {ls : List Line} (h : ∀ line ∈ ls, '\n' ∉ line) (n : Nat) :
    ∃ blanks : List Line, (∀ line ∈ blanks, line = []) ∧
      lines ((broken ls).take n).flatten = ls.take n ++ blanks := by
  have hempty : ∃ blanks : List Line, (∀ line ∈ blanks, line = []) ∧ lines [] = [] ++ blanks :=
    ⟨[[]], by simp, rfl⟩
  induction ls generalizing n with
  | nil => simpa [broken] using hempty
  | cons line rest ih =>
      obtain ⟨hline, hrest⟩ := List.forall_mem_cons.1 h
      cases n with
      | zero => simpa using hempty
      | succ n =>
          obtain ⟨s, hs, hcase⟩ := exists_broken_cons line rest
          rw [hs, List.take_succ_cons, List.take_succ_cons, List.flatten_cons]
          rcases hcase with ⟨rfl, rfl⟩ | ⟨-, rfl⟩
          · refine ⟨[], by simp, ?_⟩
            have hpieces : lines s = [s] := pieces_eq_singleton hline
            simpa [broken] using hpieces
          · obtain ⟨blanks, hblanks, hlines⟩ := ih hrest n
            refine ⟨blanks, hblanks, ?_⟩
            rw [List.append_assoc, List.singleton_append, lines_append_newline _ _ hline, hlines,
              List.cons_append]

theorem exists_lines_ensureNewline (t : Text) : ∃ blanks : List Line,
    (∀ line ∈ blanks, line = []) ∧ lines (ensureNewline t) = lines t ++ blanks := by
  obtain ⟨s, hs, htext⟩ := exists_ensureNewline t
  rw [hs]
  rcases htext with rfl | rfl
  · exact ⟨[], by simp, (List.append_nil _).symm⟩
  · exact ⟨[[]], by simp, lines_append_singleton t⟩

variable {ls : List Line} {span : Span}

theorem exists_lines_document (h : ∀ line ∈ ls, '\n' ∉ line) (span : Span) :
    ∃ blanks : List Line, (∀ line ∈ blanks, line = []) ∧
      lines (ensureNewline (span.text ls)) = ls.extract span.start span.stop ++ blanks := by
  obtain ⟨blanks, hblanks, hlines⟩ := lines_flatten_take_broken (n := span.stop - span.start)
    fun line hline => h line (List.mem_of_mem_drop (i := span.start) hline)
  obtain ⟨others, hothers, hnewline⟩ := exists_lines_ensureNewline (span.text ls)
  refine ⟨blanks ++ others, List.forall_mem_append.2 ⟨hblanks, hothers⟩, ?_⟩
  rw [hnewline, Span.text, List.extract_eq_take_drop, drop_broken, hlines,
    List.extract_eq_take_drop, List.append_assoc]

theorem getElem?_extract {start stop k : Nat} (h : start + k < stop) (hstop : stop ≤ ls.length) :
    (ls.extract start stop)[k]? = some (lineAt ls (start + k)) := by
  have hk : k < stop - start := by omega
  have hlength : start + k < ls.length := by omega
  rw [List.extract_eq_take_drop, List.getElem?_take_of_lt hk, List.getElem?_drop,
    List.getElem?_eq_getElem hlength, lineAt, List.getD,
    List.getElem?_eq_getElem hlength, Option.getD_some]

theorem getElem?_document (h : ∀ line ∈ ls, '\n' ∉ line) (hstop : span.stop ≤ ls.length) {k : Nat}
    (hk : span.start + k < span.stop) :
    (lines (ensureNewline (span.text ls)))[k]? = some (lineAt ls (span.start + k)) := by
  obtain ⟨blanks, -, hlines⟩ := exists_lines_document h span
  have hline := getElem?_extract hk hstop
  rw [hlines, List.getElem?_append_left (List.getElem?_eq_some_iff.1 hline).1, hline]

theorem lt_stop_of_document (h : ∀ line ∈ ls, '\n' ∉ line) {k : Nat} {line : Line}
    (hline : (lines (ensureNewline (span.text ls)))[k]? = some line) (hidle : isIdle line = false) :
    span.start + k < span.stop := by
  obtain ⟨blanks, hblanks, hlines⟩ := exists_lines_document h span
  rw [hlines] at hline
  by_contra hlt
  have hle : (ls.extract span.start span.stop).length ≤ k := by
    rw [List.extract_eq_take_drop, List.length_take]
    omega
  rw [List.getElem?_append_right hle] at hline
  rw [hblanks line (List.mem_of_getElem? hline)] at hidle
  exact absurd hidle (by decide)

theorem hasContent_ensureNewline (t : Text) : hasContent (ensureNewline t) = hasContent t := by
  obtain ⟨blanks, hblanks, hlines⟩ := exists_lines_ensureNewline t
  have hidle : blanks.all isIdle = true := by
    rw [List.all_eq_true]
    intro line hline
    rw [hblanks line hline]
    rfl
  rw [hasContent, hasContent, hlines, List.all_append, hidle, Bool.and_true]

/-- A span is a document if one of its lines is neither blank nor a comment. -/
theorem hasContent_text_iff (h : ∀ line ∈ ls, '\n' ∉ line) (hstop : span.stop ≤ ls.length) :
    hasContent (span.text ls) = true ↔
      ∃ i, span.start ≤ i ∧ i < span.stop ∧ isIdle (lineAt ls i) = false := by
  rw [← hasContent_ensureNewline, hasContent_iff]
  constructor
  · rintro ⟨line, hmem, hidle⟩
    obtain ⟨k, hk⟩ := List.mem_iff_getElem?.1 hmem
    have hlt := lt_stop_of_document h hk hidle
    rw [getElem?_document h hstop hlt, Option.some.injEq] at hk
    exact ⟨span.start + k, Nat.le_add_right _ _, hlt, hk ▸ hidle⟩
  · rintro ⟨i, hstart, hlt, hidle⟩
    obtain ⟨k, rfl⟩ := Nat.exists_eq_add_of_le hstart
    exact ⟨_, List.mem_of_getElem? (getElem?_document h hstop hlt), hidle⟩

end Broken

/-! ## The spans of a manifest -/

/-- The spans between markers from line `here` on, given its lines; the first one starts at
`start`. -/
def spansFrom (isMarker : Line → Bool) (start : Nat) : Nat → List Line → List Span
  | here, [] => [⟨start, here⟩]
  | here, line :: rest =>
    if isMarker line then ⟨start, here⟩ :: spansFrom isMarker (here + 1) (here + 1) rest
    else spansFrom isMarker start (here + 1) rest

def spans (isMarker : Line → Bool) (ls : List Line) : List Span :=
  spansFrom isMarker 0 0 ls

section Spans

variable {isMarker : Line → Bool} {ls rest : List Line} {start here : Nat}

theorem drop_succ_of_drop_eq {line : Line} (h : ls.drop here = line :: rest) :
    here < ls.length ∧ lineAt ls here = line ∧ ls.drop (here + 1) = rest := by
  have hline : ls[here]? = some line := by
    rw [← Nat.add_zero here, ← List.getElem?_drop, h]
    rfl
  refine ⟨(List.getElem?_eq_some_iff.1 hline).1, by rw [lineAt, List.getD, hline]; rfl, ?_⟩
  rw [← List.drop_drop, h]
  rfl

theorem start_le_of_mem_spansFrom {span : Span} (hstart : start ≤ here)
    (h : span ∈ spansFrom isMarker start here rest) : start ≤ span.start := by
  induction rest generalizing start here with
  | nil =>
      rw [List.mem_singleton.1 h]
  | cons line rest ih =>
      rw [spansFrom] at h
      split at h
      · rcases List.mem_cons.1 h with rfl | h
        · exact Nat.le_refl _
        · have hlater := ih (Nat.le_refl _) h
          omega
      · exact ih (Nat.le_succ_of_le hstart) h

/-- The lines passed over since the last marker, with `here` the next line. -/
structure IsOpen (isMarker : Line → Bool) (ls : List Line) (start here : Nat) : Prop where
  le : start ≤ here
  opens : 0 < start → isMarker (lineAt ls (start - 1)) = true
  unmarked : ∀ i, start ≤ i → i < here → isMarker (lineAt ls i) = false

theorem isOpen_first (ls : List Line) : IsOpen isMarker ls 0 0 :=
  ⟨Nat.le_refl _, fun h => absurd h (Nat.lt_irrefl 0), fun _ _ h => absurd h (Nat.not_lt_zero _)⟩

theorem IsOpen.next (h : IsOpen isMarker ls start here)
    (hline : isMarker (lineAt ls here) = false) : IsOpen isMarker ls start (here + 1) := by
  refine ⟨Nat.le_succ_of_le h.le, h.opens, fun i hi hlt => ?_⟩
  rcases Nat.lt_succ_iff_lt_or_eq.1 hlt with hlt | rfl
  · exact h.unmarked i hi hlt
  · exact hline

theorem isOpen_marker (hline : isMarker (lineAt ls here) = true) :
    IsOpen isMarker ls (here + 1) (here + 1) :=
  ⟨Nat.le_refl _, fun _ => hline, fun i hi hlt => by omega⟩

theorem isPart_of_mem_spansFrom {span : Span} (hrest : ls.drop here = rest)
    (hhere : here ≤ ls.length) (hopen : IsOpen isMarker ls start here)
    (h : span ∈ spansFrom isMarker start here rest) : IsPart isMarker ls span := by
  induction rest generalizing start here with
  | nil =>
      have hend : ls.length ≤ here := List.drop_eq_nil_iff.1 hrest
      rw [List.mem_singleton.1 h]
      exact ⟨hopen.le, hhere, hopen.opens, fun hlt => absurd hend (Nat.not_le.2 hlt),
        hopen.unmarked⟩
  | cons line rest ih =>
      obtain ⟨hlt, hline, hnext⟩ := drop_succ_of_drop_eq hrest
      rw [spansFrom] at h
      split at h <;> rename_i hmarker
      · rw [← hline] at hmarker
        rcases List.mem_cons.1 h with rfl | h
        · exact ⟨hopen.le, hhere, hopen.opens, fun _ => hmarker, hopen.unmarked⟩
        · exact ih hnext hlt (isOpen_marker hmarker) h
      · rw [← hline] at hmarker
        exact ih hnext hlt (hopen.next (by simpa using hmarker)) h

theorem pairwise_spansFrom (hstart : start ≤ here) :
    (spansFrom isMarker start here rest).Pairwise (·.stop < ·.start) := by
  induction rest generalizing start here with
  | nil => exact List.pairwise_singleton _ _
  | cons line rest ih =>
      rw [spansFrom]
      split
      · refine List.pairwise_cons.2 ⟨fun span hspan => ?_, ih (Nat.le_refl _)⟩
        exact start_le_of_mem_spansFrom (Nat.le_refl _) hspan
      · exact ih (Nat.le_succ_of_le hstart)

theorem exists_mem_spansFrom {i : Nat} (hrest : ls.drop here = rest) (hstart : start ≤ i)
    (hi : i < ls.length) (hmarker : isMarker (lineAt ls i) = false) :
    ∃ span ∈ spansFrom isMarker start here rest, span.start ≤ i ∧ i < span.stop := by
  induction rest generalizing start here with
  | nil =>
      have hend : ls.length ≤ here := List.drop_eq_nil_iff.1 hrest
      exact ⟨⟨start, here⟩, List.mem_singleton_self _, hstart, Nat.lt_of_lt_of_le hi hend⟩
  | cons line rest ih =>
      obtain ⟨-, hline, hnext⟩ := drop_succ_of_drop_eq hrest
      rw [spansFrom]
      split <;> rename_i hcase
      · rcases Nat.lt_trichotomy i here with hlt | rfl | hlt
        · exact ⟨⟨start, here⟩, List.mem_cons_self, hstart, hlt⟩
        · rw [hline, hcase] at hmarker
          cases hmarker
        · obtain ⟨span, hspan, hin⟩ := ih hnext hlt
          exact ⟨span, List.mem_cons_of_mem _ hspan, hin⟩
      · exact ih hnext hstart

theorem sections_cons_eq (line : Line) (rest : List Line) (hline : isSeparator line = false) :
    ∃ s text texts, broken (line :: rest) = s :: broken rest ∧ sections rest = text :: texts ∧
      sections (line :: rest) = (s ++ text) :: texts := by
  obtain ⟨s, hs, hcase⟩ := exists_broken_cons line rest
  rcases hcase with ⟨rfl, rfl⟩ | ⟨hrest, rfl⟩
  · exact ⟨s, [], [], hs, rfl, by rw [sections, hline, List.append_nil]; rfl⟩
  · obtain ⟨text, texts, htexts, hsections⟩ := sections_cons hline hrest
    refine ⟨_, text, texts, hs, htexts, ?_⟩
    rw [hsections, List.append_assoc, List.singleton_append]

theorem sections_marker (line : Line) (rest : List Line) (hline : isSeparator line = true) :
    sections (line :: rest) = [] :: sections rest := by
  cases rest with
  | nil =>
      show sections [line] = [[], []]
      rw [sections, if_pos hline]
  | cons next rest => exact sections_separator hline (List.cons_ne_nil next rest)

/-- The texts of the spans are the sections, the first with what was passed over in front. -/
theorem map_extract_spansFrom (hmarkers : ∀ line ∈ rest, isMarker line = isSeparator line)
    {front : List Text} (hfront : front.length = here) (hstart : start ≤ here) {text : Text}
    {texts : List Text} (hsections : sections rest = text :: texts) :
    (spansFrom isMarker start here rest).map
        (fun span => ((front ++ broken rest).extract span.start span.stop).flatten) =
      ((front.drop start).flatten ++ text) :: texts := by
  induction rest generalizing front start here text texts with
  | nil =>
      cases hsections
      have hpassed : (front.drop start).length ≤ here - start := by rw [List.length_drop, hfront]
      simp [spansFrom, broken, List.extract_eq_take_drop, List.take_of_length_le hpassed]
  | cons line rest ih =>
      obtain ⟨hline, hothers⟩ := List.forall_mem_cons.1 hmarkers
      obtain ⟨next, others, hnext⟩ := List.exists_cons_of_ne_nil (sections_ne_nil rest)
      rw [spansFrom, hline]
      cases hseparator : isSeparator line with
      | true =>
          obtain ⟨s, hs, -⟩ := exists_broken_cons line rest
          have hlength : (front ++ [s]).length = here + 1 := by simp [hfront]
          have hfirst : (front ++ s :: broken rest).extract start here = front.drop start := by
            rw [List.extract_eq_take_drop, List.drop_append_of_le_length (hfront ▸ hstart),
              List.take_append_of_le_length (by rw [List.length_drop, hfront]),
              List.take_of_length_le (by rw [List.length_drop, hfront])]
          have hbehind := ih hothers hlength (Nat.le_refl _) hnext
          rw [List.drop_of_length_le (Nat.le_of_eq hlength), List.append_assoc,
            List.singleton_append] at hbehind
          rw [sections_marker line rest hseparator, List.cons.injEq] at hsections
          obtain ⟨rfl, rfl⟩ := hsections
          rw [if_pos rfl, List.map_cons, hs, hbehind, hnext, hfirst, List.append_nil]
          rfl
      | false =>
          obtain ⟨s, next, others, hs, hnext, hjoined⟩ := sections_cons_eq line rest hseparator
          have hlength : (front ++ [s]).length = here + 1 := by simp [hfront]
          have hbehind := ih hothers hlength (Nat.le_succ_of_le hstart) hnext
          rw [List.drop_append_of_le_length (hfront ▸ hstart), List.append_assoc,
            List.singleton_append, List.flatten_append, List.flatten_singleton,
            List.append_assoc] at hbehind
          rw [hjoined, List.cons.injEq] at hsections
          obtain ⟨rfl, rfl⟩ := hsections
          rw [if_neg Bool.false_ne_true, hs, hbehind]

theorem map_text_spans (hmarkers : ∀ line ∈ ls, isMarker line = isSeparator line) :
    (spans isMarker ls).map (·.text ls) = sections ls := by
  obtain ⟨text, texts, hsections⟩ := List.exists_cons_of_ne_nil (sections_ne_nil ls)
  rw [hsections]
  have hlength : ([] : List Text).length = 0 := rfl
  exact map_extract_spansFrom hmarkers hlength (Nat.le_refl _) hsections

/-! ## The documents of a manifest -/

def kept (isMarker : Line → Bool) (ls : List Line) : List Span :=
  (spans isMarker ls).filter fun span => hasContent (span.text ls)

theorem isPart_of_mem_kept {span : Span} (h : span ∈ kept isMarker ls) :
    IsPart isMarker ls span :=
  isPart_of_mem_spansFrom rfl (Nat.zero_le _) (isOpen_first ls) (List.mem_of_mem_filter h)

theorem pairwise_kept : (kept isMarker ls).Pairwise (·.stop < ·.start) :=
  (pairwise_spansFrom (Nat.le_refl 0)).filter _

/-- The documents are the texts of the spans that have content. -/
theorem documents_eq {manifest : Text}
    (hmarkers : ∀ line ∈ lines manifest, isMarker line = isSeparator line) (d : Nat) :
    (documents manifest)[d]? = ((kept isMarker (lines manifest))[d]?).map fun span =>
      ⟨d, ensureNewline (span.text (lines manifest))⟩ := by
  rw [documents, ← map_text_spans hmarkers, List.filter_map, List.map_map, List.getElem?_map,
    List.getElem?_zipIdx, List.getElem?_map, Option.map_map, Option.map_map, Nat.zero_add]
  rfl

end Spans

/-! ## Where a line goes -/

/-- Whether a line of a manifest has content: it is neither blank nor a comment nor a marker. -/
def IsContentLine (isMarker : Line → Bool) (manifest : Text) (i : Nat) : Prop :=
  i < (lines manifest).length ∧ isIdle (lineAt (lines manifest) i) = false ∧
    isMarker (lineAt (lines manifest) i) = false

/-- Whether each content line of a manifest goes to one place of the documents, in order, and every
such line of the documents comes from there; two lines go to one document if no marker stands
between them, and the document is the text between the markers around it. -/
structure IsPlacement (isMarker : Line → Bool) (manifest : Text) (documentOf lineOf : Nat → Nat) :
    Prop where
  occurs : ∀ i, IsContentLine isMarker manifest i → ∃ document,
    (documents manifest)[documentOf i]? = some document ∧
      (lines document.content)[lineOf i]? = some (lineAt (lines manifest) i)
  ordered : ∀ i j, IsContentLine isMarker manifest i → IsContentLine isMarker manifest j → i < j →
    documentOf i < documentOf j ∨ documentOf i = documentOf j ∧ lineOf i < lineOf j
  onto : ∀ d document k line, (documents manifest)[d]? = some document →
    (lines document.content)[k]? = some line → isIdle line = false →
      ∃ i, IsContentLine isMarker manifest i ∧ documentOf i = d ∧ lineOf i = k
  together : ∀ i j, IsContentLine isMarker manifest i → IsContentLine isMarker manifest j → i < j →
    (documentOf i = documentOf j ↔
      ∀ m, i < m → m < j → isMarker (lineAt (lines manifest) m) = false)
  verbatim : ∀ i document, IsContentLine isMarker manifest i →
    (documents manifest)[documentOf i]? = some document →
      ∃ span : Span, IsPart isMarker (lines manifest) span ∧ span.start ≤ i ∧ i < span.stop ∧
        document.content = ensureNewline (span.text (lines manifest))

/-- Whether a manifest is split at the given markers and nothing of it is lost. -/
structure SplitsAt (isMarker : Line → Bool) (manifest : Text) : Prop where
  numbered : ∀ (d : Nat) (document : ManifestDocument),
    (documents manifest)[d]? = some document → document.index = d
  placed : ∃ documentOf lineOf, IsPlacement isMarker manifest documentOf lineOf

section Places

variable {isMarker : Line → Bool} {manifest : Text}

theorem exists_kept {i : Nat} (hi : IsContentLine isMarker manifest i) :
    ∃ (d : Nat) (span : Span), (kept isMarker (lines manifest))[d]? = some span ∧
      span.start ≤ i ∧ i < span.stop := by
  obtain ⟨hlength, hidle, hmarker⟩ := hi
  obtain ⟨span, hspan, hstart, hstop⟩ :=
    exists_mem_spansFrom (List.drop_zero) (Nat.zero_le i) hlength hmarker
  have hpart : IsPart isMarker (lines manifest) span :=
    isPart_of_mem_spansFrom rfl (Nat.zero_le _) (isOpen_first _) hspan
  have hcontent : hasContent (span.text (lines manifest)) = true :=
    (hasContent_text_iff (areLines_lines manifest).unbroken hpart.le_length).2
      ⟨i, hstart, hstop, hidle⟩
  have hkept : span ∈ kept isMarker (lines manifest) :=
    List.mem_filter.2 ⟨hspan, hcontent⟩
  obtain ⟨d, hd⟩ := List.mem_iff_getElem?.1 hkept
  exact ⟨d, span, hd, hstart, hstop⟩

/-- Of two spans with content the first one is in front of the other. -/
theorem stop_lt_start {ls : List Line} {d d' : Nat} {span span' : Span}
    (h : (kept isMarker ls)[d]? = some span) (h' : (kept isMarker ls)[d']? = some span')
    (hlt : d < d') : span.stop < span'.start := by
  obtain ⟨hd, rfl⟩ := List.getElem?_eq_some_iff.1 h
  obtain ⟨hd', rfl⟩ := List.getElem?_eq_some_iff.1 h'
  exact List.pairwise_iff_getElem.1 pairwise_kept d d' hd hd' hlt

theorem le_of_le {ls : List Line} {d d' : Nat} {span span' : Span} {i j : Nat}
    (h : (kept isMarker ls)[d]? = some span) (h' : (kept isMarker ls)[d']? = some span')
    (hi : i < span.stop) (hj : span'.start ≤ j) (hle : j ≤ i) : d' ≤ d := by
  by_contra hlt
  have hapart := stop_lt_start h h' (Nat.not_le.1 hlt)
  omega

/-- Whether each content line has the number of a document, with the span around the line. -/
structure Locates (isMarker : Line → Bool) (manifest : Text) (documentOf : Nat → Nat)
    (spanOf : Nat → Span) : Prop where
  span_eq : ∀ i, IsContentLine isMarker manifest i →
    (kept isMarker (lines manifest))[documentOf i]? = some (spanOf i)
  start_le : ∀ i, IsContentLine isMarker manifest i → (spanOf i).start ≤ i
  lt_stop : ∀ i, IsContentLine isMarker manifest i → i < (spanOf i).stop

theorem isPart_of_getElem?_kept {ls : List Line} {d : Nat} {span : Span}
    (h : (kept isMarker ls)[d]? = some span) : IsPart isMarker ls span :=
  isPart_of_mem_kept (List.mem_of_getElem? h)

namespace Locates

variable {documentOf : Nat → Nat} {spanOf : Nat → Span} {i j : Nat}
  (h : Locates isMarker manifest documentOf spanOf)

include h

theorem spanOf_eq (hi : IsContentLine isMarker manifest i) (hj : IsContentLine isMarker manifest j)
    (heq : documentOf i = documentOf j) : spanOf i = spanOf j := by
  have hspan := h.span_eq i hi
  rw [heq, h.span_eq j hj] at hspan
  exact (Option.some.inj hspan).symm

theorem documentOf_le (hi : IsContentLine isMarker manifest i)
    (hj : IsContentLine isMarker manifest j) (hle : i ≤ j) : documentOf i ≤ documentOf j :=
  le_of_le (h.span_eq j hj) (h.span_eq i hi) (h.lt_stop j hj) (h.start_le i hi) hle

/-- A line inside of a span with content goes to the document of that span. -/
theorem documentOf_eq {d : Nat} {span : Span}
    (hspan : (kept isMarker (lines manifest))[d]? = some span)
    (hi : IsContentLine isMarker manifest i) (hstart : span.start ≤ i) (hstop : i < span.stop) :
    documentOf i = d :=
  Nat.le_antisymm
    (le_of_le hspan (h.span_eq i hi) hstop (h.start_le i hi) (Nat.le_refl i))
    (le_of_le (h.span_eq i hi) hspan (h.lt_stop i hi) hstart (Nat.le_refl i))

theorem documentOf_eq_iff (hi : IsContentLine isMarker manifest i)
    (hj : IsContentLine isMarker manifest j) (hlt : i < j) : documentOf i = documentOf j ↔
      ∀ m, i < m → m < j → isMarker (lineAt (lines manifest) m) = false := by
  have hpart := isPart_of_getElem?_kept (h.span_eq i hi)
  have hpart' := isPart_of_getElem?_kept (h.span_eq j hj)
  have hstart := h.start_le i hi
  have hstop := h.lt_stop i hi
  have hstop' := h.lt_stop j hj
  constructor
  · intro heq m him hmj
    rw [← h.spanOf_eq hi hj heq] at hstop'
    exact hpart.unmarked m (by omega) (by omega)
  · intro hfree
    by_contra hne
    have hless : documentOf i < documentOf j :=
      Nat.lt_of_le_of_ne (h.documentOf_le hi hj (Nat.le_of_lt hlt)) hne
    -- the line that closes the first span is a marker in front of the second one
    have hapart := stop_lt_start (h.span_eq i hi) (h.span_eq j hj) hless
    have hstart' := h.start_le j hj
    have hmarker := hpart.closes (by have := hpart'.le_length; omega)
    have hunmarked : isMarker (lineAt (lines manifest) (spanOf i).stop) = false :=
      hfree _ hstop (by omega)
    rw [hmarker] at hunmarked
    cases hunmarked

end Locates

theorem isPlacement {documentOf : Nat → Nat} {spanOf : Nat → Span}
    (hmarkers : ∀ line ∈ lines manifest, isMarker line = isSeparator line)
    (h : Locates isMarker manifest documentOf spanOf) :
    IsPlacement isMarker manifest documentOf fun i => i - (spanOf i).start := by
  have hunbroken := (areLines_lines manifest).unbroken
  constructor
  case occurs =>
    intro i hi
    have hspan := h.span_eq i hi
    have hstop := h.lt_stop i hi
    have hplace : (spanOf i).start + (i - (spanOf i).start) = i :=
      Nat.add_sub_cancel' (h.start_le i hi)
    refine ⟨_, by rw [documents_eq hmarkers, hspan]; rfl, ?_⟩
    rw [getElem?_document hunbroken (isPart_of_getElem?_kept hspan).le_length (by omega), hplace]
  case ordered =>
    intro i j hi hj hlt
    rcases Nat.lt_or_eq_of_le (h.documentOf_le hi hj (Nat.le_of_lt hlt)) with hless | heq
    · exact .inl hless
    · have hstart := h.start_le i hi
      refine .inr ⟨heq, ?_⟩
      show i - (spanOf i).start < j - (spanOf j).start
      rw [← h.spanOf_eq hi hj heq]
      omega
  case onto =>
    intro d document k line hdocument hline hidle
    rw [documents_eq hmarkers, Option.map_eq_some_iff] at hdocument
    obtain ⟨span, hspan, rfl⟩ := hdocument
    have hpart := isPart_of_getElem?_kept hspan
    have hstop := lt_stop_of_document hunbroken hline hidle
    rw [getElem?_document hunbroken hpart.le_length hstop, Option.some.injEq] at hline
    have hcontent : IsContentLine isMarker manifest (span.start + k) :=
      ⟨Nat.lt_of_lt_of_le hstop hpart.le_length, hline ▸ hidle,
        hpart.unmarked _ (Nat.le_add_right _ _) hstop⟩
    have hd := h.documentOf_eq hspan hcontent (Nat.le_add_right _ _) hstop
    have hplace := h.span_eq _ hcontent
    rw [hd, hspan, Option.some.injEq] at hplace
    exact ⟨span.start + k, hcontent, hd, by rw [← hplace, Nat.add_sub_cancel_left]⟩
  case together => exact fun i j hi hj hlt => h.documentOf_eq_iff hi hj hlt
  case verbatim =>
    intro i document hi hdocument
    have hspan := h.span_eq i hi
    rw [documents_eq hmarkers, hspan] at hdocument
    cases hdocument
    exact ⟨spanOf i, isPart_of_getElem?_kept hspan, h.start_le i hi, h.lt_stop i hi, rfl⟩

theorem splitsAt_of_same (hmarkers : ∀ line ∈ lines manifest, isMarker line = isSeparator line) :
    SplitsAt isMarker manifest := by
  constructor
  case numbered =>
    intro d document hdocument
    rw [documents_eq hmarkers, Option.map_eq_some_iff] at hdocument
    obtain ⟨span, -, rfl⟩ := hdocument
    rfl
  case placed =>
    choose! documentOf spanOf h using fun i (hi : IsContentLine isMarker manifest i) =>
      exists_kept hi
    exact ⟨documentOf, _, isPlacement hmarkers
      ⟨fun i hi => (h i hi).1, fun i hi => (h i hi).2.1, fun i hi => (h i hi).2.2⟩⟩

theorem not_isIdle_of_dashes {line : Line} (h : "---".toList <+: line) : isIdle line = false := by
  obtain ⟨rest, rfl⟩ := h
  exact Line.isIdle_parts (s := []) (fun _ hc => absurd hc List.not_mem_nil) (by decide) (by decide)

/-- A manifest is split at markers that have content just if they are its separator lines. -/
theorem splitsAt_iff (hidle : ∀ line, isMarker line = true → isIdle line = false) :
    SplitsAt isMarker manifest ↔ ∀ line ∈ lines manifest, isMarker line = isSeparator line := by
  refine ⟨fun h => ?_, splitsAt_of_same⟩
  obtain ⟨documentOf, lineOf, hplaces⟩ := h.placed
  have hsplit : SplitsAt isSeparator manifest := splitsAt_of_same fun _ _ => rfl
  obtain ⟨separatorsOf, lineOf', hseparators⟩ := hsplit.placed
  intro line hline
  obtain ⟨i, hlength, rfl⟩ := List.getElem_of_mem hline
  rw [← lineAt_eq_getElem hlength]
  cases hmarker : isMarker (lineAt (lines manifest) i) with
  | false =>
      -- a separator line would be in a document
      by_contra hseparator
      have hseparator : isSeparator (lineAt (lines manifest) i) = true := by simpa using hseparator
      have hcontent : IsContentLine isMarker manifest i :=
        ⟨hlength, not_isIdle_of_dashes (dashes_prefix_of_isSeparator hseparator), hmarker⟩
      obtain ⟨document, hdocument, hplace⟩ := hplaces.occurs i hcontent
      have hof := isDocument_of_mem_documents (List.mem_of_getElem? hdocument)
      have hunseparated := hof.unseparated _ (List.mem_of_getElem? hplace)
      rw [hseparator] at hunseparated
      cases hunseparated
  | true =>
      -- a marker would come from a line that is none
      by_contra hseparator
      have hseparator : isSeparator (lineAt (lines manifest) i) = false := by simpa using hseparator
      have hcontent : IsContentLine isSeparator manifest i :=
        ⟨hlength, hidle _ hmarker, hseparator⟩
      obtain ⟨document, hdocument, hplace⟩ := hseparators.occurs i hcontent
      obtain ⟨j, hj, hd, hk⟩ := hplaces.onto _ document _ _ hdocument hplace hcontent.2.1
      obtain ⟨document', hdocument', hplace'⟩ := hplaces.occurs j hj
      rw [hd, hdocument, Option.some.injEq] at hdocument'
      rw [hk, ← hdocument', hplace, Option.some.injEq] at hplace'
      have hunmarked := hj.2.2
      rw [← hplace', hmarker] at hunmarked
      cases hunmarked

end Places

/-! ## Markers that hold nothing else -/

/-- Whether a line is three dashes with nothing behind them but white space and, behind white
space, a comment. -/
def isBareMarker (line : Line) : Bool :=
  match "---".toList.isPrefixOf? line with
  | some rest => isBlank rest ||
      (rest.head?.any Unicode.isWhiteSpace && "#".toList.isPrefixOf (trimStart rest))
  | none => false

theorem dashes_prefix_of_isBareMarker {line : Line} (h : isBareMarker line = true) :
    "---".toList <+: line := by
  rw [isBareMarker] at h
  split at h
  · rename_i rest hrest
    exact ⟨rest, List.isPrefixOf?_eq_some_iff_append_eq.1 hrest⟩
  · cases h

/-- A manifest of one document, which stands on the line of its marker. -/
def inlineDocument : Text :=
  "--- \x7bapiVersion: v1, kind: Service, metadata: \x7bname: x\x7d\x7d\n".toList

/-- Every manifest is split at its separator lines and nothing else of it is lost. It is split at
its bare markers, too, just if its separator lines are bare markers and the other way around. -/
theorem splitsAt_separators_and_markers (manifest : Text) : SplitsAt isSeparator manifest ∧
    (SplitsAt isBareMarker manifest ↔
      ∀ line ∈ lines manifest, isBareMarker line = isSeparator line) := by
  refine ⟨splitsAt_of_same fun _ _ => rfl, splitsAt_iff fun line hline => ?_⟩
  exact not_isIdle_of_dashes (dashes_prefix_of_isBareMarker hline)

/-- Behind three dashes a document is lost: nothing of this manifest is in a document. -/
theorem not_splitsAt_markers_inline_document :
    (∃ i, IsContentLine isBareMarker inlineDocument i) ∧ documents inlineDocument = [] ∧
      ¬ SplitsAt isBareMarker inlineDocument := by
  refine ⟨⟨0, ?_⟩, by decide, ?_⟩
  · unfold IsContentLine
    decide
  · rw [splitsAt_iff fun line hline => not_isIdle_of_dashes (dashes_prefix_of_isBareMarker hline)]
    decide

end Manifest

end OperatorChart
