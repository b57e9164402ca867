import Mathlib.Data.List.Forall2
import OperatorChart.Proofs.Replacement
/-!
# Operations on the lines of a text

Lines that hold no line break are the lines of the text made of them, so operations on lines
compose. A replacement whose needle and replacement hold no line break is one of them: it is
made on each line by itself.
-/

namespace OperatorChart.Text

/-- Whether lines are the lines of some text: there is one, and none holds a line break. -/
structure AreLines (ls : List Line) : Prop where
  ne_nil : ls ≠ []
  unbroken : ∀ line ∈ ls, '\n' ∉ line

theorem exists_mem_of_forall₂ {α β : Type} {R : α → β → Prop} {xs : List α} {ys : List β}
    (h : List.Forall₂ R xs ys) {y : β} (hy : y ∈ ys) : ∃ x ∈ xs, R x y := by
  induction h with
  | nil => cases hy
  | cons hfirst _ ih =>
      rcases List.mem_cons.1 hy with rfl | hy
      · exact ⟨_, List.mem_cons_self, hfirst⟩
      · obtain ⟨x, hx, hxy⟩ := ih hy
        exact ⟨x, List.mem_cons_of_mem _ hx, hxy⟩

/-! ## Pieces -/

@[simp] theorem pieces_separator (c : Char) (t : Text) : pieces c (c :: t) = [] :: pieces c t := by
  simp [pieces]

theorem pieces_cons {c d : Char} (h : d ≠ c) {t piece : Text} {rest : List Text}
    (ht : pieces c t = piece :: rest) : pieces c (d :: t) = (d :: piece) :: rest := by
  rw [pieces, if_neg h, ht]

theorem pieces_append {c : Char} {s t piece : Text} {rest : List Text} (hs : c ∉ s)
    (ht : pieces c t = piece :: rest) : pieces c (s ++ t) = (s ++ piece) :: rest := by
  induction s with
  | nil => simpa using ht
  | cons d s ih =>
      rw [List.mem_cons, not_or] at hs
      exact pieces_cons (Ne.symm hs.1) (ih hs.2)

theorem exists_pieces (c : Char) (t : Text) : ∃ piece rest, pieces c t = piece :: rest :=
  List.exists_cons_of_ne_nil (pieces_ne_nil c t)

theorem pieces_append_separator (c : Char) (s t : Text) :
    pieces c (s ++ c :: t) = pieces c s ++ pieces c t := by
  induction s with
  | nil => exact pieces_separator c t
  | cons d s ih =>
      obtain ⟨piece, rest, hrest⟩ := exists_pieces c s
      rw [hrest, List.cons_append] at ih
      by_cases hd : d = c
      · rw [hd, List.cons_append, pieces_separator, ih, pieces_separator, hrest]
        rfl
      · rw [List.cons_append, pieces_cons hd ih, pieces_cons hd hrest]
        rfl

theorem pieces_eq_singleton {c : Char} {s : Text} (hs : c ∉ s) : pieces c s = [s] := by
  have h := pieces_append (t := []) hs rfl
  rwa [List.append_nil] at h

theorem cases_of_mem_pieces_cons {c d : Char} {t piece : Text} (h : piece ∈ pieces c (d :: t)) :
    piece = [] ∨ piece ∈ pieces c t ∨
      d ≠ c ∧ ∃ first rest, pieces c t = first :: rest ∧ piece = d :: first := by
  obtain ⟨first, rest, hrest⟩ := exists_pieces c t
  by_cases hd : d = c
  · rw [hd, pieces_separator, List.mem_cons] at h
    exact h.imp_right .inl
  · rw [pieces_cons hd hrest, List.mem_cons] at h
    rcases h with h | h
    · exact .inr (.inr ⟨hd, first, rest, hrest, h⟩)
    · exact .inr (.inl (by simp [hrest, h]))

theorem not_mem_of_mem_pieces {c : Char} {t piece : Text} (h : piece ∈ pieces c t) :
    c ∉ piece := by
  induction t generalizing piece with
  | nil =>
      simp only [pieces, List.mem_singleton] at h
      simp [h]
  | cons d t ih =>
      rcases cases_of_mem_pieces_cons h with rfl | h | ⟨hd, first, rest, hrest, rfl⟩
      · simp
      · exact ih h
      · rw [List.mem_cons, not_or]
        exact ⟨Ne.symm hd, ih (by simp [hrest])⟩

theorem prefix_of_pieces_cons {c : Char} {t piece : Text} {rest : List Text}
    (h : pieces c t = piece :: rest) : piece <+: t := by
  induction t generalizing piece rest with
  | nil =>
      cases h
      exact List.prefix_rfl
  | cons d t ih =>
      obtain ⟨first, others, hothers⟩ := exists_pieces c t
      by_cases hd : d = c
      · rw [hd, pieces_separator] at h
        cases h
        exact List.nil_prefix
      · rw [pieces_cons hd hothers] at h
        cases h
        exact List.cons_prefix_cons.2 ⟨rfl, ih hothers⟩

theorem infix_of_mem_pieces {c : Char} {t piece : Text} (h : piece ∈ pieces c t) :
    piece <:+: t := by
  induction t generalizing piece with
  | nil =>
      simp only [pieces, List.mem_singleton] at h
      exact h ▸ List.nil_infix
  | cons d t ih =>
      rcases cases_of_mem_pieces_cons h with rfl | h | ⟨hd, first, rest, hrest, rfl⟩
      · exact List.nil_infix
      · exact (ih h).trans (List.suffix_cons d t).isInfix
      · exact (prefix_of_pieces_cons (pieces_cons hd hrest)).isInfix

theorem mem_of_mem_piece {c d : Char} {t piece : Text} (h : piece ∈ pieces c t) (hd : d ∈ piece) :
    d ∈ t :=
  (infix_of_mem_pieces h).mem hd

theorem pieces_join {c : Char} {ps : List Text} (hne : ps ≠ []) (h : ∀ p ∈ ps, c ∉ p) :
    pieces c (join c ps) = ps := by
  induction ps with
  | nil => exact absurd rfl hne
  | cons p ps ih =>
      have hp : c ∉ p := h p List.mem_cons_self
      cases ps with
      | nil => exact pieces_eq_singleton hp
      | cons q ps =>
          have hrest := ih (List.cons_ne_nil q ps) fun x hx => h x (List.mem_cons_of_mem p hx)
          rw [join_cons c p (List.cons_ne_nil q ps), pieces_append hp (pieces_separator c _),
            hrest, List.append_nil]

theorem exists_mem_of_infix_join {c : Char} {w : Text} {ps : List Text} (hne : ps ≠ [])
    (hw : c ∉ w) (h : w <:+: join c ps) : ∃ p ∈ ps, w <:+: p := by
  induction ps with
  | nil => exact absurd rfl hne
  | cons p ps ih =>
      cases ps with
      | nil => exact ⟨p, List.mem_cons_self, h⟩
      | cons q ps =>
          rw [join_cons _ _ (List.cons_ne_nil q ps)] at h
          rcases infix_append_cons hw h with h | h
          · exact ⟨p, List.mem_cons_self, h⟩
          · obtain ⟨piece, hpiece, hocc⟩ := ih (List.cons_ne_nil q ps) h
            exact ⟨piece, List.mem_cons_of_mem p hpiece, hocc⟩

/-! ## Lines -/

theorem exists_mem_lines_of_infix {w t : Text} (hw : '\n' ∉ w) (h : w <:+: t) :
    ∃ line ∈ lines t, w <:+: line := by
  rw [← ofLines_lines t] at h
  exact exists_mem_of_infix_join (lines_ne_nil t) hw h

theorem areLines_lines (t : Text) : AreLines (lines t) :=
  ⟨lines_ne_nil t, fun _ h => not_mem_of_mem_pieces h⟩

theorem lines_ofLines {ls : List Line} (h : AreLines ls) : lines (ofLines ls) = ls :=
  pieces_join h.ne_nil h.unbroken

/-- The lines of a text made of parts that may hold line breaks themselves. -/
theorem lines_ofLines_eq_flatMap {ps : List Text} (h : ps ≠ []) :
    lines (ofLines ps) = ps.flatMap lines := by
  induction ps with
  | nil => exact absurd rfl h
  | cons p ps ih =>
      cases ps with
      | nil =>
          rw [List.flatMap_cons, List.flatMap_nil, List.append_nil]
          rfl
      | cons q ps =>
          have hrest := ih (List.cons_ne_nil q ps)
          rw [ofLines, join_cons _ _ (List.cons_ne_nil q ps), lines, pieces_append_separator,
            List.flatMap_cons]
          exact congrArg (lines p ++ ·) hrest

theorem lines_overLines {f : List Line → List Line} {t : Text} (h : AreLines (f (lines t))) :
    lines (overLines f t) = f (lines t) :=
  lines_ofLines h

theorem lines_injective {s t : Text} (h : lines s = lines t) : s = t := by
  rw [← ofLines_lines s, h, ofLines_lines]

theorem AreLines.map {ls : List Line} (h : AreLines ls) {f : Line → Line}
    (hf : ∀ line ∈ ls, '\n' ∉ f line) : AreLines (ls.map f) := by
  refine ⟨by simpa using h.ne_nil, ?_⟩
  intro line hline
  obtain ⟨source, hsource, rfl⟩ := List.mem_map.1 hline
  exact hf source hsource

theorem head_lines (t : Text) : (lines t).head? = some (firstLine t) := by
  induction t with
  | nil => rfl
  | cons c t ih =>
      obtain ⟨piece, rest, hrest⟩ := exists_pieces '\n' t
      rw [lines, hrest] at ih
      have hpiece : piece = firstLine t := by simpa using ih
      by_cases hc : c = '\n'
      · rw [hc, lines, pieces_separator]
        rfl
      · rw [lines, pieces_cons hc hrest, firstLine, List.takeWhile_cons_of_pos (by simpa using hc),
          hpiece]
        rfl

theorem lines_append_newline (s t : Text) (hs : '\n' ∉ s) :
    lines (s ++ '\n' :: t) = s :: lines t := by
  rw [lines, pieces_append hs (pieces_separator '\n' t), List.append_nil]
  rfl

/-! ## The final line break -/

theorem join_append_singleton (separator : Char) {ps : List Text} (h : ps ≠ []) (piece : Text) :
    join separator (ps ++ [piece]) = join separator ps ++ separator :: piece := by
  induction ps with
  | nil => exact absurd rfl h
  | cons p ps ih =>
      cases ps with
      | nil => rfl
      | cons q ps =>
          rw [List.cons_append, join_cons _ _ (by simp), ih (List.cons_ne_nil q ps),
            join_cons _ _ (List.cons_ne_nil q ps), List.append_assoc, List.cons_append]

theorem lines_append_singleton (t : Text) : lines (t ++ ['\n']) = lines t ++ [[]] :=
  pieces_append_separator '\n' t []

theorem exists_of_getLast?_lines {t : Text} (hne : t ≠ []) (h : (lines t).getLast? = some []) :
    ∃ s, t = s ++ ['\n'] := by
  obtain ⟨ls, hls⟩ := List.getLast?_eq_some_iff.1 h
  have hjoin := ofLines_lines t
  rw [hls] at hjoin
  cases ls with
  | nil => exact absurd hjoin.symm hne
  | cons line rest =>
      rw [ofLines, join_append_singleton _ (List.cons_ne_nil line rest)] at hjoin
      exact ⟨_, hjoin.symm⟩

theorem ensureNewline_append_newline (t : Text) :
    ensureNewline (t ++ ['\n']) = t ++ ['\n'] := by
  rw [ensureNewline, if_pos (by simp)]

theorem exists_ensureNewline (t : Text) : ∃ s, ensureNewline t = s ++ ['\n'] ∧
    (t = s ++ ['\n'] ∨ t = s) := by
  unfold ensureNewline
  split
  · rename_i hlast
    obtain ⟨s, hs⟩ := List.getLast?_eq_some_iff.1 hlast
    exact ⟨s, hs, .inl hs⟩
  · exact ⟨t, rfl, .inr rfl⟩

/-! ## Replacement on lines -/

theorem lines_replaceAll {needle replacement : Text} (hne : needle ≠ []) (hneedle : '\n' ∉ needle)
    (hreplacement : '\n' ∉ replacement) (t : Text) :
    lines (replaceAll t needle replacement) =
      (lines t).map (replaceAll · needle replacement) := by
  induction t using replacement_induction hne with
  | nil => rfl
  | found t ih =>
      obtain ⟨piece, rest, hrest⟩ := exists_pieces '\n' t
      rw [lines, lines, hrest] at ih
      rw [replaceAll_append hne, lines, lines, pieces_append hneedle hrest,
        pieces_append hreplacement ih, List.map_cons, replaceAll_append hne]
  | skip c t hc ih =>
      obtain ⟨piece, rest, hrest⟩ := exists_pieces '\n' t
      rw [replaceAll_cons hc]
      by_cases hnewline : c = '\n'
      · rw [hnewline, lines, pieces_separator, lines, pieces_separator, List.map_cons,
          replaceAll_nil]
        exact congrArg ([] :: ·) ih
      · have hpiece : ¬ needle <+: c :: piece := fun h =>
          hc (h.trans (List.cons_prefix_cons.2 ⟨rfl, prefix_of_pieces_cons hrest⟩))
        rw [lines, lines, hrest] at ih
        rw [lines, lines, pieces_cons hnewline hrest, pieces_cons hnewline ih, List.map_cons,
          replaceAll_cons hpiece]

end OperatorChart.Text
