import Mathlib.Data.List.Infix
import OperatorChart.Proofs.GuardLines
import OperatorChart.Proofs.NamingStability
/-!
# Names and the nesting of guards

The expressions that stand for names do not trim white space and start behind the indentation,
so the substitutions of names keep the indentation of every line, make no guard out of other
lines, and leave the guards around a resource alone.
-/

namespace OperatorChart

open Text

namespace Line

/-- The wordings of the lines around a part that depends on a condition. -/
def guardTexts : List Text :=
  [Condition.crd.opening, Condition.certManager.opening, Condition.metrics.opening,
    Condition.certManagerAndMetrics.opening, Condition.prometheus.opening,
    Condition.rbacHelpers.opening, Directive.close.render]

def IsGuard (line : Line) : Prop :=
  line.trimmed ∈ guardTexts

/-- Whether a line is one of a resource with guards around parts of it. -/
def IsGuardedText (line : Line) : Prop :=
  line.IsPlain ∨ line.IsGuard

end Line

namespace Naming

/-! ## Replacements -/

/-- A text that starts with an expression that keeps the white space before it. -/
structure IsExpression (replacement : Text) : Prop where
  head : "\x7b\x7b ".toList <+: replacement
  last : replacement.getLast? ≠ some '{'
  plain : Line.IsPlain replacement

section Replacement

variable {needle replacement t : Text}

theorem IsExpression.exists_cons (h : IsExpression replacement) :
    ∃ rest, replacement = '{' :: rest := by
  obtain ⟨rest, hrest⟩ := h.head
  exact ⟨_, hrest.symm⟩

theorem prefix_of_prefix_replaceAll (hneedle : needle ≠ []) (h : IsExpression replacement)
    {w : Text} (hw : w <:+ "\x7b\x7b-".toList) (hstart : w <+: replaceAll t needle replacement) :
    w <+: t := by
  induction t using replacement_induction hneedle generalizing w with
  | nil => exact hstart
  | found t ih =>
      rw [replaceAll_append hneedle] at hstart
      have hhead : "\x7b\x7b ".toList <+: replacement ++ replaceAll t needle replacement :=
        h.head.trans (List.prefix_append _ _)
      have hpieces : ∀ w ∈ "\x7b\x7b-".toList.tails, w <+: "\x7b\x7b ".toList → w = [] := by decide
      have hnil := hpieces w ((List.mem_tails w _).2 hw)
        (List.prefix_of_prefix_length_le hstart hhead hw.length_le)
      rw [hnil]
      exact List.nil_prefix
  | skip c t hc ih =>
      rw [replaceAll_cons hc] at hstart
      cases w with
      | nil => exact List.nil_prefix
      | cons d w =>
          obtain ⟨rfl, hrest⟩ := List.cons_prefix_cons.1 hstart
          have hsuffix : w <:+ "\x7b\x7b-".toList := (List.suffix_cons d w).trans hw
          exact List.cons_prefix_cons.2 ⟨rfl, ih hsuffix hrest⟩

theorem isPlain_replaceAll (hneedle : needle ≠ []) (h : IsExpression replacement)
    (ht : Line.IsPlain t) : Line.IsPlain (replaceAll t needle replacement) := by
  induction t using replacement_induction hneedle with
  | nil => exact ht
  | found t ih =>
      have hrest := ih (ht.of_infix (List.suffix_append needle t).isInfix)
      rw [replaceAll_append hneedle]
      intro hocc
      rcases List.infix_append_iff_ne_nil.1 hocc with
        hocc | hocc | ⟨l, r, hl, hr, heq, hsuffix, -⟩
      · exact h.plain hocc
      · exact hrest hocc
      · obtain ⟨front, c, rfl⟩ := (List.eq_nil_or_concat l).resolve_left hl
        rw [List.concat_eq_append] at heq hsuffix
        have hbraces : ∀ l r : Text, "\x7b\x7b-".toList = l ++ r → l ≠ [] → r ≠ [] →
            l.getLast? = some '{' := by
          intro l r heq hl hr
          rcases l with _ | ⟨a, _ | ⟨b, _ | ⟨d, l⟩⟩⟩
          · exact absurd rfl hl
          · cases heq; rfl
          · cases heq; rfl
          · simp at heq
            exact absurd heq.2.2.2.2 hr
        have hc := hbraces _ _ heq (by simp) hr
        rw [List.getLast?_concat] at hc
        obtain ⟨back, hback⟩ := hsuffix
        apply h.last
        rw [← hback, ← List.append_assoc, List.getLast?_concat, hc]
  | skip c t hc ih =>
      rw [replaceAll_cons hc]
      intro hocc
      rcases List.infix_cons_iff.1 hocc with hstart | hocc
      · rw [← replaceAll_cons hc replacement] at hstart
        exact ht (prefix_of_prefix_replaceAll hneedle h List.suffix_rfl hstart).isInfix
      · exact ih (ht.of_infix (List.suffix_cons c t).isInfix) hocc

theorem leading_replaceAll (hneedle : IsWord needle) (h : IsExpression replacement) (t : Text) :
    Line.leading (replaceAll t needle replacement) = Line.leading t := by
  obtain ⟨rest, rfl⟩ := h.exists_cons
  induction t using replacement_induction hneedle.ne_nil with
  | nil => rfl
  | found t ih =>
      obtain ⟨c, needle, rfl⟩ := List.exists_cons_of_ne_nil hneedle.ne_nil
      have hc := isIndentation_of_not_isWhiteSpace (hneedle.solid c List.mem_cons_self)
      rw [replaceAll_append hneedle.ne_nil, Line.leading, Line.leading, List.cons_append,
        List.cons_append, List.takeWhile_cons_of_neg (by decide),
        List.takeWhile_cons_of_neg (by simp [hc])]
  | skip c t hc ih =>
      rw [replaceAll_cons hc]
      unfold Line.leading at ih ⊢
      by_cases hindentation : isIndentation c = true
      · rw [List.takeWhile_cons_of_pos hindentation, List.takeWhile_cons_of_pos hindentation, ih]
      · rw [List.takeWhile_cons_of_neg hindentation, List.takeWhile_cons_of_neg hindentation]

theorem isWhite_replaceAll_iff (hneedle : IsWord needle) (h : IsExpression replacement)
    (t : Text) : IsWhite (replaceAll t needle replacement) ↔ IsWhite t := by
  obtain ⟨rest, rfl⟩ := h.exists_cons
  induction t using replacement_induction hneedle.ne_nil with
  | nil => exact Iff.rfl
  | found t ih =>
      obtain ⟨c, needle, rfl⟩ := List.exists_cons_of_ne_nil hneedle.ne_nil
      have hc := hneedle.solid c List.mem_cons_self
      rw [replaceAll_append hneedle.ne_nil]
      constructor
      · intro hwhite
        exact absurd (hwhite '{' (by simp)) (by decide)
      · intro hwhite
        have hwhite := hwhite c (by simp)
        rw [hc] at hwhite
        cases hwhite
  | skip c t hc ih =>
      rw [replaceAll_cons hc]
      unfold IsWhite at ih ⊢
      rw [List.forall_mem_cons, List.forall_mem_cons, ih]

theorem sameShape_replaceAll (hneedle : IsWord needle) (h : IsExpression replacement)
    {line : Line} (hline : line.IsPlain) :
    Line.SameShape line (replaceAll line needle replacement) := by
  have hplain := isPlain_replaceAll hneedle.ne_nil h hline
  apply Line.sameShape_of_isPlain hline hplain
  · rw [Bool.eq_iff_iff]
    exact (isBlank_iff.trans (isWhite_replaceAll_iff hneedle h line)).trans isBlank_iff.symm
  · exact leading_replaceAll hneedle h line

end Replacement

/-! ## Lines under the substitutions -/

/-- Whether a function on lines keeps the part that each line of a resource takes in the nesting
of guards. -/
def KeepsShape (f : Line → Line) : Prop :=
  ∀ line : Line, line.IsGuardedText → (f line).IsGuardedText ∧ Line.SameShape line (f line)

theorem keepsShape_id : KeepsShape fun line => line :=
  fun line h => ⟨h, Line.SameShape.refl line⟩

theorem KeepsShape.comp {f g : Line → Line} (hg : KeepsShape g) (hf : KeepsShape f) :
    KeepsShape fun line => g (f line) := by
  intro line hline
  obtain ⟨hf, hshape⟩ := hf line hline
  obtain ⟨hg, hshape'⟩ := hg (f line) hf
  exact ⟨hg, hshape.trans hshape'⟩

theorem not_infix_of_isGuard {mark : Text} (hmark : IsWord mark)
    (hguards : ∀ t ∈ Line.guardTexts, hasInfix mark t = false) {line : Line}
    (hline : line.IsGuard) : ¬ mark <:+: line :=
  fun hocc => hasInfix_eq_false_iff.1 (hguards _ hline) (hmark.infix_trim hocc)

theorem keepsShape_replaceAll {needle mark replacement : Text} (hneedle : IsWord needle)
    (hmark : IsWord mark) (hocc : mark <:+: needle)
    (hguards : ∀ t ∈ Line.guardTexts, hasInfix mark t = false)
    (hreplacement : IsExpression replacement) : KeepsShape (replaceAll · needle replacement) := by
  rintro line (hline | hline)
  · exact ⟨.inl (isPlain_replaceAll hneedle.ne_nil hreplacement hline),
      sameShape_replaceAll hneedle hreplacement hline⟩
  · have hnone : ¬ needle <:+: line := fun h =>
      not_infix_of_isGuard hmark hguards hline (hocc.trans h)
    dsimp only
    rw [replaceAll_eq_self hnone]
    exact ⟨.inr hline, Line.SameShape.refl line⟩

theorem IsSubstitution.keepsShape {project : Text}
    (hsolid : ∀ c ∈ project, Unicode.isWhiteSpace c = false) {f : Line → Line}
    (h : IsSubstitution project f) : KeepsShape f := by
  induction h with
  | same => exact keepsShape_id
  | @literal front mark replacement hfront hmem =>
      have hends : ∀ entry ∈ literalEnds, (∀ t ∈ Line.guardTexts, hasInfix entry.1 t = false) ∧
          "\x7b\x7b ".toList <+: entry.2 ∧ entry.2.getLast? ≠ some '{' ∧ Line.IsPlain entry.2 := by
        decide
      obtain ⟨hguards, hhead, hlast, hplain⟩ := hends _ hmem
      have hmark := isWord_of_mem_ends hmem
      exact keepsShape_replaceAll (isWord_literal hsolid hfront hmark) hmark
        (List.suffix_append front mark).isInfix hguards ⟨hhead, hlast, hplain⟩
  | comp _ _ hf hg => exact hg.comp hf

theorem keepsShape_fillManagedByLine : KeepsShape fillManagedByLine := by
  intro line hline
  unfold fillManagedByLine
  split
  · rename_i hmanaged
    have hlabel := infix_of_isManagedByBuild hmanaged
    have hword : IsWord managedByLabel := ⟨by decide, by decide⟩
    rcases hline with hline | hline
    · have hleading : '{' ∉ line.leading := fun hmem =>
        absurd (Line.isIndentation_of_mem_leading hmem) (by decide)
      have hplain : Line.IsPlain (line.leading ++ managedByLabel ++
          ' ' :: (Directive.value ".Release.Service".toList).render) := by
        rw [List.append_assoc]
        apply Line.IsPlain.append_left _ hleading
        decide
      refine ⟨.inl hplain, Line.sameShape_of_isPlain hline hplain ?_ ?_⟩
      · have hblank : line.isBlank = false := by
          rw [← Bool.not_eq_true]
          exact fun hblank => hword.not_infix_of_isWhite (isBlank_iff.1 hblank) hlabel
        rw [hblank, ← Bool.not_eq_true]
        intro hwhite
        have hmem : 'a' ∈ line.leading ++ managedByLabel ++
            ' ' :: (Directive.value ".Release.Service".toList).render :=
          List.mem_append_left _ (List.mem_append_right _ (by decide))
        exact absurd (isBlank_iff.1 hwhite 'a' hmem) (by decide)
      · rw [List.append_assoc]
        exact Line.leading_append (fun _ hc => Line.isIndentation_of_mem_leading hc) rfl
    · exact absurd hlabel (not_infix_of_isGuard hword (by decide) hline)
  · exact ⟨hline, Line.SameShape.refl line⟩

end Naming

/-! ## Texts under the substitutions -/

namespace Text

/-- Whether a text takes part in the nesting of guards as another one does, line by line. -/
structure KeepsLines (t t' : Text) : Prop where
  shape : List.Forall₂ Line.SameShape (lines t) (lines t')
  guarded : ∀ line ∈ lines t', line.IsGuardedText

theorem keepsLines_of_isLinewise {f : Text → Text} (hf : Naming.IsLinewise f)
    (hkeeps : Naming.KeepsShape f) {t : Text} (ht : ∀ line ∈ lines t, line.IsGuardedText) :
    KeepsLines t (f t) := by
  constructor
  · rw [hf, List.forall₂_map_right_iff, List.forall₂_same]
    exact fun line hline => (hkeeps line (ht line hline)).2
  · intro line hline
    rw [hf] at hline
    obtain ⟨source, hsource, rfl⟩ := List.mem_map.1 hline
    exact (hkeeps source (ht source hsource)).1

end Text

end OperatorChart
