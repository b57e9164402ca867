import Mathlib.Data.List.Forall2
import OperatorChart.Condition
import OperatorChart.Proofs.BlankRuns
import OperatorChart.Proofs.LineShape
import OperatorChart.Proofs.Nesting
/-!
# Lines that take part in the nesting

Only a line with a directive that trims the white space before it opens, divides or closes a
guard. So lines without one do not matter for the nesting but for their indentation, and neither
do blank lines where they are allowed.
-/

namespace OperatorChart

open Text

namespace Line

/-- Whether a line holds no directive that trims the white space before it. -/
def IsPlain (line : Line) : Prop :=
  ¬ "\x7b\x7b-".toList <:+: line

instance (line : Line) : Decidable line.IsPlain :=
  decidable_of_iff (hasInfix "\x7b\x7b-".toList line = false) hasInfix_eq_false_iff

variable {line line' : Line}

theorem trimmed_infix (line : Line) : line.trimmed <:+: line := by
  obtain ⟨s, s', -, -, heq⟩ := exists_trim line
  exact ⟨s, s', heq.symm⟩

theorem trimmed_append {s t : Text} (hs : IsWhite s) : trimmed (s ++ t) = trimmed t := by
  rw [trimmed, trim, trimStart_append hs]
  rfl

theorem role_of_trimmed (h : line.trimmed = line'.trimmed) : line.role = line'.role := by
  rw [role, role, h]

theorem isBlank_of_trimmed (h : line.trimmed = line'.trimmed) : line.isBlank = line'.isBlank := by
  rw [isBlank, isBlank, h]

theorem IsPlain.role_eq (h : line.IsPlain) : line.role = .content := by
  have hnone : ∀ t : Text, "\x7b\x7b-".toList <+: t → ¬ t <+: line.trimmed := by
    intro t ht hprefixed
    exact h ((ht.trans hprefixed).isInfix.trans line.trimmed_infix)
  have hnotIf := hnone "\x7b\x7b- if ".toList (by decide)
  have hnotRange := hnone "\x7b\x7b- range ".toList (by decide)
  have hnotOther : line.trimmed ≠ Directive.otherwise.render := by
    intro heq
    exact hnone line.trimmed (by rw [heq]; decide) List.prefix_rfl
  have hnotClose : line.trimmed ≠ Directive.close.render := by
    intro heq
    exact hnone line.trimmed (by rw [heq]; decide) List.prefix_rfl
  rw [role, if_neg (by rwa [List.isPrefixOf_iff_prefix]),
    if_neg (by rwa [List.isPrefixOf_iff_prefix]), if_neg hnotOther, if_neg hnotClose]

theorem role_of_isBlank (h : line.isBlank = true) : line.role = .content := by
  apply IsPlain.role_eq
  intro hocc
  exact absurd (isBlank_iff.1 h '{' (hocc.mem (by decide))) (by decide)

theorem isPlain_of_not_mem {line : Line} (h : '{' ∉ line) : line.IsPlain :=
  fun hocc => h (hocc.mem (by decide))

theorem IsPlain.append_left {s t : Line} (h : IsPlain t) (hs : '{' ∉ s) : IsPlain (s ++ t) := by
  induction s with
  | nil => exact h
  | cons c s ih =>
      rw [List.mem_cons, not_or] at hs
      intro hocc
      rcases List.infix_cons_iff.1 hocc with hocc | hocc
      · obtain ⟨heq, -⟩ := List.cons_prefix_cons.1 hocc
        exact hs.1 heq
      · exact ih hs.2 hocc

theorem IsPlain.of_infix {s t : Line} (h : IsPlain t) (hs : s <:+: t) : IsPlain s :=
  fun hocc => h (hocc.trans hs)

/-! ## Lines of one shape -/

structure SameShape (line line' : Line) : Prop where
  role : line'.role = line.role
  blank : line'.isBlank = line.isBlank
  leading : line.isBlank = false → line'.leading = line.leading

theorem SameShape.refl (line : Line) : SameShape line line :=
  ⟨rfl, rfl, fun _ => rfl⟩

theorem SameShape.trans {line'' : Line} (h : SameShape line line') (h' : SameShape line' line'') :
    SameShape line line'' :=
  ⟨h'.role.trans h.role, h'.blank.trans h.blank, fun hblank =>
    (h'.leading (h.blank.trans hblank)).trans (h.leading hblank)⟩

theorem sameShape_of_isPlain (h : line.IsPlain) (h' : line'.IsPlain)
    (hblank : line'.isBlank = line.isBlank) (hleading : line'.leading = line.leading) :
    SameShape line line' :=
  ⟨h'.role_eq.trans h.role_eq.symm, hblank, fun _ => hleading⟩

end Line

namespace Nesting

variable {blanks : Bool} {stack stack' : List Frame} {line line' : Line} {ls ls' : List Line}

theorem step_of_isBlank (hblank : line.isBlank = true) (stack : List Frame) :
    step true stack line = some stack := by
  rw [step.eq_def, Line.role_of_isBlank hblank]
  simp [fits, hblank]

theorem step_congr (h : Line.SameShape line line') (blanks : Bool) (stack : List Frame) :
    step blanks stack line' = step blanks stack line := by
  by_cases hblank : line.isBlank = true
  · have hblank' := h.blank.trans hblank
    rw [step.eq_def, step.eq_def, Line.role_of_isBlank hblank, Line.role_of_isBlank hblank']
    simp only [fits, hblank, hblank', if_true]
  · rw [Bool.not_eq_true] at hblank
    have hleading := h.leading hblank
    have hadmits : ∀ stack, admits stack line' = admits stack line := by
      intro stack
      rw [admits, admits, Line.indent, Line.indent, hleading]
    rw [step.eq_def, step.eq_def, h.role]
    simp only [fits, h.blank, hleading, hadmits]
    rfl

theorem scan_congr (h : List.Forall₂ Line.SameShape ls ls') (blanks : Bool)
    (stack : List Frame) : scan blanks stack ls' = scan blanks stack ls := by
  induction h generalizing stack with
  | nil => rfl
  | cons hline _ ih =>
      rw [scan, scan, step_congr hline]
      exact congrArg _ (funext ih)

theorem step_lenient (h : step false stack line = some stack') :
    step true stack line = some stack' := by
  by_cases hblank : line.isBlank = true
  · rw [step.eq_def, Line.role_of_isBlank hblank] at h
    rw [step_of_isBlank hblank]
    dsimp only at h
    split at h
    · exact h
    · cases h
  · rw [← h, step.eq_def, step.eq_def]
    simp only [fits, if_neg hblank]

theorem scan_lenient (h : scan false stack ls = some stack') :
    scan true stack ls = some stack' := by
  induction ls generalizing stack with
  | nil => exact h
  | cons line rest ih =>
      rw [scan] at h ⊢
      cases hstep : step false stack line with
      | none => rw [hstep] at h; cases h
      | some next =>
          rw [hstep] at h
          rw [step_lenient hstep]
          exact ih h

/-- Removed blank lines leave no trace in the nesting. -/
theorem scan_collapseFrom (opened : Bool) (stack : List Frame) (ls : List Line) :
    scan true stack (BlankRuns.collapseFrom opened ls) = scan true stack ls := by
  fun_induction BlankRuns.collapseFrom opened ls generalizing stack with
  | case1 => rfl
  | case2 => rfl
  | case3 opened line next rest h ih =>
      have hblank : line.isBlank = true := (Bool.and_eq_true _ _ ▸ h).1
      rw [ih, scan.eq_def true stack (line :: _)]
      simp only [step_of_isBlank hblank, Option.bind_some]
  | case4 opened line next rest _ ih =>
      rw [scan, scan.eq_def true stack (line :: _)]
      exact congrArg _ (funext ih)

end Nesting

end OperatorChart
