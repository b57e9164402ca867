import OperatorChart.Proofs.GuardSteps
import OperatorChart.Proofs.NamingNesting
import OperatorChart.Proofs.WrapStability
/-!
# Nesting of the guards of whole resources

A document without directives holds no guard, so the guards that its resource asks for, around
the whole document or around single annotations, are the only ones and are well nested.
-/

namespace OperatorChart

open Text

variable {stack : List Nesting.Frame} {line : Line} {ls : List Line} {t : Text}

theorem isPlain_of_mem_lines (ht : ¬ "\x7b\x7b".toList <:+: t) (h : line ∈ lines t) :
    line.IsPlain := by
  intro hocc
  have hopen : "\x7b\x7b".toList <:+: "\x7b\x7b-".toList := by decide
  exact ht ((hopen.trans hocc).trans (infix_of_mem_pieces h))

namespace Nesting

theorem step_of_isPlain (hline : line.IsPlain) (h : IsWithin stack line.indent) :
    step true stack line = some stack := by
  by_cases hblank : line.isBlank = true
  · exact step_of_isBlank hblank stack
  · exact step_of_content hline.role_eq (by simpa using hblank) h

theorem scan_of_isPlain (hls : ∀ line ∈ ls, line.IsPlain) (h : IsWithin stack 0) :
    scan true stack ls = some stack := by
  induction ls with
  | nil => rfl
  | cons line rest ih =>
      rw [List.forall_mem_cons] at hls
      have hwithin : IsWithin stack line.indent := fun frame hframe =>
        Nat.le_trans (h frame hframe) (Nat.zero_le _)
      rw [scan, step_of_isPlain hls.1 hwithin]
      exact ih hls.2

end Nesting

namespace Wrap

open Nesting

theorem opening_mem_guardTexts (condition : Condition) :
    condition.opening ∈ Line.guardTexts := by
  cases condition <;> simp [Line.guardTexts]

theorem isGuardedText_opening (line : Line) (condition : Condition) :
    Line.IsGuardedText (line.leading ++ condition.opening) := by
  right
  rw [Line.IsGuard, Condition.trimmed_leading_opening]
  exact opening_mem_guardTexts condition

theorem isGuardedText_close (line : Line) :
    Line.IsGuardedText (line.leading ++ Directive.close.render) := by
  right
  rw [Line.IsGuard, Line.trimmed_directive fun _ hc => Line.isIndentation_of_mem_leading hc]
  simp [Line.guardTexts]

/-! ## Around the document -/

theorem scan_guardDocument (condition : Condition) (ht : ¬ "\x7b\x7b".toList <:+: t) :
    (∀ line ∈ lines (guardDocument condition t), line.IsGuardedText) ∧
      scan true [] (lines (guardDocument condition t)) = some [] := by
  rcases lines_guardDocument condition t with hsame | ⟨inner, hinner, hlines⟩
  · have hplain : ∀ line ∈ lines t, line.IsPlain := fun _ h => isPlain_of_mem_lines ht h
    rw [hsame]
    exact ⟨fun line h => .inl (hplain line h), scan_of_isPlain hplain (isWithin_nil 0)⟩
  · have hsub : inner <:+: t := by
      rcases hinner with rfl | rfl
      · exact (List.prefix_append inner ['\n']).isInfix
      · exact List.infix_rfl
    have hplain : ∀ line ∈ lines inner, line.IsPlain := fun line h =>
      isPlain_of_mem_lines (fun hocc => ht (hocc.trans hsub)) h
    have hnil : Line.IsPlain [] := by decide
    rw [hlines]
    constructor
    · intro line hline
      simp only [Condition.guard, List.nil_append, List.cons_append, List.mem_cons,
        List.mem_append, List.not_mem_nil, or_false] at hline
      rcases hline with rfl | (hline | rfl) | rfl
      · exact isGuardedText_opening [] condition
      · exact .inl (hplain line hline)
      · exact isGuardedText_close []
      · exact .inl hnil
    · have hwithin : IsWithin [⟨true, []⟩] 0 := isWithin_cons (isWithin_nil 0)
      have hbody := scan_of_isPlain hplain hwithin
      rw [scan_append, scan_guard (by simp) condition (isWithin_nil 0) hbody, Option.bind_some,
        scan, step_of_isPlain hnil (isWithin_nil _)]
      rfl

/-! ## Around annotations -/

theorem isPlain_leading_trimmed (hline : line.IsPlain) :
    Line.IsPlain (line.leading ++ line.trimmed) := by
  apply (hline.of_infix line.trimmed_infix).append_left
  intro hmem
  exact absurd (Line.isIndentation_of_mem_leading hmem) (by decide)

theorem scan_guardInjections (previous : Option Line) (hls : ∀ line ∈ ls, line.IsPlain) :
    (∀ line ∈ guardInjections previous ls, line.IsGuardedText) ∧
      scan true [] (guardInjections previous ls) = some [] := by
  induction ls generalizing previous with
  | nil => exact ⟨by simp [guardInjections], rfl⟩
  | cons line rest ih =>
      rw [List.forall_mem_cons] at hls
      obtain ⟨hguarded, hscan⟩ := ih (some line) hls.2
      rw [guardInjections]
      split
      · have hs : ∀ c ∈ line.leading, isIndentation c = true := fun c hc =>
          Line.isIndentation_of_mem_leading hc
        have hinner := isPlain_leading_trimmed hls.1
        have hwithin : IsWithin [⟨true, line.leading⟩]
            (Line.indent (line.leading ++ line.trimmed)) :=
          List.forall_mem_cons.2 ⟨Line.length_le_indent_append hs line.trimmed, by simp⟩
        have hbody : scan true [⟨true, line.leading⟩] [line.leading ++ line.trimmed] =
            some [⟨true, line.leading⟩] := by
          rw [scan, step_of_isPlain hinner hwithin]
          rfl
        constructor
        · intro l hl
          simp only [Condition.guard, List.cons_append, List.nil_append, List.mem_cons] at hl
          rcases hl with rfl | rfl | rfl | hl
          · exact isGuardedText_opening line .certManager
          · exact .inl hinner
          · exact isGuardedText_close line
          · exact hguarded l hl
        · rw [scan_append, scan_guard hs .certManager (isWithin_nil _) hbody]
          exact hscan
      · constructor
        · exact List.forall_mem_cons.2 ⟨.inl hls.1, hguarded⟩
        · rw [List.singleton_append, scan, step_of_isPlain hls.1 (isWithin_nil _)]
          exact hscan

theorem scan_apply (resource : Resource) (ht : ¬ "\x7b\x7b".toList <:+: t) :
    (∀ line ∈ lines (apply resource t), line.IsGuardedText) ∧
      scan true [] (lines (apply resource t)) = some [] := by
  have hplain : ∀ line ∈ lines t, line.IsPlain := fun _ h => isPlain_of_mem_lines ht h
  unfold apply
  split
  · exact ⟨fun line h => .inl (isPlain_of_mem_lines (by decide) h), rfl⟩
  · exact scan_guardDocument _ ht
  · rw [lines_overLines (areLines_guardInjections (areLines_lines t))]
    exact scan_guardInjections none hplain
  · exact ⟨fun line h => .inl (hplain line h), scan_of_isPlain hplain (isWithin_nil 0)⟩

end Wrap

end OperatorChart
