import OperatorChart.Proofs.MonitorNames
import OperatorChart.Proofs.NamingNesting
/-!
# The name of a monitor and the nesting of guards

An entry with a name that holds line breaks may reach into the closing line of the guard around
the monitor. The new name ends like the old one, so each line of an entry keeps its part in the
nesting.
-/

namespace OperatorChart.Naming

open Text

/-! ## Lines with white space behind them -/

theorem Trails.sameShape {line line' : Line} (h : Trails line line') :
    Line.SameShape line' line := by
  refine ⟨Line.role_of_trimmed h.trimmed.symm, Line.isBlank_of_trimmed h.trimmed.symm,
    fun hblank => ?_⟩
  rw [Line.isBlank_of_trimmed h.trimmed] at hblank
  obtain ⟨tail, htail, rfl⟩ := h
  rw [Line.leading, Line.leading, List.takeWhile_append, if_neg]
  intro hlength
  have hall : line.takeWhile isIndentation = line :=
    (List.takeWhile_prefix isIndentation).eq_of_length hlength
  have hwhite : IsWhite line := isWhite_of_isIndentation fun c hc =>
    List.mem_takeWhile_imp (hall.symm ▸ hc)
  have htrue : line.isBlank = true := isBlank_iff.2 hwhite
  rw [hblank] at htrue
  cases htrue

theorem Trails.isGuardedText {line line' : Line} (h : Trails line line')
    (hline : line'.IsGuardedText) : line.IsGuardedText := by
  rcases hline with hline | hline
  · obtain ⟨tail, -, rfl⟩ := h
    exact .inl (hline.of_infix (List.prefix_append line tail).isInfix)
  · right
    rw [Line.IsGuard, h.trimmed] at hline
    exact hline

/-! ## Entries -/

theorem isPlain_renamed {start : Text} (hstart : ∀ c ∈ start, isIndentation c = true) {s : Line}
    (hs : s.IsPlain) : Line.IsPlain (start ++ ("name: ".toList ++ (chartName ++ '-' :: s))) := by
  apply Line.IsPlain.append_left _ fun hmem => absurd (hstart '{' hmem) (by decide)
  have hdash : Line.IsPlain ('-' :: s) := hs.append_left (s := ['-']) (by decide)
  have hconst : "name: ".toList ++ (chartName ++ '-' :: s) =
      ("name: ".toList ++ chartName.dropLast ++ ['}']) ++ '-' :: s := by
    have hchart : chartName = chartName.dropLast ++ ['}'] := by decide
    nth_rewrite 1 [hchart]
    simp only [List.append_assoc]
  rw [hconst]
  intro hocc
  rcases infix_concat_append (by decide) hocc with hocc | hocc
  · exact absurd hocc (hasInfix_eq_false_iff.1 (by decide))
  · exact hdash hocc

theorem IsRenaming.keepsShape {line line' : Line} (h : IsRenaming line line')
    (hline : line.IsGuardedText) : line'.IsGuardedText ∧ Line.SameShape line line' := by
  cases h with
  | trails htrails => exact ⟨htrails.isGuardedText hline, htrails.sameShape⟩
  | @entry start pad front s tail hstart hdash =>
      have hplain : Line.IsPlain (start ++ "name:".toList ++ pad ++ (front ++ s ++ tail)) := by
        refine hline.resolve_right fun hguard => ?_
        have hocc : "name:".toList <:+: start ++ "name:".toList ++ pad ++ (front ++ s ++ tail) :=
          ⟨start, pad ++ (front ++ s ++ tail), by simp only [List.append_assoc]⟩
        exact absurd hocc (not_infix_of_isGuard ⟨by decide, by decide⟩ (by decide) hguard)
      have hs : Line.IsPlain s := hplain.of_infix
        ⟨start ++ "name:".toList ++ pad ++ front, tail, by simp only [List.append_assoc]⟩
      have hplain' := isPlain_renamed hstart hs
      rw [List.append_assoc start "name: ".toList]
      refine ⟨.inl hplain', Line.sameShape_of_isPlain hplain hplain' ?_ ?_⟩
      · have hnew : 'n' ∈ start ++ ("name: ".toList ++ (chartName ++ '-' :: s)) :=
          List.mem_append_right start (List.mem_append_left _ (by decide))
        have hold : 'n' ∈ start ++ "name:".toList ++ pad ++ (front ++ s ++ tail) := by
          rw [List.append_assoc, List.append_assoc]
          exact List.mem_append_right start (List.mem_append_left _ (by decide))
        rw [Line.not_isBlank_of_mem hnew rfl, Line.not_isBlank_of_mem hold rfl]
      · have hold : Line.leading (start ++ "name:".toList ++ pad ++ (front ++ s ++ tail)) =
            start := by
          rw [List.append_assoc, List.append_assoc]
          exact Line.leading_append hstart rfl
        rw [hold]
        exact Line.leading_append hstart rfl

theorem keepsLines_of_isRenaming {t t' : Text} (h : List.Forall₂ IsRenaming (lines t) (lines t'))
    (ht : ∀ line ∈ lines t, line.IsGuardedText) : KeepsLines t t' := by
  suffices hlines : ∀ ls ls' : List Line, List.Forall₂ IsRenaming ls ls' →
      (∀ line ∈ ls, line.IsGuardedText) →
      List.Forall₂ Line.SameShape ls ls' ∧ ∀ line ∈ ls', line.IsGuardedText by
    obtain ⟨hshape, hguarded⟩ := hlines _ _ h ht
    exact ⟨hshape, hguarded⟩
  intro ls ls' hlines hls
  induction hlines with
  | nil => exact ⟨.nil, hls⟩
  | cons hline _ ih =>
      rw [List.forall_mem_cons] at hls
      obtain ⟨htext, hshape⟩ := hline.keepsShape hls.1
      obtain ⟨hshapes, htexts⟩ := ih hls.2
      exact ⟨.cons hshape hshapes, List.forall_mem_cons.2 ⟨htext, htexts⟩⟩

theorem keepsLines_fillMonitor {project t : Text}
    (hsolid : ∀ c ∈ project, Unicode.isWhiteSpace c = false) (resource : Resource)
    (ht : ∀ line ∈ lines t, line.IsGuardedText) :
    KeepsLines t (fillMonitor project resource t) :=
  keepsLines_of_isRenaming
    (forall₂_isRenaming_fillMonitor (not_mem_newline_of_solid hsolid) resource t) ht

end OperatorChart.Naming
