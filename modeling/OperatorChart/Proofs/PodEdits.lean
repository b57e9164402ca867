import OperatorChart.Proofs.ManagerEdits
/-!
# The edit of the pod's security context

The pass over the pod's security context edits the block of the first one. Here it is an edit of
this block, and the context that was found is found again when its block was edited.
-/

namespace OperatorChart

open Text

structure FindsPod (ls before : List Line) (line : Line) (body behind : List Line) : Prop where
  eq : ls = before ++ (line :: body ++ behind)
  first : NoPod before (line :: body ++ behind)
  pod : line.isPod behind = true
  deep : ∀ l ∈ body, l.isDeeper line.column = true
  stops : Stops line.column behind

def KeyEdit.podSecurityContext : KeyEdit :=
  ofField Values.podSecurityContext fun _ => []

section Pods

variable {ls ls' before body behind : List Line} {line : Line}

theorem exists_findsPod (ls : List Line) : NoPod ls [] ∨ ∃ before line body behind,
    FindsPod ls before line body behind := by
  rcases exists_first_pod ls with hnone | ⟨before, line, after, rfl, hbefore, hpod⟩
  · exact .inl hnone
  obtain ⟨body, behind, rfl, hdeep, hstops⟩ := exists_block_append line.column after
  rw [isPod_append_of_deeper hdeep] at hpod
  exact .inr ⟨before, line, body, behind, rfl, hbefore, hpod, hdeep, hstops⟩

namespace FindsPod

variable (h : FindsPod ls before line body behind)

include h

theorem hasKey : line.hasKey Values.podSecurityContext.key = true := by
  have hpod := h.pod
  rw [Line.isPod, Bool.and_eq_true, Bool.and_eq_true] at hpod
  exact hpod.1.2

theorem continues : ∀ l ∈ body, Values.podSecurityContext.style.continues line.column l = true := by
  have hstyle : Values.podSecurityContext.style = .mapping := rfl
  rw [hstyle, continues_mapping]
  exact h.deep

theorem key?_eq : Values.podSecurityContextKey? ls = some before.length := by
  have hpod := h.pod
  rw [← isPod_append_of_deeper h.deep] at hpod
  rw [h.eq, List.cons_append]
  exact podSecurityContextKey?_of_first h.first hpod

theorem fill_eq (hline : line.IsIndented) : Values.fillPodSecurityContext ls =
    .ok (before ++ (KeyEdit.podSecurityContext.write line body behind ++ behind)) := by
  have hends : Values.podSecurityContext.style.Ends line.column behind := by
    intro l hl
    have hstyle : Values.podSecurityContext.style = .mapping := rfl
    rw [hstyle, continues_mapping]
    exact h.stops l hl
  rw [Values.fillPodSecurityContext, h.key?_eq, h.eq]
  exact ValuesField.fill_eq Values.isEditable_podSecurityContext h.hasKey hline h.continues hends _

theorem isReplacement : IsReplacement Values.podSecurityContext.key line body
    (Values.podSecurityContext.entryAt line) (Values.podSecurityContext.value (line.column + 2))
    behind :=
  ValuesField.isReplacement_value Values.isEditable_podSecurityContext h.hasKey h.continues behind

theorem replace : FindsPod
    (before ++ (Values.podSecurityContext.entryAt line ::
      Values.podSecurityContext.value (line.column + 2) ++ behind)) before
    (Values.podSecurityContext.entryAt line) (Values.podSecurityContext.value (line.column + 2))
    behind := by
  have hreplace := h.isReplacement
  have hpods := (hreplace.isMove Values.isEditable_podSecurityContext.managed before).pods
  refine ⟨rfl, h.first.change hpods, ?_, fun l hl => ?_, ?_⟩
  · rw [isPod_congr hreplace.same_item (Line.hasKey_congr hreplace.old_key hreplace.new_key _)
      hreplace.same_column, h.pod]
  · rw [hreplace.same_column]
    exact (ValuesField.isInner_value Values.isSound_podSecurityContext _ l hl).isDeeper
  · rw [hreplace.same_column]
    exact h.stops

theorem fill_cases (hline : line.IsIndented) : Values.fillPodSecurityContext ls = .ok ls ∨
    Values.fillPodSecurityContext ls =
      .ok (before ++ (Values.podSecurityContext.entryAt line ::
        Values.podSecurityContext.value (line.column + 2) ++ behind)) := by
  rw [h.fill_eq hline, KeyEdit.podSecurityContext]
  simp only [KeyEdit.ofField]
  split
  · exact .inl (by rw [h.eq])
  · exact .inr rfl

end FindsPod

theorem Values.fillPodSecurityContext_of_noPod (h : NoPod ls []) :
    fillPodSecurityContext ls = .ok ls := by
  rw [fillPodSecurityContext, podSecurityContextKey?_of_noPod h]

theorem Values.fillPodSecurityContext_fill (hindented : ∀ l ∈ ls, l.IsIndented)
    (h : fillPodSecurityContext ls = .ok ls') : fillPodSecurityContext ls' = .ok ls' := by
  rcases exists_findsPod ls with hnone | ⟨before, line, body, behind, hpod⟩
  · obtain rfl := Except.ok.inj ((fillPodSecurityContext_of_noPod hnone).symm.trans h)
    exact h
  have hline := hindented line (by rw [hpod.eq]; simp)
  rcases hpod.fill_cases hline with hsame | hfill
  · obtain rfl := Except.ok.inj (hsame.symm.trans h)
    exact h
  · obtain rfl := Except.ok.inj (hfill.symm.trans h)
    have hreplace := hpod.isReplacement
    rw [hpod.replace.fill_eq (hreplace.indented _ List.mem_cons_self), KeyEdit.podSecurityContext,
      KeyEdit.write_value]

end Pods

end OperatorChart
