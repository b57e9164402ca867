import OperatorChart.BlankRuns
import OperatorChart.Proofs.LineOperations
/-!
# Blank lines next to guards

What the removal of blank runs keeps: every line that is not blank, the first line if it is not
blank, and the last line. Main statement: a second removal finds nothing to remove.
-/

namespace OperatorChart.BlankRuns

theorem collapseFrom_ne_nil (opened : Bool) {ls : List Line} (h : ls ≠ []) :
    collapseFrom opened ls ≠ [] := by
  fun_induction collapseFrom opened ls with
  | case1 => exact h
  | case2 => simp
  | case3 opened line next rest _ ih => exact ih (List.cons_ne_nil next rest)
  | case4 => simp

theorem mem_of_mem_collapseFrom {opened : Bool} {ls : List Line} {line : Line}
    (h : line ∈ collapseFrom opened ls) : line ∈ ls := by
  fun_induction collapseFrom opened ls with
  | case1 => exact h
  | case2 => exact h
  | case3 opened first next rest _ ih => exact List.mem_cons_of_mem first (ih h)
  | case4 opened first next rest _ ih =>
      rcases List.mem_cons.1 h with rfl | h
      · exact List.mem_cons_self
      · exact List.mem_cons_of_mem first (ih h)

theorem collapseFrom_of_not_isBlank (opened : Bool) {line : Line} (h : line.isBlank = false)
    (rest : List Line) : ∃ rest', collapseFrom opened (line :: rest) = line :: rest' := by
  cases rest with
  | nil => exact ⟨[], rfl⟩
  | cons next rest =>
      refine ⟨collapseFrom (hasOpening line) (next :: rest), ?_⟩
      rw [collapseFrom, h, Bool.false_and]
      rfl

/-! ## A second removal -/

theorem closesNext_cons {line : Line} {rest : List Line} (h : rest ≠ []) :
    closesNext (line :: rest) = if line.isBlank then closesNext rest else hasClosing line := by
  cases rest with
  | nil => exact absurd rfl h
  | cons next rest => rfl

theorem closesNext_collapseFrom (opened : Bool) (ls : List Line) :
    closesNext (collapseFrom opened ls) = closesNext ls := by
  fun_induction collapseFrom opened ls with
  | case1 => rfl
  | case2 => rfl
  | case3 opened line next rest h ih =>
      have hblank : line.isBlank = true := (Bool.and_eq_true _ _ ▸ h).1
      rw [ih, closesNext_cons (List.cons_ne_nil next rest), if_pos hblank]
  | case4 opened line next rest _ ih =>
      rw [closesNext_cons (collapseFrom_ne_nil _ (List.cons_ne_nil next rest)), ih,
        closesNext_cons (List.cons_ne_nil next rest)]

theorem collapseFrom_cons {opened : Bool} {line : Line} {rest : List Line} (hne : rest ≠ [])
    (h : (line.isBlank && (opened || closesNext rest)) = false) :
    collapseFrom opened (line :: rest) = line :: collapseFrom (hasOpening line) rest := by
  cases rest with
  | nil => exact absurd rfl hne
  | cons next rest =>
      rw [collapseFrom, h]
      rfl

theorem collapseFrom_cons_of_blank {opened : Bool} {line : Line} {rest : List Line}
    (hne : rest ≠ []) (hblank : line.isBlank = true) (h : (opened || closesNext rest) = true) :
    collapseFrom opened (line :: rest) = collapseFrom opened rest := by
  cases rest with
  | nil => exact absurd rfl hne
  | cons next rest =>
      rw [collapseFrom, hblank, h]
      rfl

theorem collapseFrom_collapseFrom (opened : Bool) (ls : List Line) :
    collapseFrom opened (collapseFrom opened ls) = collapseFrom opened ls := by
  fun_induction collapseFrom opened ls with
  | case1 => rfl
  | case2 => rfl
  | case3 opened line next rest _ ih => exact ih
  | case4 opened line next rest h ih =>
      rw [Bool.not_eq_true] at h
      have hne := collapseFrom_ne_nil (hasOpening line) (List.cons_ne_nil next rest)
      rw [collapseFrom_cons hne (by rwa [closesNext_collapseFrom]), ih]

theorem collapse_collapse (ls : List Line) : collapse (collapse ls) = collapse ls :=
  collapseFrom_collapseFrom false ls

/-! ## What is kept -/

theorem areLines_collapse {ls : List Line} (h : Text.AreLines ls) :
    Text.AreLines (collapse ls) :=
  ⟨collapseFrom_ne_nil false h.ne_nil, fun line hline =>
    h.unbroken line (mem_of_mem_collapseFrom hline)⟩

theorem mem_collapseFrom {opened : Bool} {ls : List Line} {line : Line}
    (hblank : line.isBlank = false) (h : line ∈ ls) : line ∈ collapseFrom opened ls := by
  fun_induction collapseFrom opened ls with
  | case1 => exact h
  | case2 => exact h
  | case3 opened first next rest hfirst ih =>
      rcases List.mem_cons.1 h with rfl | h
      · rw [hblank] at hfirst
        exact Bool.noConfusion hfirst
      · exact ih h
  | case4 opened first next rest _ ih =>
      rcases List.mem_cons.1 h with rfl | h
      · exact List.mem_cons_self
      · exact List.mem_cons_of_mem first (ih h)

theorem collapse_eq_self_of_blank {ls : List Line} (h : ∀ line ∈ ls, hasClosing line = false)
    (hopening : ∀ line ∈ ls, hasOpening line = false) : collapse ls = ls := by
  have hcloses : ∀ rest : List Line, (∀ line ∈ rest, hasClosing line = false) →
      closesNext rest = false := by
    intro rest hrest
    induction rest with
    | nil => rfl
    | cons line rest ih =>
        cases rest with
        | nil => exact hrest line List.mem_cons_self
        | cons next rest =>
            rw [closesNext_cons (List.cons_ne_nil next rest),
              ih fun x hx => hrest x (List.mem_cons_of_mem line hx),
              hrest line List.mem_cons_self, ite_self]
  unfold collapse
  induction ls with
  | nil => rfl
  | cons line rest ih =>
      cases rest with
      | nil => rfl
      | cons next rest =>
          have hrest := hcloses (next :: rest) fun x hx => h x (List.mem_cons_of_mem line hx)
          rw [collapseFrom_cons (List.cons_ne_nil next rest) (by rw [hrest]; simp),
            hopening line List.mem_cons_self,
            ih (fun x hx => h x (List.mem_cons_of_mem line hx))
              fun x hx => hopening x (List.mem_cons_of_mem line hx)]

end OperatorChart.BlankRuns
