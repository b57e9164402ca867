import Mathlib.Data.List.DropRight
import OperatorChart.Pass
import OperatorChart.Proofs.BlankRuns
import OperatorChart.Proofs.Blocks
/-!
# Runs of blank lines that go away

The pass over blank lines carries a flag down the document and looks ahead from each blank line.
Here it is said without either which lines go away: those of the runs that cannot be made longer
and stand next to a guard. Main statement: the output has the other lines, in their order, and a
second run of the pass changes nothing.
-/

namespace OperatorChart

open Text

namespace BlankRuns

/-- Whether lines between others are a run of blank lines that no further blank line extends. The
last line of a document is not blank in this sense, whatever it holds. -/
structure IsRun (before run after : List Line) : Prop where
  ne_nil : run ≠ []
  blank : ∀ line ∈ run, line.isBlank = true
  above : ∀ line, before.getLast? = some line → line.isBlank = false
  below : ∃ line rest, after = line :: rest ∧ (rest ≠ [] → line.isBlank = false)

/-- Whether what stands between other lines is right behind a line with the opening of a guard, or
right before one with a closing. -/
def IsNextToGuard (before after : List Line) : Prop :=
  (∃ line, before.getLast? = some line ∧ "\x7b\x7b- if ".toList <:+: line) ∨
    ∃ line, after.head? = some line ∧ "\x7b\x7b- end \x7d\x7d".toList <:+: line

def IsRemoved (ls : List Line) (i : Nat) : Prop :=
  ∃ before run after, ls = before ++ (run ++ after) ∧ IsRun before run after ∧
    IsNextToGuard before after ∧ before.length ≤ i ∧ i < before.length + run.length

/-- Whether the nearest line that is not blank opens a guard, going up from the end. -/
def opensAbove (above : List Line) : Bool :=
  above.foldl (fun opened line => if line.isBlank then opened else hasOpening line) false

variable {above below before run after ls : List Line} {line : Line}

/-! ## The flag and the look ahead -/

theorem not_hasOpening_of_isBlank (h : line.isBlank = true) : hasOpening line = false := by
  rw [hasOpening, hasInfix_eq_false_iff]
  intro hocc
  exact absurd (isBlank_iff.1 h '{' (hocc.mem (by decide))) (by decide)

theorem opensAbove_concat (above : List Line) (line : Line) :
    opensAbove (above ++ [line]) = if line.isBlank then opensAbove above else hasOpening line := by
  rw [opensAbove, List.foldl_append]
  rfl

theorem opensAbove_append (h : ∀ line ∈ run, line.isBlank = true) :
    opensAbove (before ++ run) = opensAbove before := by
  induction run generalizing before with
  | nil => rw [List.append_nil]
  | cons line rest ih =>
      rw [List.forall_mem_cons] at h
      rw [List.append_cons, ih h.2, opensAbove_concat, if_pos h.1]

theorem opensAbove_iff (h : ∀ line, before.getLast? = some line → line.isBlank = false) :
    opensAbove before = true ↔
      ∃ line, before.getLast? = some line ∧ "\x7b\x7b- if ".toList <:+: line := by
  rcases List.eq_nil_or_concat before with rfl | ⟨front, last, rfl⟩
  · simp [opensAbove]
  · rw [List.concat_eq_append] at h ⊢
    have hlast : last.isBlank = false := h last List.getLast?_concat
    simp [opensAbove_concat, hlast, hasOpening, hasInfix_iff]

theorem closesNext_append_of_blank (h : ∀ line ∈ run, line.isBlank = true) (hne : after ≠ []) :
    closesNext (run ++ after) = closesNext after := by
  induction run with
  | nil => rfl
  | cons line rest ih =>
      rw [List.forall_mem_cons] at h
      rw [List.cons_append, closesNext_cons (by simp [hne]), if_pos h.1, ih h.2]

theorem closesNext_iff
    (h : ∃ line rest, after = line :: rest ∧ (rest ≠ [] → line.isBlank = false)) :
    closesNext after = true ↔
      ∃ line, after.head? = some line ∧ "\x7b\x7b- end \x7d\x7d".toList <:+: line := by
  obtain ⟨line, rest, rfl, hsolid⟩ := h
  have hcloses : closesNext (line :: rest) = hasClosing line := by
    cases rest with
    | nil => rfl
    | cons next rest =>
        rw [closesNext_cons (List.cons_ne_nil next rest), hsolid (List.cons_ne_nil next rest)]
        rfl
  rw [hcloses, hasClosing, hasInfix_iff]
  simp only [List.head?_cons, Option.some.injEq, exists_eq_left']
  rfl

/-- The flag and the look ahead find the two sides of a run. -/
theorem IsRun.isNextToGuard_iff (h : IsRun before run after) :
    IsNextToGuard before after ↔ (opensAbove before || closesNext after) = true := by
  rw [Bool.or_eq_true, opensAbove_iff h.above, closesNext_iff h.below, IsNextToGuard]

/-! ## The run of a blank line -/

theorem exists_above (above : List Line) : ∃ before run, above = before ++ run ∧
    (∀ line ∈ run, line.isBlank = true) ∧
      ∀ line, before.getLast? = some line → line.isBlank = false := by
  refine ⟨above.rdropWhile Line.isBlank, above.rtakeWhile Line.isBlank,
    List.rdropWhile_append_rtakeWhile.symm, fun line => List.mem_rtakeWhile_imp, ?_⟩
  intro line hline
  have hne : above.rdropWhile Line.isBlank ≠ [] := by
    rintro hnil
    rw [hnil] at hline
    cases hline
  have hlast := List.rdropWhile_last_not Line.isBlank above hne
  rw [List.getLast?_eq_getLast_of_ne_nil hne, Option.some.injEq] at hline
  rwa [hline, Bool.not_eq_true] at hlast

theorem exists_below (hne : below ≠ []) : ∃ run after, below = run ++ after ∧
    (∀ line ∈ run, line.isBlank = true) ∧
      ∃ line rest, after = line :: rest ∧ (rest ≠ [] → line.isBlank = false) := by
  induction below with
  | nil => exact absurd rfl hne
  | cons line rest ih =>
      by_cases hstop : rest ≠ [] → line.isBlank = false
      · exact ⟨[], line :: rest, rfl, by simp, line, rest, rfl, hstop⟩
      · rw [Classical.not_imp, Bool.not_eq_false] at hstop
        obtain ⟨run, after, rfl, hrun, hafter⟩ := ih hstop.1
        exact ⟨line :: run, after, rfl, List.forall_mem_cons.2 ⟨hstop.2, hrun⟩, hafter⟩

theorem exists_of_mem_run (heq : above ++ line :: below = before ++ (run ++ after))
    (hle : before.length ≤ above.length) (hlt : above.length < before.length + run.length) :
    ∃ front back, run = front ++ line :: back ∧ above = before ++ front ∧
      below = back ++ after := by
  rcases cases_of_append_eq heq.symm with ⟨r, rfl, -⟩ | ⟨front, rfl, hrun⟩
  · simp only [List.length_append, List.length_cons] at hle
    omega
  · rcases cases_of_append_eq hrun with ⟨back, rfl, rfl⟩ | ⟨s, rfl, -⟩
    · exact ⟨front, back, rfl, rfl, rfl⟩
    · simp only [List.length_append] at hlt
      omega

/-- A line goes away when it is blank, is not the last one, and the flag or the look ahead says
so. -/
theorem isRemoved_around : IsRemoved (above ++ line :: below) above.length ↔
    below ≠ [] ∧ line.isBlank = true ∧ (opensAbove above || closesNext below) = true := by
  constructor
  · rintro ⟨before, run, after, heq, hrun, hnext, hle, hlt⟩
    obtain ⟨front, back, rfl, rfl, rfl⟩ := exists_of_mem_run heq hle hlt
    have hblank := hrun.blank
    rw [List.forall_mem_append, List.forall_mem_cons] at hblank
    obtain ⟨hfront, hline, hback⟩ := hblank
    have hafter : after ≠ [] := by
      obtain ⟨next, rest, rfl, -⟩ := hrun.below
      exact List.cons_ne_nil next rest
    rw [opensAbove_append hfront, closesNext_append_of_blank hback hafter]
    exact ⟨by simp [hafter], hline, hrun.isNextToGuard_iff.1 hnext⟩
  · rintro ⟨hne, hline, hguard⟩
    obtain ⟨before, front, rfl, hfront, habove⟩ := exists_above above
    obtain ⟨back, after, rfl, hback, hbelow⟩ := exists_below hne
    have hrun : IsRun before (front ++ line :: back) after :=
      ⟨by simp, List.forall_mem_append.2 ⟨hfront, List.forall_mem_cons.2 ⟨hline, hback⟩⟩, habove,
        hbelow⟩
    have hafter : after ≠ [] := by
      obtain ⟨next, rest, rfl, -⟩ := hbelow
      exact List.cons_ne_nil next rest
    rw [opensAbove_append hfront, closesNext_append_of_blank hback hafter] at hguard
    refine ⟨before, front ++ line :: back, after, by simp, hrun, hrun.isNextToGuard_iff.2 hguard,
      ?_, ?_⟩ <;> simp only [List.length_append, List.length_cons] <;> omega

theorem lt_of_isRemoved {i : Nat} (h : IsRemoved ls i) : i + 1 < ls.length := by
  obtain ⟨before, run, after, rfl, hrun, -, -, hlt⟩ := h
  obtain ⟨next, rest, rfl, -⟩ := hrun.below
  simp only [List.length_append, List.length_cons]
  omega

theorem isRemoved_iff {i : Nat} : IsRemoved ls i ↔ i + 1 < ls.length ∧
    (lineAt ls i).isBlank = true ∧
      (opensAbove (ls.take i) || closesNext (ls.drop (i + 1))) = true := by
  by_cases hi : i < ls.length
  · obtain ⟨above, below, hls, rfl⟩ := exists_around hi
    generalize lineAt ls above.length = line at hls ⊢
    rw [hls, isRemoved_around, List.take_left, drop_around]
    cases below <;> simp
  · exact ⟨fun h => absurd (lt_of_isRemoved h) (by omega), fun h => absurd h.1 (by omega)⟩

instance (ls : List Line) (i : Nat) : Decidable (IsRemoved ls i) :=
  decidable_of_iff _ isRemoved_iff.symm

/-! ## The lines that stay -/

/-- What is done behind other lines: the lines that do not go away, by their numbers. -/
theorem collapseFrom_opensAbove (above ls : List Line) :
    collapseFrom (opensAbove above) ls =
      ((List.range' above.length ls.length).filter fun i => ¬ IsRemoved (above ++ ls) i).map
        (lineAt (above ++ ls)) := by
  induction ls generalizing above with
  | nil => rfl
  | cons line rest ih =>
      have hrest := ih (above ++ [line])
      rw [List.length_append, List.length_singleton, ← List.append_cons, opensAbove_concat]
        at hrest
      rw [List.length_cons, List.range'_succ]
      by_cases hremoved : IsRemoved (above ++ line :: rest) above.length
      · obtain ⟨hne, hblank, hguard⟩ := isRemoved_around.1 hremoved
        rw [List.filter_cons_of_neg (by simpa using hremoved), ← hrest, if_pos hblank,
          collapseFrom_cons_of_blank hne hblank hguard]
      · have hstays : collapseFrom (opensAbove above) (line :: rest) = line ::
            collapseFrom (if line.isBlank then opensAbove above else hasOpening line) rest := by
          rw [isRemoved_around] at hremoved
          by_cases hne : rest = []
          · rw [hne]
            rfl
          · have hkept : (line.isBlank && (opensAbove above || closesNext rest)) = false := by
              rw [← Bool.not_eq_true, Bool.and_eq_true]
              exact fun h => hremoved ⟨hne, h⟩
            rw [collapseFrom_cons hne hkept]
            split
            · rename_i hblank
              -- the flag is down where a blank line stays
              rw [hblank, Bool.true_and, Bool.or_eq_false_iff] at hkept
              rw [hkept.1, not_hasOpening_of_isBlank hblank]
            · rfl
        rw [List.filter_cons_of_pos (by simpa using hremoved), List.map_cons, lineAt_length,
          hstays, hrest]

theorem collapse_eq (ls : List Line) : collapse ls =
    ((List.range ls.length).filter fun i => ¬ IsRemoved ls i).map (lineAt ls) := by
  rw [List.range_eq_range']
  exact collapseFrom_opensAbove [] ls

/-- A run between an opening and a closing, one that no guard stands next to, and a last line of
white space. -/
example :
    let ls := ["\x7b\x7b- if .Values.crd.enable \x7d\x7d", "", " ", "\x7b\x7b- end \x7d\x7d",
      "", "kind: A", "", " "].map String.toList
    ((List.range ls.length).filter fun i => IsRemoved ls i) = [1, 2] := by
  decide +kernel

end BlankRuns

namespace Pass

def blankLines : Pass :=
  .ofText "collapse-blank-lines" .all fun _ text => text.overLines BlankRuns.collapse

theorem blankLines_mem_all : blankLines ∈ all := by
  simp [blankLines, all]

/-- The pass over blank lines drops the lines of the longest runs of blank lines next to guards and
keeps all others, in their order. A second run of the pass changes nothing. -/
theorem blank_runs_removed (context : PassContext) (t : Text) :
    ∃ out, blankLines.run context t = .ok out ∧
      out.lines = ((List.range t.lines.length).filter fun i =>
        ¬ BlankRuns.IsRemoved t.lines i).map (lineAt t.lines) ∧
      blankLines.run context out = .ok out := by
  have hout : (t.overLines BlankRuns.collapse).lines = BlankRuns.collapse t.lines :=
    lines_overLines (BlankRuns.areLines_collapse (areLines_lines t))
  refine ⟨t.overLines BlankRuns.collapse, rfl, ?_, ?_⟩
  · rw [hout, BlankRuns.collapse_eq]
  · have hagain : (t.overLines BlankRuns.collapse).overLines BlankRuns.collapse =
        t.overLines BlankRuns.collapse := by
      apply overLines_eq_self
      rw [hout, BlankRuns.collapse_collapse]
    exact congrArg Except.ok hagain

end Pass

end OperatorChart
