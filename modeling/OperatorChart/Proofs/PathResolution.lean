import OperatorChart.FileTree
import OperatorChart.Proofs.LineOperations
/-!
# Where a path leads

A path without links leads to a place that can be read off it: two dots take away a name, and
every other name is added. A path stays below the directory that it is read from if none of its
prefixes goes above it. Main statement: a path behind another one is read from where that one
leads.
-/

namespace OperatorChart.Path

open Text

/-! ## Moves -/

/-- The steps of a path that lead elsewhere. -/
def moves (path : Text) : List PathStep :=
  (steps path).filter (· ≠ .stay)

/-- The place that steps lead to from `here`; at the root, two dots stay there. -/
def land : Location → List PathStep → Location
  | here, [] => here
  | here, .stay :: rest => land here rest
  | here, .parent :: rest => land here.dropLast rest
  | here, .enter name :: rest => land (here ++ [name]) rest

/-- The place that steps lead to from `here`, if none of them goes above the start. -/
def descend : Location → List PathStep → Option Location
  | here, [] => some here
  | here, .stay :: rest => descend here rest
  | [], .parent :: _ => none
  | name :: here, .parent :: rest => descend (name :: here).dropLast rest
  | here, .enter name :: rest => descend (here ++ [name]) rest

/-- Whether a path is relative and never goes above the directory that it is read from. -/
def StaysInside (path : Text) : Prop :=
  isAbsolute path = false ∧ (descend [] (moves path)).isSome

/-- Whether a path is relative, goes into `name` first and never goes above that directory. -/
def StaysUnder (name path : Text) : Prop :=
  isAbsolute path = false ∧
    ∃ rest, moves path = .enter name :: rest ∧ (descend [] rest).isSome

theorem land_append (here : Location) (ms ms' : List PathStep) :
    land here (ms ++ ms') = land (land here ms) ms' := by
  induction ms generalizing here with
  | nil => rfl
  | cons step rest ih => cases step <;> exact ih _

theorem land_steps (here : Location) (path : Text) : land here (steps path) =
    land here (moves path) := by
  unfold moves
  generalize steps path = ms
  induction ms generalizing here with
  | nil => rfl
  | cons step rest ih =>
      cases step with
      | stay => exact ih here
      | parent => exact ih here.dropLast
      | enter name => exact ih (here ++ [name])

theorem descend_append (here : Location) (ms ms' : List PathStep) :
    descend here (ms ++ ms') = (descend here ms).bind (descend · ms') := by
  induction ms generalizing here with
  | nil => rfl
  | cons step rest ih =>
      cases step with
      | stay => exact ih here
      | parent =>
          cases here with
          | nil => rfl
          | cons name here => exact ih _
      | enter name => exact ih (here ++ [name])

theorem land_of_descend {here place : Location} {ms : List PathStep} (base : Location)
    (h : descend here ms = some place) : land (base ++ here) ms = base ++ place := by
  induction ms generalizing here with
  | nil =>
      rw [descend, Option.some.injEq] at h
      rw [land, h]
  | cons step rest ih =>
      cases step with
      | stay => exact ih h
      | parent =>
          cases here with
          | nil => cases h
          | cons name here =>
              rw [land, List.dropLast_append_of_ne_nil (List.cons_ne_nil name here)]
              exact ih h
      | enter name =>
          rw [land, List.append_assoc]
          exact ih h

/-! ## A path behind another one -/

theorem moves_separator (s t : Text) : moves (s ++ '/' :: t) = moves s ++ moves t := by
  rw [moves, steps, pieces_append_separator, List.map_append, List.filter_append]
  rfl

theorem moves_append {path : Text} (base : Text) (h : isAbsolute path = false) :
    moves (append base path) = moves base ++ moves path := by
  rw [append, if_neg (by simp [h])]
  by_cases hempty : base = []
  · rw [hempty]
    rfl
  · by_cases hslash : base.getLast? = some '/'
    · obtain ⟨front, rfl⟩ := List.getLast?_eq_some_iff.1 hslash
      rw [if_pos (by simp), List.append_assoc, List.singleton_append, moves_separator,
        moves_separator]
      simp [moves, steps, pieces, PathStep.ofSegment]
    · rw [if_neg (by simp [hempty, hslash]), moves_separator]

theorem append_ne_nil {base : Text} (h : base ≠ []) (path : Text) : append base path ≠ [] := by
  unfold append
  split
  · rename_i hpath
    rintro rfl
    exact absurd hpath (by decide)
  · split
    · exact List.append_ne_nil_of_left_ne_nil h path
    · exact List.append_ne_nil_of_left_ne_nil h _

theorem append_nil {path : Text} (h : isAbsolute path = false) : append [] path = path := by
  rw [append, if_neg (by simp [h])]
  rfl

theorem isAbsolute_append {base path : Text} (hbase : base ≠ []) (h : isAbsolute path = false) :
    isAbsolute (append base path) = isAbsolute base := by
  obtain ⟨c, base, rfl⟩ := List.exists_cons_of_ne_nil hbase
  rw [append, if_neg (by simp [h])]
  split <;> rfl

theorem append_absolute {path : Text} (base : Text) (h : isAbsolute path = true) :
    append base path = path :=
  if_pos h

theorem moves_of_not_mem {segment : Text} (h : '/' ∉ segment) (hname : segment ≠ [])
    (hdot : segment ≠ ['.']) (hdots : segment ≠ ['.', '.']) : moves segment = [.enter segment] := by
  rw [moves, steps, pieces_eq_singleton h, List.map_singleton, PathStep.ofSegment,
    if_neg (by simp [hname, hdot]), if_neg hdots]
  rfl

end OperatorChart.Path
