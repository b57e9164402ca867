import Mathlib.Data.List.Forall2
import OperatorChart.Proofs.Runs
import OperatorChart.Run
/-!
# Targets of templates

The path of every template is looked up, and compared with the paths before it, before the first
file is written. Main statements: the targets are those of the templates in order, no two of them
with one reading, and writing them is the same as writing the templates as they come, with the path
of each one looked up again.
-/

namespace OperatorChart

open OperatorChart.Path

structure Target.IsOf (target : Target) (template : Template) : Prop where
  path : template.resource.targetPath = .ok target.path
  text : target.text = template.text

variable {templates : List Template} {targets : List Target}

theorem exists_of_targetsFrom {seen : List (Bool × List PathStep)} {template : Template}
    (h : targetsFrom seen (template :: templates) = .ok targets) : ∃ path rest,
      template.resource.targetPath = .ok path ∧ reading path ∉ seen ∧
      targetsFrom (reading path :: seen) templates = .ok rest ∧
      targets = ⟨path, template.text⟩ :: rest := by
  rw [targetsFrom] at h
  obtain ⟨path, hpath, h⟩ := exists_of_bind h
  split at h
  · cases h
  · rename_i hseen
    obtain ⟨rest, hrest, h⟩ := exists_of_bind h
    cases h
    exact ⟨path, rest, hpath, by simpa using hseen, hrest, rfl⟩

theorem forall₂_isOf_targetsFrom {seen : List (Bool × List PathStep)}
    (h : targetsFrom seen templates = .ok targets) :
    List.Forall₂ (fun template target => target.IsOf template) templates targets := by
  induction templates generalizing seen targets with
  | nil =>
      cases h
      exact .nil
  | cons template templates ih =>
      obtain ⟨path, rest, hpath, -, hrest, rfl⟩ := exists_of_targetsFrom h
      exact .cons ⟨hpath, rfl⟩ (ih hrest)

theorem pairwise_reading_targetsFrom {seen : List (Bool × List PathStep)}
    (h : targetsFrom seen templates = .ok targets) :
    targets.Pairwise (fun target target' => reading target.path ≠ reading target'.path) ∧
      ∀ target ∈ targets, reading target.path ∉ seen := by
  induction templates generalizing seen targets with
  | nil =>
      cases h
      exact ⟨.nil, by simp⟩
  | cons template templates ih =>
      obtain ⟨path, rest, -, hseen, hrest, rfl⟩ := exists_of_targetsFrom h
      obtain ⟨hpairwise, hfresh⟩ := ih hrest
      refine ⟨.cons (fun target htarget heq => ?_) hpairwise,
        List.forall_mem_cons.2 ⟨hseen, fun target htarget hmem => ?_⟩⟩
      · exact hfresh target htarget (heq ▸ List.mem_cons_self)
      · exact hfresh target htarget (List.mem_cons_of_mem _ hmem)

/-! ## Writing templates as they come -/

section Writing

variable {m : Type → Type} [Monad m]

/-- Writes templates into a chart's directory one after another, each time with the path of the
template looked up; answers why it failed. -/
def Template.writeAll (host : Host m) (directory : Text) : List Template → m (Option Failure)
  | [] => pure none
  | template :: rest =>
    match template.resource.targetPath with
    | .error error => pure (some (.target error))
    | .ok path => do
      match ← Effect.performAll host (Target.effects directory ⟨path, template.text⟩) with
      | some failure => return some failure
      | none => writeAll host directory rest

variable [LawfulMonad m]

theorem Effect.performAll_append (host : Host m) (effects effects' : List Effect) :
    performAll host (effects ++ effects') = (do
      match ← performAll host effects with
      | some failure => return some failure
      | none => performAll host effects') := by
  induction effects with
  | nil => simp [performAll]
  | cons effect rest ih =>
      cases effect with
      | makeDirectories path otherwise =>
          simp only [List.cons_append, performAll, bind_assoc, ih]
          refine bind_congr fun made => ?_
          cases made <;> simp
      | writeFile path text =>
          simp only [List.cons_append, performAll, bind_assoc, ih]
          refine bind_congr fun written => ?_
          cases written <;> simp
      | print text => simp only [List.cons_append, performAll, bind_assoc, ih]

theorem Template.writeAll_eq (host : Host m) (directory : Text)
    (h : List.Forall₂ (fun template target => Target.IsOf target template) templates targets) :
    writeAll host directory templates =
      Effect.performAll host (targets.flatMap (Target.effects directory)) := by
  induction h with
  | nil => rfl
  | @cons template target templates targets htarget _ ih =>
      rw [writeAll, htarget.path, ← htarget.text, List.flatMap_cons, Effect.performAll_append, ← ih]

end Writing

end OperatorChart
