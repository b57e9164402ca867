import OperatorChart.Proofs.Plans
import OperatorChart.Proofs.Targets
/-!
# Rejected runs

A run is rejected while it makes its plan, and a plan is made without leaving a trace. Main
statement: a rejected run leaves the workspace as it was, nothing that is left of a plan ends in a
rejection, and neither does writing the templates of a plan with their paths looked up again.
-/

namespace OperatorChart

open OperatorChart.Path

/-- A failure rejects a run exactly when the exit code tells of the manifest or of the project's
configuration. -/
theorem Failure.isRejection_iff (failure : Failure) :
    failure.isRejection = true ↔ failure.exitCode = 2 ∨ failure.exitCode = 3 := by
  cases failure <;> simp [isRejection, exitCode, isConfigError, isInputError]

/-! ## Effects -/

/-- Whether an effect that fails does so for another reason than a rejection. -/
def Effect.NeverRejects : Effect → Prop
  | .makeDirectories _ otherwise => otherwise.isRejection = false
  | .writeFile _ _ => True
  | .print _ => True

theorem Target.neverRejects_of_mem_effects {directory : Text} {target : Target} {effect : Effect}
    (h : effect ∈ target.effects directory) : effect.NeverRejects := by
  simp only [effects, List.mem_cons, List.not_mem_nil, or_false] at h
  rcases h with rfl | rfl | rfl
  · rfl
  · trivial
  · trivial

theorem neverRejects_of_effectsFor {templates : List Template} {directory : Option Text}
    {effects : List Effect} (h : effectsFor templates directory = .ok effects) :
    ∀ effect ∈ effects, effect.NeverRejects := by
  cases directory with
  | none =>
      cases h
      exact List.forall_mem_singleton.2 trivial
  | some directory =>
      obtain ⟨targets, -, rfl⟩ := exists_of_effectsFor h
      refine List.forall_mem_cons.2 ⟨rfl, fun effect heffect => ?_⟩
      obtain ⟨target, -, hmem⟩ := List.mem_flatMap.1 heffect
      exact Target.neverRejects_of_mem_effects hmem

namespace Workspace

variable {workspace : Workspace} {effects : List Effect} {failure : Failure}

/-- Effects one after another fail for the reason of one of them. -/
theorem not_rejected_of_performAll (h : ∀ effect ∈ effects, effect.NeverRejects)
    (hfault : (Effect.performAll host effects workspace).1 = some failure) :
    failure.isRejection = false := by
  induction effects generalizing workspace with
  | nil => cases hfault
  | cons effect rest ih =>
      rw [List.forall_mem_cons] at h
      cases effect with
      | makeDirectories path otherwise =>
          rw [performAll_makeDirectories] at hfault
          split at hfault
          · exact ih h.2 hfault
          · cases hfault
            exact h.1
      | writeFile path text =>
          rw [performAll_writeFile] at hfault
          split at hfault
          · exact ih h.2 hfault
          · cases hfault
            rfl
      | print text => exact ih h.2 hfault

theorem neverRejects_of_prepare {invocation : Invocation} {plan : Plan}
    (h : (invocation.prepare host workspace).1 = .ok plan) :
    ∀ effect ∈ plan.effects, effect.NeverRejects := by
  obtain ⟨_, _, _, -, -, -, heffects, -⟩ := exists_of_prepare h
  exact neverRejects_of_effectsFor heffects

/-! ## Runs -/

/-- A run that is rejected, with an exit code of a bad manifest or a bad configuration, has changed
no file and printed nothing. Whatever is left of a plan at some point, it is not rejected any more
in whatever state; nor are the templates of a plan when they are written as they come and each path
is looked up a second time, which does what the plan does. -/
theorem rejected_leaves_no_trace (workspace : Workspace) (invocation : Invocation) :
    (∀ failure, (workspace.run invocation).1 = .error failure →
        (failure.exitCode = 2 ∨ failure.exitCode = 3) →
        (workspace.run invocation).2 = workspace) ∧
      (∀ plan, (invocation.prepare host workspace).1 = .ok plan →
        ∀ rest, rest <:+ plan.effects → ∀ state failure,
          (Effect.performAll host rest state).1 = some failure →
          ¬ (failure.exitCode = 2 ∨ failure.exitCode = 3)) ∧
      ∀ templates targets, targetsOf templates = .ok targets → ∀ directory state,
        Effect.performAll host (targets.flatMap (Target.effects directory)) state =
            Template.writeAll host directory templates state ∧
          ∀ failure, (Template.writeAll host directory templates state).1 = some failure →
            ¬ (failure.exitCode = 2 ∨ failure.exitCode = 3) := by
  simp only [← Failure.isRejection_iff, Bool.not_eq_true]
  refine ⟨?_, ?_, ?_⟩
  · intro failure hrun hrejected
    rw [run_eq] at hrun ⊢
    cases hplan : (invocation.prepare host workspace).1 with
    | error => rfl
    | ok plan =>
        rw [hplan] at hrun
        dsimp only at hrun
        split at hrun
        · rename_i fault hfault
          cases hrun
          rw [not_rejected_of_performAll (neverRejects_of_prepare hplan) hfault] at hrejected
          cases hrejected
        · cases hrun
  · intro plan hplan rest hrest state failure hfault
    exact not_rejected_of_performAll
      (fun effect heffect => neverRejects_of_prepare hplan effect (hrest.mem heffect)) hfault
  · intro templates targets htargets directory state
    have heq := congrFun (Template.writeAll_eq host directory (forall₂_isOf_targetsFrom htargets))
      state
    rw [heq]
    refine ⟨rfl, fun failure hfault => not_rejected_of_performAll (fun effect heffect => ?_) hfault⟩
    obtain ⟨target, -, hmem⟩ := List.mem_flatMap.1 heffect
    exact Target.neverRejects_of_mem_effects hmem

/-- Two services of one name, behind a secret that could be written. -/
theorem rejected_leaves_no_trace_duplicate : ∃ (workspace : Workspace) (invocation : Invocation),
    (workspace.run invocation).1 =
        .error (.target (.duplicate ⟨"service".toList, "v1".toList, "b".toList, []⟩)) ∧
      (workspace.run invocation).2 = workspace := by
  have hrun : (run ⟨FileTree.empty, [], .text
          ("apiVersion: v1\nkind: Secret\nmetadata:\n  name: a\n---\n".toList ++
            "apiVersion: v1\nkind: Service\nmetadata:\n  name: b\n---\n".toList ++
            "apiVersion: v1\nkind: service\nmetadata:\n  name: b\n".toList), "before".toList⟩
        ⟨['-'], some "demo".toList, none, some "out".toList⟩).1 =
      .error (.target (.duplicate ⟨"service".toList, "v1".toList, "b".toList, []⟩)) := by
    decide +kernel
  exact ⟨_, _, hrun, (rejected_leaves_no_trace _ _).1 _ hrun (.inl rfl)⟩

end Workspace

end OperatorChart
