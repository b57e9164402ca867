import OperatorChart.Proofs.PodEdits
/-!
# Passes that do nothing to their own output

A pass over a key of a deployment looks the container, the key and its block up from scratch in
the text it is given. Main statement: in its own output it finds what it found before, with the
marker of its own output in the block, and so it leaves this output alone.
-/

namespace OperatorChart

open Text

namespace ManagerField

variable {field : ManagerField} {ls ls' : List Line}

/-- An edit of the manager does nothing to its own output. -/
theorem fill_fill (hls : AreIndented ls) (h : field.fill ls = .ok ls') :
    field.fill ls' = .ok ls' := by
  cases hmanager : Container.manager? ls with
  | none =>
      rw [fill_of_no_manager hmanager] at h
      obtain rfl := Except.ok.inj h
      exact fill_of_no_manager hmanager
  | some container =>
      obtain ⟨start, dash, inner, behind, hfinds, -⟩ := Container.exists_findsItem hmanager
      have hresult := hfinds.result_run field.isLawful_edit hls.indented
      obtain ⟨ls'', hfill, hls''⟩ := field.areIndented_fill hls
      obtain rfl := Except.ok.inj (h.symm.trans hfill)
      rw [fill_eq hfinds hls.indented] at h
      obtain rfl := Except.ok.inj h
      obtain ⟨dash', inner', heq, -, hcolumn, hfinds'⟩ :=
        hresult.findsItem hfinds field.isLawful_edit.managed
      rw [fill_eq hfinds' hls''.indented, hcolumn, heq, hresult.run_eq rfl]

end ManagerField

namespace Pass

def podSecurityContext : Pass :=
  ofEdit "pod-security-context" Values.fillPodSecurityContext

/-- The passes that look one key of a deployment up in the chart's values. -/
def fields : List Pass :=
  [ManagerField.env.pass, podSecurityContext, ManagerField.securityContext.pass,
    ManagerField.resources.pass, ManagerField.args.pass]

theorem mem_all_of_mem_fields {pass : Pass} (h : pass ∈ fields) : pass ∈ all := by
  simp only [fields, List.mem_cons, List.not_mem_nil, or_false] at h
  rcases h with rfl | rfl | rfl | rfl | rfl
  · exact ManagerField.env.pass_mem_all
  · simp [podSecurityContext, all]
  · exact ManagerField.securityContext.pass_mem_all
  · exact ManagerField.resources.pass_mem_all
  · exact ManagerField.args.pass_mem_all

theorem run_run_of_edit {pass : Pass} {context : PassContext} {t : Text}
    {f : List Line → Except EditError (List Line)}
    (hrun : ∀ t, pass.run context t = (f t.lines).map Text.ofLines)
    (hkeeps : ∃ ls, f t.lines = .ok ls ∧ AreIndented ls)
    (hsettles : ∀ ls, f t.lines = .ok ls → f ls = .ok ls) :
    ∃ out, pass.run context t = .ok out ∧ pass.run context out = .ok out := by
  obtain ⟨ls, hls, hindented⟩ := hkeeps
  refine ⟨Text.ofLines ls, by rw [hrun, hls]; rfl, ?_⟩
  rw [hrun, lines_ofLines hindented.toAreLines, hsettles ls hls]
  rfl

/-- On a text indented by spaces and tabs, each pass over a key of a deployment succeeds and leaves
its own output alone. -/
theorem run_run_of_mem_fields (context : PassContext) {t : Text} (ht : t.IsIndented) :
    ∀ pass ∈ fields, ∃ out, pass.run context t = .ok out ∧ pass.run context out = .ok out := by
  have hmanager : ∀ field : ManagerField, ∃ out,
      field.pass.run context t = .ok out ∧ field.pass.run context out = .ok out := fun field =>
    run_run_of_edit (field.run_pass context) (field.areIndented_fill ht.areIndented) fun _ =>
      ManagerField.fill_fill ht.areIndented
  simp only [fields, List.forall_mem_cons]
  refine ⟨hmanager .env, ?_, hmanager .securityContext, hmanager .resources, hmanager .args,
    by simp⟩
  exact run_run_of_edit (fun _ => rfl) (Values.indented_fillPodSecurityContext ht.areIndented)
    fun _ => Values.fillPodSecurityContext_fill ht.areIndented.indented

/-- A pod whose first container has a line with the name of the manager that belongs to no item, and
whose manager has arguments that are templated already, but no environment. -/
theorem run_run_of_mem_fields_pod :
    let context : PassContext := ⟨⟨"Deployment".toList, [], [], []⟩, "demo".toList⟩
    let t := Text.ofLines (["  containers:", "  - name: proxy", "    env:", "       name: manager",
      "  - args:", "    \x7b\x7b- range .Values.controllerManager.args \x7d\x7d",
      "    name: manager", "  securityContext: null", "  serviceAccountName: demo"].map
        String.toList)
    t.IsIndented ∧
      ∀ pass ∈ fields, ∃ out, pass.run context t = .ok out ∧ pass.run context out = .ok out := by
  intro context t
  have ht : t.IsIndented := by decide +kernel
  exact ⟨ht, run_run_of_mem_fields context ht⟩

end Pass

end OperatorChart
