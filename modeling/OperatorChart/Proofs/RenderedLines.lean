import OperatorChart.Proofs.DocumentLines
import OperatorChart.Proofs.GuardedDocuments
/-!
# The lines of a template

Most resources are kept or guarded as a whole, so the lines of their templates are those of the
manifest: in their order, each with its names substituted, and up to blank lines. Main statement:
templating of such a resource succeeds and renders every line as the substitutions of names do.
-/

namespace OperatorChart

open Text

/-! ## Lines that are not blank -/

def solidLines (ls : List Line) : List Line :=
  ls.filter fun line => !line.isBlank

theorem solidLines_append (ls ls' : List Line) :
    solidLines (ls ++ ls') = solidLines ls ++ solidLines ls' :=
  List.filter_append ls ls'

theorem solidLines_cons (line : Line) (rest : List Line) :
    solidLines (line :: rest) =
      if line.isBlank then solidLines rest else line :: solidLines rest := by
  rw [solidLines, List.filter_cons]
  cases line.isBlank <;> rfl

theorem solidLines_map {f : Line → Line} {ls : List Line}
    (h : ∀ line ∈ ls, (f line).isBlank = line.isBlank) :
    solidLines (ls.map f) = (solidLines ls).map f := by
  rw [solidLines, List.filter_map, solidLines]
  exact congrArg (List.map f) (List.filter_congr fun line hline => congrArg (!·) (h line hline))

theorem BlankRuns.solidLines_collapse (ls : List Line) :
    solidLines (collapse ls) = solidLines ls := by
  unfold collapse
  generalize false = opened
  fun_induction collapseFrom opened ls with
  | case1 => rfl
  | case2 => rfl
  | case3 opened line next rest h ih =>
      have hblank : line.isBlank = true := (Bool.and_eq_true _ _ ▸ h).1
      rw [ih, solidLines_cons line, if_pos hblank]
  | case4 opened line next rest _ ih => rw [solidLines_cons line, ih, solidLines_cons line]

/-! ## Guards of whole documents -/

/-- Lines as they are, or in a guard that is not indented. -/
inductive IsEnclosed (body : List Line) : List Line → Prop
  | bare : IsEnclosed body body
  | guarded (condition : Condition) : IsEnclosed body (condition.guard [] body)

theorem IsEnclosed.map {f : Line → Line} {body ls : List Line}
    (hopening : ∀ condition : Condition, f condition.opening = condition.opening)
    (hclose : f Directive.close.render = Directive.close.render) (h : IsEnclosed body ls) :
    IsEnclosed (body.map f) (ls.map f) := by
  cases h with
  | bare => exact .bare
  | guarded condition =>
      have hguard : (condition.guard [] body).map f = condition.guard [] (body.map f) := by
        simp [Condition.guard, hopening, hclose]
      rw [hguard]
      exact .guarded condition

theorem IsEnclosed.body_unique {body body' ls : List Line} (h : IsEnclosed body ls)
    (h' : IsEnclosed body' ls) (hlength : body.length = body'.length) : body = body' := by
  cases h with
  | bare =>
      cases h' with
      | bare => rfl
      | guarded condition =>
          simp only [Condition.guard, List.length_cons, List.length_append] at hlength
          omega
  | guarded condition =>
      generalize hls : condition.guard [] body = ls at h'
      cases h' with
      | bare =>
          rw [← hls] at hlength
          simp only [Condition.guard, List.length_cons, List.length_append] at hlength
          omega
      | guarded condition' =>
          simp only [Condition.guard, List.cons.injEq] at hls
          exact List.append_cancel_right hls.2

namespace Wrap

variable {resource : Resource}

theorem solidLines_guard (condition : Condition) (ls : List Line) :
    solidLines (condition.guard [] ls) = condition.guard [] (solidLines ls) := by
  have hopening : condition.opening.isBlank = false := by cases condition <;> rfl
  have hclose : Line.isBlank Directive.close.render = false := rfl
  simp [Condition.guard, solidLines, hopening, hclose]

theorem isEnclosed_guardDocument (condition : Condition) (t : Text) :
    IsEnclosed (solidLines (lines t)) (solidLines (lines (guardDocument condition t))) := by
  rcases lines_guardDocument condition t with hsame | ⟨inner, hinner, hlines⟩
  · rw [hsame]
    exact .bare
  · have hbody : solidLines (lines t) = solidLines (lines inner) := by
      rcases hinner with rfl | rfl
      · rw [lines_append_singleton, solidLines_append]
        exact List.append_nil _
      · rfl
    have hguard : solidLines (lines (guardDocument condition t)) =
        condition.guard [] (solidLines (lines inner)) := by
      rw [hlines, solidLines_append, solidLines_guard]
      exact List.append_nil _
    rw [hbody, hguard]
    exact .guarded condition

/-- Kinds whose documents change by more than a guard around them and the names in each of their
lines. -/
def rewrittenKinds : List ResourceKind :=
  [.namespaceObject, .deployment, .serviceMonitor] ++ ResourceKind.webhookConfiguration

theorem not_isKind_of_not_rewritten (h : resource.isOneOf rewrittenKinds = false)
    {kind : ResourceKind} (hkind : kind ∈ rewrittenKinds) : resource.isKind kind = false := by
  rw [Resource.isOneOf, List.any_eq_false] at h
  simpa using h kind hkind

theorem isEnclosed_apply (h : resource.isOneOf rewrittenKinds = false) (t : Text) :
    IsEnclosed (solidLines (lines t)) (solidLines (lines (apply resource t))) := by
  unfold apply
  cases haction : action resource with
  | drop =>
      rw [action_eq_drop_iff, not_isKind_of_not_rewritten h (by decide)] at haction
      cases haction
  | guard condition => exact isEnclosed_guardDocument condition t
  | guardInjection =>
      obtain ⟨kind, hmem, hkind⟩ := List.any_eq_true.1 (isOneOf_webhook_of_action haction)
      rw [not_isKind_of_not_rewritten h (List.mem_append_right _ hmem)] at hkind
      cases hkind
  | keep => exact .bare

end Wrap

/-! ## Substitutions -/

namespace Naming

variable {project : Text} {resource : Resource} {line : Line}

/-- Of the name of a resource that is no monitor, the substitutions only ask whether it mentions
metrics. -/
theorem exists_fill_eq (project : Text) (hmonitor : resource.isKind .serviceMonitor = false) :
    ∃ plain : Resource, '\n' ∉ plain.name ∧ fillKind project plain = fillKind project resource ∧
      fill project plain = fill project resource := by
  have hnamed : ∀ name : Text, Text.hasInfix "metrics".toList name = resource.isForMetrics →
      fillKind project { resource with name } = fillKind project resource := by
    intro name hname
    have hmetrics : Resource.isForMetrics { resource with name } = resource.isForMetrics := hname
    have hkind : ∀ kind, Resource.isKind { resource with name } kind = resource.isKind kind :=
      fun _ => rfl
    funext t
    simp only [fillKind, fillCertificate, hmetrics, hkind, hmonitor, Bool.false_eq_true, if_false]
  obtain ⟨name, hbreak, hname⟩ : ∃ name : Text, '\n' ∉ name ∧
      Text.hasInfix "metrics".toList name = resource.isForMetrics := by
    cases resource.isForMetrics with
    | true => exact ⟨"metrics".toList, by decide, rfl⟩
    | false => exact ⟨[], by decide, rfl⟩
  have hkind := hnamed name hname
  exact ⟨_, hbreak, hkind, funext fun t => by rw [fill, hkind, fill]⟩

theorem isSubstitution_fillKind (project : Text)
    (hmonitor : resource.isKind .serviceMonitor = false) :
    IsSubstitution project (fillKind project resource) :=
  (isSubstitution_fillKind_or project resource).resolve_right fun h => by
    rw [hmonitor] at h
    cases h.1

section Plain

variable (hsolid : ∀ c ∈ project, Unicode.isWhiteSpace c = false)
  (hmonitor : resource.isKind .serviceMonitor = false)

include hsolid hmonitor

theorem isLinewise_fill_of_not_monitor : IsLinewise (fill project resource) := by
  obtain ⟨plain, hname, -, hfill⟩ := exists_fill_eq project hmonitor
  rw [← hfill]
  exact isLinewise_fill hsolid hname

theorem fill_line_of_not_monitor (hline : '\n' ∉ line) : fill project resource line =
    fillManagedByLine (fillKind project resource (fillNamespace project line)) := by
  obtain ⟨plain, hname, hkind, hfill⟩ := exists_fill_eq project hmonitor
  rw [← hfill, ← hkind]
  exact fill_line hsolid hname hline

theorem fill_guard (condition : Condition) :
    fill project resource condition.opening = condition.opening ∧
      fill project resource Directive.close.render = Directive.close.render := by
  obtain ⟨plain, hname, -, hfill⟩ := exists_fill_eq project hmonitor
  rw [← hfill]
  exact ⟨fill_of_opening hsolid hname condition.not_mem_newline_opening condition.trimmed_opening,
    Templater.fill_close hsolid hname⟩

theorem isBlank_fill (hline : '\n' ∉ line) :
    Line.isBlank (fill project resource line) = line.isBlank := by
  cases hblank : line.isBlank with
  | true =>
      obtain ⟨plain, hname, -, hfill⟩ := exists_fill_eq project hmonitor
      rw [← hfill, fill_of_isBlank hsolid hname hline hblank, hblank]
  | false =>
      rw [fill_line_of_not_monitor hsolid hmonitor hline]
      have hnames := ((isSubstitution_fillNamespace project).comp
        (isSubstitution_fillKind project hmonitor)).canReplace line
      exact (hnames.trans (canReplace_fillManagedByLine _)).solid hblank

end Plain

end Naming

/-! ## Templates -/

namespace Templater

variable {project : Text} {resource : Resource}

/-- Whether templating succeeds on a document and renders the lines that are not blank, in their
order, each as `f` says, bare or in the guard of the whole document. -/
def RendersLines (templater : Templater) (resource : Resource) (t : Text) (f : Line → Line) :
    Prop :=
  ∃ out, templater.apply resource t = .ok out ∧
    IsEnclosed ((solidLines (lines t)).map f) (solidLines (lines out))

/-- Whether templating succeeds on a document and renders a line of it as another one, wherever the
line stands. -/
def RendersLine (templater : Templater) (resource : Resource) (t : Text) (line line' : Line) :
    Prop :=
  line ∈ lines t ∧ ∃ f, RendersLines templater resource t f ∧ f line = line'

theorem RendersLine.unique {templater : Templater} {t : Text} {line line' line'' : Line}
    (hsolid : line.isBlank = false) (h : RendersLine templater resource t line line')
    (h' : RendersLine templater resource t line line'') : line' = line'' := by
  obtain ⟨hline, f, ⟨out, hout, hf⟩, rfl⟩ := h
  obtain ⟨-, g, ⟨out', hout', hg⟩, rfl⟩ := h'
  rw [hout, Except.ok.injEq] at hout'
  rw [← hout'] at hg
  have hmap := hf.body_unique hg (by rw [List.length_map, List.length_map])
  have hmem : line ∈ solidLines (lines t) := List.mem_filter.2 ⟨hline, by simp [hsolid]⟩
  exact List.map_inj_left.1 hmap line hmem

theorem rendersLines_fill (hsolid : ∀ c ∈ project, Unicode.isWhiteSpace c = false)
    (h : resource.isOneOf Wrap.rewrittenKinds = false) (t : Text) :
    RendersLines ⟨project⟩ resource t (Naming.fill project resource) := by
  have hmonitor : resource.isKind .serviceMonitor = false :=
    Wrap.not_isKind_of_not_rewritten h (by decide)
  have hlinewise := Naming.isLinewise_fill_of_not_monitor hsolid hmonitor
  refine ⟨_, apply_eq_settle (Wrap.not_isKind_of_not_rewritten h (by decide)) t, ?_⟩
  have hlines : solidLines (lines (Wrap.settle project resource (Wrap.apply resource t))) =
      (solidLines (lines (Wrap.apply resource t))).map (Naming.fill project resource) := by
    rw [Wrap.settle, lines_overLines (BlankRuns.areLines_collapse (areLines_lines _)),
      BlankRuns.solidLines_collapse, hlinewise]
    exact solidLines_map fun line hline =>
      Naming.isBlank_fill hsolid hmonitor ((areLines_lines _).unbroken line hline)
  rw [hlines]
  exact (Wrap.isEnclosed_apply h t).map
    (fun condition => (Naming.fill_guard hsolid hmonitor condition).1)
    (Naming.fill_guard hsolid hmonitor .crd).2

end Templater

end OperatorChart
