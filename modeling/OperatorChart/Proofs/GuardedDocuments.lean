import Mathlib.Data.List.DropRight
import OperatorChart.Proofs.DocumentRuns
import OperatorChart.Proofs.GuardNesting
/-!
# Documents under a guard

The guard of a whole resource is put around a document before its names are substituted, and the
blank lines next to it go last. Main statement: the template is the guard around the document with
its names substituted and without blank lines at its start and its end.
-/

namespace OperatorChart

open Text

/-! ## Blank lines inside a guard -/

namespace BlankRuns

/-- The lines without the blank ones at the start and at the end. -/
def strip (ls : List Line) : List Line :=
  (ls.dropWhile Line.isBlank).rdropWhile Line.isBlank

section Strip

variable {ls rest : List Line} {line close : Line}

theorem rdropWhile_of_blank (h : ∀ line ∈ ls, line.isBlank = true) :
    ls.rdropWhile Line.isBlank = [] :=
  List.rdropWhile_eq_nil_iff.2 h

theorem rdropWhile_cons (h : (line.isBlank && rest.all Line.isBlank) = false) :
    (line :: rest).rdropWhile Line.isBlank = line :: rest.rdropWhile Line.isBlank := by
  rw [List.rdropWhile, List.rdropWhile, List.reverse_cons, List.dropWhile_append]
  split
  · rename_i hempty
    have hall : ∀ l ∈ rest, l.isBlank = true := by
      rw [List.isEmpty_iff, List.dropWhile_eq_nil_iff] at hempty
      exact fun l hl => hempty l (List.mem_reverse.2 hl)
    rw [List.all_eq_true.2 hall, Bool.and_true] at h
    rw [List.dropWhile_cons_of_neg (by simp [h]), List.isEmpty_iff.1 hempty]
    rfl
  · rw [List.reverse_append]
    rfl

theorem strip_cons_of_blank (h : line.isBlank = true) : strip (line :: rest) = strip rest := by
  rw [strip, List.dropWhile_cons_of_pos h, strip]

theorem strip_cons_of_solid (h : line.isBlank = false) :
    strip (line :: rest) = line :: rest.rdropWhile Line.isBlank := by
  rw [strip, List.dropWhile_cons_of_neg (by simp [h]), rdropWhile_cons (by rw [h]; rfl)]

theorem strip_append_blank (h : line.isBlank = true) (ls : List Line) :
    strip (ls ++ [line]) = strip ls := by
  rw [strip, strip, List.dropWhile_append]
  split
  · rename_i hempty
    rw [List.isEmpty_iff.1 hempty, List.dropWhile_cons_of_pos h]
    rfl
  · exact List.rdropWhile_concat_pos _ _ _ h

theorem strip_ne_nil (h : ∃ line ∈ ls, line.isBlank = false) : strip ls ≠ [] := by
  obtain ⟨solid, hmem, hsolid⟩ := h
  induction ls with
  | nil => cases hmem
  | cons line rest ih =>
      cases hblank : line.isBlank with
      | true =>
          rw [strip_cons_of_blank hblank]
          refine ih ((List.mem_cons.1 hmem).resolve_left ?_)
          rintro rfl
          rw [hsolid] at hblank
          cases hblank
      | false =>
          rw [strip_cons_of_solid hblank]
          exact List.cons_ne_nil _ _

theorem closesNext_append (hls : ∀ line ∈ ls, hasClosing line = false)
    (hclose : hasClosing close = true) (hsolid : close.isBlank = false) :
    closesNext (ls ++ [close, []]) = ls.all Line.isBlank := by
  induction ls with
  | nil => rw [List.nil_append, closesNext_cons (List.cons_ne_nil _ _), hsolid, hclose]; rfl
  | cons line rest ih =>
      rw [List.forall_mem_cons] at hls
      rw [List.cons_append, closesNext_cons (by simp), ih hls.2, hls.1, List.all_cons]
      cases line.isBlank <;> rfl

/-- Behind a line that opens no guard, blank lines go away in front of the closing line only. -/
theorem collapseFrom_false_append (hclosing : ∀ line ∈ ls, hasClosing line = false)
    (hopening : ∀ line ∈ ls, hasOpening line = false) (hclose : hasClosing close = true)
    (hsolid : close.isBlank = false) :
    collapseFrom false (ls ++ [close, []]) = ls.rdropWhile Line.isBlank ++ [close, []] := by
  induction ls with
  | nil =>
      rw [List.nil_append, collapseFrom, hsolid]
      rfl
  | cons line rest ih =>
      rw [List.forall_mem_cons] at hclosing hopening
      have hcloses := closesNext_append hclosing.2 hclose hsolid
      have hrest := ih hclosing.2 hopening.2
      cases hblank : line.isBlank && rest.all Line.isBlank with
      | true =>
          obtain ⟨hline, hall⟩ := Bool.and_eq_true_iff.1 hblank
          have hblanks : ∀ l ∈ rest, l.isBlank = true := List.all_eq_true.1 hall
          rw [List.cons_append,
            collapseFrom_cons_of_blank (by simp) hline (by rw [hcloses, hall]; rfl),
            hrest, rdropWhile_of_blank hblanks,
            rdropWhile_of_blank (List.forall_mem_cons.2 ⟨hline, hblanks⟩)]
      | false =>
          rw [List.cons_append,
            collapseFrom_cons (by simp) (by rw [hcloses, Bool.false_or, hblank]),
            hopening.1, hrest, rdropWhile_cons hblank]
          rfl

theorem collapseFrom_true_append (hclosing : ∀ line ∈ ls, hasClosing line = false)
    (hopening : ∀ line ∈ ls, hasOpening line = false) (hclose : hasClosing close = true)
    (hsolid : close.isBlank = false) :
    collapseFrom true (ls ++ [close, []]) = strip ls ++ [close, []] := by
  induction ls with
  | nil =>
      rw [List.nil_append, collapseFrom, hsolid]
      rfl
  | cons line rest ih =>
      rw [List.forall_mem_cons] at hclosing hopening
      cases hblank : line.isBlank with
      | true =>
          rw [List.cons_append, collapseFrom_cons_of_blank (by simp) hblank rfl,
            ih hclosing.2 hopening.2, strip_cons_of_blank hblank]
      | false =>
          rw [List.cons_append, collapseFrom_cons (by simp) (by rw [hblank]; rfl), hopening.1,
            collapseFrom_false_append hclosing.2 hopening.2 hclose hsolid,
            strip_cons_of_solid hblank]
          rfl

end Strip

end BlankRuns

/-! ## The substitutions of names as passes -/

def Pass.naming : List Pass :=
  (all.drop 1).take 5

namespace Templater

open Naming

variable {project t : Text} {resource : Resource}

theorem runAll_naming (project : Text) (resource : Resource) (t : Text) :
    Pass.runAll ⟨resource, project⟩ (Pass.naming.filter (·.scope.includes resource)) t =
      .ok (fill project resource t) := by
  have hrun := runAll_fill project resource [] t
  rwa [List.append_nil] at hrun

/-! ## The guard around a document -/

theorem isPlain_of_mem_fill (hsolid : ∀ c ∈ project, Unicode.isWhiteSpace c = false)
    (resource : Resource) (ht : ∀ line ∈ lines t, line.IsPlain) :
    ∀ line ∈ lines (fill project resource t), line.IsPlain := by
  have hnamespace := keepsLines_fillNamespace hsolid fun line h => .inl (ht line h)
  have hkind := keepsLines_fillKind hsolid resource hnamespace.guarded
  have hmanaged := keepsLines_fillManagedBy hkind.guarded
  exact hmanaged.isPlain (hkind.isPlain (hnamespace.isPlain ht))

theorem fill_close (hsolid : ∀ c ∈ project, Unicode.isWhiteSpace c = false)
    (hname : '\n' ∉ resource.name) :
    fill project resource Directive.close.render = Directive.close.render := by
  have hmarks : ∀ mark ∈ marks, hasInfix mark Directive.close.render = false := by decide
  exact fill_eq_self hsolid hname (by decide) fun mark hmark =>
    hasInfix_eq_false_iff.1 (hmarks mark hmark)

theorem guardDocument_of_plain (condition : Condition) (ht : ¬ "\x7b\x7b".toList <:+: t)
    (hsolid : t.isBlank = false) : Wrap.guardDocument condition t = condition.opening ++
      '\n' :: (ensureNewline t ++ Directive.close.render ++ ['\n']) := by
  rw [Wrap.guardDocument, if_neg]
  rw [hsolid, Bool.false_or, beq_iff_eq]
  intro hopening
  have hbraces : "\x7b\x7b".toList <:+: condition.opening := by
    cases condition <;> exact ⟨[], _, rfl⟩
  have hfirst : (firstLine t).trimmed <:+: t :=
    (Line.trimmed_infix _).trans (List.takeWhile_prefix _).isInfix
  exact ht ((hopening ▸ hbraces).trans hfirst)

theorem lines_settle_around (hsolid : ∀ c ∈ project, Unicode.isWhiteSpace c = false)
    (hname : '\n' ∉ resource.name) (condition : Condition) (ht : ¬ "\x7b\x7b".toList <:+: t) :
    lines (Wrap.settle project resource (condition.opening ++
        '\n' :: (ensureNewline t ++ Directive.close.render ++ ['\n']))) =
      condition.opening :: (BlankRuns.strip (lines (fill project resource t)) ++
        [Directive.close.render, []]) := by
  obtain ⟨inner, hinner, haround⟩ := Wrap.lines_around condition t
  have hlinewise : IsLinewise (fill project resource) := isLinewise_fill hsolid hname
  have hopening : fill project resource condition.opening = condition.opening :=
    fill_of_opening hsolid hname condition.not_mem_newline_opening condition.trimmed_opening
  have hnil : fill project resource [] = [] := fill_of_isBlank hsolid hname (by simp) rfl
  have hstrip : BlankRuns.strip (lines (fill project resource t)) =
      BlankRuns.strip (lines (fill project resource inner)) := by
    rcases hinner with rfl | rfl
    · rw [hlinewise, lines_append_singleton, List.map_append, ← hlinewise, List.map_singleton,
        hnil, BlankRuns.strip_append_blank rfl]
    · rfl
  have hplain : ∀ line ∈ lines (fill project resource inner), line.IsPlain := by
    apply isPlain_of_mem_fill hsolid
    intro line hline
    refine isPlain_of_mem_lines (fun hocc => ht (hocc.trans ?_)) hline
    rcases hinner with rfl | rfl
    · exact (List.prefix_append inner ['\n']).isInfix
    · exact List.infix_rfl
  have hnone : ∀ w, "\x7b\x7b-".toList <:+: w → ∀ line ∈ lines (fill project resource inner),
      hasInfix w line = false := fun w hw line hline =>
    hasInfix_eq_false_iff.2 fun hocc => hplain line hline (hw.trans hocc)
  rw [Wrap.lines_settle hsolid hname, haround, Condition.guard]
  simp only [List.nil_append, List.cons_append, List.map_cons, List.map_append, List.map_nil,
    hopening, fill_close hsolid hname, hnil, ← hlinewise inner, List.append_assoc]
  have hsolidOpening : condition.opening.isBlank = false :=
    Line.not_isBlank_of_not_isIdle (condition.not_isIdle_opening [])
  have hopens : BlankRuns.hasOpening condition.opening = true := by cases condition <;> rfl
  rw [BlankRuns.collapse,
    BlankRuns.collapseFrom_cons (by simp) (by rw [hsolidOpening, Bool.false_and]), hopens,
    BlankRuns.collapseFrom_true_append (hnone _ (by decide)) (hnone _ (by decide)) (by decide)
      (by decide), hstrip]

/-! ## The template of a guarded resource -/

theorem ofLines_around {first last : Line} {body : List Line} (h : body ≠ []) :
    ofLines (first :: (body ++ [last, []])) =
      first ++ '\n' :: (ofLines body ++ ['\n'] ++ last ++ ['\n']) := by
  have hends : body ++ [last, []] = (body ++ [last]) ++ [[]] := by simp
  rw [ofLines, join_cons _ _ (by simp), hends, join_append_singleton _ (by simp),
    join_append_singleton _ h, List.append_assoc (ofLines body)]
  rfl

/-- A resource under the guard of a condition is rendered as the guard around its document with
the names substituted and the blank lines at its start and its end removed. -/
theorem apply_of_guard (hsolid : ∀ c ∈ project, Unicode.isWhiteSpace c = false)
    {condition : Condition} (haction : Wrap.action resource = .guard condition)
    (hname : '\n' ∉ resource.name) (ht : ¬ "\x7b\x7b".toList <:+: t) (hblank : t.isBlank = false) :
    ∃ renamed, Pass.runAll ⟨resource, project⟩ (Pass.naming.filter (·.scope.includes resource)) t =
        .ok renamed ∧
      apply ⟨project⟩ resource t = .ok (condition.opening ++
        '\n' :: (ofLines (BlankRuns.strip (lines renamed)) ++ ['\n'] ++
          "\x7b\x7b- end \x7d\x7d".toList ++ ['\n'])) := by
  refine ⟨fill project resource t, runAll_naming project resource t, ?_⟩
  have hdeployment : resource.isKind .deployment = false := by
    cases hkind : resource.isKind .deployment with
    | false => rfl
    | true => cases (Wrap.action_of_deployment hkind).symm.trans haction
  have hstrip : BlankRuns.strip (lines (fill project resource t)) ≠ [] :=
    BlankRuns.strip_ne_nil ((keepsDocument_fill hsolid resource t).solid
      (Text.isBlank_eq_false_iff.1 hblank))
  have hwrap : Wrap.apply resource t = condition.opening ++
      '\n' :: (ensureNewline t ++ Directive.close.render ++ ['\n']) := by
    rw [Wrap.apply, haction]
    exact guardDocument_of_plain condition ht hblank
  rw [apply_eq_settle hdeployment, hwrap, ← ofLines_lines (Wrap.settle _ _ _),
    lines_settle_around hsolid hname condition ht, ofLines_around hstrip]
  rfl

/-- A certificate without a final line break, with blank lines around and inside of it. -/
theorem apply_of_guard_certificate :
    apply ⟨"demo".toList⟩
      ⟨"Certificate".toList, "cert-manager.io/v1".toList, "serving-cert".toList, []⟩
      " \nkind: Certificate\n\n  namespace: demo-system\n  ".toList =
    .ok ("\x7b\x7b- if .Values.certManager.enable \x7d\x7d\nkind: Certificate\n\n".toList ++
      "  namespace: \x7b\x7b .Release.Namespace \x7d\x7d\n\x7b\x7b- end \x7d\x7d\n".toList) := by
  have hsolid : ∀ c ∈ "demo".toList, Unicode.isWhiteSpace c = false := by decide
  have haction : Wrap.action ⟨"Certificate".toList, "cert-manager.io/v1".toList,
      "serving-cert".toList, []⟩ = .guard .certManager := by decide
  have hplain : ¬ "\x7b\x7b".toList <:+:
      " \nkind: Certificate\n\n  namespace: demo-system\n  ".toList :=
    hasInfix_eq_false_iff.1 (by decide)
  obtain ⟨renamed, hnames, happly⟩ := apply_of_guard hsolid haction (by decide) hplain (by decide)
  obtain rfl : _ = renamed := Except.ok.inj hnames
  exact happly

end Templater

end OperatorChart
