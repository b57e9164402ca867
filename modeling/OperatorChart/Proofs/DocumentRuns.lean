import OperatorChart.Proofs.AddedLines
/-!
# Templates are documents

Templating makes a document of a document: its passes keep the final line break, write no
separator and never take the last line away that says something. So only a namespace, which the
chart does not render, comes out blank.
-/

namespace OperatorChart

open Text Manifest

/-! ## Guards of whole resources -/

namespace Wrap

variable {resource : Resource}

theorem keepsDocument_guardDocument (condition : Condition) (t : Text) :
    KeepsDocument (lines t) (lines (guardDocument condition t)) := by
  rcases lines_guardDocument condition t with hsame | ⟨inner, hinner, hlines⟩
  · rw [hsame]
    exact KeepsDocument.refl _
  · have hopening : isIdle condition.opening = false := condition.not_isIdle_opening []
    have hmem : condition.opening ∈ condition.guard [] (lines inner) ++ [[]] :=
      List.mem_cons_self
    rw [hlines]
    refine ⟨fun _ => List.getLast?_concat, fun hls => ?_, fun _ => ⟨_, hmem, hopening⟩,
      fun _ => ⟨_, hmem, Line.not_isBlank_of_not_isIdle hopening⟩⟩
    have hbody : ∀ line ∈ lines inner, isSeparator line = false := by
      rcases hinner with rfl | rfl
      · rw [lines_append_singleton, List.forall_mem_append] at hls
        exact hls.1
      · exact hls
    have hclose := (Condition.isAdded_close []).unseparated
    intro line hline
    simp only [Condition.guard, List.mem_append, List.mem_cons, List.not_mem_nil, or_false] at hline
    rcases hline with (rfl | hline | rfl) | rfl
    · exact (Condition.isAdded_opening [] condition).unseparated
    · exact hbody line hline
    · exact hclose
    · exact not_isSeparator_nil

theorem keepsDocument_guardInjections (previous : Option Line) (ls : List Line) :
    KeepsDocument ls (guardInjections previous ls) := by
  induction ls generalizing previous with
  | nil => exact KeepsDocument.refl []
  | cons line rest ih =>
      rw [guardInjections]
      suffices hline : KeepsDocument [line] (if isBareInjection previous line then
          Condition.certManager.guard line.leading [line.leading ++ line.trimmed] else [line]) by
        refine hline.append (ih (some line)) fun h => ?_
        rw [h]
        rfl
      split
      · rename_i hbare
        rw [isBareInjection, Bool.and_eq_true, Bool.and_eq_true, decide_eq_true_eq] at hbare
        have hopening := Condition.certManager.not_isIdle_opening line
        refine ⟨fun hlast => ?_, fun _ => ?_, fun _ => ⟨_, List.mem_cons_self, hopening⟩,
          fun _ => ⟨_, List.mem_cons_self, Line.not_isBlank_of_not_isIdle hopening⟩⟩
        · rw [List.getLast?_singleton, Option.some.injEq] at hlast
          rw [hlast] at hbare
          exact absurd hbare.1.1 (by decide)
        · have hindented : isSeparator (line.leading ++ line.trimmed) = false := by
            apply not_isSeparator_of_not_prefix
            intro hdashes
            obtain ⟨c, s, hs⟩ := List.exists_cons_of_length_pos hbare.1.1
            have hc : isIndentation c = true :=
              Line.isIndentation_of_mem_leading (hs ▸ List.mem_cons_self)
            rw [hs, List.cons_append] at hdashes
            rw [← (List.cons_prefix_cons.1 hdashes).1] at hc
            exact absurd hc (by decide)
          intro l hl
          simp only [Condition.guard, List.cons_append, List.nil_append, List.mem_cons,
            List.not_mem_nil, or_false] at hl
          rcases hl with rfl | rfl | rfl
          · exact (Condition.isAdded_opening line .certManager).unseparated
          · exact hindented
          · exact (Condition.isAdded_close line).unseparated
      · exact KeepsDocument.refl [line]

theorem keepsDocument_apply (h : action resource ≠ .drop) (t : Text) :
    KeepsDocument (lines t) (lines (apply resource t)) := by
  unfold apply
  split
  · rename_i hdrop
    exact absurd hdrop h
  · exact keepsDocument_guardDocument _ t
  · rw [lines_overLines (areLines_guardInjections (areLines_lines t))]
    exact keepsDocument_guardInjections none _
  · exact KeepsDocument.refl _

theorem keepsDocument_settle {project : Text}
    (hsolid : ∀ c ∈ project, Unicode.isWhiteSpace c = false) (resource : Resource) (t : Text) :
    KeepsDocument (lines t) (lines (settle project resource t)) := by
  rw [settle, lines_overLines (BlankRuns.areLines_collapse (areLines_lines _))]
  exact (Naming.keepsDocument_fill hsolid resource t).trans
    (BlankRuns.reworks_collapse _).toKeepsDocument

theorem settle_of_isNamespace (project : Text) (h : resource.isKind .namespaceObject = true) :
    settle project resource [] = [] := by
  have hkind : Naming.fillKind project resource [] = [] := by
    rw [Naming.fillKind, Templater.isKind_exclusive h .certificate (by decide),
      Templater.isKind_exclusive h .issuer (by decide),
      Templater.isKind_exclusive h .serviceMonitor (by decide)]
    rfl
  have hnamespace : Naming.fillNamespace project [] = [] := by
    unfold Naming.fillNamespace
    split <;> rfl
  rw [settle, Naming.fill, hnamespace, hkind]
  rfl

end Wrap

/-! ## Templating -/

namespace Templater

variable {project t out : Text} {resource : Resource}

/-- Templating makes a document of a document. -/
theorem keepsDocument_apply (hsolid : ∀ c ∈ project, Unicode.isWhiteSpace c = false)
    (hnamespace : resource.isKind .namespaceObject = false)
    (h : apply ⟨project⟩ resource t = .ok out) : KeepsDocument (lines t) (lines out) := by
  cases hkind : resource.isKind .deployment with
  | false =>
      have hdrop : Wrap.action resource ≠ .drop := by
        rw [Ne, Wrap.action_eq_drop_iff, hnamespace]
        exact Bool.false_ne_true
      rw [apply_eq_settle hkind, Except.ok.injEq] at h
      rw [← h]
      exact (Wrap.keepsDocument_apply hdrop t).trans (Wrap.keepsDocument_settle hsolid resource _)
  | true =>
      obtain ⟨ls, hls, rfl⟩ := (apply_deployment_eq_ok_iff hkind).1 h
      have hlines := Deployment.areLines_guardCertificates
        (Deployment.areLines_fillValues hls (areLines_lines _))
      have hnames := (Naming.keepsDocument_fillNamespace hsolid t).trans
        (Naming.keepsDocument_fillManagedBy _)
      have hedits := ((Deployment.reworks_fillValues hls).trans
        (Deployment.reworks_guardCertificates ls)).trans (BlankRuns.reworks_collapse _)
      rw [lines_ofLines (BlankRuns.areLines_collapse hlines)]
      exact hnames.trans hedits.toKeepsDocument

theorem isDocument_apply (hsolid : ∀ c ∈ project, Unicode.isWhiteSpace c = false)
    (hnamespace : resource.isKind .namespaceObject = false) (ht : IsDocument t)
    (h : apply ⟨project⟩ resource t = .ok out) : IsDocument out := by
  have hkeeps := keepsDocument_apply hsolid hnamespace h
  have hbusy := hkeeps.busy (hasContent_iff.1 ht.content)
  have hne : out ≠ [] := by
    rintro rfl
    obtain ⟨line, hline, hidle⟩ := hbusy
    rw [List.mem_singleton.1 hline] at hidle
    exact absurd hidle (by decide)
  obtain ⟨s, rfl⟩ := ht.exists_eq
  have hlast : (lines (s ++ ['\n'])).getLast? = some [] := by
    rw [lines_append_singleton]
    exact List.getLast?_concat
  obtain ⟨s', rfl⟩ := exists_of_getLast?_lines hne (hkeeps.last hlast)
  exact ⟨List.getLast?_concat, hkeeps.unseparated ht.unseparated, hasContent_iff.2 hbusy⟩

theorem isBlank_apply_iff (hsolid : ∀ c ∈ project, Unicode.isWhiteSpace c = false)
    (ht : t.isBlank = false) (h : apply ⟨project⟩ resource t = .ok out) :
    out.isBlank = true ↔ resource.isKind .namespaceObject = true := by
  cases hnamespace : resource.isKind .namespaceObject with
  | true =>
      have hkind := isKind_exclusive hnamespace .deployment (by decide)
      have haction := Wrap.action_eq_drop_iff.2 hnamespace
      rw [apply_eq_settle hkind, Wrap.apply, haction, Except.ok.injEq] at h
      rw [← h]
      simp only [Wrap.settle_of_isNamespace project hnamespace]
      decide
  | false =>
      have hsolidOut := isBlank_eq_false_iff.2
        ((keepsDocument_apply hsolid hnamespace h).solid (isBlank_eq_false_iff.1 ht))
      rw [hsolidOut]

end Templater

end OperatorChart
