import OperatorChart.Proofs.BlankRuns
import OperatorChart.Proofs.NamingShape
/-!
# Guards that are in place

A guard around a whole document is recognised by the first line, one around an injection
annotation by the line above. Neither the substitutions of names nor the removal of blank runs
takes these lines away, so on the final text nothing is left to guard.
-/

namespace OperatorChart

open Text

namespace Condition

variable {condition : Condition} {line : Line}

theorem opening_ne_nil (condition : Condition) : condition.opening ≠ [] := by
  cases condition <;> decide

theorem not_mem_opening {c : Char} (hc : IsLineEnd c) (condition : Condition) :
    c ∉ condition.opening := by
  cases condition <;> exact hc.not_mem (by decide) (by decide)

theorem not_mem_newline_opening (condition : Condition) : '\n' ∉ condition.opening :=
  condition.not_mem_opening (.inl rfl)

theorem not_mem_guard {c : Char} (hc : IsLineEnd c) (condition : Condition) (line : Line)
    {body : List Line} (hbody : ∀ l ∈ body, c ∉ l) :
    ∀ l ∈ condition.guard line.leading body, c ∉ l := by
  have hclose : c ∉ Directive.close.render := hc.not_mem (by decide) (by decide)
  have hleading := line.not_mem_leading hc
  rw [guard, List.forall_mem_cons, List.forall_mem_append, List.forall_mem_singleton]
  refine ⟨?_, hbody, ?_⟩
  · exact List.mem_append.not.2 (not_or.2 ⟨hleading, condition.not_mem_opening hc⟩)
  · exact List.mem_append.not.2 (not_or.2 ⟨hleading, hclose⟩)

theorem trimmed_opening (condition : Condition) : Line.trimmed condition.opening =
    condition.opening := by
  cases condition <;> decide

theorem trimmed_leading_opening (line : Line) (condition : Condition) :
    Line.trimmed (line.leading ++ condition.opening) = condition.opening := by
  rw [Line.trimmed, trim, trimStart_append line.isWhite_leading]
  exact trimmed_opening condition

theorem isOpenedBy_some : condition.isOpenedBy (some line) = true ↔
    line.trimmed = condition.opening := by
  simp [isOpenedBy]

theorem not_isBlank_of_isOpenedBy (h : condition.isOpenedBy (some line) = true) :
    line.isBlank = false := by
  rw [Line.isBlank, isOpenedBy_some.1 h, List.isEmpty_eq_false_iff]
  exact opening_ne_nil condition

end Condition

namespace Wrap

/-! ## Documents -/

section Document

variable {condition : Condition} {t : Text}

theorem guardDocument_of_firstLine (h : (firstLine t).trimmed = condition.opening) :
    guardDocument condition t = t := by
  rw [guardDocument, if_pos]
  simp [h]

theorem guardDocument_of_isBlank (h : t.isBlank = true) : guardDocument condition t = t := by
  rw [guardDocument, if_pos]
  simp [h]

theorem firstLine_of_lines {line : Line} {rest : List Line} (h : lines t = line :: rest) :
    firstLine t = line := by
  have hhead := head_lines t
  rw [h] at hhead
  exact (Option.some.inj hhead).symm

theorem lines_enclosed (condition : Condition) (t : Text) :
    lines (condition.opening ++ '\n' :: (ensureNewline t ++ Directive.close.render ++ ['\n'])) =
      condition.guard [] (lines (ensureNewline t)).dropLast ++ [[]] := by
  obtain ⟨inner, hnewline, -⟩ := exists_ensureNewline t
  have hclose : lines (Directive.close.render ++ ['\n']) = [Directive.close.render, []] :=
    lines_append_newline Directive.close.render [] (by decide)
  have hbody : lines (inner ++ '\n' :: (Directive.close.render ++ ['\n'])) =
      lines inner ++ lines (Directive.close.render ++ ['\n']) :=
    pieces_append_separator '\n' inner _
  rw [lines_append_newline _ _ condition.not_mem_newline_opening, hnewline, List.append_assoc,
    List.append_assoc, List.singleton_append, hbody, hclose, lines_append_singleton,
    List.dropLast_concat]
  simp [Condition.guard]

theorem lines_around (condition : Condition) (t : Text) :
    ∃ inner, (t = inner ++ ['\n'] ∨ t = inner) ∧
      lines (condition.opening ++
          '\n' :: (ensureNewline t ++ Directive.close.render ++ ['\n'])) =
        condition.guard [] (lines inner) ++ [[]] := by
  obtain ⟨inner, hnewline, hinner⟩ := exists_ensureNewline t
  refine ⟨inner, hinner, ?_⟩
  rw [lines_enclosed, hnewline, lines_append_singleton, List.dropLast_concat]

theorem lines_guardDocument (condition : Condition) (t : Text) :
    guardDocument condition t = t ∨ ∃ inner, (t = inner ++ ['\n'] ∨ t = inner) ∧
      lines (guardDocument condition t) = condition.guard [] (lines inner) ++ [[]] := by
  unfold guardDocument
  split
  · exact .inl rfl
  · exact .inr (lines_around condition t)

/-- A document under a guard is blank or opens the guard in its first line. -/
theorem firstLine_guardDocument (condition : Condition) (t : Text) :
    (t.isBlank = true ∧ guardDocument condition t = t) ∨
      (firstLine (guardDocument condition t)).trimmed = condition.opening := by
  by_cases hblank : t.isBlank = true
  · exact .inl ⟨hblank, guardDocument_of_isBlank hblank⟩
  · right
    by_cases hfirst : (firstLine t).trimmed = condition.opening
    · rwa [guardDocument_of_firstLine hfirst]
    · have hwrapped := lines_append_newline condition.opening
        (ensureNewline t ++ Directive.close.render ++ ['\n']) condition.not_mem_newline_opening
      rw [guardDocument, if_neg (by simp [hblank, hfirst]), firstLine_of_lines hwrapped,
        Condition.trimmed_opening]

end Document

/-! ## Injection annotations -/

/-- Whether every injection annotation has its guard, given the line above the lines. -/
def AllGuarded : Option Line → List Line → Prop
  | _, [] => True
  | previous, line :: rest => isBareInjection previous line = false ∧ AllGuarded (some line) rest

theorem guardInjections_eq_self {previous : Option Line} {ls : List Line}
    (h : AllGuarded previous ls) : guardInjections previous ls = ls := by
  induction ls generalizing previous with
  | nil => rfl
  | cons line rest ih =>
      obtain ⟨hline, hrest⟩ := h
      rw [guardInjections, hline, ih hrest]
      rfl

theorem isBareInjection_eq_false_iff {previous : Option Line} {line : Line} :
    isBareInjection previous line = false ↔
      (0 < line.indent → line.hasKey injectionKey = true →
        Condition.certManager.isOpenedBy previous = true) := by
  simp [isBareInjection]

theorem not_isBareInjection_of_imp {previous previous' : Option Line} {line : Line}
    (hprevious : Condition.certManager.isOpenedBy previous = true →
      Condition.certManager.isOpenedBy previous' = true)
    (h : isBareInjection previous line = false) : isBareInjection previous' line = false := by
  rw [isBareInjection_eq_false_iff] at h ⊢
  exact fun hindent hkey => hprevious (h hindent hkey)

theorem not_hasKey_of_isOpenedBy {condition : Condition} {line : Line}
    (h : condition.isOpenedBy (some line) = true) (key : Text) : line.hasKey key = false := by
  apply Line.not_hasKey_of_not_mem
  rw [Condition.isOpenedBy_some.1 h]
  cases condition <;> decide

theorem not_hasKey_close (line : Line) (key : Text) :
    Line.hasKey (line.leading ++ Directive.close.render) key = false := by
  apply Line.not_hasKey_of_not_mem
  rw [Line.trimmed, trim, trimStart_append line.isWhite_leading]
  decide

theorem not_isBareInjection {previous : Option Line} {line : Line}
    (h : line.hasKey injectionKey = false) : isBareInjection previous line = false := by
  simp [isBareInjection, h]

theorem allGuarded_guardInjections {previous previous' : Option Line} {ls : List Line}
    (hprevious : Condition.certManager.isOpenedBy previous = true →
      Condition.certManager.isOpenedBy previous' = true) :
    AllGuarded previous' (guardInjections previous ls) := by
  induction ls generalizing previous previous' with
  | nil => exact trivial
  | cons line rest ih =>
      rw [guardInjections]
      by_cases hbare : isBareInjection previous line = true
      · have hkey : line.hasKey injectionKey = true := by
          simp only [isBareInjection, Bool.and_eq_true] at hbare
          exact hbare.1.2
        have hopening : Condition.certManager.isOpenedBy
            (some (line.leading ++ Condition.certManager.opening)) = true :=
          Condition.isOpenedBy_some.2 (Condition.trimmed_leading_opening line _)
        have hrest : AllGuarded (some (line.leading ++ Directive.close.render))
            (guardInjections (some line) rest) := by
          apply ih
          intro h
          rw [not_hasKey_of_isOpenedBy h injectionKey] at hkey
          exact Bool.noConfusion hkey
        rw [if_pos hbare]
        exact ⟨not_isBareInjection (not_hasKey_of_isOpenedBy hopening injectionKey),
          isBareInjection_eq_false_iff.2 fun _ _ => hopening,
          not_isBareInjection (not_hasKey_close line injectionKey), hrest⟩
      · rw [if_neg hbare]
        rw [Bool.not_eq_true, isBareInjection_eq_false_iff] at hbare
        exact ⟨isBareInjection_eq_false_iff.2 fun hindent hkey =>
          hprevious (hbare hindent hkey), ih id⟩

theorem AllGuarded.map {f : Line → Line} {previous previous' : Option Line} {ls : List Line}
    (hopening : ∀ line ∈ ls, Condition.certManager.isOpenedBy (some line) = true →
      f line = line)
    (hkey : ∀ line ∈ ls, (f line).hasKey injectionKey = true →
      line.hasKey injectionKey = true ∧ (f line).indent = line.indent)
    (hprevious : Condition.certManager.isOpenedBy previous = true →
      Condition.certManager.isOpenedBy previous' = true)
    (h : AllGuarded previous ls) : AllGuarded previous' (ls.map f) := by
  induction ls generalizing previous previous' with
  | nil => exact trivial
  | cons line rest ih =>
      obtain ⟨hline, hrest⟩ := h
      rw [isBareInjection_eq_false_iff] at hline
      refine ⟨isBareInjection_eq_false_iff.2 fun hindent hhas => ?_, ?_⟩
      · obtain ⟨hhas, heq⟩ := hkey line List.mem_cons_self hhas
        exact hprevious (hline (heq ▸ hindent) hhas)
      · apply ih (fun x hx => hopening x (List.mem_cons_of_mem line hx))
          (fun x hx => hkey x (List.mem_cons_of_mem line hx)) _ hrest
        intro hopened
        rwa [hopening line List.mem_cons_self hopened]

theorem AllGuarded.collapseFrom {opened : Bool} {previous previous' : Option Line}
    {ls : List Line} (hprevious : Condition.certManager.isOpenedBy previous = true →
      Condition.certManager.isOpenedBy previous' = true)
    (h : AllGuarded previous ls) : AllGuarded previous' (BlankRuns.collapseFrom opened ls) := by
  fun_induction BlankRuns.collapseFrom opened ls generalizing previous previous' with
  | case1 => exact trivial
  | case2 opened line => exact ⟨not_isBareInjection_of_imp hprevious h.1, trivial⟩
  | case3 opened line next rest hdrop ih =>
      have hblank : line.isBlank = true := (Bool.and_eq_true _ _ ▸ hdrop).1
      refine ih (fun hopened => ?_) h.2
      rw [Condition.not_isBlank_of_isOpenedBy hopened] at hblank
      exact Bool.noConfusion hblank
  | case4 opened line next rest _ ih =>
      exact ⟨not_isBareInjection_of_imp hprevious h.1, ih id h.2⟩

theorem not_mem_trimmed {c : Char} {line : Line} (h : c ∉ line) : c ∉ line.trimmed := by
  intro hmem
  obtain ⟨s, s', -, -, heq⟩ := exists_trim line
  rw [heq] at h
  exact h (List.mem_append_left s' (List.mem_append_right s hmem))

theorem not_mem_guardInjections {c : Char} (hc : IsLineEnd c) (previous : Option Line)
    {ls : List Line} (hls : ∀ line ∈ ls, c ∉ line) :
    ∀ line ∈ guardInjections previous ls, c ∉ line := by
  induction ls generalizing previous with
  | nil => simp [guardInjections]
  | cons line rest ih =>
      obtain ⟨hline, hrest⟩ := List.forall_mem_cons.1 hls
      rw [guardInjections, List.forall_mem_append]
      refine ⟨?_, ih (some line) hrest⟩
      split
      · apply Condition.not_mem_guard hc
        rw [List.forall_mem_singleton, List.mem_append, not_or]
        exact ⟨line.not_mem_leading hc, not_mem_trimmed hline⟩
      · exact List.forall_mem_singleton.2 hline

theorem areLines_guardInjections {ls : List Line} (h : AreLines ls) :
    AreLines (guardInjections none ls) := by
  refine ⟨?_, not_mem_guardInjections (.inl rfl) none h.unbroken⟩
  obtain ⟨line, rest, rfl⟩ := List.exists_cons_of_ne_nil h.ne_nil
  rw [guardInjections]
  split <;> simp [Condition.guard]

/-! ## After the other passes -/

/-- What the passes behind the wrapping make of a text. -/
def settle (project : Text) (resource : Resource) (text : Text) : Text :=
  (Naming.fill project resource text).overLines BlankRuns.collapse

section Settle

variable {project : Text} {resource : Resource} {t : Text}

theorem lines_settle (hsolid : ∀ c ∈ project, Unicode.isWhiteSpace c = false)
    (hname : '\n' ∉ resource.name) (t : Text) : lines (settle project resource t) =
      BlankRuns.collapse ((lines t).map (Naming.fill project resource)) := by
  have hfill := Naming.isLinewise_fill hsolid hname t
  rw [settle, lines_overLines, hfill]
  exact BlankRuns.areLines_collapse (areLines_lines _)

theorem not_infix_of_isBlank {line needle : Text} (h : line.isBlank = true)
    (hneedle : '{' ∈ needle) : hasInfix needle line = false := by
  rw [hasInfix_eq_false_iff]
  intro hocc
  exact absurd (isBlank_iff.1 h '{' (hocc.mem hneedle)) (by decide)

theorem settle_of_isBlank (h : Naming.IsPlainProject project) (hname : '\n' ∉ resource.name)
    (hblank : t.isBlank = true) : settle project resource t = t := by
  have hlines : ∀ line ∈ lines t, line.isBlank = true := fun line hline =>
    isBlank_iff.2 fun c hc => isBlank_iff.1 hblank c (mem_of_mem_piece hline hc)
  apply lines_injective
  rw [lines_settle h.solid hname, List.map_congr_left (g := id), List.map_id]
  · exact BlankRuns.collapse_eq_self_of_blank
      (fun line hline => not_infix_of_isBlank (hlines line hline) (by decide))
      (fun line hline => not_infix_of_isBlank (hlines line hline) (by decide))
  · intro line hline
    exact Naming.fill_of_isBlank h.solid hname ((areLines_lines t).unbroken line hline)
      (hlines line hline)

theorem firstLine_settle (h : Naming.IsPlainProject project) (hname : '\n' ∉ resource.name)
    {condition : Condition} (hopening : (firstLine t).trimmed = condition.opening) :
    firstLine (settle project resource t) = firstLine t := by
  obtain ⟨line, rest, hlines⟩ := List.exists_cons_of_ne_nil (lines_ne_nil t)
  have hunbroken := (areLines_lines t).unbroken line (by simp [hlines])
  have hfirst : firstLine t = line := firstLine_of_lines hlines
  rw [hfirst] at hopening ⊢
  have hblank := Condition.not_isBlank_of_isOpenedBy (Condition.isOpenedBy_some.2 hopening)
  obtain ⟨rest', hrest⟩ := BlankRuns.collapseFrom_of_not_isBlank false hblank
    (rest.map (Naming.fill project resource))
  have hsettled := lines_settle h.solid hname t
  rw [hlines, List.map_cons, Naming.fill_of_opening h.solid hname hunbroken hopening,
    BlankRuns.collapse, hrest] at hsettled
  exact firstLine_of_lines hsettled

theorem exists_rule_of_action {wrap : WrapAction} (hwrap : wrap ≠ .keep)
    (h : action resource = wrap) :
    ∃ rule ∈ rules, rule.applies resource = true ∧ rule.action = wrap := by
  subst h
  unfold action at hwrap ⊢
  cases hfind : rules.find? (·.applies resource) with
  | none => exact absurd (by rw [hfind]; rfl) hwrap
  | some rule =>
      have happlies := List.find?_some hfind
      exact ⟨rule, List.mem_of_find?_eq_some hfind, happlies, rfl⟩

theorem isOneOf_webhook_of_action (h : action resource = .guardInjection) :
    resource.isOneOf ResourceKind.webhookConfiguration = true := by
  obtain ⟨rule, hmem, happlies, haction⟩ := exists_rule_of_action (by decide) h
  simp only [rules, List.mem_cons, List.not_mem_nil, or_false] at hmem
  rcases hmem with rfl | rfl | rfl | rfl | rfl | rfl | rfl | rfl | rfl | rfl | rfl | rfl
  all_goals first | exact happlies | cases haction

theorem action_eq_drop_iff : action resource = .drop ↔
    resource.isKind .namespaceObject = true := by
  constructor
  · intro h
    obtain ⟨rule, hmem, happlies, haction⟩ := exists_rule_of_action (by decide) h
    simp only [rules, List.mem_cons, List.not_mem_nil, or_false] at hmem
    rcases hmem with rfl | rfl | rfl | rfl | rfl | rfl | rfl | rfl | rfl | rfl | rfl | rfl
    all_goals first | exact happlies | cases haction
  · intro h
    simp only [action, rules, List.find?_cons, h]
    rfl

theorem fillKind_of_action (h : action resource = .guardInjection) (t : Text) :
    Naming.fillKind project resource t = t := by
  have hkind := isOneOf_webhook_of_action h
  simp only [Resource.isOneOf, ResourceKind.webhookConfiguration, List.any_cons, List.any_nil,
    Bool.or_false, Bool.or_eq_true, Resource.isKind, beq_iff_eq] at hkind
  rcases hkind with hkind | hkind
  all_goals
    rw [Naming.fillKind, Resource.isKind, Resource.isKind, Resource.isKind, hkind]
    rfl

theorem isPlainKey_injectionKey : Line.IsPlainKey injectionKey :=
  ⟨by decide, by decide, by decide⟩

theorem injection_of_injection_fill (h : Naming.IsPlainProject project)
    (hname : '\n' ∉ resource.name) (haction : action resource = .guardInjection) {line : Line}
    (hline : '\n' ∉ line)
    (hkey : Line.hasKey (Naming.fill project resource line) injectionKey = true) :
    line.hasKey injectionKey = true ∧
      Line.indent (Naming.fill project resource line) = line.indent := by
  have hne : injectionKey ≠ Naming.managedByKey := by decide
  rw [Naming.fill_line h.solid hname hline, fillKind_of_action haction] at hkey ⊢
  have hmanaged := Naming.fillManagedByLine_of_hasKey hne hkey
  rw [hmanaged] at hkey ⊢
  exact Naming.hasKey_of_hasKey_fillNamespace h isPlainKey_injectionKey (by decide) hkey

/-- Behind all passes, nothing is left to wrap. -/
theorem apply_settle (h : Naming.IsPlainProject project) (hname : '\n' ∉ resource.name)
    (hdrop : action resource ≠ .drop) : apply resource (settle project resource
      (apply resource t)) = settle project resource (apply resource t) := by
  cases haction : action resource with
  | drop => exact absurd haction hdrop
  | keep => simp only [apply, haction]
  | guard condition =>
      simp only [apply, haction]
      rcases firstLine_guardDocument condition t with ⟨hblank, heq⟩ | hfirst
      · rw [heq, settle_of_isBlank h hname hblank, heq]
      · apply guardDocument_of_firstLine
        rwa [firstLine_settle h hname hfirst]
  | guardInjection =>
      simp only [apply, haction]
      have hlines := areLines_guardInjections (areLines_lines t)
      apply overLines_eq_self
      rw [lines_settle h.solid hname, lines_overLines hlines]
      apply guardInjections_eq_self
      apply AllGuarded.collapseFrom id
      refine AllGuarded.map (fun line hline hopened => ?_) (fun line hline hkey => ?_) id
        (allGuarded_guardInjections id)
      · exact Naming.fill_of_opening h.solid hname (hlines.unbroken line hline)
          (Condition.isOpenedBy_some.1 hopened)
      · exact injection_of_injection_fill h hname haction (hlines.unbroken line hline) hkey

end Settle

end Wrap

end OperatorChart
