import Mathlib.Algebra.Order.BigOperators.Group.List
import Mathlib.Algebra.Order.Ring.Nat
import OperatorChart.Proofs.IssuerOverlap
import OperatorChart.Proofs.Runs
/-!
# A second run of templating

For every resource other than a deployment, what a second run changes in a template is known
exactly: references to the issuer that came out of the replacement of other ones. Main
statement: no template of such a resource ever changes again if and only if no piece at the end
of the suffix of an issuer's name starts the project's name.
-/

namespace OperatorChart.Templater

open Text Naming

variable {project t : Text} {resource : Resource} {line : Line}

/-! ## Lines that change again -/

def braces (ls : List Line) : Nat :=
  (ls.map (·.count '{')).sum

theorem braces_collapseFrom (opened : Bool) (ls : List Line) :
    braces (BlankRuns.collapseFrom opened ls) = braces ls := by
  fun_induction BlankRuns.collapseFrom opened ls with
  | case1 => rfl
  | case2 => rfl
  | case3 opened line next rest h ih =>
      have hblank : line.isBlank = true := (Bool.and_eq_true _ _ ▸ h).1
      have hzero : line.count '{' = 0 := List.count_eq_zero_of_not_mem
        (not_mem_brace_of_isWhite (isBlank_iff.1 hblank))
      rw [ih, braces, braces, List.map_cons (a := line), List.sum_cons, hzero, Nat.zero_add]
  | case4 opened line next rest _ ih =>
      rw [braces, List.map_cons, List.sum_cons, ← braces, ih]
      rfl

theorem fillManagedByLine_fill (h : IsPlainProject project) (hname : '\n' ∉ resource.name)
    (hline : '\n' ∉ line) : fillManagedByLine (fill project resource line) =
      fill project resource line := by
  rw [fill_line h.solid hname hline, fillManagedByLine_idem]

/-- A line that has been through the substitutions either stays as it is or gains a brace. -/
theorem fill_fill_eq_or_count_lt (h : IsPlainProject project) (hname : '\n' ∉ resource.name)
    (hline : '\n' ∉ line) :
    (fill project resource (fill project resource line) = fill project resource line ∧
        (renamesIssuer resource = true →
          fillIssuer project (fill project resource line) = fill project resource line)) ∨
      (renamesIssuer resource = true ∧
        fillIssuer project (fill project resource line) ≠ fill project resource line ∧
        (fill project resource line).count '{' <
          (fill project resource (fill project resource line)).count '{') := by
  have hmanaged := fillManagedByLine_fill h hname hline
  rw [fill_fill h hname hline]
  by_cases hrenames : renamesIssuer resource = true
  · rw [if_pos hrenames]
    by_cases hissuer : fillIssuer project (fill project resource line) =
        fill project resource line
    · left
      rw [hissuer]
      exact ⟨hmanaged, fun _ => rfl⟩
    · right
      refine ⟨hrenames, hissuer, ?_⟩
      have hliteral := isLiteral_issuerLiteral h
      rw [fillIssuer_eq_self_iff h.solid, Classical.not_imp, not_not] at hissuer
      have hbrace : '{' ∈ chartName ++ issuerSuffix := by decide
      have hlt := count_lt_count_replaceAll hliteral.ne_nil hliteral.no_open hbrace hissuer.2
      have hfilled : fillIssuer project (fill project resource line) =
          replaceAll (fill project resource line) (issuerLiteral project)
            (chartName ++ issuerSuffix) := by
        rw [fillIssuer, if_neg (by simpa using hissuer.1)]
        rfl
      rw [← hfilled] at hlt
      exact lt_of_lt_of_le hlt (count_le_count_fillManagedByLine _)
  · left
    rw [if_neg hrenames]
    exact ⟨hmanaged, fun htrue => absurd htrue hrenames⟩

theorem exists_of_mem_settle (h : IsPlainProject project) (hname : '\n' ∉ resource.name)
    (hline : line ∈ lines (Wrap.settle project resource t)) :
    ∃ source, '\n' ∉ source ∧ line = fill project resource source := by
  rw [Wrap.lines_settle h.solid hname] at hline
  obtain ⟨source, hsource, rfl⟩ := List.mem_map.1 (BlankRuns.mem_of_mem_collapseFrom hline)
  exact ⟨source, (areLines_lines t).unbroken source hsource, rfl⟩

/-- A text that has been through the passes changes in them again when one of its lines does. -/
theorem settle_settle_iff (h : IsPlainProject project) (hname : '\n' ∉ resource.name)
    (t : Text) : Wrap.settle project resource (Wrap.settle project resource t) =
        Wrap.settle project resource t ↔
      ∀ line ∈ lines (Wrap.settle project resource t), renamesIssuer resource = true →
        fillIssuer project line = line := by
  have hcollapse : BlankRuns.collapse (lines (Wrap.settle project resource t)) =
      lines (Wrap.settle project resource t) := by
    rw [Wrap.lines_settle h.solid hname, BlankRuns.collapse_collapse]
  constructor
  · intro heq line hline hrenames
    obtain ⟨source, hsource, rfl⟩ := exists_of_mem_settle h hname hline
    rcases fill_fill_eq_or_count_lt h hname hsource with ⟨-, hissuer⟩ | ⟨-, -, hlt⟩
    · exact hissuer hrenames
    · have hlines := congrArg (braces ∘ lines) heq
      simp only [Function.comp_apply] at hlines
      rw [Wrap.lines_settle h.solid hname, BlankRuns.collapse, braces_collapseFrom] at hlines
      have hsum : braces (lines (Wrap.settle project resource t)) <
          braces ((lines (Wrap.settle project resource t)).map (fill project resource)) := by
        rw [braces, braces, List.map_map]
        apply List.sum_lt_sum
        · intro other hother
          obtain ⟨source', hsource', rfl⟩ := exists_of_mem_settle h hname hother
          rcases fill_fill_eq_or_count_lt h hname hsource' with ⟨hfixed, -⟩ | ⟨-, -, hlt⟩
          · rw [Function.comp_apply, hfixed]
          · exact hlt.le
        · exact ⟨_, hline, hlt⟩
      omega
  · intro hissuer
    apply lines_injective
    rw [Wrap.lines_settle h.solid hname, List.map_congr_left (g := id), List.map_id, hcollapse]
    intro line hline
    have hfixed := hissuer line hline
    obtain ⟨source, hsource, rfl⟩ := exists_of_mem_settle h hname hline
    rcases fill_fill_eq_or_count_lt h hname hsource with ⟨heq, -⟩ | ⟨hrenames, hne, -⟩
    · exact heq
    · exact absurd (hfixed hrenames) hne

/-- On the result of a first run, a second run finds what is left of the issuer's literal name,
and nothing else. -/
theorem apply_apply_iff (h : IsPlainProject project) (hkind : resource.isKind .deployment = false)
    (hname : '\n' ∉ resource.name) (t : Text) :
    ∃ out, apply ⟨project⟩ resource t = .ok out ∧
      (apply ⟨project⟩ resource out = .ok out ↔
        (renamesIssuer resource = true → project ≠ [] → ¬ issuerLiteral project <:+: out)) := by
  refine ⟨_, apply_eq_settle hkind t, ?_⟩
  rw [apply_eq_settle hkind, Except.ok.injEq]
  by_cases hdrop : Wrap.action resource = .drop
  · have hempty : Wrap.settle project resource [] = [] := Wrap.settle_of_isBlank h hname rfl
    have happly : ∀ t, Wrap.apply resource t = [] := by
      intro t
      simp only [Wrap.apply, hdrop]
    rw [happly, happly, hempty]
    simp [(isLiteral_issuerLiteral h).ne_nil]
  · rw [Wrap.apply_settle h hname hdrop, settle_settle_iff h hname]
    constructor
    · intro hlines hrenames
      rw [← fillIssuer_eq_self_iff h.solid, (isLinewise_fillIssuer h.solid).eq_self_iff]
      exact fun line hline => hlines line hline hrenames
    · intro hout line hline hrenames
      have hissuer := (fillIssuer_eq_self_iff h.solid).2 (hout hrenames)
      exact (isLinewise_fillIssuer h.solid).eq_self_iff.1 hissuer line hline

/-! ## Projects whose templates change again -/

theorem not_infix_settle (h : IsPlainProject project) (hname : '\n' ∉ resource.name)
    (hoverlap : ¬ OverlapsIssuer project) (hrenames : renamesIssuer resource = true)
    (hne : project ≠ []) (t : Text) :
    ¬ issuerLiteral project <:+: Wrap.settle project resource t := by
  have hfixed : fillIssuer project (Wrap.settle project resource t) =
      Wrap.settle project resource t := by
    rw [(isLinewise_fillIssuer h.solid).eq_self_iff]
    intro line hline
    obtain ⟨source, hsource, rfl⟩ := exists_of_mem_settle h hname hline
    exact (fillIssuer_eq_self_iff h.solid).2 fun _ =>
      not_infix_fill_of_renamesIssuer h hname hsource hne hoverlap hrenames
  exact (fillIssuer_eq_self_iff h.solid).1 hfixed hne

theorem settle_line (h : IsPlainProject project) (hname : '\n' ∉ resource.name)
    (hline : '\n' ∉ line) : Wrap.settle project resource line = fill project resource line := by
  apply lines_injective
  rw [Wrap.lines_settle h.solid hname, lines, pieces_eq_singleton hline, lines,
    pieces_eq_singleton ((isLinewise_fill h.solid hname).not_mem_newline hline)]
  rfl

/-- What a second run changes, for each resource and each text, and for which projects it never
changes anything. -/
theorem apply_twice_iff (h : IsPlainProject project) :
    (∀ resource t, resource.isKind .deployment = false → '\n' ∉ resource.name →
        ∃ out, apply ⟨project⟩ resource t = .ok out ∧
          (apply ⟨project⟩ resource out = .ok out ↔
            (renamesIssuer resource = true → project ≠ [] →
              ¬ issuerLiteral project <:+: out))) ∧
      ((∀ resource t, resource.isKind .deployment = false → '\n' ∉ resource.name →
          ∃ out, apply ⟨project⟩ resource t = .ok out ∧
            apply ⟨project⟩ resource out = .ok out) ↔
        ¬ OverlapsIssuer project) := by
  refine ⟨fun resource t hkind hname => apply_apply_iff h hkind hname t, ?_, ?_⟩
  · intro hidempotent hoverlap
    obtain ⟨t, hline, hne, hocc⟩ := exists_infix_fill h hoverlap
    have hname : '\n' ∉ someIssuer.name := by decide
    obtain ⟨out, hout, hagain⟩ := hidempotent someIssuer t rfl hname
    have hkind : someIssuer.isKind .deployment = false := rfl
    obtain ⟨out', hout', hiff⟩ := apply_apply_iff h hkind hname t
    rw [hout, Except.ok.injEq] at hout'
    subst hout'
    have happly : Wrap.apply someIssuer t = t := rfl
    rw [apply_eq_settle hkind, Except.ok.injEq, happly, settle_line h hname hline] at hout
    exact hiff.1 hagain rfl hne (hout ▸ hocc)
  · intro hoverlap resource t hkind hname
    obtain ⟨out, hout, hiff⟩ := apply_apply_iff h hkind hname t
    refine ⟨out, hout, hiff.2 fun hrenames hne => ?_⟩
    rw [apply_eq_settle hkind, Except.ok.injEq] at hout
    rw [← hout]
    exact not_infix_settle h hname hoverlap hrenames hne _

/-- A name that shares no piece with the suffix. -/
theorem apply_twice_demo : IsPlainProject "demo".toList ∧
    ∃ out, apply ⟨"demo".toList⟩ someIssuer "name: demo-selfsigned-issuer\n".toList = .ok out ∧
      apply ⟨"demo".toList⟩ someIssuer out = .ok out := by
  have hplain : IsPlainProject "demo".toList := ⟨by decide, by decide, by decide⟩
  have hoverlap : ¬ OverlapsIssuer "demo".toList := by
    rintro ⟨piece, hne, hsuffix, hstart⟩
    have hpieces : ∀ piece ∈ issuerSuffix.tails, piece ≠ [] → ¬ piece <+: "demo".toList := by
      decide
    exact hpieces piece ((List.mem_tails piece issuerSuffix).2 hsuffix) hne hstart
  exact ⟨hplain, (apply_twice_iff hplain).2.2 hoverlap someIssuer _ rfl (by decide)⟩

set_option maxRecDepth 4000 in
/-- The name `router` is no piece at the end of the suffix, but it starts with one. -/
theorem apply_twice_router : ¬ "router".toList <:+ issuerSuffix ∧
    apply ⟨"router".toList⟩ someIssuer
        "name: router-selfsigned-issuerouter-selfsigned-issuer\n".toList =
      .ok ("name: ".toList ++ chartName ++ "-selfsigned-issuerouter-selfsigned-issuer\n".toList) ∧
    apply ⟨"router".toList⟩ someIssuer
        ("name: ".toList ++ chartName ++ "-selfsigned-issuerouter-selfsigned-issuer\n".toList) =
      .ok ("name: ".toList ++ chartName ++ "-selfsigned-issue".toList ++ chartName ++
        "-selfsigned-issuer\n".toList) := by
  exact ⟨by decide, rfl, rfl⟩

end OperatorChart.Templater
