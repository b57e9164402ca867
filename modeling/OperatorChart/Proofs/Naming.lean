import OperatorChart.Naming
import OperatorChart.Proofs.LineOperations
import OperatorChart.Proofs.Trim
/-!
# What is left of the literal names

Each substitution of names works on every line by itself, and none brings back a literal that
an earlier one took away. So a second run of all of them finds nothing, except that the
reference to the issuer can come back out of its own replacement: the replacement ends like the
literal, and a literal that starts with a piece of this ending can overlap itself.
-/

namespace OperatorChart.Naming

open Text

/-! ## Literals -/

/-- A literal that is looked for: a word without braces. -/
structure IsLiteral (w : Text) : Prop extends IsWord w where
  no_open : '{' ∉ w
  no_close : '}' ∉ w

/-- A project's name that is a word without braces, or empty. -/
structure IsPlainProject (project : Text) : Prop where
  solid : ∀ c ∈ project, Unicode.isWhiteSpace c = false
  no_open : '{' ∉ project
  no_close : '}' ∉ project

def namespaceLiteral (project : Text) : Text :=
  project ++ "-system".toList

def metricsServiceLiteral (project : Text) : Text :=
  project ++ '-' :: metricsServiceSuffix

def issuerLiteral (project : Text) : Text :=
  project ++ issuerSuffix

theorem IsLiteral.not_mem_newline {w : Text} (h : IsLiteral w) : '\n' ∉ w :=
  h.not_mem_of_isWhiteSpace rfl

theorem IsPlainProject.isLiteral_append {project : Text} (h : IsPlainProject project)
    {suffix : Text} (hsuffix : IsLiteral suffix) : IsLiteral (project ++ suffix) where
  ne_nil := List.append_ne_nil_of_right_ne_nil project hsuffix.ne_nil
  solid c hc := (List.mem_append.1 hc).elim (h.solid c) (hsuffix.solid c)
  no_open hc := (List.mem_append.1 hc).elim h.no_open hsuffix.no_open
  no_close hc := (List.mem_append.1 hc).elim h.no_close hsuffix.no_close

theorem isLiteral_issuerSuffix : IsLiteral issuerSuffix :=
  ⟨⟨by decide, by decide⟩, by decide, by decide⟩

theorem isLiteral_namespaceLiteral {project : Text} (h : IsPlainProject project) :
    IsLiteral (namespaceLiteral project) :=
  h.isLiteral_append ⟨⟨by decide, by decide⟩, by decide, by decide⟩

theorem isLiteral_metricsServiceLiteral {project : Text} (h : IsPlainProject project) :
    IsLiteral (metricsServiceLiteral project) :=
  h.isLiteral_append ⟨⟨by decide, by decide⟩, by decide, by decide⟩

theorem isLiteral_issuerLiteral {project : Text} (h : IsPlainProject project) :
    IsLiteral (issuerLiteral project) :=
  h.isLiteral_append isLiteral_issuerSuffix

theorem isLiteral_serviceAddressPlaceholder : IsLiteral serviceAddressPlaceholder :=
  ⟨⟨by decide, by decide⟩, by decide, by decide⟩

theorem not_infix_of_mark {w mark t : Text} (hmark : mark <:+: w)
    (h : hasInfix mark t = false) : ¬ w <:+: t :=
  fun hw => hasInfix_eq_false_iff.1 h (hmark.trans hw)

/-! ## Fillings -/

def metricsAddress : Text :=
  metricsServiceName ++ '.' :: chartNamespace

theorem isFilling_namespace (project : Text) :
    IsFilling (namespaceLiteral project) releaseNamespace [] :=
  ⟨by decide, by decide, List.nil_suffix⟩

theorem isFilling_placeholder_append_domain :
    IsFilling (serviceAddressPlaceholder ++ clusterDomain) metricsAddress
      (".svc".toList ++ clusterDomain) :=
  ⟨by decide, by decide, by decide⟩

theorem isFilling_placeholder :
    IsFilling serviceAddressPlaceholder metricsAddress ".svc".toList :=
  ⟨by decide, by decide, by decide⟩

theorem isFilling_metricsService (project : Text) :
    IsFilling (metricsServiceLiteral project) metricsServiceName [] :=
  ⟨by decide, by decide, List.nil_suffix⟩

theorem isFilling_issuer (project : Text) :
    IsFilling (issuerLiteral project) chartName issuerSuffix :=
  ⟨by decide, by decide, List.suffix_append project issuerSuffix⟩

theorem fillMetricsService_eq (project text : Text) :
    fillMetricsService project text =
      (((text.replaceAll (serviceAddressPlaceholder ++ clusterDomain)
          (metricsAddress ++ (".svc".toList ++ clusterDomain))).replaceAll
        serviceAddressPlaceholder (metricsAddress ++ ".svc".toList)).replaceAll
        (metricsServiceLiteral project) (metricsServiceName ++ [])) := by
  rw [fillMetricsService, List.append_nil]
  rfl

/-! ## Substitutions as replacements -/

/-- The ends of the literals that are looked for, each with what replaces the literal. -/
def literalEnds : List (Text × Text) :=
  [("-system".toList, releaseNamespace), (issuerSuffix, chartName ++ issuerSuffix),
    ('-' :: metricsServiceSuffix, metricsServiceName),
    (serviceAddressPlaceholder, metricsAddress ++ ".svc".toList),
    (serviceAddressPlaceholder ++ clusterDomain,
      metricsAddress ++ (".svc".toList ++ clusterDomain))]

theorem isWord_of_mem_ends {mark replacement : Text} (h : (mark, replacement) ∈ literalEnds) :
    IsWord mark := by
  have hends : ∀ entry ∈ literalEnds, entry.1 ≠ [] ∧
      ∀ c ∈ entry.1, Unicode.isWhiteSpace c = false := by decide
  exact ⟨(hends _ h).1, (hends _ h).2⟩

theorem replacement_of_mem_ends {mark replacement : Text}
    (h : (mark, replacement) ∈ literalEnds) :
    replacement.head? = some '{' ∧ '\n' ∉ replacement := by
  have hends : ∀ entry ∈ literalEnds, entry.2.head? = some '{' ∧ '\n' ∉ entry.2 := by decide
  exact hends _ h

/-- Whether a function on texts replaces literals one after another, each with the project's name
before its end or without it. What the replacement of a literal keeps, such a function keeps. -/
inductive IsSubstitution (project : Text) : (Text → Text) → Prop
  | same : IsSubstitution project fun t => t
  | literal {front mark replacement : Text} (hfront : front = project ∨ front = [])
      (h : (mark, replacement) ∈ literalEnds) :
      IsSubstitution project (replaceAll · (front ++ mark) replacement)
  | comp {f g : Text → Text} (hf : IsSubstitution project f) (hg : IsSubstitution project g) :
      IsSubstitution project fun t => g (f t)

theorem isSubstitution_fillNamespace (project : Text) :
    IsSubstitution project (fillNamespace project) := by
  unfold fillNamespace
  cases project.isEmpty with
  | true => exact .same
  | false => exact .literal (.inl rfl) (by decide)

theorem isSubstitution_fillIssuer (project : Text) :
    IsSubstitution project (fillIssuer project) := by
  unfold fillIssuer
  cases project.isEmpty with
  | true => exact .same
  | false => exact .literal (.inl rfl) (by decide)

theorem isSubstitution_fillMetricsService (project : Text) :
    IsSubstitution project (fillMetricsService project) := by
  have hend : ∀ {mark replacement : Text}, (mark, replacement) ∈ literalEnds →
      IsSubstitution project (replaceAll · ([] ++ mark) replacement) := fun h =>
    .literal (.inr rfl) h
  have hdomain : IsSubstitution project (replaceAll · (serviceAddressPlaceholder ++ clusterDomain)
      (metricsAddress ++ (".svc".toList ++ clusterDomain))) := hend (by decide)
  have hplaceholder : IsSubstitution project
      (replaceAll · serviceAddressPlaceholder (metricsAddress ++ ".svc".toList)) :=
    hend (by decide)
  have hservice : IsSubstitution project
      (replaceAll · (metricsServiceLiteral project) metricsServiceName) :=
    .literal (.inl rfl) (by decide)
  exact (hdomain.comp hplaceholder).comp hservice

theorem isSubstitution_fillCertificate (project : Text) (resource : Resource) :
    IsSubstitution project (fillCertificate project resource) := by
  unfold fillCertificate
  cases project.isEmpty with
  | true => exact .same
  | false =>
      cases resource.isForMetrics with
      | true =>
          exact (isSubstitution_fillMetricsService project).comp (isSubstitution_fillIssuer project)
      | false => exact isSubstitution_fillIssuer project

/-! ## The substitutions work line by line -/

/-- Whether a function on texts works on each line by itself. -/
def IsLinewise (f : Text → Text) : Prop :=
  ∀ t, lines (f t) = (lines t).map f

theorem isLinewise_id : IsLinewise fun t => t := by
  intro t
  simp

theorem IsLinewise.comp {f g : Text → Text} (hg : IsLinewise g) (hf : IsLinewise f) :
    IsLinewise fun t => g (f t) := by
  intro t
  rw [hg, hf, List.map_map]
  rfl

theorem IsLinewise.eq_self_iff {f : Text → Text} (hf : IsLinewise f) {t : Text} :
    f t = t ↔ ∀ line ∈ lines t, f line = line := by
  have hmap : (lines t).map f = (lines t).map id ↔ ∀ line ∈ lines t, f line = line :=
    List.map_inj_left
  rw [← hmap, List.map_id, ← hf t]
  exact ⟨congrArg lines, lines_injective⟩

theorem isLinewise_replaceAll {needle replacement : Text} (hne : needle ≠ [])
    (hneedle : '\n' ∉ needle) (hreplacement : '\n' ∉ replacement) :
    IsLinewise (replaceAll · needle replacement) :=
  lines_replaceAll hne hneedle hreplacement

theorem isLinewise_overLines_map {f : Line → Line} (hf : ∀ line, '\n' ∉ line → '\n' ∉ f line) :
    IsLinewise fun t => overLines (·.map f) t := by
  intro t
  have hlines := (areLines_lines t).map fun line hline =>
    hf line ((areLines_lines t).unbroken line hline)
  rw [lines_overLines hlines]
  apply List.map_congr_left
  intro line hline
  rw [overLines, lines, pieces_eq_singleton ((areLines_lines t).unbroken line hline)]
  rfl

theorem overLines_map_line {f : Line → Line} {line : Line} (h : '\n' ∉ line) :
    overLines (·.map f) line = f line := by
  rw [overLines, lines, pieces_eq_singleton h]
  rfl

theorem IsSubstitution.isLinewise {project : Text} (hproject : '\n' ∉ project) {f : Text → Text}
    (h : IsSubstitution project f) : IsLinewise f := by
  induction h with
  | same => exact isLinewise_id
  | @literal front mark replacement hfront hmem =>
      have hword := isWord_of_mem_ends hmem
      have hneedle : '\n' ∉ front ++ mark := by
        apply List.not_mem_append _ (hword.not_mem_of_isWhiteSpace rfl)
        rcases hfront with rfl | rfl
        · exact hproject
        · exact List.not_mem_nil
      exact isLinewise_replaceAll (List.append_ne_nil_of_right_ne_nil front hword.ne_nil) hneedle
        (replacement_of_mem_ends hmem).2
  | comp _ _ hf hg => exact hg.comp hf

theorem not_mem_newline_of_solid {s : Text} (h : ∀ c ∈ s, Unicode.isWhiteSpace c = false) :
    '\n' ∉ s :=
  fun hmem => absurd (h '\n' hmem) (by decide)

section Linewise

variable {project : Text} (hsolid : ∀ c ∈ project, Unicode.isWhiteSpace c = false)

include hsolid

theorem isWord_append {suffix : Text} (hsuffix : IsWord suffix) : IsWord (project ++ suffix) :=
  ⟨List.append_ne_nil_of_right_ne_nil project hsuffix.ne_nil, fun c hc =>
    (List.mem_append.1 hc).elim (hsolid c) (hsuffix.solid c)⟩

theorem isWord_literal {front mark : Text} (hfront : front = project ∨ front = [])
    (hmark : IsWord mark) : IsWord (front ++ mark) := by
  rcases hfront with rfl | rfl
  · exact isWord_append hsolid hmark
  · exact hmark

theorem isLinewise_fillNamespace : IsLinewise (fillNamespace project) :=
  (isSubstitution_fillNamespace project).isLinewise (not_mem_newline_of_solid hsolid)

theorem isLinewise_fillIssuer : IsLinewise (fillIssuer project) :=
  (isSubstitution_fillIssuer project).isLinewise (not_mem_newline_of_solid hsolid)

end Linewise

end OperatorChart.Naming
