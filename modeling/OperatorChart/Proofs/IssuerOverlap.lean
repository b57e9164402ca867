import Mathlib.Data.List.Infix
import OperatorChart.Proofs.NamingStability
/-!
# When the name of an issuer overlaps itself

The replacement for the name of an issuer ends with the suffix of the name. The name comes back
when a piece at the end of this suffix also starts the project's name, and then only. Main
statements: without such a piece no text holds the name after its replacement, and with one
there is a text that does.
-/

namespace OperatorChart.Naming

open Text

/-- Whether a piece at the end of the suffix of an issuer's name starts the project's name. -/
def OverlapsIssuer (project : Text) : Prop :=
  ∃ piece, piece ≠ [] ∧ piece <:+ issuerSuffix ∧ piece <+: project

/-! ## Without a piece -/

theorem eq_issuerSuffix_of_border {s : Text} (hne : s ≠ []) (hsuffix : s <:+ issuerSuffix)
    (hstart : s <+: issuerSuffix) : s = issuerSuffix := by
  have hborders : ∀ s ∈ issuerSuffix.tails, s ≠ [] → s <+: issuerSuffix → s = issuerSuffix := by
    decide
  exact hborders s ((List.mem_tails s issuerSuffix).2 hsuffix) hne hstart

theorem not_prefix_issuerLiteral {project piece : Text} (hne : project ≠ [])
    (h : ¬ OverlapsIssuer project) (hpiece : piece ≠ []) (hsuffix : piece <:+ issuerSuffix) :
    ¬ piece <+: issuerLiteral project := by
  intro hliteral
  rcases List.prefix_or_prefix_of_prefix hliteral (List.prefix_append project issuerSuffix) with
    hproject | ⟨border, rfl⟩
  · exact h ⟨piece, hpiece, hsuffix, hproject⟩
  · by_cases hborder : border = []
    · rw [hborder, List.append_nil] at hsuffix
      exact h ⟨project, hne, hsuffix, List.prefix_rfl⟩
    · have hstart : border <+: issuerSuffix := (List.prefix_append_right_inj project).1 hliteral
      have hend : border <:+ issuerSuffix := (List.suffix_append project border).trans hsuffix
      have hlength := hsuffix.length_le
      rw [eq_issuerSuffix_of_border hborder hend hstart, List.length_append] at hlength
      have hpos := List.length_pos_iff.2 hne
      omega

theorem not_infix_fillIssuer {project : Text} (h : IsPlainProject project) (hne : project ≠ [])
    (hoverlap : ¬ OverlapsIssuer project) (t : Text) :
    ¬ issuerLiteral project <:+: fillIssuer project t := by
  have hliteral := isLiteral_issuerLiteral h
  have hmark : issuerSuffix <:+: issuerLiteral project := (List.suffix_append project _).isInfix
  rw [fillIssuer, if_neg (by rwa [List.isEmpty_iff])]
  apply (isFilling_issuer project).not_infix_replaceAll hliteral.ne_nil hliteral.no_open
    hliteral.no_close (not_infix_of_mark hmark (by decide))
  exact fun piece hpiece hsuffix => not_prefix_issuerLiteral hne hoverlap hpiece hsuffix

theorem not_infix_fill_of_renamesIssuer {project : Text} {resource : Resource} {line : Line}
    (h : IsPlainProject project) (hname : '\n' ∉ resource.name) (hline : '\n' ∉ line)
    (hne : project ≠ []) (hoverlap : ¬ OverlapsIssuer project)
    (hrenames : renamesIssuer resource = true) :
    ¬ issuerLiteral project <:+: fill project resource line := by
  intro hocc
  rw [fill_line h.solid hname hline] at hocc
  have hmark : issuerSuffix <:+: issuerLiteral project := (List.suffix_append project _).isInfix
  have hocc := infix_of_infix_fillManagedByLine (isLiteral_issuerLiteral h) hmark (by decide) hocc
  revert hocc
  unfold fillKind
  cases hcertificate : resource.isKind .certificate with
  | true =>
      rw [if_pos rfl, fillCertificate, if_neg (by rwa [List.isEmpty_iff])]
      exact not_infix_fillIssuer h hne hoverlap _
  | false =>
      rw [renamesIssuer, hcertificate, Bool.false_or] at hrenames
      rw [hrenames]
      exact not_infix_fillIssuer h hne hoverlap _

/-! ## With a piece -/

/-- Two names of the issuer, the second without the piece that it shares with the first. -/
def overlappingNames (project rest : Text) : Text :=
  issuerLiteral project ++ (rest ++ issuerSuffix)

section Overlap

variable {project piece rest gap : Text}

theorem not_prefix_system {s : Text} (hne : s ≠ []) (hs : s <:+ issuerSuffix) :
    ¬ s <+: "-system".toList ∧ ¬ "-system".toList <+: s := by
  have hpieces : ∀ s ∈ issuerSuffix.tails, s ≠ [] →
      ¬ s <+: "-system".toList ∧ ¬ "-system".toList <+: s := by
    decide
  exact hpieces s ((List.mem_tails s issuerSuffix).2 hs) hne

theorem eq_nil_of_suffix_system {s : Text} (hs : s <:+ "-system".toList)
    (hstart : s <+: issuerSuffix) : s = [] := by
  have hpieces : ∀ s ∈ "-system".toList.tails, s <+: issuerSuffix → s = [] := by decide
  exact hpieces s ((List.mem_tails s _).2 hs) hstart

/-- The namespace's suffix stands in the project's name when it stands in front of the suffix
of an issuer's name. -/
theorem system_of_project_append {v b : Text}
    (h : project ++ issuerSuffix = v ++ ("-system".toList ++ b)) :
    ∃ z, project = v ++ ("-system".toList ++ z) := by
  rcases List.append_eq_append_iff.1 h with ⟨c, -, hsuffix⟩ | ⟨c, hproject, hc⟩
  · have hocc : "-system".toList <:+: issuerSuffix :=
      ⟨c, b, by rw [hsuffix, List.append_assoc]⟩
    exact absurd hocc (hasInfix_eq_false_iff.1 (by decide))
  · rcases List.append_eq_append_iff.1 hc with ⟨z, hz, -⟩ | ⟨d, hd, hsuffix⟩
    · exact ⟨z, by rw [hproject, hz]⟩
    · have hnil : d = [] :=
        eq_nil_of_suffix_system (hd ▸ List.suffix_append c d) ⟨b, hsuffix.symm⟩
      rw [hnil, List.append_nil] at hd
      exact ⟨[], by rw [hproject, ← hd, List.append_nil]⟩

theorem not_mem_y_issuerSuffix : 'y' ∉ issuerSuffix := by decide

/-- As many characters as the gap has, and no `y` among them, do not complete the name to one that
starts like the namespace's suffix. -/
theorem gap_append_ne_system {e s : Text} (hgap : issuerSuffix = gap ++ piece)
    (hlength : e.length = gap.length) (hy : 'y' ∉ e) :
    e ++ (piece ++ rest) ≠ "-system".toList ++ s := by
  intro heq
  have hstart : e <+: "-system".toList ++ s := ⟨piece ++ rest, heq⟩
  have hshort : e.length < 3 := by
    by_contra hlong
    have hsy : "-sy".toList <+: e := List.prefix_of_prefix_length_le
      (List.IsPrefix.trans (by decide) (List.prefix_append "-system".toList s)) hstart
      (by simpa using hlong)
    exact hy (hsy.mem (by decide))
  have he : e = "-system".toList.take e.length := by
    have hlong : e.length ≤ "-system".toList.length := by
      have hseven : "-system".toList.length = 7 := by decide
      omega
    have htake := List.prefix_of_prefix_length_le hstart
      (List.prefix_append "-system".toList s) hlong
    exact List.prefix_iff_eq_take.1 htake
  have hshared : ∀ n < 3, "-system".toList.take n = issuerSuffix.take n := by decide
  have hgap_eq : e = gap := by
    rw [he, hshared e.length hshort, hlength, hgap, List.take_left]
  rw [hgap_eq, ← List.append_assoc, ← hgap] at heq
  have hse : "-se".toList <+: "-system".toList ++ s :=
    heq ▸ List.IsPrefix.trans (by decide) (List.prefix_append issuerSuffix rest)
  have hsy : "-sy".toList <+: "-system".toList ++ s :=
    List.IsPrefix.trans (by decide) (List.prefix_append "-system".toList s)
  exact absurd (List.prefix_of_prefix_length_le hse hsy (by decide)) (by decide)

/-- Behind the gap that the first name leaves, the namespace's suffix never stands behind the
project's name. -/
theorem not_infix_overlappingNames (hgap : issuerSuffix = gap ++ piece) (hpiece : piece ≠ [])
    (hproject : project = piece ++ rest) :
    ¬ namespaceLiteral project <:+: overlappingNames project rest := by
  rintro ⟨a, b, hocc⟩
  have hnames : overlappingNames project rest =
      (project ++ gap) ++ (project ++ issuerSuffix) := by
    rw [overlappingNames, issuerLiteral, hgap, hproject]
    simp
  have hgap_y : gap.count 'y' = 0 := List.count_eq_zero_of_not_mem fun hmem =>
    not_mem_y_issuerSuffix (hgap ▸ List.mem_append_left piece hmem)
  have hocc : (a ++ project) ++ ("-system".toList ++ b) =
      (project ++ gap) ++ (project ++ issuerSuffix) := by
    rw [← hnames, ← hocc, namespaceLiteral]
    simp
  rcases List.append_eq_append_iff.1 hocc with ⟨c, hc, hsystem⟩ | ⟨v, hv, hsystem⟩
  · -- it starts inside of the gap, so it would start like a piece of the issuer's suffix
    have hsuffix : c <:+ gap := by
      have hlength := congrArg List.length hc
      simp only [List.length_append] at hlength
      exact List.suffix_of_suffix_length_le (hc ▸ List.suffix_append _ c)
        (List.suffix_append project gap) (by omega)
    have hend : c ++ piece <:+ issuerSuffix := by
      obtain ⟨front, hfront⟩ := hsuffix
      exact ⟨front, by rw [hgap, ← hfront, List.append_assoc]⟩
    have hne : c ++ piece ≠ [] := List.append_ne_nil_of_right_ne_nil c hpiece
    obtain ⟨hpiece_system, hsystem_piece⟩ := not_prefix_system hne hend
    have hstart : c ++ piece <+: "-system".toList ++ b :=
      ⟨rest ++ issuerSuffix, by rw [hsystem, hproject]; simp⟩
    rcases List.prefix_or_prefix_of_prefix hstart (List.prefix_append _ b) with h | h
    · exact hpiece_system h
    · exact hsystem_piece h
  · obtain ⟨z, hz⟩ := system_of_project_append hsystem
    -- `a` is `v` and then as many characters as the gap has
    have hlength := congrArg List.length hv
    simp only [List.length_append] at hlength
    have hstart : v <+: a ++ project := by
      rw [hv, hz]
      simp
    obtain ⟨e, rfl⟩ := List.prefix_of_prefix_length_le hstart (List.prefix_append a project)
      (by omega)
    have hcount := congrArg (List.count 'y') hv
    simp only [List.count_append, hgap_y] at hcount
    have he : 'y' ∉ e := List.count_eq_zero.1 (by omega)
    simp only [List.length_append] at hlength
    have hrest : e ++ project = "-system".toList ++ (z ++ (gap ++ v)) := by
      have hcancel : v ++ (e ++ project) = v ++ ("-system".toList ++ (z ++ (gap ++ v))) := by
        rw [← List.append_assoc, hv]
        nth_rewrite 1 [hz]
        simp
      exact List.append_cancel_left hcancel
    rw [hproject] at hrest
    exact gap_append_ne_system hgap (by omega) he hrest

theorem length_rest_lt (hproject : project = piece ++ rest) (hpiece : piece ≠ []) :
    (rest ++ issuerSuffix).length < (issuerLiteral project).length := by
  have hpos := List.length_pos_iff.2 hpiece
  rw [issuerLiteral, hproject]
  simp only [List.length_append]
  omega

theorem fillIssuer_overlappingNames (hne : project ≠ []) (hproject : project = piece ++ rest)
    (hpiece : piece ≠ []) : fillIssuer project (overlappingNames project rest) =
      chartName ++ issuerSuffix ++ (rest ++ issuerSuffix) := by
  have hliteral : issuerLiteral project ≠ [] := List.append_ne_nil_of_left_ne_nil hne _
  have hshort : ¬ issuerLiteral project <:+: rest ++ issuerSuffix := fun hocc =>
    absurd hocc.length_le (Nat.not_le.2 (length_rest_lt hproject hpiece))
  rw [fillIssuer, if_neg (by rwa [List.isEmpty_iff]), overlappingNames]
  exact (replaceAll_append hliteral _ _).trans
    (congrArg (chartName ++ issuerSuffix ++ ·) (replaceAll_eq_self hshort _))

theorem not_mem_newline_overlappingNames (h : IsPlainProject project)
    (hproject : project = piece ++ rest) : '\n' ∉ overlappingNames project rest := by
  intro hmem
  rcases List.mem_append.1 hmem with hmem | hmem
  · exact (isLiteral_issuerLiteral h).not_mem_newline hmem
  · rcases List.mem_append.1 hmem with hmem | hmem
    · have hsolid := h.solid '\n' (hproject ▸ List.mem_append_right piece hmem)
      exact absurd hsolid (by decide)
    · exact isLiteral_issuerSuffix.not_mem_newline hmem

end Overlap

def someIssuer : Resource :=
  ⟨ResourceKind.issuer.text, [], [], []⟩

/-- With a shared piece, the name of the issuer comes back out of the replacement. -/
theorem exists_infix_fill {project : Text} (h : IsPlainProject project)
    (hoverlap : OverlapsIssuer project) : ∃ t, '\n' ∉ t ∧ project ≠ [] ∧
      issuerLiteral project <:+: fill project someIssuer t := by
  obtain ⟨piece, hpiece, ⟨gap, hgap⟩, rest, hproject⟩ := hoverlap
  have hne : project ≠ [] := by
    rw [← hproject]
    exact List.append_ne_nil_of_left_ne_nil hpiece rest
  have hline := not_mem_newline_overlappingNames h hproject.symm
  have hnamespace : fillNamespace project (overlappingNames project rest) =
      overlappingNames project rest :=
    fillNamespace_eq_self fun _ => not_infix_overlappingNames hgap.symm hpiece hproject.symm
  have hkind : fillKind project someIssuer (overlappingNames project rest) =
      fillIssuer project (overlappingNames project rest) := rfl
  refine ⟨_, hline, hne, ?_⟩
  rw [fill_line h.solid (by decide) hline, hnamespace, hkind,
    fillIssuer_overlappingNames hne hproject.symm hpiece, fillManagedByLine, if_neg]
  · refine ⟨chartName ++ gap, [], ?_⟩
    rw [issuerLiteral, ← hproject]
    nth_rewrite 2 [← hgap]
    simp
  · intro hmanaged
    obtain ⟨gap', tail, heq, -⟩ := parts_of_isManagedByBuild hmanaged
    have hhead : some '{' = some 'a' := congrArg List.head? heq
    exact absurd hhead (by decide)

end OperatorChart.Naming
