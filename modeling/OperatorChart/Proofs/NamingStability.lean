import OperatorChart.Proofs.LineShape
import OperatorChart.Proofs.Naming
/-!
# A second run of the substitutions of names

The substitutions for one resource are one function on lines. On a line that it has already
been through, only the substitution of the issuer can still find something.
-/

namespace OperatorChart.Naming

open Text

/-! ## The substitutions for one resource -/

/-- The names that only resources of some kinds hold. -/
def fillKind (project : Text) (resource : Resource) (text : Text) : Text :=
  if resource.isKind .certificate then fillCertificate project resource text
  else if resource.isKind .issuer then fillIssuer project text
  else if resource.isKind .serviceMonitor then fillMonitor project resource text
  else text

theorem isSubstitution_fillKind_or (project : Text) (resource : Resource) :
    IsSubstitution project (fillKind project resource) ∨
      resource.isKind .serviceMonitor = true ∧
        fillKind project resource = fillMonitor project resource := by
  unfold fillKind
  cases resource.isKind .certificate with
  | true => exact .inl (isSubstitution_fillCertificate project resource)
  | false =>
      cases resource.isKind .issuer with
      | true => exact .inl (isSubstitution_fillIssuer project)
      | false =>
          cases resource.isKind .serviceMonitor with
          | true => exact .inr ⟨rfl, rfl⟩
          | false => exact .inl .same

def fill (project : Text) (resource : Resource) (text : Text) : Text :=
  fillManagedBy (fillKind project resource (fillNamespace project text))

def renamesIssuer (resource : Resource) : Bool :=
  resource.isKind .certificate || resource.isKind .issuer

def renameLine (name newName : Text) (line : Line) : Line :=
  if isNameEntry name line then line.leading ++ "name: ".toList ++ newName else line

theorem renameEntries_eq_map (name newName : Text) (ls : List Line) :
    renameEntries name newName 0 0 ls = ls.map (renameLine name newName) := by
  induction ls with
  | nil => rfl
  | cons line rest ih =>
      have hentry : ofLines ((line :: rest).take (0 + 1)) = line := rfl
      rw [renameEntries, hentry, ih, List.map_cons, renameLine]
      by_cases h : isNameEntry name line
      · rw [if_pos h, if_pos h]
      · rw [if_neg h, if_neg h]

theorem suffix_of_monitorSuffix? {project name suffix : Text}
    (h : monitorSuffix? project name = some suffix) :
    (project ≠ [] ∧ name = project ++ '-' :: suffix) ∨
      (name = metricsMonitorSuffix ∧ suffix = metricsMonitorSuffix) := by
  unfold monitorSuffix? at h
  split at h
  · rename_i tail htail
    split at h
    · rename_i hne
      rw [Bool.and_eq_true, Bool.not_eq_true', List.isEmpty_eq_false_iff] at hne
      rw [isPrefixOf?_eq_some_iff, List.append_assoc] at htail
      cases h
      exact .inl ⟨hne.1, htail⟩
    · split at h
      · rename_i hname
        cases h
        exact .inr ⟨by simpa using hname, by simpa using hname⟩
      · cases h
  · split at h
    · rename_i hname
      cases h
      exact .inr ⟨by simpa using hname, by simpa using hname⟩
    · cases h

theorem not_mem_newline_suffix {project name suffix : Text} (hname : '\n' ∉ name)
    (h : monitorSuffix? project name = some suffix) : '\n' ∉ suffix := by
  rcases suffix_of_monitorSuffix? h with ⟨-, rfl⟩ | ⟨-, rfl⟩
  · simp only [List.mem_append, List.mem_cons, not_or] at hname
    exact hname.2.2
  · decide

theorem isLinewise_fillMonitor {project : Text} {resource : Resource}
    (hname : '\n' ∉ resource.name) : IsLinewise (fillMonitor project resource) := by
  unfold fillMonitor
  cases resource.name.isEmpty with
  | true => exact isLinewise_id
  | false =>
      cases hsuffix : monitorSuffix? project resource.name with
      | none => exact isLinewise_id
      | some suffix =>
          simp only [List.count_eq_zero_of_not_mem hname]
          have hrename : IsLinewise (fun t => overLines (·.map (renameLine resource.name
              (chartName ++ '-' :: suffix))) t) := by
            apply isLinewise_overLines_map
            intro line hline
            unfold renameLine
            split
            · have h := not_mem_newline_suffix hname hsuffix
              simp only [List.mem_append, List.mem_cons, not_or]
              exact ⟨⟨line.not_mem_newline_leading, by decide⟩, by decide, by decide, h⟩
            · exact hline
          simpa only [Bool.false_eq_true, if_false, overLines, renameEntries_eq_map] using hrename

theorem not_mem_fillManagedByLine {c : Char} (hc : IsLineEnd c) {line : Line} (h : c ∉ line) :
    c ∉ fillManagedByLine line := by
  unfold fillManagedByLine
  split
  · have hlabel : c ∉ managedByLabel ++ ' ' :: (Directive.value ".Release.Service".toList).render :=
      hc.not_mem (by decide) (by decide)
    rw [List.append_assoc, List.mem_append, not_or]
    exact ⟨line.not_mem_leading hc, hlabel⟩
  · exact h

theorem lines_fillManagedBy (t : Text) :
    lines (fillManagedBy t) = (lines t).map fillManagedByLine :=
  lines_overLines ((areLines_lines t).map fun line hline =>
    not_mem_fillManagedByLine (.inl rfl) ((areLines_lines t).unbroken line hline))

theorem isLinewise_fillManagedBy : IsLinewise fillManagedBy :=
  isLinewise_overLines_map fun _ => not_mem_fillManagedByLine (.inl rfl)

theorem isLinewise_fillKind {project : Text} {resource : Resource}
    (hsolid : ∀ c ∈ project, Unicode.isWhiteSpace c = false) (hname : '\n' ∉ resource.name) :
    IsLinewise (fillKind project resource) := by
  rcases isSubstitution_fillKind_or project resource with h | ⟨-, h⟩
  · exact h.isLinewise (not_mem_newline_of_solid hsolid)
  · exact h ▸ isLinewise_fillMonitor hname

theorem isLinewise_fill {project : Text} {resource : Resource}
    (hsolid : ∀ c ∈ project, Unicode.isWhiteSpace c = false) (hname : '\n' ∉ resource.name) :
    IsLinewise (fill project resource) :=
  isLinewise_fillManagedBy.comp
    ((isLinewise_fillKind hsolid hname).comp (isLinewise_fillNamespace hsolid))

/-! ## Literals that stay away -/

section Absent

variable {project w mark t : Text}

theorem infix_of_infix_fillNamespace (h : IsPlainProject project) (hw : IsLiteral w)
    (hmark : mark <:+: w) (hcore : hasInfix mark releaseNamespace = false)
    (hocc : w <:+: fillNamespace project t) : w <:+: t := by
  unfold fillNamespace at hocc
  split at hocc
  · exact hocc
  · rw [← List.append_nil releaseNamespace] at hocc
    exact (isFilling_namespace project).infix_of_infix_replaceAll
      (isLiteral_namespaceLiteral h).ne_nil hw.no_open hw.no_close
      (not_infix_of_mark hmark hcore) hocc

theorem infix_of_infix_fillIssuer (h : IsPlainProject project) (hw : IsLiteral w)
    (hmark : mark <:+: w) (hcore : hasInfix mark chartName = false)
    (hocc : w <:+: fillIssuer project t) : w <:+: t := by
  unfold fillIssuer at hocc
  split at hocc
  · exact hocc
  · exact (isFilling_issuer project).infix_of_infix_replaceAll
      (isLiteral_issuerLiteral h).ne_nil hw.no_open hw.no_close
      (not_infix_of_mark hmark hcore) hocc

theorem infix_of_infix_fillMetricsService (h : IsPlainProject project) (hw : IsLiteral w)
    (hmark : mark <:+: w) (haddress : hasInfix mark metricsAddress = false)
    (hservice : hasInfix mark metricsServiceName = false)
    (hocc : w <:+: fillMetricsService project t) : w <:+: t := by
  rw [fillMetricsService_eq] at hocc
  have hplaceholder := (isFilling_metricsService project).infix_of_infix_replaceAll
    (isLiteral_metricsServiceLiteral h).ne_nil hw.no_open hw.no_close
    (not_infix_of_mark hmark hservice) hocc
  have hdomain := isFilling_placeholder.infix_of_infix_replaceAll (by decide) hw.no_open
    hw.no_close (not_infix_of_mark hmark haddress) hplaceholder
  exact isFilling_placeholder_append_domain.infix_of_infix_replaceAll (by decide) hw.no_open
    hw.no_close (not_infix_of_mark hmark haddress) hdomain

theorem infix_of_isManagedByBuild {line : Line} (h : isManagedByBuild line = true) :
    managedByLabel <:+: line := by
  unfold isManagedByBuild at h
  split at h
  · rename_i rest hrest
    rw [isPrefixOf?_eq_some_iff] at hrest
    exact (List.IsPrefix.isInfix ⟨rest, hrest.symm⟩).trans (List.dropWhile_suffix _).isInfix
  · cases h

theorem infix_of_infix_fillManagedByLine {line : Line} (hw : IsLiteral w) (hmark : mark <:+: w)
    (hservice : hasInfix mark (Directive.value ".Release.Service".toList).render = false)
    (hocc : w <:+: fillManagedByLine line) : w <:+: line := by
  unfold fillManagedByLine at hocc
  split at hocc
  · rename_i hmanaged
    rcases infix_append_cons (hw.not_mem_of_isWhiteSpace rfl) hocc with hocc | hocc
    · have hlabel := hw.infix_of_isWhite_append line.isWhite_leading hocc
      exact hlabel.trans (infix_of_isManagedByBuild hmanaged)
    · exact absurd hocc (not_infix_of_mark hmark hservice)
  · exact hocc

theorem infix_of_isPadded {name rest : Text} (h : isPadded name rest = true) :
    name <:+: rest := by
  induction rest with
  | nil =>
      rw [isPadded, List.isEmpty_iff] at h
      simp [h]
  | cons c rest ih =>
      rw [isPadded, Bool.or_eq_true, Bool.and_eq_true] at h
      rcases h with h | ⟨-, h⟩
      · split at h
        · rename_i tail htail
          rw [isPrefixOf?_eq_some_iff] at htail
          exact List.IsPrefix.isInfix ⟨tail, htail.symm⟩
        · cases h
      · exact List.infix_cons (ih h)

theorem exists_of_isNameEntry {name line : Text} (h : isNameEntry name line = true) :
    ∃ rest, "name:".toList ++ rest <:+: line ∧ isPadded name rest = true := by
  unfold isNameEntry at h
  split at h
  · rename_i rest hrest
    rw [isPrefixOf?_eq_some_iff] at hrest
    exact ⟨rest, hrest ▸ (List.dropWhile_suffix _).isInfix, h⟩
  · cases h

theorem infix_of_isNameEntry {name line : Text} (h : isNameEntry name line = true) :
    name <:+: line := by
  obtain ⟨rest, hline, hpadded⟩ := exists_of_isNameEntry h
  exact (infix_of_isPadded hpadded).trans ((List.suffix_append _ rest).isInfix.trans hline)

theorem key_infix_of_isNameEntry {name line : Text} (h : isNameEntry name line = true) :
    "name:".toList <:+: line := by
  obtain ⟨rest, hline, -⟩ := exists_of_isNameEntry h
  exact (List.prefix_append _ rest).isInfix.trans hline

theorem infix_of_infix_renameLine {name suffix : Text} {line : Line} (hw : IsLiteral w)
    (hmark : mark <:+: w) (hsuffix : monitorSuffix? project name = some suffix)
    (hchart : hasInfix mark ("name:".toList ++ chartName) = false)
    (hbare : hasInfix mark ('-' :: metricsMonitorSuffix) = false)
    (hocc : w <:+: renameLine name (chartName ++ '-' :: suffix) line) : w <:+: line := by
  unfold renameLine at hocc
  split at hocc
  · rename_i hentry
    rw [List.append_assoc] at hocc
    have hrenamed : w <:+: ("name:".toList ++ [' ']) ++ (chartName ++ '-' :: suffix) :=
      hw.infix_of_isWhite_append line.isWhite_leading hocc
    have hkey : ¬ w <:+: "name:".toList := fun h =>
      not_infix_of_mark hmark hchart (List.infix_append_of_infix_left h)
    have hname : ¬ w <:+: chartName := fun h =>
      not_infix_of_mark hmark hchart (List.infix_append_of_infix_right h)
    have hnew := (infix_concat_append (hw.not_mem_of_isWhiteSpace rfl) hrenamed).resolve_left hkey
    have htail : w <:+: '-' :: suffix :=
      infix_of_infix_closed_append (by decide) hw.no_close hname hnew
    rcases suffix_of_monitorSuffix? hsuffix with ⟨-, rfl⟩ | ⟨-, rfl⟩
    · exact (htail.trans (List.suffix_append _ _).isInfix).trans (infix_of_isNameEntry hentry)
    · exact absurd htail (not_infix_of_mark hmark hbare)
  · exact hocc

end Absent

/-! ## After one run -/

section Settled

variable {project t : Text} {resource : Resource} {line : Line}

theorem fillNamespace_eq_self (h : project ≠ [] → ¬ namespaceLiteral project <:+: t) :
    fillNamespace project t = t := by
  unfold fillNamespace
  split
  · rfl
  · rename_i hne
    rw [List.isEmpty_iff] at hne
    exact replaceAll_eq_self (h hne) releaseNamespace

theorem fillIssuer_eq_self (h : project ≠ [] → ¬ issuerLiteral project <:+: t) :
    fillIssuer project t = t := by
  unfold fillIssuer
  split
  · rfl
  · rename_i hne
    rw [List.isEmpty_iff] at hne
    exact replaceAll_eq_self (h hne) _

theorem fillIssuer_eq_self_iff (hsolid : ∀ c ∈ project, Unicode.isWhiteSpace c = false) :
    fillIssuer project t = t ↔ (project ≠ [] → ¬ issuerLiteral project <:+: t) := by
  have hword : IsWord (issuerLiteral project) := isWord_append hsolid ⟨by decide, by decide⟩
  have hspace : ' ' ∉ issuerLiteral project := hword.not_mem_of_isWhiteSpace rfl
  unfold fillIssuer
  split
  · rename_i hempty
    rw [List.isEmpty_iff] at hempty
    simp [hempty]
  · rename_i hne
    rw [List.isEmpty_iff] at hne
    rw [show project ++ issuerSuffix = issuerLiteral project from rfl,
      replaceAll_eq_self_iff hword.ne_nil hspace (by decide)]
    simp [hne]

theorem fillMetricsService_eq_self (hplaceholder : ¬ serviceAddressPlaceholder <:+: t)
    (hservice : ¬ metricsServiceLiteral project <:+: t) : fillMetricsService project t = t := by
  have hdomain : ¬ serviceAddressPlaceholder ++ clusterDomain <:+: t := fun h =>
    hplaceholder ((List.prefix_append _ _).isInfix.trans h)
  rw [fillMetricsService_eq, replaceAll_eq_self hdomain, replaceAll_eq_self hplaceholder,
    replaceAll_eq_self hservice]

theorem not_infix_fillNamespace (h : IsPlainProject project) (hne : project ≠ []) :
    ¬ namespaceLiteral project <:+: fillNamespace project t := by
  have hliteral := isLiteral_namespaceLiteral h
  have hmark : "-system".toList <:+: namespaceLiteral project :=
    (List.suffix_append project _).isInfix
  rw [fillNamespace, if_neg (by rwa [List.isEmpty_iff]), ← List.append_nil releaseNamespace]
  apply (isFilling_namespace project).not_infix_replaceAll hliteral.ne_nil hliteral.no_open
    hliteral.no_close (not_infix_of_mark hmark (by decide))
  intro piece hpiece htail
  exact absurd (List.suffix_nil.1 htail) hpiece

theorem not_infix_fillMetricsService (h : IsPlainProject project) :
    ¬ serviceAddressPlaceholder <:+: fillMetricsService project t ∧
      ¬ metricsServiceLiteral project <:+: fillMetricsService project t := by
  have hliteral := isLiteral_metricsServiceLiteral h
  rw [fillMetricsService_eq]
  constructor
  · intro hocc
    have hplaceholder := (isFilling_metricsService project).infix_of_infix_replaceAll
      hliteral.ne_nil (by decide) (by decide) (hasInfix_eq_false_iff.1 (by decide)) hocc
    revert hplaceholder
    apply isFilling_placeholder.not_infix_replaceAll (by decide) (by decide) (by decide)
      (hasInfix_eq_false_iff.1 (by decide))
    intro piece hpiece htail hstart
    obtain ⟨c, piece, rfl⟩ := List.exists_cons_of_ne_nil hpiece
    obtain ⟨rest, hrest⟩ := hstart
    have hhead : some c = some 'S' := congrArg List.head? hrest
    cases hhead
    exact absurd (htail.mem List.mem_cons_self) (by decide)
  · apply (isFilling_metricsService project).not_infix_replaceAll hliteral.ne_nil
      hliteral.no_open hliteral.no_close
    · have hmark : '-' :: metricsServiceSuffix <:+: metricsServiceLiteral project :=
        (List.suffix_append project _).isInfix
      exact not_infix_of_mark hmark (by decide)
    · intro piece hpiece htail
      exact absurd (List.suffix_nil.1 htail) hpiece

theorem parts_of_isManagedByBuild (h : isManagedByBuild line = true) :
    ∃ gap tail, line.dropWhile isIndentation =
        managedByLabel ++ (gap ++ ("kustomize".toList ++ tail)) ∧
      gap ≠ [] ∧ (∀ c ∈ gap, isIndentation c = true) ∧ ∀ c ∈ tail, isIndentation c = true := by
  unfold isManagedByBuild at h
  split at h
  · rename_i rest hrest
    rw [isPrefixOf?_eq_some_iff] at hrest
    rw [Bool.and_eq_true] at h
    obtain ⟨hgap, h⟩ := h
    split at h
    · rename_i tail htail
      rw [isPrefixOf?_eq_some_iff] at htail
      refine ⟨rest.takeWhile isIndentation, tail, ?_, ?_, fun _ hc => List.mem_takeWhile_imp hc,
        List.all_eq_true.1 h⟩
      · rw [hrest, ← htail, List.takeWhile_append_dropWhile]
      · cases rest with
        | nil => simp at hgap
        | cons c rest =>
            rw [List.takeWhile_cons_of_pos (by simpa using hgap)]
            exact List.cons_ne_nil c _
    · cases h
  · cases h

theorem isManagedByBuild_release (line : Line) : isManagedByBuild (line.leading ++ managedByLabel ++
    ' ' :: (Directive.value ".Release.Service".toList).render) = false := by
  rw [← Bool.not_eq_true]
  intro h
  obtain ⟨gap, tail, heq, hne, hgap, -⟩ := parts_of_isManagedByBuild h
  rw [List.append_assoc, line.dropWhile_leading_append rfl, List.append_cancel_left_eq] at heq
  obtain ⟨c, gap, rfl⟩ := List.exists_cons_of_ne_nil hne
  rw [List.cons_append, List.cons.injEq] at heq
  cases gap with
  | nil =>
      have hhead : some '{' = some 'k' := congrArg List.head? heq.2
      exact absurd hhead (by decide)
  | cons d gap =>
      have hd : isIndentation d = true := hgap d (by simp)
      have hhead : some '{' = some d := congrArg List.head? heq.2
      cases hhead
      exact absurd hd (by decide)

theorem fillManagedByLine_idem (line : Line) :
    fillManagedByLine (fillManagedByLine line) = fillManagedByLine line := by
  by_cases h : isManagedByBuild line
  · rw [fillManagedByLine, fillManagedByLine, if_pos h, isManagedByBuild_release]
    rfl
  · have hline : fillManagedByLine line = line := if_neg h
    rw [hline, hline]

theorem head_name_of_monitorSuffix? {name suffix : Text} (h : IsPlainProject project)
    (hsuffix : monitorSuffix? project name = some suffix) :
    ∃ c rest, name = c :: rest ∧ c ≠ ' ' ∧ c ≠ '{' := by
  rcases suffix_of_monitorSuffix? hsuffix with ⟨hne, rfl⟩ | ⟨rfl, -⟩
  · obtain ⟨c, rest, rfl⟩ := List.exists_cons_of_ne_nil hne
    refine ⟨c, rest ++ '-' :: suffix, rfl, ?_, ?_⟩
    · rintro rfl
      exact absurd (h.solid ' ' List.mem_cons_self) (by decide)
    · rintro rfl
      exact h.no_open List.mem_cons_self
  · exact ⟨_, _, rfl, by decide, by decide⟩

theorem isNameEntry_renamed {name suffix : Text} (h : IsPlainProject project)
    (hsuffix : monitorSuffix? project name = some suffix) (line : Line) :
    isNameEntry name (line.leading ++ "name: ".toList ++ (chartName ++ '-' :: suffix)) =
      false := by
  obtain ⟨c, rest, rfl, hspace, hbrace⟩ := head_name_of_monitorSuffix? h hsuffix
  have hvalue : "name: ".toList ++ (chartName ++ '-' :: suffix) =
      "name:".toList ++ ' ' :: '{' :: (chartName.tail ++ '-' :: suffix) := rfl
  rw [List.append_assoc, isNameEntry, line.dropWhile_leading_append rfl, hvalue,
    isPrefixOf?_eq_some_iff.2 rfl]
  simp [isPadded, isPrefixOf?_cons, hspace, hbrace, isIndentation]

theorem isNameEntry_fillManagedByLine {name : Text} (h : isNameEntry name line = false) :
    isNameEntry name (fillManagedByLine line) = false := by
  by_cases hmanaged : isManagedByBuild line
  · rw [fillManagedByLine, if_pos hmanaged, List.append_assoc, isNameEntry,
      line.dropWhile_leading_append rfl]
    rfl
  · rwa [fillManagedByLine, if_neg hmanaged]

theorem count_le_count_fillManagedByLine (line : Line) :
    line.count '{' ≤ (fillManagedByLine line).count '{' := by
  have hzero : ∀ s : Text, (∀ c ∈ s, isIndentation c = true) → s.count '{' = 0 := by
    intro s hs
    apply List.count_eq_zero_of_not_mem
    intro hmem
    exact absurd (hs '{' hmem) (by decide)
  by_cases h : isManagedByBuild line
  · obtain ⟨gap, tail, heq, -, hgap, htail⟩ := parts_of_isManagedByBuild h
    have hcount : line.count '{' = 0 := by
      rw [← List.takeWhile_append_dropWhile (p := isIndentation) (l := line), heq]
      simp only [List.count_append, hzero _ hgap, hzero _ htail,
        hzero _ fun c hc => List.mem_takeWhile_imp hc]
      decide
    omega
  · rw [fillManagedByLine, if_neg h]

/-! ## The second run -/

theorem IsLinewise.not_mem_newline {f : Text → Text} (hf : IsLinewise f) (hline : '\n' ∉ line) :
    '\n' ∉ f line := by
  have h := hf line
  rw [lines, lines, pieces_eq_singleton hline, List.map_singleton] at h
  exact not_mem_of_mem_pieces (h ▸ List.mem_singleton_self _)

theorem fill_line (hsolid : ∀ c ∈ project, Unicode.isWhiteSpace c = false)
    (hname : '\n' ∉ resource.name) (hline : '\n' ∉ line) : fill project resource line =
      fillManagedByLine (fillKind project resource (fillNamespace project line)) := by
  have hkind := (isLinewise_fillKind hsolid hname).comp (isLinewise_fillNamespace hsolid)
  exact overLines_map_line (hkind.not_mem_newline hline)

theorem fillMonitor_line (hname : '\n' ∉ resource.name) (hline : '\n' ∉ line) :
    fillMonitor project resource line =
      match monitorSuffix? project resource.name with
      | some suffix => renameLine resource.name (chartName ++ '-' :: suffix) line
      | none => line := by
  unfold fillMonitor
  cases hempty : resource.name with
  | nil =>
      cases hsuffix : monitorSuffix? project [] with
      | none => rfl
      | some suffix =>
          rcases suffix_of_monitorSuffix? hsuffix with ⟨-, heq⟩ | ⟨heq, -⟩
          · simp at heq
          · exact absurd heq (by decide)
  | cons c rest =>
      rw [← hempty, List.isEmpty_eq_false_iff.2 (by simp [hempty])]
      cases monitorSuffix? project resource.name with
      | none => rfl
      | some suffix =>
          simp only [List.count_eq_zero_of_not_mem hname, Bool.false_eq_true, if_false, overLines,
            renameEntries_eq_map]
          exact overLines_map_line hline

theorem infix_of_infix_fillCertificate {w mark : Text} (h : IsPlainProject project)
    (hw : IsLiteral w) (hmark : mark <:+: w) (haddress : hasInfix mark metricsAddress = false)
    (hservice : hasInfix mark metricsServiceName = false)
    (hchart : hasInfix mark chartName = false)
    (hocc : w <:+: fillCertificate project resource t) : w <:+: t := by
  unfold fillCertificate at hocc
  split at hocc
  · exact hocc
  · have hocc := infix_of_infix_fillIssuer h hw hmark hchart hocc
    split at hocc
    · exact infix_of_infix_fillMetricsService h hw hmark haddress hservice hocc
    · exact hocc

theorem fillNamespace_fill (h : IsPlainProject project) (hname : '\n' ∉ resource.name)
    (hline : '\n' ∉ line) :
    fillNamespace project (fill project resource line) = fill project resource line := by
  apply fillNamespace_eq_self
  intro hne hocc
  have hw := isLiteral_namespaceLiteral h
  have hmark : "-system".toList <:+: namespaceLiteral project :=
    (List.suffix_append project _).isInfix
  rw [fill_line h.solid hname hline] at hocc
  have hocc := infix_of_infix_fillManagedByLine hw hmark (by decide) hocc
  apply not_infix_fillNamespace h hne
  unfold fillKind at hocc
  split at hocc
  · exact infix_of_infix_fillCertificate h hw hmark (by decide) (by decide) (by decide) hocc
  · split at hocc
    · exact infix_of_infix_fillIssuer h hw hmark (by decide) hocc
    · split at hocc
      · have hbreak := (isLinewise_fillNamespace h.solid).not_mem_newline hline
        rw [fillMonitor_line hname hbreak] at hocc
        split at hocc
        · rename_i suffix hsuffix
          exact infix_of_infix_renameLine hw hmark hsuffix (by decide) (by decide) hocc
        · exact hocc
      · exact hocc

theorem fillMetricsService_fill (h : IsPlainProject project) (hname : '\n' ∉ resource.name)
    (hkind : resource.isKind .certificate = true) (hmetrics : resource.isForMetrics = true)
    (hne : project ≠ []) (hline : '\n' ∉ line) :
    fillMetricsService project (fill project resource line) = fill project resource line := by
  have hservice : '-' :: metricsServiceSuffix <:+: metricsServiceLiteral project :=
    (List.suffix_append project _).isInfix
  obtain ⟨hplaceholder, hliteral⟩ := not_infix_fillMetricsService h
    (t := fillNamespace project line)
  rw [fill_line h.solid hname hline, fillKind, if_pos hkind, fillCertificate,
    if_neg (by rwa [List.isEmpty_iff]), if_pos hmetrics]
  apply fillMetricsService_eq_self
  · intro hocc
    have hw := isLiteral_serviceAddressPlaceholder
    have hocc := infix_of_infix_fillManagedByLine hw List.infix_rfl (by decide) hocc
    exact hplaceholder (infix_of_infix_fillIssuer h hw List.infix_rfl (by decide) hocc)
  · intro hocc
    have hw := isLiteral_metricsServiceLiteral h
    have hocc := infix_of_infix_fillManagedByLine hw hservice (by decide) hocc
    exact hliteral (infix_of_infix_fillIssuer h hw hservice (by decide) hocc)

/-- A second run of the substitutions on a line is one of the issuer alone. -/
theorem fill_fill (h : IsPlainProject project) (hname : '\n' ∉ resource.name)
    (hline : '\n' ∉ line) :
    fill project resource (fill project resource line) =
      fillManagedByLine (if renamesIssuer resource then
        fillIssuer project (fill project resource line) else fill project resource line) := by
  have hfilled := (isLinewise_fill h.solid hname).not_mem_newline hline
  rw [fill_line h.solid hname hfilled, fillNamespace_fill h hname hline]
  apply congrArg
  unfold renamesIssuer fillKind
  cases hcertificate : resource.isKind .certificate with
  | true =>
      simp only [if_true, Bool.true_or]
      unfold fillCertificate
      by_cases hne : project = []
      · simp [hne, fillIssuer]
      · rw [if_neg (by rwa [List.isEmpty_iff])]
        by_cases hmetrics : resource.isForMetrics = true
        · rw [if_pos hmetrics, fillMetricsService_fill h hname hcertificate hmetrics hne hline]
        · rw [if_neg hmetrics]
  | false =>
      cases hissuer : resource.isKind .issuer with
      | true => simp
      | false =>
          simp only [Bool.false_eq_true, if_false, Bool.or_self]
          by_cases hmonitor : resource.isKind .serviceMonitor = true
          · rw [if_pos hmonitor, fillMonitor_line hname hfilled]
            cases hsuffix : monitorSuffix? project resource.name with
            | none => rfl
            | some suffix =>
                have hkind : fill project resource line = fillManagedByLine (renameLine
                    resource.name (chartName ++ '-' :: suffix) (fillNamespace project line)) := by
                  rw [fill_line h.solid hname hline, fillKind, hcertificate, hissuer, hmonitor,
                    fillMonitor_line hname
                      ((isLinewise_fillNamespace h.solid).not_mem_newline hline), hsuffix]
                  rfl
                apply if_neg
                rw [hkind, Bool.not_eq_true]
                apply isNameEntry_fillManagedByLine
                by_cases hentry : isNameEntry resource.name (fillNamespace project line) = true
                · rw [renameLine, if_pos hentry]
                  exact isNameEntry_renamed h hsuffix _
                · rw [renameLine, if_neg hentry]
                  simpa using hentry
          · rw [if_neg hmonitor]

end Settled

end OperatorChart.Naming
