import OperatorChart.Proofs.NamingStability
/-!
# What the substitutions of names keep of a line

A line that holds nothing to substitute stays as it is. On any other line a substitution keeps
what stands before the first expression, so it never makes a key out of something else.
-/

namespace OperatorChart.Naming

open Text

/-! ## Lines without a name -/

/-- A part of each text that a substitution looks for. -/
def marks : List Text :=
  ["-system".toList, serviceAddressPlaceholder, '-' :: metricsServiceSuffix, issuerSuffix,
    "name:".toList, managedByLabel]

theorem isWord_of_mem_marks {mark : Text} (h : mark ∈ marks) : IsWord mark := by
  simp only [marks, List.mem_cons, List.not_mem_nil, or_false] at h
  rcases h with rfl | rfl | rfl | rfl | rfl | rfl <;> exact ⟨by decide, by decide⟩

section Unnamed

variable {project t : Text} {resource : Resource} {line : Line}

theorem fillCertificate_eq_self (hmarks : ∀ mark ∈ marks, ¬ mark <:+: t) :
    fillCertificate project resource t = t := by
  have hissuer : fillIssuer project t = t := fillIssuer_eq_self fun _ hocc =>
    hmarks issuerSuffix (by decide) ((List.suffix_append project _).isInfix.trans hocc)
  have hservice : fillMetricsService project t = t := by
    apply fillMetricsService_eq_self
    · exact hmarks serviceAddressPlaceholder (by decide)
    · intro hocc
      exact hmarks ('-' :: metricsServiceSuffix) (by decide)
        ((List.suffix_append project _).isInfix.trans hocc)
  unfold fillCertificate
  split
  · rfl
  · split
    · rw [hservice, hissuer]
    · exact hissuer

theorem fill_eq_self (hsolid : ∀ c ∈ project, Unicode.isWhiteSpace c = false)
    (hname : '\n' ∉ resource.name)
    (hline : '\n' ∉ line) (hmarks : ∀ mark ∈ marks, ¬ mark <:+: line) :
    fill project resource line = line := by
  have hnamespace : fillNamespace project line = line := fillNamespace_eq_self fun _ hocc =>
    hmarks "-system".toList (by decide) ((List.suffix_append project _).isInfix.trans hocc)
  have hissuer : fillIssuer project line = line := fillIssuer_eq_self fun _ hocc =>
    hmarks issuerSuffix (by decide) ((List.suffix_append project _).isInfix.trans hocc)
  have hmonitor : fillMonitor project resource line = line := by
    rw [fillMonitor_line hname hline]
    split
    · apply if_neg
      intro hentry
      exact hmarks "name:".toList (by decide) (key_infix_of_isNameEntry hentry)
    · rfl
  have hkind : fillKind project resource line = line := by
    unfold fillKind
    split
    · exact fillCertificate_eq_self hmarks
    · split
      · exact hissuer
      · split
        · exact hmonitor
        · rfl
  rw [fill_line hsolid hname hline, hnamespace, hkind, fillManagedByLine, if_neg]
  intro hmanaged
  exact hmarks managedByLabel (by decide) (infix_of_isManagedByBuild hmanaged)

theorem fill_of_isBlank (hsolid : ∀ c ∈ project, Unicode.isWhiteSpace c = false)
    (hname : '\n' ∉ resource.name)
    (hline : '\n' ∉ line) (hblank : line.isBlank = true) : fill project resource line = line :=
  fill_eq_self hsolid hname hline fun _ hmark =>
    (isWord_of_mem_marks hmark).not_infix_of_isWhite (isBlank_iff.1 hblank)

theorem fill_of_opening (hsolid : ∀ c ∈ project, Unicode.isWhiteSpace c = false)
    (hname : '\n' ∉ resource.name)
    (hline : '\n' ∉ line) {condition : Condition} (hopening : line.trimmed = condition.opening) :
    fill project resource line = line := by
  apply fill_eq_self hsolid hname hline
  intro mark hmark hocc
  have htrimmed : mark <:+: condition.opening :=
    hopening ▸ (isWord_of_mem_marks hmark).infix_trim hocc
  have hnone : ∀ mark ∈ marks, hasInfix mark condition.opening = false := by
    cases condition <;> decide
  exact hasInfix_eq_false_iff.1 (hnone mark hmark) htrimmed

end Unnamed

/-! ## Keys -/

def managedByKey : Text :=
  "app.kubernetes.io/managed-by".toList

section Keys

variable {project s m key rest : Text} {line : Line}

theorem not_mem_brace_of_isWhite (hs : IsWhite s) : '{' ∉ s := by
  intro h
  exact absurd (hs '{' h) (by decide)

theorem not_mem_brace_of_isMarker (hm : Line.IsMarker m) : '{' ∉ m := by
  rcases hm with rfl | ⟨gap, hgap, rfl⟩
  · simp
  · have hbrace := not_mem_brace_of_isWhite hgap
    simpa using hbrace

/-- A substitution keeps what stands before the first expression. -/
theorem prefix_of_prefix_fillNamespace (h : IsPlainProject project) (hs : '{' ∉ s)
    (hstart : s <+: fillNamespace project line) : s <+: line := by
  unfold fillNamespace at hstart
  split at hstart
  · exact hstart
  · rw [← List.append_nil releaseNamespace] at hstart
    exact (isFilling_namespace project).prefix_of_prefix_replaceAll
      (isLiteral_namespaceLiteral h).ne_nil hs hstart

theorem parts_of_fillNamespace (h : IsPlainProject project) (hs : IsWhite s)
    (hm : Line.IsMarker m) (hkey : '{' ∉ key)
    (hparts : fillNamespace project line = s ++ m ++ (key ++ ':' :: rest)) :
    ∃ rest', line = s ++ m ++ (key ++ ':' :: rest') := by
  have hbrace : '{' ∉ s ++ m ++ (key ++ [':']) := by
    have hs := not_mem_brace_of_isWhite hs
    have hm := not_mem_brace_of_isMarker hm
    simp [hs, hm, hkey]
  have hstart : s ++ m ++ (key ++ [':']) <+: fillNamespace project line :=
    ⟨rest, by rw [hparts]; simp⟩
  obtain ⟨rest', hrest⟩ := prefix_of_prefix_fillNamespace h hbrace hstart
  exact ⟨rest', by rw [← hrest]; simp⟩

theorem hasKey_of_hasKey_fillNamespace (h : IsPlainProject project) (hkey : Line.IsPlainKey key)
    (hbrace : '{' ∉ key) (hhas : Line.hasKey (fillNamespace project line) key = true) :
    line.hasKey key = true ∧ Line.indent (fillNamespace project line) = line.indent := by
  obtain ⟨s, m, rest, hs, hm, hparts⟩ := Line.eq_of_hasKey hhas
  obtain ⟨rest', rfl⟩ := parts_of_fillNamespace h hs hm hbrace hparts
  refine ⟨Line.hasKey_append hs hm hkey rest', ?_⟩
  rw [hparts, Line.indent, Line.indent, ← List.append_assoc, ← List.append_assoc]
  obtain ⟨c, tail, rfl, hc⟩ := hkey.exists_head m
  rw [Line.leading_append_of_mem (by simp) hc.solid]

theorem hasKey_managedBy (line : Line) (rest : Text) :
    Line.hasKey (line.leading ++ managedByLabel ++ rest) managedByKey = true := by
  have h := Line.hasKey_append line.isWhite_leading (.inl rfl)
    (⟨by decide, by decide, by decide⟩ : Line.IsPlainKey managedByKey) rest
  rwa [List.append_nil, ← List.singleton_append, ← List.append_assoc managedByKey,
    ← List.append_assoc] at h

theorem fillManagedByLine_of_hasKey (hne : key ≠ managedByKey)
    (hhas : Line.hasKey (fillManagedByLine line) key = true) : fillManagedByLine line = line := by
  by_cases hmanaged : isManagedByBuild line
  · rw [fillManagedByLine, if_pos hmanaged] at hhas
    exact absurd (Line.hasKey_unique hhas (hasKey_managedBy line _)) hne
  · exact if_neg hmanaged

end Keys

end OperatorChart.Naming
