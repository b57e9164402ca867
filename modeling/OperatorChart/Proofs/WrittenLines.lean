import OperatorChart.Proofs.AddedLines
import OperatorChart.Proofs.FieldMoves
/-!
# Lines that are written

A line of a manifest holds no directive, and every line that an edit writes holds the lookups of
this edit only. A line with the opening or the closing of a guard somewhere in it is that opening
or closing, and the openings of certificates come with the guards of certificates.
-/

namespace OperatorChart

open Text

/-- What fields, images and arguments are looked up by, in the order of the edits. -/
def lookupPaths : List Text :=
  [Values.imageRepository, Values.env.path, Values.podSecurityContext.path,
    Values.containerSecurityContext.path, Values.resources.path, Values.argsPath]

def certificateConditions : List Condition :=
  [.certManager, .certManagerAndMetrics]

namespace Line

def opensCertificate (line : Line) : Bool :=
  certificateConditions.any (·.isOpenedBy (some line))

/-- Whether a line says by its start what it holds about guards. -/
structure IsHonest (line : Line) : Prop where
  opening : BlankRuns.hasOpening line = true → line.role = .ifThen
  closing : BlankRuns.hasClosing line = true → line.role = .close

def Avoids (words : List Text) (t : Text) : Prop :=
  ∀ w ∈ words, ¬ w <:+: t

/-- Whether a line is one of a manifest, or one that an edit writes for lookups other than the
given ones. -/
structure IsTidy (words : List Text) (line : Line) : Prop where
  honest : line.IsHonest
  unopened : line.opensCertificate = false
  avoids : Avoids words line

section Words

variable {words words' : List Text} {s t : Text} {c : Char}

theorem Avoids.mono (h : Avoids words t) (hwords : ∀ w ∈ words', w ∈ words) : Avoids words' t :=
  fun w hw => h w (hwords w hw)

theorem IsTidy.mono {line : Line} (h : line.IsTidy words) (hwords : ∀ w ∈ words', w ∈ words) :
    line.IsTidy words' :=
  ⟨h.honest, h.unopened, h.avoids.mono hwords⟩

theorem avoids_iff : Avoids words t ↔ words.all (fun w => !hasInfix w t) = true := by
  simp [Avoids, hasInfix_eq_false_iff]

instance : Decidable (Avoids words t) :=
  decidable_of_iff _ avoids_iff.symm

theorem isWord_of_mem_lookupPaths {w : Text} (h : w ∈ lookupPaths) :
    IsWord w ∧ '.' ∈ w ∧ '-' ∉ w := by
  have hall : ∀ w ∈ lookupPaths, w ≠ [] ∧ (∀ c ∈ w, Unicode.isWhiteSpace c = false) ∧
      '.' ∈ w ∧ '-' ∉ w := by decide
  obtain ⟨hne, hsolid, hdot, hdash⟩ := hall w h
  exact ⟨⟨hne, hsolid⟩, hdot, hdash⟩

variable (hwords : ∀ w ∈ words, w ∈ lookupPaths)

include hwords

theorem avoids_append_space (hs : Avoids words s) (ht : Avoids words t) :
    Avoids words (s ++ ' ' :: t) := by
  intro w hw hocc
  have hspace := (isWord_of_mem_lookupPaths (hwords w hw)).1.not_mem_of_isWhiteSpace (c := ' ') rfl
  exact (infix_append_cons hspace hocc).elim (hs w hw) (ht w hw)

theorem avoids_append_left (hs : ∀ c ∈ s, IsLead c) (ht : Avoids words t) :
    Avoids words (s ++ t) := by
  intro w hw hocc
  obtain ⟨hword, -, hdash⟩ := isWord_of_mem_lookupPaths (hwords w hw)
  refine ht w hw (infix_of_infix_append hword.ne_nil (fun c hc hmem => ?_) hocc)
  rcases hs c hc with hwhite | rfl
  · rw [hword.solid c hmem] at hwhite
    cases hwhite
  · exact hdash hmem

theorem avoids_ofNat (n : Nat) : Avoids words (ofNat n) := by
  intro w hw hocc
  obtain ⟨-, hdot, -⟩ := isWord_of_mem_lookupPaths (hwords w hw)
  exact not_mem_ofNat (by decide) n (hocc.mem hdot)

end Words

/-! ## Honest lines -/

section Honest

variable {line : Line} {s : Text}

theorem IsPlain.isHonest (h : line.IsPlain) : line.IsHonest := by
  constructor
  · intro hocc
    exact absurd (List.IsInfix.trans (by decide) (hasInfix_iff.1 hocc)) h
  · intro hocc
    exact absurd (List.IsInfix.trans (by decide) (hasInfix_iff.1 hocc)) h

theorem IsPlain.not_opensCertificate (h : line.IsPlain) : line.opensCertificate = false := by
  rw [opensCertificate, List.any_eq_false]
  intro condition hcondition
  have hopening : ∀ condition ∈ certificateConditions,
      "\x7b\x7b-".toList <:+: condition.opening := by
    decide
  rw [Condition.isOpenedBy, beq_iff_eq]
  intro heq
  exact h ((hopening condition hcondition).trans (heq ▸ line.trimmed_infix))

theorem IsPlain.isTidy {words : List Text} (h : line.IsPlain) (havoids : Avoids words line) :
    line.IsTidy words :=
  ⟨h.isHonest, h.not_opensCertificate, havoids⟩

theorem prefix_of_infix_directive (hs : '{' ∉ s) {mark rest : Text}
    (hrest : '{' ∉ rest) (h : '{' :: '{' :: mark <:+: s ++ '{' :: '{' :: rest) :
    mark <+: rest := by
  have hnext : '{' :: '{' :: mark <:+: '{' :: '{' :: rest := by
    induction s with
    | nil => exact h
    | cons c s ih =>
        rw [List.mem_cons, not_or] at hs
        refine ih hs.2 ((List.infix_cons_iff.1 h).resolve_left fun hstart => ?_)
        exact hs.1 (List.cons_prefix_cons.1 hstart).1
  rcases List.infix_cons_iff.1 hnext with hstart | hocc
  · exact (List.cons_prefix_cons.1 (List.cons_prefix_cons.1 hstart).2).2
  · rcases List.infix_cons_iff.1 hocc with hstart | hocc
    · have hmem := (List.cons_prefix_cons.1 hstart).2.mem (List.mem_cons_self (a := '{'))
      exact absurd hmem hrest
    · exact absurd (hocc.mem (by simp)) hrest

theorem isHonest_directive (hs : ∀ c ∈ s, isIndentation c = true) {directive : Directive}
    (hbrace : '{' ∉ directive.render.drop 2)
    (hend : Directive.close.render <+: directive.render → directive = .close) :
    IsHonest (s ++ directive.render) := by
  have hnot : '{' ∉ s := fun h => absurd (hs '{' h) (by decide)
  obtain ⟨rest, hrest⟩ : ∃ rest, directive.render = '{' :: '{' :: rest := by
    cases directive <;> exact ⟨_, rfl⟩
  rw [hrest] at hbrace
  have hstart : ∀ mark, '{' :: '{' :: mark <:+: s ++ directive.render →
      '{' :: '{' :: mark <+: directive.render := by
    intro mark hocc
    rw [hrest] at hocc ⊢
    exact List.cons_prefix_cons.2 ⟨rfl, List.cons_prefix_cons.2
      ⟨rfl, prefix_of_infix_directive hnot hbrace hocc⟩⟩
  constructor
  · intro hocc
    rw [role, trimmed_directive hs, if_pos]
    exact List.isPrefixOf_iff_prefix.2 (hstart _ (hasInfix_iff.1 hocc))
  · intro hocc
    rw [hend (hstart _ (hasInfix_iff.1 hocc))]
    exact role_close hs

theorem isHonest_ifThen (hs : ∀ c ∈ s, isIndentation c = true) {expression : Text}
    (hbrace : '{' ∉ expression) : IsHonest (s ++ (Directive.ifThen expression).render) := by
  have hstart := List.prefix_append "\x7b\x7b- if ".toList (expression ++ " \x7d\x7d".toList)
  refine isHonest_directive hs ?_ fun hend => ?_
  · rw [Directive.render_ifThen, List.append_assoc, List.drop_append_of_le_length (by decide),
      List.mem_append, List.mem_append, not_or, not_or]
    exact ⟨by decide, hbrace, by decide⟩
  · rw [Directive.render_ifThen, List.append_assoc] at hend
    have hshort := List.prefix_of_prefix_length_le
      (List.IsPrefix.trans (List.take_prefix 5 Directive.close.render) hend) hstart (by decide)
    exact absurd hshort (by decide)

/-- The opening of a guard opens the guard of a certificate for its own condition only. -/
theorem not_opensCertificate_ifThen (hs : ∀ c ∈ s, isIndentation c = true) {expression : Text}
    (hne : ∀ condition ∈ certificateConditions, expression ≠ condition.expression) :
    opensCertificate (s ++ (Directive.ifThen expression).render) = false := by
  rw [opensCertificate, List.any_eq_false]
  intro condition hcondition
  rw [Condition.isOpenedBy, trimmed_directive hs, beq_iff_eq, Condition.opening,
    Directive.render_ifThen, Directive.render_ifThen]
  intro heq
  exact hne condition hcondition (List.append_cancel_left (List.append_cancel_right heq))

theorem role_of_isOpenedBy {line : Line} {condition : Condition}
    (h : condition.isOpenedBy (some line) = true) : line.role = .ifThen := by
  rw [Condition.isOpenedBy, beq_iff_eq] at h
  rw [role, h, if_pos]
  rw [List.isPrefixOf_iff_prefix, Condition.opening, Directive.render_ifThen, List.append_assoc]
  exact List.prefix_append _ _

theorem isOpenedBy_opening (line : Line) (condition : Condition) :
    condition.isOpenedBy (some (line.leading ++ condition.opening)) = true := by
  rw [Condition.isOpenedBy, beq_iff_eq]
  exact trimmed_directive (fun _ => isIndentation_of_mem_leading) (.ifThen condition.expression)

theorem eq_of_isOpenedBy {line : Line} {condition other : Condition}
    (h : condition.isOpenedBy (some (line.leading ++ other.opening)) = true) :
    condition = other := by
  have hother := line.isOpenedBy_opening other
  rw [Condition.isOpenedBy, beq_iff_eq] at h hother
  exact Condition.opening_injective (h.symm.trans hother)

theorem not_opensCertificate_of_role {line : Line} (h : line.role ≠ .ifThen) :
    line.opensCertificate = false := by
  rw [opensCertificate, List.any_eq_false]
  exact fun condition _ hopened => h (role_of_isOpenedBy hopened)

theorem not_opensCertificate_close (line : Line) :
    opensCertificate (line.leading ++ Directive.close.render) = false := by
  refine not_opensCertificate_of_role ?_
  rw [role_close fun _ => isIndentation_of_mem_leading]
  decide

end Honest

end Line

/-! ## What fields write -/

namespace ValuesField

variable {field : ValuesField} {words : List Text} {width : Nat} {line : Line}

structure HasPath (field : ValuesField) : Prop extends field.IsSound where
  path_brace : '{' ∉ field.path
  key_avoids : Line.Avoids lookupPaths (field.key ++ [':'])
  path_certificate : ∀ condition ∈ certificateConditions, field.path ≠ condition.expression

theorem hasPath_env : Values.env.HasPath :=
  ⟨Values.isSound_env, by decide, by decide, by decide⟩

theorem hasPath_podSecurityContext : Values.podSecurityContext.HasPath :=
  ⟨Values.isSound_podSecurityContext, by decide, by decide, by decide⟩

theorem hasPath_containerSecurityContext : Values.containerSecurityContext.HasPath :=
  ⟨Values.isSound_containerSecurityContext, by decide, by decide, by decide⟩

theorem hasPath_resources : Values.resources.HasPath :=
  ⟨Values.isSound_resources, by decide, by decide, by decide⟩

theorem isHonest_lookup (hbrace : '{' ∉ field.path) (width : Nat) :
    Line.IsHonest (padding width ++ (Directive.trimmedValue (field.lookup width)).render) := by
  have hrender : (Directive.trimmedValue (field.lookup width)).render =
      "\x7b\x7b- toYaml ".toList ++ (field.path ++ (" | nindent ".toList ++
        (ofNat width ++ " \x7d\x7d".toList))) := by
    rw [Directive.render_trimmedValue, lookup_eq]
    simp only [List.append_assoc]
    rfl
  have hnumber : '{' ∉ ofNat width := not_mem_ofNat rfl width
  refine Line.isHonest_directive (isIndentation_padding width) ?_ fun hend => ?_
  · rw [hrender, List.drop_append_of_le_length (by decide)]
    simp only [List.mem_append, not_or]
    exact ⟨by decide, hbrace, by decide, hnumber, by decide⟩
  · rw [hrender] at hend
    have hshort := List.prefix_of_prefix_length_le
      (List.IsPrefix.trans (List.take_prefix 5 Directive.close.render) hend)
      (List.prefix_append "\x7b\x7b- toYaml ".toList _) (by decide)
    exact absurd hshort (by decide)

theorem avoids_lookup (hwords : ∀ w ∈ words, w ∈ lookupPaths) (h : Line.Avoids words field.path)
    (width : Nat) : Line.Avoids words (Directive.trimmedValue (field.lookup width)).render := by
  have hrender : (Directive.trimmedValue (field.lookup width)).render =
      "\x7b\x7b- toYaml".toList ++ ' ' :: (field.path ++ ' ' :: ("| nindent".toList ++
        ' ' :: (ofNat width ++ ' ' :: "\x7d\x7d".toList))) := by
    rw [Directive.render_trimmedValue, lookup_eq]
    simp only [List.append_assoc]
    rfl
  have hshort : ∀ t ∈ ["\x7b\x7b- toYaml".toList, "| nindent".toList, "\x7d\x7d".toList],
      Line.Avoids lookupPaths t := by decide
  have hshort : ∀ t ∈ ["\x7b\x7b- toYaml".toList, "| nindent".toList, "\x7d\x7d".toList],
      Line.Avoids words t := fun t ht => (hshort t ht).mono hwords
  rw [hrender]
  exact Line.avoids_append_space hwords (hshort _ (by simp)) (Line.avoids_append_space hwords h
    (Line.avoids_append_space hwords (hshort _ (by simp)) (Line.avoids_append_space hwords
      (Line.avoids_ofNat hwords width) (hshort _ (by simp)))))

theorem isTidy_value (h : field.HasPath) (hwords : ∀ w ∈ words, w ∈ lookupPaths)
    (hpath : Line.Avoids words field.path) (hline : line ∈ field.value width) :
    line.IsTidy words := by
  have hs := isIndentation_padding width
  have hleft : ∀ {t : Text}, Line.Avoids words t → Line.Avoids words (padding width ++ t) :=
    Line.avoids_append_left hwords fun c hc => .inl (isWhiteSpace_of_isIndentation (hs c hc))
  have hshort : ∀ t ∈ ["\x7b\x7b- if".toList, "\x7d\x7d".toList, Directive.otherwise.render,
      Directive.close.render, "[]".toList, "\x7b\x7d".toList], Line.Avoids lookupPaths t := by
    decide
  have hshort : ∀ t ∈ ["\x7b\x7b- if".toList, "\x7d\x7d".toList, Directive.otherwise.render,
      Directive.close.render, "[]".toList, "\x7b\x7d".toList], Line.Avoids words t :=
    fun t ht => (hshort t ht).mono hwords
  have hif : Line.Avoids words (Directive.ifThen field.path).render := by
    rw [Directive.render_ifThen_blanks]
    exact Line.avoids_append_space hwords (hshort _ (by simp))
      (Line.avoids_append_space hwords hpath (hshort _ (by simp)))
  have hfallback : Line.Avoids words field.fallback := by
    rcases h.fallback with heq | heq <;> rw [heq] <;> exact hshort _ (by simp)
  simp only [value, List.map_cons, List.map_nil, List.mem_cons, List.not_mem_nil,
    or_false] at hline
  rcases hline with rfl | rfl | rfl | rfl | rfl
  · exact ⟨Line.isHonest_ifThen hs h.path_brace,
      Line.not_opensCertificate_ifThen hs h.path_certificate, hleft hif⟩
  · refine ⟨isHonest_lookup h.path_brace width, Line.not_opensCertificate_of_role ?_,
      hleft (avoids_lookup hwords hpath width)⟩
    rw [role_lookup field hs width]
    decide
  · refine ⟨Line.isHonest_directive hs (by decide) (by decide),
      Line.not_opensCertificate_of_role ?_, hleft (hshort _ (by simp))⟩
    rw [Line.role_otherwise hs]
    decide
  · exact (isPlain_fallback h.toIsSound).isTidy (hleft hfallback)
  · refine ⟨Line.isHonest_directive hs (by decide) (by decide),
      Line.not_opensCertificate_of_role ?_, hleft (hshort _ (by simp))⟩
    rw [Line.role_close hs]
    decide

theorem isTidy_lead (h : field.HasPath) (hwords : ∀ w ∈ words, w ∈ lookupPaths) {s : Text}
    (hs : ∀ c ∈ s, Line.IsLead c) : Line.IsTidy words (s ++ field.key ++ [':']) := by
  rw [List.append_assoc]
  refine (Line.isPlain_of_not_mem ?_).isTidy
    (Line.avoids_append_left hwords hs (h.key_avoids.mono hwords))
  intro hmem
  rcases List.mem_append.1 hmem with hmem | hmem
  · exact absurd (hs '{' hmem) (by rintro (h | h) <;> cases h)
  · rcases List.mem_append.1 hmem with hmem | hmem
    · exact h.key_brace hmem
    · exact absurd hmem (by decide)

theorem isTidy_entryAt (h : field.HasPath) (hwords : ∀ w ∈ words, w ∈ lookupPaths) (line : Line) :
    (field.entryAt line).IsTidy words := by
  rw [entryAt, Line.withEntry, ← List.append_assoc]
  refine isTidy_lead h hwords fun c hc => ?_
  rcases List.mem_append.1 hc with hc | hc
  · exact .inl (isWhiteSpace_of_isIndentation (Line.isIndentation_of_mem_leading hc))
  · exact Line.isLead_of_mem_marker hc

theorem isTidy_padded (h : field.HasPath) (hwords : ∀ w ∈ words, w ∈ lookupPaths) (width : Nat) :
    Line.IsTidy words (padding width ++ field.key ++ [':']) :=
  isTidy_lead h hwords fun c hc =>
    .inl (isWhiteSpace_of_isIndentation (isIndentation_padding width c hc))

end ValuesField

end OperatorChart
