import OperatorChart.Proofs.Groups
import OperatorChart.Proofs.GuardSteps
import OperatorChart.Values.Args
import OperatorChart.Values.Image
/-!
# The lines of a field

What an edit writes for a key whose value is looked up: the key itself, behind what stood before
it, and a guarded value two columns deeper than the key stood before.
-/

namespace OperatorChart

open Text

structure ValuesField.IsSound (field : ValuesField) : Prop where
  key : Line.IsPlainKey field.key
  key_brace : '{' ∉ field.key
  key_newline : '\n' ∉ field.key
  path_colon : ':' ∉ field.path
  path_newline : '\n' ∉ field.path
  fallback : field.fallback = "[]".toList ∨ field.fallback = "\x7b\x7d".toList

namespace Values

theorem isSound_env : env.IsSound :=
  ⟨⟨by decide, by decide, by decide⟩, by decide, by decide, by decide, by decide, .inl rfl⟩

theorem isSound_resources : resources.IsSound :=
  ⟨⟨by decide, by decide, by decide⟩, by decide, by decide, by decide, by decide, .inr rfl⟩

theorem isSound_podSecurityContext : podSecurityContext.IsSound :=
  ⟨⟨by decide, by decide, by decide⟩, by decide, by decide, by decide, by decide, .inr rfl⟩

theorem isSound_containerSecurityContext : containerSecurityContext.IsSound :=
  ⟨⟨by decide, by decide, by decide⟩, by decide, by decide, by decide, by decide, .inr rfl⟩

end Values

/-! ## Padding and numbers -/

theorem isIndentation_padding (width : Nat) : ∀ c ∈ padding width, isIndentation c = true := by
  intro c hc
  rw [List.eq_of_mem_replicate hc]
  rfl

@[simp] theorem length_padding (width : Nat) : (padding width).length = width :=
  List.length_replicate

theorem not_mem_ofNat {c : Char} (h : c.isDigit = false) (n : Nat) : c ∉ ofNat n := by
  intro hmem
  rw [Nat.isDigit_of_mem_toDigits (by decide) (by decide) hmem] at h
  cases h

theorem not_mem_padding {c : Char} (h : isIndentation c = false) (width : Nat) :
    c ∉ padding width := by
  intro hmem
  rw [isIndentation_padding width c hmem] at h
  cases h

/-! ## The guarded value -/

section Inner

variable {s rest : Text} {c : Char} {column : Nat}

theorem Line.isInner_cons (hs : ∀ c ∈ s, isIndentation c = true)
    (hc : Unicode.isWhiteSpace c = false) (hdash : c ≠ '-') (hcolon : ':' ∉ c :: rest)
    (hdeep : column < s.length) : Line.IsInner column (s ++ c :: rest) := by
  have hwhite : IsWhite s := fun d hd => isWhiteSpace_of_isIndentation (hs d hd)
  have hmarker : Line.IsMarker [] := .inl rfl
  have hsplit : s ++ c :: rest = s ++ [] ++ c :: rest := by rw [List.append_nil]
  have htrimmed : ':' ∉ Line.trimmed (s ++ c :: rest) := by
    intro hmem
    rcases List.mem_append.1 ((Line.trimmed_infix _).mem hmem) with hmem | hmem
    · exact absurd (hs ':' hmem) (by decide)
    · exact hcolon hmem
  have hitem : Line.isItem (s ++ c :: rest) = false := by
    rw [hsplit]
    exact Line.isItem_parts hwhite hmarker ⟨hc, fun _ => hdash⟩ rest
  exact ⟨Line.not_isBlank_of_mem (by simp) hc,
    Nat.lt_of_lt_of_le hdeep (Line.length_le_indent_append hs _),
    Line.not_hasKey_of_not_mem htrimmed, hitem⟩

theorem Line.isInner_directive (hs : ∀ c ∈ s, isIndentation c = true) {directive : Directive}
    (hcolon : ':' ∉ directive.render) (hdeep : column < s.length) :
    Line.IsInner column (s ++ directive.render) := by
  obtain ⟨rest, hrest⟩ := directive.exists_render_cons
  rw [hrest] at hcolon ⊢
  exact Line.isInner_cons hs rfl (by decide) hcolon hdeep

end Inner

namespace ValuesField

def lookup (field : ValuesField) (width : Nat) : Text :=
  "toYaml ".toList ++ field.path ++ " | nindent ".toList ++ Text.ofNat width

def value (field : ValuesField) (width : Nat) : List Line :=
  [(Directive.ifThen field.path).render, (Directive.trimmedValue (field.lookup width)).render,
    Directive.otherwise.render, field.fallback, Directive.close.render].map (padding width ++ ·)

theorem lookup_eq (field : ValuesField) (width : Nat) : field.lookup width =
    "toYaml ".toList ++ field.path ++ " | nindent ".toList ++ Text.ofNat width := rfl

theorem render_eq (field : ValuesField) (start : Text) (column : Nat) :
    field.render start column = (start ++ field.key ++ [':']) :: field.value (column + 2) := rfl

variable {field : ValuesField} {column width : Nat} {line : Line}

theorem not_mem_ifThen {c : Char} (hc : c = ':' ∨ IsLineEnd c) {e : Text} (he : c ∉ e) :
    c ∉ (Directive.ifThen e).render := by
  rw [Directive.render_ifThen, List.mem_append, List.mem_append, not_or, not_or]
  rcases hc with rfl | rfl | rfl
  all_goals exact ⟨⟨by decide, he⟩, by decide⟩

theorem not_mem_trimmedValue {c : Char} (hc : c = ':' ∨ IsLineEnd c) {e : Text} (he : c ∉ e) :
    c ∉ (Directive.trimmedValue e).render := by
  rw [Directive.render_trimmedValue, List.mem_append, List.mem_append, not_or, not_or]
  rcases hc with rfl | rfl | rfl
  all_goals exact ⟨⟨by decide, he⟩, by decide⟩

theorem not_mem_lookup {c : Char} (hc : c = ':' ∨ IsLineEnd c) (hpath : c ∉ field.path)
    (width : Nat) : c ∉ field.lookup width := by
  rw [lookup_eq, List.mem_append, List.mem_append, List.mem_append, not_or, not_or, not_or]
  rcases hc with rfl | rfl | rfl
  all_goals exact ⟨⟨⟨by decide, hpath⟩, by decide⟩, not_mem_ofNat (by decide) width⟩

theorem isInner_fallback (h : field.IsSound) (hdeep : column < width) :
    Line.IsInner column (padding width ++ field.fallback) := by
  have hdeep' : column < (padding width).length := by rwa [length_padding]
  rcases h.fallback with hfallback | hfallback
  · rw [hfallback]
    exact Line.isInner_cons (isIndentation_padding width) rfl (by decide) (by decide) hdeep'
  · rw [hfallback]
    exact Line.isInner_cons (isIndentation_padding width) rfl (by decide) (by decide) hdeep'

theorem isInner_of_mem_value (h : field.IsSound) (hdeep : column < width)
    (hline : line ∈ field.value width) : Line.IsInner column line := by
  have hdirective : ∀ directive : Directive, ':' ∉ directive.render →
      Line.IsInner column (padding width ++ directive.render) := fun directive hcolon =>
    Line.isInner_directive (isIndentation_padding width) hcolon (by rwa [length_padding])
  simp only [value, List.map_cons, List.map_nil, List.mem_cons, List.not_mem_nil,
    or_false] at hline
  rcases hline with rfl | rfl | rfl | rfl | rfl
  · exact hdirective _ (not_mem_ifThen (.inl rfl) h.path_colon)
  · exact hdirective _ (not_mem_trimmedValue (.inl rfl) (not_mem_lookup (.inl rfl) h.path_colon _))
  · exact hdirective .otherwise (by decide)
  · exact isInner_fallback h hdeep
  · exact hdirective .close (by decide)

theorem isInner_value (h : field.IsSound) (column : Nat) :
    ∀ l ∈ field.value (column + 2), Line.IsInner column l := fun _ hl =>
  isInner_of_mem_value h (Nat.lt_add_of_pos_right Nat.two_pos) hl

theorem role_lookup (field : ValuesField) {s : Text} (hs : ∀ c ∈ s, isIndentation c = true)
    (width : Nat) :
    Line.role (s ++ (Directive.trimmedValue (field.lookup width)).render) = .content := by
  have hstart : "\x7b\x7b- toYaml ".toList <+:
      (Directive.trimmedValue (field.lookup width)).render := by
    rw [Directive.render_trimmedValue, lookup_eq]
    simp only [List.append_assoc]
    rw [← List.append_assoc]
    exact List.prefix_append _ _
  have hother : ∀ t : Text, t.length ≤ 11 → ¬ t <+: "\x7b\x7b- toYaml ".toList →
      ¬ t <+: (Directive.trimmedValue (field.lookup width)).render := fun t hlength ht hprefixed =>
    ht (List.prefix_of_prefix_length_le hprefixed hstart hlength)
  have hotherwise : (Directive.trimmedValue (field.lookup width)).render ≠
      Directive.otherwise.render := by
    intro heq
    rw [heq] at hstart
    exact absurd hstart (by decide)
  have hclose : (Directive.trimmedValue (field.lookup width)).render ≠
      Directive.close.render := by
    intro heq
    rw [heq] at hstart
    exact absurd hstart (by decide)
  rw [Line.role, Line.trimmed_directive hs, if_neg, if_neg, if_neg hotherwise, if_neg hclose]
  · rw [List.isPrefixOf_iff_prefix]
    exact hother _ (by decide) (by decide)
  · rw [List.isPrefixOf_iff_prefix]
    exact hother _ (by decide) (by decide)

theorem isPlain_fallback (h : field.IsSound) : Line.IsPlain (padding width ++ field.fallback) := by
  apply Line.IsPlain.append_left _ (not_mem_padding rfl width)
  rcases h.fallback with hfallback | hfallback
  · rw [hfallback]
    decide
  · rw [hfallback]
    decide

theorem scan_value (h : field.IsSound) (hpos : 0 < width) {blanks : Bool}
    {stack : List Nesting.Frame}
    (hwithin : Nesting.IsWithin stack width) :
    Nesting.scan blanks stack (field.value width) = some stack := by
  have hs := isIndentation_padding width
  have hwithin' : Nesting.IsWithin stack (padding width).length := by rwa [length_padding]
  have hopen : ∀ takesOther line, (padding width).length ≤ Line.indent line →
      Nesting.IsWithin (⟨takesOther, padding width⟩ :: stack) line.indent := by
    intro takesOther line hle frame hframe
    exact Nat.le_trans (Nesting.isWithin_cons hwithin' frame hframe) hle
  have hlookup : ∀ stack, Nesting.IsWithin stack
        (Line.indent (padding width ++ (Directive.trimmedValue (field.lookup width)).render)) →
      Nesting.step blanks stack
        (padding width ++ (Directive.trimmedValue (field.lookup width)).render) = some stack :=
    fun _ => Nesting.step_of_content (field.role_lookup hs width) (Line.isBlank_directive hs _)
  have hfallback : ∀ stack, Nesting.IsWithin stack
        (Line.indent (padding width ++ field.fallback)) →
      Nesting.step blanks stack (padding width ++ field.fallback) = some stack :=
    fun _ => Nesting.step_of_content (isPlain_fallback h).role_eq (isInner_fallback h hpos).blank
  simp only [value, List.map_cons, List.map_nil, Nesting.scan,
    Nesting.step_ifThen hs _ hwithin', Option.bind_some,
    hlookup _ (hopen true _ (Line.length_le_indent_append hs _)), Nesting.step_otherwise hs,
    hfallback _ (hopen false _ (Line.length_le_indent_append hs _)), Nesting.step_close hs]

end ValuesField

end OperatorChart
