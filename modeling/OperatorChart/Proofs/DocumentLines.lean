import OperatorChart.Proofs.MonitorNames
import OperatorChart.Proofs.Sections
import OperatorChart.Proofs.WrapStability
/-!
# Lines that stay a document

Whether a text can be a document of a manifest is a matter of its lines: the last one is empty,
none is a separator, and one is neither blank nor a comment. Here each substitution of names and
each guard of a whole resource is shown to keep that.
-/

namespace OperatorChart

open Text

/-! ## Lines that do not matter -/

theorem Text.isBlank_eq_false_iff {t : Text} :
    t.isBlank = false ↔ ∃ line ∈ lines t, line.isBlank = false := by
  constructor
  · intro h
    obtain ⟨c, hmem, hc⟩ : ∃ c ∈ t, Unicode.isWhiteSpace c = false := by
      rw [← Bool.not_eq_true, isBlank_iff] at h
      simpa [IsWhite] using h
    have hne : '\n' ∉ [c] := by
      rw [List.mem_singleton]
      rintro rfl
      exact absurd hc (by decide)
    obtain ⟨s, s', rfl⟩ := List.append_of_mem hmem
    have hocc : [c] <:+: s ++ c :: s' := ⟨s, s', by simp⟩
    obtain ⟨line, hline, hocc⟩ := exists_mem_lines_of_infix hne hocc
    exact ⟨line, hline, Line.not_isBlank_of_mem (hocc.mem List.mem_cons_self) hc⟩
  · rintro ⟨line, hline, hsolid⟩
    rw [← Bool.not_eq_true]
    intro hblank
    have hwhite : line.isBlank = true := isBlank_iff.2 fun c hc =>
      isBlank_iff.1 hblank c (mem_of_mem_piece hline hc)
    rw [hsolid] at hwhite
    cases hwhite

namespace Line

theorem isComment_iff {line : Line} :
    line.isComment = true ↔ ∃ s rest, IsWhite s ∧ line = s ++ '#' :: rest := by
  rw [isComment, List.isPrefixOf_iff_prefix]
  constructor
  · rintro ⟨rest, hrest⟩
    obtain ⟨s, s', hs, -, hline⟩ := exists_trim line
    refine ⟨s, rest ++ s', hs, ?_⟩
    have hline : line = s ++ line.trimmed ++ s' := hline
    rw [← hrest, List.append_assoc] at hline
    exact hline
  · rintro ⟨s, rest, hs, rfl⟩
    have htrimmed := trimmed_parts (m := []) (c := '#') hs (.inl rfl) rfl rest
    rw [List.append_nil] at htrimmed
    exact ⟨trimEnd rest, htrimmed.symm⟩

theorem isIdle_parts {s rest : Text} {c : Char} (hs : IsWhite s)
    (hc : Unicode.isWhiteSpace c = false) (hcomment : c ≠ '#') :
    Manifest.isIdle (s ++ c :: rest) = false := by
  rw [Manifest.isIdle, Bool.or_eq_false_iff]
  refine ⟨not_isBlank_of_mem (by simp) hc, ?_⟩
  have htrimmed := trimmed_parts (m := []) hs (.inl rfl) hc rest
  rw [List.append_nil] at htrimmed
  have hne : ('#' == c) = false := by simpa using Ne.symm hcomment
  rw [isComment, htrimmed]
  simp [List.isPrefixOf, hne]

theorem not_isBlank_of_not_isIdle {line : Line} (h : Manifest.isIdle line = false) :
    line.isBlank = false :=
  (Bool.or_eq_false_iff.1 h).1

theorem not_isSeparator_parts {s rest : Text} {c : Char} (hs : ∀ c ∈ s, isIndentation c = true)
    (hc : c ≠ '-') : Manifest.isSeparator (s ++ c :: rest) = false := by
  apply Manifest.not_isSeparator_of_not_prefix
  intro hdashes
  cases s with
  | nil => exact hc (List.cons_prefix_cons.1 hdashes).1.symm
  | cons d s =>
      have hd := hs d List.mem_cons_self
      rw [← (List.cons_prefix_cons.1 hdashes).1] at hd
      exact absurd hd (by decide)

/-- Whether a line can take the place of another one in a document. -/
structure CanReplace (line line' : Line) : Prop where
  empty : line = [] → line' = []
  unseparated : Manifest.isSeparator line = false → Manifest.isSeparator line' = false
  busy : Manifest.isIdle line = false → Manifest.isIdle line' = false
  solid : line.isBlank = false → line'.isBlank = false

theorem CanReplace.refl (line : Line) : CanReplace line line :=
  ⟨id, id, id, id⟩

theorem CanReplace.trans {line line' line'' : Line} (h : CanReplace line line')
    (h' : CanReplace line' line'') : CanReplace line line'' :=
  ⟨h'.empty ∘ h.empty, h'.unseparated ∘ h.unseparated, h'.busy ∘ h.busy, h'.solid ∘ h.solid⟩

theorem canReplace_parts {line : Line} {s rest : Text} {c : Char} (hne : line ≠ [])
    (hs : ∀ c ∈ s, isIndentation c = true) (hc : Unicode.isWhiteSpace c = false)
    (hdash : c ≠ '-') (hcomment : c ≠ '#') : CanReplace line (s ++ c :: rest) where
  empty h := absurd h hne
  unseparated _ := not_isSeparator_parts hs hdash
  busy _ := isIdle_parts (fun d hd => isWhiteSpace_of_isIndentation (hs d hd)) hc hcomment
  solid _ := not_isBlank_of_mem (by simp) hc

theorem canReplace_front (s rest rest' : Text) (c : Char) :
    CanReplace (s ++ c :: rest) (s ++ '{' :: rest') where
  empty h := by simp at h
  unseparated h := by
    rw [← Bool.not_eq_true] at h ⊢
    refine fun hseparator => h (Manifest.isSeparator_iff.2 ?_)
    rcases Manifest.isSeparator_iff.1 hseparator with hspace | ⟨s', hs', heq⟩
    · exact .inl ((prefix_of_prefix_append_cons (by decide) hspace).trans (List.prefix_append _ _))
    · have hmem : '{' ∈ "---".toList ++ s' := heq ▸ List.mem_append_right s List.mem_cons_self
      rcases List.mem_append.1 hmem with hmem | hmem
      · exact absurd hmem (by decide)
      · exact absurd ( hs' '{' hmem) (by decide)
  busy h := by
    rw [Manifest.isIdle, Bool.or_eq_false_iff] at h ⊢
    refine ⟨not_isBlank_of_mem (c := '{') (by simp) rfl, ?_⟩
    rw [← Bool.not_eq_true] at h ⊢
    rw [← Bool.not_eq_true (isComment _)] at h
    refine fun hcomment => h.2 (isComment_iff.2 ?_)
    obtain ⟨w, tail, hw, heq⟩ := isComment_iff.1 hcomment
    have hbrace : '{' ∉ w ++ ['#'] := by
      rw [List.mem_append, not_or]
      exact ⟨fun hmem => absurd (hw '{' hmem) (by decide), by decide⟩
    have hstart : w ++ ['#'] <+: s ++ '{' :: rest' := ⟨tail, by rw [heq]; simp⟩
    obtain ⟨back, rfl⟩ := prefix_of_prefix_append_cons hbrace hstart
    exact ⟨w, back ++ c :: rest, hw, by simp⟩
  solid _ := not_isBlank_of_mem (c := '{') (by simp) rfl

end Line

/-! ## Names on a line -/

theorem Text.exists_first_occurrence {needle t : Text} (hneedle : needle ≠ [])
    (h : needle <:+: t) (replacement : Text) : ∃ s rest, t = s ++ (needle ++ rest) ∧
      replaceAll t needle replacement =
        s ++ (replacement ++ replaceAll rest needle replacement) := by
  induction t using replacement_induction hneedle with
  | nil => exact absurd (List.infix_nil.1 h) hneedle
  | found t _ => exact ⟨[], t, rfl, replaceAll_append hneedle replacement t⟩
  | skip c t hc ih =>
      obtain ⟨s, rest, ht, hreplaced⟩ := ih ((List.infix_cons_iff.1 h).resolve_left hc)
      exact ⟨c :: s, rest, by rw [ht]; rfl, by rw [replaceAll_cons hc, hreplaced]; rfl⟩

namespace Naming

open Line

theorem canReplace_replaceAll {needle replacement : Text} (hneedle : needle ≠ [])
    (hopen : replacement.head? = some '{') (line : Line) :
    CanReplace line (replaceAll line needle replacement) := by
  by_cases hocc : needle <:+: line
  · obtain ⟨s, rest, hline, hreplaced⟩ :=
      exists_first_occurrence hneedle hocc replacement
    obtain ⟨c, needle', rfl⟩ := List.exists_cons_of_ne_nil hneedle
    obtain ⟨tail, rfl⟩ : ∃ tail, replacement = '{' :: tail := by
      cases replacement with
      | nil => cases hopen
      | cons d tail => exact ⟨tail, by rw [Option.some.inj hopen]⟩
    rw [hreplaced, hline]
    exact canReplace_front _ _ _ _
  · rw [replaceAll_eq_self hocc]
    exact CanReplace.refl line

theorem IsSubstitution.canReplace {project : Text} {f : Text → Text} (h : IsSubstitution project f)
    (line : Line) : CanReplace line (f line) := by
  induction h generalizing line with
  | same => exact CanReplace.refl line
  | @literal front _ _ _ hmem =>
      exact canReplace_replaceAll
        (List.append_ne_nil_of_right_ne_nil front (isWord_of_mem_ends hmem).ne_nil)
        (replacement_of_mem_ends hmem).1 line
  | comp _ _ hf hg => exact (hf line).trans (hg _)

theorem canReplace_fillManagedByLine (line : Line) : CanReplace line (fillManagedByLine line) := by
  unfold fillManagedByLine
  split
  · rename_i hmanaged
    have hne : line ≠ [] := by
      rintro rfl
      exact absurd hmanaged (by decide)
    rw [List.append_assoc]
    exact canReplace_parts hne (fun _ hc => isIndentation_of_mem_leading hc) rfl (by decide)
      (by decide)
  · exact CanReplace.refl line

theorem IsRenaming.canReplace {line line' : Line} (h : IsRenaming line line') :
    CanReplace line line' := by
  cases h with
  | @trails _ line' htrails =>
      have htrimmed := htrails.trimmed
      obtain ⟨tail, htail, rfl⟩ := htrails
      refine ⟨fun h => (List.append_eq_nil_iff.1 h).1, fun h => ?_, fun h => ?_, fun h => ?_⟩
      · rwa [Manifest.isSeparator, trimEnd_append (isWhite_of_isIndentation htail)] at h
      · rwa [Manifest.isIdle, Line.isBlank, isComment, htrimmed] at h
      · rwa [Line.isBlank, htrimmed] at h
  | @entry start pad front s tail hstart _ =>
      rw [List.append_assoc start "name: ".toList]
      exact canReplace_parts (by simp) hstart rfl (by decide) (by decide)

end Naming

/-! ## Lines of documents -/

namespace Manifest

structure KeepsDocument (ls ls' : List Line) : Prop where
  last : ls.getLast? = some [] → ls'.getLast? = some []
  unseparated : (∀ line ∈ ls, isSeparator line = false) → ∀ line ∈ ls', isSeparator line = false
  busy : (∃ line ∈ ls, isIdle line = false) → ∃ line ∈ ls', isIdle line = false
  solid : (∃ line ∈ ls, line.isBlank = false) → ∃ line ∈ ls', line.isBlank = false

namespace KeepsDocument

variable {ls ls' ls'' rest rest' : List Line}

theorem refl (ls : List Line) : KeepsDocument ls ls :=
  ⟨id, id, id, id⟩

theorem trans (h : KeepsDocument ls ls') (h' : KeepsDocument ls' ls'') : KeepsDocument ls ls'' :=
  ⟨h'.last ∘ h.last, h'.unseparated ∘ h.unseparated, h'.busy ∘ h.busy, h'.solid ∘ h.solid⟩

theorem append (h : KeepsDocument ls ls') (h' : KeepsDocument rest rest')
    (hnil : rest = [] → rest' = []) : KeepsDocument (ls ++ rest) (ls' ++ rest') := by
  have hsome : ∀ {p : Line → Bool},
      ((∃ line ∈ ls, p line = false) → ∃ line ∈ ls', p line = false) →
      ((∃ line ∈ rest, p line = false) → ∃ line ∈ rest', p line = false) →
      (∃ line ∈ ls ++ rest, p line = false) → ∃ line ∈ ls' ++ rest', p line = false := by
    rintro p hfront hback ⟨line, hmem, hline⟩
    rcases List.mem_append.1 hmem with hmem | hmem
    · obtain ⟨line', hmem', hline'⟩ := hfront ⟨line, hmem, hline⟩
      exact ⟨line', List.mem_append_left _ hmem', hline'⟩
    · obtain ⟨line', hmem', hline'⟩ := hback ⟨line, hmem, hline⟩
      exact ⟨line', List.mem_append_right _ hmem', hline'⟩
  refine ⟨fun hlast => ?_, fun hall => ?_, hsome h.busy h'.busy, hsome h.solid h'.solid⟩
  · rw [List.getLast?_append] at hlast ⊢
    cases hrest : rest.getLast? with
    | none =>
        rw [hrest, Option.none_or] at hlast
        rw [hnil (List.getLast?_eq_none_iff.1 hrest), List.getLast?_nil, Option.none_or]
        exact h.last hlast
    | some line =>
        rw [hrest, Option.some_or] at hlast
        rw [h'.last (hrest.trans hlast), Option.some_or]
  · rw [List.forall_mem_append] at hall ⊢
    exact ⟨h.unseparated hall.1, h'.unseparated hall.2⟩

end KeepsDocument

theorem keepsDocument_of_forall₂ {ls ls' : List Line} (h : List.Forall₂ Line.CanReplace ls ls') :
    KeepsDocument ls ls' := by
  induction h with
  | nil => exact KeepsDocument.refl []
  | @cons line line' rest rest' hline hrest ih =>
      have hfirst : KeepsDocument [line] [line'] := by
        refine ⟨fun h => ?_, fun h => ?_, ?_, ?_⟩
        · rw [List.getLast?_singleton, Option.some.injEq] at h ⊢
          exact hline.empty h
        · rw [List.forall_mem_singleton] at h ⊢
          exact hline.unseparated h
        · simpa using hline.busy
        · simpa using hline.solid
      exact hfirst.append ih fun h => by rw [h] at hrest; cases hrest; rfl

theorem keepsDocument_of_isLinewise {f : Text → Text} (hf : Naming.IsLinewise f)
    (h : ∀ line, Line.CanReplace line (f line)) (t : Text) :
    KeepsDocument (lines t) (lines (f t)) := by
  apply keepsDocument_of_forall₂
  rw [hf, List.forall₂_map_right_iff]
  exact List.forall₂_same.2 fun line _ => h line

end Manifest

namespace Naming

open Manifest

theorem keepsDocument_fillManagedBy (t : Text) :
    KeepsDocument (lines t) (lines (fillManagedBy t)) := by
  apply keepsDocument_of_forall₂
  rw [lines_fillManagedBy, List.forall₂_map_right_iff]
  exact List.forall₂_same.2 fun line _ => canReplace_fillManagedByLine line

section Substitutions

variable {project : Text} (hsolid : ∀ c ∈ project, Unicode.isWhiteSpace c = false)

include hsolid

theorem IsSubstitution.keepsDocument {f : Text → Text} (h : IsSubstitution project f) (t : Text) :
    KeepsDocument (lines t) (lines (f t)) :=
  keepsDocument_of_isLinewise (h.isLinewise (not_mem_newline_of_solid hsolid)) h.canReplace t

theorem keepsDocument_fillNamespace (t : Text) :
    KeepsDocument (lines t) (lines (fillNamespace project t)) :=
  (isSubstitution_fillNamespace project).keepsDocument hsolid t

theorem keepsDocument_fillKind (resource : Resource) (t : Text) :
    KeepsDocument (lines t) (lines (fillKind project resource t)) := by
  rcases isSubstitution_fillKind_or project resource with h | ⟨-, h⟩
  · exact h.keepsDocument hsolid t
  · rw [h]
    exact keepsDocument_of_forall₂ ((forall₂_isRenaming_fillMonitor
      (not_mem_newline_of_solid hsolid) resource t).imp fun _ _ h => h.canReplace)

theorem keepsDocument_fill (resource : Resource) (t : Text) :
    KeepsDocument (lines t) (lines (fill project resource t)) :=
  ((keepsDocument_fillNamespace hsolid t).trans (keepsDocument_fillKind hsolid resource _)).trans
    (keepsDocument_fillManagedBy _)

end Substitutions

end Naming

end OperatorChart
