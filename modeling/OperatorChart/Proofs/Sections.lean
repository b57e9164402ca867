import OperatorChart.Proofs.LineOperations
import OperatorChart.Proofs.LineShape
import OperatorChart.Rendering
/-!
# Sections of a manifest

Cutting a manifest at its separator lines undoes writing texts one behind another with such lines
between them, as long as no text holds one itself. Main statements: every document of a manifest
is such a text, and a stream of such texts has them as its documents.
-/

namespace OperatorChart

open Text

namespace Manifest

/-! ## Separator lines -/

theorem isSeparator_iff {line : Line} : isSeparator line = true ↔
    "--- ".toList <+: line ∨ ∃ s, IsWhite s ∧ line = "---".toList ++ s := by
  obtain ⟨s, hs, hline⟩ := exists_trimEnd line
  rw [isSeparator, Bool.or_eq_true, beq_iff_eq, List.isPrefixOf_iff_prefix]
  constructor
  · rintro (htrim | htrim)
    · exact .inr ⟨s, hs, by rw [← htrim]; exact hline⟩
    · exact .inl (htrim.trans ⟨s, hline.symm⟩)
  · have hdashes : ∀ s, IsWhite s → trimEnd ("---".toList ++ s) = "---".toList := fun s hs =>
      trimEnd_append hs
    rintro (⟨rest, rfl⟩ | ⟨s, hs, rfl⟩)
    · by_cases hrest : IsWhite rest
      · left
        exact hdashes (' ' :: rest) (List.forall_mem_cons.2 ⟨rfl, hrest⟩)
      · right
        obtain ⟨front, c, back, rfl, hc⟩ : ∃ front c back, rest = front ++ c :: back ∧
            Unicode.isWhiteSpace c = false := by
          simp only [IsWhite, not_forall] at hrest
          obtain ⟨c, hmem, hc⟩ := hrest
          obtain ⟨front, back, heq⟩ := List.append_of_mem hmem
          exact ⟨front, c, back, heq, by simpa using hc⟩
        rw [← List.append_assoc, trimEnd_append_cons hc, List.append_assoc]
        exact List.prefix_append _ _
    · exact .inl (hdashes s hs)

theorem dashes_prefix_of_isSeparator {line : Line} (h : isSeparator line = true) :
    "---".toList <+: line := by
  rcases isSeparator_iff.1 h with h | ⟨s, -, rfl⟩
  · exact List.IsPrefix.trans (by decide) h
  · exact List.prefix_append _ _

theorem not_isSeparator_of_not_prefix {line : Line} (h : ¬ "---".toList <+: line) :
    isSeparator line = false := by
  rw [← Bool.not_eq_true]
  exact fun hseparator => h (dashes_prefix_of_isSeparator hseparator)

theorem not_isSeparator_nil : isSeparator [] = false := rfl

/-! ## Cutting lines -/

section Sections

variable {ls rest : List Line}

theorem sections_ne_nil (ls : List Line) : sections ls ≠ [] := by
  fun_cases sections ls <;> simp_all

theorem sections_cons {line : Line} (hline : isSeparator line = false) (hrest : rest ≠ []) :
    ∃ text texts, sections rest = text :: texts ∧
      sections (line :: rest) = (line ++ '\n' :: text) :: texts := by
  obtain ⟨text, texts, htexts⟩ := List.exists_cons_of_ne_nil (sections_ne_nil rest)
  refine ⟨text, texts, htexts, ?_⟩
  cases rest with
  | nil => exact absurd rfl hrest
  | cons next rest =>
      rw [sections, hline, htexts]
      · rfl
      · simp

theorem sections_separator {line : Line} (hline : isSeparator line = true) (hrest : rest ≠ []) :
    sections (line :: rest) = [] :: sections rest := by
  cases rest with
  | nil => exact absurd rfl hrest
  | cons next rest =>
      rw [sections, hline]
      · rfl
      · simp

theorem sections_of_no_separator (hne : ls ≠ []) (h : ∀ line ∈ ls, isSeparator line = false) :
    sections ls = [ofLines ls] := by
  induction ls with
  | nil => exact absurd rfl hne
  | cons line rest ih =>
      rw [List.forall_mem_cons] at h
      cases rest with
      | nil => rw [sections, h.1]; rfl
      | cons next rest =>
          obtain ⟨text, texts, hrest, hsections⟩ := sections_cons h.1 (List.cons_ne_nil next rest)
          rw [ih (List.cons_ne_nil next rest) h.2, List.cons.injEq] at hrest
          obtain ⟨rfl, rfl⟩ := hrest
          rw [hsections]
          rfl

/-- Lines without a separator, in front of one, are a section of their own. -/
theorem sections_append_separator (hne : ls ≠ []) (h : ∀ line ∈ ls, isSeparator line = false)
    {separator : Line} (hseparator : isSeparator separator = true) (hrest : rest ≠ []) :
    sections (ls ++ separator :: rest) = (ofLines ls ++ ['\n']) :: sections rest := by
  induction ls with
  | nil => exact absurd rfl hne
  | cons line others ih =>
      rw [List.forall_mem_cons] at h
      have hbehind : others ++ separator :: rest ≠ [] := by simp
      obtain ⟨text, texts, htexts, hsections⟩ := sections_cons h.1 hbehind
      rw [List.cons_append, hsections]
      cases others with
      | nil =>
          rw [List.nil_append, sections_separator hseparator hrest, List.cons.injEq] at htexts
          obtain ⟨rfl, rfl⟩ := htexts
          rfl
      | cons next others =>
          rw [ih (List.cons_ne_nil next others) h.2, List.cons.injEq] at htexts
          obtain ⟨rfl, rfl⟩ := htexts
          rw [ofLines, ofLines, join_cons _ _ (List.cons_ne_nil next others), List.append_assoc]
          rfl

theorem not_isSeparator_of_mem_sections (hunbroken : ∀ line ∈ ls, '\n' ∉ line) {text : Text}
    (htext : text ∈ sections ls) : ∀ line ∈ lines text, isSeparator line = false := by
  have hnil : ∀ line ∈ lines [], isSeparator line = false := by
    intro line hline
    rw [List.mem_singleton.1 hline]
    rfl
  induction ls generalizing text with
  | nil => exact List.mem_singleton.1 htext ▸ hnil
  | cons line rest ih =>
      obtain ⟨hline, hrest⟩ := List.forall_mem_cons.1 hunbroken
      cases rest with
      | nil =>
          rw [sections] at htext
          split at htext
          · have hempty : text = [] := by simpa using htext
            exact hempty ▸ hnil
          · rename_i hseparator
            rw [List.mem_singleton.1 htext, lines, pieces_eq_singleton hline,
              List.forall_mem_singleton]
            simpa using hseparator
      | cons next rest =>
          cases hseparator : isSeparator line with
          | true =>
              rw [sections_separator hseparator (List.cons_ne_nil next rest), List.mem_cons]
                at htext
              rcases htext with rfl | htext
              · exact hnil
              · exact ih hrest htext
          | false =>
              obtain ⟨first, texts, htexts, hsections⟩ :=
                sections_cons hseparator (List.cons_ne_nil next rest)
              rw [hsections, List.mem_cons] at htext
              rcases htext with rfl | htext
              · rw [lines_append_newline _ _ hline, List.forall_mem_cons]
                exact ⟨hseparator, ih hrest (by simp [htexts])⟩
              · exact ih hrest (by simp [htexts, htext])

end Sections

/-! ## Documents -/

/-- Whether a text can be a document of a manifest: it ends with a line break, no line of it is a
separator, and some line is neither blank nor a comment. -/
structure IsDocument (text : Text) : Prop where
  newline : text.getLast? = some '\n'
  unseparated : ∀ line ∈ lines text, isSeparator line = false
  content : hasContent text = true

theorem hasContent_iff {text : Text} :
    hasContent text = true ↔ ∃ line ∈ lines text, isIdle line = false := by
  rw [hasContent, Bool.not_eq_true', List.all_eq_false]
  simp

theorem IsDocument.exists_eq {text : Text} (h : IsDocument text) : ∃ s, text = s ++ ['\n'] :=
  List.getLast?_eq_some_iff.1 h.newline

theorem IsDocument.ensureNewline_eq {text : Text} (h : IsDocument text) :
    ensureNewline text = text := by
  obtain ⟨s, rfl⟩ := h.exists_eq
  exact ensureNewline_append_newline s

theorem isDocument_ensureNewline {text : Text}
    (h : ∀ line ∈ lines text, isSeparator line = false) (hcontent : hasContent text = true) :
    IsDocument (ensureNewline text) := by
  obtain ⟨s, hnewline, htext⟩ := exists_ensureNewline text
  rw [hasContent_iff] at hcontent
  rw [hnewline]
  rcases htext with rfl | rfl
  · exact ⟨by simp, h, hasContent_iff.2 hcontent⟩
  · refine ⟨by simp, ?_, ?_⟩
    · rw [lines_append_singleton, List.forall_mem_append]
      exact ⟨h, List.forall_mem_singleton.2 not_isSeparator_nil⟩
    · obtain ⟨line, hline, hidle⟩ := hcontent
      rw [hasContent_iff, lines_append_singleton]
      exact ⟨line, List.mem_append_left _ hline, hidle⟩

theorem isDocument_of_mem_documents {manifest : Text} {document : ManifestDocument}
    (h : document ∈ documents manifest) : IsDocument document.content := by
  obtain ⟨⟨content, index⟩, hcontent, rfl⟩ := List.mem_map.1 h
  obtain ⟨text, htext, rfl⟩ := List.mem_map.1 (List.fst_mem_of_mem_zipIdx hcontent)
  obtain ⟨hsection, hkept⟩ := List.mem_filter.1 htext
  exact isDocument_ensureNewline
    (not_isSeparator_of_mem_sections (areLines_lines manifest).unbroken hsection) hkept

/-! ## Streams -/

theorem isSeparator_dashes : isSeparator "---".toList = true := by decide

theorem sections_streamOf {templates : List Template} (hne : templates ≠ [])
    (h : ∀ template ∈ templates, IsDocument template.text) :
    sections (lines (streamOf templates)) = templates.map (·.text) := by
  induction templates with
  | nil => exact absurd rfl hne
  | cons template rest ih =>
      obtain ⟨hfirst, hothers⟩ := List.forall_mem_cons.1 h
      cases rest with
      | nil =>
          rw [streamOf, sections_of_no_separator (lines_ne_nil _) hfirst.unseparated,
            ofLines_lines]
          rfl
      | cons next rest =>
          obtain ⟨s, hs⟩ := hfirst.exists_eq
          have hlines : lines (streamOf (template :: next :: rest)) =
              lines s ++ "---".toList :: lines (streamOf (next :: rest)) := by
            have hdashes := lines_append_newline "---".toList (streamOf (next :: rest)) (by decide)
            rw [streamOf, hs, List.append_assoc, List.append_assoc, List.singleton_append, lines,
              pieces_append_separator]
            · exact congrArg (lines s ++ ·) hdashes
            · simp
          have hfront : ∀ line ∈ lines s, isSeparator line = false := by
            intro line hline
            apply hfirst.unseparated
            rw [hs, lines_append_singleton]
            exact List.mem_append_left _ hline
          rw [hlines, sections_append_separator (lines_ne_nil s) hfront isSeparator_dashes
            (lines_ne_nil _), ih (List.cons_ne_nil next rest) hothers, ofLines_lines, ← hs]
          rfl

/-- A stream of texts that can be documents has exactly these documents. -/
theorem documents_streamOf {templates : List Template}
    (h : ∀ template ∈ templates, IsDocument template.text) :
    documents (streamOf templates) =
      (templates.map (·.text)).zipIdx.map fun (content, index) => ⟨index, content⟩ := by
  by_cases hne : templates = []
  · rw [hne]
    rfl
  · have hmem : ∀ text ∈ templates.map (·.text), IsDocument text := by
      intro text htext
      obtain ⟨template, htemplate, rfl⟩ := List.mem_map.1 htext
      exact h template htemplate
    have hkept : (templates.map (·.text)).filter hasContent = templates.map (·.text) :=
      List.filter_eq_self.2 fun text htext => (hmem text htext).content
    have hsame : (templates.map (·.text)).map ensureNewline = templates.map (·.text) := by
      rw [List.map_congr_left fun text htext => (hmem text htext).ensureNewline_eq]
      exact List.map_id _
    rw [documents, sections_streamOf hne h, hkept, hsame]

end Manifest

end OperatorChart
