import OperatorChart.Proofs.Steps
/-!
# Fields as steps

On a line that is indented by spaces and tabs, what stands before a key is the indentation and
the dash, so an edit of a field never fails there. The key that it writes stands where the key
stood, and the guarded value stands below it.
-/

namespace OperatorChart

open Text

namespace Line

variable {line : Line} {key : Text}

theorem isIndented_append {pad rest : Text} {c : Char} (hpad : ∀ c ∈ pad, isIndentation c = true)
    (hc : Unicode.isWhiteSpace c = false) : IsIndented (pad ++ c :: rest) := by
  right
  have hstop : ¬ isIndentation c = true := by simp [isIndentation_of_not_isWhiteSpace hc]
  intro d hd
  rw [List.dropWhile_append_of_pos hpad, List.dropWhile_cons_of_neg hstop] at hd
  cases hd
  exact hc

theorem prefix_of_isIndented (h : line.IsIndented) (hblank : line.isBlank = false) :
    line.leading ++ line.trimmed <+: line := by
  rcases h with h | h
  · rw [hblank] at h
    cases h
  · have hline : line = line.leading ++ line.dropWhile isIndentation :=
      List.takeWhile_append_dropWhile.symm
    cases hrest : line.dropWhile isIndentation with
    | nil =>
        have hwhite : line.isBlank = true := by
          rw [hline, hrest, List.append_nil]
          exact isBlank_iff.2 line.isWhite_leading
        rw [hblank] at hwhite
        cases hwhite
    | cons c rest =>
        have hc := h c (by rw [hrest]; rfl)
        rw [hrest] at hline
        have htrimmed : line.trimmed = c :: trimEnd rest := by
          have hparts := trimmed_parts (m := []) line.isWhite_leading (.inl rfl) hc rest
          rw [List.append_nil, ← hline] at hparts
          exact hparts
        obtain ⟨s, -, hs⟩ := exists_trimEnd rest
        refine ⟨s, ?_⟩
        rw [htrimmed, List.append_assoc, List.cons_append, ← hs]
        exact hline.symm

theorem keyPrefix_eq (h : line.IsIndented) (hblank : line.isBlank = false) :
    keyPrefix line = .ok (line.leading ++ line.marker) := by
  obtain ⟨rest, hrest⟩ := prefix_of_isIndented h hblank
  have hcolumn : line.column = byteLength (line.leading ++ line.marker) := by
    rw [byteLength_append, byteLength_leading]
    rfl
  have htake : takeBytes? line.column line = some (line.leading ++ line.marker) := by
    rw [hcolumn]
    rw [← marker_append_content, ← List.append_assoc, List.append_assoc] at hrest
    conv => lhs; arg 2; rw [← hrest]
    exact takeBytes?_append _ _
  rw [keyPrefix, htake]

/-! ## A line with another key -/

def withEntry (line : Line) (entry : Text) : Line :=
  line.leading ++ line.marker ++ entry

section WithEntry

variable {rest : Text}

theorem isMarker_of_hasKey {key : Text} (h : line.hasKey key = true) : IsMarker line.marker := by
  apply isMarker_marker
  intro hnil
  rw [hasKey, hnil] at h
  cases h

variable (hkey : IsPlainKey key) (hmarker : IsMarker line.marker)

include hkey hmarker

theorem exists_withEntry (rest : Text) : ∃ c tail,
    line.marker ++ (key ++ ':' :: rest) = c :: tail ∧ Unicode.isWhiteSpace c = false := by
  rcases hmarker with hnil | ⟨gap, -, hgap⟩
  · obtain ⟨c, tail, hcons, hc⟩ := hkey.exists_head []
    exact ⟨c, _, by rw [hnil, hcons]; rfl, hc.solid⟩
  · exact ⟨'-', _, by rw [hgap]; rfl, rfl⟩

theorem hasKey_withEntry (rest : Text) :
    (line.withEntry (key ++ ':' :: rest)).hasKey key = true :=
  hasKey_append line.isWhite_leading hmarker hkey rest

theorem isIndented_withEntry (rest : Text) :
    (line.withEntry (key ++ ':' :: rest)).IsIndented := by
  obtain ⟨c, tail, hcons, hc⟩ := exists_withEntry hkey hmarker rest
  rw [withEntry, List.append_assoc, hcons]
  exact isIndented_append (fun _ h => isIndentation_of_mem_leading h) hc

theorem leading_withEntry (rest : Text) :
    (line.withEntry (key ++ ':' :: rest)).leading = line.leading := by
  obtain ⟨c, tail, hcons, hc⟩ := exists_withEntry hkey hmarker rest
  rw [withEntry, List.append_assoc, hcons]
  exact leading_append (fun _ h => isIndentation_of_mem_leading h)
    (by simp [isIndentation_of_not_isWhiteSpace hc])

theorem marker_withEntry (rest : Text) :
    (line.withEntry (key ++ ':' :: rest)).marker = line.marker := by
  obtain ⟨c, tail, hcons, hc⟩ := hkey.exists_head line.marker
  rw [withEntry, hcons]
  exact marker_parts line.isWhite_leading hmarker hc _

theorem isItem_withEntry (rest : Text) :
    (line.withEntry (key ++ ':' :: rest)).isItem = line.isItem := by
  obtain ⟨c, tail, hcons, hc⟩ := hkey.exists_head line.marker
  have hitem := isItem_parts line.isWhite_leading hmarker hc (tail ++ ':' :: rest)
  rw [withEntry, hcons]
  rw [List.cons_append, hitem, marker]
  split
  · rename_i h
    rw [h]
    rfl
  · rename_i h
    simp [h]

theorem indent_withEntry (rest : Text) :
    (line.withEntry (key ++ ':' :: rest)).indent = line.indent := by
  rw [indent, leading_withEntry hkey hmarker]
  rfl

theorem column_withEntry (rest : Text) :
    (line.withEntry (key ++ ':' :: rest)).column = line.column := by
  rw [column, indent_withEntry hkey hmarker, marker_withEntry hkey hmarker]
  rfl

end WithEntry

/-! ## A key on a line of its own -/

structure IsPadded (width : Nat) (key : Text) (line : Line) : Prop where
  hasKey : line.hasKey key = true
  indent : line.indent = width
  column : line.column = width
  no_item : line.isItem = false
  indented : line.IsIndented

theorem isPadded_append {key : Text} (hkey : IsPlainKey key) (width : Nat) (rest : Text) :
    IsPadded width key (padding width ++ (key ++ ':' :: rest)) := by
  have hs := isIndentation_padding width
  have hwhite : IsWhite (padding width) := fun c hc => isWhiteSpace_of_isIndentation (hs c hc)
  obtain ⟨c, tail, hcons, hc⟩ := hkey.exists_head []
  have hline : padding width ++ (key ++ ':' :: rest) =
      padding width ++ [] ++ (key ++ ':' :: rest) := by simp
  have hparts : padding width ++ (key ++ ':' :: rest) =
      padding width ++ [] ++ c :: (tail ++ ':' :: rest) := by rw [hline, hcons]; rfl
  have hindent : Line.indent (padding width ++ (key ++ ':' :: rest)) = width := by
    rw [hparts, List.append_nil, Line.indent, leading_append hs, length_padding]
    simp [isIndentation_of_not_isWhiteSpace hc.solid]
  refine ⟨?_, hindent, ?_, ?_, ?_⟩
  · rw [hline]
    exact hasKey_append hwhite (.inl rfl) hkey rest
  · rw [Line.column, hindent, hparts, marker_parts hwhite (.inl rfl) hc]
    rfl
  · rw [hparts]
    exact isItem_parts hwhite (.inl rfl) hc _
  · rw [hparts, List.append_nil]
    exact isIndented_append hs hc.solid

end Line

end OperatorChart
