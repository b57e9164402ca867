import OperatorChart.Proofs.FieldEdits
/-!
# The edit of the image

The edit replaces the line of the manager's image and drops the pull policies of the manager. The
lines it writes hold values but no guards.
-/

namespace OperatorChart.Values

open Text

variable {container : Container} {key : Nat} {ls ls' replacement : List Line} {line : Line}
  {start : Text}

theorem mem_replaceImage (h : line ∈ replaceImage container key replacement ls) :
    line ∈ replacement ∨ line ∈ ls := by
  obtain ⟨⟨source, i⟩, hsource, hline⟩ := List.mem_flatMap.1 h
  have hmem : source ∈ ls := List.fst_mem_of_mem_zipIdx hsource
  dsimp only at hline
  split at hline
  · exact .inl hline
  · split at hline
    · cases hline
    · exact .inr (List.mem_singleton.1 hline ▸ hmem)

theorem mem_replaceImage_of_mem (hkey : key < ls.length) (h : line ∈ replacement) :
    line ∈ replaceImage container key replacement ls := by
  refine List.mem_flatMap.2 ⟨(ls[key], key), List.mem_zipIdx_iff_getElem?.2 (by simp [hkey]), ?_⟩
  dsimp only
  rwa [if_pos rfl]

theorem exists_of_fillImage (h : fillImage ls = .ok ls') :
    ls' = ls ∨ ∃ container key start, (lineAt ls key).hasKey "image".toList = true ∧
      keyPrefix (lineAt ls key) = .ok start ∧
      ls' = replaceImage container key (imageLines start container.column) ls := by
  unfold fillImage at h
  split at h
  · rename_i container hcontainer
    split at h
    · rename_i key hkey
      split at h
      · cases h
        exact .inl rfl
      · cases hstart : keyPrefix (lineAt ls key) with
        | error e => rw [hstart] at h; cases h
        | ok start =>
            rw [hstart] at h
            cases h
            exact .inr ⟨container, key, start, hasKey_of_key? hkey, hstart, rfl⟩
    · cases h
      exact .inl rfl
  · cases h
    exact .inl rfl

theorem not_mem_imageLines {c : Char} (hc : IsLineEnd c) (hstart : c ∉ start) (column : Nat) :
    ∀ line ∈ imageLines start column, c ∉ line := by
  intro line hline
  simp only [imageLines, List.append_assoc, List.mem_cons, List.not_mem_nil, or_false] at hline
  rcases hline with rfl | rfl
  · rw [List.mem_append, not_or]
    exact ⟨hstart, hc.not_mem (by decide) (by decide)⟩
  · rw [List.mem_append, not_or]
    exact ⟨not_mem_padding hc.not_isIndentation column, hc.not_mem (by decide) (by decide)⟩

theorem isPlain_imageLines (hstart : '{' ∉ start) (column : Nat) :
    ∀ line ∈ imageLines start column, Line.IsPlain line := by
  intro line hline
  simp only [imageLines, List.append_assoc, List.mem_cons, List.not_mem_nil, or_false] at hline
  rcases hline with rfl | rfl
  · exact Line.IsPlain.append_left (by decide) hstart
  · exact Line.IsPlain.append_left (by decide) (not_mem_padding rfl column)

theorem not_mem_fillImage {c : Char} (hc : IsLineEnd c) (h : fillImage ls = .ok ls')
    (hls : ∀ line ∈ ls, c ∉ line) : ∀ line ∈ ls', c ∉ line := by
  rcases exists_of_fillImage h with rfl | ⟨container, key, start, hkey, hstart, rfl⟩
  · exact hls
  · have hmem : lineAt ls key ∈ ls := lineAt_mem (lt_of_hasKey hkey)
    have hstarts := (Line.isLead_of_keyPrefix hkey hstart).1
    have hfree : c ∉ start := fun h => hls _ hmem (hstarts.mem h)
    intro line hline
    rcases mem_replaceImage hline with hline | hline
    · exact not_mem_imageLines hc hfree _ line hline
    · exact hls line hline

theorem areLines_fillImage (h : fillImage ls = .ok ls') (hls : AreLines ls) : AreLines ls' := by
  refine ⟨?_, not_mem_fillImage (.inl rfl) h hls.unbroken⟩
  rcases exists_of_fillImage h with rfl | ⟨container, key, start, hkey, hstart, rfl⟩
  · exact hls.ne_nil
  · exact List.ne_nil_of_mem (mem_replaceImage_of_mem (lt_of_hasKey hkey) List.mem_cons_self)

theorem isPlain_fillImage (h : fillImage ls = .ok ls') (hls : ∀ line ∈ ls, line.IsPlain) :
    ∀ line ∈ ls', line.IsPlain := by
  rcases exists_of_fillImage h with rfl | ⟨container, key, start, hkey, hstart, rfl⟩
  · exact hls
  · have hlead := (Line.isLead_of_keyPrefix hkey hstart).2.2
    have hbrace : '{' ∉ start := fun hmem => absurd (hlead '{' hmem) (by rintro (h | h) <;> cases h)
    intro line hline
    rcases mem_replaceImage hline with hline | hline
    · exact isPlain_imageLines hbrace _ line hline
    · exact hls line hline

end OperatorChart.Values
