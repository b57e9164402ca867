import OperatorChart.Proofs.Trim
/-!
# The shape of a line

Indentation, marker and column of a line depend on its start only, and whether it holds a key
depends on what stands up to the colon behind the key.
-/

namespace OperatorChart

open Text

theorem isWhiteSpace_of_isIndentation {c : Char} (h : isIndentation c = true) :
    Unicode.isWhiteSpace c = true := by
  simp only [isIndentation, Bool.or_eq_true, beq_iff_eq] at h
  rcases h with rfl | rfl <;> rfl

theorem isIndentation_of_not_isWhiteSpace {c : Char} (h : Unicode.isWhiteSpace c = false) :
    isIndentation c = false := by
  rw [← Bool.not_eq_true]
  intro hc
  rw [isWhiteSpace_of_isIndentation hc] at h
  exact Bool.noConfusion h

def IsLineEnd (c : Char) : Prop :=
  c = '\n' ∨ c = '\r'

theorem IsLineEnd.not_mem {c : Char} (hc : IsLineEnd c) {t : Text} (hbreak : '\n' ∉ t)
    (hreturn : '\r' ∉ t) : c ∉ t := by
  rcases hc with rfl | rfl
  · exact hbreak
  · exact hreturn

theorem IsLineEnd.not_isIndentation {c : Char} (hc : IsLineEnd c) : isIndentation c = false := by
  rcases hc with rfl | rfl <;> rfl

namespace Line

/-! ## Indentation -/

theorem isIndentation_of_mem_leading {line : Line} {c : Char} (h : c ∈ line.leading) :
    isIndentation c = true :=
  List.mem_takeWhile_imp h

theorem isWhite_leading (line : Line) : IsWhite line.leading :=
  fun _ hc => isWhiteSpace_of_isIndentation (isIndentation_of_mem_leading hc)

theorem not_isBlank_of_mem {line : Line} {c : Char} (h : c ∈ line)
    (hc : Unicode.isWhiteSpace c = false) : line.isBlank = false := by
  rw [← Bool.not_eq_true]
  intro hblank
  have hwhite := isBlank_iff.1 hblank c h
  rw [hc] at hwhite
  cases hwhite

theorem not_mem_leading {c : Char} (hc : IsLineEnd c) (line : Line) : c ∉ line.leading := by
  intro h
  have hindentation := isIndentation_of_mem_leading h
  rw [hc.not_isIndentation] at hindentation
  cases hindentation

theorem not_mem_newline_leading (line : Line) : '\n' ∉ line.leading :=
  line.not_mem_leading (.inl rfl)

theorem leading_append {s t : Text} (hs : ∀ c ∈ s, isIndentation c = true)
    (ht : t.head?.any isIndentation = false) : leading (s ++ t) = s := by
  rw [leading, List.takeWhile_append_of_pos hs]
  cases t with
  | nil => simp
  | cons c t => rw [List.takeWhile_cons_of_neg (by simpa using ht), List.append_nil]

theorem length_le_indent_append {s : Text} (hs : ∀ c ∈ s, isIndentation c = true) (t : Text) :
    s.length ≤ indent (s ++ t) := by
  rw [indent, leading, List.takeWhile_append_of_pos hs, List.length_append]
  exact Nat.le_add_right _ _

theorem dropWhile_leading_append (line : Line) {s : Text}
    (hs : s.head?.any isIndentation = false) :
    (line.leading ++ s).dropWhile isIndentation = s := by
  rw [List.dropWhile_append_of_pos fun _ hc => isIndentation_of_mem_leading hc]
  cases s with
  | nil => rfl
  | cons c s => exact List.dropWhile_cons_of_neg (by simpa using hs)

theorem leading_append_of_mem {s : Text} {c : Char} (hc : c ∈ s)
    (hsolid : Unicode.isWhiteSpace c = false) (t t' : Text) :
    leading (s ++ t) = leading (s ++ t') := by
  induction s with
  | nil => simp at hc
  | cons d s ih =>
      by_cases hd : isIndentation d = true
      · have hne : c ≠ d := by
          rintro rfl
          rw [isIndentation_of_not_isWhiteSpace hsolid] at hd
          exact Bool.noConfusion hd
        have hrest := ih ((List.mem_cons.1 hc).resolve_left hne)
        simp only [leading, List.cons_append, List.takeWhile_cons_of_pos hd] at hrest ⊢
        rw [hrest]
      · simp only [leading, List.cons_append, List.takeWhile_cons_of_neg hd]

/-! ## Marker and content -/

/-- What may stand before the content of a line: nothing, or the dash of an item and white space
that starts with a space. -/
def IsMarker (m : Text) : Prop :=
  m = [] ∨ ∃ gap, IsWhite gap ∧ m = '-' :: ' ' :: gap

/-- The start of a content: not white space, and no dash that could be the dash of an item. -/
structure IsContentStart (m : Text) (c : Char) : Prop where
  solid : Unicode.isWhiteSpace c = false
  no_dash : m = [] → c ≠ '-'

section Parts

variable {s m : Text} {c : Char}

theorem isItem_of_trimmed {line : Line} {rest : Text} (h : line.trimmed = '-' :: ' ' :: rest) :
    line.isItem = true := by
  rw [isItem, h, Bool.or_eq_true]
  exact .inr rfl

theorem not_isItem_of_trimmed {line : Line} {c : Char} {rest : Text}
    (h : line.trimmed = c :: rest) (hc : c ≠ '-') : line.isItem = false := by
  have hne : ('-' == c) = false := by simpa using Ne.symm hc
  rw [isItem, h, Bool.or_eq_false_iff]
  refine ⟨by simp [hc], ?_⟩
  simp [List.isPrefixOf, hne]

theorem trimmed_parts (hs : IsWhite s) (hm : IsMarker m) (hc : Unicode.isWhiteSpace c = false)
    (rest : Text) : trimmed (s ++ m ++ c :: rest) = m ++ c :: trimEnd rest := by
  have hstart : trimStart (m ++ c :: rest) = m ++ c :: rest := by
    rcases hm with rfl | ⟨gap, -, rfl⟩
    · exact trimStart_of_head hc
    · exact trimStart_of_head rfl
  rw [trimmed, trim, List.append_assoc, trimStart_append hs, hstart, trimEnd_append_cons hc]

theorem isItem_parts (hs : IsWhite s) (hm : IsMarker m) (hc : IsContentStart m c)
    (rest : Text) : isItem (s ++ m ++ c :: rest) = !m.isEmpty := by
  have htrimmed := trimmed_parts hs hm hc.solid rest
  rcases hm with rfl | ⟨gap, -, rfl⟩
  · exact not_isItem_of_trimmed htrimmed (hc.no_dash rfl)
  · exact isItem_of_trimmed htrimmed

theorem marker_parts (hs : IsWhite s) (hm : IsMarker m) (hc : IsContentStart m c)
    (rest : Text) : marker (s ++ m ++ c :: rest) = m := by
  have hitem := isItem_parts hs hm hc rest
  have htrimmed := trimmed_parts hs hm hc.solid rest
  rw [marker, hitem, htrimmed]
  rcases hm with rfl | ⟨gap, hgap, rfl⟩
  · rfl
  · have hstop : ¬ Unicode.isWhiteSpace c = true := by simp [hc.solid]
    have htake : ((' ' :: gap) ++ c :: trimEnd rest).takeWhile Unicode.isWhiteSpace =
        ' ' :: gap := by
      rw [List.takeWhile_append_of_pos (List.forall_mem_cons.2 ⟨rfl, hgap⟩),
        List.takeWhile_cons_of_neg hstop, List.append_nil]
    exact congrArg ('-' :: ·) htake

theorem content_parts (hs : IsWhite s) (hm : IsMarker m) (hc : IsContentStart m c)
    (rest : Text) : content (s ++ m ++ c :: rest) = c :: trimEnd rest := by
  have h := marker_append_content (s ++ m ++ c :: rest)
  rwa [marker_parts hs hm hc, trimmed_parts hs hm hc.solid, List.append_cancel_left_eq] at h

theorem isMarker_marker (line : Line) (h : line.content ≠ []) : IsMarker line.marker := by
  by_cases hitem : line.isItem = true
  · have hcontent : line.content = trimStart (line.trimmed.drop 1) := by
      rw [content, if_pos hitem]
    rw [marker, if_pos hitem]
    rw [isItem, Bool.or_eq_true, beq_iff_eq, List.isPrefixOf_iff_prefix] at hitem
    rcases hitem with hdash | ⟨rest, hrest⟩
    · rw [hdash] at hcontent
      exact absurd hcontent h
    · rw [← hrest]
      exact .inr ⟨rest.takeWhile Unicode.isWhiteSpace, isWhite_takeWhile rest, rfl⟩
  · exact .inl (by rw [marker, if_neg hitem])

end Parts

/-! ## Keys -/

/-- A key as manifests write it: it starts with neither a dash nor white space and holds no
colon. -/
structure IsPlainKey (key : Text) : Prop where
  ne_nil : key ≠ []
  head : ∀ c, key.head? = some c → c ≠ '-' ∧ Unicode.isWhiteSpace c = false
  no_colon : ':' ∉ key

instance decidableForallSome (o : Option Char) (p : Char → Prop) [DecidablePred p] :
    Decidable (∀ c, o = some c → p c) :=
  match o with
  | none => isTrue (by simp)
  | some c => decidable_of_iff (p c) (by simp)

theorem IsPlainKey.exists_head {key : Text} (h : IsPlainKey key) (m : Text) :
    ∃ c rest, key = c :: rest ∧ IsContentStart m c := by
  obtain ⟨c, rest, rfl⟩ := List.exists_cons_of_ne_nil h.ne_nil
  obtain ⟨hdash, hsolid⟩ := h.head c rfl
  exact ⟨c, rest, rfl, hsolid, fun _ => hdash⟩

theorem splitOnce?_append {key : Text} (h : ':' ∉ key) (rest : Text) :
    splitOnce? ':' (key ++ ':' :: rest) = some (key, rest) := by
  have hkey : ∀ c ∈ key, (c != ':') = true := by
    intro c hc
    simp only [bne_iff_ne, ne_eq]
    rintro rfl
    exact h hc
  rw [splitOnce?, List.dropWhile_append_of_pos hkey, List.takeWhile_append_of_pos hkey]
  simp

theorem eq_of_splitOnce? {t key rest : Text} (h : splitOnce? ':' t = some (key, rest)) :
    t = key ++ ':' :: rest := by
  unfold splitOnce? at h
  split at h
  · cases h
  · rename_i c tail htail
    have hne : t.dropWhile (· != ':') ≠ [] := by simp [htail]
    have hc : (c != ':') = false := by
      have hnot := List.head_dropWhile_not (· != ':') hne
      simpa only [htail, List.head_cons] using hnot
    have hparts := List.takeWhile_append_dropWhile (p := (· != ':')) (l := t)
    rw [htail, show c = ':' by simpa using hc] at hparts
    cases h
    exact hparts.symm

theorem eq_of_hasKey {line : Line} {key : Text} (h : line.hasKey key = true) :
    ∃ s m rest, IsWhite s ∧ IsMarker m ∧ line = s ++ m ++ (key ++ ':' :: rest) := by
  unfold hasKey at h
  split at h
  · rename_i name rest hsplit
    have hname : name = key := by simpa using h
    have hcontent := eq_of_splitOnce? hsplit
    obtain ⟨s, s', hs, -, hline⟩ := exists_trim line
    refine ⟨s, line.marker, rest ++ s', hs, isMarker_marker line (by simp [hcontent]), ?_⟩
    have hline : line = s ++ line.trimmed ++ s' := hline
    rw [← marker_append_content, hcontent, hname] at hline
    simpa [List.append_assoc] using hline
  · cases h

theorem not_hasKey_of_not_mem {line : Line} (h : ':' ∉ line.trimmed) (key : Text) :
    line.hasKey key = false := by
  unfold hasKey
  split
  · rename_i name rest hsplit
    have hcolon : ':' ∈ line.content := by simp [eq_of_splitOnce? hsplit]
    rw [← marker_append_content] at h
    exact absurd (List.mem_append_right line.marker hcolon) h
  · rfl

section Keys

variable {s m key : Text} {c : Char}

theorem content_key (hs : IsWhite s) (hm : IsMarker m) (hkey : IsPlainKey key) (rest : Text) :
    content (s ++ m ++ (key ++ ':' :: rest)) = key ++ ':' :: trimEnd rest := by
  obtain ⟨c, tail, rfl, hc⟩ := hkey.exists_head m
  rw [List.cons_append, content_parts hs hm hc, trimEnd_append_cons rfl]
  rfl

theorem hasKey_append (hs : IsWhite s) (hm : IsMarker m) (hkey : IsPlainKey key) (rest : Text) :
    hasKey (s ++ m ++ (key ++ ':' :: rest)) key = true := by
  rw [hasKey, content_key hs hm hkey, splitOnce?_append hkey.no_colon]
  simp

theorem hasKey_unique {line : Line} {key' : Text} (h : line.hasKey key = true)
    (h' : line.hasKey key' = true) : key = key' := by
  unfold hasKey at h h'
  split at h
  · rename_i name rest hsplit
    rw [hsplit] at h'
    rw [← beq_iff_eq.1 h, ← beq_iff_eq.1 h']
  · cases h

theorem not_hasKey_of_hasKey {line : Line} {key' : Text} (h : line.hasKey key = true)
    (hne : key ≠ key') : line.hasKey key' = false := by
  rw [← Bool.not_eq_true]
  exact fun h' => hne (hasKey_unique h h')

end Keys

end Line

end OperatorChart
