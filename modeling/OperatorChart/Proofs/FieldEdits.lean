import OperatorChart.Proofs.FieldLines
/-!
# Edits of a field

An edit of a field does one of three things: nothing, or the block of an entry with the field's
key becomes the lines of the field, or these lines are added at the end of an item. Each keeps
the lines whole and adds one guarded value at most.
-/

namespace OperatorChart

open Text

/-- What an edit of a field does to the lines of a document. -/
inductive ValuesField.Fills (field : ValuesField) : List Line → List Line → Prop
  | same (ls : List Line) : Fills field ls ls
  | block {before after : List Line} {line : Line} {start : Text}
      (hkey : line.hasKey field.key = true) (hstart : keyPrefix line = .ok start) :
      Fills field (before ++ line :: after)
        (before ++ field.render start line.column ++
          after.dropWhile (field.style.continues (field.style.column line)))
  | insert {before after : List Line} {line : Line} (hitem : line.isItem = true) :
      Fills field (before ++ line :: after)
        (before ++ line :: (after.takeWhile (BlockStyle.item.continues line.indent) ++
          field.render (padding line.column) line.column ++
          after.dropWhile (BlockStyle.item.continues line.indent)))

namespace Container

variable {ls : List Line} {i j : Nat}

theorem isItem_of_itemOf? (h : itemOf? ls i = some j) : (lineAt ls j).isItem = true := by
  unfold itemOf? at h
  split at h
  · rename_i hitem
    cases h
    exact hitem
  · unfold owner? at h
    dsimp only at h
    split at h
    · split at h
      · rename_i hfound
        cases h
        simp only [Bool.and_eq_true] at hfound
        exact hfound.1.2
      · cases h
    · cases h

theorem exists_of_manager? {container : Container} (h : manager? ls = some container) :
    (lineAt ls container.start).isItem = true ∧ container = ofItem ls container.start := by
  obtain ⟨start, hstart, rfl⟩ := Option.map_eq_some_iff.1 h
  obtain ⟨i, -, hi⟩ := List.exists_of_findSome?_eq_some hstart
  split at hi
  · exact ⟨isItem_of_itemOf? hi, rfl⟩
  · cases hi

theorem lt_of_isItem (h : (lineAt ls i).isItem = true) : i < ls.length := by
  rw [← Nat.not_le]
  intro hle
  rw [lineAt_of_length_le hle] at h
  cases h

end Container

namespace ValuesField

variable {field : ValuesField} {ls ls' : List Line} {key : Nat}

theorem fills_fill (hkey : (lineAt ls key).hasKey field.key = true)
    (h : field.fill ls key = .ok ls') : field.Fills ls ls' := by
  obtain ⟨before, after, hls, rfl⟩ := exists_around (lt_of_hasKey hkey)
  rw [fill] at h
  split at h
  · cases h
    exact .same ls
  · cases hstart : keyPrefix (lineAt ls before.length) with
    | error e => rw [hstart] at h; cases h
    | ok start =>
        rw [hstart] at h
        cases h
        generalize lineAt ls before.length = line at *
        subst hls
        rw [splice_locate]
        exact .block hkey hstart

theorem fills_insert {container : Container} (h : Container.manager? ls = some container) :
    field.Fills ls (field.insert ls container.stop container.column) := by
  obtain ⟨hitem, hcontainer⟩ := Container.exists_of_manager? h
  obtain ⟨before, after, hls, hlength⟩ := exists_around (Container.lt_of_isItem hitem)
  rw [hcontainer]
  generalize container.start = start at *
  subst hlength
  generalize lineAt ls before.length = line at *
  subst hls
  rw [Container.ofItem, lineAt_length, locate_around, insert, splice, BlockStyle.body,
    take_around, drop_around_add, take_length_takeWhile, drop_length_takeWhile,
    List.append_assoc, List.append_assoc, List.cons_append,
    ← List.append_assoc (List.takeWhile _ _)]
  exact .insert hitem

end ValuesField

namespace Values

variable {ls ls' : List Line}

theorem hasKey_of_bind {key : Text} {i : Nat}
    (h : (Container.manager? ls).bind (·.key? ls key) = some i) :
    (lineAt ls i).hasKey key = true := by
  obtain ⟨container, -, hkey⟩ := Option.bind_eq_some_iff.1 h
  exact hasKey_of_key? hkey

theorem fills_fillEnv (h : fillEnv ls = .ok ls') : env.Fills ls ls' := by
  unfold fillEnv at h
  split at h
  · rename_i container hcontainer
    split at h
    · rename_i key hkey
      exact ValuesField.fills_fill (hasKey_of_key? hkey) h
    · cases h
      exact ValuesField.fills_insert hcontainer
  · cases h
    exact .same ls

theorem fills_fillResources (h : fillResources ls = .ok ls') : resources.Fills ls ls' := by
  unfold fillResources at h
  split at h
  · rename_i key hkey
    exact ValuesField.fills_fill (hasKey_of_bind hkey) h
  · cases h
    exact .same ls

theorem fills_fillContainerSecurityContext (h : fillContainerSecurityContext ls = .ok ls') :
    containerSecurityContext.Fills ls ls' := by
  unfold fillContainerSecurityContext at h
  split at h
  · rename_i key hkey
    split at h
    · cases h
      exact .same ls
    · exact ValuesField.fills_fill (hasKey_of_bind hkey) h
  · cases h
    exact .same ls

theorem fills_fillPodSecurityContext (h : fillPodSecurityContext ls = .ok ls') :
    podSecurityContext.Fills ls ls' := by
  unfold fillPodSecurityContext at h
  split at h
  · rename_i key hkey
    have hfound := List.find?_some hkey
    simp only [Bool.and_eq_true] at hfound
    exact ValuesField.fills_fill hfound.1.2 h
  · cases h
    exact .same ls

end Values

/-! ## What an edit keeps -/

section Kept

variable {field : ValuesField} {ls ls' : List Line} {line : Line} {start : Text}

namespace ValuesField

theorem not_mem_value {c : Char} (hc : IsLineEnd c) (h : field.IsSound) (hpath : c ∉ field.path)
    (width : Nat) : ∀ line ∈ field.value width, c ∉ line := by
  have hpadding : c ∉ padding width := not_mem_padding hc.not_isIndentation width
  have hfallback : c ∉ field.fallback := by
    rcases h.fallback with hfallback | hfallback
    · rw [hfallback]
      exact hc.not_mem (by decide) (by decide)
    · rw [hfallback]
      exact hc.not_mem (by decide) (by decide)
  intro line hline
  simp only [value, List.map_cons, List.map_nil, List.mem_cons, List.not_mem_nil,
    or_false] at hline
  rcases hline with rfl | rfl | rfl | rfl | rfl <;> rw [List.mem_append, not_or]
  · exact ⟨hpadding, not_mem_ifThen (.inr hc) hpath⟩
  · exact ⟨hpadding, not_mem_trimmedValue (.inr hc) (not_mem_lookup (.inr hc) hpath _)⟩
  · exact ⟨hpadding, hc.not_mem (by decide) (by decide)⟩
  · exact ⟨hpadding, hfallback⟩
  · exact ⟨hpadding, hc.not_mem (by decide) (by decide)⟩

theorem not_mem_render {c : Char} (hc : IsLineEnd c) (h : field.IsSound) (hkey : c ∉ field.key)
    (hpath : c ∉ field.path) (hstart : c ∉ start) (column : Nat) :
    ∀ line ∈ field.render start column, c ∉ line := by
  rw [render_eq, List.forall_mem_cons]
  refine ⟨?_, not_mem_value hc h hpath _⟩
  rw [List.mem_append, List.mem_append, not_or, not_or]
  exact ⟨⟨hstart, hkey⟩, hc.not_mem (by decide) (by decide)⟩

theorem grouped_render (h : field.IsSound) {column : Nat} (hbrace : '{' ∉ start)
    (hcolumn : byteLength start ≤ column) {rest : List Line} (hrest : Grouped rest) :
    Grouped (field.render start column ++ rest) := by
  obtain ⟨c, tail, hkey, hsolid⟩ := h.key.exists_head []
  have hlead : ¬ Line.IsLead c := by
    rintro (hwhite | hdash)
    · rw [hsolid.solid] at hwhite
      cases hwhite
    · exact hsolid.no_dash rfl hdash
  have hhead : Line.column (start ++ field.key ++ [':']) < column + 2 := by
    rw [hkey, List.append_assoc, List.cons_append]
    have hle := Line.column_append_le hlead start (tail ++ [':'])
    omega
  have hplain : Line.IsPlain (start ++ field.key ++ [':']) := by
    apply Line.isPlain_of_not_mem
    rw [List.mem_append, List.mem_append, not_or, not_or]
    exact ⟨⟨hbrace, h.key_brace⟩, by decide⟩
  have hblank : Line.isBlank (start ++ field.key ++ [':']) = false :=
    Line.not_isBlank_of_mem (c := ':') (by simp) rfl
  rw [render_eq, List.cons_append]
  exact .group hplain hblank (fun l hl => isInner_of_mem_value h hhead hl)
    (scan_value h (by omega) (Nesting.isWithin_nil _)) hrest

theorem byteLength_padding (width : Nat) : byteLength (padding width) = width := by
  induction width with
  | zero => rfl
  | succ n ih =>
      have hcons : padding (n + 1) = ' ' :: padding n := rfl
      have hone : ' '.utf8Size = 1 := rfl
      rw [hcons, byteLength_cons, ih, hone]
      omega

namespace Fills

theorem not_mem {c : Char} (hc : IsLineEnd c) (hfield : field.IsSound) (hname : c ∉ field.key)
    (hpath : c ∉ field.path) (h : field.Fills ls ls') (hls : ∀ line ∈ ls, c ∉ line) :
    ∀ line ∈ ls', c ∉ line := by
  cases h with
  | same => exact hls
  | @block before after line start hkey hstart =>
      have hstarts := (Line.isLead_of_keyPrefix hkey hstart).1
      have hfree : c ∉ start := fun hmem => hls line (by simp) (hstarts.mem hmem)
      intro l hl
      rcases List.mem_append.1 hl with hl | hl
      · rcases List.mem_append.1 hl with hl | hl
        · exact hls l (List.mem_append_left _ hl)
        · exact not_mem_render hc hfield hname hpath hfree _ l hl
      · exact hls l (List.mem_append_right _ (List.mem_cons_of_mem _
          ((List.dropWhile_suffix _).mem hl)))
  | @insert before after line hitem =>
      intro l hl
      simp only [List.mem_append, List.mem_cons] at hl
      rcases hl with hl | rfl | (hl | hl) | hl
      · exact hls l (List.mem_append_left _ hl)
      · exact hls l (by simp)
      · exact hls l (List.mem_append_right _ (List.mem_cons_of_mem _
          ((List.takeWhile_prefix _).mem hl)))
      · exact not_mem_render hc hfield hname hpath (not_mem_padding hc.not_isIndentation _) _ l hl
      · exact hls l (List.mem_append_right _ (List.mem_cons_of_mem _
          ((List.dropWhile_suffix _).mem hl)))

theorem areLines (hfield : field.IsSound) (h : field.Fills ls ls') (hls : AreLines ls) :
    AreLines ls' := by
  refine ⟨?_, h.not_mem (.inl rfl) hfield hfield.key_newline hfield.path_newline hls.unbroken⟩
  cases h with
  | same => exact hls.ne_nil
  | block hkey hstart => simp [render_eq]
  | insert hitem => simp

theorem grouped (hfield : field.IsSound) (h : field.Fills ls ls') (hls : Grouped ls) :
    Grouped ls' := by
  cases h with
  | same => exact hls
  | @block before after line start hkey hstart =>
      obtain ⟨-, hlength, hlead⟩ := Line.isLead_of_keyPrefix hkey hstart
      have hbrace : '{' ∉ start := fun hmem =>
        absurd (hlead '{' hmem) (by rintro (h | h) <;> cases h)
      obtain ⟨hbefore, -, -, hrest⟩ := hls.around_block field.style
        (Line.not_isInner_of_hasKey hkey) (Line.not_isBlank_of_hasKey hkey)
      rw [List.append_assoc]
      exact hbefore.append (grouped_render hfield hbrace hlength.le hrest)
  | @insert before after line hitem =>
      obtain ⟨hbefore, -, hbody, hrest⟩ := hls.around_block .item
        (Line.not_isInner_of_isItem hitem) (Line.not_isBlank_of_isItem hitem)
      have hadded := grouped_render hfield (not_mem_padding rfl line.column)
        (byteLength_padding line.column).le hrest
      have hjoined := hbefore.append (hbody.append hadded)
      rwa [List.cons_append, ← List.append_assoc (List.takeWhile _ _)] at hjoined

end Fills

end ValuesField

end Kept

end OperatorChart
