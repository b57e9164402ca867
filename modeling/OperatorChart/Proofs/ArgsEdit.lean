import OperatorChart.Proofs.FieldEdits
/-!
# The edit of the arguments

The edit replaces the list of the manager's arguments as a whole. Of the lines it drops only
items come back, and none of them takes part in a guard; the guards it writes itself keep the
guards around them.
-/

namespace OperatorChart.Values

open Text

variable {ls items : List Line} {line : Line} {fallback : Text}

def argItems (line : Line) (after : List Line) : List Line :=
  (BlockStyle.sequence.body line.column after).filter Line.isItem

theorem exists_of_fillArgs (ls : List Line) :
    fillArgs ls = ls ∨ ∃ before line after, ls = before ++ line :: after ∧
      line.hasKey "args".toList = true ∧
      fillArgs ls = before ++ line :: (argLines (padding (line.column + 2)) (argItems line after) ++
        after.dropWhile (BlockStyle.sequence.continues line.column)) := by
  unfold fillArgs
  split
  · rename_i key hkey
    have hhas := hasKey_of_bind hkey
    obtain ⟨before, after, hls, hlength⟩ := exists_around (lt_of_hasKey hhas)
    dsimp only
    split
    · exact .inl rfl
    · right
      refine ⟨before, lineAt ls key, after, hls, hhas, ?_⟩
      generalize lineAt ls key = line at *
      subst hlength hls
      rw [splice_locate, bodyOf_locate, locate_around, List.append_assoc, List.cons_append]
      rfl
  · exact .inl rfl

theorem mem_of_mem_argItems {after : List Line} {key : Line} (h : line ∈ argItems key after) :
    line ∈ after ∧ line.isItem = true := by
  obtain ⟨hbody, hitem⟩ := List.mem_filter.1 h
  exact ⟨(List.takeWhile_prefix _).mem hbody, hitem⟩

/-! ## The rebuilt list -/

def argTexts : List Text :=
  [Condition.metrics.opening, Directive.otherwise.render,
    "# Bind to :0 to disable the controller-runtime managed metrics server".toList,
    "- ".toList ++ (metricsBindFlag ++ "=0".toList), Directive.close.render,
    (Directive.range argsPath).render, "- ".toList ++ (Directive.value ['.']).render]

theorem mem_metricsBindLines {item : Line} (h : line ∈ metricsBindLines item) :
    line = item ∨ ∃ t ∈ argTexts, line = item.leading ++ t := by
  simp only [metricsBindLines, List.append_assoc, List.mem_cons, List.not_mem_nil,
    or_false] at h
  rcases h with rfl | rfl | rfl | rfl | rfl | rfl
  · exact .inr ⟨_, by simp [argTexts], rfl⟩
  · exact .inl rfl
  all_goals exact .inr ⟨_, by simp [argTexts], rfl⟩

theorem mem_rangeLines {indentation : Text} (h : line ∈ rangeLines indentation) :
    ∃ t ∈ argTexts, line = indentation ++ t := by
  simp only [rangeLines, List.append_assoc, List.mem_cons, List.not_mem_nil, or_false] at h
  rcases h with rfl | rfl | rfl
  all_goals exact ⟨_, by simp [argTexts], rfl⟩

/-- The lines of the rebuilt list are items of the old one with a flag that the chart owns, or they
are written at the indentation of an item or at the one for a list without items. -/
theorem mem_argLines {items : List Line} (h : line ∈ argLines fallback items) :
    (line ∈ items ∧ ArgKind.of line.content ≠ .user) ∨
      ∃ s ∈ fallback :: items.map Line.leading, ∃ t ∈ argTexts, line = s ++ t := by
  have hkind : ∀ {kind item}, kind ≠ .user → item ∈ items.filter (ArgKind.of ·.content = kind) →
      item ∈ items ∧ ArgKind.of item.content ≠ .user := by
    intro kind item hkind hitem
    obtain ⟨hmem, hof⟩ := List.mem_filter.1 hitem
    exact ⟨hmem, of_decide_eq_true hof ▸ hkind⟩
  simp only [argLines, List.mem_append] at h
  rcases h with ((h | h) | h) | h
  · cases hlast : (items.filter (ArgKind.of ·.content = .metricsBind)).getLast? with
    | none => rw [hlast] at h; cases h
    | some item =>
        rw [hlast] at h
        have hitem := hkind (by decide) (List.mem_of_getLast? hlast)
        rcases mem_metricsBindLines h with rfl | hwritten
        · exact .inl hitem
        · exact .inr ⟨_, List.mem_cons_of_mem _ (List.mem_map_of_mem hitem.1), hwritten⟩
  · exact .inl (hkind (by decide) (List.mem_of_getLast? (Option.mem_toList.1 h)))
  · refine .inr ⟨_, ?_, mem_rangeLines h⟩
    cases items <;> simp
  · exact .inl (hkind (by decide) h)

theorem isIndentation_of_mem_leadings {s : Text}
    (hfallback : ∀ c ∈ fallback, isIndentation c = true)
    (hs : s ∈ fallback :: items.map Line.leading) : ∀ c ∈ s, isIndentation c = true := by
  rcases List.mem_cons.1 hs with rfl | hs
  · exact hfallback
  · obtain ⟨item, -, rfl⟩ := List.mem_map.1 hs
    exact fun _ hc => Line.isIndentation_of_mem_leading hc

theorem isIndentation_getD (hfallback : ∀ c ∈ fallback, isIndentation c = true)
    (items : List Line) :
    ∀ c ∈ (items.head?.map Line.leading).getD fallback, isIndentation c = true := by
  cases items with
  | nil => exact hfallback
  | cons item rest => exact fun _ hc => Line.isIndentation_of_mem_leading hc

theorem not_mem_fillArgs {c : Char} (hc : IsLineEnd c) (hls : ∀ line ∈ ls, c ∉ line) :
    ∀ line ∈ fillArgs ls, c ∉ line := by
  rcases exists_of_fillArgs ls with hsame | ⟨before, line, after, rfl, -, hfill⟩
  · rwa [hsame]
  · rw [hfill]
    intro l hl
    have hafter : ∀ l ∈ after, c ∉ l := fun l hl =>
      hls l (List.mem_append_right _ (List.mem_cons_of_mem _ hl))
    simp only [List.mem_append, List.mem_cons] at hl
    rcases hl with hl | rfl | hl | hl
    · exact hls l (List.mem_append_left _ hl)
    · exact hls l (by simp)
    · have htexts : ∀ t ∈ argTexts, '\n' ∉ t ∧ '\r' ∉ t := by decide
      rcases mem_argLines hl with ⟨hl, -⟩ | ⟨s, hs, t, ht, rfl⟩
      · exact hafter l (mem_of_mem_argItems hl).1
      · rw [List.mem_append, not_or]
        refine ⟨fun hmem => ?_, hc.not_mem (htexts t ht).1 (htexts t ht).2⟩
        have hindentation := isIndentation_of_mem_leadings
          (isIndentation_padding (line.column + 2)) hs c hmem
        rw [hc.not_isIndentation] at hindentation
        cases hindentation
    · exact hafter l ((List.dropWhile_suffix _).mem hl)

theorem areLines_fillArgs (hls : AreLines ls) : AreLines (fillArgs ls) := by
  refine ⟨?_, not_mem_fillArgs (.inl rfl) hls.unbroken⟩
  rcases exists_of_fillArgs ls with hsame | ⟨before, line, after, rfl, -, hfill⟩
  · rw [hsame]
    exact hls.ne_nil
  · rw [hfill]
    simp

/-! ## Nesting -/

open Nesting

theorem scan_metricsBindLines (hitem : line.isItem = true) :
    scan false [] (metricsBindLines line) = some [] := by
  have hs : ∀ c ∈ line.leading, isIndentation c = true := fun c hc =>
    Line.isIndentation_of_mem_leading hc
  have hopen : ∀ takesOther (l : Line), line.leading.length ≤ l.indent →
      IsWithin [⟨takesOther, line.leading⟩] l.indent := fun _ _ hle =>
    List.forall_mem_cons.2 ⟨hle, by simp⟩
  have hadded : ∀ (takesOther : Bool) (t : Text) (c : Char), '{' ∉ t → c ∈ t →
      Unicode.isWhiteSpace c = false → step false [⟨takesOther, line.leading⟩]
        (line.leading ++ t) = some [⟨takesOther, line.leading⟩] := by
    intro takesOther t c hbrace hmem hc
    have hplain : Line.IsPlain (line.leading ++ t) :=
      (Line.isPlain_of_not_mem hbrace).append_left fun h => absurd (hs '{' h) (by decide)
    exact step_of_content hplain.role_eq
      (Line.not_isBlank_of_mem (List.mem_append_right _ hmem) hc)
      (hopen _ _ (Line.length_le_indent_append hs t))
  have hline : step false [⟨true, line.leading⟩] line = some [⟨true, line.leading⟩] :=
    step_of_content (Line.role_of_isItem hitem) (Line.not_isBlank_of_isItem hitem)
      (hopen _ _ (Nat.le_refl _))
  have hcomment := hadded false
    "# Bind to :0 to disable the controller-runtime managed metrics server".toList '#'
    (by decide) (by decide) rfl
  have hoff := hadded false ("- ".toList ++ metricsBindFlag ++ "=0".toList) '-' (by decide)
    (by decide) rfl
  simp only [metricsBindLines, Condition.opening, scan, step_ifThen hs _ (isWithin_nil _),
    Option.bind_some, hline, step_otherwise hs, hcomment]
  rw [List.append_assoc, List.append_assoc, ← List.append_assoc "- ".toList, hoff]
  simp only [Option.bind_some, step_close hs]

theorem scan_rangeLines {indentation : Text} (hs : ∀ c ∈ indentation, isIndentation c = true) :
    scan false [] (rangeLines indentation) = some [] := by
  have hvalue : step false [⟨false, indentation⟩]
      (indentation ++ "- ".toList ++ (Directive.value ['.']).render) =
        some [⟨false, indentation⟩] := by
    rw [List.append_assoc]
    have hplain : Line.IsPlain
        (indentation ++ ("- ".toList ++ (Directive.value ['.']).render)) :=
      Line.IsPlain.append_left (by decide) fun h => absurd (hs '{' h) (by decide)
    have hdash : '-' ∈ indentation ++ ("- ".toList ++ (Directive.value ['.']).render) :=
      List.mem_append_right _ List.mem_cons_self
    exact step_of_content hplain.role_eq (Line.not_isBlank_of_mem hdash rfl)
      (List.forall_mem_cons.2 ⟨Line.length_le_indent_append hs _, by simp⟩)
  simp only [rangeLines, scan, step_range hs _ (isWithin_nil _), Option.bind_some, hvalue,
    step_close hs]

theorem scan_argLines (hfallback : ∀ c ∈ fallback, isIndentation c = true)
    (hitems : ∀ item ∈ items, item.IsPlain ∧ item.isItem = true) :
    scan false [] (argLines fallback items) = some [] := by
  have hplain : ∀ part : List Line, (∀ item ∈ part, item ∈ items) →
      scan false [] part = some [] := fun part hpart =>
    (Grouped.of_plain fun item hitem => (hitems item (hpart item hitem)).1).scan_eq
  have hmetrics : scan false [] (((items.filter (ArgKind.of ·.content =
      .metricsBind)).getLast?.map metricsBindLines).getD []) = some [] := by
    cases hlast : (items.filter (ArgKind.of ·.content = .metricsBind)).getLast? with
    | none => rfl
    | some item =>
        have hmem := (List.mem_filter.1 (List.mem_of_getLast? hlast)).1
        exact scan_metricsBindLines (hitems item hmem).2
  have hhealth := hplain (items.filter (ArgKind.of ·.content = .healthProbe)).getLast?.toList
    fun item hitem => (List.mem_filter.1 (List.mem_of_getLast? (Option.mem_toList.1 hitem))).1
  have hrange := scan_rangeLines (isIndentation_getD hfallback items)
  have hcert := hplain (items.filter (ArgKind.of ·.content = .certPath))
    fun item hitem => (List.mem_filter.1 hitem).1
  simp only [argLines, scan_append, hmetrics, hhealth, hrange, hcert, Option.bind_some]

/-- The guards of a document whose guards are values are well nested behind the edit. -/
theorem scan_fillArgs (hls : Grouped ls) : scan false [] (fillArgs ls) = some [] := by
  rcases exists_of_fillArgs ls with hsame | ⟨before, line, after, rfl, hkey, hfill⟩
  · rw [hsame]
    exact hls.scan_eq
  · obtain ⟨hbefore, hline, hblock, hrest⟩ := hls.around_block .sequence
      (Line.not_isInner_of_hasKey hkey) (Line.not_isBlank_of_hasKey hkey)
    have hitems : ∀ item ∈ argItems line after, item.IsPlain ∧ item.isItem = true := by
      intro item hitem
      obtain ⟨hbody, hdash⟩ := List.mem_filter.1 hitem
      exact ⟨hblock.isPlain_of_isItem (List.mem_cons_of_mem line hbody) hdash, hdash⟩
    have hargs := scan_argLines (isIndentation_padding (line.column + 2)) hitems
    have hkeyline := (Grouped.plain hline .nil).scan_eq
    rw [hfill, scan_append, hbefore.scan_eq, Option.bind_some, ← List.singleton_append,
      scan_append, hkeyline, Option.bind_some, scan_append, hargs, Option.bind_some]
    exact hrest.scan_eq

end OperatorChart.Values
