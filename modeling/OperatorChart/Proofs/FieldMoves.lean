import OperatorChart.Proofs.FieldSteps
import OperatorChart.Proofs.Moves
/-!
# Moves of fields

An edit of a field puts a key with a guarded value in the place of a block with this key, or at the
end of the manager's item. Both are moves, and they leave the other keys of the manager alone.
-/

namespace OperatorChart

open Text

def managedKeys : List Text :=
  ["image".toList, Values.env.key, Values.podSecurityContext.key, Values.resources.key,
    "args".toList]

theorem mem_of_mem_takeWhile_append {width : Nat} {rest after : List Line} {x : Line}
    (hstops : Stops width after) (h : x ∈ (rest ++ after).takeWhile (Line.isDeeper width)) :
    x ∈ rest := by
  induction rest with
  | nil =>
      rw [List.nil_append, hstops.takeWhile] at h
      cases h
  | cons line rest ih =>
      by_cases hline : line.isDeeper width = true
      · rw [List.cons_append, List.takeWhile_cons_of_pos hline] at h
        exact (List.mem_cons.1 h).elim (fun h => h ▸ List.mem_cons_self)
          fun h => List.mem_cons_of_mem line (ih h)
      · rw [List.cons_append, List.takeWhile_cons_of_neg hline] at h
        cases h

theorem Line.indent_le_column (line : Line) : line.indent ≤ line.column :=
  Nat.le_add_right _ _

theorem Line.indent_of_not_isItem {line : Line} (h : line.isItem = false) :
    line.indent = line.column := by
  rw [Line.column, Line.marker, if_neg (by simp [h])]
  rfl

theorem BlockStyle.column_eq {style : BlockStyle} (h : style ≠ .item) (line : Line) :
    style.column line = line.column := by
  cases style with
  | mapping => rfl
  | sequence => rfl
  | item => exact absurd rfl h

theorem BlockStyle.deep_of_continues {style : BlockStyle} {width : Nat} {line : Line}
    (h : style.continues width line = true) : line.isBlank = false ∧ width ≤ line.indent := by
  refine ⟨?_, Grouped.le_indent_of_continues h⟩
  rw [BlockStyle.continues, Bool.and_eq_true, Bool.not_eq_true'] at h
  exact h.1

/-! ## Ends of blocks -/

/-- Whether lines end a block measured against `column` that stands above them. -/
def BlockStyle.Ends (style : BlockStyle) (column : Nat) (ls : List Line) : Prop :=
  ∀ l, ls.head? = some l → style.continues column l = false

section Ends

variable {style : BlockStyle} {column width : Nat} {body back behind ls : List Line}

theorem BlockStyle.ends_dropWhile (style : BlockStyle) (column : Nat) (ls : List Line) :
    style.Ends column (ls.dropWhile (style.continues column)) := by
  intro l hl
  have hnot := List.head?_dropWhile_not (style.continues column) ls
  rwa [hl] at hnot

theorem BlockStyle.Ends.stops (h : style.Ends column ls) : Stops column ls := by
  intro l hl
  have hend := h l hl
  rw [← Bool.not_eq_true, Line.isDeeper_iff]
  rintro ⟨hblank, hlt⟩
  simp [BlockStyle.continues, hblank, hlt] at hend

theorem Stops.ends (h : Stops width ls) (hlt : width < column) (style : BlockStyle) :
    style.Ends column ls := by
  intro l hl
  have hstop := h l hl
  rw [← Bool.not_eq_true] at hstop ⊢
  intro hcontinues
  obtain ⟨hblank, hle⟩ := BlockStyle.deep_of_continues hcontinues
  exact hstop (Line.isDeeper_iff.2 ⟨hblank, by omega⟩)

theorem BlockStyle.Ends.append (h : style.Ends column ls) (hbehind : style.Ends column behind) :
    style.Ends column (ls ++ behind) := by
  intro l hl
  cases ls with
  | nil => exact hbehind l hl
  | cons first rest => exact h l hl

theorem BlockStyle.Ends.takeWhile (h : style.Ends column back)
    (hbody : ∀ l ∈ body, style.continues column l = true) :
    (body ++ back).takeWhile (style.continues column) = body := by
  rw [List.takeWhile_append_of_pos hbody]
  cases back with
  | nil => simp
  | cons l back =>
      rw [List.takeWhile_cons_of_neg (by simp [h l rfl]), List.append_nil]

theorem BlockStyle.Ends.dropWhile (h : style.Ends column back)
    (hbody : ∀ l ∈ body, style.continues column l = true) :
    (body ++ back).dropWhile (style.continues column) = back := by
  rw [List.dropWhile_append_of_pos hbody]
  cases back with
  | nil => rfl
  | cons l back => exact List.dropWhile_cons_of_neg (by simp [h l rfl])

theorem stops_dropWhile_continues (style : BlockStyle) (column : Nat) (ls : List Line) :
    Stops column (ls.dropWhile (style.continues column)) :=
  (style.ends_dropWhile column ls).stops

end Ends

/-! ## Blocks and ends -/

section Blocks

variable {key : Text} {above body value after start inner behind rest : List Line}
  {line line' dash first : Line}

/-- What takes the place of the block of a key: the key again, at the same place, and other lines
that stand as deep. -/
structure IsReplacement (key : Text) (line : Line) (body : List Line) (line' : Line)
    (value after : List Line) : Prop where
  old_key : line.hasKey key = true
  new_key : line'.hasKey key = true
  same_indent : line'.indent = line.indent
  same_column : line'.column = line.column
  same_item : line'.isItem = line.isItem
  old_deep : ∀ l ∈ body, l.isBlank = false ∧ line.column ≤ l.indent
  new_deep : ∀ l ∈ value, l.isBlank = false ∧ line.column ≤ l.indent
  inert : ∀ l ∈ value, l.IsInert
  indented : ∀ l ∈ line' :: value, l.IsIndented
  stops : ∀ l ∈ value, l.isItem = true → Stops line.column after

theorem IsReplacement.isDirect (h : IsReplacement key line body line' value after) :
    line'.isDirect line.column key = true :=
  Line.isDirect_iff.2 ⟨h.same_column, h.new_key⟩

theorem IsReplacement.isMove (h : IsReplacement key line body line' value after)
    (hkey : key ∈ managedKeys) (above : List Line) :
    IsMove above (line :: body) (line' :: value) after := by
  have hkeys : ∀ key ∈ managedKeys, (∀ entry ∈ watchedEntries, entry.1 ≠ key) ∧
      "serviceAccountName".toList ≠ key := by decide
  obtain ⟨hwatched, haccount⟩ := hkeys key hkey
  have hdeep : ∀ l : Line, l.isBlank = false ∧ line.column ≤ l.indent →
      l.isBlank = false ∧ line.indent ≤ l.indent := fun l hl =>
    ⟨hl.1, Nat.le_trans line.indent_le_column hl.2⟩
  have hswap : IsSwap (line :: body) (line' :: value) after :=
    IsSwap.of_indent (Line.not_isBlank_of_hasKey h.old_key) (Line.not_isBlank_of_hasKey h.new_key)
      h.same_indent (fun l hl => hdeep l (h.old_deep l hl)) (fun l hl => hdeep l (h.new_deep l hl))
      after
  have hnoAccount : ∀ l : Line, l.hasKey key = true →
      l.hasKey "serviceAccountName".toList = false := fun l hl =>
    Line.not_hasKey_of_hasKey hl haccount.symm
  refine ⟨⟨hswap, ?_, h.indented⟩, List.cons_ne_nil _ _, ?_, ?_, ?_⟩
  · exact List.forall_mem_cons.2 ⟨Line.isInert_of_hasKey h.new_key hwatched, h.inert⟩
  · intro front l rest heq hl
    cases front with
    | nil =>
        obtain ⟨rfl, rfl⟩ := List.cons.inj heq
        rw [h.same_item] at hl
        exact .inr ⟨rfl, line, body, rfl, hl, h.same_indent.symm, h.same_column.symm, h.old_deep,
          h.new_deep⟩
    | cons first front =>
        obtain ⟨-, hvalue⟩ := List.cons.inj heq
        have hmem : l ∈ value := by rw [hvalue]; simp
        have hstops := (h.stops l hmem hl).mono (h.new_deep l hmem).2
        left
        intro x hx
        have hx := mem_of_mem_takeWhile_append hstops hx
        exact (h.inert x (by rw [hvalue]; simp [hx])).not_isManagerName
  · refine KeepsPods.of_swap hswap ?_ ?_
    · intro l hl
      cases hl
      exact hnoAccount line h.old_key
    · intro l hl
      cases hl
      exact hnoAccount line' h.new_key
  · intro before l _ x hx
    cases hx
    exact Line.not_isInner_of_hasKey h.old_key _

/-! ## Ends of items -/

theorem precedesAccount_append_of_deeper {column : Nat} {between ls : List Line}
    (h : ∀ l ∈ between, l.isDeeper column = true) :
    precedesAccount column (between ++ ls) = precedesAccount column ls := by
  rw [precedesAccount, List.dropWhile_append_of_pos h, precedesAccount]

theorem precedesAccount_append_of_not_deeper {column : Nat} {between ls : List Line} {l : Line}
    (hmem : l ∈ between) (h : l.isDeeper column = false) :
    precedesAccount column (between ++ ls) = precedesAccount column between := by
  have hne : between.dropWhile (Line.isDeeper column) ≠ [] := by
    intro hnil
    rw [List.dropWhile_eq_nil_iff.1 hnil l hmem] at h
    cases h
  rw [precedesAccount, List.dropWhile_append, if_neg (by simpa using hne), precedesAccount,
    List.head?_append_of_ne_nil _ hne]

theorem precedesAccount_of_stops {width column : Nat} {ls : List Line} (h : Stops width ls)
    (hlt : width < column) : precedesAccount column ls = false := by
  rw [precedesAccount, (h.mono (Nat.le_of_lt hlt)).dropWhile, Option.any_eq_false]
  intro l hl
  have hstop := h l hl
  rw [← Bool.not_eq_true, Line.isDeeper_iff] at hstop
  rw [← Bool.not_eq_true, Bool.and_eq_true, beq_iff_eq]
  rintro ⟨hindent, hkey⟩
  exact hstop ⟨Line.not_isBlank_of_hasKey hkey, by omega⟩

/-- Lines that are added at the end of an item do not make a block in it precede an account. -/
theorem precedesAccount_of_end {column width : Nat} {first : Line} {new behind : List Line}
    (hstops : Stops width behind) (hlt : width < column)
    (hdeeper : column < first.indent → ∀ l ∈ first :: new, l.isDeeper column = true)
    (haccount : first.hasKey "serviceAccountName".toList = false) :
    precedesAccount column (first :: new ++ behind) = precedesAccount column behind := by
  rw [precedesAccount_of_stops hstops hlt]
  by_cases hfirst : column < first.indent
  · rw [precedesAccount_append_of_deeper (hdeeper hfirst), precedesAccount_of_stops hstops hlt]
  · have hstop : first.isDeeper column = false := by
      rw [← Bool.not_eq_true, Line.isDeeper_iff]
      exact fun h => hfirst h.2
    rw [precedesAccount, List.cons_append, List.dropWhile_cons_of_neg (by simp [hstop]),
      List.head?_cons, Option.any_some, haccount, Bool.and_false]

theorem IsMove.of_end (hitem : dash.isItem = true)
    (hinner : ∀ l ∈ inner, l.isDeeper dash.indent = true) (hstops : Stops dash.indent behind)
    (hblank : first.isBlank = false) (hindent : dash.indent ≤ first.indent)
    (hrest : ∀ l ∈ rest, l.isBlank = false ∧ first.indent ≤ l.indent)
    (haccount : first.hasKey "serviceAccountName".toList = false)
    (hitems : ∀ l ∈ first :: rest, l.isItem = false) (hinert : ∀ l ∈ first :: rest, l.IsInert)
    (hindented : ∀ l ∈ first :: rest, l.IsIndented) :
    IsMove (start ++ dash :: inner) [] (first :: rest) behind := by
  have hswap : IsSwap [] (first :: rest) behind :=
    .of_stops hblank hrest (hstops.mono hindent)
  have hdeeper : ∀ {column}, column < first.indent →
      ∀ l ∈ first :: rest, l.isDeeper column = true := by
    intro column hlt
    refine List.forall_mem_cons.2 ⟨Line.isDeeper_iff.2 ⟨hblank, hlt⟩, fun l hl => ?_⟩
    have hle := (hrest l hl).2
    exact Line.isDeeper_iff.2 ⟨(hrest l hl).1, by omega⟩
  have hcolumn : ∀ l ∈ dash :: inner, dash.indent < l.column :=
    List.forall_mem_cons.2 ⟨Line.indent_lt_column hitem, fun l hl =>
      Nat.lt_of_lt_of_le (Line.isDeeper_iff.1 (hinner l hl)).2 l.indent_le_column⟩
  refine ⟨⟨hswap, hinert, hindented⟩, List.cons_ne_nil _ _, ?_, ?_, ?_⟩
  · intro front l rest' heq hl
    rw [hitems l (by rw [heq]; simp)] at hl
    cases hl
  · intro before line between heq hkey
    rw [List.nil_append]
    -- a block that reaches the end of the item starts in it, or takes the new lines as well
    by_cases hall : ∀ l ∈ between, l.isDeeper line.column = true
    · rw [precedesAccount_append_of_deeper hall, precedesAccount_append_of_deeper hall]
      rcases cases_of_append_eq heq with ⟨r, rfl, rfl⟩ | ⟨s, rfl, hs⟩
      · have hdash := (Line.isDeeper_iff.1 (hall dash (by simp))).2
        rw [precedesAccount_append_of_deeper (hdeeper (by omega))]
      · have hlt := hcolumn line (by rw [hs]; simp)
        exact precedesAccount_of_end hstops hlt hdeeper haccount
    · simp only [not_forall, Bool.not_eq_true] at hall
      obtain ⟨l, hl, hstop⟩ := hall
      rw [precedesAccount_append_of_not_deeper hl hstop,
        precedesAccount_append_of_not_deeper hl hstop]
  · intro before line heq l hl hinnerLine
    have hline : line ∈ dash :: inner := by
      have hlast := congrArg List.getLast? heq
      rw [List.getLast?_append_of_ne_nil _ (List.cons_ne_nil dash inner),
        List.getLast?_append_of_ne_nil _ (List.cons_ne_nil line [])] at hlast
      exact List.mem_of_getLast? hlast
    have hstop := hstops l hl
    have hlt := hcolumn line hline
    have hdeep := hinnerLine.deep
    rw [← Bool.not_eq_true, Line.isDeeper_iff] at hstop
    exact hstop ⟨hinnerLine.blank, by omega⟩

end Blocks

/-! ## Keys that stay what they are -/

section Quiet

variable {key key' : Text} {column : Nat} {above body value after : List Line} {line line' : Line}

/-- A line of a block stands right of the block's column, unless it is a directive or a comment. -/
theorem Line.lt_column_of_continues {style : BlockStyle} {l : Line} {width : Nat}
    (h : style.continues width l = true) (hdirective : l.isDirective = false)
    (hcomment : l.isComment = false) : width < l.column := by
  have hwidth := Grouped.le_indent_of_continues h
  have hindent := l.indent_le_column
  cases hitem : l.isItem with
  | true =>
      have hlt := Line.indent_lt_column hitem
      omega
  | false =>
      have hkeeps : style.keepsAtColumn l = false := by
        cases style with
        | mapping => rfl
        | item => rfl
        | sequence => rw [BlockStyle.keepsAtColumn, hitem, hdirective, hcomment]; rfl
      rw [BlockStyle.continues, hkeeps, Bool.and_false, Bool.or_false, Bool.and_eq_true,
        decide_eq_true_eq] at h
      omega

theorem Line.not_isDirective_of_hasKey {l : Line}
    (hkey : key.head?.any (fun c => c != '{' && c != '#') = true) (h : l.hasKey key = true) :
    l.isDirective = false ∧ l.isComment = false := by
  obtain ⟨c, tail, rfl⟩ : ∃ c tail, key = c :: tail := by
    cases key with
    | nil => cases hkey
    | cons c tail => exact ⟨c, tail, rfl⟩
  obtain ⟨hbrace, hhash⟩ : c ≠ '{' ∧ c ≠ '#' := by simpa using hkey
  have hhead : ∃ d rest, l.trimmed = d :: rest ∧ d ≠ '{' ∧ d ≠ '#' := by
    cases hitem : l.isItem with
    | true =>
        rw [Line.isItem, Bool.or_eq_true, beq_iff_eq, List.isPrefixOf_iff_prefix] at hitem
        rcases hitem with hdash | ⟨rest, hrest⟩
        · exact ⟨'-', [], hdash, by decide, by decide⟩
        · exact ⟨'-', ' ' :: rest, hrest.symm, by decide, by decide⟩
    | false =>
        unfold Line.hasKey at h
        split at h
        · rename_i name rest hsplit
          refine ⟨c, tail ++ ':' :: rest, ?_, hbrace, hhash⟩
          rw [← List.cons_append, ← beq_iff_eq.1 h, ← Line.eq_of_splitOnce? hsplit, Line.content,
            if_neg (by simp [hitem])]
        · cases h
  obtain ⟨d, rest, hrest, hbrace, hhash⟩ := hhead
  rw [Line.isDirective, Line.isComment, hrest]
  simp [List.isPrefixOf, Ne.symm hbrace, Ne.symm hhash]

/-- No line of a block is a key of the manager left of the block. -/
theorem not_isDirect_of_continues {style : BlockStyle} {l : Line} {width : Nat}
    (h : style.continues width l = true) (hle : column ≤ width) (hkey : key ∈ managedKeys) :
    l.isDirect column key = false := by
  have hheads : ∀ key ∈ managedKeys, key.head?.any (fun c => c != '{' && c != '#') = true := by
    decide
  rw [← Bool.not_eq_true, Line.isDirect_iff]
  rintro ⟨hcolumn, hhas⟩
  obtain ⟨hdirective, hcomment⟩ := Line.not_isDirective_of_hasKey (hheads key hkey) hhas
  have hlt := Line.lt_column_of_continues h hdirective hcomment
  omega

/-- An edit of a key leaves the manager's other keys alone. -/
theorem IsReplacement.quiet (h : IsReplacement key line body line' value after)
    (hne : key' ≠ key) (hplace : ∀ column front, InManager column front above (line :: body) after →
      column ≤ line.column)
    (hbody : ∀ column, column ≤ line.column → ∀ l ∈ body ++ value, l.isDirect column key' = false) :
    Quiet key' above (line :: body) (line' :: value) after := by
  intro column front hin l hl
  have hle := hplace column front hin
  rw [List.mem_append, List.mem_cons, List.mem_cons] at hl
  rcases hl with (rfl | hl) | rfl | hl
  · exact Line.not_isDirect_of_hasKey h.old_key hne.symm
  · exact hbody column hle l (List.mem_append_left _ hl)
  · exact Line.not_isDirect_of_hasKey h.new_key hne.symm
  · exact hbody column hle l (List.mem_append_right _ hl)

end Quiet

/-! ## Fields -/

structure ValuesField.IsEditable (field : ValuesField) : Prop extends field.IsSound where
  managed : field.key ∈ managedKeys
  style : field.style ≠ .item

namespace Values

theorem isEditable_env : env.IsEditable :=
  ⟨isSound_env, by decide, by decide⟩

theorem isEditable_resources : resources.IsEditable :=
  ⟨isSound_resources, by decide, by decide⟩

theorem isEditable_podSecurityContext : podSecurityContext.IsEditable :=
  ⟨isSound_podSecurityContext, by decide, by decide⟩

theorem isEditable_containerSecurityContext : containerSecurityContext.IsEditable :=
  ⟨isSound_containerSecurityContext, by decide, by decide⟩

end Values

namespace ValuesField

variable {field : ValuesField} {key : Text} {above before after : List Line} {line : Line}
  {column width : Nat}

theorem isIndented_of_mem_value (h : field.IsSound) {l : Line} (hl : l ∈ field.value width) :
    l.IsIndented := by
  have hdirective : ∀ directive : Directive,
      Line.IsIndented (padding width ++ directive.render) := by
    intro directive
    obtain ⟨rest, hrest⟩ := directive.exists_render_cons
    rw [hrest]
    exact Line.isIndented_append (isIndentation_padding width) rfl
  have hfallback : Line.IsIndented (padding width ++ field.fallback) := by
    rcases h.fallback with hfallback | hfallback <;> rw [hfallback]
    · exact Line.isIndented_append (isIndentation_padding width) rfl
    · exact Line.isIndented_append (isIndentation_padding width) rfl
  simp only [value, List.map_cons, List.map_nil, List.mem_cons, List.not_mem_nil,
    or_false] at hl
  rcases hl with rfl | rfl | rfl | rfl | rfl
  · exact hdirective _
  · exact hdirective _
  · exact hdirective _
  · exact hfallback
  · exact hdirective _

/-- The key of a field in the place of a line with this key. -/
def entryAt (field : ValuesField) (line : Line) : Line :=
  line.withEntry (field.key ++ ':' :: [])

theorem render_withEntry (field : ValuesField) (line : Line) :
    field.render (line.leading ++ line.marker) line.column =
      field.entryAt line :: field.value (line.column + 2) := by
  rw [render_eq, entryAt, Line.withEntry]
  simp

/-- The lines of a field take the place of a block with its key. -/
theorem isReplacement_value (h : field.IsEditable) (hkey : line.hasKey field.key = true)
    {body : List Line} (hbody : ∀ l ∈ body, field.style.continues line.column l = true)
    (after : List Line) :
    IsReplacement field.key line body (field.entryAt line) (field.value (line.column + 2))
      after := by
  have hmarker := Line.isMarker_of_hasKey hkey
  have hinner := isInner_value h.toIsSound line.column
  refine ⟨hkey, Line.hasKey_withEntry h.key hmarker [], Line.indent_withEntry h.key hmarker [],
    Line.column_withEntry h.key hmarker [], Line.isItem_withEntry h.key hmarker [], ?_,
    fun l hl => ⟨(hinner l hl).blank, Nat.le_of_lt (hinner l hl).deep⟩,
    fun l hl => (hinner l hl).isInert, ?_, ?_⟩
  · exact fun l hl => BlockStyle.deep_of_continues (hbody l hl)
  · exact List.forall_mem_cons.2 ⟨Line.isIndented_withEntry h.key hmarker [],
      fun l hl => isIndented_of_mem_value h.toIsSound hl⟩
  · intro l hl hitem
    rw [(hinner l hl).no_item] at hitem
    cases hitem

theorem isReplacement_render (h : field.IsEditable) (hkey : line.hasKey field.key = true)
    (after : List Line) :
    IsReplacement field.key line (after.takeWhile (field.style.continues line.column))
      (field.entryAt line) (field.value (line.column + 2))
      (after.dropWhile (field.style.continues line.column)) :=
  isReplacement_value h hkey (fun _ hl => List.mem_takeWhile_imp hl) _

theorem quiet_render (h : field.IsEditable) (hkey : line.hasKey field.key = true)
    (hmanaged : key ∈ managedKeys) (hne : key ≠ field.key)
    (hplace : ∀ column front, InManager column front above
      (line :: after.takeWhile (field.style.continues line.column))
      (after.dropWhile (field.style.continues line.column)) → column ≤ line.column) :
    Quiet key above (line :: after.takeWhile (field.style.continues line.column))
      (field.entryAt line :: field.value (line.column + 2))
      (after.dropWhile (field.style.continues line.column)) := by
  refine (isReplacement_render h hkey after).quiet hne hplace fun column hle l hl => ?_
  rcases List.mem_append.1 hl with hl | hl
  · exact not_isDirect_of_continues (List.mem_takeWhile_imp hl) hle hmanaged
  · rw [Line.isDirect, (isInner_value h.toIsSound _ l hl).no_key key, Bool.and_false]

theorem isSettled_value (h : field.IsSound) (hcolumn : line.column < width)
    (rest : List Line) : field.IsSettled line (field.value width ++ rest) :=
  ⟨_, _, rfl, isInner_of_mem_value h hcolumn List.mem_cons_self,
    ⟨padding width ++ "\x7b\x7b- if ".toList, " \x7d\x7d".toList, by
      rw [Directive.render_ifThen]
      simp only [List.append_assoc]⟩⟩

/-- An edit of a field whose lookup does not occur in the document renders the field. -/
theorem fill_around (h : field.IsEditable) (hkey : line.hasKey field.key = true)
    (hline : line.IsIndented) (hfresh : ∀ l ∈ before ++ line :: after, ¬ field.path <:+: l) :
    field.fill (before ++ line :: after) before.length =
      .ok (before ++ (field.entryAt line :: field.value (line.column + 2) ++
        after.dropWhile (field.style.continues line.column))) := by
  have hprefix := Line.keyPrefix_eq hline (Line.not_isBlank_of_hasKey hkey)
  have hrendered : splice (before ++ line :: after)
      (Block.locate field.style (before ++ line :: after) before.length).start
      (Block.locate field.style (before ++ line :: after) before.length).stop
      (field.render (line.leading ++ line.marker) line.column) =
        before ++ (field.entryAt line :: field.value (line.column + 2) ++
          after.dropWhile (field.style.continues line.column)) := by
    rw [splice_locate, BlockStyle.column_eq h.style, render_withEntry, List.append_assoc]
  rw [fill, if_neg (by rw [not_found_of_forall hfresh]; decide), lineAt_length, hprefix]
  exact congrArg Except.ok hrendered

end ValuesField

end OperatorChart
