import OperatorChart.Proofs.ManagerEdits
/-!
# What is left of a replaced value

A value may hold blank lines and comments that stand left of it, while the block of its key ends
in front of the first of them. Main statement: a pass that looks a key of the manager up in the
chart's values replaces the value up to there and keeps the rest of it. So a value without blank
lines leaves nothing that would belong to the lines that are written for it.
-/

namespace OperatorChart

open Text

namespace BlockStyle

variable {style : BlockStyle} {column : Nat} {line : Line} {ls : List Line}

/-- The lines of a value at the start of `rest`: a blank line, and a comment where no value can
stand, belong to it when more of the value follows. -/
def extent (style : BlockStyle) (column : Nat) : List Line → List Line
  | [] => []
  | line :: rest =>
    if style.continues column line then line :: extent style column rest
    else if (line.isBlank || line.isComment) && !(extent style column rest).isEmpty then
      line :: extent style column rest
    else []

theorem cases_of_mem_extent (h : line ∈ style.extent column ls) :
    style.continues column line = true ∨ line.isBlank = true ∨ line.isComment = true := by
  induction ls with
  | nil => cases h
  | cons first rest ih =>
      rw [extent] at h
      split at h
      · rename_i hfirst
        rcases List.mem_cons.1 h with rfl | h
        · exact .inl hfirst
        · exact ih h
      split at h
      · rename_i hfiller
        rw [Bool.and_eq_true, Bool.or_eq_true] at hfiller
        rcases List.mem_cons.1 h with rfl | h
        · exact .inr hfiller.1
        · exact ih h
      · cases h

/-- Whether the first line that is not blank does not belong to a value. -/
def EndsBelowBlanks (style : BlockStyle) (column : Nat) (ls : List Line) : Prop :=
  ∀ l, ls.find? (!·.isBlank) = some l → style.continues column l = false

/-- Behind a value no line belongs to it; its block is the part in front of the first blank line or
comment that ends it. -/
theorem exists_behind (style : BlockStyle) (column : Nat) (ls : List Line) :
    ∃ after, ls = style.extent column ls ++ after ∧
      ls.dropWhile (style.continues column) =
        (style.extent column ls).dropWhile (style.continues column) ++ after ∧
      style.EndsBelowBlanks column after := by
  induction ls with
  | nil => exact ⟨[], rfl, rfl, by simp [EndsBelowBlanks]⟩
  | cons line rest ih =>
      obtain ⟨after, hrest, hdrop, hends⟩ := ih
      rw [extent]
      split
      · rename_i hline
        refine ⟨after, ?_, ?_, hends⟩
        · rw [List.cons_append, ← hrest]
        · rw [List.dropWhile_cons_of_pos hline, List.dropWhile_cons_of_pos hline, hdrop]
      rename_i hline
      split
      · refine ⟨after, ?_, ?_, hends⟩
        · rw [List.cons_append, ← hrest]
        · rw [List.dropWhile_cons_of_neg hline, List.dropWhile_cons_of_neg hline,
            List.cons_append, ← hrest]
      · rename_i hfiller
        refine ⟨line :: rest, rfl, List.dropWhile_cons_of_neg hline, fun l hl => ?_⟩
        cases hblank : line.isBlank with
        | false =>
            rw [List.find?_cons_of_pos (by simp [hblank])] at hl
            rw [← Option.some.inj hl, ← Bool.not_eq_true]
            exact hline
        | true =>
            -- nothing of the value follows, so what follows ends it
            rw [hblank, Bool.true_or, Bool.true_and, Bool.not_eq_true', Bool.not_eq_false,
              List.isEmpty_iff] at hfiller
            rw [hfiller, List.nil_append] at hrest
            rw [List.find?_cons_of_neg (by simp [hblank]), hrest] at hl
            exact hends l hl

/-- A value without blank lines leaves nothing that belongs to it right behind its block. -/
theorem endsBelowBlanks_of_solid {value after : List Line}
    (hvalue : ∀ l ∈ value, l.isBlank = false) (hafter : style.EndsBelowBlanks column after) :
    style.EndsBelowBlanks column (value.dropWhile (style.continues column) ++ after) := by
  intro l hl
  cases hrest : value.dropWhile (style.continues column) with
  | nil =>
      rw [hrest, List.nil_append] at hl
      exact hafter l hl
  | cons first rest =>
      have hmem : first ∈ value := (List.dropWhile_suffix _).mem (hrest ▸ List.mem_cons_self)
      rw [hrest, List.cons_append, List.find?_cons_of_pos (by simp [hvalue first hmem])] at hl
      have hfirst := style.ends_dropWhile column value first (by rw [hrest]; rfl)
      rwa [← Option.some.inj hl]

/-- The block of a value is all of it exactly when no blank line and no comment ends it. -/
theorem dropWhile_extent_eq_nil_iff {value : List Line} (h : value = style.extent column ls) :
    value.dropWhile (style.continues column) = [] ↔ ∀ l ∈ value, l.isBlank = false ∧
      (l.isComment = true → style.continues column l = true) := by
  rw [List.dropWhile_eq_nil_iff]
  refine forall₂_congr fun l hl => ⟨fun hcontinues => ⟨?_, fun _ => hcontinues⟩, ?_⟩
  · rw [continues, Bool.and_eq_true, Bool.not_eq_true'] at hcontinues
    exact hcontinues.1
  · rintro ⟨hblank, hcomment⟩
    rcases cases_of_mem_extent (h ▸ hl) with hcontinues | hline | hline
    · exact hcontinues
    · rw [hblank] at hline
      cases hline
    · exact hcomment hline

theorem indent_le_of_not_continues (hblank : line.isBlank = false)
    (h : style.continues column line = false) : line.indent ≤ column ∧
      (style = .sequence → line.indent = column → line.isItem = false) := by
  rw [continues, hblank, Bool.not_false, Bool.true_and, Bool.or_eq_false_iff,
    decide_eq_false_iff_not, Nat.not_lt, Bool.and_eq_false_imp, beq_iff_eq] at h
  refine ⟨h.1, ?_⟩
  rintro rfl hindent
  have hkeeps := h.2 hindent
  rw [keepsAtColumn, Bool.or_eq_false_iff, Bool.or_eq_false_iff] at hkeeps
  exact hkeeps.1.1

end BlockStyle

/-! ## The passes -/

namespace ManagerField

variable {field : ManagerField} {values : ValuesField}

/-- What a key is looked up by; the arguments are not looked up as a whole. -/
def lookup? : ManagerField → Option ValuesField
  | env => some Values.env
  | resources => some Values.resources
  | securityContext => some Values.containerSecurityContext
  | args => none

theorem write_of_lookup? (h : field.lookup? = some values) (line : Line)
    (body behind : List Line) : field.key = values.key ∧ field.style = values.style ∧
      (field.edit.write line body behind = line :: body ∨
        field.edit.write line body behind =
          values.render (line.leading ++ line.marker) line.column) := by
  have hfield : ∀ (field : ValuesField) added,
      (KeyEdit.ofField field added).write line body behind = line :: body ∨
        (KeyEdit.ofField field added).write line body behind =
          field.render (line.leading ++ line.marker) line.column := by
    intro field added
    rw [ValuesField.render_withEntry]
    simp only [KeyEdit.ofField]
    split
    · exact .inl rfl
    · exact .inr rfl
  cases field with
  | env =>
      cases h
      exact ⟨rfl, rfl, hfield _ _⟩
  | resources =>
      cases h
      exact ⟨rfl, rfl, hfield _ _⟩
  | securityContext =>
      cases h
      refine ⟨rfl, rfl, ?_⟩
      simp only [edit, KeyEdit.securityContext]
      split
      · exact .inl rfl
      · exact hfield _ _
  | args => cases h

end ManagerField

namespace Pass

/-- When a pass on an indented text changes a key of the manager that is there, it keeps the lines in
front of the key and those behind its value, and writes the lookup in the place of the key and its
block. A value without blank lines leaves no line behind the lookup that would belong to it, and
no line at all when no comment in it stands where none of its lines can. -/
theorem replaced_value (context : PassContext) {t : Text} {field : ManagerField}
    {values : ValuesField} {key : Nat} (hfield : field.lookup? = some values)
    (ht : t.IsIndented)
    (hkey : (Container.manager? t.lines).bind (·.key? t.lines values.key) = some key)
    (hchanged : field.pass.run context t ≠ .ok t) :
    ∃ out before line value rest after,
      field.pass.run context t = .ok out ∧
      before.length = key ∧
      t.lines = before ++ line :: (value ++ after) ∧
      value = values.style.extent line.column (t.lines.drop (key + 1)) ∧
      rest = value.dropWhile (values.style.continues line.column) ∧
      out.lines = before ++ (values.render (line.leading ++ line.marker) line.column ++
        (rest ++ after)) ∧
      ((∀ l ∈ value, l.isBlank = false) → ∀ l, (rest ++ after).find? (!·.isBlank) = some l →
        l.indent ≤ line.column ∧
          (values.style = .sequence → l.indent = line.column → l.isItem = false)) ∧
      (rest = [] ↔ ∀ l ∈ value, l.isBlank = false ∧
        (l.isComment = true → values.style.continues line.column l = true)) := by
  have hhas := Values.hasKey_of_bind hkey
  obtain ⟨before, tail, hls, rfl⟩ := exists_around (lt_of_hasKey hhas)
  generalize lineAt t.lines before.length = line at hls hhas
  obtain ⟨hname, hstyle, hwrite⟩ := ManagerField.write_of_lookup? hfield line
    (tail.takeWhile (values.style.continues line.column))
    (tail.dropWhile (values.style.continues line.column))
  obtain ⟨ls, hfill, hnew⟩ := field.areIndented_fill ht.areIndented
  have hrun : field.pass.run context t = .ok (Text.ofLines ls) := by
    rw [field.run_pass, hfill, Except.map]
  -- the lines of the block are those that continue it
  have hsplit : t.lines = before ++ line :: (tail.takeWhile (values.style.continues line.column) ++
      tail.dropWhile (values.style.continues line.column)) := by
    rw [List.takeWhile_append_dropWhile, hls]
  have hblock : field.fill t.lines = .ok (before ++ (field.edit.write line
      (tail.takeWhile (values.style.continues line.column))
      (tail.dropWhile (values.style.continues line.column)) ++
        tail.dropWhile (values.style.continues line.column))) := by
    rw [hsplit] at hkey ⊢
    refine ManagerField.fill_of_key (hname ▸ hkey) (hname ▸ hhas) ?_ ?_ ?_
    · exact ht.areIndented.indented line (by rw [hls]; simp)
    · exact fun l hl => hstyle ▸ List.mem_takeWhile_imp hl
    · exact hstyle ▸ values.style.ends_dropWhile line.column tail
  obtain rfl := Except.ok.inj (hfill.symm.trans hblock)
  rcases hwrite with hsame | hwrite
  · rw [hsame, List.cons_append, List.takeWhile_append_dropWhile, ← hls, ofLines_lines] at hrun
    exact absurd hrun hchanged
  obtain ⟨after, htail, hdrop, hends⟩ := values.style.exists_behind line.column tail
  refine ⟨_, before, line, values.style.extent line.column tail, _, after, hrun, rfl, ?_, ?_, rfl,
    ?_, fun hsolid l hl => ?_, BlockStyle.dropWhile_extent_eq_nil_iff rfl⟩
  · rw [← htail, hls]
  · rw [hls, drop_around]
  · rw [lines_ofLines hnew.toAreLines, hwrite, hdrop]
  · have hfirst := BlockStyle.endsBelowBlanks_of_solid hsolid hends l hl
    have hblank := List.find?_some hl
    rw [Bool.not_eq_true'] at hblank
    exact BlockStyle.indent_le_of_not_continues hblank hfirst

/-- An environment on the dash line, with a comment between its items, a text over several lines and
a blank line behind. -/
theorem replaced_value_environment :
    let context : PassContext := ⟨⟨"Deployment".toList, [], [], []⟩, "demo".toList⟩
    let t := Text.ofLines (["- env:", "  - name: A", "    value: |", "      x", "  # next",
      "  - name: B", "", "  name: proxy", "- env:", "  - name: A", "    value: |", "      x",
      "  # next", "  - name: B", "  name: manager", "", "  image: x"].map String.toList)
    let field := ManagerField.env
    let values := Values.env
    field.lookup? = some values ∧ t.IsIndented ∧
      (Container.manager? t.lines).bind (·.key? t.lines values.key) = some 8 ∧
      field.pass.run context t ≠ .ok t ∧
      ∃ out before line value rest after,
        field.pass.run context t = .ok out ∧
        before.length = 8 ∧
        t.lines = before ++ line :: (value ++ after) ∧
        value = values.style.extent line.column (t.lines.drop (8 + 1)) ∧
        rest = value.dropWhile (values.style.continues line.column) ∧
        out.lines = before ++ (values.render (line.leading ++ line.marker) line.column ++
          (rest ++ after)) ∧
        ((∀ l ∈ value, l.isBlank = false) → ∀ l, (rest ++ after).find? (!·.isBlank) = some l →
          l.indent ≤ line.column ∧
            (values.style = .sequence → l.indent = line.column → l.isItem = false)) ∧
        (rest = [] ↔ ∀ l ∈ value, l.isBlank = false ∧
          (l.isComment = true → values.style.continues line.column l = true)) := by
  intro context t field values
  have ht : t.IsIndented := by decide +kernel
  have hkey : (Container.manager? t.lines).bind (·.key? t.lines values.key) = some 8 := by
    decide +kernel
  have hchanged : field.pass.run context t ≠ .ok t := by decide +kernel
  exact ⟨rfl, ht, hkey, hchanged, replaced_value context rfl ht hkey hchanged⟩

/-- Behind a blank line the rest of the resources stays, indented deeper than their key, and so it
does behind a comment at the column of the key. -/
theorem replaced_value_rest_stays :
    let context : PassContext := ⟨⟨"Deployment".toList, [], [], []⟩, "demo".toList⟩
    let run (lines : List String) := (ManagerField.resources.pass.run context
      (Text.ofLines (lines.map String.toList))).map fun out => out.lines.drop 8
    let start := ["containers:", "- name: manager", "  resources:"]
    Text.IsIndented (Text.ofLines ((start ++ ["    limits:", "      cpu: 1", "", "    requests:",
        "      cpu: 1", ""]).map String.toList)) ∧
      run (start ++ ["    limits:", "      cpu: 1", "", "    requests:", "      cpu: 1", ""]) =
        .ok (["", "    requests:", "      cpu: 1", ""].map String.toList) ∧
      run (start ++ ["  # limits", "    limits:", "      cpu: 1", ""]) =
        .ok (["  # limits", "    limits:", "      cpu: 1", ""].map String.toList) ∧
      (["", "    requests:", "      cpu: 1", ""].map String.toList).find? (!Line.isBlank ·) =
        some "    requests:".toList ∧
      Line.column "  resources:".toList < Line.indent "    requests:".toList := by
  intro context run start
  exact ⟨by decide +kernel, by decide +kernel, by decide +kernel, by decide, by decide⟩

end Pass

end OperatorChart
