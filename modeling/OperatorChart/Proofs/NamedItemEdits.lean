import OperatorChart.Proofs.NamedItems
/-!
# The item that is found in a changed document

A block that is replaced by lines as deep takes no owner away from the lines behind it and gives
them none. So the item that the search finds is found again after an edit of one of its keys, after
lines are added at its end, and after a block in front of it or behind it is replaced.
-/

namespace OperatorChart

open Text

/-! ## Owners of entries -/

section Owners

variable {column : Nat} {above below : List Line} {line entry : Line}

/-- Whether the nearest line that is blank or indented less than a column is the dash line of an
item with its keys at the column. -/
def Owned (column : Nat) (ls : List Line) : Prop :=
  ∃ front dash between, ls = front ++ dash :: between ∧ dash.isItem = true ∧
    dash.column = column ∧ ∀ l ∈ between, Container.isOwnerStop column l = false

theorem isOwned_iff : IsOwned above entry ↔ entry.isItem = true ∨ Owned entry.indent above := by
  refine or_congr_right ⟨?_, ?_⟩
  · rintro ⟨front, dash, between, heq, howns⟩
    exact ⟨front, dash, between, heq, howns.item, howns.column, howns.between⟩
  · rintro ⟨front, dash, between, heq, hitem, hcolumn, hbetween⟩
    exact ⟨front, dash, between, heq, hitem, hcolumn, hbetween⟩

/-- An owner stands in the last part of a document, or this part does not stop the search. -/
theorem owned_append : Owned column (above ++ below) ↔ Owned column below ∨
    (∀ l ∈ below, Container.isOwnerStop column l = false) ∧ Owned column above := by
  constructor
  · rintro ⟨front, dash, between, heq, hdash⟩
    rcases cases_of_append_eq heq with ⟨r, rfl, rfl⟩ | ⟨s, rfl, rfl⟩
    · obtain ⟨hitem, hcolumn, hbetween⟩ := hdash
      rw [List.forall_mem_append] at hbetween
      exact .inr ⟨hbetween.2, front, dash, r, rfl, hitem, hcolumn, hbetween.1⟩
    · exact .inl ⟨s, dash, between, rfl, hdash⟩
  · rintro (⟨front, dash, between, rfl, hdash⟩ | ⟨hbelow, front, dash, between, rfl, hitem,
      hcolumn, hbetween⟩)
    · exact ⟨above ++ front, dash, between, by simp, hdash⟩
    · exact ⟨front, dash, between ++ below, by simp, hitem, hcolumn,
        List.forall_mem_append.2 ⟨hbetween, hbelow⟩⟩

theorem owned_singleton : Owned column [line] ↔ line.isItem = true ∧ line.column = column := by
  constructor
  · rintro ⟨front, dash, between, heq, hitem, hcolumn, -⟩
    obtain ⟨rfl, rfl, rfl⟩ : front = [] ∧ dash = line ∧ between = [] := by
      rw [List.singleton_eq_append_iff] at heq
      simpa [and_assoc, eq_comm] using heq
    exact ⟨hitem, hcolumn⟩
  · rintro ⟨hitem, hcolumn⟩
    exact ⟨[], line, [], rfl, hitem, hcolumn, by simp⟩

end Owners

/-! ## Blocks that take the place of others -/

section Replaced

variable {name key : Text} {ls start inner inner' behind above before body value between back after
  below : List Line} {dash dash' line line' entry : Line}

theorem Line.indent_le_of_not_isDeeper {width : Nat} (hblank : line.isBlank = false)
    (h : line.isDeeper width = false) : line.indent ≤ width := by
  rw [← Bool.not_eq_true, Line.isDeeper_iff] at h
  exact Nat.le_of_not_lt fun hlt => h ⟨hblank, hlt⟩

/-- A line behind a block that has its owner in the block or in front of it is not indented deeper
than the key of the block. -/
theorem indent_le_of_stops (hentry : entry.isBlank = false)
    (hstops : Stops line.column (between ++ entry :: below))
    (hbetween : ∀ l ∈ between, Container.isOwnerStop entry.indent l = false) :
    entry.indent ≤ line.column := by
  cases between with
  | nil => exact Line.indent_le_of_not_isDeeper hentry (stops_cons.1 hstops)
  | cons first between =>
      have hfirst := hbetween first List.mem_cons_self
      rw [Container.isOwnerStop, Bool.or_eq_false_iff, decide_eq_false_iff_not] at hfirst
      have hle := Line.indent_le_of_not_isDeeper hfirst.1 (stops_cons.1 hstops)
      omega

theorem isOwnerStop_of_deep {column : Nat} (hle : entry.indent ≤ column)
    (hdeep : ∀ l ∈ body, l.isBlank = false ∧ column ≤ l.indent) :
    ∀ l ∈ body, Container.isOwnerStop entry.indent l = false := by
  intro l hl
  obtain ⟨hblank, hindent⟩ := hdeep l hl
  rw [Container.isOwnerStop, hblank, Bool.false_or, decide_eq_false_iff_not]
  omega

/-- What takes the place of a block: a line that is indented and opens an item as the block's first
line does, and other lines that stand as deep as the rest of the block. -/
structure KeepsPlace (line : Line) (body : List Line) (line' : Line) (value : List Line) : Prop
    where
  old_solid : line.isBlank = false
  new_solid : line'.isBlank = false
  same_indent : line'.indent = line.indent
  same_column : line'.column = line.column
  same_item : line'.isItem = line.isItem
  old_deep : ∀ l ∈ body, l.isBlank = false ∧ line.column ≤ l.indent
  new_deep : ∀ l ∈ value, l.isBlank = false ∧ line.column ≤ l.indent

theorem IsReplacement.keepsPlace (h : IsReplacement key line body line' value after) :
    KeepsPlace line body line' value :=
  ⟨Line.not_isBlank_of_hasKey h.old_key, Line.not_isBlank_of_hasKey h.new_key, h.same_indent,
    h.same_column, h.same_item, h.old_deep, h.new_deep⟩

section Replacement

variable (hreplace : KeepsPlace line body line' value)

include hreplace

theorem KeepsPlace.isOwnerStop_eq (column : Nat) :
    Container.isOwnerStop column line' = Container.isOwnerStop column line := by
  rw [Container.isOwnerStop, Container.isOwnerStop, hreplace.same_indent, hreplace.old_solid,
    hreplace.new_solid]

/-- A line that is not deeper than the key of a replaced block has no owner in the block that it did
not have before: only the first line of the new lines can be the dash line. -/
theorem KeepsPlace.owned_of_new (hle : entry.indent ≤ line.column)
    (h : Owned entry.indent (line' :: value)) : Owned entry.indent (line :: body) := by
  obtain ⟨front, dash, rest, heq, hitem, hcolumn, -⟩ := h
  cases front with
  | nil =>
      obtain ⟨rfl, -⟩ := List.cons.inj heq
      exact ⟨[], line, body, rfl, hreplace.same_item ▸ hitem, hreplace.same_column ▸ hcolumn,
        isOwnerStop_of_deep hle hreplace.old_deep⟩
  | cons first front =>
      obtain ⟨rfl, hvalue⟩ := List.cons.inj heq
      have hdeep := (hreplace.new_deep dash (by rw [hvalue]; simp)).2
      have hlt := Line.indent_lt_column hitem
      omega

theorem IsOwned.of_replacement (hentry : entry.isBlank = false)
    (hstops : Stops line.column (between ++ entry :: below))
    (h : IsOwned (above ++ (line' :: value ++ between)) entry) :
    IsOwned (above ++ (line :: body ++ between)) entry := by
  simp only [isOwned_iff, owned_append, List.forall_mem_append] at h ⊢
  refine h.imp_right ?_
  -- the owner stands behind the block, in it, or in front of it
  rintro ((hbetween | ⟨hbetween, hblock⟩) | ⟨⟨hblock, hbetween⟩, habove⟩)
  · exact .inl (.inl hbetween)
  · have hle := indent_le_of_stops hentry hstops hbetween
    exact .inl (.inr ⟨hbetween, hreplace.owned_of_new hle hblock⟩)
  · have hle := indent_le_of_stops hentry hstops hbetween
    have hline := hblock line' List.mem_cons_self
    rw [hreplace.isOwnerStop_eq] at hline
    exact .inr ⟨⟨List.forall_mem_cons.2 ⟨hline, isOwnerStop_of_deep hle hreplace.old_deep⟩,
      hbetween⟩, habove⟩

theorem Unnamed.replace (h : Unnamed name (above ++ (line :: body ++ back)))
    (hname : ∀ l ∈ line' :: value, l.isNamed name = false) (hstops : Stops line.column back) :
    Unnamed name (above ++ (line' :: value ++ back)) := by
  refine h.of_append.append fun front entry below heq hentry howned => ?_
  rcases cases_of_append_eq heq with ⟨r, hblock, -⟩ | ⟨s, rfl, rfl⟩
  · rw [hname entry (by rw [hblock]; simp)] at hentry
    cases hentry
  · exact h (above ++ (line :: body ++ s)) entry below (by simp) hentry
      (howned.of_replacement hreplace (Line.not_isBlank_of_hasKey (Line.hasKey_of_isEntry hentry))
        hstops)

end Replacement

/-! ## Edits of the item -/

section Edited

/-- The entry that names an item names it still when the block of another key changes into lines
that the search for an owner passes like the block, and that give no name to the lines behind. -/
theorem IsNamedItem.exists_named (h : IsNamedItem name dash inner)
    (hitem : dash :: inner = front ++ (line :: body ++ back))
    (hitem' : dash' :: inner' = front ++ (line' :: value ++ back))
    (hkind : line'.isItem = line.isItem) (hcolumn : line'.column = line.column)
    (hstop : ∀ column, Container.isOwnerStop column line' = Container.isOwnerStop column line)
    (hvalue : ∀ l ∈ value, Container.isOwnerStop dash.column l = false)
    (hline : line.isNamed name = false)
    (hbody : ∀ l ∈ body, l.isNamed name = true → l.isItem = false → l.indent ≠ dash.column)
    (hunnamed : ∀ s, s <+: back → Unnamed name (front ++ (line :: body ++ s)) →
      Unnamed name (front ++ (line' :: value ++ s))) :
    ∃ above entry below, dash' :: inner' = above ++ entry :: below ∧
      entry.isNamed name = true ∧ Unnamed name above ∧
      (above = [] ∨ entry.isItem = false ∧ ∃ between, above = dash' :: between ∧
        Owns dash' between entry) := by
  obtain ⟨above, entry, below, heq, hentry, habove, howner⟩ := h.named
  rcases cases_of_append_eq (hitem.symm.trans heq) with ⟨r, rfl, -⟩ | ⟨s, rfl, hs⟩
  · -- the entry stands in front of the block
    refine ⟨above, entry, r ++ (line' :: value ++ back), by simp [hitem'], hentry, habove,
      howner.imp_right ?_⟩
    rintro ⟨hplain, between, rfl, howns⟩
    obtain ⟨rfl, -⟩ := List.cons.inj hitem'
    exact ⟨hplain, between, rfl, howns⟩
  cases s with
  | nil =>
      obtain ⟨rfl, -⟩ := List.cons.inj hs
      rw [hline] at hentry
      cases hentry
  | cons first s =>
      rw [List.cons_append, List.cons_append] at hs
      obtain ⟨rfl, htail⟩ := List.cons.inj hs
      obtain ⟨hplain, between, hbetween, hdashItem, howns, hfree⟩ := howner.resolve_left (by simp)
      rcases cases_of_append_eq htail with ⟨r, rfl, -⟩ | ⟨s, rfl, rfl⟩
      · exact absurd howns.symm (hbody entry (by simp) hentry hplain)
      · -- the entry stands behind the block
        refine ⟨front ++ (line' :: value ++ s), entry, below, by simp [hitem'], hentry,
          hunnamed s (List.prefix_append s _) habove, .inr ⟨hplain, ?_⟩⟩
        rw [howns] at hvalue
        cases front with
        | nil =>
            obtain ⟨rfl, rfl⟩ := List.cons.inj hbetween
            obtain ⟨rfl, -⟩ := List.cons.inj hitem'
            rw [List.forall_mem_append] at hfree
            exact ⟨value ++ s, rfl, hkind.trans hdashItem, hcolumn.trans howns,
              List.forall_mem_append.2 ⟨hvalue, hfree.2⟩⟩
        | cons first front =>
            rw [List.cons_append] at hbetween
            obtain ⟨rfl, rfl⟩ := List.cons.inj hbetween
            obtain ⟨rfl, -⟩ := List.cons.inj hitem'
            refine ⟨front ++ (line' :: value ++ s), rfl, hdashItem, howns, ?_⟩
            simp only [List.forall_mem_append, List.forall_mem_cons] at hfree ⊢
            rw [hstop]
            exact ⟨hfree.1, ⟨hfree.2.1, hvalue⟩, hfree.2.2.2⟩

theorem KeepsPlace.isNamed (hreplace : KeepsPlace line body line' value)
    (h : IsNamedItem name dash inner) (hitem : dash :: inner = front ++ (line :: body ++ back))
    (hcolumn : line.column = dash.column) (hstops : Stops line.column back)
    (hline : line.isNamed name = false)
    (hbody : ∀ l ∈ body, l.isNamed name = true → l.isItem = false → l.indent ≠ line.column)
    (hname : ∀ l ∈ line' :: value, l.isNamed name = false)
    (hdash : dash' :: inner' = front ++ (line' :: value ++ back)) :
    ∃ above entry below, dash' :: inner' = above ++ entry :: below ∧
      entry.isNamed name = true ∧ Unnamed name above ∧
      (above = [] ∨ entry.isItem = false ∧ ∃ between, above = dash' :: between ∧
        Owns dash' between entry) := by
  refine h.exists_named hitem hdash hreplace.same_item hreplace.same_column
    hreplace.isOwnerStop_eq (fun l hl => ?_) hline (hcolumn ▸ hbody) fun s hs habove => ?_
  · obtain ⟨hblank, hle⟩ := hreplace.new_deep l hl
    rw [Container.isOwnerStop, hblank, Bool.false_or, decide_eq_false_iff_not]
    omega
  · refine habove.replace hreplace hname fun l hl => ?_
    obtain ⟨rest, rfl⟩ := hs
    exact hstops l (by rw [List.head?_append, hl, Option.some_or])

theorem IsNamedItem.replace (hreplace : KeepsPlace line body line' value)
    (h : IsNamedItem name dash inner) (hitem : dash :: inner = front ++ (line :: body ++ back))
    (hcolumn : line.column = dash.column) (hstops : Stops line.column back)
    (hline : line.isNamed name = false)
    (hbody : ∀ l ∈ body, l.isNamed name = true → l.isItem = false → l.indent ≠ line.column)
    (hname : ∀ l ∈ line' :: value, l.isNamed name = false) :
    ∃ dash' inner', dash' :: inner' = front ++ (line' :: value ++ back) ∧
      dash'.indent = dash.indent ∧ dash'.column = dash.column ∧ IsNamedItem name dash' inner' := by
  have hlt := Line.indent_lt_column h.item
  have hvalue : ∀ l ∈ value, l.isDeeper dash.indent = true := fun l hl =>
    Line.isDeeper_iff.2 ⟨(hreplace.new_deep l hl).1, by
      have hle := (hreplace.new_deep l hl).2
      omega⟩
  have hdeep := h.deep
  cases front with
  | nil =>
      rw [List.nil_append, List.cons_append] at hitem
      obtain ⟨rfl, rfl⟩ := List.cons.inj hitem
      rw [List.forall_mem_append] at hdeep
      have hsplit : dash :: (body ++ back) = [] ++ (dash :: body ++ back) := rfl
      refine ⟨line', value ++ back, rfl, hreplace.same_indent, hreplace.same_column,
        hreplace.same_item.trans h.item, ?_,
        hreplace.isNamed h hsplit rfl hstops hline hbody hname rfl⟩
      rw [hreplace.same_indent]
      exact List.forall_mem_append.2 ⟨hvalue, hdeep.2⟩
  | cons first front =>
      rw [List.cons_append] at hitem
      obtain ⟨rfl, rfl⟩ := List.cons.inj hitem
      have hsplit : dash :: (front ++ (line :: body ++ back)) =
          (dash :: front) ++ (line :: body ++ back) := rfl
      refine ⟨dash, front ++ (line' :: value ++ back), rfl, rfl, rfl, h.item, ?_,
        hreplace.isNamed h hsplit hcolumn hstops hline hbody hname rfl⟩
      simp only [List.forall_mem_append, List.forall_mem_cons] at hdeep ⊢
      rw [Line.isDeeper_iff] at hdeep ⊢
      rw [hreplace.same_indent, hreplace.new_solid]
      exact ⟨hdeep.1, ⟨⟨rfl, hdeep.2.1.1.2⟩, hvalue⟩, hdeep.2.2⟩

theorem IsNamedItem.append (h : IsNamedItem name dash inner)
    (hadded : ∀ l ∈ value, l.isDeeper dash.indent = true) :
    IsNamedItem name dash (inner ++ value) := by
  obtain ⟨above, entry, below, heq, hnamed⟩ := h.named
  refine ⟨h.item, List.forall_mem_append.2 ⟨h.deep, hadded⟩, above, entry, below ++ value, ?_,
    hnamed⟩
  rw [← List.cons_append, heq, List.append_assoc, List.cons_append]

end Edited

/-! ## Edits of the document -/

namespace FindsItem

variable (h : FindsItem name ls start dash inner behind)

include h

/-- The item is found again when it is changed and still has the name. -/
theorem change_item {value : List Line} (hindent : dash'.indent = dash.indent)
    (hnamed : IsNamedItem name dash' inner') (hitem : dash' :: inner' = value) :
    FindsItem name (start ++ (value ++ behind)) start dash' inner' behind :=
  ⟨by rw [← hitem, List.cons_append], h.fresh, hnamed, hindent ▸ h.stops⟩

/-- The item is found again when lines behind it change and still end it. -/
theorem change_behind {behind' : List Line} (hstops : Stops dash.indent behind') :
    FindsItem name (start ++ dash :: (inner ++ behind')) start dash inner behind' :=
  ⟨rfl, h.fresh, h.item, hstops⟩

/-- The item is found again when a block in front of it is replaced. -/
theorem replace_start (hreplace : KeepsPlace line body line' value)
    (hstart : start = above ++ (line :: body ++ back)) (hstops : Stops line.column back)
    (hname : ∀ l ∈ line' :: value, l.isNamed name = false) :
    FindsItem name (above ++ (line' :: value ++ back) ++ dash :: (inner ++ behind))
      (above ++ (line' :: value ++ back)) dash inner behind := by
  have hfresh := h.fresh
  rw [hstart] at hfresh
  exact ⟨rfl, hfresh.replace hreplace hname hstops, h.item, h.stops⟩

end FindsItem

end Replaced

end OperatorChart
