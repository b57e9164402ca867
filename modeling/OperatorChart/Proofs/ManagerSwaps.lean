import OperatorChart.Proofs.ManagerKeys
/-!
# The manager of a changed document

Lines swapped outside of the manager's item leave the item alone, and lines swapped inside of it
change nothing else about it. So the manager of a changed document is known from the manager
before, and the other way round.
-/

namespace OperatorChart

variable {ls above before old new after inner rest : List Line} {dash : Line}

namespace NamesManager

theorem swap (h : IsSwap old new after) (hne : old ≠ [])
    (hname : ∀ l ∈ old, l.isManagerName = false) (hpos : 0 < dash.column)
    (hblank : ∀ l ∈ old, l.isBlank = false)
    (hnames : NamesManager dash (above ++ (old ++ rest))) :
    NamesManager dash (above ++ (new ++ rest)) := by
  rcases hnames with hdash | ⟨front, entry, below, heq, hentry, hplain, hindent, hfront⟩
  · exact .inl hdash
  · right
    rcases cases_of_append_eq heq with ⟨r, rfl, rfl⟩ | ⟨s, rfl, hs⟩
    · exact ⟨front, entry, r ++ (new ++ rest), by simp, hentry, hplain, hindent, hfront⟩
    · rcases cases_of_append_eq hs with ⟨r, rfl, -⟩ | ⟨s', rfl, rfl⟩
      · rw [hname entry (by simp)] at hentry
        cases hentry
      · obtain ⟨first, others, rfl⟩ := List.exists_cons_of_ne_nil hne
        have hfirst : first.isDeeper (dash.column - 1) = true := by
          have hle := hfront first (by simp)
          exact Line.isDeeper_iff.2 ⟨hblank first List.mem_cons_self, by omega⟩
        have hnew : ∀ l ∈ new, dash.column ≤ l.indent := by
          intro l hl
          rcases h (dash.column - 1) with ⟨hstop, -⟩ | ⟨-, hdeeper⟩
          · rw [stops_cons.1 hstop] at hfirst
            cases hfirst
          · have hlt := (Line.isDeeper_iff.1 (hdeeper l hl)).2
            omega
        refine ⟨above ++ (new ++ s'), entry, below, by simp, hentry, hplain, hindent, ?_⟩
        intro l hl
        simp only [List.mem_append] at hl
        rcases hl with hl | hl | hl
        · exact hfront l (by simp [hl])
        · exact hnew l hl
        · exact hfront l (by simp [hl])

/-- Another item at the column of the manager's is the manager's, too, when the name stands behind
the lines that are replaced with the dash line. -/
theorem replace_start {first : Line} {others r back : List Line}
    (hdash : dash.isManagerName = false) (hname : ∀ l ∈ r, l.isManagerName = false)
    (hcolumn : first.column = dash.column) (hothers : ∀ l ∈ others, first.column ≤ l.indent)
    (hnames : NamesManager dash (r ++ back)) : NamesManager first (others ++ back) := by
  rcases hnames with hfound | ⟨front, entry, below, heq, hentry, hplain, hindent, hfront⟩
  · rw [hdash] at hfound
    cases hfound
  · rcases cases_of_append_eq heq with ⟨s, rfl, -⟩ | ⟨s, rfl, rfl⟩
    · rw [hname entry (by simp)] at hentry
      cases hentry
    · refine .inr ⟨others ++ s, entry, below, by simp, hentry, hplain, hindent.trans hcolumn.symm,
        List.forall_mem_append.2 ⟨hothers, fun l hl => ?_⟩⟩
      rw [hcolumn]
      exact hfront l (List.mem_append_right r hl)

end NamesManager

/-- Whether new lines bring no item that could be the manager's, unless it takes the place of an
old one. -/
def KeepsItems (old new after : List Line) : Prop :=
  ∀ front line rest, new = front ++ line :: rest → line.isItem = true →
    (∀ l ∈ (rest ++ after).takeWhile (Line.isDeeper line.indent), l.isManagerName = false) ∨
      (front = [] ∧ ∃ first others, old = first :: others ∧ first.isItem = true ∧
        first.indent = line.indent ∧ first.column = line.column ∧
        (∀ l ∈ others, l.isBlank = false ∧ first.column ≤ l.indent) ∧
        ∀ l ∈ rest, l.isBlank = false ∧ first.column ≤ l.indent)

namespace Manages

theorem column_pos (hitem : dash.isItem = true) : 0 < dash.column :=
  Nat.lt_of_le_of_lt (Nat.zero_le _) (Line.indent_lt_column hitem)

theorem inner_eq {before : List Line} (h : Manages ls before dash inner after) :
    (inner ++ after).takeWhile (Line.isDeeper dash.indent) = inner :=
  h.stops.takeWhile_append_of_deep h.deep

theorem swap {before r rest after : List Line}
    (h : Manages ls before dash (r ++ (old ++ rest)) after)
    (hswap : IsSwap old new (rest ++ after)) (hne : old ≠ [])
    (hname : ∀ l ∈ old, l.isManagerName = false)
    (hnew : ∀ l ∈ new, l.isDeeper dash.indent = true) :
    Manages (before ++ dash :: (r ++ (new ++ rest) ++ after)) before dash
      (r ++ (new ++ rest)) after := by
  refine ⟨rfl, h.item, ?_, h.stops, ?_⟩
  · intro l hl
    simp only [List.mem_append] at hl
    rcases hl with hl | hl | hl
    · exact h.deep l (by simp [hl])
    · exact hnew l hl
    · exact h.deep l (by simp [hl])
  · have hblank : ∀ l ∈ old, l.isBlank = false := fun l hl =>
      (Line.isDeeper_iff.1 (h.deep l (by simp [hl]))).1
    exact h.named.swap hswap hne hname (column_pos h.item) hblank

/-- Lines swapped behind the dash line of the manager's item: the item ends in front of them, or it
takes them in. -/
theorem of_swap_behind {before r after' : List Line} (hswap : IsSwap old new after) (hne : new ≠ [])
    (hname : ∀ l ∈ new, l.isManagerName = false)
    (h : Manages (before ++ dash :: (r ++ (new ++ after))) before dash inner after') :
    (∃ between, r = inner ++ between ∧ after' = between ++ (new ++ after) ∧
        Manages (before ++ dash :: (r ++ (old ++ after))) before dash inner
          (between ++ (old ++ after))) ∨
      ∃ back, after = back ++ after' ∧ inner = r ++ (new ++ back) ∧
        Manages (before ++ dash :: (r ++ (old ++ after))) before dash (r ++ (old ++ back))
          after' := by
  have hinner : r ++ (new ++ after) = inner ++ after' :=
    (List.cons.inj (List.append_cancel_left h.eq)).2
  have hblock := h.inner_eq
  rw [← hinner] at hblock
  rcases hswap.takeWhile dash.indent r with ⟨hold, hnew⟩ | ⟨hold, hnew⟩
  · left
    obtain ⟨between, hr⟩ := List.takeWhile_prefix (Line.isDeeper dash.indent) (l := r)
    rw [← hnew, hblock] at hr hold
    subst hr
    rw [List.append_assoc] at hinner
    have hdrop := List.takeWhile_append_dropWhile (p := Line.isDeeper dash.indent)
      (l := inner ++ between ++ (old ++ after))
    have hstops := stops_dropWhile dash.indent (inner ++ between ++ (old ++ after))
    rw [hold, List.append_assoc inner] at hdrop
    rw [List.append_assoc inner, List.append_cancel_left hdrop] at hstops
    exact ⟨between, rfl, (List.append_cancel_left hinner).symm, by simp, h.item, h.deep, hstops,
      h.named⟩
  · right
    obtain rfl := hblock.symm.trans hnew
    have hsplit : after.takeWhile (Line.isDeeper dash.indent) ++ after' = after := by
      simpa using hinner.symm
    have hblank : ∀ l ∈ new, l.isBlank = false := fun l hl =>
      (Line.isDeeper_iff.1 (h.deep l (by simp [hl]))).1
    have hnames := h.named.swap hswap.symm hne hname (column_pos h.item) hblank
    have hdeep : ∀ l ∈ r ++ (old ++ after.takeWhile (Line.isDeeper dash.indent)),
        l.isDeeper dash.indent = true := by
      rw [← hold]
      exact fun l hl => List.mem_takeWhile_imp hl
    refine ⟨_, hsplit.symm, rfl, ?_, h.item, hdeep, h.stops, hnames⟩
    nth_rewrite 1 [← hsplit]
    simp

/-- A dash line among the new lines that is the manager's takes the place of the first of the old
ones, which was. -/
theorem of_swap_dash {s r after' : List Line}
    (hname : ∀ l ∈ s ++ dash :: r, l.isManagerName = false)
    (hitems : KeepsItems old (s ++ dash :: r) after)
    (h : Manages (above ++ s ++ dash :: (r ++ after)) (above ++ s) dash inner after') :
    s = [] ∧ ∃ back first rest, after = back ++ after' ∧ inner = r ++ back ∧
      old ++ back = first :: rest ∧ first.column = dash.column ∧
      Manages (above ++ (old ++ after)) above first rest after' := by
  have hinner : r ++ after = inner ++ after' :=
    (List.cons.inj (List.append_cancel_left h.eq)).2
  have hblock := h.inner_eq
  rw [← hinner] at hblock
  have hdash : dash.isManagerName = false := hname dash (by simp)
  rcases hitems s dash r rfl h.item with hnone | ⟨rfl, first, others, rfl, hfirst⟩
  · rw [hblock] at hnone
    rcases h.named with hfound | ⟨front, entry, below, hentry, hfound, -⟩
    · rw [hdash] at hfound
      cases hfound
    · rw [hnone entry (by rw [hentry]; simp)] at hfound
      cases hfound
  · obtain ⟨hitem, hindent, hcolumn, hothers, hr⟩ := hfirst
    have hlt := Line.indent_lt_column h.item
    have hdeeper : ∀ ls : List Line, (∀ l ∈ ls, l.isBlank = false ∧ first.column ≤ l.indent) →
        ∀ l ∈ ls, l.isDeeper dash.indent = true := fun ls hls l hl =>
      Line.isDeeper_iff.2 ⟨(hls l hl).1, by have hle := (hls l hl).2; omega⟩
    rw [List.takeWhile_append_of_pos (hdeeper r hr)] at hblock
    subst hblock
    have hsplit : after = after.takeWhile (Line.isDeeper dash.indent) ++ after' := by
      rw [List.append_assoc] at hinner
      exact List.append_cancel_left hinner
    have hnames := h.named.replace_start hdash (fun l hl => hname l (by simp [hl])) hcolumn
      fun l hl => (hothers l hl).2
    have hdeep : ∀ l ∈ others ++ after.takeWhile (Line.isDeeper dash.indent),
        l.isDeeper first.indent = true := by
      rw [hindent]
      exact List.forall_mem_append.2
        ⟨hdeeper others hothers, fun l hl => h.deep l (List.mem_append_right r hl)⟩
    refine ⟨rfl, _, first, _, hsplit, rfl, rfl, hcolumn, ?_, hitem, hdeep, hindent ▸ h.stops,
      hnames⟩
    nth_rewrite 1 [hsplit]
    simp

/-- The manager before a swap, given the one behind it: it stands above the lines that are
swapped, or below them, or around them. -/
theorem of_swap {before after' : List Line} (hswap : IsSwap old new after) (hne : new ≠ [])
    (hname : ∀ l ∈ new, l.isManagerName = false) (hitems : KeepsItems old new after)
    (h : Manages (above ++ (new ++ after)) before dash inner after') :
    (∃ between, above = before ++ dash :: (inner ++ between) ∧
        after' = between ++ (new ++ after) ∧
        Manages (above ++ (old ++ after)) before dash inner (between ++ (old ++ after))) ∨
      (∃ between, before = above ++ (new ++ between) ∧
        after = between ++ dash :: (inner ++ after') ∧
        Manages (above ++ (old ++ after)) (above ++ (old ++ between)) dash inner after') ∨
      ∃ front back first rest, above = before ++ front ∧ after = back ++ after' ∧
        dash :: inner = front ++ (new ++ back) ∧ first :: rest = front ++ (old ++ back) ∧
        first.column = dash.column ∧
        Manages (above ++ (old ++ after)) before first rest after' := by
  -- the dash line stands above the new lines, among them or below them
  rcases cases_of_append_eq h.eq with ⟨r, rfl, -⟩ | ⟨s, rfl, hs⟩
  · rw [List.append_assoc, List.cons_append] at h ⊢
    rcases h.of_swap_behind hswap hne hname with ⟨between, rfl, hafter, hold⟩ |
      ⟨back, hafter, rfl, hold⟩
    · exact .inl ⟨between, rfl, hafter, hold⟩
    · exact .inr (.inr ⟨dash :: r, back, dash, _, rfl, hafter, rfl, rfl, rfl, hold⟩)
  · rcases cases_of_append_eq hs with ⟨r, rfl, -⟩ | ⟨between, rfl, rfl⟩
    · have heq : above ++ (s ++ dash :: r ++ after) = above ++ s ++ dash :: (r ++ after) := by simp
      rw [heq] at h
      obtain ⟨rfl, back, first, rest, hafter, rfl, hrest, hcolumn, hold⟩ :=
        h.of_swap_dash hname hitems
      rw [List.append_nil]
      exact .inr (.inr ⟨[], back, first, rest, by simp, hafter, rfl, hrest.symm, hcolumn, hold⟩)
    · exact .inr (.inl ⟨between, rfl, rfl, by simp, h.item, h.deep, h.stops, h.named⟩)

end Manages

end OperatorChart
