import OperatorChart.Proofs.Blocks
import OperatorChart.Proofs.GuardLines
import OperatorChart.Proofs.KeyPrefix
/-!
# Keys with guarded values

A key whose value is looked up is followed by a guard that stands deeper than the key. A document
whose guards are all of this kind is a sequence of plain lines and of such groups. A block that
starts at a key takes whole groups or none, so an edit that replaces it leaves a document of the
same kind.
-/

namespace OperatorChart

open Text

/-- A line below a key: deeper than the column of the key, and neither an item nor an entry. -/
structure Line.IsInner (column : Nat) (line : Line) : Prop where
  blank : line.isBlank = false
  deep : column < line.indent
  no_key : ∀ key, line.hasKey key = false
  no_item : line.isItem = false

theorem Line.not_isInner_of_hasKey {line : Line} {key : Text} (h : line.hasKey key = true)
    (column : Nat) : ¬ Line.IsInner column line := by
  intro hinner
  rw [hinner.no_key key] at h
  cases h

theorem Line.not_isInner_of_isItem {line : Line} (h : line.isItem = true) (column : Nat) :
    ¬ Line.IsInner column line := by
  intro hinner
  rw [hinner.no_item] at h
  cases h

/-- Whether lines are a sequence of plain lines and of keys with a guarded value. -/
inductive Grouped : List Line → Prop
  | nil : Grouped []
  | plain {line : Line} {rest : List Line} (hline : line.IsPlain) (hrest : Grouped rest) :
      Grouped (line :: rest)
  | group {head : Line} {body rest : List Line} (hhead : head.IsPlain)
      (hblank : head.isBlank = false) (hbody : ∀ line ∈ body, Line.IsInner head.column line)
      (hscan : Nesting.scan false [] body = some []) (hrest : Grouped rest) :
      Grouped (head :: (body ++ rest))

namespace Grouped

variable {before after ls ls' : List Line} {line : Line}

theorem of_plain (h : ∀ line ∈ ls, line.IsPlain) : Grouped ls := by
  induction ls with
  | nil => exact .nil
  | cons line rest ih =>
      rw [List.forall_mem_cons] at h
      exact .plain h.1 (ih h.2)

theorem append (h : Grouped ls) (h' : Grouped ls') : Grouped (ls ++ ls') := by
  induction h with
  | nil => exact h'
  | plain hline _ ih => exact .plain hline ih
  | group hhead hblank hbody hscan _ ih =>
      rw [List.cons_append, List.append_assoc]
      exact .group hhead hblank hbody hscan ih

theorem step_of_isPlain (h : line.IsPlain) : Nesting.step false [] line = some [] := by
  rw [Nesting.step.eq_def, h.role_eq]
  cases hblank : line.isBlank <;> simp [Nesting.fits, Nesting.admits, hblank]

/-- The guards of such lines are well nested, and no blank line stands in one. -/
theorem scan_eq (h : Grouped ls) : Nesting.scan false [] ls = some [] := by
  induction h with
  | nil => rfl
  | plain hline _ ih =>
      rw [Nesting.scan, step_of_isPlain hline]
      exact ih
  | group hhead _ _ hscan _ ih =>
      rw [Nesting.scan, step_of_isPlain hhead, Option.bind_some, Nesting.scan_append, hscan]
      exact ih

theorem isPlain_of_isItem (h : Grouped ls) (hmem : line ∈ ls) (hitem : line.isItem = true) :
    line.IsPlain := by
  induction h with
  | nil => cases hmem
  | plain hline _ ih =>
      rcases List.mem_cons.1 hmem with rfl | hmem
      · exact hline
      · exact ih hmem
  | group hhead _ hbody _ _ ih =>
      rcases List.mem_cons.1 hmem with rfl | hmem
      · exact hhead
      · rcases List.mem_append.1 hmem with hmem | hmem
        · rw [(hbody line hmem).no_item] at hitem
          cases hitem
        · exact ih hmem

/-- What stands around a line that is no part of a guarded value: a guarded value of its own, if
it has one, comes first behind it. -/
theorem around (h : Grouped (before ++ line :: after))
    (houter : ∀ column, ¬ Line.IsInner column line) :
    Grouped before ∧ line.IsPlain ∧ ∃ body rest, after = body ++ rest ∧
      (∀ l ∈ body, Line.IsInner line.column l) ∧ Nesting.scan false [] body = some [] ∧
      Grouped rest := by
  generalize hls : before ++ line :: after = ls at h
  induction h generalizing before with
  | nil => simp at hls
  | @plain first rest hline hrest ih =>
      cases before with
      | nil =>
          obtain ⟨rfl, rfl⟩ := List.cons.inj hls
          exact ⟨.nil, hline, [], _, rfl, by simp, rfl, hrest⟩
      | cons b before =>
          obtain ⟨rfl, htail⟩ := List.cons.inj hls
          obtain ⟨hbefore, hrest⟩ := ih htail
          exact ⟨.plain hline hbefore, hrest⟩
  | @group head body rest hhead hblank hbody hscan hrest ih =>
      cases before with
      | nil =>
          obtain ⟨rfl, rfl⟩ := List.cons.inj hls
          exact ⟨.nil, hhead, body, rest, rfl, hbody, hscan, hrest⟩
      | cons b before =>
          obtain ⟨rfl, htail⟩ := List.cons.inj hls
          rcases List.append_eq_append_iff.1 htail with
            ⟨inner, hinner, hrest'⟩ | ⟨outer, houter, hrest'⟩
          · cases inner with
            | nil =>
                have hstart : [] ++ line :: after = rest := hrest'
                obtain ⟨-, hrest⟩ := ih hstart
                rw [List.append_nil] at hinner
                refine ⟨?_, hrest⟩
                rw [← hinner, ← List.append_nil body]
                exact .group hhead hblank hbody hscan .nil
            | cons l inner =>
                obtain ⟨rfl, -⟩ := List.cons.inj hrest'
                exact absurd (hbody line (by rw [hinner]; simp)) (houter _)
          · obtain ⟨hbefore, hrest⟩ := ih hrest'.symm
            refine ⟨?_, hrest⟩
            rw [houter]
            exact .group hhead hblank hbody hscan hbefore

theorem continues_of_isInner {column column' : Nat} (style : BlockStyle) (hle : column ≤ column')
    (h : Line.IsInner column' line) : style.continues column line = true := by
  have hdeep := h.deep
  rw [BlockStyle.continues, h.blank]
  simp only [Bool.not_false, Bool.true_and, Bool.or_eq_true, decide_eq_true_eq]
  exact .inl (by omega)

theorem le_indent_of_continues {style : BlockStyle} {column : Nat}
    (h : style.continues column line = true) : column ≤ line.indent := by
  simp only [BlockStyle.continues, Bool.and_eq_true, Bool.or_eq_true, decide_eq_true_eq,
    beq_iff_eq] at h
  omega

theorem takeWhile_append_isInner {column : Nat} {body : List Line} (style : BlockStyle)
    (rest : List Line) (hle : column ≤ line.column)
    (hbody : ∀ l ∈ body, Line.IsInner line.column l) :
    (body ++ rest).takeWhile (style.continues column) =
        body ++ rest.takeWhile (style.continues column) ∧
      (body ++ rest).dropWhile (style.continues column) =
        rest.dropWhile (style.continues column) :=
  have hcontinues := fun l hl => continues_of_isInner style hle (hbody l hl)
  ⟨List.takeWhile_append_of_pos hcontinues, List.dropWhile_append_of_pos hcontinues⟩

/-- A block takes whole groups, and leaves whole groups behind it. -/
theorem split (style : BlockStyle) (column : Nat) (h : Grouped ls) :
    Grouped (ls.takeWhile (style.continues column)) ∧
      Grouped (ls.dropWhile (style.continues column)) := by
  induction h with
  | nil => exact ⟨.nil, .nil⟩
  | @plain line rest hline hrest ih =>
      by_cases hcontinues : style.continues column line = true
      · rw [List.takeWhile_cons_of_pos hcontinues, List.dropWhile_cons_of_pos hcontinues]
        exact ⟨.plain hline ih.1, ih.2⟩
      · rw [List.takeWhile_cons_of_neg hcontinues, List.dropWhile_cons_of_neg hcontinues]
        exact ⟨.nil, .plain hline hrest⟩
  | @group head body rest hhead hblank hbody hscan hrest ih =>
      by_cases hcontinues : style.continues column head = true
      · have hle := le_indent_of_continues hcontinues
        have hcolumn : column ≤ head.column := Nat.le_trans hle (Nat.le_add_right _ _)
        obtain ⟨htake, hdrop⟩ := takeWhile_append_isInner style rest hcolumn hbody
        rw [List.takeWhile_cons_of_pos hcontinues, List.dropWhile_cons_of_pos hcontinues, htake,
          hdrop]
        exact ⟨.group hhead hblank hbody hscan ih.1, ih.2⟩
      · rw [List.takeWhile_cons_of_neg hcontinues, List.dropWhile_cons_of_neg hcontinues]
        exact ⟨.nil, .group hhead hblank hbody hscan hrest⟩

theorem column_le_column (style : BlockStyle) (line : Line) : style.column line ≤ line.column := by
  cases style with
  | item => exact Nat.le_add_right _ _
  | mapping => exact Nat.le_refl _
  | sequence => exact Nat.le_refl _

/-- The block of a line that is no part of a guarded value takes whole groups, and leaves whole
groups before and behind it. -/
theorem around_block (style : BlockStyle) (h : Grouped (before ++ line :: after))
    (houter : ∀ column, ¬ Line.IsInner column line) (hblank : line.isBlank = false) :
    Grouped before ∧ line.IsPlain ∧
      Grouped (line :: after.takeWhile (style.continues (style.column line))) ∧
      Grouped (after.dropWhile (style.continues (style.column line))) := by
  obtain ⟨hbefore, hline, body, rest, rfl, hbody, hscan, hrest⟩ := h.around houter
  obtain ⟨htake, hdrop⟩ := takeWhile_append_isInner style rest
    (column_le_column style line) hbody
  obtain ⟨htaken, hleft⟩ := hrest.split style (style.column line)
  rw [htake, hdrop]
  exact ⟨hbefore, hline, .group hline hblank hbody hscan htaken, hleft⟩

end Grouped

end OperatorChart
