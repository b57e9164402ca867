import OperatorChart.Container
import OperatorChart.Probe
import OperatorChart.Proofs.LineShape
/-!
# Blocks in a document

A document around one of its lines is what stands before the line, the line, and what stands
behind it. Here the numbers of lines that blocks and edits work with are turned into this form.
-/

namespace OperatorChart

section Around

variable {before after : List Line} {line : Line}

theorem eq_of_cons_eq_append {α : Type} {xs front back : List α} {x y : α}
    (h : x :: xs = front ++ y :: back) (hx : x ∉ front) : front = [] ∧ y = x ∧ back = xs := by
  cases front with
  | nil =>
      obtain ⟨rfl, rfl⟩ := List.cons.inj h
      exact ⟨rfl, rfl, rfl⟩
  | cons z front =>
      obtain ⟨rfl, -⟩ := List.cons.inj h
      exact absurd List.mem_cons_self hx

theorem cases_of_append_eq {α : Type} {xs ys front back : List α} {x : α}
    (h : xs ++ ys = front ++ x :: back) : (∃ r, xs = front ++ x :: r ∧ back = r ++ ys) ∨
      ∃ s, front = xs ++ s ∧ ys = s ++ x :: back := by
  rcases List.append_eq_append_iff.1 h with ⟨s, hfront, hys⟩ | ⟨s, hxs, hback⟩
  · exact .inr ⟨s, hfront, hys⟩
  · cases s with
    | nil => exact .inr ⟨[], by simp [hxs], hback.symm⟩
    | cons first r =>
        obtain ⟨rfl, rfl⟩ := List.cons.inj hback
        exact .inl ⟨r, hxs, rfl⟩

/-- The last line, with the line above the document in its place where there is none. -/
theorem getLast?_cons_or (line : Line) (ls : List Line) (previous : Option Line) :
    (line :: ls).getLast?.or previous = ls.getLast?.or (some line) := by
  rw [List.getLast?_cons]
  cases ls.getLast? <;> rfl

theorem getLast?_cons_eq_or (line : Line) (ls : List Line) :
    (line :: ls).getLast? = ls.getLast?.or (some line) := by
  rw [← getLast?_cons_or line ls none, Option.or_none]

/-- What holds of every line, given the line above it and the lines behind it, holds of the first
line and of all others. -/
theorem forall_split_cons {P : Option Line → Line → List Line → Prop} {first : Line}
    {rest : List Line} {previous : Option Line} :
    (∀ before line after, first :: rest = before ++ line :: after →
      P (before.getLast?.or previous) line after) ↔
    P previous first rest ∧ ∀ before line after, rest = before ++ line :: after →
      P (before.getLast?.or (some first)) line after := by
  constructor
  · refine fun h => ⟨h [] first rest rfl, fun before line after heq => ?_⟩
    rw [← getLast?_cons_or]
    exact h (first :: before) line after (by rw [heq]; rfl)
  · rintro ⟨hfirst, hrest⟩ before line after heq
    cases before with
    | nil =>
        obtain ⟨rfl, rfl⟩ := List.cons.inj heq
        exact hfirst
    | cons other before =>
        obtain ⟨rfl, rfl⟩ := List.cons.inj heq
        rw [getLast?_cons_or]
        exact hrest before line after rfl

@[simp] theorem lineAt_length (before after : List Line) (line : Line) :
    lineAt (before ++ line :: after) before.length = line := by
  simp [lineAt]

theorem lineAt_of_length_le {lines : List Line} {i : Nat} (h : lines.length ≤ i) :
    lineAt lines i = [] := by
  simp [lineAt, h]

theorem lineAt_mem {lines : List Line} {i : Nat} (h : i < lines.length) :
    lineAt lines i ∈ lines := by
  simp [lineAt, h]

theorem lineAt_eq_getElem {lines : List Line} {i : Nat} (h : i < lines.length) :
    lineAt lines i = lines[i] := by
  simp [lineAt, h]

theorem lineAt_append_left {lines : List Line} {i : Nat} (h : i < lines.length)
    (rest : List Line) : lineAt (lines ++ rest) i = lineAt lines i := by
  simp [lineAt, List.getElem?_append_left h]

theorem lineAt_drop (lines : List Line) (k j : Nat) :
    lineAt (lines.drop k) j = lineAt lines (k + j) := by
  simp [lineAt]

theorem exists_around {lines : List Line} {i : Nat} (h : i < lines.length) :
    ∃ before after, lines = before ++ lineAt lines i :: after ∧ before.length = i := by
  refine ⟨lines.take i, lines.drop (i + 1), ?_, by simp; omega⟩
  have hline : lineAt lines i = lines[i] := by simp [lineAt, h]
  rw [hline, List.getElem_cons_drop, List.take_append_drop]

@[simp] theorem drop_around (before after : List Line) (line : Line) :
    (before ++ line :: after).drop (before.length + 1) = after := by
  rw [← List.singleton_append, ← List.append_assoc, List.drop_left' (by simp)]

theorem locate_around (style : BlockStyle) (before after : List Line) (line : Line) :
    Block.locate style (before ++ line :: after) before.length =
      ⟨before.length, before.length + 1 + (style.body (style.column line) after).length,
        style.column line⟩ := by
  rw [Block.locate, lineAt_length, drop_around]

theorem drop_length_takeWhile {α : Type} (p : α → Bool) (xs : List α) :
    xs.drop (xs.takeWhile p).length = xs.dropWhile p := by
  induction xs with
  | nil => rfl
  | cons x xs ih =>
      by_cases h : p x = true
      · rw [List.takeWhile_cons_of_pos h, List.dropWhile_cons_of_pos h]
        exact ih
      · rw [List.takeWhile_cons_of_neg h, List.dropWhile_cons_of_neg h]
        rfl

theorem take_length_takeWhile {α : Type} (p : α → Bool) (xs : List α) :
    xs.take (xs.takeWhile p).length = xs.takeWhile p :=
  (List.prefix_iff_eq_take.1 (List.takeWhile_prefix p)).symm

theorem take_around (before after : List Line) (line : Line) (n : Nat) :
    (before ++ line :: after).take (before.length + 1 + n) = before ++ line :: after.take n := by
  rw [← List.singleton_append, ← List.append_assoc, List.take_append,
    List.take_of_length_le (by simp)]
  simp

theorem drop_around_add (before after : List Line) (line : Line) (n : Nat) :
    (before ++ line :: after).drop (before.length + 1 + n) = after.drop n := by
  rw [← List.drop_drop, drop_around]

theorem splice_locate (style : BlockStyle) (before after replacement : List Line) (line : Line) :
    splice (before ++ line :: after)
        (Block.locate style (before ++ line :: after) before.length).start
        (Block.locate style (before ++ line :: after) before.length).stop replacement =
      before ++ replacement ++ after.dropWhile (style.continues (style.column line)) := by
  rw [locate_around, splice, drop_around_add, BlockStyle.body, drop_length_takeWhile,
    List.take_left]

theorem bodyOf_locate (style : BlockStyle) (before after : List Line) (line : Line) :
    (Block.locate style (before ++ line :: after) before.length).bodyOf
        (before ++ line :: after) = style.body (style.column line) after := by
  rw [locate_around, Block.bodyOf, take_around, drop_around, BlockStyle.body,
    take_length_takeWhile]

theorem Block.stop_locate_le (style : BlockStyle) {ls : List Line} {i : Nat} (h : i < ls.length) :
    i < (Block.locate style ls i).stop ∧ (Block.locate style ls i).stop ≤ ls.length := by
  have hbody := (List.takeWhile_prefix (style.continues (style.column (lineAt ls i)))
    (l := ls.drop (i + 1))).length_le
  rw [List.length_drop] at hbody
  rw [Block.locate, BlockStyle.body]
  dsimp only
  omega

theorem isEmpty_locate (style : BlockStyle) (before after : List Line) (line : Line) :
    (Block.locate style (before ++ line :: after) before.length).isEmpty =
      (style.body (style.column line) after).isEmpty := by
  rw [locate_around, Block.isEmpty]
  cases style.body (style.column line) after with
  | nil => simp
  | cons first rest => simp

end Around

/-! ## Keys of containers -/

theorem hasKey_nil (key : Text) : Line.hasKey [] key = false := by
  apply Line.not_hasKey_of_not_mem
  decide

theorem lt_of_hasKey {lines : List Line} {i : Nat} {key : Text}
    (h : (lineAt lines i).hasKey key = true) : i < lines.length := by
  rw [← Nat.not_le]
  intro hle
  rw [lineAt_of_length_le hle, hasKey_nil] at h
  cases h

theorem hasKey_of_key? {container : Container} {lines : List Line} {key : Text} {i : Nat}
    (h : container.key? lines key = some i) : (lineAt lines i).hasKey key = true := by
  have hfound := List.find?_some h
  rw [Bool.and_eq_true] at hfound
  exact hfound.2

end OperatorChart
