import Mathlib.Data.List.Induction
import OperatorChart.Proofs.Blocks
import OperatorChart.Proofs.FieldEdits
import OperatorChart.Proofs.Swaps
/-!
# The item of the manager

The container that the chart's values configure is the item that owns the entry with the
manager's name. Here the search for it, by numbers of lines, is turned into a statement about the
parts of a document. When the entry occurs once, there is one such item at most.
-/

namespace OperatorChart

open Text

def Line.isManagerName (line : Line) : Bool :=
  line.isEntry "name".toList Container.managerName

/-- What makes an item the manager's: the name stands on its dash line, or on a line of its own at
the column of the item's keys, and no line between is indented less than the keys. -/
def NamesManager (dash : Line) (inner : List Line) : Prop :=
  dash.isManagerName = true ∨ ∃ above entry below, inner = above ++ entry :: below ∧
    entry.isManagerName = true ∧ entry.isItem = false ∧ entry.indent = dash.column ∧
    ∀ l ∈ above, dash.column ≤ l.indent

structure Manages (ls before : List Line) (dash : Line) (inner after : List Line) : Prop where
  eq : ls = before ++ dash :: (inner ++ after)
  item : dash.isItem = true
  deep : ∀ l ∈ inner, l.isDeeper dash.indent = true
  stops : Stops dash.indent after
  named : NamesManager dash inner

theorem Line.indent_lt_column {line : Line} (h : line.isItem = true) :
    line.indent < line.column := by
  have hpos := Char.utf8Size_pos '-'
  rw [Line.column, Line.marker, if_pos h, byteLength_cons]
  omega

theorem Line.hasKey_of_isEntry {line : Line} {key value : Text}
    (h : line.isEntry key value = true) : line.hasKey key = true := by
  unfold Line.isEntry at h
  unfold Line.hasKey
  split at h
  · rw [Bool.and_eq_true] at h
    exact h.1
  · cases h

def NamedOnce (ls : List Line) : Prop :=
  ls.countP Line.isManagerName ≤ 1

instance (ls : List Line) : Decidable (NamedOnce ls) :=
  inferInstanceAs (Decidable (_ ≤ 1))

namespace Container

variable {container : Container}

def isOwnerStop (column : Nat) (line : Line) : Bool :=
  line.isBlank || decide (line.indent < column)

theorem find?_reverse_range (p : Line → Bool) {above below : List Line} {line : Line}
    (hline : p line = true) (hbelow : ∀ l ∈ below, p l = false) (rest : List Line) :
    (List.range (above ++ line :: below).length).reverse.find?
        (fun j => p (lineAt (above ++ line :: below ++ rest) j)) = some above.length := by
  induction below using List.reverseRecOn generalizing rest with
  | nil =>
      have hat : lineAt (above ++ [line] ++ rest) above.length = line := by
        rw [List.append_assoc]
        exact lineAt_length above rest line
      rw [List.length_append, List.length_singleton, List.range_succ, List.reverse_append,
        List.reverse_singleton, List.singleton_append, List.find?_cons_of_pos (by rwa [hat])]
  | append_singleton below x ih =>
      have hx : p x = false := hbelow x (by simp)
      have hsplit : above ++ line :: (below ++ [x]) = (above ++ line :: below) ++ [x] := by simp
      have hat : lineAt ((above ++ line :: below) ++ [x] ++ rest)
          (above ++ line :: below).length = x := by
        rw [List.append_assoc]
        exact lineAt_length (above ++ line :: below) rest x
      rw [hsplit, List.length_append, List.length_singleton, List.range_succ, List.reverse_append,
        List.reverse_singleton, List.singleton_append,
        List.find?_cons_of_neg (by rw [hat, hx]; decide), List.append_assoc]
      exact ih (fun l hl => hbelow l (List.mem_append_left _ hl)) ([x] ++ rest)

theorem find?_reverse_range_eq_none {p : Line → Bool} {before : List Line}
    (h : ∀ l ∈ before, p l = false) (rest : List Line) :
    (List.range before.length).reverse.find? (fun j => p (lineAt (before ++ rest) j)) = none := by
  rw [List.find?_eq_none]
  intro j hj
  rw [List.mem_reverse, List.mem_range] at hj
  have hline : lineAt (before ++ rest) j = before[j] := by
    simp [lineAt, List.getElem?_append_left hj, hj]
  rw [hline, h _ (List.getElem_mem hj)]
  decide

theorem exists_last (p : Line → Bool) (ls : List Line) : (∀ l ∈ ls, p l = false) ∨
    ∃ above line below, ls = above ++ line :: below ∧ p line = true ∧
      ∀ l ∈ below, p l = false := by
  induction ls using List.reverseRecOn with
  | nil => exact .inl (by simp)
  | append_singleton ls x ih =>
      cases hx : p x with
      | true => exact .inr ⟨ls, x, [], rfl, hx, by simp⟩
      | false =>
          rcases ih with hall | ⟨above, line, below, rfl, hline, hbelow⟩
          · left
            intro l hl
            rcases List.mem_append.1 hl with hl | hl
            · exact hall l hl
            · rwa [List.mem_singleton.1 hl]
          · right
            refine ⟨above, line, below ++ [x], by simp, hline, ?_⟩
            intro l hl
            rcases List.mem_append.1 hl with hl | hl
            · exact hbelow l hl
            · rwa [List.mem_singleton.1 hl]

/-! ## The item of an entry -/

theorem isDeeper_of_not_isOwnerStop {column width : Nat} {line : Line}
    (h : isOwnerStop column line = false) (hlt : width < column) :
    line.isDeeper width = true := by
  simp only [isOwnerStop, Bool.or_eq_false_iff, decide_eq_false_iff_not] at h
  exact Line.isDeeper_iff.2 ⟨h.1, by omega⟩

variable {ls before after inner : List Line} {dash entry : Line} {j : Nat}

theorem owner?_eq (lines : List Line) (i column : Nat) : owner? lines i column =
    ((List.range i).reverse.find? fun j => isOwnerStop column (lineAt lines j)).bind fun j =>
      if !(lineAt lines j).isBlank && (lineAt lines j).isItem &&
        (lineAt lines j).column == column then some j else none := by
  rw [owner?]
  simp only [isOwnerStop]
  cases (List.range i).reverse.find? fun j =>
    (lineAt lines j).isBlank || decide ((lineAt lines j).indent < column) <;> rfl

theorem exists_of_owner? {column : Nat}
    (h : owner? (before ++ after) before.length column = some j) :
    ∃ above dash below, before = above ++ dash :: below ∧ above.length = j ∧
      dash.isItem = true ∧ dash.column = column ∧
      ∀ l ∈ below, isOwnerStop column l = false := by
  rw [owner?_eq] at h
  rcases exists_last (isOwnerStop column) before with
    hall | ⟨above, dash, below, rfl, hdash, hbelow⟩
  · rw [find?_reverse_range_eq_none hall] at h
    cases h
  · rw [find?_reverse_range (isOwnerStop column) hdash hbelow, Option.bind_some,
      List.append_assoc, List.cons_append, lineAt_length] at h
    split at h
    · rename_i hfound
      simp only [Bool.and_eq_true, beq_iff_eq] at hfound
      exact ⟨above, dash, below, rfl, Option.some.inj h, hfound.1.2, hfound.2, hbelow⟩
    · cases h

theorem owner?_of_item {above below : List Line} (hitem : dash.isItem = true)
    (hbelow : ∀ l ∈ below, isOwnerStop dash.column l = false) :
    owner? (above ++ dash :: below ++ after) (above ++ dash :: below).length dash.column =
      some above.length := by
  have hdash : isOwnerStop dash.column dash = true := by
    rw [isOwnerStop, Bool.or_eq_true, decide_eq_true_eq]
    exact .inr (Line.indent_lt_column hitem)
  have hblank := Line.not_isBlank_of_isItem hitem
  rw [owner?_eq, find?_reverse_range (isOwnerStop dash.column) hdash hbelow, Option.bind_some,
    List.append_assoc, List.cons_append, lineAt_length, hitem, hblank]
  simp

/-! ## The manager -/

theorem exists_manages (h : manager? ls = some container) : ∃ before dash inner after,
    Manages ls before dash inner after ∧
      container = ⟨before.length, before.length + 1 + inner.length, dash.column⟩ := by
  obtain ⟨start, hstart, rfl⟩ := Option.map_eq_some_iff.1 h
  obtain ⟨i, hi, hfound⟩ := List.exists_of_findSome?_eq_some hstart
  obtain ⟨before, after, hls, rfl⟩ := exists_around (List.mem_range.1 hi)
  generalize lineAt ls before.length = entry at *
  subst hls
  have hcontainer : ∀ above dash rest, before ++ entry :: after = above ++ dash :: rest →
      above.length = start → ofItem (before ++ entry :: after) start =
        ⟨above.length, above.length + 1 + (rest.takeWhile (Line.isDeeper dash.indent)).length,
          dash.column⟩ := by
    intro above dash rest heq hlength
    rw [heq, ← hlength, ofItem, lineAt_length, locate_around, BlockStyle.body, continues_item]
    rfl
  split at hfound
  · rename_i hname
    unfold itemOf? at hfound
    rw [lineAt_length] at hfound
    split at hfound
    · rename_i hitem
      cases hfound
      refine ⟨before, entry, _, _, ⟨?_, hitem, fun l hl => List.mem_takeWhile_imp hl,
        stops_dropWhile entry.indent after, .inl hname⟩, hcontainer before entry after rfl rfl⟩
      rw [List.takeWhile_append_dropWhile]
    · rename_i hitem
      obtain ⟨above, dash, below, rfl, hlength, hdash, hcolumn, hbelow⟩ := exists_of_owner? hfound
      have hlt := Line.indent_lt_column hdash
      have hentry : entry.isDeeper dash.indent = true :=
        Line.isDeeper_iff.2 ⟨Line.not_isBlank_of_hasKey (Line.hasKey_of_isEntry hname), by omega⟩
      have hdeep : ∀ l ∈ below, l.isDeeper dash.indent = true := fun l hl =>
        isDeeper_of_not_isOwnerStop (hbelow l hl) (by omega)
      have hinner : (below ++ entry :: after).takeWhile (Line.isDeeper dash.indent) =
          below ++ entry :: after.takeWhile (Line.isDeeper dash.indent) := by
        rw [List.takeWhile_append_of_pos hdeep, List.takeWhile_cons_of_pos hentry]
      have hsplit : above ++ dash :: below ++ entry :: after =
          above ++ dash :: (below ++ entry :: after) := by simp
      have hnamed : NamesManager dash ((below ++ entry :: after).takeWhile
          (Line.isDeeper dash.indent)) := by
        rw [hinner]
        refine .inr ⟨below, entry, _, rfl, hname, by simpa using hitem, hcolumn.symm, ?_⟩
        intro l hl
        have hstop := hbelow l hl
        simp only [isOwnerStop, Bool.or_eq_false_iff, decide_eq_false_iff_not] at hstop
        omega
      refine ⟨above, dash, _, _, ⟨?_, hdash, fun l hl => List.mem_takeWhile_imp hl,
        stops_dropWhile dash.indent (below ++ entry :: after), hnamed⟩,
        hcontainer above dash _ hsplit hlength⟩
      rw [List.takeWhile_append_dropWhile, hsplit]
  · cases hfound

/-! ## One manager at most -/

theorem not_isManagerName_of_namedOnce (h : NamedOnce (before ++ entry :: after))
    (hentry : entry.isManagerName = true) :
    (∀ l ∈ before, l.isManagerName = false) ∧ ∀ l ∈ after, l.isManagerName = false := by
  rw [NamedOnce, List.countP_append, List.countP_cons_of_pos hentry] at h
  have hbefore : before.countP Line.isManagerName = 0 := by omega
  have hafter : after.countP Line.isManagerName = 0 := by omega
  rw [List.countP_eq_zero] at hbefore hafter
  exact ⟨fun l hl => by simpa using hbefore l hl, fun l hl => by simpa using hafter l hl⟩

theorem isManagerName_lineAt (h : NamedOnce (before ++ entry :: after))
    (hentry : entry.isManagerName = true) {i : Nat} (hi : i ≠ before.length) :
    (lineAt (before ++ entry :: after) i).isManagerName = false := by
  obtain ⟨hbefore, hafter⟩ := not_isManagerName_of_namedOnce h hentry
  rcases Nat.lt_or_gt_of_ne hi with hlt | hgt
  · have hline : lineAt (before ++ entry :: after) i = before[i] := by
      simp [lineAt, List.getElem?_append_left hlt, hlt]
    rw [hline]
    exact hbefore _ (List.getElem_mem hlt)
  · by_cases hlength : i < (before ++ entry :: after).length
    · have hmem : lineAt (before ++ entry :: after) i ∈ after := by
        obtain ⟨k, rfl⟩ : ∃ k, i = before.length + 1 + k := ⟨i - (before.length + 1), by omega⟩
        rw [List.length_append, List.length_cons] at hlength
        have hk : k < after.length := by omega
        have hline : lineAt (before ++ entry :: after) (before.length + 1 + k) = after[k] := by
          rw [lineAt, List.getD_eq_getElem?_getD, ← List.getElem?_drop, drop_around]
          simp [hk]
        rw [hline]
        exact List.getElem_mem hk
      exact hafter _ hmem
    · rw [lineAt_of_length_le (by omega)]
      rfl

theorem findSome?_eq_of_unique {α β : Type} {f : α → Option β} {xs : List α} {x : α} {y : β}
    (hx : x ∈ xs) (hy : f x = some y) (hother : ∀ x' ∈ xs, x' ≠ x → f x' = none) :
    xs.findSome? f = some y := by
  induction xs with
  | nil => cases hx
  | cons first rest ih =>
      rw [List.findSome?_cons]
      cases hfirst : f first with
      | some y' =>
          by_cases heq : first = x
          · rw [← heq, hfirst] at hy
            exact hy
          · rw [hother first List.mem_cons_self heq] at hfirst
            cases hfirst
      | none =>
          have hrest : x ∈ rest := by
            rcases List.mem_cons.1 hx with rfl | hx
            · rw [hy] at hfirst
              cases hfirst
            · exact hx
          exact ih hrest fun x' hx' => hother x' (List.mem_cons_of_mem first hx')

theorem manager?_of_itemOf? (h : NamedOnce (before ++ entry :: after))
    (hentry : entry.isManagerName = true)
    (hitem : itemOf? (before ++ entry :: after) before.length = some j) :
    manager? (before ++ entry :: after) = some (ofItem (before ++ entry :: after) j) := by
  have hfound : (List.range (before ++ entry :: after).length).findSome? (fun i =>
      if (lineAt (before ++ entry :: after) i).isEntry "name".toList managerName then
        itemOf? (before ++ entry :: after) i else none) = some j := by
    apply findSome?_eq_of_unique (x := before.length)
    · simp
    · rw [lineAt_length, hitem]
      exact if_pos hentry
    · intro i _ hi
      have hnone := isManagerName_lineAt h hentry hi
      rw [Line.isManagerName, ← Bool.not_eq_true] at hnone
      exact if_neg hnone
  rw [manager?, find?, hfound]
  rfl

theorem ofItem_around (hdeep : ∀ l ∈ inner, l.isDeeper dash.indent = true)
    (hstops : Stops dash.indent after) :
    ofItem (before ++ dash :: (inner ++ after)) before.length =
      ⟨before.length, before.length + 1 + inner.length, dash.column⟩ := by
  have hcolumn : BlockStyle.item.column dash = dash.indent := rfl
  rw [ofItem, lineAt_length, locate_around, BlockStyle.body, continues_item, hcolumn,
    hstops.takeWhile_append_of_deep hdeep]

theorem manager?_eq (hnamed : NamedOnce ls) (h : Manages ls before dash inner after) :
    manager? ls = some ⟨before.length, before.length + 1 + inner.length, dash.column⟩ := by
  obtain ⟨rfl, hitem, hdeep, hstops, hname⟩ := h
  rw [← ofItem_around hdeep hstops]
  rcases hname with hname | ⟨above, entry, below, rfl, hname, hplain, hindent, habove⟩
  · apply manager?_of_itemOf? hnamed hname
    rw [itemOf?, lineAt_length, if_pos hitem]
  · have hsplit : before ++ dash :: (above ++ entry :: below ++ after) =
        (before ++ dash :: above) ++ entry :: (below ++ after) := by simp
    rw [hsplit] at hnamed ⊢
    apply manager?_of_itemOf? hnamed hname
    have hbelow : ∀ l ∈ above, isOwnerStop dash.column l = false := by
      intro l hl
      have hblank := (Line.isDeeper_iff.1 (hdeep l (by simp [hl]))).1
      have hle := habove l hl
      rw [isOwnerStop, hblank, Bool.false_or, decide_eq_false_iff_not]
      omega
    rw [itemOf?, lineAt_length, if_neg (by simp [hplain]), hindent]
    exact owner?_of_item hitem hbelow

end Container

/-- The parts of a document around the manager are determined by the document. -/
theorem Manages.unique {ls before inner after before' inner' after' : List Line}
    {dash dash' : Line} (hnamed : NamedOnce ls)
    (h : Manages ls before dash inner after) (h' : Manages ls before' dash' inner' after') :
    before = before' ∧ dash = dash' ∧ inner = inner' ∧ after = after' := by
  have hsame := (Container.manager?_eq hnamed h).symm.trans
    (Container.manager?_eq hnamed h')
  simp only [Option.some.injEq, Container.mk.injEq] at hsame
  obtain ⟨hbefore, hinner, -⟩ := hsame
  obtain ⟨rfl, hrest⟩ := List.append_inj (h.eq.symm.trans h'.eq) hbefore
  obtain ⟨rfl, htail⟩ := List.cons.inj hrest
  obtain ⟨rfl, rfl⟩ := List.append_inj htail (by omega)
  exact ⟨rfl, rfl, rfl, rfl⟩

end OperatorChart
