import OperatorChart.Proofs.Managers
/-!
# Keys of the manager

An edit looks at the first direct key of the manager's item with a given name. It leaves the
document alone when this key is settled already: its value is a lookup in the chart's values, or
it is a security context that belongs to the pod.
-/

namespace OperatorChart

open Text

/-- Whether a line is a direct key of an item whose keys start at `column`. -/
def Line.isDirect (column : Nat) (key : Text) (line : Line) : Bool :=
  line.column == column && line.hasKey key

section Direct

variable {column : Nat} {key : Text} {line : Line}

theorem Line.isDirect_iff : line.isDirect column key = true ↔
    line.column = column ∧ line.hasKey key = true := by
  rw [Line.isDirect, Bool.and_eq_true, beq_iff_eq]

theorem Line.not_isDirect_of_hasKey {key' : Text} (h : line.hasKey key = true) (hne : key ≠ key') :
    line.isDirect column key' = false := by
  rw [Line.isDirect, Line.not_hasKey_of_hasKey h hne, Bool.and_false]

end Direct

theorem exists_first (p : Line → Bool) (ls : List Line) : (∀ l ∈ ls, p l = false) ∨
    ∃ above line below, ls = above ++ line :: below ∧ (∀ l ∈ above, p l = false) ∧
      p line = true := by
  induction ls with
  | nil => exact .inl (by simp)
  | cons first rest ih =>
      cases hfirst : p first with
      | true => exact .inr ⟨[], first, rest, rfl, by simp, hfirst⟩
      | false =>
          rcases ih with hall | ⟨above, line, below, rfl, habove, hline⟩
          · exact .inl (List.forall_mem_cons.2 ⟨hfirst, hall⟩)
          · exact .inr ⟨first :: above, line, below, rfl,
              List.forall_mem_cons.2 ⟨hfirst, habove⟩, hline⟩

/-! ## The search for a key -/

namespace Container

variable {p : Line → Bool} {before after above below item : List Line} {line : Line}

theorem find?_range' (hline : p line = true) (habove : ∀ l ∈ above, p l = false)
    (before : List Line) :
    (List.range' before.length (above ++ line :: below).length).find?
        (fun i => p (lineAt (before ++ (above ++ line :: below) ++ after) i)) =
      some (before ++ above).length := by
  induction above generalizing before with
  | nil =>
      have hat : lineAt (before ++ ([] ++ line :: below) ++ after) before.length = line := by
        rw [List.append_assoc]
        exact lineAt_length before (below ++ after) line
      rw [List.nil_append, List.length_cons, List.range'_succ,
        List.find?_cons_of_pos (by rw [← List.nil_append (line :: below), hat]; exact hline),
        List.append_nil]
  | cons first above ih =>
      rw [List.forall_mem_cons] at habove
      have hat : lineAt (before ++ (first :: above ++ line :: below) ++ after) before.length =
          first := by
        rw [List.append_assoc]
        exact lineAt_length before (above ++ line :: below ++ after) first
      have hsplit : before ++ (first :: above ++ line :: below) =
          (before ++ [first]) ++ (above ++ line :: below) := by simp
      have hnext := ih habove.2 (before ++ [first])
      rw [List.length_append, List.length_singleton] at hnext
      rw [List.cons_append, List.length_cons, List.range'_succ, ← List.cons_append,
        List.find?_cons_of_neg (by rw [hat, habove.1]; decide), hsplit, hnext]
      simp

theorem find?_range'_eq_none (hitem : ∀ l ∈ item, p l = false) :
    (List.range' before.length item.length).find?
        (fun i => p (lineAt (before ++ item ++ after) i)) = none := by
  rw [List.find?_eq_none]
  intro i hi
  obtain ⟨hle, hlt⟩ := List.mem_range'_1.1 hi
  obtain ⟨k, rfl⟩ : ∃ k, i = before.length + k := ⟨i - before.length, by omega⟩
  have hk : k < item.length := by omega
  have hline : lineAt (before ++ item ++ after) (before.length + k) = item[k] := by
    rw [lineAt, List.getD_eq_getElem?_getD, ← List.getElem?_drop, List.append_assoc,
      List.drop_left, List.getElem?_append_left hk]
    simp [hk]
  rw [hline, hitem _ (List.getElem_mem hk)]
  decide

variable {inner : List Line} {dash : Line} {key : Text}

theorem key?_around (hitem : dash :: inner = above ++ line :: below)
    (habove : ∀ l ∈ above, l.isDirect dash.column key = false)
    (hline : line.isDirect dash.column key = true) :
    key? ⟨before.length, before.length + 1 + inner.length, dash.column⟩
      (before ++ dash :: (inner ++ after)) key = some (before ++ above).length := by
  have hsplit : before ++ dash :: (inner ++ after) =
      before ++ (above ++ line :: below) ++ after := by
    rw [← hitem]
    simp
  have hlength : before.length + 1 + inner.length - before.length =
      (above ++ line :: below).length := by
    rw [← hitem, List.length_cons]
    omega
  rw [key?, hlength, hsplit]
  exact find?_range' hline habove before

theorem key?_around_eq_none (hitem : ∀ l ∈ dash :: inner, l.isDirect dash.column key = false) :
    key? ⟨before.length, before.length + 1 + inner.length, dash.column⟩
      (before ++ dash :: (inner ++ after)) key = none := by
  have hsplit : before ++ dash :: (inner ++ after) = before ++ (dash :: inner) ++ after := by
    simp
  have hlength : before.length + 1 + inner.length - before.length = (dash :: inner).length := by
    rw [List.length_cons]
    omega
  rw [key?, hlength, hsplit]
  exact find?_range'_eq_none hitem

end Container

namespace Manages

variable {ls before inner after : List Line} {dash : Line}

theorem key?_eq (hnamed : NamedOnce ls) (h : Manages ls before dash inner after) {key : Text}
    {above below : List Line} {line : Line} (hitem : dash :: inner = above ++ line :: below)
    (habove : ∀ l ∈ above, l.isDirect dash.column key = false)
    (hline : line.isDirect dash.column key = true) :
    (Container.manager? ls).bind (·.key? ls key) = some (before ++ above).length := by
  rw [Container.manager?_eq hnamed h, Option.bind_some, h.eq]
  exact Container.key?_around hitem habove hline

theorem key?_eq_none (hnamed : NamedOnce ls) (h : Manages ls before dash inner after) {key : Text}
    (hitem : ∀ l ∈ dash :: inner, l.isDirect dash.column key = false) :
    (Container.manager? ls).bind (·.key? ls key) = none := by
  rw [Container.manager?_eq hnamed h, Option.bind_some, h.eq]
  exact Container.key?_around_eq_none hitem

end Manages

/-! ## What is settled -/

def ValuesField.IsSettled (field : ValuesField) (line : Line) (rest : List Line) : Prop :=
  ∃ marker below, rest = marker :: below ∧ Line.IsInner line.column marker ∧
    field.path <:+: marker

namespace ValuesField

variable {field : ValuesField} {line : Line} {rest : List Line}

theorem found_of_isSettled (before : List Line) (h : field.IsSettled line rest) :
    field.probe.found (before ++ line :: rest)
      (Block.locate field.style (before ++ line :: rest) before.length) = true := by
  obtain ⟨marker, below, rfl, hinner, hmarker⟩ := h
  have hcontinues := Grouped.continues_of_isInner field.style
    (Grouped.column_le_column field.style line) hinner
  have hbody : (field.style.body (field.style.column line) (marker :: below)).length =
      (below.takeWhile (field.style.continues (field.style.column line))).length + 1 := by
    rw [BlockStyle.body, List.takeWhile_cons_of_pos hcontinues, List.length_cons]
  rw [Probe.found, List.any_eq_true]
  refine ⟨marker, List.mem_iff_getElem?.2 ⟨1, ?_⟩, hasInfix_iff.2 hmarker⟩
  rw [locate_around, hbody, List.getElem?_drop, List.getElem?_take_of_lt (by dsimp only; omega)]
  simp

theorem not_found_of_forall {ls : List Line} (h : ∀ l ∈ ls, ¬ field.path <:+: l) (block : Block) :
    field.probe.found ls block = false := by
  rw [Probe.found, List.any_eq_false]
  intro l hl
  rw [hasInfix_iff]
  exact h l ((List.take_sublist _ _).mem ((List.drop_sublist _ _).mem hl))

/-- Lines that a settled key is directly followed by may only change behind the marker. -/
theorem IsSettled.swap {between ls ls' : List Line}
    (hhead : between = [] → ∀ marker, ls.head? = some marker → ¬ Line.IsInner line.column marker)
    (h : field.IsSettled line (between ++ ls)) : field.IsSettled line (between ++ ls') := by
  obtain ⟨marker, below, heq, hinner, hmarker⟩ := h
  cases between with
  | nil =>
      rw [List.nil_append] at heq
      exact absurd hinner (hhead rfl marker (by rw [heq]; rfl))
  | cons first rest =>
      obtain ⟨rfl, -⟩ := List.cons.inj heq
      exact ⟨first, rest ++ ls', rfl, hinner, hmarker⟩

end ValuesField

/-! ## The service account of the pod -/

/-- Whether the line behind a block measured against `column` is the service account of the pod,
at that column. -/
def precedesAccount (column : Nat) (rest : List Line) : Bool :=
  (rest.dropWhile (Line.isDeeper column)).head?.any fun l =>
    l.indent == column && l.hasKey "serviceAccountName".toList

theorem isBeforeServiceAccount_around (before after : List Line) (line : Line) :
    Values.isBeforeServiceAccount (before ++ line :: after) before.length =
      precedesAccount line.column after := by
  have hcolumn : BlockStyle.mapping.column line = line.column := rfl
  have hbehind : (before ++ line :: after)[before.length + 1 +
      (after.takeWhile (Line.isDeeper line.column)).length]? =
        (after.dropWhile (Line.isDeeper line.column)).head? := by
    rw [← List.head?_drop, drop_around_add, drop_length_takeWhile]
  rw [Values.isBeforeServiceAccount, locate_around, precedesAccount, BlockStyle.body,
    continues_mapping, hcolumn, hbehind]
  cases (after.dropWhile (Line.isDeeper line.column)).head? <;> rfl

section Account

variable {column : Nat} {between old new after : List Line}

/-- Lines swapped for ones that start with no service account do not make a block stand before
the account. -/
theorem precedesAccount_of_swap (h : IsSwap old new after)
    (hhead : ∀ l, (new ++ after).head? = some l → l.hasKey "serviceAccountName".toList = false)
    (haccount : precedesAccount column (between ++ (new ++ after)) = true) :
    precedesAccount column (between ++ (old ++ after)) = true := by
  unfold precedesAccount at haccount ⊢
  rcases h.dropWhile column between with ⟨r, hold, hnew⟩ | heq
  · rw [hnew] at haccount
    rw [hold]
    cases r with
    | nil =>
        obtain ⟨l, hl, hfound⟩ := (Option.any_eq_true _ _).1 haccount
        rw [Bool.and_eq_true, hhead l hl] at hfound
        cases hfound.2
    | cons first rest => exact haccount
  · rwa [heq]

theorem precedesAccount_swap (h : IsSwap old new after)
    (hhead : ∀ l, (old ++ after).head? = some l → l.hasKey "serviceAccountName".toList = false)
    (haccount : precedesAccount column (between ++ (old ++ after)) = true) :
    precedesAccount column (between ++ (new ++ after)) = true :=
  precedesAccount_of_swap h.symm hhead haccount

end Account

end OperatorChart
