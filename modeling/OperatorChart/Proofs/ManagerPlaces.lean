import OperatorChart.Proofs.ManagerSwaps
/-!
# Places in the item of the manager

A line stands in the item of the manager or it does not, and the first direct key with a given
name is at one place at most. When lines are swapped elsewhere, a place is the same place as before,
moved by what was swapped above it.
-/

namespace OperatorChart

/-- Whether the lines between `above` and `after` stand in the item of the manager, whose keys start
at `column`, behind the lines `front` of the item. -/
def InManager (column : Nat) (front above ls after : List Line) : Prop :=
  ∃ start dash inner back behind, above = start ++ front ∧ after = back ++ behind ∧
    dash :: inner = front ++ (ls ++ back) ∧ dash.column = column ∧
    Manages (above ++ (ls ++ after)) start dash inner behind

/-- Whether the first direct key of the manager with a given name is the line between `before` and
`after`. -/
def IsFirstKey (key : Text) (before : List Line) (line : Line) (after : List Line) : Prop :=
  ∃ column front, InManager column front before [line] after ∧
    (∀ l ∈ front, l.isDirect column key = false) ∧ line.isDirect column key = true

section Places

variable {column : Nat} {front above before old new rest after : List Line} {line : Line}

namespace InManager

theorem head {ls : List Line} (h : InManager column front above (line :: ls) after) :
    InManager column front above [line] (ls ++ after) := by
  obtain ⟨start, dash, inner, back, behind, habove, rfl, hitem, hcolumn, h⟩ := h
  exact ⟨start, dash, inner, ls ++ back, behind, habove, by simp, hitem, hcolumn, h⟩

theorem of_manages {ls start inner behind : List Line} {dash : Line}
    (h : Manages ls start dash inner behind) (hitem : dash :: inner = front ++ line :: rest) :
    ls = (start ++ front) ++ line :: (rest ++ behind) ∧
      InManager dash.column front (start ++ front) [line] (rest ++ behind) := by
  have heq : ls = (start ++ front) ++ line :: (rest ++ behind) := by
    rw [h.eq, ← List.cons_append, hitem]
    simp
  refine ⟨heq, start, dash, inner, rest, behind, rfl, rfl, hitem, rfl, ?_⟩
  rw [heq] at h
  exact h

section Swap

variable (hswap : IsSwap old new after) (hne : new ≠ [])
  (hname : ∀ l ∈ new, l.isManagerName = false) (hitems : KeepsItems old new after)

include hswap hne hname hitems

/-- A place in the manager's item is the place of the same line before a swap, or it is in the lines
that were swapped. -/
theorem of_swap (heq : above ++ (new ++ after) = before ++ line :: rest)
    (h : InManager column front before [line] rest) :
    (∃ between, above = before ++ line :: between ∧ rest = between ++ (new ++ after) ∧
        InManager column front before [line] (between ++ (old ++ after))) ∨
      (∃ between front', before = above ++ (new ++ between) ∧ after = between ++ line :: rest ∧
        InManager column front' (above ++ (old ++ between)) [line] rest ∧
        (front' = front ∨ ∃ f, front = f ++ (new ++ between) ∧ front' = f ++ (old ++ between) ∧
          InManager column f above old after)) ∨
      ∃ s t f, new = s ++ line :: t ∧ rest = t ++ after ∧ front = f ++ s ∧
        InManager column f above old after := by
  obtain ⟨start, dash, inner, back, behind, rfl, rfl, hitem, rfl, h⟩ := h
  rw [List.singleton_append] at h hitem
  rw [← heq] at h
  have htail : ∀ tail, dash :: (inner ++ tail) = front ++ line :: (back ++ tail) := by
    intro tail
    rw [← List.cons_append, hitem]
    simp
  rcases h.of_swap hswap hne hname hitems with ⟨between, rfl, rfl, hold⟩ |
    ⟨between, rfl, rfl, hold⟩ | ⟨f, b, first, others, rfl, rfl, hnew, hold, hcolumn, hmanages⟩
  · left
    refine ⟨back ++ between, ?_, by simp, start, dash, inner, back,
      between ++ (old ++ after), rfl, by simp, hitem, rfl, ?_⟩
    · rw [htail]
      simp
    · have hsplit : start ++ dash :: (inner ++ between) ++ (old ++ after) =
          start ++ front ++ ([line] ++ (back ++ between ++ (old ++ after))) := by
        rw [htail]
        simp
      rwa [hsplit] at hold
  · right
    left
    refine ⟨between ++ front, front, by simp, ?_, ⟨above ++ (old ++ between), dash, inner, back,
      behind, by simp, rfl, hitem, rfl, ?_⟩, .inl rfl⟩
    · rw [htail]
      simp
    · have hsplit : above ++ (old ++ (between ++ dash :: (inner ++ behind))) =
          above ++ (old ++ (between ++ front)) ++ ([line] ++ (back ++ behind)) := by
        rw [htail]
        simp
      rwa [hsplit] at hold
  · have hsurround : InManager dash.column f (start ++ f) old (b ++ behind) :=
      ⟨start, first, others, b, behind, rfl, rfl, hold, hcolumn, hmanages⟩
    rcases cases_of_append_eq (hnew.symm.trans hitem) with ⟨r, rfl, rfl⟩ | ⟨s, rfl, hs⟩
    · left
      refine ⟨r, by simp, by simp, start, first, others, r ++ (old ++ b), behind, rfl, by simp, ?_,
        hcolumn, ?_⟩
      · rw [hold]
        simp
      · have hsplit : start ++ (front ++ line :: r) ++ (old ++ (b ++ behind)) =
            start ++ front ++ ([line] ++ (r ++ (old ++ (b ++ behind)))) := by simp
        rwa [hsplit] at hmanages
    · rcases cases_of_append_eq hs with ⟨r, rfl, rfl⟩ | ⟨s', rfl, rfl⟩
      · exact .inr (.inr ⟨s, r, f, rfl, by simp, rfl, hsurround⟩)
      · right
        left
        refine ⟨s', f ++ (old ++ s'), by simp, by simp, ⟨start, first, others, back, behind,
          by simp, rfl, ?_, hcolumn, ?_⟩, .inr ⟨f, rfl, rfl, hsurround⟩⟩
        · rw [hold]
          simp
        · have hsplit : start ++ f ++ (old ++ (s' ++ line :: back ++ behind)) =
              start ++ f ++ (old ++ s') ++ ([line] ++ (back ++ behind)) := by simp
          rwa [hsplit] at hmanages

end Swap

end InManager

/-! ## The first key with a name -/

namespace IsFirstKey

variable {key : Text}

theorem key?_eq (hnamed : NamedOnce (before ++ line :: after))
    (h : IsFirstKey key before line after) :
    (Container.manager? (before ++ line :: after)).bind
      (·.key? (before ++ line :: after) key) = some before.length := by
  obtain ⟨column, front, ⟨start, dash, inner, back, behind, rfl, rfl, hitem, rfl, h⟩, hfront,
    hline⟩ := h
  exact h.key?_eq hnamed hitem hfront hline

theorem unique {before' after' : List Line} {line' : Line}
    (hnamed : NamedOnce (before ++ line :: after))
    (heq : before ++ line :: after = before' ++ line' :: after')
    (h : IsFirstKey key before line after) (h' : IsFirstKey key before' line' after') :
    before = before' ∧ line = line' ∧ after = after' := by
  have hfound := h.key?_eq hnamed
  rw [heq] at hnamed hfound
  have hlength := Option.some.inj (hfound.symm.trans (h'.key?_eq hnamed))
  obtain ⟨rfl, hrest⟩ := List.append_inj heq hlength
  obtain ⟨rfl, rfl⟩ := List.cons.inj hrest
  exact ⟨rfl, rfl, rfl⟩

theorem hasKey (h : IsFirstKey key before line after) : line.hasKey key = true := by
  obtain ⟨_, _, -, -, hline⟩ := h
  exact (Line.isDirect_iff.1 hline).2

end IsFirstKey

theorem exists_isFirstKey {ls : List Line} (hnamed : NamedOnce ls) (key : Text) :
    (Container.manager? ls).bind (·.key? ls key) = none ∨
      ∃ before line after, ls = before ++ line :: after ∧ IsFirstKey key before line after := by
  cases hmanager : Container.manager? ls with
  | none => exact .inl rfl
  | some container =>
      obtain ⟨start, dash, inner, behind, h, -⟩ := Container.exists_manages hmanager
      rcases exists_first (Line.isDirect dash.column key) (dash :: inner) with
        hnone | ⟨front, line, back, hitem, hfront, hline⟩
      · left
        rw [← hmanager]
        exact h.key?_eq_none hnamed hnone
      · obtain ⟨heq, hplace⟩ := InManager.of_manages h hitem
        exact .inr ⟨_, line, _, heq, dash.column, front, hplace, hfront, hline⟩

end Places

end OperatorChart
