import OperatorChart.Proofs.PodContexts
import OperatorChart.Proofs.Steps
/-!
# Moves of an edit

A move takes lines out of a document and puts others in their place, so that the items, the blocks
and the security contexts around them stay what they are. What one edit has settled about a key of
the manager is still settled after the moves of another one.
-/

namespace OperatorChart

/-- Whether new lines before `after` may take the place of old ones behind `above`. -/
structure IsMove (above old new after : List Line) : Prop extends IsStep old new after where
  ne_nil : new ≠ []
  items : KeepsItems old new after
  pods : KeepsPods above (old ++ after) (new ++ after)
  markers : KeepsMarkers above (old ++ after)

/-- Whether no line of a swap in the manager's item is one of its keys with a given name. -/
def Quiet (key : Text) (above old new after : List Line) : Prop :=
  ∀ column front, InManager column front above old after →
    ∀ l ∈ old ++ new, l.isDirect column key = false

/-- Whether the manager's first key with a given name, if there is one, is settled. -/
def KeySettled (key : Text) (settled : Line → List Line → Prop) (ls : List Line) : Prop :=
  ∀ before line after, ls = before ++ line :: after → IsFirstKey key before line after →
    settled line after

def ManagerHas (key : Text) (ls : List Line) : Prop :=
  ∀ start dash inner behind, Manages ls start dash inner behind →
    ∃ l ∈ dash :: inner, l.isDirect dash.column key = true

/-- Whether a pod's security context that stands in the manager's item is one of its keys. -/
def PodsAreKeys (ls : List Line) : Prop :=
  ∀ before line after column front, ls = before ++ line :: after →
    InManager column front before [line] after → line.isPod after = true → line.column = column

section Moves

variable {key : Text} {settled : Line → List Line → Prop} {column column' : Nat}
  {above old new after front front' ls start inner behind value body : List Line}
  {line line' dash : Line}

namespace InManager

theorem of_manages_unique (hnamed : NamedOnce (above ++ (ls ++ after)))
    (h : InManager column front above ls after)
    (h' : Manages (above ++ (ls ++ after)) start dash inner behind) :
    above = start ++ front ∧ dash.column = column ∧
      ∃ back, dash :: inner = front ++ (ls ++ back) ∧ after = back ++ behind := by
  obtain ⟨start', dash', inner', back, behind', rfl, rfl, hitem, rfl, hmanages⟩ := h
  obtain ⟨rfl, rfl, rfl, rfl⟩ := hmanages.unique hnamed h'
  exact ⟨rfl, rfl, back, hitem, rfl⟩

theorem unique (hnamed : NamedOnce (above ++ (ls ++ after)))
    (h : InManager column front above ls after) (h' : InManager column' front' above ls after) :
    column = column' ∧ front = front' := by
  obtain ⟨start, dash, inner, back, behind, habove, -, -, hcolumn, hmanages⟩ := h'
  obtain ⟨habove', hcolumn', -⟩ := h.of_manages_unique hnamed hmanages
  rw [habove] at habove'
  exact ⟨hcolumn'.symm.trans hcolumn, (List.append_cancel_left habove').symm⟩

theorem append {rest : List Line} (h : InManager column front above (ls ++ rest) after) :
    InManager column (front ++ ls) (above ++ ls) rest after := by
  obtain ⟨start, dash, inner, back, behind, rfl, rfl, hitem, hcolumn, hmanages⟩ := h
  refine ⟨start, dash, inner, back, behind, by simp, rfl, by rw [hitem]; simp, hcolumn, ?_⟩
  have hsplit : start ++ front ++ ls ++ (rest ++ (back ++ behind)) =
      start ++ front ++ (ls ++ rest ++ (back ++ behind)) := by simp
  rwa [hsplit]

end InManager

theorem IsFirstKey.column_eq (hnamed : NamedOnce (above ++ line :: (body ++ after)))
    (h : IsFirstKey key above line (body ++ after))
    (h' : InManager column front above (line :: body) after) : column = line.column := by
  obtain ⟨column₀, front₀, hplace, -, hline⟩ := h
  exact (h'.head.unique hnamed hplace).1.trans (Line.isDirect_iff.1 hline).1.symm

theorem KeySettled.of_none (hnamed : NamedOnce ls)
    (hnone : (Container.manager? ls).bind (·.key? ls key) = none) : KeySettled key settled ls := by
  rintro before line after rfl hfirst
  rw [hfirst.key?_eq hnamed] at hnone
  cases hnone

/-- A key that a move does not touch stays settled. -/
theorem KeySettled.move (hmove : IsMove above old new after)
    (hquiet : Quiet key above old new after)
    (hkeep : ∀ before line between, above = before ++ line :: between → line.hasKey key = true →
      settled line (between ++ (old ++ after)) → settled line (between ++ (new ++ after)))
    (h : KeySettled key settled (above ++ (old ++ after))) :
    KeySettled key settled (above ++ (new ++ after)) := by
  rintro before line rest heq ⟨column, front, hplace, hfront, hline⟩
  have hname : ∀ l ∈ new, l.isManagerName = false := fun l hl =>
    (hmove.inert l hl).not_isManagerName
  rcases hplace.of_swap hmove.swap hmove.ne_nil hname hmove.items heq with
    ⟨between, rfl, rfl, hold⟩ | ⟨between, front', rfl, rfl, hold, hfronts⟩ |
    ⟨s, t, f, rfl, -, -, hold⟩
  · exact hkeep before line between rfl (Line.isDirect_iff.1 hline).2
      (h before line _ (by simp) ⟨column, front, hold, hfront, hline⟩)
  · have hfree : ∀ l ∈ front', l.isDirect column key = false := by
      rcases hfronts with rfl | ⟨f, rfl, rfl, haround⟩
      · exact hfront
      · intro l hl
        simp only [List.mem_append] at hl
        rcases hl with hl | hl | hl
        · exact hfront l (by simp [hl])
        · exact hquiet column f haround l (List.mem_append_left _ hl)
        · exact hfront l (by simp [hl])
    exact h _ line rest (by simp) ⟨column, front', hold, hfree, hline⟩
  · rw [hquiet column f hold line (by simp)] at hline
    cases hline

theorem ManagerHas.move (hmove : IsMove above old new after)
    (hquiet : Quiet key above old new after)
    (h : ManagerHas key (above ++ (old ++ after))) : ManagerHas key (above ++ (new ++ after)) := by
  intro start dash inner behind hmanages
  have hname : ∀ l ∈ new, l.isManagerName = false := fun l hl =>
    (hmove.inert l hl).not_isManagerName
  rcases hmanages.of_swap hmove.swap hmove.ne_nil hname hmove.items with
    ⟨between, -, -, hold⟩ | ⟨between, -, -, hold⟩ |
    ⟨front, back, first, rest, rfl, rfl, hnew, hfirst, hcolumn, hold⟩
  · exact h start dash inner _ hold
  · exact h _ dash inner behind hold
  · obtain ⟨l, hl, hdirect⟩ := h start first rest behind hold
    have haround : InManager dash.column front (start ++ front) old (back ++ behind) :=
      ⟨start, first, rest, back, behind, rfl, rfl, hfirst, hcolumn, hold⟩
    rw [hcolumn] at hdirect
    rw [hfirst, List.mem_append, List.mem_append] at hl
    refine ⟨l, ?_, hdirect⟩
    rw [hnew, List.mem_append, List.mem_append]
    refine hl.imp_right fun hl => .inr (hl.resolve_left fun hl => ?_)
    rw [hquiet _ front haround l (List.mem_append_left _ hl)] at hdirect
    cases hdirect

/-- A move whose new lines hold no foreign security context adds none to the manager's item. -/
theorem PodsAreKeys.move (hmove : IsMove above old new after)
    (hnew : ∀ column front, InManager column front above old after → ∀ l ∈ new,
      l.isItem = false → l.hasKey Values.podSecurityContext.key = true → l.column = column)
    (h : PodsAreKeys (above ++ (old ++ after))) : PodsAreKeys (above ++ (new ++ after)) := by
  intro before line rest column front heq hplace hpod
  have hname : ∀ l ∈ new, l.isManagerName = false := fun l hl =>
    (hmove.inert l hl).not_isManagerName
  rcases hplace.of_swap hmove.swap hmove.ne_nil hname hmove.items heq with
    ⟨between, rfl, rfl, hold⟩ | ⟨between, front', rfl, rfl, hold, -⟩ | ⟨s, t, f, rfl, -, -, hold⟩
  · rw [hmove.pods.isPod rfl] at hpod
    exact h before line _ column front (by simp) hold hpod
  · exact h _ line rest column front' (by simp) hold hpod
  · rw [Line.isPod, Bool.and_eq_true, Bool.and_eq_true, Bool.not_eq_true'] at hpod
    exact hnew column f hold line (by simp) hpod.1.1 hpod.1.2

/-! ## Keys that a move settles -/

/-- A move that puts a key in the place of the manager's first one with this name settles it. -/
theorem KeySettled.of_head (hmove : IsMove above (line :: body) (line' :: value) after)
    (hnamed : NamedOnce (above ++ line :: (body ++ after)))
    (hfirst : IsFirstKey key above line (body ++ after))
    (hkey : line'.isDirect line.column key = true) (hsettled : settled line' (value ++ after)) :
    KeySettled key settled (above ++ (line' :: value ++ after)) := by
  rintro before l rest heq ⟨column, front, hplace, hfront, hl⟩
  have hname : ∀ l ∈ line' :: value, l.isManagerName = false := fun l hl =>
    (hmove.inert l hl).not_isManagerName
  have habsent : ∀ f, InManager column f above (line :: body) after → line' ∉ front := by
    intro f hold hmem
    rw [← hfirst.column_eq hnamed hold, hfront line' hmem] at hkey
    cases hkey
  rcases hplace.of_swap hmove.swap hmove.ne_nil hname hmove.items heq with
    ⟨between, rfl, rfl, hold⟩ | ⟨between, front', rfl, rfl, hold, hfronts⟩ |
    ⟨s, t, f, hs, rfl, rfl, hold⟩
  · have hother : IsFirstKey key before l (between ++ (line :: body ++ after)) :=
      ⟨column, front, hold, hfront, hl⟩
    obtain ⟨hlength, -⟩ := hfirst.unique hnamed (by simp) hother
    simpa using congrArg List.length hlength
  · rcases hfronts with rfl | ⟨f, rfl, -, haround⟩
    · have hother : IsFirstKey key (above ++ (line :: body ++ between)) l rest :=
        ⟨column, front', hold, hfront, hl⟩
      obtain ⟨hlength, -⟩ := hfirst.unique hnamed (by simp) hother
      simpa using congrArg List.length hlength
    · exact absurd (by simp) (habsent f haround)
  · obtain ⟨rfl, rfl, rfl⟩ := eq_of_cons_eq_append hs fun hmem =>
      habsent f hold (List.mem_append_right f hmem)
    exact hsettled

theorem ManagerHas.of_head (hmove : IsMove above (line :: body) (line' :: value) after)
    (hnamed : NamedOnce (above ++ line :: (body ++ after)))
    (hfirst : IsFirstKey key above line (body ++ after))
    (hkey : line'.isDirect line.column key = true) :
    ManagerHas key (above ++ (line' :: value ++ after)) := by
  intro start dash inner behind hmanages
  have hname : ∀ l ∈ line' :: value, l.isManagerName = false := fun l hl =>
    (hmove.inert l hl).not_isManagerName
  obtain ⟨column₀, front₀, hplace, -, -⟩ := id hfirst
  rcases hmanages.of_swap hmove.swap hmove.ne_nil hname hmove.items with
    ⟨between, habove, -, hold⟩ | ⟨between, -, -, hold⟩ |
    ⟨front, back, first, rest, rfl, rfl, hnew, hline, hcolumn, hold⟩
  · obtain ⟨habove', -, back, hitem, -⟩ := hplace.of_manages_unique hnamed hold
    have hlength := congrArg List.length (habove.symm.trans habove')
    have hlength' := congrArg List.length hitem
    simp only [List.length_append, List.length_cons, List.length_nil] at hlength hlength'
    omega
  · obtain ⟨habove, -⟩ := hplace.of_manages_unique hnamed hold
    have hlength := congrArg List.length habove
    simp only [List.length_append, List.length_cons] at hlength
    omega
  · have hcolumns := hfirst.column_eq hnamed
      ⟨start, first, rest, back, behind, rfl, rfl, hline, hcolumn, hold⟩
    exact ⟨line', by rw [hnew]; simp, hcolumns ▸ hkey⟩

section End

variable (hmanages : Manages (start ++ dash :: (inner ++ behind)) start dash inner behind)
  (hnamed : NamedOnce (start ++ dash :: (inner ++ behind)))
  (hmove : IsMove (start ++ dash :: inner) [] (line' :: value) behind)
  (hkey : line'.isDirect dash.column key = true)

include hmanages hnamed hmove hkey

/-- A move that puts a key at the end of the manager's item settles it, if it was not there. -/
theorem KeySettled.of_end (hnone : ∀ l ∈ dash :: inner, l.isDirect dash.column key = false)
    (hsettled : settled line' (value ++ behind)) :
    KeySettled key settled (start ++ dash :: inner ++ (line' :: value ++ behind)) := by
  rintro before l rest heq ⟨column, front, hplace, hfront, hl⟩
  have hname : ∀ l ∈ line' :: value, l.isManagerName = false := fun l hl =>
    (hmove.inert l hl).not_isManagerName
  have hsplit : start ++ dash :: inner ++ ([] ++ behind) = start ++ dash :: (inner ++ behind) := by
    simp
  have hnew : ∀ {before rest}, start ++ dash :: inner ++ ([] ++ behind) = before ++ l :: rest →
      ¬ InManager column front before [l] rest := by
    intro before rest heq hold
    rw [hsplit] at heq
    rw [heq] at hnamed hmanages
    obtain ⟨-, hcolumn, back, hitem, -⟩ := hold.of_manages_unique hnamed hmanages
    rw [← hcolumn, hnone l (by rw [hitem]; simp)] at hl
    cases hl
  have habsent : ∀ f, InManager column f (start ++ dash :: inner) [] behind → line' ∉ front := by
    intro f hold hmem
    obtain ⟨-, hcolumn, -⟩ := hold.of_manages_unique (by rwa [hsplit]) (by rwa [hsplit])
    rw [hcolumn, hfront line' hmem] at hkey
    cases hkey
  rcases hplace.of_swap hmove.swap hmove.ne_nil hname hmove.items heq with
    ⟨between, habove, rfl, hold⟩ | ⟨between, front', rfl, rfl, hold, hfronts⟩ |
    ⟨s, t, f, hs, rfl, rfl, hold⟩
  · exact absurd hold (hnew (by rw [habove]; simp))
  · rcases hfronts with rfl | ⟨f, rfl, -, haround⟩
    · exact absurd hold (hnew (by simp))
    · exact absurd (by simp) (habsent f haround)
  · obtain ⟨rfl, rfl, rfl⟩ := eq_of_cons_eq_append hs fun hmem =>
      habsent f hold (List.mem_append_right f hmem)
    exact hsettled

theorem ManagerHas.of_end (hdeep : line'.isDeeper dash.indent = true) :
    ManagerHas key (start ++ dash :: inner ++ (line' :: value ++ behind)) := by
  intro start' dash' inner' behind' hmanages'
  have hname : ∀ l ∈ line' :: value, l.isManagerName = false := fun l hl =>
    (hmove.inert l hl).not_isManagerName
  have hsplit : start ++ dash :: inner ++ ([] ++ behind) = start ++ dash :: (inner ++ behind) := by
    simp
  rw [← hsplit] at hmanages hnamed
  rcases hmanages'.of_swap hmove.swap hmove.ne_nil hname hmove.items with
    ⟨between, habove, rfl, hold⟩ | ⟨between, -, -, hold⟩ |
    ⟨front, back, first, rest, habove, -, hnew, hline, hcolumn, hold⟩
  · obtain ⟨rfl, rfl, rfl, -⟩ := hmanages.unique hnamed hold
    have hnil : between = [] := by
      have hlength := congrArg List.length habove
      simp only [List.length_append, List.length_cons] at hlength
      exact List.length_eq_zero_iff.1 (by omega)
    subst hnil
    rw [stops_cons.1 hmanages'.stops] at hdeep
    cases hdeep
  · obtain ⟨hstart, -⟩ := hmanages.unique hnamed hold
    have hlength := congrArg List.length hstart
    simp only [List.length_append, List.length_cons] at hlength
    omega
  · obtain ⟨-, rfl, -, -⟩ := hmanages.unique hnamed hold
    exact ⟨line', by rw [hnew]; simp, hcolumn ▸ hkey⟩

end End

end Moves

end OperatorChart
