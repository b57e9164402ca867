import OperatorChart.Proofs.LocatedBlocks
import OperatorChart.Proofs.NamedItems
import OperatorChart.Proofs.Steps
/-!
# The scope of a named item

The search for an item by its name goes down to an entry with the name, up to the dash line of the
item that the entry belongs to, and down again to the end of the item. Main statement: it finds an
item exactly when some entry names one, the item is the one of the first such entry, and the entry
stands in it.
-/

namespace OperatorChart

open Text

/-! ## Entries -/

/-- Whether a text stands for a value: in quotes of one kind, or bare. -/
def IsSpelling (value text : Text) : Prop :=
  text = '"' :: (value ++ ['"']) ∨ text = '\'' :: (value ++ ['\'']) ∨
    text = value ∧ ∀ quote ∈ ['"', '\''], ∀ inner, value ≠ quote :: (inner ++ [quote])

theorem within_quotes_iff {quote : Char} {text inner : Text} :
    ((([quote] : Text).isPrefixOf? text).bind fun rest => ([quote] : Text).isSuffixOf? rest) =
      some inner ↔ text = quote :: (inner ++ [quote]) := by
  have hback : ∀ rest : Text, ([quote] : Text).isSuffixOf? rest = some inner ↔
      rest = inner ++ [quote] := by
    intro rest
    rw [List.isSuffixOf?, Option.map_eq_some_iff]
    constructor
    · rintro ⟨front, hfront, rfl⟩
      have hreverse := congrArg List.reverse (isPrefixOf?_eq_some_iff.1 hfront)
      simpa using hreverse
    · rintro rfl
      exact ⟨inner.reverse, isPrefixOf?_eq_some_iff.2 (by simp), by simp⟩
  rw [Option.bind_eq_some_iff]
  simp only [isPrefixOf?_eq_some_iff, hback]
  constructor
  · rintro ⟨rest, rfl, rfl⟩
    rfl
  · intro h
    exact ⟨_, h, rfl⟩

theorem unquote_eq_iff {value text : Text} : unquote text = value ↔ IsSpelling value text := by
  have hdouble := @within_quotes_iff '"' text
  have hsingle := @within_quotes_iff '\'' text
  rw [unquote]
  dsimp only
  generalize ((['"'] : Text).isPrefixOf? text).bind
    (fun rest => (['"'] : Text).isSuffixOf? rest) = double at hdouble ⊢
  generalize ((['\''] : Text).isPrefixOf? text).bind
    (fun rest => (['\''] : Text).isSuffixOf? rest) = single at hsingle ⊢
  cases double with
  | some inner =>
      have htext := hdouble.1 rfl
      show inner = value ↔ _
      constructor
      · rintro rfl
        exact .inl htext
      · rintro (h | h | ⟨rfl, hbare⟩)
        · simpa [h] using htext.symm
        · simp [h] at htext
        · exact absurd htext (hbare '"' (by simp) inner)
  | none =>
      cases single with
      | some inner =>
          have htext := hsingle.1 rfl
          show inner = value ↔ _
          constructor
          · rintro rfl
            exact .inr (.inl htext)
          · rintro (h | h | ⟨rfl, hbare⟩)
            · simp [h] at htext
            · simpa [h] using htext.symm
            · exact absurd htext (hbare '\'' (by simp) inner)
      | none =>
          show text = value ↔ _
          constructor
          · rintro rfl
            refine .inr (.inr ⟨rfl, fun quote hquote inner h => ?_⟩)
            simp only [List.mem_cons, List.not_mem_nil, or_false] at hquote
            rcases hquote with rfl | rfl
            · cases hdouble.2 h
            · cases hsingle.2 h
          · rintro (h | h | ⟨h, -⟩)
            · cases hdouble.2 h
            · cases hsingle.2 h
            · exact h

theorem Line.isEntry_iff {line : Line} {key value : Text} (hkey : ':' ∉ key) :
    line.isEntry key value = true ↔
      ∃ rest, line.content = key ++ ':' :: rest ∧ IsSpelling value (trim rest) := by
  unfold Line.isEntry
  constructor
  · intro h
    split at h
    · rename_i name rest hsplit
      rw [Bool.and_eq_true, beq_iff_eq, beq_iff_eq] at h
      obtain ⟨rfl, hvalue⟩ := h
      exact ⟨rest, Line.eq_of_splitOnce? hsplit, unquote_eq_iff.1 hvalue⟩
    · cases h
  · rintro ⟨rest, hcontent, hvalue⟩
    rw [hcontent, Line.splitOnce?_append hkey]
    simp [unquote_eq_iff.2 hvalue]

namespace Container

/-! ## The entry that names an item -/

/-- Whether line `i` is an entry with a name, of the item with its dash line in line `start`: it is
the dash line itself, or it is no item, the item's keys stand at its indentation, and the lines
between are not blank and indented as far at least. -/
structure IsNameOf (lines : List Line) (name : Text) (i start : Nat) : Prop where
  lt_length : i < lines.length
  named : ∃ rest, (lineAt lines i).content = "name:".toList ++ rest ∧ IsSpelling name (trim rest)
  item : (lineAt lines start).isItem = true
  place : start = i ∨ (lineAt lines i).isItem = false ∧ start < i ∧
    (lineAt lines start).column = (lineAt lines i).indent ∧
    (lineAt lines start).indent < (lineAt lines i).indent ∧
    ∀ j, start < j → j < i →
      (lineAt lines j).isBlank = false ∧ (lineAt lines i).indent ≤ (lineAt lines j).indent

/-- Whether a container is the item of the first entry with a name that belongs to one, up to the
first line that is blank or not deeper than its dash line. -/
structure IsScope (lines : List Line) (name : Text) (container : Container) : Prop where
  column : container.column = (lineAt lines container.start).column
  named : ∃ i, IsNameOf lines name i container.start ∧ container.start ≤ i ∧ i < container.stop ∧
    ∀ j < i, ∀ start, ¬ IsNameOf lines name j start
  stop_le : container.stop ≤ lines.length
  deep : ∀ j, container.start < j → j < container.stop → (lineAt lines j).isBlank = false ∧
    (lineAt lines container.start).indent < (lineAt lines j).indent
  stops : container.stop = lines.length ∨ (lineAt lines container.stop).isBlank = true ∨
    (lineAt lines container.stop).indent ≤ (lineAt lines container.start).indent

section Scope

variable {lines : List Line} {name : Text} {i start : Nat} {container container' : Container}

theorem itemOf?_eq_some_iff (hi : i < lines.length) : itemOf? lines i = some start ↔
    (lineAt lines i).isItem = true ∧ start = i ∨ (lineAt lines i).isItem = false ∧ start < i ∧
      (lineAt lines start).isItem = true ∧
      (lineAt lines start).column = (lineAt lines i).indent ∧
      ∀ j, start < j → j < i →
        isOwnerStop (lineAt lines i).indent (lineAt lines j) = false := by
  obtain ⟨above, back, hlines, rfl⟩ := exists_around hi
  generalize lineAt lines above.length = line at *
  subst hlines
  rw [itemOf?_around]
  refine or_congr_right (and_congr_right fun _ => ?_)
  constructor
  · rintro ⟨front, dash, between, rfl, rfl, hitem, hcolumn, hbetween⟩
    have hlines : front ++ dash :: between ++ line :: back =
        front ++ dash :: (between ++ line :: back) := by simp
    rw [hlines, lineAt_length]
    refine ⟨by simp, hitem, hcolumn, fun j hj hlt => ?_⟩
    obtain ⟨k, rfl⟩ := Nat.exists_eq_add_of_le hj
    have hk : k < between.length := by
      rw [List.length_append, List.length_cons] at hlt
      omega
    rw [Nat.succ_eq_add_one, ← lineAt_drop, drop_around, lineAt_append_left hk]
    exact hbetween _ (lineAt_mem hk)
  · rintro ⟨hlt, hitem, hcolumn, hbetween⟩
    rw [lineAt_append_left hlt] at hitem hcolumn
    obtain ⟨front, between, habove, rfl⟩ := exists_around hlt
    refine ⟨front, lineAt above front.length, between, habove, rfl, hitem, hcolumn, ?_⟩
    intro l hl
    obtain ⟨k, hk, rfl⟩ := List.getElem_of_mem hl
    have hlength := congrArg List.length habove
    rw [List.length_append, List.length_cons] at hlength
    have hline : lineAt (above ++ line :: back) (front.length + 1 + k) = between[k] := by
      rw [lineAt_append_left (by omega), habove, ← lineAt_drop, drop_around]
      simp [lineAt, hk]
    rw [← hline]
    exact hbetween _ (by omega) (by omega)

theorem isOwnerStop_eq_false_iff {column : Nat} {line : Line} :
    isOwnerStop column line = false ↔ line.isBlank = false ∧ column ≤ line.indent := by
  rw [isOwnerStop, Bool.or_eq_false_iff, decide_eq_false_iff_not, Nat.not_lt]

theorem isNameOf_iff (hi : i < lines.length) : IsNameOf lines name i start ↔
    namedItemOf? lines name i = some start := by
  have hnamed : (lineAt lines i).isEntry "name".toList name = true ↔
      ∃ rest, (lineAt lines i).content = "name:".toList ++ rest ∧ IsSpelling name (trim rest) :=
    Line.isEntry_iff (show ':' ∉ "name".toList by decide)
  rw [namedItemOf?, Option.ite_none_right_eq_some, itemOf?_eq_some_iff hi, hnamed]
  simp only [isOwnerStop_eq_false_iff]
  constructor
  · rintro ⟨-, hentry, hitem, rfl | ⟨hplain, hlt, hcolumn, -, hbetween⟩⟩
    · exact ⟨hentry, .inl ⟨hitem, rfl⟩⟩
    · exact ⟨hentry, .inr ⟨hplain, hlt, hitem, hcolumn, hbetween⟩⟩
  · rintro ⟨hentry, ⟨hitem, rfl⟩ | ⟨hplain, hlt, hitem, hcolumn, hbetween⟩⟩
    · exact ⟨hi, hentry, hitem, .inl rfl⟩
    · have hdash := Line.indent_lt_column hitem
      exact ⟨hi, hentry, hitem, .inr ⟨hplain, hlt, hcolumn, by omega, hbetween⟩⟩

theorem IsNameOf.lt_of_mem (h : IsNameOf lines name i start) : start ≤ i := by
  rcases h.place with rfl | ⟨-, hlt, -⟩
  · exact Nat.le_refl _
  · exact hlt.le

theorem IsNameOf.lt_stop (h : IsNameOf lines name i start) :
    i < (Block.locate .item lines start).stop := by
  rcases h.place with rfl | ⟨-, hlt, hcolumn, hindent, hbetween⟩
  · exact (Block.isLongest_locate .item h.lt_length).lt_stop
  · have hblank : (lineAt lines i).isBlank = false := by
      have hentry := (isNameOf_iff h.lt_length).1 h
      rw [namedItemOf?, Option.ite_none_right_eq_some] at hentry
      exact Line.not_isBlank_of_hasKey (Line.hasKey_of_isEntry hentry.1)
    apply (Block.le_stop_locate_iff (Nat.lt_succ_of_lt hlt) h.lt_length).2
    intro j hj hle
    rcases Nat.lt_succ_iff_lt_or_eq.1 hle with hlt | rfl
    · obtain ⟨hsolid, hdeep⟩ := hbetween j hj hlt
      exact ⟨hsolid, .inl (Nat.lt_of_lt_of_le hindent hdeep)⟩
    · exact ⟨hblank, .inl hindent⟩

theorem isScope_ofItem (h : IsNameOf lines name i start)
    (hfirst : ∀ j < i, ∀ start', ¬ IsNameOf lines name j start') :
    IsScope lines name (ofItem lines start) := by
  have hlongest := Block.isLongest_locate .item (Nat.lt_of_le_of_lt h.lt_of_mem h.lt_length)
  have htakes : ∀ {line : Line} {width : Nat}, BlockStyle.item.Takes width line ↔
      line.isBlank = false ∧ width < line.indent := by
    simp [BlockStyle.Takes]
  refine ⟨rfl, ⟨i, h, h.lt_of_mem, h.lt_stop, hfirst⟩, hlongest.stop_le,
    fun j hj hlt => htakes.1 (hlongest.takes j hj hlt), ?_⟩
  rcases Nat.lt_or_ge (Block.locate .item lines start).stop lines.length with hlt | hge
  · right
    by_contra hdeep
    rw [not_or, Bool.not_eq_true, Nat.not_le] at hdeep
    -- the block would be longer by the line behind it
    have hlonger := hlongest.longest _ hlt fun j hj hle => by
      rcases Nat.lt_succ_iff_lt_or_eq.1 hle with hlt | rfl
      · exact hlongest.takes j hj hlt
      · exact htakes.2 hdeep
    exact absurd hlonger (by omega)
  · exact .inl (Nat.le_antisymm hlongest.stop_le hge)

theorem isScope_of_find? (h : find? lines name = some container) :
    IsScope lines name container := by
  rw [find?_eq_map, Option.map_eq_some_iff] at h
  obtain ⟨start, hfound, rfl⟩ := h
  obtain ⟨i, hi, hname, hfirst⟩ := findSome?_range_eq_some.1 hfound
  refine isScope_ofItem ((isNameOf_iff hi).2 hname) fun j hj start' h => ?_
  have hnone := hfirst j hj
  rw [(isNameOf_iff h.lt_length).1 h] at hnone
  cases hnone

theorem find?_eq_none_iff_forall :
    find? lines name = none ↔ ∀ i start, ¬ IsNameOf lines name i start := by
  rw [find?_eq_map, Option.map_eq_none_iff, List.findSome?_eq_none_iff]
  constructor
  · intro h i start hname
    have hnone := h i (List.mem_range.2 hname.lt_length)
    rw [(isNameOf_iff hname.lt_length).1 hname] at hnone
    cases hnone
  · intro h i hi
    rw [Option.eq_none_iff_forall_ne_some]
    intro start hname
    exact h i start ((isNameOf_iff (List.mem_range.1 hi)).2 hname)

theorem IsScope.unique (h : IsScope lines name container)
    (h' : IsScope lines name container') : container = container' := by
  obtain ⟨i, hname, -, -, hfirst⟩ := h.named
  obtain ⟨i', hname', -, -, hfirst'⟩ := h'.named
  have hi : i = i' := by
    rcases Nat.lt_trichotomy i i' with hlt | heq | hlt
    · exact absurd hname (hfirst' i hlt _)
    · exact heq
    · exact absurd hname' (hfirst i' hlt _)
  subst hi
  have hstart : container.start = container'.start := by
    have hsome := (isNameOf_iff hname.lt_length).1 hname
    rw [(isNameOf_iff hname.lt_length).1 hname'] at hsome
    exact (Option.some.inj hsome).symm
  -- a scope that went on behind the end of the other one would hold the line that ends it
  have hle : ∀ {c c' : Container}, IsScope lines name c → IsScope lines name c' →
      c.start = c'.start → c.stop ≤ c'.stop := by
    intro c c' hc hc' hsame
    by_contra hlt
    rw [Nat.not_le] at hlt
    obtain ⟨k, -, hk, hstop, -⟩ := hc'.named
    have hdeep := hc.deep c'.stop (by omega) hlt
    have hend := hc.stop_le
    rcases hc'.stops with hlast | hblank | hindent
    · omega
    · rw [hblank] at hdeep
      exact absurd hdeep.1 (by decide)
    · rw [hsame] at hdeep
      omega
  have hstop := Nat.le_antisymm (hle h h' hstart) (hle h' h hstart.symm)
  have hcolumn : container.column = container'.column := by
    rw [h.column, h'.column, hstart]
  cases container
  cases container'
  simp_all

end Scope

/-- The search for an item by its name finds the item of the first entry with the name that belongs
to one, as far as it goes, and nothing if there is no such entry. -/
theorem find?_iff_scope (lines : List Line) (name : Text) :
    (∀ container, find? lines name = some container ↔ IsScope lines name container) ∧
      (find? lines name = none ↔ ∀ i start, ¬ IsNameOf lines name i start) := by
  refine ⟨fun container => ⟨isScope_of_find?, fun h => ?_⟩, find?_eq_none_iff_forall⟩
  cases hfound : find? lines name with
  | none =>
      obtain ⟨i, hname, -⟩ := h.named
      exact absurd hname (find?_eq_none_iff_forall.1 hfound i _)
  | some container' => rw [h.unique (isScope_of_find? hfound)]

end Container

end OperatorChart
