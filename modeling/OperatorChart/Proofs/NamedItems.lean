import OperatorChart.Proofs.FieldMoves
/-!
# The item that is found by its name

The search for an item stops at the first entry with the name that belongs to an item. Here it is
turned into a statement about the parts of a document: nothing in front of the item has the name
and an owner, and what makes the item the one that is found stands in the item itself. So an edit
of the item, or of a block elsewhere, is followed through the search part by part.
-/

namespace OperatorChart

open Text

def Line.isNamed (name : Text) (line : Line) : Bool :=
  line.isEntry "name".toList name

/-- Whether a line is a key of the item of a dash line, given the lines between them. -/
structure Owns (dash : Line) (between : List Line) (line : Line) : Prop where
  item : dash.isItem = true
  column : dash.column = line.indent
  between : ∀ l ∈ between, Container.isOwnerStop line.indent l = false

def IsOwned (above : List Line) (line : Line) : Prop :=
  line.isItem = true ∨
    ∃ front dash between, above = front ++ dash :: between ∧ Owns dash between line

def Unnamed (name : Text) (ls : List Line) : Prop :=
  ∀ above line below, ls = above ++ line :: below → line.isNamed name = true → ¬ IsOwned above line

/-- What makes an item the one with a name: the first entry in it that has the name and an owner
is a key of the item. -/
structure IsNamedItem (name : Text) (dash : Line) (inner : List Line) : Prop where
  item : dash.isItem = true
  deep : ∀ l ∈ inner, l.isDeeper dash.indent = true
  named : ∃ above entry below, dash :: inner = above ++ entry :: below ∧
    entry.isNamed name = true ∧ Unnamed name above ∧
    (above = [] ∨ entry.isItem = false ∧ ∃ between, above = dash :: between ∧
      Owns dash between entry)

structure FindsItem (name : Text) (ls start : List Line) (dash : Line)
    (inner behind : List Line) : Prop where
  eq : ls = start ++ dash :: (inner ++ behind)
  fresh : Unnamed name start
  item : IsNamedItem name dash inner
  stops : Stops dash.indent behind

section Owners

variable {name : Text} {ls above before between below rest start inner behind : List Line}
  {dash line entry : Line}

theorem IsOwned.append_left (h : IsOwned above line) (before : List Line) :
    IsOwned (before ++ above) line := by
  refine h.imp_right ?_
  rintro ⟨front, dash, between, rfl, howns⟩
  exact ⟨before ++ front, dash, between, by simp, howns⟩

/-- The search for an owner does not go beyond a line that is indented less. -/
theorem IsOwned.of_append_left (hdash : dash.indent < line.indent)
    (h : IsOwned (before ++ dash :: between) line) : IsOwned (dash :: between) line := by
  refine h.imp_right ?_
  rintro ⟨front, owner, rest, heq, howns⟩
  rcases cases_of_append_eq heq with ⟨r, -, hrest⟩ | ⟨s, -, hs⟩
  · have hstop := howns.between dash (by rw [hrest]; simp)
    rw [Container.isOwnerStop, Bool.or_eq_false_iff, decide_eq_false_iff_not] at hstop
    exact absurd hdash hstop.2
  · exact ⟨s, owner, rest, hs, howns⟩

theorem unnamed_nil (name : Text) : Unnamed name [] := by
  intro above line below heq
  simp at heq

theorem Unnamed.of_append (h : Unnamed name (ls ++ rest)) : Unnamed name ls := by
  rintro above line below rfl
  exact h above line (below ++ rest) (by simp)

theorem Unnamed.of_append_right (h : Unnamed name (before ++ ls)) : Unnamed name ls := by
  rintro above line below rfl hname howned
  exact h (before ++ above) line below (by simp) hname (howned.append_left before)

theorem Unnamed.append (h : Unnamed name ls)
    (hrest : ∀ above line below, rest = above ++ line :: below → line.isNamed name = true →
      ¬ IsOwned (ls ++ above) line) : Unnamed name (ls ++ rest) := by
  intro above line below heq hname
  rcases cases_of_append_eq heq with ⟨r, rfl, -⟩ | ⟨s, rfl, hs⟩
  · exact h above line r rfl hname
  · exact hrest s line below hs hname

/-- Nothing in front of an item owns what stands in it. -/
theorem Unnamed.append_item (hstart : Unnamed name start) (hdash : dash.isItem = true)
    (hdeep : ∀ l ∈ between, l.isDeeper dash.indent = true)
    (hitem : Unnamed name (dash :: between)) : Unnamed name (start ++ dash :: between) := by
  refine hstart.append fun above line below heq hname howned => ?_
  cases above with
  | nil =>
      obtain ⟨rfl, rfl⟩ := List.cons.inj heq
      exact hitem [] dash between rfl hname (.inl hdash)
  | cons first above =>
      obtain ⟨rfl, rfl⟩ := List.cons.inj heq
      have hline := (Line.isDeeper_iff.1 (hdeep line (by simp))).2
      exact hitem (dash :: above) line below rfl hname (howned.of_append_left hline)

end Owners

/-! ## The search -/

namespace Container

section Search

variable {name : Text} {ls above back start inner behind : List Line} {line dash : Line}
  {container : Container} {j : Nat}

theorem findSome?_range_eq_some {β : Type} {f : Nat → Option β} {n : Nat} {b : β} :
    (List.range n).findSome? f = some b ↔ ∃ i < n, f i = some b ∧ ∀ j < i, f j = none := by
  rw [List.findSome?_eq_some_iff]
  constructor
  · rintro ⟨front, i, back, h, hi, hfront⟩
    rw [List.range_eq_range', List.range'_eq_append_iff] at h
    obtain ⟨k, hk, rfl, hback⟩ := h
    obtain ⟨rfl, hpos, -⟩ := List.range'_eq_cons_iff.1 hback.symm
    exact ⟨_, by omega, hi, fun j hj => hfront j (List.mem_range'_1.2 (by omega))⟩
  · rintro ⟨i, hi, hfound, hfirst⟩
    refine ⟨List.range i, i, List.range' (i + 1) (n - i - 1), ?_, hfound, fun j hj =>
      hfirst j (List.mem_range.1 hj)⟩
    rw [List.range_eq_range', List.range'_eq_append_iff]
    refine ⟨i, hi.le, List.range_eq_range', (List.range'_eq_cons_iff.2 ?_).symm⟩
    exact ⟨by omega, by omega, rfl⟩

theorem itemOf?_around : itemOf? (above ++ line :: back) above.length = some j ↔
    (line.isItem = true ∧ j = above.length) ∨ (line.isItem = false ∧
      ∃ front dash between, above = front ++ dash :: between ∧ front.length = j ∧
        Owns dash between line) := by
  rw [itemOf?, lineAt_length]
  cases hitem : line.isItem with
  | true => simp [eq_comm]
  | false =>
      simp only [Bool.false_eq_true, if_false, false_and, true_and, false_or]
      constructor
      · intro h
        obtain ⟨front, dash, between, heq, hlength, hdash, hcolumn, hbetween⟩ := exists_of_owner? h
        exact ⟨front, dash, between, heq, hlength, hdash, hcolumn, hbetween⟩
      · rintro ⟨front, dash, between, rfl, rfl, hdash, hcolumn, hbetween⟩
        rw [← hcolumn] at hbetween ⊢
        exact owner?_of_item hdash hbetween

theorem itemOf?_eq_none_iff :
    itemOf? (above ++ line :: back) above.length = none ↔ ¬ IsOwned above line := by
  rw [Option.eq_none_iff_forall_ne_some, IsOwned]
  constructor
  · rintro h (hitem | ⟨front, dash, between, heq, howns⟩)
    · exact h _ (itemOf?_around.2 (.inl ⟨hitem, rfl⟩))
    · cases hitem : line.isItem with
      | true => exact h _ (itemOf?_around.2 (.inl ⟨hitem, rfl⟩))
      | false =>
          exact h _ (itemOf?_around.2 (.inr ⟨hitem, front, dash, between, heq, rfl, howns⟩))
  · intro h j hj
    rcases itemOf?_around.1 hj with ⟨hitem, -⟩ | ⟨-, front, dash, between, heq, -, howns⟩
    · exact h (.inl hitem)
    · exact h (.inr ⟨front, dash, between, heq, howns⟩)

/-- What the search for an item looks at in one line. -/
def namedItemOf? (ls : List Line) (name : Text) (i : Nat) : Option Nat :=
  if (lineAt ls i).isEntry "name".toList name then itemOf? ls i else none

theorem find?_eq_map (ls : List Line) (name : Text) : find? ls name =
    ((List.range ls.length).findSome? (namedItemOf? ls name)).map (ofItem ls) := rfl

theorem forall_namedItemOf?_eq_none_iff : (∀ i < above.length,
    namedItemOf? (above ++ back) name i = none) ↔ Unnamed name above := by
  constructor
  · rintro h front line rest rfl hname
    have hnone := h front.length (by simp)
    rw [List.append_assoc, List.cons_append, namedItemOf?, lineAt_length, ← Line.isNamed,
      if_pos hname] at hnone
    exact itemOf?_eq_none_iff.1 hnone
  · intro h i hi
    obtain ⟨front, rest, heq, rfl⟩ := exists_around hi
    generalize lineAt above front.length = line at *
    subst heq
    rw [List.append_assoc, List.cons_append, namedItemOf?, lineAt_length]
    split
    · rename_i hname
      exact itemOf?_eq_none_iff.2 (h front line rest rfl hname)
    · rfl

theorem find?_eq_none_iff : find? ls name = none ↔ Unnamed name ls := by
  rw [find?_eq_map, Option.map_eq_none_iff, List.findSome?_eq_none_iff,
    ← @forall_namedItemOf?_eq_none_iff name ls [], List.append_nil]
  simp only [List.mem_range]

end Search

end Container

namespace FindsItem

variable {name : Text} {ls start inner behind : List Line} {dash : Line} {container : Container}

theorem find?_eq (h : FindsItem name ls start dash inner behind) :
    Container.find? ls name =
      some ⟨start.length, start.length + 1 + inner.length, dash.column⟩ := by
  obtain ⟨rfl, hfresh, ⟨hitem, hdeep, above, entry, below, heq, hname, habove, howner⟩, hstops⟩ := h
  rw [Container.find?_eq_map, ← Container.ofItem_around hdeep hstops]
  have hsplit : start ++ dash :: (inner ++ behind) =
      (start ++ above) ++ entry :: (below ++ behind) := by
    rw [← List.cons_append, heq]
    simp
  have hnone : Unnamed name (start ++ above) := by
    rcases howner with rfl | ⟨-, between, rfl, -⟩
    · rwa [List.append_nil]
    · obtain ⟨-, rfl⟩ := List.cons.inj heq
      exact hfresh.append_item hitem (fun l hl => hdeep l (by simp [hl])) habove
  have hfound : Container.itemOf? ((start ++ above) ++ entry :: (below ++ behind))
      (start ++ above).length = some start.length := by
    rcases howner with rfl | ⟨hplain, between, rfl, howns⟩
    · obtain ⟨rfl, -⟩ := List.cons.inj heq
      exact Container.itemOf?_around.2 (.inl ⟨hitem, by simp⟩)
    · exact Container.itemOf?_around.2 (.inr ⟨hplain, start, dash, between, rfl, rfl, howns⟩)
  rw [Container.findSome?_range_eq_some.2 ⟨(start ++ above).length, ?_, ?_, ?_⟩, Option.map_some]
  · rw [hsplit]
    simp
  · rw [hsplit, Container.namedItemOf?, lineAt_length, ← Line.isNamed, if_pos hname, hfound]
  · rw [hsplit]
    exact Container.forall_namedItemOf?_eq_none_iff.2 hnone

end FindsItem

theorem Container.exists_findsItem {name : Text} {ls : List Line} {container : Container}
    (h : find? ls name = some container) : ∃ start dash inner behind,
      FindsItem name ls start dash inner behind ∧
        container = ⟨start.length, start.length + 1 + inner.length, dash.column⟩ := by
  rw [find?_eq_map] at h
  obtain ⟨j, hj, rfl⟩ := Option.map_eq_some_iff.1 h
  obtain ⟨i, hi, hfound, hfirst⟩ := findSome?_range_eq_some.1 hj
  obtain ⟨above, back, hls, rfl⟩ := exists_around hi
  generalize lineAt ls above.length = entry at *
  subst hls
  rw [forall_namedItemOf?_eq_none_iff] at hfirst
  rw [namedItemOf?, lineAt_length] at hfound
  split at hfound
  · rename_i hname
    rcases itemOf?_around.1 hfound with ⟨hitem, rfl⟩ |
      ⟨hplain, start, dash, between, rfl, rfl, howns⟩
    · have hdeep : ∀ l ∈ back.takeWhile (Line.isDeeper entry.indent),
          l.isDeeper entry.indent = true := fun l hl => List.mem_takeWhile_imp hl
      have hstops := stops_dropWhile entry.indent back
      have hback := List.takeWhile_append_dropWhile (p := Line.isDeeper entry.indent) (l := back)
      refine ⟨above, entry, _, _, ⟨by rw [hback], hfirst, ⟨hitem, hdeep, [], entry, _, rfl, hname,
        unnamed_nil name, .inl rfl⟩, hstops⟩, ?_⟩
      rw [← ofItem_around hdeep hstops, hback]
    · have hlt := Line.indent_lt_column howns.item
      have hcolumn := howns.column
      have hbetween : ∀ l ∈ between, l.isDeeper dash.indent = true := fun l hl =>
        isDeeper_of_not_isOwnerStop (howns.between l hl) (by omega)
      have hentry : entry.isDeeper dash.indent = true :=
        Line.isDeeper_iff.2 ⟨Line.not_isBlank_of_hasKey (Line.hasKey_of_isEntry hname), by omega⟩
      have hdeep : ∀ l ∈ between ++ entry :: back.takeWhile (Line.isDeeper dash.indent),
          l.isDeeper dash.indent = true := by
        rw [List.forall_mem_append, List.forall_mem_cons]
        exact ⟨hbetween, hentry, fun l hl => List.mem_takeWhile_imp hl⟩
      have hstops := stops_dropWhile dash.indent back
      have hsplit : start ++ dash :: between ++ entry :: back =
          start ++ dash :: ((between ++ entry :: back.takeWhile (Line.isDeeper dash.indent)) ++
            back.dropWhile (Line.isDeeper dash.indent)) := by
        simp
      refine ⟨start, dash, _, _, ⟨hsplit, hfirst.of_append, ⟨howns.item, hdeep, dash :: between,
        entry, _, rfl, hname, hfirst.of_append_right, .inr ⟨hplain, between, rfl, howns⟩⟩,
        hstops⟩, ?_⟩
      rw [hsplit, ofItem_around hdeep hstops]
  · cases hfound

end OperatorChart
