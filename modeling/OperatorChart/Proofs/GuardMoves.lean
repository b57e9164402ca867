import OperatorChart.Proofs.ArgsPass
/-!
# Guards as moves

A guard is put around the path of a certificate at once, and around an item in two moves: its
opening above the dash line, and its closing behind the item. What the passes over values and
arguments have settled is still settled then.
-/

namespace OperatorChart

open Text

/-- Whether a line opens or closes a guard behind `width` characters of indentation. -/
structure Line.IsGuardLine (width : Nat) (line : Line) : Prop where
  blank : line.isBlank = false
  indent : line.indent = width
  no_item : line.isItem = false
  no_key : ∀ key, line.hasKey key = false
  keeps : BlockStyle.sequence.keepsAtColumn line = true
  indented : line.IsIndented
  honest : line.IsHonest

namespace Line

variable {width column : Nat} {line : Line} {s : Text}

theorem isGuardLine_directive (hs : ∀ c ∈ s, isIndentation c = true) {directive : Directive}
    (hcolon : ':' ∉ directive.render) (hhonest : IsHonest (s ++ directive.render)) :
    IsGuardLine s.length (s ++ directive.render) := by
  obtain ⟨rest, hrest⟩ := directive.exists_render_cons
  have hstart : "\x7b\x7b".toList.isPrefixOf directive.render = true := by
    cases directive <;> rfl
  refine ⟨isBlank_directive hs directive, indent_directive hs directive,
    not_isItem_of_trimmed ((trimmed_directive hs directive).trans hrest) (by decide),
    not_hasKey_of_not_mem (by rwa [trimmed_directive hs]), ?_, ?_, hhonest⟩
  · rw [BlockStyle.keepsAtColumn, isDirective, trimmed_directive hs, hstart, Bool.or_true,
      Bool.true_or]
  · rw [hrest]
    exact isIndented_append hs rfl

theorem isGuardLine_opening (line : Line) (condition : Condition) :
    IsGuardLine line.indent (line.leading ++ condition.opening) := by
  have hs : ∀ c ∈ line.leading, isIndentation c = true := fun _ => isIndentation_of_mem_leading
  have hexpression : ':' ∉ condition.expression ∧ '{' ∉ condition.expression := by
    cases condition <;> decide
  exact isGuardLine_directive hs (ValuesField.not_mem_ifThen (.inl rfl) hexpression.1)
    (isHonest_ifThen hs hexpression.2)

theorem isGuardLine_close (line : Line) :
    IsGuardLine line.indent (line.leading ++ Directive.close.render) := by
  have hs : ∀ c ∈ line.leading, isIndentation c = true := fun _ => isIndentation_of_mem_leading
  exact isGuardLine_directive hs (by decide) (isHonest_directive hs (by decide) (by decide))

namespace IsGuardLine

theorem stops (h : IsGuardLine width line) (rest : List Line) : Stops width (line :: rest) := by
  rw [stops_cons, ← Bool.not_eq_true, isDeeper_iff, h.indent]
  exact fun hdeeper => Nat.lt_irrefl _ hdeeper.2

theorem isInert (h : IsGuardLine width line) : line.IsInert :=
  fun entry _ => not_isEntry_of_not_hasKey (h.no_key entry.1) entry.2

theorem continues_iff (h : IsGuardLine width line) :
    BlockStyle.sequence.continues column line = true ↔ column ≤ width := by
  refine ⟨fun hcontinues => h.indent ▸ Grouped.le_indent_of_continues hcontinues, fun hle => ?_⟩
  exact continues_of_le h.blank (by rwa [h.indent]) h.keeps

theorem not_isDirect (h : IsGuardLine width line) (column : Nat) (key : Text) :
    line.isDirect column key = false := by
  rw [isDirect, h.no_key, Bool.and_false]

theorem not_isPod (h : IsGuardLine width line) (rest : List Line) : line.isPod rest = false :=
  not_isPod_of_not_hasKey (h.no_key _) rest

end IsGuardLine

theorem continues_iff_of_isItem (h : line.isItem = true) :
    BlockStyle.sequence.continues column line = true ↔ column ≤ line.indent := by
  refine ⟨Grouped.le_indent_of_continues, fun hle => ?_⟩
  refine continues_of_le (not_isBlank_of_isItem h) hle ?_
  rw [BlockStyle.keepsAtColumn, h, Bool.true_or, Bool.true_or]

end Line

theorem Condition.guard_cons_append (condition : Condition) (s : Text) (line : Line)
    (inner out : List Line) : condition.guard s (line :: inner) ++ out =
      (s ++ condition.opening) :: line :: (inner ++ (s ++ Directive.close.render) :: out) := by
  simp [guard]

/-! ## The arguments -/

/-- Whether settled arguments in `above` stay settled when the lines behind it are moved. -/
def KeepsArgs (above old new after : List Line) : Prop :=
  ∀ before line between, above = before ++ line :: between →
    argsSettled line (between ++ (old ++ after)) → argsSettled line (between ++ (new ++ after))

section Args

variable {between old new after : List Line} {line : Line}

/-- Lines moved in or behind a list of arguments keep it settled, if they end the list or belong to
it as the old ones did, and do not become its first lines. -/
theorem argsSettled_move (hsub : ∀ l ∈ old, l ∈ new)
    (hswap : ((∀ l, (old ++ after).head? = some l →
          BlockStyle.sequence.continues line.column l = false) ∧
        ∀ l, (new ++ after).head? = some l →
          BlockStyle.sequence.continues line.column l = false) ∨
      ((∀ l ∈ old, BlockStyle.sequence.continues line.column l = true) ∧
        (∀ l ∈ new, BlockStyle.sequence.continues line.column l = true) ∧
        (between = [] → ∃ l, (old ++ after).head? = some l ∧
          BlockStyle.sequence.continues line.column l = true)))
    (h : argsSettled line (between ++ (old ++ after))) :
    argsSettled line (between ++ (new ++ after)) := by
  unfold argsSettled at h ⊢
  generalize BlockStyle.sequence.continues line.column = p at h hswap ⊢
  have hstop : ∀ ls : List Line, (∀ l, ls.head? = some l → p l = false) → ls.takeWhile p = [] := by
    intro ls hls
    cases ls with
    | nil => rfl
    | cons l ls => rw [List.takeWhile_cons_of_neg (by simp [hls l rfl])]
  by_cases hall : ∀ l ∈ between, p l = true
  · rw [List.takeWhile_append_of_pos hall] at h ⊢
    rcases hswap with ⟨hold, hnew⟩ | ⟨hold, hnew, hfirst⟩
    · rw [hstop _ hold] at h
      rwa [hstop _ hnew]
    · rw [List.takeWhile_append_of_pos hnew]
      right
      rcases h with hempty | ⟨l, hl, hocc⟩
      · obtain ⟨hnil, hold⟩ := List.append_eq_nil_iff.1 hempty
        obtain ⟨l, hl, hcontinues⟩ := hfirst hnil
        obtain ⟨rest, hrest⟩ := List.head?_eq_some_iff.1 hl
        rw [hrest, List.takeWhile_cons_of_pos hcontinues] at hold
        cases hold
      · rw [List.takeWhile_append_of_pos hold] at hl
        simp only [List.mem_append] at hl ⊢
        exact ⟨l, hl.imp_right (Or.imp_left (hsub l)), hocc⟩
  · have hcut : ∀ ls : List Line, (between ++ ls).takeWhile p = between.takeWhile p := by
      intro ls
      rw [List.takeWhile_append, if_neg]
      intro hlength
      refine hall fun l hl => ?_
      rw [← List.takeWhile_prefix p |>.eq_of_length hlength] at hl
      exact List.mem_takeWhile_imp hl
    rwa [hcut] at h ⊢

/-- Lines moved in front of a list of arguments or in it keep it settled when a list takes in each of
them, and the line that they start with, from the same columns on. -/
theorem keepsArgs_of_item {above : List Line} {first : Line} {rest : List Line} {width : Nat}
    (hsub : ∀ l ∈ old, l ∈ new) (hne : new ≠ []) (hold : old ++ after = first :: rest)
    (hfirst : ∀ column, BlockStyle.sequence.continues column first = true ↔ column ≤ width)
    (htakes : ∀ l ∈ old ++ new, ∀ column,
      BlockStyle.sequence.continues column l = true ↔ column ≤ width) :
    KeepsArgs above old new after := by
  intro before key between _ h
  refine argsSettled_move hsub ?_ h
  rw [hold]
  by_cases hle : key.column ≤ width
  · refine .inr ⟨fun l hl => ?_, fun l hl => ?_, fun _ => ⟨first, rfl, (hfirst _).2 hle⟩⟩
    · exact (htakes l (List.mem_append_left new hl) _).2 hle
    · exact (htakes l (List.mem_append_right old hl) _).2 hle
  · left
    constructor
    · rintro l ⟨⟩
      rw [← Bool.not_eq_true, hfirst]
      exact hle
    · obtain ⟨first, rest, rfl⟩ := List.exists_cons_of_ne_nil hne
      rintro l ⟨⟩
      rw [← Bool.not_eq_true, htakes first (by simp)]
      exact hle

end Args

/-! ## The moves -/

structure IsGuarding (above old new after : List Line) : Prop extends
    IsMove above old new after where
  quiet : ∀ key ∈ managedKeys, Quiet key above old new after
  noPod_old : NoPod old after
  noPod_new : NoPod new after
  args : KeepsArgs above old new after
  honest : ∀ l ∈ new, l ∈ old ∨ l.IsHonest

/-- Whether a document has the expected shape, and the passes over values and arguments would find
their own output. -/
structure IsTemplated (ls : List Line) : Prop where
  shaped : IsShaped ls
  honest : ∀ l ∈ ls, l.IsHonest
  values : ValuesSettled ls
  args : KeySettled "args".toList argsSettled ls

section Moves

variable {above old new after start inner behind : List Line} {opening closing line dash : Line}

theorem IsTemplated.move (h : IsGuarding above old new after)
    (htemplated : IsTemplated (above ++ (old ++ after))) :
    IsTemplated (above ++ (new ++ after)) := by
  refine ⟨htemplated.shaped.step h.toIsStep, fun l hl => ?_,
    htemplated.values.move
      ⟨h.toIsMove, fun key hkey _ => h.quiet key hkey, h.noPod_old, h.noPod_new⟩,
    htemplated.args.move h.toIsMove (h.quiet _ (by decide)) fun before line between heq _ =>
      h.args before line between heq⟩
  have hold := htemplated.honest
  simp only [List.mem_append] at hl hold
  rcases hl with hl | hl | hl
  · exact hold l (.inl hl)
  · exact (h.honest l hl).elim (fun hl => hold l (.inr (.inl hl))) id
  · exact hold l (.inr (.inr hl))

theorem keepsItems_path (hopening : opening.isItem = false)
    (hclosing : Line.IsGuardLine line.indent closing) :
    KeepsItems [line] [opening, line, closing] after := by
  intro front l rest heq hl
  left
  rcases front with - | ⟨first, - | ⟨second, - | ⟨third, front⟩⟩⟩
  · obtain ⟨rfl, -⟩ := List.cons.inj heq
    rw [hopening] at hl
    cases hl
  · simp only [List.cons_append, List.nil_append, List.cons.injEq] at heq
    obtain ⟨-, rfl, rfl⟩ := heq
    rw [List.cons_append, (hclosing.stops _).takeWhile]
    simp
  · simp only [List.cons_append, List.nil_append, List.cons.injEq] at heq
    obtain ⟨-, -, rfl, -⟩ := heq
    rw [hclosing.no_item] at hl
    cases hl
  · simp at heq

theorem isGuarding_path (hopening : Line.IsGuardLine line.indent opening)
    (hclosing : Line.IsGuardLine line.indent closing) (hitem : line.isItem = true)
    (hinert : line.IsInert) (hindented : line.IsIndented)
    (hkeys : ∀ key ∈ "serviceAccountName".toList :: managedKeys, line.hasKey key = false) :
    IsGuarding above [line] [opening, line, closing] after := by
  rw [List.forall_mem_cons] at hkeys
  have hblank := Line.not_isBlank_of_isItem hitem
  have hswap : IsSwap [line] [opening, line, closing] after := by
    refine .of_indent hblank hopening.blank hopening.indent (by simp) ?_ after
    exact List.forall_mem_cons.2 ⟨⟨hblank, Nat.le_refl _⟩,
      List.forall_mem_singleton.2 ⟨hclosing.blank, hclosing.indent.ge⟩⟩
  have hquiet : ∀ key ∈ managedKeys, Quiet key above [line] [opening, line, closing] after := by
    intro key hkey column front _ l hl
    have hline : line.isDirect column key = false := by
      rw [Line.isDirect, hkeys.2 key hkey, Bool.and_false]
    simp only [List.mem_append, List.mem_cons, List.not_mem_nil, or_false] at hl
    rcases hl with rfl | rfl | rfl | rfl
    · exact hline
    · exact hopening.not_isDirect column key
    · exact hline
    · exact hclosing.not_isDirect column key
  have htakes : ∀ l ∈ [line] ++ [opening, line, closing], ∀ column,
      BlockStyle.sequence.continues column l = true ↔ column ≤ line.indent := by
    simp [Line.continues_iff_of_isItem hitem, hopening.continues_iff, hclosing.continues_iff]
  refine ⟨⟨⟨hswap, ?_, ?_⟩, by simp, keepsItems_path hopening.no_item hclosing, ?_, ?_⟩, hquiet, ?_,
    ?_, ?_, ?_⟩
  · simp [hopening.isInert, hinert, hclosing.isInert]
  · simp [hopening.indented, hindented, hclosing.indented]
  · refine KeepsPods.of_swap hswap ?_ ?_
    · rintro l ⟨⟩
      exact hkeys.1
    · rintro l ⟨⟩
      exact hopening.no_key _
  · rintro before l _ x ⟨⟩
    exact Line.not_isInner_of_isItem hitem _
  · exact ⟨Line.not_isPod_of_isItem hitem _, trivial⟩
  · exact ⟨hopening.not_isPod _, Line.not_isPod_of_isItem hitem _, hclosing.not_isPod _, trivial⟩
  · exact keepsArgs_of_item (by simp) (by simp) rfl (fun _ => Line.continues_iff_of_isItem hitem)
      htakes
  · simp [hopening.honest, hclosing.honest]

theorem isGuarding_opening (hopening : Line.IsGuardLine line.indent opening)
    (hitem : line.isItem = true) (haccount : line.hasKey "serviceAccountName".toList = false) :
    IsGuarding above [] [opening] (line :: after) := by
  have hswap : IsSwap [] [opening] (line :: after) := by
    refine .of_stops hopening.blank (by simp) (stops_cons.2 ?_)
    rw [← Bool.not_eq_true, Line.isDeeper_iff, hopening.indent]
    exact fun h => Nat.lt_irrefl _ h.2
  refine ⟨⟨⟨hswap, by simp [hopening.isInert], by simp [hopening.indented]⟩, by simp, ?_, ?_, ?_⟩,
    ?_, trivial, ⟨hopening.not_isPod _, trivial⟩, ?_, by simp [hopening.honest]⟩
  · intro front l rest heq hl
    have hmem : l ∈ [opening] := by rw [heq]; simp
    rw [List.mem_singleton.1 hmem, hopening.no_item] at hl
    cases hl
  · refine KeepsPods.of_swap hswap ?_ ?_
    · rintro l ⟨⟩
      exact haccount
    · rintro l ⟨⟩
      exact hopening.no_key _
  · rintro before l _ x ⟨⟩
    exact Line.not_isInner_of_isItem hitem _
  · intro key _ column front _ l hl
    rw [List.nil_append, List.mem_singleton] at hl
    rw [hl]
    exact hopening.not_isDirect column key
  · exact keepsArgs_of_item (by simp) (by simp) rfl (fun _ => Line.continues_iff_of_isItem hitem)
      (by simp [hopening.continues_iff])

theorem isGuarding_closing (hclosing : Line.IsGuardLine dash.indent closing)
    (hitem : dash.isItem = true) (hdeep : ∀ l ∈ inner, l.isDeeper dash.indent = true)
    (hstops : Stops dash.indent behind) :
    IsGuarding (start ++ dash :: inner) [] [closing] behind := by
  have hmove : IsMove (start ++ dash :: inner) [] [closing] behind :=
    .of_end hitem hdeep hstops hclosing.blank hclosing.indent.ge (by simp) (hclosing.no_key _)
      (by simp [hclosing.no_item]) (by simp [hclosing.isInert]) (by simp [hclosing.indented])
  refine ⟨hmove, ?_, trivial, ⟨hclosing.not_isPod _, trivial⟩, ?_, by simp [hclosing.honest]⟩
  · intro key _ column front _ l hl
    rw [List.nil_append, List.mem_singleton] at hl
    rw [hl]
    exact hclosing.not_isDirect column key
  · intro before key between heq h
    refine argsSettled_move (by simp) ?_ h
    by_cases hle : key.column ≤ dash.indent
    · right
      refine ⟨by simp, by simp [hclosing.continues_iff, hle], fun hnil => ?_⟩
      -- the last line of the item is deeper than the dash
      exfalso
      subst hnil
      have hlast := congrArg List.getLast? heq
      rw [List.getLast?_append_of_ne_nil _ (List.cons_ne_nil dash inner),
        List.getLast?_append_of_ne_nil _ (List.cons_ne_nil key []), List.getLast?_singleton]
        at hlast
      rcases List.mem_cons.1 (List.mem_of_getLast? hlast) with rfl | hmem
      · have hlt := Line.indent_lt_column hitem
        omega
      · have hlt := (Line.isDeeper_iff.1 (hdeep key hmem)).2
        have hcolumn := key.indent_le_column
        omega
    · left
      constructor
      · intro l hl
        have hstop := hstops l hl
        rw [← Bool.not_eq_true, Line.isDeeper_iff] at hstop
        rw [← Bool.not_eq_true]
        intro hcontinues
        have hindent := Grouped.le_indent_of_continues hcontinues
        rw [BlockStyle.continues, Bool.and_eq_true, Bool.not_eq_true'] at hcontinues
        exact hstop ⟨hcontinues.1, by omega⟩
      · rintro l ⟨⟩
        rw [← Bool.not_eq_true, hclosing.continues_iff]
        exact hle

end Moves

end OperatorChart
