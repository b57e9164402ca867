import OperatorChart.Proofs.ValuePasses
/-!
# The edit of the arguments on a shaped deployment

The rebuilt list stands where the old one stood, as a part of the same block. It holds the loop
over the values, by which the next edit recognises it, and no key that another edit looks at.
-/

namespace OperatorChart

open Text

/-- Whether the arguments of a key are none, or are looked up in the values. -/
def argsSettled (line : Line) (rest : List Line) : Prop :=
  rest.takeWhile (BlockStyle.sequence.continues line.column) = [] ∨
    ∃ l ∈ rest.takeWhile (BlockStyle.sequence.continues line.column), Values.argsPath <:+: l

namespace Line

/-- Whether a line may stand in a rebuilt list under a key at `column`. -/
structure IsArgument (column : Nat) (line : Line) : Prop where
  continues : BlockStyle.sequence.continues column line = true
  inert : line.IsInert
  indented : line.IsIndented
  no_context : line.isItem = false → line.hasKey Values.podSecurityContext.key = false

def ownedFlags : List Text :=
  [Values.metricsBindFlag, Values.healthProbeFlag, Values.webhookCertFlag, Values.metricsCertFlag]

variable {line : Line} {column : Nat} {s rest flag : Text}

theorem isInert_of_flag (hflag : flag ∈ ownedFlags) (h : flag <:+: line.content) :
    line.IsInert := by
  have hflags : ∀ flag ∈ ownedFlags, flag ≠ [] ∧ (∀ c ∈ flag, Unicode.isWhiteSpace c = false) ∧
      ':' ∉ flag ∧ '"' ∉ flag ∧ '\'' ∉ flag := by decide
  have hentries : ∀ entry ∈ watchedEntries, ∀ flag ∈ ownedFlags,
      hasInfix flag entry.1 = false ∧ hasInfix flag entry.2 = false := by decide
  obtain ⟨hne, hsolid, hcolon, hdouble, hsingle⟩ := hflags flag hflag
  intro entry hentry
  obtain ⟨hkey, hvalue⟩ := hentries entry hentry flag hflag
  rw [← Bool.not_eq_true]
  intro hfound
  rcases infix_of_isEntry ⟨hne, hsolid⟩ hcolon hdouble hsingle hfound h with hocc | hocc
  · exact hasInfix_eq_false_iff.1 hkey hocc
  · exact hasInfix_eq_false_iff.1 hvalue hocc

theorem exists_flag_of_kind (h : Values.ArgKind.of rest ≠ .user) :
    ∃ flag ∈ ownedFlags, flag <:+: rest := by
  unfold Values.ArgKind.of at h
  split at h
  · rename_i hocc
    exact ⟨_, by simp [ownedFlags], hasInfix_iff.1 hocc⟩
  · split at h
    · rename_i hocc
      exact ⟨_, by simp [ownedFlags], hasInfix_iff.1 hocc⟩
    · split at h
      · rename_i hocc
        rw [Bool.or_eq_true] at hocc
        rcases hocc with hocc | hocc
        · exact ⟨_, by simp [ownedFlags], hasInfix_iff.1 hocc⟩
        · exact ⟨_, by simp [ownedFlags], hasInfix_iff.1 hocc⟩
      · exact absurd rfl h

theorem continues_of_le (hblank : line.isBlank = false) (hle : column ≤ line.indent)
    (hkeeps : BlockStyle.sequence.keepsAtColumn line = true) :
    BlockStyle.sequence.continues column line = true := by
  rw [BlockStyle.continues, hblank, hkeeps, Bool.not_false, Bool.true_and, Bool.and_true,
    Bool.or_eq_true, decide_eq_true_eq, beq_iff_eq]
  omega

theorem isArgument_text (hs : ∀ c ∈ s, isIndentation c = true) (hle : column ≤ s.length) {t : Text}
    (htrim : trimmed t = t) (hsolid : t.head?.any (fun c => !Unicode.isWhiteSpace c) = true)
    (hkeeps : BlockStyle.sequence.keepsAtColumn t = true) (hinert : IsInert t)
    (hcontext : hasKey t Values.podSecurityContext.key = false) :
    IsArgument column (s ++ t) := by
  have hwhite : IsWhite s := fun c hc => isWhiteSpace_of_isIndentation (hs c hc)
  have htrimmed : trimmed (s ++ t) = trimmed t := trimmed_append hwhite
  obtain ⟨c, rest, rfl, hc⟩ : ∃ c rest, t = c :: rest ∧ Unicode.isWhiteSpace c = false := by
    cases t with
    | nil => cases hsolid
    | cons c rest => exact ⟨c, rest, rfl, by simpa using hsolid⟩
  have hblank : isBlank (s ++ c :: rest) = false := not_isBlank_of_mem (by simp) hc
  have hitem : isItem (s ++ c :: rest) = isItem (c :: rest) := by rw [isItem, isItem, htrimmed]
  have hcontent : content (s ++ c :: rest) = content (c :: rest) := by
    rw [content, content, hitem, htrimmed]
  refine ⟨continues_of_le hblank (Nat.le_trans hle (length_le_indent_append hs _)) ?_,
    fun entry hentry => ?_, isIndented_append hs hc, fun _ => ?_⟩
  · rw [← hkeeps, BlockStyle.keepsAtColumn, BlockStyle.keepsAtColumn, hitem, isDirective,
      isDirective, isComment, isComment, htrimmed]
  · rw [← hinert entry hentry, isEntry, isEntry, hcontent]
  · rw [← hcontext, hasKey, hasKey, hcontent]

section Tidy

variable (hs : ∀ c ∈ s, isIndentation c = true)

include hs

theorem isTidy_ifThen {expression : Text} (hbrace : '{' ∉ expression)
    (hne : ∀ condition ∈ certificateConditions, expression ≠ condition.expression) :
    IsTidy [] (s ++ (Directive.ifThen expression).render) :=
  ⟨isHonest_ifThen hs hbrace, not_opensCertificate_ifThen hs hne, by simp [Avoids]⟩

theorem isTidy_directive {directive : Directive} {role : GuardRole}
    (hbrace : '{' ∉ directive.render.drop 2)
    (hend : Directive.close.render <+: directive.render → directive = .close)
    (hrole : Line.role (s ++ directive.render) = role) (hne : role ≠ .ifThen) :
    IsTidy [] (s ++ directive.render) :=
  ⟨isHonest_directive hs hbrace hend, not_opensCertificate_of_role (hrole ▸ hne), by simp [Avoids]⟩

theorem isTidy_text {t : Text} (hplain : IsPlain t) : IsTidy [] (s ++ t) :=
  (IsPlain.append_left hplain fun h => absurd (hs '{' h) (by decide)).isTidy (by simp [Avoids])

end Tidy

end Line

namespace Values

variable {line : Line} {column : Nat} {s fallback : Text} {items after : List Line}

structure IsKept (column : Nat) (line : Line) : Prop where
  dash : line.isItem = true
  continues : BlockStyle.sequence.continues column line = true
  indented : line.IsIndented

theorem IsKept.isArgument (h : IsKept column line) (hkind : ArgKind.of line.content ≠ .user) :
    line.IsArgument column := by
  obtain ⟨flag, hflag, hocc⟩ := Line.exists_flag_of_kind hkind
  refine ⟨h.continues, Line.isInert_of_flag hflag hocc, h.indented, fun hitem => ?_⟩
  rw [h.dash] at hitem
  cases hitem

theorem isArgument_argText (hs : ∀ c ∈ s, isIndentation c = true) (hle : column ≤ s.length)
    {t : Text} (ht : t ∈ argTexts) : Line.IsArgument column (s ++ t) := by
  have htexts : ∀ t ∈ argTexts, Line.trimmed t = t ∧
      t.head?.any (fun c => !Unicode.isWhiteSpace c) = true ∧
      BlockStyle.sequence.keepsAtColumn t = true ∧ Line.IsInert t ∧
      Line.hasKey t podSecurityContext.key = false := by decide
  obtain ⟨htrim, hsolid, hkeeps, hinert, hcontext⟩ := htexts t ht
  exact Line.isArgument_text hs hle htrim hsolid hkeeps hinert hcontext

theorem isArgument_argLines (hfallback : ∀ c ∈ fallback, isIndentation c = true)
    (hle : column ≤ fallback.length) (hitems : ∀ item ∈ items, IsKept column item) :
    ∀ l ∈ argLines fallback items, l.IsArgument column := by
  intro l hl
  rcases mem_argLines hl with ⟨hitem, hkind⟩ | ⟨s, hs, t, ht, rfl⟩
  · exact (hitems l hitem).isArgument hkind
  · refine isArgument_argText (isIndentation_of_mem_leadings hfallback hs) ?_ ht
    rcases List.mem_cons.1 hs with rfl | hs
    · exact hle
    · obtain ⟨item, hitem, rfl⟩ := List.mem_map.1 hs
      exact Grouped.le_indent_of_continues (hitems item hitem).continues

theorem isTidy_argText (hs : ∀ c ∈ s, isIndentation c = true) {t : Text} (ht : t ∈ argTexts) :
    Line.IsTidy [] (s ++ t) := by
  simp only [argTexts, List.mem_cons, List.not_mem_nil, or_false] at ht
  rcases ht with rfl | rfl | rfl | rfl | rfl | rfl | rfl
  · exact Line.isTidy_ifThen hs (by decide) (by decide)
  · exact Line.isTidy_directive hs (by decide) (by decide) (Line.role_otherwise hs) (by decide)
  · exact Line.isTidy_text hs (by decide)
  · exact Line.isTidy_text hs (by decide)
  · exact Line.isTidy_directive hs (by decide) (by decide) (Line.role_close hs) (by decide)
  · exact Line.isTidy_directive hs (by decide) (by decide) (Line.role_range hs _) (by decide)
  · exact Line.isTidy_text hs (by decide)

theorem isTidy_argLines (hfallback : ∀ c ∈ fallback, isIndentation c = true)
    (hitems : ∀ item ∈ items, item.IsTidy []) : ∀ l ∈ argLines fallback items, l.IsTidy [] := by
  intro l hl
  rcases mem_argLines hl with ⟨hl, -⟩ | ⟨s, hs, t, ht, rfl⟩
  · exact hitems l hl
  · exact isTidy_argText (isIndentation_of_mem_leadings hfallback hs) ht

theorem exists_loop (fallback : Text) (items : List Line) :
    ∃ l ∈ argLines fallback items, argsPath <:+: l := by
  refine ⟨(items.head?.map Line.leading).getD fallback ++ (Directive.range argsPath).render, ?_, ?_⟩
  · simp [argLines, rangeLines]
  · exact ⟨(items.head?.map Line.leading).getD fallback ++ "\x7b\x7b- range ".toList,
      " \x7d\x7d".toList, by rw [Directive.render_range]; simp only [List.append_assoc]⟩

/-! ## The pass -/

section Pass

variable {ls before : List Line}

theorem fillArgs_around (hnamed : NamedOnce (before ++ line :: after))
    (hfirst : IsFirstKey "args".toList before line after)
    (hfresh : ∀ l ∈ before ++ line :: after, ¬ argsPath <:+: l)
    (hbody : after.takeWhile (BlockStyle.sequence.continues line.column) ≠ []) :
    fillArgs (before ++ line :: after) =
      before ++ (line :: argLines (padding (line.column + 2)) (argItems line after) ++
        after.dropWhile (BlockStyle.sequence.continues line.column)) := by
  have hempty :
      (Block.locate .sequence (before ++ line :: after) before.length).isEmpty = false := by
    rw [isEmpty_locate]
    simpa [BlockStyle.body, BlockStyle.column] using hbody
  have hfound : argsProbe.found (before ++ line :: after)
      (Block.locate .sequence (before ++ line :: after) before.length) = false := by
    rw [Probe.found, List.any_eq_false]
    intro l hl
    rw [hasInfix_iff]
    exact hfresh l ((List.take_sublist _ _).mem ((List.drop_sublist _ _).mem hl))
  rw [fillArgs, hfirst.key?_eq hnamed]
  dsimp only
  rw [hempty, hfound, Bool.or_false, if_neg (by decide), splice_locate, bodyOf_locate,
    locate_around, lineAt_length, List.append_assoc]
  rfl

theorem fillArgs_of_settled (hnamed : NamedOnce ls)
    (h : KeySettled "args".toList argsSettled ls) : fillArgs ls = ls := by
  rcases exists_isFirstKey hnamed "args".toList with hnone | ⟨before, line, after, rfl, hfirst⟩
  · rw [fillArgs, hnone]
  · rw [fillArgs, hfirst.key?_eq hnamed]
    dsimp only
    rw [if_pos]
    rw [Bool.or_eq_true, isEmpty_locate]
    rcases h before line after rfl hfirst with hempty | ⟨l, hl, hocc⟩
    · left
      simpa [BlockStyle.body, BlockStyle.column] using hempty
    · right
      rw [Probe.found, List.any_eq_true]
      refine ⟨l, ?_, hasInfix_iff.2 hocc⟩
      rw [locate_around, argsProbe]
      dsimp only
      rw [Nat.add_zero, take_around, BlockStyle.body, take_length_takeWhile, List.drop_left]
      exact List.mem_cons_of_mem line hl

theorem isReplacement_args {body value rest : List Line} (hkey : line.hasKey "args".toList = true)
    (hline : line.IsIndented)
    (hbody : ∀ l ∈ body, BlockStyle.sequence.continues line.column l = true)
    (hvalue : ∀ l ∈ value, l.IsArgument line.column) (hstops : Stops line.column rest) :
    IsReplacement "args".toList line body line value rest :=
  ⟨hkey, hkey, rfl, rfl, rfl, fun l hl => BlockStyle.deep_of_continues (hbody l hl),
    fun l hl => BlockStyle.deep_of_continues (hvalue l hl).continues,
    fun l hl => (hvalue l hl).inert,
    List.forall_mem_cons.2 ⟨hline, fun l hl => (hvalue l hl).indented⟩, fun _ _ _ => hstops⟩

theorem edits_args {value : List Line} (hready : IsReady [argsPath] (before ++ line :: after))
    (hvalues : ValuesSettled (before ++ line :: after))
    (hfirst : IsFirstKey "args".toList before line after)
    (hvalue : ∀ l ∈ value, l.IsArgument line.column) (htidy : ∀ l ∈ value, l.IsTidy [])
    (hloop : ∃ l ∈ value, argsPath <:+: l) :
    Edits "args".toList [] (before ++ line :: after) (before ++ (line :: value ++
        after.dropWhile (BlockStyle.sequence.continues line.column))) ∧
      ValuesSettled (before ++ (line :: value ++
        after.dropWhile (BlockStyle.sequence.continues line.column))) ∧
      KeySettled "args".toList argsSettled (before ++ (line :: value ++
        after.dropWhile (BlockStyle.sequence.continues line.column))) := by
  have hkey := hfirst.hasKey
  have hbody : ∀ l ∈ after.takeWhile (BlockStyle.sequence.continues line.column),
      BlockStyle.sequence.continues line.column l = true := fun l hl => List.mem_takeWhile_imp hl
  have hstops := stops_dropWhile_continues .sequence line.column after
  have hafter : after.takeWhile (BlockStyle.sequence.continues line.column) ++
      after.dropWhile (BlockStyle.sequence.continues line.column) = after :=
    List.takeWhile_append_dropWhile
  generalize after.takeWhile (BlockStyle.sequence.continues line.column) = body at hbody hafter
  generalize after.dropWhile (BlockStyle.sequence.continues line.column) = rest at hstops hafter ⊢
  subst hafter
  have hnamed := hready.shaped.named
  have hreplace : IsReplacement "args".toList line body line value rest :=
    isReplacement_args hkey (hready.shaped.indented line (by simp)) hbody hvalue hstops
  have hmove := hreplace.isMove (by decide) before
  have hplace : ∀ column front, InManager column front before (line :: body) rest →
      column = line.column := fun column front => hfirst.column_eq hnamed
  have hquiet : ∀ key ∈ managedKeys, key ≠ "args".toList →
      Quiet key before (line :: body) (line :: value) rest := by
    intro key hmanaged hne
    refine hreplace.quiet hne (fun column front h => (hplace column front h).le) ?_
    intro column hle l hl
    rcases List.mem_append.1 hl with hl | hl
    · exact not_isDirect_of_continues (hbody l hl) hle hmanaged
    · exact not_isDirect_of_continues (hvalue l hl).continues hle hmanaged
  have hother : line.hasKey podSecurityContext.key = false :=
    Line.not_hasKey_of_hasKey hkey (by decide)
  have hpod := Line.not_isPod_of_not_hasKey hother
  have hsplit : before ++ line :: (body ++ rest) = before ++ (line :: body ++ rest) := rfl
  rw [hsplit] at hready hvalues ⊢
  have hspares : Spares "args".toList before (line :: body) (line :: value) rest := by
    obtain ⟨column, front, hin, -, hline⟩ := hfirst
    rw [Line.isDirect_iff] at hline
    have hin := hin.value fun l hl =>
      ⟨(hreplace.old_deep l hl).1, hline.1 ▸ (hreplace.old_deep l hl).2⟩
    exact ⟨hmove, hquiet, ⟨hpod _, hready.pods.noPod hin hline.1.ge hbody⟩,
      ⟨hpod _, noPod_of_forall (fun l hl => (hvalue l hl).no_context) rest⟩⟩
  refine ⟨.of_move hready hmove hquiet ?_ ?_, hvalues.move hspares, ?_⟩
  · exact List.forall_mem_cons.2 ⟨(hready.tidy line (by simp)).mono (by simp), htidy⟩
  · intro column front _ l hl hitem hcontext
    rcases List.mem_cons.1 hl with rfl | hl
    · rw [hother] at hcontext
      cases hcontext
    · rw [(hvalue l hl).no_context hitem] at hcontext
      cases hcontext
  · refine KeySettled.of_head hmove hnamed hfirst hreplace.isDirect ?_
    obtain ⟨l, hl, hocc⟩ := hloop
    refine .inr ⟨l, ?_, hocc⟩
    rw [List.takeWhile_append_of_pos fun l hl => (hvalue l hl).continues]
    exact List.mem_append_left _ hl

/-- The pass over the manager's arguments. -/
theorem edits_fillArgs (hready : IsReady [argsPath] ls) (hvalues : ValuesSettled ls) :
    Edits "args".toList [] ls (fillArgs ls) ∧ ValuesSettled (fillArgs ls) ∧
      KeySettled "args".toList argsSettled (fillArgs ls) := by
  have hnamed := hready.shaped.named
  rcases exists_isFirstKey hnamed "args".toList with hnone | ⟨before, line, after, rfl, hfirst⟩
  · have hsame : fillArgs ls = ls := by rw [fillArgs, hnone]
    rw [hsame]
    exact ⟨.same hready, hvalues, .of_none hnamed hnone⟩
  by_cases hbody : after.takeWhile (BlockStyle.sequence.continues line.column) = []
  · have hsettled : KeySettled "args".toList argsSettled (before ++ line :: after) := by
      intro before' line' after' heq hfirst'
      obtain ⟨-, rfl, rfl⟩ := hfirst.unique hnamed heq hfirst'
      exact .inl hbody
    rw [fillArgs_of_settled hnamed hsettled]
    exact ⟨.same hready, hvalues, hsettled⟩
  · have hfresh : ∀ l ∈ before ++ line :: after, ¬ argsPath <:+: l := fun l hl =>
      (hready.tidy l hl).avoids _ List.mem_cons_self
    have hkept : ∀ item ∈ argItems line after, IsKept line.column item := by
      intro item hitem
      obtain ⟨hmem, hdash⟩ := mem_of_mem_argItems hitem
      have hin : item ∈ before ++ line :: after := by simp [hmem]
      exact ⟨hdash, List.mem_takeWhile_imp (List.mem_filter.1 hitem).1,
        hready.shaped.indented item hin⟩
    have htidy : ∀ item ∈ argItems line after, item.IsTidy [] := fun item hitem =>
      (hready.tidy item (by simp [(mem_of_mem_argItems hitem).1])).mono (by simp)
    have hargument := isArgument_argLines (isIndentation_padding (line.column + 2))
      (by rw [length_padding]; omega) hkept
    have hloop := exists_loop (padding (line.column + 2)) (argItems line after)
    rw [fillArgs_around hnamed hfirst hfresh hbody]
    exact edits_args hready hvalues hfirst hargument
      (isTidy_argLines (isIndentation_padding (line.column + 2)) htidy) hloop

end Pass

end Values

end OperatorChart
