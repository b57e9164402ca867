import OperatorChart.Proofs.ManagerEdits
/-!
# The rebuilt list of arguments

What the rebuilt list holds is said here without the pass: the last item of one kind in a guard,
the last of another, the loop over the chart's values, and all items of a third kind. Main
statement: when the pass changes a text, whatever its white space, it replaces the block of the
manager's arguments by such a list, and finds its own output where it found the old list.
-/

namespace OperatorChart

open Text

/-- A flag in a line stands in its content, behind the marker of an item. -/
theorem Line.infix_content_iff {flag : Text} (hflag : IsWord flag) (hdashes : "--".toList <+: flag)
    (line : Line) : flag <:+: line.content ↔ flag <:+: line := by
  constructor
  · intro hocc
    have hcontent : line.content <:+: line.trimmed :=
      ⟨line.marker, [], by rw [line.marker_append_content, List.append_nil]⟩
    exact hocc.trans (hcontent.trans line.trimmed_infix)
  · intro hocc
    have hocc : flag <:+: line.trimmed := hflag.infix_trim hocc
    obtain ⟨rest, rfl⟩ : ∃ rest, '-' :: '-' :: rest = flag := hdashes
    unfold content
    split
    · rename_i hitem
      simp only [isItem, Bool.or_eq_true, beq_iff_eq, List.isPrefixOf_iff_prefix] at hitem
      rcases hitem with hdash | ⟨behind, hdash⟩
      · rw [hdash] at hocc
        have hle := hocc.length_le
        simp at hle
      · have hdash : '-' :: ' ' :: behind = line.trimmed := hdash
        rw [← hdash] at hocc ⊢
        rcases List.infix_cons_iff.1 hocc with hstart | hocc
        · -- behind the dash of an item stands a space, and behind that of a flag another dash
          exact absurd (List.cons_prefix_cons.1 (List.cons_prefix_cons.1 hstart).2).1 (by decide)
        · have hsplit : (' ' :: behind).takeWhile Unicode.isWhiteSpace ++
              (' ' :: behind).dropWhile Unicode.isWhiteSpace = ' ' :: behind :=
            List.takeWhile_append_dropWhile
          rw [← hsplit] at hocc
          exact hflag.infix_of_isWhite_append (fun c hc => List.mem_takeWhile_imp hc) hocc
    · exact hocc

namespace Values

/-- The items of a kind, by the first of the owned flags that they mention. -/
def ArgKind.Takes (item : Line) : ArgKind → Prop
  | metricsBind => "--metrics-bind-address".toList <:+: item
  | healthProbe => ¬ "--metrics-bind-address".toList <:+: item ∧
      "--health-probe-bind-address".toList <:+: item
  | certPath => ¬ "--metrics-bind-address".toList <:+: item ∧
      ¬ "--health-probe-bind-address".toList <:+: item ∧
      ("--webhook-cert-path".toList <:+: item ∨ "--metrics-cert-path".toList <:+: item)
  | user => ¬ "--metrics-bind-address".toList <:+: item ∧
      ¬ "--health-probe-bind-address".toList <:+: item ∧
      ¬ "--webhook-cert-path".toList <:+: item ∧ ¬ "--metrics-cert-path".toList <:+: item

/-- The pass tells the kinds of items apart by their flags. -/
theorem ArgKind.of_content_eq_iff {item : Line} {kind : ArgKind} :
    ArgKind.of item.content = kind ↔ kind.Takes item := by
  have hmetrics : hasInfix metricsBindFlag item.content = true ↔
      "--metrics-bind-address".toList <:+: item :=
    hasInfix_iff.trans (Line.infix_content_iff ⟨by decide, by decide⟩ (by decide) item)
  have hhealth : hasInfix healthProbeFlag item.content = true ↔
      "--health-probe-bind-address".toList <:+: item :=
    hasInfix_iff.trans (Line.infix_content_iff ⟨by decide, by decide⟩ (by decide) item)
  have hwebhook : hasInfix webhookCertFlag item.content = true ↔
      "--webhook-cert-path".toList <:+: item :=
    hasInfix_iff.trans (Line.infix_content_iff ⟨by decide, by decide⟩ (by decide) item)
  have hcert : hasInfix metricsCertFlag item.content = true ↔
      "--metrics-cert-path".toList <:+: item :=
    hasInfix_iff.trans (Line.infix_content_iff ⟨by decide, by decide⟩ (by decide) item)
  simp only [ArgKind.of, Bool.or_eq_true, hmetrics, hhealth, hwebhook, hcert]
  split
  · cases kind <;> simp_all [Takes]
  split
  · cases kind <;> simp_all [Takes]
  split
  · rename_i hpath
    cases kind <;> simp_all [Takes]
    exact hpath.resolve_left
  · cases kind <;> simp_all [Takes]

instance (kind : ArgKind) (item : Line) : Decidable (kind.Takes item) :=
  decidable_of_iff _ ArgKind.of_content_eq_iff

/-- Whether lines are what is written for the last item of a kind, and none without one. -/
inductive OfLast (kind : ArgKind) (write : Line → List Line) (items : List Line) :
    List Line → Prop
  | none (h : ∀ item ∈ items, ¬ kind.Takes item) : OfLast kind write items []
  | some {front back : List Line} {item : Line} (hitems : items = front ++ item :: back)
      (hitem : kind.Takes item) (hlast : ∀ l ∈ back, ¬ kind.Takes l) :
      OfLast kind write items (write item)

/-- Whether lines are all items of a kind, in their order and each as often. -/
structure AllOf (kind : ArgKind) (items part : List Line) : Prop where
  order : part.Sublist items
  count : ∀ l, part.count l = if kind.Takes l then items.count l else 0

/-- The address of the metrics endpoint in the guard of the metrics, with an endpoint that is off
as the alternative. -/
def guardedAddress (item : Line) : List Line :=
  [item.leading ++ "\x7b\x7b- if .Values.metrics.enable \x7d\x7d".toList,
    item,
    item.leading ++ "\x7b\x7b- else \x7d\x7d".toList,
    item.leading ++
      "# Bind to :0 to disable the controller-runtime managed metrics server".toList,
    item.leading ++ "- --metrics-bind-address=0".toList,
    item.leading ++ "\x7b\x7b- end \x7d\x7d".toList]

def valuesLoop (indentation : Text) : List Line :=
  [indentation ++ "\x7b\x7b- range .Values.controllerManager.args \x7d\x7d".toList,
    indentation ++ "- \x7b\x7b . \x7d\x7d".toList,
    indentation ++ "\x7b\x7b- end \x7d\x7d".toList]

/-- Whether a list of arguments is rebuilt from the items of an old one, under a key at a
column. -/
structure IsRebuilt (column : Nat) (items list : List Line) : Prop where
  parts : ∃ address health paths indentation,
    list = address ++ health ++ valuesLoop indentation ++ paths ∧
      OfLast .metricsBind guardedAddress items address ∧
      OfLast .healthProbe (fun item => [item]) items health ∧
      AllOf .certPath items paths ∧
      (∀ first rest, items = first :: rest → indentation = first.leading) ∧
      (items = [] → indentation = List.replicate (column + 2) ' ')
  loop : list.countP (hasInfix ".Values.controllerManager.args".toList) = 1

section Rebuilt

variable {items list : List Line} {fallback s t : Text} {kind : ArgKind} {column : Nat}

theorem ofLast_getLast? (kind : ArgKind) (write : Line → List Line) (items : List Line) :
    OfLast kind write items
      (((items.filter (ArgKind.of ·.content = kind)).getLast?.map write).getD []) := by
  rcases Container.exists_last (fun l => decide (ArgKind.of l.content = kind)) items with
    hnone | ⟨front, item, back, rfl, hitem, hback⟩
  · simp only [decide_eq_false_iff_not] at hnone
    have hfilter : items.filter (ArgKind.of ·.content = kind) = [] := by simpa using hnone
    rw [hfilter]
    exact .none fun item hitem => mt ArgKind.of_content_eq_iff.2 (hnone item hitem)
  · simp only [decide_eq_true_eq] at hitem
    simp only [decide_eq_false_iff_not] at hback
    have hfilter : back.filter (ArgKind.of ·.content = kind) = [] := by simpa using hback
    have hlast : ((front ++ item :: back).filter (ArgKind.of ·.content = kind)).getLast? =
        some item := by
      rw [List.filter_append, List.filter_cons_of_pos (by simpa using hitem), hfilter,
        List.getLast?_append_of_ne_nil _ (List.cons_ne_nil _ _)]
      rfl
    rw [hlast]
    exact .some rfl (ArgKind.of_content_eq_iff.1 hitem) fun l hl =>
      mt ArgKind.of_content_eq_iff.2 (hback l hl)

theorem allOf_filter (kind : ArgKind) (items : List Line) :
    AllOf kind items (items.filter (ArgKind.of ·.content = kind)) := by
  refine ⟨List.filter_sublist, fun l => ?_⟩
  split
  · rename_i hl
    exact List.count_filter (decide_eq_true (ArgKind.of_content_eq_iff.2 hl))
  · rename_i hl
    refine List.count_eq_zero.2 fun hmem => hl ?_
    exact ArgKind.of_content_eq_iff.1 (of_decide_eq_true (List.mem_filter.1 hmem).2)

theorem guardedAddress_eq (item : Line) : metricsBindLines item = guardedAddress item := by
  have hopening : Condition.metrics.opening =
      "\x7b\x7b- if .Values.metrics.enable \x7d\x7d".toList := by decide
  have hoff : "- ".toList ++ metricsBindFlag ++ "=0".toList =
      "- --metrics-bind-address=0".toList := by decide
  simp only [metricsBindLines, hopening, guardedAddress, ← hoff, List.append_assoc]
  rfl

theorem valuesLoop_eq (indentation : Text) : rangeLines indentation = valuesLoop indentation := by
  have hloop : "- ".toList ++ (Directive.value ['.']).render =
      "- \x7b\x7b . \x7d\x7d".toList := by decide
  have hrange : (Directive.range argsPath).render =
      "\x7b\x7b- range .Values.controllerManager.args \x7d\x7d".toList := by decide
  simp only [rangeLines, List.append_assoc, hloop, hrange, valuesLoop]
  rfl

theorem isWord_argsPath : IsWord argsPath :=
  ⟨by decide, by decide⟩

theorem not_infix_argsPath (hs : IsWhite s) (ht : hasInfix argsPath t = false) :
    ¬ argsPath <:+: s ++ t := fun hocc =>
  hasInfix_eq_false_iff.1 ht (isWord_argsPath.infix_of_isWhite_append hs hocc)

theorem not_infix_of_mem_guardedAddress {item l : Line} (hitem : ¬ argsPath <:+: item)
    (h : l ∈ guardedAddress item) : ¬ argsPath <:+: l := by
  have hwhite := Line.isWhite_leading item
  simp only [guardedAddress, List.mem_cons, List.not_mem_nil, or_false] at h
  rcases h with rfl | rfl | rfl | rfl | rfl | rfl
  · exact not_infix_argsPath hwhite (by decide)
  · exact hitem
  all_goals exact not_infix_argsPath hwhite (by decide)

theorem countP_valuesLoop (hs : IsWhite s) :
    (valuesLoop s).countP (hasInfix argsPath) = 1 := by
  have hrange : hasInfix argsPath
      (s ++ "\x7b\x7b- range .Values.controllerManager.args \x7d\x7d".toList) = true :=
    hasInfix_iff.2 ⟨s ++ "\x7b\x7b- range ".toList, " \x7d\x7d".toList, by
      simp only [List.append_assoc]
      rfl⟩
  have hvalue := hasInfix_eq_false_iff.2
    (not_infix_argsPath hs (t := "- \x7b\x7b . \x7d\x7d".toList) (by decide))
  have hclose := hasInfix_eq_false_iff.2
    (not_infix_argsPath hs (t := "\x7b\x7b- end \x7d\x7d".toList) (by decide))
  simp only [valuesLoop, List.countP_cons, hrange, hvalue, hclose, List.countP_nil]
  rfl

theorem OfLast.countP_eq_zero {write : Line → List Line} (h : OfLast kind write items list)
    {p : Line → Bool} (hwrite : ∀ item ∈ items, ∀ l ∈ write item, p l = false) :
    list.countP p = 0 := by
  cases h with
  | none => rfl
  | @some _ _ item hitems _ _ =>
      refine List.countP_eq_zero.2 fun l hl => ?_
      rw [hwrite item (by rw [hitems]; simp) l hl]
      decide

theorem isRebuilt_argLines (column : Nat) (hitems : ∀ item ∈ items, ¬ argsPath <:+: item) :
    IsRebuilt column items (argLines (padding (column + 2)) items) := by
  have hwrite : metricsBindLines = guardedAddress := funext guardedAddress_eq
  have haddress := ofLast_getLast? .metricsBind guardedAddress items
  have hhealth := ofLast_getLast? .healthProbe (fun item => [item]) items
  have hpaths := allOf_filter .certPath items
  have hlist : argLines (padding (column + 2)) items =
      ((items.filter (ArgKind.of ·.content = .metricsBind)).getLast?.map guardedAddress).getD [] ++
        ((items.filter (ArgKind.of ·.content = .healthProbe)).getLast?.map
          fun item => [item]).getD [] ++
        valuesLoop ((items.head?.map Line.leading).getD (padding (column + 2))) ++
        items.filter (ArgKind.of ·.content = .certPath) := by
    rw [argLines, ← hwrite, valuesLoop_eq]
    cases (items.filter (ArgKind.of ·.content = .healthProbe)).getLast? <;> rfl
  have hindentation : IsWhite ((items.head?.map Line.leading).getD (padding (column + 2))) :=
    fun c hc => isWhiteSpace_of_isIndentation
      (isIndentation_getD (isIndentation_padding (column + 2)) items c hc)
  rw [hlist]
  generalize ((items.filter (ArgKind.of ·.content = .metricsBind)).getLast?.map
    guardedAddress).getD [] = address at haddress
  generalize ((items.filter (ArgKind.of ·.content = .healthProbe)).getLast?.map
    fun item => [item]).getD [] = health at hhealth
  refine ⟨⟨address, health, _, _, rfl, haddress, hhealth, hpaths, ?_, ?_⟩, ?_⟩
  · rintro first rest rfl
    rfl
  · rintro rfl
    rfl
  · have hnone : ∀ item ∈ items, hasInfix argsPath item = false := fun item hitem =>
      hasInfix_eq_false_iff.2 (hitems item hitem)
    have haddress' := haddress.countP_eq_zero (p := hasInfix argsPath) fun item hitem l hl =>
      hasInfix_eq_false_iff.2 (not_infix_of_mem_guardedAddress (hitems item hitem) hl)
    have hhealth' := hhealth.countP_eq_zero (p := hasInfix argsPath) fun item hitem l hl => by
      rw [List.mem_singleton.1 hl]
      exact hnone item hitem
    have hpaths' : (items.filter (ArgKind.of ·.content = .certPath)).countP (hasInfix argsPath) =
        0 := by
      refine List.countP_eq_zero.2 fun l hl => ?_
      rw [hnone l (List.mem_filter.1 hl).1]
      decide
    have hloop := countP_valuesLoop hindentation
    change List.countP (hasInfix argsPath) _ = 1
    rw [List.countP_append, List.countP_append, List.countP_append, haddress', hhealth', hpaths',
      hloop]

/-- The lines of a rebuilt list belong to the block that the items belonged to, and none is an
entry that a search looks for. -/
theorem belongs_argLines (hitems : ∀ item ∈ items, item.isItem = true ∧
      BlockStyle.sequence.continues column item = true) :
    ∀ l ∈ argLines (padding (column + 2)) items,
      BlockStyle.sequence.continues column l = true ∧ l.IsInert := by
  intro l hl
  rcases mem_argLines hl with ⟨hitem, hkind⟩ | ⟨s, hs, t, ht, rfl⟩
  · obtain ⟨flag, hflag, hocc⟩ := Line.exists_flag_of_kind hkind
    exact ⟨(hitems l hitem).2, Line.isInert_of_flag hflag hocc⟩
  · have hindentation := isIndentation_of_mem_leadings (isIndentation_padding (column + 2)) hs
    have hle : column ≤ s.length := by
      rcases List.mem_cons.1 hs with rfl | hs
      · rw [length_padding]
        omega
      · obtain ⟨item, hitem, rfl⟩ := List.mem_map.1 hs
        exact Grouped.le_indent_of_continues (hitems item hitem).2
    have hwritten := isArgument_argText hindentation hle ht
    exact ⟨hwritten.continues, hwritten.inert⟩

end Rebuilt

/-! ## The pass -/

/-- Where the manager's arguments stand in a document: the lines before the key, the line of the
key, the list under it, and the lines behind. -/
structure ArgumentsAt (ls before : List Line) (line : Line) (list after : List Line) : Prop where
  split : ls = before ++ line :: (list ++ after)
  found : (Container.manager? ls).bind (·.key? ls "args".toList) = some before.length
  located : (Block.locate .sequence ls before.length).bodyOf ls = list

section Pass

variable {ls before list after : List Line} {line : Line}

theorem exists_argumentsAt
    (h : ((Container.manager? ls).bind (·.key? ls "args".toList)).isSome = true) :
    ∃ before line list after, ArgumentsAt ls before line list after := by
  obtain ⟨key, hkey⟩ := Option.isSome_iff_exists.1 h
  obtain ⟨before, after, hls, rfl⟩ := exists_around (lt_of_hasKey (hasKey_of_bind hkey))
  generalize lineAt ls before.length = line at hls
  refine ⟨before, line, BlockStyle.sequence.body line.column after,
    after.dropWhile (BlockStyle.sequence.continues line.column), ?_, hkey, ?_⟩
  · rw [BlockStyle.body, List.takeWhile_append_dropWhile, hls]
  · rw [hls, bodyOf_locate]
    rfl

theorem ArgumentsAt.of_findsItem {start inner behind front back : List Line} {dash : Line}
    (hfinds : FindsItem Container.managerName ls start dash inner behind)
    (hitem : dash :: inner = front ++ (line :: list ++ back))
    (hfront : ∀ l ∈ front, l.isDirect dash.column "args".toList = false)
    (hline : line.isDirect dash.column "args".toList = true)
    (hlist : ∀ l ∈ list, BlockStyle.sequence.continues dash.column l = true)
    (hback : BlockStyle.sequence.Ends dash.column back) :
    ArgumentsAt ls (start ++ front) line list (back ++ behind) := by
  have hsplit : ls = (start ++ front) ++ line :: (list ++ (back ++ behind)) := by
    rw [hfinds.eq_append, hitem]
    simp
  have hcolumn : BlockStyle.sequence.column line = dash.column := (Line.isDirect_iff.1 hline).1
  have hends := hback.append
    (hfinds.stops.ends (Line.indent_lt_column hfinds.item.item) .sequence)
  refine ⟨hsplit, ?_, ?_⟩
  · rw [hfinds.manager?_eq, Option.bind_some]
    exact hfinds.key?_eq hitem hfront hline
  · rw [hsplit, bodyOf_locate, hcolumn, BlockStyle.body, hends.takeWhile hlist]

/-- What the pass over the arguments changes: the list of the manager's first key of this name. -/
theorem exists_of_fillArgs_ne (h : fillArgs ls ≠ ls) :
    ∃ start dash inner behind front line body back,
      FindsItem Container.managerName ls start dash inner behind ∧
      dash :: inner = front ++ (line :: body ++ back) ∧
      (∀ l ∈ front, l.isDirect dash.column "args".toList = false) ∧
      line.isDirect dash.column "args".toList = true ∧
      (∀ l ∈ body, BlockStyle.sequence.continues dash.column l = true) ∧
      BlockStyle.sequence.Ends dash.column back ∧
      (∀ l ∈ body, ¬ argsPath <:+: l) ∧
      fillArgs ls = start ++ (front ++ (line ::
        argLines (padding (line.column + 2)) (body.filter Line.isItem) ++ back) ++ behind) := by
  cases hmanager : Container.manager? ls with
  | none => exact absurd (by rw [fillArgs, hmanager, Option.bind_none]) h
  | some container =>
      obtain ⟨start, dash, inner, behind, hfinds, -⟩ := Container.exists_findsItem hmanager
      rcases KeyEdit.args.exists_block dash.column (dash :: inner) with
        hnone | ⟨front, line, body, back, hitem, hfront, hline, hbody, hback⟩
      · have hfound : (Container.manager? ls).bind (·.key? ls "args".toList) = none := by
          rw [hfinds.manager?_eq, Option.bind_some]
          exact hfinds.key?_eq_none hnone
        exact absurd (by rw [fillArgs, hfound]) h
      · obtain ⟨hsplit, hfound, -⟩ :=
          ArgumentsAt.of_findsItem hfinds hitem hfront hline hbody hback
        have hcolumn := (Line.isDirect_iff.1 hline).1
        have hends := hback.append
          (hfinds.stops.ends (Line.indent_lt_column hfinds.item.item) .sequence)
        have hfill : fillArgs ls = (start ++ front) ++
            (KeyEdit.args.write line body (back ++ behind) ++ (back ++ behind)) := by
          rw [hsplit] at hfound ⊢
          exact fillArgs_eq hfound (by rwa [hcolumn]) (by rwa [hcolumn])
        simp only [KeyEdit.args] at hfill
        split at hfill
        · rw [List.cons_append, ← hsplit] at hfill
          exact absurd hfill h
        · rename_i hfresh
          simp only [Bool.or_eq_true, List.any_eq_true, hasInfix_iff, not_or, not_exists,
            not_and] at hfresh
          refine ⟨start, dash, inner, behind, front, line, body, back, hfinds, hitem, hfront,
            hline, hbody, hback, fun l hl => hfresh.2 l (List.mem_cons_of_mem line hl), ?_⟩
          rw [hfill]
          simp

/-- The rebuilt list stands where the old one stood, and is found there again. -/
theorem argumentsAt_of_fillArgs_ne (h : fillArgs ls ≠ ls) :
    ∃ before line body after, ArgumentsAt ls before line body after ∧
      (∀ l ∈ body, ¬ argsPath <:+: l) ∧
      ArgumentsAt (fillArgs ls) before line
        (argLines (padding (line.column + 2)) (body.filter Line.isItem)) after := by
  obtain ⟨start, dash, inner, behind, front, line, body, back, hfinds, hitem, hfront, hline,
    hbody, hback, hfresh, hfill⟩ := exists_of_fillArgs_ne h
  obtain ⟨hcolumn, hkey⟩ := Line.isDirect_iff.1 hline
  have hitems : ∀ item ∈ body.filter Line.isItem, item.isItem = true ∧
      BlockStyle.sequence.continues line.column item = true := by
    intro item hmem
    obtain ⟨hmem, hdash⟩ := List.mem_filter.1 hmem
    exact ⟨hdash, hcolumn ▸ hbody item hmem⟩
  have hbelongs := belongs_argLines hitems
  generalize hargs : argLines (padding (line.column + 2)) (body.filter Line.isItem) = list
    at hfill hbelongs
  have hlist : ∀ l ∈ list, BlockStyle.sequence.continues dash.column l = true := fun l hl =>
    hcolumn ▸ (hbelongs l hl).1
  -- the manager is found again, and its arguments are
  have hreplace : KeepsPlace line body line list :=
    have hblank := Line.not_isBlank_of_hasKey hkey
    ⟨hblank, hblank, rfl, rfl, rfl,
      fun l hl => BlockStyle.deep_of_continues (hcolumn ▸ hbody l hl),
      fun l hl => BlockStyle.deep_of_continues (hbelongs l hl).1⟩
  have hname : ∀ l ∈ line :: list, l.isNamed Container.managerName = false :=
    List.forall_mem_cons.2 ⟨KeyEdit.not_isNamed_of_hasKey (by decide) hkey,
      fun l hl => (hbelongs l hl).2.not_isManagerName⟩
  obtain ⟨dash', inner', hitem', -, hdash', hfinds'⟩ :=
    KeyEdit.findsItem_replace hreplace hfinds hitem (by decide) hline hbody hback hname
  rw [← hfill] at hfinds'
  refine ⟨start ++ front, line, body, back ++ behind,
    .of_findsItem hfinds hitem hfront hline hbody hback, hfresh, ?_⟩
  rw [hargs]
  rw [← hdash'] at hfront hline hlist hback
  exact .of_findsItem hfinds' hitem' hfront hline hlist hback

theorem ArgumentsAt.hasKey (h : ArgumentsAt ls before line list after) :
    line.hasKey "args".toList = true := by
  have hkey := hasKey_of_bind h.found
  rwa [h.split, lineAt_length] at hkey

theorem ArgumentsAt.found_of_mem (h : ArgumentsAt ls before line list after) {l : Line}
    (hl : l ∈ list) {probe : Probe}
    (hmarker : hasInfix probe.marker l = true) :
    probe.found ls (Block.locate .sequence ls before.length) = true := by
  have hmem : l ∈ (Block.locate .sequence ls before.length).bodyOf ls := by rwa [h.located]
  rw [Probe.found, List.any_eq_true]
  refine ⟨l, ?_, hmarker⟩
  rw [h.split, locate_around] at hmem ⊢
  rw [Block.bodyOf, take_around, drop_around] at hmem
  dsimp only
  rw [Nat.add_assoc, take_around, List.drop_left]
  have hle := List.take_prefix_take_left (l := list ++ after) (Nat.le_add_right
    (BlockStyle.sequence.body (BlockStyle.sequence.column line) (list ++ after)).length
    probe.lookahead)
  exact List.mem_cons_of_mem line (hle.mem hmem)

end Pass

end Values

namespace Pass

/-- When the pass over the arguments changes a text, it puts a rebuilt list in the place of the
manager's arguments, and in its own output it finds this list, with its marker in it. -/
theorem args_rebuilt (context : PassContext) {t : Text}
    (hchanged : ManagerField.args.pass.run context t ≠ .ok t) :
    ∃ out before line body after list,
      ManagerField.args.pass.run context t = .ok out ∧
      Values.ArgumentsAt t.lines before line body after ∧
      Values.ArgumentsAt out.lines before line list after ∧
      Values.IsRebuilt line.column (body.filter Line.isItem) list ∧
      Values.argsProbe.found out.lines (Block.locate .sequence out.lines before.length) =
        true := by
  have hrun : ManagerField.args.pass.run context t =
      .ok (Text.ofLines (Values.fillArgs t.lines)) := rfl
  have hne : Values.fillArgs t.lines ≠ t.lines := fun hsame =>
    hchanged (by rw [hrun, hsame, ofLines_lines])
  have hout : (Text.ofLines (Values.fillArgs t.lines)).lines = Values.fillArgs t.lines :=
    lines_ofLines (Values.areLines_fillArgs (areLines_lines t))
  obtain ⟨before, line, body, after, hold, hfresh, hnew⟩ := Values.argumentsAt_of_fillArgs_ne hne
  obtain ⟨l, hl, hmarker⟩ := Values.exists_loop (padding (line.column + 2))
    (body.filter Line.isItem)
  refine ⟨_, before, line, body, after, _, hrun, hold, hout ▸ hnew, ?_, ?_⟩
  · exact Values.isRebuilt_argLines line.column fun item hmem =>
      hfresh item (List.mem_filter.1 hmem).1
  · rw [hout]
    exact hnew.found_of_mem hl (hasInfix_iff.2 hmarker)

/-- A list with a comment and a nested line, an address that is given twice, a quoted path and a
flag of the user. -/
theorem args_rebuilt_mixed :
    let context : PassContext := ⟨⟨"Deployment".toList, [], [], []⟩, "demo".toList⟩
    let t := Text.ofLines (["- args:", "  \t- --metrics-bind-address=:8443", "  # paths",
      "  - '--webhook-cert-path=/tmp/x'", "  - --leader-elect", "      nested",
      "  - --metrics-bind-address=:8080", "  - --health-probe-bind-address=:8081",
      "  name: manager"].map String.toList)
    ManagerField.args.pass.run context t ≠ .ok t ∧
      (∃ out before line body after list,
        ManagerField.args.pass.run context t = .ok out ∧
        Values.ArgumentsAt t.lines before line body after ∧
        Values.ArgumentsAt out.lines before line list after ∧
        Values.IsRebuilt line.column (body.filter Line.isItem) list ∧
        Values.argsProbe.found out.lines (Block.locate .sequence out.lines before.length) =
          true) ∧
      ManagerField.args.pass.run context t = .ok (Text.ofLines (["- args:",
        "  \x7b\x7b- if .Values.metrics.enable \x7d\x7d", "  - --metrics-bind-address=:8080",
        "  \x7b\x7b- else \x7d\x7d",
        "  # Bind to :0 to disable the controller-runtime managed metrics server",
        "  - --metrics-bind-address=0", "  \x7b\x7b- end \x7d\x7d",
        "  - --health-probe-bind-address=:8081",
        "  \t\x7b\x7b- range .Values.controllerManager.args \x7d\x7d",
        "  \t- \x7b\x7b . \x7d\x7d", "  \t\x7b\x7b- end \x7d\x7d",
        "  - '--webhook-cert-path=/tmp/x'", "  name: manager"].map String.toList)) := by
  intro context t
  have hout : ManagerField.args.pass.run context t = .ok (Text.ofLines (["- args:",
      "  \x7b\x7b- if .Values.metrics.enable \x7d\x7d", "  - --metrics-bind-address=:8080",
      "  \x7b\x7b- else \x7d\x7d",
      "  # Bind to :0 to disable the controller-runtime managed metrics server",
      "  - --metrics-bind-address=0", "  \x7b\x7b- end \x7d\x7d",
      "  - --health-probe-bind-address=:8081",
      "  \t\x7b\x7b- range .Values.controllerManager.args \x7d\x7d",
      "  \t- \x7b\x7b . \x7d\x7d", "  \t\x7b\x7b- end \x7d\x7d",
      "  - '--webhook-cert-path=/tmp/x'", "  name: manager"].map String.toList)) := by
    decide +kernel
  have hchanged : ManagerField.args.pass.run context t ≠ .ok t := by
    rw [hout]
    decide +kernel
  exact ⟨hchanged, args_rebuilt context hchanged, hout⟩

end Pass

end OperatorChart
