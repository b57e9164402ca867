import OperatorChart.Proofs.LineEnds
/-!
# Edits do not see the ends of lines

An edit of a deployment finds the same places in lines that it does not tell apart, keeps the same
lines and writes the same ones. So a function on lines that edits do not see can be made before an
edit or behind it.
-/

namespace OperatorChart

open Text

variable {g : Line → Line} (hg : Line.IsUnseen g)

include hg

/-! ## Blocks and items -/

theorem lineAt_map (ls : List Line) (i : Nat) : lineAt (ls.map g) i = g (lineAt ls i) := by
  rw [lineAt, lineAt, List.getD, List.getD, List.getElem?_map]
  cases ls[i]? with
  | none => exact hg.nil.symm
  | some line => rfl

namespace BlockStyle

theorem column_unseen (style : BlockStyle) (line : Line) :
    style.column (g line) = style.column line := by
  cases style with
  | item => exact (hg.resembles line).indent
  | mapping => exact (hg.resembles line).column
  | sequence => exact (hg.resembles line).column

theorem continues_unseen (style : BlockStyle) (column : Nat) (line : Line) :
    style.continues column (g line) = style.continues column line := by
  have hkeeps : style.keepsAtColumn (g line) = style.keepsAtColumn line := by
    cases style with
    | item => rfl
    | mapping => rfl
    | sequence =>
        rw [keepsAtColumn, keepsAtColumn, (hg.resembles line).isItem,
          (hg.resembles line).isDirective, (hg.resembles line).isComment]
  rw [continues, continues, hkeeps, (hg.resembles line).isBlank, (hg.resembles line).indent]

theorem body_map (style : BlockStyle) (column : Nat) (ls : List Line) :
    style.body column (ls.map g) = (style.body column ls).map g := by
  have hsame : style.continues column ∘ g = style.continues column :=
    funext (continues_unseen hg style column)
  rw [body, body, List.takeWhile_map, hsame]

end BlockStyle

theorem Block.locate_map (style : BlockStyle) (ls : List Line) (key : Nat) :
    Block.locate style (ls.map g) key = Block.locate style ls key := by
  simp only [Block.locate, lineAt_map hg, BlockStyle.column_unseen hg, ← List.map_drop,
    BlockStyle.body_map hg, List.length_map]

theorem Probe.found_map {probe : Probe} (hmarker : probe.marker ∈ Line.probedWords)
    (ls : List Line) (block : Block) :
    probe.found (ls.map g) block = probe.found ls block := by
  have hsame : (fun line => hasInfix probe.marker line) ∘ g =
      fun line => hasInfix probe.marker line :=
    funext fun line => (hg.resembles line).probed probe.marker hmarker
  rw [Probe.found, Probe.found, ← List.map_take, ← List.map_drop, List.any_map, hsame]

omit hg in
theorem Block.bodyOf_map (block : Block) (ls : List Line) :
    block.bodyOf (ls.map g) = (block.bodyOf ls).map g := by
  rw [Block.bodyOf, Block.bodyOf, List.map_drop, List.map_take]

omit hg in
theorem splice_map (ls replacement : List Line) (start stop : Nat) :
    splice (ls.map g) start stop (replacement.map g) =
      (splice ls start stop replacement).map g := by
  rw [splice, splice, List.map_append, List.map_append, List.map_take, List.map_drop]

namespace Container

theorem itemOf?_map (ls : List Line) (i : Nat) : itemOf? (ls.map g) i = itemOf? ls i := by
  have hblank : ∀ j, (lineAt (ls.map g) j).isBlank = (lineAt ls j).isBlank := fun j => by
    rw [lineAt_map hg, (hg.resembles _).isBlank]
  have hindent : ∀ j, (lineAt (ls.map g) j).indent = (lineAt ls j).indent := fun j => by
    rw [lineAt_map hg, (hg.resembles _).indent]
  have hitem : ∀ j, (lineAt (ls.map g) j).isItem = (lineAt ls j).isItem := fun j => by
    rw [lineAt_map hg, (hg.resembles _).isItem]
  have hcolumn : ∀ j, (lineAt (ls.map g) j).column = (lineAt ls j).column := fun j => by
    rw [lineAt_map hg, (hg.resembles _).column]
  simp only [itemOf?, owner?, hblank, hindent, hitem, hcolumn]

theorem find?_map (ls : List Line) (name : Text) : find? (ls.map g) name = find? ls name := by
  have hentry : ∀ i, (lineAt (ls.map g) i).isEntry "name".toList name =
      (lineAt ls i).isEntry "name".toList name := fun i => by
    rw [lineAt_map hg, (hg.resembles _).isEntry _ _ (by decide)]
  have hitem : ∀ start, ofItem (ls.map g) start = ofItem ls start := fun start => by
    rw [ofItem, ofItem, Block.locate_map hg, lineAt_map hg, (hg.resembles _).column]
  have hitems : ofItem (ls.map g) = ofItem ls := funext hitem
  simp only [find?, List.length_map, hentry, itemOf?_map hg, hitems]

theorem manager?_map (ls : List Line) : manager? (ls.map g) = manager? ls :=
  find?_map hg ls managerName

theorem key?_map (container : Container) (ls : List Line) (key : Text) :
    container.key? (ls.map g) key = container.key? ls key := by
  have hline : ∀ i, ((lineAt (ls.map g) i).column == container.column &&
      (lineAt (ls.map g) i).hasKey key) =
        ((lineAt ls i).column == container.column && (lineAt ls i).hasKey key) := fun i => by
    rw [lineAt_map hg, (hg.resembles _).column, (hg.resembles _).hasKey]
  simp only [key?, hline]

end Container

/-! ## Fields -/

omit hg in
/-- Whether an edit of lines under `g` gives what an edit of the lines gives, under `g`; both may
fail. -/
def Follows (g : Line → Line) (edit' edit : Except EditError (List Line)) : Prop :=
  edit'.toOption = edit.toOption.map (·.map g)

omit hg in
theorem Follows.ok (ls : List Line) : Follows g (.ok (ls.map g)) (.ok ls) := rfl

omit hg in
theorem Follows.bind {edit' edit : Except EditError (List Line)}
    {f : List Line → Except EditError (List Line)} (h : Follows g edit' edit)
    (hf : ∀ ls, Follows g (f (ls.map g)) (f ls)) : Follows g (edit' >>= f) (edit >>= f) := by
  cases edit with
  | error e =>
      cases edit' with
      | error e' => rfl
      | ok ls' => cases h
  | ok ls =>
      cases edit' with
      | error e' => cases h
      | ok ls' =>
          obtain rfl := Option.some.inj h
          exact hf ls

omit hg in
theorem Follows.eq_ok {edit' edit : Except EditError (List Line)} {ls : List Line}
    (h : Follows g edit' edit) (hedit : edit = .ok ls) : edit' = .ok (ls.map g) := by
  rw [hedit] at h
  cases edit' with
  | error e => cases h
  | ok ls' => exact congrArg Except.ok (Option.some.inj h)

omit hg in
theorem Follows.exists_ok_iff {edit' edit : Except EditError (List Line)}
    (h : Follows g edit' edit) : (∃ ls, edit' = .ok ls) ↔ ∃ ls, edit = .ok ls := by
  constructor
  · rintro ⟨ls', rfl⟩
    cases edit with
    | error e => cases h
    | ok ls => exact ⟨ls, rfl⟩
  · rintro ⟨ls, hedit⟩
    exact ⟨_, h.eq_ok hedit⟩

theorem follows_keyPrefix {written' written : Text → List Line} (line : Line)
    (h : ∀ start, written' start = (written start).map g) :
    Follows g (keyPrefix (g line) >>= fun start => pure (written' start))
      (keyPrefix line >>= fun start => pure (written start)) := by
  rw [keyPrefix, keyPrefix, (hg.resembles line).start]
  cases takeBytes? line.column line with
  | none => rfl
  | some start => exact congrArg some (h start)

namespace ValuesField

variable {field : ValuesField}

theorem render_unseen (hfield : field.IsSound) (start : Text) (column : Nat) :
    (field.render start column).map g = field.render start column := by
  have hclosed : ∀ s : Text, (s ++ " \x7d\x7d".toList).getLast? = some '}' := fun s => by
    rw [List.getLast?_append]
    rfl
  have hbrace : '}' ≠ '\r' := by decide
  have hfallback : ∃ c, field.fallback.getLast? = some c ∧ c ≠ '\r' := by
    rcases hfield.fallback with h | h
    · exact ⟨']', by rw [h]; rfl, by decide⟩
    · exact ⟨'}', by rw [h]; rfl, hbrace⟩
  obtain ⟨c, hlast, hc⟩ := hfallback
  have hkey : g (start ++ field.key ++ [':']) = start ++ field.key ++ [':'] :=
    hg.written _ rfl (by decide)
  rw [render, List.map_cons, hkey, List.map_map]
  congr 1
  apply List.map_congr_left
  intro t ht
  simp only [List.mem_cons, List.not_mem_nil, or_false] at ht
  rcases ht with rfl | rfl | rfl | rfl | rfl
  · exact hg.written _ (hclosed _) hbrace
  · exact hg.written _ (hclosed _) hbrace
  · exact hg.written _ rfl hbrace
  · exact hg.written _ hlast hc
  · exact hg.written _ rfl hbrace

theorem fill_map (hfield : field.IsSound) (hpath : field.path ∈ Line.probedWords) (ls : List Line)
    (key : Nat) : Follows g (field.fill (ls.map g) key) (field.fill ls key) := by
  have hfound : field.probe.found (ls.map g) = field.probe.found ls :=
    funext (Probe.found_map hg hpath ls)
  rw [fill, fill, Block.locate_map hg, hfound, lineAt_map hg, (hg.resembles _).column]
  split
  · exact Follows.ok ls
  · apply follows_keyPrefix hg
    intro start
    rw [← splice_map, render_unseen hg hfield]

theorem insert_map (hfield : field.IsSound) (ls : List Line) (i column : Nat) :
    field.insert (ls.map g) i column = (field.insert ls i column).map g := by
  rw [insert, insert, ← splice_map, render_unseen hg hfield]

end ValuesField

namespace Values

theorem fillEnv_map (ls : List Line) : Follows g (fillEnv (ls.map g)) (fillEnv ls) := by
  rw [fillEnv, fillEnv, Container.manager?_map hg]
  cases Container.manager? ls with
  | none => exact Follows.ok ls
  | some container =>
      dsimp only
      rw [Container.key?_map hg]
      cases container.key? ls env.key with
      | none =>
          dsimp only
          rw [ValuesField.insert_map hg isSound_env]
          exact Follows.ok _
      | some key => exact ValuesField.fill_map hg isSound_env (by decide) ls key

theorem key?_manager?_map (ls : List Line) (key : Text) :
    (Container.manager? (ls.map g)).bind (·.key? (ls.map g) key) =
      (Container.manager? ls).bind (·.key? ls key) := by
  rw [Container.manager?_map hg]
  congr 1
  exact funext fun container => Container.key?_map hg container ls key

theorem isBeforeServiceAccount_map (ls : List Line) (key : Nat) :
    isBeforeServiceAccount (ls.map g) key = isBeforeServiceAccount ls key := by
  rw [isBeforeServiceAccount, isBeforeServiceAccount, Block.locate_map hg,
    List.getElem?_map]
  cases ls[(Block.locate .mapping ls key).stop]? with
  | none => rfl
  | some line =>
      show ((g line).indent == _ && (g line).hasKey _) = (line.indent == _ && line.hasKey _)
      rw [(hg.resembles line).indent, (hg.resembles line).hasKey]

theorem fillResources_map (ls : List Line) :
    Follows g (fillResources (ls.map g)) (fillResources ls) := by
  rw [fillResources, fillResources, key?_manager?_map hg]
  cases (Container.manager? ls).bind (·.key? ls resources.key) with
  | none => exact Follows.ok ls
  | some key => exact ValuesField.fill_map hg isSound_resources (by decide) ls key

theorem fillContainerSecurityContext_map (ls : List Line) :
    Follows g (fillContainerSecurityContext (ls.map g)) (fillContainerSecurityContext ls) := by
  rw [fillContainerSecurityContext, fillContainerSecurityContext, key?_manager?_map hg]
  cases (Container.manager? ls).bind (·.key? ls containerSecurityContext.key) with
  | none => exact Follows.ok ls
  | some key =>
      dsimp only
      rw [isBeforeServiceAccount_map hg]
      split
      · exact Follows.ok ls
      · exact ValuesField.fill_map hg isSound_containerSecurityContext (by decide) ls key

theorem podSecurityContextKey?_map (ls : List Line) :
    podSecurityContextKey? (ls.map g) = podSecurityContextKey? ls := by
  have hline : ∀ i, (!(lineAt (ls.map g) i).isItem &&
      (lineAt (ls.map g) i).hasKey podSecurityContext.key && isBeforeServiceAccount (ls.map g) i) =
        (!(lineAt ls i).isItem && (lineAt ls i).hasKey podSecurityContext.key &&
          isBeforeServiceAccount ls i) := fun i => by
    rw [lineAt_map hg, (hg.resembles _).isItem, (hg.resembles _).hasKey,
      isBeforeServiceAccount_map hg]
  simp only [podSecurityContextKey?, List.length_map, hline]

theorem fillPodSecurityContext_map (ls : List Line) :
    Follows g (fillPodSecurityContext (ls.map g)) (fillPodSecurityContext ls) := by
  rw [fillPodSecurityContext, fillPodSecurityContext, podSecurityContextKey?_map hg]
  cases podSecurityContextKey? ls with
  | none => exact Follows.ok ls
  | some key => exact ValuesField.fill_map hg isSound_podSecurityContext (by decide) ls key

/-! ## The image -/

theorem imageLines_unseen (start : Text) (column : Nat) :
    (imageLines start column).map g = imageLines start column := by
  rw [imageLines, List.map_cons, List.map_singleton, hg.written _ (c := '"') rfl (by decide),
    hg.written _ (c := '}') rfl (by decide)]

theorem replaceImage_map (container : Container) (key : Nat) {replacement : List Line}
    (hreplacement : replacement.map g = replacement) (ls : List Line) :
    replaceImage container key replacement (ls.map g) =
      (replaceImage container key replacement ls).map g := by
  rw [replaceImage, replaceImage, List.zipIdx_map, List.flatMap_map, List.map_flatMap]
  apply List.flatMap_congr
  rintro ⟨line, i⟩ -
  have hpolicy : isPullPolicy container.column (g line) = isPullPolicy container.column line := by
    rw [isPullPolicy, isPullPolicy, (hg.resembles line).isItem, (hg.resembles line).column,
      (hg.resembles line).hasKey]
  dsimp only [Prod.map, id]
  rw [hpolicy]
  split
  · exact hreplacement.symm
  · split <;> rfl

theorem fillImage_map (ls : List Line) : Follows g (fillImage (ls.map g)) (fillImage ls) := by
  rw [fillImage, fillImage, Container.manager?_map hg]
  cases Container.manager? ls with
  | none => exact Follows.ok ls
  | some container =>
      dsimp only
      rw [Container.key?_map hg]
      cases container.key? ls "image".toList with
      | none => exact Follows.ok ls
      | some key =>
          dsimp only
          rw [lineAt_map hg, (hg.resembles _).probed imageRepository (by decide)]
          split
          · exact Follows.ok ls
          · apply follows_keyPrefix hg
            intro start
            rw [replaceImage_map hg _ _ (imageLines_unseen hg start _)]

/-! ## The arguments -/

theorem metricsBindLines_map (line : Line) :
    metricsBindLines (g line) = (metricsBindLines line).map g := by
  simp only [metricsBindLines, (hg.resembles line).leading, List.map_cons, List.map_nil]
  rw [hg.written line.leading (t := Condition.metrics.opening) (c := '}') rfl (by decide),
    hg.written line.leading (t := Directive.otherwise.render) (c := '}') rfl (by decide),
    hg.written line.leading (c := 'r') rfl (by decide),
    hg.written (line.leading ++ "- ".toList ++ metricsBindFlag) (c := '0') rfl (by decide),
    hg.written line.leading (t := Directive.close.render) (c := '}') rfl (by decide)]

theorem rangeLines_unseen (indentation : Text) :
    (rangeLines indentation).map g = rangeLines indentation := by
  simp only [rangeLines, List.map_cons, List.map_nil]
  rw [hg.written indentation (t := (Directive.range argsPath).render) (c := '}') rfl (by decide),
    hg.written (indentation ++ "- ".toList) (c := '}') rfl (by decide),
    hg.written indentation (t := Directive.close.render) (c := '}') rfl (by decide)]

theorem argLines_map (fallback : Text) {items : List Line}
    (hitems : ∀ line ∈ items, line.isItem = true) :
    argLines fallback (items.map g) = (argLines fallback items).map g := by
  have hkind : ∀ kind : ArgKind, (items.map g).filter (ArgKind.of ·.content = kind) =
      (items.filter (ArgKind.of ·.content = kind)).map g := by
    intro kind
    rw [List.filter_map]
    congr 1
    apply List.filter_congr
    intro line hline
    have hitem := hitems line hline
    show decide (ArgKind.of (g line).content = kind) = _
    rw [(hg.resembles line).content ((hg.resembles line).isItem.trans hitem)]
  have hleading : ((items.map g).head?.map Line.leading).getD fallback =
      (items.head?.map Line.leading).getD fallback := by
    cases items with
    | nil => rfl
    | cons line rest => exact (hg.resembles line).leading
  simp only [argLines, hkind, hleading, List.map_append, rangeLines_unseen hg, List.getLast?_map]
  congr 3
  · cases (items.filter (ArgKind.of ·.content = .metricsBind)).getLast? with
    | none => rfl
    | some line => exact metricsBindLines_map hg line
  · cases (items.filter (ArgKind.of ·.content = .healthProbe)).getLast? <;> rfl

theorem fillArgs_map (ls : List Line) : fillArgs (ls.map g) = (fillArgs ls).map g := by
  rw [fillArgs, fillArgs, key?_manager?_map hg]
  cases (Container.manager? ls).bind (·.key? ls "args".toList) with
  | none => rfl
  | some key =>
      have hfound : argsProbe.found (ls.map g) = argsProbe.found ls :=
        funext (Probe.found_map hg (by decide) ls)
      have hitem : Line.isItem ∘ g = Line.isItem :=
        funext fun line => (hg.resembles line).isItem
      dsimp only
      rw [Block.locate_map hg, hfound, lineAt_map hg, Block.bodyOf_map, List.filter_map, hitem,
        argLines_map hg _ fun line hline => (List.mem_filter.1 hline).2, ← List.map_cons,
        splice_map]
      split <;> rfl

end Values

/-! ## Guards -/

theorem Condition.isOpenedBy_map (condition : Condition) (previous : Option Line) :
    condition.isOpenedBy (previous.map g) = condition.isOpenedBy previous := by
  cases previous with
  | none => rfl
  | some line => exact (hg.resembles line).opens condition

theorem Condition.guard_map (condition : Condition) (line : Line) (body : List Line) :
    condition.guard (g line).leading (body.map g) = (condition.guard line.leading body).map g := by
  have hopening : ∃ c, condition.opening.getLast? = some c ∧ c ≠ '\r' := by
    cases condition <;> exact ⟨'}', rfl, by decide⟩
  obtain ⟨c, hlast, hc⟩ := hopening
  rw [guard, guard, (hg.resembles line).leading, List.map_cons, List.map_append,
    List.map_singleton, hg.written line.leading hlast hc,
    hg.written line.leading (t := Directive.close.render) (c := '}') rfl (by decide)]

theorem CertificateGuard.guardPaths_map (previous : Option Line) (ls : List Line) :
    guardPaths (previous.map g) (ls.map g) = (guardPaths previous ls).map g := by
  induction ls generalizing previous with
  | nil => rfl
  | cons line rest ih =>
      have hcondition : pathCondition? (g line) = pathCondition? line := by
        rw [pathCondition?, pathCondition?, (hg.resembles line).isItem]
        cases hitem : line.isItem with
        | false => rfl
        | true => rw [(hg.resembles line).content ((hg.resembles line).isItem.trans hitem)]
      have hline : guardPathLine (previous.map g) (g line) =
          (guardPathLine previous line).map g := by
        rw [guardPathLine, guardPathLine, hcondition]
        split
        · rw [Condition.isOpenedBy_map hg]
          split
          · rfl
          · exact Condition.guard_map hg _ line [line]
        · rfl
      rw [List.map_cons, guardPaths, guardPaths, List.map_append, hline, ← ih (some line)]
      rfl

namespace ItemGuard

/-- Whether the head and the body of the items are not told by the label of the build tool. -/
structure IsUnlabelled (itemGuard : ItemGuard) : Prop where
  head : itemGuard.headKey ≠ Naming.managedByKey
  body : itemGuard.bodyKey ≠ Naming.managedByKey

theorem guardItems_map {itemGuard : ItemGuard} (hguard : itemGuard.IsUnlabelled)
    (previous : Option Line) (skip : Nat) (ls : List Line) :
    itemGuard.guardItems (previous.map g) skip (ls.map g) =
      (itemGuard.guardItems previous skip ls).map g := by
  induction ls generalizing previous skip with
  | nil => cases skip <;> rfl
  | cons line rest ih =>
      cases skip with
      | succ skip => exact ih (some line) skip
      | zero =>
          have hbody : itemBody (g line) (rest.map g) = (itemBody line rest).map g := by
            rw [itemBody, itemBody, (hg.resembles line).indent, BlockStyle.body_map hg]
          have hentry : (fun l : Line => l.isEntry itemGuard.bodyKey itemGuard.bodyValue) ∘ g =
              fun l => l.isEntry itemGuard.bodyKey itemGuard.bodyValue :=
            funext fun l => (hg.resembles l).isEntry _ _ hguard.body
          have htargets : itemGuard.targets (previous.map g) (g line) (rest.map g) =
              itemGuard.targets previous line rest := by
            rw [targets, targets, hbody, List.any_map, hentry, (hg.resembles line).isItem,
              (hg.resembles line).isEntry _ _ hguard.head, Condition.isOpenedBy_map hg]
          rw [List.map_cons, guardItems, guardItems, htargets, hbody]
          split
          · rw [List.map_append, ← List.map_cons, Condition.guard_map hg, List.length_map,
              ← ih (some line)]
            rfl
          · rw [List.map_cons, ← ih (some line)]
            rfl

theorem apply_map {itemGuard : ItemGuard} (hguard : itemGuard.IsUnlabelled) (ls : List Line) :
    itemGuard.apply (ls.map g) = (itemGuard.apply ls).map g :=
  guardItems_map hg hguard none 0 ls

end ItemGuard

/-! ## Blank lines -/

namespace BlankRuns

theorem closesNext_map (ls : List Line) : closesNext (ls.map g) = closesNext ls := by
  have hcloses : ∀ line, hasClosing (g line) = hasClosing line := fun line =>
    (hg.resembles line).probed _ (by decide)
  fun_induction closesNext ls with
  | case1 => rfl
  | case2 line => exact hcloses line
  | case3 line rest hne hblank ih =>
      rw [List.map_cons, closesNext_cons (by simpa using hne), (hg.resembles line).isBlank,
        if_pos hblank, ih]
  | case4 line rest hne hblank =>
      rw [List.map_cons, closesNext_cons (by simpa using hne), (hg.resembles line).isBlank,
        if_neg hblank, hcloses]

theorem collapseFrom_map (opened : Bool) (ls : List Line) :
    collapseFrom opened (ls.map g) = (collapseFrom opened ls).map g := by
  have hopens : ∀ line, hasOpening (g line) = hasOpening line := fun line =>
    (hg.resembles line).probed _ (by decide)
  fun_induction collapseFrom opened ls with
  | case1 => rfl
  | case2 => rfl
  | case3 opened line next rest h ih =>
      have hne : (next :: rest).map g ≠ [] := List.cons_ne_nil _ _
      rw [← (hg.resembles line).isBlank, ← closesNext_map hg, Bool.and_eq_true] at h
      rw [List.map_cons, collapseFrom_cons_of_blank hne h.1 h.2, ih]
  | case4 opened line next rest h ih =>
      have hne : (next :: rest).map g ≠ [] := List.cons_ne_nil _ _
      rw [Bool.not_eq_true, ← (hg.resembles line).isBlank, ← closesNext_map hg] at h
      rw [List.map_cons, collapseFrom_cons hne h, hopens, ih]
      rfl

end BlankRuns

/-! ## All edits of a deployment -/

namespace Deployment

theorem fillValues_map (ls : List Line) : Follows g (fillValues (ls.map g)) (fillValues ls) :=
  (Values.fillImage_map hg ls).bind fun ls => (Values.fillEnv_map hg ls).bind fun ls =>
    (Values.fillPodSecurityContext_map hg ls).bind fun ls =>
      (Values.fillContainerSecurityContext_map hg ls).bind (Values.fillResources_map hg)

theorem guardCertificates_map (ls : List Line) :
    guardCertificates (ls.map g) = (guardCertificates ls).map g := by
  have hmount : ItemGuard.webhookVolumeMount.IsUnlabelled := ⟨by decide, by decide⟩
  have hvolume : ItemGuard.webhookVolume.IsUnlabelled := ⟨by decide, by decide⟩
  have hmetricsMount : ItemGuard.metricsVolumeMount.IsUnlabelled := ⟨by decide, by decide⟩
  have hmetricsVolume : ItemGuard.metricsVolume.IsUnlabelled := ⟨by decide, by decide⟩
  have hpaths := CertificateGuard.guardPaths_map hg none (Values.fillArgs ls)
  rw [Option.map_none] at hpaths
  simp only [guardCertificates, Values.fillArgs_map hg, hpaths, ItemGuard.apply_map hg hmount,
    ItemGuard.apply_map hg hvolume, ItemGuard.apply_map hg hmetricsMount,
    ItemGuard.apply_map hg hmetricsVolume]

theorem collapse_guardCertificates_map (ls : List Line) :
    BlankRuns.collapse (guardCertificates (ls.map g)) =
      (BlankRuns.collapse (guardCertificates ls)).map g := by
  rw [guardCertificates_map hg]
  exact BlankRuns.collapseFrom_map hg false _

end Deployment

end OperatorChart
