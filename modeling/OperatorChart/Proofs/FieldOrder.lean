import OperatorChart.Proofs.FieldFrames
/-!
# The order of the passes over the keys of a deployment

The edits of two keys of the manager rewrite two blocks of one item, and neither writes anything
that the other one looks for. Main statement: two such passes can be made in either order, and so
can the pass over the pod's security context and one of them, when the context stands apart from
the manager's container.
-/

namespace OperatorChart

open Text

/-! ## What the edits look for -/

namespace KeyEdit

variable {edit other : KeyEdit} {field : ValuesField} {line : Line}

theorem spares_of_lookahead (h : other.probe.lookahead = 0) (edit : KeyEdit) :
    edit.Spares other :=
  ⟨fun _ => .inl h, fun _ => .inl h⟩

theorem ignores_lines (h : field.HasPath)
    (hpath : Line.Avoids [Values.containerSecurityContext.path] field.path) (hline : line.IsTidy
      [Values.containerSecurityContext.path]) (width : Nat) :
    securityContext.Ignores (line :: field.value width) := by
  have hwords : ∀ w ∈ [Values.containerSecurityContext.path], w ∈ lookupPaths := by decide
  refine .inr (List.forall_mem_cons.2 ⟨hline.avoids _ List.mem_cons_self, fun l hl => ?_⟩)
  exact (ValuesField.isTidy_value h hwords hpath hl).avoids _ List.mem_cons_self

theorem spares_ofField (h : field.HasPath)
    (hpath : Line.Avoids [Values.containerSecurityContext.path] field.path)
    {added : Nat → List Line} (hadded : ∀ column, securityContext.Ignores (added column)) :
    (ofField field added).Spares securityContext where
  write {line body behind} hignores := by
    simp only [ofField]
    split
    · exact hignores
    · exact ignores_lines h hpath (ValuesField.isTidy_entryAt h (by decide) line) _
  added := hadded

theorem spares_env : env.Spares securityContext :=
  spares_ofField ValuesField.hasPath_env (by decide) fun column =>
    ignores_lines ValuesField.hasPath_env (by decide)
      (ValuesField.isTidy_padded ValuesField.hasPath_env (by decide) column) _

theorem spares_resources : resources.Spares securityContext :=
  spares_ofField ValuesField.hasPath_resources (by decide) fun _ => .inr (by simp)

theorem spares_podSecurityContext : podSecurityContext.Spares securityContext :=
  spares_ofField ValuesField.hasPath_podSecurityContext (by decide) fun _ => .inr (by simp)

theorem spares_args : args.Spares securityContext where
  write {line body behind} hignores := by
    have hwords : ∀ w ∈ [Values.containerSecurityContext.path], w ∈ lookupPaths := by decide
    have htexts : ∀ t ∈ Values.argTexts,
        Line.Avoids [Values.containerSecurityContext.path] t := by decide
    simp only [args]
    split
    · exact hignores
    have hold := hignores.resolve_left (by decide)
    rw [List.forall_mem_cons] at hold
    refine .inr (List.forall_mem_cons.2 ⟨hold.1, fun l hl => ?_⟩)
    rcases Values.mem_argLines hl with ⟨hl, -⟩ | ⟨s, hs, t, ht, rfl⟩
    · exact hold.2 l (List.mem_filter.1 hl).1
    · have hindentation := Values.isIndentation_of_mem_leadings
        (isIndentation_padding (line.column + 2)) hs
      exact Line.avoids_append_left hwords
        (fun c hc => .inl (isWhiteSpace_of_isIndentation (hindentation c hc))) (htexts t ht) _
          List.mem_cons_self
  added _ := .inr fun _ hl => by cases hl

end KeyEdit

namespace ManagerField

variable {field other : ManagerField} {ls : List Line}

theorem ignores_edit (field : ManagerField)
    (h : ∀ l ∈ ls, ¬ Values.containerSecurityContext.path <:+: l) : field.edit.Ignores ls := by
  cases field with
  | env => exact .inl rfl
  | resources => exact .inl rfl
  | securityContext => exact .inr h
  | args => exact .inl rfl

theorem spares_edit (hne : field ≠ other) : field.edit.Spares other.edit := by
  cases other with
  | env => exact KeyEdit.spares_of_lookahead rfl _
  | resources => exact KeyEdit.spares_of_lookahead rfl _
  | args => exact KeyEdit.spares_of_lookahead rfl _
  | securityContext =>
      cases field with
      | env => exact KeyEdit.spares_env
      | resources => exact KeyEdit.spares_resources
      | securityContext => exact absurd rfl hne
      | args => exact KeyEdit.spares_args

theorem spares_podSecurityContext (field : ManagerField) :
    KeyEdit.podSecurityContext.Spares field.edit := by
  cases field with
  | env => exact KeyEdit.spares_of_lookahead rfl _
  | resources => exact KeyEdit.spares_of_lookahead rfl _
  | securityContext => exact KeyEdit.spares_podSecurityContext
  | args => exact KeyEdit.spares_of_lookahead rfl _

theorem key_injective (h : field.key = other.key) : field = other := by
  cases field <;> cases other <;> first | rfl | exact absurd h (by decide)

theorem added_eq_nil (hne : field ≠ other) (column : Nat) :
    field.edit.added column = [] ∨ other.edit.added column = [] := by
  cases field with
  | env =>
      cases other with
      | env => exact absurd rfl hne
      | resources => exact .inr rfl
      | securityContext => exact .inr rfl
      | args => exact .inr rfl
  | resources => exact .inl rfl
  | securityContext => exact .inl rfl
  | args => exact .inl rfl

end ManagerField

/-! ## Edits in either order -/

/-- Whether two edits of lines succeed in either order, with the same result. -/
def EditsCommute (f g : List Line → Except EditError (List Line)) (ls : List Line) : Prop :=
  ∃ ls₁ ls₂ ls', (f ls = .ok ls₁ ∧ g ls₁ = .ok ls') ∧ g ls = .ok ls₂ ∧ f ls₂ = .ok ls'

section Orders

variable {field other : ManagerField} {ls : List Line}

/-- Edits of two keys of the manager. -/
theorem ManagerField.fill_comm (hne : field ≠ other) (hls : AreIndented ls)
    (hfresh : ∀ l ∈ ls, ¬ Values.containerSecurityContext.path <:+: l) :
    EditsCommute field.fill other.fill ls := by
  cases hmanager : Container.manager? ls with
  | none =>
      have hsame : ∀ field : ManagerField, field.fill ls = .ok ls := fun _ =>
        fill_of_no_manager hmanager
      exact ⟨ls, ls, ls, ⟨hsame field, hsame other⟩, hsame other, hsame field⟩
  | some container =>
      obtain ⟨start, dash, inner, behind, hfinds, -⟩ := Container.exists_findsItem hmanager
      have hlt := Line.indent_lt_column hfinds.item.item
      have hindented := hls.indented
      have hitem := hfresh
      rw [hfinds.eq_append, List.forall_mem_append] at hindented hitem
      have hindented := (List.forall_mem_append.1 hindented.2).1
      -- what one edit leaves is edited by the other one as an item
      have hfill : ∀ {f g : ManagerField}, ∃ ls₁, f.fill ls = .ok ls₁ ∧ g.fill ls₁ =
          .ok (start ++ (g.edit.run dash.column behind
            (f.edit.run dash.column behind (dash :: inner)) ++ behind)) := by
        intro f g
        obtain ⟨ls₁, hls₁, hindented₁⟩ := f.areIndented_fill hls
        have hls₁' := hls₁
        rw [fill_eq hfinds hls.indented] at hls₁'
        obtain rfl := Except.ok.inj hls₁'
        obtain ⟨dash', inner', heq, -, hcolumn, hfinds'⟩ :=
          (hfinds.result_run f.isLawful_edit hls.indented).findsItem hfinds f.isLawful_edit.managed
        exact ⟨_, hls₁, by rw [fill_eq hfinds' hindented₁.indented, hcolumn, heq]⟩
      obtain ⟨ls₁, hls₁, hboth₁⟩ := hfill (f := field) (g := other)
      obtain ⟨ls₂, hls₂, hboth₂⟩ := hfill (f := other) (g := field)
      have hkeys : field.edit.key ≠ other.edit.key := by
        rw [key_edit, key_edit]
        exact fun h => hne (key_injective h)
      have hcomm := KeyEdit.run_comm field.isLawful_edit other.isLawful_edit hkeys
        (spares_edit hne.symm) hfinds.stops hlt (spares_edit hne) (added_eq_nil hne _) hindented
        (field.ignores_edit hitem.2) (other.ignores_edit hitem.2)
      rw [hcomm] at hboth₁
      exact ⟨ls₁, ls₂, _, ⟨hls₁, hboth₁⟩, hls₂, hboth₂⟩

end Orders

/-! ## The pod's security context -/

/-- Whether the block of the pod's security context and the manager's container, if there are both,
have no line in common. -/
def PodApart (ls : List Line) : Prop :=
  ∀ key container, Values.podSecurityContextKey? ls = some key →
    Container.manager? ls = some container →
      (Block.locate .mapping ls key).stop ≤ container.start ∨ container.stop ≤ key

section Pods

variable {field : ManagerField} {ls ls' start inner before body back behind after podBehind item :
  List Line} {dash line : Line}

theorem KeyEdit.write_podSecurityContext (line : Line) (body : List Line) :
    (∀ behind, podSecurityContext.write line body behind = line :: body) ∨
      ∀ behind, podSecurityContext.write line body behind =
        Values.podSecurityContext.entryAt line ::
          Values.podSecurityContext.value (line.column + 2) := by
  have hlookahead : Values.podSecurityContext.lookahead = 0 := rfl
  simp only [podSecurityContext, ofField, hlookahead, List.take_zero]
  split
  · exact .inl fun _ => rfl
  · exact .inr fun _ => rfl

theorem FindsPod.stop_eq (h : FindsPod ls before line body podBehind) :
    (Block.locate .mapping ls before.length).stop = before.length + (line :: body).length := by
  have hcolumn : BlockStyle.mapping.column line = line.column := rfl
  rw [h.eq, List.cons_append, locate_around, BlockStyle.body, hcolumn, continues_mapping,
    h.stops.takeWhile_append_of_deep h.deep, List.length_cons]
  dsimp only
  omega

theorem FindsItem.noPod (h : FindsItem Container.managerName ls start dash inner behind)
    (hresult : field.edit.Result dash.column behind (dash :: inner) item)
    (hnone : NoPod ls []) : NoPod (start ++ (item ++ behind)) [] := by
  have hmanaged := field.isLawful_edit.managed
  rw [h.eq_append, noPod_append, noPod_append, List.append_nil, List.append_nil] at hnone
  rw [noPod_append, noPod_append, List.append_nil, List.append_nil]
  exact ⟨hnone.1.change (hresult.keepsPods hmanaged h), hresult.noPod hmanaged h hnone.2.1,
    hnone.2.2⟩

/-- The context in front of the manager is found again when the manager was edited. -/
theorem FindsPod.of_front (hpod : FindsPod ls before line body (back ++ (dash :: inner ++ behind)))
    (h : FindsItem Container.managerName ls (before ++ (line :: body ++ back)) dash inner behind)
    (hresult : field.edit.Result dash.column behind (dash :: inner) item) :
    FindsPod (before ++ (line :: body ++ (back ++ (item ++ behind)))) before line body
      (back ++ (item ++ behind)) := by
  have hmanaged := field.isLawful_edit.managed
  have hpods := hresult.keepsPods hmanaged h
  refine ⟨rfl, ?_, ?_, hpod.deep, ?_⟩
  · refine hpod.first.change ?_
    have hpods := hpods.of_append
    simpa using hpods
  · have hsplit : before ++ (line :: body ++ back) = before ++ line :: (body ++ back) := rfl
    have hline := hpods.isPod hsplit
    rw [List.append_assoc, List.append_assoc, isPod_append_of_deeper hpod.deep,
      isPod_append_of_deeper hpod.deep, hpod.pod] at hline
    exact hline
  · obtain ⟨dash', inner', rfl, hindent, -, hfinds'⟩ := hresult.findsItem h hmanaged
    intro l hl
    cases back with
    | cons first back => exact hpod.stops l hl
    | nil =>
        cases hl
        have hstop := hpod.stops dash rfl
        rw [← Bool.not_eq_true, Line.isDeeper_iff] at hstop ⊢
        rintro ⟨-, hlt⟩
        exact hstop ⟨Line.not_isBlank_of_isItem h.item.item, hindent ▸ hlt⟩

theorem FindsPod.of_behind
    (hpod : FindsPod ls (start ++ (dash :: inner ++ before)) line body podBehind)
    (h : FindsItem Container.managerName ls start dash inner
      (before ++ (line :: body ++ podBehind)))
    (hresult : field.edit.Result dash.column (before ++ (line :: body ++ podBehind))
      (dash :: inner) item) :
    FindsPod (start ++ (item ++ (before ++ (line :: body ++ podBehind))))
      (start ++ (item ++ before)) line body podBehind := by
  have hmanaged := field.isLawful_edit.managed
  have hfirst := hpod.first
  rw [noPod_append, noPod_append, List.append_assoc] at hfirst
  refine ⟨by simp, ?_, hpod.pod, hpod.deep, hpod.stops⟩
  rw [noPod_append, noPod_append, List.append_assoc]
  exact ⟨hfirst.1.change (hresult.keepsPods hmanaged h), hresult.noPod hmanaged h hfirst.2.1,
    hfirst.2.2⟩

/-- The manager behind a context is found again when the context was edited. -/
theorem FindsPod.exists_front
    (hpod : FindsPod ls before line body (back ++ (dash :: inner ++ behind)))
    (h : FindsItem Container.managerName ls (before ++ (line :: body ++ back)) dash inner behind) :
    ∃ new, (∀ rest, KeyEdit.podSecurityContext.write line body rest = new) ∧
      FindsItem Container.managerName (before ++ (new ++ back) ++ dash :: (inner ++ behind))
        (before ++ (new ++ back)) dash inner behind := by
  rcases KeyEdit.write_podSecurityContext line body with hsame | hnew
  · refine ⟨_, hsame, ?_⟩
    have hfinds := h
    rwa [h.eq] at hfinds
  · have hreplace := hpod.isReplacement
    have hmanaged := Values.isEditable_podSecurityContext.managed
    refine ⟨_, hnew, h.replace_start hreplace.keepsPlace rfl (fun l hl => hpod.stops l ?_)
      (KeyEdit.not_isNamed_of_replacement hmanaged hreplace).2⟩
    rw [List.head?_append, hl, Option.some_or]

theorem FindsPod.exists_behind
    (hpod : FindsPod ls (start ++ (dash :: inner ++ before)) line body podBehind)
    (h : FindsItem Container.managerName ls start dash inner
      (before ++ (line :: body ++ podBehind)))
    (hfresh : ∀ l ∈ ls, ¬ Values.containerSecurityContext.path <:+: l) (field : ManagerField) :
    ∃ new, (∀ rest, KeyEdit.podSecurityContext.write line body rest = new) ∧
      FindsItem Container.managerName
        (start ++ dash :: (inner ++ (before ++ (new ++ podBehind)))) start dash inner
        (before ++ (new ++ podBehind)) ∧
      field.edit.SeesSame dash.column (before ++ (new ++ podBehind))
        (before ++ (line :: body ++ podBehind)) := by
  rw [h.eq_append, List.forall_mem_append, List.forall_mem_append] at hfresh
  have hold := field.ignores_edit hfresh.2.2
  rcases KeyEdit.write_podSecurityContext line body with hsame | hnew
  · refine ⟨_, hsame, ?_, rfl, hold, hold⟩
    have hfinds := h
    rwa [h.eq] at hfinds
  · have hreplace := hpod.isReplacement
    have hmanaged := Values.isEditable_podSecurityContext.managed
    refine ⟨_, hnew, h.change_behind fun l hl => ?_, ?_, ?_, hold⟩
    · cases before with
      | cons first before => exact h.stops l hl
      | nil =>
          cases hl
          have hstop := h.stops line rfl
          rw [← Bool.not_eq_true, Line.isDeeper_iff] at hstop ⊢
          rintro ⟨-, hlt⟩
          exact hstop ⟨Line.not_isBlank_of_hasKey hreplace.old_key, hreplace.same_indent ▸ hlt⟩
    · cases before with
      | cons first before => rfl
      | nil =>
          exact (Line.not_isAccount_of_hasKey hmanaged hreplace.new_key).trans
            (Line.not_isAccount_of_hasKey hmanaged hreplace.old_key).symm
    · have hspares : field.edit.Ignores (KeyEdit.podSecurityContext.write line body podBehind) :=
        field.spares_podSecurityContext.write
          (KeyEdit.ignores_append.1 (KeyEdit.ignores_append.1 hold).2).1
      rw [hnew] at hspares
      rw [KeyEdit.ignores_append, KeyEdit.ignores_append] at hold ⊢
      exact ⟨hold.1, hspares, hold.2.2⟩

theorem FindsPod.commute_front
    (hpod : FindsPod ls before line body (back ++ (dash :: inner ++ behind)))
    (h : FindsItem Container.managerName ls (before ++ (line :: body ++ back)) dash inner behind)
    (hls : AreIndented ls) (field : ManagerField) :
    EditsCommute Values.fillPodSecurityContext field.fill ls := by
  have hline := hls.indented line (by rw [hpod.eq]; simp)
  have hresult := h.result_run field.isLawful_edit hls.indented
  have hfill : field.fill ls = _ := ManagerField.fill_eq h hls.indented
  have hpodFill := hpod.fill_eq hline
  have hpodFill' := (hpod.of_front h hresult).fill_eq hline
  obtain ⟨new, hnew, hfinds⟩ := hpod.exists_front h
  obtain ⟨ls₁, hls₁, hindented₁⟩ := Values.indented_fillPodSecurityContext hls
  rw [hnew] at hpodFill hpodFill'
  have hsplit : ls₁ = before ++ (new ++ back) ++ dash :: (inner ++ behind) := by
    rw [Except.ok.inj (hls₁.symm.trans hpodFill)]
    simp
  rw [hsplit] at hls₁ hindented₁
  have hfill' : field.fill _ = _ := ManagerField.fill_eq hfinds hindented₁.indented
  refine ⟨_, _, _, ⟨hls₁, hfill'⟩, hfill, ?_⟩
  simpa using hpodFill'

theorem FindsPod.commute_behind
    (hpod : FindsPod ls (start ++ (dash :: inner ++ before)) line body podBehind)
    (h : FindsItem Container.managerName ls start dash inner
      (before ++ (line :: body ++ podBehind)))
    (hls : AreIndented ls) (hfresh : ∀ l ∈ ls, ¬ Values.containerSecurityContext.path <:+: l)
    (field : ManagerField) : EditsCommute Values.fillPodSecurityContext field.fill ls := by
  have hline := hls.indented line (by rw [hpod.eq]; simp)
  have hresult := h.result_run field.isLawful_edit hls.indented
  have hfill : field.fill ls = _ := ManagerField.fill_eq h hls.indented
  have hpodFill := hpod.fill_eq hline
  have hpodFill' := (hpod.of_behind h hresult).fill_eq hline
  obtain ⟨new, hnew, hfinds, hsees⟩ := hpod.exists_behind h hfresh field
  obtain ⟨ls₁, hls₁, hindented₁⟩ := Values.indented_fillPodSecurityContext hls
  rw [hnew] at hpodFill hpodFill'
  have hsplit : ls₁ = start ++ dash :: (inner ++ (before ++ (new ++ podBehind))) := by
    rw [Except.ok.inj (hls₁.symm.trans hpodFill)]
    simp
  rw [hsplit] at hls₁ hindented₁
  have hfill' : field.fill _ = _ := ManagerField.fill_eq hfinds hindented₁.indented
  rw [h.eq_append, List.forall_mem_append, List.forall_mem_append] at hfresh
  rw [field.isLawful_edit.run_congr hsees (field.ignores_edit hfresh.2.1)] at hfill'
  refine ⟨_, _, _, ⟨hls₁, hfill'⟩, hfill, ?_⟩
  simpa using hpodFill'

theorem Values.manager?_fillPodSecurityContext (hls : AreIndented ls)
    (hmanager : Container.manager? ls = none) (h : fillPodSecurityContext ls = .ok ls') :
    Container.manager? ls' = none := by
  rcases exists_findsPod ls with hnone | ⟨before, line, body, podBehind, hpod⟩
  · rw [fillPodSecurityContext_of_noPod hnone] at h
    exact Except.ok.inj h ▸ hmanager
  have hline := hls.indented line (by rw [hpod.eq]; simp)
  rcases hpod.fill_cases hline with hsame | hnew
  · exact Except.ok.inj (hsame.symm.trans h) ▸ hmanager
  · rw [← Except.ok.inj (hnew.symm.trans h)]
    have hreplace := hpod.isReplacement
    have hnamed := KeyEdit.not_isNamed_of_replacement
      Values.isEditable_podSecurityContext.managed hreplace
    have hunnamed := Container.find?_eq_none_iff.1 hmanager
    rw [hpod.eq] at hunnamed
    exact Container.find?_eq_none_iff.2 (hunnamed.replace hreplace.keepsPlace hnamed.2 hpod.stops)

theorem PodApart.cases (hapart : PodApart ls) (hpod : FindsPod ls before line body podBehind)
    (h : FindsItem Container.managerName ls start dash inner behind) :
    (∃ back, start = before ++ (line :: body ++ back) ∧
      podBehind = back ++ (dash :: inner ++ behind)) ∨
    ∃ back, before = start ++ (dash :: inner ++ back) ∧
      behind = back ++ (line :: body ++ podBehind) := by
  have heq := h.eq_append.symm.trans hpod.eq
  rw [← List.append_assoc start, ← List.append_assoc before] at heq
  rcases hapart _ _ hpod.key?_eq h.manager?_eq with hle | hle
  · rw [hpod.stop_eq, ← List.length_append] at hle
    have hstart := List.prefix_of_prefix_length_le ⟨_, heq.symm⟩
      ⟨dash :: inner ++ behind, (List.append_assoc _ _ _).symm⟩ hle
    obtain ⟨back, rfl⟩ := hstart
    rw [List.append_assoc (before ++ (line :: body) ++ back),
      List.append_assoc (before ++ (line :: body)), List.append_cancel_left_eq] at heq
    exact .inl ⟨back, List.append_assoc _ _ _, heq.symm⟩
  · have hbefore := List.prefix_of_prefix_length_le ⟨_, heq⟩
      ⟨line :: body ++ podBehind, (List.append_assoc _ _ _).symm⟩
      (by rw [List.length_append]; exact hle)
    obtain ⟨back, rfl⟩ := hbefore
    rw [List.append_assoc (start ++ (dash :: inner) ++ back),
      List.append_assoc (start ++ (dash :: inner)), List.append_cancel_left_eq] at heq
    exact .inr ⟨back, List.append_assoc _ _ _, heq⟩

/-- The edits of the pod's security context and of a key of the manager, when the two blocks stand
apart. -/
theorem ManagerField.fill_comm_pod (hls : AreIndented ls)
    (hfresh : ∀ l ∈ ls, ¬ Values.containerSecurityContext.path <:+: l) (hapart : PodApart ls)
    (field : ManagerField) : EditsCommute Values.fillPodSecurityContext field.fill ls := by
  cases hmanager : Container.manager? ls with
  | none =>
      have hfill : field.fill ls = .ok ls := fill_of_no_manager hmanager
      obtain ⟨ls₁, hls₁, -⟩ := Values.indented_fillPodSecurityContext hls
      have hmanager₁ := Values.manager?_fillPodSecurityContext hls hmanager hls₁
      exact ⟨ls₁, ls, ls₁, ⟨hls₁, fill_of_no_manager hmanager₁⟩, hfill, hls₁⟩
  | some container =>
      obtain ⟨start, dash, inner, behind, h, -⟩ := Container.exists_findsItem hmanager
      rcases exists_findsPod ls with hnone | ⟨before, line, body, podBehind, hpod⟩
      · have hresult := h.result_run field.isLawful_edit hls.indented
        have hfill : field.fill ls = _ := fill_eq h hls.indented
        exact ⟨ls, _, _, ⟨Values.fillPodSecurityContext_of_noPod hnone, hfill⟩, hfill,
          Values.fillPodSecurityContext_of_noPod (h.noPod hresult hnone)⟩
      · rcases hapart.cases hpod h with ⟨back, rfl, rfl⟩ | ⟨back, rfl, rfl⟩
        · exact hpod.commute_front h hls field
        · exact hpod.commute_behind h hls hfresh field

end Pods

/-! ## Passes in either order -/

namespace Pass

/-- Whether two passes succeed on a text in either order, with the same result. -/
def Commutes (context : PassContext) (pass other : Pass) (t : Text) : Prop :=
  ∃ out, (pass.run context t).bind (other.run context) = .ok out ∧
    (other.run context t).bind (pass.run context) = .ok out

theorem commutes_of_edits {context : PassContext} {pass other : Pass} {t : Text}
    {f g : List Line → Except EditError (List Line)}
    (hpass : ∀ t, pass.run context t = (f t.lines).map Text.ofLines)
    (hother : ∀ t, other.run context t = (g t.lines).map Text.ofLines)
    (hkeeps : ∃ ls, f t.lines = .ok ls ∧ AreIndented ls)
    (hkeeps' : ∃ ls, g t.lines = .ok ls ∧ AreIndented ls) (h : EditsCommute f g t.lines) :
    pass.Commutes context other t := by
  have hrun : ∀ {f g : List Line → Except EditError (List Line)} {pass other : Pass} {ls ls'},
      (∀ t, pass.run context t = (f t.lines).map Text.ofLines) →
      (∀ t, other.run context t = (g t.lines).map Text.ofLines) →
      (∃ ls, f t.lines = .ok ls ∧ AreIndented ls) → f t.lines = .ok ls → g ls = .ok ls' →
        (pass.run context t).bind (other.run context) = .ok (Text.ofLines ls') := by
    rintro f g pass other ls ls' hpass hother ⟨ls₁, hkeeps, hls⟩ hf hg
    rw [Except.ok.inj (hkeeps.symm.trans hf)] at hls
    rw [hpass, hf]
    refine (hother (Text.ofLines ls)).trans ?_
    rw [lines_ofLines hls.toAreLines, hg]
    rfl
  obtain ⟨ls₁, ls₂, ls', ⟨hf, hg⟩, hg', hf'⟩ := h
  exact ⟨Text.ofLines ls', hrun hpass hother hkeeps hf hg, hrun hother hpass hkeeps' hg' hf'⟩

/-- On a text that is indented by spaces and tabs and does not mention the manager's security
context in the values, two passes over keys of the manager can be made in either order, and so can
one of them and the pass over the pod's security context, when that context stands apart from the
manager's container. -/
theorem fields_commute (context : PassContext) {t : Text} (ht : t.IsIndented)
    (hfresh : hasInfix Values.containerSecurityContext.path t = false) :
    (∀ field other : ManagerField, field ≠ other →
      field.pass.Commutes context other.pass t) ∧
    (PodApart t.lines → ∀ field : ManagerField,
      podSecurityContext.Commutes context field.pass t) := by
  have hls := ht.areIndented
  have hlines : ∀ l ∈ t.lines, ¬ Values.containerSecurityContext.path <:+: l := fun l hl hocc =>
    hasInfix_eq_false_iff.1 hfresh (hocc.trans (infix_of_mem_pieces hl))
  constructor
  · intro field other hne
    exact commutes_of_edits (field.run_pass context) (other.run_pass context)
      (field.areIndented_fill hls) (other.areIndented_fill hls)
      (ManagerField.fill_comm hne hls hlines)
  · intro hapart field
    exact commutes_of_edits (fun _ => rfl) (field.run_pass context)
      (Values.indented_fillPodSecurityContext hls) (field.areIndented_fill hls)
      (ManagerField.fill_comm_pod hls hlines hapart field)

/-- A manager whose security context is its last key, with the security context of its pod right
behind it. -/
theorem fields_commute_behind :
    let context : PassContext := ⟨⟨"Deployment".toList, [], [], []⟩, "demo".toList⟩
    let t := Text.ofLines (["  containers:", "  - args:", "    - --leader-elect",
      "    name: manager", "    resources: null", "    securityContext: null",
      "  securityContext:", "    runAsNonRoot: true", "  serviceAccountName: demo"].map
        String.toList)
    t.IsIndented ∧ hasInfix Values.containerSecurityContext.path t = false ∧
      PodApart t.lines ∧
      (∀ field other : ManagerField, field ≠ other →
        field.pass.Commutes context other.pass t) ∧
      ∀ field : ManagerField, podSecurityContext.Commutes context field.pass t := by
  intro context t
  have ht : t.IsIndented := by decide +kernel
  have hfresh : hasInfix Values.containerSecurityContext.path t = false := by decide +kernel
  have hkey : Values.podSecurityContextKey? t.lines = some 6 := by decide +kernel
  have hmanager : (Container.manager? t.lines).map Container.stop = some 6 := by decide +kernel
  have hapart : PodApart t.lines := by
    rintro key container hpod hcontainer
    rw [hkey, Option.some.injEq] at hpod
    rw [hcontainer, Option.map_some, Option.some.injEq] at hmanager
    exact .inr (hmanager.trans hpod).le
  have hcommute := fields_commute context ht hfresh
  exact ⟨ht, hfresh, hapart, hcommute.1, hcommute.2 hapart⟩

end Pass

end OperatorChart
