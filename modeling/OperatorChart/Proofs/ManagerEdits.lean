import OperatorChart.Proofs.ArgsPass
import OperatorChart.Proofs.IndentedTexts
import OperatorChart.Proofs.KeyEdits
/-!
# Edits of the manager's item

Four passes edit one key of the manager each. Here each pass is an edit of the lines of the
manager's item: what stands in front of the item and behind it is kept, and a document without a
manager is left alone.
-/

namespace OperatorChart

open Text

/-- The keys of the manager that a pass edits as a whole. -/
inductive ManagerField
  | env
  | resources
  | securityContext
  | args
  deriving DecidableEq, Repr

namespace ManagerField

def key : ManagerField → Text
  | env => Values.env.key
  | resources => Values.resources.key
  | securityContext => Values.containerSecurityContext.key
  | args => "args".toList

def style : ManagerField → BlockStyle
  | env => Values.env.style
  | resources => Values.resources.style
  | securityContext => Values.containerSecurityContext.style
  | args => .sequence

def fill : ManagerField → List Line → Except EditError (List Line)
  | env => Values.fillEnv
  | resources => Values.fillResources
  | securityContext => Values.fillContainerSecurityContext
  | args => fun ls => .ok (Values.fillArgs ls)

def pass : ManagerField → Pass
  | env => .ofEdit "env" Values.fillEnv
  | resources => .ofEdit "resources" Values.fillResources
  | securityContext => .ofEdit "container-security-context" Values.fillContainerSecurityContext
  | args => .ofLines "controller-manager-args" Values.fillArgs

theorem pass_mem_all (field : ManagerField) : field.pass ∈ Pass.all := by
  cases field <;> simp [pass, Pass.all]

theorem run_pass (field : ManagerField) (context : PassContext) (t : Text) :
    field.pass.run context t = (field.fill t.lines).map Text.ofLines := by
  cases field <;> rfl

theorem areIndented_fill (field : ManagerField) {ls : List Line} (hls : AreIndented ls) :
    ∃ ls', field.fill ls = .ok ls' ∧ AreIndented ls' := by
  cases field with
  | env => exact Values.indented_fillEnv hls
  | resources => exact Values.indented_fillResources hls
  | securityContext => exact Values.indented_fillContainerSecurityContext hls
  | args => exact ⟨_, rfl, Values.areIndented_fillArgs hls⟩

end ManagerField

/-! ## The edits -/

namespace KeyEdit

/-- The edit of a field: its block is looked up in the values, unless it already is. -/
def ofField (field : ValuesField) (added : Nat → List Line) : KeyEdit where
  key := field.key
  style := field.style
  probe := field.probe
  write line body behind :=
    if (line :: (body ++ behind.take field.lookahead)).any (hasInfix field.path) then line :: body
    else field.entryAt line :: field.value (line.column + 2)
  added := added

/-- The edit of the environment, which an item without one gets at its end. -/
def env : KeyEdit :=
  ofField Values.env fun column => Values.env.render (padding column) column

def resources : KeyEdit :=
  ofField Values.resources fun _ => []

/-- The edit of the security context, which is left alone in front of a service account. -/
def securityContext : KeyEdit :=
  { ofField Values.containerSecurityContext fun _ => [] with
    write := fun line body behind =>
      if behind.head?.any (Line.isAccount line.column) then line :: body
      else (ofField Values.containerSecurityContext fun _ => []).write line body behind }

/-- The edit of the arguments, which leaves an empty list alone. -/
def args : KeyEdit where
  key := "args".toList
  style := .sequence
  probe := Values.argsProbe
  write line body _ :=
    if body.isEmpty || (line :: body).any (hasInfix Values.argsPath) then line :: body
    else line :: Values.argLines (padding (line.column + 2)) (body.filter Line.isItem)
  added _ := []

section Lawful

variable {edit : KeyEdit} {field : ValuesField} {body behind after : List Line} {line line' : Line}

theorem writes_value (h : field.IsEditable) (hstyle : edit.style = field.style)
    (hreplace : IsReplacement edit.key line body line' (field.value (line.column + 2)) behind)
    (hsettled : ∀ behind', edit.write line' (field.value (line.column + 2)) behind' =
      line' :: field.value (line.column + 2))
    (hpod : line'.isPod (field.value (line.column + 2) ++ behind) = false) :
    edit.Writes line body line' (field.value (line.column + 2)) behind := by
  have hinner := ValuesField.isInner_value h.toIsSound line.column
  refine ⟨hreplace, fun l hl => ?_, hsettled, fun l hl _ => (hinner l hl).no_key _, hpod⟩
  rw [hstyle]
  exact Grouped.continues_of_isInner field.style (Nat.le_refl _) (hinner l hl)

theorem write_value (field : ValuesField) (added : Nat → List Line) (line : Line) (width : Nat)
    (behind : List Line) :
    (ofField field added).write line (field.value width) behind = line :: field.value width := by
  refine if_pos ?_
  rw [List.any_eq_true]
  refine ⟨padding width ++ (Directive.ifThen field.path).render, by simp [ValuesField.value],
    hasInfix_iff.2 ⟨padding width ++ "\x7b\x7b- if ".toList, " \x7d\x7d".toList, ?_⟩⟩
  rw [Directive.render_ifThen]
  simp only [List.append_assoc]

theorem isLawful_ofField (h : field.IsEditable) (hne : field.key ≠ Values.podSecurityContext.key)
    (hlookahead : field.lookahead = 0) {added : Nat → List Line}
    (hadded : ∀ column, added column = [] ∨ ∃ first rest, added column = first :: rest ∧
      (ofField field added).Adds column first rest) : (ofField field added).IsLawful where
  managed := h.managed
  style := h.style
  write {line body behind} hkey _ hbody _ := by
    have hreplace := ValuesField.isReplacement_value h hkey hbody behind
    simp only [ofField]
    split
    · exact .inl rfl
    · exact .inr ⟨_, _, rfl, writes_value h rfl hreplace (write_value field added _ _)
        (Line.not_isPod_of_hasKey hreplace.new_key hne _)⟩
  added := hadded
  sees _ := by simp only [ofField, hlookahead, List.take_zero]

theorem isLawful_env : env.IsLawful := by
  refine isLawful_ofField Values.isEditable_env (by decide) rfl fun column => .inr ?_
  have hpadded := Line.isPadded_append Values.isSound_env.key column []
  rw [← List.append_assoc] at hpadded
  have hinner := ValuesField.isInner_value Values.isSound_env column
  refine ⟨_, _, ValuesField.render_eq _ _ _, hpadded.indent, List.forall_mem_cons.2
    ⟨hpadded.no_item, fun l hl => (hinner l hl).no_item⟩, fun behind => ?_⟩
  have hcolumn := hpadded.column
  have hdeep : ∀ l ∈ Values.env.value (column + 2),
      l.isBlank = false ∧ Line.column (padding column ++ Values.env.key ++ [':']) ≤ l.indent :=
    fun l hl => ⟨(hinner l hl).blank, hcolumn.le.trans (hinner l hl).deep.le⟩
  have hreplace : IsReplacement Values.env.key (padding column ++ Values.env.key ++ [':'])
      (Values.env.value (column + 2)) (padding column ++ Values.env.key ++ [':'])
      (Values.env.value (column + 2)) behind :=
    ⟨hpadded.hasKey, hpadded.hasKey, rfl, rfl, rfl, hdeep, hdeep,
      fun l hl => (hinner l hl).isInert, List.forall_mem_cons.2 ⟨hpadded.indented, fun l hl =>
        ValuesField.isIndented_of_mem_value Values.isSound_env hl⟩, fun l hl hitem => by
          rw [(hinner l hl).no_item] at hitem
          cases hitem⟩
  have hwrites := @writes_value env Values.env (Values.env.value (column + 2)) behind
    (padding column ++ Values.env.key ++ [':']) (padding column ++ Values.env.key ++ [':'])
    Values.isEditable_env rfl
  rw [hcolumn] at hwrites
  exact hwrites hreplace (write_value _ _ _ _)
    (Line.not_isPod_of_hasKey hpadded.hasKey (by decide) _)

theorem isLawful_resources : resources.IsLawful :=
  isLawful_ofField Values.isEditable_resources (by decide) rfl fun _ => .inl rfl

theorem isLawful_securityContext : securityContext.IsLawful where
  managed := Values.isEditable_containerSecurityContext.managed
  style := Values.isEditable_containerSecurityContext.style
  write {line body behind} hkey _ hbody hstops := by
    have hfield := Values.isEditable_containerSecurityContext
    have hreplace := ValuesField.isReplacement_value hfield hkey hbody behind
    have hsettled : ∀ (line' : Line) (behind' : List Line), securityContext.write line'
        (Values.containerSecurityContext.value (line.column + 2)) behind' =
          line' :: Values.containerSecurityContext.value (line.column + 2) := by
      intro line' behind'
      simp only [securityContext]
      split
      · rfl
      · exact write_value _ _ _ _ _
    simp only [securityContext]
    split
    · exact .inl rfl
    rename_i haccount
    simp only [ofField]
    split
    · exact .inl rfl
    refine .inr ⟨_, _, rfl, writes_value hfield rfl hreplace (hsettled _) ?_⟩
    -- the value ends where the block ended, and no service account stands there
    have hdeep : ∀ l ∈ Values.containerSecurityContext.value (line.column + 2),
        l.isDeeper line.column = true := fun l hl =>
      (ValuesField.isInner_value hfield.toIsSound line.column l hl).isDeeper
    rw [Line.isPod, hreplace.same_column, precedesAccount_append_of_deeper hdeep, precedesAccount,
      hstops.dropWhile]
    exact Bool.and_eq_false_imp.2 fun _ => Bool.not_eq_true _ ▸ haccount
  added _ := .inl rfl
  sees {line body behind behind'} h := by
    have hnone : ∀ {ls : List Line}, securityContext.Ignores ls →
        (ls.take Values.containerSecurityContext.lookahead).any
          (hasInfix Values.containerSecurityContext.path) = false := by
      intro ls hls
      rw [List.any_eq_false]
      intro l hl
      rw [hasInfix_iff]
      exact hls.resolve_left (by decide) l ((List.take_sublist _ _).mem hl)
    simp only [securityContext, ofField, h.account, ← List.cons_append, List.any_append,
      hnone h.old, hnone h.new]

theorem isLawful_args : args.IsLawful where
  managed := by decide
  style := by decide
  write {line body behind} hkey hindented hbody hstops := by
    simp only [args]
    split
    · exact .inl rfl
    rw [List.forall_mem_cons] at hindented
    have hkept : ∀ item ∈ body.filter Line.isItem, Values.IsKept line.column item := by
      intro item hitem
      obtain ⟨hmem, hdash⟩ := List.mem_filter.1 hitem
      exact ⟨hdash, hbody item hmem, hindented.2 item hmem⟩
    have hargument := Values.isArgument_argLines (isIndentation_padding (line.column + 2))
      (by rw [length_padding]; omega) hkept
    obtain ⟨l, hl, hloop⟩ := Values.exists_loop (padding (line.column + 2))
      (body.filter Line.isItem)
    refine .inr ⟨_, _, rfl, Values.isReplacement_args hkey hindented.1 hbody hargument hstops,
      fun l hl => (hargument l hl).continues, fun behind' => if_pos ?_,
      fun l hl => (hargument l hl).no_context, Line.not_isPod_of_hasKey hkey (by decide) _⟩
    rw [Bool.or_eq_true, List.any_eq_true]
    exact .inr ⟨l, List.mem_cons_of_mem line hl, hasInfix_iff.2 hloop⟩
  added _ := .inl rfl
  sees _ := rfl

end Lawful

end KeyEdit

/-! ## The passes as edits -/

namespace ManagerField

def edit : ManagerField → KeyEdit
  | env => .env
  | resources => .resources
  | securityContext => .securityContext
  | args => .args

theorem key_edit (field : ManagerField) : field.edit.key = field.key := by
  cases field <;> rfl

theorem style_edit (field : ManagerField) : field.edit.style = field.style := by
  cases field <;> rfl

theorem isLawful_edit (field : ManagerField) : field.edit.IsLawful := by
  cases field with
  | env => exact KeyEdit.isLawful_env
  | resources => exact KeyEdit.isLawful_resources
  | securityContext => exact KeyEdit.isLawful_securityContext
  | args => exact KeyEdit.isLawful_args

end ManagerField

section Found

variable {probe : Probe} {style : BlockStyle} {field : ValuesField} {before body behind : List Line}
  {line : Line}

theorem Probe.found_around (hcolumn : style.column line = line.column)
    (hbody : ∀ l ∈ body, style.continues line.column l = true)
    (hbehind : style.Ends line.column behind) :
    probe.found (before ++ line :: (body ++ behind))
        (Block.locate style (before ++ line :: (body ++ behind)) before.length) =
      (line :: (body ++ behind.take probe.lookahead)).any (hasInfix probe.marker) := by
  rw [Probe.found, locate_around, hcolumn, BlockStyle.body, hbehind.takeWhile hbody]
  dsimp only
  rw [Nat.add_assoc, take_around, List.take_length_add_append, List.drop_left]

theorem ValuesField.fill_eq (h : field.IsEditable) (hkey : line.hasKey field.key = true)
    (hline : line.IsIndented) (hbody : ∀ l ∈ body, field.style.continues line.column l = true)
    (hbehind : field.style.Ends line.column behind) (added : Nat → List Line) :
    field.fill (before ++ line :: (body ++ behind)) before.length =
      .ok (before ++ ((KeyEdit.ofField field added).write line body behind ++ behind)) := by
  have hcolumn := BlockStyle.column_eq h.style line
  have hprefix := Line.keyPrefix_eq hline (Line.not_isBlank_of_hasKey hkey)
  have hfound : field.probe.found (before ++ line :: (body ++ behind))
      (Block.locate field.style (before ++ line :: (body ++ behind)) before.length) =
        (line :: (body ++ behind.take field.lookahead)).any (hasInfix field.path) :=
    Probe.found_around hcolumn hbody hbehind
  simp only [fill, hfound, KeyEdit.ofField]
  split
  · simp
  · have hspliced := splice_locate field.style before (body ++ behind)
      (field.render (line.leading ++ line.marker) line.column) line
    rw [hcolumn, hbehind.dropWhile hbody, List.append_assoc] at hspliced
    rw [lineAt_length, hprefix, ← render_withEntry]
    exact congrArg Except.ok hspliced

theorem Values.fillArgs_eq
    (hfound : (Container.manager? (before ++ line :: (body ++ behind))).bind
      (·.key? (before ++ line :: (body ++ behind)) "args".toList) = some before.length)
    (hbody : ∀ l ∈ body, BlockStyle.sequence.continues line.column l = true)
    (hbehind : BlockStyle.sequence.Ends line.column behind) :
    fillArgs (before ++ line :: (body ++ behind)) =
      before ++ (KeyEdit.args.write line body behind ++ behind) := by
  have hcolumn : BlockStyle.sequence.column line = line.column := rfl
  have hprobe := @Probe.found_around argsProbe .sequence before body behind line hcolumn hbody
    hbehind
  rw [argsProbe, List.take_zero, List.append_nil] at hprobe
  rw [fillArgs, hfound]
  simp only [isEmpty_locate, bodyOf_locate, BlockStyle.body, hcolumn, hbehind.takeWhile hbody,
    argsProbe, hprobe, KeyEdit.args]
  split
  · simp
  · rw [splice_locate, hcolumn, hbehind.dropWhile hbody, locate_around, lineAt_length,
      List.append_assoc]
    rfl

end Found

namespace FindsItem

variable {key : Text} {ls start front inner behind rest : List Line} {dash line : Line}
  (h : FindsItem Container.managerName ls start dash inner behind)

include h

theorem eq_append : ls = start ++ (dash :: inner ++ behind) := h.eq

theorem take_start : ls.take start.length = start := by
  rw [h.eq, List.take_left]

theorem drop_stop : ls.drop (start.length + (dash :: inner).length) = behind := by
  rw [h.eq, ← List.length_append, ← List.cons_append, ← List.append_assoc, List.drop_left]

/-- What a lawful edit makes of an item of an indented document. -/
theorem result_run {edit : KeyEdit} (hedit : edit.IsLawful) (hindented : ∀ l ∈ ls, l.IsIndented) :
    edit.Result dash.column behind (dash :: inner)
      (edit.run dash.column behind (dash :: inner)) := by
  refine hedit.result_run (fun l hl => hindented l ?_) h.stops (Line.indent_lt_column h.item.item)
  rw [h.eq_append]
  exact List.mem_append_right start (List.mem_append_left behind hl)

theorem manager?_eq : Container.manager? ls =
    some ⟨start.length, start.length + (dash :: inner).length, dash.column⟩ := by
  have hlength : start.length + (dash :: inner).length = start.length + 1 + inner.length := by
    rw [List.length_cons]
    omega
  rw [hlength]
  exact h.find?_eq

theorem key?_eq (hitem : dash :: inner = front ++ line :: rest)
    (hfront : ∀ l ∈ front, l.isDirect dash.column key = false)
    (hline : line.isDirect dash.column key = true) :
    Container.key? ⟨start.length, start.length + (dash :: inner).length, dash.column⟩ ls key =
      some (start ++ front).length := by
  rw [h.eq, List.length_cons, Nat.add_comm inner.length, ← Nat.add_assoc]
  exact Container.key?_around hitem hfront hline

theorem key?_eq_none (hitem : ∀ l ∈ dash :: inner, l.isDirect dash.column key = false) :
    Container.key? ⟨start.length, start.length + (dash :: inner).length, dash.column⟩ ls key =
      none := by
  rw [h.eq, List.length_cons, Nat.add_comm inner.length, ← Nat.add_assoc]
  exact Container.key?_around_eq_none hitem

theorem exists_of_key? {i : Nat} (hkey : Container.key?
    ⟨start.length, start.length + (dash :: inner).length, dash.column⟩ ls key = some i) :
    ∃ front line rest, dash :: inner = front ++ line :: rest ∧
      (∀ l ∈ front, l.isDirect dash.column key = false) ∧
      line.isDirect dash.column key = true ∧ i = (start ++ front).length := by
  rcases exists_first (Line.isDirect dash.column key) (dash :: inner) with
    hnone | ⟨front, line, rest, hitem, hfront, hline⟩
  · rw [h.key?_eq_none hnone] at hkey
    cases hkey
  · exact ⟨front, line, rest, hitem, hfront, hline,
      Option.some.inj (hkey.symm.trans (h.key?_eq hitem hfront hline))⟩

end FindsItem

namespace ManagerField

variable {field : ManagerField} {ls before body start inner behind : List Line} {line dash : Line}

theorem fill_of_key
    (hfound : (Container.manager? (before ++ line :: (body ++ behind))).bind
      (·.key? (before ++ line :: (body ++ behind)) field.key) = some before.length)
    (hkey : line.hasKey field.key = true) (hline : line.IsIndented)
    (hbody : ∀ l ∈ body, field.style.continues line.column l = true)
    (hbehind : field.style.Ends line.column behind) :
    field.fill (before ++ line :: (body ++ behind)) =
      .ok (before ++ (field.edit.write line body behind ++ behind)) := by
  cases field with
  | env =>
      obtain ⟨container, hcontainer, hat⟩ := Option.bind_eq_some_iff.1 hfound
      have hat : container.key? _ Values.env.key = some before.length := hat
      simp only [fill, Values.fillEnv, hcontainer, hat]
      exact ValuesField.fill_eq Values.isEditable_env hkey hline hbody hbehind _
  | resources =>
      have hat : Option.bind _ (Container.key? · _ Values.resources.key) = _ := hfound
      simp only [fill, Values.fillResources, hat]
      exact ValuesField.fill_eq Values.isEditable_resources hkey hline hbody hbehind _
  | securityContext =>
      have hat : Option.bind _ (Container.key? · _ Values.containerSecurityContext.key) = _ :=
        hfound
      have hmapping : ∀ l ∈ body, l.isDeeper line.column = true := by
        rw [← continues_mapping]
        exact hbody
      have haccount : Values.isBeforeServiceAccount (before ++ line :: (body ++ behind))
          before.length = behind.head?.any (Line.isAccount line.column) := by
        rw [isBeforeServiceAccount_around, precedesAccount_append_of_deeper hmapping,
          precedesAccount, hbehind.stops.dropWhile]
        rfl
      simp only [fill, Values.fillContainerSecurityContext, hat, haccount, edit,
        KeyEdit.securityContext]
      split
      · simp
      · exact ValuesField.fill_eq Values.isEditable_containerSecurityContext hkey hline hbody
          hbehind _
  | args => exact congrArg Except.ok (Values.fillArgs_eq hfound hbody hbehind)

theorem fill_of_no_manager (h : Container.manager? ls = none) : field.fill ls = .ok ls := by
  cases field with
  | env => simp only [fill, Values.fillEnv, h]
  | resources => simp only [fill, Values.fillResources, h, Option.bind_none]
  | securityContext => simp only [fill, Values.fillContainerSecurityContext, h, Option.bind_none]
  | args => simp only [fill, Values.fillArgs, h, Option.bind_none]

theorem fill_of_no_key (h : FindsItem Container.managerName ls start dash inner behind)
    (hitem : ∀ l ∈ dash :: inner, l.isDirect dash.column field.key = false) :
    field.fill ls =
      .ok (start ++ (dash :: inner ++ field.edit.added dash.column ++ behind)) := by
  have hmanager := h.manager?_eq
  have hnone := h.key?_eq_none hitem
  have hbind : (Container.manager? ls).bind (·.key? ls field.key) = none := by
    rw [hmanager, Option.bind_some, hnone]
  have hsame : ls = start ++ (dash :: inner ++ [] ++ behind) := by
    rw [List.append_nil, h.eq_append]
  cases field with
  | env =>
      have hnone : Container.key? _ ls Values.env.key = none := hnone
      have hsplit : ls = (start ++ dash :: inner) ++ behind := by
        rw [h.eq_append, List.append_assoc]
      simp only [fill, Values.fillEnv, hmanager, hnone]
      rw [ValuesField.insert, splice, ← List.length_append, hsplit, List.take_left, List.drop_left]
      simp [edit, KeyEdit.env, KeyEdit.ofField]
  | resources =>
      have hbind : (Container.manager? ls).bind (·.key? ls Values.resources.key) = none := hbind
      rw [fill, Values.fillResources, hbind]
      exact congrArg Except.ok hsame
  | securityContext =>
      have hbind : (Container.manager? ls).bind
        (·.key? ls Values.containerSecurityContext.key) = none := hbind
      rw [fill, Values.fillContainerSecurityContext, hbind]
      exact congrArg Except.ok hsame
  | args =>
      have hbind : (Container.manager? ls).bind (·.key? ls "args".toList) = none := hbind
      have hargs : Values.fillArgs ls = ls := by rw [Values.fillArgs, hbind]
      exact congrArg Except.ok (hargs.trans hsame)

/-- A pass is an edit of the manager's item. -/
theorem fill_eq (h : FindsItem Container.managerName ls start dash inner behind)
    (hindented : ∀ l ∈ ls, l.IsIndented) : field.fill ls =
      .ok (start ++ (field.edit.run dash.column behind (dash :: inner) ++ behind)) := by
  rcases field.edit.exists_block dash.column (dash :: inner) with
    hnone | ⟨front, line, body, back, hitem, hfront, hline, hbody, hback⟩
  · rw [KeyEdit.run_of_forall hnone]
    rw [key_edit] at hnone
    exact fill_of_no_key h hnone
  · have hsplit : ls = (start ++ front) ++ line :: (body ++ (back ++ behind)) := by
      rw [h.eq, ← List.cons_append, hitem]
      simp
    rw [hitem, KeyEdit.run_of_not_isDirect hfront, KeyEdit.run_block hline hbody hback]
    rw [key_edit] at hfront hline
    rw [style_edit] at hbody hback
    obtain ⟨hcolumn, hkey⟩ := Line.isDirect_iff.1 hline
    have hfound : (Container.manager? ls).bind (·.key? ls field.key) =
        some (start ++ front).length := by
      rw [h.manager?_eq, Option.bind_some, h.key?_eq hitem hfront hline]
    have hends := hback.append (h.stops.ends (Line.indent_lt_column h.item.item) field.style)
    rw [← hcolumn] at hbody hends
    have hline := hindented line (by rw [hsplit]; simp)
    rw [hsplit] at hfound ⊢
    rw [fill_of_key hfound hkey hline hbody hends]
    simp

end ManagerField

end OperatorChart
