import OperatorChart.Proofs.NamedItemEdits
/-!
# Edits of the keys of an item

An edit of an item rewrites the block of the first direct key with a given name, or adds the key at
the end of an item that has none. Here such edits are recursions on the lines of the item. Main
statements: an edit leaves what it has made of an item alone, and the edits of two keys can be made
in either order.
-/

namespace OperatorChart

open Text

/-! ## Direct keys -/

section Direct

variable {column : Nat} {key : Text} {line : Line}

/-- Whether a line is the service account of a pod whose keys start at `column`. -/
def Line.isAccount (column : Nat) (line : Line) : Bool :=
  line.indent == column && line.hasKey "serviceAccountName".toList

theorem Line.not_isAccount_of_hasKey (hkey : key ∈ managedKeys) (h : line.hasKey key = true) :
    line.isAccount column = false := by
  have hkeys : ∀ key ∈ managedKeys, key ≠ "serviceAccountName".toList := by decide
  rw [Line.isAccount, Line.not_hasKey_of_hasKey h (hkeys key hkey), Bool.and_false]

end Direct

/-! ## Edits -/

structure KeyEdit where
  /-- The name of the key. -/
  key : Text
  /-- How the block of the key ends. -/
  style : BlockStyle
  /-- What the edit looks for in a block and behind it. -/
  probe : Probe
  /-- A key and the rest of its block rewritten, given the lines behind the block. -/
  write : Line → List Line → List Line → List Line
  /-- What is added to an item without the key, whose keys start at a column. -/
  added : Nat → List Line

namespace KeyEdit

/-- The lines of an item with an edit made, given the column of its keys and the lines behind the
item. -/
def run (edit : KeyEdit) (column : Nat) (behind : List Line) : List Line → List Line
  | [] => edit.added column
  | line :: rest =>
    if line.isDirect column edit.key then
      edit.write line (rest.takeWhile (edit.style.continues column))
        (rest.dropWhile (edit.style.continues column) ++ behind) ++
          rest.dropWhile (edit.style.continues column)
    else line :: edit.run column behind rest

def Ignores (edit : KeyEdit) (ls : List Line) : Prop :=
  edit.probe.lookahead = 0 ∨ ∀ l ∈ ls, ¬ edit.probe.marker <:+: l

/-- Whether an edit of a block with its key at `column` takes lines behind it for the same. -/
structure SeesSame (edit : KeyEdit) (column : Nat) (behind behind' : List Line) : Prop where
  account : behind.head?.any (Line.isAccount column) = behind'.head?.any (Line.isAccount column)
  old : edit.Ignores behind
  new : edit.Ignores behind'

/-- What an edit writes in the place of a block: the key again with lines that belong to it, none
of them a key that another edit looks at, and written once and for all. -/
structure Writes (edit : KeyEdit) (line : Line) (body : List Line) (line' : Line)
    (value behind : List Line) : Prop extends IsReplacement edit.key line body line' value behind
    where
  continues : ∀ l ∈ value, edit.style.continues line.column l = true
  settled : ∀ behind', edit.write line' value behind' = line' :: value
  no_context : ∀ l ∈ value, l.isItem = false →
    l.hasKey Values.podSecurityContext.key = false
  no_pod : line'.isPod (value ++ behind) = false

structure Adds (edit : KeyEdit) (column : Nat) (first : Line) (rest : List Line) : Prop where
  indent : first.indent = column
  no_item : ∀ l ∈ first :: rest, l.isItem = false
  writes : ∀ behind, edit.Writes first rest first rest behind

structure IsLawful (edit : KeyEdit) : Prop where
  managed : edit.key ∈ managedKeys
  style : edit.style ≠ .item
  write : ∀ {line : Line} {body behind : List Line}, line.hasKey edit.key = true →
    (∀ l ∈ line :: body, l.IsIndented) →
    (∀ l ∈ body, edit.style.continues line.column l = true) → Stops line.column behind →
      edit.write line body behind = line :: body ∨ ∃ line' value,
        edit.write line body behind = line' :: value ∧ edit.Writes line body line' value behind
  added : ∀ column, edit.added column = [] ∨ ∃ first rest,
    edit.added column = first :: rest ∧ edit.Adds column first rest
  sees : ∀ {line : Line} {body behind behind' : List Line},
    edit.SeesSame line.column behind behind' →
      edit.write line body behind = edit.write line body behind'

structure Spares (edit other : KeyEdit) : Prop where
  write : ∀ {line : Line} {body behind : List Line}, other.Ignores (line :: body) →
    other.Ignores (edit.write line body behind)
  added : ∀ column, other.Ignores (edit.added column)

section Run

variable {edit other : KeyEdit} {column width : Nat} {behind behind' item item' front body back
  value ls rest : List Line} {line line' first : Line}

theorem ignores_append :
    edit.Ignores (ls ++ rest) ↔ edit.Ignores ls ∧ edit.Ignores rest := by
  simp only [Ignores, List.forall_mem_append]
  tauto

theorem run_of_not_isDirect (h : ∀ l ∈ ls, l.isDirect column edit.key = false)
    (rest : List Line) :
    edit.run column behind (ls ++ rest) = ls ++ edit.run column behind rest := by
  induction ls with
  | nil => rfl
  | cons l ls ih =>
      rw [List.forall_mem_cons] at h
      rw [List.cons_append, run, if_neg (by simp [h.1]), ih h.2, List.cons_append]

theorem run_block (hline : line.isDirect column edit.key = true)
    (hbody : ∀ l ∈ body, edit.style.continues column l = true)
    (hback : edit.style.Ends column back) :
    edit.run column behind (line :: body ++ back) =
      edit.write line body (back ++ behind) ++ back := by
  rw [List.cons_append, run, if_pos hline, hback.takeWhile hbody, hback.dropWhile hbody]

theorem Writes.isDirect (h : edit.Writes line body line' value behind)
    (hline : line.isDirect column edit.key = true) : line'.isDirect column edit.key = true := by
  rw [Line.isDirect_iff] at hline ⊢
  exact ⟨h.same_column.trans hline.1, h.new_key⟩

theorem Adds.isDirect (h : edit.Adds column first rest) :
    first.isDirect column edit.key = true := by
  refine Line.isDirect_iff.2 ⟨?_, (h.writes []).new_key⟩
  rw [← Line.indent_of_not_isItem (h.no_item first List.mem_cons_self), h.indent]

theorem run_of_forall (h : ∀ l ∈ item, l.isDirect column edit.key = false) :
    edit.run column behind item = item ++ edit.added column := by
  rw [← List.append_nil item, run_of_not_isDirect h, List.append_nil]
  rfl

theorem exists_block (edit : KeyEdit) (column : Nat) (item : List Line) :
    (∀ l ∈ item, l.isDirect column edit.key = false) ∨ ∃ front line body back,
      item = front ++ (line :: body ++ back) ∧
      (∀ l ∈ front, l.isDirect column edit.key = false) ∧
      line.isDirect column edit.key = true ∧
      (∀ l ∈ body, edit.style.continues column l = true) ∧ edit.style.Ends column back := by
  rcases exists_first (Line.isDirect column edit.key) item with
    hnone | ⟨front, line, rest, rfl, hfront, hline⟩
  · exact .inl hnone
  · refine .inr ⟨front, line, rest.takeWhile (edit.style.continues column),
      rest.dropWhile (edit.style.continues column), ?_, hfront, hline,
      fun l hl => List.mem_takeWhile_imp hl, edit.style.ends_dropWhile column rest⟩
    rw [List.cons_append, List.takeWhile_append_dropWhile]

end Run

/-! ## What an edit makes of an item -/

/-- What an edit makes of an item: the same, or the block of its key is rewritten, or the key is
added at the end. -/
inductive Result (edit : KeyEdit) (column : Nat) (behind : List Line) :
    List Line → List Line → Prop
  | same (item : List Line) : Result edit column behind item item
  | block {front body back value : List Line} {line line' : Line}
      (hfront : ∀ l ∈ front, l.isDirect column edit.key = false)
      (hline : line.isDirect column edit.key = true)
      (hbody : ∀ l ∈ body, edit.style.continues column l = true)
      (hback : edit.style.Ends column back)
      (hwrites : edit.Writes line body line' value (back ++ behind)) :
      Result edit column behind (front ++ (line :: body ++ back))
        (front ++ (line' :: value ++ back))
  | added {item rest : List Line} {first : Line}
      (hitem : ∀ l ∈ item, l.isDirect column edit.key = false)
      (hadded : edit.added column = first :: rest) (hadds : edit.Adds column first rest) :
      Result edit column behind item (item ++ first :: rest)

section Results

variable {edit other : KeyEdit} {column width : Nat} {behind behind' item item' front body back
  value ls rest : List Line} {line line' first : Line}

theorem IsLawful.result_run (h : edit.IsLawful) (hitem : ∀ l ∈ item, l.IsIndented)
    (hbehind : Stops width behind) (hlt : width < column) :
    edit.Result column behind item (edit.run column behind item) := by
  rcases edit.exists_block column item with
    hnone | ⟨front, line, body, back, rfl, hfront, hline, hbody, hback⟩
  · rw [run_of_forall hnone]
    rcases h.added column with hadded | ⟨first, rest, hadded, hadds⟩
    · rw [hadded, List.append_nil]
      exact .same item
    · rw [hadded]
      exact .added hnone hadded hadds
  · obtain ⟨rfl, hkey⟩ := Line.isDirect_iff.1 hline
    rw [run_of_not_isDirect hfront, run_block hline hbody hback]
    have hstops := (hback.append (hbehind.ends hlt edit.style)).stops
    rcases h.write hkey (fun l hl => hitem l (by simp at hl ⊢; tauto)) hbody hstops with
      hsame | ⟨line', value, hwrite, hwrites⟩
    · rw [hsame]
      exact .same _
    · rw [hwrite]
      exact .block hfront hline hbody hback hwrites

namespace Result

/-- What an edit has made of an item it leaves alone. -/
theorem run_eq (h : edit.Result column behind item item')
    (hrun : edit.run column behind item = item') : edit.run column behind item' = item' := by
  cases h with
  | same => exact hrun
  | block hfront hline hbody hback hwrites =>
      rw [run_of_not_isDirect hfront, run_block (hwrites.isDirect hline) ?_ hback, hwrites.settled]
      rw [← (Line.isDirect_iff.1 hline).1]
      exact hwrites.continues
  | @added _ rest first hitem hadded hadds =>
      have hwrites := hadds.writes behind
      have hdirect := hadds.isDirect
      have hrest : ∀ l ∈ rest, edit.style.continues column l = true := by
        rw [← (Line.isDirect_iff.1 hdirect).1]
        exact hwrites.continues
      have hfirst : edit.run column behind (first :: rest ++ []) = _ :=
        run_block hdirect hrest (by simp [BlockStyle.Ends])
      rw [hwrites.settled, List.append_nil] at hfirst
      rw [run_of_not_isDirect hitem, hfirst]

theorem head?_eq (h : edit.Result column behind item item') : item'.head? = item.head? ∨
    (∀ l, item.head? = some l → l.isDirect column edit.key = true) ∧
      ∃ l', item'.head? = some l' ∧ l'.isDirect column edit.key = true := by
  cases h with
  | same => exact .inl rfl
  | @block front _ _ _ line line' hfront hline hbody hback hwrites =>
      cases front with
      | nil =>
          right
          refine ⟨?_, line', rfl, hwrites.isDirect hline⟩
          rintro l ⟨⟩
          exact hline
      | cons first front => exact .inl rfl
  | @added _ rest first hitem hadded hadds =>
      cases item with
      | nil => exact .inr ⟨by simp, first, rfl, hadds.isDirect⟩
      | cons l item => exact .inl rfl

theorem ends (h : edit.Result column behind item item') (hkey : edit.key ∈ managedKeys)
    {style : BlockStyle} (hends : style.Ends column item) : style.Ends column item' := by
  intro l hl
  rcases h.head?_eq with hsame | ⟨-, l', hl', hdirect⟩
  · rw [hsame] at hl
    exact hends l hl
  · rw [hl, Option.some.injEq] at hl'
    rw [← Bool.not_eq_true]
    intro hcontinues
    rw [← hl', not_isDirect_of_continues hcontinues (Nat.le_refl _) hkey] at hdirect
    cases hdirect

theorem account (h : edit.Result column behind item item') (hkey : edit.key ∈ managedKeys)
    (hbehind : Stops width behind) (hlt : width < column) :
    (item' ++ behind).head?.any (Line.isAccount column) =
      (item ++ behind).head?.any (Line.isAccount column) := by
  rcases h.head?_eq with hsame | ⟨hall, l', hl', hdirect⟩
  · rw [List.head?_append, List.head?_append, hsame]
  · rw [List.head?_append, hl', Option.some_or, Option.any_some,
      Line.not_isAccount_of_hasKey hkey (Line.isDirect_iff.1 hdirect).2]
    cases item with
    | cons l item =>
        exact (Line.not_isAccount_of_hasKey hkey (Line.isDirect_iff.1 (hall l rfl)).2).symm
    | nil =>
        symm
        rw [List.nil_append, Option.any_eq_false]
        intro l hl
        rw [← Bool.not_eq_true, Line.isAccount, Bool.and_eq_true, beq_iff_eq]
        rintro ⟨hindent, haccount⟩
        have hstop := hbehind l hl
        rw [← Bool.not_eq_true, Line.isDeeper_iff] at hstop
        exact hstop ⟨Line.not_isBlank_of_hasKey haccount, by omega⟩

end Result

/-! ## Two edits -/

/-- An edit that writes nothing another one looks for leaves nothing to find. -/
theorem Spares.ignores_run (h : edit.Spares other) (hitem : other.Ignores item) :
    other.Ignores (edit.run column behind item) := by
  rcases edit.exists_block column item with
    hnone | ⟨front, line, body, back, rfl, hfront, hline, hbody, hback⟩
  · rw [run_of_forall hnone, ignores_append]
    exact ⟨hitem, h.added column⟩
  · rw [ignores_append, ignores_append] at hitem
    rw [run_of_not_isDirect hfront, run_block hline hbody hback, ignores_append, ignores_append]
    exact ⟨hitem.1, h.write hitem.2.1, hitem.2.2⟩

theorem not_isDirect_block {key : Text} (hkey : key ∈ managedKeys) (hne : edit.key ≠ key)
    (hline : line.hasKey edit.key = true)
    (hbody : ∀ l ∈ body, edit.style.continues column l = true) :
    ∀ l ∈ line :: body, l.isDirect column key = false :=
  List.forall_mem_cons.2 ⟨Line.not_isDirect_of_hasKey hline hne, fun l hl =>
    not_isDirect_of_continues (hbody l hl) (Nat.le_refl _) hkey⟩

theorem IsLawful.not_isDirect_added (h : edit.IsLawful) {key : Text} (hkey : key ∈ managedKeys)
    (hne : edit.key ≠ key) : ∀ l ∈ edit.added column, l.isDirect column key = false := by
  rcases h.added column with hadded | ⟨first, rest, hadded, hadds⟩
  · simp [hadded]
  · rw [hadded]
    have hwrites := hadds.writes []
    have hcontinues := hwrites.continues
    rw [(Line.isDirect_iff.1 hadds.isDirect).1] at hcontinues
    exact not_isDirect_block hkey hne hwrites.new_key hcontinues

variable (hedit : edit.IsLawful) (hother : other.IsLawful) (hne : edit.key ≠ other.key)
  (hspares' : other.Spares edit) (hbehind : Stops width behind) (hlt : width < column)

include hedit hother hne hspares' hbehind hlt

theorem run_comm_of_isDirect (hline : line.isDirect column edit.key = true)
    (hitem : ∀ l ∈ line :: rest, l.IsIndented) (hignores : edit.Ignores (line :: rest ++ behind)) :
    other.run column behind (edit.run column behind (line :: rest)) =
      edit.run column behind (other.run column behind (line :: rest)) := by
  have hends := edit.style.ends_dropWhile column rest
  have hbody : ∀ l ∈ rest.takeWhile (edit.style.continues column),
      edit.style.continues column l = true := fun l hl => List.mem_takeWhile_imp hl
  have hrest := List.takeWhile_append_dropWhile (p := edit.style.continues column) (l := rest)
  generalize rest.takeWhile (edit.style.continues column) = body at hbody hrest
  generalize rest.dropWhile (edit.style.continues column) = back at hends hrest
  subst hrest
  obtain ⟨rfl, hkey⟩ := Line.isDirect_iff.1 hline
  rw [← List.cons_append] at hitem hignores ⊢
  rw [List.forall_mem_append] at hitem
  rw [ignores_append, ignores_append] at hignores
  obtain ⟨⟨-, hback⟩, hbehind'⟩ := hignores
  have hresult : other.Result line.column behind back (other.run line.column behind back) :=
    hother.result_run hitem.2 hbehind hlt
  have hsees : edit.SeesSame line.column (other.run line.column behind back ++ behind)
      (back ++ behind) :=
    ⟨hresult.account hother.managed hbehind hlt,
      ignores_append.2 ⟨hspares'.ignores_run hback, hbehind'⟩, ignores_append.2 ⟨hback, hbehind'⟩⟩
  have hblock := not_isDirect_block hother.managed hne hkey hbody
  have hwritten : ∀ l ∈ edit.write line body (back ++ behind),
      l.isDirect line.column other.key = false := by
    rcases hedit.write hkey hitem.1 hbody (hends.append (hbehind.ends hlt edit.style)).stops with
      hsame | ⟨line', value, hwrite, hwrites⟩
    · rwa [hsame]
    · rw [hwrite]
      exact not_isDirect_block hother.managed hne hwrites.new_key hwrites.continues
  rw [run_block hline hbody hends, run_of_not_isDirect hwritten, run_of_not_isDirect hblock,
    run_block hline hbody (hresult.ends hother.managed hends), hedit.sees hsees]

/-- Edits of two keys can be made in either order, when one of them adds nothing. -/
theorem run_comm (hspares : edit.Spares other)
    (hadded : edit.added column = [] ∨ other.added column = [])
    (hitem : ∀ l ∈ item, l.IsIndented) (hignores : edit.Ignores (item ++ behind))
    (hignores' : other.Ignores (item ++ behind)) :
    other.run column behind (edit.run column behind item) =
      edit.run column behind (other.run column behind item) := by
  induction item with
  | nil =>
      have hfirst : ∀ {e e' : KeyEdit}, e.IsLawful → e'.IsLawful → e.key ≠ e'.key →
          e'.run column behind (e.added column) = e.added column ++ e'.added column :=
        fun he he' hkeys => run_of_forall (he.not_isDirect_added he'.managed hkeys)
      rw [run, run, hfirst hedit hother hne, hfirst hother hedit hne.symm]
      rcases hadded with hadded | hadded <;> rw [hadded] <;> simp
  | cons line rest ih =>
      cases hline : line.isDirect column edit.key with
      | true =>
          exact run_comm_of_isDirect hedit hother hne hspares' hbehind hlt hline hitem hignores
      | false =>
          cases hline' : line.isDirect column other.key with
          | true =>
              exact (run_comm_of_isDirect hother hedit hne.symm hspares hbehind hlt hline' hitem
                hignores').symm
          | false =>
              rw [List.cons_append, ← List.singleton_append, ignores_append] at hignores hignores'
              have hrest := ih (fun l hl => hitem l (List.mem_cons_of_mem line hl)) hignores.2
                hignores'.2
              simp only [run, hline, hline', Bool.false_eq_true, if_false, hrest]

omit hedit hother hne hspares' hbehind hlt

/-- The lines behind an item matter only as far as an edit looks at them. -/
theorem IsLawful.run_congr (h : edit.IsLawful) (hsees : edit.SeesSame column behind behind')
    (hitem : edit.Ignores item) :
    edit.run column behind item = edit.run column behind' item := by
  rcases edit.exists_block column item with
    hnone | ⟨front, line, body, back, rfl, hfront, hline, hbody, hback⟩
  · rw [run_of_forall hnone, run_of_forall hnone]
  · rw [ignores_append, ignores_append] at hitem
    have hback' : edit.SeesSame line.column (back ++ behind) (back ++ behind') := by
      refine ⟨?_, ignores_append.2 ⟨hitem.2.2, hsees.old⟩, ignores_append.2 ⟨hitem.2.2, hsees.new⟩⟩
      rw [(Line.isDirect_iff.1 hline).1, List.head?_append, List.head?_append]
      cases back with
      | nil => exact hsees.account
      | cons first back => rfl
    rw [run_of_not_isDirect hfront, run_of_not_isDirect hfront, run_block hline hbody hback,
      run_block hline hbody hback, h.sees hback']

end Results

/-! ## The item with its name -/

section Named

variable {edit : KeyEdit} {ls start inner behind item : List Line} {dash : Line}

theorem not_isNamed_of_hasKey {key : Text} {line : Line} (hkey : key ∈ managedKeys)
    (h : line.hasKey key = true) : line.isNamed Container.managerName = false := by
  have hname : ∀ key ∈ managedKeys, key ≠ "name".toList := by decide
  rw [← Bool.not_eq_true]
  exact fun hentry => hname _ hkey (Line.hasKey_unique h (Line.hasKey_of_isEntry hentry))

theorem not_isNamed_of_replacement {key : Text} {body value after : List Line} {line line' : Line}
    (hkey : key ∈ managedKeys) (h : IsReplacement key line body line' value after) :
    line.isNamed Container.managerName = false ∧
      ∀ l ∈ line' :: value, l.isNamed Container.managerName = false :=
  ⟨not_isNamed_of_hasKey hkey h.old_key, List.forall_mem_cons.2
    ⟨not_isNamed_of_hasKey hkey h.new_key, fun l hl => (h.inert l hl).not_isManagerName⟩⟩

/-- The manager's item is found again when the block of one of its keys is replaced by lines that
are not its name. -/
theorem findsItem_replace {key : Text} {style : BlockStyle} {front body back value : List Line}
    {line line' : Line} (hreplace : KeepsPlace line body line' value)
    (h : FindsItem Container.managerName ls start dash inner behind)
    (hitem : dash :: inner = front ++ (line :: body ++ back)) (hkey : key ∈ managedKeys)
    (hline : line.isDirect dash.column key = true)
    (hbody : ∀ l ∈ body, style.continues dash.column l = true)
    (hback : style.Ends dash.column back)
    (hname : ∀ l ∈ line' :: value, l.isNamed Container.managerName = false) :
    ∃ dash' inner', dash' :: inner' = front ++ (line' :: value ++ back) ∧
      dash'.indent = dash.indent ∧ dash'.column = dash.column ∧
        FindsItem Container.managerName (start ++ (front ++ (line' :: value ++ back) ++ behind))
          start dash' inner' behind := by
  obtain ⟨hcolumn, hhas⟩ := Line.isDirect_iff.1 hline
  have hstops := hback.stops
  rw [← hcolumn] at hstops hbody
  -- a name at the column of a block ends the block
  have hnone : ∀ l ∈ body, l.isNamed Container.managerName = true → l.isItem = false →
      l.indent ≠ line.column := by
    intro l hl hentry hplain
    obtain ⟨hdirective, hcomment⟩ := Line.not_isDirective_of_hasKey (by decide)
      (Line.hasKey_of_isEntry hentry)
    have hright := Line.lt_column_of_continues (hbody l hl) hdirective hcomment
    have hindent := Line.indent_of_not_isItem hplain
    omega
  obtain ⟨dash', inner', heq, hindent, hcolumn', hitem'⟩ :=
    h.item.replace hreplace hitem hcolumn hstops (not_isNamed_of_hasKey hkey hhas) hnone hname
  exact ⟨dash', inner', heq, hindent, hcolumn', h.change_item hindent hitem' heq⟩

theorem Result.findsItem
    (h : FindsItem Container.managerName ls start dash inner behind) (hkey : edit.key ∈ managedKeys)
    (hresult : edit.Result dash.column behind (dash :: inner) item) :
    ∃ dash' inner', dash' :: inner' = item ∧ dash'.indent = dash.indent ∧
      dash'.column = dash.column ∧
        FindsItem Container.managerName (start ++ (item ++ behind)) start dash' inner' behind := by
  have hlt := Line.indent_lt_column h.item.item
  generalize hitem : dash :: inner = old at hresult
  cases hresult with
  | same =>
      subst hitem
      exact ⟨dash, inner, rfl, rfl, rfl, h.change_item rfl h.item rfl⟩
  | @block front body back value line line' hfront hline hbody hback hwrites =>
      have hreplace := hwrites.toIsReplacement
      exact findsItem_replace hreplace.keepsPlace h hitem hkey hline hbody hback
        (not_isNamed_of_replacement hkey hreplace).2
  | @added _ rest first hnone hadded hadds =>
      subst hitem
      have hwrites := hadds.writes behind
      have hindent := hadds.indent
      have hcolumn := first.indent_le_column
      have hdeep : ∀ l ∈ first :: rest, l.isDeeper dash.indent = true := by
        refine List.forall_mem_cons.2 ⟨Line.isDeeper_iff.2
          ⟨Line.not_isBlank_of_hasKey hwrites.new_key, by omega⟩, fun l hl => ?_⟩
        obtain ⟨hblank, hle⟩ := hwrites.new_deep l hl
        exact Line.isDeeper_iff.2 ⟨hblank, by omega⟩
      exact ⟨dash, inner ++ first :: rest, rfl, rfl, rfl,
        h.change_item rfl (h.item.append hdeep) rfl⟩

/-! ## The pods around an item -/

theorem Writes.noPod {body value : List Line} {line line' : Line}
    (h : edit.Writes line body line' value behind) : NoPod (line' :: value) behind := by
  exact ⟨h.no_pod, noPod_of_forall h.no_context behind⟩

theorem Adds.isMove {rest : List Line} {first : Line} (hkey : edit.key ∈ managedKeys)
    (h : FindsItem Container.managerName ls start dash inner behind)
    (hadds : edit.Adds dash.column first rest) :
    IsMove (start ++ dash :: inner) [] (first :: rest) behind := by
  have hkeys : ∀ key ∈ managedKeys, (∀ entry ∈ watchedEntries, entry.1 ≠ key) ∧
      key ≠ "serviceAccountName".toList := by decide
  obtain ⟨hwatched, haccount⟩ := hkeys _ hkey
  have hwrites := hadds.writes behind
  have hcolumn := first.indent_le_column
  have hlt := Line.indent_lt_column h.item.item
  refine .of_end h.item.item h.item.deep h.stops (Line.not_isBlank_of_hasKey hwrites.new_key)
    (by rw [hadds.indent]; omega) (fun l hl => ?_) ?_ hadds.no_item
    (List.forall_mem_cons.2 ⟨Line.isInert_of_hasKey hwrites.new_key hwatched, hwrites.inert⟩)
    hwrites.indented
  · exact ⟨(hwrites.new_deep l hl).1, hcolumn.trans (hwrites.new_deep l hl).2⟩
  · exact Line.not_hasKey_of_hasKey hwrites.new_key haccount

/-- An edit of the manager's item takes no service account away from a pod in front of it. -/
theorem Result.keepsPods (hkey : edit.key ∈ managedKeys)
    (h : FindsItem Container.managerName ls start dash inner behind)
    (hresult : edit.Result dash.column behind (dash :: inner) item) :
    KeepsPods start (dash :: inner ++ behind) (item ++ behind) := by
  generalize hitem : dash :: inner = old at hresult
  cases hresult with
  | same => exact fun _ _ _ _ _ => rfl
  | @block front body back value line line' hfront hline hbody hback hwrites =>
      have hpods := (hwrites.isMove hkey (start ++ front)).pods.of_append
      simpa using hpods
  | @added _ rest first hnone hadded hadds =>
      subst hitem
      have hpods := (hadds.isMove hkey h).pods.of_append
      simpa using hpods

/-- An edit of the manager's item makes none of its lines the security context of a pod. -/
theorem Result.noPod (hkey : edit.key ∈ managedKeys)
    (h : FindsItem Container.managerName ls start dash inner behind)
    (hresult : edit.Result dash.column behind (dash :: inner) item)
    (hnone : NoPod (dash :: inner) behind) : NoPod item behind := by
  generalize hitem : dash :: inner = old at hresult hnone
  cases hresult with
  | same => exact hnone
  | @block front body back value line line' hfront hline hbody hback hwrites =>
      rw [noPod_append, noPod_append, List.append_assoc] at hnone ⊢
      exact ⟨hnone.1.change (hwrites.isMove hkey front).pods, hwrites.noPod, hnone.2.2⟩
  | @added _ rest first hfree hadded hadds =>
      subst hitem
      rw [noPod_append]
      have hpods := (hadds.isMove hkey h).pods
      refine ⟨hnone.change fun before line between heq => ?_, (hadds.writes behind).noPod⟩
      exact hpods (start ++ before) line between (by rw [heq]; simp)

end Named

end KeyEdit

end OperatorChart
