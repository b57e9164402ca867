import OperatorChart.Proofs.FieldIdempotence
/-!
# What the passes over the manager keep

A pass over a key of the manager replaces the block of this key, or adds the key at the end of the
container, and keeps every line in front of what it replaces and behind it. Main statement: what is
replaced stands within the container, and holds no part of another key with its value.
-/

namespace OperatorChart

open Text

/-- Whether lines differ within the manager's container only, and not at all without a manager. -/
structure ManagerOnly (ls ls' : List Line) : Prop where
  none : Container.manager? ls = none → ls' = ls
  some : ∀ container, Container.manager? ls = some container →
    ∃ item, ls' = ls.take container.start ++ item ++ ls.drop container.stop

/-- Whether the lines `first`, …, `stop - 1` are what a pass over a key of the manager may replace:
the block of the key, or nothing at the end of a container without an environment. -/
structure ManagerField.Targets (field : ManagerField) (ls : List Line) (container : Container)
    (first stop : Nat) : Prop where
  within : container.start ≤ first ∧ first ≤ stop ∧ stop ≤ container.stop
  place : (field = .env ∧ container.key? ls field.key = none ∧
      first = container.stop ∧ stop = container.stop) ∨
    (container.key? ls field.key = some first ∧
      stop = (Block.locate field.style ls first).stop)
  spares : ∀ i key, container.start ≤ i → i < container.stop → i ≠ first →
    (lineAt ls i).isDirect container.column key = true →
    (lineAt ls i).isDirective = false → (lineAt ls i).isComment = false →
    ∀ style ≠ BlockStyle.item, (Block.locate style ls i).stop ≤ first ∨ stop ≤ i

section Parts

variable {style : BlockStyle} {column : Nat} {before after ls replaced behind new start inner item :
  List Line} {line dash : Line}

theorem BlockStyle.Ends.length_body_le (h : style.Ends column behind) (ls : List Line) :
    (style.body column (ls ++ behind)).length ≤ ls.length := by
  induction ls with
  | nil =>
      have hnone : ([] ++ behind).takeWhile (style.continues column) = [] := h.takeWhile (by simp)
      rw [BlockStyle.body, hnone, List.length_nil]
  | cons l ls ih =>
      rw [List.cons_append, BlockStyle.body]
      cases hl : style.continues column l with
      | true =>
          rw [List.takeWhile_cons_of_pos hl, List.length_cons, List.length_cons]
          exact Nat.succ_le_succ ih
      | false =>
          rw [List.takeWhile_cons_of_neg (by simp [hl])]
          exact Nat.zero_le _

theorem Block.stop_locate_le_of_ends {i : Nat} (hstyle : style ≠ .item) (hi : i < before.length)
    (hcolumn : (lineAt (before ++ behind) i).column = column) (h : style.Ends column behind) :
    (Block.locate style (before ++ behind) i).stop ≤ before.length := by
  obtain ⟨above, rest, hbefore, rfl⟩ := exists_around hi
  generalize lineAt before above.length = line at hbefore
  subst hbefore
  rw [List.append_assoc, List.cons_append] at hcolumn ⊢
  rw [lineAt_length] at hcolumn
  have hkey : style.column line = column := (BlockStyle.column_eq hstyle line).trans hcolumn
  have hle := h.length_body_le rest
  rw [locate_around, hkey, List.length_append, List.length_cons]
  dsimp only
  omega

theorem lineAt_mem_of_lt {i : Nat} (hle : before.length ≤ i) (hlt : i < before.length + ls.length)
    (behind : List Line) : lineAt (before ++ (ls ++ behind)) i ∈ ls := by
  obtain ⟨k, rfl⟩ : ∃ k, i = before.length + k := ⟨i - before.length, by omega⟩
  have hk : k < ls.length := by omega
  have hline : lineAt (before ++ (ls ++ behind)) (before.length + k) = ls[k] := by
    rw [lineAt, List.getD_eq_getElem?_getD, List.getElem?_append_right (by omega),
      Nat.add_sub_cancel_left, List.getElem?_append_left hk]
    simp [hk]
  rw [hline]
  exact List.getElem_mem hk

theorem splice_append (before replaced behind new : List Line) :
    splice (before ++ (replaced ++ behind)) before.length (before.length + replaced.length) new =
      before ++ (new ++ behind) := by
  rw [splice, List.take_left, ← List.append_assoc before replaced, ← List.length_append,
    List.drop_left, List.append_assoc]

namespace FindsItem

variable (h : FindsItem Container.managerName ls start dash inner behind)

include h

theorem managerOnly (item : List Line) : ManagerOnly ls (start ++ (item ++ behind)) := by
  refine ⟨fun hnone => ?_, fun container hcontainer => ⟨item, ?_⟩⟩
  · rw [h.manager?_eq] at hnone
    cases hnone
  · rw [h.manager?_eq] at hcontainer
    obtain rfl := Option.some.inj hcontainer
    rw [h.take_start, h.drop_stop, List.append_assoc]

end FindsItem

end Parts

/-! ## The passes -/

theorem ManagerOnly.of_no_manager {ls : List Line} (h : Container.manager? ls = .none) :
    ManagerOnly ls ls :=
  ⟨fun _ => rfl, fun _ hcontainer => by rw [h] at hcontainer; cases hcontainer⟩

namespace ManagerField

variable {field : ManagerField} {ls ls' start inner behind front body back : List Line}
  {dash line : Line}

theorem targets_block (h : FindsItem Container.managerName ls start dash inner behind)
    (hitem : dash :: inner = front ++ (line :: body ++ back))
    (hfront : ∀ l ∈ front, l.isDirect dash.column field.key = false)
    (hline : line.isDirect dash.column field.key = true)
    (hbody : ∀ l ∈ body, field.style.continues dash.column l = true)
    (hback : field.style.Ends dash.column back) :
    field.Targets ls ⟨start.length, start.length + (dash :: inner).length, dash.column⟩
      (start ++ front).length ((start ++ front).length + (line :: body).length) := by
  have hmanaged : field.key ∈ managedKeys := field.key_edit ▸ field.isLawful_edit.managed
  have hstyle : field.style ≠ .item := field.style_edit ▸ field.isLawful_edit.style
  have hsplit : ls = (start ++ front) ++ (line :: (body ++ (back ++ behind))) := by
    rw [h.eq_append, hitem]
    simp
  have hlength : (dash :: inner).length = front.length + (body.length + 1 + back.length) := by
    rw [hitem]
    simp only [List.length_append, List.length_cons]
  have hfound := h.key?_eq hitem hfront hline
  have hends := hback.append (h.stops.ends (Line.indent_lt_column h.item.item) field.style)
  have hcolumn := (Line.isDirect_iff.1 hline).1
  refine ⟨?_, .inr ⟨hfound, ?_⟩,
    fun i key hle hlt hne hdirect hdirective hcomment style hstyle => ?_⟩
  · dsimp only
    rw [hlength, List.length_append, List.length_cons]
    omega
  · rw [hsplit, locate_around]
    dsimp only
    have hkey : field.style.column line = dash.column :=
      (BlockStyle.column_eq hstyle line).trans hcolumn
    rw [hkey, BlockStyle.body, hends.takeWhile hbody, List.length_cons]
    omega
  · by_cases hlt' : i < (start ++ front).length
    · left
      rw [hsplit] at hdirect ⊢
      refine Block.stop_locate_le_of_ends hstyle hlt' (Line.isDirect_iff.1 hdirect).1 ?_
      rintro l ⟨⟩
      rw [← Bool.not_eq_true]
      intro hcontinues
      rw [not_isDirect_of_continues hcontinues (Nat.le_refl _) hmanaged] at hline
      cases hline
    · right
      rw [← Nat.not_lt]
      intro hinside
      have hmem : lineAt ls i ∈ body := by
        have hsplit' : ls = (start ++ front ++ [line]) ++ (body ++ (back ++ behind)) := by
          rw [hsplit]
          simp
        rw [hsplit']
        rw [List.length_cons] at hinside
        have hfirst : (start ++ front ++ [line]).length = (start ++ front).length + 1 := by
          rw [List.length_append, List.length_singleton]
        exact lineAt_mem_of_lt (by omega) (by omega) _
      have hright := Line.lt_column_of_continues (hbody _ hmem) hdirective hcomment
      have hat := (Line.isDirect_iff.1 hdirect).1
      dsimp only at hat
      omega

theorem targets_end (h : FindsItem Container.managerName ls start dash inner behind)
    (hitem : ∀ l ∈ dash :: inner, l.isDirect dash.column env.key = false) :
    env.Targets ls ⟨start.length, start.length + (dash :: inner).length, dash.column⟩
      (start.length + (dash :: inner).length) (start.length + (dash :: inner).length) := by
  have hnone := h.key?_eq_none hitem
  have hsplit : ls = (start ++ dash :: inner) ++ behind := by
    rw [h.eq_append]
    simp
  have hlength : start.length + (dash :: inner).length = (start ++ dash :: inner).length :=
    List.length_append.symm
  refine ⟨by dsimp only; omega, .inl ⟨rfl, hnone, rfl, rfl⟩,
    fun i key hle hlt hne hdirect _ _ style hstyle => .inl ?_⟩
  dsimp only at hlt hdirect
  rw [hlength] at hlt ⊢
  rw [hsplit] at hdirect ⊢
  exact Block.stop_locate_le_of_ends hstyle hlt (Line.isDirect_iff.1 hdirect).1
    (h.stops.ends (Line.indent_lt_column h.item.item) style)

/-- What an edit makes of the manager's item stands in the place of one block of lines. -/
theorem exists_targets_of_result (h : FindsItem Container.managerName ls start dash inner behind)
    {item : List Line} (hresult : field.edit.Result dash.column behind (dash :: inner) item) :
    item = dash :: inner ∨ ∃ first stop new, start ++ (item ++ behind) = splice ls first stop new ∧
      field.Targets ls ⟨start.length, start.length + (dash :: inner).length, dash.column⟩
        first stop := by
  generalize hold : dash :: inner = old at hresult
  cases hresult with
  | same => exact .inl rfl
  | @block front body back value line line' hfront hline hbody hback hwrites =>
      rw [key_edit] at hfront hline
      rw [style_edit] at hbody hback
      refine .inr ⟨(start ++ front).length, (start ++ front).length + (line :: body).length,
        line' :: value, ?_, hold ▸ targets_block h hold hfront hline hbody hback⟩
      have hsplit : ls = (start ++ front) ++ ((line :: body) ++ (back ++ behind)) := by
        rw [h.eq_append, hold]
        simp
      rw [hsplit, splice_append]
      simp
  | @added _ rest first hnone hadded hadds =>
      cases field with
      | env =>
          subst hold
          refine .inr ⟨start.length + (dash :: inner).length, start.length + (dash :: inner).length,
            first :: rest, ?_, targets_end h hnone⟩
          have hspliced := splice_append (start ++ dash :: inner) [] behind (first :: rest)
          rw [List.length_append, List.length_nil, Nat.add_zero, List.nil_append,
            List.append_assoc, ← h.eq_append] at hspliced
          rw [hspliced]
          simp
      | resources => cases hadded
      | securityContext => cases hadded
      | args => cases hadded

theorem exists_targets (hls : AreIndented ls) (h : field.fill ls = .ok ls') : ls' = ls ∨
    ∃ container first stop new, Container.manager? ls = some container ∧
      field.Targets ls container first stop ∧ ls' = splice ls first stop new := by
  cases hmanager : Container.manager? ls with
  | none =>
      rw [fill_of_no_manager hmanager] at h
      exact .inl (Except.ok.inj h).symm
  | some container =>
      obtain ⟨start, dash, inner, behind, hfinds, -⟩ := Container.exists_findsItem hmanager
      have hresult := hfinds.result_run field.isLawful_edit hls.indented
      rw [hfinds.manager?_eq] at hmanager
      obtain rfl := Option.some.inj hmanager
      rw [fill_eq hfinds hls.indented] at h
      obtain rfl := Except.ok.inj h
      rcases exists_targets_of_result hfinds hresult with hsame | ⟨first, stop, new, hnew, htargets⟩
      · rw [hsame]
        exact .inl hfinds.eq_append.symm
      · exact .inr ⟨_, first, stop, new, rfl, htargets, hnew⟩

theorem managerOnly_fill (hls : AreIndented ls) (h : field.fill ls = .ok ls') :
    ManagerOnly ls ls' := by
  cases hmanager : Container.manager? ls with
  | none =>
      rw [fill_of_no_manager hmanager] at h
      obtain rfl := Except.ok.inj h
      exact .of_no_manager hmanager
  | some container =>
      obtain ⟨start, dash, inner, behind, hfinds, -⟩ := Container.exists_findsItem hmanager
      rw [fill_eq hfinds hls.indented] at h
      obtain rfl := Except.ok.inj h
      exact hfinds.managerOnly _

end ManagerField

namespace Values

variable {ls ls' : List Line}

theorem managerOnly_fillImage (h : fillImage ls = .ok ls') : ManagerOnly ls ls' := by
  cases hmanager : Container.manager? ls with
  | none =>
      rw [fillImage, hmanager] at h
      obtain rfl := Except.ok.inj h
      exact .of_no_manager hmanager
  | some container =>
      obtain ⟨start, dash, inner, behind, hfinds, -⟩ := Container.exists_findsItem hmanager
      have hsame := hfinds.managerOnly (dash :: inner)
      rw [← hfinds.eq_append] at hsame
      have hmanager := hfinds.manager?_eq
      rcases exists_first (Line.isDirect dash.column "image".toList) (dash :: inner) with
        hnone | ⟨front, line, back, hitem, hfront, hline⟩
      · simp only [fillImage, hmanager, hfinds.key?_eq_none hnone] at h
        obtain rfl := Except.ok.inj h
        exact hsame
      · simp only [fillImage, hmanager, hfinds.key?_eq hitem hfront hline] at h
        split at h
        · obtain rfl := Except.ok.inj h
          exact hsame
        · cases hstart : keyPrefix (lineAt ls (start ++ front).length) with
          | error e => rw [hstart] at h; cases h
          | ok text =>
              rw [hstart] at h
              obtain rfl := Except.ok.inj h
              have hreplaced := replaceImage_around start front back behind
                (imageLines text dash.column) line dash.column
              rw [← hitem, ← hfinds.eq_append] at hreplaced
              rw [hreplaced]
              simpa using hfinds.managerOnly
                (front.filter (fun l => !isPullPolicy dash.column l) ++
                  (imageLines text dash.column ++
                    back.filter (fun l => !isPullPolicy dash.column l)))

end Values

namespace Pass

def image : Pass :=
  ofEdit "image" Values.fillImage

def manager : List Pass :=
  [image, ManagerField.env.pass, ManagerField.securityContext.pass, ManagerField.resources.pass,
    ManagerField.args.pass]

theorem mem_all_of_mem_manager {pass : Pass} (h : pass ∈ manager) : pass ∈ all := by
  simp only [manager, List.mem_cons, List.not_mem_nil, or_false] at h
  rcases h with rfl | rfl | rfl | rfl | rfl
  · simp [image, all]
  · exact ManagerField.env.pass_mem_all
  · exact ManagerField.securityContext.pass_mem_all
  · exact ManagerField.resources.pass_mem_all
  · exact ManagerField.args.pass_mem_all

theorem managerOnly_of_edit {pass : Pass} {context : PassContext} {t : Text}
    {f : List Line → Except EditError (List Line)}
    (hrun : pass.run context t = (f t.lines).map Text.ofLines)
    (hkeeps : ∃ ls, f t.lines = .ok ls ∧ AreIndented ls)
    (honly : ∀ ls, f t.lines = .ok ls → ManagerOnly t.lines ls) :
    ∃ out, pass.run context t = .ok out ∧ ManagerOnly t.lines out.lines := by
  obtain ⟨ls, hfill, hls⟩ := hkeeps
  refine ⟨Text.ofLines ls, by rw [hrun, hfill]; rfl, ?_⟩
  rw [lines_ofLines hls.toAreLines]
  exact honly ls hfill

theorem managerOnly_of_mem_manager (context : PassContext) {t : Text} (ht : t.IsIndented) :
    ∀ pass ∈ manager, ∃ out, pass.run context t = .ok out ∧ ManagerOnly t.lines out.lines := by
  have hls := ht.areIndented
  have hfield : ∀ field : ManagerField, ∃ out,
      field.pass.run context t = .ok out ∧ ManagerOnly t.lines out.lines := fun field =>
    managerOnly_of_edit (field.run_pass context t) (field.areIndented_fill hls) fun _ =>
      ManagerField.managerOnly_fill hls
  simp only [manager, List.forall_mem_cons]
  refine ⟨?_, hfield .env, hfield .securityContext, hfield .resources, hfield .args, by simp⟩
  exact managerOnly_of_edit rfl (Values.indented_fillImage hls) fun _ =>
    Values.managerOnly_fillImage

/-- On a text indented by spaces and tabs, the passes over the manager change no line outside of
its container, and nothing when there is none. All but the one over the image replace one block of
lines, the block of their key or an empty one at the end of the container, and keep every other key
with its value. -/
theorem manager_frames (context : PassContext) {t : Text} (ht : t.IsIndented) :
    (∀ pass ∈ manager, ∃ out, pass.run context t = .ok out ∧
      (Container.manager? t.lines = none → out = t) ∧
      ∀ container, Container.manager? t.lines = some container → ∃ item, out.lines =
        t.lines.take container.start ++ item ++ t.lines.drop container.stop) ∧
    ∀ field : ManagerField, ∃ out, field.pass.run context t = .ok out ∧
      (out = t ∨ ∃ container first stop new, Container.manager? t.lines = some container ∧
        field.Targets t.lines container first stop ∧
          out.lines = splice t.lines first stop new) := by
  constructor
  · intro pass hpass
    obtain ⟨out, hrun, honly⟩ := managerOnly_of_mem_manager context ht pass hpass
    exact ⟨out, hrun, fun hnone => lines_injective (honly.none hnone), honly.some⟩
  · intro field
    obtain ⟨ls, hfill, hls⟩ := field.areIndented_fill ht.areIndented
    refine ⟨Text.ofLines ls, by rw [field.run_pass, hfill]; rfl, ?_⟩
    rw [lines_ofLines hls.toAreLines]
    rcases ManagerField.exists_targets ht.areIndented hfill with rfl | htargets
    · exact .inl (ofLines_lines t)
    · exact .inr htargets

/-- A manager between two other containers, with its arguments at the column of its keys. -/
theorem manager_frames_between :
    let context : PassContext := ⟨⟨"Deployment".toList, [], [], []⟩, "demo".toList⟩
    let t := Text.ofLines (["\t- name: first", "\t- args:", "\t  - --leader-elect", "\t  # last",
      "\t  name: manager", "\t  resources: null", "\t- name: last"].map String.toList)
    t.IsIndented ∧
      (∀ pass ∈ manager, ∃ out, pass.run context t = .ok out ∧
        (Container.manager? t.lines = none → out = t) ∧
        ∀ container, Container.manager? t.lines = some container → ∃ item, out.lines =
          t.lines.take container.start ++ item ++ t.lines.drop container.stop) ∧
      ∀ field : ManagerField, ∃ out, field.pass.run context t = .ok out ∧
        (out = t ∨ ∃ container first stop new, Container.manager? t.lines = some container ∧
          field.Targets t.lines container first stop ∧
            out.lines = splice t.lines first stop new) := by
  intro context t
  have ht : t.IsIndented := by decide +kernel
  exact ⟨ht, manager_frames context ht⟩

end Pass

end OperatorChart
