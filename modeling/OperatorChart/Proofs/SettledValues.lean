import OperatorChart.Proofs.WrittenLines
/-!
# Edits of fields on a shaped deployment

An edit of a field settles its own key and leaves what is settled about the others. A document is
ready for the edits of some lookups when it has the shape that templating expects, none of these
lookups occurs in it, and the pods' security contexts in the manager's item are keys of it.
-/

namespace OperatorChart

open Text

/-- Whether what is settled about a key stays settled when lines behind it are moved. -/
def IsStable (key : Text) (settled : Line → List Line → Prop) : Prop :=
  ∀ {above old new after}, IsMove above old new after → ∀ before line between,
    above = before ++ line :: between → line.hasKey key = true →
    settled line (between ++ (old ++ after)) → settled line (between ++ (new ++ after))

def imageSettled (line : Line) (_ : List Line) : Prop :=
  Values.imageRepository <:+: line

/-- Whether a security context in the manager's item is the pod's or is looked up in the values. -/
def contextSettled (line : Line) (rest : List Line) : Prop :=
  precedesAccount line.column rest = true ∨ Values.containerSecurityContext.IsSettled line rest

theorem isStable_imageSettled (key : Text) : IsStable key imageSettled :=
  fun _ _ _ _ _ _ h => h

theorem isStable_isSettled (key : Text) (field : ValuesField) : IsStable key field.IsSettled :=
  fun hmove _ _ _ heq _ h => h.change hmove.markers heq

theorem isStable_contextSettled :
    IsStable Values.containerSecurityContext.key contextSettled := by
  intro above old new after hmove before line between heq hkey h
  refine h.imp (fun haccount => ?_) fun hsettled => hsettled.change hmove.markers heq
  rw [hmove.pods before line between heq hkey]
  exact haccount

/-- Whether a document is ready for the edits of some lookups. -/
structure IsReady (words : List Text) (ls : List Line) : Prop where
  shaped : IsShaped ls
  tidy : ∀ l ∈ ls, l.IsTidy words
  pods : PodsAreKeys ls

/-- What an edit of one key of the manager does: the document is ready for the lookups that are
left, and the other keys are as settled as before. -/
structure Edits (touched : Text) (words : List Text) (ls ls' : List Line) : Prop where
  ready : IsReady words ls'
  settled : ∀ key ∈ managedKeys, key ≠ touched → ∀ settled, IsStable key settled →
    KeySettled key settled ls → KeySettled key settled ls'
  has : ∀ key ∈ managedKeys, key ≠ touched → ManagerHas key ls → ManagerHas key ls'

section Edits

variable {words : List Text} {touched : Text} {ls above old new after : List Line}

theorem Edits.same {w : Text} (h : IsReady (w :: words) ls) : Edits touched words ls ls :=
  ⟨⟨h.shaped, fun l hl => (h.tidy l hl).mono fun _ => List.mem_cons_of_mem w, h.pods⟩,
    fun _ _ _ _ _ h => h, fun _ _ _ h => h⟩

theorem Edits.of_move {w : Text} (hready : IsReady (w :: words) (above ++ (old ++ after)))
    (hmove : IsMove above old new after)
    (hquiet : ∀ key ∈ managedKeys, key ≠ touched → Quiet key above old new after)
    (htidy : ∀ l ∈ new, l.IsTidy words)
    (hnew : ∀ column front, InManager column front above old after → ∀ l ∈ new,
      l.isItem = false → l.hasKey Values.podSecurityContext.key = true → l.column = column) :
    Edits touched words (above ++ (old ++ after)) (above ++ (new ++ after)) := by
  refine ⟨⟨hready.shaped.step hmove.toIsStep, ?_, hready.pods.move hmove hnew⟩, ?_, ?_⟩
  · intro l hl
    have hold : ∀ l ∈ above ++ (old ++ after), l.IsTidy words := fun l hl =>
      (hready.tidy l hl).mono fun _ => List.mem_cons_of_mem w
    simp only [List.mem_append] at hl hold
    rcases hl with hl | hl | hl
    · exact hold l (.inl hl)
    · exact htidy l hl
    · exact hold l (.inr (.inr hl))
  · intro key hkey hne settled hstable h
    exact h.move hmove (hquiet key hkey hne) fun before line between heq hhas =>
      hstable hmove before line between heq hhas
  · intro key hkey hne h
    exact h.move hmove (hquiet key hkey hne)

end Edits

/-! ## Fields in the place of a block -/

namespace ValuesField

variable {field : ValuesField} {words : List Text} {before after start inner behind : List Line}
  {line dash : Line}

theorem edits_render (hfield : field.IsEditable) (hpath : field.HasPath)
    (hwords : ∀ w ∈ words, w ∈ lookupPaths) (havoids : Line.Avoids words field.path)
    (hready : IsReady (field.path :: words) (before ++ line :: after))
    (hkey : line.hasKey field.key = true)
    (hplace : ∀ column front, InManager column front before
      (line :: after.takeWhile (field.style.continues line.column))
      (after.dropWhile (field.style.continues line.column)) → column = line.column) :
    Edits field.key words (before ++ line :: after)
      (before ++ (field.entryAt line :: field.value (line.column + 2) ++
        after.dropWhile (field.style.continues line.column))) := by
  have hsplit : before ++ line :: after =
      before ++ (line :: after.takeWhile (field.style.continues line.column) ++
        after.dropWhile (field.style.continues line.column)) := by
    rw [List.cons_append, List.takeWhile_append_dropWhile]
  have hreplace := isReplacement_render hfield hkey after
  rw [hsplit] at hready ⊢
  refine .of_move hready (hreplace.isMove hfield.managed before) (fun key hmanaged hne =>
    quiet_render hfield hkey hmanaged hne fun column front h => (hplace column front h).le) ?_ ?_
  · exact List.forall_mem_cons.2 ⟨isTidy_entryAt hpath hwords line,
      fun l hl => isTidy_value hpath hwords havoids hl⟩
  · intro column front h l hl _ hpod
    rcases List.mem_cons.1 hl with rfl | hl
    · rw [hreplace.same_column, hplace column front h]
    · rw [(isInner_value hfield.toIsSound line.column l hl).no_key] at hpod
      cases hpod

theorem edits_first (hfield : field.IsEditable) (hpath : field.HasPath)
    (hwords : ∀ w ∈ words, w ∈ lookupPaths) (havoids : Line.Avoids words field.path)
    (hready : IsReady (field.path :: words) (before ++ line :: after))
    (hfirst : IsFirstKey field.key before line after) :
    ∃ ls', field.fill (before ++ line :: after) before.length = .ok ls' ∧
      Edits field.key words (before ++ line :: after) ls' ∧
      KeySettled field.key field.IsSettled ls' ∧ ManagerHas field.key ls' := by
  have hkey := hfirst.hasKey
  have hsplit : before ++ line :: after =
      before ++ line :: (after.takeWhile (field.style.continues line.column) ++
        after.dropWhile (field.style.continues line.column)) := by
    rw [List.takeWhile_append_dropWhile]
  have hnamed := hready.shaped.named
  have hfirst' : IsFirstKey field.key before line
      (after.takeWhile (field.style.continues line.column) ++
        after.dropWhile (field.style.continues line.column)) := by
    rwa [List.takeWhile_append_dropWhile]
  rw [hsplit] at hnamed
  have hplace : ∀ column front, InManager column front before
      (line :: after.takeWhile (field.style.continues line.column))
      (after.dropWhile (field.style.continues line.column)) → column = line.column :=
    fun column front => hfirst'.column_eq hnamed
  have hreplace := isReplacement_render hfield hkey after
  have hmove := hreplace.isMove hfield.managed before
  refine ⟨_, fill_around hfield hkey (hready.shaped.indented line (by simp)) (fun l hl =>
    (hready.tidy l hl).avoids field.path List.mem_cons_self),
    edits_render hfield hpath hwords havoids hready hkey hplace, ?_, ?_⟩
  · refine KeySettled.of_head hmove hnamed hfirst' hreplace.isDirect
      (isSettled_value hfield.toIsSound ?_ _)
    rw [hreplace.same_column]
    exact Nat.lt_add_of_pos_right Nat.two_pos
  · exact ManagerHas.of_head hmove hnamed hfirst' hreplace.isDirect

/-! ## Fields at the end of the manager -/

theorem isPadded_key (hfield : field.IsEditable) (column : Nat) :
    Line.IsPadded column field.key (padding column ++ field.key ++ [':']) := by
  rw [List.append_assoc]
  exact Line.isPadded_append hfield.key column []

theorem isMove_insert {ls : List Line} (hfield : field.IsEditable)
    (hmanages : Manages ls start dash inner behind) :
    IsMove (start ++ dash :: inner) [] (field.render (padding dash.column) dash.column)
      behind := by
  have hmem : ∀ key ∈ managedKeys, (∀ entry ∈ watchedEntries, entry.1 ≠ key) ∧
      key ≠ "serviceAccountName".toList := by decide
  obtain ⟨hwatched, haccount⟩ := hmem _ hfield.managed
  obtain ⟨hkey, hindent, -, hitem, hindented⟩ := isPadded_key hfield dash.column
  have hinner := isInner_value hfield.toIsSound dash.column
  have hdash := Line.indent_lt_column hmanages.item
  rw [render_eq]
  refine .of_end hmanages.item hmanages.deep hmanages.stops (Line.not_isBlank_of_hasKey hkey)
    (by omega) ?_ (Line.not_hasKey_of_hasKey hkey haccount) ?_ ?_ ?_
  · exact fun l hl => ⟨(hinner l hl).blank, by rw [hindent]; exact (hinner l hl).deep.le⟩
  · exact List.forall_mem_cons.2 ⟨hitem, fun l hl => (hinner l hl).no_item⟩
  · exact List.forall_mem_cons.2 ⟨Line.isInert_of_hasKey hkey hwatched, fun l hl =>
      (hinner l hl).isInert⟩
  · exact List.forall_mem_cons.2 ⟨hindented, fun l hl =>
      isIndented_of_mem_value hfield.toIsSound hl⟩

theorem edits_insert (hfield : field.IsEditable) (hpath : field.HasPath)
    (hwords : ∀ w ∈ words, w ∈ lookupPaths) (havoids : Line.Avoids words field.path)
    (hcontext : field.key ≠ Values.podSecurityContext.key)
    (hready : IsReady (field.path :: words) (start ++ dash :: (inner ++ behind)))
    (hmanages : Manages (start ++ dash :: (inner ++ behind)) start dash inner behind)
    (hnone : ∀ l ∈ dash :: inner, l.isDirect dash.column field.key = false) :
    Edits field.key words (start ++ dash :: (inner ++ behind))
        (start ++ dash :: inner ++ (field.render (padding dash.column) dash.column ++ behind)) ∧
      KeySettled field.key field.IsSettled
        (start ++ dash :: inner ++ (field.render (padding dash.column) dash.column ++ behind)) ∧
      ManagerHas field.key
        (start ++ dash :: inner ++ (field.render (padding dash.column) dash.column ++ behind)) := by
  obtain ⟨hkey, hindent, hcolumn, -, -⟩ := isPadded_key hfield dash.column
  have hinner := isInner_value hfield.toIsSound dash.column
  have hmove := isMove_insert hfield hmanages
  have hdirect : Line.isDirect dash.column field.key
      (padding dash.column ++ field.key ++ [':']) = true := Line.isDirect_iff.2 ⟨hcolumn, hkey⟩
  refine ⟨?_, ?_, ?_⟩
  · have hsplit : start ++ dash :: (inner ++ behind) =
        start ++ dash :: inner ++ ([] ++ behind) := by simp
    rw [hsplit] at hready ⊢
    refine .of_move hready hmove ?_ ?_ ?_
    · intro key _ hne column front _ l hl
      rw [List.nil_append, render_eq] at hl
      rcases List.mem_cons.1 hl with rfl | hl
      · exact Line.not_isDirect_of_hasKey hkey hne.symm
      · rw [Line.isDirect, (hinner l hl).no_key, Bool.and_false]
    · rw [render_eq]
      exact List.forall_mem_cons.2 ⟨isTidy_padded hpath hwords _,
        fun l hl => isTidy_value hpath hwords havoids hl⟩
    · intro column front _ l hl _ hpod
      rw [render_eq] at hl
      rcases List.mem_cons.1 hl with rfl | hl
      · rw [Line.not_hasKey_of_hasKey hkey hcontext] at hpod
        cases hpod
      · rw [(hinner l hl).no_key] at hpod
        cases hpod
  · refine KeySettled.of_end hmanages hready.shaped.named hmove hdirect hnone
      (isSettled_value hfield.toIsSound ?_ _)
    rw [hcolumn]
    exact Nat.lt_add_of_pos_right Nat.two_pos
  · refine ManagerHas.of_end hmanages hready.shaped.named hmove hdirect ?_
    have hdash := Line.indent_lt_column hmanages.item
    exact Line.isDeeper_iff.2 ⟨Line.not_isBlank_of_hasKey hkey, by omega⟩

end ValuesField

/-! ## Contexts of pods elsewhere -/

section Pods

variable {above old new after body front : List Line} {line line' : Line} {column : Nat}

theorem PodSettled.move (hmove : IsMove above old new after) (hold : NoPod old after)
    (hnew : NoPod new after) (h : PodSettled (above ++ (old ++ after))) :
    PodSettled (above ++ (new ++ after)) :=
  h.change hmove.pods hmove.markers fun h =>
    (podSettled_append hnew).2 ((podSettled_append hold).1 h)

/-- No line of the value of a key of the manager is a pod's security context. -/
theorem PodsAreKeys.noPod {style : BlockStyle}
    (hpods : PodsAreKeys (above ++ (line :: body ++ after)))
    (hplace : InManager column front above (line :: body) after) (hcolumn : column ≤ line.column)
    (hbody : ∀ l ∈ body, style.continues line.column l = true) : NoPod body after := by
  rw [noPod_iff]
  rintro before l between rfl
  have hl : InManager column (front ++ line :: before) (above ++ line :: before) [l]
      (between ++ after) := by
    have hsplit : line :: (before ++ l :: between) = (line :: before) ++ (l :: between) := rfl
    rw [hsplit] at hplace
    exact hplace.append.head
  rw [← Bool.not_eq_true]
  intro hpod
  have hat := hpods (above ++ line :: before) l (between ++ after) column _ (by simp) hl hpod
  have hnot : l.isDirect column Values.podSecurityContext.key = false :=
    not_isDirect_of_continues (hbody l (by simp)) hcolumn (by decide)
  rw [Line.isPod, Bool.and_eq_true, Bool.and_eq_true] at hpod
  rw [Line.isDirect, hat, hpod.1.2, beq_self_eq_true] at hnot
  cases hnot

theorem InManager.value (h : InManager column front above [line] (body ++ after))
    (hbody : ∀ l ∈ body, l.isBlank = false ∧ column ≤ l.indent) :
    InManager column front above (line :: body) after := by
  obtain ⟨start, dash, inner, back, behind, habove, hafter, hitem, rfl, h⟩ := h
  have hdeep : ∀ l ∈ body, l.isDeeper dash.indent = true := fun l hl => Line.isDeeper_iff.2
    ⟨(hbody l hl).1, Nat.lt_of_lt_of_le (Line.indent_lt_column h.item) (hbody l hl).2⟩
  obtain ⟨rest, rfl, rfl⟩ := exists_append_of_stops hdeep h.stops hafter
  exact ⟨start, dash, inner, rest, behind, habove, rfl, by rw [hitem]; simp, rfl, by
    rw [List.cons_append]
    exact h⟩

/-- A block whose lines are deeper than its key does not matter for what follows the block. -/
theorem isPod_append_of_deeper (h : ∀ l ∈ body, l.isDeeper line.column = true) :
    line.isPod (body ++ after) = line.isPod after := by
  rw [Line.isPod, Line.isPod, precedesAccount_append_of_deeper h]

theorem isPod_congr (hitem : line'.isItem = line.isItem)
    (hkey : line'.hasKey Values.podSecurityContext.key = line.hasKey Values.podSecurityContext.key)
    (hcolumn : line'.column = line.column) (rest : List Line) :
    line'.isPod rest = line.isPod rest := by
  rw [Line.isPod, Line.isPod, hitem, hkey, hcolumn]

end Pods

/-! ## The passes over fields -/

namespace Values

variable {words : List Text} {ls : List Line}

theorem fillEnv_of_manages {start inner behind : List Line} {dash : Line} (hnamed : NamedOnce ls)
    (h : Manages ls start dash inner behind)
    (hnone : ∀ l ∈ dash :: inner, l.isDirect dash.column env.key = false) :
    fillEnv ls = .ok (start ++ dash :: inner ++
      (env.render (padding dash.column) dash.column ++ behind)) := by
  have hmanager := Container.manager?_eq hnamed h
  have hkey := h.key?_eq_none hnamed hnone
  rw [hmanager, Option.bind_some] at hkey
  have hstop : start.length + 1 + inner.length = (start ++ dash :: inner).length := by
    rw [List.length_append, List.length_cons]
    omega
  have hsplit : ls = (start ++ dash :: inner) ++ behind := by
    rw [h.eq]
    simp
  rw [fillEnv, hmanager]
  dsimp only
  rw [hkey]
  dsimp only
  rw [ValuesField.insert, splice, hstop, hsplit, List.take_left, List.drop_left, List.append_assoc]

theorem exists_fillEnv (hwords : ∀ w ∈ words, w ∈ lookupPaths)
    (havoids : Line.Avoids words env.path) (hready : IsReady (env.path :: words) ls) :
    ∃ ls', fillEnv ls = .ok ls' ∧ Edits env.key words ls ls' ∧
      KeySettled env.key env.IsSettled ls' ∧ ManagerHas env.key ls' := by
  have hnamed := hready.shaped.named
  cases hmanager : Container.manager? ls with
  | none =>
      have habsent : ∀ start dash inner behind, ¬ Manages ls start dash inner behind := by
        intro start dash inner behind h
        rw [Container.manager?_eq hnamed h] at hmanager
        cases hmanager
      refine ⟨ls, by rw [fillEnv, hmanager], .same hready, ?_, fun start dash inner behind h =>
        absurd h (habsent start dash inner behind)⟩
      rintro before line after rfl ⟨column, front, hplace, -⟩
      obtain ⟨start, dash, inner, back, behind, -, -, -, -, h⟩ := hplace
      exact absurd h (habsent start dash inner behind)
  | some container =>
      obtain ⟨start, dash, inner, behind, h, -⟩ := Container.exists_manages hmanager
      rcases exists_first (Line.isDirect dash.column env.key) (dash :: inner) with
        hnone | ⟨front, line, back, hitem, hfront, hline⟩
      · have hfill := fillEnv_of_manages hnamed h hnone
        obtain rfl := h.eq
        exact ⟨_, hfill, ValuesField.edits_insert isEditable_env ValuesField.hasPath_env hwords
          havoids (by decide) hready h hnone⟩
      · obtain ⟨heq, hplace⟩ := InManager.of_manages h hitem
        have hfirst : IsFirstKey env.key (start ++ front) line (back ++ behind) :=
          ⟨dash.column, front, hplace, hfront, hline⟩
        rw [heq] at hready hnamed
        have hfound := hfirst.key?_eq hnamed
        rw [← heq, hmanager, Option.bind_some, heq] at hfound
        obtain ⟨ls', hfill, hedits⟩ := ValuesField.edits_first isEditable_env
          ValuesField.hasPath_env hwords havoids hready hfirst
        refine ⟨ls', ?_, by rwa [heq]⟩
        rw [fillEnv, hmanager]
        dsimp only
        rw [heq, hfound]
        exact hfill

theorem exists_fillPodSecurityContext (hwords : ∀ w ∈ words, w ∈ lookupPaths)
    (havoids : Line.Avoids words podSecurityContext.path)
    (hready : IsReady (podSecurityContext.path :: words) ls) :
    ∃ ls', fillPodSecurityContext ls = .ok ls' ∧ Edits podSecurityContext.key words ls ls' ∧
      PodSettled ls' := by
  rcases exists_first_pod ls with hnone | ⟨before, line, after, rfl, hbefore, hpod⟩
  · exact ⟨ls, by rw [fillPodSecurityContext, podSecurityContextKey?_of_noPod hnone], .same hready,
      podSettled_of_noPod hnone⟩
  · have hkey : line.hasKey podSecurityContext.key = true := by
      rw [Line.isPod, Bool.and_eq_true, Bool.and_eq_true] at hpod
      exact hpod.1.2
    have hsplit : line :: after =
        line :: after.takeWhile (podSecurityContext.style.continues line.column) ++
          after.dropWhile (podSecurityContext.style.continues line.column) := by
      rw [List.cons_append, List.takeWhile_append_dropWhile]
    have hreplace := ValuesField.isReplacement_render isEditable_podSecurityContext hkey after
    have hmove := hreplace.isMove isEditable_podSecurityContext.managed before
    refine ⟨_, ?_, ValuesField.edits_render isEditable_podSecurityContext
      ValuesField.hasPath_podSecurityContext hwords havoids hready hkey ?_, ?_⟩
    · rw [fillPodSecurityContext, podSecurityContextKey?_of_first hbefore hpod]
      exact ValuesField.fill_around isEditable_podSecurityContext hkey
        (hready.shaped.indented line (by simp)) fun l hl =>
          (hready.tidy l hl).avoids _ List.mem_cons_self
    · intro column front hplace
      have hhead := hplace.head
      rw [List.takeWhile_append_dropWhile] at hhead
      exact (hready.pods before line after column front rfl hhead hpod).symm
    · have hpods := hmove.pods
      rw [← hsplit] at hpods
      rw [podSettled_append (hbefore.change hpods), List.cons_append]
      refine (podSettled_cons_of_isPod ?_).2 (ValuesField.isSettled_value
        isSound_podSecurityContext ?_ _)
      · have hdeep : ∀ l ∈ after.takeWhile (podSecurityContext.style.continues line.column),
            l.isDeeper line.column = true := by
          intro l hl
          have hcontinues := List.mem_takeWhile_imp hl
          have hstyle : podSecurityContext.style = .mapping := rfl
          rwa [hstyle, continues_mapping] at hcontinues
        have hvalue : ∀ l ∈ podSecurityContext.value (line.column + 2),
            l.isDeeper (podSecurityContext.entryAt line).column = true := by
          intro l hl
          rw [hreplace.same_column]
          exact (ValuesField.isInner_value isSound_podSecurityContext _ l hl).isDeeper
        rw [isPod_append_of_deeper hvalue, isPod_congr hreplace.same_item
          (Line.hasKey_congr hreplace.old_key hreplace.new_key _) hreplace.same_column,
          ← isPod_append_of_deeper hdeep, List.takeWhile_append_dropWhile, hpod]
      · rw [hreplace.same_column]
        exact Nat.lt_add_of_pos_right Nat.two_pos

/-- An edit of a mapping at a key of the manager that is no pod's security context keeps the pod's
settled. -/
theorem podSettled_render {field : ValuesField} {before after : List Line} {line : Line}
    (hfield : field.IsEditable) (hstyle : field.style = .mapping)
    (hpods : PodsAreKeys (before ++ line :: after))
    (hfirst : IsFirstKey field.key before line after)
    (hline : line.isPod after = false) (h : PodSettled (before ++ line :: after)) :
    PodSettled (before ++ (field.entryAt line :: field.value (line.column + 2) ++
      after.dropWhile (field.style.continues line.column))) := by
  have hsplit : line :: after = line :: after.takeWhile (field.style.continues line.column) ++
      after.dropWhile (field.style.continues line.column) := by
    rw [List.cons_append, List.takeWhile_append_dropWhile]
  have hreplace := ValuesField.isReplacement_render hfield hfirst.hasKey after
  have hmove := hreplace.isMove hfield.managed before
  obtain ⟨column, front, hplace, -, hdirect⟩ := hfirst
  rw [Line.isDirect_iff] at hdirect
  have hbody : ∀ l ∈ after.takeWhile (field.style.continues line.column),
      field.style.continues line.column l = true := fun l hl => List.mem_takeWhile_imp hl
  have hdeep : ∀ l ∈ after.takeWhile (field.style.continues line.column),
      l.isDeeper line.column = true := by
    intro l hl
    have hcontinues := hbody l hl
    rwa [hstyle, continues_mapping] at hcontinues
  have hin : InManager column front before
      (line :: after.takeWhile (field.style.continues line.column))
      (after.dropWhile (field.style.continues line.column)) := by
    refine InManager.value (by rwa [List.takeWhile_append_dropWhile]) fun l hl => ?_
    have hl' := Line.isDeeper_iff.1 (hdeep l hl)
    exact ⟨hl'.1, by omega⟩
  rw [hsplit] at h hpods
  refine h.move hmove ⟨?_, hpods.noPod hin hdirect.1.ge hbody⟩ ⟨?_, ?_⟩
  · rw [List.takeWhile_append_dropWhile]
    exact hline
  · have hvalue : ∀ l ∈ field.value (line.column + 2),
        l.isDeeper (field.entryAt line).column = true := by
      intro l hl
      rw [hreplace.same_column]
      exact (ValuesField.isInner_value hfield.toIsSound _ l hl).isDeeper
    rw [isPod_append_of_deeper hvalue, isPod_congr hreplace.same_item
      (Line.hasKey_congr hreplace.old_key hreplace.new_key _) hreplace.same_column,
      ← isPod_append_of_deeper hdeep, List.takeWhile_append_dropWhile, hline]
  · refine noPod_of_forall (fun l hl _ => ?_) _
    exact (ValuesField.isInner_value hfield.toIsSound line.column l hl).no_key _

theorem exists_fillContainerSecurityContext (hwords : ∀ w ∈ words, w ∈ lookupPaths)
    (havoids : Line.Avoids words containerSecurityContext.path)
    (hready : IsReady (containerSecurityContext.path :: words) ls) :
    ∃ ls', fillContainerSecurityContext ls = .ok ls' ∧
      Edits containerSecurityContext.key words ls ls' ∧
      KeySettled containerSecurityContext.key contextSettled ls' ∧
      (PodSettled ls → PodSettled ls') := by
  have hnamed := hready.shaped.named
  rcases exists_isFirstKey hnamed containerSecurityContext.key with
    hnone | ⟨before, line, after, rfl, hfirst⟩
  · exact ⟨ls, by rw [fillContainerSecurityContext, hnone], .same hready, .of_none hnamed hnone,
      id⟩
  · have hfound := hfirst.key?_eq hnamed
    rw [fillContainerSecurityContext, hfound]
    dsimp only
    rw [isBeforeServiceAccount_around]
    by_cases haccount : precedesAccount line.column after = true
    · rw [if_pos haccount]
      refine ⟨_, rfl, .same hready, ?_, id⟩
      intro before' line' after' heq hfirst'
      obtain ⟨-, rfl, rfl⟩ := hfirst.unique hnamed heq hfirst'
      exact .inl haccount
    · rw [if_neg haccount]
      have hpod : line.isPod after = false := by
        rw [Line.isPod, eq_false_of_ne_true haccount, Bool.and_false]
      have hfill := ValuesField.fill_around isEditable_containerSecurityContext hfirst.hasKey
        (hready.shaped.indented line (by simp)) fun l hl =>
          (hready.tidy l hl).avoids _ List.mem_cons_self
      obtain ⟨ls', hfill', hedits, hsettled, -⟩ := ValuesField.edits_first
        isEditable_containerSecurityContext ValuesField.hasPath_containerSecurityContext hwords
        havoids hready hfirst
      refine ⟨ls', hfill', hedits, fun before' line' after' heq hfirst' =>
        .inr (hsettled before' line' after' heq hfirst'), fun h => ?_⟩
      obtain rfl := Except.ok.inj (hfill.symm.trans hfill')
      exact podSettled_render isEditable_containerSecurityContext rfl hready.pods hfirst hpod h

theorem exists_fillResources (hwords : ∀ w ∈ words, w ∈ lookupPaths)
    (havoids : Line.Avoids words resources.path) (hready : IsReady (resources.path :: words) ls) :
    ∃ ls', fillResources ls = .ok ls' ∧ Edits resources.key words ls ls' ∧
      KeySettled resources.key resources.IsSettled ls' ∧ (PodSettled ls → PodSettled ls') := by
  have hnamed := hready.shaped.named
  rcases exists_isFirstKey hnamed resources.key with hnone | ⟨before, line, after, rfl, hfirst⟩
  · exact ⟨ls, by rw [fillResources, hnone], .same hready, .of_none hnamed hnone, id⟩
  · have hpod := Line.not_isPod_of_hasKey hfirst.hasKey (by decide) after
    have hfill := ValuesField.fill_around isEditable_resources hfirst.hasKey
      (hready.shaped.indented line (by simp)) fun l hl =>
        (hready.tidy l hl).avoids _ List.mem_cons_self
    obtain ⟨ls', hfill', hedits, hsettled, -⟩ := ValuesField.edits_first isEditable_resources
      ValuesField.hasPath_resources hwords havoids hready hfirst
    refine ⟨ls', ?_, hedits, hsettled, fun h => ?_⟩
    · rw [fillResources, hfirst.key?_eq hnamed]
      exact hfill'
    · obtain rfl := Except.ok.inj (hfill.symm.trans hfill')
      exact podSettled_render isEditable_resources rfl hready.pods hfirst hpod h

end Values

end OperatorChart
