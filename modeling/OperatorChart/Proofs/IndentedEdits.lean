import OperatorChart.Proofs.ImagePass
/-!
# Edits of indented lines

An edit of a field cuts the line of its key at a width in bytes. On lines that are indented by
spaces and tabs the cut never falls inside a character: every edit of a deployment succeeds, and
what it keeps and what it writes is indented by spaces and tabs again.
-/

namespace OperatorChart

open Text

namespace Line

variable {line : Line} {s : Text}

/-- Spaces and tabs come before the first solid character when no other white space does. -/
theorem solid_head_iff (line : Line) :
    (∀ c, (line.dropWhile isIndentation).head? = some c → Unicode.isWhiteSpace c = false) ↔
      ∀ c ∈ line.takeWhile Unicode.isWhiteSpace, isIndentation c = true := by
  induction line with
  | nil => simp
  | cons d rest ih =>
      by_cases hd : isIndentation d = true
      · rw [List.dropWhile_cons_of_pos hd,
          List.takeWhile_cons_of_pos (isWhiteSpace_of_isIndentation hd), List.forall_mem_cons]
        simpa [hd] using ih
      · rw [List.dropWhile_cons_of_neg hd]
        by_cases hwhite : Unicode.isWhiteSpace d = true
        · rw [List.takeWhile_cons_of_pos hwhite]
          simp [hwhite, hd]
        · rw [List.takeWhile_cons_of_neg hwhite]
          simp [hwhite]

theorem isIndented_iff : line.IsIndented ↔ (line.isBlank = false →
    ∀ c ∈ line.takeWhile Unicode.isWhiteSpace, isIndentation c = true) := by
  rw [IsIndented, solid_head_iff]
  cases line.isBlank <;> simp

theorem isIndented_directive (hs : ∀ c ∈ s, isIndentation c = true) (directive : Directive) :
    IsIndented (s ++ directive.render) := by
  obtain ⟨rest, hrest⟩ := directive.exists_render_cons
  rw [hrest]
  exact isIndented_append hs rfl

end Line

/-- Whether lines are those of a text and each is indented by spaces and tabs. -/
structure AreIndented (ls : List Line) : Prop extends AreLines ls where
  indented : ∀ line ∈ ls, line.IsIndented

section Indented

variable {ls ls' : List Line} {line : Line} {key : Nat} {start : Text}

theorem AreIndented.lineAt (h : AreIndented ls) (hkey : key < ls.length) :
    (lineAt ls key).IsIndented :=
  h.indented _ (by simp [OperatorChart.lineAt, hkey])

theorem AreIndented.keyPrefix_eq {name : Text} (h : AreIndented ls)
    (hkey : (OperatorChart.lineAt ls key).hasKey name = true) :
    keyPrefix (OperatorChart.lineAt ls key) =
      .ok ((OperatorChart.lineAt ls key).leading ++ (OperatorChart.lineAt ls key).marker) :=
  Line.keyPrefix_eq (h.lineAt (lt_of_hasKey hkey)) (Line.not_isBlank_of_hasKey hkey)

/-! ## Fields -/

namespace ValuesField

variable {field : ValuesField}

theorem Fills.indented (hfield : field.IsSound) (hfills : field.Fills ls ls')
    (hls : ∀ line ∈ ls, line.IsIndented) : ∀ line ∈ ls', line.IsIndented := by
  cases hfills with
  | same => exact hls
  | @block before after line start hkey hstart =>
      have hline := hls line (by simp)
      rw [Line.keyPrefix_eq hline (Line.not_isBlank_of_hasKey hkey)] at hstart
      obtain rfl := Except.ok.inj hstart
      intro l hl
      rw [render_withEntry, List.append_assoc, List.mem_append, List.mem_append,
        List.mem_cons] at hl
      rcases hl with hl | (rfl | hl) | hl
      · exact hls l (List.mem_append_left _ hl)
      · exact Line.isIndented_withEntry hfield.key (Line.isMarker_of_hasKey hkey) []
      · exact isIndented_of_mem_value hfield hl
      · exact hls l (List.mem_append_right _ (List.mem_cons_of_mem _
          ((List.dropWhile_suffix _).mem hl)))
  | @insert before after line hitem =>
      intro l hl
      simp only [render_eq, List.mem_append, List.mem_cons] at hl
      rcases hl with hl | rfl | (hl | rfl | hl) | hl
      · exact hls l (List.mem_append_left _ hl)
      · exact hls l (by simp)
      · exact hls l (List.mem_append_right _ (List.mem_cons_of_mem _
          ((List.takeWhile_prefix _).mem hl)))
      · rw [List.append_assoc]
        exact (Line.isPadded_append hfield.key line.column []).indented
      · exact isIndented_of_mem_value hfield hl
      · exact hls l (List.mem_append_right _ (List.mem_cons_of_mem _
          ((List.dropWhile_suffix _).mem hl)))

theorem Fills.areIndented (hfield : field.IsSound) (hfills : field.Fills ls ls')
    (hls : AreIndented ls) : AreIndented ls' :=
  ⟨hfills.areLines hfield hls.toAreLines, hfills.indented hfield hls.indented⟩

theorem indented_fill (hfield : field.IsSound) (hls : AreIndented ls)
    (hkey : (lineAt ls key).hasKey field.key = true) :
    ∃ ls', field.fill ls key = .ok ls' ∧ AreIndented ls' := by
  obtain ⟨ls', hfill⟩ : ∃ ls', field.fill ls key = .ok ls' := by
    rw [fill, hls.keyPrefix_eq hkey]
    split <;> exact ⟨_, rfl⟩
  exact ⟨ls', hfill, (fills_fill hkey hfill).areIndented hfield hls⟩

end ValuesField

namespace Values

theorem indented_fillEnv (hls : AreIndented ls) :
    ∃ ls', fillEnv ls = .ok ls' ∧ AreIndented ls' := by
  unfold fillEnv
  split
  · rename_i container hcontainer
    split
    · rename_i key hkey
      exact ValuesField.indented_fill isSound_env hls (hasKey_of_key? hkey)
    · exact ⟨_, rfl, (ValuesField.fills_insert hcontainer).areIndented isSound_env hls⟩
  · exact ⟨ls, rfl, hls⟩

theorem indented_fillResources (hls : AreIndented ls) :
    ∃ ls', fillResources ls = .ok ls' ∧ AreIndented ls' := by
  unfold fillResources
  split
  · rename_i key hkey
    exact ValuesField.indented_fill isSound_resources hls (hasKey_of_bind hkey)
  · exact ⟨ls, rfl, hls⟩

theorem indented_fillContainerSecurityContext (hls : AreIndented ls) :
    ∃ ls', fillContainerSecurityContext ls = .ok ls' ∧ AreIndented ls' := by
  unfold fillContainerSecurityContext
  split
  · rename_i key hkey
    split
    · exact ⟨ls, rfl, hls⟩
    · exact ValuesField.indented_fill isSound_containerSecurityContext hls (hasKey_of_bind hkey)
  · exact ⟨ls, rfl, hls⟩

theorem hasKey_of_podSecurityContextKey? {i : Nat} (h : podSecurityContextKey? ls = some i) :
    (lineAt ls i).hasKey podSecurityContext.key = true := by
  have hfound := List.find?_some h
  simp only [Bool.and_eq_true] at hfound
  exact hfound.1.2

theorem indented_fillPodSecurityContext (hls : AreIndented ls) :
    ∃ ls', fillPodSecurityContext ls = .ok ls' ∧ AreIndented ls' := by
  unfold fillPodSecurityContext
  split
  · rename_i key hkey
    exact ValuesField.indented_fill isSound_podSecurityContext hls
      (hasKey_of_podSecurityContextKey? hkey)
  · exact ⟨ls, rfl, hls⟩

/-! ## The image -/

theorem isIndented_of_mem_imageLines (hmarker : Line.IsMarker line.marker) {column : Nat}
    {l : Line} (hl : l ∈ imageLines (line.leading ++ line.marker) column) : l.IsIndented := by
  rw [imageLines_withEntry, List.mem_cons, List.mem_singleton] at hl
  rcases hl with rfl | rfl
  · exact Line.isIndented_withEntry isPlainKey_image hmarker imageEntry
  · exact (isPadded_policy column).indented

theorem indented_fillImage (hls : AreIndented ls) :
    ∃ ls', fillImage ls = .ok ls' ∧ AreIndented ls' := by
  obtain ⟨ls', hfill⟩ : ∃ ls', fillImage ls = .ok ls' := by
    unfold fillImage
    split
    · split
      · rename_i key hkey
        rw [hls.keyPrefix_eq (hasKey_of_key? hkey)]
        split
        · exact ⟨_, rfl⟩
        · exact ⟨_, rfl⟩
      · exact ⟨_, rfl⟩
    · exact ⟨_, rfl⟩
  refine ⟨ls', hfill, areLines_fillImage hfill hls.toAreLines, ?_⟩
  rcases exists_of_fillImage hfill with rfl | ⟨container, key, start, hkey, hstart, rfl⟩
  · exact hls.indented
  · rw [hls.keyPrefix_eq hkey] at hstart
    obtain rfl := Except.ok.inj hstart
    intro l hl
    exact (mem_replaceImage hl).elim
      (isIndented_of_mem_imageLines (Line.isMarker_of_hasKey hkey)) (hls.indented l)

/-! ## The arguments -/

theorem isIndented_argText {s t : Text} (hs : ∀ c ∈ s, isIndentation c = true)
    (ht : t ∈ argTexts) : Line.IsIndented (s ++ t) := by
  have htexts : ∀ t ∈ argTexts, t.head?.any (fun c => !Unicode.isWhiteSpace c) = true := by decide
  cases t with
  | nil => cases htexts [] ht
  | cons c rest => exact Line.isIndented_append hs (by simpa using htexts _ ht)

theorem areIndented_fillArgs (hls : AreIndented ls) : AreIndented (fillArgs ls) := by
  refine ⟨areLines_fillArgs hls.toAreLines, ?_⟩
  rcases exists_of_fillArgs ls with hsame | ⟨before, line, after, rfl, -, hfill⟩
  · rw [hsame]
    exact hls.indented
  · rw [hfill]
    have hafter : ∀ l ∈ after, l.IsIndented := fun l hl =>
      hls.indented l (List.mem_append_right _ (List.mem_cons_of_mem _ hl))
    intro l hl
    simp only [List.mem_append, List.mem_cons] at hl
    rcases hl with hl | rfl | hl | hl
    · exact hls.indented l (List.mem_append_left _ hl)
    · exact hls.indented l (by simp)
    · rcases mem_argLines hl with ⟨hl, -⟩ | ⟨s, hs, t, ht, rfl⟩
      · exact hafter l (mem_of_mem_argItems hl).1
      · exact isIndented_argText (isIndentation_of_mem_leadings
          (isIndentation_padding (line.column + 2)) hs) ht
    · exact hafter l ((List.dropWhile_suffix _).mem hl)

end Values

/-! ## Guards -/

theorem Condition.isIndented_of_mem_guard {condition : Condition} {indentation : Text}
    {body : List Line} (hindentation : ∀ c ∈ indentation, isIndentation c = true)
    (hbody : ∀ l ∈ body, l.IsIndented) {l : Line} (hl : l ∈ condition.guard indentation body) :
    l.IsIndented := by
  simp only [guard, List.mem_cons, List.mem_append, List.not_mem_nil, or_false] at hl
  rcases hl with rfl | hl | rfl
  · exact Line.isIndented_directive hindentation _
  · exact hbody l hl
  · exact Line.isIndented_directive hindentation _

theorem CertificateGuard.areIndented_guardPaths (hls : AreIndented ls) :
    AreIndented (guardPaths none ls) := by
  refine ⟨areLines_guardPaths hls.toAreLines, ?_⟩
  obtain ⟨-, hindented⟩ := hls
  generalize none = previous
  induction ls generalizing previous with
  | nil => exact hindented
  | cons line rest ih =>
      rw [List.forall_mem_cons] at hindented
      have hline := List.forall_mem_singleton.2 hindented.1
      rw [guardPaths, List.forall_mem_append]
      refine ⟨?_, ih hindented.2 (some line)⟩
      unfold guardPathLine
      split
      · split
        · exact hline
        · exact fun l hl => Condition.isIndented_of_mem_guard
            (fun _ hc => Line.isIndentation_of_mem_leading hc) hline hl
      · exact hline

theorem ItemGuard.areIndented_apply (itemGuard : ItemGuard) (hls : AreIndented ls) :
    AreIndented (itemGuard.apply ls) := by
  refine ⟨areLines_apply itemGuard hls.toAreLines, ?_⟩
  refine itemGuard.guardItems_induction (motive := fun _ ls out =>
    (∀ l ∈ ls, l.IsIndented) → ∀ l ∈ out, l.IsIndented) (fun _ h => h) ?_ ?_ none ls hls.indented
  · intro previous line rest out htargets ih h
    rw [List.forall_mem_cons] at h
    have hbody : ∀ l ∈ line :: itemBody line rest, l.IsIndented :=
      List.forall_mem_cons.2 ⟨h.1, fun l hl => h.2 l ((List.takeWhile_prefix _).mem hl)⟩
    rw [List.forall_mem_append]
    exact ⟨fun l hl => Condition.isIndented_of_mem_guard
        (fun _ hc => Line.isIndentation_of_mem_leading hc) hbody hl,
      ih fun l hl => h.2 l ((List.dropWhile_suffix _).mem hl)⟩
  · intro previous line rest out _ ih h
    rw [List.forall_mem_cons] at h ⊢
    exact ⟨h.1, ih h.2⟩

theorem BlankRuns.areIndented_collapse (hls : AreIndented ls) : AreIndented (collapse ls) :=
  ⟨areLines_collapse hls.toAreLines, fun l hl => hls.indented l (mem_of_mem_collapseFrom hl)⟩

end Indented

/-! ## Places -/

/-- Whether the lines that the edits of a deployment read and replace lie inside of it. -/
structure Deployment.HasPlaces (ls : List Line) : Prop where
  block : ∀ style i, i < ls.length →
    i < (Block.locate style ls i).stop ∧ (Block.locate style ls i).stop ≤ ls.length
  manager : ∀ container, Container.manager? ls = some container →
    container.start < container.stop ∧ container.stop ≤ ls.length
  key : ∀ (container : Container) key i, container.key? ls key = some i →
    container.start ≤ i ∧ i < container.stop
  podContext : ∀ i, Values.podSecurityContextKey? ls = some i → i < ls.length

theorem Deployment.hasPlaces (ls : List Line) : HasPlaces ls where
  block style _ h := Block.stop_locate_le style h
  manager container h := by
    obtain ⟨hitem, hcontainer⟩ := Container.exists_of_manager? h
    rw [hcontainer]
    exact Block.stop_locate_le .item (Container.lt_of_isItem hitem)
  key container key i h := by
    have hmem := List.mem_range'_1.1 (List.mem_of_find?_eq_some h)
    omega
  podContext _ h := lt_of_hasKey (Values.hasKey_of_podSecurityContextKey? h)

end OperatorChart
