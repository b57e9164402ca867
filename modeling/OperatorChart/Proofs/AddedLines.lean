import OperatorChart.Proofs.DeploymentRuns
import OperatorChart.Proofs.DocumentLines
/-!
# Lines that templating adds

The edits of a deployment keep lines, drop lines and write lines of their own. What they write
separates no documents, and it names neither a namespace nor the build tool.
-/

namespace OperatorChart

open Text

namespace Text

theorem infix_of_infix_append {w s t : Text} (hw : w ≠ []) (hs : ∀ c ∈ s, c ∉ w)
    (h : w <:+: s ++ t) : w <:+: t := by
  induction s with
  | nil => exact h
  | cons c s ih =>
      rw [List.forall_mem_cons] at hs
      refine ih hs.2 ((List.infix_cons_iff.1 h).resolve_left fun hstart => ?_)
      obtain ⟨d, w, rfl⟩ := List.exists_cons_of_ne_nil hw
      rw [(List.cons_prefix_cons.1 hstart).1] at hs
      exact hs.1 List.mem_cons_self

end Text

namespace Line

/-- Words that no edit writes: the end of the build tool's namespaces, and the build tool. -/
def foreignWords : List Text :=
  ["system".toList, "kustomize".toList]

/-- Whether an edit may add a line anywhere in a document. -/
structure IsAdded (line : Line) : Prop where
  unseparated : Manifest.isSeparator line = false
  neutral : ∀ w ∈ foreignWords, ¬ w <:+: line

def isNeutral (t : Text) : Bool :=
  foreignWords.all fun w => !hasInfix w t

theorem isNeutral_iff {t : Text} : isNeutral t = true ↔ ∀ w ∈ foreignWords, ¬ w <:+: t := by
  simp [isNeutral, hasInfix_eq_false_iff]

theorem isWord_of_mem_foreignWords {w : Text} (h : w ∈ foreignWords) : IsWord w := by
  simp only [foreignWords, List.mem_cons, List.not_mem_nil, or_false] at h
  rcases h with rfl | rfl <;> exact ⟨by decide, by decide⟩

theorem isNeutral_append_space {s t : Text} (hs : isNeutral s = true) (ht : isNeutral t = true) :
    isNeutral (s ++ ' ' :: t) = true := by
  rw [isNeutral_iff] at hs ht ⊢
  intro w hw hocc
  have hspace := (isWord_of_mem_foreignWords hw).not_mem_of_isWhiteSpace (c := ' ') rfl
  exact (infix_append_cons hspace hocc).elim (hs w hw) (ht w hw)

theorem isNeutral_ofNat (n : Nat) : isNeutral (ofNat n) = true := by
  rw [isNeutral_iff]
  intro w hw hocc
  have hall : ∀ w ∈ foreignWords, 's' ∈ w := by decide
  have hs := hall w hw
  exact not_mem_ofNat (by decide) n (hocc.mem hs)

theorem isNeutral_append_left {s t : Text} (hs : ∀ c ∈ s, IsLead c) (ht : isNeutral t = true) :
    isNeutral (s ++ t) = true := by
  rw [isNeutral_iff] at ht ⊢
  intro w hw hocc
  have hword := isWord_of_mem_foreignWords hw
  refine ht w hw (infix_of_infix_append hword.ne_nil (fun c hc hmem => ?_) hocc)
  rcases hs c hc with hwhite | rfl
  · rw [hword.solid c hmem] at hwhite
    cases hwhite
  · have hall : ∀ w ∈ foreignWords, '-' ∉ w := by decide
    exact hall w hw hmem

theorem isAdded_indented {s t : Text} (hs : ∀ c ∈ s, isIndentation c = true)
    (hdashes : "---".toList.isPrefixOf t = false) (ht : isNeutral t = true) :
    IsAdded (s ++ t) := by
  refine ⟨Manifest.not_isSeparator_of_not_prefix fun h => ?_, isNeutral_iff.1 ?_⟩
  · cases s with
    | nil =>
        rw [List.nil_append, ← List.isPrefixOf_iff_prefix, hdashes] at h
        cases h
    | cons c s =>
        have hc := hs c List.mem_cons_self
        rw [← (List.cons_prefix_cons.1 h).1] at hc
        exact absurd hc (by decide)
  · exact isNeutral_append_left (fun c hc => .inl (isWhiteSpace_of_isIndentation (hs c hc))) ht

theorem isAdded_leading (line : Line) {t : Text} (hdashes : "---".toList.isPrefixOf t = false)
    (ht : isNeutral t = true) : IsAdded (line.leading ++ t) :=
  isAdded_indented (fun _ hc => isIndentation_of_mem_leading hc) hdashes ht

theorem not_dashes_of_keyPrefix {line : Line} {key start rest : Text}
    (hhas : line.hasKey key = true)
    (hkey : IsPlainKey key) (hstart : keyPrefix line = .ok start) :
    ¬ "---".toList <+: start ++ (key ++ rest) := by
  obtain ⟨c, tail, hcons, hc⟩ := hkey.exists_head []
  have hdash : c ≠ '-' := hc.no_dash rfl
  have hfull : ¬ "---".toList <+: start := by
    intro h
    obtain ⟨s, m, rest', hs, hm, hline⟩ := eq_of_hasKey hhas
    have hdashes := h.trans (isLead_of_keyPrefix hhas hstart).1
    rw [hline, hcons] at hdashes
    cases s with
    | nil =>
        rcases hm with rfl | ⟨gap, -, rfl⟩
        · exact hdash (List.cons_prefix_cons.1 hdashes).1.symm
        · exact absurd (List.cons_prefix_cons.1 (List.cons_prefix_cons.1 hdashes).2).1 (by decide)
    | cons d s =>
        have hd := hs d List.mem_cons_self
        rw [← (List.cons_prefix_cons.1 hdashes).1] at hd
        exact absurd hd (by decide)
  intro h
  rcases List.prefix_or_prefix_of_prefix h (List.prefix_append start (key ++ rest)) with
    hprefixed | ⟨back, hback⟩
  · exact hfull hprefixed
  · rw [← hback, List.prefix_append_right_inj] at h
    cases back with
    | nil =>
        rw [List.append_nil] at hback
        exact hfull (hback ▸ List.prefix_rfl)
    | cons d back =>
        have hd : d ∈ "---".toList := hback ▸ List.mem_append_right start List.mem_cons_self
        rw [hcons] at h
        have heq := (List.cons_prefix_cons.1 h).1
        have hall : ∀ e ∈ "---".toList, e = '-' := by decide
        exact hdash (heq ▸ hall d hd)

theorem isAdded_key {line : Line} {key start t : Text} (hhas : line.hasKey key = true)
    (hkey : IsPlainKey key) (hstart : keyPrefix line = .ok start) (ht : key <+: t)
    (hneutral : isNeutral t = true) : IsAdded (start ++ t) := by
  obtain ⟨rest, rfl⟩ := ht
  exact ⟨Manifest.not_isSeparator_of_not_prefix (not_dashes_of_keyPrefix hhas hkey hstart),
    isNeutral_iff.1 (isNeutral_append_left (isLead_of_keyPrefix hhas hstart).2.2 hneutral)⟩

end Line

/-! ## Reworked lines -/

/-- What the edits of a deployment do to lines: they keep a document and add only harmless
lines. -/
structure Reworks (ls ls' : List Line) : Prop extends Manifest.KeepsDocument ls ls' where
  added : ∀ line ∈ ls', line ∈ ls ∨ line.IsAdded

namespace Reworks

variable {ls ls' ls'' rest rest' : List Line}

theorem refl (ls : List Line) : Reworks ls ls :=
  ⟨Manifest.KeepsDocument.refl ls, fun _ h => .inl h⟩

theorem trans (h : Reworks ls ls') (h' : Reworks ls' ls'') : Reworks ls ls'' :=
  ⟨h.toKeepsDocument.trans h'.toKeepsDocument, fun line hline =>
    (h'.added line hline).elim (h.added line) .inr⟩

theorem append (h : Reworks ls ls') (h' : Reworks rest rest') (hnil : rest = [] → rest' = []) :
    Reworks (ls ++ rest) (ls' ++ rest') := by
  refine ⟨h.toKeepsDocument.append h'.toKeepsDocument hnil, fun line hline => ?_⟩
  rcases List.mem_append.1 hline with hline | hline
  · exact (h.added line hline).imp_left (List.mem_append_left rest)
  · exact (h'.added line hline).imp_left (List.mem_append_right ls)

theorem of_added (hlast : ls.getLast? = some [] → ls'.getLast? = some [])
    (hadded : ∀ line ∈ ls', line ∈ ls ∨ line.IsAdded)
    (hkept : (∀ line ∈ ls, line.isBlank = false → line ∈ ls') ∨
      ∃ line ∈ ls', Manifest.isIdle line = false) : Reworks ls ls' := by
  refine ⟨⟨hlast, fun hls line hline => ?_, ?_, ?_⟩, hadded⟩
  · exact (hadded line hline).elim (hls line) (·.unseparated)
  · rintro ⟨line, hline, hbusy⟩
    exact hkept.elim
      (fun hkept => ⟨line, hkept line hline (Line.not_isBlank_of_not_isIdle hbusy), hbusy⟩) id
  · rintro ⟨line, hline, hsolid⟩
    refine hkept.elim (fun hkept => ⟨line, hkept line hline hsolid, hsolid⟩) ?_
    rintro ⟨written, hwritten, hbusy⟩
    exact ⟨written, hwritten, Line.not_isBlank_of_not_isIdle hbusy⟩

/-- Lines that are not blank may be replaced by others as a whole. -/
theorem of_solid (hsolid : ∀ line ∈ ls, line.isBlank = false)
    (hadded : ∀ line ∈ ls', line ∈ ls ∨ line.IsAdded)
    (hbusy : ∃ line ∈ ls', Manifest.isIdle line = false) : Reworks ls ls' := by
  refine of_added (fun hlast => ?_) hadded (.inr hbusy)
  have hblank := hsolid [] (List.mem_of_getLast? hlast)
  exact absurd hblank (by decide)

end Reworks

/-! ## Guards -/

namespace Condition

theorem opening_injective : Function.Injective opening := by
  intro condition other
  cases condition <;> cases other <;> decide

variable {condition : Condition}

theorem isNeutral_opening (condition : Condition) : Line.isNeutral condition.opening = true := by
  cases condition <;> decide

theorem not_isIdle_opening (line : Line) (condition : Condition) :
    Manifest.isIdle (line.leading ++ condition.opening) = false :=
  Line.isIdle_parts line.isWhite_leading rfl (by decide)

theorem isAdded_opening (line : Line) (condition : Condition) :
    Line.IsAdded (line.leading ++ condition.opening) :=
  line.isAdded_leading rfl condition.isNeutral_opening

theorem isAdded_close (line : Line) : Line.IsAdded (line.leading ++ Directive.close.render) :=
  line.isAdded_leading rfl (by decide)

theorem reworks_guard (condition : Condition) (line : Line) {body : List Line}
    (hsolid : ∀ l ∈ body, l.isBlank = false) :
    Reworks body (condition.guard line.leading body) := by
  refine Reworks.of_solid hsolid (fun l hl => ?_)
    ⟨_, List.mem_cons_self, condition.not_isIdle_opening line⟩
  rcases List.mem_cons.1 hl with rfl | hl
  · exact .inr (isAdded_opening line condition)
  · rcases List.mem_append.1 hl with hl | hl
    · exact .inl hl
    · rw [List.mem_singleton.1 hl]
      exact .inr (isAdded_close line)

end Condition

theorem not_isBlank_of_mem_takeWhile {style : BlockStyle} {column : Nat} {ls : List Line}
    {line : Line} (h : line ∈ ls.takeWhile (style.continues column)) : line.isBlank = false := by
  have hcontinues := List.mem_takeWhile_imp h
  rw [BlockStyle.continues, Bool.and_eq_true, Bool.not_eq_true'] at hcontinues
  exact hcontinues.1

namespace CertificateGuard

theorem reworks_guardPaths (previous : Option Line) (ls : List Line) :
    Reworks ls (guardPaths previous ls) := by
  induction ls generalizing previous with
  | nil => exact Reworks.refl []
  | cons line rest ih =>
      have hline : Reworks [line] (guardPathLine previous line) := by
        unfold guardPathLine
        split
        · rename_i condition hcondition
          split
          · exact Reworks.refl [line]
          · have hitem := isItem_of_pathCondition? hcondition
            exact condition.reworks_guard line
              (List.forall_mem_singleton.2 (Line.not_isBlank_of_isItem hitem))
        · exact Reworks.refl [line]
      refine hline.append (ih (some line)) fun h => ?_
      rw [h]
      rfl

end CertificateGuard

namespace ItemGuard

theorem reworks_guardItems (itemGuard : ItemGuard) (previous : Option Line) (ls : List Line) :
    Reworks ls (itemGuard.guardItems previous 0 ls) := by
  refine itemGuard.guardItems_induction (motive := fun _ ls out => Reworks ls out ∧
    (ls = [] → out = [])) (fun _ => ⟨Reworks.refl [], id⟩) ?_ ?_ previous ls |>.1
  · intro previous line rest out htargets ih
    have hitem := isItem_of_targets htargets
    have hsolid : ∀ l ∈ line :: itemBody line rest, l.isBlank = false :=
      List.forall_mem_cons.2 ⟨Line.not_isBlank_of_isItem hitem,
        fun l hl => not_isBlank_of_mem_takeWhile hl⟩
    have hsplit : line :: rest = (line :: itemBody line rest) ++
        rest.dropWhile (BlockStyle.item.continues line.indent) := by
      rw [List.cons_append, itemBody, BlockStyle.body, List.takeWhile_append_dropWhile]
    refine ⟨?_, by simp⟩
    nth_rewrite 1 [hsplit]
    exact (itemGuard.condition.reworks_guard line hsolid).append ih.1 ih.2
  · intro previous line rest out _ ih
    exact ⟨(Reworks.refl [line]).append ih.1 ih.2, by simp⟩

theorem reworks_apply (itemGuard : ItemGuard) (ls : List Line) :
    Reworks ls (itemGuard.apply ls) :=
  itemGuard.reworks_guardItems none ls

end ItemGuard

theorem BlankRuns.getLast?_collapseFrom (opened : Bool) (ls : List Line) :
    (collapseFrom opened ls).getLast? = ls.getLast? := by
  fun_induction collapseFrom opened ls with
  | case1 => rfl
  | case2 => rfl
  | case3 opened line next rest _ ih => rw [ih, List.getLast?_cons_cons]
  | case4 opened line next rest _ ih =>
      rw [List.getLast?_cons, ih, List.getLast?_cons_cons, List.getLast?_cons]
      rfl

theorem BlankRuns.reworks_collapse (ls : List Line) : Reworks ls (collapse ls) :=
  .of_added (fun h => (getLast?_collapseFrom false ls).trans h)
    (fun _ h => .inl (mem_of_mem_collapseFrom h))
    (.inl fun _ h hsolid => mem_collapseFrom hsolid h)

/-! ## Values -/

namespace ValuesField

variable {field : ValuesField} {ls ls' : List Line}

structure IsNeutral (field : ValuesField) : Prop where
  key : Line.isNeutral (field.key ++ [':']) = true
  path : Line.isNeutral field.path = true
  fallback : Line.isNeutral field.fallback = true

theorem isAdded_of_mem_value (hfield : field.IsSound) (h : field.IsNeutral) {width : Nat}
    {line : Line} (hline : line ∈ field.value width) : line.IsAdded := by
  have hif : Line.isNeutral (Directive.ifThen field.path).render = true := by
    rw [Directive.render_ifThen_blanks]
    exact Line.isNeutral_append_space (by decide) (Line.isNeutral_append_space h.path (by decide))
  have hlookup : Line.isNeutral (Directive.trimmedValue (field.lookup width)).render = true := by
    have hrender : (Directive.trimmedValue (field.lookup width)).render =
        "\x7b\x7b- toYaml".toList ++ ' ' :: (field.path ++ ' ' :: ("| nindent".toList ++
          ' ' :: (Text.ofNat width ++ ' ' :: "\x7d\x7d".toList))) := by
      rw [Directive.render_trimmedValue, lookup_eq]
      simp only [List.append_assoc]
      rfl
    rw [hrender]
    refine Line.isNeutral_append_space (by decide) (Line.isNeutral_append_space h.path ?_)
    exact Line.isNeutral_append_space (by decide)
      (Line.isNeutral_append_space (Line.isNeutral_ofNat width) (by decide))
  have hfallback : "---".toList.isPrefixOf field.fallback = false := by
    rcases hfield.fallback with heq | heq <;> rw [heq] <;> rfl
  have hindented : ∀ {t : Text}, "---".toList.isPrefixOf t = false → Line.isNeutral t = true →
      Line.IsAdded (padding width ++ t) := Line.isAdded_indented (isIndentation_padding width)
  simp only [value, List.map_cons, List.map_nil, List.mem_cons, List.not_mem_nil,
    or_false] at hline
  rcases hline with rfl | rfl | rfl | rfl | rfl
  · exact hindented rfl hif
  · exact hindented rfl hlookup
  · exact hindented rfl (by decide)
  · exact hindented hfallback h.fallback
  · exact hindented rfl (by decide)

theorem exists_not_isIdle_value (field : ValuesField) (width : Nat) :
    ∃ line ∈ field.value width, Manifest.isIdle line = false :=
  ⟨_, List.mem_cons_self, Line.isIdle_parts
    (fun _ hc => isWhiteSpace_of_isIndentation (isIndentation_padding width _ hc)) rfl (by decide)⟩

theorem Fills.reworks (hfield : field.IsSound) (h : field.IsNeutral) (hfills : field.Fills ls ls') :
    Reworks ls ls' := by
  cases hfills with
  | same => exact Reworks.refl ls
  | @block before after line start hkey hstart =>
      have hblock : Reworks (line :: after.takeWhile
          (field.style.continues (field.style.column line))) (field.render start line.column) := by
        obtain ⟨written, hwritten, hbusy⟩ := field.exists_not_isIdle_value (line.column + 2)
        refine Reworks.of_solid (List.forall_mem_cons.2 ⟨Line.not_isBlank_of_hasKey hkey,
          fun l hl => not_isBlank_of_mem_takeWhile hl⟩) (fun l hl => .inr ?_)
          ⟨written, List.mem_cons_of_mem _ hwritten, hbusy⟩
        rw [render_eq, List.append_assoc] at hl
        rcases List.mem_cons.1 hl with rfl | hl
        · exact Line.isAdded_key hkey hfield.key hstart (List.prefix_append _ _) h.key
        · exact isAdded_of_mem_value hfield h hl
      have hsplit : before ++ line :: after = before ++ (line :: after.takeWhile
          (field.style.continues (field.style.column line))) ++
          after.dropWhile (field.style.continues (field.style.column line)) := by
        rw [List.append_assoc, List.cons_append, List.takeWhile_append_dropWhile]
      rw [hsplit]
      exact (((Reworks.refl before).append hblock (by simp)).append (Reworks.refl _) id)
  | @insert before after line hitem =>
      have hitems : Reworks (line :: after.takeWhile (BlockStyle.item.continues line.indent))
          (line :: (after.takeWhile (BlockStyle.item.continues line.indent) ++
            field.render (padding line.column) line.column)) := by
        obtain ⟨written, hwritten, hbusy⟩ := field.exists_not_isIdle_value (line.column + 2)
        refine Reworks.of_solid (List.forall_mem_cons.2 ⟨Line.not_isBlank_of_isItem hitem,
          fun l hl => not_isBlank_of_mem_takeWhile hl⟩) (fun l hl => ?_)
          ⟨written, List.mem_cons_of_mem _ (List.mem_append_right _
            (List.mem_cons_of_mem _ hwritten)), hbusy⟩
        rw [render_eq, List.append_assoc (padding _)] at hl
        rw [List.mem_cons, List.mem_append, List.mem_cons] at hl
        rcases hl with rfl | hl | rfl | hl
        · exact .inl List.mem_cons_self
        · exact .inl (List.mem_cons_of_mem line hl)
        · obtain ⟨c, tail, hcons, hc⟩ := hfield.key.exists_head []
          have hdash : ('-' == c) = false := by simpa using Ne.symm (hc.no_dash rfl)
          refine .inr (Line.isAdded_indented (isIndentation_padding _) ?_ h.key)
          rw [hcons, List.cons_append]
          simp [List.isPrefixOf, hdash]
        · exact .inr (isAdded_of_mem_value hfield h hl)
      have hsplit : before ++ line :: after = before ++ (line :: after.takeWhile
          (BlockStyle.item.continues line.indent)) ++
          after.dropWhile (BlockStyle.item.continues line.indent) := by
        rw [List.append_assoc, List.cons_append, List.takeWhile_append_dropWhile]
      rw [hsplit, ← List.cons_append, ← List.append_assoc]
      exact (((Reworks.refl before).append hitems (by simp)).append (Reworks.refl _) id)

end ValuesField

namespace Values

variable {ls ls' : List Line}

theorem isNeutral_env : env.IsNeutral :=
  ⟨by decide, by decide, by decide⟩

theorem isNeutral_resources : resources.IsNeutral :=
  ⟨by decide, by decide, by decide⟩

theorem isNeutral_podSecurityContext : podSecurityContext.IsNeutral :=
  ⟨by decide, by decide, by decide⟩

theorem isNeutral_containerSecurityContext : containerSecurityContext.IsNeutral :=
  ⟨by decide, by decide, by decide⟩

theorem last_replaceImage {container : Container} {key : Nat} {replacement : List Line}
    (hkey : (lineAt ls key).hasKey "image".toList = true) (h : ls.getLast? = some []) :
    (replaceImage container key replacement ls).getLast? = some [] := by
  obtain ⟨front, rfl⟩ := List.getLast?_eq_some_iff.1 h
  have hne : front.length ≠ key := by
    rintro rfl
    rw [lineAt_length, hasKey_nil] at hkey
    cases hkey
  have hpolicy : isPullPolicy container.column [] = false := by
    rw [isPullPolicy, hasKey_nil, Bool.and_false]
  rw [replaceImage, List.zipIdx_append, List.flatMap_append, List.getLast?_append]
  simp [hne, hpolicy]

theorem reworks_fillImage (h : fillImage ls = .ok ls') : Reworks ls ls' := by
  rcases exists_of_fillImage h with rfl | ⟨container, key, start, hkey, hstart, rfl⟩
  · exact Reworks.refl ls'
  · have hindented : ∀ c ∈ padding container.column, isIndentation c = true :=
      isIndentation_padding container.column
    refine Reworks.of_added (last_replaceImage hkey) (fun line hline => ?_)
      (.inr ⟨_, mem_replaceImage_of_mem (lt_of_hasKey hkey)
        (List.mem_cons_of_mem _ List.mem_cons_self), ?_⟩)
    · refine (mem_replaceImage hline).symm.imp_right fun hwritten => ?_
      simp only [imageLines, List.append_assoc, List.mem_cons, List.not_mem_nil,
        or_false] at hwritten
      rcases hwritten with rfl | rfl
      · have hsound : Line.IsPlainKey "image".toList := ⟨by decide, by decide, by decide⟩
        exact Line.isAdded_key hkey hsound hstart ⟨_, rfl⟩ (by decide)
      · exact Line.isAdded_indented hindented rfl (by decide)
    · rw [List.append_assoc]
      exact Line.isIdle_parts (fun c hc => isWhiteSpace_of_isIndentation (hindented c hc)) rfl
        (by decide)

theorem reworks_fillArgs (ls : List Line) : Reworks ls (fillArgs ls) := by
  rcases exists_of_fillArgs ls with hsame | ⟨before, line, after, rfl, hkey, hfill⟩
  · rw [hsame]
    exact Reworks.refl ls
  · have hargs : Reworks (line :: after.takeWhile (BlockStyle.sequence.continues line.column))
        (line :: argLines (padding (line.column + 2)) (argItems line after)) := by
      have hindentation := isIndentation_getD (isIndentation_padding (line.column + 2))
        (argItems line after)
      have hrange : ∃ l ∈ argLines (padding (line.column + 2)) (argItems line after),
          Manifest.isIdle l = false := by
        refine ⟨_, List.mem_append_left _ (List.mem_append_right _ List.mem_cons_self), ?_⟩
        exact Line.isIdle_parts
          (fun c hc => isWhiteSpace_of_isIndentation (hindentation c hc)) rfl (by decide)
      obtain ⟨written, hwritten, hbusy⟩ := hrange
      refine Reworks.of_solid (List.forall_mem_cons.2 ⟨Line.not_isBlank_of_hasKey hkey,
        fun l hl => not_isBlank_of_mem_takeWhile hl⟩) (fun l hl => ?_)
        ⟨written, List.mem_cons_of_mem _ hwritten, hbusy⟩
      have hitem : ∀ item ∈ argItems line after,
          item ∈ line :: after.takeWhile (BlockStyle.sequence.continues line.column) :=
        fun item hitem => List.mem_cons_of_mem line (List.mem_filter.1 hitem).1
      rcases List.mem_cons.1 hl with rfl | hl
      · exact .inl List.mem_cons_self
      · have htexts : ∀ t ∈ argTexts, "---".toList.isPrefixOf t = false ∧
            Line.isNeutral t = true := by decide
        rcases mem_argLines hl with ⟨hl, -⟩ | ⟨s, hs, t, ht, rfl⟩
        · exact .inl (hitem l hl)
        · exact .inr (Line.isAdded_indented (isIndentation_of_mem_leadings
            (isIndentation_padding (line.column + 2)) hs) (htexts t ht).1 (htexts t ht).2)
    have hsplit : before ++ line :: after = before ++ (line :: after.takeWhile
        (BlockStyle.sequence.continues line.column)) ++
        after.dropWhile (BlockStyle.sequence.continues line.column) := by
      rw [List.append_assoc, List.cons_append, List.takeWhile_append_dropWhile]
    rw [hfill, hsplit, ← List.cons_append, ← List.append_assoc]
    exact (((Reworks.refl before).append hargs (by simp)).append (Reworks.refl _) id)

end Values

/-! ## Deployments -/

namespace Deployment

variable {ls ls' : List Line}

theorem reworks_fillValues (h : fillValues ls = .ok ls') : Reworks ls ls' := by
  obtain ⟨ls₁, ls₂, ls₃, ls₄, himage, henv, hpod, hcontainer, hresources⟩ :=
    exists_of_fillValues h
  have hls₂ := (Values.reworks_fillImage himage).trans
    ((Values.fills_fillEnv henv).reworks Values.isSound_env Values.isNeutral_env)
  have hls₃ := hls₂.trans ((Values.fills_fillPodSecurityContext hpod).reworks
    Values.isSound_podSecurityContext Values.isNeutral_podSecurityContext)
  have hls₄ := hls₃.trans ((Values.fills_fillContainerSecurityContext hcontainer).reworks
    Values.isSound_containerSecurityContext Values.isNeutral_containerSecurityContext)
  exact hls₄.trans ((Values.fills_fillResources hresources).reworks
    Values.isSound_resources Values.isNeutral_resources)

theorem reworks_guardCertificates (ls : List Line) : Reworks ls (guardCertificates ls) := by
  have hpaths := (Values.reworks_fillArgs ls).trans (CertificateGuard.reworks_guardPaths none _)
  have hwebhook := (hpaths.trans (ItemGuard.webhookVolumeMount.reworks_apply _)).trans
    (ItemGuard.webhookVolume.reworks_apply _)
  exact (hwebhook.trans (ItemGuard.metricsVolumeMount.reworks_apply _)).trans
    (ItemGuard.metricsVolume.reworks_apply _)

end Deployment

end OperatorChart
