import OperatorChart.Proofs.DocumentLines
import OperatorChart.Proofs.GuardNesting
import OperatorChart.Proofs.NamingShape
import OperatorChart.Proofs.ValuePasses
/-!
# Manifests with their names substituted

A substitution of names leaves a line alone, or it puts an expression behind a common start. So
every line stays where it is, as an item or not, and says nothing more about keys than it did.
Main statement: a manifest that is ready for the edits of the manager is still ready when its
names are substituted.
-/

namespace OperatorChart

open Text

/-- The keys that are looked for in a whole document and not in the manager's item only. -/
def documentKeys : List Text :=
  ["imagePullPolicy".toList, Values.podSecurityContext.key, "serviceAccountName".toList]

namespace Line

/-! ## Lines that share a start -/

section Start

variable {s t rest rest' : Text} {c d c' d' : Char}

theorem takeWhile_append_stop {p : Char → Bool} (hc : p c = false) (s rest : Text) :
    (s ++ c :: rest).takeWhile p = s.takeWhile p := by
  induction s with
  | nil => exact List.takeWhile_cons_of_neg (by simp [hc])
  | cons x s ih => rw [List.cons_append, List.takeWhile_cons, List.takeWhile_cons, ih]

theorem dropWhile_append_stop {p : Char → Bool} (hc : p c = false) (s rest : Text) :
    (s ++ c :: rest).dropWhile p = s.dropWhile p ++ c :: rest := by
  induction s with
  | nil => exact List.dropWhile_cons_of_neg (by simp [hc])
  | cons x s ih =>
      rw [List.cons_append, List.dropWhile_cons, List.dropWhile_cons, ih]
      split <;> rfl

theorem trimmed_solid (hc : Unicode.isWhiteSpace c = false) (s rest : Text) :
    trimmed (s ++ c :: rest) = trimStart s ++ c :: trimEnd rest := by
  rw [trimmed, trim, trimStart, dropWhile_append_stop hc, trimEnd_append_cons hc, trimStart]

/-- Two solid characters behind a start leave it to the start whether a line is an item. -/
theorem isItem_solid (hc : Unicode.isWhiteSpace c = false) (hd : Unicode.isWhiteSpace d = false)
    (s rest : Text) : isItem (s ++ c :: d :: rest) = "- ".toList.isPrefixOf (trimStart s) := by
  have hrest : trimEnd (d :: rest) = d :: trimEnd rest := trimEnd_append_cons (s := []) hd
  have hspace : ∀ {x : Char}, Unicode.isWhiteSpace x = false → (' ' == x) = false := by
    rintro x hx
    rw [beq_eq_false_iff_ne]
    rintro rfl
    cases hx
  rw [isItem, trimmed_solid hc, hrest]
  rcases trimStart s with _ | ⟨a, _ | ⟨b, u⟩⟩
  · simp [List.isPrefixOf, hspace hd]
  · simp [List.isPrefixOf, hspace hc]
  · simp [List.isPrefixOf]

theorem marker_solid (hc : Unicode.isWhiteSpace c = false) (hd : Unicode.isWhiteSpace d = false)
    (s rest : Text) : marker (s ++ c :: d :: rest) = if "- ".toList.isPrefixOf (trimStart s) then
      '-' :: ((trimStart s).drop 1).takeWhile Unicode.isWhiteSpace else [] := by
  rw [marker, isItem_solid hc hd, trimmed_solid hc]
  split
  · rename_i hprefix
    obtain ⟨u, hu⟩ := List.isPrefixOf_iff_prefix.1 hprefix
    have hdrop : (trimStart s ++ c :: trimEnd (d :: rest)).drop 1 =
        (trimStart s).drop 1 ++ c :: trimEnd (d :: rest) := by
      rw [← hu]
      rfl
    rw [hdrop, takeWhile_append_stop hc]
  · rfl

end Start

/-! ## Lines that say no more -/

/-- Whether a line stands where another one does and says nothing more about keys. -/
structure SaysNoMore (line line' : Line) : Prop where
  blank : line'.isBlank = line.isBlank
  indent : line'.indent = line.indent
  item : line'.isItem = line.isItem
  column : line'.column = line.column
  indented : line.IsIndented → line'.IsIndented
  keys : ∀ key ∈ documentKeys, line'.hasKey key = true → line.hasKey key = true
  entries : ∀ entry ∈ watchedEntries, line'.isEntry entry.1 entry.2 = true →
    line.isEntry entry.1 entry.2 = true

namespace SaysNoMore

variable {line line' line'' : Line}

theorem refl (line : Line) : line.SaysNoMore line :=
  ⟨rfl, rfl, rfl, rfl, id, fun _ _ => id, fun _ _ => id⟩

theorem trans (h : line.SaysNoMore line') (h' : line'.SaysNoMore line'') :
    line.SaysNoMore line'' where
  blank := h'.blank.trans h.blank
  indent := h'.indent.trans h.indent
  item := h'.item.trans h.item
  column := h'.column.trans h.column
  indented := h'.indented ∘ h.indented
  keys key hkey := h.keys key hkey ∘ h'.keys key hkey
  entries entry hentry := h.entries entry hentry ∘ h'.entries entry hentry

theorem isDeeper (h : line.SaysNoMore line') (width : Nat) :
    line'.isDeeper width = line.isDeeper width := by
  rw [Line.isDeeper, Line.isDeeper, h.blank, h.indent]

end SaysNoMore

/-- A brace that comes into a line makes it none of the watched entries. -/
theorem not_watched_of_brace {line : Line} (h : '{' ∈ line) {entry : Text × Text}
    (hentry : entry ∈ watchedEntries) : line.isEntry entry.1 entry.2 = false := by
  have hword : IsWord ['{'] := ⟨by decide, by decide⟩
  have htrimmed : ['{'] <:+: line.trimmed := hword.infix_trim ((List.singleton_infix_iff _ _).2 h)
  have hcontent : '{' ∈ line.content := by
    rw [List.singleton_infix_iff, ← marker_append_content, List.mem_append] at htrimmed
    refine htrimmed.resolve_left fun hmem => ?_
    rcases isLead_of_mem_marker hmem with h | h <;> cases h
  have hplain : ∀ entry ∈ watchedEntries, '{' ∉ entry.1 ∧ '{' ∉ entry.2 := by decide
  rw [← Bool.not_eq_true]
  intro heq
  rcases infix_of_isEntry hword (by decide) (by decide) (by decide) heq
    ((List.singleton_infix_iff _ _).2 hcontent) with hmem | hmem
  · exact (hplain entry hentry).1 ((List.singleton_infix_iff _ _).1 hmem)
  · exact (hplain entry hentry).2 ((List.singleton_infix_iff _ _).1 hmem)

theorem saysNoMore_of_start {s rest rest' : Text} {c d c' d' : Char}
    (hc : Unicode.isWhiteSpace c = false) (hd : Unicode.isWhiteSpace d = false)
    (hc' : Unicode.isWhiteSpace c' = false) (hd' : Unicode.isWhiteSpace d' = false)
    (hbrace : '{' ∈ s ++ c' :: d' :: rest')
    (hkeys : ∀ key ∈ documentKeys, hasKey (s ++ c' :: d' :: rest') key = true →
      hasKey (s ++ c :: d :: rest) key = true) :
    SaysNoMore (s ++ c :: d :: rest) (s ++ c' :: d' :: rest') := by
  have hindentation := fun {x : Char} => isIndentation_of_not_isWhiteSpace (c := x)
  have hindent : indent (s ++ c' :: d' :: rest') = indent (s ++ c :: d :: rest) := by
    rw [indent, indent, leading, leading, takeWhile_append_stop (hindentation hc),
      takeWhile_append_stop (hindentation hc')]
  refine ⟨?_, hindent, ?_, ?_, fun hline => .inr ?_, hkeys, fun entry hentry h => ?_⟩
  · have hblank : ∀ {x : Char} (rest : Text), Unicode.isWhiteSpace x = false →
        isBlank (s ++ x :: rest) = false := fun rest hx => not_isBlank_of_mem (by simp) hx
    rw [hblank _ hc, hblank _ hc']
  · rw [isItem_solid hc hd, isItem_solid hc' hd']
  · rw [column, column, hindent, marker_solid hc hd, marker_solid hc' hd']
  · have hnot : isBlank (s ++ c :: d :: rest) = false := not_isBlank_of_mem (by simp) hc
    have hline := hline.resolve_left (by simp [hnot])
    rw [dropWhile_append_stop (hindentation hc)] at hline
    rw [dropWhile_append_stop (hindentation hc')]
    cases hs : s.dropWhile isIndentation with
    | nil => simpa using hc'
    | cons x u => simpa [hs] using hline
  · rw [not_watched_of_brace hbrace hentry] at h
    cases h

end Line

namespace Naming

variable {project : Text}

theorem saysNoMore_fillNamespace (h : IsPlainProject project) (line : Line) :
    line.SaysNoMore (fillNamespace project line) := by
  by_cases hocc : project ≠ [] ∧ namespaceLiteral project <:+: line
  · obtain ⟨hne, hocc⟩ := hocc
    have hliteral := isLiteral_namespaceLiteral h
    obtain ⟨c, d, needle, hneedle⟩ : ∃ c d needle, namespaceLiteral project = c :: d :: needle := by
      cases project with
      | nil => exact absurd rfl hne
      | cons c project => cases project <;> exact ⟨_, _, _, rfl⟩
    obtain ⟨s, rest, hline, hreplaced⟩ :=
      exists_first_occurrence hliteral.ne_nil hocc releaseNamespace
    have hfill : fillNamespace project line =
        s ++ (releaseNamespace ++ replaceAll rest (namespaceLiteral project) releaseNamespace) := by
      rw [fillNamespace, if_neg (by simpa using hne)]
      exact hreplaced
    have hkeys : ∀ key ∈ documentKeys, Line.hasKey (fillNamespace project line) key = true →
        line.hasKey key = true := by
      have hplain : ∀ key ∈ documentKeys, key ≠ [] ∧
          (∀ c, key.head? = some c → c ≠ '-' ∧ Unicode.isWhiteSpace c = false) ∧ ':' ∉ key ∧
          '{' ∉ key := by decide
      intro key hkey hhas
      obtain ⟨hnil, hhead, hcolon, hbrace⟩ := hplain key hkey
      exact (hasKey_of_hasKey_fillNamespace h ⟨hnil, hhead, hcolon⟩ hbrace hhas).1
    rw [hneedle] at hliteral hline
    rw [hfill, hline] at hkeys ⊢
    exact Line.saysNoMore_of_start (hliteral.solid c (by simp)) (hliteral.solid d (by simp)) rfl rfl
      (List.mem_append_right _ List.mem_cons_self) hkeys
  · rw [fillNamespace_eq_self fun hne hinfix => hocc ⟨hne, hinfix⟩]
    exact .refl line

theorem saysNoMore_fillManagedByLine (line : Line) :
    line.SaysNoMore (fillManagedByLine line) := by
  cases hmanaged : isManagedByBuild line with
  | false =>
      rw [fillManagedByLine, if_neg (by simp [hmanaged])]
      exact .refl line
  | true =>
      obtain ⟨gap, tail, hparts, -⟩ := parts_of_isManagedByBuild hmanaged
      have hline :
          line = line.leading ++ (managedByLabel ++ (gap ++ ("kustomize".toList ++ tail))) := by
        rw [← hparts]
        exact List.takeWhile_append_dropWhile.symm
      have hfill : fillManagedByLine line = line.leading ++ (managedByLabel ++
          ' ' :: (Directive.value ".Release.Service".toList).render) := by
        rw [fillManagedByLine, if_pos hmanaged, List.append_assoc]
      have hkeys : ∀ key ∈ documentKeys, Line.hasKey (fillManagedByLine line) key = true →
          line.hasKey key = true := by
        have hother : ∀ key ∈ documentKeys, key ≠ managedByKey := by decide
        intro key hkey hhas
        rwa [fillManagedByLine_of_hasKey (hother key hkey) hhas] at hhas
      have hbrace : '{' ∈ ' ' :: (Directive.value ".Release.Service".toList).render := by decide
      obtain ⟨label, hlabel⟩ : ∃ label, managedByLabel = 'a' :: 'p' :: label := ⟨_, rfl⟩
      rw [hfill] at hkeys ⊢
      generalize line.leading = s at hline hkeys ⊢
      rw [hline] at hkeys ⊢
      rw [hlabel] at hkeys ⊢
      exact Line.saysNoMore_of_start rfl rfl rfl rfl
        (List.mem_append_right _ (List.mem_append_right ('a' :: 'p' :: label) hbrace)) hkeys

def nameLine (project : Text) (line : Line) : Line :=
  fillManagedByLine (fillNamespace project line)

theorem lines_fillNames (h : IsPlainProject project) (t : Text) :
    lines (Deployment.fillNames project t) = (lines t).map (nameLine project) := by
  rw [Deployment.fillNames, lines_fillManagedBy, isLinewise_fillNamespace h.solid, List.map_map]
  rfl

theorem saysNoMore_nameLine (h : IsPlainProject project) (line : Line) :
    line.SaysNoMore (nameLine project line) :=
  (saysNoMore_fillNamespace h line).trans (saysNoMore_fillManagedByLine _)

end Naming

/-! ## Documents whose lines say no more -/

section Documents

variable {f : Line → Line} (hf : ∀ line : Line, line.SaysNoMore (f line)) {ls : List Line}

include hf

theorem isDeeper_comp (width : Nat) : Line.isDeeper width ∘ f = Line.isDeeper width :=
  funext fun line => (hf line).isDeeper width

theorem takeWhile_isDeeper_map (width : Nat) (ls : List Line) :
    (ls.map f).takeWhile (Line.isDeeper width) = (ls.takeWhile (Line.isDeeper width)).map f := by
  rw [List.takeWhile_map, isDeeper_comp hf]

theorem Stops.map_iff {width : Nat} : Stops width (ls.map f) ↔ Stops width ls := by
  cases ls with
  | nil => rfl
  | cons line rest => rw [List.map_cons, stops_cons, stops_cons, (hf line).isDeeper]

namespace ItemGuard

variable {itemGuard : ItemGuard} (hguard : itemGuard ∈ itemGuards)

include hguard

theorem isTarget_of_map {line : Line} (h : itemGuard.isTarget (f line) (ls.map f) = true) :
    itemGuard.isTarget line ls = true := by
  have hhead : (itemGuard.headKey, itemGuard.headValue) ∈ watchedEntries :=
    List.mem_cons_of_mem _ (List.mem_flatMap.2 ⟨itemGuard, hguard, List.mem_cons_self⟩)
  have hbody : (itemGuard.bodyKey, itemGuard.bodyValue) ∈ watchedEntries :=
    List.mem_cons_of_mem _ (List.mem_flatMap.2
      ⟨itemGuard, hguard, List.mem_cons_of_mem _ List.mem_cons_self⟩)
  rw [isTarget, (hf line).indent, takeWhile_isDeeper_map hf, List.any_map, Bool.and_eq_true,
    Bool.and_eq_true, (hf line).item, List.any_eq_true] at h
  obtain ⟨⟨hitem, hentry⟩, entry, hmem, hentry'⟩ := h
  rw [isTarget, Bool.and_eq_true, Bool.and_eq_true, List.any_eq_true]
  exact ⟨⟨hitem, (hf line).entries _ hhead hentry⟩, entry, hmem, (hf entry).entries _ hbody hentry'⟩

theorem noTargetWithin_map {width : Nat} (h : itemGuard.noTargetWithin width ls = true) :
    itemGuard.noTargetWithin width (ls.map f) = true := by
  induction ls with
  | nil => rfl
  | cons line rest ih =>
      simp only [List.map_cons, noTargetWithin, (hf line).isDeeper, Bool.or_eq_true,
        Bool.not_eq_true', Bool.and_eq_true] at h ⊢
      refine h.imp_right fun hinner => ⟨?_, ih hinner.2⟩
      have htarget := hinner.1
      rw [← Bool.not_eq_true] at htarget ⊢
      exact fun h => htarget (isTarget_of_map hf hguard h)

theorem isUnnested_map (h : itemGuard.isUnnested ls = true) :
    itemGuard.isUnnested (ls.map f) = true := by
  induction ls with
  | nil => rfl
  | cons line rest ih =>
      simp only [List.map_cons, isUnnested, (hf line).indent, Bool.and_eq_true, Bool.or_eq_true,
        Bool.not_eq_true'] at h ⊢
      refine ⟨h.1.imp (fun htarget => ?_) (noTargetWithin_map hf hguard), ih h.2⟩
      rw [← Bool.not_eq_true] at htarget ⊢
      exact fun h => htarget (isTarget_of_map hf hguard h)

end ItemGuard

theorem isManagerName_of_map {line : Line} (h : (f line).isManagerName = true) :
    line.isManagerName = true :=
  (hf line).entries _ List.mem_cons_self h

theorem NamedOnce.map (h : NamedOnce ls) : NamedOnce (ls.map f) := by
  rw [NamedOnce, List.countP_map] at *
  exact (List.countP_mono_left fun line _ => isManagerName_of_map hf).trans h

theorem IsShaped.map (h : IsShaped ls) : IsShaped (ls.map f) := by
  refine ⟨fun l hl => ?_, h.named.map hf, fun itemGuard hguard =>
    ItemGuard.isUnnested_map hf hguard (h.unnested itemGuard hguard)⟩
  obtain ⟨line, hline, rfl⟩ := List.mem_map.1 hl
  exact (hf line).indented (h.indented line hline)

theorem PoliciesStop.map (h : PoliciesStop ls) : PoliciesStop (ls.map f) := by
  induction ls with
  | nil => trivial
  | cons line rest ih =>
      refine ⟨fun hkey => ?_, ih h.2⟩
      rw [(hf line).column, Stops.map_iff hf]
      exact h.1 ((hf line).keys _ List.mem_cons_self hkey)

/-! ## The contexts of pods -/

theorem precedesAccount_of_map {column : Nat} (h : precedesAccount column (ls.map f) = true) :
    precedesAccount column ls = true := by
  rw [precedesAccount, List.dropWhile_map, isDeeper_comp hf, List.head?_map,
    Option.any_map] at h
  rw [precedesAccount]
  cases hhead : (ls.dropWhile (Line.isDeeper column)).head? with
  | none =>
      rw [hhead] at h
      cases h
  | some line =>
      rw [hhead, Option.any_some, (hf line).indent, Bool.and_eq_true] at h
      rw [Option.any_some, Bool.and_eq_true]
      exact h.imp_right ((hf line).keys _ (by decide))

theorem isPod_of_map {line : Line} (h : (f line).isPod (ls.map f) = true) :
    line.isPod ls = true := by
  rw [Line.isPod, (hf line).item, (hf line).column, Bool.and_eq_true, Bool.and_eq_true] at h
  rw [Line.isPod, Bool.and_eq_true, Bool.and_eq_true]
  exact ⟨⟨h.1.1, (hf line).keys _ (by decide) h.1.2⟩, precedesAccount_of_map hf h.2⟩

theorem NamesManager.of_map {dash : Line} {inner : List Line}
    (h : NamesManager (f dash) (inner.map f)) : NamesManager dash inner := by
  rcases h with hdash | ⟨above, entry, below, heq, hentry, hitem, hindent, habove⟩
  · exact .inl (isManagerName_of_map hf hdash)
  · obtain ⟨above, rest, rfl, rfl, hrest⟩ := List.map_eq_append_iff.1 heq
    obtain ⟨entry, below, rfl, rfl, rfl⟩ := List.map_eq_cons_iff.1 hrest
    rw [(hf entry).item] at hitem
    rw [(hf entry).indent, (hf dash).column] at hindent
    rw [(hf dash).column] at habove
    refine .inr ⟨above, entry, below, rfl, isManagerName_of_map hf hentry, hitem, hindent,
      fun l hl => ?_⟩
    rw [← (hf l).indent]
    exact habove (f l) (List.mem_map_of_mem hl)

theorem Manages.of_map {before inner after : List Line} {dash : Line}
    (h : Manages (ls.map f) (before.map f) (f dash) (inner.map f) (after.map f))
    (heq : ls = before ++ dash :: (inner ++ after)) : Manages ls before dash inner after where
  eq := heq
  item := (hf dash).item.symm.trans h.item
  deep l hl := by
    rw [← (hf l).isDeeper, ← (hf dash).indent]
    exact h.deep (f l) (List.mem_map_of_mem hl)
  stops := by
    rw [← Stops.map_iff hf, ← (hf dash).indent]
    exact h.stops
  named := h.named.of_map hf

theorem PodsAreKeys.map (h : PodsAreKeys ls) : PodsAreKeys (ls.map f) := by
  rintro before' line' after' column front' heq
    ⟨start', dash', inner', back', behind', rfl, rfl, hitem, rfl, hmanages⟩ hpod
  rw [List.singleton_append] at hitem hmanages
  rw [← heq] at hmanages
  obtain ⟨start, rest, rfl, rfl, hrest⟩ := List.map_eq_append_iff.1 hmanages.eq
  obtain ⟨dash, rest, rfl, rfl, htail⟩ := List.map_eq_cons_iff.1 hrest
  obtain ⟨inner, behind, rfl, rfl, rfl⟩ := List.map_eq_append_iff.1 htail
  rw [← List.map_cons] at hitem
  obtain ⟨front, rest, hfront, rfl, hrest⟩ := List.map_eq_append_iff.1 hitem
  obtain ⟨line, back, rfl, rfl, rfl⟩ := List.map_eq_cons_iff.1 hrest
  have hplace := InManager.of_manages (hmanages.of_map hf rfl) hfront
  rw [← List.map_append] at hpod
  rw [(hf line).column, (hf dash).column]
  exact h _ line _ dash.column front hplace.1 hplace.2 (isPod_of_map hf hpod)

end Documents

end OperatorChart
