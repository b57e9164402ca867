import OperatorChart.Proofs.LineEndPasses
/-!
# Texts with carriage returns at the ends of their lines

A text whose line breaks have a carriage return in front of them has the lines of the text, each but
the last one with a carriage return at its end. The guard of a whole resource and the substitutions
of literals keep it so: what they make of the two texts differs in ends of lines only.
-/

namespace OperatorChart

open Text Line

namespace Text

/-! ## Carriage returns in a text -/

/-- The text with a carriage return in front of every line break. -/
def withReturns (t : Text) : Text :=
  t.flatMap fun c => if c = '\n' then ['\r', '\n'] else [c]

/-- The text without its carriage returns. -/
def withoutReturns (t : Text) : Text :=
  t.filter (· != '\r')

/-- The lines with a carriage return at the end of each but the last one. -/
def returned : List Line → List Line
  | [] => []
  | [line] => [line]
  | line :: rest => (line ++ ['\r']) :: returned rest

theorem returned_cons {rest : List Line} (line : Line) (h : rest ≠ []) :
    returned (line :: rest) = (line ++ ['\r']) :: returned rest := by
  cases rest with
  | nil => exact absurd rfl h
  | cons => rfl

theorem lines_withReturns (t : Text) : lines (withReturns t) = returned (lines t) := by
  induction t with
  | nil => rfl
  | cons c t ih =>
      by_cases hc : c = '\n'
      · have hreturn : withReturns (c :: t) = ['\r'] ++ '\n' :: withReturns t := by
          rw [withReturns, List.flatMap_cons, if_pos hc]
          rfl
        have hlines : lines (c :: t) = [] :: lines t := by rw [hc]; exact pieces_separator '\n' t
        rw [hreturn, lines_append_newline _ _ (by decide), ih, hlines,
          returned_cons _ (lines_ne_nil t)]
        rfl
      · have hkept : withReturns (c :: t) = c :: withReturns t := by
          rw [withReturns, List.flatMap_cons, if_neg hc]
          rfl
        obtain ⟨piece, rest, hpieces⟩ := exists_pieces '\n' t
        rw [lines, lines, hpieces] at ih
        rw [hkept, lines, lines, pieces_cons hc hpieces]
        cases rest with
        | nil => exact pieces_cons hc ih
        | cons next rest =>
            rw [returned_cons _ (List.cons_ne_nil next rest)] at ih ⊢
            exact pieces_cons hc ih

theorem lines_withoutReturns (t : Text) :
    lines (withoutReturns t) = (lines t).map withoutReturns := by
  induction t with
  | nil => rfl
  | cons c t ih =>
      obtain ⟨piece, rest, hpieces⟩ := exists_pieces '\n' t
      rw [lines, lines, hpieces, List.map_cons] at ih
      by_cases hc : c = '\n'
      · have hkept : withoutReturns (c :: t) = '\n' :: withoutReturns t := by rw [hc]; rfl
        rw [hkept, hc, lines, lines, pieces_separator, pieces_separator, hpieces, ih]
        rfl
      · by_cases hreturn : c = '\r'
        · have hdropped : withoutReturns (c :: t) = withoutReturns t := by rw [hreturn]; rfl
          have hpiece : withoutReturns (c :: piece) = withoutReturns piece := by rw [hreturn]; rfl
          rw [hdropped, lines, lines, pieces_cons hc hpieces, ih, List.map_cons, hpiece]
        · have hkept : ∀ s : Text, withoutReturns (c :: s) = c :: withoutReturns s := fun s =>
            List.filter_cons_of_pos (by simpa using hreturn)
          rw [hkept, lines, lines, pieces_cons hc hpieces, pieces_cons hc ih, List.map_cons, hkept]

theorem withoutReturns_eq_self {t : Text} (h : '\r' ∉ t) : withoutReturns t = t := by
  rw [withoutReturns, List.filter_eq_self]
  intro c hc
  rw [bne_iff_ne]
  rintro rfl
  exact h hc

theorem withoutReturns_line {line : Line} (h : '\r' ∉ beforeReturn id line) :
    withoutReturns line = beforeReturn id line := by
  rcases exists_return line with ⟨front, rfl⟩ | hne
  · rw [beforeReturn_return] at h ⊢
    have hreturn : withoutReturns ['\r'] = [] := rfl
    rw [withoutReturns, List.filter_append, ← withoutReturns, ← withoutReturns, hreturn,
      List.append_nil]
    exact withoutReturns_eq_self h
  · rw [beforeReturn_of_ne _ hne] at h ⊢
    exact withoutReturns_eq_self h

end Text

/-! ## The same lines with other ends -/

theorem isUnseen_beforeReturn_id : IsUnseen (beforeReturn id) :=
  isUnseen_beforeReturn Resembles.refl

/-- Whether lines are those of `ls`, which hold no carriage return, some of them with one at the
end. -/
structure Returns (ls' ls : List Line) : Prop where
  eq : ls'.map (beforeReturn id) = ls
  free : ∀ line ∈ ls, '\r' ∉ line

section Returns

variable {ls ls' : List Line} {t : Text}

theorem beforeReturn_of_not_mem {f : Line → Line} {line : Line} (h : '\r' ∉ line) :
    beforeReturn f line = line :=
  beforeReturn_of_ne f fun hlast => h (List.mem_of_getLast? hlast)

theorem Returns.not_mem (h : Returns ls' ls) : ∀ line ∈ ls', '\r' ∉ beforeReturn id line := by
  intro line hline
  exact h.free _ (h.eq ▸ List.mem_map_of_mem hline)

theorem returns_returned (h : ∀ line ∈ ls, '\r' ∉ line) : Returns (returned ls) ls := by
  refine ⟨?_, h⟩
  induction ls with
  | nil => rfl
  | cons line rest ih =>
      obtain ⟨hline, hrest⟩ := List.forall_mem_cons.1 h
      cases rest with
      | nil => exact congrArg (· :: []) (beforeReturn_of_not_mem hline)
      | cons next rest =>
          rw [returned_cons _ (List.cons_ne_nil next rest), List.map_cons, beforeReturn_return,
            ih hrest]
          rfl

theorem not_mem_of_lines (h : '\r' ∉ t) : ∀ line ∈ lines t, '\r' ∉ line :=
  fun _ hline hmem => h (mem_of_mem_piece hline hmem)

theorem returns_withReturns (h : '\r' ∉ t) : Returns (lines (withReturns t)) (lines t) := by
  rw [lines_withReturns]
  exact returns_returned (not_mem_of_lines h)

end Returns

/-! ## The guard of a whole resource -/

theorem Text.getLast?_trim {t : Text} (h : trim t ≠ []) :
    ∃ c, (trim t).getLast? = some c ∧ Unicode.isWhiteSpace c = false := by
  rw [trim, trimEnd, ne_eq, List.reverse_eq_nil_iff] at h
  have hhead := List.head_dropWhile_not Unicode.isWhiteSpace h
  refine ⟨_, ?_, hhead⟩
  rw [trim, trimEnd, List.getLast?_reverse, List.head?_eq_some_head h]

namespace Wrap

theorem guardInjections_map {g : Line → Line} (hg : IsUnseen g)
    (htrimmed : ∀ line, (g line).trimmed = line.trimmed) (previous : Option Line)
    (ls : List Line) :
    guardInjections (previous.map g) (ls.map g) = (guardInjections previous ls).map g := by
  induction ls generalizing previous with
  | nil => rfl
  | cons line rest ih =>
      have hbare : isBareInjection (previous.map g) (g line) = isBareInjection previous line := by
        rw [isBareInjection, isBareInjection, (hg.resembles line).indent,
          (hg.resembles line).hasKey, Condition.isOpenedBy_map hg]
      have hwritten : isBareInjection previous line = true →
          g (line.leading ++ line.trimmed) = line.leading ++ line.trimmed := by
        intro h
        have hkey : line.hasKey injectionKey = true := by
          simp only [isBareInjection, Bool.and_eq_true] at h
          exact h.1.2
        have hsolid := not_isBlank_of_hasKey hkey
        rw [Line.isBlank, List.isEmpty_eq_false_iff] at hsolid
        obtain ⟨c, hlast, hc⟩ := getLast?_trim hsolid
        refine hg.written line.leading hlast ?_
        rintro rfl
        exact absurd hc (by decide)
      rw [List.map_cons, guardInjections, guardInjections, List.map_append, hbare,
        ← ih (some line)]
      congr 1
      split
      · rename_i h
        rw [htrimmed, (hg.resembles line).leading, ← Condition.guard_map hg,
          (hg.resembles line).leading, List.map_singleton, hwritten h]
      · rfl

theorem trimmed_beforeReturn (line : Line) : (beforeReturn id line).trimmed = line.trimmed := by
  rcases exists_return line with ⟨front, rfl⟩ | h
  · rw [beforeReturn_return, trimmed_return]
    rfl
  · rw [beforeReturn_of_ne id h]

section Documents

variable {t : Text} (ht : '\r' ∉ t)

theorem isBlank_withReturns (t : Text) : Text.isBlank (withReturns t) = Text.isBlank t := by
  rw [Bool.eq_iff_iff, isBlank_iff, isBlank_iff]
  constructor
  · intro h c hc
    apply h
    rw [withReturns, List.mem_flatMap]
    refine ⟨c, hc, ?_⟩
    split <;> simp_all
  · intro h c hc
    rw [withReturns, List.mem_flatMap] at hc
    obtain ⟨d, hd, hc⟩ := hc
    split at hc
    · simp only [List.mem_cons, List.not_mem_nil, or_false] at hc
      rcases hc with rfl | rfl <;> rfl
    · rw [List.mem_singleton.1 hc]
      exact h d hd

theorem getLast?_withReturns (t : Text) : (withReturns t).getLast? = t.getLast? := by
  rcases List.eq_nil_or_concat' t with rfl | ⟨s, c, rfl⟩
  · rfl
  · have hlast : withReturns (s ++ [c]) = withReturns s ++ withReturns [c] := by
      rw [withReturns, List.flatMap_append]
      rfl
    rw [hlast, List.getLast?_append, List.getLast?_concat]
    by_cases hc : c = '\n'
    · rw [hc]
      rfl
    · have hsame : withReturns [c] = [c] := by rw [withReturns]; simp [hc]
      rw [hsame]
      rfl

include ht

theorem trimmed_firstLine_withReturns :
    (firstLine (withReturns t)).trimmed = (firstLine t).trimmed := by
  obtain ⟨line, rest, hlines⟩ := List.exists_cons_of_ne_nil (lines_ne_nil t)
  have hreturns := returns_withReturns ht
  obtain ⟨line', rest', hlines'⟩ := List.exists_cons_of_ne_nil (lines_ne_nil (withReturns t))
  have heq := hreturns.eq
  rw [hlines, hlines', List.map_cons, List.cons.injEq] at heq
  rw [firstLine_of_lines hlines, firstLine_of_lines hlines', ← heq.1, trimmed_beforeReturn]

theorem returns_ensureNewline :
    Returns (lines (ensureNewline (withReturns t))) (lines (ensureNewline t)) := by
  have hreturns := returns_withReturns ht
  rw [ensureNewline, ensureNewline, getLast?_withReturns]
  split
  · exact hreturns
  · rw [lines_append_singleton, lines_append_singleton]
    refine ⟨?_, List.forall_mem_append.2 ⟨hreturns.free, by simp⟩⟩
    rw [List.map_append, hreturns.eq]
    rfl

theorem returns_guardDocument (condition : Condition) :
    Returns (lines (guardDocument condition (withReturns t)))
      (lines (guardDocument condition t)) := by
  rw [guardDocument, guardDocument, isBlank_withReturns, trimmed_firstLine_withReturns ht]
  split
  · exact returns_withReturns ht
  · have hreturns := returns_ensureNewline ht
    have hguard := Condition.guard_map isUnseen_beforeReturn_id condition []
      (lines (ensureNewline (withReturns t))).dropLast
    rw [List.map_dropLast, hreturns.eq] at hguard
    rw [lines_enclosed, lines_enclosed]
    constructor
    · rw [List.map_append]
      exact congrArg (· ++ [[]]) hguard.symm
    · have hbody : ∀ line ∈ (lines (ensureNewline t)).dropLast, '\r' ∉ line := fun line hline =>
        hreturns.free line (List.dropLast_subset _ hline)
      rw [List.forall_mem_append]
      exact ⟨Condition.not_mem_guard (.inr rfl) condition [] hbody, by simp⟩

/-- What the wrapping of a resource makes of a text has other ends of lines with carriage returns,
but the same lines. -/
theorem returns_apply (resource : Resource) :
    Returns (lines (apply resource (withReturns t))) (lines (apply resource t)) := by
  have hreturns := returns_withReturns ht
  rw [apply, apply]
  cases action resource with
  | drop => exact ⟨rfl, List.forall_mem_singleton.2 List.not_mem_nil⟩
  | guard condition => exact returns_guardDocument ht condition
  | guardInjection =>
      dsimp only
      rw [lines_overLines (areLines_guardInjections (areLines_lines _)),
        lines_overLines (areLines_guardInjections (areLines_lines _))]
      refine ⟨?_, not_mem_guardInjections (.inr rfl) none hreturns.free⟩
      rw [← guardInjections_map isUnseen_beforeReturn_id trimmed_beforeReturn, hreturns.eq]
      rfl
  | keep => exact hreturns

end Documents

end Wrap

/-! ## Substitutions -/

namespace Text

theorem mem_replaceAll {needle replacement t : Text} (hne : needle ≠ []) {c : Char}
    (h : c ∈ replaceAll t needle replacement) : c ∈ t ∨ c ∈ replacement := by
  induction t using replacement_induction hne with
  | nil => exact .inl h
  | found t ih =>
      rw [replaceAll_append hne, List.mem_append] at h
      rcases h with h | h
      · exact .inr h
      · exact (ih h).imp_left (List.mem_append_right needle)
  | skip d t hd ih =>
      rw [replaceAll_cons hd, List.mem_cons] at h
      rcases h with rfl | h
      · exact .inl List.mem_cons_self
      · exact (ih h).imp_left (List.mem_cons_of_mem d)

theorem replaceAll_ne_nil {needle replacement t : Text} (hne : needle ≠ [])
    (hreplacement : replacement ≠ []) (ht : t ≠ []) : replaceAll t needle replacement ≠ [] := by
  induction t using replacement_induction hne with
  | nil => exact absurd rfl ht
  | found t ih =>
      rw [replaceAll_append hne]
      exact List.append_ne_nil_of_left_ne_nil hreplacement _
  | skip c t hc ih =>
      rw [replaceAll_cons hc]
      exact List.cons_ne_nil _ _

theorem getLast?_replaceAll {needle replacement t : Text} (hne : needle ≠ []) {c : Char}
    (hreplacement : replacement ≠ []) (hc : c ∉ replacement)
    (h : (replaceAll t needle replacement).getLast? = some c) : t.getLast? = some c := by
  induction t using replacement_induction hne with
  | nil => exact h
  | found t ih =>
      rw [replaceAll_append hne, List.getLast?_append, Option.or_eq_some_iff] at h
      rcases h with h | ⟨-, h⟩
      · rw [List.getLast?_append, ih h, Option.some_or]
      · exact absurd (List.mem_of_getLast? h) hc
  | skip d t hd ih =>
      rw [replaceAll_cons hd, List.getLast?_cons] at h
      cases hlast : (replaceAll t needle replacement).getLast? with
      | some e =>
          rw [hlast] at h
          rw [List.getLast?_cons, ih (hlast.trans h)]
          rfl
      | none =>
          have hnil : t = [] := by
            by_contra ht
            exact replaceAll_ne_nil hne hreplacement ht (List.getLast?_eq_none_iff.1 hlast)
          rw [hlast] at h
          rw [hnil]
          exact h

end Text

namespace Naming

variable {project : Text} {f : Text → Text}
  (hsolid : ∀ c ∈ project, Unicode.isWhiteSpace c = false)

include hsolid

theorem IsSubstitution.beforeReturn_comm (h : IsSubstitution project f) (line : Line) :
    f (beforeReturn id line) = beforeReturn id (f line) := by
  induction h generalizing line with
  | same => rfl
  | @literal front mark replacement hfront hmem =>
      have hword := isWord_literal hsolid hfront (isWord_of_mem_ends hmem)
      have hreturn : '\r' ∉ front ++ mark := hword.not_mem_of_isWhiteSpace rfl
      have hends : ∀ entry ∈ literalEnds, entry.2 ≠ [] ∧ '\r' ∉ entry.2 := by decide
      obtain ⟨hreplacement, hfree⟩ := hends _ hmem
      dsimp only
      rcases exists_return line with ⟨s, rfl⟩ | hne
      · rw [beforeReturn_return, replaceAll_append_cons hword.ne_nil hreturn, replaceAll_nil,
          beforeReturn_return]
        rfl
      · rw [beforeReturn_of_ne id hne, beforeReturn_of_ne id]
        exact fun hlast => hne (getLast?_replaceAll hword.ne_nil hreplacement hfree hlast)
  | comp _ _ hf hg =>
      dsimp only
      rw [hf, hg]

theorem IsSubstitution.not_mem_return (h : IsSubstitution project f) {line : Line}
    (hline : '\r' ∉ line) : '\r' ∉ f line := by
  induction h generalizing line with
  | same => exact hline
  | @literal front mark replacement hfront hmem =>
      have hword := isWord_literal hsolid hfront (isWord_of_mem_ends hmem)
      have hends : ∀ entry ∈ literalEnds, '\r' ∉ entry.2 := by decide
      intro hreturn
      rcases mem_replaceAll hword.ne_nil hreturn with hreturn | hreturn
      · exact hline hreturn
      · exact hends _ hmem hreturn
  | comp _ _ hf hg => exact hg (hf hline)

theorem IsSubstitution.returns (h : IsSubstitution project f) {t t' : Text}
    (ht : Returns (lines t') (lines t)) : Returns (lines (f t')) (lines (f t)) := by
  have hlines := h.isLinewise (not_mem_newline_of_solid hsolid)
  rw [hlines, hlines]
  constructor
  · rw [← ht.eq, List.map_map, List.map_map]
    exact List.map_congr_left fun line _ => (h.beforeReturn_comm hsolid line).symm
  · intro line hline
    obtain ⟨source, hsource, rfl⟩ := List.mem_map.1 hline
    exact h.not_mem_return hsolid (ht.free source hsource)

end Naming

end OperatorChart
