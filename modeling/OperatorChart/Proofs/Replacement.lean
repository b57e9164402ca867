import OperatorChart.Text.Lines
/-!
# Replacement in a text

What a text holds after every occurrence of a needle was replaced. A replacement that starts
and ends with characters no needle has, apart from a tail that it shares with the needle,
brings no needle into a text that was not there before. Main statements: the replaced needle
itself is gone unless a piece of the tail starts it, and replacing changes a text exactly when
the needle is in it.
-/

namespace OperatorChart.Text

/-- What holds of every character of a text is decided on the text, not on all characters. -/
instance decidableForallMem (t : Text) (p : Char → Prop) [DecidablePred p] :
    Decidable (∀ c ∈ t, p c) :=
  List.decidableBAll p t

/-! ## Occurrences -/

theorem hasInfix_iff {needle t : Text} : hasInfix needle t = true ↔ needle <:+: t := by
  induction t with
  | nil => simp [hasInfix]
  | cons c t ih => simp [hasInfix, ih, List.infix_cons_iff]

theorem hasInfix_eq_false_iff {needle t : Text} :
    hasInfix needle t = false ↔ ¬ needle <:+: t := by
  rw [← hasInfix_iff, Bool.not_eq_true]

theorem isPrefixOf?_cons (c d : Char) (s t : Text) : (c :: s).isPrefixOf? (d :: t) =
    if c == d then s.isPrefixOf? t else none := rfl

theorem isPrefixOf?_eq_some_iff {s t rest : Text} :
    s.isPrefixOf? t = some rest ↔ t = s ++ rest := by
  induction s generalizing t with
  | nil =>
      have hnil : ([] : Text).isPrefixOf? t = some t := by cases t <;> rfl
      rw [hnil, Option.some.injEq, List.nil_append]
  | cons c s ih =>
      cases t with
      | nil =>
          have hnone : (c :: s).isPrefixOf? [] = none := rfl
          simp [hnone]
      | cons d t =>
          rw [isPrefixOf?_cons]
          by_cases h : c = d
          · simp [h, ih]
          · simp [h, Ne.symm h]

theorem prefix_of_prefix_append_cons {w s t : Text} {c : Char} (hc : c ∉ w)
    (h : w <+: s ++ c :: t) : w <+: s := by
  rcases List.prefix_or_prefix_of_prefix h (List.prefix_append s (c :: t)) with hw | ⟨rest, rfl⟩
  · exact hw
  · rw [List.prefix_append_right_inj] at h
    cases rest with
    | nil => simp
    | cons d rest =>
        rw [(List.cons_prefix_cons.1 h).1] at hc
        simp at hc

theorem infix_append_cons {needle s t : Text} {c : Char} (hc : c ∉ needle)
    (h : needle <:+: s ++ c :: t) : needle <:+: s ∨ needle <:+: t := by
  rcases List.infix_append_iff_ne_nil.1 h with h | h | ⟨l, r, hl, hr, rfl, hsuffix, hstart⟩
  · exact .inl h
  · rcases List.infix_cons_iff.1 h with h | h
    · cases needle with
      | nil => exact .inl List.nil_infix
      | cons x needle =>
          obtain ⟨rfl, -⟩ := List.cons_prefix_cons.1 h
          simp at hc
    · exact .inr h
  · cases r with
    | nil => exact absurd rfl hr
    | cons x r =>
        obtain ⟨rfl, -⟩ := List.cons_prefix_cons.1 hstart
        simp at hc

theorem infix_concat_append {needle s t : Text} {c : Char} (hc : c ∉ needle)
    (h : needle <:+: (s ++ [c]) ++ t) : needle <:+: s ∨ needle <:+: t := by
  rw [List.append_assoc] at h
  exact infix_append_cons hc h

theorem infix_of_infix_closed_append {core w s : Text} (hlast : core.getLast? = some '}')
    (hclose : '}' ∉ w) (hcore : ¬ w <:+: core) (hocc : w <:+: core ++ s) : w <:+: s := by
  obtain ⟨rest, hrest⟩ := List.getLast?_eq_some_iff.1 hlast
  rw [hrest] at hocc
  rcases infix_concat_append hclose hocc with hocc | hocc
  · rw [hrest] at hcore
    exact absurd (List.infix_append_of_infix_left hocc) hcore
  · exact hocc

/-! ## The recursion of a replacement -/

@[simp] theorem replaceAll_nil (needle replacement : Text) :
    replaceAll [] needle replacement = [] := rfl

theorem replaceFrom_append (needle replacement s t : Text) :
    replaceFrom needle replacement s.length (s ++ t) = replaceAll t needle replacement := by
  induction s with
  | nil => rfl
  | cons c s ih => exact ih

theorem replaceAll_append {needle : Text} (hneedle : needle ≠ []) (replacement t : Text) :
    replaceAll (needle ++ t) needle replacement =
      replacement ++ replaceAll t needle replacement := by
  cases needle with
  | nil => exact absurd rfl hneedle
  | cons c needle =>
      have hfound : (c :: needle).isPrefixOf (c :: (needle ++ t)) = true := by
        rw [List.isPrefixOf_iff_prefix]
        exact List.prefix_append (c :: needle) t
      rw [List.cons_append, replaceAll, replaceFrom, if_pos hfound]
      exact congrArg (replacement ++ ·) (replaceFrom_append (c :: needle) replacement needle t)

theorem replaceAll_cons {needle : Text} {c : Char} {t : Text} (h : ¬ needle <+: c :: t)
    (replacement : Text) :
    replaceAll (c :: t) needle replacement = c :: replaceAll t needle replacement := by
  rw [replaceAll, replaceFrom, if_neg]
  · rfl
  · rwa [List.isPrefixOf_iff_prefix]

/-- A text is read as a replacement reads it: an occurrence at the start is passed over as a
whole, any other character alone. -/
@[elab_as_elim]
theorem replacement_induction {needle : Text} (hneedle : needle ≠ [])
    {motive : Text → Prop} (nil : motive [])
    (found : ∀ t, motive t → motive (needle ++ t))
    (skip : ∀ c t, ¬ needle <+: c :: t → motive t → motive (c :: t)) (t : Text) :
    motive t := by
  induction hn : t.length using Nat.strongRecOn generalizing t with
  | ind n ih =>
      cases t with
      | nil => exact nil
      | cons c t =>
          by_cases h : needle <+: c :: t
          · obtain ⟨rest, hrest⟩ := h
            rw [← hrest]
            have hpos : 0 < needle.length := List.length_pos_iff.2 hneedle
            have hlen := congrArg List.length hrest
            rw [List.length_append] at hlen
            exact found rest (ih rest.length (by omega) rest rfl)
          · simp only [List.length_cons] at hn
            exact skip c t h (ih t.length (by omega) t rfl)

/-- Parts of a text with a character between them that no needle has are replaced each by
itself. -/
theorem replaceAll_append_cons {needle : Text} (hneedle : needle ≠ []) {c : Char}
    (hc : c ∉ needle) (replacement s t : Text) :
    replaceAll (s ++ c :: t) needle replacement =
      replaceAll s needle replacement ++ c :: replaceAll t needle replacement := by
  have hstop : ∀ u : Text, ¬ needle <+: u → ¬ needle <+: u ++ c :: t := fun u hu h =>
    hu (prefix_of_prefix_append_cons hc h)
  induction s using replacement_induction hneedle with
  | nil => exact replaceAll_cons (hstop [] (by simpa using hneedle)) replacement
  | found s ih => simp only [replaceAll_append hneedle, List.append_assoc, ih]
  | skip d s hd ih =>
      have hskip : ¬ needle <+: d :: (s ++ c :: t) := hstop (d :: s) hd
      rw [List.cons_append, replaceAll_cons hskip, replaceAll_cons hd, ih, List.cons_append]

/-! ## When a replacement changes a text -/

theorem replaceAll_eq_self {needle t : Text} (h : ¬ needle <:+: t) (replacement : Text) :
    replaceAll t needle replacement = t := by
  induction t with
  | nil => rfl
  | cons c t ih =>
      rw [List.infix_cons_iff, not_or] at h
      rw [replaceAll_cons h.1, ih h.2]

/-- A replacement puts its text in for some number of needles, and takes nothing else away. -/
theorem exists_count_replaceAll {needle : Text} (hneedle : needle ≠ []) (replacement t : Text) :
    ∃ n, (∀ c, (replaceAll t needle replacement).count c + n * needle.count c =
      t.count c + n * replacement.count c) ∧ (n = 0 ↔ ¬ needle <:+: t) := by
  induction t using replacement_induction hneedle with
  | nil => exact ⟨0, by simp, by simp [hneedle]⟩
  | found t ih =>
      obtain ⟨n, hcount, -⟩ := ih
      refine ⟨n + 1, fun c => ?_, ?_⟩
      · rw [replaceAll_append hneedle, List.count_append, List.count_append, Nat.succ_mul,
          Nat.succ_mul]
        have h := hcount c
        omega
      · have hocc : needle <:+: needle ++ t := (List.prefix_append needle t).isInfix
        simp [hocc]
  | skip d t hd ih =>
      obtain ⟨n, hcount, hnone⟩ := ih
      refine ⟨n, fun c => ?_, ?_⟩
      · rw [replaceAll_cons hd, List.count_cons, List.count_cons]
        have h := hcount c
        omega
      · rw [hnone, List.infix_cons_iff, or_iff_right hd]

theorem count_lt_count_replaceAll {needle replacement : Text} (hneedle : needle ≠ [])
    {c : Char} (hc : c ∉ needle) (hreplacement : c ∈ replacement) {t : Text}
    (h : needle <:+: t) : t.count c < (replaceAll t needle replacement).count c := by
  obtain ⟨n, hcount, hnone⟩ := exists_count_replaceAll hneedle replacement t
  have hmore := hcount c
  have hpos : 0 < n * replacement.count c :=
    Nat.mul_pos (Nat.pos_of_ne_zero fun hzero => hnone.1 hzero h)
      (List.count_pos_iff.2 hreplacement)
  rw [List.count_eq_zero_of_not_mem hc] at hmore
  omega

theorem replaceAll_eq_self_iff {needle replacement t : Text} (hneedle : needle ≠ []) {c : Char}
    (hc : c ∉ needle) (hreplacement : c ∈ replacement) :
    replaceAll t needle replacement = t ↔ ¬ needle <:+: t := by
  constructor
  · intro heq hocc
    have hlt := count_lt_count_replaceAll hneedle hc hreplacement hocc
    rw [heq] at hlt
    exact Nat.lt_irrefl _ hlt
  · intro h
    exact replaceAll_eq_self h replacement

/-! ## What a replacement brings into a text -/

/-- A replacement for `needle` made of `core`, which starts with `{` and ends with `}`, and of
`tail`, which also ends the needle. -/
structure IsFilling (needle core tail : Text) : Prop where
  core_head : core.head? = some '{'
  core_last : core.getLast? = some '}'
  tail_suffix : tail <:+ needle

namespace IsFilling

variable {needle core tail t : Text}

theorem core_eq_cons (h : IsFilling needle core tail) : ∃ rest, core = '{' :: rest := by
  cases core with
  | nil => simpa using h.core_head
  | cons c rest => exact ⟨rest, by simpa using h.core_head⟩

theorem prefix_of_prefix_replaceAll (h : IsFilling needle core tail) (hneedle : needle ≠ [])
    {w : Text} (hw : '{' ∉ w) (hstart : w <+: replaceAll t needle (core ++ tail)) :
    w <+: t := by
  induction t using replacement_induction hneedle generalizing w with
  | nil => simpa using hstart
  | found t ih =>
      obtain ⟨rest, hcore⟩ := h.core_eq_cons
      rw [replaceAll_append hneedle, hcore] at hstart
      cases w with
      | nil => exact List.nil_prefix
      | cons c w =>
          obtain ⟨rfl, -⟩ := List.cons_prefix_cons.1 hstart
          simp at hw
  | skip c t hc ih =>
      rw [replaceAll_cons hc] at hstart
      cases w with
      | nil => exact List.nil_prefix
      | cons d w =>
          obtain ⟨rfl, hrest⟩ := List.cons_prefix_cons.1 hstart
          rw [List.mem_cons, not_or] at hw
          exact List.cons_prefix_cons.2 ⟨rfl, ih hw.2 hrest⟩

theorem infix_of_infix_replaceAll (h : IsFilling needle core tail) (hneedle : needle ≠ [])
    {w : Text} (hopen : '{' ∉ w) (hclose : '}' ∉ w) (hcore : ¬ w <:+: core)
    (hocc : w <:+: replaceAll t needle (core ++ tail)) : w <:+: t := by
  induction t using replacement_induction hneedle with
  | nil => simpa using hocc
  | found t ih =>
      rw [replaceAll_append hneedle, List.append_assoc] at hocc
      have htail := infix_of_infix_closed_append h.core_last hclose hcore hocc
      rcases List.infix_append_iff.1 htail with hocc | hocc | ⟨l, r, rfl, hl, hr⟩
      · exact List.infix_append_of_infix_left (hocc.trans h.tail_suffix.isInfix)
      · exact List.infix_append_of_infix_right (ih hocc)
      · have hrest := h.prefix_of_prefix_replaceAll hneedle
          (fun hmem => hopen (List.mem_append_right l hmem)) hr
        exact List.infix_append_iff.2
          (.inr (.inr ⟨l, r, rfl, hl.trans h.tail_suffix, hrest⟩))
  | skip c t hc ih =>
      rw [replaceAll_cons hc, List.infix_cons_iff] at hocc
      rcases hocc with hstart | hocc
      · rw [← replaceAll_cons hc] at hstart
        exact (h.prefix_of_prefix_replaceAll hneedle hopen hstart).isInfix
      · exact List.infix_cons (ih hocc)

/-- The needle is gone when no piece at the end of the tail is also at the start of the
needle. -/
theorem not_infix_replaceAll (h : IsFilling needle core tail) (hneedle : needle ≠ [])
    (hopen : '{' ∉ needle) (hclose : '}' ∉ needle) (hcore : ¬ needle <:+: core)
    (htail : ∀ piece, piece ≠ [] → piece <:+ tail → ¬ piece <+: needle) :
    ¬ needle <:+: replaceAll t needle (core ++ tail) := by
  intro hocc
  induction t using replacement_induction hneedle with
  | nil => exact hneedle (by simpa using hocc)
  | found t ih =>
      rw [replaceAll_append hneedle, List.append_assoc] at hocc
      have hrest := infix_of_infix_closed_append h.core_last hclose hcore hocc
      rcases List.infix_append_iff_ne_nil.1 hrest with
        hocc | hocc | ⟨l, r, hl, -, hneedle_eq, hsuffix, -⟩
      · have heq : tail = needle :=
          h.tail_suffix.eq_of_length (Nat.le_antisymm h.tail_suffix.length_le hocc.length_le)
        exact htail needle hneedle (heq ▸ List.suffix_rfl) List.prefix_rfl
      · exact ih hocc
      · exact htail l hl hsuffix (hneedle_eq ▸ List.prefix_append l r)
  | skip c t hc ih =>
      rw [replaceAll_cons hc, List.infix_cons_iff] at hocc
      rcases hocc with hstart | hocc
      · rw [← replaceAll_cons hc] at hstart
        exact hc (h.prefix_of_prefix_replaceAll hneedle hopen hstart)
      · exact ih hocc

end IsFilling

end OperatorChart.Text
