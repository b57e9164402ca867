import Mathlib.Data.List.TakeWhile
import OperatorChart.Line
import OperatorChart.Proofs.Replacement
/-!
# White space around a text

A text is its trimmed form between white space. A word, which holds no white space, occurs in a
text only inside of the trimmed form.
-/

namespace OperatorChart.Text

def IsWhite (t : Text) : Prop :=
  ∀ c ∈ t, Unicode.isWhiteSpace c = true

/-- Whether a text is not empty and holds no white space. -/
structure IsWord (w : Text) : Prop where
  ne_nil : w ≠ []
  solid : ∀ c ∈ w, Unicode.isWhiteSpace c = false

theorem isWhite_nil : IsWhite [] := by
  simp [IsWhite]

theorem IsWhite.append {s t : Text} (hs : IsWhite s) (ht : IsWhite t) : IsWhite (s ++ t) := by
  intro c hc
  rcases List.mem_append.1 hc with hc | hc
  · exact hs c hc
  · exact ht c hc

theorem isWhite_takeWhile (t : Text) : IsWhite (t.takeWhile Unicode.isWhiteSpace) :=
  fun _ hc => List.mem_takeWhile_imp hc

/-! ## Trimming -/

theorem exists_trimStart (t : Text) : ∃ s, IsWhite s ∧ t = s ++ trimStart t :=
  ⟨t.takeWhile Unicode.isWhiteSpace, isWhite_takeWhile t, List.takeWhile_append_dropWhile.symm⟩

theorem exists_trimEnd (t : Text) : ∃ s, IsWhite s ∧ t = trimEnd t ++ s := by
  obtain ⟨s, hs, hreverse⟩ := exists_trimStart t.reverse
  refine ⟨s.reverse, fun c hc => hs c (List.mem_reverse.1 hc), ?_⟩
  have h := congrArg List.reverse hreverse
  rw [List.reverse_reverse, List.reverse_append] at h
  exact h

theorem exists_trim (t : Text) : ∃ s s', IsWhite s ∧ IsWhite s' ∧ t = s ++ trim t ++ s' := by
  obtain ⟨s, hs, hstart⟩ := exists_trimStart t
  obtain ⟨s', hs', hend⟩ := exists_trimEnd (trimStart t)
  refine ⟨s, s', hs, hs', ?_⟩
  rw [trim, List.append_assoc, ← hend]
  exact hstart

theorem trimStart_of_head {c : Char} {t : Text} (hc : Unicode.isWhiteSpace c = false) :
    trimStart (c :: t) = c :: t := by
  rw [trimStart, List.dropWhile_cons_of_neg]
  simp [hc]

theorem trimEnd_of_last {c : Char} {t : Text} (hc : Unicode.isWhiteSpace c = false) :
    trimEnd (t ++ [c]) = t ++ [c] := by
  rw [trimEnd, List.reverse_append, List.reverse_singleton, List.singleton_append,
    List.dropWhile_cons_of_neg (by simp [hc])]
  simp

theorem trimStart_append {s t : Text} (hs : IsWhite s) : trimStart (s ++ t) = trimStart t := by
  induction s with
  | nil => rfl
  | cons c s ih =>
      have hc : Unicode.isWhiteSpace c = true := hs c List.mem_cons_self
      rw [List.cons_append, trimStart, List.dropWhile_cons_of_pos hc]
      exact ih fun d hd => hs d (List.mem_cons_of_mem c hd)

theorem trimEnd_append {s t : Text} (hs : IsWhite s) : trimEnd (t ++ s) = trimEnd t := by
  have h := trimStart_append (s := s.reverse) (t := t.reverse)
    fun c hc => hs c (List.mem_reverse.1 hc)
  rw [trimEnd, List.reverse_append]
  exact congrArg List.reverse h

theorem trimEnd_append_cons {s t : Text} {c : Char} (hc : Unicode.isWhiteSpace c = false) :
    trimEnd (s ++ c :: t) = s ++ c :: trimEnd t := by
  have hstop : ¬ Unicode.isWhiteSpace c = true := by simp [hc]
  simp only [trimEnd, List.reverse_append, List.reverse_cons, List.append_assoc,
    List.dropWhile_append, List.singleton_append, List.dropWhile_cons_of_neg hstop]
  split
  · rename_i hempty
    rw [List.isEmpty_iff.1 hempty]
    simp
  · simp

theorem trimStart_eq_nil_iff {t : Text} : trimStart t = [] ↔ IsWhite t := by
  rw [trimStart, List.dropWhile_eq_nil_iff]
  rfl

theorem trim_eq_nil_iff {t : Text} : trim t = [] ↔ IsWhite t := by
  constructor
  · intro h
    obtain ⟨s, s', hs, hs', heq⟩ := exists_trim t
    rw [h, List.append_nil] at heq
    rw [heq]
    exact hs.append hs'
  · intro h
    rw [trim, trimStart_eq_nil_iff.2 h]
    rfl

theorem trim_append {s t : Text} (hs : IsWhite s) : trim (t ++ s) = trim t := by
  by_cases ht : IsWhite t
  · rw [trim_eq_nil_iff.2 ht, trim_eq_nil_iff.2 (ht.append hs)]
  · have hstart : trimStart (t ++ s) = trimStart t ++ s := by
      rw [trimStart, trimStart, List.dropWhile_append, if_neg]
      rw [List.isEmpty_iff]
      exact fun h => ht (trimStart_eq_nil_iff.1 h)
    rw [trim, hstart, trimEnd_append hs, trim]

theorem isBlank_iff {t : Text} : isBlank t = true ↔ IsWhite t := by
  rw [isBlank, List.isEmpty_iff, trim_eq_nil_iff]

theorem head_trim {t : Text} {c : Char} {rest : Text} (h : trim t = c :: rest) :
    Unicode.isWhiteSpace c = false := by
  unfold trim at h
  cases hstart : trimStart t with
  | nil => rw [hstart] at h; cases h
  | cons d tail =>
      have hd : Unicode.isWhiteSpace d = false := by
        have hdrop : t.dropWhile Unicode.isWhiteSpace = d :: tail := hstart
        have hnot := List.head_dropWhile_not Unicode.isWhiteSpace
          (hdrop ▸ List.cons_ne_nil d tail)
        simpa only [hdrop, List.head_cons] using hnot
      have hcons := trimEnd_append_cons (s := []) (t := tail) hd
      rw [List.nil_append] at hcons
      rw [hstart, hcons] at h
      cases h
      exact hd

theorem trim_between {s t s' : Text} (hs : IsWhite s) (hs' : IsWhite s')
    (hstart : ∃ c rest, t = c :: rest ∧ Unicode.isWhiteSpace c = false)
    (hend : ∃ rest c, t = rest ++ [c] ∧ Unicode.isWhiteSpace c = false) :
    trim (s ++ t ++ s') = t := by
  obtain ⟨c, rest, hcons, hc⟩ := hstart
  obtain ⟨rest', d, hconcat, hd⟩ := hend
  have hfront : trimStart (s ++ t ++ s') = t ++ s' := by
    rw [List.append_assoc, trimStart_append hs, hcons, List.cons_append, trimStart_of_head hc]
  rw [trim, hfront, trimEnd_append hs', hconcat, trimEnd_of_last hd]

/-! ## Words -/

namespace IsWord

variable {w s t : Text}

theorem not_isWhite (hw : IsWord w) : ¬ IsWhite w := by
  intro hwhite
  obtain ⟨c, rest, rfl⟩ := List.exists_cons_of_ne_nil hw.ne_nil
  have hc := hw.solid c List.mem_cons_self
  rw [hwhite c List.mem_cons_self] at hc
  exact Bool.noConfusion hc

theorem not_mem_of_isWhiteSpace (hw : IsWord w) {c : Char}
    (hc : Unicode.isWhiteSpace c = true) : c ∉ w := by
  intro hmem
  rw [hw.solid c hmem] at hc
  exact Bool.noConfusion hc

theorem not_infix_of_isWhite (hw : IsWord w) (hs : IsWhite s) : ¬ w <:+: s :=
  fun h => hw.not_isWhite fun c hc => hs c (h.mem hc)

theorem infix_of_isWhite_append (hw : IsWord w) (hs : IsWhite s) (h : w <:+: s ++ t) :
    w <:+: t := by
  induction s with
  | nil => exact h
  | cons c s ih =>
      have hc : Unicode.isWhiteSpace c = true := hs c List.mem_cons_self
      have hrest : IsWhite s := fun d hd => hs d (List.mem_cons_of_mem c hd)
      rcases infix_append_cons (s := []) (hw.not_mem_of_isWhiteSpace hc) h with h | h
      · exact absurd (List.infix_nil.1 h) hw.ne_nil
      · exact ih hrest h

theorem infix_of_append_isWhite (hw : IsWord w) (hs : IsWhite s) (h : w <:+: t ++ s) :
    w <:+: t := by
  cases s with
  | nil => simpa using h
  | cons c s =>
      have hc : Unicode.isWhiteSpace c = true := hs c List.mem_cons_self
      rcases infix_append_cons (hw.not_mem_of_isWhiteSpace hc) h with h | h
      · exact h
      · exact absurd h (hw.not_infix_of_isWhite fun d hd => hs d (List.mem_cons_of_mem c hd))

theorem infix_trim (hw : IsWord w) (h : w <:+: t) : w <:+: trim t := by
  obtain ⟨s, s', hs, hs', heq⟩ := exists_trim t
  rw [heq] at h
  exact hw.infix_of_isWhite_append hs (hw.infix_of_append_isWhite hs' h)

end IsWord

end OperatorChart.Text
