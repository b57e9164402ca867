import Mathlib.Data.List.Forall2
import OperatorChart.Proofs.PathResolution
import OperatorChart.Text.LowerCase
/-!
# Paths in lower case

No letter has a lower-case form with a slash or a dot in it, and these two stand for themselves.
So the lower-case form of a path has the same segments up to their names, and it stays inside of
a directory exactly when the path does.
-/

namespace OperatorChart

open Text

namespace Unicode

def isPathMark (c : Char) : Prop :=
  c = '/' ∨ c = '.'

theorem lowerCase_of_isPathMark {c : Char} (h : isPathMark c) : lowerCase c = [c] := by
  rcases h with rfl | rfl <;> decide

theorem not_isPathMark_ofNat {n : Nat} (h : 48 ≤ n) : ¬ isPathMark (Char.ofNat n) := by
  have hvalue : (Char.ofNat n).toNat = n ∨ (Char.ofNat n).toNat = 0 := by
    by_cases hvalid : n.isValidChar
    · have hchar : Char.ofNat n = Char.ofNatAux n hvalid := dif_pos hvalid
      exact .inl (hchar ▸ rfl)
    · have hchar : Char.ofNat n = '\x00' := dif_neg hvalid
      exact .inr (hchar ▸ rfl)
  rintro (hmark | hmark) <;> rw [hmark] at hvalue <;> simp at hvalue <;> omega

theorem lowerCaseRuns_above : ∀ run ∈ lowerCaseRuns, 48 ≤ run.first + run.shift := by
  decide +kernel

theorem lowerCase_of_not_isPathMark {c : Char} (h : ¬ isPathMark c) :
    lowerCase c ≠ [] ∧ ∀ d ∈ lowerCase c, ¬ isPathMark d := by
  unfold lowerCase
  split
  · refine ⟨by simp, ?_⟩
    intro d hd
    simp only [List.mem_cons, List.not_mem_nil, or_false] at hd
    rcases hd with rfl | rfl
    · rintro (hmark | hmark) <;> exact absurd hmark (by decide)
    · exact not_isPathMark_ofNat (by decide)
  · split
    · rename_i run hrun
      refine ⟨by simp, ?_⟩
      intro d hd
      rw [List.mem_singleton] at hd
      have habove := lowerCaseRuns_above run (List.mem_of_find?_eq_some hrun)
      have hcovers := List.find?_some hrun
      simp only [LowerCaseRun.covers, Bool.and_eq_true, decide_eq_true_eq] at hcovers
      rw [hd]
      exact not_isPathMark_ofNat (by omega)
    · refine ⟨by simp, ?_⟩
      intro d hd
      rw [List.mem_singleton] at hd
      rwa [hd]

end Unicode

namespace Path

/-! ## Texts with the same slashes and dots -/

/-- Whether two texts have the same slashes and dots, and something between two of them in one
text if there is something in the other. -/
inductive SameMarks : Text → Text → Prop
  | nil : SameMarks [] []
  | mark {c : Char} {s t : Text} (hc : Unicode.isPathMark c) (h : SameMarks s t) :
      SameMarks (c :: s) (c :: t)
  | other {c : Char} {s t u : Text} (hc : ¬ Unicode.isPathMark c) (hne : u ≠ [])
      (hu : ∀ d ∈ u, ¬ Unicode.isPathMark d) (h : SameMarks s t) : SameMarks (c :: s) (u ++ t)

theorem sameMarks_lowerCaseFrom (before t : Text) : SameMarks t (lowerCaseFrom before t) := by
  fun_induction lowerCaseFrom before t with
  | case1 => exact .nil
  | case2 before t ih =>
      refine .other (by rintro (h | h) <;> exact absurd h (by decide))
        (List.cons_ne_nil _ []) ?_ ih
      intro d hd
      rw [List.mem_singleton] at hd
      rintro (rfl | rfl) <;> split at hd <;> exact absurd hd (by decide)
  | case3 before c t _ ih =>
      by_cases hc : Unicode.isPathMark c
      · rw [Unicode.lowerCase_of_isPathMark hc]
        exact .mark hc ih
      · obtain ⟨hne, hu⟩ := Unicode.lowerCase_of_not_isPathMark hc
        exact .other hc hne hu ih

theorem SameMarks.pieces {s t : Text} (h : SameMarks s t) :
    List.Forall₂ SameMarks (s.pieces '/') (t.pieces '/') := by
  induction h with
  | nil => exact .cons .nil .nil
  | @mark c s t hc h ih =>
      by_cases hslash : c = '/'
      · rw [hslash, pieces_separator, pieces_separator]
        exact .cons .nil ih
      · obtain ⟨piece, rest, hs⟩ := exists_pieces '/' s
        obtain ⟨piece', rest', ht⟩ := exists_pieces '/' t
        rw [hs, ht] at ih
        cases ih with
        | cons hpiece hrest =>
            rw [pieces_cons hslash hs, pieces_cons hslash ht]
            exact .cons (.mark hc hpiece) hrest
  | @other c s t u hc hne hu h ih =>
      obtain ⟨piece, rest, hs⟩ := exists_pieces '/' s
      obtain ⟨piece', rest', ht⟩ := exists_pieces '/' t
      rw [hs, ht] at ih
      cases ih with
      | cons hpiece hrest =>
          have hslash : c ≠ '/' := fun h => hc (.inl h)
          have hfree : '/' ∉ u := fun h => hu '/' h (.inl rfl)
          rw [pieces_cons hslash hs, pieces_append hfree ht]
          exact .cons (.other hc hne hu hpiece) hrest

/-- Whether two steps lead elsewhere in the same way. -/
inductive SameTurn : PathStep → PathStep → Prop
  | stay : SameTurn .stay .stay
  | parent : SameTurn .parent .parent
  | enter (name name' : Text) : SameTurn (.enter name) (.enter name')

theorem SameMarks.dots {s t : Text} (h : SameMarks s t) {dots : Text}
    (hdots : ∀ c ∈ dots, c = '.') :
    s = dots ↔ t = dots := by
  induction h generalizing dots with
  | nil => exact Iff.rfl
  | @mark c s t hc h ih =>
      cases dots with
      | nil => simp
      | cons d dots =>
          rw [List.cons.injEq, List.cons.injEq,
            ih fun c hc => hdots c (List.mem_cons_of_mem d hc)]
  | @other c s t u hc hne hu h ih =>
      obtain ⟨d, u, rfl⟩ := List.exists_cons_of_ne_nil hne
      cases dots with
      | nil => simp
      | cons e dots =>
          have he : Unicode.isPathMark e := .inr (hdots e List.mem_cons_self)
          have hce : c ≠ e := fun heq => hc (heq ▸ he)
          have hde : d ≠ e := fun heq => hu d List.mem_cons_self (heq ▸ he)
          simp [hce, hde]

theorem SameMarks.ofSegment {s t : Text} (h : SameMarks s t) :
    SameTurn (PathStep.ofSegment s) (PathStep.ofSegment t) := by
  have hnil : s = [] ↔ t = [] := h.dots (by simp)
  have hdot : s = ['.'] ↔ t = ['.'] := h.dots (by simp)
  have hdots : s = ['.', '.'] ↔ t = ['.', '.'] := h.dots (by simp)
  unfold PathStep.ofSegment
  simp only [hnil, hdot, hdots]
  split
  · exact .stay
  · split
    · exact .parent
    · exact .enter s t

theorem SameMarks.moves {s t : Text} (h : SameMarks s t) :
    List.Forall₂ SameTurn (moves s) (moves t) := by
  have hpieces := h.pieces
  unfold Path.moves steps
  generalize s.pieces '/' = ps at hpieces
  generalize t.pieces '/' = ps' at hpieces
  induction hpieces with
  | nil => exact .nil
  | @cons piece piece' rest rest' hpiece _ ih =>
      have hturn := hpiece.ofSegment
      rw [List.map_cons, List.map_cons]
      cases hstep : PathStep.ofSegment piece <;> cases hstep' : PathStep.ofSegment piece' <;>
        rw [hstep, hstep'] at hturn <;> cases hturn
      · exact ih
      · exact .cons .parent ih
      · exact .cons (.enter _ _) ih

theorem descend_isSome_iff {ms ms' : List PathStep} (h : List.Forall₂ SameTurn ms ms')
    {here here' : Location} (hlength : here.length = here'.length) :
    (descend here ms).isSome = (descend here' ms').isSome := by
  induction h generalizing here here' with
  | nil => rfl
  | cons hturn _ ih =>
      cases hturn with
      | stay => exact ih hlength
      | parent =>
          cases here with
          | nil =>
              cases here' with
              | nil => rfl
              | cons name' here' => simp at hlength
          | cons name here =>
              cases here' with
              | nil => simp at hlength
              | cons name' here' =>
                  apply ih
                  simpa using hlength
      | enter name name' =>
          apply ih
          simp [hlength]

theorem SameMarks.isAbsolute {s t : Text} (h : SameMarks s t) :
    Path.isAbsolute s = Path.isAbsolute t := by
  cases h with
  | nil => rfl
  | mark hc h => rfl
  | @other c s t u hc hne hu h =>
      obtain ⟨d, u, rfl⟩ := List.exists_cons_of_ne_nil hne
      have hslash : c ≠ '/' := fun heq => hc (.inl heq)
      have hslash' : d ≠ '/' := fun heq => hu d List.mem_cons_self (.inl heq)
      have hhead : (c == '/') = false := by simpa using hslash
      have hhead' : (d == '/') = false := by simpa using hslash'
      simp [Path.isAbsolute, hhead, hhead']

theorem staysInside_lowerCase_iff (t : Text) : StaysInside t.lowerCase ↔ StaysInside t := by
  have hmarks : SameMarks t t.lowerCase := sameMarks_lowerCaseFrom [] t
  rw [StaysInside, StaysInside, hmarks.isAbsolute, descend_isSome_iff hmarks.moves rfl]

end Path

end OperatorChart
