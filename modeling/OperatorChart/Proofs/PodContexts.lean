import OperatorChart.Proofs.ManagerPlaces
/-!
# The security context of the pod

The pod's security context is the first one whose block the service account follows. It is settled
when its value is looked up in the chart's values. Here the search by numbers of lines is turned
into a recursion on the document, and a change of the lines behind a part of the document is
related to the contexts in this part.
-/

namespace OperatorChart

open Text

/-- Whether a line is the key of a pod's security context, given the lines behind it. -/
def Line.isPod (line : Line) (rest : List Line) : Bool :=
  !line.isItem && line.hasKey Values.podSecurityContext.key && precedesAccount line.column rest

/-- Whether no line before `rest` is the key of a pod's security context. -/
def NoPod : List Line → List Line → Prop
  | [], _ => True
  | line :: above, rest => line.isPod (above ++ rest) = false ∧ NoPod above rest

instance decidableNoPod : ∀ above rest, Decidable (NoPod above rest)
  | [], _ => isTrue trivial
  | line :: above, rest =>
    have := decidableNoPod above rest
    inferInstanceAs (Decidable (line.isPod (above ++ rest) = false ∧ NoPod above rest))

def PodSettled : List Line → Prop
  | [] => True
  | line :: rest =>
    if line.isPod rest then Values.podSecurityContext.IsSettled line rest else PodSettled rest

section Search

variable {above before after ls rest : List Line} {line : Line}

theorem Line.not_isPod_of_isItem (h : line.isItem = true) (rest : List Line) :
    line.isPod rest = false := by
  rw [isPod, h, Bool.not_true, Bool.false_and, Bool.false_and]

theorem Line.not_isPod_of_not_hasKey (h : line.hasKey Values.podSecurityContext.key = false)
    (rest : List Line) : line.isPod rest = false := by
  rw [isPod, h, Bool.and_false, Bool.false_and]

theorem Line.not_isPod_of_hasKey {key : Text} (h : line.hasKey key = true)
    (hne : key ≠ Values.podSecurityContext.key) (rest : List Line) : line.isPod rest = false :=
  not_isPod_of_not_hasKey (not_hasKey_of_hasKey h hne) rest

theorem noPod_of_forall (h : ∀ l ∈ above, l.isItem = false →
      l.hasKey Values.podSecurityContext.key = false) (rest : List Line) : NoPod above rest := by
  induction above with
  | nil => trivial
  | cons line above ih =>
      rw [List.forall_mem_cons] at h
      refine ⟨?_, ih h.2⟩
      cases hitem : line.isItem with
      | true => exact Line.not_isPod_of_isItem hitem _
      | false => exact Line.not_isPod_of_not_hasKey (h.1 hitem) _

theorem NoPod.around (h : NoPod (before ++ line :: after) rest) :
    line.isPod (after ++ rest) = false := by
  induction before with
  | nil => exact h.1
  | cons first before ih => exact ih h.2

theorem noPod_iff : NoPod above rest ↔ ∀ before line after, above = before ++ line :: after →
    line.isPod (after ++ rest) = false := by
  refine ⟨fun h before line after heq => NoPod.around (heq ▸ h), fun h => ?_⟩
  induction above with
  | nil => trivial
  | cons first above ih =>
      exact ⟨h [] first above rfl, ih fun before line after heq =>
        h (first :: before) line after (by rw [heq, List.cons_append])⟩

theorem noPod_append :
    NoPod (above ++ ls) rest ↔ NoPod above (ls ++ rest) ∧ NoPod ls rest := by
  induction above with
  | nil => exact ⟨fun h => ⟨trivial, h⟩, And.right⟩
  | cons line above ih =>
      rw [List.cons_append, NoPod, NoPod, ih, List.append_assoc, and_assoc]

theorem podSettled_append (h : NoPod above rest) :
    PodSettled (above ++ rest) ↔ PodSettled rest := by
  induction above with
  | nil => rfl
  | cons line above ih =>
      rw [List.cons_append, PodSettled, if_neg (by simp [h.1])]
      exact ih h.2

theorem podSettled_cons_of_isPod (h : line.isPod rest = true) :
    PodSettled (line :: rest) ↔ Values.podSecurityContext.IsSettled line rest := by
  rw [PodSettled, if_pos h]

theorem podSettled_of_noPod (h : NoPod ls []) : PodSettled ls := by
  rw [← List.append_nil ls, podSettled_append h]
  trivial

theorem exists_first_pod (ls : List Line) : NoPod ls [] ∨ ∃ before line after,
    ls = before ++ line :: after ∧ NoPod before (line :: after) ∧ line.isPod after = true := by
  induction ls with
  | nil => exact .inl trivial
  | cons first rest ih =>
      cases hfirst : first.isPod rest with
      | true => exact .inr ⟨[], first, rest, rfl, trivial, hfirst⟩
      | false =>
          rcases ih with hnone | ⟨before, line, after, rfl, hbefore, hline⟩
          · exact .inl ⟨by rwa [List.append_nil], hnone⟩
          · exact .inr ⟨first :: before, line, after, rfl, ⟨hfirst, hbefore⟩, hline⟩

/-! ## The search by numbers -/

def isPodAt (lines : List Line) (i : Nat) : Bool :=
  !(lineAt lines i).isItem && (lineAt lines i).hasKey Values.podSecurityContext.key &&
    Values.isBeforeServiceAccount lines i

theorem podSecurityContextKey?_eq (lines : List Line) :
    Values.podSecurityContextKey? lines = (List.range lines.length).find? (isPodAt lines) := rfl

theorem isPodAt_around (before after : List Line) (line : Line) :
    isPodAt (before ++ line :: after) before.length = line.isPod after := by
  rw [isPodAt, lineAt_length, isBeforeServiceAccount_around, Line.isPod]

theorem podSecurityContextKey?_of_noPod (h : NoPod ls []) :
    Values.podSecurityContextKey? ls = none := by
  rw [podSecurityContextKey?_eq, List.find?_range_eq_none]
  intro i hi
  obtain ⟨before, after, hls, rfl⟩ := exists_around hi
  rw [hls] at h ⊢
  have hline := h.around
  rw [List.append_nil] at hline
  rw [isPodAt_around, hline]
  rfl

theorem podSecurityContextKey?_of_first (hbefore : NoPod before (line :: after))
    (hline : line.isPod after = true) :
    Values.podSecurityContextKey? (before ++ line :: after) = some before.length := by
  rw [podSecurityContextKey?_eq, List.find?_range_eq_some]
  refine ⟨by rwa [isPodAt_around], by simp, fun j hj => ?_⟩
  obtain ⟨front, back, hfront, rfl⟩ := exists_around hj
  rw [hfront] at hbefore ⊢
  rw [List.append_assoc, List.cons_append, isPodAt_around, hbefore.around]
  rfl

end Search

namespace Values

variable {ls : List Line}

theorem fillPodSecurityContext_of_settled (h : PodSettled ls) :
    fillPodSecurityContext ls = .ok ls := by
  rw [fillPodSecurityContext]
  rcases exists_first_pod ls with hnone | ⟨before, line, after, rfl, hbefore, hline⟩
  · rw [podSecurityContextKey?_of_noPod hnone]
  · rw [podSecurityContextKey?_of_first hbefore hline]
    have hsettled := (podSettled_cons_of_isPod hline).1 ((podSettled_append hbefore).1 h)
    dsimp only
    rw [ValuesField.fill, if_pos (podSecurityContext.found_of_isSettled before hsettled)]

end Values

/-! ## Changes behind a part of the document -/

/-- Whether the security contexts in `above` belong to a pod before `ls'` exactly when they do
before `ls`. -/
def KeepsPods (above ls ls' : List Line) : Prop :=
  ∀ before line between, above = before ++ line :: between →
    line.hasKey Values.podSecurityContext.key = true →
    precedesAccount line.column (between ++ ls') = precedesAccount line.column (between ++ ls)

/-- Whether no line at the end of `above` has its guarded value at the start of `ls`. -/
def KeepsMarkers (above ls : List Line) : Prop :=
  ∀ before line, above = before ++ [line] → ∀ l, ls.head? = some l → ¬ Line.IsInner line.column l

section Changes

variable {above before between ls ls' : List Line} {line : Line}

theorem KeepsPods.isPod (h : KeepsPods above ls ls') (heq : above = before ++ line :: between) :
    line.isPod (between ++ ls') = line.isPod (between ++ ls) := by
  cases hkey : line.hasKey Values.podSecurityContext.key with
  | true => rw [Line.isPod, Line.isPod, h before line between heq hkey]
  | false => rw [Line.isPod, Line.isPod, hkey, Bool.and_false, Bool.false_and, Bool.false_and]

theorem KeepsPods.tail (h : KeepsPods (line :: above) ls ls') : KeepsPods above ls ls' :=
  fun before l between heq => h (line :: before) l between (by rw [heq, List.cons_append])

theorem KeepsMarkers.tail (h : KeepsMarkers (line :: above) ls) : KeepsMarkers above ls :=
  fun before l heq => h (line :: before) l (by rw [heq, List.cons_append])

theorem KeepsPods.of_append {front : List Line} (h : KeepsPods (above ++ front) ls ls') :
    KeepsPods above (front ++ ls) (front ++ ls') := by
  intro before line between heq hkey
  have hpods := h before line (between ++ front) (by rw [heq]; simp) hkey
  rwa [List.append_assoc, List.append_assoc] at hpods

theorem NoPod.change (hpods : KeepsPods above ls ls') (h : NoPod above ls) : NoPod above ls' := by
  rw [noPod_iff] at h ⊢
  intro before line between heq
  rw [hpods.isPod heq, h before line between heq]

/-- A settled key stays settled when lines behind it change that do not hold its value. -/
theorem ValuesField.IsSettled.change {field : ValuesField} (hmarkers : KeepsMarkers above ls)
    (heq : above = before ++ line :: between) (h : field.IsSettled line (between ++ ls)) :
    field.IsSettled line (between ++ ls') := by
  refine h.swap fun hnil => ?_
  subst hnil
  exact hmarkers before line heq

theorem PodSettled.change (hpods : KeepsPods above ls ls') (hmarkers : KeepsMarkers above ls)
    (hbehind : PodSettled ls → PodSettled ls') (h : PodSettled (above ++ ls)) :
    PodSettled (above ++ ls') := by
  induction above with
  | nil => exact hbehind h
  | cons line above ih =>
      rw [List.cons_append, PodSettled] at h ⊢
      rw [hpods.isPod (List.nil_append _).symm]
      split
      · rename_i hline
        rw [if_pos hline] at h
        exact h.change hmarkers (List.nil_append _).symm
      · rename_i hline
        rw [if_neg hline] at h
        exact ih hpods.tail hmarkers.tail h

/-- Contexts stay what they are when no service account starts the lines that are swapped. -/
theorem KeepsPods.of_swap {old new after : List Line} (hswap : IsSwap old new after)
    (hold : ∀ l, (old ++ after).head? = some l → l.hasKey "serviceAccountName".toList = false)
    (hnew : ∀ l, (new ++ after).head? = some l → l.hasKey "serviceAccountName".toList = false) :
    KeepsPods above (old ++ after) (new ++ after) := by
  intro before line between _ _
  rw [Bool.eq_iff_iff]
  exact ⟨precedesAccount_of_swap hswap hnew, precedesAccount_swap hswap hold⟩

end Changes

end OperatorChart
