import Mathlib.Data.List.TakeWhile
import OperatorChart.Block
/-!
# Lines swapped in a document

Every edit replaces a few lines by a few others. An edit that respects indentation either ends
the block of a line above where the old lines ended it, or belongs to the block as a whole as
they did.
-/

namespace OperatorChart

/-- Whether a line belongs to the block of a mapping or an item measured against `width`. -/
def Line.isDeeper (width : Nat) (line : Line) : Bool :=
  !line.isBlank && decide (width < line.indent)

theorem continues_mapping : BlockStyle.mapping.continues = Line.isDeeper := by
  funext width line
  simp [BlockStyle.continues, BlockStyle.keepsAtColumn, Line.isDeeper]

theorem continues_item : BlockStyle.item.continues = Line.isDeeper := by
  funext width line
  simp [BlockStyle.continues, BlockStyle.keepsAtColumn, Line.isDeeper]

namespace Line

variable {width width' : Nat} {line : Line}

theorem isDeeper_iff : line.isDeeper width = true ↔ line.isBlank = false ∧ width < line.indent := by
  simp [isDeeper]

theorem isDeeper_mono (hle : width' ≤ width) (h : line.isDeeper width = true) :
    line.isDeeper width' = true := by
  rw [isDeeper_iff] at h ⊢
  exact ⟨h.1, by omega⟩

theorem not_isDeeper_mono (hle : width ≤ width') (h : line.isDeeper width = false) :
    line.isDeeper width' = false := by
  rw [← Bool.not_eq_true] at h ⊢
  exact fun hdeeper => h (isDeeper_mono hle hdeeper)

end Line

/-- Whether lines end a block measured against `width` that stands above them. -/
def Stops (width : Nat) (ls : List Line) : Prop :=
  ∀ line, ls.head? = some line → line.isDeeper width = false

instance (width : Nat) (ls : List Line) : Decidable (Stops width ls) :=
  inferInstanceAs (Decidable (∀ line ∈ ls.head?, line.isDeeper width = false))

section Stops

variable {width width' : Nat} {line : Line} {ls rest : List Line}

theorem stops_cons : Stops width (line :: rest) ↔ line.isDeeper width = false := by
  simp [Stops]

theorem Stops.mono (h : Stops width ls) (hle : width ≤ width') : Stops width' ls :=
  fun line hline => Line.not_isDeeper_mono hle (h line hline)

theorem Stops.takeWhile (h : Stops width ls) : ls.takeWhile (Line.isDeeper width) = [] := by
  cases ls with
  | nil => rfl
  | cons line rest => rw [List.takeWhile_cons_of_neg (by simp [stops_cons.1 h])]

theorem Stops.dropWhile (h : Stops width ls) : ls.dropWhile (Line.isDeeper width) = ls := by
  cases ls with
  | nil => rfl
  | cons line rest => rw [List.dropWhile_cons_of_neg (by simp [stops_cons.1 h])]

theorem stops_dropWhile (width : Nat) (ls : List Line) :
    Stops width (ls.dropWhile (Line.isDeeper width)) := by
  intro line hline
  have hnot := List.head?_dropWhile_not (Line.isDeeper width) ls
  rw [hline] at hnot
  exact hnot

theorem exists_block_append (width : Nat) (ls : List Line) : ∃ body behind, ls = body ++ behind ∧
    (∀ l ∈ body, l.isDeeper width = true) ∧ Stops width behind :=
  ⟨_, _, List.takeWhile_append_dropWhile.symm, fun _ hl => List.mem_takeWhile_imp hl,
    stops_dropWhile width ls⟩

/-- Deep lines do not reach beyond the line that ends their block. -/
theorem exists_append_of_stops {body front after behind : List Line}
    (hdeep : ∀ l ∈ body, l.isDeeper width = true) (hstops : Stops width behind)
    (h : body ++ after = front ++ behind) : ∃ s, front = body ++ s ∧ after = s ++ behind := by
  rcases List.append_eq_append_iff.1 h with hsplit | ⟨s, rfl, rfl⟩
  · exact hsplit
  · cases s with
    | nil => exact ⟨[], by simp, rfl⟩
    | cons l s =>
        rw [List.cons_append, stops_cons, hdeep l (by simp)] at hstops
        cases hstops

theorem Stops.takeWhile_append_of_deep {body : List Line} (h : Stops width rest)
    (hdeep : ∀ l ∈ body, l.isDeeper width = true) :
    (body ++ rest).takeWhile (Line.isDeeper width) = body := by
  rw [List.takeWhile_append_of_pos hdeep, h.takeWhile, List.append_nil]

theorem Stops.dropWhile_append_of_deep {body : List Line} (h : Stops width rest)
    (hdeep : ∀ l ∈ body, l.isDeeper width = true) :
    (body ++ rest).dropWhile (Line.isDeeper width) = rest := by
  rw [List.dropWhile_append_of_pos hdeep, h.dropWhile]

end Stops

/-! ## Swaps -/

/-- Whether old lines before `after` and new ones in their place mean the same for the blocks of
the lines above: both end a block, or both belong to it. -/
def IsSwap (old new after : List Line) : Prop :=
  ∀ width, (Stops width (old ++ after) ∧ Stops width (new ++ after)) ∨
    ((∀ l ∈ old, l.isDeeper width = true) ∧ ∀ l ∈ new, l.isDeeper width = true)

namespace IsSwap

variable {old new after : List Line}

/-- Lines that start at one indentation, with nothing indented less behind the first one, may
take the place of each other. -/
theorem of_indent {first first' : Line} {rest rest' : List Line} (hblank : first.isBlank = false)
    (hblank' : first'.isBlank = false) (hindent : first'.indent = first.indent)
    (hrest : ∀ l ∈ rest, l.isBlank = false ∧ first.indent ≤ l.indent)
    (hrest' : ∀ l ∈ rest', l.isBlank = false ∧ first.indent ≤ l.indent) (after : List Line) :
    IsSwap (first :: rest) (first' :: rest') after := by
  intro width
  by_cases hlt : width < first.indent
  · right
    have hdeeper : ∀ l : Line, l.isBlank = false ∧ first.indent ≤ l.indent →
        l.isDeeper width = true := fun l hl => Line.isDeeper_iff.2 ⟨hl.1, by omega⟩
    constructor
    · exact List.forall_mem_cons.2 ⟨hdeeper first ⟨hblank, Nat.le_refl _⟩, fun l hl =>
        hdeeper l (hrest l hl)⟩
    · exact List.forall_mem_cons.2 ⟨hdeeper first' ⟨hblank', Nat.le_of_eq hindent.symm⟩, fun l hl =>
        hdeeper l (hrest' l hl)⟩
  · left
    have hstop : ∀ l : Line, l.indent = first.indent → l.isDeeper width = false := by
      intro l hl
      rw [← Bool.not_eq_true, Line.isDeeper_iff]
      omega
    exact ⟨stops_cons.2 (hstop first rfl), stops_cons.2 (hstop first' hindent)⟩

/-- Lines may be added where a block ends that they do not belong to. -/
theorem of_stops {first : Line} {rest : List Line} (hblank : first.isBlank = false)
    (hrest : ∀ l ∈ rest, l.isBlank = false ∧ first.indent ≤ l.indent)
    (hafter : Stops first.indent after) : IsSwap [] (first :: rest) after := by
  intro width
  by_cases hlt : width < first.indent
  · right
    refine ⟨by simp, List.forall_mem_cons.2 ⟨Line.isDeeper_iff.2 ⟨hblank, hlt⟩, fun l hl => ?_⟩⟩
    exact Line.isDeeper_iff.2 ⟨(hrest l hl).1, Nat.lt_of_lt_of_le hlt (hrest l hl).2⟩
  · left
    refine ⟨hafter.mono (by omega), stops_cons.2 ?_⟩
    rw [← Bool.not_eq_true, Line.isDeeper_iff]
    exact fun h => hlt h.2

theorem symm (h : IsSwap old new after) : IsSwap new old after :=
  fun width => (h width).imp And.symm And.symm

/-- What is left behind a block of a line above. -/
theorem dropWhile (h : IsSwap old new after) (width : Nat) (between : List Line) :
    (∃ r, (between ++ (old ++ after)).dropWhile (Line.isDeeper width) = r ++ (old ++ after) ∧
      (between ++ (new ++ after)).dropWhile (Line.isDeeper width) = r ++ (new ++ after)) ∨
    (between ++ (old ++ after)).dropWhile (Line.isDeeper width) =
      (between ++ (new ++ after)).dropWhile (Line.isDeeper width) := by
  induction between with
  | nil =>
      rcases h width with ⟨hold, hnew⟩ | ⟨hold, hnew⟩
      · exact .inl ⟨[], hold.dropWhile, hnew.dropWhile⟩
      · right
        rw [List.nil_append, List.nil_append, List.dropWhile_append_of_pos hold,
          List.dropWhile_append_of_pos hnew]
  | cons line rest ih =>
      by_cases hdeeper : line.isDeeper width = true
      · rw [List.cons_append, List.cons_append, List.dropWhile_cons_of_pos hdeeper,
          List.dropWhile_cons_of_pos hdeeper]
        exact ih
      · rw [List.cons_append, List.cons_append, List.dropWhile_cons_of_neg hdeeper,
          List.dropWhile_cons_of_neg hdeeper]
        exact .inl ⟨line :: rest, rfl, rfl⟩

/-- The block of a line above: it ends before the lines that are swapped, or it takes them all. -/
theorem takeWhile (h : IsSwap old new after) (width : Nat) (between : List Line) :
    ((between ++ (old ++ after)).takeWhile (Line.isDeeper width) =
        between.takeWhile (Line.isDeeper width) ∧
      (between ++ (new ++ after)).takeWhile (Line.isDeeper width) =
        between.takeWhile (Line.isDeeper width)) ∨
    ((between ++ (old ++ after)).takeWhile (Line.isDeeper width) =
        between ++ (old ++ after.takeWhile (Line.isDeeper width)) ∧
      (between ++ (new ++ after)).takeWhile (Line.isDeeper width) =
        between ++ (new ++ after.takeWhile (Line.isDeeper width))) := by
  induction between with
  | nil =>
      rcases h width with ⟨hold, hnew⟩ | ⟨hold, hnew⟩
      · exact .inl ⟨hold.takeWhile, hnew.takeWhile⟩
      · right
        exact ⟨List.takeWhile_append_of_pos hold, List.takeWhile_append_of_pos hnew⟩
  | cons line rest ih =>
      by_cases hdeeper : line.isDeeper width = true
      · rw [List.cons_append, List.cons_append, List.takeWhile_cons_of_pos hdeeper,
          List.takeWhile_cons_of_pos hdeeper, List.takeWhile_cons_of_pos hdeeper]
        rcases ih with ⟨hold, hnew⟩ | ⟨hold, hnew⟩
        · exact .inl ⟨congrArg (line :: ·) hold, congrArg (line :: ·) hnew⟩
        · exact .inr ⟨congrArg (line :: ·) hold, congrArg (line :: ·) hnew⟩
      · rw [List.cons_append, List.cons_append, List.takeWhile_cons_of_neg hdeeper,
          List.takeWhile_cons_of_neg hdeeper, List.takeWhile_cons_of_neg hdeeper]
        exact .inl ⟨rfl, rfl⟩

end IsSwap

end OperatorChart
