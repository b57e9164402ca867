import OperatorChart.Proofs.FieldMoves
/-!
# How far a block goes

A block takes in the lines behind its key up to the first one that does not belong to it. A key
that stands in a block is not left of the column that the block is measured against, so what
belongs to the key's own block belongs to the outer one too. Main statement: a block is the longest
one of its key, and of any two blocks one lies in the other or they are apart.
-/

namespace OperatorChart

namespace BlockStyle

/-- Whether a line belongs to a block measured against `column`: it is not blank, and it is indented
deeper or, in a sequence, it is an item, a directive or a comment at the column. -/
def Takes (style : BlockStyle) (column : Nat) (line : Line) : Prop :=
  line.isBlank = false ∧ (column < line.indent ∨ style = .sequence ∧ line.indent = column ∧
    (line.isItem = true ∨ line.isDirective = true ∨ line.isComment = true))

theorem continues_iff {style : BlockStyle} {column : Nat} {line : Line} :
    style.continues column line = true ↔ style.Takes column line := by
  cases style <;> simp [continues, Takes, keepsAtColumn, or_assoc]

theorem indent_le_column (style : BlockStyle) (key : Line) : key.indent ≤ style.column key := by
  cases style with
  | item => exact Nat.le_refl _
  | mapping => exact key.indent_le_column
  | sequence => exact key.indent_le_column

/-- What belongs to the block of a key belongs to every block that the key belongs to. -/
theorem Takes.of_inner {style style' : BlockStyle} {column : Nat} {key line : Line}
    (hkey : style.Takes column key) (hline : style'.Takes (style'.column key) line) :
    style.Takes column line := by
  obtain ⟨hblank, hline⟩ := hline
  have hle := style'.indent_le_column key
  refine ⟨hblank, ?_⟩
  rcases hkey.2 with hdeep | ⟨hstyle, hsame, -⟩
  · left
    rcases hline with hdeeper | ⟨-, heq, -⟩ <;> omega
  · rcases hline with hdeeper | ⟨-, heq, hkind⟩
    · left
      omega
    · -- only here the line may stand at the outer column, as an item, a directive or a comment
      by_cases hcolumn : line.indent = column
      · exact .inr ⟨hstyle, hcolumn, hkind⟩
      · left
        omega

end BlockStyle

/-! ## The lines that are taken -/

theorem le_length_takeWhile_iff {p : Line → Bool} {ls : List Line} {n : Nat} (hn : n ≤ ls.length) :
    n ≤ (ls.takeWhile p).length ↔ ∀ j < n, p (lineAt ls j) = true := by
  induction ls generalizing n with
  | nil =>
      have hzero : n = 0 := Nat.le_zero.1 hn
      simp [hzero]
  | cons line rest ih =>
      cases n with
      | zero => simp
      | succ n =>
          have hrest : n ≤ rest.length := Nat.le_of_succ_le_succ hn
          rw [Nat.forall_lt_succ_left]
          show _ ↔ p line = true ∧ ∀ j < n, p (lineAt rest j) = true
          by_cases hline : p line = true
          · rw [List.takeWhile_cons_of_pos hline, List.length_cons, Nat.succ_le_succ_iff, ih hrest,
              and_iff_right hline]
          · rw [List.takeWhile_cons_of_neg hline]
            simp [hline]

namespace Block

/-- Whether a block holds every line behind its key up to the first one that does not belong to
it. -/
structure IsLongest (style : BlockStyle) (lines : List Line) (block : Block) : Prop where
  lt_stop : block.start < block.stop
  stop_le : block.stop ≤ lines.length
  takes : ∀ i, block.start < i → i < block.stop → style.Takes block.column (lineAt lines i)
  longest : ∀ stop ≤ lines.length,
    (∀ i, block.start < i → i < stop → style.Takes block.column (lineAt lines i)) →
      stop ≤ block.stop

def Within (inner outer : Block) : Prop :=
  outer.start ≤ inner.start ∧ inner.stop ≤ outer.stop

def Apart (block block' : Block) : Prop :=
  block.stop ≤ block'.start ∨ block'.stop ≤ block.start

section Located

variable {style style' : BlockStyle} {lines : List Line} {key key' stop : Nat}

/-- A block reaches as far as the lines behind its key belong to it. -/
theorem le_stop_locate_iff (hkey : key < stop) (hstop : stop ≤ lines.length) :
    stop ≤ (locate style lines key).stop ↔
      ∀ i, key < i → i < stop → style.Takes (style.column (lineAt lines key)) (lineAt lines i) := by
  have hn : stop - (key + 1) ≤ (lines.drop (key + 1)).length := by
    rw [List.length_drop]
    omega
  calc
    stop ≤ (locate style lines key).stop
      ↔ stop - (key + 1) ≤
          (style.body (style.column (lineAt lines key)) (lines.drop (key + 1))).length := by
        dsimp only [locate]
        omega
    _ ↔ ∀ j < stop - (key + 1),
          style.Takes (style.column (lineAt lines key)) (lineAt lines (key + 1 + j)) := by
        rw [BlockStyle.body, le_length_takeWhile_iff hn]
        simp only [lineAt_drop, BlockStyle.continues_iff]
    _ ↔ ∀ i, key < i → i < stop →
          style.Takes (style.column (lineAt lines key)) (lineAt lines i) := by
        constructor
        · intro h i hlt hi
          obtain ⟨j, rfl⟩ := Nat.exists_eq_add_of_le hlt
          exact h j (by omega)
        · intro h j hj
          exact h (key + 1 + j) (by omega) (by omega)

theorem isLongest_locate (style : BlockStyle) (hkey : key < lines.length) :
    IsLongest style lines (locate style lines key) where
  lt_stop := (stop_locate_le style hkey).1
  stop_le := (stop_locate_le style hkey).2
  takes := by
    obtain ⟨hlt, hle⟩ := stop_locate_le style hkey
    exact (le_stop_locate_iff hlt hle).1 (Nat.le_refl _)
  longest stop hstop htakes := by
    by_cases hlt : key < stop
    · exact (le_stop_locate_iff hlt hstop).2 htakes
    · dsimp only [locate]
      omega

/-- The block of a key that stands in a block ends in it. -/
theorem stop_le_of_mem (hlt : key < key') (hkey : key' < lines.length)
    (hmem : key' < (locate style lines key).stop) :
    (locate style' lines key').stop ≤ (locate style lines key).stop := by
  have houter := isLongest_locate style (Nat.lt_trans hlt hkey)
  have hinner := isLongest_locate style' hkey
  apply houter.longest _ hinner.stop_le
  intro i hi hstop
  by_cases hle : i ≤ key'
  · exact houter.takes i hi (by omega)
  · exact (houter.takes key' hlt hmem).of_inner (hinner.takes i (by show key' < i; omega) hstop)

theorem apart_or_within (hle : key ≤ key') (hkey : key' < lines.length) :
    Apart (locate style lines key) (locate style' lines key') ∨
      Within (locate style lines key) (locate style' lines key') ∨
        Within (locate style' lines key') (locate style lines key) := by
  rcases Nat.eq_or_lt_of_le hle with rfl | hlt
  · -- two blocks of one key: the shorter one lies in the longer one
    right
    rcases Nat.le_total (locate style lines key).stop (locate style' lines key).stop with h | h
    · exact .inl ⟨Nat.le_refl _, h⟩
    · exact .inr ⟨Nat.le_refl _, h⟩
  · by_cases hmem : key' < (locate style lines key).stop
    · exact .inr (.inr ⟨hle, stop_le_of_mem hlt hkey hmem⟩)
    · exact .inl (.inl (Nat.le_of_not_lt hmem))

end Located

/-- Every block of a document is the longest one of its key, the block of a key that stands in it
ends in it, and any two blocks are apart or one lies in the other. -/
theorem located_blocks_nest (lines : List Line) :
    (∀ style key, key < lines.length → (locate style lines key).start = key ∧
      (locate style lines key).column = style.column (lineAt lines key) ∧
        IsLongest style lines (locate style lines key)) ∧
    (∀ style style' key key', key < key' → key' < lines.length →
      key' < (locate style lines key).stop →
        (locate style' lines key').stop ≤ (locate style lines key).stop) ∧
    ∀ style style' key key', key < lines.length → key' < lines.length →
      Apart (locate style lines key) (locate style' lines key') ∨
        Within (locate style lines key) (locate style' lines key') ∨
          Within (locate style' lines key') (locate style lines key) := by
  refine ⟨fun style key hkey => ⟨rfl, rfl, isLongest_locate style hkey⟩,
    fun _ _ _ _ hlt hkey hmem => stop_le_of_mem hlt hkey hmem,
    fun style style' key key' hkey hkey' => ?_⟩
  rcases Nat.le_total key key' with hle | hle
  · exact apart_or_within hle hkey'
  · have hplaces : Apart (locate style' lines key') (locate style lines key) ∨
        Within (locate style' lines key') (locate style lines key) ∨
          Within (locate style lines key) (locate style' lines key') :=
      apart_or_within hle hkey
    rcases hplaces with h | h | h
    · exact .inl h.symm
    · exact .inr (.inr h)
    · exact .inr (.inl h)

/-- A list of items at the column of their key, and the block of an item in it. -/
theorem located_blocks_nest_items :
    let lines := ["env:".toList, "- name: A".toList, "  value: x".toList, "image: y".toList]
    (1 : Nat) < 4 ∧ (1 : Nat) < (locate .sequence lines 0).stop ∧
      (locate .item lines 1).stop ≤ (locate .sequence lines 0).stop :=
  ⟨by decide, by decide, (located_blocks_nest _).2.1 .sequence .item 0 1 (by decide) (by decide)
    (by decide)⟩

end Block

end OperatorChart
