import OperatorChart.CertificateGuard
import OperatorChart.Proofs.ManagerSwaps
/-!
# Steps of templating on a shaped document

A document has the shape that templating expects when its lines are indented by spaces and tabs
only, the manager's name stands in it once, and no item that is to be guarded lies inside of
another one. What an edit writes holds none of the entries that matter for this, so the shape is
kept.
-/

namespace OperatorChart

open Text

namespace Line

/-- Whether a line is blank or has only spaces and tabs before its content. -/
def IsIndented (line : Line) : Prop :=
  line.isBlank = true ∨
    ∀ c, (line.dropWhile isIndentation).head? = some c → Unicode.isWhiteSpace c = false

instance (line : Line) : Decidable line.IsIndented :=
  inferInstanceAs (Decidable (_ ∨ ∀ c ∈ (line.dropWhile isIndentation).head?, _))

variable {line : Line} {key value : Text}

theorem unquote_cases (v : Text) : unquote v = v ∨
    ∃ quote, (quote = '"' ∨ quote = '\'') ∧ v = quote :: (unquote v ++ [quote]) := by
  have hwithin : ∀ {quote : Char} {u : Text}, ((([quote] : Text).isPrefixOf? v).bind fun rest =>
      ([quote] : Text).isSuffixOf? rest) = some u → v = quote :: (u ++ [quote]) := by
    intro quote u h
    obtain ⟨rest, hrest, hu⟩ := Option.bind_eq_some_iff.1 h
    obtain ⟨r, hr, rfl⟩ := Option.map_eq_some_iff.1 hu
    have hreverse := isPrefixOf?_eq_some_iff.1 hr
    rw [isPrefixOf?_eq_some_iff.1 hrest, ← List.reverse_reverse rest, hreverse]
    simp
  rw [unquote]
  dsimp only
  cases hdouble : ((['"'] : Text).isPrefixOf? v).bind fun rest =>
    (['"'] : Text).isSuffixOf? rest with
  | some u => exact .inr ⟨'"', .inl rfl, hwithin hdouble⟩
  | none =>
      cases hsingle : ((['\''] : Text).isPrefixOf? v).bind fun rest =>
        (['\''] : Text).isSuffixOf? rest with
      | some u => exact .inr ⟨'\'', .inr rfl, hwithin hsingle⟩
      | none => exact .inl rfl

theorem isEntry_unique {key' value' : Text} (h : line.isEntry key value = true)
    (h' : line.isEntry key' value' = true) : key = key' ∧ value = value' := by
  unfold isEntry at h h'
  split at h
  · rename_i name rest hsplit
    rw [hsplit] at h'
    simp only [Bool.and_eq_true, beq_iff_eq] at h h'
    exact ⟨h.1.symm.trans h'.1, h.2.symm.trans h'.2⟩
  · cases h

theorem infix_of_isEntry {w : Text} (hw : IsWord w) (hcolon : ':' ∉ w) (hdouble : '"' ∉ w)
    (hsingle : '\'' ∉ w) (h : line.isEntry key value = true) (hocc : w <:+: line.content) :
    w <:+: key ∨ w <:+: value := by
  unfold isEntry at h
  split at h
  · rename_i name rest hsplit
    rw [Bool.and_eq_true, beq_iff_eq, beq_iff_eq] at h
    obtain ⟨rfl, rfl⟩ := h
    rw [eq_of_splitOnce? hsplit] at hocc
    refine (infix_append_cons hcolon hocc).imp_right fun hrest => ?_
    have htrim := hw.infix_trim hrest
    rcases unquote_cases rest.trim with heq | ⟨quote, hquote, heq⟩
    · rwa [heq]
    · have hnot : quote ∉ w := by rcases hquote with rfl | rfl <;> assumption
      rw [heq, ← List.nil_append (quote :: _)] at htrim
      rcases infix_append_cons hnot htrim with hnil | hinner
      · exact absurd (List.infix_nil.1 hnil) hw.ne_nil
      · rcases infix_append_cons hnot hinner with hinner | hnil
        · exact hinner
        · exact absurd (List.infix_nil.1 hnil) hw.ne_nil
  · cases h

theorem not_isEntry_of_not_hasKey (h : line.hasKey key = false) (value : Text) :
    line.isEntry key value = false := by
  rw [← Bool.not_eq_true] at h ⊢
  exact fun hentry => h (hasKey_of_isEntry hentry)

end Line

def itemGuards : List ItemGuard :=
  [.webhookVolumeMount, .webhookVolume, .metricsVolumeMount, .metricsVolume]

/-- The entries by which templating finds the manager and the items to guard. -/
def watchedEntries : List (Text × Text) :=
  ("name".toList, Container.managerName) :: itemGuards.flatMap fun itemGuard =>
    [(itemGuard.headKey, itemGuard.headValue), (itemGuard.bodyKey, itemGuard.bodyValue)]

namespace Line

def IsInert (line : Line) : Prop :=
  ∀ entry ∈ watchedEntries, line.isEntry entry.1 entry.2 = false

instance (line : Line) : Decidable line.IsInert :=
  inferInstanceAs (Decidable (∀ entry ∈ watchedEntries, line.isEntry entry.1 entry.2 = false))

variable {line : Line} {key : Text}

theorem IsInert.not_isManagerName (h : line.IsInert) : line.isManagerName = false :=
  h _ List.mem_cons_self

theorem isInert_of_hasKey (h : line.hasKey key = true)
    (hkey : ∀ entry ∈ watchedEntries, entry.1 ≠ key) : line.IsInert := by
  intro entry hentry
  exact not_isEntry_of_not_hasKey (not_hasKey_of_hasKey h (hkey entry hentry).symm) entry.2

theorem hasKey_congr {line' : Line} (h : line.hasKey key = true) (h' : line'.hasKey key = true)
    (other : Text) : line'.hasKey other = line.hasKey other := by
  rw [Bool.eq_iff_iff]
  exact ⟨fun hother => hasKey_unique h' hother ▸ h, fun hother => hasKey_unique h hother ▸ h'⟩

theorem IsInner.isDeeper {column : Nat} (h : IsInner column line) : line.isDeeper column = true :=
  isDeeper_iff.2 ⟨h.blank, h.deep⟩

theorem IsInner.isInert {column : Nat} (h : IsInner column line) : line.IsInert :=
  fun entry _ => not_isEntry_of_not_hasKey (h.no_key entry.1) entry.2

end Line

namespace ItemGuard

/-- Whether a line opens an item that a guard is for, given the lines behind it. -/
def isTarget (itemGuard : ItemGuard) (line : Line) (rest : List Line) : Bool :=
  line.isItem && line.isEntry itemGuard.headKey itemGuard.headValue &&
    (rest.takeWhile (Line.isDeeper line.indent)).any
      (·.isEntry itemGuard.bodyKey itemGuard.bodyValue)

/-- Whether no item in a block measured against `width`, which lines continue, is one that a
guard is for. -/
def noTargetWithin (itemGuard : ItemGuard) (width : Nat) : List Line → Bool
  | [] => true
  | line :: rest => !line.isDeeper width ||
      (!itemGuard.isTarget line rest && noTargetWithin itemGuard width rest)

def isUnnested (itemGuard : ItemGuard) : List Line → Bool
  | [] => true
  | line :: rest =>
    (!itemGuard.isTarget line rest || itemGuard.noTargetWithin line.indent rest) &&
      isUnnested itemGuard rest

theorem not_isHead {itemGuard : ItemGuard} (hguard : itemGuard ∈ itemGuards) {line : Line}
    (h : line.IsInert) : line.isEntry itemGuard.headKey itemGuard.headValue = false :=
  h (itemGuard.headKey, itemGuard.headValue)
    (List.mem_cons_of_mem _ (List.mem_flatMap.2 ⟨itemGuard, hguard, List.mem_cons_self⟩))

theorem not_isBody {itemGuard : ItemGuard} (hguard : itemGuard ∈ itemGuards) {line : Line}
    (h : line.IsInert) : line.isEntry itemGuard.bodyKey itemGuard.bodyValue = false :=
  h (itemGuard.bodyKey, itemGuard.bodyValue) (List.mem_cons_of_mem _
    (List.mem_flatMap.2 ⟨itemGuard, hguard, List.mem_cons_of_mem _ List.mem_cons_self⟩))

end ItemGuard

/-- Whether a document has the shape that templating expects. -/
structure IsShaped (ls : List Line) : Prop where
  indented : ∀ l ∈ ls, l.IsIndented
  named : NamedOnce ls
  unnested : ∀ itemGuard ∈ itemGuards, itemGuard.isUnnested ls = true

instance (ls : List Line) : Decidable (IsShaped ls) :=
  decidable_of_iff ((∀ l ∈ ls, l.IsIndented) ∧ NamedOnce ls ∧
      ∀ itemGuard ∈ itemGuards, itemGuard.isUnnested ls = true)
    ⟨fun h => ⟨h.1, h.2.1, h.2.2⟩, fun h => ⟨h.indented, h.named, h.unnested⟩⟩

/-- Whether new lines before `after` are what an edit may write in the place of old ones. -/
structure IsStep (old new after : List Line) : Prop where
  swap : IsSwap old new after
  inert : ∀ l ∈ new, l.IsInert
  indented : ∀ l ∈ new, l.IsIndented

section Step

variable {above old new after : List Line} {line : Line} {itemGuard : ItemGuard} {width : Nat}

namespace ItemGuard

theorem not_isTarget_of_isInert (hguard : itemGuard ∈ itemGuards) (h : line.IsInert)
    (rest : List Line) : itemGuard.isTarget line rest = false := by
  rw [isTarget, not_isHead hguard h]
  simp

/-- An edit makes no item one that a guard is for. -/
theorem isTarget_of_step (hguard : itemGuard ∈ itemGuards) (h : IsStep old new after)
    (htarget : itemGuard.isTarget line (above ++ (new ++ after)) = true) :
    itemGuard.isTarget line (above ++ (old ++ after)) = true := by
  have hbody : ∀ l ∈ new, l.isEntry itemGuard.bodyKey itemGuard.bodyValue = false := fun l hl =>
    not_isBody hguard (h.inert l hl)
  simp only [isTarget, Bool.and_eq_true, List.any_eq_true] at htarget ⊢
  obtain ⟨hhead, entry, hentry, hfound⟩ := htarget
  refine ⟨hhead, entry, ?_, hfound⟩
  rcases h.swap.takeWhile line.indent above with ⟨hold, hnew⟩ | ⟨hold, hnew⟩
  · rwa [hold, ← hnew]
  · rw [hnew] at hentry
    rw [hold]
    simp only [List.mem_append] at hentry ⊢
    rcases hentry with hentry | hentry | hentry
    · exact .inl hentry
    · rw [hbody entry hentry] at hfound
      cases hfound
    · exact .inr (.inr hentry)

theorem noTargetWithin_append (hguard : itemGuard ∈ itemGuards) (hnew : ∀ l ∈ new, l.IsInert)
    (h : itemGuard.noTargetWithin width after = true) :
    itemGuard.noTargetWithin width (new ++ after) = true := by
  induction new with
  | nil => exact h
  | cons line rest ih =>
      rw [List.forall_mem_cons] at hnew
      rw [List.cons_append, noTargetWithin, not_isTarget_of_isInert hguard hnew.1, ih hnew.2]
      simp

theorem noTargetWithin_of_stops (h : Stops width after) :
    itemGuard.noTargetWithin width after = true := by
  cases after with
  | nil => rfl
  | cons line rest => rw [noTargetWithin, stops_cons.1 h]; rfl

theorem noTargetWithin_of_append (hdeeper : ∀ l ∈ old, l.isDeeper width = true)
    (h : itemGuard.noTargetWithin width (old ++ after) = true) :
    itemGuard.noTargetWithin width after = true := by
  induction old with
  | nil => exact h
  | cons line rest ih =>
      rw [List.forall_mem_cons] at hdeeper
      rw [List.cons_append, noTargetWithin, hdeeper.1] at h
      simp only [Bool.not_true, Bool.false_or, Bool.and_eq_true] at h
      exact ih hdeeper.2 h.2

theorem noTargetWithin_step (hguard : itemGuard ∈ itemGuards) (h : IsStep old new after)
    (hwithin : itemGuard.noTargetWithin width (above ++ (old ++ after)) = true) :
    itemGuard.noTargetWithin width (above ++ (new ++ after)) = true := by
  induction above with
  | nil =>
      rw [List.nil_append] at hwithin ⊢
      rcases h.swap width with ⟨-, hstop⟩ | ⟨hold, -⟩
      · exact noTargetWithin_of_stops hstop
      · exact noTargetWithin_append hguard h.inert (noTargetWithin_of_append hold hwithin)
  | cons line rest ih =>
      simp only [List.cons_append, noTargetWithin, Bool.or_eq_true, Bool.not_eq_true',
        Bool.and_eq_true] at hwithin ⊢
      rcases hwithin with hshallow | ⟨htarget, hrest⟩
      · exact .inl hshallow
      · refine .inr ⟨?_, ih hrest⟩
        rw [← Bool.not_eq_true] at htarget ⊢
        exact fun hnew => htarget (isTarget_of_step hguard h hnew)

theorem isUnnested_of_append (h : itemGuard.isUnnested (old ++ after) = true) :
    itemGuard.isUnnested after = true := by
  induction old with
  | nil => exact h
  | cons line rest ih =>
      rw [List.cons_append, isUnnested, Bool.and_eq_true] at h
      exact ih h.2

theorem isUnnested_append (hguard : itemGuard ∈ itemGuards) (hnew : ∀ l ∈ new, l.IsInert)
    (h : itemGuard.isUnnested after = true) : itemGuard.isUnnested (new ++ after) = true := by
  induction new with
  | nil => exact h
  | cons line rest ih =>
      rw [List.forall_mem_cons] at hnew
      rw [List.cons_append, isUnnested, not_isTarget_of_isInert hguard hnew.1, ih hnew.2]
      rfl

theorem isUnnested_step (hguard : itemGuard ∈ itemGuards) (h : IsStep old new after)
    (hunnested : itemGuard.isUnnested (above ++ (old ++ after)) = true) :
    itemGuard.isUnnested (above ++ (new ++ after)) = true := by
  induction above with
  | nil =>
      rw [List.nil_append] at hunnested ⊢
      exact isUnnested_append hguard h.inert (isUnnested_of_append hunnested)
  | cons line rest ih =>
      simp only [List.cons_append, isUnnested, Bool.and_eq_true, Bool.or_eq_true,
        Bool.not_eq_true'] at hunnested ⊢
      refine ⟨hunnested.1.imp (fun htarget => ?_) (noTargetWithin_step hguard h), ih hunnested.2⟩
      rw [← Bool.not_eq_true] at htarget ⊢
      exact fun hnew => htarget (isTarget_of_step hguard h hnew)

end ItemGuard

theorem namedOnce_step (hinert : ∀ l ∈ new, l.IsInert)
    (h : NamedOnce (above ++ (old ++ after))) : NamedOnce (above ++ (new ++ after)) := by
  have hnone : new.countP Line.isManagerName = 0 := by
    rw [List.countP_eq_zero]
    intro l hl
    rw [(hinert l hl).not_isManagerName]
    decide
  rw [NamedOnce, List.countP_append, List.countP_append] at h ⊢
  omega

theorem IsShaped.step (h : IsStep old new after) (hshape : IsShaped (above ++ (old ++ after))) :
    IsShaped (above ++ (new ++ after)) := by
  refine ⟨?_, namedOnce_step h.inert hshape.named, fun itemGuard hguard =>
    itemGuard.isUnnested_step hguard h (hshape.unnested itemGuard hguard)⟩
  intro l hl
  simp only [List.mem_append] at hl
  rcases hl with hl | hl | hl
  · exact hshape.indented l (by simp [hl])
  · exact h.indented l hl
  · exact hshape.indented l (by simp [hl])

end Step

end OperatorChart
