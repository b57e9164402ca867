import OperatorChart.CertificateGuard
import OperatorChart.Proofs.Blocks
import OperatorChart.Proofs.GuardSteps
import OperatorChart.Proofs.WrapStability
/-!
# Nesting of the guards of items

A guard around a line or an item keeps the guards around it. A whole item never cuts a guard in
two: where its lines end, a shallower line or a blank one follows, and neither may stand in a
guard that the item opened.
-/

namespace OperatorChart

open Text

namespace Nesting

/-- Whether every open guard is indented by more than `width`. -/
def IsDeeper (top : List Frame) (width : Nat) : Prop :=
  ∀ frame ∈ top, width < frame.leading.length

variable {top stack next : List Frame} {width : Nat} {line : Line} {ls : List Line}

theorem isWithin_append {width' : Nat} (htop : IsWithin top width') (hstack : IsWithin stack width)
    (hle : width ≤ width') : IsWithin (top ++ stack) width' := by
  intro frame hframe
  rcases List.mem_append.1 hframe with hframe | hframe
  · exact htop frame hframe
  · exact Nat.le_trans (hstack frame hframe) hle

theorem admits_append (hstack : IsWithin stack width) (hdeep : width < line.indent) :
    admits (top ++ stack) line = true ↔ IsWithin top line.indent := by
  rw [admits_iff]
  constructor
  · exact fun h frame hframe => h frame (List.mem_append_left _ hframe)
  · exact fun h => isWithin_append h hstack hdeep.le

/-- The guard that a deep line divides or closes is itself deep. -/
theorem exists_of_leading_eq {frame : Frame} (hstack : IsWithin stack width)
    (hdeep : width < line.indent) (hleading : frame.leading = line.leading)
    (h : top ++ stack = frame :: next) : ∃ top', top = frame :: top' ∧ next = top' ++ stack := by
  cases top with
  | nil =>
      rw [List.nil_append] at h
      have hle := hstack frame (h ▸ List.mem_cons_self)
      rw [hleading] at hle
      exact absurd hdeep (Nat.not_lt.2 hle)
  | cons first top' =>
      obtain ⟨rfl, rfl⟩ := List.cons.inj h
      exact ⟨top', rfl, rfl⟩

/-- What a deep line does to the open guards does not depend on those that are less deep. -/
theorem step_append (htop : IsDeeper top width) (hstack : IsWithin stack width)
    (hdeep : width < line.indent) (hblank : line.isBlank = false)
    (h : step false (top ++ stack) line = some next) :
    ∃ top', IsDeeper top' width ∧ next = top' ++ stack ∧
      ∀ other, IsWithin other width → step false (top ++ other) line = some (top' ++ other) := by
  generalize hframes : top ++ stack = frames at h
  cases step_eq_some_iff.1 h with
  | opening hrole hadmits =>
      subst hframes
      have hwithin := (admits_append hstack hdeep).1 hadmits
      exact ⟨⟨_, line.leading⟩ :: top, List.forall_mem_cons.2 ⟨hdeep, htop⟩, rfl, fun other hother =>
        step_eq_some_iff.2 (.opening hrole ((admits_append hother hdeep).2 hwithin))⟩
  | otherwise hrole =>
      obtain ⟨top', rfl, rfl⟩ := exists_of_leading_eq hstack hdeep rfl hframes
      obtain ⟨hfirst, hothers⟩ := List.forall_mem_cons.1 htop
      exact ⟨⟨false, line.leading⟩ :: top', List.forall_mem_cons.2 ⟨hfirst, hothers⟩, rfl,
        fun other _ => step_eq_some_iff.2 (.otherwise hrole)⟩
  | close hrole hleading =>
      obtain ⟨top', rfl, rfl⟩ := exists_of_leading_eq hstack hdeep hleading hframes
      exact ⟨top', (List.forall_mem_cons.1 htop).2, rfl, fun other _ =>
        step_eq_some_iff.2 (.close hrole hleading)⟩
  | content hrole hfits =>
      subst hframes
      have hwithin : IsWithin top line.indent := fun frame hframe =>
        (fits_iff hblank).1 hfits frame (List.mem_append_left _ hframe)
      exact ⟨top, htop, rfl, fun other hother =>
        step_of_content hrole hblank (isWithin_append hwithin hother hdeep.le)⟩

/-- A line that is not as deep as the last open guard may not stand in it, and neither may a blank
one. -/
theorem step_of_shallow {frame : Frame}
    (hline : line.isBlank = false → line.indent < frame.leading.length) :
    step false (frame :: stack) line = none := by
  have hsolid : line.role ≠ .content → line.isBlank = false := by
    intro hrole
    rw [← Bool.not_eq_true]
    exact fun hblank => hrole (Line.role_of_isBlank hblank)
  rw [Option.eq_none_iff_forall_ne_some]
  intro next h
  cases step_eq_some_iff.1 h with
  | opening hrole hadmits =>
      have hblank := hsolid (by rcases hrole with ⟨hrole, -⟩ | ⟨hrole, -⟩ <;> rw [hrole] <;> decide)
      have hle := admits_iff.1 hadmits frame List.mem_cons_self
      exact absurd (hline hblank) (Nat.not_lt.2 hle)
  | otherwise hrole => exact Nat.lt_irrefl _ (hline (hsolid (by rw [hrole]; decide)))
  | close hrole hleading =>
      have hlt := hline (hsolid (by rw [hrole]; decide))
      rw [hleading] at hlt
      exact Nat.lt_irrefl _ hlt
  | content _ hfits =>
      cases hblank : line.isBlank with
      | true => simp [fits, hblank] at hfits
      | false =>
          have hle := (fits_iff hblank).1 hfits frame List.mem_cons_self
          exact absurd (hline hblank) (Nat.not_lt.2 hle)

/-- Behind an item, no guard that it opened is still open: the line that ends it may not stand
in one. -/
theorem eq_nil_of_scan (htop : IsDeeper top width)
    (hend : ∀ line, ls.head? = some line → BlockStyle.item.continues width line = false)
    (h : scan false (top ++ stack) ls = some []) : top = [] := by
  cases htops : top with
  | nil => rfl
  | cons frame rest =>
      exfalso
      have hframe : width < frame.leading.length := htop frame (htops ▸ List.mem_cons_self)
      rw [htops, List.cons_append] at h
      cases ls with
      | nil => cases h
      | cons line rest' =>
          have hstop := hend line rfl
          have hshallow : line.isBlank = false → line.indent < frame.leading.length := by
            intro hblank
            rw [BlockStyle.continues, hblank] at hstop
            simp only [Bool.not_false, Bool.true_and, Bool.or_eq_false_iff,
              decide_eq_false_iff_not] at hstop
            omega
          rw [scan, step_of_shallow hshallow] at h
          cases h

/-- The lines of an item keep the open guards, whichever these are. -/
theorem scan_body (htop : IsDeeper top width) (hstack : IsWithin stack width)
    (h : scan false (top ++ stack) ls = some []) {other : List Frame}
    (hother : IsWithin other width) :
    scan false (top ++ other) (ls.takeWhile (BlockStyle.item.continues width)) = some other ∧
      scan false stack (ls.dropWhile (BlockStyle.item.continues width)) = some [] := by
  induction ls generalizing top with
  | nil =>
      obtain rfl := eq_nil_of_scan htop (by simp) h
      exact ⟨rfl, h⟩
  | cons line rest ih =>
      by_cases hcontinues : BlockStyle.item.continues width line = true
      · have hline := hcontinues
        simp only [BlockStyle.continues, BlockStyle.keepsAtColumn, Bool.and_false, Bool.or_false,
          Bool.and_eq_true, Bool.not_eq_true', decide_eq_true_eq] at hline
        obtain ⟨next, hstep, hscan⟩ := Option.bind_eq_some_iff.1 h
        obtain ⟨top', htop', rfl, hsame⟩ := step_append htop hstack hline.2 hline.1 hstep
        rw [List.takeWhile_cons_of_pos hcontinues, List.dropWhile_cons_of_pos hcontinues, scan,
          hsame other hother]
        exact ih htop' hscan
      · rw [List.takeWhile_cons_of_neg hcontinues, List.dropWhile_cons_of_neg hcontinues]
        have hend : ∀ l, (line :: rest).head? = some l →
            BlockStyle.item.continues width l = false := by
          rintro l ⟨⟩
          simpa using hcontinues
        obtain rfl := eq_nil_of_scan htop hend h
        exact ⟨rfl, h⟩

end Nesting

namespace CertificateGuard

open Nesting

theorem isItem_of_pathCondition? {line : Line} {condition : Condition}
    (h : pathCondition? line = some condition) : line.isItem = true := by
  unfold pathCondition? at h
  split at h
  · cases h
  · rename_i hitem
    simpa using hitem

theorem scan_guardPaths {stack : List Frame} {previous : Option Line} {ls : List Line}
    (h : scan false stack ls = some []) : scan false stack (guardPaths previous ls) = some [] := by
  induction ls generalizing stack previous with
  | nil => exact h
  | cons line rest ih =>
      obtain ⟨next, hstep, hrest⟩ := Option.bind_eq_some_iff.1 h
      have hscan : scan false stack (guardPathLine previous line) = some next := by
        have hsame : scan false stack [line] = some next := by
          rw [scan, hstep]
          rfl
        unfold guardPathLine
        split
        · rename_i condition hcondition
          split
          · exact hsame
          · have hitem := isItem_of_pathCondition? hcondition
            have hrole := Line.role_of_isItem hitem
            have hblank := Line.not_isBlank_of_isItem hitem
            obtain ⟨rfl, hwithin⟩ := isWithin_of_step hrole hblank hstep
            have hline : step false (⟨true, line.leading⟩ :: next) line =
                some (⟨true, line.leading⟩ :: next) :=
              step_of_content hrole hblank (isWithin_cons hwithin)
            apply scan_guard (fun _ hc => Line.isIndentation_of_mem_leading hc) condition hwithin
            rw [scan, hline]
            rfl
        · exact hsame
      rw [guardPaths, scan_append, hscan]
      exact ih hrest

theorem not_mem_guardPaths {c : Char} (hc : IsLineEnd c) (previous : Option Line)
    {ls : List Line} (hls : ∀ line ∈ ls, c ∉ line) : ∀ line ∈ guardPaths previous ls, c ∉ line := by
  induction ls generalizing previous with
  | nil => simp [guardPaths]
  | cons line rest ih =>
      obtain ⟨hline, hrest⟩ := List.forall_mem_cons.1 hls
      rw [guardPaths, List.forall_mem_append]
      refine ⟨?_, ih (some line) hrest⟩
      unfold guardPathLine
      split
      · split
        · exact List.forall_mem_singleton.2 hline
        · exact Condition.not_mem_guard hc _ line (List.forall_mem_singleton.2 hline)
      · exact List.forall_mem_singleton.2 hline

theorem areLines_guardPaths {ls : List Line} (h : AreLines ls) :
    AreLines (guardPaths none ls) := by
  refine ⟨?_, not_mem_guardPaths (.inl rfl) none h.unbroken⟩
  obtain ⟨line, rest, rfl⟩ := List.exists_cons_of_ne_nil h.ne_nil
  rw [guardPaths, guardPathLine]
  split
  · split <;> simp [Condition.guard]
  · simp

end CertificateGuard

namespace ItemGuard

open Nesting

variable {itemGuard : ItemGuard} {previous : Option Line} {ls : List Line}

theorem guardItems_drop (itemGuard : ItemGuard) (previous : Option Line) (skip : Nat)
    (ls : List Line) (h : skip ≤ ls.length) :
    itemGuard.guardItems previous skip ls =
      itemGuard.guardItems ((ls.take skip).getLast?.or previous) 0 (ls.drop skip) := by
  induction skip generalizing previous ls with
  | zero => rfl
  | succ skip ih =>
      cases ls with
      | nil => exact absurd h (by simp)
      | cons line rest =>
          rw [guardItems, List.drop_succ_cons, ih (some line) rest (by simpa using h),
            List.take_succ_cons, getLast?_cons_or]

theorem guardItems_of_targets {line : Line} {rest : List Line}
    (h : itemGuard.targets previous line rest = true) :
    itemGuard.guardItems previous 0 (line :: rest) =
      itemGuard.condition.guard line.leading (line :: itemBody line rest) ++
        itemGuard.guardItems (line :: itemBody line rest).getLast? 0
          (rest.dropWhile (BlockStyle.item.continues line.indent)) := by
  have htake : rest.take (itemBody line rest).length = itemBody line rest :=
    take_length_takeWhile _ _
  have hdrop : rest.drop (itemBody line rest).length =
      rest.dropWhile (BlockStyle.item.continues line.indent) := drop_length_takeWhile _ _
  rw [guardItems, if_pos h, guardItems_drop itemGuard (some line) (itemBody line rest).length rest
    (List.takeWhile_prefix _).length_le, htake, hdrop, getLast?_cons_eq_or]

/-- Guarding items one after another: each line is kept, or opens an item that gets a guard. -/
theorem guardItems_induction (itemGuard : ItemGuard)
    {motive : Option Line → List Line → List Line → Prop}
    (hnil : ∀ previous, motive previous [] [])
    (hguard : ∀ {previous line rest out}, itemGuard.targets previous line rest = true →
      motive (line :: itemBody line rest).getLast?
        (rest.dropWhile (BlockStyle.item.continues line.indent)) out →
      motive previous (line :: rest)
        (itemGuard.condition.guard line.leading (line :: itemBody line rest) ++ out))
    (hkeep : ∀ {previous line rest out}, itemGuard.targets previous line rest = false →
      motive (some line) rest out → motive previous (line :: rest) (line :: out))
    (previous : Option Line) (ls : List Line) :
    motive previous ls (itemGuard.guardItems previous 0 ls) := by
  induction hn : ls.length using Nat.strongRecOn generalizing previous ls with
  | ind n ih =>
      cases ls with
      | nil => exact hnil previous
      | cons line rest =>
          rw [List.length_cons] at hn
          cases htargets : itemGuard.targets previous line rest with
          | true =>
              have hle := (List.dropWhile_suffix (BlockStyle.item.continues line.indent)
                (l := rest)).length_le
              rw [guardItems_of_targets htargets]
              exact hguard htargets (ih _ (by omega) _ _ rfl)
          | false =>
              rw [guardItems, if_neg (by simp [htargets])]
              exact hkeep htargets (ih _ (by omega) _ _ rfl)

theorem isItem_of_targets {line : Line} {rest : List Line}
    (h : itemGuard.targets previous line rest = true) : line.isItem = true := by
  simp only [targets, Bool.and_eq_true] at h
  exact h.1.1.1

theorem scan_guardItems {stack : List Frame} (h : scan false stack ls = some []) :
    scan false stack (itemGuard.guardItems previous 0 ls) = some [] := by
  refine itemGuard.guardItems_induction (motive := fun _ ls out => ∀ stack,
    scan false stack ls = some [] → scan false stack out = some []) (fun _ _ h => h) ?_ ?_
    previous ls stack h
  · intro previous line rest out htargets ih stack h
    obtain ⟨next, hstep, hrest⟩ := Option.bind_eq_some_iff.1 h
    have hitem := isItem_of_targets htargets
    have hrole := Line.role_of_isItem hitem
    have hblank := Line.not_isBlank_of_isItem hitem
    obtain ⟨rfl, hwithin⟩ := isWithin_of_step hrole hblank hstep
    have hopen : IsWithin (⟨true, line.leading⟩ :: next) line.indent := isWithin_cons hwithin
    have hnone : IsDeeper [] line.indent := by simp [IsDeeper]
    obtain ⟨hbody, hbehind⟩ := scan_body hnone hwithin hrest hopen
    have hguarded : scan false (⟨true, line.leading⟩ :: next) (line :: itemBody line rest) =
        some (⟨true, line.leading⟩ :: next) := by
      rw [scan, step_of_content hrole hblank hopen]
      exact hbody
    rw [scan_append, scan_guard (fun _ hc => Line.isIndentation_of_mem_leading hc) _ hwithin
      hguarded]
    exact ih next hbehind
  · intro previous line rest out _ ih stack h
    obtain ⟨next, hstep, hrest⟩ := Option.bind_eq_some_iff.1 h
    rw [scan, hstep]
    exact ih next hrest

theorem not_mem_guardItems {c : Char} (hc : IsLineEnd c) (itemGuard : ItemGuard)
    (previous : Option Line) (skip : Nat) (hls : ∀ line ∈ ls, c ∉ line) :
    ∀ line ∈ itemGuard.guardItems previous skip ls, c ∉ line := by
  induction ls generalizing previous skip with
  | nil => simp [guardItems]
  | cons line rest ih =>
      obtain ⟨hline, hothers⟩ := List.forall_mem_cons.1 hls
      have hrest := fun previous skip => ih previous skip hothers
      cases skip with
      | succ skip => exact hrest (some line) skip
      | zero =>
          have hbody : ∀ l ∈ line :: itemBody line rest, c ∉ l :=
            List.forall_mem_cons.2 ⟨hline, fun l hl => hothers l ((List.takeWhile_prefix _).mem hl)⟩
          rw [guardItems]
          split
          · rw [List.forall_mem_append]
            exact ⟨Condition.not_mem_guard hc _ line hbody, hrest (some line) _⟩
          · exact List.forall_mem_cons.2 ⟨hline, hrest (some line) 0⟩

theorem areLines_apply (itemGuard : ItemGuard) (h : AreLines ls) :
    AreLines (itemGuard.apply ls) := by
  refine ⟨?_, not_mem_guardItems (.inl rfl) itemGuard none 0 h.unbroken⟩
  obtain ⟨line, rest, rfl⟩ := List.exists_cons_of_ne_nil h.ne_nil
  rw [apply, guardItems]
  split <;> simp [Condition.guard]

end ItemGuard

end OperatorChart
