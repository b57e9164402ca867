import Mathlib.Data.List.Forall2
import OperatorChart.Proofs.NamingStability
/-!
# The name of a monitor

A name may hold line breaks, so an entry with a name may take several lines. The new name ends
like the old one, so the first line of an entry gets a new start of its name, and the others only
lose the spaces and tabs behind the name. Main statement: every line of a monitor stays as it is
or changes in one of these two ways.
-/

namespace OperatorChart.Naming

open Text

/-! ## Lines with white space behind them -/

/-- Whether a line is another one with spaces and tabs behind it. -/
def Trails (line line' : Line) : Prop :=
  ∃ tail, (∀ c ∈ tail, isIndentation c = true) ∧ line' = line ++ tail

theorem Trails.refl (line : Line) : Trails line line :=
  ⟨[], by simp, (List.append_nil line).symm⟩

theorem isWhite_of_isIndentation {s : Text} (h : ∀ c ∈ s, isIndentation c = true) : IsWhite s :=
  fun c hc => isWhiteSpace_of_isIndentation (h c hc)

theorem forall₂_trails_lines {tail : Text} (htail : ∀ c ∈ tail, isIndentation c = true)
    (s : Text) : List.Forall₂ Trails (lines s) (lines (s ++ tail)) := by
  have hbreak : '\n' ∉ tail := fun hmem => absurd (htail '\n' hmem) (by decide)
  induction s with
  | nil =>
      rw [List.nil_append, lines, lines, pieces_eq_singleton hbreak]
      exact .cons ⟨tail, htail, rfl⟩ .nil
  | cons c s ih =>
      obtain ⟨piece, rest, hs⟩ := exists_pieces '\n' s
      obtain ⟨piece', rest', ht⟩ := exists_pieces '\n' (s ++ tail)
      by_cases hc : c = '\n'
      · rw [hc, List.cons_append, lines, lines, pieces_separator, pieces_separator]
        exact .cons (Trails.refl []) ih
      · rw [lines, lines, hs, ht] at ih
        rw [List.cons_append, lines, lines, pieces_cons hc hs, pieces_cons hc ht]
        cases ih with
        | cons hpiece hrest =>
            obtain ⟨tail', htail', rfl⟩ := hpiece
            exact .cons ⟨tail', htail', rfl⟩ hrest

theorem Trails.trimmed {line line' : Line} (h : Trails line line') :
    line'.trimmed = line.trimmed := by
  obtain ⟨tail, htail, rfl⟩ := h
  exact trim_append (isWhite_of_isIndentation htail)

/-! ## Entries -/

theorem exists_of_isPadded {name rest : Text} (h : isPadded name rest = true) :
    ∃ pad tail, rest = pad ++ (name ++ tail) ∧ (∀ c ∈ pad, isIndentation c = true) ∧
      ∀ c ∈ tail, isIndentation c = true := by
  induction rest with
  | nil =>
      rw [isPadded, List.isEmpty_iff] at h
      exact ⟨[], [], by simp [h], by simp, by simp⟩
  | cons c rest ih =>
      rw [isPadded, Bool.or_eq_true, Bool.and_eq_true] at h
      rcases h with h | ⟨hc, h⟩
      · split at h
        · rename_i tail htail
          rw [isPrefixOf?_eq_some_iff] at htail
          exact ⟨[], tail, htail, by simp, List.all_eq_true.1 h⟩
        · cases h
      · obtain ⟨pad, tail, rfl, hpad, htail⟩ := ih h
        exact ⟨c :: pad, tail, rfl, List.forall_mem_cons.2 ⟨hc, hpad⟩, htail⟩

theorem parts_of_isNameEntry {name entry : Text} (h : isNameEntry name entry = true) :
    ∃ pad tail, entry = (Line.leading entry ++ "name:".toList ++ pad) ++ (name ++ tail) ∧
      (∀ c ∈ pad, isIndentation c = true) ∧ ∀ c ∈ tail, isIndentation c = true := by
  unfold isNameEntry at h
  split at h
  · rename_i rest hrest
    rw [isPrefixOf?_eq_some_iff] at hrest
    obtain ⟨pad, tail, rfl, hpad, htail⟩ := exists_of_isPadded h
    refine ⟨pad, tail, ?_, hpad, htail⟩
    have hparts := List.takeWhile_append_dropWhile (p := isIndentation) (l := entry)
    rw [hrest] at hparts
    rw [List.append_assoc, List.append_assoc]
    exact hparts.symm
  · cases h

/-- How the lines of a monitor change: spaces and tabs at the end go away, or the name of an entry
gets a new start. -/
inductive IsRenaming : Line → Line → Prop
  | trails {line line' : Line} (h : Trails line' line) : IsRenaming line line'
  | entry {start pad front s tail : Text} (hstart : ∀ c ∈ start, isIndentation c = true)
      (hdash : front.getLast? = some '-' ∨ s = metricsMonitorSuffix) :
      IsRenaming (start ++ "name:".toList ++ pad ++ (front ++ s ++ tail))
        (start ++ "name: ".toList ++ (chartName ++ '-' :: s))

theorem forall₂_isRenaming_refl (ls : List Line) : List.Forall₂ IsRenaming ls ls :=
  List.forall₂_same.2 fun line _ => .trails (Trails.refl line)

theorem forall₂_isRenaming_of_trails {ls ls' : List Line} (h : List.Forall₂ Trails ls ls') :
    List.Forall₂ IsRenaming ls' ls := by
  induction h with
  | nil => exact .nil
  | cons hline _ ih => exact .cons (.trails hline) ih

section Entries

variable {name front suffix : Text} {line : Line} {more : List Line}

theorem forall₂_isRenaming_entry (hname : name = front ++ suffix) (hfront : '\n' ∉ front)
    (hdash : front.getLast? = some '-' ∨ suffix = metricsMonitorSuffix)
    (hentry : isNameEntry name (ofLines (line :: more)) = true)
    (hlines : AreLines (line :: more)) :
    List.Forall₂ IsRenaming (line :: more)
      (lines (line.leading ++ "name: ".toList ++ (chartName ++ '-' :: suffix))) := by
  obtain ⟨pad, tail, hparts, hpad, htail⟩ := parts_of_isNameEntry hentry
  have hindent : ∀ c ∈ Line.leading (ofLines (line :: more)), isIndentation c = true :=
    fun _ hc => Line.isIndentation_of_mem_leading hc
  generalize Line.leading (ofLines (line :: more)) = start at hparts hindent
  have hstart : '\n' ∉ start := fun hmem => absurd (hindent '\n' hmem) (by decide)
  have hkey : '\n' ∉ start ++ "name:".toList ++ pad := by
    simp only [List.mem_append, not_or]
    exact ⟨⟨hstart, by decide⟩, fun hmem => absurd (hpad '\n' hmem) (by decide)⟩
  obtain ⟨s, ss, hsuffix⟩ := exists_pieces '\n' suffix
  have hnamed : lines name = (front ++ s) :: ss := by
    rw [hname]
    exact pieces_append hfront hsuffix
  obtain ⟨m, ms, hm⟩ := exists_pieces '\n' (name ++ tail)
  have htrails := forall₂_trails_lines htail name
  rw [hnamed, lines, hm] at htrails
  cases htrails with
  | cons hfirst hrest =>
      have hsplit := pieces_append hkey hm
      rw [← hparts] at hsplit
      obtain ⟨rfl, rfl⟩ := List.cons.inj ((lines_ofLines hlines).symm.trans hsplit)
      obtain ⟨trail, -, rfl⟩ := hfirst
      have hleading : Line.leading (start ++ "name:".toList ++ pad ++ (front ++ s ++ trail)) =
          start := by
        rw [List.append_assoc, List.append_assoc]
        exact Line.leading_append hindent rfl
      have hnew : lines (start ++ "name: ".toList ++ (chartName ++ '-' :: suffix)) =
          (start ++ "name: ".toList ++ (chartName ++ '-' :: s)) :: ss := by
        have hbreak : '\n' ∉ start ++ ("name: ".toList ++ (chartName ++ ['-'])) := by
          rw [List.mem_append, not_or]
          exact ⟨hstart, by decide⟩
        have hpieces := pieces_append hbreak hsuffix
        simp only [List.append_assoc, List.singleton_append] at hpieces
        rw [lines, List.append_assoc, List.append_assoc]
        exact hpieces
      rw [hleading, hnew]
      refine .cons (.entry hindent ?_) (forall₂_isRenaming_of_trails hrest)
      refine hdash.imp_right fun hbare => ?_
      rw [hbare, pieces_eq_singleton (by decide), List.cons.injEq] at hsuffix
      exact hsuffix.1.symm

theorem renameEntries_drop (name newName : Text) (breaks skip : Nat) (ls : List Line) :
    renameEntries name newName breaks skip ls =
      renameEntries name newName breaks 0 (ls.drop skip) := by
  induction ls generalizing skip with
  | nil => cases skip <;> rfl
  | cons line rest ih =>
      cases skip with
      | zero => rfl
      | succ skip => exact ih skip

theorem forall₂_isRenaming_renameEntries (breaks : Nat) (hname : name = front ++ suffix)
    (hfront : '\n' ∉ front) (hdash : front.getLast? = some '-' ∨ suffix = metricsMonitorSuffix)
    {ls : List Line} (hunbroken : ∀ l ∈ ls, '\n' ∉ l) :
    List.Forall₂ IsRenaming ls
      ((renameEntries name (chartName ++ '-' :: suffix) breaks 0 ls).flatMap lines) := by
  induction hn : ls.length using Nat.strongRecOn generalizing ls with
  | ind n ih =>
      cases ls with
      | nil => exact .nil
      | cons line rest =>
          obtain ⟨hline, hrest⟩ := List.forall_mem_cons.1 hunbroken
          rw [renameEntries]
          split
          · rename_i hentry
            rw [List.take_succ_cons] at hentry
            have hlines : AreLines (line :: rest.take breaks) :=
              ⟨List.cons_ne_nil _ _, List.forall_mem_cons.2
                ⟨hline, fun l hl => hrest l (List.mem_of_mem_take hl)⟩⟩
            have hbehind := ih (rest.drop breaks).length
              (by rw [← hn, List.length_drop, List.length_cons]; omega)
              (fun l hl => hrest l (List.mem_of_mem_drop hl)) rfl
            have hsplit : line :: rest = (line :: rest.take breaks) ++ rest.drop breaks := by
              rw [List.cons_append, List.take_append_drop]
            rw [renameEntries_drop, List.flatMap_cons, hsplit]
            exact List.rel_append (forall₂_isRenaming_entry hname hfront hdash hentry hlines)
              hbehind
          · have hbehind := ih rest.length (by rw [← hn]; exact Nat.lt_succ_self _) hrest rfl
            rw [List.flatMap_cons, lines, pieces_eq_singleton hline, List.singleton_append]
            exact .cons (.trails (Trails.refl line)) hbehind

end Entries

/-- The lines of a monitor keep everything but the start of its name. -/
theorem forall₂_isRenaming_fillMonitor {project : Text} (hproject : '\n' ∉ project)
    (resource : Resource) (t : Text) :
    List.Forall₂ IsRenaming (lines t) (lines (fillMonitor project resource t)) := by
  unfold fillMonitor
  split
  · exact forall₂_isRenaming_refl _
  · cases hsuffix : monitorSuffix? project resource.name with
    | none => exact forall₂_isRenaming_refl _
    | some suffix =>
        obtain ⟨front, hname, hfront, hdash⟩ : ∃ front, resource.name = front ++ suffix ∧
            '\n' ∉ front ∧ (front.getLast? = some '-' ∨ suffix = metricsMonitorSuffix) := by
          rcases suffix_of_monitorSuffix? hsuffix with ⟨-, hname⟩ | ⟨hname, hsame⟩
          · refine ⟨project ++ ['-'], by rw [hname, List.append_assoc]; rfl, ?_, .inl (by simp)⟩
            intro hmem
            exact (List.mem_append.1 hmem).elim hproject (by decide)
          · exact ⟨[], by rw [hname, hsame]; rfl, by simp, .inr hsame⟩
        have hne : renameEntries resource.name (chartName ++ '-' :: suffix)
            (resource.name.count '\n') 0 (lines t) ≠ [] := by
          obtain ⟨line, rest, hlines⟩ := List.exists_cons_of_ne_nil (lines_ne_nil t)
          rw [hlines, renameEntries]
          split <;> exact List.cons_ne_nil _ _
        have hrenamed := forall₂_isRenaming_renameEntries (resource.name.count '\n') hname hfront
          hdash (areLines_lines t).unbroken
        rwa [← lines_ofLines_eq_flatMap hne] at hrenamed

end OperatorChart.Naming
