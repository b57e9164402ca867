import Mathlib.Data.List.Nodup
import OperatorChart.Proofs.GuardMoves
/-!
# The guards of certificates on a shaped deployment

Main statements: the passes over paths and items put a guard right above everything that wants
one, and keep what the passes before them have done. So they leave their own output alone.
-/

namespace OperatorChart

open Text

/-! ## Openings right above lines -/

/-- Whether each line that wants a guard stands right below the opening of this guard. -/
def Led (wants : Line → List Line → Option Condition) (ls : List Line) : Prop :=
  ∀ before line after condition, ls = before ++ line :: after →
    wants line after = some condition → condition.isOpenedBy before.getLast? = true

/-- Whether the opening of a certificate's guard always has a line of its indentation below it. -/
def OpeningsLead (ls : List Line) : Prop :=
  ∀ before opening after, ls = before ++ opening :: after → opening.opensCertificate = true →
    ∃ line rest, after = line :: rest ∧ line.isBlank = false ∧ line.indent = opening.indent

def wantsAtPath (line : Line) (_ : List Line) : Option Condition :=
  CertificateGuard.pathCondition? line

def ItemGuard.wants (itemGuard : ItemGuard) (line : Line) (rest : List Line) : Option Condition :=
  if itemGuard.isTarget line rest then some itemGuard.condition else none

/-- As `Led`, given the line above the document. -/
def LedBelow (wants : Line → List Line → Option Condition) : Option Line → List Line → Prop
  | _, [] => True
  | previous, line :: rest =>
    (∀ condition, wants line rest = some condition → condition.isOpenedBy previous = true) ∧
      LedBelow wants (some line) rest

theorem ledBelow_iff {wants : Line → List Line → Option Condition} {previous : Option Line}
    {ls : List Line} : LedBelow wants previous ls ↔ ∀ before line after condition,
      ls = before ++ line :: after → wants line after = some condition →
        condition.isOpenedBy (before.getLast?.or previous) = true := by
  induction ls generalizing previous with
  | nil => simp [LedBelow]
  | cons first rest ih =>
      have hcons := @forall_split_cons (fun previous line after => ∀ condition,
        wants line after = some condition → condition.isOpenedBy previous = true) first rest previous
      rw [LedBelow, ih]
      constructor
      · intro h before line after condition heq
        exact hcons.2 ⟨h.1, fun before line after heq condition =>
          h.2 before line after condition heq⟩ before line after heq condition
      · intro h
        have hparts := hcons.1 fun before line after heq condition =>
          h before line after condition heq
        exact ⟨hparts.1, fun before line after condition heq =>
          hparts.2 before line after heq condition⟩

theorem led_iff {wants : Line → List Line → Option Condition} {ls : List Line} :
    Led wants ls ↔ LedBelow wants none ls := by
  simp only [ledBelow_iff, Option.or_none]
  rfl

theorem LedBelow.append {wants : Line → List Line → Option Condition} {previous : Option Line}
    {ls rest : List Line} (hls : ∀ before line after, ls = before ++ line :: after →
      wants line (after ++ rest) = none)
    (h : LedBelow wants (ls.getLast?.or previous) rest) : LedBelow wants previous (ls ++ rest) := by
  induction ls generalizing previous with
  | nil => exact h
  | cons line ls ih =>
      rw [List.cons_append]
      refine ⟨fun condition hwants => ?_, ih (fun before l after heq =>
        hls (line :: before) l after (by rw [heq]; rfl)) ?_⟩
      · rw [hls [] line ls rfl] at hwants
        cases hwants
      · rwa [getLast?_cons_or] at h

section Insert

variable {wants : Line → List Line → Option Condition} {condition : Condition}
  {above after before rest start inner behind : List Line} {previous : Option Line}
  {x line dash : Line}

theorem cases_of_insert (h : above ++ x :: after = before ++ line :: rest) :
    (∃ r, above = before ++ line :: r ∧ rest = r ++ x :: after) ∨
      (above = before ∧ x = line ∧ after = rest) ∨
      ∃ s, before = above ++ x :: s ∧ after = s ++ line :: rest := by
  rcases cases_of_append_eq h with habove | ⟨s, rfl, hs⟩
  · exact .inl habove
  · cases s with
    | nil =>
        obtain ⟨rfl, rfl⟩ := List.cons.inj hs
        exact .inr (.inl ⟨by simp, rfl, rfl⟩)
    | cons first s =>
        obtain ⟨rfl, rfl⟩ := List.cons.inj hs
        exact .inr (.inr ⟨s, rfl, rfl⟩)

/-- A line more, above a line whose own opening it does not cut off. -/
theorem Led.insert (hx : wants x after = none)
    (habove : ∀ before line r condition, above = before ++ line :: r →
      wants line (r ++ x :: after) = some condition → wants line (r ++ after) = some condition)
    (hhead : ∀ l rest condition, after = l :: rest → wants l rest = some condition →
      condition.isOpenedBy above.getLast? = false)
    (h : Led wants (above ++ after)) : Led wants (above ++ x :: after) := by
  intro before line rest condition heq hwants
  rcases cases_of_insert heq with ⟨r, rfl, rfl⟩ | ⟨-, rfl, rfl⟩ | ⟨s, rfl, rfl⟩
  · exact h before line (r ++ after) condition (by simp) (habove before line r condition rfl hwants)
  · rw [hx] at hwants
    cases hwants
  · have hopened := h (above ++ s) line rest condition (by simp) hwants
    cases s with
    | nil =>
        rw [List.append_nil, hhead line rest condition rfl hwants] at hopened
        cases hopened
    | cons first s =>
        rw [List.getLast?_append_of_ne_nil _ (List.cons_ne_nil _ _), List.getLast?_cons_cons]
        rwa [List.getLast?_append_of_ne_nil _ (List.cons_ne_nil _ _)] at hopened

theorem OpeningsLead.insert
    (hx : x.opensCertificate = true → ∃ l rest, after = l :: rest ∧ l.isBlank = false ∧
      l.indent = x.indent)
    (hlast : ∀ l, above.getLast? = some l → l.opensCertificate = true →
      x.isBlank = false ∧ x.indent = l.indent)
    (h : OpeningsLead (above ++ after)) : OpeningsLead (above ++ x :: after) := by
  intro before opening rest heq hopens
  rcases cases_of_insert heq with ⟨r, rfl, rfl⟩ | ⟨-, rfl, rfl⟩ | ⟨s, rfl, rfl⟩
  · cases r with
    | nil =>
        obtain ⟨hblank, hindent⟩ := hlast opening (by simp) hopens
        exact ⟨x, after, rfl, hblank, hindent⟩
    | cons first r =>
        obtain ⟨l, rest, hl, hfirst⟩ := h before opening (first :: r ++ after) (by simp) hopens
        obtain ⟨rfl, -⟩ := List.cons.inj hl
        exact ⟨first, r ++ x :: after, rfl, hfirst⟩
  · exact hx hopens
  · exact h (above ++ s) opening rest (by simp) hopens

theorem OpeningsLead.insert_opening (hx : x.IsGuardLine line.indent) (hline : line.isBlank = false)
    (h : OpeningsLead (above ++ line :: after)) :
    OpeningsLead (above ++ x :: line :: after) := by
  refine h.insert (fun _ => ⟨line, after, rfl, hline, hx.indent.symm⟩) fun l hl hopens => ?_
  obtain ⟨before, rfl⟩ := List.getLast?_eq_some_iff.1 hl
  obtain ⟨next, rest, hnext, -, hindent⟩ := h before l (line :: after) (by simp) hopens
  obtain ⟨rfl, -⟩ := List.cons.inj hnext
  exact ⟨hx.blank, hx.indent.trans hindent⟩

theorem OpeningsLead.insert_close (line : Line)
    (hlast : ∀ l ∈ above.getLast?, l.opensCertificate = false)
    (h : OpeningsLead (above ++ after)) :
    OpeningsLead (above ++ (line.leading ++ Directive.close.render) :: after) := by
  refine h.insert (fun hopens => ?_) fun l hl hopens => ?_
  · rw [line.not_opensCertificate_close] at hopens
    cases hopens
  · rw [hlast l hl] at hopens
    cases hopens

theorem OpeningsLead.of_append (h : OpeningsLead (above ++ after)) : OpeningsLead after :=
  fun before opening rest heq => h (above ++ before) opening rest (by rw [heq]; simp)

theorem openingsLead_of_unopened {ls : List Line} (h : ∀ l ∈ ls, l.opensCertificate = false) :
    OpeningsLead ls := by
  rintro before opening after rfl hopens
  rw [h opening (by simp)] at hopens
  cases hopens

theorem Line.not_opensCertificate_of_isItem (h : line.isItem = true) :
    line.opensCertificate = false := by
  refine not_opensCertificate_of_role ?_
  rw [role_of_isItem h]
  decide

theorem Line.opensCertificate_of_isOpenedBy (hcondition : condition ∈ certificateConditions)
    (h : condition.isOpenedBy (some line) = true) : line.opensCertificate = true :=
  List.any_eq_true.2 ⟨condition, hcondition, h⟩

theorem Condition.not_isOpenedBy (hcondition : condition ∈ certificateConditions)
    (h : ∀ l ∈ previous, l.opensCertificate = false) : condition.isOpenedBy previous = false := by
  cases previous with
  | none => rfl
  | some l =>
      rw [← Bool.not_eq_true]
      exact fun hopened => Bool.false_ne_true
        ((h l rfl).symm.trans (Line.opensCertificate_of_isOpenedBy hcondition hopened))

theorem OpeningsLead.not_opened_last (hlead : OpeningsLead (dash :: inner ++ behind))
    (hitem : dash.isItem = true) (hdeep : ∀ l ∈ inner, l.isDeeper dash.indent = true)
    (hstops : Stops dash.indent behind) {l : Line} (hl : (dash :: inner).getLast? = some l) :
    l.opensCertificate = false := by
  rw [← Bool.not_eq_true]
  intro hopens
  obtain ⟨before, hbefore⟩ := List.getLast?_eq_some_iff.1 hl
  rcases List.mem_cons.1 (List.mem_of_getLast? hl) with rfl | hmem
  · rw [Line.not_opensCertificate_of_isItem hitem] at hopens
    cases hopens
  · obtain ⟨next, rest, hnext, hblank, hindent⟩ :=
      hlead before l behind (by rw [hbefore]; simp) hopens
    have hstop := hstops next (by rw [hnext]; rfl)
    have hdeeper := (Line.isDeeper_iff.1 (hdeep l hmem)).2
    rw [← Bool.not_eq_true, Line.isDeeper_iff] at hstop
    exact hstop ⟨hblank, by omega⟩

end Insert

/-! ## Paths of certificates -/

namespace CertificateGuard

variable {line : Line} {condition : Condition} {above after ls : List Line}

theorem exists_of_pathCondition? (h : pathCondition? line = some condition) :
    condition ∈ certificateConditions ∧ line.isItem = true ∧
      ∃ flag ∈ [Values.webhookCertFlag, Values.metricsCertFlag],
        flag ++ ['='] <+: line.content := by
  have hitem := isItem_of_pathCondition? h
  unfold pathCondition? at h
  rw [hitem] at h
  split at h
  · cases h
  · split at h
    · rename_i hprefix
      cases h
      exact ⟨by decide, hitem, _, by simp, List.isPrefixOf_iff_prefix.1 hprefix⟩
    · split at h
      · rename_i hprefix
        cases h
        exact ⟨by decide, hitem, _, by simp, List.isPrefixOf_iff_prefix.1 hprefix⟩
      · cases h

theorem isInert_of_path (h : pathCondition? line = some condition) : line.IsInert := by
  obtain ⟨-, -, flag, hflag, hprefix⟩ := exists_of_pathCondition? h
  have howned : ∀ flag ∈ [Values.webhookCertFlag, Values.metricsCertFlag],
      flag ∈ Line.ownedFlags := by decide
  exact Line.isInert_of_flag (howned flag hflag)
    ((List.prefix_append flag ['=']).trans hprefix).isInfix

theorem not_hasKey_of_path (h : pathCondition? line = some condition) {key : Text}
    (hkey : Line.IsPlainKey key) : line.hasKey key = false := by
  obtain ⟨-, -, flag, hflag, hprefix⟩ := exists_of_pathCondition? h
  have hdash : ∀ flag ∈ [Values.webhookCertFlag, Values.metricsCertFlag],
      (flag ++ ['=']).head? = some '-' := by decide
  rw [← Bool.not_eq_true]
  intro hhas
  obtain ⟨c, tail, rfl, hc⟩ := hkey.exists_head []
  have hhead : line.content.head? = some '-' := by
    obtain ⟨rest, hrest⟩ := hprefix
    rw [← hrest, List.head?_append, hdash flag hflag]
    rfl
  unfold Line.hasKey at hhas
  split at hhas
  · rename_i name rest hsplit
    rw [Line.eq_of_splitOnce? hsplit, beq_iff_eq.1 hhas] at hhead
    exact hc.no_dash rfl (Option.some.inj hhead)
  · cases hhas

theorem guardPaths_induction {P : List Line → Prop}
    (hstep : ∀ {above line after condition}, pathCondition? line = some condition →
      P (above ++ line :: after) →
      P (above ++ (condition.guard line.leading [line] ++ after)))
    (previous : Option Line) (h : P (above ++ ls)) : P (above ++ guardPaths previous ls) := by
  induction ls generalizing above previous with
  | nil => exact h
  | cons line rest ih =>
      have hnext : P (above ++ guardPathLine previous line ++ rest) := by
        unfold guardPathLine
        split
        · rename_i condition hcondition
          split
          · simpa using h
          · rw [List.append_assoc]
            exact hstep hcondition h
        · simpa using h
      rw [guardPaths, ← List.append_assoc]
      exact ih (some line) hnext

theorem isGuarding_of_path (h : pathCondition? line = some condition)
    (hindented : line.IsIndented) :
    IsGuarding above [line] (condition.guard line.leading [line]) after := by
  have hkeys : ∀ key ∈ "serviceAccountName".toList :: managedKeys, Line.IsPlainKey key := by
    intro key hkey
    have hall : ∀ key ∈ "serviceAccountName".toList :: managedKeys, key ≠ [] ∧
        key.head?.any (fun c => c == '-' || Unicode.isWhiteSpace c) = false ∧ ':' ∉ key := by decide
    obtain ⟨hne, hhead, hcolon⟩ := hall key hkey
    refine ⟨hne, fun c hc => ?_, hcolon⟩
    rw [hc, Option.any_some, Bool.or_eq_false_iff, beq_eq_false_iff_ne] at hhead
    exact hhead
  exact isGuarding_path (line.isGuardLine_opening condition) line.isGuardLine_close
    (isItem_of_pathCondition? h) (isInert_of_path h) hindented
    fun key hkey => not_hasKey_of_path h (hkeys key hkey)

theorem openingsLead_guardPath (hitem : line.isItem = true)
    (h : OpeningsLead (above ++ line :: after)) :
    OpeningsLead (above ++ (condition.guard line.leading [line] ++ after)) := by
  have hopened := h.insert_opening (line.isGuardLine_opening condition)
    (Line.not_isBlank_of_isItem hitem)
  have hsplit : above ++ (condition.guard line.leading [line] ++ after) =
      above ++ [line.leading ++ condition.opening, line] ++
        (line.leading ++ Directive.close.render) :: after := by
    simp [Condition.guard]
  rw [hsplit]
  refine OpeningsLead.insert_close line (fun l hl => ?_) (by simpa using hopened)
  rw [List.getLast?_append_of_ne_nil _ (by simp)] at hl
  obtain rfl : line = l := Option.some.inj hl
  exact Line.not_opensCertificate_of_isItem hitem

/-- Every path has its guard. -/
theorem ledBelow_guardPaths {previous previous' : Option Line} (ls : List Line)
    (h : ∀ condition : Condition, condition.isOpenedBy previous = true →
      condition.isOpenedBy previous' = true) :
    LedBelow wantsAtPath previous' (guardPaths previous ls) := by
  induction ls generalizing previous previous' with
  | nil => trivial
  | cons line rest ih =>
      have hplain : ∀ {l : Line} {width : Nat}, l.IsGuardLine width → pathCondition? l = none := by
        intro l width hl
        rw [pathCondition?, hl.no_item]
        rfl
      rw [guardPaths]
      unfold guardPathLine
      split
      · rename_i condition hcondition
        split
        · rename_i hopened
          refine ⟨fun other hother => ?_, ih fun _ => id⟩
          obtain rfl := Option.some.inj (hcondition.symm.trans hother)
          exact h condition hopened
        · refine ⟨fun other hother => ?_, fun other hother => ?_, fun other hother => ?_, ih ?_⟩
          · rw [wantsAtPath, hplain (line.isGuardLine_opening condition)] at hother
            cases hother
          · obtain rfl := Option.some.inj (hcondition.symm.trans hother)
            exact line.isOpenedBy_opening condition
          · rw [wantsAtPath, hplain line.isGuardLine_close] at hother
            cases hother
          · intro other hother
            have hrole := Line.role_of_isOpenedBy hother
            rw [Line.role_of_isItem (isItem_of_pathCondition? hcondition)] at hrole
            cases hrole
      · rename_i hnone
        refine ⟨fun other hother => ?_, ih fun _ => id⟩
        rw [wantsAtPath, hnone] at hother
        cases hother

theorem guardPaths_of_led {previous : Option Line} (h : LedBelow wantsAtPath previous ls) :
    guardPaths previous ls = ls := by
  induction ls generalizing previous with
  | nil => rfl
  | cons line rest ih =>
      have hline : guardPathLine previous line = [line] := by
        unfold guardPathLine
        split
        · rename_i condition hcondition
          rw [if_pos (h.1 condition hcondition)]
        · rfl
      rw [guardPaths, hline, ih h.2]
      rfl

end CertificateGuard

/-! ## Items -/

namespace ItemGuard

variable {itemGuard other : ItemGuard} {line : Line} {above rest ls : List Line}
  {previous : Option Line}

theorem targets_eq (itemGuard : ItemGuard) (previous : Option Line) (line : Line)
    (rest : List Line) : itemGuard.targets previous line rest =
      (itemGuard.isTarget line rest && !itemGuard.condition.isOpenedBy previous) := by
  rw [targets, isTarget, itemBody, BlockStyle.body, continues_item, Bool.and_right_comm]

theorem itemBody_append_of_stops {body behind : List Line}
    (hdeep : ∀ l ∈ body, l.isDeeper line.indent = true)
    (hstops : Stops line.indent behind) : itemBody line (body ++ behind) = body := by
  rw [itemBody, BlockStyle.body, continues_item, hstops.takeWhile_append_of_deep hdeep]

theorem isTarget_iff : itemGuard.isTarget line rest = true ↔ line.isItem = true ∧
    line.isEntry itemGuard.headKey itemGuard.headValue = true ∧
      ∃ l ∈ rest.takeWhile (Line.isDeeper line.indent),
        l.isEntry itemGuard.bodyKey itemGuard.bodyValue = true := by
  rw [isTarget, Bool.and_eq_true, Bool.and_eq_true, List.any_eq_true, and_assoc]

theorem wants_eq_some {condition : Condition} : itemGuard.wants line rest = some condition ↔
    itemGuard.isTarget line rest = true ∧ itemGuard.condition = condition := by
  rw [wants]
  split
  · rename_i h
    simp [h]
  · rename_i h
    simp [h]

theorem wants_eq_none :
    itemGuard.wants line rest = none ↔ itemGuard.isTarget line rest = false := by
  rw [wants]
  split
  · rename_i h
    simp [h]
  · rename_i h
    simp [h]

theorem condition_mem (h : itemGuard ∈ itemGuards) :
    itemGuard.condition ∈ certificateConditions := by
  have hall : ∀ itemGuard ∈ itemGuards, itemGuard.condition ∈ certificateConditions := by
    simp only [itemGuards, List.forall_mem_cons]
    exact ⟨by decide, by decide, by decide, by decide, by simp⟩
  exact hall itemGuard h

theorem isPlainKey_headKey (h : itemGuard ∈ itemGuards) : Line.IsPlainKey itemGuard.headKey := by
  have hall : ∀ itemGuard ∈ itemGuards, itemGuard.headKey = "mountPath".toList ∨
      itemGuard.headKey = "name".toList := by
    simp only [itemGuards, List.forall_mem_cons]
    exact ⟨.inl rfl, .inr rfl, .inl rfl, .inr rfl, by simp⟩
  rcases hall itemGuard h with heq | heq <;> rw [heq] <;> exact ⟨by decide, by decide, by decide⟩

theorem nodup_heads :
    (itemGuards.map fun itemGuard => (itemGuard.headKey, itemGuard.headValue)).Nodup := by decide

/-- Two guards for items start with different entries. -/
theorem eq_of_isTarget (h : itemGuard ∈ itemGuards) (h' : other ∈ itemGuards)
    (htarget : itemGuard.isTarget line rest = true) {rest' : List Line}
    (htarget' : other.isTarget line rest' = true) : itemGuard = other := by
  obtain ⟨hkey, hvalue⟩ := Line.isEntry_unique (isTarget_iff.1 htarget).2.1
    (isTarget_iff.1 htarget').2.1
  exact List.inj_on_of_nodup_map nodup_heads h h' (Prod.ext hkey hvalue)

theorem pathCondition?_of_isTarget (h : itemGuard ∈ itemGuards)
    (htarget : itemGuard.isTarget line rest = true) :
    CertificateGuard.pathCondition? line = none := by
  cases hpath : CertificateGuard.pathCondition? line with
  | none => rfl
  | some condition =>
      have hkey := Line.hasKey_of_isEntry (isTarget_iff.1 htarget).2.1
      rw [CertificateGuard.not_hasKey_of_path hpath (isPlainKey_headKey h)] at hkey
      cases hkey

/-! ## The guard around an item -/

section Guard

variable {inner behind : List Line}

theorem isGuarding_opening (h : itemGuard ∈ itemGuards)
    (htarget : itemGuard.isTarget line rest = true) (above : List Line) :
    IsGuarding above [] [line.leading ++ itemGuard.condition.opening] (line :: rest) := by
  have hall : ∀ itemGuard ∈ itemGuards, itemGuard.headKey ≠ "serviceAccountName".toList := by decide
  have hkey := Line.hasKey_of_isEntry (isTarget_iff.1 htarget).2.1
  exact OperatorChart.isGuarding_opening (line.isGuardLine_opening itemGuard.condition)
    (isTarget_iff.1 htarget).1 (Line.not_hasKey_of_hasKey hkey (hall itemGuard h))

theorem isGuarding_close (hitem : line.isItem = true)
    (hdeep : ∀ l ∈ inner, l.isDeeper line.indent = true) (hstops : Stops line.indent behind)
    (above : List Line) :
    IsGuarding (above ++ line :: inner) [] [line.leading ++ Directive.close.render] behind :=
  isGuarding_closing line.isGuardLine_close hitem hdeep hstops

end Guard

/-! ## Guarded items -/

theorem guardItems_of_led (h : LedBelow itemGuard.wants previous ls) :
    itemGuard.guardItems previous 0 ls = ls := by
  induction ls generalizing previous with
  | nil => rfl
  | cons line rest ih =>
      have htargets : itemGuard.targets previous line rest = false := by
        rw [targets_eq, Bool.and_eq_false_iff]
        cases htarget : itemGuard.isTarget line rest with
        | false => exact .inl rfl
        | true =>
            right
            rw [h.1 _ (wants_eq_some.2 ⟨htarget, rfl⟩)]
            rfl
      rw [guardItems, if_neg (by simp [htargets]), ih h.2]

theorem not_isTarget_within {width : Nat} {l : Line} {above below : List Line}
    (hdeep : ∀ l ∈ above, l.isDeeper width = true) (hl : l.isDeeper width = true)
    (h : itemGuard.noTargetWithin width (above ++ l :: below) = true) :
    itemGuard.isTarget l below = false := by
  have htail := noTargetWithin_of_append hdeep h
  rw [noTargetWithin, hl] at htail
  simp only [Bool.not_true, Bool.false_or, Bool.and_eq_true, Bool.not_eq_true'] at htail
  exact htail.1

section Guarded

variable {body behind out : List Line} {l : Line} (hguard : itemGuard ∈ itemGuards)
  (htarget : itemGuard.isTarget line (body ++ behind) = true)
  (hdeep : ∀ l ∈ body, l.isDeeper line.indent = true) (hstops : Stops line.indent behind)
  (hout : ∀ l above, itemGuard.isTarget l (above ++ out) = true →
    itemGuard.isTarget l (above ++ behind) = true)

include hguard htarget hdeep hstops hout

theorem isTarget_of_guard (h : itemGuard.isTarget l (above ++
      (itemGuard.condition.guard line.leading (line :: body) ++ out)) = true) :
    itemGuard.isTarget l (above ++ line :: (body ++ behind)) = true := by
  have hopening := (itemGuard.isGuarding_opening hguard htarget []).toIsStep
  have hclosing := (isGuarding_close (isTarget_iff.1 htarget).1 hdeep hstops []).toIsStep
  have hsplit : ∀ tail, above ++
      (itemGuard.condition.guard line.leading (line :: body) ++ tail) =
        above ++ (line.leading ++ itemGuard.condition.opening) :: line :: body ++
          ([line.leading ++ Directive.close.render] ++ tail) := by
    simp [Condition.guard]
  have hbehind := hout l (above ++ itemGuard.condition.guard line.leading (line :: body))
    (by rwa [List.append_assoc])
  rw [List.append_assoc, hsplit] at hbehind
  have hopened := isTarget_of_step hguard hclosing hbehind
  have hsplit' : above ++ (line.leading ++ itemGuard.condition.opening) :: line :: body ++
      ([] ++ behind) =
        above ++ ([line.leading ++ itemGuard.condition.opening] ++ line :: (body ++ behind)) := by
    simp
  rw [hsplit'] at hopened
  exact isTarget_of_step hguard hopening hopened

/-- What a guard leaves of an item, with what the pass makes of the lines behind it. -/
theorem ledBelow_guard (hunnested : itemGuard.isUnnested (line :: (body ++ behind)) = true)
    (hlead : OpeningsLead (line :: (body ++ behind)))
    (hbehind : ∀ previous', (itemGuard.condition.isOpenedBy (line :: body).getLast? = true →
        itemGuard.condition.isOpenedBy previous' = true) →
      LedBelow itemGuard.wants previous' out) (previous' : Option Line) :
    LedBelow itemGuard.wants previous'
      (itemGuard.condition.guard line.leading (line :: body) ++ out) := by
  have hitem := (isTarget_iff.1 htarget).1
  have hopening := line.isGuardLine_opening itemGuard.condition
  have hclosing := line.isGuardLine_close
  have hnone : ∀ {l : Line} {width : Nat}, l.IsGuardLine width → ∀ tail,
      itemGuard.wants l tail = none := by
    intro l width hl tail
    rw [wants_eq_none, not_isTarget_of_isInert hguard hl.isInert]
  rw [Condition.guard_cons_append]
  refine ⟨fun condition hwants => ?_, fun condition hwants => ?_, LedBelow.append ?_ ⟨fun
    condition hwants => ?_, hbehind _ fun hopened => ?_⟩⟩
  · rw [hnone hopening] at hwants
    cases hwants
  · obtain ⟨-, rfl⟩ := wants_eq_some.1 hwants
    exact line.isOpenedBy_opening itemGuard.condition
  · -- an item inside would be one before the guard was put around the outer one
    rintro front l back rfl
    rw [isUnnested, htarget, Bool.and_eq_true] at hunnested
    have hwithin :
        itemGuard.noTargetWithin line.indent (front ++ l :: (back ++ behind)) = true := by
      simpa using hunnested.1
    have habsent := not_isTarget_within (fun l hl => hdeep l (by simp [hl])) (hdeep l (by simp))
      hwithin
    rw [wants_eq_none, ← Bool.not_eq_true]
    intro hinner
    have hclose := (isGuarding_close hitem hdeep hstops []).toIsStep
    have hstep := hout l (back ++ [line.leading ++ Directive.close.render])
      (by simpa using hinner)
    rw [List.append_assoc] at hstep
    have hbefore := isTarget_of_step hguard hclose hstep
    rw [List.nil_append, habsent] at hbefore
    cases hbefore
  · rw [hnone hclosing] at hwants
    cases hwants
  · rw [Condition.not_isOpenedBy (condition_mem hguard) fun l hl =>
      hlead.not_opened_last hitem hdeep hstops hl] at hopened
    cases hopened

end Guarded

/-- Every item that a guard is for gets it, when none lies inside of another one; and none becomes
one by it. -/
theorem ledBelow_guardItems (hguard : itemGuard ∈ itemGuards) (previous : Option Line)
    (ls : List Line) :
    (∀ line above, itemGuard.isTarget line (above ++ itemGuard.guardItems previous 0 ls) = true →
      itemGuard.isTarget line (above ++ ls) = true) ∧
    (itemGuard.isUnnested ls = true → OpeningsLead ls → ∀ previous',
      (itemGuard.condition.isOpenedBy previous = true →
        itemGuard.condition.isOpenedBy previous' = true) →
      LedBelow itemGuard.wants previous' (itemGuard.guardItems previous 0 ls)) := by
  refine itemGuard.guardItems_induction (motive := fun previous ls out =>
    (∀ line above, itemGuard.isTarget line (above ++ out) = true →
      itemGuard.isTarget line (above ++ ls) = true) ∧
    (itemGuard.isUnnested ls = true → OpeningsLead ls → ∀ previous',
      (itemGuard.condition.isOpenedBy previous = true →
        itemGuard.condition.isOpenedBy previous' = true) → LedBelow itemGuard.wants previous' out))
    (fun _ => ⟨fun _ _ => id, fun _ _ _ _ => trivial⟩) ?_ ?_ previous ls
  · intro previous line rest out htargets ih
    rw [targets_eq, Bool.and_eq_true] at htargets
    have htarget := htargets.1
    obtain ⟨body, behind, rfl, hdeep, hstops⟩ := exists_block_append line.indent rest
    rw [itemBody_append_of_stops hdeep hstops] at ih ⊢
    rw [continues_item, hstops.dropWhile_append_of_deep hdeep] at ih
    have hsplit : line :: (body ++ behind) = (line :: body) ++ behind := rfl
    refine ⟨fun l above h => isTarget_of_guard hguard htarget hdeep hstops ih.1 h,
      fun hunnested hlead previous' _ => ledBelow_guard hguard htarget hdeep hstops ih.1 hunnested
        hlead ?_ previous'⟩
    rw [hsplit] at hunnested hlead
    exact ih.2 (isUnnested_of_append hunnested) hlead.of_append
  · intro previous line rest out htargets ih
    refine ⟨fun l above h => ?_, fun hunnested hlead previous' hprevious => ⟨?_, ?_⟩⟩
    · have hsplit : ∀ tail, above ++ line :: tail = above ++ [line] ++ tail := by simp
      rw [hsplit] at h ⊢
      exact ih.1 l _ h
    · intro condition hwants
      obtain ⟨htarget, rfl⟩ := wants_eq_some.1 hwants
      have hbefore := ih.1 line [] htarget
      rw [targets_eq, List.nil_append] at *
      rw [hbefore, Bool.true_and, Bool.not_eq_false'] at htargets
      exact hprevious htargets
    · have hsplit : line :: rest = [line] ++ rest := rfl
      rw [hsplit] at hlead
      rw [isUnnested, Bool.and_eq_true] at hunnested
      exact ih.2 hunnested.2 hlead.of_append (some line) id

end ItemGuard

/-! ## What the passes keep -/

/-- Whether the passes over values, arguments and paths, and those over some kinds of items, would
find their own output. -/
structure IsGuarded (done : List ItemGuard) (ls : List Line) : Prop where
  templated : IsTemplated ls
  leads : OpeningsLead ls
  paths : Led wantsAtPath ls
  items : ∀ itemGuard ∈ done, Led itemGuard.wants ls

section Passes

variable {done : List ItemGuard} {itemGuard : ItemGuard}
  {above after rest body behind ls : List Line} {x line : Line} {width : Nat}

/-- A line of a guard more, above a line whose own opening it does not cut off. -/
theorem IsGuarded.insert (hx : x.IsGuardLine width) (hmove : IsGuarding above [] [x] after)
    (hdone : ∀ other ∈ done, other ∈ itemGuards)
    (hpath : ∀ l rest condition, after = l :: rest → wantsAtPath l rest = some condition →
      condition.isOpenedBy above.getLast? = false)
    (hitems : ∀ other ∈ done, ∀ l rest condition, after = l :: rest →
      other.wants l rest = some condition → condition.isOpenedBy above.getLast? = false)
    (hlead : OpeningsLead (above ++ x :: after)) (h : IsGuarded done (above ++ after)) :
    IsGuarded done (above ++ x :: after) := by
  refine ⟨h.templated.move hmove, hlead, h.paths.insert ?_ (fun _ _ _ _ _ => id) hpath,
    fun other hother => (h.items other hother).insert ?_ ?_ (hitems other hother)⟩
  · rw [wantsAtPath, CertificateGuard.pathCondition?, hx.no_item]
    rfl
  · rw [ItemGuard.wants_eq_none]
    exact ItemGuard.not_isTarget_of_isInert (hdone other hother) hx.isInert _
  · intro before line r condition _ hwants
    rw [ItemGuard.wants_eq_some] at hwants ⊢
    exact ⟨ItemGuard.isTarget_of_step (hdone other hother) hmove.toIsStep hwants.1, hwants.2⟩

/-- The opening of a guard above an item: what stands below it wants no guard of another kind. -/
theorem IsGuarded.insert_opening (hguard : itemGuard ∈ itemGuards)
    (hdone : ∀ other ∈ done, other ∈ itemGuards ∧ other ≠ itemGuard)
    (htarget : itemGuard.isTarget line rest = true) (h : IsGuarded done (above ++ line :: rest)) :
    IsGuarded done
      (above ++ (line.leading ++ itemGuard.condition.opening) :: line :: rest) := by
  have hopening := line.isGuardLine_opening itemGuard.condition
  refine h.insert hopening (itemGuard.isGuarding_opening hguard htarget above)
    (fun other hother => (hdone other hother).1) ?_ ?_
    (h.leads.insert_opening hopening
      (Line.not_isBlank_of_isItem (ItemGuard.isTarget_iff.1 htarget).1))
  · rintro l rest condition ⟨⟩ hwants
    rw [wantsAtPath, ItemGuard.pathCondition?_of_isTarget hguard htarget] at hwants
    cases hwants
  · rintro other hother l rest condition ⟨⟩ hwants
    have heq := ItemGuard.eq_of_isTarget (hdone other hother).1 hguard
      (ItemGuard.wants_eq_some.1 hwants).1 htarget
    exact absurd heq (hdone other hother).2

/-- The closing of a guard behind an item: the last line of the item opens no guard, so no opening
is cut off. -/
theorem IsGuarded.insert_close (hdone : ∀ other ∈ done, other ∈ itemGuards)
    (hitem : line.isItem = true) (hdeep : ∀ l ∈ body, l.isDeeper line.indent = true)
    (hstops : Stops line.indent behind)
    (h : IsGuarded done (above ++ line :: body ++ behind)) :
    IsGuarded done
      (above ++ line :: body ++ (line.leading ++ Directive.close.render) :: behind) := by
  have hlast : ∀ l ∈ (above ++ line :: body).getLast?, l.opensCertificate = false := by
    intro l hl
    rw [List.getLast?_append_of_ne_nil _ (List.cons_ne_nil line body)] at hl
    have hleads := h.leads
    rw [List.append_assoc] at hleads
    exact hleads.of_append.not_opened_last hitem hdeep hstops hl
  refine h.insert line.isGuardLine_close (ItemGuard.isGuarding_close hitem hdeep hstops above)
    hdone ?_ ?_ (h.leads.insert_close line hlast)
  · intro l rest condition _ hwants
    exact Condition.not_isOpenedBy (CertificateGuard.exists_of_pathCondition? hwants).1 hlast
  · intro other hother l rest condition _ hwants
    obtain ⟨-, rfl⟩ := ItemGuard.wants_eq_some.1 hwants
    exact Condition.not_isOpenedBy (ItemGuard.condition_mem (hdone other hother)) hlast

theorem IsGuarded.guard (hguard : itemGuard ∈ itemGuards)
    (hdone : ∀ other ∈ done, other ∈ itemGuards ∧ other ≠ itemGuard)
    (htarget : itemGuard.isTarget line (body ++ behind) = true)
    (hdeep : ∀ l ∈ body, l.isDeeper line.indent = true) (hstops : Stops line.indent behind)
    (h : IsGuarded done (above ++ line :: (body ++ behind))) :
    IsGuarded done
      (above ++ (itemGuard.condition.guard line.leading (line :: body) ++ behind)) := by
  have hopened : IsGuarded done
      (above ++ [line.leading ++ itemGuard.condition.opening] ++ line :: body ++ behind) := by
    simpa using h.insert_opening hguard hdone htarget
  have hclosed := hopened.insert_close (fun other hother => (hdone other hother).1)
    (ItemGuard.isTarget_iff.1 htarget).1 hdeep hstops
  simpa [Condition.guard] using hclosed

/-- The pass over a kind of items does its work and keeps that of the others. -/
theorem IsGuarded.apply (hguard : itemGuard ∈ itemGuards)
    (hdone : ∀ other ∈ done, other ∈ itemGuards ∧ other ≠ itemGuard) (h : IsGuarded done ls) :
    IsGuarded (itemGuard :: done) (itemGuard.apply ls) := by
  have hkept : ∀ above, IsGuarded done (above ++ ls) →
      IsGuarded done (above ++ itemGuard.guardItems none 0 ls) := by
    refine itemGuard.guardItems_induction (motive := fun _ ls out => ∀ above,
      IsGuarded done (above ++ ls) → IsGuarded done (above ++ out)) (fun _ _ => id) ?_ ?_ none ls
    · intro previous line rest out htargets ih above h
      rw [ItemGuard.targets_eq, Bool.and_eq_true] at htargets
      obtain ⟨body, behind, rfl, hdeep, hstops⟩ := exists_block_append line.indent rest
      have hguarded := h.guard hguard hdone htargets.1 hdeep hstops
      rw [ItemGuard.itemBody_append_of_stops hdeep hstops, ← List.append_assoc]
      rw [← List.append_assoc] at hguarded
      rw [continues_item, hstops.dropWhile_append_of_deep hdeep] at ih
      exact ih _ hguarded
    · intro previous line rest out _ ih above h
      have hsplit : ∀ tail, above ++ line :: tail = above ++ [line] ++ tail := by simp
      rw [hsplit] at h ⊢
      exact ih _ h
  have hbase := hkept [] h
  have hled := (ItemGuard.ledBelow_guardItems hguard none ls).2
    (h.templated.shaped.unnested itemGuard hguard) h.leads none id
  exact ⟨hbase.templated, hbase.leads, hbase.paths,
    List.forall_mem_cons.2 ⟨led_iff.2 hled, hbase.items⟩⟩

theorem IsGuarded.applyAll {todo : List ItemGuard} (hall : done.reverse ++ todo = itemGuards)
    (h : IsGuarded done ls) :
    IsGuarded itemGuards.reverse (todo.foldl (fun ls itemGuard => itemGuard.apply ls) ls) := by
  induction todo generalizing done ls with
  | nil =>
      rw [List.append_nil] at hall
      rwa [← hall, List.reverse_reverse]
  | cons itemGuard todo ih =>
      have hnodup : itemGuards.Nodup := List.Nodup.of_map _ ItemGuard.nodup_heads
      rw [← hall, List.nodup_append] at hnodup
      refine ih (by simpa using hall) (h.apply (by simp [← hall]) ?_)
      intro other hother
      exact ⟨by simp [← hall, hother],
        hnodup.2.2 other (List.mem_reverse.2 hother) itemGuard List.mem_cons_self⟩

end Passes

namespace Deployment

variable {ls : List Line}

theorem isGuarded_guardCertificates (hready : IsReady [Values.argsPath] ls)
    (hvalues : ValuesSettled ls) :
    IsGuarded itemGuards.reverse (guardCertificates ls) := by
  obtain ⟨hedits, hvalues, hargs⟩ := Values.edits_fillArgs hready hvalues
  have htidy := hedits.ready.tidy
  have hlead := openingsLead_of_unopened fun l hl => (htidy l hl).unopened
  have htemplated : IsTemplated (Values.fillArgs ls) :=
    ⟨hedits.ready.shaped, fun l hl => (htidy l hl).honest, hvalues, hargs⟩
  have hpaths : IsTemplated ([] ++ CertificateGuard.guardPaths none (Values.fillArgs ls)) ∧
      OpeningsLead ([] ++ CertificateGuard.guardPaths none (Values.fillArgs ls)) := by
    refine CertificateGuard.guardPaths_induction (P := fun ls => IsTemplated ls ∧ OpeningsLead ls)
      ?_ none ⟨htemplated, hlead⟩
    rintro above line after condition hcondition ⟨htemplated, hlead⟩
    have hindented := htemplated.shaped.indented line (by simp)
    exact ⟨htemplated.move (CertificateGuard.isGuarding_of_path hcondition hindented),
      CertificateGuard.openingsLead_guardPath (CertificateGuard.isItem_of_pathCondition? hcondition)
        hlead⟩
  have hstart : IsGuarded [] (CertificateGuard.guardPaths none (Values.fillArgs ls)) :=
    ⟨hpaths.1, hpaths.2, led_iff.2 (CertificateGuard.ledBelow_guardPaths _ fun _ => id), by simp⟩
  exact hstart.applyAll rfl

/-- Guarded lines are left alone. -/
theorem guardCertificates_of_isGuarded (h : IsGuarded itemGuards.reverse ls) :
    guardCertificates ls = ls := by
  have hargs := Values.fillArgs_of_settled h.templated.shaped.named h.templated.args
  have hpaths := CertificateGuard.guardPaths_of_led (led_iff.1 h.paths)
  have hitem : ∀ itemGuard ∈ itemGuards, itemGuard.apply ls = ls := fun itemGuard hguard =>
    ItemGuard.guardItems_of_led (led_iff.1 (h.items itemGuard (List.mem_reverse.2 hguard)))
  rw [guardCertificates, hargs, hpaths, hitem _ (by simp [itemGuards]),
    hitem _ (by simp [itemGuards]), hitem _ (by simp [itemGuards]), hitem _ (by simp [itemGuards])]

end Deployment

end OperatorChart
