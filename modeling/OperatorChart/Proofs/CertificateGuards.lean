import OperatorChart.Proofs.OuterItems
/-!
# What the guards of certificates enclose

Main statement: the five passes that guard what depends on certificates insert the lines of guards
and nothing else. Each path of a certificate stands alone in its guard, each item that lies in no
other item of its kind stands in its guard with all its lines, and no guard is put around anything
else.
-/

namespace OperatorChart

open Text

/-! ## What is guarded -/

/-- Whether a line opens the guard of a certificate, or closes a guard. -/
def Line.isGuardMark (line : Line) : Bool :=
  (Directive.close.render :: certificateConditions.map Condition.opening).contains line.trimmed

def withoutMarks (ls : List Line) : List Line :=
  ls.filter fun line => !line.isGuardMark

/-- Whether an item is one that a guard is for, and lies in no other one. -/
def ItemGuard.IsOutermost (itemGuard : ItemGuard) (before : List Line) (line : Line)
    (after : List Line) : Prop :=
  itemGuard.isTarget line after = true ∧ ∀ front dash between, before = front ++ dash :: between →
    itemGuard.isTarget dash (between ++ line :: after) = true →
      ∃ l ∈ between ++ [line], l.isDeeper dash.indent = false

def Condition.Surrounds (condition : Condition) (line : Line) (inner above below : List Line) :
    Prop :=
  above.getLast? = some (line.leading ++ condition.opening) ∧
    ∃ behind, below = inner ++ (line.leading ++ Directive.close.render) :: behind

/-- Whether a line of a document, and what stands above and below it, are found in another one with
their guards. -/
structure IsPlace (kinds : Set ItemGuard) (before : List Line) (line : Line)
    (after above below : List Line) : Prop where
  above_eq : withoutMarks above = before
  below_eq : withoutMarks below = after
  path : ∀ condition, CertificateGuard.IsPath condition line →
    condition.Surrounds line [] above below
  item : ∀ itemGuard ∈ kinds, itemGuard.IsOutermost before line after →
    ∃ inner, itemGuard.condition.Surrounds line inner above below ∧
      withoutMarks inner = ItemGuard.itemBody line after

def Condition.IsFor (kinds : Set ItemGuard) (condition : Condition) (before : List Line)
    (line : Line) (after : List Line) : Prop :=
  CertificateGuard.IsPath condition line ∨
    ∃ itemGuard ∈ kinds, itemGuard.condition = condition ∧ itemGuard.IsOutermost before line after

/-! ## Marks -/

section Marks

variable {condition : Condition} {line : Line} {inner out ls ls' : List Line}

theorem Line.isGuardMark_iff : line.isGuardMark = true ↔
    line.opensCertificate = true ∨ line.trimmed = Directive.close.render := by
  rw [isGuardMark, opensCertificate, List.contains_cons, Bool.or_eq_true, beq_iff_eq, or_comm,
    List.contains_eq_any_beq, List.any_map]
  rfl

theorem Line.not_isGuardMark_of_role (h : line.role = .content) : line.isGuardMark = false := by
  rw [← Bool.not_eq_true, isGuardMark_iff]
  rintro (hopens | hclose)
  · rw [not_opensCertificate_of_role (by rw [h]; decide)] at hopens
    cases hopens
  · rw [role, hclose] at h
    revert h
    decide

theorem Line.not_isGuardMark_of_isItem (h : line.isItem = true) : line.isGuardMark = false :=
  not_isGuardMark_of_role (role_of_isItem h)

theorem withoutMarks_append (ls ls' : List Line) :
    withoutMarks (ls ++ ls') = withoutMarks ls ++ withoutMarks ls' :=
  List.filter_append ls ls'

theorem withoutMarks_cons (h : line.isGuardMark = false) (ls : List Line) :
    withoutMarks (line :: ls) = line :: withoutMarks ls :=
  List.filter_cons_of_pos (by simp [h])

theorem withoutMarks_cons_of_mark (h : line.isGuardMark = true) (ls : List Line) :
    withoutMarks (line :: ls) = withoutMarks ls :=
  List.filter_cons_of_neg (by simp [h])

theorem isGuardMark_opening (hcondition : condition ∈ certificateConditions) (line : Line) :
    Line.isGuardMark (line.leading ++ condition.opening) = true :=
  Line.isGuardMark_iff.2 (.inl (Line.opensCertificate_of_isOpenedBy hcondition
    (line.isOpenedBy_opening condition)))

theorem isGuardMark_close (line : Line) :
    Line.isGuardMark (line.leading ++ Directive.close.render) = true :=
  Line.isGuardMark_iff.2 (.inr (Line.trimmed_directive
    (fun _ => Line.isIndentation_of_mem_leading) .close))

theorem withoutMarks_guard (hcondition : condition ∈ certificateConditions)
    (hline : line.isGuardMark = false) (inner : List Line) :
    withoutMarks (condition.guard line.leading (line :: inner)) = line :: withoutMarks inner := by
  rw [Condition.guard, withoutMarks_cons_of_mark (isGuardMark_opening hcondition line),
    List.cons_append, withoutMarks_cons hline, withoutMarks_append,
    withoutMarks_cons_of_mark (isGuardMark_close line)]
  exact congrArg (line :: ·) (List.append_nil _)

end Marks

/-! ## Items inside of items -/

section Outermost

variable {itemGuard : ItemGuard} {condition : Condition} {front before after behind inner above
  below : List Line} {line : Line} {width : Nat}

theorem ItemGuard.IsOutermost.of_append_left (front : List Line)
    (h : itemGuard.IsOutermost (front ++ before) line after) :
    itemGuard.IsOutermost before line after :=
  ⟨h.1, fun start dash between heq => h.2 (front ++ start) dash between (by simp [heq])⟩

theorem ItemGuard.IsOutermost.append_left (hfront : ∀ start dash between,
      front = start ++ dash :: between →
      itemGuard.isTarget dash (between ++ (before ++ line :: after)) = true →
        ∃ l ∈ before ++ [line], l.isDeeper dash.indent = false)
    (h : itemGuard.IsOutermost before line after) :
    itemGuard.IsOutermost (front ++ before) line after := by
  refine ⟨h.1, fun start dash between heq htarget => ?_⟩
  rcases cases_of_append_eq heq with ⟨r, rfl, rfl⟩ | ⟨s, rfl, rfl⟩
  · rw [List.append_assoc] at htarget
    obtain ⟨l, hl, hshallow⟩ := hfront start dash r rfl htarget
    exact ⟨l, by simp at hl ⊢; tauto, hshallow⟩
  · exact h.2 s dash between rfl htarget

/-- Lines behind a block do not matter in it. -/
theorem ItemGuard.isOutermost_append_iff (hdeep : ∀ l ∈ before, l.isDeeper width = true)
    (hline : line.isDeeper width = true) (hstops : Stops width behind) :
    itemGuard.IsOutermost before line (after ++ behind) ↔
      itemGuard.IsOutermost before line after := by
  have hsame : ∀ {l : Line}, l.isDeeper width = true → ∀ ls,
      itemGuard.isTarget l (ls ++ behind) = itemGuard.isTarget l ls := fun hl ls =>
    ItemGuard.isTarget_append (hstops.mono (Line.isDeeper_iff.1 hl).2.le) ls
  rw [IsOutermost, IsOutermost, hsame hline]
  refine and_congr_right fun _ => forall_congr' fun start => forall_congr' fun dash =>
    forall_congr' fun between => forall_congr' fun heq => ?_
  rw [← List.cons_append, ← List.append_assoc, hsame (hdeep dash (by simp [heq]))]

theorem Condition.Surrounds.prepend (h : condition.Surrounds line inner above below)
    (front : List Line) : condition.Surrounds line inner (front ++ above) below :=
  ⟨by rw [List.getLast?_append, h.1, Option.some_or], h.2⟩

theorem Condition.Surrounds.append (h : condition.Surrounds line inner above below)
    (behind : List Line) : condition.Surrounds line inner above (below ++ behind) := by
  obtain ⟨habove, rest, rfl⟩ := h
  exact ⟨habove, rest ++ behind, by simp⟩

namespace Condition.IsFor

variable {kinds : Set ItemGuard}

theorem isItem (h : condition.IsFor kinds before line after) : line.isItem = true := by
  rcases h with hpath | ⟨itemGuard, -, -, houter⟩
  · exact hpath.1
  · exact (ItemGuard.isTarget_iff.1 houter.1).1

theorem mono {kinds' : Set ItemGuard} (hkinds : ∀ itemGuard ∈ kinds, itemGuard ∈ kinds')
    (h : condition.IsFor kinds before line after) : condition.IsFor kinds' before line after :=
  h.imp_right fun ⟨itemGuard, hkind, houter⟩ => ⟨itemGuard, hkinds itemGuard hkind, houter⟩

theorem append_left (front : List Line) (hfront : ∀ itemGuard ∈ kinds, ∀ start dash between,
      front = start ++ dash :: between →
      itemGuard.isTarget dash (between ++ (before ++ line :: after)) = true →
        ∃ l ∈ before ++ [line], l.isDeeper dash.indent = false)
    (h : condition.IsFor kinds before line after) :
    condition.IsFor kinds (front ++ before) line after := by
  rcases h with hpath | ⟨itemGuard, hkind, hcondition, houter⟩
  · exact .inl hpath
  · exact .inr ⟨itemGuard, hkind, hcondition, houter.append_left (hfront itemGuard hkind)⟩

theorem cons {first : Line} (hfirst : ∀ itemGuard ∈ kinds,
      itemGuard.isTarget first (before ++ line :: after) = false)
    (h : condition.IsFor kinds before line after) :
    condition.IsFor kinds (first :: before) line after := by
  refine h.append_left [first] fun itemGuard hkind start dash between heq htarget => ?_
  rcases start with - | ⟨other, start⟩
  · obtain ⟨rfl, rfl⟩ := List.cons.inj heq
    rw [List.nil_append, hfirst itemGuard hkind] at htarget
    cases htarget
  · simp at heq

/-- What is asked for in an item is asked for in the document. -/
theorem inside {dash : Line} {itemGuard : ItemGuard}
    (hguards : ∀ other ∈ kinds, other ∈ itemGuards) (hkind : itemGuard ∈ kinds)
    (htarget : itemGuard.isTarget dash (before ++ line :: after) = true)
    (hdeep : ∀ l ∈ before ++ line :: after, l.isDeeper dash.indent = true)
    (hstops : Stops dash.indent behind)
    (h : condition.IsFor (kinds \ {itemGuard}) before line after) :
    condition.IsFor kinds (dash :: before) line (after ++ behind) := by
  have hbefore : ∀ l ∈ before, l.isDeeper dash.indent = true := fun l hl => hdeep l (by simp [hl])
  have hwide : condition.IsFor (kinds \ {itemGuard}) before line (after ++ behind) :=
    h.imp_right fun ⟨other, hother, heq, houter⟩ => ⟨other, hother, heq,
      (ItemGuard.isOutermost_append_iff hbefore (hdeep line (by simp)) hstops).2 houter⟩
  have hkept := hwide.cons fun other hother => ItemGuard.not_isTarget_of_ne
    (hguards other hother.1) (hguards itemGuard hkind) hother.2 htarget _
  exact hkept.mono fun other hother => hother.1

theorem behindItem {dash : Line} {body : List Line}
    (hdeep : ∀ l ∈ body, l.isDeeper dash.indent = true)
    (hstops : Stops dash.indent (before ++ line :: after))
    (h : condition.IsFor kinds before line after) :
    condition.IsFor kinds (dash :: body ++ before) line after := by
  refine h.append_left (dash :: body) fun itemGuard _ start first between heq _ => ?_
  have hindent : dash.indent ≤ first.indent := by
    have hmem : first ∈ dash :: body := by rw [heq]; simp
    rcases List.mem_cons.1 hmem with rfl | hmem
    · exact Nat.le_refl _
    · exact (Line.isDeeper_iff.1 (hdeep first hmem)).2.le
  have hends : Stops first.indent (before ++ line :: after) := hstops.mono hindent
  cases before with
  | nil => exact ⟨line, by simp, stops_cons.1 hends⟩
  | cons l before => exact ⟨l, by simp, stops_cons.1 hends⟩

end Condition.IsFor

end Outermost

/-! ## Places -/

namespace IsPlace

variable {kinds : Set ItemGuard} {itemGuard : ItemGuard} {condition : Condition}
  {front front' before after behind body inner out above below : List Line} {line dash : Line}

theorem prepend (front : List Line) (hfront : withoutMarks front' = front)
    (h : IsPlace kinds before line after above below) :
    IsPlace kinds (front ++ before) line after (front' ++ above) below := by
  refine ⟨by rw [withoutMarks_append, hfront, h.above_eq], h.below_eq,
    fun condition hpath => (h.path condition hpath).prepend front',
    fun itemGuard hkind houter => ?_⟩
  obtain ⟨inner, hsurrounds, hinner⟩ := h.item itemGuard hkind (houter.of_append_left front)
  exact ⟨inner, hsurrounds.prepend front', hinner⟩

theorem ofPlain (hpath : CertificateGuard.pathCondition? line = none)
    (htarget : ∀ itemGuard ∈ kinds, itemGuard.isTarget line behind = false)
    (hout : withoutMarks out = behind) : IsPlace kinds [] line behind [] out := by
  refine ⟨rfl, hout, fun condition hother => ?_, fun itemGuard hkind houter => ?_⟩
  · rw [← CertificateGuard.pathCondition?_eq_some_iff, hpath] at hother
    cases hother
  · exact absurd houter.1 (by simp [htarget itemGuard hkind])

theorem ofPath (hkinds : ∀ itemGuard ∈ kinds, itemGuard ∈ itemGuards)
    (hpath : CertificateGuard.pathCondition? line = some condition)
    (hout : withoutMarks out = behind) :
    IsPlace kinds [] line behind [line.leading ++ condition.opening]
      ((line.leading ++ Directive.close.render) :: out) := by
  have hcondition := (CertificateGuard.exists_of_pathCondition? hpath).1
  refine ⟨withoutMarks_cons_of_mark (isGuardMark_opening hcondition line) [],
    (withoutMarks_cons_of_mark (isGuardMark_close line) out).trans hout, fun other hother => ?_,
    fun itemGuard hkind houter => ?_⟩
  · rw [← CertificateGuard.pathCondition?_eq_some_iff, hpath] at hother
    obtain rfl := Option.some.inj hother
    exact ⟨rfl, out, rfl⟩
  · rw [ItemGuard.pathCondition?_of_isTarget (hkinds itemGuard hkind) houter.1] at hpath
    cases hpath

theorem ofDash (hguards : ∀ other ∈ kinds, other ∈ itemGuards) (hkind : itemGuard ∈ kinds)
    (htarget : itemGuard.isTarget dash body = true)
    (hdeep : ∀ l ∈ body, l.isDeeper dash.indent = true) (hstops : Stops dash.indent behind)
    (hinner : withoutMarks inner = body) (hout : withoutMarks out = behind) :
    IsPlace kinds [] dash (body ++ behind) [dash.leading ++ itemGuard.condition.opening]
      (inner ++ (dash.leading ++ Directive.close.render) :: out) := by
  have hcondition := ItemGuard.condition_mem (hguards itemGuard hkind)
  refine ⟨withoutMarks_cons_of_mark (isGuardMark_opening hcondition dash) [], ?_,
    fun condition hpath => ?_, fun other hother houter => ?_⟩
  · rw [withoutMarks_append, withoutMarks_cons_of_mark (isGuardMark_close dash), hinner, hout]
  · rw [← CertificateGuard.pathCondition?_eq_some_iff,
      ItemGuard.pathCondition?_of_isTarget (hguards itemGuard hkind) htarget] at hpath
    cases hpath
  · obtain rfl := ItemGuard.eq_of_isTarget (hguards other hother) (hguards itemGuard hkind)
      houter.1 htarget
    exact ⟨inner, ⟨rfl, out, rfl⟩,
      hinner.trans (ItemGuard.itemBody_append_of_stops hdeep hstops).symm⟩

/-- A line inside of a guarded item: it may ask for a guard of another kind. -/
theorem inside (hcondition : itemGuard.condition ∈ certificateConditions)
    (htarget : itemGuard.isTarget dash (before ++ line :: after) = true)
    (hdeep : ∀ l ∈ before ++ line :: after, l.isDeeper dash.indent = true)
    (hstops : Stops dash.indent behind) (hout : withoutMarks out = behind)
    (h : IsPlace (kinds \ {itemGuard}) before line after above below) :
    IsPlace kinds (dash :: before) line (after ++ behind)
      ((dash.leading ++ itemGuard.condition.opening) :: dash :: above)
      (below ++ (dash.leading ++ Directive.close.render) :: out) := by
  have hdash := Line.not_isGuardMark_of_isItem (ItemGuard.isTarget_iff.1 htarget).1
  have hline : line.isDeeper dash.indent = true := hdeep line (by simp)
  have hbefore : ∀ l ∈ before, l.isDeeper dash.indent = true := fun l hl => hdeep l (by simp [hl])
  have hsplit : ∀ tail : List Line, (dash.leading ++ itemGuard.condition.opening) :: dash :: tail =
      [dash.leading ++ itemGuard.condition.opening, dash] ++ tail := fun _ => rfl
  refine ⟨?_, ?_, fun condition hpath => ?_, fun other hother houter => ?_⟩
  · rw [withoutMarks_cons_of_mark (isGuardMark_opening hcondition dash), withoutMarks_cons hdash,
      h.above_eq]
  · rw [withoutMarks_append, withoutMarks_cons_of_mark (isGuardMark_close dash), h.below_eq, hout]
  · rw [hsplit]
    exact ((h.path condition hpath).append _).prepend _
  · have hne : other ≠ itemGuard := by
      rintro rfl
      have hwhole : other.isTarget dash (before ++ line :: (after ++ behind)) = true := by
        rw [← List.cons_append, ← List.append_assoc, ItemGuard.isTarget_append hstops, htarget]
      obtain ⟨l, hl, hshallow⟩ := houter.2 [] dash before rfl hwhole
      rw [hdeep l (by simp at hl ⊢; tauto)] at hshallow
      cases hshallow
    have hinside : other.IsOutermost before line after :=
      (ItemGuard.isOutermost_append_iff hbefore hline hstops).1
        (ItemGuard.IsOutermost.of_append_left [dash] houter)
    obtain ⟨inner, hsurrounds, hinner⟩ := h.item other ⟨hother, hne⟩ hinside
    refine ⟨inner, ?_, ?_⟩
    · rw [hsplit]
      exact (hsurrounds.append _).prepend _
    · have hends : Stops line.indent behind := hstops.mono (Line.isDeeper_iff.1 hline).2.le
      rw [hinner, ItemGuard.itemBody, ItemGuard.itemBody, BlockStyle.body, BlockStyle.body,
        continues_item, hends.takeWhile_append]

end IsPlace

theorem WellNested.guard {condition : Condition} {line : Line} {inner out : List Line}
    (hline : line.role = .content) (hdeep : ∀ l ∈ inner, l.isDeeper line.indent = true)
    (hinner : WellNested inner) (hout : WellNested out) :
    WellNested (condition.guard line.leading (line :: inner) ++ out) := by
  have hs : ∀ c ∈ line.leading, isIndentation c = true := fun _ =>
    Line.isIndentation_of_mem_leading
  have hinside : ∀ l ∈ line :: inner, l.isBlank = false →
      Line.indent (line.leading ++ condition.opening) ≤ l.indent := by
    intro l hl _
    rw [(line.isGuardLine_opening condition).indent]
    rcases List.mem_cons.1 hl with rfl | hl
    · exact Nat.le_refl _
    · exact (Line.isDeeper_iff.1 (hdeep l hl)).2.le
  have hleading : Line.leading (line.leading ++ Directive.close.render) =
      Line.leading (line.leading ++ condition.opening) :=
    (Line.leading_directive hs _).trans (Line.leading_directive hs _).symm
  rw [Condition.guard, List.cons_append, List.append_assoc]
  exact .guarded (.inl (Line.role_ifThen hs _)) (Line.role_close hs) hleading hinside
    (.content hline hinner) hout

namespace WithGuards

variable {kinds : Set ItemGuard} {ls out above below : List Line} {opening : Line}
  {condition : Condition}

/-- The marks are all that is inserted. -/
theorem withoutMarks_eq (h : WithGuards kinds ls out)
    (hkinds : ∀ itemGuard ∈ kinds, itemGuard ∈ itemGuards)
    (hls : ∀ l ∈ ls, l.isGuardMark = false) : withoutMarks out = ls := by
  induction h with
  | nil => rfl
  | line _ _ _ ih =>
      rw [List.forall_mem_cons] at hls
      rw [withoutMarks_cons hls.1, ih hkinds hls.2]
  | path hpath _ ih =>
      rw [List.forall_mem_cons] at hls
      rw [withoutMarks_append, withoutMarks_guard
        (CertificateGuard.exists_of_pathCondition? hpath).1 hls.1, ih hkinds hls.2]
      rfl
  | item hkind _ _ _ _ _ ihbody ihbehind =>
      rw [List.forall_mem_cons, List.forall_mem_append] at hls
      rw [withoutMarks_append, withoutMarks_guard (ItemGuard.condition_mem (hkinds _ hkind)) hls.1,
        ihbody (fun other hother => hkinds other hother.1) hls.2.1, ihbehind hkinds hls.2.2,
        List.cons_append]

/-- What stands behind the opening of a guard, and all that stands before it, was there before. -/
theorem eq_of_opening {x line : Line} {rest : List Line}
    (h : WithGuards kinds ls (above ++ x :: line :: rest))
    (hkinds : ∀ itemGuard ∈ kinds, itemGuard ∈ itemGuards)
    (hls : ∀ l ∈ ls, l.isGuardMark = false) (hx : x.isGuardMark = true)
    (hline : line.isGuardMark = false) : ls = withoutMarks above ++ line :: withoutMarks rest := by
  rw [← h.withoutMarks_eq hkinds hls, withoutMarks_append, withoutMarks_cons_of_mark hx,
    withoutMarks_cons hline]

/-- Every line is found again, in its guard if it asks for one. -/
theorem exists_place (h : WithGuards kinds ls out)
    (hkinds : ∀ itemGuard ∈ kinds, itemGuard ∈ itemGuards)
    (hls : ∀ l ∈ ls, l.isGuardMark = false) : ∀ before line after, ls = before ++ line :: after →
      ∃ above below, out = above ++ line :: below ∧
        IsPlace kinds before line after above below := by
  induction h with
  | nil => simp
  | @line kinds first rest out hpath htarget hrest ih =>
      rw [List.forall_mem_cons] at hls
      intro before line after heq
      cases before with
      | nil =>
          obtain ⟨rfl, rfl⟩ := List.cons.inj heq
          exact ⟨[], out, rfl, .ofPlain hpath htarget (hrest.withoutMarks_eq hkinds hls.2)⟩
      | cons other before =>
          obtain ⟨rfl, rfl⟩ := List.cons.inj heq
          obtain ⟨above, below, rfl, hplace⟩ := ih hkinds hls.2 before line after rfl
          exact ⟨first :: above, below, rfl,
            hplace.prepend [first] (withoutMarks_cons hls.1 [])⟩
  | @path kinds condition first rest out hpath hrest ih =>
      rw [List.forall_mem_cons] at hls
      have hcondition := (CertificateGuard.exists_of_pathCondition? hpath).1
      intro before line after heq
      cases before with
      | nil =>
          obtain ⟨rfl, rfl⟩ := List.cons.inj heq
          exact ⟨_, _, condition.guard_cons_append first.leading first [] out,
            .ofPath hkinds hpath (hrest.withoutMarks_eq hkinds hls.2)⟩
      | cons other before =>
          obtain ⟨rfl, rfl⟩ := List.cons.inj heq
          obtain ⟨above, below, rfl, hplace⟩ := ih hkinds hls.2 before line after rfl
          exact ⟨condition.guard first.leading [first] ++ above, below,
            (List.append_assoc _ _ _).symm,
            hplace.prepend [first] (withoutMarks_guard hcondition hls.1 [])⟩
  | @item kinds itemGuard dash body behind inner out hkind htarget hdeep hstops hbody hbehind ihbody
      ihbehind =>
      rw [List.forall_mem_cons, List.forall_mem_append] at hls
      have hcondition := ItemGuard.condition_mem (hkinds itemGuard hkind)
      have hfewer : ∀ other ∈ kinds \ {itemGuard}, other ∈ itemGuards := fun other hother =>
        hkinds other hother.1
      have hinner := hbody.withoutMarks_eq hfewer hls.2.1
      have hout := hbehind.withoutMarks_eq hkinds hls.2.2
      intro before line after heq
      cases before with
      | nil =>
          obtain ⟨rfl, rfl⟩ := List.cons.inj heq
          exact ⟨_, _, itemGuard.condition.guard_cons_append dash.leading dash inner out,
            .ofDash hkinds hkind htarget hdeep hstops hinner hout⟩
      | cons other before =>
          obtain ⟨rfl, hsplit⟩ := List.cons.inj heq
          rcases cases_of_append_eq hsplit with ⟨r, rfl, rfl⟩ | ⟨s, rfl, rfl⟩
          · obtain ⟨above, below, rfl, hplace⟩ := ihbody hfewer hls.2.1 before line r rfl
            exact ⟨_, _, by simp [Condition.guard],
              hplace.inside hcondition htarget hdeep hstops hout⟩
          · obtain ⟨above, below, rfl, hplace⟩ := ihbehind hkinds hls.2.2 s line after rfl
            refine ⟨itemGuard.condition.guard dash.leading (dash :: inner) ++ above, below,
              (List.append_assoc _ _ _).symm, hplace.prepend (dash :: body) ?_⟩
            rw [withoutMarks_guard hcondition hls.1, hinner]

theorem cases_of_guard_eq {line x : Line} {inner : List Line} (hitem : line.isItem = true)
    (hopens : x.opensCertificate = true)
    (h : condition.guard line.leading (line :: inner) ++ out = above ++ x :: below) :
    (above = [] ∧ x = line.leading ++ condition.opening ∧
        below = line :: (inner ++ (line.leading ++ Directive.close.render) :: out)) ∨
      (∃ u v, inner = u ++ x :: v ∧ above = (line.leading ++ condition.opening) :: line :: u ∧
        below = v ++ (line.leading ++ Directive.close.render) :: out) ∨
      ∃ u, out = u ++ x :: below ∧
        above = condition.guard line.leading (line :: inner) ++ u := by
  rw [Condition.guard_cons_append] at h
  rcases above with - | ⟨first, - | ⟨second, u⟩⟩
  · obtain ⟨rfl, rfl⟩ := List.cons.inj h
    exact .inl ⟨rfl, rfl, rfl⟩
  · simp only [List.cons_append, List.nil_append, List.cons.injEq] at h
    obtain ⟨-, rfl, -⟩ := h
    rw [Line.not_opensCertificate_of_isItem hitem] at hopens
    cases hopens
  · simp only [List.cons_append, List.cons.injEq] at h
    obtain ⟨rfl, rfl, h⟩ := h
    rcases cases_of_append_eq h with ⟨v, rfl, rfl⟩ | ⟨s, rfl, hs⟩
    · exact .inr (.inl ⟨u, v, rfl, rfl, rfl⟩)
    · cases s with
      | nil =>
          obtain ⟨rfl, -⟩ := List.cons.inj hs
          rw [Line.not_opensCertificate_close] at hopens
          cases hopens
      | cons close s =>
          obtain ⟨rfl, rfl⟩ := List.cons.inj hs
          exact .inr (.inr ⟨s, rfl, (condition.guard_cons_append line.leading line inner s).symm⟩)

/-- No guard is put around anything that does not ask for it. -/
theorem isFor_of_opening (h : WithGuards kinds ls out)
    (hkinds : ∀ itemGuard ∈ kinds, itemGuard ∈ itemGuards)
    (hls : ∀ l ∈ ls, l.isGuardMark = false) (hcondition : condition ∈ certificateConditions) :
    ∀ above opening below, out = above ++ opening :: below →
      condition.isOpenedBy (some opening) = true → ∃ line rest, below = line :: rest ∧
        condition.IsFor kinds (withoutMarks above) line (withoutMarks rest) := by
  have hmark : ∀ {l : Line}, condition.isOpenedBy (some l) = true →
      l.opensCertificate = true ∧ l.isGuardMark = true := fun hopened =>
    have hopens := Line.opensCertificate_of_isOpenedBy hcondition hopened
    ⟨hopens, Line.isGuardMark_iff.2 (.inl hopens)⟩
  induction h with
  | nil => simp
  | @line kinds first rest out hpath htarget hrest ih =>
      rw [List.forall_mem_cons] at hls
      intro above opening below heq hopened
      cases above with
      | nil =>
          obtain ⟨rfl, rfl⟩ := List.cons.inj heq
          rw [(hmark hopened).2] at hls
          cases hls.1
      | cons other above =>
          rw [List.cons_append] at heq
          obtain ⟨rfl, rfl⟩ := List.cons.inj heq
          obtain ⟨line, after, rfl, hfor⟩ := ih hkinds hls.2 above opening below rfl hopened
          obtain rfl := hrest.eq_of_opening hkinds hls.2 (hmark hopened).2
            (Line.not_isGuardMark_of_isItem hfor.isItem)
          rw [withoutMarks_cons hls.1]
          exact ⟨line, after, rfl, hfor.cons htarget⟩
  | @path kinds other first rest out hpath hrest ih =>
      rw [List.forall_mem_cons] at hls
      have hother := (CertificateGuard.exists_of_pathCondition? hpath).1
      have hitem := CertificateGuard.isItem_of_pathCondition? hpath
      intro above opening below heq hopened
      rcases cases_of_guard_eq hitem (hmark hopened).1 heq with
        ⟨rfl, rfl, rfl⟩ | ⟨u, v, hnil, -⟩ | ⟨u, rfl, rfl⟩
      · rw [← Line.eq_of_isOpenedBy hopened, CertificateGuard.pathCondition?_eq_some_iff] at hpath
        exact ⟨first, _, rfl, .inl hpath⟩
      · simp at hnil
      · obtain ⟨line, after, rfl, hfor⟩ := ih hkinds hls.2 u opening below rfl hopened
        rw [withoutMarks_append, withoutMarks_guard hother hls.1]
        exact ⟨line, after, rfl, hfor.cons fun itemGuard hkind =>
          ItemGuard.not_isTarget_of_path (hkinds itemGuard hkind) hpath _⟩
  | @item kinds itemGuard dash body behind inner out hkind htarget hdeep hstops hbody hbehind ihbody
      ihbehind =>
      rw [List.forall_mem_cons, List.forall_mem_append] at hls
      have hother := ItemGuard.condition_mem (hkinds itemGuard hkind)
      have hfewer : ∀ other ∈ kinds \ {itemGuard}, other ∈ itemGuards := fun other hmem =>
        hkinds other hmem.1
      have hinner := hbody.withoutMarks_eq hfewer hls.2.1
      have hout := hbehind.withoutMarks_eq hkinds hls.2.2
      intro above opening below heq hopened
      rcases cases_of_guard_eq (ItemGuard.isTarget_iff.1 htarget).1 (hmark hopened).1 heq with
        ⟨rfl, rfl, rfl⟩ | ⟨u, v, rfl, rfl, rfl⟩ | ⟨u, rfl, rfl⟩
      · refine ⟨dash, _, rfl, .inr ⟨itemGuard, hkind, (Line.eq_of_isOpenedBy hopened).symm, ?_,
          fun front first between hnil => absurd hnil (by simp [withoutMarks])⟩⟩
        rw [withoutMarks_append, withoutMarks_cons_of_mark (isGuardMark_close dash), hinner, hout,
          ItemGuard.isTarget_append hstops, htarget]
      · obtain ⟨line, after, rfl, hfor⟩ := ihbody hfewer hls.2.1 u opening v rfl hopened
        obtain rfl := hbody.eq_of_opening hfewer hls.2.1 (hmark hopened).2
          (Line.not_isGuardMark_of_isItem hfor.isItem)
        refine ⟨line, after ++ (dash.leading ++ Directive.close.render) :: out, rfl, ?_⟩
        rw [withoutMarks_cons_of_mark (isGuardMark_opening hother dash), withoutMarks_cons hls.1,
          withoutMarks_append, withoutMarks_cons_of_mark (isGuardMark_close dash), hout]
        exact hfor.inside hkinds hkind htarget hdeep hstops
      · obtain ⟨line, after, rfl, hfor⟩ := ihbehind hkinds hls.2.2 u opening below rfl hopened
        obtain rfl := hbehind.eq_of_opening hkinds hls.2.2 (hmark hopened).2
          (Line.not_isGuardMark_of_isItem hfor.isItem)
        rw [withoutMarks_append, withoutMarks_guard hother hls.1, hinner]
        exact ⟨line, after, rfl, hfor.behindItem hdeep hstops⟩

theorem wellNested (h : WithGuards kinds ls out) (hls : ∀ l ∈ ls, l.role = .content) :
    WellNested out := by
  induction h with
  | nil => exact .nil
  | line _ _ _ ih =>
      rw [List.forall_mem_cons] at hls
      exact .content hls.1 (ih hls.2)
  | path _ _ ih =>
      rw [List.forall_mem_cons] at hls
      exact .guard hls.1 (by simp) .nil (ih hls.2)
  | item _ _ hdeep _ hbody _ ihbody ihbehind =>
      rw [List.forall_mem_cons, List.forall_mem_append] at hls
      exact .guard hls.1 (hbody.decorated.isDeeper hdeep) (ihbody hls.2.1) (ihbehind hls.2.2)

end WithGuards

/-! ## The passes -/

theorem ItemGuard.areLines_foldl_apply {ls : List Line} (hls : AreLines ls)
    (todo : List ItemGuard) :
    AreLines (todo.foldl (fun ls itemGuard => itemGuard.apply ls) ls) := by
  induction todo generalizing ls with
  | nil => exact hls
  | cons itemGuard todo ih => exact ih (itemGuard.areLines_apply hls)

namespace Pass

theorem runAll_itemPasses (context : PassContext) {ls : List Line} (hls : AreLines ls)
    (todo : List (String × ItemGuard)) :
    runAll context (todo.map fun itemPass => .ofLines itemPass.1 itemPass.2.apply)
        (Text.ofLines ls) = .ok (Text.ofLines
          ((todo.map Prod.snd).foldl (fun ls itemGuard => itemGuard.apply ls) ls)) := by
  induction todo generalizing ls with
  | nil => rfl
  | cons itemPass todo ih =>
      rw [List.map_cons, Templater.runAll_ofLines hls, ih (itemPass.2.areLines_apply hls)]
      rfl

/-- On a text without directives, the passes that guard what depends on certificates insert the
lines of well nested guards only. Each line is found again: the path of a certificate alone in its
guard, and an item that lies in no other item of its kind in the guard of its kind, from its dash
line to the last of the deeper lines behind it. Every guard is one of these. -/
theorem certificates_guarded (context : PassContext) {t : Text}
    (hplain : ¬ "\x7b\x7b".toList <:+: t) :
    ∃ out, runAll context certificatePasses t = .ok out ∧
      withoutMarks out.lines = t.lines ∧ WellNested out.lines ∧
      (∀ before line after, t.lines = before ++ line :: after →
        ∃ above below, out.lines = above ++ line :: below ∧
          IsPlace {itemGuard | itemGuard ∈ itemGuards} before line after above below) ∧
      ∀ above opening below condition, out.lines = above ++ opening :: below →
        condition ∈ certificateConditions → opening.trimmed = condition.opening →
          ∃ line rest, below = line :: rest ∧
            condition.IsFor {itemGuard | itemGuard ∈ itemGuards} (withoutMarks above) line
              (withoutMarks rest) := by
  have hlines : ∀ l ∈ t.lines, l.IsPlain := fun l hl => isPlain_of_mem_lines hplain hl
  have hmarks : ∀ l ∈ t.lines, l.isGuardMark = false := fun l hl =>
    Line.not_isGuardMark_of_role (hlines l hl).role_eq
  have hkinds : ∀ itemGuard ∈ {itemGuard | itemGuard ∈ itemGuards}, itemGuard ∈ itemGuards :=
    fun _ => id
  have hguards := WithGuards.guardAll fun l hl => (hlines l hl).not_opensCertificate
  have hpaths := CertificateGuard.areLines_guardPaths (areLines_lines t)
  have hrun : runAll context certificatePasses t = .ok (Text.ofLines
      (itemGuards.foldl (fun ls itemGuard => itemGuard.apply ls)
        (CertificateGuard.guardPaths none t.lines))) := by
    rw [certificatePasses, certificatePaths, ofLines, Templater.runAll_ofText, overLines,
      runAll_itemPasses context hpaths itemPasses, map_itemPasses]
  refine ⟨_, hrun, ?_⟩
  rw [lines_ofLines (ItemGuard.areLines_foldl_apply hpaths itemGuards)]
  refine ⟨hguards.withoutMarks_eq hkinds hmarks,
    hguards.wellNested fun l hl => (hlines l hl).role_eq, hguards.exists_place hkinds hmarks,
    fun above opening below condition heq hcondition hopens => ?_⟩
  exact hguards.isFor_of_opening hkinds hmarks hcondition above opening below heq
    (Condition.isOpenedBy_some.2 hopens)

/-- A path, a mount, and a volume with another one of its kind inside. -/
theorem certificates_guarded_nested :
    let context : PassContext := ⟨⟨"Deployment".toList, [], [], []⟩, "demo".toList⟩
    let t := Text.ofLines (["- args:", "  - --webhook-cert-path=/tmp/x", "  volumeMounts:",
      "  - mountPath: /tmp/k8s-metrics-server/metrics-certs", "    readOnly: true", "volumes:",
      "- name: webhook-certs", "  items:", "  - name: webhook-certs",
      "    secretName: webhook-server-cert", ""].map String.toList)
    ¬ "\x7b\x7b".toList <:+: t ∧ ∃ out, runAll context certificatePasses t = .ok out ∧
      withoutMarks out.lines = t.lines ∧ WellNested out.lines ∧
      (∀ before line after, t.lines = before ++ line :: after →
        ∃ above below, out.lines = above ++ line :: below ∧
          IsPlace {itemGuard | itemGuard ∈ itemGuards} before line after above below) ∧
      ∀ above opening below condition, out.lines = above ++ opening :: below →
        condition ∈ certificateConditions → opening.trimmed = condition.opening →
          ∃ line rest, below = line :: rest ∧
            condition.IsFor {itemGuard | itemGuard ∈ itemGuards} (withoutMarks above) line
              (withoutMarks rest) := by
  intro context t
  have hplain : ¬ "\x7b\x7b".toList <:+: t := hasInfix_eq_false_iff.1 (by decide +kernel)
  exact ⟨hplain, certificates_guarded context hplain⟩

/-- The inner volume has no guard of its own. -/
example : runAll ⟨⟨"Deployment".toList, [], [], []⟩, "demo".toList⟩ certificatePasses
      (Text.ofLines (["- name: webhook-certs", "  items:", "  - name: webhook-certs",
        "    secretName: webhook-server-cert", ""].map String.toList)) =
    .ok (Text.ofLines (["\x7b\x7b- if .Values.certManager.enable \x7d\x7d",
      "- name: webhook-certs", "  items:", "  - name: webhook-certs",
      "    secretName: webhook-server-cert", "\x7b\x7b- end \x7d\x7d", ""].map
        String.toList)) := by
  decide +kernel

end Pass

end OperatorChart
