import OperatorChart.Proofs.Decorations
import OperatorChart.Proofs.WrapStability
/-!
# Guards that are put twice

A pass that puts guards looks at the line above before it puts one. Main statements: the passes over
the paths of certificates and over injection annotations do nothing to their own output, whatever
the text holds. A pass over items does nothing to its own output exactly when no item that gets a
guard holds another one that asks for it, and none ends in an opening that the next item relies on.
-/

namespace OperatorChart

open Text

namespace ItemGuard

/-- Whether a second run of a pass over items finds nothing new behind the dash line of an item that
got a guard: no line of the item asks for a guard, and when the last line of the item opens the
guard, no item stands right behind it that counts on this opening. -/
structure LeavesNothing (itemGuard : ItemGuard) (dash : Line) (rest : List Line) : Prop where
  inside : ∀ front line back, itemBody dash rest = front ++ line :: back →
    itemGuard.targets (dash :: front).getLast? line back = false
  behind : itemGuard.condition.isOpenedBy (dash :: itemBody dash rest).getLast? = true →
    ∀ line after, rest.dropWhile (BlockStyle.item.continues dash.indent) = line :: after →
      itemGuard.isTarget line after = false

/-- Whether every item that asks for a guard leaves nothing to a second run. -/
def IsDoneAtOnce (itemGuard : ItemGuard) (ls : List Line) : Prop :=
  ∀ before dash rest, ls = before ++ dash :: rest →
    itemGuard.targets before.getLast? dash rest = true → itemGuard.LeavesNothing dash rest

/-- As `IsDoneAtOnce`, given the line above the document. -/
def IsDoneBelow (itemGuard : ItemGuard) (previous : Option Line) (ls : List Line) : Prop :=
  ∀ before dash rest, ls = before ++ dash :: rest →
    itemGuard.targets (before.getLast?.or previous) dash rest = true →
      itemGuard.LeavesNothing dash rest

variable {itemGuard : ItemGuard} {previous : Option Line} {ls body behind : List Line}
  {line dash : Line} {width : Nat}

theorem isDoneBelow_cons : itemGuard.IsDoneBelow previous (line :: ls) ↔
    (itemGuard.targets previous line ls = true → itemGuard.LeavesNothing line ls) ∧
      itemGuard.IsDoneBelow (some line) ls :=
  @forall_split_cons (fun previous line after =>
    itemGuard.targets previous line after = true → itemGuard.LeavesNothing line after) _ _ _

theorem isDoneAtOnce_iff : itemGuard.IsDoneAtOnce ls ↔ itemGuard.IsDoneBelow none ls := by
  simp only [IsDoneBelow, Option.or_none]
  rfl

/-! ## Blocks -/

theorem isDoneBelow_append (hstops : Stops width behind)
    (hdeep : ∀ l ∈ body, l.isDeeper width = true)
    (hnone : ∀ front line back, body = front ++ line :: back →
      itemGuard.targets (front.getLast?.or previous) line back = false) :
    itemGuard.IsDoneBelow previous (body ++ behind) ↔
      itemGuard.IsDoneBelow (body.getLast?.or previous) behind := by
  induction body generalizing previous with
  | nil => rfl
  | cons line rest ih =>
      rw [List.forall_mem_cons] at hdeep
      have hline : itemGuard.targets previous line (rest ++ behind) = false := by
        rw [targets_append (hstops.mono (Line.isDeeper_iff.1 hdeep.1).2.le)]
        exact hnone [] line rest rfl
      have hrest := @ih (some line) hdeep.2 fun front l back heq => by
        rw [← getLast?_cons_or]
        exact hnone (line :: front) l back (by rw [heq]; rfl)
      rw [List.cons_append, isDoneBelow_cons, hrest, hline, getLast?_cons_or]
      simp

theorem ledBelow_append_iff (hstops : Stops width behind)
    (hdeep : ∀ l ∈ body, l.isDeeper width = true) :
    LedBelow itemGuard.wants previous (body ++ behind) ↔
      LedBelow itemGuard.wants previous body ∧
        LedBelow itemGuard.wants (body.getLast?.or previous) behind := by
  induction body generalizing previous with
  | nil => exact (iff_of_eq (true_and _)).symm
  | cons line rest ih =>
      rw [List.forall_mem_cons] at hdeep
      have hline : itemGuard.wants line (rest ++ behind) = itemGuard.wants line rest := by
        rw [wants, wants, isTarget_append (hstops.mono (Line.isDeeper_iff.1 hdeep.1).2.le)]
      rw [List.cons_append, LedBelow, LedBelow, ih hdeep.2, hline, getLast?_cons_or, and_assoc]

theorem not_targets_iff : itemGuard.targets previous line ls = false ↔
    ∀ condition, itemGuard.wants line ls = some condition →
      condition.isOpenedBy previous = true := by
  rw [targets_eq, Bool.and_eq_false_iff, Bool.not_eq_false', ← wants_eq_none]
  constructor
  · rintro (hnone | hopened) condition hwants
    · rw [hnone] at hwants
      cases hwants
    · obtain ⟨-, rfl⟩ := wants_eq_some.1 hwants
      exact hopened
  · intro h
    cases hwants : itemGuard.wants line ls with
    | none => exact .inl rfl
    | some condition =>
        obtain ⟨-, rfl⟩ := wants_eq_some.1 hwants
        exact .inr (h _ hwants)

theorem ledBelow_body_iff : LedBelow itemGuard.wants (some dash) body ↔
    ∀ front line back, body = front ++ line :: back →
      itemGuard.targets (dash :: front).getLast? line back = false := by
  simp only [ledBelow_iff, not_targets_iff, getLast?_cons_eq_or]
  exact ⟨fun h front line back heq condition => h front line back condition heq,
    fun h front line back condition heq => h front line back heq condition⟩

/-! ## The output -/

/-- A pass that changes nothing finds every item with its opening. -/
theorem guardItems_eq_self_iff :
    itemGuard.guardItems previous 0 ls = ls ↔ LedBelow itemGuard.wants previous ls := by
  refine ⟨fun h => ?_, guardItems_of_led⟩
  have hlength := itemGuard.guardItems_induction (motive := fun previous ls out =>
    ls.length ≤ out.length ∧ (out.length = ls.length → LedBelow itemGuard.wants previous ls))
    (fun _ => ⟨Nat.le_refl _, fun _ => trivial⟩) ?_ ?_ previous ls
  · exact hlength.2 (congrArg List.length h)
  · intro previous line rest out _ ih
    have hparts : (itemBody line rest).length +
        (rest.dropWhile (BlockStyle.item.continues line.indent)).length = rest.length := by
      rw [itemBody, BlockStyle.body, ← List.length_append, List.takeWhile_append_dropWhile]
    simp only [Condition.guard, List.length_append, List.length_cons, List.length_nil]
    omega
  · intro previous line rest out htargets ih
    simp only [List.length_cons, Nat.add_le_add_iff_right, Nat.add_right_cancel_iff]
    exact ⟨ih.1, fun hlength => ⟨not_targets_iff.1 htargets, ih.2 hlength⟩⟩

theorem ledBelow_guard_iff (hguard : itemGuard ∈ itemGuards)
    (hdeep : ∀ l ∈ body, l.isDeeper line.indent = true) :
    LedBelow itemGuard.wants previous
        (itemGuard.condition.guard line.leading (line :: body) ++ behind) ↔
      LedBelow itemGuard.wants (some line) body ∧
        LedBelow itemGuard.wants (some (line.leading ++ Directive.close.render)) behind := by
  have hopening := line.isGuardLine_opening itemGuard.condition
  have hclosing := line.isGuardLine_close
  have hnone : ∀ {l : Line} {width : Nat}, l.IsGuardLine width → ∀ tail condition,
      itemGuard.wants l tail ≠ some condition := by
    intro l width hl tail condition hwants
    have htarget := (wants_eq_some.1 hwants).1
    rw [not_isTarget_of_isInert hguard hl.isInert] at htarget
    cases htarget
  have hline : ∀ tail condition, itemGuard.wants line tail = some condition →
      condition.isOpenedBy (some (line.leading ++ itemGuard.condition.opening)) = true := by
    intro tail condition hwants
    obtain ⟨-, rfl⟩ := wants_eq_some.1 hwants
    exact line.isOpenedBy_opening itemGuard.condition
  rw [Condition.guard_cons_append, LedBelow, LedBelow,
    ledBelow_append_iff (hclosing.stops behind) hdeep, LedBelow]
  refine ⟨fun h => ⟨h.2.2.1, h.2.2.2.2⟩, fun h => ⟨?_, hline _, h.1, ?_, h.2⟩⟩
  · exact fun condition hwants => absurd hwants (hnone hopening _ condition)
  · exact fun condition hwants => absurd hwants (hnone hclosing _ condition)

/-- Nothing is left when the items inside have their openings, and the closing of the guard takes
none from an item behind. -/
theorem leavesNothing_iff (hguard : itemGuard ∈ itemGuards) : itemGuard.LeavesNothing line ls ↔
    LedBelow itemGuard.wants (some line) (itemBody line ls) ∧
      ∀ l after, ls.dropWhile (BlockStyle.item.continues line.indent) = l :: after →
        itemGuard.isTarget l after = true →
          itemGuard.condition.isOpenedBy (line :: itemBody line ls).getLast? = true →
            itemGuard.condition.isOpenedBy
              (some (line.leading ++ Directive.close.render)) = true := by
  have hclose : itemGuard.condition.isOpenedBy
      (some (line.leading ++ Directive.close.render)) = false := by
    refine Condition.not_isOpenedBy (condition_mem hguard) ?_
    rintro l ⟨⟩
    exact line.not_opensCertificate_close
  rw [ledBelow_body_iff]
  constructor
  · refine fun h => ⟨h.inside, fun l after heq htarget hopened => ?_⟩
    rw [h.behind hopened l after heq] at htarget
    cases htarget
  · rintro ⟨hinside, hbehind⟩
    refine ⟨hinside, fun hopened l after heq => ?_⟩
    rw [← Bool.not_eq_true]
    intro htarget
    have hfalse := hbehind l after heq htarget hopened
    rw [hclose] at hfalse
    cases hfalse

/-- Behind an item that leaves nothing, it does not matter whether the lines of the item are passed
over. -/
theorem LeavesNothing.isDoneBelow_iff (h : itemGuard.LeavesNothing line ls) :
    itemGuard.IsDoneBelow (some line) ls ↔
      itemGuard.IsDoneBelow (line :: itemBody line ls).getLast?
        (ls.dropWhile (BlockStyle.item.continues line.indent)) := by
  have hstops : Stops line.indent (ls.dropWhile (BlockStyle.item.continues line.indent)) := by
    rw [continues_item]
    exact stops_dropWhile line.indent ls
  conv_lhs => rw [← itemBody_append line ls]
  rw [getLast?_cons_eq_or]
  refine isDoneBelow_append hstops isDeeper_itemBody fun front l back heq => ?_
  rw [← getLast?_cons_eq_or]
  exact h.inside front l back heq

/-- Every item in the output has its opening exactly when the items that got a guard left nothing,
and the line above the document opens what the first line counts on. -/
theorem ledBelow_guardItems_iff (hguard : itemGuard ∈ itemGuards) (previous : Option Line)
    (ls : List Line) : ∀ previous',
      LedBelow itemGuard.wants previous' (itemGuard.guardItems previous 0 ls) ↔
        itemGuard.IsDoneBelow previous ls ∧ ∀ line rest, ls = line :: rest →
          itemGuard.isTarget line rest = true →
            itemGuard.condition.isOpenedBy previous = true →
              itemGuard.condition.isOpenedBy previous' = true := by
  refine (itemGuard.guardItems_induction (motive := fun previous ls out => Decorated ls out ∧
    ∀ previous', LedBelow itemGuard.wants previous' out ↔
      itemGuard.IsDoneBelow previous ls ∧ ∀ line rest, ls = line :: rest →
        itemGuard.isTarget line rest = true → itemGuard.condition.isOpenedBy previous = true →
          itemGuard.condition.isOpenedBy previous' = true)
    (fun _ => ⟨.nil, fun _ => by simp [LedBelow, IsDoneBelow]⟩) ?_ ?_ previous ls).2
  · rintro previous line rest out htargets ⟨hout, ih⟩
    refine ⟨decorated_guard htargets hout, fun previous' => ?_⟩
    rw [ledBelow_guard_iff hguard isDeeper_itemBody, ih, isDoneBelow_cons]
    constructor
    · rintro ⟨hinside, hdone, hbehind⟩
      have hleaves := (leavesNothing_iff hguard).2 ⟨hinside, hbehind⟩
      refine ⟨⟨fun _ => hleaves, hleaves.isDoneBelow_iff.2 hdone⟩, ?_⟩
      rintro l after heq htarget hopened
      obtain ⟨rfl, rfl⟩ := List.cons.inj heq
      rw [targets_eq, hopened, Bool.not_true, Bool.and_false] at htargets
      cases htargets
    · rintro ⟨⟨hleaves, hdone⟩, -⟩
      obtain ⟨hinside, hbehind⟩ := (leavesNothing_iff hguard).1 (hleaves htargets)
      exact ⟨hinside, (hleaves htargets).isDoneBelow_iff.1 hdone, hbehind⟩
  · rintro previous line rest out htargets ⟨hout, ih⟩
    refine ⟨.keep hout, fun previous' => ?_⟩
    have hwants : itemGuard.wants line out = itemGuard.wants line rest := by
      rw [wants, wants, hout.isTarget_eq hguard]
    rw [LedBelow, ih, isDoneBelow_cons, hwants, htargets]
    rw [not_targets_iff] at htargets
    constructor
    · rintro ⟨hline, hdone, -⟩
      refine ⟨⟨by simp, hdone⟩, fun l after heq htarget _ => ?_⟩
      obtain ⟨rfl, rfl⟩ := List.cons.inj heq
      exact hline _ (wants_eq_some.2 ⟨htarget, rfl⟩)
    · rintro ⟨⟨-, hdone⟩, hline⟩
      refine ⟨fun condition hcondition => ?_, hdone, fun _ _ _ _ => id⟩
      obtain ⟨htarget, rfl⟩ := wants_eq_some.1 hcondition
      exact hline line rest rfl htarget (htargets _ hcondition)

/-- A second run changes nothing exactly when every item was done at once. -/
theorem apply_apply_eq_iff (hguard : itemGuard ∈ itemGuards) (ls : List Line) :
    itemGuard.apply (itemGuard.apply ls) = itemGuard.apply ls ↔ itemGuard.IsDoneAtOnce ls := by
  rw [apply, apply, guardItems_eq_self_iff, ledBelow_guardItems_iff hguard, isDoneAtOnce_iff]
  refine and_iff_left_of_imp fun _ line rest _ _ hopened => ?_
  cases hopened

end ItemGuard

namespace Pass

/-- A pass over items finds its own output exactly when every item was done at once. The passes over
the paths of certificates and over injection annotations always find theirs. -/
theorem guards_found_iff (context : PassContext) (t : Text) :
    (∀ itemPass ∈ itemPasses, ∃ out,
      (ofLines itemPass.1 itemPass.2.apply).run context t = .ok out ∧
        ((ofLines itemPass.1 itemPass.2.apply).run context out = .ok out ↔
          itemPass.2.IsDoneAtOnce t.lines)) ∧
    (∃ out, certificatePaths.run context t = .ok out ∧
      certificatePaths.run context out = .ok out) ∧
    (t.overLines (Wrap.guardInjections none)).overLines (Wrap.guardInjections none) =
      t.overLines (Wrap.guardInjections none) := by
  refine ⟨fun itemPass hpass => ⟨_, rfl, ?_⟩, ⟨_, rfl, ?_⟩, ?_⟩
  · have hguard : itemPass.2 ∈ itemGuards := by
      rw [← map_itemPasses]
      exact List.mem_map_of_mem hpass
    have hlines := itemPass.2.areLines_apply (areLines_lines t)
    have hout := lines_overLines hlines
    have hagain := lines_overLines (t := t.overLines itemPass.2.apply)
      (f := itemPass.2.apply) (itemPass.2.areLines_apply (areLines_lines _))
    rw [← itemPass.2.apply_apply_eq_iff hguard, ← hout, ← hagain]
    exact ⟨fun h => congrArg lines (Except.ok.inj h),
      fun h => congrArg Except.ok (lines_injective h)⟩
  · have hlines := lines_overLines (CertificateGuard.areLines_guardPaths (areLines_lines t))
    refine congrArg Except.ok (overLines_eq_self ?_)
    rw [hlines]
    exact CertificateGuard.guardPaths_of_led (CertificateGuard.ledBelow_guardPaths _ fun _ => id)
  · have hlines := lines_overLines (Wrap.areLines_guardInjections (areLines_lines t))
    refine overLines_eq_self ?_
    rw [hlines]
    exact Wrap.guardInjections_eq_self (Wrap.allGuarded_guardInjections id)

/-- An item inside of a guarded one asks for a guard of its own in the second run. -/
theorem nested_item_guarded_twice :
    let context : PassContext := ⟨⟨"Deployment".toList, [], [], []⟩, "demo".toList⟩
    let t := Text.ofLines (["- name: webhook-certs", "  items:", "  - name: webhook-certs",
      "    secretName: webhook-server-cert", ""].map String.toList)
    let out := Text.ofLines (["\x7b\x7b- if .Values.certManager.enable \x7d\x7d",
      "- name: webhook-certs", "  items:", "  - name: webhook-certs",
      "    secretName: webhook-server-cert", "\x7b\x7b- end \x7d\x7d", ""].map String.toList)
    let again := Text.ofLines (["\x7b\x7b- if .Values.certManager.enable \x7d\x7d",
      "- name: webhook-certs", "  items:",
      "  \x7b\x7b- if .Values.certManager.enable \x7d\x7d", "  - name: webhook-certs",
      "    secretName: webhook-server-cert", "  \x7b\x7b- end \x7d\x7d",
      "\x7b\x7b- end \x7d\x7d", ""].map String.toList)
    (ofLines "webhook-volumes" ItemGuard.webhookVolume.apply).run context t = .ok out ∧
      (ofLines "webhook-volumes" ItemGuard.webhookVolume.apply).run context out = .ok again ∧
      again ≠ out := by
  intro context t out again
  exact ⟨by decide +kernel, by decide +kernel, by decide +kernel⟩

end Pass

end OperatorChart
