import OperatorChart.Proofs.CertificatePaths
/-!
# Guards around lines and items

Guards that are put around single lines, or around lines together with deeper ones, leave every
block of a document where it is. Main statements: an item behind which lines are guarded is one to
guard exactly when it was before, and a pass over items works on a block and on what stands behind
it separately.
-/

namespace OperatorChart

open Text

/-! ## Blocks in front of lines that end them -/

section Blocks

variable {width : Nat} {behind : List Line} {line : Line} {itemGuard : ItemGuard}

theorem Stops.takeWhile_append (h : Stops width behind) (ls : List Line) :
    (ls ++ behind).takeWhile (Line.isDeeper width) = ls.takeWhile (Line.isDeeper width) := by
  induction ls with
  | nil => exact h.takeWhile
  | cons line rest ih => rw [List.cons_append, List.takeWhile_cons, List.takeWhile_cons, ih]

theorem Stops.dropWhile_append (h : Stops width behind) (ls : List Line) :
    (ls ++ behind).dropWhile (Line.isDeeper width) =
      ls.dropWhile (Line.isDeeper width) ++ behind := by
  induction ls with
  | nil => exact h.dropWhile
  | cons line rest ih =>
      rw [List.cons_append, List.dropWhile_cons, List.dropWhile_cons, ih]
      split <;> rfl

theorem ItemGuard.isTarget_append (h : Stops line.indent behind) (ls : List Line) :
    itemGuard.isTarget line (ls ++ behind) = itemGuard.isTarget line ls := by
  rw [isTarget, isTarget, h.takeWhile_append]

theorem ItemGuard.targets_append (h : Stops line.indent behind) (previous : Option Line)
    (ls : List Line) :
    itemGuard.targets previous line (ls ++ behind) = itemGuard.targets previous line ls := by
  rw [targets_eq, targets_eq, isTarget_append h]

end Blocks

/-! ## Decorated lines -/

/-- Whether lines are others with guards around some of them, each alone or with deeper lines behind
it. -/
inductive Decorated : List Line → List Line → Prop
  | nil : Decorated [] []
  | keep {line : Line} {rest out : List Line} (hrest : Decorated rest out) :
      Decorated (line :: rest) (line :: out)
  | guard {condition : Condition} {line : Line} {body inner behind out : List Line}
      (hblank : line.isBlank = false) (hdeep : ∀ l ∈ body, l.isDeeper line.indent = true)
      (hbody : Decorated body inner) (hbehind : Decorated behind out) :
      Decorated (line :: (body ++ behind))
        (condition.guard line.leading (line :: inner) ++ out)

namespace Decorated

variable {ls out : List Line} {width : Nat}

theorem refl (ls : List Line) : Decorated ls ls := by
  induction ls with
  | nil => exact .nil
  | cons line rest ih => exact .keep ih

theorem isGuardLine_of_mem {condition : Condition} {line l : Line} {inner : List Line}
    (h : l ∈ condition.guard line.leading (line :: inner)) :
    l = line ∨ l ∈ inner ∨ l.IsGuardLine line.indent := by
  rw [Condition.guard, List.mem_cons, List.mem_append, List.mem_cons, List.mem_singleton] at h
  rcases h with rfl | (rfl | h) | rfl
  · exact .inr (.inr (line.isGuardLine_opening condition))
  · exact .inl rfl
  · exact .inr (.inl h)
  · exact .inr (.inr line.isGuardLine_close)

theorem isDeeper (h : Decorated ls out) (hls : ∀ l ∈ ls, l.isDeeper width = true) :
    ∀ l ∈ out, l.isDeeper width = true := by
  induction h with
  | nil => exact hls
  | keep _ ih =>
      rw [List.forall_mem_cons] at hls ⊢
      exact ⟨hls.1, ih hls.2⟩
  | @guard condition line body inner behind out hblank hdeep _ _ ihbody ihbehind =>
      rw [List.forall_mem_cons, List.forall_mem_append] at hls
      obtain ⟨hline, hbody, hbehind⟩ := hls
      intro l hl
      rcases List.mem_append.1 hl with hl | hl
      · rcases isGuardLine_of_mem hl with rfl | hl | hl
        · exact hline
        · exact ihbody hbody l hl
        · rw [Line.isDeeper_iff] at hline ⊢
          exact ⟨hl.blank, hl.indent.symm ▸ hline.2⟩
      · exact ihbehind hbehind l hl

theorem stops (h : Decorated ls out) (hls : Stops width ls) : Stops width out := by
  cases h with
  | nil => exact hls
  | keep _ => exact hls
  | @guard condition line body inner behind out hblank _ _ _ =>
      have hopening := line.isGuardLine_opening condition
      have hline : ¬ (line.isBlank = false ∧ width < line.indent) := by
        rw [← Line.isDeeper_iff, Bool.not_eq_true]
        exact stops_cons.1 hls
      refine stops_cons.2 ?_
      rw [← Bool.not_eq_true, Line.isDeeper_iff, hopening.indent]
      exact fun hdeeper => hline ⟨hblank, hdeeper.2⟩

theorem any_eq (h : Decorated ls out) {p : Line → Bool} (hp : ∀ l, l.IsInert → p l = false) :
    out.any p = ls.any p := by
  induction h with
  | nil => rfl
  | keep _ ih => rw [List.any_cons, List.any_cons, ih]
  | @guard condition line body inner behind out _ _ _ _ ihbody ihbehind =>
      have hopening := hp _ (line.isGuardLine_opening condition).isInert
      have hclosing := hp _ line.isGuardLine_close.isInert
      simp only [Condition.guard, List.any_append, List.any_cons, List.any_nil, hopening, hclosing,
        ihbody, ihbehind, Bool.false_or, Bool.or_false, Bool.or_assoc]

theorem takeWhile (h : Decorated ls out) (width : Nat) :
    Decorated (ls.takeWhile (Line.isDeeper width)) (out.takeWhile (Line.isDeeper width)) := by
  induction h with
  | nil => exact .nil
  | @keep line rest out _ ih =>
      by_cases hline : line.isDeeper width = true
      · rw [List.takeWhile_cons_of_pos hline, List.takeWhile_cons_of_pos hline]
        exact .keep ih
      · rw [List.takeWhile_cons_of_neg hline, List.takeWhile_cons_of_neg hline]
        exact .nil
  | @guard condition line body inner behind out hblank hdeep hbody hbehind _ ih =>
      by_cases hline : line.isDeeper width = true
      · have hwidth := (Line.isDeeper_iff.1 hline).2
        have hitem : ∀ l ∈ line :: body, l.isDeeper width = true :=
          List.forall_mem_cons.2 ⟨hline, fun l hl => Line.isDeeper_mono hwidth.le (hdeep l hl)⟩
        have hguard : ∀ l ∈ condition.guard line.leading (line :: inner),
            l.isDeeper width = true := by
          have hone : Decorated (line :: (body ++ []))
              (condition.guard line.leading (line :: inner) ++ []) :=
            .guard hblank hdeep hbody .nil
          rw [List.append_nil, List.append_nil] at hone
          exact hone.isDeeper hitem
        rw [← List.cons_append, List.takeWhile_append_of_pos hitem,
          List.takeWhile_append_of_pos hguard]
        exact .guard hblank hdeep hbody ih
      · have hopens : Stops width (condition.guard line.leading (line :: inner) ++ out) :=
          (Decorated.guard hblank hdeep hbody hbehind).stops
            (stops_cons.2 (by rwa [Bool.not_eq_true] at hline))
        rw [List.takeWhile_cons_of_neg hline, hopens.takeWhile]
        exact .nil

/-- Guards in the body of an item do not matter for whether it is one to guard. -/
theorem isTarget_eq {itemGuard : ItemGuard} (hguard : itemGuard ∈ itemGuards)
    (h : Decorated ls out) (line : Line) :
    itemGuard.isTarget line out = itemGuard.isTarget line ls := by
  rw [ItemGuard.isTarget, ItemGuard.isTarget,
    (h.takeWhile line.indent).any_eq fun l => ItemGuard.not_isBody hguard]

end Decorated

/-! ## The pass over items -/

namespace ItemGuard

variable {itemGuard : ItemGuard} {front behind : List Line} {width : Nat}

theorem itemBody_append (line : Line) (rest : List Line) :
    itemBody line rest ++ rest.dropWhile (BlockStyle.item.continues line.indent) = rest := by
  rw [itemBody, BlockStyle.body, List.takeWhile_append_dropWhile]

theorem isDeeper_itemBody {line : Line} {rest : List Line} :
    ∀ l ∈ itemBody line rest, l.isDeeper line.indent = true := by
  rw [itemBody, BlockStyle.body, continues_item]
  exact fun l hl => List.mem_takeWhile_imp hl

theorem decorated_guard {previous : Option Line} {line : Line} {rest out : List Line}
    (htargets : itemGuard.targets previous line rest = true)
    (h : Decorated (rest.dropWhile (BlockStyle.item.continues line.indent)) out) :
    Decorated (line :: rest)
      (itemGuard.condition.guard line.leading (line :: itemBody line rest) ++ out) := by
  nth_rewrite 1 [← itemBody_append line rest]
  exact .guard (Line.not_isBlank_of_isItem (isItem_of_targets htargets)) isDeeper_itemBody
    (.refl _) h

/-- The items of a block end in it. -/
theorem guardItems_append (hfront : ∀ l ∈ front, l.isDeeper width = true)
    (hstops : Stops width behind) (previous : Option Line) :
    itemGuard.guardItems previous 0 (front ++ behind) =
      itemGuard.guardItems previous 0 front ++
        itemGuard.guardItems (front.getLast?.or previous) 0 behind := by
  induction hn : front.length using Nat.strongRecOn generalizing front previous with
  | ind n ih =>
      cases front with
      | nil => rfl
      | cons line rest =>
          rw [List.forall_mem_cons] at hfront
          have hline : Stops line.indent behind :=
            hstops.mono (Line.isDeeper_iff.1 hfront.1).2.le
          have htargets : itemGuard.targets previous line (rest ++ behind) =
              itemGuard.targets previous line rest := targets_append hline previous rest
          rw [List.cons_append]
          cases hrest : itemGuard.targets previous line rest with
          | false =>
              rw [hrest] at htargets
              rw [guardItems, guardItems, if_neg (by simp [htargets]), if_neg (by simp [hrest]),
                ih rest.length (by rw [← hn, List.length_cons]; omega) hfront.2 (some line) rfl,
                getLast?_cons_or, List.cons_append]
          | true =>
              rw [hrest] at htargets
              have hbody : itemBody line (rest ++ behind) = itemBody line rest := by
                simp only [itemBody, BlockStyle.body, continues_item, hline.takeWhile_append]
              have hparts : itemBody line rest ++ rest.dropWhile (Line.isDeeper line.indent) =
                  rest := by
                rw [← continues_item]
                exact itemBody_append line rest
              have hlast : (line :: rest).getLast?.or previous =
                  (rest.dropWhile (Line.isDeeper line.indent)).getLast?.or
                    (line :: itemBody line rest).getLast? := by
                nth_rewrite 1 [← hparts]
                rw [← List.cons_append, List.getLast?_append, Option.or_assoc, List.getLast?_cons,
                  Option.some_or]
              rw [guardItems_of_targets htargets, guardItems_of_targets hrest, hbody,
                continues_item, hline.dropWhile_append, hlast, List.append_assoc]
              refine congrArg _ (ih _ ?_ (fun l hl => ?_) _ rfl)
              · have hle := (List.dropWhile_suffix (Line.isDeeper line.indent)
                  (l := rest)).length_le
                rw [List.length_cons] at hn
                omega
              · exact hfront.2 l ((List.dropWhile_suffix _).mem hl)

end ItemGuard

/-! ## The passes -/

namespace Pass

def itemPasses : List (String × ItemGuard) :=
  [("webhook-volume-mounts", .webhookVolumeMount), ("webhook-volumes", .webhookVolume),
   ("metrics-volume-mounts", .metricsVolumeMount), ("metrics-volumes", .metricsVolume)]

theorem map_itemPasses : itemPasses.map Prod.snd = itemGuards := rfl

def certificatePasses : List Pass :=
  certificatePaths :: itemPasses.map fun itemPass => .ofLines itemPass.1 itemPass.2.apply

theorem certificatePasses_infix_all : certificatePasses <:+: all :=
  ⟨all.take 12, all.drop 17, rfl⟩

end Pass

end OperatorChart
