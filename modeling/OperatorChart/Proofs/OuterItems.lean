import Mathlib.Order.BooleanAlgebra.Set
import OperatorChart.Proofs.Decorations
/-!
# The guards of certificates on a manifest

Each of the passes over items reads lines in which those before it have put guards. Main statement:
on lines without guards of certificates the passes put one around each path, and one around each
item of their kinds that lies in no other item of its kind, as if every pass had seen the lines as
they were.
-/

namespace OperatorChart

open Text

/-- Whether lines are others with a guard around each path of a certificate, and around each item of
some kinds that lies in no other item of its kind. -/
inductive WithGuards : Set ItemGuard → List Line → List Line → Prop
  | nil {kinds : Set ItemGuard} : WithGuards kinds [] []
  | line {kinds : Set ItemGuard} {line : Line} {rest out : List Line}
      (hpath : CertificateGuard.pathCondition? line = none)
      (htarget : ∀ itemGuard ∈ kinds, itemGuard.isTarget line rest = false)
      (hrest : WithGuards kinds rest out) : WithGuards kinds (line :: rest) (line :: out)
  | path {kinds : Set ItemGuard} {condition : Condition} {line : Line} {rest out : List Line}
      (hpath : CertificateGuard.pathCondition? line = some condition)
      (hrest : WithGuards kinds rest out) :
      WithGuards kinds (line :: rest) (condition.guard line.leading [line] ++ out)
  | item {kinds : Set ItemGuard} {itemGuard : ItemGuard} {line : Line}
      {body behind inner out : List Line} (hkind : itemGuard ∈ kinds)
      (htarget : itemGuard.isTarget line body = true)
      (hdeep : ∀ l ∈ body, l.isDeeper line.indent = true) (hstops : Stops line.indent behind)
      (hbody : WithGuards (kinds \ {itemGuard}) body inner)
      (hbehind : WithGuards kinds behind out) :
      WithGuards kinds (line :: (body ++ behind))
        (itemGuard.condition.guard line.leading (line :: inner) ++ out)

namespace WithGuards

variable {kinds : Set ItemGuard} {itemGuard : ItemGuard} {ls out front behind : List Line}
  {width : Nat}

theorem decorated (h : WithGuards kinds ls out) : Decorated ls out := by
  induction h with
  | nil => exact .nil
  | line _ _ _ ih => exact .keep ih
  | path hpath _ ih =>
      have hblank := Line.not_isBlank_of_isItem (CertificateGuard.isItem_of_pathCondition? hpath)
      exact @Decorated.guard _ _ [] [] _ _ hblank (by simp) .nil ih
  | item _ htarget hdeep _ _ _ ihbody ihbehind =>
      have hblank := Line.not_isBlank_of_isItem (ItemGuard.isTarget_iff.1 htarget).1
      exact .guard hblank hdeep ihbody ihbehind

theorem exists_of_append (h : WithGuards kinds (front ++ behind) out)
    (hfront : ∀ l ∈ front, l.isDeeper width = true) (hstops : Stops width behind) :
    ∃ inner rest, out = inner ++ rest ∧ WithGuards kinds front inner ∧
      WithGuards kinds behind rest := by
  generalize hls : front ++ behind = ls at h
  induction h generalizing front with
  | nil =>
      obtain ⟨rfl, rfl⟩ := List.append_eq_nil_iff.1 hls
      exact ⟨[], [], rfl, .nil, .nil⟩
  | @line kinds line rest out hpath htarget hrest ih =>
      cases front with
      | nil =>
          rw [List.nil_append] at hls
          subst hls
          exact ⟨[], _, rfl, .nil, .line hpath htarget hrest⟩
      | cons first front =>
          obtain ⟨rfl, rfl⟩ := List.cons.inj hls
          rw [List.forall_mem_cons] at hfront
          obtain ⟨inner, rest, rfl, hinner, hbehind⟩ := ih hfront.2 rfl
          have hline : Stops first.indent behind :=
            hstops.mono (Line.isDeeper_iff.1 hfront.1).2.le
          refine ⟨first :: inner, rest, rfl, .line hpath (fun itemGuard hkind => ?_) hinner,
            hbehind⟩
          rw [← ItemGuard.isTarget_append hline]
          exact htarget itemGuard hkind
  | @path kinds condition line rest out hpath hrest ih =>
      cases front with
      | nil =>
          rw [List.nil_append] at hls
          subst hls
          exact ⟨[], _, rfl, .nil, .path hpath hrest⟩
      | cons first front =>
          obtain ⟨rfl, rfl⟩ := List.cons.inj hls
          rw [List.forall_mem_cons] at hfront
          obtain ⟨inner, rest, rfl, hinner, hbehind⟩ := ih hfront.2 rfl
          exact ⟨_, rest, (List.append_assoc _ _ _).symm, .path hpath hinner, hbehind⟩
  | @item kinds itemGuard line body after inner out hkind htarget hdeep hends hbody hafter _ ih =>
      cases front with
      | nil =>
          rw [List.nil_append] at hls
          subst hls
          exact ⟨[], _, rfl, .nil, .item hkind htarget hdeep hends hbody hafter⟩
      | cons first front =>
          obtain ⟨rfl, happend⟩ := List.cons.inj hls
          rw [List.forall_mem_cons] at hfront
          -- the lines that end the block are not in the item, which is deeper
          have hline : Stops first.indent behind :=
            hstops.mono (Line.isDeeper_iff.1 hfront.1).2.le
          obtain ⟨s, rfl, rfl⟩ := exists_append_of_stops hdeep hline happend.symm
          obtain ⟨inner', rest, rfl, hinner, hbehind⟩ :=
            ih (fun l hl => hfront.2 l (List.mem_append_right body hl)) rfl
          have hshort : Stops first.indent s := by
            cases s with
            | nil => exact fun l hl => by cases hl
            | cons x s => exact stops_cons.2 (stops_cons.1 hends)
          exact ⟨_, rest, (List.append_assoc _ _ _).symm,
            .item hkind htarget hdeep hshort hbody hinner, hbehind⟩

theorem getLast?_guard (condition : Condition) (line : Line) (inner out : List Line)
    (previous : Option Line) : (condition.guard line.leading inner ++ out).getLast?.or previous =
      out.getLast?.or (some (line.leading ++ Directive.close.render)) := by
  have hlast : (condition.guard line.leading inner).getLast? =
      some (line.leading ++ Directive.close.render) := by
    rw [Condition.guard, ← List.cons_append, List.getLast?_concat]
  rw [List.getLast?_append, hlast, Option.or_assoc, Option.some_or]

theorem not_opened_last (h : WithGuards kinds ls out) (hls : ∀ l ∈ ls, l.opensCertificate = false)
    {previous : Option Line} (hprevious : ∀ l ∈ previous, l.opensCertificate = false) :
    ∀ l ∈ out.getLast?.or previous, l.opensCertificate = false := by
  induction h generalizing previous with
  | nil => exact hprevious
  | line _ _ _ ih =>
      rw [List.forall_mem_cons] at hls
      rw [getLast?_cons_or]
      refine ih hls.2 ?_
      rintro l ⟨⟩
      exact hls.1
  | path _ _ ih =>
      rw [List.forall_mem_cons] at hls
      rw [getLast?_guard]
      refine ih hls.2 ?_
      rintro l ⟨⟩
      exact Line.not_opensCertificate_close _
  | item _ _ _ _ _ _ _ ih =>
      rw [← List.cons_append, List.forall_mem_append] at hls
      rw [getLast?_guard]
      refine ih hls.2 ?_
      rintro l ⟨⟩
      exact Line.not_opensCertificate_close _

end WithGuards

/-! ## The passes -/

namespace ItemGuard

variable {itemGuard : ItemGuard} {previous : Option Line} {line : Line}
  {rest body inner behind out : List Line}

theorem not_isTarget_of_path {condition : Condition} (hguard : itemGuard ∈ itemGuards)
    (hpath : CertificateGuard.pathCondition? line = some condition) (rest : List Line) :
    itemGuard.isTarget line rest = false := by
  rw [← Bool.not_eq_true]
  intro htarget
  rw [pathCondition?_of_isTarget hguard htarget] at hpath
  cases hpath

theorem not_isTarget_of_ne {other : ItemGuard} (hguard : itemGuard ∈ itemGuards)
    (hother : other ∈ itemGuards) (hne : itemGuard ≠ other)
    (htarget : other.isTarget line body = true) (rest : List Line) :
    itemGuard.isTarget line rest = false := by
  rw [← Bool.not_eq_true]
  exact fun h => hne (eq_of_isTarget hguard hother h htarget)

theorem guardItems_of_not_isTarget (h : itemGuard.isTarget line rest = false) :
    itemGuard.guardItems previous 0 (line :: rest) =
      line :: itemGuard.guardItems (some line) 0 rest := by
  rw [guardItems, targets_eq, h, Bool.false_and, if_neg Bool.false_ne_true]

/-- A pass leaves the guard of another one where it is. -/
theorem guardItems_guard (hguard : itemGuard ∈ itemGuards) {condition : Condition}
    (hline : ∀ rest, itemGuard.isTarget line rest = false)
    (hdeep : ∀ l ∈ inner, l.isDeeper line.indent = true) :
    itemGuard.guardItems previous 0 (condition.guard line.leading (line :: inner) ++ out) =
      condition.guard line.leading (line :: itemGuard.guardItems (some line) 0 inner) ++
        itemGuard.guardItems (some (line.leading ++ Directive.close.render)) 0 out := by
  have hopening := line.isGuardLine_opening condition
  have hclosing := line.isGuardLine_close
  rw [Condition.guard_cons_append, Condition.guard_cons_append,
    guardItems_of_not_isTarget (not_isTarget_of_isInert hguard hopening.isInert _),
    guardItems_of_not_isTarget (hline _), guardItems_append hdeep (hclosing.stops out),
    guardItems_of_not_isTarget (not_isTarget_of_isInert hguard hclosing.isInert _)]

theorem guardItems_of_isTarget (htarget : itemGuard.isTarget line (inner ++ out) = true)
    (hprevious : itemGuard.condition.isOpenedBy previous = false)
    (hdeep : ∀ l ∈ inner, l.isDeeper line.indent = true) (hstops : Stops line.indent out) :
    itemGuard.guardItems previous 0 (line :: (inner ++ out)) =
      itemGuard.condition.guard line.leading (line :: inner) ++
        itemGuard.guardItems (line :: inner).getLast? 0 out := by
  have htargets : itemGuard.targets previous line (inner ++ out) = true := by
    rw [targets_eq, htarget, hprevious]
    rfl
  rw [guardItems_of_targets htargets, itemBody_append_of_stops hdeep hstops, continues_item,
    hstops.dropWhile_append_of_deep hdeep]

end ItemGuard

namespace WithGuards

variable {kinds : Set ItemGuard} {itemGuard : ItemGuard} {ls out : List Line}

/-- The pass over a further kind of items works as if it saw the lines as they were. -/
theorem guardItems (hguard : itemGuard ∈ itemGuards) (hnew : itemGuard ∉ kinds)
    (hkinds : ∀ other ∈ kinds, other ∈ itemGuards) (hls : ∀ l ∈ ls, l.opensCertificate = false)
    (h : WithGuards kinds ls out) {previous : Option Line}
    (hprevious : ∀ l ∈ previous, l.opensCertificate = false) :
    WithGuards (insert itemGuard kinds) ls (itemGuard.guardItems previous 0 out) := by
  induction hn : ls.length using Nat.strongRecOn generalizing kinds ls out previous with
  | ind n ih =>
      have hcondition := ItemGuard.condition_mem hguard
      have hclose : ∀ {line : Line}, ∀ l ∈ some (line.leading ++ Directive.close.render),
          Line.opensCertificate l = false := by
        rintro line l ⟨⟩
        exact Line.not_opensCertificate_close line
      cases h with
      | nil => exact .nil
      | @line _ line rest out hpath htarget hrest =>
          rw [List.forall_mem_cons] at hls
          rw [List.length_cons] at hn
          have hline : ∀ l ∈ some line, l.opensCertificate = false := by simpa using hls.1
          cases hout : itemGuard.isTarget line out with
          | false =>
              rw [ItemGuard.guardItems_of_not_isTarget hout]
              rw [hrest.decorated.isTarget_eq hguard] at hout
              refine .line hpath ?_ (ih rest.length (by omega) hnew hkinds hls.2 hrest hline rfl)
              rintro other (rfl | hother)
              · exact hout
              · exact htarget other hother
          | true =>
              obtain ⟨body, behind, rfl, hdeep, hstops⟩ := exists_block_append line.indent rest
              obtain ⟨inner, out, rfl, hbody, hbehind⟩ := hrest.exists_of_append hdeep hstops
              rw [List.forall_mem_append] at hls
              rw [List.length_append] at hn
              have hopened := Condition.not_isOpenedBy hcondition hprevious
              have hbefore := hout
              rw [hrest.decorated.isTarget_eq hguard, ItemGuard.isTarget_append hstops] at hbefore
              have hlast : ∀ l ∈ (line :: inner).getLast?, l.opensCertificate = false := by
                rw [getLast?_cons_eq_or]
                exact hbody.not_opened_last hls.2.1 hline
              rw [ItemGuard.guardItems_of_isTarget hout hopened
                (hbody.decorated.isDeeper hdeep) (hbehind.decorated.stops hstops)]
              refine .item (Set.mem_insert _ _) hbefore hdeep hstops ?_
                (ih behind.length (by omega) hnew hkinds hls.2.2 hbehind hlast rfl)
              rwa [Set.insert_sdiff_self_of_notMem hnew]
      | @path _ condition line rest out hpath hrest =>
          rw [List.forall_mem_cons] at hls
          rw [List.length_cons] at hn
          rw [ItemGuard.guardItems_guard hguard (ItemGuard.not_isTarget_of_path hguard hpath)
            (by simp)]
          exact .path hpath (ih rest.length (by omega) hnew hkinds hls.2 hrest hclose rfl)
      | @item _ other line body behind inner out hkind htarget hdeep hstops hbody hbehind =>
          rw [List.forall_mem_cons, List.forall_mem_append] at hls
          rw [List.length_cons, List.length_append] at hn
          have hne : itemGuard ≠ other := fun heq => hnew (heq ▸ hkind)
          have hline : ∀ l ∈ some line, l.opensCertificate = false := by simpa using hls.1
          rw [ItemGuard.guardItems_guard hguard
            (ItemGuard.not_isTarget_of_ne hguard (hkinds other hkind) hne htarget)
            (hbody.decorated.isDeeper hdeep)]
          refine .item (Set.mem_insert_of_mem _ hkind) htarget hdeep hstops ?_
            (ih behind.length (by omega) hnew hkinds hls.2.2 hbehind hclose rfl)
          rw [← Set.insert_sdiff_singleton_comm hne]
          exact ih body.length (by omega) (fun h => hnew h.1) (fun other h => hkinds other h.1)
            hls.2.1 hbody hline rfl

theorem foldl_apply {todo : List ItemGuard} (hnodup : todo.Nodup)
    (htodo : ∀ itemGuard ∈ todo, itemGuard ∈ itemGuards ∧ itemGuard ∉ kinds)
    (hkinds : ∀ other ∈ kinds, other ∈ itemGuards) (hls : ∀ l ∈ ls, l.opensCertificate = false)
    (h : WithGuards kinds ls out) : WithGuards (kinds ∪ {itemGuard | itemGuard ∈ todo}) ls
      (todo.foldl (fun ls itemGuard => itemGuard.apply ls) out) := by
  induction todo generalizing kinds out with
  | nil => simpa using h
  | cons itemGuard todo ih =>
      rw [List.forall_mem_cons] at htodo
      rw [List.nodup_cons] at hnodup
      have hstep : WithGuards (insert itemGuard kinds) ls (itemGuard.apply out) :=
        h.guardItems htodo.1.1 htodo.1.2 hkinds hls (by simp)
      have hrest := ih hnodup.2 (fun other hother => ⟨(htodo.2 other hother).1, ?_⟩) ?_ hstep
      · have hsets : insert itemGuard kinds ∪ {other | other ∈ todo} =
            kinds ∪ {other | other ∈ itemGuard :: todo} := by
          ext other
          simp only [Set.mem_union, Set.mem_insert_iff, Set.mem_ofPred_eq, List.mem_cons]
          tauto
        rwa [hsets] at hrest
      · rintro (rfl | hmem)
        · exact hnodup.1 hother
        · exact (htodo.2 other hother).2 hmem
      · rintro other (rfl | hmem)
        · exact htodo.1.1
        · exact hkinds other hmem

theorem guardPaths (hls : ∀ l ∈ ls, l.opensCertificate = false) :
    WithGuards ∅ ls (CertificateGuard.guardPaths none ls) := by
  rw [CertificateGuard.guardPaths_eq_flatMap (by simp) hls]
  clear hls
  induction ls with
  | nil => exact .nil
  | cons line rest ih =>
      rw [List.flatMap_cons, CertificateGuard.pathLines]
      split
      · rename_i condition hpath
        exact .path hpath ih
      · rename_i hpath
        exact .line hpath (by simp) ih

theorem guardAll (hls : ∀ l ∈ ls, l.opensCertificate = false) :
    WithGuards {itemGuard | itemGuard ∈ itemGuards} ls
      (itemGuards.foldl (fun ls itemGuard => itemGuard.apply ls)
        (CertificateGuard.guardPaths none ls)) := by
  have hnodup : itemGuards.Nodup := List.Nodup.of_map _ ItemGuard.nodup_heads
  have hall := (guardPaths hls).foldl_apply hnodup (fun itemGuard hmem => ⟨hmem, by simp⟩)
    (by simp) hls
  rwa [Set.empty_union] at hall

end WithGuards

end OperatorChart
