import OperatorChart.Proofs.GuardPasses
import OperatorChart.Proofs.RebuiltArguments
import OperatorChart.Proofs.WrapNesting
/-!
# Paths of certificates among the arguments

Two passes look for the paths of certificates: the pass over the arguments keeps every argument
that mentions the flag of such a path, and the pass over the paths guards those that start with
the flag and an equals sign. Main statement: behind both, an argument that mentions a flag stands
in the guard of its certificate exactly when it starts with the flag. So an argument in quotes is
kept without its guard.
-/

namespace OperatorChart

open Text

/-- Whether a line between others is all that a guard of a condition encloses. -/
def Condition.Encloses (condition : Condition) (above below : List Line) : Prop :=
  condition.isOpenedBy above.getLast? = true ∧
    below.head?.map Line.trimmed = some Directive.close.render

instance (condition : Condition) (above below : List Line) :
    Decidable (condition.Encloses above below) :=
  inferInstanceAs (Decidable (_ ∧ _))

def Line.isPathItem (line : Line) : Bool :=
  line.isItem && Values.ArgKind.certPath.Takes line

/-! ## The arguments that are kept -/

namespace Values

variable {ls items : List Line} {line : Line} {s fallback : Text}

theorem exists_infix_of_isPathItem (h : line.isPathItem = true) :
    webhookCertFlag <:+: line ∨ metricsCertFlag <:+: line := by
  rw [Line.isPathItem, Bool.and_eq_true, decide_eq_true_eq] at h
  exact h.2.2.2

theorem not_isPathItem_argText (hs : IsWhite s) {t : Text} (ht : t ∈ argTexts) :
    Line.isPathItem (s ++ t) = false := by
  have hflags : ∀ flag ∈ [webhookCertFlag, metricsCertFlag], flag ≠ [] ∧
      (∀ c ∈ flag, Unicode.isWhiteSpace c = false) ∧
      ∀ t ∈ argTexts, hasInfix flag t = false := by decide
  have hnone : ∀ flag ∈ [webhookCertFlag, metricsCertFlag], ¬ flag <:+: s ++ t := by
    intro flag hflag hocc
    obtain ⟨hne, hsolid, htexts⟩ := hflags flag hflag
    exact hasInfix_eq_false_iff.1 (htexts t ht) (IsWord.infix_of_isWhite_append ⟨hne, hsolid⟩ hs hocc)
  rw [← Bool.not_eq_true]
  intro hpath
  rcases exists_infix_of_isPathItem hpath with hocc | hocc
  · exact hnone webhookCertFlag (by simp) hocc
  · exact hnone metricsCertFlag (by simp) hocc

/-- The rebuilt list has the paths of the old one, in their order. -/
theorem filter_argLines (hfallback : ∀ c ∈ fallback, isIndentation c = true)
    (hitems : ∀ item ∈ items, item.isItem = true) :
    (argLines fallback items).filter Line.isPathItem = items.filter Line.isPathItem := by
  have hother : ∀ {kind : ArgKind} {item : Line}, kind ≠ .certPath →
      item ∈ items.filter (ArgKind.of ·.content = kind) → item.isPathItem = false := by
    intro kind item hne hitem
    have hkind := of_decide_eq_true (List.mem_filter.1 hitem).2
    have hother : ¬ ArgKind.certPath.Takes item := by
      rw [← ArgKind.of_content_eq_iff, hkind]
      exact hne
    rw [Line.isPathItem, decide_eq_false hother, Bool.and_false]
  have hwhite : IsWhite ((items.head?.map Line.leading).getD fallback) := fun c hc =>
    isWhiteSpace_of_isIndentation (isIndentation_getD hfallback items c hc)
  have haddress : (((items.filter (ArgKind.of ·.content = .metricsBind)).getLast?.map
      metricsBindLines).getD []).filter Line.isPathItem = [] := by
    cases hlast : (items.filter (ArgKind.of ·.content = .metricsBind)).getLast? with
    | none => rfl
    | some item =>
        refine List.filter_eq_nil_iff.2 fun l hl => ?_
        rw [Bool.not_eq_true]
        rcases mem_metricsBindLines hl with rfl | ⟨t, ht, rfl⟩
        · exact hother (by decide) (List.mem_of_getLast? hlast)
        · exact not_isPathItem_argText (Line.isWhite_leading item) ht
  have hhealth : (items.filter (ArgKind.of ·.content = .healthProbe)).getLast?.toList.filter
      Line.isPathItem = [] := by
    refine List.filter_eq_nil_iff.2 fun l hl => ?_
    rw [Bool.not_eq_true]
    exact hother (by decide) (List.mem_of_getLast? (Option.mem_toList.1 hl))
  have hloop : (rangeLines ((items.head?.map Line.leading).getD fallback)).filter
      Line.isPathItem = [] := by
    refine List.filter_eq_nil_iff.2 fun l hl => ?_
    obtain ⟨t, ht, rfl⟩ := mem_rangeLines hl
    rw [Bool.not_eq_true]
    exact not_isPathItem_argText hwhite ht
  have hpaths : (items.filter (ArgKind.of ·.content = .certPath)).filter Line.isPathItem =
      items.filter Line.isPathItem := by
    rw [List.filter_filter]
    refine List.filter_congr fun item hitem => ?_
    simp [Line.isPathItem, hitems item hitem, ArgKind.of_content_eq_iff]
  rw [argLines, List.filter_append, List.filter_append, List.filter_append, haddress, hhealth,
    hloop, hpaths]
  rfl

/-- Changed or not, the list of the arguments is found at its place, with all its paths. -/
theorem exists_argumentsAt_fillArgs
    (h : ((Container.manager? ls).bind (·.key? ls "args".toList)).isSome = true) :
    ∃ before line body list after, ArgumentsAt ls before line body after ∧
      ArgumentsAt (fillArgs ls) before line list after ∧
      list.filter Line.isPathItem = body.filter Line.isPathItem := by
  by_cases hsame : fillArgs ls = ls
  · obtain ⟨before, line, list, after, hls⟩ := exists_argumentsAt h
    exact ⟨before, line, list, list, after, hls, hsame.symm ▸ hls, rfl⟩
  · obtain ⟨before, line, body, after, hold, -, hnew⟩ := argumentsAt_of_fillArgs_ne hsame
    refine ⟨before, line, body, _, after, hold, hnew, ?_⟩
    rw [filter_argLines (isIndentation_padding _) fun item hitem => (List.mem_filter.1 hitem).2,
      List.filter_filter]
    refine List.filter_congr fun item _ => ?_
    rw [Line.isPathItem, Bool.and_right_comm, Bool.and_self]

theorem not_opensCertificate_fillArgs (h : ∀ l ∈ ls, l.IsPlain) :
    ∀ l ∈ fillArgs ls, l.opensCertificate = false := by
  have hold : ∀ l ∈ ls, l.IsTidy [] := fun l hl => (h l hl).isTidy (by simp [Line.Avoids])
  rcases exists_of_fillArgs ls with hsame | ⟨before, line, after, rfl, -, hfill⟩
  · rw [hsame]
    exact fun l hl => (hold l hl).unopened
  · rw [List.forall_mem_append, List.forall_mem_cons] at hold
    obtain ⟨hbefore, hline, hafter⟩ := hold
    have hitems : ∀ item ∈ argItems line after, item.IsTidy [] := fun item hitem =>
      hafter item (mem_of_mem_argItems hitem).1
    have hlist := isTidy_argLines (isIndentation_padding (line.column + 2)) hitems
    simp only [hfill, List.forall_mem_append, List.forall_mem_cons]
    exact ⟨fun l hl => (hbefore l hl).unopened, hline.unopened, fun l hl => (hlist l hl).unopened,
      fun l hl => (hafter l ((List.dropWhile_suffix _).mem hl)).unopened⟩

end Values

/-! ## The guards that are put around paths -/

namespace CertificateGuard

variable {ls above below u v : List Line} {line item : Line} {condition : Condition}

/-- What the paths of certificates start with, and their conditions. -/
def pathStarts : List (Text × Condition) :=
  [("--webhook-cert-path=".toList, .certManager),
   ("--metrics-cert-path=".toList, .certManagerAndMetrics)]

def IsPath (condition : Condition) (line : Line) : Prop :=
  line.isItem = true ∧ ∃ start, (start, condition) ∈ pathStarts ∧ start <+: line.content

/-- Whether an item mentions the flag of the certificate with a condition, that of the webhook's
certificate before the other. -/
def MentionsPath (condition : Condition) (item : Line) : Prop :=
  (condition = .certManager ∧ "--webhook-cert-path".toList <:+: item) ∨
    (condition = .certManagerAndMetrics ∧ ¬ "--webhook-cert-path".toList <:+: item ∧
      "--metrics-cert-path".toList <:+: item)

def pathLines (line : Line) : List Line :=
  match pathCondition? line with
  | some condition => condition.guard line.leading [line]
  | none => [line]

theorem pathCondition?_eq_some_iff {condition : Condition} {line : Line} :
    pathCondition? line = some condition ↔ IsPath condition line := by
  have hwebhook : Values.webhookCertFlag ++ ['='] = "--webhook-cert-path=".toList := by decide
  have hmetrics : Values.metricsCertFlag ++ ['='] = "--metrics-cert-path=".toList := by decide
  have hapart : "--webhook-cert-path=".toList <+: line.content →
      ¬ "--metrics-cert-path=".toList <+: line.content := fun hstart hother =>
    absurd (List.prefix_of_prefix_length_le hstart hother (by decide)) (by decide)
  have hpath : IsPath condition line ↔ line.isItem = true ∧
      ((condition = .certManager ∧ "--webhook-cert-path=".toList <+: line.content) ∨
        (condition = .certManagerAndMetrics ∧ "--metrics-cert-path=".toList <+: line.content)) := by
    simp only [IsPath, pathStarts, List.mem_cons, Prod.mk.injEq, List.not_mem_nil, or_false,
      or_and_right, exists_or, and_assoc, exists_eq_left]
  rw [hpath, pathCondition?, hwebhook, hmetrics]
  cases hitem : line.isItem with
  | false => simp
  | true =>
      simp only [Bool.not_true, Bool.false_eq_true, if_false, true_and, List.isPrefixOf_iff_prefix]
      split
      · rename_i hstart
        simp only [hstart, hapart hstart, and_true, and_false, or_false, Option.some.injEq]
        exact eq_comm
      · rename_i hstart
        split
        · rename_i hother
          simp only [hstart, hother, and_true, and_false, false_or, Option.some.injEq]
          exact eq_comm
        · rename_i hother
          simp only [hstart, hother, and_false, or_false, reduceCtorEq]

theorem mem_of_mentionsPath (h : MentionsPath condition item) :
    condition ∈ certificateConditions := by
  rcases h with ⟨rfl, -⟩ | ⟨rfl, -⟩ <;> decide

/-- Without guards of certificates every path gets its own. -/
theorem guardPaths_eq_flatMap {previous : Option Line}
    (hprevious : ∀ l ∈ previous, l.opensCertificate = false)
    (h : ∀ l ∈ ls, l.opensCertificate = false) :
    guardPaths previous ls = ls.flatMap pathLines := by
  induction ls generalizing previous with
  | nil => rfl
  | cons line rest ih =>
      rw [List.forall_mem_cons] at h
      have hrest : guardPaths (some line) rest = rest.flatMap pathLines :=
        ih (fun l hl => Option.some.inj hl ▸ h.1) h.2
      rw [guardPaths, hrest, List.flatMap_cons]
      have hline : guardPathLine previous line = pathLines line := by
        cases hpath : pathCondition? line with
        | none => simp only [guardPathLine, pathLines, hpath]
        | some condition =>
            have hfree := Condition.not_isOpenedBy (exists_of_pathCondition? hpath).1 hprevious
            simp only [guardPathLine, pathLines, hpath, hfree, Bool.false_eq_true, if_false]
      rw [hline]

theorem exists_of_flatMap_eq {f : Line → List Line} (h : ls.flatMap f = above ++ item :: below) :
    ∃ front line back u v, ls = front ++ line :: back ∧ f line = u ++ item :: v ∧
      above = front.flatMap f ++ u ∧ below = v ++ back.flatMap f := by
  induction ls generalizing above with
  | nil => simp at h
  | cons line rest ih =>
      rw [List.flatMap_cons] at h
      rcases cases_of_append_eq h with ⟨v, hline, rfl⟩ | ⟨s, rfl, hs⟩
      · exact ⟨[], line, rest, above, v, rfl, hline, rfl, rfl⟩
      · obtain ⟨front, l, back, u, v, rfl, hl, rfl, rfl⟩ := ih hs
        exact ⟨line :: front, l, back, u, v, rfl, hl, by simp, rfl⟩

/-- The only item among the lines for a line is the line itself. -/
theorem cases_of_pathLines_eq (h : pathLines line = u ++ item :: v) (hitem : item.isItem = true) :
    item = line ∧ ((pathCondition? line = none ∧ u = [] ∧ v = []) ∨
      ∃ condition, pathCondition? line = some condition ∧
        u = [line.leading ++ condition.opening] ∧
        v = [line.leading ++ Directive.close.render]) := by
  cases hpath : pathCondition? line with
  | none =>
      simp only [pathLines, hpath] at h
      obtain ⟨rfl, rfl, rfl⟩ : u = [] ∧ item = line ∧ v = [] := by
        rw [List.singleton_eq_append_iff] at h
        simpa [and_assoc] using h
      exact ⟨rfl, .inl ⟨rfl, rfl, rfl⟩⟩
  | some condition =>
      simp only [pathLines, hpath, Condition.guard, List.singleton_append] at h
      rcases u with - | ⟨opening, - | ⟨other, u⟩⟩ <;>
        simp only [List.nil_append, List.cons_append, List.cons.injEq] at h
      · rw [← h.1, (line.isGuardLine_opening condition).no_item] at hitem
        cases hitem
      · obtain ⟨rfl, rfl, rfl⟩ := h
        exact ⟨rfl, .inr ⟨condition, rfl, rfl, rfl⟩⟩
      · have hclose : item ∈ [line.leading ++ Directive.close.render] := by
          rw [h.2.2]
          simp
        rw [List.mem_singleton.1 hclose, line.isGuardLine_close.no_item] at hitem
        cases hitem

theorem filter_pathLines (line : Line) :
    (pathLines line).filter Line.isItem = [line].filter Line.isItem := by
  cases hpath : pathCondition? line with
  | none => simp only [pathLines, hpath]
  | some condition =>
      simp [pathLines, hpath, Condition.guard, (line.isGuardLine_opening condition).no_item,
        line.isGuardLine_close.no_item, List.filter_cons]

theorem pathLines_of_hasKey (h : line.hasKey "args".toList = true) : pathLines line = [line] := by
  have hkey : Line.IsPlainKey "args".toList := ⟨by decide, by decide, by decide⟩
  cases hpath : pathCondition? line with
  | none => simp only [pathLines, hpath]
  | some condition =>
      rw [not_hasKey_of_path hpath hkey] at h
      cases h

theorem filter_flatMap_pathLines (ls : List Line) :
    (ls.flatMap pathLines).filter Line.isItem = ls.filter Line.isItem := by
  induction ls with
  | nil => rfl
  | cons line rest ih =>
      rw [List.flatMap_cons, List.filter_append, filter_pathLines, ih, ← List.filter_append,
        List.singleton_append]

theorem not_isOpenedBy_getLast? (h : ∀ l ∈ ls, l.opensCertificate = false)
    (hcondition : condition ∈ certificateConditions) :
    condition.isOpenedBy (ls.flatMap pathLines).getLast? = false := by
  rcases List.eq_nil_or_concat ls with rfl | ⟨front, line, rfl⟩
  · rfl
  have hlast : ∃ l, (pathLines line).getLast? = some l ∧ l.opensCertificate = false := by
    cases hpath : pathCondition? line with
    | none => exact ⟨line, by simp only [pathLines, hpath, List.getLast?_singleton],
        h line (by simp)⟩
    | some other => exact ⟨line.leading ++ Directive.close.render,
        by simp [pathLines, hpath, Condition.guard], line.not_opensCertificate_close⟩
  obtain ⟨l, hl, hfree⟩ := hlast
  rw [List.concat_eq_append, List.flatMap_append, List.flatMap_singleton, List.getLast?_append, hl,
    Option.some_or]
  refine Condition.not_isOpenedBy hcondition ?_
  rintro l ⟨⟩
  exact hfree

/-- Among lines without guards of certificates, an item is enclosed by the guard of a condition
exactly when it is a path with this condition. -/
theorem encloses_iff (h : ∀ l ∈ ls, l.opensCertificate = false)
    (hsplit : guardPaths none ls = above ++ item :: below) (hitem : item.isItem = true)
    (hcondition : condition ∈ certificateConditions) :
    condition.Encloses above below ↔ pathCondition? item = some condition := by
  rw [guardPaths_eq_flatMap (by simp) h] at hsplit
  obtain ⟨front, line, back, u, v, rfl, hline, rfl, rfl⟩ := exists_of_flatMap_eq hsplit
  rw [List.forall_mem_append] at h
  obtain ⟨rfl, ⟨hnone, rfl, rfl⟩ | ⟨other, hother, rfl, rfl⟩⟩ := cases_of_pathLines_eq hline hitem
  · rw [hnone, List.append_nil, Condition.Encloses, not_isOpenedBy_getLast? h.1 hcondition]
    simp
  · have hclose : Line.trimmed (item.leading ++ Directive.close.render) =
        Directive.close.render :=
      Line.trimmed_directive (fun _ => Line.isIndentation_of_mem_leading) .close
    rw [Condition.Encloses, List.getLast?_append, List.getLast?_singleton, Option.some_or,
      List.singleton_append, List.head?_cons, Option.map_some, hclose, hother]
    constructor
    · rintro ⟨hopened, -⟩
      rw [Line.eq_of_isOpenedBy hopened]
    · intro heq
      rw [Option.some.inj heq]
      exact ⟨item.isOpenedBy_opening condition, rfl⟩

end CertificateGuard

/-! ## Both passes -/

namespace Pass

def certificatePaths : Pass :=
  .ofLines "cert-path-args" (CertificateGuard.guardPaths none)

theorem certificatePaths_mem_all : certificatePaths ∈ all := by
  simp [certificatePaths, all]

open CertificateGuard in
/-- On a text without directives whose manager has arguments, the paths of certificates among them
are kept, in their order. Behind the pass over the paths, an argument that mentions the flag of a
certificate stands alone in the guard of this certificate exactly when it is a path by its
start. -/
theorem cert_paths_enclosed_iff (context : PassContext) {t : Text}
    (hplain : ¬ "\x7b\x7b".toList <:+: t)
    (hargs : ((Container.manager? t.lines).bind (·.key? t.lines "args".toList)).isSome = true) :
    ∃ mid out before line body list after,
      ManagerField.args.pass.run context t = .ok mid ∧
      certificatePaths.run context mid = .ok out ∧
      Values.ArgumentsAt t.lines before line body after ∧
      Values.ArgumentsAt mid.lines before line list after ∧
      list.filter Line.isPathItem = body.filter Line.isPathItem ∧
      out.lines = guardPaths none before ++ line ::
        (guardPaths none list ++ guardPaths none after) ∧
      (guardPaths none list).filter Line.isItem = list.filter Line.isItem ∧
      ∀ above item below condition, guardPaths none list = above ++ item :: below →
        item.isItem = true → MentionsPath condition item →
        (condition.Encloses (guardPaths none before ++ line :: above)
            (below ++ guardPaths none after) ↔
          IsPath condition item) := by
  have hmid : (Text.ofLines (Values.fillArgs t.lines)).lines = Values.fillArgs t.lines :=
    lines_ofLines (Values.areLines_fillArgs (areLines_lines t))
  have hout : (Text.ofLines (guardPaths none (Values.fillArgs t.lines))).lines =
      guardPaths none (Values.fillArgs t.lines) :=
    lines_ofLines (areLines_guardPaths (Values.areLines_fillArgs (areLines_lines t)))
  have hfree := Values.not_opensCertificate_fillArgs fun l hl => isPlain_of_mem_lines hplain hl
  obtain ⟨before, line, body, list, after, hold, hnew, hkept⟩ :=
    Values.exists_argumentsAt_fillArgs hargs
  have hpaths : guardPaths none (Values.fillArgs t.lines) = guardPaths none before ++ line ::
      (guardPaths none list ++ guardPaths none after) := by
    have hflat : ∀ part : List Line, (∀ l ∈ part, l ∈ Values.fillArgs t.lines) →
        guardPaths none part = part.flatMap pathLines := fun part hpart =>
      guardPaths_eq_flatMap (by simp) fun l hl => hfree l (hpart l hl)
    rw [hflat _ fun _ => id, hflat before (by simp +contextual [hnew.split]),
      hflat list (by simp +contextual [hnew.split]), hflat after (by simp +contextual [hnew.split]),
      hnew.split, List.flatMap_append, List.flatMap_cons, List.flatMap_append,
      pathLines_of_hasKey hnew.hasKey, List.singleton_append]
  have hrun : certificatePaths.run context (Text.ofLines (Values.fillArgs t.lines)) =
      .ok (Text.ofLines (guardPaths none (Values.fillArgs t.lines))) := by
    simp only [certificatePaths, ofLines, ofText, overLines, hmid]
  refine ⟨_, _, before, line, body, list, after, rfl, hrun, hold, hmid.symm ▸ hnew, hkept,
    hout.trans hpaths, ?_, fun above item below condition hsplit hitem hmentioned => ?_⟩
  · rw [guardPaths_eq_flatMap (by simp) fun l hl => hfree l (by simp [hnew.split, hl]),
      filter_flatMap_pathLines]
  · rw [← pathCondition?_eq_some_iff]
    refine encloses_iff hfree ?_ hitem (mem_of_mentionsPath hmentioned)
    rw [hpaths, hsplit]
    simp

open CertificateGuard in
/-- A list with both paths, with one of them in quotes, and with a flag of the user. -/
theorem cert_paths_enclosed_iff_mixed :
    let context : PassContext := ⟨⟨"Deployment".toList, [], [], []⟩, "demo".toList⟩
    let t := Text.ofLines (["- args:", "  - --metrics-cert-path=/tmp/m", "  - --leader-elect",
      "  - '--webhook-cert-path=/tmp/x'", "  - --webhook-cert-path=/tmp/y", "  name: manager"].map
        String.toList)
    ¬ "\x7b\x7b".toList <:+: t ∧
      ((Container.manager? t.lines).bind (·.key? t.lines "args".toList)).isSome = true ∧
      ∃ mid out before line body list after,
        ManagerField.args.pass.run context t = .ok mid ∧
        certificatePaths.run context mid = .ok out ∧
        Values.ArgumentsAt t.lines before line body after ∧
        Values.ArgumentsAt mid.lines before line list after ∧
        list.filter Line.isPathItem = body.filter Line.isPathItem ∧
        out.lines = guardPaths none before ++ line ::
          (guardPaths none list ++ guardPaths none after) ∧
        (guardPaths none list).filter Line.isItem = list.filter Line.isItem ∧
        ∀ above item below condition, guardPaths none list = above ++ item :: below →
          item.isItem = true → MentionsPath condition item →
          (condition.Encloses (guardPaths none before ++ line :: above)
              (below ++ guardPaths none after) ↔
            IsPath condition item) := by
  intro context t
  have hplain : ¬ "\x7b\x7b".toList <:+: t := hasInfix_eq_false_iff.1 (by decide +kernel)
  have hargs : ((Container.manager? t.lines).bind (·.key? t.lines "args".toList)).isSome =
      true := by decide +kernel
  exact ⟨hplain, hargs, cert_paths_enclosed_iff context hplain hargs⟩

/-- An argument in quotes is kept as the path of a certificate, and stands in no guard. -/
theorem quoted_cert_path_unguarded :
    let context : PassContext := ⟨⟨"Deployment".toList, [], [], []⟩, "demo".toList⟩
    let t := Text.ofLines (["containers:", "- args:", "  - --leader-elect",
      "  - \"--webhook-cert-path=/tmp/x\"", "  name: manager", ""].map String.toList)
    let above := ["containers:", "- args:",
      "  \x7b\x7b- range .Values.controllerManager.args \x7d\x7d", "  - \x7b\x7b . \x7d\x7d",
      "  \x7b\x7b- end \x7d\x7d"].map String.toList
    let item : Line := "  - \"--webhook-cert-path=/tmp/x\"".toList
    let below := ["  name: manager", ""].map String.toList
    ¬ "\x7b\x7b".toList <:+: t ∧ item.isPathItem = true ∧
      CertificateGuard.MentionsPath .certManager item ∧
      (ManagerField.args.pass.run context t >>= certificatePaths.run context) =
        .ok (Text.ofLines (above ++ item :: below)) ∧
      ¬ Condition.certManager.Encloses above below := by
  intro context t above item below
  have hplain : ¬ "\x7b\x7b".toList <:+: t := hasInfix_eq_false_iff.1 (by decide +kernel)
  have hflag : "--webhook-cert-path".toList <:+: item := hasInfix_iff.1 (by decide +kernel)
  exact ⟨hplain, by decide +kernel, .inl ⟨rfl, hflag⟩, by decide +kernel, by decide +kernel⟩

end Pass

end OperatorChart
