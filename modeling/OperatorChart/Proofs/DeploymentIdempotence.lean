import OperatorChart.Proofs.BuildNames
import OperatorChart.Proofs.GuardPasses
import OperatorChart.Proofs.NamedLines
/-!
# Templating a deployment twice

The fields that a first run looks up are settled, its guards stand where a second run wants them,
and no literal name is left, so a second run finds nothing to do. One thing can break this: a
security context of the pod may lie inside the manager's item but deeper than the item's keys,
where the lookup of another key takes it away again. Main statement: when no context lies there, a
second run changes nothing; and a manifest where one does.
-/

namespace OperatorChart

open Text

/-! ## Blank lines outside of guards -/

namespace BlankRuns

open Nesting

variable {ls : List Line} {stack : List Frame} {opened : Bool}

theorem not_closesNext_of_scan (hhonest : ∀ l ∈ ls, l.IsHonest)
    (h : scan false [] ls = some stack) : closesNext ls = false := by
  have hclosing : ∀ {line : Line} {rest : List Line}, line.IsHonest →
      scan false [] (line :: rest) = some stack → hasClosing line = false := by
    intro line rest hline h
    rw [← Bool.not_eq_true]
    intro hcloses
    rw [scan, step.eq_def, hline.closing hcloses] at h
    cases h
  induction ls using closesNext.induct with
  | case1 => rfl
  | case2 line => exact hclosing (hhonest line List.mem_cons_self) h
  | case3 line rest hne hblank ih =>
      rw [closesNext, if_pos hblank]
      · rw [scan, step.eq_def, Line.role_of_isBlank hblank] at h
        simp only [fits, hblank, if_true, List.isEmpty_nil, Bool.or_true, Option.bind_some] at h
        exact ih (fun l hl => hhonest l (List.mem_cons_of_mem _ hl)) h
      · exact hne
  | case4 line rest hne hblank =>
      rw [closesNext, if_neg hblank]
      · exact hclosing (hhonest line List.mem_cons_self) h
      · exact hne

/-- Where guards hold no blank lines, there are none next to their openings and closings. -/
theorem collapseFrom_of_scan (hhonest : ∀ l ∈ ls, l.IsHonest)
    (hopened : opened = true → stack ≠ []) {stack' : List Frame}
    (h : scan false stack ls = some stack') : collapseFrom opened ls = ls := by
  induction ls generalizing opened stack with
  | nil => rfl
  | cons line rest ih =>
      cases rest with
      | nil => rfl
      | cons next rest =>
          have hrest := fun l hl => hhonest l (List.mem_cons_of_mem line hl)
          rw [scan, Option.bind_eq_some_iff] at h
          obtain ⟨behind, hstep, hscan⟩ := h
          rw [collapseFrom, if_neg, ih hrest (fun hopens => ?_) hscan]
          · rw [step.eq_def, (hhonest line List.mem_cons_self).opening hopens] at hstep
            dsimp only at hstep
            split at hstep <;> cases hstep
            exact List.cons_ne_nil _ _
          · -- a blank line that the scan accepts stands in no guard
            rw [Bool.and_eq_true, Bool.or_eq_true]
            rintro ⟨hblank, hnext⟩
            have hempty : stack = [] ∧ behind = [] := by
              rw [step.eq_def, Line.role_of_isBlank hblank] at hstep
              simp only [fits, hblank, if_true, Bool.false_or, List.isEmpty_iff] at hstep
              split at hstep <;> cases hstep
              rename_i hstack
              exact ⟨hstack, hstack⟩
            rcases hnext with hopens | hcloses
            · exact hopened hopens hempty.1
            · rw [hempty.2] at hscan
              rw [not_closesNext_of_scan hrest hscan] at hcloses
              cases hcloses

end BlankRuns

/-! ## Manifests -/

/-- Whether a text has the shape that the build tool gives to the manifest of a deployment: no
directive and no lookup yet, the lines and items that templating expects, pull policies of one
line, and no security context of a pod deeper in the manager's item than the item's keys. -/
structure IsManifest (t : Text) : Prop where
  plain : ¬ "\x7b\x7b".toList <:+: t
  unlooked : ¬ ".Values.controllerManager".toList <:+: t
  shaped : IsShaped (lines t)
  policies : PoliciesStop (lines t)
  pods : PodsAreKeys (lines t)

def podCount : List Line → Nat
  | [] => 0
  | line :: rest => (line.isPod rest).toNat + podCount rest

namespace Deployment

open Naming

variable {project t : Text}

theorem avoids_lookupPaths (h : ¬ ".Values.controllerManager".toList <:+: t) :
    Line.Avoids lookupPaths t := by
  have hpaths : ∀ w ∈ lookupPaths, ".Values.controllerManager".toList <:+: w := by decide
  exact fun w hw hocc => h ((hpaths w hw).trans hocc)

/-- A manifest is ready for the lookups when its names are substituted. -/
theorem isReady_fillNames (h : IsPlainProject project) (ht : IsManifest t) :
    IsReady lookupPaths (lines (fillNames project t)) ∧
      PoliciesStop (lines (fillNames project t)) := by
  have hplain := Templater.isPlain_of_mem_fillNames h.solid ht.plain
  have hliteral : IsLiteral ".Values.controllerManager".toList :=
    ⟨⟨by decide, by decide⟩, by decide, by decide⟩
  have hsays := saysNoMore_nameLine h
  rw [lines_fillNames h] at hplain ⊢
  refine ⟨⟨ht.shaped.map hsays, fun l hl => ?_, ht.pods.map hsays⟩, ht.policies.map hsays⟩
  refine (hplain l hl).isTidy (avoids_lookupPaths fun hocc => ?_)
  obtain ⟨line, hline, rfl⟩ := List.mem_map.1 hl
  have hnamespace := infix_of_infix_fillManagedByLine hliteral List.infix_rfl (by decide) hocc
  have hsource := infix_of_infix_fillNamespace h hliteral List.infix_rfl (by decide) hnamespace
  exact ht.unlooked (hsource.trans (infix_of_mem_pieces hline))

theorem fillNames_of_released (hsolid : ∀ c ∈ project, Unicode.isWhiteSpace c = false)
    (ht : ∀ line ∈ lines t, IsReleased project line) : fillNames project t = t := by
  have hnamespace : fillNamespace project t = t :=
    (isLinewise_fillNamespace hsolid).eq_self_iff.2 fun line hline =>
      fillNamespace_eq_self (ht line hline).no_namespace
  rw [fillNames, hnamespace]
  refine isLinewise_fillManagedBy.eq_self_iff.2 fun line hline => ?_
  rw [fillManagedBy, overLines_map_line ((areLines_lines t).unbroken line hline), fillManagedByLine,
    if_neg (by simp [(ht line hline).no_label])]

end Deployment

namespace Templater

open Naming

variable {project t : Text} {resource : Resource}

/-- Templating the template of a deployment changes nothing. -/
theorem apply_apply_deployment (h : IsPlainProject project)
    (hkind : resource.isKind .deployment = true) (ht : IsManifest t) :
    ∃ out, apply ⟨project⟩ resource t = .ok out ∧ apply ⟨project⟩ resource out = .ok out := by
  obtain ⟨hready, hpolicies⟩ := Deployment.isReady_fillNames h ht
  obtain ⟨ls, hls, hvalued, hsettled⟩ := Deployment.exists_fillValues hready hpolicies
  have hguarded := Deployment.isGuarded_guardCertificates hvalued hsettled
  have hgrouped := Deployment.grouped_fillValues hls (isPlain_of_mem_fillNames h.solid ht.plain)
  have hcollapse : BlankRuns.collapse (Deployment.guardCertificates ls) =
      Deployment.guardCertificates ls :=
    BlankRuns.collapseFrom_of_scan hguarded.templated.honest (by simp)
      (Deployment.scan_guardCertificates hgrouped)
  have hlines := Deployment.areLines_guardCertificates
    (Deployment.areLines_fillValues hls (areLines_lines _))
  have hfirst : apply ⟨project⟩ resource t = .ok (ofLines (Deployment.guardCertificates ls)) := by
    rw [apply_deployment hkind, hls, Except.map, hcollapse]
  refine ⟨_, hfirst, ?_⟩
  have hnames := Deployment.fillNames_of_released h.solid (isReleased_of_mem_apply h hfirst)
  have hvalues := Deployment.fillValues_of_settled hguarded.templated.shaped.named
    hguarded.templated.values
  rw [apply_deployment hkind, hnames, lines_ofLines hlines, hvalues, Except.map,
    Deployment.guardCertificates_of_isGuarded hguarded, hcollapse]

/-- The context of the pod stands behind the containers. -/
theorem apply_apply_deployment_manager :
    let t := ofLines ["namespace: demo-system".toList, "  containers:".toList,
      "  - image: x".toList, "    imagePullPolicy: Always".toList, "    name: manager".toList,
      "  securityContext:".toList, "    runAsNonRoot: true".toList,
      "  serviceAccountName: sa".toList, []]
    IsManifest t ∧ ∃ out, apply ⟨"demo".toList⟩ ⟨"Deployment".toList, [], [], []⟩ t = .ok out ∧
      apply ⟨"demo".toList⟩ ⟨"Deployment".toList, [], [], []⟩ out = .ok out := by
  intro t
  have hproject : IsPlainProject "demo".toList := ⟨by decide, by decide, by decide⟩
  let start : List Line := ["namespace: demo-system".toList, "  containers:".toList]
  let inner : List Line := ["    imagePullPolicy: Always".toList, "    name: manager".toList]
  let behind : List Line := ["  securityContext:".toList, "    runAsNonRoot: true".toList,
    "  serviceAccountName: sa".toList, []]
  have hlines : lines t = start ++ "  - image: x".toList :: (inner ++ behind) :=
    lines_ofLines ⟨by decide, by decide⟩
  have hmanages : Manages (lines t) start "  - image: x".toList inner behind :=
    ⟨hlines, by decide, by decide, by decide, .inr ⟨["    imagePullPolicy: Always".toList],
      "    name: manager".toList, [], rfl, by decide, by decide, by decide, by decide⟩⟩
  have ht : IsManifest t := by
    refine ⟨hasInfix_eq_false_iff.1 (by decide +kernel),
      hasInfix_eq_false_iff.1 (by decide +kernel), ?_, ?_,
      podsAreKeys_of_manages ?_ hmanages fun front line back heq hpod => ?_⟩
    · rw [hlines]
      decide
    · rw [hlines]
      decide
    · rw [hlines]
      decide
    · have hnone : NoPod ("  - image: x".toList :: inner) behind := by decide
      rw [noPod_iff.1 hnone front line back heq] at hpod
      cases hpod
  exact ⟨ht, apply_apply_deployment hproject rfl ht⟩

/-- The first run drops the pull policy between the manager's own context and the service account,
and takes away the context inside the resources, which stands before it. So the second run takes
the manager's own context for that of the pod. -/
theorem apply_apply_nested_context :
    let t := ofLines ["- name: manager".toList, "  image: x".toList, "  resources:".toList,
      "    securityContext:".toList, "    serviceAccountName:".toList, "  securityContext:".toList,
      "  imagePullPolicy: Always".toList, "  serviceAccountName: sa".toList, []]
    IsPlainProject "demo".toList ∧ ¬ "\x7b\x7b".toList <:+: t ∧
      ¬ ".Values.controllerManager".toList <:+: t ∧ IsShaped (lines t) ∧ PoliciesStop (lines t) ∧
      podCount (lines t) ≤ 1 ∧
      ∃ out, apply ⟨"demo".toList⟩ ⟨"Deployment".toList, [], [], []⟩ t = .ok out ∧
        apply ⟨"demo".toList⟩ ⟨"Deployment".toList, [], [], []⟩ out ≠ .ok out := by
  intro t
  have hlines : lines t = ["- name: manager".toList, "  image: x".toList, "  resources:".toList,
      "    securityContext:".toList, "    serviceAccountName:".toList, "  securityContext:".toList,
      "  imagePullPolicy: Always".toList, "  serviceAccountName: sa".toList, []] :=
    lines_ofLines ⟨by decide, by decide⟩
  have hruns : (apply ⟨"demo".toList⟩ ⟨"Deployment".toList, [], [], []⟩ t >>= fun out =>
      (apply ⟨"demo".toList⟩ ⟨"Deployment".toList, [], [], []⟩ out).map (· == out)) =
        .ok false := by decide +kernel
  obtain ⟨out, hfirst, hsecond⟩ := exists_of_bind hruns
  refine ⟨⟨by decide, by decide, by decide⟩, hasInfix_eq_false_iff.1 (by decide +kernel),
    hasInfix_eq_false_iff.1 (by decide +kernel), ?_, ?_, ?_, out, hfirst, fun hout => ?_⟩
  · rw [hlines]
    decide
  · rw [hlines]
    decide
  · rw [hlines]
    decide
  · rw [hout, Except.map, beq_self_eq_true] at hsecond
    cases hsecond

end Templater

end OperatorChart
