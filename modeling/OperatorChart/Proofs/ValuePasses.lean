import OperatorChart.Proofs.ImagePass
/-!
# The passes over the values of a deployment

After the passes over the image and the fields, each of them would find its own output. So they
leave every document alone in which that is still so.
-/

namespace OperatorChart

open Text

/-- Whether the manager's image and fields, and the pod's security context, are settled. -/
structure ValuesSettled (ls : List Line) : Prop where
  image : KeySettled "image".toList imageSettled ls
  env : KeySettled Values.env.key Values.env.IsSettled ls
  has_env : ManagerHas Values.env.key ls
  pod : PodSettled ls
  context : KeySettled Values.containerSecurityContext.key contextSettled ls
  resources : KeySettled Values.resources.key Values.resources.IsSettled ls

/-- Whether a move keeps the manager's keys but for one, and the contexts of pods. -/
structure Spares (touched : Text) (above old new after : List Line) : Prop extends
    IsMove above old new after where
  quiet : ∀ key ∈ managedKeys, key ≠ touched → Quiet key above old new after
  noPod_old : NoPod old after
  noPod_new : NoPod new after

theorem ValuesSettled.move {above old new after : List Line}
    (h : Spares "args".toList above old new after)
    (hsettled : ValuesSettled (above ++ (old ++ after))) :
    ValuesSettled (above ++ (new ++ after)) := by
  have hkey : ∀ key ∈ managedKeys, key ≠ "args".toList → ∀ settled, IsStable key settled →
      KeySettled key settled (above ++ (old ++ after)) →
      KeySettled key settled (above ++ (new ++ after)) :=
    fun key hkey hne settled hstable hsettled =>
      hsettled.move h.toIsMove (h.quiet key hkey hne) (hstable h.toIsMove)
  refine ⟨?_, ?_, ?_, hsettled.pod.move h.toIsMove h.noPod_old h.noPod_new, ?_, ?_⟩
  · exact hkey _ (by decide) (by decide) _ (isStable_imageSettled _) hsettled.image
  · exact hkey _ (by decide) (by decide) _ (isStable_isSettled _ _) hsettled.env
  · exact hsettled.has_env.move h.toIsMove (h.quiet _ (by decide) (by decide))
  · exact hkey _ (by decide) (by decide) _ isStable_contextSettled hsettled.context
  · exact hkey _ (by decide) (by decide) _ (isStable_isSettled _ _) hsettled.resources

namespace Deployment

variable {ls : List Line}

theorem exists_fillValues (hready : IsReady lookupPaths ls) (hpolicies : PoliciesStop ls) :
    ∃ ls', fillValues ls = .ok ls' ∧ IsReady [Values.argsPath] ls' ∧ ValuesSettled ls' := by
  obtain ⟨ls₁, himage, hready₁, hsettled₁⟩ := Values.exists_fillImage hready hpolicies
  obtain ⟨ls₂, henv, hedits₂, hsettled₂, hhas₂⟩ :=
    Values.exists_fillEnv (by decide) (by decide) hready₁
  obtain ⟨ls₃, hpod, hedits₃, hsettled₃⟩ :=
    Values.exists_fillPodSecurityContext (by decide) (by decide) hedits₂.ready
  obtain ⟨ls₄, hcontext, hedits₄, hsettled₄, hpod₄⟩ :=
    Values.exists_fillContainerSecurityContext (by decide) (by decide) hedits₃.ready
  obtain ⟨ls₅, hresources, hedits₅, hsettled₅, hpod₅⟩ :=
    Values.exists_fillResources (by decide) (by decide) hedits₄.ready
  refine ⟨ls₅, ?_, hedits₅.ready, ?_, ?_, ?_, hpod₅ (hpod₄ hsettled₃), ?_, hsettled₅⟩
  · rw [fillValues, himage]
    change (Values.fillEnv ls₁ >>= _) = _
    rw [henv]
    change (Values.fillPodSecurityContext ls₂ >>= _) = _
    rw [hpod]
    change (Values.fillContainerSecurityContext ls₃ >>= _) = _
    rw [hcontext]
    exact hresources
  · exact hedits₅.settled _ (by decide) (by decide) _ (isStable_imageSettled _)
      (hedits₄.settled _ (by decide) (by decide) _ (isStable_imageSettled _)
        (hedits₃.settled _ (by decide) (by decide) _ (isStable_imageSettled _)
          (hedits₂.settled _ (by decide) (by decide) _ (isStable_imageSettled _) hsettled₁)))
  · exact hedits₅.settled _ (by decide) (by decide) _ (isStable_isSettled _ _)
      (hedits₄.settled _ (by decide) (by decide) _ (isStable_isSettled _ _)
        (hedits₃.settled _ (by decide) (by decide) _ (isStable_isSettled _ _) hsettled₂))
  · exact hedits₅.has _ (by decide) (by decide) (hedits₄.has _ (by decide) (by decide)
      (hedits₃.has _ (by decide) (by decide) hhas₂))
  · exact hedits₅.settled _ (by decide) (by decide) _ isStable_contextSettled hsettled₄

end Deployment

/-! ## Passes that find their own output -/

namespace Values

variable {ls : List Line}

theorem fillImage_of_settled (hnamed : NamedOnce ls)
    (h : KeySettled "image".toList imageSettled ls) : fillImage ls = .ok ls := by
  cases hmanager : Container.manager? ls with
  | none => rw [fillImage, hmanager]
  | some container =>
      rw [fillImage, hmanager]
      dsimp only
      rcases exists_isFirstKey hnamed "image".toList with hnone | ⟨before, line, after, rfl, hfirst⟩
      · rw [hmanager, Option.bind_some] at hnone
        rw [hnone]
      · have hfound := hfirst.key?_eq hnamed
        rw [hmanager, Option.bind_some] at hfound
        rw [hfound]
        dsimp only
        rw [lineAt_length, if_pos (hasInfix_iff.2 (h before line after rfl hfirst))]

theorem fillEnv_of_settled (hnamed : NamedOnce ls) (h : KeySettled env.key env.IsSettled ls)
    (hhas : ManagerHas env.key ls) : fillEnv ls = .ok ls := by
  cases hmanager : Container.manager? ls with
  | none => rw [fillEnv, hmanager]
  | some container =>
      obtain ⟨start, dash, inner, behind, hmanages, -⟩ := Container.exists_manages hmanager
      obtain ⟨l, hl, hdirect⟩ := hhas start dash inner behind hmanages
      rcases exists_first (Line.isDirect dash.column env.key) (dash :: inner) with
        hnone | ⟨front, line, back, hitem, hfront, hline⟩
      · rw [hnone l hl] at hdirect
        cases hdirect
      · obtain ⟨rfl, hplace⟩ := InManager.of_manages hmanages hitem
        have hfirst : IsFirstKey env.key (start ++ front) line (back ++ behind) :=
          ⟨dash.column, front, hplace, hfront, hline⟩
        have hfound := hfirst.key?_eq hnamed
        rw [hmanager, Option.bind_some] at hfound
        rw [fillEnv, hmanager]
        dsimp only
        rw [hfound]
        dsimp only
        rw [ValuesField.fill, if_pos (env.found_of_isSettled _ (h _ line _ rfl hfirst))]

theorem fillContainerSecurityContext_of_settled (hnamed : NamedOnce ls)
    (h : KeySettled containerSecurityContext.key contextSettled ls) :
    fillContainerSecurityContext ls = .ok ls := by
  rcases exists_isFirstKey hnamed containerSecurityContext.key with
    hnone | ⟨before, line, after, rfl, hfirst⟩
  · rw [fillContainerSecurityContext, hnone]
  · rw [fillContainerSecurityContext, hfirst.key?_eq hnamed]
    dsimp only
    rw [isBeforeServiceAccount_around]
    rcases h before line after rfl hfirst with haccount | hsettled
    · rw [if_pos haccount]
    · split
      · rfl
      · rw [ValuesField.fill, if_pos (containerSecurityContext.found_of_isSettled _ hsettled)]

theorem fillResources_of_settled (hnamed : NamedOnce ls)
    (h : KeySettled resources.key resources.IsSettled ls) : fillResources ls = .ok ls := by
  rcases exists_isFirstKey hnamed resources.key with hnone | ⟨before, line, after, rfl, hfirst⟩
  · rw [fillResources, hnone]
  · rw [fillResources, hfirst.key?_eq hnamed]
    dsimp only
    rw [ValuesField.fill, if_pos (resources.found_of_isSettled _ (h before line after rfl hfirst))]

end Values

theorem Deployment.fillValues_of_settled {ls : List Line} (hnamed : NamedOnce ls)
    (h : ValuesSettled ls) : fillValues ls = .ok ls := by
  have himage := Values.fillImage_of_settled hnamed h.image
  have henv := Values.fillEnv_of_settled hnamed h.env h.has_env
  have hpod := Values.fillPodSecurityContext_of_settled h.pod
  have hcontext := Values.fillContainerSecurityContext_of_settled hnamed h.context
  have hresources := Values.fillResources_of_settled hnamed h.resources
  rw [fillValues, himage]
  change (Values.fillEnv ls >>= _) = _
  rw [henv]
  change (Values.fillPodSecurityContext ls >>= _) = _
  rw [hpod]
  change (Values.fillContainerSecurityContext ls >>= _) = _
  rw [hcontext]
  exact hresources

end OperatorChart
