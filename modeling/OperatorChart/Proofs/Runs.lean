import OperatorChart.Proofs.WrapStability
import OperatorChart.Templater
/-!
# Runs of the passes

For every resource other than a deployment, templating is the guard of the whole resource, the
substitutions of names on each line, and the removal of blank lines next to guards.
-/

namespace OperatorChart

/-! ## Computations that may fail -/

section Results

variable {α β δ ε : Type}

theorem exists_of_bind {x : Except ε α} {f : α → Except ε β} {b : β} (h : x >>= f = .ok b) :
    ∃ a, x = .ok a ∧ f a = .ok b := by
  cases x with
  | error e => cases h
  | ok a => exact ⟨a, rfl, h⟩

theorem eq_of_mapError {x : Except ε α} {f : ε → δ} {a : α} (h : x.mapError f = .ok a) :
    x = .ok a := by
  cases x with
  | error e => cases h
  | ok b =>
      cases h
      rfl

end Results

/-! ## Resources other than deployments -/

namespace Templater

open Text Naming

variable {project : Text} {resource : Resource}

theorem isKind_exclusive {kind : ResourceKind} (h : resource.isKind kind = true)
    (kind' : ResourceKind) (hne : kind.text ≠ kind'.text) : resource.isKind kind' = false := by
  rw [Resource.isKind, beq_iff_eq] at h
  rw [Resource.isKind, h]
  simpa using hne

theorem runAll_fill (project : Text) (resource : Resource) (rest : List Pass) (t : Text) :
    Pass.runAll ⟨resource, project⟩
        (((Pass.all.drop 1).take 5).filter (·.scope.includes resource) ++ rest) t =
      Pass.runAll ⟨resource, project⟩ rest (fill project resource t) := by
  unfold fill fillKind
  simp only [Pass.all, List.drop_succ_cons, List.drop_zero, List.take_succ_cons, List.take_zero,
    Pass.ofText, List.filter_cons, List.filter_nil, PassScope.includes, if_true]
  cases hcertificate : resource.isKind .certificate with
  | true =>
      have hissuer := isKind_exclusive hcertificate .issuer (by decide)
      have hmonitor := isKind_exclusive hcertificate .serviceMonitor (by decide)
      rw [hissuer, hmonitor]
      rfl
  | false =>
      cases hissuer : resource.isKind .issuer with
      | true =>
          have hmonitor := isKind_exclusive hissuer .serviceMonitor (by decide)
          rw [hmonitor]
          rfl
      | false => cases resource.isKind .serviceMonitor <;> rfl

theorem apply_eq_settle (hkind : resource.isKind .deployment = false) (t : Text) :
    apply ⟨project⟩ resource t =
      .ok (Wrap.settle project resource (Wrap.apply resource t)) := by
  -- of the passes behind the names, only the last is not for deployments alone
  have hedits : (Pass.all.drop 6).filter (·.scope.includes resource) = Pass.all.drop 17 := by
    simp only [Pass.all, List.drop_succ_cons, List.drop_zero, Pass.ofText, Pass.ofEdit,
      Pass.ofLines, List.filter_cons, List.filter_nil, PassScope.includes, hkind, if_true,
      Bool.false_eq_true, if_false]
  have hpasses : Pass.forResource resource = Pass.all.take 1 ++
      (((Pass.all.drop 1).take 5).filter (·.scope.includes resource) ++ Pass.all.drop 17) := by
    rw [← hedits, ← List.filter_append]
    rfl
  rw [apply, hpasses]
  exact runAll_fill project resource (Pass.all.drop 17) (Wrap.apply resource t)

end Templater

end OperatorChart
