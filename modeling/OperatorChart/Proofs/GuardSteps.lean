import OperatorChart.Proofs.GuardLines
/-!
# Steps over the lines of a guard

The lines that templating writes around a part of a document: each opens, divides or closes a
guard at the indentation that it stands behind. A guard around lines that keep the open guards
as they are keeps them as well.
-/

namespace OperatorChart

open Text

namespace Directive

theorem render_ifThen (e : Text) :
    (ifThen e).render = "\x7b\x7b- if ".toList ++ e ++ " \x7d\x7d".toList := rfl

theorem render_ifThen_blanks (e : Text) : (ifThen e).render =
    "\x7b\x7b- if".toList ++ ' ' :: (e ++ ' ' :: "\x7d\x7d".toList) := by
  rw [render_ifThen]
  simp only [List.append_assoc]
  rfl

theorem render_range (e : Text) :
    (range e).render = "\x7b\x7b- range ".toList ++ e ++ " \x7d\x7d".toList := rfl

theorem render_trimmedValue (e : Text) :
    (trimmedValue e).render = "\x7b\x7b- ".toList ++ e ++ " \x7d\x7d".toList := rfl

theorem exists_render_concat (directive : Directive) :
    ∃ rest, directive.render = rest ++ ['}'] := by
  have hbraces : ∀ s : Text, s ++ " \x7d\x7d".toList = (s ++ " \x7d".toList) ++ ['}'] := by
    intro s
    rw [List.append_assoc]
    rfl
  cases directive with
  | otherwise => exact ⟨"\x7b\x7b- else \x7d".toList, rfl⟩
  | close => exact ⟨"\x7b\x7b- end \x7d".toList, rfl⟩
  | ifThen e => exact ⟨_, hbraces _⟩
  | range e => exact ⟨_, hbraces _⟩
  | trimmedValue e => exact ⟨_, hbraces _⟩
  | value e => exact ⟨_, hbraces _⟩

theorem exists_render_cons (directive : Directive) :
    ∃ rest, directive.render = '{' :: rest := by
  cases directive <;> exact ⟨_, rfl⟩

end Directive

namespace Line

section Directive

variable {s : Text} (hs : ∀ c ∈ s, isIndentation c = true)

include hs in
theorem leading_directive (directive : Directive) : leading (s ++ directive.render) = s := by
  obtain ⟨rest, hrest⟩ := directive.exists_render_cons
  rw [hrest]
  exact leading_append hs rfl

include hs in
theorem indent_directive (directive : Directive) :
    indent (s ++ directive.render) = s.length := by
  rw [indent, leading_directive hs]

include hs in
theorem trimmed_directive (directive : Directive) :
    trimmed (s ++ directive.render) = directive.render := by
  obtain ⟨front, hend⟩ := directive.exists_render_concat
  obtain ⟨rest, hstart⟩ := directive.exists_render_cons
  have h := trim_between (fun c hc => isWhiteSpace_of_isIndentation (hs c hc)) isWhite_nil
    ⟨'{', rest, hstart, rfl⟩ ⟨front, '}', hend, rfl⟩
  rwa [List.append_nil] at h

include hs in
theorem isBlank_directive (directive : Directive) :
    isBlank (s ++ directive.render) = false := by
  obtain ⟨rest, hrest⟩ := directive.exists_render_cons
  rw [isBlank, trimmed_directive hs, hrest]
  rfl

include hs in
theorem role_ifThen (expression : Text) :
    role (s ++ (Directive.ifThen expression).render) = .ifThen := by
  rw [role, trimmed_directive hs, if_pos]
  rw [List.isPrefixOf_iff_prefix, Directive.render_ifThen, List.append_assoc]
  exact List.prefix_append _ _

include hs in
theorem role_range (expression : Text) :
    role (s ++ (Directive.range expression).render) = .range := by
  have hstart : "\x7b\x7b- range ".toList <+: (Directive.range expression).render := by
    rw [Directive.render_range, List.append_assoc]
    exact List.prefix_append _ _
  have hother : ¬ "\x7b\x7b- if ".toList <+: (Directive.range expression).render := by
    intro h
    exact absurd (List.prefix_of_prefix_length_le h hstart (by decide)) (by decide)
  rw [role, trimmed_directive hs, if_neg (by rwa [List.isPrefixOf_iff_prefix]),
    if_pos (by rwa [List.isPrefixOf_iff_prefix])]

include hs in
theorem role_otherwise : role (s ++ Directive.otherwise.render) = .otherwise := by
  rw [role, trimmed_directive hs]
  decide

include hs in
theorem role_close : role (s ++ Directive.close.render) = .close := by
  rw [role, trimmed_directive hs]
  decide

end Directive

theorem role_of_isItem {line : Line} (h : line.isItem = true) : line.role = .content := by
  have hdash : line.trimmed.head? = some '-' := by
    rw [isItem, Bool.or_eq_true, beq_iff_eq, List.isPrefixOf_iff_prefix] at h
    rcases h with h | ⟨rest, h⟩
    · rw [h]; rfl
    · rw [← h]; rfl
  obtain ⟨rest, hrest⟩ := List.head?_eq_some_iff.1 hdash
  rw [role, hrest, if_neg (by rw [Bool.not_eq_true]; rfl), if_neg (by rw [Bool.not_eq_true]; rfl),
    if_neg (by rintro ⟨⟩), if_neg (by rintro ⟨⟩)]

theorem not_isBlank_of_isItem {line : Line} (h : line.isItem = true) : line.isBlank = false := by
  rw [isBlank, List.isEmpty_eq_false_iff]
  intro hnil
  rw [isItem, hnil] at h
  cases h

end Line

namespace Nesting

/-- Whether no open guard is indented by more than `width`. -/
def IsWithin (stack : List Frame) (width : Nat) : Prop :=
  ∀ frame ∈ stack, frame.leading.length ≤ width

theorem isWithin_nil (width : Nat) : IsWithin [] width := by
  simp [IsWithin]

variable {blanks takesOther : Bool} {stack : List Frame} {line : Line} {s : Text}

theorem admits_iff : admits stack line = true ↔ IsWithin stack line.indent := by
  simp [admits, IsWithin]

theorem isWithin_cons (h : IsWithin stack s.length) :
    IsWithin (⟨takesOther, s⟩ :: stack) s.length :=
  List.forall_mem_cons.2 ⟨Nat.le_refl _, h⟩

theorem fits_iff (hblank : line.isBlank = false) :
    fits blanks stack line = true ↔ IsWithin stack line.indent := by
  rw [fits, hblank]
  exact admits_iff

theorem step_of_content (hrole : line.role = .content) (hblank : line.isBlank = false)
    (h : IsWithin stack line.indent) : step blanks stack line = some stack :=
  step_eq_some_iff.2 (.content hrole ((fits_iff hblank).2 h))

theorem isWithin_of_step (hrole : line.role = .content) (hblank : line.isBlank = false)
    {stack' : List Frame} (h : step blanks stack line = some stack') :
    stack' = stack ∧ IsWithin stack line.indent := by
  cases step_eq_some_iff.1 h with
  | opening hopens =>
      rcases hopens with ⟨hopens, -⟩ | ⟨hopens, -⟩ <;> cases hrole.symm.trans hopens
  | otherwise hdivides => cases hrole.symm.trans hdivides
  | close hcloses => cases hrole.symm.trans hcloses
  | content _ hfits => exact ⟨rfl, (fits_iff hblank).1 hfits⟩

section Directive

variable (hs : ∀ c ∈ s, isIndentation c = true)

include hs in
theorem step_ifThen (expression : Text) (h : IsWithin stack s.length) :
    step blanks stack (s ++ (Directive.ifThen expression).render) =
      some (⟨true, s⟩ :: stack) := by
  have hadmits : admits stack (s ++ (Directive.ifThen expression).render) = true := by
    rwa [admits_iff, Line.indent_directive hs]
  rw [step.eq_def, Line.role_ifThen hs, Line.leading_directive hs]
  exact if_pos hadmits

include hs in
theorem step_range (expression : Text) (h : IsWithin stack s.length) :
    step blanks stack (s ++ (Directive.range expression).render) =
      some (⟨false, s⟩ :: stack) := by
  have hadmits : admits stack (s ++ (Directive.range expression).render) = true := by
    rwa [admits_iff, Line.indent_directive hs]
  rw [step.eq_def, Line.role_range hs, Line.leading_directive hs]
  exact if_pos hadmits

include hs in
theorem step_otherwise : step blanks (⟨true, s⟩ :: stack) (s ++ Directive.otherwise.render) =
    some (⟨false, s⟩ :: stack) := by
  rw [step.eq_def, Line.role_otherwise hs, Line.leading_directive hs]
  exact if_pos rfl

include hs in
theorem step_close : step blanks (⟨takesOther, s⟩ :: stack) (s ++ Directive.close.render) =
    some stack := by
  rw [step.eq_def, Line.role_close hs, Line.leading_directive hs]
  exact if_pos rfl

include hs in
/-- A guard around lines that keep the open guards keeps them. -/
theorem scan_guard (condition : Condition) {body : List Line} (h : IsWithin stack s.length)
    (hbody : scan blanks (⟨true, s⟩ :: stack) body = some (⟨true, s⟩ :: stack)) :
    scan blanks stack (condition.guard s body) = some stack := by
  rw [Condition.guard, Condition.opening, scan, step_ifThen hs _ h, Option.bind_some, scan_append,
    hbody, Option.bind_some, scan, step_close hs]
  rfl

end Directive

end Nesting

end OperatorChart
