import OperatorChart.BlankRuns
import OperatorChart.Line
/-!
# Nesting of guards

Guards are brackets around lines. They are well nested when every opening line has a closing
line at the same indentation behind it, an alternative stands in the guard that it belongs to,
and no line inside of a guard is indented less than the guard. A scan with a stack of open
guards decides this from the first line to the last. Main statement: lines that the scan
accepts are well nested.
-/

namespace OperatorChart

inductive GuardRole
  | ifThen
  | range
  | otherwise
  | close
  | content
  deriving DecidableEq, Repr

/-- What a line says about guards, whatever white space stands around it. -/
def Line.role (line : Line) : GuardRole :=
  if "\x7b\x7b- if ".toList.isPrefixOf line.trimmed then .ifThen
  else if "\x7b\x7b- range ".toList.isPrefixOf line.trimmed then .range
  else if line.trimmed = Directive.otherwise.render then .otherwise
  else if line.trimmed = Directive.close.render then .close
  else .content

/-- Whether lines are well nested: each line by itself, a guard with its body, or a guard with
two alternatives, one after another. -/
inductive WellNested : List Line → Prop
  | nil : WellNested []
  | content {line : Line} {rest : List Line} (hline : line.role = .content)
      (hrest : WellNested rest) : WellNested (line :: rest)
  | guarded {opening closing : Line} {body rest : List Line}
      (hopening : opening.role = .ifThen ∨ opening.role = .range)
      (hclosing : closing.role = .close) (hleading : closing.leading = opening.leading)
      (hinside : ∀ line ∈ body, line.isBlank = false → opening.indent ≤ line.indent)
      (hbody : WellNested body) (hrest : WellNested rest) :
      WellNested (opening :: (body ++ closing :: rest))
  | alternative {opening middle closing : Line} {body body' rest : List Line}
      (hopening : opening.role = .ifThen) (hmiddle : middle.role = .otherwise)
      (hclosing : closing.role = .close) (hleading : closing.leading = opening.leading)
      (hmiddleLeading : middle.leading = opening.leading)
      (hinside : ∀ line ∈ body ++ body', line.isBlank = false → opening.indent ≤ line.indent)
      (hbody : WellNested body) (hbody' : WellNested body') (hrest : WellNested rest) :
      WellNested (opening :: (body ++ middle :: (body' ++ closing :: rest)))

/-! ## Scanning -/

namespace Nesting

structure Frame where
  /-- Whether an alternative may still come. -/
  takesOther : Bool
  leading : Text
  deriving DecidableEq, Repr

def admits (stack : List Frame) (line : Line) : Bool :=
  stack.all (·.leading.length ≤ line.indent)

/-- Whether a line may stand in open guards. `blanks` says whether a blank line may. -/
def fits (blanks : Bool) (stack : List Frame) (line : Line) : Bool :=
  if line.isBlank then blanks || stack.isEmpty else admits stack line

/-- The open guards behind a line, given those before it. -/
def step (blanks : Bool) (stack : List Frame) (line : Line) : Option (List Frame) :=
  match line.role, stack with
  | .ifThen, stack =>
    if admits stack line then some (⟨true, line.leading⟩ :: stack) else none
  | .range, stack =>
    if admits stack line then some (⟨false, line.leading⟩ :: stack) else none
  | .otherwise, ⟨true, leading⟩ :: stack =>
    if leading = line.leading then some (⟨false, leading⟩ :: stack) else none
  | .otherwise, _ => none
  | .close, frame :: stack => if frame.leading = line.leading then some stack else none
  | .close, [] => none
  | .content, stack =>
    if fits blanks stack line then some stack else none

/-- What a line does to the open guards: it opens a further one, divides or closes the last one, or
stands in all of them. -/
inductive Steps (blanks : Bool) (line : Line) : List Frame → List Frame → Prop
  | opening {takesOther : Bool} {stack : List Frame}
      (hrole : (line.role = .ifThen ∧ takesOther = true) ∨
        (line.role = .range ∧ takesOther = false))
      (hadmits : admits stack line = true) :
      Steps blanks line stack (⟨takesOther, line.leading⟩ :: stack)
  | otherwise {stack : List Frame} (hrole : line.role = .otherwise) :
      Steps blanks line (⟨true, line.leading⟩ :: stack) (⟨false, line.leading⟩ :: stack)
  | close {frame : Frame} {stack : List Frame} (hrole : line.role = .close)
      (hleading : frame.leading = line.leading) : Steps blanks line (frame :: stack) stack
  | content {stack : List Frame} (hrole : line.role = .content)
      (hfits : fits blanks stack line = true) : Steps blanks line stack stack

/-- The open guards behind lines, given those before them. -/
def scan (blanks : Bool) : List Frame → List Line → Option (List Frame)
  | stack, [] => some stack
  | stack, line :: rest => (step blanks stack line).bind (scan blanks · rest)

variable {blanks : Bool} {stack stack' : List Frame} {line : Line} {ls ls' : List Line}

theorem step_eq_some_iff :
    step blanks stack line = some stack' ↔ Steps blanks line stack stack' := by
  constructor
  · intro h
    unfold step at h
    split at h
    · rename_i hrole
      split at h <;> cases h
      rename_i hadmits
      exact .opening (.inl ⟨hrole, rfl⟩) hadmits
    · rename_i hrole
      split at h <;> cases h
      rename_i hadmits
      exact .opening (.inr ⟨hrole, rfl⟩) hadmits
    · rename_i hrole
      split at h <;> cases h
      rename_i hleading
      subst hleading
      exact .otherwise hrole
    · cases h
    · rename_i hrole
      split at h <;> cases h
      rename_i hleading
      exact .close hrole hleading
    · cases h
    · rename_i hrole
      split at h <;> cases h
      rename_i hfits
      exact .content hrole hfits
  · intro h
    cases h with
    | opening hrole hadmits =>
        rcases hrole with ⟨hrole, rfl⟩ | ⟨hrole, rfl⟩ <;> rw [step.eq_def, hrole] <;>
          exact if_pos hadmits
    | otherwise hrole =>
        rw [step.eq_def, hrole]
        exact if_pos rfl
    | close hrole hleading =>
        rw [step.eq_def, hrole]
        exact if_pos hleading
    | content hrole hfits =>
        rw [step.eq_def, hrole]
        exact if_pos hfits

theorem scan_append (blanks : Bool) (stack : List Frame) (ls ls' : List Line) :
    scan blanks stack (ls ++ ls') = (scan blanks stack ls).bind (scan blanks · ls') := by
  induction ls generalizing stack with
  | nil => rfl
  | cons line rest ih =>
      rw [List.cons_append, scan, scan]
      cases step blanks stack line with
      | none => rfl
      | some stack' => exact ih stack'

/-! ## What the scan accepts -/

def Frame.IsBody (frame : Frame) (ls : List Line) : Prop :=
  (∀ line ∈ ls, line.isBlank = false → frame.leading.length ≤ line.indent) ∧
    (WellNested ls ∨ (frame.takesOther = true ∧ ∃ body middle body',
      ls = body ++ middle :: body' ∧ middle.role = .otherwise ∧ middle.leading = frame.leading ∧
        WellNested body ∧ WellNested body'))

/-- Whether lines close all open guards, one after another, and are well nested otherwise. -/
def Closes : List Frame → List Line → Prop
  | [], ls => WellNested ls
  | frame :: stack, ls => ∃ body closing rest, ls = body ++ closing :: rest ∧
      frame.IsBody body ∧ closing.role = .close ∧ closing.leading = frame.leading ∧
      Closes stack rest

/-- Whether lines may stand in front of well nested ones. -/
def Prepends (chunk : List Line) : Prop :=
  ∀ rest, WellNested rest → WellNested (chunk ++ rest)

theorem isBody_append {frame : Frame} {chunk body : List Line} (hchunk : Prepends chunk)
    (hinside : ∀ line ∈ chunk, line.isBlank = false → frame.leading.length ≤ line.indent)
    (hbody : frame.IsBody body) : frame.IsBody (chunk ++ body) := by
  obtain ⟨hlines, hnested⟩ := hbody
  constructor
  · intro line hline
    rcases List.mem_append.1 hline with hline | hline
    · exact hinside line hline
    · exact hlines line hline
  · rcases hnested with hnested | ⟨htakes, front, middle, back, rfl, hrole, hlead, hfront, hback⟩
    · exact .inl (hchunk body hnested)
    · refine .inr ⟨htakes, chunk ++ front, middle, back, ?_, hrole, hlead, hchunk front hfront,
        hback⟩
      rw [List.append_assoc]

theorem closes_append {chunk : List Line} (hchunk : Prepends chunk)
    (hinside : ∀ frame ∈ stack, ∀ line ∈ chunk, line.isBlank = false →
      frame.leading.length ≤ line.indent)
    (h : Closes stack ls) : Closes stack (chunk ++ ls) := by
  cases stack with
  | nil => exact hchunk ls h
  | cons frame stack =>
      obtain ⟨body, closing, rest, rfl, hbody, hrest⟩ := h
      refine ⟨chunk ++ body, closing, rest, (List.append_assoc _ _ _).symm, ?_, hrest⟩
      exact isBody_append hchunk (hinside frame List.mem_cons_self) hbody

theorem of_admits (h : admits stack line = true) {frame : Frame} (hframe : frame ∈ stack) :
    frame.leading.length ≤ line.indent := by
  simpa using List.all_eq_true.1 h frame hframe

theorem closes_opening {frame : Frame} (hadmits : admits stack line = true)
    (hleading : frame.leading = line.leading)
    (hrole : (line.role = .ifThen ∧ frame.takesOther = true) ∨
      (line.role = .range ∧ frame.takesOther = false))
    (h : Closes (frame :: stack) ls) : Closes stack (line :: ls) := by
  obtain ⟨body, closing, rest, rfl, ⟨hinside, hnested⟩, hclose, hlead, hrest⟩ := h
  have hindent : frame.leading.length = line.indent := by
    rw [hleading]
    rfl
  have hchunk : Prepends (line :: (body ++ [closing])) := by
    intro tail htail
    have hclosing : closing.leading = line.leading := hlead.trans hleading
    rw [hindent] at hinside
    rcases hnested with hnested | ⟨htakes, front, middle, back, rfl, hmiddle, hmlead, hfront, hback⟩
    · have hopening : line.role = .ifThen ∨ line.role = .range :=
        hrole.imp (fun h => h.1) (fun h => h.1)
      simpa using WellNested.guarded hopening hclose hclosing hinside hnested htail
    · have hopening : line.role = .ifThen := by
        rcases hrole with ⟨hrole, -⟩ | ⟨-, hfalse⟩
        · exact hrole
        · rw [htakes] at hfalse
          cases hfalse
      have hbodies : ∀ l ∈ front ++ back, l.isBlank = false → line.indent ≤ l.indent := by
        intro l hl
        apply hinside
        rcases List.mem_append.1 hl with hl | hl
        · exact List.mem_append_left _ hl
        · exact List.mem_append_right _ (List.mem_cons_of_mem _ hl)
      simpa using WellNested.alternative hopening hmiddle hclose hclosing
        (hmlead.trans hleading) hbodies hfront hback htail
  have hall : ∀ l ∈ line :: (body ++ [closing]), l.isBlank = false → line.indent ≤ l.indent := by
    intro l hl hblank
    simp only [List.mem_cons, List.mem_append, List.not_mem_nil, or_false] at hl
    rcases hl with rfl | hl | rfl
    · exact Nat.le_refl _
    · rw [← hindent]
      exact hinside l hl hblank
    · exact Nat.le_of_eq (by rw [Line.indent, Line.indent, hlead, hleading])
  have heq : line :: (body ++ closing :: rest) = line :: (body ++ [closing]) ++ rest := by simp
  rw [heq]
  exact closes_append hchunk
    (fun f hf l hl hblank => Nat.le_trans (of_admits hadmits hf) (hall l hl hblank)) hrest

theorem closes_otherwise {leading : Text} (hrole : line.role = .otherwise)
    (hleading : leading = line.leading) (h : Closes (⟨false, leading⟩ :: stack) ls) :
    Closes (⟨true, leading⟩ :: stack) (line :: ls) := by
  obtain ⟨body, closing, rest, rfl, ⟨hinside, hnested⟩, hclose⟩ := h
  have hbody : WellNested body := by
    rcases hnested with hnested | ⟨hfalse, -⟩
    · exact hnested
    · cases hfalse
  refine ⟨line :: body, closing, rest, rfl, ⟨?_, .inr ⟨rfl, [], line, body, rfl, hrole,
    hleading.symm, .nil, hbody⟩⟩, hclose⟩
  intro l hl hblank
  rcases List.mem_cons.1 hl with rfl | hl
  · rw [hleading]
    exact Nat.le_refl _
  · exact hinside l hl hblank

theorem closes_content (hrole : line.role = .content)
    (hadmits : line.isBlank = false → admits stack line = true) (h : Closes stack ls) :
    Closes stack (line :: ls) := by
  have hchunk : Prepends [line] := fun _ htail => .content hrole htail
  apply closes_append hchunk _ h
  intro frame hframe l hl hblank
  rw [List.mem_singleton] at hl
  subst hl
  exact of_admits (hadmits hblank) hframe

theorem closes_step (hstep : step blanks stack line = some stack') (h : Closes stack' ls) :
    Closes stack (line :: ls) := by
  cases step_eq_some_iff.1 hstep with
  | opening hrole hadmits => exact closes_opening hadmits rfl hrole h
  | otherwise hrole => exact closes_otherwise hrole rfl h
  | close hrole hleading =>
      exact ⟨[], line, ls, rfl, ⟨by simp, .inl .nil⟩, hrole, hleading.symm, h⟩
  | content hrole hfits =>
      refine closes_content hrole (fun hblank => ?_) h
      rwa [fits, hblank] at hfits

theorem closes_of_scan (h : scan blanks stack ls = some []) : Closes stack ls := by
  induction ls generalizing stack with
  | nil =>
      rw [scan, Option.some.injEq] at h
      subst h
      exact .nil
  | cons line rest ih =>
      rw [scan] at h
      cases hstep : step blanks stack line with
      | none => rw [hstep] at h; cases h
      | some stack' =>
          rw [hstep] at h
          exact closes_step hstep (ih h)

/-- Lines that the scan accepts are well nested. -/
theorem wellNested_of_scan (h : scan blanks [] ls = some []) : WellNested ls :=
  closes_of_scan h

end Nesting

end OperatorChart
