import OperatorChart.Proofs.BuildNames
import OperatorChart.Proofs.WrittenLines
/-!
# Lines that end with a carriage return

The edits look at a line through its indentation, its trimmed content and a few words. None of these
depends on a carriage return at the end, so with one a line resembles the line without it. A label
that names the build tool resembles the label that names the release, too.
-/

namespace OperatorChart

open Text

/-! ## White space at the end -/

namespace Text

theorem takeBytes?_append_of_le {n : Nat} {s : Text} (h : n ≤ byteLength s) (t : Text) :
    takeBytes? n (s ++ t) = takeBytes? n s := by
  induction s generalizing n with
  | nil =>
      obtain rfl := Nat.le_zero.1 h
      cases t <;> rfl
  | cons c s ih =>
      cases n with
      | zero => rfl
      | succ n =>
          rw [byteLength_cons] at h
          rw [List.cons_append, takeBytes?, takeBytes?, ih (by omega)]

end Text

namespace Line

/-! ## Lines that edits do not tell apart -/

/-- The words that edits look for anywhere in a line. -/
def probedWords : List Text :=
  ["\x7b\x7b- if ".toList, Directive.close.render] ++ lookupPaths

/-- Whether the edits of a deployment, and the removal of blank lines, do not tell two lines apart:
the indentation, the marker, the keys and the values that they ask for are the same, and so are the
probed words and what stands before a key. -/
structure Resembles (line line' : Line) : Prop where
  leading : line.leading = line'.leading
  marker : line.marker = line'.marker
  isBlank : line.isBlank = line'.isBlank
  isItem : line.isItem = line'.isItem
  isDirective : line.isDirective = line'.isDirective
  isComment : line.isComment = line'.isComment
  hasKey : ∀ key, line.hasKey key = line'.hasKey key
  isEntry : ∀ key value, key ≠ Naming.managedByKey →
    line.isEntry key value = line'.isEntry key value
  content : line.isItem = true → line.content = line'.content
  opens : ∀ condition : Condition,
    condition.isOpenedBy (some line) = condition.isOpenedBy (some line')
  probed : ∀ w ∈ probedWords, hasInfix w line = hasInfix w line'
  start : takeBytes? line.column line = takeBytes? line'.column line'

section Resembles

variable {line line' line'' : Line}

theorem Resembles.refl (line : Line) : line.Resembles line :=
  ⟨rfl, rfl, rfl, rfl, rfl, rfl, fun _ => rfl, fun _ _ _ => rfl, fun _ => rfl, fun _ => rfl,
    fun _ _ => rfl, rfl⟩

theorem Resembles.trans (h : line.Resembles line') (h' : line'.Resembles line'') :
    line.Resembles line'' where
  leading := h.leading.trans h'.leading
  marker := h.marker.trans h'.marker
  isBlank := h.isBlank.trans h'.isBlank
  isItem := h.isItem.trans h'.isItem
  isDirective := h.isDirective.trans h'.isDirective
  isComment := h.isComment.trans h'.isComment
  hasKey key := (h.hasKey key).trans (h'.hasKey key)
  isEntry key value hkey := (h.isEntry key value hkey).trans (h'.isEntry key value hkey)
  content hitem := (h.content hitem).trans (h'.content (h.isItem ▸ hitem))
  opens condition := (h.opens condition).trans (h'.opens condition)
  probed w hw := (h.probed w hw).trans (h'.probed w hw)
  start := h.start.trans h'.start

theorem Resembles.symm (h : line.Resembles line') : line'.Resembles line where
  leading := h.leading.symm
  marker := h.marker.symm
  isBlank := h.isBlank.symm
  isItem := h.isItem.symm
  isDirective := h.isDirective.symm
  isComment := h.isComment.symm
  hasKey key := (h.hasKey key).symm
  isEntry key value hkey := (h.isEntry key value hkey).symm
  content hitem := (h.content (h.isItem.trans hitem)).symm
  opens condition := (h.opens condition).symm
  probed w hw := (h.probed w hw).symm
  start := h.start.symm

theorem Resembles.indent (h : line.Resembles line') : line.indent = line'.indent :=
  congrArg List.length h.leading

theorem Resembles.column (h : line.Resembles line') : line.column = line'.column := by
  rw [Line.column, Line.column, h.indent, h.marker]

/-- What is trimmed and what indents a line determine all else but what stands in the line. -/
theorem resembles_of_trimmed (htrimmed : line.trimmed = line'.trimmed)
    (hleading : line.leading = line'.leading)
    (hprobed : ∀ w ∈ probedWords, hasInfix w line = hasInfix w line')
    (hstart : takeBytes? line.column line = takeBytes? line'.column line') :
    line.Resembles line' := by
  have hitem : line.isItem = line'.isItem := by rw [Line.isItem, Line.isItem, htrimmed]
  have hcontent : line.content = line'.content := by
    rw [Line.content, Line.content, hitem, htrimmed]
  constructor
  case leading => exact hleading
  case marker => rw [Line.marker, Line.marker, hitem, htrimmed]
  case isBlank => rw [Line.isBlank, Line.isBlank, htrimmed]
  case isItem => exact hitem
  case isDirective => rw [Line.isDirective, Line.isDirective, htrimmed]
  case isComment => rw [Line.isComment, Line.isComment, htrimmed]
  case hasKey => intro key; rw [Line.hasKey, Line.hasKey, hcontent]
  case isEntry => intro key value _; rw [Line.isEntry, Line.isEntry, hcontent]
  case content => exact fun _ => hcontent
  case opens =>
    intro condition
    rw [Condition.isOpenedBy, Condition.isOpenedBy, htrimmed]
  case probed => exact hprobed
  case start => exact hstart

end Resembles

/-! ## A carriage return -/

theorem trimmed_return (line : Line) : trimmed (line ++ ['\r']) = line.trimmed :=
  trim_append (List.forall_mem_singleton.2 rfl)

theorem leading_return (line : Line) : leading (line ++ ['\r']) = line.leading := by
  rw [leading, leading, List.takeWhile_append]
  split
  · rename_i hall
    have hstop : ['\r'].takeWhile isIndentation = [] := rfl
    rw [hstop, List.append_nil, (List.takeWhile_prefix _).eq_of_length hall]
  · rfl

theorem column_le_byteLength (line : Line) : line.column ≤ byteLength line := by
  by_cases hblank : line.isBlank = true
  · have hmarker : line.marker = [] := by
      rw [marker, if_neg]
      rw [isItem, List.isEmpty_iff.1 hblank]
      decide
    have hle := byteLength_mono (List.takeWhile_prefix isIndentation (l := line))
    rw [column, hmarker, ← byteLength_leading]
    exact hle
  · have hsolid : line.isBlank = false := by simpa using hblank
    obtain ⟨s, s', -, hline, hleading⟩ := exists_parts hsolid
    exact (column_le hleading).trans (byteLength_mono ⟨_, hline.symm⟩)

theorem resembles_return (line : Line) : Resembles (line ++ ['\r']) line := by
  apply resembles_of_trimmed (trimmed_return line) (leading_return line)
  · intro w hw
    have hwords : ∀ w ∈ probedWords, w ≠ [] ∧ '\r' ∉ w := by decide
    obtain ⟨hne, hreturn⟩ := hwords w hw
    rw [Bool.eq_iff_iff, hasInfix_iff, hasInfix_iff]
    constructor
    · intro h
      rcases infix_append_cons hreturn h with h | h
      · exact h
      · exact absurd (List.infix_nil.1 h) hne
    · exact fun h => h.trans (List.prefix_append line ['\r']).isInfix
  · have hmarker : marker (line ++ ['\r']) = line.marker := by
      rw [marker, marker, isItem, isItem, trimmed_return]
    have hcolumn : column (line ++ ['\r']) = line.column := by
      rw [column, column, indent, indent, leading_return, hmarker]
    rw [hcolumn, takeBytes?_append_of_le line.column_le_byteLength]

/-! ## The label of the build tool -/

/-- A piece of each probed word: one that no label holds. -/
theorem exists_mark {w : Text} (hw : w ∈ probedWords) :
    ∃ mark ∈ [".Values".toList, "\x7b\x7b-".toList], mark <:+: w := by
  have hwords : ∀ w ∈ probedWords,
      hasInfix ".Values".toList w = true ∨ hasInfix "\x7b\x7b-".toList w = true := by decide
  rcases hwords w hw with h | h
  · exact ⟨_, List.mem_cons_self, hasInfix_iff.1 h⟩
  · exact ⟨_, List.mem_cons_of_mem _ (List.mem_singleton_self _), hasInfix_iff.1 h⟩

theorem not_probed_label {s gap value tail w : Text} (hs : IsWhite s) (hgap : IsWhite gap)
    (htail : IsWhite tail) (hne : gap ≠ []) (hw : w ∈ probedWords)
    (hvalue : ∀ mark ∈ [".Values".toList, "\x7b\x7b-".toList], hasInfix mark value = false) :
    hasInfix w (s ++ (Naming.managedByLabel ++ (gap ++ (value ++ tail)))) = false := by
  rw [hasInfix_eq_false_iff]
  intro hocc
  obtain ⟨mark, hmark, hin⟩ := exists_mark hw
  have hmarks : ∀ mark ∈ [".Values".toList, "\x7b\x7b-".toList],
      (mark ≠ [] ∧ ∀ c ∈ mark, Unicode.isWhiteSpace c = false) ∧
        hasInfix mark Naming.managedByLabel = false := by decide
  obtain ⟨⟨hmarkne, hsolid⟩, hlabel⟩ := hmarks mark hmark
  have hword : IsWord mark := ⟨hmarkne, hsolid⟩
  have hbehind := hword.infix_of_isWhite_append hs (hin.trans hocc)
  obtain ⟨c, gap, rfl⟩ := List.exists_cons_of_ne_nil hne
  rw [List.cons_append] at hbehind
  rcases infix_append_cons (hword.not_mem_of_isWhiteSpace (hgap c List.mem_cons_self)) hbehind with
    h | h
  · exact hasInfix_eq_false_iff.1 hlabel h
  · have hrest := hword.infix_of_isWhite_append (fun d hd => hgap d (List.mem_cons_of_mem c hd)) h
    exact hasInfix_eq_false_iff.1 (hvalue mark hmark) (hword.infix_of_append_isWhite htail hrest)

section Label

variable {s : Text} (hs : ∀ c ∈ s, isIndentation c = true) (rest : Text)

include hs

theorem label_parts : ∃ tail, Naming.managedByLabel = 'a' :: tail ∧
    trimmed (s ++ (Naming.managedByLabel ++ rest)) = 'a' :: trimEnd (tail ++ rest) ∧
      isItem (s ++ (Naming.managedByLabel ++ rest)) = false := by
  have hwhite : IsWhite s := fun c hc => isWhiteSpace_of_isIndentation (hs c hc)
  have hstart : IsContentStart [] 'a' := ⟨rfl, fun _ => by decide⟩
  obtain ⟨tail, hlabel⟩ : ∃ tail, Naming.managedByLabel = 'a' :: tail := ⟨_, rfl⟩
  have hparts : s ++ (Naming.managedByLabel ++ rest) = s ++ [] ++ 'a' :: (tail ++ rest) := by
    simp [hlabel]
  refine ⟨tail, hlabel, ?_, ?_⟩
  · rw [hparts, trimmed_parts hwhite (.inl rfl) rfl]
    rfl
  · rw [hparts, isItem_parts hwhite (.inl rfl) hstart]
    rfl

theorem not_isItem_label : isItem (s ++ (Naming.managedByLabel ++ rest)) = false := by
  obtain ⟨_, -, -, hitem⟩ := label_parts hs rest
  exact hitem

theorem splitOnce?_label : (content (s ++ (Naming.managedByLabel ++ rest))).splitOnce? ':' =
    some (Naming.managedByKey, trimEnd rest) := by
  have hkey : s ++ (Naming.managedByLabel ++ rest) =
      s ++ [] ++ (Naming.managedByKey ++ ':' :: rest) := by
    have hparts : Naming.managedByLabel = Naming.managedByKey ++ [':'] := rfl
    rw [List.append_nil, hparts, List.append_assoc, List.singleton_append]
  rw [hkey, content_key (fun c hc => isWhiteSpace_of_isIndentation (hs c hc)) (.inl rfl)
    ⟨by decide, by decide, by decide⟩, splitOnce?_append (by decide)]

theorem marker_label : marker (s ++ (Naming.managedByLabel ++ rest)) = [] := by
  rw [marker, not_isItem_label hs]
  rfl

theorem takeBytes?_label : takeBytes? (column (s ++ (Naming.managedByLabel ++ rest)))
    (s ++ (Naming.managedByLabel ++ rest)) = some s := by
  have hleading : leading (s ++ (Naming.managedByLabel ++ rest)) = s := leading_append hs rfl
  rw [column, marker_label hs, ← byteLength_leading, hleading]
  exact takeBytes?_append s _

end Label

/-- Two labels for the tool that manages an object resemble each other, whatever their values. -/
theorem resembles_label {s rest rest' : Text} (hs : ∀ c ∈ s, isIndentation c = true)
    (hprobed : ∀ w ∈ probedWords, hasInfix w (s ++ (Naming.managedByLabel ++ rest)) =
      hasInfix w (s ++ (Naming.managedByLabel ++ rest'))) :
    Resembles (s ++ (Naming.managedByLabel ++ rest)) (s ++ (Naming.managedByLabel ++ rest')) := by
  obtain ⟨tail, hlabel, htrimmed, hitem⟩ := label_parts hs rest
  obtain ⟨tail', hlabel', htrimmed', hitem'⟩ := label_parts hs rest'
  obtain rfl : tail = tail' := (List.cons.inj (hlabel.symm.trans hlabel')).2
  have hsplit := splitOnce?_label hs
  constructor
  case leading => rw [leading_append hs rfl, leading_append hs rfl]
  case marker => rw [marker_label hs, marker_label hs]
  case isBlank => rw [isBlank, isBlank, htrimmed, htrimmed']; rfl
  case isItem => rw [hitem, hitem']
  case isDirective => rw [isDirective, isDirective, htrimmed, htrimmed']; rfl
  case isComment => rw [isComment, isComment, htrimmed, htrimmed']; rfl
  case hasKey => intro key; rw [hasKey, hasKey, hsplit, hsplit]
  case isEntry =>
    intro key value hne
    have hname : (Naming.managedByKey == key) = false := by simpa using Ne.symm hne
    simp only [isEntry, hsplit, hname, Bool.false_and]
  case content =>
    intro h
    rw [hitem] at h
    cases h
  case opens =>
    intro condition
    rw [Condition.isOpenedBy, Condition.isOpenedBy, htrimmed, htrimmed']
    cases condition <;> rfl
  case probed => exact hprobed
  case start => rw [takeBytes?_label hs, takeBytes?_label hs]

theorem resembles_fillManagedByLine (line : Line) :
    Resembles (Naming.fillManagedByLine line) line := by
  by_cases h : Naming.isManagedByBuild line = true
  · obtain ⟨s, gap, tail, rfl, hne, hwhite⟩ := Naming.isManagedByBuild_iff.1 h
    rw [List.forall_mem_append, List.forall_mem_append] at hwhite
    obtain ⟨⟨hs, hgap⟩, htail⟩ := hwhite
    have white : ∀ {t : Text}, (∀ c ∈ t, isIndentation c = true) → IsWhite t := fun ht c hc =>
      isWhiteSpace_of_isIndentation (ht c hc)
    rw [Naming.fillManagedByLine, if_pos h, leading_append hs rfl, List.append_assoc]
    apply resembles_label hs
    intro w hw
    have hrelease : hasInfix w (s ++ (Naming.managedByLabel ++ ([' '] ++
        ((Directive.value ".Release.Service".toList).render ++ [])))) = false :=
      not_probed_label (white hs) (List.forall_mem_singleton.2 rfl) isWhite_nil
        (List.cons_ne_nil _ _) hw (by decide)
    rw [not_probed_label (white hs) (white hgap) (white htail) hne hw (by decide)]
    rwa [List.append_nil] at hrelease
  · rw [Naming.fillManagedByLine, if_neg h]
    exact Resembles.refl line

/-! ## Before the carriage return -/

/-- The line with `f` made of what stands before a carriage return at its end. -/
def beforeReturn (f : Line → Line) (line : Line) : Line :=
  if line.getLast? = some '\r' then f line.dropLast else line

/-- Whether a function on lines changes only lines with a carriage return at the end, and only so
that edits do not see it. -/
structure IsUnseen (g : Line → Line) : Prop where
  resembles : ∀ line, (g line).Resembles line
  fixed : ∀ line : Line, line.getLast? ≠ some '\r' → g line = line

section Unseen

variable {f g : Line → Line} {line : Line}

theorem beforeReturn_return (f : Line → Line) (line : Line) :
    beforeReturn f (line ++ ['\r']) = f line := by
  rw [beforeReturn, if_pos (by simp), List.dropLast_concat]

theorem beforeReturn_of_ne (f : Line → Line) (h : line.getLast? ≠ some '\r') :
    beforeReturn f line = line :=
  if_neg h

theorem exists_return (line : Line) :
    (∃ front, line = front ++ ['\r']) ∨ line.getLast? ≠ some '\r' := by
  by_cases h : line.getLast? = some '\r'
  · exact .inl (List.getLast?_eq_some_iff.1 h)
  · exact .inr h

theorem isUnseen_beforeReturn (hf : ∀ line, (f line).Resembles line) :
    IsUnseen (beforeReturn f) := by
  refine ⟨fun line => ?_, fun line h => beforeReturn_of_ne f h⟩
  rcases exists_return line with ⟨front, rfl⟩ | h
  · rw [beforeReturn_return]
    exact (hf front).trans (resembles_return front).symm
  · rw [beforeReturn_of_ne f h]
    exact Resembles.refl line

theorem IsUnseen.nil (hg : IsUnseen g) : g [] = [] :=
  hg.fixed [] (by decide)

theorem IsUnseen.written (hg : IsUnseen g) (s : Text) {t : Text} {c : Char}
    (ht : t.getLast? = some c) (hc : c ≠ '\r') : g (s ++ t) = s ++ t := by
  apply hg.fixed
  rw [List.getLast?_append, ht, Option.some_or]
  exact fun h => hc (Option.some.inj h)

end Unseen

end Line

end OperatorChart
