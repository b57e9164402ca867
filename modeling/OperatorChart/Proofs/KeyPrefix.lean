import OperatorChart.Proofs.LineShape
import OperatorChart.Values.Field
/-!
# What stands before a key

The part of a line that an edit keeps in front of a key is cut off by its width in bytes. It
holds nothing but white space and the dash of an item, and a key behind it does not move to the
right.
-/

namespace OperatorChart

open Text

namespace Text

theorem byteLength_mono {s t : Text} (h : s <+: t) : byteLength s ≤ byteLength t := by
  obtain ⟨rest, rfl⟩ := h
  rw [byteLength_append]
  omega

theorem eq_nil_of_byteLength {s : Text} (h : byteLength s = 0) : s = [] := by
  cases s with
  | nil => rfl
  | cons c s =>
      rw [byteLength_cons] at h
      have hpos := c.utf8Size_pos
      omega

theorem prefix_of_byteLength_le {s t u : Text} (hs : s <+: u) (ht : t <+: u)
    (h : byteLength s ≤ byteLength t) : s <+: t := by
  rcases List.prefix_or_prefix_of_prefix hs ht with hprefixed | ⟨rest, rfl⟩
  · exact hprefixed
  · rw [byteLength_append] at h
    have hrest : rest = [] := eq_nil_of_byteLength (by omega)
    exact ⟨[], by rw [hrest, List.append_nil, List.append_nil]⟩

theorem takeBytes?_eq_some {n : Nat} {t s : Text} (h : takeBytes? n t = some s) :
    s <+: t ∧ byteLength s = n := by
  fun_induction takeBytes? n t generalizing s with
  | case1 t =>
      cases h
      exact ⟨List.nil_prefix, rfl⟩
  | case2 n => cases h
  | case3 n c t hc ih =>
      obtain ⟨rest, hrest, rfl⟩ := Option.map_eq_some_iff.1 h
      obtain ⟨hstart, hlength⟩ := ih hrest
      refine ⟨List.cons_prefix_cons.2 ⟨rfl, hstart⟩, ?_⟩
      rw [byteLength_cons]
      omega
  | case4 => cases h

theorem takeBytes?_append (s t : Text) : takeBytes? (byteLength s) (s ++ t) = some s := by
  induction s with
  | nil => cases t <;> rfl
  | cons c s ih =>
      have hpos := c.utf8Size_pos
      obtain ⟨n, hn⟩ : ∃ n, byteLength (c :: s) = n + 1 :=
        ⟨c.utf8Size + byteLength s - 1, by rw [byteLength_cons]; omega⟩
      have hrest : n + 1 - c.utf8Size = byteLength s := by
        rw [byteLength_cons] at hn
        omega
      rw [byteLength_cons] at hn
      rw [byteLength_cons, hn, List.cons_append, takeBytes?, if_pos (by omega), hrest, ih]
      rfl

end Text

namespace Line

def IsLead (c : Char) : Prop :=
  Unicode.isWhiteSpace c = true ∨ c = '-'

theorem isLead_of_mem_marker {line : Line} {c : Char} (hc : c ∈ line.marker) : IsLead c := by
  unfold marker at hc
  split at hc
  · rcases List.mem_cons.1 hc with rfl | hc
    · exact .inr rfl
    · exact .inl (List.mem_takeWhile_imp hc)
  · cases hc

theorem byteLength_leading (line : Line) : line.leading.byteLength = line.indent := by
  unfold indent
  have h : ∀ c ∈ line.leading, isIndentation c = true := fun _ hc =>
    isIndentation_of_mem_leading hc
  generalize line.leading = s at h ⊢
  induction s with
  | nil => rfl
  | cons c s ih =>
      have hc : c.utf8Size = 1 := by
        have hindentation := h c List.mem_cons_self
        simp only [isIndentation, Bool.or_eq_true, beq_iff_eq] at hindentation
        rcases hindentation with rfl | rfl <;> rfl
      rw [byteLength_cons, hc, ih fun d hd => h d (List.mem_cons_of_mem c hd), List.length_cons]
      omega

theorem leading_prefix {s : Text} {c : Char} {rest : Text}
    (hc : Unicode.isWhiteSpace c = false) : leading (s ++ c :: rest) <+: s := by
  have hstop : ¬ isIndentation c = true := by simp [isIndentation_of_not_isWhiteSpace hc]
  rw [leading, List.takeWhile_append]
  split
  · exact ⟨[], by rw [List.takeWhile_cons_of_neg hstop, List.append_nil, List.append_nil]⟩
  · exact List.takeWhile_prefix _

theorem exists_parts {line : Line} (h : line.isBlank = false) :
    ∃ s s', IsWhite s ∧ line = s ++ line.marker ++ (line.content ++ s') ∧ line.leading <+: s := by
  obtain ⟨s, s', hs, -, hline⟩ := exists_trim line
  refine ⟨s, s', hs, ?_, ?_⟩
  · rw [List.append_assoc, ← List.append_assoc line.marker, marker_append_content,
      ← List.append_assoc]
    exact hline
  · obtain ⟨c, rest, hcons⟩ : ∃ c rest, trim line = c :: rest := by
      apply List.exists_cons_of_ne_nil
      rwa [isBlank, List.isEmpty_eq_false_iff] at h
    have hsolid := head_trim hcons
    rw [hline, hcons, List.append_assoc, List.cons_append]
    exact leading_prefix hsolid

theorem column_le {s : Text} {line : Line} (hleading : line.leading <+: s) :
    line.column ≤ byteLength (s ++ line.marker) := by
  rw [column, ← byteLength_leading, byteLength_append]
  have hle := byteLength_mono hleading
  omega

theorem not_isBlank_of_hasKey {line : Line} {key : Text} (h : line.hasKey key = true) :
    line.isBlank = false := by
  rw [isBlank, List.isEmpty_eq_false_iff]
  intro hnil
  rw [not_hasKey_of_not_mem (by rw [hnil]; simp)] at h
  cases h

theorem isLead_of_keyPrefix {line : Line} {key start : Text} (hkey : line.hasKey key = true)
    (h : keyPrefix line = .ok start) :
    start <+: line ∧ byteLength start = line.column ∧ ∀ c ∈ start, IsLead c := by
  obtain ⟨s, s', hs, hline, hleading⟩ := exists_parts (not_isBlank_of_hasKey hkey)
  unfold keyPrefix at h
  split at h
  · rename_i start' hstart
    cases h
    obtain ⟨hprefixed, hlength⟩ := takeBytes?_eq_some hstart
    refine ⟨hprefixed, hlength, ?_⟩
    have hle := column_le hleading
    have hsm : s ++ line.marker <+: line := ⟨line.content ++ s', hline.symm⟩
    have hlead := prefix_of_byteLength_le hprefixed hsm (hlength ▸ hle)
    intro c hc
    rcases List.mem_append.1 (hlead.mem hc) with hc | hc
    · exact .inl (hs c hc)
    · exact isLead_of_mem_marker hc
  · cases h

/-- A content does not stand behind the end of what is kept in front of it. -/
theorem column_append_le {c : Char} (hc : ¬ IsLead c) (start rest : Text) :
    column (start ++ c :: rest) ≤ byteLength start := by
  have hsolid : Unicode.isWhiteSpace c = false := by
    rw [← Bool.not_eq_true]
    exact fun h => hc (.inl h)
  have hblank : isBlank (start ++ c :: rest) = false := not_isBlank_of_mem (by simp) hsolid
  obtain ⟨s, s', hs, hline, hleading⟩ := exists_parts hblank
  have hle := column_le hleading
  have hlead : s ++ marker (start ++ c :: rest) <+: start ++ c :: rest :=
    ⟨_, hline.symm⟩
  rcases List.prefix_or_prefix_of_prefix hlead (List.prefix_append start (c :: rest)) with
    hshort | ⟨tail, htail⟩
  · exact Nat.le_trans hle (byteLength_mono hshort)
  · cases tail with
    | nil =>
        rw [← htail, List.append_nil] at hle
        exact hle
    | cons d tail =>
        rw [← htail] at hlead
        obtain ⟨rfl, -⟩ := List.cons_prefix_cons.1 ((List.prefix_append_right_inj start).1 hlead)
        have hmem : d ∈ s ++ marker (start ++ d :: rest) := by
          rw [← htail]
          simp
        rcases List.mem_append.1 hmem with hmem | hmem
        · exact absurd (.inl (hs d hmem)) hc
        · exact absurd (isLead_of_mem_marker hmem) hc

end Line

end OperatorChart
