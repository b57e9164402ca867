import OperatorChart.Proofs.RebuiltArguments
/-!
# Arguments in brackets

A list may stand in brackets behind its key, on the line of the key or on further lines below it.
The pass over the arguments looks at the lines below the key only. Main statement: arguments in
brackets are kept exactly when no line below the key belongs to the block, or the block holds the
pass's own output. Otherwise the rebuilt list is put behind the open bracket.
-/

namespace OperatorChart

open Text

/-- Whether the value behind the key of a line starts with a bracket. -/
def Line.opensBracket (line : Line) : Bool :=
  match line.content.splitOnce? ':' with
  | some (_, value) => ['['].isPrefixOf value.trimStart
  | none => false

namespace Values

variable {ls before list after : List Line} {line : Line}

theorem ArgumentsAt.block (h : ArgumentsAt ls before line list after) :
    (∀ l ∈ list, BlockStyle.sequence.continues line.column l = true) ∧
      BlockStyle.sequence.Ends line.column after := by
  have hlist : (list ++ after).takeWhile (BlockStyle.sequence.continues line.column) = list := by
    have hlocated := h.located
    rwa [h.split, bodyOf_locate] at hlocated
  refine ⟨fun l hl => List.mem_takeWhile_imp (hlist.symm ▸ hl), fun l hl => ?_⟩
  have hbehind : (list ++ after).dropWhile (BlockStyle.sequence.continues line.column) = after := by
    have hparts := List.takeWhile_append_dropWhile
      (p := BlockStyle.sequence.continues line.column) (l := list ++ after)
    rw [hlist] at hparts
    exact List.append_cancel_left hparts
  have hstop := List.head?_dropWhile_not (BlockStyle.sequence.continues line.column) (list ++ after)
  rw [hbehind, hl] at hstop
  exact hstop

theorem ArgumentsAt.fillArgs_eq (h : ArgumentsAt ls before line list after) :
    fillArgs ls = before ++ (KeyEdit.args.write line list after ++ after) := by
  have hfound := h.found
  obtain ⟨hlist, hends⟩ := h.block
  rw [h.split] at hfound ⊢
  exact Values.fillArgs_eq hfound hlist hends

/-- The pass keeps a list that is empty or holds its own output, and no other. -/
theorem ArgumentsAt.fillArgs_eq_self_iff (h : ArgumentsAt ls before line list after) :
    fillArgs ls = ls ↔ list = [] ∨ ∃ l ∈ line :: list, argsPath <:+: l := by
  rw [h.fillArgs_eq, h.split, List.append_cancel_left_eq, ← List.cons_append,
    List.append_left_inj]
  simp only [KeyEdit.args]
  split
  · rename_i hkept
    rw [Bool.or_eq_true, List.isEmpty_iff, List.any_eq_true] at hkept
    simpa only [hasInfix_iff, true_iff] using hkept
  · rename_i hfresh
    simp only [Bool.or_eq_true, List.isEmpty_iff, List.any_eq_true, hasInfix_iff] at hfresh
    refine ⟨fun heq => ?_, fun hkept => absurd hkept hfresh⟩
    obtain ⟨l, hl, hmarker⟩ := exists_loop (padding (line.column + 2)) (list.filter Line.isItem)
    rw [(List.cons.inj heq).2] at hl
    exact .inr ⟨l, List.mem_cons_of_mem line hl, hmarker⟩

end Values

namespace Pass

/-- The manager's arguments in brackets are kept exactly when no line below the key belongs to
them, or the pass's own output stands among them. Otherwise the lines below the key give way to the
rebuilt list, which then stands behind the open bracket. -/
theorem bracketed_args_kept_iff (context : PassContext) {t : Text} {key : Nat}
    (hkey : (Container.manager? t.lines).bind (·.key? t.lines "args".toList) = some key)
    (hbracket : (lineAt t.lines key).opensBracket = true) :
    ∃ out before line body after,
      ManagerField.args.pass.run context t = .ok out ∧
      Values.ArgumentsAt t.lines before line body after ∧ line.opensBracket = true ∧
      (out = t ↔ body = [] ∨ ∃ l ∈ line :: body, Values.argsPath <:+: l) ∧
      (out ≠ t → ∃ list, Values.ArgumentsAt out.lines before line list after ∧
        Values.IsRebuilt line.column (body.filter Line.isItem) list) := by
  have hout : (Text.ofLines (Values.fillArgs t.lines)).lines = Values.fillArgs t.lines :=
    lines_ofLines (Values.areLines_fillArgs (areLines_lines t))
  have hsame : Text.ofLines (Values.fillArgs t.lines) = t ↔ Values.fillArgs t.lines = t.lines :=
    ⟨fun h => by rw [← hout, h], fun h => by rw [h, ofLines_lines]⟩
  have hline : ∀ {before line list after}, Values.ArgumentsAt t.lines before line list after →
      line.opensBracket = true := by
    intro before line list after h
    obtain rfl : key = before.length := Option.some.inj (hkey.symm.trans h.found)
    rwa [h.split, lineAt_length] at hbracket
  by_cases hkept : Values.fillArgs t.lines = t.lines
  · obtain ⟨before, line, body, after, h⟩ := Values.exists_argumentsAt (by rw [hkey]; rfl)
    exact ⟨_, before, line, body, after, rfl, h, hline h, hsame.trans h.fillArgs_eq_self_iff,
      fun hne => absurd (hsame.2 hkept) hne⟩
  · obtain ⟨before, line, body, after, h, hfresh, hnew⟩ := Values.argumentsAt_of_fillArgs_ne hkept
    refine ⟨_, before, line, body, after, rfl, h, hline h, hsame.trans h.fillArgs_eq_self_iff,
      fun _ => ⟨_, hout.symm ▸ hnew, ?_⟩⟩
    exact Values.isRebuilt_argLines line.column fun item hmem =>
      hfresh item (List.mem_filter.1 hmem).1

/-- Brackets that close on the line of the key, with a comment below them. -/
theorem bracketed_args_kept_iff_comment :
    let context : PassContext := ⟨⟨"Deployment".toList, [], [], []⟩, "demo".toList⟩
    let t := Text.ofLines (["- args: [--leader-elect]", "  # no metrics", "  name: manager"].map
      String.toList)
    (Container.manager? t.lines).bind (·.key? t.lines "args".toList) = some 0 ∧
      (lineAt t.lines 0).opensBracket = true ∧
      ∃ out before line body after,
        ManagerField.args.pass.run context t = .ok out ∧
        Values.ArgumentsAt t.lines before line body after ∧ line.opensBracket = true ∧
        (out = t ↔ body = [] ∨ ∃ l ∈ line :: body, Values.argsPath <:+: l) ∧
        (out ≠ t → ∃ list, Values.ArgumentsAt out.lines before line list after ∧
          Values.IsRebuilt line.column (body.filter Line.isItem) list) := by
  intro context t
  have hkey : (Container.manager? t.lines).bind (·.key? t.lines "args".toList) = some 0 := by
    decide +kernel
  have hbracket : (lineAt t.lines 0).opensBracket = true := by decide +kernel
  exact ⟨hkey, hbracket, bracketed_args_kept_iff context hkey hbracket⟩

/-- Brackets that close on a further line: the loop is put between the brackets' start and the
next key, and the line that closed them is gone. -/
theorem bracketed_args_rebuilt :
    let context : PassContext := ⟨⟨"Deployment".toList, [], [], []⟩, "demo".toList⟩
    let t := Text.ofLines (["containers:", "- args: [\"--leader-elect\",",
      "    \"--health-probe-bind-address=:8081\"]", "  name: manager", ""].map String.toList)
    (Container.manager? t.lines).bind (·.key? t.lines "args".toList) = some 1 ∧
      (lineAt t.lines 1).opensBracket = true ∧
      ManagerField.args.pass.run context t = .ok (Text.ofLines (["containers:",
        "- args: [\"--leader-elect\",",
        "    \x7b\x7b- range .Values.controllerManager.args \x7d\x7d",
        "    - \x7b\x7b . \x7d\x7d", "    \x7b\x7b- end \x7d\x7d", "  name: manager", ""].map
          String.toList)) ∧
      ManagerField.args.pass.run context t ≠ .ok t := by
  intro context t
  exact ⟨by decide +kernel, by decide +kernel, by decide +kernel, by decide +kernel⟩

end Pass

end OperatorChart
