import OperatorChart.Proofs.FieldFrames
/-!
# The list of an item

An item belongs to the list whose key stands above it, but the search for the manager's container
looks at names only. Main statement: what is found stands in a list of containers exactly when
every item elsewhere with the name has a container named in front of it. An environment variable
in front of the container's own name breaks this.
-/

namespace OperatorChart

open Text

/-- The key of the list of the item in line `start`: the nearest line above it that is not blank
and does not belong to a list whose items start where this one does. -/
def listKey? (ls : List Line) (start : Nat) : Option Nat :=
  (List.range start).reverse.find? fun j =>
    !((lineAt ls j).isBlank ||
      BlockStyle.sequence.continues (lineAt ls start).indent (lineAt ls j))

def isContainer (ls : List Line) (start : Nat) : Bool :=
  (listKey? ls start).any fun key =>
    ["containers", "initContainers"].any fun list => (lineAt ls key).hasKey list.toList

/-- What it means for line `i` to name the item in line `start`: the name stands on the dash line,
or it is a key of the item further down. -/
inductive NamesItem (name : Text) (ls : List Line) : Nat → Nat → Prop
  | dash {above back : List Line} {line : Line} (heq : ls = above ++ line :: back)
      (hname : line.isNamed name = true) (hitem : line.isItem = true) :
      NamesItem name ls above.length above.length
  | key {front between back : List Line} {dash line : Line}
      (heq : ls = (front ++ dash :: between) ++ line :: back)
      (hname : line.isNamed name = true) (hplain : line.isItem = false)
      (howns : Owns dash between line) :
      NamesItem name ls (front ++ dash :: between).length front.length

/-- Whether every item with the name that is no container has a container named in front of it. -/
def NamesContainersFirst (name : Text) (ls : List Line) : Prop :=
  ∀ i start, NamesItem name ls i start → isContainer ls start = false →
    ∃ j < i, ∃ other, NamesItem name ls j other ∧ isContainer ls other = true

section Names

variable {name : Text} {ls : List Line} {container : Container} {i start other : Nat}

theorem namesItem_iff : NamesItem name ls i start ↔
    i < ls.length ∧ Container.namedItemOf? ls name i = some start := by
  constructor
  · rintro (@⟨above, back, line, rfl, hname, hitem⟩ |
      @⟨front, between, back, dash, line, rfl, hname, hplain, howns⟩)
    · rw [Container.namedItemOf?, lineAt_length, ← Line.isNamed, if_pos hname]
      exact ⟨by simp, Container.itemOf?_around.2 (.inl ⟨hitem, rfl⟩)⟩
    · rw [Container.namedItemOf?, lineAt_length, ← Line.isNamed, if_pos hname]
      exact ⟨by simp,
        Container.itemOf?_around.2 (.inr ⟨hplain, front, dash, between, rfl, rfl, howns⟩)⟩
  · rintro ⟨hi, hfound⟩
    obtain ⟨above, back, hls, rfl⟩ := exists_around hi
    generalize lineAt ls above.length = line at hls
    subst hls
    rw [Container.namedItemOf?, lineAt_length] at hfound
    split at hfound
    · rename_i hname
      rcases Container.itemOf?_around.1 hfound with ⟨hitem, rfl⟩ |
        ⟨hplain, front, dash, between, rfl, rfl, howns⟩
      · exact .dash rfl hname hitem
      · exact .key rfl hname hplain howns
    · cases hfound

theorem NamesItem.unique (h : NamesItem name ls i start) (hother : NamesItem name ls i other) :
    start = other :=
  Option.some.inj ((namesItem_iff.1 h).2.symm.trans (namesItem_iff.1 hother).2)

/-- The item that is found is the first one that a line names. -/
theorem Container.exists_first_named (h : find? ls name = some container) :
    ∃ i, NamesItem name ls i container.start ∧ ∀ j < i, ∀ other, ¬ NamesItem name ls j other := by
  rw [find?_eq_map] at h
  obtain ⟨start, hfound, rfl⟩ := Option.map_eq_some_iff.1 h
  obtain ⟨i, hi, hnamed, hfirst⟩ := findSome?_range_eq_some.1 hfound
  refine ⟨i, namesItem_iff.2 ⟨hi, hnamed⟩, fun j hj other hother => ?_⟩
  have hnone := hfirst j hj
  rw [(namesItem_iff.1 hother).2] at hnone
  cases hnone

/-- An item is found when one is named, and its name stands no further down. -/
theorem NamesItem.exists_find? (h : NamesItem name ls i start) : ∃ container,
    Container.find? ls name = some container ∧ ∃ j ≤ i, NamesItem name ls j container.start := by
  cases hfound : Container.find? ls name with
  | none =>
      obtain ⟨hi, hnamed⟩ := namesItem_iff.1 h
      rw [Container.find?_eq_map, Option.map_eq_none_iff, List.findSome?_eq_none_iff] at hfound
      rw [hfound i (List.mem_range.2 hi)] at hnamed
      cases hnamed
  | some container =>
      obtain ⟨j, hnames, hfirst⟩ := Container.exists_first_named hfound
      exact ⟨container, rfl, j, not_lt.1 fun hlt => hfirst i hlt start h, hnames⟩

theorem NamesContainersFirst.isContainer (h : NamesContainersFirst name ls)
    (hfound : Container.find? ls name = some container) :
    isContainer ls container.start = true := by
  obtain ⟨i, hnames, hfirst⟩ := Container.exists_first_named hfound
  by_contra hother
  rw [Bool.not_eq_true] at hother
  obtain ⟨j, hj, other, hnames', -⟩ := h i container.start hnames hother
  exact hfirst j hj other hnames'

/-- Containers are named first when the item that is found is one. -/
theorem namesContainersFirst_of_find?
    (h : ∀ container, Container.find? ls name = some container →
      isContainer ls container.start = true) : NamesContainersFirst name ls := by
  intro i start hnames hstart
  obtain ⟨container, hfound, j, hj, hnames'⟩ := hnames.exists_find?
  have hcontainer := h container hfound
  refine ⟨j, lt_of_le_of_ne hj ?_, container.start, hnames', hcontainer⟩
  rintro rfl
  rw [hnames.unique hnames', hcontainer] at hstart
  cases hstart

end Names

namespace Pass

/-- What is found is a container exactly when containers are named first. Then the passes over the
manager of lines that are indented by spaces and tabs edit the lines of a container only. -/
theorem manager_edits_containers (ls : List Line) (name : Text) :
    ((∀ container, Container.find? ls name = some container →
        isContainer ls container.start = true) ↔ NamesContainersFirst name ls) ∧
    (AreIndented ls → NamesContainersFirst Container.managerName ls →
      ∀ context, ∀ pass ∈ manager, ∃ out, pass.run context (Text.ofLines ls) = .ok out ∧
        (out.lines = ls ∨ ∃ container item, Container.manager? ls = some container ∧
          isContainer ls container.start = true ∧
            out.lines = ls.take container.start ++ item ++ ls.drop container.stop)) := by
  refine ⟨⟨namesContainersFirst_of_find?, fun h container => h.isContainer⟩, ?_⟩
  intro hls hfirst context pass hpass
  obtain ⟨out, hrun, honly⟩ :=
    managerOnly_of_mem_manager context hls.isIndented_ofLines pass hpass
  rw [lines_ofLines hls.toAreLines] at honly
  refine ⟨out, hrun, ?_⟩
  cases hmanager : Container.manager? ls with
  | none => exact .inl (honly.none hmanager)
  | some container =>
      obtain ⟨item, hitem⟩ := honly.some container hmanager
      exact .inr ⟨container, item, rfl, hfirst.isContainer hmanager, hitem⟩

/-- A manager with an environment variable and a volume of its name behind its own name. -/
theorem manager_edits_containers_named_first :
    let ls := Text.lines (Text.ofLines (["  initContainers:", "  - name: manager", "    env:",
      "    - name: manager", "      value: null", "  # the pod's own", "  volumes:",
      "  - name: manager"].map String.toList))
    AreIndented ls ∧ NamesContainersFirst Container.managerName ls ∧
      ∀ context, ∀ pass ∈ manager, ∃ out, pass.run context (Text.ofLines ls) = .ok out ∧
        (out.lines = ls ∨ ∃ container item, Container.manager? ls = some container ∧
          isContainer ls container.start = true ∧
            out.lines = ls.take container.start ++ item ++ ls.drop container.stop) := by
  intro ls
  have hls : AreIndented ls := Text.IsIndented.areIndented (by decide +kernel)
  have hfound : (Container.manager? ls).all (fun container => isContainer ls container.start) =
      true := by decide +kernel
  have hfirst : NamesContainersFirst Container.managerName ls :=
    (manager_edits_containers ls Container.managerName).1.1 fun container hcontainer => by
      rw [Container.manager?, hcontainer] at hfound
      exact hfound
  exact ⟨hls, hfirst, (manager_edits_containers ls Container.managerName).2 hls hfirst⟩

/-- An environment variable whose name stands in front of the one of its container is taken for
the container, and gets an environment. -/
theorem manager_edits_environment_variable :
    let context : PassContext := ⟨⟨"Deployment".toList, [], [], []⟩, "demo".toList⟩
    let ls := ["spec:", "  containers:", "  - env:", "    - name: manager", "      value: x",
      "    image: y", "    name: manager", ""].map String.toList
    Container.find? ls Container.managerName = some ⟨3, 5, 6⟩ ∧ isContainer ls 3 = false ∧
      isContainer ls 2 = true ∧
      ManagerField.env.pass.run context (Text.ofLines ls) = .ok (Text.ofLines
        (["spec:", "  containers:", "  - env:", "    - name: manager", "      value: x",
          "      env:", "        \x7b\x7b- if .Values.controllerManager.env \x7d\x7d",
          "        \x7b\x7b- toYaml .Values.controllerManager.env | nindent 8 \x7d\x7d",
          "        \x7b\x7b- else \x7d\x7d", "        []", "        \x7b\x7b- end \x7d\x7d",
          "    image: y", "    name: manager", ""].map String.toList)) ∧
      ¬ ∀ (ls : List Line) name container, Container.find? ls name = some container →
        isContainer ls container.start = true := by
  intro context ls
  have hfound : Container.find? ls Container.managerName = some ⟨3, 5, 6⟩ := by decide +kernel
  have hother : isContainer ls 3 = false := by decide +kernel
  refine ⟨hfound, hother, by decide +kernel, by decide +kernel, fun h => ?_⟩
  rw [h ls Container.managerName _ hfound] at hother
  cases hother

end Pass

end OperatorChart
