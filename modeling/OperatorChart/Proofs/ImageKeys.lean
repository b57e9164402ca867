import OperatorChart.Proofs.FieldFrames
/-!
# The image and the pull policy of the manager

The pass over the image puts two keys in the place of one, drops the pull policies of the item
that do not stand on a dash line, and keeps every other line. Main statement: behind it the item is
the manager's with one image and one pull policy exactly when no pull policy stands on a dash line
of the item, and the item is still the manager's without the policies that are dropped.
-/

namespace OperatorChart

open Text

/-! ## Owners of entries -/

section Owners

variable {name : Text} {width column : Nat} {ls above below front back block block' start inner
  inner' behind : List Line} {dash dash' line entry : Line}

/-- Lines that look to the search like a given line with a key: the first is indented and opens an
item as the line does, and the others are further keys at its column. -/
structure LooksLike (line : Line) (block : List Line) : Prop where
  solid : line.isBlank = false
  lines : ∃ first rest, block = first :: rest ∧ first.isBlank = false ∧
    first.indent = line.indent ∧ first.column = line.column ∧ first.isItem = line.isItem ∧
    ∀ l ∈ rest, l.isBlank = false ∧ l.isItem = false ∧ l.indent = line.column

theorem looksLike_self (h : line.isBlank = false) : LooksLike line [line] :=
  ⟨h, line, [], rfl, h, rfl, rfl, rfl, by simp⟩

namespace LooksLike

theorem isOwnerStop_iff (h : LooksLike line block) :
    (∀ l ∈ block, Container.isOwnerStop column l = false) ↔ column ≤ line.indent := by
  obtain ⟨-, first, rest, rfl, hblank, hindent, -, -, hrest⟩ := h
  have hle := line.indent_le_column
  simp only [List.forall_mem_cons, Container.isOwnerStop, hblank, hindent, Bool.false_or,
    decide_eq_false_iff_not, Nat.not_lt]
  refine ⟨And.left, fun hcolumn => ⟨hcolumn, fun l hl => ?_⟩⟩
  obtain ⟨hl, -, hlindent⟩ := hrest l hl
  rw [hl, Bool.false_or, decide_eq_false_iff_not, hlindent]
  omega

theorem owned_iff (h : LooksLike line block) :
    Owned column block ↔ line.isItem = true ∧ line.column = column := by
  obtain ⟨-, first, rest, rfl, -, -, hcolumn, hitem, hrest⟩ := h
  rw [← List.singleton_append, owned_append, owned_singleton, hcolumn, hitem]
  have hfree : ¬ Owned column rest := by
    rintro ⟨front, dash, between, heq, hdash, -⟩
    rw [(hrest dash (by simp [heq])).2.1] at hdash
    cases hdash
  simp only [hfree, false_or, and_iff_right_iff_imp, and_imp]
  rintro - rfl l hl
  obtain ⟨hblank, -, hindent⟩ := hrest l hl
  rw [Container.isOwnerStop, hblank, hindent, Bool.false_or, decide_eq_false (lt_irrefl _)]

section Change

variable (h : LooksLike line block) (h' : LooksLike line block')

include h h'

theorem isOwned_congr : IsOwned (above ++ (block ++ below)) entry ↔
    IsOwned (above ++ (block' ++ below)) entry := by
  simp only [isOwned_iff, owned_append, List.forall_mem_append, h.owned_iff, h'.owned_iff,
    h.isOwnerStop_iff, h'.isOwnerStop_iff]

theorem unnamed (hname : ∀ l ∈ block', l.isNamed name = false)
    (hls : Unnamed name (above ++ (block ++ below))) :
    Unnamed name (above ++ (block' ++ below)) := by
  refine hls.of_append.append fun front entry rest heq hentry howned => ?_
  rcases cases_of_append_eq heq with ⟨r, rfl, -⟩ | ⟨s, rfl, rfl⟩
  · rw [hname entry (by simp)] at hentry
    cases hentry
  · exact hls (above ++ (block ++ s)) entry rest (by simp) hentry ((h.isOwned_congr h').2 howned)

theorem isNamed (hcolumn : line.column = dash.column)
    (hname : ∀ l ∈ block ++ block', l.isNamed name = false) (hnamed : IsNamedItem name dash inner)
    (hitem : dash :: inner = front ++ (block ++ back))
    (hitem' : dash' :: inner' = front ++ (block' ++ back)) :
    ∃ above entry below, dash' :: inner' = above ++ entry :: below ∧
      entry.isNamed name = true ∧ Unnamed name above ∧
      (above = [] ∨ entry.isItem = false ∧ ∃ between, above = dash' :: between ∧
        Owns dash' between entry) := by
  rw [List.forall_mem_append] at hname
  have hunnamed : ∀ s, s <+: back → Unnamed name (front ++ (block ++ s)) →
      Unnamed name (front ++ (block' ++ s)) := fun s _ => h.unnamed h' hname.2
  obtain ⟨-, first, rest, rfl, hblank, hindent, hfirst, hkind, -⟩ := h
  obtain ⟨-, first', rest', rfl, hblank', hindent', hfirst', hkind', hrest'⟩ := h'
  refine hnamed.exists_named hitem hitem' (hkind'.trans hkind.symm) (hfirst'.trans hfirst.symm)
    (fun column => ?_) (fun l hl => ?_) (hname.1 first List.mem_cons_self) (fun l hl hentry => ?_)
    hunnamed
  · rw [Container.isOwnerStop, Container.isOwnerStop, hblank, hblank', hindent, hindent']
  · obtain ⟨hlblank, -, hl⟩ := hrest' l hl
    rw [Container.isOwnerStop, hlblank, hl, hcolumn, Bool.false_or, decide_eq_false (lt_irrefl _)]
  · rw [hname.1 l (List.mem_cons_of_mem first hl)] at hentry
    cases hentry

theorem deep (hdash : dash.isItem = true) (hdeep : ∀ l ∈ inner, l.isDeeper dash.indent = true)
    (hitem : dash :: inner = front ++ (block ++ back))
    (hitem' : dash' :: inner' = front ++ (block' ++ back)) :
    dash'.indent = dash.indent ∧ dash'.column = dash.column ∧ dash'.isItem = true ∧
      ∀ l ∈ inner', l.isDeeper dash'.indent = true := by
  obtain ⟨-, first, rest, rfl, -, hindent, hfirst, hkind, -⟩ := h
  obtain ⟨-, first', rest', rfl, hblank', hindent', hfirst', hkind', hrest'⟩ := h'
  cases front with
  | nil =>
      rw [List.nil_append, List.cons_append] at hitem hitem'
      obtain ⟨rfl, rfl⟩ := List.cons.inj hitem
      obtain ⟨rfl, rfl⟩ := List.cons.inj hitem'
      have hlt := Line.indent_lt_column hdash
      have hsame : dash'.indent = dash.indent := hindent'.trans hindent.symm
      rw [List.forall_mem_append] at hdeep
      refine ⟨hsame, hfirst'.trans hfirst.symm, (hkind'.trans hkind.symm).trans hdash, ?_⟩
      rw [hsame, List.forall_mem_append]
      refine ⟨fun l hl => ?_, hdeep.2⟩
      obtain ⟨hblank, -, hl⟩ := hrest' l hl
      exact Line.isDeeper_iff.2 ⟨hblank, by omega⟩
  | cons dash front =>
      rw [List.cons_append] at hitem hitem'
      obtain ⟨rfl, rfl⟩ := List.cons.inj hitem
      obtain ⟨rfl, rfl⟩ := List.cons.inj hitem'
      refine ⟨rfl, rfl, hdash, ?_⟩
      simp only [List.forall_mem_append, List.forall_mem_cons, Line.isDeeper_iff] at hdeep ⊢
      obtain ⟨hfront, ⟨hline, -⟩, hback⟩ := hdeep
      have hle := line.indent_le_column
      refine ⟨hfront, ⟨⟨hblank', by omega⟩, fun l hl => ?_⟩, hback⟩
      obtain ⟨hblank, -, hl⟩ := hrest' l hl
      exact ⟨hblank, by omega⟩

/-- The item with a name is found with other lines in the place of a key of it. -/
theorem findsItem (hcolumn : line.column = dash.column)
    (hname : ∀ l ∈ block ++ block', l.isNamed name = false)
    (hitem : dash :: inner = front ++ (block ++ back))
    (hitem' : dash' :: inner' = front ++ (block' ++ back))
    (hfinds : FindsItem name ls start dash inner behind) :
    FindsItem name (start ++ dash' :: (inner' ++ behind)) start dash' inner' behind := by
  obtain ⟨hindent, -, hdash, hdeep⟩ := h.deep h' hfinds.item.item hfinds.item.deep hitem hitem'
  exact ⟨rfl, hfinds.fresh,
    ⟨hdash, hdeep, h.isNamed h' hcolumn hname hfinds.item hitem hitem'⟩,
    hindent ▸ hfinds.stops⟩

end Change

end LooksLike

/-! ## Lines that are dropped -/

section Drop

variable {policy : Line} (hplain : policy.isItem = false) (hblank : policy.isBlank = false)

include hplain hblank

/-- A key with nothing below it owns no line and keeps no line from its owner. -/
theorem isOwned_drop (hentry : entry.isBlank = false)
    (hstops : Stops policy.indent (below ++ entry :: back)) :
    IsOwned (above ++ policy :: below) entry ↔ IsOwned (above ++ below) entry := by
  have hpolicy : ¬ Owned entry.indent [policy] := by
    rw [owned_singleton, hplain]
    simp
  rw [← List.singleton_append]
  simp only [isOwned_iff, owned_append, List.forall_mem_append, List.forall_mem_singleton, hpolicy,
    or_assoc]
  by_cases hle : entry.indent ≤ policy.indent
  · have hfree : Container.isOwnerStop entry.indent policy = false := by
      rw [Container.isOwnerStop, hblank, Bool.false_or, decide_eq_false_iff_not]
      omega
    simp [hfree]
  · -- the line right behind the key stops the search of a line that is deeper
    cases below with
    | nil =>
        have hle' := Line.indent_le_of_not_isDeeper hentry (stops_cons.1 hstops)
        omega
    | cons first below =>
        have hfirst : Container.isOwnerStop entry.indent first = true := by
          rw [Container.isOwnerStop, Bool.or_eq_true, decide_eq_true_eq]
          refine or_iff_not_imp_left.2 fun hsolid => ?_
          have hle' := Line.indent_le_of_not_isDeeper (Bool.not_eq_true _ ▸ hsolid)
            (stops_cons.1 hstops)
          omega
        simp [hfirst]

theorem IsNamedItem.drop (hname : policy.isNamed name = false) (hstops : Stops policy.indent below)
    (h : IsNamedItem name dash (above ++ policy :: below)) :
    IsNamedItem name dash (above ++ below) := by
  obtain ⟨hdash, hdeep, front, entry, back, heq, hentry, hfront, howner⟩ := h
  refine ⟨hdash, fun l hl => hdeep l (by simp at hl ⊢; tauto), ?_⟩
  rw [← List.cons_append] at heq
  rcases cases_of_append_eq heq with ⟨r, hr, rfl⟩ | ⟨s, rfl, hs⟩
  · exact ⟨front, entry, r ++ below, by rw [← List.cons_append, hr]; simp, hentry, hfront, howner⟩
  cases s with
  | nil =>
      obtain ⟨rfl, -⟩ := List.cons.inj hs
      rw [hname] at hentry
      cases hentry
  | cons first s =>
      rw [List.cons_append] at hs
      obtain ⟨rfl, rfl⟩ := List.cons.inj hs
      refine ⟨dash :: above ++ s, entry, back, by simp, hentry, ?_, ?_⟩
      · refine hfront.of_append.append fun front' l below' heq' hl howned => ?_
        have hbelow : Stops policy.indent (front' ++ l :: (below' ++ entry :: back)) := by
          rw [heq', List.append_assoc] at hstops
          exact hstops
        have hsolid := Line.not_isBlank_of_hasKey (Line.hasKey_of_isEntry hl)
        exact hfront (dash :: above ++ policy :: front') l below' (by rw [heq']; simp) hl
          ((isOwned_drop hplain hblank hsolid hbelow).2 howned)
      · obtain ⟨hentryPlain, between, hbetween, howns⟩ := howner.resolve_left (by simp)
        rw [List.cons_append] at hbetween
        obtain ⟨-, rfl⟩ := List.cons.inj hbetween
        refine .inr ⟨hentryPlain, above ++ s, by simp, howns.item, howns.column, fun l hl => ?_⟩
        exact howns.between l (by simp at hl ⊢; tauto)

end Drop

end Owners

/-! ## The manager's item -/

def Container.linesOf (container : Container) (ls : List Line) : List Line :=
  (ls.take container.stop).drop container.start

theorem FindsItem.linesOf_eq {name : Text} {ls start inner behind : List Line} {dash : Line}
    (h : FindsItem name ls start dash inner behind) (column : Nat) : Container.linesOf
      ⟨start.length, start.length + (dash :: inner).length, column⟩ ls = dash :: inner := by
  rw [Container.linesOf, h.eq, List.take_length_add_append, List.drop_left, ← List.cons_append,
    List.take_left]

namespace Container

section Found

variable {inner behind : List Line} {dash : Line} (start : List Line)
  (hdeep : ∀ l ∈ inner, l.isDeeper dash.indent = true) (hstops : Stops dash.indent behind)

include hdeep hstops

/-- The manager is found at the start of an item exactly when the search ends in this item. -/
theorem map_start_manager?_iff :
    (manager? (start ++ dash :: (inner ++ behind))).map Container.start = some start.length ↔
      FindsItem managerName (start ++ dash :: (inner ++ behind)) start dash inner behind := by
  constructor
  · intro h
    obtain ⟨container, hfound, hstart⟩ := Option.map_eq_some_iff.1 h
    obtain ⟨start', dash', inner', behind', hfinds, rfl⟩ := exists_findsItem hfound
    obtain ⟨rfl, hlines⟩ := List.append_inj hfinds.eq hstart.symm
    obtain ⟨rfl, hrest⟩ := List.cons.inj hlines
    have hinner : inner = inner' := by
      have htake := congrArg (List.takeWhile (Line.isDeeper dash.indent)) hrest
      rwa [hstops.takeWhile_append_of_deep hdeep,
        hfinds.stops.takeWhile_append_of_deep hfinds.item.deep] at htake
    subst hinner
    obtain rfl := List.append_cancel_left hrest
    exact hfinds
  · intro h
    rw [h.manager?_eq]
    rfl

theorem exists_manager?_iff (p : Nat → List Line → Prop) :
    (∃ found, manager? (start ++ dash :: (inner ++ behind)) = some found ∧
        found.start = start.length ∧
        p found.column (found.linesOf (start ++ dash :: (inner ++ behind)))) ↔
      FindsItem managerName (start ++ dash :: (inner ++ behind)) start dash inner behind ∧
        p dash.column (dash :: inner) := by
  constructor
  · rintro ⟨found, hfound, hstart, hp⟩
    have hfinds := (map_start_manager?_iff start hdeep hstops).1
      (by rw [hfound, Option.map_some, hstart])
    obtain rfl := Option.some.inj (hfound.symm.trans hfinds.manager?_eq)
    rw [hfinds.linesOf_eq] at hp
    exact ⟨hfinds, hp⟩
  · rintro ⟨hfinds, hp⟩
    refine ⟨_, hfinds.manager?_eq, rfl, ?_⟩
    rwa [hfinds.linesOf_eq]

end Found

end Container

namespace Values

variable {column : Nat} {ls above todo start front back inner behind : List Line}
  {line dash image policy : Line}

def dropPolicies (column : Nat) (item : List Line) : List Line :=
  item.filter fun l => !isPullPolicy column l

/-- Whether a line is a pull policy at `column` on the dash line of an item, which the edit keeps. -/
def isDashPolicy (column : Nat) (line : Line) : Bool :=
  line.isItem && line.isDirect column "imagePullPolicy".toList

/-- Whether an item with its keys at a column has exactly one image and exactly one pull policy, both
taken from the values, and no key twice. -/
structure HoldsImageOnce (column : Nat) (item : List Line) : Prop where
  image : ∃ line, item.filter (Line.isDirect column "image".toList) = [line] ∧ line.content =
    "image: \"\x7b\x7b .Values.controllerManager.image.repository \x7d\x7d:".toList ++
      "\x7b\x7b .Values.controllerManager.image.tag \x7d\x7d\"".toList
  policy : ∃ line, item.filter (Line.isDirect column "imagePullPolicy".toList) = [line] ∧
    line.content =
      "imagePullPolicy: \x7b\x7b .Values.controllerManager.image.pullPolicy \x7d\x7d".toList
  once : ∀ key, item.countP (Line.isDirect column key) ≤ 1

theorem isNamedItem_dropPolicies
    (hstops : ∀ front policy below, todo = front ++ policy :: below →
      isPullPolicy column policy = true → Stops column below)
    (h : IsNamedItem Container.managerName dash (above ++ todo)) :
    IsNamedItem Container.managerName dash (above ++ dropPolicies column todo) := by
  induction todo generalizing above with
  | nil => exact h
  | cons line todo ih =>
      have hrest : ∀ front policy below, todo = front ++ policy :: below →
          isPullPolicy column policy = true → Stops column below := fun front policy below heq =>
        hstops (line :: front) policy below (by rw [heq]; rfl)
      cases hline : isPullPolicy column line with
      | true =>
          obtain ⟨hplain, hcolumn, hkey⟩ := isPullPolicy_iff.1 hline
          have hindent := Line.indent_of_not_isItem hplain
          have hname := (Line.isInert_of_hasKey hkey (by decide)).not_isManagerName
          have hbelow := hstops [] line todo rfl hline
          rw [← hcolumn, ← hindent] at hbelow
          rw [dropPolicies, List.filter_cons_of_neg (by simp [hline])]
          exact ih hrest (h.drop hplain (Line.not_isBlank_of_hasKey hkey) hname hbelow)
      | false =>
          rw [dropPolicies, List.filter_cons_of_pos (by simp [hline])]
          have hmove : above ++ line :: todo = above ++ [line] ++ todo := by simp
          rw [hmove] at h
          have hnext := ih hrest h
          simpa [dropPolicies] using hnext

theorem dropPolicies_sublist (column : Nat) (item : List Line) :
    (dropPolicies column item).Sublist item :=
  List.filter_sublist

theorem dropPolicies_around (hline : line.isDirect column "image".toList = true) :
    dropPolicies column (front ++ line :: back) =
      dropPolicies column front ++ line :: dropPolicies column back := by
  have hkey := (Line.isDirect_iff.1 hline).2
  have hkept : isPullPolicy column line = false := by
    rw [isPullPolicy, Line.not_hasKey_of_hasKey hkey (by decide), Bool.and_false]
  rw [dropPolicies, List.filter_append, List.filter_cons_of_pos (by simp [hkept])]
  rfl

/-- The pull policies that are left are those on dash lines. -/
theorem filter_dropPolicies (column : Nat) (item : List Line) :
    (dropPolicies column item).filter (Line.isDirect column "imagePullPolicy".toList) =
      item.filter (isDashPolicy column) := by
  rw [dropPolicies, List.filter_filter]
  refine List.filter_congr fun l _ => ?_
  rw [isPullPolicy, isDashPolicy, Line.isDirect]
  cases l.isItem <;> simp

theorem exists_imageLines (hline : line.isDirect column "image".toList = true) :
    ∃ image policy, imageLines (line.leading ++ line.marker) column = [image, policy] ∧
      LooksLike line [image, policy] ∧
      image.isDirect column "image".toList = true ∧
      policy.isDirect column "imagePullPolicy".toList = true ∧
      image.content =
        "image: \"\x7b\x7b .Values.controllerManager.image.repository \x7d\x7d:".toList ++
          "\x7b\x7b .Values.controllerManager.image.tag \x7d\x7d\"".toList ∧
      policy.content =
        "imagePullPolicy: \x7b\x7b .Values.controllerManager.image.pullPolicy \x7d\x7d".toList := by
  obtain ⟨rfl, hkey⟩ := Line.isDirect_iff.1 hline
  have hmarker := Line.isMarker_of_hasKey hkey
  have hreplace := isReplacement_image hkey []
  have hpolicy := isPadded_policy line.column
  have hpadding : IsWhite (padding line.column) := fun c hc =>
    isWhiteSpace_of_isIndentation (isIndentation_padding line.column c hc)
  refine ⟨_, _, imageLines_withEntry line line.column, ⟨Line.not_isBlank_of_hasKey hkey, _, _, rfl,
    Line.not_isBlank_of_hasKey hreplace.new_key, hreplace.same_indent, hreplace.same_column,
    hreplace.same_item, ?_⟩, Line.isDirect_iff.2 ⟨hreplace.same_column, hreplace.new_key⟩,
    Line.isDirect_iff.2 ⟨hpolicy.column, hpolicy.hasKey⟩, ?_, ?_⟩
  · exact List.forall_mem_singleton.2
      ⟨Line.not_isBlank_of_hasKey hpolicy.hasKey, hpolicy.no_item, hpolicy.indent⟩
  · rw [Line.withEntry, Line.content_key line.isWhite_leading hmarker isPlainKey_image, imageEntry,
      trimEnd_of_last rfl]
    decide +kernel
  · have hcontent := Line.content_key (m := []) hpadding (.inl rfl)
      (⟨by decide, by decide, by decide⟩ : Line.IsPlainKey "imagePullPolicy".toList) policyEntry
    have hlast : policyEntry = policyEntry.dropLast ++ ['}'] := rfl
    rw [List.append_nil, hlast, trimEnd_of_last rfl, ← hlast] at hcontent
    rw [hcontent]
    decide +kernel

theorem dropPolicies_cons (hdash : dash.isItem = true) (inner : List Line) :
    dropPolicies column (dash :: inner) = dash :: dropPolicies column inner := by
  rw [dropPolicies, List.filter_cons_of_pos (by simp [isPullPolicy, hdash])]
  rfl

section Counts

variable {image policy : Line} (himage : image.isDirect column "image".toList = true)
  (hpolicy : policy.isDirect column "imagePullPolicy".toList = true)

include himage

theorem isDirect_written (hline : line.isDirect column "image".toList = true) (key : Text) :
    image.isDirect column key = line.isDirect column key := by
  by_cases hkey : key = "image".toList
  · rw [hkey, himage, hline]
  · rw [Line.not_isDirect_of_hasKey (Line.isDirect_iff.1 himage).2 (Ne.symm hkey),
      Line.not_isDirect_of_hasKey (Line.isDirect_iff.1 hline).2 (Ne.symm hkey)]

include hpolicy

/-- The pull policies of the item that is written: the ones on dash lines, and the new one. -/
theorem filter_policy_written :
    (dropPolicies column front ++ ([image, policy] ++ dropPolicies column back)).filter
        (Line.isDirect column "imagePullPolicy".toList) =
      front.filter (isDashPolicy column) ++ policy :: back.filter (isDashPolicy column) := by
  have hnot : image.isDirect column "imagePullPolicy".toList = false :=
    Line.not_isDirect_of_hasKey (Line.isDirect_iff.1 himage).2 (by decide)
  rw [List.filter_append, List.filter_append, filter_dropPolicies, filter_dropPolicies,
    List.filter_cons_of_neg (by rw [hnot]; decide), List.filter_cons_of_pos hpolicy]
  rfl

theorem filter_image_written (hfront : ∀ l ∈ front, l.isDirect column "image".toList = false)
    (hback : ∀ l ∈ back, l.isDirect column "image".toList = false) :
    (dropPolicies column front ++ ([image, policy] ++ dropPolicies column back)).filter
        (Line.isDirect column "image".toList) = [image] := by
  have hfree : ∀ item : List Line, (∀ l ∈ item, l.isDirect column "image".toList = false) →
      (dropPolicies column item).filter (Line.isDirect column "image".toList) = [] :=
    fun item hitem => List.filter_eq_nil_iff.2 fun l hl =>
      Bool.not_eq_true _ ▸ hitem l ((dropPolicies_sublist column item).mem hl)
  have hother : policy.isDirect column "image".toList = false :=
    Line.not_isDirect_of_hasKey (Line.isDirect_iff.1 hpolicy).2 (by decide)
  rw [List.filter_append, List.filter_append, hfree front hfront, hfree back hback,
    List.filter_cons_of_pos himage, List.filter_cons_of_neg (by rw [hother]; decide)]
  rfl

/-- No key but the pull policy is written more often than it was there. -/
theorem countP_written_le {key : Text} (hline : line.isDirect column "image".toList = true)
    (hkey : key ≠ "imagePullPolicy".toList) :
    (dropPolicies column front ++ ([image, policy] ++ dropPolicies column back)).countP
        (Line.isDirect column key) ≤ (front ++ line :: back).countP (Line.isDirect column key) := by
  have hsame := isDirect_written himage hline key
  have hother : policy.isDirect column key = false :=
    Line.not_isDirect_of_hasKey (Line.isDirect_iff.1 hpolicy).2 (Ne.symm hkey)
  have hfront := (dropPolicies_sublist column front).countP_le (p := Line.isDirect column key)
  have hback := (dropPolicies_sublist column back).countP_le (p := Line.isDirect column key)
  simp only [List.countP_append, List.countP_cons, List.countP_nil, hsame, hother,
    Bool.false_eq_true, if_false]
  omega

end Counts

/-- With every key of an item once, the item that the edit writes holds the image and the policy
once unless a pull policy stands on a dash line. -/
theorem holdsImageOnce_iff (hfront : ∀ l ∈ front, l.isDirect column "image".toList = false)
    (hline : line.isDirect column "image".toList = true)
    (honce : ∀ key, (front ++ line :: back).countP (Line.isDirect column key) ≤ 1) :
    HoldsImageOnce column (dropPolicies column front ++
        (imageLines (line.leading ++ line.marker) column ++ dropPolicies column back)) ↔
      ∀ l ∈ front ++ line :: back, isDashPolicy column l = false := by
  obtain ⟨image, policy, hlines, -, himage, hpolicy, himageContent, hpolicyContent⟩ :=
    exists_imageLines hline
  have hpolicies := @filter_policy_written column front back image policy himage hpolicy
  have hplain : isDashPolicy column line = false := by
    rw [isDashPolicy, Line.not_isDirect_of_hasKey (Line.isDirect_iff.1 hline).2 (by decide),
      Bool.and_false]
  have hdash : (∀ l ∈ front ++ line :: back, isDashPolicy column l = false) ↔
      front.filter (isDashPolicy column) = [] ∧ back.filter (isDashPolicy column) = [] := by
    simp only [List.forall_mem_append, List.forall_mem_cons, hplain, true_and,
      List.filter_eq_nil_iff, Bool.not_eq_true]
  rw [hlines, hdash]
  constructor
  · rintro ⟨-, ⟨l, hl, -⟩, -⟩
    have hlength := congrArg List.length (hpolicies.symm.trans hl)
    simp only [List.length_append, List.length_cons, List.length_nil] at hlength
    exact ⟨List.eq_nil_of_length_eq_zero (by omega), List.eq_nil_of_length_eq_zero (by omega)⟩
  · rintro ⟨hnone, hnone'⟩
    rw [hnone, hnone', List.nil_append] at hpolicies
    have hback : ∀ l ∈ back, l.isDirect column "image".toList = false := by
      have hle := honce "image".toList
      rw [List.countP_append, List.countP_cons_of_pos hline] at hle
      have hzero : back.countP (Line.isDirect column "image".toList) = 0 := by omega
      exact fun l hl => Bool.not_eq_true _ ▸ List.countP_eq_zero.1 hzero l hl
    refine ⟨⟨image, filter_image_written himage hpolicy hfront hback, himageContent⟩,
      ⟨policy, hpolicies, hpolicyContent⟩, fun key => ?_⟩
    by_cases hkey : key = "imagePullPolicy".toList
    · rw [hkey, List.countP_eq_length_filter, hpolicies]
      rfl
    · exact (countP_written_le himage hpolicy hline hkey).trans (honce key)

/-- The item that the edit writes is found exactly when the item without the policies is. -/
theorem exists_findsItem_image (hdash : dash.isItem = true)
    (hdeep : ∀ l ∈ inner, l.isDeeper dash.indent = true)
    (hitem : dash :: inner = front ++ line :: back)
    (hline : line.isDirect dash.column "image".toList = true) :
    ∃ dash' inner', dropPolicies dash.column front ++
        (imageLines (line.leading ++ line.marker) dash.column ++ dropPolicies dash.column back) =
          dash' :: inner' ∧
      dash'.indent = dash.indent ∧ dash'.column = dash.column ∧
      (∀ l ∈ inner', l.isDeeper dash'.indent = true) ∧
      ∀ start behind,
        FindsItem Container.managerName (start ++ dash' :: (inner' ++ behind)) start dash' inner'
            behind ↔
          FindsItem Container.managerName
            (start ++ dash :: (dropPolicies dash.column inner ++ behind)) start dash
            (dropPolicies dash.column inner) behind := by
  obtain ⟨hcolumn, hkey⟩ := Line.isDirect_iff.1 hline
  obtain ⟨image, policy, hlines, hlook', himage, hpolicy, -, -⟩ := exists_imageLines hline
  have hlook := looksLike_self (Line.not_isBlank_of_hasKey hkey)
  have hname : ∀ l ∈ [line] ++ [image, policy], l.isNamed Container.managerName = false := by
    simp only [List.singleton_append, List.forall_mem_cons]
    exact ⟨(Line.isInert_of_hasKey hkey (by decide)).not_isManagerName,
      (Line.isInert_of_hasKey (Line.isDirect_iff.1 himage).2 (by decide)).not_isManagerName,
      (Line.isInert_of_hasKey (Line.isDirect_iff.1 hpolicy).2 (by decide)).not_isManagerName,
      by simp⟩
  have hname' : ∀ l ∈ [image, policy] ++ [line], l.isNamed Container.managerName = false :=
    fun l hl => hname l (by simp at hl ⊢; tauto)
  have hold : dash :: dropPolicies dash.column inner =
      dropPolicies dash.column front ++ ([line] ++ dropPolicies dash.column back) := by
    rw [← dropPolicies_cons hdash, hitem, dropPolicies_around hline, List.singleton_append]
  rw [hlines]
  obtain ⟨dash', inner', hnew⟩ : ∃ dash' inner', dropPolicies dash.column front ++
      ([image, policy] ++ dropPolicies dash.column back) = dash' :: inner' := by
    cases dropPolicies dash.column front <;> exact ⟨_, _, rfl⟩
  obtain ⟨hindent, hcolumn', -, hdeep'⟩ := hlook.deep hlook' hdash
    (fun l hl => hdeep l ((dropPolicies_sublist _ _).mem hl)) hold hnew.symm
  refine ⟨dash', inner', hnew, hindent, hcolumn', hdeep', fun start behind => ⟨fun h => ?_,
    fun h => ?_⟩⟩
  · exact hlook'.findsItem hlook (hcolumn.trans hcolumn'.symm) hname' hnew.symm hold h
  · exact hlook.findsItem hlook' hcolumn hname hold hnew.symm h

theorem fillImage_eq (hfinds : FindsItem Container.managerName ls start dash inner behind)
    (hitem : dash :: inner = front ++ line :: back)
    (hfront : ∀ l ∈ front, l.isDirect dash.column "image".toList = false)
    (hline : line.isDirect dash.column "image".toList = true) (hindented : line.IsIndented)
    (hfresh : ¬ imageRepository <:+: line) :
    fillImage ls = .ok (start ++ (dropPolicies dash.column front ++
      (imageLines (line.leading ++ line.marker) dash.column ++
        dropPolicies dash.column back) ++ behind)) := by
  have hblank := Line.not_isBlank_of_hasKey (Line.isDirect_iff.1 hline).2
  have hls : ls = start ++ (front ++ line :: back ++ behind) := by rw [hfinds.eq_append, hitem]
  have hfill := fillImage_around (by rw [← hitem]) hfinds.manager?_eq
    (hfinds.key?_eq hitem hfront hline) hls hindented hblank hfresh
  rw [hfill]
  simp [dropPolicies]

end Values

namespace Pass

/-- The pass writes the image and the pull policy in the place of an image that is not looked up yet,
drops the pull policies of the item that stand on lines of their own, and keeps all other lines.
Behind it the item is the manager's with each of the two keys once exactly when no pull policy of
it stands on a dash line, and without the dropped policies it is still the manager's. So it is
when no dropped policy has lines below it. -/
theorem image_once_iff (context : PassContext) {t : Text} {container : Container} {key : Nat}
    (ht : t.IsIndented) (hmanager : Container.manager? t.lines = some container)
    (hkey : container.key? t.lines "image".toList = some key)
    (hfresh : ¬ Values.imageRepository <:+: lineAt t.lines key)
    (honce : ∀ name,
      (container.linesOf t.lines).countP (Line.isDirect container.column name) ≤ 1) :
    let dropped := t.lines.take container.start ++
      Values.dropPolicies container.column (container.linesOf t.lines) ++
        t.lines.drop container.stop
    ∃ out front line back,
      image.run context t = .ok out ∧
      container.linesOf t.lines = front ++ line :: back ∧
      key = container.start + front.length ∧
      out.lines = t.lines.take container.start ++
        (Values.dropPolicies container.column front ++
          (Values.imageLines (line.leading ++ line.marker) container.column ++
            Values.dropPolicies container.column back)) ++ t.lines.drop container.stop ∧
      ((∃ found, Container.manager? out.lines = some found ∧ found.start = container.start ∧
          Values.HoldsImageOnce found.column (found.linesOf out.lines)) ↔
        (∀ l ∈ container.linesOf t.lines, Values.isDashPolicy container.column l = false) ∧
          (Container.manager? dropped).map Container.start = some container.start) ∧
      ((∀ above policy below, container.linesOf t.lines = above ++ policy :: below →
          Values.isPullPolicy container.column policy = true → Stops container.column below) →
        (Container.manager? dropped).map Container.start = some container.start) := by
  intro dropped
  obtain ⟨start, dash, inner, behind, hfinds, -⟩ := Container.exists_findsItem hmanager
  obtain rfl := Option.some.inj (hmanager.symm.trans hfinds.manager?_eq)
  have hlinesOf := hfinds.linesOf_eq dash.column
  have htake := hfinds.take_start
  have hdrop := hfinds.drop_stop
  dsimp only [dropped]
  rw [hlinesOf] at honce
  rw [htake, hdrop, hlinesOf]
  obtain ⟨front, line, back, hitem, hfront, hline, rfl⟩ := hfinds.exists_of_key? hkey
  have hsplit : t.lines = (start ++ front) ++ line :: (back ++ behind) := by
    rw [hfinds.eq_append, hitem]
    simp
  rw [hsplit, lineAt_length] at hfresh
  have hindented := ht.areIndented.indented line (by rw [hsplit]; simp)
  have hfill := Values.fillImage_eq hfinds hitem hfront hline hindented hfresh
  have hout := lines_ofLines (Values.areLines_fillImage hfill (areLines_lines t))
  have hrun : image.run context t = .ok (Text.ofLines (start ++
      (Values.dropPolicies dash.column front ++
        (Values.imageLines (line.leading ++ line.marker) dash.column ++
          Values.dropPolicies dash.column back) ++ behind))) := by
    simp only [image, ofEdit, hfill, Except.map]
  obtain ⟨dash', inner', hnew, hindent, hcolumn, hdeep, hiff⟩ :=
    Values.exists_findsItem_image hfinds.item.item hfinds.item.deep hitem hline
  have hfound := Container.exists_manager?_iff start hdeep (hindent ▸ hfinds.stops)
    Values.HoldsImageOnce
  have hdropped := Container.map_start_manager?_iff start
    (fun l hl => hfinds.item.deep l ((Values.dropPolicies_sublist dash.column _).mem hl))
    hfinds.stops
  have honce' := Values.holdsImageOnce_iff hfront hline (hitem ▸ honce)
  rw [← hitem, hnew] at honce'
  rw [Values.dropPolicies_cons hfinds.item.item, List.append_assoc, List.cons_append]
  refine ⟨_, front, line, back, hrun, hitem, List.length_append, ?_, ?_, fun hstops => ?_⟩
  · rw [hout]
    simp
  · rw [hout, hnew, List.cons_append, hfound, hcolumn, honce', hiff, hdropped]
    exact and_comm
  · have hnamed : IsNamedItem Container.managerName dash
        ([] ++ Values.dropPolicies dash.column inner) :=
      Values.isNamedItem_dropPolicies (fun front policy below heq =>
        hstops (dash :: front) policy below (by rw [heq]; rfl)) hfinds.item
    exact hdropped.2 ⟨rfl, hfinds.fresh, hnamed, hfinds.stops⟩

/-- A manager with its image on the dash line of the item and the policy behind it. -/
theorem image_once_iff_dash :
    let context : PassContext := ⟨⟨"Deployment".toList, [], [], []⟩, "demo".toList⟩
    let t := Text.ofLines (["containers:", "- image: x", "  name: manager",
      "  imagePullPolicy: Always", "- image: y"].map String.toList)
    let container : Container := ⟨1, 4, 2⟩
    let dropped := t.lines.take container.start ++
      Values.dropPolicies container.column (container.linesOf t.lines) ++
        t.lines.drop container.stop
    t.IsIndented ∧ Container.manager? t.lines = some container ∧
      container.key? t.lines "image".toList = some 1 ∧
      ¬ Values.imageRepository <:+: lineAt t.lines 1 ∧
      (∀ name, (container.linesOf t.lines).countP (Line.isDirect container.column name) ≤ 1) ∧
      ∃ out front line back,
        image.run context t = .ok out ∧
        container.linesOf t.lines = front ++ line :: back ∧
        1 = container.start + front.length ∧
        out.lines = t.lines.take container.start ++
          (Values.dropPolicies container.column front ++
            (Values.imageLines (line.leading ++ line.marker) container.column ++
              Values.dropPolicies container.column back)) ++ t.lines.drop container.stop ∧
        ((∃ found, Container.manager? out.lines = some found ∧ found.start = container.start ∧
            Values.HoldsImageOnce found.column (found.linesOf out.lines)) ↔
          (∀ l ∈ container.linesOf t.lines, Values.isDashPolicy container.column l = false) ∧
            (Container.manager? dropped).map Container.start = some container.start) ∧
        ((∀ above policy below, container.linesOf t.lines = above ++ policy :: below →
            Values.isPullPolicy container.column policy = true → Stops container.column below) →
          (Container.manager? dropped).map Container.start = some container.start) := by
  intro context t container dropped
  have ht : t.IsIndented := by decide +kernel
  have hmanager : Container.manager? t.lines = some container := by decide +kernel
  have hkey : container.key? t.lines "image".toList = some 1 := by decide +kernel
  have hfresh : ¬ Values.imageRepository <:+: lineAt t.lines 1 :=
    hasInfix_eq_false_iff.1 (by decide +kernel)
  have honce : ∀ name,
      (container.linesOf t.lines).countP (Line.isDirect container.column name) ≤ 1 := by
    have hlines : container.linesOf t.lines =
        ["- image: x", "  name: manager", "  imagePullPolicy: Always"].map String.toList := by
      decide +kernel
    have hkeys : ∀ name, Line.isDirect 2 name "- image: x".toList = ("image".toList == name) ∧
        Line.isDirect 2 name "  name: manager".toList = ("name".toList == name) ∧
        Line.isDirect 2 name "  imagePullPolicy: Always".toList =
          ("imagePullPolicy".toList == name) := fun name => ⟨rfl, rfl, rfl⟩
    intro name
    obtain ⟨himage, hname, hpolicy⟩ := hkeys name
    rw [hlines]
    simp only [List.map_cons, List.map_nil, List.countP_cons, List.countP_nil, container, himage,
      hname, hpolicy, beq_iff_eq]
    by_cases hfirst : "image".toList = name
    · subst hfirst
      decide
    by_cases hsecond : "name".toList = name
    · subst hsecond
      decide
    · rw [if_neg hfirst, if_neg hsecond]
      split <;> decide
  exact ⟨ht, hmanager, hkey, hfresh, honce,
    image_once_iff context ht hmanager hkey hfresh honce⟩

/-- A pull policy on the dash line stays beside the one that is written. -/
theorem image_policy_twice :
    let context : PassContext := ⟨⟨"Deployment".toList, [], [], []⟩, "demo".toList⟩
    let t := Text.ofLines (["containers:", "- imagePullPolicy: Always", "  image: x",
      "  name: manager", ""].map String.toList)
    let item := ["- imagePullPolicy: Always",
      "  image: \"\x7b\x7b .Values.controllerManager.image.repository \x7d\x7d:" ++
        "\x7b\x7b .Values.controllerManager.image.tag \x7d\x7d\"",
      "  imagePullPolicy: \x7b\x7b .Values.controllerManager.image.pullPolicy \x7d\x7d",
      "  name: manager"].map String.toList
    Container.manager? t.lines = some ⟨1, 4, 2⟩ ∧
      image.run context t = .ok (Text.ofLines ("containers:".toList :: item ++ [[]])) ∧
      item.countP (Line.isDirect 2 "imagePullPolicy".toList) = 2 := by
  intro context t item
  exact ⟨by decide +kernel, by decide +kernel, by decide +kernel⟩

end Pass

end OperatorChart
