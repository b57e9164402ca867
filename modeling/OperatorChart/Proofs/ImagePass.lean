import OperatorChart.Proofs.SettledValues
/-!
# The edit of the image on a shaped deployment

The edit drops the manager's own pull policies and replaces the line of the image. A pull policy
has nothing below it, so a line less changes no block but for the security contexts that end up
right before the service account. These are keys of the manager.
-/

namespace OperatorChart

open Text

def PoliciesStop : List Line → Prop
  | [] => True
  | line :: rest =>
    (line.hasKey "imagePullPolicy".toList = true → Stops line.column rest) ∧ PoliciesStop rest

instance decidablePoliciesStop : ∀ ls, Decidable (PoliciesStop ls)
  | [] => isTrue trivial
  | line :: rest =>
    have := decidablePoliciesStop rest
    inferInstanceAs (Decidable ((_ → Stops line.column rest) ∧ PoliciesStop rest))

theorem PoliciesStop.of_append {above rest : List Line} (h : PoliciesStop (above ++ rest)) :
    PoliciesStop rest := by
  induction above with
  | nil => exact h
  | cons line above ih => exact ih h.2

section Item

variable {ls start inner behind front back : List Line} {dash line : Line}

theorem podsAreKeys_of_manages (hnamed : NamedOnce ls) (h : Manages ls start dash inner behind)
    (hall : ∀ front line back, dash :: inner = front ++ line :: back →
      line.isPod (back ++ behind) = true → line.column = dash.column) : PodsAreKeys ls := by
  rintro before line after column front rfl hplace hpod
  obtain ⟨-, hcolumn, back, hitem, rfl⟩ := hplace.of_manages_unique hnamed h
  exact (hall front line back hitem hpod).trans hcolumn

theorem PodsAreKeys.of_manages (hpods : PodsAreKeys ls) (h : Manages ls start dash inner behind)
    (hitem : dash :: inner = front ++ line :: back) (hpod : line.isPod (back ++ behind) = true) :
    line.column = dash.column := by
  obtain ⟨heq, hplace⟩ := InManager.of_manages h hitem
  exact hpods _ line _ dash.column front heq hplace hpod

end Item

namespace Values

/-! ## Pull policies less -/

section Drop

variable {column : Nat} {words : List Text} {start behind above below todo rest item : List Line}
  {policy line : Line}

/-- A document whose manager has given lines, with keys at a given column. -/
structure IsAround (words : List Text) (column : Nat) (start item behind : List Line) : Prop where
  shaped : IsShaped (start ++ (item ++ behind))
  tidy : ∀ l ∈ start ++ (item ++ behind), l.IsTidy words
  pods : PodsAreKeys (start ++ (item ++ behind))
  manages : ∃ dash inner, item = dash :: inner ∧ dash.column = column ∧
    Manages (start ++ (item ++ behind)) start dash inner behind

theorem isPullPolicy_iff : isPullPolicy column policy = true ↔ policy.isItem = false ∧
    policy.column = column ∧ policy.hasKey "imagePullPolicy".toList = true := by
  rw [isPullPolicy, Bool.and_eq_true, Bool.and_eq_true, Bool.not_eq_true', beq_iff_eq, and_assoc]

/-- A security context that belongs to a pod once a pull policy is gone did so before, or stands at
the policy's column. -/
theorem isPod_of_drop {between after : List Line} (hpolicy : isPullPolicy column policy = true)
    (hswap : IsSwap [policy] [] after) (hstops : Stops column after)
    (h : line.isPod (between ++ after) = true) :
    line.isPod (between ++ policy :: after) = true ∨ line.column = column := by
  obtain ⟨hplain, hcolumn, hkey⟩ := isPullPolicy_iff.1 hpolicy
  have hindent := Line.indent_of_not_isItem hplain
  have hpolicyBlank := Line.not_isBlank_of_hasKey hkey
  rw [Line.isPod, Bool.and_eq_true] at h ⊢
  rw [h.1]
  have haccount := h.2
  unfold precedesAccount at haccount ⊢
  rcases hswap.dropWhile line.column between with ⟨r, hold, hnew⟩ | heq
  · rw [List.nil_append] at hnew
    rw [List.singleton_append] at hold
    cases r with
    | cons first r =>
        rw [hnew] at haccount
        rw [hold]
        exact .inl ⟨rfl, haccount⟩
    | nil =>
        right
        have hpolicyStops := stops_dropWhile line.column (between ++ policy :: after)
        rw [hold, List.nil_append, stops_cons, ← Bool.not_eq_true, Line.isDeeper_iff]
          at hpolicyStops
        rw [hnew, List.nil_append] at haccount
        obtain ⟨l, hl, hfound⟩ := (Option.any_eq_true _ _).1 haccount
        rw [Bool.and_eq_true, beq_iff_eq] at hfound
        have hblank := Line.not_isBlank_of_hasKey hfound.2
        have hstop := hstops l hl
        rw [← Bool.not_eq_true, Line.isDeeper_iff] at hstop
        have hle : ¬ line.column < policy.indent := fun hlt => hpolicyStops ⟨hpolicyBlank, hlt⟩
        have hle' : ¬ column < l.indent := fun hlt => hstop ⟨hblank, hlt⟩
        omega
  · rw [List.singleton_append, List.nil_append] at heq
    rw [heq]
    exact .inl ⟨rfl, haccount⟩

theorem IsAround.drop (hpolicy : isPullPolicy column policy = true)
    (hstops : Stops column (below ++ behind))
    (h : IsAround words column start (above ++ policy :: below) behind) :
    IsAround words column start (above ++ below) behind := by
  obtain ⟨hplain, hcolumn, hkey⟩ := isPullPolicy_iff.1 hpolicy
  have hindent := Line.indent_of_not_isItem hplain
  have hblank := Line.not_isBlank_of_hasKey hkey
  have hswap : IsSwap [policy] [] (below ++ behind) :=
    (IsSwap.of_stops hblank (by simp) (by rwa [hindent, hcolumn])).symm
  have hstep : IsStep [policy] [] (below ++ behind) := ⟨hswap, by simp, by simp⟩
  have hold : start ++ (above ++ policy :: below ++ behind) =
      start ++ above ++ ([policy] ++ (below ++ behind)) := by simp
  have hnew : start ++ (above ++ below ++ behind) =
      start ++ above ++ ([] ++ (below ++ behind)) := by simp
  obtain ⟨dash, inner, hitem, hdash, hmanages⟩ := h.manages
  have hinert : policy.isManagerName = false :=
    (Line.isInert_of_hasKey hkey (by decide)).not_isManagerName
  obtain ⟨r, rfl, rfl⟩ : ∃ r, above = dash :: r ∧ inner = r ++ policy :: below := by
    cases above with
    | nil =>
        obtain ⟨rfl, -⟩ := List.cons.inj hitem
        rw [hmanages.item] at hplain
        cases hplain
    | cons first r =>
        obtain ⟨rfl, hrest⟩ := List.cons.inj hitem
        exact ⟨r, rfl, hrest.symm⟩
  have hmanages' : Manages (start ++ (dash :: r ++ below ++ behind)) start dash (r ++ below)
      behind := by
    have hold : Manages (start ++ (dash :: r ++ policy :: below ++ behind)) start dash
        (r ++ ([policy] ++ below)) behind := by simpa using hmanages
    simpa using hold.swap hswap (by simp) (by simpa using hinert) (by simp)
  have hshaped : IsShaped (start ++ (dash :: r ++ below ++ behind)) := by
    rw [hnew]
    exact IsShaped.step hstep (hold ▸ h.shaped)
  refine ⟨hshaped, fun l hl => h.tidy l ?_, podsAreKeys_of_manages hshaped.named hmanages' ?_,
    dash, r ++ below, rfl, hdash, hmanages'⟩
  · simp only [List.mem_append, List.mem_cons] at hl ⊢
    tauto
  · intro front line back heq hpod
    rw [← List.cons_append] at heq
    rcases cases_of_append_eq heq with ⟨between, hfront, rfl⟩ | ⟨s, rfl, rfl⟩
    · rw [List.append_assoc] at hpod
      rcases isPod_of_drop hpolicy hswap hstops hpod with hpod | hat
      · have hold : dash :: (r ++ policy :: below) =
            front ++ line :: (between ++ policy :: below) := by
          rw [← List.cons_append, hfront]
          simp
        exact h.pods.of_manages hmanages hold (by simpa using hpod)
      · exact hat.trans hdash.symm
    · have hold : dash :: (r ++ policy :: (s ++ line :: back)) =
          (dash :: r ++ policy :: s) ++ line :: back := by simp
      exact h.pods.of_manages hmanages hold hpod

theorem IsAround.filter (hpolicies : PoliciesStop (todo ++ (rest ++ behind)))
    (h : IsAround words column start (above ++ (todo ++ rest)) behind) :
    IsAround words column start
      (above ++ (todo.filter (fun l => !isPullPolicy column l) ++ rest)) behind := by
  induction todo generalizing above with
  | nil => exact h
  | cons line todo ih =>
      cases hline : isPullPolicy column line with
      | true =>
          obtain ⟨-, hcolumn, hkey⟩ := isPullPolicy_iff.1 hline
          have hstops := hpolicies.1 hkey
          rw [List.filter_cons_of_neg (by simp [hline])]
          refine ih hpolicies.2 (h.drop hline ?_)
          rwa [List.append_assoc, ← hcolumn]
      | false =>
          rw [List.filter_cons_of_pos (by simp [hline])]
          have hmove : above ++ (line :: todo ++ rest) = above ++ [line] ++ (todo ++ rest) := by
            simp
          rw [hmove] at h
          have hnext := ih hpolicies.2 h
          simpa using hnext

end Drop

/-! ## The edit -/

section Edit

variable {words : List Text} {start front back behind ls : List Line} {line : Line}
  {column : Nat}

theorem flatMap_zipIdx {f : Line × Nat → List Line} (g : Line → List Line) (xs : List Line)
    {n : Nat} (h : ∀ l ∈ xs, ∀ i, n ≤ i → i < n + xs.length → f (l, i) = g l) :
    (xs.zipIdx n).flatMap f = xs.flatMap g := by
  induction xs generalizing n with
  | nil => rfl
  | cons x xs ih =>
      rw [List.zipIdx_cons, List.flatMap_cons, List.flatMap_cons,
        h x List.mem_cons_self n (Nat.le_refl n) (by simp)]
      congr 1
      refine ih fun l hl i hle hlt => h l (List.mem_cons_of_mem x hl) i (by omega) ?_
      rw [List.length_cons]
      omega

theorem flatMap_eq_filter (p : Line → Bool) (xs : List Line) :
    xs.flatMap (fun l => if p l then [] else [l]) = xs.filter (fun l => !p l) := by
  induction xs with
  | nil => rfl
  | cons x xs ih =>
      rw [List.flatMap_cons, ih]
      cases hx : p x <;> simp [hx]

/-- The image replaced and the pull policies dropped, in parts of the document. -/
theorem replaceImage_around (start front back behind replacement : List Line) (line : Line)
    (column : Nat) :
    replaceImage ⟨start.length, start.length + (front ++ line :: back).length, column⟩
        (start ++ front).length replacement (start ++ (front ++ line :: back ++ behind)) =
      start ++ (front.filter (fun l => !isPullPolicy column l) ++
        (replacement ++ (back.filter (fun l => !isPullPolicy column l) ++ behind))) := by
  have hkeep : ∀ xs : List Line, xs.flatMap (fun l => [l]) = xs := fun xs => by simp
  have hlength : (start ++ front).length = start.length + front.length := List.length_append
  have hstop : (front ++ line :: back).length = front.length + 1 + back.length := by
    rw [List.length_append, List.length_cons]
    omega
  simp only [replaceImage, List.zipIdx_append, List.zipIdx_cons, List.flatMap_append,
    List.flatMap_cons, List.append_assoc, List.cons_append, hlength, hstop, Nat.zero_add, if_true]
  -- the lines outside of the item are kept, the ones inside lose the policies
  rw [flatMap_zipIdx (fun l => [l]) start, hkeep,
    flatMap_zipIdx (fun l => if isPullPolicy column l then [] else [l]) front, flatMap_eq_filter,
    flatMap_zipIdx (fun l => if isPullPolicy column l then [] else [l]) back, flatMap_eq_filter,
    flatMap_zipIdx (fun l => [l]) behind, hkeep]
  · intro l _ i hle hlt
    dsimp only
    have hout : ¬ i < start.length + (front.length + 1 + back.length) := by omega
    rw [if_neg (by omega), decide_eq_false hout, Bool.and_false, Bool.false_and]
    rfl
  · intro l _ i hle hlt
    dsimp only
    rw [if_neg (by omega), decide_eq_true (by omega), decide_eq_true (by omega)]
    rfl
  · intro l _ i hle hlt
    dsimp only
    rw [if_neg (by omega), decide_eq_true (by omega), decide_eq_true (by omega)]
    rfl
  · intro l _ i hle hlt
    dsimp only
    have hout : ¬ start.length ≤ i := by omega
    rw [if_neg (by omega), decide_eq_false hout, Bool.false_and, Bool.false_and]
    rfl

theorem fillImage_around {container : Container} (hcontainer : container =
      ⟨start.length, start.length + (front ++ line :: back).length, column⟩)
    (hmanager : Container.manager? ls = some container)
    (hkey : container.key? ls "image".toList = some (start ++ front).length)
    (hls : ls = start ++ (front ++ line :: back ++ behind)) (hindented : line.IsIndented)
    (hblank : line.isBlank = false) (hfresh : ¬ imageRepository <:+: line) :
    fillImage ls = .ok (start ++ (front.filter (fun l => !isPullPolicy column l) ++
      (imageLines (line.leading ++ line.marker) column ++
        (back.filter (fun l => !isPullPolicy column l) ++ behind)))) := by
  have hat : lineAt ls (start ++ front).length = line := by
    have hsplit : ls = (start ++ front) ++ line :: (back ++ behind) := by
      rw [hls]
      simp
    rw [hsplit, lineAt_length]
  have hreplaced := replaceImage_around start front back behind
    (imageLines (line.leading ++ line.marker) column) line column
  rw [fillImage, hmanager]
  dsimp only
  rw [hkey]
  dsimp only
  rw [hat, hasInfix_eq_false_iff.2 hfresh, Line.keyPrefix_eq hindented hblank, hcontainer, hls,
    if_neg (by decide)]
  exact congrArg Except.ok hreplaced

def imageEntry : Text :=
  " \"".toList ++ (Directive.value imageRepository).render ++ ':' ::
    (Directive.value ".Values.controllerManager.image.tag".toList).render ++ ['"']

def policyEntry : Text :=
  ' ' :: (Directive.value ".Values.controllerManager.image.pullPolicy".toList).render

theorem imageLines_withEntry (line : Line) (column : Nat) :
    imageLines (line.leading ++ line.marker) column =
      [line.withEntry ("image".toList ++ ':' :: imageEntry),
        padding column ++ ("imagePullPolicy".toList ++ ':' :: policyEntry)] := by
  simp only [imageLines, Line.withEntry, imageEntry, policyEntry, List.append_assoc]
  rfl

theorem isPlainKey_image : Line.IsPlainKey "image".toList :=
  ⟨by decide, by decide, by decide⟩

theorem isPadded_policy (column : Nat) : Line.IsPadded column "imagePullPolicy".toList
    (padding column ++ ("imagePullPolicy".toList ++ ':' :: policyEntry)) :=
  Line.isPadded_append ⟨by decide, by decide, by decide⟩ column policyEntry

theorem isReplacement_image (hkey : line.hasKey "image".toList = true) (after : List Line) :
    IsReplacement "image".toList line [] (line.withEntry ("image".toList ++ ':' :: imageEntry))
      [padding line.column ++ ("imagePullPolicy".toList ++ ':' :: policyEntry)] after := by
  have hmarker := Line.isMarker_of_hasKey hkey
  have hpolicy := isPadded_policy line.column
  have hblank := Line.not_isBlank_of_hasKey hpolicy.hasKey
  refine ⟨hkey, Line.hasKey_withEntry isPlainKey_image hmarker _,
    Line.indent_withEntry isPlainKey_image hmarker _,
    Line.column_withEntry isPlainKey_image hmarker _,
    Line.isItem_withEntry isPlainKey_image hmarker _, by simp, ?_, ?_, ?_, ?_⟩
  · exact List.forall_mem_singleton.2 ⟨hblank, hpolicy.indent.ge⟩
  · exact List.forall_mem_singleton.2 (Line.isInert_of_hasKey hpolicy.hasKey (by decide))
  · exact List.forall_mem_cons.2 ⟨Line.isIndented_withEntry isPlainKey_image hmarker _,
      List.forall_mem_singleton.2 hpolicy.indented⟩
  · refine List.forall_mem_singleton.2 fun hitem => ?_
    rw [hpolicy.no_item] at hitem
    cases hitem

theorem isTidy_imageLines (line : Line) (column : Nat) :
    ∀ l ∈ imageLines (line.leading ++ line.marker) column, l.IsTidy lookupPaths.tail := by
  have hwords : ∀ w ∈ lookupPaths.tail, w ∈ lookupPaths := fun _ => List.mem_of_mem_tail
  have hpadding : ∀ c ∈ padding column, Line.IsLead c := fun c hc =>
    .inl (isWhiteSpace_of_isIndentation (isIndentation_padding column c hc))
  have hlead : ∀ c ∈ line.leading ++ line.marker, Line.IsLead c := by
    intro c hc
    rcases List.mem_append.1 hc with hc | hc
    · exact .inl (isWhiteSpace_of_isIndentation (Line.isIndentation_of_mem_leading hc))
    · exact Line.isLead_of_mem_marker hc
  have hbrace : ∀ s : Text, (∀ c ∈ s, Line.IsLead c) → '{' ∉ s := fun s hs hmem =>
    absurd (hs '{' hmem) (by rintro (h | h) <;> cases h)
  rw [imageLines_withEntry]
  refine List.forall_mem_cons.2 ⟨?_, List.forall_mem_singleton.2 ?_⟩
  · exact (Line.IsPlain.append_left (by decide) (hbrace _ hlead)).isTidy
      (Line.avoids_append_left hwords hlead (by decide))
  · exact (Line.IsPlain.append_left (by decide) (hbrace _ hpadding)).isTidy
      (Line.avoids_append_left hwords hpadding (by decide))

theorem edits_image (hready : IsReady lookupPaths (front ++ line :: back))
    (hfirst : IsFirstKey "image".toList front line back) :
    Edits "image".toList lookupPaths.tail (front ++ line :: back)
        (front ++ (imageLines (line.leading ++ line.marker) line.column ++ back)) ∧
      KeySettled "image".toList imageSettled
        (front ++ (imageLines (line.leading ++ line.marker) line.column ++ back)) := by
  have hreplace := isReplacement_image hfirst.hasKey back
  have hmove := hreplace.isMove (by decide) front
  have hnamed := hready.shaped.named
  have htidy := isTidy_imageLines line line.column
  rw [imageLines_withEntry] at htidy ⊢
  have hplace : ∀ column start, InManager column start front [line] back → column = line.column :=
    fun column start h => IsFirstKey.column_eq hnamed hfirst h
  have hpolicy := isPadded_policy line.column
  have hother : ∀ key, key ≠ "imagePullPolicy".toList →
      Line.hasKey (padding line.column ++ ("imagePullPolicy".toList ++ ':' :: policyEntry)) key =
        false := fun key hne => Line.not_hasKey_of_hasKey hpolicy.hasKey hne.symm
  constructor
  · rw [← List.singleton_append] at hready ⊢
    refine Edits.of_move hready hmove ?_ htidy ?_
    · intro key hkey hne
      refine hreplace.quiet hne (fun column start h => (hplace column start h).le) ?_
      intro column _ l hl
      have hmanaged : ∀ key ∈ managedKeys, key ≠ "imagePullPolicy".toList := by decide
      rw [List.nil_append, List.mem_singleton] at hl
      rw [hl, Line.isDirect, hother key (hmanaged key hkey), Bool.and_false]
    · intro column start h l hl _ hpod
      rcases List.mem_cons.1 hl with rfl | hl
      · rw [hreplace.same_column, hplace column start h]
      · rw [List.mem_singleton.1 hl, hother _ (by decide)] at hpod
        cases hpod
  · refine KeySettled.of_head hmove hnamed hfirst hreplace.isDirect ?_
    refine ⟨line.leading ++ line.marker ++ "image: \"\x7b\x7b ".toList, " \x7d\x7d".toList ++ ':' ::
      (Directive.value ".Values.controllerManager.image.tag".toList).render ++ ['"'], ?_⟩
    simp only [Line.withEntry, imageEntry, List.append_assoc]
    rfl

theorem fillImage_of_no_key
    (h : (Container.manager? ls).bind (·.key? ls "image".toList) = none) :
    fillImage ls = .ok ls := by
  cases hmanager : Container.manager? ls with
  | none => rw [fillImage, hmanager]
  | some container =>
      rw [hmanager, Option.bind_some] at h
      rw [fillImage, hmanager]
      dsimp only
      rw [h]

theorem IsAround.dropPolicies
    (hpolicies : PoliciesStop (start ++ (front ++ line :: back ++ behind)))
    (h : IsAround words column start (front ++ line :: back) behind) :
    IsAround words column start (front.filter (fun l => !isPullPolicy column l) ++
      line :: back.filter (fun l => !isPullPolicy column l)) behind := by
  have habove : PoliciesStop (front ++ (line :: back ++ behind)) := by
    simpa using hpolicies.of_append
  have hbelow : PoliciesStop (back ++ ([] ++ behind)) := habove.of_append.2
  have hall : IsAround words column start ([] ++ (front ++ line :: back)) behind := h
  have hsplit : [] ++ (front.filter (fun l => !isPullPolicy column l) ++ line :: back) =
      front.filter (fun l => !isPullPolicy column l) ++ [line] ++ (back ++ []) := by simp
  have hfront := hall.filter habove
  rw [hsplit] at hfront
  simpa using hfront.filter hbelow

/-- A direct key of the manager with none of its name above it is the first one. -/
theorem IsAround.isFirstKey {key : Text}
    (h : IsAround words column start (front ++ line :: back) behind)
    (hfront : ∀ l ∈ front, l.isDirect column key = false) (hline : line.isDirect column key = true) :
    IsFirstKey key (start ++ front) line (back ++ behind) := by
  obtain ⟨dash, inner, hitem, rfl, hmanages⟩ := h.manages
  exact ⟨dash.column, front, (InManager.of_manages hmanages hitem.symm).2, hfront, hline⟩

theorem exists_fillImage (hready : IsReady lookupPaths ls) (hpolicies : PoliciesStop ls) :
    ∃ ls', fillImage ls = .ok ls' ∧ IsReady lookupPaths.tail ls' ∧
      KeySettled "image".toList imageSettled ls' := by
  have hnamed := hready.shaped.named
  have hsame : Edits "image".toList lookupPaths.tail ls ls := .same hready
  cases hmanager : Container.manager? ls with
  | none =>
      have hnone : (Container.manager? ls).bind (·.key? ls "image".toList) = none := by
        rw [hmanager]
        rfl
      exact ⟨ls, fillImage_of_no_key hnone, hsame.ready, .of_none hnamed hnone⟩
  | some container =>
      obtain ⟨start, dash, inner, behind, h, rfl⟩ := Container.exists_manages hmanager
      rcases exists_first (Line.isDirect dash.column "image".toList) (dash :: inner) with
        hnone | ⟨front, line, back, hitem, hfront, hline⟩
      · have hkey := h.key?_eq_none hnamed hnone
        exact ⟨ls, fillImage_of_no_key hkey, hsame.ready, .of_none hnamed hkey⟩
      have hkey := h.key?_eq hnamed hitem hfront hline
      rw [hmanager, Option.bind_some] at hkey
      have hdocument : ls = start ++ (front ++ line :: back ++ behind) := by
        rw [← hitem]
        exact h.eq
      have hmem : line ∈ ls := by
        rw [hdocument]
        simp
      have hdirect := Line.isDirect_iff.1 hline
      have hstop : start.length + 1 + inner.length =
          start.length + (front ++ line :: back).length := by
        rw [← hitem, List.length_cons]
        omega
      have hfill := fillImage_around (by rw [hstop]) hmanager hkey hdocument
        (hready.shaped.indented line hmem) (Line.not_isBlank_of_hasKey hdirect.2)
        ((hready.tidy line hmem).avoids _ List.mem_cons_self)
      -- what is written stands in the item without the pull policies
      have haround : IsAround lookupPaths dash.column start (front ++ line :: back) behind := by
        rw [hdocument] at hready h
        exact ⟨hready.shaped, hready.tidy, hready.pods, dash, inner, hitem.symm, rfl, h⟩
      have hdropped := haround.dropPolicies (hdocument ▸ hpolicies)
      have hfirst := hdropped.isFirstKey (fun l hl => hfront l (List.mem_of_mem_filter hl)) hline
      have hleft : IsReady lookupPaths
          (start ++ front.filter (fun l => !isPullPolicy dash.column l) ++
            line :: (back.filter (fun l => !isPullPolicy dash.column l) ++ behind)) := by
        have hshape : IsReady lookupPaths _ := ⟨hdropped.shaped, hdropped.tidy, hdropped.pods⟩
        simpa using hshape
      obtain ⟨hedits, hsettled⟩ := edits_image hleft hfirst
      rw [hdirect.1] at hedits hsettled
      rw [← List.append_assoc start] at hfill
      exact ⟨_, hfill, hedits.ready, hsettled⟩

end Edit

end Values

end OperatorChart
