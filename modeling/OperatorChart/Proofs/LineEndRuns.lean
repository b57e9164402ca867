import OperatorChart.Proofs.LineEndTexts
/-!
# Templating of texts with other ends of lines

Two rewrites ask for the end of a line behind spaces and tabs: the one of the label that names the
build tool and the one of a monitor's name. Before a carriage return they miss their lines, and
nothing else depends on how lines end. Main statement: but for its carriage returns the template of
a text with them is the template of the text, exactly when it is left without such lines; and a
service whose label is missed.
-/

namespace OperatorChart

open Text Line

namespace Naming

/-! ## Lines that are missed -/

/-- Whether a line is the label that names the build tool, or the entry with the conventional name
of a monitor. -/
def IsRewritten (project : Text) (resource : Resource) (line : Line) : Prop :=
  isManagedByBuild line = true ∨ resource.isKind .serviceMonitor = true ∧
    (monitorSuffix? project resource.name).isSome = true ∧ isNameEntry resource.name line = true

/-- Whether a line would be rewritten without the carriage return at its end. -/
def IsMissed (project : Text) (resource : Resource) (line : Line) : Prop :=
  ∃ front, line = front ++ ['\r'] ∧ IsRewritten project resource front

theorem isMissed_iff {project : Text} {resource : Resource} {line : Line} :
    IsMissed project resource line ↔
      line.getLast? = some '\r' ∧ IsRewritten project resource line.dropLast := by
  constructor
  · rintro ⟨front, rfl, h⟩
    exact ⟨by simp, by rwa [List.dropLast_concat]⟩
  · rintro ⟨hlast, h⟩
    obtain ⟨front, rfl⟩ := List.getLast?_eq_some_iff.1 hlast
    exact ⟨front, rfl, by rwa [List.dropLast_concat] at h⟩

instance (project : Text) (resource : Resource) (line : Line) :
    Decidable (IsRewritten project resource line) :=
  inferInstanceAs (Decidable (_ ∨ _))

instance (project : Text) (resource : Resource) (line : Line) :
    Decidable (IsMissed project resource line) :=
  decidable_of_iff _ isMissed_iff.symm

def renameMonitorLine (project : Text) (resource : Resource) (line : Line) : Line :=
  match monitorSuffix? project resource.name with
  | some suffix => renameLine resource.name (chartName ++ '-' :: suffix) line
  | none => line

def rewriteLine (project : Text) (resource : Resource) (line : Line) : Line :=
  fillManagedByLine
    (if resource.isKind .serviceMonitor then renameMonitorLine project resource line else line)

section Rewritten

variable {project suffix : Text} {resource : Resource} {line : Line}

theorem rewriteLine_eq_self (h : ¬ IsRewritten project resource line) :
    rewriteLine project resource line = line := by
  rw [IsRewritten, not_or] at h
  have hrename : (if resource.isKind .serviceMonitor then renameMonitorLine project resource line
      else line) = line := by
    split
    · rename_i hkind
      rw [renameMonitorLine]
      split
      · rename_i suffix hsuffix
        exact if_neg fun hentry => h.2 ⟨hkind, by rw [hsuffix]; rfl, hentry⟩
      · rfl
    · rfl
  rw [rewriteLine, hrename, fillManagedByLine, if_neg h.1]

theorem exists_dash_of_monitorSuffix? (hsolid : ∀ c ∈ project, Unicode.isWhiteSpace c = false)
    {name : Text} (hsuffix : monitorSuffix? project name = some suffix) :
    ∃ front rest, name = front ++ '-' :: rest ∧ ' ' ∉ front := by
  rcases suffix_of_monitorSuffix? hsuffix with ⟨-, rfl⟩ | ⟨rfl, -⟩
  · exact ⟨project, suffix, rfl, fun h => absurd (hsolid ' ' h) (by decide)⟩
  · exact ⟨"controller".toList, "manager-metrics-monitor".toList, rfl, by decide⟩

/-- The first word of a new name holds no dash, so the new name of a monitor is not its old one. -/
theorem isNameEntry_new (hsolid : ∀ c ∈ project, Unicode.isWhiteSpace c = false)
    {name : Text} (hsuffix : monitorSuffix? project name = some suffix) (line : Line) :
    isNameEntry name (line.leading ++ "name: ".toList ++ (chartName ++ '-' :: suffix)) =
      false := by
  obtain ⟨front, rest, rfl, hfront⟩ := exists_dash_of_monitorSuffix? hsolid hsuffix
  have hvalue : "name: ".toList ++ (chartName ++ '-' :: suffix) =
      "name:".toList ++ ' ' :: ("\x7b\x7b".toList ++ ' ' :: (chartName.drop 3 ++ '-' :: suffix)) :=
    rfl
  rw [List.append_assoc, isNameEntry, line.dropWhile_leading_append rfl, hvalue,
    isPrefixOf?_eq_some_iff.2 rfl, ← Bool.not_eq_true]
  intro h
  obtain ⟨pad, tail, hparts, hpad, -⟩ := exists_of_isPadded h
  have hspace : ' ' ∉ front ++ ['-'] := List.not_mem_append hfront (by decide)
  have hword : ∀ {w s : Text}, '-' ∉ w → w ++ ' ' :: s ≠ front ++ '-' :: rest ++ tail := by
    intro w s hdash heq
    have hstart : front ++ ['-'] <+: w ++ ' ' :: s := ⟨rest ++ tail, by rw [heq]; simp⟩
    exact hdash ((prefix_of_prefix_append_cons hspace hstart).subset (by simp))
  cases pad with
  | nil => exact hword List.not_mem_nil hparts
  | cons c pad =>
      obtain ⟨-, hbehind⟩ := List.cons.inj hparts
      cases pad with
      | nil => exact hword (by decide) hbehind
      | cons d pad =>
          have hbrace : '{' = d := (List.cons.inj hbehind).1
          exact absurd (hpad d (by simp)) (by rw [← hbrace]; decide)

theorem not_isRewritten_rewriteLine (hsolid : ∀ c ∈ project, Unicode.isWhiteSpace c = false)
    (line : Line) : ¬ IsRewritten project resource (rewriteLine project resource line) := by
  rintro (h | ⟨hkind, hsuffix, hentry⟩)
  · exact absurd h (by rw [rewriteLine, isManagedByBuild_fillManagedByLine]; decide)
  · obtain ⟨suffix, hsuffix⟩ := Option.isSome_iff_exists.1 hsuffix
    have hrenamed : isNameEntry resource.name
        (renameLine resource.name (chartName ++ '-' :: suffix) line) = false := by
      rw [renameLine]
      split
      · exact isNameEntry_new hsolid hsuffix line
      · rename_i h
        exact Bool.not_eq_true _ ▸ h
    rw [rewriteLine, if_pos hkind, renameMonitorLine, hsuffix] at hentry
    exact absurd hentry (by rw [isNameEntry_fillManagedByLine hrenamed]; decide)

theorem not_mem_of_isManagedByBuild {c : Char} (hc : IsLineEnd c)
    (h : isManagedByBuild line = true) : c ∉ line := by
  obtain ⟨s, gap, tail, rfl, -, hwhite⟩ := isManagedByBuild_iff.1 h
  have hfree : c ∉ s ++ gap ++ tail := fun hmem =>
    absurd (hwhite c hmem) (by rw [hc.not_isIndentation]; decide)
  have hlabel : c ∉ managedByLabel := hc.not_mem (by decide) (by decide)
  have hvalue : c ∉ "kustomize".toList := hc.not_mem (by decide) (by decide)
  simp only [List.mem_append, not_or] at hfree ⊢
  exact ⟨hfree.1.1, hlabel, hfree.1.2, hvalue, hfree.2⟩

theorem not_mem_of_isNameEntry {c : Char} (hc : IsLineEnd c) {name : Text} (hname : c ∉ name)
    (h : isNameEntry name line = true) : c ∉ line := by
  obtain ⟨pad, tail, hparts, hpad, htail⟩ := parts_of_isNameEntry h
  have hfree : ∀ s : Text, (∀ d ∈ s, isIndentation d = true) → c ∉ s := fun s hs hmem =>
    absurd (hs c hmem) (by rw [hc.not_isIndentation]; decide)
  have hkey : c ∉ "name:".toList := hc.not_mem (by decide) (by decide)
  rw [hparts]
  simp only [List.mem_append, not_or]
  exact ⟨⟨⟨line.not_mem_leading hc, hkey⟩, hfree pad hpad⟩, hname, hfree tail htail⟩

theorem not_mem_rewriteLine {c : Char} (hc : IsLineEnd c) (hline : c ∉ line) :
    c ∉ rewriteLine project resource line := by
  have hrenamed : c ∉ renameMonitorLine project resource line := by
    rw [renameMonitorLine]
    split
    · rename_i suffix hsuffix
      rw [renameLine]
      split
      · rename_i hentry
        have hname : c ∉ resource.name := fun hmem =>
          hline ((infix_of_isNameEntry hentry).subset hmem)
        have htail : c ∉ suffix := by
          rcases suffix_of_monitorSuffix? hsuffix with ⟨-, heq⟩ | ⟨-, rfl⟩
          · rw [heq] at hname
            exact fun hmem => hname (by simp [hmem])
          · exact hc.not_mem (by decide) (by decide)
        have hnew : c ∉ "name: ".toList ++ (chartName ++ ['-']) :=
          hc.not_mem (by decide) (by decide)
        simp only [List.mem_append, List.mem_cons, List.not_mem_nil, or_false, not_or] at hnew ⊢
        exact ⟨⟨line.not_mem_leading hc, hnew.1⟩, hnew.2.1, hnew.2.2, htail⟩
      · exact hline
    · exact hline
  have hkept : c ∉ if resource.isKind .serviceMonitor then renameMonitorLine project resource line
      else line := by
    split
    · exact hrenamed
    · exact hline
  exact not_mem_fillManagedByLine hc hkept

end Rewritten

/-! ## Lines left behind -/

/-- Whether lines are those of `ls`, but for lines with a carriage return at the end that are left
without the rewrites; no line of `ls` is one to rewrite. -/
structure Lags (project : Text) (resource : Resource) (ls' ls : List Line) : Prop where
  eq : ls'.map (beforeReturn (rewriteLine project resource)) = ls
  ends : ∀ line ∈ ls', '\r' ∉ beforeReturn id line
  rewritten : ∀ line ∈ ls, ¬ IsRewritten project resource line

section Lags

variable {project : Text} {resource : Resource} {ls ls' : List Line}
  (hsolid : ∀ c ∈ project, Unicode.isWhiteSpace c = false)

theorem map_withoutReturns (h : ∀ line ∈ ls', '\r' ∉ beforeReturn id line) :
    ls'.map withoutReturns = ls'.map (beforeReturn id) :=
  List.map_congr_left fun line hline => withoutReturns_line (h line hline)

theorem beforeReturn_rewriteLine {line : Line} (h : ¬ IsMissed project resource line) :
    beforeReturn (rewriteLine project resource) line = beforeReturn id line := by
  rcases exists_return line with ⟨front, rfl⟩ | hne
  · rw [beforeReturn_return, beforeReturn_return]
    exact rewriteLine_eq_self fun hfront => h ⟨front, rfl, hfront⟩
  · rw [beforeReturn_of_ne _ hne, beforeReturn_of_ne _ hne]

include hsolid

theorem lags_map (h : Returns ls' ls) (hkept : ∀ front, front ++ ['\r'] ∈ ls' →
      rewriteLine project resource (front ++ ['\r']) = front ++ ['\r']) :
    Lags project resource (ls'.map (rewriteLine project resource))
      (ls.map (rewriteLine project resource)) := by
  have hline : ∀ line ∈ ls', beforeReturn (rewriteLine project resource)
        (rewriteLine project resource line) =
          rewriteLine project resource (beforeReturn id line) ∧
      '\r' ∉ beforeReturn id (rewriteLine project resource line) := by
    intro line hline
    have hfree := h.not_mem line hline
    rcases exists_return line with ⟨front, rfl⟩ | hne
    · rw [hkept front hline, beforeReturn_return]
      rw [beforeReturn_return] at hfree ⊢
      exact ⟨rfl, hfree⟩
    · rw [beforeReturn_of_ne id hne] at hfree ⊢
      have hrewritten : '\r' ∉ rewriteLine project resource line :=
        not_mem_rewriteLine (.inr rfl) hfree
      rw [beforeReturn_of_not_mem hrewritten, beforeReturn_of_not_mem hrewritten]
      exact ⟨rfl, hrewritten⟩
  constructor
  · rw [← h.eq, List.map_map, List.map_map]
    exact List.map_congr_left fun line hmem => (hline line hmem).1
  · intro line hmem
    obtain ⟨source, hsource, rfl⟩ := List.mem_map.1 hmem
    exact (hline source hsource).2
  · intro line hmem
    obtain ⟨source, -, rfl⟩ := List.mem_map.1 hmem
    exact not_isRewritten_rewriteLine hsolid source

/-- Lines with carriage returns and the rewritten ones are the same, but for the carriage returns,
when none is missed. -/
theorem map_beforeReturn_eq_iff (ls' : List Line) :
    ls'.map (beforeReturn id) = ls'.map (beforeReturn (rewriteLine project resource)) ↔
      ∀ line ∈ ls', ¬ IsMissed project resource line := by
  rw [List.map_inj_left]
  constructor
  · rintro h _ hline ⟨front, rfl, hfront⟩
    have heq := h _ hline
    rw [beforeReturn_return, beforeReturn_return, id_eq] at heq
    rw [heq] at hfront
    exact not_isRewritten_rewriteLine hsolid front hfront
  · intro h line hline
    exact (beforeReturn_rewriteLine (h line hline)).symm

end Lags

/-! ## The substitutions -/

/-- Whether each entry with a monitor's name stands on one line: the name holds no end of a line, or
there is no entry with it. -/
def RenamesLines (project : Text) (resource : Resource) (t : Text) : Prop :=
  resource.isKind .serviceMonitor = true → (∀ c, IsLineEnd c → c ∉ resource.name) ∨
    fillMonitor project resource (fillNamespace project t) = fillNamespace project t

def fillLiterals (project : Text) (resource : Resource) (t : Text) : Text :=
  if resource.isKind .serviceMonitor then fillNamespace project t
  else fillKind project resource (fillNamespace project t)

section Fill

variable {project t : Text} {resource : Resource} {line : Line}

theorem isSubstitution_fillLiterals (project : Text) (resource : Resource) :
    IsSubstitution project (fillLiterals project resource) := by
  unfold fillLiterals
  have hnamespace := isSubstitution_fillNamespace project
  rcases isSubstitution_fillKind_or project resource with hkind | ⟨hmonitor, -⟩
  · cases resource.isKind .serviceMonitor with
    | true => exact hnamespace
    | false => exact hnamespace.comp hkind
  · rw [hmonitor]
    exact hnamespace

theorem fillMonitor_line_eq (hname : '\n' ∉ resource.name) (hline : '\n' ∉ line) :
    fillMonitor project resource line = renameMonitorLine project resource line := by
  rw [fillMonitor_line hname hline]
  rfl

theorem renameMonitorLine_of_mem_name (hname : '\n' ∈ resource.name) (hline : '\n' ∉ line) :
    renameMonitorLine project resource line = line := by
  rw [renameMonitorLine]
  split
  · exact if_neg fun hentry => hline ((infix_of_isNameEntry hentry).subset hname)
  · rfl

/-- A monitor without an entry of its name is left alone line by line. -/
theorem renameMonitorLine_of_fillMonitor (h : fillMonitor project resource t = t) :
    ∀ line ∈ lines t, renameMonitorLine project resource line = line := by
  intro line hline
  have hbreak := (areLines_lines t).unbroken line hline
  by_cases hname : '\n' ∈ resource.name
  · exact renameMonitorLine_of_mem_name hname hbreak
  · rw [← fillMonitor_line_eq hname hbreak]
    exact (isLinewise_fillMonitor hname).eq_self_iff.1 h line hline

theorem lines_fillMonitor (h : '\n' ∉ resource.name ∨ fillMonitor project resource t = t) :
    lines (fillMonitor project resource t) =
      (lines t).map (renameMonitorLine project resource) := by
  by_cases hname : '\n' ∈ resource.name
  · have hsame := h.resolve_left (not_not.2 hname)
    rw [hsame, List.map_congr_left (renameMonitorLine_of_fillMonitor hsame), List.map_id']
  · rw [isLinewise_fillMonitor hname]
    exact List.map_congr_left fun line hline =>
      fillMonitor_line_eq hname ((areLines_lines t).unbroken line hline)

theorem lines_fill (h : RenamesLines project resource t) :
    lines (fill project resource t) =
      (lines (fillLiterals project resource t)).map (rewriteLine project resource) := by
  rw [fill, lines_fillManagedBy, fillLiterals]
  cases hmonitor : resource.isKind .serviceMonitor with
  | true =>
      have hcertificate := Templater.isKind_exclusive hmonitor .certificate (by decide)
      have hissuer := Templater.isKind_exclusive hmonitor .issuer (by decide)
      have hbreak := (h hmonitor).imp_left fun hname => hname '\n' (.inl rfl)
      rw [fillKind, hcertificate, hissuer, hmonitor]
      simp only [Bool.false_eq_true, if_false, if_true]
      rw [lines_fillMonitor hbreak, List.map_map]
      apply List.map_congr_left
      intro line _
      rw [Function.comp_apply, rewriteLine, if_pos hmonitor]
  | false =>
      simp only [Bool.false_eq_true, if_false]
      apply List.map_congr_left
      intro line _
      rw [rewriteLine, hmonitor]
      rfl

theorem rewriteLine_return (h : RenamesLines project resource t) {front : Text}
    (hline : front ++ ['\r'] ∈ lines (fillLiterals project resource t)) :
    rewriteLine project resource (front ++ ['\r']) = front ++ ['\r'] := by
  have hlabel : fillManagedByLine (front ++ ['\r']) = front ++ ['\r'] :=
    if_neg fun hmanaged => not_mem_of_isManagedByBuild (.inr rfl) hmanaged (by simp)
  rw [rewriteLine]
  split
  · rename_i hmonitor
    suffices hrename : renameMonitorLine project resource (front ++ ['\r']) = front ++ ['\r'] by
      rw [hrename, hlabel]
    rw [fillLiterals, if_pos hmonitor] at hline
    rcases h hmonitor with hname | hsame
    · rw [renameMonitorLine]
      split
      · exact if_neg fun hentry =>
          not_mem_of_isNameEntry (.inr rfl) (hname '\r' (.inr rfl)) hentry (by simp)
      · rfl
    · exact renameMonitorLine_of_fillMonitor hsame _ hline
  · exact hlabel

/-- The names of a text with carriage returns are those of the text, but for the lines that are left
behind. -/
theorem lags_fill (hsolid : ∀ c ∈ project, Unicode.isWhiteSpace c = false) (ht : '\r' ∉ t)
    (hname : RenamesLines project resource (Wrap.apply resource t))
    (hname' : RenamesLines project resource (Wrap.apply resource (withReturns t))) :
    Lags project resource
      (lines (fill project resource (Wrap.apply resource (withReturns t))))
      (lines (fill project resource (Wrap.apply resource t))) := by
  have hliterals := (isSubstitution_fillLiterals project resource).returns hsolid
    (Wrap.returns_apply ht resource)
  rw [lines_fill hname, lines_fill hname']
  exact lags_map hsolid hliterals fun _ => rewriteLine_return hname'

end Fill

end Naming

/-! ## The other edits -/

namespace Deployment

variable {ls ls' : List Line} {c : Char}

theorem not_mem_fillValues (hc : IsLineEnd c) (h : fillValues ls = .ok ls')
    (hls : ∀ line ∈ ls, c ∉ line) : ∀ line ∈ ls', c ∉ line := by
  obtain ⟨ls₁, ls₂, ls₃, ls₄, himage, henv, hpod, hcontainer, hresources⟩ :=
    exists_of_fillValues h
  have hls₁ := Values.not_mem_fillImage hc himage hls
  have hls₂ := (Values.fills_fillEnv henv).not_mem hc Values.isSound_env
    (hc.not_mem (by decide) (by decide)) (hc.not_mem (by decide) (by decide)) hls₁
  have hls₃ := (Values.fills_fillPodSecurityContext hpod).not_mem hc
    Values.isSound_podSecurityContext (hc.not_mem (by decide) (by decide))
    (hc.not_mem (by decide) (by decide)) hls₂
  have hls₄ := (Values.fills_fillContainerSecurityContext hcontainer).not_mem hc
    Values.isSound_containerSecurityContext (hc.not_mem (by decide) (by decide))
    (hc.not_mem (by decide) (by decide)) hls₃
  exact (Values.fills_fillResources hresources).not_mem hc Values.isSound_resources
    (hc.not_mem (by decide) (by decide)) (hc.not_mem (by decide) (by decide)) hls₄

theorem not_mem_guardCertificates (hc : IsLineEnd c) (hls : ∀ line ∈ ls, c ∉ line) :
    ∀ line ∈ guardCertificates ls, c ∉ line := by
  have hpaths := CertificateGuard.not_mem_guardPaths hc none (Values.not_mem_fillArgs hc hls)
  have hmount := ItemGuard.webhookVolumeMount.not_mem_guardItems hc none 0 hpaths
  have hvolume := ItemGuard.webhookVolume.not_mem_guardItems hc none 0 hmount
  have hmetrics := ItemGuard.metricsVolumeMount.not_mem_guardItems hc none 0 hvolume
  exact ItemGuard.metricsVolume.not_mem_guardItems hc none 0 hmetrics

end Deployment

namespace Templater

open Naming

variable {project t : Text} {resource : Resource} {ls ls' : List Line}

theorem isBlank_of_isMissed {line : Line} (h : IsMissed project resource line) :
    line.isBlank = false := by
  obtain ⟨front, rfl, hfront⟩ := h
  rw [Line.isBlank, trimmed_return, ← Line.isBlank, ← Bool.not_eq_true]
  intro hblank
  have hmark : ∀ mark ∈ marks, ¬ mark <:+: front := fun _ hmark =>
    (isWord_of_mem_marks hmark).not_infix_of_isWhite (isBlank_iff.1 hblank)
  rcases hfront with hlabel | ⟨-, -, hentry⟩
  · exact hmark managedByLabel (by decide) (infix_of_isManagedByBuild hlabel)
  · exact hmark "name:".toList (by decide) (key_infix_of_isNameEntry hentry)

theorem map_collapse_eq_iff (h : Lags project resource ls' ls) :
    (BlankRuns.collapse ls').map (beforeReturn id) = BlankRuns.collapse ls ↔
      ∀ line ∈ BlankRuns.collapse ls', ¬ IsMissed project resource line := by
  constructor
  · rintro heq _ hline ⟨front, rfl, hfront⟩
    have hmem : front ∈ BlankRuns.collapse ls := by
      rw [← heq, List.mem_map]
      exact ⟨_, hline, beforeReturn_return id front⟩
    exact h.rewritten front (BlankRuns.mem_of_mem_collapseFrom hmem) hfront
  · intro hnone
    have hsame : ls'.map (beforeReturn id) = ls := by
      rw [← h.eq]
      apply List.map_congr_left
      intro line hline
      refine (beforeReturn_rewriteLine fun hmissed => ?_).symm
      exact hnone line (BlankRuns.mem_collapseFrom (isBlank_of_isMissed hmissed) hline) hmissed
    rw [← hsame]
    exact (BlankRuns.collapseFrom_map isUnseen_beforeReturn_id false ls').symm

theorem withoutReturns_ofLines_eq_iff (hls' : AreLines ls') (hls : AreLines ls)
    (hends : ∀ line ∈ ls', '\r' ∉ beforeReturn id line) :
    withoutReturns (ofLines ls') = ofLines ls ↔ ls'.map (beforeReturn id) = ls := by
  have hlines : withoutReturns (ofLines ls') = ofLines ls ↔
      lines (withoutReturns (ofLines ls')) = lines (ofLines ls) :=
    ⟨congrArg lines, lines_injective⟩
  rw [hlines, lines_withoutReturns, lines_ofLines hls', lines_ofLines hls,
    map_withoutReturns hends]

/-- No edit of a deployment sees that lines lag behind. -/
theorem isUnseen_rewriteLine (hkind : resource.isKind .deployment = true) :
    IsUnseen (beforeReturn (rewriteLine project resource)) := by
  have hmonitor := isKind_exclusive hkind .serviceMonitor (by decide)
  refine isUnseen_beforeReturn fun line => ?_
  rw [rewriteLine, hmonitor]
  exact resembles_fillManagedByLine line

theorem not_mem_return_edited {values : List Line}
    (hends : ∀ line ∈ ls, '\r' ∉ beforeReturn id line)
    (hvalues : Deployment.fillValues ls = .ok values) :
    ∀ line ∈ BlankRuns.collapse (Deployment.guardCertificates values),
      '\r' ∉ beforeReturn id line := by
  have hcut := (Deployment.fillValues_map isUnseen_beforeReturn_id ls).eq_ok hvalues
  have hfree := Deployment.not_mem_fillValues (.inr rfl) hcut (List.forall_mem_map.2 hends)
  intro line hline
  apply Deployment.not_mem_guardCertificates (.inr rfl) hfree
  rw [Deployment.guardCertificates_map isUnseen_beforeReturn_id]
  exact List.mem_map_of_mem (BlankRuns.mem_of_mem_collapseFrom hline)

theorem exists_apply_iff (hkind : resource.isKind .deployment = true) :
    (∃ out, apply ⟨project⟩ resource t = .ok out) ↔
      ∃ values, Deployment.fillValues (lines (Deployment.fillNames project t)) = .ok values := by
  simp only [apply_deployment_eq_ok_iff hkind]
  constructor
  · rintro ⟨_, values, hvalues, -⟩
    exact ⟨values, hvalues⟩
  · rintro ⟨values, hvalues⟩
    exact ⟨_, values, hvalues, rfl⟩

section Manifests

variable (hsolid : ∀ c ∈ project, Unicode.isWhiteSpace c = false) (ht : '\r' ∉ t)

include hsolid ht

theorem apply_withReturns_other (hkind : resource.isKind .deployment = false)
    (hname : RenamesLines project resource (Wrap.apply resource t))
    (hname' : RenamesLines project resource (Wrap.apply resource (withReturns t)))
    {out out' : Text} (hout : apply ⟨project⟩ resource t = .ok out)
    (hout' : apply ⟨project⟩ resource (withReturns t) = .ok out') :
    withoutReturns out' = out ↔ ∀ line ∈ lines out', ¬ IsMissed project resource line := by
  have hlags := lags_fill hsolid ht hname hname'
  have hlines : ∀ u, AreLines (BlankRuns.collapse (lines u)) := fun u =>
    BlankRuns.areLines_collapse (areLines_lines u)
  rw [apply_eq_settle hkind, Except.ok.injEq, Wrap.settle, overLines] at hout hout'
  rw [← hout, ← hout', lines_ofLines (hlines _), ← map_collapse_eq_iff hlags]
  exact withoutReturns_ofLines_eq_iff (hlines _) (hlines _) fun line hline =>
    hlags.ends line (BlankRuns.mem_of_mem_collapseFrom hline)

theorem lags_fillNames (hkind : resource.isKind .deployment = true) :
    Lags project resource (lines (Deployment.fillNames project (withReturns t)))
      (lines (Deployment.fillNames project t)) := by
  have hcertificate := isKind_exclusive hkind .certificate (by decide)
  have hissuer := isKind_exclusive hkind .issuer (by decide)
  have hmonitor := isKind_exclusive hkind .serviceMonitor (by decide)
  have hname : ∀ u, RenamesLines project resource u := fun u htrue =>
    absurd htrue (by rw [hmonitor]; decide)
  have hlags := lags_fill hsolid ht (hname (Wrap.apply resource t))
    (hname (Wrap.apply resource (withReturns t)))
  simpa only [Wrap.apply_of_deployment hkind, fill, fillKind, hcertificate, hissuer, hmonitor,
    Bool.false_eq_true, if_false, Deployment.fillNames] using hlags

theorem apply_withReturns_deployment (hkind : resource.isKind .deployment = true)
    {out out' : Text} (hout : apply ⟨project⟩ resource t = .ok out)
    (hout' : apply ⟨project⟩ resource (withReturns t) = .ok out') :
    withoutReturns out' = out ↔ ∀ line ∈ lines out', ¬ IsMissed project resource line := by
  have hlags := lags_fillNames hsolid ht hkind
  have hunseen : IsUnseen (beforeReturn (rewriteLine project resource)) :=
    isUnseen_rewriteLine hkind
  obtain ⟨values', hvalues', rfl⟩ := (apply_deployment_eq_ok_iff hkind).1 hout'
  obtain ⟨values, hvalues, rfl⟩ := (apply_deployment_eq_ok_iff hkind).1 hout
  have hcut := (Deployment.fillValues_map hunseen _).eq_ok hvalues'
  rw [hlags.eq] at hcut
  obtain rfl := Except.ok.inj (hvalues.symm.trans hcut)
  have hlines : ∀ {u values}, Deployment.fillValues (lines u) = .ok values →
      AreLines (BlankRuns.collapse (Deployment.guardCertificates values)) := fun hvalues =>
    BlankRuns.areLines_collapse (Deployment.areLines_guardCertificates
      (Deployment.areLines_fillValues hvalues (areLines_lines _)))
  have hends := not_mem_return_edited hlags.ends hvalues'
  rw [withoutReturns_ofLines_eq_iff (hlines hvalues') (hlines hvalues) hends,
    lines_ofLines (hlines hvalues'), Deployment.collapse_guardCertificates_map hunseen]
  exact map_beforeReturn_eq_iff hsolid _

/-- A text with carriage returns at the ends of its lines has a template when the text has one, and
but for the carriage returns the two are the same, exactly when no line is missed. -/
theorem apply_withReturns (hname : RenamesLines project resource (Wrap.apply resource t))
    (hname' : RenamesLines project resource (Wrap.apply resource (withReturns t))) :
    ((∃ out, apply ⟨project⟩ resource t = .ok out) ↔
        ∃ out, apply ⟨project⟩ resource (withReturns t) = .ok out) ∧
      ∀ out out', apply ⟨project⟩ resource t = .ok out →
        apply ⟨project⟩ resource (withReturns t) = .ok out' →
          (withoutReturns out' = out ↔ ∀ line ∈ lines out', ¬ IsMissed project resource line) := by
  cases hkind : resource.isKind .deployment with
  | false =>
      refine ⟨⟨fun _ => ⟨_, apply_eq_settle hkind _⟩, fun _ => ⟨_, apply_eq_settle hkind _⟩⟩, ?_⟩
      exact fun out out' => apply_withReturns_other hsolid ht hkind hname hname'
  | true =>
      refine ⟨?_, fun out out' => apply_withReturns_deployment hsolid ht hkind⟩
      rw [exists_apply_iff hkind, exists_apply_iff hkind, ← (lags_fillNames hsolid ht hkind).eq]
      exact (Deployment.fillValues_map (isUnseen_rewriteLine hkind) _).exists_ok_iff

end Manifests

/-- A monitor whose name ends the text is renamed in both forms. Before a line break its name is
missed. -/
theorem apply_withReturns_monitor :
    let monitor : Resource := ⟨"ServiceMonitor".toList, "monitoring.coreos.com/v1".toList,
      "demo-metrics".toList, []⟩
    let manifest := "metadata:\n  namespace: demo-system\n  name: demo-metrics".toList
    let template := "\x7b\x7b- if .Values.prometheus.enable \x7d\x7d\nmetadata:\n".toList ++
      "  namespace: \x7b\x7b .Release.Namespace \x7d\x7d\n".toList ++
      "  name: \x7b\x7b include \"chart.name\" . \x7d\x7d-metrics\n\x7b\x7b- end \x7d\x7d\n".toList
    ∃ out out', apply ⟨"demo".toList⟩ monitor (withReturns manifest) = .ok out ∧
      withoutReturns out = template ∧
      apply ⟨"demo".toList⟩ monitor (withReturns (manifest ++ ['\n'])) = .ok out' ∧
      withoutReturns out' ≠ template := by
  intro monitor manifest template
  have hname : ∀ t, RenamesLines "demo".toList monitor t := by
    intro t _
    left
    rintro c (rfl | rfl) <;> decide
  have hends : apply ⟨"demo".toList⟩ monitor manifest = .ok template := by decide +kernel
  have hbreak : apply ⟨"demo".toList⟩ monitor (manifest ++ ['\n']) = .ok template := by
    decide +kernel
  have h := apply_withReturns (t := manifest) (by decide) (by decide) (hname _) (hname _)
  have h' := apply_withReturns (t := manifest ++ ['\n']) (by decide) (by decide) (hname _)
    (hname _)
  obtain ⟨out, hout⟩ := h.1.1 ⟨template, hends⟩
  obtain ⟨out', hout'⟩ := h'.1.1 ⟨template, hbreak⟩
  have hmissed : ((apply ⟨"demo".toList⟩ monitor (withReturns manifest)).map fun out =>
        decide (∀ line ∈ lines out, ¬ IsMissed "demo".toList monitor line),
      (apply ⟨"demo".toList⟩ monitor (withReturns (manifest ++ ['\n']))).map fun out =>
        decide (∀ line ∈ lines out, ¬ IsMissed "demo".toList monitor line)) =
      (.ok true, .ok false) := by decide +kernel
  rw [hout, hout'] at hmissed
  simp only [Except.map, Prod.mk.injEq, Except.ok.injEq, decide_eq_true_eq,
    decide_eq_false_iff_not] at hmissed
  exact ⟨out, out', hout, (h.2 _ _ hends hout).2 hmissed.1, hout',
    (h'.2 _ _ hbreak hout').not.2 hmissed.2⟩

/-- The label of a service before a carriage return names the build tool still. -/
theorem withoutReturns_label_ne : ∃ out out',
    apply ⟨"demo".toList⟩ ⟨"Service".toList, "v1".toList, "x".toList, []⟩
        "app.kubernetes.io/managed-by: kustomize\n".toList = .ok out ∧
      apply ⟨"demo".toList⟩ ⟨"Service".toList, "v1".toList, "x".toList, []⟩
        (withReturns "app.kubernetes.io/managed-by: kustomize\n".toList) = .ok out' ∧
      withoutReturns out' ≠ out :=
  ⟨"app.kubernetes.io/managed-by: \x7b\x7b .Release.Service \x7d\x7d\n".toList,
    "app.kubernetes.io/managed-by: kustomize\r\n".toList, rfl, rfl, by decide⟩

end Templater

end OperatorChart
