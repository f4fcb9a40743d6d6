import M1nd.Mcp.Mailbox.Runs

namespace M1nd.Mcp

open M1nd.Control
open M1nd.Library.Collections
open M1nd.Library.Loops
open M1nd.Library.TextLines

section Boxes

variable [Sha256] [LetterJson] {routes : Routes} {pass : Pass} {before after : BoxDisk}
  {box : Place} {letter : Letter} {letters : List Letter} {turns : List (Letter × BoxTarget)}

-- The box of a letter, unless it is pending.
def Routes.boxOf (routes : Routes) (disk : BoxDisk) (letter : Letter) : Option Place :=
  (routes.resolveBox disk.dirs letter).box routes

theorem newTo_subset (hturns : turns.map Prod.fst = letters) (h : letter ∈ newTo routes before turns box) :
    letter ∈ letters := by
  obtain ⟨target, hturn, -⟩ := mem_sentTo.mp ((firsts_sublist _ _ _).subset h)
  exact hturns ▸ List.mem_map_of_mem hturn

theorem Pass.Ran.mem_sentTo_iff (h : pass.Ran routes before letters turns)
    (hturns : turns.map Prod.fst = letters) (hundisturbed : routes.Undisturbed before letters) :
    letter ∈ sentTo routes turns box ↔ letter ∈ letters ∧ routes.boxOf before letter = some box := by
  rw [mem_sentTo]
  constructor
  · rintro ⟨target, hturn, hbox⟩
    obtain rfl : target = routes.resolveBox before.dirs letter := h.settled hundisturbed _ hturn
    exact ⟨hturns ▸ List.mem_map_of_mem hturn, hbox⟩
  · rintro ⟨hletter, hbox⟩
    rw [← hturns] at hletter
    obtain ⟨turn, hturn, rfl⟩ := List.mem_map.mp hletter
    exact ⟨turn.2, hturn, h.settled hundisturbed turn hturn ▸ hbox⟩

theorem Pass.Ran.readLetters_eq {spool : Text} (h : pass.Ran routes before (readLetters spool) turns)
    (hturns : turns.map Prod.fst = readLetters spool) (hbox : IsBox box)
    (hclosed : Closed (before.text box)) : readLetters (pass.disk.text box) =
      readLetters (before.text box) ++ (newTo routes before turns box).map Letter.reread := by
  rw [h.text box hbox, readLetters_append hclosed,
    readLetters_written fun letter hletter => newTo_subset hturns hletter]

end Boxes

section Law

variable [Sha256] [LetterJson]

def SweepResult.fates (result : SweepResult) : List (String × String) :=
  result.letters.map fun letter => (letter.id, letter.state)

-- Every letter is in its box under its id, nothing is lost or doubled, a second pass appends
-- nothing, and the sweep does not change.
structure Distributed (routes : Routes) (spool : Text) (before after : BoxDisk) : Prop where
  delivered : ∀ letter ∈ readLetters spool, ∀ box, routes.boxOf before letter = some box →
    letter.id ∈ after.idsAt box
  onlyThere : ∀ box, IsBox box → ∀ id, (after.idsAt box).count id ≠ (before.idsAt box).count id →
    ∃ letter ∈ readLetters spool, letter.id = id ∧ routes.boxOf before letter = some box
  kept : ∀ box, IsBox box → lines (before.text box) <+: lines (after.text box)
  once : ∀ box, IsBox box → ∀ id,
    (after.idsAt box).count id ≤ max ((before.idsAt box).count id) 1
  quiet : ∃ receipt, distribute routes spool after = some (after, receipt) ∧ receipt.appended = 0
  swept : ∀ boxes foreignTools, (∀ known ∈ boxes, IsBox known.path) →
    (inboxSweep spool after boxes foreignTools).map SweepResult.fates =
      (inboxSweep spool before boxes foreignTools).map SweepResult.fates

-- A letter that its box does not have yet keeps its id when its line is trimmed.
def Spelled (routes : Routes) (spool : Text) (before : BoxDisk) : Prop :=
  ∀ letter ∈ readLetters spool, ∀ box, routes.boxOf before letter = some box →
    letter.id ∉ before.idsAt box → letterId letter.raw = letter.id

-- No two letters of the spool share an id.
def NoClash (spool : Text) : Prop :=
  ∀ letter ∈ readLetters spool, ∀ other ∈ readLetters spool, letterId other.raw = letter.id →
    other.raw = letter.raw

end Law

section Second

variable [Sha256] [LetterJson] {routes : Routes} {pass : Pass} {after : BoxDisk} {box : Place}
  {letter : Letter}

-- A pass that has appended nothing.
structure Pass.Quiet (after : BoxDisk) (pass : Pass) : Prop where
  disk : pass.disk = after
  appended : pass.appended = 0
  cached : ∀ box ids, pass.boxIdCache box = some ids → ∀ id, id ∈ ids ↔ id ∈ after.idsAt box

theorem Pass.Quiet.cachedIds (h : pass.Quiet after) (hanswers : after.refuses box = false) :
    ∃ ids, pass.cachedIds box = some ids ∧ ∀ id, id ∈ ids ↔ id ∈ after.idsAt box := by
  unfold Pass.cachedIds
  cases hcache : pass.boxIdCache box with
  | some ids => exact ⟨ids, rfl, h.cached box ids hcache⟩
  | none =>
      refine ⟨.ofList (after.idsAt box), ?_, fun id => ?_⟩
      · dsimp only
        rw [h.disk, BoxDisk.boxIds, BoxDisk.readToString, if_neg (Bool.eq_false_iff.mp hanswers),
          Option.map_some]
        rfl
      · rw [Std.ExtTreeSet.mem_ofList, List.contains_iff_mem]

theorem Pass.Quiet.fileInto (h : pass.Quiet after) (hanswers : after.refuses box = false)
    (hid : letter.id ∈ after.idsAt box) (path : Text) :
    ∃ next, pass.fileInto box letter path = some next ∧ next.Quiet after := by
  obtain ⟨ids, hids, hmem⟩ := h.cachedIds hanswers
  unfold Pass.fileInto
  rw [hids, Option.bind_eq_bind, Option.bind_some, if_pos ((hmem letter.id).mpr hid)]
  refine ⟨_, rfl, h.disk, h.appended, fun other ids' hids' => ?_⟩
  change (if other = box then some ids else pass.boxIdCache other) = some ids' at hids'
  by_cases hother : other = box
  · rw [if_pos hother] at hids'
    obtain rfl := Option.some.inj hids'
    exact hother ▸ hmem
  · rw [if_neg hother] at hids'
    exact h.cached other ids' hids'

theorem Pass.Quiet.deliver (h : pass.Quiet after)
    (hserved : (routes.resolveBox after.dirs letter).Served routes after)
    (hid : ∀ box, routes.boxOf after letter = some box → letter.id ∈ after.idsAt box) :
    ∃ next, Pass.deliver routes pass letter = some next ∧ next.Quiet after := by
  obtain ⟨hanswers, hproject⟩ := hserved
  unfold Pass.deliver
  unfold Routes.boxOf at hid
  rw [h.disk]
  cases htarget : routes.resolveBox after.dirs letter with
  | Project repoDir =>
      rw [htarget] at hanswers hid
      obtain ⟨hmade, hdirs, hexists⟩ := hproject repoDir htarget
      have hsame : Pass.Quiet after { pass with disk := after } := ⟨rfl, h.appended, h.cached⟩
      obtain ⟨next, hnext, hquiet⟩ :=
        hsame.fileInto (hanswers _ rfl) (hid _ rfl) ("project:".toList ++ repoDir)
      refine ⟨{ next with toProject := next.toProject + 1 }, ?_, hquiet.disk, hquiet.appended,
        hquiet.cached⟩
      dsimp only
      rw [BoxDisk.ensureBoxBirth_eq_self hmade hdirs hexists, Option.bind_eq_bind, Option.bind_some,
        hnext, Option.bind_eq_bind, Option.bind_some]
  | Medulla =>
      rw [htarget] at hanswers hid
      obtain ⟨next, hnext, hquiet⟩ := h.fileInto (hanswers _ rfl) (hid _ rfl) "medulla".toList
      refine ⟨{ next with toMedulla := next.toMedulla + 1 }, ?_, hquiet.disk, hquiet.appended,
        hquiet.cached⟩
      dsimp only
      rw [hnext, Option.bind_eq_bind, Option.bind_some]
  | Pending name => exact ⟨_, rfl, rfl, h.appended, h.cached⟩

end Second

section Sweeping

variable [Sha256] [LetterJson] {spool : Text} {byId : BTreeMap Letter} {letters : List Letter}
  {before after : BoxDisk}

-- The map has the ids of all field reports of the letters.
def Swept (byId : BTreeMap Letter) (letters : List Letter) : Prop :=
  ∀ letter ∈ letters, isFieldReport letter = true → letter.id ∈ byId

omit [Sha256] [LetterJson] in
theorem mem_collectLetters {id : String} (h : id ∈ byId) (letters : List Letter) :
    id ∈ collectLetters byId letters := by
  induction letters generalizing byId with
  | nil => exact h
  | cons letter letters ih =>
      change id ∈ collectLetters
        (if isFieldReport letter then byId.insertIfNew letter.id letter else byId) letters
      apply ih
      split
      · exact Std.ExtTreeMap.mem_insertIfNew.mpr (.inr h)
      · exact h

omit [Sha256] [LetterJson] in
theorem swept_collectLetters (byId : BTreeMap Letter) (letters : List Letter) :
    Swept (collectLetters byId letters) letters := by
  induction letters generalizing byId with
  | nil => exact nofun
  | cons letter letters ih =>
      refine List.forall_mem_cons.mpr ⟨fun hreport => ?_, fun other hother => ih _ other hother⟩
      change letter.id ∈ collectLetters
        (if isFieldReport letter then byId.insertIfNew letter.id letter else byId) letters
      rw [if_pos hreport]
      refine mem_collectLetters ?_ letters
      exact Std.ExtTreeMap.mem_insertIfNew.mpr (.inl (Std.compare_self))

omit [Sha256] [LetterJson] in
-- Letters whose ids the map has change nothing.
theorem collectLetters_eq_self (h : Swept byId letters) : collectLetters byId letters = byId := by
  induction letters with
  | nil => rfl
  | cons letter letters ih =>
      obtain ⟨hletter, hrest⟩ := List.forall_mem_cons.mp h
      have hsame : (if isFieldReport letter then byId.insertIfNew letter.id letter else byId) =
          byId := by
        split
        case isTrue hreport =>
          refine Std.ExtTreeMap.ext_getElem? fun id => ?_
          rw [Std.ExtTreeMap.getElem?_insertIfNew, if_neg]
          rintro ⟨heq, hnew⟩
          exact hnew (hletter hreport)
        case isFalse => rfl
      rw [collectLetters, List.foldl_cons, hsame]
      exact ih hrest

theorem sweepBox_eq {known : KnownBox} {news : List Letter} (h : Swept byId (readLetters spool))
    (hnews : ∀ letter ∈ news, letter ∈ readLetters spool)
    (hrefuses : after.refuses = before.refuses)
    (htext : readLetters (after.text known.path) = readLetters (before.text known.path) ++ news) :
    sweepBox after byId known = sweepBox before byId known := by
  unfold sweepBox BoxDisk.readToString
  rw [hrefuses]
  refine ite_congr rfl (fun _ => ?_) fun _ => rfl
  by_cases hanswers : before.refuses known.path = true
  · rw [if_pos hanswers, if_pos hanswers]
  · rw [if_neg hanswers, if_neg hanswers, Option.map_some, Option.map_some, htext, collectLetters,
      List.foldl_append]
    refine congrArg some (collectLetters_eq_self fun letter hletter hreport => ?_)
    exact mem_collectLetters (h letter (hnews letter hletter) hreport) _

theorem swept_sweepBox {known : KnownBox} {next : BTreeMap Letter} (h : Swept byId letters)
    (hnext : sweepBox before byId known = some next) : Swept next letters := by
  unfold sweepBox at hnext
  split at hnext
  · obtain ⟨text, -, rfl⟩ := Option.map_eq_some_iff.mp hnext
    exact fun letter hletter hreport => mem_collectLetters (h letter hletter hreport) _
  · obtain rfl := Option.some.inj hnext
    exact h

-- A sweep that has read the spool does not see what was filed from it.
theorem inboxSweep_eq {boxes : List KnownBox} (hrefuses : after.refuses = before.refuses)
    (htext : ∀ known ∈ boxes, ∃ news : List Letter, (∀ letter ∈ news, letter ∈ readLetters spool) ∧
      readLetters (after.text known.path) = readLetters (before.text known.path) ++ news)
    (foreignTools : List String) :
    inboxSweep spool after boxes foreignTools = inboxSweep spool before boxes foreignTools := by
  have hboxes : ∀ byId : BTreeMap Letter, Swept byId (readLetters spool) →
      boxes.foldlM (sweepBox after) byId = boxes.foldlM (sweepBox before) byId := by
    clear foreignTools
    induction boxes with
    | nil => exact fun _ _ => rfl
    | cons known boxes ih =>
        intro byId hswept
        obtain ⟨⟨news, hnews, hknown⟩, hrest⟩ := List.forall_mem_cons.mp htext
        rw [List.foldlM_cons, List.foldlM_cons, sweepBox_eq hswept hnews hrefuses hknown]
        cases hnext : sweepBox before byId known with
        | none => rfl
        | some next => exact ih hrest next (swept_sweepBox hswept hnext)
  unfold inboxSweep
  rw [hboxes _ (swept_collectLetters ∅ _)]

end Sweeping

section Law

variable [Sha256] [LetterJson] {routes : Routes} {spool : Text} {before after : BoxDisk}

theorem distributed (hclosed : ∀ box, IsBox box → Closed (before.text box))
    {receipt : DistributionReceipt} (hrun : distribute routes spool before = some (after, receipt))
    (hundisturbed : routes.Undisturbed before (readLetters spool))
    (hspelled : Spelled routes spool before) : Distributed routes spool before after := by
  obtain ⟨turns, pass, hturns, rfl, hran⟩ := exists_ran hrun
  have hnews (box : Place) : ∀ letter ∈ newTo routes before turns box,
      letter ∈ readLetters spool ∧ routes.boxOf before letter = some box := fun letter hletter =>
    (hran.mem_sentTo_iff hturns hundisturbed).mp ((firsts_sublist _ _ _).subset hletter)
  have hreread (box : Place) :
      (newTo routes before turns box).map Letter.reread = newTo routes before turns box := by
    conv_rhs => rw [← List.map_id (newTo routes before turns box)]
    refine List.map_congr_left fun letter hletter => Letter.reread_eq ?_
    obtain ⟨hspool, hbox⟩ := hnews box letter hletter
    exact hspelled letter hspool box hbox ((nodup_seen_firsts _ _ _).1 letter hletter)
  have hletters (box : Place) (hbox : IsBox box) : readLetters (pass.disk.text box) =
      readLetters (before.text box) ++ newTo routes before turns box := by
    rw [hran.readLetters_eq hturns hbox (hclosed box hbox), hreread]
  have hids (box : Place) (hbox : IsBox box) : pass.disk.idsAt box =
      before.idsAt box ++ (newTo routes before turns box).map Letter.id := by
    rw [BoxDisk.idsAt, hletters box hbox, List.map_append]
    rfl
  have hdelivered : ∀ letter ∈ readLetters spool, ∀ box, routes.boxOf before letter = some box →
      letter.id ∈ pass.disk.idsAt box := by
    intro letter hletter box hbox
    have hsent := (hran.mem_sentTo_iff hturns hundisturbed).mpr ⟨hletter, hbox⟩
    rw [hids box (BoxTarget.isBox hbox), List.mem_append]
    exact mem_seen_or_firsts (List.mem_map_of_mem hsent)
  constructor
  case delivered => exact hdelivered
  case onlyThere =>
    intro box hbox id hcount
    rw [hids box hbox, List.count_append] at hcount
    have hpos : 0 < ((newTo routes before turns box).map Letter.id).count id := by omega
    obtain ⟨letter, hletter, rfl⟩ := List.mem_map.mp (List.count_pos_iff.mp hpos)
    obtain ⟨hspool, hbox⟩ := hnews box letter hletter
    exact ⟨letter, hspool, rfl, hbox⟩
  case kept =>
    intro box hbox
    rw [hran.text box hbox, lines_append (hclosed box hbox)]
    exact List.prefix_append _ _
  case once =>
    intro box hbox id
    rw [hids box hbox, List.count_append]
    obtain ⟨hunseen, hnodup⟩ :=
      nodup_seen_firsts Letter.id (before.idsAt box) (sentTo routes turns box)
    by_cases hold : id ∈ before.idsAt box
    · have hnone : ((newTo routes before turns box).map Letter.id).count id = 0 := by
        refine List.count_eq_zero_of_not_mem fun hmem => ?_
        obtain ⟨letter, hletter, rfl⟩ := List.mem_map.mp hmem
        exact hunseen letter hletter hold
      rw [hnone]
      exact le_max_left _ _
    · rw [List.count_eq_zero_of_not_mem hold, Nat.zero_add]
      exact (List.nodup_iff_count_le_one.mp hnodup id).trans (le_max_right _ _)
  case quiet =>
    have hinside : ∀ turn ∈ turns, turn.1 ∈ readLetters spool := fun turn hturn =>
      hturns ▸ List.mem_map_of_mem hturn
    have hagain : ∃ last, (readLetters spool).foldlM (Pass.deliver routes) (Pass.start pass.disk) =
        some last ∧ last.Quiet pass.disk := by
      have hstart : (Pass.start pass.disk).Quiet pass.disk := by
        refine ⟨rfl, rfl, fun box ids hcached => ?_⟩
        cases hcached
      refine exists_foldlM _ hstart fun current hcurrent letter hletter => ?_
      have hsame := hran.resolveBox_eq hinside hletter hundisturbed
      have hmem := hletter
      rw [← hturns] at hmem
      obtain ⟨turn, hturn, rfl⟩ := List.mem_map.mp hmem
      refine hcurrent.deliver ?_ fun box hbox => ?_
      · rw [hsame, ← hran.settled hundisturbed turn hturn]
        exact hran.served turn hturn
      · refine hdelivered turn.1 hletter box ?_
        rw [Routes.boxOf, ← hsame]
        exact hbox
    obtain ⟨last, hlast, hquiet⟩ := hagain
    refine ⟨_, by rw [distribute, hlast, Option.map_some, hquiet.disk], ?_⟩
    exact hquiet.appended
  case swept =>
    intro boxes foreignTools hboxes
    rw [inboxSweep_eq hran.extends_.refuses (fun known hknown => ⟨_, fun letter hletter => ?_,
      hletters known.path (hboxes known hknown)⟩) foreignTools]
    exact (hnews known.path letter hletter).1

-- A pass keeps the law of the mailbox exactly if the letters it files keep their ids.
theorem distribute_iff (routes : Routes) (spool : Text) (before after : BoxDisk)
    (receipt : DistributionReceipt) (hclosed : ∀ box, IsBox box → Closed (before.text box))
    (hrun : distribute routes spool before = some (after, receipt)) :
    (routes.Undisturbed before (readLetters spool) → Spelled routes spool before →
      Distributed routes spool before after) ∧
    (NoClash spool → Distributed routes spool before after → Spelled routes spool before) := by
  refine ⟨distributed hclosed hrun, fun hclash h letter hletter box hbox hnew => ?_⟩
  obtain ⟨turns, pass, hturns, rfl, hran⟩ := exists_ran hrun
  have hbox' := BoxTarget.isBox hbox
  have hdelivered := h.delivered letter hletter box hbox
  rw [BoxDisk.idsAt, hran.readLetters_eq hturns hbox' (hclosed box hbox'), List.map_append,
    List.mem_append, List.map_map] at hdelivered
  obtain hold | hdelivered := hdelivered
  · exact absurd hold hnew
  · obtain ⟨other, hother, heq⟩ := List.mem_map.mp hdelivered
    have hraw := hclash letter hletter other (newTo_subset hturns hother) heq
    rw [← hraw]
    exact heq

end Law

section Padded

-- What is read of an object without members, where every member has a default.
@[reducible]
def emptyObject : LetterJson where
  fromStr text := if text = "\x7b\x7d".toList then
    some ⟨"", "", "", "", "", "", "", "", "", "", [], none, []⟩ else none

def routesOfOwner : Routes where
  ownerRuntimeRoot := "/owner".toList
  worktreeBase := []
  knownRepos := ∅
  home := none

def emptyDisk : BoxDisk where
  files _ := none
  dirs _ := false
  refuses _ := false

example : letI := standardSha256; letterId "\x7b\"a\":1\x7d\r\n".toList = "015abd7f5cc5" := by
  decide +kernel

-- Without the blank nothing is lost.
theorem distribute_iff_unpadded :
    letI := standardSha256
    letI := emptyObject
    (∀ box, IsBox box → Closed (emptyDisk.text box)) ∧ ∃ after receipt,
      distribute routesOfOwner "\x7b\x7d\n".toList emptyDisk = some (after, receipt) ∧
        (routesOfOwner.Undisturbed emptyDisk (readLetters "\x7b\x7d\n".toList) →
          Spelled routesOfOwner "\x7b\x7d\n".toList emptyDisk →
            Distributed routesOfOwner "\x7b\x7d\n".toList emptyDisk after) ∧
        (NoClash "\x7b\x7d\n".toList → Distributed routesOfOwner "\x7b\x7d\n".toList emptyDisk after →
          Spelled routesOfOwner "\x7b\x7d\n".toList emptyDisk) := by
  letI := standardSha256
  letI := emptyObject
  have hclosed : ∀ box, IsBox box → Closed (emptyDisk.text box) := fun _ _ => .inl rfl
  have hsome : (distribute routesOfOwner "\x7b\x7d\n".toList emptyDisk).isSome = true := by
    decide +kernel
  obtain ⟨⟨after, receipt⟩, hrun⟩ := Option.isSome_iff_exists.mp hsome
  exact ⟨hclosed, after, receipt, hrun,
    distribute_iff routesOfOwner "\x7b\x7d\n".toList emptyDisk after receipt hclosed hrun⟩

-- A letter with a blank before it is filed without the blank, under another id.
theorem padded_letter :
    letI := standardSha256
    letI := emptyObject
    (∀ box, IsBox box → Closed (emptyDisk.text box)) ∧ ∃ after receipt,
      distribute routesOfOwner " \x7b\x7d\n".toList emptyDisk = some (after, receipt) ∧
        ¬ Distributed routesOfOwner " \x7b\x7d\n".toList emptyDisk after := by
  letI := standardSha256
  letI := emptyObject
  refine ⟨fun _ _ => .inl rfl, ?_⟩
  have hids : (distribute routesOfOwner " \x7b\x7d\n".toList emptyDisk).map
      (fun result => result.1.idsAt (medullaBoxPath "/owner".toList)) =
        some [letterId "\x7b\x7d".toList] := by decide +kernel
  have hsome : (distribute routesOfOwner " \x7b\x7d\n".toList emptyDisk).isSome = true := by
    rw [← Option.isSome_map, hids]
    rfl
  obtain ⟨⟨after, receipt⟩, hrun⟩ := Option.isSome_iff_exists.mp hsome
  refine ⟨after, receipt, hrun, fun h => ?_⟩
  have hletters : readLetters " \x7b\x7d\n".toList =
      [⟨letterId " \x7b\x7d".toList, "", "", "", "", "", "", "", "", "", [], none, "\x7b\x7d".toList⟩] := by
    decide +kernel
  have hdelivered := h.delivered
  rw [hletters, List.forall_mem_singleton] at hdelivered
  have hmem := hdelivered (medullaBoxPath "/owner".toList) (by decide +kernel)
  rw [hrun, Option.map_some, Option.some_inj] at hids
  rw [hids, List.mem_singleton] at hmem
  exact absurd hmem (by decide +kernel)

end Padded

end M1nd.Mcp
