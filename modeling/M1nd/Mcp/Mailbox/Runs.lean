import M1nd.Mcp.Mailbox
import M1nd.Library.Collections
import M1nd.Library.Loops

namespace M1nd.Mcp

open M1nd.Control
open M1nd.Library
open M1nd.Library.Collections
open M1nd.Library.Framing (frames frames_cons frames_append)
open M1nd.Library.Loops
open M1nd.Library.TextLines

section Reading

variable [Sha256] [LetterJson] {text more line : Text} {letter : Letter} {letters : List Letter}

-- The lines as a pass writes them.
def written (letters : List Letter) : Text :=
  frames '\n' (letters.map Letter.raw)

-- What a letter becomes that is written and read again.
def Letter.reread (letter : Letter) : Letter :=
  { letter with id := letterId letter.raw }

theorem Letter.reread_eq (h : letterId letter.raw = letter.id) : letter.reread = letter := by
  rw [Letter.reread, h]

theorem raw_of_parseLetter (h : parseLetter line = some letter) :
    letter.raw = trim isWhiteSpace line ∧ letter.id = letterId line := by
  unfold parseLetter at h
  dsimp only at h
  split at h
  · cases h
  · obtain ⟨read, -, rfl⟩ := Option.map_eq_some_iff.mp h
    exact ⟨rfl, rfl⟩

theorem parseLetter_raw (h : parseLetter line = some letter) :
    parseLetter letter.raw = some letter.reread := by
  rw [(raw_of_parseLetter h).1]
  unfold parseLetter at h ⊢
  dsimp only at h ⊢
  split at h
  · cases h
  case isFalse hblank =>
    obtain ⟨read, hread, rfl⟩ := Option.map_eq_some_iff.mp h
    rw [trim_trim, if_neg hblank, hread]
    rfl

theorem exists_line (h : letter ∈ readLetters text) :
    ∃ line ∈ lines text, parseLetter line = some letter :=
  List.mem_filterMap.mp h

theorem readLetters_append (h : Closed text) :
    readLetters (text ++ more) = readLetters text ++ readLetters more := by
  rw [readLetters, lines_append h, List.filterMap_append]
  rfl

theorem lines_raw (h : letter ∈ readLetters text) : lines (letter.raw ++ ['\n']) = [letter.raw] := by
  obtain ⟨line, hline, hparse⟩ := exists_line h
  rw [(raw_of_parseLetter hparse).1]
  refine lines_line (fun hmem => not_mem_of_mem_lines hline (trim_subset _ _ hmem)) fun hlast => ?_
  exact absurd (getLast?_trim _ _ hlast) (by decide)

theorem written_concat (letters : List Letter) (letter : Letter) :
    written (letters ++ [letter]) = written letters ++ (letter.raw ++ ['\n']) := by
  rw [written, List.map_append, List.map_singleton, Framing.frames_concat]
  rfl

theorem readLetters_written (h : ∀ letter ∈ letters, letter ∈ readLetters text) :
    readLetters (written letters) = letters.map Letter.reread := by
  induction letters with
  | nil => rfl
  | cons letter letters ih =>
      obtain ⟨hletter, hrest⟩ := List.forall_mem_cons.mp h
      obtain ⟨line, -, hparse⟩ := exists_line hletter
      have hsplit : written (letter :: letters) = letter.raw ++ ['\n'] ++ written letters := by
        rw [written, List.map_cons, frames_cons, List.append_assoc]
        rfl
      have hclosed : Closed (letter.raw ++ ['\n']) := .inr List.getLast?_concat
      rw [hsplit, readLetters_append hclosed, ih hrest, readLetters, lines_raw hletter,
        List.filterMap_cons, parseLetter_raw hparse, List.filterMap_nil, List.map_cons]
      rfl

end Reading

section Places

-- The places of boxes.
def IsBox (place : Place) : Prop :=
  place.components.getLast? = some "inbox.jsonl".toList

def BoxTarget.box (routes : Routes) : BoxTarget → Option Place
  | .Project repoDir => some (boxPathForRepo repoDir)
  | .Medulla => some (medullaBoxPath routes.ownerRuntimeRoot)
  | .Pending _ => none

theorem isBox_join (place : Place) (components : List Text) :
    IsBox (place.join (components ++ ["inbox.jsonl".toList])) := by
  rw [IsBox, Place.join, ← List.append_assoc, List.getLast?_concat]

theorem BoxTarget.isBox {routes : Routes} {target : BoxTarget} {box : Place}
    (h : target.box routes = some box) : IsBox box := by
  cases target with
  | Project repoDir =>
      obtain rfl := Option.some.inj h
      exact isBox_join (Place.of repoDir) [".m1nd".toList]
  | Medulla =>
      obtain rfl := Option.some.inj h
      exact isBox_join (Place.of routes.ownerRuntimeRoot) []
  | Pending => cases h

-- The directory that a delivery makes, with all that it lies in.
def BoxTarget.directory (routes : Routes) : BoxTarget → Option Place
  | .Project repoDir => some ((Place.of repoDir).join [".m1nd".toList])
  | .Medulla => some (Place.of routes.ownerRuntimeRoot)
  | .Pending _ => none

theorem BoxTarget.directory_eq {routes : Routes} {target : BoxTarget} {box : Place}
    (h : target.box routes = some box) : target.directory routes = some box.parent := by
  cases target with
  | Project repoDir =>
      obtain rfl := Option.some.inj h
      rw [directory, boxPathForRepo, Place.join, Place.join, Place.parent, Option.some_inj]
      simp [List.dropLast_append]
  | Medulla =>
      obtain rfl := Option.some.inj h
      rw [directory, medullaBoxPath, Place.join, Place.parent, List.dropLast_concat]
  | Pending => cases h

-- Where the routing of a letter looks for a directory.
def Routes.lookedAt (routes : Routes) (letter : Letter) : List Place :=
  let field := Routes.routingField letter
  let asPath := routes.fieldPath field
  (if asPath.head? = some '/' then [Place.of asPath] else []) ++
    (routes.knownRepos[repoMatchKey (routes.normalizeRepo field)]?.map Place.of).toList

theorem Routes.resolveBox_congr (routes : Routes) {isDir isDir' : Place → Bool} {letter : Letter}
    (h : ∀ place ∈ routes.lookedAt letter, isDir place = isDir' place) :
    routes.resolveBox isDir letter = routes.resolveBox isDir' letter := by
  unfold lookedAt at h
  dsimp only at h
  rw [List.forall_mem_append] at h
  obtain ⟨hpath, hknown⟩ := h
  have hpath' : ((routes.fieldPath (routingField letter)).head? = some '/' ∧
      isDir (Place.of (routes.fieldPath (routingField letter))) = true) =
        ((routes.fieldPath (routingField letter)).head? = some '/' ∧
          isDir' (Place.of (routes.fieldPath (routingField letter))) = true) := by
    refine propext (and_congr_right fun hroot => ?_)
    rw [if_pos hroot] at hpath
    rw [hpath _ List.mem_cons_self]
  unfold resolveBox
  refine ite_congr rfl (fun _ => rfl) fun _ => ite_congr hpath' (fun _ => rfl) fun _ => ?_
  cases hdir : routes.knownRepos[repoMatchKey (routes.normalizeRepo (routingField letter))]? with
  | none => rfl
  | some dir =>
      rw [hdir] at hknown
      dsimp only
      rw [hknown (Place.of dir) (by simp)]

end Places

section Disks

variable {disk next last : BoxDisk} {place box : Place} {letter : Letter}

-- What there is stays there, and the system refuses what it refused.
structure BoxDisk.Extends (disk next : BoxDisk) : Prop where
  refuses : next.refuses = disk.refuses
  dirs : ∀ place, disk.dirs place = true → next.dirs place = true
  files : ∀ place, (disk.files place).isSome = true → (next.files place).isSome = true

theorem BoxDisk.Extends.refl (disk : BoxDisk) : disk.Extends disk where
  refuses := rfl
  dirs _ h := h
  files _ h := h

theorem BoxDisk.Extends.trans (h : disk.Extends next) (h' : next.Extends last) :
    disk.Extends last where
  refuses := h'.refuses.trans h.refuses
  dirs place hplace := h'.dirs place (h.dirs place hplace)
  files place hplace := h'.files place (h.files place hplace)

theorem BoxDisk.Extends.exists_ (h : disk.Extends next) (hplace : disk.exists_ place = true) :
    next.exists_ place = true := by
  unfold BoxDisk.exists_ at hplace ⊢
  rw [Bool.or_eq_true] at hplace ⊢
  exact hplace.imp (h.files place) (h.dirs place)

theorem BoxDisk.createDirAll_eq_some : disk.createDirAll place = some next ↔
    disk.refuses place = false ∧
      next = { disk with dirs := fun other => disk.dirs other || other.isPrefix place } := by
  unfold BoxDisk.createDirAll
  split
  case isTrue hrefuses => simp [hrefuses]
  case isFalse hrefuses => simp [hrefuses, eq_comm]

theorem BoxDisk.append_eq_some {text : Text} : disk.append place text = some next ↔
    disk.refuses place = false ∧
      next = { disk with
        files := fun other => if other = place then some (disk.text place ++ text)
          else disk.files other } := by
  unfold BoxDisk.append
  split
  case isTrue hrefuses => simp [hrefuses]
  case isFalse hrefuses => simp [hrefuses, eq_comm]

theorem BoxDisk.text_append {text : Text} (h : disk.append place text = some next) (other : Place) :
    next.text other = disk.text other ++ if other = place then text else [] := by
  obtain ⟨-, rfl⟩ := BoxDisk.append_eq_some.mp h
  unfold BoxDisk.text
  dsimp only
  split
  case isTrue hsame =>
    rw [hsame]
    rfl
  case isFalse => rw [List.append_nil]

theorem BoxDisk.extends_createDirAll (h : disk.createDirAll place = some next) :
    disk.Extends next := by
  obtain ⟨-, rfl⟩ := BoxDisk.createDirAll_eq_some.mp h
  exact ⟨rfl, fun other hother => Bool.or_eq_true_iff.mpr (.inl hother), fun _ hother => hother⟩

theorem BoxDisk.extends_append {text : Text} (h : disk.append place text = some next) :
    disk.Extends next := by
  obtain ⟨-, rfl⟩ := BoxDisk.append_eq_some.mp h
  refine ⟨rfl, fun _ hother => hother, fun other hother => ?_⟩
  dsimp only
  split
  · rfl
  · exact hother

def gitignorePath (repoDir : Place) : Place :=
  (repoDir.join [".m1nd".toList]).join [".gitignore".toList]

theorem not_isBox_gitignorePath (repoDir : Place) : ¬ IsBox (gitignorePath repoDir) := by
  rw [IsBox, gitignorePath, Place.join, List.getLast?_concat]
  decide

-- What the birth of a box leaves behind, when it succeeds.
structure BoxDisk.Born (disk next : BoxDisk) (repoDir : Place) : Prop where
  extends_ : disk.Extends next
  answers : disk.refuses (repoDir.join [".m1nd".toList]) = false
  dirs : ∀ place, next.dirs place = (disk.dirs place || place.isPrefix (repoDir.join [".m1nd".toList]))
  gitignore : next.exists_ (gitignorePath repoDir) = true
  text : ∀ box, IsBox box → next.text box = disk.text box

theorem BoxDisk.born_ensureBoxBirth {repoDir : Place} (h : disk.ensureBoxBirth repoDir = some next) :
    disk.Born next repoDir := by
  unfold BoxDisk.ensureBoxBirth at h
  dsimp only at h
  obtain ⟨made, hmade, h⟩ := Option.bind_eq_some_iff.mp h
  have hgrown := BoxDisk.extends_createDirAll hmade
  obtain ⟨hanswers, rfl⟩ := BoxDisk.createDirAll_eq_some.mp hmade
  split at h
  case isTrue hexists =>
    obtain rfl := Option.some.inj h
    exact ⟨hgrown, hanswers, fun _ => rfl, hexists, fun _ _ => rfl⟩
  case isFalse =>
    have hwritten := BoxDisk.extends_append h
    have htext := BoxDisk.text_append h
    obtain ⟨-, rfl⟩ := BoxDisk.append_eq_some.mp h
    refine ⟨hgrown.trans hwritten, hanswers, fun _ => rfl, ?_, fun box hbox => ?_⟩
    · simp [BoxDisk.exists_, gitignorePath]
    · have hne : box ≠ gitignorePath repoDir :=
        fun hsame => not_isBox_gitignorePath repoDir (hsame ▸ hbox)
      exact (htext box).trans ((congrArg _ (if_neg hne)).trans (List.append_nil _))

-- A box that is born already is left as it is.
theorem BoxDisk.ensureBoxBirth_eq_self {repoDir : Place}
    (hanswers : disk.refuses (repoDir.join [".m1nd".toList]) = false)
    (hdirs : ∀ place : Place, place.isPrefix (repoDir.join [".m1nd".toList]) = true →
      disk.dirs place = true)
    (hexists : disk.exists_ (gitignorePath repoDir) = true) :
    disk.ensureBoxBirth repoDir = some disk := by
  have hmade : disk.createDirAll (repoDir.join [".m1nd".toList]) = some disk := by
    rw [BoxDisk.createDirAll_eq_some]
    refine ⟨hanswers, ?_⟩
    have hsame : (fun other => disk.dirs other ||
        other.isPrefix (repoDir.join [".m1nd".toList])) = disk.dirs := by
      funext other
      cases hother : other.isPrefix (repoDir.join [".m1nd".toList])
      · rw [Bool.or_false]
      · rw [hdirs other hother, Bool.or_true]
    rw [hsame]
  unfold BoxDisk.ensureBoxBirth
  dsimp only
  rw [hmade, Option.bind_eq_bind, Option.bind_some]
  exact if_pos hexists

-- What an append leaves behind, when it succeeds.
structure BoxDisk.Appended (disk next : BoxDisk) (box : Place) (letter : Letter) : Prop where
  extends_ : disk.Extends next
  answers : disk.refuses box = false
  dirs : ∀ place, next.dirs place = (disk.dirs place || place.isPrefix box.parent)
  text : ∀ other, next.text other =
    disk.text other ++ if other = box then letter.raw ++ ['\n'] else []

theorem BoxDisk.appended_appendLetter (h : disk.appendLetter box letter = some next) :
    disk.Appended next box letter := by
  unfold BoxDisk.appendLetter at h
  obtain ⟨made, hmade, h⟩ := Option.bind_eq_some_iff.mp h
  have hgrown := BoxDisk.extends_createDirAll hmade
  obtain ⟨-, rfl⟩ := BoxDisk.createDirAll_eq_some.mp hmade
  have hwritten := BoxDisk.extends_append h
  have htext := BoxDisk.text_append h
  obtain ⟨hanswers, rfl⟩ := BoxDisk.append_eq_some.mp h
  exact ⟨hgrown.trans hwritten, hanswers, fun _ => rfl, htext⟩

end Disks

section Deliveries

variable [Sha256] [LetterJson] {routes : Routes} {pass next : Pass} {disk : BoxDisk} {box : Place}
  {letter : Letter} {target : BoxTarget} {ids : BTreeSet String}

def BoxDisk.idsAt (disk : BoxDisk) (box : Place) : List String :=
  (readLetters (disk.text box)).map Letter.id

-- The ids a pass goes by for a box: those it has kept, else those it reads.
def Pass.Knows (pass : Pass) (box : Place) (ids : BTreeSet String) : Prop :=
  pass.boxIdCache box = some ids ∨
    pass.boxIdCache box = none ∧ pass.disk.refuses box = false ∧
      ∀ id, id ∈ ids ↔ id ∈ pass.disk.idsAt box

theorem Pass.knows_of_cachedIds (h : pass.cachedIds box = some ids) : pass.Knows box ids := by
  unfold cachedIds at h
  split at h
  case h_1 cached hcached =>
    obtain rfl := Option.some.inj h
    exact .inl hcached
  case h_2 hcached =>
    obtain ⟨text, hread, rfl⟩ := Option.map_eq_some_iff.mp h
    unfold BoxDisk.readToString at hread
    split at hread
    · cases hread
    case isFalse hanswers =>
      obtain rfl := Option.some.inj hread
      refine .inr ⟨hcached, Bool.eq_false_iff.mpr hanswers, fun id => ?_⟩
      rw [Std.ExtTreeSet.mem_ofList, List.contains_iff_mem]
      rfl

-- What the filing of a letter does to a box, when it succeeds.
structure Pass.Filed (pass next : Pass) (box : Place) (letter : Letter) (ids : BTreeSet String) :
    Prop where
  knows : pass.Knows box ids
  extends_ : pass.disk.Extends next.disk
  dirs : ∀ place, next.disk.dirs place = true →
    pass.disk.dirs place = true ∨ place.isPrefix box.parent = true
  cache : ∀ other, next.boxIdCache other = if other = box then
    some (if letter.id ∈ ids then ids else ids.insert letter.id) else pass.boxIdCache other
  text : ∀ other, next.disk.text other =
    pass.disk.text other ++ if other = box ∧ letter.id ∉ ids then letter.raw ++ ['\n'] else []
  known : letter.id ∈ ids → next.disk = pass.disk ∧ next.appended = pass.appended

theorem Pass.exists_filed {path : Text} (h : pass.fileInto box letter path = some next) :
    ∃ ids, pass.Filed next box letter ids := by
  unfold fileInto at h
  obtain ⟨ids, hids, h⟩ := Option.bind_eq_some_iff.mp h
  refine ⟨ids, ?_⟩
  split at h
  case isTrue hknown =>
    obtain rfl := Option.some.inj h
    refine ⟨knows_of_cachedIds hids, .refl _, fun _ => .inl, fun other => ?_, fun other => ?_,
      fun _ => ⟨rfl, rfl⟩⟩
    · rw [if_pos hknown]
      rfl
    · rw [if_neg fun hboth => hboth.2 hknown, List.append_nil]
      rfl
  case isFalse hnew =>
    obtain ⟨disk, hdisk, h⟩ := Option.bind_eq_some_iff.mp h
    obtain rfl := Option.some.inj h
    have happended := BoxDisk.appended_appendLetter hdisk
    refine ⟨knows_of_cachedIds hids, happended.extends_, fun place hplace => ?_, fun other => ?_,
      fun other => ?_, fun hknown => absurd hknown hnew⟩
    · rw [happended.dirs, Bool.or_eq_true] at hplace
      exact hplace
    · rw [if_neg hnew]
      rfl
    · rw [happended.text]
      exact congrArg _ (ite_congr (propext (and_iff_left hnew).symm) (fun _ => rfl) fun _ => rfl)

-- What is left of a delivery for the next pass.
def BoxTarget.Served (routes : Routes) (disk : BoxDisk) (target : BoxTarget) : Prop :=
  (∀ box, target.box routes = some box → disk.refuses box = false) ∧
    ∀ repoDir, target = .Project repoDir →
      disk.refuses ((Place.of repoDir).join [".m1nd".toList]) = false ∧
        (∀ place : Place, place.isPrefix ((Place.of repoDir).join [".m1nd".toList]) = true →
          disk.dirs place = true) ∧
        disk.exists_ (gitignorePath (Place.of repoDir)) = true

theorem BoxTarget.Served.mono {next : BoxDisk} (h : target.Served routes disk)
    (hextends : disk.Extends next) : target.Served routes next := by
  refine ⟨fun box hbox => ?_, fun repoDir hrepo => ?_⟩
  · rw [hextends.refuses]
    exact h.1 box hbox
  · obtain ⟨hanswers, hdirs, hexists⟩ := h.2 repoDir hrepo
    refine ⟨?_, fun place hplace => hextends.dirs place (hdirs place hplace),
      hextends.exists_ hexists⟩
    rw [hextends.refuses]
    exact hanswers

-- What a delivery does to a box, when it succeeds.
structure Pass.Delivered (routes : Routes) (pass next : Pass) (letter : Letter)
    (target : BoxTarget) (box : Place) (ids : BTreeSet String) : Prop where
  knows : pass.Knows box ids
  extends_ : pass.disk.Extends next.disk
  dirs : ∀ place, next.disk.dirs place = true →
    pass.disk.dirs place = true ∨ place.isPrefix box.parent = true
  cache : ∀ other, next.boxIdCache other = if other = box then
    some (if letter.id ∈ ids then ids else ids.insert letter.id) else pass.boxIdCache other
  text : ∀ other, IsBox other → next.disk.text other =
    pass.disk.text other ++ if other = box ∧ letter.id ∉ ids then letter.raw ++ ['\n'] else []
  served : pass.disk.refuses box = false → target.Served routes next.disk

theorem Pass.exists_delivered (h : Pass.deliver routes pass letter = some next)
    (hbox : (routes.resolveBox pass.disk.dirs letter).box routes = some box) :
    ∃ ids, pass.Delivered routes next letter (routes.resolveBox pass.disk.dirs letter) box ids := by
  unfold deliver at h
  cases htarget : routes.resolveBox pass.disk.dirs letter with
  | Project repoDir =>
      rw [htarget] at h hbox
      obtain rfl := Option.some.inj hbox
      obtain ⟨born, hborn, h⟩ := Option.bind_eq_some_iff.mp h
      obtain ⟨filed, hfiled, h⟩ := Option.bind_eq_some_iff.mp h
      obtain rfl := Option.some.inj h
      have hborn := BoxDisk.born_ensureBoxBirth hborn
      obtain ⟨ids, hfiled⟩ := exists_filed hfiled
      have hisBox : IsBox (boxPathForRepo repoDir) := isBox_join (Place.of repoDir) [".m1nd".toList]
      have hdirectory : (BoxTarget.Project repoDir).directory routes =
          some (boxPathForRepo repoDir).parent := BoxTarget.directory_eq rfl
      have hparent : (boxPathForRepo repoDir).parent = (Place.of repoDir).join [".m1nd".toList] :=
        (Option.some.inj hdirectory).symm
      refine ⟨ids, ?_, hborn.extends_.trans hfiled.extends_, fun place hplace => ?_,
        hfiled.cache, fun other hother => ?_, fun hanswers => ⟨fun box hbox => ?_, ?_⟩⟩
      · refine hfiled.knows.imp_right fun ⟨hcache, hanswers, hmem⟩ => ⟨hcache, ?_, fun id => ?_⟩
        · rw [← hborn.extends_.refuses]
          exact hanswers
        · rw [hmem, BoxDisk.idsAt, BoxDisk.idsAt, hborn.text _ hisBox]
      · obtain hplace | hplace := hfiled.dirs place hplace
        · rw [hborn.dirs, Bool.or_eq_true, ← hparent] at hplace
          exact hplace
        · exact .inr hplace
      · rw [hfiled.text, hborn.text other hother]
      · obtain rfl := Option.some.inj hbox
        rw [hfiled.extends_.refuses, hborn.extends_.refuses]
        exact hanswers
      · intro other hother
        obtain rfl := BoxTarget.Project.inj hother
        refine ⟨?_, fun place hplace => hfiled.extends_.dirs place ?_,
          hfiled.extends_.exists_ hborn.gitignore⟩
        · rw [hfiled.extends_.refuses, hborn.extends_.refuses]
          exact hborn.answers
        · rw [hborn.dirs, hplace, Bool.or_true]
  | Medulla =>
      rw [htarget] at h hbox
      obtain rfl := Option.some.inj hbox
      obtain ⟨filed, hfiled, h⟩ := Option.bind_eq_some_iff.mp h
      obtain rfl := Option.some.inj h
      obtain ⟨ids, hfiled⟩ := exists_filed hfiled
      refine ⟨ids, hfiled.knows, hfiled.extends_, hfiled.dirs, hfiled.cache,
        fun other _ => hfiled.text other, fun hanswers => ⟨fun box hbox => ?_, nofun⟩⟩
      obtain rfl := Option.some.inj hbox
      rw [hfiled.extends_.refuses]
      exact hanswers
  | Pending name =>
      rw [htarget] at hbox
      cases hbox

theorem Pass.deliver_pending (h : Pass.deliver routes pass letter = some next)
    (hbox : (routes.resolveBox pass.disk.dirs letter).box routes = none) :
    next.disk = pass.disk ∧ next.boxIdCache = pass.boxIdCache := by
  unfold deliver at h
  cases htarget : routes.resolveBox pass.disk.dirs letter with
  | Project repoDir =>
      rw [htarget] at hbox
      cases hbox
  | Medulla =>
      rw [htarget] at hbox
      cases hbox
  | Pending name =>
      rw [htarget] at h
      obtain rfl := Option.some.inj h
      exact ⟨rfl, rfl⟩

end Deliveries

section Passes

variable [Sha256] [LetterJson] {routes : Routes} {pass next : Pass} {before : BoxDisk} {box : Place}
  {letter : Letter} {target : BoxTarget} {turns : List (Letter × BoxTarget)}

-- The letters of a box, each with the target that it had on its turn.
def sentTo (routes : Routes) (turns : List (Letter × BoxTarget)) (box : Place) : List Letter :=
  (turns.filter fun turn => turn.2.box routes = some box).map Prod.fst

theorem sentTo_concat (routes : Routes) (turns : List (Letter × BoxTarget)) (letter : Letter)
    (target : BoxTarget) (box : Place) : sentTo routes (turns ++ [(letter, target)]) box =
      sentTo routes turns box ++ if target.box routes = some box then [letter] else [] := by
  rw [sentTo, List.filter_append, List.map_append, ← sentTo, List.filter_singleton]
  by_cases h : target.box routes = some box <;> simp [h]

theorem mem_sentTo : letter ∈ sentTo routes turns box ↔
    ∃ target, (letter, target) ∈ turns ∧ target.box routes = some box := by
  simp [sentTo]

-- The letters that a pass writes into a box.
def newTo (routes : Routes) (before : BoxDisk) (turns : List (Letter × BoxTarget)) (box : Place) :
    List Letter :=
  firsts Letter.id (before.idsAt box) (sentTo routes turns box)

-- No letter is looked up at a directory that a delivery makes.
def Routes.Undisturbed (routes : Routes) (before : BoxDisk) (letters : List Letter) : Prop :=
  ∀ letter ∈ letters, ∀ place ∈ routes.lookedAt letter, ∀ other ∈ letters, ∀ dir,
    (routes.resolveBox before.dirs other).directory routes = some dir →
      place.isPrefix dir = true → before.dirs place = true

-- What a pass has done so far. A box has got the first letter of each id that it had not.
structure Pass.Ran (routes : Routes) (before : BoxDisk) (letters : List Letter)
    (turns : List (Letter × BoxTarget)) (pass : Pass) : Prop where
  extends_ : before.Extends pass.disk
  dirs : ∀ place, pass.disk.dirs place = true → before.dirs place = true ∨
    ∃ turn ∈ turns, ∃ dir, turn.2.directory routes = some dir ∧ place.isPrefix dir = true
  cached : ∀ box ids, pass.boxIdCache box = some ids → before.refuses box = false ∧
    ∀ id, id ∈ ids ↔ id ∈ before.idsAt box ∨ id ∈ (sentTo routes turns box).map Letter.id
  uncached : ∀ box, pass.boxIdCache box = none → sentTo routes turns box = []
  text : ∀ box, IsBox box →
    pass.disk.text box = before.text box ++ written (newTo routes before turns box)
  served : ∀ turn ∈ turns, turn.2.Served routes pass.disk
  settled : routes.Undisturbed before letters →
    ∀ turn ∈ turns, turn.2 = routes.resolveBox before.dirs turn.1

theorem Pass.ran_start (routes : Routes) (before : BoxDisk) (letters : List Letter) :
    Pass.Ran routes before letters [] (Pass.start before) where
  extends_ := .refl before
  dirs _ := .inl
  cached := nofun
  uncached _ _ := rfl
  text box _ := (List.append_nil _).symm
  served := nofun
  settled _ := nofun

theorem newTo_concat (routes : Routes) (before : BoxDisk) (turns : List (Letter × BoxTarget))
    (letter : Letter) (target : BoxTarget) (box : Place) :
    newTo routes before (turns ++ [(letter, target)]) box = newTo routes before turns box ++
      if target.box routes = some box ∧ ¬ (letter.id ∈ before.idsAt box ∨
        letter.id ∈ (sentTo routes turns box).map Letter.id) then [letter] else [] := by
  rw [newTo, sentTo_concat]
  by_cases hbox : target.box routes = some box
  · rw [if_pos hbox, firsts_concat, ← newTo]
    simp only [hbox, true_and]
    by_cases hknown : letter.id ∈ before.idsAt box ∨
        letter.id ∈ (sentTo routes turns box).map Letter.id
    · rw [if_pos hknown, if_neg (not_not_intro hknown)]
    · rw [if_neg hknown, if_pos hknown]
  · rw [if_neg hbox, List.append_nil, if_neg fun h => hbox h.1, List.append_nil]
    rfl

-- While the pass is undisturbed a letter goes where it would have gone before.
theorem Pass.Ran.resolveBox_eq {letters : List Letter} (h : pass.Ran routes before letters turns)
    (hturns : ∀ turn ∈ turns, turn.1 ∈ letters) (hletter : letter ∈ letters)
    (hundisturbed : routes.Undisturbed before letters) :
    routes.resolveBox pass.disk.dirs letter = routes.resolveBox before.dirs letter := by
  refine routes.resolveBox_congr fun place hplace => Bool.eq_iff_iff.mpr ⟨fun hdir => ?_, ?_⟩
  · obtain hdir | ⟨turn, hturn, dir, hdirectory, hprefix⟩ := h.dirs place hdir
    · exact hdir
    · rw [h.settled hundisturbed turn hturn] at hdirectory
      exact hundisturbed letter hletter place hplace turn.1 (hturns turn hturn) dir hdirectory hprefix
  · exact h.extends_.dirs place

theorem Pass.Ran.deliver {letters : List Letter} (h : pass.Ran routes before letters turns)
    (hturns : ∀ turn ∈ turns, turn.1 ∈ letters) (hletter : letter ∈ letters)
    (hnext : Pass.deliver routes pass letter = some next) :
    next.Ran routes before letters
      (turns ++ [(letter, routes.resolveBox pass.disk.dirs letter)]) := by
  have hsettled (hundisturbed : routes.Undisturbed before letters) :
      ∀ turn ∈ turns ++ [(letter, routes.resolveBox pass.disk.dirs letter)],
        turn.2 = routes.resolveBox before.dirs turn.1 := by
    rw [List.forall_mem_append, List.forall_mem_singleton]
    exact ⟨h.settled hundisturbed, h.resolveBox_eq hturns hletter hundisturbed⟩
  cases hbox : (routes.resolveBox pass.disk.dirs letter).box routes with
  | none =>
      obtain ⟨hdisk, hcache⟩ := deliver_pending hnext hbox
      have hsent (other : Place) : sentTo routes
          (turns ++ [(letter, routes.resolveBox pass.disk.dirs letter)]) other =
            sentTo routes turns other := by
        rw [sentTo_concat, hbox, if_neg nofun, List.append_nil]
      constructor
      case extends_ => exact hdisk ▸ h.extends_
      case dirs =>
        intro place hplace
        rw [hdisk] at hplace
        refine (h.dirs place hplace).imp_right fun ⟨turn, hturn, hdirectory⟩ => ?_
        exact ⟨turn, List.mem_append_left _ hturn, hdirectory⟩
      case cached =>
        intro other ids hids
        rw [hsent]
        exact h.cached other ids (hcache ▸ hids)
      case uncached =>
        intro other hother
        rw [hsent]
        exact h.uncached other (hcache ▸ hother)
      case text =>
        intro other hother
        rw [hdisk, h.text other hother, newTo, newTo, hsent]
      case served =>
        rw [List.forall_mem_append, List.forall_mem_singleton, hdisk]
        refine ⟨h.served, fun other hother => ?_, fun repoDir hrepo => ?_⟩
        · rw [hbox] at hother
          cases hother
        · dsimp only at hrepo
          rw [hrepo] at hbox
          cases hbox
      case settled => exact hsettled
  | some box =>
      obtain ⟨ids, hdelivered⟩ := exists_delivered hnext hbox
      have hknown : before.refuses box = false ∧
          ∀ id, id ∈ ids ↔ id ∈ before.idsAt box ∨ id ∈ (sentTo routes turns box).map Letter.id := by
        obtain hcache | ⟨hcache, hanswers, hmem⟩ := hdelivered.knows
        · exact h.cached box ids hcache
        · refine ⟨h.extends_.refuses ▸ hanswers, fun id => ?_⟩
          have htext := h.text box (BoxTarget.isBox hbox)
          rw [newTo, h.uncached box hcache] at htext
          rw [hmem, h.uncached box hcache, BoxDisk.idsAt, htext, firsts, written, List.map_nil,
            Framing.frames_nil, List.append_nil, List.map_nil, or_iff_left List.not_mem_nil]
          rfl
      obtain ⟨hanswers, hmem⟩ := hknown
      constructor
      case extends_ => exact h.extends_.trans hdelivered.extends_
      case dirs =>
        intro place hplace
        obtain hplace | hplace := hdelivered.dirs place hplace
        · refine (h.dirs place hplace).imp_right fun ⟨turn, hturn, hdirectory⟩ => ?_
          exact ⟨turn, List.mem_append_left _ hturn, hdirectory⟩
        · exact .inr ⟨_, List.mem_append_right _ List.mem_cons_self, _,
            BoxTarget.directory_eq hbox, hplace⟩
      case cached =>
        intro other ids' hids'
        rw [hdelivered.cache] at hids'
        rw [sentTo_concat, hbox]
        by_cases hother : other = box
        · rw [if_pos hother, Option.some_inj] at hids'
          rw [hother, if_pos rfl, List.map_append, List.map_singleton]
          refine ⟨hanswers, fun id => ?_⟩
          rw [List.mem_append, List.mem_singleton, ← or_assoc, ← hmem, ← hids']
          split
          case isTrue hold => exact (or_iff_left_of_imp fun heq => heq ▸ hold).symm
          case isFalse => rw [mem_insert_iff, or_comm]
        · rw [if_neg hother] at hids'
          rw [if_neg fun hsame => hother (Option.some.inj hsame).symm, List.append_nil]
          exact h.cached other ids' hids'
      case uncached =>
        intro other hnone
        rw [hdelivered.cache] at hnone
        split at hnone
        · cases hnone
        case isFalse hother =>
          rw [sentTo_concat, hbox, if_neg fun hsame => hother (Option.some.inj hsame).symm,
            List.append_nil]
          exact h.uncached other hnone
      case text =>
        intro other hother
        rw [hdelivered.text other hother, h.text other hother, newTo_concat, hbox,
          List.append_assoc]
        congr 1
        by_cases hnew : other = box ∧ letter.id ∉ ids
        · obtain ⟨rfl, hnew⟩ := hnew
          rw [if_pos ⟨rfl, hnew⟩, if_pos ⟨rfl, (hmem letter.id).not.mp hnew⟩, written_concat]
        · rw [if_neg hnew, if_neg, List.append_nil, List.append_nil]
          rintro ⟨hsame, hnot⟩
          obtain rfl := Option.some.inj hsame
          exact hnew ⟨rfl, (hmem letter.id).not.mpr hnot⟩
      case served =>
        rw [List.forall_mem_append, List.forall_mem_singleton]
        refine ⟨fun turn hturn => (h.served turn hturn).mono hdelivered.extends_,
          hdelivered.served ?_⟩
        rw [h.extends_.refuses]
        exact hanswers
      case settled => exact hsettled

-- What a whole pass has done.
theorem exists_ran {spool : Text} {after : BoxDisk} {receipt : DistributionReceipt}
    (h : distribute routes spool before = some (after, receipt)) :
    ∃ turns pass, turns.map Prod.fst = readLetters spool ∧ pass.disk = after ∧
      Pass.Ran routes before (readLetters spool) turns pass := by
  unfold distribute at h
  dsimp only at h
  obtain ⟨pass, hpass, heq⟩ := Option.map_eq_some_iff.mp h
  obtain ⟨turns, hturns, hran⟩ := foldlM_keeps_done
    (fun done pass => (∀ letter ∈ done, letter ∈ readLetters spool) →
      ∃ turns, turns.map Prod.fst = done ∧ Pass.Ran routes before (readLetters spool) turns pass)
    (fun _ => ⟨[], rfl, Pass.ran_start routes before (readLetters spool)⟩)
    (fun done pass hinv letter hletter next hnext hdone => by
      rw [List.forall_mem_append] at hdone
      obtain ⟨turns, rfl, hran⟩ := hinv hdone.1
      refine ⟨_, ?_, hran.deliver (fun turn hturn => ?_) hletter hnext⟩
      · rw [List.map_append]
        rfl
      · exact hdone.1 turn.1 (List.mem_map_of_mem hturn))
    hpass (fun _ hletter => hletter)
  exact ⟨turns, pass, hturns, congrArg Prod.fst heq, hran⟩

end Passes

end M1nd.Mcp
