import M1nd.Control.Policy
import M1nd.Library.Collections
import M1nd.Library.TextLines

namespace M1nd.Mcp

open M1nd.Control
open M1nd.Library.Collections
open M1nd.Library.TextLines

structure FnNode where
  idx : Nat
  name : Text
  file : Text

structure GraphView where
  fns : List FnNode
  edges : List (Nat × Nat × Text)

structure TsFn where
  name : Text

def normalize (p : Text) : Text :=
  p.map fun c => if c = '\\' then '/' else c

def stripFile (p : Text) : Text :=
  if "file::".toList.isPrefixOf p then p.drop 6 else p

def fileMatches (stored other : Text) : Bool :=
  let a := normalize (stripFile stored)
  let b := normalize (stripFile other)
  a == b || b.isSuffixOf a || a.isSuffixOf b

def tsIsTopLevel (tsFns : List TsFn) (name : Text) : Bool :=
  tsFns.any fun f => f.name == name

def calls : Text :=
  "calls".toList

section Classification

variable (view : GraphView) (samefileFns : List FnNode)

def samefileIdx : BTreeSet Nat :=
  .ofList (samefileFns.map FnNode.idx)

def nameOf (idx : Nat) : Option Text :=
  (samefileFns.find? fun f => f.idx == idx).map FnNode.name

def callees (n : Nat) : List Nat :=
  (view.edges.filter fun (s, t, r) =>
    s == n && r == calls && (samefileIdx samefileFns).contains t).map fun (_, t, _) => t

def callers (m : Nat) : List Nat :=
  (view.edges.filter fun (s, t, r) =>
    t == m && r == calls && (samefileIdx samefileFns).contains s && s != m).map fun (s, _, _) => s

def calleesOfAll (moved : BTreeSet Nat) : BTreeSet Nat :=
  .ofList (moved.toList.flatMap (callees view samefileFns))

-- One function of a pass. The flag tells whether the set grew.
def tryMove (pass : BTreeSet Nat × Bool) (m : Nat) : BTreeSet Nat × Bool :=
  if pass.1.contains m then pass
  else if (callers view samefileFns m).all fun c => pass.1.contains c then (pass.1.insert m, true)
  else pass

def sweep (moved : BTreeSet Nat) : BTreeSet Nat × Bool :=
  (calleesOfAll view samefileFns moved).toList.foldl (tryMove view samefileFns) (moved, false)

-- Each pass of the loop but the last moves one more function of the file.
def movedLoop : Nat → BTreeSet Nat → BTreeSet Nat
  | 0, moved => moved
  | fuel + 1, moved =>
      match sweep view samefileFns moved with
      | (grown, true) => movedLoop fuel grown
      | (same, false) => same

def movedFixpoint (symIdx : Nat) : BTreeSet Nat :=
  movedLoop view samefileFns (samefileFns.length + 1) ((∅ : BTreeSet Nat).insert symIdx)

def sharedFns (symIdx : Nat) : BTreeSet Nat :=
  let moved := movedFixpoint view samefileFns symIdx
  (calleesOfAll view samefileFns moved).filter fun m => !moved.contains m

-- The names that travel, the names that are shared and where the answer came from. The scan of
-- the text, for a symbol that the graph does not know, is a parameter.
def classifyDependencies (symbolIdx : Option Nat) (textually : List Text × List Text) :
    List Text × List Text × String :=
  match symbolIdx with
  | some symIdx =>
      (((movedFixpoint view samefileFns symIdx).toList.filter fun i => i != symIdx).filterMap
          (nameOf samefileFns),
        (sharedFns view samefileFns symIdx).toList.filterMap (nameOf samefileFns), "graph_edges")
  | none => (textually.1, textually.2, "textual")

end Classification

section Plan

variable (view : GraphView) (sourceAbs symbol : Text) (tsFns : List TsFn)
  (textually : List Text × List Text)

def samefile : List FnNode :=
  view.fns.filter fun f => fileMatches f.file sourceAbs

def symbolIndex : Option Nat :=
  ((samefile view sourceAbs).find? fun f => f.name == symbol).map FnNode.idx

def travelledNames : List Text :=
  (classifyDependencies view (samefile view sourceAbs) (symbolIndex view sourceAbs symbol)
    textually).1.filter fun n => tsFns.isEmpty || tsIsTopLevel tsFns n

def sharedNames : List Text :=
  (classifyDependencies view (samefile view sourceAbs) (symbolIndex view sourceAbs symbol)
    textually).2.1

end Plan

section Closure

variable {view : GraphView} {samefileFns : List FnNode} {symIdx : Nat}

def GraphView.Calls (view : GraphView) (s t : Nat) : Prop :=
  (s, t, calls) ∈ view.edges

def SameFile (samefileFns : List FnNode) (i : Nat) : Prop :=
  ∃ f ∈ samefileFns, f.idx = i

-- What is private to the symbol: a function of the file that a travelling function calls and that
-- nothing of the file calls but itself and travelling functions.
inductive Travels (view : GraphView) (samefileFns : List FnNode) (symIdx : Nat) : Nat → Prop
  | symbol : Travels view samefileFns symIdx symIdx
  | dependency {n m : Nat} : Travels view samefileFns symIdx n → view.Calls n m →
      SameFile samefileFns m →
      (∀ c, view.Calls c m → SameFile samefileFns c → c ≠ m →
        Travels view samefileFns symIdx c) → Travels view samefileFns symIdx m

theorem mem_samefileIdx {i : Nat} : i ∈ samefileIdx samefileFns ↔ SameFile samefileFns i := by
  rw [samefileIdx, Std.ExtTreeSet.mem_ofList, List.contains_iff_mem, List.mem_map]
  exact Iff.rfl

theorem mem_callees {n m : Nat} :
    m ∈ callees view samefileFns n ↔ view.Calls n m ∧ SameFile samefileFns m := by
  rw [← mem_samefileIdx]
  simp only [callees, List.mem_map, List.mem_filter, Bool.and_eq_true, beq_iff_eq,
    Std.ExtTreeSet.contains_iff_mem, Prod.exists, GraphView.Calls]
  constructor
  · rintro ⟨s, t, r, ⟨hedge, ⟨rfl, rfl⟩, ht⟩, rfl⟩
    exact ⟨hedge, ht⟩
  · rintro ⟨hedge, hm⟩
    exact ⟨n, m, calls, ⟨hedge, ⟨rfl, rfl⟩, hm⟩, rfl⟩

theorem mem_callers {c m : Nat} :
    c ∈ callers view samefileFns m ↔ view.Calls c m ∧ SameFile samefileFns c ∧ c ≠ m := by
  rw [← mem_samefileIdx]
  simp only [callers, List.mem_map, List.mem_filter, Bool.and_eq_true, beq_iff_eq, bne_iff_ne,
    Std.ExtTreeSet.contains_iff_mem, Prod.exists, GraphView.Calls]
  constructor
  · rintro ⟨s, t, r, ⟨hedge, ⟨⟨rfl, rfl⟩, hs⟩, hne⟩, rfl⟩
    exact ⟨hedge, hs, hne⟩
  · rintro ⟨hedge, hs, hne⟩
    exact ⟨c, m, calls, ⟨hedge, ⟨⟨rfl, rfl⟩, hs⟩, hne⟩, rfl⟩

theorem mem_calleesOfAll {moved : BTreeSet Nat} {m : Nat} :
    m ∈ calleesOfAll view samefileFns moved ↔
      ∃ n ∈ moved, view.Calls n m ∧ SameFile samefileFns m := by
  rw [calleesOfAll, Std.ExtTreeSet.mem_ofList, List.contains_iff_mem, List.mem_flatMap]
  simp only [Std.ExtTreeSet.mem_toList, mem_callees]

theorem mem_movedInit {i : Nat} : i ∈ (∅ : BTreeSet Nat).insert symIdx ↔ i = symIdx := by
  rw [mem_insert_iff, or_iff_left Std.ExtTreeSet.not_mem_empty]

-- A function that the rule lets through joins the set, every other one leaves the pass as it is.
theorem tryMove_cases (pass : BTreeSet Nat × Bool) (m : Nat) :
    (m ∉ pass.1 ∧ (∀ c ∈ callers view samefileFns m, c ∈ pass.1) ∧
        tryMove view samefileFns pass m = (pass.1.insert m, true)) ∨
      ((m ∈ pass.1 ∨ ∃ c ∈ callers view samefileFns m, c ∉ pass.1) ∧
        tryMove view samefileFns pass m = pass) := by
  unfold tryMove
  by_cases hm : m ∈ pass.1
  · exact .inr ⟨.inl hm, if_pos (Std.ExtTreeSet.contains_iff_mem.mpr hm)⟩
  · rw [if_neg (Std.ExtTreeSet.contains_iff_mem.not.mpr hm)]
    by_cases hall : ∀ c ∈ callers view samefileFns m, c ∈ pass.1
    · refine .inl ⟨hm, hall, if_pos (List.all_eq_true.mpr fun c hc => ?_)⟩
      exact Std.ExtTreeSet.contains_iff_mem.mpr (hall c hc)
    · have hstays := hall
      push Not at hstays
      refine .inr ⟨.inr hstays, if_neg fun hyes => hall fun c hc => ?_⟩
      exact Std.ExtTreeSet.contains_iff_mem.mp (List.all_eq_true.mp hyes c hc)

theorem subset_foldl_tryMove (items : List Nat) (pass : BTreeSet Nat × Bool) {i : Nat}
    (hi : i ∈ pass.1) : i ∈ (items.foldl (tryMove view samefileFns) pass).1 := by
  induction items generalizing pass with
  | nil => exact hi
  | cons m items ih =>
      rw [List.foldl_cons]
      refine ih _ ?_
      rcases @tryMove_cases view samefileFns pass m with
        ⟨_, _, heq⟩ | ⟨_, heq⟩
      · rw [heq]
        exact mem_insert_iff.mpr (.inr hi)
      · rw [heq]
        exact hi

-- A pass over functions that travelling ones call moves only travelling functions.
theorem travels_foldl_tryMove (items : List Nat) (pass : BTreeSet Nat × Bool)
    (hpass : ∀ i ∈ pass.1, Travels view samefileFns symIdx i)
    (hitems : ∀ m ∈ items, ∃ n, Travels view samefileFns symIdx n ∧ view.Calls n m ∧
      SameFile samefileFns m) :
    ∀ i ∈ (items.foldl (tryMove view samefileFns) pass).1,
      Travels view samefileFns symIdx i := by
  induction items generalizing pass with
  | nil => exact hpass
  | cons m items ih =>
      rw [List.foldl_cons]
      refine ih _ ?_ fun other hother => hitems other (List.mem_cons_of_mem m hother)
      rcases @tryMove_cases view samefileFns pass m with
        ⟨_, hall, heq⟩ | ⟨_, heq⟩
      · rw [heq]
        intro i hi
        rcases mem_insert_iff.mp hi with rfl | hi
        · obtain ⟨n, hn, hcall, hsame⟩ := hitems i List.mem_cons_self
          exact .dependency hn hcall hsame fun c hc hcsame hne =>
            hpass c (hall c (mem_callers.mpr ⟨hc, hcsame, hne⟩))
        · exact hpass i hi
      · rw [heq]
        exact hpass

-- A pass without growth has left each function out for a caller that stays.
theorem foldl_tryMove_false (items : List Nat) {pass : BTreeSet Nat × Bool}
    (hflag : (items.foldl (tryMove view samefileFns) pass).2 = false) :
    pass.2 = false ∧ (items.foldl (tryMove view samefileFns) pass).1 = pass.1 ∧
      ∀ m ∈ items, m ∈ pass.1 ∨ ∃ c ∈ callers view samefileFns m, c ∉ pass.1 := by
  induction items generalizing pass with
  | nil => exact ⟨hflag, rfl, nofun⟩
  | cons m items ih =>
      rw [List.foldl_cons] at hflag ⊢
      obtain ⟨hsecond, hsame, hrest⟩ := ih hflag
      rcases @tryMove_cases view samefileFns pass m with
        ⟨_, _, heq⟩ | ⟨hstay, heq⟩
      · rw [heq] at hsecond
        cases hsecond
      · rw [heq] at hsecond hsame hrest ⊢
        refine ⟨hsecond, hsame, fun other hother => ?_⟩
        rcases List.mem_cons.mp hother with rfl | hother
        · exact hstay
        · exact hrest other hother

-- A pass with growth has moved a function that was not in the set.
theorem foldl_tryMove_true (items : List Nat) {pass : BTreeSet Nat × Bool}
    (hfirst : pass.2 = false) (hflag : (items.foldl (tryMove view samefileFns) pass).2 = true) :
    ∃ m ∈ items, m ∉ pass.1 ∧ m ∈ (items.foldl (tryMove view samefileFns) pass).1 := by
  induction items generalizing pass with
  | nil => rw [List.foldl_nil, hfirst] at hflag; cases hflag
  | cons m items ih =>
      rw [List.foldl_cons] at hflag ⊢
      rcases @tryMove_cases view samefileFns pass m with
        ⟨hm, _, heq⟩ | ⟨_, heq⟩
      · refine ⟨m, List.mem_cons_self, hm, subset_foldl_tryMove items _ ?_⟩
        rw [heq]
        exact mem_insert_iff.mpr (.inl rfl)
      · rw [heq] at hflag ⊢
        obtain ⟨other, hother, hnot, hin⟩ := ih hfirst hflag
        exact ⟨other, List.mem_cons_of_mem m hother, hnot, hin⟩

-- What the loop stops at: nothing more may move.
structure Settled (view : GraphView) (samefileFns : List FnNode) (moved : BTreeSet Nat) : Prop where
  stays : ∀ n ∈ moved, ∀ m, view.Calls n m → SameFile samefileFns m →
    m ∈ moved ∨ ∃ c, view.Calls c m ∧ SameFile samefileFns c ∧ c ≠ m ∧ c ∉ moved

def waiting (samefileFns : List FnNode) (moved : BTreeSet Nat) : Nat :=
  samefileFns.countP fun f => !moved.contains f.idx

theorem sweep_settled {moved same : BTreeSet Nat}
    (h : sweep view samefileFns moved = (same, false)) :
    same = moved ∧ Settled view samefileFns moved := by
  have hflag : ((calleesOfAll view samefileFns moved).toList.foldl (tryMove view samefileFns)
      (moved, false)).2 = false := congrArg Prod.snd h
  obtain ⟨_, hsame, hstay⟩ := foldl_tryMove_false _ hflag
  refine ⟨(congrArg Prod.fst h).symm.trans hsame, ⟨fun n hn m hcall hfile => ?_⟩⟩
  have hm : m ∈ calleesOfAll view samefileFns moved :=
    mem_calleesOfAll.mpr ⟨n, hn, hcall, hfile⟩
  refine (hstay m (Std.ExtTreeSet.mem_toList.mpr hm)).imp_right fun ⟨c, hc, hout⟩ => ?_
  obtain ⟨hccall, hcfile, hne⟩ := mem_callers.mp hc
  exact ⟨c, hccall, hcfile, hne, hout⟩

theorem waiting_sweep {moved grown : BTreeSet Nat}
    (h : sweep view samefileFns moved = (grown, true)) :
    waiting samefileFns grown < waiting samefileFns moved := by
  have hflag : ((calleesOfAll view samefileFns moved).toList.foldl (tryMove view samefileFns)
      (moved, false)).2 = true := congrArg Prod.snd h
  obtain ⟨m, hm, hnot, hin⟩ := foldl_tryMove_true _ rfl hflag
  have hgrown : ((calleesOfAll view samefileFns moved).toList.foldl (tryMove view samefileFns)
      (moved, false)).1 = grown := congrArg Prod.fst h
  rw [hgrown] at hin
  obtain ⟨_, _, _, f, hf, rfl⟩ := mem_calleesOfAll.mp (Std.ExtTreeSet.mem_toList.mp hm)
  refine countP_lt hf (fun g _ hg => ?_) ?_ ?_
  · rw [Bool.not_eq_true', ← Bool.not_eq_true, Std.ExtTreeSet.contains_iff_mem] at hg ⊢
    exact fun hmoved => hg (hgrown ▸ subset_foldl_tryMove _ (moved, false) hmoved)
  · simpa using hin
  · simpa [Std.ExtTreeSet.contains_iff_mem, ← Bool.not_eq_true] using hnot

theorem movedLoop_spec (fuel : Nat) {moved : BTreeSet Nat}
    (hfuel : waiting samefileFns moved < fuel)
    (hmoved : ∀ i ∈ moved, Travels view samefileFns symIdx i) :
    (∀ i ∈ moved, i ∈ movedLoop view samefileFns fuel moved) ∧
      (∀ i ∈ movedLoop view samefileFns fuel moved, Travels view samefileFns symIdx i) ∧
      Settled view samefileFns (movedLoop view samefileFns fuel moved) := by
  induction fuel generalizing moved with
  | zero => omega
  | succ fuel ih =>
      rw [movedLoop]
      split
      · next grown h =>
          have hgrown : ((calleesOfAll view samefileFns moved).toList.foldl
              (tryMove view samefileFns) (moved, false)).1 = grown := congrArg Prod.fst h
          have hless := waiting_sweep h
          have htravels := travels_foldl_tryMove
            (calleesOfAll view samefileFns moved).toList (moved, false) hmoved fun m hm => by
              obtain ⟨n, hn, hcall, hfile⟩ :=
                mem_calleesOfAll.mp (Std.ExtTreeSet.mem_toList.mp hm)
              exact ⟨n, hmoved n hn, hcall, hfile⟩
          rw [hgrown] at htravels
          obtain ⟨hsub, hsound, hsettled⟩ := ih (by omega) htravels
          exact ⟨fun i hi => hsub i (hgrown ▸ subset_foldl_tryMove _ (moved, false) hi), hsound,
            hsettled⟩
      · next same h =>
          obtain ⟨rfl, hsettled⟩ := sweep_settled h
          exact ⟨fun _ hi => hi, hmoved, hsettled⟩

-- The loop computes the least set that the rule closes.
theorem mem_movedFixpoint {i : Nat} :
    i ∈ movedFixpoint view samefileFns symIdx ↔ Travels view samefileFns symIdx i := by
  have hfuel : waiting samefileFns ((∅ : BTreeSet Nat).insert symIdx) < samefileFns.length + 1 :=
    Nat.lt_succ_of_le List.countP_le_length
  have hinit : ∀ j ∈ (∅ : BTreeSet Nat).insert symIdx, Travels view samefileFns symIdx j :=
    fun j hj => mem_movedInit.mp hj ▸ .symbol
  obtain ⟨hsub, hsound, hsettled⟩ := movedLoop_spec (samefileFns.length + 1) hfuel
    hinit
  refine ⟨hsound i, fun h => ?_⟩
  induction h with
  | symbol => exact hsub symIdx (mem_movedInit.mpr rfl)
  | @dependency n m _ hcall hfile _ ihn ihcallers =>
      rcases hsettled.stays n ihn m hcall hfile with hm | ⟨c, hc, hcfile, hne, hout⟩
      · exact hm
      · exact absurd (ihcallers c hc hcfile hne) hout

theorem mem_sharedFns {i : Nat} :
    i ∈ sharedFns view samefileFns symIdx ↔
      (∃ n, Travels view samefileFns symIdx n ∧ view.Calls n i ∧ SameFile samefileFns i) ∧
        ¬ Travels view samefileFns symIdx i := by
  rw [sharedFns, Std.ExtTreeSet.mem_filter]
  simp only [Bool.not_eq_true', ← Bool.not_eq_true, Std.ExtTreeSet.contains_iff_mem,
    Std.ExtTreeSet.get_eq, mem_calleesOfAll, mem_movedFixpoint, exists_prop]

end Closure

section Theorems

variable {view : GraphView} {sourceAbs symbol : Text} {tsFns : List TsFn}
  {textually : List Text × List Text} {symIdx : Nat}

-- A function of the file that the plan may cut.
def TopLevel (samefileFns : List FnNode) (tsFns : List TsFn) (i : Nat) : Prop :=
  ∃ name, nameOf samefileFns i = some name ∧ (tsFns.isEmpty || tsIsTopLevel tsFns name) = true

-- A function that the plan cuts along with the symbol.
def TravelledDependency (view : GraphView) (sourceAbs symbol : Text) (tsFns : List TsFn)
    (textually : List Text × List Text) (symIdx i : Nat) : Prop :=
  i ∈ movedFixpoint view (samefile view sourceAbs) symIdx ∧ i ≠ symIdx ∧
    ∃ name ∈ travelledNames view sourceAbs symbol tsFns textually,
      nameOf (samefile view sourceAbs) i = some name

def MoveSet (view : GraphView) (sourceAbs symbol : Text) (tsFns : List TsFn)
    (textually : List Text × List Text) (symIdx i : Nat) : Prop :=
  i = symIdx ∨ TravelledDependency view sourceAbs symbol tsFns textually symIdx i

def ReportedShared (view : GraphView) (sourceAbs symbol : Text)
    (textually : List Text × List Text) (i : Nat) : Prop :=
  ∃ name ∈ sharedNames view sourceAbs symbol textually,
    nameOf (samefile view sourceAbs) i = some name

theorem mem_travelledNames (hfound : symbolIndex view sourceAbs symbol = some symIdx)
    {name : Text} :
    name ∈ travelledNames view sourceAbs symbol tsFns textually ↔
      (∃ i, Travels view (samefile view sourceAbs) symIdx i ∧ i ≠ symIdx ∧
        nameOf (samefile view sourceAbs) i = some name) ∧
        (tsFns.isEmpty || tsIsTopLevel tsFns name) = true := by
  rw [travelledNames, hfound, classifyDependencies, List.mem_filter, List.mem_filterMap]
  simp only [List.mem_filter, Std.ExtTreeSet.mem_toList, mem_movedFixpoint, bne_iff_ne, and_assoc]

theorem mem_sharedNames (hfound : symbolIndex view sourceAbs symbol = some symIdx) {name : Text} :
    name ∈ sharedNames view sourceAbs symbol textually ↔
      ∃ i ∈ sharedFns view (samefile view sourceAbs) symIdx,
        nameOf (samefile view sourceAbs) i = some name := by
  rw [sharedNames, hfound, classifyDependencies, List.mem_filterMap]
  simp only [Std.ExtTreeSet.mem_toList]

theorem travelledDependency_iff (hfound : symbolIndex view sourceAbs symbol = some symIdx)
    {i : Nat} :
    TravelledDependency view sourceAbs symbol tsFns textually symIdx i ↔
      i ≠ symIdx ∧ Travels view (samefile view sourceAbs) symIdx i ∧
        TopLevel (samefile view sourceAbs) tsFns i := by
  unfold TravelledDependency TopLevel
  rw [mem_movedFixpoint]
  constructor
  · rintro ⟨htravels, hne, name, hname, hi⟩
    exact ⟨hne, htravels, name, hi, ((mem_travelledNames hfound).mp hname).2⟩
  · rintro ⟨hne, htravels, name, hi, htop⟩
    have hname : name ∈ travelledNames view sourceAbs symbol tsFns textually :=
      (mem_travelledNames hfound).mpr ⟨⟨i, htravels, hne, hi⟩, htop⟩
    exact ⟨htravels, hne, name, hname, hi⟩

-- The property of the claim.
def LeavesNoCaller (view : GraphView) (sourceAbs symbol : Text) (tsFns : List TsFn)
    (textually : List Text × List Text) (symIdx : Nat) : Prop :=
  (∀ s t, view.Calls s t → TravelledDependency view sourceAbs symbol tsFns textually symIdx t →
    MoveSet view sourceAbs symbol tsFns textually symIdx s) ∧
  ∀ s t, view.Calls s t → MoveSet view sourceAbs symbol tsFns textually symIdx s →
    SameFile (samefile view sourceAbs) t →
    MoveSet view sourceAbs symbol tsFns textually symIdx t ∨
      ReportedShared view sourceAbs symbol textually t

-- No function that travels is called from outside the file or by one that travels and is nested,
-- and each nested one that a travelling function calls has the name of a shared one.
structure Sealed (view : GraphView) (samefileFns : List FnNode) (tsFns : List TsFn)
    (symIdx : Nat) : Prop where
  inside : ∀ s t, view.Calls s t → t ≠ symIdx → Travels view samefileFns symIdx t →
    TopLevel samefileFns tsFns t →
    SameFile samefileFns s ∧ (s = symIdx ∨ TopLevel samefileFns tsFns s)
  named : ∀ s t, view.Calls s t →
    (s = symIdx ∨ Travels view samefileFns symIdx s ∧ TopLevel samefileFns tsFns s) →
    t ≠ symIdx → Travels view samefileFns symIdx t → ¬ TopLevel samefileFns tsFns t →
    ∃ n u name, Travels view samefileFns symIdx n ∧ view.Calls n u ∧ SameFile samefileFns u ∧
      ¬ Travels view samefileFns symIdx u ∧ nameOf samefileFns u = some name ∧
      nameOf samefileFns t = some name

theorem moveSet_iff (hfound : symbolIndex view sourceAbs symbol = some symIdx) {i : Nat} :
    MoveSet view sourceAbs symbol tsFns textually symIdx i ↔
      i = symIdx ∨ Travels view (samefile view sourceAbs) symIdx i ∧
        TopLevel (samefile view sourceAbs) tsFns i := by
  unfold MoveSet
  rw [travelledDependency_iff hfound]
  tauto

theorem Travels.callers {samefileFns : List FnNode} {s t : Nat}
    (h : Travels view samefileFns symIdx t) (hne : t ≠ symIdx) (hcall : view.Calls s t)
    (hfile : SameFile samefileFns s) : Travels view samefileFns symIdx s := by
  cases h with
  | symbol => exact absurd rfl hne
  | dependency hn hcalls htfile hcallers =>
      by_cases hself : s = t
      · exact hself ▸ .dependency hn hcalls htfile hcallers
      · exact hcallers s hcall hfile hself

theorem Travels.sameFile {samefileFns : List FnNode} {i : Nat}
    (h : Travels view samefileFns symIdx i) (hsymbol : SameFile samefileFns symIdx) :
    SameFile samefileFns i := by
  cases h with
  | symbol => exact hsymbol
  | dependency _ _ hfile _ => exact hfile

theorem sameFile_symbol (hfound : symbolIndex view sourceAbs symbol = some symIdx) :
    SameFile (samefile view sourceAbs) symIdx := by
  obtain ⟨f, hf, rfl⟩ := Option.map_eq_some_iff.mp hfound
  exact ⟨f, List.mem_of_find?_eq_some hf, rfl⟩

theorem exists_nameOf {samefileFns : List FnNode} {i : Nat} (h : SameFile samefileFns i) :
    ∃ name, nameOf samefileFns i = some name := by
  obtain ⟨f, hf, rfl⟩ := h
  cases hfind : samefileFns.find? (fun g => g.idx == f.idx) with
  | none => exact absurd (beq_self_eq_true f.idx) (List.find?_eq_none.mp hfind f hf)
  | some g => exact ⟨g.name, by rw [nameOf, hfind]; rfl⟩

theorem leavesNoCaller_iff_sealed (hfound : symbolIndex view sourceAbs symbol = some symIdx) :
    LeavesNoCaller view sourceAbs symbol tsFns textually symIdx ↔
      Sealed view (samefile view sourceAbs) tsFns symIdx := by
  unfold LeavesNoCaller ReportedShared
  simp only [travelledDependency_iff hfound, moveSet_iff hfound, mem_sharedNames hfound,
    mem_sharedFns]
  constructor
  · rintro ⟨hin, hout⟩
    refine ⟨fun s t hcall hne htravels htop => ?_, fun s t hcall hs hne htravels hnested => ?_⟩
    · rcases hin s t hcall ⟨hne, htravels, htop⟩ with rfl | ⟨hs, hstop⟩
      · exact ⟨sameFile_symbol hfound, .inl rfl⟩
      · exact ⟨hs.sameFile (sameFile_symbol hfound), .inr hstop⟩
    · rcases hout s t hcall hs (htravels.sameFile (sameFile_symbol hfound)) with
        (hsym | ⟨_, htop⟩) | ⟨name, ⟨u, ⟨⟨n, hn, hncall, hufile⟩, hstays⟩, hu⟩, ht⟩
      · exact absurd hsym hne
      · exact absurd htop hnested
      · exact ⟨n, u, name, hn, hncall, hufile, hstays, hu, ht⟩
  · rintro ⟨hinside, hnamed⟩
    refine ⟨fun s t hcall ⟨hne, htravels, htop⟩ => ?_, fun s t hcall hs hfile => ?_⟩
    · obtain ⟨hsfile, hs⟩ := hinside s t hcall hne htravels htop
      exact hs.imp_right fun hstop => ⟨htravels.callers hne hcall hsfile, hstop⟩
    · by_cases htravels : Travels view (samefile view sourceAbs) symIdx t
      · by_cases hne : t = symIdx
        · exact .inl (.inl hne)
        · by_cases htop : TopLevel (samefile view sourceAbs) tsFns t
          · exact .inl (.inr ⟨htravels, htop⟩)
          · obtain ⟨n, u, name, hn, hncall, hufile, hstays, hu, ht⟩ :=
              hnamed s t hcall hs hne htravels htop
            exact .inr ⟨name, ⟨u, ⟨⟨n, hn, hncall, hufile⟩, hstays⟩, hu⟩, ht⟩
      · -- a callee that does not travel is shared
        have hcaller : Travels view (samefile view sourceAbs) symIdx s := by
          rcases hs with rfl | ⟨hs, _⟩
          · exact .symbol
          · exact hs
        obtain ⟨name, hname⟩ := exists_nameOf hfile
        exact .inr ⟨name, ⟨t, ⟨⟨s, hcaller, hcall, hfile⟩, htravels⟩, hname⟩, hname⟩

def scoreFns : List FnNode :=
  [⟨0, "score".toList, "src/alpha.rs".toList⟩, ⟨1, "weight".toList, "src/alpha.rs".toList⟩]

def privateHelper : GraphView where
  fns := scoreFns
  edges := [(0, 1, calls)]

def scoreTsFns : List TsFn :=
  [⟨"score".toList⟩, ⟨"weight".toList⟩]

theorem privateHelper_leavesNoCaller :
    LeavesNoCaller privateHelper "/repo/src/alpha.rs".toList "score".toList scoreTsFns
      ([], []) 0 := by
  refine (leavesNoCaller_iff_sealed (by decide +kernel)).mpr ⟨?_, ?_⟩
  · intro s t hcall _ _ _
    obtain ⟨rfl, rfl⟩ : s = 0 ∧ t = 1 := by simpa [GraphView.Calls, privateHelper] using hcall
    exact ⟨⟨_, List.mem_cons_self, rfl⟩, .inl rfl⟩
  · intro s t hcall _ _ _ hnested
    obtain ⟨rfl, rfl⟩ : s = 0 ∧ t = 1 := by simpa [GraphView.Calls, privateHelper] using hcall
    exact absurd ⟨"weight".toList, by decide +kernel, by decide +kernel⟩ hnested

def crossFileHelper : GraphView where
  fns := scoreFns ++ [⟨2, "report".toList, "src/beta.rs".toList⟩]
  edges := [(0, 1, calls), (2, 1, calls)]

-- A function of another file that calls the dependency stays behind.
theorem crossFileHelper_not_leavesNoCaller :
    symbolIndex crossFileHelper "/repo/src/alpha.rs".toList "score".toList = some 0 ∧
      ¬ LeavesNoCaller crossFileHelper "/repo/src/alpha.rs".toList "score".toList scoreTsFns
        ([], []) 0 := by
  have hfound :
      symbolIndex crossFileHelper "/repo/src/alpha.rs".toList "score".toList = some 0 := by
    decide +kernel
  refine ⟨hfound, fun h => ?_⟩
  have hdependency : TravelledDependency crossFileHelper "/repo/src/alpha.rs".toList
      "score".toList scoreTsFns ([], []) 0 1 := by
    exact ⟨by decide +kernel, by decide, "weight".toList, by decide +kernel, by decide +kernel⟩
  rcases h.1 2 1 (List.mem_cons_of_mem _ List.mem_cons_self) hdependency with h | ⟨h, _⟩
  · exact absurd h (by decide)
  · exact absurd h (by decide +kernel)

end Theorems

end M1nd.Mcp
