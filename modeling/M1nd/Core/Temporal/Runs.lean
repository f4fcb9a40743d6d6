import M1nd.Core.Temporal.Search

namespace M1nd.Core

open M1nd.Library.Counters

variable {W F T : Type}

section Rows

variable {row : List (CoChangeEntry W)} {target : Nat}

theorem map_target_strengthen (row : List (CoChangeEntry W)) (i : Nat) :
    (row.modify i CoChangeEntry.strengthen).map CoChangeEntry.target =
      row.map CoChangeEntry.target := by
  apply List.ext_getElem?
  intro j
  rw [List.getElem?_map, List.getElem?_map, List.getElem?_modify]
  cases row[j]? with
  | none => rfl
  | some entry =>
      by_cases he : i = j
      · simp [he, CoChangeEntry.strengthen]
      · simp [he]

theorem IsRow.strengthen (h : IsRow row) (i : Nat) :
    IsRow (row.modify i CoChangeEntry.strengthen) where
  distinct := by
    rw [map_target_strengthen]
    exact h.distinct
  short := by
    rw [List.length_modify]
    exact h.short

theorem IsRow.replace (h : IsRow row) (i : Nat) {entry : CoChangeEntry W}
    (hnew : entry.target ∉ row.map CoChangeEntry.target) : IsRow (row.set i entry) where
  distinct := by
    rw [List.map_set]
    exact h.distinct.set hnew
  short := by
    rw [List.length_set]
    exact h.short

theorem IsRow.push (h : IsRow row) {entry : CoChangeEntry W}
    (hnew : entry.target ∉ row.map CoChangeEntry.target) (hroom : row.length < CO_CHANGE_MAX_ROW) :
    IsRow (row ++ [entry]) where
  distinct := by
    rw [List.map_append, List.map_singleton, ← List.concat_eq_append]
    exact h.distinct.concat hnew
  short := by
    rw [List.length_append, List.length_singleton]
    exact hroom

end Rows

namespace CoChangeMatrix

-- The entries are counted one by one.
structure Counted (matrix : CoChangeMatrix W) : Prop where
  rows : ∀ row ∈ matrix.rows, IsRow row
  totalEntries : matrix.totalEntries = (matrix.rows.map List.length).sum

variable [Zero W] [FiniteF32 W F] [Float32 F] [CoChangeF32 W F] {graph : Graph W T}
  {matrix next : CoChangeMatrix W} {source target : Nat}

omit [Zero W] in
theorem exists_weakest (matrix : CoChangeMatrix W) (source : Nat)
    {entries : List (CoChangeEntry W)} (hne : entries ≠ []) :
    ∃ i < entries.length, matrix.weakest source entries = some i := by
  obtain ⟨first, rest, rfl⟩ := List.exists_cons_of_ne_nil hne
  rw [weakest, List.zipIdx_cons, List.foldl_cons]
  let Found (best : Option (CoChangeEntry W × Nat)) : Prop :=
    ∃ i < (first :: rest).length, best.map Prod.snd = some i
  refine List.foldlRecOn (motive := Found) _ _ ⟨0, Nat.zero_lt_succ _, rfl⟩
    fun best hbest entry hentry => ?_
  obtain ⟨i, hi, hsome⟩ := hbest
  obtain ⟨least, rfl, rfl⟩ := Option.map_eq_some_iff.mp hsome
  dsimp only
  split
  · exact ⟨least.2, hi, rfl⟩
  · have hindex := List.snd_lt_add_of_mem_zipIdx hentry
    refine ⟨entry.2, ?_, rfl⟩
    rw [List.length_cons]
    omega

-- A record changes one row, and only a row with room and a budget with room take one entry more.
inductive Recorded (matrix : CoChangeMatrix W) (source target : Nat) : CoChangeMatrix W → Prop
  | refused (hfull : matrix.rows.length ≤ source ∨ matrix.budget ≤ matrix.totalEntries) :
      Recorded matrix source target matrix
  | strengthened {row : List (CoChangeEntry W)} (hrow : matrix.rows[source]? = some row)
      (hold : target ∈ row.map CoChangeEntry.target) (i : Nat) :
      Recorded matrix source target { matrix with
        rows := matrix.rows.set source (row.modify i CoChangeEntry.strengthen)
        isLearned := true }
  | replaced {row : List (CoChangeEntry W)} (hrow : matrix.rows[source]? = some row)
      (hnew : target ∉ row.map CoChangeEntry.target)
      (hbudget : matrix.totalEntries < matrix.budget) (i : Nat) (hi : i < row.length) :
      Recorded matrix source target { matrix with
        rows := matrix.rows.set source (row.set i ⟨target, 0, 1⟩)
        isLearned := true }
  | pushed {row : List (CoChangeEntry W)} (hrow : matrix.rows[source]? = some row)
      (hnew : target ∉ row.map CoChangeEntry.target)
      (hbudget : matrix.totalEntries < matrix.budget) (hroom : row.length < CO_CHANGE_MAX_ROW) :
      Recorded matrix source target { matrix with
        rows := matrix.rows.set source (row ++ [⟨target, 0, 1⟩])
        totalEntries := matrix.totalEntries + 1
        isLearned := true }

theorem recorded (matrix : CoChangeMatrix W) (source target : Nat) :
    matrix.Recorded source target (matrix.recordCoChange source target).2 := by
  unfold recordCoChange
  cases hrow : matrix.rows[source]? with
  | none => exact .refused (Or.inl (List.getElem?_eq_none_iff.mp hrow))
  | some row =>
      dsimp only
      cases hfound : row.findIdx? fun entry => decide (entry.target = target) with
      | some i =>
          have hany := List.findIdx?_isSome.symm.trans (congrArg Option.isSome hfound)
          obtain ⟨entry, hentry, he⟩ := List.any_eq_true.mp hany
          have hold := List.mem_map.mpr ⟨entry, hentry, of_decide_eq_true he⟩
          exact .strengthened hrow hold i
      | none =>
          have hnew : target ∉ row.map CoChangeEntry.target := by
            intro hmem
            obtain ⟨entry, hentry, he⟩ := List.mem_map.mp hmem
            have hdiffers := List.findIdx?_eq_none_iff.mp hfound entry hentry
            rw [decide_eq_false_iff_not] at hdiffers
            exact hdiffers he
          dsimp only
          split
          case isTrue hfull => exact .refused (Or.inr hfull)
          case isFalse hbudget =>
            rw [Nat.not_le] at hbudget
            split
            case isTrue hrowFull =>
              have hne : row ≠ [] := by
                rintro rfl
                exact absurd hrowFull (Nat.not_succ_le_zero 99)
              obtain ⟨i, hi, hweakest⟩ := matrix.exists_weakest source hne
              rw [hweakest]
              exact .replaced hrow hnew hbudget i hi
            case isFalse hroom => exact .pushed hrow hnew hbudget (Nat.not_le.mp hroom)

omit [Zero W] in
theorem Counted.setRow (h : matrix.Counted) {total : Nat} {row changed : List (CoChangeEntry W)}
    (hrow : matrix.rows[source]? = some row) (hchanged : IsRow changed) (learned : Bool)
    (htotal : total + row.length = matrix.totalEntries + changed.length) :
    ({ matrix with
      rows := matrix.rows.set source changed
      totalEntries := total
      isLearned := learned } : CoChangeMatrix W).Counted where
  rows other hother := by
    obtain hmem | rfl := List.mem_or_eq_of_mem_set hother
    · exact h.rows other hmem
    · exact hchanged
  totalEntries := by
    have hsize : (matrix.rows.map List.length)[source]? = some row.length := by
      rw [List.getElem?_map, hrow, Option.map_some]
    have hsum := sum_set hsize changed.length
    have hcounted := h.totalEntries
    dsimp only
    rw [List.map_set]
    omega

theorem Counted.recorded (h : matrix.Counted) (hnext : matrix.Recorded source target next) :
    next.Counted := by
  have hrows {row : List (CoChangeEntry W)} (hrow : matrix.rows[source]? = some row) : IsRow row :=
    h.rows row (List.mem_of_getElem? hrow)
  cases hnext with
  | refused => exact h
  | strengthened hrow _ i =>
      exact h.setRow hrow ((hrows hrow).strengthen i) true (by rw [List.length_modify])
  | replaced hrow hnew _ i _ =>
      exact h.setRow hrow ((hrows hrow).replace i hnew) true (by rw [List.length_set])
  | pushed hrow hnew _ hroom =>
      refine h.setRow hrow ((hrows hrow).push hnew hroom) true ?_
      rw [List.length_append, List.length_singleton]
      omega

theorem Recorded.budget (hnext : matrix.Recorded source target next) :
    next.budget = matrix.budget := by
  cases hnext <;> rfl

theorem Recorded.totalEntries_le (hnext : matrix.Recorded source target next)
    (h : matrix.totalEntries ≤ matrix.budget) : next.totalEntries ≤ next.budget := by
  cases hnext with
  | refused => exact h
  | strengthened => exact h
  | replaced => exact h
  | pushed _ _ hbudget => exact hbudget

theorem mem_commitPairs {nodes : List Nat} {pair : Nat × Nat} (hpair : pair ∈ commitPairs nodes) :
    pair.1 ∈ nodes ∧ pair.2 ∈ nodes := by
  induction nodes with
  | nil => exact absurd hpair List.not_mem_nil
  | cons node nodes ih =>
      obtain hfirst | hrest := List.mem_append.mp hpair
      · obtain ⟨other, hother, hpair⟩ := List.mem_flatMap.mp hfirst
        have hother := List.mem_cons_of_mem node hother
        obtain rfl | rfl : pair = (node, other) ∨ pair = (other, node) := by simpa using hpair
        · exact ⟨List.mem_cons_self, hother⟩
        · exact ⟨hother, List.mem_cons_self⟩
      · obtain ⟨hsource, htarget⟩ := ih hrest
        exact ⟨List.mem_cons_of_mem _ hsource, List.mem_cons_of_mem _ htarget⟩

-- What the notes of nodes and the records of pairs keep, a whole commit history keeps.
theorem populate_keeps (inv : CoChangeMatrix W → Prop) (commitGroups : List (List String))
    (hnote : ∀ matrix node, inv matrix → inv (matrix.noteNodeAppearance node))
    (hrecord : ∀ matrix, ∀ group ∈ commitGroups, ∀ source ∈ commitNodes graph group,
      ∀ target ∈ commitNodes graph group, inv matrix →
        inv (matrix.recordCoChange source target).2)
    (h : inv matrix) : inv (populateFromCommitGroups graph matrix commitGroups) := by
  refine List.foldlRecOn (motive := inv) commitGroups _ h fun matrix hgroup group hmem => ?_
  refine List.foldlRecOn (motive := inv) _ _ ?_ fun matrix hpair pair hpairs => ?_
  · exact List.foldlRecOn (motive := inv) _ _ hgroup fun matrix hnode node _ =>
      hnote matrix node hnode
  · obtain ⟨hsource, htarget⟩ := mem_commitPairs hpairs
    exact hrecord matrix group hmem _ hsource _ htarget hpair

end CoChangeMatrix

end M1nd.Core

namespace M1nd.Core

-- What is done to a co-change matrix.
inductive CoChangeEvent
  | noteNodeAppearance (node : Nat)
  | recordCoChange (source target : Nat)
  | populateFromCommitGroups (commitGroups : List (List String))

inductive CoChangeOp (W T : Type)
  | bootstrap (graphOps : List (GraphOp W T)) (budget : Nat)
  | observe (graphOps : List (GraphOp W T)) (event : CoChangeEvent)

variable {W F T : Type} [Zero W] [FiniteF32 W F] [Float32 F] [CoChangeF32 W F]

def CoChangeEvent.apply (graph : Graph W T) (matrix : CoChangeMatrix W) :
    CoChangeEvent → CoChangeMatrix W
  | noteNodeAppearance node => matrix.noteNodeAppearance node
  | recordCoChange source target => (matrix.recordCoChange source target).2
  | populateFromCommitGroups commitGroups => matrix.populateFromCommitGroups graph commitGroups

namespace CoChangeOp

-- There is no matrix before the first bootstrap, and each bootstrap makes a new one.
def apply (matrix : Option (CoChangeMatrix W)) : CoChangeOp W T → Option (CoChangeMatrix W)
  | bootstrap graphOps budget => CoChangeMatrix.bootstrap (GraphOp.run graphOps) budget
  | observe graphOps event => matrix.map fun matrix => event.apply (GraphOp.run graphOps) matrix

def run (ops : List (CoChangeOp W T)) : Option (CoChangeMatrix W) :=
  ops.foldl apply none

def SeedsFit : CoChangeOp W T → Prop
  | bootstrap graphOps budget => M1nd.Core.SeedsFit (GraphOp.run graphOps) budget
  | observe _ _ => True

end CoChangeOp

namespace CoChangeMatrix

variable {graph : Graph W T} {matrix : CoChangeMatrix W}

theorem Counted.apply (h : matrix.Counted) (event : CoChangeEvent) :
    (event.apply graph matrix).Counted := by
  cases event with
  | noteNodeAppearance node => exact ⟨h.rows, h.totalEntries⟩
  | recordCoChange source target => exact h.recorded (matrix.recorded source target)
  | populateFromCommitGroups commitGroups =>
      exact populate_keeps Counted commitGroups (fun _ _ h => ⟨h.rows, h.totalEntries⟩)
        (fun matrix _ _ source _ target _ h => h.recorded (matrix.recorded source target)) h

theorem totalEntries_le_apply (h : matrix.totalEntries ≤ matrix.budget) (event : CoChangeEvent) :
    (event.apply graph matrix).totalEntries ≤ (event.apply graph matrix).budget := by
  cases event with
  | noteNodeAppearance node => exact h
  | recordCoChange source target => exact (matrix.recorded source target).totalEntries_le h
  | populateFromCommitGroups commitGroups =>
      exact populate_keeps (fun matrix => matrix.totalEntries ≤ matrix.budget) commitGroups
        (fun _ _ h => h)
        (fun matrix _ _ source _ target _ h => (matrix.recorded source target).totalEntries_le h) h

omit [Zero W] in
theorem counted_seeded (graph : Graph W T) (budget count : Nat) :
    (seeded graph budget count).Counted where
  rows row hrow := by
    obtain hseed | hempty := List.mem_append.mp hrow
    · obtain ⟨start, -, rfl⟩ := List.mem_map.mp hseed
      exact isRow_seedRow
    · obtain rfl := List.eq_of_mem_replicate hempty
      exact isRow_nil
  totalEntries := (sum_seedRows graph count).symm

end CoChangeMatrix

namespace CoChangeOp

variable {ops : List (CoChangeOp W T)} {matrix : CoChangeMatrix W}

theorem run_concat (ops : List (CoChangeOp W T)) (op : CoChangeOp W T) :
    run (ops ++ [op]) = apply (run ops) op := by
  rw [run, List.foldl_append]
  rfl

theorem run_bootstrap (graphOps : List (GraphOp W T)) (budget : Nat) :
    run [bootstrap graphOps budget] = CoChangeMatrix.bootstrap (GraphOp.run graphOps) budget :=
  rfl

-- What each bootstrap of a run makes and each event keeps holds after the run.
theorem run_keeps (inv : CoChangeMatrix W → Prop)
    (hbootstrap : ∀ graphOps budget, bootstrap graphOps budget ∈ ops → ∀ matrix : CoChangeMatrix W,
      CoChangeMatrix.bootstrap (GraphOp.run graphOps) budget = some matrix → inv matrix)
    (hevent : ∀ (graph : Graph W T) (matrix : CoChangeMatrix W) (event : CoChangeEvent),
      inv matrix → inv (event.apply graph matrix))
    (hrun : run ops = some matrix) : inv matrix := by
  induction ops using List.reverseRecOn generalizing matrix with
  | nil => exact nomatch hrun
  | append_singleton ops op ih =>
      rw [run_concat] at hrun
      cases op with
      | bootstrap graphOps budget =>
          exact hbootstrap graphOps budget (List.mem_append_right _ List.mem_cons_self) matrix hrun
      | observe graphOps event =>
          obtain ⟨before, hbefore, rfl⟩ := Option.map_eq_some_iff.mp hrun
          have hinv := ih (fun graphOps budget hmem =>
            hbootstrap graphOps budget (List.mem_append_left _ hmem)) hbefore
          exact hevent _ before event hinv

theorem counted_run (hrun : run ops = some matrix) : matrix.Counted := by
  refine run_keeps CoChangeMatrix.Counted (fun graphOps budget _ matrix hmatrix => ?_)
    (fun _ _ event h => h.apply event) hrun
  obtain ⟨count, -, -, -, heq⟩ := CoChangeMatrix.bootstrap_eq (GraphOp.listed_run graphOps) budget
  obtain rfl := Option.some.inj (heq.symm.trans hmatrix)
  exact CoChangeMatrix.counted_seeded _ budget count

-- A bootstrap keeps to its budget just when the seeds fit.
theorem bootstrap_le_iff (graphOps : List (GraphOp W T)) (budget : Nat) :
    (∀ matrix, CoChangeMatrix.bootstrap (GraphOp.run graphOps) budget = some matrix →
      matrix.totalEntries ≤ matrix.budget) ↔
      M1nd.Core.SeedsFit (GraphOp.run graphOps) budget := by
  obtain ⟨count, hcount, hbelow, hstop, heq⟩ :=
    CoChangeMatrix.bootstrap_eq (GraphOp.listed_run graphOps) budget
  rw [← CoChangeMatrix.seeded_le_iff hcount hbelow hstop]
  constructor
  · exact fun h => h _ heq
  · intro h matrix hmatrix
    obtain rfl := Option.some.inj (heq.symm.trans hmatrix)
    exact h

-- Every state of a run counts its entries and keeps to its budget, if and only if the seeds of
-- each bootstrap fit into its budget.
theorem budget_kept_iff (ops : List (CoChangeOp W T)) :
    (∀ k matrix, run (ops.take k) = some matrix →
      matrix.Counted ∧ matrix.totalEntries ≤ matrix.budget) ↔ ∀ op ∈ ops, op.SeedsFit := by
  constructor
  · intro h op hop
    obtain ⟨i, hi⟩ := List.mem_iff_getElem?.mp hop
    cases op with
    | observe graphOps event => trivial
    | bootstrap graphOps budget =>
        refine (bootstrap_le_iff graphOps budget).mp fun matrix hmatrix => ?_
        refine (h (i + 1) matrix ?_).2
        rw [List.take_add_one, hi, Option.toList_some, run_concat]
        exact hmatrix
  · intro h k matrix hrun
    refine ⟨counted_run hrun, ?_⟩
    refine run_keeps (fun matrix => matrix.totalEntries ≤ matrix.budget)
      (fun graphOps budget hop => ?_)
      (fun _ _ event hle => CoChangeMatrix.totalEntries_le_apply hle event) hrun
    exact (bootstrap_le_iff graphOps budget).mpr (h _ (List.mem_of_mem_take hop))

end CoChangeOp

section Overshoot

instance exactCoChange : CoChangeF32 Rat Rat where
  totalLe a b := decide (a ≤ b)
  ofCount count := count
  decayFactor := 19 / 20
  bootstrapWeight := 3 / 10
  minStrength := 1 / 1000
  jaccardSmoothing := 2

-- A node with edges to two others.
def GraphOp.fork : List (GraphOp Rat Nat) :=
  [.addNode "a" "a" .File [] 0 0, .addNode "b" "b" .File [] 0 0, .addNode "c" "c" .File [] 0 0,
    .addEdge 0 1 "calls" 1 .Forward false 0, .addEdge 0 2 "calls" 1 .Forward false 0]

theorem GraphOp.fork_seeds :
    (CoChangeMatrix.bootstrap (run (fork ++ [.finalize])) 1).map CoChangeMatrix.totalEntries =
      some 2 := by
  have hrebuilt : run (fork ++ [.finalize]) = (run fork).rebuildCsr := rfl
  have hsorted : placements (run fork).csr.pendingEdges = _ :=
    placements_of_sorted (by decide +kernel)
  rw [hrebuilt, Graph.rebuildCsr, hsorted]
  decide +kernel

-- The row of the first origin takes two entries out of a budget of one.
theorem CoChangeOp.budget_overshot :
    ¬ ∀ (ops : List (CoChangeOp Rat Nat)) (matrix : CoChangeMatrix Rat), run ops = some matrix →
      matrix.Counted ∧ matrix.totalEntries ≤ matrix.budget := by
  intro h
  obtain ⟨matrix, hmatrix, htotal⟩ := Option.map_eq_some_iff.mp GraphOp.fork_seeds
  have hbudget : matrix.budget = 1 := by
    obtain ⟨_, -, -, -, heq⟩ :=
      CoChangeMatrix.bootstrap_eq (GraphOp.listed_run (GraphOp.fork ++ [.finalize])) 1
    obtain rfl := Option.some.inj (heq.symm.trans hmatrix)
    rfl
  rw [← run_bootstrap] at hmatrix
  have hle := (h _ matrix hmatrix).2
  rw [htotal, hbudget] at hle
  exact absurd hle (by decide)

end Overshoot

end M1nd.Core
