import M1nd.Core.Epidemic.Theorems
import M1nd.Core.Taint

namespace M1nd.Core.TaintEngine

open M1nd.Library.Lineage
open M1nd.Library.Loops
open EpidemicEngine

section Analysis

variable {K T : Type} {graph : Graph K T} {entries : List Nat} {nodeToExt : List String} {i : Nat}

-- One of the external ids is that of the node.
def Lists (graph : Graph K T) (ids : List String) (i : Nat) : Prop :=
  ∃ id ∈ ids, graph.resolveId id = some i

theorem lists_iff (h : Names graph nodeToExt) (hi : i < graph.nodes.count) (ids : List String) :
    Lists graph ids i ↔ nodeToExt.getD i "" ∈ ids := by
  have hid (id : String) : graph.resolveId id = some i ↔ id = nodeToExt.getD i "" := by
    rw [← h.2, (h.2 _ _).mpr (h.resolveId hi), Option.some.injEq, eq_comm]
  simp only [Lists, hid, exists_eq_right]

theorem name_inj (h : Names graph nodeToExt) {i j : Nat} (hi : i < graph.nodes.count)
    (hj : j < graph.nodes.count) (hsame : nodeToExt.getD i "" = nodeToExt.getD j "") : i = j :=
  Option.some.inj ((h.resolveId hi).symm.trans (hsame ▸ h.resolveId hj))

theorem mem_seedExtIds (h : Names graph nodeToExt) (hi : i < graph.nodes.count) :
    nodeToExt.getD i "" ∈ seedExtIds nodeToExt entries ↔
      i ∈ entries ∧ graph.resolveId "" ≠ some i := by
  have hname : nodeToExt[i]? = some (nodeToExt.getD i "") := (h.2 _ _).mpr (h.resolveId hi)
  have hempty : nodeToExt.getD i "" ≠ "" ↔ graph.resolveId "" ≠ some i := by
    refine not_congr ?_
    rw [← h.2, hname, Option.some.injEq]
  rw [seedExtIds, List.mem_filter, List.mem_filterMap, ← hempty]
  have hfull : (!(nodeToExt.getD i "").isEmpty) = true ↔ nodeToExt.getD i "" ≠ "" := by simp
  rw [hfull]
  refine and_congr_left fun _ => ⟨?_, fun hmem => ⟨i, hmem, hname⟩⟩
  rintro ⟨j, hmem, hj⟩
  have hsame := (h.2 _ _).mp hj
  rw [h.resolveId hi, Option.some.injEq] at hsame
  exact hsame ▸ hmem

variable [Field K] {config : TaintConfig K}

theorem follows_forward {a b : Nat} (h : Follows graph (epidemicConfigOf config) a b) :
    ∃ j ∈ graph.csr.outRange a, graph.csr.targets[j]? = some b := by
  obtain ⟨j, ⟨-, hj, htarget⟩ | ⟨hforward, -⟩⟩ := h
  · exact ⟨j, hj, htarget⟩
  · exact absurd rfl hforward

variable [LinearOrder K] {predictions : List (EpidemicPrediction K)} {last : EpidemicState K}
  {progress : EpidemicProgress K}

-- The nodes that the epidemic result lists, at most two hundred.
def Listed (graph : Graph K T) (entries : List Nat) (config : TaintConfig K)
    (last : EpidemicState K) (i : Nat) : Prop :=
  i ∈ predictionIndices graph entries [] (epidemicConfigOf config) last.probability

-- A listed node that the taint has reached with enough probability.
def Infected (graph : Graph K T) (entries : List Nat) (config : TaintConfig K)
    (last : EpidemicState K) (i : Nat) : Prop :=
  Listed graph entries config last i ∧ config.minProbability ≤ last.probability.getD i 0

-- The prediction of a node.
structure Describes (last : EpidemicState K) (nodeToExt : List String)
    (prediction : EpidemicPrediction K) (i : Nat) : Prop where
  nodeId : prediction.nodeId = nodeToExt.getD i ""
  probability : prediction.infectionProbability = last.probability.getD i 0
  path : prediction.transmissionPath = sirReconstructPath i last.parent nodeToExt

-- What the predictions of a final state are.
structure Predicts (graph : Graph K T) (entries : List Nat) (config : TaintConfig K)
    (last : EpidemicState K) (nodeToExt : List String)
    (predictions : List (EpidemicPrediction K)) : Prop where
  names : Names graph nodeToExt
  complete : ∀ i, Listed graph entries config last i →
    ∃ prediction ∈ predictions, Describes last nodeToExt prediction i
  sound : ∀ prediction ∈ predictions,
    ∃ i, Listed graph entries config last i ∧ Describes last nodeToExt prediction i

theorem Listed.lt (h : Listed graph entries config last i) : i < graph.nodes.count :=
  (mem_predictionIndices h).1

theorem Predicts.mem_infectedNodes (h : Predicts graph entries config last nodeToExt predictions)
    (hi : i < graph.nodes.count) :
    nodeToExt.getD i "" ∈ infectedNodes config predictions ↔
      Infected graph entries config last i := by
  unfold infectedNodes
  rw [List.mem_map]
  constructor
  · rintro ⟨prediction, hmem, hname⟩
    obtain ⟨hmem, hmin⟩ := List.mem_filter.mp hmem
    obtain ⟨j, hlisted, hdescribes⟩ := h.sound prediction hmem
    obtain rfl := name_inj h.names hlisted.lt hi (hdescribes.nodeId.symm.trans hname)
    exact ⟨hlisted, hdescribes.probability ▸ of_decide_eq_true hmin⟩
  · rintro ⟨hlisted, hmin⟩
    obtain ⟨prediction, hmem, hdescribes⟩ := h.complete i hlisted
    have hkept := decide_eq_true (hdescribes.probability ▸ hmin)
    exact ⟨prediction, List.mem_filter.mpr ⟨hmem, hkept⟩, hdescribes.nodeId⟩

theorem predicts_of_resultOf (h : graph.Contagious) {epidemicResult : EpidemicResult K}
    (hresult : resultOf graph entries [] (epidemicConfigOf config) progress = some epidemicResult) :
    ∃ nodeToExt, sirBuildNodeToExt graph = some nodeToExt ∧
      Predicts graph entries config progress.state nodeToExt epidemicResult.predictions := by
  obtain ⟨nodeToExt, hbuilt, hnames⟩ := exists_nodeToExt h.registered
  obtain ⟨found, hfound, hresult⟩ := Option.bind_eq_some_iff.mp hresult
  obtain rfl := Option.some.inj (hbuilt.symm.trans hfound)
  obtain ⟨predictions, hpredictions, hresult⟩ := Option.bind_eq_some_iff.mp hresult
  obtain ⟨components, -, hresult⟩ := Option.bind_eq_some_iff.mp hresult
  obtain rfl := Option.some.inj hresult
  obtain ⟨hvalues, hitems⟩ := mem_of_mapM hpredictions
  have hread : ∀ i, Listed graph entries config progress.state i → ∀ prediction,
      predictionOf graph nodeToExt progress.state i = some prediction →
        Describes progress.state nodeToExt prediction i := by
    intro i hi prediction hprediction
    obtain ⟨other, hother, hid, hprobability, -, hpath⟩ :=
      exists_predictionOf h.registered nodeToExt progress.state hi.lt
    obtain rfl := Option.some.inj (hprediction.symm.trans hother)
    exact ⟨hid, hprobability, hpath⟩
  refine ⟨nodeToExt, hbuilt, hnames, fun i hi => ?_, fun prediction hprediction => ?_⟩
  · obtain ⟨prediction, hmem, hprediction⟩ := hitems i hi
    exact ⟨prediction, hmem, hread i hi prediction hprediction⟩
  · obtain ⟨i, hi, hread'⟩ := hvalues prediction hprediction
    exact ⟨i, hi, hread i hi prediction hread'⟩

-- What is listed has no smaller probability than what is not.
theorem listed_largest {i j : Nat} (hi : Listed graph entries config last i)
    (hj : ¬ Listed graph entries config last j) (hlt : j < graph.nodes.count) (hentry : j ∉ entries)
    (hpositive : 0 < last.probability.getD j 0) :
    last.probability.getD j 0 ≤ last.probability.getD i 0 := by
  unfold Listed predictionIndices at hi hj
  have hkept : j ∈ (List.range graph.numNodes).filter fun i =>
      i ∉ entries ∧ i ∉ ([] : List Nat) ∧ 0 < last.probability.getD i 0 :=
    List.mem_filter.mpr ⟨List.mem_range.mpr hlt,
      decide_eq_true ⟨hentry, List.not_mem_nil, hpositive⟩⟩
  generalize ((List.range graph.numNodes).filter fun i =>
    i ∉ entries ∧ i ∉ ([] : List Nat) ∧ 0 < last.probability.getD i 0) = kept at hi hj hkept
  have hsorted : (kept.mergeSort fun a b => decide (last.probability.getD b 0 ≤
      last.probability.getD a 0)).Pairwise fun a b => decide (last.probability.getD b 0 ≤
        last.probability.getD a 0) = true := by
    refine List.pairwise_mergeSort (fun a b c hab hbc => ?_) (fun a b => ?_) kept
    · exact decide_eq_true ((of_decide_eq_true hbc).trans (of_decide_eq_true hab))
    · simpa using le_total _ _
  rw [← List.mem_mergeSort] at hkept
  rw [← List.take_append_drop (epidemicConfigOf config).topK (kept.mergeSort _)] at hkept hsorted
  obtain hmem | hmem := List.mem_append.mp hkept
  · exact absurd hmem hj
  · exact of_decide_eq_true ((List.pairwise_append.mp hsorted).2.2 i hi j hmem)

-- An entry counts where it has an external id that is not empty.
def Reached (graph : Graph K T) (entries : List Nat) (config : TaintConfig K)
    (last : EpidemicState K) (i : Nat) : Prop :=
  (i ∈ entries ∧ graph.resolveId "" ≠ some i) ∨ Infected graph entries config last i

variable [Lowercase] {root ln : K → K} {boundaryExtIds : List String} {result : TaintResult K}

-- A node whose label holds a pattern of the taint type.
def IsBoundary (graph : Graph K T) (config : TaintConfig K) (i : Nat) : Prop :=
  ∃ label, nodeLabel graph i = some label ∧
    (boundaryTypeOf config.taintType label).isSome = true

-- What the check of a node says.
structure Checked (graph : Graph K T) (entries : List Nat) (config : TaintConfig K)
    (last : EpidemicState K) (nodeToExt : List String) (i : Nat) (check : BoundaryCheck K) :
    Prop where
  boundary : IsBoundary graph config i
  nodeId : check.nodeId = nodeToExt.getD i ""
  reached : check.taintReached = true ↔ Reached graph entries config last i

theorem Predicts.checked (h : Predicts graph entries config last nodeToExt predictions)
    (hi : i < graph.nodes.count) {found : Option (BoundaryCheck K)}
    (hfound : boundaryCheck config predictions graph nodeToExt (seedExtIds nodeToExt entries) i =
      some found) :
    (∀ check, found = some check → Checked graph entries config last nodeToExt i check) ∧
      (IsBoundary graph config i → found ≠ none) := by
  obtain ⟨label, hlabel, hfound⟩ := Option.bind_eq_some_iff.mp hfound
  obtain rfl := Option.some.inj hfound
  constructor
  · intro check hcheck
    obtain ⟨btype, hbtype, rfl⟩ := Option.map_eq_some_iff.mp hcheck
    refine ⟨⟨label, hlabel, Option.isSome_of_eq_some hbtype⟩, rfl, ?_⟩
    dsimp only
    rw [Bool.or_eq_true, decide_eq_true_eq, decide_eq_true_eq, mem_seedExtIds h.names hi,
      h.mem_infectedNodes hi]
    exact Iff.rfl
  · rintro ⟨label', hlabel', hbtype⟩ hnone
    obtain rfl := Option.some.inj (hlabel.symm.trans hlabel')
    rw [Option.map_eq_none_iff] at hnone
    rw [hnone] at hbtype
    cases hbtype

theorem Predicts.checks (h : Predicts graph entries config last nodeToExt predictions)
    {found : List (Option (BoundaryCheck K))}
    (hfound : (List.range graph.numNodes).mapM (boundaryCheck config predictions graph nodeToExt
      (seedExtIds nodeToExt entries)) = some found) :
    (∀ check ∈ found.filterMap id, ∃ i < graph.nodes.count,
      Checked graph entries config last nodeToExt i check) ∧
    ∀ i < graph.nodes.count, IsBoundary graph config i →
      ∃ check ∈ found.filterMap id, Checked graph entries config last nodeToExt i check := by
  obtain ⟨hvalues, hitems⟩ := mem_of_mapM hfound
  constructor
  · intro check hcheck
    obtain ⟨value, hvalue, rfl⟩ := List.mem_filterMap.mp hcheck
    obtain ⟨i, hi, hread⟩ := hvalues _ hvalue
    have hlt : i < graph.nodes.count := List.mem_range.mp hi
    exact ⟨i, hlt, (h.checked hlt hread).1 check rfl⟩
  · intro i hi hboundary
    obtain ⟨value, hvalue, hread⟩ := hitems i (List.mem_range.mpr hi)
    obtain ⟨hchecked, hsome⟩ := h.checked hi hread
    obtain ⟨check, rfl⟩ := Option.ne_none_iff_exists'.mp (hsome hboundary)
    exact ⟨check, List.mem_filterMap.mpr ⟨_, hvalue, rfl⟩, hchecked check rfl⟩

-- The names of the boundaries are among the ids.
def NamesBoundaries (graph : Graph K T) (config : TaintConfig K) (nodeToExt : List String)
    (boundaryExtIds : List String) : Prop :=
  ∀ i < graph.nodes.count, nodeToExt.getD i "" ∈ boundaryExtIds ↔ IsBoundary graph config i

-- An analysis that has a result has gone through both engines.
theorem analyze_eq_ok (h : analyze root ln graph entries config = some (.ok result)) :
    ∃ flowResult progress epidemicResult,
      iterate root graph (epidemicConfigOf config) (min config.epidemicIterations MAX_ITERATIONS) 0
          (startProgress graph entries []) = some (.ok progress) ∧
        resultOf graph entries [] (epidemicConfigOf config) progress = some epidemicResult ∧
        verdictsOf ln graph entries config flowResult epidemicResult = some result := by
  by_cases hentries : entries = []
  · rw [analyze, if_pos hentries] at h
    cases h
  rw [analyze, if_neg hentries] at h
  obtain ⟨flow, hflow, h⟩ := Option.bind_eq_some_iff.mp h
  have hnodes : graph.numNodes ≠ 0 := by
    intro hempty
    rw [FlowEngine.simulate, if_pos (.inl hempty)] at hflow
    obtain rfl := Option.some.inj hflow
    cases h
  cases flow with
  | error error => cases h
  | ok flowResult =>
      obtain ⟨epidemic, hepidemic, h⟩ := Option.bind_eq_some_iff.mp h
      cases epidemic with
      | error error => cases h
      | ok epidemicResult =>
          obtain ⟨other, hother, h⟩ := Option.map_eq_some_iff.mp h
          obtain rfl := Except.ok.inj h
          obtain ⟨progress, hiterate, hresult⟩ := simulate_eq_ok hnodes hepidemic
          exact ⟨flowResult, progress, epidemicResult, hiterate, hresult, hother⟩

-- A leak, with the nodes of its path.
structure Leaks (graph : Graph K T) (entries : List Nat)
    (config : TaintConfig K) (last : EpidemicState K) (i : Nat) (leak : TaintLeak K)
    (path : List Nat) : Prop where
  infected : Infected graph entries config last i
  recorded : path = (climb last.parent last.parent.length i).reverse
  names : leak.path.map graph.resolveId = path.map some
  chain : path.IsChain fun a b => ∃ j ∈ graph.csr.outRange a, graph.csr.targets[j]? = some b
  entry : ∃ entry ∈ entries, path.head? = some entry ∧ graph.resolveId leak.entryNode = some entry
  exit : path.getLast? = some i ∧ graph.resolveId leak.exitNode = some i
  clear : ∀ node ∈ path, ¬ IsBoundary graph config node

-- The prediction of a node is a leak where nothing on the way to it is a boundary.
theorem leakOf_spec (hnames : Names graph nodeToExt)
    (hids : NamesBoundaries graph config nodeToExt boundaryExtIds)
    (hholds : last.renew.Holds graph.nodes.count entries [] (Follows graph (epidemicConfigOf config)))
    (hlisted : Listed graph entries config last i) {prediction : EpidemicPrediction K}
    (hdescribes : Describes last nodeToExt prediction i) :
    (∀ leak, leakOf config boundaryExtIds prediction = some leak →
      ∃ path, Leaks graph entries config last i leak path) ∧
    (Infected graph entries config last i →
      (∀ node ∈ climb last.parent last.parent.length i, ¬ IsBoundary graph config node) →
        leakOf config boundaryExtIds prediction ≠ none) := by
  obtain ⟨hlt, -, -, hpositive⟩ := mem_predictionIndices hlisted
  obtain ⟨g, line, -, hline, hclimb, hinside⟩ := exists_line hholds List.not_mem_nil hpositive
  have hnamed : prediction.transmissionPath = line.map fun node => nodeToExt.getD node "" := by
    rw [hdescribes.path, sirReconstructPath, hclimb, List.map_reverse, List.reverse_reverse]
  have hresolved : prediction.transmissionPath.map graph.resolveId = line.map some := by
    rw [hnamed]
    exact map_resolveId hnames hinside
  obtain ⟨first, hfirst, hentry, -⟩ := hline.head
  have hmem : i ∈ line := List.mem_of_getLast? hline.last
  have hany : prediction.transmissionPath.any (fun node => node ∈ boundaryExtIds) = true ↔
      ∃ node ∈ line, IsBoundary graph config node := by
    rw [hnamed, List.any_map, List.any_eq_true]
    refine exists_congr fun node => and_congr_right fun hnode => ?_
    rw [Function.comp_apply, decide_eq_true_eq, hids node (hinside node hnode)]
  have hfull : prediction.transmissionPath.isEmpty = false := by
    rw [hnamed, List.isEmpty_eq_false_iff, Ne, List.map_eq_nil_iff]
    exact List.ne_nil_of_mem hmem
  have hleak : ∀ leak, leakOf config boundaryExtIds prediction = some leak ↔
      config.minProbability ≤ last.probability.getD i 0 ∧ ¬ IsBoundary graph config i ∧
        (∀ node ∈ line, ¬ IsBoundary graph config node) ∧
          ⟨prediction.transmissionPath.head?.getD "", nodeToExt.getD i "",
            last.probability.getD i 0, prediction.transmissionPath⟩ = leak := by
    intro leak
    unfold leakOf
    rw [hdescribes.probability, hdescribes.nodeId, hfull]
    simp only [Option.ite_none_left_eq_some, Option.ite_none_right_eq_some, Option.some.injEq,
      not_lt, hids i hlt, Bool.not_false, Bool.and_true, Bool.not_eq_true', Bool.eq_false_iff, Ne,
      hany, not_exists, not_and]
  constructor
  · intro leak hfound
    obtain ⟨hmin, -, hclear, rfl⟩ := (hleak leak).mp hfound
    refine ⟨line, ⟨hlisted, hmin⟩, ?_, hresolved,
      hline.chain.imp fun a b hedge => follows_forward hedge, ⟨first, hentry, hfirst, ?_⟩,
      ⟨hline.last, hnames.resolveId hlt⟩, hclear⟩
    · rw [hclimb, List.reverse_reverse]
    · rw [hnamed, List.head?_map, hfirst]
      exact hnames.resolveId (hinside first (List.mem_of_head? hfirst))
  · rintro ⟨-, hmin⟩ hclear
    have hclear : ∀ node ∈ line, ¬ IsBoundary graph config node :=
      fun node hnode => hclear node (hclimb ▸ List.mem_reverse.mpr hnode)
    exact Option.ne_none_iff_exists'.mpr ⟨_, (hleak _).mpr ⟨hmin, hclear i hmem, hclear, rfl⟩⟩

-- What an analysis says of the final state of the epidemic run.
structure Verdicts (graph : Graph K T) (entries : List Nat) (config : TaintConfig K)
    (last : EpidemicState K) (result : TaintResult K) : Prop where
  few : (List.range graph.nodes.count).countP (fun i =>
      i ∉ entries ∧ i ∉ ([] : List Nat) ∧ 0 < last.probability.getD i 0) ≤ 200 →
    ∀ i, Listed graph entries config last i ↔
      i < graph.nodes.count ∧ i ∉ entries ∧ 0 < last.probability.getD i 0
  largest : ∀ i j, Listed graph entries config last i → ¬ Listed graph entries config last j →
    j < graph.nodes.count → j ∉ entries →
      last.probability.getD j 0 ≤ last.probability.getD i 0
  hits : ∀ i, Lists graph (result.boundaryHits.map BoundaryCheck.nodeId) i ↔
    i < graph.nodes.count ∧ IsBoundary graph config i ∧ Reached graph entries config last i
  misses : ∀ i, Lists graph (result.boundaryMisses.map BoundaryCheck.nodeId) i ↔
    i < graph.nodes.count ∧ IsBoundary graph config i ∧ ¬ Reached graph entries config last i
  paths : ∀ leak ∈ result.leaks, ∃ i path, Leaks graph entries config last i leak path
  leaks : ∀ i, Lists graph (result.leaks.map TaintLeak.exitNode) i ↔
    Infected graph entries config last i ∧
      ∀ node ∈ climb last.parent last.parent.length i, ¬ IsBoundary graph config node

theorem verdicts_of_verdictsOf (h : graph.Contagious) {flowResult : FlowSimulationResult K}
    {epidemicResult : EpidemicResult K}
    (hholds : progress.state.renew.Holds graph.nodes.count entries []
      (Follows graph (epidemicConfigOf config)))
    (hepidemic : resultOf graph entries [] (epidemicConfigOf config) progress = some epidemicResult)
    (hresult : verdictsOf ln graph entries config flowResult epidemicResult = some result) :
    Verdicts graph entries config progress.state result := by
  obtain ⟨nodeToExt, hbuilt, hpredicts⟩ := predicts_of_resultOf h hepidemic
  obtain ⟨found, hfound, hresult⟩ := Option.bind_eq_some_iff.mp hresult
  obtain rfl := Option.some.inj (hbuilt.symm.trans hfound)
  obtain ⟨checks, hchecks, hresult⟩ := Option.bind_eq_some_iff.mp hresult
  obtain rfl := Option.some.inj hresult
  obtain ⟨hsound, hcomplete⟩ := hpredicts.checks hchecks
  generalize checks.filterMap id = checks at hsound hcomplete
  have hnames := hpredicts.names
  -- The checks of either kind name the boundaries of that kind.
  have hlists : ∀ (reached : Bool) (i : Nat), Lists graph
      ((checks.filter fun check => check.taintReached = reached).map BoundaryCheck.nodeId) i ↔
        i < graph.nodes.count ∧ IsBoundary graph config i ∧
          (reached = true ↔ Reached graph entries config progress.state i) := by
    intro reached i
    constructor
    · rintro ⟨id, hid, hresolved⟩
      obtain ⟨check, hcheck, rfl⟩ := List.mem_map.mp hid
      obtain ⟨hcheck, hreached⟩ := List.mem_filter.mp hcheck
      obtain ⟨j, hj, hchecked⟩ := hsound check hcheck
      rw [hchecked.nodeId, hnames.resolveId hj, Option.some.injEq] at hresolved
      subst hresolved
      exact ⟨hj, hchecked.boundary, of_decide_eq_true hreached ▸ hchecked.reached⟩
    · rintro ⟨hi, hboundary, hreached⟩
      obtain ⟨check, hcheck, hchecked⟩ := hcomplete i hi hboundary
      have hsame : check.taintReached = reached :=
        Bool.eq_iff_iff.mpr (hchecked.reached.trans hreached.symm)
      refine ⟨check.nodeId, List.mem_map_of_mem (List.mem_filter.mpr
        ⟨hcheck, decide_eq_true hsame⟩), ?_⟩
      rw [hchecked.nodeId]
      exact hnames.resolveId hi
  have hhits := hlists true
  have hmisses := hlists false
  simp only [Bool.decide_eq_true, Bool.decide_eq_false, true_iff, Bool.false_eq_true, false_iff]
    at hhits hmisses
  have hids : NamesBoundaries graph config nodeToExt
      ((checks.filter BoundaryCheck.taintReached ++
        checks.filter fun check => !check.taintReached).map BoundaryCheck.nodeId) := by
    intro i hi
    rw [List.map_append, List.mem_append, ← lists_iff hnames hi, ← lists_iff hnames hi, hhits,
      hmisses, ← and_or_left, ← and_or_left, and_iff_right hi, and_iff_left (em _)]
  generalize (checks.filter BoundaryCheck.taintReached ++
    checks.filter fun check => !check.taintReached).map BoundaryCheck.nodeId = boundaryExtIds at hids ⊢
  have hleaks : ∀ leak, leak ∈ leaksOf config epidemicResult.predictions boundaryExtIds ↔
      ∃ prediction ∈ epidemicResult.predictions,
        leakOf config boundaryExtIds prediction = some leak := by
    intro leak
    rw [leaksOf, List.mem_mergeSort, List.mem_filterMap]
  constructor
  case few =>
    intro hfew i
    rw [Listed, mem_predictionIndices_of_countP hfew]
    simp only [List.not_mem_nil, not_false_eq_true, true_and]
  case largest =>
    intro i j hi hj hlt hentry
    by_cases hpositive : 0 < progress.state.probability.getD j 0
    · exact listed_largest hi hj hlt hentry hpositive
    · exact (not_lt.mp hpositive).trans (mem_predictionIndices hi).2.2.2.le
  case hits => exact hhits
  case misses => exact hmisses
  case paths =>
    intro leak hleak
    obtain ⟨prediction, hprediction, hleak⟩ := (hleaks leak).mp hleak
    obtain ⟨i, hlisted, hdescribes⟩ := hpredicts.sound prediction hprediction
    obtain ⟨hspec, -⟩ := leakOf_spec hnames hids hholds hlisted hdescribes
    obtain ⟨path, hpath⟩ := hspec leak hleak
    exact ⟨i, path, hpath⟩
  case leaks =>
    intro i
    constructor
    · rintro ⟨id, hexit, hresolved⟩
      obtain ⟨leak, hleak, rfl⟩ := List.mem_map.mp hexit
      obtain ⟨prediction, hprediction, hleak⟩ := (hleaks leak).mp hleak
      obtain ⟨j, hlisted, hdescribes⟩ := hpredicts.sound prediction hprediction
      obtain ⟨hspec, -⟩ := leakOf_spec hnames hids hholds hlisted hdescribes
      obtain ⟨path, hleaks⟩ := hspec leak hleak
      obtain rfl := Option.some.inj (hleaks.exit.2.symm.trans hresolved)
      refine ⟨hleaks.infected, fun node hnode => hleaks.clear node ?_⟩
      rw [hleaks.recorded]
      exact List.mem_reverse.mpr hnode
    · rintro ⟨hinfected, hclear⟩
      obtain ⟨prediction, hprediction, hdescribes⟩ := hpredicts.complete i hinfected.1
      obtain ⟨hspec, hsome⟩ := leakOf_spec hnames hids hholds hinfected.1 hdescribes
      obtain ⟨leak, hleak⟩ := Option.ne_none_iff_exists'.mp (hsome hinfected hclear)
      obtain ⟨path, hpath⟩ := hspec leak hleak
      exact ⟨leak.exitNode, List.mem_map_of_mem ((hleaks leak).mpr ⟨prediction, hprediction, hleak⟩),
        hpath.exit.2⟩

end Analysis

-- An entry that leads to a node and nowhere else.
def leaky : Graph Rat Nat :=
  GraphEdit.run [.operate (.addNode "e" "e" .File [] 0 0), .operate (.addNode "x" "x" .File [] 0 0),
    .operate (.addEdge 0 1 "imports" 1 .Forward false 0), .operate .finalize]

theorem analyze_leaky :
    let := asciiLowercase
    (analyze Rat.sqrt (fun x => x - 1) leaky [0] ⟨15, 2, 2, 0.1, .UserInput⟩).map Except.toBool =
      some true := by
  decide +kernel

end M1nd.Core.TaintEngine
