import M1nd.Core.Flow
import M1nd.Core.Snapshot.Coherent

namespace M1nd.Core

open M1nd.Library.Loops

variable {K T : Type} [Field K] [LinearOrder K] {graph : Graph K T} {config : FlowConfig K}

-- What a simulation reads of a graph is there.
structure Graph.Navigable (graph : Graph K T) : Prop where
  registered : graph.Registered
  targets : ∀ node, ∀ j ∈ graph.csr.outRange node, ∃ target, graph.csr.targets[j]? = some target
  inhibitory : ∀ node, ∀ j ∈ graph.csr.outRange node, ∃ mark, graph.csr.inhibitory[j]? = some mark
  weights : ∀ node, ∀ j ∈ graph.csr.outRange node,
    ∃ weight, graph.csr.weights[EdgeIdx.new j]? = some weight

omit [LinearOrder K] in
theorem GraphEdit.navigable_run (edits : List (GraphEdit K T))
    (hfinal : (GraphEdit.run edits).finalized = true) : (GraphEdit.run edits).Navigable := by
  let := exactValues K
  have hcoherent := GraphEdit.coherent_run K edits
  have hparallel := (hcoherent.sound.finalized hfinal).1
  have hslot {node j : Nat} (hj : j ∈ (GraphEdit.run edits).csr.outRange node) :
      j < (GraphEdit.run edits).csr.targets.length := hcoherent.tabled.listed.mem_outRange_lt hj
  refine ⟨hcoherent.registered, fun node j hj => ⟨_, List.getElem?_eq_getElem (hslot hj)⟩,
    fun node j hj => ⟨_, List.getElem?_eq_getElem ?_⟩,
    fun node j hj => ⟨_, List.getElem?_eq_getElem ?_⟩⟩
  · rw [hparallel.csr.2.1]
    exact hslot hj
  · rw [hparallel.csr.1]
    exact (Nat.mod_le j _).trans_lt (hslot hj)

-- A search for the first hit, where no test panics.
theorem exists_findSomeM {α β : Type} {f : α → Option (Option β)} {items : List α}
    (h : ∀ item ∈ items, ∃ value, f item = some value) :
    ∃ found, items.findSomeM? f = some found ∧
      (found.isSome ↔ ∃ item ∈ items, ∃ value, f item = some (some value)) := by
  induction items with
  | nil => exact ⟨none, rfl, by simp⟩
  | cons item items ih =>
      obtain ⟨value, hvalue⟩ := h item List.mem_cons_self
      obtain ⟨found, hfound, hiff⟩ := ih fun other hother => h other (List.mem_cons_of_mem _ hother)
      cases value with
      | none =>
          refine ⟨found, by rw [List.findSomeM?, hvalue]; exact hfound, hiff.trans ?_⟩
          constructor
          · rintro ⟨other, hother, hsome⟩
            exact ⟨other, List.mem_cons_of_mem _ hother, hsome⟩
          · rintro ⟨other, hother, value, hsome⟩
            obtain rfl | hother := List.mem_cons.mp hother
            · exact absurd (Option.some.inj (hvalue.symm.trans hsome)) (by simp)
            · exact ⟨other, hother, value, hsome⟩
      | some value =>
          refine ⟨some value, by rw [List.findSomeM?, hvalue]; rfl, ?_⟩
          exact ⟨fun _ => ⟨item, List.mem_cons_self, value, hvalue⟩, fun _ => rfl⟩

section Texts

omit [Field K] [LinearOrder K] in
theorem exists_flowNodeLabel (h : graph.Registered) (node : Nat) :
    ∃ label, flowNodeLabel graph node = some label := by
  rw [flowNodeLabel]
  split
  · rename_i hnode
    obtain ⟨label, hlabel⟩ := h.exists_label hnode
    obtain ⟨handle, hhandle, hresolve⟩ := Option.bind_eq_some_iff.mp hlabel
    exact ⟨label, by rw [hhandle]; exact hresolve⟩
  · exact ⟨_, rfl⟩

-- The label of a node.
def labelAt (graph : Graph K T) (node : Nat) : String :=
  (flowNodeLabel graph node).getD ""

omit [Field K] [LinearOrder K] in
theorem flowNodeLabel_eq (h : graph.Registered) (node : Nat) :
    flowNodeLabel graph node = some (labelAt graph node) := by
  obtain ⟨label, hlabel⟩ := exists_flowNodeLabel h node
  rw [labelAt, hlabel, Option.getD_some]

omit [Field K] [LinearOrder K] in
theorem exists_flowNodeText (h : graph.Registered) (node : Nat) :
    ∃ text, flowNodeText graph node = some text := by
  rw [flowNodeText]
  split
  · exact ⟨_, rfl⟩
  · rename_i hnode
    obtain ⟨label, hlabel⟩ := h.exists_label (not_le.mp hnode)
    obtain ⟨handle, hhandle, hresolve⟩ := Option.bind_eq_some_iff.mp hlabel
    have hprovenance : node < graph.nodes.provenance.length := by
      rw [h.provenance]
      exact not_le.mp hnode
    rw [hhandle, List.getElem?_eq_getElem hprovenance]
    simp only [Option.bind_eq_bind, Option.bind_some, hresolve]
    have hspelled := h.spelled _ (List.getElem_mem hprovenance)
    cases hexcerpt : graph.nodes.provenance[node].excerpt with
    | none => exact ⟨_, rfl⟩
    | some e =>
        obtain ⟨excerpt, hresolved, -⟩ := hspelled e (.inr (.inl hexcerpt))
        exact ⟨label ++ " " ++ excerpt, by simp only [hresolved, Option.bind_some]⟩

variable [Lowercase]

omit [Field K] [LinearOrder K] [Lowercase] in
theorem exists_findInTargets (h : graph.Navigable) (node : Nat) (test : String → Option String) :
    ∃ found, findInTargets graph node test = some found := by
  rw [findInTargets]
  split
  · have hread : ∀ j ∈ graph.csr.outRange node, ∃ value, (do
        let target ← graph.csr.targets[j]?
        (flowNodeText graph target).map test) = some value := by
      intro j hj
      obtain ⟨target, htarget⟩ := h.targets node j hj
      obtain ⟨targetText, htargetText⟩ := exists_flowNodeText h.registered target
      exact ⟨test targetText, by rw [htarget, Option.bind_eq_bind, Option.bind_some, htargetText]; rfl⟩
    obtain ⟨found, hfound, -⟩ := exists_findSomeM hread
    exact ⟨found, hfound⟩
  · exact ⟨none, rfl⟩

omit [Field K] [LinearOrder K] in
theorem exists_flowIsValve (h : graph.Navigable) (config : FlowConfig K) (node : Nat) :
    ∃ lock, flowIsValve graph config node = some lock := by
  obtain ⟨text, htext⟩ := exists_flowNodeText h.registered node
  obtain ⟨found, hfound⟩ :=
    exists_findInTargets h node (flowMatchesAnyPattern · config.lockPatterns)
  rw [flowIsValve, htext]
  simp only [Option.bind_eq_bind, Option.bind_some, hfound]
  cases flowMatchesAnyPattern text config.lockPatterns with
  | some pat => exact ⟨_, rfl⟩
  | none => cases found <;> exact ⟨_, rfl⟩

omit [Field K] [LinearOrder K] in
theorem exists_flowIsReadOnly (h : graph.Navigable) (config : FlowConfig K) (node : Nat) :
    ∃ readOnly, flowIsReadOnly graph config node = some readOnly := by
  obtain ⟨text, htext⟩ := exists_flowNodeText h.registered node
  obtain ⟨writer, hwriter⟩ := exists_findInTargets h node fun targetText =>
    writerWords.find? (textContains (Lowercase.toLowercase targetText))
  rw [flowIsReadOnly, htext]
  simp only [Option.bind_eq_bind, Option.bind_some, hwriter]
  split <;> exact ⟨_, rfl⟩

-- What makes a node a valve, if it is one.
def valveAt (graph : Graph K T) (config : FlowConfig K) (node : Nat) : Option String :=
  (flowIsValve graph config node).getD none

omit [Field K] [LinearOrder K] in
theorem flowIsValve_eq (h : graph.Navigable) (config : FlowConfig K) (node : Nat) :
    flowIsValve graph config node = some (valveAt graph config node) := by
  obtain ⟨lock, hlock⟩ := exists_flowIsValve h config node
  rw [valveAt, hlock, Option.getD_some]

end Texts

end M1nd.Core
