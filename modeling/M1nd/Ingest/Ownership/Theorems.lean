import M1nd.Ingest.Ownership.Digest

namespace M1nd.Ingest

open M1nd.Control (CollisionFree Sha256)
open M1nd.Core
open M1nd.Library.Json (Bytes write_injective)
open M1nd.Library.Runs

variable {W T : Type} [Zero W] [Zero T] [ToBits W] [ToBits T] {edits edits' : List (GraphEdit W T)}

-- The bytes that the projection digest of a graph is taken of.
def projectionBytes (graph : Graph W T) : Bytes :=
  (graphContent graph (nodeExternalIds graph)).toValue.write

theorem sourceProjectionDigest_run [Sha256] (hfinal : (GraphEdit.run edits).finalized = true)
    (hvalid : ValidIds (GraphEdit.run edits)) :
    sourceProjectionDigest (GraphEdit.run edits) =
      .ok (sha256Bytes (projectionBytes (GraphEdit.run edits))) := by
  have hshape : (graphSlotAudit (GraphEdit.run edits)).csrShapeValid = true :=
    csrShapeValid_run hfinal
  rw [sourceProjectionDigest, hshape, Bool.not_true, if_neg Bool.false_ne_true,
    nodeIds_graphSlotAudit (whole_run edits).registered hvalid]
  rfl

section Content

variable (hfinal : (GraphEdit.run edits).finalized = true)
  (hfinal' : (GraphEdit.run edits').finalized = true) (hvalid : ValidIds (GraphEdit.run edits))
  (hvalid' : ValidIds (GraphEdit.run edits'))

include hfinal hfinal' hvalid hvalid'

-- The bytes tell the nodes, and what is read of the slots.
theorem projectionBytes_eq_iff :
    projectionBytes (GraphEdit.run edits) = projectionBytes (GraphEdit.run edits') ↔
      nodeContents (GraphEdit.run edits) = nodeContents (GraphEdit.run edits') ∧
        contents (GraphEdit.run edits) (GraphEdit.run edits).slots =
          contents (GraphEdit.run edits') (GraphEdit.run edits').slots := by
  have hwhole := whole_run edits
  have hwhole' := whole_run edits'
  rw [projectionBytes, projectionBytes, write_injective.eq_iff,
    GraphContentV1.toValue_injective.eq_iff, graphContent, graphContent, GraphContentV1.mk.injEq,
    graphContentNodes_eq_iff hwhole.registered hwhole'.registered hvalid hvalid',
    graphContentEdges_eq_iff hwhole hwhole' hfinal hfinal' hvalid hvalid']
  exact and_iff_right rfl

theorem sourceProjectionDigest_eq_iff [Sha256]
    (hfree : CollisionFree {projectionBytes (GraphEdit.run edits),
      projectionBytes (GraphEdit.run edits')}) :
    sourceProjectionDigest (GraphEdit.run edits) = sourceProjectionDigest (GraphEdit.run edits') ↔
      projectionBytes (GraphEdit.run edits) = projectionBytes (GraphEdit.run edits') := by
  rw [sourceProjectionDigest_run hfinal hvalid, sourceProjectionDigest_run hfinal' hvalid',
    Except.ok.injEq]
  exact ⟨sha256Bytes_inj hfree, fun h => congrArg sha256Bytes h⟩

variable [DecidableEq W]
  (hsteady : MetAlong ContentLedger.apply ContentLedger.Steady ContentLedger.new edits)
  (hsteady' : MetAlong ContentLedger.apply ContentLedger.Steady ContentLedger.new edits')

include hsteady hsteady'

-- In runs of steady steps the bytes tell the edges that were added.
theorem projectionBytes_eq_iff_added :
    projectionBytes (GraphEdit.run edits) = projectionBytes (GraphEdit.run edits') ↔
      nodeContents (GraphEdit.run edits) = nodeContents (GraphEdit.run edits') ∧
        (ContentLedger.run edits).edges = (ContentLedger.run edits').edges := by
  rw [projectionBytes_eq_iff hfinal hfinal' hvalid hvalid', ContentLedger.contents_run hsteady hfinal,
    ContentLedger.contents_run hsteady' hfinal', bind_read_injective.eq_iff]

end Content

instance natBits : ToBits Nat where
  toBits n := n
  injective := fun _ _ h => h

theorem validIds_of_ids {edits : List (GraphEdit Nat Nat)} {ids : List String}
    (hids : nodeExternalIds (GraphEdit.run edits) = ids)
    (hvalid : ∀ s ∈ ids, isValidExternalId s = true) : ValidIds (GraphEdit.run edits) := by
  intro s i hi
  have hs := ((nodeExternalIds_spec (whole_run edits).registered).2 s i).mpr hi
  rw [hids] at hs
  exact hvalid s (List.mem_of_getElem? hs)

-- An edge that learns between two finalizes.
def learnedEdits : List (GraphEdit Nat Nat) :=
  [.operate (.addNode "a" "A" .File [] 1 0), .operate (.addNode "b" "B" .File [] 2 0),
    .operate (.addEdge 0 1 "calls" 3 .Bidirectional false 0), .operate .finalize,
    .operate (.storeWeight 0 5), .operate (.addNode "c" "C" .File [] 4 0), .operate .finalize]

-- The same nodes and the same edge in another order, with one finalize.
def plainEdits : List (GraphEdit Nat Nat) :=
  [.operate (.addNode "c" "C" .File [] 4 0), .operate (.addNode "b" "B" .File [] 2 0),
    .operate (.addNode "a" "A" .File [] 1 0),
    .operate (.addEdge 1 2 "calls" 3 .Bidirectional false 0), .operate .finalize]

-- A node that calls itself, and another node, with one finalize at the end.
def loopEdits₁ : List (GraphEdit Nat Nat) :=
  [.operate (.addNode "a" "A" .File [] 1 0),
    .operate (.addEdge 0 0 "calls" 3 .Bidirectional false 0),
    .operate (.addNode "b" "B" .File [] 2 0), .operate .finalize]

-- The same steps with a finalize in between.
def loopedEdits : List (GraphEdit Nat Nat) :=
  [.operate (.addNode "a" "A" .File [] 1 0),
    .operate (.addEdge 0 0 "calls" 3 .Bidirectional false 0), .operate .finalize,
    .operate (.addNode "b" "B" .File [] 2 0)]

def loopEdits₂ : List (GraphEdit Nat Nat) :=
  loopedEdits ++ [.operate .finalize]

theorem card_contents_loop₁ :
    Multiset.card (contents (GraphEdit.run loopEdits₁) (GraphEdit.run loopEdits₁).slots) = 2 := by
  decide +kernel

-- The second finalize harvests the two slots of the edge and stages two for each.
theorem card_contents_loop₂ :
    Multiset.card (contents (GraphEdit.run loopEdits₂) (GraphEdit.run loopEdits₂).slots) = 4 := by
  have hfinal : (GraphEdit.run loopedEdits).finalized = false := by decide +kernel
  have hedges : 0 < (GraphEdit.run loopedEdits).csr.numEdges := by decide +kernel
  have hslots : (GraphEdit.run loopEdits₂).slots.Perm
      ((GraphEdit.run loopedEdits).rehydrateCsrIntoPending.stagedSlots 0) :=
    slots_finalize_perm (whole_run loopedEdits) hfinal hedges
  rw [contents_perm hslots, contents, Multiset.coe_card, List.length_map]
  decide +kernel

@[reducible]
def pairSha256 (bytes : Bytes) : Sha256 where
  finalize message := if message = bytes then Vector.replicate 32 0 else Vector.replicate 32 1

theorem pairSha256_collisionFree (bytes bytes' : Bytes) :
    @CollisionFree (pairSha256 bytes) {bytes, bytes'} := by
  have hne : Vector.replicate 32 (0 : UInt8) ≠ Vector.replicate 32 1 := by decide
  intro message hmessage message' hmessage' h
  change (if message = bytes then _ else _) = (if message' = bytes then _ else _) at h
  by_cases hm : message = bytes
  · by_cases hm' : message' = bytes
    · rw [hm, hm']
    · rw [if_pos hm, if_neg hm'] at h
      exact absurd h hne
  · by_cases hm' : message' = bytes
    · rw [if_neg hm, if_pos hm'] at h
      exact absurd h.symm hne
    · rw [hmessage.resolve_left hm, hmessage'.resolve_left hm']

end M1nd.Ingest
