import M1nd.Library.Framing
import M1nd.Library.Loops
import M1nd.Mcp.CheckpointStore.Validation

namespace M1nd.Mcp.Checkpoint

open M1nd.Control
open M1nd.Library.Checks
open M1nd.Library.Framing
open M1nd.Library.Loops

section Components

-- The names between the separators of a path that stand for something.
def segments (path : String) : List (List Char) :=
  (path.toList.splitOn '/').filter fun name => name ≠ [] ∧ name ≠ ['.']

-- One spelling for all paths with the same names: each of them with a separator behind it.
def spelling (path : String) : List Char :=
  frames '/' (segments path)

variable {path : String} {names : List (List Char)}

theorem laterComponent_eq {name : List Char} (h : ∀ component ∈ laterComponent name,
    component.isNormal = true) :
    laterComponent name = if name ≠ [] ∧ name ≠ ['.'] then some (.Normal name) else none := by
  by_cases hempty : name = []
  · rw [hempty]
    rfl
  by_cases hdot : name = ['.']
  · rw [hdot]
    rfl
  rw [if_pos ⟨hempty, hdot⟩]
  unfold laterComponent at h ⊢
  split at h <;> simp_all [Component.isNormal]

theorem filterMap_laterComponent
    (h : ∀ component ∈ names.filterMap laterComponent, component.isNormal = true) :
    names.filterMap laterComponent =
      (names.filter fun name => name ≠ [] ∧ name ≠ ['.']).map Component.Normal := by
  rw [← List.filterMap_eq_map, ← List.filterMap_eq_filter, List.filterMap_filterMap]
  refine List.filterMap_congr fun name hname => ?_
  rw [laterComponent_eq fun component hcomponent =>
    h component (List.mem_filterMap.mpr ⟨name, hname, hcomponent⟩)]
  by_cases hkept : name ≠ [] ∧ name ≠ ['.']
  · rw [if_pos hkept]
    simp [Option.guard, hkept]
  · rw [if_neg hkept]
    simp only [Option.guard, hkept, decide_false, Bool.false_eq_true, ↓reduceIte, Option.bind_none]

theorem validateRelativeLogicalPath_components (h : validateRelativeLogicalPath path = .ok ()) :
    components path = (segments path).map Component.Normal ∧ segments path ≠ [] := by
  rw [validateRelativeLogicalPath, bind_unit_eq_ok, rejectIf_eq_ok, rejectIf_eq_ok, not_or, not_or,
    not_not] at h
  obtain ⟨⟨hsome, -⟩, hrelative, hnormal⟩ := h
  rw [List.all_eq_true] at hnormal
  have hpath : path.toList ≠ [] := by
    intro hempty
    exact hsome (String.toList_injective hempty)
  cases hsplit : path.toList.splitOn '/' with
  | nil => exact absurd hsplit (List.splitOn_ne_nil _ _)
  | cons first rest =>
      have hfirst : first ≠ [] := by
        rintro rfl
        rw [components, hsplit] at hrelative
        exact hrelative rfl
      have hplain : first ≠ ['.'] := by
        rintro rfl
        rw [components, hsplit] at hnormal
        exact absurd (hnormal .CurDir (.head _)) (by decide)
      have hcomponents : components path = (first :: rest).filterMap laterComponent := by
        unfold components
        rw [hsplit]
        split
        · rename_i heq
          exact nomatch heq
        · rename_i heq
          exact absurd (List.cons.inj heq).1 hfirst
        · rename_i heq
          exact absurd (List.cons.inj heq).1 hplain
        · rename_i heq
          rw [heq]
      rw [hcomponents] at hnormal ⊢
      rw [filterMap_laterComponent hnormal, segments, hsplit]
      refine ⟨rfl, List.ne_nil_of_mem (a := first) ?_⟩
      exact List.mem_filter.mpr ⟨List.mem_cons_self, by simp [hfirst, hplain]⟩

theorem slash_not_mem_segments : ∀ name ∈ segments path, '/' ∉ name := by
  obtain ⟨lines, tail, hpath, hlines, htail⟩ := exists_frames '/' path.toList
  intro name hname
  rw [segments, hpath, splitOn_frames_append hlines htail] at hname
  obtain hline | hlast := List.mem_append.mp (List.mem_of_mem_filter hname)
  · exact hlines name hline
  · rw [List.mem_singleton.mp hlast]
    exact htail

theorem spelling_prefix_iff {other : String} :
    spelling path <+: spelling other ↔ segments path <+: segments other :=
  frames_prefix_iff slash_not_mem_segments slash_not_mem_segments

end Components

section Manifests

variable {manifest : CheckpointManifestV1} {file : CheckpointFileV1}

-- The files of a manifest at their places below the directory: no place is that of two files, and
-- none is a directory on the way to another.
structure OwnPlaces (manifest : CheckpointManifestV1) : Prop where
  below : ∀ file ∈ manifest.fileInventory, components file.relativePath ≠ [] ∧
    ∀ component ∈ components file.relativePath, component.isNormal = true
  apart : manifest.fileInventory.Pairwise fun left right =>
    ¬ components left.relativePath <+: components right.relativePath ∧
      ¬ components right.relativePath <+: components left.relativePath

theorem Inventory.path_of_file {schemaVersions : BTreeMap String} {inventory next : Inventory}
    (h : inventory.file schemaVersions file = .ok next) :
    validateRelativeLogicalPath file.relativePath = .ok () := by
  rw [Inventory.file, bind_unit_eq_ok, bind_unit_eq_ok, bind_unit_eq_ok] at h
  exact h.2.2.1

theorem validateManifest_paths [Sha256] (h : validateManifest manifest = .ok ()) :
    ∀ file ∈ manifest.fileInventory, validateRelativeLogicalPath file.relativePath = .ok () := by
  rw [validateManifest, bind_unit_eq_ok, bind_eq_ok] at h
  obtain ⟨-, inventory, hrun, -⟩ := h
  intro file hfile
  obtain ⟨before, after, hstep⟩ := foldlM_accepts hrun hfile
  exact Inventory.path_of_file hstep

theorem ownPlaces_iff [Sha256] (h : validateManifest manifest = .ok ()) :
    OwnPlaces manifest ↔ manifest.fileInventory.Pairwise fun left right =>
      ¬ spelling left.relativePath <+: spelling right.relativePath ∧
        ¬ spelling right.relativePath <+: spelling left.relativePath := by
  have hpaths := validateManifest_paths h
  have hinjective : Function.Injective Component.Normal := fun _ _ => Component.Normal.inj
  have hsame {left right : CheckpointFileV1} (hleft : left ∈ manifest.fileInventory)
      (hright : right ∈ manifest.fileInventory) :
      components left.relativePath <+: components right.relativePath ↔
        spelling left.relativePath <+: spelling right.relativePath := by
    rw [(validateRelativeLogicalPath_components (hpaths left hleft)).1,
      (validateRelativeLogicalPath_components (hpaths right hright)).1, spelling_prefix_iff,
      List.prefix_map_iff_of_injective hinjective]
  have hpairs : manifest.fileInventory.Pairwise (fun left right =>
      ¬ components left.relativePath <+: components right.relativePath ∧
        ¬ components right.relativePath <+: components left.relativePath) ↔
      manifest.fileInventory.Pairwise fun left right =>
        ¬ spelling left.relativePath <+: spelling right.relativePath ∧
          ¬ spelling right.relativePath <+: spelling left.relativePath :=
    List.Pairwise.iff_of_mem fun hleft hright => by
      rw [hsame hleft hright, hsame hright hleft]
  constructor
  · intro hplaces
    exact hpairs.mp hplaces.apart
  · intro hspelled
    refine ⟨fun file hfile => ?_, hpairs.mpr hspelled⟩
    obtain ⟨hcomponents, hsome⟩ := validateRelativeLogicalPath_components (hpaths file hfile)
    rw [hcomponents]
    refine ⟨fun hnil => hsome (List.map_eq_nil_iff.mp hnil), fun component hcomponent => ?_⟩
    obtain ⟨name, -, rfl⟩ := List.mem_map.mp hcomponent
    rfl

end Manifests

section Examples

def zeroDigest : String := String.ofList (List.replicate 64 '0')

def listedFile (logicalName relativePath : String) : CheckpointFileV1 where
  schema := CHECKPOINT_FILE_SCHEMA
  logicalName := logicalName
  relativePath := relativePath
  schemaId := "state"
  schemaVersion := "1"
  contentDigest := zeroDigest
  byteLen := 0
  blobPath := blobPathOf zeroDigest

-- A manifest with its two files at these paths.
def listedManifest [Sha256] (graphPath rootsPath : String) : CheckpointManifestV1 :=
  sealManifest {
    schema := CHECKPOINT_MANIFEST_SCHEMA
    checkpointId := ""
    brainId := "brain"
    epoch := 1
    generation := 1
    revision := 1
    schemaVersions := (∅ : BTreeMap String).insert "state" "1"
    fileInventory := [listedFile GRAPH_SNAPSHOT_LOGICAL_NAME graphPath,
      listedFile INGEST_ROOTS_LOGICAL_NAME rootsPath]
    graphSnapshotDigest := zeroDigest
    sidecarDigests := ∅
    ingestRootsDigest := zeroDigest
    externalAuthorityRefs := ⟨1, zeroDigest, zeroDigest, zeroDigest, zeroDigest, zeroDigest⟩
    createdAtUnixMs := 1
    previousCheckpointId := none }

theorem listedManifest_header [Sha256] (graphPath rootsPath : String) :
    validateManifestHeader (listedManifest graphPath rootsPath) = .ok () := by
  have hid : isDigest (listedManifest graphPath rootsPath).checkpointId = true :=
    isDigest_digestCanonical _ _
  have hsealed : (listedManifest graphPath rootsPath).computeCheckpointId =
      (listedManifest graphPath rootsPath).checkpointId := by
    rfl
  have hbrain : validateIdentifier "brain_id" "brain" = .ok () := by decide +kernel
  have hcomplete : rejectIf (1 = 0 ∨ ((∅ : BTreeMap String).insert "state" "1").isEmpty = true)
      (CheckpointError.Refused "checkpoint_manifest_incomplete"
        "created_at and schema pins are required") = .ok () := by decide +kernel
  have hpins : validateSchemaPins ((∅ : BTreeMap String).insert "state" "1") = .ok () := by
    decide +kernel
  have hrefs : validateExternalAuthorityRefs
      ⟨1, zeroDigest, zeroDigest, zeroDigest, zeroDigest, zeroDigest⟩ = .ok () := by decide +kernel
  rw [validateManifestHeader]
  refine bind_unit_eq_ok.mpr ⟨rejectIf_eq_ok.mpr (not_not.mpr rfl), ?_⟩
  refine bind_unit_eq_ok.mpr ⟨rejectIf_eq_ok.mpr (not_not.mpr hid), ?_⟩
  refine bind_unit_eq_ok.mpr ⟨hbrain, bind_unit_eq_ok.mpr ⟨hcomplete, ?_⟩⟩
  refine bind_unit_eq_ok.mpr ⟨hpins, bind_unit_eq_ok.mpr ⟨hrefs, ?_⟩⟩
  exact rejectIf_eq_ok.mpr (not_not.mpr hsealed)

-- The walk over the files does not look at the id.
theorem listedManifest_accepted [Sha256] {graphPath rootsPath : String}
    (h : (do
      let inventory ← [listedFile GRAPH_SNAPSHOT_LOGICAL_NAME graphPath,
        listedFile INGEST_ROOTS_LOGICAL_NAME rootsPath].foldlM
          (Inventory.file ((∅ : BTreeMap String).insert "state" "1")) .empty
      rejectIf (inventory.derivedGraph ≠ some zeroDigest ∨
          inventory.derivedIngest ≠ some zeroDigest ∨ inventory.derivedSidecars ≠ ∅)
        (.Refused "checkpoint_derived_digest_mismatch"
          "graph, ingest roots, or sidecar digest projection differs from inventory")) = .ok ()) :
    validateManifest (listedManifest graphPath rootsPath) = .ok () :=
  bind_unit_eq_ok.mpr ⟨listedManifest_header graphPath rootsPath, h⟩

theorem listedManifest_ownPlaces :
    OwnPlaces (@listedManifest standardSha256 "graph.json" "roots.json") :=
  (@ownPlaces_iff _ standardSha256 (@listedManifest_accepted standardSha256 _ _
    (by decide +kernel))).mpr (by
      refine .cons (fun other hother => ?_) (.cons (fun other hother => nomatch hother) .nil)
      obtain rfl := List.mem_singleton.mp hother
      decide +kernel)

theorem listedManifest_aliases :
    @validateManifest standardSha256
        (@listedManifest standardSha256 "state/graph.json" "state//graph.json") = .ok () ∧
      ¬ OwnPlaces (@listedManifest standardSha256 "state/graph.json" "state//graph.json") := by
  refine ⟨@listedManifest_accepted standardSha256 _ _ (by decide +kernel), fun h => ?_⟩
  have happart := (List.pairwise_cons.mp h.apart).1 _ (.head _)
  have hsame : components "state/graph.json" <+: components "state//graph.json" := by
    decide +kernel
  exact happart.1 hsame

end Examples

end M1nd.Mcp.Checkpoint
