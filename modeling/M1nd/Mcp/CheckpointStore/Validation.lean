import M1nd.Mcp.CheckpointStore

namespace M1nd.Mcp.Checkpoint

open M1nd.Control
open M1nd.Library.Checks
open M1nd.Library.Json (Bytes Value utf8)

-- The control characters of Unicode.
def isControl (c : Char) : Bool :=
  c.toNat < 0x20 || (0x7f ≤ c.toNat && c.toNat ≤ 0x9f)

def validateIdentifier (field value : String) : Except CheckpointError Unit :=
  rejectIf (value = "" ∨ value.utf8ByteSize > 256 ∨ value.toList.any isControl)
    (.Refused "checkpoint_invalid_identifier"
      (field ++ " must contain 1..=256 non-control characters"))

def validateDigest (field value : String) : Except CheckpointError Unit :=
  rejectIf (¬ isDigest value)
    (.Refused "checkpoint_invalid_digest"
      (field ++ " must be 64 lowercase hexadecimal characters"))

inductive Component
  | RootDir
  | CurDir
  | ParentDir
  | Normal (name : List Char)
deriving DecidableEq

-- A component that is not the first one of its path: doubled separators and a dot stand
-- for nothing.
def laterComponent : List Char → Option Component
  | [] => none
  | ['.'] => none
  | ['.', '.'] => some .ParentDir
  | name => some (.Normal name)

-- `Path::components` on Unix.
def components (path : String) : List Component :=
  match path.toList.splitOn '/' with
  | [] => []
  | [] :: rest => .RootDir :: rest.filterMap laterComponent
  | ['.'] :: rest => .CurDir :: rest.filterMap laterComponent
  | first :: rest => (first :: rest).filterMap laterComponent

def Component.isNormal : Component → Bool
  | .Normal _ => true
  | _ => false

def validateRelativeLogicalPath (value : String) : Except CheckpointError Unit := do
  rejectIf (value = "" ∨ value.utf8ByteSize > 1024)
    (.Refused "checkpoint_invalid_relative_path" value)
  rejectIf ((components value).head? = some .RootDir ∨ ¬ (components value).all Component.isNormal)
    (.Refused "checkpoint_path_traversal_refused" value)

def validateExternalAuthorityRefs (refs : CheckpointExternalAuthorityRefsV1) :
    Except CheckpointError Unit := do
  validateDigest "mission_heads_index_digest" refs.missionHeadsIndexDigest
  validateDigest "authority_wal_root_digest" refs.authorityWalRootDigest
  validateDigest "intent_core_store_root_digest" refs.intentCoreStoreRootDigest
  validateDigest "sentinel_outbox_watermark_digest" refs.sentinelOutboxWatermarkDigest
  validateDigest "autonomy_epoch_record_digest" refs.autonomyEpochRecordDigest

def validateSchemaPins (schemaVersions : BTreeMap String) : Except CheckpointError Unit :=
  schemaVersions.toList.forM fun (schemaId, version) => do
    validateIdentifier "schema_id" schemaId
    validateIdentifier "schema_version" version

def blobPathOf (digest : String) : String :=
  BLOBS_DIRECTORY ++ "/" ++ digest

-- The inventory as `validate_manifest` has walked through it.
structure Inventory where
  previousLogicalName : Option String
  logicalNames : BTreeSet String
  relativePaths : BTreeSet String
  derivedGraph : Option String
  derivedIngest : Option String
  derivedSidecars : BTreeMap String

def Inventory.empty : Inventory := ⟨none, ∅, ∅, none, none, ∅⟩

def Inventory.file (schemaVersions : BTreeMap String) (inventory : Inventory)
    (file : CheckpointFileV1) : Except CheckpointError Inventory := do
  rejectIf (file.schema ≠ CHECKPOINT_FILE_SCHEMA)
    (.Refused "checkpoint_file_schema_unsupported" file.schema)
  validateIdentifier "file.logical_name" file.logicalName
  validateRelativeLogicalPath file.relativePath
  validateIdentifier "file.schema_id" file.schemaId
  validateIdentifier "file.schema_version" file.schemaVersion
  validateDigest "file.content_digest" file.contentDigest
  rejectIf (file.blobPath ≠ blobPathOf file.contentDigest)
    (.Refused "checkpoint_blob_path_mismatch" file.blobPath)
  rejectIf (schemaVersions[file.schemaId]? ≠ some file.schemaVersion)
    (.Refused "checkpoint_schema_pin_mismatch" file.logicalName)
  rejectIf (inventory.previousLogicalName.any fun previous => file.logicalName ≤ previous)
    (.Refused "checkpoint_inventory_not_sorted" file.logicalName)
  rejectIf (file.logicalName ∈ inventory.logicalNames ∨
      file.relativePath ∈ inventory.relativePaths)
    (.Refused "checkpoint_inventory_duplicate" file.logicalName)
  let inventory := { inventory with
    previousLogicalName := some file.logicalName
    logicalNames := inventory.logicalNames.insert file.logicalName
    relativePaths := inventory.relativePaths.insert file.relativePath }
  if file.logicalName = GRAPH_SNAPSHOT_LOGICAL_NAME then
    return { inventory with derivedGraph := some file.contentDigest }
  else if file.logicalName = INGEST_ROOTS_LOGICAL_NAME then
    return { inventory with derivedIngest := some file.contentDigest }
  else
    return { inventory with
      derivedSidecars := inventory.derivedSidecars.insert file.logicalName file.contentDigest }

-- What `validate_manifest` asks of the manifest before it looks at the files.
def validateManifestHeader [Sha256] (manifest : CheckpointManifestV1) :
    Except CheckpointError Unit := do
  rejectIf (manifest.schema ≠ CHECKPOINT_MANIFEST_SCHEMA)
    (.Refused "checkpoint_manifest_schema_unsupported" manifest.schema)
  validateDigest "checkpoint_id" manifest.checkpointId
  validateIdentifier "brain_id" manifest.brainId
  rejectIf (manifest.createdAtUnixMs = 0 ∨ manifest.schemaVersions.isEmpty)
    (.Refused "checkpoint_manifest_incomplete" "created_at and schema pins are required")
  validateSchemaPins manifest.schemaVersions
  match manifest.previousCheckpointId with
  | some previous =>
      validateDigest "previous_checkpoint_id" previous
      rejectIf (previous = manifest.checkpointId) (.Refused "checkpoint_self_cycle" previous)
  | none => pure ()
  validateExternalAuthorityRefs manifest.externalAuthorityRefs
  rejectIf (manifest.computeCheckpointId ≠ manifest.checkpointId)
    (.DigestMismatch MANIFEST_FILE manifest.checkpointId manifest.computeCheckpointId)

def validateManifest [Sha256] (manifest : CheckpointManifestV1) :
    Except CheckpointError Unit := do
  validateManifestHeader manifest
  let inventory ← manifest.fileInventory.foldlM (Inventory.file manifest.schemaVersions) .empty
  rejectIf (inventory.derivedGraph ≠ some manifest.graphSnapshotDigest ∨
      inventory.derivedIngest ≠ some manifest.ingestRootsDigest ∨
      inventory.derivedSidecars ≠ manifest.sidecarDigests)
    (.Refused "checkpoint_derived_digest_mismatch"
      "graph, ingest roots, or sidecar digest projection differs from inventory")

section Building

variable [Sha256]

def sealManifest (manifest : CheckpointManifestV1) : CheckpointManifestV1 :=
  { manifest with checkpointId := manifest.computeCheckpointId }

end Building

end M1nd.Mcp.Checkpoint
