import Mathlib.Data.Prod.Lex
import M1nd.Control.Policy
import M1nd.Library.Json.Pretty
import M1nd.Mcp.ProtectedJournalHead

namespace M1nd.Mcp.Checkpoint

open M1nd.Control
open M1nd.Library.Checks
open M1nd.Library.Json (Bytes Value utf8)

def CHECKPOINT_MANIFEST_SCHEMA : String := "m1nd-checkpoint-manifest-v1"
def CHECKPOINT_FILE_SCHEMA : String := "m1nd-checkpoint-file-v1"
def GRAPH_SNAPSHOT_LOGICAL_NAME : String := "graph_snapshot"
def INGEST_ROOTS_LOGICAL_NAME : String := "ingest_roots"

def CHECKPOINT_ID_DOMAIN : String := "m1nd-checkpoint-manifest-v1"
def BLOBS_DIRECTORY : String := "files"
def MANIFEST_FILE : String := "manifest.json"

@[ext]
structure CheckpointExternalAuthorityRefsV1 where
  systemBlockStoreVersion : Nat
  missionHeadsIndexDigest : String
  authorityWalRootDigest : String
  intentCoreStoreRootDigest : String
  sentinelOutboxWatermarkDigest : String
  autonomyEpochRecordDigest : String
deriving DecidableEq

@[ext]
structure CheckpointFileV1 where
  schema : String
  logicalName : String
  relativePath : String
  schemaId : String
  schemaVersion : String
  contentDigest : String
  byteLen : Nat
  blobPath : String
deriving DecidableEq

@[ext]
structure CheckpointManifestV1 where
  schema : String
  checkpointId : String
  brainId : String
  epoch : Nat
  generation : Nat
  revision : Nat
  schemaVersions : BTreeMap String
  fileInventory : List CheckpointFileV1
  graphSnapshotDigest : String
  sidecarDigests : BTreeMap String
  ingestRootsDigest : String
  externalAuthorityRefs : CheckpointExternalAuthorityRefsV1
  createdAtUnixMs : Nat
  previousCheckpointId : Option String
deriving DecidableEq

inductive CheckpointFaultPoint
  | CreateStagingDirectory
  | CreateBlobDirectory
  | WriteBlob
  | FsyncBlob
  | FsyncBlobDirectory
  | WriteManifest
  | FsyncManifest
  | FsyncStagingDirectory
  | RenameCheckpointDirectory
  | FsyncCheckpointParent
  | WriteCurrent
  | FsyncCurrent
  | RenameCurrent
  | FsyncCurrentParent
  | ConfirmCurrent
deriving DecidableEq

structure InjectedCheckpointFault where
  code : String
  detail : String
deriving DecidableEq

inductive CheckpointError
  | Io (error : String)
  | Json (error : String)
  | Refused (code detail : String)
  | Injected (point : CheckpointFaultPoint) (fault : InjectedCheckpointFault)
  | PointerMissing
  | PointerCorrupt (detail : String)
  | OccConflict (expected observed : Option String)
  | DigestMismatch (path expected observed : String)
  | CheckpointCollision (checkpointId : String)
  | NoUsableCheckpoint (currentError fallbackError : String)
  | AuthorityValidation (detail : String)
deriving DecidableEq

section Encoding

def stringMap (map : BTreeMap String) : Value :=
  .object (map.toList.map fun entry => (entry.1, .string entry.2))

def optionalId : Option String → Value :=
  Value.ofOption .string

def CheckpointExternalAuthorityRefsV1.toValue (refs : CheckpointExternalAuthorityRefsV1) : Value :=
  .object [
    ("system_block_store_version", .ofNat refs.systemBlockStoreVersion),
    ("mission_heads_index_digest", .string refs.missionHeadsIndexDigest),
    ("authority_wal_root_digest", .string refs.authorityWalRootDigest),
    ("intent_core_store_root_digest", .string refs.intentCoreStoreRootDigest),
    ("sentinel_outbox_watermark_digest", .string refs.sentinelOutboxWatermarkDigest),
    ("autonomy_epoch_record_digest", .string refs.autonomyEpochRecordDigest)]

def CheckpointFileV1.toValue (file : CheckpointFileV1) : Value :=
  .object [
    ("schema", .string file.schema),
    ("logical_name", .string file.logicalName),
    ("relative_path", .string file.relativePath),
    ("schema_id", .string file.schemaId),
    ("schema_version", .string file.schemaVersion),
    ("content_digest", .string file.contentDigest),
    ("byte_len", .ofNat file.byteLen),
    ("blob_path", .string file.blobPath)]

def CheckpointManifestV1.toValue (manifest : CheckpointManifestV1) : Value :=
  .object [
    ("schema", .string manifest.schema),
    ("checkpoint_id", .string manifest.checkpointId),
    ("brain_id", .string manifest.brainId),
    ("epoch", .ofNat manifest.epoch),
    ("generation", .ofNat manifest.generation),
    ("revision", .ofNat manifest.revision),
    ("schema_versions", stringMap manifest.schemaVersions),
    ("file_inventory", .array (manifest.fileInventory.map CheckpointFileV1.toValue)),
    ("graph_snapshot_digest", .string manifest.graphSnapshotDigest),
    ("sidecar_digests", stringMap manifest.sidecarDigests),
    ("ingest_roots_digest", .string manifest.ingestRootsDigest),
    ("external_authority_refs", manifest.externalAuthorityRefs.toValue),
    ("created_at_unix_ms", .ofNat manifest.createdAtUnixMs),
    ("previous_checkpoint_id", optionalId manifest.previousCheckpointId)]

-- What the id of a checkpoint covers: everything but the id.
def CheckpointManifestV1.core (manifest : CheckpointManifestV1) : Value :=
  manifest.toValue.remove "checkpoint_id"

end Encoding

section Digests

variable [Sha256]

def CheckpointManifestV1.computeCheckpointId (manifest : CheckpointManifestV1) : String :=
  digestCanonical CHECKPOINT_ID_DOMAIN manifest.core

end Digests

end M1nd.Mcp.Checkpoint
