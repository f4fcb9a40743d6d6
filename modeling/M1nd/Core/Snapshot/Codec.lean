import M1nd.Core.Snapshot.Coherent

namespace M1nd.Core

open M1nd.Library.Checks

variable {W F T : Type}

-- What `serde_json` makes of the derived implementations of the snapshots.
structure SerdeJson (F T : Type) where
  toVec : GraphSnapshotV4 F T → Except String (List UInt8)
  versionPeek : List UInt8 → Except String Nat
  graphSnapshotV4 : List UInt8 → Except String (GraphSnapshotV4 F T)
  graphSnapshotV3 : List UInt8 → Except String (GraphSnapshotV3 F T)

-- What `bincode` makes of them under its limit. A snapshot comes with the number of its bytes, and
-- the limit is on the bytes that are claimed while it is decoded.
structure Bincode (F T : Type) where
  claimedBytes : GraphSnapshotV4 F T → Nat
  encodeToVec : GraphSnapshotV4 F T → Except String (List UInt8)
  decodeVersion : List UInt8 → Except String Nat
  graphSnapshotV4 : List UInt8 → Except String (GraphSnapshotV4 F T × Nat)
  graphSnapshotV3 : List UInt8 → Except String (GraphSnapshotV3 F T × Nat)

def DECODE_LIMIT_BYTES : Nat := 1024 * 1024 * 1024

section Versions

-- The current version, or the one before it, whose edges have one weight.
def snapshotOfVersion (format : SnapshotFormat) (legacyReports : Nat → String) (version : Nat)
    (v4 : Except SnapshotError (GraphSnapshotV4 F T))
    (v3 : Except SnapshotError (GraphSnapshotV3 F T)) : Except SnapshotError (GraphSnapshotV4 F T) :=
  if version = SNAPSHOT_VERSION then v4
  else if version = LEGACY_SNAPSHOT_VERSION then do
    let legacy ← v3
    if legacy.version ≠ LEGACY_SNAPSHOT_VERSION then
      .error (.CorruptState (legacyReports legacy.version))
    else .ok ⟨SNAPSHOT_VERSION, legacy.nodes, legacy.edges.map EdgeSnapshotV3.toV4⟩
  else .error (.CorruptState (format.unsupportedVersion version))

def decodeWholeFile {α : Type} (decode : List UInt8 → Except String (α × Nat)) (data : List UInt8)
    (what : String) : Except SnapshotError α := do
  let (value, consumed) ← (decode data).mapError .PersistenceFailed
  if consumed ≠ data.length then
    .error (.CorruptState
      s!"binary graph snapshot {what} decoded only {consumed} of {data.length} bytes")
  else .ok value

end Versions

section Codecs

variable [FiniteF32 W F] [DecidableEq F] [Zero W]

def encodeGraphJson (serde : SerdeJson F T) (graph : Graph W T) :
    Except SnapshotError (List UInt8) := do
  let snapshot ← graphSnapshot graph
  (serde.toVec snapshot).mapError .Serde

def encodeGraphBin (bincode : Bincode F T) (graph : Graph W T) :
    Except SnapshotError (List UInt8) := do
  let snapshot ← graphSnapshot graph
  (bincode.encodeToVec snapshot).mapError .PersistenceFailed

variable [FiniteF64 T]

def decodeGraphJson (serde : SerdeJson F T) (data : List UInt8) :
    Except SnapshotError (Graph W T) := do
  let version ← (serde.versionPeek data).mapError .Serde
  let snapshot ← snapshotOfVersion jsonFormat
    (fun version => s!"legacy JSON graph snapshot reports version {version}") version
    ((serde.graphSnapshotV4 data).mapError .Serde) ((serde.graphSnapshotV3 data).mapError .Serde)
  graphFromSnapshotV4 jsonFormat snapshot

def decodeGraphBin (bincode : Bincode F T) (data : List UInt8) :
    Except SnapshotError (Graph W T) := do
  let version ← (bincode.decodeVersion data).mapError .PersistenceFailed
  let snapshot ← snapshotOfVersion binaryFormat
    (fun version => s!"legacy binary graph snapshot reports version {version}") version
    (decodeWholeFile bincode.graphSnapshotV4 data "v4")
    (decodeWholeFile bincode.graphSnapshotV3 data "v3")
  graphFromSnapshotV4 binaryFormat snapshot

end Codecs

section Read

variable [FiniteF32 W F]

def GraphSnapshotV4.Finite (W : Type) [FiniteF32 W F] [FiniteF64 T]
    (snapshot : GraphSnapshotV4 F T) : Prop :=
  ∀ node ∈ snapshot.nodes, node.Finite W

-- The text of a snapshot is read back as this snapshot. A number that is not finite is written
-- as null and not read.
structure SerdeJson.ReadsBack (W : Type) [FiniteF32 W F] [FiniteF64 T] (serde : SerdeJson F T)
    (snapshot : GraphSnapshotV4 F T) (data : List UInt8) : Prop where
  written : serde.toVec snapshot = .ok data
  version : serde.versionPeek data = .ok snapshot.version
  finite : snapshot.Finite W → serde.graphSnapshotV4 data = .ok snapshot
  same : ∀ other, serde.graphSnapshotV4 data = .ok other → other = snapshot

-- A snapshot behind the limit is refused.
structure Bincode.ReadsBack (bincode : Bincode F T) (snapshot : GraphSnapshotV4 F T)
    (data : List UInt8) : Prop where
  written : bincode.encodeToVec snapshot = .ok data
  version : bincode.decodeVersion data = .ok snapshot.version
  within : bincode.claimedBytes snapshot ≤ DECODE_LIMIT_BYTES →
    bincode.graphSnapshotV4 data = .ok (snapshot, data.length)
  beyond : DECODE_LIMIT_BYTES < bincode.claimedBytes snapshot → ∃ error, bincode.graphSnapshotV4 data = .error error

variable [DecidableEq F] [Zero W] [FiniteF64 T] {graph next : Graph W T}
  {snapshot : GraphSnapshotV4 F T} {data : List UInt8}

-- What is written of a graph is the graph of its snapshot.
theorem decodeGraphJson_eq_ok {serde : SerdeJson F T} (hserde : serde.ReadsBack W snapshot data)
    (hversion : snapshot.version = SNAPSHOT_VERSION)
    (hfinite : graphFromSnapshotV4 jsonFormat snapshot = .ok next → snapshot.Finite W) :
    decodeGraphJson serde data = .ok next ↔ graphFromSnapshotV4 jsonFormat snapshot = .ok next := by
  simp only [decodeGraphJson, snapshotOfVersion, bind_eq_ok, mapError_eq_ok, hserde.version,
    Except.ok.injEq, exists_eq_left', hversion, if_true]
  constructor
  · rintro ⟨other, hother, hnext⟩
    rwa [hserde.same other hother] at hnext
  · exact fun hnext => ⟨snapshot, hserde.finite (hfinite hnext), hnext⟩

theorem decodeGraphBin_eq_ok {bincode : Bincode F T} (hbincode : bincode.ReadsBack snapshot data)
    (hversion : snapshot.version = SNAPSHOT_VERSION) :
    decodeGraphBin bincode data = .ok next ↔
      bincode.claimedBytes snapshot ≤ DECODE_LIMIT_BYTES ∧
        graphFromSnapshotV4 binaryFormat snapshot = .ok next := by
  simp only [decodeGraphBin, snapshotOfVersion, decodeWholeFile, bind_eq_ok, mapError_eq_ok,
    hbincode.version, Except.ok.injEq, exists_eq_left', hversion, if_true]
  constructor
  · rintro ⟨other, ⟨⟨value, consumed⟩, hread, hother⟩, hnext⟩
    have hwithin : bincode.claimedBytes snapshot ≤ DECODE_LIMIT_BYTES := by
      by_contra hlt
      obtain ⟨error, herror⟩ := hbincode.beyond (by omega)
      rw [hread] at herror
      cases herror
    rw [hbincode.within hwithin, Except.ok.injEq, Prod.mk.injEq] at hread
    obtain ⟨rfl, rfl⟩ := hread
    dsimp only at hother
    rw [if_neg (by simp), Except.ok.injEq] at hother
    exact ⟨hwithin, hother ▸ hnext⟩
  · rintro ⟨hwithin, hnext⟩
    refine ⟨snapshot, ⟨_, hbincode.within hwithin, ?_⟩, hnext⟩
    dsimp only
    rw [if_neg (by simp)]

end Read

end M1nd.Core
