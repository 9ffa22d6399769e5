import StromDB.Domain.Archived

namespace StromDB

open Archive Checked List

-- The codecs on bytes. The archiver is a parameter with the one law that
-- checked access of its own output shows the archived fields.
namespace Durable

section

variable {Root : Type}

structure BoundedWriter where
  bytes : Bytes
  bytesMax : Nat
  overBound : Bool
deriving DecidableEq

def BoundedWriter.new (bytesMax : Nat) : BoundedWriter := ⟨[], bytesMax, false⟩

-- The room oracle answers whether the buffer has or can reserve room for the
-- chunk. A failed write is returned with the writer it leaves behind.
def BoundedWriter.write (room : Bytes → Bytes → Bool) (writer : BoundedWriter) (chunk : Bytes) : Except BoundedWriter BoundedWriter :=
  if writer.bytes.length + chunk.length > writer.bytesMax then .error { writer with overBound := true }
  else if !room writer.bytes chunk then .error writer
  else .ok { writer with bytes := writer.bytes ++ chunk }

def writeAll (room : Bytes → Bytes → Bool) : List Bytes → BoundedWriter → Except BoundedWriter BoundedWriter
  | [], writer => .ok writer
  | chunk :: rest, writer => do
    let next ← writer.write room chunk
    writeAll room rest next

def encode (archiver : Archiver Root) (room : Bytes → Bytes → Bool) (value : Root) (bytesMax : Nat) : Except EncodeError Bytes :=
  match writeAll room (archiver.writes value) (.new bytesMax) with
  | .error writer => if writer.overBound then .error (.encodedBytesOverMax bytesMax) else .error .serialization
  | .ok writer => .ok writer.bytes

structure EncodedBytesOverMax where
  bytesMax : Nat
  bytesActual : Nat
deriving DecidableEq

def decodeBound (bytes : Bytes) (bytesMax : Nat) : Except EncodedBytesOverMax Unit :=
  if bytes.length > bytesMax then .error ⟨bytesMax, bytes.length⟩ else .ok ()

theorem writeAll_ok {room : Bytes → Bytes → Bool} {chunks : List Bytes} : ∀ writer last : BoundedWriter,
    writer.bytes.length ≤ writer.bytesMax → writeAll room chunks writer = .ok last →
    last.bytes = writer.bytes ++ chunks.flatten ∧ last.bytes.length ≤ writer.bytesMax := by
  induction chunks with
  | nil =>
    intro writer last fits done
    cases done
    exact ⟨by simp, fits⟩
  | cons chunk rest ih =>
    intro writer last fits done
    obtain ⟨next, wrote, done⟩ := bind_ok done
    unfold BoundedWriter.write at wrote
    split at wrote
    · cases wrote
    rename_i within
    split at wrote
    · cases wrote
    cases wrote
    have bounded : writer.bytes.length + chunk.length ≤ writer.bytesMax := Nat.le_of_not_gt within
    obtain ⟨same, short⟩ := ih _ last (by simpa using bounded) done
    exact ⟨by simp [same], short⟩

theorem writeAll_room {chunks : List Bytes} : ∀ writer : BoundedWriter,
    writer.bytes.length + chunks.flatten.length ≤ writer.bytesMax →
    ∃ last, writeAll (fun _ _ => true) chunks writer = .ok last := by
  induction chunks with
  | nil => exact fun writer _ => ⟨writer, rfl⟩
  | cons chunk rest ih =>
    intro writer fits
    rw [flatten_cons, length_append] at fits
    have wrote : writer.write (fun _ _ => true) chunk = .ok { writer with bytes := writer.bytes ++ chunk } := by
      rw [BoundedWriter.write, if_neg (by omega)]
      rfl
    rw [writeAll, wrote, ok_bind]
    exact ih _ (by simp only [length_append]; omega)

theorem writeAll_over {chunks : List Bytes} : ∀ writer : BoundedWriter, writer.bytes.length ≤ writer.bytesMax →
    writer.bytesMax < writer.bytes.length + chunks.flatten.length →
    ∃ last, writeAll (fun _ _ => true) chunks writer = .error last ∧ last.overBound = true := by
  induction chunks with
  | nil =>
    intro writer fits exceeds
    rw [flatten_nil, length_nil] at exceeds
    omega
  | cons chunk rest ih =>
    intro writer fits exceeds
    rw [flatten_cons, length_append] at exceeds
    by_cases full : writer.bytes.length + chunk.length > writer.bytesMax
    · have wrote : writer.write (fun _ _ => true) chunk = .error { writer with overBound := true } := by
        rw [BoundedWriter.write, if_pos full]
      exact ⟨_, by rw [writeAll, wrote, error_bind], rfl⟩
    · have wrote : writer.write (fun _ _ => true) chunk = .ok { writer with bytes := writer.bytes ++ chunk } := by
        rw [BoundedWriter.write, if_neg full]
        rfl
      rw [writeAll, wrote, ok_bind]
      exact ih _ (by simp only [length_append]; omega) (by simp only [length_append]; omega)

theorem encode_ok {archiver : Archiver Root} {room : Bytes → Bytes → Bool} {value : Root} {bytesMax : Nat} {bytes : Bytes}
    (encoded : encode archiver room value bytesMax = .ok bytes) : bytes = archiver.output value ∧ bytes.length ≤ bytesMax := by
  unfold encode at encoded
  split at encoded
  · split at encoded <;> cases encoded
  rename_i writer done
  cases encoded
  simpa [BoundedWriter.new, Archiver.output] using writeAll_ok _ _ (Nat.zero_le _) done

theorem encode_over {archiver : Archiver Root} {value : Root} {bytesMax : Nat} (exceeds : bytesMax < (archiver.output value).length) :
    encode archiver (fun _ _ => true) value bytesMax = .error (.encodedBytesOverMax bytesMax) := by
  obtain ⟨last, failed, flagged⟩ := writeAll_over (.new bytesMax) (Nat.zero_le _)
    (by simpa [BoundedWriter.new, Archiver.output] using exceeds)
  rw [encode, failed]
  simp [flagged]

theorem encode_room {archiver : Archiver Root} {value : Root} {bytesMax : Nat} (fits : (archiver.output value).length ≤ bytesMax) :
    encode archiver (fun _ _ => true) value bytesMax = .ok (archiver.output value) := by
  obtain ⟨last, done⟩ := writeAll_room (.new bytesMax) (by simpa [BoundedWriter.new, Archiver.output] using fits)
  have same := (writeAll_ok _ _ (Nat.zero_le _) done).1
  rw [encode, done]
  simpa [BoundedWriter.new, Archiver.output] using same

theorem decodeBound_ok_iff (bytes : Bytes) (bytesMax : Nat) (u : Unit) :
    decodeBound bytes bytesMax = .ok u ↔ bytes.length ≤ bytesMax := by
  unfold decodeBound
  split <;> simp <;> omega

end

variable [Rkyv]

def DecodeError.ofBound (error : EncodedBytesOverMax) : DecodeError := .encodedBytesOverMax error.bytesMax error.bytesActual

section

variable (archiver : Archiver ArchivedWalObject)

def encodeWal (room : Bytes → Bytes → Bool) (object : WalObject) : Except EncodeError Bytes :=
  encode archiver room object.archived WAL_ENCODED_BYTES_MAX

def decodeWal (expectedPartition : PartitionId) (expectedBatch : BatchId) (bytes : Bytes) : Except DecodeError WalObject := do
  (decodeBound bytes WAL_ENCODED_BYTES_MAX).mapError DecodeError.ofBound
  match archiver.access bytes with
  | none => .error .malformedArchive
  | some archived =>
    let partition ← PartitionId.tryFrom archived.partition
    if partition ≠ expectedPartition ∨ archived.batch ≠ expectedBatch then .error .identityMismatch
    else do
      let body ← decodeBody archived.body
      .ok ⟨partition, archived.batch, archived.owner, body⟩

section

variable (expectedPartition : PartitionId) (expectedBatch : BatchId) (bytes : Bytes) (object : WalObject)

theorem decodeWal_ok_iff :
    decodeWal archiver expectedPartition expectedBatch bytes = .ok object ↔ bytes.length ≤ WAL_ENCODED_BYTES_MAX ∧
      archiver.access bytes = some object.archived ∧ object.partition = expectedPartition ∧ object.batch = expectedBatch := by
  simp only [decodeWal, bind_ok_iff, mapError_ok_iff, decodeBound_ok_iff]
  constructor
  · rintro ⟨_, fits, decoded⟩
    split at decoded
    · cases decoded
    rename_i archived found
    obtain ⟨partition, same, decoded⟩ := bind_ok decoded
    rw [PartitionId.tryFrom_exact] at same
    split at decoded
    · cases decoded
    rename_i here
    simp only [not_or, not_not] at here
    obtain ⟨body, whole, done⟩ := bind_ok decoded
    rw [decodeBody_exact] at whole
    cases done
    refine ⟨fits, ?_, here⟩
    rw [found]
    obtain ⟨_, _, _, _⟩ := archived
    cases same
    cases whole
    rfl
  · rintro ⟨fits, found, rfl, rfl⟩
    refine ⟨(), fits, ?_⟩
    have partition : PartitionId.tryFrom object.archived.partition = .ok object.partition := PartitionId.tryFrom_exact.roundtrip _ _ _
    have body : decodeBody object.archived.body = .ok object.body := decodeBody_exact.roundtrip _ _ _
    simp only [found, partition, ok_bind, body]
    exact if_neg fun other => other.elim (fun differs => differs rfl) fun differs => differs rfl

theorem decodeWal_elsewhere
    (fits : bytes.length ≤ WAL_ENCODED_BYTES_MAX) (found : archiver.access bytes = some object.archived)
    (elsewhere : object.partition ≠ expectedPartition ∨ object.batch ≠ expectedBatch) :
    decodeWal archiver expectedPartition expectedBatch bytes = .error .identityMismatch := by
  have bound := (decodeBound_ok_iff bytes WAL_ENCODED_BYTES_MAX ()).mpr fits
  have partition : PartitionId.tryFrom object.archived.partition = .ok object.partition := PartitionId.tryFrom_exact.roundtrip _ _ _
  simp only [decodeWal, bound, Except.mapError, ok_bind, found, partition]
  exact if_pos elsewhere

end

theorem encodeWal_output (object : WalObject) (sized : (archiver.output object.archived).length = walLength object) :
    encodeWal archiver (fun _ _ => true) object =
      (EncodedWal.new object).map fun encoded => archiver.output encoded.object.archived := by
  unfold encodeWal EncodedWal.new
  split
  case isTrue bounded => exact encode_room (by omega)
  case isFalse exceeds => exact encode_over (by omega)

theorem decodeWal_output (expectedPartition : PartitionId) (expectedBatch : BatchId) (object : WalObject)
    (sized : (archiver.output object.archived).length = walLength object) :
    decodeWal archiver expectedPartition expectedBatch (archiver.output object.archived) =
      StromDB.decodeWal expectedPartition expectedBatch object := by
  unfold StromDB.decodeWal
  split
  case isTrue exceeds =>
    rw [← sized] at exceeds ⊢
    simp [decodeWal, decodeBound, if_pos exceeds, Except.mapError, DecodeError.ofBound]
  case isFalse fits =>
    split
    case isTrue elsewhere => exact decodeWal_elsewhere archiver _ _ _ object (by omega) (archiver.output_accessed _) elsewhere
    case isFalse here =>
      simp only [not_or, not_not] at here
      exact (decodeWal_ok_iff archiver _ _ _ object).mpr ⟨by omega, archiver.output_accessed _, here⟩

end

section

variable (archiver : Archiver ArchivedSeal)

def encodeSeal (room : Bytes → Bytes → Bool) (sealed : Seal) : Except EncodeError Bytes :=
  encode archiver room sealed.archived SEAL_ENCODED_BYTES_MAX

def decodeSeal (expectedGeneration : SealGeneration) (bytes : Bytes) : Except DecodeError Seal := do
  (decodeBound bytes SEAL_ENCODED_BYTES_MAX).mapError DecodeError.ofBound
  match archiver.access bytes with
  | none => .error .malformedArchive
  | some archived =>
    let partition ← PartitionId.tryFrom archived.partition
    if archived.generation ≠ expectedGeneration then .error .identityMismatch
    else decodeArchivedSeal archived partition archived.generation

section

variable (expectedGeneration : SealGeneration)

omit [Rkyv] in
theorem decodeSeal_ok_iff (bytes : Bytes) (sealed : Seal) :
    decodeSeal archiver expectedGeneration bytes = .ok sealed ↔ bytes.length ≤ SEAL_ENCODED_BYTES_MAX ∧
      archiver.access bytes = some sealed.archived ∧ sealed.generation = expectedGeneration ∧ sealed.Legal := by
  simp only [decodeSeal, bind_ok_iff, mapError_ok_iff, decodeBound_ok_iff]
  constructor
  · rintro ⟨_, fits, decoded⟩
    split at decoded
    · cases decoded
    rename_i archived found
    obtain ⟨partition, same, decoded⟩ := bind_ok decoded
    rw [PartitionId.tryFrom_exact] at same
    split at decoded
    · cases decoded
    rename_i here
    obtain ⟨rfl, generation, replay, directory, ledger, legal⟩ := decodeArchivedSeal_ok_iff.mp decoded
    refine ⟨fits, ?_, generation.trans (not_not.mp here), legal⟩
    rw [found, Seal.archived, ← same, generation, ← replay, ← directory, ← ledger]
  · rintro ⟨fits, found, rfl, legal⟩
    refine ⟨(), fits, ?_⟩
    have partition : PartitionId.tryFrom sealed.archived.partition = .ok sealed.partition := PartitionId.tryFrom_exact.roundtrip _ _ _
    have body : decodeArchivedSeal sealed.archived sealed.partition sealed.archived.generation = .ok sealed :=
      decodeArchivedSeal_ok_iff.mpr ⟨rfl, rfl, rfl, rfl, rfl, legal⟩
    simp only [found, partition, ok_bind, body]
    exact if_neg fun other => other rfl

omit [Rkyv] in
theorem decodeSeal_elsewhere (bytes : Bytes) (sealed : Seal)
    (fits : bytes.length ≤ SEAL_ENCODED_BYTES_MAX) (found : archiver.access bytes = some sealed.archived)
    (elsewhere : sealed.generation ≠ expectedGeneration) : decodeSeal archiver expectedGeneration bytes = .error .identityMismatch := by
  have bound := (decodeBound_ok_iff bytes SEAL_ENCODED_BYTES_MAX ()).mpr fits
  have partition : PartitionId.tryFrom sealed.archived.partition = .ok sealed.partition := PartitionId.tryFrom_exact.roundtrip _ _ _
  simp only [decodeSeal, bound, Except.mapError, ok_bind, found, partition]
  exact if_pos elsewhere

theorem decodeSeal_output (sealed : Seal)
    (sized : (archiver.output sealed.archived).length = sealLength sealed) :
    decodeSeal archiver expectedGeneration (archiver.output sealed.archived) = StromDB.decodeSeal expectedGeneration sealed := by
  unfold StromDB.decodeSeal
  split
  case isTrue exceeds =>
    rw [← sized] at exceeds ⊢
    simp [decodeSeal, decodeBound, if_pos exceeds, Except.mapError, DecodeError.ofBound]
  case isFalse fits =>
    split
    case isTrue elsewhere => exact decodeSeal_elsewhere archiver _ _ sealed (by omega) (archiver.output_accessed _) elsewhere
    case isFalse here =>
      have bound := (decodeBound_ok_iff (archiver.output sealed.archived) SEAL_ENCODED_BYTES_MAX ()).mpr (by omega)
      have partition : PartitionId.tryFrom sealed.archived.partition = .ok sealed.partition := PartitionId.tryFrom_exact.roundtrip _ _ _
      have directory : decodeTree sealed.archived.directory = .ok sealed.directory := decodeTree_exact.roundtrip _ _ _
      have ledger : decodeTree sealed.archived.ledger = .ok sealed.ledger := decodeTree_exact.roundtrip _ _ _
      simp only [decodeSeal, bound, Except.mapError, ok_bind, archiver.output_accessed, partition]
      refine (if_neg here).trans ?_
      rw [decodeArchivedSeal, directory, ledger, ok_bind, ok_bind]
      change (Seal.new sealed.partition sealed.generation sealed.replay sealed.directory sealed.ledger).mapError _ = _
      cases Seal.new sealed.partition sealed.generation sealed.replay sealed.directory sealed.ledger <;> rfl

end

end

end Durable

end StromDB
