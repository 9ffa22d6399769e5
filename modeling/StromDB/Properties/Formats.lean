import StromDB.Domain.DurableTable
import StromDB.Properties.Loading

namespace StromDB

open Archive Checked Durable Text

theorem content_type_canonical :
    (∀ (input : String) (contentType : StreamContentType), StreamContentType.fromStr input = .ok contentType →
      byteLength contentType.asStr.toList ≤ CONTENT_TYPE_BYTES_MAX ∧ validateCanonical contentType.asStr = .ok contentType.asStr ∧
        StreamContentType.fromStr contentType.asStr = .ok contentType) ∧
    (∀ (first second : String) (a b : StreamContentType), StreamContentType.fromStr first = .ok a →
      StreamContentType.fromStr second = .ok b → (a = b ↔ a.asStr = b.asStr)) ∧
    (∀ text : String, validateCanonical text = .ok text ↔
      ∃ input contentType, StreamContentType.fromStr input = .ok contentType ∧ text = contentType.asStr) ∧
    ∀ (text : String) (contentType : StreamContentType), decodeContentType text = .ok contentType ↔
      (∃ input, StreamContentType.fromStr input = .ok contentType) ∧ text = contentType.asStr := by
  refine ⟨?_, ?_, ?_, ?_⟩
  · intro input contentType _
    exact ⟨contentType.bytesLen_le, contentType.validateCanonical_asStr, contentType.fromStr_asStr⟩
  · intro first second a b _ _
    exact ⟨fun same => by rw [same], StreamContentType.asStr_injective⟩
  · intro text
    constructor
    · intro accepted
      obtain ⟨contentType, parsed, same⟩ := StreamContentType.exists_of_validateCanonical text text accepted
      exact ⟨text, contentType, parsed, same⟩
    · rintro ⟨_, contentType, _, rfl⟩
      exact contentType.validateCanonical_asStr
  · intro text contentType
    rw [decodeContentType_exact text contentType]
    exact ⟨fun same => ⟨⟨_, contentType.fromStr_asStr⟩, same⟩, fun found => found.2⟩

theorem content_type_canonical_charset : ∃ contentType, StreamContentType.fromStr " Text/HTML;Charset=UTF-8 " = .ok contentType ∧
    contentType.asStr = "text/html; charset=utf-8" ∧ validateCanonical "text/html; charset=utf-8" = .ok "text/html; charset=utf-8" ∧
    decodeContentType "Text/HTML" = .error .invalidBody := by
  obtain ⟨contentType, parsed, spelled⟩ : ∃ contentType, StreamContentType.fromStr " Text/HTML;Charset=UTF-8 " = .ok contentType ∧
      contentType.asStr = "text/html; charset=utf-8" :=
    ⟨⟨.general "text/html; charset=utf-8", " Text/HTML;Charset=UTF-8 ", by decide +kernel⟩,
      (StreamContentType.fromStr_ok_iff _ _).mpr (by decide +kernel), rfl⟩
  have accepted := (content_type_canonical.1 _ contentType parsed).2.1
  rw [spelled] at accepted
  exact ⟨contentType, parsed, spelled, accepted, by decide +kernel⟩

theorem wal_codec_exact [Rkyv] (archiver : Archiver ArchivedWalObject) :
    (∀ (room : Bytes → Bytes → Bool) (object : WalObject) (bytes : Bytes), encodeWal archiver room object = .ok bytes →
      Durable.decodeWal archiver object.partition object.batch bytes = .ok object ∧
      ∀ (partition : PartitionId) (batch : BatchId), partition ≠ object.partition ∨ batch ≠ object.batch →
        Durable.decodeWal archiver partition batch bytes = .error .identityMismatch) ∧
    ∀ (partition : PartitionId) (batch : BatchId) (bytes : Bytes) (object : WalObject),
      Durable.decodeWal archiver partition batch bytes = .ok object → archiver.access bytes = some object.archived ∧
        (object.body = .fence ∨ ∃ facts : WalFacts, object.body = .run facts ∧ 1 ≤ facts.facts.length ∧
          facts.facts.length ≤ WAL_RUN_FACTS_MAX ∧ ∀ fact ∈ facts.facts, validateStreamPath fact.path.text = .ok () ∧
            ∀ contentType : StreamContentType, fact.contentType = some contentType →
              validateCanonical contentType.asStr = .ok contentType.asStr) := by
  constructor
  · intro room object bytes encoded
    obtain ⟨rfl, fits⟩ := encode_ok encoded
    refine ⟨(decodeWal_ok_iff archiver _ _ _ _).mpr ⟨fits, archiver.output_accessed _, rfl, rfl⟩, ?_⟩
    intro partition batch elsewhere
    exact decodeWal_elsewhere archiver _ _ _ object fits (archiver.output_accessed _)
      (elsewhere.imp (fun differs => differs.symm) fun differs => differs.symm)
  · intro partition batch bytes object decoded
    refine ⟨((decodeWal_ok_iff archiver _ _ _ _).mp decoded).2.1, ?_⟩
    cases body : object.body with
    | fence => exact Or.inl rfl
    | run facts =>
      refine Or.inr ⟨facts, rfl, List.length_pos_iff.mpr facts.nonempty, facts.bounded, ?_⟩
      intro fact _
      exact ⟨fact.path.valid, fun contentType _ => contentType.validateCanonical_asStr⟩

attribute [local instance] plainRkyv

def createdRun : WalObject :=
  ⟨firstPartition, firstBatch, ⟨SealGeneration.genesis⟩,
    .run ⟨[.streamCreated samplePath firstUid .octetStream .none .opened], by decide, by decide⟩⟩

theorem wal_codec_exact_created : ∃ (archiver : Archiver ArchivedWalObject) (bytes : Bytes),
    encodeWal archiver (fun _ _ => true) createdRun = .ok bytes ∧
      Durable.decodeWal archiver firstPartition firstBatch bytes = .ok createdRun := by
  obtain ⟨archiver, short⟩ := Archiver.exists_sized createdRun.archived 0
  have encoded : encodeWal archiver (fun _ _ => true) createdRun = .ok (archiver.output createdRun.archived) :=
    encode_room (by rw [short]; decide)
  exact ⟨archiver, _, encoded, ((wal_codec_exact archiver).1 _ createdRun _ encoded).1⟩

-- The ways to a Seal. claim_successor is the one that skips the checks.
inductive Seal.Built : Seal → Prop
  | genesis (partition : PartitionId) (sealed : Seal) (made : Bootstrap.genesisSeal partition = .ok sealed) : Built sealed
  | new (partition : PartitionId) (generation : SealGeneration) (replay : WalReplayPoint) (directory ledger : TreeVersion)
      (sealed : Seal) (made : Seal.new partition generation replay directory ledger = .ok sealed) : Built sealed
  | claim (sealed next : Seal) (built : Built sealed) (claimed : sealed.claimSuccessor = .ok next) : Built next
  | checkpoint (partition : PartitionId) (generation : SealGeneration) (cut : BatchId) (owner : OwnerToken)
      (directory ledger : TreeVersion) (sealed : Seal) (encoded : EncodedAuthoritySeal)
      (assembled : assembleCheckpointSeal partition generation cut owner directory ledger = .ok (sealed, encoded)) : Built sealed

structure Seal.Accepted (sealed : Seal) : Prop where
  whole : Seal.new sealed.partition sealed.generation sealed.replay sealed.directory sealed.ledger = .ok sealed
  trees : TreeVersion.tryFrom sealed.directory.runs = .ok sealed.directory ∧
    TreeVersion.tryFrom sealed.ledger.runs = .ok sealed.ledger
  runs : ∀ run ∈ sealed.directory.runs ++ sealed.ledger.runs, SortedRun.tryFrom run.tables = .ok run
  tables : ∀ table ∈ sealed.tables, TableRef.new table.object table.objectBytes = .ok table
  identities : ∀ table ∈ sealed.tables, FreshIdentity.new table.object.fresh.birthGeneration table.object.fresh.attempt
    table.object.fresh.ordinal = .ok table.object.fresh

theorem Seal.Built.legal {sealed : Seal} (built : sealed.Built) : sealed.Legal := by
  induction built with
  | genesis partition sealed made
  | new partition generation replay directory ledger sealed made => exact ((Seal.new_ok_iff _ _ _ _ _ _).mp made).2
  | claim sealed next _ claimed legal => exact legal.claim claimed
  | checkpoint partition generation cut owner directory ledger sealed encoded assembled =>
    obtain ⟨successor, made, rest⟩ := bind_ok assembled
    obtain ⟨_, _, done⟩ := bind_ok rest
    cases done
    exact ((Seal.new_ok_iff _ _ _ _ _ _).mp (expectOk_ok_iff.mp made)).2

theorem Seal.Legal.accepted {sealed : Seal} (legal : sealed.Legal) : sealed.Accepted where
  whole := (Seal.new_ok_iff _ _ _ _ _ _).mpr ⟨rfl, legal⟩
  trees := ⟨(TreeVersion.tryFrom_ok_iff _ _).mpr rfl, (TreeVersion.tryFrom_ok_iff _ _).mpr rfl⟩
  runs := fun run _ => (SortedRun.tryFrom_ok_iff _ run).mpr rfl
  tables := fun table _ => TableRef.new_ok_iff.mpr ⟨rfl, rfl⟩
  identities := fun table _ => by rw [FreshIdentity.new, dif_pos table.object.fresh.predates]

theorem seal_codec_exact (archiver : Archiver ArchivedSeal) :
    (∀ sealed : Seal, sealed.Built → sealed.Accepted ∧
      ∀ (room : Bytes → Bytes → Bool) (bytes : Bytes), encodeSeal archiver room sealed = .ok bytes →
        Durable.decodeSeal archiver sealed.generation bytes = .ok sealed ∧
        ∀ generation : SealGeneration, generation ≠ sealed.generation →
          Durable.decodeSeal archiver generation bytes = .error .identityMismatch) ∧
    ∀ (generation : SealGeneration) (bytes : Bytes) (sealed : Seal), Durable.decodeSeal archiver generation bytes = .ok sealed →
      sealed.Accepted := by
  constructor
  · intro sealed built
    have legal := built.legal
    refine ⟨legal.accepted, ?_⟩
    intro room bytes encoded
    obtain ⟨rfl, fits⟩ := encode_ok encoded
    refine ⟨(decodeSeal_ok_iff archiver _ _ _).mpr ⟨fits, archiver.output_accessed _, rfl, legal⟩, ?_⟩
    intro generation elsewhere
    exact decodeSeal_elsewhere archiver _ _ sealed fits (archiver.output_accessed _) elsewhere.symm
  · intro generation bytes sealed decoded
    exact Seal.Legal.accepted ((decodeSeal_ok_iff archiver _ _ _).mp decoded).2.2.2

def emptySeal (generation : SealGeneration) : Seal := ⟨firstPartition, generation, .genesis, TreeVersion.empty, TreeVersion.empty⟩

theorem seal_codec_exact_layered : ∃ (claim : Seal) (archiver : Archiver ArchivedSeal) (bytes : Bytes),
    layeredSeal.claimSuccessor = .ok claim ∧ claim.tables.length = 4 ∧ claim.Accepted ∧
      encodeSeal archiver (fun _ _ => true) claim = .ok bytes ∧ Durable.decodeSeal archiver claim.generation bytes = .ok claim ∧
      Durable.decodeSeal archiver layeredSeal.generation bytes = .error .identityMismatch := by
  obtain ⟨claim, claimed⟩ : ∃ claim, layeredSeal.claimSuccessor = .ok claim := ⟨_, rfl⟩
  have built : claim.Built := .claim _ _ (.new _ _ _ _ _ _ ((Seal.new_ok_iff _ _ _ _ _ _).mpr ⟨rfl, layered_legal⟩)) claimed
  obtain ⟨following, copied⟩ := Seal.claimSuccessor_ok_iff.mp claimed
  obtain ⟨archiver, short⟩ := Archiver.exists_sized claim.archived 0
  have encoded : encodeSeal archiver (fun _ _ => true) claim = .ok (archiver.output claim.archived) :=
    encode_room (by rw [short]; decide)
  obtain ⟨accepted, decodes⟩ := (seal_codec_exact archiver).1 claim built
  obtain ⟨own, others⟩ := decodes _ _ encoded
  refine ⟨claim, archiver, _, claimed, by rw [copied]; rfl, accepted, encoded, own, others _ ?_⟩
  intro same
  rw [← same] at following
  omega

section

variable [Rkyv] (directory : Archiver (ArchivedSst (String × DirectoryEntry)))
  (ledger : Archiver (ArchivedSst (StreamUid × ArchivedLedgerCell)))

theorem table_codec_exact :
    (∀ (room : Bytes → Bytes → Bool) (partition : PartitionId) (key : TableObjectId) (rows : List (StreamPath × DirectoryEntry))
      (bytes : Bytes), encodeDirectorySst directory room partition key rows = .ok bytes →
        Durable.decodeDirectorySst directory partition key bytes = .ok rows ∧
        ∀ (other : PartitionId) (expected : TableObjectId), other ≠ partition ∨ expected.fresh ≠ key.fresh →
          ∃ error, Durable.decodeDirectorySst directory other expected bytes = .error error) ∧
    (∀ (room : Bytes → Bytes → Bool) (partition : PartitionId) (key : TableObjectId) (rows : List (StreamUid × LedgerCell))
      (bytes : Bytes), encodeLedgerSst ledger room partition key rows = .ok bytes →
        Durable.decodeLedgerSst ledger partition key bytes = .ok rows ∧
        ∀ (other : PartitionId) (expected : TableObjectId), other ≠ partition ∨ expected.fresh ≠ key.fresh →
          ∃ error, Durable.decodeLedgerSst ledger other expected bytes = .error error) ∧
    (∀ (partition : PartitionId) (key : TableObjectId) (bytes : Bytes) (rows : List (StreamPath × DirectoryEntry)),
      Durable.decodeDirectorySst directory partition key bytes = .ok rows →
        rows ≠ [] ∧ (rows.map Prod.fst).Pairwise fun a b => compare a b = .lt) ∧
    ∀ (partition : PartitionId) (key : TableObjectId) (bytes : Bytes) (rows : List (StreamUid × LedgerCell)),
      Durable.decodeLedgerSst ledger partition key bytes = .ok rows →
        rows ≠ [] ∧ (rows.map Prod.fst).Pairwise fun a b => compare a b = .lt := by
  have directoryLoop := fun archived => decodeDirectoryRows_ok_iff archived none 0
  have ledgerLoop := fun archived => decodeLedgerRows_ok_iff archived none 0
  refine ⟨?_, ?_, ?_, ?_⟩
  · intro room partition key rows bytes encoded
    exact ⟨decodeSst_encoded directory _ _ _ _ directoryLoop directoryRowResidentBytes_le _ room _ _ _ _ encoded,
      fun other expected elsewhere => decodeSst_elsewhere directory _ _ _ _ directoryLoop _ room _ _ _ _ _ _ encoded elsewhere⟩
  · intro room partition key rows bytes encoded
    exact ⟨decodeSst_encoded ledger _ _ _ _ ledgerLoop ledgerRowResidentBytes_le _ room _ _ _ _ encoded,
      fun other expected elsewhere => decodeSst_elsewhere ledger _ _ _ _ ledgerLoop _ room _ _ _ _ _ _ encoded elsewhere⟩
  · intro partition key bytes rows decoded
    obtain ⟨nonempty, ordered⟩ := decodeSst_ordered directory _ _ _ _ directoryLoop _ _ _ _ decoded
    exact ⟨nonempty, strictlyOrdered_iff.mp ordered⟩
  · intro partition key bytes rows decoded
    obtain ⟨nonempty, ordered⟩ := decodeSst_ordered ledger _ _ _ _ ledgerLoop _ _ _ _ decoded
    exact ⟨nonempty, strictlyOrdered_iff.mp ordered⟩

end

theorem encodeSst_short {K V Row : Type} [Ord K] (archiver : Archiver (ArchivedSst Row)) (store : StoreKind) (archive : K × V → Row)
    (rowArchivedBytes : Nat) (partition : PartitionId) (key : TableObjectId) (rows : List (K × V)) (same : key.store = store)
    (gates : checkEncodeRows rowArchivedBytes rows = .ok ())
    (short : (archiver.output (archivedSst archive partition key.fresh rows)).length = 0) :
    Durable.encodeSst archiver store archive rowArchivedBytes (fun _ _ => true) partition key rows =
      .ok (archiver.output (archivedSst archive partition key.fresh rows)) := by
  rw [Durable.encodeSst, if_neg (by simp [same]), gates, ok_bind, encode_room (by rw [short]; decide)]
  rfl

def firstTable : TableObjectId :=
  ⟨⟨⟨.two⟩, ⟨SealGeneration.genesis, 0⟩, 0, by decide⟩, .directory⟩

def ledgerTable : TableObjectId := { firstTable with store := .ledger }

def deletedCells : List (StreamUid × LedgerCell) := [(firstUid, .delete), (⟨.two⟩, .delete)]

theorem table_codec_exact_first :
    ∃ (directory : Archiver (ArchivedSst (String × DirectoryEntry))) (ledger : Archiver (ArchivedSst (StreamUid × ArchivedLedgerCell)))
      (entries cells : Bytes),
      encodeDirectorySst directory (fun _ _ => true) firstPartition firstTable [(samplePath, .live firstUid)] = .ok entries ∧
      Durable.decodeDirectorySst directory firstPartition firstTable entries = .ok [(samplePath, .live firstUid)] ∧
      encodeLedgerSst ledger (fun _ _ => true) firstPartition ledgerTable deletedCells = .ok cells ∧
      Durable.decodeLedgerSst ledger firstPartition ledgerTable cells = .ok deletedCells ∧
      ∃ error, Durable.decodeLedgerSst ledger firstPartition (layeredTable .ledger 0).object cells = .error error := by
  obtain ⟨directory, shortEntries⟩ := Archiver.exists_sized
    (archivedSst archivedDirectoryRow firstPartition firstTable.fresh [(samplePath, .live firstUid)]) 0
  obtain ⟨ledger, shortCells⟩ := Archiver.exists_sized (archivedSst archivedLedgerRow firstPartition ledgerTable.fresh deletedCells) 0
  have entries := encodeSst_short directory .directory archivedDirectoryRow plainRkyv.directoryRowSize firstPartition firstTable
    [(samplePath, .live firstUid)] rfl (by decide +kernel) shortEntries
  have cells := encodeSst_short ledger .ledger archivedLedgerRow plainRkyv.ledgerRowSize firstPartition ledgerTable deletedCells rfl
    (by decide +kernel) shortCells
  obtain ⟨entriesBack, cellsBack, _⟩ := table_codec_exact directory ledger
  obtain ⟨same, elsewhere⟩ := cellsBack _ _ _ _ _ cells
  exact ⟨directory, ledger, _, _, entries, (entriesBack _ _ _ _ _ entries).1, cells, same,
    elsewhere _ _ (.inr (by decide))⟩

-- The codecs on values, which the system runs on, are the codecs on bytes at
-- archivers of the lengths they assume, errors included.
theorem value_codecs_refined [Rkyv] (wals : Archiver ArchivedWalObject) (seals : Archiver ArchivedSeal)
    (directory : Archiver (ArchivedSst (String × DirectoryEntry))) (ledger : Archiver (ArchivedSst (StreamUid × ArchivedLedgerCell))) :
    (∀ object : WalObject, (wals.output object.archived).length = walLength object →
      encodeWal wals (fun _ _ => true) object = (EncodedWal.new object).map (fun encoded => wals.output encoded.object.archived) ∧
        ∀ partition batch, Durable.decodeWal wals partition batch (wals.output object.archived) =
          StromDB.decodeWal partition batch object) ∧
    (∀ sealed : Seal, (seals.output sealed.archived).length = sealLength sealed → ∀ generation,
      Durable.decodeSeal seals generation (seals.output sealed.archived) = StromDB.decodeSeal generation sealed) ∧
    (∀ partition key rows (bytes : Bytes), directory.output (archivedSst archivedDirectoryRow partition key.fresh rows) = bytes →
      bytes.length = tableLength ⟨partition, key.fresh, .directory rows⟩ →
      encodeDirectorySst directory (fun _ _ => true) partition key rows = (encodeDirectory partition key rows).map (fun _ => bytes) ∧
        ∀ expectedPartition expected, Durable.decodeDirectorySst directory expectedPartition expected bytes =
          StromDB.decodeDirectorySst expectedPartition expected ⟨partition, key.fresh, .directory rows⟩) ∧
    ∀ partition key rows (bytes : Bytes), ledger.output (archivedSst archivedLedgerRow partition key.fresh rows) = bytes →
      bytes.length = tableLength ⟨partition, key.fresh, .ledger rows⟩ →
      encodeLedgerSst ledger (fun _ _ => true) partition key rows = (encodeLedger partition key rows).map (fun _ => bytes) ∧
        ∀ expectedPartition expected, Durable.decodeLedgerSst ledger expectedPartition expected bytes =
          StromDB.decodeLedgerSst expectedPartition expected ⟨partition, key.fresh, .ledger rows⟩ := by
  refine ⟨fun object sized => ⟨encodeWal_output wals object sized, fun partition batch => ?_⟩, fun sealed sized generation => ?_,
    ?_, ?_⟩
  · exact decodeWal_output wals partition batch object sized
  · exact decodeSeal_output seals generation sealed sized
  · rintro partition key rows _ rfl sized
    refine ⟨encodeSst_output directory .directory archivedDirectoryRow .directory _ partition key rows sized, ?_⟩
    intro expectedPartition expected
    exact decodeSst_output directory .directory archivedDirectoryRow .directory _ _
      (fun rows => decodeDirectoryRows_archived rows none 0)
      partition key.fresh rows expectedPartition expected sized
  · rintro partition key rows _ rfl sized
    refine ⟨encodeSst_output ledger .ledger archivedLedgerRow .ledger _ partition key rows sized, ?_⟩
    intro expectedPartition expected
    exact decodeSst_output ledger .ledger archivedLedgerRow .ledger _ _ (fun rows => decodeLedgerRows_archived rows none 0)
      partition key.fresh rows expectedPartition expected sized

theorem value_codecs_refined_created : ∃ (wals : Archiver ArchivedWalObject) (seals : Archiver ArchivedSeal)
    (directory : Archiver (ArchivedSst (String × DirectoryEntry))) (ledger : Archiver (ArchivedSst (StreamUid × ArchivedLedgerCell)))
    (entries cells : Bytes),
    Durable.decodeWal wals firstPartition firstBatch (wals.output createdRun.archived) = .ok createdRun ∧
    Durable.decodeSeal seals layeredSeal.generation (seals.output layeredSeal.archived) = .ok layeredSeal ∧
    encodeDirectorySst directory (fun _ _ => true) firstPartition firstTable [(samplePath, .live firstUid)] = .ok entries ∧
    Durable.decodeDirectorySst directory firstPartition firstTable entries = .ok [(samplePath, .live firstUid)] ∧
    encodeLedgerSst ledger (fun _ _ => true) firstPartition ledgerTable deletedCells = .ok cells ∧
    Durable.decodeLedgerSst ledger firstPartition firstTable cells = .error .storeMismatch := by
  obtain ⟨wals, walSized⟩ := Archiver.exists_sized createdRun.archived (walLength createdRun)
  obtain ⟨seals, sealSized⟩ := Archiver.exists_sized layeredSeal.archived (sealLength layeredSeal)
  obtain ⟨directory, directorySized⟩ := Archiver.exists_sized
    (archivedSst archivedDirectoryRow firstPartition firstTable.fresh [(samplePath, .live firstUid)])
    (tableLength ⟨firstPartition, firstTable.fresh, .directory [(samplePath, .live firstUid)]⟩)
  obtain ⟨ledger, ledgerSized⟩ := Archiver.exists_sized (archivedSst archivedLedgerRow firstPartition ledgerTable.fresh deletedCells)
    (tableLength ⟨firstPartition, ledgerTable.fresh, .ledger deletedCells⟩)
  obtain ⟨walHalf, sealHalf, directoryHalf, ledgerHalf⟩ := value_codecs_refined wals seals directory ledger
  obtain ⟨entries, entriesBack⟩ := directoryHalf _ _ _ _ rfl directorySized
  obtain ⟨cells, cellsBack⟩ := ledgerHalf _ _ _ _ rfl ledgerSized
  refine ⟨wals, seals, directory, ledger, _, _, ?_, ?_, entries, ?_, cells, ?_⟩
  · rw [(walHalf createdRun walSized).2]
    decide +kernel
  · rw [sealHalf layeredSeal sealSized]
    decide +kernel
  · rw [entriesBack]
    decide +kernel
  · rw [cellsBack]
    decide +kernel

end StromDB
