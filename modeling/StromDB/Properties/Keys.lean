import StromDB.Domain.Partition
import StromDB.Engine.Listing
import StromDB.Engine.Store
import StromDB.Properties.Instances

namespace StromDB

open Text

theorem underNamespace_coordinate {root : ObjectKey} {kind text : String} {ordinal : Nat}
    (spelled : text.toList = joined '/' (coordinateSegments kind ordinal)) (rooted : root.text.toList = kind.toList ++ "/v1".toList) :
    underNamespace root.text text = true := by
  have cut : stripStart (root.text.toList ++ ['/']) text.toList =
      some (Decimal.numeral REVERSE_ORDINAL_DIGITS (2 ^ 64 - 1 - ordinal)) := by
    rw [stripStart_eq_some_iff, spelled, rooted]
    simp [coordinateSegments, joined, NAMESPACE_VERSION]
  have long := Decimal.length_numeral REVERSE_ORDINAL_DIGITS (2 ^ 64 - 1 - ordinal)
  rw [underNamespace, cut]
  cases held : Decimal.numeral REVERSE_ORDINAL_DIGITS (2 ^ 64 - 1 - ordinal) with
  | nil =>
    rw [held] at long
    cases long
  | cons _ _ => rfl

theorem newestGeneration_spec {raw : RawStore}
    (owned : ∀ text, raw[text]?.isSome → underNamespace sealNamespace.text text = true → ∃ generation, text = sealKey generation) :
    (∀ generation, raw[sealKey generation]? = none) ∧ raw.listed ⟨sealNamespace, none, newestKeysBound⟩ = [] ∧
    newestGeneration raw.list = .ok none ∨
      ∃ newest rest, raw.listed ⟨sealNamespace, none, newestKeysBound⟩ = sealKey newest :: rest ∧ raw[sealKey newest]?.isSome ∧
        (∀ generation, raw[sealKey generation]?.isSome → generation ≤ newest) ∧ newestGeneration raw.list = .ok (some newest) :=
  newestListed_spec raw sealNamespace SealKey.fromStr
    (fun listed source => "listed key " ++ listed ++ " under the Seal namespace is not a Seal key: " ++ source)
    sealKey SealGeneration.get SealKey.fromStr_ok_iff seal_legal sealKey_lt
    (fun generation => underNamespace_coordinate (sealKey_toList generation) (by decide)) owned

theorem newestSurvivingBatch_spec {raw : RawStore}
    (owned : ∀ text, raw[text]?.isSome → underNamespace walNamespace.text text = true → ∃ batch, text = walKey batch) :
    (∀ batch, raw[walKey batch]? = none) ∧ raw.listed ⟨walNamespace, none, newestKeysBound⟩ = [] ∧
    newestSurvivingBatch raw.list = .ok none ∨
      ∃ newest rest, raw.listed ⟨walNamespace, none, newestKeysBound⟩ = walKey newest :: rest ∧ raw[walKey newest]?.isSome ∧
        (∀ batch, raw[walKey batch]?.isSome → batch ≤ newest) ∧ newestSurvivingBatch raw.list = .ok (some newest) :=
  newestListed_spec raw walNamespace WalKey.fromStr
    (fun listed source => "listed key " ++ listed ++ " under the WAL namespace is not a WAL key: " ++ source)
    walKey BatchId.get WalKey.fromStr_ok_iff wal_legal walKey_lt
    (fun batch => underNamespace_coordinate (walKey_toList batch) (by decide)) owned

theorem durable_keys_canonical :
    (∀ text generation, SealKey.fromStr text = .ok generation ↔ text = sealKey generation) ∧
    (∀ text batch, WalKey.fromStr text = .ok batch ↔ text = walKey batch) ∧
    (∀ text object, TableKey.fromStr text = .ok object ↔ object.InRange ∧ text = tableKey object) ∧
    (∀ generation, ∃ key, ObjectKey.tryFrom (sealKey generation) = .ok key ∧ key.text = sealKey generation) ∧
    (∀ batch, ∃ key, ObjectKey.tryFrom (walKey batch) = .ok key ∧ key.text = walKey batch) ∧
    (∀ object : TableObjectId, object.InRange → ∃ key, ObjectKey.tryFrom (tableKey object) = .ok key ∧ key.text = tableKey object) ∧
    (∀ generation, (∀ batch, WalKey.fromStr (sealKey generation) ≠ .ok batch) ∧
      ∀ object, TableKey.fromStr (sealKey generation) ≠ .ok object) ∧
    (∀ batch, (∀ generation, SealKey.fromStr (walKey batch) ≠ .ok generation) ∧
      ∀ object, TableKey.fromStr (walKey batch) ≠ .ok object) ∧
    (∀ object : TableObjectId, object.InRange → (∀ generation, SealKey.fromStr (tableKey object) ≠ .ok generation) ∧
      ∀ batch, WalKey.fromStr (tableKey object) ≠ .ok batch) ∧
    (∀ a b : SealGeneration, a < b → sealKey b < sealKey a) ∧
    (∀ a b : BatchId, a < b → walKey b < walKey a) ∧
    (∀ raw : RawStore, (∃ generation, raw[sealKey generation]?.isSome) →
      (∀ text, raw[text]?.isSome → underNamespace sealNamespace.text text = true → ∃ generation, text = sealKey generation) →
      ∃ newest rest, raw.listed ⟨sealNamespace, none, newestKeysBound⟩ = sealKey newest :: rest ∧ raw[sealKey newest]?.isSome ∧
        (∀ generation, raw[sealKey generation]?.isSome → generation ≤ newest) ∧ newestGeneration raw.list = .ok (some newest)) ∧
    ∀ raw : RawStore, (∃ batch, raw[walKey batch]?.isSome) →
      (∀ text, raw[text]?.isSome → underNamespace walNamespace.text text = true → ∃ batch, text = walKey batch) →
      ∃ newest rest, raw.listed ⟨walNamespace, none, newestKeysBound⟩ = walKey newest :: rest ∧ raw[walKey newest]?.isSome ∧
        (∀ batch, raw[walKey batch]?.isSome → batch ≤ newest) ∧ newestSurvivingBatch raw.list = .ok (some newest) := by
  refine ⟨SealKey.fromStr_ok_iff, WalKey.fromStr_ok_iff, TableKey.fromStr_ok_iff, seal_legal, wal_legal, table_objectKey, ?_, ?_, ?_,
    sealKey_lt, walKey_lt, ?_, ?_⟩
  · intro generation
    have head := sealKey_head generation
    refine ⟨fun batch parsed => ?_, fun object parsed => ?_⟩
    · rw [(WalKey.fromStr_ok_iff _ _).mp parsed, walKey_head] at head
      cases head
    · obtain ⟨range, same⟩ := (TableKey.fromStr_ok_iff _ _).mp parsed
      rw [same, tableKey_head object range] at head
      cases head
  · intro batch
    have head := walKey_head batch
    refine ⟨fun generation parsed => ?_, fun object parsed => ?_⟩
    · rw [(SealKey.fromStr_ok_iff _ _).mp parsed, sealKey_head] at head
      cases head
    · obtain ⟨range, same⟩ := (TableKey.fromStr_ok_iff _ _).mp parsed
      rw [same, tableKey_head object range] at head
      cases head
  · intro object range
    have head := tableKey_head object range
    refine ⟨fun generation parsed => ?_, fun batch parsed => ?_⟩
    · rw [(SealKey.fromStr_ok_iff _ _).mp parsed, sealKey_head] at head
      cases head
    · rw [(WalKey.fromStr_ok_iff _ _).mp parsed, walKey_head] at head
      cases head
  · rintro raw ⟨generation, held⟩ owned
    rcases newestGeneration_spec owned with ⟨bare, _⟩ | found
    · rw [bare generation] at held
      cases held
    · exact found
  · rintro raw ⟨batch, held⟩ owned
    rcases newestSurvivingBatch_spec owned with ⟨bare, _⟩ | found
    · rw [bare batch] at held
      cases held
    · exact found

def laterGeneration : SealGeneration := ⟨.two⟩

def twoSeals : RawStore := ((∅ : RawStore).insert (sealKey .genesis) []).insert (sealKey laterGeneration) []

theorem durable_keys_canonical_two : newestGeneration twoSeals.list = .ok (some laterGeneration) := by
  have held : ∀ text, twoSeals[text]?.isSome → text = sealKey .genesis ∨ text = sealKey laterGeneration := by
    intro text here
    rw [twoSeals, OrdMap.get_insert, OrdMap.get_insert] at here
    grind
  have later : twoSeals[sealKey laterGeneration]?.isSome := by
    rw [twoSeals, OrdMap.get_insert, if_pos rfl]
    rfl
  obtain ⟨newest, _, _, here, most, listed⟩ := durable_keys_canonical.2.2.2.2.2.2.2.2.2.2.2.1 twoSeals ⟨laterGeneration, later⟩
    fun text here _ => (held text here).elim (fun same => ⟨_, same⟩) fun same => ⟨_, same⟩
  have parsed := (SealKey.fromStr_ok_iff (sealKey newest) newest).mpr rfl
  rcases held _ here with same | same
  · rw [same, (SealKey.fromStr_ok_iff _ .genesis).mpr rfl] at parsed
    cases parsed
    exact absurd (most laterGeneration later) (by decide)
  · rw [same, (SealKey.fromStr_ok_iff _ laterGeneration).mpr rfl] at parsed
    cases parsed
    exact listed

structure RawStore.Represents [Rkyv] (raw : RawStore) (store : ObjectStore) : Prop where
  seals : ∀ generation, raw[sealKey generation]?.isSome ↔ store.seals[generation]?.isSome
  wal : ∀ batch, raw[walKey batch]?.isSome ↔ store.wal[batch]?.isSome
  ownedSeals : ∀ text, raw[text]?.isSome → underNamespace sealNamespace.text text = true → ∃ generation, text = sealKey generation
  ownedWal : ∀ text, raw[text]?.isSome → underNamespace walNamespace.text text = true → ∃ batch, text = walKey batch

theorem discovery_refines_store [Rkyv] (store : ObjectStore) (raw : RawStore) (represents : raw.Represents store) :
    (∃ newest, newestGeneration raw.list = .ok newest ∧ (store.execute .listSeals).2 = .newestSeal newest) ∧
    ∃ newest, newestSurvivingBatch raw.list = .ok newest ∧ (store.execute .listWal).2 = .newestWal newest := by
  constructor
  · rcases newestGeneration_spec represents.ownedSeals with ⟨bare, _, listed⟩ | ⟨newest, _, _, here, most, listed⟩
    · exact ⟨none, listed, congrArg _ (OrdMap.greatest_unheld represents.seals bare)⟩
    · exact ⟨some newest, listed, congrArg _ (OrdMap.greatest_held represents.seals here fun k there =>
        Nat.isLE_compare.mpr (most k there))⟩
  · rcases newestSurvivingBatch_spec represents.ownedWal with ⟨bare, _, listed⟩ | ⟨newest, _, _, here, most, listed⟩
    · exact ⟨none, listed, congrArg _ (OrdMap.greatest_unheld represents.wal bare)⟩
    · exact ⟨some newest, listed, congrArg _ (OrdMap.greatest_held represents.wal here fun k there =>
        Nat.isLE_compare.mpr (most k there))⟩

theorem sealKey_injective {a b : SealGeneration} (same : sealKey a = sealKey b) : a = b := by
  have parsed := (SealKey.fromStr_ok_iff (sealKey a) a).mpr rfl
  rw [same, (SealKey.fromStr_ok_iff (sealKey b) b).mpr rfl] at parsed
  exact (Except.ok.inj parsed).symm

attribute [local instance] plainRkyv

def twoSealed (sealed : Seal) : ObjectStore :=
  { ObjectStore.empty with seals := (ObjectStore.empty.seals.insert .genesis sealed).insert laterGeneration sealed }

theorem two_represents (sealed : Seal) : twoSeals.Represents (twoSealed sealed) := by
  have held : ∀ text, twoSeals[text]?.isSome ↔ text = sealKey .genesis ∨ text = sealKey laterGeneration := by
    simp only [twoSeals, OrdMap.get_insert]
    grind
  have apart : ∀ generation batch, walKey batch ≠ sealKey generation := by
    intro generation batch same
    have head := walKey_head batch
    rw [same, sealKey_head] at head
    cases head
  constructor
  · intro generation
    rw [held, twoSealed, OrdMap.get_insert, OrdMap.get_insert]
    grind [ObjectStore.empty, sealKey_injective]
  · intro batch
    rw [held]
    simp [apart, twoSealed, ObjectStore.empty]
  · intro text here _
    rcases (held text).mp here with same | same <;> exact ⟨_, same⟩
  · intro text here under
    rcases (held text).mp here with rfl | rfl <;> exact absurd under (by decide +kernel)

theorem discovery_refines_store_two : ∃ store newest, twoSeals.Represents store ∧ newestGeneration twoSeals.list = .ok newest ∧
    (store.execute .listSeals).2 = .newestSeal newest := by
  have represents := two_represents ⟨⟨List.replicate 16 1, by decide, by decide⟩, .genesis, .genesis, .empty, .empty⟩
  obtain ⟨newest, listed, answered⟩ := (discovery_refines_store _ _ represents).1
  exact ⟨_, newest, represents, listed, answered⟩

theorem partition_id_one_spelling :
    (∀ partition : PartitionId, PartitionId.fromStr partition.display = .ok (.ok partition)) ∧
    ∀ input : String, ∃ outcome, PartitionId.fromStr input = .ok outcome ∧
      (∀ partition, outcome = .ok partition ↔ input = partition.display) ∧
      ∀ partition, outcome = .ok partition →
        partition.octets ≠ List.replicate 16 0 ∧ (utf8Bytes input).length = 36 ∧ input.toList.length = 36 ∧
        ∀ (position : Nat) (character : Char), input.toList[position]? = some character →
          if position = 8 ∨ position = 13 ∨ position = 18 ∨ position = 23 then character = '-'
          else character ∈ "0123456789abcdef".toList := by
  refine ⟨fun partition => ?_, fun input => ?_⟩
  · obtain ⟨outcome, parsed, spelled⟩ := PartitionId.fromStr_spec partition.display
    rw [parsed, (spelled partition).mpr rfl]
  · obtain ⟨outcome, parsed, spelled⟩ := PartitionId.fromStr_spec input
    refine ⟨outcome, parsed, spelled, fun partition accepted => ?_⟩
    obtain rfl := (spelled partition).mp accepted
    refine ⟨partition.nonNil, partition.display_length, partition.display_chars, fun position character held => ?_⟩
    have placed := partition.display_hyphenated position character held
    rw [Hyphenated] at placed
    simp only [isHyphenPosition_iff] at placed
    exact placed

theorem partition_id_one_spelling_least :
    ∃ partition, PartitionId.fromStr "00000000-0000-0000-0000-00000000000a" = .ok (.ok partition) ∧
      PartitionId.fromStr "00000000-0000-0000-0000-00000000000A" = .ok (.error .malformed) ∧ partition.octets.getLast? = some 10 := by
  have least : "00000000-0000-0000-0000-00000000000a" = PartitionId.display ⟨List.replicate 15 0 ++ [10], by decide, by decide⟩ := by
    decide +kernel
  refine ⟨⟨List.replicate 15 0 ++ [10], by decide, by decide⟩, ?_, by decide +kernel, rfl⟩
  rw [least]
  exact partition_id_one_spelling.1 _

end StromDB
