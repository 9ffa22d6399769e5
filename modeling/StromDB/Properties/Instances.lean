import StromDB.Domain.Codec
import StromDB.Lib.Patch

namespace StromDB

-- The laws of the libraries can be met: here a timestamp is its nanoseconds and
-- an archive is as long as its estimate. The runs on fixed inputs use these.
abbrev plainJiff : Jiff where
  Timestamp := Int
  decEq := inferInstance
  asNanosecond := id
  fromNanosecond := some
  fromNanosecond_eq_some _ _ := Option.some_inj

attribute [local instance] plainJiff

abbrev plainRkyv : Rkyv where
  toJiff := plainJiff
  walLength object := WAL_RUN_FIXED_ENCODED_BYTES_MAX + (object.facts.map OperationFact.estimatedEncodedBytes).sum
  sealLength sealed := 64 * (1 + sealed.tables.length)
  tableLength object := SST_ARCHIVE_FIXED_BYTES_MAX + object.rows.estimatedEncodedBytes
  directoryRowSize := LEDGER_DELETE_ROW_ENCODED_BYTES_MAX
  ledgerRowSize := LEDGER_DELETE_ROW_ENCODED_BYTES_MAX
  walLength_le _ := Nat.le_refl _
  sealLength_le sealed few := by
    simp only [PARTITION_BOOTSTRAP_OBJECTS_MAX_V2, SEAL_ENCODED_BYTES_MAX] at few ⊢
    omega
  tableLength_positive _ := Nat.lt_of_lt_of_le (by decide) (Nat.le_add_right SST_ARCHIVE_FIXED_BYTES_MAX _)
  tableLength_le _ := Nat.le_refl _
  directoryRowSize_le := by decide
  ledgerRowSize_le := Nat.le_refl _

end StromDB
