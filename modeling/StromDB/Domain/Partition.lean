import StromDB.Domain.Seal

namespace StromDB

open Checked List

variable (partition : PartitionId) (position : Nat) (octets : List UInt8)

inductive PartitionIdError where
  | malformed
  | nil
deriving DecidableEq, Repr

def PartitionId.tryFromOctets (octets : List UInt8) (sixteen : octets.length = 16) : Except PartitionIdError PartitionId :=
  if nil : octets = List.replicate 16 0 then .error .nil else .ok ⟨octets, sixteen, nil⟩

def HYPHEN : UInt8 := 45

def hexNibble (character : UInt8) : Option UInt8 :=
  if 48 ≤ character ∧ character ≤ 57 then some (character - 48)
  else if 97 ≤ character ∧ character ≤ 102 then some (character - 97 + 10)
  else none

def isHyphenPosition (position : Nat) : Bool := position = 8 || position = 13 || position = 18 || position = 23

def octetOf (high nibble : UInt8) : Option UInt8 :=
  if high.toNat * 16 + nibble.toNat < 2 ^ 8 then some (high * 16 + nibble) else none

def octetLoop : List UInt8 → Nat → List UInt8 → Option UInt8 → Checked (Except PartitionIdError (List UInt8 × Option UInt8))
  | [], _, octets, highNibble => pure (.ok (octets, highNibble))
  | character :: rest, position, octets, highNibble =>
    if isHyphenPosition position then
      if character ≠ HYPHEN then pure (.error .malformed) else octetLoop rest (position + 1) octets highNibble
    else
      match hexNibble character with
      | none => pure (.error .malformed)
      | some nibble =>
        match highNibble with
        | none => octetLoop rest (position + 1) octets (some nibble)
        | some high => do
          let octet ← expect "two hexadecimal nibbles always fit in one octet" (octetOf high nibble)
          require (octets.length < 16) "a canonical UUID contains exactly sixteen octets"
          octetLoop rest (position + 1) (octets ++ [octet]) none

def PartitionId.fromStr (input : String) : Checked (Except PartitionIdError PartitionId) :=
  let characters := Text.utf8Bytes input
  if characters.length ≠ 36 then pure (.error .malformed)
  else do
    match ← octetLoop characters 0 [] none with
    | .error error => pure (.error error)
    | .ok (octets, highNibble) =>
      if sixteen : highNibble = none ∧ octets.length = 16 then pure (PartitionId.tryFromOctets octets sixteen.2)
      else pure (.error .malformed)

def hexByte (nibble : Nat) : UInt8 := UInt8.ofNat (hexDigit nibble).toNat

theorem hexNibble_hexByte : ∀ nibble < 16, hexNibble (hexByte nibble) = some (UInt8.ofNat nibble) := by decide

theorem hexByte_toNat : ∀ nibble < 16, (hexByte nibble).toNat = if nibble < 10 then 48 + nibble else 87 + nibble := by decide

theorem hexNibble_eq_some_iff {character nibble : UInt8} :
    hexNibble character = some nibble ↔ nibble.toNat < 16 ∧ character = hexByte nibble.toNat := by
  constructor
  · intro found
    have number : nibble.toNat < 16 ∧ character.toNat = if nibble.toNat < 10 then 48 + nibble.toNat else 87 + nibble.toNat := by
      unfold hexNibble at found
      split at found
      · rename_i digit
        cases found
        have least : 48 ≤ character.toNat := digit.1
        have most : character.toNat ≤ 57 := digit.2
        rw [UInt8.toNat_sub_of_le _ _ digit.1, show (48 : UInt8).toNat = 48 from rfl]
        split <;> omega
      split at found
      · rename_i letter
        cases found
        have least : 97 ≤ character.toNat := letter.1
        have most : character.toNat ≤ 102 := letter.2
        rw [UInt8.toNat_add, UInt8.toNat_sub_of_le _ _ letter.1, show (97 : UInt8).toNat = 97 from rfl,
          show (10 : UInt8).toNat = 10 from rfl, Nat.mod_eq_of_lt (by omega)]
        split <;> omega
      · cases found
    refine ⟨number.1, UInt8.toNat_inj.mp ?_⟩
    rw [hexByte_toNat _ number.1, number.2]
  · rintro ⟨small, rfl⟩
    rw [hexNibble_hexByte _ small, UInt8.ofNat_toNat]

def place (index : Nat) : Nat := 2 * index + ([4, 6, 8, 10].filter fun hyphen => hyphen < index).length

def separator (index : Nat) : List UInt8 := if index = 4 ∨ index = 6 ∨ index = 8 ∨ index = 10 then [HYPHEN] else []

theorem isHyphenPosition_iff : isHyphenPosition position = true ↔ position = 8 ∨ position = 13 ∨ position = 18 ∨ position = 23 := by
  simp [isHyphenPosition, or_assoc]

theorem place_hyphen : ∀ index < 16, isHyphenPosition (place index) = !(separator index).isEmpty := by decide

theorem place_octet : ∀ index < 16, isHyphenPosition (place index + (separator index).length) = false ∧
    isHyphenPosition (place index + (separator index).length + 1) = false ∧
    place index + (separator index).length + 2 = place (index + 1) := by decide

def octetDigits (octet : UInt8) : List UInt8 := [hexByte (octet.toNat / 16), hexByte (octet.toNat % 16)]

def spelledFrom : Nat → List UInt8 → List UInt8
  | _, [] => []
  | index, octet :: rest => separator index ++ octetDigits octet ++ spelledFrom (index + 1) rest

theorem octetOf_nibbles {high low : UInt8} (highSmall : high.toNat < 16) (lowSmall : low.toNat < 16) :
    ∃ octet, octetOf high low = some octet ∧ octet.toNat / 16 = high.toNat ∧ octet.toNat % 16 = low.toNat := by
  have fits : high.toNat * 16 + low.toNat < 2 ^ 8 := by omega
  refine ⟨high * 16 + low, by rw [octetOf, if_pos fits], ?_⟩
  have number : (high * 16 + low).toNat = high.toNat * 16 + low.toNat := by
    rw [UInt8.toNat_add, UInt8.toNat_mul, show (16 : UInt8).toNat = 16 from rfl]
    omega
  omega

theorem octetLoop_separator {index : Nat} (inside : index < 16) (octets hyphen rest : List UInt8)
    (aligned : hyphen.length = (separator index).length) :
    octetLoop (hyphen ++ rest) (place index) octets none =
      if hyphen = separator index then octetLoop rest (place index + (separator index).length) octets none
      else .ok (.error .malformed) := by
  have position := place_hyphen index inside
  unfold separator at aligned position ⊢
  split at aligned
  · rename_i hyphened
    obtain ⟨character, rfl⟩ := length_eq_one_iff.mp aligned
    simp only [if_pos hyphened, isEmpty_cons, Bool.not_false] at position
    rw [singleton_append, octetLoop, if_pos position, if_pos hyphened]
    by_cases same : character = HYPHEN
    · simp [same]
    · simp [same]
  · rename_i plain
    rw [length_eq_zero_iff.mp aligned, if_neg plain]
    simp

theorem octetLoop_digits (rest : List UInt8) (first second : UInt8) (room : octets.length < 16)
    (here : isHyphenPosition position = false) (next : isHyphenPosition (position + 1) = false) :
    (∃ octet, [first, second] = octetDigits octet ∧
      octetLoop (first :: second :: rest) position octets none = octetLoop rest (position + 2) (octets ++ [octet]) none) ∨
    (∀ octet, [first, second] ≠ octetDigits octet) ∧
      octetLoop (first :: second :: rest) position octets none = .ok (.error .malformed) := by
  have digits : ∀ octet : UInt8, [first, second] = octetDigits octet →
      hexNibble first = some (UInt8.ofNat (octet.toNat / 16)) ∧ hexNibble second = some (UInt8.ofNat (octet.toNat % 16)) := by
    intro octet same
    have bounded := octet.toNat_lt
    cases same
    exact ⟨hexNibble_hexByte _ (by omega), hexNibble_hexByte _ (by omega)⟩
  cases high : hexNibble first with
  | none =>
    right
    refine ⟨fun octet same => ?_, ?_⟩
    · rw [(digits octet same).1] at high
      cases high
    · simp [octetLoop, here, high]
  | some highNibble =>
    cases low : hexNibble second with
    | none =>
      right
      refine ⟨fun octet same => ?_, ?_⟩
      · rw [(digits octet same).2] at low
        cases low
      · simp [octetLoop, here, high, next, low]
    | some lowNibble =>
      left
      obtain ⟨highSmall, rfl⟩ := hexNibble_eq_some_iff.mp high
      obtain ⟨lowSmall, rfl⟩ := hexNibble_eq_some_iff.mp low
      obtain ⟨octet, made, quotient, remainder⟩ := octetOf_nibbles highSmall lowSmall
      refine ⟨octet, by rw [octetDigits, quotient, remainder], ?_⟩
      simp [octetLoop, here, high, next, low, made, expect, require, if_pos room]

theorem octetDigits_injective {first second : UInt8} (same : octetDigits first = octetDigits second) : first = second := by
  have digit : ∀ a b, a < 16 → b < 16 → hexByte a = hexByte b → a = b := by
    intro a b small little equal
    have number := congrArg UInt8.toNat equal
    rw [hexByte_toNat a small, hexByte_toNat b little] at number
    split at number <;> split at number <;> omega
  have bounded := first.toNat_lt
  have limited := second.toNat_lt
  obtain ⟨high, rest⟩ := cons.inj same
  obtain ⟨low, _⟩ := cons.inj rest
  have quotient := digit _ _ (by omega) (by omega) high
  have remainder := digit _ _ (by omega) (by omega) low
  exact UInt8.toNat_inj.mp (by omega)

theorem place_within : ∀ index < 16, place (index + 1) ≤ 36 := by decide

theorem spelledFrom_cons_eq (index : Nat) (hyphen rest later : List UInt8) (first second octet : UInt8)
    (aligned : hyphen.length = (separator index).length)
    (same : hyphen ++ first :: second :: rest = spelledFrom index (octet :: later)) :
    hyphen = separator index ∧ [first, second] = octetDigits octet ∧ rest = spelledFrom (index + 1) later := by
  rw [spelledFrom, append_assoc] at same
  obtain ⟨front, back⟩ := append_inj same aligned
  obtain ⟨digits, tail⟩ := append_inj (show [first, second] ++ rest = _ from back) rfl
  exact ⟨front, digits, tail⟩

theorem exists_octet_text (index : Nat) (characters : List UInt8) (long : (separator index).length + 2 ≤ characters.length) :
    ∃ hyphen first second rest, characters = hyphen ++ first :: second :: rest ∧ hyphen.length = (separator index).length := by
  have split := take_append_drop (separator index).length characters
  have dropped : (characters.drop (separator index).length).length = characters.length - (separator index).length := length_drop
  match shape : characters.drop (separator index).length with
  | [] =>
    rw [shape, length_nil] at dropped
    omega
  | [_] =>
    rw [shape, length_singleton] at dropped
    omega
  | first :: second :: rest =>
    rw [shape] at split
    exact ⟨_, first, second, rest, split.symm, by rw [length_take]; omega⟩

def Reads (left index : Nat) (octets characters : List UInt8) (outcome : Except PartitionIdError (List UInt8 × Option UInt8)) : Prop :=
  ∀ value, outcome = .ok value ↔
    ∃ later, later.length = left ∧ characters = spelledFrom index later ∧ value = (octets ++ later, none)

theorem Reads.malformed (left index : Nat) (octets characters : List UInt8)
    (unspelled : ∀ octet later, characters ≠ spelledFrom index (octet :: later)) :
    Reads (left + 1) index octets characters (.error .malformed) := by
  intro value
  constructor
  · nofun
  · rintro ⟨later, size, same, _⟩
    obtain ⟨octet, rest, rfl⟩ := exists_cons_of_length_eq_add_one size
    exact absurd same (unspelled octet rest)

theorem Reads.octet {left index : Nat} {octets hyphen rest : List UInt8} {first second octet : UInt8}
    {outcome : Except PartitionIdError (List UInt8 × Option UInt8)} (front : hyphen = separator index)
    (digits : [first, second] = octetDigits octet) (reads : Reads left (index + 1) (octets ++ [octet]) rest outcome) :
    Reads (left + 1) index octets (hyphen ++ first :: second :: rest) outcome := by
  intro value
  rw [reads value]
  constructor
  · rintro ⟨later, size, rfl, rfl⟩
    refine ⟨octet :: later, by rw [length_cons, size], ?_, by simp⟩
    rw [spelledFrom, ← digits, front, append_assoc]
    rfl
  · rintro ⟨later, size, same, rfl⟩
    obtain ⟨other, later, rfl⟩ := exists_cons_of_length_eq_add_one size
    obtain ⟨_, again, tail⟩ := spelledFrom_cons_eq index hyphen rest later first second other (by rw [front]) same
    have equal := octetDigits_injective (digits.symm.trans again)
    subst equal
    exact ⟨later, Nat.succ_inj.mp size, tail, by simp⟩

theorem octetLoop_reads (left : Nat) : ∀ (index : Nat) (octets characters : List UInt8), index + left = 16 → octets.length = index →
    characters.length + place index = 36 →
    ∃ outcome, octetLoop characters (place index) octets none = .ok outcome ∧ Reads left index octets characters outcome := by
  induction left with
  | zero =>
    intro index octets characters last written long
    have ends : index = 16 := last
    rw [ends, show place 16 = 36 from rfl] at long
    have empty : characters = [] := eq_nil_of_length_eq_zero (by omega)
    subst empty
    refine ⟨.ok (octets, none), rfl, fun value => ?_⟩
    constructor
    · intro same
      cases same
      exact ⟨[], rfl, rfl, by rw [append_nil]⟩
    · rintro ⟨later, size, _, rfl⟩
      rw [eq_nil_of_length_eq_zero size, append_nil]
  | succ left ih =>
    intro index octets characters last written long
    have inside : index < 16 := by omega
    obtain ⟨here, following, forward⟩ := place_octet index inside
    have within := place_within index inside
    obtain ⟨hyphen, first, second, rest, rfl, aligned⟩ := exists_octet_text index characters (by omega)
    have shape := fun octet later => spelledFrom_cons_eq index hyphen rest later first second octet aligned
    rw [octetLoop_separator inside octets hyphen _ aligned]
    split
    case isFalse wrong => exact ⟨_, rfl, Reads.malformed _ _ _ _ fun octet later same => wrong (shape octet later same).1⟩
    case isTrue right =>
      rcases octetLoop_digits (place index + (separator index).length) octets rest first second (by omega) here following with
        ⟨octet, digits, stepped⟩ | ⟨undigits, stepped⟩
      · rw [stepped, forward]
        simp only [length_append, length_cons] at long
        obtain ⟨outcome, ended, reads⟩ := ih (index + 1) (octets ++ [octet]) rest (by omega) (by simp [written]) (by omega)
        exact ⟨outcome, ended, reads.octet right digits⟩
      · exact ⟨_, stepped, Reads.malformed _ _ _ _ fun octet later same => undigits octet (shape octet later same).2.1⟩

def displayOctet (octet : UInt8) (index : Nat) : List Char :=
  (if index = 4 ∨ index = 6 ∨ index = 8 ∨ index = 10 then ['-'] else []) ++ [hexDigit (octet.toNat / 16), hexDigit (octet.toNat % 16)]

theorem displayOctet_ascii {octet : UInt8} {index : Nat} : ∀ c ∈ displayOctet octet index, c.toNat < 128 := by
  have digit : ∀ nibble < 16, (hexDigit nibble).toNat < 128 := by decide
  have bounded := octet.toNat_lt
  intro c member
  rcases mem_append.mp member with hyphen | digits
  · split at hyphen
    · rw [mem_singleton.mp hyphen]
      decide
    · cases hyphen
  · simp only [mem_cons, not_mem_nil, or_false] at digits
    rcases digits with rfl | rfl
    · exact digit _ (by omega)
    · exact digit _ (by omega)

theorem displayOctet_bytes (octet : UInt8) (index : Nat) :
    (displayOctet octet index).map (fun c => UInt8.ofNat c.toNat) = separator index ++ octetDigits octet := by
  rw [displayOctet, separator, octetDigits, map_append]
  split <;> rfl

theorem PartitionId.display_eq :
    partition.display = String.ofList (partition.octets.zipIdx.flatMap fun (octet, index) => displayOctet octet index) := rfl

theorem spelledFrom_eq : ∀ index, spelledFrom index octets =
    (octets.zipIdx index).flatMap fun (octet, index) => separator index ++ octetDigits octet := by
  induction octets with
  | nil => intro _; rfl
  | cons octet rest ih =>
    intro index
    rw [spelledFrom, ih, zipIdx_cons, flatMap_cons]

theorem PartitionId.display_ascii : Text.utf8Bytes partition.display = partition.display.toList.map fun c => UInt8.ofNat c.toNat := by
  rw [PartitionId.display_eq, String.toList_ofList, Text.utf8Bytes_ofList_ascii]
  intro c member
  obtain ⟨⟨octet, index⟩, _, within⟩ := mem_flatMap.mp member
  exact displayOctet_ascii c within

theorem PartitionId.display_bytes : Text.utf8Bytes partition.display = spelledFrom 0 partition.octets := by
  rw [PartitionId.display_ascii, PartitionId.display_eq, String.toList_ofList, map_flatMap, spelledFrom_eq]
  simp only [displayOctet_bytes]

theorem spelledFrom_length : ∀ index, index + octets.length ≤ 16 →
    (spelledFrom index octets).length + place index = place (index + octets.length) := by
  induction octets with
  | nil => intro index _; simp [spelledFrom]
  | cons octet rest ih =>
    intro index within
    rw [length_cons] at within ⊢
    have later := ih (index + 1) (by omega)
    have forward := (place_octet index (by omega)).2.2
    rw [spelledFrom, length_append, length_append, show (octetDigits octet).length = 2 from rfl,
      ← Nat.add_assoc, Nat.add_right_comm index, ← later]
    omega

theorem PartitionId.display_length : (Text.utf8Bytes partition.display).length = 36 := by
  have counted := spelledFrom_length partition.octets 0 (by simp [partition.sixteen])
  rw [partition.sixteen] at counted
  rw [partition.display_bytes]
  exact counted

def Hyphenated (character : Char) (position : Nat) : Prop :=
  if isHyphenPosition position then character = '-' else character ∈ "0123456789abcdef".toList

theorem Hyphenated.hyphen (placed : isHyphenPosition position = true) : Hyphenated '-' position := by
  rw [Hyphenated, if_pos placed]

theorem Hyphenated.digit (nibble : Nat) (placed : isHyphenPosition position = false) (small : nibble < 16) :
    Hyphenated (hexDigit nibble) position := by
  have digits : ∀ nibble < 16, hexDigit nibble ∈ "0123456789abcdef".toList := by decide
  rw [Hyphenated, placed, if_neg Bool.false_ne_true]
  exact digits nibble small

theorem displayOctet_hyphenated {octet : UInt8} {index : Nat} (inside : index < 16) :
    ∀ pair ∈ (displayOctet octet index).zipIdx (place index), Hyphenated pair.1 pair.2 := by
  have bounded := octet.toNat_lt
  have position := place_hyphen index inside
  obtain ⟨here, following, _⟩ := place_octet index inside
  intro pair member
  unfold separator at position here following
  unfold displayOctet at member
  split at position
  · rename_i hyphened
    simp only [if_pos hyphened, singleton_append, zipIdx_cons, zipIdx_nil, mem_cons, not_mem_nil, or_false] at member
    rw [if_pos hyphened] at here following
    rcases member with rfl | rfl | rfl
    · exact Hyphenated.hyphen _ position
    · exact Hyphenated.digit _ _ here (by omega)
    · exact Hyphenated.digit _ _ following (by omega)
  · rename_i plain
    simp only [if_neg plain, nil_append, zipIdx_cons, zipIdx_nil, mem_cons, not_mem_nil, or_false] at member
    rw [if_neg plain] at here following
    rcases member with rfl | rfl
    · exact Hyphenated.digit _ _ here (by omega)
    · exact Hyphenated.digit _ _ following (by omega)

theorem displayFrom_hyphenated : ∀ index, index + octets.length ≤ 16 →
    ∀ pair ∈ ((octets.zipIdx index).flatMap fun (octet, index) => displayOctet octet index).zipIdx (place index),
      Hyphenated pair.1 pair.2 := by
  induction octets with
  | nil => intro _ _ _ member; cases member
  | cons octet rest ih =>
    intro index within pair member
    rw [length_cons] at within
    have size : place index + (displayOctet octet index).length = place (index + 1) := by
      have bytes := congrArg length (displayOctet_bytes octet index)
      rw [length_map, length_append, show (octetDigits octet).length = 2 from rfl] at bytes
      rw [bytes, ← (place_octet index (by omega)).2.2, Nat.add_assoc]
    rw [zipIdx_cons, flatMap_cons, zipIdx_append, size] at member
    rcases mem_append.mp member with first | later
    · exact displayOctet_hyphenated (by omega) pair first
    · exact ih (index + 1) (by omega) pair later

theorem PartitionId.display_hyphenated (character : Char)
    (held : partition.display.toList[position]? = some character) : Hyphenated character position := by
  rw [PartitionId.display_eq, String.toList_ofList] at held
  exact displayFrom_hyphenated partition.octets 0 (by simp [partition.sixteen]) (character, position)
    (mem_zipIdx_iff_getElem?.mpr held)

theorem PartitionId.display_chars : partition.display.toList.length = 36 := by
  have bytes := partition.display_length
  rw [partition.display_ascii, length_map] at bytes
  exact bytes

theorem PartitionId.tryFromOctets_ok_iff (sixteen : octets.length = 16) (partition : PartitionId) :
    PartitionId.tryFromOctets octets sixteen = .ok partition ↔ octets = partition.octets := by
  unfold PartitionId.tryFromOctets
  split
  · rename_i nil
    constructor
    · nofun
    · intro same
      exact absurd (same.symm.trans nil) partition.nonNil
  constructor
  · intro same
    cases same
    rfl
  · intro same
    cases same
    rfl

theorem PartitionId.display_reads {input : String} {outcome : Except PartitionIdError (List UInt8 × Option UInt8)}
    (reads : Reads 16 0 [] (Text.utf8Bytes input) outcome) (partition : PartitionId) :
    outcome = .ok (partition.octets, none) ↔ input = partition.display := by
  rw [reads]
  constructor
  · rintro ⟨octets, _, spelled, same⟩
    refine Text.utf8Bytes_injective ?_
    rw [spelled, partition.display_bytes, (Prod.mk.inj same).1, nil_append]
  · rintro rfl
    exact ⟨partition.octets, partition.sixteen, partition.display_bytes, rfl⟩

theorem PartitionId.fromStr_spec (input : String) :
    ∃ outcome, PartitionId.fromStr input = .ok outcome ∧ ∀ partition, outcome = .ok partition ↔ input = partition.display := by
  rw [PartitionId.fromStr]
  split
  · rename_i short
    refine ⟨.error .malformed, rfl, fun partition => ⟨nofun, fun same => absurd ?_ short⟩⟩
    rw [same, partition.display_length]
  rename_i long
  obtain ⟨outcome, ended, reads⟩ := octetLoop_reads 16 0 [] (Text.utf8Bytes input) rfl rfl (not_not.mp long)
  have spelled := PartitionId.display_reads reads
  rw [show octetLoop (Text.utf8Bytes input) 0 [] none = .ok outcome from ended]
  cases outcome with
  | error error => exact ⟨.error error, rfl, fun partition => ⟨nofun, fun same => nomatch (spelled partition).mpr same⟩⟩
  | ok value =>
    obtain ⟨octets, sixteen, _, rfl⟩ := (reads value).mp rfl
    refine ⟨PartitionId.tryFromOctets octets sixteen, by simp [sixteen], fun partition => ?_⟩
    rw [PartitionId.tryFromOctets_ok_iff, ← spelled partition]
    simp

end StromDB
