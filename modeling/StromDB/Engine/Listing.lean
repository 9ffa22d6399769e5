import StromDB.Domain.Keys
import StromDB.Protocol.Suffix

namespace StromDB

open Checked Text List

def BACKSLASH : Char := Char.ofNat 92
def QUOTE : Char := Char.ofNat 39
def DOUBLE_QUOTE : Char := Char.ofNat 34

def debugCharacter (quote c : Char) : Chars :=
  if c = quote ∨ c = BACKSLASH then [BACKSLASH, c]
  else if c.toNat = 0 then [BACKSLASH, '0']
  else if c.toNat = 9 then [BACKSLASH, 't']
  else if c.toNat = 10 then [BACKSLASH, 'n']
  else if c.toNat = 13 then [BACKSLASH, 'r']
  else if c.toNat < 32 ∨ c.toNat = 127 then BACKSLASH :: "u\x7b".toList ++ Nat.toDigits 16 c.toNat ++ "\x7d".toList
  else [c]

def debugText (text : String) : String :=
  String.ofList (DOUBLE_QUOTE :: text.toList.flatMap (debugCharacter DOUBLE_QUOTE) ++ [DOUBLE_QUOTE])

def ObjectKeyError.toText : ObjectKeyError → String
  | .empty => "object key is empty"
  | .tooLong bytesActual => "object key is " ++ toString bytesActual ++ " bytes; the bound is 1024"
  | .forbiddenCharacter character =>
    "object key contains forbidden character " ++ String.ofList (QUOTE :: debugCharacter QUOTE character ++ [QUOTE])
  | .emptySegment => "object key contains an empty segment"
  | .relativeSegment => "object key contains a `.` or `..` segment"

inductive StoreContradiction where
  | oversizedObject (key : String) (bytesMax bytesActual : Nat)
  | foreignKey (listed detail : String)
  | unorderedList (previous listed : String)
deriving DecidableEq, Repr

def StoreContradiction.toText : StoreContradiction → String
  | .oversizedObject key bytesMax bytesActual =>
    "object " ++ key ++ " is " ++ toString bytesActual ++ " bytes; the bound is " ++ toString bytesMax
  | .foreignKey listed detail => "listed key " ++ debugText listed ++ " is not canonical: " ++ detail
  | .unorderedList previous listed => "listing returned " ++ listed ++ " after " ++ previous

inductive StoreError where
  | retryable (detail : String)
  | rejected (detail : String)
  | contradiction (contradiction : StoreContradiction)
deriving DecidableEq, Repr

inductive BackendErrorKind where
  | notFound
  | alreadyExists
  | precondition
  | permissionDenied
  | unauthenticated
  | notSupported
  | notImplemented
  | invalidPath
  | unknownConfigurationKey
  | other
deriving DecidableEq, Repr

structure BackendError where
  kind : BackendErrorKind
  detail : String
deriving DecidableEq, Repr

def mapOperationError (source : BackendError) : StoreError :=
  match source.kind with
  | .permissionDenied | .unauthenticated | .notSupported | .notImplemented | .invalidPath | .unknownConfigurationKey =>
    .rejected source.detail
  | _ => .retryable source.detail

def typedStoreError : StoreError → TypedStoreError
  | .retryable detail => .retryable detail
  | .rejected detail => .rejected detail
  | .contradiction contradiction => .contradiction contradiction.toText

def LIST_KEYS_MAX : Nat := 1000

@[ext] structure KeysBound where
  get : Nat
  positive : 0 < get
  bounded : get ≤ LIST_KEYS_MAX

instance : DecidableEq KeysBound := fun a b => decidable_of_iff' (a.get = b.get) KeysBound.ext_iff

structure ListPageRequest where
  root : ObjectKey
  startExclusive : Option ObjectKey
  keysMax : KeysBound
deriving DecidableEq

structure ListPage where
  keys : List ObjectKey
  continuation : Option ObjectKey
deriving DecidableEq

def parseListedKey (location : String) : Except StoreError ObjectKey :=
  (ObjectKey.tryFrom location).mapError fun source => .contradiction (.foreignKey location source.toText)

def listLoop (startExclusive : Option ObjectKey) (keysMax : Nat) : List ObjectKey → List (Except BackendError String) →
    Except StoreError (List ObjectKey × Bool)
  | keys, [] => .ok (keys, false)
  | keys, entry :: rest => do
    let location ← entry.mapError mapOperationError
    let listed ← parseListedKey location
    match keys.getLast?.or startExclusive with
    | some previous =>
      if listed.text ≤ previous.text then .error (.contradiction (.unorderedList previous.text listed.text))
      else if keys.length = keysMax then .ok (keys, true)
      else listLoop startExclusive keysMax (keys ++ [listed]) rest
    | none =>
      if keys.length = keysMax then .ok (keys, true)
      else listLoop startExclusive keysMax (keys ++ [listed]) rest

def listPage (backend : ListPageRequest → List (Except BackendError String)) (request : ListPageRequest) :
    Except StoreError ListPage := do
  let (keys, truncated) ← listLoop request.startExclusive request.keysMax.get [] (backend request)
  .ok ⟨keys, if truncated then keys.getLast? else none⟩

theorem parseListedKey_text (key : ObjectKey) : parseListedKey key.text = .ok key := by
  rw [parseListedKey, mapError_ok_iff, ObjectKey.tryFrom_ok_iff]

theorem listLoop_ascending (startExclusive : Option ObjectKey) (keysMax : Nat) (listed : List ObjectKey) : ∀ keys : List ObjectKey,
    keys.length ≤ keysMax → (keys ++ listed).Pairwise (fun a b => a.text < b.text) →
    (∀ start, startExclusive = some start → ∀ key ∈ listed, start.text < key.text) →
    listLoop startExclusive keysMax keys (listed.map fun key => .ok key.text) =
      .ok (keys ++ listed.take (keysMax - keys.length), decide (keysMax < keys.length + listed.length)) := by
  induction listed with
  | nil =>
    intro keys within _ _
    simp [listLoop, Nat.not_lt.mpr within]
  | cons key rest ih =>
    intro keys within ascending above
    have later : ∀ previous, keys.getLast?.or startExclusive = some previous → ¬ key.text ≤ previous.text := by
      intro previous found
      rw [String.not_le]
      cases last : keys.getLast? with
      | none =>
        rw [last, Option.none_or] at found
        exact above previous found key mem_cons_self
      | some latest =>
        rw [last, Option.some_or] at found
        cases found
        exact (pairwise_append.mp ascending).2.2 _ (mem_of_getLast? last) key mem_cons_self
    have step : listLoop startExclusive keysMax keys ((key :: rest).map fun key => .ok key.text) =
        if keys.length = keysMax then .ok (keys, true)
        else listLoop startExclusive keysMax (keys ++ [key]) (rest.map fun key => .ok key.text) := by
      rw [map_cons, listLoop]
      simp only [Except.mapError, ok_bind, parseListedKey_text]
      split
      · rename_i previous found
        rw [if_neg (later previous found)]
      · rfl
    rw [step]
    split
    case isTrue full =>
      rw [full, Nat.sub_self, take_zero, append_nil]
      simp
    case isFalse room =>
      rw [ih (keys ++ [key]) (by simp only [length_append, length_singleton]; omega) (by simpa using ascending)
        fun start same other member => above start same other (mem_cons_of_mem _ member)]
      have count : (keys ++ [key]).length = keys.length + 1 := by simp
      have left : keysMax - keys.length = (keysMax - (keys.length + 1)) + 1 := by omega
      have total : keys.length + 1 + rest.length = keys.length + (rest.length + 1) := by omega
      rw [count, left, take_succ_cons, append_assoc, singleton_append, length_cons, total]

theorem listPage_ascending {backend : ListPageRequest → List (Except BackendError String)} {request : ListPageRequest}
    {listed : List ObjectKey} (entries : backend request = listed.map fun key => .ok key.text)
    (ascending : listed.Pairwise fun a b => a.text < b.text)
    (above : ∀ start, request.startExclusive = some start → ∀ key ∈ listed, start.text < key.text) :
    listPage backend request = .ok ⟨listed.take request.keysMax.get,
      if request.keysMax.get < listed.length then (listed.take request.keysMax.get).getLast? else none⟩ := by
  have loop := listLoop_ascending request.startExclusive request.keysMax.get listed [] (Nat.zero_le _) ascending above
  rw [listPage, entries, loop, ok_bind]
  simp

theorem ascending_snoc {keys : List ObjectKey} {listed : ObjectKey} (ascending : keys.Pairwise fun a b => a.text < b.text)
    (later : ∀ previous, keys.getLast? = some previous → previous.text < listed.text) :
    (keys ++ [listed]).Pairwise fun a b => a.text < b.text := by
  refine pairwise_append.mpr ⟨ascending, pairwise_singleton _ _, ?_⟩
  intro key member other single
  rw [mem_singleton.mp single]
  cases last : keys.getLast? with
  | none =>
    rw [getLast?_eq_none_iff.mp last] at member
    cases member
  | some previous =>
    obtain ⟨before, rfl⟩ := getLast?_eq_some_iff.mp last
    have behind := later previous last
    rcases mem_append.mp member with earlier | same
    · exact String.lt_trans ((pairwise_append.mp ascending).2.2 key earlier previous mem_cons_self) behind
    · rw [mem_singleton.mp same]
      exact behind

theorem listLoop_ok {startExclusive : Option ObjectKey} {keysMax : Nat} {entries : List (Except BackendError String)} :
    ∀ keys kept truncated, keys.length ≤ keysMax → (startExclusive.toList ++ keys).Pairwise (fun a b => a.text < b.text) →
    listLoop startExclusive keysMax keys entries = .ok (kept, truncated) →
    ∃ examined : List ObjectKey, entries.take examined.length = examined.map (fun key => .ok key.text) ∧
      (startExclusive.toList ++ (keys ++ examined)).Pairwise (fun a b => a.text < b.text) ∧ kept = (keys ++ examined).take keysMax ∧
      if truncated = true then (keys ++ examined).length = keysMax + 1
      else (keys ++ examined).length ≤ keysMax ∧ examined.length = entries.length := by
  induction entries with
  | nil =>
    intro keys kept truncated within ascending ended
    cases ended
    exact ⟨[], rfl, by simpa using ascending, by rw [append_nil, take_of_length_le within], by simpa using within⟩
  | cons entry rest ih =>
    intro keys kept truncated within ascending ended
    obtain ⟨location, heard, ended⟩ := bind_ok ended
    obtain ⟨listed, parsed, ended⟩ := bind_ok ended
    have spelled : entry = .ok listed.text := by
      rw [mapError_ok_iff] at heard
      rw [parseListedKey, mapError_ok_iff, ObjectKey.tryFrom_ok_iff] at parsed
      rw [heard, parsed]
    have last : (startExclusive.toList ++ keys).getLast? = keys.getLast?.or startExclusive := by
      rw [getLast?_append]
      cases startExclusive <;> rfl
    have ordered : (∀ previous, (startExclusive.toList ++ keys).getLast? = some previous → previous.text < listed.text) ∧
        (if keys.length = keysMax then .ok (keys, true) else listLoop startExclusive keysMax (keys ++ [listed]) rest) =
          (.ok (kept, truncated) : Except StoreError _) := by
      rw [last]
      split at ended
      · rename_i previous found
        split at ended
        · cases ended
        · rename_i behind
          refine ⟨?_, ended⟩
          intro other same
          rw [found] at same
          cases same
          exact String.not_le.mp behind
      · rename_i found
        refine ⟨?_, ended⟩
        intro previous same
        rw [found] at same
        cases same
    obtain ⟨later, ended⟩ := ordered
    have longer := ascending_snoc ascending later
    rw [append_assoc] at longer
    split at ended
    case isTrue full =>
      cases ended
      refine ⟨[listed], by simp [spelled], longer, ?_, ?_⟩
      · rw [← full, take_left]
      · simp [full]
    case isFalse room =>
      obtain ⟨examined, heads, sorted, same, size⟩ := ih (keys ++ [listed]) kept truncated (by simp; omega) longer ended
      rw [append_assoc, singleton_append] at sorted same size
      refine ⟨listed :: examined, ?_, sorted, same, ?_⟩
      · rw [length_cons, take_succ_cons, heads, map_cons, spelled]
      · rw [length_cons, length_cons, Nat.succ_inj]
        exact size

def newestKeysBound : KeysBound := ⟨1, Nat.one_pos, by decide⟩

def sealNamespace : ObjectKey := ⟨"seal/v1", by decide⟩

def walNamespace : ObjectKey := ⟨"wal/v1", by decide⟩

def newestListed {Coordinate : Type} (backend : ListPageRequest → List (Except BackendError String)) (root : ObjectKey)
    (fromStr : String → Except KeySpellingError Coordinate) (notAKey : String → String → String) :
    Except TypedStoreError (Option Coordinate) := do
  let page ← (listPage backend ⟨root, none, newestKeysBound⟩).mapError typedStoreError
  match page.keys.head? with
  | none => .ok none
  | some listed => ((fromStr listed.text).map some).mapError fun source => .contradiction (notAKey listed.text source.toText)

def newestGeneration (backend : ListPageRequest → List (Except BackendError String)) :
    Except TypedStoreError (Option SealGeneration) :=
  newestListed backend sealNamespace SealKey.fromStr fun listed source =>
    "listed key " ++ listed ++ " under the Seal namespace is not a Seal key: " ++ source

def newestSurvivingBatch (backend : ListPageRequest → List (Except BackendError String)) :
    Except TypedStoreError (Option BatchId) :=
  newestListed backend walNamespace WalKey.fromStr fun listed source =>
    "listed key " ++ listed ++ " under the WAL namespace is not a WAL key: " ++ source

abbrev RawStore := OrdMap String (List UInt8)

def underNamespace (root text : String) : Bool :=
  match stripStart (root.toList ++ ['/']) text.toList with
  | some rest => !rest.isEmpty
  | none => false

def RawStore.listed (raw : RawStore) (request : ListPageRequest) : List String :=
  raw.keys.filter fun text =>
    underNamespace request.root.text text && request.startExclusive.all fun start => decide (start.text < text)

def RawStore.list (raw : RawStore) (request : ListPageRequest) : List (Except BackendError String) := (raw.listed request).map .ok

section

theorem RawStore.listed_ascending (raw : RawStore) (request : ListPageRequest) : (raw.listed request).Pairwise fun a b => a < b := by
  refine List.Pairwise.filter _ ((Std.ExtTreeMap.ordered_keys (t := raw)).imp ?_)
  intro a b before
  exact compareOfLessAndEq_eq_lt.mp before

theorem RawStore.mem_listed (raw : RawStore) (request : ListPageRequest) (text : String) :
    text ∈ raw.listed request ↔ raw[text]?.isSome ∧ underNamespace request.root.text text = true ∧
      ∀ start, request.startExclusive = some start → start.text < text := by
  simp only [RawStore.listed, mem_filter, Std.ExtTreeMap.mem_keys, Std.ExtTreeMap.mem_iff_isSome_getElem?, Bool.and_eq_true,
    Option.all_eq_true, decide_eq_true_eq]

theorem ObjectKey.exists_texts {texts : List String} (each : ∀ text ∈ texts, ∃ key : ObjectKey, key.text = text) :
    ∃ keys : List ObjectKey, keys.map ObjectKey.text = texts := by
  induction texts with
  | nil => exact ⟨[], rfl⟩
  | cons text texts ih =>
    obtain ⟨key, first⟩ := each text mem_cons_self
    obtain ⟨keys, rest⟩ := ih fun other later => each other (mem_cons_of_mem _ later)
    exact ⟨key :: keys, by rw [map_cons, first, rest]⟩

variable {Coordinate : Type} (raw : RawStore) (root : ObjectKey) (fromStr : String → Except KeySpellingError Coordinate)
    (notAKey : String → String → String) (spell : Coordinate → String) (number : Coordinate → Nat)
    (exact : ∀ text coordinate, fromStr text = .ok coordinate ↔ text = spell coordinate)
    (legal : ∀ coordinate, ∃ key, ObjectKey.tryFrom (spell coordinate) = .ok key ∧ key.text = spell coordinate)
    (newer : ∀ a b, number a < number b → spell b < spell a)
    (inside : ∀ coordinate, underNamespace root.text (spell coordinate) = true)
    (owned : ∀ text, raw[text]?.isSome → underNamespace root.text text = true → ∃ coordinate, text = spell coordinate)

include exact legal newer inside owned

theorem newestListed_spec :
    (∀ coordinate, raw[spell coordinate]? = none) ∧ raw.listed ⟨root, none, newestKeysBound⟩ = [] ∧
        newestListed raw.list root fromStr notAKey = .ok none ∨
      ∃ newest rest, raw.listed ⟨root, none, newestKeysBound⟩ = spell newest :: rest ∧ raw[spell newest]?.isSome ∧
        (∀ coordinate, raw[spell coordinate]?.isSome → number coordinate ≤ number newest) ∧
        newestListed raw.list root fromStr notAKey = .ok (some newest) := by
  have ascending := raw.listed_ascending ⟨root, none, newestKeysBound⟩
  have member : ∀ text, text ∈ raw.listed ⟨root, none, newestKeysBound⟩ ↔ raw[text]?.isSome ∧ underNamespace root.text text = true := by
    intro text
    rw [raw.mem_listed]
    simp
  obtain ⟨keys, same⟩ := ObjectKey.exists_texts fun text here => by
    obtain ⟨held, under⟩ := (member text).mp here
    obtain ⟨coordinate, rfl⟩ := owned text held under
    obtain ⟨key, _, spelled⟩ := legal coordinate
    exact ⟨key, spelled⟩
  have page : listPage raw.list ⟨root, none, newestKeysBound⟩ =
      .ok ⟨keys.take 1, if 1 < keys.length then (keys.take 1).getLast? else none⟩ := by
    have entries : raw.list ⟨root, none, newestKeysBound⟩ = keys.map fun key => .ok key.text := by
      rw [RawStore.list, ← same, map_map]
      rfl
    rw [← same, pairwise_map] at ascending
    exact listPage_ascending entries ascending (by simp)
  cases keys with
  | nil =>
    refine Or.inl ⟨?_, same.symm, ?_⟩
    · intro coordinate
      rw [← Option.not_isSome_iff_eq_none]
      intro held
      have here := (member _).mpr ⟨held, inside coordinate⟩
      rw [← same] at here
      cases here
    · simp [newestListed, page, Except.mapError]
  | cons key rest =>
    obtain ⟨held, under⟩ := (member key.text).mp (by rw [← same]; exact mem_cons_self)
    obtain ⟨newest, spelled⟩ := owned key.text held under
    refine Or.inr ⟨newest, rest.map ObjectKey.text, ?_, spelled ▸ held, ?_, ?_⟩
    · rw [← same, map_cons, spelled]
    · intro coordinate there
      by_contra beyond
      have smaller := newer newest coordinate (Nat.lt_of_not_le beyond)
      have here := (member _).mpr ⟨there, inside coordinate⟩
      rw [← same, map_cons] at here ascending
      rcases mem_cons.mp here with equal | later
      · rw [equal, spelled] at smaller
        exact String.lt_irrefl _ smaller
      · have above := (pairwise_cons.mp ascending).1 _ later
        rw [spelled] at above
        exact String.lt_irrefl _ (String.lt_trans above smaller)
    · have parsed := (exact key.text newest).mpr spelled
      simp [newestListed, page, Except.mapError, parsed, Except.map]

end

end StromDB
