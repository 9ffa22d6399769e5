import Mathlib

namespace Text

abbrev Chars := List Char

def byteLength (text : Chars) : Nat := (text.map Char.utf8Size).sum

def splitChar (separator : Char) : Chars → List Chars
  | [] => [[]]
  | c :: rest =>
    if c = separator then [] :: splitChar separator rest
    else
      match splitChar separator rest with
      | [] => [[c]]
      | segment :: segments => (c :: segment) :: segments

def splitOnce (separator : Char) : Chars → Option (Chars × Chars)
  | [] => none
  | c :: rest =>
    if c = separator then some ([], rest)
    else (splitOnce separator rest).map fun (before, after) => (c :: before, after)

def isWhitespace (c : Char) : Bool :=
  let n := c.toNat
  (0x09 ≤ n && n ≤ 0x0D) || n = 0x20 || n = 0x85 || n = 0xA0 || n = 0x1680 || (0x2000 ≤ n && n ≤ 0x200A) ||
    n = 0x2028 || n = 0x2029 || n = 0x202F || n = 0x205F || n = 0x3000

def trim (text : Chars) : Chars :=
  ((text.dropWhile isWhitespace).reverse.dropWhile isWhitespace).reverse

def isControl (c : Char) : Bool :=
  let n := c.toNat
  n ≤ 0x1F || (0x7F ≤ n && n ≤ 0x9F)

def isAsciiUppercase (c : Char) : Bool := 'A' ≤ c && c ≤ 'Z'

def asciiLower (c : Char) : Char := if isAsciiUppercase c then Char.ofNat (c.toNat + 32) else c

def toAsciiLowercase (text : Chars) : Chars := text.map asciiLower

def eqIgnoreAsciiCase (a b : Chars) : Bool := toAsciiLowercase a = toAsciiLowercase b

@[simp] theorem byteLength_nil : byteLength [] = 0 := rfl

@[simp] theorem byteLength_cons (c : Char) (text : Chars) : byteLength (c :: text) = c.utf8Size + byteLength text := by
  simp [byteLength]

@[simp] theorem byteLength_append (a b : Chars) : byteLength (a ++ b) = byteLength a + byteLength b := by
  simp [byteLength]

theorem splitOnce_eq_some {separator : Char} {text before after : Chars}
    (split : splitOnce separator text = some (before, after)) : text = before ++ separator :: after := by
  induction text generalizing before with
  | nil => cases split
  | cons c rest ih =>
    by_cases here : c = separator
    · rw [splitOnce, if_pos here] at split
      cases split
      simp [here]
    · rw [splitOnce, if_neg here] at split
      obtain ⟨⟨first, second⟩, found, same⟩ := Option.map_eq_some_iff.mp split
      cases same
      simp [ih found]

theorem splitOnce_append (separator : Char) (before after : Chars) (absent : separator ∉ before) :
    splitOnce separator (before ++ separator :: after) = some (before, after) := by
  induction before with
  | nil => simp [splitOnce]
  | cons c rest ih =>
    simp only [List.mem_cons, not_or] at absent
    simp [splitOnce, Ne.symm absent.1, ih absent.2]

theorem splitChar_absent {separator : Char} {text : Chars} (absent : separator ∉ text) : splitChar separator text = [text] := by
  induction text with
  | nil => rfl
  | cons c rest ih =>
    simp only [List.mem_cons, not_or] at absent
    simp [splitChar, Ne.symm absent.1, ih absent.2]

theorem splitChar_append {separator : Char} (before after : Chars) (absent : separator ∉ before) :
    splitChar separator (before ++ separator :: after) = before :: splitChar separator after := by
  induction before with
  | nil => simp [splitChar]
  | cons c rest ih =>
    simp only [List.mem_cons, not_or] at absent
    simp [splitChar, Ne.symm absent.1, ih absent.2]

def joined (separator : Char) : List Chars → Chars
  | [] => []
  | [part] => part
  | part :: next :: rest => part ++ separator :: joined separator (next :: rest)

theorem splitChar_joined {separator : Char} {parts : List Chars} (nonempty : parts ≠ []) (clean : ∀ part ∈ parts, separator ∉ part) :
    splitChar separator (joined separator parts) = parts := by
  induction parts with
  | nil => exact absurd rfl nonempty
  | cons part rest ih =>
    have here := clean part List.mem_cons_self
    cases rest with
    | nil => exact splitChar_absent here
    | cons next rest =>
      rw [joined, splitChar_append part _ here, ih (by simp) fun other member => clean other (List.mem_cons_of_mem _ member)]

theorem joined_splitChar (separator : Char) (text : Chars) :
    joined separator (splitChar separator text) = text ∧ splitChar separator text ≠ [] := by
  induction text with
  | nil => exact ⟨rfl, by simp [splitChar]⟩
  | cons c rest ih =>
    obtain ⟨same, nonempty⟩ := ih
    obtain ⟨part, parts, split⟩ := List.exists_cons_of_ne_nil nonempty
    rw [split] at same
    by_cases here : c = separator
    · subst here
      rw [splitChar, if_pos rfl, split]
      exact ⟨by rw [joined, same]; rfl, by simp⟩
    rw [splitChar, if_neg here, split]
    refine ⟨?_, by simp⟩
    cases parts with
    | nil =>
      rw [joined] at same ⊢
      rw [same]
    | cons next parts =>
      rw [joined] at same ⊢
      rw [List.cons_append, same]

theorem splitChar_eq_iff (separator : Char) (text : Chars) (parts : List Chars) (nonempty : parts ≠ [])
    (clean : ∀ part ∈ parts, separator ∉ part) : splitChar separator text = parts ↔ text = joined separator parts := by
  constructor
  · rintro rfl
    exact (joined_splitChar separator text).1.symm
  · rintro rfl
    exact splitChar_joined nonempty clean

def stripStart : Chars → Chars → Option Chars
  | [], text => some text
  | _ :: _, [] => none
  | d :: start, c :: text => if d = c then stripStart start text else none

theorem stripStart_eq_some_iff {start text rest : Chars} : stripStart start text = some rest ↔ text = start ++ rest := by
  fun_induction stripStart start text with
  | case1 text | case2 => simp
  | case3 d start text ih => simpa using ih
  | case4 d start c text different =>
    simp only [reduceCtorEq, List.cons_append, List.cons.injEq, false_iff]
    exact fun same => different same.1.symm

def splitOnceOn (pattern : Chars) : Chars → Option (Chars × Chars)
  | [] => (stripStart pattern []).map fun after => ([], after)
  | c :: rest =>
    match stripStart pattern (c :: rest) with
    | some after => some ([], after)
    | none => (splitOnceOn pattern rest).map fun (before, after) => (c :: before, after)

theorem splitOnceOn_eq_some {pattern text before after : Chars} (split : splitOnceOn pattern text = some (before, after)) :
    text = before ++ pattern ++ after := by
  induction text generalizing before with
  | nil =>
    obtain ⟨_, found, same⟩ := Option.map_eq_some_iff.mp split
    cases same
    exact stripStart_eq_some_iff.mp found
  | cons c rest ih =>
    rw [splitOnceOn] at split
    split at split
    case h_1 found =>
      cases split
      exact stripStart_eq_some_iff.mp found
    case h_2 =>
      obtain ⟨⟨first, second⟩, found, same⟩ := Option.map_eq_some_iff.mp split
      cases same
      simp [ih found]

theorem stripStart_absent {d c : Char} (start text : Chars) (different : c ≠ d) : stripStart (d :: start) (c :: text) = none := by
  rw [stripStart, if_neg (Ne.symm different)]

theorem splitOnceOn_append {d : Char} (pattern before after : Chars) (absent : d ∉ before) :
    splitOnceOn (d :: pattern) (before ++ (d :: pattern) ++ after) = some (before, after) := by
  induction before with
  | nil =>
    have found : stripStart (d :: pattern) (d :: (pattern ++ after)) = some after := stripStart_eq_some_iff.mpr rfl
    simp [splitOnceOn, found]
  | cons c rest ih =>
    simp only [List.mem_cons, not_or] at absent
    simp only [List.cons_append, splitOnceOn, stripStart_absent _ _ (Ne.symm absent.1)]
    rw [ih absent.2]
    rfl

theorem splitOnceOn_absent (d : Char) (pattern text : Chars) (absent : d ∉ text) : splitOnceOn (d :: pattern) text = none := by
  induction text with
  | nil => rfl
  | cons c rest ih =>
    simp only [List.mem_cons, not_or] at absent
    rw [splitOnceOn, stripStart_absent _ _ (Ne.symm absent.1), ih absent.2]
    rfl

theorem trim_of_solid {text : Chars} (solid : ∀ c ∈ text, isWhitespace c = false) : trim text = text := by
  have kept : ∀ chars : Chars, (∀ c ∈ chars, isWhitespace c = false) → chars.dropWhile isWhitespace = chars := by
    intro chars none
    cases chars with
    | nil => rfl
    | cons c rest => rw [List.dropWhile_cons_of_neg (by simp [none c List.mem_cons_self])]
  rw [trim, kept text solid, kept _ (fun c member => solid c (List.mem_reverse.mp member)), List.reverse_reverse]

theorem trim_cons {c : Char} (text : Chars) (blank : isWhitespace c = true) : trim (c :: text) = trim text := by
  rw [trim, List.dropWhile_cons_of_pos blank, trim]

theorem isAsciiUppercase_iff {c : Char} : isAsciiUppercase c = true ↔ 65 ≤ c.toNat ∧ c.toNat ≤ 90 := by
  simp only [isAsciiUppercase, Bool.and_eq_true, decide_eq_true_eq]
  exact Iff.rfl

theorem asciiLower_of_lower {c : Char} (lower : isAsciiUppercase c = false) : asciiLower c = c := by
  rw [asciiLower, lower]
  rfl

theorem toNat_asciiLower {c : Char} (upper : isAsciiUppercase c = true) : (asciiLower c).toNat = c.toNat + 32 := by
  have range := isAsciiUppercase_iff.mp upper
  have valid : (c.toNat + 32).isValidChar := Or.inl (by omega)
  rw [asciiLower, if_pos upper, Char.ofNat, dif_pos valid]
  rfl

theorem isAsciiUppercase_asciiLower (c : Char) : isAsciiUppercase (asciiLower c) = false := by
  cases upper : isAsciiUppercase c with
  | false => rw [asciiLower_of_lower upper, upper]
  | true =>
    have range := isAsciiUppercase_iff.mp upper
    rw [Bool.eq_false_iff, Ne, isAsciiUppercase_iff, toNat_asciiLower upper]
    omega

theorem toAsciiLowercase_of_lower {text : Chars} (lower : ∀ c ∈ text, isAsciiUppercase c = false) : toAsciiLowercase text = text := by
  exact (List.map_congr_left fun c member => asciiLower_of_lower (lower c member)).trans (List.map_id text)

theorem utf8Size_asciiLower (c : Char) : (asciiLower c).utf8Size = c.utf8Size := by
  cases upper : isAsciiUppercase c with
  | false => rw [asciiLower_of_lower upper]
  | true =>
    have range := isAsciiUppercase_iff.mp upper
    have one : ∀ d : Char, d.toNat ≤ 127 → d.utf8Size = 1 := by
      intro d small
      exact Char.utf8Size_eq_one_iff.mpr (UInt32.le_iff_toNat_le.mpr small)
    rw [one c (by omega), one _ (by rw [toNat_asciiLower upper]; omega)]

theorem byteLength_toAsciiLowercase (text : Chars) : byteLength (toAsciiLowercase text) = byteLength text := by
  induction text with
  | nil => rfl
  | cons c rest ih => simpa [toAsciiLowercase, utf8Size_asciiLower] using ih

def utf8Bytes (text : String) : List UInt8 := text.toByteArray.data.toList

theorem utf8Bytes_injective {a b : String} (same : utf8Bytes a = utf8Bytes b) : a = b := by
  rw [← String.toByteArray_inj]
  exact ByteArray.ext (Array.toList_inj.mp same)

theorem utf8Bytes_ofList_ascii (chars : Chars) (ascii : ∀ c ∈ chars, c.toNat < 128) :
    utf8Bytes (String.ofList chars) = chars.map fun c => UInt8.ofNat c.toNat := by
  have encoded : utf8Bytes (String.ofList chars) = chars.flatMap String.utf8EncodeChar := by
    rw [utf8Bytes, String.toByteArray_ofList, List.utf8Encode]
    simp
  have single : ∀ c ∈ chars, String.utf8EncodeChar c = [UInt8.ofNat c.toNat] := by
    intro c member
    have small : c.val.toNat ≤ 127 := Nat.le_of_lt_succ (ascii c member)
    simp only [String.utf8EncodeChar, if_pos small]
    rfl
  rw [encoded, List.flatMap_congr single, ← List.map_eq_flatMap]

end Text
