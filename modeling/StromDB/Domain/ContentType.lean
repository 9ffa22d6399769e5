import StromDB.Domain.Stream

namespace StromDB

open Text List Option

variable (text mediaType : Chars) (input : String) (contentType : StreamContentType) (subtype : Chars) (charset : Option Chars)

def splitCharset (input : Chars) : Chars × Option Chars :=
  match splitOnceOn "; charset=".toList input with
  | some (essence, charset) => (essence, some charset)
  | none => (input, none)

def validateParts (essence : Chars) (charset : Option Chars) : Except ContentTypeError Unit :=
  if essence.contains ';' || charset.any (·.contains ';') then .error .malformed
  else
    match splitOnce '/' essence with
    | none => .error .malformed
    | some (mediaType, subtype) =>
      if !isToken mediaType || !isToken subtype || mediaType.any isAsciiUppercase || subtype.any isAsciiUppercase then
        .error .nonCanonical
      else if charset.any (fun value => !isToken value || value.any isAsciiUppercase) then .error .nonCanonical
      else .ok ()

def validateCanonical (input : String) : Except ContentTypeError String :=
  if byteLength input.toList > CONTENT_TYPE_BYTES_MAX then .error .overMaxBytes
  else
    match validateParts (splitCharset input.toList).1 (splitCharset input.toList).2 with
    | .error error => .error error
    | .ok () => .ok input

def LowerToken (text : Chars) : Prop := isToken text = true ∧ text.any isAsciiUppercase = false

structure Spelled (mediaType subtype : Chars) (charset : Option Chars) : Prop where
  first : LowerToken mediaType
  second : LowerToken subtype
  parameter : ∀ value, charset = some value → LowerToken value
  fits : byteLength (canonicalSpelling mediaType subtype charset) ≤ CONTENT_TYPE_BYTES_MAX

def Canonical (text : Chars) : Prop :=
  ∃ mediaType subtype charset, Spelled mediaType subtype charset ∧ text = canonicalSpelling mediaType subtype charset

section

variable {c : Char} (token : isTokenChar c = true)

include token

theorem isTokenChar_range : 33 ≤ c.toNat ∧ c.toNat ≤ 126 := by
  simp only [isTokenChar, Bool.or_eq_true, Bool.and_eq_true, decide_eq_true_eq, contains_iff_mem] at token
  obtain ((lower | upper) | digit) | mark := token
  · exact ⟨Nat.le_trans (by decide) lower.1, Nat.le_trans lower.2 (by decide)⟩
  · exact ⟨Nat.le_trans (by decide) upper.1, Nat.le_trans upper.2 (by decide)⟩
  · exact ⟨Nat.le_trans (by decide) digit.1, Nat.le_trans digit.2 (by decide)⟩
  · have all : ("!#$%&'*+-.^_`|~".toList.all fun d => decide (33 ≤ d.toNat ∧ d.toNat ≤ 126)) = true := by decide
    exact of_decide_eq_true (all_eq_true.mp all c mark)

theorem isTokenChar_solid : isWhitespace c = false := by
  have range := isTokenChar_range token
  simp only [isWhitespace, Bool.or_eq_false_iff, Bool.and_eq_false_iff, decide_eq_false_iff_not]
  omega

theorem isTokenChar_asciiLower : isTokenChar (asciiLower c) = true := by
  cases upper : isAsciiUppercase c with
  | false => rw [asciiLower_of_lower upper, token]
  | true =>
    have range := isAsciiUppercase_iff.mp upper
    have lower := toNat_asciiLower upper
    have least : 'a' ≤ asciiLower c := by
      change 97 ≤ (asciiLower c).toNat
      omega
    have most : asciiLower c ≤ 'z' := by
      change (asciiLower c).toNat ≤ 122
      omega
    simp [isTokenChar, least, most]

end

theorem isToken_iff : isToken text = true ↔ text ≠ [] ∧ ∀ c ∈ text, isTokenChar c = true := by
  simp [isToken]

theorem token_avoids (token : isToken text = true) (separator : Char) (other : isTokenChar separator = false) : separator ∉ text := by
  intro member
  rw [((isToken_iff text).mp token).2 separator member] at other
  cases other

theorem trim_token (token : isToken text = true) : trim text = text :=
  trim_of_solid fun c member => isTokenChar_solid (((isToken_iff text).mp token).2 c member)

theorem lowerToken_toAsciiLowercase (token : isToken text = true) : LowerToken (toAsciiLowercase text) := by
  obtain ⟨nonempty, all⟩ := (isToken_iff text).mp token
  refine ⟨(isToken_iff _).mpr ⟨by simpa [toAsciiLowercase] using nonempty, ?_⟩, ?_⟩
  · intro c member
    obtain ⟨d, here, rfl⟩ := mem_map.mp member
    exact isTokenChar_asciiLower (all d here)
  · simp [toAsciiLowercase, isAsciiUppercase_asciiLower]

theorem LowerToken.lowercase (lower : LowerToken text) : toAsciiLowercase text = text :=
  toAsciiLowercase_of_lower (by simpa using lower.2)

theorem toAsciiLowercase_twice : toAsciiLowercase (toAsciiLowercase text) = toAsciiLowercase text := by
  apply toAsciiLowercase_of_lower
  intro c member
  obtain ⟨d, _, rfl⟩ := mem_map.mp member
  exact isAsciiUppercase_asciiLower d

theorem canonicalSpelling_lowercase :
    canonicalSpelling (toAsciiLowercase mediaType) (toAsciiLowercase subtype) charset =
      canonicalSpelling mediaType subtype charset := by
  cases charset <;> simp only [canonicalSpelling, toAsciiLowercase_twice]

section

variable (spelled : Spelled mediaType subtype charset)

include spelled

theorem Spelled.spelling :
    canonicalSpelling mediaType subtype charset =
      mediaType ++ '/' :: subtype ++ (charset.map ("; charset=".toList ++ ·)).getD [] := by
  cases charset with
  | none | some value => simp [canonicalSpelling, spelled.first.lowercase, spelled.second.lowercase]

theorem Spelled.essence_avoids
    (separator : Char) (other : isTokenChar separator = false) (slash : separator ≠ '/') : separator ∉ mediaType ++ '/' :: subtype := by
  simp only [mem_append, mem_cons, not_or]
  exact ⟨token_avoids mediaType spelled.first.1 separator other, slash, token_avoids subtype spelled.second.1 separator other⟩

theorem Spelled.essence_solid :
    trim (mediaType ++ '/' :: subtype) = mediaType ++ '/' :: subtype := by
  apply trim_of_solid
  intro c member
  simp only [mem_append, mem_cons] at member
  obtain first | rfl | second := member
  · exact isTokenChar_solid (((isToken_iff _).mp spelled.first.1).2 c first)
  · decide
  · exact isTokenChar_solid (((isToken_iff _).mp spelled.second.1).2 c second)

end

theorem splitCharset_spelled (spelled : Spelled mediaType subtype charset) :
    splitCharset (canonicalSpelling mediaType subtype charset) = (mediaType ++ '/' :: subtype, charset) := by
  have absent := spelled.essence_avoids _ _ _ ';' (by decide) (by decide)
  rw [spelled.spelling, splitCharset]
  cases charset with
  | none =>
    have split : splitOnceOn "; charset=".toList (mediaType ++ '/' :: subtype) = none := splitOnceOn_absent ';' _ _ absent
    simp only [map_none, getD_none, append_nil, split]
  | some value =>
    have found := splitOnceOn_append " charset=".toList (mediaType ++ '/' :: subtype) value absent
    have split : splitOnceOn "; charset=".toList (mediaType ++ '/' :: subtype ++ ("; charset=".toList ++ value)) =
        some (mediaType ++ '/' :: subtype, value) := by
      rw [← append_assoc]
      exact found
    simp only [map_some, getD_some, split]

theorem validateParts_spelled (spelled : Spelled mediaType subtype charset) :
    validateParts (mediaType ++ '/' :: subtype) charset = .ok () := by
  have absent := spelled.essence_avoids _ _ _ ';' (by decide) (by decide)
  have once := splitOnce_append '/' mediaType subtype (token_avoids mediaType spelled.first.1 '/' (by decide))
  have clean : charset.any (·.contains ';') = false := by
    cases charset with
    | none => rfl
    | some value => simpa using token_avoids value (spelled.parameter value rfl).1 ';' (by decide)
  have lower : charset.any (fun value => !isToken value || value.any isAsciiUppercase) = false := by
    cases charset with
    | none => rfl
    | some value =>
      obtain ⟨token, none⟩ := spelled.parameter value rfl
      simp [token, none]
  have bare : (mediaType ++ '/' :: subtype).contains ';' = false := by simpa using absent
  simp only [validateParts, bare, clean, once, spelled.first.1, spelled.first.2, spelled.second.1, spelled.second.2, lower]
  rfl

theorem validateParts_ok {essence : Chars} {charset : Option Chars} (accepted : validateParts essence charset = .ok ()) :
    ∃ mediaType subtype, essence = mediaType ++ '/' :: subtype ∧ LowerToken mediaType ∧ LowerToken subtype ∧
      ∀ value, charset = some value → LowerToken value := by
  unfold validateParts at accepted
  split at accepted
  · cases accepted
  split at accepted
  · cases accepted
  rename_i mediaType subtype once
  split at accepted
  · cases accepted
  rename_i tokens
  split at accepted
  · cases accepted
  rename_i parameter
  simp only [Bool.or_eq_true, Bool.not_eq_true', not_or, Bool.not_eq_false, Bool.not_eq_true] at tokens
  refine ⟨mediaType, subtype, splitOnce_eq_some once, ⟨tokens.1.1.1, tokens.1.2⟩, ⟨tokens.1.1.2, tokens.2⟩, ?_⟩
  rintro value rfl
  simpa [LowerToken] using parameter

theorem splitCharset_eq (input : Chars) :
    input = (splitCharset input).1 ++ ((splitCharset input).2.map ("; charset=".toList ++ ·)).getD [] := by
  unfold splitCharset
  split
  · rename_i essence charset found
    simpa using splitOnceOn_eq_some found
  · simp

theorem validateCanonical_ok_iff (output : String) :
    validateCanonical input = .ok output ↔ output = input ∧ Canonical input.toList := by
  unfold validateCanonical
  constructor
  · intro accepted
    split at accepted
    · cases accepted
    split at accepted
    · cases accepted
    rename_i parts
    cases accepted
    obtain ⟨mediaType, subtype, essence, first, second, parameter⟩ := validateParts_ok parts
    have spelling : input.toList = canonicalSpelling mediaType subtype (splitCharset input.toList).2 := by
      conv_lhs => rw [splitCharset_eq input.toList, essence]
      cases (splitCharset input.toList).2 with
      | none | some value => simp [canonicalSpelling, first.lowercase, second.lowercase]
    exact ⟨rfl, mediaType, subtype, _, ⟨first, second, parameter, by rw [← spelling]; omega⟩, spelling⟩
  · rintro ⟨rfl, mediaType, subtype, charset, spelled, text⟩
    rw [if_neg (by rw [text]; exact Nat.not_lt.mpr spelled.fits), text, splitCharset_spelled _ _ _ spelled,
      validateParts_spelled _ _ _ spelled]

theorem parseParameters_ok {parameters : List Chars} : ∀ (before after : Option Chars),
    parseParameters parameters before = .ok after → (∀ value, before = some value → LowerToken value) →
    ∀ value, after = some value → LowerToken value := by
  induction parameters with
  | nil =>
    intro before after parsed lower
    cases parsed
    exact lower
  | cons parameter rest ih =>
    intro before after parsed lower
    unfold parseParameters at parsed
    split at parsed
    · cases parsed
    split at parsed
    · cases parsed
    split at parsed
    · cases parsed
    rename_i token
    simp only [Bool.or_eq_true, Bool.not_eq_true', not_or, Bool.not_eq_false, Bool.not_eq_true] at token
    refine ih _ _ parsed ?_
    rintro value same
    cases same
    exact lowerToken_toAsciiLowercase _ token.1

def MediaType.Normal : MediaType → Prop
  | .octetStream => True
  | .json => True
  | .general canonical => Canonical canonical.toList ∧ canonical ≠ ESSENCE_OCTET_STREAM ∧ canonical ≠ ESSENCE_JSON

theorem MediaType.Normal.canonical (media : MediaType) (normal : media.Normal) : Canonical media.asStr.toList := by
  have unit : LowerToken "application".toList ∧ LowerToken "octet-stream".toList ∧ LowerToken "json".toList := by
    unfold LowerToken
    decide
  cases media with
  | octetStream =>
    exact ⟨"application".toList, "octet-stream".toList, none, ⟨unit.1, unit.2.1, nofun, by decide⟩, by decide⟩
  | json => exact ⟨"application".toList, "json".toList, none, ⟨unit.1, unit.2.2, nofun, by decide⟩, by decide⟩
  | general canonical => exact normal.1

theorem MediaType.Normal.asStr_injective {a b : MediaType} (first : a.Normal) (second : b.Normal) (same : a.asStr = b.asStr) :
    a = b := by
  cases a with
  | octetStream =>
    cases b with
    | octetStream => rfl
    | json => exact absurd same (by decide)
    | general canonical => exact absurd same.symm second.2.1
  | json =>
    cases b with
    | octetStream => exact absurd same (by decide)
    | json => rfl
    | general canonical => exact absurd same.symm second.2.2
  | general canonical =>
    cases b with
    | octetStream => exact absurd same first.2.1
    | json => exact absurd same first.2.2
    | general other => rw [show canonical = other from same]

theorem canonicalSpelling_named {typeRaw subtypeRaw : Chars} {charset : Option Chars} {essence : Chars}
    (named : toAsciiLowercase essence = essence) (plain : ';' ∉ essence)
    (same : canonicalSpelling typeRaw subtypeRaw charset = essence) :
    charset.isNone ∧ eqIgnoreAsciiCase (typeRaw ++ '/' :: subtypeRaw) essence := by
  cases charset with
  | none =>
    have slash : asciiLower '/' = '/' := by decide
    rw [eqIgnoreAsciiCase, decide_eq_true_eq, named, ← same]
    simp [canonicalSpelling, toAsciiLowercase, slash]
  | some value =>
    refine absurd ?_ plain
    rw [← same]
    simp [canonicalSpelling]

theorem finishMediaType_normal {essenceRaw typeRaw subtypeRaw : Chars} {charset : Option Chars} {media : MediaType}
    (essence : essenceRaw = typeRaw ++ '/' :: subtypeRaw) (first : isToken typeRaw = true) (second : isToken subtypeRaw = true)
    (parameter : ∀ value, charset = some value → LowerToken value)
    (finished : finishMediaType essenceRaw typeRaw subtypeRaw charset = .ok media) : media.Normal := by
  have fits := finishMediaType_bytes essence finished
  unfold finishMediaType at finished
  split at finished
  · cases finished
  split at finished
  · cases finished
    trivial
  rename_i stream
  split at finished
  · cases finished
    trivial
  rename_i json
  cases finished
  rw [essence] at stream json
  refine ⟨⟨toAsciiLowercase typeRaw, toAsciiLowercase subtypeRaw, charset, ⟨lowerToken_toAsciiLowercase _ first,
    lowerToken_toAsciiLowercase _ second, parameter, ?_⟩, ?_⟩, ?_, ?_⟩
  · simpa [canonicalSpelling_lowercase, MediaType.asStr] using fits
  · rw [String.toList_ofList, canonicalSpelling_lowercase]
  · intro same
    refine stream (canonicalSpelling_named (by decide) (by decide) ?_)
    rw [← same, String.toList_ofList]
  · intro same
    refine json (canonicalSpelling_named (by decide) (by decide) ?_)
    rw [← same, String.toList_ofList]

theorem parseMediaType_normal (media : MediaType) (parsed : parseMediaType input = .ok media) : media.Normal := by
  unfold parseMediaType at parsed
  split at parsed
  · cases parsed
  split at parsed
  · cases parsed
  unfold parseParts at parsed
  split at parsed
  · cases parsed
  rename_i typeRaw subtypeRaw once
  split at parsed
  · cases parsed
  rename_i tokens
  split at parsed
  · cases parsed
  rename_i charset parameters
  simp only [Bool.or_eq_true, Bool.not_eq_true', not_or, Bool.not_eq_false] at tokens
  exact finishMediaType_normal (splitOnce_eq_some once) tokens.1 tokens.2
    (parseParameters_ok _ _ parameters nofun) parsed

theorem parseParameters_spelled {value : Chars} (lower : LowerToken value) :
    parseParameters [" charset=".toList ++ value] none = .ok (some value) := by
  have token := trim_token value lower.1
  have solid : trim ("charset=".toList ++ value) = "charset".toList ++ '=' :: value := by
    apply trim_of_solid
    intro c member
    obtain name | here := mem_append.mp member
    · have plain : ("charset=".toList.all fun d => !isWhitespace d) = true := by decide
      exact Bool.not_eq_true' _ ▸ all_eq_true.mp plain c name
    · exact isTokenChar_solid (((isToken_iff value).mp lower.1).2 c here)
  have trimmed : trim (" charset=".toList ++ value) = "charset".toList ++ '=' :: value :=
    (trim_cons ("charset=".toList ++ value) (by decide)).trans solid
  have name : eqIgnoreAsciiCase (trim "charset".toList) "charset".toList = true := by decide
  rw [parseParameters, trimmed, splitOnce_append '=' _ value (by decide)]
  simp only [name, token, lower.1, lower.lowercase, parseParameters]
  rfl

theorem finishMediaType_spelled (spelled : Spelled mediaType subtype charset) :
    ∃ media, finishMediaType (mediaType ++ '/' :: subtype) mediaType subtype charset = .ok media ∧
      media.asStr.toList = canonicalSpelling mediaType subtype charset := by
  have fits := spelled.fits
  rw [byteLength_canonicalSpelling] at fits
  have lower : toAsciiLowercase (mediaType ++ '/' :: subtype) = mediaType ++ '/' :: subtype := by
    have slash : asciiLower '/' = '/' := by decide
    have first := spelled.first.lowercase
    have second := spelled.second.lowercase
    simp only [toAsciiLowercase] at first second
    simp [toAsciiLowercase, slash, first, second]
  have named : ∀ essence : Chars, toAsciiLowercase essence = essence → charset.isNone ∧
      eqIgnoreAsciiCase (mediaType ++ '/' :: subtype) essence → essence = canonicalSpelling mediaType subtype charset := by
    rintro essence plain ⟨bare, same⟩
    rw [eqIgnoreAsciiCase, decide_eq_true_eq, lower, plain] at same
    rw [isNone_iff_eq_none] at bare
    rw [spelled.spelling, bare, same]
    simp
  rw [finishMediaType, if_neg (Nat.not_lt.mpr fits)]
  split
  case isTrue same => exact ⟨_, rfl, named _ (by decide) same⟩
  case isFalse =>
    split
    case isTrue same => exact ⟨_, rfl, named _ (by decide) same⟩
    case isFalse => exact ⟨_, rfl, String.toList_ofList⟩

theorem parseMediaType_canonical {text : String} (canonical : Canonical text.toList) :
    ∃ media, parseMediaType text = .ok media ∧ media.asStr = text := by
  obtain ⟨mediaType, subtype, charset, spelled, same⟩ := canonical
  obtain ⟨media, finished, spelling⟩ := finishMediaType_spelled _ _ _ spelled
  refine ⟨media, ?_, String.toList_injective (spelling.trans same.symm)⟩
  have absent := spelled.essence_avoids _ _ _ ';' (by decide) (by decide)
  have parts : parseParts (mediaType ++ '/' :: subtype) ((charset.map (" charset=".toList ++ ·)).toList) = .ok media := by
    rw [parseParts, splitOnce_append '/' _ _ (token_avoids mediaType spelled.first.1 '/' (by decide))]
    simp only [spelled.first.1, spelled.second.1]
    cases charset with
    | none => exact finished
    | some value =>
      simp only [map_some, toList_some, parseParameters_spelled (spelled.parameter value rfl)]
      exact finished
  have splits : splitChar ';' text.toList =
      (mediaType ++ '/' :: subtype) :: (charset.map (" charset=".toList ++ ·)).toList := by
    rw [same, spelled.spelling]
    cases charset with
    | none => simpa using splitChar_absent absent
    | some value =>
      have rest : ';' ∉ " charset=".toList ++ value := by
        rw [mem_append, not_or]
        exact ⟨by decide, token_avoids value (spelled.parameter value rfl).1 ';' (by decide)⟩
      have cut := splitChar_append (mediaType ++ '/' :: subtype) (" charset=".toList ++ value) absent
      rw [splitChar_absent rest] at cut
      exact cut
  rw [parseMediaType, if_neg (by rw [same]; exact Nat.not_lt.mpr spelled.fits), splits]
  simp only [spelled.essence_solid]
  exact parts

namespace StreamContentType

theorem normal : contentType.media.Normal := by
  obtain ⟨media, input, parsed⟩ := contentType
  exact parseMediaType_normal input media parsed

theorem canonical : Canonical contentType.asStr.toList := contentType.normal.canonical

theorem asStr_injective {a b : StreamContentType} (same : a.asStr = b.asStr) : a = b := by
  have media := MediaType.Normal.asStr_injective a.normal b.normal same
  cases a
  cases media
  rfl

theorem fromStr_ok_iff : fromStr input = .ok contentType ↔ parseMediaType input = .ok contentType.media := by
  unfold fromStr
  split
  · rename_i media parsed
    obtain ⟨held, _⟩ := contentType
    simp [parsed]
  · rename_i error parsed
    simp [parsed]

theorem fromStr_asStr : fromStr contentType.asStr = .ok contentType := by
  obtain ⟨media, parsed, same⟩ := parseMediaType_canonical contentType.canonical
  rw [fromStr_ok_iff, parsed, MediaType.Normal.asStr_injective (parseMediaType_normal _ _ parsed) contentType.normal same]

theorem validateCanonical_asStr : validateCanonical contentType.asStr = .ok contentType.asStr :=
  (validateCanonical_ok_iff _ _).mpr ⟨rfl, contentType.canonical⟩

theorem exists_of_validateCanonical (output : String) (accepted : validateCanonical input = .ok output) :
    ∃ contentType, fromStr input = .ok contentType ∧ input = contentType.asStr := by
  obtain ⟨_, canonical⟩ := (validateCanonical_ok_iff _ _).mp accepted
  obtain ⟨media, parsed, same⟩ := parseMediaType_canonical canonical
  exact ⟨⟨media, input, parsed⟩, (fromStr_ok_iff _ _).mpr parsed, same.symm⟩

end StreamContentType

end StromDB
