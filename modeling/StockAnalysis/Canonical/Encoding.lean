import Mathlib.Data.List.TakeWhile
import StockAnalysis.Foundation.Delimited
import StockAnalysis.Foundation.TextRecord

/-!
# Canonical preimages

The bytes that every digest of the push jobs is taken over: a domain, a NUL and one JSON object in
a fixed notation. A map is the list of its entries in the order in which it iterates. The bytes
determine the domain and the fields, whatever texts and whatever nesting they hold.
-/

namespace StockAnalysis.Canonical

open StockAnalysis.Delimited
open StockAnalysis.TextRecord (isDigit_of_mem_toDigits)

inductive CanonicalValue where
  | null
  | bool (value : Bool)
  | string (value : String)
  | unsigned (value : Nat)
  | array (values : List CanonicalValue)
  | object (fields : List (String × CanonicalValue))

abbrev Fields := List (String × CanonicalValue)

/-- The bytes of a text. -/
def utf8 (characters : List Char) : List UInt8 :=
  characters.flatMap String.utf8EncodeChar

/-- The lower case hexadecimal digit of a value below sixteen. -/
def hex (digit : Nat) : UInt8 :=
  UInt8.ofNat (if digit < 10 then 48 + digit else 87 + digit)

/-- What `write_json_string` appends for one character. -/
def writeCharacter (character : Char) : List UInt8 :=
  match character with
  | '"' => [92, 34]
  | '\\' => [92, 92]
  | '\x08' => [92, 98]
  | '\t' => [92, 116]
  | '\n' => [92, 110]
  | '\x0c' => [92, 102]
  | '\r' => [92, 114]
  | other =>
    if other.toNat ≤ 0x1f then
      [92, 117, 48, 48, hex (other.toNat / 16), hex (other.toNat % 16)]
    else String.utf8EncodeChar other

def writeJsonString (value : String) : List UInt8 :=
  34 :: (value.toList.flatMap writeCharacter ++ [34])

mutual

def writeJsonValue : CanonicalValue → List UInt8
  | .null => [110, 117, 108, 108]
  | .bool value => if value then [116, 114, 117, 101] else [102, 97, 108, 115, 101]
  | .string value => writeJsonString value
  | .unsigned value => utf8 (Nat.toDigits 10 value)
  | .array values => 91 :: (writeElements 0 values ++ [93])
  | .object fields => 123 :: (writeEntries 0 fields ++ [125])

/-- The loop over an array. -/
def writeElements (index : Nat) : List CanonicalValue → List UInt8
  | [] => []
  | value :: values =>
    (if index ≠ 0 then [44] else []) ++ writeJsonValue value ++ writeElements (index + 1) values

/-- The loop of `write_json_object`. -/
def writeEntries (index : Nat) : List (String × CanonicalValue) → List UInt8
  | [] => []
  | (key, value) :: fields =>
    (if index ≠ 0 then [44] else []) ++ (writeJsonString key ++ 58 :: writeJsonValue value) ++
      writeEntries (index + 1) fields

end

def writeJsonObject (fields : Fields) : List UInt8 :=
  123 :: (writeEntries 0 fields ++ [125])

def canonicalPreimage (domain : String) (fields : Fields) : List UInt8 :=
  utf8 domain.toList ++ 0 :: writeJsonObject fields

/-! ## Characters -/

theorem utf8_cancels (character : Char) :
    Cancels (fun _ => True) String.utf8EncodeChar character := by
  intro other rest tail _ _ same
  have decoded := congrArg (fun bytes => bytes.toByteArray.utf8DecodeChar? 0) same
  simp only [List.toByteArray_append, ByteArray.utf8DecodeChar?_utf8EncodeChar_append,
    Option.some.injEq] at decoded
  subst decoded
  exact ⟨rfl, List.append_cancel_left same⟩

/-- A character is one byte below 128, or begins with a byte above. -/
theorem utf8EncodeChar_head (character : Char) : ∃ byte bytes,
    String.utf8EncodeChar character = byte :: bytes ∧
      (byte.toNat = character.toNat ∧ bytes = [] ∨ 128 ≤ byte.toNat) := by
  simp only [String.utf8EncodeChar, Char.toNat]
  generalize character.val.toNat = value
  split
  · exact ⟨_, _, rfl, .inl ⟨by rw [UInt8.toNat_ofNat']; omega, rfl⟩⟩
  split
  · exact ⟨_, _, rfl, .inr (by rw [UInt8.toNat_ofNat']; omega)⟩
  split
  · exact ⟨_, _, rfl, .inr (by rw [UInt8.toNat_ofNat']; omega)⟩
  · exact ⟨_, _, rfl, .inr (by rw [UInt8.toNat_ofNat']; omega)⟩

variable {character : Char}

theorem utf8_apart (close : UInt8) (ascii : close.toNat < 128)
    (other : character.toNat ≠ close.toNat) :
    Apart close String.utf8EncodeChar character := by
  intro rest
  obtain ⟨byte, bytes, code, head⟩ := utf8EncodeChar_head character
  rw [code, List.cons_append, List.head?_cons]
  intro same
  obtain rfl := Option.some.inj same
  rcases head with ⟨equal, _⟩ | above
  · exact other equal.symm
  · omega

variable {rest tail : List UInt8}

/-- Texts without NUL are determined by their bytes, also before a NUL. -/
theorem utf8_closed {first second : List Char}
    (firstFree : ∀ character ∈ first, character.toNat ≠ 0)
    (secondFree : ∀ character ∈ second, character.toNat ≠ 0)
    (same : utf8 first ++ 0 :: rest = utf8 second ++ 0 :: tail) :
    first = second ∧ rest = tail :=
  flatMap_closed utf8_cancels
    (fun character member => utf8_apart 0 (by decide) (firstFree character member))
    (fun character member => utf8_apart 0 (by decide) (secondFree character member)) same

/-- The characters that are written as an escape. -/
def escaped : List Char :=
  '"' :: '\\' :: (List.range 32).map Char.ofNat

theorem mem_escaped (low : character.toNat ≤ 0x1f) : character ∈ escaped := by
  refine List.mem_cons_of_mem _ (List.mem_cons_of_mem _ (List.mem_map.mpr ?_))
  exact ⟨character.toNat, List.mem_range.mpr (by omega), Char.ofNat_toNat character⟩

theorem writeCharacter_escaped : ∀ character ∈ escaped,
    (writeCharacter character).head? = some 92 :=
  -- The list has to be searched, not the type of characters, which is finite too.
  @of_decide_eq_true _ (List.decidableBAll _ _) (by decide +kernel)

/-- No escape is the beginning of another one. -/
theorem escapes_apart : ∀ first ∈ escaped, ∀ second ∈ escaped,
    (writeCharacter first).isPrefixOf (writeCharacter second) = true → first = second :=
  @of_decide_eq_true _ (@List.decidableBAll _ _ (fun _ => List.decidableBAll _ _) _)
    (by decide +kernel)

theorem writeCharacter_plain (plain : character ∉ escaped) :
    writeCharacter character = String.utf8EncodeChar character := by
  have notLow : ¬ character.toNat ≤ 0x1f := fun low => plain (mem_escaped low)
  unfold writeCharacter
  split <;> first | exact absurd (by decide) plain | exact if_neg notLow

theorem plain_apart (plain : character ∉ escaped) (close : UInt8)
    (escape : Char.ofNat close.toNat ∈ escaped) (ascii : close.toNat < 128) :
    Apart close writeCharacter character := by
  unfold Apart
  rw [writeCharacter_plain plain]
  refine utf8_apart close ascii fun same => plain ?_
  rwa [← same, Char.ofNat_toNat] at escape

theorem character_apart (character : Char) : Apart 34 writeCharacter character := by
  by_cases isEscaped : character ∈ escaped
  · intro rest
    have head := writeCharacter_escaped character isEscaped
    rw [List.head?_append_of_ne_nil _ (fun empty => by simp [empty] at head), head]
    decide
  · exact plain_apart isEscaped 34 (by decide) (by decide)

theorem escaped_ne_plain {first second : Char} (isEscaped : first ∈ escaped)
    (plain : second ∉ escaped) (rest tail : List UInt8) :
    writeCharacter first ++ rest ≠ writeCharacter second ++ tail := by
  intro same
  have head := writeCharacter_escaped first isEscaped
  refine plain_apart plain 92 (by decide) (by decide) tail ?_
  rw [← same, List.head?_append_of_ne_nil _ (fun empty => by simp [empty] at head), head]

theorem character_cancels (character : Char) :
    Cancels (fun _ => True) writeCharacter character := by
  intro other rest tail _ _ same
  by_cases isEscaped : character ∈ escaped
  · by_cases otherEscaped : other ∈ escaped
    · have isOther : character = other := by
        rcases List.prefix_or_prefix_of_prefix ⟨rest, same⟩ ⟨tail, rfl⟩ with before | before
        · exact escapes_apart _ isEscaped _ otherEscaped (List.isPrefixOf_iff_prefix.mpr before)
        · exact (escapes_apart _ otherEscaped _ isEscaped
            (List.isPrefixOf_iff_prefix.mpr before)).symm
      subst isOther
      exact ⟨rfl, List.append_cancel_left same⟩
    · exact absurd same (escaped_ne_plain isEscaped otherEscaped rest tail)
  · by_cases otherEscaped : other ∈ escaped
    · exact absurd same.symm (escaped_ne_plain otherEscaped isEscaped tail rest)
    · rw [writeCharacter_plain isEscaped, writeCharacter_plain otherEscaped] at same
      exact utf8_cancels character other rest tail trivial trivial same

theorem string_cancels (stops : List UInt8 → Prop) (value : String) :
    Cancels stops writeJsonString value := by
  intro other rest tail _ _ same
  simp only [writeJsonString, List.cons_append, List.append_assoc, List.cons.injEq, true_and,
    List.nil_append] at same
  obtain ⟨characters, remaining⟩ := flatMap_closed character_cancels
    (fun character _ => character_apart character) (fun character _ => character_apart character)
    same
  exact ⟨String.toList_injective characters, remaining⟩

/-! ## Values -/

def isDigit (byte : UInt8) : Bool :=
  48 ≤ byte.toNat && byte.toNat ≤ 57

/-- No digit follows. -/
def Stops (rest : List UInt8) : Prop :=
  ∀ byte ∈ rest.head?, isDigit byte = false

theorem stops_cons {byte : UInt8} (other : isDigit byte = false) (rest : List UInt8) :
    Stops (byte :: rest) := by
  rintro _ ⟨⟩
  exact other

theorem digit_toNat (digit : character.isDigit = true) :
    48 ≤ character.toNat ∧ character.toNat ≤ 57 := by
  simp only [Char.isDigit, Bool.and_eq_true, decide_eq_true_eq] at digit
  exact ⟨digit.1, digit.2⟩

theorem decimal_digits (value : Nat) : ∀ byte ∈ utf8 (Nat.toDigits 10 value),
    isDigit byte = true := by
  intro byte member
  obtain ⟨character, isCharacter, isByte⟩ := List.mem_flatMap.mp member
  have bounds := digit_toNat (isDigit_of_mem_toDigits isCharacter)
  obtain ⟨first, bytes, code, ⟨equal, rfl⟩ | above⟩ := utf8EncodeChar_head character
  · rw [code, List.mem_singleton] at isByte
    subst isByte
    simp only [isDigit, Bool.and_eq_true, decide_eq_true_eq]
    omega
  · -- a digit is one byte below 128
    have single : String.utf8EncodeChar character = [UInt8.ofNat character.toNat] :=
      if_pos (show character.toNat ≤ 127 by omega)
    rw [code, List.cons.injEq] at single
    rw [single.1, UInt8.toNat_ofNat'] at above
    omega

theorem takeWhile_decimal (value : Nat) (stops : Stops rest) :
    (utf8 (Nat.toDigits 10 value) ++ rest).takeWhile isDigit = utf8 (Nat.toDigits 10 value) := by
  rw [List.takeWhile_append_of_pos (decimal_digits value)]
  cases rest with
  | nil => exact List.append_nil _
  | cons byte rest =>
    rw [List.takeWhile_cons_of_neg (by simp [stops byte rfl]), List.append_nil]

theorem decimal_cancels (value : Nat) :
    Cancels Stops (fun value => utf8 (Nat.toDigits 10 value)) value := by
  intro other rest tail restStops tailStops same
  have digits := congrArg (List.takeWhile isDigit) same
  rw [takeWhile_decimal value restStops, takeWhile_decimal other tailStops] at digits
  have free (number : Nat) : ∀ character ∈ Nat.toDigits 10 number, character.toNat ≠ 0 := by
    intro character member
    have bounds := digit_toNat (isDigit_of_mem_toDigits member)
    omega
  have texts := (utf8_closed (free value) (free other)
    (congrArg (fun bytes => bytes ++ (0 : UInt8) :: ([] : List UInt8)) digits)).1
  have equal : value = other := by
    rw [← @Nat.ofDigitChars_ten_toDigits value, texts, Nat.ofDigitChars_ten_toDigits]
  subst equal
  exact ⟨rfl, List.append_cancel_left same⟩

/-- What the first byte of a value says about it. -/
def kindOf (byte : UInt8) : Nat :=
  if byte = 110 then 0 else if byte = 116 ∨ byte = 102 then 1 else if byte = 34 then 2
  else if isDigit byte then 3 else if byte = 91 then 4 else if byte = 123 then 5 else 6

def CanonicalValue.kind : CanonicalValue → Nat
  | .null => 0
  | .bool _ => 1
  | .string _ => 2
  | .unsigned _ => 3
  | .array _ => 4
  | .object _ => 5

theorem value_head (value : CanonicalValue) : ∃ byte bytes,
    writeJsonValue value = byte :: bytes ∧ kindOf byte = value.kind := by
  cases value with
  | null => exact ⟨_, _, rfl, by decide⟩
  | bool value =>
    cases value with
    | true => exact ⟨_, _, rfl, by decide⟩
    | false => exact ⟨_, _, rfl, by decide⟩
  | string value => exact ⟨_, _, rfl, rfl⟩
  | unsigned value =>
    have digits := decimal_digits value
    rw [writeJsonValue]
    cases code : utf8 (Nat.toDigits 10 value) with
    | nil =>
      obtain ⟨character, characters, text⟩ :=
        List.exists_cons_of_ne_nil (TextRecord.toDigits_ne_nil value)
      obtain ⟨byte, bytes, head, _⟩ := utf8EncodeChar_head character
      rw [text, utf8, List.flatMap_cons, head] at code
      cases code
    | cons byte bytes =>
      have digit := digits byte (code ▸ List.mem_cons_self)
      refine ⟨byte, bytes, rfl, ?_⟩
      have bounds : 48 ≤ byte.toNat ∧ byte.toNat ≤ 57 := by
        simpa [isDigit] using digit
      have apart (other : UInt8) (outside : other.toNat < 48 ∨ 57 < other.toNat) :
          byte ≠ other := by
        rintro rfl
        omega
      simp only [kindOf, apart 110 (by decide), apart 116 (by decide), apart 102 (by decide),
        apart 34 (by decide), digit, if_false, if_true, or_self, CanonicalValue.kind]
  | array values => exact ⟨_, _, rfl, rfl⟩
  | object fields => exact ⟨_, _, rfl, rfl⟩

theorem value_apart {close : UInt8} (other : 5 < kindOf close) (value : CanonicalValue) :
    Apart close writeJsonValue value := by
  intro rest same
  obtain ⟨byte, bytes, code, kind⟩ := value_head value
  rw [code, List.cons_append, List.head?_cons] at same
  obtain rfl := Option.some.inj same
  rw [kind] at other
  cases value <;> simp [CanonicalValue.kind] at other

theorem same_kind {value other : CanonicalValue}
    (same : writeJsonValue value ++ rest = writeJsonValue other ++ tail) :
    value.kind = other.kind := by
  obtain ⟨byte, bytes, code, kind⟩ := value_head value
  obtain ⟨byte', bytes', code', kind'⟩ := value_head other
  rw [code, code'] at same
  rw [← kind, ← kind', (List.cons.inj same).1]

theorem writeElements_eq (index : Nat) (values : List CanonicalValue) :
    writeElements index values = separated 44 writeJsonValue index values := by
  induction values generalizing index with
  | nil => rw [writeElements, separated]
  | cons value values ih => rw [writeElements, separated, ih]

/-- The code of an entry of a map. -/
def writeEntry (entry : String × CanonicalValue) : List UInt8 :=
  writeJsonString entry.1 ++ 58 :: writeJsonValue entry.2

theorem writeEntries_eq (index : Nat) (fields : Fields) :
    writeEntries index fields = separated 44 writeEntry index fields := by
  induction fields generalizing index with
  | nil => rw [writeEntries, separated]
  | cons entry fields ih => rw [writeEntries, separated, ih, writeEntry]

theorem entry_apart (entry : String × CanonicalValue) : Apart 125 writeEntry entry := by
  intro rest same
  cases Option.some.inj same

theorem entry_cancels {entry : String × CanonicalValue}
    (value : Cancels Stops writeJsonValue entry.2) : Cancels Stops writeEntry entry := by
  intro other rest tail restStops tailStops same
  simp only [writeEntry, List.append_assoc, List.cons_append] at same
  obtain ⟨key, remaining⟩ := string_cancels (fun _ => True) entry.1 other.1 _ _ trivial trivial same
  obtain ⟨content, ends⟩ :=
    value other.2 rest tail restStops tailStops (List.cons.inj remaining).2
  exact ⟨Prod.ext key content, ends⟩

variable {fields others : Fields}

theorem entries_closed (cancels : ∀ entry ∈ fields, Cancels Stops writeJsonValue entry.2)
    (same : writeEntries 0 fields ++ 125 :: rest = writeEntries 0 others ++ 125 :: tail) :
    fields = others ∧ rest = tail := by
  rw [writeEntries_eq, writeEntries_eq] at same
  exact separated_closed (by decide) (stops_cons rfl) (stops_cons rfl) entry_apart
    (fun entry member => entry_cancels (cancels entry member)) 0 same

theorem elements_closed {values others : List CanonicalValue}
    (cancels : ∀ value ∈ values, Cancels Stops writeJsonValue value)
    (same : writeElements 0 values ++ 93 :: rest = writeElements 0 others ++ 93 :: tail) :
    values = others ∧ rest = tail := by
  rw [writeElements_eq, writeElements_eq] at same
  exact separated_closed (by decide) (stops_cons rfl) (stops_cons rfl) (value_apart (by decide))
    cancels 0 same

-- The induction is on the first value; its kind, read off the first byte, is that of the second.
mutual

theorem value_cancels : ∀ value, Cancels Stops writeJsonValue value
  | .null => by
      intro other rest tail _ _ same
      cases other <;> cases same_kind same
      exact ⟨rfl, List.append_cancel_left same⟩
  | .bool value => by
      intro other rest tail _ _ same
      cases other <;> cases same_kind same
      rename_i other
      cases value <;> cases other <;> simp [writeJsonValue] at same ⊢ <;> exact same
  | .string value => by
      intro other rest tail restStops tailStops same
      cases other <;> cases same_kind same
      obtain ⟨rfl, ends⟩ := string_cancels Stops value _ rest tail restStops tailStops same
      exact ⟨rfl, ends⟩
  | .unsigned value => by
      intro other rest tail restStops tailStops same
      cases other <;> cases same_kind same
      obtain ⟨rfl, ends⟩ := decimal_cancels value _ rest tail restStops tailStops same
      exact ⟨rfl, ends⟩
  | .array values => by
      intro other rest tail _ _ same
      cases other <;> cases same_kind same
      simp only [writeJsonValue, List.cons_append, List.append_assoc, List.cons.injEq, true_and,
        List.nil_append] at same
      obtain ⟨rfl, ends⟩ := elements_closed (values_cancel values) same
      exact ⟨rfl, ends⟩
  | .object fields => by
      intro other rest tail _ _ same
      cases other <;> cases same_kind same
      simp only [writeJsonValue, List.cons_append, List.append_assoc, List.cons.injEq, true_and,
        List.nil_append] at same
      obtain ⟨rfl, ends⟩ := entries_closed (fields_cancel fields) same
      exact ⟨rfl, ends⟩

theorem values_cancel : ∀ values : List CanonicalValue,
    ∀ value ∈ values, Cancels Stops writeJsonValue value
  | [] => by
      intro value member
      cases member
  | first :: values => by
      intro value member
      rcases List.mem_cons.mp member with isFirst | later
      · rw [isFirst]
        exact value_cancels first
      · exact values_cancel values value later

theorem fields_cancel : ∀ fields : List (String × CanonicalValue),
    ∀ entry ∈ fields, Cancels Stops writeJsonValue entry.2
  | [] => by
      intro entry member
      cases member
  | (key, first) :: fields => by
      intro entry member
      rcases List.mem_cons.mp member with isFirst | later
      · rw [isFirst]
        exact value_cancels first
      · exact fields_cancel fields entry later

end

/-- The preimage determines the domain and the fields. -/
theorem canonicalPreimage_injective {domain other : String} (free : Char.ofNat 0 ∉ domain.toList)
    (otherFree : Char.ofNat 0 ∉ other.toList)
    (same : canonicalPreimage domain fields = canonicalPreimage other others) :
    domain = other ∧ fields = others := by
  have nonzero {text : String} (free : Char.ofNat 0 ∉ text.toList) :
      ∀ character ∈ text.toList, character.toNat ≠ 0 := by
    intro character member isZero
    apply free
    rwa [← isZero, Char.ofNat_toNat]
  obtain ⟨domains, objects⟩ := utf8_closed (nonzero free) (nonzero otherFree) same
  refine ⟨String.toList_injective domains, ?_⟩
  exact (entries_closed (fields_cancel fields) (List.cons.inj objects).2).1

end StockAnalysis.Canonical
