import Mathlib.Data.List.Basic
import Mathlib.Data.Int.Order.Basic

/-!
# Records written as lines of text

A record is a text of terminated lines, one field a line, with decimal integers. Reading follows
the usual library conventions: a line ends at a line feed, which takes a carriage return before
it along; an unterminated last line counts; a signed integer is an optional sign and at least one
digit. The two round trips say that what was written is what is read.
-/

namespace StockAnalysis.TextRecord

/-- A line as it is read: without the carriage return that preceded its line feed. -/
def dropCarriageReturn (line : List Char) : List Char :=
  if line.getLast? = some '\r' then line.dropLast else line

/-- The lines of a text, with the characters of the line begun so far. -/
def linesFrom (current : List Char) : List Char → List (List Char)
  | [] => if current = [] then [] else [current]
  | c :: rest =>
    if c = '\n' then dropCarriageReturn current :: linesFrom [] rest
    else linesFrom (current ++ [c]) rest

/-- The lines of a text. -/
def lines (text : List Char) : List (List Char) :=
  linesFrom [] text

/-- The text of the given lines, each terminated. -/
def unlines (records : List (List Char)) : List Char :=
  records.flatMap fun line => line ++ ['\n']

/-- A line that holds neither line feed nor carriage return. -/
def Plain (line : List Char) : Prop :=
  '\n' ∉ line ∧ '\r' ∉ line

instance (line : List Char) : Decidable (Plain line) :=
  inferInstanceAs (Decidable (_ ∧ _))

theorem Plain.append {first second : List Char} (left : Plain first) (right : Plain second) :
    Plain (first ++ second) := by
  unfold Plain
  simp only [List.mem_append, not_or]
  exact ⟨⟨left.1, right.1⟩, ⟨left.2, right.2⟩⟩

theorem dropCarriageReturn_plain {line : List Char} (plain : Plain line) :
    dropCarriageReturn line = line := by
  unfold dropCarriageReturn
  rw [if_neg]
  intro ends
  exact plain.2 (List.mem_of_getLast? ends)

theorem linesFrom_terminated (current : List Char) {line : List Char} (rest : List Char)
    (unbroken : '\n' ∉ line) :
    linesFrom current (line ++ '\n' :: rest) =
      dropCarriageReturn (current ++ line) :: linesFrom [] rest := by
  induction line generalizing current with
  | nil => simp [linesFrom]
  | cons c line ih =>
    obtain ⟨different, tail⟩ := not_or.mp (mt List.mem_cons.mpr unbroken)
    rw [List.cons_append, linesFrom, if_neg (Ne.symm different), ih (current ++ [c]) tail]
    simp

theorem lines_unlines {records : List (List Char)} (plain : ∀ line ∈ records, Plain line) :
    lines (unlines records) = records := by
  induction records with
  | nil => rfl
  | cons line records ih =>
    have linePlain := plain line List.mem_cons_self
    have rest := ih fun other member => plain other (List.mem_cons_of_mem line member)
    unfold lines unlines at rest ⊢
    rw [List.flatMap_cons, List.append_assoc, List.singleton_append,
      linesFrom_terminated [] _ linePlain.1, List.nil_append,
      dropCarriageReturn_plain linePlain, rest]

/-- Split at the first occurrence of a character, which belongs to neither part. -/
def splitOnce (separator : Char) : List Char → Option (List Char × List Char)
  | [] => none
  | c :: rest =>
    if c = separator then some ([], rest)
    else (splitOnce separator rest).map fun parts => (c :: parts.1, parts.2)

/-! ## Decimal integers -/

/-- The decimal text of an integer. -/
def showInt (value : Int) : List Char :=
  if value < 0 then '-' :: Nat.toDigits 10 value.natAbs else Nat.toDigits 10 value.natAbs

/-- The value of a nonempty text of decimal digits. -/
def parseDigits (text : List Char) : Option Nat :=
  if text ≠ [] ∧ text.all Char.isDigit then some (Nat.ofDigitChars 10 text 0) else none

/-- The value of an optionally signed decimal text. -/
def parseInt : List Char → Option Int
  | '+' :: rest => (parseDigits rest).map Int.ofNat
  | '-' :: rest => (parseDigits rest).map fun magnitude => -Int.ofNat magnitude
  | text => (parseDigits text).map Int.ofNat

theorem isDigit_of_mem_toDigits {n : Nat} {c : Char} (member : c ∈ Nat.toDigits 10 n) :
    c.isDigit = true :=
  Nat.isDigit_of_mem_toDigits (by decide) (by decide) member

theorem toDigits_ne_nil (n : Nat) : Nat.toDigits 10 n ≠ [] := by
  intro empty
  have value := @Nat.ofDigitChars_ten_toDigits n
  rw [empty] at value
  obtain rfl : n = 0 := by simpa using value.symm
  exact absurd empty (by decide)

theorem parseDigits_toDigits (n : Nat) : parseDigits (Nat.toDigits 10 n) = some n := by
  have digits : (Nat.toDigits 10 n).all Char.isDigit = true :=
    List.all_eq_true.mpr fun _ member => isDigit_of_mem_toDigits member
  rw [parseDigits, if_pos ⟨toDigits_ne_nil n, digits⟩, Nat.ofDigitChars_ten_toDigits]

/-- A text that begins with a digit has no sign to read. -/
theorem parseInt_toDigits (n : Nat) : parseInt (Nat.toDigits 10 n) = some (Int.ofNat n) := by
  have parsed := parseDigits_toDigits n
  have digits : ∀ c ∈ Nat.toDigits 10 n, c.isDigit = true := fun _ => isDigit_of_mem_toDigits
  generalize Nat.toDigits 10 n = text at parsed digits
  unfold parseInt
  split
  · exact absurd (digits '+' List.mem_cons_self) (by decide)
  · exact absurd (digits '-' List.mem_cons_self) (by decide)
  · rw [parsed]
    rfl

theorem parseInt_showInt (value : Int) : parseInt (showInt value) = some value := by
  unfold showInt
  split
  · rename_i negative
    simp only [parseInt, parseDigits_toDigits, Option.map_some, Option.some.injEq]
    simp only [Int.ofNat_eq_natCast]
    omega
  · rw [parseInt_toDigits]
    simp only [Option.some.injEq, Int.ofNat_eq_natCast]
    omega

theorem plain_of_digits {text : List Char} (digits : ∀ c ∈ text, c.isDigit = true) :
    Plain text :=
  ⟨fun member => absurd (digits _ member) (by decide),
    fun member => absurd (digits _ member) (by decide)⟩

theorem plain_showInt (value : Int) : Plain (showInt value) := by
  have magnitude : Plain (Nat.toDigits 10 value.natAbs) :=
    plain_of_digits fun _ => isDigit_of_mem_toDigits
  unfold showInt
  split
  · exact Plain.append (by decide : Plain ['-']) magnitude
  · exact magnitude

end StockAnalysis.TextRecord
