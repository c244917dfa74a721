import EdgeDNS.Basic
import Mathlib.Algebra.Ring.Int.Defs
import Mathlib.Algebra.Ring.Nat
import Mathlib.Data.List.Induction
import Mathlib.Data.List.TakeWhile

/-!
# Text in fixed buffers

The text functions of the server over byte strings. A C string is the bytes of
a buffer before the first zero. `Utils::String::getParamFromCharBuffer` looks
for the first occurrence of a key only and copies a value into a buffer of a
given size; `paramValue` is the value before it is cut to that size.

The conversions follow the C library: `strtol` skips white space, takes an
optional sign and as many digits as there are; `atoi` clamps the value to 64
bits and keeps its low 32, and `std::stoi` and `std::stoul` throw when there is
no digit or the value is out of range. `NumberParts` is what they tell apart in a text
(`parseLong_eq_some_iff`).
-/

set_option autoImplicit false

namespace EdgeDNS.Utils

/-- The C string at the front of a buffer. -/
def cString (buffer : List UInt8) : List UInt8 := buffer.takeWhile (· != 0)

/-- The bytes from the first occurrence of the key on. -/
def strstr (key : List UInt8) : List UInt8 → Option (List UInt8)
  | [] => if key = [] then some [] else none
  | byte :: text =>
      if key.isPrefixOf (byte :: text) then some (byte :: text) else strstr key text

/-- The value that follows the first occurrence of the key, if an equals sign
stands between them: the bytes before the next ampersand. -/
def paramValue (buffer key : List UInt8) : Option (List UInt8) :=
  match strstr key (cString buffer) with
  | none => none
  | some found =>
      match found.drop key.length with
      | 61 :: value => some (value.takeWhile (· != 38))
      | _ => none

/-- The C string that `getParamFromCharBuffer` leaves in a buffer of `maxLen`
bytes, when it returns true. -/
def getParamFromCharBuffer (buffer key : List UInt8) (maxLen : Nat) : Option (List UInt8) :=
  (paramValue buffer key).map (List.take (maxLen - 1))

theorem strstr_length_le {key text found : List UInt8} (occurs : strstr key text = some found) :
    found.length ≤ text.length := by
  induction text with
  | nil =>
      rw [strstr] at occurs
      split at occurs
      · cases occurs
        exact Nat.le_refl _
      · cases occurs
  | cons byte text ih =>
      rw [strstr] at occurs
      split at occurs
      · cases occurs
        exact Nat.le_refl _
      · exact Nat.le_succ_of_le (ih occurs)

/-- A value leaves room for the equals sign before it. -/
theorem paramValue_length_lt {buffer key value : List UInt8}
    (given : paramValue buffer key = some value) : value.length < buffer.length := by
  rw [paramValue] at given
  split at given
  · cases given
  · next found occurs =>
      have inText := strstr_length_le occurs
      have inBuffer : (cString buffer).length ≤ buffer.length :=
        (List.takeWhile_sublist _).length_le
      split at given
      · next rest behind =>
          cases given
          have cut : (rest.takeWhile (· != 38)).length ≤ rest.length :=
            (List.takeWhile_sublist _).length_le
          have split := congrArg List.length behind
          rw [List.length_drop, List.length_cons] at split
          omega
      · cases given

/-- `isspace` in the C locale. -/
def isSpace (byte : UInt8) : Bool := byte == 32 || (9 ≤ byte && byte ≤ 13)

/-- The byte is a decimal digit. -/
def isDigit (byte : UInt8) : Bool := 48 ≤ byte && byte ≤ 57

/-- The tokens between white space. The token read so far stands in reverse. -/
def splitBySpaceLoop : List UInt8 → List UInt8 → List (List UInt8)
  | [], [] => []
  | token, [] => [token.reverse]
  | token, byte :: text =>
      if isSpace byte then
        if token = [] then splitBySpaceLoop [] text
        else token.reverse :: splitBySpaceLoop [] text
      else splitBySpaceLoop (byte :: token) text

/-- The words of a text between its spaces. -/
def splitBySpace (text : List UInt8) : List (List UInt8) := splitBySpaceLoop [] text

/-- The value of a string of digits. -/
def digitsValue (digits : List UInt8) : Nat :=
  digits.foldl (fun value digit => value * 10 + (digit.toNat - 48)) 0

/-- Whether a minus sign stands at the front of a text, and the text behind a
sign. -/
def readSign (text : List UInt8) : Bool × List UInt8 :=
  match text with
  | 45 :: text => (true, text)
  | 43 :: text => (false, text)
  | text => (false, text)

/-- The number at the front of a text: its sign, and its digits if there are
any. -/
def signedDigits (text : List UInt8) : Option (Bool × Nat) :=
  let (negative, text) := readSign (text.dropWhile isSpace)
  let digits := text.takeWhile isDigit
  if digits = [] then none else some (negative, digitsValue digits)

/-- The number at the front of a text, without a bound. -/
def parseLong (text : List UInt8) : Option Int :=
  (signedDigits text).map fun (negative, value) => if negative then -(value : Int) else value

/-- `(int) strtol(text)`: zero when there is no number. -/
def atoi (text : List UInt8) : Int :=
  let value := (parseLong text).getD 0
  Int.bmod (max (-(2 ^ 63)) (min value (2 ^ 63 - 1))) (2 ^ 32)

/-- An exception of the standard library. -/
inductive StdException
  | invalidArgument
  | outOfRange
deriving DecidableEq, Repr

/-- `std::stoi`: an integer at the front of the text, if it fits 32 bits. -/
def stoi (text : List UInt8) : Except StdException Int :=
  match parseLong text with
  | none => .error .invalidArgument
  | some value =>
      if -(2 ^ 31) ≤ value ∧ value < 2 ^ 31 then .ok value else .error .outOfRange

/-- A minus sign negates modulo 2 to the 64. -/
def stoul (text : List UInt8) : Except StdException UInt64 :=
  match signedDigits text with
  | none => .error .invalidArgument
  | some (negative, value) =>
      if value < 2 ^ 64 then
        .ok (if negative then -UInt64.ofNat value else UInt64.ofNat value)
      else .error .outOfRange

/-! ## Decimal numerals -/

/-- A decimal numeral of at most ten digits, and its value. -/
structure Numeral (text : List UInt8) (value : Nat) : Prop where
  digits : ∀ byte ∈ text, isDigit byte = true
  nonempty : text ≠ []
  short : text.length ≤ 10
  value : digitsValue text = value

theorem isDigit_ne {byte other : UInt8} (digit : isDigit byte = true)
    (notDigit : isDigit other = false) : byte ≠ other := by
  rintro rfl
  exact Bool.false_ne_true (notDigit.symm.trans digit)

theorem not_isSpace_of_isDigit {byte : UInt8} (digit : isDigit byte = true) :
    isSpace byte = false := by
  simp only [isDigit, Bool.and_eq_true, decide_eq_true_eq, UInt8.le_iff_toNat_le] at digit
  simp only [isSpace, Bool.or_eq_false_iff, beq_eq_false_iff_ne, Bool.and_eq_false_iff,
    decide_eq_false_iff_not, UInt8.le_iff_toNat_le]
  refine ⟨?_, .inr ?_⟩
  · rintro rfl
    exact absurd digit.1 (by decide)
  · have thirteen : (13 : UInt8).toNat = 13 := rfl
    have fortyEight : (48 : UInt8).toNat = 48 := rfl
    omega

/-- What `strtol` tells apart in a text: blanks, a sign, digits and what follows them. -/
structure NumberParts (text blanks sign digits rest : List UInt8) : Prop where
  split : text = blanks ++ (sign ++ (digits ++ rest))
  blank : ∀ byte ∈ blanks, isSpace byte = true
  isSign : sign = [] ∨ sign = [43] ∨ sign = [45]
  nonempty : digits ≠ []
  digits : ∀ byte ∈ digits, isDigit byte = true
  behind : ∀ byte, rest.head? = some byte → isDigit byte = false

theorem dropWhile_of_head {p : UInt8 → Bool} {text : List UInt8}
    (stops : ∀ byte, text.head? = some byte → p byte = false) : text.dropWhile p = text := by
  cases text with
  | nil => rfl
  | cons byte text => simp [stops byte rfl]

theorem takeWhile_of_head {p : UInt8 → Bool} {text : List UInt8}
    (stops : ∀ byte, text.head? = some byte → p byte = false) : text.takeWhile p = [] := by
  cases text with
  | nil => rfl
  | cons byte text => simp [stops byte rfl]

theorem head?_dropWhile_false {p : UInt8 → Bool} {text : List UInt8} {byte : UInt8}
    (isHead : (text.dropWhile p).head? = some byte) : p byte = false := by
  have stops := List.head?_dropWhile_not p text
  rw [isHead] at stops
  simpa using stops

/-- What `readSign` makes of a sign before digits. -/
theorem readSign_append {sign digits rest : List UInt8}
    (isSign : sign = [] ∨ sign = [43] ∨ sign = [45]) (nonempty : digits ≠ [])
    (allDigits : ∀ byte ∈ digits, isDigit byte = true) :
    readSign (sign ++ (digits ++ rest)) = (sign == [45], digits ++ rest) := by
  obtain ⟨byte, digits, rfl⟩ := List.exists_cons_of_ne_nil nonempty
  have first := allDigits byte (List.mem_cons_self ..)
  rcases isSign with rfl | rfl | rfl
  · simp only [List.nil_append, List.cons_append, readSign]
    split
    · next isMinus => exact absurd (List.cons.inj isMinus).1 (isDigit_ne first rfl)
    · next isPlus => exact absurd (List.cons.inj isPlus).1 (isDigit_ne first rfl)
    · rfl
  · rfl
  · rfl

theorem NumberParts.signedDigits {text blanks sign digits rest : List UInt8}
    (parts : NumberParts text blanks sign digits rest) :
    signedDigits text = some (sign == [45], digitsValue digits) := by
  obtain ⟨rfl, blank, isSign, nonempty, allDigits, behind⟩ := parts
  have signed := @readSign_append sign digits rest isSign nonempty allDigits
  have noBlank : ∀ byte, (sign ++ (digits ++ rest)).head? = some byte → isSpace byte = false := by
    obtain ⟨digit, digits, rfl⟩ := List.exists_cons_of_ne_nil nonempty
    have first := not_isSpace_of_isDigit (allDigits digit (List.mem_cons_self ..))
    rcases isSign with rfl | rfl | rfl <;> rintro byte ⟨⟩
    · exact first
    · rfl
    · rfl
  simp only [Utils.signedDigits, List.dropWhile_append_of_pos blank, dropWhile_of_head noBlank,
    signed, List.takeWhile_append_of_pos allDigits, takeWhile_of_head behind, List.append_nil,
    if_neg nonempty]

/-- A text splits at the sign that `readSign` reads. -/
theorem readSign_split (text : List UInt8) :
    ∃ sign, text = sign ++ (readSign text).2 ∧ (sign = [] ∨ sign = [43] ∨ sign = [45]) := by
  unfold readSign
  split
  · exact ⟨[45], rfl, .inr (.inr rfl)⟩
  · exact ⟨[43], rfl, .inr (.inl rfl)⟩
  · exact ⟨[], rfl, .inl rfl⟩

/-- A text that `strtol` reads a number in has the parts. -/
theorem exists_numberParts {text : List UInt8} (given : (signedDigits text).isSome) :
    ∃ blanks sign digits rest, NumberParts text blanks sign digits rest := by
  obtain ⟨sign, split, isSign⟩ := readSign_split (text.dropWhile isSpace)
  simp only [signedDigits] at given
  split at given
  · cases given
  · next nonempty =>
      refine ⟨text.takeWhile isSpace, sign, (readSign (text.dropWhile isSpace)).2.takeWhile isDigit,
        (readSign (text.dropWhile isSpace)).2.dropWhile isDigit, ?_, ?_, isSign, nonempty, ?_, ?_⟩
      · rw [List.takeWhile_append_dropWhile, ← split, List.takeWhile_append_dropWhile]
      · exact fun byte member => List.mem_takeWhile_imp member
      · exact fun byte member => List.mem_takeWhile_imp member
      · exact fun byte isHead => head?_dropWhile_false isHead

/-- **The number at the front of a text**, told by its parts. -/
theorem parseLong_eq_some_iff {text : List UInt8} {value : Int} :
    parseLong text = some value ↔ ∃ blanks sign digits rest,
      NumberParts text blanks sign digits rest ∧
        value = if sign = [45] then -(digitsValue digits : Int) else digitsValue digits := by
  constructor
  · intro given
    have present : (signedDigits text).isSome := by
      obtain ⟨number, isNumber, -⟩ := Option.map_eq_some_iff.mp given
      exact Option.isSome_of_eq_some isNumber
    obtain ⟨blanks, sign, digits, rest, parts⟩ := exists_numberParts present
    refine ⟨blanks, sign, digits, rest, parts, ?_⟩
    rw [parseLong, parts.signedDigits] at given
    simpa using (Option.some.inj given).symm
  · rintro ⟨blanks, sign, digits, rest, parts, rfl⟩
    rw [parseLong, parts.signedDigits]
    simp

theorem stoi_eq_ok_iff {text : List UInt8} {value : Int} :
    stoi text = .ok value ↔ parseLong text = some value ∧ -(2 ^ 31) ≤ value ∧ value < 2 ^ 31 := by
  rw [stoi]
  cases parseLong text with
  | none => simp
  | some number =>
      simp only [Option.some.injEq]
      constructor
      · intro isRead
        split at isRead
        · next inRange =>
            cases isRead
            exact ⟨rfl, inRange⟩
        · cases isRead
      · rintro ⟨rfl, inRange⟩
        exact if_pos inRange

/-- Digits alone have no other part. -/
theorem NumberParts.of_digits {text : List UInt8} (nonempty : text ≠ [])
    (digits : ∀ byte ∈ text, isDigit byte = true) : NumberParts text [] [] text [] where
  split := by simp
  blank := by simp
  isSign := .inl rfl
  nonempty := nonempty
  digits := digits
  behind := by simp

/-- A numeral is read without a sign and to its end. -/
theorem Numeral.parseLong {text : List UInt8} {value : Nat} (numeral : Numeral text value) :
    parseLong text = some (value : Int) := by
  refine parseLong_eq_some_iff.mpr
    ⟨[], [], text, [], .of_digits numeral.nonempty numeral.digits, ?_⟩
  simp [numeral.value]

theorem digitsValue_append (digits : List UInt8) (digit : UInt8) :
    digitsValue (digits ++ [digit]) = digitsValue digits * 10 + (digit.toNat - 48) := by
  rw [digitsValue, digitsValue, List.foldl_append]
  rfl

/-- A numeral of `n` digits is below `10 ^ n`. -/
theorem digitsValue_lt {digits : List UInt8} (allDigits : ∀ byte ∈ digits, isDigit byte = true) :
    digitsValue digits < 10 ^ digits.length := by
  induction digits using List.reverseRecOn with
  | nil => exact Nat.one_pos
  | append_singleton digits digit ih =>
      have before := ih fun byte member => allDigits byte (List.mem_append_left _ member)
      have last := allDigits digit (by simp)
      have atMost : digit.toNat - 48 ≤ 9 := by
        simp only [isDigit, Bool.and_eq_true, decide_eq_true_eq, UInt8.le_iff_toNat_le] at last
        have fiftySeven : (57 : UInt8).toNat = 57 := rfl
        omega
      rw [digitsValue_append, List.length_append, List.length_singleton, Nat.pow_succ]
      omega

/-- `atoi` reads a numeral modulo 2 to the 32. -/
theorem Numeral.atoi {text : List UInt8} {value : Nat} (numeral : Numeral text value) :
    atoi text = Int.bmod value (2 ^ 32) := by
  have bound : value < 10 ^ 10 := by
    calc value = digitsValue text := numeral.value.symm
      _ < 10 ^ text.length := digitsValue_lt numeral.digits
      _ ≤ 10 ^ 10 := Nat.pow_le_pow_right (by decide) numeral.short
  have clamped : max (-(2 ^ 63)) (min (value : Int) (2 ^ 63 - 1)) = value := by omega
  simp only [Utils.atoi, numeral.parseLong, Option.getD_some, clamped]

/-- A 32-bit number written out is read back. -/
theorem Numeral.toUInt32 {text : List UInt8} {number : UInt32}
    (numeral : Numeral text number.toNat) : UInt32.ofInt (Utils.atoi text) = number := by
  have small := number.toNat_lt
  have modulus : (Int.bmod (number.toNat : Int) (2 ^ 32)) % 2 ^ 32 = number.toNat := by
    have reduced := @Int.bmod_emod (number.toNat : Int) (2 ^ 32)
    omega
  rw [numeral.atoi, UInt32.ofInt, modulus, Int.toNat_natCast, UInt32.ofNat_toNat]

/-- A 16-bit number is read as it stands. -/
theorem Numeral.atoi_small {text : List UInt8} {number : UInt16}
    (numeral : Numeral text number.toNat) : Utils.atoi text = number.toNat := by
  have small := number.toNat_lt
  rw [numeral.atoi]
  exact Int.bmod_eq_of_le (by omega) (by omega)

theorem Numeral.toUInt16 {text : List UInt8} {number : UInt16}
    (numeral : Numeral text number.toNat) : UInt16.ofInt (Utils.atoi text) = number := by
  have small := number.toNat_lt
  have modulus : (number.toNat : Int) % 2 ^ 16 = number.toNat := by omega
  rw [numeral.atoi_small, UInt16.ofInt, modulus, Int.toNat_natCast, UInt16.ofNat_toNat]

end EdgeDNS.Utils
