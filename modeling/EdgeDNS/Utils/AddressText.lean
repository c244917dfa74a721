import EdgeDNS.Utils.Vector
import Mathlib.Data.List.Forall2

/-!
# Addresses in text

`ipv4ToWire` reads the parts of a text up to each dot with `std::stoi` and wants four
of them, each of a byte. It asks neither for the position where `stoi` ends nor for what
lies behind the last dot: a part may have blanks and a sign before its digits and any
text behind them, and one dot may follow the fourth part.

`IsQuad` is the dotted quad of the addresses, `IsLooseQuad` the texts that are read, with
the bytes that both stand for. The conversion is that of loose quads
(`ipv4ToWire_eq_iff`), and it is exact on the texts that are quads or not even loose
ones (`parsedExactly_iff`).
-/

set_option autoImplicit false

namespace EdgeDNS.Utils

open Dns

/-! ## Quads -/

/-- A decimal number of digits only, and its value. -/
structure IsDecimal (text : List UInt8) (byte : UInt8) : Prop where
  nonempty : text ≠ []
  digits : ∀ digit ∈ text, isDigit digit = true
  value : digitsValue text = byte.toNat

/-- Four decimal numbers from 0 to 255 between single dots. -/
def IsQuad (ip bytes : List UInt8) : Prop :=
  ∃ texts, texts.length = 4 ∧ ip = dotted texts ∧ List.Forall₂ IsDecimal texts bytes

/-- A text that `stoi` reads a byte in: its number is that byte, behind a minus sign zero. -/
def ReadsAs (text : List UInt8) (byte : UInt8) : Prop :=
  ∃ blanks sign digits rest, NumberParts text blanks sign digits rest ∧
    digitsValue digits = byte.toNat ∧ (sign = [45] → byte = 0)

/-- Four texts of bytes between single dots, and perhaps a dot behind them. -/
def IsLooseQuad (ip bytes : List UInt8) : Prop :=
  ∃ texts, texts.length = 4 ∧ (ip = dotted texts ∨ ip = dotted texts ++ [46]) ∧
    (∀ text ∈ texts, 46 ∉ text) ∧ List.Forall₂ ReadsAs texts bytes

/-- The conversion gives four bytes for the quads only, and then those of the quad. -/
structure ParsedExactly (ip : List UInt8) : Prop where
  accepted : (ipv4ToWire ip).length = 4 ↔ ∃ bytes, IsQuad ip bytes
  bytes : ∀ bytes, IsQuad ip bytes → ipv4ToWire ip = bytes
  refused : (¬ ∃ bytes, IsQuad ip bytes) → ipv4ToWire ip = []

/-! ## A part -/

theorem addressByte_eq_some_iff {part : List UInt8} {byte : UInt8} :
    addressByte part = some byte ↔ parseLong part = some (byte.toNat : Int) := by
  have small := byte.toNat_lt
  rw [addressByte]
  constructor
  · intro given
    split at given
    · cases given
    · next value isRead =>
        split at given
        · cases given
        · next inside =>
            have isByte := congrArg UInt8.toNat (Option.some.inj given)
            rw [ofNat8_toNat (by omega)] at isByte
            have isValue : value = byte.toNat := by omega
            rw [← isValue]
            exact (stoi_eq_ok_iff.mp isRead).1
  · intro isNumber
    have isRead : stoi part = .ok (byte.toNat : Int) :=
      stoi_eq_ok_iff.mpr ⟨isNumber, by omega, by omega⟩
    have inside : ¬ ((byte.toNat : Int) < 0 ∨ 255 < (byte.toNat : Int)) := by omega
    simp only [isRead, if_neg inside, Int.toNat_natCast, UInt8.ofNat_toNat]

/-- **A part is read as a byte** exactly when it is one behind blanks and a sign. -/
theorem addressByte_iff {part : List UInt8} {byte : UInt8} :
    addressByte part = some byte ↔ ReadsAs part byte := by
  rw [addressByte_eq_some_iff, parseLong_eq_some_iff, ReadsAs]
  refine exists_congr fun blanks => exists_congr fun sign => exists_congr fun digits =>
    exists_congr fun rest => and_congr_right fun _ => ?_
  rw [← UInt8.toNat_inj, UInt8.toNat_zero]
  split
  · next minus => simp only [minus, forall_const]; omega
  · next noMinus => simp only [noMinus, false_imp_iff, and_true]; omega

theorem ReadsAs.nonempty {text : List UInt8} {byte : UInt8} (read : ReadsAs text byte) :
    text ≠ [] := by
  obtain ⟨blanks, sign, digits, rest, parts, -, -⟩ := read
  rintro rfl
  have split := parts.split
  simp [parts.nonempty] at split

theorem IsDecimal.readsAs {text : List UInt8} {byte : UInt8} (decimal : IsDecimal text byte) :
    ReadsAs text byte :=
  ⟨[], [], text, [], .of_digits decimal.nonempty decimal.digits, decimal.value, by simp⟩

theorem IsDecimal.noDot {text : List UInt8} {byte : UInt8} (decimal : IsDecimal text byte) :
    46 ∉ text :=
  fun isDot => absurd rfl (isDigit_ne (decimal.digits 46 isDot) rfl)

/-! ## The parts of a text -/

/-- The part read so far grows by what has no delimiter. -/
theorem getLines_append {delimiter : UInt8} {label : List UInt8} (noDelimiter : delimiter ∉ label)
    (part text : List UInt8) :
    getLines delimiter part (label ++ text) = getLines delimiter (label.reverse ++ part) text := by
  induction label generalizing part with
  | nil => rfl
  | cons byte label ih =>
      obtain ⟨isOther, others⟩ := not_or.mp (mt List.mem_cons.mpr noDelimiter)
      rw [List.cons_append, getLines, if_neg (Ne.symm isOther), ih others]
      simp

theorem getLines_delimiter (delimiter : UInt8) (part text : List UInt8) :
    getLines delimiter part (delimiter :: text) = part.reverse :: getLines delimiter [] text := by
  rw [getLines, if_pos rfl]

theorem getLines_end {delimiter : UInt8} {part : List UInt8} (started : part ≠ []) :
    getLines delimiter part [] = [part.reverse] := by
  cases part with
  | nil => exact absurd rfl started
  | cons byte part => rfl

theorem getLines_eq_nil_iff {delimiter : UInt8} {part text : List UInt8} :
    getLines delimiter part text = [] ↔ part = [] ∧ text = [] := by
  induction text generalizing part with
  | nil => cases part <;> simp [getLines]
  | cons byte text ih =>
      rw [getLines]
      split <;> simp [ih]

theorem dotted_cons_of_ne_nil (label : List UInt8) {labels : List (List UInt8)}
    (more : labels ≠ []) : dotted (label :: labels) = label ++ 46 :: dotted labels := by
  obtain ⟨other, labels, rfl⟩ := List.exists_cons_of_ne_nil more
  exact dotted_cons_cons label other labels

/-- The parts of a dotted text that a dot follows are all its labels. -/
theorem getLines_dotted_dot {labels : List (List UInt8)} (some : labels ≠ [])
    (noDot : ∀ label ∈ labels, 46 ∉ label) : getLines 46 [] (dotted labels ++ [46]) = labels := by
  induction labels with
  | nil => exact absurd rfl some
  | cons label labels ih =>
      obtain ⟨first, others⟩ := List.forall_mem_cons.mp noDot
      by_cases more : labels = []
      · rw [more, dotted_singleton, getLines_append first, getLines_delimiter]
        simp [getLines]
      · rw [dotted_cons_of_ne_nil label more, List.append_assoc, List.cons_append,
          getLines_append first, getLines_delimiter, ih more others]
        simp

/-- A dotted text gives the same parts without that dot, when its last label is not empty. -/
theorem getLines_dotted {labels : List (List UInt8)} (nonempty : ∀ label ∈ labels, label ≠ [])
    (noDot : ∀ label ∈ labels, 46 ∉ label) : getLines 46 [] (dotted labels) = labels := by
  induction labels with
  | nil => rfl
  | cons label labels ih =>
      obtain ⟨first, others⟩ := List.forall_mem_cons.mp noDot
      obtain ⟨firstFull, othersFull⟩ := List.forall_mem_cons.mp nonempty
      by_cases more : labels = []
      · have whole := getLines_append first [] []
        rw [List.append_nil, List.append_nil, getLines_end (by simpa using firstFull)] at whole
        rw [more, dotted_singleton, whole, List.reverse_reverse]
      · rw [dotted_cons_of_ne_nil label more, getLines_append first, getLines_delimiter,
          ih othersFull others]
        simp

/-- A text is its parts between dots, but for a dot at its end. -/
theorem dotted_getLines (part text : List UInt8) :
    part.reverse ++ text = dotted (getLines 46 part text) ∨
      part.reverse ++ text = dotted (getLines 46 part text) ++ [46] := by
  induction text generalizing part with
  | nil =>
      left
      cases part with
      | nil => rfl
      | cons byte part => rw [getLines_end (by simp), dotted_singleton, List.append_nil]
  | cons byte text ih =>
      by_cases isDot : byte = 46
      · rw [isDot, getLines_delimiter]
        by_cases last : text = []
        · right
          rw [last, getLines, dotted_singleton]
        · have more : getLines 46 [] text ≠ [] := fun none => last (getLines_eq_nil_iff.mp none).2
          rw [dotted_cons_of_ne_nil _ more]
          rcases ih [] with whole | whole
          · left
            rw [← whole]
            rfl
          · right
            rw [List.append_assoc, List.cons_append, ← whole]
            rfl
      · rw [getLines, if_neg isDot]
        have others := ih (byte :: part)
        rwa [List.reverse_cons, List.append_assoc] at others

theorem getLines_noDot {part text : List UInt8} (noDot : 46 ∉ part) :
    ∀ label ∈ getLines 46 part text, 46 ∉ label := by
  induction text generalizing part with
  | nil =>
      intro label member
      by_cases started : part = []
      · rw [started] at member
        cases member
      · rw [getLines_end started, List.mem_singleton] at member
        rwa [member, List.mem_reverse]
  | cons byte text ih =>
      rw [getLines]
      split
      · rw [List.forall_mem_cons, List.mem_reverse]
        exact ⟨noDot, ih List.not_mem_nil⟩
      · next isOther => exact ih (by simpa [Ne.symm isOther] using noDot)

/-- **The parts of a text** are the labels it is the dotted text of, when none is empty. -/
theorem getLines_eq_iff {ip : List UInt8} {texts : List (List UInt8)} (some : texts ≠ [])
    (nonempty : ∀ text ∈ texts, text ≠ []) :
    getLines 46 [] ip = texts ↔
      (ip = dotted texts ∨ ip = dotted texts ++ [46]) ∧ ∀ text ∈ texts, 46 ∉ text := by
  constructor
  · rintro rfl
    exact ⟨dotted_getLines [] ip, getLines_noDot List.not_mem_nil⟩
  · rintro ⟨rfl | rfl, noDot⟩
    · exact getLines_dotted nonempty noDot
    · exact getLines_dotted_dot some noDot

/-! ## The conversion -/

theorem mapM_eq_some_iff {α β : Type} {f : α → Option β} {inputs : List α} {outputs : List β} :
    inputs.mapM f = some outputs ↔
      List.Forall₂ (fun input output => f input = some output) inputs outputs := by
  induction inputs generalizing outputs with
  | nil => cases outputs <;> simp
  | cons input inputs ih =>
      cases outputs with
      | nil => simp [Option.bind_eq_some_iff]
      | cons output outputs => simp [Option.bind_eq_some_iff, ← ih]

theorem forall_left {α β : Type} {R : α → β → Prop} {p : α → Prop} {lefts : List α}
    {rights : List β} (implies : ∀ left right, R left right → p left)
    (related : List.Forall₂ R lefts rights) : ∀ left ∈ lefts, p left := by
  have both : List.Forall₂ (fun left right => p left ∧ R left right) lefts rights :=
    related.imp fun left right one => ⟨implies left right one, one⟩
  exact ((List.forall₂_and_left lefts rights).mp both).1

theorem forall_nonempty {texts : List (List UInt8)} {bytes : List UInt8}
    (read : List.Forall₂ ReadsAs texts bytes) : ∀ text ∈ texts, text ≠ [] :=
  forall_left (fun _ _ one => one.nonempty) read

/-- **The conversion of an address** gives the four bytes of a loose quad. -/
theorem ipv4ToWire_eq_iff {ip bytes : List UInt8} (four : bytes.length = 4) :
    ipv4ToWire ip = bytes ↔ IsLooseQuad ip bytes := by
  have parsed : ipv4ToWire ip = bytes ↔ List.Forall₂ ReadsAs (getLines 46 [] ip) bytes := by
    have sameParts : ReadsAs = fun part byte => addressByte part = some byte :=
      funext₂ fun part byte => propext addressByte_iff.symm
    rw [sameParts, ← mapM_eq_some_iff, ipv4ToWire]
    cases (getLines 46 [] ip).mapM addressByte with
    | none =>
        have full : bytes ≠ [] := List.ne_nil_of_length_eq_add_one four
        simpa using full.symm
    | some wire =>
        simp only [Option.some.injEq]
        constructor
        · intro isWire
          split at isWire
          · exact isWire
          · simp [← isWire] at four
        · rintro rfl
          exact if_pos four
  rw [parsed]
  constructor
  · intro read
    have count := read.length_eq
    rw [four] at count
    have parts := (getLines_eq_iff (List.ne_nil_of_length_eq_add_one count)
      (forall_nonempty read)).mp rfl
    exact ⟨_, count, parts.1, parts.2, read⟩
  · rintro ⟨texts, count, isText, noDot, read⟩
    rw [(getLines_eq_iff (List.ne_nil_of_length_eq_add_one count)
      (forall_nonempty read)).mpr ⟨isText, noDot⟩]
    exact read

theorem IsLooseQuad.length {ip bytes : List UInt8} (loose : IsLooseQuad ip bytes) :
    bytes.length = 4 := by
  obtain ⟨texts, count, -, -, read⟩ := loose
  rw [← read.length_eq, count]

/-- A quad is a loose one. -/
theorem IsQuad.isLooseQuad {ip bytes : List UInt8} (quad : IsQuad ip bytes) :
    IsLooseQuad ip bytes := by
  obtain ⟨texts, count, isText, decimal⟩ := quad
  have noDot : ∀ text ∈ texts, 46 ∉ text := forall_left (fun _ _ one => one.noDot) decimal
  exact ⟨texts, count, .inl isText, noDot, decimal.imp fun _ _ one => one.readsAs⟩

/-- A quad does not end in a dot. -/
theorem IsQuad.getLast? {ip bytes : List UInt8} (quad : IsQuad ip bytes) :
    ip.getLast? ≠ some 46 := by
  obtain ⟨texts, -, rfl, decimal⟩ := quad
  refine dotted_getLast? ?_ (forall_left (fun _ _ one => one.noDot) decimal)
  exact forall_left (fun _ _ one => List.length_pos_of_ne_nil one.nonempty) decimal

/-- A text that is no loose quad gives no byte. -/
theorem ipv4ToWire_of_not_loose {ip : List UInt8} (notLoose : ¬ ∃ bytes, IsLooseQuad ip bytes) :
    ipv4ToWire ip = [] := by
  rcases ipv4ToWire_length ip with empty | four
  · exact List.length_eq_zero_iff.mp empty
  · exact absurd ⟨_, (ipv4ToWire_eq_iff four).mp rfl⟩ notLoose

/-- **The conversion is exact** on the quads and on what is not even a loose one. -/
theorem parsedExactly_iff (ip : List UInt8) :
    ParsedExactly ip ↔ (∃ bytes, IsQuad ip bytes) ∨ ¬ ∃ bytes, IsLooseQuad ip bytes := by
  have parsed : ∀ bytes, IsQuad ip bytes → ipv4ToWire ip = bytes := fun bytes quad =>
    (ipv4ToWire_eq_iff quad.isLooseQuad.length).mpr quad.isLooseQuad
  constructor
  · rintro ⟨-, -, refused⟩
    rw [or_iff_not_imp_left]
    rintro noQuad ⟨bytes, loose⟩
    have isEmpty := (ipv4ToWire_eq_iff loose.length).mpr loose
    rw [refused noQuad] at isEmpty
    exact absurd (isEmpty ▸ loose.length) (by decide)
  · rintro (⟨bytes, quad⟩ | notLoose)
    · have four : (ipv4ToWire ip).length = 4 := by rw [parsed bytes quad, quad.isLooseQuad.length]
      exact
        { accepted := ⟨fun _ => ⟨bytes, quad⟩, fun _ => four⟩
          bytes := parsed
          refused := fun noQuad => absurd ⟨bytes, quad⟩ noQuad }
    · have noQuad : ¬ ∃ bytes, IsQuad ip bytes := fun ⟨bytes, quad⟩ =>
        notLoose ⟨bytes, quad.isLooseQuad⟩
      have empty := ipv4ToWire_of_not_loose notLoose
      exact
        { accepted := ⟨fun four => by simp [empty] at four, fun quad => absurd quad noQuad⟩
          bytes := parsed
          refused := fun _ => empty }

/-- A dot behind the fourth part is not seen, but no quad ends in one. -/
theorem parsedExactly_fails : ¬ ParsedExactly "1.2.3.4.".toUTF8.toList := by
  intro exactly
  have four : (ipv4ToWire "1.2.3.4.".toUTF8.toList).length = 4 := by decide +kernel
  have lastDot : "1.2.3.4.".toUTF8.toList.getLast? = some 46 := by decide +kernel
  obtain ⟨bytes, quad⟩ := exactly.accepted.mp four
  exact quad.getLast? lastDot

end EdgeDNS.Utils
