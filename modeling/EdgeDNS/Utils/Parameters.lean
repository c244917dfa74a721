import EdgeDNS.Utils.String
import Mathlib.Data.List.Nodup

/-!
# Named parameters

A parameter is a key and a value with an equals sign between them, and
parameters are joined by ampersands. `getParamFromCharBuffer` looks for the first
place where the bytes of a key occur, be it inside another key or inside a value,
and for no other.

The search goes part by part: a key without the two separators occurs inside a
key or a value, or nowhere (`strstr_append_separator`). So the first pair that
contains it decides (`paramValue_joined`), and `getParam_finds_iff` says when that
is the right one.
-/

set_option autoImplicit false

namespace EdgeDNS.Utils

/-! ## Pairs -/

/-- A key with its value. -/
abbrev Parameter := List UInt8 × List UInt8

/-- No ampersand, no equals sign and no zero. -/
def Plain (text : List UInt8) : Prop := 38 ∉ text ∧ 61 ∉ text ∧ 0 ∉ text

instance (text : List UInt8) : Decidable (Plain text) := inferInstanceAs (Decidable (_ ∧ _))

/-- Parameters that can be told apart: plain ones, with distinct keys of at least one
character. -/
structure Parameters (pairs : List Parameter) : Prop where
  keys : ∀ pair ∈ pairs, pair.1 ≠ [] ∧ Plain pair.1
  values : ∀ pair ∈ pairs, Plain pair.2
  distinct : (pairs.map Prod.fst).Nodup

/-- A pair as it stands in a request. -/
def encodePair (pair : Parameter) : List UInt8 := pair.1 ++ 61 :: pair.2

/-- The pairs with ampersands between them. -/
def joined : List Parameter → List UInt8
  | [] => []
  | [pair] => encodePair pair
  | pair :: other :: pairs => encodePair pair ++ 38 :: joined (other :: pairs)

/-- The result is exactly the value of the key if it has one. -/
def FindsExactly (pairs : List Parameter) (key : List UInt8) (result : Option (List UInt8)) :
    Prop :=
  (∀ value, (key, value) ∈ pairs → result = some value) ∧
    (key ∉ pairs.map Prod.fst → result = none)

/-- The bytes of the key occur in the text. -/
def occursIn (key text : List UInt8) : Bool := (strstr key text).isSome

/-- The bytes of the key occur in the key or in the value of the pair. -/
def occursInPair (key : List UInt8) (pair : Parameter) : Bool :=
  occursIn key pair.1 || occursIn key pair.2

/-- The first of the pairs in which the bytes of the key occur. -/
def firstWith (pairs : List Parameter) (key : List UInt8) : Option Parameter :=
  pairs.find? (occursInPair key)

/-! ## Searching part by part -/

section Search

variable {key : List UInt8} {separator : UInt8}

theorem isPrefixOf_append_separator (noSeparator : separator ∉ key) (text rest : List UInt8) :
    key.isPrefixOf (text ++ separator :: rest) = key.isPrefixOf text := by
  induction key generalizing text with
  | nil => simp
  | cons byte key ih =>
      have notByte : byte ≠ separator := fun same => noSeparator (same ▸ List.mem_cons_self ..)
      cases text with
      | nil => simp [List.isPrefixOf, notByte]
      | cons first text =>
          have others := ih (fun member => noSeparator (List.mem_cons_of_mem _ member)) text
          rw [List.cons_append, List.isPrefixOf, List.isPrefixOf, others]

/-- A key without the separator occurs before it or behind it. -/
theorem strstr_append_separator (notEmpty : key ≠ []) (noSeparator : separator ∉ key)
    (text rest : List UInt8) :
    strstr key (text ++ separator :: rest) =
      match strstr key text with
      | some found => some (found ++ separator :: rest)
      | none => strstr key rest := by
  induction text with
  | nil =>
      have notHere := isPrefixOf_append_separator noSeparator [] rest
      obtain ⟨byte, key, rfl⟩ := List.exists_cons_of_ne_nil notEmpty
      rw [List.nil_append] at notHere ⊢
      rw [strstr, strstr, notHere, if_neg notEmpty]
      rfl
  | cons byte text ih =>
      have here := isPrefixOf_append_separator noSeparator (byte :: text) rest
      rw [List.cons_append] at here ⊢
      rw [strstr, strstr, here]
      split
      · rfl
      · exact ih

/-- What is found begins with the key. -/
theorem strstr_eq_some {text found : List UInt8} (isFound : strstr key text = some found) :
    ∃ tail, found = key ++ tail ∧ found <:+ text := by
  induction text with
  | nil =>
      rw [strstr] at isFound
      split at isFound
      · next isNil =>
          cases isFound
          exact ⟨[], by rw [isNil]; rfl, List.suffix_rfl⟩
      · cases isFound
  | cons byte text ih =>
      rw [strstr] at isFound
      split at isFound
      · next isPrefix =>
          cases isFound
          obtain ⟨tail, split⟩ := List.isPrefixOf_iff_prefix.mp isPrefix
          exact ⟨tail, split.symm, List.suffix_rfl⟩
      · obtain ⟨tail, isSplit, isSuffix⟩ := ih isFound
        exact ⟨tail, isSplit, isSuffix.trans (List.suffix_cons ..)⟩

/-- Every text occurs in itself, at its front. -/
theorem strstr_self (key : List UInt8) : strstr key key = some key := by
  cases key with
  | nil => rfl
  | cons byte key => rw [strstr, if_pos (List.isPrefixOf_iff_prefix.mpr List.prefix_rfl)]

/-- The value behind the first occurrence in a text. -/
def valueBehind (key : List UInt8) (found : Option (List UInt8)) : Option (List UInt8) :=
  match found with
  | none => none
  | some found =>
      match found.drop key.length with
      | 61 :: value => some (value.takeWhile (· != 38))
      | _ => none

theorem valueBehind_nothing {found : List UInt8} (behind : found.drop key.length = []) :
    valueBehind key (some found) = none := by
  simp only [valueBehind, behind]

theorem valueBehind_other {found : List UInt8} {next : UInt8} {rest : List UInt8}
    (behind : found.drop key.length = next :: rest) (notEquals : next ≠ 61) :
    valueBehind key (some found) = none := by
  simp only [valueBehind, behind]
  split
  · next same => exact absurd (List.cons.inj same).1 notEquals
  · rfl

/-- What is found in a value has no value behind it. -/
theorem valueBehind_value {text found rest : List UInt8} (isFound : strstr key text = some found)
    (noEquals : 61 ∉ text) (ends : rest = [] ∨ ∃ others, rest = 38 :: others) :
    valueBehind key (some (found ++ rest)) = none := by
  obtain ⟨tail, rfl, isSuffix⟩ := strstr_eq_some isFound
  have behind : (key ++ tail ++ rest).drop key.length = tail ++ rest := by
    rw [List.append_assoc, List.drop_left]
  cases tail with
  | nil =>
      rcases ends with rfl | ⟨others, rfl⟩
      · exact valueBehind_nothing behind
      · exact valueBehind_other behind (by decide)
  | cons next tail =>
      refine valueBehind_other behind ?_
      rintro rfl
      exact noEquals (isSuffix.mem (List.mem_append_right _ (List.mem_cons_self ..)))

/-- What is found in a key has the value of that key behind it if it ends the key. -/
theorem valueBehind_key {text found value rest : List UInt8}
    (isFound : strstr key text = some found) (noEquals : 61 ∉ text) (noAmpersand : 38 ∉ value)
    (ends : rest = [] ∨ ∃ others, rest = 38 :: others) :
    valueBehind key (some (found ++ 61 :: (value ++ rest))) =
      if found = key then some value else none := by
  obtain ⟨tail, rfl, isSuffix⟩ := strstr_eq_some isFound
  have behind : (key ++ tail ++ 61 :: (value ++ rest)).drop key.length =
      tail ++ 61 :: (value ++ rest) := by
    rw [List.append_assoc, List.drop_left]
  have isPlain : ∀ byte ∈ value, (byte != 38) = true := by
    intro byte member
    rw [bne_iff_ne]
    rintro rfl
    exact noAmpersand member
  cases tail with
  | nil =>
      rw [if_pos (List.append_nil key)]
      simp only [valueBehind, behind, List.nil_append]
      rw [List.takeWhile_append_of_pos isPlain]
      rcases ends with rfl | ⟨others, rfl⟩
      · rw [List.takeWhile_nil, List.append_nil]
      · rw [List.takeWhile_cons_of_neg (by decide), List.append_nil]
  | cons next tail =>
      rw [if_neg (by simp)]
      refine valueBehind_other behind ?_
      rintro rfl
      exact noEquals (isSuffix.mem (List.mem_append_right _ (List.mem_cons_self ..)))

end Search

/-! ## Searching joined pairs -/

/-- What follows a pair: nothing, or an ampersand and the other pairs. -/
def joinedBehind : List Parameter → List UInt8
  | [] => []
  | pair :: pairs => 38 :: joined (pair :: pairs)

theorem joined_cons (pair : Parameter) (pairs : List Parameter) :
    joined (pair :: pairs) = pair.1 ++ 61 :: (pair.2 ++ joinedBehind pairs) := by
  cases pairs with
  | nil => rw [joined, joinedBehind, encodePair, List.append_nil]
  | cons other pairs => rw [joined, joinedBehind, encodePair, List.append_assoc, List.cons_append]

theorem joinedBehind_ends (pairs : List Parameter) :
    joinedBehind pairs = [] ∨ ∃ others, joinedBehind pairs = 38 :: others := by
  cases pairs with
  | nil => exact .inl rfl
  | cons pair pairs => exact .inr ⟨_, rfl⟩

section Joined

variable {key : List UInt8} (notEmpty : key ≠ []) (plain : Plain key)

include notEmpty plain

/-- The search in a pair and what follows it. -/
theorem strstr_joined_cons (pair : Parameter) (pairs : List Parameter) :
    strstr key (joined (pair :: pairs)) =
      match strstr key pair.1 with
      | some found => some (found ++ 61 :: (pair.2 ++ joinedBehind pairs))
      | none =>
        match strstr key pair.2 with
        | some found => some (found ++ joinedBehind pairs)
        | none => strstr key (joined pairs) := by
  have inKey := @strstr_append_separator key 61 notEmpty plain.2.1 pair.1
    (pair.2 ++ joinedBehind pairs)
  have inValue : strstr key (pair.2 ++ joinedBehind pairs) =
      match strstr key pair.2 with
      | some found => some (found ++ joinedBehind pairs)
      | none => strstr key (joined pairs) := by
    cases pairs with
    | nil =>
        rw [joinedBehind, List.append_nil]
        cases strstr key pair.2 with
        | none => simp only [joined, strstr, if_neg notEmpty]
        | some found => simp only [List.append_nil]
    | cons other pairs => exact @strstr_append_separator key 38 notEmpty plain.1 pair.2 _
  rw [joined_cons, inKey, inValue]

/-- **The first pair in which a key occurs decides** what is found for it. -/
theorem valueBehind_joined {pairs : List Parameter}
    (keys : ∀ pair ∈ pairs, Plain pair.1) (values : ∀ pair ∈ pairs, Plain pair.2) :
    valueBehind key (strstr key (joined pairs)) =
      match firstWith pairs key with
      | some pair => if strstr key pair.1 = some key then some pair.2 else none
      | none => none := by
  induction pairs with
  | nil => rw [joined, strstr, if_neg notEmpty, firstWith, List.find?_nil, valueBehind]
  | cons pair pairs ih =>
      have others := ih (fun other member => keys other (List.mem_cons_of_mem _ member))
        (fun other member => values other (List.mem_cons_of_mem _ member))
      have plainKey := keys pair (List.mem_cons_self ..)
      have plainValue := values pair (List.mem_cons_self ..)
      rw [strstr_joined_cons notEmpty plain, firstWith]
      cases inKey : strstr key pair.1 with
      | some found =>
          have here : occursInPair key pair = true := by
            rw [occursInPair, occursIn, inKey]
            rfl
          rw [List.find?_cons_of_pos here]
          simp only [inKey, Option.some.injEq]
          exact valueBehind_key inKey plainKey.2.1 plainValue.1 (joinedBehind_ends pairs)
      | none =>
          cases inValue : strstr key pair.2 with
          | some found =>
              have here : occursInPair key pair = true := by
                rw [occursInPair, occursIn, occursIn, inValue, Option.isSome_some, Bool.or_true]
              rw [List.find?_cons_of_pos here]
              simp only [inKey, reduceCtorEq, if_false]
              exact valueBehind_value inValue plainValue.2.1 (joinedBehind_ends pairs)
          | none =>
              have notHere : ¬ occursInPair key pair = true := by
                rw [occursInPair, occursIn, occursIn, inKey, inValue]
                decide
              rw [List.find?_cons_of_neg notHere]
              exact others

end Joined

/-- Joined plain pairs hold no zero. -/
theorem zero_not_mem_joined {pairs : List Parameter} (keys : ∀ pair ∈ pairs, Plain pair.1)
    (values : ∀ pair ∈ pairs, Plain pair.2) : 0 ∉ joined pairs := by
  induction pairs with
  | nil => exact List.not_mem_nil
  | cons pair pairs ih =>
      have others := ih (fun other member => keys other (List.mem_cons_of_mem _ member))
        (fun other member => values other (List.mem_cons_of_mem _ member))
      have notBehind : 0 ∉ joinedBehind pairs := by
        cases pairs with
        | nil => exact List.not_mem_nil
        | cons other pairs => simpa [joinedBehind] using others
      rw [joined_cons]
      simp [(keys pair (List.mem_cons_self ..)).2.2, (values pair (List.mem_cons_self ..)).2.2,
        notBehind]

/-! ## When the parameter is found -/

/-- The first pair in which the key occurs has the value of the key, if its own key
ends where the key first occurs in it; otherwise there is no such key. -/
def FirstIsRight (pairs : List Parameter) (key : List UInt8) : Prop :=
  match firstWith pairs key with
  | some pair =>
      if strstr key pair.1 = some key then (key, pair.2) ∈ pairs else key ∉ pairs.map Prod.fst
  | none => True

/-- A key of the pairs occurs in one of them. -/
theorem firstWith_of_key {pairs : List Parameter} {key value : List UInt8}
    (member : (key, value) ∈ pairs) : ∃ pair, firstWith pairs key = some pair := by
  cases isFirst : firstWith pairs key with
  | some pair => exact ⟨pair, rfl⟩
  | none =>
      have nowhere := List.find?_eq_none.mp isFirst _ member
      simp [occursInPair, occursIn, strstr_self] at nowhere

/-- Distinct keys have one value each. -/
theorem Parameters.value_unique {pairs : List Parameter} (parameters : Parameters pairs)
    {key value value' : List UInt8} (member : (key, value) ∈ pairs)
    (member' : (key, value') ∈ pairs) : value = value' := by
  have distinct := parameters.distinct
  have same := List.inj_on_of_nodup_map distinct member member' rfl
  exact (Prod.mk.inj same).2

/-- The C string of joined pairs. -/
theorem cString_joined {pairs : List Parameter} (parameters : Parameters pairs)
    (behind : List UInt8) : cString (joined pairs ++ 0 :: behind) = joined pairs := by
  have keys : ∀ pair ∈ pairs, Plain pair.1 := fun pair member => (parameters.keys pair member).2
  rw [cString, List.takeWhile_append_of_pos, List.takeWhile_cons_of_neg (by decide),
    List.append_nil]
  intro byte member
  rw [bne_iff_ne]
  rintro rfl
  exact zero_not_mem_joined keys parameters.values member

/-- **What is found** is the value of the first pair whose key holds the key, when the
first occurrence there is at its end. -/
theorem getParam_joined {pairs : List Parameter} (parameters : Parameters pairs)
    {key : List UInt8} (notEmpty : key ≠ []) (plain : Plain key) {maxLen : Nat}
    (fits : ∀ pair ∈ pairs, pair.2.length < maxLen) (behind : List UInt8) :
    getParamFromCharBuffer (joined pairs ++ 0 :: behind) key maxLen =
      match firstWith pairs key with
      | some pair => if strstr key pair.1 = some key then some pair.2 else none
      | none => none := by
  have keys : ∀ pair ∈ pairs, Plain pair.1 := fun pair member => (parameters.keys pair member).2
  have isValue : paramValue (joined pairs ++ 0 :: behind) key =
      valueBehind key (strstr key (joined pairs)) := by
    rw [paramValue, cString_joined parameters]
    rfl
  rw [getParamFromCharBuffer, isValue, valueBehind_joined notEmpty plain keys parameters.values]
  cases isFirst : firstWith pairs key with
  | none => rfl
  | some pair =>
      have member : pair ∈ pairs := List.mem_of_find?_eq_some isFirst
      have whole : pair.2.take (maxLen - 1) = pair.2 :=
        List.take_of_length_le (Nat.le_sub_one_of_lt (fits pair member))
      simp only
      split
      · rw [Option.map_some, whole]
      · rfl

/-- **When exactly the named parameter is found**: when the first pair in which the
bytes of the key occur is the right one. -/
theorem getParam_finds_iff (pairs : List Parameter) (parameters : Parameters pairs)
    (key : List UInt8) (notEmpty : key ≠ []) (plain : Plain key) (maxLen : Nat)
    (fits : ∀ pair ∈ pairs, pair.2.length < maxLen) (behind : List UInt8) :
    FindsExactly pairs key (getParamFromCharBuffer (joined pairs ++ 0 :: behind) key maxLen) ↔
      FirstIsRight pairs key := by
  rw [getParam_joined parameters notEmpty plain fits, FindsExactly, FirstIsRight]
  cases isFirst : firstWith pairs key with
  | none =>
      simp only [iff_true]
      refine ⟨fun value member => ?_, fun _ => trivial⟩
      obtain ⟨pair, isSome⟩ := firstWith_of_key member
      rw [isFirst] at isSome
      cases isSome
  | some pair =>
      by_cases isRight : strstr key pair.1 = some key
      · simp only [isRight, if_true]
        constructor
        · rintro ⟨values, absent⟩
          by_contra notMember
          have isKey : key ∈ pairs.map Prod.fst := by
            by_contra notKey
            exact absurd (absent notKey) (Option.some_ne_none _)
          obtain ⟨⟨_, value⟩, member, rfl⟩ := List.mem_map.mp isKey
          rw [Option.some.inj (values value member)] at notMember
          exact notMember member
        · intro member
          refine ⟨fun value member' => ?_, fun absent => ?_⟩
          · rw [parameters.value_unique member member']
          · exact absurd (List.mem_map.mpr ⟨_, member, rfl⟩) absent
      · simp only [isRight, if_false]
        constructor
        · rintro ⟨values, -⟩ isKey
          obtain ⟨⟨_, value⟩, member, rfl⟩ := List.mem_map.mp isKey
          exact absurd (values value member) (Option.some_ne_none _).symm
        · intro notKey
          refine ⟨fun value member => ?_, fun _ => trivial⟩
          exact absurd (List.mem_map.mpr ⟨_, member, rfl⟩) notKey

/-- `rec_type=16` and `type=5`, two of the parameters of the synchronization. -/
def typeParameters : List Parameter :=
  [([114, 101, 99, 95, 116, 121, 112, 101], [49, 54]), ([116, 121, 112, 101], [53])]

theorem typeParameters_parameters : Parameters typeParameters := by
  constructor <;> decide

/-- **Another key that ends in the key is taken for it**: the value of `rec_type` is
found for `type`. -/
theorem getParam_finds_other :
    Parameters typeParameters ∧
      getParamFromCharBuffer (joined typeParameters ++ [0]) [116, 121, 112, 101] 32 =
        some [49, 54] ∧
      ¬ FindsExactly typeParameters [116, 121, 112, 101]
        (getParamFromCharBuffer (joined typeParameters ++ [0]) [116, 121, 112, 101] 32) := by
  have found : getParamFromCharBuffer (joined typeParameters ++ [0]) [116, 121, 112, 101] 32 =
      some [49, 54] := by decide
  refine ⟨typeParameters_parameters, found, fun exact' => ?_⟩
  have value := exact'.1 [53] (by decide)
  rw [found] at value
  exact absurd value (by decide)

theorem getParam_finds_iff_type :
    FindsExactly typeParameters [114, 101, 99, 95, 116, 121, 112, 101]
        (getParamFromCharBuffer (joined typeParameters ++ [0])
          [114, 101, 99, 95, 116, 121, 112, 101] 32) ↔
      FirstIsRight typeParameters [114, 101, 99, 95, 116, 121, 112, 101] :=
  getParam_finds_iff typeParameters typeParameters_parameters
    [114, 101, 99, 95, 116, 121, 112, 101] (by decide) (by decide) 32 (by decide) []

end EdgeDNS.Utils
