import Mathlib.Data.List.Forall2
import Mathlib.Data.List.Perm.Basic

/-!
# Outstanding operations

Operations are started and finish later, in any order. Each of them is known by
a key and carries a label, and the program behind it keeps one current label for
a key. When an operation finishes, only its key comes back, so the program
takes the current label for the one the operation carries.

This is right as long as at most one operation is outstanding under a key and it
carries the current label (`Single`). A new operation with a new label keeps
this exactly when nothing is outstanding under its key (`single_append_iff`),
and finishing the only operation leaves nothing (`idle_of_finished`).

A history keeps the operations of all kinds, those of one kind in step with what
they stand for (`InStep`). An operation may be added with its counterpart and may
change its state without falling out of step.
-/

set_option autoImplicit false

namespace Outstanding

variable {Op Key Label : Type*} [DecidableEq Key] (key : Op → Key) (label : Op → Label)

/-- The operations outstanding under a key. -/
def under (ops : List Op) (name : Key) : List Op := ops.filter fun op => key op = name

/-- Nothing is outstanding under a key. -/
def Idle (ops : List Op) (name : Key) : Prop := ∀ op ∈ ops, key op ≠ name

/-- At most one operation is outstanding under a key, and it carries the given
label. -/
structure Single (ops : List Op) (name : Key) (current : Label) : Prop where
  atMostOne : (under key ops name).length ≤ 1
  carries : ∀ op ∈ ops, key op = name → label op = current

variable {key label} {ops fewer : List Op} {op : Op} {name : Key} {current : Label}

theorem idle_iff_under : Idle key ops name ↔ under key ops name = [] := by
  rw [under, List.filter_eq_nil_iff]
  simp only [Idle, decide_eq_true_iff, ne_eq]

theorem Idle.single (idle : Idle key ops name) (current : Label) :
    Single key label ops name current where
  atMostOne := by
    rw [idle_iff_under.mp idle]
    exact Nat.zero_le 1
  carries := fun op member under => absurd under (idle op member)

theorem under_append (ops : List Op) (op : Op) (name : Key) :
    under key (ops ++ [op]) name =
      under key ops name ++ if key op = name then [op] else [] := by
  rw [under, List.filter_append, ← under, List.filter_singleton]
  by_cases same : key op = name <;> simp [same]

theorem under_append_of_ne (other : key op ≠ name) :
    under key (ops ++ [op]) name = under key ops name := by
  rw [under_append, if_neg other, List.append_nil]

theorem under_sublist (sublist : fewer.Sublist ops) (name : Key) :
    (under key fewer name).length ≤ (under key ops name).length :=
  (sublist.filter _).length_le

theorem Single.sublist (single : Single key label ops name current)
    (sublist : fewer.Sublist ops) : Single key label fewer name current where
  atMostOne := Nat.le_trans (under_sublist sublist name) single.atMostOne
  carries := fun op member => single.carries op (sublist.subset member)

/-- An operation under another key changes nothing. -/
theorem single_append_of_ne (other : key op ≠ name) :
    Single key label (ops ++ [op]) name current ↔ Single key label ops name current := by
  constructor
  · intro single
    exact single.sublist (List.sublist_append_left ops [op])
  · intro single
    refine ⟨?_, fun added member same => ?_⟩
    · rw [under_append_of_ne other]
      exact single.atMostOne
    · rcases List.mem_append.mp member with old | new
      · exact single.carries added old same
      · rw [List.mem_singleton.mp new] at same
        exact absurd same other

/-- **A new operation** is the only one exactly when nothing is outstanding under
its key. -/
theorem single_append_iff (same : key op = name) :
    Single key label (ops ++ [op]) name current ↔
      Idle key ops name ∧ label op = current := by
  constructor
  · intro single
    have atMostOne := single.atMostOne
    rw [under_append, if_pos same, List.length_append, List.length_singleton] at atMostOne
    refine ⟨idle_iff_under.mpr (List.length_eq_zero_iff.mp (by omega)), ?_⟩
    exact single.carries op (List.mem_append_right ops (List.mem_singleton.mpr rfl)) same
  · rintro ⟨idle, carried⟩
    refine ⟨?_, fun added member under => ?_⟩
    · rw [under_append, if_pos same, idle_iff_under.mp idle]
      exact Nat.le_refl 1
    · rcases List.mem_append.mp member with old | new
      · exact absurd under (idle added old)
      · rw [List.mem_singleton.mp new]
        exact carried

/-- When the only operation under a key finishes, nothing is left. -/
theorem idle_of_finished {index : Nat} (atMostOne : (under key ops name).length ≤ 1)
    (finishes : ops[index]? = some op) (same : key op = name) :
    Idle key (ops.eraseIdx index) name := by
  obtain ⟨inside, isOp⟩ := List.getElem?_eq_some_iff.mp finishes
  have split : (ops[index] :: ops.eraseIdx index).Perm ops :=
    List.getElem_cons_eraseIdx_perm inside
  have counted : (under key (ops[index] :: ops.eraseIdx index) name).length =
      (under key ops name).length := (split.filter _).length_eq
  have kept : under key (ops[index] :: ops.eraseIdx index) name =
      ops[index] :: under key (ops.eraseIdx index) name :=
    List.filter_cons_of_pos (by rw [isOp]; exact decide_eq_true same)
  rw [kept, List.length_cons] at counted
  exact idle_iff_under.mpr (List.length_eq_zero_iff.mp (by omega))

/-! ## Histories -/

section Histories

variable {Counterpart : Type*} {kind : Op → Bool} {related related' : Op → Counterpart → Prop}
  {history : List Op} {counterparts : List Counterpart} {counterpart : Counterpart}

/-- The operations of a kind, one by one, are related to what they stand for. -/
def InStep (kind : Op → Bool) (related : Op → Counterpart → Prop) (history : List Op)
    (counterparts : List Counterpart) : Prop :=
  List.Forall₂ related (history.filter kind) counterparts

theorem InStep.mono (inStep : InStep kind related history counterparts)
    (weaken : ∀ op ∈ history, ∀ other, related op other → related' op other) :
    InStep kind related' history counterparts := by
  rw [InStep, List.forall₂_iff_zip] at inStep ⊢
  refine ⟨inStep.1, fun {op other} member => ?_⟩
  have inHistory := (List.mem_filter.mp (List.of_mem_zip member).1).1
  exact weaken op inHistory other (inStep.2 member)

/-- What is related to an operation of the kind. -/
theorem InStep.exists_related (inStep : InStep kind related history counterparts)
    (member : op ∈ history) (isKind : kind op = true) : ∃ other, related op other := by
  have filtered : op ∈ history.filter kind := List.mem_filter.mpr ⟨member, isKind⟩
  obtain ⟨index, inside, isOp⟩ := List.getElem_of_mem filtered
  have inside' : index < counterparts.length := inStep.length_eq ▸ inside
  have isRelated := List.Forall₂.get inStep inside inside'
  rw [List.get_eq_getElem, isOp] at isRelated
  exact ⟨_, isRelated⟩

theorem InStep.append (inStep : InStep kind related history counterparts)
    (isKind : kind op = true) (isRelated : related op counterpart) :
    InStep kind related (history ++ [op]) (counterparts ++ [counterpart]) := by
  rw [InStep, List.filter_append, List.filter_cons_of_pos isKind, List.filter_nil]
  exact List.rel_append inStep (.cons isRelated .nil)

theorem InStep.append_other (inStep : InStep kind related history counterparts)
    (isOther : kind op = false) : InStep kind related (history ++ [op]) counterparts := by
  rw [InStep, List.filter_append, List.filter_cons_of_neg (by rw [isOther]; decide),
    List.filter_nil, List.append_nil]
  exact inStep

/-- **An operation changes its state** and stays in step. -/
theorem InStep.set (inStep : InStep kind related history counterparts) {index : Nat} {changed : Op}
    (isOp : history[index]? = some op) (sameKind : kind changed = kind op)
    (changes : kind op = true → ∀ other, related op other → related changed other) :
    InStep kind related (history.set index changed) counterparts := by
  induction history generalizing index counterparts with
  | nil => cases isOp
  | cons first history ih =>
      cases index with
      | zero =>
          obtain rfl : first = op := Option.some.inj isOp
          rw [List.set_cons_zero, InStep]
          cases isKind : kind first with
          | true =>
              rw [InStep, List.filter_cons_of_pos isKind] at inStep
              rw [List.filter_cons_of_pos (sameKind.trans isKind)]
              cases inStep with
              | cons head tail => exact .cons (changes isKind _ head) tail
          | false =>
              rw [InStep, List.filter_cons_of_neg (by rw [isKind]; decide)] at inStep
              rw [List.filter_cons_of_neg (by rw [sameKind, isKind]; decide)]
              exact inStep
      | succ index =>
          have isOp' : history[index]? = some op := by
            rw [← isOp, List.getElem?_cons_succ]
          rw [List.set_cons_succ, InStep]
          cases isKind : kind first with
          | true =>
              rw [InStep, List.filter_cons_of_pos isKind] at inStep
              rw [List.filter_cons_of_pos isKind]
              cases inStep with
              | cons head tail => exact .cons head (ih tail isOp')
          | false =>
              rw [InStep, List.filter_cons_of_neg (by rw [isKind]; decide)] at inStep
              rw [List.filter_cons_of_neg (by rw [isKind]; decide)]
              exact ih inStep isOp'

/-- All operations change at once. -/
theorem InStep.map (inStep : InStep kind related history counterparts) {change : Op → Op}
    (sameKind : ∀ op, kind (change op) = kind op)
    (changes : ∀ op other, related op other → related' (change op) other) :
    InStep kind related' (history.map change) counterparts := by
  have filtered : (history.map change).filter kind = (history.filter kind).map change := by
    rw [List.filter_map]
    exact congrArg (List.map change) (List.filter_congr fun op _ => sameKind op)
  rw [InStep, filtered, List.forall₂_map_left_iff]
  exact inStep.imp changes

end Histories

end Outstanding
