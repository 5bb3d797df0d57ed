import SphereFixtures.Nearest.Item

/-!
# Equality of identifiers and items

Equality of identifiers is symmetric and transitive.  It is reflexive on keys
that hold no number that is not one, and only keys are equal to anything.
Items inherit this from their distances and identifiers.
-/

namespace SphereFixtures

namespace Ident

/-!
## Numbers
-/

namespace Number

theorem equal_comm (m n : Number) : m.equal n = n.equal m := by
  cases m <;> cases n <;> simp [equal, Bool.beq_comm]

theorem equal_trans {l m n : Number} (hlm : l.equal m = true)
    (hmn : m.equal n = true) : l.equal n = true := by
  cases l <;> cases m <;> cases n <;> simp_all [equal]

theorem equal_self {n : Number} (hn : n ≠ .nan) : n.equal n = true := by
  cases n <;> simp_all [equal]

end Number

theorem hasValue_eq_true_iff (n : Number) (b : Ident) :
    b.hasValue n = true <->
      exists m, b.number? = some m ∧ n.equal m = true := by
  rw [hasValue, Option.any_eq_true]

/-- A number is compared by its value alone. -/
theorem equal_of_number {a : Ident} {n : Number} (ha : a.number? = some n)
    (b : Ident) : a.equal b = b.hasValue n := by
  cases a <;> simp_all [number?, equal]

/-!
## Texts
-/

@[simp] theorem equal_text (a b : String) :
    (Ident.text a).equal (.text b) = (a == b) := rfl

@[simp] theorem isKey_text (a : String) : (Ident.text a).isKey = true := rfl

/-!
## Symmetry and transitivity
-/

mutual

theorem equal_comm : forall a b : Ident, a.equal b = b.equal a
  | .nothing, b => by
      cases b <;> simp [equal, hasValue, number?]
  | .flag _, b => by
      cases b <;> simp [equal, hasValue, number?, Number.equal_comm]
  | .whole _, b => by
      cases b <;> simp [equal, hasValue, number?, Number.equal_comm]
  | .real _, b => by
      cases b <;> simp [equal, hasValue, number?, Number.equal_comm]
  | .text _, b => by
      cases b <;> simp [equal, hasValue, number?, Bool.beq_comm]
  | .tuple as, b => by
      cases b with
      | tuple bs =>
          rw [equal, equal]
          exact equalItems_comm as bs
      | _ => simp [equal, hasValue, number?]
  | .list _, b => by
      cases b <;> simp [equal, hasValue, number?]
  | .mapping _ _, b => by
      cases b <;> simp [equal, hasValue, number?]

theorem equalItems_comm : forall as bs : List Ident,
    equalItems as bs = equalItems bs as
  | [], [] => rfl
  | [], _ :: _ => rfl
  | _ :: _, [] => rfl
  | a :: as, b :: bs => by
      rw [equalItems, equalItems, equal_comm a b, equalItems_comm as bs]

end

theorem equal_trans_of_number {a b c : Ident} {l : Number}
    (ha : a.number? = some l) (hab : a.equal b = true)
    (hbc : b.equal c = true) : a.equal c = true := by
  rw [equal_of_number ha, hasValue_eq_true_iff] at hab ⊢
  rcases hab with ⟨m, hb, hlm⟩
  rw [equal_of_number hb, hasValue_eq_true_iff] at hbc
  rcases hbc with ⟨n, hc, hmn⟩
  exact ⟨n, hc, Number.equal_trans hlm hmn⟩

mutual

theorem equal_trans : forall {a b c : Ident},
    a.equal b = true -> b.equal c = true -> a.equal c = true
  | .nothing, b, _, hab, hbc => by
      cases b with
      | nothing => exact hbc
      | _ => simp [equal] at hab
  | .flag _, _, _, hab, hbc => equal_trans_of_number rfl hab hbc
  | .whole _, _, _, hab, hbc => equal_trans_of_number rfl hab hbc
  | .real _, _, _, hab, hbc => equal_trans_of_number rfl hab hbc
  | .text a, b, _, hab, hbc => by
      cases b with
      | text b =>
          rw [equal, beq_iff_eq] at hab
          rw [hab]
          exact hbc
      | _ => simp [equal] at hab
  | .tuple as, b, c, hab, hbc => by
      cases b with
      | tuple bs =>
          cases c with
          | tuple cs =>
              rw [equal] at hab hbc ⊢
              exact equalItems_trans hab hbc
          | _ => simp [equal] at hbc
      | _ => simp [equal] at hab
  | .list _, _, _, hab, _ => by
      simp [equal] at hab
  | .mapping _ _, _, _, hab, _ => by
      simp [equal] at hab

theorem equalItems_trans : forall {as bs cs : List Ident},
    equalItems as bs = true -> equalItems bs cs = true ->
      equalItems as cs = true
  | [], [], _, _, hbc => hbc
  | a :: as, b :: bs, [], _, hbc => by
      simp [equalItems] at hbc
  | a :: as, b :: bs, c :: cs, hab, hbc => by
      rw [equalItems, Bool.and_eq_true] at hab hbc ⊢
      exact ⟨equal_trans hab.left hbc.left,
        equalItems_trans hab.right hbc.right⟩

end

/-!
## Keys
-/

theorem isKey_iff_collection? (a : Ident) : a.isKey = true <-> a.collection? = none := by
  rw [isKey, Option.isNone_iff_eq_none]

theorem firstCollection?_cons (a : Ident) (as : List Ident) :
    firstCollection? (a :: as) = none <->
      a.collection? = none ∧ firstCollection? as = none := by
  rw [firstCollection?, Option.or_eq_none_iff]

mutual

theorem collection?_of_equal : forall {a b : Ident},
    a.equal b = true -> a.collection? = none
  | .nothing, _, _ => rfl
  | .flag _, _, _ => rfl
  | .whole _, _, _ => rfl
  | .real _, _, _ => rfl
  | .text _, _, _ => rfl
  | .tuple as, b, hab => by
      cases b with
      | tuple bs =>
          rw [equal] at hab
          rw [collection?]
          exact firstCollection?_of_equalItems hab
      | _ => simp [equal] at hab
  | .list _, _, hab => by
      simp [equal] at hab
  | .mapping _ _, _, hab => by
      simp [equal] at hab

theorem firstCollection?_of_equalItems : forall {as bs : List Ident},
    equalItems as bs = true -> firstCollection? as = none
  | [], _, _ => rfl
  | a :: as, [], hab => by
      simp [equalItems] at hab
  | a :: as, b :: bs, hab => by
      rw [equalItems, Bool.and_eq_true] at hab
      exact (firstCollection?_cons a as).mpr
        ⟨collection?_of_equal hab.left, firstCollection?_of_equalItems hab.right⟩

end

/-- Only keys are equal to anything. -/
theorem isKey_of_equal {a b : Ident} (hab : a.equal b = true) : a.isKey = true :=
  (isKey_iff_collection? a).mpr (collection?_of_equal hab)

mutual

/-- Whether an identifier is a number that is not one, or holds one. -/
def holdsNaN : Ident -> Bool
  | .real value => Number.ofFloat value == .nan
  | .tuple items => anyHoldsNaN items
  | .list items => anyHoldsNaN items
  | .mapping _ values => anyHoldsNaN values
  | _ => false

def anyHoldsNaN : List Ident -> Bool
  | [] => false
  | item :: items => holdsNaN item || anyHoldsNaN items

end

mutual

theorem equal_self_of_collection? : forall {a : Ident},
    a.collection? = none -> a.holdsNaN = false -> a.equal a = true
  | .nothing, _, _ => rfl
  | .flag _, _, _ => by
      simp [equal, hasValue, number?, Number.ofInt, Number.equal]
  | .whole _, _, _ => by
      simp [equal, hasValue, number?, Number.ofInt, Number.equal]
  | .real value, _, hnan => by
      have hnumber : Number.ofFloat value ≠ .nan := by
        simpa [holdsNaN] using hnan
      simp [equal, hasValue, number?, Number.equal_self hnumber]
  | .text _, _, _ => by
      simp [equal]
  | .tuple as, hkey, hnan => by
      rw [collection?] at hkey
      rw [holdsNaN] at hnan
      rw [equal]
      exact equalItems_self hkey hnan
  | .list _, hkey, _ => by
      simp [collection?] at hkey
  | .mapping _ _, hkey, _ => by
      simp [collection?] at hkey

theorem equalItems_self : forall {as : List Ident},
    firstCollection? as = none -> anyHoldsNaN as = false -> equalItems as as = true
  | [], _, _ => rfl
  | a :: as, hkeys, hnan => by
      rw [firstCollection?_cons] at hkeys
      rw [anyHoldsNaN, Bool.or_eq_false_iff] at hnan
      rw [equalItems, equal_self_of_collection? hkeys.left hnan.left,
        equalItems_self hkeys.right hnan.right]
      rfl

end

theorem equal_self {a : Ident} (hkey : a.isKey = true) (hnan : a.holdsNaN = false) :
    a.equal a = true :=
  equal_self_of_collection? ((isKey_iff_collection? a).mp hkey) hnan

end Ident

/-!
## Items
-/

namespace Nearest

variable {α : Type} [Scalar α]

namespace Item

theorem isKey_of_same {a b : Item α} (hab : a.same b = true) :
    a.id.isKey = true := by
  rw [same, Bool.and_eq_true] at hab
  exact Ident.isKey_of_equal hab.right

variable [PartialEquivBEq α]

theorem same_comm (a b : Item α) : a.same b = b.same a := by
  rw [same, same, BEq.comm, Ident.equal_comm]

theorem same_trans {a b c : Item α} (hab : a.same b = true)
    (hbc : b.same c = true) : a.same c = true := by
  rw [same, Bool.and_eq_true] at hab hbc ⊢
  exact ⟨BEq.trans hab.left hbc.left, Ident.equal_trans hab.right hbc.right⟩

end Item

end Nearest

end SphereFixtures
