import Inlay.Value.Order
import Mathlib

/-!
# The order of values is a partial order

Two lists are compared at their first items that differ: what stands behind these is not looked at, while two
items without an order before them leave the lists without one.  So the comparison of lists is no order of all
lists, but where it is defined it is transitive, it can be turned around, and it finds two lists equal exactly
where equality does.  Floats are left out, as they are compared by the machine.

* `Value.floatFree`: no float at any depth.
* `Value.list_induction`: induction on lists in lists.
* `Value.Pairing`: the pairs that may have an order.
* `Value.compare?_swap`, `Value.compare?_chain`, `Value.compare?_eq_iff`: the laws, each from the same law
  for lists of items that satisfy it.
* `Value.compare?_partial_order`: all together.
-/

namespace Inlay

namespace Value

/-! ## Values without floats -/

mutual

/-- Is there no float in the value, at any depth? -/
def floatFree : Value → Bool
  | float _ => false
  | list items => floatFreeItems items
  | map entries => floatFreeEntries entries
  | _ => true

/-- Is there no float in any of the items? -/
def floatFreeItems : List Value → Bool
  | [] => true
  | v :: rest => floatFree v && floatFreeItems rest

/-- Is there no float in any of the entries? -/
def floatFreeEntries : List (String × Value) → Bool
  | [] => true
  | (_, v) :: rest => floatFree v && floatFreeEntries rest

end

theorem floatFreeItems_iff {items : List Value} :
    floatFreeItems items = true ↔ ∀ v ∈ items, floatFree v = true := by
  induction items with
  | nil => simp [floatFreeItems]
  | cons v rest ih => rw [floatFreeItems, Bool.and_eq_true, ih, List.forall_mem_cons]

theorem floatFree_list {items : List Value} :
    floatFree (list items) = true ↔ ∀ v ∈ items, floatFree v = true := by
  rw [floatFree, floatFreeItems_iff]

/-- Induction on lists in lists: a list may assume the property of its items. -/
@[elab_as_elim]
theorem list_induction {P : Value → Prop} (list : ∀ items, (∀ v ∈ items, P v) → P (list items))
    (other : ∀ v, (∀ items, v ≠ .list items) → P v) : ∀ v, P v
  | .list items => list items fun v _ => list_induction list other v
  | .nothing | .bool _ | .int _ | .float _ | .str _ | .map _ | .function _ _ =>
    other _ fun _ => Value.noConfusion
termination_by v => sizeOf v

/-! ## Pairs that may have an order -/

/-- Two values without floats: two of one kind that has an order, or two without an order. -/
inductive Pairing : Value → Value → Prop
  | ints (a b : Int64) : Pairing (int a) (int b)
  | bools (a b : Bool) : Pairing (bool a) (bool b)
  | texts (a b : String) : Pairing (str a) (str b)
  | lists (as bs : List Value) : Pairing (list as) (list bs)
  | apart {a b : Value} (h : compare? a b = none) (h' : compare? b a = none) : Pairing a b

/-- All other pairs of kinds are compared in no order, whatever values of these kinds they are. -/
theorem pairing {a b : Value} (ha : floatFree a = true) (hb : floatFree b = true) : Pairing a b := by
  cases a <;> cases b <;>
    first
    | exact .ints _ _
    | exact .bools _ _
    | exact .texts _ _
    | exact .lists _ _
    | exact .apart rfl rfl
    | exact absurd ha Bool.false_ne_true
    | exact absurd hb Bool.false_ne_true

/-! ## The comparison turned around -/

theorem compareItems?_cons (a b : Value) (as bs : List Value) : compareItems? (a :: as) (b :: bs) =
    (compare? a b).bind fun o => if o = .eq then compareItems? as bs else some o := by
  rw [compareItems?]
  rcases compare? a b with _ | _ | _ | _ <;> rfl

/-- Lists of items that can be turned around. -/
theorem compareItems?_swap {as bs : List Value}
    (h : ∀ a ∈ as, ∀ b ∈ bs, compare? b a = (compare? a b).map Ordering.swap) :
    compareItems? bs as = (compareItems? as bs).map Ordering.swap := by
  induction as generalizing bs with
  | nil => cases bs <;> rfl
  | cons a as ih =>
    cases bs with
    | nil => rfl
    | cons b bs =>
      have hrest := ih fun x hx y hy => h x (List.mem_cons_of_mem _ hx) y (List.mem_cons_of_mem _ hy)
      rw [compareItems?_cons, compareItems?_cons, h a (List.mem_cons_self ..) b (List.mem_cons_self ..), hrest]
      rcases compare? a b with _ | _ | _ | _ <;> rfl

/-- **The comparison can be turned around**, and has an order one way if it has one the other way. -/
theorem compare?_swap {a b : Value} (ha : floatFree a = true) (hb : floatFree b = true) :
    compare? b a = (compare? a b).map Ordering.swap := by
  induction a using list_induction generalizing b with
  | list as ih =>
    cases pairing ha hb with
    | lists _ bs =>
      rw [floatFree_list] at ha hb
      exact compareItems?_swap fun x hx y hy => ih x hx (ha x hx) (hb y hy)
    | apart h h' => rw [h, h', Option.map_none]
  | other a hother =>
    cases pairing ha hb with
    | ints m n => exact congrArg some Std.OrientedCmp.eq_swap
    | bools m n => exact congrArg some Std.OrientedCmp.eq_swap
    | texts m n => exact congrArg some Std.OrientedCmp.eq_swap
    | lists as bs => exact absurd rfl (hother as)
    | apart h h' => rw [h, h', Option.map_none]

/-! ## The comparison chained -/

/-- Two comparisons in one direction make one, which is strict if one of them is. -/
def Chains (a b c : Value) : Prop :=
  ∀ ⦃o o' : Ordering⦄, compare? a b = some o → compare? b c = some o' → o.isLE = true → o'.isLE = true →
    compare? a c = some (o.then o')

/-- The orders of integers, truth values and texts chain. -/
theorem compare_chain {α : Type} [Ord α] [Std.TransOrd α] {x y z : α} (hxy : (compare x y).isLE = true)
    (hyz : (compare y z).isLE = true) : compare x z = (compare x y).then (compare y z) := by
  cases hx : compare x y with
  | lt =>
    cases hy : compare y z with
    | lt => exact Std.TransCmp.lt_trans hx hy
    | eq => exact Std.TransCmp.lt_of_lt_of_eq hx hy
    | gt => rw [hy] at hyz; cases hyz
  | eq => exact Std.TransCmp.congr_left hx
  | gt => rw [hx] at hxy; cases hxy

/-- Lists of items that chain. -/
theorem compareItems?_chain {as bs cs : List Value} (h : ∀ a ∈ as, ∀ b ∈ bs, ∀ c ∈ cs, Chains a b c)
    {o o' : Ordering} (hab : compareItems? as bs = some o) (hbc : compareItems? bs cs = some o')
    (ho : o.isLE = true) (ho' : o'.isLE = true) : compareItems? as cs = some (o.then o') := by
  induction as generalizing bs cs with
  | nil =>
    cases bs with
    | nil =>
      cases hab
      exact hbc
    | cons b bs =>
      cases hab
      cases cs with
      | nil => cases hbc; cases ho'
      | cons c cs => rfl
  | cons a as ih =>
    cases bs with
    | nil => cases hab; cases ho
    | cons b bs =>
      cases cs with
      | nil => cases hbc; cases ho'
      | cons c cs =>
        have hrest := ih fun x hx y hy z hz =>
          h x (List.mem_cons_of_mem _ hx) y (List.mem_cons_of_mem _ hy) z (List.mem_cons_of_mem _ hz)
        have hfirst := h a (List.mem_cons_self ..) b (List.mem_cons_self ..) c (List.mem_cons_self ..)
        rw [compareItems?_cons] at hab hbc ⊢
        obtain ⟨p, hp, hab⟩ := Option.bind_eq_some_iff.mp hab
        obtain ⟨q, hq, hbc⟩ := Option.bind_eq_some_iff.mp hbc
        -- the first difference in one of the two comparisons is the first one in their chain
        cases p with
        | gt => cases hab; cases ho
        | lt =>
          cases hab
          cases q with
          | gt => cases hbc; cases ho'
          | _ => rw [hfirst hp hq rfl rfl]; rfl
        | eq =>
          cases q with
          | gt => cases hbc; cases ho'
          | lt =>
            cases hbc
            rw [hfirst hp hq rfl rfl]
            cases o with
            | gt => cases ho
            | _ => rfl
          | eq =>
            rw [hfirst hp hq rfl rfl]
            exact hrest hab hbc

/-- **Comparisons chain** where they are defined. -/
theorem compare?_chain {a b c : Value} (ha : floatFree a = true) (hb : floatFree b = true)
    (hc : floatFree c = true) : Chains a b c := by
  intro o o' hab hbc ho ho'
  induction a using list_induction generalizing b c o o' with
  | list as ih =>
    cases pairing ha hb with
    | apart h _ => rw [h] at hab; cases hab
    | lists _ bs =>
      cases pairing hb hc with
      | apart h _ => rw [h] at hbc; cases hbc
      | lists _ cs =>
        rw [floatFree_list] at ha hb hc
        exact compareItems?_chain (fun x hx y hy z hz _ _ hxy hyz hle hle' =>
          ih x hx (ha x hx) (hb y hy) (hc z hz) hxy hyz hle hle') hab hbc ho ho'
  | other a hother =>
    cases pairing ha hb with
    | apart h _ => rw [h] at hab; cases hab
    | lists as _ => exact absurd rfl (hother as)
    | ints _ _ =>
      cases pairing hb hc with
      | apart h _ => rw [h] at hbc; cases hbc
      | ints _ _ =>
        cases hab
        cases hbc
        exact congrArg some (compare_chain ho ho')
    | bools _ _ =>
      cases pairing hb hc with
      | apart h _ => rw [h] at hbc; cases hbc
      | bools _ _ =>
        cases hab
        cases hbc
        exact congrArg some (compare_chain ho ho')
    | texts _ _ =>
      cases pairing hb hc with
      | apart h _ => rw [h] at hbc; cases hbc
      | texts _ _ =>
        cases hab
        cases hbc
        exact congrArg some (compare_chain ho ho')

/-! ## The comparison and equality -/

/-- Lists of items whose order tells whether they are equal. -/
theorem compareItems?_eq_iff {as bs : List Value}
    (h : ∀ a ∈ as, ∀ b ∈ bs, ∀ o, compare? a b = some o → (o = .eq ↔ looseEq a b = true))
    {o : Ordering} (ho : compareItems? as bs = some o) : o = .eq ↔ looseEqItems as bs = true := by
  induction as generalizing bs with
  | nil =>
    cases bs with
    | nil =>
      cases ho
      simp [looseEqItems]
    | cons b bs =>
      cases ho
      simp [looseEqItems]
  | cons a as ih =>
    cases bs with
    | nil =>
      cases ho
      simp [looseEqItems]
    | cons b bs =>
      rw [compareItems?_cons] at ho
      obtain ⟨p, hp, ho⟩ := Option.bind_eq_some_iff.mp ho
      have hfirst := h a (List.mem_cons_self ..) b (List.mem_cons_self ..) p hp
      rw [looseEqItems, Bool.and_eq_true, ← hfirst]
      by_cases hpeq : p = .eq
      · rw [if_pos hpeq] at ho
        rw [ih (fun x hx y hy => h x (List.mem_cons_of_mem _ hx) y (List.mem_cons_of_mem _ hy)) ho]
        exact (and_iff_right hpeq).symm
      · rw [if_neg hpeq] at ho
        cases ho
        simp [hpeq]

/-- **Two values with an order are equal in it exactly if they are equal.** -/
theorem compare?_eq_iff {a b : Value} (ha : floatFree a = true) (hb : floatFree b = true) {o : Ordering}
    (ho : compare? a b = some o) : o = .eq ↔ looseEq a b = true := by
  induction a using list_induction generalizing b o with
  | list as ih =>
    cases pairing ha hb with
    | apart h _ => rw [h] at ho; cases ho
    | lists _ bs =>
      rw [floatFree_list] at ha hb
      exact compareItems?_eq_iff (fun x hx y hy _ hxy => ih x hx (ha x hx) (hb y hy) hxy) ho
  | other a hother =>
    cases pairing ha hb with
    | apart h _ => rw [h] at ho; cases ho
    | lists as _ => exact absurd rfl (hother as)
    | ints m n =>
      cases ho
      rw [Std.LawfulEqCmp.compare_eq_iff_eq, Int64.toInt_inj]
      exact beq_iff_eq.symm
    | bools m n =>
      cases ho
      rw [Std.LawfulEqCmp.compare_eq_iff_eq]
      exact beq_iff_eq.symm
    | texts m n =>
      cases ho
      rw [Std.LawfulEqCmp.compare_eq_iff_eq]
      exact beq_iff_eq.symm

theorem then_eq_ite {o o' : Ordering} (ho : o.isLE = true) (ho' : o'.isLE = true) :
    o.then o' = if o = .eq ∧ o' = .eq then .eq else .lt := by
  revert ho ho'
  cases o <;> cases o' <;> decide

/-- **The comparison of values is a partial order that agrees with equality**, for values without floats. -/
theorem compare?_partial_order {a b c : Value} (ha : floatFree a = true) (hb : floatFree b = true)
    (hc : floatFree c = true) :
    compare? b a = (compare? a b).map Ordering.swap ∧
      (compare? b a = none ↔ compare? a b = none) ∧
      (∀ o o', compare? a b = some o → compare? b c = some o' → o.isLE = true → o'.isLE = true →
        compare? a c = some (if o = .eq ∧ o' = .eq then .eq else .lt)) ∧
      ∀ o, compare? a b = some o → (o = .eq ↔ looseEq a b = true) := by
  refine ⟨compare?_swap ha hb, ?_, fun o o' hab hbc ho ho' => ?_, fun o => compare?_eq_iff ha hb⟩
  · rw [compare?_swap ha hb, Option.map_eq_none_iff]
  · rw [compare?_chain ha hb hc hab hbc ho ho', then_eq_ite ho ho']

/-- Items without an order do not matter behind the first difference, here the one of the inner lists. -/
theorem compare?_partial_order_nested :
    compare? (list [list [int 1], nothing]) (list [list [int 1, int 0], bool true]) = some .lt ∧
      compare? (list [list [int 1, int 0], bool true]) (list [list [int 2], map []]) = some .lt ∧
      compare? (list [list [int 1], nothing]) (list [list [int 2], map []]) = some .lt := by
  have hab : compare? (list [list [int 1], nothing]) (list [list [int 1, int 0], bool true]) = some .lt := rfl
  have hbc : compare? (list [list [int 1, int 0], bool true]) (list [list [int 2], map []]) = some .lt := rfl
  exact ⟨hab, hbc, (compare?_partial_order rfl rfl rfl).2.2.1 .lt .lt hab hbc rfl rfl⟩

end Value

end Inlay
