import Inlay.Proofs.Value.Comparison
import Inlay.Proofs.Value.Integers

/-!
# `min` and `max` return a true extreme

The items are gone through once, and each is compared with the best one so far only.  That the last best one
is also better than the items compared with earlier ones follows from the order being transitive, as far as it
is defined: the comparisons that were made are enough to make all others with the result.

* `Value.Candidates`: the items among which the extreme is sought.
* `Value.IsExtreme`: an item is extreme among others, and the first one that is; `Value.IsExtreme.keep` and
  `Value.IsExtreme.replace`: one more item.
* `Value.sought_best`: all items.
* `Value.min_max_true_extremes`: `min` and `max`.
-/

namespace Inlay

namespace Value

/-- The items that the arguments of `min` or `max` name: those of the only argument, or the arguments
themselves. -/
inductive Candidates : List Value → List Value → Prop
  | iterable {only : Value} {items : List Value} (h : only.items = .ok items) : Candidates [only] items
  | several {args : List Value} (h : 2 ≤ args.length) : Candidates args args

/-- On the side of the lesser or of the greater values the item at a position is extreme, and the items before
it are not equal to it. -/
structure IsExtreme (side : Ordering) (items : List Value) (i : ℕ) (r : Value) : Prop where
  place : items[i]? = some r
  comparable : ∀ j v, items[j]? = some v → j ≠ i → (compare? v r).isSome = true
  extreme : ∀ v ∈ items, compare? v r ≠ some side
  first : ∀ j v, j < i → items[j]? = some v → compare? v r ≠ some .eq

/-- Two of the items have no order. -/
def Incomparable (items : List Value) : Prop :=
  ∃ (i j : ℕ) (u v : Value), i ≠ j ∧ items[i]? = some u ∧ items[j]? = some v ∧ compare? u v = none

/-! ## Sides -/

theorem swap_ne_self {side : Ordering} (h : side ≠ .eq) : side.swap ≠ side := by
  cases side with
  | eq => exact absurd rfl h
  | lt => decide
  | gt => decide

section

variable {side : Ordering} {a b c : Value}

/-- What lies beyond a value lies beyond all that this value lies beyond or is equal to. -/
theorem compare?_beyond (hside : side ≠ .eq) (ha : floatFree a = true) (hb : floatFree b = true)
    (hc : floatFree c = true) (hab : compare? a b = some side) {o : Ordering} (hbc : compare? b c = some o)
    (ho : o ≠ side.swap) : compare? a c = some side := by
  cases side with
  | eq => exact absurd rfl hside
  | lt =>
    have hle : o.isLE = true := by
      cases o with
      | gt => exact absurd rfl ho
      | _ => rfl
    exact compare?_chain ha hb hc hab hbc rfl hle
  | gt =>
    have hba : compare? b a = some .lt := by rw [compare?_swap ha hb, hab]; rfl
    have hcb : compare? c b = some o.swap := by rw [compare?_swap hb hc, hbc]; rfl
    have hca : compare? c a = some .lt := by
      cases o with
      | lt => exact absurd rfl ho
      | _ => exact compare?_chain hc hb ha hcb hba rfl rfl
    rw [compare?_swap hc ha, hca]
    rfl

/-- No value lies beyond itself. -/
theorem compare?_self_ne (hside : side ≠ .eq) (ha : floatFree a = true) : compare? a a ≠ some side := by
  intro h
  have hswap := compare?_swap ha ha
  rw [h] at hswap
  exact swap_ne_self hside (Option.some.inj hswap).symm

end

/-! ## One more item -/

theorem getElem?_concat_eq_some {α : Type} {seen : List α} {v u : α} {j : ℕ}
    (h : (seen ++ [v])[j]? = some u) : seen[j]? = some u ∨ j = seen.length ∧ u = v := by
  rcases Nat.lt_or_ge j seen.length with hlt | hge
  · rw [List.getElem?_append_left hlt] at h
    exact .inl h
  · rw [List.getElem?_append_right hge, List.getElem?_singleton] at h
    split at h
    · cases h
      exact .inr ⟨by omega, rfl⟩
    · cases h

namespace IsExtreme

variable {side : Ordering} {seen : List Value} {i : ℕ} {found v : Value}

theorem lt_length (h : IsExtreme side seen i found) : i < seen.length :=
  (List.getElem?_eq_some_iff.mp h.place).1

theorem singleton (hside : side ≠ .eq) (hv : floatFree v = true) : IsExtreme side [v] 0 v where
  place := rfl
  comparable j u hu hj := by
    have hlt := (List.getElem?_eq_some_iff.mp hu).1
    rw [List.length_singleton] at hlt
    omega
  extreme u hu := by
    rw [List.mem_singleton.mp hu]
    exact compare?_self_ne hside hv
  first j u hj := absurd hj (Nat.not_lt_zero j)

/-- An item that is not beyond the best one leaves it in its place. -/
theorem keep (h : IsExtreme side seen i found) {o : Ordering} (hv : compare? v found = some o)
    (ho : o ≠ side) : IsExtreme side (seen ++ [v]) i found where
  place := by rw [List.getElem?_append_left h.lt_length, h.place]
  comparable j u hu hj := by
    rcases getElem?_concat_eq_some hu with hu | ⟨-, rfl⟩
    · exact h.comparable j u hu hj
    · rw [hv, Option.isSome_some]
  extreme u hu := by
    rcases List.mem_append.mp hu with hu | hu
    · exact h.extreme u hu
    · rw [List.mem_singleton.mp hu, hv]
      exact fun heq => ho (Option.some.inj heq)
  first j u hj hu := by
    rcases getElem?_concat_eq_some hu with hu | ⟨rfl, -⟩
    · exact h.first j u hj hu
    · exact absurd h.lt_length (Nat.lt_asymm hj)

/-- An item beyond the best one is beyond all items before it. -/
theorem beyond (h : IsExtreme side seen i found) (hside : side ≠ .eq)
    (hfree : ∀ u ∈ seen ++ [v], floatFree u = true) (hv : compare? v found = some side) :
    ∀ u ∈ seen, compare? u v = some side.swap := by
  intro u hu
  have hvfree := hfree v (List.mem_append_right _ (List.mem_singleton_self v))
  have hufree := hfree u (List.mem_append_left _ hu)
  have hfoundfree := hfree found (List.mem_append_left _ (List.mem_of_getElem? h.place))
  obtain ⟨j, hj⟩ := List.mem_iff_getElem?.mp hu
  have hvu : compare? v u = some side := by
    by_cases hplace : j = i
    · rw [hplace, h.place] at hj
      cases hj
      exact hv
    · obtain ⟨o, ho⟩ := Option.isSome_iff_exists.mp (h.comparable j u hj hplace)
      have hne : o ≠ side := fun heq => h.extreme u hu (heq ▸ ho)
      have hturned : compare? found u = some o.swap := by
        rw [compare?_swap hufree hfoundfree, ho]
        rfl
      exact compare?_beyond hside hvfree hfoundfree hufree hv hturned (mt Ordering.swap_inj.mp hne)
  rw [compare?_swap hvfree hufree, hvu]
  rfl

/-- Such an item takes its place. -/
theorem replace (h : IsExtreme side seen i found) (hside : side ≠ .eq)
    (hfree : ∀ u ∈ seen ++ [v], floatFree u = true) (hv : compare? v found = some side) :
    IsExtreme side (seen ++ [v]) seen.length v where
  place := List.getElem?_concat_length
  comparable j u hu hj := by
    rcases getElem?_concat_eq_some hu with hu | ⟨hlast, -⟩
    · rw [h.beyond hside hfree hv u (List.mem_of_getElem? hu), Option.isSome_some]
    · exact absurd hlast hj
  extreme u hu := by
    rcases List.mem_append.mp hu with hu | hu
    · rw [h.beyond hside hfree hv u hu]
      exact fun heq => swap_ne_self hside (Option.some.inj heq)
    · rw [List.mem_singleton.mp hu]
      exact compare?_self_ne hside (hfree v (List.mem_append_right _ (List.mem_singleton_self v)))
  first j u hj hu := by
    rcases getElem?_concat_eq_some hu with hu | ⟨hlast, -⟩
    · rw [h.beyond hside hfree hv u (List.mem_of_getElem? hu)]
      intro heq
      exact hside (Ordering.swap_eq_eq.mp (Option.some.inj heq))
    · exact absurd hlast hj.ne

end IsExtreme

/-! ## All items -/

/-- What the search for an extreme among the items may end with. -/
def Sought (side : Ordering) (items : List Value) : Except Fault Value → Prop
  | .ok r => ∃ i, IsExtreme side items i r
  | .error f => f.kind = "TypeError" ∧ Incomparable items

section

variable {b : Builtin} {side : Ordering} {better : Ordering → Bool}

theorem best_cons {found v : Value} {o : Ordering} (h : compare? v found = some o) (rest : List Value) :
    best b better found (v :: rest) = best b better (if better o then v else found) rest := by
  rw [best, h]

theorem best_cons_of_none {found v : Value} (h : compare? v found = none) (rest : List Value) :
    best b better found (v :: rest) = .error (.unordered b.name v.typeName found.typeName) := by
  rw [best, h]

/-- The search from the best item so far on. -/
theorem sought_best (hside : side ≠ .eq) (hbetter : ∀ o, better o = true ↔ o = side) {found : Value}
    {seen rest : List Value} {i : ℕ} (h : IsExtreme side seen i found)
    (hfree : ∀ u ∈ seen ++ rest, floatFree u = true) :
    Sought side (seen ++ rest) (best b better found rest) := by
  induction rest generalizing seen i found with
  | nil =>
    rw [List.append_nil]
    exact ⟨i, h⟩
  | cons v rest ih =>
    rw [List.append_cons] at hfree ⊢
    have hseen : ∀ u ∈ seen ++ [v], floatFree u = true := fun u hu => hfree u (List.mem_append_left _ hu)
    cases hv : compare? v found with
    | none =>
      have hlast : (seen ++ [v] ++ rest)[seen.length]? = some v := by
        rw [List.append_assoc, List.getElem?_append_right (le_refl _), Nat.sub_self]
        rfl
      have hplace : (seen ++ [v] ++ rest)[i]? = some found := by
        rw [List.append_assoc, List.getElem?_append_left h.lt_length, h.place]
      rw [best_cons_of_none hv]
      exact ⟨rfl, seen.length, i, v, found, h.lt_length.ne', hlast, hplace, hv⟩
    | some o =>
      rw [best_cons hv]
      by_cases ho : o = side
      · rw [if_pos ((hbetter o).mpr ho)]
        exact ih (h.replace hside hseen (ho ▸ hv)) hfree
      · rw [if_neg (mt (hbetter o).mp ho)]
        exact ih (h.keep hv ho) hfree

/-- Nothing fails where all items can be compared. -/
theorem exists_best {found : Value} {rest : List Value}
    (h : ∀ u ∈ found :: rest, ∀ v ∈ found :: rest, (compare? u v).isSome = true) :
    ∃ r, best b better found rest = .ok r := by
  induction rest generalizing found with
  | nil => exact ⟨found, rfl⟩
  | cons v rest ih =>
    obtain ⟨o, ho⟩ := Option.isSome_iff_exists.mp
      (h v (List.mem_cons_of_mem _ (List.mem_cons_self ..)) found (List.mem_cons_self ..))
    rw [best_cons ho]
    have hsub : ∀ u ∈ (if better o then v else found) :: rest, u ∈ found :: v :: rest := by
      intro u hu
      rcases List.mem_cons.mp hu with rfl | hu
      · split <;> simp
      · exact List.mem_cons_of_mem _ (List.mem_cons_of_mem _ hu)
    exact ih fun u hu v hv => h u (hsub u hu) v (hsub v hv)

/-! ## Calls -/

namespace Candidates

variable {args items : List Value}

theorem extreme_nil (h : Candidates args []) : Inlay.extreme b better args = .error (.emptySequence b.name) := by
  cases h with
  | iterable h =>
    rw [Inlay.extreme, h]
    rfl
  | several h => exact absurd h (by decide)

theorem extreme_cons {v : Value} {rest : List Value} (h : Candidates args (v :: rest)) :
    Inlay.extreme b better args = best b better v rest := by
  cases h with
  | iterable h =>
    rw [Inlay.extreme, h]
    rfl
  | several h =>
    match rest, h with
    | u :: rest, _ => rfl

variable (b) in
theorem sought (h : Candidates args items) (hne : items ≠ []) (hside : side ≠ .eq)
    (hbetter : ∀ o, better o = true ↔ o = side) (hfree : ∀ v ∈ items, floatFree v = true) :
    Sought side items (Inlay.extreme b better args) := by
  cases items with
  | nil => exact absurd rfl hne
  | cons v rest =>
    rw [h.extreme_cons]
    exact sought_best hside hbetter (.singleton hside (hfree v (List.mem_cons_self ..))) hfree

variable (b better) in
theorem exists_ok (h : Candidates args items) (hne : items ≠ [])
    (hcompare : ∀ u ∈ items, ∀ v ∈ items, (compare? u v).isSome = true) :
    ∃ r, Inlay.extreme b better args = .ok r := by
  cases items with
  | nil => exact absurd rfl hne
  | cons v rest =>
    rw [h.extreme_cons]
    exact exists_best hcompare

end Candidates

end

/-- What a search for an extreme on a side returns, for arguments that name these items. -/
structure PicksExtreme (limit : ℕ) (b : Builtin) (side : Ordering) (args items : List Value) : Prop where
  /-- A value that it returns is the first extreme item. -/
  extreme (r : Value) (h : b.call limit args = .ok r) : ∃ i, IsExtreme side items i r
  /-- Without items it fails. -/
  empty (h : items = []) : Fails (b.call limit args) "ValueError"
  /-- It refuses the types of two items only if two items have no order. -/
  unordered (h : Fails (b.call limit args) "TypeError") : Incomparable items
  /-- If all items can be compared, it returns equal values for them in any order. -/
  permuted (hne : items ≠ []) (h : ∀ u ∈ items, ∀ v ∈ items, (compare? u v).isSome = true)
    {args' items' : List Value} (hargs : Candidates args' items') (hperm : items.Perm items') :
    ∃ r r', b.call limit args = .ok r ∧ b.call limit args' = .ok r' ∧ compare? r r' = some .eq

/-- Two extremes of the same items are equal. -/
theorem IsExtreme.compare?_eq {side : Ordering} {items items' : List Value} {i i' : ℕ} {r r' : Value}
    (h : IsExtreme side items i r) (h' : IsExtreme side items' i' r') (hside : side ≠ .eq)
    (hfree : ∀ v ∈ items, floatFree v = true) (hperm : items.Perm items')
    (hcompare : (compare? r r').isSome = true) : compare? r r' = some .eq := by
  have hr := List.mem_of_getElem? h.place
  have hr' := hperm.mem_iff.mpr (List.mem_of_getElem? h'.place)
  have hne := h'.extreme r (hperm.mem_iff.mp hr)
  have hne' := h.extreme r' hr'
  rw [compare?_swap (hfree r hr) (hfree r' hr')] at hne'
  obtain ⟨o, ho⟩ := Option.isSome_iff_exists.mp hcompare
  rw [ho] at hne hne' ⊢
  revert hside hne hne'
  cases o <;> cases side <;> decide

section

variable {b : Builtin} {side : Ordering} {better : Ordering → Bool} {limit : ℕ} {args items : List Value}

theorem picksExtreme (hcall : ∀ args, b.call limit args = Inlay.extreme b better args) (hside : side ≠ .eq)
    (hbetter : ∀ o, better o = true ↔ o = side) (hargs : Candidates args items)
    (hfree : ∀ v ∈ items, floatFree v = true) : PicksExtreme limit b side args items where
  extreme r hr := by
    rw [hcall] at hr
    have hne : items ≠ [] := by
      rintro rfl
      rw [hargs.extreme_nil] at hr
      cases hr
    have h := hargs.sought b hne hside hbetter hfree
    rwa [hr] at h
  empty h := by
    subst h
    exact ⟨.emptySequence b.name, (hcall args).trans hargs.extreme_nil, rfl⟩
  unordered := by
    rintro ⟨f, hf, hkind⟩
    rw [hcall] at hf
    have hne : items ≠ [] := by
      rintro rfl
      rw [hargs.extreme_nil] at hf
      cases hf
      exact absurd hkind (by simp [Fault.kind])
    have h := hargs.sought b hne hside hbetter hfree
    rw [hf] at h
    exact h.2
  permuted hne hcompare args' items' hargs' hperm := by
    have hne' : items' ≠ [] := fun h => hne (hperm.trans (.of_eq h)).eq_nil
    have hfree' : ∀ v ∈ items', floatFree v = true := fun v hv => hfree v (hperm.mem_iff.mpr hv)
    obtain ⟨r, hr⟩ := hargs.exists_ok b better hne hcompare
    obtain ⟨r', hr'⟩ := hargs'.exists_ok b better hne' fun u hu v hv =>
      hcompare u (hperm.mem_iff.mpr hu) v (hperm.mem_iff.mpr hv)
    have h := hargs.sought b hne hside hbetter hfree
    have h' := hargs'.sought b hne' hside hbetter hfree'
    rw [hr] at h
    rw [hr'] at h'
    obtain ⟨i, hi⟩ := h
    obtain ⟨i', hi'⟩ := h'
    refine ⟨r, r', (hcall args).trans hr, (hcall args').trans hr', hi.compare?_eq hi' hside hfree hperm ?_⟩
    exact hcompare r (List.mem_of_getElem? hi.place) r' (hperm.mem_iff.mpr (List.mem_of_getElem? hi'.place))

end

/-- **`min` and `max` return a true extreme**, the first one of equal extremes, for all items without
floats. -/
theorem min_max_true_extremes (limit : ℕ) {args items : List Value} (hargs : Candidates args items)
    (hfree : ∀ v ∈ items, floatFree v = true) :
    PicksExtreme limit .min .lt args items ∧ PicksExtreme limit .max .gt args items := by
  have hless (o : Ordering) : o.isLT = true ↔ o = .lt := by cases o <;> decide
  have hgreater (o : Ordering) : o.isGT = true ↔ o = .gt := by cases o <;> decide
  exact ⟨picksExtreme (fun _ => rfl) (by decide) hless hargs hfree,
    picksExtreme (fun _ => rfl) (by decide) hgreater hargs hfree⟩

/-- Two of these lists are least, and the first of them is returned. -/
theorem min_true_extreme_of_lists :
    Builtin.min.call 0 [list [int 2], list [int 1], list [int 1, nothing], list [int 1]] =
        .ok (list [int 1]) ∧
      ∃ i, IsExtreme .lt [list [int 2], list [int 1], list [int 1, nothing], list [int 1]] i
        (list [int 1]) := by
  have hargs : Candidates [list [int 2], list [int 1], list [int 1, nothing], list [int 1]]
      [list [int 2], list [int 1], list [int 1, nothing], list [int 1]] := .several (by decide)
  exact ⟨rfl, (min_max_true_extremes 0 hargs (by decide)).1.extreme _ rfl⟩

end Value

end Inlay
