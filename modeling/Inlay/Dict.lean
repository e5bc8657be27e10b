/-!
# Dictionaries

A dictionary is a list of entries in increasing order of their keys, by code points. It is the
type behind variables, maps, modules and tables of blocks, whose entries are always shown in this
order.

* `Dict.get?`, `Dict.insert`, `Dict.ofList`, `Dict.keys`, `Dict.values`.
* `Dict.Sorted`: the keys increase strictly; `Dict.sorted_insert` keeps it, and `Dict.ofList_of_sorted`
  makes the dictionary of such a list.
* `Dict.get?_insert_self`, `Dict.get?_insert_of_ne`, `Dict.get?_mapEntries`, `Dict.get?_append`: the view
  through `get?`, which `Dict.isSome_get?_iff`, `Dict.mem_of_get?_eq_some` and `Dict.get?_eq_some_of_mem`
  compare with the entries.
* `Dict.perm_insert_of_get?_eq_none`: a new entry.
-/

namespace Inlay

/-- Entries in increasing order of their keys. -/
abbrev Dict (α : Type u) := List (String × α)

namespace Dict

variable {α : Type u} {β : Type v}

/-- The value stored under a key. -/
def get? (key : String) : Dict α → Option α
  | [] => none
  | (other, value) :: rest => if key = other then some value else get? key rest

/-- Is there an entry with this key? -/
def contains (key : String) (d : Dict α) : Bool :=
  (d.get? key).isSome

/-- The dictionary with a value stored under a key, in the place of an older one. -/
def insert (key : String) (value : α) : Dict α → Dict α
  | [] => [(key, value)]
  | (other, old) :: rest =>
    if key = other then (key, value) :: rest
    else if key < other then (key, value) :: (other, old) :: rest
    else (other, old) :: insert key value rest

/-- The dictionary of a list of entries; of two entries with one key the later one stays. -/
def ofList (entries : List (String × α)) : Dict α :=
  entries.foldl (fun d (key, value) => insert key value d) []

/-- The keys in increasing order. -/
def keys (d : Dict α) : List String :=
  d.map (·.1)

/-- The values in the order of their keys. -/
def values (d : Dict α) : List α :=
  d.map (·.2)

/-- The values replaced, each with the help of its key. -/
def mapEntries (f : String → α → β) (d : Dict α) : Dict β :=
  d.map fun (key, value) => (key, f key value)

@[simp] theorem get?_nil (key : String) : get? key ([] : Dict α) = none := rfl

@[simp] theorem get?_insert_self (key : String) (value : α) (d : Dict α) :
    (d.insert key value).get? key = some value := by
  induction d with
  | nil => simp [insert, get?]
  | cons entry rest ih =>
    obtain ⟨other, old⟩ := entry
    by_cases h : key = other
    · simp [insert, get?, h]
    · by_cases hlt : key < other
      · simp [insert, get?, h, hlt]
      · simpa [insert, get?, h, hlt] using ih

theorem get?_insert_of_ne {key other : String} (h : other ≠ key) (value : α) (d : Dict α) :
    (d.insert key value).get? other = d.get? other := by
  induction d with
  | nil => simp [insert, get?, h]
  | cons entry rest ih =>
    obtain ⟨head, old⟩ := entry
    by_cases heq : key = head
    · subst heq
      simp [insert, get?, h]
    · by_cases hlt : key < head
      · simp [insert, get?, heq, hlt, h]
      · simp [insert, get?, heq, hlt, ih]

theorem get?_mapEntries (f : String → α → β) (name : String) (d : Dict α) :
    (d.mapEntries f).get? name = (d.get? name).map (f name) := by
  induction d with
  | nil => rfl
  | cons entry rest ih =>
    obtain ⟨key, a⟩ := entry
    rw [mapEntries, List.map_cons, get?, get?]
    split
    · rename_i hkey
      rw [hkey, Option.map_some]
    · exact ih

theorem get?_append (key : String) (d d' : Dict α) :
    get? key (d ++ d') = (get? key d).or (get? key d') := by
  induction d with
  | nil => rfl
  | cons entry rest ih =>
    obtain ⟨other, value⟩ := entry
    rw [List.cons_append, get?, get?]
    split
    · rfl
    · exact ih

/-- A dictionary has an entry under each of its keys. -/
theorem isSome_get?_iff {key : String} {d : Dict α} : (d.get? key).isSome ↔ key ∈ d.keys := by
  induction d with
  | nil => simp [keys]
  | cons entry rest ih =>
    obtain ⟨other, value⟩ := entry
    rw [get?, keys, List.map_cons, List.mem_cons]
    split
    · rename_i hkey
      simp [hkey]
    · rename_i hkey
      rw [ih, keys]
      simp [hkey]

theorem mem_of_get?_eq_some {key : String} {value : α} {d : Dict α} (h : d.get? key = some value) :
    (key, value) ∈ d := by
  induction d with
  | nil => exact absurd h (Option.some_ne_none value).symm
  | cons entry rest ih =>
    obtain ⟨other, old⟩ := entry
    rw [get?] at h
    split at h
    · rename_i hkey
      obtain rfl := Option.some.inj h
      exact hkey ▸ List.mem_cons_self ..
    · exact List.mem_cons_of_mem _ (ih h)

/-- If its keys are distinct, a dictionary has what it holds under the key. -/
theorem get?_eq_some_of_mem {key : String} {value : α} {d : Dict α} (hkeys : d.keys.Nodup)
    (h : (key, value) ∈ d) : d.get? key = some value := by
  induction d with
  | nil => exact absurd h List.not_mem_nil
  | cons entry rest ih =>
    obtain ⟨other, old⟩ := entry
    obtain ⟨hother, hrest⟩ := List.nodup_cons.mp hkeys
    rw [get?]
    rcases List.mem_cons.mp h with heq | hmem
    · obtain ⟨rfl, rfl⟩ := Prod.mk.inj heq
      exact if_pos rfl
    · have hne : key ≠ other := by
        rintro rfl
        exact hother (List.mem_map.mpr ⟨_, hmem, rfl⟩)
      rw [if_neg hne, ih hrest hmem]

/-- A new entry, wherever it is stored. -/
theorem perm_insert_of_get?_eq_none {key : String} (value : α) {d : Dict α} (h : d.get? key = none) :
    (d.insert key value).Perm ((key, value) :: d) := by
  induction d with
  | nil => exact .refl _
  | cons entry rest ih =>
    obtain ⟨other, old⟩ := entry
    rw [get?] at h
    split at h
    · exact absurd h (Option.some_ne_none _)
    · rename_i hne
      rw [insert, if_neg hne]
      split
      · exact .refl _
      · exact ((ih h).cons _).trans (.swap ..)

theorem length_insert_of_get?_eq_none {key : String} (value : α) {d : Dict α}
    (h : d.get? key = none) : (d.insert key value).length = d.length + 1 :=
  (perm_insert_of_get?_eq_none value h).length_eq

/-- The keys increase strictly. -/
def Sorted (d : Dict α) : Prop :=
  d.Pairwise fun a b => a.1 < b.1

theorem mem_insert {key : String} {value : α} {d : Dict α} {e : String × α}
    (h : e ∈ d.insert key value) : e = (key, value) ∨ e ∈ d := by
  induction d with
  | nil => simpa [insert] using h
  | cons entry rest ih =>
    obtain ⟨other, old⟩ := entry
    rw [insert] at h
    split at h
    · rcases List.mem_cons.mp h with h | h
      · exact Or.inl h
      · exact Or.inr (List.mem_cons_of_mem _ h)
    · split at h
      · exact List.mem_cons.mp h
      · rcases List.mem_cons.mp h with h | h
        · exact Or.inr (h ▸ List.mem_cons_self ..)
        · exact (ih h).imp_right (List.mem_cons_of_mem _)

theorem sorted_insert (key : String) (value : α) {d : Dict α} (h : d.Sorted) :
    (d.insert key value).Sorted := by
  induction d with
  | nil => simp [insert, Sorted]
  | cons entry rest ih =>
    obtain ⟨other, old⟩ := entry
    obtain ⟨hother, hrest⟩ := List.pairwise_cons.mp h
    rw [insert]
    split
    · rename_i heq
      subst heq
      exact List.pairwise_cons.mpr ⟨hother, hrest⟩
    · rename_i hne
      split
      · rename_i hlt
        refine List.pairwise_cons.mpr ⟨fun e he => ?_, h⟩
        rcases List.mem_cons.mp he with rfl | he
        · exact hlt
        · exact String.lt_trans hlt (hother e he)
      · rename_i hge
        refine List.pairwise_cons.mpr ⟨fun e he => ?_, ih hrest⟩
        rcases mem_insert he with rfl | he
        · rcases Decidable.em (other < key) with hlt | hnot
          · exact hlt
          · exact absurd (String.le_antisymm (String.not_lt.mp hnot) (String.not_lt.mp hge)) hne
        · exact hother e he

/-- A key beyond all others is stored at the end. -/
theorem insert_of_forall_lt {key : String} (value : α) {d : Dict α} (h : ∀ e ∈ d, e.1 < key) :
    d.insert key value = d ++ [(key, value)] := by
  induction d with
  | nil => rfl
  | cons entry rest ih =>
    obtain ⟨other, old⟩ := entry
    have hlt : other < key := h (other, old) (List.mem_cons_self ..)
    have hne : key ≠ other := fun heq => String.lt_irrefl key (heq ▸ hlt)
    have hrest := ih fun e he => h e (List.mem_cons_of_mem _ he)
    rw [insert, if_neg hne, if_neg (String.lt_asymm hlt), hrest, List.cons_append]

theorem foldl_insert_of_sorted {d rest : Dict α} (h : Sorted (d ++ rest)) :
    rest.foldl (fun d (key, value) => insert key value d) d = d ++ rest := by
  induction rest generalizing d with
  | nil => rw [List.foldl_nil, List.append_nil]
  | cons entry rest ih =>
    obtain ⟨key, value⟩ := entry
    have hlt : ∀ e ∈ d, e.1 < key := fun e he =>
      (List.pairwise_append.mp h).2.2 e he (key, value) (List.mem_cons_self ..)
    rw [List.append_cons] at h ⊢
    rw [← ih h, ← insert_of_forall_lt value hlt, List.foldl_cons]

/-- Entries in the order of their keys are the dictionary that is made of them. -/
theorem ofList_of_sorted {d : Dict α} (h : d.Sorted) : ofList d = d :=
  foldl_insert_of_sorted (d := []) h

end Dict

end Inlay
