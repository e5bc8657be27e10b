import Inlay.Proofs.Value.Integers

/-!
# Sequences are built within the limit or refused

Texts and lists are joined by `+` and repeated by `*`.  The length of the outcome is computed first, in bytes
of UTF-8 for a text and in items for a list, and what would be longer than the limit is not built.

* `Value.Limited`: a sequence under a limit, built or refused.
* `Value.limited_add_texts`, `Value.limited_add_lists`, `Value.limited_repeatText`,
  `Value.limited_repeatItems`: what the operators build.
* `Value.extent`, `Value.extent_le_of_binary`: nothing that they build is longer than the limit.
-/

namespace Inlay

namespace Value

/-! ## Under a limit -/

/-- The outcome of building a sequence of a length under a limit: the sequence, or an error of memory where
it would be longer than the limit. -/
structure Limited (limit length : ℕ) (outcome : Except Fault Value) (v : Value) : Prop where
  built : length ≤ limit → outcome = .ok v
  refused : limit < length → Fails outcome "MemoryError"

theorem limited_checkLength (limit length : ℕ) (v : Value) :
    Limited limit length (do checkLength limit length; return v) v := by
  refine ⟨fun h => ?_, fun h => ⟨.sequenceLimit limit, ?_, rfl⟩⟩
  · rw [checkLength, if_pos h]
    rfl
  · rw [checkLength, if_neg (Nat.not_le.mpr h)]
    rfl

/-- How long a text or a list is, in the measure of the limit. -/
def extent : Value → ℕ
  | str s => s.utf8ByteSize
  | list items => items.length
  | _ => 0

theorem Limited.extent_le {limit length : ℕ} {outcome : Except Fault Value} {u v : Value}
    (h : Limited limit length outcome u) (hlength : u.extent = length) (hv : outcome = .ok v) :
    v.extent ≤ limit := by
  rcases Nat.lt_or_ge limit length with hlong | hshort
  · obtain ⟨f, hf, -⟩ := h.refused hlong
    rw [hf] at hv
    cases hv
  · rw [h.built hshort] at hv
    cases hv
    exact hlength ▸ hshort

/-! ## Joined -/

theorem limited_add_texts (limit : ℕ) (a b : String) :
    Limited limit (a.utf8ByteSize + b.utf8ByteSize) (binary limit .add (str a) (str b)) (str (a ++ b)) :=
  limited_checkLength _ _ _

theorem limited_add_lists (limit : ℕ) (as bs : List Value) :
    Limited limit (as.length + bs.length) (binary limit .add (list as) (list bs)) (list (as ++ bs)) :=
  limited_checkLength _ _ _

/-! ## Repeated -/

/-- A count below zero asks for no copies. -/
theorem copies_eq (n : Int64) : copies n = (max n.toInt 0).toNat := by
  rw [copies]
  omega

/-- A text behind itself again and again is its copies joined. -/
theorem repeat_append_eq_join (s : String) (count : ℕ) :
    count.repeat (fun t => t ++ s) "" = String.join (List.replicate count s) := by
  induction count with
  | zero => rfl
  | succ count ih =>
    rw [Nat.repeat, ih, List.replicate_succ', String.join_append]
    simp

theorem utf8ByteSize_join_replicate (s : String) (count : ℕ) :
    (String.join (List.replicate count s)).utf8ByteSize = s.utf8ByteSize * count := by
  induction count with
  | zero => rfl
  | succ count ih =>
    rw [List.replicate_succ, String.join_cons, String.utf8ByteSize_append, ih, Nat.mul_succ, Nat.add_comm]

theorem join_replicate_empty (count : ℕ) : String.join (List.replicate count "") = "" := by
  rw [← String.isEmpty_iff, String.isEmpty_iff_utf8ByteSize_eq_zero, utf8ByteSize_join_replicate, String.utf8ByteSize_empty, Nat.zero_mul]

theorem length_flatten_replicate (items : List Value) (count : ℕ) :
    (List.replicate count items).flatten.length = items.length * count := by
  rw [List.length_flatten, List.map_replicate, List.sum_replicate, smul_eq_mul, Nat.mul_comm]

/-- Copies of an empty text are not made one by one. -/
theorem limited_repeatText (limit : ℕ) (s : String) (n : Int64) :
    Limited limit (s.utf8ByteSize * (max n.toInt 0).toNat) (repeatText limit s n)
      (str (String.join (List.replicate (max n.toInt 0).toNat s))) := by
  have hcopies : (if s.isEmpty then s else (copies n).repeat (fun t => t ++ s) "") =
      String.join (List.replicate (copies n) s) := by
    split
    · rename_i hempty
      rw [String.isEmpty_iff.mp hempty]
      exact (join_replicate_empty _).symm
    · exact repeat_append_eq_join s _
  rw [← copies_eq, ← hcopies]
  exact limited_checkLength _ _ _

/-- Copies of an empty list are not made one by one. -/
theorem limited_repeatItems (limit : ℕ) (items : List Value) (n : Int64) :
    Limited limit (items.length * (max n.toInt 0).toNat) (repeatItems limit items n)
      (list (List.replicate (max n.toInt 0).toNat items).flatten) := by
  have hcopies : (if items.isEmpty then items else (List.replicate (copies n) items).flatten) =
      (List.replicate (copies n) items).flatten := by
    split
    · rename_i hempty
      rw [List.isEmpty_iff.mp hempty, List.flatten_replicate_nil]
    · rfl
  rw [← copies_eq, ← hcopies]
  exact limited_checkLength _ _ _

/-! ## No longer than the limit -/

theorem extent_of_exactly {n : Int} {v : Value} (h : exactly n = .ok v) : v.extent = 0 := by
  rw [exactly] at h
  split at h
  · cases h
    rfl
  · cases h

/-- Numbers have no extent. -/
theorem extent_of_arithmetic {op : Operator} {onInts : Int → Int → Int} {onFloats : Float → Float → Float}
    {a b v : Value} (h : arithmetic op onInts onFloats a b = .ok v) : v.extent = 0 := by
  rw [arithmetic] at h
  split at h
  · exact extent_of_exactly h
  · rw [floatOperands] at h
    split at h <;> cases h
    rfl

theorem extent_le_of_add {limit : ℕ} {a b v : Value} (h : add limit a b = .ok v) : v.extent ≤ limit := by
  unfold add at h
  split at h
  · exact (limited_add_texts limit _ _).extent_le String.utf8ByteSize_append h
  · exact (limited_add_lists limit _ _).extent_le List.length_append h
  · rw [extent_of_arithmetic h]
    exact Nat.zero_le limit

theorem extent_le_of_mul {limit : ℕ} {a b v : Value} (h : mul limit a b = .ok v) : v.extent ≤ limit := by
  unfold mul at h
  split at h
  · exact (limited_repeatText limit _ _).extent_le (utf8ByteSize_join_replicate _ _) h
  · exact (limited_repeatText limit _ _).extent_le (utf8ByteSize_join_replicate _ _) h
  · exact (limited_repeatItems limit _ _).extent_le (length_flatten_replicate _ _) h
  · exact (limited_repeatItems limit _ _).extent_le (length_flatten_replicate _ _) h
  · rw [extent_of_arithmetic h]
    exact Nat.zero_le limit

end Value

end Inlay
