import Inlay.Statement.Nesting

/-!
# The clauses of a statement

Behind the body of an opening statement stand its clauses, each with a body of its own. Which rows
of clauses make a whole statement is said twice in this library: by the grammar, one row of
clauses at a time, and by the open scopes of `Statement.Nesting`, one clause at a time.  This file
joins the two.

* `Opening.Admits`: the rows of clauses that make an opening statement whole, as the grammar has
  them.
* `Chain.Completes`: the rows of clauses that lead an open scope to a part that an `end` may close.
* `Opening.admits_iff_completes`: for the scope that an opening statement opens, the two agree.
-/

namespace Inlay

/-! ## Rows of clauses -/

/-- At most one clause of a kind stands here. -/
def AtMostOne (c : Clause) (cs : List Clause) : Prop :=
  cs = [] ∨ cs = [c]

/-- **The rows of clauses of the grammar.**  A choice has tests and perhaps an `else`, a loop has
perhaps an `else`, a binding has nothing, and a `try` has handlers, perhaps an `else` and perhaps a
`finally`, or else a `finally` alone. -/
def Opening.Admits : Opening → List Clause → Prop
  | .ifTest _, cs => ∃ (tests : List Expr) (tail : List Clause),
      AtMostOne .elseBranch tail ∧ cs = tests.map .elifTest ++ tail
  | .whileTest _, cs => AtMostOne .elseBranch cs
  | .forEach .., cs => AtMostOne .elseBranch cs
  | .withBinding .., cs => cs = []
  | .tryBody, cs =>
    (∃ (head : ExceptHead) (heads : List ExceptHead) (tail last : List Clause),
      AtMostOne .elseBranch tail ∧ AtMostOne .finally_ last ∧
      cs = .except head :: (heads.map .except ++ tail ++ last)) ∨
    cs = [.finally_]

/-- The rows of clauses that lead from an open part of a statement to one that an `end` may
close. -/
def Chain.Completes : Chain → List Clause → Prop
  | chain, [] => chain ≠ .tryStart
  | chain, c :: cs => ∃ next, Chain.next? c chain = some next ∧ next.Completes cs

namespace Chain

@[simp] theorem completes_nil (chain : Chain) : chain.Completes [] ↔ chain ≠ .tryStart := Iff.rfl

@[simp] theorem completes_cons (chain : Chain) (c : Clause) (cs : List Clause) :
    chain.Completes (c :: cs) ↔ ∃ next, Chain.next? c chain = some next ∧ next.Completes cs :=
  Iff.rfl

/-! ## Parts that nothing follows -/

/-- No clause goes on with a block. -/
theorem next?_block (c : Clause) : Chain.next? c block = none := by
  cases c <;> rfl

/-- A part that no clause may follow is followed by none. -/
theorem completes_iff_nil {chain : Chain} (hstart : chain ≠ .tryStart)
    (hnext : ∀ c, Chain.next? c chain = none) (cs : List Clause) :
    chain.Completes cs ↔ cs = [] := by
  cases cs with
  | nil => simpa using hstart
  | cons c cs => simp [hnext]

theorem completes_withBody (cs : List Clause) : withBody.Completes cs ↔ cs = [] :=
  completes_iff_nil (by decide) (fun c => by cases c <;> rfl) cs

theorem completes_ifElse (cs : List Clause) : ifElse.Completes cs ↔ cs = [] :=
  completes_iff_nil (by decide) (fun c => by cases c <;> rfl) cs

theorem completes_loopElse (cs : List Clause) : loopElse.Completes cs ↔ cs = [] :=
  completes_iff_nil (by decide) (fun c => by cases c <;> rfl) cs

theorem completes_tryFinally (cs : List Clause) : tryFinally.Completes cs ↔ cs = [] :=
  completes_iff_nil (by decide) (fun c => by cases c <;> rfl) cs

/-! ## Parts that a clause may follow -/

theorem completes_loop (cs : List Clause) : loop.Completes cs ↔ AtMostOne .elseBranch cs := by
  cases cs with
  | nil => simp [AtMostOne]
  | cons c cs => cases c <;> simp [AtMostOne, Chain.next?, completes_loopElse]

theorem completes_tryElse (cs : List Clause) : tryElse.Completes cs ↔ AtMostOne .finally_ cs := by
  cases cs with
  | nil => simp [AtMostOne]
  | cons c cs => cases c <;> simp [AtMostOne, Chain.next?, completes_tryFinally]

theorem completes_ifBranch (cs : List Clause) :
    ifBranch.Completes cs ↔
      ∃ (tests : List Expr) (tail : List Clause),
      AtMostOne .elseBranch tail ∧ cs = tests.map .elifTest ++ tail := by
  induction cs with
  | nil => exact ⟨fun _ => ⟨[], [], Or.inl rfl, rfl⟩, fun _ => by simp⟩
  | cons c cs ih =>
    constructor
    · rintro ⟨next, hnext, hrest⟩
      cases c with
      | elifTest test =>
        obtain rfl : ifBranch = next := Option.some.inj hnext
        obtain ⟨tests, tail, htail, rfl⟩ := ih.mp hrest
        exact ⟨test :: tests, tail, htail, rfl⟩
      | elseBranch =>
        obtain rfl : ifElse = next := Option.some.inj hnext
        rw [completes_ifElse] at hrest
        subst hrest
        exact ⟨[], [.elseBranch], Or.inr rfl, rfl⟩
      | except head => exact absurd hnext (by simp [Chain.next?])
      | finally_ => exact absurd hnext (by simp [Chain.next?])
    · rintro ⟨tests, tail, htail, heq⟩
      cases tests with
      | nil =>
        rcases htail with rfl | rfl
        · exact absurd heq (by simp)
        · obtain ⟨rfl, rfl⟩ := List.cons.inj heq
          exact ⟨ifElse, rfl, by simp⟩
      | cons test tests =>
        obtain ⟨rfl, rfl⟩ := List.cons.inj heq
        exact ⟨ifBranch, rfl, ih.mpr ⟨tests, tail, htail, rfl⟩⟩

theorem completes_tryExcept (cs : List Clause) :
    tryExcept.Completes cs ↔
      ∃ (heads : List ExceptHead) (tail last : List Clause),
        AtMostOne .elseBranch tail ∧ AtMostOne .finally_ last ∧ cs = heads.map .except ++ tail ++ last := by
  induction cs with
  | nil => exact ⟨fun _ => ⟨[], [], [], Or.inl rfl, Or.inl rfl, rfl⟩, fun _ => by simp⟩
  | cons c cs ih =>
    constructor
    · rintro ⟨next, hnext, hrest⟩
      cases c with
      | elifTest test => exact absurd hnext (by simp [Chain.next?])
      | elseBranch =>
        obtain rfl : tryElse = next := Option.some.inj hnext
        exact ⟨[], [.elseBranch], cs, Or.inr rfl, (completes_tryElse cs).mp hrest, rfl⟩
      | except head =>
        obtain rfl : tryExcept = next := Option.some.inj hnext
        obtain ⟨heads, tail, last, htail, hlast, rfl⟩ := ih.mp hrest
        exact ⟨head :: heads, tail, last, htail, hlast, rfl⟩
      | finally_ =>
        obtain rfl : tryFinally = next := Option.some.inj hnext
        rw [completes_tryFinally] at hrest
        subst hrest
        exact ⟨[], [], [.finally_], Or.inl rfl, Or.inr rfl, rfl⟩
    · rintro ⟨heads, tail, last, htail, hlast, heq⟩
      cases heads with
      | cons head heads =>
        obtain ⟨rfl, rfl⟩ := List.cons.inj heq
        exact ⟨tryExcept, rfl, ih.mpr ⟨heads, tail, last, htail, hlast, rfl⟩⟩
      | nil =>
        rcases htail with rfl | rfl
        · rcases hlast with rfl | rfl
          · exact absurd heq (by simp)
          · obtain ⟨rfl, rfl⟩ := List.cons.inj heq
            exact ⟨tryFinally, rfl, by simp⟩
        · obtain ⟨rfl, rfl⟩ := List.cons.inj heq
          exact ⟨tryElse, rfl, (completes_tryElse _).mpr hlast⟩

theorem completes_tryStart (cs : List Clause) :
    tryStart.Completes cs ↔
      (∃ (head : ExceptHead) (heads : List ExceptHead) (tail last : List Clause),
      AtMostOne .elseBranch tail ∧ AtMostOne .finally_ last ∧
        cs = .except head :: (heads.map .except ++ tail ++ last)) ∨
      cs = [.finally_] := by
  cases cs with
  | nil => simp
  | cons c cs =>
    cases c with
    | elifTest test => simp [Chain.next?]
    | elseBranch => simp [Chain.next?]
    | except head =>
      constructor
      · rintro ⟨next, hnext, hrest⟩
        obtain rfl : tryExcept = next := Option.some.inj hnext
        obtain ⟨heads, tail, last, htail, hlast, rfl⟩ := (completes_tryExcept cs).mp hrest
        exact Or.inl ⟨head, heads, tail, last, htail, hlast, rfl⟩
      · rintro (⟨first, heads, tail, last, htail, hlast, heq⟩ | heq)
        · obtain ⟨-, hcs⟩ := List.cons.inj heq
          exact ⟨tryExcept, rfl,
            (completes_tryExcept cs).mpr ⟨heads, tail, last, htail, hlast, hcs⟩⟩
        · exact absurd heq (by simp)
    | finally_ => simp [Chain.next?, completes_tryFinally]

end Chain

/-! ## The two readings agree -/

/-- **The grammar and the open scopes agree**: the clauses that an opening statement admits are
those that lead the scope it opens to a part that an `end` may close. -/
theorem Opening.admits_iff_completes (o : Opening) (cs : List Clause) :
    o.Admits cs ↔ o.chain.Completes cs := by
  cases o with
  | ifTest test => exact (Chain.completes_ifBranch cs).symm
  | whileTest test => exact (Chain.completes_loop cs).symm
  | forEach head isAsync => exact (Chain.completes_loop cs).symm
  | withBinding head isAsync => exact (Chain.completes_withBody cs).symm
  | tryBody => exact (Chain.completes_tryStart cs).symm

end Inlay
