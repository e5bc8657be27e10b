import Inlay.Proofs.Statement.Bodies

/-!
# How a tree grows

The nesting of a source takes one entry after the other. This file says what it has become once
some entries with known trees are behind it, whatever scopes were open before.

* `Nesting.pushEntry`: the nesting with one entry more; `Nesting.foldlM_pushSegment_eq_ok`: the same
  for the segments of a source.
* `Nesting.grow`: the nesting with whole trees in its innermost scope, the bodies of their blocks in
  the table and the lines of their blocks noted.
* `Nesting.grow_grow`: growing twice is growing once.
* `Nesting.close_grow_openScope`, `Nesting.close_grow_openBlock`: a scope that is opened, grown and
  closed is one tree more.
-/

namespace Inlay

/-! ## Computations that may fail -/

section

variable {ε α β : Type}

theorem bind_eq_ok_iff {x : Except ε α} {f : α → Except ε β} {b : β} :
    x >>= f = .ok b ↔ ∃ a, x = .ok a ∧ f a = .ok b := by
  cases x with
  | error e => simp [bind, Except.bind]
  | ok a => simp [bind, Except.bind]

theorem exists_eq_ok_of_isOk {x : Except ε α} (h : x.isOk = true) : ∃ a, x = .ok a := by
  cases x with
  | error e => exact absurd h Bool.false_ne_true
  | ok a => exact ⟨a, rfl⟩

theorem eq_ok_of_toOption {x : Except ε α} {a : α} (h : x.toOption = some a) : x = .ok a := by
  cases x with
  | error e => exact absurd h (Option.some_ne_none a).symm
  | ok b => exact congrArg Except.ok (Option.some.inj h)

theorem mapM_cons_eq_ok_iff {f : α → Except ε β} {a : α} {as : List α} {bs : List β} :
    (a :: as).mapM f = .ok bs ↔
      ∃ b bs', f a = .ok b ∧ as.mapM f = .ok bs' ∧ bs = b :: bs' := by
  simp only [List.mapM_cons, bind_eq_ok_iff, pure, Except.pure, Except.ok.injEq]
  constructor
  · rintro ⟨b, hb, bs', hbs', rfl⟩
    exact ⟨b, bs', hb, hbs', rfl⟩
  · rintro ⟨b, bs', hb, hbs', rfl⟩
    exact ⟨b, hb, bs', hbs', rfl⟩

theorem foldlM_cons_eq_ok_iff {f : β → α → Except ε β} {a : α} {as : List α} {b b' : β} :
    (a :: as).foldlM f b = .ok b' ↔ ∃ c, f b a = .ok c ∧ as.foldlM f c = .ok b' := by
  rw [List.foldlM_cons, bind_eq_ok_iff]

theorem foldlM_append_eq_ok_iff {f : β → α → Except ε β} {as as' : List α} {b b' : β} :
    (as ++ as').foldlM f b = .ok b' ↔ ∃ c, as.foldlM f b = .ok c ∧ as'.foldlM f c = .ok b' := by
  rw [List.foldlM_append, bind_eq_ok_iff]

end

namespace Nesting

/-! ## Entries pushed -/

/-- The tree with an entry behind what it holds. -/
def pushEntry (file : String) (n : Nesting) : Entry → Except Error Nesting
  | .text text => .ok (n.attach (.ofText text))
  | .item item => n.push file item

/-- A segment is pushed by telling its statement and pushing the entry. -/
theorem pushSegment_eq (config : Config) (file : String) (n : Nesting) (segment : Segment) :
    n.pushSegment config file segment = segment.entry config file >>= n.pushEntry file := by
  cases segment with
  | plain text => rfl
  | statement text line span =>
    rw [pushSegment, Segment.entry, bind_assoc]
    rfl

/-- Segments are pushed by telling all their statements and pushing the entries. -/
theorem foldlM_pushSegment_eq_ok {config : Config} {file : String} {segments : List Segment}
    {n n' : Nesting} :
    segments.foldlM (pushSegment config file) n = .ok n' ↔
      ∃ es, segments.mapM (Segment.entry config file) = .ok es ∧
        es.foldlM (pushEntry file) n = .ok n' := by
  induction segments generalizing n with
  | nil => exact ⟨fun h => ⟨[], rfl, h⟩, fun ⟨es, hes, h⟩ => by cases hes; exact h⟩
  | cons segment segments ih =>
    simp only [foldlM_cons_eq_ok_iff, pushSegment_eq, bind_eq_ok_iff, mapM_cons_eq_ok_iff, ih]
    constructor
    · rintro ⟨n₁, ⟨e, he, hpush⟩, es, hes, hfold⟩
      exact ⟨e :: es, ⟨e, es, he, hes, rfl⟩, foldlM_cons_eq_ok_iff.mpr ⟨n₁, hpush, hfold⟩⟩
    · rintro ⟨_, ⟨e, es, he, hes, rfl⟩, hfold⟩
      obtain ⟨n₁, hpush, hfold⟩ := foldlM_cons_eq_ok_iff.mp hfold
      exact ⟨n₁, ⟨e, he, hpush⟩, es, hes, hfold⟩

/-! ## Trees in the innermost scope -/

/-- The tree with statements in the innermost scope. -/
def attachAll (n : Nesting) (ss : List Statement) : Nesting :=
  match n.scopes with
  | [] => { n with statements := ss.reverse ++ n.statements }
  | top :: rest =>
    { n with scopes := { top with children := ss.reverse ++ top.children } :: rest }

/-- The lines of blocks with that of an entry, if it opens a block. -/
def note (lines : Dict Nat) : Entry → Dict Nat
  | .item ⟨.block name, line, _⟩ => lines.insert name line
  | _ => lines

/-- **The tree grown**: with whole trees in the innermost scope, the bodies of their blocks in the
table, and the lines of the blocks of their entries noted. -/
def grow (n : Nesting) (es : List Entry) (ss : List Statement) : Nesting :=
  { n.attachAll (Statement.hollowAll ss) with
    blocks := storeAll n.blocks (Statement.bodiesAll ss)
    blockLines := es.foldl note n.blockLines }

theorem attach_eq_attachAll (n : Nesting) (s : Statement) : n.attach s = n.attachAll [s] := by
  obtain ⟨statements, scopes, blocks, blockLines⟩ := n
  cases scopes <;> rfl

@[simp] theorem grow_nil (n : Nesting) : n.grow [] [] = n := by
  obtain ⟨statements, scopes, blocks, blockLines⟩ := n
  cases scopes <;> simp [grow, attachAll]

/-- Growing twice is growing once. -/
theorem grow_grow (n : Nesting) (es es' : List Entry) (ss ss' : List Statement) :
    (n.grow es ss).grow es' ss' = n.grow (es ++ es') (ss ++ ss') := by
  obtain ⟨statements, scopes, blocks, blockLines⟩ := n
  cases scopes <;> simp [grow, attachAll]

/-- The loops around the innermost scope are not changed by growing. -/
@[simp] theorem inLoop_scopes_grow (n : Nesting) (es : List Entry) (ss : List Statement) :
    inLoop (n.grow es ss).scopes = inLoop n.scopes := by
  obtain ⟨statements, scopes, blocks, blockLines⟩ := n
  cases scopes <;> rfl

theorem note_of_block?_eq_none {e : Entry} (h : e.block? = none) (lines : Dict Nat) :
    note lines e = lines := by
  cases e with
  | text text => rfl
  | item item =>
    obtain ⟨kind, line, span⟩ := item
    cases kind with
    | block name => exact absurd h (Option.some_ne_none name)
    | _ => rfl

/-- An entry that opens no block may be left out where the tree has grown. -/
theorem grow_append_of_block?_eq_none {e : Entry} (h : e.block? = none) (n : Nesting)
    (es : List Entry) (ss : List Statement) : n.grow (es ++ [e]) ss = n.grow es ss := by
  rw [grow, grow, List.foldl_append, List.foldl_cons, List.foldl_nil, note_of_block?_eq_none h]

theorem grow_cons_of_block?_eq_none {e : Entry} (h : e.block? = none) (n : Nesting)
    (es : List Entry) (ss : List Statement) : n.grow (e :: es) ss = n.grow es ss := by
  rw [grow, grow, List.foldl_cons, note_of_block?_eq_none h]

/-! ## One statement -/

theorem attach_ofText (n : Nesting) (text : List Char) :
    n.attach (.ofText text) = n.grow [.text text] [.ofText text] := by
  obtain ⟨statements, scopes, blocks, blockLines⟩ := n
  rw [attach_eq_attachAll]
  cases scopes <;> simp [grow, attachAll, note]

theorem attach_toStatement {item : Item} (h : ∀ name, item.kind ≠ .block name) (n : Nesting) :
    n.attach (item.toStatement []) = n.grow [.item item] [item.toStatement []] := by
  obtain ⟨statements, scopes, blocks, blockLines⟩ := n
  rw [attach_eq_attachAll, grow_cons_of_block?_eq_none (Entry.block?_item_of_ne h)]
  cases scopes <;>
    simp [grow, attachAll, Statement.hollow_toStatement_of_ne h,
      Statement.bodies_toStatement_of_ne h]

/-! ## One scope -/

/-- The innermost scope of a tree that has grown in a scope just opened. -/
theorem scopes_grow_openScope (n : Nesting) (item : Item) (chain : Chain) (es : List Entry)
    (ss : List Statement) :
    ((n.openScope item chain).grow es ss).scopes =
      ⟨item, chain, (Statement.hollowAll ss).reverse⟩ :: n.scopes := by
  simp [grow, attachAll, openScope]

theorem close_of_ne {s : OpenScope} (h : ∀ name, s.item.kind ≠ .block name) (n : Nesting) :
    n.close s = n.attach (s.item.toStatement s.children.reverse) := by
  rw [close]
  split
  · rename_i name hname
    exact absurd hname (h name)
  · rfl

/-- **A scope opened, grown and closed is one tree more.** -/
theorem close_grow_openScope {item : Item} (h : ∀ name, item.kind ≠ .block name) (n : Nesting)
    (chain : Chain) (es : List Entry) (ss : List Statement) :
    ({ (n.openScope item chain).grow es ss with scopes := n.scopes } : Nesting).close
        ⟨item, chain, (Statement.hollowAll ss).reverse⟩ =
      n.grow (.item item :: es) [item.toStatement ss] := by
  obtain ⟨statements, scopes, blocks, blockLines⟩ := n
  rw [close_of_ne h, attach_eq_attachAll, grow_cons_of_block?_eq_none (Entry.block?_item_of_ne h)]
  cases scopes <;>
    simp [grow, attachAll, openScope, Statement.hollow_toStatement_of_ne h,
      Statement.bodies_toStatement_of_ne h]

/-- The tree in which a block has been opened: the line of its entry is noted. -/
def openBlock (n : Nesting) (item : Item) : Nesting :=
  { n with blockLines := note n.blockLines (.item item) }.openScope item .block

theorem scopes_grow_openBlock (n : Nesting) (item : Item) (es : List Entry)
    (ss : List Statement) :
    ((n.openBlock item).grow es ss).scopes =
      ⟨item, .block, (Statement.hollowAll ss).reverse⟩ :: n.scopes :=
  scopes_grow_openScope _ item .block es ss

/-- **A block opened, grown and closed is one tree more**, and its body is in the table. -/
theorem close_grow_openBlock {item : Item} {name : String} (h : item.kind = .block name)
    (n : Nesting) (es : List Entry) (ss : List Statement) :
    ({ (n.openBlock item).grow es ss with scopes := n.scopes } : Nesting).close
        ⟨item, .block, (Statement.hollowAll ss).reverse⟩ =
      n.grow (.item item :: es) [item.toStatement ss] := by
  obtain ⟨statements, scopes, blocks, blockLines⟩ := n
  obtain ⟨kind, line, span⟩ := item
  obtain rfl : kind = .block name := h
  cases scopes <;>
    simp [close, attach, grow, attachAll, openBlock, openScope, OpenScope.toStatement,
      Item.toStatement, Statement.hollow, Statement.bodies]

end Nesting

end Inlay
