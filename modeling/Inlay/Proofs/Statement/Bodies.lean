import Inlay.Proofs.Statement.Derivation

/-!
# Blocks and their bodies

In the trees of the grammar a block holds its body. In a `Document` the bodies of blocks are in a
table, and where a block is defined a block statement without children is left. The two forms hold
the same.

* `Document.ofTrees`: takes the bodies out of trees, the innermost ones first.
* `Document.restore`: puts the bodies of a document back.
* `Document.restore_ofTrees`: if no two blocks have one name, a tree taken apart and put together
  again is what it was.

A body may hold further blocks, so putting bodies back goes on inside of what was put back. The
number of blocks bounds how deep this goes, since a block never stands in its own body.
-/

namespace Inlay

/-- The table with the bodies of blocks in it, the later ones in the place of earlier ones. -/
def storeAll (blocks : Dict BlockBody) (bodies : List BlockBody) : Dict BlockBody :=
  bodies.foldl (fun d b => d.insert b.name b) blocks

@[simp] theorem storeAll_nil (blocks : Dict BlockBody) : storeAll blocks [] = blocks := rfl

@[simp] theorem storeAll_cons (blocks : Dict BlockBody) (b : BlockBody) (bodies : List BlockBody) :
    storeAll blocks (b :: bodies) = storeAll (blocks.insert b.name b) bodies := rfl

@[simp] theorem storeAll_append (blocks : Dict BlockBody) (bodies bodies' : List BlockBody) :
    storeAll blocks (bodies ++ bodies') = storeAll (storeAll blocks bodies) bodies' :=
  List.foldl_append

theorem get?_storeAll_of_notMem {name : String} {bodies : List BlockBody}
    (h : name ∉ bodies.map BlockBody.name) (blocks : Dict BlockBody) :
    (storeAll blocks bodies).get? name = blocks.get? name := by
  induction bodies generalizing blocks with
  | nil => rfl
  | cons b bodies ih =>
    rw [List.map_cons, List.mem_cons, not_or] at h
    rw [storeAll_cons, ih h.2, Dict.get?_insert_of_ne h.1]

theorem get?_storeAll_of_mem {bodies : List BlockBody} (h : (bodies.map BlockBody.name).Nodup)
    {b : BlockBody} (hb : b ∈ bodies) (blocks : Dict BlockBody) :
    (storeAll blocks bodies).get? b.name = some b := by
  induction bodies generalizing blocks with
  | nil => exact absurd hb List.not_mem_nil
  | cons b' bodies ih =>
    rw [List.map_cons, List.nodup_cons] at h
    rw [storeAll_cons]
    rcases List.mem_cons.mp hb with rfl | hb
    · rw [get?_storeAll_of_notMem h.1, Dict.get?_insert_self]
    · exact ih h.2 hb _

theorem length_storeAll {bodies : List BlockBody} (h : (bodies.map BlockBody.name).Nodup)
    {blocks : Dict BlockBody} (hnew : ∀ b ∈ bodies, blocks.get? b.name = none) :
    (storeAll blocks bodies).length = blocks.length + bodies.length := by
  induction bodies generalizing blocks with
  | nil => rfl
  | cons b bodies ih =>
    rw [List.map_cons, List.nodup_cons] at h
    have hb : blocks.get? b.name = none := hnew b (List.mem_cons_self ..)
    have hrest : ∀ b' ∈ bodies, (blocks.insert b.name b).get? b'.name = none := by
      intro b' hb'
      have hne : b'.name ≠ b.name := fun he => h.1 (he ▸ List.mem_map_of_mem hb')
      rw [Dict.get?_insert_of_ne hne, hnew b' (List.mem_cons_of_mem _ hb')]
    rw [storeAll_cons, ih h.2 hrest, Dict.length_insert_of_get?_eq_none _ hb, List.length_cons]
    omega

/-! ## Taking bodies out -/

mutual

/-- A tree in which no block holds its body. -/
def Statement.hollow : Statement → Statement
  | .mk (.block name) line span _ => .mk (.block name) line span []
  | .mk kind line span children => .mk kind line span (hollowAll children)

/-- Trees in which no block holds its body. -/
def Statement.hollowAll : List Statement → List Statement
  | [] => []
  | s :: rest => s.hollow :: hollowAll rest

end

mutual

/-- The bodies of the blocks in a tree, without those of the blocks in them; a block stands behind
the blocks in its body. -/
def Statement.bodies : Statement → List BlockBody
  | .mk (.block name) line _ children =>
    bodiesAll children ++ [⟨name, line.getD 0, hollowAll children⟩]
  | .mk _ _ _ children => bodiesAll children

/-- The bodies of the blocks in trees. -/
def Statement.bodiesAll : List Statement → List BlockBody
  | [] => []
  | s :: rest => s.bodies ++ bodiesAll rest

end

/-- The document of trees in which blocks hold their bodies. -/
def Document.ofTrees (trees : List Statement) : Document :=
  ⟨Statement.hollowAll trees, storeAll [] (Statement.bodiesAll trees)⟩

namespace Statement

@[simp] theorem hollowAll_nil : hollowAll [] = [] := by
  rw [hollowAll]

@[simp] theorem hollowAll_cons (s : Statement) (rest : List Statement) :
    hollowAll (s :: rest) = s.hollow :: hollowAll rest := by
  rw [hollowAll]

@[simp] theorem hollowAll_append (ss ss' : List Statement) :
    hollowAll (ss ++ ss') = hollowAll ss ++ hollowAll ss' := by
  induction ss with
  | nil => rfl
  | cons s ss ih => rw [List.cons_append, hollowAll_cons, hollowAll_cons, ih, List.cons_append]

@[simp] theorem bodiesAll_nil : bodiesAll [] = [] := by
  rw [bodiesAll]

@[simp] theorem bodiesAll_cons (s : Statement) (rest : List Statement) :
    bodiesAll (s :: rest) = s.bodies ++ bodiesAll rest := by
  rw [bodiesAll]

@[simp] theorem bodiesAll_append (ss ss' : List Statement) :
    bodiesAll (ss ++ ss') = bodiesAll ss ++ bodiesAll ss' := by
  induction ss with
  | nil => rfl
  | cons s ss ih => rw [List.cons_append, bodiesAll_cons, bodiesAll_cons, ih, List.append_assoc]

theorem hollow_of_ne {kind : StatementKind} (h : ∀ name, kind ≠ .block name) (line : Option Nat)
    (span : Span) (children : List Statement) :
    (mk kind line span children).hollow = mk kind line span (hollowAll children) := by
  rw [hollow]
  exact h

theorem bodies_of_ne {kind : StatementKind} (h : ∀ name, kind ≠ .block name) (line : Option Nat)
    (span : Span) (children : List Statement) :
    (mk kind line span children).bodies = bodiesAll children := by
  rw [bodies]
  exact h

theorem hollow_toStatement_of_ne {item : Item} (h : ∀ name, item.kind ≠ .block name)
    (children : List Statement) :
    (item.toStatement children).hollow = item.toStatement (hollowAll children) :=
  hollow_of_ne h _ _ _

theorem bodies_toStatement_of_ne {item : Item} (h : ∀ name, item.kind ≠ .block name)
    (children : List Statement) : (item.toStatement children).bodies = bodiesAll children :=
  bodies_of_ne h _ _ _

theorem hollow_toStatement_block {item : Item} {name : String} (h : item.kind = .block name)
    (children : List Statement) : (item.toStatement children).hollow = item.toStatement [] := by
  obtain ⟨kind, line, span⟩ := item
  obtain rfl : kind = .block name := h
  rw [Item.toStatement, hollow]
  rfl

theorem bodies_toStatement_block {item : Item} {name : String} (h : item.kind = .block name)
    (children : List Statement) :
    (item.toStatement children).bodies =
      bodiesAll children ++ [⟨name, item.line, hollowAll children⟩] := by
  obtain ⟨kind, line, span⟩ := item
  obtain rfl : kind = .block name := h
  rw [Item.toStatement, bodies]
  rfl

@[simp] theorem hollow_ofText (text : List Char) : (ofText text).hollow = ofText text := by
  rw [ofText, hollow_of_ne (fun _ => StatementKind.noConfusion), hollowAll_nil]

@[simp] theorem bodies_ofText (text : List Char) : (ofText text).bodies = [] := by
  rw [ofText, bodies_of_ne (fun _ => StatementKind.noConfusion), bodiesAll_nil]

end Statement

/-- The blocks of a tree are those that its entries open. -/
theorem Derives.map_name_bodiesAll {inLoop : Bool} {stretch : Stretch} {es : List Entry}
    {ss : List Statement} (h : Derives inLoop stretch es ss) :
    ((Statement.bodiesAll ss).map BlockBody.name).Perm (blockNames es) := by
  induction h with
  | nil => exact .refl _
  | text text _ ih =>
    rw [Statement.bodiesAll_cons, Statement.bodies_ofText, blockNames_text]
    exact ih
  | simple stands _ ih =>
    rw [Statement.bodiesAll_cons, Statement.bodies_toStatement_of_ne stands.ne_block,
      blockNames_item stands.ne_block]
    exact ih
  | block opens ends _ _ ihBody ih =>
    rw [Statement.bodiesAll_cons, Statement.bodies_toStatement_block opens,
      blockNames_block opens, blockNames_append, blockNames_item (Item.ne_block_of_ending ends),
      List.map_append, List.map_append, List.append_assoc]
    exact List.perm_middle.trans ((ihBody.append ih).cons _)
  | scope opens _ ends _ _ _ ihBody ihClauses ih =>
    rw [Statement.bodiesAll_cons,
      Statement.bodies_toStatement_of_ne (Item.ne_block_of_opening opens),
      Statement.bodiesAll_append, blockNames_item (Item.ne_block_of_opening opens),
      blockNames_append, blockNames_append, blockNames_item (Item.ne_block_of_ending ends),
      List.map_append, List.map_append]
    exact ihBody.append (ihClauses.append ih)
  | noClause => exact .refl _
  | clause opens _ _ ihBody ih =>
    rw [Statement.bodiesAll_cons, Statement.bodies_toStatement_of_ne (Item.ne_block_of_clause opens),
      blockNames_item (Item.ne_block_of_clause opens), blockNames_append, List.map_append]
    exact ihBody.append ih

/-! ## Putting bodies back -/

mutual

/-- A tree in which each block holds the body that belongs to its name. -/
def Statement.putBack (body : String → List Statement) : Statement → Statement
  | .mk (.block name) line span _ => .mk (.block name) line span (body name)
  | .mk kind line span children => .mk kind line span (putBackAll body children)

/-- Trees in which each block holds the body that belongs to its name. -/
def Statement.putBackAll (body : String → List Statement) : List Statement → List Statement
  | [] => []
  | s :: rest => s.putBack body :: putBackAll body rest

end

namespace Document

/-- The body of a block as the table has it. -/
def ownBody (d : Document) (name : String) : List Statement :=
  (d.blocks.get? name).elim [] BlockBody.body

/-- The body of a block with the bodies of the blocks in it put back, up to some depth. -/
def bodyWithin (d : Document) : Nat → String → List Statement
  | 0, _ => []
  | depth + 1, name => Statement.putBackAll (d.bodyWithin depth) (d.ownBody name)

/-- The trees of a document with the bodies of all blocks put back. -/
def restore (d : Document) : List Statement :=
  Statement.putBackAll (d.bodyWithin d.blocks.length) d.statements

end Document

namespace Statement

@[simp] theorem putBackAll_nil (body : String → List Statement) : putBackAll body [] = [] := by
  rw [putBackAll]

@[simp] theorem putBackAll_cons (body : String → List Statement) (s : Statement)
    (rest : List Statement) :
    putBackAll body (s :: rest) = s.putBack body :: putBackAll body rest := by
  rw [putBackAll]

theorem putBack_of_ne {kind : StatementKind} (h : ∀ name, kind ≠ .block name)
    (body : String → List Statement) (line : Option Nat) (span : Span)
    (children : List Statement) :
    (mk kind line span children).putBack body = mk kind line span (putBackAll body children) := by
  rw [putBack]
  exact h

end Statement

mutual

/-- A hollow tree is filled again from a document that has its bodies, if the depth is no less than
the number of its blocks. -/
theorem Statement.putBack_hollow {d : Document} : ∀ {depth : Nat} (s : Statement),
    (∀ b ∈ s.bodies, d.blocks.get? b.name = some b) → s.bodies.length ≤ depth →
      s.hollow.putBack (d.bodyWithin depth) = s
  | depth, .mk kind line span children => fun hbodies hdepth => by
    by_cases hkind : ∃ name, kind = .block name
    · obtain ⟨name, rfl⟩ := hkind
      rw [Statement.bodies] at hbodies hdepth
      rw [List.length_append, List.length_singleton] at hdepth
      obtain ⟨depth, rfl⟩ : ∃ k, depth = k + 1 := ⟨depth - 1, by omega⟩
      have hown : d.ownBody name = Statement.hollowAll children := by
        have hmem := hbodies ⟨name, line.getD 0, Statement.hollowAll children⟩
          (List.mem_append_right _ (List.mem_singleton_self _))
        rw [Document.ownBody, hmem]
        rfl
      have hchildren :
          Statement.putBackAll (d.bodyWithin depth) (Statement.hollowAll children) = children :=
        Statement.putBackAll_hollowAll children
          (fun b hb => hbodies b (List.mem_append_left _ hb)) (by omega)
      rw [Statement.hollow, Statement.putBack, Document.bodyWithin, hown, hchildren]
    · have hne : ∀ name, kind ≠ .block name := fun name h => hkind ⟨name, h⟩
      rw [Statement.bodies_of_ne hne] at hbodies hdepth
      rw [Statement.hollow_of_ne hne, Statement.putBack_of_ne hne,
        Statement.putBackAll_hollowAll children hbodies hdepth]

theorem Statement.putBackAll_hollowAll {d : Document} : ∀ {depth : Nat} (ss : List Statement),
    (∀ b ∈ Statement.bodiesAll ss, d.blocks.get? b.name = some b) →
      (Statement.bodiesAll ss).length ≤ depth →
        Statement.putBackAll (d.bodyWithin depth) (Statement.hollowAll ss) = ss
  | _, [] => fun _ _ => by rw [Statement.hollowAll_nil, Statement.putBackAll_nil]
  | _, s :: rest => fun hbodies hdepth => by
    rw [Statement.bodiesAll_cons] at hbodies hdepth
    rw [List.length_append] at hdepth
    rw [Statement.hollowAll_cons, Statement.putBackAll_cons,
      Statement.putBack_hollow s (fun b hb => hbodies b (List.mem_append_left _ hb)) (by omega),
      Statement.putBackAll_hollowAll rest (fun b hb => hbodies b (List.mem_append_right _ hb))
        (by omega)]

end

/-- **A tree taken apart and put together again is what it was**, if no two of its blocks have one
name. -/
theorem Document.restore_ofTrees {trees : List Statement}
    (h : ((Statement.bodiesAll trees).map BlockBody.name).Nodup) :
    (Document.ofTrees trees).restore = trees := by
  have hlength : (Document.ofTrees trees).blocks.length = (Statement.bodiesAll trees).length := by
    rw [Document.ofTrees, length_storeAll h (fun _ _ => rfl), List.length_nil, Nat.zero_add]
  rw [Document.restore, hlength]
  exact Statement.putBackAll_hollowAll trees (fun b hb => get?_storeAll_of_mem h hb [])
    (Nat.le_refl _)

/-- The trees of a well nested template are those of its document, put together again. -/
theorem WellNested.restore_ofTrees {es : List Entry} {trees : List Statement}
    (h : WellNested es trees) : (Document.ofTrees trees).restore = trees :=
  Document.restore_ofTrees (h.derives.map_name_bodiesAll.nodup_iff.mpr h.distinct)

end Inlay
