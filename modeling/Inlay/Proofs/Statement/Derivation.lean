import Inlay.Proofs.Statement.Clauses

/-!
# The grammar of nested statements

A template is a row of entries: plain text, and statements each of which is known already. Which
rows nest properly, and into which trees, is said here by a grammar:

    items  =  item*
    item   =  text  |  a statement without a body
           |  block NAME  items  end
           |  OPENING  items  (CLAUSE items)*  end

where the clauses behind an opening statement are a row that it admits (`Opening.Admits`). A
`break` or a `continue` stands only in the body of a loop, with no block between; a `nonlocal`
stands nowhere; and no two blocks of a template have one name.

In the trees of the grammar a block holds its body.

* `Entry`, `Segment.entry`: entries, and which one a segment is.
* `Derives`: the grammar, with the tree of each derivation; `WellNested`: the same for a whole
  template.
* `Derives.append`: items behind items are items.
* `Derives.entriesAll`: a tree holds every entry but the `end`s, once and in their order.
-/

namespace Inlay

/-! ## Entries -/

/-- A part of a template once it is known which statement it is. -/
inductive Entry where
  | text (text : List Char)
  | item (item : Item)

namespace Entry

/-- The name of the block that an entry opens. -/
def block? : Entry → Option String
  | .item ⟨.block name, _, _⟩ => some name
  | _ => none

/-- Is the entry an `end`? -/
def isEnding : Entry → Bool
  | .item ⟨.ending, _, _⟩ => true
  | _ => false

theorem block?_item {item : Item} {name : String} (h : item.kind = .block name) :
    (Entry.item item).block? = some name := by
  obtain ⟨kind, line, span⟩ := item
  obtain rfl : kind = .block name := h
  rfl

theorem block?_item_of_ne {item : Item} (h : ∀ name, item.kind ≠ .block name) :
    (Entry.item item).block? = none := by
  obtain ⟨kind, line, span⟩ := item
  cases kind with
  | block name => exact absurd rfl (h name)
  | _ => rfl

theorem isEnding_item_of_ne {item : Item} (h : item.kind ≠ .ending) :
    (Entry.item item).isEnding = false := by
  obtain ⟨kind, line, span⟩ := item
  cases kind with
  | ending => exact absurd rfl h
  | _ => rfl

end Entry

/-- The entry that a segment is, if its statement can be told. -/
def Segment.entry (config : Config) (file : String) : Segment → Except Error Entry
  | .plain text => .ok (.text text)
  | .statement text line span => do
    let kind ← Nesting.classify config ⟨file, line, span⟩ text
    return .item ⟨kind, line, span⟩

/-- The tree of a statement with what is nested in it. -/
def Item.toStatement (item : Item) (children : List Statement) : Statement :=
  .mk item.kind (some item.line) item.span children

/-! ## The grammar -/

/-- May a statement stand without a body, inside of a loop or outside of all? -/
def StatementKind.MayStand (inLoop : Bool) : StatementKind → Prop
  | .block _ | .opening _ | .clause _ | .ending => False
  | .inline .breakLoop | .inline .continueLoop => inLoop = true
  | .inline (.declareNonlocal _) => False
  | _ => True

/-- Is the body of an opening statement the body of a loop? -/
def Opening.isLoop : Opening → Bool
  | .whileTest _ | .forEach .. => true
  | _ => false

/-- What a row of entries is read as: items, or clauses with their bodies. -/
inductive Stretch where
  | items
  | clauses (cs : List Clause)

/-- **The grammar**, with the trees of its derivations. The first argument says whether the row
stands in the body of a loop with no block between. -/
inductive Derives : Bool → Stretch → List Entry → List Statement → Prop where
  | nil {inLoop : Bool} : Derives inLoop .items [] []
  | text {inLoop : Bool} {es : List Entry} {ss : List Statement} (text : List Char)
      (rest : Derives inLoop .items es ss) :
      Derives inLoop .items (.text text :: es) (.ofText text :: ss)
  | simple {inLoop : Bool} {es : List Entry} {ss : List Statement} {item : Item}
      (stands : item.kind.MayStand inLoop) (rest : Derives inLoop .items es ss) :
      Derives inLoop .items (.item item :: es) (item.toStatement [] :: ss)
  | block {inLoop : Bool} {body es : List Entry} {inner ss : List Statement} {item ending : Item}
      {name : String} (opens : item.kind = .block name) (ends : ending.kind = .ending)
      (nested : Derives false .items body inner) (rest : Derives inLoop .items es ss) :
      Derives inLoop .items (.item item :: (body ++ .item ending :: es))
        (item.toStatement inner :: ss)
  | scope {inLoop : Bool} {body parts es : List Entry} {inner pieces ss : List Statement}
      {item ending : Item} {o : Opening} {cs : List Clause} (opens : item.kind = .opening o)
      (admits : o.Admits cs) (ends : ending.kind = .ending)
      (nested : Derives (o.isLoop || inLoop) .items body inner)
      (clauses : Derives inLoop (.clauses cs) parts pieces)
      (rest : Derives inLoop .items es ss) :
      Derives inLoop .items (.item item :: (body ++ (parts ++ .item ending :: es)))
        (item.toStatement inner :: (pieces ++ ss))
  | noClause {inLoop : Bool} : Derives inLoop (.clauses []) [] []
  | clause {inLoop : Bool} {body es : List Entry} {inner ss : List Statement} {item : Item}
      {c : Clause} {cs : List Clause} (opens : item.kind = .clause c)
      (nested : Derives inLoop .items body inner) (rest : Derives inLoop (.clauses cs) es ss) :
      Derives inLoop (.clauses (c :: cs)) (.item item :: (body ++ es))
        (item.toStatement inner :: ss)

/-- The names of the blocks that the entries open. -/
def blockNames (es : List Entry) : List String :=
  es.filterMap Entry.block?

/-- **The grammar of whole templates.** -/
structure WellNested (es : List Entry) (trees : List Statement) : Prop where
  derives : Derives false .items es trees
  distinct : (blockNames es).Nodup

@[simp] theorem blockNames_nil : blockNames [] = [] := rfl

@[simp] theorem blockNames_append (es es' : List Entry) :
    blockNames (es ++ es') = blockNames es ++ blockNames es' :=
  List.filterMap_append

@[simp] theorem blockNames_text (text : List Char) (es : List Entry) :
    blockNames (.text text :: es) = blockNames es := rfl

theorem blockNames_item {item : Item} (h : ∀ name, item.kind ≠ .block name) (es : List Entry) :
    blockNames (.item item :: es) = blockNames es :=
  List.filterMap_cons_none (Entry.block?_item_of_ne h)

theorem blockNames_block {item : Item} {name : String} (h : item.kind = .block name)
    (es : List Entry) : blockNames (.item item :: es) = name :: blockNames es :=
  List.filterMap_cons_some (Entry.block?_item h)

namespace Item

variable {item : Item}

theorem ne_block_of_opening {o : Opening} (h : item.kind = .opening o) (name : String) :
    item.kind ≠ .block name := by
  rw [h]
  exact StatementKind.noConfusion

theorem ne_block_of_clause {c : Clause} (h : item.kind = .clause c) (name : String) :
    item.kind ≠ .block name := by
  rw [h]
  exact StatementKind.noConfusion

theorem ne_block_of_ending (h : item.kind = .ending) (name : String) :
    item.kind ≠ .block name := by
  rw [h]
  exact StatementKind.noConfusion

end Item

theorem StatementKind.MayStand.ne_block {inLoop : Bool} {kind : StatementKind}
    (h : kind.MayStand inLoop) (name : String) : kind ≠ .block name := by
  rintro rfl
  exact h

theorem StatementKind.MayStand.ne_ending {inLoop : Bool} {kind : StatementKind}
    (h : kind.MayStand inLoop) : kind ≠ .ending := by
  rintro rfl
  exact h

/-! ## Joining rows of items -/

/-- Items behind items are items. -/
theorem Derives.append {inLoop : Bool} {es es' : List Entry} {ss ss' : List Statement}
    (h : Derives inLoop .items es ss) (h' : Derives inLoop .items es' ss') :
    Derives inLoop .items (es ++ es') (ss ++ ss') := by
  generalize hstretch : Stretch.items = stretch at h
  induction h with
  | nil => exact h'
  | text text _ ih => exact .text text (ih h' hstretch)
  | simple stands _ ih => exact .simple stands (ih h' hstretch)
  | block opens ends nested _ _ ih =>
    have := Derives.block opens ends nested (ih h' hstretch)
    simpa only [List.cons_append, List.append_assoc] using this
  | scope opens admits ends nested clauses _ _ _ ih =>
    have := Derives.scope opens admits ends nested clauses (ih h' hstretch)
    simpa only [List.cons_append, List.append_assoc] using this
  | noClause => exact Stretch.noConfusion hstretch
  | clause => exact Stretch.noConfusion hstretch

/-! ## What a tree holds -/

/-- The entry that a statement is without what is nested in it. -/
def Statement.entry : Statement → Entry
  | .mk (.plain text) none _ _ => .text text.toList
  | .mk kind line span _ => .item ⟨kind, line.getD 0, span⟩

mutual

/-- The entries of a tree, each one in front of those nested in it. -/
def Statement.entries : Statement → List Entry
  | .mk kind line span children => (Statement.mk kind line span []).entry :: entriesAll children

/-- The entries of trees, one tree after the other. -/
def Statement.entriesAll : List Statement → List Entry
  | [] => []
  | s :: rest => s.entries ++ entriesAll rest

end

namespace Statement

@[simp] theorem entriesAll_nil : entriesAll [] = [] := by
  rw [entriesAll]

@[simp] theorem entriesAll_cons (s : Statement) (rest : List Statement) :
    entriesAll (s :: rest) = s.entries ++ entriesAll rest := by
  rw [entriesAll]

@[simp] theorem entriesAll_append (ss ss' : List Statement) :
    entriesAll (ss ++ ss') = entriesAll ss ++ entriesAll ss' := by
  induction ss with
  | nil => rfl
  | cons s ss ih => rw [List.cons_append, entriesAll_cons, entriesAll_cons, ih, List.append_assoc]

@[simp] theorem entries_ofText (text : List Char) : (ofText text).entries = [.text text] := by
  rw [ofText, entries, entriesAll_nil, entry, String.toList_ofList]

@[simp] theorem entries_toStatement (item : Item) (children : List Statement) :
    (item.toStatement children).entries = .item item :: entriesAll children := by
  obtain ⟨kind, line, span⟩ := item
  rw [Item.toStatement, entries]
  cases kind <;> rfl

end Statement

/-- **A tree holds what was written**: every entry but the `end`s, once and in their order. -/
theorem Derives.entriesAll {inLoop : Bool} {stretch : Stretch} {es : List Entry}
    {ss : List Statement} (h : Derives inLoop stretch es ss) :
    Statement.entriesAll ss = es.filter fun e => !e.isEnding := by
  have keep : ∀ {item : Item} {es : List Entry}, item.kind ≠ .ending →
      (Entry.item item :: es).filter (fun e => !e.isEnding) =
        .item item :: es.filter fun e => !e.isEnding := fun h =>
    List.filter_cons_of_pos (by rw [Entry.isEnding_item_of_ne h]; rfl)
  have drop : ∀ {item : Item} {es : List Entry}, item.kind = .ending →
      (Entry.item item :: es).filter (fun e => !e.isEnding) =
        es.filter fun e => !e.isEnding := by
    rintro ⟨kind, line, span⟩ es rfl
    rfl
  induction h with
  | nil => rfl
  | text text _ ih =>
    rw [Statement.entriesAll_cons, Statement.entries_ofText, ih]
    rfl
  | simple stands _ ih =>
    rw [Statement.entriesAll_cons, Statement.entries_toStatement, ih, keep stands.ne_ending]
    rfl
  | block opens ends _ _ ihBody ih =>
    rw [Statement.entriesAll_cons, Statement.entries_toStatement, ihBody, ih,
      keep (by rw [opens]; exact StatementKind.noConfusion), List.filter_append, drop ends]
    rfl
  | scope opens _ ends _ _ _ ihBody ihClauses ih =>
    rw [Statement.entriesAll_cons, Statement.entries_toStatement, Statement.entriesAll_append,
      ihBody, ihClauses, ih, keep (by rw [opens]; exact StatementKind.noConfusion),
      List.filter_append, List.filter_append, drop ends]
    rfl
  | noClause => rfl
  | clause opens _ _ ihBody ih =>
    rw [Statement.entriesAll_cons, Statement.entries_toStatement, ihBody, ih,
      keep (by rw [opens]; exact StatementKind.noConfusion), List.filter_append]
    rfl

end Inlay
