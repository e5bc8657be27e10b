import Inlay.Proofs.Statement.Growth

/-!
# Nesting accepts the grammar

The open scopes of a nesting are a derivation of the grammar cut short. What has been read so far is
whole trees in the outermost scope, and then, from the outside to the inside, one open block or one
open part of a statement at a time: the parts of the statement that are closed already stand as
whole trees in the scope around it, and whole trees stand in the open part. `Nesting.Stands` says
this, `Nesting.Stands.push` keeps it entry by entry, and when nothing is open any more it is a
derivation. Conversely the entries of a derivation are pushed one after the other without an error.

* `Nesting.Pushes`, `Nesting.push_eq_ok_iff`: all that pushing a statement can do.
* `Nesting.Unfinished`: a statement of which some parts are closed and one is open.
* `Nesting.Stands`, `Nesting.Stands.foldlM`: the invariant, for one entry and for many.
* `Nesting.Grows`, `Derives.grows`: derived entries are pushed without an error.
* `Document.eq_ok_iff_wellNested_restore`: the nesting accepts exactly what the grammar derives, and
  its document, put together again, is the tree of the derivation.
* `Document.parse_elsewhere`: the path of a template only labels its errors.
-/

namespace Inlay

namespace Nesting

/-! ## What pushing a statement can do -/

/-- The ways in which a statement is pushed without an error. -/
inductive Pushes (n : Nesting) (item : Item) : Nesting → Prop where
  | simple (stands : item.kind.MayStand (inLoop n.scopes)) :
      Pushes n item (n.attach (item.toStatement []))
  | opening {o : Opening} (opens : item.kind = .opening o) :
      Pushes n item (n.openScope item o.chain)
  | block {name : String} (opens : item.kind = .block name)
      (new : n.blockLines.get? name = none) : Pushes n item (n.openBlock item)
  | clause {c : Clause} {top : OpenScope} {rest : List OpenScope} {next : Chain}
      (opens : item.kind = .clause c) (scopes : n.scopes = top :: rest)
      (follows : Chain.next? c top.chain = some next) :
      Pushes n item ((({ n with scopes := rest } : Nesting).close top).openScope item next)
  | ending {top : OpenScope} {rest : List OpenScope} (ends : item.kind = .ending)
      (scopes : n.scopes = top :: rest) (whole : top.chain ≠ .tryStart) :
      Pushes n item (({ n with scopes := rest } : Nesting).close top)

/-- A statement without a body is refused exactly where it may not stand. -/
theorem checkInline_eq_ok_iff {n : Nesting} {kind : StatementKind}
    (hblock : ∀ name, kind ≠ .block name) (hopening : ∀ o, kind ≠ .opening o)
    (hclause : ∀ c, kind ≠ .clause c) (hending : kind ≠ .ending) :
    n.checkInline kind = .ok () ↔ kind.MayStand (inLoop n.scopes) := by
  cases kind with
  | block name => exact absurd rfl (hblock name)
  | opening o => exact absurd rfl (hopening o)
  | clause c => exact absurd rfl (hclause c)
  | ending => exact absurd rfl hending
  | inline i =>
    cases i <;> simp [checkInline, StatementKind.MayStand]
  | _ => simp [checkInline, StatementKind.MayStand]

theorem pushClause_eq_ok_iff {file : String} {n n' : Nesting} {item : Item} {c : Clause}
    (h : item.kind = .clause c) : n.pushClause file item c = .ok n' ↔ Pushes n item n' := by
  rw [pushClause]
  constructor
  · intro hpush
    split at hpush
    · exact absurd hpush (by simp)
    · rename_i top rest hscopes
      split at hpush
      · rename_i next hnext
        obtain rfl := Except.ok.inj hpush
        exact .clause h hscopes hnext
      · exact absurd hpush (by simp)
  · intro hpush
    cases hpush with
    | simple stands => exact absurd stands (by rw [h]; exact id)
    | opening opens => exact StatementKind.noConfusion (h.symm.trans opens)
    | block opens => exact StatementKind.noConfusion (h.symm.trans opens)
    | clause opens scopes follows =>
      obtain rfl := StatementKind.clause.inj (h.symm.trans opens)
      rw [scopes]
      simp only [follows]
    | ending ends => exact StatementKind.noConfusion (h.symm.trans ends)

theorem pushEnding_eq_ok_iff {file : String} {n n' : Nesting} {item : Item}
    (h : item.kind = .ending) : n.pushEnding file item = .ok n' ↔ Pushes n item n' := by
  rw [pushEnding]
  constructor
  · intro hpush
    split at hpush
    · exact absurd hpush (by simp)
    · rename_i top rest hscopes
      split at hpush
      · exact absurd hpush (by simp)
      · rename_i hwhole
        obtain rfl := Except.ok.inj hpush
        exact .ending h hscopes hwhole
  · intro hpush
    cases hpush with
    | simple stands => exact absurd stands (by rw [h]; exact id)
    | opening opens => exact StatementKind.noConfusion (h.symm.trans opens)
    | block opens => exact StatementKind.noConfusion (h.symm.trans opens)
    | clause opens => exact StatementKind.noConfusion (h.symm.trans opens)
    | ending _ scopes whole =>
      rw [scopes]
      exact if_neg whole

theorem pushBlock_eq_ok_iff {file : String} {n n' : Nesting} {item : Item} {name : String}
    (h : item.kind = .block name) : n.pushBlock file item name = .ok n' ↔ Pushes n item n' := by
  obtain ⟨kind, line, span⟩ := item
  obtain rfl : kind = .block name := h
  rw [pushBlock]
  constructor
  · intro hpush
    split at hpush
    · exact absurd hpush (by simp)
    · rename_i hnew
      obtain rfl := Except.ok.inj hpush
      exact .block rfl hnew
  · intro hpush
    cases hpush with
    | simple stands => exact absurd stands id
    | opening opens => exact StatementKind.noConfusion opens
    | block opens new =>
      obtain rfl := StatementKind.block.inj opens
      rw [new]
      rfl
    | clause opens => exact StatementKind.noConfusion opens
    | ending ends => exact StatementKind.noConfusion ends

/-- **All that pushing a statement can do.** -/
theorem push_eq_ok_iff {file : String} {n n' : Nesting} {item : Item} :
    n.push file item = .ok n' ↔ Pushes n item n' := by
  rw [push]
  split
  · rename_i c h
    exact pushClause_eq_ok_iff h
  · rename_i h
    exact pushEnding_eq_ok_iff h
  · rename_i name h
    exact pushBlock_eq_ok_iff h
  · rename_i o h
    constructor
    · intro hpush
      obtain rfl := Except.ok.inj hpush
      exact .opening h
    · intro hpush
      cases hpush with
      | simple stands => exact absurd stands (by rw [h]; exact id)
      | opening opens =>
        obtain rfl := StatementKind.opening.inj (h.symm.trans opens)
        rfl
      | block opens => exact StatementKind.noConfusion (h.symm.trans opens)
      | clause opens => exact StatementKind.noConfusion (h.symm.trans opens)
      | ending ends => exact StatementKind.noConfusion (h.symm.trans ends)
  · rename_i hclause hending hblock hopening
    have hcheck := checkInline_eq_ok_iff (n := n) hblock hopening hclause hending
    constructor
    · intro hpush
      split at hpush
      · rename_i hok
        obtain rfl := Except.ok.inj hpush
        exact .simple (hcheck.mp hok)
      · exact absurd hpush (by simp)
    · intro hpush
      cases hpush with
      | simple stands =>
        rw [hcheck.mpr stands]
        rfl
      | opening opens => exact absurd opens (hopening _)
      | block opens => exact absurd opens (hblock _)
      | clause opens => exact absurd opens (hclause _)
      | ending ends => exact absurd ends hending

/-! ## Loops around a part -/

/-- The body of an opening statement is in a loop if the statement is one or stands in one. -/
theorem inLoop_opening (o : Opening) (item : Item) (children : List Statement)
    (scopes : List OpenScope) :
    inLoop (⟨item, o.chain, children⟩ :: scopes) = (o.isLoop || inLoop scopes) := by
  cases o <;> rfl

/-- The part behind a clause is in a loop if the whole statement stands in one: the clause of a loop
is not in that loop. -/
theorem inLoop_clause {c : Clause} {chain next : Chain} (h : Chain.next? c chain = some next)
    (item : Item) (children : List Statement) (scopes : List OpenScope) :
    inLoop (⟨item, next, children⟩ :: scopes) = inLoop scopes := by
  cases c <;> cases chain <;> simp only [Chain.next?, reduceCtorEq, Option.some.injEq] at h <;>
    subst h <;> rfl

/-! ## Derivations cut short -/

/-- A statement of which some parts are closed, with their entries and trees, and the part that an
entry opens is not. The first argument says whether the statement stands in a loop, the second
whether the open part does. -/
inductive Unfinished (outside : Bool) :
    Bool → Chain → Item → List Entry → List Statement → Prop where
  | opened {item : Item} {o : Opening} (opens : item.kind = .opening o) :
      Unfinished outside (o.isLoop || outside) o.chain item [] []
  | continued {inside : Bool} {chain next : Chain} {item item' : Item} {c : Clause}
      {es body : List Entry} {ss inner : List Statement}
      (before : Unfinished outside inside chain item es ss)
      (nested : Derives inside .items body inner) (opens : item'.kind = .clause c)
      (follows : Chain.next? c chain = some next) :
      Unfinished outside outside next item' (es ++ .item item :: body)
        (ss ++ [item.toStatement inner])

namespace Unfinished

variable {outside inside : Bool} {chain : Chain} {item : Item} {es : List Entry}
  {ss : List Statement}

/-- The open part of a statement is not opened by a block. -/
theorem ne_block (h : Unfinished outside inside chain item es ss) (name : String) :
    item.kind ≠ .block name := by
  cases h with
  | opened opens => exact Item.ne_block_of_opening opens name
  | continued _ _ opens _ => exact Item.ne_block_of_clause opens name

theorem inLoop_eq (h : Unfinished outside inside chain item es ss) {scopes : List OpenScope}
    (hscopes : inLoop scopes = outside) (children : List Statement) :
    inLoop (⟨item, chain, children⟩ :: scopes) = inside := by
  cases h with
  | opened opens => rw [inLoop_opening, hscopes]
  | continued _ _ _ follows => rw [inLoop_clause follows, hscopes]

/-- **An unfinished statement may be finished** by the rest of its open part, clauses that complete
it, and an `end`. -/
theorem finish (h : Unfinished outside inside chain item es ss) {body parts : List Entry}
    {inner pieces : List Statement} {cs : List Clause} {ending : Item}
    (nested : Derives inside .items body inner)
    (clauses : Derives outside (.clauses cs) parts pieces) (completes : chain.Completes cs)
    (ends : ending.kind = .ending) :
    Derives outside .items (es ++ .item item :: (body ++ (parts ++ [.item ending])))
      (ss ++ item.toStatement inner :: pieces) := by
  induction h generalizing body parts inner pieces cs with
  | @opened item o opens =>
    have h := Derives.scope opens ((o.admits_iff_completes cs).mpr completes) ends nested clauses
      .nil
    simpa using h
  | continued before nested' opens follows ih =>
    have h := ih nested' (.clause opens nested clauses) ⟨_, follows, completes⟩
    simpa using h

end Unfinished

/-- **The invariant of nesting**: what entries have been read as, from the outside to the inside. -/
inductive Stands : List Entry → Nesting → Prop where
  | root {es : List Entry} {ss : List Statement} (h : Derives false .items es ss) :
      Stands es (Nesting.empty.grow es ss)
  | block {es body : List Entry} {inner : List Statement} {n : Nesting} {item : Item}
      {name : String} (outer : Stands es n) (opens : item.kind = .block name)
      (nested : Derives false .items body inner) :
      Stands (es ++ .item item :: body) ((n.openBlock item).grow body inner)
  | scope {es parts body : List Entry} {pieces inner : List Statement} {n : Nesting}
      {inside : Bool} {chain : Chain} {item : Item} (outer : Stands es n)
      (unfinished : Unfinished (inLoop n.scopes) inside chain item parts pieces)
      (nested : Derives inside .items body inner) :
      Stands (es ++ (parts ++ .item item :: body))
        (((n.grow parts pieces).openScope item chain).grow body inner)

namespace Stands

variable {es : List Entry} {n n' : Nesting}

/-- Items may be put behind what has been read. -/
theorem extend (h : Stands es n) {es' : List Entry} {ss' : List Statement}
    (h' : Derives (inLoop n.scopes) .items es' ss') : Stands (es ++ es') (n.grow es' ss') := by
  cases h with
  | root h =>
    rw [inLoop_scopes_grow] at h'
    rw [grow_grow]
    exact .root (h.append h')
  | block outer opens nested =>
    rw [inLoop_scopes_grow] at h'
    rw [grow_grow, List.append_assoc, List.cons_append]
    exact .block outer opens (nested.append h')
  | scope outer unfinished nested =>
    rw [inLoop_scopes_grow, openScope, unfinished.inLoop_eq (inLoop_scopes_grow _ _ _)] at h'
    rw [grow_grow, List.append_assoc, List.append_assoc, List.cons_append]
    exact .scope outer unfinished (nested.append h')

/-- **One entry more.** -/
theorem push {file : String} {e : Entry} (h : Stands es n) (hpush : n.pushEntry file e = .ok n') :
    Stands (es ++ [e]) n' := by
  cases e with
  | text text =>
    obtain rfl := Except.ok.inj hpush
    rw [attach_ofText]
    exact h.extend (.text text .nil)
  | item item =>
    cases push_eq_ok_iff.mp hpush with
    | simple stands =>
      rw [attach_toStatement stands.ne_block]
      exact h.extend (.simple stands .nil)
    | opening opens =>
      have := Stands.scope h (.opened opens) .nil
      simpa using this
    | block opens new =>
      have := Stands.block h opens .nil
      simpa using this
    | clause opens scopes follows =>
      cases h with
      | root => exact absurd scopes (by simp [grow, attachAll, Nesting.empty])
      | block outer opens' nested =>
        rw [scopes_grow_openBlock] at scopes
        obtain ⟨rfl, rfl⟩ := List.cons.inj scopes
        exact absurd follows (by simp [Chain.next?_block])
      | scope outer unfinished nested =>
        rw [scopes_grow_openScope] at scopes
        obtain ⟨rfl, rfl⟩ := List.cons.inj scopes
        rw [close_grow_openScope unfinished.ne_block, grow_grow]
        have := Stands.scope outer (.continued unfinished nested opens follows) .nil
        simpa using this
    | ending ends scopes whole =>
      have hending := Entry.block?_item_of_ne (Item.ne_block_of_ending ends)
      cases h with
      | root => exact absurd scopes (by simp [grow, attachAll, Nesting.empty])
      | block outer opens nested =>
        rw [scopes_grow_openBlock] at scopes
        obtain ⟨rfl, rfl⟩ := List.cons.inj scopes
        rw [close_grow_openBlock opens, ← grow_append_of_block?_eq_none hending]
        have := outer.extend (.block opens ends nested .nil)
        simpa using this
      | scope outer unfinished nested =>
        rw [scopes_grow_openScope] at scopes
        obtain ⟨rfl, rfl⟩ := List.cons.inj scopes
        rw [close_grow_openScope unfinished.ne_block, grow_grow,
          ← grow_append_of_block?_eq_none hending]
        have := outer.extend
          (unfinished.finish nested .noClause ((Chain.completes_nil _).mpr whole) ends)
        simpa using this

/-- **Many entries more.** -/
theorem foldlM {file : String} {es' : List Entry} (h : Stands es n)
    (hpush : es'.foldlM (pushEntry file) n = .ok n') : Stands (es ++ es') n' := by
  induction es' generalizing es n with
  | nil =>
    obtain rfl := Except.ok.inj hpush
    rwa [List.append_nil]
  | cons e es' ih =>
    obtain ⟨n₁, hfirst, hrest⟩ := foldlM_cons_eq_ok_iff.mp hpush
    have := ih (h.push hfirst) hrest
    rwa [List.append_assoc] at this

end Stands

/-! ## New blocks -/

/-- Does no entry open a block whose line has been noted, or that an entry in front opens? -/
def Fresh : Dict Nat → List Entry → Prop
  | _, [] => True
  | lines, e :: es => (∀ name, e.block? = some name → lines.get? name = none) ∧
    Fresh (note lines e) es

theorem fresh_append {lines : Dict Nat} {es es' : List Entry} :
    Fresh lines (es ++ es') ↔ Fresh lines es ∧ Fresh (es.foldl note lines) es' := by
  induction es generalizing lines with
  | nil => simp [Fresh]
  | cons e es ih => simp [Fresh, ih, and_assoc]

theorem fresh_cons_of_block?_eq_none {lines : Dict Nat} {e : Entry} (h : e.block? = none)
    {es : List Entry} : Fresh lines (e :: es) ↔ Fresh lines es := by
  simp [Fresh, h, note_of_block?_eq_none h]

theorem get?_note_of_ne {e : Entry} {name : String} (h : e.block? ≠ some name) (lines : Dict Nat) :
    (note lines e).get? name = lines.get? name := by
  cases hblock : e.block? with
  | none => rw [note_of_block?_eq_none hblock]
  | some other =>
    rw [hblock] at h
    cases e with
    | text text => exact absurd hblock (by simp [Entry.block?])
    | item item =>
      obtain ⟨kind, line, span⟩ := item
      cases kind with
      | block own =>
        obtain rfl : own = other := Option.some.inj hblock
        exact Dict.get?_insert_of_ne (fun he => h (congrArg some he.symm)) line lines
      | _ => exact absurd hblock (by simp [Entry.block?])

theorem get?_note_of_eq {e : Entry} {name : String} (h : e.block? = some name) (lines : Dict Nat) :
    (note lines e).get? name ≠ none := by
  cases e with
  | text text => exact absurd h (by simp [Entry.block?])
  | item item =>
    obtain ⟨kind, line, span⟩ := item
    cases kind with
    | block own =>
      obtain rfl : own = name := Option.some.inj h
      simp [note]
    | _ => exact absurd h (by simp [Entry.block?])

/-- No entry opens a block that is not new exactly if the names of the blocks are distinct and none
has been noted. -/
theorem fresh_iff {lines : Dict Nat} {es : List Entry} :
    Fresh lines es ↔
      (blockNames es).Nodup ∧ ∀ name ∈ blockNames es, lines.get? name = none := by
  induction es generalizing lines with
  | nil => simp [Fresh]
  | cons e es ih =>
    cases hblock : e.block? with
    | none =>
      rw [fresh_cons_of_block?_eq_none hblock, ih, blockNames, blockNames,
        List.filterMap_cons_none hblock]
    | some own =>
      rw [Fresh, ih, blockNames, blockNames, List.filterMap_cons_some hblock, List.nodup_cons]
      constructor
      · rintro ⟨hown, hnodup, hrest⟩
        have hnew : own ∉ es.filterMap Entry.block? := fun hmem =>
          get?_note_of_eq hblock lines (hrest own hmem)
        refine ⟨⟨hnew, hnodup⟩, fun name hname => ?_⟩
        rcases List.mem_cons.mp hname with rfl | hname
        · exact hown _ hblock
        · rw [← hrest name hname, get?_note_of_ne]
          rw [hblock]
          exact fun he => hnew (Option.some.inj he ▸ hname)
      · rintro ⟨⟨hnew, hnodup⟩, hall⟩
        refine ⟨fun name hname => ?_, hnodup, fun name hname => ?_⟩
        · rw [hblock] at hname
          exact hall name (Option.some.inj hname ▸ List.mem_cons_self ..)
        · rw [get?_note_of_ne, hall name (List.mem_cons_of_mem _ hname)]
          rw [hblock]
          exact fun he => hnew (Option.some.inj he ▸ hname)

/-- The blocks of entries that have been pushed were new. -/
theorem fresh_of_pushEntry {file : String} {n n' : Nesting} {e : Entry}
    (h : n.pushEntry file e = .ok n') :
    Fresh n.blockLines [e] ∧ n'.blockLines = note n.blockLines e := by
  have blockLines_attach : ∀ (n : Nesting) (s : Statement),
      (n.attach s).blockLines = n.blockLines := by
    intro n s
    rw [attach]
    split <;> rfl
  have blockLines_close : ∀ (n : Nesting) (s : OpenScope),
      (n.close s).blockLines = n.blockLines := by
    intro n s
    rw [close]
    split <;> rw [blockLines_attach]
  cases e with
  | text text =>
    obtain rfl := Except.ok.inj h
    exact ⟨⟨by simp [Entry.block?], trivial⟩, blockLines_attach n _⟩
  | item item =>
    rw [Fresh]
    cases push_eq_ok_iff.mp h with
    | simple stands =>
      have hnone := Entry.block?_item_of_ne stands.ne_block
      rw [hnone, note_of_block?_eq_none hnone]
      exact ⟨⟨by simp, trivial⟩, blockLines_attach n _⟩
    | opening opens =>
      have hnone := Entry.block?_item_of_ne (Item.ne_block_of_opening opens)
      rw [hnone, note_of_block?_eq_none hnone]
      exact ⟨⟨by simp, trivial⟩, rfl⟩
    | @block name opens new =>
      rw [Entry.block?_item opens]
      exact ⟨⟨fun _ h => Option.some.inj h ▸ new, trivial⟩, rfl⟩
    | clause opens =>
      have hnone := Entry.block?_item_of_ne (Item.ne_block_of_clause opens)
      rw [hnone, note_of_block?_eq_none hnone]
      exact ⟨⟨by simp, trivial⟩, blockLines_close _ _⟩
    | ending ends =>
      have hnone := Entry.block?_item_of_ne (Item.ne_block_of_ending ends)
      rw [hnone, note_of_block?_eq_none hnone]
      exact ⟨⟨by simp, trivial⟩, blockLines_close _ _⟩

theorem fresh_of_foldlM {file : String} {n n' : Nesting} {es : List Entry}
    (h : es.foldlM (pushEntry file) n = .ok n') : Fresh n.blockLines es := by
  induction es generalizing n with
  | nil => trivial
  | cons e es ih =>
    obtain ⟨n₁, hfirst, hrest⟩ := foldlM_cons_eq_ok_iff.mp h
    obtain ⟨hnew, hlines⟩ := fresh_of_pushEntry hfirst
    exact ⟨hnew.1, hlines ▸ ih hrest⟩

/-! ## Scopes closed by an entry -/

/-- An `end` closes a block. -/
theorem pushEntry_ending_openBlock (file : String) {item ending : Item} {name : String}
    (opens : item.kind = .block name) (ends : ending.kind = .ending) (n : Nesting)
    (body : List Entry) (inner : List Statement) :
    ((n.openBlock item).grow body inner).pushEntry file (.item ending) =
      .ok (n.grow (.item item :: body) [item.toStatement inner]) := by
  rw [← close_grow_openBlock opens]
  exact push_eq_ok_iff.mpr
    (.ending ends (scopes_grow_openBlock n item body inner) Chain.noConfusion)

/-- An `end` closes an open part that nothing has to follow. -/
theorem pushEntry_ending_openScope (file : String) {item ending : Item} {chain : Chain}
    (hitem : ∀ name, item.kind ≠ .block name) (ends : ending.kind = .ending)
    (whole : chain ≠ .tryStart) (n : Nesting) (body : List Entry) (inner : List Statement) :
    ((n.openScope item chain).grow body inner).pushEntry file (.item ending) =
      .ok (n.grow (.item item :: body) [item.toStatement inner]) := by
  rw [← close_grow_openScope hitem]
  exact push_eq_ok_iff.mpr
    (.ending ends (scopes_grow_openScope n item chain body inner) whole)

/-- A clause closes the part in front of it and opens its own. -/
theorem pushEntry_clause_openScope (file : String) {item item' : Item} {c : Clause}
    {chain next : Chain} (hitem : ∀ name, item.kind ≠ .block name)
    (opens : item'.kind = .clause c) (follows : Chain.next? c chain = some next) (n : Nesting)
    (body : List Entry) (inner : List Statement) :
    ((n.openScope item chain).grow body inner).pushEntry file (.item item') =
      .ok ((n.grow (.item item :: body) [item.toStatement inner]).openScope item' next) := by
  rw [← close_grow_openScope hitem]
  exact push_eq_ok_iff.mpr
    (.clause opens (scopes_grow_openScope n item chain body inner) follows)

/-! ## Derived entries are pushed -/

/-- **What pushing derived entries does.** Items let the tree grow by their trees. Clauses are pushed
behind the part of their statement that is open, together with the `end` behind them, and the tree
grows by the trees of all these parts. -/
def Grows (file : String) (looped : Bool) : Stretch → List Entry → List Statement → Prop
  | .items, es, ss => ∀ n : Nesting, inLoop n.scopes = looped → Fresh n.blockLines es →
      es.foldlM (pushEntry file) n = .ok (n.grow es ss)
  | .clauses cs, es, ss => ∀ (n : Nesting) (item ending : Item) (chain : Chain)
      (body : List Entry) (inner : List Statement), inLoop n.scopes = looped →
      (∀ name, item.kind ≠ .block name) → ending.kind = .ending → chain.Completes cs →
      Fresh n.blockLines (body ++ es) →
      (es ++ [Entry.item ending]).foldlM (pushEntry file)
          ((n.openScope item chain).grow body inner) =
        .ok (n.grow (.item item :: (body ++ es)) (item.toStatement inner :: ss))

namespace Grows

variable {file : String} {looped : Bool} {body parts es : List Entry}
  {inner pieces ss : List Statement} {item ending : Item}

/-- An entry pushed in front of items. -/
theorem cons {e : Entry} {s : Statement} (h : Grows file looped .items es ss) {n : Nesting}
    (hloop : inLoop n.scopes = looped) (hfresh : Fresh n.blockLines (e :: es))
    (hpush : n.pushEntry file e = .ok (n.grow [e] [s])) :
    (e :: es).foldlM (pushEntry file) n = .ok (n.grow (e :: es) (s :: ss)) := by
  have hrest := h (n.grow [e] [s]) ((inLoop_scopes_grow _ _ _).trans hloop) hfresh.2
  rw [grow_grow] at hrest
  exact foldlM_cons_eq_ok_iff.mpr ⟨_, hpush, hrest⟩

theorem text (text : List Char) (h : Grows file looped .items es ss) :
    Grows file looped .items (.text text :: es) (.ofText text :: ss) :=
  fun n hloop hfresh => h.cons hloop hfresh (congrArg Except.ok (attach_ofText n text))

theorem simple (stands : item.kind.MayStand looped) (h : Grows file looped .items es ss) :
    Grows file looped .items (.item item :: es) (item.toStatement [] :: ss) := by
  intro n hloop hfresh
  refine h.cons hloop hfresh ?_
  rw [← attach_toStatement stands.ne_block]
  exact push_eq_ok_iff.mpr (.simple (hloop ▸ stands))

theorem block {name : String} (opens : item.kind = .block name) (ends : ending.kind = .ending)
    (nested : Grows file false .items body inner) (h : Grows file looped .items es ss) :
    Grows file looped .items (.item item :: (body ++ .item ending :: es))
      (item.toStatement inner :: ss) := by
  intro n hloop hfresh
  have hending := Entry.block?_item_of_ne (Item.ne_block_of_ending ends)
  obtain ⟨hbody, hrest⟩ := fresh_append.mp hfresh.2
  have hinside := nested (n.openBlock item) rfl hbody
  have hbehind := h (n.grow (.item item :: body) [item.toStatement inner])
    ((inLoop_scopes_grow _ _ _).trans hloop) ((fresh_cons_of_block?_eq_none hending).mp hrest)
  rw [grow_grow] at hbehind
  have hgrow : n.grow (.item item :: (body ++ .item ending :: es)) (item.toStatement inner :: ss) =
      n.grow ((.item item :: body) ++ es) ([item.toStatement inner] ++ ss) := by
    simp [grow, note_of_block?_eq_none hending]
  rw [hgrow, foldlM_cons_eq_ok_iff]
  refine ⟨_, push_eq_ok_iff.mpr (.block opens (hfresh.1 name (Entry.block?_item opens))), ?_⟩
  rw [foldlM_append_eq_ok_iff]
  refine ⟨_, hinside, ?_⟩
  rw [foldlM_cons_eq_ok_iff]
  exact ⟨_, pushEntry_ending_openBlock file opens ends n body inner, hbehind⟩

theorem scope {o : Opening} {cs : List Clause} (opens : item.kind = .opening o)
    (admits : o.Admits cs) (ends : ending.kind = .ending)
    (nested : Grows file (o.isLoop || looped) .items body inner)
    (clauses : Grows file looped (.clauses cs) parts pieces)
    (h : Grows file looped .items es ss) :
    Grows file looped .items (.item item :: (body ++ (parts ++ .item ending :: es)))
      (item.toStatement inner :: (pieces ++ ss)) := by
  intro n hloop hfresh
  have hending := Entry.block?_item_of_ne (Item.ne_block_of_ending ends)
  have hitem := Item.ne_block_of_opening opens
  have hnone := Entry.block?_item_of_ne hitem
  have hfresh := (fresh_cons_of_block?_eq_none hnone).mp hfresh
  rw [← List.append_assoc] at hfresh
  obtain ⟨hstatement, hrest⟩ := fresh_append.mp hfresh
  have hinside := nested (n.openScope item o.chain)
    ((inLoop_opening o item [] n.scopes).trans (by rw [hloop])) (fresh_append.mp hstatement).1
  have hclauses := clauses n item ending o.chain body inner hloop hitem ends
    ((o.admits_iff_completes cs).mp admits) hstatement
  have hlines : (n.grow (.item item :: (body ++ parts)) (item.toStatement inner :: pieces)).blockLines
      = (body ++ parts).foldl note n.blockLines := by
    rw [grow, List.foldl_cons, note_of_block?_eq_none hnone]
  have hbehind := h (n.grow (.item item :: (body ++ parts)) (item.toStatement inner :: pieces))
    ((inLoop_scopes_grow _ _ _).trans hloop)
    (hlines ▸ (fresh_cons_of_block?_eq_none hending).mp hrest)
  rw [grow_grow] at hbehind
  have hgrow : n.grow (.item item :: (body ++ (parts ++ .item ending :: es)))
      (item.toStatement inner :: (pieces ++ ss)) =
        n.grow ((.item item :: (body ++ parts)) ++ es)
          ((item.toStatement inner :: pieces) ++ ss) := by
    simp [grow, note_of_block?_eq_none hending]
  rw [hgrow, foldlM_cons_eq_ok_iff]
  refine ⟨_, push_eq_ok_iff.mpr (.opening opens), ?_⟩
  rw [foldlM_append_eq_ok_iff]
  refine ⟨_, hinside, ?_⟩
  rw [List.append_cons parts, foldlM_append_eq_ok_iff]
  exact ⟨_, hclauses, hbehind⟩

theorem noClause : Grows file looped (.clauses []) [] [] := by
  intro n item ending chain body inner _ hitem ends completes _
  rw [List.append_nil, List.nil_append, foldlM_cons_eq_ok_iff]
  exact ⟨_, pushEntry_ending_openScope file hitem ends completes n body inner, rfl⟩

theorem clause {c : Clause} {cs : List Clause} (opens : item.kind = .clause c)
    (nested : Grows file looped .items body inner) (h : Grows file looped (.clauses cs) es ss) :
    Grows file looped (.clauses (c :: cs)) (.item item :: (body ++ es))
      (item.toStatement inner :: ss) := by
  rintro n item₀ ending chain body₀ inner₀ hloop hitem₀ ends ⟨next, follows, completes⟩ hfresh
  have hitem := Item.ne_block_of_clause opens
  have hnone := Entry.block?_item_of_ne hitem
  -- the tree with the part in front closed: it is there that the part of the clause is opened
  obtain ⟨n₀, hn₀⟩ : ∃ n₀, n₀ = n.grow (.item item₀ :: body₀) [item₀.toStatement inner₀] := ⟨_, rfl⟩
  have hlines : n₀.blockLines = body₀.foldl note n.blockLines := by
    rw [hn₀, grow, List.foldl_cons, note_of_block?_eq_none (Entry.block?_item_of_ne hitem₀)]
  have hscopes : inLoop n₀.scopes = looped := by
    rw [hn₀, inLoop_scopes_grow, hloop]
  have hfresh : Fresh n₀.blockLines (body ++ es) :=
    hlines ▸ (fresh_cons_of_block?_eq_none hnone).mp (fresh_append.mp hfresh).2
  have hinside := nested (n₀.openScope item next)
    ((inLoop_clause follows item [] n₀.scopes).trans hscopes) (fresh_append.mp hfresh).1
  have hbehind := h n₀ item ending next body inner hscopes hitem ends completes hfresh
  subst hn₀
  rw [grow_grow] at hbehind
  rw [List.cons_append, foldlM_cons_eq_ok_iff]
  refine ⟨_, pushEntry_clause_openScope file hitem₀ opens follows n body₀ inner₀, ?_⟩
  rw [List.append_assoc, foldlM_append_eq_ok_iff]
  exact ⟨_, hinside, hbehind⟩

end Grows

end Nesting

/-- **Derived entries are pushed without an error**, and the tree grows by the trees of the
derivation. -/
theorem Derives.grows (file : String) {looped : Bool} {stretch : Stretch} {es : List Entry}
    {ss : List Statement} (h : Derives looped stretch es ss) :
    Nesting.Grows file looped stretch es ss := by
  induction h with
  | nil =>
    intro n _ _
    rw [Nesting.grow_nil]
    rfl
  | text text _ ih => exact ih.text text
  | simple stands _ ih => exact .simple stands ih
  | block opens ends _ _ ihBody ih => exact .block opens ends ihBody ih
  | scope opens admits ends _ _ _ ihBody ihClauses ih =>
    exact .scope opens admits ends ihBody ihClauses ih
  | noClause => exact .noClause
  | clause opens _ _ ihBody ih => exact .clause opens ihBody ih

/-! ## The nesting and the grammar -/

namespace Nesting

/-- A tree in which no scope is open is finished as the document of its derivation. -/
theorem Stands.finish {file : String} {es : List Entry} {n : Nesting} {d : Document}
    (h : Stands es n) (hfinish : n.finish file = .ok d) :
    ∃ trees, Derives false .items es trees ∧ d = Document.ofTrees trees := by
  cases h with
  | @root _ trees h =>
    refine ⟨trees, h, ?_⟩
    have := Except.ok.inj hfinish
    rw [← this]
    simp [grow, attachAll, Nesting.empty, Document.ofTrees]
  | block outer opens nested =>
    rw [Nesting.finish, scopes_grow_openBlock] at hfinish
    exact absurd hfinish (by simp)
  | scope outer unfinished nested =>
    rw [Nesting.finish, scopes_grow_openScope] at hfinish
    exact absurd hfinish (by simp)

theorem finish_grow_empty (file : String) (es : List Entry) (trees : List Statement) :
    (Nesting.empty.grow es trees).finish file = .ok (Document.ofTrees trees) := by
  simp [Nesting.finish, grow, attachAll, Nesting.empty, Document.ofTrees]

/-- **Entries are nested without an error exactly if the grammar derives them**, and then the
document is that of the tree of the derivation. -/
theorem finish_foldlM_pushEntry_eq_ok_iff {file : String} {es : List Entry} {d : Document} :
    (es.foldlM (pushEntry file) .empty >>= (·.finish file)) = .ok d ↔
      ∃ trees, WellNested es trees ∧ d = Document.ofTrees trees := by
  rw [bind_eq_ok_iff]
  constructor
  · rintro ⟨n, hfold, hfinish⟩
    have hstands : Stands es n := Stands.foldlM (.root .nil) hfold
    obtain ⟨trees, hderives, rfl⟩ := hstands.finish hfinish
    have hfresh := fresh_iff.mp (fresh_of_foldlM hfold)
    exact ⟨trees, ⟨hderives, hfresh.1⟩, rfl⟩
  · rintro ⟨trees, ⟨hderives, hdistinct⟩, rfl⟩
    have hfresh : Fresh Nesting.empty.blockLines es := fresh_iff.mpr ⟨hdistinct, fun _ _ => rfl⟩
    exact ⟨_, hderives.grows file .empty rfl hfresh, finish_grow_empty file es trees⟩

end Nesting

/-- Segments become a document exactly if their statements can be told and the grammar derives them. -/
theorem Document.eq_ok_iff_wellNested {config : Config} {file : String} {segments : List Segment}
    {d : Document} :
    (segments.foldlM (Nesting.pushSegment config file) .empty >>= fun n => n.finish file) = .ok d ↔
      ∃ es trees, segments.mapM (Segment.entry config file) = .ok es ∧ WellNested es trees ∧
        d = Document.ofTrees trees := by
  constructor
  · intro h
    obtain ⟨n, hfold, hfinish⟩ := bind_eq_ok_iff.mp h
    obtain ⟨es, hes, hfold⟩ := Nesting.foldlM_pushSegment_eq_ok.mp hfold
    obtain ⟨trees, hnested, hd⟩ := Nesting.finish_foldlM_pushEntry_eq_ok_iff.mp
      (bind_eq_ok_iff.mpr ⟨n, hfold, hfinish⟩)
    exact ⟨es, trees, hes, hnested, hd⟩
  · rintro ⟨es, trees, hes, hnested, hd⟩
    obtain ⟨n, hfold, hfinish⟩ := bind_eq_ok_iff.mp
      (Nesting.finish_foldlM_pushEntry_eq_ok_iff.mpr ⟨trees, hnested, hd⟩)
    exact bind_eq_ok_iff.mpr
      ⟨n, Nesting.foldlM_pushSegment_eq_ok.mpr ⟨es, hes, hfold⟩, hfinish⟩

/-- A template that parses is well nested, and its document is that of its trees. -/
theorem Document.wellNested_of_parse {config : Config} {file : String} {source : List Char}
    {d : Document} (h : Document.parse config file source = .ok d) :
    ∃ es trees, WellNested es trees ∧ d = Document.ofTrees trees := by
  obtain ⟨segments, -, h⟩ := bind_eq_ok_iff.mp h
  obtain ⟨es, trees, -, hnested, hd⟩ := Document.eq_ok_iff_wellNested.mp h
  exact ⟨es, trees, hnested, hd⟩

/-- **The nesting accepts exactly the grammar and builds its derivation tree.**  Segments become a
document without an error exactly if the statement of each can be told and the grammar derives the
entries.  Then the document is that of the derivation tree; with the bodies of its blocks put back it
is that tree again, which holds every entry but the `end`s once and in order. -/
theorem Document.eq_ok_iff_wellNested_restore (config : Config) (file : String)
    (segments : List Segment) :
    ((∃ d, (segments.foldlM (Nesting.pushSegment config file) .empty >>= fun n => n.finish file) =
        .ok d) ↔
      ∃ es trees, segments.mapM (Segment.entry config file) = .ok es ∧ WellNested es trees) ∧
    ∀ d, (segments.foldlM (Nesting.pushSegment config file) .empty >>= fun n => n.finish file) =
        .ok d ↔
      ∃ es, segments.mapM (Segment.entry config file) = .ok es ∧ WellNested es d.restore ∧
        d = Document.ofTrees d.restore ∧
        Statement.entriesAll d.restore = es.filter fun e => !e.isEnding := by
  refine ⟨⟨?_, ?_⟩, fun d => ⟨?_, ?_⟩⟩
  · rintro ⟨d, h⟩
    obtain ⟨es, trees, hes, hnested, -⟩ := Document.eq_ok_iff_wellNested.mp h
    exact ⟨es, trees, hes, hnested⟩
  · rintro ⟨es, trees, hes, hnested⟩
    exact ⟨_, Document.eq_ok_iff_wellNested.mpr ⟨es, trees, hes, hnested, rfl⟩⟩
  · intro h
    obtain ⟨es, trees, hes, hnested, rfl⟩ := Document.eq_ok_iff_wellNested.mp h
    rw [hnested.restore_ofTrees]
    exact ⟨es, hes, hnested, rfl, hnested.derives.entriesAll⟩
  · rintro ⟨es, hes, hnested, hd, -⟩
    exact Document.eq_ok_iff_wellNested.mpr ⟨es, d.restore, hes, hnested, hd⟩

/-! ## The path of a template -/

theorem Nesting.classify_elsewhere {config : Config} {place : Place} {text : List Char}
    {kind : StatementKind} (h : classify config place text = .ok kind) (place' : Place) :
    classify config place' text = .ok kind := by
  unfold classify at h ⊢
  dsimp only at h ⊢
  split at h
  · cases h
  · rename_i hcolon
    rw [if_neg hcolon]
    split at h
    · cases h
    · cases h
    · exact h

theorem Segment.entry_elsewhere {config : Config} {file : String} {segment : Segment} {e : Entry}
    (h : segment.entry config file = .ok e) (file' : String) : segment.entry config file' = .ok e := by
  cases segment with
  | plain text => exact h
  | statement text line span =>
    obtain ⟨kind, hkind, h⟩ := bind_eq_ok_iff.mp h
    exact bind_eq_ok_iff.mpr ⟨kind, Nesting.classify_elsewhere hkind _, h⟩

theorem Segment.scan_elsewhere {file : String} {source : List Char} {segments : List Segment}
    (h : scan file source = .ok segments) (file' : String) : scan file' source = .ok segments := by
  unfold scan at h ⊢
  split at h
  · exact h
  · cases h

/-- **A path only labels errors**: a source that parses does so to the same document under every path. -/
theorem Document.parse_elsewhere {config : Config} {file : String} {source : List Char} {d : Document}
    (h : Document.parse config file source = .ok d) (file' : String) :
    Document.parse config file' source = .ok d := by
  have hentries {segments : List Segment} {es : List Entry}
      (hes : segments.mapM (Segment.entry config file) = .ok es) :
      segments.mapM (Segment.entry config file') = .ok es := by
    induction segments generalizing es with
    | nil => exact hes
    | cons segment segments ih =>
      obtain ⟨e, es', he, hes', rfl⟩ := mapM_cons_eq_ok_iff.mp hes
      exact mapM_cons_eq_ok_iff.mpr ⟨e, es', Segment.entry_elsewhere he file', ih hes', rfl⟩
  obtain ⟨segments, hsegments, h⟩ := bind_eq_ok_iff.mp h
  obtain ⟨es, trees, hes, hnested, hd⟩ := Document.eq_ok_iff_wellNested.mp h
  exact bind_eq_ok_iff.mpr ⟨segments, Segment.scan_elsewhere hsegments file',
    Document.eq_ok_iff_wellNested.mpr ⟨es, trees, hentries hes, hnested, hd⟩⟩

end Inlay
