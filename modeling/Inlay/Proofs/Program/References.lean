import Inlay.Proofs.Program.Compiled

/-!
# References inside one template

A block statement is at the same time the definition of the block and a reference to it, and it stands
inside the blocks that refer to it.  So the bodies of blocks, taken out of the trees from the inside to
the outside, refer only to what was taken out before them: in one template no block comes to draw
itself.

* `ReferBack`: each body in a list refers only to bodies before it.
* `Statement.referBack_bodiesAll`: so it is for the bodies that are taken out of trees.
* `Program.Outlines.idxOf_lt`, `Compiled.exists_rank`: the blocks of a program are ranked by their
  references.
-/

namespace Inlay

/-- Each body refers only to blocks before it in the list, and to those named in front. -/
def ReferBack : List String → List BlockBody → Prop
  | _, [] => True
  | earlier, b :: rest =>
    (∀ name, .start (.block name) ∈ Statement.outlineAll b.body → name ∈ earlier) ∧
      ReferBack (earlier ++ [b.name]) rest

theorem referBack_append {earlier : List String} {bs bs' : List BlockBody} :
    ReferBack earlier (bs ++ bs') ↔
      ReferBack earlier bs ∧ ReferBack (earlier ++ bs.map BlockBody.name) bs' := by
  induction bs generalizing earlier with
  | nil => rw [List.nil_append, List.map_nil, List.append_nil, ReferBack, true_and]
  | cons b rest ih =>
    rw [List.cons_append, ReferBack, ReferBack, ih, and_assoc, List.append_assoc, List.map_cons,
      List.singleton_append]

mutual

/-- The bodies taken out of a tree refer only to bodies taken out before. -/
theorem Statement.referBack_bodies : ∀ (earlier : List String) (s : Statement),
    ReferBack earlier s.bodies
  | earlier, .mk kind line span children => by
    have hchildren := Statement.referBack_bodiesAll earlier children
    by_cases hblock : ∃ name, kind = .block name
    · obtain ⟨name, rfl⟩ := hblock
      rw [Statement.bodies, referBack_append]
      refine ⟨hchildren, fun other hother => List.mem_append_right _ ?_, trivial⟩
      exact Statement.name_mem_of_outlineAll_hollowAll children hother
    · rwa [Statement.bodies_of_ne fun name hname => hblock ⟨name, hname⟩]

/-- **The bodies taken out of trees refer only to bodies taken out before.** -/
theorem Statement.referBack_bodiesAll : ∀ (earlier : List String) (ss : List Statement),
    ReferBack earlier (Statement.bodiesAll ss)
  | _, [] => by
    rw [Statement.bodiesAll_nil]
    exact trivial
  | earlier, s :: rest => by
    rw [Statement.bodiesAll_cons, referBack_append]
    exact ⟨Statement.referBack_bodies earlier s, Statement.referBack_bodiesAll _ rest⟩

end

/-- What a body refers to is found before it in the list of names, if these are distinct. -/
theorem ReferBack.idxOf_lt {earlier : List String} {bs : List BlockBody} (h : ReferBack earlier bs)
    (hdistinct : (earlier ++ bs.map BlockBody.name).Nodup) {b : BlockBody} (hb : b ∈ bs)
    {name : String} (hname : .start (.block name) ∈ Statement.outlineAll b.body) :
    (earlier ++ bs.map BlockBody.name).idxOf name <
      (earlier ++ bs.map BlockBody.name).idxOf b.name := by
  induction bs generalizing earlier with
  | nil => exact absurd hb List.not_mem_nil
  | cons first rest ih =>
    have hnames : earlier ++ (first :: rest).map BlockBody.name =
        earlier ++ [first.name] ++ rest.map BlockBody.name := by
      simp
    rcases List.mem_cons.mp hb with rfl | hb
    · have hearlier : name ∈ earlier := h.1 name hname
      have hfirst : b.name ∉ earlier := fun hmem =>
        (List.nodup_append.mp hdistinct).2.2 _ hmem _ (List.mem_cons_self ..) rfl
      rw [List.idxOf_append, if_pos hearlier, List.idxOf_append, if_neg hfirst, List.map_cons,
        List.idxOf_cons_self, Nat.zero_add]
      exact List.idxOf_lt_length_of_mem hearlier
    · rw [hnames] at hdistinct ⊢
      exact ih h.2 hdistinct hb

/-- **The blocks of a program are ranked by their references**, as their bodies are taken out of the
trees. -/
theorem Program.Outlines.idxOf_lt {p : Program} {origin : String} {trees : List Statement}
    (h : p.Outlines origin (Document.ofTrees trees))
    (hdistinct : ((Statement.bodiesAll trees).map BlockBody.name).Nodup) {slot name : String}
    {b : BlockProgram} (hslot : p.blocks.get? slot = some b)
    (hname : .start (.block name) ∈ Step.outlineAll b.body) :
    ((Statement.bodiesAll trees).map BlockBody.name).idxOf name <
      ((Statement.bodiesAll trees).map BlockBody.name).idxOf slot := by
  obtain ⟨body, hbody, -, houtline⟩ := h.exists_body hslot
  have hmem : (slot, body) ∈ storeAll [] (Statement.bodiesAll trees) :=
    Dict.mem_of_get?_eq_some hbody
  obtain ⟨hbodies, hkey⟩ := (mem_storeAll hmem).resolve_left List.not_mem_nil
  obtain rfl : slot = body.name := hkey
  rw [houtline] at hname
  exact (Statement.referBack_bodiesAll [] trees).idxOf_lt hdistinct hbodies hname

/-- The blocks of a template are ranked by their references. -/
theorem Compiled.exists_rank {config : Config} (c : Compiled config) : ∃ rank : String → Nat,
    ∀ slot b name, c.program.blocks.get? slot = some b →
      .start (.block name) ∈ Step.outlineAll b.body → rank name < rank slot := by
  obtain ⟨trees, hdistinct, htrees, houtlines⟩ := c.exists_trees
  rw [htrees] at houtlines
  exact ⟨_, fun _ _ _ hslot hname => houtlines.idxOf_lt hdistinct hslot hname⟩

end Inlay
