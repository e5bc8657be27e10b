import Inlay.Proofs.Render.Course

/-!
# What a run keeps and what it raises

A run that keeps a property of scenes has it wherever it comes to.  And a run fails with an error that
nothing handles if it comes to a step that does, unless a `finally` clause on the way does not come to
its end.  Both are said in one theorem about what is watched for.

* `PendingError`: an error waits for the `finally` clause of a `try`.
* `MeetsAll.rewatch`: what is watched for in one way is met in the other way, or its error gets through.
* `MeetsAll.exists_kept`: what a run meets, it meets in a scene with the property that it keeps.
-/

namespace Inlay

open Inlay.Action (Agree Steady)

namespace Action

variable {σ α : Type}

theorem Agree.done {S : σ → σ → Prop} {E : Error → Error → Prop} {V : α → α → Prop}
    {x : Action σ α} (h : Agree S E V x x) {s t : σ} (hs : S s s) {a : α} (hx : x s = .done a t) :
    S t t := by
  have hend := h hs
  rw [hx] at hend
  cases hend with
  | done value state => exact state

theorem Agree.value {S : σ → σ → Prop} {E : Error → Error → Prop} {V : α → α → Prop}
    {x : Action σ α} (h : Agree S E V x x) {s t : σ} (hs : S s s) {a : α} (hx : x s = .done a t) :
    V a a := by
  have hend := h hs
  rw [hx] at hend
  cases hend with
  | done value state => exact value

theorem Agree.failed {S : σ → σ → Prop} {E : Error → Error → Prop} {V : α → α → Prop}
    {x : Action σ α} (h : Agree S E V x x) {s t : σ} (hs : S s s) {e : Error}
    (hx : x s = .failed e t) : S t t := by
  have hend := h hs
  rw [hx] at hend
  cases hend with
  | failed error state => exact state

end Action

section

variable {engine : Engine} {below : Below}

/-! ## What is met in a run that keeps a property -/

/-- The point is one of statements with the property. -/
def Point.Fits (P : StatementKind → Prop) : Point → Prop
  | .step st => Marked P st.outline
  | .expr e => ∃ kind : StatementKind, P kind ∧ e ∈ kind.exprs

variable (engine below)

/-- The body of a `try`, the handler that is selected or the `else` clause has failed with the error,
when the `finally` clause begins. -/
inductive PendingError (body : List Step) (handlers : List (ExceptHead × List Step))
    (otherwise : Option (List Step)) (s : Scene) (e : Error) (t : Scene) : Prop where
  | body (h : runAll engine below body s = .failed e t)
  | handler {f : Fault} {u : Scene} (hbody : runAll engine below body s = .failed (.fault f) u)
      (h : runHandler engine below f handlers u = .failed e t)
  | otherwise {u : Scene} (hbody : runAll engine below body s = .done .normal u)
      (h : runOptional engine below otherwise u = .failed e t)

/-- What a point fails with. -/
def Point.Raises (bad : Error → Prop) : Point → Scene → Prop
  | .step st => (st.run engine below).Raises bad
  | .expr e => (evalIn engine below e).Raises bad

/-- The point is a `try` with an error pending, and its `finally` clause does not come to its end. -/
def Point.Replaces (bad : Error → Prop) : Point → Scene → Prop
  | .step (.attempt body handlers otherwise (some finally_)), s => ∃ e t, bad e ∧
      PendingError engine below body handlers otherwise s e t ∧
        ∀ u, runAll engine below finally_ t ≠ .done .normal u
  | _, _ => False

/-- Whatever is watched for in one way, is watched for in another way too, unless it fails with an
error that nothing handles. -/
structure Rewatch (S : Scene → Scene → Prop) (P : StatementKind → Prop) (bad : Error → Prop)
    (watch watch' : Point → Scene → Prop) : Prop where
  unhandled {e : Error} (he : bad e) (f : Fault) : e ≠ .fault f
  point {p : Point} {s : Scene} (hs : S s s) (hp : p.Fits P) (h : watch p s) :
    p.Raises engine below bad s ∨ watch' p s
  replaced {p : Point} {s : Scene} (hs : S s s) (hp : p.Fits P)
    (h : p.Replaces engine below bad s) : watch' p s

variable {engine below}

theorem PendingError.tried_eq {body : List Step} {handlers : List (ExceptHead × List Step)}
    {otherwise : Option (List Step)} {s t : Scene} {e : Error}
    (h : PendingError engine below body handlers otherwise s e t) (he : ∀ f, e ≠ .fault f) :
    tried engine below body handlers otherwise s = .done (.error e) t := by
  cases h with
  | body h =>
    refine (Action.bind_of_done (Action.settle_of_failed h) _).trans ?_
    cases e with
    | fault f => exact absurd rfl (he f)
    | _ => rfl
  | handler hbody h =>
    refine (Action.bind_of_done (Action.settle_of_failed hbody) _).trans ?_
    exact Action.settle_of_failed h
  | otherwise hbody h =>
    refine (Action.bind_of_done (Action.settle_of_done hbody) _).trans ?_
    exact Action.settle_of_failed h

section

variable {S : Scene → Scene → Prop} {E : Error → Error → Prop} {P : StatementKind → Prop}
  {bad : Error → Prop} {watch watch' : Point → Scene → Prop}

theorem raises_handling {fault : Fault} {body : Action Scene Flow} {bad : Error → Prop} {s : Scene}
    (h : body.Raises bad { s with frame.handling := some fault }) :
    (handling fault body).Raises bad s := by
  obtain ⟨e, t, hbad, ht⟩ := h
  refine ⟨e, { t with frame.handling := s.frame.handling }, hbad, ?_⟩
  rw [handling, ht]

theorem ItemsMeet.rewatch {bind : Value → Action Scene Unit} {body : Action Scene Flow}
    {meets meets' : Scene → Prop} (hbind : ∀ v, Steady S E (bind v)) (hbody : Steady S E body)
    (hmeets : ∀ s, S s s → meets s → body.Raises bad s ∨ meets' s) {items : List Value} {s : Scene}
    (hs : S s s) (h : ItemsMeet bind body meets items s) :
    (forItems bind body items).Raises bad s ∨ ItemsMeet bind body meets' items s := by
  induction items generalizing s with
  | nil => exact h.elim
  | cons v rest ih =>
    obtain ⟨_, t, ht, h⟩ := h
    have hst := (hbind v).done hs ht
    rw [forItems]
    rcases h with h | ⟨flow, u, hu, hflow, h⟩
    · rcases hmeets t hst h with hraises | h
      · exact Or.inl (.andThen ht hraises.bind)
      · exact Or.inr ⟨_, t, ht, Or.inl h⟩
    · rcases ih (hbody.done hst hu) h with hraises | h
      · refine Or.inl (.andThen ht (.andThen hu ?_))
        cases flow with
        | breakLoop => exact absurd rfl hflow
        | normal | continueLoop => exact hraises
      · exact Or.inr ⟨_, t, ht, Or.inr ⟨flow, u, hu, hflow, h⟩⟩

theorem TurnsMeet.rewatch {test : Action Scene Bool} {body : Action Scene Flow}
    {tests meets tests' meets' : Scene → Prop} (htest : Steady S E test) (hbody : Steady S E body)
    (htests : ∀ s, S s s → tests s → test.Raises bad s ∨ tests' s)
    (hmeets : ∀ s, S s s → meets s → body.Raises bad s ∨ meets' s) {turns : Nat} {s : Scene}
    (hs : S s s) (h : TurnsMeet test body tests meets turns s) :
    (whileTurns test body turns).Raises bad s ∨ TurnsMeet test body tests' meets' turns s := by
  induction turns generalizing s with
  | zero => exact h.elim
  | succ turns ih =>
    rw [whileTurns]
    rcases h with h | ⟨holds, t, ht, rfl, h⟩
    · rcases htests s hs h with hraises | h
      · exact Or.inl hraises.bind
      · exact Or.inr (Or.inl h)
    · have hst := htest.done hs ht
      rcases h with h | ⟨flow, u, hu, hflow, h⟩
      · rcases hmeets t hst h with hraises | h
        · exact Or.inl (.andThen ht hraises.bind)
        · exact Or.inr (Or.inr ⟨true, t, ht, rfl, Or.inl h⟩)
      · rcases ih (hbody.done hst hu) h with hraises | h
        · refine Or.inl (.andThen ht (.andThen hu ?_))
          cases flow with
          | breakLoop => exact absurd rfl hflow
          | normal | continueLoop => exact hraises
        · exact Or.inr (Or.inr ⟨true, t, ht, rfl, Or.inr ⟨flow, u, hu, hflow, h⟩⟩)

/-- The branches of a choice are statements with the property. -/
def BranchesFit (P : StatementKind → Prop) (branches : List (Expr × List Step)) : Prop :=
  ∀ branch ∈ branches, (Point.expr branch.1).Fits P ∧ Marked P (Step.outlineAll branch.2)

theorem branchesFit_of_elifs {branches : List (Expr × List Step)}
    (h : Marked P (Step.outlineElifs branches)) : BranchesFit P branches := by
  induction branches with
  | nil => exact fun _ hbranch => absurd hbranch List.not_mem_nil
  | cons branch rest ih =>
    obtain ⟨test, body⟩ := branch
    rw [Step.outlineElifs, marked_append, marked_nest] at h
    obtain ⟨⟨hkind, hbody⟩, hrest⟩ := h
    exact List.forall_mem_cons.mpr ⟨⟨⟨_, hkind, List.mem_singleton_self test⟩, hbody⟩, ih hrest⟩

theorem branchesFit_of_branches {branches : List (Expr × List Step)}
    (h : Marked P (Step.outlineBranches branches)) : BranchesFit P branches := by
  cases branches with
  | nil => exact fun _ hbranch => absurd hbranch List.not_mem_nil
  | cons branch rest =>
    obtain ⟨test, body⟩ := branch
    rw [Step.outlineBranches, marked_append, marked_nest] at h
    obtain ⟨⟨hkind, hbody⟩, hrest⟩ := h
    exact List.forall_mem_cons.mpr
      ⟨⟨⟨_, hkind, List.mem_singleton_self test⟩, hbody⟩, branchesFit_of_elifs hrest⟩

/-- The expression of a statement, met in one way, is met in the other. -/
theorem Rewatch.expr (hw : Rewatch engine below S P bad watch watch') {kind : StatementKind}
    (hkind : P kind) {e : Expr} (he : e ∈ kind.exprs) {s : Scene} (hs : S s s)
    (h : watch (.expr e) s) : (evalIn engine below e).Raises bad s ∨ watch' (.expr e) s :=
  hw.point (p := .expr e) hs ⟨kind, hkind, he⟩ h

/-- What a `try` has come to when its `finally` clause begins is kept. -/
theorem Primitives.tried (h : Primitives engine engine below below S E P) {body : List Step}
    {handlers : List (ExceptHead × List Step)} {otherwise : Option (List Step)}
    (hbody : Marked P (Step.outlineAll body)) (hhandlers : Marked P (Step.outlineHandlers handlers))
    (hotherwise : Marked P (Step.outlineClause .elseBranch otherwise)) :
    Agree S E (Settled.Agree E Eq) (tried engine below body handlers otherwise)
      (tried engine below body handlers otherwise) := by
  refine (h.runAll body hbody).settle.bind fun r r' hr => ?_
  cases hr with
  | @ok flow _ value =>
    subst value
    cases flow with
    | normal => exact (h.runOptional _ otherwise hotherwise).settle
    | breakLoop | continueLoop => exact .pure (.ok rfl)
  | @error e e' error =>
    rcases h.sameFault error with ⟨f, rfl, rfl⟩ | ⟨hne, hne'⟩
    · exact (h.runHandler f handlers hhandlers).settle
    · cases e with
      | fault f => exact absurd rfl (hne f)
      | _ =>
        cases e' with
        | fault f' => exact absurd rfl (hne' f')
        | _ => exact .pure (.error error)

/-- A `try` with an error pending that nothing handles fails with it, or its `finally` clause does not
come to its end. -/
theorem PendingError.raises_or_replaces {body : List Step} {handlers : List (ExceptHead × List Step)}
    {otherwise finally_ : Option (List Step)} {s t : Scene} {e : Error}
    (h : PendingError engine below body handlers otherwise s e t) (hbad : bad e)
    (he : ∀ f, e ≠ .fault f) :
    ((Step.attempt body handlers otherwise finally_).run engine below).Raises bad s ∨
      (Point.step (.attempt body handlers otherwise finally_)).Replaces engine below bad s := by
  rw [Step.run_attempt]
  cases finally_ with
  | none => exact Or.inl (.andThen (h.tried_eq he) ⟨e, t, hbad, rfl⟩)
  | some finally_ =>
    by_cases hend : ∃ u, runAll engine below finally_ t = .done .normal u
    · obtain ⟨u, hu⟩ := hend
      exact Or.inl (.andThen (h.tried_eq he) (.andThen hu ⟨e, u, hbad, rfl⟩))
    · exact Or.inr ⟨e, t, hbad, h, fun u hu => hend ⟨u, hu⟩⟩

mutual

theorem Step.MeetsWithin.rewatch (h : Primitives engine engine below below S E P)
    (hw : Rewatch engine below S P bad watch watch') : ∀ (step : Step), Marked P step.outline →
      ∀ s, S s s → step.MeetsWithin engine below watch s → (step.run engine below).Raises bad s ∨
        watch' (.step step) s ∨ step.MeetsWithin engine below watch' s
  | .output filter e => fun hstep s hs hmeets => by
    rw [Step.run]
    rw [Step.outline, marked_nest] at hstep
    rcases hw.expr hstep.1 (List.mem_singleton_self e) hs hmeets with hraises | hmeets
    · exact Or.inl hraises.bind
    · exact Or.inr (Or.inr hmeets)
  | .inclusion e => fun hstep s hs hmeets => by
    rw [Step.run]
    rw [Step.outline, marked_nest] at hstep
    rcases hw.expr hstep.1 (List.mem_singleton_self e) hs hmeets with hraises | hmeets
    · exact Or.inl (Action.Raises.bind (Action.Raises.bind hraises))
    · exact Or.inr (Or.inr hmeets)
  | .inheritance e => fun hstep s hs hmeets => by
    rw [Step.run]
    rw [Step.outline, marked_nest] at hstep
    rcases hw.expr hstep.1 (List.mem_singleton_self e) hs hmeets with hraises | hmeets
    · exact Or.inl (Action.Raises.bind (Action.Raises.bind hraises))
    · exact Or.inr (Or.inr hmeets)
  | .assign targets e => fun hstep s hs hmeets => by
    rw [Step.run]
    rw [Step.outline, marked_nest] at hstep
    rcases hw.expr hstep.1 (List.mem_singleton_self e) hs hmeets with hraises | hmeets
    · exact Or.inl hraises.bind
    · exact Or.inr (Or.inr hmeets)
  | .choose branches otherwise => fun hstep s hs hmeets => by
    rw [Step.run]
    rw [Step.outline, marked_append] at hstep
    rcases hmeets with hmeets | ⟨_, t, ht, rfl, hmeets⟩
    · rcases BranchesMeet.rewatch h hw branches (branchesFit_of_branches hstep.1) s hs hmeets with
        hraises | hmeets
      · exact Or.inl hraises.bind
      · exact Or.inr (Or.inr (Or.inl hmeets))
    · have hst := (h.runBranches branches hstep.1).done hs ht
      rcases OptionalMeets.rewatch h hw _ otherwise hstep.2 t hst hmeets with hraises | hmeets
      · exact Or.inl (.andThen ht hraises)
      · exact Or.inr (Or.inr (Or.inr ⟨none, t, ht, rfl, hmeets⟩))
  | .forEach targets iter body otherwise => fun hstep s hs hmeets => by
    rw [Step.run]
    rw [Step.outline, marked_append, marked_nest] at hstep
    obtain ⟨⟨hkind, hbody⟩, hotherwise⟩ := hstep
    have hmem : iter ∈ (StatementKind.opening (.forEach ⟨targets, iter⟩ false)).exprs :=
      List.mem_singleton_self iter
    have hsteady := h.runAll body hbody
    rcases hmeets with hmeets | ⟨v, t, ht, items, hitems, hmeets⟩
    · rcases hw.expr hkind hmem hs hmeets with hraises | hmeets
      · exact Or.inl hraises.bind
      · exact Or.inr (Or.inr (Or.inl hmeets))
    · have hst := (h.eval hkind hmem).done hs ht
      have hof : Action.ofFault v.items t = .done items t := by
        rw [hitems]
        rfl
      rcases hmeets with hmeets | ⟨_, u, hu, rfl, hmeets⟩
      · rcases ItemsMeet.rewatch (h.bindTargets targets) hsteady
          (MeetsAll.rewatch h hw body hbody) hst hmeets with hraises | hmeets
        · exact Or.inl (.andThen ht (.andThen hof hraises.bind))
        · exact Or.inr (Or.inr (Or.inr ⟨v, t, ht, items, hitems, Or.inl hmeets⟩))
      · have hsu := (h.forItems targets hsteady items).done hst hu
        rcases OptionalMeets.rewatch h hw _ otherwise hotherwise u hsu hmeets with hraises | hmeets
        · exact Or.inl (.andThen ht (.andThen hof (.andThen hu hraises)))
        · exact Or.inr (Or.inr (Or.inr
            ⟨v, t, ht, items, hitems, Or.inr ⟨false, u, hu, rfl, hmeets⟩⟩))
  | .whileTest test body otherwise => fun hstep s hs hmeets => by
    rw [Step.run]
    rw [Step.outline, marked_append, marked_nest] at hstep
    obtain ⟨⟨hkind, hbody⟩, hotherwise⟩ := hstep
    have hmem : test ∈ (StatementKind.opening (.whileTest test)).exprs :=
      List.mem_singleton_self test
    have htest := h.testIn hkind hmem
    have hsteady := h.runAll body hbody
    rcases hmeets with hmeets | ⟨_, t, ht, rfl, hmeets⟩
    · have htests : ∀ s, S s s → watch (.expr test) s →
          (testIn engine below test).Raises bad s ∨ watch' (.expr test) s := fun s hs hmeets =>
        (hw.expr hkind hmem hs hmeets).imp_left Action.Raises.bind
      rcases TurnsMeet.rewatch htest hsteady htests (MeetsAll.rewatch h hw body hbody) hs hmeets with
        hraises | hmeets
      · exact Or.inl hraises.bind
      · exact Or.inr (Or.inr (Or.inl hmeets))
    · have hst := (Primitives.whileTurns htest hsteady below.turns).done hs ht
      rcases OptionalMeets.rewatch h hw _ otherwise hotherwise t hst hmeets with hraises | hmeets
      · exact Or.inl (.andThen ht hraises)
      · exact Or.inr (Or.inr (Or.inr ⟨false, t, ht, rfl, hmeets⟩))
  | .withBinding e newName body => fun hstep s hs hmeets => by
    rw [Step.run]
    rw [Step.outline, marked_nest] at hstep
    have hmem : e ∈ (StatementKind.opening (.withBinding ⟨e, newName⟩ false)).exprs :=
      List.mem_singleton_self e
    rcases hmeets with hmeets | ⟨v, t, ht, hmeets⟩
    · rcases hw.expr hstep.1 hmem hs hmeets with hraises | hmeets
      · exact Or.inl hraises.bind
      · exact Or.inr (Or.inr (Or.inl hmeets))
    · have hst := (h.eval hstep.1 hmem).done hs ht
      have hbound : S (newName.elim t fun name => t.bind name v)
          (newName.elim t fun name => t.bind name v) := by
        cases newName with
        | none => exact hst
        | some name => exact h.bind name v hst
      rcases MeetsAll.rewatch h hw body hstep.2 _ hbound hmeets with hraises | hmeets
      · refine Or.inl (.andThen ht ?_)
        cases newName with
        | none => exact hraises
        | some name => exact hraises
      · exact Or.inr (Or.inr (Or.inr ⟨v, t, ht, hmeets⟩))
  | .attempt body handlers otherwise finally_ => fun hstep s hs hmeets => by
    have hmarked := hstep
    simp only [Step.outline, marked_append, marked_nest] at hstep
    obtain ⟨⟨-, hbody⟩, hhandlers, hotherwise, hfinally⟩ := hstep
    have hsteady := h.runAll body hbody
    -- What fails before the `finally` clause is pending there.
    have hpending : (∃ e t, bad e ∧ PendingError engine below body handlers otherwise s e t) →
        ((Step.attempt body handlers otherwise finally_).run engine below).Raises bad s ∨
          watch' (.step (.attempt body handlers otherwise finally_)) s := by
      rintro ⟨e, t, hbad, hpending⟩
      exact (hpending.raises_or_replaces hbad (hw.unhandled hbad)).imp_right
        (hw.replaced hs hmarked)
    rcases hmeets with hmeets | ⟨f, t, ht, hmeets⟩ | ⟨t, ht, hmeets⟩ | ⟨result, t, ht, hmeets⟩
    · rcases MeetsAll.rewatch h hw body hbody s hs hmeets with ⟨e, t, hbad, ht⟩ | hmeets
      · exact (hpending ⟨e, t, hbad, .body ht⟩).imp_right Or.inl
      · exact Or.inr (Or.inr (Or.inl hmeets))
    · have hst := hsteady.failed hs ht
      rcases HandlersMeet.rewatch h hw f handlers hhandlers t hst hmeets with
        ⟨e, u, hbad, hu⟩ | hmeets
      · exact (hpending ⟨e, u, hbad, .handler ht hu⟩).imp_right Or.inl
      · exact Or.inr (Or.inr (Or.inr (Or.inl ⟨f, t, ht, hmeets⟩)))
    · have hst := hsteady.done hs ht
      rcases OptionalMeets.rewatch h hw _ otherwise hotherwise t hst hmeets with
        ⟨e, u, hbad, hu⟩ | hmeets
      · exact (hpending ⟨e, u, hbad, .otherwise ht hu⟩).imp_right Or.inl
      · exact Or.inr (Or.inr (Or.inr (Or.inr (Or.inl ⟨t, ht, hmeets⟩))))
    · have hst := (h.tried hbody hhandlers hotherwise).done hs ht
      rcases OptionalMeets.rewatch h hw _ finally_ hfinally t hst hmeets with hraises | hmeets
      · rw [Step.run_attempt]
        exact Or.inl (.andThen ht hraises.bind)
      · exact Or.inr (Or.inr (Or.inr (Or.inr (Or.inr ⟨result, t, ht, hmeets⟩))))
  | .raise head => fun hstep s hs hmeets => by
    rw [Step.run]
    rw [Step.outline, marked_nest] at hstep
    obtain ⟨e, he, hmeets⟩ := hmeets
    cases head with
    | none => exact absurd he (Option.not_mem_none e)
    | some head =>
      have he : head.message = some e := he
      have hmem : e ∈ (StatementKind.inline (.raise (some head))).exprs := by
        rw [StatementKind.exprs, he]
        exact List.mem_singleton_self e
      rcases hw.expr hstep.1 hmem hs hmeets with hraises | hmeets
      · refine Or.inl (Action.Raises.bind (Action.Raises.bind ?_))
        rw [he]
        exact hraises.bind
      · exact Or.inr (Or.inr ⟨e, he, hmeets⟩)
  | .assertion head => fun hstep s hs hmeets => by
    rw [Step.run]
    rw [Step.outline, marked_nest] at hstep
    have htest : head.test ∈ (StatementKind.inline (.assertion head)).exprs :=
      List.mem_cons_self ..
    rcases hmeets with hmeets | ⟨_, t, ht, rfl, e, he, hmeets⟩
    · rcases hw.expr hstep.1 htest hs hmeets with hraises | hmeets
      · exact Or.inl (Action.Raises.bind hraises.bind)
      · exact Or.inr (Or.inr (Or.inl hmeets))
    · have hst := (h.testIn hstep.1 htest).done hs ht
      have he : head.message = some e := he
      have hmem : e ∈ (StatementKind.inline (.assertion head)).exprs := by
        rw [StatementKind.exprs, he]
        exact List.mem_cons_of_mem _ (List.mem_singleton_self e)
      rcases hw.expr hstep.1 hmem hst hmeets with hraises | hmeets
      · refine Or.inl (.andThen ht (Action.Raises.bind ?_))
        rw [he]
        exact hraises.bind
      · exact Or.inr (Or.inr (Or.inr ⟨false, t, ht, rfl, e, he, hmeets⟩))
  | .text _ | .block _ | .importModule _ | .importNames _ | .declareGlobal _ | .breakLoop
  | .continueLoop | .comment _ => fun _ _ _ hmeets => False.elim hmeets

theorem MeetsAll.rewatch (h : Primitives engine engine below below S E P)
    (hw : Rewatch engine below S P bad watch watch') : ∀ (steps : List Step),
      Marked P (Step.outlineAll steps) → ∀ s, S s s → MeetsAll engine below watch steps s →
        (runAll engine below steps).Raises bad s ∨ MeetsAll engine below watch' steps s
  | [] => fun _ _ _ hmeets => False.elim hmeets
  | step :: rest => fun hsteps s hs hmeets => by
    rw [runAll]
    rw [Step.outlineAll_cons, marked_append] at hsteps
    rcases hmeets with hmeets | hmeets | ⟨_, t, ht, rfl, hmeets⟩
    · rcases hw.point (p := .step step) hs hsteps.1 hmeets with hraises | hmeets
      · exact Or.inl (Action.Raises.bind hraises)
      · exact Or.inr (Or.inl hmeets)
    · rcases Step.MeetsWithin.rewatch h hw step hsteps.1 s hs hmeets with hraises | hmeets
      · exact Or.inl hraises.bind
      · exact Or.inr (hmeets.imp_right Or.inl)
    · have hst := (h.run step hsteps.1).done hs ht
      rcases MeetsAll.rewatch h hw rest hsteps.2 t hst hmeets with hraises | hmeets
      · exact Or.inl (.andThen ht hraises)
      · exact Or.inr (Or.inr (Or.inr ⟨.normal, t, ht, rfl, hmeets⟩))

theorem OptionalMeets.rewatch (h : Primitives engine engine below below S E P)
    (hw : Rewatch engine below S P bad watch watch') (c : Clause) : ∀ (steps : Option (List Step)),
      Marked P (Step.outlineClause c steps) → ∀ s, S s s →
        OptionalMeets engine below watch steps s → (runOptional engine below steps).Raises bad s ∨
          OptionalMeets engine below watch' steps s
  | none => fun _ _ _ hmeets => False.elim hmeets
  | some body => fun hsteps s hs hmeets => by
    rw [runOptional]
    rw [Step.outlineClause, marked_nest] at hsteps
    exact MeetsAll.rewatch h hw body hsteps.2 s hs hmeets

theorem BranchesMeet.rewatch (h : Primitives engine engine below below S E P)
    (hw : Rewatch engine below S P bad watch watch') : ∀ (branches : List (Expr × List Step)),
      BranchesFit P branches → ∀ s, S s s → BranchesMeet engine below watch branches s →
        (runBranches engine below branches).Raises bad s ∨
          BranchesMeet engine below watch' branches s
  | [] => fun _ _ _ hmeets => False.elim hmeets
  | (test, body) :: rest => fun hbranches s hs hmeets => by
    rw [runBranches]
    obtain ⟨⟨⟨kind, hkind, hmem⟩, hbody⟩, hrest⟩ := List.forall_mem_cons.mp hbranches
    rcases hmeets with hmeets | ⟨holds, t, ht, hmeets⟩
    · rcases hw.expr hkind hmem hs hmeets with hraises | hmeets
      · exact Or.inl (Action.Raises.bind hraises.bind)
      · exact Or.inr (Or.inl hmeets)
    · have hst := (h.testIn hkind hmem).done hs ht
      rcases hmeets with ⟨rfl, hmeets⟩ | ⟨rfl, hmeets⟩
      · rcases MeetsAll.rewatch h hw body hbody t hst hmeets with hraises | hmeets
        · exact Or.inl (.andThen ht hraises.bind)
        · exact Or.inr (Or.inr ⟨true, t, ht, Or.inl ⟨rfl, hmeets⟩⟩)
      · rcases BranchesMeet.rewatch h hw rest hrest t hst hmeets with hraises | hmeets
        · exact Or.inl (.andThen ht hraises)
        · exact Or.inr (Or.inr ⟨false, t, ht, Or.inr ⟨rfl, hmeets⟩⟩)

theorem HandlersMeet.rewatch (h : Primitives engine engine below below S E P)
    (hw : Rewatch engine below S P bad watch watch') (fault : Fault) :
    ∀ (handlers : List (ExceptHead × List Step)), Marked P (Step.outlineHandlers handlers) →
      ∀ s, S s s → HandlersMeet engine below watch fault handlers s →
        (runHandler engine below fault handlers).Raises bad s ∨
          HandlersMeet engine below watch' fault handlers s
  | [] => fun _ _ _ hmeets => False.elim hmeets
  | (head, body) :: rest => fun hhandlers s hs hmeets => by
    rw [runHandler]
    rw [Step.outlineHandlers, marked_append, marked_nest] at hhandlers
    obtain ⟨⟨-, hbody⟩, hrest⟩ := hhandlers
    rcases hmeets with ⟨hhandles, _, t, ht, hmeets⟩ | ⟨hhandles, hmeets⟩
    · rw [if_pos hhandles]
      have hst := h.setHandling (some fault) ((h.bindFault head.newName fault).done hs ht)
      rcases MeetsAll.rewatch h hw body hbody _ hst hmeets with hraises | hmeets
      · exact Or.inl (.andThen ht (raises_handling hraises))
      · exact Or.inr (Or.inl ⟨hhandles, _, t, ht, hmeets⟩)
    · rw [if_neg (Bool.eq_false_iff.mp hhandles)]
      rcases HandlersMeet.rewatch h hw fault rest hrest s hs hmeets with hraises | hmeets
      · exact Or.inl hraises
      · exact Or.inr (Or.inr ⟨hhandles, hmeets⟩)

end

end

section

variable {watch : Point → Scene → Prop}

/-- **What a run meets, it meets in a scene with the property that it keeps**, and it is one of the
statements of the run. -/
theorem MeetsAll.exists_kept {S : Scene → Scene → Prop} {E : Error → Error → Prop}
    {P : StatementKind → Prop} (h : Primitives engine engine below below S E P) {steps : List Step}
    (hsteps : Marked P (Step.outlineAll steps)) {s : Scene} (hs : S s s)
    (hmeets : MeetsAll engine below watch steps s) :
    ∃ p u, watch p u ∧ S u u ∧ p.Fits P := by
  have hw : Rewatch engine below S P (fun _ => False) watch
      (fun p u => watch p u ∧ S u u ∧ p.Fits P) :=
    ⟨fun he => he.elim, fun hs hp h => Or.inr ⟨h, hs, hp⟩, fun {p s} _ _ h => by
      cases p with
      | expr e => exact h.elim
      | step st =>
        cases st with
        | attempt body handlers otherwise finally_ =>
          cases finally_ with
          | none => exact h.elim
          | some finally_ =>
            obtain ⟨e, t, he, -⟩ := h
            exact he.elim
        | _ => exact h.elim⟩
  rcases MeetsAll.rewatch h hw steps hsteps s hs hmeets with ⟨e, t, he, -⟩ | hmeets
  · exact he.elim
  · exact MeetsAll.exists_point steps s hmeets

end

end

end Inlay
