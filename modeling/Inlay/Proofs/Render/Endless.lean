import Inlay.Proofs.Render.Course
import Inlay.Proofs.Render.Expressions

/-!
# Runs without an end

Most of what steps do comes to an end by itself.  So a run that has none comes to something that has
none: a loop with a test, or an expression, a block or a template.

* `Action.Ends`: an action that comes to an end; `Expr.ends_eval`: evaluations that do.
* `Endless`: what has no end by itself.
* `MeetsAll.of_exhausted`: a run without an end comes to something without an end.
-/

namespace Inlay

/-! ## Actions that end -/

namespace Action

variable {σ α β : Type}

/-- The action ends, in whatever state it begins. -/
def Ends (x : Action σ α) : Prop :=
  ∀ s, x s ≠ .exhausted

theorem bind_eq_exhausted {x : Action σ α} {f : α → Action σ β} {s : σ}
    (h : (x >>= f) s = .exhausted) : x s = .exhausted ∨ x.Then (fun a t => f a t = .exhausted) s := by
  cases hx : x s with
  | done a t => exact Or.inr ⟨a, t, hx, (bind_of_done hx f).symm.trans h⟩
  | failed e t =>
    rw [bind_of_failed hx] at h
    cases h
  | exhausted => exact Or.inl rfl

theorem ofFault_ok (a : α) (s : σ) : (ofFault (.ok a) : Action σ α) s = .done a s := rfl

theorem settle_eq_exhausted {x : Action σ α} {s : σ} (h : settle x s = .exhausted) :
    x s = .exhausted := by
  rw [settle] at h
  split at h
  · cases h
  · cases h
  · assumption

namespace Ends

theorem pure (a : α) : Ends (Pure.pure a : Action σ α) :=
  nofun

theorem fail (e : Error) : Ends (Action.fail e : Action σ α) :=
  nofun

theorem update (f : σ → σ) : Ends (Action.update f) :=
  nofun

theorem read : Ends (Action.read : Action σ σ) :=
  nofun

theorem ofFault (x : Except Fault α) : Ends (Action.ofFault x : Action σ α) := by
  cases x with
  | ok a => exact pure a
  | error f => exact fail _

theorem bind {x : Action σ α} {f : α → Action σ β} (hx : Ends x) (hf : ∀ a, Ends (f a)) :
    Ends (x >>= f) := by
  intro s h
  rcases bind_eq_exhausted h with h | ⟨a, t, -, h⟩
  · exact hx s h
  · exact hf a t h

end Ends

end Action

open Inlay.Action (Ends)

theorem Scene.ends_write (text : String) : Ends (Scene.write text) := by
  intro s h
  rw [Scene.write] at h
  split at h <;> cases h

theorem ends_bindTargets (targets : List String) (v : Value) : Ends (bindTargets targets v) := by
  have several : Ends (Action.ofFault v.items >>= fun items =>
      if items.length < targets.length then
        Action.fail (.fault (.tooFewValues targets.length items.length))
      else if targets.length < items.length then
        Action.fail (.fault (.tooManyValues targets.length))
      else Action.update (bindEach targets items)) := by
    refine (Ends.ofFault v.items).bind fun items => ?_
    split
    · exact .fail _
    · split
      · exact .fail _
      · exact .update _
  match targets with
  | [target] => exact .update _
  | [] => exact several
  | _ :: _ :: _ => exact several

theorem ends_membersOf (config : Config) (module : String) : Ends (membersOf config module) := by
  rw [membersOf]
  split
  · exact .pure _
  · exact .fail _

theorem ends_bindMembers (module : String) (members : Vars) (names : List (String × Option String)) :
    Ends (bindMembers module members names) := by
  induction names with
  | nil => exact .pure _
  | cons entry rest ih =>
    obtain ⟨name, newName⟩ := entry
    rw [bindMembers]
    split
    · exact (Ends.update _).bind fun _ => ih
    · exact .fail _

theorem ends_bindFault (newName : Option String) (fault : Fault) :
    Ends (bindFault newName fault) := by
  cases newName with
  | none => exact .pure _
  | some name => exact .update _

/-! ## Expressions -/

theorem eq_name_of_intrinsicOf? {config : Config} {frame : Frame} {space : Space} {f : Expr}
    {i : Intrinsic} (h : intrinsicOf? config frame space f = some i) : f = .name i.name := by
  unfold intrinsicOf? at h
  split at h
  · split at h
    · rw [Intrinsic.name_of_ofName? h]
    · cases h
  · cases h

theorem ends_evalMember (v : Value) (name : String) : Ends (evalMember v name) :=
  fun w => Ends.ofFault (Value.member w.made v name) _

theorem ends_checkCallable (v : Value) : Ends (checkCallable v) := by
  unfold checkCallable
  split
  · exact .pure _
  · exact .fail _

theorem ends_callValue (config : Config) (f : Value) (args : List Value) :
    Ends (callValue config f args) := by
  unfold callValue
  split
  · exact .ofFault _
  · exact .fail _

theorem ends_entryKey (v : Value) : Ends (entryKey v) := by
  unfold entryKey
  split
  · exact .pure _
  · exact .fail _

/-- What the child wrote is there. -/
theorem Intrinsic.ends_body (draw : DrawBlock) (frame : Frame) (args : List Value) :
    Ends (Intrinsic.body.call draw frame args) := by
  unfold Intrinsic.call
  dsimp only
  split
  · exact (Ends.fail _).bind fun _ : Unit => Ends.read.bind fun _ => .pure _
  · exact Ends.read.bind fun _ => .pure _

section

/-- The functions that need the space end, those of them that are mentioned. -/
def CallsEnd (draw : DrawBlock) (frame : Frame) (M : Mention → Prop) : Prop :=
  ∀ (i : Intrinsic) (args : List Value), M (.callee i.name) → Ends (i.call draw frame args)

variable {config : Config} {draw : DrawBlock} {frame : Frame} {M : Mention → Prop}

mutual

/-- **An evaluation ends** if the functions that need the space do. -/
theorem Expr.ends_eval (h : CallsEnd draw frame M) : ∀ e : Expr, (∀ m ∈ e.mentions, M m) →
    Ends (e.eval config draw frame)
  | .lit v => fun _ => by
    rw [Expr.eval]
    exact .pure v
  | .name n => fun _ => by
    rw [Expr.eval]
    refine Ends.read.bind fun w => ?_
    split
    · exact .pure _
    · exact .fail _
  | .list items => fun hm => by
    rw [Expr.eval]
    rw [Expr.mentions] at hm
    exact (ends_evalAll h items hm).bind fun _ => .pure _
  | .map entries => fun hm => by
    rw [Expr.eval]
    rw [Expr.mentions] at hm
    exact (ends_evalEntries h [] entries hm).bind fun _ => .pure _
  | .member e name => fun hm => by
    rw [Expr.eval]
    rw [Expr.mentions] at hm
    exact (Expr.ends_eval h e hm).bind fun v => ends_evalMember v name
  | .index a b => fun hm => by
    rw [Expr.eval]
    rw [Expr.mentions, List.forall_mem_append] at hm
    exact (Expr.ends_eval h a hm.1).bind fun _ => (Expr.ends_eval h b hm.2).bind fun _ => .ofFault _
  | .call f args => fun hm => by
    rw [Expr.eval]
    rw [Expr.mentions_call, List.forall_mem_append] at hm
    obtain ⟨hf, hargs⟩ := hm
    refine Ends.read.bind fun w => ?_
    cases hi : intrinsicOf? config frame w.space f with
    | some i =>
      obtain rfl := eq_name_of_intrinsicOf? hi
      have hname : M (.callee i.name) := hf _ (List.mem_singleton_self _)
      exact (ends_evalAll h args hargs).bind fun values => h i values hname
    | none =>
      have hcallee : Ends (f.eval config draw frame) := by
        match f with
        | .name n =>
          rw [Expr.eval]
          refine Ends.read.bind fun w => ?_
          split
          · exact .pure _
          · exact .fail _
        | .lit _ | .list _ | .map _ | .member .. | .index .. | .call .. | .neg _ | .not _
        | .binary .. | .and .. | .or .. | .cond .. => exact Expr.ends_eval h _ hf
      refine hcallee.bind fun callee => (ends_checkCallable callee).bind fun _ => ?_
      exact (ends_evalAll h args hargs).bind fun values => ends_callValue config callee values
  | .neg e => fun hm => by
    rw [Expr.eval]
    rw [Expr.mentions] at hm
    exact (Expr.ends_eval h e hm).bind fun _ => .ofFault _
  | .not e => fun hm => by
    rw [Expr.eval]
    rw [Expr.mentions] at hm
    exact (Expr.ends_eval h e hm).bind fun _ => .pure _
  | .binary op a b => fun hm => by
    rw [Expr.eval]
    rw [Expr.mentions, List.forall_mem_append] at hm
    exact (Expr.ends_eval h a hm.1).bind fun _ => (Expr.ends_eval h b hm.2).bind fun _ => .ofFault _
  | .and a b => fun hm => by
    rw [Expr.eval]
    rw [Expr.mentions, List.forall_mem_append] at hm
    refine (Expr.ends_eval h a hm.1).bind fun x => ?_
    split
    · exact Expr.ends_eval h b hm.2
    · exact .pure x
  | .or a b => fun hm => by
    rw [Expr.eval]
    rw [Expr.mentions, List.forall_mem_append] at hm
    refine (Expr.ends_eval h a hm.1).bind fun x => ?_
    split
    · exact .pure x
    · exact Expr.ends_eval h b hm.2
  | .cond test a b => fun hm => by
    rw [Expr.eval]
    rw [Expr.mentions, List.forall_mem_append, List.forall_mem_append] at hm
    refine (Expr.ends_eval h test hm.1).bind fun x => ?_
    split
    · exact Expr.ends_eval h a hm.2.1
    · exact Expr.ends_eval h b hm.2.2

theorem ends_evalAll (h : CallsEnd draw frame M) : ∀ es : List Expr,
    (∀ m ∈ Expr.mentionsAll es, M m) → Ends (evalAll config draw frame es)
  | [] => fun _ => by
    rw [evalAll]
    exact .pure _
  | e :: rest => fun hm => by
    rw [evalAll]
    rw [Expr.mentionsAll, List.forall_mem_append] at hm
    exact (Expr.ends_eval h e hm.1).bind fun _ => (ends_evalAll h rest hm.2).bind fun _ => .pure _

theorem ends_evalEntries (h : CallsEnd draw frame M) (found : Dict Value) :
    ∀ entries : List (Expr × Expr), (∀ m ∈ Expr.mentionsEntries entries, M m) →
      Ends (evalEntries config draw frame found entries)
  | [] => fun _ => by
    rw [evalEntries]
    exact .pure _
  | (k, e) :: rest => fun hm => by
    rw [evalEntries]
    rw [Expr.mentionsEntries, List.forall_mem_append, List.forall_mem_append] at hm
    refine (Expr.ends_eval h k hm.1).bind fun key => (ends_entryKey key).bind fun key => ?_
    exact (Expr.ends_eval h e hm.2.1).bind fun v => ends_evalEntries h _ rest hm.2.2

end

end

/-! ## What has no end -/

section

variable (engine : Engine) (below : Below)

/-- What a run without an end comes to: a loop with a test, or a block, a template or an expression
that has no end. -/
def Endless : Point → Scene → Prop
  | .expr e, s => evalIn engine below e s = .exhausted
  | .step (.whileTest ..), _ => True
  | .step (.block name), s => (Step.block name).run engine below s = .exhausted
  | .step (.inclusion path), s => (Step.inclusion path).run engine below s = .exhausted
  | .step (.inheritance path), s => (Step.inheritance path).run engine below s = .exhausted
  | .step _, _ => False

variable {engine below}

theorem evalIn_of_testIn_exhausted {e : Expr} {s : Scene}
    (h : testIn engine below e s = .exhausted) : evalIn engine below e s = .exhausted := by
  rcases Action.bind_eq_exhausted h with h | ⟨v, t, -, h⟩
  · exact h
  · cases h

theorem exists_of_textIn_exhausted {e : Option Expr} {s : Scene}
    (h : textIn engine below e s = .exhausted) : ∃ e' ∈ e, evalIn engine below e' s = .exhausted := by
  cases e with
  | none => cases h
  | some e =>
    rcases Action.bind_eq_exhausted h with h | ⟨v, t, -, h⟩
    · exact ⟨e, rfl, h⟩
    · cases h

theorem ItemsMeet.of_exhausted {bind : Value → Action Scene Unit} {body : Action Scene Flow}
    {meets : Scene → Prop} (hbind : ∀ v, Ends (bind v))
    (hbody : ∀ s, body s = .exhausted → meets s) {items : List Value} {s : Scene}
    (h : forItems bind body items s = .exhausted) : ItemsMeet bind body meets items s := by
  induction items generalizing s with
  | nil => cases h
  | cons v rest ih =>
    rw [forItems] at h
    rcases Action.bind_eq_exhausted h with h | ⟨_, t, ht, h⟩
    · exact absurd h (hbind v s)
    · refine ⟨_, t, ht, ?_⟩
      rcases Action.bind_eq_exhausted h with h | ⟨flow, u, hu, h⟩
      · exact Or.inl (hbody t h)
      · cases flow with
        | breakLoop => cases h
        | normal | continueLoop => exact Or.inr ⟨_, u, hu, Flow.noConfusion, ih h⟩

theorem handling_exhausted {fault : Fault} {body : Action Scene Flow} {s : Scene}
    (h : handling fault body s = .exhausted) :
    body { s with frame.handling := some fault } = .exhausted := by
  rw [handling] at h
  split at h
  · cases h
  · cases h
  · assumption

mutual

theorem Step.meets_of_exhausted : ∀ (step : Step) (s : Scene), step.run engine below s = .exhausted →
    Endless engine below (.step step) s ∨
      step.MeetsWithin engine below (Endless engine below) s
  | .text text, s => fun h => by
    rw [Step.run] at h
    exact absurd h (((Scene.ends_write text).bind fun _ => .pure _) s)
  | .output filter e, s => fun h => by
    rw [Step.run] at h
    rcases Action.bind_eq_exhausted h with h | ⟨v, t, -, h⟩
    · exact Or.inr h
    · exact absurd h (((Scene.ends_write _).bind fun _ => .pure _) t)
  | .block name, s => fun h => Or.inl h
  | .inclusion path, s => fun h => Or.inl h
  | .inheritance path, s => fun h => Or.inl h
  | .choose branches otherwise, s => fun h => by
    rw [Step.run] at h
    refine Or.inr ?_
    rcases Action.bind_eq_exhausted h with h | ⟨flow, t, ht, h⟩
    · exact Or.inl (BranchesMeet.of_exhausted branches s h)
    · cases flow with
      | some flow => cases h
      | none => exact Or.inr ⟨none, t, ht, rfl, OptionalMeets.of_exhausted otherwise t h⟩
  | .forEach targets iter body otherwise, s => fun h => by
    rw [Step.run] at h
    refine Or.inr ?_
    rcases Action.bind_eq_exhausted h with h | ⟨v, t, ht, h⟩
    · exact Or.inl h
    · refine Or.inr ⟨v, t, ht, ?_⟩
      cases hitems : v.items with
      | error f =>
        rw [hitems] at h
        cases h
      | ok items =>
        rw [hitems] at h
        have h := (Action.bind_of_done (Action.ofFault_ok items t) _).symm.trans h
        refine ⟨items, hitems, ?_⟩
        rcases Action.bind_eq_exhausted h with h | ⟨left, u, hu, h⟩
        · exact Or.inl (ItemsMeet.of_exhausted (ends_bindTargets targets)
            (fun u hu => MeetsAll.of_exhausted body u hu) h)
        · cases left with
          | true => cases h
          | false => exact Or.inr ⟨false, u, hu, rfl, OptionalMeets.of_exhausted otherwise u h⟩
  | .whileTest test body otherwise, s => fun _ => Or.inl trivial
  | .withBinding e newName body, s => fun h => by
    rw [Step.run] at h
    refine Or.inr ?_
    rcases Action.bind_eq_exhausted h with h | ⟨v, t, ht, h⟩
    · exact Or.inl h
    · refine Or.inr ⟨v, t, ht, MeetsAll.of_exhausted body _ ?_⟩
      cases newName with
      | none => exact h
      | some name => exact h
  | .attempt body handlers otherwise finally_, s => fun h => by
    rw [Step.run_attempt] at h
    refine Or.inr ?_
    rcases Action.bind_eq_exhausted h with h | ⟨result, t, ht, h⟩
    · rw [tried] at h
      rcases Action.bind_eq_exhausted h with h | ⟨result, t, ht, h⟩
      · exact Or.inl (MeetsAll.of_exhausted body s (Action.settle_eq_exhausted h))
      · cases hbody : runAll engine below body s with
        | exhausted => exact Or.inl (MeetsAll.of_exhausted body s hbody)
        | failed e u =>
          rw [Action.settle_of_failed hbody] at ht
          cases ht
          cases e with
          | fault f =>
            have hhandler := HandlersMeet.of_exhausted f handlers t (Action.settle_eq_exhausted h)
            exact Or.inr (Or.inl ⟨f, t, hbody, hhandler⟩)
          | _ => cases h
        | done flow u =>
          rw [Action.settle_of_done hbody] at ht
          cases ht
          cases flow with
          | normal =>
            have hotherwise := OptionalMeets.of_exhausted otherwise t (Action.settle_eq_exhausted h)
            exact Or.inr (Or.inr (Or.inl ⟨t, hbody, hotherwise⟩))
          | breakLoop | continueLoop => cases h
    · refine Or.inr (Or.inr (Or.inr ⟨result, t, ht, ?_⟩))
      rcases Action.bind_eq_exhausted h with h | ⟨flow, u, -, h⟩
      · exact OptionalMeets.of_exhausted finally_ t h
      · cases flow with
        | normal => cases result <;> cases h
        | breakLoop | continueLoop => cases h
  | .assign targets e, s => fun h => by
    rw [Step.run] at h
    rcases Action.bind_eq_exhausted h with h | ⟨v, t, -, h⟩
    · exact Or.inr h
    · exact absurd h (((ends_bindTargets targets v).bind fun _ => .pure _) t)
  | .importModule head, s => fun h => by
    rw [Step.run] at h
    refine absurd h (((ends_membersOf engine.config head.module).bind fun members => ?_) s)
    exact (Ends.update _).bind fun _ => .pure _
  | .importNames head, s => fun h => by
    rw [Step.run] at h
    refine absurd h (((ends_membersOf engine.config head.module).bind fun members => ?_) s)
    exact (ends_bindMembers head.module members head.names).bind fun _ => .pure _
  | .raise head, s => fun h => by
    rw [Step.run] at h
    refine Or.inr ?_
    rcases Action.bind_eq_exhausted h with h | ⟨v, t, -, h⟩
    · cases head with
      | none => cases h
      | some head =>
        rcases Action.bind_eq_exhausted h with h | ⟨text, t, -, h⟩
        · exact exists_of_textIn_exhausted h
        · cases h
    · cases h
  | .declareGlobal names, s => fun h => by
    rw [Step.run] at h
    exact absurd h (((Ends.update _).bind fun _ => .pure _) s)
  | .assertion head, s => fun h => by
    rw [Step.run] at h
    refine Or.inr ?_
    rcases Action.bind_eq_exhausted h with h | ⟨holds, t, ht, h⟩
    · exact Or.inl (evalIn_of_testIn_exhausted h)
    · cases holds with
      | true => cases h
      | false =>
        rcases Action.bind_eq_exhausted h with h | ⟨text, u, -, h⟩
        · exact Or.inr ⟨false, t, ht, rfl, exists_of_textIn_exhausted h⟩
        · cases h
  | .breakLoop, s => fun h => by
    rw [Step.run] at h
    cases h
  | .continueLoop, s => fun h => by
    rw [Step.run] at h
    cases h
  | .comment _, s => fun h => by
    rw [Step.run] at h
    cases h

/-- **A run without an end comes to something without an end.** -/
theorem MeetsAll.of_exhausted : ∀ (steps : List Step) (s : Scene),
    runAll engine below steps s = .exhausted → MeetsAll engine below (Endless engine below) steps s
  | [], s => fun h => by
    rw [runAll] at h
    cases h
  | step :: rest, s => fun h => by
    rw [runAll] at h
    rcases Action.bind_eq_exhausted h with h | ⟨flow, t, ht, h⟩
    · exact (Step.meets_of_exhausted step s h).imp_right Or.inl
    · cases flow with
      | normal => exact Or.inr (Or.inr ⟨.normal, t, ht, rfl, MeetsAll.of_exhausted rest t h⟩)
      | breakLoop | continueLoop => cases h

theorem OptionalMeets.of_exhausted : ∀ (steps : Option (List Step)) (s : Scene),
    runOptional engine below steps s = .exhausted →
      OptionalMeets engine below (Endless engine below) steps s
  | none, s => fun h => by
    rw [runOptional] at h
    cases h
  | some body, s => fun h => by
    rw [runOptional] at h
    exact MeetsAll.of_exhausted body s h

theorem BranchesMeet.of_exhausted : ∀ (branches : List (Expr × List Step)) (s : Scene),
    runBranches engine below branches s = .exhausted →
      BranchesMeet engine below (Endless engine below) branches s
  | [], s => fun h => by
    rw [runBranches] at h
    cases h
  | (test, body) :: rest, s => fun h => by
    rw [runBranches] at h
    rcases Action.bind_eq_exhausted h with h | ⟨holds, t, ht, h⟩
    · exact Or.inl (evalIn_of_testIn_exhausted h)
    · refine Or.inr ⟨holds, t, ht, ?_⟩
      cases holds with
      | true =>
        rcases Action.bind_eq_exhausted h with h | ⟨flow, u, -, h⟩
        · exact Or.inl ⟨rfl, MeetsAll.of_exhausted body t h⟩
        · cases h
      | false => exact Or.inr ⟨rfl, BranchesMeet.of_exhausted rest t h⟩

theorem HandlersMeet.of_exhausted (fault : Fault) :
    ∀ (handlers : List (ExceptHead × List Step)) (s : Scene),
      runHandler engine below fault handlers s = .exhausted →
        HandlersMeet engine below (Endless engine below) fault handlers s
  | [], s => fun h => by
    rw [runHandler] at h
    cases h
  | (head, body) :: rest, s => fun h => by
    rw [runHandler] at h
    split at h
    · rename_i hhandles
      rcases Action.bind_eq_exhausted h with h | ⟨_, t, ht, h⟩
      · exact absurd h (ends_bindFault head.newName fault s)
      · exact Or.inl ⟨hhandles, _, t, ht, MeetsAll.of_exhausted body _ (handling_exhausted h)⟩
    · rename_i hhandles
      exact Or.inr ⟨Bool.eq_false_iff.mpr hhandles, HandlersMeet.of_exhausted fault rest s h⟩

end

end

end Inlay
