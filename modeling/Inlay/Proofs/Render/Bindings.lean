import Inlay.Proofs.Render.Course
import Inlay.Proofs.Render.Writers

/-!
# Bindings that fail

A statement that binds several names can fail in the middle.  Targets are bound only when the items are
counted and a module only when it is found, so these bindings are atomic: one that fails has bound nothing,
and the handler of a `try` around it sees the scene in which the binding began.  Members of a module are
looked up one after the other, each one bound before the next one is looked up: a name that the module lacks
leaves the names in front of it bound.

* `Action.Atomic`: the action does nothing to the state if it fails.
* `Action.Checks.bind_atomic`: checks in front of one change are atomic.
* `atomic_bindTargets`: the binding of targets is atomic, in an assignment and in each turn of a loop.
* `FailedLoop`, `FailedImport`: the ways in which a loop over items and an import of names fail.
* `bindings_fail`: what each binding step leaves behind that fails.
-/

namespace Inlay

variable {σ α β : Type}

/-! ## Actions that do nothing if they fail -/

namespace Action

/-- The action leaves the state alone, whether it fails or not. -/
def Checks (x : Action σ α) : Prop :=
  ∀ s, (∃ a, x s = .done a s) ∨ ∃ e, x s = .failed e s

/-- **The action does nothing to the state if it fails.** -/
def Atomic (x : Action σ α) : Prop :=
  ∀ ⦃e : Error⦄ ⦃s t : σ⦄, x s = .failed e t → t = s

theorem bind_eq_failed {x : Action σ α} {f : α → Action σ β} {e : Error} {s t : σ}
    (h : (x >>= f) s = .failed e t) : x s = .failed e t ∨ x.Then (fun a u => f a u = .failed e t) s := by
  cases hx : x s with
  | done a u => exact Or.inr ⟨a, u, hx, (bind_of_done hx f).symm.trans h⟩
  | failed e' u =>
    rw [bind_of_failed hx] at h
    cases h
    exact Or.inl rfl
  | exhausted =>
    rw [bind_of_exhausted hx] at h
    cases h

theorem checks_pure (a : α) : Checks (pure a : Action σ α) := fun _ =>
  Or.inl ⟨a, rfl⟩

theorem checks_fail (e : Error) : Checks (fail e : Action σ α) := fun _ =>
  Or.inr ⟨e, rfl⟩

theorem checks_ofFault (x : Except Fault α) : Checks (ofFault x : Action σ α) := by
  cases x with
  | error f => exact checks_fail (.fault f)
  | ok a => exact checks_pure a

theorem Checks.atomic {x : Action σ α} (hx : Checks x) : Atomic x := by
  intro e s t h
  rcases hx s with ⟨a, ha⟩ | ⟨e', he⟩
  · cases ha.symm.trans h
  · cases he.symm.trans h
    rfl

theorem atomic_update (f : σ → σ) : Atomic (update f) := by
  intro _ _ _ h
  cases h

/-- **Checks may stand in front of what is atomic.** -/
theorem Checks.bind_atomic {x : Action σ α} {f : α → Action σ β} (hx : Checks x) (hf : ∀ a, Atomic (f a)) :
    Atomic (x >>= f) := by
  intro e s t h
  rcases hx s with ⟨a, ha⟩ | ⟨e', he⟩
  · exact hf a ((bind_of_done ha f).symm.trans h)
  · cases (bind_of_failed he f).symm.trans h
    rfl

/-- What is atomic may have a result made of its own. -/
theorem Atomic.bind_pure {x : Action σ α} (hx : Atomic x) (g : α → β) :
    Atomic (x >>= fun a => pure (g a)) := by
  intro e s t h
  rcases bind_eq_failed h with h | ⟨a, u, -, h⟩
  · exact hx h
  · cases h

end Action

open Inlay.Action (Checks Atomic)

/-! ## Targets -/

/-- **Targets are bound all or not at all.** -/
theorem atomic_bindTargets (targets : List String) (v : Value) : Atomic (bindTargets targets v) := by
  have several : Atomic (Action.ofFault v.items >>= fun items =>
      if items.length < targets.length then
        Action.fail (.fault (.tooFewValues targets.length items.length))
      else if targets.length < items.length then
        Action.fail (.fault (.tooManyValues targets.length))
      else Action.update (bindEach targets items)) := by
    refine (Action.checks_ofFault v.items).bind_atomic fun items => ?_
    split
    · exact (Action.checks_fail _).atomic
    · split
      · exact (Action.checks_fail _).atomic
      · exact Action.atomic_update _
  match targets with
  | [target] => exact Action.atomic_update _
  | [] => exact several
  | _ :: _ :: _ => exact several

/-- A loop over items, which begins in a scene, begins the turn of an item in another one. -/
inductive BeginsTurn (bind : Value → Action Scene Unit) (body : Action Scene Flow) :
    List Value → Scene → Value → Scene → Prop
  | now {v : Value} {rest : List Value} {s : Scene} : BeginsTurn bind body (v :: rest) s v s
  | later {v w : Value} {rest : List Value} {s t u s' : Scene} {flow : Flow} (hbind : bind v s = .done () t)
    (hbody : body t = .done flow u) (hflow : flow ≠ .breakLoop) (h : BeginsTurn bind body rest u w s') :
    BeginsTurn bind body (v :: rest) s w s'

/-- **A loop fails in one of its turns**: in the body, or before it, and then in the scene in which the turn
has begun. -/
theorem forItems_eq_failed {bind : Value → Action Scene Unit} (hbind : ∀ v, Atomic (bind v))
    {body : Action Scene Flow} {items : List Value} {e : Error} {s t : Scene}
    (h : forItems bind body items s = .failed e t) :
    ∃ v u, BeginsTurn bind body items s v u ∧
      (bind v u = .failed e t ∧ t = u ∨ (bind v).Then (fun _ u => body u = .failed e t) u) := by
  induction items generalizing s with
  | nil => cases h
  | cons v rest ih =>
    rw [forItems] at h
    rcases Action.bind_eq_failed h with h | ⟨⟨⟩, u, hv, h⟩
    · exact ⟨v, s, .now, Or.inl ⟨h, hbind v h⟩⟩
    rcases Action.bind_eq_failed h with h | ⟨flow, u', hflow, h⟩
    · exact ⟨v, s, .now, Or.inr ⟨(), u, hv, h⟩⟩
    have hne : flow ≠ .breakLoop := by
      rintro rfl
      cases h
    have hrest : forItems bind body rest u' = .failed e t := by
      cases flow with
      | breakLoop => cases hne rfl
      | normal => exact h
      | continueLoop => exact h
    obtain ⟨w, x, hturn, hfails⟩ := ih hrest
    exact ⟨w, x, .later hv hflow hne hturn, hfails⟩

/-! ## Modules -/

theorem checks_membersOf (config : Config) (module : String) : Checks (membersOf config module) := by
  rw [membersOf]
  split
  · exact Action.checks_pure _
  · exact Action.checks_fail _

/-- **Members are bound up to the first one that the module lacks.** -/
theorem bindMembers_eq_failed {module : String} {members : Vars} {names : List (String × Option String)}
    {e : Error} {s t : Scene} (h : bindMembers module members names s = .failed e t) :
    ∃ before name newName after, names = before ++ (name, newName) :: after ∧ members.get? name = none ∧
      e = .fault (.notInModule name module) ∧ bindMembers module members before s = .done () t := by
  induction names generalizing s with
  | nil => cases h
  | cons entry rest ih =>
    obtain ⟨name, newName⟩ := entry
    cases hv : members.get? name with
    | some v =>
      rw [bindMembers, hv] at h
      obtain ⟨before, name', newName', after, rfl, hnone, he, hbefore⟩ := ih h
      refine ⟨(name, newName) :: before, name', newName', after, rfl, hnone, he, ?_⟩
      rw [bindMembers, hv]
      exact hbefore
    | none =>
      rw [bindMembers, hv] at h
      cases h
      exact ⟨[], name, newName, rest, rfl, hv, rfl, rfl⟩

theorem bindMembers_append (module : String) (members : Vars) (before after : List (String × Option String)) :
    bindMembers module members (before ++ after) =
      bindMembers module members before >>= fun _ => bindMembers module members after := by
  induction before with
  | nil => rfl
  | cons entry before ih =>
    obtain ⟨name, newName⟩ := entry
    rw [List.cons_append, bindMembers, bindMembers, ih]
    cases members.get? name with
    | some v => exact (bind_assoc _ _ _).symm
    | none => rfl

theorem membersOf_eq_done {config : Config} {module : String} {members : Vars} {s t : Scene}
    (h : membersOf config module s = .done members t) :
    config.modules.get? module = some members ∧ t = s := by
  cases hmodule : config.modules.get? module with
  | some members' =>
    rw [membersOf, hmodule] at h
    cases h
    exact ⟨rfl, rfl⟩
  | none =>
    rw [membersOf, hmodule] at h
    cases h

theorem membersOf_eq_failed {config : Config} {module : String} {e : Error} {s t : Scene}
    (h : membersOf config module s = .failed e t) :
    config.modules.get? module = none ∧ e = .fault (.noModule module) ∧ t = s := by
  cases hmodule : config.modules.get? module with
  | some members =>
    rw [membersOf, hmodule] at h
    cases h
  | none =>
    rw [membersOf, hmodule] at h
    cases h
    exact ⟨rfl, rfl, rfl⟩

/-! ## Binding steps -/

/-- How an import of names fails: without the module nothing is bound, and without one of the names the names
in front of the first such name are. -/
inductive FailedImport (config : Config) (head : FromHead) : Error → Scene → Scene → Prop
  | noModule {s : Scene} (hmodule : config.modules.get? head.module = none) :
    FailedImport config head (.fault (.noModule head.module)) s s
  | noMember {members : Vars} {before after : List (String × Option String)} {name : String}
    {newName : Option String} {s t : Scene} (hmodule : config.modules.get? head.module = some members)
    (hnames : head.names = before ++ (name, newName) :: after) (hname : members.get? name = none)
    (hbefore : bindMembers head.module members before s = .done () t) :
    FailedImport config head (.fault (.notInModule name head.module)) s t

/-- How a loop over items fails: in its expression, behind it for a value without items, before the body of a
turn, in the body, or behind the turns. -/
inductive FailedLoop (engine : Engine) (below : Below) (targets : List String) (iter : Expr)
    (body : List Step) (otherwise : Option (List Step)) : Error → Scene → Scene → Prop
  | iter {e : Error} {s t : Scene} (hiter : evalIn engine below iter s = .failed e t) :
    FailedLoop engine below targets iter body otherwise e s t
  | items {v : Value} {f : Fault} {s t : Scene} (hiter : evalIn engine below iter s = .done v t)
    (hitems : v.items = .error f) : FailedLoop engine below targets iter body otherwise (.fault f) s t
  | binding {v w : Value} {items : List Value} {e : Error} {s t u : Scene}
    (hiter : evalIn engine below iter s = .done v u) (hitems : v.items = .ok items)
    (hturn : BeginsTurn (bindTargets targets) (runAll engine below body) items u w t)
    (hbind : bindTargets targets w t = .failed e t) :
    FailedLoop engine below targets iter body otherwise e s t
  | turn {v w : Value} {items : List Value} {e : Error} {s t u u' x : Scene}
    (hiter : evalIn engine below iter s = .done v u) (hitems : v.items = .ok items)
    (hturn : BeginsTurn (bindTargets targets) (runAll engine below body) items u w u')
    (hbind : bindTargets targets w u' = .done () x) (hbody : runAll engine below body x = .failed e t) :
    FailedLoop engine below targets iter body otherwise e s t
  | otherwise {v : Value} {items : List Value} {e : Error} {s t u u' : Scene}
    (hiter : evalIn engine below iter s = .done v u) (hitems : v.items = .ok items)
    (hloop : forItems (bindTargets targets) (runAll engine below body) items u = .done false u')
    (hbehind : runOptional engine below otherwise u' = .failed e t) :
    FailedLoop engine below targets iter body otherwise e s t

/-- Nothing is bound by an import that fails on the first of its names. -/
theorem FailedImport.eq_of_first {config : Config} {head : FromHead} {e : Error} {s t : Scene}
    (h : FailedImport config head e s t)
    (hfirst : ∀ members, config.modules.get? head.module = some members →
      ∀ n ∈ head.names.head?, members.get? n.1 = none) : t = s := by
  cases h with
  | noModule => rfl
  | @noMember members before after name newName _ _ hmodule hnames _ hbefore =>
    cases before with
    | nil =>
      cases hbefore
      rfl
    | cons n before =>
      have hnone := hfirst members hmodule n (by rw [hnames]; rfl)
      obtain ⟨n, newName'⟩ := n
      rw [bindMembers, hnone] at hbefore
      cases hbefore

variable {engine : Engine} {below : Below}

theorem assign_eq_failed {targets : List String} {expr : Expr} {e : Error} {s t : Scene}
    (h : (Step.assign targets expr).run engine below s = .failed e t) :
    evalIn engine below expr s = .failed e t ∨ ∃ v, evalIn engine below expr s = .done v t := by
  rw [Step.run] at h
  rcases Action.bind_eq_failed h with h | ⟨v, u, hv, h⟩
  · exact Or.inl h
  · obtain rfl := (atomic_bindTargets targets v).bind_pure (fun _ => Flow.normal) h
    exact Or.inr ⟨v, hv⟩

theorem forEach_eq_failed {targets : List String} {iter : Expr} {body : List Step}
    {otherwise : Option (List Step)} {e : Error} {s t : Scene}
    (h : (Step.forEach targets iter body otherwise).run engine below s = .failed e t) :
    FailedLoop engine below targets iter body otherwise e s t := by
  rw [Step.run] at h
  rcases Action.bind_eq_failed h with h | ⟨v, u, hiter, h⟩
  · exact .iter h
  cases hitems : v.items with
  | error f =>
    rw [hitems] at h
    cases h
    exact .items hiter hitems
  | ok items =>
    rw [hitems] at h
    have hturns : (forItems (bindTargets targets) (runAll engine below body) items >>= fun left =>
        if left then pure Flow.normal else runOptional engine below otherwise) u = .failed e t := h
    rcases Action.bind_eq_failed hturns with h | ⟨left, u', hloop, h⟩
    · obtain ⟨w, u', hturn, ⟨hbind, rfl⟩ | ⟨⟨⟩, x, hbind, hbody⟩⟩ :=
        forItems_eq_failed (atomic_bindTargets targets) h
      · exact .binding hiter hitems hturn hbind
      · exact .turn hiter hitems hturn hbind hbody
    · cases left with
      | true => cases h
      | false => exact .otherwise hiter hitems hloop h

theorem atomic_importModule (head : ImportHead) : Atomic ((Step.importModule head).run engine below) := by
  rw [Step.run]
  refine (checks_membersOf _ _).bind_atomic fun members => ?_
  exact (Action.atomic_update _).bind_pure _

theorem FailedImport.of_importNames {head : FromHead} {e : Error} {s t : Scene}
    (h : (Step.importNames head).run engine below s = .failed e t) :
    FailedImport engine.config head e s t := by
  rw [Step.run] at h
  rcases Action.bind_eq_failed h with h | ⟨members, u, hmembers, hbind⟩
  · obtain ⟨hmodule, rfl, rfl⟩ := membersOf_eq_failed h
    exact .noModule hmodule
  obtain ⟨hmodule, rfl⟩ := membersOf_eq_done hmembers
  rcases Action.bind_eq_failed hbind with hbind | ⟨-, u', -, hnormal⟩
  · obtain ⟨before, name, newName, after, hnames, hname, rfl, hbefore⟩ := bindMembers_eq_failed hbind
    exact .noMember hmodule hnames hname hbefore
  · cases hnormal

theorem FailedImport.importNames {head : FromHead} {e : Error} {s t : Scene}
    (h : FailedImport engine.config head e s t) :
    (Step.importNames head).run engine below s = .failed e t := by
  rw [Step.run]
  cases h with
  | noModule hmodule =>
    rw [membersOf, hmodule]
    rfl
  | noMember hmodule hnames hname hbefore =>
    rw [membersOf, hmodule, pure_bind, hnames, bindMembers_append, bind_assoc, Action.bind_of_done hbefore,
      bindMembers, hname]
    rfl

/-- **What binding steps leave behind that fail.** -/
structure BindingsFail (engine : Engine) (below : Below) : Prop where
  /-- Targets are bound all or not at all. -/
  bind (targets : List String) (v : Value) : Atomic (bindTargets targets v)
  /-- An assignment fails in its expression, or in the scene that the expression has left. -/
  assign {targets : List String} {expr : Expr} {e : Error} {s t : Scene} :
    (Step.assign targets expr).run engine below s = .failed e t →
      evalIn engine below expr s = .failed e t ∨ ∃ v, evalIn engine below expr s = .done v t
  /-- A loop whose targets cannot be bound fails in the scene in which the turn has begun. -/
  forEach {targets : List String} {iter : Expr} {body : List Step} {otherwise : Option (List Step)}
      {e : Error} {s t : Scene} : (Step.forEach targets iter body otherwise).run engine below s = .failed e t →
    FailedLoop engine below targets iter body otherwise e s t
  /-- A module is bound or not. -/
  importModule (head : ImportHead) : Atomic ((Step.importModule head).run engine below)
  /-- Names are bound up to the first one that the module lacks. -/
  importNames {head : FromHead} {e : Error} {s t : Scene} :
    (Step.importNames head).run engine below s = .failed e t ↔ FailedImport engine.config head e s t
  /-- Nothing is bound if the first of the names is the one that is missing. -/
  importFirst {head : FromHead} : (∀ members, engine.config.modules.get? head.module = some members →
    ∀ n ∈ head.names.head?, members.get? n.1 = none) → Atomic ((Step.importNames head).run engine below)
  /-- The handlers of a `try` begin in the scene in which its body has failed. -/
  handled {body : List Step} {handlers : List (ExceptHead × List Step)} {otherwise : Option (List Step)}
      {f : Fault} {s t : Scene} : runAll engine below body s = .failed (.fault f) t →
    tried engine below body handlers otherwise s = Action.settle (runHandler engine below f handlers) t

/-- **A binding step that fails has bound nothing**, if it is not an import of several names: this one has
bound the names in front of the first one that the module lacks. -/
theorem bindings_fail (engine : Engine) (below : Below) : BindingsFail engine below where
  bind := atomic_bindTargets
  assign := assign_eq_failed
  forEach := forEach_eq_failed
  importModule := atomic_importModule
  importNames := ⟨.of_importNames, FailedImport.importNames⟩
  importFirst hfirst _ _ _ h := (FailedImport.of_importNames h).eq_of_first hfirst
  handled h := Action.bind_of_done (Action.settle_of_failed h) _

/-- A configuration with a module of one member. -/
def siteConfig : Config :=
  Config.default.withModule "site" [("name", .str "new")]

/-- A `try` around an import of names, whose handler shows what a name is bound to. -/
def importing (names : String) : String :=
  s!"<% try %><% from site import {names} %><% except ImportError %><%= name %><% end %>"

/-- The text of an import of names in a rendering in which the name is bound already. -/
def importedText (names : String) : Option String :=
  (Template.parse siteConfig "page.html" (importing names)).toOption.bind fun t =>
    textOf (t.render ⟨siteConfig, .absent⟩ 9 [("name", .str "old")] .empty)

/-- The handler sees that the name in front of the missing one is bound. -/
theorem importedText_missing :
    importedText "name, missing" = some "new" ∧ importedText "missing, name" = some "old" := by
  decide +kernel

end Inlay
