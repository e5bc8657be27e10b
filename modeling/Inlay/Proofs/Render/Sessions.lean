import Inlay.Proofs.Render.Correspondence

/-!
# Sessions with a finder

A finder is asked for templates and for renderings, one request after the other; what it has found it takes
along to the next request.  A request that has no end within the bound ends the session.

* `Finder.Request`, `Finder.Answer`: what is asked, and what can be seen of the answer.
* `Finder.answer`, `Finder.answers`: one request, and a session.
* `Correspondence.answers`: corresponding finders answer alike.
-/

namespace Inlay

namespace Finder

/-- What a finder is asked. -/
inductive Request where
  | find (path : String)
  | render (path : String) (vars : Vars)

/-- What a finder answers: what can be seen of a template, the text of a rendering, or an error. -/
inductive Answer where
  | found (path source : String) (blockNames : List String)
  | text (text : String)
  | error (e : Error)

/-- What can be seen of a template that has been looked for. -/
def Answer.ofFound : Except Error Template → Answer
  | .ok t => found t.path t.source t.blockNames
  | .error e => error e

/-- What has been rendered. -/
def Answer.ofText : Except Error String → Answer
  | .ok s => text s
  | .error e => error e

section

variable (config : Config) (load : Loader) (fuel : Nat)

/-- The answer to a request, and the templates found after it. -/
def answer (f : Finder) : Request → Option (Answer × Finder)
  | .find path =>
    let (found, f) := f.find config load path none
    some (.ofFound found, f)
  | .render path vars => do
    let (text, f) ← f.render config load fuel path vars
    return (.ofText text, f)

/-- **The answers to requests**, one after the other, and the templates found after them. -/
def answers (f : Finder) : List Request → Option (List Answer × Finder)
  | [] => some ([], f)
  | r :: rest => do
    let (a, f) ← f.answer config load fuel r
    let (as, f) ← f.answers rest
    return (a :: as, f)

end

end Finder

namespace Correspondence

variable {config config' : Config} {load load' : Loader}
  (c : Correspondence ⟨config, .loader load⟩ ⟨config', .loader load'⟩)

/-- A template that is found has one that corresponds to it, and a text is one that is drawn. -/
def Gives : Finder.Answer → Prop
  | .found path _ _ => ∃ t t', c.template t t' ∧ t.path = path
  | .text text => c.text text
  | .error _ => True

/-- Corresponding finders find alike what is asked from outside. -/
theorem find {f f' : Finder} (hf : c.finder f f') (path : String) :
    Finder.FoundAlike c.template c.finder (f.find config load path none)
      (f'.find config' load' path none) := by
  have hshelf := c.shelf
  cases hshelf with
  | loader h => exact h hf path none fun _ ho => nomatch ho

variable (fuel : Nat)

/-- They render alike what is asked from outside. -/
theorem renderFound {f f' : Finder} (hf : c.finder f f') (path : String) (vars : Vars) :
    c.Ends (f.render config load fuel path vars) (f'.render config' load' fuel path vars) := by
  have halike := c.find hf path
  rw [Finder.render, Finder.render]
  generalize f.find config load path none = r at halike ⊢
  generalize f'.find config' load' path none = r' at halike ⊢
  obtain ⟨found, finder⟩ := r
  obtain ⟨found', finder'⟩ := r'
  obtain ⟨hfound, hfinder⟩ := halike
  cases hfound with
  | ok value => exact c.render fuel value vars hfinder
  | error error => exact .some ⟨congrArg Except.error error, hfinder, fun _ h => nomatch h⟩

/-- **One request is answered alike.** -/
theorem answer {f f' : Finder} (hf : c.finder f f') (r : Finder.Request) :
    Option.Rel (fun a a' => a.1 = a'.1 ∧ c.Gives a.1 ∧ c.finder a.2 a'.2)
      (f.answer config load fuel r) (f'.answer config' load' fuel r) := by
  cases r with
  | find path =>
    have halike := c.find hf path
    rw [Finder.answer, Finder.answer]
    generalize f.find config load path none = r at halike ⊢
    generalize f'.find config' load' path none = r' at halike ⊢
    obtain ⟨found, finder⟩ := r
    obtain ⟨found', finder'⟩ := r'
    obtain ⟨hfound, hfinder⟩ := halike
    refine .some ⟨?_, ?_, hfinder⟩
    · cases hfound with
      | ok value =>
        rw [c.same value]
        rfl
      | error error => exact congrArg Finder.Answer.error error
    · cases hfound with
      | ok value => exact ⟨_, _, value, rfl⟩
      | error error => trivial
  | render path vars =>
    have hends := c.renderFound fuel hf path vars
    rw [Finder.answer, Finder.answer]
    generalize f.render config load fuel path vars = o at hends ⊢
    generalize f'.render config' load' fuel path vars = o' at hends ⊢
    cases hends with
    | none => exact .none
    | @some r r' h =>
      obtain ⟨hsame, hfinder, htext⟩ := h
      refine .some ⟨congrArg Finder.Answer.ofText hsame, ?_, hfinder⟩
      obtain ⟨e | text, f⟩ := r
      · trivial
      · exact htext text rfl

/-- **Corresponding finders answer alike**, whatever they are asked. -/
theorem answers {f f' : Finder} (hf : c.finder f f') (requests : List Finder.Request) :
    Option.Rel (fun r r' => r.1 = r'.1 ∧ (∀ a ∈ r.1, c.Gives a) ∧ c.finder r.2 r'.2)
      (f.answers config load fuel requests) (f'.answers config' load' fuel requests) := by
  induction requests generalizing f f' with
  | nil => exact .some ⟨rfl, fun _ h => absurd h List.not_mem_nil, hf⟩
  | cons r rest ih =>
    have hanswer := c.answer fuel hf r
    rw [Finder.answers, Finder.answers]
    generalize f.answer config load fuel r = o at hanswer
    generalize f'.answer config' load' fuel r = o' at hanswer
    cases hanswer with
    | none => exact .none
    | @some a a' h =>
      obtain ⟨hsame, hgives, hfinder⟩ := h
      have hrest := ih hfinder
      show Option.Rel _ (a.2.answers config load fuel rest >>= _)
        (a'.2.answers config' load' fuel rest >>= _)
      generalize a.2.answers config load fuel rest = o at hrest
      generalize a'.2.answers config' load' fuel rest = o' at hrest
      cases hrest with
      | none => exact .none
      | some h =>
        obtain ⟨hanswers, hall, hlast⟩ := h
        refine .some ⟨?_, List.forall_mem_cons.mpr ⟨hgives, hall⟩, hlast⟩
        exact List.cons_eq_cons.mpr ⟨hsame, hanswers⟩

end Correspondence

end Inlay
