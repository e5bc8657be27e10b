import Inlay.Proofs.Program.Filters
import Inlay.Proofs.Render.Sessions

/-!
# Escaped renderings

Templates that have no markup of their own, and whose output statements all escape for HTML, are rendered
without markup, whatever the variables are and whatever the functions of the host do.  Text comes to a
rendering on many ways, through loops, blocks, included templates and the bodies of children; on each of
them it is plain text of some template, or was written by an output statement, or was put together from such
texts.

* `Safe`: texts without markup; `safe_escapeHtml`: what is escaped is one.
* `StatementKind.Escaped`: the statements meant here.
* `Stock.safe_of_render`: what is rendered is safe.
* `Finder.safe_of_mem_answers`: so are all texts that a session with a finder gives.
-/

namespace Inlay

/-! ## Texts without markup -/

/-- The characters at which HTML begins or ends a tag or a value. -/
def markup : List Char :=
  ['<', '>', '"', '\'']

/-- A text without markup. -/
def Safe (text : List Char) : Prop :=
  ∀ c ∈ text, c ∉ markup

theorem safe_iff_all {text : List Char} :
    Safe text ↔ (text.all fun c => !markup.contains c) = true := by
  simp [Safe]

instance (text : List Char) : Decidable (Safe text) :=
  decidable_of_iff _ safe_iff_all.symm

theorem safe_nil : Safe [] :=
  fun _ h => absurd h List.not_mem_nil

theorem Safe.append {text text' : List Char} (h : Safe text) (h' : Safe text') :
    Safe (text ++ text') :=
  List.forall_mem_append.mpr ⟨h, h'⟩

theorem safe_escapeHtmlChar (c : Char) : Safe (escapeHtmlChar c) := by
  unfold escapeHtmlChar
  split
  · decide
  · split
    · decide
    · rename_i hless
      split
      · decide
      · rename_i hgreater
        split
        · decide
        · rename_i hdouble
          split
          · decide
          · rename_i hsingle
            simp only [beq_iff_eq] at hless hgreater hdouble hsingle
            simp [Safe, markup, hless, hgreater, hdouble, hsingle]

/-- **What is escaped has no markup.** -/
theorem safe_escapeHtml (text : List Char) : Safe (escapeHtml text) := by
  intro c hc
  obtain ⟨raw, -, hc⟩ := List.mem_flatMap.mp hc
  exact safe_escapeHtmlChar raw c hc

/-! ## Templates without markup -/

/-- The names under which output statements escape for HTML by default; one that names no filter has
the first. -/
def Filter.escaping : List String :=
  ["default", "html", "h"]

/-- The names of filters that escape have their usual meaning. -/
def Config.Escapes (config : Config) : Prop :=
  ∀ name ∈ Filter.escaping, config.filter? name = some Filter.html

theorem Config.escapes_default (host : Host) : (Config.default.withHost host).Escapes := by
  intro name hname
  simp only [Filter.escaping, List.mem_cons, List.not_mem_nil, or_false] at hname
  rcases hname with rfl | rfl | rfl
  · rfl
  · rfl
  · rfl

/-- Plain text has no markup, and output statements ask for a filter that escapes. -/
def StatementKind.Escaped : StatementKind → Prop
  | .plain text => Safe text.toList
  | .output filter _ => filter.name ∈ Filter.escaping
  | _ => True

instance : DecidablePred StatementKind.Escaped
  | .plain text => inferInstanceAs (Decidable (Safe text.toList))
  | .output filter _ => inferInstanceAs (Decidable (filter.name ∈ Filter.escaping))
  | .block _ | .inclusion _ | .inheritance _ | .opening _ | .clause _ | .ending | .inline _
  | .comment _ | .assignment .. => .isTrue trivial

/-- Plain text has no markup, and output statements write none. -/
def StatementKind.WritesSafe : StatementKind → Prop
  | .plain text => Safe text.toList
  | .output filter _ => ∀ v, Safe (filter.apply v)
  | _ => True

theorem StatementKind.Escaped.writesSafe {config : Config} (hfilters : config.Escapes)
    {kind : StatementKind} (h : kind.Escaped) (hbound : kind.Bound config) : kind.WritesSafe := by
  cases kind with
  | plain text => exact h
  | output filter e =>
    intro v
    have happly : Filter.html = filter.apply :=
      Option.some.inj ((hfilters filter.name h).symm.trans hbound)
    rw [← happly]
    exact safe_escapeHtml v.shown
  | _ => trivial

/-! ## Renderings without markup -/

namespace Stock

variable {config : Config} {shelf : Shelf}

/-- Templates without markup are rendered to texts without markup. -/
def escaping (stock : Stock ⟨config, shelf⟩) (hfilters : config.Escapes)
    (hsaid : ∀ t, stock.Has t → t.Says StatementKind.Escaped) :
    Correspondence ⟨config, shelf⟩ ⟨config, shelf⟩ where
  template t t' := t = t' ∧ stock.Has t
  finder f f' := f = f' ∧ ∀ t, Engine.Offers ⟨config, shelf⟩ f t → stock.Has t
  said := StatementKind.WritesSafe
  text s := Safe s.toList
  cache := config.cache
  config_eq := rfl
  same h := h.1 ▸ rfl
  program := by
    rintro t _ ⟨rfl, ht⟩ p hp
    let c : Compiled config := ⟨t, p, stock.parsed t ht, hp⟩
    have hescaped : c.template.Says StatementKind.Escaped := hsaid t ht
    have hbound : c.template.Says (StatementKind.Bound config) := (stock.parsed t ht).bound
    constructor
    · intro kind hkind
      exact (Compiled.marked_body hescaped kind hkind).writesSafe hfilters
        (Compiled.marked_body hbound kind hkind)
    · intro name b hb kind hkind
      exact (Compiled.marked_block hescaped hb kind hkind).writesSafe hfilters
        (Compiled.marked_block hbound hb kind hkind)
  shelf := by
    cases shelf with
    | absent => exact .absent
    | gone => exact .gone
    | loader load =>
      refine .loader ?_
      rintro f _ ⟨rfl, hoffers⟩ path origin -
      refine ⟨?_, rfl, fun t ht => hoffers t (Engine.offers_of_offers_find rfl ht)⟩
      rcases hfind : f.find config load path origin with ⟨e | t, f'⟩
      · exact .error rfl
      · exact .ok ⟨rfl, hoffers t (Engine.offers_of_find rfl hfind)⟩
  empty := safe_nil
  append := by
    intro a b ha hb
    rw [String.toList_append]
    exact ha.append hb
  plain h := h
  output h v := by
    rw [String.toList_ofList]
    exact h v

/-- **Escaping holds from end to end**: templates that have no markup of their own, and whose output
statements all escape, are rendered without markup, with whatever variables and functions. -/
theorem safe_of_render {host : Host} (stock : Stock ⟨Config.default.withHost host, shelf⟩)
    (hsaid : ∀ t, stock.Has t → t.Says StatementKind.Escaped) {t : Template} (ht : stock.Has t)
    {f : Finder} (hf : ∀ t, Engine.Offers ⟨Config.default.withHost host, shelf⟩ f t → stock.Has t)
    {fuel : Nat} {vars : Vars} {text : String} {f' : Finder}
    (hrender : t.render ⟨Config.default.withHost host, shelf⟩ fuel vars f = some (.ok text, f')) :
    Safe text.toList := by
  have hends := (stock.escaping (Config.escapes_default host) hsaid).render fuel ⟨rfl, ht⟩ vars ⟨rfl, hf⟩
  rw [hrender] at hends
  cases hends with
  | some h => exact h.2.2 text rfl

end Stock

/-- A page that overrides a block of its base and includes a part there; the base writes what is left of it
as a whole. -/
def escapedPages : Dict ByteArray :=
  [("base.html", "<%= title %>: <% block main %>none<% end %> (<%h= body() %>)".toUTF8),
    ("page.html",
      ("<% inherit \"base.html\" %><% block main %><% for x in items %><%html= x %>, <% end %>" ++
        "<% include \"part.html\" %><% end %>of <%= mark(title) %>").toUTF8),
    ("part.html", "part".toUTF8)]

/-- Variables with markup, and a function that makes some. -/
def markupVars : Vars :=
  [("title", .str "<b>"), ("items", .list [.str "\"", .str "'"]),
    ("mark", .function (.given 0) (.host "mark" 0))]

/-- The default configuration, for a host whose functions put a tag in front of what they get. -/
def markingConfig : Config :=
  Config.default.withHost fun _ args => .ok (.str ("<i>" ++ args.head?.elim "" Value.text))

/-- The page is rendered without markup, though all its variables and the host have some. -/
theorem safe_escapedPages :
    (∀ t, (Stock.ofLoader markingConfig (.ofDict escapedPages)).Has t → t.Says StatementKind.Escaped) ∧
      ∃ t text f', (Stock.ofLoader markingConfig (.ofDict escapedPages)).Has t ∧
        t.render ⟨markingConfig, .loader (.ofDict escapedPages)⟩ 9 markupVars .empty =
          some (.ok text, f') ∧
        text = "&lt;b&gt;: &quot;, &#x27;, part (of &amp;lt;i&amp;gt;&amp;lt;b&amp;gt;)" ∧
        Safe text.toList := by
  have hsaid : ∀ t, (Stock.ofLoader markingConfig (.ofDict escapedPages)).Has t →
      t.Says StatementKind.Escaped := Stock.says_of_sources (by decide +kernel)
  have hrun : ((Stock.ofSource? markingConfig escapedPages "page.html").bind fun t =>
      (t.render ⟨markingConfig, .loader (.ofDict escapedPages)⟩ 9 markupVars .empty).bind
        fun r => r.1.toOption) =
      some "&lt;b&gt;: &quot;, &#x27;, part (of &amp;lt;i&amp;gt;&amp;lt;b&amp;gt;)" := by
    decide +kernel
  obtain ⟨t, hpage, hrender⟩ := Option.bind_eq_some_iff.mp hrun
  obtain ⟨⟨r, f'⟩, hr, htext⟩ := Option.bind_eq_some_iff.mp hrender
  dsimp only at htext
  rw [eq_ok_of_toOption htext] at hr
  have hstock := Stock.has_ofSource hpage
  exact ⟨hsaid, t, _, f', hstock, hr, rfl, Stock.safe_of_render _ hsaid hstock (fun _ h => h) hr⟩

/-! ## Sessions without markup -/

/-- **So are all texts of a session** with a finder that has only such templates. -/
theorem Finder.safe_of_mem_answers {host : Host} {load : Loader}
    (hsaid : ∀ t, (Stock.ofLoader (Config.default.withHost host) load).Has t → t.Says StatementKind.Escaped)
    {fuel : Nat} {requests : List Request} {given : List Answer} {f : Finder}
    (h : empty.answers (Config.default.withHost host) load fuel requests = some (given, f)) {text : String}
    (htext : .text text ∈ given) : Safe text.toList := by
  let c := (Stock.ofLoader (Config.default.withHost host) load).escaping (Config.escapes_default host) hsaid
  have hempty : c.finder empty empty := ⟨rfl, fun _ h => h⟩
  have hanswers := c.answers fuel hempty requests
  rw [h] at hanswers
  cases hanswers with
  | some halike => exact halike.2.1 _ htext

end Inlay
