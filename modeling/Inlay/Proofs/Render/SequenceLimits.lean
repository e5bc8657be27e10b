import Inlay.Settings
import Inlay.Proofs.Render.Leaving
import Inlay.Proofs.Value.Ranges

/-!
# One limit on sequences

A configuration holds its limit on sequences twice: the operators read it at each evaluation, and `range` is
made with it.  Whatever a configuration is made from and in whatever order its settings are changed, the two
are the same, so no evaluation builds a longer text or list by `+`, `*` or `range`.

* `Config.Built`: the configurations that can be made; `Config.Built.rangeLimit_eq`.
* `Expr.gives_binary`, `Expr.extent_le_of_call_range`: what evaluations build.
* `Config.Built.limits_sequences`: the limit is exact, and the same everywhere.
-/

namespace Inlay

open Value

/-! ## Configurations that can be made -/

/-- A configuration that can be made: the default one or that of a settings text, with any settings changed
in any order, for any host. -/
inductive Config.Built : Config → Prop
  | default : Built .default
  | read {text : String} {s : Settings} {c : Config} (hs : Settings.read text = .ok s)
      (hc : s.toConfig? = .ok c) : Built c
  | sourceEncoding {c : Config} (h : Built c) (encoding : SourceEncoding) :
      Built (c.withSourceEncoding encoding)
  | defaultEscape {c : Config} (h : Built c) (name : String) : Built (c.withDefaultEscape name)
  | filter {c : Config} (h : Built c) (name : String) (apply : Value → List Char) :
      Built (c.withFilter name apply)
  | grammars {c : Config} (h : Built c) (order : List Grammar) : Built (c.withGrammars order)
  | cache {c : Config} (h : Built c) (cache : Bool) : Built (c.withCache cache)
  | module {c : Config} (h : Built c) (name : String) (members : Vars) : Built (c.withModule name members)
  | limit {c : Config} (h : Built c) (limit : ℕ) : Built (c.withLimit limit)
  | host {c : Config} (h : Built c) (host : Host) : Built (c.withHost host)

theorem Settings.toConfig?_eq_ok {s : Settings} {c : Config} (h : s.toConfig? = .ok c) : c = s.toConfig := by
  obtain ⟨-, -, h⟩ := bind_eq_ok_iff.mp h
  cases h
  rfl

/-- **The operators and `range` have one limit.** -/
theorem Config.Built.rangeLimit_eq {c : Config} (h : c.Built) : c.rangeLimit = c.limit := by
  induction h with
  | default => rfl
  | read _ hc =>
    rw [Settings.toConfig?_eq_ok hc]
    rfl
  | sourceEncoding _ _ ih => exact ih
  | defaultEscape _ _ ih => exact ih
  | filter _ _ _ ih => exact ih
  | grammars _ _ ih => exact ih
  | cache _ _ ih => exact ih
  | module _ _ _ ih => exact ih
  | limit _ _ _ => rfl
  | host _ _ ih => exact ih

/-! ## Evaluations -/

theorem gives_ofFault {σ α : Type} {x : Except Fault α} {P : α → Prop} (h : ∀ a, x = .ok a → P a) :
    Action.Gives (Action.ofFault x : Action σ α) P := by
  cases x with
  | ok a => exact .pure (h a rfl)
  | error f => exact .fail _

section

variable {config : Config} {draw : DrawBlock} {frame : Frame}

theorem Expr.gives_binary {op : Operator} (hop : op = .add ∨ op = .mul) (a b : Expr) :
    Action.Gives ((Expr.binary op a b).eval config draw frame) fun v => v.extent ≤ config.limit := by
  rw [Expr.eval]
  refine .last fun x => .last fun y => gives_ofFault fun v hv => ?_
  rcases hop with rfl | rfl
  · exact extent_le_of_add hv
  · exact extent_le_of_mul hv

/-- A callee that has a value is no function that needs the space. -/
theorem intrinsicOf?_eq_none {f : Expr} {w w₁ : World} {r : Value}
    (h : f.eval config draw frame w = .done r w₁) : intrinsicOf? config frame w.space f = none := by
  unfold intrinsicOf?
  split
  · rename_i n
    split
    · rename_i hnone
      rw [Expr.eval, Action.bind_of_done (Action.read_apply w), Option.isNone_iff_eq_none.mp hnone] at h
      cases h
    · rfl
  · rfl

theorem Expr.extent_le_of_call_range {limit : ℕ} {f : Expr} {args : List Expr} {w w₁ w' : World} {v : Value}
    (hf : f.eval config draw frame w = .done (ofBuiltin limit .range) w₁)
    (h : (Expr.call f args).eval config draw frame w = .done v w') : v.extent ≤ limit := by
  rw [Expr.eval, Action.bind_of_done (Action.read_apply w)] at h
  simp only [intrinsicOf?_eq_none hf] at h
  rw [Action.bind_of_done hf] at h
  have hgives (values : List Value) :
      Action.Gives (callValue config (ofBuiltin limit .range) values) fun v => v.extent ≤ limit :=
    gives_ofFault fun v hv => extent_le_of_range hv
  exact Action.Gives.last (fun _ => Action.Gives.last hgives) h

end

/-! ## The limit -/

/-- What the limit of a configuration means. -/
structure Config.LimitsSequences (c : Config) : Prop where
  /-- Two texts are joined if their bytes together keep the limit. -/
  joinedTexts (a b : String) : Limited c.limit (a.utf8ByteSize + b.utf8ByteSize)
    (binary c.limit .add (str a) (str b)) (str (a ++ b))
  /-- Two lists are joined if their items together keep the limit. -/
  joinedLists (as bs : List Value) : Limited c.limit (as.length + bs.length)
    (binary c.limit .add (list as) (list bs)) (list (as ++ bs))
  /-- A text is repeated as often as an integer says, not at all for one below zero. -/
  repeatedText (s : String) (n : Int64) : Limited c.limit (s.utf8ByteSize * (max n.toInt 0).toNat)
    (binary c.limit .mul (str s) (int n)) (str (String.join (List.replicate (max n.toInt 0).toNat s)))
  /-- So is a list. -/
  repeatedList (items : List Value) (n : Int64) : Limited c.limit (items.length * (max n.toInt 0).toNat)
    (binary c.limit .mul (list items) (int n)) (list (List.replicate (max n.toInt 0).toNat items).flatten)
  /-- The integer may stand on either side. -/
  flipped (s : String) (items : List Value) (n : Int64) :
    binary c.limit .mul (int n) (str s) = binary c.limit .mul (str s) (int n) ∧
      binary c.limit .mul (int n) (list items) = binary c.limit .mul (list items) (int n)
  /-- The function `range` of the configuration has the same limit. -/
  range : c.builtin? "range" = some (ofBuiltin c.limit .range)
  /-- It is what the name means to an evaluation where no variable has it. -/
  named {frame : Frame} {space : Space} (hlocal : frame.locals.get? "range" = none)
    (hglobal : space.globals.get? "range" = none) :
    lookup? c frame space "range" = some (ofBuiltin c.limit .range)
  /-- An evaluation applies an operator to the values of its operands under this limit. -/
  applied {draw : DrawBlock} {frame : Frame} {op : Operator} {a b : Expr} {w w₁ w₂ : World} {x y : Value}
    (ha : a.eval c draw frame w = .done x w₁) (hb : b.eval c draw frame w₁ = .done y w₂) :
    (Expr.binary op a b).eval c draw frame w = Action.ofFault (binary c.limit op x y) w₂
  /-- No evaluation gets a longer text or list out of `+` or `*`. -/
  operators (draw : DrawBlock) (frame : Frame) {op : Operator} (hop : op = .add ∨ op = .mul) (a b : Expr) :
    Action.Gives ((Expr.binary op a b).eval c draw frame) fun v => v.extent ≤ c.limit
  /-- No evaluation gets a longer list out of the function `range` of the configuration. -/
  ranges {draw : DrawBlock} {frame : Frame} {f : Expr} {args : List Expr} {w w₁ w' : World} {r v : Value}
    (hr : c.builtin? "range" = some r) (hf : f.eval c draw frame w = .done r w₁)
    (h : (Expr.call f args).eval c draw frame w = .done v w') : v.extent ≤ c.limit

/-- **The limit on sequences is exact and the same everywhere**, for every configuration that can be made. -/
theorem Config.Built.limits_sequences {c : Config} (h : c.Built) : c.LimitsSequences := by
  have hrange : c.builtin? "range" = some (ofBuiltin c.limit .range) := by
    rw [← h.rangeLimit_eq]
    rfl
  exact {
    joinedTexts := limited_add_texts c.limit
    joinedLists := limited_add_lists c.limit
    repeatedText := limited_repeatText c.limit
    repeatedList := limited_repeatItems c.limit
    flipped := fun _ _ _ => ⟨rfl, rfl⟩
    range := hrange
    named := fun hlocal hglobal => by
      rw [lookup?, hlocal, ite_self, hglobal, hrange]
      rfl
    applied := fun ha hb => by rw [Expr.eval, Action.bind_of_done ha, Action.bind_of_done hb]
    operators := fun _ _ => Expr.gives_binary
    ranges := fun hr hf hv => by
      rw [hrange] at hr
      cases hr
      exact Expr.extent_le_of_call_range hf hv }

/-- A limit that a settings text sets holds for `range` too, whatever is changed behind it. -/
theorem Config.limits_sequences_of_settings : ∃ s c,
    Settings.read "[engine]\nmax_sequence_len = 3\n" = .ok s ∧ s.toConfig? = .ok c ∧
      (c.withCache false).Built ∧ (c.withCache false).limit = 3 ∧ (c.withCache false).LimitsSequences := by
  have hs : Settings.read "[engine]\nmax_sequence_len = 3\n" = .ok { Settings.default with limit := 3 } := by
    cbv
  have hc : Settings.toConfig? { Settings.default with limit := 3 } =
      .ok (Settings.toConfig { Settings.default with limit := 3 }) := by
    rfl
  have hbuilt := (Config.Built.read hs hc).cache false
  exact ⟨_, _, hs, hc, hbuilt, rfl, hbuilt.limits_sequences⟩

end Inlay
