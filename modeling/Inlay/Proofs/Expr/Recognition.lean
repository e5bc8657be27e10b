import Inlay.Expr.Automaton
import Mathlib.Computability.Language

/-!
# What a reader recognizes

A reader decides about each token before it has seen the next one.  If none of the states that it
comes to is a dead end, this is as early as can be: the first token that it refuses is the first one
with which no list of tokens in its language goes on, and a text that it only misses the end of
begins one.

What completes a state is a language, and the languages of the states are known by their
derivatives: to find them it is enough to give each state a language that agrees with one step of
the reader, and with its end.

* `Automaton.completions`: what completes a state, with `Automaton.completions_eq`.
* `Automaton.Recognizes`: a reader without dead ends and its language.
* `Automaton.Embeds`: a reader that another one goes along with, with the derivatives of its states.
* `Automaton.Diagnoses`: faults where the language ends, with `Automaton.Recognizes.diagnoses`.
-/

namespace Inlay

/-- Something in the language begins with these tokens. -/
def Begins (L : Language Token) (tokens : List Token) : Prop :=
  ∃ rest, tokens ++ rest ∈ L

namespace Begins

variable {L : Language Token} {tokens : List Token}

theorem of_mem (h : tokens ∈ L) : Begins L tokens :=
  ⟨[], by rwa [List.append_nil]⟩

theorem take (h : Begins L tokens) (k : Nat) : Begins L (tokens.take k) := by
  obtain ⟨rest, hrest⟩ := h
  refine ⟨tokens.drop k ++ rest, ?_⟩
  rwa [← List.append_assoc, List.take_append_drop]

/-- Of the tokens that begin nothing in the language there is a first one. -/
theorem eq_of_take {k k' : Nat} (hk : Begins L (tokens.take k)) (hk' : Begins L (tokens.take k'))
    (hnot : ¬ Begins L (tokens.take (k + 1))) (hnot' : ¬ Begins L (tokens.take (k' + 1))) :
    k = k' := by
  have hle {i j : Nat} (hi : ¬ Begins L (tokens.take (i + 1))) (hj : Begins L (tokens.take j)) :
      j ≤ i := by
    by_contra hlt
    have htake := hj.take (i + 1)
    rw [List.take_take, Nat.min_eq_left (by omega)] at htake
    exact hi htake
  exact Nat.le_antisymm (hle hnot' hk) (hle hnot hk')

end Begins

/-! ## Products of languages -/

namespace Language

variable {K L : Language Token} {t : Token} {tokens : List Token}

theorem nil_mem_mul : [] ∈ L * K ↔ [] ∈ L ∧ [] ∈ K := by
  rw [Language.mem_mul]
  constructor
  · rintro ⟨a, ha, b, hb, hab⟩
    obtain ⟨rfl, rfl⟩ := List.append_eq_nil_iff.mp hab
    exact ⟨ha, hb⟩
  · rintro ⟨hL, hK⟩
    exact ⟨[], hL, [], hK, rfl⟩

/-- The derivative of a product. -/
theorem cons_mem_mul : t :: tokens ∈ L * K ↔
    (∃ a, t :: a ∈ L ∧ ∃ b ∈ K, a ++ b = tokens) ∨ ([] ∈ L ∧ t :: tokens ∈ K) := by
  rw [Language.mem_mul]
  constructor
  · rintro ⟨a, ha, b, hb, hab⟩
    cases a with
    | nil =>
      rw [List.nil_append] at hab
      exact .inr ⟨ha, hab ▸ hb⟩
    | cons t' a =>
      obtain ⟨rfl, rfl⟩ := List.cons.inj hab
      exact .inl ⟨a, ha, b, hb, rfl⟩
  · rintro (⟨a, ha, b, hb, rfl⟩ | ⟨hnil, hK⟩)
    · exact ⟨t :: a, ha, b, hb, rfl⟩
    · exact ⟨[], hnil, _, hK, rfl⟩

end Language

namespace Automaton

variable {σ τ α β : Type} {m : Automaton σ α} {s s' : σ} {t : Token} {tokens rest : List Token}
  {L : Language Token}

/-! ## What completes a state -/

/-- **What completes a state**: the tokens behind it with which the text may end. -/
def completions (m : Automaton σ α) (s : σ) : Language Token :=
  {tokens | ∃ s', tokens.foldlM m.step s = some s' ∧ (m.finish s').isSome}

@[simp] theorem nil_mem_completions : [] ∈ m.completions s ↔ (m.finish s).isSome := by
  constructor
  · rintro ⟨s', hs', hfinish⟩
    rw [List.foldlM_nil, Option.pure_def, Option.some.injEq] at hs'
    rwa [hs']
  · intro h
    exact ⟨s, rfl, h⟩

theorem append_mem_completions (h : tokens.foldlM m.step s = some s') :
    tokens ++ rest ∈ m.completions s ↔ rest ∈ m.completions s' := by
  have hfold : (tokens ++ rest).foldlM m.step s = rest.foldlM m.step s' := by
    rw [List.foldlM_append, h]
    rfl
  exact exists_congr fun _ => by rw [hfold]

theorem cons_mem_completions :
    t :: tokens ∈ m.completions s ↔ ∃ s', m.step s t = some s' ∧ tokens ∈ m.completions s' := by
  constructor
  · rintro ⟨last, hlast, hfinish⟩
    rw [List.foldlM_cons, Option.bind_eq_bind, Option.bind_eq_some_iff] at hlast
    obtain ⟨s', hs', hrest⟩ := hlast
    exact ⟨s', hs', last, hrest, hfinish⟩
  · rintro ⟨s', hs', h⟩
    have hone : [t].foldlM m.step s = some s' := by
      rw [List.foldlM_cons, hs']
      rfl
    exact (append_mem_completions hone).mpr h

/-- Languages of the states are what completes the states if they agree with each step and with the
end. -/
theorem completions_eq {R : σ → Language Token} (hnil : ∀ s, [] ∈ R s ↔ (m.finish s).isSome)
    (hcons : ∀ s t tokens, t :: tokens ∈ R s ↔ ∃ s', m.step s t = some s' ∧ tokens ∈ R s') (s : σ) :
    m.completions s = R s := by
  ext tokens
  induction tokens generalizing s with
  | nil => rw [nil_mem_completions, hnil]
  | cons t tokens ih =>
    rw [cons_mem_completions, hcons]
    exact exists_congr fun s' => and_congr_right fun _ => ih s'

theorem completions_map (f : α → β) (m : Automaton σ α) (s : σ) :
    (m.map f).completions s = m.completions s := by
  ext tokens
  refine exists_congr fun s' => and_congr_right fun _ => ?_
  rw [map, Option.isSome_map]

/-! ## Readers without dead ends -/

/-- The reader comes to this state. -/
def Reaches (m : Automaton σ α) (s : σ) : Prop :=
  ∃ tokens : List Token, tokens.foldlM m.step m.start = some s

theorem Reaches.start : m.Reaches m.start :=
  ⟨[], rfl⟩

theorem Reaches.step (h : m.Reaches s) (hstep : m.step s t = some s') : m.Reaches s' := by
  obtain ⟨tokens, htokens⟩ := h
  refine ⟨tokens ++ [t], ?_⟩
  rw [List.foldlM_append, htokens, Option.bind_eq_bind, Option.bind_some, List.foldlM_cons, hstep]
  rfl

/-- What each step keeps of a state and of the tokens up to it holds behind a list of tokens. -/
theorem invariant_of_foldlM {P : σ → List Token → Prop}
    (hstep : ∀ {s read t s'}, P s read → m.step s t = some s' → P s' (read ++ [t])) :
    ∀ {tokens : List Token} {s s' : σ} (read : List Token), P s read →
      tokens.foldlM m.step s = some s' → P s' (read ++ tokens)
  | [], s, s', read, hs, hfold => by
    rw [List.foldlM_nil, Option.pure_def, Option.some.injEq] at hfold
    rwa [List.append_nil, ← hfold]
  | t :: tokens, s, s', read, hs, hfold => by
    rw [List.foldlM_cons, Option.bind_eq_bind, Option.bind_eq_some_iff] at hfold
    obtain ⟨next, hnext, hrest⟩ := hfold
    have hrun := invariant_of_foldlM hstep _ (hstep hs hnext) hrest
    rwa [List.append_assoc, List.singleton_append] at hrun

/-- What holds at the start and is kept by each step holds of each state that the reader comes
to. -/
theorem Reaches.of_invariant {P : σ → Prop} (hstart : P m.start)
    (hstep : ∀ {s t s'}, P s → m.step s t = some s' → P s') (h : m.Reaches s) : P s := by
  obtain ⟨tokens, htokens⟩ := h
  exact invariant_of_foldlM (P := fun s _ => P s) hstep [] hstart htokens

/-- **The reader recognizes a language**: it reads what is in the language, and it is never at a
dead end. -/
structure Recognizes (m : Automaton σ α) (L : Language Token) : Prop where
  completions_start : m.completions m.start = L
  exists_completion {s : σ} : m.Reaches s → ∃ rest, rest ∈ m.completions s

namespace Recognizes

/-- No state is a dead end that has what the start has and each step keeps, if none with it is
one. -/
theorem of_invariant {P : σ → Prop} (hcompletions : m.completions m.start = L) (hstart : P m.start)
    (hstep : ∀ {s t s'}, P s → m.step s t = some s' → P s')
    (hlive : ∀ {s}, P s → ∃ rest, rest ∈ m.completions s) : m.Recognizes L where
  completions_start := hcompletions
  exists_completion hs := hlive (hs.of_invariant hstart hstep)

theorem map (h : m.Recognizes L) (f : α → β) : (m.map f).Recognizes L where
  completions_start := (completions_map f m m.start).trans h.completions_start
  exists_completion {s} hs := by
    rw [completions_map]
    exact h.exists_completion hs

/-- No state that the reader comes to is a dead end, if something follows what completes it. -/
theorem exists_mem_mul (h : m.Recognizes L) {K : Language Token} (hs : m.Reaches s)
    (hK : tokens ∈ K) : ∃ rest, rest ∈ m.completions s * K := by
  obtain ⟨rest, hrest⟩ := h.exists_completion hs
  exact ⟨_, Language.append_mem_mul hrest hK⟩

/-- The tokens that the reader gets through begin something in the language. -/
theorem begins (h : m.Recognizes L) (htokens : tokens.foldlM m.step m.start = some s) :
    Begins L tokens := by
  obtain ⟨rest, hrest⟩ := h.exists_completion ⟨tokens, htokens⟩
  refine ⟨rest, ?_⟩
  rw [← h.completions_start]
  exact (append_mem_completions htokens).mpr hrest

/-- The tokens up to one that the reader refuses begin nothing in the language. -/
theorem not_begins (h : m.Recognizes L) (htokens : tokens.foldlM m.step m.start = some s)
    (ht : m.step s t = none) : ¬ Begins L (tokens ++ [t]) := by
  rintro ⟨rest, hrest⟩
  rw [← h.completions_start, List.append_assoc, append_mem_completions htokens,
    List.singleton_append, cons_mem_completions] at hrest
  obtain ⟨s', hs', -⟩ := hrest
  exact absurd (ht.symm.trans hs') (Option.some_ne_none s').symm

end Recognizes

/-! ## Readers within readers -/

/-- Where the text may end, the reader refuses this sign. -/
def EndsBefore (m : Automaton σ α) (stop : Sign) : Prop :=
  ∀ s, (m.finish s).isSome → m.step s (.sign stop) = none

/-- A reader goes along with another one as long as that one takes the tokens, and then on behind a
sign, if the other one may end there. -/
structure Embeds (M : Automaton τ β) (m : Automaton σ α) (inside : σ → τ) (stop : Sign)
    (next : α → τ) :
    Prop where
  step_some {s s' : σ} {t : Token} : m.step s t = some s' → M.step (inside s) t = some (inside s')
  step_stop {s : σ} : m.step s (.sign stop) = none →
    M.step (inside s) (.sign stop) = (m.finish s).map next
  step_none {s : σ} {t : Token} : m.step s t = none → t ≠ .sign stop → M.step (inside s) t = none

theorem nil_mem_completions_mul {K : Language Token} :
    [] ∈ m.completions s * K ↔ (m.finish s).isSome ∧ [] ∈ K := by
  rw [Language.nil_mem_mul, nil_mem_completions]

theorem cons_mem_completions_mul {K : Language Token} : t :: tokens ∈ m.completions s * K ↔
    (∃ s', m.step s t = some s' ∧ tokens ∈ m.completions s' * K) ∨
      ((m.finish s).isSome ∧ t :: tokens ∈ K) := by
  rw [Language.cons_mem_mul, nil_mem_completions]
  refine or_congr_left ?_
  constructor
  · rintro ⟨a, ha, b, hb, rfl⟩
    obtain ⟨s', hs', ha'⟩ := cons_mem_completions.mp ha
    exact ⟨s', hs', Language.append_mem_mul ha' hb⟩
  · rintro ⟨s', hs', h⟩
    obtain ⟨a, ha, b, hb, rfl⟩ := Language.mem_mul.mp h
    exact ⟨a, cons_mem_completions.mpr ⟨s', hs', ha⟩, b, hb, rfl⟩

/-- The derivative of a state in which a reader goes along with another one to the end. -/
theorem cons_mem_iff_of_step_map {M : Automaton τ β} {R : τ → Language Token} (inside : σ → τ)
    (hstep : ∀ s t, M.step (inside s) t = (m.step s t).map inside)
    (hinside : ∀ s, R (inside s) = m.completions s) (s : σ) (t : Token) (tokens : List Token) :
    t :: tokens ∈ R (inside s) ↔ ∃ u, M.step (inside s) t = some u ∧ tokens ∈ R u := by
  rw [hinside, cons_mem_completions, hstep]
  cases m.step s t <;> simp [hinside]

namespace Embeds

variable {M : Automaton τ β} {inside : σ → τ} {stop : Sign} {next : α → τ}

/-- A step within the embedded reader stays there, or goes on behind it. -/
theorem step_cases (h : Embeds M m inside stop next) {s : σ} {u : τ}
    (hu : M.step (inside s) t = some u) :
    (∃ s', m.step s t = some s' ∧ u = inside s') ∨ ∃ a, u = next a := by
  cases hs : m.step s t with
  | some s' => exact .inl ⟨s', rfl, Option.some.inj (hu.symm.trans (h.step_some hs))⟩
  | none =>
    by_cases ht : t = .sign stop
    · subst ht
      obtain ⟨a, -, ha⟩ := Option.map_eq_some_iff.mp ((h.step_stop hs).symm.trans hu)
      exact .inr ⟨a, ha.symm⟩
    · exact absurd (hu.symm.trans (h.step_none hs ht)) (Option.some_ne_none u)

/-- **The derivative of a state within**: what completes the embedded reader, and then what `K` has.
There is one way only, as the embedded reader refuses the sign that leads on wherever it may end. -/
theorem cons_mem_iff (h : Embeds M m inside stop next) (hstop : m.EndsBefore stop)
    {R : τ → Language Token}
    {K K' : Language Token} (hK : ∀ t tokens, t :: tokens ∈ K ↔ t = .sign stop ∧ tokens ∈ K')
    (hinside : ∀ s, R (inside s) = m.completions s * K) (hnext : ∀ a, R (next a) = K') (s : σ)
    (t : Token)
    (tokens : List Token) :
    t :: tokens ∈ R (inside s) ↔ ∃ u, M.step (inside s) t = some u ∧ tokens ∈ R u := by
  rw [hinside, cons_mem_completions_mul, hK]
  cases hs : m.step s t with
  | some s' =>
    have hone : (∃ s'', some s' = some s'' ∧ tokens ∈ m.completions s'' * K) ↔
        tokens ∈ m.completions s' * K := by simp
    have hno : ¬ ((m.finish s).isSome ∧ t = .sign stop ∧ tokens ∈ K') := by
      rintro ⟨hfinish, rfl, -⟩
      exact absurd (hs.symm.trans (hstop s hfinish)) (Option.some_ne_none s')
    rw [hone, or_iff_left hno, h.step_some hs, ← hinside]
    simp
  | none =>
    by_cases ht : t = .sign stop
    · subst ht
      rw [h.step_stop hs]
      cases m.finish s <;> simp [hnext]
    · simp [ht, h.step_none hs ht]

end Embeds

/-! ## Faults -/

/-- Where the last of some tokens stops, and where the text stops if there are none. -/
def lastStop (stop : Nat) (tokens : List (Token × Span)) : Nat :=
  (tokens.getLast?.map fun last => last.2.stop).getD stop

/-- **The fault in a text stands where the language ends**: the text is read just if its tokens are
in the language.  If they are not, the fault is the first token with which nothing in the language
goes on, in its own place.  If there is no such token, it is the end of the text, from behind the
text back to where its last token stops.  This is where the text ends just if nothing stands behind
the token. -/
structure Diagnoses (m : Automaton σ α) (L : Language Token) (text : List Char) : Prop where
  exists_ok_iff {tokens : List (Token × Span)} : Token.lex text = .ok tokens →
    ((∃ a, m.read text = .ok a) ↔ tokens.map Prod.fst ∈ L)
  unexpected {tokens : List (Token × Span)} : Token.lex text = .ok tokens →
    ∀ (k : Nat) (hk : k < tokens.length), Begins L ((tokens.map Prod.fst).take k) →
      ¬ Begins L ((tokens.map Prod.fst).take (k + 1)) →
      m.read text = .error (.unexpected tokens[k].1, tokens[k].2) ∧
        (ReadFault.unexpected tokens[k].1).message = "unexpected " ++ tokens[k].1.describe
  unexpectedEnd {tokens : List (Token × Span)} : Token.lex text = .ok tokens →
    Begins L (tokens.map Prod.fst) → tokens.map Prod.fst ∉ L →
      m.read text = .error (.unexpectedEnd,
          ⟨byteLength text, lastStop (byteLength text) tokens⟩) ∧
        (m.read text = .error (.unexpectedEnd, ⟨byteLength text, byteLength text⟩) ↔
          lastStop (byteLength text) tokens = byteLength text) ∧
        ReadFault.unexpectedEnd.message = "unexpected end of expression"

/-- A run ends behind the last token, or at the first one that is refused. -/
theorem run_cases (m : Automaton σ α) : ∀ (tokens : List (Token × Span)) (s : σ),
    (∃ s', (tokens.map Prod.fst).foldlM m.step s = some s' ∧ m.run s tokens = .ok s') ∨
      ∃ (k : Nat) (hk : k < tokens.length) (s' : σ),
        ((tokens.map Prod.fst).take k).foldlM m.step s = some s' ∧ m.step s' tokens[k].1 = none ∧
          m.run s tokens = .error (tokens[k].1, tokens[k].2)
  | [], s => .inl ⟨s, rfl, rfl⟩
  | (t, span) :: rest, s => by
    cases hstep : m.step s t with
    | none => exact .inr ⟨0, Nat.zero_lt_succ _, s, rfl, hstep, by simp only [run, hstep]; rfl⟩
    | some next =>
      have hrun : m.run s ((t, span) :: rest) = m.run next rest := by simp only [run, hstep]
      have hfold (tokens : List Token) :
          (t :: tokens).foldlM m.step s = tokens.foldlM m.step next := by
        rw [List.foldlM_cons, hstep]
        rfl
      rcases run_cases m rest next with ⟨s', hs', hok⟩ | ⟨k, hk, s', hs', hnone, herror⟩
      · exact .inl ⟨s', (hfold _).trans hs', hrun.trans hok⟩
      · exact .inr ⟨k + 1, Nat.succ_lt_succ hk, s', (hfold _).trans hs', hnone, hrun.trans herror⟩

/-- What is read of a text: it is in the language, or its end comes too early, or one token is too
many. -/
theorem Recognizes.read_cases (h : m.Recognizes L) {s : List Char} {tokens : List (Token × Span)}
    (hlex : Token.lex s = .ok tokens) :
    (tokens.map Prod.fst ∈ L ∧ ∃ a, m.read s = .ok a) ∨
      (Begins L (tokens.map Prod.fst) ∧ tokens.map Prod.fst ∉ L ∧
        m.read s = .error (.unexpectedEnd, endSpan (byteLength s) tokens)) ∨
      ∃ (k : Nat) (hk : k < tokens.length), Begins L ((tokens.map Prod.fst).take k) ∧
        ¬ Begins L ((tokens.map Prod.fst).take (k + 1)) ∧
        m.read s = .error (.unexpected tokens[k].1, tokens[k].2) := by
  have hread : m.read s = m.readTokens (byteLength s) tokens := by rw [read, hlex]
  rcases run_cases m tokens m.start with ⟨last, hlast, hrun⟩ | ⟨k, hk, last, hlast, hnone, hrun⟩
  · have hmem : tokens.map Prod.fst ∈ L ↔ (m.finish last).isSome := by
      rw [← h.completions_start, ← nil_mem_completions, ← append_mem_completions hlast,
        List.append_nil]
    cases hfinish : m.finish last with
    | some a =>
      refine .inl ⟨hmem.mpr (by rw [hfinish]; rfl), a, ?_⟩
      rw [hread, readTokens, hrun]
      simp only [hfinish]
    | none =>
      refine .inr (.inl ⟨h.begins hlast, fun hin => ?_, ?_⟩)
      · have hsome := hmem.mp hin
        rw [hfinish] at hsome
        exact absurd hsome Bool.false_ne_true
      · rw [hread, readTokens, hrun]
        simp only [hfinish]
  · have htake :
        (tokens.map Prod.fst).take (k + 1) = (tokens.map Prod.fst).take k ++ [tokens[k].1] := by
      rw [List.take_succ_eq_append_getElem (by rwa [List.length_map]), List.getElem_map]
    refine .inr (.inr ⟨k, hk, h.begins hlast, ?_, ?_⟩)
    · rw [htake]
      exact h.not_begins hlast hnone
    · rw [hread, readTokens, hrun]

/-- **A reader without dead ends finds its faults where its language ends.** -/
theorem Recognizes.diagnoses (h : m.Recognizes L) (text : List Char) : m.Diagnoses L text where
  exists_ok_iff {tokens} hlex := by
    rcases h.read_cases hlex with ⟨hin, hok⟩ | ⟨-, hnot, herror⟩ | ⟨k, hk, -, hnot, herror⟩
    · exact iff_of_true hok hin
    · exact iff_of_false (fun ⟨a, ha⟩ => nomatch herror.symm.trans ha) hnot
    · refine iff_of_false (fun ⟨a, ha⟩ => nomatch herror.symm.trans ha) fun hin => hnot ?_
      exact (Begins.of_mem hin).take (k + 1)
  unexpected {tokens} hlex k hk hbegins hnot := by
    refine ⟨?_, rfl⟩
    rcases h.read_cases hlex with ⟨hin, -⟩ | ⟨hall, -, -⟩ | ⟨k', hk', hbegins', hnot', herror⟩
    · exact absurd ((Begins.of_mem hin).take (k + 1)) hnot
    · exact absurd (hall.take (k + 1)) hnot
    · obtain rfl := Begins.eq_of_take hbegins' hbegins hnot' hnot
      exact herror
  unexpectedEnd {tokens} hlex hbegins hnot := by
    have hread : m.read text =
        .error (.unexpectedEnd, ⟨byteLength text, lastStop (byteLength text) tokens⟩) := by
      rcases h.read_cases hlex with ⟨hin, -⟩ | ⟨-, -, herror⟩ | ⟨k, -, -, hnot', -⟩
      · exact absurd hin hnot
      · exact herror
      · exact absurd (hbegins.take (k + 1)) hnot'
    refine ⟨hread, ⟨fun hend => ?_, fun hstop => ?_⟩, rfl⟩
    · exact congrArg (fun fault => fault.2.stop) (Except.error.inj (hread.symm.trans hend))
    · rw [hread, hstop]

end Automaton

end Inlay
