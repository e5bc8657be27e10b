import Inlay.Expr.Head
import Inlay.Proofs.Expr.Viability

/-!
# Heads of statements diagnosed

The grammar of what follows the keyword of a statement, and that each reader of a head recognizes
it: it is never at a dead end, so the fault that it finds in a text is the first token with which no
head of its kind goes on, or the end of the text, if some head goes on there.

What completes each state of a reader is a product of languages: what completes the reader that it
goes along with, and what may follow there.  The signs that lead on are those which the other reader
refuses wherever it may end, so each token has one way to go.

* `Head`: the languages of heads.
* `Automaton.Recognizes.withNewName`: a reader with a new name behind it.
* `Head.readers_diagnose`: where the faults in expressions and in all heads stand.
-/

namespace Inlay

open Computability

/-! ## Grammar -/

namespace Head

/-- One sign. -/
def sign (s : Sign) : Language Token :=
  {tokens | tokens = [.sign s]}

/-- One name. -/
def aName : Language Token :=
  {tokens | ∃ n, tokens = [.name n]}

/-- Phrases of a language with commas between them. -/
def commas (L : Language Token) : Language Token :=
  L * (sign .comma * L)∗

/-- `as` and a name, if they are there. -/
def newName : Language Token :=
  1 + sign .asName * aName

/-- Names with commas between them. -/
def names : Language Token :=
  commas aName

/-- Names with commas between them, and perhaps behind the last one. -/
def row : Language Token :=
  names * (1 + sign .comma)

/-- Names in a row, perhaps in parentheses. -/
def targets : Language Token :=
  sign .parenOpen * row * sign .parenClose + row

/-- Targets, `in` and what the loop runs through. -/
def forHead : Language Token :=
  targets * sign .isIn * Expr.language

/-- An expression, perhaps with a new name. -/
def withHead : Language Token :=
  Expr.language * newName

/-- A module, perhaps with a new name. -/
def importHead : Language Token :=
  aName * newName

/-- Nothing, or a kind of fault, perhaps with a name for its text. -/
def exceptHead : Language Token :=
  1 + aName * newName

/-- A module, `import` and members of it, each perhaps with a new name. -/
def fromHead : Language Token :=
  aName * sign .import_ * commas (aName * newName)

/-- A kind of fault, perhaps with parentheses behind it, and perhaps a text in them. -/
def raiseHead : Language Token :=
  aName * (1 + sign .parenOpen * (1 + Expr.language) * sign .parenClose)

/-- A condition, perhaps with a comma and a text behind it. -/
def assertHead : Language Token :=
  Expr.language * (1 + sign .comma * Expr.language)

/-! ## Derivatives -/

variable {s : Sign} {K L : Language Token} {t : Token} {tokens : List Token}

@[simp] theorem mem_sup : tokens ∈ K ⊔ L ↔ tokens ∈ K ∨ tokens ∈ L :=
  Iff.rfl

@[simp] theorem nil_notMem_sign : [] ∉ sign s :=
  (List.cons_ne_nil _ _).symm

@[simp] theorem nil_notMem_aName : [] ∉ aName :=
  fun ⟨_, h⟩ => List.cons_ne_nil _ _ h.symm

@[simp] theorem cons_mem_sign : t :: tokens ∈ sign s ↔ t = .sign s ∧ tokens = [] :=
  List.cons_eq_cons

@[simp] theorem cons_mem_aName : t :: tokens ∈ aName ↔ (∃ n, t = .name n) ∧ tokens = [] := by
  constructor
  · rintro ⟨n, h⟩
    obtain ⟨rfl, rfl⟩ := List.cons.inj h
    exact ⟨⟨n, rfl⟩, rfl⟩
  · rintro ⟨⟨n, rfl⟩, rfl⟩
    exact ⟨n, rfl⟩

@[simp] theorem nil_notMem_sign_mul : [] ∉ sign s * L := by
  simp [Language.nil_mem_mul]

@[simp] theorem nil_notMem_aName_mul : [] ∉ aName * L := by
  simp [Language.nil_mem_mul]

@[simp] theorem cons_mem_sign_mul : t :: tokens ∈ sign s * L ↔ t = .sign s ∧ tokens ∈ L := by
  simp [Language.cons_mem_mul, and_assoc]

@[simp] theorem cons_mem_aName_mul : t :: tokens ∈ aName * L ↔ (∃ n, t = .name n) ∧ tokens ∈ L := by
  simp [Language.cons_mem_mul, and_assoc]

theorem kstar_mul : K∗ * L = L + K * (K∗ * L) := by
  conv_lhs => rw [← Language.one_add_self_mul_kstar_eq_kstar, add_mul, one_mul, mul_assoc]

/-- Behind a phrase there are more phrases, or what follows them. -/
theorem cons_mem_more_mul : t :: tokens ∈ (sign .comma * K)∗ * L ↔
    t = .sign .comma ∧ tokens ∈ commas K * L ∨ t :: tokens ∈ L := by
  have hmore : (sign .comma * K)∗ * L = L + sign .comma * (commas K * L) := by
    rw [kstar_mul, commas, mul_assoc, mul_assoc]
  rw [hmore, Language.mem_add, cons_mem_sign_mul, or_comm]

theorem cons_mem_more :
    t :: tokens ∈ (sign .comma * K)∗ ↔ t = .sign .comma ∧ tokens ∈ commas K := by
  have hmore := @cons_mem_more_mul K 1 t tokens
  simpa using hmore

theorem name_mem_aName : [.name "a"] ∈ aName :=
  ⟨"a", rfl⟩

/-! ## Names and targets -/

/-- What completes each state of the reader of a name. -/
def behindName : Option String → Language Token
  | none => aName
  | some _ => 1

theorem completions_nameReader (s : Option String) : nameReader.completions s = behindName s := by
  refine Automaton.completions_eq (fun s => ?_) (fun s t tokens => ?_) s
  · cases s <;> simp [behindName, nameReader]
  · cases s with
    | some n => simp [behindName, nameReader]
    | none => cases t <;> simp [behindName, nameReader]

theorem nameReader_recognizes : nameReader.Recognizes aName where
  completions_start := completions_nameReader none
  exists_completion {s} _ := by
    rw [completions_nameReader]
    cases s with
    | none => exact ⟨_, name_mem_aName⟩
    | some n => exact ⟨[], rfl⟩

/-- Names go on with a comma. -/
def behindNames : NamesState → Language Token
  | .beforeName _ => names
  | .behindName _ => (sign .comma * aName)∗

theorem completions_namesReader (s : NamesState) : namesReader.completions s = behindNames s := by
  refine Automaton.completions_eq (fun s => ?_) (fun s t tokens => ?_) s
  · cases s <;> simp [behindNames, namesReader, names, commas, Language.nil_mem_kstar]
  · cases s with
    | beforeName ns => cases t <;> simp [behindNames, namesReader, names, commas]
    | behindName ns =>
      rw [behindNames, cons_mem_more]
      cases t with
      | sign sign => cases sign <;> simp [behindNames, namesReader, names]
      | _ => simp [namesReader]

theorem namesReader_recognizes : namesReader.Recognizes names where
  completions_start := completions_namesReader (.beforeName [])
  exists_completion {s} _ := by
    rw [completions_namesReader]
    cases s with
    | beforeName ns =>
      exact ⟨[.name "a"], cons_mem_aName_mul.mpr ⟨⟨"a", rfl⟩, Language.nil_mem_kstar _⟩⟩
    | behindName ns => exact ⟨[], Language.nil_mem_kstar _⟩

/-- What goes on behind a name in a row that `L` follows. -/
def behindRowName (L : Language Token) : Language Token :=
  (sign .comma * aName)∗ * ((1 + sign .comma) * L)

/-- What goes on behind a comma in a row that `L` follows. -/
def behindRowComma (L : Language Token) : Language Token :=
  L + row * L

@[simp] theorem nil_mem_behindRowName : [] ∈ behindRowName L ↔ [] ∈ L := by
  simp [behindRowName, Language.nil_mem_mul, Language.nil_mem_kstar]

/-- Behind a name there are a comma and what goes on there, or what follows the row. -/
@[simp] theorem cons_mem_behindRowName : t :: tokens ∈ behindRowName L ↔
    t = .sign .comma ∧ tokens ∈ behindRowComma L ∨ t :: tokens ∈ L := by
  have hrow : commas aName * ((1 + sign .comma) * L) = row * L := by rw [row, names, mul_assoc]
  rw [behindRowName, cons_mem_more_mul, hrow, add_mul, one_mul, behindRowComma, Language.mem_add,
    Language.mem_add, cons_mem_sign_mul]
  tauto

@[simp] theorem nil_notMem_row_mul : [] ∉ row * L := by
  rw [row, names, commas, mul_assoc, mul_assoc]
  exact nil_notMem_aName_mul

@[simp] theorem cons_mem_row_mul :
    t :: tokens ∈ row * L ↔ (∃ n, t = .name n) ∧ tokens ∈ behindRowName L := by
  rw [row, names, commas, mul_assoc, mul_assoc, cons_mem_aName_mul, behindRowName]

@[simp] theorem nil_mem_behindRowComma : [] ∈ behindRowComma L ↔ [] ∈ L := by
  rw [behindRowComma, Language.mem_add, or_iff_left nil_notMem_row_mul]

@[simp] theorem cons_mem_behindRowComma : t :: tokens ∈ behindRowComma L ↔
    (∃ n, t = .name n) ∧ tokens ∈ behindRowName L ∨ t :: tokens ∈ L := by
  rw [behindRowComma, Language.mem_add, cons_mem_row_mul, or_comm]

/-- What follows a row of targets: what closes its parentheses, if there are any. -/
def closing : Bool → Language Token
  | true => sign .parenClose
  | false => 1

/-- Targets are closed if they are in parentheses. -/
def behindTargets : TargetState → Language Token
  | .start => targets
  | .inParen => row * sign .parenClose
  | .behindName paren _ => behindRowName (closing paren)
  | .behindComma paren _ => behindRowComma (closing paren)
  | .closed _ => 1

theorem targets_eq : targets = sign .parenOpen * (row * sign .parenClose) + row * 1 := by
  rw [targets, mul_assoc, mul_one]

theorem nil_notMem_targets : [] ∉ targets := by
  rw [targets_eq, Language.mem_add]
  exact not_or_intro nil_notMem_sign_mul nil_notMem_row_mul

theorem cons_mem_targets : t :: tokens ∈ targets ↔
    t = .sign .parenOpen ∧ tokens ∈ row * sign .parenClose ∨
      (∃ n, t = .name n) ∧ tokens ∈ behindRowName 1 := by
  rw [targets_eq, Language.mem_add, cons_mem_sign_mul, cons_mem_row_mul]

theorem nil_mem_behindTargets (s : TargetState) : [] ∈ behindTargets s ↔ s.finish.isSome := by
  cases s with
  | start => simp [behindTargets, TargetState.finish, nil_notMem_targets]
  | inParen => simp [behindTargets, TargetState.finish]
  | behindName paren ns => cases paren <;> simp [behindTargets, TargetState.finish, closing]
  | behindComma paren ns => cases paren <;> simp [behindTargets, TargetState.finish, closing]
  | closed ns => simp [behindTargets, TargetState.finish]

theorem cons_mem_behindTargets (s : TargetState) (t : Token) (tokens : List Token) :
    t :: tokens ∈ behindTargets s ↔ ∃ s', s.step t = some s' ∧ tokens ∈ behindTargets s' := by
  fun_cases TargetState.step s t with
  | case1 n => simp [behindTargets, cons_mem_targets, closing]
  | case2 => simp [behindTargets, cons_mem_targets]
  | case3 n => simp [behindTargets, closing]
  | case4 paren ns => cases paren <;> simp [behindTargets, closing]
  | case5 ns => simp [behindTargets, closing]
  | case6 paren ns n => cases paren <;> simp [behindTargets, closing]
  | case7 ns => simp [behindTargets, closing]
  | case8 =>
    cases s with
    | start => simp_all [behindTargets, cons_mem_targets]
    | inParen => simp_all [behindTargets]
    | behindName paren ns => cases paren <;> simp_all [behindTargets, closing]
    | behindComma paren ns => cases paren <;> simp_all [behindTargets, closing]
    | closed ns => simp_all [behindTargets]

theorem completions_targetsReader (s : TargetState) :
    targetsReader.completions s = behindTargets s :=
  Automaton.completions_eq nil_mem_behindTargets cons_mem_behindTargets s

theorem exists_mem_behindTargets (s : TargetState) : ∃ rest, rest ∈ behindTargets s := by
  have hname : ∀ paren, ∃ rest, rest ∈ behindRowName (closing paren)
    | true => ⟨[.sign .parenClose], by simp [closing]⟩
    | false => ⟨[], by simp [closing]⟩
  have hfirst : ∀ paren, ∃ rest, .name "a" :: rest ∈ row * closing paren := by
    intro paren
    obtain ⟨rest, hrest⟩ := hname paren
    exact ⟨rest, cons_mem_row_mul.mpr ⟨⟨"a", rfl⟩, hrest⟩⟩
  cases s with
  | start => exact ⟨_, cons_mem_targets.mpr (.inr ⟨⟨"a", rfl⟩, (hname false).choose_spec⟩)⟩
  | inParen => exact ⟨_, (hfirst true).choose_spec⟩
  | behindName paren ns => exact hname paren
  | behindComma paren ns => exact ⟨_, .inr (hfirst paren).choose_spec⟩
  | closed ns => exact ⟨[], rfl⟩

theorem targetsReader_recognizes : targetsReader.Recognizes targets where
  completions_start := completions_targetsReader .start
  exists_completion {s} _ := by
    rw [completions_targetsReader]
    exact exists_mem_behindTargets s

/-! ## A new name -/

theorem nil_mem_newName : [] ∈ newName := by
  simp [newName]

theorem cons_mem_newName : t :: tokens ∈ newName ↔ t = .sign .asName ∧ tokens ∈ aName := by
  simp [newName]

section

variable {σ α : Type} {m : Automaton σ α}

theorem embeds_withNewName (m : Automaton σ α) :
    m.withNewName.Embeds m AliasState.inner .asName AliasState.behindAs where
  step_some h := by simp only [Automaton.withNewName, AliasState.step, h]
  step_stop h := by simp only [Automaton.withNewName, AliasState.step, h]
  step_none h ht := by simp only [Automaton.withNewName, AliasState.step, h]

/-- Behind what the reader within reads there may be a new name. -/
def behindAlias (m : Automaton σ α) : AliasState σ α → Language Token
  | .inner s => m.completions s * newName
  | .behindAs _ => aName
  | .named .. => 1

theorem completions_withNewName (hstop : m.EndsBefore .asName) (s : AliasState σ α) :
    m.withNewName.completions s = behindAlias m s := by
  refine Automaton.completions_eq (fun s => ?_) (fun s t tokens => ?_) s
  · cases s with
    | inner s =>
      rw [behindAlias, Automaton.nil_mem_completions_mul, and_iff_left nil_mem_newName]
      simp [Automaton.withNewName, AliasState.finish]
    | _ => simp [behindAlias, Automaton.withNewName, AliasState.finish]
  · cases s with
    | inner s =>
      exact (embeds_withNewName m).cons_mem_iff hstop (fun _ _ => cons_mem_newName) (fun _ => rfl)
        (fun _ => rfl) s t tokens
    | behindAs a => cases t <;> simp [behindAlias, Automaton.withNewName, AliasState.step]
    | named a n => simp [behindAlias, Automaton.withNewName, AliasState.step]

end

end Head

/-- The reader within has come to its state. -/
def AliasState.Reached {σ α : Type} (m : Automaton σ α) : AliasState σ α → Prop
  | inner s => m.Reaches s
  | _ => True

/-- **A reader with a new name behind it** recognizes its language with a new name. -/
theorem Automaton.Recognizes.withNewName {σ α : Type} {m : Automaton σ α} {L : Language Token}
    (h : m.Recognizes L) (hstop : m.EndsBefore .asName) :
    m.withNewName.Recognizes (L * Head.newName) := by
  refine .of_invariant (P := AliasState.Reached m) ?_ .start ?_ ?_
  · rw [Head.completions_withNewName hstop, ← h.completions_start]
    rfl
  · rintro (s | a | ⟨a, n⟩) t u hs hstep
    · rcases (Head.embeds_withNewName m).step_cases hstep with ⟨s', hs', rfl⟩ | ⟨a, rfl⟩
      · exact hs.step hs'
      · trivial
    · cases t <;> cases hstep
      trivial
    · cases hstep
  · rintro (s | a | ⟨a, n⟩) hs
    · rw [Head.completions_withNewName hstop]
      exact h.exists_mem_mul hs Head.nil_mem_newName
    · rw [Head.completions_withNewName hstop]
      exact ⟨_, Head.name_mem_aName⟩
    · rw [Head.completions_withNewName hstop]
      exact ⟨[], rfl⟩

namespace Head

variable {t : Token} {tokens : List Token}

/-! ## Where a reader ends -/

theorem endsBefore_expr {stop : Sign} (h : stop ∈ [.asName, .comma, .parenClose]) :
    Expr.reader.EndsBefore stop := by
  intro s hfinish
  cases s with
  | operator e around =>
    have hzero : (ExprState.reduce 0 e around).2 = [] := by
      simp only [Expr.reader, ExprState.finish] at hfinish
      split at hfinish
      · rename_i hheld
        rw [hheld]
      · exact absurd hfinish Bool.false_ne_true
    have hheld : ExprState.reduce 0 e around = ((ExprState.reduce 0 e around).1, []) := by
      rw [← hzero]
    simp only [List.mem_cons, List.not_mem_nil, or_false] at h
    rcases h with rfl | rfl | rfl
    · rfl
    · simp only [Expr.reader, ExprState.step, ExprState.stepSign]
      rw [hheld]
    · simp only [Expr.reader, ExprState.step, ExprState.stepSign]
      rw [hheld]
  | _ => exact absurd hfinish Bool.false_ne_true

theorem endsBefore_name (stop : Sign) : nameReader.EndsBefore stop := by
  rintro (- | n) hfinish
  · exact absurd hfinish Bool.false_ne_true
  · rfl

theorem endsBefore_targets : targetsReader.EndsBefore .isIn := by
  intro s _
  cases s with
  | behindName paren ns => cases paren <;> rfl
  | behindComma paren ns => cases paren <;> rfl
  | _ => rfl

theorem endsBefore_member : nameReader.withNewName.EndsBefore .comma := by
  rintro (s | a | ⟨a, n⟩) hfinish
  · cases s with
    | none => exact absurd hfinish Bool.false_ne_true
    | some n => rfl
  · exact absurd hfinish Bool.false_ne_true
  · rfl

/-! ## Modules and faults -/

/-- A name, perhaps with a new name. -/
theorem member_recognizes : nameReader.withNewName.Recognizes (aName * newName) :=
  nameReader_recognizes.withNewName (endsBefore_name .asName)

theorem importReader_recognizes : importReader.Recognizes importHead :=
  member_recognizes.map _

theorem withReader_recognizes : withReader.Recognizes withHead :=
  (Expr.reader_recognizes.withNewName (endsBefore_expr (by decide))).map _

/-- The head is complete before anything is read, and from then on as a member is. -/
def behindExcept : AliasState (Option String) String → Language Token
  | .inner none => exceptHead
  | s => nameReader.withNewName.completions s

theorem behindExcept_of_ne {s : AliasState (Option String) String} (h : s ≠ .inner none) :
    behindExcept s = nameReader.withNewName.completions s := by
  rw [behindExcept]
  exact h

theorem exceptHead_eq : exceptHead = 1 + nameReader.withNewName.completions (.inner none) :=
  congrArg _ member_recognizes.completions_start.symm

/-- No step leads back in front of the kind of fault. -/
theorem ne_of_step_member {s s' : AliasState (Option String) String} {t : Token}
    (h : nameReader.withNewName.step s t = some s') : s' ≠ .inner none := by
  rintro rfl
  rcases s with s | a | ⟨a, n⟩
  · rcases (embeds_withNewName nameReader).step_cases h with ⟨s', hs', heq⟩ | ⟨a, heq⟩
    · obtain rfl := AliasState.inner.inj heq
      cases s with
      | none => cases t <;> cases hs'
      | some n => cases hs'
    · cases heq
  · cases t <;> cases h
  · cases h

/-- The reader takes nothing but names with new names and the empty head. -/
theorem completions_exceptReader (s : AliasState (Option String) String) :
    exceptReader.completions s = behindExcept s := by
  refine Automaton.completions_eq (fun s => ?_) (fun s t tokens => ?_) s
  · by_cases hs : s = .inner none
    · rw [hs, behindExcept, exceptHead_eq]
      simp [exceptReader]
    · rw [behindExcept_of_ne hs, Automaton.nil_mem_completions]
      rcases s with (- | n) | a | ⟨a, n⟩
      · exact absurd rfl hs
      all_goals simp [exceptReader]
  · have hcons :
        t :: tokens ∈ behindExcept s ↔ t :: tokens ∈ nameReader.withNewName.completions s := by
      by_cases hs : s = .inner none
      · rw [hs, behindExcept, exceptHead_eq]
        simp
      · rw [behindExcept_of_ne hs]
    rw [hcons, Automaton.cons_mem_completions]
    exact exists_congr fun s' => and_congr_right fun hs' => by
      rw [behindExcept_of_ne (ne_of_step_member hs')]

theorem exceptReader_recognizes : exceptReader.Recognizes exceptHead where
  completions_start := completions_exceptReader (.inner none)
  exists_completion {s} hs := by
    rw [completions_exceptReader]
    by_cases hnone : s = .inner none
    · rw [hnone]
      exact ⟨[], .inl rfl⟩
    · rw [behindExcept_of_ne hnone]
      exact member_recognizes.exists_completion hs

/-! ## Loops -/

theorem name_mem_language : [.name "a"] ∈ Expr.language :=
  (Phrase.name "a").ofOperand.loosen (Nat.zero_le _)

theorem embeds_forReader :
    forReader.Embeds targetsReader ForState.targets .isIn (ForState.iter · .start) where
  step_some {s s' t} h := by
    have hs : s.step t = some s' := h
    simp only [forReader, ForState.step, hs]
  step_stop {s} h := by
    have hs : s.step (.sign .isIn) = none := h
    simp only [forReader, ForState.step, hs]
    rfl
  step_none {s t} h ht := by
    have hs : s.step t = none := h
    simp only [forReader, ForState.step, hs]

/-- Behind the targets is what the loop runs through, and nothing behind this. -/
def behindFor : ForState → Language Token
  | .targets s => targetsReader.completions s * (sign .isIn * Expr.language)
  | .iter _ s => Expr.reader.completions s

theorem completions_forReader (s : ForState) : forReader.completions s = behindFor s := by
  refine Automaton.completions_eq (fun s => ?_) (fun s t tokens => ?_) s
  · cases s with
    | targets s => simp [behindFor, Automaton.nil_mem_completions_mul, forReader, ForState.finish]
    | iter names s =>
      rw [behindFor, Automaton.nil_mem_completions]
      simp [forReader, ForState.finish, Expr.reader]
  · cases s with
    | targets s =>
      exact embeds_forReader.cons_mem_iff endsBefore_targets (fun _ _ => cons_mem_sign_mul)
        (fun _ => rfl) (fun _ => Expr.reader_recognizes.completions_start) s t tokens
    | iter names s =>
      exact Automaton.cons_mem_iff_of_step_map (ForState.iter names) (fun _ _ => rfl)
        (fun _ => rfl) s t tokens

/-- The readers within have come to their states. -/
def ForReached : ForState → Prop
  | .targets s => targetsReader.Reaches s
  | .iter _ s => Expr.reader.Reaches s

theorem forReader_recognizes : forReader.Recognizes forHead := by
  refine .of_invariant (P := ForReached) ?_ .start ?_ ?_
  · rw [completions_forReader, forHead, ← targetsReader_recognizes.completions_start, mul_assoc]
    rfl
  · rintro (s | ⟨names, s⟩) t u hs hstep
    · rcases embeds_forReader.step_cases hstep with ⟨s', hs', rfl⟩ | ⟨names, rfl⟩
      · exact hs.step hs'
      · exact .start
    · obtain ⟨s', hs', rfl⟩ := Option.map_eq_some_iff.mp hstep
      exact hs.step hs'
  · rintro (s | ⟨names, s⟩) hs
    · rw [completions_forReader]
      exact targetsReader_recognizes.exists_mem_mul hs
        (cons_mem_sign_mul.mpr ⟨rfl, name_mem_language⟩)
    · rw [completions_forReader]
      exact Expr.reader_recognizes.exists_completion hs

/-! ## Members of a module -/

theorem embeds_fromReader (module : String) (names : List (String × Option String)) :
    fromReader.Embeds nameReader.withNewName (FromState.member module names) .comma
      fun name => .member module (name :: names) nameReader.withNewName.start where
  step_some h := by simp only [fromReader, FromState.step, h]
  step_stop h := by simp only [fromReader, FromState.step, h]
  step_none h ht := by simp only [fromReader, FromState.step, h]

/-- A member with a new name, and the members behind it. -/
def members : Language Token :=
  commas (aName * newName)

/-- A member is completed by the reader of its name, and more of them may follow. -/
def behindFrom : FromState → Language Token
  | .start => aName * (sign .import_ * members)
  | .behindModule _ => sign .import_ * members
  | .member _ _ s => nameReader.withNewName.completions s * (sign .comma * (aName * newName))∗

theorem completions_fromReader (s : FromState) : fromReader.completions s = behindFrom s := by
  have hstart : nameReader.withNewName.completions nameReader.withNewName.start *
      (sign .comma * (aName * newName))∗ = members := by
    rw [member_recognizes.completions_start, members, commas]
  refine Automaton.completions_eq (fun s => ?_) (fun s t tokens => ?_) s
  · cases s with
    | member module names s =>
      rw [behindFrom, Automaton.nil_mem_completions_mul, and_iff_left (Language.nil_mem_kstar _)]
      simp [fromReader, FromState.finish]
    | _ => simp [behindFrom, fromReader, FromState.finish]
  · cases s with
    | start => cases t <;> simp [behindFrom, fromReader, FromState.step]
    | behindModule module =>
      rw [behindFrom, cons_mem_sign_mul]
      by_cases ht : t = .sign .import_
      · subst ht
        simp [fromReader, FromState.step, behindFrom, hstart]
      · simp [fromReader, FromState.step, ht]
    | member module names s =>
      exact (embeds_fromReader module names).cons_mem_iff endsBefore_member
        (fun _ _ => cons_mem_more) (fun _ => rfl) (fun _ => hstart) s t tokens

/-- The reader within has come to its state. -/
def FromReached : FromState → Prop
  | .member _ _ s => nameReader.withNewName.Reaches s
  | _ => True

theorem fromReader_recognizes : fromReader.Recognizes fromHead := by
  have hmembers : [.name "a"] ∈ members :=
    Language.append_mem_mul (Language.append_mem_mul name_mem_aName nil_mem_newName)
      (Language.nil_mem_kstar _)
  refine .of_invariant (P := FromReached) ?_ trivial ?_ ?_
  · rw [completions_fromReader, fromHead, mul_assoc]
    rfl
  · rintro (- | module | ⟨module, names, s⟩) t u hs hstep
    · cases t <;> cases hstep
      trivial
    · by_cases ht : t = .sign .import_
      · subst ht
        cases hstep
        exact .start
      · simp [fromReader, FromState.step, ht] at hstep
    · rcases (embeds_fromReader module names).step_cases hstep with ⟨s', hs', rfl⟩ | ⟨name, rfl⟩
      · exact hs.step hs'
      · exact .start
  · rintro (- | module | ⟨module, names, s⟩) hs
    · rw [completions_fromReader]
      exact ⟨_, cons_mem_aName_mul.mpr ⟨⟨"a", rfl⟩, cons_mem_sign_mul.mpr ⟨rfl, hmembers⟩⟩⟩
    · rw [completions_fromReader]
      exact ⟨_, cons_mem_sign_mul.mpr ⟨rfl, hmembers⟩⟩
    · rw [completions_fromReader]
      exact member_recognizes.exists_mem_mul hs (Language.nil_mem_kstar _)

/-! ## Faults raised and asserted -/

theorem embeds_raiseReader (kind : String) :
    raiseReader.Embeds Expr.reader (RaiseState.message kind) .parenClose
      (RaiseState.closed kind ∘ some) where
  step_some {s s' t} h := by
    have hs : s.step t = some s' := h
    simp only [raiseReader, RaiseState.step, hs]
  step_stop {s} h := by
    have hs : s.step (.sign .parenClose) = none := h
    simp only [raiseReader, RaiseState.step, hs]
    rfl
  step_none {s t} h ht := by
    have hs : s.step t = none := h
    simp only [raiseReader, RaiseState.step, hs]

/-- The parentheses are closed behind the text, or at once. -/
def behindRaise : RaiseState → Language Token
  | .start => raiseHead
  | .behindKind _ => 1 + sign .parenOpen * (1 + Expr.language) * sign .parenClose
  | .inParen _ => (1 + Expr.language) * sign .parenClose
  | .message _ s => Expr.reader.completions s * sign .parenClose
  | .closed _ _ => 1

/-- In the parentheses is nothing, or an expression. -/
theorem cons_mem_inParen : t :: tokens ∈ (1 + Expr.language) * sign .parenClose ↔
    t = .sign .parenClose ∧ tokens = [] ∨
      ∃ s, Expr.reader.step .start t = some s ∧
        tokens ∈ Expr.reader.completions s * sign .parenClose := by
  have hstart : (Expr.reader.finish Expr.reader.start).isSome = false := rfl
  rw [add_mul, one_mul, Language.mem_add, cons_mem_sign, ← Expr.reader_recognizes.completions_start,
    Automaton.cons_mem_completions_mul, hstart]
  simp
  rfl

theorem step_inParen (kind : String) (ht : t ≠ .sign .parenClose) :
    raiseReader.step (.inParen kind) t =
      (Expr.reader.step .start t).map (RaiseState.message kind) := by
  simp only [raiseReader, RaiseState.step]
  rfl

theorem completions_raiseReader (s : RaiseState) : raiseReader.completions s = behindRaise s := by
  refine Automaton.completions_eq (fun s => ?_) (fun s t tokens => ?_) s
  · cases s with
    | message kind s =>
      rw [behindRaise, Automaton.nil_mem_completions_mul]
      simp [raiseReader, RaiseState.finish]
    | inParen kind => simp [behindRaise, raiseReader, RaiseState.finish, Language.nil_mem_mul]
    | _ => simp [behindRaise, raiseHead, raiseReader, RaiseState.finish]
  · cases s with
    | start => cases t <;> simp [behindRaise, raiseHead, raiseReader, RaiseState.step]
    | behindKind kind =>
      rw [behindRaise, mul_assoc, Language.mem_add, cons_mem_sign_mul]
      by_cases ht : t = .sign .parenOpen
      · subst ht
        simp [raiseReader, RaiseState.step, behindRaise]
      · simp [raiseReader, RaiseState.step, ht]
    | inParen kind =>
      rw [behindRaise, cons_mem_inParen]
      by_cases ht : t = .sign .parenClose
      · subst ht
        have hrefuses : Expr.reader.step .start (.sign .parenClose) = none := rfl
        simp [raiseReader, RaiseState.step, behindRaise, hrefuses]
      · rw [step_inParen kind ht]
        cases Expr.reader.step .start t <;> simp [behindRaise, ht]
    | message kind s =>
      exact (embeds_raiseReader kind).cons_mem_iff (endsBefore_expr (by decide))
        (fun _ _ => cons_mem_sign) (fun _ => rfl) (fun _ => rfl) s t tokens
    | closed kind text => simp [behindRaise, raiseReader, RaiseState.step]

/-- The reader within has come to its state. -/
def RaiseReached : RaiseState → Prop
  | .message _ s => Expr.reader.Reaches s
  | _ => True

theorem raiseReader_recognizes : raiseReader.Recognizes raiseHead := by
  refine .of_invariant (P := RaiseReached) (completions_raiseReader .start) trivial ?_ ?_
  · rintro (- | kind | kind | ⟨kind, s⟩ | ⟨kind, text⟩) t u hs hstep
    · cases t <;> cases hstep
      trivial
    · by_cases ht : t = .sign .parenOpen
      · subst ht
        cases hstep
        trivial
      · simp [raiseReader, RaiseState.step, ht] at hstep
    · by_cases ht : t = .sign .parenClose
      · subst ht
        cases hstep
        trivial
      · rw [step_inParen kind ht] at hstep
        obtain ⟨s', hs', rfl⟩ := Option.map_eq_some_iff.mp hstep
        exact Automaton.Reaches.start.step hs'
    · rcases (embeds_raiseReader kind).step_cases hstep with ⟨s', hs', rfl⟩ | ⟨e, rfl⟩
      · exact hs.step hs'
      · trivial
    · cases hstep
  · rintro (- | kind | kind | ⟨kind, s⟩ | ⟨kind, text⟩) hs <;> rw [completions_raiseReader]
    · exact ⟨_, cons_mem_aName_mul.mpr ⟨⟨"a", rfl⟩, .inl rfl⟩⟩
    · exact ⟨[], .inl rfl⟩
    · exact ⟨_, cons_mem_inParen.mpr (.inl ⟨rfl, rfl⟩)⟩
    · exact Expr.reader_recognizes.exists_mem_mul hs (cons_mem_sign.mpr ⟨rfl, rfl⟩)
    · exact ⟨[], rfl⟩

theorem embeds_assertReader :
    assertReader.Embeds Expr.reader AssertState.test .comma (AssertState.message · .start) where
  step_some {s s' t} h := by
    have hs : s.step t = some s' := h
    simp only [assertReader, AssertState.step, hs]
  step_stop {s} h := by
    have hs : s.step (.sign .comma) = none := h
    simp only [assertReader, AssertState.step, hs]
    rfl
  step_none {s t} h ht := by
    have hs : s.step t = none := h
    simp only [assertReader, AssertState.step, hs]

/-- Behind the condition there may be a text, and nothing behind this. -/
def behindAssert : AssertState → Language Token
  | .test s => Expr.reader.completions s * (1 + sign .comma * Expr.language)
  | .message _ s => Expr.reader.completions s

theorem completions_assertReader (s : AssertState) :
    assertReader.completions s = behindAssert s := by
  have hmessage {t : Token} {tokens : List Token} : t :: tokens ∈ 1 + sign .comma * Expr.language ↔
      t = .sign .comma ∧ tokens ∈ Expr.language := by simp
  refine Automaton.completions_eq (fun s => ?_) (fun s t tokens => ?_) s
  · cases s with
    | test s =>
      rw [behindAssert, Automaton.nil_mem_completions_mul, and_iff_left (.inl rfl)]
      simp [assertReader, AssertState.finish, Expr.reader]
    | message e s =>
      rw [behindAssert, Automaton.nil_mem_completions]
      simp [assertReader, AssertState.finish, Expr.reader]
  · cases s with
    | test s =>
      exact embeds_assertReader.cons_mem_iff (endsBefore_expr (by decide)) (fun _ _ => hmessage)
        (fun _ => rfl) (fun _ => Expr.reader_recognizes.completions_start) s t tokens
    | message e s =>
      exact Automaton.cons_mem_iff_of_step_map (AssertState.message e) (fun _ _ => rfl)
        (fun _ => rfl) s t tokens

/-- The reader within has come to its state. -/
def AssertReached : AssertState → Prop
  | .test s => Expr.reader.Reaches s
  | .message _ s => Expr.reader.Reaches s

theorem assertReader_recognizes : assertReader.Recognizes assertHead := by
  refine .of_invariant (P := AssertReached) ?_ .start ?_ ?_
  · rw [completions_assertReader, assertHead]
    exact congrArg (· * _) Expr.reader_recognizes.completions_start
  · rintro (s | ⟨e, s⟩) t u hs hstep
    · rcases embeds_assertReader.step_cases hstep with ⟨s', hs', rfl⟩ | ⟨e, rfl⟩
      · exact hs.step hs'
      · exact .start
    · obtain ⟨s', hs', rfl⟩ := Option.map_eq_some_iff.mp hstep
      exact hs.step hs'
  · rintro (s | ⟨e, s⟩) hs
    · rw [completions_assertReader]
      exact Expr.reader_recognizes.exists_mem_mul hs (.inl rfl)
    · rw [completions_assertReader]
      exact Expr.reader_recognizes.exists_completion hs

/-! ## Faults -/

/-- **Faults in expressions and in heads stand where the grammar ends**: a text is read just if its
tokens are in the language.  Otherwise the fault is the first token with which nothing in the
language goes on, or the end of the text, if there is no such token. -/
theorem readers_diagnose (text : List Char) :
    Expr.reader.Diagnoses Expr.language text ∧ targetsReader.Diagnoses targets text ∧
      namesReader.Diagnoses names text ∧ forReader.Diagnoses forHead text ∧
      withReader.Diagnoses withHead text ∧ exceptReader.Diagnoses exceptHead text ∧
      importReader.Diagnoses importHead text ∧ fromReader.Diagnoses fromHead text ∧
      raiseReader.Diagnoses raiseHead text ∧ assertReader.Diagnoses assertHead text :=
  ⟨Expr.reader_recognizes.diagnoses text, targetsReader_recognizes.diagnoses text,
    namesReader_recognizes.diagnoses text, forReader_recognizes.diagnoses text,
    withReader_recognizes.diagnoses text, exceptReader_recognizes.diagnoses text,
    importReader_recognizes.diagnoses text, fromReader_recognizes.diagnoses text,
    raiseReader_recognizes.diagnoses text, assertReader_recognizes.diagnoses text⟩

end Head

/-- **The end of a text with a blank behind its last token** is not said to be where the text ends:
a lone sign begins an expression, the text ends at the second byte, and the place of the fault goes
back to the first. -/
theorem Expr.read_blankBehind :
    Token.lex "- ".toList = .ok [(.sign .minus, ⟨0, 1⟩)] ∧ byteLength "- ".toList = 2 ∧
      Begins Expr.language [.sign .minus] ∧ [.sign .minus] ∉ Expr.language ∧
      Expr.read "- ".toList = .error (.unexpectedEnd, ⟨2, 1⟩) ∧
      Expr.read "- ".toList ≠ .error (.unexpectedEnd, ⟨2, 2⟩) := by
  have hlex : Token.lex "- ".toList = .ok [(.sign .minus, ⟨0, 1⟩)] := by cbv
  have hread : Expr.read "- ".toList = .error (.unexpectedEnd, ⟨2, 1⟩) := by cbv
  have hsteps : [Token.sign .minus].foldlM Expr.reader.step Expr.reader.start =
      some (.operand [.neg]) := rfl
  refine ⟨hlex, rfl, Expr.reader_recognizes.begins hsteps, ?_, hread, ?_⟩
  · rw [← Expr.reader_recognizes.completions_start]
    rintro ⟨s, hs, hfinish⟩
    obtain rfl := Option.some.inj (hsteps.symm.trans hs)
    exact absurd hfinish Bool.false_ne_true
  · rw [hread]
    intro h
    cases h

end Inlay
