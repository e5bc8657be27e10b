import Inlay.Error
import Inlay.Statement.Basic
import Inlay.Statement.Assignment

/-!
# Which statement a text is

The text of a statement is tried against the grammars of the configuration, one after the other. A
grammar may claim the text, claim it as malformed, or leave it to the others. Most go by the first
word; an output statement is known by an equals sign behind the name of a filter.

* `splitKeyword`: the first word of a text.
* `Grammar.match?`: one grammar.
* `Config.classify`: the first grammar that claims the text.
-/

namespace Inlay

/-- A character of a keyword or of a name. -/
def isWordPart (c : Char) : Bool :=
  c.isAlphanum || c == '_'

/-- The first word of a text, which may be empty, and the rest without blanks at its ends. -/
def splitKeyword (text : List Char) : String × List Char :=
  (String.ofList (text.takeWhile isWordPart), Text.trim (text.dropWhile isWordPart))

/-- A block is named by a letter and then letters, digits and underscores. -/
def isBlockName : List Char → Bool
  | [] => false
  | c :: rest => c.isAlpha && rest.all isWordPart

/-- What a grammar says of a text: not mine, mine, or mine and malformed. -/
abbrev Claim : Type := Except SyntaxFault (Option StatementKind)

/-- The head of a statement read; messages call it `what`. -/
def readHead {σ α : Type} (what : String) (m : Automaton σ α) (text : List Char) :
    Except SyntaxFault α :=
  match m.read text with
  | .ok a => .ok a
  | .error (why, _) => .error (.badExpression what why)

/-- The claim of a statement whose head is read and made into the statement. -/
def claim {σ α : Type} (what : String) (m : Automaton σ α) (text : List Char)
    (make : α → StatementKind) : Claim :=
  (readHead what m text).map fun a => some (make a)

/-- A statement without a head: it is claimed if nothing follows its keyword. -/
def bare (text : List Char) (kind : StatementKind) : Claim :=
  .ok (if text.isEmpty then some kind else none)

namespace Grammar

def matchBlock (keyword : String) (rest : List Char) : Claim :=
  if keyword != "block" then .ok none
  else if isBlockName rest then .ok (some (.block (String.ofList rest)))
  else .error (.badBlockName (String.ofList rest))

def matchFor (isAsync : Bool) (rest : List Char) : Claim :=
  claim "for loop" forReader rest fun head => .opening (.forEach head isAsync)

def matchWith (isAsync : Bool) (rest : List Char) : Claim :=
  claim "with statement" withReader rest fun head => .opening (.withBinding head isAsync)

def matchOpening (keyword : String) (rest : List Char) : Claim :=
  match keyword with
  | "if" => claim "condition" Expr.reader rest fun e => .opening (.ifTest e)
  | "while" => claim "condition" Expr.reader rest fun e => .opening (.whileTest e)
  | "for" => matchFor false rest
  | "with" => matchWith false rest
  | "try" => bare rest (.opening .tryBody)
  | "async" =>
    match splitKeyword rest with
    | ("for", head) => matchFor true head
    | ("with", head) => matchWith true head
    | _ => .ok none
  | _ => .ok none

def matchClause (keyword : String) (rest : List Char) : Claim :=
  match keyword with
  | "elif" => claim "condition" Expr.reader rest fun e => .clause (.elifTest e)
  | "else" => bare rest (.clause .elseBranch)
  | "except" => claim "except clause" exceptReader rest fun head => .clause (.except head)
  | "finally" => bare rest (.clause .finally_)
  | _ => .ok none

def matchInline (keyword : String) (rest : List Char) : Claim :=
  match keyword with
  | "break" => bare rest (.inline .breakLoop)
  | "continue" => bare rest (.inline .continueLoop)
  | "import" => claim "import" importReader rest fun head => .inline (.importModule head)
  | "from" => claim "import" fromReader rest fun head => .inline (.importNames head)
  | "raise" =>
    if rest.isEmpty then .ok (some (.inline (.raise none)))
    else claim "raise" raiseReader rest fun head => .inline (.raise (some head))
  | "global" => claim "global" namesReader rest fun names => .inline (.declareGlobal names)
  | "nonlocal" => claim "nonlocal" namesReader rest fun names => .inline (.declareNonlocal names)
  | "assert" => claim "assert" assertReader rest fun head => .inline (.assertion head)
  | _ => .ok none

/-- An output statement: an equals sign, no second one behind it, and in front of it the name of a
filter of the configuration or nothing. -/
def matchOutput (config : Config) (text : List Char) : Claim :=
  match text.dropWhile isWordPart with
  | '=' :: '=' :: _ => .ok none
  | '=' :: source =>
    let word := String.ofList (text.takeWhile isWordPart)
    let name := if word.isEmpty then "default" else word
    match config.filter? name with
    | none => .ok none
    | some apply =>
      let source := Text.trim source
      if source.isEmpty then .error .emptyOutput
      else claim "output expression" Expr.reader source fun e => .output ⟨name, apply⟩ e
  | _ => .ok none

/-- An assignment behind its keyword. -/
def readAssignment (rest : List Char) : Except SyntaxFault StatementKind :=
  match Text.cutBare none false none rest with
  | [left, right] =>
    let target := Text.trim left
    let value := Text.trim right
    if target.isEmpty || value.isEmpty then .error .badAssignment
    else match targetsReader.read target with
      | .error _ => .error .badAssignment
      | .ok targets => (readHead "assigned expression" Expr.reader value).map (.assignment targets)
  | _ => .error .badAssignment

/-- What a grammar says of a text. -/
def match? (config : Config) (g : Grammar) (text : List Char) : Claim :=
  let (keyword, rest) := splitKeyword text
  match g with
  | block => matchBlock keyword rest
  | inclusion =>
    if keyword == "include" then claim "path" Expr.reader rest .inclusion else .ok none
  | inheritance =>
    if keyword == "inherit" then claim "path" Expr.reader rest .inheritance else .ok none
  | opening => matchOpening keyword rest
  | ending => .ok (if text == "end".toList then some .ending else none)
  | clause => matchClause keyword rest
  | inline => matchInline keyword rest
  | comment => match text with
    | '#' :: rest => .ok (some (.comment (String.ofList (Text.trim rest))))
    | _ => .ok none
  | output => matchOutput config text
  | assignment => if keyword == "let" then (readAssignment rest).map some else .ok none

end Grammar

/-- The first of the grammars that claims a text, with the statement that the text is. -/
def Config.firstMatch (config : Config) (text : List Char) :
    List Grammar → Except SyntaxFault (Option (Grammar × StatementKind))
  | [] => .ok none
  | g :: rest => do
    match ← g.match? config text with
    | some kind => return some (g, kind)
    | none => firstMatch config text rest

/-- The statement that a text is; none if no grammar of the configuration claims it. -/
def Config.classify (config : Config) (text : List Char) :
    Except SyntaxFault (Option (Grammar × StatementKind)) :=
  config.firstMatch text config.grammars

end Inlay
