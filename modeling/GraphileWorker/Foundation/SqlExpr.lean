import GraphileWorker.Foundation.SqlLexer

/-! # Reading an SQL condition

The condition after an `and` is read by recursive descent over the lexemes of a text. An
operator of a longer chain has to be in parentheses, so no precedence is needed.
-/
namespace GraphileWorker.Foundation.Sql

inductive Lexeme
  | word (text : List Char)
  | string (text : List Char)
  | param (ordinal : ℕ)
  | op (text : List Char)
  | punct (c : Char)
  deriving DecidableEq

def isOperator (c : Char) : Bool :=
  ['+','-','*','/','<','>','=','~','!','@','#','%','^','&','|','?',':'].contains c

/-- What has been read of an operator or of a parameter, the last character first. -/
inductive Group
  | none
  | op (acc : List Char)
  | param (acc : List Char)

/-- The lexeme that ends here; a dollar sign without a number is none. -/
def Group.close : Group → Option (List Lexeme)
  | .none => some []
  | .op acc => some [.op acc.reverse]
  | .param acc => if acc.isEmpty then Option.none else some [.param (Nat.ofDigitChars 10 acc.reverse 0)]

/-- Blanks end a lexeme and are no lexemes. Numbers do not occur. -/
def lexemes : Group → List Token → Option (List Lexeme)
  | g, [] => g.close
  | g, .word text :: ts => do
    let ended ← g.close
    let rest ← lexemes .none ts
    some (ended ++ .word text :: rest)
  | g, .string text :: ts => do
    let ended ← g.close
    let rest ← lexemes .none ts
    some (ended ++ .string text :: rest)
  | g, .symbol c :: ts =>
    if isOperator c then
      match g with
      | .op acc => lexemes (.op (c :: acc)) ts
      | g => do
        let ended ← g.close
        let rest ← lexemes (.op [c]) ts
        some (ended ++ rest)
    else if c.isDigit then
      match g with
      | .param acc => lexemes (.param (c :: acc)) ts
      | _ => Option.none
    else do
      let ended ← g.close
      if c = '$' then do
        let rest ← lexemes (.param []) ts
        some (ended ++ rest)
      else do
        let rest ← lexemes .none ts
        some (ended ++ if isBlank c then rest else .punct c :: rest)
  | _, _ => Option.none

inductive Expr
  | param (ordinal : ℕ)
  | column (table name : List Char)
  | string (text : List Char)
  | bool (b : Bool)
  | cast (e : Expr) (type : List Char) (array : Bool)
  | call (function : List Char) (e : Expr)
  | op (operator : List Char) (a b : Expr)
  | isNull (e : Expr)
  | isNotTrue (e : Expr)
  | caseWhen (condition value rest : Expr)
  | and (a b : Expr)
  deriving DecidableEq

inductive Level
  | conj
  | test
  | equation
  | operation
  | cast
  | atom
  | cases

def wAnd : List Char := ['a','n','d']
def wIs : List Char := ['i','s']
def wNot : List Char := ['n','o','t']
def wNull : List Char := ['n','u','l','l']
def wTrue : List Char := ['t','r','u','e']
def wFalse : List Char := ['f','a','l','s','e']
def wCase : List Char := ['c','a','s','e']
def wWhen : List Char := ['w','h','e','n']
def wThen : List Char := ['t','h','e','n']
def wElse : List Char := ['e','l','s','e']
def wEnd : List Char := ['e','n','d']

def expect (l : Lexeme) : List Lexeme → Option (List Lexeme)
  | [] => none
  | x :: rest => if x = l then some rest else none

def parse : ℕ → Level → List Lexeme → Option (Expr × List Lexeme)
  | 0, _, _ => none
  | n + 1, .conj, ts => do
    let (a,rest) ← parse n .test ts
    match expect (.word wAnd) rest with
    | none => some (a,rest)
    | some rest => do
      let (b,rest) ← parse n .conj rest
      some (.and a b,rest)
  | n + 1, .test, ts => do
    let (a,rest) ← parse n .equation ts
    match expect (.word wIs) rest with
    | none => some (a,rest)
    | some rest =>
      match expect (.word wNull) rest with
      | some rest => some (.isNull a,rest)
      | none => do
        let rest ← expect (.word wNot) rest
        let rest ← expect (.word wTrue) rest
        some (.isNotTrue a,rest)
  | n + 1, .equation, ts => do
    let (a,rest) ← parse n .operation ts
    match expect (.op ['=']) rest with
    | none => some (a,rest)
    | some rest => do
      let (b,rest) ← parse n .operation rest
      some (.op ['='] a b,rest)
  | n + 1, .operation, ts => do
    let (a,rest) ← parse n .cast ts
    match rest with
    | .op o :: after =>
      if o = ['='] then some (a,rest)
      else do
        let (b,rest) ← parse n .cast after
        some (.op o a b,rest)
    | _ => some (a,rest)
  | n + 1, .cast, ts => do
    let (a,rest) ← parse n .atom ts
    match expect (.op [':',':']) rest with
    | some (.word type :: .punct '[' :: .punct ']' :: rest) => some (.cast a type true,rest)
    | some (.word type :: rest) => some (.cast a type false,rest)
    | some _ => none
    | none => some (a,rest)
  | _ + 1, .atom, .param ordinal :: rest => some (.param ordinal,rest)
  | _ + 1, .atom, .string text :: rest => some (.string text,rest)
  | n + 1, .atom, .punct '(' :: rest => do
    let (a,rest) ← parse n .conj rest
    let rest ← expect (.punct ')') rest
    some (a,rest)
  | _ + 1, .atom, .word table :: .punct '.' :: .word name :: rest => some (.column table name,rest)
  | n + 1, .atom, .word function :: .punct '(' :: rest => do
    let (a,rest) ← parse n .conj rest
    let rest ← expect (.punct ')') rest
    some (.call function a,rest)
  | n + 1, .atom, .word word :: rest =>
    if word = wTrue then some (.bool true,rest)
    else if word = wFalse then some (.bool false,rest)
    else if word = wCase then parse n .cases rest
    else none
  | n + 1, .cases, .word word :: rest =>
    if word = wWhen then do
      let (condition,rest) ← parse n .conj rest
      let rest ← expect (.word wThen) rest
      let (value,rest) ← parse n .conj rest
      let (others,rest) ← parse n .cases rest
      some (.caseWhen condition value others,rest)
    else if word = wElse then do
      let (value,rest) ← parse n .conj rest
      let rest ← expect (.word wEnd) rest
      some (value,rest)
    else none
  | _, _, _ => none

/-- The condition that a text adds by `and` to the one before it; an empty text adds none. -/
def addedCondition (ts : List Token) : Option (Option Expr) := do
  let ls ← lexemes .none ts
  if ls.isEmpty then some none
  else do
    let rest ← expect (.word wAnd) ls
    match parse (ls.length + 8) .conj rest with
    | some (e,[]) => some (some e)
    | _ => none

end GraphileWorker.Foundation.Sql
