/-
  Numbers that a shell computes.

  * `Number.evaluate` is the value of an expression in whole numbers of 64 bits,
    with the variables that it sets, or what is wrong with it (`Number.Problem`).
-/
import Supervisor.Host.Digit
import Supervisor.Host.Shell.Script

namespace Supervisor.Host.Shell.Number

/-! ## Numbers -/

/-- The smallest number. -/
def least : Int := -Int.pow 2 63

/-- The greatest number. -/
def greatest : Int := Int.pow 2 63 - 1

/-- A number as 64 bits hold it. -/
def wrap (n : Int) : Int := Int.bmod n (Nat.pow 2 64)

/-- The number within the range that is nearest. -/
def clamp (n : Int) : Int := max least (min greatest n)

/-- The digits of a number at the start, and the rest: in base 16 behind `0x`,
    in base 8 behind a zero, and else in base 10. -/
def digitsOf (cs : List Char) : Nat × List Char :=
  let read (base : Nat) (isDigit : Char → Bool) (cs : List Char) : Nat × List Char :=
    let digits := cs.takeWhile isDigit
    (digitsValue base digits, cs.drop digits.length)
  match cs with
  | '0' :: x :: c :: rest =>
    if x.toLower = 'x' && isHex c then read 16 isHex (c :: rest) else read 8 isOctal cs
  | '0' :: rest => read 8 isOctal ('0' :: rest)
  | cs => read 10 Char.isDigit cs

/-- Whether a character is a blank in front of a number. -/
def isSpace (c : Char) : Bool := c = ' ' || ('\t' ≤ c && c ≤ '\r')

/-- The number that a text is all of, blanks around it apart; `base10` says that
    it is in base 10. -/
def ofText? (base10 : Bool) (s : String) : Option Int :=
  let cs := s.toList.dropWhile isSpace
  let (negative, digits) := match cs with
    | '-' :: rest => (true, rest)
    | '+' :: rest => (false, rest)
    | cs => (false, cs)
  let (n, rest) := if base10 then
      let ds := digits.takeWhile Char.isDigit
      (digitsValue 10 ds, digits.drop ds.length)
    else digitsOf digits
  if !digits.head?.any Char.isDigit || !rest.all isSpace then none
  else
    let value : Int := if negative then -n else n
    if least ≤ value ∧ value ≤ greatest then some value else none

/-! ## Operators -/

/-- The operators between two numbers, longest spelling first, by how weakly they
    bind. -/
def binaryOperators : List (String × Nat) :=
  [("==", 4), ("!=", 4), ("<=", 3), (">=", 3), ("<<", 2), (">>", 2), ("*", 0), ("/", 0), ("%", 0),
    ("+", 1), ("-", 1), ("<", 3), (">", 3), ("&", 5), ("^", 6), ("|", 7)]

/-- More weakly than any operator binds. -/
def weakest : Nat := 8

/-- The operators that can stand in an assignment. -/
def assignable : List String := ["<<", ">>", "*", "/", "%", "+", "-", "&", "^", "|"]

/-- A truth value as a number. -/
def ofBool (b : Bool) : Int := if b then 1 else 0

/-- The bits of a number. -/
def bits (n : Int) : BitVec 64 := BitVec.ofInt 64 n

/-- What can be wrong with an expression. -/
inductive Problem where
  /-- it is not well-formed, or a number is divided by zero -/
  | invalid (why : String)
  /-- the value of a variable is no number -/
  | notNumber (value : String)
  /-- a variable cannot be set -/
  | fixed (name : String)
  deriving DecidableEq

/-- The value of an operator; there is none for a division by zero. -/
def apply (op : String) (a b : Int) : Except Problem Int :=
  match op with
  | "==" => .ok (ofBool (a = b))
  | "!=" => .ok (ofBool (a ≠ b))
  | "<=" => .ok (ofBool (a ≤ b))
  | ">=" => .ok (ofBool (b ≤ a))
  | "<" => .ok (ofBool (a < b))
  | ">" => .ok (ofBool (b < a))
  | "+" => .ok (wrap (a + b))
  | "-" => .ok (wrap (a - b))
  | "*" => .ok (wrap (a * b))
  | "<<" => .ok (bits a <<< (bits b).toNat % 64).toInt
  | ">>" => .ok ((bits a).sshiftRight ((bits b).toNat % 64)).toInt
  | "&" => .ok (bits a &&& bits b).toInt
  | "|" => .ok (bits a ||| bits b).toInt
  | "^" => .ok (bits a ^^^ bits b).toInt
  | op =>
    if b = 0 then .error (.invalid "division by zero")
    else if op = "/" then .ok (wrap (Int.tdiv a b))
    else .ok (Int.tmod a b)

/-! ## Tokens -/

/-- A token of an expression. -/
inductive Token where
  | number (n : Int)
  | name (s : String)
  | operator (s : String)
  /-- the end of the text -/
  | ending
  deriving DecidableEq

/-- The spellings of operators, longest first. -/
def operators : List String :=
  ["<<=", ">>=", "==", "!=", "<=", ">=", "&&", "||", "<<", ">>", "*=", "/=", "%=", "+=", "-=", "&=",
    "^=", "|=", "(", ")", "!", "~", "?", ":", "=", "<", ">", "*", "/", "%", "+", "-", "&", "^", "|"]

/-- The tokens of a text; the number bounds their count. -/
def tokensFor : Nat → List Char → List Token
  | 0, _ => []
  | _, [] => []
  | fuel + 1, c :: rest =>
    if c = ' ' ∨ c = '\t' ∨ c = '\n' then tokensFor fuel rest
    else if c.isDigit then
      let (n, rest) := digitsOf (c :: rest)
      .number (clamp n) :: tokensFor fuel rest
    else if isNameStart c then
      let name := c :: rest.takeWhile isNameChar
      .name (String.ofList name) :: tokensFor fuel (rest.drop (name.length - 1))
    else match operators.find? fun s => s.toList.isPrefixOf (c :: rest) with
      | some s => .operator s :: tokensFor fuel ((c :: rest).drop s.length)
      | none => .operator (String.ofList [c]) :: tokensFor fuel rest

/-! ## Expressions -/

/-- What was read of an expression. -/
structure Reading where
  value : Int
  rest : List Token
  /-- the variables that were set, latest first -/
  store : List (String × Int)

/-- The variables that an expression sees. -/
structure Variables where
  valueOf : String → Option String
  isFixed : String → Bool

/-- The value of a variable; one that is empty or missing counts as zero. -/
def Variables.get (vars : Variables) (store : List (String × Int)) (name : String) :
    Except Problem Int :=
  match store.lookup name, vars.valueOf name with
  | some n, _ => .ok n
  | none, none => .ok 0
  | none, some text =>
    if text.toList.all isSpace then .ok 0
    else match ofText? false text with
      | some n => .ok n
      | none => .error (.notNumber text)

/-- The first operator, if it is one between two numbers, and how weakly it
    binds. -/
def binaryAt (ts : List Token) : Option (String × Nat) :=
  match ts with
  | .operator s :: _ => binaryOperators.find? (·.1 = s)
  | _ => none

/-- Whether the tokens start with an operator. -/
def startsWith (s : String) (ts : List Token) : Bool := ts.head? = some (.operator s)

/-- The operator of an assignment at the start, if it has one. -/
def assigning? (ts : List Token) : Option (Option String) :=
  match ts with
  | .operator "=" :: _ => some none
  | .operator s :: _ => (assignable.find? fun op => op ++ "=" = s).map some
  | _ => none

section
variable (vars : Variables)

mutual

/-- An operand.  `skipped` says that no value is wanted. -/
def primary : Nat → Bool → List (String × Int) → List Token → Except Problem Reading
  | 0, _, _, _ => .error (.invalid "expecting primary")
  | fuel + 1, skipped, store, ts =>
    let unary (rest : List Token) (f : Int → Int) : Except Problem Reading := do
      let r ← primary fuel skipped store rest
      return { r with value := f r.value }
    match ts with
    | .number n :: rest => .ok ⟨n, rest, store⟩
    | .name s :: rest => do return ⟨← if skipped then pure 0 else vars.get store s, rest, store⟩
    | .operator "(" :: rest => do
      let r ← assignment fuel skipped store rest
      if startsWith ")" r.rest then return { r with rest := r.rest.drop 1 }
      else .error (.invalid "expecting ')'")
    | .operator "+" :: rest => primary fuel skipped store rest
    | .operator "-" :: rest => unary rest fun n => wrap (-n)
    | .operator "!" :: rest => unary rest fun n => ofBool (n = 0)
    | .operator "~" :: rest => unary rest fun n => -n - 1
    | _ => .error (.invalid "expecting primary")

/-- Operands joined to a value by operators that bind more strongly than so. -/
def binaryRest : Nat → Bool → Nat → Reading → Except Problem Reading
  | 0, _, _, r => .ok r
  | fuel + 1, skipped, limit, r =>
    match (binaryAt r.rest).filter (·.2 < limit) with
    | none => .ok r
    | some (op, n) => do
      let right ← primary fuel skipped r.store (r.rest.drop 1)
      let right ← binaryRest fuel skipped n right
      let value ← if skipped then pure 0 else apply op r.value right.value
      binaryRest fuel skipped limit { right with value }

/-- Operands joined by "and". -/
def conjunction : Nat → Bool → List (String × Int) → List Token → Except Problem Reading
  | 0, _, _, _ => .error (.invalid "expecting primary")
  | fuel + 1, skipped, store, ts => do
    let a ← primary fuel skipped store ts
    let a ← binaryRest fuel skipped weakest a
    if startsWith "&&" a.rest then
      let b ← conjunction fuel (skipped || a.value = 0) a.store (a.rest.drop 1)
      return { b with value := ofBool (a.value ≠ 0 && b.value ≠ 0) }
    else return a

/-- Operands joined by "or". -/
def disjunction : Nat → Bool → List (String × Int) → List Token → Except Problem Reading
  | 0, _, _, _ => .error (.invalid "expecting primary")
  | fuel + 1, skipped, store, ts => do
    let a ← conjunction fuel skipped store ts
    if startsWith "||" a.rest then
      let b ← disjunction fuel (skipped || a.value ≠ 0) a.store (a.rest.drop 1)
      return { b with value := ofBool (a.value ≠ 0 || b.value ≠ 0) }
    else return a

/-- A choice between two expressions, or one of them. -/
def conditional : Nat → Bool → List (String × Int) → List Token → Except Problem Reading
  | 0, _, _, _ => .error (.invalid "expecting primary")
  | fuel + 1, skipped, store, ts => do
    let a ← disjunction fuel skipped store ts
    if startsWith "?" a.rest then
      let b ← assignment fuel (skipped || a.value = 0) a.store (a.rest.drop 1)
      if !startsWith ":" b.rest then .error (.invalid "expecting ':'")
      let c ← conditional fuel (skipped || a.value ≠ 0) b.store (b.rest.drop 1)
      return { c with value := if a.value ≠ 0 then b.value else c.value }
    else return a

/-- An expression. -/
def assignment : Nat → Bool → List (String × Int) → List Token → Except Problem Reading
  | 0, _, _, _ => .error (.invalid "expecting primary")
  | fuel + 1, skipped, store, ts =>
    match ts, assigning? (ts.drop 1) with
    | .name s :: _, some op => do
      let r ← assignment fuel skipped store (ts.drop 2)
      if skipped then return r
      let value ← match op with
        | some op => apply op (← vars.get r.store s) r.value
        | none => pure r.value
      if vars.isFixed s then .error (.fixed s)
      return { r with value, store := (s, value) :: r.store }
    | ts, _ => conditional fuel skipped store ts

end

/-- The value of an expression and the variables that it sets, latest first. -/
def evaluate (cs : List Char) : Except Problem (Int × List (String × Int)) := do
  let ts := tokensFor (cs.length + 1) cs
  let r ← assignment vars (8 * ts.length + 8) false [] ts
  if r.rest = [] then return (r.value, r.store) else .error (.invalid "expecting EOF")

end

end Supervisor.Host.Shell.Number
