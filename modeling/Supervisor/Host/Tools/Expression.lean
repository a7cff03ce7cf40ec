/-
  A small program that computes.

  * `Expression.evaluate` is the value of an expression that is given word by
    word, or why it has none.
-/
import Supervisor.Host.Tools.Words

namespace Supervisor.Host.Expression

/-- What is wrong with an expression. -/
inductive Problem where
  | noWords
  | missingAfter (word : String)
  | unexpected (word : String)
  | unclosed (word : String)
  | notNumber
  | divisionByZero

/-- What is said of it. -/
def Problem.text : Problem → String
  | noWords => "missing operand"
  | missingAfter w => "syntax error: missing argument after " ++ Quote.escaped w
  | unexpected w => "syntax error: unexpected argument " ++ Quote.escaped w
  | unclosed w => "syntax error: expecting ')' after " ++ Quote.escaped w
  | notNumber => "non-integer argument"
  | divisionByZero => "division by zero"

/-- A whole number. -/
def int? (s : String) : Option Int :=
  match s.toList with
  | '-' :: ds => (decimal? ds).map fun n => -n
  | ds => (decimal? ds).map fun n => n

/-- Whether a value counts as nothing: it is empty or zero. -/
def isNull (s : String) : Bool := s = "" || int? s = some 0

/-- Operators of two values, by how strongly they bind, the weakest first. -/
def levels : List (List String) :=
  [["|"], ["&"], ["=", "==", "!=", "<", "<=", ">", ">="], ["+", "-"], ["*", "/", "%"]]

/-- A truth value. -/
def ofBool (b : Bool) : String := if b then "1" else "0"

/-- The value of an operator. -/
def apply (op a b : String) : Except Problem String :=
  let arithmetic (f : Int → Int → Except Problem Int) : Except Problem String :=
    match int? a, int? b with
    | some x, some y => (f x y).map toString
    | _, _ => .error .notNumber
  let order : Ordering := match int? a, int? b with
    | some x, some y => compare x y
    | _, _ => compare a b
  match op with
  | "|" => .ok (if !isNull a then a else if !isNull b then b else "0")
  | "&" => .ok (if isNull a || isNull b then "0" else a)
  | "=" | "==" => .ok (ofBool (order = .eq))
  | "!=" => .ok (ofBool (order ≠ .eq))
  | "<" => .ok (ofBool (order = .lt))
  | "<=" => .ok (ofBool (order ≠ .gt))
  | ">" => .ok (ofBool (order = .gt))
  | ">=" => .ok (ofBool (order ≠ .lt))
  | "+" => arithmetic fun x y => .ok (x + y)
  | "-" => arithmetic fun x y => .ok (x - y)
  | "*" => arithmetic fun x y => .ok (x * y)
  | "/" => arithmetic fun x y => if y = 0 then .error .divisionByZero else .ok (Int.tdiv x y)
  | _ => arithmetic fun x y => if y = 0 then .error .divisionByZero else .ok (Int.tmod x y)

mutual

/-- A value at the start of some words, and the rest; `before` is the word in
    front of it. -/
def value : Nat → String → List String → Except Problem (String × List String)
  | 0, before, _ => .error (.missingAfter before)
  | _, "", [] => .error .noWords
  | _, before, [] => .error (.missingAfter before)
  | fuel + 1, _, "(" :: rest => do
    match ← terms fuel levels "(" rest with
    | (v, ")" :: rest) => return (v, rest)
    | (v, []) => .error (.unclosed v)
    | (_, w :: _) => .error (.unexpected w)
  | _, _, ")" :: _ => .error (.unexpected ")")
  | fuel + 1, _, "length" :: rest => do
    let (v, rest) ← value fuel "length" rest
    return (toString v.length, rest)
  | fuel + 1, _, "index" :: rest => do
    let (a, rest) ← value fuel "index" rest
    let (b, rest) ← value fuel a rest
    return (toString (((a.toList.findIdx? b.toList.contains).map (· + 1)).getD 0), rest)
  | fuel + 1, _, "substr" :: rest => do
    let (a, rest) ← value fuel "substr" rest
    let (i, rest) ← value fuel a rest
    let (n, rest) ← value fuel i rest
    match int? i, int? n with
    | some i, some n =>
      if i ≤ 0 || n ≤ 0 then return ("", rest)
      else return (String.ofList ((a.toList.drop (i.toNat - 1)).take n.toNat), rest)
    | _, _ => return ("", rest)
  | _, _, "+" :: w :: rest => .ok (w, rest)
  | _, _, w :: rest => .ok (w, rest)

/-- Values joined by operators of some levels. -/
def terms : Nat → List (List String) → String → List String → Except Problem (String × List String)
  | 0, _, before, _ => .error (.missingAfter before)
  | fuel + 1, [], before, ws => value fuel before ws
  | fuel + 1, level :: more, before, ws => do
    let (a, rest) ← terms fuel more before ws
    joined fuel level more a rest

/-- What is joined to a value by the operators of a level. -/
def joined : Nat → List String → List (List String) → String → List String →
    Except Problem (String × List String)
  | 0, _, _, a, rest => .ok (a, rest)
  | _, _, _, a, [] => .ok (a, [])
  | fuel + 1, level, more, a, op :: rest =>
    if level.contains op then do
      let (b, rest) ← terms fuel more op rest
      joined fuel level more (← apply op a b) rest
    else .ok (a, op :: rest)

end

/-- The value of an expression. -/
def evaluate (words : List String) : Except Problem String := do
  match ← terms (16 * words.length + 16) levels "" words with
  | (v, []) => return v
  | (_, w :: _) => .error (.unexpected w)

/-- Compute. -/
def expr : Tool := fun v _ args =>
  let words := if args.head? = some "--" then args.drop 1 else args
  match evaluate words with
  | .ok s => { Effect.print (Utility.line s) with code := if isNull s then 1 else 0 }
  | .error .noWords => v.refuse 2 Problem.noWords.text
  | .error p => v.complain 2 p.text

end Supervisor.Host.Expression
