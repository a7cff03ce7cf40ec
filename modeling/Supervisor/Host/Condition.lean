/-
  Conditions: what a list of words says about texts, numbers and files.

  * whether a condition holds, or what is wrong with it
    (`Condition.Problem`), to a shell (`Condition.inShell`) and to a program of
    the host (`Condition.forProgram`), which differ in what they take for an
    operator.
-/
import Supervisor.Host.Effect
import Supervisor.Host.Quote
import Supervisor.Host.Shell.Number

namespace Supervisor.Host.Condition

/-! ## Operators -/

/-- A word that may have a meaning of its own. -/
inductive Operator where
  | unary
  | binary
  | negation
  | conjunction
  | disjunction
  | opening
  | closing
  deriving DecidableEq

/-- The tests of one word. -/
def unaryOperators : List String :=
  ["-r", "-w", "-x", "-e", "-f", "-d", "-c", "-b", "-p", "-u", "-g", "-k", "-s", "-t", "-z", "-n", "-h",
    "-O", "-G", "-L", "-S"]

/-- The tests of two words. -/
def binaryOperators : List String :=
  ["=", "!=", "<", ">", "-eq", "-ne", "-ge", "-gt", "-le", "-lt", "-nt", "-ot", "-ef"]

/-- The meaning of a word. -/
def Operator.of? (s : String) : Option Operator :=
  if unaryOperators.contains s then some .unary
  else if binaryOperators.contains s then some .binary
  else match s with
    | "!" => some .negation
    | "-a" => some .conjunction
    | "-o" => some .disjunction
    | "(" => some .opening
    | ")" => some .closing
    | _ => none

/-- What can be wrong with a condition. -/
inductive Problem where
  | missingBracket
  | missingArgument (operator : String)
  | missingClose
  | unexpected (word : String)
  | notNumber (word : String)
  /-- a program wants an operator of one word -/
  | notUnary (word : String)
  /-- a program wants an operator between two words -/
  | notBinary (word : String)
  deriving DecidableEq

/-- What is said about a condition that is wrong. -/
def Problem.text (inShell : Bool) (p : Problem) : String :=
  let named (s what : String) : String := if s = "" then what else s ++ ": " ++ what
  match p, inShell with
  | missingBracket, true => "missing ]"
  | missingBracket, false => "missing ']'"
  | missingArgument op, true => named op "argument expected"
  | missingArgument op, false => "missing argument after " ++ Quote.escaped op
  | missingClose, true => "closing paren expected"
  | missingClose, false => "')' expected"
  | unexpected w, true => named w "unexpected operator"
  | unexpected w, false => "extra argument " ++ Quote.escaped w
  | notNumber w, true => "Illegal number: " ++ w
  | notNumber w, false => "invalid integer " ++ Quote.escaped w
  | notUnary w, _ => Quote.escaped w ++ ": unary operator expected"
  | notBinary w, _ => Quote.escaped w ++ ": binary operator expected"

/-! ## Tests -/

/-- The number that a word stands for. -/
def numberOf (s : String) : Except Problem Int :=
  match Shell.Number.ofText? true s with
  | some n => .ok n
  | none => .error (.notNumber s)

/-- A test of a file. -/
def testEntry (op : String) (e : Entry) : Bool :=
  let isDevice := match e with
    | .null | .zeros | .full | .terminal => true
    | _ => false
  match op with
  | "-e" | "-r" | "-w" | "-O" | "-G" => true
  | "-d" => e.isDirectory
  | "-f" => match e with | .file .. | .program _ => true | _ => false
  | "-x" => match e with | .file _ x => x | .program _ | .directory _ => true | _ => false
  | "-s" => match e with | .file bs _ => !bs.isEmpty | .program _ | .directory _ => true | _ => false
  | "-c" => isDevice
  | "-p" => match e with | .descriptor n => n = 1 || n = 2 | _ => false
  | _ => false

/-- A test of one word. -/
def unary (here : Trail) (op word : String) : Except Problem Bool :=
  match op with
  | "-z" => .ok (word = "")
  | "-n" => .ok (word ≠ "")
  | "-t" => (numberOf word).map fun _ => false
  | op =>
    .ok (match here.find word.toList with
      | .ok e => testEntry op e
      | .error _ => false)

/-- A test of two words. -/
def binary (here : Trail) (a op b : String) : Except Problem Bool :=
  let numbers (p : Int → Int → Bool) : Except Problem Bool := do
    return p (← numberOf a) (← numberOf b)
  match op with
  | "=" | "==" => .ok (a = b)
  | "!=" => .ok (a ≠ b)
  | "<" => .ok (a < b)
  | ">" => .ok (b < a)
  | "-eq" => numbers (· = ·)
  | "-ne" => numbers (· ≠ ·)
  | "-lt" => numbers (· < ·)
  | "-le" => numbers (· ≤ ·)
  | "-gt" => numbers fun a b => b < a
  | "-ge" => numbers fun a b => b ≤ a
  | "-ef" =>
    .ok (match here.resolve a.toList, here.resolve b.toList with
      | .ok s, .ok t => s.names = t.names
      | _, _ => false)
  | "-nt" => .ok ((here.find a.toList).isOk && !(here.find b.toList).isOk)
  | "-ot" => .ok (!(here.find a.toList).isOk && (here.find b.toList).isOk)
  | _ => .ok false

/-! ## Expressions -/

/-- What the first of some words is taken for; `none` is a word without a meaning
    of its own.  An operator of one word is none if nothing follows it, or an
    operator between two words does. -/
def lexeme (ws : List String) : Option Operator :=
  match ws with
  | [] => none
  | s :: rest =>
    match Operator.of? s with
    | some .unary =>
      match rest with
      | [] => none
      | [_] => some .unary
      | next :: _ => if Operator.of? next = some .binary then none else some .unary
    | some .opening => if rest = [] then none else some .opening
    | o => o

section
variable (here : Trail)

mutual

/-- Terms joined by "or": the value, and the words from the last one on that it
    takes. -/
def orTerms : Nat → List String → Except Problem (Bool × List String)
  | 0, ws => .ok (false, ws)
  | fuel + 1, ws => do
    let (a, ws) ← andTerms fuel ws
    if lexeme (ws.drop 1) = some .disjunction then
      let (b, ws) ← orTerms fuel (ws.drop 2)
      return (a || b, ws)
    else return (a, ws)

/-- Terms joined by "and". -/
def andTerms : Nat → List String → Except Problem (Bool × List String)
  | 0, ws => .ok (false, ws)
  | fuel + 1, ws => do
    let (a, ws) ← notTerm fuel ws
    if lexeme (ws.drop 1) = some .conjunction then
      let (b, ws) ← andTerms fuel (ws.drop 2)
      return (a && b, ws)
    else return (a, ws)

/-- A term that may be negated. -/
def notTerm : Nat → List String → Except Problem (Bool × List String)
  | 0, ws => .ok (false, ws)
  | fuel + 1, ws =>
    if lexeme ws = some .negation then do
      let (a, ws) ← match ws with
        | [s] => pure (false, [s])
        | ws => notTerm fuel (ws.drop 1)
      return (!a, ws)
    else term fuel ws

/-- A term. -/
def term : Nat → List String → Except Problem (Bool × List String)
  | 0, ws => .ok (false, ws)
  | fuel + 1, ws =>
    match ws with
    | [] => .ok (false, [])
    | s :: rest =>
      match lexeme ws with
      | some .opening =>
        if lexeme rest = some .closing then .ok (false, rest)
        else do
          let (a, ws) ← orTerms fuel rest
          if lexeme (ws.drop 1) = some .closing then return (a, ws.drop 1)
          else .error .missingClose
      | some .unary =>
        match rest with
        | [] => .error (.missingArgument s)
        | w :: _ => do return (← unary here s w, rest)
      | _ =>
        match rest with
        | op :: more =>
          if lexeme rest = some .binary then
            match more with
            | [] => .error (.missingArgument op)
            | b :: _ => do return (← binary here s op b, more)
          else .ok (s ≠ "", ws)
        | [] => .ok (s ≠ "", ws)

end

/-- Whether all words were taken. -/
def checked (r : Bool × List String) : Except Problem Bool :=
  match r with
  | (_, w :: _ :: _) => .error (.unexpected w)
  | (b, _) => .ok b

/-- Whether a condition holds in a shell; the number bounds how often it is
    negated. -/
def inShell : Nat → List String → Except Problem Bool
  | 0, _ => .ok false
  | fuel + 1, ws =>
    let whole (ws : List String) : Except Problem Bool := do checked (← orTerms here (4 * ws.length + 4) ws)
    match ws with
    | [] => .ok false
    | [a, op, b] =>
      if Operator.of? op = some .binary then binary here a op b
      else if a = "(" && b = ")" then whole [op]
      else if a = "!" then do return !(← inShell fuel [op, b])
      else whole ws
    | [a, b, c, d] =>
      if a = "(" && d = ")" then whole [b, c]
      else if a = "!" then do return !(← inShell fuel [b, c, d])
      else whole ws
    | ws => whole ws

/-- Whether a word looks like an operator of one word. -/
def looksUnary (s : String) : Bool :=
  match s.toList with
  | ['-', _] => true
  | _ => false

/-- Whether a condition of two words holds, for a program. -/
def ofTwo (a b : String) : Except Problem Bool :=
  if a = "!" then .ok (b = "")
  else if !looksUnary a then .error (.missingArgument b)
  else if unaryOperators.contains a || a = "-N" then unary here a b
  else .error (.notUnary a)

/-- Whether a condition of three words holds, for a program. -/
def ofThree (a op b : String) : Except Problem Bool :=
  if binaryOperators.contains op || op = "==" then binary here a op b
  else if a = "!" then do return !(← ofTwo here op b)
  else if a = "(" && b = ")" then .ok (op ≠ "")
  else if op = "-a" then .ok (a ≠ "" && b ≠ "")
  else if op = "-o" then .ok (a ≠ "" || b ≠ "")
  else .error (.notBinary op)

/-- Whether a condition holds, for a program. -/
def forProgram (ws : List String) : Except Problem Bool :=
  match ws with
  | [] => .ok false
  | [a] => .ok (a ≠ "")
  | [a, b] => ofTwo here a b
  | [a, op, b] => ofThree here a op b
  | ["!", a, op, b] => do return !(← ofThree here a op b)
  | ["(", a, b, ")"] => ofTwo here a b
  | ws => do
    match ← orTerms here (4 * ws.length + 4) ws with
    | (b, []) | (b, [_]) => return b
    | (_, _ :: w :: _) => .error (.unexpected w)

end

/-! ## Programs -/

/-- Test a condition. -/
def test : Tool := fun v p args =>
  match if v.inShell then inShell p.here (args.length + 1) args else forProgram p.here args with
  | .ok b => { code := if b then 0 else 1 }
  | .error f => v.complain 2 (f.text v.inShell)

/-- Test a condition in brackets. -/
def bracket : Tool := fun v p args =>
  if args.getLast? = some "]" then test v p args.dropLast
  else v.complain 2 (Problem.text v.inShell .missingBracket)

end Supervisor.Host.Condition
