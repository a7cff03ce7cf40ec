/-
  Words that are options.

  * `OptionRules` are the options that a program knows, and `OptionRules.read`
    tells them from the other words, or says what is wrong with one.
-/
import Supervisor.Host.Files

namespace Supervisor.Host

/-- The options that a program knows. -/
structure OptionRules where
  /-- the letters that stand alone -/
  flags : String := ""
  /-- the letters that need a value -/
  valued : String := ""
  /-- words for letters -/
  words : List (String × Char) := []
  /-- options may stand behind other words -/
  isMixed : Bool := true

/-- Options and other words, in order. -/
structure Chosen where
  options : List (Char × String) := []
  operands : List String := []

namespace Chosen

/-- Whether an option was given. -/
def has (c : Chosen) (o : Char) : Bool := c.options.any (·.1 = o)

/-- The last value of an option. -/
def value? (c : Chosen) (o : Char) : Option String :=
  (c.options.reverse.find? (·.1 = o)).map (·.2)

/-- The last of some options that was given. -/
def lastOf (c : Chosen) (os : List Char) : Option Char :=
  (c.options.reverse.find? fun (o, _) => os.contains o).map (·.1)

end Chosen

namespace OptionRules

/-- Whether a letter needs a value. -/
def needsValue (r : OptionRules) (c : Char) : Bool := r.valued.toList.contains c

/-- One word of letters behind a dash: the options, and whether the last one
    takes its value from the next word. -/
def letters (r : OptionRules) : List Char → Except String (List (Char × String) × Option Char)
  | [] => .ok ([], none)
  | c :: rest =>
    if r.needsValue c then
      if rest = [] then .ok ([], some c) else .ok ([(c, String.ofList rest)], none)
    else if r.flags.toList.contains c then do
      let (more, open_) ← letters r rest
      return ((c, "") :: more, open_)
    else .error ("invalid option -- '" ++ String.ofList [c] ++ "'")

/-- One word behind two dashes: the option, or the letter that takes its value
    from the next word. -/
def longWord (r : OptionRules) (cs : List Char) : Except String ((Char × String) ⊕ Char) :=
  let name := cs.takeWhile (· ≠ '=')
  let shown := "'--" ++ String.ofList name ++ "'"
  let given := if cs.contains '=' then some (String.ofList (cs.drop (name.length + 1))) else none
  let matching := r.words.filter fun (w, _) => name.isPrefixOf w.toList
  let exact := matching.filter fun (w, _) => w.toList = name
  match if exact.isEmpty then matching else exact with
  | [] => .error ("unrecognized option '--" ++ String.ofList cs ++ "'")
  | (word, c) :: rest =>
    if rest.any (·.2 ≠ c) then
      let all := String.join (matching.map fun (w, _) => " '--" ++ w ++ "'")
      .error ("option " ++ shown ++ " is ambiguous; possibilities:" ++ all)
    else match r.needsValue c, given with
      | true, some v => .ok (.inl (c, v))
      | true, none => .ok (.inr c)
      | false, none => .ok (.inl (c, ""))
      | false, some _ => .error ("option '--" ++ word ++ "' doesn't allow an argument")

/-- The word for a letter that lacks its value. -/
def lacking (word : List Char) (c : Char) : String :=
  match word with
  | '-' :: rest => "option '--" ++ String.ofList rest ++ "' requires an argument"
  | _ => "option requires an argument -- '" ++ String.ofList [c] ++ "'"

/-- Options in front of some words, with what these are if they are looked at. -/
def followed (closing : List Char) (os : List (Char × String)) (rest : List String)
    (more : Except String Chosen) : Except String Chosen :=
  if os.any fun (o, _) => closing.contains o then .ok ⟨os, rest⟩
  else more.map fun c => { c with options := os ++ c.options }

/-- Tell options from other words; behind some letters nothing more is looked
    at. -/
def readUpTo (r : OptionRules) (closing : List Char) : List String → Except String Chosen
  | [] => .ok {}
  | a :: rest =>
    let withValue (word : List Char) (before : List (Char × String)) (c : Char) :
        Except String Chosen :=
      match rest with
      | [] => .error (lacking word c)
      | v :: rest => followed closing (before ++ [(c, v)]) rest (readUpTo r closing rest)
    match a.toList with
    | ['-', '-'] => .ok { operands := rest }
    | '-' :: '-' :: cs =>
      match longWord r cs with
      | .error why => .error why
      | .ok (.inr c) => withValue ('-' :: cs) [] c
      | .ok (.inl o) => followed closing [o] rest (readUpTo r closing rest)
    | '-' :: c :: cs =>
      match letters r (c :: cs) with
      | .error why => .error why
      | .ok (os, some last) => withValue [] os last
      | .ok (os, none) => followed closing os rest (readUpTo r closing rest)
    | _ =>
      if r.isMixed then do
        let more ← readUpTo r closing rest
        return { more with operands := a :: more.operands }
      else .ok { operands := a :: rest }

/-- Tell options from other words. -/
def read (r : OptionRules) (args : List String) : Except String Chosen := r.readUpTo [] args

end OptionRules

end Supervisor.Host
