/-
  Options of a shell and of its built-in commands.

  * `readFlags` and `readValued` take options off the arguments of a built-in
    command;
  * `readOptions` does so for the options of the shell itself, which can be
    switched on and off (`changeOptions`).
-/

namespace Supervisor.Host.Shell

/-! ## Built-in commands -/

/-- Letters behind a dash, of which some need a value; the last one may take it
    from the next word. -/
def readLetters (flags valued : List Char) :
    List Char → Except String (List (Char × String) × Option Char)
  | [] => .ok ([], none)
  | c :: rest =>
    if valued.contains c then
      if rest = [] then .ok ([], some c) else .ok ([(c, String.ofList rest)], none)
    else if flags.contains c then do
      let (more, last) ← readLetters flags valued rest
      return ((c, "") :: more, last)
    else .error ("Illegal option -" ++ String.ofList [c])

/-- Options in front of other words, of which some need a value. -/
def readValued (flags valued : String) : List String →
    Except String (List (Char × String) × List String)
  | [] => .ok ([], [])
  | a :: rest =>
    match a.toList with
    | ['-', '-'] => .ok ([], rest)
    | '-' :: c :: cs => do
      match ← readLetters flags.toList valued.toList (c :: cs), rest with
      | (os, none), rest => do
        let (more, words) ← readValued flags valued rest
        return (os ++ more, words)
      | (os, some c), v :: rest => do
        let (more, words) ← readValued flags valued rest
        return (os ++ (c, v) :: more, words)
      | (_, some c), [] => .error ("No arg for -" ++ String.ofList [c] ++ " option")
    | _ => .ok ([], a :: rest)

/-- Options in front of other words. -/
def readFlags (flags : String) (args : List String) : Except String (List Char × List String) := do
  let (options, words) ← readValued flags "" args
  return (options.map (·.1), words)

/-! ## The shell -/

/-- The options of a shell: letters, and the names that they go by. -/
def optionNames : List (Char × String) :=
  [('e', "errexit"), ('f', "noglob"), ('I', "ignoreeof"), ('i', "interactive"), ('m', "monitor"),
    ('n', "noexec"), ('s', "stdin"), ('x', "xtrace"), ('v', "verbose"), ('V', "vi"), ('E', "emacs"),
    ('C', "noclobber"), ('a', "allexport"), ('b', "notify"), ('u', "nounset"), ('p', "privileged")]

/-- Options in front of other words. -/
structure OptionWords where
  /-- what is switched on or off, latest first -/
  changes : List (Char × Bool)
  /-- two dashes stand behind the options -/
  isClosed : Bool
  rest : List String

/-- Whether a letter can stand for an option; some can only where a shell is
    started. -/
def isOptionLetter (atStart : Bool) (c : Char) : Bool :=
  c = 'o' || (optionNames.lookup c).isSome || (atStart && (c = 'c' || c = 'l'))

/-- Read options in front of other words. -/
def readOptions (atStart : Bool) (changes : List (Char × Bool)) :
    List String → Except String OptionWords
  | [] => .ok ⟨changes, false, []⟩
  | a :: rest =>
    match a.toList with
    | ['-'] => .ok ⟨changes, false, rest⟩
    | ['-', '-'] => .ok ⟨changes, true, rest⟩
    | sign :: letters =>
      if sign ≠ '-' ∧ sign ≠ '+' then .ok ⟨changes, false, a :: rest⟩
      else match letters.find? (!isOptionLetter atStart ·) with
        | some c => .error ("Illegal option -" ++ String.ofList [c])
        | none =>
          let isOn := sign == '-'
          let changes := letters.reverse.map (fun c => (c, isOn)) ++ changes
          if !letters.contains 'o' then readOptions atStart changes rest
          else match rest with
            | [] => .ok ⟨changes, false, []⟩
            | name :: rest =>
              match optionNames.find? (·.2 = name) with
              | some (c, _) => readOptions atStart ((c, isOn) :: changes) rest
              | none => .error ("Illegal option -o " ++ name)
    | [] => .ok ⟨changes, false, a :: rest⟩

/-- The options that are on behind some changes, the latest of which comes
    first. -/
def changeOptions (options : List Char) (changes : List (Char × Bool)) : List Char :=
  changes.reverse.foldl (fun os (c, isOn) =>
    if (optionNames.lookup c).isNone then os
    else if !isOn then os.filter (· ≠ c)
    else if os.contains c then os else c :: os) options

end Supervisor.Host.Shell
