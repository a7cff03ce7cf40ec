/-
  Small programs that read files or what comes in, and write some of it.

  * `Tools.overInputs` goes through the files that are named, or through what
    comes in, and goes on behind one that cannot be read.
-/
import Supervisor.Host.Tools.Words

namespace Supervisor.Host.Tools

/-! ## Inputs -/

/-- What is to be read under a name, where a dash stands for what comes in. -/
def contentOf (p : Place) (name : String) : Except Fault Bytes :=
  let input := match p.inputFault with
    | some f => .error f
    | none => .ok p.input
  if name = "-" then input
  else match p.here.find name.toList with
    | .ok (.descriptor 0) => input
    | _ => p.here.contentAt name

/-- How much is read of what comes in: all of it, if it is named. -/
def readingOf (names : List String) : Reading :=
  if names = [] || names.contains "-" || names.contains "/dev/stdin" then .all else .nothing

/-- The names of inputs; without any it is what comes in. -/
def inputsOf (names : List String) : List String := if names = [] then ["-"] else names

/-- What is said of a file that cannot be read. -/
def plainFault (name : String) (f : Fault) : String :=
  Quote.asNeeded name ++ ": " ++ Utility.faultText f

/-- Go through inputs; one that cannot be read is complained about. -/
def overInputs (v : Voice) (p : Place) (names : List String) (code : Nat)
    (fault : String → Fault → String) (use : Bytes → Bytes) : Effect :=
  let effects := (inputsOf names).map fun name =>
    match contentOf p name with
    | .ok bs => Effect.print (use bs)
    | .error f => v.complain code (fault name f)
  { (Effect.all effects).joined with reads := readingOf names }

/-- The content of all inputs that can be read, and complaints about the others. -/
def gather (v : Voice) (p : Place) (names : List String) (code : Nat)
    (fault : String → Fault → String) (use : Bytes → Bytes) : Effect :=
  let e := overInputs v p names code fault fun bs => bs
  let complaints := e.writes.filter (·.1 ≠ 1)
  { e with writes := complaints ++ [(1, use e.out)] }

/-- Lines, each with the line end that it has. -/
def linesOf (bs : Bytes) : List Bytes :=
  bs.foldr (fun b acc =>
    if b = 10 then [10] :: acc
    else match acc with
      | [] => [[b]]
      | l :: rest => (b :: l) :: rest) []

/-- A line without its end. -/
def withoutEnd (l : Bytes) : Bytes := if l.getLast? = some 10 then l.dropLast else l

/-- The lines of a text without their ends. -/
def bareLines (bs : Bytes) : List Bytes := (linesOf bs).map withoutEnd

/-- A number at the end of a column. -/
def rightAligned (width n : Nat) : String :=
  let digits := toString n
  String.ofList (List.replicate (width - digits.length) ' ') ++ digits

/-! ## Files as they are -/

/-- A byte as it is shown: those that are no signs by their names. -/
def shownByte (b : UInt8) : Bytes :=
  let low (b : UInt8) : Bytes :=
    if b < 32 then [94, b + 64] else if b = 127 then [94, 63] else [b]
  if b < 128 then low b else [77, 45] ++ low (b - 128)

/-- How lines are shown. -/
structure LineStyle where
  numbersAll : Bool
  numbersFull : Bool
  squeezes : Bool
  marksEnds : Bool
  marksTabs : Bool
  marksOthers : Bool

/-- The style that options ask for. -/
def LineStyle.of (c : Chosen) : LineStyle where
  numbersAll := c.has 'n' && !c.has 'b'
  numbersFull := c.has 'b'
  squeezes := c.has 's'
  marksEnds := c.has 'E' || c.has 'A' || c.has 'e'
  marksTabs := c.has 'T' || c.has 'A' || c.has 't'
  marksOthers := c.has 'v' || c.has 'A' || c.has 'e' || c.has 't'

/-- Whether a style leaves everything as it is. -/
def LineStyle.isPlain (s : LineStyle) : Bool :=
  !(s.numbersAll || s.numbersFull || s.squeezes || s.marksEnds || s.marksTabs || s.marksOthers)

/-- Lines in a style; the state is the last number and whether the line before
    was empty. -/
def LineStyle.show (s : LineStyle) (ls : List Bytes) : Bytes :=
  (ls.foldl (fun (acc : List Bytes × Nat × Bool) l =>
    let (done, n, wasEmpty) := acc
    let isEmpty := l = [10]
    if s.squeezes && wasEmpty && isEmpty then acc
    else
      let isNumbered := s.numbersAll || (s.numbersFull && !isEmpty)
      let n := if isNumbered then n + 1 else n
      let front := if isNumbered then Octets.bytes (rightAligned 6 n) ++ [9] else []
      let shown := l.flatMap fun b =>
        if b = 10 then (if s.marksEnds then [36, 10] else [10])
        else if b = 9 then (if s.marksTabs then [94, 73] else [9])
        else if s.marksOthers then shownByte b else [b]
      ((front ++ shown) :: done, n, isEmpty)) ([], 0, false)).1.reverse.flatten

/-- The content of files, or of what comes in. -/
def cat : Tool :=
  withOptions ⟨"AbeEnstTuv", "", [("show-all", 'A'), ("number-nonblank", 'b'), ("show-ends", 'E'),
    ("number", 'n'), ("squeeze-blank", 's'), ("show-tabs", 'T'), ("show-nonprinting", 'v')], true⟩ 1
    fun v p c =>
      let style := LineStyle.of c
      if style.isPlain then
        let e := overInputs v p c.operands 1 plainFault fun bs => bs
        if inputsOf c.operands = ["-"] && p.inputFault.isNone then { e with reads := .along } else e
      else gather v p c.operands 1 plainFault fun bs => style.show (linesOf bs)

/-! ## Parts -/

/-- What is asked for of a text: a number of bytes or of lines, from its start or
    its end. -/
structure Portion where
  byBytes : Bool := false
  count : Nat := 10
  /-- `+` and `-` say that the number is about the other end -/
  sign : Option Char := none

/-- What a letter behind a number stands for. -/
def multiples : List (String × Nat) :=
  [("", 1), ("b", 512), ("k", 1024), ("K", 1024), ("kB", 1000), ("KB", 1000), ("KiB", 1024),
    ("m", 1048576), ("M", 1048576), ("MB", 1000000), ("MiB", 1048576), ("G", 1073741824),
    ("GB", 1000000000), ("GiB", 1073741824)]

/-- The greatest number. -/
def countLimit : Nat := Nat.pow 2 64 - 1

/-- The portion that a number asks for, or why it is no number. -/
def portion (byBytes : Bool) (text : String) : Except String Portion :=
  let (sign, cs) := match text.toList with
    | '-' :: rest => (some '-', rest)
    | '+' :: rest => (some '+', rest)
    | cs => (none, cs)
  let digits := cs.takeWhile Char.isDigit
  let what := "invalid number of " ++ (if byBytes then "bytes" else "lines") ++ ": " ++
    Quote.escaped (String.ofList (if sign = some '+' then '+' :: cs else cs))
  match decimal? digits, multiples.lookup (String.ofList (cs.drop digits.length)) with
  | some n, some m =>
    if countLimit < n * m then .error (what ++ ": Value too large for defined data type")
    else .ok ⟨byBytes, n * m, sign⟩
  | _, _ => .error what

/-- The first lines of some bytes. -/
def firstLines (n : Nat) (bs : Bytes) : Bytes := ((linesOf bs).take n).flatten

/-- The start of some bytes. -/
def startOf (q : Portion) (bs : Bytes) : Bytes :=
  match q.byBytes, q.sign with
  | true, some '-' => bs.take (bs.length - q.count)
  | true, _ => bs.take q.count
  | false, some '-' => firstLines ((linesOf bs).length - q.count) bs
  | false, _ => firstLines q.count bs

/-- The end of some bytes. -/
def endOf (q : Portion) (bs : Bytes) : Bytes :=
  match q.byBytes, q.sign with
  | true, some '+' => bs.drop (q.count - 1)
  | true, _ => bs.drop (bs.length - q.count)
  | false, some '+' => ((linesOf bs).drop (q.count - 1)).flatten
  | false, _ => let ls := linesOf bs; (ls.drop (ls.length - q.count)).flatten

/-- The portion that options ask for. -/
def portionOf (c : Chosen) : Except String Portion :=
  match c.options.reverse.find? fun (o, _) => o = 'n' || o = 'c' with
  | some (o, text) => portion (o = 'c') text
  | none => .ok {}

/-- What is said of a file of which a part is wanted, but that cannot be read. -/
def partFault (name : String) (f : Fault) : String :=
  if f = .isDirectory then "error reading " ++ Quote.forShell name ++ ": " ++ Utility.faultText f
  else "cannot open " ++ Quote.forShell name ++ " for reading: " ++ Utility.faultText f

/-- Parts of files or of what comes in, with their names if there are several. -/
def partsOf (v : Voice) (p : Place) (c : Chosen) (cut : Bytes → Bytes) : Effect :=
  let names := inputsOf c.operands
  let isTitled := c.lastOf ['q', 'v'] = some 'v' || (1 < names.length && !c.has 'q')
  let (effects, _) := names.foldl (fun (acc : List Effect × Bool) name =>
    let shown := if name = "-" then "standard input" else name
    match contentOf p name with
    | .ok bs =>
      let gap := if acc.2 then [10] else []
      let title := if isTitled then gap ++ Utility.line ("==> " ++ shown ++ " <==") else []
      (acc.1 ++ [Effect.print (title ++ cut bs)], true)
    | .error f => (acc.1 ++ [v.complain 1 (partFault name f)], acc.2)) ([], false)
  { (Effect.all effects).joined with reads := readingOf c.operands }

/-- Arguments whose first one is an old way to give a number. -/
def modernized (signs : List Char) (args : List String) : List String :=
  match args with
  | a :: rest =>
    match a.toList with
    | sign :: d :: ds =>
      if signs.contains sign && d.isDigit && ds.all Char.isDigit then
        "-n" :: String.ofList ((if sign = '+' then ['+'] else []) ++ d :: ds) :: rest
      else args
    | _ => args
  | [] => []

/-- The words for the options of parts. -/
def partWords : List (String × Char) :=
  [("bytes", 'c'), ("lines", 'n'), ("quiet", 'q'), ("silent", 'q'), ("verbose", 'v')]

/-- The first part of files or of what comes in, of which no more is read than
    is needed. -/
def head : Tool := fun v p args =>
  withOptions ⟨"qvz", "cn", partWords, true⟩ 1 (fun v p c =>
    match portionOf c with
    | .error why => v.complain 1 why
    | .ok q =>
      let e := partsOf v p c (startOf q)
      let taken := (startOf q p.input).length
      let isFull := if q.byBytes then q.count ≤ p.input.length else q.count ≤ p.input.count 10
      if e.reads = .all && q.sign ≠ some '-' && isFull then { e with reads := .upTo taken } else e)
    v p (modernized ['-'] args)

/-- The last part of files or of what comes in.  It may wait for more, which
    never comes. -/
def tail : Tool := fun v p args =>
  withOptions ⟨"fFqvz", "cns", partWords ++ [("follow", 'f')], true⟩ 1 (fun v p c =>
    match portionOf c with
    | .error why => v.complain 1 why
    | .ok q =>
      let e := partsOf v p c (endOf q)
      let isThere := (inputsOf c.operands).any fun n => n ≠ "-" && (contentOf p n).isOk
      if !(c.has 'f' || c.has 'F') then e
      else if isThere || c.has 'F' then { e with lasts := none }
      else if c.operands = [] || c.operands.contains "-" then e
      else e.andThen (v.complain 1 "no files remaining")) v p (modernized ['-', '+'] args)

/-! ## Counts -/

/-- The lines, words, bytes and longest line of some bytes. -/
def counts (bs : Bytes) : List Nat :=
  let isBlank (b : UInt8) : Bool := b = 32 || (9 ≤ b && b ≤ 13)
  let words := (bs.foldl (fun (n, inside) b =>
    if isBlank b then (n, false) else (if inside then n else n + 1, true)) (0, false)).1
  [bs.count 10, words, bs.length, ((bareLines bs).map List.length).foldl max 0]

/-- The counts that a letter asks for. -/
def countLetters : List (Char × Nat) := [('l', 0), ('w', 1), ('m', 2), ('c', 2), ('L', 3)]

/-- How wide numbers are that no file gives a width. -/
def standardWidth : Nat := 7

/-- Count lines, words or bytes. -/
def wc : Tool :=
  withOptions ⟨"lwcmL", "", [("lines", 'l'), ("words", 'w'), ("bytes", 'c'), ("chars", 'm'),
    ("max-line-length", 'L')], true⟩ 1 fun v p c =>
    let asked := c.options.filterMap fun (o, _) => countLetters.lookup o
    let wanted := if asked = [] then [0, 1, 2] else [0, 1, 2, 3].filter asked.contains
    let names := inputsOf c.operands
    let isFile (n : String) : Bool :=
      if n = "-" then p.inputIsFile
      else match p.here.find n.toList with
        | .ok (.file ..) | .ok (.program _) | .error _ => true
        | _ => false
    let size (n : String) : Nat :=
      if isFile n then ((contentOf p n).toOption.getD []).length else 0
    let width := if names.length = 1 && wanted.length = 1 then 1
      else max (toString ((names.map size).foldl Nat.add 0)).length
        (if names.all isFile then 1 else standardWidth)
    let row (ns : List Nat) (name : String) : Bytes :=
      let columns := wanted.map fun i => rightAligned width (ns[i]?.getD 0)
      Utility.line (" ".intercalate columns ++ (if name = "" then "" else " " ++ name))
    let found := names.map fun n => (n, contentOf p n)
    let effects := found.map fun (n, r) =>
      if n = "" then v.complain 1 "invalid zero-length file name"
      else match r with
        | .ok bs => Effect.print (row (counts bs) (if c.operands = [] then "" else n))
        | .error .isDirectory =>
          (v.complain 1 (plainFault n .isDirectory)).andThen (Effect.print (row [] n))
        | .error f => v.complain 1 (plainFault n f)
    let sums := found.foldl (fun acc (_, r) =>
      match r with
      | .ok bs =>
        let ns := counts bs
        [0, 1, 2].map (fun i => acc[i]?.getD 0 + ns[i]?.getD 0) ++ [max (acc[3]?.getD 0) (ns[3]?.getD 0)]
      | .error _ => acc) [0, 0, 0, 0]
    let total := if names.length ≤ 1 then {} else Effect.print (row sums "total")
    { ((Effect.all effects).andThen total).joined with reads := readingOf c.operands }

/-! ## Lines -/

/-- A line with a line end. -/
def ended (l : Bytes) : Bytes := withoutEnd l ++ [10]

/-- The number at the start of a line, in thousandths. -/
def numberAt (l : Bytes) : Int :=
  let cs := (Octets.chars l).dropWhile fun c => c = ' ' || c = '\t'
  let (negative, cs) := match cs with
    | '-' :: rest => (true, rest)
    | cs => (false, cs)
  let whole := cs.takeWhile Char.isDigit
  let places := match cs.drop whole.length with
    | '.' :: rest => (rest.takeWhile Char.isDigit).take 3
    | _ => []
  let places := places ++ List.replicate (3 - places.length) '0'
  let n : Int := digitsValue 10 (whole ++ places)
  if negative then -n else n

/-- A byte in capital letters. -/
def capitalByte (b : UInt8) : UInt8 := if 97 ≤ b && b ≤ 122 then b - 32 else b

/-- Whether one of two lines comes first or they are alike, by numbers or by
    letters of any case. -/
def comesFirst (c : Chosen) (a b : Bytes) : Bool :=
  if c.has 'n' && numberAt a ≠ numberAt b then numberAt a < numberAt b
  else if c.has 'f' && a.map capitalByte ≠ b.map capitalByte then
    decide (a.map capitalByte ≤ b.map capitalByte)
  else decide (a ≤ b)

/-- Whether two lines count as one where each is wanted once. -/
def areAlike (c : Chosen) (a b : Bytes) : Bool :=
  if c.has 'n' then numberAt a = numberAt b
  else if c.has 'f' then a.map capitalByte = b.map capitalByte
  else a = b

/-- Lines without those that are like the one before. -/
def onceEach (alike : Bytes → Bytes → Bool) : List Bytes → List Bytes
  | a :: b :: rest =>
    if alike a b then onceEach alike (a :: rest) else a :: onceEach alike (b :: rest)
  | ls => ls
termination_by ls => ls.length

/-- Lines in order. -/
def sort : Tool := withOptions ⟨"bcdfghimnrsuzV", "koSTt", [("reverse", 'r'), ("unique", 'u'),
    ("numeric-sort", 'n'), ("ignore-case", 'f')], true⟩ 2 fun v p c =>
  gather v p c.operands 2 (fun n f => "cannot read: " ++ plainFault n f) fun bs =>
    let ls := bareLines bs
    let ordered := if c.has 'r' then ls.mergeSort fun a b => comesFirst c b a
      else ls.mergeSort (comesFirst c)
    let kept := if c.has 'u' then onceEach (areAlike c) ordered else ordered
    kept.flatMap ended

/-- Lines that are alike in a row, and how many they are. -/
def runsOf (alike : Bytes → Bytes → Bool) (ls : List Bytes) : List (Bytes × Nat) :=
  ls.foldr (fun l acc =>
    match acc with
    | (m, n) :: rest => if alike l m then (l, n + 1) :: rest else (l, 1) :: acc
    | [] => [(l, 1)]) []

/-- Lines without those that are like the one before. -/
def uniq : Tool := withOptions ⟨"cdiuz", "fsw", [("count", 'c'), ("repeated", 'd'), ("unique", 'u'),
    ("ignore-case", 'i')], true⟩ 1 fun v p c =>
  let alike (a b : Bytes) : Bool :=
    if c.has 'i' then a.map capitalByte = b.map capitalByte else a = b
  gather v p (c.operands.take 1) 1 plainFault fun bs =>
    let runs := (runsOf alike (bareLines bs)).filter fun (_, n) =>
      (!c.has 'd' || 1 < n) && (!c.has 'u' || n = 1)
    runs.flatMap fun (l, n) =>
      (if c.has 'c' then Octets.bytes (rightAligned 7 n ++ " ") else []) ++ l ++ [10]

/-- Lines, each backwards. -/
def rev : Tool := withOptions {} 1 fun v p c =>
  overInputs v p c.operands 1 (fun n f => "cannot open " ++ n ++ ": " ++ Utility.faultText f) fun bs =>
    (linesOf bs).flatMap fun l =>
      (withoutEnd l).reverse ++ (if l.getLast? = some 10 then [10] else [])

/-- Lines, the last one first. -/
def tac : Tool := withOptions {} 1 fun v p c =>
  let fault (n : String) (f : Fault) : String :=
    "failed to open " ++ Quote.forShell n ++ " for reading: " ++ Utility.faultText f
  overInputs v p c.operands 1 fault fun bs => (linesOf bs).reverse.flatten

/-- Lines with numbers, except for empty ones. -/
def nl : Tool := withOptions {} 1 fun v p c =>
  gather v p c.operands 1 plainFault fun bs =>
    ((bareLines bs).foldl (fun (acc : List Bytes × Nat) l =>
      if l = [] then ((List.replicate 7 32 ++ [10]) :: acc.1, acc.2)
      else ((Octets.bytes (rightAligned 6 acc.2) ++ 9 :: l ++ [10]) :: acc.1, acc.2 + 1))
      ([], 1)).1.reverse.flatten

/-! ## Columns -/

/-- A range of places, from one on; without an end it is open. -/
structure Span where
  first : Nat
  last : Option Nat

/-- Whether a place is in a range. -/
def Span.has (s : Span) (i : Nat) : Bool := s.first ≤ i && s.last.all (i ≤ ·)

/-- A list of ranges with commas between them, or why it is none. -/
def spans? (isField : Bool) (text : String) : Except String (List Span) :=
  let parts := text.toList.foldr (fun c acc =>
    if c = ',' || c = ' ' then [] :: acc
    else match acc with
      | [] => [[c]]
      | p :: rest => (c :: p) :: rest) [[]]
  parts.mapM fun cs =>
    let first := cs.takeWhile (· ≠ '-')
    let rest := cs.drop first.length
    let wrong : Except String Span :=
      .error ("invalid " ++ (if isField then "field value " else "byte or character position ") ++
        Quote.escaped (String.ofList cs))
    let fromZero : Except String Span :=
      .error (if isField then "fields are numbered from 1" else "byte/character positions are numbered from 1")
    match decimal? first, rest with
    | some 0, _ => fromZero
    | some a, [] => .ok ⟨a, some a⟩
    | some a, ['-'] => .ok ⟨a, none⟩
    | some a, '-' :: ds =>
      match decimal? ds with
      | some b => if b < a then .error "invalid decreasing range" else .ok ⟨a, some b⟩
      | none => wrong
    | none, '-' :: ds =>
      match if first = [] then decimal? ds else none with
      | some b => .ok ⟨1, some b⟩
      | none => if first = [] && ds = [] then .error "invalid range with no endpoint: -" else wrong
    | _, _ => if first = [] then fromZero else wrong

/-- The parts of a line between a byte. -/
def splitBy (mark : UInt8) (l : Bytes) : List Bytes :=
  l.foldr (fun b acc =>
    if b = mark then [] :: acc
    else match acc with
      | [] => [[b]]
      | p :: rest => (b :: p) :: rest) [[]]

/-- The parts at the places of some ranges. -/
def chosen {α : Type} (ss : List Span) (parts : List α) : List α :=
  (parts.zipIdx.filter fun (_, i) => ss.any (·.has (i + 1))).map (·.1)

/-- Columns of lines. -/
def cut : Tool := withOptions ⟨"nsz", "bcdf", [("bytes", 'b'), ("characters", 'c'), ("delimiter", 'd'),
    ("fields", 'f'), ("only-delimited", 's')], true⟩ 1 fun v p c =>
  let mark := match (c.value? 'd').map Octets.bytes with
    | some (b :: _) => b
    | some [] => 0
    | none => 9
  if (c.value? 'd').any fun d => 1 < d.length then
    v.refuse 1 "the delimiter must be a single character"
  else match c.lastOf ['b', 'c', 'f'] with
    | none => v.refuse 1 "you must specify a list of bytes, characters, or fields"
    | some o =>
      match spans? (o = 'f') ((c.value? o).getD "") with
      | .error why => v.refuse 1 why
      | .ok ss =>
        gather v p c.operands 1 plainFault fun bs =>
          (bareLines bs).flatMap fun l =>
            if o ≠ 'f' then chosen ss l ++ [10]
            else if !l.contains mark then (if c.has 's' then [] else l ++ [10])
            else [mark].intercalate (chosen ss (splitBy mark l)) ++ [10]

/-! ## Bytes for others -/

/-- The kinds of bytes that have a name. -/
def byteKinds : List (String × (Char → Bool)) :=
  [("alnum", Char.isAlphanum), ("alpha", Char.isAlpha), ("blank", fun c => c = ' ' || c = '\t'),
    ("cntrl", fun c => c.toNat < 32 || c.toNat = 127), ("digit", Char.isDigit),
    ("graph", fun c => 32 < c.toNat && c.toNat < 127), ("lower", Char.isLower),
    ("print", fun c => 32 ≤ c.toNat && c.toNat < 127),
    ("punct", fun c => 32 < c.toNat && c.toNat < 127 && !c.isAlphanum),
    ("space", fun c => c = ' ' || ('\t' ≤ c && c ≤ '\r')), ("upper", Char.isUpper),
    ("xdigit", fun c => c.isDigit || ('a' ≤ c.toLower && c.toLower ≤ 'f'))]

/-- All bytes. -/
def allBytes : Bytes := (List.range 256).map Nat.toUInt8

/-- The bytes of a set: kinds by their names, and ranges; the number bounds how
    many. -/
def setOf : Nat → List Char → Except String Bytes
  | 0, _ => .ok []
  | _, [] => .ok []
  | fuel + 1, '[' :: ':' :: rest =>
    let name := rest.takeWhile (· ≠ ':')
    match rest.drop name.length with
    | ':' :: ']' :: more =>
      match byteKinds.lookup (String.ofList name) with
      | some p => do return allBytes.filter (fun b => p (Octets.char b)) ++ (← setOf fuel more)
      | none => .error ("invalid character class " ++ Quote.escaped (String.ofList name))
    | _ => do return 91 :: (← setOf fuel (':' :: rest))
  | fuel + 1, a :: '-' :: b :: rest =>
    if b < a then
      .error ("range-endpoints of " ++ Quote.escaped (String.ofList [a, '-', b]) ++
        " are in reverse collating sequence order")
    else do
      let range := (List.range (b.toNat + 1 - a.toNat)).map fun i => (a.toNat + i).toUInt8
      return range ++ (← setOf fuel rest)
  | fuel + 1, a :: rest => do return Octets.byte a :: (← setOf fuel rest)

/-- The bytes that a word stands for. -/
def setOfWord (s : String) : Except String Bytes :=
  let cs := Octets.chars (unescape .programFormat s.toList).1
  setOf (cs.length + 1) cs

/-- Bytes without those of a set that repeat the one before. -/
def squeezed (set : Bytes) (bs : Bytes) : Bytes :=
  (bs.foldl (fun (acc : Bytes × Option UInt8) b =>
    if acc.2 = some b && set.contains b then acc else (b :: acc.1, some b)) ([], none)).1.reverse

/-- Put bytes for others in what comes in, or leave them out. -/
def tr : Tool := withOptions ⟨"cCdst", "", [("complement", 'c'), ("delete", 'd'),
    ("squeeze-repeats", 's'), ("truncate-set1", 't')], false⟩ 1 fun v p c =>
  let needsOne := c.has 'd' || c.has 's'
  let run (a b : String) : Except String Bytes := do
    let source ← setOfWord a
    let source := if c.has 'c' || c.has 'C' then allBytes.filter (!source.contains ·) else source
    let target ← setOfWord b
    if c.has 'd' then
      let left := p.input.filter fun x => !source.contains x
      return if c.has 's' then squeezed target left else left
    else if b = "" && c.operands.length = 1 then return squeezed source p.input
    else if target = [] && source ≠ [] && !c.has 't' then
      .error "when not truncating set1, string2 must be non-empty"
    else
      let source := if c.has 't' then source.take target.length else source
      let image (i : Nat) : Option UInt8 := target[i]?.or target.getLast?
      let last (x : UInt8) : Option Nat :=
        (source.reverse.findIdx? (· = x)).map (source.length - 1 - ·)
      let table := allBytes.map fun x => ((last x).bind image).getD x
      let mapped := p.input.map fun x => (table[x.toNat]?).getD x
      return if c.has 's' then squeezed target mapped else mapped
  let done (a b : String) : Effect :=
    match run a b with
    | .ok bs => { Effect.print bs with reads := .all }
    | .error why => v.complain 1 why
  match c.operands with
  | [] => missing v 1
  | [a] =>
    if needsOne && !(c.has 'd' && c.has 's') then done a ""
    else v.refuse 1 ("missing operand after " ++ Quote.escaped a ++
      (if c.has 'd' then "\nTwo strings must be given when both deleting and squeezing repeats."
      else "\nTwo strings must be given when translating."))
  | [a, b] =>
    if c.has 'd' && !c.has 's' then
      v.refuse 1 ("extra operand " ++ Quote.escaped b ++
        "\nOnly one string may be given when deleting without squeezing repeats.")
    else done a b
  | _ :: _ :: w :: _ => extra v 1 w

end Supervisor.Host.Tools
