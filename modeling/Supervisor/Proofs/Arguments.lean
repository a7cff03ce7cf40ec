/-
  A command line is read as it was meant.

  * `CommandLine.value`: the choice that a command line holds for an option, and
    `OptionName.byDefault` the one it holds if nothing was chosen;
  * `ofString_word`: a choice that is spelled as one argument is read as that option
    with that value;
  * `parseWords_words`: choices of different options are taken one after the other;
  * `reads_what_was_meant`: choices in any order, and then any command, are read back, and the
    command is taken as it is;
  * `reads`: what a word does is settled before the next one is met, so words behind a command
    belong to it (`keeps_what_follows`).
-/
import Mathlib.Tactic.Common
import Supervisor.CommandLine

namespace Supervisor

/-! ## What a command line holds -/

/-- The choice that a command line holds for an option. -/
def CommandLine.value (c : CommandLine) : OptionName → Option Choice
  | .config => some (.config c.config)
  | .logLevel => c.logLevel.map .logLevel
  | .survivor => if c.survivor then some .survivor else none
  | .showExitCode => if c.showExitCode then some .showExitCode else none
  | .sink => some (.sink c.sink)
  | .cwd => c.cwd.map .cwd

/-- The choice for an option of which nothing is said. -/
def OptionName.byDefault : OptionName → Option Choice
  | .config => some (.config "Procwatch.toml")
  | .sink => some (.sink .console)
  | .logLevel | .survivor | .showExitCode | .cwd => none

namespace CommandLine

variable {choices : List Choice} {command : List String}

@[simp] theorem value_choose (c : CommandLine) (ch : Choice) (o : OptionName) :
    (c.choose ch).value o = if ch.option = o then some ch else c.value o := by
  cases ch <;> cases o <;> rfl

@[simp] theorem command_choose (c : CommandLine) (ch : Choice) :
    (c.choose ch).command = c.command := by
  cases ch <;> rfl

theorem value_foldl_of_notMem (c : CommandLine) {o : OptionName}
    (ho : o ∉ choices.map Choice.option) : (choices.foldl choose c).value o = c.value o := by
  induction choices generalizing c with
  | nil => rfl
  | cons ch choices ih =>
    rw [List.map_cons, List.mem_cons, not_or] at ho
    rw [List.foldl_cons, ih _ ho.2, value_choose, if_neg (Ne.symm ho.1)]

/-- An option that is chosen once has the value that was chosen. -/
theorem value_foldl_of_mem (c : CommandLine) (hd : (choices.map Choice.option).Nodup)
    {ch : Choice} (hm : ch ∈ choices) : (choices.foldl choose c).value ch.option = some ch := by
  induction choices generalizing c with
  | nil => cases hm
  | cons first choices ih =>
    obtain ⟨hfirst, hd⟩ := List.nodup_cons.1 hd
    rw [List.foldl_cons]
    rcases List.mem_cons.1 hm with rfl | hm
    · rw [value_foldl_of_notMem _ hfirst, value_choose, if_pos rfl]
    · exact ih _ hd hm

theorem command_foldl (c : CommandLine) : (choices.foldl choose c).command = c.command := by
  induction choices generalizing c with
  | nil => rfl
  | cons ch choices ih => rw [List.foldl_cons, ih, command_choose]

/-! ## Words of options -/

theorem splitEquals_append (name value : List Char) (hn : '=' ∉ name) :
    splitEquals (name ++ '=' :: value) = (name, some value) := by
  have hne : ∀ c ∈ name, decide (c ≠ '=') = true := fun c hc =>
    decide_eq_true fun h => hn (h ▸ hc)
  unfold splitEquals
  rw [List.dropWhile_append_of_pos hne, List.takeWhile_append_of_pos hne]
  simp

/-- Two dashes and the name of an option are that option. -/
theorem ofString_of_toList {s : String} {o : OptionName} {c : Char} {cs : List Char}
    {value : Option (List Char)} (hs : s.toList = '-' :: '-' :: c :: cs)
    (hsplit : splitEquals (c :: cs) = (o.name.toList, value)) :
    Word.ofString s = .option o (value.map String.ofList) := by
  unfold Word.ofString
  simp only [hs, hsplit, String.ofList_toList]
  cases o <;> rfl

/-- An option that is spelled with its value. -/
theorem ofString_long (o : OptionName) (value : String) :
    Word.ofString ("--" ++ o.name ++ "=" ++ value) = .option o (some value) := by
  have hsplit := splitEquals_append o.name.toList value.toList (by cases o <;> decide)
  obtain ⟨c, cs, hname⟩ : ∃ c cs, o.name.toList = c :: cs := by
    cases o <;> exact ⟨_, _, rfl⟩
  have hlist : ("--" ++ o.name ++ "=" ++ value).toList =
      '-' :: '-' :: c :: (cs ++ '=' :: value.toList) := by
    simp [String.toList_append, hname]
  rw [ofString_of_toList hlist (by rw [← hsplit, hname]; rfl), Option.map_some,
    String.ofList_toList]

/-- An option that is spelled without a value. -/
theorem ofString_short (o : OptionName) : Word.ofString ("--" ++ o.name) = .option o none := by
  cases o <;> decide

end CommandLine

/-- The value of a choice, if its option takes one. -/
def Choice.value? : Choice → Option String
  | .config path => some path
  | .logLevel l => some l.name
  | .survivor | .showExitCode => none
  | .sink s => some s.name
  | .cwd dir => some dir

namespace CommandLine

open Progress (used take settle finish)

variable {choices taken : List Choice} {words rest args : List String} {p : Progress} {w : String}
  {c : CommandLine}

/-- **A choice that is spelled as one argument is read as that option with that value.** -/
theorem ofString_word (ch : Choice) : Word.ofString ch.word = .option ch.option ch.value? := by
  cases ch with
  | config path => exact ofString_long .config path
  | logLevel l => exact ofString_long .logLevel l.name
  | survivor => exact ofString_short .survivor
  | showExitCode => exact ofString_short .showExitCode
  | sink s => exact ofString_long .sink s.name
  | cwd dir => exact ofString_long .cwd dir

theorem takesValue_option (ch : Choice) : ch.option.takesValue = ch.value?.isSome := by
  cases ch <;> rfl

/-- The value of a choice makes up that choice; only the settings file needs one that is
    not empty. -/
theorem choice_value {ch : Choice} (hc : ch ≠ .config "") :
    ch.option.choice (ch.value?.getD "") = .ok ch := by
  cases ch with
  | config path =>
    have hne : path ≠ "" := fun h => hc (by rw [h])
    simp [Choice.option, Choice.value?, OptionName.choice, hne]
  | logLevel l => cases l <;> rfl
  | survivor => rfl
  | showExitCode => rfl
  | sink s => cases s <;> rfl
  | cwd dir => rfl

/-! ## Reading -/

/-- **One choice is taken.** -/
theorem parseWords_word {ch : Choice} (hc : ch ≠ .config "")
    (hnew : ch.option ∉ taken.map Choice.option) :
    parseWords ⟨taken, none⟩ (ch.word :: rest) = parseWords ⟨ch :: taken, none⟩ rest := by
  have hused : ch.option ∉ Progress.used ⟨taken, none⟩ := by simpa [used] using hnew
  have htake : Progress.take ⟨taken, none⟩ ch.option (ch.value?.getD "") =
      .ok ⟨ch :: taken, none⟩ := by
    rw [take, if_neg hused, choice_value hc]
  have htakes := takesValue_option ch
  rw [parseWords, ofString_word]
  cases hv : ch.value? with
  | none =>
    rw [hv] at htakes htake
    simp only [htakes, Option.isSome_none, Bool.false_eq_true, if_false]
    rw [show settle ⟨taken, none⟩ = .ok ⟨taken, none⟩ from rfl]
    simp only [bind, Except.bind]
    rw [show take ⟨taken, none⟩ ch.option "" = .ok ⟨ch :: taken, none⟩ from htake]
  | some value =>
    rw [hv] at htakes htake
    simp only [htakes, Option.isSome_some, if_true]
    rw [show settle ⟨taken, none⟩ = .ok ⟨taken, none⟩ from rfl]
    simp only [bind, Except.bind]
    rw [show take ⟨taken, none⟩ ch.option value = .ok ⟨ch :: taken, none⟩ from htake]

/-- **Choices of different options are taken one after the other.** -/
theorem parseWords_words (hc : .config "" ∉ choices) (hd : (choices.map Choice.option).Nodup)
    (hnew : ∀ ch ∈ choices, ch.option ∉ taken.map Choice.option) :
    parseWords ⟨taken, none⟩ (choices.map Choice.word ++ rest) =
      parseWords ⟨choices.reverse ++ taken, none⟩ rest := by
  induction choices generalizing taken with
  | nil => rfl
  | cons ch choices ih =>
    rw [List.mem_cons, not_or] at hc
    obtain ⟨hfirst, hd⟩ := List.nodup_cons.1 hd
    rw [List.map_cons, List.cons_append,
      parseWords_word (Ne.symm hc.1) (hnew ch List.mem_cons_self), ih hc.2 hd]
    · simp
    · intro ch' hm
      rw [List.map_cons, List.mem_cons, not_or]
      refine ⟨fun h => hfirst ?_, hnew ch' (List.mem_cons_of_mem _ hm)⟩
      exact h ▸ List.mem_map_of_mem hm

theorem finish_eq_ok (hw : words ≠ []) :
    finish ⟨taken, none⟩ words = .ok (ofChoices taken.reverse words) := by
  cases words with
  | nil => exact absurd rfl hw
  | cons w rest => rfl

/-- Behind two dashes the command begins, whatever it is. -/
theorem parseWords_separator (hw : words ≠ []) :
    parseWords ⟨taken, none⟩ ("--" :: words) = .ok (ofChoices taken.reverse words) :=
  finish_eq_ok hw

/-- A word without a dash in front begins the command. -/
theorem parseWords_plain {first : String} (hf : first.toList.head? ≠ some '-') :
    parseWords ⟨taken, none⟩ (first :: rest) = .ok (ofChoices taken.reverse (first :: rest)) := by
  have hother : Word.ofString first = .other := by
    unfold Word.ofString
    split <;> simp_all
  rw [parseWords, hother]
  exact finish_eq_ok (List.cons_ne_nil _ _)

/-- A command line that holds just some choices, and a command. -/
structure Holds (choices : List Choice) (words : List String) (c : CommandLine) : Prop where
  chosen : ∀ ch ∈ choices, c.value ch.option = some ch
  others : ∀ o, o ∉ choices.map Choice.option → c.value o = o.byDefault
  command : c.command = words

theorem holds_ofChoices (words : List String) (hd : (choices.map Choice.option).Nodup) :
    Holds choices words (ofChoices choices words) where
  chosen := fun _ hm => value_foldl_of_mem _ hd hm
  others := fun o ho => by
    rw [ofChoices, value_foldl_of_notMem _ ho]
    cases o <;> rfl
  command := command_foldl _

/-- **A command line is read as it was meant.**  Whatever options are chosen, each at most
    once and in any order, and whatever the words of the command are: behind the name of
    the program, the options and two dashes the command is taken as it is; and so it is
    without the dashes, if its first word does not begin with one. -/
theorem reads_what_was_meant (name : String) (choices : List Choice) (words : List String)
    (hd : (choices.map Choice.option).Nodup) (hc : .config "" ∉ choices) (hw : words ≠ []) :
    (∃ c, parse (name :: (choices.map Choice.word ++ "--" :: words)) = .ok c ∧
      c.Holds choices words) ∧
    ((∀ first, words.head? = some first → first.toList.head? ≠ some '-') →
      ∃ c, parse (name :: (choices.map Choice.word ++ words)) = .ok c ∧ c.Holds choices words) := by
  have hnew : ∀ ch ∈ choices, ch.option ∉ ([] : List Choice).map Choice.option := nofun
  have hheld := holds_ofChoices words hd
  constructor
  · refine ⟨_, ?_, hheld⟩
    rw [parse, List.drop_one, List.tail_cons, parseWords_words hc hd hnew, parseWords_separator hw]
    simp
  · intro hplain
    refine ⟨_, ?_, hheld⟩
    obtain ⟨first, rest, rfl⟩ := List.exists_cons_of_ne_nil hw
    rw [parse, List.drop_one, List.tail_cons, parseWords_words hc hd hnew,
      parseWords_plain (hplain first rfl)]
    simp

/-- Words that look like options, requests and another separator belong to the command. -/
theorem reads_what_was_meant_disguisedWords :
    ∃ c, parse ["procwatch", "--sink=log", "--survivor", "--config=a=b", "--", "--", "", "--help",
        "-V", "--survivor"] = .ok c ∧
      c.command = ["--", "", "--help", "-V", "--survivor"] ∧ c.sink = .log ∧
      c.survivor = true ∧ c.config = "a=b" ∧ c.showExitCode = false ∧ c.cwd = none := by
  obtain ⟨⟨c, hc, hh⟩, -⟩ := reads_what_was_meant "procwatch" [.sink .log, .survivor, .config "a=b"]
    ["--", "", "--help", "-V", "--survivor"] (by decide) (by decide) (by decide)
  have hsink := hh.chosen (.sink .log) (by decide)
  have hsurvivor := hh.chosen .survivor (by decide)
  have hconfig := hh.chosen (.config "a=b") (by decide)
  have hshow := hh.others .showExitCode (by decide)
  have hcwd := hh.others .cwd (by decide)
  refine ⟨c, hc, hh.command, ?_⟩
  simp_all [Choice.option, value, OptionName.byDefault]

/-! ## What follows -/

/-- What a word does, whatever follows it. -/
inductive Reads (p : Progress) (w : String) : Prop where
  /-- it belongs to the options -/
  | option (p' : Progress) : (∀ rest, parseWords p (w :: rest) = parseWords p' rest) → Reads p w
  /-- the command begins behind it -/
  | separator : (∀ rest, parseWords p (w :: rest) = p.finish rest) → Reads p w
  /-- the command begins with it -/
  | command : (∀ rest, parseWords p (w :: rest) = p.finish (w :: rest)) → Reads p w
  | failure (e : UsageError) : (∀ rest, parseWords p (w :: rest) = .error e) → Reads p w

/-- A word that brings the options on, unless that fails. -/
theorem Reads.of_bind {α : Type} {x : Except UsageError α} {f : α → Progress}
    (h : ∀ rest, parseWords p (w :: rest) = x.bind fun a => parseWords (f a) rest) : Reads p w := by
  cases x with
  | error e => exact .failure e h
  | ok a => exact .option (f a) h

/-- **What a word does is settled before the next one is met.** -/
theorem reads (p : Progress) (w : String) : Reads p w := by
  cases hw : Word.ofString w with
  | separator => exact .separator fun rest => by rw [parseWords, hw]
  | help full value =>
    cases value with
    | some value => exact .failure _ fun rest => by rw [parseWords, hw]; rfl
    | none =>
      cases hs : p.settle with
      | error e => exact .failure e fun rest => by rw [parseWords, hw]; simp only [hs]; rfl
      | ok q => exact .failure _ fun rest => by rw [parseWords, hw]; simp only [hs]; rfl
  | version value =>
    cases value with
    | some value => exact .failure _ fun rest => by rw [parseWords, hw]; rfl
    | none =>
      cases hs : p.settle with
      | error e => exact .failure e fun rest => by rw [parseWords, hw]; simp only [hs]; rfl
      | ok q => exact .failure _ fun rest => by rw [parseWords, hw]; simp only [hs]; rfl
  | option o value =>
    cases ht : o.takesValue with
    | true =>
      cases value with
      | some value =>
        refine Reads.of_bind (x := p.settle.bind fun q => q.take o value) (f := id) fun rest => ?_
        rw [parseWords, hw]
        simp only [ht, if_true]
        cases p.settle <;> rfl
      | none =>
        refine Reads.of_bind (x := p.settle) (f := fun q => { q with pending := some ⟨o, none⟩ })
          fun rest => ?_
        rw [parseWords, hw]
        simp only [ht, if_true]
        rfl
    | false =>
      cases value with
      | some value =>
        exact .failure _ fun rest => by rw [parseWords, hw]; simp only [ht]; rfl
      | none =>
        refine Reads.of_bind (x := p.settle.bind fun q => q.take o "") (f := id) fun rest => ?_
        rw [parseWords, hw]
        simp only [ht]
        cases p.settle <;> rfl
  | other =>
    obtain ⟨taken, pending⟩ := p
    match pending with
    | some ⟨o, none⟩ =>
      exact .option ⟨taken, some ⟨o, some w⟩⟩ fun rest => by rw [parseWords, hw]
    | some ⟨o, some value⟩ => exact .command fun rest => by rw [parseWords, hw]
    | none => exact .command fun rest => by rw [parseWords, hw]

theorem ofChoices_command (choices : List Choice) (words words' : List String) :
    ofChoices choices words' = { ofChoices choices words with command := words' } := by
  have hchoose : ∀ (c : CommandLine) (ch : Choice),
      ({ c with command := words' } : CommandLine).choose ch =
        { c.choose ch with command := words' } := by
    intro c ch
    cases ch <;> rfl
  have hfold : ∀ c : CommandLine, choices.foldl choose { c with command := words' } =
      { choices.foldl choose c with command := words' } := by
    induction choices with
    | nil => exact fun _ => rfl
    | cons ch choices ih =>
      intro c
      rw [List.foldl_cons, List.foldl_cons, hchoose, ih]
  exact hfold { command := words }

/-- Where the command begins its words are taken as they are, if there are any. -/
theorem finish_of_ok (h : p.finish words = .ok c) : words ≠ [] ∧ c.command = words ∧
    ∀ words', words' ≠ [] → p.finish words' = .ok { c with command := words' } := by
  unfold finish at h
  cases hs : p.settle with
  | error e => rw [hs] at h; cases h
  | ok q =>
    rw [hs] at h
    cases words with
    | nil => cases h
    | cons first rest =>
      cases h
      refine ⟨List.cons_ne_nil _ _, command_foldl _, fun words' hne => ?_⟩
      obtain ⟨first', rest', rfl⟩ := List.exists_cons_of_ne_nil hne
      rw [finish, hs, ← ofChoices_command]
      rfl

/-- **Words behind a command belong to it.** -/
theorem parseWords_append (h : parseWords p words = .ok c) :
    (∃ before, words = before ++ c.command) ∧
      ∀ more, parseWords p (words ++ more) = .ok { c with command := c.command ++ more } := by
  induction words generalizing p with
  | nil => exact absurd rfl (finish_of_ok h).1
  | cons w rest ih =>
    cases reads p w with
    | option p' hr =>
      rw [hr] at h
      obtain ⟨⟨before, hb⟩, hmore⟩ := ih h
      refine ⟨⟨w :: before, by rw [List.cons_append, ← hb]⟩, fun more => ?_⟩
      rw [List.cons_append, hr, hmore]
    | separator hr =>
      rw [hr] at h
      obtain ⟨hne, hc, hall⟩ := finish_of_ok h
      refine ⟨⟨[w], by rw [hc]; rfl⟩, fun more => ?_⟩
      rw [List.cons_append, hr, hc, hall _ (List.append_ne_nil_of_left_ne_nil hne more)]
    | command hr =>
      rw [hr] at h
      obtain ⟨hne, hc, hall⟩ := finish_of_ok h
      refine ⟨⟨[], by rw [hc]; rfl⟩, fun more => ?_⟩
      rw [List.cons_append, hr, hc, hall _ (List.cons_ne_nil _ _)]
      rfl
    | failure e hr =>
      rw [hr] at h
      cases h

/-- **Once the command has begun, nothing later is interpreted.**  If a command line is accepted,
    its command is the end of it, word for word; and whatever words are put behind it, the command
    line is accepted with these at the end of its command, and all else as it was. -/
theorem keeps_what_follows (h : parse args = .ok c) :
    (∃ before, args = before ++ c.command) ∧
      ∀ more, parse (args ++ more) = .ok { c with command := c.command ++ more } := by
  cases args with
  | nil => cases h
  | cons name words =>
    obtain ⟨⟨before, hb⟩, hmore⟩ := parseWords_append h
    exact ⟨⟨name :: before, congrArg _ hb⟩, hmore⟩

/-- A dash begins the command, and then options, requests and separators follow. -/
theorem keeps_what_follows_laterOptions :
    parse ["procwatch", "--sink", "log", "--cwd=", "-", "--sink", "x", "--survivor", "--help", "--",
        "--config"] =
      .ok {
        sink := .log
        cwd := some ""
        command := ["-", "--sink", "x", "--survivor", "--help", "--", "--config"] } := by
  have h : parse ["procwatch", "--sink", "log", "--cwd=", "-"] =
      .ok { sink := .log, cwd := some "", command := ["-"] } := by rfl
  exact (keeps_what_follows h).2 ["--sink", "x", "--survivor", "--help", "--", "--config"]

end CommandLine

end Supervisor
