/-
  Running scripts.

  * `Shell.eval` runs a script in a shell; a command that is not built in is run
    in a process of its own, unless it is the last one of a process that was
    started for a part of a script;
  * `Shell.run` runs a text as a script, to the end of the process, and
    `Shell.execute` a program in place of the shell.

  All of them count down a number that bounds how deep scripts may nest and
  repeat; a process that gets to its end goes on and on.
-/
import Supervisor.Host.Shell.Call
import Supervisor.Host.Shell.Describe
import Supervisor.Host.Shell.Pipeline
import Supervisor.Host.Wrapper

namespace Supervisor.Host.Shell

/-! ## Starting -/

/-- The variables that a shell has in any case. -/
def standardVariables : List (String × Variable) :=
  [("PATH", standardPath), ("PS1", "# "), ("PS2", "> "), ("PS4", "+ ")].map fun (name, s) =>
    (name, { value := some s })

/-- A shell that was just started in a process, with its environment. -/
def fresh (sh : Shell) (called : String) : Shell :=
  let imported := sh.environ.filter fun (name, _) => isName name
  let new : Shell :=
    { now := sh.now
      started := sh.started
      unread := sh.unread
      pid := sh.pid
      parent := sh.parent
      shellPid := sh.pid
      nextPid := sh.nextPid
      here := sh.here
      bindings := standardVariables
      name := called
      line := 0
      descriptors := sh.descriptors
      opened := sh.opened
      pipes := sh.pipes
      nextId := sh.nextId
      mask := sh.mask
      traps := sh.ignored
      released := sh.released
      known := sh.known
      alarms := sh.alarms
      requests := sh.requests
      emissions := sh.emissions
      holds := sh.holds
      sent := sh.sent }
  let exported (sh : Shell) (v : String × String) : Shell :=
    sh.setVariable v.1 (some { value := some v.2, isExported := true })
  let new := imported.foldl exported new
  let new := ((new.put "IFS" " \t\n").put "OPTIND" "1").put "PPID" (toString sh.parent)
  exported new ("PWD", sh.here.path)

/-- The text of a script, which passes over zeros. -/
def scriptOf (content : Bytes) : List Char := Octets.chars (content.filter (· ≠ 0))

/-- The programs that are shells. -/
def shells : List String := ["sh", "dash", "bash"]

/-! ## Parts of commands -/

/-- The code of a shell that cannot run a program. -/
def launchCode (f : Fault) : Nat := if f = .noSuchFile ∨ f = .notDirectory then 127 else 126

/-- A process that is about to run a program: only what is ignored stays of what
    is done on signals. -/
def atLaunch (sh : Shell) : Shell :=
  { sh.withEnviron sh.environment with traps := sh.ignored }.noteReleased

/-- The program that a name stands for. -/
def locateIn (sh : Shell) (isStandard : Bool) (name : String) : Except Fault Program :=
  if name.toList.contains '/' then executable sh.here true false name
  else search sh.here true false name (sh.searchPath isStandard) false

/-- A shell that ends where a command fails, if it is told so and nobody looks at
    the failure. -/
def check (tested : Bool) (sh : Shell) : Shell :=
  if sh.isOn 'e' && !tested && sh.status ≠ 0 && sh.halt.isNone then sh.exit sh.status else sh

/-- What a loop does behind its condition or its body. -/
inductive Skip where
  | nothing
  | again
  | out
  deriving DecidableEq

/-- What a loop does, and the shell for what is outside of it. -/
def skipLoop (sh : Shell) : Shell × Skip :=
  if sh.halt.isSome then (sh, .out)
  else match sh.jump with
    | none => (sh, .nothing)
    | some (.next 1) => ({ sh with jump := none }, .again)
    | some (.leave 1) => ({ sh with jump := none }, .out)
    | some (.next n) => ({ sh with jump := some (.next (n - 1)) }, .out)
    | some (.leave n) => ({ sh with jump := some (.leave (n - 1)) }, .out)
    | some .back => (sh, .out)

/-- The shell behind a loop, with the code of the loop. -/
def behindLoop (sh : Shell) (code : Nat) : Shell :=
  { sh with loops := sh.loops - 1, status := if sh.halt.isSome then sh.status else code }

/-- The shell behind a command whose variables held only for it. -/
def uncover (sh : Shell) : Shell :=
  match sh.hidden with
  | [] => sh
  | frame :: rest => { sh with hidden := rest }.reveal frame

/-- The shell behind a built-in command.  One that is not special survives what
    has failed in it. -/
def behindBuiltin (isSpecial : Bool) (old sh : Shell) : Shell :=
  let sh := { sh with command := old.command }
  if sh.hasFailed && !isSpecial then { sh with halt := none, hasFailed := false } else sh

/-- A process with a limit: how it ends once the program that it runs did. -/
def behindLimit (sh child : Shell) (l : Limit) (timedOut : Bool) : Shell :=
  let sh := (sh.adopt child).pass child.endTime
  let s := statusOf child.halt
  if timedOut && (l.signal = 9 || s = .signaled 9) then sh.stop (.status (.signaled 9))
  else if timedOut && !l.keepsCode then sh.exit 124
  else if timedOut then sh.exit (codeOf s)
  else match s with
    | .signaled n => sh.stop (.status (.signaled n))
    | s => sh.exit (codeOf s)

/-- What can be read of a script at any time. -/
def atOnce : Nat → Option Nat := fun _ => some 0

/-- When a script can be read that comes in, up to where some characters are
    left. -/
def asItComes (s : Supply) : Nat → Option Nat :=
  let size := (scriptOf s.bytes).length
  fun left => if left = 0 then s.ending else Supply.timeOf (size - left) s.chunks

mutual

/-- The output of a script that runs in a process of its own. -/
def outputOf : Nat → Shell → Script → Shell × Bytes
  | 0, sh, _ => (sh.spin, [])
  | fuel + 1, sh, s =>
    let id := sh.nextId
    let child := { sh.fork with nextId := id + 1, pipes := id :: sh.pipes }.point 1
      (some (.channel (.pipe id)))
    let (written, child) := (runIn fuel false child.noteReleased s).supplyOf id
    let sh := (sh.adopt child).pass (Source.later written.ending child.endTime)
    if sh.halt.isSome then (sh, [])
    else
      let status := statusOf child.halt
      ({ sh.announce status with outputStatus := codeOf status }, written.bytes)

/-- Run a script in a process of its own, to its end. -/
def runIn : Nat → Bool → Shell → Script → Shell
  | 0, _, sh, _ => sh.spin
  | fuel + 1, tested, sh, s => finish fuel (eval fuel true tested sh s)

/-- Run a program in place of the shell. -/
def become : Nat → Shell → Bool → String → List String → Shell
  | 0, sh, _, _, _ => sh.spin
  | fuel + 1, sh, isStandard, name, args =>
    match sh.locateIn isStandard name with
    | .ok p => execute fuel sh.atLaunch name p args
    | .error f => (sh.complain (launchCode f) (name ++ ": " ++ launchText f)).exit (launchCode f)

/-- Run a program in place of one that runs another. -/
def unwrap : Nat → Shell → Wrapping → Shell
  | 0, sh, _ => sh.spin
  | fuel + 1, sh, w =>
    let sh := { sh.withEnviron w.env with traps := w.ignores.map (fun n => (n, [])) ++ sh.traps }
    match locate sh.here true false (w.env.lookup "PATH") w.name with
    | .ok p => execute fuel sh w.name p w.args
    | .error f =>
      let text := w.complaint w.name ++ ": " ++ Utility.faultText f
      let more := if f = .noSuchFile then (w.advice w.name).toList else []
      let code := if f = .noSuchFile then 127 else 126
      (sh.write 2 ((text :: more).flatMap Utility.line)).exit code

/-- Run a program for some time in a process of its own. -/
def limited : Nat → Shell → Limit → Wrapping → Shell
  | 0, sh, _, _ => sh.spin
  | fuel + 1, sh, l, w =>
    let unlimited := unwrap fuel sh.fork w
    match l.time.filter fun t => unlimited.endTime.all (sh.now + t < ·) with
    | none => sh.behindLimit unlimited l false
    | some t =>
      let kill := l.killAfter.map fun k => (sh.now + t + k, 9)
      let alarms := (sh.now + t, l.signal) :: kill.toList ++ sh.alarms
      sh.behindLimit (unwrap fuel { sh with alarms }.fork w) l true

/-- Execute what was found, called by a name. -/
def execute : Nat → Shell → String → Program → List String → Shell
  | 0, sh, _, _, _ => sh.spin
  | fuel + 1, sh, called, p, args =>
    match p with
    | .script path called interpreter argument =>
      execute fuel sh called interpreter (argument.toList ++ path :: args)
    | .builtin name =>
      if shells.contains name then executeShell fuel (sh.fresh called) args
      else match Wrapper.read called name sh.environ args with
        | some (.effect e) => sh.complete called name e
        | some (.program w) =>
          match w.limit, w.folder with
          | some l, _ => limited fuel sh l w
          | none, none => unwrap fuel sh w
          | none, some dir =>
            match sh.here.resolve dir.toList with
            | .ok t => unwrap fuel { sh with here := t } w
            | .error f =>
              let text := called ++ ": cannot change directory to " ++ Quote.forShell dir ++ ": "
              (sh.write 2 (Utility.line (text ++ Utility.faultText f))).exit 125
        | none => sh.complete called name (Tools.run name ⟨false, called⟩ sh.place args)

/-- Run a shell that was just started. -/
def executeShell : Nat → Shell → List String → Shell
  | 0, sh, _ => sh.spin
  | fuel + 1, sh, args =>
    match readOptions true [] args with
    | .error why => sh.fail why
    | .ok ⟨changes, _, rest⟩ =>
      let ready := { sh with options := changeOptions [] changes, line := 1 }
      if (changes.lookup 'c').isSome then
        match rest with
        | [] => sh.fail "-c requires an argument"
        | script :: rest =>
          let name := rest.head?.getD sh.name
          run fuel { ready with name, args := rest.drop 1 } atOnce script.toList
      else match if changes.lookup 's' = some true then [] else rest with
        | [] =>
          match sh.supplyAt 0 with
          | .error _ => run fuel { ready with args := rest } atOnce []
          | .ok s =>
            let ready := { ready with args := rest }.setSupply 0 { s with chunks := [] }
            run fuel ready (asItComes s) (scriptOf s.bytes)
        | a :: rest =>
          match sh.here.contentAt a with
          | .ok bs => run fuel { ready with name := a, args := rest } atOnce (scriptOf bs)
          | .error .isDirectory => sh.exit 0
          | .error f => sh.fail ("cannot open " ++ a ++ ": " ++ openFault "No such file" f)

/-- Do what is done on a signal. -/
def raise : Nat → Shell → Nat → Shell
  | 0, sh, _ => sh.spin
  | fuel + 1, sh, n =>
    match if Signal.isHandled n then sh.traps.lookup n else none with
    | some [] => sh
    | some action =>
      let done := evalText fuel false { sh with trapStatus := some sh.status } action
      let done := { done with trapStatus := sh.trapStatus }
      if done.isDone then done else done.setStatus sh.status
    | none =>
      match sh.haltOf n with
      | some h => sh.stop h
      | none => sh

/-- Do what is done on the signals that the process has got. -/
def deliver : Nat → Shell → Shell
  | 0, sh => sh.spin
  | fuel + 1, sh =>
    if sh.isDone then sh
    else match sh.dueSignal with
      | none => sh
      | some r => deliver fuel (raise fuel (sh.dropRequest r) r.signal)

/-- Run a built-in command. -/
def builtin : Nat → Bool → Shell → Call → Except String Shell
  | 0, _, sh, _ => .ok sh.spin
  | fuel + 1, tested, sh, c =>
    match c.name, c.args with
    | "eval", [] => .ok (sh.setStatus 0)
    | "eval", args => .ok (evalText fuel tested sh (" ".intercalate args).toList)
    | ".", [] => .ok (sh.setStatus 0)
    | ".", path :: _ =>
      let file := if path.toList.contains '/' then some path
        else firstFile sh.here path (sh.searchPath false)
      match file with
      | none => .error (path ++ ": not found")
      | some path =>
        match sh.here.contentAt path with
        | .ok bs =>
          let done := evalText fuel false { sh with command := some path } (scriptOf bs)
          .ok { done with jump := done.jump.filter (· ≠ .back) }
        | .error .isDirectory => .ok (sh.setStatus 0)
        | .error f => .error ("cannot open " ++ path ++ ": " ++ openFault "No such file" f)
    | "exec", [] => .ok (sh.noteReleased.setStatus 0)
    | "exec", name :: args => .ok (become fuel sh false name args)
    | "command", args => describeOne sh args
    | "type", args => describeAll sh args
    | "hash", args => hash sh args
    | name, args =>
      match builtins.lookup name with
      | some run => run sh args
      | none => .ok sh

/-- Run a command: a script with its name, a built-in command or a program. -/
def invoke : Nat → Bool → Bool → Shell → Call → Shell
  | 0, _, _, sh, _ => sh.spin
  | fuel + 1, last, tested, sh, c =>
    match if c.isPlain then none else sh.functions.lookup c.name with
    | some body =>
      let done := eval fuel false tested
        { sh with args := c.args, loops := 0, optionIndex := 1, optionOffset := none } body
      { done with
        args := sh.args
        loops := sh.loops
        optionIndex := sh.optionIndex
        optionOffset := sh.optionOffset
        jump := done.jump.filter (· ≠ .back) }
    | none =>
      if isBuiltin c.name then
        let inner := { sh with command := some c.name }
        behindBuiltin c.isSpecial sh (match builtin fuel tested inner c with
          | .ok done => done
          | .error why => inner.fail why)
      else
        let isPath := c.name.toList.contains '/'
        match firstExecutable sh.here c.name .noSuchFile (sh.searchPath c.isStandard), isPath with
        | .error f, false => sh.complain 127 (c.name ++ ": " ++ launchText f)
        | _, _ =>
          let sh := if isPath || sh.found.contains c.name then sh
            else { sh with found := sh.found ++ [c.name] }
          if last && !sh.hasTraps then become fuel sh c.isStandard c.name c.args
          else sh.await (become fuel sh.fork c.isStandard c.name c.args)

/-- Run a simple command. -/
def simple : Nat → Bool → Bool → Shell → List (String × Word) → List Word → List Redirect → Shell
  | 0, _, _, sh, _, _, _ => sh.spin
  | fuel + 1, last, tested, sh, sets, ws, rs =>
    let (sh, c) := callOf (outputOf fuel) { sh with outputStatus := 0 } ws
    if sh.isDone then sh
    else
      let (opened, isOk) := redirect (outputOf fuel) sh rs
      if opened.isDone then opened
      else if !isOk then if c.isSpecial then opened.giveUp else opened
      else
        let isTemporary := !c.isEmpty && !c.isSpecial
        let keeps := c.name = "exec"
        let ready := if isTemporary then { opened with hidden := [] :: opened.hidden } else opened
        let (ready, texts) := assignAll (outputOf fuel) ⟨isTemporary, keeps && c.args ≠ []⟩ ready sets
        let done := if ready.isDone then ready
          else
            let shown := trace sh ready (texts ++ c.all)
            if c.isEmpty then shown.setStatus shown.outputStatus
            else invoke fuel last tested shown c
        let done := if keeps then done else backFrom (rs.map Redirect.fd) sh done
        if isTemporary then done.uncover else done

/-- Run a script in a shell.  `last` tells whether nothing follows it, and `tested`
    whether somebody looks at its failure. -/
def eval : Nat → Bool → Bool → Shell → Script → Shell
  | 0, _, _, sh, _ => sh.spin
  | fuel + 1, last, tested, sh, s =>
    if sh.isDone || sh.isOn 'n' then sh
    else match s with
      | .nothing => sh
      | .simple line sets ws rs =>
        check tested (deliver fuel (simple fuel last tested { sh with line } sets ws rs))
      | .define name body =>
        { sh with
          functions := (name, body) :: sh.functions.filter (·.1 ≠ name)
          status := 0 }
      | .subshell line body rs =>
        let (sh, redirected) := expandRedirects (outputOf fuel) { sh with line } rs
        if sh.isDone then sh
        else
          -- where nothing follows it, it is run in place of the shell
          let inPlace := last && !sh.hasTraps
          let child := if inPlace then { sh with traps := sh.ignored } else sh.fork
          let (child, isOk) := redirectAll child child redirected
          let done := if isOk then runIn fuel tested child.noteReleased body else child.giveUp
          if inPlace then done else check tested (deliver fuel (sh.await done))
      | .redirected line body rs =>
        let sh := { sh with line }
        let (opened, isOk) := redirect (outputOf fuel) sh rs
        if opened.isDone || !isOk then opened
        else backFrom (rs.map Redirect.fd) sh (eval fuel false tested opened body)
      | .loop wanted condition body =>
        again fuel tested { sh with loops := sh.loops + 1 } wanted condition body 0
      | .each line name words body =>
        let (sh, values) := arguments (outputOf fuel) { sh with line } words
        if sh.isDone then sh
        else
          let (sh, code, _) := values.foldl (fun (state : Shell × Nat × Bool) v =>
            let (sh, _, isOver) := state
            if isOver then state
            else match sh.assign name v with
              | .error why => (sh.fail why, 2, true)
              | .ok sh =>
                let sh := eval fuel false tested sh body
                let code := sh.status
                let (sh, skip) := sh.skipLoop
                (sh, code, skip = .out)) ({ sh with loops := sh.loops + 1 }, 0, false)
          sh.behindLoop code
      | .branch condition yes no =>
        let sh := eval fuel false true sh condition
        if sh.isDone then sh
        else if sh.status = 0 then eval fuel last tested sh yes
        else match no with
          | .nothing => sh.setStatus 0
          | no => eval fuel last tested sh no
      | .choose line subject arms =>
        let (sh, text) := textOf (outputOf fuel) { sh with line } subject
        if sh.isDone then sh else chooseArm fuel last tested sh text.toList arms
      | .seq a b => eval fuel last tested (eval fuel false tested sh a) b
      | .both a b =>
        let sh := eval fuel false true sh a
        if sh.status = 0 then eval fuel last tested sh b else sh
      | .either a b =>
        let sh := eval fuel false true sh a
        if sh.status = 0 then sh else eval fuel last tested sh b
      | .negate a =>
        let sh := eval fuel false true sh a
        if sh.halt.isSome then sh else sh.setStatus (if sh.status = 0 then 1 else 0)
      | .pipe parts =>
        let children := pipeParts (runIn fuel tested) (fun child => child) sh none parts
        check tested (deliver fuel (sh.awaitAll children))
      | .background a =>
        let sh := match a with
          | .pipe parts =>
            sh.leaveAll (pipeParts (runIn fuel false) inBackground sh (some {}) parts)
          | a => sh.leave (runIn fuel false (sh.fork.inBackground.point 0 (some .null)) a)
        deliver fuel sh

/-- Run a loop, from its condition on; its code so far is given. -/
def again : Nat → Bool → Shell → Bool → Script → Script → Nat → Shell
  | 0, _, sh, _, _, _, _ => sh.spin
  | fuel + 1, tested, sh, wanted, condition, body, code =>
    let sh := eval fuel false true sh condition
    let code := if sh.jump = some .back then sh.status else code
    let isWanted := decide (sh.status = 0) = wanted
    match sh.skipLoop with
    | (sh, .out) => sh.behindLoop code
    | (sh, .again) => again fuel tested sh wanted condition body code
    | (sh, .nothing) =>
      if !isWanted then sh.behindLoop code
      else
        let sh := eval fuel false tested sh body
        let code := sh.status
        match sh.skipLoop with
        | (sh, .out) => sh.behindLoop code
        | (sh, _) => again fuel tested sh wanted condition body code

/-- Run the first arm that has a pattern which fits. -/
def chooseArm : Nat → Bool → Bool → Shell → List Char → List (List Word × Script) → Shell
  | 0, _, _, sh, _, _ => sh.spin
  | _, _, _, sh, _, [] => sh.setStatus 0
  | fuel + 1, last, tested, sh, subject, (patterns, body) :: arms =>
    let (sh, fits) := patterns.foldl (fun (state : Shell × Bool) w =>
      if state.2 || state.1.isDone then state
      else
        let (sh, p) := patternOf (outputOf fuel) state.1 w
        (sh, p.accepts subject)) (sh, false)
    if sh.isDone then sh
    else if !fits then chooseArm fuel last tested sh subject arms
    else match body with
      | .nothing => sh.setStatus 0
      | body => eval fuel last tested sh body

/-- Run what is left of a text; `ready` says when it can be read, and `ran` whether
    something was run. -/
def evalFrom : Nat → Bool → (Nat → Option Nat) → Shell → Text → Bool → Shell
  | 0, _, _, sh, _, _ => sh.spin
  | fuel + 1, tested, ready, sh, t, ran =>
    match Script.next { t with aliases := sh.aliases } with
    | .error e =>
      let sh := sh.pass ((ready 0).map (max sh.now))
      if sh.halt.isSome then sh else { sh with line := e.line }.fail ("Syntax error: " ++ e.text)
    | .ok (s, rest) =>
      let isOver := Script.isOver rest
      let sh := sh.pass ((ready (if isOver then 0 else rest.rest.length)).map (max sh.now))
      if sh.halt.isSome then sh
      else match s with
        | .nothing =>
          if !isOver then evalFrom fuel tested ready sh rest ran
          else if ran then sh else sh.setStatus 0
        | s =>
          let sh := eval fuel false tested sh s
          if sh.isDone || isOver then sh else evalFrom fuel tested ready sh rest true

/-- Run a text as a part of a script. -/
def evalText : Nat → Bool → Shell → List Char → Shell
  | 0, _, sh, _ => sh.spin
  | fuel + 1, tested, sh, text => evalFrom fuel tested atOnce sh { rest := text } false

/-- The end of a script: what is done at an exit, and the exit. -/
def finish : Nat → Shell → Shell
  | 0, sh => sh.spin
  | fuel + 1, sh =>
    match sh.traps.lookup 0, sh.halt with
    | _, some .never => sh
    | _, some (.status (.signaled _)) => sh
    | none, some _ => sh
    | none, none => { sh with jump := none }.exit sh.status
    | some action, h =>
      let code := (h.map fun h => codeOf (statusOf (some h))).getD sh.status
      let ready := { sh with
        halt := none
        hasFailed := false
        jump := none
        status := code
        trapStatus := some code
        traps := sh.traps.filter (·.1 ≠ 0) }
      let done := evalText fuel false ready action
      if done.halt.isSome then done else { done with jump := none }.exit code

/-- Run a text as a script, to the end of the process. -/
def run : Nat → Shell → (Nat → Option Nat) → List Char → Shell
  | 0, sh, _, _ => sh.spin
  | fuel + 1, sh, ready, text => finish fuel (evalFrom fuel false ready sh { rest := text } false)

end

end Supervisor.Host.Shell
