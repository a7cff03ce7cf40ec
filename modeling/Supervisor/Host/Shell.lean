/-
  Shells: processes that run scripts, on a clock.

  * a `Shell` is a process with its descriptors, its variables and its jobs,
    and a record of what it and the processes it started write and hold open;
  * a descriptor leads to a `Target`; what can be read comes from a `Supply`,
    at some time, and what is written goes to a `Channel` or to a file;
  * a process ends once: by an exit or a signal, or never (`Halt`);
  * `Shell.fork` is a process of its own that goes on where the shell is, and
    `Shell.await` and `Shell.leave` take its record back, waiting or not;
  * a signal that one process sends to another is a `Request`.  Those that a
    process gets are known when it starts, and are met when time passes for it
    (`Shell.pass`); what it sends is on its record.

  Commands take no time, apart from those that wait.
-/
import Supervisor.Host.Effect
import Supervisor.Host.Shell.Number
import Supervisor.Host.Shell.Script
import Supervisor.Host.Signal
import Supervisor.Outcome
import Supervisor.Source
import Supervisor.Stream

namespace Supervisor.Host

/-! ## Descriptors -/

/-- Where what is written goes to others. -/
inductive Channel where
  | stream (s : Stream)
  /-- to another process of the script -/
  | pipe (id : Nat)
  deriving DecidableEq

/-- Where a descriptor leads. -/
inductive Target where
  | channel (c : Channel)
  | null
  /-- there is no space for what is written -/
  | full
  /-- a file or something to read, which all who share it move forward in -/
  | opened (id : Nat)
  deriving DecidableEq

/-- What can be read. -/
structure Supply where
  /-- the parts of it, each with the time from which on it is there -/
  chunks : List (Nat × Bytes) := []
  /-- from when on its end can be read; `none` is never -/
  closes : Option Nat := some 0
  /-- it is a file, in which one can go back -/
  isFile : Bool := true
  deriving DecidableEq

/-- A file or something to read. -/
inductive Opened where
  | supply (s : Supply)
  /-- a file at a place, from an offset on or always at its end -/
  | file (names : List String) (offset : Nat) (atEnd : Bool)
  deriving DecidableEq

namespace Supply

/-- All that can be read. -/
def bytes (s : Supply) : Bytes := s.chunks.flatMap (·.2)

/-- A file. -/
def ofBytes (bs : Bytes) : Supply := { chunks := if bs = [] then [] else [(0, bs)] }

/-- What is left without some bytes at the start. -/
def dropFrom : Nat → List (Nat × Bytes) → List (Nat × Bytes)
  | _, [] => []
  | n, (t, bs) :: rest =>
    if bs.length ≤ n then dropFrom (n - bs.length) rest else (t, bs.drop n) :: rest

/-- When so many bytes are there, if there are as many. -/
def timeOf : Nat → List (Nat × Bytes) → Option Nat
  | 0, _ => some 0
  | _, [] => none
  | n, (t, bs) :: rest =>
    if n ≤ bs.length then some t else (timeOf (n - bs.length) rest).map (max t)

/-- The time at which all of it was read. -/
def ending (s : Supply) : Option Nat :=
  s.closes.map fun t => s.chunks.foldl (fun t c => max t c.1) t

/-- Without the bytes that were there at a time. -/
def after (time : Nat) (s : Supply) : Supply :=
  { s with chunks := s.chunks.filter fun c => time < c.1 }

end Supply

/-! ## Processes -/

/-- How a process ends. -/
inductive Halt where
  | status (s : WaitStatus)
  /-- it never does -/
  | never
  deriving DecidableEq

/-- What is left before its end. -/
inductive Jump where
  /-- a number of loops -/
  | leave (loops : Nat)
  /-- a number of loops, of which the last goes on -/
  | next (loops : Nat)
  /-- a script that was called by its name, or read from a file -/
  | back
  deriving DecidableEq

/-- A step from a process to one that it starts: which process, and when. -/
structure Descent where
  parent : Nat
  time : Nat
  deriving DecidableEq

/-- Something written, and by whom. -/
structure Emission where
  time : Nat
  pid : Nat
  channel : Channel
  data : Bytes
  /-- the steps that lead to the one who wrote it, the first one first -/
  lineage : List Descent := []
  deriving DecidableEq

/-- A channel held open, by whom and until when. -/
structure Hold where
  pid : Nat
  channel : Channel
  /-- `none` is never -/
  release : Option Nat
  lineage : List Descent := []
  deriving DecidableEq

/-- A signal that a process gets. -/
structure Request where
  time : Nat
  target : Nat
  signal : Nat
  deriving DecidableEq

/-- A process in the background. -/
structure Job where
  pid : Nat
  /-- when it ends; `none` is never -/
  ends : Option Nat
  status : WaitStatus
  deriving DecidableEq

/-- A variable. -/
structure Variable where
  /-- one that is exported or fixed may have none -/
  value : Option String := none
  isExported : Bool := false
  /-- it cannot be changed -/
  isFixed : Bool := false
  deriving DecidableEq

/-- A process that runs scripts. -/
structure Shell where
  now : Nat
  /-- when it was started -/
  started : Nat
  /-- from when on nobody reads the streams -/
  unread : Option Nat := none
  pid : Nat
  /-- the process that started it -/
  parent : Nat := 1
  /-- the pid that scripts see -/
  shellPid : Nat
  nextPid : Nat
  here : Trail
  bindings : List (String × Variable) := []
  /-- what the variables of scripts that were called by name were before, the
      latest call first -/
  hidden : List (List (String × Option Variable)) := []
  /-- scripts with a name -/
  functions : List (String × Shell.Script) := []
  aliases : List (String × List Char) := []
  /-- the options that are on -/
  options : List Char := []
  /-- what the shell is called -/
  name : String := "sh"
  /-- the built-in command that is carried out -/
  command : Option String := none
  args : List String := []
  /-- the next argument to be looked at for options -/
  optionIndex : Nat := 1
  /-- how much of the one in front of it was looked at, if that is not over -/
  optionOffset : Option Nat := none
  /-- the line that is run -/
  line : Nat := 1
  descriptors : List (Nat × Target) :=
    [(0, .null), (1, .channel (.stream .out)), (2, .channel (.stream .err))]
  opened : List (Nat × Opened) := []
  /-- the channels to processes of the script that may be held open -/
  pipes : List Nat := []
  /-- the number of the next file or channel -/
  nextId : Nat := 0
  /-- which permissions new files do not get -/
  mask : Nat := 18
  status : Nat := 0
  /-- the code of the last script whose output was put in a word -/
  outputStatus : Nat := 0
  traps : List (Nat × List Char) := []
  /-- the status in front of what is done on a signal, while that is done -/
  trapStatus : Option Nat := none
  jobs : List Job := []
  lastJob : Option Nat := none
  /-- when it let go of a channel before its end -/
  released : List (Channel × Nat) := []
  halt : Option Halt := none
  /-- it ended because of a complaint -/
  hasFailed : Bool := false
  /-- the loops it is in -/
  loops : Nat := 0
  jump : Option Jump := none
  /-- the programs that were found -/
  found : List String := []
  /-- the signals that processes get -/
  known : List Request := []
  /-- the signals that it and all that it starts get, with their times -/
  alarms : List (Nat × Nat) := []
  /-- the signals that it has still to get -/
  requests : List Request := []
  /-- what was written, latest first -/
  emissions : List Emission := []
  holds : List Hold := []
  /-- the signals that were sent -/
  sent : List Request := []

namespace Shell

/-- Whether an option is on. -/
def isOn (sh : Shell) (o : Char) : Bool := sh.options.contains o

/-- Whether nothing more is run. -/
def isDone (sh : Shell) : Bool := sh.halt.isSome || sh.jump.isSome

/-- End the process, unless it has ended. -/
def stop (sh : Shell) (h : Halt) : Shell :=
  if sh.halt.isSome then sh else { sh with halt := some h }

/-- Exit with a code. -/
def exit (sh : Shell) (code : Nat) : Shell := sh.stop (.status (.exited (code % 256)))

/-- Set the status. -/
def setStatus (sh : Shell) (n : Nat) : Shell := { sh with status := n }

/-! ## Writing -/

/-- How often a process writes within a moment. -/
def writesPerMoment : Nat := 1000

/-- Whether nobody reads the streams any more. -/
def isUnread (sh : Shell) : Bool :=
  sh.unread.any fun t => t < sh.now || (t = sh.now && writesPerMoment ≤ sh.emissions.length)

/-- The signal of a write that nobody can read. -/
def pipeSignal : Nat := 13

/-- Whether the process does not die of a write that nobody can read. -/
def outlivesPipes (sh : Shell) : Bool := sh.traps.any (·.1 = pipeSignal)

/-- A descriptor that is not open, or not for what is wanted. -/
def badDescriptor : Fault := .system 9

/-- No space is left. -/
def noSpace : Fault := .system 28

/-- Nobody reads what is written. -/
def brokenPipe : Fault := .system 32

/-- Why a descriptor cannot be written to. -/
def writeFault (sh : Shell) (fd : Nat) : Option Fault :=
  match sh.descriptors.lookup fd with
  | none => some badDescriptor
  | some (.channel (.stream _)) => if sh.isUnread && sh.outlivesPipes then some brokenPipe else none
  | some (.channel (.pipe _)) | some .null => none
  | some .full => some noSpace
  | some (.opened id) =>
    match sh.opened.lookup id with
    | some (.file ..) => none
    | _ => some badDescriptor

/-- Change a file or something to read. -/
def setOpened (sh : Shell) (id : Nat) (o : Opened) : Shell :=
  { sh with opened := (id, o) :: sh.opened.filter (·.1 ≠ id) }

/-- Write to a descriptor; one that cannot be written to takes nothing. -/
def write (sh : Shell) (fd : Nat) (data : Bytes) : Shell :=
  let emit (c : Channel) : Shell :=
    { sh with emissions := ⟨sh.now, sh.pid, c, data, []⟩ :: sh.emissions }
  if data = [] || sh.halt.isSome then sh
  else match sh.descriptors.lookup fd with
    | some (.channel (.stream s)) =>
      if !sh.isUnread then emit (.stream s)
      else if sh.outlivesPipes then sh
      else sh.stop (.status (.signaled pipeSignal))
    | some (.channel c) => emit c
    | some (.opened id) =>
      match sh.opened.lookup id with
      | some (.file names offset atEnd) =>
        let offset := if atEnd then sh.here.sizeAt names else offset
        { sh with here := sh.here.writeAt names offset data }.setOpened id
          (.file names (offset + data.length) atEnd)
      | _ => sh
    | _ => sh

/-- How the complaints of the shell begin. -/
def who (sh : Shell) : String :=
  let front := sh.name ++ ": " ++ toString sh.line
  match sh.command with
  | some c => front ++ ": " ++ c
  | none => front

/-- A complaint of the shell. -/
def complain (sh : Shell) (code : Nat) (text : String) : Shell :=
  (sh.write 2 (Utility.line (sh.who ++ ": " ++ text))).setStatus code

/-- The end of a shell that does not survive a complaint. -/
def giveUp (sh : Shell) : Shell := { sh.exit 2 with status := 2, hasFailed := true }

/-- A complaint that the shell does not survive. -/
def fail (sh : Shell) (text : String) : Shell := (sh.complain 2 text).giveUp

/-! ## Channels -/

/-- The channels that the process may hold open. -/
def channels (sh : Shell) : List Channel :=
  Stream.all.map Channel.stream ++ sh.pipes.map Channel.pipe

/-- Whether a descriptor leads to a channel. -/
def leadsTo (sh : Shell) (c : Channel) : Bool := sh.descriptors.any (·.2 = .channel c)

/-- Note the channels that no descriptor leads to any more. -/
def noteReleased (sh : Shell) : Shell :=
  sh.channels.foldl (fun sh c =>
    if sh.leadsTo c || (sh.released.lookup c).isSome then sh
    else { sh with released := (c, sh.now) :: sh.released }) sh

/-- Point a descriptor to a target, or close it. -/
def point (sh : Shell) (fd : Nat) (t : Option Target) : Shell :=
  let others := sh.descriptors.filter (·.1 ≠ fd)
  { sh with descriptors := match t with
      | some t => (fd, t) :: others
      | none => others }

/-- Until when the process holds a channel open. -/
def heldUntil (sh : Shell) (c : Channel) : Option Nat :=
  match sh.released.lookup c with
  | some t => some t
  | none => if sh.halt = some .never then none else some sh.now

/-- Point a descriptor to a file or to something to read. -/
def open_ (sh : Shell) (fd : Nat) (o : Opened) : Shell :=
  { sh with nextId := sh.nextId + 1, opened := (sh.nextId, o) :: sh.opened }.point fd
    (some (.opened sh.nextId))

/-- What can be read from a descriptor. -/
def supplyAt (sh : Shell) (fd : Nat) : Except Fault Supply :=
  match sh.descriptors.lookup fd with
  | none => .error badDescriptor
  | some .null => .ok {}
  | some .full => .ok (.ofBytes (List.replicate Entry.zeroCount 0))
  | some (.channel _) => .error badDescriptor
  | some (.opened id) =>
    match sh.opened.lookup id with
    | some (.supply s) => .ok s
    | some (.file names offset _) =>
      match sh.here.at? names with
      | some (.file content _) => .ok (.ofBytes (content.drop offset))
      | _ => .ok {}
    | none => .error badDescriptor

/-- Leave so much to be read from a descriptor. -/
def setSupply (sh : Shell) (fd : Nat) (s : Supply) : Shell :=
  match sh.descriptors.lookup fd with
  | some (.opened id) =>
    match sh.opened.lookup id with
    | some (.supply _) => sh.setOpened id (.supply s)
    | some (.file names _ atEnd) =>
      sh.setOpened id (.file names (sh.here.sizeAt names - s.bytes.length) atEnd)
    | none => sh
  | _ => sh

/-! ## Variables -/

/-- The value of a variable. -/
def get (sh : Shell) (name : String) : Option String :=
  (sh.bindings.lookup name).bind Variable.value

/-- Change a variable. -/
def setVariable (sh : Shell) (name : String) (v : Option Variable) : Shell :=
  match v with
  | none => { sh with bindings := sh.bindings.filter (·.1 ≠ name) }
  | some v =>
    if (sh.bindings.lookup name).isSome then
      { sh with bindings := sh.bindings.map fun (n, old) => (n, if n = name then v else old) }
    else { sh with bindings := sh.bindings ++ [(name, v)] }

/-- Whether a variable cannot be changed. -/
def isFixed (sh : Shell) (name : String) : Bool := (sh.bindings.lookup name).any Variable.isFixed

/-- Give a variable a value. -/
def put (sh : Shell) (name value : String) : Shell :=
  let old := (sh.bindings.lookup name).getD {}
  let sh := if name = "OPTIND" then
      { sh with optionIndex := (decimal? value.toList).getD 1, optionOffset := none }
    else if name = "PATH" then { sh with found := [] }
    else sh
  sh.setVariable name
    (some { old with value := some value, isExported := old.isExported || sh.isOn 'a' })

/-- Give a variable a value, unless that is not possible. -/
def assign (sh : Shell) (name value : String) : Except String Shell :=
  if !isName name then .error (name ++ ": bad variable name")
  else if sh.isFixed name then .error (name ++ ": is read only")
  else .ok (sh.put name value)

/-- Remove a variable, unless that is not possible. -/
def unassign (sh : Shell) (name : String) : Except String Shell :=
  if !isName name then .error (name ++ ": bad variable name")
  else if sh.isFixed name then .error (name ++ ": is read only")
  else .ok (sh.setVariable name none)

/-- Where a variable stands among the others in an environment. -/
def bucket (name : String) : Nat :=
  let cs := name.toList.map Char.toNat
  ((cs.head?.getD 0) * 16 + cs.foldl Nat.add 0) % 39

/-- The environment of the process. -/
def environ (sh : Shell) : List (String × String) :=
  sh.bindings.filterMap fun (name, v) =>
    if v.isExported then v.value.map fun s => (name, s) else none

/-- The process with an environment and no other variables. -/
def withEnviron (sh : Shell) (env : List (String × String)) : Shell :=
  { sh with bindings := env.map fun (name, s) => (name, { value := some s, isExported := true }) }

/-- The environment of a program that the shell starts. -/
def environment (sh : Shell) : List (String × String) :=
  sh.environ.mergeSort fun a b => bucket a.1 ≤ bucket b.1

/-- The characters that separate fields. -/
def separators (sh : Shell) : List Char := ((sh.get "IFS").getD " \t\n").toList

/-- The value of a parameter, which may be one of the shell itself. -/
def parameter (sh : Shell) (name : String) : Option String :=
  match name with
  | "?" => some (toString sh.status)
  | "$" => some (toString sh.shellPid)
  | "!" => sh.lastJob.map toString
  | "#" => some (toString sh.args.length)
  | "-" => some (String.ofList ("efIimnsxvVECabup".toList.filter sh.isOn))
  | "0" => some sh.name
  | name =>
    match decimal? name.toList with
    | some 0 => some sh.name
    | some n => sh.args[n - 1]?
    | none => sh.get name

/-! ## Processes -/

/-- The signals that a process has still to get. -/
def requestsOf (sh : Shell) (pid : Nat) : List Request :=
  let ahead := sh.alarms.filter fun (t, _) => sh.now < t
  sh.known.filter (·.target = pid) ++ ahead.map fun (t, n) => ⟨t, pid, n⟩

/-- Whether something is done on signals. -/
def hasTraps (sh : Shell) : Bool := sh.traps.any (·.2 ≠ [])

/-- The signals that are ignored, which stay so in programs and other processes. -/
def ignored (sh : Shell) : List (Nat × List Char) :=
  sh.traps.filter fun (n, action) => n ≠ 0 && action = []

/-- A process of its own, that goes on where the shell is. -/
def fork (sh : Shell) : Shell :=
  { sh with
    pid := sh.nextPid
    parent := sh.pid
    started := sh.now
    nextPid := sh.nextPid + 1
    traps := sh.ignored
    jobs := []
    released := []
    requests := sh.requestsOf sh.nextPid
    emissions := []
    holds := []
    sent := [] }

/-- The status of a process that has ended. -/
def statusOf (h : Option Halt) : WaitStatus :=
  match h with
  | some (.status s) => s
  | _ => .exited 0

/-- The code of a status, as a shell sees it. -/
def codeOf : WaitStatus → Nat
  | .exited code => code
  | .signaled n => 128 + n
  | .neither => 0

/-- What a process that was started shares with the shell is as that process
    leaves it. -/
def continue_ (sh child : Shell) : Shell :=
  { sh with
    nextPid := child.nextPid
    nextId := child.nextId
    opened := child.opened
    here := sh.here.under child.here.top }

/-- What a process wrote, held and sent is on the record of the shell, and what
    it changed is changed. -/
def adopt (sh child : Shell) : Shell :=
  let step : Descent := ⟨sh.pid, child.started⟩
  let held := child.channels.map fun c => (⟨child.pid, c, child.heldUntil c, []⟩ : Hold)
  { sh.continue_ child with
    emissions := child.emissions.map (fun e => { e with lineage := step :: e.lineage }) ++ sh.emissions
    holds := (held ++ child.holds).map (fun h => { h with lineage := step :: h.lineage }) ++ sh.holds
    sent := child.sent ++ sh.sent }

/-- When a process ends. -/
def endTime (sh : Shell) : Option Nat := if sh.halt = some .never then none else some sh.now

/-- The signals after which nothing is said. -/
def quietSignals : List Nat := [2, 13]

/-- Say what has ended a process that was waited for. -/
def announce (sh : Shell) (s : WaitStatus) : Shell :=
  match s with
  | .signaled n =>
    if quietSignals.contains n then sh else sh.write 2 (Utility.line (Signal.description n))
  | _ => sh

/-! ## Pipes -/

/-- What a process that has ended gives to the reader of a pipe, and the process
    without it. -/
def supplyOf (child : Shell) (id : Nat) : Supply × Shell :=
  let c := Channel.pipe id
  let written := (child.emissions.reverse.filter (·.channel = c)).mergeSort fun a b => a.time ≤ b.time
  let held := child.holds.filter (·.channel = c)
  let closes := held.foldl (fun t h => Source.later t h.release) (child.heldUntil c)
  ({ chunks := written.map fun e => (e.time, e.data), closes, isFile := false },
    { child with
      emissions := child.emissions.filter (·.channel ≠ c)
      holds := child.holds.filter (·.channel ≠ c)
      pipes := child.pipes.filter (· ≠ id) })

/-! ## Signals -/

/-- How a signal ends the process, if it does. -/
def haltOf (sh : Shell) (n : Nat) : Option Halt :=
  if Signal.isHandled n && (sh.traps.lookup n).isSome then none
  else match Signal.effect n with
    | .ends => some (.status (.signaled n))
    | .stops => some .never
    | .ignored => none

/-- The first of some requests. -/
def firstRequest (rs : List Request) : Option Request :=
  rs.foldl (fun best r =>
    match best with
    | some b => if r.time < b.time then some r else best
    | none => some r) none

/-- The first signal up to a time, or ever, that the process gets and `p` holds
    of. -/
def signalUntil (sh : Shell) (limit : Option Nat) (p : Nat → Bool) : Option Request :=
  firstRequest (sh.requests.filter fun r => limit.all (r.time ≤ ·) && p r.signal)

/-- Let time pass, up to a time or for ever, unless a signal ends the process. -/
def pass (sh : Shell) (limit : Option Nat) : Shell :=
  match sh.signalUntil limit fun n => (sh.haltOf n).isSome with
  | some r => { sh with now := max sh.now r.time }.stop ((sh.haltOf r.signal).getD .never)
  | none =>
    match limit with
    | some t => { sh with now := max sh.now t }
    | none => sh.stop .never

/-- The next signal that the process has got by now. -/
def dueSignal (sh : Shell) : Option Request := sh.signalUntil (some sh.now) fun _ => true

/-- The process without a request that it has met. -/
def dropRequest (sh : Shell) (r : Request) : Shell :=
  { sh with requests := sh.requests.erase r }

/-- A process that goes on and on without taking time. -/
def spin (sh : Shell) : Shell := sh.pass none

/-! ## Broken pipes -/

/-- Whether what a process did happened although another one died at a time:
    that one did it before, or had started before whoever did it. -/
def survives (dead time : Nat) (pid at_ : Nat) (lineage : List Descent) : Bool :=
  (pid ≠ dead || at_ ≤ time) && lineage.all fun d => d.parent ≠ dead || d.time ≤ time

/-- A process that ran, as it is if it dies at a time of a write that nobody can
    read. -/
def brokenAt (child : Shell) (time : Nat) : Shell :=
  { child with
    emissions := child.emissions.filter fun e => survives child.pid time e.pid e.time e.lineage
    holds := child.holds.filter fun h => survives child.pid time h.pid time h.lineage
    now := time
    halt := some (.status (.signaled pipeSignal)) }

/-- A writer whose reader has ended at a time: it dies of its next write, if there
    is one. -/
def breakPipe (writer : Shell) (written : Supply) (time : Nat) : Shell :=
  match written.chunks.find? fun c => time < c.1 with
  | some (t, _) => if writer.outlivesPipes then writer else writer.brokenAt t
  | none =>
    -- one that writes on and on meets the end at once
    let isBusy := (written.chunks.filter fun c => c.1 = writer.now).length
    if writer.halt = some .never && writesPerMoment ≤ isBusy then writer.brokenAt time else writer

/-! ## Waiting -/

/-- Wait for a process that was started. -/
def await (sh child : Shell) : Shell :=
  let sh := (sh.adopt child).pass child.endTime
  if sh.halt.isSome then sh
  else
    let s := statusOf child.halt
    (sh.announce s).setStatus (codeOf s)

/-- Do not wait for a process that was started. -/
def leave (sh child : Shell) : Shell :=
  { sh.adopt child with
    jobs := sh.jobs ++ [⟨child.pid, child.endTime, statusOf child.halt⟩]
    lastJob := some child.pid
    status := 0 }

/-! ## Small programs -/

/-- Where a small program runs. -/
def place (sh : Shell) : Place :=
  match sh.supplyAt 0 with
  | .ok s =>
    let inputIsFile := s.isFile && sh.descriptors.lookup 0 ≠ some .null
    { here := sh.here, input := s.bytes, inputIsFile, env := sh.environ }
  | .error f => { here := sh.here, inputFault := some f, env := sh.environ }

/-- What a program does when it cannot write. -/
def unwritable (called name : String) (f : Fault) (e : Effect) : Effect :=
  let what := if name = "cat" && f = badDescriptor then "standard output" else "write error"
  { e with
    writes := e.writes.filter (·.1 ≠ 1) ++
      [(2, Utility.line (called ++ ": " ++ what ++ ": " ++ Utility.faultText f))]
    code := if name = "ls" ∨ name = "dir" then 2 else 1 }

/-- Wait until so much was read as a program reads, and take it. -/
def consume (sh : Shell) (r : Reading) : Shell :=
  match r, sh.supplyAt 0 with
  | .upTo n, .ok s =>
    match Supply.timeOf n s.chunks with
    | some t =>
      let sh := sh.pass (some (max sh.now t))
      sh.setSupply 0 (if s.isFile then { s with chunks := Supply.dropFrom n s.chunks }
        else s.after sh.now)
    | none => (sh.pass s.ending).setSupply 0 { s with chunks := [] }
  | .all, .ok s | .along, .ok s => (sh.pass s.ending).setSupply 0 { s with chunks := [] }
  | _, _ => sh

/-- The end of a program that goes on writing: it dies when nobody reads. -/
def writeOn (sh : Shell) : Shell :=
  match sh.descriptors.lookup 1, sh.unread with
  | some (.channel (.stream _)), some t =>
    { sh with now := max sh.now t }.stop (.status (.signaled pipeSignal))
  | some (.channel (.pipe _)), _ => sh.stop (.status (.signaled pipeSignal))
  | _, _ => sh.pass none

/-- Write all that a program writes. -/
def writeAll (sh : Shell) (e : Effect) : Shell :=
  e.writes.foldl (fun sh (fd, bs) => sh.write fd bs) sh

/-- Pass on what is read, as it comes. -/
def passOn (sh : Shell) (s : Supply) : Shell :=
  s.chunks.foldl (fun sh (t, bs) =>
    if sh.halt.isSome then sh else (sh.pass (some (max sh.now t))).write 1 bs) sh

/-- End the process with what a program does. -/
def complete (sh : Shell) (called name : String) (e : Effect) : Shell :=
  let fault := if e.out = [] then none else sh.writeFault 1
  let e := match fault with
    | some f => unwritable called name f e
    | none => e
  let sh := { sh with here := e.here.getD sh.here }
  let sh := match e.reads, sh.supplyAt 0, fault with
    | .along, .ok s, none => (sh.passOn s).consume .along
    | reads, _, _ => (sh.consume reads).writeAll e
  if sh.halt.isSome then sh
  else if e.endless && fault.isNone then sh.writeOn
  else (sh.pass (e.lasts.map (sh.now + ·))).exit e.code

end Shell

end Supervisor.Host
