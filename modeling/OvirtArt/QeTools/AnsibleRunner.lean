import OvirtArt.Foundation.Runs

set_option autoImplicit false

/-!
# `qe_tools/ansible/ansible_runner.py`: a shell, four threads and a main thread

The output of the shell that `run_ansible_playbook` starts goes through four threads: for
each of stdout and stderr one thread reads lines from the pipe and puts them in a queue,
and another gets them from the queue, appends them to a list and logs them.  One label
makes one atomic step of one party.  A step is `none` where the party would block or has
ended.

The capacity of a pipe and the environment of the process are left out, as is how long a sleep
takes.  The preparation of variables before the executor is made is not modelled.
-/

namespace OvirtArt.QeTools.AnsibleRunner

/-! ## Lines and queues -/

/-- A line that a process writes; `readline` gives `""` at the end of the file only. -/
structure Line where
  text : String
  nonempty : text ≠ ""
  deriving DecidableEq

/-- `Queue.Queue`, without a bound. -/
structure Queue where
  items : List String
  unfinishedTasks : Nat
  deriving DecidableEq, Repr

namespace Queue

/-- An empty queue. -/
def new : Queue := ⟨[], 0⟩

/-- No line waits in the queue. -/
def empty (queue : Queue) : Bool := queue.items.isEmpty

/-- Puts a line at the end. -/
def put (queue : Queue) (line : String) : Queue :=
  ⟨queue.items ++ [line], queue.unfinishedTasks + 1⟩

/-- `get()`; not enabled while the queue is empty. -/
def get : Queue → Option (String × Queue)
  | ⟨[], _⟩ => none
  | ⟨line :: rest, unfinished⟩ => some (line, ⟨rest, unfinished⟩)

/-- `task_done()`; `none` for the `ValueError` of a call too many. -/
def taskDone : Queue → Option Queue
  | ⟨_, 0⟩ => none
  | ⟨items, unfinished + 1⟩ => some ⟨items, unfinished⟩

end Queue

/-! ## One output stream and its two threads -/

/-- The log levels that `read_queue_and_log` distinguishes. -/
inductive Level where
  | info
  | error
  deriving DecidableEq, Repr

/-- Where the thread of `enqueue_output` is. -/
inductive EnqueuePc where
  | notStarted
  /-- in `out.readline()` -/
  | reading
  /-- in `queue.put(line)` -/
  | putting (line : String)
  /-- at `if self.flushed_queues` -/
  | testingFlag
  | ended
  deriving DecidableEq, Repr

/-- Where the thread of `read_queue_and_log` is. -/
inductive ReaderPc where
  | notStarted
  /-- at `while not tse.flushed_queues` -/
  | testingFlag
  /-- at `if queue.empty()` -/
  | testingEmpty
  /-- in `queue.get()` -/
  | getting
  /-- at `lines.append(line)` -/
  | appending (line : String)
  /-- at the call of the logger -/
  | logging (line : String)
  /-- at `queue.task_done()` -/
  | finishing
  | ended
  deriving DecidableEq, Repr

/-- The line that the thread has read and not yet put. -/
def EnqueuePc.hand : EnqueuePc → List String
  | .putting line => [line]
  | _ => []

/-- The line that the thread has got and not yet appended. -/
def ReaderPc.hand : ReaderPc → List String
  | .appending line => [line]
  | _ => []

/-- stdout or stderr of the shell, with the queue, the list and the two threads for it. -/
structure Channel where
  /-- what the shell is still going to write -/
  toWrite : List Line
  pipe : List Line
  enqueuer : EnqueuePc
  queue : Queue
  reader : ReaderPc
  level : Level
  lines : List String
  logged : List (Level × String)
  deriving DecidableEq

namespace Channel

/-- A stream on which the shell is going to write the lines. -/
def new (written : List Line) (level : Level) : Channel :=
  { toWrite := written
    pipe := []
    enqueuer := .notStarted
    queue := .new
    reader := .notStarted
    level := level
    lines := []
    logged := [] }

/-- The shell writes its next line. -/
def write (c : Channel) : Option Channel :=
  match c.toWrite with
  | [] => none
  | line :: rest => some { c with toWrite := rest, pipe := c.pipe ++ [line] }

/-- `out.readline()`: the next line, or `""` where the pipe is empty and no one can write
to it any more; not enabled where the shell can still write. -/
def readline (c : Channel) (writable : Bool) : Option (String × Channel) :=
  match c.pipe with
  | line :: rest => some (line.text, { c with pipe := rest })
  | [] => if writable then none else some ("", c)

/-- Starts the thread that enqueues lines. -/
def startEnqueuer (c : Channel) : Channel := { c with enqueuer := .reading }

/-- Starts the thread that reads the queue. -/
def startReader (c : Channel) : Channel := { c with reader := .testingFlag }

/-- One atomic step of `enqueue_output`. -/
def enqueueStep (c : Channel) (writable flushed : Bool) : Option Channel :=
  match c.enqueuer with
  | .notStarted => none
  | .reading => (c.readline writable).map fun (line, rest) =>
    { rest with enqueuer := if line = "" then .ended else .putting line }
  | .putting line => some { c with queue := c.queue.put line, enqueuer := .testingFlag }
  | .testingFlag => some { c with enqueuer := if flushed then .ended else .reading }
  | .ended => none

/-- One atomic step of `read_queue_and_log`. -/
def readerStep (c : Channel) (flushed : Bool) : Option Channel :=
  match c.reader with
  | .notStarted => none
  | .testingFlag => some { c with reader := if flushed then .ended else .testingEmpty }
  | .testingEmpty => some { c with reader := if c.queue.empty then .testingFlag else .getting }
  | .getting => c.queue.get.map fun (line, rest) =>
    { c with queue := rest, reader := .appending line }
  | .appending line => some { c with lines := c.lines ++ [line], reader := .logging line }
  | .logging line => some
      { c with logged := c.logged ++ [(c.level, line)], reader := .finishing }
  | .finishing =>
    match c.queue.taskDone with
    -- the exception ends the thread
    | none => some { c with reader := .ended }
    | some rest => some { c with queue := rest, reader := .testingFlag }
  | .ended => none

end Channel

/-! ## The main thread -/

/-- The two output streams of the shell. -/
inductive Stream where
  | out
  | err
  deriving DecidableEq, Repr

/-- The threads that a stream has. -/
inductive Role where
  | enqueuer
  | reader
  deriving DecidableEq, Repr

/-- The shell: its exit status, and what it has been sent. -/
structure Process where
  exited : Option Int
  stdin : List String
  stdinClosed : Bool
  deriving DecidableEq, Repr

/-- `ThreadSafeExecutor`, without its process and its queues. -/
structure ThreadSafeExecutor where
  closed : Bool
  rc : Int
  flushedQueues : Bool
  deriving DecidableEq, Repr

/-- Where the main thread is in `run_ansible_playbook`. -/
inductive MainPc where
  /-- starting threads, before the commands -/
  | starting (threads : List (Role × Stream)) (commands : List String)
  /-- in `cmd_to_stdin`, with the commands still to send -/
  | sending (commands : List String)
  /-- at the head of `__exit__` -/
  | exiting
  /-- in `self.proc.wait()` -/
  | waiting
  /-- in `empty_queues`, with the queues still to test -/
  | polling (queues : List Stream)
  /-- in `sleep(5)` -/
  | sleeping
  /-- at `self.flushed_queues = True` -/
  | flushing
  /-- at `"".join(out_lines)` -/
  | joiningOut
  /-- at `"".join(err_lines)` -/
  | joiningErr (out : String)
  | returned (rc : Int) (out err : String)
  /-- an exception has left `run_ansible_playbook` -/
  | raised
  deriving DecidableEq, Repr

/-- The shell, the executor, the two streams and the main thread. -/
structure System where
  process : Process
  executor : ThreadSafeExecutor
  out : Channel
  err : Channel
  main : MainPc
  deriving DecidableEq

/-- The parties; the shell decides when it writes to which stream and when it exits. -/
inductive Party where
  | writes (stream : Stream)
  | exits (rc : Int)
  | enqueuer (stream : Stream)
  | reader (stream : Stream)
  | main
  deriving DecidableEq, Repr

/-- The commands of `run_ansible_playbook`. -/
def playbookCommands (playbook ansibleParams inventory : String) : List String :=
  ["source .ansible/bin/activate",
    "bash ansible-playbooks/run-playbook.sh " ++ playbook ++ " " ++ inventory ++ " " ++
      ansibleParams]

namespace System

/-- The queues, in the order in which `empty_queues` tests them. -/
def queues : List Stream := [.out, .err]

/-- `run_ansible_playbook` at its start, for a shell that is going to write the lines. -/
def init (playbook ansibleParams inventory : String) (written : Stream → List Line) :
    System where
  process := ⟨none, [], false⟩
  executor := ⟨false, 0, false⟩
  out := .new (written .out) .info
  err := .new (written .err) .error
  main := .starting
    [(.enqueuer, .out), (.enqueuer, .err), (.reader, .out), (.reader, .err)]
    (playbookCommands playbook ansibleParams inventory)

/-- The channel of a stream. -/
def channel (s : System) : Stream → Channel
  | .out => s.out
  | .err => s.err

/-- Replaces the channel of a stream. -/
def setChannel (s : System) (c : Channel) : Stream → System
  | .out => { s with out := c }
  | .err => { s with err := c }

/-- The shell has not exited. -/
def alive (s : System) : Bool := s.process.exited.isNone

/-- `Thread.start()` of one of the four threads. -/
def startThread (s : System) (role : Role) (stream : Stream) : System :=
  match role with
  | .enqueuer => s.setChannel (s.channel stream).startEnqueuer stream
  | .reader => s.setChannel (s.channel stream).startReader stream

/-- `cmd_to_stdin`: a write to a shell that has exited raises `IOError`. -/
def cmdToStdin (s : System) (cmd : String) (rest : List String) : System :=
  if s.alive then
    { s with
      process := { s.process with stdin := s.process.stdin ++ [cmd ++ "\n"] }
      main := .sending rest }
  else { s with main := .raised }

/-- One atomic step of the main thread. -/
def mainStep (s : System) : Option System :=
  match s.main with
  | .starting ((role, stream) :: rest) commands =>
    some { s.startThread role stream with main := .starting rest commands }
  | .starting [] commands => some { s with main := .sending commands }
  | .sending (cmd :: rest) => some (s.cmdToStdin cmd rest)
  | .sending [] => some { s with main := .exiting }
  | .exiting =>
    if s.executor.closed then some { s with main := .polling queues }
    else some
      { s with
        process := { s.process with stdinClosed := true }
        executor := { s.executor with closed := true }
        main := .waiting }
  | .waiting => s.process.exited.map fun rc =>
    { s with executor := { s.executor with rc := rc }, main := .polling queues }
  | .polling [] => some { s with main := .flushing }
  | .polling (stream :: rest) => some
      { s with main := if (s.channel stream).queue.empty then .polling rest else .sleeping }
  | .sleeping => some { s with main := .polling queues }
  | .flushing => some
      { s with executor := { s.executor with flushedQueues := true }, main := .joiningOut }
  | .joiningOut => some { s with main := .joiningErr (String.join s.out.lines) }
  | .joiningErr out => some
      { s with main := .returned s.executor.rc out (String.join s.err.lines) }
  | .returned _ _ _ => none
  | .raised => none

/-- The shell exits, once it has written everything. -/
def exit (s : System) (rc : Int) : Option System :=
  if s.alive ∧ s.out.toWrite = [] ∧ s.err.toWrite = [] then
    some { s with process := { s.process with exited := some rc } }
  else none

/-- One atomic step of one party. -/
def step (s : System) : Party → Option System
  | .writes stream => (s.channel stream).write.map fun c => s.setChannel c stream
  | .exits rc => s.exit rc
  | .enqueuer stream =>
    ((s.channel stream).enqueueStep s.alive s.executor.flushedQueues).map fun c =>
      s.setChannel c stream
  | .reader stream =>
    ((s.channel stream).readerStep s.executor.flushedQueues).map fun c =>
      s.setChannel c stream
  | .main => s.mainStep

end System

end OvirtArt.QeTools.AnsibleRunner
