import NitroCloud.Foundations.IStream
import NitroCloud.Foundations.Stdio
import NitroCloud.Task.Registry

/-!
# What the callbacks of the tasks do

The tasks of `SwigMain` are of the class `TaskSimple` and of two classes derived from it.  A task
writes the messages it is given to a file of its own, through a `MessageCollector`, and to the
console.  The bodies of the callbacks are cut here into the actions that another thread can come in
between, and the program is the main thread, the threads of the tasks, and the `PrintWriter`s, which
keep what they were given and write it to the file at some time, at the latest when they are
flushed.  A file that was opened can be written.

A file that cannot be opened leaves a `MessageCollector` without a `PrintWriter`, since its
constructor catches the exception.  `OnStarted` then calls its `Collect`, which throws a
`NullPointerException`, and since `Task::Run` calls `OnStarted` outside its try block this ends the
process.
-/

namespace NitroCloud

open Bytes Machine Stdio

/-! ## Every thread starts with `OnStarted` -/

namespace Task

variable {α β : Type}

/-- The calls that were made when code has ended. -/
def callsOf : EStateM.Result Bytes Thread α → List Call
  | .ok _ thread => thread.calls
  | .error _ thread => thread.calls

/-- The calls made before stay at the front. -/
def Extends (x : Body α) : Prop := ∀ thread, thread.calls <+: callsOf (x thread)

theorem extends_pure (a : α) : Extends (pure a : Body α) := fun _ => List.prefix_rfl

theorem extends_write (text : Bytes) : Extends (write text) := fun _ => List.prefix_rfl

theorem extends_clear : Extends clear := fun _ => List.prefix_rfl

theorem extends_upcall (call : Bytes → Call) (outcome : List Call → Except Bytes α) :
    Extends (upcall call outcome) := by
  intro thread
  simp only [upcall]
  cases outcome thread.calls with
  | ok a => exact List.prefix_append _ _
  | error what => exact List.prefix_append _ _

theorem Extends.bind {x : Body α} {f : α → Body β} (hx : Extends x) (hf : ∀ a, Extends (f a)) :
    Extends (x >>= f) := by
  intro thread
  have hx := hx thread
  rw [bind_apply]
  generalize x thread = result at hx ⊢
  cases result with
  | ok a thread' => exact hx.trans (hf a thread')
  | error what thread' => exact hx

theorem Extends.tryCatch {x : Body α} {handle : Bytes → Body α} (hx : Extends x)
    (hhandle : ∀ what, Extends (handle what)) : Extends (tryCatch x handle) := by
  intro thread
  have hx := hx thread
  rw [tryCatch_apply]
  generalize x thread = result at hx ⊢
  cases result with
  | ok a thread' => exact hx
  | error what thread' => exact hx.trans (hhandle what thread')

section Thread

variable (task : Task) (cb : Callbacks) (threadId : ThreadId)

/-- A message and a call of `OnFinished`. -/
theorem extends_report (text : Bytes) (taskResult : TaskResult) :
    Extends (clear >>= fun _ => write text >>= fun _ => onFinished cb taskResult >>= fun _ =>
      pure true : Body Bool) := by
  refine extends_clear.bind fun _ => (extends_write text).bind fun _ => ?_
  exact (extends_upcall _ _).bind fun _ => extends_pure true

theorem extends_stepBody (step : ℕ) : Extends (stepBody task cb threadId step) := by
  refine (extends_write _).bind fun _ => Extends.bind ?_ fun returned => ?_
  · refine Extends.tryCatch ?_ fun what => extends_report cb _ _
    unfold tryBlock
    split_ifs
    · exact (extends_upcall _ _).bind fun _ => extends_report cb _ _
    · refine (extends_upcall _ _).bind fun command => ?_
      split_ifs
      · exact extends_report cb _ _
      · exact extends_pure false
  · split_ifs
    · exact extends_pure true
    · exact extends_clear.bind fun _ => extends_pure false

theorem extends_loop (left step : ℕ) : Extends (loop task cb threadId left step) := by
  induction left generalizing step with
  | zero => exact extends_pure false
  | succ left ih =>
    refine (extends_stepBody task cb threadId step).bind fun returned => ?_
    split_ifs
    · exact extends_pure true
    · exact ih (step + 1)

end Thread

end Task

theorem TaskSimple.calls_eq (this : TaskSimple) :
    this.calls = Task.callsOf (this.task.run this.callbacks this.threadId) := by
  rw [calls]
  cases this.task.run this.callbacks this.threadId <;> rfl

/-- The first call of a thread is the one of `OnStarted`. -/
theorem TaskSimple.started_calls (this : TaskSimple) :
    [Task.startedCall this.threadId] <+: this.calls := by
  obtain ⟨command, hstarted⟩ := this.started
  have hreport (text : Bytes) (taskResult : TaskResult) :
      Task.Extends (Task.write text >>= fun _ => Task.onFinished this.callbacks taskResult) :=
    (Task.extends_write text).bind fun _ => Task.extends_upcall _ _
  rw [calls_eq, Task.run_of_started this.task this.threadId hstarted]
  split_ifs
  · exact hreport _ _ (Task.startedThread this.threadId)
  · refine Task.Extends.bind (Task.extends_loop _ _ _ _ _) (fun returned => ?_)
      (Task.startedThread this.threadId)
    split_ifs
    · exact Task.extends_pure ()
    · exact hreport _ _

/-! ## What the callbacks do -/

namespace Logs

/-- The class of a task. -/
inductive Kind where
  | simple
  | cancelFromJava (taskCancelStep : Int32)
  | throwFromJava (taskThrowStep : Int32) (what : Bytes)
deriving DecidableEq, Repr

/-- A task that `SwigMain` launches, and the id of its thread. -/
structure Job where
  kind : Kind
  task : Task
  threadId : ThreadId
deriving DecidableEq, Repr

/-- What another thread can come in between. -/
inductive Action where
  /-- `new MessageCollector(path)`, unless the task has one. -/
  | create (path : Bytes)
  /-- `messageCollector.Collect`, if the task has one. -/
  | collect (message : Bytes)
  /-- `messageCollector.Finished`. -/
  | finished
  /-- `registerTaskCollection.remove(this)`. -/
  | remove
  /-- A line for the console, printed with the lock of the stream held. -/
  | println (line : Bytes)
deriving DecidableEq, Repr

/-- The name of the file of a task. -/
def collectorFile (taskId : Int32) : Bytes :=
  ascii "task_log_" ++ Stream.putInt taskId.toInt ++ ascii ".txt"

/-- The line that `TaskSimple.OnProgress` prints. -/
def progressLine (progress upperBound : ℤ) (someMessage : Bytes) : Bytes :=
  someMessage ++ ascii " " ++ Stream.putInt progress ++ ascii "/" ++ Stream.putInt upperBound ++
    ascii " steps."

/-- `OnProgress` of the class returns or throws before it calls the one of `TaskSimple`. -/
def Kind.overrides : Kind → ℤ → Bool
  | .simple, _ => false
  | .cancelFromJava taskCancelStep, progress => progress = taskCancelStep.toInt
  | .throwFromJava taskThrowStep _, progress => progress = taskThrowStep.toInt

namespace Job

/-- The task as the registry sees it. -/
def toTaskSimple (job : Job) : TaskSimple :=
  match job.kind with
  | .simple => .simple job.task job.threadId
  | .cancelFromJava taskCancelStep => .cancelFromJava taskCancelStep job.task job.threadId
  | .throwFromJava taskThrowStep what => .throwFromJava taskThrowStep what job.task job.threadId

/-- The actions of a callback. -/
def actions (job : Job) : Call → List Action
  | .onStarted taskId someMessage =>
    [.create (collectorFile taskId), .collect someMessage, .println someMessage]
  | .onProgress progress upperBound someMessage =>
    if job.kind.overrides progress then []
    else [.println (progressLine progress upperBound someMessage), .collect someMessage]
  | .onFinished _ someMessage =>
    [.collect someMessage, .finished, .remove, .println someMessage]
  | .handleFail => []

/-- The actions of the thread. -/
def body (job : Job) : List Action := job.toTaskSimple.calls.flatMap job.actions

/-- The file of the task. -/
def path (job : Job) : Bytes := collectorFile (Int32.ofNat job.threadId.hash)

theorem threadId_toTaskSimple (job : Job) : job.toTaskSimple.threadId = job.threadId := by
  obtain ⟨kind, task, threadId⟩ := job
  cases kind <;> rfl

/-- The actions of a callback that is not `OnFinished`. -/
theorem notMem_actions {job : Job} {call : Call} (h : call.isFinished = false) :
    Action.finished ∉ job.actions call ∧ Action.remove ∉ job.actions call := by
  cases call with
  | onStarted taskId someMessage => simp [actions]
  | onProgress progress upperBound someMessage =>
    rw [actions]
    split_ifs <;> simp
  | onFinished taskResult someMessage => cases h
  | handleFail => simp [actions]

/-- The thread creates its file first, and then ends with closing it, leaving the registry and the
last line for the console. -/
theorem body_eq (job : Job) :
    ∃ before message, job.body = before ++ [.finished, .remove, .println message] ∧
      [.create job.path] <+: before ∧ .finished ∉ before ∧ .remove ∉ before := by
  obtain ⟨calls, taskResult, message, hcalls, hbefore⟩ := job.toTaskSimple.finishedLast_calls
  have hstarted := job.toTaskSimple.started_calls
  rw [threadId_toTaskSimple] at hstarted
  refine ⟨calls.flatMap job.actions ++ [.collect message], message, ?_, ?_, ?_, ?_⟩
  · simp [body, hcalls, actions]
  · rw [hcalls] at hstarted
    cases calls with
    | nil => simp [Task.startedCall] at hstarted
    | cons call calls =>
      obtain ⟨rest, hrest⟩ := hstarted
      simp only [List.cons_append, List.nil_append, List.cons.injEq] at hrest
      rw [← hrest.1, List.flatMap_cons, Task.startedCall, actions]
      exact ⟨_, rfl⟩
  · simp only [List.mem_append, List.mem_flatMap, List.mem_singleton, reduceCtorEq, or_false,
      not_exists, not_and]
    exact fun call hcall => (notMem_actions (hbefore call hcall)).1
  · simp only [List.mem_append, List.mem_flatMap, List.mem_singleton, reduceCtorEq, or_false,
      not_exists, not_and]
    exact fun call hcall => (notMem_actions (hbefore call hcall)).2

end Job

/-! ## The program -/

/-- `MessageCollector` and its `PrintWriter`. -/
structure MessageCollector where
  path : Bytes
  /-- What it has written to the file. -/
  written : Bytes
  /-- What it has still to write. -/
  buffer : Bytes
  closed : Bool
deriving DecidableEq, Repr

/-- The thread of a task: not started, or with the actions it has done and those still to come. -/
inductive Thread where
  | created
  | running (done todo : List Action)
  /-- In `OnStarted`, with a `MessageCollector` whose `messageWriter` is null. -/
  | noWriter
deriving DecidableEq, Repr

/-- The actions that a thread has done. -/
def Thread.done : Thread → List Action
  | .created | .noWriter => []
  | .running done _ => done

/-- The program with the tasks `ι`. -/
structure State (ι : Type) where
  files : Bytes → Option Bytes
  /-- The lines on the console, each with the task that printed it. -/
  console : List (ι × Bytes)
  taskCollection : List ι
  /-- The task has a reference to the `Vector`. -/
  registered : ι → Bool
  /-- The collectors that have a `PrintWriter`. -/
  messageCollector : ι → Option MessageCollector
  threads : ι → Thread
  main : Registry.MainPhase
  /-- An exception has left the function of a thread, which ends the process. -/
  terminated : Bool

inductive Event (ι : Type) where
  | register (i : ι)
  | run (i : ι)
  | launched
  /-- The next action of the thread of the task. -/
  | act (i : ι)
  /-- `new MessageCollector(path)` with a file that cannot be opened. -/
  | openFails (i : ι)
  /-- `Collect` with a null `messageWriter` throws, and so does `OnStarted`. -/
  | throws (i : ι)
  /-- The `PrintWriter` of the task writes the next `n` bytes to the file. -/
  | flush (i : ι) (n : ℕ)
  | poll
deriving DecidableEq

/-- `println` of a `PrintWriter`, which does nothing once it is closed. -/
def MessageCollector.collect (lineSeparator : Bytes) (w : MessageCollector) (message : Bytes) :
    MessageCollector :=
  if w.closed then w else { w with buffer := w.buffer ++ message ++ lineSeparator }

/-- A `PrintWriter` that has written the next `n` bytes, each writer at its own position. -/
def MessageCollector.write (w : MessageCollector) (n : ℕ) : MessageCollector :=
  { w with written := w.written ++ w.buffer.take n, buffer := w.buffer.drop n }

/-- The content of a file when a `PrintWriter` has written the next `n` bytes. -/
def MessageCollector.content (w : MessageCollector) (n : ℕ) (content : Bytes) : Bytes :=
  (File.fwrite ⟨content, w.written.length⟩ (w.buffer.take n)).2.data

namespace State

variable {ι : Type} [DecidableEq ι]

def new (files : Bytes → Option Bytes) : State ι where
  files := files
  console := []
  taskCollection := []
  registered _ := false
  messageCollector _ := none
  threads _ := .created
  main := .launching
  terminated := false

/-- The collector of a task writes to its file, and is closed or not. -/
def writeFile (s : State ι) (i : ι) (w : MessageCollector) (n : ℕ) (closed : Bool) : State ι :=
  { s with
    files := Function.update s.files w.path (some (w.content n ((s.files w.path).getD [])))
    messageCollector :=
      Function.update s.messageCollector i (some { w.write n with closed := closed }) }

/-- What an action of a task does. -/
def act (lineSeparator : Bytes) (s : State ι) (i : ι) : Action → State ι
  | .create path =>
    match s.messageCollector i with
    | some _ => s
    | none =>
      { s with
        files := Function.update s.files path (some [])
        messageCollector := Function.update s.messageCollector i (some ⟨path, [], [], false⟩) }
  | .collect message =>
    match s.messageCollector i with
    | some w =>
      { s with
        messageCollector :=
          Function.update s.messageCollector i (some (w.collect lineSeparator message)) }
    | none => s
  | .finished =>
    match s.messageCollector i with
    | some w => s.writeFile i w w.buffer.length true
    | none => s
  | .remove => { s with taskCollection := Registry.onFinished (s.registered i) s.taskCollection i }
  | .println line => { s with console := s.console ++ [(i, line)] }

/-- The main thread registers and runs each task, then polls the `Vector`. -/
def stepAlive (lineSeparator : Bytes) (jobs : ι → Job) (s : State ι) : Event ι → Option (State ι)
  | .register i =>
    if s.main = .launching ∧ s.registered i = false then
      some { s with
        taskCollection := Registry.register s.taskCollection i
        registered := Function.update s.registered i true }
    else none
  | .run i =>
    if s.main = .launching ∧ s.registered i = true ∧ s.threads i = .created then
      some { s with threads := Function.update s.threads i (.running [] (jobs i).body) }
    else none
  | .launched =>
    if s.main = .launching ∧ ∀ i ∈ s.taskCollection, s.threads i ≠ .created then
      some { s with main := .waiting }
    else none
  | .act i =>
    match s.threads i with
    | .running done (a :: todo) =>
      some { s.act lineSeparator i a with
        threads := Function.update s.threads i (.running (done ++ [a]) todo) }
    | _ => none
  | .openFails i =>
    match s.threads i, s.messageCollector i with
    | .running _ (.create _ :: _), none =>
      some { s with threads := Function.update s.threads i .noWriter }
    | _, _ => none
  | .throws i => if s.threads i = .noWriter then some { s with terminated := true } else none
  | .flush i n =>
    match s.messageCollector i with
    | some w =>
      if w.closed = false ∧ n ≤ w.buffer.length then some (s.writeFile i w n false) else none
    | none => none
  | .poll =>
    if s.main = .waiting then
      some (if s.taskCollection.isEmpty then { s with main := .exited } else s)
    else none

/-- The steps of the process, while there is one. -/
def step (lineSeparator : Bytes) (jobs : ι → Job) (s : State ι) (e : Event ι) : Option (State ι) :=
  if s.terminated = true then none else s.stepAlive lineSeparator jobs e

end State

/-! ## What the actions of a thread write -/

/-- The text that actions give to the `PrintWriter`. -/
def logOf (lineSeparator : Bytes) (as : List Action) : Bytes :=
  as.flatMap fun
    | .collect message => message ++ lineSeparator
    | _ => []

/-- The lines that actions print. -/
def linesOf (as : List Action) : List Bytes :=
  as.filterMap fun
    | .println line => some line
    | _ => none

theorem logOf_concat (lineSeparator : Bytes) (as : List Action) (a : Action) :
    logOf lineSeparator (as ++ [a]) = logOf lineSeparator as ++ logOf lineSeparator [a] :=
  List.flatMap_append

theorem linesOf_concat (as : List Action) (a : Action) :
    linesOf (as ++ [a]) = linesOf as ++ linesOf [a] :=
  List.filterMap_append

section Body

variable {job : Job} {done todo : List Action} {a : Action}

/-- A thread has not closed its file; or it has closed it and has still to leave the registry; or it
has left it and has at most a line to print. -/
theorem done_cases (hbody : done ++ todo = job.body) :
    (.finished ∉ done ∧ .remove ∉ done) ∨
    (.finished ∈ done ∧ .remove ∉ done ∧ ∃ message, todo = [.remove, .println message]) ∨
    (.finished ∈ done ∧ .remove ∈ done ∧ (todo = [] ∨ ∃ message, todo = [.println message])) := by
  obtain ⟨before, message, hjob, -, hfinished, hremove⟩ := job.body_eq
  rw [hjob] at hbody
  rcases List.append_eq_append_iff.1 hbody with ⟨rest, rfl, -⟩ | ⟨rest, rfl, hrest⟩
  · rw [List.mem_append, not_or] at hfinished hremove
    exact .inl ⟨hfinished.1, hremove.1⟩
  · match rest, hrest with
    | [], _ => exact .inl (by simp [hfinished, hremove])
    | [_], hrest =>
      simp only [List.cons_append, List.nil_append, List.cons.injEq] at hrest
      exact .inr (.inl (by simp [← hrest.1, ← hrest.2, hremove]))
    | [_, _], hrest =>
      simp only [List.cons_append, List.nil_append, List.cons.injEq] at hrest
      exact .inr (.inr (by simp [← hrest.1, ← hrest.2.1, ← hrest.2.2]))
    | [_, _, _], hrest =>
      simp only [List.cons_append, List.nil_append, List.cons.injEq] at hrest
      exact .inr (.inr (by simp [← hrest.1, ← hrest.2.1, ← hrest.2.2.2]))

/-- A thread that has closed its file goes on to leave the registry or to print. -/
theorem next_of_finished (hbody : done ++ a :: todo = job.body) (hfinished : .finished ∈ done) :
    (a = .remove ∧ .remove ∉ done) ∨ ∃ message, a = .println message := by
  rcases done_cases hbody with ⟨hnot, -⟩ | ⟨-, hremove, message, htodo⟩ | ⟨-, -, htodo⟩
  · exact absurd hfinished hnot
  · rw [List.cons.injEq] at htodo
    exact .inl ⟨htodo.1, hremove⟩
  · rcases htodo with htodo | ⟨message, htodo⟩
    · cases htodo
    · rw [List.cons.injEq] at htodo
      exact .inr ⟨message, htodo.1⟩

/-- The first action creates the file. -/
theorem create_of_nil (hbody : a :: todo = job.body) : a = .create job.path := by
  obtain ⟨before, message, hjob, ⟨rest, hrest⟩, -⟩ := job.body_eq
  rw [hjob, ← hrest] at hbody
  simp only [List.cons_append, List.nil_append, List.cons.injEq] at hbody
  exact hbody.1

end Body

end Logs

end NitroCloud
