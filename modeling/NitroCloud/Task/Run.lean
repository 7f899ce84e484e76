import NitroCloud.Foundations.Bytes

/-!
# `Task::Run`

The thread body that `Task::Run` of `nitro_cloud` starts, with the callbacks that a derived class,
through the director also a Java class, overrides.  A callback may throw; the calls are recorded in
order, with the text of the message stream that each was given.

In one run the calls of `OnProgress` differ in their step, and `OnStarted` and `HandleFail` are
called at most once, so what the callbacks do is an outcome for each step and for the `k`-th call of
`OnFinished`, whatever state they keep.
-/

namespace NitroCloud

open Bytes

/-- `TaskCallbackCommnad`. -/
inductive TaskCallbackCommnad where
  | taskNotImplemented | taskContinue | taskCancel
deriving DecidableEq, Repr

/-- `TaskResult`. -/
inductive TaskResult where
  | canceled | succeeded | failed
deriving DecidableEq, Repr

/-- `Task`. -/
structure Task where
  m_sleepCount : Int32
  m_failedStep : Int32
deriving DecidableEq, Repr

/-- `std::thread::id`: the text it prints as, and its hash. -/
structure ThreadId where
  text : Bytes
  hash : ℕ
deriving DecidableEq, Repr

/-- A call of a callback. -/
inductive Call where
  | onStarted (taskId : Int32) (someMessage : Bytes)
  | onProgress (progress upperBound : Int) (someMessage : Bytes)
  | onFinished (taskResult : TaskResult) (someMessage : Bytes)
  | handleFail
deriving DecidableEq, Repr

/-- The call is one of `OnFinished`. -/
def Call.isFinished : Call → Bool
  | .onFinished _ _ => true
  | _ => false

/-- What the callbacks do: return, or throw a `std::exception` with the given `what()`. -/
structure Callbacks where
  onStarted : Except Bytes TaskCallbackCommnad
  /-- `OnProgress` in the given step. -/
  onProgress : ℕ → Except Bytes TaskCallbackCommnad
  handleFail : Except Bytes Unit
  /-- `OnFinished` after the given number of calls of it. -/
  onFinished : ℕ → Except Bytes Unit

/-- The locals of the thread body, and the calls it has made. -/
structure Thread where
  javeMessageCreator : Bytes
  calls : List Call
deriving DecidableEq, Repr

/-- Code of the thread body: it may throw, and what it did before stays done. -/
abbrev Body := EStateM Bytes Thread

namespace Task

/-! ## The message stream -/

/-- `javeMessageCreator << text`. -/
def write (text : Bytes) : Body Unit :=
  modify fun thread => { thread with javeMessageCreator := thread.javeMessageCreator ++ text }

/-- `javeMessageCreator.str("")`. -/
def clear : Body Unit := modify fun thread => { thread with javeMessageCreator := [] }

/-! ## Callbacks -/

variable {α : Type}

/-- A call of a callback with the message that the stream holds; what it does may depend on the
calls before it. -/
def upcall (call : Bytes → Call) (outcome : List Call → Except Bytes α) : Body α := fun thread =>
  let thread' := { thread with calls := thread.calls ++ [call thread.javeMessageCreator] }
  match outcome thread.calls with
  | .ok a => .ok a thread'
  | .error what => .error what thread'

def onStarted (cb : Callbacks) (threadId : ThreadId) : Body TaskCallbackCommnad :=
  upcall (.onStarted (Int32.ofNat threadId.hash)) fun _ => cb.onStarted

def onProgress (cb : Callbacks) (step : ℕ) (upperBound : Int32) : Body TaskCallbackCommnad :=
  upcall (.onProgress step upperBound.toInt) fun _ => cb.onProgress step

def handleFail (cb : Callbacks) : Body Unit := upcall (fun _ => .handleFail) fun _ => cb.handleFail

def onFinished (cb : Callbacks) (taskResult : TaskResult) : Body Unit :=
  upcall (.onFinished taskResult) fun calls => cb.onFinished (calls.countP Call.isFinished)

/-! ## How code runs -/

section Apply

variable {β : Type} (thread : Thread)

@[simp] theorem pure_apply (a : α) : (pure a : Body α) thread = .ok a thread := rfl

@[simp] theorem bind_apply (x : Body α) (f : α → Body β) :
    (x >>= f) thread =
      match x thread with
      | .ok a thread' => f a thread'
      | .error what thread' => .error what thread' := by
  change EStateM.bind x f thread = _
  unfold EStateM.bind
  cases x thread <;> rfl

@[simp] theorem map_apply (f : α → β) (x : Body α) :
    (f <$> x) thread =
      match x thread with
      | .ok a thread' => .ok (f a) thread'
      | .error what thread' => .error what thread' := by
  change EStateM.map f x thread = _
  unfold EStateM.map
  cases x thread <;> rfl

@[simp] theorem tryCatch_apply (x : Body α) (handle : Bytes → Body α) :
    (tryCatch x handle) thread =
      match x thread with
      | .ok a thread' => .ok a thread'
      | .error what thread' => handle what thread' := by
  change EStateM.tryCatch x handle thread = _
  unfold EStateM.tryCatch
  cases x thread <;> rfl

@[simp] theorem write_apply (text : Bytes) :
    write text thread =
      .ok () { thread with javeMessageCreator := thread.javeMessageCreator ++ text } := rfl

@[simp] theorem clear_apply : clear thread = .ok () { thread with javeMessageCreator := [] } := rfl

end Apply

/-! ## The thread body -/

section Run

variable (task : Task) (cb : Callbacks) (threadId : ThreadId)

/-- The texts of the messages. -/
def startMessage : Bytes := ascii "Java: Start." ++ ascii " task id = " ++ threadId.text

def startupCanceledMessage : Bytes := ascii "Java: TaskSwig canceled on startup."

def progressMessage : Bytes := ascii "Java: In progress" ++ ascii " task id = " ++ threadId.text

def failedMessage : Bytes :=
  ascii "Java: TaskSwig failed internal." ++ ascii " task id = " ++ threadId.text

def canceledMessage : Bytes := ascii "Java: TaskSwig canceled in progress."

def caughtMessage (what : Bytes) : Bytes :=
  ascii "Java: Catch exception." ++ ascii " task id = " ++ threadId.text ++
    ascii ". Information: " ++ what

def succeededMessage : Bytes := ascii "Java: Succeeded" ++ ascii " task id = " ++ threadId.text

/-- The `try` block of a step: whether the body returns. -/
def tryBlock (step : ℕ) : Body Bool := do
  if task.m_failedStep.toInt = step then
    handleFail cb
    clear
    write (failedMessage threadId)
    onFinished cb .failed
    pure true
  else
    let command ← onProgress cb step task.m_sleepCount
    if command = .taskCancel then
      clear
      write canceledMessage
      onFinished cb .canceled
      pure true
    else
      pure false

/-- The handler of a step. -/
def catchBlock (what : Bytes) : Body Bool := do
  clear
  write (caughtMessage threadId what)
  onFinished cb .failed
  pure true

/-- One step of the loop: whether the body returns. -/
def stepBody (step : ℕ) : Body Bool := do
  write (progressMessage threadId)
  let returned ← tryCatch (tryBlock task cb threadId step) (catchBlock cb threadId)
  if returned then
    pure true
  else
    clear
    pure false

/-- The loop from the given step on, with the number of steps that are left. -/
def loop : ℕ → ℕ → Body Bool
  | 0, _ => pure false
  | left + 1, step => do
    let returned ← stepBody task cb threadId step
    if returned then pure true else loop left (step + 1)

/-- How often the loop condition `step < m_sleepCount` holds, counting from 0. -/
def stepCount : ℕ := task.m_sleepCount.toInt.toNat

/-- The function that the thread runs. -/
def threadBody : Body Unit := do
  write (startMessage threadId)
  let command ← onStarted cb threadId
  if command = .taskCancel then
    clear
    write startupCanceledMessage
    onFinished cb .canceled
  else
    clear
    let returned ← loop task cb threadId task.stepCount 0
    if returned then
      pure ()
    else
      write (succeededMessage threadId)
      onFinished cb .succeeded

/-- `Task::Run`: how the thread ends, by returning or by an exception that escapes. -/
def run : EStateM.Result Bytes Thread Unit := (threadBody task cb threadId).run ⟨[], []⟩

/-- The call of `OnStarted`. -/
def startedCall : Call := .onStarted (Int32.ofNat threadId.hash) (startMessage threadId)

/-- The locals of the thread once `OnStarted` has returned. -/
def startedThread : Thread := ⟨[], [startedCall threadId]⟩

variable {cb}

/-- An exception of `OnStarted` escapes. -/
theorem run_of_not_started {what : Bytes} (h : cb.onStarted = .error what) :
    run task cb threadId = .error what ⟨startMessage threadId, [startedCall threadId]⟩ := by
  unfold run threadBody
  rw [EStateM.run, bind_apply, write_apply]
  simp only [List.nil_append]
  rw [bind_apply]
  simp only [onStarted, upcall, h, List.nil_append, startedCall]

/-- What the thread does once `OnStarted` has returned. -/
theorem run_of_started {command : TaskCallbackCommnad} (h : cb.onStarted = .ok command) :
    run task cb threadId =
      if command = .taskCancel then
        (write startupCanceledMessage >>= fun _ => onFinished cb .canceled) (startedThread threadId)
      else
        (loop task cb threadId task.stepCount 0 >>= fun returned =>
          if returned then pure ()
          else write (succeededMessage threadId) >>= fun _ => onFinished cb .succeeded)
            (startedThread threadId) := by
  unfold run threadBody
  rw [EStateM.run, bind_apply, write_apply]
  simp only [List.nil_append]
  rw [bind_apply]
  simp only [onStarted, upcall, h, List.nil_append]
  split_ifs with hcancel
  · rw [bind_apply, clear_apply, startedThread, startedCall]
  · rw [bind_apply, clear_apply, startedThread, startedCall]

end Run

end Task

end NitroCloud
