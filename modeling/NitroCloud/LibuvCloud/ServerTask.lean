import Mathlib.Data.Int.Notation
import NitroCloud.Foundations.Machine

/-!
# The libuv pipe task

`ServerTask` of `libuv_cloud/server_task.h`, as the callbacks of the loop drive it.  A task accepts
its connection in the constructor, answers messages, shuts the pipe down after the answer in state
`Buy`, closes it when the shutdown is done, and is deleted by the callback of a work request that it
queues again and again.

Of the handle the model keeps what decides which callbacks may come.  `uv_close` stops the reading;
the callbacks of the requests outstanding still come, with an error, and after them the callback of
the close.  On a handle that is closing, `uv_read_start` and `uv_shutdown` are refused, as is a
second `uv_shutdown`; a second `uv_close` aborts the process, and no callback comes after it.
`uv_write` may be refused at any time, and its callback then never comes.  The texts of the
responses are left out.
-/

namespace NitroCloud.LibuvCloud

/-- `ServerTask::State::Buy`, the last of the states that are counted from `None`. -/
def Buy : ℕ := 5

/-- The handle that `m_pipe` was made for. -/
inductive Handle where
  | opened
  /-- `uv_close` was called, with `HandleFinishClose` or without a callback. -/
  | closing (handleFinishClose : Bool)
  | closed
deriving DecidableEq, Repr

/-- The request that `uv_shutdown` has accepted, if any. -/
inductive ShutdownRequest where
  | absent
  | outstanding
  /-- Its callback has come. -/
  | completed
deriving DecidableEq, Repr

structure ServerTask where
  m_currentState : ℕ
  /-- `m_pipe` is not null. -/
  m_pipe : Bool
  handle : Handle
  reading : Bool
  /-- The `uv_write` requests outstanding. -/
  writing : ℕ
  shutdown : ShutdownRequest
  /-- The calls of `uv_close` on the handle. -/
  closes : ℕ
  deleted : Bool
deriving DecidableEq, Repr

namespace ServerTask

/-- `uv_close`. -/
def close (task : ServerTask) (handleFinishClose : Bool) : ServerTask :=
  { task with
    handle := .closing handleFinishClose
    reading := false
    closes := task.closes + 1 }

/-- `StartListen`. -/
def startListen (task : ServerTask) : ServerTask :=
  if task.m_pipe ∧ task.handle = .opened then { task with reading := true } else task

/-- The constructor, with the outcome of `uv_accept`; `uv_queue_work` does not fail. -/
def construct (accepted : Bool) : ServerTask :=
  let task : ServerTask := ⟨0, true, .opened, false, 0, .absent, 0, false⟩
  if accepted then task else { task.close false with m_pipe := false }

/-- A task as `connect_cb` leaves it. -/
def new (accepted : Bool) : ServerTask := (construct accepted).startListen

/-- `HandleRead` with a message; `written` says whether `uv_write` accepts the answer. -/
def handleRead (task : ServerTask) (written : Bool) : ServerTask :=
  { task with
    m_currentState := task.m_currentState + 1
    writing := if written then task.writing + 1 else task.writing }

/-- `HandleWrite`, whatever the status. -/
def handleWrite (task : ServerTask) : ServerTask :=
  if task.m_currentState = Buy then
    if task.handle = .opened ∧ task.shutdown = .absent then { task with shutdown := .outstanding }
    else task
  else task.startListen

/-- `HandleShutdown`, whatever the status. -/
def handleShutdown (task : ServerTask) : ServerTask := task.close true

/-- `AfterSomeWorkHandleStat`. -/
def afterSomeWorkHandleStat (task : ServerTask) : ServerTask :=
  if task.m_currentState = Buy ∧ ¬ task.m_pipe then { task with deleted := true } else task

/-- A callback of the loop. -/
inductive Event where
  /-- The read callback with a message. -/
  | read (written : Bool)
  /-- The read callback with `UV_EOF`. -/
  | eof
  /-- The read callback with another error. -/
  | readError
  | write (status : ℤ)
  | shutdown (status : ℤ)
  /-- The handle is closed, and the callback of `uv_close` called. -/
  | closed
  | work
deriving DecidableEq, Repr

def step (task : ServerTask) (e : Event) : Option ServerTask :=
  if 1 < task.closes then none
  else
    match e with
    | .read written =>
      if task.handle = .opened ∧ task.reading then some (task.handleRead written) else none
    | .eof =>
      if task.handle = .opened ∧ task.reading then some { task with reading := false } else none
    | .readError =>
      if task.handle = .opened ∧ task.reading then some (task.close false) else none
    | .write _ =>
      if 0 < task.writing then some { task with writing := task.writing - 1 }.handleWrite else none
    | .shutdown _ =>
      if task.shutdown = .outstanding then
        some { task with shutdown := .completed }.handleShutdown
      else none
    | .closed =>
      match task.handle with
      | .closing handleFinishClose =>
        if task.writing = 0 ∧ task.shutdown ≠ .outstanding then
          some { task with
            handle := .closed
            m_pipe := if handleFinishClose then false else task.m_pipe }
        else none
      | _ => none
    | .work => if task.deleted then none else some task.afterSomeWorkHandleStat

end ServerTask

end NitroCloud.LibuvCloud
