import NitroCloud.Command.Command
import NitroCloud.Foundations.Machine

/-!
# The libuv server task

`ServerTask` of `boost_cloud/include/cs_libuv`.  The task keeps one receive buffer for its whole
life, and takes a response as the C string at the start of that buffer.  libuv asks for a buffer
with `HandleAllocate`, stores what it received at its start and calls `HandleRead`; reading is
started by the first write callback and never stopped.

The callbacks of one task run on the loop's thread, so a callback is one step.
-/

namespace NitroCloud.CsLibuv

open Bytes

/-- The size that libuv asks `HandleAllocate` for. -/
def suggestedSize : ℕ := 65536

/-- `ServerTask`, with what it has under way on `m_transport`. -/
structure ServerTask where
  m_bufferSend : Bytes
  m_bufferRecv : Bytes
  m_currentCommandResult : Option Result
  /-- The results that the task added to the collection. -/
  m_collection : List Result
  /-- The `uv_write`s whose callback has not come. -/
  writing : ℕ
  /-- `uv_read_start` was called. -/
  reading : Bool
  /-- `uv_close` was called. -/
  closed : Bool
  /-- The bytes that the read callbacks delivered. -/
  delivered : List Bytes
deriving DecidableEq, Repr

namespace ServerTask

/-- A task just constructed. -/
def new : ServerTask where
  m_bufferSend := List.replicate MESSAGE_SIZE 0
  m_bufferRecv := []
  m_currentCommandResult := none
  m_collection := []
  writing := 0
  reading := false
  closed := false
  delivered := []

/-- `IsBusy`. -/
def isBusy (task : ServerTask) : Bool := task.m_currentCommandResult.isSome

/-- `SendCommad`.  On a closed handle `uv_write` fails and has no callback; the code does not look
at what it returns. -/
def sendCommad (task : ServerTask) (command : Count) : ServerTask :=
  let m_bufferSend := command.message
  { task with
    m_bufferSend := m_bufferSend
    m_currentCommandResult := some ⟨m_bufferSend, []⟩
    writing := if task.closed then task.writing else task.writing + 1 }

/-- `m_bufferRecv` after `HandleAllocate`: resized, with zeros, when it is smaller than asked. -/
def allocate (m_bufferRecv : Bytes) (size : ℕ) : Bytes :=
  if m_bufferRecv.length < size then
    m_bufferRecv ++ List.replicate (size + 1 - m_bufferRecv.length) 0
  else m_bufferRecv

/-- `HandleRead` after a read into the buffer: `none` when it uses `m_currentCommandResult` and that
is null. -/
def handleRead (task : ServerTask) : Option ServerTask :=
  task.m_currentCommandResult.map fun result =>
    { task with
      m_currentCommandResult := none
      m_collection := task.m_collection ++ [{ result with response := cStr task.m_bufferRecv }] }

/-- `HandleRead` with a negative `nread`. -/
def handleReadError (task : ServerTask) : ServerTask :=
  { task with m_currentCommandResult := none, closed := true }

/-- `HandleWrite`, whatever the status.  On a closed handle `uv_read_start` does nothing. -/
def handleWrite (task : ServerTask) : ServerTask :=
  { task with reading := task.reading || !task.closed }

/-- What can happen to a task. -/
inductive Event where
  /-- `Server::SendCommands` finds the task not busy. -/
  | send (command : Count)
  | write
  | read (received : Bytes)
  | readError
deriving DecidableEq, Repr

def step (task : ServerTask) : Event → Option ServerTask
  | .send command => if task.isBusy then none else some (task.sendCommad command)
  | .write =>
    if task.writing = 0 then none
    else some { task with writing := task.writing - 1 }.handleWrite
  | .read received =>
    if task.reading ∧ ¬ task.closed ∧ received.length ≤ suggestedSize then
      handleRead { task with
        m_bufferRecv := store (allocate task.m_bufferRecv suggestedSize) received
        delivered := task.delivered ++ [received] }
    else none
  | .readError => if task.reading ∧ ¬ task.closed then some task.handleReadError else none

/-- The steps in which a read delivers, whole, the answer of a client to the request. -/
def answeredStep (t : Target) (file : Bytes) (task : ServerTask) : Event → Option ServerTask
  | .read received =>
    if (task.m_currentCommandResult.bind fun result => answer t file result.request) =
        some received then
      task.step (.read received)
    else none
  | .readError => none
  | e => task.step e

end ServerTask

end NitroCloud.CsLibuv
