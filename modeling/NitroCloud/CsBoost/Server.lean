import NitroCloud.Command.Command
import NitroCloud.Foundations.Machine

/-!
# The asynchronous dispatcher

`Server` and `ServerTask` of `boost_cloud/include/cs_boost`, which `ServerAsync` and
`ServerTaskAsync` of `cloud_prototypes/include/cs_boost` repeat (they differ in who keeps a task
alive during an operation).  The main thread posts closures that hand a command to every task that
is not busy; each task writes its command, then reads the response, and adds the pair to the
results.

A handler body is one step.  The operations that a task has started on its transport and that have
not completed are kept in a list, and an event completes one of them, with or without an error; that
there is never more than one is a theorem, not part of the model.  Two fields of the state are
ghosts: the commands that `NextCommand` handed out, and the results whose operation completed with
an error.
-/

namespace NitroCloud.CsBoost

open Bytes

/-- An operation started on a transport, with what its handler is bound to. -/
inductive AsyncOp where
  | write (result : Result) (sendMessageBuffer : Bytes)
  | read (result : Result) (receiveMessageBuffer : Bytes)
deriving DecidableEq, Repr

/-- The result that an operation carries. -/
def AsyncOp.result : AsyncOp → Result
  | .write result _ => result
  | .read result _ => result

/-! ## Tasks -/

/-- `ServerTask`: its busy flag and the operations outstanding on its transport. -/
structure ServerTask where
  m_isBusy : Bool
  pending : List AsyncOp
deriving DecidableEq, Repr

namespace ServerTask

/-- A task just constructed. -/
def new : ServerTask := ⟨false, []⟩

/-- `ServerTask::SendCommad`. -/
def sendCommad (task : ServerTask) (command : Count) : ServerTask :=
  let sendMessageBuffer := command.message
  { m_isBusy := true
    pending := task.pending ++ [.write ⟨sendMessageBuffer, []⟩ sendMessageBuffer] }

/-- `ServerTask::HandleWrite`. -/
def handleWrite (task : ServerTask) (result : Result) (error : Bool) : ServerTask :=
  if error then { task with m_isBusy := false }
  else { task with pending := task.pending ++ [.read result (List.replicate MESSAGE_SIZE 0)] }

/-- `ServerTask::HandleRead`: the task and the result that it adds to the collection. -/
def handleRead (task : ServerTask) (result : Result) (receiveMessageBuffer : Bytes)
    (error : Bool) : ServerTask × Option Result :=
  let task := { task with m_isBusy := false }
  if error then (task, none)
  else (task, some { result with response := cStr receiveMessageBuffer })

end ServerTask

/-! ## The server -/

/-- `Server`, with the generator and the result collection it works on. -/
structure Server where
  m_stopLoop : Bool
  /-- Outstanding `async_accept` operations. -/
  accepting : ℕ
  m_taskPull : List ServerTask
  commandGenerator : CommandGenerator
  /-- `m_collection` of the result collection. -/
  m_collection : List Result
  /-- The commands that `NextCommand` handed out. -/
  taken : List Count
  /-- The results of operations that completed with an error. -/
  lost : List Result

namespace Server

/-- A server just constructed. -/
def new (commandGenerator : CommandGenerator) : Server where
  m_stopLoop := false
  accepting := 0
  m_taskPull := []
  commandGenerator := commandGenerator
  m_collection := []
  taken := []
  lost := []

/-- The loop of a `SendCommands` closure over the tasks: the tasks and the generator after it, and
the commands that were handed out. -/
def dispatch : CommandGenerator → List ServerTask →
    List ServerTask × CommandGenerator × List Count
  | commandGenerator, [] => ([], commandGenerator, [])
  | commandGenerator, serverTask :: rest =>
    if serverTask.m_isBusy then
      let (tasks, commandGenerator, taken) := dispatch commandGenerator rest
      (serverTask :: tasks, commandGenerator, taken)
    else
      match commandGenerator.nextCommand with
      | (none, commandGenerator) =>
        let (tasks, commandGenerator, taken) := dispatch commandGenerator rest
        (serverTask :: tasks, commandGenerator, taken)
      | (some command, commandGenerator) =>
        let (tasks, commandGenerator, taken) := dispatch commandGenerator rest
        (serverTask.sendCommad command :: tasks, commandGenerator, command :: taken)

/-- The closure that `Server::SendCommands` posts. -/
def sendCommands (s : Server) : Server :=
  let (tasks, commandGenerator, taken) := dispatch s.commandGenerator s.m_taskPull
  { s with m_taskPull := tasks, commandGenerator := commandGenerator, taken := s.taken ++ taken }

/-- `Server::HandleAccept`: a new task joins the pull and the next `async_accept` is started. -/
def handleAccept (s : Server) (error : Bool) : Server :=
  if error then s
  else if s.m_stopLoop then s
  else { s with m_taskPull := s.m_taskPull ++ [.new], accepting := s.accepting + 1 }

/-- The `k`-th outstanding operation of the `i`-th task, and the task without it. -/
def takeOp (s : Server) (i k : ℕ) : Option (ServerTask × AsyncOp) :=
  (s.m_taskPull[i]?).bind fun task =>
    (task.pending[k]?).map fun op => ({ task with pending := task.pending.eraseIdx k }, op)

/-- What can happen to a server. -/
inductive Event where
  /-- `Server::Run` starts the first `async_accept`. -/
  | run
  | accept (error : Bool)
  | sendCommands
  /-- The `k`-th operation of the `i`-th task, a write, completes. -/
  | write (i k : ℕ) (error : Bool)
  /-- The `k`-th operation of the `i`-th task, a read, completes with the bytes received, or with an
  error. -/
  | read (i k : ℕ) (received : Option Bytes)
  | stop
deriving DecidableEq, Repr

/-- One handler. -/
def step (s : Server) : Event → Option Server
  | .run => some { s with accepting := s.accepting + 1 }
  | .accept error =>
    if s.accepting = 0 then none
    else some (handleAccept { s with accepting := s.accepting - 1 } error)
  | .sendCommands => some s.sendCommands
  | .write i k error =>
    match s.takeOp i k with
    | some (task, .write result _) =>
      some { s with
        m_taskPull := s.m_taskPull.set i (task.handleWrite result error)
        lost := if error then s.lost ++ [result] else s.lost }
    | _ => none
  | .read i k received =>
    match s.takeOp i k, received with
    | some (task, .read result buffer), some bs =>
      if bs.length ≤ buffer.length then
        let (task, added) := task.handleRead result (store buffer bs) false
        some { s with
          m_taskPull := s.m_taskPull.set i task
          m_collection := s.m_collection ++ added.toList }
      else none
    | some (task, .read result buffer), none =>
      let (task, added) := task.handleRead result buffer true
      some { s with
        m_taskPull := s.m_taskPull.set i task
        m_collection := s.m_collection ++ added.toList
        lost := s.lost ++ [result] }
    | _, _ => none
  | .stop => some { s with m_stopLoop := true }

/-- The states that a server with the given generator can reach. -/
def Reachable (commandGenerator : CommandGenerator) (s : Server) : Prop :=
  Machine.Reachable step (new commandGenerator) s

end Server

end NitroCloud.CsBoost
