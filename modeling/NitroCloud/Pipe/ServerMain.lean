import Mathlib.Data.Int.Notation
import NitroCloud.Foundations.Machine

/-!
# The pipe server and its main function

`ServerMainTest` of `nitro_cloud/include/server_main_test.hpp`, with the `Server` of
`helper_posix.hpp` and the `ServerTask` of `server_task.hpp`.  The main thread launches client
processes, polls the number of `TaskCounter` objects, and calls `Server::Stop` after it has read
that there are none.  A `TaskCounter` exists from `StartListen` on, which `HandleAccept` calls on
another thread.

The handlers run on five threads, so any number of them may be under way on a task.  `StartListen`
starts a read and then replaces the `TaskCounter` of the task, in the steps of the module on the
number of tasks.  A task lives as long as an operation on its transport is outstanding or a handler
is under way, since each of them holds a reference to it.  Its destructor destroys `m_taskCounter`
first, which is its last member, and has still to close the transport then.  The texts of the
responses are left out.
-/

namespace NitroCloud.Pipe

/-- `ServerTask::State::Buy`, the last of the states that are counted from `None`. -/
def Buy : ℕ := 5

/-- The handlers that call `StartListen`. -/
inductive Handler where
  | handleAccept
  | handleRead
deriving DecidableEq, Repr

/-- What a handler does next. -/
inductive Place where
  /-- `async_read_some`, the first call of `StartListen`. -/
  | listening
  /-- `TaskCounter()`. -/
  | constructing
  /-- The exchange in the assignment to `m_taskCounter`. -/
  | assigning
  /-- `~TaskCounter()` of the object that `m_taskCounter` held before. -/
  | releasing
  /-- What the handler does after `StartListen`. -/
  | leaving
deriving DecidableEq, Repr

/-- `ServerTask`, with the handlers under way on it. -/
structure ServerTask where
  m_currentState : ℕ
  /-- `m_taskCounter` is not null. -/
  m_taskCounter : Bool
  /-- The calls of handlers, by what they do next. -/
  calls : List (Handler × Place)
  /-- The `async_read_some` operations outstanding. -/
  reading : ℕ
  /-- The `async_write_some` operations outstanding. -/
  writing : ℕ
  /-- In `~ServerTask`. -/
  destructing : Bool
deriving DecidableEq, Repr

namespace ServerTask

/-- A task whose connection was accepted, with `HandleAccept` in front of `StartListen`. -/
def new : ServerTask := ⟨0, false, [(.handleAccept, .listening)], 0, 0, false⟩

/-- A handler goes on to another place. -/
def move (task : ServerTask) (handler : Handler) (here there : Place) : ServerTask :=
  { task with calls := (handler, there) :: task.calls.erase (handler, here) }

/-- A handler returns. -/
def leave (task : ServerTask) (handler : Handler) : ServerTask :=
  { task with calls := task.calls.erase (handler, .leaving) }

section Calls

variable {task : ServerTask} {handler : Handler} {here : Place} (p : Handler × Place → Bool)

/-- A handler that goes on changes what is counted of the handlers by its own share. -/
theorem countP_move (there : Place) (h : (handler, here) ∈ task.calls) :
    (task.move handler here there).calls.countP p + (p (handler, here)).toNat =
      task.calls.countP p + (p (handler, there)).toNat := by
  rw [(List.perm_cons_erase h).countP_eq p, move, List.countP_cons, List.countP_cons]
  cases p (handler, here) <;> cases p (handler, there) <;> simp

theorem countP_leave (h : (handler, .leaving) ∈ task.calls) :
    (task.leave handler).calls.countP p + (p (handler, .leaving)).toNat = task.calls.countP p := by
  rw [(List.perm_cons_erase h).countP_eq p, leave, List.countP_cons]
  cases p (handler, .leaving) <;> simp

end Calls

inductive Action where
  | listen (handler : Handler)
  | construct (handler : Handler)
  | assign (handler : Handler)
  | release (handler : Handler)
  /-- `HandleRead` starts. -/
  | read (error : Bool)
  /-- `HandleRead` from `DoResponse` on. -/
  | respond
  /-- `HandleWrite`. -/
  | write (error : Bool)
  /-- The last reference to the task is gone, and `~ServerTask` starts. -/
  | destruct
  /-- `~TaskCounter()` of the object that `m_taskCounter` holds, in `~ServerTask`. -/
  | destroyCounter
deriving DecidableEq, Repr

/-- The task after an action, and what the action adds to the counter. -/
def step (task : ServerTask) : Action → Option (ServerTask × ℤ)
  | .listen handler =>
    if (handler, .listening) ∈ task.calls then
      some ({ task.move handler .listening .constructing with reading := task.reading + 1 }, 0)
    else none
  | .construct handler =>
    if (handler, .constructing) ∈ task.calls then
      some (task.move handler .constructing .assigning, 1)
    else none
  | .assign handler =>
    if (handler, .assigning) ∈ task.calls then
      if task.m_taskCounter then some (task.move handler .assigning .releasing, 0)
      else some ({ task.move handler .assigning .leaving with m_taskCounter := true }, 0)
    else none
  | .release handler =>
    if (handler, .releasing) ∈ task.calls then some (task.move handler .releasing .leaving, -1)
    else none
  | .read error =>
    if 0 < task.reading then
      let task := { task with reading := task.reading - 1 }
      if error then some (task, 0)
      else
        let place := if task.m_currentState ≠ Buy then .listening else .leaving
        some ({ task with calls := (.handleRead, place) :: task.calls }, 0)
    else none
  | .respond =>
    if (.handleRead, .leaving) ∈ task.calls then
      -- `DoResponse` counts the state up
      some ({ task.leave .handleRead with
        m_currentState := task.m_currentState + 1, writing := task.writing + 1 }, 0)
    else none
  | .write _ =>
    if 0 < task.writing then some ({ task with writing := task.writing - 1 }, 0) else none
  | .destruct =>
    if task.destructing = false ∧ task.calls = [] ∧ task.reading = 0 ∧ task.writing = 0 then
      some ({ task with destructing := true }, 0)
    else none
  | .destroyCounter =>
    if task.destructing = true ∧ task.m_taskCounter = true then
      some ({ task with m_taskCounter := false }, -1)
    else none

/-- The actions, one by one. -/
inductive Change (task : ServerTask) : Action → ServerTask → ℤ → Prop
  | listen {handler : Handler} (hcall : (handler, .listening) ∈ task.calls) :
      Change task (.listen handler) { task.move handler .listening .constructing with
        reading := task.reading + 1 } 0
  | construct {handler : Handler} (hcall : (handler, .constructing) ∈ task.calls) :
      Change task (.construct handler) (task.move handler .constructing .assigning) 1
  | exchange {handler : Handler} (hcall : (handler, .assigning) ∈ task.calls)
      (hheld : task.m_taskCounter = true) :
      Change task (.assign handler) (task.move handler .assigning .releasing) 0
  | assign {handler : Handler} (hcall : (handler, .assigning) ∈ task.calls)
      (hnull : task.m_taskCounter = false) :
      Change task (.assign handler) { task.move handler .assigning .leaving with
        m_taskCounter := true } 0
  | release {handler : Handler} (hcall : (handler, .releasing) ∈ task.calls) :
      Change task (.release handler) (task.move handler .releasing .leaving) (-1)
  | readError (hreading : 0 < task.reading) :
      Change task (.read true) { task with reading := task.reading - 1 } 0
  | read (hreading : 0 < task.reading) :
      Change task (.read false) { task with
        reading := task.reading - 1
        calls := (.handleRead, if task.m_currentState ≠ Buy then .listening else .leaving) ::
          task.calls } 0
  | respond (hcall : (.handleRead, .leaving) ∈ task.calls) :
      Change task .respond { task.leave .handleRead with
        m_currentState := task.m_currentState + 1
        writing := task.writing + 1 } 0
  | write {error : Bool} (hwriting : 0 < task.writing) :
      Change task (.write error) { task with writing := task.writing - 1 } 0
  | destruct (hlast : task.destructing = false ∧ task.calls = [] ∧ task.reading = 0 ∧
        task.writing = 0) :
      Change task .destruct { task with destructing := true } 0
  | destroyCounter (hdestructing : task.destructing = true) (hheld : task.m_taskCounter = true) :
      Change task .destroyCounter { task with m_taskCounter := false } (-1)

theorem step_cases {task task' : ServerTask} {action : Action} {change : ℤ}
    (h : task.step action = some (task', change)) : Change task action task' change := by
  cases action with
  | listen handler | construct handler | release handler | respond | write error | destruct =>
    simp only [step] at h
    split_ifs at h with hguard
    cases h
    constructor
    exact hguard
  | assign handler =>
    simp only [step] at h
    split_ifs at h with hcall hheld
    · cases h
      exact .exchange hcall hheld
    · cases h
      exact .assign hcall (by simpa using hheld)
  | read error =>
    simp only [step, Option.ite_none_right_eq_some] at h
    obtain ⟨hreading, h⟩ := h
    cases error with
    | true =>
      cases h
      exact .readError hreading
    | false =>
      cases h
      exact .read hreading
  | destroyCounter =>
    simp only [step] at h
    split_ifs at h with hheld
    cases h
    exact .destroyCounter hheld.1 hheld.2

end ServerTask

/-- A process that was launched, and what became of its connection. -/
inductive Client where
  /-- It has still to connect. -/
  | started
  /-- Its connection has still to be accepted. -/
  | connected
  | accepted (task : ServerTask)
  /-- Its connection was accepted after `Stop`, and given up. -/
  | dropped
  /-- The destructor of its task has returned. -/
  | destroyed
deriving DecidableEq, Repr

/-- What the server waits for. -/
inductive Acceptor where
  /-- `Server::Run` has not started `async_accept` yet. -/
  | created
  | accepting
  /-- `HandleAccept` has not started the next `async_accept` yet. -/
  | handling
  /-- `HandleAccept` returned without starting another `async_accept`. -/
  | ended
deriving DecidableEq, Repr

/-- Where `ServerMainTest` is. -/
inductive MainPhase where
  | launching (processIndex : ℕ)
  | polling
  /-- `GetTaskCount` was not positive, and `Server::Stop` has still to be called. -/
  | stopping
  /-- `Server::Stop` was called. -/
  | stopped
  /-- It returned, since a process could not be launched. -/
  | returned
deriving DecidableEq, Repr

/-- `processNumber`. -/
def processNumber : ℕ := 5

structure System where
  main : MainPhase
  acceptor : Acceptor
  /-- `TaskCounter::m_counter`. -/
  m_counter : ℤ
  clients : List Client
deriving DecidableEq, Repr

namespace System

def new : System := ⟨.launching 0, .created, 0, []⟩

/-- `m_stopLoop`. -/
def m_stopLoop (s : System) : Bool := s.main = .stopped

inductive Event where
  /-- `Server::Run`. -/
  | run
  /-- `createProcessFunction` returns. -/
  | launch (launched : Bool)
  | connect (i : ℕ)
  /-- `HandleAccept` for the connection of a client, up to `StartListen`. -/
  | accept (i : ℕ)
  /-- `HandleAccept` with an error, or for the connection that `Server::Stop` makes. -/
  | acceptError
  /-- `HandleAccept` after `StartListen`. -/
  | acceptNext (i : ℕ)
  /-- An action of the task of a client. -/
  | task (i : ℕ) (action : ServerTask.Action)
  /-- `~ServerTask` of the task of a client returns. -/
  | destroyed (i : ℕ)
  /-- The main thread reads `GetTaskCount`. -/
  | poll
  /-- The main thread calls `Server::Stop`. -/
  | stop
deriving DecidableEq, Repr

/-- The client is replaced. -/
def setClient (s : System) (i : ℕ) (client : Client) : System :=
  { s with clients := s.clients.set i client }

def step (s : System) : Event → Option System
  | .run => if s.acceptor = .created then some { s with acceptor := .accepting } else none
  | .launch launched =>
    match s.main with
    | .launching processIndex =>
      if launched then
        some { s with
          main :=
            if processIndex + 1 < processNumber then .launching (processIndex + 1) else .polling
          clients := s.clients ++ [.started] }
      else some { s with main := .returned }
    | _ => none
  | .connect i =>
    if s.clients[i]? = some .started then some (s.setClient i .connected) else none
  | .accept i =>
    if s.acceptor = .accepting ∧ s.clients[i]? = some .connected then
      if s.m_stopLoop then some { s.setClient i .dropped with acceptor := .ended }
      else some { s.setClient i (.accepted .new) with acceptor := .handling }
    else none
  | .acceptError => if s.acceptor = .accepting then some { s with acceptor := .ended } else none
  | .acceptNext i =>
    match s.clients[i]? with
    | some (.accepted task) =>
      if s.acceptor = .handling ∧ (.handleAccept, .leaving) ∈ task.calls then
        some { s.setClient i (.accepted (task.leave .handleAccept)) with acceptor := .accepting }
      else none
    | _ => none
  | .task i action =>
    match s.clients[i]? with
    | some (.accepted task) =>
      (task.step action).map fun (task', change) =>
        { s.setClient i (.accepted task') with m_counter := s.m_counter + change }
    | _ => none
  | .destroyed i =>
    match s.clients[i]? with
    | some (.accepted task) =>
      if task.destructing = true ∧ task.m_taskCounter = false then some (s.setClient i .destroyed)
      else none
    | _ => none
  | .poll =>
    if s.main = .polling then
      some { s with main := if 0 < s.m_counter then .polling else .stopping }
    else none
  | .stop => if s.main = .stopping then some { s with main := .stopped } else none

end System

end NitroCloud.Pipe
