import NitroCloud.CsBoost.Server

/-!
# The main loop of the test server

`ServerMainTest` of `boost_cloud/include/cs_boost`: the main thread posts `SendCommands` closures
while the generator has commands and then dumps the results, and the io threads run the closures
and the completion handlers.  The main thread waits for none of them, so the closure and
`HandleRead` are cut here where it can come in between: a closure holds a command from
`NextCommand` until `SendCommad`, and a `HandleRead` that has cleared `m_isBusy` holds its result
until `AddResult`.  Nothing else of a handler is visible to the main thread.  No operation completes
with an error.
-/

namespace NitroCloud.CsBoost

open Bytes

/-- `ResultCollection::Dump`: the text written for a collection. -/
def dump (m_collection : List Result) : Bytes :=
  (m_collection.zipIdx.map fun (result, rowCount) =>
    Stream.putNat rowCount ++ ascii ". Command Send Buffer = " ++
      ascii ", Command Receive Buffer = " ++ result.response ++ ascii "\n").flatten

/-- A `SendCommands` closure in its loop, `m_pullLocker` held: the task it is at, and the command it
took for that task. -/
structure Closure where
  index : ℕ
  command : Option Count
deriving DecidableEq, Repr

/-- Where the main thread is. -/
inductive Main where
  | hasCommands | sendCommands | dump | dumped
deriving DecidableEq, Repr

/-- `ServerMainTest` up to `Dump`. -/
structure MainTest where
  server : Server
  /-- The closures posted and not yet started. -/
  posted : ℕ
  /-- The closure that runs in the strand. -/
  closure : Option Closure
  /-- The results of the `HandleRead`s on their way to `AddResult`. -/
  adding : List Result
  main : Main
  /-- The content of `boost_result.txt`. -/
  file : Bytes

namespace MainTest

def new (commandGenerator : CommandGenerator) : MainTest where
  server := .new commandGenerator
  posted := 0
  closure := none
  adding := []
  main := .hasCommands
  file := []

/-- The main thread: the loop condition, the post, the dump. -/
def mainStep (s : MainTest) : Option MainTest :=
  match s.main with
  | .hasCommands =>
    some { s with main := if s.server.commandGenerator.hasCommands then .sendCommands else .dump }
  | .sendCommands => some { s with posted := s.posted + 1, main := .hasCommands }
  | .dump => some { s with file := s.file ++ CsBoost.dump s.server.m_collection, main := .dumped }
  | .dumped => none

/-- The next step of the closure in the strand: the server after it, and the closure unless it
ended. -/
def closureStep (server : Server) (closure : Closure) : Server × Option Closure :=
  match server.m_taskPull[closure.index]?, closure.command with
  | none, _ => (server, none)
  | some serverTask, some command =>
    ({ server with
        m_taskPull := server.m_taskPull.set closure.index (serverTask.sendCommad command) },
      some ⟨closure.index + 1, none⟩)
  | some serverTask, none =>
    if serverTask.m_isBusy then (server, some ⟨closure.index + 1, none⟩)
    else
      match server.commandGenerator.nextCommand with
      | (none, commandGenerator) =>
        ({ server with commandGenerator := commandGenerator }, some ⟨closure.index + 1, none⟩)
      | (some command, commandGenerator) =>
        ({ server with commandGenerator := commandGenerator, taken := server.taken ++ [command] },
          some ⟨closure.index, some command⟩)

/-- What can happen: a step of the main thread, of the strand, of `Server::Run`, or of a handler. -/
inductive Event where
  | main
  /-- A posted closure takes the lock. -/
  | start
  | closure
  | run
  | accept
  | write (i k : ℕ)
  /-- `HandleRead` up to `AddResult`. -/
  | read (i k : ℕ) (received : Bytes)
  /-- `AddResult` of the `k`-th held result. -/
  | addResult (k : ℕ)
deriving DecidableEq, Repr

def step (s : MainTest) : Event → Option MainTest
  | .main => s.mainStep
  | .start =>
    if s.posted = 0 ∨ s.closure.isSome then none
    else some { s with posted := s.posted - 1, closure := some ⟨0, none⟩ }
  | .closure =>
    s.closure.map fun closure =>
      let (server, closure) := closureStep s.server closure
      { s with server := server, closure := closure }
  | .run => (s.server.step .run).map fun server => { s with server := server }
  | .accept =>
    -- `HandleAccept` waits for `m_pullLocker`
    if s.closure.isSome then none
    else (s.server.step (.accept false)).map fun server => { s with server := server }
  | .write i k => (s.server.step (.write i k false)).map fun server => { s with server := server }
  | .read i k received =>
    match s.server.takeOp i k with
    | some (task, .read result buffer) =>
      if received.length ≤ buffer.length then
        let (task, added) := task.handleRead result (store buffer received) false
        some { s with
          server := { s.server with m_taskPull := s.server.m_taskPull.set i task }
          adding := s.adding ++ added.toList }
      else none
    | _ => none
  | .addResult k =>
    (s.adding[k]?).map fun result =>
      { s with
        server := { s.server with m_collection := s.server.m_collection ++ [result] }
        adding := s.adding.eraseIdx k }

/-- The states that `ServerMainTest` can reach with the given generator. -/
def Reachable (commandGenerator : CommandGenerator) (s : MainTest) : Prop :=
  Machine.Reachable step (new commandGenerator) s

/-- The command that the closure holds between `NextCommand` and `SendCommad`. -/
def held (s : MainTest) : Option Count := s.closure.bind Closure.command

/-! ## The closure in one go -/

/-- The state with the closure's part of it replaced. -/
def atClosure (s : MainTest) (tasks : List ServerTask) (g : CommandGenerator) (taken : List Count)
    (closure : Option Closure) : MainTest :=
  { s with
    server := { s.server with m_taskPull := tasks, commandGenerator := g, taken := taken }
    closure := closure }

/-- The steps of the closure from a task on do what the loop of the dispatcher does to the tasks
from there on. -/
theorem closure_dispatch (s : MainTest) (done rest : List ServerTask) (g : CommandGenerator)
    (taken : List Count) :
    Machine.Reachable step (s.atClosure (done ++ rest) g taken (some ⟨done.length, none⟩))
      (s.atClosure (done ++ (Server.dispatch g rest).1) (Server.dispatch g rest).2.1
        (taken ++ (Server.dispatch g rest).2.2) none) := by
  induction rest generalizing done g taken with
  | nil =>
    refine .single (e := .closure) ?_
    simp [step, closureStep, atClosure, Server.dispatch]
  | cons task rest ih =>
    have hrest (task' : ServerTask) (g : CommandGenerator) (taken : List Count) :=
      ih (done ++ [task']) g taken
    simp only [List.length_append, List.length_singleton, List.append_assoc,
      List.singleton_append] at hrest
    rw [Server.dispatch]
    split_ifs with hb
    · refine .trans (.single (e := .closure) ?_) (hrest task g taken)
      simp [step, closureStep, atClosure, hb]
    · rcases hnext : g.nextCommand with ⟨_ | command, g'⟩
      · refine .trans (.single (e := .closure) ?_) (hrest task g' taken)
        simp [step, closureStep, atClosure, hb, hnext]
      · -- the closure holds the command between two steps
        have hsend := hrest (task.sendCommad command) g' (taken ++ [command])
        rw [List.append_assoc, List.singleton_append] at hsend
        have hnextStep :
            step (s.atClosure (done ++ task :: rest) g taken (some ⟨done.length, none⟩))
              .closure = some (s.atClosure (done ++ task :: rest) g' (taken ++ [command])
              (some ⟨done.length, some command⟩)) := by
          simp [step, closureStep, atClosure, hb, hnext]
        refine .trans (.single hnextStep) (.trans (.single (e := .closure) ?_) hsend)
        simp [step, closureStep, atClosure]

/-- A closure that nothing interrupts does what the dispatcher's closure does in one step. -/
theorem closure_sendCommands (s : MainTest) :
    Machine.Reachable step { s with closure := some ⟨0, none⟩ }
      { s with server := s.server.sendCommands, closure := none } :=
  closure_dispatch s [] s.server.m_taskPull s.server.commandGenerator s.server.taken

end MainTest

end NitroCloud.CsBoost
