import NitroCloud.Foundations.Channel
import NitroCloud.Foundations.Machine
import NitroCloud.Command.Command

/-!
# The pair socket server

`pair_socket.h` of `nitro_nanomsg`: `server()` launches four `client()` processes, each at the other
end of a pair socket.  It sends the commands of its generator round robin, and when there are none
left it receives the responses, with one call of `ReceiveCommandResponse` for each item that is
still in the vector in every pass of `remove_if`.

A socket is two channels of messages.  `nn_send` with `NN_DONTWAIT` returns `EAGAIN` exactly when
its channel is full, and `nn_recv` waits exactly when its channel is empty; neither fails otherwise.
The loops around `nn_send` try again at once, so a try that meets a full channel leaves the system
as it was and is no step of the machine.
-/

namespace NitroCloud.Nanomsg

open Bytes Stream

/-- `command::Base`: its tag, and the text that `Write` adds to a stream. -/
structure Base where
  m_type : Int32
  write : Bytes
deriving DecidableEq, Repr

/-- `Base::Serialize` into an empty stream. -/
def Base.serialize (command : Base) : Bytes :=
  putInt command.m_type.toInt ++ [Count.CR] ++ command.write ++ [Count.CR]

/-- What `FromStream` of the generator and `Run` make of a text: `none` when `FromStream` returns
null.  The number is that of the call, so that a generator may also keep a state. -/
abbrev Answers := ℕ → Bytes → Option Bytes

/-! ## The clients -/

/-- Where a `client()` process is. -/
inductive ClientPhase where
  /-- In `nn_recv`. -/
  | receiving
  /-- In the loop around `nn_send`. -/
  | sending (runResult : Bytes)
  /-- Behind its main loop, which it leaves when a message has no bytes. -/
  | stopped
deriving DecidableEq, Repr

structure Client where
  commandNumber : ℕ
  phase : ClientPhase
deriving DecidableEq, Repr

/-- The main loop of `client()` after `nn_recv` returned the message. -/
def Client.received (answers : Answers) (client : Client) (buf : Bytes) : Client :=
  if 0 < buf.length then
    -- `BufferToStream` ends the copy of the message with a NUL and takes it as a C string
    let runResult := (answers client.commandNumber (cStr buf)).getD []
    ⟨client.commandNumber + 1, .sending runResult⟩
  else { client with phase := .stopped }

/-- The main loop of `client()` after `nn_send` took the response. -/
def Client.wasSend (client : Client) : Client := { client with phase := .receiving }

/-! ## The items -/

/-- A `ServerItem`, with the two directions of its socket and the client that it launched. -/
structure ServerItem where
  m_commandsAtPull : ℤ
  down : Channel Bytes
  up : Channel Bytes
  client : Client
deriving DecidableEq

namespace ServerItem

def new : ServerItem := ⟨0, .empty, .empty, ⟨0, .receiving⟩⟩

/-- The loop of `SendNextCommand` around `nn_send`. -/
def sendCommand (capacity : Option ℕ) (item : ServerItem) (serializeBuffer : Bytes) :
    Option ServerItem :=
  (item.down.send capacity serializeBuffer).map fun down =>
    { item with down := down, m_commandsAtPull := item.m_commandsAtPull + 1 }

/-- `ReceiveCommandResponse`: the item after it, and whether more responses are awaited. -/
def receiveCommandResponse (item : ServerItem) : Option (Bool × ServerItem) :=
  item.up.recv.map fun (_, up) =>
    let m_commandsAtPull := item.m_commandsAtPull - 1
    (decide (0 < m_commandsAtPull), { item with up := up, m_commandsAtPull := m_commandsAtPull })

/-- A step of the client. -/
def clientStep (capacity : Option ℕ) (answers : Answers) (item : ServerItem) : Option ServerItem :=
  match item.client.phase with
  | .receiving =>
    item.down.recv.map fun (buf, down) =>
      { item with down := down, client := item.client.received answers buf }
  | .sending runResult =>
    (item.up.send capacity runResult).map fun up =>
      { item with up := up, client := item.client.wasSend }
  | .stopped => none

end ServerItem

/-! ## The server -/

/-- `processCount`. -/
abbrev processCount : ℕ := 4

/-- Where `server()` is. -/
inductive Phase where
  /-- At the head of the first loop. -/
  | sendNext
  /-- In `SendNextCommand`, with the command it took. -/
  | sending (serializeBuffer : Bytes)
  /-- In a pass of `remove_if`, with the items it keeps and those it has still to ask; the first of
  these is in `nn_recv`. -/
  | receiving (kept todo : List (Fin processCount))
  | returned
deriving DecidableEq, Repr

/-- The second loop after the pass asked an item: the next item of the pass, the next pass over the
items that were kept, or the end when none is left. -/
def Phase.afterItem : List (Fin processCount) → List (Fin processCount) → Phase
  | kept, i :: todo => .receiving kept (i :: todo)
  | [], [] => .returned
  | i :: kept, [] => .receiving [] (i :: kept)

/-- The server and its four clients.  `commands` are those that `NextCommand` has still to return
before it returns null. -/
structure System where
  commands : List Base
  commandIndex : ℕ
  phase : Phase
  serverItems : Fin processCount → ServerItem
deriving DecidableEq

namespace System

def new (commands : List Base) : System := ⟨commands, 0, .sendNext, fun _ => .new⟩

/-- `commandIndex % processCount`. -/
def currentItem (s : System) : Fin processCount :=
  ⟨s.commandIndex % processCount, Nat.mod_lt _ (by decide)⟩

/-- A step of `server()`. -/
def serverStep (capacity : Option ℕ) (s : System) : Option System :=
  match s.phase with
  | .sendNext =>
    match s.commands with
    | command :: commands =>
      some { s with commands := commands, phase := .sending command.serialize }
    | [] => some { s with phase := .afterItem [] (List.finRange processCount) }
  | .sending serializeBuffer =>
    ((s.serverItems s.currentItem).sendCommand capacity serializeBuffer).map fun item =>
      { s with
        commandIndex := s.commandIndex + 1
        phase := .sendNext
        serverItems := Function.update s.serverItems s.currentItem item }
  | .receiving kept (i :: todo) =>
    (s.serverItems i).receiveCommandResponse.map fun (more, item) =>
      { s with
        phase := .afterItem (if more then kept ++ [i] else kept) todo
        serverItems := Function.update s.serverItems i item }
  | .receiving _ [] => none
  | .returned => none

/-- What can happen next: a step of the server or of a client. -/
inductive Event where
  | server
  | client (i : Fin processCount)
deriving DecidableEq, Repr

def step (capacity : Option ℕ) (answers : Answers) (s : System) : Event → Option System
  | .server => s.serverStep capacity
  | .client i =>
    ((s.serverItems i).clientStep capacity answers).map fun item =>
      { s with serverItems := Function.update s.serverItems i item }

/-- The states that the system can reach. -/
def Reachable (capacity : Option ℕ) (answers : Answers) (commands : List Base) (s : System) :
    Prop :=
  Machine.Reachable (step capacity answers) (new commands) s

/-- No process can do anything but try again or wait. -/
def Stuck (capacity : Option ℕ) (answers : Answers) (s : System) : Prop :=
  Machine.Stuck (step capacity answers) s

end System

end NitroCloud.Nanomsg
