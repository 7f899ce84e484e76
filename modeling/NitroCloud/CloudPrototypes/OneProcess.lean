import NitroCloud.CsBoost.Server
import NitroCloud.CloudPrototypes.Inproc

/-!
# The asynchronous server with its clients

`one_process` of `cloud_prototypes`: a `ServerAsync` and, for each connection it accepted, a
`pdf_box` client that decodes a request, runs it and writes the answer back.

A connection is two queues of messages.  A message is in its queue from the moment the write that
sends it is started: the write completes, and the other side reads the message, at any time later
and in either order.  A read takes the oldest message of its queue, whole, and no operation
completes with an error.  A write of no bytes sends nothing.
-/

namespace NitroCloud

open Bytes CsBoost

/-! ## The client -/

/-- What a `pdf_box` process waits for. -/
inductive ClientOp where
  /-- It has still to start its first read. -/
  | connecting
  | reading
  | writing (response : Bytes)
deriving DecidableEq, Repr

/-- A `pdf_box` process: the global `bufferRecv`, which is zero at the start and never cleared, and
the operation outstanding on `clientTransport`. -/
structure PdfBox where
  bufferRecv : Bytes
  op : ClientOp
deriving DecidableEq, Repr

namespace PdfBox

/-- A process just started. -/
def new : PdfBox := ⟨List.replicate MESSAGE_SIZE 0, .connecting⟩

/-- `HandleRead`, after `received` was read into the buffer: the process and the response that it
writes, which stays empty when the buffer holds no command. -/
def handleRead (t : Target) (file : Bytes) (client : PdfBox) (received : Bytes) : PdfBox × Bytes :=
  let bufferRecv := store client.bufferRecv received
  let response := (answer t file (cStr bufferRecv)).getD []
  (⟨bufferRecv, .writing response⟩, response)

/-- `HandleWrite`. -/
def handleWrite (client : PdfBox) : PdfBox := { client with op := .reading }

end PdfBox

/-! ## Connections -/

/-- A connection: the messages on their way to the client and to the server, and the client. -/
structure Link where
  down : List Bytes
  up : List Bytes
  client : PdfBox
deriving DecidableEq, Repr

/-- A queue after a write of the given bytes was started. -/
def post (queue : List Bytes) (bs : Bytes) : List Bytes := if bs = [] then queue else queue ++ [bs]

namespace Link

def new : Link := ⟨[], [], .new⟩

/-- The server has started the given operations on the connection. -/
def start (link : Link) : List AsyncOp → Link
  | [] => link
  | .write _ sendMessageBuffer :: ops =>
    start { link with down := post link.down sendMessageBuffer } ops
  | .read _ _ :: ops => link.start ops

/-- A step of the client: its main function, `HandleRead` or `HandleWrite`. -/
def clientStep (t : Target) (file : Bytes) (link : Link) : Option Link :=
  match link.client.op, link.down with
  | .connecting, _ => some { link with client := { link.client with op := .reading } }
  | .reading, received :: down =>
    if received.length ≤ link.client.bufferRecv.length then
      let (client, response) := link.client.handleRead t file received
      some ⟨down, post link.up response, client⟩
    else none
  | .reading, [] => none
  | .writing _, _ => some { link with client := link.client.handleWrite }

end Link

/-! ## The system -/

/-- The server and its connections, one for each task of the pull. -/
structure OneProcess where
  server : Server
  links : List Link

namespace OneProcess

def new (commandGenerator : CommandGenerator) : OneProcess := ⟨.new commandGenerator, []⟩

/-- The connections after a `SendCommands` closure: each carries what its task has started. -/
def started : List ServerTask → List ServerTask → List Link → List Link
  | task :: tasks, task' :: tasks', link :: links =>
    link.start (task'.pending.drop task.pending.length) :: started tasks tasks' links
  | _, _, links => links

inductive Event where
  | startListen
  | accept
  | sendCommands
  | stop
  /-- The `k`-th operation of the `i`-th task, a write, completes. -/
  | write (i k : ℕ)
  /-- The `k`-th operation of the `i`-th task, a read, completes. -/
  | read (i k : ℕ)
  /-- A step of the `i`-th client. -/
  | client (i : ℕ)
deriving DecidableEq, Repr

def step (t : Target) (file : Bytes) (s : OneProcess) : Event → Option OneProcess
  | .startListen => (s.server.step .run).map fun server => { s with server := server }
  | .accept =>
    (s.server.step (.accept false)).map fun server =>
      ⟨server, if s.server.m_stopLoop then s.links else s.links ++ [.new]⟩
  | .sendCommands =>
    (s.server.step .sendCommands).map fun server =>
      ⟨server, started s.server.m_taskPull server.m_taskPull s.links⟩
  | .stop => (s.server.step .stop).map fun server => { s with server := server }
  | .write i k => (s.server.step (.write i k false)).map fun server => { s with server := server }
  | .read i k =>
    match s.links[i]? with
    | some ⟨down, received :: up, client⟩ =>
      (s.server.step (.read i k (some received))).map fun server =>
        ⟨server, s.links.set i ⟨down, up, client⟩⟩
    | _ => none
  | .client i =>
    (s.links[i]?).bind fun link =>
      (link.clientStep t file).map fun link => { s with links := s.links.set i link }

/-- The states that the system can reach. -/
def Reachable (t : Target) (file : Bytes) (commandGenerator : CommandGenerator) (s : OneProcess) :
    Prop :=
  Machine.Reachable (step t file) (new commandGenerator) s

end OneProcess

end NitroCloud
