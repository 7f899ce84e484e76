import NitroCloud.Foundations.BigEndian
import NitroCloud.Foundations.Machine
import NitroCloud.Nanomsg.Usock

/-!
# The sessions of the TCP and the IPC transport

`transports/tcp/stcp.c` and `transports/ipc/sipc.c` carry the messages of a pair socket over a
stream socket.  A session first exchanges protocol headers with its peer, in
`transports/utils/streamhdr.c`, and then puts a header with the size in front of each message.  It
is a pipe, of `core/pipe.c`, and `protocols/utils/excl.c` gives it messages and takes messages from
it.

The library works on a session under the lock of its context.  The events raised meanwhile are
queued, in `events`, and processed before the lock is given up, so a call of the user, of a worker
or of the timer finds the queue empty.  `aborted` is set where an assertion fails or the code runs
into `nn_fsm_bad_action` or `nn_fsm_bad_source`.
-/

namespace NitroCloud.Nanomsg.Transport

open Bytes

/-- `stcp.c` with the value of `NN_RCVMAXSIZE`, or `sipc.c`. -/
inductive Kind where
  | tcp (rcvmaxsize : ℤ)
  | ipc
deriving DecidableEq, Repr

namespace Kind

/-- `sizeof (outhdr)`, which is also that of `inhdr`. -/
def hdrSize : Kind → ℕ
  | tcp _ => 8
  | ipc => 9

/-- `outhdr` for a message of that size; `NN_SIPC_MSG_NORMAL` is 1. -/
def outhdr : Kind → ℕ → Bytes
  | tcp _, size => beBytes 8 size
  | ipc, size => 1 :: beBytes 8 size

/-- The assertion on `inhdr`. -/
def normal : Kind → Bytes → Bool
  | tcp _, _ => true
  | ipc, inhdr => inhdr.head? = some 1

/-- The size that `inhdr` has. -/
def size : Kind → Bytes → ℕ
  | tcp _, inhdr => beValue inhdr
  | ipc, inhdr => beValue inhdr.tail

/-- The size exceeds `NN_RCVMAXSIZE`. -/
def tooLarge : Kind → ℕ → Bool
  | tcp opt, size => 0 ≤ opt ∧ opt < size
  | ipc, _ => false

end Kind

/-! ## The state of a session -/

/-- `NN_STREAMHDR_STATE_…`. -/
inductive StreamhdrState where
  | idle | sending | receiving | stopping_timer_error | stopping_timer_done | done
deriving DecidableEq, Repr

/-- `NN_STCP_STATE_…`. -/
inductive State where
  | idle | protohdr | stopping_streamhdr | active | shutting_down | done
deriving DecidableEq, Repr

/-- `NN_STCP_INSTATE_…`. -/
inductive InState where
  | none | hdr | body | hasmsg
deriving DecidableEq, Repr

/-- `NN_STCP_OUTSTATE_…`. -/
inductive OutState where
  | none | idle | sending
deriving DecidableEq, Repr

/-- `NN_PIPEBASE_INSTATE_…`. -/
inductive PipeInState where
  | deactivated | idle | receiving | received | async
deriving DecidableEq, Repr

/-- `NN_PIPEBASE_OUTSTATE_…`. -/
inductive PipeOutState where
  | deactivated | idle | sending | sent | async
deriving DecidableEq, Repr

/-- `nn_pipebase`. -/
structure Pipebase where
  active : Bool
  instate : PipeInState
  outstate : PipeOutState
deriving DecidableEq, Repr

/-- `nn_excl`, with the pipe of the session or without one. -/
structure Excl where
  pipe : Bool
  inpipe : Bool
  outpipe : Bool
deriving DecidableEq, Repr

/-- An event in the queue of the context. -/
inductive FsmEvent where
  | usock (type : UsockEvent)
  | streamhdr_ok
  | streamhdr_error
  | streamhdr_stopped
  /-- `NN_STCP_ERROR`. -/
  | stcp_error
  | pipe_in
  | pipe_out
deriving DecidableEq, Repr

/-- The item of an event in the queue; those of `NN_USOCK_SHUTDOWN` and `NN_USOCK_ERROR` are one. -/
def FsmEvent.item : FsmEvent → FsmEvent
  | usock .shutdown => usock .error
  | event => event

/-- `nn_stcp` or `nn_sipc`, with its parts and its socket.  `sent` has the messages that the user
sent, and `received` those that the user was given. -/
structure Session where
  usock : Usock
  streamhdr : StreamhdrState
  state : State
  instate : InState
  inmsg : Bytes
  outstate : OutState
  pipebase : Pipebase
  excl : Excl
  events : List FsmEvent
  sent : List Bytes
  received : List Bytes
  aborted : Bool
deriving DecidableEq, Repr

namespace Session

/-- `nn_stcp_init`, with a socket that is connected. -/
def new : Session where
  usock := .new
  streamhdr := .idle
  state := .idle
  instate := .none
  inmsg := []
  outstate := .none
  pipebase := ⟨false, .deactivated, .deactivated⟩
  excl := ⟨false, false, false⟩
  events := []
  sent := []
  received := []
  aborted := false

/-- `nn_assert`. -/
def assert (s : Session) (p : Prop) [Decidable p] : Session :=
  { s with aborted := s.aborted || !decide p }

/-- `nn_fsm_raise`; `nn_queue_push` asserts that the event is not in the queue. -/
def raise (s : Session) (event : FsmEvent) : Session :=
  { s.assert (event.item ∉ s.events.map FsmEvent.item) with events := s.events ++ [event] }

/-- The socket after a call, with the events it raised. -/
def withUsock (s : Session) (called : Usock × List UsockEvent) : Session :=
  let s := s.assert (∀ type ∈ called.2, (FsmEvent.usock type).item ∉ s.events.map FsmEvent.item)
  { s with usock := called.1, events := s.events ++ called.2.map .usock }

/-! ## The pipe and the socket of the user -/

/-- `nn_pipebase_start`, and whether it succeeds.  `nn_excl_add` rejects the pipe with `-EISCONN`
when there is one already, and the state is `NN_PIPEBASE_STATE_FAILED` then. -/
def pipebase_start (s : Session) : Bool × Session :=
  let s := s.assert (s.pipebase.active = false)
  if s.excl.pipe then (false, { s with pipebase := ⟨false, .async, .idle⟩ })
  else
    (true, { s with
      pipebase := ⟨true, .async, .idle⟩
      excl := { s.excl with pipe := true } }.raise .pipe_out)

/-- `nn_pipebase_stop`, which takes the pipe out of the `nn_excl`. -/
def pipebase_stop (s : Session) : Session :=
  if s.pipebase.active then
    let s := s.assert (s.excl.pipe = true)
    { s with
      pipebase := { s.pipebase with active := false }
      excl := ⟨false, false, false⟩ }
  else s

/-- `nn_pipebase_received`. -/
def pipebase_received (s : Session) : Session :=
  if s.pipebase.instate = .receiving then
    { s with pipebase := { s.pipebase with instate := .received } }
  else
    let s := s.assert (s.pipebase.instate = .async)
    { s with pipebase := { s.pipebase with instate := .idle } }.raise .pipe_in

/-- `nn_pipebase_sent`. -/
def pipebase_sent (s : Session) : Session :=
  if s.pipebase.outstate = .sending then
    { s with pipebase := { s.pipebase with outstate := .sent } }
  else
    let s := s.assert (s.pipebase.outstate = .async)
    { s with pipebase := { s.pipebase with outstate := .idle } }.raise .pipe_out

/-- `nn_excl_in`. -/
def excl_in (s : Session) : Session :=
  let s := s.assert (s.excl.inpipe = false ∧ s.excl.pipe = true)
  { s with excl := { s.excl with inpipe := true } }

/-- `nn_excl_out`. -/
def excl_out (s : Session) : Session :=
  let s := s.assert (s.excl.outpipe = false ∧ s.excl.pipe = true)
  { s with excl := { s.excl with outpipe := true } }

/-! ## The protocol headers -/

/-- `NN_PAIR`. -/
abbrev pair : ℕ := 16

/-- `protohdr` as `nn_streamhdr_start` composes it. -/
def protohdr : Bytes := [0, 83, 80, 0] ++ beBytes 2 pair ++ [0, 0]

/-- The header is that of a peer of a pair socket. -/
def validhdr (hdr : Bytes) : Bool :=
  hdr.take 4 = [0, 83, 80, 0] ∧ beValue ((hdr.drop 4).take 2) = pair

/-- `nn_streamhdr_handler` on an event of the socket. -/
def streamhdr_usock (s : Session) (msg : Option Bytes) (type : UsockEvent) : Session :=
  match s.streamhdr, type with
  | .sending, .sent => { s.withUsock (s.usock.recv 8 msg) with streamhdr := .receiving }
  | .sending, .shutdown => s
  | .sending, .error => { s with streamhdr := .stopping_timer_error }
  | .receiving, .received =>
    { s with
      streamhdr := if validhdr s.usock.buf then .stopping_timer_done else .stopping_timer_error }
  | .receiving, .shutdown => s
  | .receiving, .error => { s with streamhdr := .stopping_timer_error }
  | .stopping_timer_error, type => s.assert (type = .error)
  | .stopping_timer_done, type => s.assert (type = .error)
  | _, _ => s.assert False

/-! ## The messages -/

/-- `nn_stcp_send`. -/
def stcp_send (kind : Kind) (s : Session) (sphdr body : Bytes) (room : Option ℕ) : Session :=
  let s := s.assert (s.state = .active ∧ s.outstate = .idle)
  let outhdr := kind.outhdr (sphdr.length + body.length)
  { s.withUsock (s.usock.send [outhdr, sphdr, body] room) with outstate := .sending }

/-- `nn_stcp_recv`. -/
def stcp_recv (kind : Kind) (s : Session) (msg : Option Bytes) : Session :=
  let s := s.assert (s.state = .active ∧ s.instate = .hasmsg)
  let s := { s with received := s.received ++ [s.inmsg], inmsg := [], instate := .hdr }
  s.withUsock (s.usock.recv kind.hdrSize msg)

/-- The session moves to `NN_STCP_STATE_DONE`. -/
def failed (s : Session) : Session := { s with state := .done }.raise .stcp_error

/-- `nn_stcp_handler` when the socket has received what it was asked for. -/
def stcp_received (kind : Kind) (s : Session) (msg : Option Bytes) : Session :=
  match s.instate with
  | .hdr =>
    let inhdr := s.usock.buf
    let size := kind.size inhdr
    if kind.normal inhdr = false then s.assert False
    else if kind.tooLarge size then s.failed
    else if size = 0 then { s with inmsg := [], instate := .hasmsg }.pipebase_received
    else { s with instate := .body }.withUsock (s.usock.recv size msg)
  | .body => { s with inmsg := s.usock.buf, instate := .hasmsg }.pipebase_received
  | _ => s.assert False

/-- `nn_stcp_handler` on an event of the socket. -/
def stcp_usock (kind : Kind) (s : Session) (msg : Option Bytes) (type : UsockEvent) : Session :=
  match s.state, type with
  | .active, .sent =>
    let s := s.assert (s.outstate = .sending)
    { s with outstate := .idle }.pipebase_sent
  | .active, .received => s.stcp_received kind msg
  | .active, .shutdown => { s.pipebase_stop with state := .shutting_down }
  | .active, .error => s.pipebase_stop.failed
  | .shutting_down, .error => s.failed
  | _, _ => s.assert False

/-- The next event of the queue.  The socket belongs to `streamhdr` until that is done.  The owner
of the session stops it when it has failed. -/
def process (kind : Kind) (s : Session) (msg : Option Bytes) : FsmEvent → Session
  | .usock type =>
    if s.state = .protohdr ∧ s.streamhdr ≠ .done then s.streamhdr_usock msg type
    else s.stcp_usock kind msg type
  | .streamhdr_ok =>
    if s.state = .protohdr then
      { s with streamhdr := .idle, state := .stopping_streamhdr }.raise .streamhdr_stopped
    else s.assert False
  | .streamhdr_error => if s.state = .protohdr then s.failed else s.assert False
  | .streamhdr_stopped =>
    if s.state = .stopping_streamhdr then
      match s.pipebase_start with
      | (false, s) => s.failed
      | (true, s) =>
        let s := { s with instate := .hdr, outstate := .idle, state := .active }
        s.withUsock (s.usock.recv kind.hdrSize msg)
    else s.assert False
  | .stcp_error => s.pipebase_stop
  | .pipe_in => s.excl_in
  | .pipe_out => s.excl_out

/-! ## The steps -/

/-- What the user, the worker and the timer do. -/
inductive Event where
  /-- `nn_stcp_start`. -/
  | start (room : Option ℕ)
  /-- `nn_send`; it does not return until the message was taken. -/
  | nn_send (sphdr body : Bytes) (room : Option ℕ)
  /-- `nn_recv`; it does not return until there is a message. -/
  | nn_recv (msg : Option Bytes)
  | fd_in (msg : Option Bytes)
  | fd_out (room : Option ℕ)
  | fd_err
  /-- The worker removes a socket that has failed in a call. -/
  | task_stop
  /-- The peer took too long with its header. -/
  | timeout
  | timer_stopped
  /-- The next event is processed. -/
  | process (msg : Option Bytes)
deriving DecidableEq, Repr

/-- `nn_excl_send`, and `nn_pipe_send` below it. -/
def excl_send (kind : Kind) (s : Session) (sphdr body : Bytes) (room : Option ℕ) : Session :=
  let s := s.assert (s.pipebase.outstate = .idle)
  let s := { s with pipebase := { s.pipebase with outstate := .sending } }
  let s := s.stcp_send kind sphdr body room
  if s.pipebase.outstate = .sent then
    { s with pipebase := { s.pipebase with outstate := .idle } }
  else
    let s := s.assert (s.pipebase.outstate = .sending)
    { s with
      pipebase := { s.pipebase with outstate := .async }
      excl := { s.excl with outpipe := false } }

/-- `nn_excl_recv`, and `nn_pipe_recv` below it. -/
def excl_recv (kind : Kind) (s : Session) (msg : Option Bytes) : Session :=
  let s := s.assert (s.pipebase.instate = .idle)
  let s := { s with pipebase := { s.pipebase with instate := .receiving } }
  let s := s.stcp_recv kind msg
  if s.pipebase.instate = .received then
    { s with pipebase := { s.pipebase with instate := .idle } }
  else
    let s := s.assert (s.pipebase.instate = .receiving)
    { s with
      pipebase := { s.pipebase with instate := .async }
      excl := { s.excl with inpipe := false } }

/-- The socket can be used by the worker. -/
def polled (s : Session) : Prop :=
  s.events = [] ∧ s.state ≠ .idle ∧ s.state ≠ .done ∧ s.usock.state = .active

instance (s : Session) : Decidable s.polled := inferInstanceAs (Decidable (_ ∧ _))

/-- The steps of a session that has not aborted. -/
def advance (kind : Kind) (s : Session) : Event → Option Session
  | .start room =>
    if s.state = .idle then
      some { s.withUsock (s.usock.send [protohdr] room) with
        streamhdr := .sending, state := .protohdr }
    else none
  | .nn_send sphdr body room =>
    if s.events = [] ∧ s.excl.outpipe = true ∧ sphdr.length + body.length < 2 ^ 64 then
      some { s.excl_send kind sphdr body room with sent := s.sent ++ [sphdr ++ body] }
    else none
  | .nn_recv msg =>
    if s.events = [] ∧ s.excl.inpipe = true then some (s.excl_recv kind msg) else none
  | .fd_in msg =>
    if s.polled ∧ s.usock.pollin = true then some (s.withUsock (s.usock.fd_in msg)) else none
  | .fd_out room =>
    if s.polled ∧ s.usock.pollout = true then some (s.withUsock (s.usock.fd_out room)) else none
  | .fd_err => if s.polled then some (s.withUsock s.usock.fail) else none
  | .task_stop =>
    if s.events = [] ∧ s.state ≠ .done ∧ s.usock.state = .removing_fd then
      some (s.withUsock s.usock.fail)
    else none
  | .timeout =>
    if s.events = [] ∧ s.state = .protohdr ∧
        (s.streamhdr = .sending ∨ s.streamhdr = .receiving) then
      some { s with streamhdr := .stopping_timer_error }
    else none
  | .timer_stopped =>
    if s.events = [] ∧ s.state = .protohdr then
      match s.streamhdr with
      | .stopping_timer_error => some ({ s with streamhdr := .done }.raise .streamhdr_error)
      | .stopping_timer_done => some ({ s with streamhdr := .done }.raise .streamhdr_ok)
      | _ => none
    else none
  | .process msg =>
    match s.events with
    | [] => none
    | event :: events => some ({ s with events := events }.process kind msg event)

def step (kind : Kind) (s : Session) (e : Event) : Option Session :=
  if s.aborted = true then none else s.advance kind e

end Session

end NitroCloud.Nanomsg.Transport
