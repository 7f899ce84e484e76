import NitroCloud.Foundations.Machine
import NitroCloud.Command.Codec

/-!
# The client

`cs_boost/client_main_test.hpp`: a process that reads a message into the global `bufferRecv`,
decodes the C string at its start, runs the command and writes the answer, one operation after the
other.  The buffer is zero at the start and never cleared, so a message lies in front of what the
longer ones before it have left.  A message ends with two carriage returns and is shorter than the
buffer, and the command that `HandleRead` decodes from the buffer, runs and answers is the one that
was delivered, whatever came before (`decodes_delivered`).
-/

namespace NitroCloud.CsBoost

open Bytes

/-- The operation that the client waits for. -/
inductive Client.Op where
  | read
  | write (response : Bytes)
  /-- An error has ended the chain of handlers. -/
  | nothing
deriving DecidableEq, Repr

structure Client where
  bufferRecv : Bytes
  op : Client.Op
deriving DecidableEq, Repr

namespace Client

/-- The size of `bufferRecv`. -/
def bufferSize : ℕ := 2048

inductive Event where
  /-- `async_read_some` completes with the given bytes, or with an error. -/
  | read (received : Option Bytes)
  /-- `async_write_some` completes, maybe with an error. -/
  | write (error : Bool)
deriving DecidableEq, Repr

/-- `ClientMainTest` has started the first read. -/
def new : Client := ⟨List.replicate bufferSize 0, .read⟩

/-- The command that `HandleRead` makes of the buffer. -/
def receivedCommand (bufferRecv : Bytes) : Option Count :=
  (fromStream { data := cStr bufferRecv }).1

/-- `HandleRead` without an error, with the bytes received at the start of the buffer. -/
def handleRead (t : Target) (file : Bytes) (bufferRecv : Bytes) : Client :=
  let response :=
    match receivedCommand bufferRecv with
    | some command => command.run t file
    | none => []
  ⟨bufferRecv, .write response⟩

def step (t : Target) (file : Bytes) (client : Client) : Event → Option Client
  | .read received =>
    match client.op, received with
    | .read, none => some { client with op := .nothing }
    | .read, some received =>
      if received.length ≤ bufferSize then
        some (handleRead t file (store client.bufferRecv received))
      else none
    | _, _ => none
  | .write error =>
    match client.op with
    | .write _ => some { client with op := if error then .nothing else .read }
    | _ => none

/-- What a step can do to the buffer. -/
theorem step_bufferRecv {t : Target} {file : Bytes} {client client' : Client} {e : Event}
    (h : step t file client e = some client') :
    client'.bufferRecv = client.bufferRecv ∨
      ∃ received, e = .read (some received) ∧
        client'.bufferRecv = store client.bufferRecv received := by
  cases e with
  | read received =>
    simp only [step] at h
    split at h
    · cases h
      exact .inl rfl
    · next received _ =>
      split_ifs at h
      cases h
      exact .inr ⟨received, rfl, rfl⟩
    · cases h
  | write error =>
    simp only [step] at h
    split at h
    · cases h
      exact .inl rfl
    · cases h

/-- The bytes that a read delivers, if any, are the message of a command. -/
def DeliversWhole (e : Event) : Prop :=
  ∀ received, e = .read (some received) → ∃ c : Count, received = c.message

/-- A read of the message of a command leaves a buffer in which the C string ends and of which
`FromStream` makes the command, and `HandleRead` writes the answer to it. -/
def DecodesDelivered (t : Target) (file : Bytes) (_ : List Event) (client : Client) (e : Event) :
    Prop :=
  ∀ c : Count, e = .read (some c.message) → client.op = .read →
    ∃ client', step t file client e = some client' ∧ client'.bufferRecv.length = bufferSize ∧
      (cStr client'.bufferRecv).length < bufferSize ∧
      receivedCommand client'.bufferRecv = some c ∧ client'.op = .write (c.run t file)

/-- The buffer has its full length, and a NUL that no message reaches. -/
structure Ok (bufferRecv : Bytes) : Prop where
  length : bufferRecv.length = bufferSize
  nul : (0 : UInt8) ∈ bufferRecv.drop 15

theorem ok_new : Ok new.bufferRecv := by
  refine ⟨List.length_replicate, ?_⟩
  rw [new, List.drop_replicate, bufferSize]
  exact List.mem_replicate.2 ⟨by decide, rfl⟩

theorem Ok.store {bufferRecv : Bytes} (h : Ok bufferRecv) (c : Count) :
    Ok (bufferRecv.store c.message) := by
  constructor
  · rw [c.length_store_message (by rw [h.length]; decide), h.length]
  · rw [c.drop_store_message]
    exact h.nul

theorem Ok.step {t : Target} {file : Bytes} {client client' : Client} {e : Event}
    (hok : Ok client.bufferRecv) (hwhole : DeliversWhole e)
    (h : Client.step t file client e = some client') : Ok client'.bufferRecv := by
  rcases step_bufferRecv h with heq | ⟨received, rfl, heq⟩
  · rw [heq]
    exact hok
  · obtain ⟨c, rfl⟩ := hwhole received rfl
    rw [heq]
    exact hok.store c

/-- A read of a message does what it should in a buffer that has a NUL behind all messages. -/
theorem Ok.decodesDelivered {t : Target} {file : Bytes} {client : Client}
    (hok : Ok client.bufferRecv) (before : List Event) (e : Event) :
    DecodesDelivered t file before client e := by
  rintro c rfl hop
  have hlength : c.message.length ≤ bufferSize := c.length_message_le.trans (by decide)
  have hstep : Client.step t file client (.read (some c.message)) =
      some (handleRead t file (client.bufferRecv.store c.message)) := by
    simp only [Client.step, hop, if_pos hlength]
  have hstored := hok.store c
  have hnul : (0 : UInt8) ∈ client.bufferRecv.store c.message := List.mem_of_mem_drop hstored.nul
  have hreceived : receivedCommand (client.bufferRecv.store c.message) = some c :=
    fromStream_store client.bufferRecv c
  refine ⟨_, hstep, hstored.length, ?_, hreceived, ?_⟩
  · rw [← hstored.length]
    exact length_cStr_lt hnul
  · rw [handleRead, hreceived]

/-- In every run in which each read delivers the whole message of a command, or an error, the
command that `HandleRead` decodes and answers is the one delivered, whatever the messages before it
have left in the buffer. -/
theorem decodes_delivered (t : Target) (file : Bytes) {es : List Event}
    (hwhole : ∀ e ∈ es, DeliversWhole e) :
    Machine.Along (step t file) new (DecodesDelivered t file) es := by
  have hdelivers : Machine.Along (step t file) new (fun _ _ e => DeliversWhole e) es := by
    rintro before e after s rfl -
    exact hwhole e (by simp)
  exact hdelivers.imp (fun _ client => Ok client.bufferRecv) ok_new
    (fun _ _ _ _ hok hwhole hstep => hok.step hwhole hstep)
    (fun before _ e hok _ => hok.decodesDelivered before e)

/-- The events of a run that delivers the given commands. -/
def deliveries (cs : List Count) : List Event :=
  cs.flatMap fun c => [.read (some c.message), .write false]

theorem deliversWhole_deliveries (cs : List Count) : ∀ e ∈ deliveries cs, DeliversWhole e := by
  intro e he received hread
  obtain ⟨c, -, he⟩ := List.mem_flatMap.1 he
  subst hread
  simp only [List.mem_cons, List.not_mem_nil, or_false, Event.read.injEq, Option.some.injEq,
    reduceCtorEq] at he
  exact ⟨c, he⟩

/-- Any commands can be delivered. -/
theorem run_deliveries (t : Target) (file : Bytes) (cs : List Count) {client : Client}
    (hop : client.op = .read) :
    ∃ client', Machine.run (step t file) client (deliveries cs) = some client' ∧
      client'.op = .read := by
  induction cs generalizing client with
  | nil => exact ⟨client, rfl, hop⟩
  | cons c cs ih =>
    have hlength : c.message.length ≤ bufferSize := c.length_message_le.trans (by decide)
    have hread : step t file client (.read (some c.message)) =
        some (handleRead t file (client.bufferRecv.store c.message)) := by
      simp only [step, hop, if_pos hlength]
    obtain ⟨client', hrun, hop'⟩ :=
      @ih { handleRead t file (client.bufferRecv.store c.message) with op := .read } rfl
    refine ⟨client', ?_, hop'⟩
    rw [deliveries, List.flatMap_cons, List.cons_append, List.cons_append, List.nil_append,
      Machine.run_cons, hread, Option.bind_some, Machine.run_cons]
    exact hrun

/-- A short message behind a long one. -/
def longThenShort : List Count := [⟨-2147483648⟩, ⟨7⟩]

theorem decodes_delivered_longThenShort :
    ∃ client client', Machine.run (step .x64 []) new (deliveries [⟨-2147483648⟩]) = some client ∧
      step .x64 [] client (.read (some (Count.message ⟨7⟩))) = some client' ∧
      receivedCommand client'.bufferRecv = some ⟨7⟩ ∧
      client'.op = .write (Count.run .x64 [] ⟨7⟩) := by
  have hnew : new.op = .read := rfl
  obtain ⟨client, hrun, hop⟩ := run_deliveries .x64 [] [⟨-2147483648⟩] hnew
  have hdecodes := decodes_delivered .x64 [] (deliversWhole_deliveries longThenShort)
  obtain ⟨client', hstep, -, -, hreceived, hwrite⟩ := hdecodes (deliveries [⟨-2147483648⟩])
    (.read (some (Count.message ⟨7⟩))) [.write false] client rfl hrun ⟨7⟩ rfl hop
  exact ⟨client, client', hrun, hstep, hreceived, hwrite⟩

end Client

end NitroCloud.CsBoost
