import NitroCloud.Command.Codec
import NitroCloud.CsLibuv.ClientTask
import NitroCloud.CsLibuv.ServerTask
import Mathlib.Data.Multiset.Basic
import Mathlib.Algebra.Order.Group.Multiset

/-!
# A libuv connection

A `ServerTask` of the server and the `ClientTask` of the client at the other end of its transport,
with the bytes that are on their way between them.  A read callback takes any number of the bytes
that have arrived, none included.  Both tasks keep one receive buffer, and look at the C string at
its start and not at the number of bytes read.

While the server's end is open and each read takes all that is on its way (`Whole`), the two tasks
are always in one of four situations (`Ok`): no command is given; the command is on its way; its
answer is on its way; or the client did not answer, because `uv_write` refused.
-/

namespace NitroCloud.CsLibuv

open Bytes

/-- The two ends of a connection.  The client's `HandleNewConnection` has made its task and started
to listen; what is sent before that waits in `down`. -/
structure Link where
  serverTask : ServerTask
  clientTask : ClientTask
  /-- The bytes on their way to the client. -/
  down : Bytes
  /-- The bytes on their way to the server. -/
  up : Bytes
deriving DecidableEq, Repr

namespace Link

/-- A connection just accepted. -/
def new : Link := ⟨.new, ClientTask.new.startListen, [], []⟩

/-- `SendCommad` on the server's task; on a closed handle nothing is sent. -/
def sendCommad (l : Link) (command : Count) : Link :=
  let serverTask := l.serverTask.sendCommad command
  { l with
    serverTask := serverTask
    down := l.down ++ if l.serverTask.closed then [] else serverTask.m_bufferSend }

/-- What libuv can call at the two ends. -/
inductive Event where
  /-- `ServerTask::HandleWrite`. -/
  | write
  /-- `ServerTask::HandleRead` with the next `n` bytes. -/
  | read (n : ℕ)
  /-- `ServerTask::HandleRead` with an error. -/
  | readError
  /-- `ClientTask::HandleRead` with the next `n` bytes; should the task write, `uv_write` is
  accepted or not. -/
  | clientRead (n : ℕ) (accepted : Bool)
  | clientReadError
  /-- `ClientTask::HandleWrite`. -/
  | clientWrite (status : ℤ)
deriving DecidableEq, Repr

/-- The bytes that a client's task gives to `uv_write` between two states. -/
def written (task task' : ClientTask) : Bytes :=
  (task'.writing.drop task.writing.length).flatMap Write.buffer

def step (t : Target) (file : Bytes) (l : Link) : Event → Option Link
  | .write => (l.serverTask.step .write).map fun serverTask => { l with serverTask := serverTask }
  | .read n =>
    if n ≤ l.up.length then
      (l.serverTask.step (.read (l.up.take n))).map fun serverTask =>
        { l with serverTask := serverTask, up := l.up.drop n }
    else none
  | .readError =>
    (l.serverTask.step .readError).map fun serverTask => { l with serverTask := serverTask }
  | .clientRead n accepted =>
    if n ≤ l.down.length ∧ n ≤ suggestedSize then
      let base :=
        store (ServerTask.allocate l.clientTask.m_bufferRecv suggestedSize) (l.down.take n)
      (l.clientTask.step t file (.read n base accepted)).map fun clientTask =>
        { l with
          clientTask := clientTask
          down := l.down.drop n
          up := l.up ++ written l.clientTask clientTask }
    else none
  | .clientReadError =>
    (l.clientTask.step t file (.read (-1) l.clientTask.m_bufferRecv false)).map fun clientTask =>
      { l with clientTask := clientTask }
  | .clientWrite status =>
    (l.clientTask.step t file (.write status)).map fun clientTask =>
      { l with clientTask := clientTask }

/-- The results that the server's task added to the collection between two states. -/
def added (l l' : Link) : List Result :=
  l'.serverTask.m_collection.drop l.serverTask.m_collection.length

/-- The result that a read error drops. -/
def lost (l : Link) : Event → List Result
  | .readError => l.serverTask.m_currentCommandResult.toList
  | _ => []

variable {t : Target} {file : Bytes} {l l' : Link} {e : Event}

/-! ## What an event does -/

/-- The read callback of the server's task moves the current result to the results, with the C
string of the receive buffer. -/
def afterRead (l : Link) (n : ℕ) (result : Result) : Link :=
  let m_bufferRecv :=
    store (ServerTask.allocate l.serverTask.m_bufferRecv suggestedSize) (l.up.take n)
  { l with
    serverTask := { l.serverTask with
      m_bufferRecv := m_bufferRecv
      m_currentCommandResult := none
      m_collection := l.serverTask.m_collection ++ [{ result with response := cStr m_bufferRecv }]
      delivered := l.serverTask.delivered ++ [l.up.take n] }
    up := l.up.drop n }

/-- An event is the server's read callback; or a read error, which drops the current result and
closes the handle; or the client's read callback; or leaves alone all that the others change. -/
theorem step_cases (h : l.step t file e = some l') :
    (∃ n result, e = .read n ∧ l.serverTask.closed = false ∧
      l.serverTask.m_currentCommandResult = some result ∧ l' = l.afterRead n result) ∨
    (l'.serverTask.m_currentCommandResult = none ∧ l'.serverTask.closed = true ∧
      added l l' = [] ∧ lost l e = l.serverTask.m_currentCommandResult.toList) ∨
    (∃ n accepted clientTask, e = .clientRead n accepted ∧
      l.clientTask.step t file (.read n
        (store (ServerTask.allocate l.clientTask.m_bufferRecv suggestedSize) (l.down.take n))
        accepted) = some clientTask ∧
      l' = { l with
        clientTask := clientTask
        down := l.down.drop n
        up := l.up ++ written l.clientTask clientTask }) ∨
    (l'.serverTask.m_currentCommandResult = l.serverTask.m_currentCommandResult ∧
      l'.serverTask.closed = l.serverTask.closed ∧ l'.down = l.down ∧ l'.up = l.up ∧
      added l l' = [] ∧ lost l e = []) := by
  cases e with
  | write =>
    simp only [step, ServerTask.step, Option.map_eq_some_iff, Option.ite_none_left_eq_some,
      Option.some.injEq] at h
    obtain ⟨task, ⟨-, rfl⟩, rfl⟩ := h
    exact .inr (.inr (.inr ⟨rfl, rfl, rfl, rfl, List.drop_length, rfl⟩))
  | read n =>
    simp only [step, ServerTask.step, Option.ite_none_right_eq_some, Option.map_eq_some_iff,
      ServerTask.handleRead] at h
    obtain ⟨-, task, ⟨⟨-, hclosed, -⟩, result, hresult, rfl⟩, rfl⟩ := h
    exact .inl ⟨n, result, rfl, by simpa using hclosed, hresult, rfl⟩
  | readError =>
    simp only [step, ServerTask.step, Option.map_eq_some_iff, Option.ite_none_right_eq_some,
      Option.some.injEq] at h
    obtain ⟨task, ⟨-, rfl⟩, rfl⟩ := h
    exact .inr (.inl ⟨rfl, rfl, List.drop_length, rfl⟩)
  | clientRead n accepted =>
    simp only [step, Option.ite_none_right_eq_some, Option.map_eq_some_iff] at h
    obtain ⟨-, clientTask, hclient, rfl⟩ := h
    exact .inr (.inr (.inl ⟨n, accepted, clientTask, rfl, hclient, rfl⟩))
  | clientReadError =>
    simp only [step, Option.map_eq_some_iff] at h
    obtain ⟨task, -, rfl⟩ := h
    exact .inr (.inr (.inr ⟨rfl, rfl, rfl, rfl, List.drop_length, rfl⟩))
  | clientWrite status =>
    simp only [step, Option.map_eq_some_iff] at h
    obtain ⟨task, -, rfl⟩ := h
    exact .inr (.inr (.inr ⟨rfl, rfl, rfl, rfl, List.drop_length, rfl⟩))

/-! ## Whole reads -/

/-- A read callback takes all the bytes on their way, and there are some. -/
def Whole (l : Link) : Event → Prop
  | .read n => 0 < n ∧ n = l.up.length
  | .clientRead n _ => 0 < n ∧ n = l.down.length
  | _ => True

/-- Where the command of an open server's task is. -/
inductive Situation (t : Target) (file : Bytes) : Option Result → Bytes → Bytes → Prop where
  | idle : Situation t file none [] []
  | asked (c : Count) : Situation t file (some ⟨c.message, []⟩) c.message []
  | answered (c : Count) : Situation t file (some ⟨c.message, []⟩) [] (c.run t file)
  | silent (c : Count) : Situation t file (some ⟨c.message, []⟩) [] []

/-- The invariant of a connection. -/
def Ok (t : Target) (file : Bytes) (l : Link) : Prop :=
  l.serverTask.closed = true ∨ Situation t file l.serverTask.m_currentCommandResult l.down l.up

theorem ok_new : Ok t file new := .inr .idle

/-- A command given to a task that is not busy. -/
theorem Ok.sendCommad (h : l.Ok t file) (hidle : l.serverTask.isBusy = false) (command : Count) :
    (l.sendCommad command).Ok t file := by
  obtain ⟨serverTask, clientTask, down, up⟩ := l
  rcases h with hclosed | hsituation
  · exact .inl hclosed
  · simp only [ServerTask.isBusy, Option.isSome_eq_false_iff, Option.isNone_iff_eq_none] at hidle
    simp only [hidle] at hsituation
    cases hsituation
    rcases hclosed : serverTask.closed with _ | _
    · refine .inr ?_
      simp only [Link.sendCommad, ServerTask.sendCommad, hclosed, Bool.false_eq_true, if_false,
        List.nil_append]
      exact .asked command
    · exact .inl hclosed

/-- The client answers a whole message, whatever an earlier one left behind it in the buffer. -/
theorem clientTask_read {task task' : ClientTask} {c : Count} {n : ℕ} {buf : Bytes}
    {accepted : Bool}
    (h : task.step t file (.read n (store buf c.message) accepted) = some task') :
    written task task' = if accepted then c.run t file else [] := by
  have hanswer : answer t file (cStr (store buf c.message)) = some (c.run t file) := by
    rw [answer, fromStream_store, Option.map_some]
  simp only [ClientTask.step, Option.ite_none_right_eq_some, Option.some.injEq] at h
  obtain ⟨-, rfl⟩ := h
  rw [ClientTask.handleRead, if_neg (by omega)]
  simp only [hanswer, ClientTask.write, written, List.drop_left]
  cases accepted with
  | false => rfl
  | true => simp

/-- Events of whole reads keep the invariant. -/
theorem Ok.step (h : l.Ok t file) (hwhole : l.Whole e) (hstep : l.step t file e = some l') :
    l'.Ok t file := by
  obtain ⟨serverTask, client, down, up⟩ := l
  rcases step_cases hstep with ⟨n, result, rfl, hopen, hresult, rfl⟩ | ⟨-, hclosed, -⟩ |
    ⟨n, accepted, clientTask, rfl, hclient, rfl⟩ | ⟨hcurrent, hclosed, hdown, hup, -⟩
  · rcases h with hclosed | hsituation
    · exact .inl hclosed
    · obtain ⟨hpos, rfl⟩ := hwhole
      simp only at hresult hpos
      simp only [hresult] at hsituation
      refine .inr ?_
      simp only [afterRead, List.drop_length]
      cases hsituation with
      | asked c => exact absurd hpos (by simp)
      | answered c => exact .idle
      | silent c => exact absurd hpos (by simp)
  · exact .inl hclosed
  · rcases h with hclosed | hsituation
    · exact .inl hclosed
    · obtain ⟨hpos, rfl⟩ := hwhole
      refine .inr ?_
      simp only [List.drop_length, List.take_length] at hclient hpos hsituation ⊢
      generalize serverTask.m_currentCommandResult = current at hsituation ⊢
      cases hsituation with
      | idle => exact absurd hpos (by simp)
      | asked c =>
        rw [clientTask_read hclient, List.nil_append]
        cases accepted with
        | false => exact .silent c
        | true => exact .answered c
      | answered c => exact absurd hpos (by simp)
      | silent c => exact absurd hpos (by simp)
  · rw [Ok, hcurrent, hclosed, hdown, hup]
    exact h

/-- A read callback of the server finds a current result, and records it with the answer to its
request in front. -/
theorem Ok.read {n : ℕ} (h : l.Ok t file) (hwhole : l.Whole (.read n))
    (hreadable : l.serverTask.closed = false) :
    ∃ c : Count, l.serverTask.m_currentCommandResult = some ⟨c.message, []⟩ ∧
      l.up.take n = c.run t file := by
  obtain ⟨serverTask, client, down, up⟩ := l
  rcases h with hclosed | hsituation
  · rw [hreadable] at hclosed
    cases hclosed
  · obtain ⟨hpos, rfl⟩ := hwhole
    simp only [List.take_length] at hpos hsituation ⊢
    generalize serverTask.m_currentCommandResult = current at hsituation ⊢
    cases hsituation with
    | idle => exact absurd hpos (by simp)
    | asked c => exact absurd hpos (by simp)
    | answered c => exact ⟨c, rfl, rfl⟩
    | silent c => exact absurd hpos (by simp)

/-- A result whose response starts with the answer to its request. -/
def Answered (t : Target) (file : Bytes) (result : Result) : Prop :=
  ∃ c : Count, result.request = c.message ∧ c.run t file <+: result.response

/-- What whole reads add to the results is answered. -/
theorem Ok.added (h : l.Ok t file) (hwhole : l.Whole e) (hstep : l.step t file e = some l') :
    ∀ result ∈ Link.added l l', Answered t file result := by
  rcases step_cases hstep with ⟨n, result, rfl, hopen, hresult, rfl⟩ | ⟨-, -, hadded, -⟩ |
    ⟨n, accepted, clientTask, -, -, rfl⟩ | ⟨-, -, -, -, hadded, -⟩
  · obtain ⟨c, hc, hanswer⟩ := h.read hwhole hopen
    rw [hc] at hresult
    cases hresult
    intro result hmem
    simp only [Link.added, afterRead, List.drop_left, List.mem_singleton, hanswer] at hmem
    subst hmem
    refine ⟨c, rfl, ?_⟩
    rw [store, cStr_append (c.zero_notMem_run t file)]
    exact List.prefix_append _ _
  · rw [hadded]
    exact List.forall_mem_nil _
  · rw [Link.added, List.drop_length]
    exact List.forall_mem_nil _
  · rw [hadded]
    exact List.forall_mem_nil _

/-! ## Accounting -/

/-- The requests of the commands that a connection has under way. -/
def requests (l : Link) : Multiset Bytes :=
  ↑(l.serverTask.m_currentCommandResult.toList.map Result.request)

/-- An event moves the request under way to the results or to those lost, or leaves it. -/
theorem step_requests (hstep : l.step t file e = some l') :
    l'.requests + ↑((added l l').map Result.request) + ↑((lost l e).map Result.request) =
      l.requests := by
  rcases step_cases hstep with ⟨n, result, rfl, -, hresult, rfl⟩ | ⟨hnone, -, hadded, hlost⟩ |
    ⟨n, accepted, clientTask, rfl, -, rfl⟩ | ⟨hcurrent, -, -, -, hadded, hlost⟩
  · simp [requests, hresult, afterRead, added, lost]
  · simp [requests, hnone, hadded, hlost]
  · simp [requests, added, lost]
  · simp [requests, hcurrent, hadded, hlost]

/-- A command given to a task that is not busy is under way. -/
theorem requests_sendCommad (hidle : l.serverTask.isBusy = false) (command : Count) :
    (l.sendCommad command).requests = l.requests + {command.message} := by
  simp only [ServerTask.isBusy, Option.isSome_eq_false_iff, Option.isNone_iff_eq_none] at hidle
  simp [requests, sendCommad, ServerTask.sendCommad, hidle]

theorem requests_eq_zero_iff : l.requests = 0 ↔ l.serverTask.isBusy = false := by
  simp only [requests, ServerTask.isBusy, Multiset.coe_eq_zero, List.map_eq_nil_iff,
    Option.toList_eq_nil_iff, Option.isSome_eq_false_iff, Option.isNone_iff_eq_none]

end Link

end NitroCloud.CsLibuv
