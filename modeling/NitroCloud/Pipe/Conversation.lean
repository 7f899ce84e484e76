import NitroCloud.Foundations.Bytes
import NitroCloud.Pipe.ServerMain

/-!
# The conversation of a pipe task

A `ServerTask` answers each message of its client with the text for the next state, up to `Buy`.
`HandleRead` tests the state before `DoResponse` counts it up, so the task listens on after the
message that it answers with the text of `Buy`, and five threads run the handlers, so the task may
read a message while it has still to respond to others.  The conversation ends at `Buy` when the
client sends no more than five messages (`ends_at_buy_iff`).

`HandleRead` takes two steps here, the test with `StartListen` and the response.  What a task of the
server does, with `StartListen` in its own steps, is a conversation (`reachable_conversation`).
-/

namespace NitroCloud.Pipe

open Bytes

/-- The response of `DoResponse` in each state; there is none behind `Buy`. -/
def responseText : ℕ → String
  | 1 => "Send hello from Server."
  | 2 => "Send \"how are you\" from Server."
  | 3 => "Send \"before random sleep\" from Server."
  | 4 => "Send \"after random sleep\" from Server."
  | 5 => "Send buy from Server."
  | _ => ""

/-- A `ServerTask` with the handlers that run on it. -/
structure Conversation where
  m_currentState : ℕ
  m_bufferSend : Bytes
  /-- The `async_read_some` operations outstanding. -/
  reading : ℕ
  /-- The calls of `HandleRead` that have read a message and still to respond. -/
  responding : ℕ
  /-- The `async_write_some` operations outstanding. -/
  writing : ℕ
deriving DecidableEq, Repr

namespace Conversation

/-- `MESSAGE_SIZE` of `server_task.hpp`. -/
def messageSize : ℕ := 2048

/-- `StartListen`. -/
def startListen (task : Conversation) : Conversation := { task with reading := task.reading + 1 }

/-- A task once `HandleAccept` has called `StartListen`. -/
def new : Conversation := startListen ⟨0, List.replicate messageSize 0, 0, 0, 0⟩

/-- `HandleRead` up to `DoResponse`. -/
def handleMessage (task : Conversation) : Conversation :=
  let task := if task.m_currentState ≠ Buy then task.startListen else task
  { task with responding := task.responding + 1 }

/-- `HandleRead` from `DoResponse` on.  The text is copied to the start of the buffer. -/
def respond (task : Conversation) : Conversation :=
  let m_currentState := task.m_currentState + 1
  { task with
    m_currentState := m_currentState
    m_bufferSend := store task.m_bufferSend (ascii (responseText m_currentState))
    responding := task.responding - 1
    writing := task.writing + 1 }

inductive Event where
  /-- `async_read_some` completes with a message, or with an error. -/
  | read (error : Bool)
  /-- A call of `HandleRead` goes on to respond. -/
  | respond
  /-- `async_write_some` completes. -/
  | write (error : Bool)
deriving DecidableEq, Repr

def step (task : Conversation) : Event → Option Conversation
  | .read error =>
    if 0 < task.reading then
      let task := { task with reading := task.reading - 1 }
      some (if error then task else task.handleMessage)
    else none
  | .respond => if 0 < task.responding then some task.respond else none
  | .write _ => if 0 < task.writing then some { task with writing := task.writing - 1 } else none

/-- What a step does to the state and to the handlers that have still to respond. -/
theorem step_cases {task task' : Conversation} {e : Event} (h : step task e = some task') :
    (e = .read false ∧ task'.m_currentState = task.m_currentState ∧
      task'.responding = task.responding + 1) ∨
    (e = .respond ∧ 0 < task.responding ∧ task'.m_currentState = task.m_currentState + 1 ∧
      task'.responding + 1 = task.responding) ∨
    (e ≠ .read false ∧ e ≠ .respond ∧ task'.m_currentState = task.m_currentState ∧
      task'.responding = task.responding) := by
  cases e with
  | read error =>
    simp only [step] at h
    split_ifs at h with hreading herror
    · cases h
      exact .inr (.inr ⟨by simp [herror], by simp, rfl, rfl⟩)
    · cases h
      refine .inl ⟨by simp [herror], ?_, ?_⟩
      · simp only [handleMessage, startListen]
        split_ifs <;> rfl
      · simp only [handleMessage, startListen]
        split_ifs <;> rfl
  | respond =>
    simp only [step] at h
    split_ifs at h with hresponding
    cases h
    refine .inr (.inl ⟨rfl, hresponding, rfl, ?_⟩)
    simp only [respond]
    omega
  | write error =>
    simp only [step] at h
    split_ifs at h
    cases h
    exact .inr (.inr ⟨by simp, by simp, rfl, rfl⟩)

/-- Behind `Buy` there is no text, and the buffer is sent as it is. -/
theorem respond_of_buy_le {task : Conversation} (h : Buy ≤ task.m_currentState) :
    task.respond.m_bufferSend = task.m_bufferSend := by
  obtain ⟨n, hn⟩ := Nat.exists_eq_add_of_le h
  have htext : responseText (Buy + n + 1) = "" := by
    rw [responseText]
    all_goals simp only [Buy]
    all_goals omega
  rw [respond, hn, htext]
  rfl

end Conversation

/-! ## The tasks of the server -/

namespace ServerTask

open Conversation Machine

/-- A read that `StartListen` has still to start. -/
def listens (call : Handler × Place) : Bool := call.2 = .listening

/-- A call of `HandleRead`. -/
def reads (call : Handler × Place) : Bool := call.1 = .handleRead

/-- The conversation of a task, with what its buffer holds. -/
def conversation (task : ServerTask) (m_bufferSend : Bytes) : Conversation where
  m_currentState := task.m_currentState
  m_bufferSend := m_bufferSend
  reading := task.reading + task.calls.countP listens
  responding := task.calls.countP reads
  writing := task.writing

variable {task task' : ServerTask} {handler : Handler} {here there : Place} {action : Action}
  {change : ℤ}

/-- A handler that goes on within `StartListen`, after it has started the read. -/
theorem conversation_move (m_bufferSend : Bytes) (there : Place)
    (hcall : (handler, here) ∈ task.calls) (hhere : here ≠ .listening)
    (hthere : there ≠ .listening) :
    (task.move handler here there).conversation m_bufferSend = task.conversation m_bufferSend := by
  have hlistens := countP_move listens there hcall
  have hreads := countP_move reads there hcall
  simp only [listens, hhere, hthere, reads, decide_false, Nat.add_right_cancel_iff]
    at hlistens hreads
  simp only [conversation, hlistens, hreads]
  rfl

theorem conversation_leave (m_bufferSend : Bytes)
    (hcall : (.handleAccept, .leaving) ∈ task.calls) :
    (task.leave .handleAccept).conversation m_bufferSend = task.conversation m_bufferSend := by
  have hlistens := countP_leave listens hcall
  have hreads := countP_leave reads hcall
  simp only [listens, reads, reduceCtorEq, decide_false, Bool.toNat_false, Nat.add_zero]
    at hlistens hreads
  simp only [conversation, hlistens, hreads]
  rfl

/-- `HandleRead` up to `StartListen`. -/
theorem conversation_read (m_bufferSend : Bytes) (hreading : 0 < task.reading) :
    Conversation.step (task.conversation m_bufferSend) (.read false) = some (conversation
      { task with
        reading := task.reading - 1
        calls := (.handleRead, if task.m_currentState ≠ Buy then .listening else .leaving) ::
          task.calls } m_bufferSend) := by
  have hread : 0 < task.reading + task.calls.countP listens := by omega
  simp only [Conversation.step, conversation, if_pos hread, Bool.false_eq_true, if_false,
    handleMessage, List.countP_cons, Option.some.injEq]
  by_cases hbuy : task.m_currentState = Buy
  · simp only [hbuy, ne_eq, not_true_eq_false, if_false, listens, reads, reduceCtorEq, decide_true,
      decide_false, Bool.false_eq_true, if_true, Conversation.mk.injEq, true_and, and_true]
    omega
  · simp only [hbuy, ne_eq, not_false_eq_true, if_true, startListen, listens, reads, decide_true,
      Conversation.mk.injEq, true_and, and_true]
    omega

/-- `HandleRead` from `DoResponse` on. -/
theorem conversation_respond (m_bufferSend : Bytes)
    (hcall : (.handleRead, .leaving) ∈ task.calls) :
    ∃ m_bufferSend', Conversation.step (task.conversation m_bufferSend) .respond =
      some (conversation { task.leave .handleRead with
        m_currentState := task.m_currentState + 1
        writing := task.writing + 1 } m_bufferSend') := by
  have hlistens := countP_leave listens hcall
  have hreads := countP_leave reads hcall
  simp only [listens, reads, reduceCtorEq, decide_false, decide_true, Bool.toNat_false,
    Bool.toNat_true, Nat.add_zero] at hlistens hreads
  have hresponding : 0 < (task.conversation m_bufferSend).responding := by
    show 0 < task.calls.countP reads
    omega
  refine ⟨((task.conversation m_bufferSend).respond).m_bufferSend, ?_⟩
  rw [Conversation.step, if_pos hresponding]
  simp only [Conversation.respond, conversation, hlistens, Option.some.injEq,
    Conversation.mk.injEq, true_and, and_true]
  refine ⟨rfl, ?_⟩
  omega

/-- An action of a task is none of its conversation, or an event of it. -/
theorem reachable_step (h : task.step action = some (task', change)) (m_bufferSend : Bytes) :
    ∃ m_bufferSend', Reachable Conversation.step (task.conversation m_bufferSend)
      (task'.conversation m_bufferSend') := by
  have hsame (heq : task'.conversation m_bufferSend = task.conversation m_bufferSend) :
      ∃ m_bufferSend', Reachable Conversation.step (task.conversation m_bufferSend)
        (task'.conversation m_bufferSend') :=
    ⟨m_bufferSend, heq ▸ .refl _ _⟩
  cases step_cases h with
  | listen hcall =>
    apply hsame
    have hlistens := countP_move listens .constructing hcall
    have hreads := countP_move reads .constructing hcall
    simp only [listens, reads, reduceCtorEq, decide_false, decide_true, Bool.toNat_false,
      Bool.toNat_true, Nat.add_right_cancel_iff] at hlistens hreads
    simp only [conversation, hreads, Conversation.mk.injEq, true_and]
    refine ⟨rfl, ?_, rfl⟩
    omega
  | construct hcall | exchange hcall | assign hcall | release hcall =>
    exact hsame (conversation_move m_bufferSend _ hcall (by simp) (by simp))
  | readError hreading =>
    refine ⟨m_bufferSend, .single (e := .read true) ?_⟩
    have hread : 0 < (task.conversation m_bufferSend).reading := by
      show 0 < task.reading + task.calls.countP listens
      omega
    rw [Conversation.step, if_pos hread]
    simp only [conversation, if_true, Option.some.injEq, Conversation.mk.injEq, true_and,
      and_true]
    omega
  | read hreading => exact ⟨m_bufferSend, .single (conversation_read m_bufferSend hreading)⟩
  | respond hcall =>
    obtain ⟨m_bufferSend', hrespond⟩ := conversation_respond m_bufferSend hcall
    exact ⟨m_bufferSend', .single hrespond⟩
  | @write error hwriting =>
    exact ⟨m_bufferSend, .single (e := .write error) (if_pos hwriting)⟩
  | destruct | destroyCounter => exact hsame rfl

end ServerTask

namespace System

open Machine

/-- What the clients' tasks do is a conversation each. -/
def Converse (s : System) : Prop :=
  ∀ task, .accepted task ∈ s.clients → ∃ m_bufferSend,
    Reachable Conversation.step Conversation.new (task.conversation m_bufferSend)

variable {s s' : System} {e : Event} {i : ℕ} {client : Client}

theorem converse_new : Converse new := by
  intro task htask
  cases htask

/-- A step that replaces one client. -/
theorem Converse.setClient (h : s.Converse) (hclients : s'.clients = s.clients.set i client)
    (hclient : ∀ task, client = .accepted task → ∃ m_bufferSend,
      Reachable Conversation.step Conversation.new (task.conversation m_bufferSend)) :
    s'.Converse := by
  intro task htask
  rw [hclients] at htask
  rcases List.mem_or_eq_of_mem_set htask with hmem | heq
  · exact h task hmem
  · exact hclient task heq.symm

theorem Converse.acceptNext (h : s.Converse) (hstep : step s (.acceptNext i) = some s') :
    s'.Converse := by
  simp only [step] at hstep
  split at hstep
  next task hold =>
    split_ifs at hstep with hcall
    cases hstep
    refine h.setClient rfl ?_
    rintro _ ⟨⟩
    obtain ⟨m_bufferSend, hreachable⟩ := h task (List.mem_of_getElem? hold)
    refine ⟨m_bufferSend, ?_⟩
    rw [ServerTask.conversation_leave m_bufferSend hcall.2]
    exact hreachable
  next => cases hstep

theorem Converse.task {action : ServerTask.Action} (h : s.Converse)
    (hstep : step s (.task i action) = some s') : s'.Converse := by
  simp only [step] at hstep
  split at hstep
  next task hold =>
    obtain ⟨⟨task', change⟩, htask, rfl⟩ := Option.map_eq_some_iff.1 hstep
    refine h.setClient rfl ?_
    rintro _ ⟨⟩
    obtain ⟨m_bufferSend, hreachable⟩ := h task (List.mem_of_getElem? hold)
    obtain ⟨m_bufferSend', hconversation⟩ := ServerTask.reachable_step htask m_bufferSend
    exact ⟨m_bufferSend', hreachable.trans hconversation⟩
  next => cases hstep

theorem Converse.step (h : s.Converse) (hstep : System.step s e = some s') : s'.Converse := by
  cases e with
  | acceptNext i => exact h.acceptNext hstep
  | task i action => exact h.task hstep
  | launch launched =>
    simp only [System.step] at hstep
    split at hstep
    · cases launched with
      | false =>
        cases hstep
        exact h
      | true =>
        cases hstep
        intro task htask
        exact h task (by simpa using htask)
    · cases hstep
  | connect i =>
    simp only [System.step, Option.ite_none_right_eq_some, Option.some.injEq] at hstep
    obtain ⟨-, rfl⟩ := hstep
    exact h.setClient rfl nofun
  | accept i =>
    simp only [System.step] at hstep
    split_ifs at hstep
    · cases hstep
      exact h.setClient rfl nofun
    · cases hstep
      refine h.setClient rfl ?_
      rintro _ ⟨⟩
      exact ⟨List.replicate Conversation.messageSize 0, .refl _ _⟩
  | destroyed i =>
    simp only [System.step] at hstep
    split at hstep
    · simp only [Option.ite_none_right_eq_some, Option.some.injEq] at hstep
      obtain ⟨-, rfl⟩ := hstep
      exact h.setClient rfl nofun
    · cases hstep
  | run | acceptError | poll | stop =>
    simp only [System.step, Option.ite_none_right_eq_some, Option.some.injEq] at hstep
    obtain ⟨-, rfl⟩ := hstep
    exact h

/-- In every run of the server, what the task of each client has done is a conversation. -/
theorem reachable_conversation {task : ServerTask} {es : List Event}
    (h : run System.step new es = some s) (htask : .accepted task ∈ s.clients) : ∃ m_bufferSend,
      Reachable Conversation.step Conversation.new (task.conversation m_bufferSend) :=
  invariant_run Converse (fun _ _ _ hconverse hstep => hconverse.step hstep) es converse_new h
    task htask

end System

end NitroCloud.Pipe
