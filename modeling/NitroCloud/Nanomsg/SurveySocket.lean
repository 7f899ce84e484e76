import NitroCloud.Nanomsg.Responses
import NitroCloud.Nanomsg.Survey

/-!
# The survey socket server

`survey_socket.h` of `nitro_nanomsg`: `server()` submits each command of its generator as a survey
and counts it, and each `client()` runs the surveys that it receives and logs the results.  Nobody
responds.

A survey that is submitted while the timer of the one before is being stopped is only stored, and
one submitted after it takes its place.  So a client runs a part of the commands, in order and none
twice (`texts_sublist`); the last command is not lost to a client whose pipe is always ready
(`last_received`); and the server's count says nothing about the others (`exists_skipped`).
-/

namespace NitroCloud.Nanomsg.Survey

open Bytes

/-! ## The program -/

/-- The loop of `client()`: the surveys that `nn_recv` returned, the log, and whether the loop goes
on. -/
structure SurveyClient where
  received : List Bytes
  texts : List Bytes
  running : Bool
deriving DecidableEq, Repr

namespace SurveyClient

def new : SurveyClient := ⟨[], [], true⟩

/-- The loop after `nn_recv` returned a survey: `taskNumber` is the length of the log. -/
def take (answers : Answers) (client : SurveyClient) (buf : Bytes) : SurveyClient :=
  let client := { client with received := client.received ++ [buf] }
  match answers client.texts.length (cStr buf) with
  | some runResult => { client with texts := client.texts ++ [runResult] }
  | none => { client with running := false }

end SurveyClient

/-- `sock` of `server()`, the only surveyor. -/
def sock : Fin 1 := ⟨0, Nat.one_pos⟩

/-- `server()` with the surveyor socket, and the clients at the other ends of its pipes. -/
structure SurveySocket (n : ℕ) where
  sockets : System 1 n
  commands : List Base
  taskIndex : ℕ
  clients : Fin n → SurveyClient

namespace SurveySocket

variable {n : ℕ}

def new (surveyid : UInt32) (firstKey : Fin n → UInt32) (commands : List Base) : SurveySocket n :=
  ⟨.new (fun _ => surveyid) firstKey, commands, 0, fun _ => .new⟩

inductive Event (n : ℕ) where
  /-- A pass of the loop of `server()`. -/
  | server (ready : Fin n → Bool)
  | task (ready : Fin n → Bool)
  | expire (ready : Fin n → Bool)
  /-- A pass of the loop of a client. -/
  | client (j : Fin n)

/-- The pipes that are ready for the message that the event sends, if it sends one. -/
def Event.ready : Event n → Fin n → Bool
  | .server ready => ready
  | .task ready => ready
  | .expire ready => ready
  | .client _ => fun _ => true

def step (answers : Answers) (s : SurveySocket n) : Event n → Option (SurveySocket n)
  | .server ready =>
    match s.commands with
    | [] => none
    | command :: commands =>
      (s.sockets.step (.survey sock command.serialize ready)).map fun sockets =>
        { s with sockets := sockets, commands := commands, taskIndex := s.taskIndex + 1 }
  | .task ready =>
    (s.sockets.step (.task sock ready)).map fun sockets => { s with sockets := sockets }
  | .expire ready =>
    (s.sockets.step (.expire sock ready)).map fun sockets => { s with sockets := sockets }
  | .client j =>
    if (s.clients j).running then
      match s.sockets.down sock j with
      | [] => none
      | msg :: _ =>
        (s.sockets.step (.take j sock)).map fun sockets =>
          { s with
            sockets := sockets
            clients := match ((s.sockets.respondents j).recv sock msg).2 with
              | some buf => Function.update s.clients j ((s.clients j).take answers buf)
              | none => s.clients }
    else none

/-- The states that the program can reach. -/
def Reachable (surveyid : UInt32) (firstKey : Fin n → UInt32) (answers : Answers)
    (commands : List Base) (s : SurveySocket n) : Prop :=
  Machine.Reachable (step answers) (new surveyid firstKey commands) s

/-! ## What reaches a client -/

/-- The surveys that a client has received, and those on their way to it. -/
def arrived (s : SurveySocket n) (j : Fin n) : List Bytes :=
  (s.clients j).received ++ (s.sockets.down sock j).map (List.drop 4)

/-- The surveys that were submitted and do not wait for the timer. -/
def submitted (s : SurveySocket n) : List Bytes :=
  if (s.sockets.surveyors sock).state = .cancelling then (s.sockets.surveys sock).dropLast
  else s.sockets.surveys sock

variable {surveyid : UInt32} {firstKey : Fin n → UInt32} {answers : Answers} {commands : List Base}
  {s s' : SurveySocket n}

theorem submitted_sublist (s : SurveySocket n) : s.submitted.Sublist (s.sockets.surveys sock) := by
  unfold submitted
  split_ifs
  · exact List.dropLast_sublist _
  · exact List.Sublist.refl _

/-- The invariant of the program. -/
structure Ok (surveyid : UInt32) (commands : List Base) (s : SurveySocket n) : Prop where
  sockets : System.Ok (fun _ => surveyid) s.sockets
  commands : s.sockets.surveys sock ++ s.commands.map Base.serialize = commands.map Base.serialize
  count : s.taskIndex = (s.sockets.surveys sock).length
  /-- The survey that a surveyor has stored is the last one submitted. -/
  tosend : (s.sockets.surveyors sock).inprogress = true →
    (s.sockets.surveys sock).getLast? = some ((s.sockets.surveyors sock).tosend.drop 4)
  arrived : ∀ j, (s.arrived j).Sublist s.submitted

theorem ok_new : Ok surveyid commands (new surveyid firstKey commands) where
  sockets := System.ok_new
  commands := rfl
  count := rfl
  tosend h := by simp [new, System.new, Surveyor.new, Surveyor.inprogress] at h
  arrived j := by simp [SurveySocket.arrived, new, System.new, SurveyClient.new]

/-- What a survey does to the sockets. -/
theorem of_survey {sockets : System 1 n} {body : Bytes} {ready : Fin n → Bool}
    (hstep : s.sockets.step (.survey sock body ready) = some sockets) :
    sockets.surveyors sock = ((s.sockets.surveyors sock).send body).1 ∧
      sockets.surveys sock = s.sockets.surveys sock ++ [body] ∧
      ∀ j, sockets.down sock j = if ready j then
        s.sockets.down sock j ++ ((s.sockets.surveyors sock).send body).2.toList
        else s.sockets.down sock j := by
  simp only [System.step, Option.ite_none_left_eq_some] at hstep
  obtain ⟨-, ⟨⟩⟩ := hstep
  simp [System.broadcast, System.distribute]

/-- What a step of the worker does to the sockets. -/
theorem of_worker (sockets : System 1 n) (sent : Surveyor × Option Bytes) (ready : Fin n → Bool) :
    (sockets.broadcast sock sent ready).surveyors sock = sent.1 ∧
      (sockets.broadcast sock sent ready).surveys sock = sockets.surveys sock ∧
      ∀ j, (sockets.broadcast sock sent ready).down sock j =
        if ready j then sockets.down sock j ++ sent.2.toList else sockets.down sock j := by
  simp [System.broadcast, System.distribute]

/-- A message that was sent to the ready pipes has arrived there. -/
theorem arrived_of_down {sockets : System 1 n} {left : List Base} {taskIndex : ℕ} {j : Fin n}
    {msg : Option Bytes} {ready : Bool}
    (hdown : sockets.down sock j =
      if ready then s.sockets.down sock j ++ msg.toList else s.sockets.down sock j) :
    arrived ⟨sockets, left, taskIndex, s.clients⟩ j =
      if ready then s.arrived j ++ msg.toList.map (List.drop 4) else s.arrived j := by
  rw [arrived, arrived, hdown]
  cases ready <;> simp

theorem Ok.server {ready : Fin n → Bool} (h : Ok surveyid commands s)
    (hstep : step answers s (.server ready) = some s') : Ok surveyid commands s' := by
  simp only [SurveySocket.step] at hstep
  split at hstep
  · cases hstep
  · next command rest hcommands =>
    obtain ⟨sockets, hsockets, rfl⟩ := Option.map_eq_some_iff.1 hstep
    obtain ⟨hsurveyor, hsurveys, hdown⟩ := of_survey hsockets
    obtain ⟨-, -, htosend, -⟩ := Surveyor.of_send (h.sockets.surveyors sock) command.serialize
    refine ⟨h.sockets.survey hsockets, ?_, ?_, ?_, fun j => ?_⟩
    · simp only [hsurveys]
      rw [← h.commands, hcommands]
      simp
    · simp only [hsurveys]
      rw [List.length_append, ← h.count]
      rfl
    · intro _
      simp only [hsurveys, hsurveyor, htosend, drop_putl]
      simp
    · rw [arrived_of_down (hdown j)]
      have hsublist := (h.arrived j).trans s.submitted_sublist
      rcases Surveyor.send_cases (h.sockets.surveyors sock) command.serialize with
        ⟨-, hstate, hsent⟩ | ⟨hstate, hsent⟩
      · simp only [submitted, hsurveyor, hstate, hsurveys, hsent, reduceCtorEq, if_false]
        by_cases hready : ready j = true
        · simpa [hready] using hsublist
        · rw [if_neg hready]
          exact hsublist.trans (List.sublist_append_left _ _)
      · simp only [submitted, hsurveyor, hstate, hsurveys, hsent]
        simpa using hsublist

/-- A step of the worker sends the survey that was stored, or nothing. -/
theorem Ok.worker {ready : Fin n → Bool} {sent : Surveyor × Option Bytes}
    (h : Ok surveyid commands s) (hok : sent.1.Ok)
    (hkept : Surveyor.Kept (s.sockets.surveyors sock) sent.1 sent.2)
    (hcases : ((s.sockets.surveyors sock).state = .cancelling ∧ sent.1.state = .active ∧
        sent.2 = some (s.sockets.surveyors sock).tosend) ∨
      ((sent.1.state = .cancelling ↔ (s.sockets.surveyors sock).state = .cancelling) ∧
        sent.2 = none)) :
    Ok surveyid commands { s with sockets := s.sockets.broadcast sock sent ready } := by
  obtain ⟨hsurveyor, hsurveys, hdown⟩ := of_worker s.sockets sent ready
  have htosend := h.tosend hkept.inprogress
  refine ⟨h.sockets.worker ready hok hkept, ?_, ?_, ?_, fun j => ?_⟩
  · rw [hsurveys]
    exact h.commands
  · rw [hsurveys]
    exact h.count
  · intro _
    rw [hsurveys, hsurveyor, hkept.tosend]
    exact htosend
  · rw [arrived_of_down (hdown j)]
    have hsublist := h.arrived j
    rcases hcases with ⟨hstate, hstate', hsent⟩ | ⟨hstate, hsent⟩
    · simp only [submitted, hstate, if_true] at hsublist
      have hlast := List.dropLast_append_getLast? _ htosend
      simp only [submitted, hsurveyor, hstate', hsurveys, hsent, reduceCtorEq, if_false]
      by_cases hready : ready j = true
      · rw [if_pos hready, ← hlast]
        simpa using hsublist
      · rw [if_neg hready]
        exact hsublist.trans (List.dropLast_sublist _)
    · simp only [submitted] at hsublist
      simp only [submitted, hsurveyor, hstate, hsurveys, hsent]
      simpa using hsublist

/-- A client that takes a survey moves it from its pipe to what it has received. -/
theorem of_client {j : Fin n} (h : Ok surveyid commands s)
    (hstep : step answers s (.client j) = some s') :
    ∃ msg rest, s.sockets.down sock j = msg :: rest ∧
      IsSurvey surveyid (s.sockets.surveys sock) msg ∧ (s.clients j).running = true ∧
      s.sockets.step (.take j sock) = some s'.sockets ∧
      s'.commands = s.commands ∧ s'.taskIndex = s.taskIndex ∧
      s'.clients = Function.update s.clients j ((s.clients j).take answers (msg.drop 4)) := by
  simp only [SurveySocket.step, Option.ite_none_right_eq_some] at hstep
  obtain ⟨hrunning, hstep⟩ := hstep
  split at hstep
  · cases hstep
  · next msg rest hqueue =>
    obtain ⟨sockets, hsockets, rfl⟩ := Option.map_eq_some_iff.1 hstep
    have hmsg := h.sockets.down sock j msg (by simp [hqueue])
    have hrecv := (Respondent.recv_survey (r := s.sockets.respondents j) hmsg sock).2
    exact ⟨msg, rest, hqueue, hmsg, hrunning, hsockets, rfl, rfl, by simp only [hrecv]⟩

theorem received_take (client : SurveyClient) (buf : Bytes) :
    (client.take answers buf).received = client.received ++ [buf] := by
  rw [SurveyClient.take]
  cases answers client.texts.length (cStr buf) <;> rfl

theorem arrived_client {j : Fin n} (h : Ok surveyid commands s)
    (hstep : step answers s (.client j) = some s') :
    s'.sockets.surveyors = s.sockets.surveyors ∧ s'.sockets.surveys = s.sockets.surveys ∧
      ∀ l, s'.arrived l = s.arrived l := by
  obtain ⟨msg, rest, hqueue, -, -, hsockets, -, -, hclients⟩ := of_client h hstep
  simp only [System.step, hqueue] at hsockets
  have hsockets := (Option.some.inj hsockets).symm
  refine ⟨by rw [hsockets], by rw [hsockets], fun l => ?_⟩
  rw [arrived, arrived, hclients, hsockets]
  by_cases hl : l = j
  · subst hl
    simp [received_take, hqueue]
  · simp [Function.update_of_ne hl]

theorem Ok.client {j : Fin n} (h : Ok surveyid commands s)
    (hstep : step answers s (.client j) = some s') : Ok surveyid commands s' := by
  obtain ⟨hsurveyors, hsurveys, harrived⟩ := arrived_client h hstep
  obtain ⟨msg, rest, -, -, -, hsockets, hcommands, htaskIndex, -⟩ := of_client h hstep
  refine ⟨h.sockets.take hsockets, ?_, ?_, ?_, fun l => ?_⟩
  · rw [hsurveys, hcommands]
    exact h.commands
  · rw [hsurveys, htaskIndex]
    exact h.count
  · rw [hsurveyors, hsurveys]
    exact h.tosend
  · rw [harrived, submitted, hsurveyors, hsurveys]
    exact h.arrived l

theorem Ok.step {e : Event n} (h : Ok surveyid commands s) (hstep : step answers s e = some s') :
    Ok surveyid commands s' := by
  cases e with
  | server ready => exact h.server hstep
  | task ready =>
    simp only [SurveySocket.step, System.step, Option.map_eq_some_iff,
      Option.ite_none_left_eq_some] at hstep
    obtain ⟨sockets, ⟨-, sent, hsent, rfl⟩, rfl⟩ := hstep
    obtain ⟨hok, hkept⟩ := Surveyor.of_task (h.sockets.surveyors sock) hsent
    exact h.worker hok hkept (Surveyor.task_cases (h.sockets.surveyors sock) hsent)
  | expire ready =>
    simp only [SurveySocket.step, System.step, Option.map_eq_some_iff,
      Option.ite_none_left_eq_some] at hstep
    obtain ⟨sockets, ⟨-, sent, hsent, rfl⟩, rfl⟩ := hstep
    obtain ⟨hok, hkept⟩ := Surveyor.of_expire (h.sockets.surveyors sock) hsent
    exact h.worker hok hkept (.inr (Surveyor.expire_cases (h.sockets.surveyors sock) hsent))
  | client j => exact h.client hstep

theorem Reachable.ok (h : Reachable surveyid firstKey answers commands s) :
    Ok surveyid commands s :=
  Machine.Reachable.invariant (Ok surveyid commands) ok_new (fun _ _ _ => Ok.step) h

/-- What a client has received is a part of the commands, in their order. -/
theorem Ok.received_sublist (h : Ok surveyid commands s) (j : Fin n) :
    (s.clients j).received.Sublist (commands.map Base.serialize) := by
  have harrived : (s.clients j).received.Sublist (s.arrived j) := List.sublist_append_left _ _
  rw [← h.commands]
  exact ((harrived.trans (h.arrived j)).trans s.submitted_sublist).trans
    (List.sublist_append_left _ _)

/-! ## The logs of the clients -/

theorem serialize_comp_ofCount : Base.serialize ∘ Base.ofCount = Count.message :=
  funext Base.serialize_ofCount

section Logs

variable {t : Target} {file : Bytes} {g : CommandGenerator}

/-- A client whose loop goes on has logged the answer to each survey. -/
def Logs (t : Target) (file : Bytes) (client : SurveyClient) : Prop :=
  client.running = true ∧
    client.received.map (fun buf => answer t file (cStr buf)) = client.texts.map some

theorem Logs.take {client : SurveyClient} (h : Logs t file client) (c : Count) :
    Logs t file (client.take (fun _ => answer t file) c.message) := by
  have hanswer : answer t file (cStr c.message) = some (c.run t file) := by
    rw [cStr_eq_self c.zero_notMem_message, answer_self]
  simp only [SurveyClient.take, hanswer, Logs, List.map_append, List.map_cons, List.map_nil, h.2]
  exact ⟨h.1, trivial⟩

theorem Ok.logs_step {e : Event n} (h : Ok surveyid (g.commands.map Base.ofCount) s)
    (hlogs : ∀ j, Logs t file (s.clients j))
    (hstep : SurveySocket.step (fun _ => answer t file) s e = some s') :
    ∀ j, Logs t file (s'.clients j) := by
  cases e with
  | server ready =>
    simp only [SurveySocket.step] at hstep
    split at hstep
    · cases hstep
    · obtain ⟨sockets, -, rfl⟩ := Option.map_eq_some_iff.1 hstep
      exact hlogs
  | task ready =>
    obtain ⟨sockets, -, rfl⟩ := Option.map_eq_some_iff.1 hstep
    exact hlogs
  | expire ready =>
    obtain ⟨sockets, -, rfl⟩ := Option.map_eq_some_iff.1 hstep
    exact hlogs
  | client j =>
    obtain ⟨msg, rest, -, ⟨k, text, hk, rfl⟩, -, -, -, -, hclients⟩ := of_client h hstep
    -- what the client takes is the message of a command of the generator
    have hmem : text ∈ g.commands.map Count.message := by
      have hcommands := h.commands
      rw [List.map_map, serialize_comp_ofCount] at hcommands
      rw [← hcommands]
      exact List.mem_append_left _ (List.mem_of_getElem? hk)
    obtain ⟨c, -, rfl⟩ := List.mem_map.1 hmem
    rw [hclients, drop_putl]
    exact System.forall_update (P := fun _ client => Logs t file client) ((hlogs j).take c)
      fun l _ => hlogs l

/-- In every run of the server with any number of clients: what a client has logged are the
in-process loop's answers to some of the commands, in the order of the generator and none twice; it
goes on; and the server has counted every command that it took. -/
theorem texts_sublist (h : Reachable surveyid firstKey (fun _ => answer t file)
      (g.commands.map Base.ofCount) s) (j : Fin n) :
    (∃ commands : List Count, commands.Sublist g.commands ∧
      (s.clients j).texts = commands.map (Count.run t file)) ∧
      (s.clients j).running = true ∧ s.taskIndex + s.commands.length = g.commands.length := by
  obtain ⟨hok, hlogs⟩ := Machine.Reachable.invariant
    (fun s => Ok surveyid (g.commands.map Base.ofCount) s ∧ ∀ j, Logs t file (s.clients j))
    ⟨ok_new, fun _ => ⟨rfl, rfl⟩⟩
    (fun _ _ _ hinv hstep => ⟨hinv.1.step hstep, hinv.1.logs_step hinv.2 hstep⟩) h
  refine ⟨?_, (hlogs j).1, ?_⟩
  · have hsublist := hok.received_sublist j
    rw [List.map_map, serialize_comp_ofCount] at hsublist
    obtain ⟨commands, hcommands, hreceived⟩ := List.sublist_map_iff.1 hsublist
    refine ⟨commands, hcommands, ?_⟩
    have htexts := (hlogs j).2
    have hanswers : commands.map ((fun buf => answer t file (cStr buf)) ∘ Count.message) =
        (commands.map (Count.run t file)).map some := by
      rw [List.map_map]
      refine List.map_congr_left fun c _ => ?_
      simp only [Function.comp_apply, cStr_eq_self c.zero_notMem_message, answer_self]
    rw [hreceived, List.map_map, hanswers] at htexts
    exact (List.map_injective_iff.2 (Option.some_injective _) htexts).symm
  · have hlength := congrArg List.length hok.commands
    simp only [List.length_append, List.length_map] at hlength
    rw [hok.count, hlength]

/-- One client, which runs the only command. -/
theorem texts_sublist_one :
    ∃ s : SurveySocket 1, Reachable 7 (fun _ => 9) (fun _ => answer .x64 [])
        ((CommandGenerator.commands ⟨1, fun _ => 7⟩).map Base.ofCount) s ∧
      (s.clients sock).texts = [ascii "Row[7] = <error>"] ∧
      ∃ commands : List Count, commands.Sublist (CommandGenerator.commands ⟨1, fun _ => 7⟩) ∧
        (s.clients sock).texts = commands.map (Count.run .x64 []) := by
  have hrun : (Machine.run (step fun _ => answer .x64 []) (new 7 (fun _ => 9)
      ((CommandGenerator.commands ⟨1, fun _ => 7⟩).map Base.ofCount))
      [.server fun _ => true, .client sock]).map (fun s => (s.clients sock).texts) =
        some [ascii "Row[7] = <error>"] := by decide +kernel
  obtain ⟨s, hs, htexts⟩ := Option.map_eq_some_iff.1 hrun
  have hreach : Reachable 7 (fun _ => 9) (fun _ => answer .x64 [])
      ((CommandGenerator.commands ⟨1, fun _ => 7⟩).map Base.ofCount) s := ⟨_, hs⟩
  exact ⟨s, hreach, htexts, (texts_sublist hreach sock).1⟩

end Logs

/-! ## The last command -/

/-- The last survey submitted has arrived, unless it waits for the timer. -/
def LastArrived (s : SurveySocket n) (j : Fin n) : Prop :=
  (s.sockets.surveyors sock).state ≠ .cancelling →
    (s.arrived j).getLast? = (s.sockets.surveys sock).getLast?

theorem LastArrived.step {e : Event n} {j : Fin n} (h : Ok surveyid commands s)
    (hlast : s.LastArrived j) (hready : e.ready j = true)
    (hstep : SurveySocket.step answers s e = some s') : s'.LastArrived j := by
  cases e with
  | server ready =>
    simp only [Event.ready] at hready
    simp only [SurveySocket.step] at hstep
    split at hstep
    · cases hstep
    · next command rest hcommands =>
      obtain ⟨sockets, hsockets, rfl⟩ := Option.map_eq_some_iff.1 hstep
      obtain ⟨hsurveyor, hsurveys, hdown⟩ := of_survey hsockets
      intro hstate
      rw [arrived_of_down (hdown j), if_pos hready]
      rcases Surveyor.send_cases (h.sockets.surveyors sock) command.serialize with
        ⟨-, -, hsent⟩ | ⟨hcancelling, -⟩
      · simp [hsurveys, hsent]
      · exact absurd (hsurveyor ▸ hcancelling) hstate
  | task ready =>
    simp only [Event.ready] at hready
    simp only [SurveySocket.step, System.step, Option.map_eq_some_iff,
      Option.ite_none_left_eq_some] at hstep
    obtain ⟨sockets, ⟨-, sent, hsent, rfl⟩, rfl⟩ := hstep
    obtain ⟨hsurveyor, hsurveys, hdown⟩ := of_worker s.sockets sent ready
    obtain ⟨-, hkept⟩ := Surveyor.of_task (h.sockets.surveyors sock) hsent
    intro hstate
    rw [arrived_of_down (hdown j), if_pos hready]
    rcases Surveyor.task_cases (h.sockets.surveyors sock) hsent with ⟨-, -, hmsg⟩ | ⟨hiff, hmsg⟩
    · simp [hsurveys, hmsg, h.tosend hkept.inprogress]
    · have hbefore := hlast fun hcancelling => hstate (hsurveyor ▸ hiff.2 hcancelling)
      simpa [hsurveys, hmsg] using hbefore
  | expire ready =>
    simp only [SurveySocket.step, System.step, Option.map_eq_some_iff,
      Option.ite_none_left_eq_some] at hstep
    obtain ⟨sockets, ⟨-, sent, hsent, rfl⟩, rfl⟩ := hstep
    obtain ⟨hsurveyor, hsurveys, hdown⟩ := of_worker s.sockets sent ready
    obtain ⟨hiff, hmsg⟩ := Surveyor.expire_cases (h.sockets.surveyors sock) hsent
    intro hstate
    have hbefore := hlast fun hcancelling => hstate (hsurveyor ▸ hiff.2 hcancelling)
    rw [arrived_of_down (hdown j)]
    simpa [hsurveys, hmsg] using hbefore
  | client l =>
    obtain ⟨hsurveyors, hsurveys, harrived⟩ := arrived_client h hstep
    rw [LastArrived, hsurveyors, hsurveys, harrived]
    exact hlast

/-- A timer that leaves the worker nothing to do is not being stopped. -/
theorem Ok.not_cancelling (h : Ok surveyid commands s)
    (htasks : (s.sockets.surveyors sock).timer.tasks = []) :
    (s.sockets.surveyors sock).state ≠ .cancelling := by
  intro hstate
  have hphases := (h.sockets.surveyors sock).phases
  rw [hstate] at hphases
  cases htimer : (s.sockets.surveyors sock).timer with
  | mk state tasks wtimer =>
    rw [htimer] at hphases htasks
    simp only at htasks
    subst htasks
    cases hphases

/-- In every run in which a pipe is ready for each message that is sent: when the server has taken
all commands, the worker has nothing left to do and the client has emptied its pipe, the last
survey that the client has received is the last command. -/
theorem last_received {es : List (Event n)}
    (hrun : Machine.run (step answers) (new surveyid firstKey commands) es = some s) (j : Fin n)
    (hready : ∀ e ∈ es, e.ready j = true) (hcommands : s.commands = [])
    (htasks : (s.sockets.surveyors sock).timer.tasks = []) (hdown : s.sockets.down sock j = []) :
    (s.clients j).received.getLast? = (commands.map Base.serialize).getLast? := by
  obtain ⟨hok, hlast⟩ := Machine.invariant_events
    (fun es s => Ok surveyid commands s ∧ ((∀ e ∈ es, e.ready j = true) → s.LastArrived j))
    ⟨ok_new, fun _ _ => rfl⟩ (fun before s e s' hinv hstep => by
      refine ⟨hinv.1.step hstep, fun hall => ?_⟩
      rw [List.forall_mem_append, List.forall_mem_singleton] at hall
      exact (hinv.2 hall.1).step hinv.1 hall.2 hstep) hrun
  have harrived := hlast hready (hok.not_cancelling htasks)
  have hsurveys := hok.commands
  rw [hcommands, List.map_nil, List.append_nil] at hsurveys
  simpa [arrived, hdown, hsurveys] using harrived

/-- One client, and two commands of which the second is submitted before the timer has started. -/
def twoReceived : List (Event 1) :=
  [.server fun _ => true, .server fun _ => true, .task fun _ => true, .task fun _ => true,
    .task fun _ => true, .client sock, .client sock]

theorem last_received_two :
    ∃ s : SurveySocket 1,
      Machine.run (step fun _ _ => some []) (new 7 (fun _ => 9) [⟨0, [55, 13]⟩, ⟨0, [56, 13]⟩])
        twoReceived = some s ∧ (s.clients sock).received.length = 2 ∧
      (s.clients sock).received.getLast? = some (Base.serialize ⟨0, [56, 13]⟩) := by
  have hrun : (Machine.run (step fun _ _ => some [])
      (new 7 (fun _ => 9) [⟨0, [55, 13]⟩, ⟨0, [56, 13]⟩]) twoReceived).map (fun s =>
        (s.commands, (s.sockets.surveyors sock).timer.tasks, s.sockets.down sock sock,
          (s.clients sock).received.length)) = some ([], [], [], 2) := by decide +kernel
  obtain ⟨s, hs, hstate⟩ := Option.map_eq_some_iff.1 hrun
  simp only [Prod.mk.injEq] at hstate
  have hready : ∀ e ∈ twoReceived, e.ready sock = true := by simp [twoReceived, Event.ready]
  exact ⟨s, hs, hstate.2.2.2,
    last_received hs sock hready hstate.1 hstate.2.1 hstate.2.2.1⟩

/-! ## The commands that nobody receives -/

/-- The server takes its next command, with all pipes ready. -/
theorem exists_server (answers : Answers) (h : Ok surveyid commands s) {command : Base}
    {rest : List Base} (hcommands : s.commands = command :: rest) :
    ∃ s', step answers s (.server fun _ => true) = some s' ∧ s'.commands = rest ∧
      s'.taskIndex = s.taskIndex + 1 ∧
      s'.sockets.surveyors sock = ((s.sockets.surveyors sock).send command.serialize).1 ∧
      ∀ j, s'.arrived j = s.arrived j ++
        ((s.sockets.surveyors sock).send command.serialize).2.toList.map (List.drop 4) := by
  obtain ⟨sockets, hsockets⟩ : ∃ sockets, s.sockets.step (.survey sock command.serialize
      fun _ => true) = some sockets := by
    simp [System.step, (h.sockets.surveyors sock).running]
  obtain ⟨hsurveyor, -, hdown⟩ := of_survey hsockets
  have hstep : step answers s (.server fun _ => true) = some
      { s with sockets := sockets, commands := rest, taskIndex := s.taskIndex + 1 } := by
    rw [step, hcommands]
    simp [hsockets]
  exact ⟨_, hstep, rfl, rfl, hsurveyor, fun j => by rw [arrived_of_down (hdown j), if_pos rfl]⟩

/-- The worker executes a task, with all pipes ready. -/
theorem exists_task (answers : Answers) (h : Ok surveyid commands s)
    {sent : Surveyor × Option Bytes} (hsent : (s.sockets.surveyors sock).task = some sent) :
    ∃ s', step answers s (.task fun _ => true) = some s' ∧ s'.commands = s.commands ∧
      s'.taskIndex = s.taskIndex ∧ s'.sockets.surveyors sock = sent.1 ∧
      s'.sockets.surveys sock = s.sockets.surveys sock ∧
      ∀ j, s'.arrived j = s.arrived j ++ sent.2.toList.map (List.drop 4) := by
  obtain ⟨hsurveyor, hsurveys, hdown⟩ := of_worker s.sockets sent fun _ => true
  have hstep : step answers s (.task fun _ => true) = some
      { s with sockets := s.sockets.broadcast sock sent fun _ => true } := by
    simp [step, System.step, (h.sockets.surveyors sock).running, hsent]
  exact ⟨_, hstep, rfl, rfl, hsurveyor, hsurveys, fun j => by
    rw [arrived_of_down (hdown j), if_pos rfl]⟩

/-- While the timer is being stopped the server goes through its commands and nothing is sent. -/
theorem exists_taken (answers : Answers) (h : Ok surveyid commands s)
    (hstate : (s.sockets.surveyors sock).state = .cancelling) :
    ∃ s', Machine.Reachable (step answers) s s' ∧ s'.commands = [] ∧
      s'.taskIndex = s.taskIndex + s.commands.length ∧
      (s'.sockets.surveyors sock).state = .cancelling ∧
      (s'.sockets.surveyors sock).timer = (s.sockets.surveyors sock).timer ∧
      ∀ j, s'.arrived j = s.arrived j := by
  induction hcommands : s.commands generalizing s with
  | nil => exact ⟨s, .refl _ _, hcommands, rfl, hstate, rfl, fun _ => rfl⟩
  | cons command rest ih =>
    obtain ⟨s₁, hstep, hrest, hindex, hsurveyor, harrived⟩ := exists_server answers h hcommands
    have hsend : (s.sockets.surveyors sock).send command.serialize =
        ({ s.sockets.surveyors sock with
          surveyid := Surveyor.nextId (s.sockets.surveyors sock).surveyid
          tosend := putl (Surveyor.nextId (s.sockets.surveyors sock).surveyid) ++
            command.serialize }, none) := by
      simp [Surveyor.send, Surveyor.inprogress, Surveyor.handler, hstate]
    rw [hsend] at hsurveyor harrived
    obtain ⟨s', hs', hcommands', hindex', hstate', htimer, harrived'⟩ :=
      ih (h.step hstep) (by rw [hsurveyor]; exact hstate) hrest
    refine ⟨s', (Machine.Reachable.single hstep).trans hs', hcommands', ?_, hstate', ?_, ?_⟩
    · rw [hindex', hindex, List.length_cons]
      omega
    · rw [htimer, hsurveyor]
    · intro j
      rw [harrived', harrived]
      simp

/-- The worker stops the timer of a survey that was cancelled before the timer had started, and has
the survey sent that was submitted last. -/
theorem exists_resent (answers : Answers) (h : Ok surveyid commands s)
    (hstate : (s.sockets.surveyors sock).state = .cancelling)
    (htimer : (s.sockets.surveyors sock).timer = ⟨.stopping, [.start_task, .stop_task], false⟩) :
    ∃ s', Machine.Reachable (step answers) s s' ∧ s'.commands = s.commands ∧
      s'.taskIndex = s.taskIndex ∧
      ∀ j, s'.arrived j = s.arrived j ++ [(s.sockets.surveyors sock).tosend.drop 4] := by
  have htask : (s.sockets.surveyors sock).task = some ({ s.sockets.surveyors sock with
      timer := ⟨.stopping, [.stop_task], false⟩ }, none) := by
    simp [Surveyor.task, htimer]
  obtain ⟨s₁, hstep₁, hcommands₁, hindex₁, hsurveyor₁, -, harrived₁⟩ := exists_task answers h htask
  have htask₁ : (s₁.sockets.surveyors sock).task = some ({ s₁.sockets.surveyors sock with
      state := .active, timer := ⟨.active, [.start_task], false⟩ },
        some (s.sockets.surveyors sock).tosend) := by
    rw [hsurveyor₁]
    simp [Surveyor.task, Surveyor.handler, hstate, Surveyor.resend, Timer.start]
  obtain ⟨s₂, hstep₂, hcommands₂, hindex₂, -, -, harrived₂⟩ :=
    exists_task answers (h.step hstep₁) htask₁
  refine ⟨s₂, (Machine.Reachable.single hstep₁).trans (.single hstep₂),
    hcommands₂.trans hcommands₁, hindex₂.trans hindex₁, fun j => ?_⟩
  rw [harrived₂, harrived₁]
  simp

/-- For any commands, at least two, there is a run after which the server has counted all of them
while each client, with its pipe always ready, is sent the first and the last one only. -/
theorem exists_skipped (surveyid : UInt32) (firstKey : Fin n → UInt32) (answers : Answers)
    (command last : Base) (commands : List Base) :
    ∃ s, Reachable surveyid firstKey answers (command :: (commands ++ [last])) s ∧
      s.commands = [] ∧ s.taskIndex = commands.length + 2 ∧
      ∀ j, s.arrived j = [command.serialize, last.serialize] := by
  obtain ⟨second, rest, hsecond⟩ := List.exists_cons_of_ne_nil (List.concat_ne_nil last commands)
  have hok : Ok surveyid (command :: (commands ++ [last]))
      (new surveyid firstKey (command :: (commands ++ [last]))) := ok_new
  -- the first command is sent at once, and the second one cancels it
  obtain ⟨s₁, hstep₁, hrest₁, hindex₁, hsurveyor₁, harrived₁⟩ := exists_server answers hok rfl
  have hok₁ := hok.step hstep₁
  obtain ⟨s₂, hstep₂, hrest₂, hindex₂, hsurveyor₂, harrived₂⟩ :=
    exists_server answers hok₁ (hrest₁.trans hsecond)
  rw [hsurveyor₁] at hsurveyor₂ harrived₂
  have hok₂ := hok₁.step hstep₂
  -- the others only take its place
  obtain ⟨s₃, hs₃, hrest₃, hindex₃, hstate₃, htimer₃, harrived₃⟩ :=
    exists_taken answers hok₂ (by rw [hsurveyor₂]; rfl)
  have hok₃ := Machine.Reachable.invariant (Ok surveyid _) hok₂ (fun _ _ _ => Ok.step) hs₃
  obtain ⟨s₄, hs₄, hrest₄, hindex₄, harrived₄⟩ :=
    exists_resent answers hok₃ hstate₃ (by rw [htimer₃, hsurveyor₂]; rfl)
  have hlast := hok₃.tosend (by rw [Surveyor.inprogress, hstate₃]; rfl)
  have hsurveys := hok₃.commands
  rw [hrest₃, List.map_nil, List.append_nil] at hsurveys
  rw [hsurveys, ← List.cons_append, List.map_append, List.map_singleton,
    List.getLast?_concat] at hlast
  have hlength := congrArg List.length hsecond
  refine ⟨s₄, ?_, hrest₄.trans hrest₃, ?_, fun j => ?_⟩
  · exact (((Machine.Reachable.single hstep₁).trans (.single hstep₂)).trans hs₃).trans hs₄
  · rw [hindex₄, hindex₃, hindex₂, hindex₁, hrest₂]
    simp only [List.length_append, List.length_cons, List.length_nil] at hlength
    show 0 + 1 + 1 + rest.length = commands.length + 2
    omega
  · have hsent := (Option.some.inj hlast).symm
    rw [harrived₄, harrived₃, harrived₂, harrived₁, hsent]
    rfl

end SurveySocket

end NitroCloud.Nanomsg.Survey
