import NitroCloud.Nanomsg.Progress
import NitroCloud.CloudPrototypes.Inproc
import Mathlib.Data.List.Infix

/-!
# The responses of the pair socket server

`ReceiveCommandResponse` of `pair_socket.h` makes a text of each response that it receives, which it
writes to the log when it is compiled with `ENABLE_LOG`; `nitro_nano.cpp` has that commented out.
The commands are dealt to the four clients in turn, each client answers what it is sent in its
order, and a socket keeps the order of its messages.  So the texts received for an item are the
answers to every fourth command (`texts_returned`), and the in-process loop's answer to the command
with number `n` is the text `n / 4` of the item `n % 4` (`texts_inproc`).
-/

namespace NitroCloud.Nanomsg

open Bytes Stream

/-! ## The log -/

namespace System

/-- The text that a step of the server receives for an item in `ReceiveCommandResponse`, which logs
it under `ENABLE_LOG`. -/
def logged (s : System) (e : Event) (i : Fin processCount) : List Bytes :=
  match e, s.phase with
  | .server, .receiving _ (j :: _) =>
    if i = j then ((s.serverItems j).up.recv.map fun received => cStr received.1).toList else []
  | _, _ => []

end System

/-- The system with the texts received for each item. -/
structure Logged where
  system : System
  texts : Fin processCount → List Bytes

namespace Logged

def new (commands : List Base) : Logged := ⟨.new commands, fun _ => []⟩

def step (capacity : Option ℕ) (answers : Answers) (l : Logged) (e : System.Event) :
    Option Logged :=
  (l.system.step capacity answers e).map fun system =>
    ⟨system, fun i => l.texts i ++ l.system.logged e i⟩

/-- The states that the system can reach, with their logs. -/
def Reachable (capacity : Option ℕ) (answers : Answers) (commands : List Base) (l : Logged) :
    Prop :=
  Machine.Reachable (step capacity answers) (new commands) l

end Logged

/-! ## What is expected -/

/-- The requests that are dealt to an item: those of every fourth command. -/
def dealt (commands : List Base) (i : Fin processCount) : List Bytes :=
  ((commands.zipIdx).filter fun numbered => numbered.2 % processCount = i).map fun numbered =>
    numbered.1.serialize

/-- The answers of a client to the requests it receives. -/
def answered (answers : Answers) (requests : List Bytes) : List Bytes :=
  requests.mapIdx fun n buf => (answers n (cStr buf)).getD []

/-- The texts that the server logs for an item which answers all of its requests. -/
def expected (answers : Answers) (commands : List Base) (i : Fin processCount) : List Bytes :=
  (answered answers (dealt commands i)).map cStr

theorem dealt_append (commands rest : List Base) (i : Fin processCount) :
    ∃ more, dealt (commands ++ rest) i = dealt commands i ++ more := by
  rw [dealt, List.zipIdx_append, List.filter_append, List.map_append]
  exact ⟨_, rfl⟩

theorem dealt_concat (commands : List Base) (command : Base) (i : Fin processCount) :
    dealt (commands ++ [command]) i = dealt commands i ++
      if commands.length % processCount = i then [command.serialize] else [] := by
  rw [dealt, List.zipIdx_append, List.filter_append, List.map_append, ← dealt]
  congr 1
  rw [List.zipIdx_singleton, Nat.zero_add, List.filter_singleton]
  split_ifs with h <;> simp [h]

theorem answered_append (answers : Answers) (requests rest : List Bytes) :
    ∃ more, answered answers (requests ++ rest) = answered answers requests ++ more := by
  rw [answered, List.mapIdx_append]
  exact ⟨_, rfl⟩

theorem answered_concat (answers : Answers) (requests : List Bytes) (buf : Bytes) :
    answered answers (requests ++ [buf]) =
      answered answers requests ++ [(answers requests.length (cStr buf)).getD []] := by
  rw [answered, List.mapIdx_append, ← answered]
  simp

theorem length_dealt (commands : List Base) (i : Fin processCount) :
    (dealt commands i).length = share commands.length i := by
  induction commands using List.reverseRecOn with
  | nil => exact (share_zero i).symm
  | append_singleton commands command ih =>
    rw [dealt_concat, List.length_append, ih, List.length_append, List.length_singleton, share_succ]
    split_ifs <;> rfl

/-! ## One item -/

/-- The response that a client has still to send. -/
def ClientPhase.runResult : ClientPhase → List Bytes
  | .sending runResult => [runResult]
  | _ => []

/-- Where the requests of an item and the answers to them are: the client has answered some of them,
in order, and the rest is on its way. -/
def Flow (answers : Answers) (requests : List Bytes) (item : ServerItem) (texts : List Bytes) :
    Prop :=
  ∃ done, requests = done ++ item.down.queue ∧ done.length = item.client.commandNumber ∧
    (answered answers done).map cStr =
      texts ++ (item.up.queue ++ item.client.phase.runResult).map cStr

section Flow

variable {capacity : Option ℕ} {answers : Answers} {requests texts : List Bytes}
  {item item' : ServerItem}

theorem flow_new : Flow answers [] .new [] := ⟨[], rfl, rfl, rfl⟩

theorem Flow.sendCommand {buf : Bytes} (h : Flow answers requests item texts)
    (hsend : item.sendCommand capacity buf = some item') :
    Flow answers (requests ++ [buf]) item' texts := by
  obtain ⟨done, hrequests, hnumber, htexts⟩ := h
  obtain ⟨down, hdown, rfl⟩ := Option.map_eq_some_iff.1 hsend
  obtain ⟨-, hqueue, -, -⟩ := Channel.of_send hdown
  refine ⟨done, ?_, hnumber, htexts⟩
  rw [hrequests, hqueue, List.append_assoc]

theorem Flow.receiveCommandResponse {more : Bool} (h : Flow answers requests item texts)
    (hreceive : item.receiveCommandResponse = some (more, item')) :
    Flow answers requests item'
      (texts ++ (item.up.recv.map fun received => cStr received.1).toList) := by
  obtain ⟨done, hrequests, hnumber, htexts⟩ := h
  obtain ⟨⟨buf, up⟩, hup, heq⟩ := Option.map_eq_some_iff.1 hreceive
  obtain ⟨hqueue, -, -⟩ := Channel.of_recv hup
  cases heq
  refine ⟨done, hrequests, hnumber, ?_⟩
  rw [htexts, hup, hqueue]
  simp

/-- A client that is sent a request answers it next. -/
theorem Flow.clientStep (h : Flow answers requests item texts)
    (hnonempty : ∀ buf ∈ item.down.queue, buf ≠ [])
    (hstep : item.clientStep capacity answers = some item') :
    Flow answers requests item' texts := by
  obtain ⟨done, hrequests, hnumber, htexts⟩ := h
  unfold ServerItem.clientStep at hstep
  rcases hphase : item.client.phase with _ | runResult | _
  · simp only [hphase] at hstep
    obtain ⟨⟨buf, down⟩, hdown, rfl⟩ := Option.map_eq_some_iff.1 hstep
    obtain ⟨hqueue, -, -⟩ := Channel.of_recv hdown
    rw [hqueue, List.forall_mem_cons] at hnonempty
    have hclient : item.client.received answers buf =
        ⟨item.client.commandNumber + 1,
          .sending ((answers item.client.commandNumber (cStr buf)).getD [])⟩ := by
      rw [Client.received, if_pos (List.length_pos_iff.2 hnonempty.1)]
    refine ⟨done ++ [buf], ?_, ?_, ?_⟩
    · rw [hrequests, hqueue, List.append_cons]
    · rw [hclient, List.length_append, hnumber]
      rfl
    · rw [answered_concat, List.map_append, htexts, hclient, hnumber, hphase]
      simp [ClientPhase.runResult]
  · simp only [hphase] at hstep
    obtain ⟨up, hup, rfl⟩ := Option.map_eq_some_iff.1 hstep
    obtain ⟨-, hqueue, -, -⟩ := Channel.of_send hup
    refine ⟨done, hrequests, hnumber, ?_⟩
    rw [htexts, hphase, hqueue]
    simp [ClientPhase.runResult, Client.wasSend]
  · simp [hphase] at hstep

/-- The texts received are the first of the answers. -/
theorem Flow.texts_first (h : Flow answers requests item texts) :
    texts <+: (answered answers requests).map cStr := by
  obtain ⟨done, hrequests, -, htexts⟩ := h
  obtain ⟨more, hmore⟩ := answered_append answers done item.down.queue
  rw [hrequests, hmore, List.map_append, htexts]
  exact ⟨_, (List.append_assoc ..).symm⟩

/-- When as much was received from the item as was sent to it, every answer was received. -/
theorem Flow.texts_eq (h : Flow answers requests item texts) (hok : item.Ok capacity)
    (hreceived : item.up.received = item.down.sent) :
    texts = (answered answers requests).map cStr := by
  obtain ⟨done, hrequests, -, htexts⟩ := h
  have hdown := item.down.balance
  have hup := item.up.balance
  have hflow := hok.flow
  have hqueue : item.down.queue = [] := List.length_eq_zero_iff.1 (by omega)
  have hqueue' : item.up.queue = [] := List.length_eq_zero_iff.1 (by omega)
  have hheld : item.client.phase.held = 0 := by omega
  have hresult : item.client.phase.runResult = [] := by
    rcases hphase : item.client.phase with _ | runResult | _
    · rfl
    · rw [hphase] at hheld
      cases hheld
    · rfl
  rw [hrequests, hqueue, List.append_nil, htexts, hqueue', hresult]
  simp

end Flow

/-! ## The system -/

namespace Logged

/-- The commands are those sent so far, the one in hand and those still to be taken. -/
def Split (commands taken : List Base) (s : System) : Prop :=
  match s.phase with
  | .sending serializeBuffer =>
    ∃ command, serializeBuffer = command.serialize ∧ commands = taken ++ command :: s.commands
  | _ => commands = taken ++ s.commands

/-- The invariant of the system with its log. -/
structure Ok (capacity : Option ℕ) (answers : Answers) (commands : List Base) (l : Logged) :
    Prop where
  system : l.system.Ok capacity commands.length
  flow : ∃ taken : List Base, taken.length = l.system.commandIndex ∧ Split commands taken l.system ∧
    ∀ i, Flow answers (dealt taken i) (l.system.serverItems i) (l.texts i)

variable {capacity : Option ℕ} {answers : Answers} {commands : List Base} {l l' : Logged}

theorem ok_new : Ok capacity answers commands (new commands) :=
  ⟨System.ok_new, [], rfl, rfl, fun _ => flow_new⟩

/-- Replacing one item and its log. -/
theorem flow_update {requests texts texts' : Fin processCount → List Bytes}
    {items : Fin processCount → ServerItem} {i : Fin processCount} {item : ServerItem}
    (h : ∀ j, j ≠ i → Flow answers (requests j) (items j) (texts j) ∧ texts' j = texts j)
    (hitem : Flow answers (requests i) item (texts' i)) (j : Fin processCount) :
    Flow answers (requests j) (Function.update items i item j) (texts' j) := by
  by_cases hj : j = i
  · subst hj
    rwa [Function.update_self]
  · rw [Function.update_of_ne hj, (h j hj).2]
    exact (h j hj).1

theorem Ok.client {i : Fin processCount} (h : Ok capacity answers commands l)
    (hstep : step capacity answers l (.client i) = some l') :
    Ok capacity answers commands l' := by
  obtain ⟨system, hsystem, rfl⟩ := Option.map_eq_some_iff.1 hstep
  have hok := h.system.step hsystem
  obtain ⟨taken, hlength, hsplit, hflow⟩ := h.flow
  obtain ⟨item, hitem, rfl⟩ := Option.map_eq_some_iff.1 hsystem
  have htexts (j : Fin processCount) : l.texts j ++ l.system.logged (.client i) j = l.texts j := by
    simp [System.logged]
  refine ⟨hok, taken, hlength, hsplit, flow_update (fun j _ => ⟨hflow j, htexts j⟩) ?_⟩
  simp only [htexts]
  exact (hflow i).clientStep (h.system.items i).nonempty hitem

/-- The item that is asked gives its oldest response to the log. -/
theorem Ok.receiving {kept todo : List (Fin processCount)} {i : Fin processCount}
    (h : Ok capacity answers commands l) (hphase : l.system.phase = .receiving kept (i :: todo))
    (hstep : step capacity answers l .server = some l') : Ok capacity answers commands l' := by
  obtain ⟨system, hsystem, rfl⟩ := Option.map_eq_some_iff.1 hstep
  have hok := h.system.step hsystem
  obtain ⟨taken, hlength, hsplit, hflow⟩ := h.flow
  simp only [Split, hphase] at hsplit
  simp only [System.step, System.serverStep, hphase] at hsystem
  obtain ⟨⟨more, item⟩, hitem, rfl⟩ := Option.map_eq_some_iff.1 hsystem
  refine ⟨hok, taken, hlength, ?_, flow_update (fun j hj => ⟨hflow j, ?_⟩) ?_⟩
  · unfold Split
    split
    · next hsending =>
      exfalso
      simp only [Phase.afterItem] at hsending
      split at hsending <;> cases hsending
    · exact hsplit
  · simp [System.logged, hphase, hj]
  · simp only [System.logged, hphase, if_true]
    exact (hflow i).receiveCommandResponse hitem

/-- The command in hand goes to the next item. -/
theorem Ok.sending {buf : Bytes} (h : Ok capacity answers commands l)
    (hphase : l.system.phase = .sending buf)
    (hstep : step capacity answers l .server = some l') : Ok capacity answers commands l' := by
  obtain ⟨system, hsystem, rfl⟩ := Option.map_eq_some_iff.1 hstep
  have hok := h.system.step hsystem
  obtain ⟨taken, hlength, hsplit, hflow⟩ := h.flow
  simp only [Split, hphase] at hsplit
  obtain ⟨command, rfl, hcommands⟩ := hsplit
  simp only [System.step, System.serverStep, hphase] at hsystem
  obtain ⟨item, hitem, rfl⟩ := Option.map_eq_some_iff.1 hsystem
  have htexts (j : Fin processCount) : l.texts j ++ l.system.logged .server j = l.texts j := by
    simp [System.logged, hphase]
  have hdealt (j : Fin processCount) : dealt (taken ++ [command]) j = dealt taken j ++
      if j = l.system.currentItem then [command.serialize] else [] := by
    rw [dealt_concat, hlength]
    congr 1
    exact if_congr ⟨fun h => Fin.ext h.symm, fun h => h ▸ rfl⟩ rfl rfl
  refine ⟨hok, taken ++ [command], by simp [hlength], by simp [Split, hcommands],
    flow_update (fun j hj => ⟨?_, htexts j⟩) ?_⟩
  · rw [hdealt, if_neg hj, List.append_nil]
    exact hflow j
  · simp only [hdealt, if_true, htexts]
    exact (hflow _).sendCommand hitem

theorem Ok.step {e : System.Event} (h : Ok capacity answers commands l)
    (hstep : step capacity answers l e = some l') : Ok capacity answers commands l' := by
  cases e with
  | client i => exact h.client hstep
  | server =>
    rcases hphase : l.system.phase with _ | buf | ⟨kept, todo⟩ | _
    · obtain ⟨system, hsystem, rfl⟩ := Option.map_eq_some_iff.1 hstep
      have hok := h.system.step hsystem
      obtain ⟨taken, hlength, hsplit, hflow⟩ := h.flow
      have htexts (j : Fin processCount) : l.texts j ++ l.system.logged .server j = l.texts j := by
        simp [System.logged, hphase]
      simp only [Split, hphase] at hsplit
      simp only [System.step, System.serverStep, hphase] at hsystem
      rcases hcommands : l.system.commands with _ | ⟨command, rest⟩
      · simp only [hcommands] at hsystem
        cases hsystem
        refine ⟨hok, taken, hlength, ?_, fun j => ?_⟩
        · simpa [Split, Phase.afterItem, List.finRange, hcommands] using hsplit
        · simp only [htexts]
          exact hflow j
      · simp only [hcommands] at hsystem
        cases hsystem
        refine ⟨hok, taken, hlength, ⟨command, rfl, ?_⟩, fun j => ?_⟩
        · rw [hsplit, hcommands]
        · simp only [htexts]
          exact hflow j
    · exact h.sending hphase hstep
    · rcases todo with _ | ⟨i, todo⟩
      · simp [Logged.step, System.step, System.serverStep, hphase] at hstep
      · exact h.receiving hphase hstep
    · simp [Logged.step, System.step, System.serverStep, hphase] at hstep

theorem Reachable.ok (h : Reachable capacity answers commands l) :
    Ok capacity answers commands l :=
  Machine.Reachable.invariant (Ok capacity answers commands) ok_new (fun _ _ _ => Ok.step) h

/-- A log that was filled from an item up to some command is the first part of the whole. -/
theorem expected_append (taken rest : List Base) (i : Fin processCount) :
    (answered answers (dealt taken i)).map cStr <+: expected answers (taken ++ rest) i := by
  obtain ⟨more, hmore⟩ := dealt_append taken rest i
  obtain ⟨more', hmore'⟩ := answered_append answers (dealt taken i) more
  rw [expected, hmore, hmore', List.map_append]
  exact List.prefix_append _ _

theorem Ok.exists_append (h : Ok capacity answers commands l) :
    ∃ taken rest, commands = taken ++ rest ∧
      ∀ i, Flow answers (dealt taken i) (l.system.serverItems i) (l.texts i) := by
  obtain ⟨taken, -, hsplit, hflow⟩ := h.flow
  unfold Split at hsplit
  split at hsplit
  · obtain ⟨command, -, hcommands⟩ := hsplit
    exact ⟨taken, _, hcommands, hflow⟩
  · exact ⟨taken, _, hsplit, hflow⟩

/-- In every interleaving of the server and its clients, with channels of any capacity: the texts
received for an item are the first answers to the commands dealt to it, in their order and none left
out, and they are all of them when the server has returned. -/
theorem texts_returned (h : Reachable capacity answers commands l) (i : Fin processCount) :
    l.texts i <+: expected answers commands i ∧
      (l.system.phase = .returned → l.texts i = expected answers commands i) := by
  have hok := h.ok
  constructor
  · obtain ⟨taken, rest, rfl, hflow⟩ := hok.exists_append
    exact (hflow i).texts_first.trans (expected_append taken rest i)
  · intro hreturned
    obtain ⟨taken, -, hsplit, hflow⟩ := hok.flow
    have hphase := hok.system.phase
    rw [hreturned] at hphase
    obtain ⟨hcommands, -, hreceived⟩ := hphase
    simp only [Split, hreturned, hcommands, List.append_nil] at hsplit
    rw [(hflow i).texts_eq (hok.system.items i) (hreceived i), hsplit]
    rfl

/-- With unbounded channels the server can return from at least four commands. -/
theorem exists_returned (answers : Answers) (hcommands : 4 ≤ commands.length) :
    ∃ l, Reachable none answers commands l ∧ l.system.phase = .returned := by
  have hlt (l : Logged) (e : System.Event) (l' : Logged) (h : step none answers l e = some l') :
      l'.system.steps < l.system.steps := by
    obtain ⟨system, hsystem, rfl⟩ := Option.map_eq_some_iff.1 h
    exact System.steps_lt _ _ _ hsystem
  obtain ⟨l, hl, hstuck⟩ := Machine.exists_stuck hlt (new commands)
  have hok := Reachable.ok hl
  have hstuck' : l.system.Stuck none answers := by
    intro e
    simpa [step] using hstuck e
  exact ⟨l, hl, hok.system.returned_of_stuck hcommands hstuck'⟩

theorem texts_returned_five :
    ∃ l, Reachable none (fun n _ => some [48 + n.toUInt8]) System.fiveCommands l ∧
      l.system.phase = .returned ∧ l.texts 0 = [[48], [49]] := by
  obtain ⟨l, hl, hreturned⟩ := exists_returned (fun n _ => some [48 + n.toUInt8])
    (by decide : 4 ≤ System.fiveCommands.length)
  exact ⟨l, hl, hreturned, (texts_returned hl 0).2 hreturned⟩

/-! ## Against the in-process loop -/

/-- The item that the command with number `n` is dealt to. -/
def itemOf (n : ℕ) : Fin processCount := ⟨n % processCount, Nat.mod_lt _ (by decide)⟩

/-- The command with number `n` is number `n / 4` of its item. -/
theorem getElem?_dealt (commands : List Base) (n : ℕ) :
    (dealt commands (itemOf n))[n / processCount]? = (commands[n]?).map Base.serialize := by
  induction commands using List.reverseRecOn with
  | nil => rfl
  | append_singleton commands command ih =>
    have hlength := length_dealt commands (itemOf n)
    have hitem : (itemOf n).val = n % 4 := rfl
    have hcount : processCount = 4 := rfl
    simp only [share, hitem] at hlength
    rw [dealt_concat, hitem]
    rcases Nat.lt_trichotomy n commands.length with hn | rfl | hn
    · have hlt : n / processCount < (dealt commands (itemOf n)).length := by
        rw [hlength, hcount]
        omega
      rw [List.getElem?_append_left hlt, ih, List.getElem?_append_left hn]
    · have hlast : commands.length / processCount =
          (dealt commands (itemOf commands.length)).length := by
        rw [hlength, hcount]
        omega
      rw [if_pos rfl, hlast, List.getElem?_concat_length, List.getElem?_concat_length,
        Option.map_some]
    · rw [List.getElem?_eq_none, List.getElem?_eq_none, Option.map_none]
      · simpa using hn
      · rw [List.length_append, hlength]
        split_ifs with h
        · rw [List.length_singleton]
          rw [hcount] at h ⊢
          omega
        · rw [List.length_nil, hcount]
          omega

theorem getElem?_expected (answers : Answers) (commands : List Base) (n : ℕ) :
    (expected answers commands (itemOf n))[n / processCount]? =
      (commands[n]?).map fun command =>
        cStr ((answers (n / processCount) (cStr command.serialize)).getD []) := by
  rw [expected, answered, List.getElem?_map, List.getElem?_mapIdx, getElem?_dealt]
  simp [Function.comp_def]

end Logged

/-- `Count` as a command of the generator. -/
def Base.ofCount (c : Count) : Base := ⟨CountCommand, c.write⟩

theorem Base.serialize_ofCount (c : Count) : (Base.ofCount c).serialize = c.message := by
  simp [Base.serialize, Base.ofCount, Count.message, Count.serialize]

namespace Logged

/-- With the commands of a generator and the clients of `command_impl.h`: when the server has
returned, the in-process loop's response to the command with number `n` is the text `n / 4` of the
item `n % 4`, and there are no other texts. -/
theorem texts_inproc {t : Target} {file : Bytes} {g : CommandGenerator}
    (h : Reachable capacity (fun _ => answer t file) (g.commands.map Base.ofCount) l)
    (hreturned : l.system.phase = .returned) (n : ℕ) :
    (l.texts (itemOf n))[n / processCount]? =
      ((Inproc.main t file g)[n]?).map Result.response := by
  obtain ⟨taken, -, hsplit, hflow⟩ := h.ok.flow
  have hphase := h.ok.system.phase
  rw [hreturned] at hphase
  obtain ⟨hcommands, -, hreceived⟩ := hphase
  simp only [Split, hreturned, hcommands, List.append_nil] at hsplit
  have htexts := (hflow (itemOf n)).texts_eq (h.ok.system.items _) (hreceived _)
  rw [htexts, ← hsplit, ← expected, getElem?_expected, Inproc.main_eq, List.getElem?_map,
    List.getElem?_map, Option.map_map, Option.map_map]
  refine congrArg (Option.map · _) (funext fun c => ?_)
  simp only [Function.comp_apply, Base.serialize_ofCount, cStr_eq_self c.zero_notMem_message,
    answer_self, Option.getD_some, cStr_eq_self (c.zero_notMem_run t file)]

theorem texts_inproc_four :
    ∃ l, Reachable none (fun _ => answer .x64 [])
        ((CommandGenerator.commands ⟨4, fun _ => 7⟩).map Base.ofCount) l ∧
      l.system.phase = .returned ∧
      (l.texts 3)[0]? = ((Inproc.main .x64 [] ⟨4, fun _ => 7⟩)[3]?).map Result.response := by
  obtain ⟨l, hl, hreturned⟩ := exists_returned (fun _ => answer .x64 [])
    (by decide : 4 ≤ ((CommandGenerator.commands ⟨4, fun _ => 7⟩).map Base.ofCount).length)
  exact ⟨l, hl, hreturned, texts_inproc hl hreturned 3⟩

end Logged

end NitroCloud.Nanomsg
