import NitroCloud.Foundations.Paired
import NitroCloud.CsBoost.Accounting
import NitroCloud.CloudPrototypes.OneProcess

/-!
# The asynchronous system computes what the in-process loop computes

The invariant ties each task of the pull to its connection (`LinkOk`): an idle task has an empty
connection, and the connection of a busy task carries the request of its operation or the answer to
it.  With the accounting of the dispatcher, the results in a state with nothing outstanding are
those of the in-process loop.
-/

namespace NitroCloud

open Bytes CsBoost Paired

/-! ## One connection -/

/-- The operation serves the command: it writes the request, or waits for the answer with a buffer
of zeros. -/
def Serves (c : Count) (op : AsyncOp) : Prop :=
  op = .write ⟨c.message, []⟩ c.message ∨
    op = .read ⟨c.message, []⟩ (List.replicate MESSAGE_SIZE 0)

/-- The operations outstanding on a connection, and the messages on their way to the client and to
the server. -/
inductive Exchange (t : Target) (file : Bytes) : List AsyncOp → List Bytes → List Bytes → Prop where
  | idle : Exchange t file [] [] []
  | request {c : Count} {op : AsyncOp} (h : Serves c op) : Exchange t file [op] [c.message] []
  | response {c : Count} {op : AsyncOp} (h : Serves c op) : Exchange t file [op] [] [c.run t file]

/-- The receive buffer of the client has its full length, and is zero behind the longest message. -/
structure PdfBox.Ok (client : PdfBox) : Prop where
  length : client.bufferRecv.length = MESSAGE_SIZE
  zero : ∀ b ∈ client.bufferRecv.drop 15, b = 0

/-- What ties a task to its connection. -/
structure LinkOk (t : Target) (file : Bytes) (task : ServerTask) (link : Link) : Prop where
  exchange : Exchange t file task.pending link.down link.up
  client : link.client.Ok

variable {t : Target} {file : Bytes}

/-- A message on its way to the client is the request of the outstanding operation. -/
theorem Exchange.of_down {ops : List AsyncOp} {received : Bytes} {down up : List Bytes}
    (h : Exchange t file ops (received :: down) up) :
    ∃ c op, Serves c op ∧ ops = [op] ∧ received = c.message ∧ down = [] ∧ up = [] := by
  cases h with
  | request h => exact ⟨_, _, h, rfl, rfl, rfl, rfl⟩

/-- A message on its way to the server is the answer for the outstanding operation. -/
theorem Exchange.of_up {ops : List AsyncOp} {received : Bytes} {down up : List Bytes}
    (h : Exchange t file ops down (received :: up)) :
    ∃ c op, Serves c op ∧ ops = [op] ∧ received = c.run t file ∧ down = [] ∧ up = [] := by
  cases h with
  | response h => exact ⟨_, _, h, rfl, rfl, rfl, rfl⟩

theorem PdfBox.ok_new : PdfBox.new.Ok := by
  refine ⟨List.length_replicate, fun b hb => ?_⟩
  exact List.eq_of_mem_replicate (List.mem_of_mem_drop hb)

theorem linkOk_new : LinkOk t file .new .new := ⟨.idle, PdfBox.ok_new⟩

/-- The C string in the client's buffer ends inside it. -/
theorem PdfBox.Ok.nul_mem {client : PdfBox} (h : client.Ok) : (0 : UInt8) ∈ client.bufferRecv := by
  have hlength : (client.bufferRecv.drop 15).length = 2033 := by
    rw [List.length_drop, h.length]
    rfl
  obtain ⟨b, hb⟩ := List.exists_mem_of_length_pos (hlength ▸ (by decide : 0 < 2033))
  exact h.zero b hb ▸ List.mem_of_mem_drop hb

theorem PdfBox.Ok.store {client : PdfBox} (h : client.Ok) (c : Count) (op : ClientOp) :
    PdfBox.Ok ⟨client.bufferRecv.store c.message, op⟩ := by
  constructor
  · rw [c.length_store_message (by rw [h.length]; decide), h.length]
  · rw [c.drop_store_message]
    exact h.zero

/-- The client answers the command it was sent, whatever its buffer held before. -/
theorem PdfBox.handleRead_message (client : PdfBox) (c : Count) :
    client.handleRead t file c.message =
      (⟨client.bufferRecv.store c.message, .writing (c.run t file)⟩, c.run t file) := by
  simp only [PdfBox.handleRead, answer, fromStream_store, Option.map_some, Option.getD_some]

theorem post_of_ne_nil {queue : List Bytes} {bs : Bytes} (h : bs ≠ []) :
    post queue bs = queue ++ [bs] := if_neg h

theorem LinkOk.clientStep {task : ServerTask} {link link' : Link} (h : LinkOk t file task link)
    (hstep : link.clientStep t file = some link') : LinkOk t file task link' := by
  unfold Link.clientStep at hstep
  split at hstep
  case h_1 =>
    cases hstep
    exact ⟨h.exchange, h.client.length, h.client.zero⟩
  case h_2 received down hop hdown =>
    split_ifs at hstep
    have hexchange := h.exchange
    rw [hdown] at hexchange
    obtain ⟨c, op, hserves, hops, rfl, rfl, hup⟩ := hexchange.of_down
    rw [PdfBox.handleRead_message, hup] at hstep
    cases hstep
    refine ⟨?_, h.client.store c _⟩
    rw [hops, post_of_ne_nil (c.run_ne_nil t file)]
    exact .response hserves
  case h_3 => cases hstep
  case h_4 =>
    cases hstep
    exact ⟨h.exchange, h.client.length, h.client.zero⟩

/-- `SendCommad` on an idle task puts the request of the command on the connection. -/
theorem LinkOk.sendCommad {task : ServerTask} {link : Link} (h : LinkOk t file task link)
    (hidle : task.pending = []) (c : Count) :
    LinkOk t file (task.sendCommad c)
      (link.start ((task.sendCommad c).pending.drop task.pending.length)) := by
  have hexchange := h.exchange
  rw [hidle] at hexchange
  obtain ⟨down, up, client⟩ := link
  cases hexchange with
  | idle =>
    have hne : c.message ≠ [] := by simp [Count.message_eq]
    refine ⟨?_, ?_⟩
    · simp only [ServerTask.sendCommad, hidle, List.nil_append, List.length_nil, List.drop_zero,
        Link.start, post_of_ne_nil hne]
      exact .request (.inl rfl)
    · simpa only [ServerTask.sendCommad, hidle, List.nil_append, List.length_nil, List.drop_zero,
        Link.start] using h.client

/-- The closure gives each idle task a command and puts its request on the task's connection. -/
theorem linkOk_dispatch (g : CommandGenerator) {tasks : List ServerTask} {links : List Link}
    (hok : ∀ task ∈ tasks, task.Ok) (h : List.Forall₂ (LinkOk t file) tasks links) :
    List.Forall₂ (LinkOk t file) (Server.dispatch g tasks).1
      (OneProcess.started tasks (Server.dispatch g tasks).1 links) := by
  induction h generalizing g with
  | nil => exact .nil
  | @cons task link tasks links hlink h ih =>
    have hrest : ∀ task ∈ tasks, task.Ok := fun t ht => hok t (by simp [ht])
    have hstays : link.start (task.pending.drop task.pending.length) = link := by
      rw [List.drop_length]
      rfl
    rw [Server.dispatch]
    split_ifs with hb
    · simpa [OneProcess.started, hstays] using ⟨hlink, ih g hrest⟩
    · rcases hnext : g.nextCommand with ⟨_ | c, g'⟩
      · simpa [OneProcess.started, hstays] using ⟨hlink, ih g' hrest⟩
      · have hidle := (hok task (by simp)).idle hb
        exact .cons (hlink.sendCommad hidle c) (ih g' hrest)

/-- A write that serves a command is followed by the read that serves it. -/
theorem serves_read {c : Count} {result : Result} {buffer : Bytes}
    (h : Serves c (.write result buffer)) :
    Serves c (.read result (List.replicate MESSAGE_SIZE 0)) := by
  rcases h with h | h
  · cases h
    exact .inr rfl
  · cases h

/-- The server's `HandleWrite` leaves the messages as they are. -/
theorem LinkOk.handleWrite {result : Result} {buffer : Bytes} {link : Link}
    (h : LinkOk t file ⟨true, [.write result buffer]⟩ link) :
    LinkOk t file (ServerTask.handleWrite ⟨true, []⟩ result false) link := by
  obtain ⟨hexchange, hclient⟩ := h
  obtain ⟨down, up, client⟩ := link
  refine ⟨?_, hclient⟩
  cases hexchange with
  | request hserves => exact .request (serves_read hserves)
  | response hserves => exact .response (serves_read hserves)

/-- The server's `HandleRead` takes the answer off the connection and records it. -/
theorem LinkOk.handleRead {result : Result} {buffer received : Bytes} {down up : List Bytes}
    {client : PdfBox}
    (h : LinkOk t file ⟨true, [.read result buffer]⟩ ⟨down, received :: up, client⟩) :
    LinkOk t file ⟨false, []⟩ ⟨down, up, client⟩ ∧
      ∃ c : Count, ServerTask.handleRead ⟨true, []⟩ result (buffer.store received) false =
        (⟨false, []⟩, some ⟨c.message, c.run t file⟩) := by
  obtain ⟨hexchange, hclient⟩ := h
  obtain ⟨c, op, hserves, hops, rfl, rfl, rfl⟩ := hexchange.of_up
  refine ⟨⟨.idle, hclient⟩, c, ?_⟩
  cases hops
  rcases hserves with hserves | hserves
  · cases hserves
  · cases hserves
    simp [ServerTask.handleRead, cStr_store_replicate (c.zero_notMem_run t file)]

/-! ## The system -/

namespace OneProcess

/-- The invariant of the system. -/
structure Inv (t : Target) (file : Bytes) (g : CommandGenerator) (s : OneProcess) : Prop where
  /-- The server runs as it does on its own. -/
  server : Server.Reachable g s.server
  links : List.Forall₂ (LinkOk t file) s.server.m_taskPull s.links
  /-- Each result is a request with its answer. -/
  results : ∀ r ∈ s.server.m_collection, ∃ c : Count, r = ⟨c.message, c.run t file⟩
  lost : s.server.lost = []

variable {g : CommandGenerator} {s s' : OneProcess}

theorem inv_new : Inv t file g (new g) :=
  ⟨Machine.Reachable.refl _ _, .nil, by simp [new, Server.new], rfl⟩

/-- A step of the server that leaves the tasks and the results alone. -/
theorem Inv.of_server {e : Server.Event} {server : Server} (h : Inv t file g s)
    (hstep : s.server.step e = some server) (hpull : server.m_taskPull = s.server.m_taskPull)
    (hcollection : server.m_collection = s.server.m_collection)
    (hlost : server.lost = s.server.lost) : Inv t file g { s with server := server } := by
  refine ⟨h.server.trans (.single hstep), ?_, ?_, ?_⟩
  · rw [hpull]
    exact h.links
  · rw [hcollection]
    exact h.results
  · rw [hlost]
    exact h.lost

theorem Inv.accept (h : Inv t file g s) (hstep : step t file s .accept = some s') :
    Inv t file g s' := by
  simp only [OneProcess.step, Option.map_eq_some_iff] at hstep
  obtain ⟨server, hserver, rfl⟩ := hstep
  have hreach := h.server.trans (.single hserver)
  simp only [Server.step] at hserver
  split_ifs at hserver
  cases hserver
  unfold Server.handleAccept at hreach ⊢
  rcases hstop : s.server.m_stopLoop with _ | _
  · simp only [hstop, Bool.false_eq_true, if_false] at hreach ⊢
    exact ⟨hreach, List.rel_append h.links (.cons linkOk_new .nil), h.results, h.lost⟩
  · simp only [hstop, Bool.false_eq_true, if_false, if_true] at hreach ⊢
    exact ⟨hreach, h.links, h.results, h.lost⟩

theorem Inv.write {i k : ℕ} (h : Inv t file g s) (hstep : step t file s (.write i k) = some s') :
    Inv t file g s' := by
  simp only [OneProcess.step, Option.map_eq_some_iff] at hstep
  obtain ⟨server, hserver, rfl⟩ := hstep
  have hreach := h.server.trans (.single hserver)
  simp only [Server.step] at hserver
  split at hserver
  case h_2 => cases hserver
  case h_1 task result buffer hop =>
    cases hserver
    obtain ⟨rfl, rfl, hget⟩ := Server.takeOp_eq h.server.accounted.tasks hop
    obtain ⟨link, hlink, hok⟩ := exists_of_getElem?_left h.links hget
    exact ⟨hreach, forall₂_set_left h.links hlink hok.handleWrite, h.results, h.lost⟩

theorem Inv.read {i k : ℕ} (h : Inv t file g s) (hstep : step t file s (.read i k) = some s') :
    Inv t file g s' := by
  simp only [OneProcess.step] at hstep
  split at hstep
  case h_2 => cases hstep
  case h_1 down received up client hlink =>
    rw [Option.map_eq_some_iff] at hstep
    obtain ⟨server, hserver, rfl⟩ := hstep
    have hreach := h.server.trans (.single hserver)
    simp only [Server.step] at hserver
    split at hserver
    case h_3 => cases hserver
    case h_2 hreceived => cases hreceived
    case h_1 task result buffer bs hop hreceived =>
      cases hreceived
      split_ifs at hserver
      cases hserver
      obtain ⟨rfl, rfl, hget⟩ := Server.takeOp_eq h.server.accounted.tasks hop
      obtain ⟨link, hlink', hok⟩ := exists_of_getElem?_left h.links hget
      obtain rfl := Option.some.inj (hlink.symm.trans hlink')
      obtain ⟨hidle, c, hread⟩ := hok.handleRead
      rw [hread] at hreach ⊢
      refine ⟨hreach, forall₂_set h.links i hidle, ?_, h.lost⟩
      intro r hr
      rcases List.mem_append.1 hr with hr | hr
      · exact h.results r hr
      · exact ⟨c, by simpa using hr⟩

theorem Inv.client {i : ℕ} (h : Inv t file g s) (hstep : step t file s (.client i) = some s') :
    Inv t file g s' := by
  simp only [OneProcess.step, Option.bind_eq_some_iff, Option.map_eq_some_iff] at hstep
  obtain ⟨link, hlink, link', hclient, rfl⟩ := hstep
  obtain ⟨task, htask, hok⟩ := exists_of_getElem?_right h.links hlink
  exact ⟨h.server, forall₂_set_right h.links htask (hok.clientStep hclient), h.results, h.lost⟩

theorem Inv.step {e : Event} (h : Inv t file g s) (hstep : step t file s e = some s') :
    Inv t file g s' := by
  cases e with
  | startListen =>
    simp only [OneProcess.step, Option.map_eq_some_iff] at hstep
    obtain ⟨server, hserver, rfl⟩ := hstep
    have hsame := hserver
    cases hsame
    exact h.of_server hserver rfl rfl rfl
  | accept => exact h.accept hstep
  | sendCommands =>
    simp only [OneProcess.step, Option.map_eq_some_iff] at hstep
    obtain ⟨server, hserver, rfl⟩ := hstep
    have hreach := h.server.trans (.single hserver)
    cases hserver
    exact ⟨hreach, linkOk_dispatch _ h.server.accounted.tasks h.links, h.results, h.lost⟩
  | stop =>
    simp only [OneProcess.step, Option.map_eq_some_iff] at hstep
    obtain ⟨server, hserver, rfl⟩ := hstep
    have hsame := hserver
    cases hsame
    exact h.of_server hserver rfl rfl rfl
  | write i k => exact h.write hstep
  | read i k => exact h.read hstep
  | client i => exact h.client hstep

theorem Reachable.inv (h : Reachable t file g s) : Inv t file g s :=
  Machine.Reachable.invariant (Inv t file g) inv_new (fun _ _ _ => Inv.step) h

/-- The text that a client decodes always ends inside its buffer. -/
theorem Reachable.nul_mem (h : Reachable t file g s) {link : Link} (hlink : link ∈ s.links) :
    (0 : UInt8) ∈ link.client.bufferRecv := by
  obtain ⟨i, hi⟩ := List.getElem?_of_mem hlink
  obtain ⟨task, -, hok⟩ := exists_of_getElem?_right h.inv.links hi
  exact hok.client.nul_mem

/-- The result that the in-process loop records for a request. -/
def recorded (t : Target) (file : Bytes) (request : Bytes) : Result :=
  ⟨request, (answer t file request).getD []⟩

theorem recorded_message (c : Count) :
    recorded t file c.message = ⟨c.message, c.run t file⟩ := by
  rw [recorded, answer_self, Option.getD_some]

/-- With any number of connections and any order of the handlers: once the generator is exhausted
and no operation is outstanding, the results are, with multiplicity, those of the in-process loop
for the same commands. -/
theorem collection_eq_inproc (h : Reachable t file g s)
    (hexhausted : s.server.commandGenerator.hasCommands = false)
    (hidle : ∀ task ∈ s.server.m_taskPull, task.pending = []) :
    (↑s.server.m_collection : Multiset Result) = ↑(Inproc.main t file g) := by
  have hinv := h.inv
  -- the requests of the results are the messages of all commands
  have htaken : s.server.taken = g.commands := by
    have hcommands := hinv.server.commands
    rwa [(CommandGenerator.exhausted hexhausted).2, List.append_nil] at hcommands
  have hrequests : (↑(s.server.m_collection.map Result.request) : Multiset Bytes) =
      ↑(g.commands.map Count.message) := by
    have haccounted := hinv.server.accounted.commands
    rw [requests_eq_zero_iff.2 hidle, hinv.lost, htaken] at haccounted
    simpa using haccounted.symm
  -- and each result is determined by its request
  have hresults : (s.server.m_collection.map Result.request).map (recorded t file) =
      s.server.m_collection := by
    rw [List.map_map]
    refine (List.map_congr_left fun r hr => ?_).trans (List.map_id _)
    obtain ⟨c, rfl⟩ := hinv.results r hr
    exact recorded_message c
  have hmain : Inproc.main t file g = (g.commands.map Count.message).map (recorded t file) := by
    rw [Inproc.main_eq, List.map_map]
    exact List.map_congr_left fun c _ => (recorded_message c).symm
  rw [← hresults, ← Multiset.map_coe, hrequests, Multiset.map_coe, hmain]

/-- One connection, whose only command was answered. -/
def oneAnswered : OneProcess where
  server :=
    { m_stopLoop := false
      accepting := 1
      m_taskPull := [⟨false, []⟩]
      commandGenerator := ⟨0, fun _ => 7⟩
      m_collection := [⟨Count.message ⟨7⟩, Count.run .x64 [] ⟨7⟩⟩]
      taken := [⟨7⟩]
      lost := [] }
  links := [⟨[], [], ⟨store (List.replicate MESSAGE_SIZE 0) (Count.message ⟨7⟩),
    .writing (Count.run .x64 [] ⟨7⟩)⟩⟩]

theorem reachable_oneAnswered : Reachable .x64 [] ⟨1, fun _ => 7⟩ oneAnswered := by
  let c : Count := ⟨7⟩
  -- the command has been sent and the write has completed
  let sent : OneProcess := ⟨
    { m_stopLoop := false
      accepting := 1
      m_taskPull := [⟨true, [.read ⟨c.message, []⟩ (List.replicate MESSAGE_SIZE 0)]⟩]
      commandGenerator := ⟨0, fun _ => 7⟩
      m_collection := []
      taken := [c]
      lost := [] }, [⟨[c.message], [], ⟨List.replicate MESSAGE_SIZE 0, .reading⟩⟩]⟩
  have hsent : Reachable .x64 [] ⟨1, fun _ => 7⟩ sent :=
    ⟨[.startListen, .accept, .sendCommands, .client 0, .write 0 0], rfl⟩
  have hclient : step .x64 [] sent (.client 0) = some { sent with
      links := [⟨[], [c.run .x64 []],
        ⟨store (List.replicate MESSAGE_SIZE 0) c.message, .writing (c.run .x64 [])⟩⟩] } := by
    have hlength : c.message.length ≤ (List.replicate MESSAGE_SIZE (0 : UInt8)).length := by
      rw [List.length_replicate]
      exact c.length_message_le.trans (by decide)
    simp only [step, sent, List.getElem?_cons_zero, Option.bind_some, Link.clientStep,
      if_pos hlength, PdfBox.handleRead_message, post_of_ne_nil (c.run_ne_nil .x64 []),
      List.nil_append, Option.map_some, List.set_cons_zero]
  refine (hsent.trans (.single hclient)).trans (.single (e := .read 0 0) ?_)
  have hlength : (c.run .x64 []).length ≤ (List.replicate MESSAGE_SIZE (0 : UInt8)).length := by
    rw [List.length_replicate]
    exact (c.length_run_le .x64 []).trans (by decide)
  simp only [step, sent, List.getElem?_cons_zero, Server.step, Server.takeOp, Option.bind_some,
    Option.map_some, if_pos hlength, ServerTask.handleRead,
    cStr_store_replicate (c.zero_notMem_run .x64 [])]
  rfl

theorem collection_eq_inproc_oneAnswered :
    (↑oneAnswered.server.m_collection : Multiset Result) =
      ↑(Inproc.main .x64 [] ⟨1, fun _ => 7⟩) :=
  collection_eq_inproc reachable_oneAnswered rfl (by simp [oneAnswered])

end OneProcess

end NitroCloud
