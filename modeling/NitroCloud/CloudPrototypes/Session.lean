import NitroCloud.CloudPrototypes.Refinement
import NitroCloud.CloudPrototypes.Statistic

/-!
# The program around the asynchronous server

`main` of `cloud_prototypes/one_process/one_process.cpp` with `ASYNC_COMMUNCIATION`.  It starts to
listen, launches `pdf_box.exe`, posts `SendCommandSession` and waits for the service thread, whose
`ioService.run` returns when nothing keeps it busy: no work object, no posted handler and no
outstanding operation.  Then it dumps the results.  `SendCommandSession` posts a `SendCommands`
closure and itself while the generator has commands, and stops the server otherwise.

The posted handlers run one at a time and in any order.  `SendCommandSession` stops the server when
the last command is handed out, while its answer is still on the way, so that the dump is complete
(`dumped_complete`) rests on the wait alone, and on operations that succeed and carry their messages
whole.  `exists_dumped` says that the wait never comes to a state from which it could not end.
-/

namespace NitroCloud

open Bytes CsBoost Paired

/-! ## The program -/

namespace OneProcess

/-- The events that the service thread and the clients take part in by themselves. -/
def Event.isIo : Event → Bool
  | .accept => true
  | .write _ _ => true
  | .read _ _ => true
  | .client _ => true
  | _ => false

/-- The events that complete an operation of a connection. -/
def Event.isExchange : Event → Bool
  | .write _ _ => true
  | .read _ _ => true
  | .client _ => true
  | _ => false

end OneProcess

/-- A handler posted on `ioService` that has not run. -/
inductive Posted where
  | sendCommandSession
  /-- The closure of `SendCommands`, which the strand runs at once. -/
  | sendCommands
deriving DecidableEq, Repr

/-- How far `main` has come. -/
inductive Phase where
  | created
  | listening
  | launched
  /-- `main` is in `serviceThread.join`. -/
  | joining
  | dumped
  /-- `main` has returned with the service thread running, which ends the program. -/
  | terminated
deriving DecidableEq, Repr

/-- The program. -/
structure Session where
  process : OneProcess
  phase : Phase
  posted : List Posted
  /-- The server still holds its `io_service::work`. -/
  m_serviceHolder : Bool
  /-- The file that `Dump` writes. -/
  boostResult : Option Bytes

namespace Session

def new (commandGenerator : CommandGenerator) : Session where
  process := .new commandGenerator
  phase := .created
  posted := []
  m_serviceHolder := true
  boostResult := none

/-- `ioService.run` is on the service thread. -/
def Running (s : Session) : Prop := s.phase ≠ .dumped ∧ s.phase ≠ .terminated

instance (s : Session) : Decidable s.Running := inferInstanceAs (Decidable (_ ∧ _))

/-- Nothing keeps `ioService.run` from returning. -/
def Finished (s : Session) : Prop :=
  s.m_serviceHolder = false ∧ s.posted = [] ∧ s.process.server.accepting = 0 ∧
    ∀ task ∈ s.process.server.m_taskPull, task.pending = []

instance (s : Session) : Decidable s.Finished := inferInstanceAs (Decidable (_ ∧ _ ∧ _ ∧ _))

/-- `ServerAsync::Stop`.  The connection that it makes to its own acceptor completes the accept. -/
def stop (t : Target) (file : Bytes) (s : Session) : Option Session :=
  (s.process.step t file .stop).map fun process =>
    { s with process := process, m_serviceHolder := false }

/-- `SendCommandSession`. -/
def sendCommandSession (t : Target) (file : Bytes) (s : Session) : Option Session :=
  if s.process.server.commandGenerator.hasCommands then
    some { s with posted := s.posted ++ [.sendCommands, .sendCommandSession] }
  else s.stop t file

/-- A posted handler. -/
def handle (t : Target) (file : Bytes) (s : Session) : Posted → Option Session
  | .sendCommandSession => s.sendCommandSession t file
  | .sendCommands =>
    (s.process.step t file .sendCommands).map fun process => { s with process := process }

inductive Event where
  | startListen
  | createProcess (success : Bool)
  /-- `main` posts `SendCommandSession` and joins the service thread. -/
  | post
  /-- The `k`-th posted handler runs. -/
  | handler (k : ℕ)
  | io (e : OneProcess.Event)
  /-- The service thread has ended and `main` dumps the results. -/
  | dump
deriving DecidableEq, Repr

def step (t : Target) (file : Bytes) (s : Session) : Event → Option Session
  | .startListen =>
    if s.phase = .created then
      (s.process.step t file .startListen).map fun process =>
        { s with process := process, phase := .listening }
    else none
  | .createProcess success =>
    if s.phase = .listening then
      some { s with phase := if success then .launched else .terminated }
    else none
  | .post =>
    if s.phase = .launched then
      some { s with phase := .joining, posted := s.posted ++ [.sendCommandSession] }
    else none
  | .handler k =>
    if s.Running then
      (s.posted[k]?).bind (handle t file { s with posted := s.posted.eraseIdx k })
    else none
  | .io e =>
    if s.Running ∧ e.isIo then
      (s.process.step t file e).map fun process => { s with process := process }
    else none
  | .dump =>
    if s.phase = .joining ∧ s.Finished then
      some { s with
        phase := .dumped
        boostResult := some (Statistic.dump s.process.server.m_collection) }
    else none

/-- The states that the program can reach. -/
def Reachable (t : Target) (file : Bytes) (commandGenerator : CommandGenerator) (s : Session) :
    Prop :=
  Machine.Reachable (step t file) (new commandGenerator) s

end Session

/-! ## Every command at every moment -/

variable {t : Target} {file : Bytes} {g : CommandGenerator}

namespace OneProcess

variable {s s' : OneProcess}

/-- The results that are there, those of the operations outstanding and those of the commands still
to be handed out are, with multiplicity, the results of the in-process loop. -/
theorem Inv.balance (h : Inv t file g s) :
    (↑s.server.m_collection : Multiset Result) +
        (requests s.server.m_taskPull).map (recorded t file) +
        ↑(s.server.commandGenerator.commands.map fun c => recorded t file c.message) =
      ↑(Inproc.main t file g) := by
  have hcollection : (↑s.server.m_collection : Multiset Result) =
      (↑(s.server.m_collection.map Result.request) : Multiset Bytes).map (recorded t file) := by
    rw [Multiset.map_coe, List.map_map]
    refine congrArg _ ((List.map_id _).symm.trans (List.map_congr_left fun r hr => ?_))
    obtain ⟨c, rfl⟩ := h.results r hr
    exact (recorded_message c).symm
  have htaken : (↑(s.server.taken.map Count.message) : Multiset Bytes) =
      ↑(s.server.m_collection.map Result.request) + requests s.server.m_taskPull := by
    simpa [h.lost] using h.server.accounted.commands
  have hmain : Inproc.main t file g = g.commands.map fun c => recorded t file c.message := by
    rw [Inproc.main_eq]
    exact List.map_congr_left fun c _ => (recorded_message c).symm
  rw [hcollection, ← Multiset.map_add, ← htaken, hmain, ← h.server.commands, List.map_append,
    ← Multiset.coe_add, Multiset.map_coe, List.map_map]
  rfl

/-! ## The operations complete -/

/-- An operation that completes a command's exchange leaves the rest of the server as it is. -/
structure Same (s s' : OneProcess) : Prop where
  commandGenerator : s'.server.commandGenerator = s.server.commandGenerator
  m_stopLoop : s'.server.m_stopLoop = s.server.m_stopLoop
  accepting : s'.server.accepting = s.server.accepting
  length : s'.server.m_taskPull.length = s.server.m_taskPull.length

theorem Same.refl (s : OneProcess) : Same s s := ⟨rfl, rfl, rfl, rfl⟩

theorem Same.trans {s₁ : OneProcess} (h : Same s s₁) (h' : Same s₁ s') : Same s s' :=
  ⟨h'.commandGenerator.trans h.commandGenerator, h'.m_stopLoop.trans h.m_stopLoop,
    h'.accepting.trans h.accepting, h'.length.trans h.length⟩

/-- The handlers that an operation still has in front of it. -/
def handlersLeft : AsyncOp → ℕ
  | .write _ _ => 2
  | .read _ _ => 1

/-- The steps that a client takes until it has answered what was sent to it. -/
def stepsLeft (link : Link) : ℕ :=
  match link.down, link.client.op with
  | [], _ => 0
  | _, .reading => 1
  | _, _ => 2

/-- What is left to do for the operations outstanding. -/
def work (s : OneProcess) : ℕ :=
  Weights.total (fun task => Weights.total handlersLeft task.pending) s.server.m_taskPull +
    Weights.total stepsLeft s.links

theorem takeOp_single {server : Server} {i : ℕ} {op : AsyncOp}
    (h : server.m_taskPull[i]? = some ⟨true, [op]⟩) :
    server.takeOp i 0 = some (⟨true, []⟩, op) := by
  simp [Server.takeOp, h]

theorem length_store_replicate {received : Bytes} (h : received.length ≤ MESSAGE_SIZE) :
    received.length ≤ (List.replicate MESSAGE_SIZE (0 : UInt8)).length := by
  rwa [List.length_replicate]

/-- A write completes. -/
theorem exists_write (t : Target) (file : Bytes) {i : ℕ} {result : Result} {buffer : Bytes}
    (htask : s.server.m_taskPull[i]? = some ⟨true, [.write result buffer]⟩) :
    ∃ s', step t file s (.write i 0) = some s' ∧ work s' < work s ∧ Same s s' := by
  simp only [step, Server.step, takeOp_single htask, Option.map_some]
  refine ⟨_, rfl, ?_, ?_⟩
  · have htotal := Weights.total_set
      (w := fun task : ServerTask => Weights.total handlersLeft task.pending)
      (b := ServerTask.handleWrite ⟨true, []⟩ result false) htask
    simp only [ServerTask.handleWrite, Bool.false_eq_true, if_false, List.nil_append,
      Weights.total_cons, Weights.total_nil, handlersLeft] at htotal
    simp only [work, ServerTask.handleWrite, Bool.false_eq_true, if_false, List.nil_append]
    omega
  · exact ⟨rfl, rfl, rfl, List.length_set⟩

/-- The answer to a request is read. -/
theorem exists_read (t : Target) (file : Bytes) {i : ℕ} {result : Result} {received : Bytes}
    {client : PdfBox}
    (htask : s.server.m_taskPull[i]? =
      some ⟨true, [.read result (List.replicate MESSAGE_SIZE 0)]⟩)
    (hlink : s.links[i]? = some ⟨[], [received], client⟩) (hlength : received.length ≤ 2048) :
    ∃ s', step t file s (.read i 0) = some s' ∧ work s' < work s ∧ Same s s' := by
  simp only [step, hlink, Server.step, takeOp_single htask,
    if_pos (length_store_replicate hlength), Option.map_some]
  refine ⟨_, rfl, ?_, ?_⟩
  · have htotal := Weights.total_set
      (w := fun task : ServerTask => Weights.total handlersLeft task.pending)
      (b := ⟨false, []⟩) htask
    have hlinks := Weights.total_set (w := stepsLeft) (b := ⟨[], [], client⟩) hlink
    simp only [Weights.total_cons, Weights.total_nil, handlersLeft] at htotal
    simp only [stepsLeft] at hlinks
    simp only [work, ServerTask.handleRead, Bool.false_eq_true, if_false]
    omega
  · exact ⟨rfl, rfl, rfl, List.length_set⟩

/-- A client that was sent a request takes a step towards the answer. -/
theorem exists_client (t : Target) (file : Bytes) {i : ℕ} {c : Count} {link : Link}
    (hlink : s.links[i]? = some link) (hdown : link.down = [c.message]) (hok : link.client.Ok) :
    ∃ s', step t file s (.client i) = some s' ∧ work s' < work s ∧ Same s s' := by
  obtain ⟨link', hstep, hlt⟩ : ∃ link', link.clientStep t file = some link' ∧
      stepsLeft link' < stepsLeft link := by
    obtain ⟨down, up, bufferRecv, op⟩ := link
    obtain rfl : down = [c.message] := hdown
    cases op with
    | connecting => exact ⟨_, rfl, by simp [stepsLeft]⟩
    | reading =>
      have hlength : c.message.length ≤ bufferRecv.length :=
        c.length_message_le.trans (by rw [hok.length]; decide)
      simp only [Link.clientStep, if_pos hlength]
      exact ⟨_, rfl, by simp [stepsLeft]⟩
    | writing response => exact ⟨_, rfl, by simp [stepsLeft, PdfBox.handleWrite]⟩
  simp only [step, hlink, Option.bind_some, hstep, Option.map_some]
  refine ⟨_, rfl, ?_, ?_⟩
  · have htotal := Weights.total_set (w := stepsLeft) (b := link') hlink
    simp only [work]
    omega
  · exact ⟨rfl, rfl, rfl, rfl⟩

/-- While an operation is outstanding, one of the exchange's steps is possible and brings its end
closer. -/
theorem Inv.exists_exchange (h : Inv t file g s)
    (hbusy : ¬ ∀ task ∈ s.server.m_taskPull, task.pending = []) :
    ∃ e s', e.isExchange = true ∧ OneProcess.step t file s e = some s' ∧ work s' < work s ∧
      Same s s' := by
  simp only [not_forall] at hbusy
  obtain ⟨task, hmem, hpending⟩ := hbusy
  obtain ⟨i, htask⟩ := List.getElem?_of_mem hmem
  obtain ⟨link, hlink, hok⟩ := exists_of_getElem?_left h.links htask
  obtain ⟨op, ops, hops⟩ := List.exists_cons_of_ne_nil hpending
  have hop : task.pending[0]? = some op := by rw [hops, List.getElem?_cons_zero]
  obtain ⟨rfl, -⟩ := (h.server.accounted.tasks task hmem).eq_singleton hop
  obtain ⟨hexchange, hclient⟩ := hok
  obtain ⟨down, up, client⟩ := link
  simp only at hexchange hclient
  cases op with
  | write result buffer =>
    obtain ⟨s', hs'⟩ := exists_write t file htask
    exact ⟨_, s', rfl, hs'⟩
  | read result buffer =>
    cases hexchange with
    | request hserves =>
      obtain ⟨s', hs'⟩ := exists_client t file hlink rfl hclient
      exact ⟨_, s', rfl, hs'⟩
    | @response c _ hserves =>
      rcases hserves with hserves | hserves
      · cases hserves
      · cases hserves
        obtain ⟨s', hs'⟩ := exists_read t file htask hlink
          ((c.length_run_le t file).trans (by decide))
        exact ⟨_, s', rfl, hs'⟩

/-- The exchanges that are under way can be brought to their end. -/
theorem Inv.drain (h : Inv t file g s) :
    ∃ es s', (∀ e ∈ es, e.isExchange = true) ∧
      Machine.run (OneProcess.step t file) s es = some s' ∧ Same s s' ∧
        ∀ task ∈ s'.server.m_taskPull, task.pending = [] := by
  induction hn : work s using Nat.strongRecOn generalizing s with
  | ind n ih =>
    by_cases hidle : ∀ task ∈ s.server.m_taskPull, task.pending = []
    · exact ⟨[], s, by simp, rfl, .refl s, hidle⟩
    · obtain ⟨e, s₁, he, hs₁, hlt, hsame⟩ := h.exists_exchange hidle
      obtain ⟨es, s', hes, hs', hsame', hidle'⟩ := ih (work s₁) (hn ▸ hlt) (h.step hs₁) rfl
      refine ⟨e :: es, s', List.forall_mem_cons.2 ⟨he, hes⟩, ?_, hsame.trans hsame', hidle'⟩
      rw [Machine.run_cons, hs₁, Option.bind_some, hs']

end OneProcess

/-! ## The invariant of the program -/

namespace Session

variable {s s' : Session}

/-- The invariant of the program. -/
structure Ok (t : Target) (file : Bytes) (g : CommandGenerator) (s : Session) : Prop where
  /-- The server and its clients run as they do on their own. -/
  process : OneProcess.Reachable t file g s.process
  holder : s.m_serviceHolder = false ↔ s.process.server.m_stopLoop = true
  /-- The server is stopped only when every command was handed out. -/
  exhausted : s.process.server.m_stopLoop = true →
    s.process.server.commandGenerator.hasCommands = false
  accepting : s.phase ≠ .created → s.process.server.m_stopLoop = false →
    0 < s.process.server.accepting
  /-- While `main` waits for a server that runs, a session is posted. -/
  session : s.phase = .joining → s.process.server.m_stopLoop = false →
    .sendCommandSession ∈ s.posted
  /-- The file is what `Dump` made of a finished program. -/
  dumped : s.phase = .dumped → s.Finished
  boostResult : ∀ text, s.boostResult = some text →
    s.phase = .dumped ∧ text = Statistic.dump s.process.server.m_collection

theorem ok_new : Ok t file g (new g) where
  process := Machine.Reachable.refl _ _
  holder := by simp [new, OneProcess.new, Server.new]
  exhausted := by simp [new, OneProcess.new, Server.new]
  accepting := by simp [new]
  session := by simp [new]
  dumped := by simp [new]
  boostResult := by simp [new]

/-- What a step of the server and the clients that is not a stop keeps. -/
theorem process_frame {e : OneProcess.Event} {process : OneProcess}
    (hstep : s.process.step t file e = some process) (he : e ≠ .stop) :
    process.server.m_stopLoop = s.process.server.m_stopLoop ∧
      (process.server.commandGenerator = s.process.server.commandGenerator ∨ e = .sendCommands) ∧
      (process.server.m_stopLoop = false → s.process.server.accepting ≤ process.server.accepting) :=
    by
  cases e with
  | startListen =>
    cases hstep
    exact ⟨rfl, .inl rfl, fun _ => Nat.le_succ _⟩
  | accept =>
    simp only [OneProcess.step, Server.step, Option.map_eq_some_iff] at hstep
    obtain ⟨server, hserver, rfl⟩ := hstep
    split_ifs at hserver with hzero
    cases hserver
    unfold Server.handleAccept
    rcases hstop : s.process.server.m_stopLoop with _ | _
    · refine ⟨rfl, .inl rfl, fun _ => ?_⟩
      simp only [Bool.false_eq_true, if_false]
      omega
    · exact ⟨rfl, .inl rfl, by simp⟩
  | sendCommands =>
    cases hstep
    exact ⟨rfl, .inr rfl, fun _ => Nat.le_refl _⟩
  | stop => exact absurd rfl he
  | write i k =>
    simp only [OneProcess.step, Server.step, Option.map_eq_some_iff] at hstep
    obtain ⟨server, hserver, rfl⟩ := hstep
    split at hserver
    · cases hserver
      exact ⟨rfl, .inl rfl, fun _ => Nat.le_refl _⟩
    · cases hserver
  | read i k =>
    simp only [OneProcess.step] at hstep
    split at hstep
    · simp only [Server.step, Option.map_eq_some_iff] at hstep
      obtain ⟨server, hserver, rfl⟩ := hstep
      split at hserver
      · split_ifs at hserver
        cases hserver
        exact ⟨rfl, .inl rfl, fun _ => Nat.le_refl _⟩
      · cases hserver
        exact ⟨rfl, .inl rfl, fun _ => Nat.le_refl _⟩
      · cases hserver
    · cases hstep
  | client i =>
    simp only [OneProcess.step, Option.bind_eq_some_iff, Option.map_eq_some_iff] at hstep
    obtain ⟨link, -, link', -, rfl⟩ := hstep
    exact ⟨rfl, .inl rfl, fun _ => Nat.le_refl _⟩

/-- A closure of `SendCommands` hands out nothing when the generator is exhausted. -/
theorem dispatch_exhausted {g : CommandGenerator} (h : g.hasCommands = false)
    (tasks : List ServerTask) : (Server.dispatch g tasks).2.1.hasCommands = false := by
  have hcommands := Server.dispatch_commands g tasks
  rw [(CommandGenerator.exhausted h).2, List.append_eq_nil_iff] at hcommands
  have hlength := congrArg List.length hcommands.2
  simpa [CommandGenerator.commands, CommandGenerator.hasCommands] using hlength

/-- A step of the server and the clients that is not a stop keeps the invariant. -/
theorem Ok.io {e : OneProcess.Event} {process : OneProcess} (h : Ok t file g s) (hrun : s.Running)
    (hstep : s.process.step t file e = some process) (he : e ≠ .stop) :
    Ok t file g { s with process := process } := by
  obtain ⟨hstop, hgenerator, haccepting⟩ := process_frame hstep he
  refine ⟨h.process.trans (.single hstep), ?_, ?_, ?_, ?_, ?_, ?_⟩
  · rw [hstop]
    exact h.holder
  · intro hstopped
    rw [hstop] at hstopped
    rcases hgenerator with hgenerator | rfl
    · rw [hgenerator]
      exact h.exhausted hstopped
    · cases hstep
      exact dispatch_exhausted (h.exhausted hstopped) _
  · intro hphase hrunning
    exact (h.accepting hphase (hstop ▸ hrunning)).trans_le (haccepting hrunning)
  · intro hphase hrunning
    exact h.session hphase (hstop ▸ hrunning)
  · intro hphase
    exact absurd hphase hrun.1
  · intro text htext
    exact absurd (h.boostResult text htext).1 hrun.1

/-- A change of the phase and the posted handlers that keeps the invariant. -/
theorem Ok.advance {phase : Phase} (posted : List Posted) (h : Ok t file g s) (hrun : s.Running)
    (hphase : phase ≠ .dumped) (hcreated : s.phase ≠ .created)
    (hsession : phase = .joining → s.process.server.m_stopLoop = false →
      .sendCommandSession ∈ posted) :
    Ok t file g { s with phase := phase, posted := posted } := by
  refine ⟨h.process, h.holder, h.exhausted, fun _ => h.accepting hcreated, hsession, ?_, ?_⟩
  · intro hdumped
    exact absurd hdumped hphase
  · intro text htext
    exact absurd (h.boostResult text htext).1 hrun.1

theorem Ok.startListen (h : Ok t file g s) (hstep : step t file s .startListen = some s') :
    Ok t file g s' := by
  simp only [Session.step] at hstep
  split_ifs at hstep with hphase
  cases hstep
  refine ⟨h.process.trans (.single (e := .startListen) rfl), h.holder, h.exhausted, ?_, ?_, ?_, ?_⟩
  · intro _ _
    exact Nat.succ_pos _
  · rintro ⟨⟩
  · rintro ⟨⟩
  · intro text htext
    exact absurd (hphase.symm.trans (h.boostResult text htext).1) (by decide)

/-- A posted handler that is not the one at the given place stays posted. -/
theorem mem_eraseIdx_of_ne {posted : List Posted} {k : ℕ} {a b : Posted} (ha : a ∈ posted)
    (hb : posted[k]? = some b) (hne : a ≠ b) : a ∈ posted.eraseIdx k := by
  obtain ⟨i, hi⟩ := List.getElem?_of_mem ha
  refine List.mem_eraseIdx_iff_getElem?.2 ⟨i, ?_, hi⟩
  rintro rfl
  exact hne (Option.some.inj (hi.symm.trans hb))

theorem Ok.stop (h : Ok t file g s) (hrun : s.Running)
    (hexhausted : s.process.server.commandGenerator.hasCommands = false)
    {posted : List Posted} (hstep : Session.stop t file { s with posted := posted } = some s') :
    Ok t file g s' := by
  cases hstep
  refine ⟨h.process.trans (.single (e := .stop) rfl), by simp, fun _ => hexhausted, by simp,
    by simp, ?_, ?_⟩
  · intro hdumped
    exact absurd hdumped hrun.1
  · intro text htext
    exact absurd (h.boostResult text htext).1 hrun.1

theorem Ok.handler {k : ℕ} (h : Ok t file g s) (hstep : step t file s (.handler k) = some s') :
    Ok t file g s' := by
  simp only [Session.step] at hstep
  split_ifs at hstep with hrun
  rw [Option.bind_eq_some_iff] at hstep
  obtain ⟨posted, hposted, hhandle⟩ := hstep
  cases posted with
  | sendCommandSession =>
    simp only [handle, sendCommandSession] at hhandle
    split_ifs at hhandle with hhas
    · cases hhandle
      refine ⟨h.process, h.holder, h.exhausted, h.accepting, ?_, ?_, ?_⟩
      · intro _ _
        simp
      · intro hdumped
        exact absurd hdumped hrun.1
      · intro text htext
        exact absurd (h.boostResult text htext).1 hrun.1
    · exact h.stop hrun (Bool.not_eq_true _ ▸ hhas) hhandle
  | sendCommands =>
    simp only [handle, Option.map_eq_some_iff] at hhandle
    obtain ⟨process, hprocess, rfl⟩ := hhandle
    have hio := h.io hrun hprocess (by simp)
    refine ⟨hio.process, hio.holder, hio.exhausted, hio.accepting, ?_, ?_, hio.boostResult⟩
    · intro hphase hrunning
      exact mem_eraseIdx_of_ne (hio.session hphase hrunning) hposted (by simp)
    · intro hdumped
      exact absurd hdumped hrun.1

theorem Ok.step {e : Event} (h : Ok t file g s) (hstep : step t file s e = some s') :
    Ok t file g s' := by
  cases e with
  | startListen => exact h.startListen hstep
  | createProcess success =>
    simp only [Session.step, Option.ite_none_right_eq_some] at hstep
    obtain ⟨hphase, ⟨⟩⟩ := hstep
    refine h.advance s.posted (by simp [Running, hphase]) ?_ (by simp [hphase]) ?_
    · cases success <;> simp
    · cases success <;> simp
  | post =>
    simp only [Session.step] at hstep
    split_ifs at hstep with hphase
    cases hstep
    exact h.advance _ (by simp [Running, hphase]) (by simp) (by simp [hphase]) (by simp)
  | handler k => exact h.handler hstep
  | io e =>
    simp only [Session.step] at hstep
    split_ifs at hstep with hrun
    rw [Option.map_eq_some_iff] at hstep
    obtain ⟨process, hprocess, rfl⟩ := hstep
    refine h.io hrun.1 hprocess ?_
    rintro rfl
    cases hrun.2
  | dump =>
    simp only [Session.step] at hstep
    split_ifs at hstep with hfinished
    cases hstep
    refine ⟨h.process, h.holder, h.exhausted, ?_, by simp, fun _ => hfinished.2, ?_⟩
    · intro _
      exact h.accepting (by simp [hfinished.1])
    · intro text htext
      exact ⟨rfl, (Option.some.inj htext).symm⟩

theorem Reachable.ok (h : Reachable t file g s) : Ok t file g s :=
  Machine.Reachable.invariant (Ok t file g) ok_new (fun _ _ _ => Ok.step) h

/-- Whenever the program writes its file, in any order of the handlers while all operations succeed
and carry their messages whole, with any number of connections and although the server was stopped
with answers on the way: the collection dumped is, with multiplicity, that of the in-process
loop. -/
theorem dumped_complete (h : Reachable t file g s) {text : Bytes}
    (htext : s.boostResult = some text) :
    (↑s.process.server.m_collection : Multiset Result) = ↑(Inproc.main t file g) ∧
      text = Statistic.dump s.process.server.m_collection := by
  have hok := h.ok
  obtain ⟨hphase, htext⟩ := hok.boostResult text htext
  obtain ⟨hholder, -, -, hidle⟩ := hok.dumped hphase
  have hexhausted := hok.exhausted (hok.holder.1 hholder)
  have hbalance := hok.process.inv.balance
  rw [requests_eq_zero_iff.2 hidle, (CommandGenerator.exhausted hexhausted).2] at hbalance
  exact ⟨by simpa using hbalance, htext⟩

/-! ## The wait ends -/

/-- The program can go on to write its file. -/
def CanDump (t : Target) (file : Bytes) (s : Session) : Prop :=
  ∃ s', Machine.Reachable (step t file) s s' ∧ s'.boostResult.isSome

theorem CanDump.of_reachable (h : Machine.Reachable (step t file) s s') (hcan : CanDump t file s') :
    CanDump t file s := by
  obtain ⟨s₁, hs₁, hsome⟩ := hcan
  exact ⟨s₁, h.trans hs₁, hsome⟩

theorem CanDump.of_step {e : Event} (h : step t file s e = some s') (hcan : CanDump t file s') :
    CanDump t file s :=
  hcan.of_reachable (.single h)

/-- What the connections do of themselves, the program does. -/
theorem reachable_exchange {es : List OneProcess.Event} {process : OneProcess} (hrun : s.Running)
    (hes : ∀ e ∈ es, e.isExchange = true)
    (h : Machine.run (OneProcess.step t file) s.process es = some process) :
    Machine.Reachable (step t file) s { s with process := process } := by
  induction es generalizing s with
  | nil =>
    cases h
    exact .refl _ _
  | cons e es ih =>
    rw [Machine.run_cons, Option.bind_eq_some_iff] at h
    obtain ⟨process₁, hprocess₁, h⟩ := h
    rw [List.forall_mem_cons] at hes
    have hio : e.isIo = true := by
      cases e with
      | write i k => rfl
      | read i k => rfl
      | client i => rfl
      | _ => exact absurd hes.1 (by simp [OneProcess.Event.isExchange])
    have hstep : step t file s (.io e) = some { s with process := process₁ } := by
      rw [step, if_pos ⟨hrun, hio⟩, hprocess₁, Option.map_some]
    exact (Machine.Reachable.single hstep).trans (ih (s := { s with process := process₁ }) hrun
      hes.2 h)

/-- The connections of a program can be brought to rest, with the program otherwise as it is. -/
theorem Ok.drain (h : Ok t file g s) (hrun : s.Running) :
    ∃ process, Machine.Reachable (Session.step t file) s { s with process := process } ∧
      Ok t file g { s with process := process } ∧ OneProcess.Same s.process process ∧
      ∀ task ∈ process.server.m_taskPull, task.pending = [] := by
  obtain ⟨es, process, hes, hprocess, hsame, hidle⟩ := h.process.inv.drain
  have hreach := reachable_exchange hrun hes hprocess
  exact ⟨process, hreach, Machine.Reachable.invariant (Ok t file g) h (fun _ _ _ => Ok.step) hreach,
    hsame, hidle⟩

/-- The accept of a stopped server is completed by the connection that `Stop` has made. -/
theorem canDump_of_idle (h : Ok t file g s) (hphase : s.phase = .joining)
    (hstop : s.process.server.m_stopLoop = true) (hposted : s.posted = [])
    (hidle : ∀ task ∈ s.process.server.m_taskPull, task.pending = []) : CanDump t file s := by
  have hrun : s.Running := by simp [Running, hphase]
  induction hn : s.process.server.accepting generalizing s with
  | zero =>
    have hfinished : s.Finished := ⟨h.holder.2 hstop, hposted, hn, hidle⟩
    have hstep : step t file s .dump = some { s with
        phase := .dumped
        boostResult := some (Statistic.dump s.process.server.m_collection) } := by
      rw [step, if_pos ⟨hphase, hfinished⟩]
    exact ⟨_, .single hstep, rfl⟩
  | succ n ih =>
    have hstep : step t file s (.io .accept) = some { s with
        process := ⟨{ s.process.server with accepting := n }, s.process.links⟩ } := by
      rw [step, if_pos ⟨hrun, rfl⟩]
      simp [OneProcess.step, Server.step, Server.handleAccept, hn, hstop]
    exact .of_step hstep (ih (h.step hstep) hphase hstop hposted hidle hrun rfl)

/-- A stopped server runs out of work. -/
theorem canDump_of_stopped (h : Ok t file g s) (hphase : s.phase = .joining)
    (hstop : s.process.server.m_stopLoop = true) : CanDump t file s := by
  have hrun : s.Running := by simp [Running, hphase]
  induction hposted : s.posted generalizing s with
  | nil =>
    obtain ⟨process, hreach, hok, hsame, hidle⟩ := h.drain hrun
    refine .of_reachable hreach (canDump_of_idle hok hphase ?_ hposted hidle)
    rw [hsame.m_stopLoop]
    exact hstop
  | cons posted rest ih =>
    -- a session only stops the server again, and a closure has no command to hand out
    obtain ⟨process, holder, hstop', hstep⟩ : ∃ process holder,
        process.server.m_stopLoop = true ∧ step t file s (.handler 0) =
          some { s with process := process, posted := rest, m_serviceHolder := holder } := by
      rw [step, if_pos hrun, hposted, List.getElem?_cons_zero, Option.bind_some]
      cases posted with
      | sendCommandSession =>
        simp only [handle, sendCommandSession, h.exhausted hstop, Bool.false_eq_true, if_false]
        exact ⟨_, _, rfl, rfl⟩
      | sendCommands =>
        exact ⟨⟨s.process.server.sendCommands, _⟩, s.m_serviceHolder, hstop, rfl⟩
    exact .of_step hstep (ih (h.step hstep) hphase hstop' hrun rfl)

/-- The next handler of a kind that is posted. -/
theorem exists_handler (t : Target) (file : Bytes) {posted : Posted} (hrun : s.Running)
    (hposted : posted ∈ s.posted) :
    ∃ k, step t file s (.handler k) =
      handle t file { s with posted := s.posted.eraseIdx k } posted := by
  obtain ⟨k, hk⟩ := List.getElem?_of_mem hposted
  exact ⟨k, by rw [step, if_pos hrun, hk, Option.bind_some]⟩

/-- A closure that finds all of at least one task idle hands out a command. -/
theorem dispatch_lt {g : CommandGenerator} {tasks : List ServerTask} (hhas : g.hasCommands = true)
    (hne : tasks ≠ []) (hidle : ∀ task ∈ tasks, task.m_isBusy = false) :
    (Server.dispatch g tasks).2.1.m_iteration < g.m_iteration := by
  have hlength := congrArg List.length (Server.dispatch_commands g tasks)
  simp only [CommandGenerator.commands, List.length_append, List.length_reverse, List.length_map,
    List.length_range] at hlength
  obtain ⟨task, rest, rfl⟩ := List.exists_cons_of_ne_nil hne
  have hpos : 0 < (Server.dispatch g (task :: rest)).2.2.length := by
    rcases g.nextCommand_cases with ⟨hzero, -⟩ | ⟨command, g', hnext, -⟩
    · simp [CommandGenerator.hasCommands, hzero] at hhas
    · simp [Server.dispatch, hidle task (by simp), hnext]
  omega

/-- The program has a connection, or can get one, with its generator as it is. -/
theorem exists_connected (h : Ok t file g s) (hphase : s.phase = .joining)
    (hrunning : s.process.server.m_stopLoop = false) :
    ∃ s', Machine.Reachable (step t file) s s' ∧ Ok t file g s' ∧ s'.phase = .joining ∧
      s'.process.server.m_stopLoop = false ∧ s'.process.server.m_taskPull ≠ [] ∧
      s'.process.server.commandGenerator = s.process.server.commandGenerator := by
  by_cases hpull : s.process.server.m_taskPull = []
  · have haccepting := h.accepting (by simp [hphase]) hrunning
    obtain ⟨s', hstep, hs'⟩ : ∃ s', step t file s (.io .accept) = some s' ∧ s'.phase = .joining ∧
        s'.process.server.m_stopLoop = false ∧ s'.process.server.m_taskPull ≠ [] ∧
        s'.process.server.commandGenerator = s.process.server.commandGenerator := by
      rw [step, if_pos ⟨by simp [Running, hphase], rfl⟩]
      simp only [OneProcess.step, Server.step, if_neg haccepting.ne', Server.handleAccept,
        hrunning, Bool.false_eq_true, if_false, Option.map_some]
      exact ⟨_, rfl, hphase, rfl, by simp, rfl⟩
    exact ⟨s', .single hstep, h.step hstep, hs'⟩
  · exact ⟨s, .refl _ _, h, hphase, hrunning, hpull, rfl⟩

/-- A program that waits with commands left can hand out one of them. -/
theorem exists_handed_out (h : Ok t file g s) (hphase : s.phase = .joining)
    (hrunning : s.process.server.m_stopLoop = false)
    (hhas : s.process.server.commandGenerator.hasCommands = true) :
    ∃ s', Machine.Reachable (step t file) s s' ∧ s'.phase = .joining ∧
      s'.process.server.m_stopLoop = false ∧
      s'.process.server.commandGenerator.m_iteration <
        s.process.server.commandGenerator.m_iteration := by
  obtain ⟨s₁, hs₁, hok₁, hphase₁, hrunning₁, hpull₁, hgenerator₁⟩ :=
    exists_connected h hphase hrunning
  have hrun₁ : s₁.Running := by simp [Running, hphase₁]
  obtain ⟨process, hs₂, hok₂, hsame, hidle⟩ := hok₁.drain hrun₁
  have hrunning₂ : process.server.m_stopLoop = false := hsame.m_stopLoop.trans hrunning₁
  have hgenerator₂ := hsame.commandGenerator.trans hgenerator₁
  -- the session posts a closure, which finds every task idle
  obtain ⟨k, hk⟩ := exists_handler t file (s := { s₁ with process := process })
    hrun₁ (hok₂.session hphase₁ hrunning₂)
  simp only [handle, sendCommandSession, hgenerator₂, hhas, if_true] at hk
  set s₃ : Session := { s₁ with
    process := process
    posted := s₁.posted.eraseIdx k ++ [.sendCommands, .sendCommandSession] } with hs₃
  have hclosure : .sendCommands ∈ s₃.posted := by simp [hs₃]
  obtain ⟨l, hl⟩ := exists_handler t file (s := s₃) hrun₁ hclosure
  refine ⟨_, (hs₁.trans hs₂).trans ((Machine.Reachable.single hk).trans (.single hl)), hphase₁,
    hrunning₂, ?_⟩
  rw [← hgenerator₂]
  refine dispatch_lt (by rw [hgenerator₂, hhas]) ?_ ?_
  · rw [← List.length_pos_iff, hsame.length, List.length_pos_iff]
    exact hpull₁
  · intro task htask
    have hok := hok₂.process.inv.server.accounted.tasks task htask
    rw [← Bool.not_eq_true, hok.busy_iff, not_not]
    exact hidle task htask

theorem canDump_of_joining (h : Ok t file g s) (hphase : s.phase = .joining) :
    CanDump t file s := by
  induction hn : s.process.server.commandGenerator.m_iteration using Nat.strongRecOn
    generalizing s with
  | ind n ih =>
    rcases hstop : s.process.server.m_stopLoop with _ | _
    · by_cases hhas : s.process.server.commandGenerator.hasCommands = true
      · obtain ⟨s', hs', hphase', -, hlt⟩ := exists_handed_out h hphase hstop hhas
        have hok := Machine.Reachable.invariant (Ok t file g) h (fun _ _ _ => Ok.step) hs'
        exact .of_reachable hs' (ih _ (hn ▸ hlt) hok hphase' rfl)
      · have hrun : s.Running := by simp [Running, hphase]
        obtain ⟨k, hk⟩ := exists_handler t file hrun (h.session hphase hstop)
        simp only [handle, sendCommandSession, if_neg hhas] at hk
        have hok := h.step hk
        exact .of_step hk (canDump_of_stopped hok hphase rfl)
    · exact canDump_of_stopped h hphase hstop

theorem Ok.canDump (h : Ok t file g s) (hphase : s.phase ≠ .terminated)
    (hdumped : s.phase ≠ .dumped) : CanDump t file s := by
  have hlaunched {s : Session} (h : Ok t file g s) (hphase : s.phase = .launched) :
      CanDump t file s := by
    have hstep : Session.step t file s .post = some { s with
        phase := .joining, posted := s.posted ++ [.sendCommandSession] } := if_pos hphase
    exact .of_step hstep (canDump_of_joining (h.step hstep) rfl)
  have hlistening {s : Session} (h : Ok t file g s) (hphase : s.phase = .listening) :
      CanDump t file s := by
    have hstep : Session.step t file s (.createProcess true) =
        some { s with phase := .launched } := if_pos hphase
    exact .of_step hstep (hlaunched (h.step hstep) rfl)
  cases hcase : s.phase with
  | created =>
    obtain ⟨s', hstep, hphase'⟩ : ∃ s', Session.step t file s .startListen = some s' ∧
        s'.phase = .listening := ⟨_, if_pos hcase, rfl⟩
    exact .of_step hstep (hlistening (h.step hstep) hphase')
  | listening => exact hlistening h hcase
  | launched => exact hlaunched h hcase
  | joining => exact canDump_of_joining h hcase
  | dumped => exact absurd hcase hdumped
  | terminated => exact absurd hcase hphase

/-- From every state that the program can reach while its operations succeed and carry their
messages whole, unless `pdf_box.exe` could not be started or the file is already written, some
further steps lead to a state in which the file is written: no order of the handlers so far makes
the wait endless. -/
theorem exists_dumped (h : Reachable t file g s) (hphase : s.phase ≠ .terminated)
    (hdumped : s.phase ≠ .dumped) :
    ∃ s', Machine.Reachable (step t file) s s' ∧ s'.boostResult.isSome :=
  h.ok.canDump hphase hdumped

/-- A program with one command is stopped with the answer to it on the way. -/
def stopping : List Event :=
  [.startListen, .createProcess true, .io .accept, .post, .handler 0, .handler 0, .handler 0]

theorem exists_dumped_stopping :
    ∃ s, Machine.run (step .x64 []) (new ⟨1, fun _ => 7⟩) stopping = some s ∧
      s.process.server.m_stopLoop = true ∧ s.process.server.m_collection = [] ∧
      ∃ s', Machine.Reachable (step .x64 []) s s' ∧ s'.boostResult.isSome := by
  have hany : (Machine.run (step .x64 []) (new ⟨1, fun _ => 7⟩) stopping).any (fun s =>
      s.process.server.m_stopLoop = true ∧ s.process.server.m_collection = [] ∧
        s.phase = .joining) = true := by
    decide +kernel
  obtain ⟨s, hs, hfacts⟩ := (Option.any_eq_true _ _).1 hany
  obtain ⟨hstop, hcollection, hphase⟩ := of_decide_eq_true hfacts
  exact ⟨s, hs, hstop, hcollection,
    exists_dumped ⟨stopping, hs⟩ (by simp [hphase]) (by simp [hphase])⟩

theorem dumped_complete_one :
    ∃ s text, Reachable .x64 [] ⟨1, fun _ => 7⟩ s ∧ s.boostResult = some text ∧
      (↑s.process.server.m_collection : Multiset Result) =
        ↑(Inproc.main .x64 [] ⟨1, fun _ => 7⟩) := by
  have hnew : Ok .x64 [] ⟨1, fun _ => 7⟩ (new ⟨1, fun _ => 7⟩) := ok_new
  obtain ⟨s, hs, hsome⟩ := hnew.canDump (by decide) (by decide)
  obtain ⟨text, htext⟩ := Option.isSome_iff_exists.1 hsome
  exact ⟨s, text, hs, htext, (dumped_complete hs htext).1⟩

end Session

end NitroCloud
