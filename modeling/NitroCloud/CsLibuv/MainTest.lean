import NitroCloud.CsBoost.MainTest
import NitroCloud.CsLibuv.Callbacks
import NitroCloud.CsLibuv.Link
import NitroCloud.Foundations.Weights

/-!
# The main loop of the libuv test server

`ServerMainTest` and `Server` of `boost_cloud/include/cs_libuv`.  One request of libuv's thread pool
goes round: `SomeWorkHandleStat` gives a command to every task that is not busy, on a thread of the
pool and with `m_pullLocker` held, and `AfterSomeWorkHandleStat`, on the loop's thread, queues it
again or dumps the results.  The callbacks of the connections run on the loop's thread at the same
time; a new connection waits for the lock.  A callback is one step, and so is the turn of
`SendCommands` for one task.

The dump comes when the generator is exhausted, whether or not the answers are there.
`dump_accounted` says what is in the file, `read_safe` that no `HandleRead` finds its result
missing, and `exists_empty_dump` that the file may be empty although every command was given.
-/

namespace NitroCloud.CsLibuv

open Bytes Machine

/-- Where the request of the thread pool is. -/
inductive Work where
  | queued
  /-- In the loop of `SendCommands`, in front of the `i`-th task. -/
  | sending (i : ℕ)
  /-- `SomeWorkHandleStat` returned. -/
  | finished
  /-- The results were dumped. -/
  | dumped
deriving DecidableEq, Repr

/-- `ServerMainTest`, its `Server` and the clients. -/
structure MainTest where
  /-- `m_taskPull`, each task with its client. -/
  m_taskPull : List Link
  commandGenerator : CommandGenerator
  m_collection : List Result
  work : Work
  /-- The content of `libuv_result.txt`. -/
  file : Bytes
  /-- The commands that `NextCommand` handed out. -/
  taken : List Count
  /-- The results that read errors dropped. -/
  lost : List Result

namespace MainTest

def new (commandGenerator : CommandGenerator) : MainTest where
  m_taskPull := []
  commandGenerator := commandGenerator
  m_collection := []
  work := .queued
  file := []
  taken := []
  lost := []

/-- `SomeWorkHandleStat` up to the loop of `SendCommands`. -/
def someWorkHandleStat (s : MainTest) : MainTest :=
  { s with work := if s.commandGenerator.hasCommands then .sending 0 else .finished }

/-- The turn of `SendCommands` for the `i`-th task, or the end of its loop. -/
def sendCommands (s : MainTest) (i : ℕ) : MainTest :=
  match s.m_taskPull[i]? with
  | none => { s with work := .finished }
  | some l =>
    if l.serverTask.isBusy then { s with work := .sending (i + 1) }
    else
      match s.commandGenerator.nextCommand with
      | (none, commandGenerator) =>
        { s with commandGenerator := commandGenerator, work := .sending (i + 1) }
      | (some command, commandGenerator) =>
        { s with
          m_taskPull := s.m_taskPull.set i (l.sendCommad command)
          commandGenerator := commandGenerator
          work := .sending (i + 1)
          taken := s.taken ++ [command] }

/-- `AfterSomeWorkHandleStat`. -/
def afterSomeWorkHandleStat (s : MainTest) : MainTest :=
  if s.commandGenerator.hasCommands then { s with work := .queued }
  else { s with work := .dumped, file := s.file ++ CsBoost.dump s.m_collection }

/-- What can happen. -/
inductive Event where
  /-- `Server::HandleNewConnection`. -/
  | newConnection
  | someWork
  | sendCommands
  | afterSomeWork
  /-- A callback at one of the ends of the `i`-th connection. -/
  | link (i : ℕ) (e : Link.Event)
deriving DecidableEq, Repr

def step (t : Target) (file : Bytes) (s : MainTest) : Event → Option MainTest
  | .newConnection =>
    match s.work with
    | .sending _ => none
    | _ => some { s with m_taskPull := s.m_taskPull ++ [.new] }
  | .someWork => if s.work = .queued then some s.someWorkHandleStat else none
  | .sendCommands =>
    match s.work with
    | .sending i => some (s.sendCommands i)
    | _ => none
  | .afterSomeWork => if s.work = .finished then some s.afterSomeWorkHandleStat else none
  | .link i e =>
    (s.m_taskPull[i]?).bind fun l => (l.step t file e).map fun l' =>
      { s with
        m_taskPull := s.m_taskPull.set i l'
        m_collection := s.m_collection ++ Link.added l l'
        lost := s.lost ++ l.lost e }

/-- The states that the test server can reach with the given generator. -/
def Reachable (t : Target) (file : Bytes) (g : CommandGenerator) (s : MainTest) : Prop :=
  Machine.Reachable (step t file) (new g) s

variable {t : Target} {file : Bytes} {g : CommandGenerator} {s s' : MainTest} {e : Event}

/-! ## What a step does -/

/-- A step adds a connection; or gives a command to a task that is not busy; or is a callback at a
connection; or dumps the results of an exhausted generator; or moves the request of the thread pool
and leaves the rest alone. -/
theorem step_cases (h : step t file s e = some s') :
    (s' = { s with m_taskPull := s.m_taskPull ++ [.new] }) ∨
    (∃ i l command commandGenerator, s.work = .sending i ∧ s.m_taskPull[i]? = some l ∧
      l.serverTask.isBusy = false ∧
      s.commandGenerator.nextCommand = (some command, commandGenerator) ∧
      s' = { s with
        m_taskPull := s.m_taskPull.set i (l.sendCommad command)
        commandGenerator := commandGenerator
        work := .sending (i + 1)
        taken := s.taken ++ [command] }) ∨
    (∃ i event l l', e = .link i event ∧ s.m_taskPull[i]? = some l ∧
      l.step t file event = some l' ∧
      s' = { s with
        m_taskPull := s.m_taskPull.set i l'
        m_collection := s.m_collection ++ Link.added l l'
        lost := s.lost ++ l.lost event }) ∨
    (s.work = .finished ∧ s.commandGenerator.hasCommands = false ∧
      s' = { s with work := .dumped, file := s.file ++ CsBoost.dump s.m_collection }) ∨
    (∃ work, s.work ≠ .dumped ∧ work ≠ .dumped ∧ s' = { s with work := work }) := by
  cases e with
  | newConnection =>
    simp only [step] at h
    split at h
    · cases h
    · exact .inl (Option.some.inj h).symm
  | someWork =>
    simp only [step, Option.ite_none_right_eq_some, Option.some.injEq] at h
    obtain ⟨hwork, rfl⟩ := h
    refine .inr (.inr (.inr (.inr ⟨_, by simp [hwork], ?_, rfl⟩)))
    split_ifs <;> simp
  | sendCommands =>
    simp only [step] at h
    split at h
    case h_2 => cases h
    case h_1 i hwork =>
      cases h
      unfold sendCommands
      rcases hl : s.m_taskPull[i]? with _ | l
      · exact .inr (.inr (.inr (.inr ⟨.finished, by simp [hwork], by simp, rfl⟩)))
      · simp only
        split_ifs with hbusy
        · exact .inr (.inr (.inr (.inr ⟨.sending (i + 1), by simp [hwork], by simp, rfl⟩)))
        · rcases s.commandGenerator.nextCommand_cases with ⟨-, hnext⟩ | ⟨command, g', hnext, -⟩
          · rw [hnext]
            exact .inr (.inr (.inr (.inr ⟨.sending (i + 1), by simp [hwork], by simp, rfl⟩)))
          · simp only [hnext]
            exact .inr (.inl ⟨i, l, command, g', hwork, hl, by simpa using hbusy, rfl, rfl⟩)
  | afterSomeWork =>
    simp only [step, Option.ite_none_right_eq_some, Option.some.injEq] at h
    obtain ⟨hwork, rfl⟩ := h
    unfold afterSomeWorkHandleStat
    split_ifs with hcommands
    · exact .inr (.inr (.inr (.inr ⟨.queued, by simp [hwork], by simp, rfl⟩)))
    · exact .inr (.inr (.inr (.inl ⟨hwork, by simpa using hcommands, rfl⟩)))
  | link i event =>
    simp only [step, Option.bind_eq_some_iff, Option.map_eq_some_iff] at h
    obtain ⟨l, hl, l', hl', rfl⟩ := h
    exact .inr (.inr (.inl ⟨i, event, l, l', rfl, hl, hl', rfl⟩))

/-! ## Accounting -/

/-- The invariant of the test server. -/
structure Accounted (g : CommandGenerator) (s : MainTest) : Prop where
  commands : s.taken ++ s.commandGenerator.commands = g.commands
  requests : (↑(s.taken.map Count.message) : Multiset Bytes) =
    ↑(s.m_collection.map Result.request) + Weights.total Link.requests s.m_taskPull +
      ↑(s.lost.map Result.request)
  notDumped : s.work ≠ .dumped → s.file = []
  dumped : s.work = .dumped → s.commandGenerator.hasCommands = false ∧
    ∃ results, results <+: s.m_collection ∧ s.file = CsBoost.dump results

theorem accounted_new (g : CommandGenerator) : Accounted g (new g) :=
  ⟨rfl, rfl, fun _ => rfl, fun h => by cases h⟩

theorem coe_map_append {α β : Type*} (f : α → β) (as bs : List α) :
    (↑((as ++ bs).map f) : Multiset β) = ↑(as.map f) + ↑(bs.map f) := by
  rw [List.map_append, Multiset.coe_add]

theorem Accounted.step (h : Accounted g s) (hstep : step t file s e = some s') :
    Accounted g s' := by
  rcases step_cases hstep with rfl | ⟨i, l, command, g', hwork, hl, hidle, hnext, rfl⟩ |
    ⟨i, event, l, l', rfl, hl, hl', rfl⟩ | ⟨hwork, hcommands, rfl⟩ | ⟨work, hs, hwork, rfl⟩
  · refine ⟨h.commands, ?_, h.notDumped, h.dumped⟩
    have hidle : Link.new.requests = 0 := rfl
    rw [Weights.total_concat, hidle, add_zero]
    exact h.requests
  · refine ⟨?_, ?_, fun _ => h.notDumped (by simp [hwork]), fun hd => by cases hd⟩
    · have hcommands := h.commands
      rw [s.commandGenerator.commands_eq, hnext] at hcommands
      simpa using hcommands
    · have hset := Weights.total_set (w := Link.requests) (b := l.sendCommad command) hl
      rw [Link.requests_sendCommad hidle, ← add_assoc, add_right_comm] at hset
      rw [coe_map_append, h.requests, add_right_cancel hset]
      simp only [List.map_cons, List.map_nil, Multiset.coe_singleton]
      abel
  · refine ⟨h.commands, ?_, h.notDumped, fun hd => ?_⟩
    · have hmoved : Weights.total Link.requests (s.m_taskPull.set i l') +
          ↑((Link.added l l').map Result.request) + ↑((l.lost event).map Result.request) =
            Weights.total Link.requests s.m_taskPull := by
        refine add_right_cancel (b := l'.requests) ?_
        rw [← Weights.total_set hl, ← Link.step_requests hl']
        abel
      rw [h.requests, coe_map_append, coe_map_append, ← hmoved]
      abel
    · obtain ⟨hcommands, results, hresults, hfile⟩ := h.dumped hd
      exact ⟨hcommands, results, hresults.trans (List.prefix_append _ _), hfile⟩
  · refine ⟨h.commands, h.requests, fun hd => absurd rfl hd, fun _ => ?_⟩
    refine ⟨hcommands, s.m_collection, List.prefix_refl _, ?_⟩
    rw [h.notDumped (by simp [hwork]), List.nil_append]
  · exact ⟨h.commands, h.requests, fun _ => h.notDumped hs, fun hd => absurd hd hwork⟩

theorem Reachable.accounted (h : Reachable t file g s) : Accounted g s :=
  Machine.Reachable.invariant (Accounted g) (accounted_new g)
    (fun _ _ _ hacc hstep => hacc.step hstep) h

/-- A callback at a connection that reads takes all the bytes on their way. -/
def Whole (_ : List Event) (s : MainTest) (e : Event) : Prop :=
  ∀ i event l, e = .link i event → s.m_taskPull[i]? = some l → l.Whole event

/-- The branch of `HandleRead` for a successful read is reached only with a current result. -/
def ReadWithResult (_ : List Event) (s : MainTest) (e : Event) : Prop :=
  ∀ i n l, e = .link i (.read n) → s.m_taskPull[i]? = some l →
    l.serverTask.Readable (l.up.take n) → l.serverTask.m_currentCommandResult ≠ none

/-- The connections are in order, and the results answered. -/
structure Ok (t : Target) (file : Bytes) (s : MainTest) : Prop where
  links : ∀ l ∈ s.m_taskPull, l.Ok t file
  answered : ∀ result ∈ s.m_collection, Link.Answered t file result

theorem Ok.set {i : ℕ} {l' : Link} (h : s.Ok t file) (hl' : l'.Ok t file) :
    ∀ l ∈ s.m_taskPull.set i l', l.Ok t file := by
  intro l hl
  rcases List.mem_or_eq_of_mem_set hl with hl | rfl
  · exact h.links l hl
  · exact hl'

theorem Ok.step {before : List Event} (h : s.Ok t file) (hwhole : Whole before s e)
    (hstep : step t file s e = some s') : s'.Ok t file := by
  rcases step_cases hstep with rfl | ⟨i, l, command, g', hwork, hl, hidle, hnext, rfl⟩ |
    ⟨i, event, l, l', rfl, hl, hl', rfl⟩ | ⟨hwork, hcommands, rfl⟩ | ⟨work, hs, hwork, rfl⟩
  · refine ⟨?_, h.answered⟩
    rw [List.forall_mem_append, List.forall_mem_singleton]
    exact ⟨h.links, Link.ok_new⟩
  · have hok := h.links l (List.mem_of_getElem? hl)
    exact ⟨h.set (hok.sendCommad hidle command), h.answered⟩
  · have hok := h.links l (List.mem_of_getElem? hl)
    have hread := hwhole i event l rfl hl
    refine ⟨h.set (hok.step hread hl'), ?_⟩
    rw [List.forall_mem_append]
    exact ⟨h.answered, hok.added hread hl'⟩
  · exact ⟨h.links, h.answered⟩
  · exact ⟨h.links, h.answered⟩

theorem ok_new (g : CommandGenerator) : (new g).Ok t file :=
  ⟨List.forall_mem_nil _, List.forall_mem_nil _⟩

/-- In every run in which each read takes all that is on its way, at any number of connections and
with any read errors: no `HandleRead` of the server finds its result missing, and every result
recorded is that of a command, with the client's answer to it at the front of its response. -/
theorem read_safe (t : Target) (file : Bytes) (g : CommandGenerator) (es : List Event)
    (hwhole : Along (step t file) (new g) Whole es) :
    Along (step t file) (new g) ReadWithResult es ∧
      ∀ s, run (step t file) (new g) es = some s →
        ∀ result ∈ s.m_collection, Link.Answered t file result := by
  constructor
  · refine Along.imp (fun _ => Ok t file) (ok_new g)
      (fun _ _ _ _ hok hread hstep => hok.step hread hstep) ?_ hwhole
    intro before s e hok hread i n l he hl hreadable
    obtain ⟨c, hcurrent, -⟩ :=
      (hok.links l (List.mem_of_getElem? hl)).read (hread i _ l he hl) hreadable.2.1
    rw [hcurrent]
    exact Option.some_ne_none _
  · intro s hs
    have hok : s.Ok t file := by
      refine hwhole.invariant (fun _ => Ok t file) (ok_new g) ?_ hs
      exact fun _ _ _ _ hok hread hstep => hok.step hread hstep
    exact hok.answered

/-- The bytes of a buffer when it is first allocated. -/
def allocated : Bytes := ServerTask.allocate [] suggestedSize

/-- One client, without a data file, was given the command for row 7.  The write callback has come,
and the client's answer is on its way. -/
def answering : MainTest where
  m_taskPull := [{
    serverTask := { ServerTask.new.sendCommad ⟨7⟩ with writing := 0, reading := true }
    clientTask := {
      m_bufferSend := ascii "Row[7] = <error>"
      m_bufferRecv := store allocated (Count.message ⟨7⟩)
      m_streamWriter := 1
      writing := [⟨1, ascii "Row[7] = <error>"⟩]
      reading := false
      closed := false }
    down := []
    up := ascii "Row[7] = <error>" }]
  commandGenerator := ⟨0, fun _ => 7⟩
  m_collection := []
  work := .finished
  file := []
  taken := [⟨7⟩]
  lost := []

/-- The answer is recorded. -/
def recorded : MainTest :=
  { answering with
    m_taskPull := answering.m_taskPull.map fun l => l.afterRead 16 ⟨Count.message ⟨7⟩, []⟩
    m_collection := [⟨Count.message ⟨7⟩, cStr (store allocated (ascii "Row[7] = <error>"))⟩] }

/-- The events in front of the client's read callback. -/
def givesCommand : List Event :=
  [.newConnection, .someWork, .sendCommands, .sendCommands, .link 0 .write]

theorem run_answering : run (step .x64 []) (new ⟨1, fun _ => 7⟩)
    (givesCommand ++ [.link 0 (.clientRead 5 true)]) = some answering := rfl

theorem run_recorded : run (step .x64 []) (new ⟨1, fun _ => 7⟩)
    (givesCommand ++ [.link 0 (.clientRead 5 true)] ++ [.link 0 (.read 16)]) =
      some recorded := rfl

theorem whole_recorded : Along (step .x64 []) (new ⟨1, fun _ => 7⟩) Whole
    (givesCommand ++ [.link 0 (.clientRead 5 true)] ++ [.link 0 (.read 16)]) := by
  have hgiven : Along (step .x64 []) (new ⟨1, fun _ => 7⟩) Whole givesCommand := by
    intro before e after s hes _ i event l he _
    have hmem : e ∈ givesCommand := by simp [hes]
    subst he
    obtain ⟨-, rfl⟩ : i = 0 ∧ event = .write := by simpa [givesCommand] using hmem
    trivial
  refine (hgiven.concat ?_).concat ?_
  · intro s hs i event l he hl
    cases he
    cases hs
    cases hl
    exact ⟨by decide, by decide⟩
  · intro s hs i event l he hl
    rw [run_answering] at hs
    cases hs
    cases he
    cases hl
    exact ⟨by decide, by decide⟩

theorem read_safe_recorded :
    Along (step .x64 []) (new ⟨1, fun _ => 7⟩) ReadWithResult
      (givesCommand ++ [.link 0 (.clientRead 5 true)] ++ [.link 0 (.read 16)]) ∧
      ∀ result ∈ recorded.m_collection, Link.Answered .x64 [] result :=
  ⟨(read_safe .x64 [] ⟨1, fun _ => 7⟩ _ whole_recorded).1,
    (read_safe .x64 [] ⟨1, fun _ => 7⟩ _ whole_recorded).2 recorded run_recorded⟩

/-- The file is written once. -/
theorem file_step (hdumped : s.work = .dumped) (hstep : step t file s e = some s') :
    s'.work = .dumped ∧ s'.file = s.file := by
  rcases step_cases hstep with rfl | ⟨i, l, command, g', hwork, hl, hidle, hnext, rfl⟩ |
    ⟨i, event, l, l', rfl, hl, hl', rfl⟩ | ⟨hwork, hcommands, rfl⟩ | ⟨work, hs, hwork, rfl⟩
  · exact ⟨hdumped, rfl⟩
  · rw [hdumped] at hwork
    cases hwork
  · exact ⟨hdumped, rfl⟩
  · rw [hdumped] at hwork
    cases hwork
  · exact absurd hdumped hs

/-- An event of the server that is no callback at a connection, and so no error of one. -/
def Event.isOwn : Event → Bool
  | .link _ _ => false
  | _ => true

/-- Some run without a callback at a connection leads from one state to another. -/
def ReachableAlone (t : Target) (file : Bytes) (s s' : MainTest) : Prop :=
  ReachableBy (step t file) (fun e => e.isOwn = true) s s'

/-- Any number of clients connect before the thread pool gets to its request. -/
theorem reachable_connected (t : Target) (file : Bytes) (g : CommandGenerator) (n : ℕ) :
    ReachableAlone t file (new g) { new g with m_taskPull := List.replicate n .new } := by
  induction n with
  | zero => exact .refl _ _ _
  | succ n ih =>
    refine ih.trans (.single (e := .newConnection) ?_ rfl)
    rw [List.replicate_succ']
    rfl

/-- The loop of `SendCommands` in front of as many new tasks as there are commands. -/
theorem exists_sent (t : Target) (file : Bytes) {i : ℕ} (hwork : s.work = .sending i)
    (hlength : s.m_taskPull.length = i + s.commandGenerator.m_iteration)
    (hnew : ∀ j, i ≤ j → j < s.m_taskPull.length → s.m_taskPull[j]? = some .new) :
    ∃ s', ReachableAlone t file s s' ∧ s'.work = .finished ∧
      s'.commandGenerator.hasCommands = false ∧ s'.m_collection = s.m_collection ∧
      s'.lost = s.lost := by
  induction hn : s.commandGenerator.m_iteration generalizing s i with
  | zero =>
    refine ⟨{ s with work := .finished }, .single (e := .sendCommands) ?_ rfl, rfl, ?_, rfl, rfl⟩
    · have hend : s.m_taskPull[i]? = none := by
        rw [List.getElem?_eq_none_iff]
        omega
      simp only [step, hwork, sendCommands, hend]
    · simp [CommandGenerator.hasCommands, hn]
  | succ n ih =>
    obtain ⟨command, g', hnext, hg'⟩ :=
      s.commandGenerator.nextCommand_cases.resolve_left (by simp [hn])
    let sent : MainTest := { s with
      m_taskPull := s.m_taskPull.set i (Link.new.sendCommad command)
      commandGenerator := g'
      work := .sending (i + 1)
      taken := s.taken ++ [command] }
    have hsent : step t file s .sendCommands = some sent := by
      simp only [step, hwork, sendCommands, hnew i le_rfl (by omega), hnext]
      rfl
    have hnew' : ∀ j, i + 1 ≤ j → j < sent.m_taskPull.length →
        sent.m_taskPull[j]? = some .new := by
      intro j hj hlt
      simp only [sent, List.length_set] at hlt ⊢
      rw [List.getElem?_set_ne (by omega)]
      exact hnew j (by omega) hlt
    have hlength' : sent.m_taskPull.length = i + 1 + sent.commandGenerator.m_iteration := by
      simp only [sent, List.length_set]
      omega
    have hfirst : ReachableAlone t file s sent := .single hsent rfl
    obtain ⟨s', hs', hrest⟩ := ih rfl hlength' hnew' (by simp only [sent]; omega)
    exact ⟨s', hfirst.trans hs', hrest⟩

/-- With as many clients as commands, all are handed out before the first answer. -/
theorem exists_finished (t : Target) (file : Bytes) (g : CommandGenerator) :
    ∃ s, ReachableAlone t file (new g) s ∧ s.work = .finished ∧
      s.commandGenerator.hasCommands = false ∧ s.m_collection = [] ∧ s.lost = [] := by
  have hconnected := reachable_connected t file g g.m_iteration
  by_cases hcommands : g.hasCommands = true
  · have hwork := hconnected.trans (.single (e := .someWork) rfl rfl)
    obtain ⟨s, hs, hrest⟩ := exists_sent t file (i := 0)
      (s := someWorkHandleStat { new g with m_taskPull := List.replicate g.m_iteration .new })
      (if_pos hcommands) (by simp [someWorkHandleStat, new])
      (by simp +contextual [someWorkHandleStat])
    exact ⟨s, hwork.trans hs, hrest⟩
  · refine ⟨_, hconnected.trans (.single (e := .someWork) rfl rfl), if_neg hcommands, ?_, rfl, rfl⟩
    simpa [someWorkHandleStat, new] using hcommands

/-- Whatever the commands are, there is a run without any callback at a connection, and so without
any failure, in which all of them are handed out and the file is and stays empty, since the server
dumps before the first answer. -/
theorem exists_empty_dump (t : Target) (file : Bytes) (g : CommandGenerator) :
    ∃ s, ReachableBy (step t file) (fun e => e.isOwn = true) (new g) s ∧ s.work = .dumped ∧
      s.taken = g.commands ∧ s.lost = [] ∧
      ∀ s', Machine.Reachable (step t file) s s' → s'.file = [] := by
  obtain ⟨s, hs, hwork, hcommands, hcollection, hlost⟩ := exists_finished t file g
  have hacc : Accounted g s := Reachable.accounted hs.reachable
  refine ⟨{ s with work := .dumped, file := s.file ++ CsBoost.dump s.m_collection },
    hs.trans (.single (e := .afterSomeWork) ?_ rfl), rfl, ?_, hlost, ?_⟩
  · simp [step, hwork, afterSomeWorkHandleStat, hcommands]
  · rw [← hacc.commands, (CommandGenerator.exhausted hcommands).2, List.append_nil]
  · intro s' hs'
    refine (hs'.invariant (fun s => s.work = .dumped ∧ s.file = []) ⟨rfl, ?_⟩ ?_).2
    · rw [hacc.notDumped (by simp [hwork]), hcollection]
      rfl
    · intro s e s' hdumped hstep
      obtain ⟨hwork', hfile⟩ := file_step hdumped.1 hstep
      exact ⟨hwork', hfile.trans hdumped.2⟩

end MainTest

end NitroCloud.CsLibuv
