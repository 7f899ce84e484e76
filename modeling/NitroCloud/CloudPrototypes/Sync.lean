import NitroCloud.Foundations.Machine
import NitroCloud.CloudPrototypes.Refinement

/-!
# The synchronous server with its client

`Server::SendCommands` of `cloud_prototypes/include/cs_boost/server.hpp` and the synchronous loop of
`pdf_box`.  The connection is two byte streams.  A write puts all its bytes into the stream, and
`read_some` returns any number of the bytes that are next, at least one and at most as many as the
buffer takes; no call fails.

Both sides take what one `read_some` returns for a message.  When each call of the client returns a
whole request, the results are right exactly when each call of the server returns a whole response,
and then they are those of the in-process loop (`m_collection_inproc`).
-/

namespace NitroCloud.Sync

open Bytes

/-- Where `SendCommands` is. -/
inductive ServerPhase where
  /-- At the head of its loop, before `NextCommand`. -/
  | idle
  /-- In `read_some`, after it wrote the request. -/
  | reading (sendMessageBuffer : Bytes)
  | finished
deriving DecidableEq, Repr

/-- The steps that the server has still to take in its phase. -/
def ServerPhase.steps : ServerPhase → ℕ
  | .idle => 1
  | .reading _ => 2
  | .finished => 0

/-- The server and its client, with the bytes on their way. -/
structure State where
  commandGenerator : CommandGenerator
  server : ServerPhase
  down : Bytes
  up : Bytes
  client : PdfBox
  m_collection : List Result

/-- The size of `receiveMessageBuffer`. -/
def receiveSize : ℕ := 2048

inductive Event where
  /-- The server takes the next command and writes it, or leaves its loop. -/
  | next
  /-- `read_some` of the server returns the given number of bytes. -/
  | serverRead (n : ℕ)
  /-- `read_some` of the client returns the given number of bytes. -/
  | clientRead (n : ℕ)
  | clientWrite
deriving DecidableEq, Repr

/-- A number of bytes that `read_some` may return, with a buffer of the given size. -/
def Returns (stream : Bytes) (size n : ℕ) : Prop := 0 < n ∧ n ≤ stream.length ∧ n ≤ size

instance (stream : Bytes) (size n : ℕ) : Decidable (Returns stream size n) :=
  inferInstanceAs (Decidable (_ ∧ _ ∧ _))

theorem not_returns_nil (size n : ℕ) : ¬ Returns [] size n := by
  rintro ⟨hpos, hle, -⟩
  rw [List.length_nil] at hle
  omega

namespace State

def new (commandGenerator : CommandGenerator) : State :=
  ⟨commandGenerator, .idle, [], [], ⟨List.replicate MESSAGE_SIZE 0, .reading⟩, []⟩

def step (t : Target) (file : Bytes) (s : State) : Event → Option State
  | .next =>
    match s.server with
    | .idle =>
      match s.commandGenerator.nextCommand with
      | (some command, commandGenerator) =>
        some { s with
          commandGenerator := commandGenerator
          server := .reading command.message
          down := s.down ++ command.message }
      | (none, commandGenerator) =>
        some { s with commandGenerator := commandGenerator, server := .finished }
    | _ => none
  | .serverRead n =>
    match s.server with
    | .reading sendMessageBuffer =>
      if Returns s.up receiveSize n then
        let receiveMessageBuffer := store (List.replicate receiveSize 0) (s.up.take n)
        some { s with
          server := .idle
          up := s.up.drop n
          m_collection := s.m_collection ++ [⟨sendMessageBuffer, cStr receiveMessageBuffer⟩] }
      else none
    | _ => none
  | .clientRead n =>
    match s.client.op with
    | .reading =>
      if Returns s.down MESSAGE_SIZE n then
        some { s with
          down := s.down.drop n
          client := (s.client.handleRead t file (s.down.take n)).1 }
      else none
    | _ => none
  | .clientWrite =>
    match s.client.op with
    | .writing response =>
      some { s with up := s.up ++ response, client := s.client.handleWrite }
    | _ => none

/-- What a step can do: the server leaves its loop, writes a request or takes a response, and the
client answers a request or writes the answer. -/
theorem step_cases {t : Target} {file : Bytes} {s s' : State} {e : Event}
    (h : step t file s e = some s') :
    (s.server = .idle ∧ s.commandGenerator.m_iteration = 0 ∧ s' = { s with server := .finished }) ∨
    (∃ (command : Count) (g' : CommandGenerator), s.server = .idle ∧
      s.commandGenerator.m_iteration = g'.m_iteration + 1 ∧
      s' = { s with
        commandGenerator := g'
        server := .reading command.message
        down := s.down ++ command.message }) ∨
    (∃ sendMessageBuffer n, s.server = .reading sendMessageBuffer ∧ Returns s.up receiveSize n ∧
      s' = { s with
        server := .idle
        up := s.up.drop n
        m_collection := s.m_collection ++ [⟨sendMessageBuffer,
          cStr (store (List.replicate receiveSize 0) (s.up.take n))⟩] }) ∨
    (∃ n, s.client.op = .reading ∧ Returns s.down MESSAGE_SIZE n ∧
      s' = { s with
        down := s.down.drop n
        client := (s.client.handleRead t file (s.down.take n)).1 }) ∨
    ∃ response, s.client.op = .writing response ∧
      s' = { s with up := s.up ++ response, client := s.client.handleWrite } := by
  cases e with
  | next =>
    simp only [step] at h
    split at h
    · next hserver =>
      rcases s.commandGenerator.nextCommand_cases with ⟨hzero, hnext⟩ | ⟨command, g', hnext, hsucc⟩
      · simp only [hnext, Option.some.injEq] at h
        exact .inl ⟨hserver, hzero, h.symm⟩
      · simp only [hnext, Option.some.injEq] at h
        exact .inr (.inl ⟨command, g', hserver, hsucc, h.symm⟩)
    · cases h
  | serverRead n =>
    simp only [step] at h
    split at h
    · next sendMessageBuffer hserver =>
      split_ifs at h with hreturns
      cases h
      exact .inr (.inr (.inl ⟨sendMessageBuffer, n, hserver, hreturns, rfl⟩))
    · cases h
  | clientRead n =>
    simp only [step] at h
    split at h
    · next hop =>
      split_ifs at h with hreturns
      cases h
      exact .inr (.inr (.inr (.inl ⟨n, hop, hreturns, rfl⟩)))
    · cases h
  | clientWrite =>
    simp only [step] at h
    split at h
    · next response hop =>
      cases h
      exact .inr (.inr (.inr (.inr ⟨response, hop, rfl⟩)))
    · cases h

/-- The results are only ever added to. -/
theorem m_collection_step {t : Target} {file : Bytes} {s s' : State} {e : Event}
    (h : step t file s e = some s') : s.m_collection <+: s'.m_collection := by
  rcases step_cases h with ⟨-, -, rfl⟩ | ⟨command, g', -, -, rfl⟩ |
    ⟨sendMessageBuffer, n, -, -, rfl⟩ | ⟨n, -, -, rfl⟩ | ⟨response, -, rfl⟩
  · exact List.prefix_rfl
  · exact List.prefix_rfl
  · exact List.prefix_append _ _
  · exact List.prefix_rfl
  · exact List.prefix_rfl

/-- `read_some` of the client returns all that the server wrote. -/
def ClientWhole (_ : List Event) (s : State) (e : Event) : Prop :=
  ∀ n, e = .clientRead n → n = s.down.length

/-- `read_some` of the server returns all that the client wrote. -/
def ServerWhole (_ : List Event) (s : State) (e : Event) : Prop :=
  ∀ n, e = .serverRead n → n = s.up.length

/-- The results that record for each command the answer that running it gives. -/
def expected (t : Target) (file : Bytes) (commands : List Count) : List Result :=
  commands.map fun c => ⟨c.message, c.run t file⟩

/-! ## The exchange of whole messages -/

/-- The states of an exchange in which every message was read whole, after the commands `done`. -/
inductive Ok (t : Target) (file : Bytes) (commands : List Count) : State → Prop where
  | idle {g : CommandGenerator} {client : PdfBox} {done : List Count}
      (hop : client.op = .reading) (h : done ++ g.commands = commands) :
      Ok t file commands ⟨g, .idle, [], [], client, expected t file done⟩
  | request {g : CommandGenerator} {client : PdfBox} {done : List Count} {c : Count}
      (hop : client.op = .reading) (h : done ++ c :: g.commands = commands) :
      Ok t file commands ⟨g, .reading c.message, c.message, [], client, expected t file done⟩
  | answered {g : CommandGenerator} {client : PdfBox} {done : List Count} {c : Count}
      (hop : client.op = .writing (c.run t file)) (h : done ++ c :: g.commands = commands) :
      Ok t file commands ⟨g, .reading c.message, [], [], client, expected t file done⟩
  | response {g : CommandGenerator} {client : PdfBox} {done : List Count} {c : Count}
      (hop : client.op = .reading) (h : done ++ c :: g.commands = commands) :
      Ok t file commands ⟨g, .reading c.message, [], c.run t file, client, expected t file done⟩
  | finished {g : CommandGenerator} {client : PdfBox} (hop : client.op = .reading) :
      Ok t file commands ⟨g, .finished, [], [], client, expected t file commands⟩

variable {t : Target} {file : Bytes} {commands : List Count} {s s' : State}

theorem ok_new (g : CommandGenerator) : (new g).Ok t file g.commands :=
  @Ok.idle t file g.commands g ⟨List.replicate MESSAGE_SIZE 0, .reading⟩ [] rfl rfl

theorem Ok.next (hok : s.Ok t file commands) (h : step t file s .next = some s') :
    s'.Ok t file commands := by
  cases hok with
  | @idle g client done hop hcommands =>
    have heq := g.commands_eq
    rcases g.nextCommand_cases with ⟨hzero, hnext⟩ | ⟨command, g', hnext, -⟩
    · have hempty : g.commands = [] :=
        (CommandGenerator.exhausted (by simp [CommandGenerator.hasCommands, hzero])).2
      rw [hempty, List.append_nil] at hcommands
      simp only [step, hnext, Option.some.injEq] at h
      subst h hcommands
      exact .finished hop
    · simp only [step, hnext, Option.some.injEq, List.nil_append] at h
      subst h
      rw [hnext] at heq
      refine .request hop ?_
      rw [← hcommands, heq]
      rfl
  | request => simp [step] at h
  | answered => simp [step] at h
  | response => simp [step] at h
  | finished => simp [step] at h

theorem Ok.clientRead {n : ℕ} (hok : s.Ok t file commands) (hn : n = s.down.length)
    (h : step t file s (.clientRead n) = some s') : s'.Ok t file commands := by
  cases hok with
  | @request g client done c hop hcommands =>
    simp only [step, hop] at h
    split_ifs at h
    subst hn
    simp only [List.take_length, List.drop_length, PdfBox.handleRead_message,
      Option.some.injEq] at h
    subst h
    exact .answered rfl hcommands
  | idle hop => simp [step, hop, not_returns_nil] at h
  | answered hop => simp [step, hop] at h
  | response hop => simp [step, hop, not_returns_nil] at h
  | finished hop => simp [step, hop, not_returns_nil] at h

theorem Ok.clientWrite (hok : s.Ok t file commands) (h : step t file s .clientWrite = some s') :
    s'.Ok t file commands := by
  cases hok with
  | answered hop hcommands =>
    simp only [step, hop, List.nil_append, Option.some.injEq] at h
    subst h
    exact .response rfl hcommands
  | idle hop => simp [step, hop] at h
  | request hop => simp [step, hop] at h
  | response hop => simp [step, hop] at h
  | finished hop => simp [step, hop] at h

/-- What the server records for the bytes of a response that it read. -/
theorem cStr_receive (c : Count) (n : ℕ) :
    cStr (store (List.replicate receiveSize 0) ((c.run t file).take n)) =
      (c.run t file).take n :=
  cStr_store_replicate fun h => c.zero_notMem_run t file (List.mem_of_mem_take h)

/-- A read of the server adds a right result exactly when it returns the whole response. -/
theorem Ok.serverRead {n : ℕ} (hok : s.Ok t file commands)
    (h : step t file s (.serverRead n) = some s') :
    (n = s.up.length → s'.Ok t file commands) ∧
      (s'.m_collection <+: expected t file commands → n = s.up.length) := by
  cases hok with
  | @response g client done c hop hcommands =>
    simp only [step] at h
    split_ifs at h with hreturns
    rw [cStr_receive] at h
    constructor
    · rintro rfl
      simp only [List.take_length, List.drop_length, Option.some.injEq] at h
      subst h
      have hdone : expected t file done ++ [⟨c.message, c.run t file⟩] =
          expected t file (done ++ [c]) := by
        simp [expected]
      rw [hdone]
      exact .idle hop (by simpa using hcommands)
    · intro hprefix
      cases h
      have hsplit : expected t file commands = expected t file done ++
          (⟨c.message, c.run t file⟩ :: expected t file g.commands) := by
        rw [← hcommands]
        simp [expected]
      rw [hsplit, List.prefix_append_right_inj, List.singleton_prefix_cons_iff] at hprefix
      have hlength := congrArg (fun result => result.response.length) hprefix
      simp only [List.length_take] at hlength
      have hle := hreturns.2.1
      simp only at hle ⊢
      omega
  | idle => simp [step] at h
  | request => simp [step, not_returns_nil] at h
  | answered => simp [step, not_returns_nil] at h
  | finished => simp [step] at h

/-- A step of an exchange of whole messages, when the client reads whole requests and the server
whole responses. -/
theorem Ok.step {before : List Event} {e : Event} (hok : s.Ok t file commands)
    (hclient : ClientWhole before s e) (hserver : ServerWhole before s e)
    (h : step t file s e = some s') : s'.Ok t file commands := by
  cases e with
  | next => exact hok.next h
  | serverRead n => exact (hok.serverRead h).1 (hserver n rfl)
  | clientRead n => exact hok.clientRead (hclient n rfl) h
  | clientWrite => exact hok.clientWrite h

/-- Until the server leaves its loop, an exchange of whole messages can go on. -/
theorem Ok.exists_step (hok : s.Ok t file commands) (hserver : s.server ≠ .finished)
    (before : List Event) :
    ∃ e s', State.step t file s e = some s' ∧ ClientWhole before s e ∧ ServerWhole before s e := by
  cases hok with
  | @idle g client done hop hcommands =>
    rcases g.nextCommand_cases with ⟨-, hnext⟩ | ⟨command, g', hnext, -⟩
    · exact ⟨.next, _, by simp only [State.step, hnext]; rfl, nofun, nofun⟩
    · exact ⟨.next, _, by simp only [State.step, hnext]; rfl, nofun, nofun⟩
  | @request g client done c hop hcommands =>
    have hlength : c.message.length ≤ MESSAGE_SIZE := c.length_message_le.trans (by decide)
    have hreturns : Returns c.message MESSAGE_SIZE c.message.length :=
      ⟨by simp [Count.message_eq], le_rfl, hlength⟩
    refine ⟨.clientRead c.message.length, _, by simp only [State.step, hop, if_pos hreturns]; rfl,
      ?_, nofun⟩
    rintro n ⟨⟩
    rfl
  | answered hop hcommands =>
    exact ⟨.clientWrite, _, by simp only [State.step, hop]; rfl, nofun, nofun⟩
  | @response g client done c hop hcommands =>
    have hlength : (c.run t file).length ≤ receiveSize := (c.length_run_le t file).trans (by decide)
    have hreturns : Returns (c.run t file) receiveSize (c.run t file).length :=
      ⟨List.length_pos_iff.2 (c.run_ne_nil t file), le_rfl, hlength⟩
    refine ⟨.serverRead (c.run t file).length, _,
      by simp only [State.step, if_pos hreturns]; rfl, nofun, ?_⟩
    rintro n ⟨⟩
    rfl
  | finished hop => exact absurd rfl hserver

/-- Once the server has left its loop, every result is recorded. -/
theorem Ok.of_finished (hok : s.Ok t file commands) (hserver : s.server = .finished) :
    s.m_collection = expected t file commands := by
  cases hok with
  | finished hop => rfl
  | idle => cases hserver
  | request => cases hserver
  | answered => cases hserver
  | response => cases hserver

/-- An exchange of whole messages goes on until every result is recorded. -/
theorem Ok.of_stuck (hok : s.Ok t file commands) (hstuck : Machine.Stuck (State.step t file) s) :
    s.m_collection = expected t file commands := by
  by_cases hserver : s.server = .finished
  · exact hok.of_finished hserver
  · obtain ⟨e, s', hstep, -⟩ := hok.exists_step hserver []
    rw [hstuck e] at hstep
    cases hstep

/-! ## Termination -/

/-- A measure that every step lowers, however the streams are split. -/
def steps (s : State) : ℕ :=
  33 * s.commandGenerator.m_iteration + s.server.steps + 2 * s.down.length +
    match s.client.op with
    | .writing _ => 1
    | _ => 0

theorem steps_lt (s : State) (e : Event) (s' : State) (h : step t file s e = some s') :
    s'.steps < s.steps := by
  rcases step_cases h with ⟨hserver, -, rfl⟩ | ⟨command, g', hserver, hsucc, rfl⟩ |
    ⟨sendMessageBuffer, n, hserver, -, rfl⟩ | ⟨n, hop, ⟨hpos, hle, -⟩, rfl⟩ | ⟨response, hop, rfl⟩
  · simp only [steps, hserver, ServerPhase.steps]
    omega
  · have hlength := command.length_message_le
    simp only [steps, hserver, ServerPhase.steps, hsucc, List.length_append]
    omega
  · simp only [steps, hserver, ServerPhase.steps]
    omega
  · simp only [steps, hop, PdfBox.handleRead, List.length_drop]
    omega
  · simp only [steps, hop, PdfBox.handleWrite]
    omega

/-! ## Whole runs -/

theorem Ok.prefix_expected (hok : s.Ok t file commands) :
    s.m_collection <+: expected t file commands := by
  have hdone {done rest : List Count} (h : done ++ rest = commands) :
      expected t file done <+: expected t file commands := by
    rw [← h, expected, expected, List.map_append]
    exact List.prefix_append _ _
  cases hok with
  | idle _ h => exact hdone h
  | request _ h => exact hdone h
  | answered _ h => exact hdone h
  | response _ h => exact hdone h
  | finished => exact List.prefix_rfl

/-- A read of the server that adds a right result returns a whole response. -/
theorem Ok.serverWhole {before : List Event} {e : Event} (hok : s.Ok t file commands)
    (h : State.step t file s e = some s') (hright : s'.m_collection <+: expected t file commands) :
    ServerWhole before s e := by
  rintro n rfl
  exact (hok.serverRead h).2 hright

/-- Every event of a run leads on to the state it ends in, whose results it has not outrun. -/
theorem right_along {es : List Event} {s₀ : State}
    (h : Machine.run (State.step t file) s₀ es = some s)
    (hright : s.m_collection <+: expected t file commands) :
    Machine.Along (State.step t file) s₀ (fun _ s₁ e => ∃ s₂, State.step t file s₁ e = some s₂ ∧
      s₂.m_collection <+: expected t file commands) es := by
  intro before e after s₁ hes hs₁
  rw [hes, Machine.run_append, hs₁, Option.bind_some, Machine.run_cons,
    Option.bind_eq_some_iff] at h
  obtain ⟨s₂, hs₂, h⟩ := h
  have hgrows : s₂.m_collection <+: s.m_collection :=
    Machine.invariant_run (fun s => s₂.m_collection <+: s.m_collection)
      (fun _ _ _ hle hstep => hle.trans (m_collection_step hstep)) after List.prefix_rfl h
  exact ⟨s₂, hs₂, hgrows.trans hright⟩

theorem Ok.of_run {g : CommandGenerator} {es : List Event}
    (hclient : Machine.Along (State.step t file) (new g) ClientWhole es)
    (hserver : Machine.Along (State.step t file) (new g) ServerWhole es)
    (h : Machine.run (State.step t file) (new g) es = some s) : s.Ok t file g.commands :=
  (hclient.and hserver).invariant (fun _ s => s.Ok t file g.commands) (ok_new g)
    (fun _ _ _ _ hok hwhole h => hok.step hwhole.1 hwhole.2 h) h

theorem length_run_le {g : CommandGenerator} {es : List Event}
    (h : Machine.run (State.step t file) (new g) es = some s) :
    es.length ≤ 33 * g.m_iteration + 1 := by
  have hle := Machine.length_run_add_le steps_lt h
  have hnew : (new g).steps = 33 * g.m_iteration + 1 := by
    simp [steps, new, ServerPhase.steps]
  omega

/-- In every run of the exchange, however the streams are split, in which each `read_some` of the
client returns a whole request: the results recorded are, command by command, those that running the
commands gives, if and only if each `read_some` of the server returns a whole response.  Then the
exchange ends with a result for every command; every run ends. -/
theorem responses_iff (t : Target) (file : Bytes) (g : CommandGenerator) {es : List Event}
    {s : State} (h : Machine.run (step t file) (new g) es = some s)
    (hclient : Machine.Along (step t file) (new g) ClientWhole es) :
    (s.m_collection <+: expected t file g.commands ↔
        Machine.Along (step t file) (new g) ServerWhole es) ∧
      (Machine.Along (step t file) (new g) ServerWhole es →
        Machine.Stuck (step t file) s → s.m_collection = expected t file g.commands) ∧
      es.length ≤ 33 * g.m_iteration + 1 := by
  refine ⟨⟨fun hright => ?_, fun hserver => (Ok.of_run hclient hserver h).prefix_expected⟩,
    fun hserver hstuck => (Ok.of_run hclient hserver h).of_stuck hstuck, length_run_le h⟩
  refine (hclient.and (right_along h hright)).imp (fun _ s => s.Ok t file g.commands) (ok_new g)
    ?_ ?_
  · rintro before s e s' hok ⟨hwhole, s'', hs'', hright⟩ hstep
    obtain rfl : s' = s'' := Option.some.inj (hstep.symm.trans hs'')
    have hserver : ServerWhole before s e := hok.serverWhole hstep hright
    exact hok.step hwhole hserver hstep
  · rintro before s e hok ⟨-, s', hs', hright⟩
    exact hok.serverWhole hs' hright

/-- One command, read whole by both sides. -/
def wholeReads : List Event := [.next, .clientRead 5, .clientWrite, .serverRead 16]

theorem whole_wholeReads :
    Machine.Along (step .x64 []) (new ⟨1, fun _ => 7⟩)
      (fun before s e => ClientWhole before s e ∧ ServerWhole before s e) wholeReads := by
  let g : CommandGenerator := ⟨1, fun _ => 7⟩
  have hdown : (Machine.run (step .x64 []) (new g) [.next]).map (fun s => s.down.length) = some 5 :=
    by decide
  have hup : (Machine.run (step .x64 []) (new g) [.next, .clientRead 5, .clientWrite]).map
      (fun s => s.up.length) = some 16 := by decide
  refine (((Machine.along_nil.concat (e := Event.next) ?_).concat
    (e := Event.clientRead 5) ?_).concat (e := Event.clientWrite) ?_).concat
      (e := Event.serverRead 16) ?_
  · intro s hs
    exact ⟨nofun, nofun⟩
  · intro s hs
    rw [show Machine.run (step .x64 []) (new g) [.next] = some s from hs] at hdown
    refine ⟨?_, nofun⟩
    rintro n ⟨⟩
    exact (Option.some.inj hdown).symm
  · intro s hs
    exact ⟨nofun, nofun⟩
  · intro s hs
    rw [show Machine.run (step .x64 []) (new g) [.next, .clientRead 5, .clientWrite] = some s
      from hs] at hup
    refine ⟨nofun, ?_⟩
    rintro n ⟨⟩
    exact (Option.some.inj hup).symm

theorem responses_iff_wholeReads :
    ∃ s, Machine.run (step .x64 []) (new ⟨1, fun _ => 7⟩) wholeReads = some s ∧
      s.m_collection <+: expected .x64 [] (CommandGenerator.commands ⟨1, fun _ => 7⟩) := by
  let g : CommandGenerator := ⟨1, fun _ => 7⟩
  have hsome : (Machine.run (step .x64 []) (new g) wholeReads).isSome = true := by decide
  obtain ⟨s, hs⟩ := Option.isSome_iff_exists.1 hsome
  have hclient := whole_wholeReads.mono fun _ _ _ h => h.1
  have hserver := whole_wholeReads.mono fun _ _ _ h => h.2
  exact ⟨s, hs, (responses_iff .x64 [] g hs hclient).1.2 hserver⟩

/-- One command, of which the client reads the first byte at once. -/
def splitRequest : List Event := [.next, .clientRead 1, .clientWrite, .serverRead 17]

/-- The client answers the first byte as a request of its own, and the server records the answer as
that to the whole request. -/
theorem responses_splitRequest :
    ∃ s, Machine.run (step .x64 []) (new ⟨1, fun _ => 7⟩) splitRequest = some s ∧
      s.m_collection = [⟨Count.message ⟨7⟩, ascii "Row[-1] = <error>"⟩] ∧
      ¬ s.m_collection <+: expected .x64 [] (CommandGenerator.commands ⟨1, fun _ => 7⟩) := by
  have hrun : (Machine.run (step .x64 []) (new ⟨1, fun _ => 7⟩) splitRequest).map
      State.m_collection = some [⟨Count.message ⟨7⟩, ascii "Row[-1] = <error>"⟩] := by
    decide
  obtain ⟨s, hs, hcollection⟩ := Option.map_eq_some_iff.1 hrun
  refine ⟨s, hs, hcollection, ?_⟩
  rw [hcollection]
  decide

/-! ## Against the in-process loop -/

theorem expected_eq_main (t : Target) (file : Bytes) (g : CommandGenerator) :
    expected t file g.commands = Inproc.main t file g := by
  rw [expected, Inproc.main_eq]

/-- In every run of the exchange in which each `read_some` returns a whole message, the results are
those of the in-process loop for the same commands, as far as they have come: all of them once the
server has left its loop, and until then the exchange can go on; every run ends. -/
theorem m_collection_inproc (t : Target) (file : Bytes) (g : CommandGenerator) {es : List Event}
    {s : State} (h : Machine.run (step t file) (new g) es = some s)
    (hclient : Machine.Along (step t file) (new g) ClientWhole es)
    (hserver : Machine.Along (step t file) (new g) ServerWhole es) :
    s.m_collection <+: Inproc.main t file g ∧
      (s.server = .finished → s.m_collection = Inproc.main t file g) ∧
      (s.server ≠ .finished →
        ∃ e s', step t file s e = some s' ∧ ClientWhole es s e ∧ ServerWhole es s e) ∧
      es.length ≤ 33 * g.m_iteration + 1 := by
  have hok : s.Ok t file g.commands := .of_run hclient hserver h
  rw [← expected_eq_main]
  exact ⟨hok.prefix_expected, hok.of_finished, fun hne => hok.exists_step hne es, length_run_le h⟩

/-- The exchange of one command, to its end. -/
theorem m_collection_inproc_wholeReads :
    ∃ s, Machine.run (step .x64 []) (new ⟨1, fun _ => 7⟩) (wholeReads ++ [.next]) = some s ∧
      s.server = .finished ∧ s.m_collection = Inproc.main .x64 [] ⟨1, fun _ => 7⟩ := by
  let g : CommandGenerator := ⟨1, fun _ => 7⟩
  have hfinished : (Machine.run (step .x64 []) (new g) (wholeReads ++ [.next])).map State.server =
      some .finished := by
    decide
  obtain ⟨s, hs, hserver⟩ := Option.map_eq_some_iff.1 hfinished
  have hwhole := whole_wholeReads.concat (e := Event.next) fun _ _ => ⟨nofun, nofun⟩
  have hmain := m_collection_inproc .x64 [] g hs (hwhole.mono fun _ _ _ h => h.1)
    (hwhole.mono fun _ _ _ h => h.2)
  exact ⟨s, hs, hserver, hmain.2.1 hserver⟩

end State

end NitroCloud.Sync
