import NitroCloud.Nanomsg.Connection

/-!
# Messages can be delivered

While both sessions carry messages, every message that was sent can still be received: the library
or the user of the other side can make a step until all of them were (`can_deliver`).  Each of these
steps lowers a measure, which counts the messages that were not received, the bytes that were not
read and what the events in the queues and the bytes that wait to be sent still cause.

The message has to be one that the other side accepts, since a session fails on a size above its
option `NN_RCVMAXSIZE`.
-/

namespace NitroCloud.Nanomsg.Transport

open Framing Machine

/-! ## The calls of a socket that is given what it needs -/

namespace Usock

variable {u : Usock}

theorem send_raw_all (iov : List Bytes) {nbytes : ℕ} (h : iov.flatten.length < nbytes) :
    send_raw iov nbytes = [] := by
  induction iov generalizing nbytes with
  | nil => rfl
  | cons v iov ih =>
    rw [List.flatten_cons, List.length_append] at h
    rw [send_raw, if_neg (by omega), if_pos (by omega)]
    exact ih (by omega)

/-- `recvmsg` has no bytes, and the socket takes what is in its batch buffer. -/
theorem recv_nil (n : ℕ) (hactive : u.state = .active) :
    ∃ u' types, u.recv n (some []) = (u', types) ∧ u'.state = .active ∧ u'.rx = u.rx ∧
      u'.pollout = u.pollout ∧ (types = [.received] ∨ types = []) := by
  refine ⟨(u.recv n (some [])).1, (u.recv n (some [])).2, rfl, ?_⟩
  rw [recv, if_pos hactive]
  unfold recv_raw
  split_ifs
  · simp only
    split_ifs
    · exact ⟨hactive, rfl, rfl, .inl rfl⟩
    · exact ⟨hactive, rfl, rfl, .inr rfl⟩
  · simp only [Option.map_some, List.take_nil, List.drop_nil, List.append_nil]
    split_ifs
    · exact ⟨hactive, rfl, rfl, .inl rfl⟩
    · exact ⟨hactive, rfl, rfl, .inr rfl⟩

/-- The worker has bytes for a socket that waits for some. -/
theorem fd_in_some {rest : Bytes} (hbatch : u.batch = []) (hpos : 0 < u.len) (hrest : rest ≠ []) :
    ∃ u' types got, u.fd_in (some rest) = (u', types) ∧ u'.state = u.state ∧
      u'.pollout = u.pollout ∧ u'.rx = u.rx ++ got ∧ got ≠ [] ∧ got <+: rest ∧
      (types = [.received] ∨ types = []) := by
  refine ⟨(u.fd_in (some rest)).1, (u.fd_in (some rest)).2,
    rest.take (if batchSize < u.len then u.len else batchSize), rfl, ?_⟩
  have hnot : ¬(u.batch ≠ [] ∧ u.len ≤ u.batch.length) := fun h => h.1 hbatch
  have hgot : rest.take (if batchSize < u.len then u.len else batchSize) ≠ [] := by
    have hsize : (if batchSize < u.len then u.len else batchSize) ≠ 0 := by
      split_ifs
      · omega
      · decide
    simp [List.take_eq_nil_iff, hsize, hrest]
  have hpre := List.take_prefix (if batchSize < u.len then u.len else batchSize) rest
  unfold fd_in recv_raw
  rw [if_neg hnot]
  simp only [Option.map_some, hbatch, List.length_nil, Nat.sub_zero]
  generalize (if batchSize < u.len then u.len else batchSize) = size at hgot hpre ⊢
  split_ifs
  · exact ⟨rfl, rfl, rfl, hgot, hpre, .inl rfl⟩
  · exact ⟨rfl, rfl, rfl, hgot, hpre, .inr rfl⟩

/-- There is room for all bytes that wait to be sent. -/
theorem fd_out_all (u : Usock) : ∃ room u', u.fd_out (some room) = (u', [.sent]) ∧
    u'.state = u.state ∧ u'.rx = u.rx ∧ u'.pollout = false := by
  have hnil : (u.sendmsg (u.iov.flatten.length + 1)).iov = [] :=
    send_raw_all u.iov (Nat.lt_succ_self _)
  refine ⟨u.iov.flatten.length + 1, { u.sendmsg (u.iov.flatten.length + 1) with pollout := false },
    ?_, rfl, rfl, rfl⟩
  simp only [fd_out, if_pos hnil]

end Usock

/-! ## The steps of a session -/

namespace Session

open Connection

variable {kind : Kind} {timeouts : Bool} {s s' : Session}

/-- How many steps an event can still cause. -/
def cost (instate : InState) : FsmEvent → ℕ
  | .usock .received => if instate = .hdr then 4 else 3
  | .usock .sent => 2
  | _ => 1

theorem cost_le (instate : InState) (event : FsmEvent) : cost instate event ≤ 4 := by
  unfold cost
  split
  · split_ifs <;> omega
  · omega
  · omega

/-- How many steps the library can still make on its own. -/
def weight (s : Session) : ℕ :=
  (s.events.map (cost s.instate)).sum + if s.usock.pollout then 4 else 0

/-- A step that gives the user a message, reads a byte or takes something off the weight. -/
structure Proceeds (s s' : Session) : Prop where
  live : Live s'
  sent : s'.sent = s.sent
  lower : s'.weight + 8 * (s.received.length + s.usock.rx.length) <
    s.weight + 8 * (s'.received.length + s'.usock.rx.length)

/-- The worker sends all bytes that wait. -/
theorem proceeds_fd_out (hlive : Live s) (hevents : s.events = [])
    (hpollout : s.usock.pollout = true) :
    ∃ e s', s.step kind e = some s' ∧ s.Proceeds s' ∧ s'.usock.rx = s.usock.rx := by
  obtain ⟨hs, hstate, hactive⟩ := hlive
  obtain ⟨room, u, hfd, hu, hrx, hp⟩ := s.usock.fd_out_all
  refine ⟨.fd_out (some room), { s with usock := u, events := [.usock .sent] }, ?_,
    ⟨⟨hs, hstate, hu.trans hactive⟩, rfl, ?_⟩, hrx⟩
  · simp [step, advance, polled, withUsock, assert, hs, hevents, hstate, hactive, hpollout, hfd]
  · simp [weight, cost, hevents, hpollout, hp, hrx]

/-- The worker reads bytes that the session waits for. -/
theorem proceeds_fd_in {rest : Bytes} (hlive : Live s) (hevents : s.events = [])
    (hpollin : s.usock.pollin = true) (hreading : s.Reading kind) (hrest : rest ≠ []) :
    ∃ e s', s.step kind e = some s' ∧ s.Proceeds s' ∧ s'.usock.rx <+: s.usock.rx ++ rest := by
  obtain ⟨hs, hstate, hactive⟩ := hlive
  have hwaits : 0 < s.usock.len ∧ s.usock.batch = [] := by
    obtain ⟨hdr, -, ⟨-, hasked⟩ | ⟨inhdr, -, -, -, hasked⟩⟩ := hreading
    · exact (hasked.waits hpollin).2
    · exact (hasked.waits hpollin).2
  obtain ⟨u, types, got, hfd, hu, hp, hrx, hgot, hpre, htypes⟩ :=
    Usock.fd_in_some hwaits.2 hwaits.1 hrest
  refine ⟨.fd_in (some rest), { s with usock := u, events := types.map .usock }, ?_,
    ⟨⟨hs, hstate, hu.trans hactive⟩, rfl, ?_⟩, ?_⟩
  · simp [step, advance, polled, withUsock, assert, hs, hevents, hstate, hactive, hpollin, hfd]
  · have hpos := List.length_pos_iff.2 hgot
    have hcost := cost_le s.instate (.usock .received)
    rcases htypes with rfl | rfl
    · simp [weight, hevents, hp, hrx]
      omega
    · simp [weight, hevents, hp, hrx]
      omega
  · simp only [hrx]
    exact (List.prefix_append_right_inj _).2 hpre

/-- The user takes the message that waits. -/
theorem proceeds_nn_recv (hlive : Live s) (h : s.Ok kind timeouts) (hevents : s.events = [])
    (hinpipe : s.excl.inpipe = true) :
    ∃ e s', s.step kind e = some s' ∧ s.Proceeds s' ∧ s'.usock.rx = s.usock.rx := by
  obtain ⟨hs, hstate, hactive⟩ := hlive
  obtain ⟨-, -, -, -, hin⟩ := h.active_of_pipe hs hevents (.inl hinpipe)
  rcases hin with ⟨-, -, hnot, -⟩ | ⟨-, hinstate, hpipein, -⟩ | ⟨hnil, -⟩ | ⟨hnil, -⟩
  · simp [hinpipe] at hnot
  · obtain ⟨u, types, hrecv, hu, hrx, hp, htypes⟩ := Usock.recv_nil kind.hdrSize hactive
    refine ⟨.nn_recv (some []), { s with
      usock := u
      events := types.map .usock
      pipebase := { s.pipebase with instate := .async }
      excl := { s.excl with inpipe := false }
      received := s.received ++ [s.inmsg]
      inmsg := []
      instate := .hdr }, ?_, ⟨⟨hs, hstate, hu⟩, rfl, ?_⟩, hrx⟩
    · simp [step, advance, excl_recv, stcp_recv, withUsock, assert, hs, hevents, hinpipe, hpipein,
        hstate, hinstate, hrecv]
    · rcases htypes with rfl | rfl
      · simp [weight, cost, hevents, hp, hrx]
        omega
      · simp [weight, hevents, hp, hrx]
  · cases hnil
  · cases hnil

/-- The next header is one that the session accepts. -/
def Accepts (kind : Kind) (s : Session) : Prop :=
  ∀ hdr inhdr, hdr.length = 8 → inhdr.length = kind.hdrSize →
    hdr ++ stream kind.frame s.received ++ inhdr <+: s.usock.rx →
      kind.normal inhdr = true ∧ kind.tooLarge (kind.size inhdr) = false

/-- The socket has what the session asked it for. -/
theorem proceeds_received (hlive : Live s) (hevents : s.events = [.usock .received])
    (hreading : s.Reading kind) (hpipein : s.pipebase.instate = .async)
    (hpollin : s.usock.pollin = false) (haccepts : s.Accepts kind) :
    ∃ e s', s.step kind e = some s' ∧ s.Proceeds s' ∧ s'.usock.rx = s.usock.rx := by
  obtain ⟨hs, hstate, hactive⟩ := hlive
  refine ⟨.process (some []), ?_⟩
  obtain ⟨hdr, hlength, ⟨hinstate, hasked⟩ | ⟨inhdr, hinstate, -, -, -⟩⟩ := hreading
  · obtain ⟨hnormal, hsize⟩ := haccepts hdr s.usock.buf hlength (hasked.length hpollin)
      ⟨_, hasked.rx.symm⟩
    by_cases hzero : kind.size s.usock.buf = 0
    · rw [hzero] at hsize
      refine ⟨{ s with
        events := [.pipe_in]
        inmsg := []
        instate := .hasmsg
        pipebase := { s.pipebase with instate := .idle } }, ?_, ⟨⟨hs, hstate, hactive⟩, rfl, ?_⟩,
        rfl⟩
      · simp [step, advance, process, stcp_usock, stcp_received, pipebase_received, raise, assert,
          hs, hevents, hstate, hinstate, hnormal, hsize, hzero, hpipein]
      · simp [weight, cost, hevents, hinstate]
    · obtain ⟨u, types, hrecv, hu, hrx, hp, htypes⟩ :=
        Usock.recv_nil (kind.size s.usock.buf) hactive
      refine ⟨{ s with usock := u, events := types.map .usock, instate := .body }, ?_,
        ⟨⟨hs, hstate, hu⟩, rfl, ?_⟩, hrx⟩
      · simp [step, advance, process, stcp_usock, stcp_received, withUsock, assert, hs, hevents,
          hstate, hinstate, hnormal, hsize, hzero, hrecv]
      · rcases htypes with rfl | rfl
        · simp [weight, cost, hevents, hinstate, hp, hrx]
        · simp [weight, cost, hevents, hinstate, hp, hrx]
  · refine ⟨{ s with
      events := [.pipe_in]
      inmsg := s.usock.buf
      instate := .hasmsg
      pipebase := { s.pipebase with instate := .idle } }, ?_, ⟨⟨hs, hstate, hactive⟩, rfl, ?_⟩, rfl⟩
    · simp [step, advance, process, stcp_usock, stcp_received, pipebase_received, raise, assert, hs,
        hevents, hstate, hinstate, hpipein]
    · simp [weight, cost, hevents, hinstate]

/-- The side that receives takes an event. -/
theorem proceeds_in (hlive : Live s) (hpipe : s.excl.pipe = true) (hin : s.InSide kind s.events)
    (hnot : s.events ≠ []) (haccepts : s.Accepts kind) :
    ∃ e s', s.step kind e = some s' ∧ s.Proceeds s' ∧ s'.usock.rx = s.usock.rx := by
  rcases hin with ⟨hreading, hpipein, -, ⟨hnil, -⟩ | ⟨hone, -, hpollin⟩⟩ |
    ⟨-, -, -, ⟨hnil, -⟩ | ⟨hone, hinpipe⟩⟩ | ⟨-, hu⟩ | ⟨-, hu⟩
  · exact absurd hnil hnot
  · exact proceeds_received hlive hone (hreading hlive.usock) hpipein hpollin haccepts
  · exact absurd hnil hnot
  · obtain ⟨hs, hstate, hactive⟩ := hlive
    refine ⟨.process (some []), { s with events := [], excl := { s.excl with inpipe := true } }, ?_,
      ⟨⟨hs, hstate, hactive⟩, rfl, ?_⟩, rfl⟩
    · simp [step, advance, process, excl_in, assert, hs, hone, hinpipe, hpipe]
    · simp [weight, cost, hone]
  · exact absurd (hlive.usock.symm.trans hu) (by simp)
  · exact absurd (hlive.usock.symm.trans hu) (by simp)

/-- The library takes the next event. -/
theorem proceeds_process (hlive : Live s) (h : s.Ok kind timeouts) (hnot : s.events ≠ [])
    (haccepts : s.Accepts kind) :
    ∃ e s', s.step kind e = some s' ∧ s.Proceeds s' ∧ s'.usock.rx = s.usock.rx := by
  have hlive' := hlive
  obtain ⟨hs, hstate, hactive⟩ := hlive
  cases h.phase hs with
  | active outEvents inEvents _ hpipebase hpipe hevents hsent hout hin =>
    rcases hout with ⟨houtstate, hpipeout, -, ⟨rfl, -⟩ | ⟨rfl, houtpipe⟩⟩ |
      ⟨houtstate, hpipeout, houtpipe, ⟨rfl, -⟩ | ⟨rfl, -, -⟩⟩
    · exact proceeds_in hlive' hpipe (by simpa [hevents] using hin) hnot haccepts
    · refine ⟨.process (some []), { s with
        events := inEvents, excl := { s.excl with outpipe := true } }, ?_,
        ⟨⟨hs, hstate, hactive⟩, rfl, ?_⟩, rfl⟩
      · simp [step, advance, process, excl_out, assert, hs, hevents, houtpipe, hpipe]
      · simp [weight, cost, hevents]
    · exact proceeds_in hlive' hpipe (by simpa [hevents] using hin) hnot haccepts
    · obtain rfl := hsent rfl
      refine ⟨.process (some []), { s with
        events := [.pipe_out]
        outstate := .idle
        pipebase := { s.pipebase with outstate := .idle } }, ?_,
        ⟨⟨hs, hstate, hactive⟩, rfl, ?_⟩, rfl⟩
      · simp [step, advance, process, stcp_usock, pipebase_sent, raise, assert, hs, hevents, hstate,
          houtstate, hpipeout]
      · simp [weight, cost, hevents]
  | _ => simp_all [new]

end Session

/-! ## The steps of the connection -/

namespace Connection

variable {link : Link} {timeouts : Bool} {c : Connection}

/-- What is left to do on a side, where at most `bound` messages and bytes can come. -/
def remaining (bound : ℕ) (s : Session) : ℕ :=
  8 * bound + s.weight - 8 * (s.received.length + s.usock.rx.length)

/-- The messages that can be received, and the bytes that can be read. -/
def bound (link : Link) (sent : Side → List Bytes) (i : Side) : ℕ :=
  (sent i.other).length +
    (Session.protohdr ++ stream (link.kind i).frame (sent i.other)).length

theorem remaining_lt {s s' : Session} {bound : ℕ} (h : s.Proceeds s')
    (hbound : s'.received.length + s'.usock.rx.length ≤ bound) :
    remaining bound s' < remaining bound s := by
  have hlower := h.lower
  rw [remaining, remaining]
  omega

theorem Sound.le_bound (h : c.Sound link timeouts) (i : Side) :
    (c i).received.length + (c i).usock.rx.length ≤ bound link (fun i => (c i).sent) i := by
  have hreceived := ((received_isPrefix_got (c i)).trans (h.got_isPrefix i)).length_le
  have hrx := ((h.rx i).trans (h.ok i.other).tx).length_le
  rw [Session.written, link.frame_other] at hrx
  rw [bound]
  split_ifs at hrx
  · simp only [List.length_nil] at hrx
    omega
  · omega

theorem Sound.accepts {i : Side} (h : c.Sound link timeouts)
    (hsize : ∀ msg ∈ (c i.other).sent, (link.kind i).tooLarge msg.length = false) :
    (c i).Accepts (link.kind i) := by
  intro hdr inhdr hlength hinhdr hpre
  obtain ⟨msg, hmsg, rfl⟩ := h.next_header hlength hinhdr hpre
  refine ⟨Kind.normal_outhdr _ _, ?_⟩
  rw [Kind.size_outhdr _ (h.sent_lt i.other msg hmsg)]
  exact hsize msg hmsg

/-- A side can proceed, or it is at rest and no message waits for its user. -/
theorem Sound.proceeds_or_rest {i : Side} (h : c.Sound link timeouts) (hlive : Live (c i))
    (haccepts : (c i).Accepts (link.kind i)) :
    (∃ e s', (c i).step (link.kind i) e = some s' ∧ (c i).Proceeds s' ∧
        s'.usock.rx <+: (c i.other).usock.tx) ∨
      (c.AtRest i ∧ (c i).excl.inpipe = false) := by
  -- the steps that read no byte
  have hsame (hstep : ∃ e s', (c i).step (link.kind i) e = some s' ∧ (c i).Proceeds s' ∧
      s'.usock.rx = (c i).usock.rx) : ∃ e s', (c i).step (link.kind i) e = some s' ∧
        (c i).Proceeds s' ∧ s'.usock.rx <+: (c i.other).usock.tx := by
    obtain ⟨e, s', hs', hproceeds, hrx⟩ := hstep
    exact ⟨e, s', hs', hproceeds, hrx ▸ h.rx i⟩
  by_cases hevents : (c i).events = []
  · by_cases hpollout : (c i).usock.pollout = true
    · exact .inl (hsame (Session.proceeds_fd_out hlive hevents hpollout))
    · by_cases hinpipe : (c i).excl.inpipe = true
      · exact .inl (hsame (Session.proceeds_nn_recv hlive (h.ok i) hevents hinpipe))
      · have hpollout' := Bool.eq_false_of_not_eq_true hpollout
        obtain ⟨-, -, hin⟩ := hlive.at_rest (h.ok i) hevents hpollout'
        obtain ⟨hreading, hpollin⟩ := hin.resolve_left hinpipe
        by_cases hrx : (c i).usock.rx = (c i.other).usock.tx
        · exact .inr ⟨⟨hevents, hpollout', fun _ => hrx⟩, Bool.eq_false_of_not_eq_true hinpipe⟩
        · obtain ⟨rest, hrest⟩ := h.rx i
          have hnil : rest ≠ [] := by
            rintro rfl
            exact hrx ((List.append_nil _).symm.trans hrest)
          obtain ⟨e, s', hs', hproceeds, hpre⟩ :=
            Session.proceeds_fd_in hlive hevents hpollin hreading hnil
          exact .inl ⟨e, s', hs', hproceeds, hrest ▸ hpre⟩
  · exact .inl (hsame (Session.proceeds_process hlive (h.ok i) hevents haccepts))

/-- Both sides carry messages, and the users have sent these. -/
structure Carries (link : Link) (sent : Side → List Bytes) (c : Connection) : Prop where
  sound : c.Sound link true
  live : ∀ i, Live (c i)
  sent_eq : ∀ i, (c i).sent = sent i

/-- What is left to do on both sides. -/
def measure (link : Link) (sent : Side → List Bytes) (c : Connection) : ℕ :=
  remaining (bound link sent .left) (c .left) + remaining (bound link sent .right) (c .right)

theorem measure_update_lt {sent : Side → List Bytes} {i : Side} {s : Session}
    (h : remaining (bound link sent i) s < remaining (bound link sent i) (c i)) :
    measure link sent (Function.update c i s) < measure link sent c := by
  cases i with
  | left => simpa [measure, Function.update] using h
  | right => simpa [measure, Function.update] using h

/-- A side proceeds, and the other one is as it was. -/
theorem Carries.proceed {sent : Side → List Bytes} {i : Side} {e : Session.Event} {s : Session}
    (h : c.Carries link sent) (hs : (c i).step (link.kind i) e = some s)
    (hproceeds : (c i).Proceeds s) (hrx : s.usock.rx <+: (c i.other).usock.tx) :
    ∃ e c', c.step link e = some c' ∧ c'.Carries link sent ∧
      measure link sent c' < measure link sent c := by
  have hstep : c.step link (i, e) = some (Function.update c i s) := by
    simp only [step, hs, Option.bind_some, if_pos hrx]
  have hsound := h.sound.step (fun _ => rfl) hstep
  have hsent (j : Side) : (Function.update c i s j).sent = sent j := by
    by_cases hj : j = i
    · subst hj
      rw [Function.update_self, hproceeds.sent, h.sent_eq]
    · rw [Function.update_of_ne hj, h.sent_eq]
  refine ⟨(i, e), _, hstep, ⟨hsound, ?_, hsent⟩, measure_update_lt (remaining_lt hproceeds ?_)⟩
  · intro j
    by_cases hj : j = i
    · subst hj
      rw [Function.update_self]
      exact hproceeds.live
    · rw [Function.update_of_ne hj]
      exact h.live j
  · have hle := hsound.le_bound i
    rw [funext hsent, Function.update_self] at hle
    exact hle

theorem Carries.exists_step {sent : Side → List Bytes} (h : c.Carries link sent)
    (hsize : ∀ i, ∀ msg ∈ sent i.other, (link.kind i).tooLarge msg.length = false)
    (hnot : ¬∀ i, (c i).received = sent i.other) :
    ∃ e c', c.step link e = some c' ∧ c'.Carries link sent ∧
      measure link sent c' < measure link sent c := by
  have hcases (i : Side) := h.sound.proceeds_or_rest (h.live i)
    (h.sound.accepts (by rw [h.sent_eq]; exact hsize i))
  rcases hcases .left with ⟨e, s, hs, hproceeds, hrx⟩ | hleft
  · exact h.proceed hs hproceeds hrx
  · rcases hcases .right with ⟨e, s, hs, hproceeds, hrx⟩ | hright
    · exact h.proceed hs hproceeds hrx
    · -- both sides are at rest, and everything was received
      have hrest (i : Side) : c.AtRest i ∧ (c i).excl.inpipe = false := by
        cases i with
        | left => exact hleft
        | right => exact hright
      refine absurd (fun i => ?_) hnot
      rcases (h.sound.delivered h.live (fun i => (hrest i).1) i).2 with hinpipe | hreceived
      · exact absurd (hinpipe.symm.trans (hrest i).2) (by simp)
      · rw [hreceived, h.sent_eq]

/-- While both sides carry messages, whatever has happened before, each message that was sent and
that the other side accepts can still be received. -/
theorem can_deliver (hc : Reachable (step link) new c) (hlive : ∀ i, Live (c i))
    (hsize : ∀ i, ∀ msg ∈ (c i.other).sent, (link.kind i).tooLarge msg.length = false) :
    ∃ c', Reachable (step link) c c' ∧
      ∀ i, (c' i).sent = (c i).sent ∧ (c' i).received = (c i.other).sent := by
  have hcarries : c.Carries link fun i => (c i).sent := ⟨sound_reachable hc, hlive, fun _ => rfl⟩
  obtain ⟨c', hreach, hinv, hgoal⟩ := Reachable.exists_goal (Carries link fun i => (c i).sent)
    (fun c' => ∀ i, (c' i).received = (c i.other).sent) (measure link fun i => (c i).sent)
    (fun _ h hnot => h.exists_step hsize hnot) hcarries
  exact ⟨c', hreach, fun i => ⟨hinv.sent_eq i, hgoal i⟩⟩

/-- The message stands in the socket of the left side, which has sent the first four bytes of it. -/
theorem can_deliver_oneMessage : ∃ c c', Reachable (step overTcp) new c ∧
    (c .left).sent = [[1, 2, 3]] ∧ (c .right).received = [] ∧ Reachable (step overTcp) c c' ∧
    (c' .right).received = [[1, 2, 3]] := by
  have hany : (run (step overTcp) new (handshake ++ oneMessage.take 1)).any (fun c =>
      (c .left).sent = [[1, 2, 3]] ∧ (c .right).sent = [] ∧ (c .right).received = [] ∧
        ∀ i ∈ [Side.left, .right], (c i).aborted = false ∧ (c i).state = .active ∧
          (c i).usock.state = .active) = true := by
    decide +kernel
  obtain ⟨c, hc, hfacts⟩ := (Option.any_eq_true _ _).1 hany
  obtain ⟨hleft, hright, hreceived, hsides⟩ := of_decide_eq_true hfacts
  have hlive (i : Side) : Live (c i) := by
    obtain ⟨haborted, hstate, hactive⟩ := hsides i (by cases i <;> decide)
    exact ⟨haborted, hstate, hactive⟩
  have hsize (i : Side) (msg : Bytes) (hmsg : msg ∈ (c i.other).sent) :
      (overTcp.kind i).tooLarge msg.length = false := by
    cases i with
    | left => simp [Side.other, hright] at hmsg
    | right =>
      simp only [Side.other, hleft, List.mem_singleton] at hmsg
      subst hmsg
      decide
  obtain ⟨c', hreach, hdelivered⟩ := can_deliver ⟨_, hc⟩ hlive hsize
  exact ⟨c, c', ⟨_, hc⟩, hleft, hreceived, hreach, (hdelivered .right).2.trans hleft⟩

end Connection

end NitroCloud.Nanomsg.Transport
