import NitroCloud.Foundations.Framing
import NitroCloud.Nanomsg.Stcp

/-!
# What a session keeps

The invariant `Session.Ok` of a session says in which states its parts, its socket, its pipe and the
socket of the user are together, and which events are under way then.  It says as well what the
bytes are that were read and written.  Those given to the socket are the protocol header and the
frames of the messages that the user has sent.  Those read are a header of the peer, the frames of
the messages that the user was or will be given, and the bytes that are neither yet.

It holds whatever the peer sends and however the bytes come.
-/

namespace NitroCloud.Nanomsg.Transport

open Bytes Framing

/-! ## The frames -/

namespace Kind

/-- A message on the wire. -/
def frame (kind : Kind) (msg : Bytes) : Bytes := kind.outhdr msg.length ++ msg

@[simp] theorem length_outhdr (kind : Kind) (size : ℕ) :
    (kind.outhdr size).length = kind.hdrSize := by
  cases kind <;> simp [outhdr, hdrSize]

theorem hdrSize_pos (kind : Kind) : 0 < kind.hdrSize := by
  cases kind <;> simp [hdrSize]

theorem size_outhdr (kind : Kind) {size : ℕ} (h : size < 2 ^ 64) :
    kind.size (kind.outhdr size) = size := by
  have h' : size < 256 ^ 8 := by simpa using h
  cases kind with
  | tcp rcvmaxsize => exact beValue_beBytes_of_lt h'
  | ipc => exact beValue_beBytes_of_lt h'

theorem normal_outhdr (kind : Kind) (size : ℕ) : kind.normal (kind.outhdr size) = true := by
  cases kind <;> simp [normal, outhdr]

/-- A header that passes the assertion is the header of its size. -/
theorem outhdr_size (kind : Kind) {inhdr : Bytes} (hlength : inhdr.length = kind.hdrSize)
    (hnormal : kind.normal inhdr = true) :
    kind.outhdr (kind.size inhdr) = inhdr ∧ kind.size inhdr < 2 ^ 64 := by
  cases kind with
  | tcp rcvmaxsize =>
    have hlt := beValue_lt inhdr
    have heq := beBytes_beValue inhdr
    rw [show inhdr.length = 8 from hlength] at hlt heq
    exact ⟨heq, by simpa [size] using hlt⟩
  | ipc =>
    cases inhdr with
    | nil => cases hlength
    | cons b hdr =>
      have hb : b = 1 := by simpa [normal] using hnormal
      have hdrLength : hdr.length = 8 := by simpa [hdrSize] using hlength
      have hlt := beValue_lt hdr
      have heq := beBytes_beValue hdr
      rw [hdrLength] at hlt heq
      refine ⟨?_, by simpa [size] using hlt⟩
      simp only [outhdr, size, List.tail_cons, hb, heq]

/-- The frames of messages whose size fits its header can be told apart. -/
theorem decodable (kind : Kind) : Decodable kind.frame fun msg => msg.length < 2 ^ 64 := by
  constructor
  · intro msg _ hnil
    have hlength := congrArg List.length hnil
    have hpos := kind.hdrSize_pos
    simp [frame] at hlength
    omega
  · intro a b r t ha hb h
    rw [frame, frame, List.append_assoc, List.append_assoc] at h
    obtain ⟨hhdr, hrest⟩ := List.append_inj h (by simp)
    have hsize := congrArg kind.size hhdr
    rw [kind.size_outhdr ha, kind.size_outhdr hb] at hsize
    exact (List.append_inj hrest hsize).1

end Kind

namespace Session

variable {kind : Kind} {timeouts : Bool} {s s' : Session}

/-! ## The bytes -/

/-- What was given to the socket. -/
def written (kind : Kind) (s : Session) : Bytes :=
  if s.state = .idle then [] else protohdr ++ stream kind.frame s.sent

/-- The messages that were read. -/
def got (s : Session) : List Bytes :=
  if s.instate = .hasmsg then s.received ++ [s.inmsg] else s.received

/-- The messages that were read come after a header of the peer. -/
def Delivered (kind : Kind) (s : Session) : Prop :=
  (∀ msg ∈ s.got, msg.length < 2 ^ 64) ∧
    (s.got = [] ∨ ∃ hdr, hdr.length = 8 ∧ hdr ++ stream kind.frame s.got <+: s.usock.rx)

/-- The peer has sent a header that `sipc.c` does not accept. -/
def Abnormal (kind : Kind) (s : Session) : Prop :=
  ∃ hdr inhdr, hdr.length = 8 ∧ inhdr.length = kind.hdrSize ∧ kind.normal inhdr = false ∧
    hdr ++ stream kind.frame s.received ++ inhdr <+: s.usock.rx

/-- The header of the peer was read. -/
structure HdrRead (s : Session) : Prop where
  rx : s.usock.rx = s.usock.buf ++ s.usock.batch
  length : s.usock.buf.length = 8
  pollin : s.usock.pollin = false
  pollout : s.usock.pollout = false

/-- The session reads the header or the body of a message. -/
def Reading (kind : Kind) (s : Session) : Prop :=
  ∃ hdr, hdr.length = 8 ∧
    ((s.instate = .hdr ∧ s.usock.Asked (hdr ++ stream kind.frame s.received) kind.hdrSize) ∨
      ∃ inhdr, s.instate = .body ∧ inhdr.length = kind.hdrSize ∧ kind.normal inhdr = true ∧
        s.usock.Asked (hdr ++ stream kind.frame s.received ++ inhdr) (kind.size inhdr))

/-- The session has a message for the user. -/
def Holding (kind : Kind) (s : Session) : Prop :=
  s.usock.pollin = false ∧ ∃ hdr, hdr.length = 8 ∧
    s.usock.rx = hdr ++ stream kind.frame (s.received ++ [s.inmsg]) ++ s.usock.batch

/-! ## The states -/

/-- The session is no pipe of the socket of the user. -/
structure Closed (s : Session) : Prop where
  pipebase : s.pipebase.active = false
  excl : s.excl = ⟨false, false, false⟩

/-- No message was sent or received. -/
structure Fresh (s : Session) : Prop extends s.Closed where
  sent : s.sent = []
  received : s.received = []
  instate : s.instate = .none

/-- The owner waits for an event of its socket; `poll` says that the worker is still at work. -/
def Awaits (s : Session) (ready : UsockEvent) (poll : Bool) : Prop :=
  (s.events = [] ∧ (s.usock.state = .active → poll = true)) ∨
    (s.events = [.usock ready] ∧ s.usock.state = .active ∧ poll = false) ∨
    (s.events = [.usock .shutdown] ∧ s.usock.state = .removing_fd) ∨
    (s.events = [.usock .error] ∧ s.usock.state = .done)

/-- The side of an active session that sends, with its events. -/
def OutSide (s : Session) (events : List FsmEvent) : Prop :=
  (s.outstate = .idle ∧ s.pipebase.outstate = .idle ∧
      (s.usock.state = .active → s.usock.pollout = false) ∧
      ((events = [] ∧ s.excl.outpipe = true) ∨
        (events = [.pipe_out] ∧ s.excl.outpipe = false))) ∨
    (s.outstate = .sending ∧ s.pipebase.outstate = .async ∧ s.excl.outpipe = false ∧
      ((events = [] ∧ (s.usock.state = .active → s.usock.pollout = true)) ∨
        (events = [.usock .sent] ∧ s.usock.state = .active ∧ s.usock.pollout = false)))

/-- The side of an active session that receives, with its events. -/
def InSide (kind : Kind) (s : Session) (events : List FsmEvent) : Prop :=
  ((s.usock.state = .active → s.Reading kind) ∧ s.pipebase.instate = .async ∧
      s.excl.inpipe = false ∧
      ((events = [] ∧ (s.usock.state = .active → s.usock.pollin = true)) ∨
        (events = [.usock .received] ∧ s.usock.state = .active ∧ s.usock.pollin = false))) ∨
    ((s.usock.state = .active → s.Holding kind) ∧ s.instate = .hasmsg ∧
      s.pipebase.instate = .idle ∧
      ((events = [] ∧ s.excl.inpipe = true) ∨
        (events = [.pipe_in] ∧ s.excl.inpipe = false))) ∨
    (events = [.usock .shutdown] ∧ s.usock.state = .removing_fd) ∨
    (events = [.usock .error] ∧ s.usock.state = .done)

/-- The states of a session that has not aborted. -/
inductive Phase (kind : Kind) (timeouts : Bool) (s : Session) : Prop
  | idle (hnew : s = new)
  | sending (hstate : s.state = .protohdr) (hhdr : s.streamhdr = .sending) (hfresh : s.Fresh)
      (hevents : s.Awaits .sent s.usock.pollout)
      (hin : s.usock.state = .active →
        s.usock.rx = [] ∧ s.usock.batch = [] ∧ s.usock.pollin = false)
  | receiving (hstate : s.state = .protohdr) (hhdr : s.streamhdr = .receiving) (hfresh : s.Fresh)
      (hevents : s.Awaits .received s.usock.pollin)
      (hin : s.usock.state = .active → s.usock.Asked [] 8 ∧ s.usock.pollout = false)
  | stoppingError (hstate : s.state = .protohdr) (hhdr : s.streamhdr = .stopping_timer_error)
      (hfresh : s.Fresh)
      (hevents : s.events = [] ∨ s.events = [.usock .error] ∨
        (timeouts = true ∧ ∃ type, s.events = [.usock type]))
      (hin : timeouts = false → s.usock.state = .active →
        s.usock.pollin = false ∧ s.usock.pollout = false)
  | stoppingDone (hstate : s.state = .protohdr) (hhdr : s.streamhdr = .stopping_timer_done)
      (hfresh : s.Fresh) (hevents : s.events = [] ∨ s.events = [.usock .error])
      (hin : s.usock.state = .active → s.HdrRead)
  | hdrDone (hstate : s.state = .protohdr) (hhdr : s.streamhdr = .done) (hfresh : s.Fresh)
      (hevents : s.events = [.streamhdr_error] ∨
        (s.events = [.streamhdr_ok] ∧ (s.usock.state = .active → s.HdrRead)))
  | stopping (hstate : s.state = .stopping_streamhdr) (hfresh : s.Fresh)
      (hevents : s.events = [.streamhdr_stopped]) (hin : s.usock.state = .active → s.HdrRead)
  | active (outEvents inEvents : List FsmEvent) (hstate : s.state = .active)
      (hpipebase : s.pipebase.active = true) (hpipe : s.excl.pipe = true)
      (hevents : s.events = outEvents ++ inEvents)
      (hsent : outEvents = [.usock .sent] → inEvents = []) (hout : s.OutSide outEvents)
      (hin : s.InSide kind inEvents)
  | shutting_down (hstate : s.state = .shutting_down) (hclosed : s.Closed)
      (hevents : (s.events = [] ∧ s.usock.state = .removing_fd) ∨
        (s.events = [.usock .error] ∧ s.usock.state = .done))
  | done (hstate : s.state = .done)
      (hevents : (s.events = [] ∧ s.Closed) ∨
        (s.events = [.stcp_error] ∧ (s.pipebase.active = false → s.Closed) ∧
          (s.pipebase.active = true → s.excl.pipe = true)))

/-- What a session keeps; `timeouts` says that the timer of the protocol headers may expire. -/
structure Ok (kind : Kind) (timeouts : Bool) (s : Session) : Prop where
  sent : ∀ msg ∈ s.sent, msg.length < 2 ^ 64
  tx : s.usock.tx <+: s.written kind
  rx : s.Delivered kind
  aborted : s.aborted = true → timeouts = true ∨ s.Abnormal kind
  sending : s.aborted = false → s.usock.state = .active → s.usock.Sending (s.written kind)
  phase : s.aborted = false → s.Phase kind timeouts

theorem ok_new : (new : Session).Ok kind timeouts where
  sent := by simp [new]
  tx := List.nil_prefix
  rx := ⟨by simp [got, new], .inl rfl⟩
  aborted h := by cases h
  sending _ _ := ⟨rfl, fun _ => rfl⟩
  phase _ := .idle rfl

/-! ## The queue -/

theorem raise_nil (h : s.events = []) (event : FsmEvent) :
    s.raise event = { s with events := [event] } := by
  simp [raise, assert, h]

theorem withUsock_nil (u : Usock) : s.withUsock (u, []) = { s with usock := u } := by
  simp [withUsock, assert]

theorem withUsock_one (h : s.events = []) (u : Usock) (type : UsockEvent) :
    s.withUsock (u, [type]) = { s with usock := u, events := [.usock type] } := by
  simp [withUsock, assert, h]

theorem withUsock_append (h : s.events = [] ∨ s.events = [.pipe_out]) (u : Usock)
    (type : UsockEvent) :
    s.withUsock (u, [type]) = { s with usock := u, events := s.events ++ [.usock type] } := by
  rcases h with h | h
  · simp [withUsock, assert, h]
  · cases type <;> simp [withUsock, assert, h, FsmEvent.item]

/-- A step that goes on with the same bytes to send. -/
theorem Ok.read (h : s.Ok kind timeouts) (hsent : s'.sent = s.sent)
    (hwritten : s'.written kind = s.written kind) (hrx : s'.Delivered kind)
    (htx : s'.usock.tx <+: s.written kind) (haborted : s'.aborted = false)
    (hactive : s'.usock.state = .active → s'.usock.Sending (s.written kind))
    (hphase : s'.Phase kind timeouts) : s'.Ok kind timeouts where
  sent := hsent ▸ h.sent
  tx := hwritten ▸ htx
  rx := hrx
  aborted htrue := by simp [haborted] at htrue
  sending _ hstate := hwritten ▸ hactive hstate
  phase _ := hphase

/-- Bytes that are read leave the messages that were read. -/
theorem Delivered.mono (h : s.Delivered kind) (hgot : s'.got = s.got)
    (hrx : s.usock.rx <+: s'.usock.rx) : s'.Delivered kind := by
  obtain ⟨hlength, hstream⟩ := h
  rw [Delivered, hgot]
  refine ⟨hlength, hstream.imp_right ?_⟩
  rintro ⟨hdr, hhdr, hpre⟩
  exact ⟨hdr, hhdr, hpre.trans hrx⟩

/-- A step that goes on with the same messages and the same bytes to send. -/
theorem Ok.keep (h : s.Ok kind timeouts) (hsent : s'.sent = s.sent)
    (hwritten : s'.written kind = s.written kind) (hgot : s'.got = s.got)
    (htx : s'.usock.tx <+: s.written kind) (hrx : s.usock.rx <+: s'.usock.rx)
    (haborted : s'.aborted = false)
    (hactive : s'.usock.state = .active → s'.usock.Sending (s.written kind))
    (hphase : s'.Phase kind timeouts) : s'.Ok kind timeouts :=
  h.read hsent hwritten (h.rx.mono hgot hrx) htx haborted hactive hphase

/-- The socket fails, in a call or in the worker. -/
theorem Ok.fail (h : s.Ok kind timeouts) {u : Usock} (hsent : s'.sent = s.sent)
    (hwritten : s'.written kind = s.written kind) (hgot : s'.got = s.got) (hu : s'.usock = u)
    (htx : u.tx = s.usock.tx) (hrx : u.rx = s.usock.rx) (hstate : u.state ≠ .active)
    (haborted : s'.aborted = false) (hphase : s'.Phase kind timeouts) : s'.Ok kind timeouts := by
  subst hu
  refine h.keep hsent hwritten hgot (htx ▸ h.tx) (hrx ▸ List.prefix_rfl) haborted ?_ hphase
  exact fun hactive => absurd hactive hstate

theorem Fresh.move (h : s.Fresh) (u : Usock) (events : List FsmEvent) (streamhdr : StreamhdrState)
    (state : State) :
    Fresh { s with usock := u, events := events, streamhdr := streamhdr, state := state } :=
  ⟨⟨h.pipebase, h.excl⟩, h.sent, h.received, h.instate⟩

/-- The side that sends is left alone. -/
theorem OutSide.same {events : List FsmEvent} (h : s.OutSide events)
    (houtstate : s'.outstate = s.outstate)
    (hpipe : s'.pipebase.outstate = s.pipebase.outstate)
    (hexcl : s'.excl.outpipe = s.excl.outpipe) (hstate : s'.usock.state = s.usock.state)
    (hpollout : s'.usock.pollout = s.usock.pollout) : s'.OutSide events := by
  rw [OutSide, houtstate, hpipe, hexcl, hstate, hpollout]
  exact h

/-- The side that receives is left alone. -/
theorem InSide.same {events : List FsmEvent} (h : s.InSide kind events)
    (hinstate : s'.instate = s.instate) (hreceived : s'.received = s.received)
    (hinmsg : s'.inmsg = s.inmsg) (hpipe : s'.pipebase.instate = s.pipebase.instate)
    (hexcl : s'.excl.inpipe = s.excl.inpipe) (hstate : s'.usock.state = s.usock.state)
    (hsame : s.usock.SameIn s'.usock) : s'.InSide kind events := by
  have hreading (hr : s.Reading kind) : s'.Reading kind := by
    obtain ⟨hdr, hlength, hr | ⟨inhdr, hr, hinhdr, hnormal, hasked⟩⟩ := hr
    · exact ⟨hdr, hlength, .inl ⟨hinstate ▸ hr.1, hreceived ▸ hr.2.same hsame⟩⟩
    · exact ⟨hdr, hlength,
        .inr ⟨inhdr, hinstate ▸ hr, hinhdr, hnormal, hreceived ▸ hasked.same hsame⟩⟩
  have hholding (hr : s.Holding kind) : s'.Holding kind := by
    obtain ⟨hbatch, -, -, hpollin, hrx⟩ := hsame
    rw [Holding, hpollin, hrx, hreceived, hinmsg, hbatch]
    exact hr
  rw [InSide, hpipe, hexcl, hstate, hinstate, hsame.2.2.2.1]
  rcases h with ⟨hr, h⟩ | ⟨hr, h⟩ | h
  · exact .inl ⟨fun hactive => hreading (hr hactive), h⟩
  · exact .inr (.inl ⟨fun hactive => hholding (hr hactive), h⟩)
  · exact .inr (.inr h)

/-! ## The worker -/

/-- The socket fails in the worker. -/
theorem Phase.fail (hp : s.Phase kind timeouts) (hidle : s.state ≠ .idle) (hdone : s.state ≠ .done)
    (hevents : s.events = []) :
    Phase kind timeouts { s with usock := s.usock.fail.1, events := [.usock .error] } := by
  have hdead {P : Prop} : s.usock.fail.1.state = .active → P := fun h => by cases h
  cases hp with
  | idle hnew => exact absurd (hnew ▸ rfl) hidle
  | sending hstate hhdr hfresh _ hin =>
    exact .sending hstate hhdr (hfresh.move _ _ _ _) (.inr (.inr (.inr ⟨rfl, rfl⟩))) hdead
  | receiving hstate hhdr hfresh _ hin =>
    exact .receiving hstate hhdr (hfresh.move _ _ _ _) (.inr (.inr (.inr ⟨rfl, rfl⟩))) hdead
  | stoppingError hstate hhdr hfresh _ hin =>
    exact .stoppingError hstate hhdr (hfresh.move _ _ _ _) (.inr (.inl rfl)) fun _ => hdead
  | stoppingDone hstate hhdr hfresh _ hin =>
    exact .stoppingDone hstate hhdr (hfresh.move _ _ _ _) (.inr rfl) hdead
  | hdrDone hstate hhdr hfresh hevents' => simp [hevents] at hevents'
  | stopping hstate hfresh hevents' hin => simp [hevents] at hevents'
  | active outEvents inEvents hstate hpipebase hpipe hevents' hsent hout hin =>
    obtain ⟨rfl, rfl⟩ := List.append_eq_nil_iff.1 (hevents'.symm.trans hevents)
    refine .active [] [.usock .error] hstate hpipebase hpipe rfl (by simp) ?_
      (.inr (.inr (.inr ⟨rfl, rfl⟩)))
    rcases hout with ⟨houtstate, hpipeout, -, hcases⟩ | ⟨houtstate, hpipeout, houtpipe, -⟩
    · exact .inl ⟨houtstate, hpipeout, hdead, hcases⟩
    · exact .inr ⟨houtstate, hpipeout, houtpipe, .inl ⟨rfl, hdead⟩⟩
  | shutting_down hstate hclosed _ =>
    exact .shutting_down hstate ⟨hclosed.pipebase, hclosed.excl⟩ (.inr ⟨rfl, rfl⟩)
  | done hstate _ => exact absurd hstate hdone

theorem Ok.usock_fail (h : s.Ok kind timeouts) (hs : s.aborted = false) (hidle : s.state ≠ .idle)
    (hdone : s.state ≠ .done) (hevents : s.events = []) :
    (s.withUsock s.usock.fail).Ok kind timeouts := by
  rw [Usock.fail, withUsock_one hevents]
  exact h.fail rfl rfl rfl rfl rfl rfl (by simp) hs ((h.phase hs).fail hidle hdone hevents)

/-- The worker has sent some of the bytes, or all. -/
theorem Phase.fd_out {u : Usock} (hp : s.Phase kind timeouts) (events : List FsmEvent)
    (hpolled : s.polled) (hpollout : s.usock.pollout = true) (hstate : u.state = s.usock.state)
    (hsame : s.usock.SameIn u)
    (hcases : (events = [] ∧ u.pollout = true) ∨ (events = [.usock .sent] ∧ u.pollout = false)) :
    Phase kind timeouts { s with usock := u, events := events } := by
  obtain ⟨hevents, hidle, hdone, hactive⟩ := hpolled
  have hu : u.state = .active := hstate.trans hactive
  cases hp with
  | idle hnew => exact absurd (hnew ▸ rfl) hidle
  | sending hstate' hhdr hfresh _ hin =>
    obtain ⟨hbatch, -, -, hpollin, hrx⟩ := hsame
    obtain ⟨hin₁, hin₂, hin₃⟩ := hin hactive
    refine .sending hstate' hhdr (hfresh.move _ _ _ _) ?_
      fun _ => ⟨hrx.trans hin₁, hbatch.trans hin₂, hpollin.trans hin₃⟩
    rcases hcases with ⟨rfl, hp⟩ | ⟨rfl, hp⟩
    · exact .inl ⟨rfl, fun _ => hp⟩
    · exact .inr (.inl ⟨rfl, hu, hp⟩)
  | receiving hstate' hhdr hfresh hevents' hin => simp [(hin hactive).2] at hpollout
  | stoppingError hstate' hhdr hfresh _ hin =>
    have htimeouts : timeouts = true := by
      by_contra hfalse
      simp [(hin (Bool.eq_false_of_not_eq_true hfalse) hactive).2] at hpollout
    refine .stoppingError hstate' hhdr (hfresh.move _ _ _ _) ?_ fun hfalse =>
      absurd (htimeouts.symm.trans hfalse) (by simp)
    rcases hcases with ⟨rfl, -⟩ | ⟨rfl, -⟩
    · exact .inl rfl
    · exact .inr (.inr ⟨htimeouts, _, rfl⟩)
  | stoppingDone hstate' hhdr hfresh _ hin => simp [(hin hactive).pollout] at hpollout
  | hdrDone hstate' hhdr hfresh hevents' => simp [hevents] at hevents'
  | stopping hstate' hfresh hevents' hin => simp [hevents] at hevents'
  | active outEvents inEvents hstate' hpipebase hpipe hevents' hsent hout hin =>
    obtain ⟨rfl, rfl⟩ := List.append_eq_nil_iff.1 (hevents'.symm.trans hevents)
    have hin' : InSide kind { s with usock := u, events := events } [] :=
      hin.same rfl rfl rfl rfl rfl hstate hsame
    refine .active events [] hstate' hpipebase hpipe (List.append_nil _).symm (fun _ => rfl) ?_ hin'
    rcases hout with ⟨-, -, hnot, -⟩ | ⟨houtstate, hpipeout, houtpipe, -⟩
    · simp [hnot hactive] at hpollout
    · refine .inr ⟨houtstate, hpipeout, houtpipe, ?_⟩
      rcases hcases with ⟨rfl, hp⟩ | ⟨rfl, hp⟩
      · exact .inl ⟨rfl, fun _ => hp⟩
      · exact .inr ⟨rfl, hu, hp⟩
  | shutting_down hstate' hclosed hevents' => simp [hevents, hactive] at hevents'
  | done hstate' _ => exact absurd hstate' hdone

theorem Ok.fd_out {room : Option ℕ} (h : s.Ok kind timeouts) (hs : s.aborted = false)
    (hstep : s.advance kind (.fd_out room) = some s') : s'.Ok kind timeouts := by
  rw [advance, Option.ite_none_right_eq_some] at hstep
  obtain ⟨⟨hpolled, hpollout⟩, hstep⟩ := hstep
  cases hstep
  obtain ⟨hevents, hidle, hdone, hactive⟩ := hpolled
  have hsending := h.sending hs hactive
  rcases s.usock.fd_out_cases room hsending hpollout with
    hfail | ⟨u, hstate, hsending', hsame, hcases⟩
  · rw [hfail]
    exact h.usock_fail hs hidle hdone hevents
  · have hrx : s.usock.rx <+: u.rx := hsame.2.2.2.2 ▸ List.prefix_rfl
    have hphase {events : List FsmEvent} :=
      (h.phase hs).fd_out events ⟨hevents, hidle, hdone, hactive⟩ hpollout hstate hsame
    rcases hcases with ⟨hout, hp⟩ | ⟨hout, hp⟩
    · rw [hout, withUsock_one hevents]
      exact h.keep rfl rfl rfl ⟨_, hsending'.tx⟩ hrx hs (fun _ => hsending')
        (hphase (.inr ⟨rfl, hp⟩))
    · rw [hout, withUsock_nil]
      exact h.keep rfl rfl rfl ⟨_, hsending'.tx⟩ hrx hs (fun _ => hsending')
        (hphase (.inl ⟨hevents, hp⟩))

/-- The worker has received some of the bytes, or all. -/
theorem Phase.fd_in {u : Usock} (hp : s.Phase kind timeouts) (events : List FsmEvent)
    (hpolled : s.polled) (hpollin : s.usock.pollin = true)
    (hstate : u.state = s.usock.state) (hsame : s.usock.SameOut u)
    (hasked : ∀ before n, s.usock.Asked before n → u.Asked before n)
    (hcases : (events = [] ∧ u.pollin = true) ∨
      (events = [.usock .received] ∧ u.pollin = false)) :
    Phase kind timeouts { s with usock := u, events := events } := by
  obtain ⟨hevents, hidle, hdone, hactive⟩ := hpolled
  have hu : u.state = .active := hstate.trans hactive
  cases hp with
  | idle hnew => exact absurd (hnew ▸ rfl) hidle
  | sending hstate' hhdr hfresh _ hin => simp [(hin hactive).2.2] at hpollin
  | receiving hstate' hhdr hfresh hevents' hin =>
    refine .receiving hstate' hhdr (hfresh.move _ _ _ _) ?_
      fun _ => ⟨hasked _ _ (hin hactive).1, hsame.2.1.trans (hin hactive).2⟩
    rcases hcases with ⟨rfl, hp⟩ | ⟨rfl, hp⟩
    · exact .inl ⟨rfl, fun _ => hp⟩
    · exact .inr (.inl ⟨rfl, hu, hp⟩)
  | stoppingError hstate' hhdr hfresh _ hin =>
    have htimeouts : timeouts = true := by
      by_contra hfalse
      simp [(hin (Bool.eq_false_of_not_eq_true hfalse) hactive).1] at hpollin
    refine .stoppingError hstate' hhdr (hfresh.move _ _ _ _) ?_ fun hfalse =>
      absurd (htimeouts.symm.trans hfalse) (by simp)
    rcases hcases with ⟨rfl, -⟩ | ⟨rfl, -⟩
    · exact .inl rfl
    · exact .inr (.inr ⟨htimeouts, _, rfl⟩)
  | stoppingDone hstate' hhdr hfresh _ hin => simp [(hin hactive).pollin] at hpollin
  | hdrDone hstate' hhdr hfresh hevents' => simp [hevents] at hevents'
  | stopping hstate' hfresh hevents' hin => simp [hevents] at hevents'
  | active outEvents inEvents hstate' hpipebase hpipe hevents' hsent hout hin =>
    obtain ⟨rfl, rfl⟩ := List.append_eq_nil_iff.1 (hevents'.symm.trans hevents)
    have hout' : OutSide { s with usock := u, events := events } [] :=
      hout.same rfl rfl rfl hstate hsame.2.1
    refine .active [] events hstate' hpipebase hpipe rfl (by simp) hout' ?_
    rcases hin with ⟨hreading, hpipein, hinpipe, -⟩ | ⟨hholding, -⟩ | ⟨hnil, -⟩ | ⟨hnil, -⟩
    · refine .inl ⟨fun _ => ?_, hpipein, hinpipe, ?_⟩
      · obtain ⟨hdr, hlength, ⟨hinstate, hr⟩ | ⟨inhdr, hinstate, hinhdr, hnormal, hr⟩⟩ :=
          hreading hactive
        · exact ⟨hdr, hlength, .inl ⟨hinstate, hasked _ _ hr⟩⟩
        · exact ⟨hdr, hlength, .inr ⟨inhdr, hinstate, hinhdr, hnormal, hasked _ _ hr⟩⟩
      · rcases hcases with ⟨rfl, hp⟩ | ⟨rfl, hp⟩
        · exact .inl ⟨rfl, fun _ => hp⟩
        · exact .inr ⟨rfl, hu, hp⟩
    · simp [(hholding hactive).1] at hpollin
    · cases hnil
    · cases hnil
  | shutting_down hstate' hclosed hevents' => simp [hevents, hactive] at hevents'
  | done hstate' _ => exact absurd hstate' hdone

theorem Ok.fd_in {msg : Option Bytes} (h : s.Ok kind timeouts) (hs : s.aborted = false)
    (hstep : s.advance kind (.fd_in msg) = some s') : s'.Ok kind timeouts := by
  rw [advance, Option.ite_none_right_eq_some] at hstep
  obtain ⟨⟨hpolled, hpollin⟩, hstep⟩ := hstep
  cases hstep
  obtain ⟨hevents, hidle, hdone, hactive⟩ := hpolled
  rcases s.usock.fd_in_cases msg hpollin with hfail | ⟨u, hstate, hasked, hsame, hrx, hcases⟩
  · rw [hfail]
    exact h.usock_fail hs hidle hdone hevents
  · have hsending : u.Sending (s.written kind) := (h.sending hs hactive).same hsame
    have hphase {events : List FsmEvent} :=
      (h.phase hs).fd_in events ⟨hevents, hidle, hdone, hactive⟩ hpollin hstate hsame
        hasked
    rcases hcases with ⟨hin, hp⟩ | ⟨hin, hp⟩
    · rw [hin, withUsock_one hevents]
      exact h.keep rfl rfl rfl ⟨_, hsending.tx⟩ hrx hs (fun _ => hsending)
        (hphase (.inr ⟨rfl, hp⟩))
    · rw [hin, withUsock_nil]
      exact h.keep rfl rfl rfl ⟨_, hsending.tx⟩ hrx hs (fun _ => hsending)
        (hphase (.inl ⟨hevents, hp⟩))

theorem Ok.task {e : Event} (he : e = .fd_err ∨ e = .task_stop) (h : s.Ok kind timeouts)
    (hs : s.aborted = false) (hstep : s.advance kind e = some s') : s'.Ok kind timeouts := by
  rcases he with rfl | rfl
  · rw [advance, Option.ite_none_right_eq_some] at hstep
    obtain ⟨⟨hevents, hidle, hdone, -⟩, hstep⟩ := hstep
    cases hstep
    exact h.usock_fail hs hidle hdone hevents
  · rw [advance, Option.ite_none_right_eq_some] at hstep
    obtain ⟨⟨hevents, hdone, hremoving⟩, hstep⟩ := hstep
    cases hstep
    refine h.usock_fail hs ?_ hdone hevents
    intro hidle
    cases h.phase hs with
    | idle hnew =>
      rw [hnew] at hremoving
      cases hremoving
    | _ => simp_all

/-! ## The protocol headers -/

/-- A session that has nothing but its protocol header to send. -/
theorem ok_protohdr {u : Usock} {events : List FsmEvent} (htx : u.tx <+: protohdr)
    (hsending : u.state = .active → u.Sending protohdr)
    (hphase : Phase kind timeouts
      { (new : Session) with
        usock := u, events := events, streamhdr := .sending, state := .protohdr }) :
    Ok kind timeouts { (new : Session) with
      usock := u, events := events, streamhdr := .sending, state := .protohdr } where
  sent := by simp [new]
  tx := by simpa [written, new] using htx
  rx := ⟨by simp [got, new], .inl rfl⟩
  aborted h := by cases h
  sending _ hstate := by simpa [written, new] using hsending hstate
  phase _ := hphase

theorem Ok.start {room : Option ℕ} (h : s.Ok kind timeouts) (hs : s.aborted = false)
    (hstep : s.advance kind (.start room) = some s') : s'.Ok kind timeouts := by
  rw [advance, Option.ite_none_right_eq_some] at hstep
  obtain ⟨hidle, hstep⟩ := hstep
  cases hstep
  have hnew : s = new := by
    cases h.phase hs with
    | idle hnew => exact hnew
    | _ => simp_all
  subst hnew
  rcases (new : Session).usock.send_cases [protohdr] room rfl rfl rfl with
    ⟨u, hsend, hstate, htx, -⟩ | ⟨u, hstate, hsending, ⟨hbatch, -, -, hpollin, hrx⟩, hcases⟩
  · rw [hsend, withUsock_one rfl]
    refine ok_protohdr (htx ▸ List.nil_prefix) (fun hactive => by simp [hstate] at hactive) ?_
    refine .sending rfl rfl ⟨⟨rfl, rfl⟩, rfl, rfl, rfl⟩ (.inr (.inr (.inl ⟨rfl, hstate⟩))) ?_
    exact fun hactive => by simp [hstate] at hactive
  · have hsending' : u.Sending protohdr := by simpa [new, Usock.new] using hsending
    have htx : u.tx <+: protohdr := ⟨_, hsending'.tx⟩
    rcases hcases with ⟨hsend, hpollout⟩ | ⟨hsend, hpollout⟩
    · rw [hsend, withUsock_one rfl]
      refine ok_protohdr htx (fun _ => hsending') ?_
      exact .sending rfl rfl ⟨⟨rfl, rfl⟩, rfl, rfl, rfl⟩ (.inr (.inl ⟨rfl, hstate, hpollout⟩))
        fun _ => ⟨hrx, hbatch, hpollin⟩
    · rw [hsend, withUsock_nil]
      refine ok_protohdr htx (fun _ => hsending') ?_
      exact .sending rfl rfl ⟨⟨rfl, rfl⟩, rfl, rfl, rfl⟩ (.inl ⟨rfl, fun _ => hpollout⟩)
        fun _ => ⟨hrx, hbatch, hpollin⟩

theorem written_of_ne {state : State} (h : s.state ≠ .idle) (hstate : state ≠ .idle)
    (hstate' : s'.state = state) (hsent : s'.sent = s.sent) :
    s'.written kind = s.written kind := by
  rw [written, written, if_neg h, hstate', if_neg hstate, hsent]

/-- A step that leaves the bytes and the messages alone. -/
theorem Ok.control (h : s.Ok kind timeouts) (hs : s.aborted = false) (hidle : s.state ≠ .idle)
    (hidle' : s'.state ≠ .idle) (hsent : s'.sent = s.sent) (hgot : s'.got = s.got)
    (hu : s'.usock = s.usock) (haborted : s'.aborted = false) (hphase : s'.Phase kind timeouts) :
    s'.Ok kind timeouts := by
  refine h.keep hsent (written_of_ne hidle hidle' rfl hsent) hgot (hu ▸ h.tx)
    (hu ▸ List.prefix_rfl) haborted ?_ hphase
  intro hactive
  rw [hu] at hactive ⊢
  exact h.sending hs hactive

theorem Ok.timer {e : Event} (he : (e = .timeout ∧ timeouts = true) ∨ e = .timer_stopped)
    (h : s.Ok kind timeouts) (hs : s.aborted = false) (hstep : s.advance kind e = some s') :
    s'.Ok kind timeouts := by
  rcases he with ⟨rfl, htimeouts⟩ | rfl
  · rw [advance, Option.ite_none_right_eq_some] at hstep
    obtain ⟨⟨hevents, hstate, hhdr⟩, hstep⟩ := hstep
    cases hstep
    have hfresh : s.Fresh := by
      cases h.phase hs with
      | sending _ _ hfresh => exact hfresh
      | receiving _ _ hfresh => exact hfresh
      | _ => simp_all [new]
    refine h.control hs (by simp [hstate]) (by simp [hstate]) rfl rfl rfl hs ?_
    exact .stoppingError hstate rfl (hfresh.move _ _ _ _) (.inl hevents) fun hfalse =>
      absurd (htimeouts.symm.trans hfalse) (by simp)
  · rw [advance, Option.ite_none_right_eq_some] at hstep
    obtain ⟨⟨hevents, hstate⟩, hstep⟩ := hstep
    split at hstep
    case h_1 hhdr =>
      cases hstep
      have hfresh : s.Fresh := by
        cases h.phase hs with
        | stoppingError _ _ hfresh => exact hfresh
        | _ => simp_all [new]
      rw [raise_nil (show Session.events { s with streamhdr := .done } = [] from hevents)]
      refine h.control hs (by simp [hstate]) (by simp [hstate]) rfl rfl rfl hs ?_
      exact .hdrDone hstate rfl (hfresh.move _ _ _ _) (.inl rfl)
    case h_2 hhdr =>
      cases hstep
      have hfresh : s.Fresh ∧ (s.usock.state = .active → s.HdrRead) := by
        cases h.phase hs with
        | stoppingDone _ _ hfresh _ hin => exact ⟨hfresh, hin⟩
        | _ => simp_all [new]
      rw [raise_nil (show Session.events { s with streamhdr := .done } = [] from hevents)]
      refine h.control hs (by simp [hstate]) (by simp [hstate]) rfl rfl rfl hs ?_
      refine .hdrDone hstate rfl (hfresh.1.move _ _ _ _) (.inr ⟨rfl, fun hactive => ?_⟩)
      obtain ⟨hrx, hlength, hpollin, hpollout⟩ := hfresh.2 hactive
      exact ⟨hrx, hlength, hpollin, hpollout⟩
    case h_3 => cases hstep

/-! ## The events of the protocol headers -/

/-- `streamhdr` asks for the header of the peer. -/
theorem Ok.streamhdr_sent {msg : Option Bytes} (h : s.Ok kind timeouts) (hs : s.aborted = false)
    (hstate : s.state = .protohdr) (hfresh : s.Fresh) (hactive : s.usock.state = .active)
    (hpollout : s.usock.pollout = false)
    (hin : s.usock.rx = [] ∧ s.usock.batch = [] ∧ s.usock.pollin = false) :
    Ok kind timeouts { Session.withUsock { s with events := [] } (s.usock.recv 8 msg) with
      streamhdr := .receiving } := by
  obtain ⟨hrx, hbatch, hpollin⟩ := hin
  have hwritten (s' : Session) (hstate' : s'.state = .protohdr) (hsent : s'.sent = s.sent) :
      s'.written kind = s.written kind :=
    written_of_ne (by simp [hstate]) (by simp) hstate' hsent
  rcases s.usock.recv_cases [] 8 msg hactive (by rw [hrx, hbatch]; rfl) hpollin
    with hfail | ⟨u, hu, hasked, hsame, hpre, hcases⟩
  · rw [hfail, withUsock_one rfl]
    refine h.fail rfl (hwritten _ hstate rfl) rfl rfl rfl rfl (by simp) hs ?_
    exact .receiving hstate rfl (hfresh.move _ _ _ _) (.inr (.inr (.inl ⟨rfl, rfl⟩)))
      fun hfalse => by cases hfalse
  · have hsending := (h.sending hs hactive).same hsame
    have hin' : u.Asked [] 8 ∧ u.pollout = false := ⟨hasked, hsame.2.1.trans hpollout⟩
    rcases hcases with ⟨hrecv, hp⟩ | ⟨hrecv, hp⟩
    · rw [hrecv, withUsock_one rfl]
      refine h.keep rfl (hwritten _ hstate rfl) rfl ⟨_, hsending.tx⟩ hpre hs
        (fun _ => hsending) ?_
      exact .receiving hstate rfl (hfresh.move _ _ _ _) (.inr (.inl ⟨rfl, hu, hp⟩)) fun _ => hin'
    · rw [hrecv, withUsock_nil]
      refine h.keep rfl (hwritten _ hstate rfl) rfl ⟨_, hsending.tx⟩ hpre hs
        (fun _ => hsending) ?_
      exact .receiving hstate rfl (hfresh.move _ _ _ _) (.inl ⟨rfl, fun _ => hp⟩) fun _ => hin'

/-- An event that the assertion of `streamhdr` lets pass, or that comes after a timeout. -/
theorem Ok.streamhdr_stopping {type : UsockEvent} (h : s.Ok kind timeouts) (hs : s.aborted = false)
    (hstate : s.state = .protohdr) (htype : type = .error ∨ timeouts = true)
    (hphase : Phase kind timeouts { s with events := [] }) :
    Ok kind timeouts (Session.assert { s with events := [] } (type = .error)) := by
  by_cases herror : type = .error
  · have hassert : Session.assert { s with events := [] } (type = .error) =
        { s with events := [] } := by
      simp [assert, herror]
    rw [hassert]
    exact h.control hs (by simp [hstate]) (by simp [hstate]) rfl rfl rfl hs hphase
  · have htimeouts := htype.resolve_left herror
    exact ⟨h.sent, h.tx, h.rx, fun _ => .inl htimeouts, fun hfalse => by
      simp [assert, herror] at hfalse, fun hfalse => by simp [assert, herror] at hfalse⟩

/-- `streamhdr` takes an event and leaves the socket alone. -/
theorem Ok.streamhdr_move {streamhdr : StreamhdrState} (h : s.Ok kind timeouts)
    (hs : s.aborted = false) (hstate : s.state = .protohdr)
    (hphase : Phase kind timeouts { s with events := [], streamhdr := streamhdr }) :
    Ok kind timeouts { s with events := [], streamhdr := streamhdr } :=
  h.control hs (by simp [hstate]) (by simp [hstate]) rfl rfl rfl hs hphase

theorem Ok.process_sending {msg : Option Bytes} {event : FsmEvent} {events : List FsmEvent}
    (h : s.Ok kind timeouts) (hs : s.aborted = false) (hstate : s.state = .protohdr)
    (hhdr : s.streamhdr = .sending) (hfresh : s.Fresh) (hawaits : s.Awaits .sent s.usock.pollout)
    (hin : s.usock.state = .active →
      s.usock.rx = [] ∧ s.usock.batch = [] ∧ s.usock.pollin = false)
    (hevents : s.events = event :: events) :
    Ok kind timeouts (Session.process kind { s with events := events } msg event) := by
  rcases hawaits with ⟨hnil, -⟩ | ⟨hone, hactive, hpollout⟩ | ⟨hone, hu⟩ | ⟨hone, hu⟩
  · simp [hnil] at hevents
  · obtain ⟨rfl, rfl⟩ := List.cons.inj (hone.symm.trans hevents)
    have hprocess : Session.process kind { s with events := [] } msg (.usock .sent) =
        { Session.withUsock { s with events := [] } (s.usock.recv 8 msg) with
          streamhdr := .receiving } := by
      simp [process, streamhdr_usock, hstate, hhdr]
    rw [hprocess]
    exact h.streamhdr_sent hs hstate hfresh hactive hpollout (hin hactive)
  · obtain ⟨rfl, rfl⟩ := List.cons.inj (hone.symm.trans hevents)
    have hprocess : Session.process kind { s with events := [] } msg (.usock .shutdown) =
        { s with events := [], streamhdr := .sending } := by
      simp [process, streamhdr_usock, hstate, hhdr]
    rw [hprocess]
    refine h.streamhdr_move hs hstate
      (.sending hstate rfl (hfresh.move _ _ _ _) (.inl ⟨rfl, ?_⟩) hin)
    exact fun hactive => by simp [hu] at hactive
  · obtain ⟨rfl, rfl⟩ := List.cons.inj (hone.symm.trans hevents)
    have hprocess : Session.process kind { s with events := [] } msg (.usock .error) =
        { s with events := [], streamhdr := .stopping_timer_error } := by
      simp [process, streamhdr_usock, hstate, hhdr]
    rw [hprocess]
    refine h.streamhdr_move hs hstate
      (.stoppingError hstate rfl (hfresh.move _ _ _ _) (.inl rfl) ?_)
    exact fun _ hactive => by simp [hu] at hactive

theorem Ok.process_receiving {msg : Option Bytes} {event : FsmEvent} {events : List FsmEvent}
    (h : s.Ok kind timeouts) (hs : s.aborted = false) (hstate : s.state = .protohdr)
    (hhdr : s.streamhdr = .receiving) (hfresh : s.Fresh)
    (hawaits : s.Awaits .received s.usock.pollin)
    (hin : s.usock.state = .active → s.usock.Asked [] 8 ∧ s.usock.pollout = false)
    (hevents : s.events = event :: events) :
    Ok kind timeouts (Session.process kind { s with events := events } msg event) := by
  rcases hawaits with ⟨hnil, -⟩ | ⟨hone, hactive, hpollin⟩ | ⟨hone, hu⟩ | ⟨hone, hu⟩
  · simp [hnil] at hevents
  · obtain ⟨rfl, rfl⟩ := List.cons.inj (hone.symm.trans hevents)
    obtain ⟨hasked, hpollout⟩ := hin hactive
    by_cases hvalid : validhdr s.usock.buf = true
    · have hprocess : Session.process kind { s with events := [] } msg (.usock .received) =
          { s with events := [], streamhdr := .stopping_timer_done } := by
        simp [process, streamhdr_usock, hstate, hhdr, hvalid]
      rw [hprocess]
      refine h.streamhdr_move hs hstate
        (.stoppingDone hstate rfl (hfresh.move _ _ _ _) (.inl rfl) fun _ => ?_)
      exact ⟨by simpa using hasked.rx, hasked.length hpollin, hpollin, hpollout⟩
    · have hprocess : Session.process kind { s with events := [] } msg (.usock .received) =
          { s with events := [], streamhdr := .stopping_timer_error } := by
        simp [process, streamhdr_usock, hstate, hhdr, hvalid]
      rw [hprocess]
      exact h.streamhdr_move hs hstate (.stoppingError hstate rfl (hfresh.move _ _ _ _) (.inl rfl)
        fun _ _ => ⟨hpollin, hpollout⟩)
  · obtain ⟨rfl, rfl⟩ := List.cons.inj (hone.symm.trans hevents)
    have hprocess : Session.process kind { s with events := [] } msg (.usock .shutdown) =
        { s with events := [], streamhdr := .receiving } := by
      simp [process, streamhdr_usock, hstate, hhdr]
    rw [hprocess]
    refine h.streamhdr_move hs hstate
      (.receiving hstate rfl (hfresh.move _ _ _ _) (.inl ⟨rfl, ?_⟩) hin)
    exact fun hactive => by simp [hu] at hactive
  · obtain ⟨rfl, rfl⟩ := List.cons.inj (hone.symm.trans hevents)
    have hprocess : Session.process kind { s with events := [] } msg (.usock .error) =
        { s with events := [], streamhdr := .stopping_timer_error } := by
      simp [process, streamhdr_usock, hstate, hhdr]
    rw [hprocess]
    refine h.streamhdr_move hs hstate
      (.stoppingError hstate rfl (hfresh.move _ _ _ _) (.inl rfl) ?_)
    exact fun _ hactive => by simp [hu] at hactive

theorem Ok.process_hdrDone {msg : Option Bytes} {event : FsmEvent} {events : List FsmEvent}
    (h : s.Ok kind timeouts) (hs : s.aborted = false) (hstate : s.state = .protohdr)
    (hfresh : s.Fresh)
    (hevents' : s.events = [.streamhdr_error] ∨
      (s.events = [.streamhdr_ok] ∧ (s.usock.state = .active → s.HdrRead)))
    (hevents : s.events = event :: events) :
    Ok kind timeouts (Session.process kind { s with events := events } msg event) := by
  have hidle : s.state ≠ .idle := by simp [hstate]
  rcases hevents' with hone | ⟨hone, hin⟩
  · obtain ⟨rfl, rfl⟩ := List.cons.inj (hone.symm.trans hevents)
    have hprocess : Session.process kind { s with events := [] } msg .streamhdr_error =
        { s with events := [.stcp_error], state := .done } := by
      simp [process, failed, raise, assert, hstate]
    rw [hprocess]
    refine h.control hs hidle (by simp) rfl rfl rfl hs (.done rfl (.inr ⟨rfl, ?_, ?_⟩))
    · exact fun _ => ⟨hfresh.pipebase, hfresh.excl⟩
    · exact fun htrue => absurd (hfresh.pipebase.symm.trans htrue) (by simp)
  · obtain ⟨rfl, rfl⟩ := List.cons.inj (hone.symm.trans hevents)
    have hprocess : Session.process kind { s with events := [] } msg .streamhdr_ok =
        { s with
          events := [.streamhdr_stopped], streamhdr := .idle, state := .stopping_streamhdr } := by
      simp [process, raise, assert, hstate]
    rw [hprocess]
    refine h.control hs hidle (by simp) rfl rfl rfl hs
      (.stopping rfl (hfresh.move _ _ _ _) rfl fun hactive => ?_)
    obtain ⟨hrx, hlength, hpollin, hpollout⟩ := hin hactive
    exact ⟨hrx, hlength, hpollin, hpollout⟩

/-- `streamhdr` or its owner takes an event while the headers are exchanged. -/
theorem Ok.process_protohdr {msg : Option Bytes} {event : FsmEvent} {events : List FsmEvent}
    (h : s.Ok kind timeouts) (hs : s.aborted = false) (hstate : s.state = .protohdr)
    (hevents : s.events = event :: events) :
    Ok kind timeouts (Session.process kind { s with events := events } msg event) := by
  cases h.phase hs with
  | sending _ hhdr hfresh hawaits hin =>
    exact h.process_sending hs hstate hhdr hfresh hawaits hin hevents
  | receiving _ hhdr hfresh hawaits hin =>
    exact h.process_receiving hs hstate hhdr hfresh hawaits hin hevents
  | stoppingError _ hhdr hfresh hevents' hin =>
    have hone : ∃ type, s.events = [.usock type] ∧ (type = .error ∨ timeouts = true) := by
      rcases hevents' with hnil | hone | ⟨htimeouts, type, hone⟩
      · simp [hnil] at hevents
      · exact ⟨.error, hone, .inl rfl⟩
      · exact ⟨type, hone, .inr htimeouts⟩
    obtain ⟨type, hone, htype⟩ := hone
    obtain ⟨rfl, rfl⟩ := List.cons.inj (hone.symm.trans hevents)
    have hprocess : Session.process kind { s with events := [] } msg (.usock type) =
        Session.assert { s with events := [] } (type = .error) := by
      simp [process, streamhdr_usock, hstate, hhdr]
    rw [hprocess]
    exact h.streamhdr_stopping hs hstate htype
      (.stoppingError hstate hhdr (hfresh.move _ _ _ _) (.inl rfl) hin)
  | stoppingDone _ hhdr hfresh hevents' hin =>
    have hone : s.events = [.usock .error] := by
      rcases hevents' with hnil | hone
      · simp [hnil] at hevents
      · exact hone
    obtain ⟨rfl, rfl⟩ := List.cons.inj (hone.symm.trans hevents)
    have hprocess : Session.process kind { s with events := [] } msg (.usock .error) =
        Session.assert { s with events := [] } (UsockEvent.error = .error) := by
      simp [process, streamhdr_usock, hstate, hhdr]
    rw [hprocess]
    refine h.streamhdr_stopping hs hstate (.inl rfl)
      (.stoppingDone hstate hhdr (hfresh.move _ _ _ _) (.inl rfl) fun hactive => ?_)
    obtain ⟨hrx, hlength, hpollin, hpollout⟩ := hin hactive
    exact ⟨hrx, hlength, hpollin, hpollout⟩
  | hdrDone _ _ hfresh hevents' => exact h.process_hdrDone hs hstate hfresh hevents' hevents
  | _ => simp_all [new]

end Session

end NitroCloud.Nanomsg.Transport
