import NitroCloud.Foundations.Bytes

/-!
# The sockets of the nanomsg library

`aio/usock_posix.inc`: a stream socket whose owner asks for a number of bytes, or to send some
buffers, and is told by an event when all of them were received or sent.  `recvmsg` reads ahead into
`batch`, and `sendmsg` may take any part of the buffers; what is left is for the worker thread.

A call of `recvmsg` is given the bytes that are there, and takes as many of them as it was asked
for; no bytes are `EAGAIN`.  A call of `sendmsg` is given the number of bytes that there is room
for.  `none` is the failure of a call.  `rx` and `tx` are the bytes that the calls have moved.
-/

namespace NitroCloud.Nanomsg.Transport

/-- `NN_USOCK_BATCH_SIZE`. -/
abbrev batchSize : ℕ := 2048

/-- `NN_USOCK_STATE_…` of a connected socket. -/
inductive UsockState where
  | active | removing_fd | done
deriving DecidableEq, Repr

/-- What a socket raises. -/
inductive UsockEvent where
  | sent | received | shutdown | error
deriving DecidableEq, Repr

/-- `nn_usock`: `batch` is the part of the batch buffer from `batch_pos` on, `buf` the bytes in the
buffer of the last request, and `len` those that are missing in it while `pollin` is set. -/
structure Usock where
  state : UsockState
  batch : Bytes
  buf : Bytes
  len : ℕ
  pollin : Bool
  iov : List Bytes
  pollout : Bool
  rx : Bytes
  tx : Bytes
deriving DecidableEq, Repr

namespace Usock

/-- A socket that was connected or accepted. -/
def new : Usock := ⟨.active, [], [], 0, false, [], false, [], []⟩

/-! ## Receiving -/

/-- `nn_usock_recv_raw`: the bytes it stores, or `none` for `-ECONNRESET`. -/
def recv_raw (u : Usock) (len : ℕ) (msg : Option Bytes) : Option (Bytes × Usock) :=
  if u.batch ≠ [] ∧ len ≤ u.batch.length then
    some (u.batch.take len, { u with batch := u.batch.drop len })
  else
    let length := len - u.batch.length
    msg.map fun there =>
      let got := there.take (if batchSize < length then length else batchSize)
      (u.batch ++ got.take length, { u with batch := got.drop length, rx := u.rx ++ got })

/-- `nn_usock_recv`. -/
def recv (u : Usock) (len : ℕ) (msg : Option Bytes) : Usock × List UsockEvent :=
  if u.state = .active then
    match u.recv_raw len msg with
    | none => ({ u with state := .removing_fd }, [.shutdown])
    | some (bs, u) =>
      if bs.length = len then ({ u with buf := bs }, [.received])
      else ({ u with buf := bs, len := len - bs.length, pollin := true }, [])
  else (u, [])

/-- What the worker does when the socket fails. -/
def fail (u : Usock) : Usock × List UsockEvent :=
  ({ u with state := .done, pollin := false, pollout := false }, [.error])

/-- `NN_WORKER_FD_IN`. -/
def fd_in (u : Usock) (msg : Option Bytes) : Usock × List UsockEvent :=
  match u.recv_raw u.len msg with
  | none => u.fail
  | some (bs, u) =>
    let u := { u with buf := u.buf ++ bs, len := u.len - bs.length }
    if u.len = 0 then ({ u with pollin := false }, [.received]) else (u, [])

/-! ## Sending -/

/-- The loop of `nn_usock_send_raw`: the buffers that are left after `nbytes` bytes were sent. -/
def send_raw : List Bytes → ℕ → List Bytes
  | [], _ => []
  | v :: iov, nbytes =>
    if nbytes = 0 then v :: iov
    else if v.length ≤ nbytes then send_raw iov (nbytes - v.length)
    else v.drop nbytes :: iov

/-- `sendmsg`, and the loop after it. -/
def sendmsg (u : Usock) (room : ℕ) : Usock :=
  { u with iov := send_raw u.iov room, tx := u.tx ++ u.iov.flatten.take room }

/-- `nn_usock_send`. -/
def send (u : Usock) (iov : List Bytes) (room : Option ℕ) : Usock × List UsockEvent :=
  if u.state = .active then
    let u := { u with iov := iov.filter (· ≠ []) }
    match room with
    | none => ({ u with state := .removing_fd }, [.shutdown])
    | some room =>
      let u := u.sendmsg room
      if u.iov = [] then (u, [.sent]) else ({ u with pollout := true }, [])
  else (u, [])

/-- `NN_WORKER_FD_OUT`. -/
def fd_out (u : Usock) (room : Option ℕ) : Usock × List UsockEvent :=
  match room with
  | none => u.fail
  | some room =>
    let u := u.sendmsg room
    if u.iov = [] then ({ u with pollout := false }, [.sent]) else (u, [])

/-! ## What the operations do -/

variable {u u' : Usock}

/-- The bytes that are stored and those in the batch buffer are those that were in it, and those
that `recvmsg` took. -/
theorem recv_raw_cases {len : ℕ} {msg : Option Bytes} {bs : Bytes}
    (h : u.recv_raw len msg = some (bs, u')) :
    ∃ batch got, u' = { u with batch := batch, rx := u.rx ++ got } ∧
      u.batch ++ got = bs ++ batch ∧ bs.length ≤ len ∧ (bs.length < len → batch = []) := by
  unfold recv_raw at h
  split_ifs at h with hbatch
  · cases h
    refine ⟨u.batch.drop len, [], by rw [List.append_nil], ?_, ?_, ?_⟩
    · rw [List.append_nil, List.take_append_drop]
    · exact List.length_take_le len u.batch
    · intro hlt
      rw [List.length_take] at hlt
      omega
  · obtain ⟨there, -, hsome⟩ := Option.map_eq_some_iff.1 h
    simp only [Prod.mk.injEq] at hsome
    obtain ⟨rfl, rfl⟩ := hsome
    have hle : u.batch.length ≤ len := by
      by_contra hlt
      refine hbatch ⟨?_, by omega⟩
      rintro hnil
      simp [hnil] at hlt
    refine ⟨_, _, rfl, ?_, ?_, ?_⟩
    · rw [List.append_assoc, List.take_append_drop]
    · rw [List.length_append, List.length_take]
      omega
    · intro hlt
      rw [List.length_append, List.length_take] at hlt
      exact List.drop_eq_nil_of_le (by omega)

theorem flatten_send_raw (iov : List Bytes) (nbytes : ℕ) :
    (send_raw iov nbytes).flatten = iov.flatten.drop nbytes := by
  induction iov generalizing nbytes with
  | nil => simp [send_raw]
  | cons v iov ih =>
    rw [send_raw, List.flatten_cons, List.drop_append]
    split_ifs with hzero hle
    · simp [hzero]
    · rw [ih, List.drop_eq_nil_of_le hle, List.nil_append]
    · rw [List.flatten_cons, Nat.sub_eq_zero_of_le (by omega), List.drop_zero]

/-- No byte is lost on the way to the socket. -/
theorem tx_sendmsg (u : Usock) (room : ℕ) :
    (u.sendmsg room).tx ++ (u.sendmsg room).iov.flatten = u.tx ++ u.iov.flatten := by
  rw [sendmsg, flatten_send_raw, List.append_assoc, List.take_append_drop]

/-- The socket was asked for `n` bytes after those `before`; they have come, or the worker waits for
the rest of them. -/
structure Asked (u : Usock) (before : Bytes) (n : ℕ) : Prop where
  rx : u.rx = before ++ u.buf ++ u.batch
  length : u.pollin = false → u.buf.length = n
  waits : u.pollin = true → u.buf.length + u.len = n ∧ 0 < u.len ∧ u.batch = []

/-- The bytes given to the socket were sent, or the worker has those that were not. -/
structure Sending (u : Usock) (all : Bytes) : Prop where
  tx : u.tx ++ u.iov.flatten = all
  iov : u.pollout = false → u.iov = []

/-- The fields that receiving leaves alone. -/
def SameOut (u u' : Usock) : Prop := u'.iov = u.iov ∧ u'.pollout = u.pollout ∧ u'.tx = u.tx

/-- The fields that sending leaves alone. -/
def SameIn (u u' : Usock) : Prop :=
  u'.batch = u.batch ∧ u'.buf = u.buf ∧ u'.len = u.len ∧ u'.pollin = u.pollin ∧ u'.rx = u.rx

theorem Sending.same {all : Bytes} (h : u.Sending all) (hsame : u.SameOut u') : u'.Sending all := by
  obtain ⟨hiov, hpollout, htx⟩ := hsame
  constructor
  · rw [hiov, htx]
    exact h.tx
  · rw [hiov, hpollout]
    exact h.iov

theorem Asked.same {before : Bytes} {n : ℕ} (h : u.Asked before n) (hsame : u.SameIn u') :
    u'.Asked before n := by
  obtain ⟨hbatch, hbuf, hlen, hpollin, hrx⟩ := hsame
  constructor
  · rw [hrx, hbuf, hbatch]
    exact h.rx
  · rw [hpollin, hbuf]
    exact h.length
  · rw [hpollin, hbuf, hlen, hbatch]
    exact h.waits

/-- What `nn_usock_recv` does: it fails, or all bytes are there, or it leaves the rest of them to
the worker. -/
theorem recv_cases (u : Usock) (before : Bytes) (n : ℕ) (msg : Option Bytes)
    (hactive : u.state = .active) (hrx : u.rx = before ++ u.batch) (hpollin : u.pollin = false) :
    u.recv n msg = ({ u with state := .removing_fd }, [.shutdown]) ∨
      ∃ u', u'.state = .active ∧ u'.Asked before n ∧ u.SameOut u' ∧ u.rx <+: u'.rx ∧
        ((u.recv n msg = (u', [.received]) ∧ u'.pollin = false) ∨
          (u.recv n msg = (u', []) ∧ u'.pollin = true)) := by
  rw [recv, if_pos hactive]
  split
  · exact .inl rfl
  · next bs u₁ hraw =>
    obtain ⟨batch, got, rfl, happend, hle, hrest⟩ := recv_raw_cases hraw
    have hrx' : u.rx ++ got = before ++ bs ++ batch := by
      rw [hrx, List.append_assoc, happend, List.append_assoc]
    right
    split_ifs with hlength
    · refine ⟨{ u with batch := batch, rx := u.rx ++ got, buf := bs }, hactive,
        ⟨hrx', fun _ => hlength, ?_⟩, ⟨rfl, rfl, rfl⟩, List.prefix_append _ _,
        .inl ⟨rfl, hpollin⟩⟩
      intro hp
      simp [hpollin] at hp
    · refine ⟨{ u with
          batch := batch
          rx := u.rx ++ got
          buf := bs
          len := n - bs.length
          pollin := true }, hactive, ⟨hrx', ?_, ?_⟩, ⟨rfl, rfl, rfl⟩, List.prefix_append _ _,
        .inr ⟨rfl, rfl⟩⟩
      · intro hp
        simp at hp
      · intro _
        exact ⟨by simp only; omega, by simp only; omega, hrest (by omega)⟩

/-- What `NN_WORKER_FD_IN` does. -/
theorem fd_in_cases (u : Usock) (msg : Option Bytes) (hpollin : u.pollin = true) :
    u.fd_in msg = u.fail ∨
      ∃ u', u'.state = u.state ∧ (∀ before n, u.Asked before n → u'.Asked before n) ∧
        u.SameOut u' ∧ u.rx <+: u'.rx ∧
        ((u.fd_in msg = (u', [.received]) ∧ u'.pollin = false) ∨
          (u.fd_in msg = (u', []) ∧ u'.pollin = true)) := by
  rw [fd_in]
  split
  · exact .inl rfl
  · next bs u₁ hraw =>
    obtain ⟨batch, got, rfl, happend, hle, hrest⟩ := recv_raw_cases hraw
    have hrx {before : Bytes} {n : ℕ} (hasked : u.Asked before n) :
        u.rx ++ got = before ++ (u.buf ++ bs) ++ batch := by
      obtain ⟨-, -, hbatch⟩ := hasked.waits hpollin
      rw [hbatch, List.nil_append] at happend
      rw [hasked.rx, hbatch, happend]
      simp only [List.append_nil, List.append_assoc]
    right
    simp only
    split_ifs with hlen
    · refine ⟨{ u with
          batch := batch
          rx := u.rx ++ got
          buf := u.buf ++ bs
          len := u.len - bs.length
          pollin := false }, rfl, ?_, ⟨rfl, rfl, rfl⟩, List.prefix_append _ _, .inl ⟨rfl, rfl⟩⟩
      intro before n hasked
      obtain ⟨hsum, -, -⟩ := hasked.waits hpollin
      refine ⟨hrx hasked, fun _ => ?_, fun hp => by simp at hp⟩
      simp only [List.length_append]
      omega
    · refine ⟨{ u with
          batch := batch
          rx := u.rx ++ got
          buf := u.buf ++ bs
          len := u.len - bs.length }, rfl, ?_, ⟨rfl, rfl, rfl⟩, List.prefix_append _ _,
        .inr ⟨rfl, hpollin⟩⟩
      intro before n hasked
      obtain ⟨hsum, -, -⟩ := hasked.waits hpollin
      refine ⟨hrx hasked, fun hp => by simp [hpollin] at hp, fun _ => ⟨?_, ?_, hrest (by omega)⟩⟩
      · simp only [List.length_append]
        omega
      · simp only
        omega

/-- What `nn_usock_send` does. -/
theorem send_cases (u : Usock) {all : Bytes} (iov : List Bytes) (room : Option ℕ)
    (hactive : u.state = .active) (htx : u.tx = all) (hpollout : u.pollout = false) :
    (∃ u', u.send iov room = (u', [.shutdown]) ∧ u'.state = .removing_fd ∧ u'.tx = u.tx ∧
        u.SameIn u') ∨
      ∃ u', u'.state = .active ∧ u'.Sending (all ++ iov.flatten) ∧ u.SameIn u' ∧
        ((u.send iov room = (u', [.sent]) ∧ u'.pollout = false) ∨
          (u.send iov room = (u', []) ∧ u'.pollout = true)) := by
  rw [send, if_pos hactive]
  rcases room with _ | room
  · exact .inl ⟨_, rfl, rfl, rfl, rfl, rfl, rfl, rfl, rfl⟩
  · right
    have hall := tx_sendmsg { u with iov := iov.filter (· ≠ []) } room
    rw [List.flatten_filter_ne_nil] at hall
    simp only at hall ⊢
    split_ifs with hnil
    · exact ⟨{ u with iov := iov.filter (· ≠ []) }.sendmsg room, hactive,
        ⟨by rw [hall, htx], fun _ => hnil⟩, ⟨rfl, rfl, rfl, rfl, rfl⟩, .inl ⟨rfl, hpollout⟩⟩
    · refine ⟨{ { u with iov := iov.filter (· ≠ []) }.sendmsg room with pollout := true }, hactive,
        ⟨by rw [← htx]; exact hall, ?_⟩, ⟨rfl, rfl, rfl, rfl, rfl⟩, .inr ⟨rfl, rfl⟩⟩
      intro hp
      simp at hp

/-- What `NN_WORKER_FD_OUT` does. -/
theorem fd_out_cases (u : Usock) {all : Bytes} (room : Option ℕ) (hsending : u.Sending all)
    (hpollout : u.pollout = true) :
    u.fd_out room = u.fail ∨
      ∃ u', u'.state = u.state ∧ u'.Sending all ∧ u.SameIn u' ∧
        ((u.fd_out room = (u', [.sent]) ∧ u'.pollout = false) ∨
          (u.fd_out room = (u', []) ∧ u'.pollout = true)) := by
  rcases room with _ | room
  · exact .inl rfl
  · right
    have hall := tx_sendmsg u room
    rw [hsending.tx] at hall
    simp only [fd_out]
    split_ifs with hnil
    · exact ⟨{ u.sendmsg room with pollout := false }, rfl, ⟨hall, fun _ => hnil⟩,
        ⟨rfl, rfl, rfl, rfl, rfl⟩, .inl ⟨rfl, rfl⟩⟩
    · refine ⟨u.sendmsg room, rfl, ⟨hall, ?_⟩, ⟨rfl, rfl, rfl, rfl, rfl⟩, .inr ⟨rfl, hpollout⟩⟩
      intro hp
      exact absurd (hpollout.symm.trans hp) (by simp)

/-! ## The bytes that were sent -/

@[simp] theorem tx_recv (n : ℕ) (msg : Option Bytes) : (u.recv n msg).1.tx = u.tx := by
  rw [recv]
  split_ifs
  · split
    · rfl
    · next hraw =>
      obtain ⟨batch, got, rfl, -⟩ := recv_raw_cases hraw
      split_ifs <;> rfl
  · rfl

@[simp] theorem tx_fd_in (msg : Option Bytes) : (u.fd_in msg).1.tx = u.tx := by
  rw [fd_in]
  split
  · rfl
  · next hraw =>
    obtain ⟨batch, got, rfl, -⟩ := recv_raw_cases hraw
    simp only
    split_ifs <;> rfl

theorem tx_send (iov : List Bytes) (room : Option ℕ) : u.tx <+: (u.send iov room).1.tx := by
  rw [send]
  split_ifs
  · rcases room with _ | room
    · exact List.prefix_rfl
    · simp only
      split_ifs <;> exact List.prefix_append _ _
  · exact List.prefix_rfl

theorem tx_fd_out (room : Option ℕ) : u.tx <+: (u.fd_out room).1.tx := by
  rcases room with _ | room
  · exact List.prefix_rfl
  · simp only [fd_out]
    split_ifs <;> exact List.prefix_append _ _

end Usock

end NitroCloud.Nanomsg.Transport
