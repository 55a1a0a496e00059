/-
# RollingRaft.AcceptLoop — who issues the transport's next accept.

`AsioNetworkTransport::DoAccept` keeps one `async_accept` outstanding; the next one is issued by the
handler of the last. With TLS it is issued only by the handler of the handshake that the accepted
peer has to finish, and without TLS only after the peer's address has been logged, which throws
when the peer is gone. When a peer is gone and when a handshake ends is left to the environment.
-/
import RollingRaft.Lib.Transition

namespace RollingRaft.AcceptLoop

structure Options where
  /-- `tls_config_.enabled`. -/
  tls : Bool
  /-- A logger is set and its level lets `LOG_INFO` evaluate its arguments. -/
  logsInfo : Bool

/-- The accept chain: what is outstanding, and how many handlers of each kind are queued. -/
structure Acceptor where
  running : Bool
  /-- An `async_accept` is outstanding. -/
  accepting : Bool
  /-- Accepts that completed with a connection. -/
  accepted : Nat
  /-- Accepts that completed with an error. -/
  failed : Nat
  /-- Handshakes that wait for their peer. -/
  handshaking : Nat
  /-- Handshakes that ended, well or not. -/
  ended : Nat
  deriving DecidableEq

inductive Event
  | connect
  | acceptError
  /-- The handler of a successful accept runs; the flag says whether the peer is still connected. -/
  | handleAccepted (connected : Bool)
  | handleError
  | handshakeEnds
  | handleHandshake
  | stop
  deriving DecidableEq

/-- The end of every handler: `if (running_) DoAccept()`. -/
def doAccept (a : Acceptor) : Acceptor := if a.running then { a with accepting := true } else a

variable (opts : Options)

def next (a : Acceptor) : Event → Option Acceptor
  | .connect =>
    if a.accepting then some { a with accepting := false, accepted := a.accepted + 1 } else none
  | .acceptError =>
    if a.accepting then some { a with accepting := false, failed := a.failed + 1 } else none
  | .handleAccepted connected =>
    if a.accepted = 0 then none
    else if opts.tls then
      -- `async_handshake` and return: the next accept is in the handshake callback
      some { a with accepted := a.accepted - 1, handshaking := a.handshaking + 1 }
    else if opts.logsInfo && !connected then
      -- `remote_endpoint()` throws out of the handler
      some { a with accepted := a.accepted - 1 }
    else some (doAccept { a with accepted := a.accepted - 1 })
  | .handleError => if a.failed = 0 then none else some (doAccept { a with failed := a.failed - 1 })
  | .handshakeEnds =>
    if a.handshaking = 0 then none
    else some { a with handshaking := a.handshaking - 1, ended := a.ended + 1 }
  | .handleHandshake => if a.ended = 0 then none else some (doAccept { a with ended := a.ended - 1 })
  | .stop =>
    -- closing the acceptor completes an outstanding accept with an error
    some { a with running := false, accepting := false, failed := a.failed + a.accepting.toNat }

/-- `Start` issues the first accept. -/
def system : Lib.TransitionSystem Acceptor Event where
  init a := a = ⟨true, true, 0, 0, 0, 0⟩
  next := next opts

/-- An accept is outstanding, or a queued handler issues one without waiting for a peer. -/
def AcceptPending (a : Acceptor) : Prop :=
  a.accepting ∨ 0 < a.failed ∨ 0 < a.ended ∨ 0 < a.accepted ∧ ¬opts.tls

/-- A connection is accepted without TLS only, and a peer whose address is logged is still there. -/
def PeerStays : Event → Prop
  | .connect => ¬opts.tls
  | .handleAccepted connected => opts.logsInfo → connected
  | _ => True

instance (ev : Event) : Decidable (PeerStays opts ev) := by
  unfold PeerStays; split <;> infer_instance

variable {opts}

theorem acceptPending_doAccept {a : Acceptor} (h : (doAccept a).running) :
    AcceptPending opts (doAccept a) := by
  by_cases hr : a.running
  · simp [AcceptPending, doAccept, hr]
  · simp [doAccept, hr] at h

/-- One step of the chain keeps an accept pending while the transport runs. -/
theorem AcceptPending.next {a a' : Acceptor} {ev : Event} (hok : PeerStays opts ev)
    (hn : next opts a ev = some a') (h : a.running → AcceptPending opts a) (hr : a'.running) :
    AcceptPending opts a' := by
  cases ev with
  | stop =>
    cases hn
    cases hr
  | connect =>
    obtain ⟨-, rfl⟩ : _ ∧ _ = a' := by simpa [AcceptLoop.next] using hn
    exact .inr (.inr (.inr ⟨Nat.succ_pos _, hok⟩))
  | acceptError =>
    obtain ⟨-, rfl⟩ : _ ∧ _ = a' := by simpa [AcceptLoop.next] using hn
    exact .inr (.inl (Nat.succ_pos _))
  | handshakeEnds =>
    obtain ⟨-, rfl⟩ : _ ∧ _ = a' := by simpa [AcceptLoop.next] using hn
    exact .inr (.inr (.inl (Nat.succ_pos _)))
  | handleError | handleHandshake =>
    obtain ⟨-, rfl⟩ : _ ∧ _ = a' := by simpa [AcceptLoop.next] using hn
    exact acceptPending_doAccept hr
  | handleAccepted connected =>
    simp only [AcceptLoop.next] at hn
    split_ifs at hn with hnone htls hgone <;> cases hn
    · -- with TLS another accept or handshake carries the chain
      obtain h | h | h | h := h hr
      · exact .inl h
      · exact .inr (.inl h)
      · exact .inr (.inr (.inl h))
      · exact absurd htls h.2
    · simp only [Bool.and_eq_true, Bool.not_eq_true'] at hgone
      exact absurd (hok hgone.1) (by simp [hgone.2])
    · exact acceptPending_doAccept hr

/-- **Peers that stay keep the door open.** In every run whose steps accept connections without TLS
only, and log the address only of peers that are still connected, a running transport always has an
accept outstanding or about to be issued by a handler that waits for no peer. -/
theorem accept_always_pending {a : Acceptor}
    (h : (system opts).ReachableWith (fun _ ev => PeerStays opts ev) a) :
    a.running → AcceptPending opts a := by
  induction h with
  | init h0 =>
    subst h0
    exact fun _ => .inl rfl
  | step _ hok hn ih => exact AcceptPending.next hok hn ih

/-- A plain transport that has accepted one peer and been refused another. -/
theorem accept_pending_plain : ∃ a,
    (system ⟨false, true⟩).ReachableWith (fun _ ev => PeerStays ⟨false, true⟩ ev) a ∧
      a.running ∧ a.failed = 1 ∧ AcceptPending ⟨false, true⟩ a := by
  obtain ⟨a, hreach, hr, hf⟩ := (system ⟨false, true⟩).reachesWith
    (fun _ ev => PeerStays ⟨false, true⟩ ev) (P := fun a => a.running ∧ a.failed = 1)
    [.connect, .handleAccepted true, .acceptError] rfl (by decide)
  exact ⟨a, hreach, hr, hf, accept_always_pending hreach hr⟩

/-- With TLS, a peer that connects and never finishes its handshake leaves no accept outstanding,
and nothing but that peer or `Stop` takes a step. Without TLS, a peer that is gone when its address
is logged leaves nothing at all. -/
theorem one_peer_stalls_accepting :
    (∃ a, (system ⟨true, true⟩).Reachable a ∧ a.running ∧ ¬AcceptPending ⟨true, true⟩ a ∧
      ∀ ev, (next ⟨true, true⟩ a ev).isSome → ev = .handshakeEnds ∨ ev = .stop) ∧
    ∃ a, (system ⟨false, true⟩).Reachable a ∧ a.running ∧ ¬AcceptPending ⟨false, true⟩ a ∧
      ∀ ev, (next ⟨false, true⟩ a ev).isSome → ev = .stop := by
  constructor
  · obtain ⟨a, hreach, rfl⟩ := (system ⟨true, true⟩).reaches
      (P := (· = ⟨true, false, 0, 0, 1, 0⟩)) [.connect, .handleAccepted true] rfl (by decide)
    refine ⟨_, hreach, rfl, by simp [AcceptPending], ?_⟩
    intro ev
    cases ev <;> simp [next]
  · obtain ⟨a, hreach, rfl⟩ := (system ⟨false, true⟩).reaches
      (P := (· = ⟨true, false, 0, 0, 0, 0⟩)) [.connect, .handleAccepted false] rfl (by decide)
    refine ⟨_, hreach, rfl, by simp [AcceptPending], ?_⟩
    intro ev
    cases ev <;> simp [next]

end RollingRaft.AcceptLoop
