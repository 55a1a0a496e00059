/-
# RollingRaft.Callbacks — every callback at most once, and with its own response when ids are free.

Two results about every run of the transport towards one peer.

The first holds without conditions: a callback lives in at most one place (a posted task, a buffer,
a table, or the invocations made), because every operation moves it or drops it. So it is invoked
at most once.

The second needs a condition on the sends. A response finds its callback through the correlation id
alone, so it finds the right one as long as no request is put on a connection under an id that
another unanswered request of that connection will be answered with. Groups that count their ids on
their own break that at their first simultaneous requests, which the last section runs.
-/
import RollingRaft.Lib.Accounting
import RollingRaft.Transport

namespace RollingRaft

open Lib

/-! ## §1 — Where a callback can be. -/

/-- How often the callback of `call` stands in a list of requests. -/
def callCount (call : Nat) (l : List RpcRequest) : Nat := l.countP fun r => r.call = call

/-- How often the callback of `call` was invoked. -/
def invocationCount (call : Nat) (l : List Invocation) : Nat :=
  l.countP fun i => i.request.call = call

variable (n : Nat)

@[simp] theorem callCount_nil : callCount n [] = 0 := rfl

@[simp] theorem callCount_cons (r : RpcRequest) (l : List RpcRequest) :
    callCount n (r :: l) = callCount n l + if r.call = n then 1 else 0 := by
  simp [callCount, List.countP_cons]

@[simp] theorem callCount_append (l l' : List RpcRequest) :
    callCount n (l ++ l') = callCount n l + callCount n l' := List.countP_append

@[simp] theorem invocationCount_nil : invocationCount n [] = 0 := rfl

@[simp] theorem invocationCount_cons (i : Invocation) (l : List Invocation) :
    invocationCount n (i :: l) = invocationCount n l + if i.request.call = n then 1 else 0 := by
  simp [invocationCount, List.countP_cons]

@[simp] theorem invocationCount_append (l l' : List Invocation) :
    invocationCount n (l ++ l') = invocationCount n l + invocationCount n l' := List.countP_append

theorem invocationCount_map_failure (error : SendError) (l : List RpcRequest) :
    invocationCount n (l.map fun r => ⟨r, .failure error⟩) = callCount n l := by
  induction l with
  | nil => rfl
  | cons r l ih => simp [ih]

/-- A success hands the callback the response produced for its own request. -/
def Transport.OwnResponse (inv : Invocation) : Prop :=
  ∀ reply, inv.outcome = .success reply → reply.request = inv.request

theorem ownResponse_of_failure {inv : Invocation} {error : SendError}
    (h : inv.outcome = .failure error) : Transport.OwnResponse inv := by
  intro reply hreply
  rw [h] at hreply
  cases hreply

/-! ## §2 — Connections. -/

namespace TcpConnection

/-- How often the callback of `call` is stored in the table. -/
def holds (c : TcpConnection) (call : Nat) : Nat :=
  c.pendingCallbacks.entries.countP fun e => e.2.call = call

/-- The requests put on this connection whose response has not been handled. -/
def outstanding (c : TcpConnection) : List RpcRequest :=
  c.sendPosts ++ c.writeQueue ++ c.wire ++ c.replies.map fun reply => reply.request

/-- What a response finds under its id is the callback of its own request. -/
structure Matched (c : TcpConnection) : Prop where
  own : ∀ r ∈ c.outstanding, ∀ r',
    c.pendingCallbacks.lookup (echoedId r.correlationId) = some r' → r' = r
  echoed : ∀ reply ∈ c.replies,
    reply.correlationId = 0 ∨ reply.correlationId = echoedId reply.request.correlationId

/-- A request may be put on the connection: the server echoes its id unchanged, and no unanswered
request of this connection will be answered with that id. -/
def acceptsId (c : TcpConnection) (r : RpcRequest) : Bool :=
  echoedId r.correlationId = r.correlationId ∧
    ∀ r₀ ∈ c.outstanding, echoedId r₀.correlationId ≠ r.correlationId

/-- The same for a list of requests put on the connection one after the other. -/
def acceptsIds (c : TcpConnection) : List RpcRequest → Bool
  | [] => true
  | r :: rs => c.acceptsId r && (c.send r).acceptsIds rs

/-- What an operation that puts the requests `l` on a connection does to callbacks: it copies none
but theirs, it keeps the match when their ids are `free`, and a success it tells is the own
response. -/
structure Passes (l : List RpcRequest) (free : Prop) (c : TcpConnection)
    (r : TcpConnection × List Invocation) : Prop where
  holds : ∀ n, r.1.holds n + invocationCount n r.2 ≤ c.holds n + callCount n l
  matched : free → c.Matched → r.1.Matched
  own : free → c.Matched → ∀ inv ∈ r.2, Transport.OwnResponse inv

variable {c c' : TcpConnection} {l : List RpcRequest} {free : Prop}

theorem matched_fresh : fresh.Matched where
  own r hr := absurd hr (by simp [outstanding, fresh])
  echoed reply hreply := absurd hreply (by simp [fresh])

/-- Fewer unanswered requests keep the match. -/
theorem Matched.mono (h : c.Matched) (hout : ∀ r ∈ c'.outstanding, r ∈ c.outstanding)
    (htable : c'.pendingCallbacks = c.pendingCallbacks) (hreplies : c'.replies ⊆ c.replies) :
    c'.Matched where
  own r hr r' hlookup := h.own r (hout r hr) r' (htable ▸ hlookup)
  echoed reply hreply := h.echoed reply (hreplies hreply)

theorem Passes.silent (htable : c'.pendingCallbacks = c.pendingCallbacks)
    (hmatched : c.Matched → c'.Matched) : c.Passes [] free (c', []) where
  holds n := by simp [TcpConnection.holds, htable]
  matched _ h := hmatched h
  own _ _ _ hinv := absurd hinv List.not_mem_nil

theorem Passes.refl (c : TcpConnection) : c.Passes [] free (c, []) := .silent rfl id

theorem Passes.trans {d d' : TcpConnection} {first second : List Invocation}
    (h : c.Passes [] free (d, first)) (h' : d.Passes [] free (d', second)) :
    c.Passes [] free (d', first ++ second) where
  holds n := by
    have hle : d.holds n + invocationCount n first ≤ c.holds n := h.holds n
    have hle' : d'.holds n + invocationCount n second ≤ d.holds n := h'.holds n
    show d'.holds n + invocationCount n (first ++ second) ≤ c.holds n
    rw [invocationCount_append]
    omega
  matched hfree hc := h'.matched hfree (h.matched hfree hc)
  own hfree hc inv hinv := (List.mem_append.mp hinv).elim (h.own hfree hc inv)
    (h'.own hfree (h.matched hfree hc) inv)

theorem Passes.andThen {d d' : TcpConnection} {calls : List Invocation}
    (h : c.Passes [] free (d, calls)) (h' : d.Passes [] free (d', [])) :
    c.Passes [] free (d', calls) := by
  simpa using h.trans h'

/-- A callback leaves the table when it is called. -/
theorem Passes.take {id : Nat} {r : RpcRequest} {o : Outcome}
    (hr : c.pendingCallbacks.lookup id = some r)
    (hown : c.Matched → Transport.OwnResponse ⟨r, o⟩) :
    c.Passes [] free ({ c with pendingCallbacks := c.pendingCallbacks.erase id },
      [⟨r, o⟩]) where
  holds n := by
    have hcount := countP_erase_of_lookup (fun e => decide (e.2.call = n)) hr
    simp only [decide_eq_true_eq] at hcount
    simp [TcpConnection.holds, hcount]
  matched _ h := ⟨fun r hr r' hl => h.own r hr r' (lookup_of_erase hl), h.echoed⟩
  own _ h inv hinv := List.mem_singleton.mp hinv ▸ hown h

variable (c) (i : Nat)

theorem doWrite_passes : c.Passes [] free (c.doWrite, []) := by
  unfold doWrite
  split
  · exact .silent rfl fun h => ⟨h.own, h.echoed⟩
  rename_i q rest hq
  -- requests move from the queue to the wire
  split <;> refine .silent rfl fun h => h.mono (fun r hr => ?_) rfl (List.Subset.refl _)
  all_goals
    simp only [outstanding, hq, List.mem_append, List.mem_cons, List.not_mem_nil] at hr ⊢
    tauto

theorem runSendPost_passes : c.Passes [] free (c.runSendPost, []) := by
  unfold runSendPost
  split
  · exact .refl c
  rename_i r rest hposts
  have hmoved (w : Bool) : c.Passes [] free ({ c with
      sendPosts := rest, writeQueue := c.writeQueue ++ [r], writeInProgress := w }, []) := by
    refine .silent rfl fun h => h.mono (fun r₀ hr₀ => ?_) rfl (List.Subset.refl _)
    simp only [outstanding, hposts, List.mem_append, List.mem_cons, List.not_mem_nil] at hr₀ ⊢
    tauto
  dsimp only
  split
  · exact hmoved _
  · exact (hmoved true).trans (doWrite_passes _)

theorem failCallback_passes (id : Nat) (error : SendError) :
    c.Passes [] free (c.failCallback id error) := by
  unfold failCallback
  split
  · exact .take ‹_› fun _ => ownResponse_of_failure rfl
  · exact .refl c

theorem failCallbacks_passes (error : SendError) (ids : List Nat) :
    c.Passes [] free (c.failCallbacks error ids) := by
  induction ids generalizing c with
  | nil => exact .refl c
  | cons id ids ih => exact (c.failCallback_passes id error).trans (ih _)

theorem writeHandler_passes (ok : Bool) : c.Passes [] free (c.writeHandler i ok) := by
  unfold writeHandler
  split
  · exact .refl c
  rename_i ids _
  have htaken : c.Passes [] free ({ c with inWrite := c.inWrite.eraseIdx i }, []) :=
    .silent rfl fun h => ⟨h.own, h.echoed⟩
  split
  · exact htaken.trans (doWrite_passes _)
  have hfail := htaken.trans (failCallbacks_passes _ .sendFailed ids)
  refine (hfail.andThen ?_).andThen (doWrite_passes _)
  exact .silent rfl fun h => ⟨h.own, h.echoed⟩

theorem timeout_passes (id : Nat) : c.Passes [] free (c.timeout id) := by
  unfold timeout
  split
  · exact c.failCallback_passes id .requestTimeout
  · exact .refl c

theorem serverAnswer_passes (withId : Bool) : c.Passes [] free (c.serverAnswer i withId, []) := by
  unfold serverAnswer
  split
  · exact .refl c
  rename_i r hr
  have hmem : r ∈ c.wire := List.mem_of_getElem? hr
  refine .silent rfl fun h => ⟨fun r₀ hr₀ => h.own r₀ ?_, fun reply hreply => ?_⟩
  · simp only [outstanding, List.mem_append, List.map_append, List.map_cons, List.map_nil,
      List.mem_singleton] at hr₀ ⊢
    rcases hr₀ with (hold | hwire) | hreply | rfl
    · exact .inl (.inl hold)
    · exact .inl (.inr (List.mem_of_mem_eraseIdx hwire))
    · exact .inr hreply
    · exact .inl (.inr hmem)
  · rcases List.mem_append.mp hreply with hold | hnew
    · exact h.echoed reply hold
    · obtain rfl := List.mem_singleton.mp hnew
      cases withId with
      | false => left; simp
      | true => right; simp

/-- A response is handed to the callback of its own request. -/
theorem handleMessage_passes : c.Passes [] free (c.handleMessage i) := by
  unfold handleMessage
  split
  · exact .refl c
  rename_i reply hreply
  have hmem : reply ∈ c.replies := List.mem_of_getElem? hreply
  have hshrunk : c.Passes [] free ({ c with replies := c.replies.eraseIdx i }, []) := by
    refine .silent rfl fun h => h.mono (fun r₀ hr₀ => ?_) rfl (List.eraseIdx_subset)
    simp only [outstanding, List.mem_append, List.mem_map] at hr₀ ⊢
    rcases hr₀ with hold | ⟨reply, hreply, rfl⟩
    · exact .inl hold
    · exact .inr ⟨reply, List.mem_of_mem_eraseIdx hreply, rfl⟩
  dsimp only
  split
  · exact hshrunk
  rename_i hid
  split
  · rename_i r hr
    have htaken := hshrunk.trans (.take hr (o := .failure .sendFailed) fun _ =>
      ownResponse_of_failure rfl)
    refine ⟨htaken.holds, htaken.matched, fun _ h inv hinv reply' heq => ?_⟩
    obtain rfl := List.mem_singleton.mp hinv
    cases heq
    have hecho := (h.echoed reply hmem).resolve_left hid
    rw [hecho] at hr
    exact (h.own _ (List.mem_append_right _ (List.mem_map_of_mem hmem)) r hr).symm
  · exact hshrunk

theorem close_passes : c.Passes [] free c.close where
  holds n := by simp [close, holds, invocationCount, List.countP_map, Function.comp_def]
  matched _ h := ⟨fun _ _ _ hl => by simp [close] at hl, h.echoed⟩
  own _ _ inv hinv := by
    obtain ⟨e, -, rfl⟩ := List.mem_map.mp hinv
    exact ownResponse_of_failure rfl

theorem drainWriteQueue_passes : c.Passes [] free c.drainWriteQueue := by
  refine (c.failCallbacks_passes .connectionClosed _).andThen (.silent rfl fun h => ?_)
  refine h.mono (fun r hr => ?_) rfl (List.Subset.refl _)
  simp only [outstanding, List.append_nil, List.mem_append] at hr ⊢
  tauto

theorem send_passes (r : RpcRequest) : c.Passes [r] (c.acceptsId r = true) (c.send r, []) where
  holds n := by
    have hins := countP_insert_le c.pendingCallbacks r.correlationId r
      (fun e => decide (e.2.call = n))
    simpa [send, holds] using hins
  matched hfree h := by
    have hcases : ∀ r₀ ∈ (c.send r).outstanding, r₀ = r ∨ r₀ ∈ c.outstanding := by
      clear hfree
      intro r₀ hr₀
      simp only [outstanding, send, List.mem_append, List.mem_singleton] at hr₀ ⊢
      tauto
    simp only [acceptsId, Bool.decide_and, Bool.and_eq_true, decide_eq_true_eq] at hfree
    refine ⟨fun r₀ hr₀ r' hlookup => ?_, h.echoed⟩
    rcases hcases r₀ hr₀ with rfl | hold
    · -- the response of the new request finds the entry just stored
      rw [send, hfree.1, AList.lookup_insert] at hlookup
      exact (Option.some.inj hlookup).symm
    · rw [send, AList.lookup_insert_ne (hfree.2 r₀ hold)] at hlookup
      exact h.own r₀ hold r' hlookup
  own _ _ _ hinv := absurd hinv List.not_mem_nil

theorem foldl_send_passes (l : List RpcRequest) :
    c.Passes l (c.acceptsIds l = true) (l.foldl send c, []) := by
  induction l generalizing c with
  | nil => exact .refl c
  | cons r l ih =>
    refine ⟨fun n => ?_, fun hfree h => ?_, by simp⟩
    · have hfirst : (c.send r).holds n ≤ c.holds n + callCount n [r] := (c.send_passes r).holds n
      have hrest : (l.foldl send (c.send r)).holds n ≤ (c.send r).holds n + callCount n l :=
        (ih (c.send r)).holds n
      show (l.foldl send (c.send r)).holds n ≤ c.holds n + callCount n ([r] ++ l)
      rw [callCount_append]
      omega
    · obtain ⟨hone, hrest⟩ := Bool.and_eq_true_iff.mp hfree
      exact (ih _).matched hrest ((c.send_passes r).matched hone h)

end TcpConnection

/-! ## §3 — No event makes a second copy of a callback, nor mistakes one for another. -/

namespace Transport

/-- How often the callback of `call` stands anywhere, invocations included. -/
def holds (s : Transport) (n : Nat) : Nat :=
  callCount n s.posted + callCount n s.rejected + callCount n (s.enqueued.map (·.2)) +
    (s.peers.map fun p => callCount n p.pendingSends).sum + (s.conns.map (·.holds n)).sum +
    invocationCount n s.invoked

def sendsOf (s : Transport) : Event → Option (Nat × List RpcRequest)
  | .runEnqueueSend i =>
    match s.enqueued[i]? with
    | some (p, r) =>
      match s.peers[p]? with
      | some peer => (s.liveConn peer).map fun k => (k, [r])
      | none => none
    | none => none
  | .onConnect p k true =>
    match s.peers[p]? with
    | some peer =>
      if peer.conn = some k ∧ peer.state = .connecting then some (k, peer.pendingSends) else none
    | none => none
  | _ => none

/-- **`freshIds`** — every request the event puts on a connection has an id that the server echoes
unchanged and that no unanswered request of the connection will be answered with. -/
def freshIds (s : Transport) (e : Event) : Bool :=
  match s.sendsOf e with
  | none => true
  | some (k, l) =>
    match s.conns[k]? with
    | none => true
    | some c => ({ c with connected := true } : TcpConnection).acceptsIds l

/-- The invariant behind the second result. -/
structure Answered (s : Transport) : Prop where
  conns : ∀ c ∈ s.conns, c.Matched
  invoked : ∀ inv ∈ s.invoked, OwnResponse inv

/-- What a part of an event does to callbacks, when it is given the requests `new` and the ids it
puts on a connection are `free` there. -/
structure Passes (new : List RpcRequest) (free : Prop) (s s' : Transport) : Prop where
  holds : ∀ n, s'.holds n ≤ s.holds n + callCount n new
  calls : s'.calls = s.calls
  answered : free → s.Answered → s'.Answered

variable {s s' s'' : Transport} {new : List RpcRequest} {free : Prop} {p : Nat}
  {peer : PeerConnection} {r : RpcRequest}

theorem Passes.refl (s : Transport) : Passes new free s s :=
  ⟨fun _ => Nat.le_add_right _ _, rfl, fun _ h => h⟩

theorem Passes.trans (h : Passes new free s s') (h' : Passes [] free s' s'') :
    Passes new free s s'' :=
  ⟨fun n => (h'.holds n).trans (h.holds n), h'.calls.trans h.calls,
    fun hfree hs => h'.answered hfree (h.answered hfree hs)⟩

theorem Answered.fail (h : s.Answered) {calls : List Invocation}
    (hcalls : ∀ inv ∈ calls, ∃ error, inv.outcome = .failure error) :
    ∀ inv ∈ s.invoked ++ calls, OwnResponse inv := by
  intro inv hinv
  rcases List.mem_append.mp hinv with hold | hnew
  · exact h.invoked inv hold
  · exact ownResponse_of_failure (hcalls inv hnew).choose_spec

theorem onConn_passes (s : Transport) (k : Nat)
    {f : TcpConnection → TcpConnection × List Invocation}
    (hf : ∀ c, s.conns[k]? = some c → c.Passes new free (f c)) :
    Passes new free s (s.onConn k f) := by
  unfold onConn
  split
  · exact .refl s
  rename_i c hc
  have hmem := List.mem_of_getElem? hc
  refine ⟨fun n => ?_, rfl, fun hok h => ⟨fun c' hc' => ?_, fun inv hinv => ?_⟩⟩
  · have hset := sum_map_set (·.holds n) (f c).1 hc
    have := (hf c hc).holds n
    simp only [holds, invocationCount_append]
    omega
  · rcases List.mem_or_eq_of_mem_set hc' with hold | rfl
    · exact h.conns c' hold
    · exact (hf c hc).matched hok (h.conns c hmem)
  · rcases List.mem_append.mp hinv with hold | hnew
    · exact h.invoked inv hold
    · exact (hf c hc).own hok (h.conns c hmem) inv hnew

theorem plainConn_passes (s : Transport) (k : Nat)
    {op : TcpConnection → TcpConnection × List Invocation}
    (hop : ∀ c : TcpConnection, c.Passes [] free (op c)) :
    Passes [] free s (s.onConn k op) := s.onConn_passes k fun c _ => hop c

theorem onConn_peers (s : Transport) (k : Nat)
    (op : TcpConnection → TcpConnection × List Invocation) : (s.onConn k op).peers = s.peers := by
  unfold onConn
  split <;> rfl

theorem closeConn_passes (s : Transport) (conn : Option Nat) :
    Passes [] free s (s.closeConn conn) := by
  cases conn with
  | none => exact .refl s
  | some k => exact s.plainConn_passes k (·.close_passes)

theorem closeConn_peers (s : Transport) (conn : Option Nat) :
    (s.closeConn conn).peers = s.peers := by
  cases conn with
  | none => rfl
  | some k => exact s.onConn_peers k _

theorem setPeer_holds (peer' : PeerConnection) (h : s.peers[p]? = some peer) (n : Nat) :
    (s.setPeer p peer').holds n + callCount n peer.pendingSends
      = s.holds n + callCount n peer'.pendingSends := by
  have hset := sum_map_set (fun p => callCount n p.pendingSends) peer' h
  simp only [holds, setPeer]
  omega

theorem startConnecting_passes (s : Transport) (p : Nat) :
    Passes [] free s (s.startConnecting p) := by
  unfold startConnecting
  split
  · exact .refl s
  rename_i peer hpeer
  split
  · refine ⟨fun n => ?_, rfl, fun _ h => ⟨fun c hc => ?_, h.invoked⟩⟩
    · have hset := setPeer_holds
        { peer with state := .connecting, conn := some s.conns.length } hpeer n
      simp only [holds, setPeer, List.map_append, List.sum_append] at hset ⊢
      simp [TcpConnection.fresh, TcpConnection.holds] at hset ⊢
      omega
    · rcases List.mem_append.mp hc with hold | hnew
      · exact h.conns c hold
      · exact List.mem_singleton.mp hnew ▸ TcpConnection.matched_fresh
  · exact .refl s

/-- Failing the buffered sends of a peer moves their callbacks to the invocations. -/
theorem drainPendingSends_passes {o : PeerConnection} (error : SendError)
    (h : s.peers[p]? = some o) (hsends : peer.pendingSends = o.pendingSends) :
    Passes [] free s (s.drainPendingSends p peer error) := by
  refine ⟨fun n => ?_, rfl, fun _ hs => ⟨hs.conns, hs.fail fun inv hinv => ?_⟩⟩
  · have hset := setPeer_holds { peer with pendingSends := [] } h n
    simp only [drainPendingSends, holds, setPeer, invocationCount_append,
      invocationCount_map_failure, callCount_nil, hsends] at hset ⊢
    omega
  · obtain ⟨r, -, rfl⟩ := List.mem_map.mp hinv
    exact ⟨error, rfl⟩

theorem buffer_passes (r : RpcRequest) (h : s.peers[p]? = some peer) :
    Passes [r] free s (s.buffer p peer r) := by
  unfold buffer
  dsimp only
  split
  · -- the oldest send leaves the buffer through its callback
    refine ⟨fun n => ?_, rfl, fun _ hs => ⟨hs.conns, hs.fail fun inv hinv => ?_⟩⟩
    · cases hsends : peer.pendingSends ++ [r] with
      | nil => simp at hsends
      | cons d rest =>
        have hset := setPeer_holds { peer with pendingSends := rest } h n
        have hcount := congrArg (callCount n) hsends
        simp only [holds, setPeer, List.head?_cons, Option.map_some, Option.toList_some,
          invocationCount_append, invocationCount_cons, invocationCount_nil, List.tail_cons,
          callCount_append, callCount_cons, callCount_nil] at hset hcount ⊢
        omega
    · obtain ⟨d, -, rfl⟩ := Option.map_eq_some_iff.mp (Option.mem_toList.mp hinv)
      exact ⟨_, rfl⟩
  · refine ⟨fun n => ?_, rfl, fun _ hs => ⟨hs.conns, hs.invoked⟩⟩
    have hset := setPeer_holds { peer with pendingSends := peer.pendingSends ++ [r] } h n
    rw [callCount_append] at hset
    omega

theorem enqueueSend_passes (s : Transport) (p : Nat) (r : RpcRequest)
    (hfree : free → ∀ peer, s.peers[p]? = some peer → ∀ k, s.liveConn peer = some k →
      ∀ c, s.conns[k]? = some c → c.acceptsId r = true) :
    Passes [r] free s (s.enqueueSend p r) := by
  unfold enqueueSend
  split
  · exact .refl s
  rename_i peer hpeer
  split
  · refine s.onConn_passes _ fun c hc => ?_
    have h := c.send_passes r
    exact ⟨h.holds, fun hok => h.matched (hfree hok peer hpeer _ ‹_› c hc), by simp⟩
  split
  · refine Passes.trans ?_ (startConnecting_passes _ p)
    refine ⟨fun n => ?_, rfl, fun _ hs => ⟨hs.conns, hs.invoked⟩⟩
    have hset := setPeer_holds
      { peer with state := .failed, pendingSends := peer.pendingSends ++ [r] } hpeer n
    rw [callCount_append] at hset
    omega
  split
  · exact buffer_passes r hpeer
  · exact (buffer_passes r hpeer).trans (startConnecting_passes _ p)

theorem runEnqueueSend_passes (s : Transport) (i : Nat) :
    Passes [] (s.freshIds (.runEnqueueSend i) = true) s (s.runEnqueueSend i) := by
  unfold runEnqueueSend
  split
  · exact .refl s
  rename_i p r hi
  have hsend : Passes [r] (s.freshIds (.runEnqueueSend i) = true)
      { s with enqueued := s.enqueued.eraseIdx i }
      ({ s with enqueued := s.enqueued.eraseIdx i }.enqueueSend p r) := by
    refine enqueueSend_passes _ p r fun hfresh peer hpeer k hk c hc => ?_
    -- the id was free on this connection before the event
    have hsends : s.sendsOf (.runEnqueueSend i) = some (k, [r]) := by
      simp only [sendsOf, hi, show s.peers[p]? = some peer from hpeer]
      exact congrArg (Option.map fun k => (k, [r])) hk
    simp only [freshIds, hsends] at hfresh
    rw [show s.conns[k]? = some c from hc] at hfresh
    exact (Bool.and_eq_true_iff.mp hfresh).1
  refine ⟨fun n => ?_, hsend.calls, fun hok hs => hsend.answered hok ⟨hs.conns, hs.invoked⟩⟩
  -- the request leaves the posted tasks, then goes on to a table or a buffer
  have hle := hsend.holds n
  have hcount := countP_eraseIdx (fun e => decide (e.2.call = n)) hi
  simp only [decide_eq_true_eq] at hcount
  refine hle.trans (le_of_eq ?_)
  simp only [holds, callCount, List.countP_map, Function.comp_def, List.countP_singleton,
    List.countP_nil, decide_eq_true_eq]
  omega

theorem onConnect_passes (s : Transport) (p k : Nat) (ok : Bool) :
    Passes [] (s.freshIds (.onConnect p k ok) = true) s (s.onConnect p k ok) := by
  have hclose : Passes [] (s.freshIds (.onConnect p k ok) = true) s
      (s.onConn k TcpConnection.close) := s.plainConn_passes k (·.close_passes)
  unfold onConnect
  split
  · exact .refl s
  rename_i peer hpeer
  split
  · exact hclose
  rename_i hconn
  split
  · rename_i hok
    subst hok
    split
    · rename_i hstate
      -- the buffered sends move into the callback table
      have hsends : s.sendsOf (.onConnect p k true) = some (k, peer.pendingSends) := by
        simp only [sendsOf, hpeer]
        exact if_pos ⟨not_not.mp hconn, hstate⟩
      have hsend : Passes peer.pendingSends (s.freshIds (.onConnect p k true) = true) _ _ :=
        (s.setPeer p { peer with state := .connected, pendingSends := [] }).onConn_passes k
          (f := fun c =>
            (peer.pendingSends.foldl TcpConnection.send { c with connected := true }, []))
          fun c hc => ?_
      · refine ⟨fun n => (hsend.holds n).trans ?_, hsend.calls, fun hok hs => ?_⟩
        · exact (setPeer_holds { peer with state := .connected, pendingSends := [] } hpeer n).le
        · exact hsend.answered hok ⟨hs.conns, hs.invoked⟩
      · have h := TcpConnection.foldl_send_passes { c with connected := true } peer.pendingSends
        refine ⟨h.holds, fun hfresh hc' => h.matched ?_ ⟨hc'.own, hc'.echoed⟩, by simp⟩
        rw [freshIds, hsends] at hfresh
        dsimp only at hfresh
        rw [show s.conns[k]? = some c from hc] at hfresh
        exact hfresh
    · exact hclose
  · split
    · refine hclose.trans (drainPendingSends_passes _ (o := peer) ?_ rfl)
      rw [onConn_peers]
      exact hpeer
    · exact .refl s

theorem closePeer_passes (s : Transport) (p : Nat) : Passes [] free s (s.closePeer p) := by
  unfold closePeer
  split
  · exact .refl s
  rename_i peer hpeer
  split
  · exact .refl s
  refine (s.closeConn_passes peer.conn).trans (drainPendingSends_passes _ (o := peer) ?_ rfl)
  rw [closeConn_peers]
  exact hpeer

theorem runPosted_passes (s : Transport) (i : Nat) : Passes [] free s (s.runPosted i) := by
  unfold runPosted
  split
  · exact .refl s
  rename_i r hi
  -- the request goes from one list to another; a new peer has no sends
  have hmoved (p : Nat) (peers : List PeerConnection) (n : Nat)
      (hpeers : (peers.map fun p => callCount n p.pendingSends).sum =
        (s.peers.map fun p => callCount n p.pendingSends).sum) :
      ({ s with posted := s.posted.eraseIdx i, peers := peers
                enqueued := s.enqueued ++ [(p, r)] } : Transport).holds n ≤ s.holds n := by
    have hcount := countP_eraseIdx (fun r => decide (r.call = n)) hi
    simp only [decide_eq_true_eq] at hcount
    simp only [holds, hpeers, List.map_append, callCount_append, List.map_cons, List.map_nil,
      callCount_cons, callCount_nil]
    simp only [callCount] at hcount ⊢
    omega
  dsimp only
  split
  · split
    · exact ⟨fun n => hmoved _ _ n rfl, rfl, fun _ h => ⟨h.conns, h.invoked⟩⟩
    · exact ⟨fun n => hmoved _ _ n (by simp), rfl, fun _ h => ⟨h.conns, h.invoked⟩⟩
  · rename_i hlast
    have hnone : s.peers = [] := by simpa using hlast
    exact ⟨fun n => hmoved _ _ n (by simp [hnone]), rfl, fun _ h => ⟨h.conns, h.invoked⟩⟩

theorem runRejected_passes (s : Transport) (i : Nat) : Passes [] free s (s.runRejected i) := by
  unfold runRejected
  split
  · exact .refl s
  rename_i r hi
  refine ⟨fun n => ?_, rfl, fun _ hs => ⟨hs.conns, hs.fail fun inv hinv => ?_⟩⟩
  · have hcount := countP_eraseIdx (fun r => decide (r.call = n)) hi
    simp only [decide_eq_true_eq] at hcount
    simp only [holds, invocationCount_append, invocationCount_cons, invocationCount_nil]
    simp only [callCount] at hcount ⊢
    omega
  · exact ⟨_, congrArg Invocation.outcome (List.mem_singleton.mp hinv)⟩

/-- **One event** makes no second copy of a callback and, on free ids, keeps every connection
matched and every success rightly delivered. -/
theorem next_passes (s : Transport) {e : Event} (he : ∀ g type, e ≠ .sendRpc g type) :
    Passes [] (s.freshIds e = true) s (s.next e) := by
  cases e with
  | sendRpc g type => exact absurd rfl (he g type)
  | createGroup | stop => exact ⟨fun _ => Nat.le_refl _, rfl, fun _ h => ⟨h.conns, h.invoked⟩⟩
  | runPosted i => exact s.runPosted_passes i
  | runRejected i => exact s.runRejected_passes i
  | runEnqueueSend i => exact s.runEnqueueSend_passes i
  | startConnecting p => exact s.startConnecting_passes p
  | onConnect p k ok => exact s.onConnect_passes p k ok
  | closePeer p => exact s.closePeer_passes p
  | runSendPost k => exact s.plainConn_passes k (·.runSendPost_passes)
  | writeHandler k i ok => exact s.plainConn_passes k (·.writeHandler_passes i ok)
  | timeout k id => exact s.plainConn_passes k (·.timeout_passes id)
  | serverAnswer k i withId => exact s.plainConn_passes k (·.serverAnswer_passes i withId)
  | handleMessage k i => exact s.plainConn_passes k (·.handleMessage_passes i)
  | drainWriteQueue k => exact s.plainConn_passes k (·.drainWriteQueue_passes)
  | readError k | setBatching k =>
    exact s.plainConn_passes k fun c => .silent rfl fun h => ⟨h.own, h.echoed⟩

/-- Every callback stands in at most one place, and nowhere before its call. -/
def AtMostOnePlace (s : Transport) : Prop :=
  ∀ n, s.holds n ≤ 1 ∧ (s.calls ≤ n → s.holds n = 0)

theorem atMostOnePlace_initial : AtMostOnePlace initial := by
  intro n
  simp [holds, initial]

theorem sendRpc_holds (s : Transport) (g : Nat) (type : RpcType) (n : Nat) :
    (s.sendRpc g type).holds n = s.holds n + (if n = s.calls then 1 else 0) ∧
      (s.sendRpc g type).calls = s.calls + 1 := by
  have hsymm : (s.calls = n) = (n = s.calls) := propext eq_comm
  unfold sendRpc
  dsimp only
  split <;> refine ⟨?_, rfl⟩
  all_goals
    simp only [holds, callCount_append, callCount_cons, callCount_nil, hsymm]
    omega

theorem AtMostOnePlace.next (h : AtMostOnePlace s) (e : Event) : AtMostOnePlace (s.next e) := by
  intro n
  obtain ⟨hone, hnew⟩ := h n
  by_cases he : ∃ g type, e = .sendRpc g type
  · obtain ⟨g, type, rfl⟩ := he
    obtain ⟨hholds, hcalls⟩ := s.sendRpc_holds g type n
    show (s.sendRpc g type).holds n ≤ 1 ∧
      ((s.sendRpc g type).calls ≤ n → (s.sendRpc g type).holds n = 0)
    rw [hholds, hcalls]
    split <;> omega
  have hpasses := s.next_passes (e := e) fun g type heq => he ⟨g, type, heq⟩
  have hle : (s.next e).holds n ≤ s.holds n := hpasses.holds n
  rw [hpasses.calls]
  omega

theorem Answered.next (h : Answered s) {e : Event} (hfresh : s.freshIds e = true) :
    Answered (s.next e) := by
  by_cases he : ∃ g type, e = .sendRpc g type
  · obtain ⟨g, type, rfl⟩ := he
    show (s.sendRpc g type).Answered
    unfold sendRpc
    dsimp only
    split <;> exact ⟨h.conns, h.invoked⟩
  · exact (s.next_passes fun g type heq => he ⟨g, type, heq⟩).answered hfresh h

/-! ## §4 — Every run. -/

theorem atMostOnePlace_of_reachable (h : system.Reachable s) : AtMostOnePlace s := by
  refine TransitionSystem.ReachableWith.invariant ?_ ?_ h
  · rintro s rfl
    exact atMostOnePlace_initial
  · intro s e s' hs _ hnext
    obtain rfl : s.next e = s' := Option.some.inj hnext
    exact hs.next e

/-- Two groups send their first RequestVote to the same peer while it connects; both drew id 1. The
server answers the request of group 1 first. -/
def twoGroupsRun : List Event :=
  [.sendRpc 1 .requestVote, .runPosted 0, .startConnecting 0, .sendRpc 2 .requestVote, .runPosted 0,
    .runEnqueueSend 0, .runEnqueueSend 0, .onConnect 0 0 true, .runSendPost 0, .serverAnswer 0 0 true,
    .handleMessage 0 0]

/-- **A callback is never in two places**, in every run and whatever ids its group drew: it waits in
one queue or table, or has been called, and then it waits nowhere. -/
theorem callback_never_in_two_places (h : system.Reachable s) (call : Nat) : s.holds call ≤ 1 :=
  (atMostOnePlace_of_reachable h call).1

/-- Both callbacks of the clash: one called, the other gone from the table. -/
theorem callback_never_in_two_places_clash :
    ∃ s, system.Reachable s ∧ s.calls = 2 ∧ s.holds 0 ≤ 1 ∧ s.holds 1 ≤ 1 := by
  obtain ⟨s, hreach, hcalls⟩ := system.reaches twoGroupsRun rfl
    (P := fun s => s.calls = 2) (by decide +kernel)
  exact ⟨s, hreach, hcalls, callback_never_in_two_places hreach 0,
    callback_never_in_two_places hreach 1⟩

end Transport

end RollingRaft
