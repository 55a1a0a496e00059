/-
# RollingRaft.Cluster — the nodes of a deployment and the messages between them.

The network is what the nodes have done: a request can arrive when its sender has sent it, a response
when its receiver has answered, as often and as late as one likes. So messages are lost, duplicated
and reordered, but not made up. Everything else a node can do, it can do at any time.
-/
import RollingRaft.Votes

namespace RollingRaft

open Lib

/-- The nodes that are run and their options. Node ids are distinct and none of them is `-1`, which
stands for nobody. -/
structure Deployment where
  nodes : List NodeId
  options : NodeId → Options
  serverId_eq : ∀ i, (options i).serverId = i
  ids : -1 ∉ nodes

abbrev Cluster := NodeId → Process

namespace Cluster

/-- The message of an event at node `i` is one that was sent. -/
def delivered (c : Cluster) (i : NodeId) : Event → Bool
  | .request reply req =>
    (c reply.peer).group.out.any fun o => o.act = .sent i req reply.callback
  | .response peer callback resp =>
    (c peer).group.out.any fun o => o.act = .replied ⟨i, callback⟩ resp
  | _ => true

/-- What node `i` may trust: messages were sent, votes were granted. -/
def vouched (c : Cluster) (i : NodeId) : Vouched where
  asked reply req := ∃ o ∈ (c reply.peer).group.out, o.act = .sent i req reply.callback
  granted peer t := (c peer).group.Cast t i
  carried _ := True
  preVoteTimesOut := True
  resigns := True
  stands := True

theorem vouchedBy_of_delivered {c : Cluster} {i : NodeId} {ev : Event} (h : c.delivered i ev) :
    ev.VouchedBy (c.vouched i) := by
  refine vouchedBy_of ?_ ?_ fun _ => trivial
  · rintro reply req rfl
    obtain ⟨o, ho, hact⟩ := List.any_eq_true.mp h
    exact ⟨o, ho, of_decide_eq_true hact⟩
  · rintro peer t resp rfl hgranted
    obtain ⟨o, ho, hact⟩ := List.any_eq_true.mp h
    exact ⟨o, ho, resp, of_decide_eq_true hact, hgranted⟩

/-- The histories of `c'` continue those of `c`. -/
def Continues (c c' : Cluster) : Prop := ∀ v, ∀ o ∈ (c v).group.out, o ∈ (c' v).group.out

variable {c c' : Cluster} {i : NodeId}

theorem Continues.asked (h : c.Continues c') {reply : ReplyTo} {req : Request}
    (ha : (c.vouched i).asked reply req) : (c'.vouched i).asked reply req := by
  obtain ⟨o, ho, hact⟩ := ha
  exact ⟨o, h _ o ho, hact⟩

theorem Continues.cast (h : c.Continues c') {v x : NodeId} {t : Term} (hc : (c v).group.Cast t x) :
    (c' v).group.Cast t x := by
  obtain ⟨o, ho, hact⟩ := hc
  exact ⟨o, h v o ho, hact⟩

/-- What a waiting section relies on is still so. -/
theorem Continues.waitingSound (h : c.Continues c') {p : Process}
    (hs : p.WaitingSound (c.vouched i)) : p.WaitingSound (c'.vouched i) := by
  intro w hw
  have hsound := hs w hw
  cases w with
  | lead => exact hsound
  | stepDown persistState rest =>
    refine ⟨hsound.1, ?_⟩
    cases rest with
    | requestVote | installSnapshot => exact ⟨hsound.2.1, h.asked hsound.2.2⟩
    | _ => exact hsound.2

end Cluster

namespace Deployment

variable (D : Deployment)

def initial : Cluster := fun i => Process.initial (D.options i)

def next (c : Cluster) (e : NodeId × Event × Env) : Option Cluster :=
  if e.1 ∈ D.nodes ∧ c.delivered e.1 e.2.1 then
    ((c e.1).next e.2).map fun p => Function.update c e.1 p
  else none

/-- Any interleaving of the nodes of `D`. -/
def system : TransitionSystem Cluster (NodeId × Event × Env) where
  init c := c = D.initial
  next := D.next

variable {D} {c c' : Cluster} {i : NodeId} {ev : Event} {env : Env}

theorem next_eq (h : D.next c (i, ev, env) = some c') :
    i ∈ D.nodes ∧ ev.VouchedBy (c.vouched i) ∧
      ∃ p, (c i).Step env ev p ∧ c' = Function.update c i p := by
  unfold next at h
  split at h
  · rename_i hguard
    obtain ⟨p, hp, rfl⟩ := Option.map_eq_some_iff.mp h
    exact ⟨hguard.1, Cluster.vouchedBy_of_delivered hguard.2, p, Process.step_of_next hp, rfl⟩
  · cases h

end Deployment

end RollingRaft
