import Mathlib.Data.List.Perm.Subperm
import KernelcModerne.Ipc.MessageQueue
import KernelcModerne.Lib.Transition

open Transition

namespace Kernel

/-- The `IPCManager`'s messages. -/
structure IPCManager where
  messageQueue : MessageQueue

namespace IPCManager

def constructed : IPCManager where
  messageQueue := .constructed

variable (queue : PriorityQueue Message)

def sendMessage (self : IPCManager) (dest : ProcessId) (msg : Message) (now : Nat) : IPCManager where
  messageQueue := self.messageQueue.optimizedSend queue dest msg now

def receiveMessage (self : IPCManager) (receiver : ProcessId) : Message × IPCManager :=
  let (msg, messageQueue) := self.messageQueue.receive queue receiver
  (msg, { messageQueue })

/-- A manager with the messages passed to `sendMessage`, each with its `dest`,
and those that `receiveMessage` has delivered, each with the process it went
to. -/
structure Client where
  manager : IPCManager
  sent : List (ProcessId × Message)
  delivered : List (ProcessId × Message)

inductive Op where
  | sendMessage (dest : ProcessId) (msg : Message) (now : Nat)
  | receiveMessage (receiver : ProcessId)

namespace Client

def constructed : Client where
  manager := .constructed
  sent := []
  delivered := []

/-- One call. `receiveMessage` delivers the message that it answers if this was
at the top of the queue and for the receiver. -/
def step (client : Client) : Op → Option Client
  | .sendMessage dest msg now =>
    some
      { client with
        manager := client.manager.sendMessage queue dest msg now
        sent := (dest, { msg with timestamp := now }) :: client.sent }
  | .receiveMessage receiver =>
    let (msg, manager) := client.manager.receiveMessage queue receiver
    some
      { client with
        manager
        delivered :=
          if client.manager.messageQueue.TopFor queue receiver then (receiver, msg) :: client.delivered
          else client.delivered }

/-- Each message sent has been delivered or is still queued, and none is twice;
those delivered went to their receivers. -/
structure Conserved (client : Client) : Prop where
  ledger : (client.sent.map Prod.snd).Perm
    (client.delivered.map Prod.snd ++ client.manager.messageQueue.messages)
  received : ∀ delivery ∈ client.delivered, delivery.2.receiver = delivery.1

/-- A `receiveMessage` that delivers nothing changes nothing. -/
def IdleUnlessDelivers (client : Client) (op : Op) (after : Client) : Prop :=
  match op with
  | .sendMessage _ _ _ => True
  | .receiveMessage _ => after.delivered = client.delivered → after = client

theorem constructed_conserved : constructed.Conserved := ⟨.nil, nofun⟩

variable {queue}

/-- What `receiveMessage` does: it delivers the top of the queue to its receiver,
or nothing. -/
theorem step_receive_cases {client after : Client} {receiver : ProcessId}
    (hstep : client.step queue (.receiveMessage receiver) = some after) :
    (∃ msg messages, msg.receiver = receiver ∧
      client.manager.messageQueue.messages.Perm (msg :: messages) ∧
      after =
        { client with
          manager := ⟨⟨messages⟩⟩
          delivered := (receiver, msg) :: client.delivered }) ∨
    after = client := by
  simp only [step, receiveMessage, Option.some.injEq] at hstep
  by_cases htop : client.manager.messageQueue.TopFor queue receiver
  · obtain ⟨hreceiver, hperm⟩ := MessageQueue.serves_of_topFor htop
    rw [if_pos htop] at hstep
    exact .inl ⟨_, _, hreceiver, hperm, hstep.symm⟩
  · rw [if_neg htop, MessageQueue.receive_of_not_topFor htop] at hstep
    exact .inr hstep.symm

theorem Conserved.step {client after : Client} (h : client.Conserved) {op : Op}
    (hstep : client.step queue op = some after) : after.Conserved := by
  cases op with
  | sendMessage dest msg now =>
    simp only [Client.step, Option.some.injEq] at hstep
    subst hstep
    refine ⟨?_, h.received⟩
    have hpushed := queue.push_perm client.manager.messageQueue.messages { msg with timestamp := now }
    exact (h.ledger.cons _).trans (List.perm_middle.symm.trans (hpushed.symm.append_left _))
  | receiveMessage receiver =>
    cases step_receive_cases hstep with
    | inl hdelivers =>
      obtain ⟨msg, messages, hreceiver, hperm, rfl⟩ := hdelivers
      refine ⟨?_, List.forall_mem_cons.mpr ⟨hreceiver, h.received⟩⟩
      exact (h.ledger.trans (hperm.append_left _)).trans List.perm_middle
    | inr hidle => exact hidle ▸ h

theorem step_idleUnlessDelivers {client after : Client} {op : Op}
    (hstep : client.step queue op = some after) : client.IdleUnlessDelivers op after := by
  cases op with
  | sendMessage dest msg now => trivial
  | receiveMessage receiver =>
    intro hsame
    cases step_receive_cases hstep with
    | inl hdelivers =>
      obtain ⟨msg, messages, _, _, rfl⟩ := hdelivers
      exact absurd hsame (List.cons_ne_self _ _)
    | inr hidle => exact hidle

/-- In every run no message is lost and none delivered twice. -/
theorem always_conserved_along_idle (queue : PriorityQueue Message) (ops : List Op) :
    Always (step queue) Conserved constructed ops ∧
      Along (step queue) IdleUnlessDelivers constructed ops := by
  constructor
  · exact always_of_step (fun _ _ _ h hstep => h.step hstep) ops constructed_conserved
  · apply along_of_step Conserved _ ops constructed_conserved
    intro client op after h hstep
    exact ⟨step_idleUnlessDelivers hstep, h.step hstep⟩

/-- Each message delivered was sent to the process that got it, and not more
often than it was sent there. -/
def Routed (client : Client) : Prop := client.delivered.Subperm client.sent

/-- All messages sent were sent to their receivers. -/
def Consistent (client : Client) : Prop := ∀ post ∈ client.sent, post.2.receiver = post.1

/-- What a call sends. -/
def post? : Op → Option (ProcessId × Message)
  | .sendMessage dest msg now => some (dest, { msg with timestamp := now })
  | .receiveMessage _ => none

theorem sent_of_run {ops : List Op} {client after : Client} (hrun : run (step queue) client ops = some after) :
    after.sent = (ops.filterMap post?).reverse ++ client.sent := by
  induction ops generalizing client with
  | nil =>
    rw [run_nil, Option.some.injEq] at hrun
    rw [hrun]
    rfl
  | cons op ops ih =>
    rw [run_cons, Option.bind_eq_some_iff] at hrun
    obtain ⟨next, hstep, hrun⟩ := hrun
    rw [ih hrun]
    cases op with
    | sendMessage dest msg now =>
      simp only [step, Option.some.injEq] at hstep
      simp [← hstep, post?]
    | receiveMessage receiver =>
      simp only [step, Option.some.injEq] at hstep
      simp [← hstep, post?, List.filterMap_cons]

theorem consistent_of_run_iff {ops : List Op} {after : Client}
    (hrun : run (step queue) constructed ops = some after) :
    after.Consistent ↔ ∀ dest msg now, .sendMessage dest msg now ∈ ops → msg.receiver = dest := by
  have hsent (post : ProcessId × Message) : post ∈ after.sent ↔ ∃ op ∈ ops, post? op = some post := by
    rw [sent_of_run hrun, constructed, List.append_nil, List.mem_reverse, List.mem_filterMap]
  constructor
  · intro h dest msg now hmem
    exact h _ ((hsent _).mpr ⟨_, hmem, rfl⟩)
  · intro h post hpost
    obtain ⟨op, hmem, hop⟩ := (hsent post).mp hpost
    cases op with
    | sendMessage dest msg now =>
      rw [post?, Option.some.injEq] at hop
      rw [← hop]
      exact h dest msg now hmem
    | receiveMessage receiver => cases hop

theorem conserved_of_run {ops : List Op} {after : Client}
    (hrun : run (step queue) constructed ops = some after) : after.Conserved :=
  run_invariant Conserved (fun _ _ _ h hstep => h.step hstep) ops constructed_conserved hrun

/-- Messages that are all for the processes they are listed with are told apart
by their receiver fields. -/
theorem map_receiver_eq {posts : List (ProcessId × Message)} (h : ∀ post ∈ posts, post.2.receiver = post.1) :
    (posts.map Prod.snd).map (fun msg => (msg.receiver, msg)) = posts := by
  rw [List.map_map]
  calc
    posts.map ((fun msg : Message => (msg.receiver, msg)) ∘ Prod.snd) = posts.map id :=
      List.map_congr_left fun post hmem => Prod.ext (h post hmem) rfl
    _ = posts := List.map_id _

theorem Conserved.routed {client : Client} (h : client.Conserved) (hconsistent : client.Consistent) :
    client.Routed := by
  have hsent : (client.delivered.map Prod.snd).Subperm (client.sent.map Prod.snd) :=
    (List.sublist_append_left _ _).subperm.trans h.ledger.symm.subperm
  have hposts := hsent.map (f := fun msg => (msg.receiver, msg)) fun _ _ heq => (Prod.mk.inj heq).2
  rwa [map_receiver_eq h.received, map_receiver_eq hconsistent] at hposts

/-- Once all messages are delivered, those that went where they were sent were
sent to their receivers. -/
theorem Conserved.consistent_of_drained {client : Client} (h : client.Conserved)
    (hdrained : client.manager.messageQueue.messages = []) (hrouted : client.Routed) : client.Consistent := by
  have hlength := h.ledger.length_eq
  rw [hdrained, List.append_nil, List.length_map, List.length_map] at hlength
  have hperm := hrouted.perm_of_length_le (Nat.le_of_eq hlength)
  exact fun post hmem => h.received post (hperm.mem_iff.mpr hmem)

/-- The receiver of the message at the top of a queue takes it off. -/
theorem exists_receive (queue : PriorityQueue Message) {client : Client} {n : Nat}
    (hlength : client.manager.messageQueue.messages.length = n + 1) :
    ∃ receiver after, client.step queue (.receiveMessage receiver) = some after ∧
      after.manager.messageQueue.messages.length = n ∧ after.sent = client.sent := by
  cases hmessages : client.manager.messageQueue.messages with
  | nil =>
    rw [hmessages] at hlength
    cases hlength
  | cons msg messages =>
    obtain ⟨top, rest, hpop, _⟩ := queue.pop_cons msg messages
    have htop : client.manager.messageQueue.TopFor queue top.receiver :=
      ⟨(top, rest), hmessages ▸ hpop, rfl⟩
    have htaken := (MessageQueue.serves_of_topFor htop).2.length_eq
    rw [hlength, List.length_cons] at htaken
    exact ⟨top.receiver, _, rfl, (Nat.succ.inj htaken).symm, rfl⟩

/-- Polls that empty the queue. -/
theorem exists_drain (queue : PriorityQueue Message) {n : Nat} (client : Client)
    (hlength : client.manager.messageQueue.messages.length = n) :
    ∃ receivers : List ProcessId, ∃ after, run (step queue) client (receivers.map .receiveMessage) = some after ∧
      after.manager.messageQueue.messages = [] ∧ after.sent = client.sent := by
  induction n generalizing client with
  | zero => exact ⟨[], client, rfl, List.eq_nil_of_length_eq_zero hlength, rfl⟩
  | succ n ih =>
    obtain ⟨receiver, next, hstep, hnext, hsent⟩ := exists_receive queue hlength
    obtain ⟨receivers, after, hrun, hdrained, hkept⟩ := ih next hnext
    refine ⟨receiver :: receivers, after, ?_, hdrained, hkept.trans hsent⟩
    rw [List.map_cons, run_cons, hstep]
    exact hrun

theorem exists_run (queue : PriorityQueue Message) (client : Client) (ops : List Op) :
    ∃ after, run (step queue) client ops = some after := by
  induction ops generalizing client with
  | nil => exact ⟨client, rfl⟩
  | cons op ops ih =>
    cases op with
    | sendMessage dest msg now => exact ih _
    | receiveMessage receiver => exact ih _

/-- The messages of a run, received in whatever order after it, only go to the
processes that they were sent to exactly when each was sent to its receiver. -/
theorem always_routed_iff_addressed (queue : PriorityQueue Message) (ops : List Op) :
    (∀ receivers : List ProcessId,
      Always (step queue) Routed constructed (ops ++ receivers.map .receiveMessage)) ↔
      ∀ dest msg now, .sendMessage dest msg now ∈ ops → msg.receiver = dest := by
  constructor
  · intro h
    obtain ⟨client, hrun⟩ := exists_run queue constructed ops
    obtain ⟨receivers, after, hdrain, hdrained, hsent⟩ := exists_drain queue client rfl
    have hwhole : run (step queue) constructed (ops ++ receivers.map .receiveMessage) = some after := by
      rw [run_append, hrun]
      exact hdrain
    have hrouted := always_iff_forall_reached.mp (h receivers) _ (List.prefix_refl _) after hwhole
    rw [← consistent_of_run_iff hrun, Consistent, ← hsent]
    exact (conserved_of_run hwhole).consistent_of_drained hdrained hrouted
  · intro h receivers
    rw [always_iff_forall_reached]
    intro first hfirst after hrun
    apply (conserved_of_run hrun).routed
    rw [consistent_of_run_iff hrun]
    intro dest msg now hmem
    cases List.mem_append.mp (hfirst.subset hmem) with
    | inl hop => exact h dest msg now hop
    | inr hreceive => simp at hreceive

/-- A message for process 1 is sent to process 2, and process 1 gets it. -/
theorem delivered_to_receiver_field :
    ¬ Always (step MessageQueue.highestFirst) Routed constructed
      [.sendMessage 2 ⟨3, 1, "hello", 1, 0⟩ 100, .receiveMessage 1] := by
  rintro ⟨_, h⟩
  obtain ⟨_, h⟩ := h _ rfl
  obtain ⟨hrouted, _⟩ := h _ rfl
  have hmem := hrouted.subset List.mem_cons_self
  exact absurd hmem (by decide)

end Client

end IPCManager

end Kernel
