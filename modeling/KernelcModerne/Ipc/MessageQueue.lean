import Mathlib.Data.Int.Order.Basic
import KernelcModerne.Lib.PriorityQueue

namespace Kernel

abbrev ProcessId := Int

structure Message where
  sender : ProcessId
  receiver : ProcessId
  data : String
  priority : Nat
  timestamp : Nat
  deriving DecidableEq

/-- `Message{}`. -/
def Message.empty : Message := ⟨0, 0, "", 0, 0⟩

structure MessageQueue where
  messages : List Message

namespace MessageQueue

variable (queue : PriorityQueue Message)

def constructed : MessageQueue where
  messages := []

/-- `optimizedSend(dest, msg)` at the time `now`. `dest` is only notified. -/
def optimizedSend (self : MessageQueue) (_dest : ProcessId) (msg : Message) (now : Nat) : MessageQueue where
  messages := queue.push self.messages { msg with timestamp := now }

def receive (self : MessageQueue) (receiver : ProcessId) : Message × MessageQueue :=
  match queue.pop self.messages with
  | some (msg, messages) => if msg.receiver = receiver then (msg, { messages }) else (.empty, self)
  | none => (.empty, self)

/-- The message at the top of the queue is for this receiver. -/
def TopFor (self : MessageQueue) (receiver : ProcessId) : Prop :=
  ∃ top ∈ queue.pop self.messages, top.1.receiver = receiver

instance (self : MessageQueue) (receiver : ProcessId) : Decidable (self.TopFor queue receiver) :=
  inferInstanceAs (Decidable (∃ top ∈ queue.pop self.messages, top.1.receiver = receiver))

/-- The receiver gets a message of the queue that is for it, and the queue loses
this message. -/
def Serves (self : MessageQueue) (receiver : ProcessId) : Prop :=
  (self.receive queue receiver).1.receiver = receiver ∧
    self.messages.Perm ((self.receive queue receiver).1 :: (self.receive queue receiver).2.messages)

variable {queue}

/-- A receiver that finds its message at the top takes it off the queue. -/
theorem serves_of_topFor {self : MessageQueue} {receiver : ProcessId} (h : self.TopFor queue receiver) :
    self.Serves queue receiver := by
  obtain ⟨⟨msg, messages⟩, hpop, hreceiver⟩ := h
  simp only [Serves, receive, Option.mem_def.mp hpop, if_pos hreceiver]
  exact ⟨hreceiver, queue.perm_of_pop hpop⟩

/-- Any other receiver gets the empty message. -/
theorem receive_of_not_topFor {self : MessageQueue} {receiver : ProcessId} (h : ¬ self.TopFor queue receiver) :
    self.receive queue receiver = (.empty, self) := by
  unfold receive
  cases hpop : queue.pop self.messages with
  | none => rfl
  | some top => exact if_neg fun hreceiver => h ⟨top, hpop, hreceiver⟩

theorem serves_iff_topFor {self : MessageQueue} {receiver : ProcessId} :
    self.Serves queue receiver ↔ self.TopFor queue receiver := by
  constructor
  · intro hserves
    by_contra hnot
    have hlength := hserves.2.length_eq
    rw [receive_of_not_topFor hnot, List.length_cons] at hlength
    exact absurd hlength.symm (Nat.succ_ne_self _)
  · exact serves_of_topFor

/-- Messages that wait behind the top are not served: a receiver with messages
in the queue gets one exactly when the top is one of them. -/
theorem serves_waiting_iff (queue : PriorityQueue Message) (self : MessageQueue) (receiver : ProcessId) :
    ((∃ msg ∈ self.messages, msg.receiver = receiver) → self.Serves queue receiver) ↔
      (∀ msg ∈ self.messages, msg.receiver ≠ receiver) ∨ self.TopFor queue receiver := by
  rw [serves_iff_topFor]
  constructor
  · intro h
    by_cases hwaiting : ∃ msg ∈ self.messages, msg.receiver = receiver
    · exact .inr (h hwaiting)
    · exact .inl fun msg hmem heq => hwaiting ⟨msg, hmem, heq⟩
  · intro h hwaiting
    cases h with
    | inl hnone =>
      obtain ⟨msg, hmem, heq⟩ := hwaiting
      exact absurd heq (hnone msg hmem)
    | inr htop => exact htop

/-- The queue whose top has the highest priority. -/
def highestFirst : PriorityQueue Message := .sorted fun a b => b.priority ≤ a.priority

/-- A message for process 2 behind a more urgent one for process 1. -/
def urgentFirst : MessageQueue :=
  (constructed.optimizedSend highestFirst 1 ⟨3, 1, "urgent", 9, 0⟩ 100).optimizedSend highestFirst 2
    ⟨3, 2, "hello", 1, 0⟩ 101

theorem urgent_message_blocks_others :
    ¬ ∀ receiver, (∃ msg ∈ urgentFirst.messages, msg.receiver = receiver) →
      urgentFirst.Serves highestFirst receiver := by
  intro h
  obtain ⟨hreceiver, _⟩ := h 2 (by decide)
  exact absurd hreceiver (by decide)

end MessageQueue

end Kernel
