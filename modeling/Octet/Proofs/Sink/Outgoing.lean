import Octet.Proofs.Connection.Ledger
import Octet.Proofs.Sink.Contract

/-!
# The contract of outgoing messages

A message under construction holds what is staged. Nothing has reached the connection behind it
until a flush.

## Main definitions

* `Outgoing.Holds`, `Outgoing.Torn`: a message before and after a call that fails.
* `Outgoing.Stages`, `Outgoing.Overflows`: the same before a flush.
* `Transport.Willing`: a transport that takes whatever it is asked to send.

## Main statements

* `Outgoing.tracked`: the contract of sinks.
* `Outgoing.unflushed`: as long as nothing is flushed, a failure has no trace in the connection.
* `Outgoing.Torn.lt_length`: over a willing transport, only the limit makes a call fail.
-/

namespace Octet

variable {τ : Type} [Transport τ]

/-- The transport takes what it is asked to send, now and ever after. -/
def Transport.Willing (transport : τ) : Prop :=
  ∃ willing : τ → Prop, willing transport ∧
    ∀ data t, willing t → ∃ u, Transport.send data t = .ok () u ∧ willing u

theorem Transport.Willing.send {transport : τ} (h : Willing transport) (data : Bytes) :
    ∃ next, Transport.send data transport = .ok () next ∧ Willing next := by
  obtain ⟨willing, ht, hsend⟩ := h
  obtain ⟨next, hnext, hu⟩ := hsend data transport ht
  exact ⟨next, hnext, willing, hu, hsend⟩

/-- A transport that remembers is as willing as the one inside. -/
theorem Transport.Willing.recorded {transport : Recorded τ} (h : Willing transport.inner) :
    Willing transport := by
  refine ⟨fun t => Willing t.inner, h, fun data t ht => ?_⟩
  obtain ⟨next, hnext, hwilling⟩ := ht.send data
  exact ⟨⟨next, t.sends ++ [⟨data, true⟩]⟩, by simp only [Transport.send, hnext], hwilling⟩

namespace Outgoing

variable {c : Connection τ} {message : Outgoing τ} {content : Bytes}

/-- The message has staged these bytes. -/
def Holds (c : Connection τ) (message : Outgoing τ) (content : Bytes) : Prop :=
  message = ⟨c, content⟩

/-- These bytes were too many, or the transport has refused them. -/
def Torn (c : Connection τ) (message : Outgoing τ) (content : Bytes) : Prop :=
  c.limit < content.length ∧ message.connection = c ∨
    ∃ e transport, Transport.send content c.transport = .error e transport ∧
      message = ⟨{ c with transport, traffic := c.traffic.refused }, content⟩

theorem tracked (c : Connection τ) : Sink.Tracked (Holds c) (Torn c) where
  position := by
    rintro _ content rfl
    rfl
  write {_ content} data := by
    rintro rfl
    apply (write_ends data _).mono
    · rintro _ _ ⟨rfl, -, rfl⟩
      rw [if_pos rfl]
      rfl
    · rintro _ _ ⟨-, hlimit, rfl⟩
      refine ⟨data.length, .inl ⟨?_, rfl⟩⟩
      rwa [List.take_length, List.length_append]
  overwrite {_ content offset} data := by
    rintro rfl hle
    apply (overwrite_ends offset data _).mono
    · rintro _ _ ⟨rfl, -, rfl⟩
      rw [if_pos rfl]
      rfl
    · rintro _ _ ⟨-, hlt, -⟩
      grind
  flush {_ content} := by
    rintro rfl
    rw [ends_flush]
    split
    next => trivial
    next =>
      dsimp only
      cases hsend : Transport.send content c.transport with
      | ok _ transport => trivial
      | error e transport => exact .inr ⟨e, transport, hsend, rfl⟩

/-- The message has staged these bytes, which do not pass the limit. -/
def Stages (c : Connection τ) (message : Outgoing τ) (content : Bytes) : Prop :=
  message = ⟨c, content⟩ ∧ content.length ≤ c.limit

/-- These bytes were too many, and the connection has seen nothing of them. -/
def Overflows (c : Connection τ) (message : Outgoing τ) (content : Bytes) : Prop :=
  c.limit < content.length ∧ message.connection = c

/-- Before a flush, only the limit makes a call fail. -/
theorem unflushed (c : Connection τ) : Sink.Unflushed (Stages c) (Overflows c) where
  position := by
    rintro _ content ⟨rfl, -⟩
    rfl
  write {_ content} data := by
    rintro ⟨rfl, -⟩
    apply (write_ends data _).mono
    · rintro _ _ ⟨rfl, hlimit, rfl⟩
      rw [if_pos rfl]
      exact ⟨rfl, by rwa [List.length_append]⟩
    · rintro _ _ ⟨-, hlimit, rfl⟩
      refine ⟨data.length, ?_, rfl⟩
      rwa [List.take_length, List.length_append]
  overwrite {_ content offset} data := by
    rintro ⟨rfl, hlimit⟩ hle
    apply (overwrite_ends offset data _).mono
    · rintro _ _ ⟨rfl, -, rfl⟩
      rw [if_pos rfl]
      exact ⟨rfl, by rwa [Bytes.length_overlay_of_le hle]⟩
    · rintro _ _ ⟨-, hlt, -⟩
      grind

theorem Torn.lt_length (h : Torn c message content) (hc : Transport.Willing c.transport) :
    c.limit < content.length := by
  rcases h with ⟨hlimit, -⟩ | ⟨e, transport, hsend, -⟩
  · exact hlimit
  · obtain ⟨_, hok, -⟩ := hc.send content
    rw [hsend] at hok
    cases hok

end Outgoing

end Octet
