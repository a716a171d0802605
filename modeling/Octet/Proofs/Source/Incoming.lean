import Octet.Connection.Incoming
import Octet.Proofs.Source.Call
import Octet.Proofs.Source.Contract

/-!
# The contract of incoming bytes

A session walks over the bytes that had arrived when it began. Whatever its client does, the
connection behind it stays as it was.

## Main statements

* `Source.Walks.run`: no client leads a source off its data.
* `Incoming.walks`: the contract of sources.
-/

namespace Octet

namespace Source

variable {σ α : Type} [Source σ] {data : Bytes} {stands : σ → Nat → Prop} {s : σ} {p : Nat}

theorem Walks.step (h : Walks data stands) (hs : stands s p) (call : Call) :
    ∃ q, stands (Source.step call s).state q := by
  cases call with
  | read want => exact ⟨_, (h.read want hs).2⟩
  | skip count =>
    apply step_skip_of_ends fun t => ∃ q, stands t q
    exact (h.skip count hs).mono (fun _ _ ⟨_, ht⟩ => ⟨_, ht⟩) fun _ _ h => h.elim
  | size => exact ⟨p, (h.size hs).2⟩
  | seek target =>
    apply step_seek_of_ends fun t => ∃ q, stands t q
    exact (h.seek target hs).mono (fun _ _ ⟨_, ht⟩ => ⟨_, ht⟩) fun _ _ ⟨_, _, ht⟩ => ⟨_, ht⟩

theorem Walks.run (h : Walks data stands) (hs : stands s p) (client : Client Call Reply σ α) :
    ∃ q, stands (client.run Source.step s).state q :=
  client.run_invariant Source.step (fun _ t => ∃ q, stands t q)
    (fun call _ _ ⟨_, ht⟩ => h.step ht call) [] ⟨p, hs⟩

end Source

namespace Incoming

variable {τ α : Type}

/-- The session reads from this connection and its cursor is at a position. -/
def Stands (c : Connection τ) (source : Incoming τ) (p : Nat) : Prop :=
  source.connection = c ∧ source.cursor = p

theorem walks (c : Connection τ) : Source.Walks c.received (Stands c) where
  position h := h.2
  le := by
    rintro source _ ⟨rfl, rfl⟩
    exact source.cursor_le
  read want := by
    rintro ⟨rfl, rfl⟩
    exact ⟨rfl, rfl, by simp [Source.read, advance, remaining]⟩
  skip count := by
    rintro ⟨rfl, rfl⟩
    exact Action.ends_of_ok rfl ⟨by simp [remaining], rfl, rfl⟩
  size := by
    rintro _ _ ⟨rfl, rfl⟩
    exact ⟨rfl, rfl, rfl⟩
  seek {source _} target := by
    rintro ⟨rfl, rfl⟩
    by_cases h : target ≤ source.connection.received.length
    · exact Action.ends_of_ok (dif_pos h) ⟨h, rfl, rfl⟩
    · exact Action.ends_of_error (dif_neg h) ⟨rfl, Nat.not_le.mp h, rfl, rfl⟩

theorem yields : Source.Yields (fun _ => True) (remaining (τ := τ)) where
  read {source} want _ := by
    refine ⟨rfl, trivial, ?_, rfl⟩
    change source.connection.received.drop (source.cursor + min want source.remaining.length) =
      source.remaining.drop want
    rw [← List.drop_drop, List.drop_eq_drop_min (i := want)]
    rfl

theorem stands_incoming (c : Connection τ) : Stands c c.incoming 0 := ⟨rfl, rfl⟩

/-- A chain of reads on the bytes that have arrived starts at the first of them. -/
theorem stands_reader (c : Connection τ) :
    (⟨c.incoming, false⟩ : Reader (Incoming τ)).Stands (Stands c) 0 :=
  ⟨rfl, stands_incoming c⟩

/-- Reading leaves the connection alone. -/
theorem connection_run (client : Client Source.Call Source.Reply (Incoming τ) α)
    (c : Connection τ) : (client.run Source.step c.incoming).state.connection = c := by
  obtain ⟨_, hconnection, -⟩ := (walks c).run (stands_incoming c) client
  exact hconnection

end Incoming

end Octet
