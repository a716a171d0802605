import Octet.Proofs.Connection.Dealing
import Octet.Proofs.Texture.Transfer

/-!
# One image, one send

An image that is saved to a message is handed to the transport whole, in one send, or not at all. A
save writes and corrects before it flushes, and flushes once; where it is refused before that, the
connection has seen nothing of the image, and what was staged is given up with the message.

## Main statements

* `Connection.staged_deal`: whatever a client does with a connection, it leaves nothing staged.
* `Connection.sends_of_sendImage`: what the transport is asked to send for an image.
-/

namespace Octet

open Texture (Header Image)

namespace Connection

variable {τ α : Type} [Transport τ]

theorem staged_deal {c : Connection τ} (hstaged : c.staged = []) (dealing : Dealing τ) :
    (deal dealing c).state.staged = [] := by
  cases dealing with
  | send session =>
    obtain ⟨_, message, -, -, hstate⟩ := hold_leads session c
    exact (congrArg staged hstate).trans message.close_staged
  | receive fragment => exact hstaged
  | read client =>
    cases hreleased : (client.run Source.step c.incoming).outcome with
    | false => simpa only [deal_read_of_not_released hreleased] using hstaged
    | true => simpa only [deal, hreleased, Incoming.consume, Incoming.connection_run,
        if_true] using hstaged

variable {c : Connection (Recorded τ)}

/-- The transport is asked once all of the file is staged, and is the last to be asked. -/
theorem save_ends_outgoing (hstaged : c.staged = []) (image : Image) :
    (Texture.save image.payloads).Ends (image.header, c.outgoing)
      (fun _ next => image.Fits ∧ image.file.length ≤ c.limit ∧ next.1 = image.described ∧
        next.2.connection.sends = c.sends ++ [⟨image.file, true⟩])
      (fun _ next => next.2.connection.sends = c.sends ++
        if image.Fits ∧ image.file.length ≤ c.limit then [⟨image.file, false⟩] else []) := by
  have hlen := image.length_file
  have hne : image.file ≠ [] := by
    intro hnil
    rw [hnil, List.length_nil, Texture.headerSize] at hlen
    omega
  have hstart : Outgoing.Stages { c with staged := [] } c.outgoing [] :=
    ⟨by rw [outgoing, hstaged], Nat.zero_le _⟩
  apply (Texture.save_ends_unflushed (Outgoing.unflushed _) hstart image.header image.payloads).mono
  · rintro _ ⟨_, message⟩ ⟨hfits, hheader, full, ⟨rfl, hlimit⟩, hflush⟩
    obtain ⟨-, -, hsends⟩ := (Outgoing.flush_ends _).of_ok hflush
    exact ⟨hfits, hlimit, hheader, hsends.trans (congrArg (c.sends ++ ·) (if_neg hne))⟩
  · rintro e ⟨_, message⟩ (⟨content, hpart, ⟨hlt, hconnection⟩ | ⟨⟨rfl, -⟩, hfits⟩⟩ |
      ⟨hfits, full, ⟨rfl, hlimit⟩, hflush⟩)
    · -- What passes the limit is a part of the file, so that the file passes it too.
      have hle := hpart.length_le
      rw [List.length_nil] at hle
      have hover : ¬ (image.Fits ∧ image.file.length ≤ c.limit) := by
        rintro ⟨-, hlimit⟩
        change c.limit < content.length at hlt
        omega
      rw [if_neg hover, List.append_nil, show message.connection = _ from hconnection]
      rfl
    · rw [if_neg fun h => hfits h.1, List.append_nil]
      rfl
    · obtain ⟨-, -, -, hsends⟩ := (Outgoing.flush_ends _).of_error hflush
      rw [if_pos ⟨hfits, hlimit⟩]
      exact hsends

/-- Whatever a client has done with a connection, an image is then saved to a message and the
message is ended. If saving succeeds, the transport was asked once, and has taken the whole file:
the header as saving leaves it, then the payloads. If not, it has taken nothing. It was asked once,
for that very file, if the image fits and its file does not pass the limit, and not at all
otherwise. Either way nothing is staged for the next message. -/
theorem sends_of_sendImage (transport : Recorded τ) (limit : Nat)
    (client : Client (Dealing (Recorded τ)) (Except Error Nat) (Connection (Recorded τ)) α)
    (image : Image) :
    let c := (client.run deal { transport, limit }).state
    let (outcome, next) := c.sendImage image
    let file := image.described.encode ++ image.payloads.flatten
    next.staged = [] ∧
      match outcome with
      | .ok header => image.Fits ∧ file.length ≤ c.limit ∧ header = image.described ∧
          next.sends = c.sends ++ [⟨file, true⟩]
      | .error _ => next.sends = c.sends ++
          if image.Fits ∧ file.length ≤ c.limit then [⟨file, false⟩] else [] := by
  intro c
  have hstaged : c.staged = [] :=
    client.run_invariant deal (fun _ c => c.staged = [])
      (fun dealing _ _ h => staged_deal h dealing) [] rfl
  have hsave := save_ends_outgoing hstaged image
  unfold sendImage
  cases hact : Texture.save image.payloads (image.header, c.outgoing) with
  | ok _ next =>
    obtain ⟨hfits, hlimit, hheader, hsends⟩ := hsave.of_ok hact
    exact ⟨next.2.close_staged, hfits, hlimit, hheader, next.2.close_sends.trans hsends⟩
  | error e next => exact ⟨next.2.close_staged, next.2.close_sends.trans (hsave.of_error hact)⟩

end Connection

end Octet
