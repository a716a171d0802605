import Octet.Connection.Incoming
import Octet.Proofs.Checked.Basic
import Octet.Proofs.Connection.Dealing

/-!
# Reading does not break

The sources in memory cut their bytes at a position. Here the position is a number about which
nothing is promised, and every cut, sum and difference may break; none does, since a session starts
at the front and no call leads past the end.

## Main definitions

* `Bare`: a position in bytes.
* `Bare.read`, `Bare.skip`, `Bare.skipRemaining`, `Bare.release`: the calls, with operations that
  may break.
* `Connection.readChecked`: a session on what a connection has received.

## Main statements

* `Cursor.runChecked_eq`, `Incoming.runChecked_eq`: no client breaks them.
* `Connection.readChecked_eq`: nor does the release at the end of a session.
-/

namespace Octet

/-- A position in bytes, which may be anywhere. -/
structure Bare where
  data : Bytes
  position : Nat := 0
  deriving DecidableEq, Repr

namespace Bare

open Checked

/-- The bytes not read yet. -/
def remaining : Checked Bare Bytes := do
  let b ← get
  slice b.data b.position b.data.length

/-- Steps over bytes. -/
def advance (count : Nat) : Checked Bare Nat := do
  let position ← sum (← get).position count
  modify fun b => { b with position }
  return count

/-- Fills a buffer as far as there are bytes. Gives their count and the buffer afterwards. -/
def read (buffer : Bytes) : Checked Bare (Nat × Bytes) := do
  let available ← remaining
  let count := min buffer.length available.length
  let bytes ← slice available 0 count
  let buffer ← copy buffer 0 count bytes
  let _ ← advance count
  return (count, buffer)

/-- Passes over bytes. How many are left is found by subtraction. -/
def skip (count : Nat) : Checked Bare Nat := do
  let b ← get
  let left ← difference b.data.length b.position
  advance (min count left)

/-- Passes over bytes. How many are left is found by cutting. -/
def skipRemaining (count : Nat) : Checked Bare Nat := do
  let available ← remaining
  advance (min count available.length)

/-- Moves the position, no further than to the end. -/
def seek (target : Nat) : Action Bare Unit := fun b =>
  if b.data.length < target then .error (.seekOutOfRange target b.data.length) b
  else .ok () { b with position := target }

/-- Makes a call; a read is into a cleared buffer. Sources differ in how they skip. -/
def perform (skip : Nat → Checked Bare Nat) : Source.Call → Checked Bare Source.Reply
  | .read want => do
    let (count, buffer) ← read (List.replicate want 0)
    return .delivered (.ofBytes (buffer.take count))
  | .skip count => do
    return .passed (.ok (← skip count))
  | .size => do
    return .size (some (← get).data.length)
  | .seek target => do
    return .sought (← ofAction (Action.attempt (seek target)))

/-- Lets the bytes go that were read. -/
def release : Checked Bare Nat := do
  let b ← get
  demand (b.position ≤ b.data.length)
  set ({ data := b.data.drop b.position } : Bare)
  return b.position

/-! ## No call breaks -/

/-- The bare source after so many bytes. -/
def ahead (count : Nat) (b : Bare) : Bare := { b with position := b.position + count }

/-- The position is in the bytes, and they are no more than a number can count. -/
def Sound (b : Bare) : Prop := b.position ≤ b.data.length ∧ b.data.length < UInt64.size

variable {b : Bare} {count : Nat}

theorem get_eq (b : Bare) : (get : Checked Bare Bare) b = .ok b b := rfl

theorem remaining_eq (h : b.Sound) : remaining b = .ok (b.data.drop b.position) b := by
  simp only [remaining, bind, EStateM.bind, get_eq]
  rw [slice_eq h.1 (Nat.le_refl _), List.take_of_length_le (Nat.le_of_eq List.length_drop)]
  rfl

theorem advance_eq (h : b.Sound) (hcount : count ≤ b.data.length - b.position) :
    advance count b = .ok count (b.ahead count) := by
  obtain ⟨hle, hlt⟩ := h
  simp only [advance, bind, EStateM.bind, get_eq]
  rw [sum_eq (by omega)]
  rfl

theorem read_eq (h : b.Sound) (buffer : Bytes) :
    let count := min buffer.length (b.data.length - b.position)
    read buffer b =
      .ok (count, buffer.overlay 0 ((b.data.drop b.position).take count)) (b.ahead count) := by
  intro count
  have hleft : (b.data.drop b.position).length = b.data.length - b.position := List.length_drop
  simp only [read, bind, EStateM.bind, remaining_eq h]
  rw [hleft, slice_eq (Nat.zero_le _) (by rw [hleft]; exact Nat.min_le_right ..), List.drop_zero]
  simp only [pure, EStateM.pure, Nat.sub_zero]
  rw [copy_eq (Nat.zero_le _) (Nat.min_le_left ..) (by simp)]
  simp only [pure, EStateM.pure, advance_eq h (Nat.min_le_right ..)]
  rfl

theorem skip_eq (h : b.Sound) (count : Nat) :
    let passed := min count (b.data.length - b.position)
    skip count b = .ok passed (b.ahead passed) := by
  simp only [skip, bind, EStateM.bind, get_eq]
  rw [difference_eq h.1]
  exact advance_eq h (Nat.min_le_right ..)

theorem skipRemaining_eq (h : b.Sound) (count : Nat) :
    let passed := min count (b.data.length - b.position)
    skipRemaining count b = .ok passed (b.ahead passed) := by
  simp only [skipRemaining, bind, EStateM.bind, remaining_eq h, List.length_drop]
  exact advance_eq h (Nat.min_le_right ..)

theorem release_eq (h : b.Sound) :
    release b = .ok b.position { data := b.data.drop b.position } := by
  simp only [release, bind, EStateM.bind, get_eq, demand_eq h.1]
  rfl

/-- The calls on a source that walks over bytes are those of its position in them. -/
theorem perform_eq {σ : Type} [Source σ] {data : Bytes} {stands : σ → Nat → Prop} {view : σ → Bare}
    {skip : Nat → Checked Bare Nat} (hsource : Source.Walks data stands)
    (hview : ∀ s p, stands s p → view s = ⟨data, p⟩)
    (hskip : ∀ {b : Bare}, b.Sound → ∀ count,
      let passed := min count (b.data.length - b.position)
      skip count b = .ok passed (b.ahead passed))
    (hlen : data.length < UInt64.size) (call : Source.Call) {s : σ} (hs : ∃ p, stands s p) :
    perform skip call (view s) =
      .ok (Source.step call s).outcome (view (Source.step call s).state) := by
  obtain ⟨p, hs⟩ := hs
  have hsound : Sound ⟨data, p⟩ := ⟨hsource.le hs, hlen⟩
  rw [hview s p hs]
  cases call with
  | read want =>
    obtain ⟨hread, hnext⟩ := hsource.read want hs
    -- What was copied to the front of the buffer is what was cut from the bytes.
    have hleft : (data.drop p).length = data.length - p := List.length_drop
    have hcut : (data.drop p).take (min want (data.length - p)) = (data.drop p).take want := by
      rw [← hleft, ← List.take_eq_take_min]
    have hlength : ((data.drop p).take want).length = min want (data.length - p) := by
      simp [hleft]
    have hbuffer := Bytes.take_drop_overlay (List.replicate want 0) 0 ((data.drop p).take want)
    rw [hlength, List.drop_zero] at hbuffer
    simp only [Source.step, Source.perform, perform, bind, EStateM.bind, read_eq hsound, hread,
      hview _ _ hnext, List.length_replicate, hcut, hbuffer]
    rfl
  | skip count =>
    obtain ⟨passed, t, hskipped, rfl, ht⟩ := (hsource.skip count hs).exists_ok (by simp)
    simp only [Source.step, Source.perform, perform, bind, EStateM.bind, hskip hsound, hskipped,
      hview _ _ ht]
    rfl
  | size =>
    obtain ⟨hsize, ht⟩ := hsource.size hs
    simp only [Source.step, Source.perform, perform, bind, EStateM.bind, hsize, hview _ _ ht]
    rfl
  | seek target =>
    have hseek := hsource.seek target hs
    simp only [Source.step, Source.perform, perform, bind, EStateM.bind]
    cases hact : Source.seek target s with
    | ok _ t =>
      obtain ⟨hle, ht⟩ := hseek.of_ok hact
      have hsought : seek target ⟨data, p⟩ = .ok () ⟨data, target⟩ := if_neg (Nat.not_lt.mpr hle)
      simp only [ofAction, Action.attempt, hsought, hview _ _ ht]
      rfl
    | error e t =>
      obtain ⟨rfl, hlt, ht⟩ := hseek.of_error hact
      have hsought : seek target ⟨data, p⟩ =
          .error (.seekOutOfRange target data.length) ⟨data, p⟩ := if_pos hlt
      simp only [ofAction, Action.attempt, hsought, hview _ _ ht]
      rfl

/-- No client of a source that walks over bytes breaks them. -/
theorem runChecked_eq {σ α : Type} [Source σ] {data : Bytes} {stands : σ → Nat → Prop}
    {view : σ → Bare} {skip : Nat → Checked Bare Nat} (hsource : Source.Walks data stands)
    (hview : ∀ s p, stands s p → view s = ⟨data, p⟩)
    (hskip : ∀ {b : Bare}, b.Sound → ∀ count,
      let passed := min count (b.data.length - b.position)
      skip count b = .ok passed (b.ahead passed))
    (hlen : data.length < UInt64.size) (client : Client Source.Call Source.Reply Bare α) {s : σ}
    (hs : ∃ p, stands s p) :
    let answer := (client.through view).run Source.step s
    client.runChecked (perform skip) (view s) = .ok answer.outcome (view answer.state) ∧
      (view answer.state).Sound := by
  intro answer
  refine ⟨Client.runChecked_eq (fun s => ∃ p, stands s p)
    (fun call s ⟨_, h⟩ => hsource.step h call)
    (fun call s h => perform_eq hsource hview hskip hlen call h) client hs, ?_⟩
  obtain ⟨p, hs⟩ := hs
  obtain ⟨q, hlast⟩ := hsource.run hs (client.through view)
  rw [hview _ _ hlast]
  exact ⟨hsource.le hlast, hlen⟩

end Bare

/-- A cursor as a bare position. -/
def Cursor.bare (c : Cursor) : Bare := ⟨c.data, c.position⟩

variable {τ α : Type}

/-- The cursor in received bytes as a bare position. -/
def Incoming.bare (source : Incoming τ) : Bare := ⟨source.connection.received, source.cursor⟩

theorem Cursor.runChecked_eq (client : Client Source.Call Source.Reply Bare α) (c : Cursor)
    (hlen : c.data.length < UInt64.size) :
    let answer := (client.through bare).run Source.step c
    client.runChecked (Bare.perform Bare.skip) c.bare = .ok answer.outcome answer.state.bare ∧
      answer.state.bare.Sound :=
  Bare.runChecked_eq (Cursor.walks c.data) (fun _ _ ⟨hdata, hposition⟩ => by
    rw [bare, hdata, hposition]) Bare.skip_eq hlen client ⟨c.position, rfl, rfl⟩

theorem Incoming.runChecked_eq (client : Client Source.Call Source.Reply Bare α)
    (source : Incoming τ) (hlen : source.connection.received.length < UInt64.size) :
    let answer := (client.through bare).run Source.step source
    client.runChecked (Bare.perform Bare.skipRemaining) source.bare =
        .ok answer.outcome answer.state.bare ∧
      answer.state.bare.Sound :=
  Bare.runChecked_eq (Incoming.walks source.connection) (fun _ _ ⟨hconnection, hcursor⟩ => by
    rw [bare, hconnection, hcursor]) Bare.skipRemaining_eq hlen client ⟨source.cursor, rfl, rfl⟩

/-! ## Sessions -/

namespace Connection

/-- A session on the received bytes, which in the end may release what it has read. -/
def readChecked (client : Client Source.Call Source.Reply Bare Bool) :
    Checked (Connection τ) Nat := fun c =>
  match client.runChecked (Bare.perform Bare.skipRemaining) ⟨c.received, 0⟩ with
  | .ok true b =>
    match b.release with
    | .ok count rest =>
      .ok count { c with received := rest.data, traffic := c.traffic.consumed count }
    | .error e _ => .error e c
  | .ok false _ => .ok 0 c
  | .error e _ => .error e c

/-- Whatever has arrived and was released before, no session breaks. -/
theorem readChecked_eq [Transport τ] (client : Client Source.Call Source.Reply Bare Bool)
    (c : Connection τ) (hlen : c.received.length < UInt64.size) :
    let answer := deal (.read (client.through Incoming.bare)) c
    ∃ count, answer.outcome = .ok count ∧ readChecked client c = .ok count answer.state := by
  intro answer
  obtain ⟨hrun, hsound⟩ := c.incoming.runChecked_eq client hlen
  have hstart : c.incoming.bare = ⟨c.received, 0⟩ := rfl
  cases hreleased : ((client.through Incoming.bare).run Source.step c.incoming).outcome with
  | false =>
    rw [hreleased, hstart] at hrun
    refine ⟨0, ?_, ?_⟩
    · simp only [answer, deal_read_of_not_released hreleased]
    · simp only [readChecked, hrun, answer, deal_read_of_not_released hreleased]
  | true =>
    rw [hreleased, hstart] at hrun
    have hconnection := Incoming.connection_run (client.through Incoming.bare) c
    simp only [answer, deal, hreleased, if_true, readChecked, hrun, Bare.release_eq hsound]
    simp only [Incoming.bare, Incoming.consume, hconnection]
    exact ⟨_, rfl, rfl⟩

end Connection

end Octet
