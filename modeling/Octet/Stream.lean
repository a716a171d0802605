import Octet.Action
import Octet.Bytes

/-!
# Streams

A growable file in memory with one cursor for reading and writing. Like a device, it may move
fewer bytes than asked, be interrupted or fail, by a schedule fixed when it is made.

## Main definitions

* `Faults`: the schedule. Transfers (reads and writes), seeks and flushes are counted apart, from
  zero.
* `Faults.attempts`: how often it takes to try until some transfers were not interrupted.
* `Stream`: the contents, the cursor and the calls made so far.
* `Stream.get`, `Stream.put`: one low-level transfer. A transfer that does not succeed moves
  nothing.
* `Stream.fillGap`: what a write does first where the cursor lies past the end.
* `Stream.seek`, `Stream.flush`.
-/

namespace Octet

/-- How a stream answers one transfer. -/
inductive Turn
  /-- At most `limit` bytes move. -/
  | upTo (limit : Option Nat)
  /-- Nothing moves; the caller may try again. -/
  | interrupted
  | fails (reason : String)
  deriving DecidableEq, Repr

/-- How a stream answers the calls made on it. -/
structure Faults where
  /-- The answer to each transfer. -/
  transfer : Nat → Turn := fun _ => .upTo none
  /-- From each transfer on, one that is not interrupted: whoever tries again gets an answer. -/
  settled : Nat → Nat := id
  le_settled : ∀ n, n ≤ settled n := by exact Nat.le_refl
  transfer_settled : ∀ n, transfer (settled n) ≠ .interrupted := by exact fun _ => nofun
  /-- The reason for which each seek fails, if it does. -/
  seek : Nat → Option String := fun _ => none
  /-- The offset that no write reaches. -/
  room : Option Nat := none
  /-- Whether seeking relative to the end is impossible. -/
  endless : Bool := false
  /-- The reason for which each flush fails, if it does. -/
  flush : Nat → Option String := fun _ => none

namespace Faults

/-- A number past every number of a list. -/
def beyond (ns : List Nat) : Nat := ns.foldr (fun n bound => max (n + 1) bound) 0

theorem lt_beyond {ns : List Nat} {n : Nat} (h : n ∈ ns) : n < beyond ns := by
  induction ns with
  | nil => cases h
  | cons m rest ih =>
    simp only [beyond, List.foldr_cons] at *
    rcases List.mem_cons.mp h with rfl | h
    · omega
    · have := ih h
      omega

/-- The transfers in `interrupts` are interrupted, of the others those in `failures` fail, and
the rest move at most `limit` bytes. -/
def scheduled (interrupts failures : List Nat) (reason : String) (limit : Option Nat) :
    Faults where
  transfer n :=
    if n ∈ interrupts then .interrupted
    else if n ∈ failures then .fails reason
    else .upTo limit
  settled n := max n (beyond interrupts)
  le_settled n := Nat.le_max_left ..
  transfer_settled n := by
    have : max n (beyond interrupts) ∉ interrupts := fun hn => absurd (lt_beyond hn) (by omega)
    simp only [this, if_false]
    split <;> simp

/-! ### Trying again -/

variable {faults : Faults} {n count : Nat}

/-- The number of interruptions in a row from a transfer on, among the next `bound`. -/
def streakWithin (faults : Faults) : Nat → Nat → Nat
  | _, 0 => 0
  | n, bound + 1 =>
    if faults.transfer n = .interrupted then faults.streakWithin (n + 1) bound + 1 else 0

/-- The number of interruptions in a row from a transfer on. -/
def streak (faults : Faults) (n : Nat) : Nat := faults.streakWithin n (faults.settled n - n)

/-- The number of transfers, from one on, among which `count` are not interrupted. -/
def attempts (faults : Faults) : Nat → Nat → Nat
  | _, 0 => 0
  | n, count + 1 => faults.streak n + 1 + faults.attempts (n + faults.streak n + 1) count

/-- The bound does not matter if a transfer at it is not interrupted. -/
theorem streakWithin_eq {bound bound' : Nat} (h : faults.transfer (n + bound) ≠ .interrupted)
    (h' : faults.transfer (n + bound') ≠ .interrupted) :
    faults.streakWithin n bound = faults.streakWithin n bound' := by
  induction bound generalizing n bound' with
  | zero =>
    cases bound' with
    | zero => rfl
    | succ bound' => simp [streakWithin, show faults.transfer n ≠ .interrupted from h]
  | succ bound ih =>
    cases bound' with
    | zero => simp [streakWithin, show faults.transfer n ≠ .interrupted from h']
    | succ bound' =>
      have hrest : faults.streakWithin (n + 1) bound = faults.streakWithin (n + 1) bound' := by
        apply ih
        · rwa [Nat.add_assoc, Nat.add_comm 1]
        · rwa [Nat.add_assoc, Nat.add_comm 1]
      rw [streakWithin, streakWithin, hrest]

theorem streak_of_interrupted (h : faults.transfer n = .interrupted) :
    faults.streak n = faults.streak (n + 1) + 1 := by
  have hle := faults.le_settled (n + 1)
  have hsettled := faults.transfer_settled (n + 1)
  have hwithin : faults.streak n = faults.streakWithin n (faults.settled (n + 1) - n) := by
    apply streakWithin_eq
    · rw [Nat.add_sub_cancel' (faults.le_settled n)]
      exact faults.transfer_settled n
    · rwa [Nat.add_sub_cancel' (by omega)]
  have hsucc : faults.settled (n + 1) - n = faults.settled (n + 1) - (n + 1) + 1 := by omega
  rw [hwithin, hsucc, streakWithin, if_pos h, streak]

theorem streak_of_not_interrupted (h : faults.transfer n ≠ .interrupted) :
    faults.streak n = 0 := by
  rw [streak]
  cases faults.settled n - n with
  | zero => rfl
  | succ bound => rw [streakWithin, if_neg h]

theorem attempts_of_interrupted (h : faults.transfer n = .interrupted) (hcount : 0 < count) :
    faults.attempts n count = faults.attempts (n + 1) count + 1 := by
  obtain ⟨count, rfl⟩ := Nat.exists_eq_add_one.mpr hcount
  have hnext : n + (faults.streak (n + 1) + 1) + 1 = n + 1 + faults.streak (n + 1) + 1 := by omega
  rw [attempts, attempts, streak_of_interrupted h, hnext]
  omega

theorem attempts_le (faults : Faults) (n : Nat) {count count' : Nat} (h : count ≤ count') :
    faults.attempts n count ≤ faults.attempts n count' := by
  induction count generalizing n count' with
  | zero => exact Nat.zero_le _
  | succ count ih =>
    obtain ⟨count', rfl⟩ := Nat.exists_eq_add_one.mpr (Nat.lt_of_lt_of_le (Nat.succ_pos _) h)
    have := ih (n + faults.streak n + 1) (Nat.le_of_succ_le_succ h)
    rw [attempts, attempts]
    omega

theorem attempts_lt_of_not_interrupted (h : faults.transfer n ≠ .interrupted) {count' : Nat}
    (hcount : count < count') : faults.attempts (n + 1) count < faults.attempts n count' := by
  obtain ⟨count', rfl⟩ := Nat.exists_eq_add_one.mpr (Nat.lt_of_le_of_lt (Nat.zero_le _) hcount)
  have := faults.attempts_le (n + 1) (Nat.le_of_lt_succ hcount)
  rw [attempts, streak_of_not_interrupted h, Nat.add_zero]
  omega

end Faults

/-- A place to seek. -/
inductive Place
  | start (offset : Nat)
  /-- Relative to the cursor. -/
  | here (offset : Int)
  /-- Relative to the end. -/
  | stop (offset : Int)
  deriving DecidableEq, Repr

/-- A stream. The cursor may lie past the end of the contents. -/
structure Stream where
  content : Bytes
  cursor : Nat := 0
  /-- Transfers attempted so far. -/
  transfers : Nat := 0
  /-- Seeks attempted so far. -/
  seeks : Nat := 0
  /-- Flushes attempted so far. -/
  flushes : Nat := 0
  /-- Whether writing no bytes at all fills the gap before the cursor, too. -/
  eager : Bool := false
  faults : Faults := {}

/-- How one transfer ended. -/
inductive Transfer (α : Type)
  | done (result : α)
  | interrupted
  | failed (fault : StreamFault)

namespace Stream

/-- A number cut to a limit, where there is one. -/
def cut (limit : Option Nat) (n : Nat) : Nat :=
  match limit with
  | none => n
  | some limit => min limit n

theorem cut_le (limit : Option Nat) (n : Nat) : cut limit n ≤ n := by
  cases limit with
  | none => exact Nat.le_refl n
  | some limit => exact Nat.min_le_right limit n

/-- One low-level read of at most `want` bytes. It gives none at or past the end. -/
def get (want : Nat) (s : Stream) : Transfer Bytes × Stream :=
  let next := { s with transfers := s.transfers + 1 }
  match s.faults.transfer s.transfers with
  | .interrupted => (.interrupted, next)
  | .fails reason => (.failed (.device reason), next)
  | .upTo limit =>
    let bytes := (s.content.drop s.cursor).take (cut limit want)
    (.done bytes, { next with cursor := s.cursor + bytes.length })

/-- One low-level write, which gives the count of bytes accepted. Zeros fill the gap before a
cursor that lies past the end, even if no byte is accepted. -/
def put (data : Bytes) (s : Stream) : Transfer Nat × Stream :=
  let next := { s with transfers := s.transfers + 1 }
  match s.faults.transfer s.transfers with
  | .interrupted => (.interrupted, next)
  | .fails reason => (.failed (.device reason), next)
  | .upTo limit =>
    let accepted := data.take (cut (s.faults.room.map (· - s.cursor)) (cut limit data.length))
    (.done accepted.length, { next with
      content := s.content.overlay s.cursor accepted
      cursor := s.cursor + accepted.length })

/-- Fills the gap between the end of the contents and the cursor with zeros. -/
def fillGap (s : Stream) : Stream := { s with content := s.content.overlay s.cursor [] }

/-- Moves the cursor and gives its new offset. Offsets have 64 bits. -/
def seek (place : Place) : Action Stream Nat := fun s =>
  let next := { s with seeks := s.seeks + 1 }
  match s.faults.seek s.seeks with
  | some reason => .error (.stream (.device reason)) next
  | none =>
    let target : Option Int :=
      match place with
      | .start offset => some offset
      | .here offset => some (s.cursor + offset)
      | .stop offset => if s.faults.endless then none else some (s.content.length + offset)
    match target with
    | none => .error (.stream .endless) next
    | some target =>
      if 0 ≤ target ∧ target < UInt64.size then
        .ok target.toNat { next with cursor := target.toNat }
      else
        .error (.stream .unreachable) next

def flush : Action Stream Unit := fun s =>
  let next := { s with flushes := s.flushes + 1 }
  match s.faults.flush s.flushes with
  | some reason => .error (.stream (.device reason)) next
  | none => .ok () next

end Stream

end Octet
