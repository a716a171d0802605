import Octet.Proofs.Action
import Octet.Proofs.Bytes
import Octet.Sink.Stream

/-!
# Calls on streams

What one call leaves of the contents, the cursor and the schedule of a stream, whether it succeeds
or not, and what writing in full makes of them.

## Main definitions

* `Faults.Harmless`: transfers may be cut short and interrupted, and nothing else goes wrong.
* `Faults.Productive`: whatever goes wrong, a transfer that succeeds moves something.
* `Stream.Stored`, `Stream.Wrote`: data was laid over the contents at the cursor.

## Main statements

* `Stream.writeAll_stores`: writing in full stores the data; where it is refused, a first part.
* `Stream.seek_ends`: a seek moves the cursor or leaves the stream alone.
-/

namespace Octet

/-- A schedule that cuts transfers short and interrupts them but refuses nothing. -/
structure Faults.Harmless (faults : Faults) : Prop where
  transfer : ∀ n, faults.transfer n = .interrupted ∨
    ∃ limit, faults.transfer n = .upTo limit ∧ limit ≠ some 0
  seek : ∀ n, faults.seek n = none
  room : faults.room = none
  endless : faults.endless = false
  flush : ∀ n, faults.flush n = none

theorem Faults.harmless_default : Faults.Harmless {} where
  transfer _ := .inr ⟨none, rfl, by simp⟩
  seek _ := rfl
  room := rfl
  endless := rfl
  flush _ := rfl

/-- Interruptions and short transfers alone do no harm, as long as something moves. -/
theorem Faults.harmless_scheduled (interrupts : List Nat) (reason : String) {limit : Option Nat}
    (hlimit : limit ≠ some 0) : (scheduled interrupts [] reason limit).Harmless where
  transfer n := by
    by_cases hn : n ∈ interrupts
    · exact .inl (if_pos hn)
    · exact .inr ⟨limit, by simp [scheduled, hn], hlimit⟩
  seek _ := rfl
  room := rfl
  endless := rfl
  flush _ := rfl

/-- A transfer that succeeds moves at least one byte, if there is one to move. -/
def Faults.Productive (faults : Faults) : Prop := ∀ n, faults.transfer n ≠ .upTo (some 0)

theorem Faults.Harmless.productive {faults : Faults} (h : faults.Harmless) :
    faults.Productive := by
  intro n hturn
  rcases h.transfer n with h | ⟨limit, h, hlimit⟩
  · simp [h] at hturn
  · rw [h] at hturn
    exact hlimit (Turn.upTo.inj hturn)

namespace Stream

/-- `t` is `s` after `data` was stored at the cursor. A gap before a cursor past the end is only
sure to be filled if there is a byte to store. -/
def Stored (s : Stream) (data : Bytes) (t : Stream) : Prop :=
  (t.content = s.content.overlay s.cursor data ∨ data = [] ∧ t.content = s.content) ∧
    t.cursor = s.cursor + data.length ∧ t.faults = s.faults

/-- `t` is `s` after `data` was written, and the gap before the cursor is filled. -/
def Wrote (s : Stream) (data : Bytes) (t : Stream) : Prop :=
  t.content = s.content.overlay s.cursor data ∧ t.cursor = s.cursor + data.length ∧
    t.faults = s.faults

variable {s t u : Stream} {data more : Bytes}

theorem Wrote.stored (h : s.Wrote data t) : s.Stored data t := ⟨.inl h.1, h.2⟩

theorem Stored.wrote (hs : s.cursor ≤ s.content.length) (h : s.Stored data t) :
    s.Wrote data t := by
  obtain ⟨hcontent | ⟨rfl, hcontent⟩, hrest⟩ := h
  · exact ⟨hcontent, hrest⟩
  · exact ⟨by rw [hcontent, Bytes.overlay_nil hs], hrest⟩

theorem Stored.cursor_le (hs : s.cursor ≤ s.content.length) (h : s.Stored data t) :
    t.cursor ≤ t.content.length := by
  obtain ⟨hcontent, hcursor, -⟩ := h.wrote hs
  grind

theorem Stored.trans (h : s.Stored data t) (h' : t.Stored more u) :
    s.Stored (data ++ more) u := by
  obtain ⟨hcontent, hcursor, hfaults⟩ := h
  obtain ⟨hcontent', hcursor', hfaults'⟩ := h'
  refine ⟨?_, by rw [hcursor', hcursor, List.length_append, Nat.add_assoc],
    hfaults'.trans hfaults⟩
  rcases hcontent with hcontent | ⟨rfl, hcontent⟩
  · left
    rcases hcontent' with hcontent' | ⟨rfl, hcontent'⟩
    · simp [hcontent', hcursor, hcontent]
    · rw [hcontent', hcontent, List.append_nil]
  · rw [List.length_nil, Nat.add_zero] at hcursor
    rwa [hcontent, hcursor] at hcontent'

/-- The bytes stand where the cursor was. -/
theorem Stored.take_drop (h : s.Stored data t) :
    (t.content.drop s.cursor).take data.length = data := by
  obtain ⟨hcontent | ⟨rfl, -⟩, -⟩ := h
  · simp [hcontent]
  · rfl

/-! ## One transfer -/

theorem cut_pos {limit : Option Nat} {n : Nat} (hlimit : limit ≠ some 0) (hn : 0 < n) :
    0 < cut limit n := by
  cases limit with
  | none => exact hn
  | some limit =>
    have : limit ≠ 0 := fun h => hlimit (congrArg some h)
    simp only [cut]
    omega

theorem put_done {count : Nat} (h : s.put data = (.done count, t)) :
    count ≤ data.length ∧ s.Wrote (data.take count) t := by
  have hfaults := put_faults h
  simp only [put] at h
  split at h <;> cases h
  refine ⟨List.length_take_le' .., ?_, ?_, hfaults⟩ <;> simp [← List.take_eq_take_min]

theorem put_refused {answer : Transfer Nat} (h : s.put data = (answer, t))
    (hanswer : ∀ count, answer ≠ .done count) : s.Stored [] t := by
  have hfaults := put_faults h
  simp only [put] at h
  split at h <;> cases h
  · exact ⟨.inr ⟨rfl, rfl⟩, rfl, hfaults⟩
  · exact ⟨.inr ⟨rfl, rfl⟩, rfl, hfaults⟩
  · exact absurd rfl (hanswer _)

theorem put_of_harmless (hf : s.faults.Harmless) (hdata : data ≠ []) :
    (∃ t, s.put data = (.interrupted, t)) ∨ ∃ count t, s.put data = (.done (count + 1), t) := by
  have hpos := List.length_pos_iff.mpr hdata
  simp only [put]
  rcases hf.transfer s.transfers with hturn | ⟨limit, hturn, hlimit⟩
  · simp [hturn]
  · have hcut := cut_pos hlimit hpos
    have hcount : (data.take (cut limit data.length)).length =
        (min (cut limit data.length) data.length - 1) + 1 := by
      grind
    simp only [hturn, hf.room, Option.map_none]
    exact .inr ⟨_, _, by rw [cut, hcount]⟩

/-! ## Writing in full -/

/-- A write that is refused has stored some of the first bytes, and not all of them. -/
theorem writeAll_stores (data : Bytes) (s : Stream) :
    Action.Ends (writeAll data) s (fun _ t => s.Stored data t)
      (fun e t => (∃ fault, e = .stream fault) ∧
        (∃ k < data.length, s.Stored (data.take k) t) ∧ ¬ s.faults.Harmless) := by
  unfold Action.Ends
  fun_induction writeAll data s with
  | case1 s =>
    cases h : s.eager with
    | true => exact ⟨.inl rfl, rfl, rfl⟩
    | false => exact ⟨.inr ⟨rfl, rfl⟩, rfl, rfl⟩
  | case2 data s hdata next hput =>
    refine ⟨⟨_, rfl⟩, ⟨0, List.length_pos_iff.mpr hdata, (put_done hput).2.stored⟩, fun hf => ?_⟩
    rcases put_of_harmless hf hdata with ⟨_, h⟩ | ⟨_, _, h⟩ <;> simp [h] at hput
  | case3 data s hdata count next hput ih =>
    obtain ⟨hle, hwrote⟩ := put_done hput
    split at ih
    · simpa using hwrote.stored.trans ih
    · obtain ⟨he, ⟨k, hk, hrest⟩, hf⟩ := ih
      rw [List.length_drop] at hk
      refine ⟨he, ⟨count + 1 + k, by omega, ?_⟩, hwrote.2.2 ▸ hf⟩
      have hsplit : data.take (count + 1 + k) =
          data.take (count + 1) ++ (data.drop (count + 1)).take k := List.take_add
      exact hsplit ▸ hwrote.stored.trans hrest
  | case4 data s hdata next hput ih =>
    have hstored := put_refused hput (by simp)
    split at ih
    · exact hstored.trans ih
    · obtain ⟨he, ⟨k, hk, hrest⟩, hf⟩ := ih
      exact ⟨he, ⟨k, hk, hstored.trans hrest⟩, hstored.2.2 ▸ hf⟩
  | case5 data s hdata fault next hput =>
    refine ⟨⟨_, rfl⟩, ⟨0, List.length_pos_iff.mpr hdata, put_refused hput (by simp)⟩, fun hf => ?_⟩
    rcases put_of_harmless hf hdata with ⟨_, h⟩ | ⟨_, _, h⟩ <;> simp [h] at hput

/-- The cursor must not lie past the end: a write that fails at once leaves the gap as it is, and
one that accepts nothing does not. -/
theorem writeAll_ends (data : Bytes) (s : Stream) (hs : s.cursor ≤ s.content.length) :
    Action.Ends (writeAll data) s (fun _ t => s.Wrote data t)
      (fun _ t => (∃ k, s.Wrote (data.take k) t) ∧ ¬ s.faults.Harmless) := by
  apply (writeAll_stores data s).mono
  · intro _ t h
    exact h.wrote hs
  · rintro _ t ⟨-, ⟨k, -, h⟩, hf⟩
    exact ⟨⟨k, h.wrote hs⟩, hf⟩

/-! ## Seeking and flushing -/

/-- `t` is `s` with the cursor at `offset` and some counts of calls changed. -/
def Moved (s : Stream) (offset : Nat) (t : Stream) : Prop :=
  t.content = s.content ∧ t.cursor = offset ∧ t.faults = s.faults

/-- `t` is `s` after `data` was stored at `offset`, with the cursor anywhere. -/
def Patched (s : Stream) (offset : Nat) (data : Bytes) (t : Stream) : Prop :=
  (t.content = s.content.overlay offset data ∨ data = [] ∧ t.content = s.content) ∧
    t.faults = s.faults

theorem Stored.patched {there written : Stream} {offset n : Nat} (hthere : s.Moved offset there)
    (h : there.Stored data written) (hback : written.Moved n t) : s.Patched offset data t := by
  obtain ⟨hcontent, hcursor, hfaults⟩ := hthere
  rw [Patched, hback.1, ← hcontent, ← hcursor]
  exact ⟨h.1, hback.2.2.trans (h.2.2.trans hfaults)⟩

theorem Moved.patched {offset n : Nat} (h : s.Moved n t) : s.Patched offset [] t :=
  ⟨.inr ⟨rfl, h.1⟩, h.2.2⟩

/-- Inside the contents there is no gap to fill. -/
theorem Patched.content_eq {offset : Nat} (hle : offset ≤ s.content.length)
    (h : s.Patched offset data t) : t.content = s.content.overlay offset data := by
  rcases h.1 with hcontent | ⟨rfl, hcontent⟩
  · exact hcontent
  · rw [hcontent, Bytes.overlay_nil hle]

/-- The place lies at `offset`. -/
def Leads (s : Stream) (offset : Nat) : Place → Prop
  | .start n => n = offset
  | .here n => s.cursor + n = (offset : Int)
  | .stop n => s.content.length + n = (offset : Int)

theorem leads_start (s : Stream) (offset : Nat) : s.Leads offset (.start offset) := rfl

theorem leads_here (s : Stream) : s.Leads s.cursor (.here 0) := by simp [Leads]

theorem seek_eq {place : Place} {offset : Nat} (hplace : s.Leads offset place)
    (hseek : s.faults.seek s.seeks = none)
    (hend : s.faults.endless = false ∨ ∀ n, place ≠ .stop n) :
    seek place s = if offset < UInt64.size then
        .ok offset { s with seeks := s.seeks + 1, cursor := offset }
      else .error (.stream .unreachable) { s with seeks := s.seeks + 1 } := by
  have hrange : (0 ≤ (offset : Int) ∧ (offset : Int) < UInt64.size) ↔ offset < UInt64.size := by
    omega
  simp only [seek, hseek]
  cases place with
  | start n =>
    obtain rfl : n = offset := hplace
    simp only [hrange, Int.toNat_natCast]
  | here n =>
    have htarget : (s.cursor : Int) + n = offset := hplace
    simp only [htarget, hrange, Int.toNat_natCast]
  | stop n =>
    have htarget : (s.content.length : Int) + n = offset := hplace
    have hend : s.faults.endless = false := hend.resolve_right (fun h => h n rfl)
    simp only [hend, Bool.false_eq_true, if_false, htarget, hrange, Int.toNat_natCast]

theorem exists_fault_of_seek {place : Place} {e : Error} (h : seek place s = .error e t) :
    ∃ fault, e = .stream fault := by
  simp only [seek] at h
  repeat' split at h
  all_goals cases h <;> exact ⟨_, rfl⟩

/-- A seek that is refused leaves the cursor where it was. -/
theorem seek_ends {place : Place} {offset : Nat} (hplace : s.Leads offset place) :
    (seek place).Ends s (fun found t => found = offset ∧ s.Moved offset t)
      (fun _ t => s.Moved s.cursor t ∧ (s.faults.Harmless → UInt64.size ≤ offset)) := by
  have hmoved (n : Nat) : s.Moved n { s with seeks := s.seeks + 1, cursor := n } :=
    ⟨rfl, rfl, rfl⟩
  cases hseek : s.faults.seek s.seeks with
  | some reason =>
    have heq : seek place s =
        .error (.stream (.device reason)) { s with seeks := s.seeks + 1 } := by
      simp only [seek, hseek]
    refine Action.ends_of_error heq ⟨hmoved s.cursor, fun hf => ?_⟩
    simp [hf.seek] at hseek
  | none =>
    by_cases hend : s.faults.endless = false ∨ ∀ n, place ≠ .stop n
    · have heq := seek_eq hplace hseek hend
      by_cases hlt : offset < UInt64.size
      · rw [if_pos hlt] at heq
        exact Action.ends_of_ok heq ⟨rfl, hmoved offset⟩
      · rw [if_neg hlt] at heq
        exact Action.ends_of_error heq ⟨hmoved s.cursor, fun _ => Nat.not_lt.mp hlt⟩
    · have hendless : s.faults.endless = true :=
        (Bool.not_eq_false _).mp fun h => hend (.inl h)
      cases place with
      | stop n =>
        have heq : seek (.stop n) s =
            .error (.stream .endless) { s with seeks := s.seeks + 1 } := by
          simp only [seek, hseek, hendless, if_true]
        refine Action.ends_of_error heq ⟨hmoved s.cursor, fun hf => ?_⟩
        simp [hf.endless] at hendless
      | _ => exact (hend (.inr (by simp))).elim

theorem lt_of_seek_eq_ok {place : Place} {found : Nat} (h : seek place s = .ok found t) :
    found < UInt64.size := by
  simp only [seek] at h
  repeat' split at h
  all_goals cases h
  omega

theorem endless_of_seek_eq_ok {offset : Int} {found : Nat}
    (h : seek (.stop offset) s = .ok found t) : s.faults.endless = false := by
  cases hend : s.faults.endless with
  | false => rfl
  | true =>
    simp only [seek, hend, if_true] at h
    split at h <;> cases h

/-- A seek is refused by the schedule, for want of an end, or because no offset says the place. -/
theorem seek_eq_error {place : Place} {offset : Nat} {e : Error} (hplace : s.Leads offset place)
    (h : seek place s = .error e t) :
    s.faults.seek s.seeks ≠ none ∨ (s.faults.endless = true ∧ ∃ n, place = .stop n) ∨
      UInt64.size ≤ offset := by
  by_cases hseek : s.faults.seek s.seeks = none
  · by_cases hend : s.faults.endless = false ∨ ∀ n, place ≠ .stop n
    · rw [seek_eq hplace hseek hend] at h
      split at h
      · cases h
      next hlt => exact .inr (.inr (Nat.not_lt.mp hlt))
    · rw [not_or, Bool.not_eq_false, Classical.not_forall_not] at hend
      exact .inr (.inl hend)
  · exact .inl hseek

/-- A harmless stream tells where its cursor is. -/
theorem exists_seek_here_eq (hf : s.faults.Harmless) (hlt : s.cursor < UInt64.size) :
    ∃ t, seek (.here 0) s = .ok s.cursor t ∧ s.Moved s.cursor t := by
  have hfail : ¬ (s.faults.Harmless → UInt64.size ≤ s.cursor) := fun h =>
    absurd (h hf) (Nat.not_le.mpr hlt)
  obtain ⟨_, t, heq, rfl, hmoved⟩ :=
    (seek_ends s.leads_here).exists_ok fun _ _ h => hfail h.2
  exact ⟨t, heq, hmoved⟩

theorem flush_ends :
    flush.Ends s (fun _ t => s.Moved s.cursor t)
      (fun _ t => s.Moved s.cursor t ∧ ¬ s.faults.Harmless) := by
  simp only [Action.Ends, flush]
  cases hflush : s.faults.flush s.flushes with
  | some reason =>
    refine ⟨⟨rfl, rfl, rfl⟩, fun hf => ?_⟩
    simp [hf.flush] at hflush
  | none => exact ⟨rfl, rfl, rfl⟩

end Stream

end Octet
