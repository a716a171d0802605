import Octet.Proofs.Writer.Exchange
import Octet.Proofs.Writer.Script

/-!
# Clients that stay behind a front

A client that builds with handles of its own corrects nothing that was there before it: every handle
it is given lies behind that. Nor does it notice what was there, only how much. So all of its calls
are answered the same way, and what it builds is the same, behind any front of the same length.

## Main definitions

* `Building.Obtained`: every handle that is used was given out before.
* `Building.Behind`: a function of bytes that keeps to what lies behind a front.

## Main statements

* `Building.make_behind`: a call whose handle lies behind a front keeps to what lies there.
* `Building.run_behind`: so does a client with handles of its own.
-/

namespace Octet

namespace Building

open Script (Handle)

/-! ## Handles -/

/-- The handle that a call uses. -/
def Call.handle? : Call → Option Handle
  | .slot (t := t) (n := n) slots _ => some ⟨t, some n, slots.offset⟩
  | .commit (t := t) target _ => some ⟨t, none, target.offset⟩
  | .commitArray (t := t) (n := n) slots _ => some ⟨t, some n, slots.offset⟩
  | _ => none

/-- The handle that a reply gives out. -/
def Reply.handle? : Reply → Option Handle
  | .slot t (some place) => some ⟨t, none, place.offset⟩
  | .slots t n places => some ⟨t, some n, places.offset⟩
  | _ => none

/-- Every handle that a call on record uses is one of those in hand, or was given out by a call
before it. -/
def Obtained : List Handle → List (Call × View) → Prop
  | _, [] => True
  | held, (call, view) :: rest =>
    (∀ handle ∈ call.handle?, handle ∈ held) ∧
      Obtained (held ++ view.reply.handle?.toList) rest

variable {α ρ : Type} {start : Nat} {t : Scalar}

/-- What a call gives out lies at the end of the bytes, or in the array that it uses. -/
theorem le_place_of_make {call : Call} {content : Bytes} (hlen : start ≤ content.length)
    (hcall : ∀ handle ∈ call.handle?, start ≤ handle.place) :
    ∀ handle ∈ (make call content).1.handle?, start ≤ handle.place := by
  intro handle hhandle
  cases call with
  | capture t | reserve t | reserveArray t n =>
    obtain rfl := Option.some.inj hhandle
    exact hlen
  | @slot t n slots index =>
    have hslots : start ≤ slots.offset := hcall _ rfl
    by_cases hindex : index < n
    · simp only [make, SlotArray.slot?, if_pos hindex] at hhandle
      obtain rfl := Option.some.inj hhandle
      grind
    · simp only [make, SlotArray.slot?, if_neg hindex] at hhandle
      cases hhandle
  | _ => cases hhandle

/-! ## What lies behind a front -/

/-- The function goes by the length of a front alone, and leaves the front as it is. -/
def Behind (start : Nat) (f : Bytes → ρ × Bytes) : Prop :=
  ∀ tail, ∃ result tail', ∀ front : Bytes, front.length = start →
    f (front ++ tail) = (result, front ++ tail')

theorem behind_append (result : Nat → ρ) (data : Bytes) :
    Behind start fun content => (result content.length, content ++ data) := by
  intro tail
  refine ⟨result (start + tail.length), tail ++ data, ?_⟩
  rintro front rfl
  simp only [List.length_append, List.append_assoc]

theorem patch_behind {offset : Nat} (hle : start ≤ offset) (data : Bytes) :
    Behind start (patch offset data) := by
  intro tail
  obtain ⟨place, rfl⟩ := Nat.exists_eq_add_of_le hle
  rcases Nat.lt_or_ge tail.length (place + data.length) with hlt | hinside
  · refine ⟨.error (.patchOutOfRange (start + place) data.length (start + tail.length)), tail, ?_⟩
    rintro front rfl
    rw [patch_of_lt (by grind), List.length_append]
  · refine ⟨.ok (), tail.overlay place data, ?_⟩
    rintro front rfl
    rw [patch_of_le (by grind), Bytes.append_overlay]

theorem patchFrom_behind {offset : Nat} (hle : start ≤ offset) (values : List t.Value) :
    Behind start (patchFrom t offset values) := by
  induction values generalizing offset with
  | nil => exact fun tail => ⟨.ok (), tail, fun _ _ => rfl⟩
  | cons value rest ih =>
    intro tail
    obtain ⟨outcome, tail', hpatch⟩ := patch_behind hle (t.encode value) tail
    cases outcome with
    | ok _ =>
      have hnext : start ≤ offset + t.width := Nat.le_trans hle (Nat.le_add_right ..)
      obtain ⟨result, last, hrest⟩ := ih hnext tail'
      refine ⟨result, last, fun front hfront => ?_⟩
      simp only [patchFrom, hpatch front hfront, hrest front hfront]
    | error e =>
      refine ⟨.error e, tail', fun front hfront => ?_⟩
      simp only [patchFrom, hpatch front hfront]

theorem make_behind {call : Call} (hcall : ∀ handle ∈ call.handle?, start ≤ handle.place) :
    Behind start (make call) := by
  cases call with
  | append data => exact behind_append (fun _ => Reply.written) data
  | write t value => exact behind_append (fun _ => Reply.written) (t.encode value)
  | writeList t values => exact behind_append (fun _ => Reply.written) (t.encodeList values)
  | capture t =>
    intro tail
    refine ⟨.slot t (some ⟨start + tail.length⟩), tail, ?_⟩
    rintro front rfl
    rw [← List.length_append]
    rfl
  | reserve t => exact behind_append (fun n => Reply.slot t (some ⟨n⟩)) (t.encode t.zero)
  | reserveArray t n =>
    exact behind_append (fun offset => Reply.slots t n ⟨offset⟩)
      (t.encodeList (List.replicate n t.zero))
  | slot slots index => exact fun tail => ⟨_, tail, fun _ _ => rfl⟩
  | commit slot value =>
    intro tail
    obtain ⟨outcome, tail', hpatch⟩ := patch_behind (hcall _ rfl) (Scalar.encode _ value) tail
    refine ⟨.corrected outcome, tail', fun front hfront => ?_⟩
    simp only [make, hpatch front hfront]
  | commitArray slots values =>
    intro tail
    obtain ⟨outcome, tail', hpatch⟩ := patchFrom_behind (hcall _ rfl) values.toList tail
    refine ⟨.corrected outcome, tail', fun front hfront => ?_⟩
    simp only [make, hpatch front hfront]

/-! ## Clients -/

/-- A client with handles of its own builds the same bytes behind any front of the same length, and
cannot tell one from another. -/
theorem run_behind (client : Client Call View Unit α) {held : List Handle} {tail : Bytes}
    (hheld : ∀ handle ∈ held, start ≤ handle.place) {before : Bytes}
    (hbefore : before.length = start)
    (hobtained : Obtained held (client.blind.run build (before ++ tail)).events) :
    ∃ alone : Answer α (Call × View) Bytes, ∀ front : Bytes, front.length = start →
      client.blind.run build (front ++ tail) = alone.mapState (front ++ ·) := by
  induction client generalizing held tail with
  | done result => exact ⟨⟨result, [], tail⟩, fun _ _ => rfl⟩
  | call call next ih =>
    have hevents : ((Client.call call next).blind.run build (before ++ tail)).events =
        (call, (build call (before ++ tail)).outcome) ::
          ((next (build call (before ++ tail)).outcome ()).blind.run build
            (build call (before ++ tail)).state).events := rfl
    rw [hevents] at hobtained
    obtain ⟨hcall, hrest⟩ := hobtained
    have hplace : ∀ handle ∈ call.handle?, start ≤ handle.place :=
      fun handle hhandle => hheld handle (hcall handle hhandle)
    obtain ⟨reply, tail', hmake⟩ := make_behind hplace tail
    -- Behind every front the call is seen to do the same, so that the client goes on as one and the
    -- same. What it was given lies behind the front, too.
    have hbuild (front : Bytes) (hfront : front.length = start) : build call (front ++ tail) =
        ⟨⟨reply, true, start + tail'.length⟩, [(call, ⟨reply, true, start + tail'.length⟩)],
          front ++ tail'⟩ := by
      simp only [build, hmake front hfront, List.length_append, hfront]
    have hgiven : ∀ handle ∈ held ++ reply.handle?.toList, start ≤ handle.place := by
      have hlen : start ≤ (before ++ tail).length := by grind
      have hmade := le_place_of_make hlen hplace
      rw [hmake before hbefore] at hmade
      intro handle hhandle
      rcases List.mem_append.mp hhandle with hhandle | hhandle
      · exact hheld handle hhandle
      · exact hmade handle (Option.mem_toList.mp hhandle)
    rw [hbuild before hbefore] at hrest
    obtain ⟨alone, halone⟩ := ih _ () hgiven hrest
    refine ⟨⟨alone.outcome, (call, ⟨reply, true, start + tail'.length⟩) :: alone.events,
      alone.state⟩, fun front hfront => ?_⟩
    simp only [Client.blind, Client.run, hbuild front hfront, halone front hfront]
    rfl

end Building

end Octet
