import Octet.Proofs.Source.Access
import Octet.Proofs.Texture.Atomicity

/-!
# Loading from a failed reader

Once a chain of reads has failed, everything that a codec asks of the reader is refused and leaves
its outputs alone. All of it leaves the reader alone as well, but for the levels: where a slot is in
use the source is asked for its size and is sought, whether the chain has failed or not.

## Main definitions

* `Call`, `Reply`: what a codec asks of a reader, and what it gets.
* `Call.refused`: what it gets if its outputs are left alone.
* `Call.extent?`: the slot in use that it asks for.
* `Extent.sought`: what that does to the source.

## Main statements

* `perform_of_failed`: a call that asks for no slot in use leaves a failed reader as it is.
* `afterCalls_of_failed`: the slots in use are all that matters of a row of calls.
* `frozen_but_for_levels`: what becomes of a failed reader, whatever is called.
-/

namespace Octet.Texture

/-- A call of the chain, or of a codec that goes on with it. -/
inductive Call
  | chain (request : Reader.Request)
  | finish
  | loadPreamble (current : Preamble)
  | loadHeader (current : Header)
  | load
  | readLevel (header : Header) (level : Nat)

/-- What a call brings, with the record that it was to replace. -/
inductive Reply
  | brought (reply : Reader.Reply)
  | finished (outcome : Except Error Unit)
  | preamble (outcome : Except Error Unit) (record : Preamble)
  | header (outcome : Except Error Unit) (record : Header)
  | found (outcome : Except Error Header)
  | payload (outcome : Except Error Bytes)

namespace Call

/-- What a call brings that is refused, if there is a refusal, and leaves its output alone. -/
def refused (e : Error) : Call → Reply
  | .chain request => .brought request.untouched
  | .finish => .finished (.error e)
  | .loadPreamble current => .preamble (.error e) current
  | .loadHeader current => .header (.error e) current
  | .load => .found (.error e)
  | .readLevel _ _ => .payload (.error e)

/-- The slot in use whose level is asked for. -/
def extent? : Call → Option Extent
  | .readLevel header level => header.level? level
  | _ => none

/-- The reason for which a call is refused by a failed reader at a position. -/
def complaint (position : Nat) : Call → Error
  | .readLevel _ level => .header (.emptyLevel level)
  | _ => .readChain position

variable {σ : Type} [Source σ]

/-- Makes a call. -/
def perform : Call → Reader σ → Reply × Reader σ
  | .chain request, r =>
    let (reply, next) := request.perform r
    (.brought reply, next)
  | .finish, r =>
    let (outcome, next) := Reader.finish.outcome r
    (.finished outcome, next)
  | .loadPreamble current, r =>
    let (outcome, record, next) := Preamble.load.outcome (current, r)
    (.preamble outcome record, next)
  | .loadHeader current, r =>
    let (outcome, record, next) := Header.load.outcome (current, r)
    (.header outcome record, next)
  | .load, r =>
    let (outcome, next) := Texture.load.outcome r
    (.found outcome, next)
  | .readLevel header level, r =>
    let (outcome, next) := (Texture.readLevel header level).outcome r
    (.payload outcome, next)

end Call

/-- Where asking for a level in use leaves the source of a failed reader. The size is asked for, and
the place of the payload is sought unless the source is known to be too small. -/
def Extent.sought {σ : Type} [Source σ] (extent : Extent) (source : σ) : σ :=
  let (size, sized) := Source.size source
  if size.any (· < extent.stop) then sized
  else (Source.perform (.seek extent.offset.toNat) sized).2

variable {σ : Type} [Source σ] {r : Reader σ} {data : Bytes} {anywhere inside : σ → Nat → Prop}
  {p : Nat}

/-- The reader after one call after another. -/
def afterCalls (calls : List Call) (r : Reader σ) : Reader σ :=
  calls.foldl (fun r call => (call.perform r).2) r

/-! ## Calls that leave the reader alone -/

@[simp] theorem Preamble.read_of_failed (hr : r.failed = true) (current : Preamble) :
    Preamble.read current r = .error (.readChain r.position) r := by
  apply Reader.eq_error_of_failed hr
  apply (read_ends_of_row current r).mono
  · exact fun _ _ ⟨image, himage, _⟩ => ⟨_, image, himage⟩
  · rintro e next (hbreaks | ⟨word, hword, -⟩)
    · exact ⟨_, .inl hbreaks⟩
    · exact ⟨_, .inr ⟨word, hword⟩⟩

@[simp] theorem Header.read_of_failed (hr : r.failed = true) (current : Header) :
    Header.read current r = .error (.readChain r.position) r := by
  apply Reader.eq_error_of_failed hr
  apply (read_ends_of_row current r).mono
  · exact fun _ _ ⟨image, himage, _⟩ => ⟨_, image, himage⟩
  · rintro e next (hbreaks | ⟨image, himage, -⟩)
    · exact ⟨_, .inl hbreaks⟩
    · exact ⟨_, .inr ⟨image, himage⟩⟩

@[simp] theorem load_of_failed (hr : r.failed = true) :
    load r = .error (.readChain r.position) r := by
  simp only [load, bind, EStateM.bind, Preamble.read_of_failed hr]

theorem readLevel_of_level?_eq_none {header : Header} {level : Nat}
    (hslot : header.level? level = none) (r : Reader σ) :
    readLevel header level r = .error (.header (.emptyLevel level)) r := by
  rw [readLevel, hslot]
  rfl

/-- Whatever asks for no slot in use is refused and leaves the reader as it is. -/
theorem perform_of_failed (hr : r.failed = true) {call : Call} (hslot : call.extent? = none) :
    call.perform r = (call.refused (call.complaint r.position), r) := by
  cases call with
  | chain request =>
    simp only [Call.perform, Reader.perform_of_failed hr]
    rfl
  | finish =>
    have hfinish : Reader.finish r = .error (.readChain r.position) r := if_pos hr
    simp only [Call.perform, Action.outcome_of_error hfinish]
    rfl
  | loadPreamble current =>
    have hload : Preamble.load (current, r) = .error _ (current, r) :=
      Action.replace_of_error (Preamble.read_of_failed hr current)
    simp only [Call.perform, Action.outcome_of_error hload]
    rfl
  | loadHeader current =>
    have hload : Header.load (current, r) = .error _ (current, r) :=
      Action.replace_of_error (Header.read_of_failed hr current)
    simp only [Call.perform, Action.outcome_of_error hload]
    rfl
  | load =>
    simp only [Call.perform, Action.outcome_of_error (load_of_failed hr)]
    rfl
  | readLevel header level =>
    simp only [Call.perform, Action.outcome_of_error (readLevel_of_level?_eq_none hslot r)]
    rfl

/-! ## Levels in use -/

/-- Nothing is read, but the place of the payload is sought before the failure is noticed. -/
theorem readLevel_ends_of_failed (hr : r.failed = true) {header : Header} {level : Nat}
    {extent : Extent} (hslot : header.level? level = some extent) :
    (readLevel header level).Ends r (fun _ _ => False)
      fun _ next => next = ⟨extent.sought r.source, true⟩ := by
  simp only [readLevel, hslot, Action.ends_bind, Reader.onSource, Action.ends_on,
    Action.ends_modifyGet, hr, Extent.sought]
  generalize Source.size r.source = found
  obtain ⟨size, sized⟩ := found
  have hbroken (source : σ) :
      ((⟨source, true⟩ : Reader σ).fill extent.length.toNat).2 = ⟨source, true⟩ :=
    Reader.fill_of_failed rfl
  cases size with
  | none =>
    simp only [Action.ends_bind, Action.ends_on, Action.ends_modifyGet, Reader.finish_ends, hbroken,
      Option.any_none, if_true, Bool.false_eq_true, if_false]
    exact Source.seek_ends_of_perform _ rfl
  | some size =>
    simp only [Option.any_some, decide_eq_true_eq]
    split
    next => exact rfl
    next =>
      simp only [Action.ends_bind, Action.ends_on, Action.ends_modifyGet, Reader.finish_ends,
        hbroken, if_true]
      exact Source.seek_ends_of_perform _ rfl

theorem perform_of_extent (hr : r.failed = true) {call : Call} {extent : Extent}
    (hslot : call.extent? = some extent) :
    ∃ e, call.perform r = (call.refused e, ⟨extent.sought r.source, true⟩) := by
  cases call with
  | readLevel header level =>
    have hends := readLevel_ends_of_failed hr hslot
    cases hread : readLevel header level r with
    | ok payload next => exact (hends.of_ok hread).elim
    | error e next =>
      obtain rfl := hends.of_error hread
      refine ⟨e, ?_⟩
      simp only [Call.perform, Action.outcome_of_error hread]
      rfl
  | _ => cases hslot

/-- Either way the call is refused. -/
theorem exists_perform_eq_refused (hr : r.failed = true) (call : Call) :
    ∃ e, (call.perform r).1 = call.refused e := by
  cases hslot : call.extent? with
  | none => exact ⟨_, congrArg Prod.fst (perform_of_failed hr hslot)⟩
  | some extent =>
    obtain ⟨e, hperform⟩ := perform_of_extent hr hslot
    exact ⟨e, congrArg Prod.fst hperform⟩

/-- The source is asked for its size and perhaps for the place, and for nothing else. -/
theorem trace_sought (extent : Extent) (s : Source.Traced σ) :
    ∃ added, (extent.sought s).trace = s.trace ++ added ∧
      (added.map Prod.fst).Sublist [.size, .seek extent.offset.toNat] := by
  rw [Extent.sought]
  dsimp only
  split
  · exact ⟨_, rfl, List.Sublist.cons_cons _ (List.nil_sublist _)⟩
  · rw [Source.perform_traced]
    refine ⟨_, List.append_assoc .., List.Sublist.refl _⟩

theorem sought_of_locates (hsource : Source.Locates data anywhere inside) {s : σ}
    (h : anywhere s p) (extent : Extent) :
    anywhere (extent.sought s)
      (if extent.stop ≤ data.length then extent.offset.toNat else p) := by
  obtain ⟨hsize, hsized⟩ := hsource.size h
  simp only [Extent.sought, hsize, Option.any_some, decide_eq_true_eq]
  split
  next hlt => rwa [if_neg (Nat.not_le.mpr hlt)]
  next hge =>
    have hstop : extent.stop ≤ data.length := Nat.not_lt.mp hge
    obtain ⟨t, hseek, ht⟩ := hsource.seek hsized (Nat.le_trans (Nat.le_add_right ..) hstop)
    rw [if_pos hstop]
    simp only [Source.perform, hseek]
    exact hsource.weaken ht

/-! ## Rows of calls -/

/-- A failed reader stays failed. Its source is where the slots in use have led it that were asked
for. -/
theorem afterCalls_of_failed (hr : r.failed = true) (calls : List Call) :
    afterCalls calls r =
      ⟨(calls.filterMap Call.extent?).foldl (fun s extent => extent.sought s) r.source, true⟩ := by
  induction calls generalizing r with
  | nil => exact congrArg (Reader.mk r.source) hr
  | cons call rest ih =>
    rw [afterCalls, List.foldl_cons, ← afterCalls]
    cases hslot : call.extent? with
    | none => rw [perform_of_failed hr hslot, ih hr, List.filterMap_cons_none hslot]
    | some extent =>
      obtain ⟨e, hperform⟩ := perform_of_extent hr hslot
      rw [hperform, ih rfl, List.filterMap_cons_some hslot, List.foldl_cons]

theorem trace_foldl_sought (extents : List Extent) (s : Source.Traced σ) :
    ∃ added, (extents.foldl (fun s extent => extent.sought s) s).trace = s.trace ++ added ∧
      (added.map Prod.fst).Sublist
        (extents.flatMap fun extent => [.size, .seek extent.offset.toNat]) := by
  induction extents generalizing s with
  | nil => exact ⟨[], (List.append_nil _).symm, List.Sublist.refl _⟩
  | cons extent rest ih =>
    obtain ⟨first, hfirst, hcalls⟩ := trace_sought extent s
    obtain ⟨more, hmore, hrest⟩ := ih (extent.sought s)
    refine ⟨first ++ more, ?_, ?_⟩
    · simp [hmore, hfirst]
    · rw [List.map_append, List.flatMap_cons]
      exact hcalls.append hrest

/-- A source that gives access to its data rests at the last payload that was asked for and lies
inside them. -/
theorem foldl_sought_of_locates (hsource : Source.Locates data anywhere inside) {s : σ}
    (h : anywhere s p) (extents : List Extent) :
    anywhere (extents.foldl (fun s extent => extent.sought s) s)
      (((extents.filter (·.stop ≤ data.length)).map (·.offset.toNat)).getLastD p) := by
  induction extents generalizing s p with
  | nil => exact h
  | cons extent rest ih =>
    have hnext := ih (sought_of_locates hsource h extent)
    rw [List.foldl_cons, List.filter_cons]
    split at hnext
    next hstop =>
      rw [if_pos (decide_eq_true hstop), List.map_cons, List.getLastD_cons]
      exact hnext
    next hstop =>
      rw [if_neg (by simpa using hstop)]
      exact hnext

/-- Whatever is called on a failed reader, over any source: it stays failed, the next call is
refused and leaves its output alone, and no byte is read or passed over. The source notices nothing
but the slots in use that were asked for: it is asked for its size and sought, as if the chain were
unbroken. Where no such slot is asked for, the reader is just as it was and says so. Otherwise a
source that gives access to its data rests at the last payload asked for that lies inside them, and
that is the position reported. -/
theorem frozen_but_for_levels (source : σ) (calls : List Call) (call : Call) :
    let start : Reader (Source.Traced σ) := ⟨{ inner := source }, true⟩
    let r := afterCalls calls start
    let answer := call.perform r
    let extents := calls.filterMap Call.extent?
    r.failed = true ∧ (∃ e, answer.1 = call.refused e) ∧
      (call.extent? = none → answer = (call.refused (call.complaint r.position), r)) ∧
      (r.source.trace.map Prod.fst).Sublist
        (extents.flatMap fun extent => [.size, .seek extent.offset.toNat]) ∧
      (extents = [] → r = start) ∧
      ∀ {data : Bytes} {anywhere inside : σ → Nat → Prop} {p : Nat},
        Source.Locates data anywhere inside → anywhere source p →
          r.position =
            ((extents.filter (·.stop ≤ data.length)).map (·.offset.toNat)).getLastD p := by
  intro start r answer extents
  have hr : r = ⟨extents.foldl (fun s extent => extent.sought s) start.source, true⟩ :=
    afterCalls_of_failed rfl calls
  have hfailed : r.failed = true := by rw [hr]
  refine ⟨hfailed, exists_perform_eq_refused hfailed call, perform_of_failed hfailed, ?_,
    fun hnone => ?_, fun hsource hstart => ?_⟩
  · obtain ⟨added, htrace, hcalls⟩ := trace_foldl_sought extents start.source
    rw [hr, htrace]
    exact hcalls
  · rw [hr, hnone]
    rfl
  · have hlast := foldl_sought_of_locates hsource.traced (s := start.source)
      ⟨hstart, by simp [start]⟩ extents
    rw [hr]
    exact hsource.position hlast.1

/-- Loading and the level of an empty slot have no effect. The level of the first slot leads a
cursor from the end to its payload. -/
theorem frozen_but_for_levels_one_slot :
    let cursor : Cursor := ⟨[1, 2, 3, 4], 4, by decide⟩
    let header : Header := { levels := (Vector.replicate levelLimit {}).setIfInBounds 0 ⟨1, 2⟩ }
    let idle : List Call := [.loadPreamble {}, .loadHeader header, .load, .readLevel header 5]
    let start : Reader (Source.Traced Cursor) := ⟨{ inner := cursor }, true⟩
    let r := afterCalls (.readLevel header 0 :: idle) start
    afterCalls idle start = start ∧ r.position = 1 ∧
      Call.finish.perform r = (.finished (.error (.readChain 1)), r) := by
  intro cursor header idle start r
  obtain ⟨-, -, -, -, hfrozen, -⟩ := frozen_but_for_levels cursor idle .finish
  obtain ⟨-, -, hstill, -, -, hrests⟩ :=
    frozen_but_for_levels cursor (.readLevel header 0 :: idle) .finish
  have hposition : r.position = 1 :=
    (hrests (Cursor.walks [1, 2, 3, 4]).locates ⟨rfl, rfl⟩).trans (by decide)
  refine ⟨hfrozen rfl, hposition, ?_⟩
  rw [← hposition]
  exact hstill rfl

/-- The chain fails at the end of the data. Asking for a level moves the position back, and it is no
longer where the failure was that is reported. -/
theorem level_moves_failed_reader :
    let start : Reader Cursor := ⟨{ data := [1, 2, 3, 4] }, false⟩
    let header : Header := { levels := (Vector.replicate levelLimit {}).setIfInBounds 0 ⟨1, 2⟩ }
    let r := (start.read .u64 0).2
    let next := ((Call.readLevel header 0).perform r).2
    Reader.finish r = .error (.readChain 4) r ∧ Reader.finish next = .error (.readChain 1) next :=
  ⟨rfl, rfl⟩

end Octet.Texture
